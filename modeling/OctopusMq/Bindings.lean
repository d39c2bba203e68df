import OctopusMq.Listeners

set_option autoImplicit false

/- The check of each adapter against the ones before it, as a property of the whole
list of entries. -/
namespace OctopusMq.Settings

open Imperative Outcome Fallible

variable {Json : Type} (build : Build) (api : JsonApi Json)
  (interfaces : Nat → Option (List Ifaddrs))

/-- The document has a list of adapters. -/
def HoldsAdapters (settingsJson : Json) : Prop :=
  ∃ adapters, api.find settingsJson (bytes "adapters") = some adapters ∧
    api.isArray adapters = true

/-- Each entry parses on its own. -/
def EachParses (entries : List Json) : Prop :=
  ∀ i entry, entries[i]? = some entry → ∃ settings, made build api interfaces i entry = .ok settings

def Collide (first second : ProtocolSettings) : Prop :=
  first.base.compareBinding second.base.phy.ip second.base.port = true

/-- No two entries at different positions collide, in either direction. -/
def Apart (entries : List Json) : Prop :=
  ∀ (i j : Nat) (first second : Json) (here there : ProtocolSettings), i ≠ j →
    entries[i]? = some first → entries[j]? = some second →
      made build api interfaces i first = .ok here →
        made build api interfaces j second = .ok there → ¬ Collide here there

/-- The names of an error are those of two adapters that collide, and those before
the later one are apart. -/
def NamesCollision (entries : List Json) (bindingName firstName secondName : Text) : Prop :=
  ∃ (i j : Nat) (earlier later : Json) (here there : ProtocolSettings), i < j ∧
    entries[i]? = some earlier ∧ entries[j]? = some later ∧
    made build api interfaces i earlier = .ok here ∧
    made build api interfaces j later = .ok there ∧ Collide there here ∧
    bindingName = there.base.bingingName ∧ firstName = there.base.name ∧
    secondName = here.base.name ∧ Apart build api interfaces (entries.take j)

theorem compatible_iff (earlier later : ProtocolSettings) :
    Compatible earlier later ↔ ¬ Collide later earlier := by
  unfold Compatible Collide
  rw [Bool.not_eq_true]

theorem checkAgainst_eq_ok_iff (back : ProtocolSettings) (adapterPool : List ProtocolSettings) :
    checkAgainst back.base adapterPool = .ok () ↔
      ∀ earlier ∈ adapterPool, Compatible earlier back := by
  refine ⟨checkAgainst_ok, ?_⟩
  intro apart
  induction adapterPool with
  | nil => rfl
  | cons iter rest ih =>
      have first : back.base.compareBinding iter.base.phy.ip iter.base.port = false :=
        apart iter List.mem_cons_self
      unfold checkAgainst
      rw [first]
      exact ih fun earlier member => apart earlier (List.mem_cons_of_mem iter member)

/-- The error is about the first adapter that the new one collides with. -/
theorem checkAgainst_error {back : ProtocolSettings} {adapterPool : List ProtocolSettings}
    {error : SetupError} (failed : checkAgainst back.base adapterPool = .error error) :
    ∃ earlier ∈ adapterPool, Collide back earlier ∧
      error = .adapterBindingError back.base.bingingName back.base.name earlier.base.name := by
  induction adapterPool with
  | nil => cases failed
  | cons iter rest ih =>
      unfold checkAgainst at failed
      split at failed
      · rename_i collides
        exact ⟨iter, List.mem_cons_self, collides, (Except.error.inj failed).symm⟩
      · obtain ⟨earlier, member, collides, same⟩ := ih failed
        exact ⟨earlier, List.mem_cons_of_mem iter member, collides, same⟩

theorem parse_eq_of_nonempty {settingsJson : Json} (list : HoldsAdapters api settingsJson)
    (nonempty : entries api settingsJson ≠ []) (adapterPool : List ProtocolSettings) :
    parse build api interfaces settingsJson adapterPool =
      forEach (enlist (made build api interfaces)
        fun pool settings => checkAgainst settings.base pool) (entries api settingsJson)
          adapterPool := by
  obtain ⟨adapters, found, array⟩ := list
  apply parse_eq_forEach build api interfaces found array
  unfold entries at nonempty
  rw [found] at nonempty
  rw [List.isEmpty_iff]
  exact nonempty

section Made

variable {build api interfaces} {entries : List Json} {added : List ProtocolSettings}

theorem apart_iff_pairwise (madeFrom : MadeFrom (made build api interfaces) 0 entries added) :
    Apart build api interfaces entries ↔ added.Pairwise Compatible := by
  refine ⟨?_, ?_⟩
  · intro apart
    apply List.pairwise_iff_getElem.mpr
    intro i j insideFirst insideSecond before
    obtain ⟨_, here, first⟩ := madeFrom.exists_source (List.getElem?_eq_getElem insideFirst)
    obtain ⟨_, there, second⟩ := madeFrom.exists_source (List.getElem?_eq_getElem insideSecond)
    rw [Nat.zero_add] at first second
    rw [compatible_iff]
    exact apart j i _ _ _ _ (by omega) there here second first
  · intro pairwise i j first second here there differ atFirst atSecond first_ second_
    obtain ⟨settings, inside, same⟩ := madeFrom.exists_made atFirst
    obtain ⟨other, otherInside, otherSame⟩ := madeFrom.exists_made atSecond
    rw [Nat.zero_add] at same otherSame
    cases first_.symm.trans same
    cases second_.symm.trans otherSame
    exact (compatible_iff there here).mp
      (pairwise_at (fun _ _ => Compatible.symm) pairwise differ.symm otherInside inside)

theorem madeFrom_take (madeFrom : MadeFrom (made build api interfaces) 0 entries added) (j : Nat) :
    MadeFrom (made build api interfaces) 0 (entries.take j) (added.take j) := by
  refine ⟨by rw [List.length_take, List.length_take, madeFrom.length_eq], ?_⟩
  intro i item element there inside
  rw [List.getElem?_take] at there inside
  by_cases before : i < j
  · rw [if_pos before] at there inside
    exact madeFrom.made i item element there inside
  · rw [if_neg before] at there
    cases there

/-- Checks that were passed up to an element: no two of the elements before collide. -/
theorem pairwise_of_checked {front : List ProtocolSettings}
    (passed : ∀ before next after, front = before ++ next :: after →
      checkAgainst next.base before = .ok ()) : front.Pairwise Compatible := by
  apply (pairwise_iff_split front).mpr
  intro before next after split
  exact (checkAgainst_eq_ok_iff next before).mp (passed before next after split)

/-- The adapter that is refused collides with one before it, and those are apart. -/
theorem namesCollision_of_refused {front rest : List ProtocolSettings} {back : ProtocolSettings}
    {error : SetupError}
    (madeFrom : MadeFrom (made build api interfaces) 0 entries (front ++ back :: rest))
    (passed : ∀ before next after, front = before ++ next :: after →
      checkAgainst next.base before = .ok ())
    (refused : checkAgainst back.base front = .error error) :
    ∃ bindingName firstName secondName,
      error = .adapterBindingError bindingName firstName secondName ∧
      NamesCollision build api interfaces entries bindingName firstName secondName := by
  obtain ⟨earlier, member, collides, same⟩ := checkAgainst_error refused
  obtain ⟨i, before, found⟩ := List.getElem_of_mem member
  have here : (front ++ back :: rest)[i]? = some earlier := by
    rw [List.getElem?_append_left before, List.getElem?_eq_getElem before, found]
  have there : (front ++ back :: rest)[front.length]? = some back := by
    rw [List.getElem?_append_right (Nat.le_refl _), Nat.sub_self, List.getElem?_cons_zero]
  obtain ⟨first, firstAt, firstMade⟩ := madeFrom.exists_source here
  obtain ⟨second, secondAt, secondMade⟩ := madeFrom.exists_source there
  rw [Nat.zero_add] at firstMade secondMade
  refine ⟨_, _, _, same, i, front.length, first, second, earlier, back, before, firstAt, secondAt,
    firstMade, secondMade, collides, rfl, rfl, rfl, ?_⟩
  have taken := madeFrom_take madeFrom front.length
  rw [List.take_left] at taken
  exact (apart_iff_pairwise taken).mpr (pairwise_of_checked passed)

end Made

/-- The loop of `parse` over entries that parse: it ends, or stops at the first
adapter that collides with an earlier one. -/
theorem parse_of_eachParses {settingsJson : Json} (list : HoldsAdapters api settingsJson)
    (nonempty : entries api settingsJson ≠ [])
    (parses : EachParses build api interfaces (entries api settingsJson)) :
    (Apart build api interfaces (entries api settingsJson) ∧
        (parse build api interfaces settingsJson []).fault = none) ∨
      ∃ bindingName firstName secondName,
        NamesCollision build api interfaces (entries api settingsJson) bindingName firstName
          secondName ∧
        (parse build api interfaces settingsJson []).fault =
          some (.adapterBindingError bindingName firstName secondName) := by
  obtain ⟨added, madeFrom⟩ := exists_madeFrom (entries api settingsJson) 0
    (fun i entry there => by
      rw [Nat.zero_add]
      exact parses i entry there)
  rw [parse_eq_of_nonempty build api interfaces list nonempty]
  have grown := @forEach_enlist_of_made Json ProtocolSettings Empty SetupError
    (made build api interfaces) (fun pool settings => checkAgainst settings.base pool)
    (entries api settingsJson) [] added madeFrom
  simp only [List.nil_append] at grown
  rcases grown with all | ⟨front, back, rest, error, rfl, passed, refused, failed⟩
  · exact Or.inl ⟨(apart_iff_pairwise madeFrom).mpr (pairwise_of_checked all.1), all.2⟩
  · obtain ⟨bindingName, firstName, secondName, rfl, names⟩ :=
      namesCollision_of_refused madeFrom passed refused
    exact Or.inr ⟨bindingName, firstName, secondName, names, failed⟩

theorem not_apart_of_namesCollision {entries : List Json} {bindingName firstName secondName : Text}
    (names : NamesCollision build api interfaces entries bindingName firstName secondName) :
    ¬ Apart build api interfaces entries := by
  intro apart
  obtain ⟨i, j, earlier, later, here, there, before, atEarlier, atLater, madeHere, madeThere,
    collides, _⟩ := names
  exact apart j i later earlier there here (by omega) atLater atEarlier madeThere madeHere collides

section Fixed

variable {build api interfaces} (fixed : ∀ number, interfaces number = interfaces 0)

include fixed

theorem made_of_fixed (number : Nat) (entry : Json) :
    made build api interfaces number entry = made build api interfaces 0 entry := by
  unfold made
  rw [fixed number]

/-- Over one list of interfaces, being apart is a relation between any two entries. -/
theorem apart_iff_pairwise_entries (entries : List Json) :
    Apart build api interfaces entries ↔
      entries.Pairwise fun one other => ∀ here there, made build api interfaces 0 one = .ok here →
        made build api interfaces 0 other = .ok there → Compatible here there := by
  refine ⟨?_, ?_⟩
  · intro apart
    apply List.pairwise_iff_getElem.mpr
    intro i j insideOne insideOther before here there madeHere madeThere
    rw [← made_of_fixed fixed i] at madeHere
    rw [← made_of_fixed fixed j] at madeThere
    rw [compatible_iff]
    exact apart j i _ _ there here (by omega) (List.getElem?_eq_getElem insideOther)
      (List.getElem?_eq_getElem insideOne) madeThere madeHere
  · intro pairwise i j one other here there differ atOne atOther madeHere madeThere
    rw [made_of_fixed fixed] at madeHere madeThere
    apply (compatible_iff there here).mp
    exact pairwise_at (fun _ _ symm here there madeHere madeThere =>
      (symm there here madeThere madeHere).symm) pairwise differ.symm atOther atOne there here
        madeThere madeHere

/-- So it does not depend on the order of the entries. -/
theorem apart_perm {first second : List Json} (perm : first.Perm second) :
    Apart build api interfaces first ↔ Apart build api interfaces second := by
  rw [apart_iff_pairwise_entries fixed, apart_iff_pairwise_entries fixed]
  apply perm.pairwise_iff
  intro one other symm here there madeHere madeThere
  exact (symm there here madeThere madeHere).symm

theorem eachParses_perm {first second : List Json} (perm : first.Perm second)
    (parses : EachParses build api interfaces second) : EachParses build api interfaces first := by
  intro i entry there
  obtain ⟨j, found⟩ := List.mem_iff_getElem?.mp (perm.mem_iff.mp (List.mem_of_getElem? there))
  obtain ⟨settings, ok⟩ := parses j entry found
  rw [made_of_fixed fixed] at ok ⊢
  exact ⟨settings, ok⟩

end Fixed

/-- For any list of entries that each parse, and is not empty, the check of each
adapter against the ones before it is the pairwise check: `parse` returns exactly if
no two collide, in whatever order they come, and its error names two that do. -/
theorem parse_ok_iff_apart (settingsJson : Json) (list : HoldsAdapters api settingsJson)
    (nonempty : entries api settingsJson ≠ [])
    (parses : EachParses build api interfaces (entries api settingsJson)) :
    ((parse build api interfaces settingsJson []).fault = none ↔
      Apart build api interfaces (entries api settingsJson)) ∧
    ((∀ number, interfaces number = interfaces 0) →
      ∀ other, HoldsAdapters api other → (entries api other).Perm (entries api settingsJson) →
        ((parse build api interfaces other []).fault = none ↔
          (parse build api interfaces settingsJson []).fault = none)) ∧
    ∀ bindingName firstName secondName,
      (parse build api interfaces settingsJson []).fault =
        some (.adapterBindingError bindingName firstName secondName) →
      NamesCollision build api interfaces (entries api settingsJson) bindingName firstName
        secondName := by
  have returns : ∀ document, HoldsAdapters api document → entries api document ≠ [] →
      EachParses build api interfaces (entries api document) →
      ((parse build api interfaces document []).fault = none ↔
        Apart build api interfaces (entries api document)) := by
    intro document list nonempty parses
    rcases parse_of_eachParses build api interfaces list nonempty parses with
      ended | ⟨_, _, _, names, failed⟩
    · exact ⟨fun _ => ended.1, fun _ => ended.2⟩
    · rw [failed]
      refine ⟨fun ok => (nomatch ok), ?_⟩
      exact fun apart => absurd apart (not_apart_of_namesCollision build api interfaces names)
  refine ⟨returns settingsJson list nonempty parses, ?_, ?_⟩
  · intro fixed other otherList perm
    have otherParses := eachParses_perm fixed perm parses
    have otherNonempty : entries api other ≠ [] := by
      intro empty
      rw [empty] at perm
      exact nonempty perm.nil_eq.symm
    rw [returns other otherList otherNonempty otherParses,
      returns settingsJson list nonempty parses, apart_perm fixed perm]
  · intro bindingName firstName secondName failed
    rcases parse_of_eachParses build api interfaces list nonempty parses with
      ended | ⟨_, _, _, names, other⟩
    · rw [ended.2] at failed
      cases failed
    · rw [other] at failed
      cases failed
      exact names

theorem parse_ok_iff_apart_octopusJson :
    (parse ⟨false, false⟩ JsonValue.api (fun _ => none) octopusJson []).fault = none ↔
      Apart ⟨false, false⟩ JsonValue.api (fun _ => none) (entries JsonValue.api octopusJson) :=
  (parse_ok_iff_apart ⟨false, false⟩ JsonValue.api (fun _ => none) octopusJson ⟨_, rfl, rfl⟩
    (by decide) (fun i entry there => match i, there with
      | 0, rfl => ⟨_, rfl⟩
      | 1, rfl => ⟨_, rfl⟩)).1

/-- An empty list is refused, though nothing in it collides. -/
theorem parse_refuses_empty_list :
    ¬ ∀ settingsJson : JsonValue, HoldsAdapters JsonValue.api settingsJson →
      EachParses ⟨false, false⟩ JsonValue.api (fun _ => none) (entries JsonValue.api settingsJson) →
      ((parse ⟨false, false⟩ JsonValue.api (fun _ => none) settingsJson []).fault = none ↔
        Apart ⟨false, false⟩ JsonValue.api (fun _ => none)
          (entries JsonValue.api settingsJson)) := by
  intro returns
  have empty := returns (.object [(bytes "adapters", .array [])]) ⟨.array [], rfl, rfl⟩
    (fun i entry there => by cases there)
  have ok := empty.mpr fun i j first second here there differ atFirst => by cases atFirst
  cases ok

end OctopusMq.Settings
