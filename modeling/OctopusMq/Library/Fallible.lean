import OctopusMq.Library.Outcome
import Mathlib.Data.List.Basic

set_option autoImplicit false

/- Computations that may fail: inversion of a bind, and a list that grows by
elements each of which is checked against all earlier ones. -/
namespace Fallible

open Imperative Outcome

universe u v

theorem bind_eq_ok_iff {ε : Type v} {α β : Type u} (first : Except ε α)
    (next : α → Except ε β) (result : β) :
    (first >>= next) = .ok result ↔ ∃ value, first = .ok value ∧ next value = .ok result := by
  cases first with
  | error error =>
      refine ⟨fun impossible => (nomatch impossible), ?_⟩
      intro found
      obtain ⟨_, impossible, _⟩ := found
      cases impossible
  | ok value =>
      refine ⟨fun same => ⟨value, rfl, same⟩, ?_⟩
      intro found
      obtain ⟨_, same, rest⟩ := found
      cases same
      exact rest

variable {α β γ ε : Type*}

/-- Make an element of an item and append it, then check it against the earlier
ones. An element that fails the check stays. -/
def enlist (make : Nat → α → Except ε β) (check : List β → β → Except ε Unit) (item : α)
    (pool : List β) : Outcome (List β) γ ε :=
  match make pool.length item with
  | .error error => .throw pool error
  | .ok element =>
      match check pool element with
      | .error error => .throw (pool ++ [element]) error
      | .ok () => .done (pool ++ [element])

/-- The elements made of items, of which the first is the one with number `start`. -/
structure MadeFrom (make : Nat → α → Except ε β) (start : Nat) (items : List α)
    (added : List β) : Prop where
  length_eq : added.length = items.length
  made : ∀ i item element, items[i]? = some item → added[i]? = some element →
    make (start + i) item = .ok element

variable {make : Nat → α → Except ε β} {check : List β → β → Except ε Unit}

theorem MadeFrom.nil (start : Nat) : MadeFrom make start [] [] :=
  ⟨rfl, fun _ _ _ inside _ => nomatch inside⟩

theorem MadeFrom.cons {start : Nat} {item : α} {element : β} {items : List α} {added : List β}
    (first : make start item = .ok element) (rest : MadeFrom make (start + 1) items added) :
    MadeFrom make start (item :: items) (element :: added) := by
  refine ⟨congrArg (· + 1) rest.length_eq, ?_⟩
  intro i other madeOf there inside
  cases i with
  | zero =>
      rw [List.getElem?_cons_zero, Option.some.injEq] at there inside
      rw [← there, ← inside]
      exact first
  | succ i =>
      rw [List.getElem?_cons_succ] at there inside
      have later := rest.made i other madeOf there inside
      rwa [show start + (i + 1) = start + 1 + i by omega]

/-- Every item has its element. -/
theorem MadeFrom.exists_made {start i : Nat} {item : α} {items : List α} {added : List β}
    (made : MadeFrom make start items added) (there : items[i]? = some item) :
    ∃ element, added[i]? = some element ∧ make (start + i) item = .ok element := by
  obtain ⟨inside, _⟩ := List.getElem?_eq_some_iff.mp there
  have found := List.getElem?_eq_getElem (made.length_eq.symm ▸ inside)
  exact ⟨_, found, made.made i item _ there found⟩

/-- Every element is made of its item. -/
theorem MadeFrom.exists_source {start i : Nat} {element : β} {items : List α} {added : List β}
    (made : MadeFrom make start items added) (there : added[i]? = some element) :
    ∃ item, items[i]? = some item ∧ make (start + i) item = .ok element := by
  obtain ⟨inside, _⟩ := List.getElem?_eq_some_iff.mp there
  have found := List.getElem?_eq_getElem (made.length_eq ▸ inside)
  exact ⟨_, found, made.made i _ element found there⟩

theorem MadeFrom.exists_item {start i : Nat} {element : β} {items : List α} {added : List β}
    (made : MadeFrom make start items added) (there : added[i]? = some element) :
    ∃ item ∈ items, make (start + i) item = .ok element := by
  obtain ⟨item, found, same⟩ := made.exists_source there
  exact ⟨item, List.mem_of_getElem? found, same⟩

theorem enlist_ok {item : α} {pool : List β}
    (ok : (enlist make check item pool : Outcome (List β) γ ε).fault = none) :
    ∃ element, make pool.length item = .ok element ∧ check pool element = .ok () ∧
      (enlist make check item pool : Outcome (List β) γ ε).state = pool ++ [element] := by
  unfold enlist at ok ⊢
  cases first : make pool.length item with
  | error error =>
      rw [first] at ok
      cases ok
  | ok element =>
      simp only [first] at ok ⊢
      cases checked : check pool element with
      | error error =>
          rw [checked] at ok
          cases ok
      | ok done => exact ⟨element, rfl, checked, rfl⟩

/-- A list grown without a fault holds what was made of the items, and any two of
its elements are compatible if the check makes sure of each new one. -/
theorem forEach_enlist (compatible : β → β → Prop)
    (sound : ∀ pool element, check pool element = .ok () →
      ∀ earlier ∈ pool, compatible earlier element)
    (items : List α) (pool : List β) (apart : pool.Pairwise compatible)
    (ok : (forEach (enlist make check) items pool : Outcome (List β) γ ε).fault = none) :
    ∃ added, (forEach (enlist make check) items pool : Outcome (List β) γ ε).state =
        pool ++ added ∧
      (pool ++ added).Pairwise compatible ∧ MadeFrom make pool.length items added := by
  induction items generalizing pool with
  | nil =>
      refine ⟨[], (List.append_nil pool).symm, ?_, MadeFrom.nil pool.length⟩
      rw [List.append_nil]
      exact apart
  | cons item rest ih =>
      rw [forEach_cons] at ok ⊢
      obtain ⟨now, later⟩ := (andThen_fault_none_iff _ _).mp ok
      obtain ⟨element, first, checked, grown⟩ := enlist_ok now
      rw [andThen_of_ok _ _ now]
      rw [grown] at later ⊢
      have still : (pool ++ [element]).Pairwise compatible := by
        refine List.pairwise_append.mpr ⟨apart, List.pairwise_singleton _ _, ?_⟩
        intro earlier member last inside
        rw [List.mem_singleton.mp inside]
        exact sound pool element checked earlier member
      obtain ⟨added, state, pairwise, made⟩ := ih (pool ++ [element]) still later
      rw [List.append_assoc] at state pairwise
      rw [List.length_append, List.length_singleton] at made
      exact ⟨element :: added, state, pairwise, MadeFrom.cons first made⟩

/-- If every item can be made, all of them can. -/
theorem exists_madeFrom (items : List α) (start : Nat)
    (each : ∀ i item, items[i]? = some item → ∃ element, make (start + i) item = .ok element) :
    ∃ added, MadeFrom make start items added := by
  induction items generalizing start with
  | nil => exact ⟨[], MadeFrom.nil start⟩
  | cons item rest ih =>
      obtain ⟨element, first⟩ := each 0 item rfl
      obtain ⟨added, made⟩ := ih (start + 1) (by
        intro i other there
        obtain ⟨later, found⟩ := each (i + 1) other there
        exact ⟨later, by rwa [show start + 1 + i = start + (i + 1) by omega]⟩)
      exact ⟨element :: added, MadeFrom.cons first made⟩

theorem MadeFrom.uncons {start : Nat} {item : α} {items : List α} {added : List β}
    (made : MadeFrom make start (item :: items) added) :
    ∃ element rest, added = element :: rest ∧ make start item = .ok element ∧
      MadeFrom make (start + 1) items rest := by
  cases added with
  | nil => cases made.length_eq
  | cons element rest =>
      refine ⟨element, rest, rfl, made.made 0 item element rfl rfl,
        Nat.succ.inj made.length_eq, ?_⟩
      intro i other later there inside
      rw [show start + 1 + i = start + (i + 1) by omega]
      exact made.made (i + 1) other later there inside

theorem enlist_of_made {item : α} {pool : List β} {element : β}
    (made : make pool.length item = .ok element) :
    (enlist make check item pool : Outcome (List β) γ ε) =
      match check pool element with
      | .error error => .throw (pool ++ [element]) error
      | .ok () => .done (pool ++ [element]) := by
  unfold enlist
  rw [made]

/-- An element that passes its check is in the pool for the checks of all later ones. -/
theorem checked_cons {pool added : List β} {element : β} (checked : check pool element = .ok ())
    (later : ∀ front next back, added = front ++ next :: back →
      check (pool ++ [element] ++ front) next = .ok ()) :
    ∀ front next back, element :: added = front ++ next :: back →
      check (pool ++ front) next = .ok () := by
  intro front next back split
  cases front with
  | nil =>
      cases split
      rw [List.append_nil]
      exact checked
  | cons head front =>
      cases split
      have passed := later front next back rfl
      rwa [List.append_assoc, List.singleton_append] at passed

/-- When every item can be made, the list grows up to the first element that its
check refuses, or to the end. -/
theorem forEach_enlist_of_made (items : List α) (pool added : List β)
    (made : MadeFrom make pool.length items added) :
    ((∀ front element back, added = front ++ element :: back →
        check (pool ++ front) element = .ok ()) ∧
      (forEach (enlist make check) items pool : Outcome (List β) γ ε).fault = none) ∨
    ∃ front element back error, added = front ++ element :: back ∧
      (∀ before earlier after, front = before ++ earlier :: after →
        check (pool ++ before) earlier = .ok ()) ∧
      check (pool ++ front) element = .error error ∧
      (forEach (enlist make check) items pool : Outcome (List β) γ ε).fault = some error := by
  induction items generalizing pool added with
  | nil =>
      have empty := List.eq_nil_of_length_eq_zero made.length_eq
      rw [empty]
      refine Or.inl ⟨?_, rfl⟩
      intro front element back split
      cases front <;> cases split
  | cons item rest ih =>
      obtain ⟨element, later, rfl, first, others⟩ := made.uncons
      rw [forEach_cons, enlist_of_made first]
      cases checked : check pool element with
      | error error =>
          refine Or.inr ⟨[], element, later, error, rfl, ?_, by rw [List.append_nil, checked], rfl⟩
          intro before earlier after split
          cases before <;> cases split
      | ok accepted =>
          rw [done_andThen]
          rcases ih (pool ++ [element]) later (by simpa using others) with
            all | ⟨front, last, back, error, split, all, refused, failed⟩
          · exact Or.inl ⟨checked_cons checked all.1, all.2⟩
          · refine Or.inr ⟨element :: front, last, back, error, ?_, checked_cons checked all, ?_,
              failed⟩
            · rw [split, List.cons_append]
            · rwa [List.append_assoc, List.singleton_append] at refused

/-- Every element related to all before it: that is every two. -/
theorem pairwise_iff_split {relation : α → α → Prop} (elements : List α) :
    elements.Pairwise relation ↔ ∀ front element back, elements = front ++ element :: back →
      ∀ earlier ∈ front, relation earlier element := by
  refine ⟨?_, ?_⟩
  · intro apart front element back split earlier member
    rw [split] at apart
    exact (List.pairwise_append.mp apart).2.2 earlier member element List.mem_cons_self
  · intro each
    apply List.pairwise_iff_getElem.mpr
    intro i j insideFirst insideSecond before
    have split : elements = elements.take j ++ elements[j] :: elements.drop (j + 1) := by
      rw [← List.drop_eq_getElem_cons, List.take_append_drop]
    apply each _ _ _ split
    exact List.mem_take_iff_getElem.mpr ⟨i, by omega, rfl⟩

/-- A symmetric relation between any two elements holds between those at any two
different positions. -/
theorem pairwise_at {relation : α → α → Prop} (symm : ∀ first second, relation first second →
      relation second first) {elements : List α} (apart : elements.Pairwise relation)
    {i j : Nat} (differ : i ≠ j) {first second : α} (here : elements[i]? = some first)
    (there : elements[j]? = some second) : relation first second := by
  obtain ⟨insideFirst, atFirst⟩ := List.getElem?_eq_some_iff.mp here
  obtain ⟨insideSecond, atSecond⟩ := List.getElem?_eq_some_iff.mp there
  have ordered := List.pairwise_iff_getElem.mp apart
  rw [← atFirst, ← atSecond]
  rcases Nat.lt_or_gt_of_ne differ with before | after
  · exact ordered i j insideFirst insideSecond before
  · exact symm _ _ (ordered j i insideSecond insideFirst after)

end Fallible
