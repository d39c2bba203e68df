import OctopusMq.Scope
import Mathlib.Data.List.TakeWhile

set_option autoImplicit false

/- The constructors of `scope` and `includes` against `valid_topic_filter` and
`matches_filter`, for one filter and for lists of filters. -/
namespace OctopusMq.Scope

/-- The entries the list constructor looks at before it comes to a `#`. -/
def checkedEntries (filters : List Text) : List Text :=
  filters.takeWhile fun filter => decide (filter ≠ hashSign)

theorem checkedEntries_cons_hash (rest : List Text) : checkedEntries (hashSign :: rest) = [] := rfl

theorem checkedEntries_cons {filter : Text} (rest : List Text) (other : filter ≠ hashSign) :
    checkedEntries (filter :: rest) = filter :: checkedEntries rest := by
  unfold checkedEntries
  rw [List.takeWhile_cons_of_pos (by simpa only [decide_eq_true_eq] using other)]

theorem mem_of_mem_checkedEntries {filters : List Text} {filter : Text}
    (member : filter ∈ checkedEntries filters) : filter ∈ filters ∧ filter ≠ hashSign := by
  have other := List.mem_takeWhile_imp member
  exact ⟨(List.takeWhile_prefix _).subset member, of_decide_eq_true other⟩

theorem checkedEntries_of_notMem {filters : List Text} (absent : hashSign ∉ filters) :
    checkedEntries filters = filters := by
  unfold checkedEntries
  rw [List.takeWhile_eq_self_iff]
  intro filter member
  exact decide_eq_true fun same => absent (same ▸ member)

/-- One entry that is no `#`: it is stored when it is accepted, and the
constructor is left otherwise. -/
theorem ofVectorFrom_cons (self : Scope) (filter : Text) (rest : List Text)
    (other : filter ≠ hashSign) :
    (Accepted filter → ∃ good, ofVectorFrom self (filter :: rest) =
      ofVectorFrom (self.push (levels filter) good) rest) ∧
    (¬ Accepted filter →
      ofVectorFrom self (filter :: rest) = .error (.invalidTopicFilter filter)) := by
  have tokens := tokenizeTopicFilter_eq filter
  refine ⟨?_, ?_⟩
  · intro accepted
    rw [if_pos accepted] at tokens
    refine ⟨⟨levels_ne_nil filter, accepted.2⟩, ?_⟩
    rw [ofVectorFrom, if_neg other]
    split
    · rename_i fault failed
      rw [tokens] at failed
      cases failed
    · rename_i stored same
      rw [tokens] at same
      cases same
      rw [dif_pos (levels_ne_nil filter)]
  · intro refused
    rw [if_neg refused] at tokens
    rw [ofVectorFrom, if_neg other]
    split
    · rename_i fault failed
      rw [tokens] at failed
      cases failed
    · rename_i stored same
      rw [tokens] at same
      cases same
      rfl

/-- The constructor throws exactly when an entry before the first `#` is not
accepted, and otherwise stores the levels of those entries. The induction is on
the list, with the scope built so far. -/
theorem ofVectorFrom_spec (self : Scope) (filters : List Text) :
    ((∀ filter ∈ checkedEntries filters, Accepted filter) →
      ∃ built, ofVectorFrom self filters = .ok built ∧
        built.scope = self.scope ++ (checkedEntries filters).map levels ∧
        built.isGlobalWildcard = (self.isGlobalWildcard || decide (hashSign ∈ filters))) ∧
    ((∃ filter ∈ checkedEntries filters, ¬ Accepted filter) →
      ∃ filter ∈ checkedEntries filters, ¬ Accepted filter ∧
        ofVectorFrom self filters = .error (.invalidTopicFilter filter)) := by
  induction filters generalizing self with
  | nil =>
      refine ⟨fun _ => ⟨self, rfl, ?_, ?_⟩, ?_⟩
      · exact (List.append_nil _).symm
      · simp
      · intro found
        obtain ⟨filter, member, _⟩ := found
        cases member
  | cons filter rest ih =>
      by_cases shortcut : filter = hashSign
      · rw [shortcut, checkedEntries_cons_hash]
        refine ⟨fun _ => ⟨{ self with isGlobalWildcard := true }, ?_, ?_, ?_⟩, ?_⟩
        · rw [ofVectorFrom, if_pos rfl]
        · exact (List.append_nil _).symm
        · simp
        · intro found
          obtain ⟨filter, member, _⟩ := found
          cases member
      · have absent : decide (hashSign ∈ filter :: rest) = decide (hashSign ∈ rest) := by
          simp [Ne.symm shortcut]
        rw [checkedEntries_cons rest shortcut, absent]
        have here := ofVectorFrom_cons self filter rest shortcut
        refine ⟨?_, ?_⟩
        · intro accepted
          obtain ⟨good, step⟩ := here.1 (accepted filter List.mem_cons_self)
          obtain ⟨built, result, stored, wildcard⟩ := (ih (self.push (levels filter) good)).1
            fun other member => accepted other (List.mem_cons_of_mem filter member)
          refine ⟨built, step.trans result, ?_, wildcard⟩
          rw [stored, List.map_cons]
          show self.scope ++ [levels filter] ++ _ = _
          rw [List.append_assoc, List.singleton_append]
        · intro found
          by_cases accepted : Accepted filter
          · obtain ⟨good, step⟩ := here.1 accepted
            obtain ⟨bad, member, refused⟩ := found
            have later : bad ∈ checkedEntries rest := by
              rcases List.mem_cons.mp member with same | later
              · exact absurd (same ▸ accepted) refused
              · exact later
            obtain ⟨first, inside, invalid, result⟩ :=
              (ih (self.push (levels filter) good)).2 ⟨bad, later, refused⟩
            exact ⟨first, List.mem_cons_of_mem filter inside, invalid, step.trans result⟩
          · exact ⟨filter, List.mem_cons_self, accepted, here.2 accepted⟩

theorem ofVector_ok_iff (filters : List Text) :
    (∃ built, ofVector filters = .ok built) ↔
      ∀ filter ∈ checkedEntries filters, Accepted filter := by
  refine ⟨?_, ?_⟩
  · intro returned filter member
    apply Decidable.byContradiction
    intro refused
    obtain ⟨built, result⟩ := returned
    obtain ⟨bad, _, _, failed⟩ := (ofVectorFrom_spec blank filters).2 ⟨filter, member, refused⟩
    cases result.symm.trans failed
  · intro accepted
    obtain ⟨built, result, _⟩ := (ofVectorFrom_spec blank filters).1 accepted
    exact ⟨built, result⟩

/-- What a scope built from a list stores. -/
theorem ofVector_stored {filters : List Text} {built : Scope}
    (returned : ofVector filters = .ok built) :
    (∀ filter ∈ checkedEntries filters, Accepted filter) ∧
      built.scope = (checkedEntries filters).map levels ∧
      built.isGlobalWildcard = decide (hashSign ∈ filters) := by
  have accepted := (ofVector_ok_iff filters).mp ⟨built, returned⟩
  obtain ⟨other, result, stored, wildcard⟩ := (ofVectorFrom_spec blank filters).1 accepted
  have same : built = other := Except.ok.inj (returned.symm.trans result)
  rw [same]
  exact ⟨accepted, stored, wildcard⟩

/-- Away from the shortcut, matching is the comparison of the levels of a topic name. -/
theorem matchesFilter_of_accepted {filter : Text} (topic : Text) (accepted : Accepted filter)
    (other : filter ≠ hashSign) :
    matchesFilter filter topic =
      if TopicName topic then compareTopics (levels filter) (levels topic) else .ok false := by
  rw [matchesFilter_eq, if_neg other]
  simp only [accepted, true_and]

/-- When the loop of `includes` returns, it returns whether a stored filter matches. -/
theorem includesAny_returns (topicTokens : List Text) (filters : List (List Text)) (found : Bool)
    (returned : includesAny topicTokens filters = .ok found) :
    found = true ↔ ∃ tokens ∈ filters, compareTopics tokens topicTokens = .ok true := by
  induction filters with
  | nil =>
      cases returned
      simp
  | cons first rest ih =>
      unfold includesAny at returned
      cases compared : compareTopics first topicTokens with
      | error fault =>
          rw [compared] at returned
          cases returned
      | ok answer =>
          rw [compared] at returned
          cases answer with
          | true =>
              cases returned
              simp [compared]
          | false =>
              rw [ih returned]
              simp [compared]

/-- When `includes` of a scope built from a list returns, it returns whether a
filter of the list matches. -/
theorem includes_returns {filters : List Text} {built : Scope}
    (stored : ofVector filters = .ok built) (topic : Text) (found : Bool)
    (returned : built.includes topic = .ok found) :
    found = true ↔ ∃ filter ∈ filters, matchesFilter filter topic = .ok true := by
  obtain ⟨accepted, tokens, wildcard⟩ := ofVector_stored stored
  rw [includes_eq, wildcard, tokens] at returned
  by_cases global : hashSign ∈ filters
  · rw [if_pos (decide_eq_true global)] at returned
    cases returned
    simp only [true_iff]
    exact ⟨hashSign, global, by rw [matchesFilter_eq, if_pos rfl]⟩
  · rw [if_neg (by simpa only [decide_eq_true_eq] using global)] at returned
    rw [checkedEntries_of_notMem global] at returned accepted
    have matching (filter : Text) (member : filter ∈ filters) :=
      matchesFilter_of_accepted topic (accepted filter member) fun same => global (same ▸ member)
    by_cases name : TopicName topic
    · rw [if_pos name] at returned
      rw [includesAny_returns (levels topic) _ found returned]
      simp only [List.mem_map, exists_exists_and_eq_and]
      simp only [name, ↓reduceIte] at matching
      exact exists_congr fun filter => and_congr_right fun member => by rw [matching filter member]
    · rw [if_neg name] at returned
      cases returned
      simp only [name, ↓reduceIte] at matching
      simp only [Bool.false_eq_true, false_iff, not_exists, not_and]
      intro filter member found
      rw [matching filter member] at found
      cases found

/-- The constructor from one string: `#` is the global scope, an accepted filter
is stored, anything else is refused. -/
theorem ofString_spec (scopeString : Text) :
    (Accepted scopeString → ∃ built, ofString scopeString = .ok built ∧
      if scopeString = hashSign then built.isGlobalWildcard = true
      else built.isGlobalWildcard = false ∧ built.scope = [levels scopeString]) ∧
    (¬ Accepted scopeString → ofString scopeString = .error (.invalidTopicFilter scopeString)) := by
  have tokens := tokenizeTopicFilter_eq scopeString
  by_cases shortcut : scopeString = hashSign
  · have accepted : Accepted scopeString := by
      rw [shortcut]
      decide
    refine ⟨fun _ => ?_, fun refused => absurd accepted refused⟩
    rw [ofString, if_pos shortcut]
    exact ⟨_, rfl, by rw [if_pos shortcut]⟩
  · refine ⟨?_, ?_⟩
    · intro accepted
      rw [if_pos accepted] at tokens
      rw [ofString, if_neg shortcut]
      split
      · rename_i fault failed
        cases tokens.symm.trans failed
      · rename_i stored same
        cases tokens.symm.trans same
        rw [dif_pos (levels_ne_nil scopeString)]
        exact ⟨_, rfl, by rw [if_neg shortcut]; exact ⟨rfl, rfl⟩⟩
    · intro refused
      rw [if_neg refused] at tokens
      rw [ofString, if_neg shortcut]
      split
      · rename_i fault failed
        cases tokens.symm.trans failed
      · rename_i stored same
        cases tokens.symm.trans same
        rfl

theorem ofString_wildcard {scopeString : Text} {built : Scope}
    (returned : ofString scopeString = .ok built) :
    built.isGlobalWildcard = decide (scopeString = hashSign) := by
  by_cases accepted : Accepted scopeString
  · obtain ⟨other, result, stored⟩ := (ofString_spec scopeString).1 accepted
    rw [Except.ok.inj (returned.symm.trans result)]
    by_cases shortcut : scopeString = hashSign
    · rw [if_pos shortcut] at stored
      rw [stored, decide_eq_true shortcut]
    · rw [if_neg shortcut] at stored
      rw [stored.1, decide_eq_false shortcut]
  · cases returned.symm.trans ((ofString_spec scopeString).2 accepted)

theorem includesAny_singleton (topicTokens tokens : List Text) :
    includesAny topicTokens [tokens] = compareTopics tokens topicTokens := by
  unfold includesAny includesAny
  cases compareTopics tokens topicTokens with
  | error fault => rfl
  | ok found => cases found <;> rfl

/-- A configured scope of one filter and a client subscription to it are refused
together, and otherwise answer every string alike, reads out of range included. -/
theorem ofString_agrees_matchesFilter (filter : Text) :
    (ofString filter = .error (.invalidTopicFilter filter) ↔
      validTopicFilter filter = .ok false) ∧
    (∀ fault, ofString filter = .error fault → fault = .invalidTopicFilter filter) ∧
    ∀ built, ofString filter = .ok built → ∀ topic,
      built.includes topic = matchesFilter filter topic := by
  have constructed := ofString_spec filter
  rw [validTopicFilter_eq, Except.ok.injEq, decide_eq_false_iff_not]
  by_cases accepted : Accepted filter
  · obtain ⟨built, result, stored⟩ := constructed.1 accepted
    rw [result]
    refine ⟨by simp only [reduceCtorEq, accepted, not_true_eq_false], ?_, ?_⟩
    · intro fault failed
      cases failed
    · intro other same topic
      have isBuilt : built = other := Except.ok.inj same
      rw [← isBuilt, includes_eq]
      by_cases shortcut : filter = hashSign
      · rw [if_pos shortcut] at stored
        rw [if_pos stored, matchesFilter_eq, if_pos shortcut]
      · rw [if_neg shortcut] at stored
        rw [matchesFilter_of_accepted topic accepted shortcut, stored.1, stored.2,
          includesAny_singleton, if_neg Bool.false_ne_true]
  · rw [constructed.2 accepted]
    refine ⟨by simp only [accepted, not_false_eq_true], ?_, ?_⟩
    · intro fault failed
      exact (Except.error.inj failed).symm
    · intro built returned
      cases returned

/-- A filter found among the first ones ends the loop before it comes to any others. -/
theorem includesAny_append (topicTokens : List Text) (filters more : List (List Text))
    (found : includesAny topicTokens filters = .ok true) :
    includesAny topicTokens (filters ++ more) = .ok true := by
  induction filters with
  | nil => cases found
  | cons first rest ih =>
      rw [List.cons_append]
      unfold includesAny at found ⊢
      cases compared : compareTopics first topicTokens with
      | error fault =>
          rw [compared] at found
          cases found
      | ok answer =>
          rw [compared] at found
          cases answer with
          | true => rfl
          | false => exact ih found

theorem includes_append {filters more : List Text} {built wider : Scope}
    (stored : ofVector filters = .ok built) (extended : ofVector (filters ++ more) = .ok wider)
    (topic : Text) (found : built.includes topic = .ok true) :
    wider.includes topic = .ok true := by
  obtain ⟨_, tokens, wildcard⟩ := ofVector_stored stored
  obtain ⟨_, widerTokens, widerWildcard⟩ := ofVector_stored extended
  rw [includes_eq] at found ⊢
  by_cases global : hashSign ∈ filters ++ more
  · rw [widerWildcard, if_pos (decide_eq_true global)]
  · have before : hashSign ∉ filters := fun member => global (List.mem_append_left more member)
    rw [widerWildcard, if_neg (by simpa only [decide_eq_true_eq] using global), widerTokens,
      checkedEntries_of_notMem global, List.map_append]
    rw [wildcard, if_neg (by simpa only [decide_eq_true_eq] using before), tokens,
      checkedEntries_of_notMem before] at found
    by_cases name : TopicName topic
    · rw [if_pos name] at found ⊢
      exact includesAny_append (levels topic) _ _ found
    · rw [if_neg name] at found
      cases found

/-- A read out of range is the only way for `includes` not to return. -/
theorem includes_returns_of_inBounds (self : Scope) (topic : Text)
    (inside : self.includes topic ≠ .error .outOfRange) :
    ∃ found, self.includes topic = .ok found := by
  cases answer : self.includes topic with
  | ok found => exact ⟨found, rfl⟩
  | error fault =>
      rw [includes_fault self topic fault answer] at answer
      exact absurd answer inside

/-- `includes` of a scope built from a list is the union of its filters, and
longer lists include no less. -/
theorem includes_eq_union {filters : List Text} {built : Scope}
    (stored : ofVector filters = .ok built) :
    (∀ topic, built.includes topic ≠ .error .outOfRange →
      (built.includes topic = .ok true ↔
        ∃ filter ∈ filters, matchesFilter filter topic = .ok true)) ∧
    ∀ more wider, ofVector (filters ++ more) = .ok wider → ∀ topic,
      built.includes topic = .ok true → wider.includes topic = .ok true := by
  refine ⟨?_, fun more wider extended topic => includes_append stored extended topic⟩
  intro topic inside
  obtain ⟨found, returned⟩ := includes_returns_of_inBounds built topic inside
  rw [← includes_returns stored topic found returned, returned, Except.ok.injEq]

/-- Sensors and lights. -/
def sensorsAndLights : Scope :=
  (blank.push (levels (bytes "sensors/+")) (by decide)).push (levels (bytes "lights/#"))
    (by decide)

/-- A topic that only the later filter matches is included. -/
theorem includes_eq_union_sensors :
    sensorsAndLights.includes (bytes "lights/hall") = .ok true ∧
    (∀ topic, sensorsAndLights.includes topic ≠ .error .outOfRange →
      (sensorsAndLights.includes topic = .ok true ↔
        ∃ filter ∈ [bytes "sensors/+", bytes "lights/#"], matchesFilter filter topic = .ok true)) ∧
    ∀ more wider, ofVector ([bytes "sensors/+", bytes "lights/#"] ++ more) = .ok wider → ∀ topic,
      sensorsAndLights.includes topic = .ok true → wider.includes topic = .ok true :=
  ⟨by decide, @includes_eq_union [bytes "sensors/+", bytes "lights/#"] sensorsAndLights rfl⟩

/-- The list constructor throws `invalid_topic_filter`. -/
def Refused (filters : List Text) : Prop :=
  ∃ filter, ofVector filters = .error (.invalidTopicFilter filter)

/-- Two lists are refused together, and the scopes they build answer alike
wherever both answer. -/
def SameScope (first second : List Text) : Prop :=
  (Refused first ↔ Refused second) ∧
  ∀ left right, ofVector first = .ok left → ofVector second = .ok right → ∀ topic,
    left.includes topic ≠ .error .outOfRange → right.includes topic ≠ .error .outOfRange →
      left.includes topic = right.includes topic

theorem refused_iff (filters : List Text) :
    Refused filters ↔ ∃ filter ∈ checkedEntries filters, ¬ Accepted filter := by
  refine ⟨?_, ?_⟩
  · intro refused
    obtain ⟨filter, failed⟩ := refused
    apply Classical.byContradiction
    intro none
    obtain ⟨built, result⟩ := (ofVector_ok_iff filters).mpr fun filter member =>
      Decidable.byContradiction fun bad => none ⟨filter, member, bad⟩
    cases failed.symm.trans result
  · intro found
    obtain ⟨filter, _, _, result⟩ := (ofVectorFrom_spec blank filters).2 found
    exact ⟨filter, result⟩

/-- Without a `#` every entry is looked at, and without an invalid entry none matters. -/
theorem refused_of_not_both {filters : List Text}
    (notBoth : ¬ (hashSign ∈ filters ∧ ∃ filter ∈ filters, validTopicFilter filter = .ok false)) :
    Refused filters ↔ ∃ filter ∈ filters, ¬ Accepted filter := by
  rw [refused_iff]
  refine ⟨?_, ?_⟩
  · intro found
    obtain ⟨filter, member, bad⟩ := found
    exact ⟨filter, (mem_of_mem_checkedEntries member).1, bad⟩
  · intro found
    obtain ⟨filter, member, bad⟩ := found
    have noHash : hashSign ∉ filters := by
      intro global
      refine notBoth ⟨global, filter, member, ?_⟩
      rw [validTopicFilter_eq, decide_eq_false bad]
    rw [checkedEntries_of_notMem noHash]
    exact ⟨filter, member, bad⟩

theorem includes_perm {first second : List Text} (same : first.Perm second) {left right : Scope}
    (stored : ofVector first = .ok left) (other : ofVector second = .ok right) (topic : Text)
    (inside : left.includes topic ≠ .error .outOfRange)
    (inside' : right.includes topic ≠ .error .outOfRange) :
    left.includes topic = right.includes topic := by
  obtain ⟨found, returned⟩ := includes_returns_of_inBounds left topic inside
  obtain ⟨found', returned'⟩ := includes_returns_of_inBounds right topic inside'
  have matching := includes_returns stored topic found returned
  have matching' := includes_returns other topic found' returned'
  have answers : found = true ↔ found' = true := by
    rw [matching, matching']
    exact exists_congr fun filter => and_congr_left fun _ => same.mem_iff
  rw [returned, returned', Bool.eq_iff_iff.mpr answers]

/-- The order of a list of filters is of no consequence exactly when the list
does not hold both a `#` and an invalid filter: the constructor stops at a `#`,
and only looks at the entries before it. -/
theorem ofVector_orderFree_iff (filters : List Text) :
    (∀ reordered, filters.Perm reordered → SameScope filters reordered) ↔
      ¬ (hashSign ∈ filters ∧ ∃ filter ∈ filters, validTopicFilter filter = .ok false) := by
  refine ⟨?_, ?_⟩
  · intro orderFree both
    obtain ⟨global, bad, member, invalid⟩ := both
    have refusedBad : ¬ Accepted bad := by
      rw [validTopicFilter_eq, Except.ok.injEq, decide_eq_false_iff_not] at invalid
      exact invalid
    have notHash : bad ≠ hashSign := by
      intro same
      rw [same] at refusedBad
      exact refusedBad (by decide)
    -- With the `#` in front nothing is looked at, with the invalid filter in front it is.
    have hashFirst := (orderFree _ (List.perm_cons_erase global)).1
    have badFirst := (orderFree _ (List.perm_cons_erase member)).1
    rw [refused_iff (hashSign :: _), checkedEntries_cons_hash] at hashFirst
    rw [refused_iff (bad :: _), checkedEntries_cons _ notHash] at badFirst
    obtain ⟨filter, inside, _⟩ := hashFirst.mp (badFirst.mpr ⟨bad, List.mem_cons_self, refusedBad⟩)
    cases inside
  · intro notBoth reordered same
    have notBoth' : ¬ (hashSign ∈ reordered ∧
        ∃ filter ∈ reordered, validTopicFilter filter = .ok false) := by
      simpa only [same.mem_iff] using notBoth
    refine ⟨?_, ?_⟩
    · rw [refused_of_not_both notBoth, refused_of_not_both notBoth']
      exact exists_congr fun filter => and_congr_left fun _ => same.mem_iff
    · exact fun left right stored other topic => includes_perm same stored other topic

/-- `["#", "a#"]` is a global scope, `["a#", "#"]` is refused. -/
theorem ofVector_depends_on_order :
    ¬ ∀ first second : List Text, first.Perm second → SameScope first second := by
  intro orderFree
  have same := (orderFree [hashSign, bytes "a#"] [bytes "a#", hashSign] (List.Perm.swap _ _ _)).1
  rw [refused_iff, refused_iff] at same
  exact absurd (same.mpr (by decide)) (by decide)

end OctopusMq.Scope
