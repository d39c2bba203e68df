import OctopusMq.TopicLevels

set_option autoImplicit false

/- `compare_topics` and `matches_filter` against the wildcard rules of MQTT.
The special rule for topics that start with `$` is not part of the rules here. -/
namespace OctopusMq.Scope

open LevelPattern

/-- What a filter level stands for. -/
def filterLevel (token : Text) : Level Text :=
  if token = hashSign then .multi else if token = plusSign then .single else .literal token

/-- The level pattern a filter string denotes. -/
def pattern (topicFilter : Text) : List (Level Text) := (levels topicFilter).map filterLevel

/-- The MQTT wildcard rules, read level by level. -/
def MatchesRules (topicFilter topic : Text) : Prop :=
  Matches (pattern topicFilter) (levels topic)

/-- Every filter level matches, and the topic has further levels: nothing in
`compare_topics` keeps the read of `filter[i]` inside the filter. -/
def TokensOverread (filter topic : List Text) : Prop :=
  Closed (filter.map filterLevel) ∧
    ∃ front back, back ≠ [] ∧ topic = front ++ back ∧ Matches (filter.map filterLevel) front

/-- The filter, which does not end in `#`, matches a proper initial part of the
levels of the topic name. -/
def Overreads (filter topic : Text) : Prop :=
  Accepted filter ∧ TopicName topic ∧ TokensOverread (levels filter) (levels topic)

/-- The tokens match, and a final `#` other than the filter `#` has a level to stand for. -/
def TokensDeliver (filter topic : List Text) : Prop :=
  Matches (filter.map filterLevel) topic ∧ (filter = [hashSign] ∨ filter.length ≤ topic.length)

theorem filterLevel_eq_multi_iff (token : Text) :
    filterLevel token = .multi ↔ token = hashSign := by
  unfold filterLevel
  split
  · rename_i same
    simp [same]
  · rename_i other
    split <;> simp [other]

theorem closed_map_filterLevel_iff (tokens : List Text) :
    Closed (tokens.map filterLevel) ↔ ∀ token ∈ tokens, token ≠ hashSign := by
  simp only [Closed, List.forall_mem_map, ne_eq, filterLevel_eq_multi_iff]

/-- The test inside the loop of `compare_topics` is acceptance of one level, on
levels that are no hash sign. -/
theorem filterLevel_accepts (token level : Text) (plain : level ≠ hashSign) :
    (filterLevel token).accepts level = true ↔ token = level ∨ token = plusSign := by
  unfold filterLevel
  by_cases isHash : token = hashSign
  · have different : hashSign ≠ level := Ne.symm plain
    have noPlus : hashSign ≠ plusSign := by decide
    simp [isHash, different, noPlus, Level.accepts]
  · by_cases isPlus : token = plusSign
    · have noHash : plusSign ≠ hashSign := by decide
      simp [isPlus, noHash, Level.accepts]
    · simp [isHash, isPlus, Level.accepts]

/-- The counting loop reads inside the topic as long as the filter is not
longer, and counts the positions that agree. The induction is on the filter;
`before` holds the topic levels already passed. -/
theorem agreeingFrom_eq (before topic filter : List Text)
    (plain : ∀ level ∈ topic, level ≠ hashSign) (fits : filter.length ≤ topic.length) :
    agreeingFrom (before ++ topic) filter before.length =
      .ok (before.length + agreement (filter.map filterLevel) topic) := by
  induction filter generalizing before topic with
  | nil => simp [agreeingFrom, agreement]
  | cons token rest ih =>
      cases topic with
      | nil => simp at fits
      | cons level topic =>
          have read : (before ++ level :: topic)[before.length]? = some level := by simp
          have next : before ++ level :: topic = (before ++ [level]) ++ topic := by simp
          have accepts := filterLevel_accepts token level (plain level (by simp))
          simp only [List.length_cons] at fits
          simp only [agreeingFrom, read, List.map_cons, agreement]
          by_cases agrees : token = level ∨ token = plusSign
          · have tail := ih (before ++ [level]) topic
              (fun other member => plain other (by simp [member])) (by omega)
            have accepted : (filterLevel token).accepts level = true := accepts.mpr agrees
            rw [List.length_append, List.length_singleton] at tail
            simp only [agrees, accepted, ↓reduceIte, next, tail]
            congr 1
            omega
          · have refused : (filterLevel token).accepts level = false := by
              simpa only [Bool.not_eq_true] using mt accepts.mp agrees
            simp only [agrees, refused, ↓reduceIte, Bool.false_eq_true, Nat.add_zero]

theorem agreeingFrom_zero (topic filter : List Text)
    (plain : ∀ level ∈ topic, level ≠ hashSign) (fits : filter.length ≤ topic.length) :
    agreeingFrom topic filter 0 = .ok (agreement (filter.map filterLevel) topic) := by
  simpa only [List.nil_append, List.length_nil, Nat.zero_add] using
    agreeingFrom_eq [] topic filter plain fits

/-- A filter without hash sign: the final read is the one that can go astray. -/
theorem compareTopics_closed (filter topic : List Text)
    (plain : ∀ level ∈ topic, level ≠ hashSign) (noHash : ∀ token ∈ filter, token ≠ hashSign) :
    compareTopics filter topic =
      if topic.length < filter.length then .ok false
      else if agreement (filter.map filterLevel) topic < filter.length then .ok false
      else if filter.length < topic.length then .error .outOfRange
      else .ok true := by
  have notHash : ¬ (filter.length = 1 ∧ filter.head? = some hashSign) := by
    intro single
    exact noHash hashSign (List.mem_of_head? single.2) rfl
  unfold compareTopics
  simp only [notHash, ↓reduceIte]
  by_cases longer : topic.length < filter.length
  · simp only [longer, ↓reduceIte]
  · simp only [longer, ↓reduceIte, agreeingFrom_zero topic filter plain (by omega)]
    have bound := agreement_le_pattern (filter.map filterLevel) topic
    rw [List.length_map] at bound
    by_cases stopped : agreement (filter.map filterLevel) topic < filter.length
    · have inTopic : agreement (filter.map filterLevel) topic < topic.length := by omega
      have token := noHash _ (List.getElem_mem stopped)
      simp only [inTopic, stopped, ↓reduceIte, List.getElem?_eq_getElem stopped, ne_eq, token,
        not_false_eq_true]
    · have full : agreement (filter.map filterLevel) topic = filter.length := by omega
      simp only [full, Nat.lt_irrefl, ↓reduceIte, List.getElem?_eq_none (Nat.le_refl _)]

/-- A filter that ends in the hash sign: the final read always hits a token. -/
theorem compareTopics_open (filter topic : List Text)
    (plain : ∀ level ∈ topic, level ≠ hashSign) (noHash : ∀ token ∈ filter, token ≠ hashSign) :
    compareTopics (filter ++ [hashSign]) topic =
      if filter = [] then .ok true
      else if topic.length ≤ filter.length then .ok false
      else .ok (decide (agreement (filter.map filterLevel) topic = filter.length)) := by
  unfold compareTopics
  by_cases empty : filter = []
  · simp [empty]
  · have positive : 0 < filter.length := List.length_pos_of_ne_nil empty
    have notHash : ¬ ((filter ++ [hashSign]).length = 1 ∧
        (filter ++ [hashSign]).head? = some hashSign) := by
      simp only [List.length_append, List.length_singleton]
      omega
    have size : (filter ++ [hashSign]).length = filter.length + 1 := by simp
    simp only [notHash, ↓reduceIte]
    simp only [size, empty, ↓reduceIte]
    by_cases longer : topic.length ≤ filter.length
    · have guarded : topic.length < filter.length + 1 := by omega
      simp only [longer, guarded, ↓reduceIte]
    · have unguarded : ¬ topic.length < filter.length + 1 := by omega
      have counted : agreeingFrom topic (filter ++ [hashSign]) 0 =
          .ok (agreement (filter.map filterLevel) topic) := by
        have isMulti : filterLevel hashSign = .multi := (filterLevel_eq_multi_iff _).mpr rfl
        rw [agreeingFrom_zero topic _ plain (by omega), List.map_append, List.map_singleton,
          isMulti, agreement_append_multi]
      have bound := agreement_le_pattern (filter.map filterLevel) topic
      rw [List.length_map] at bound
      have inTopic : agreement (filter.map filterLevel) topic < topic.length := by omega
      simp only [longer, unguarded, ↓reduceIte, counted, inTopic]
      by_cases full : agreement (filter.map filterLevel) topic = filter.length
      · simp [full]
      · have stopped : agreement (filter.map filterLevel) topic < filter.length := by omega
        have token := noHash _ (List.getElem_mem stopped)
        simp only [List.getElem?_append_left stopped, List.getElem?_eq_getElem stopped, ne_eq,
          token, not_false_eq_true, ↓reduceIte, full, decide_false]

/-- Accepted levels hold no hash sign, or exactly one, at the end. -/
theorem LevelsAccepted.cases {filter : List Text} (accepted : LevelsAccepted filter) :
    (∀ token ∈ filter, token ≠ hashSign) ∨
      ∃ before, filter = before ++ [hashSign] ∧ ∀ token ∈ before, token ≠ hashSign := by
  rcases List.eq_nil_or_concat filter with empty | ⟨before, last, same⟩
  · exact Or.inl (by simp [empty])
  · rw [List.concat_eq_append] at same
    have front := accepted.2
    rw [same, List.dropLast_concat] at front
    by_cases isHash : last = hashSign
    · exact Or.inr ⟨before, by rw [same, isHash], front⟩
    · apply Or.inl
      intro token member
      rw [same, List.mem_append, List.mem_singleton] at member
      rcases member with inside | isLast
      · exact front token inside
      · rw [isLast]
        exact isHash

theorem map_filterLevel_append_hash (before : List Text) :
    (before ++ [hashSign]).map filterLevel = before.map filterLevel ++ [.multi] := by
  rw [List.map_append, List.map_singleton, (filterLevel_eq_multi_iff hashSign).mpr rfl]

theorem not_tokensOverread_append_hash (before topic : List Text) :
    ¬ TokensOverread (before ++ [hashSign]) topic := by
  intro overread
  exact (closed_map_filterLevel_iff _).mp overread.1 hashSign (by simp) rfl

/-- A comparison answers `true` exactly when the tokens deliver, reads past the
filter exactly when they overread, and answers `false` otherwise. -/
def Answers (answer : Except Fault Bool) (delivers overreads : Prop) : Prop :=
  (answer = .ok true ↔ delivers) ∧ (answer = .error .outOfRange ↔ overreads) ∧
    (answer = .ok false ↔ ¬ delivers ∧ ¬ overreads)

theorem answers_true {delivers overreads : Prop} (yes : delivers) (inside : ¬ overreads) :
    Answers (.ok true) delivers overreads := by
  simp [Answers, yes, inside]

theorem answers_false {delivers overreads : Prop} (no : ¬ delivers) (inside : ¬ overreads) :
    Answers (.ok false) delivers overreads := by
  simp [Answers, no, inside]

theorem answers_outOfRange {delivers overreads : Prop} (no : ¬ delivers) (outside : overreads) :
    Answers (.error .outOfRange) delivers overreads := by
  simp [Answers, no, outside]

theorem tokensOverread_closed_iff (filter topic : List Text)
    (closed : Closed (filter.map filterLevel)) :
    TokensOverread filter topic ↔
      agreement (filter.map filterLevel) topic = filter.length ∧ filter.length < topic.length := by
  have full := agreement_full_iff (filter.map filterLevel) topic closed
  rw [List.length_map] at full
  rw [full, TokensOverread]
  exact ⟨fun overread => overread.2, fun found => ⟨closed, found⟩⟩

theorem tokensDeliver_closed_iff (filter topic : List Text)
    (closed : Closed (filter.map filterLevel)) :
    TokensDeliver filter topic ↔
      agreement (filter.map filterLevel) topic = filter.length ∧ filter.length = topic.length := by
  have matching := matches_closed_iff (filter.map filterLevel) topic closed
  rw [List.length_map] at matching
  rw [TokensDeliver, matching]
  refine ⟨fun delivers => delivers.1, fun agrees => ⟨agrees, Or.inr ?_⟩⟩
  omega

/-- A filter without hash sign: the cases are those of the two comparisons of
lengths and of the count of agreeing positions. -/
theorem compareTopics_closed_answers {filter topic : List Text}
    (noHash : ∀ token ∈ filter, token ≠ hashSign) (plain : ∀ level ∈ topic, level ≠ hashSign) :
    Answers (compareTopics filter topic) (TokensDeliver filter topic)
      (TokensOverread filter topic) := by
  have closed := (closed_map_filterLevel_iff filter).mpr noHash
  have bound := agreement_le_pattern (filter.map filterLevel) topic
  have bound' := agreement_le_name (filter.map filterLevel) topic
  rw [List.length_map] at bound
  rw [compareTopics_closed filter topic plain noHash, tokensDeliver_closed_iff filter topic closed,
    tokensOverread_closed_iff filter topic closed]
  by_cases longer : topic.length < filter.length
  · rw [if_pos longer]
    apply answers_false
    · omega
    · omega
  · rw [if_neg longer]
    by_cases stopped : agreement (filter.map filterLevel) topic < filter.length
    · rw [if_pos stopped]
      apply answers_false
      · omega
      · omega
    · rw [if_neg stopped]
      by_cases more : filter.length < topic.length
      · rw [if_pos more]
        apply answers_outOfRange
        · omega
        · omega
      · rw [if_neg more]
        apply answers_true
        · omega
        · omega

/-- A filter that ends in the hash sign never overreads. -/
theorem compareTopics_open_answers {before topic : List Text}
    (noHash : ∀ token ∈ before, token ≠ hashSign) (plain : ∀ level ∈ topic, level ≠ hashSign) :
    Answers (compareTopics (before ++ [hashSign]) topic)
      (TokensDeliver (before ++ [hashSign]) topic)
      (TokensOverread (before ++ [hashSign]) topic) := by
  have closed := (closed_map_filterLevel_iff before).mpr noHash
  have matching := matches_append_multi_iff (before.map filterLevel) topic closed
  have inside := not_tokensOverread_append_hash before topic
  rw [List.length_map] at matching
  rw [compareTopics_open before topic plain noHash, TokensDeliver, map_filterLevel_append_hash,
    matching, List.length_append, List.length_singleton]
  by_cases empty : before = []
  · rw [if_pos empty]
    apply answers_true _ inside
    simp [empty, agreement]
  · rw [if_neg empty]
    have notSingle : before ++ [hashSign] ≠ [hashSign] := by simpa using empty
    by_cases longer : topic.length ≤ before.length
    · rw [if_pos longer]
      apply answers_false _ inside
      intro delivers
      have fits := delivers.2.resolve_left notSingle
      omega
    · rw [if_neg longer]
      by_cases full : agreement (before.map filterLevel) topic = before.length
      · rw [decide_eq_true full]
        apply answers_true _ inside
        exact ⟨full, Or.inr (by omega)⟩
      · rw [decide_eq_false full]
        apply answers_false _ inside
        exact fun delivers => full delivers.1

/-- On accepted levels `compare_topics` answers `true` exactly when the tokens
deliver, and reads past the filter exactly when they overread. -/
theorem compareTopics_cases {filter topic : List Text} (accepted : LevelsAccepted filter)
    (plain : ∀ level ∈ topic, level ≠ hashSign) :
    (compareTopics filter topic = .ok true ↔ TokensDeliver filter topic) ∧
      (compareTopics filter topic = .error .outOfRange ↔ TokensOverread filter topic) ∧
      (compareTopics filter topic = .ok false ↔
        ¬ TokensDeliver filter topic ∧ ¬ TokensOverread filter topic) := by
  rcases accepted.cases with noHash | ⟨before, same, noHash⟩
  · exact compareTopics_closed_answers noHash plain
  · rw [same]
    exact compareTopics_open_answers noHash plain

/-- The levels of a topic name hold no wildcard character. -/
theorem TopicName.plain {topic : Text} (name : TopicName topic) :
    ∀ level ∈ levels topic, level ≠ hashSign := by
  intro level member same
  subst same
  exact name.2.1 (Segments.mem_of_mem_splitOn member (by decide))

theorem levels_eq_hash_iff (filter : Text) : levels filter = [hashSign] ↔ filter = hashSign := by
  refine ⟨?_, ?_⟩
  · intro single
    have whole : [slash].intercalate (levels filter) = filter := List.intercalate_splitOn slash
    rw [single] at whole
    exact whole.symm
  · intro same
    rw [same]
    decide

/-- `matches_filter` on an accepted filter and a topic name. -/
theorem matchesFilter_cases {filter topic : Text} (accepted : Accepted filter)
    (name : TopicName topic) :
    (matchesFilter filter topic = .ok true ↔ TokensDeliver (levels filter) (levels topic)) ∧
      (matchesFilter filter topic = .error .outOfRange ↔ Overreads filter topic) := by
  have compared := compareTopics_cases accepted.2 name.plain
  rw [matchesFilter_eq]
  by_cases shortcut : filter = hashSign
  · have single : levels filter = [hashSign] := (levels_eq_hash_iff filter).mpr shortcut
    have delivers : TokensDeliver (levels filter) (levels topic) := by
      refine ⟨?_, Or.inl single⟩
      rw [single]
      exact .multi (levels topic)
    have inside : ¬ Overreads filter topic := by
      intro overread
      rw [Overreads, single] at overread
      exact not_tokensOverread_append_hash [] _ overread.2.2
    rw [if_pos shortcut]
    exact ⟨by simp only [delivers], by simp only [inside, reduceCtorEq]⟩
  · simp only [shortcut, ↓reduceIte, accepted, name, and_self, compared, Overreads, true_and]

/-- The only fault of `matches_filter` is the read past the end of the filter. -/
theorem matchesFilter_trichotomy (filter topic : Text) :
    matchesFilter filter topic = .ok true ∨ matchesFilter filter topic = .ok false ∨
      matchesFilter filter topic = .error .outOfRange := by
  rw [matchesFilter_eq]
  split
  · exact Or.inl rfl
  · split
    · rename_i good
      have compared := compareTopics_cases good.1.2 good.2.plain
      by_cases delivers : TokensDeliver (levels filter) (levels topic)
      · exact Or.inl (compared.1.mpr delivers)
      · by_cases overreads : TokensOverread (levels filter) (levels topic)
        · exact Or.inr (Or.inr (compared.2.1.mpr overreads))
        · exact Or.inr (Or.inl (compared.2.2.mpr ⟨delivers, overreads⟩))
    · exact Or.inr (Or.inl rfl)

theorem matchesFilter_outOfRange_iff (filter topic : Text) :
    matchesFilter filter topic = .error .outOfRange ↔ Overreads filter topic := by
  by_cases good : Accepted filter ∧ TopicName topic
  · exact (matchesFilter_cases good.1 good.2).2
  · have inside : ¬ Overreads filter topic := fun overread => good ⟨overread.1, overread.2.1⟩
    rw [matchesFilter_eq, if_neg good]
    simp only [inside, iff_false]
    split <;> simp

/-- What `matches_filter` answers with `true`: the filter `#` on any text, and an
accepted filter on a topic name its tokens deliver. -/
def Delivers (filter topic : Text) : Prop :=
  filter = hashSign ∨
    Accepted filter ∧ TopicName topic ∧ TokensDeliver (levels filter) (levels topic)

theorem matchesFilter_true_iff (filter topic : Text) :
    matchesFilter filter topic = .ok true ↔ Delivers filter topic := by
  unfold Delivers
  by_cases shortcut : filter = hashSign
  · simp only [matchesFilter_eq, shortcut, ↓reduceIte, true_or]
  · by_cases good : Accepted filter ∧ TopicName topic
    · rw [(matchesFilter_cases good.1 good.2).1]
      simp only [shortcut, good.1, good.2, true_and, false_or]
    · have refused : matchesFilter filter topic = .ok false := by
        rw [matchesFilter_eq, if_neg good, if_neg shortcut]
      rw [refused]
      simp only [shortcut, false_or, Except.ok.injEq, Bool.false_eq_true, false_iff]
      exact fun delivers => good ⟨delivers.1, delivers.2.1⟩

/-- No over-delivery: whatever `matches_filter` finds to match, matches by the rules. -/
theorem matchesFilter_sound (filter topic : Text) (found : matchesFilter filter topic = .ok true) :
    validTopicFilter filter = .ok true ∧ MatchesRules filter topic := by
  have good : Accepted filter ∧ MatchesRules filter topic := by
    rcases (matchesFilter_true_iff filter topic).mp found with shortcut | delivers
    · have single : pattern filter = [.multi] := by
        rw [shortcut]
        decide
      refine ⟨by rw [shortcut]; decide, ?_⟩
      rw [MatchesRules, single]
      exact .multi (levels topic)
    · exact ⟨delivers.1, delivers.2.2.1⟩
  rw [validTopicFilter_eq, decide_eq_true good.1]
  exact ⟨rfl, good.2⟩

theorem matchesFilter_sound_subtree :
    validTopicFilter (bytes "a/#") = .ok true ∧ MatchesRules (bytes "a/#") (bytes "a/b/c") :=
  matchesFilter_sound (bytes "a/#") (bytes "a/b/c") (by decide)

/-- A filter that matches a topic name by the rules is found to match unless its
final `#` would have to stand for no level at all. -/
theorem matchesFilter_true_iff_of_matchesRules (filter topic : Text)
    (valid : validTopicFilter filter = .ok true) (name : TopicName topic)
    (matching : MatchesRules filter topic) :
    matchesFilter filter topic = .ok true ↔
      filter = hashSign ∨ (levels filter).length ≤ (levels topic).length := by
  have accepted : Accepted filter := by simpa [validTopicFilter_eq] using valid
  rw [(matchesFilter_cases accepted name).1, TokensDeliver, levels_eq_hash_iff]
  exact ⟨fun delivers => delivers.2, fun fits => ⟨matching, fits⟩⟩

theorem matchesFilter_single_level :
    matchesFilter (bytes "a/+") (bytes "a/b") = .ok true ↔
      bytes "a/+" = hashSign ∨
        (levels (bytes "a/+")).length ≤ (levels (bytes "a/b")).length :=
  matchesFilter_true_iff_of_matchesRules (bytes "a/+") (bytes "a/b") (by decide) (by decide)
    (.literal _ (.single _ .nil))

/-- `a/#` matches its parent level `a` by the rules, but the length guard of
`compare_topics` answers first. -/
theorem matchesFilter_misses_parent :
    ¬ ∀ filter topic : Text, validTopicFilter filter = .ok true → TopicName topic →
      MatchesRules filter topic → matchesFilter filter topic = .ok true := by
  intro complete
  have parent := complete (bytes "a/#") (bytes "a") (by decide) (by decide)
    (.literal _ (.multi []))
  have missed : matchesFilter (bytes "a/#") (bytes "a") = .ok false := by decide
  rw [missed] at parent
  cases parent

end OctopusMq.Scope
