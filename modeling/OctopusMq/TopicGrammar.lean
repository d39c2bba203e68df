import OctopusMq.TopicLevels

set_option autoImplicit false

/- `tokenize_topic_filter` as a parser: the strings it accepts, and the round
trip between a filter and its levels. -/
namespace OctopusMq.Scope

/-- Levels joined by slashes. -/
def joinLevels (tokens : List Text) : Text := [slash].intercalate tokens

/-- `#` occurs only as the whole last level, and `+` only as a whole level. -/
def WellFormed (tokens : List Text) : Prop :=
  (∀ before token after, tokens = before ++ token :: after → hash ∈ token →
    token = hashSign ∧ after = []) ∧
  ∀ token ∈ tokens, plus ∈ token → token = plusSign

theorem joinLevels_levels (text : Text) : joinLevels (levels text) = text :=
  List.intercalate_splitOn slash

theorem slash_notMem_of_mem_levels {text level : Text} (member : level ∈ levels text) :
    slash ∉ level :=
  Segments.not_mem_of_mem_splitOn member

theorem levels_joinLevels {tokens : List Text} (nonempty : tokens ≠ [])
    (slashFree : ∀ token ∈ tokens, slash ∉ token) : levels (joinLevels tokens) = tokens :=
  List.splitOn_intercalate slash slashFree nonempty

/-- Only the list of one empty level is joined to the empty string. -/
theorem joinLevels_eq_nil {tokens : List Text} (nonempty : tokens ≠ [])
    (empty : joinLevels tokens = []) : tokens = [[]] := by
  cases tokens with
  | nil => exact absurd rfl nonempty
  | cons first rest =>
      unfold joinLevels at empty
      cases rest with
      | nil =>
          rw [List.intercalate_singleton] at empty
          rw [empty]
      | cons second others =>
          rw [List.intercalate_cons_cons] at empty
          simp at empty

/-- The level check of the tokenizer, as a condition on where the wildcards are. -/
theorem levelAccepted_iff (token : Text) :
    LevelAccepted token ↔
      (hash ∈ token → token = hashSign) ∧ (plus ∈ token → token = plusSign) := by
  unfold LevelAccepted
  by_cases isHash : token = hashSign
  · subst isHash
    decide
  · by_cases isPlus : token = plusSign
    · subst isPlus
      decide
    · simp only [isHash, isPlus, false_or, imp_false]

theorem levelsAccepted_iff_wellFormed (tokens : List Text) :
    LevelsAccepted tokens ↔ WellFormed tokens := by
  simp only [LevelsAccepted, WellFormed, levelAccepted_iff]
  refine ⟨?_, ?_⟩
  · intro accepted
    refine ⟨?_, fun token member => (accepted.1 token member).2⟩
    intro before token after split holds
    have isHash : token = hashSign := (accepted.1 token (by simp [split])).1 holds
    refine ⟨isHash, ?_⟩
    cases after with
    | nil => rfl
    | cons next others =>
        have front : token ∈ tokens.dropLast := by
          rw [split, List.dropLast_append_cons, List.dropLast_cons_cons]
          simp
        exact absurd isHash (accepted.2 token front)
  · intro formed
    refine ⟨?_, ?_⟩
    · intro token member
      obtain ⟨before, after, split⟩ := List.append_of_mem member
      exact ⟨fun holds => (formed.1 before token after split holds).1, formed.2 token member⟩
    · intro token member isHash
      obtain ⟨before, after, split⟩ := List.append_of_mem member
      have nonempty : tokens ≠ [] := by
        intro empty
        simp [empty] at member
      have whole : tokens = before ++ token :: (after ++ [tokens.getLast nonempty]) := by
        rw [← List.cons_append, ← List.append_assoc, ← split, List.dropLast_concat_getLast]
      have last := (formed.1 before token _ whole (by rw [isHash]; decide)).2
      simp at last

/-- `tokenize_topic_filter` never throws. It returns the levels of the strings
of the grammar, which are the ones `valid_topic_filter` answers with `true`, and
tokenizing well-formed levels that were joined gives them back. -/
theorem tokenizeTopicFilter_grammar :
    (∀ topicFilter, ∃ tokens, tokenizeTopicFilter topicFilter = .ok tokens ∧
      (tokens ≠ [] ↔ topicFilter ≠ [] ∧ WellFormed (levels topicFilter)) ∧
      (validTopicFilter topicFilter = .ok true ↔
        topicFilter ≠ [] ∧ WellFormed (levels topicFilter)) ∧
      (tokens ≠ [] → tokens = levels topicFilter ∧ joinLevels tokens = topicFilter)) ∧
    ∀ tokens, tokens ≠ [] → tokens ≠ [[]] → (∀ token ∈ tokens, slash ∉ token) →
      WellFormed tokens → tokenizeTopicFilter (joinLevels tokens) = .ok tokens := by
  refine ⟨?_, ?_⟩
  · intro topicFilter
    rw [← levelsAccepted_iff_wellFormed]
    refine ⟨_, tokenizeTopicFilter_eq topicFilter, ?_, ?_, ?_⟩
    · by_cases good : Accepted topicFilter
      · have whole : topicFilter ≠ [] ∧ LevelsAccepted (levels topicFilter) := good
        simp only [good, whole, ↓reduceIte, levels_ne_nil, ne_eq, not_false_eq_true, and_self]
      · have refused : ¬ (topicFilter ≠ [] ∧ LevelsAccepted (levels topicFilter)) := good
        simp only [good, refused, ↓reduceIte, ne_eq, not_true_eq_false]
    · rw [validTopicFilter_eq, Except.ok.injEq, decide_eq_true_eq]
      exact Iff.rfl
    · intro nonempty
      by_cases good : Accepted topicFilter
      · rw [if_pos good]
        exact ⟨rfl, joinLevels_levels topicFilter⟩
      · exact absurd (if_neg good) nonempty
  · intro tokens nonempty notBlank slashFree formed
    have split := levels_joinLevels nonempty slashFree
    have good : Accepted (joinLevels tokens) := by
      refine ⟨fun empty => notBlank (joinLevels_eq_nil nonempty empty), ?_⟩
      rw [split, levelsAccepted_iff_wellFormed]
      exact formed
    rw [tokenizeTopicFilter_eq, if_pos good, split]

end OctopusMq.Scope
