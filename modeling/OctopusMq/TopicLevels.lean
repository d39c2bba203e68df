import OctopusMq.Topic
import OctopusMq.Library.Segments
import OctopusMq.Library.Levels

set_option autoImplicit false

/- The two tokenizers against the `/`-separated levels of a string. -/
namespace OctopusMq.Scope

open LevelPattern

/-- The `/`-separated levels of a string. -/
def levels (text : Text) : List Text := text.splitOn slash

/-- A filter level is a wildcard, or holds no wildcard character. -/
def LevelAccepted (level : Text) : Prop :=
  level = hashSign ∨ level = plusSign ∨ hash ∉ level ∧ plus ∉ level

/-- Levels of an accepted filter: only the last one may be the hash sign. -/
def LevelsAccepted (tokens : List Text) : Prop :=
  (∀ token ∈ tokens, LevelAccepted token) ∧ ∀ token ∈ tokens.dropLast, token ≠ hashSign

/-- The grammar of topic filters. -/
def Accepted (topicFilter : Text) : Prop :=
  topicFilter ≠ [] ∧ LevelsAccepted (levels topicFilter)

/-- A topic name is not empty and holds no wildcard character. -/
def TopicName (topic : Text) : Prop := topic ≠ [] ∧ hash ∉ topic ∧ plus ∉ topic

instance (level : Text) : Decidable (LevelAccepted level) := by
  unfold LevelAccepted; infer_instance

instance (tokens : List Text) : Decidable (LevelsAccepted tokens) := by
  unfold LevelsAccepted; infer_instance

instance (topicFilter : Text) : Decidable (Accepted topicFilter) := by
  unfold Accepted; infer_instance

instance (topic : Text) : Decidable (TopicName topic) := by
  unfold TopicName; infer_instance

theorem levels_ne_nil (text : Text) : levels text ≠ [] := List.splitOn_ne_nil slash text

/-- Whether some level fails `check`, which is told if the level is the last one. -/
def anyRejected (check : Text → Bool → Bool) : List Text → Bool
  | [] => false
  | [token] => check token true
  | token :: next :: rest => check token false || anyRejected check (next :: rest)

theorem anyRejected_cons (check : Text → Bool → Bool) (token : Text) (rest : List Text)
    (more : rest ≠ []) :
    anyRejected check (token :: rest) = (check token false || anyRejected check rest) := by
  cases rest with
  | nil => exact absurd rfl more
  | cons next others => rfl

theorem anyRejected_never (tokens : List Text) :
    anyRejected (fun _ _ => false) tokens = false := by
  induction tokens with
  | nil => rfl
  | cons token rest ih => cases rest with
    | nil => rfl
    | cons next others => simpa only [anyRejected, Bool.false_or] using ih

/-- Past the end of the text the loop returns what it has collected. -/
theorem tokenizeFrom_end (text : Text) (rejects : Text → Nat → Bool) (fuel : Nat)
    (tokens : List Text) :
    tokenizeFrom text rejects (fuel + 1) (text.length + 1) tokens = .ok tokens := by
  have outside : ¬ text.length + 1 ≤ text.length := by omega
  simp only [tokenizeFrom, outside, ↓reduceIte]

/-- The index loop splits the rest of the text at the slashes. The induction is
on the bound; `enough` says that it is not reached. -/
theorem tokenizeFrom_eq (text : Text) (rejects : Text → Nat → Bool)
    (check : Text → Bool → Bool)
    (same : ∀ token second, rejects token second = check token (second == text.length))
    (fuel first : Nat) (tokens : List Text) (inside : first ≤ text.length)
    (enough : text.length + 2 ≤ fuel + first) :
    tokenizeFrom text rejects fuel first tokens =
      .ok (if anyRejected check (levels (text.drop first)) then []
        else tokens ++ levels (text.drop first)) := by
  induction fuel generalizing first tokens with
  | zero => omega
  | succ fuel ih =>
      simp only [tokenizeFrom, inside, ↓reduceIte]
      cases found : findFirstOf text slash first with
      | none =>
          have last : levels (text.drop first) = [text.drop first] :=
            Segments.splitOn_of_findIdx?_none slash _ ((findFirstOf_eq_none_iff _ _ _).mp found)
          have token : (text.drop first).take (text.length - first) = text.drop first :=
            List.take_of_length_le (by simp only [List.length_drop]; omega)
          obtain ⟨more, rfl⟩ : ∃ more, fuel = more + 1 := ⟨fuel - 1, by omega⟩
          simp only [Option.getD_none, substr_of_le _ _ _ inside, token, same, beq_self_eq_true,
            last, anyRejected, tokenizeFrom_end]
          split <;> rfl
      | some second =>
          obtain ⟨offset, rfl, inner, bound⟩ := findFirstOf_some found
          have here : levels (text.drop first) =
              (text.drop first).take offset :: levels (text.drop (first + offset + 1)) := by
            have split := Segments.splitOn_of_findIdx?_some slash _ offset inner
            rw [List.drop_drop] at split
            exact split
          have notLast : (first + offset == text.length) = false := by
            rw [beq_eq_false_iff_ne]
            omega
          have width : first + offset - first = offset := by omega
          simp only [Option.getD_some, substr_of_le _ _ _ inside, width, same, notLast, here]
          rw [anyRejected_cons check _ _ (levels_ne_nil _),
            ih (first + offset + 1) _ (by omega) (by omega)]
          cases check ((text.drop first).take offset) false <;> simp

/-- The check of a filter token, told whether the token is the last one. -/
def checkToken (token : Text) (last : Bool) : Bool :=
  (token == hashSign && !last) ||
    (token != hashSign && token != plusSign &&
      ((findFirstOf token hash 0).isSome || (findFirstOf token plus 0).isSome))

theorem checkToken_true_eq_false_iff (token : Text) :
    checkToken token true = false ↔ LevelAccepted token := by
  unfold checkToken LevelAccepted
  rw [← findFirstOf_zero_eq_none_iff token hash, ← findFirstOf_zero_eq_none_iff token plus]
  by_cases isHash : token = hashSign
  · simp [isHash]
  · by_cases isPlus : token = plusSign
    · simp [isPlus]
    · simp [isHash, isPlus]

theorem checkToken_false_eq_false_iff (token : Text) :
    checkToken token false = false ↔ LevelAccepted token ∧ token ≠ hashSign := by
  rw [← checkToken_true_eq_false_iff]
  unfold checkToken
  by_cases isHash : token = hashSign <;> simp [isHash]

theorem anyRejected_checkToken (tokens : List Text) :
    anyRejected checkToken tokens = false ↔ LevelsAccepted tokens := by
  induction tokens with
  | nil => simp [anyRejected, LevelsAccepted]
  | cons token rest ih =>
      cases rest with
      | nil => simp [anyRejected, LevelsAccepted, checkToken_true_eq_false_iff]
      | cons next others =>
          have tail : LevelsAccepted (token :: next :: others) ↔
              (LevelAccepted token ∧ token ≠ hashSign) ∧ LevelsAccepted (next :: others) := by
            simp only [LevelsAccepted, List.dropLast_cons_cons, List.mem_cons, forall_eq_or_imp]
            tauto
          rw [tail, ← ih, ← checkToken_false_eq_false_iff]
          simp only [anyRejected, Bool.or_eq_false_iff]

/-- `tokenize_topic_filter` never throws and returns the levels of the filters
of the grammar, nothing otherwise. -/
theorem tokenizeTopicFilter_eq (topicFilter : Text) :
    tokenizeTopicFilter topicFilter =
      .ok (if Accepted topicFilter then levels topicFilter else []) := by
  unfold tokenizeTopicFilter
  by_cases empty : topicFilter = []
  · simp [empty, Accepted]
  · by_cases shortcut : topicFilter = hashSign ∨ topicFilter = plusSign
    · have single : Accepted topicFilter ∧ levels topicFilter = [topicFilter] := by
        rcases shortcut with same | same <;> rw [same] <;> decide
      simp [empty, shortcut, single]
    · have loop := tokenizeFrom_eq topicFilter (rejectsToken topicFilter) checkToken
        (fun token second => by simp only [rejectsToken, checkToken, bne])
        (topicFilter.length + 2) 0 [] (by omega) (by omega)
      have verdict := anyRejected_checkToken (levels topicFilter)
      simp only [List.isEmpty_iff, empty, shortcut, ↓reduceIte, loop, List.drop_zero,
        List.nil_append, Accepted, ne_eq, not_false_eq_true, true_and]
      by_cases good : LevelsAccepted (levels topicFilter)
      · simp [good, verdict.mpr good]
      · have rejected : anyRejected checkToken (levels topicFilter) = true := by
          simpa only [Bool.not_eq_false] using mt verdict.mp good
        simp [good, rejected]

/-- `tokenize_topic` never throws and returns the levels of topic names,
nothing otherwise. -/
theorem tokenizeTopic_eq (topic : Text) :
    tokenizeTopic topic = .ok (if TopicName topic then levels topic else []) := by
  unfold tokenizeTopic
  by_cases empty : topic = []
  · simp [empty, TopicName]
  · have loop := tokenizeFrom_eq topic (fun _ _ => false) (fun _ _ => false) (fun _ _ => rfl)
      (topic.length + 2) 0 [] (by omega) (by omega)
    have noHash := findFirstOf_zero_eq_none_iff topic hash
    have noPlus := findFirstOf_zero_eq_none_iff topic plus
    simp only [List.isEmpty_iff, empty, ↓reduceIte, loop, anyRejected_never, List.drop_zero,
      List.nil_append, Bool.false_eq_true, TopicName, ne_eq, not_false_eq_true, true_and,
      ← noHash, ← noPlus, Option.isSome_iff_ne_none]
    by_cases hashFree : findFirstOf topic hash 0 = none <;>
      by_cases plusFree : findFirstOf topic plus 0 = none <;> simp [hashFree, plusFree]

/-- `valid_topic_filter` decides the grammar; its shortcuts agree with the tokenizer. -/
theorem validTopicFilter_eq (topicFilter : Text) :
    validTopicFilter topicFilter = .ok (decide (Accepted topicFilter)) := by
  unfold validTopicFilter
  by_cases shortcut :
      topicFilter = hashSign ∨ topicFilter = plusSign ∨ topicFilter = slashSign
  · have good : Accepted topicFilter := by
      rcases shortcut with same | same | same <;> rw [same] <;> decide
    simp [shortcut, good]
  · simp only [shortcut, ↓reduceIte, tokenizeTopicFilter_eq]
    by_cases good : Accepted topicFilter
    · simp [good, levels_ne_nil]
    · simp [good]

/-- `matches_filter` compares the levels of a filter and a topic name; the
filter `#` is answered before either is tokenized. -/
theorem matchesFilter_eq (filter topic : Text) :
    matchesFilter filter topic =
      if filter = hashSign then .ok true
      else if Accepted filter ∧ TopicName topic then compareTopics (levels filter) (levels topic)
      else .ok false := by
  simp only [matchesFilter, tokenizeTopicFilter_eq, tokenizeTopic_eq]
  by_cases good : Accepted filter <;> by_cases name : TopicName topic <;>
    simp [good, name, levels_ne_nil]

end OctopusMq.Scope
