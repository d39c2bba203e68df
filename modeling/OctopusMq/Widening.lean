import OctopusMq.TopicMatching
import OctopusMq.TopicGrammar

set_option autoImplicit false

/- Filters that differ in one level, or from one level on: the wider one matches
what the other one matches. -/
namespace OctopusMq.Scope

open LevelPattern

/-- The filter with `+` for the level at `index`. -/
def widenLevel (filter : Text) (index : Nat) : Text :=
  joinLevels ((levels filter).set index plusSign)

/-- The filter with `#` for all levels from `index` on. -/
def widenFrom (filter : Text) (index : Nat) : Text :=
  joinLevels ((levels filter).take index ++ [hashSign])

theorem levels_widenLevel (filter : Text) (index : Nat) :
    levels (widenLevel filter index) = (levels filter).set index plusSign := by
  apply levels_joinLevels
  · simpa only [ne_eq, List.set_eq_nil_iff] using levels_ne_nil filter
  · intro token member
    rcases List.mem_or_eq_of_mem_set member with old | new
    · exact slash_notMem_of_mem_levels old
    · rw [new]
      decide

theorem levels_widenFrom (filter : Text) (index : Nat) :
    levels (widenFrom filter index) = (levels filter).take index ++ [hashSign] := by
  apply levels_joinLevels
  · simp
  · intro token member
    rcases List.mem_append.mp member with old | new
    · exact slash_notMem_of_mem_levels (List.mem_of_mem_take old)
    · rw [List.mem_singleton.mp new]
      decide

/-- Levels with a wildcard character come from filters that are not empty. -/
theorem ne_nil_of_mem_levels {text level : Text} (member : level ∈ levels text)
    (nonempty : level ≠ []) : text ≠ [] := by
  intro empty
  rw [empty] at member
  exact nonempty (List.mem_singleton.mp member)

theorem filterLevel_plusSign : filterLevel plusSign = .single := by decide

theorem TokensDeliver.set_plus {tokens topic : List Text} (delivers : TokensDeliver tokens topic)
    (index : Nat) (notHash : tokens[index]? ≠ some hashSign) :
    TokensDeliver (tokens.set index plusSign) topic := by
  have notMulti : (tokens.map filterLevel)[index]? ≠ some .multi := by
    intro found
    rw [List.getElem?_map, Option.map_eq_some_iff] at found
    obtain ⟨token, there, isMulti⟩ := found
    exact notHash (there.trans (congrArg some ((filterLevel_eq_multi_iff token).mp isMulti)))
  have matched := delivers.1.set_single index notMulti
  rw [← filterLevel_plusSign, ← List.map_set] at matched
  refine ⟨matched, ?_⟩
  rcases delivers.2 with single | fits
  · rw [single] at notHash ⊢
    cases index with
    | zero => exact absurd rfl notHash
    | succ index => exact Or.inl rfl
  · rw [List.length_set]
    exact Or.inr fits

theorem TokensDeliver.take_hash {tokens topic : List Text} (delivers : TokensDeliver tokens topic)
    (index : Nat) (inside : index < tokens.length) :
    TokensDeliver (tokens.take index ++ [hashSign]) topic := by
  have matched := delivers.1.take_multi index (by rw [List.length_map]; exact inside)
  rw [← List.map_take, ← map_filterLevel_append_hash] at matched
  refine ⟨matched, ?_⟩
  rcases delivers.2 with single | fits
  · rw [single, List.length_singleton] at inside
    have first : index = 0 := by omega
    rw [first, List.take_zero, List.nil_append]
    exact Or.inl rfl
  · apply Or.inr
    rw [List.length_append, List.length_take, List.length_singleton]
    omega

theorem LevelsAccepted.set_plus {tokens : List Text} (accepted : LevelsAccepted tokens)
    (index : Nat) : LevelsAccepted (tokens.set index plusSign) := by
  have plusAccepted : LevelAccepted plusSign ∧ plusSign ≠ hashSign := by decide
  refine ⟨?_, ?_⟩
  · intro token member
    rcases List.mem_or_eq_of_mem_set member with old | new
    · exact accepted.1 token old
    · rw [new]
      exact plusAccepted.1
  · intro token member
    rw [List.dropLast_eq_take, List.length_set, List.take_set, ← List.dropLast_eq_take] at member
    rcases List.mem_or_eq_of_mem_set member with old | new
    · exact accepted.2 token old
    · rw [new]
      exact plusAccepted.2

theorem LevelsAccepted.take_hash {tokens : List Text} (accepted : LevelsAccepted tokens)
    (index : Nat) (inside : index < tokens.length) :
    LevelsAccepted (tokens.take index ++ [hashSign]) := by
  refine ⟨?_, ?_⟩
  · intro token member
    rcases List.mem_append.mp member with old | new
    · exact accepted.1 token (List.mem_of_mem_take old)
    · rw [List.mem_singleton.mp new]
      decide
  · intro token member
    rw [List.dropLast_concat] at member
    apply accepted.2 token
    rw [List.dropLast_eq_take]
    exact (List.take_subset_take_left tokens (by omega)) member

/-- A topic name is a filter without wildcards. -/
theorem TopicName.accepted {topic : Text} (name : TopicName topic) : Accepted topic := by
  have noWildcard : ∀ level ∈ levels topic, hash ∉ level ∧ plus ∉ level := by
    intro level member
    exact ⟨fun inside => name.2.1 (Segments.mem_of_mem_splitOn member inside),
      fun inside => name.2.2 (Segments.mem_of_mem_splitOn member inside)⟩
  refine ⟨name.1, fun level member => Or.inr (Or.inr (noWildcard level member)), ?_⟩
  intro level member
  exact name.plain level ((List.dropLast_sublist (levels topic)).subset member)

theorem TopicName.map_filterLevel {topic : Text} (name : TopicName topic) :
    (levels topic).map filterLevel = (levels topic).map Level.literal := by
  apply List.map_congr_left
  intro level member
  have notPlus : level ≠ plusSign := by
    intro same
    exact name.2.2 (Segments.mem_of_mem_splitOn member (by rw [same]; decide))
  unfold filterLevel
  rw [if_neg (name.plain level member), if_neg notPlus]

/-- Every topic name matches itself. -/
theorem matchesFilter_self {topic : Text} (name : TopicName topic) :
    matchesFilter topic topic = .ok true := by
  rw [(matchesFilter_cases name.accepted name).1, TokensDeliver, name.map_filterLevel]
  exact ⟨matches_map_literal (levels topic), Or.inr (Nat.le_refl _)⟩

theorem matchesFilter_widenLevel {filter topic : Text}
    (found : matchesFilter filter topic = .ok true)
    (index : Nat) (inside : index < (levels filter).length)
    (notHash : (levels filter)[index]? ≠ some hashSign) :
    matchesFilter (widenLevel filter index) topic = .ok true := by
  rw [matchesFilter_true_iff] at found ⊢
  rcases found with shortcut | delivers
  · rw [(levels_eq_hash_iff filter).mpr shortcut] at inside notHash
    have first : index = 0 := by
      rw [List.length_singleton] at inside
      omega
    rw [first] at notHash
    exact absurd rfl notHash
  · have holds : plusSign ∈ levels (widenLevel filter index) := by
      rw [levels_widenLevel]
      exact List.mem_set inside plusSign
    have accepted := delivers.1.2.set_plus index
    have matched := delivers.2.2.set_plus index notHash
    rw [← levels_widenLevel] at accepted matched
    exact Or.inr ⟨⟨ne_nil_of_mem_levels holds (by decide), accepted⟩, delivers.2.1, matched⟩

theorem matchesFilter_widenFrom {filter topic : Text}
    (found : matchesFilter filter topic = .ok true)
    (index : Nat) (inside : index < (levels filter).length) :
    matchesFilter (widenFrom filter index) topic = .ok true := by
  rw [matchesFilter_true_iff] at found ⊢
  rcases found with shortcut | delivers
  · rw [(levels_eq_hash_iff filter).mpr shortcut, List.length_singleton] at inside
    have first : index = 0 := by omega
    rw [first]
    exact Or.inl rfl
  · have holds : hashSign ∈ levels (widenFrom filter index) := by
      rw [levels_widenFrom]
      exact List.mem_append_right _ List.mem_cons_self
    have accepted := delivers.1.2.take_hash index inside
    have matched := delivers.2.2.take_hash index inside
    rw [← levels_widenFrom] at accepted matched
    exact Or.inr ⟨⟨ne_nil_of_mem_levels holds (by decide), accepted⟩, delivers.2.1, matched⟩

/-- A topic name matches itself. A filter that matches still does with `+` for
any level but a final `#`, and with `#` for all levels from any one on. -/
theorem matchesFilter_widens :
    (∀ topic, TopicName topic → matchesFilter topic topic = .ok true) ∧
    ∀ filter topic, validTopicFilter filter = .ok true → matchesFilter filter topic = .ok true →
      (∀ index, index < (levels filter).length → (levels filter)[index]? ≠ some hashSign →
        matchesFilter (widenLevel filter index) topic = .ok true) ∧
      ∀ index, index < (levels filter).length →
        matchesFilter (widenFrom filter index) topic = .ok true :=
  ⟨fun _ name => matchesFilter_self name, fun _ _ _ found =>
    ⟨fun index inside notHash => matchesFilter_widenLevel found index inside notHash,
      fun index inside => matchesFilter_widenFrom found index inside⟩⟩

end OctopusMq.Scope
