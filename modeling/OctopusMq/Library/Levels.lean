import Mathlib.Data.List.Basic
import Mathlib.Tactic.TypeStar

set_option autoImplicit false

/- Patterns over hierarchical names. A name is a list of levels; a pattern level
is a literal, the wildcard for exactly one level, or the wildcard for any number
of trailing levels. -/
namespace LevelPattern

/-- One level of a pattern. -/
inductive Level (α : Type*) where
  | literal (value : α)
  | single
  | multi
deriving DecidableEq, Repr

variable {α : Type*}

/-- A pattern matches a name level by level. A final `multi` stands for the
parent itself and any number of further levels. -/
inductive Matches : List (Level α) → List α → Prop
  | nil : Matches [] []
  | literal {pattern : List (Level α)} {name : List α} (value : α) :
      Matches pattern name → Matches (.literal value :: pattern) (value :: name)
  | single {pattern : List (Level α)} {name : List α} (value : α) :
      Matches pattern name → Matches (.single :: pattern) (value :: name)
  | multi (name : List α) : Matches [.multi] name

/-- No level of the pattern stands for several levels. -/
def Closed (pattern : List (Level α)) : Prop := ∀ level ∈ pattern, level ≠ .multi

@[simp] theorem closed_nil : Closed ([] : List (Level α)) := by simp [Closed]

@[simp] theorem closed_cons (level : Level α) (pattern : List (Level α)) :
    Closed (level :: pattern) ↔ level ≠ .multi ∧ Closed pattern := by
  simp only [Closed, List.mem_cons, forall_eq_or_imp]

/-- Literals match themselves. -/
theorem matches_map_literal (name : List α) : Matches (name.map Level.literal) name := by
  induction name with
  | nil => exact .nil
  | cons value rest ih => exact .literal value ih

/-- A level that is not the trailing wildcard may be widened to any one level. -/
theorem Matches.set_single {pattern : List (Level α)} {name : List α}
    (matched : Matches pattern name) (index : Nat) (notMulti : pattern[index]? ≠ some .multi) :
    Matches (pattern.set index .single) name := by
  induction matched generalizing index with
  | nil => exact .nil
  | literal value tail ih =>
      cases index with
      | zero => exact .single value tail
      | succ index => exact .literal value (ih index (by simpa using notMulti))
  | single value tail ih =>
      cases index with
      | zero => exact .single value tail
      | succ index => exact .single value (ih index (by simpa using notMulti))
  | multi name =>
      cases index with
      | zero => exact absurd rfl notMulti
      | succ index => exact .multi name

/-- From any level on, the rest of a pattern may be widened to the trailing wildcard. -/
theorem Matches.take_multi {pattern : List (Level α)} {name : List α}
    (matched : Matches pattern name) (index : Nat) (inside : index < pattern.length) :
    Matches (pattern.take index ++ [.multi]) name := by
  induction matched generalizing index with
  | nil => exact absurd inside (Nat.not_lt_zero index)
  | literal value tail ih =>
      cases index with
      | zero => exact .multi _
      | succ index => exact .literal value (ih index (Nat.lt_of_succ_lt_succ inside))
  | single value tail ih =>
      cases index with
      | zero => exact .multi _
      | succ index => exact .single value (ih index (Nat.lt_of_succ_lt_succ inside))
  | multi name =>
      have first : index = 0 := by
        rw [List.length_singleton] at inside
        omega
      rw [first]
      exact .multi name

variable [DecidableEq α]

/-- Acceptance of one level; `multi` is not a level of its own. -/
def Level.accepts : Level α → α → Bool
  | .literal value, level => value == level
  | .single, _ => true
  | .multi, _ => false

/-- The number of leading positions at which pattern and name agree. -/
def agreement : List (Level α) → List α → Nat
  | level :: pattern, value :: name =>
      if level.accepts value then agreement pattern name + 1 else 0
  | _, _ => 0

theorem agreement_le_pattern (pattern : List (Level α)) (name : List α) :
    agreement pattern name ≤ pattern.length := by
  induction pattern generalizing name with
  | nil => simp [agreement]
  | cons level pattern ih =>
      cases name with
      | nil => simp [agreement]
      | cons value name =>
          have tail := ih name
          simp only [agreement, List.length_cons]
          split <;> omega

theorem agreement_le_name (pattern : List (Level α)) (name : List α) :
    agreement pattern name ≤ name.length := by
  induction pattern generalizing name with
  | nil => simp [agreement]
  | cons level pattern ih =>
      cases name with
      | nil => simp [agreement]
      | cons value name =>
          have tail := ih name
          simp only [agreement, List.length_cons]
          split <;> omega

/-- The trailing wildcard does not take part in the agreement. -/
theorem agreement_append_multi (pattern : List (Level α)) (name : List α) :
    agreement (pattern ++ [.multi]) name = agreement pattern name := by
  induction pattern generalizing name with
  | nil => cases name <;> simp [agreement, Level.accepts]
  | cons level pattern ih => cases name <;> simp [agreement, ih]

/-- Matching peels off one level that is not the trailing wildcard. -/
theorem matches_cons_iff (level : Level α) (pattern : List (Level α)) (name : List α)
    (notMulti : level ≠ .multi) :
    Matches (level :: pattern) name ↔
      ∃ value rest, name = value :: rest ∧ level.accepts value = true ∧ Matches pattern rest := by
  refine ⟨?_, ?_⟩
  · intro matched
    generalize same : level :: pattern = whole at matched
    cases matched with
    | nil => cases same
    | literal value tail =>
        cases same
        exact ⟨value, _, rfl, by simp [Level.accepts], tail⟩
    | single value tail =>
        cases same
        exact ⟨value, _, rfl, rfl, tail⟩
    | multi =>
        cases same
        exact absurd rfl notMulti
  · intro split
    obtain ⟨value, rest, rfl, accepted, tail⟩ := split
    cases level with
    | literal text =>
        have same : text = value := by simpa [Level.accepts] using accepted
        subst same
        exact .literal text tail
    | single => exact .single value tail
    | multi => exact absurd rfl notMulti

/-- A pattern without a trailing wildcard matches the names of its own length
that agree with it everywhere. -/
theorem matches_closed_iff (pattern : List (Level α)) (name : List α)
    (closed : Closed pattern) :
    Matches pattern name ↔
      agreement pattern name = pattern.length ∧ pattern.length = name.length := by
  induction pattern generalizing name with
  | nil =>
      refine ⟨?_, ?_⟩
      · intro matched
        cases matched
        simp [agreement]
      · intro lengths
        rw [List.eq_nil_of_length_eq_zero lengths.2.symm]
        exact .nil
  | cons level pattern ih =>
      obtain ⟨notMulti, closedTail⟩ := (closed_cons level pattern).mp closed
      rw [matches_cons_iff level pattern name notMulti]
      cases name with
      | nil => simp
      | cons value name =>
          simp only [List.cons.injEq, agreement, List.length_cons]
          refine ⟨?_, ?_⟩
          · intro split
            obtain ⟨_, _, ⟨rfl, rfl⟩, accepted, tail⟩ := split
            have inner := (ih name closedTail).mp tail
            simp only [accepted, ↓reduceIte]
            omega
          · intro agrees
            obtain ⟨full, lengths⟩ := agrees
            split at full
            · rename_i accepted
              exact ⟨value, name, ⟨rfl, rfl⟩, accepted,
                (ih name closedTail).mpr ⟨by omega, by omega⟩⟩
            · omega

/-- A pattern with a trailing wildcard matches the names that agree with all
levels before it. -/
theorem matches_append_multi_iff (pattern : List (Level α)) (name : List α)
    (closed : Closed pattern) :
    Matches (pattern ++ [.multi]) name ↔ agreement pattern name = pattern.length := by
  induction pattern generalizing name with
  | nil =>
      simp only [List.nil_append, agreement, List.length_nil, iff_true]
      exact .multi name
  | cons level pattern ih =>
      obtain ⟨notMulti, closedTail⟩ := (closed_cons level pattern).mp closed
      rw [List.cons_append, matches_cons_iff level _ name notMulti]
      cases name with
      | nil => simp [agreement]
      | cons value name =>
          simp only [List.cons.injEq, agreement, List.length_cons]
          refine ⟨?_, ?_⟩
          · intro split
            obtain ⟨_, _, ⟨rfl, rfl⟩, accepted, tail⟩ := split
            simp only [accepted, ↓reduceIte, (ih name closedTail).mp tail]
          · intro full
            split at full
            · rename_i accepted
              exact ⟨value, name, ⟨rfl, rfl⟩, accepted, (ih name closedTail).mpr (by omega)⟩
            · omega

/-- Full agreement with a longer name is a match of a proper initial part of it. -/
theorem agreement_full_iff (pattern : List (Level α)) (name : List α) (closed : Closed pattern) :
    agreement pattern name = pattern.length ∧ pattern.length < name.length ↔
      ∃ front back, back ≠ [] ∧ name = front ++ back ∧ Matches pattern front := by
  induction pattern generalizing name with
  | nil =>
      refine ⟨?_, ?_⟩
      · intro longer
        exact ⟨[], name, List.ne_nil_of_length_pos longer.2, rfl, .nil⟩
      · intro found
        obtain ⟨front, back, nonempty, rfl, matched⟩ := found
        cases matched
        exact ⟨by simp [agreement], List.length_pos_of_ne_nil nonempty⟩
  | cons level pattern ih =>
      obtain ⟨notMulti, closedTail⟩ := (closed_cons level pattern).mp closed
      refine ⟨?_, ?_⟩
      · intro agrees
        obtain ⟨full, longer⟩ := agrees
        cases name with
        | nil => simp at longer
        | cons value name =>
            simp only [agreement, List.length_cons] at full longer
            split at full
            · rename_i accepted
              obtain ⟨front, back, nonempty, rfl, matched⟩ :=
                (ih name closedTail).mp ⟨by omega, by omega⟩
              exact ⟨value :: front, back, nonempty, rfl,
                (matches_cons_iff level pattern _ notMulti).mpr
                  ⟨value, front, rfl, accepted, matched⟩⟩
            · omega
      · intro found
        obtain ⟨front, back, nonempty, rfl, matched⟩ := found
        obtain ⟨value, rest, rfl, accepted, inner⟩ :=
          (matches_cons_iff level pattern front notMulti).mp matched
        have tail := (ih (rest ++ back) closedTail).mpr ⟨rest, back, nonempty, rfl, inner⟩
        simp only [List.cons_append, agreement, accepted, ↓reduceIte, List.length_cons]
        omega

end LevelPattern
