import Mathlib.Data.List.Induction
import Mathlib.Tactic.TypeStar

set_option autoImplicit false

/- Registers that keep the first value they are given until they are cleared. -/
namespace Register

/-- What an event does to a register. -/
inductive Move (α : Type*) where
  | claim (value : α)
  | clear
  | leave
deriving DecidableEq

variable {α : Type*}

namespace Move

/-- A claim counts only while the register is empty. -/
def apply (held : Option α) : Move α → Option α
  | .claim value => held.or (some value)
  | .clear => none
  | .leave => held

/-- The move claims the register, for any value. -/
def Claims : Move α → Prop
  | .claim _ => True
  | _ => False

end Move

/-- What a register holds after some moves. -/
def held (moves : List (Move α)) : Option α := moves.foldl Move.apply none

/-- No move has claimed the register since it was last cleared. -/
def Unclaimed (moves : List (Move α)) : Prop :=
  ∃ old recent, moves = old ++ recent ∧ (∀ last ∈ old.getLast?, last = .clear) ∧
    ∀ move ∈ recent, ¬ move.Claims

/-- The value is that of the first claim since the register was last cleared. -/
def InForce (moves : List (Move α)) (value : α) : Prop :=
  ∃ earlier later, moves = earlier ++ .claim value :: later ∧ Unclaimed earlier ∧ .clear ∉ later

theorem held_concat (moves : List (Move α)) (move : Move α) :
    held (moves ++ [move]) = move.apply (held moves) := by
  unfold held
  rw [List.foldl_append]
  rfl

theorem Unclaimed.concat {moves : List (Move α)} {move : Move α} (unclaimed : Unclaimed moves)
    (quiet : ¬ move.Claims) : Unclaimed (moves ++ [move]) := by
  obtain ⟨old, recent, split, ends, none⟩ := unclaimed
  refine ⟨old, recent ++ [move], ?_, ends, ?_⟩
  · rw [split, List.append_assoc]
  · intro other member
    rcases List.mem_append.mp member with before | now
    · exact none other before
    · rw [List.mem_singleton.mp now]
      exact quiet

theorem unclaimed_clear (moves : List (Move α)) : Unclaimed (moves ++ [.clear]) := by
  refine ⟨moves ++ [.clear], [], (List.append_nil _).symm, ?_, fun _ member => (nomatch member)⟩
  intro last found
  rw [List.getLast?_concat] at found
  exact (Option.some.inj found).symm

theorem InForce.concat {moves : List (Move α)} {move : Move α} {value : α}
    (inForce : InForce moves value) (stays : move ≠ .clear) : InForce (moves ++ [move]) value := by
  obtain ⟨earlier, later, split, unclaimed, kept⟩ := inForce
  refine ⟨earlier, later ++ [move], ?_, unclaimed, ?_⟩
  · rw [split, List.append_assoc, List.cons_append]
  · intro member
    rcases List.mem_append.mp member with before | now
    · exact kept before
    · exact stays (List.mem_singleton.mp now).symm

/-- A register holds a value in force, or is unclaimed. The induction is on the
moves, from the last. -/
theorem held_cases (moves : List (Move α)) :
    (∃ value, held moves = some value ∧ InForce moves value) ∨
      held moves = none ∧ Unclaimed moves := by
  induction moves using List.reverseRecOn with
  | nil =>
      exact Or.inr ⟨rfl, [], [], rfl, fun _ found => (nomatch found),
        fun _ member => (nomatch member)⟩
  | append_singleton moves move ih =>
      rw [held_concat]
      cases move with
      | claim value =>
          rcases ih with ⟨old, holds, inForce⟩ | ⟨empty, unclaimed⟩
          · rw [holds]
            exact Or.inl ⟨old, rfl, inForce.concat fun same => (nomatch same)⟩
          · rw [empty]
            exact Or.inl ⟨value, rfl, moves, [], rfl, unclaimed, fun member => (nomatch member)⟩
      | clear => exact Or.inr ⟨rfl, unclaimed_clear moves⟩
      | leave =>
          rcases ih with ⟨old, holds, inForce⟩ | ⟨empty, unclaimed⟩
          · exact Or.inl ⟨old, holds, inForce.concat fun same => (nomatch same)⟩
          · exact Or.inr ⟨empty, unclaimed.concat id⟩

theorem foldl_of_unclaimed {recent : List (Move α)} (quiet : ∀ move ∈ recent, ¬ move.Claims) :
    recent.foldl Move.apply none = none := by
  induction recent with
  | nil => rfl
  | cons move rest ih =>
      have silent := quiet move List.mem_cons_self
      rw [List.foldl_cons]
      cases move with
      | claim value => exact absurd trivial silent
      | clear => exact ih fun other member => quiet other (List.mem_cons_of_mem _ member)
      | leave => exact ih fun other member => quiet other (List.mem_cons_of_mem _ member)

theorem held_of_unclaimed {moves : List (Move α)} (unclaimed : Unclaimed moves) :
    held moves = none := by
  obtain ⟨old, recent, split, ends, quiet⟩ := unclaimed
  have start : held old = none := by
    cases old using List.reverseRecOn with
    | nil => rfl
    | append_singleton front last =>
        have clears : last = .clear := ends last List.getLast?_concat
        rw [held_concat, clears]
        rfl
  unfold held at start ⊢
  rw [split, List.foldl_append, start]
  exact foldl_of_unclaimed quiet

theorem foldl_of_kept {later : List (Move α)} (value : α) (kept : .clear ∉ later) :
    later.foldl Move.apply (some value) = some value := by
  induction later with
  | nil => rfl
  | cons move rest ih =>
      have stays : .clear ∉ rest := fun member => kept (List.mem_cons_of_mem _ member)
      rw [List.foldl_cons]
      cases move with
      | claim other => exact ih stays
      | clear => exact absurd List.mem_cons_self kept
      | leave => exact ih stays

/-- A register holds exactly the value in force. -/
theorem held_eq_some_iff (moves : List (Move α)) (value : α) :
    held moves = some value ↔ InForce moves value := by
  refine ⟨?_, ?_⟩
  · intro holds
    rcases held_cases moves with ⟨other, also, inForce⟩ | ⟨empty, _⟩
    · rw [holds] at also
      rw [Option.some.inj also]
      exact inForce
    · rw [holds] at empty
      cases empty
  · rintro ⟨earlier, later, split, unclaimed, kept⟩
    have start := held_of_unclaimed unclaimed
    unfold held at start ⊢
    rw [split, List.foldl_append, start, List.foldl_cons]
    exact foldl_of_kept value kept

end Register
