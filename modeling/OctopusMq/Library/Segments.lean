import Mathlib.Data.List.Basic
import Mathlib.Tactic.TypeStar

set_option autoImplicit false

/- Splitting a list at a separator, as an index scan sees it: one segment ends
at the first separator found, the rest starts right after it. Splitting it at the
item where a scan stops. -/
namespace Segments

variable {α : Type*}

/-- A scan that passes items until it stops at one. -/
theorem exists_split_cons {passes stops : α → Prop} (first : α) (rest : List α) :
    (∃ before item after, first :: rest = before ++ item :: after ∧
        (∀ earlier ∈ before, passes earlier) ∧ stops item) ↔
      stops first ∨ passes first ∧ ∃ before item after, rest = before ++ item :: after ∧
        (∀ earlier ∈ before, passes earlier) ∧ stops item := by
  refine ⟨?_, ?_⟩
  · intro found
    obtain ⟨before, item, after, split, passed, stopped⟩ := found
    cases before with
    | nil =>
        obtain ⟨head, _⟩ := List.cons.inj split
        rw [head]
        exact Or.inl stopped
    | cons other before =>
        obtain ⟨head, tail⟩ := List.cons.inj split
        rw [head]
        exact Or.inr ⟨passed other (by simp), before, item, after, tail,
          fun earlier member => passed earlier (by simp [member]), stopped⟩
  · intro found
    rcases found with now | later
    · exact ⟨[], first, rest, rfl, by simp, now⟩
    · obtain ⟨before, item, after, split, passed, stopped⟩ := later.2
      refine ⟨first :: before, item, after, by rw [split, List.cons_append], ?_, stopped⟩
      simp only [List.mem_cons, forall_eq_or_imp]
      exact ⟨later.1, passed⟩

variable [DecidableEq α]

theorem splitOn_of_findIdx?_none (separator : α) (xs : List α)
    (absent : xs.findIdx? (· == separator) = none) : xs.splitOn separator = [xs] := by
  apply List.splitOn_eq_singleton_of_beq_eq_false
  intro x member
  simpa only [Bool.not_eq_true] using List.findIdx?_eq_none_iff.mp absent x member

theorem splitOn_of_findIdx?_some (separator : α) (xs : List α) (index : Nat)
    (found : xs.findIdx? (· == separator) = some index) :
    xs.splitOn separator = xs.take index :: (xs.drop (index + 1)).splitOn separator := by
  obtain ⟨inside, here, first⟩ := List.findIdx?_eq_some_iff_getElem.mp found
  have same : xs[index] = separator := by simpa only [beq_iff_eq] using here
  have split : xs = xs.take index ++ separator :: xs.drop (index + 1) := by
    rw [← same, List.getElem_cons_drop, List.take_append_drop]
  have before : ∀ x ∈ xs.take index, (x == separator) = false := by
    intro x member
    obtain ⟨position, bound, rfl⟩ := List.mem_take_iff_getElem.mp member
    simpa only [Bool.not_eq_true] using first position (by omega)
  calc
    xs.splitOn separator =
        (xs.take index ++ separator :: xs.drop (index + 1)).splitOn separator := by rw [← split]
    _ = xs.take index :: (xs.drop (index + 1)).splitOn separator :=
      List.splitOn_append_cons_of_forall_mem_beq_eq_false before _ (by simp) _

/-- Segments only hold elements of the list. -/
theorem mem_of_mem_splitOn {separator x : α} {xs segment : List α}
    (member : segment ∈ xs.splitOn separator) (inside : x ∈ segment) : x ∈ xs := by
  have whole : [separator].intercalate (xs.splitOn separator) = xs :=
    List.intercalate_splitOn separator
  rw [← whole]
  generalize xs.splitOn separator = segments at member
  clear whole
  induction segments with
  | nil => cases member
  | cons first rest ih =>
      cases rest with
      | nil =>
          simp only [List.mem_singleton] at member
          subst member
          simpa using inside
      | cons second others =>
          rw [List.intercalate_cons_cons]
          rcases List.mem_cons.mp member with rfl | later
          · simp [inside]
          · simp [ih later]

/-- Segments do not hold the separator. -/
theorem not_mem_of_mem_splitOn {separator : α} {xs segment : List α}
    (member : segment ∈ xs.splitOn separator) : separator ∉ segment := by
  induction xs generalizing segment with
  | nil =>
      rw [List.splitOn_nil, List.mem_singleton] at member
      simp only [member, List.not_mem_nil, not_false_eq_true]
  | cons x rest ih =>
      rw [List.splitOn_cons_eq_if_modifyHead] at member
      split at member
      · rcases List.mem_cons.mp member with first | later
        · simp only [first, List.not_mem_nil, not_false_eq_true]
        · exact ih later
      · rename_i other
        cases segments : rest.splitOn separator with
        | nil => exact absurd segments (List.splitOn_ne_nil separator rest)
        | cons first others =>
            rw [segments] at member ih
            rw [List.modifyHead_cons] at member
            rcases List.mem_cons.mp member with grown | later
            · have passed : separator ≠ x := fun same => other (beq_iff_eq.mpr same.symm)
              simp only [grown, List.mem_cons, passed, false_or]
              exact ih List.mem_cons_self
            · exact ih (List.mem_cons_of_mem first later)

end Segments
