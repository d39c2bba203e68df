import Mathlib.Data.List.Basic
import Mathlib.Tactic.TypeStar

set_option autoImplicit false

/- Guarded state machines, their runs and the induction rules over runs. -/
namespace Transition

/-- A deterministic machine: `step` says what a label does, `enabled` when the
environment may issue it. -/
structure Machine (σ ι : Type*) where
  step : σ → ι → σ
  enabled : σ → ι → Prop

namespace Machine

variable {σ ι : Type*} (machine : Machine σ ι)

/-- The state after a list of labels. -/
def run : σ → List ι → σ
  | state, [] => state
  | state, label :: rest => run (machine.step state label) rest

/-- Every label of the list is enabled where it is issued. -/
def Admits : σ → List ι → Prop
  | _, [] => True
  | state, label :: rest => machine.enabled state label ∧ Admits (machine.step state label) rest

/-- Every step of the run satisfies `good`, a relation between the state before
the step and its label. -/
def EachStep (good : σ → ι → Prop) : σ → List ι → Prop
  | _, [] => True
  | state, label :: rest => good state label ∧ EachStep good (machine.step state label) rest

/-- Every state of the run, its first and its last included, satisfies `good`. -/
def Throughout (good : σ → Prop) : σ → List ι → Prop
  | state, [] => good state
  | state, label :: rest => good state ∧ Throughout good (machine.step state label) rest

/-- The states of admitted runs from `start`. -/
def Reachable (start state : σ) : Prop :=
  ∃ labels, machine.Admits start labels ∧ machine.run start labels = state

instance decidableAdmits [∀ state label, Decidable (machine.enabled state label)] :
    ∀ state labels, Decidable (machine.Admits state labels)
  | _, [] => isTrue trivial
  | state, label :: rest =>
      @instDecidableAnd _ _ _ (decidableAdmits (machine.step state label) rest)

instance decidableEachStep (good : σ → ι → Prop) [∀ state label, Decidable (good state label)] :
    ∀ state labels, Decidable (machine.EachStep good state labels)
  | _, [] => isTrue trivial
  | state, label :: rest =>
      @instDecidableAnd _ _ _ (decidableEachStep good (machine.step state label) rest)

theorem run_append (state : σ) (first second : List ι) :
    machine.run state (first ++ second) = machine.run (machine.run state first) second := by
  induction first generalizing state with
  | nil => rfl
  | cons label rest ih => exact ih (machine.step state label)

theorem admits_append (state : σ) (first second : List ι) :
    machine.Admits state (first ++ second) ↔
      machine.Admits state first ∧ machine.Admits (machine.run state first) second := by
  induction first generalizing state with
  | nil => simp only [List.nil_append, Admits, run, true_and]
  | cons label rest ih => simp only [List.cons_append, Admits, run, ih, and_assoc]

/-- What every admitted step keeps, every admitted run keeps. -/
theorem run_invariant (inv : σ → Prop)
    (keep : ∀ state label, machine.enabled state label → inv state →
      inv (machine.step state label))
    (state : σ) (labels : List ι) (admitted : machine.Admits state labels) (start : inv state) :
    inv (machine.run state labels) := by
  induction labels generalizing state with
  | nil => exact start
  | cons label rest ih => exact ih _ admitted.2 (keep state label admitted.1 start)

theorem Reachable.invariant {machine : Machine σ ι} {start state : σ}
    (reached : machine.Reachable start state) (inv : σ → Prop)
    (keep : ∀ state label, machine.enabled state label → inv state →
      inv (machine.step state label)) (initially : inv start) : inv state := by
  obtain ⟨labels, admitted, rfl⟩ := reached
  exact machine.run_invariant inv keep start labels admitted initially

/-- Two runs of the same labels: what every step keeps between their states, the runs do. -/
theorem run_relation (rel : σ → σ → Prop)
    (keep : ∀ first second label, machine.enabled first label → rel first second →
      machine.enabled second label ∧ rel (machine.step first label) (machine.step second label))
    (first second : σ) (labels : List ι) (admitted : machine.Admits first labels)
    (start : rel first second) :
    machine.Admits second labels ∧ rel (machine.run first labels) (machine.run second labels) := by
  induction labels generalizing first second with
  | nil => exact ⟨trivial, start⟩
  | cons label rest ih =>
      have now := keep first second label admitted.1 start
      have later := ih _ _ admitted.2 now.2
      exact ⟨⟨now.1, later.1⟩, later.2⟩

theorem throughout_iff (good : σ → Prop) (state : σ) (labels : List ι) :
    machine.Throughout good state labels ↔
      ∀ front back, labels = front ++ back → good (machine.run state front) := by
  induction labels generalizing state with
  | nil =>
      refine ⟨?_, fun all => all [] [] rfl⟩
      intro holds front back split
      rw [(List.append_eq_nil_iff.mp split.symm).1]
      exact holds
  | cons label rest ih =>
      refine ⟨?_, ?_⟩
      · intro holds front back split
        cases front with
        | nil => exact holds.1
        | cons first front =>
            obtain ⟨same, split⟩ := List.cons.inj split
            rw [← same]
            exact (ih (machine.step state label)).mp holds.2 front back split
      · intro all
        refine ⟨all [] (label :: rest) rfl, (ih _).mpr ?_⟩
        intro front back split
        exact all (label :: front) back (by rw [split, List.cons_append])

theorem EachStep.imp {machine : Machine σ ι} {good other : σ → ι → Prop}
    (weaker : ∀ state label, good state label → other state label) {state : σ} {labels : List ι}
    (each : machine.EachStep good state labels) : machine.EachStep other state labels := by
  induction labels generalizing state with
  | nil => trivial
  | cons label rest ih => exact ⟨weaker state label each.1, ih each.2⟩

theorem Throughout.imp {machine : Machine σ ι} {good other : σ → Prop}
    (weaker : ∀ state, good state → other state) {state : σ} {labels : List ι}
    (holds : machine.Throughout good state labels) : machine.Throughout other state labels := by
  induction labels generalizing state with
  | nil => exact weaker state holds
  | cons label rest ih => exact ⟨weaker state holds.1, ih holds.2⟩

theorem Throughout.first {machine : Machine σ ι} {good : σ → Prop} {state : σ} {labels : List ι}
    (holds : machine.Throughout good state labels) : good state := by
  cases labels with
  | nil => exact holds
  | cons label rest => exact holds.1

/-- What good steps keep holds throughout a run of good steps. -/
theorem throughout_of_eachStep (inv : σ → Prop) (good : σ → ι → Prop)
    (keep : ∀ state label, machine.enabled state label → good state label → inv state →
      inv (machine.step state label))
    (state : σ) (labels : List ι) (admitted : machine.Admits state labels)
    (each : machine.EachStep good state labels) (start : inv state) :
    machine.Throughout inv state labels := by
  induction labels generalizing state with
  | nil => exact start
  | cons label rest ih =>
      exact ⟨start, ih _ admitted.2 each.2 (keep state label admitted.1 each.1 start)⟩

/-- What an invariant gives of every step, every step of an admitted run has. -/
theorem eachStep_of_invariant (inv : σ → Prop) (good : σ → ι → Prop)
    (keep : ∀ state label, machine.enabled state label → inv state →
      inv (machine.step state label))
    (gives : ∀ state label, machine.enabled state label → inv state → good state label)
    (state : σ) (labels : List ι) (admitted : machine.Admits state labels) (start : inv state) :
    machine.EachStep good state labels := by
  induction labels generalizing state with
  | nil => trivial
  | cons label rest ih =>
      exact ⟨gives state label admitted.1 start,
        ih _ admitted.2 (keep state label admitted.1 start)⟩

/-- When good steps keep an invariant that gives the property, and a step that
is not good breaks the property, the property holds throughout exactly the runs
of good steps. -/
theorem throughout_iff_eachStep (inv property : σ → Prop) (good : σ → ι → Prop)
    (gives : ∀ state, inv state → property state)
    (keep : ∀ state label, machine.enabled state label → good state label → inv state →
      inv (machine.step state label))
    (needs : ∀ state label, machine.enabled state label → inv state →
      property (machine.step state label) → good state label)
    (state : σ) (labels : List ι) (admitted : machine.Admits state labels) (start : inv state) :
    machine.Throughout property state labels ↔ machine.EachStep good state labels := by
  refine ⟨?_, ?_⟩
  · intro holds
    induction labels generalizing state with
    | nil => trivial
    | cons label rest ih =>
        have now := needs state label admitted.1 start holds.2.first
        exact ⟨now, ih _ admitted.2 (keep state label admitted.1 now start) holds.2⟩
  · intro each
    exact (machine.throughout_of_eachStep inv good keep state labels admitted each start).imp gives

/-- A reading of the state that each step changes by its label alone is, after a
run, the fold of the labels. -/
theorem run_reading {α : Type*} (read : σ → α) (next : α → ι → α) (inv : σ → Prop)
    (keep : ∀ state label, machine.enabled state label → inv state →
      inv (machine.step state label))
    (reads : ∀ state label, machine.enabled state label → inv state →
      read (machine.step state label) = next (read state) label)
    (state : σ) (labels : List ι) (admitted : machine.Admits state labels) (start : inv state) :
    read (machine.run state labels) = labels.foldl next (read state) := by
  induction labels generalizing state with
  | nil => rfl
  | cons label rest ih =>
      rw [List.foldl_cons, ← reads state label admitted.1 start]
      exact ih _ admitted.2 (keep state label admitted.1 start)

end Machine

end Transition
