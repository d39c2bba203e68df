import OctopusMq.Library.Machine
import Mathlib.Logic.Function.Basic

set_option autoImplicit false

/- Threads over a shared state and a set of mutexes. -/
namespace Concurrent

universe u v w

/-- What a thread still has to do. A step may depend on the shared state it finds. -/
inductive Program (σ : Type u) (lock : Type v) (ε : Type w) where
  | done (fault : Option ε)
  | acquire (mutex : lock) (next : Program σ lock ε)
  | release (mutex : lock) (next : Program σ lock ε)
  | perform (change : σ → σ) (next : σ → Program σ lock ε)

namespace Program

variable {σ lock ε : Type*}

/-- What a thread does that no other thread disturbs: the state it leaves, and the
fault it ends in, if any. -/
def alone : Program σ lock ε → σ → σ × Option ε
  | .done fault, state => (state, fault)
  | .acquire _ next, state => next.alone state
  | .release _ next, state => next.alone state
  | .perform change next, state => (next state).alone (change state)

/-- No step of the program breaks the invariant, wherever the others leave the state
within it. -/
def Preserves (inv : σ → Prop) : Program σ lock ε → Prop
  | .done _ => True
  | .acquire _ next => next.Preserves inv
  | .release _ next => next.Preserves inv
  | .perform change next => ∀ state, inv state →
      inv (change state) ∧ (next state).Preserves inv

def Finished : Program σ lock ε → Prop
  | .done _ => True
  | _ => False

theorem Finished.eq_done {program : Program σ lock ε} (finished : program.Finished) :
    ∃ fault, program = .done fault := by
  cases program with
  | done fault => exact ⟨fault, rfl⟩
  | acquire mutex next => cases finished
  | release mutex next => cases finished
  | perform change next => cases finished

instance decidableFinished : (program : Program σ lock ε) → Decidable program.Finished
  | .done _ => isTrue trivial
  | .acquire _ _ => isFalse id
  | .release _ _ => isFalse id
  | .perform _ _ => isFalse id

end Program

/-- The shared state, the holder of each mutex and the programs of the threads. -/
structure Threads (θ : Type*) (σ : Type u) (lock : Type v) (ε : Type w) where
  shared : σ
  holder : lock → Option θ
  program : θ → Program σ lock ε

/-- A thread is given a task, or takes its next step. -/
inductive Label (θ τ : Type*) where
  | start (thread : θ) (task : τ)
  | advance (thread : θ)

namespace Threads

variable {θ τ σ lock ε : Type*} [DecidableEq θ] [DecidableEq lock]

/-- All threads are idle and no mutex is taken. -/
def idle (shared : σ) : Threads θ σ lock ε := ⟨shared, fun _ => none, fun _ => .done none⟩

/-- The next step of a thread. -/
def advance (self : Threads θ σ lock ε) (thread : θ) : Threads θ σ lock ε :=
  match self.program thread with
  | .done _ => self
  | .acquire mutex next =>
      { self with
        holder := Function.update self.holder mutex (some thread)
        program := Function.update self.program thread next }
  | .release mutex next =>
      { self with
        holder := Function.update self.holder mutex none
        program := Function.update self.program thread next }
  | .perform change next =>
      { self with
        shared := change self.shared
        program := Function.update self.program thread (next self.shared) }

/-- The thread is not idle, and does not wait for a mutex. -/
def CanAdvance (self : Threads θ σ lock ε) (thread : θ) : Prop :=
  match self.program thread with
  | .done _ => False
  | .acquire mutex _ => self.holder mutex = none
  | .release _ _ => True
  | .perform _ _ => True

instance decidableCanAdvance (self : Threads θ σ lock ε) (thread : θ) :
    Decidable (self.CanAdvance thread) :=
  match same : self.program thread with
  | .done _ => isFalse (by simp only [CanAdvance, same, not_false_eq_true])
  | .acquire mutex next =>
      decidable_of_iff (self.holder mutex = none) (by simp only [CanAdvance, same])
  | .release _ _ => isTrue (by simp only [CanAdvance, same])
  | .perform _ _ => isTrue (by simp only [CanAdvance, same])

/-- The threads as a machine. An idle thread may be given the tasks of `permits`,
and every order of the threads' steps is a run. -/
def machine (code : θ → τ → Program σ lock ε) (permits : σ → θ → τ → Prop) :
    Transition.Machine (Threads θ σ lock ε) (Label θ τ) where
  step self
    | .start thread task =>
        { self with program := Function.update self.program thread (code thread task) }
    | .advance thread => self.advance thread
  enabled self
    | .start thread task => (self.program thread).Finished ∧ permits self.shared thread task
    | .advance thread => self.CanAdvance thread

instance decidableEnabled (code : θ → τ → Program σ lock ε) (permits : σ → θ → τ → Prop)
    [∀ shared thread task, Decidable (permits shared thread task)] (self : Threads θ σ lock ε) :
    (label : Label θ τ) → Decidable ((machine code permits).enabled self label)
  | .start _ _ => instDecidableAnd
  | .advance thread => decidableCanAdvance self thread

/-- Everything a step of a thread can be. -/
theorem advance_cases (self : Threads θ σ lock ε) (thread : θ) (can : self.CanAdvance thread) :
    (∃ mutex next, self.program thread = .acquire mutex next ∧ self.holder mutex = none ∧
      self.advance thread =
        ⟨self.shared, Function.update self.holder mutex (some thread),
          Function.update self.program thread next⟩) ∨
    (∃ mutex next, self.program thread = .release mutex next ∧
      self.advance thread =
        ⟨self.shared, Function.update self.holder mutex none,
          Function.update self.program thread next⟩) ∨
    (∃ change next, self.program thread = .perform change next ∧
      self.advance thread =
        ⟨change self.shared, self.holder,
          Function.update self.program thread (next self.shared)⟩) := by
  cases here : self.program thread with
  | done fault =>
      simp only [CanAdvance, here] at can
  | acquire mutex next =>
      simp only [CanAdvance, here] at can
      refine Or.inl ⟨mutex, next, rfl, can, ?_⟩
      simp only [advance, here]
  | release mutex next =>
      refine Or.inr (Or.inl ⟨mutex, next, rfl, ?_⟩)
      simp only [advance, here]
  | perform change next =>
      refine Or.inr (Or.inr ⟨change, next, rfl, ?_⟩)
      simp only [advance, here]

/-- A step of a thread leaves the programs of the others. -/
theorem program_advance_of_ne (state : Threads θ σ lock ε) {thread other : θ}
    (apart : other ≠ thread) : (state.advance thread).program other = state.program other := by
  unfold advance
  cases state.program thread with
  | done fault => rfl
  | acquire mutex next => exact Function.update_of_ne apart _ _
  | release mutex next => exact Function.update_of_ne apart _ _
  | perform change next => exact Function.update_of_ne apart _ _

omit [DecidableEq θ] [DecidableEq lock] in
theorem not_finished_of_canAdvance {state : Threads θ σ lock ε} {thread : θ}
    (can : state.CanAdvance thread) :
    ¬ (state.program thread).Finished := by
  intro finished
  unfold CanAdvance at can
  cases here : state.program thread with
  | done fault =>
      rw [here] at can
      exact can
  | acquire mutex next =>
      rw [here] at finished
      exact finished
  | release mutex next =>
      rw [here] at finished
      exact finished
  | perform change next =>
      rw [here] at finished
      exact finished

/-- The shared state satisfies the invariant, and no thread is to break it. -/
structure Safe (inv : σ → Prop) (state : Threads θ σ lock ε) : Prop where
  now : inv state.shared
  each : ∀ thread, (state.program thread).Preserves inv

omit [DecidableEq lock] in
theorem Safe.replace {inv : σ → Prop} {state : Threads θ σ lock ε} (safe : Safe inv state)
    {shared : σ} (now : inv shared) (holder : lock → Option θ) {thread : θ}
    {next : Program σ lock ε} (preserves : next.Preserves inv) :
    Safe inv ⟨shared, holder, Function.update state.program thread next⟩ := by
  refine ⟨now, ?_⟩
  intro other
  show (Function.update state.program thread next other).Preserves inv
  by_cases same : other = thread
  · rw [same, Function.update_self]
    exact preserves
  · rw [Function.update_of_ne same]
    exact safe.each other

theorem Safe.advance {inv : σ → Prop} {state : Threads θ σ lock ε} (safe : Safe inv state)
    {thread : θ} (can : state.CanAdvance thread) : Safe inv (state.advance thread) := by
  have preserves := safe.each thread
  rcases advance_cases state thread can with ⟨mutex, next, here, _, step⟩ |
    ⟨mutex, next, here, step⟩ | ⟨change, next, here, step⟩
  · rw [step]
    rw [here] at preserves
    exact safe.replace safe.now _ preserves
  · rw [step]
    rw [here] at preserves
    exact safe.replace safe.now _ preserves
  · rw [step]
    rw [here] at preserves
    have after := preserves state.shared safe.now
    exact safe.replace after.1 _ after.2

/-- An invariant that every task started in a run preserves holds after the run. -/
theorem Safe.run {inv : σ → Prop} {code : θ → τ → Program σ lock ε}
    {permits : σ → θ → τ → Prop} {state : Threads θ σ lock ε} (safe : Safe inv state)
    (labels : List (Label θ τ))
    (preserves : ∀ shared thread task, .start thread task ∈ labels → permits shared thread task →
      (code thread task).Preserves inv)
    (admitted : (machine code permits).Admits state labels) :
    Safe inv ((machine code permits).run state labels) := by
  induction labels generalizing state with
  | nil => exact safe
  | cons label rest ih =>
      have later : ∀ shared thread task, .start thread task ∈ rest → permits shared thread task →
          (code thread task).Preserves inv :=
        fun shared thread task member =>
          preserves shared thread task (List.mem_cons_of_mem _ member)
      cases label with
      | advance thread => exact ih (safe.advance admitted.1) later admitted.2
      | start thread task =>
          have here := preserves state.shared thread task List.mem_cons_self admitted.1.2
          exact ih (safe.replace safe.now state.holder here) later admitted.2

/-- The thread that a label gives a task. -/
def started : Label θ τ → Option θ
  | .start thread _ => some thread
  | .advance _ => none

/-- A thread that is given no task stays idle. -/
theorem finished_of_unstarted {code : θ → τ → Program σ lock ε} {permits : σ → θ → τ → Prop}
    {state : Threads θ σ lock ε} {thread : θ} (finished : (state.program thread).Finished)
    (labels : List (Label θ τ)) (unstarted : thread ∉ labels.filterMap started)
    (admitted : (machine code permits).Admits state labels) :
    (((machine code permits).run state labels).program thread).Finished := by
  induction labels generalizing state with
  | nil => exact finished
  | cons label rest ih =>
      have later : thread ∉ rest.filterMap started := by
        intro member
        obtain ⟨other, inside, starts⟩ := List.mem_filterMap.mp member
        exact unstarted (List.mem_filterMap.mpr ⟨other, List.mem_cons_of_mem _ inside, starts⟩)
      apply ih ?_ later admitted.2
      cases label with
      | start other task =>
          have apart : thread ≠ other := by
            intro same
            exact unstarted (List.mem_filterMap.mpr
              ⟨.start other task, List.mem_cons_self, congrArg some same.symm⟩)
          show (Function.update state.program other _ thread).Finished
          rw [Function.update_of_ne apart]
          exact finished
      | advance other =>
          show ((state.advance other).program thread).Finished
          have apart : thread ≠ other := by
            intro same
            exact not_finished_of_canAdvance admitted.1 (same ▸ finished)
          rw [program_advance_of_ne state apart]
          exact finished

end Threads

end Concurrent
