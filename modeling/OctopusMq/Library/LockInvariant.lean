import OctopusMq.Library.Threads

set_option autoImplicit false

/- Invariants of what a mutex protects. -/
namespace Concurrent

/-- A view of the shared state that is read under a mutex: how it is at every moment,
how it is while the mutex is free, and the faults the threads may end in. -/
structure Resource (σ ρ lock ε : Type*) where
  view : σ → ρ
  mutex : lock
  always : ρ → Prop
  free : ρ → Prop
  fair : ε → Prop
  gives : ∀ found, free found → always found

namespace Program

variable {σ lock ε : Type*}

/-- A thread changes what the view shows only between taking the mutex and giving it
back. It finds the view `free` there, keeps it `always` right, and leaves it `free`
again; and it ends in a fair fault or in none. The second argument is what it sees
while it has the mutex. -/
def Guards {ρ : Type*} (resource : Resource σ ρ lock ε) [DecidableEq lock] :
    Program σ lock ε → Option ρ → Prop
  | .done fault, seen => seen = none ∧ ∀ error ∈ fault, resource.fair error
  | .acquire other next, none =>
      if other = resource.mutex then
        ∀ found, resource.free found → next.Guards resource (some found)
      else next.Guards resource none
  | .acquire other next, some seen => other ≠ resource.mutex ∧ next.Guards resource (some seen)
  | .release other next, none => other ≠ resource.mutex ∧ next.Guards resource none
  | .release other next, some seen =>
      if other = resource.mutex then resource.free seen ∧ next.Guards resource none
      else next.Guards resource (some seen)
  | .perform change next, none => ∀ state,
      resource.view (change state) = resource.view state ∧ (next state).Guards resource none
  | .perform change next, some seen => ∀ state, resource.view state = seen →
      resource.always (resource.view (change state)) ∧
        (next state).Guards resource (some (resource.view (change state)))

section Guards

variable [DecidableEq lock] {ρ : Type*} {resource : Resource σ ρ lock ε}
  {seen : Option ρ}

/-- A step that leaves the view alone may stand anywhere. -/
theorem Guards.perform {change : σ → σ} {next : σ → Program σ lock ε}
    (known : ∀ found ∈ seen, resource.always found)
    (keeps : ∀ state, resource.view (change state) = resource.view state)
    (later : ∀ state, (next state).Guards resource seen) :
    (Program.perform change next).Guards resource seen := by
  cases seen with
  | none => exact fun state => ⟨keeps state, later state⟩
  | some found =>
      intro state same
      rw [keeps state, same]
      exact ⟨known found rfl, later state⟩

theorem Guards.acquire_of_ne {other : lock} {next : Program σ lock ε}
    (apart : other ≠ resource.mutex) (later : next.Guards resource seen) :
    (Program.acquire other next).Guards resource seen := by
  cases seen with
  | none =>
      simp only [Guards, apart, ↓reduceIte]
      exact later
  | some found => exact ⟨apart, later⟩

theorem Guards.release_of_ne {other : lock} {next : Program σ lock ε}
    (apart : other ≠ resource.mutex) (later : next.Guards resource seen) :
    (Program.release other next).Guards resource seen := by
  cases seen with
  | none => exact ⟨apart, later⟩
  | some found =>
      simp only [Guards, apart, ↓reduceIte]
      exact later

theorem Guards.acquire {other : lock} {next : Program σ lock ε} (own : other = resource.mutex)
    (later : ∀ found, resource.free found → next.Guards resource (some found)) :
    (Program.acquire other next).Guards resource none := by
  simp only [Guards, own, ↓reduceIte]
  exact later

theorem Guards.release {other : lock} {found : ρ} {next : Program σ lock ε}
    (own : other = resource.mutex) (restored : resource.free found)
    (later : next.Guards resource none) :
    (Program.release other next).Guards resource (some found) := by
  simp only [Guards, own, ↓reduceIte]
  exact ⟨restored, later⟩

/-- A step that only reads the state finds there what is seen. -/
theorem Guards.read {found : ρ} {next : σ → Program σ lock ε} (known : resource.always found)
    (later : ∀ state, resource.view state = found → (next state).Guards resource (some found)) :
    (Program.perform id next).Guards resource (some found) := by
  intro state same
  rw [id_eq, same]
  exact ⟨known, later state same⟩

/-- A section of one step under the mutex, which restores what it found. -/
theorem Guards.once {other : lock} {change : σ → σ} {next : σ → Program σ lock ε}
    (own : other = resource.mutex)
    (restores : ∀ state, resource.free (resource.view state) →
      resource.free (resource.view (change state)))
    (later : ∀ state, (next state).Guards resource none) :
    (Program.acquire other (.perform change fun state => .release other (next state))).Guards
      resource none := by
  apply Guards.acquire own
  intro found isFree state same
  have restored : resource.free (resource.view (change state)) := by
    apply restores
    rw [same]
    exact isFree
  exact ⟨resource.gives _ restored, Guards.release own restored (later state)⟩

end Guards

end Program

namespace Threads

variable {θ τ σ lock ε : Type*} [DecidableEq θ] [DecidableEq lock]

section Resource

variable {ρ : Type*} {resource : Resource σ ρ lock ε}
  {state : Threads θ σ lock ε}

/-- What a thread sees behind a mutex: the view while it is the holder. -/
def seen (holder : Option θ) (found : ρ) (thread : θ) : Option ρ :=
  if holder = some thread then some found else none

theorem seen_self (found : ρ) (thread : θ) : seen (some thread) found thread = some found :=
  if_pos rfl

theorem seen_of_not {holder : Option θ} {thread : θ} (not : holder ≠ some thread) (found : ρ) :
    seen holder found thread = none := if_neg not

theorem seen_none (found : ρ) (thread : θ) : seen none found thread = none :=
  seen_of_not (Option.some_ne_none thread).symm found

theorem seen_of_ne {thread other : θ} (apart : other ≠ thread) (found : ρ) :
    seen (some thread) found other = none :=
  seen_of_not (fun equal => apart (Option.some.inj equal).symm) found

/-- The view is as it should be at every moment and, when the mutex is free, as it
is to be found; and every thread keeps to it from where it stands. -/
structure Kept (resource : Resource σ ρ lock ε) (state : Threads θ σ lock ε) : Prop where
  now : resource.always (resource.view state.shared)
  unheld : state.holder resource.mutex = none → resource.free (resource.view state.shared)
  each : ∀ thread, (state.program thread).Guards resource
    (seen (state.holder resource.mutex) (resource.view state.shared) thread)

theorem kept_idle (shared : σ) (start : resource.free (resource.view shared)) :
    Kept resource (idle shared : Threads θ σ lock ε) := by
  refine ⟨resource.gives _ start, fun _ => start, ?_⟩
  intro thread
  exact ⟨seen_none _ thread, fun _ failed => (nomatch failed)⟩

/-- A thread that goes on from what it sees, while the others see what they saw. -/
theorem Kept.replace {shared : σ} {holder : lock → Option θ} {thread : θ}
    {next : Program σ lock ε} (kept : Kept resource state)
    (now : resource.always (resource.view shared))
    (unheld : holder resource.mutex = none → resource.free (resource.view shared))
    (guards : next.Guards resource (seen (holder resource.mutex) (resource.view shared) thread))
    (others : ∀ other, other ≠ thread → seen (holder resource.mutex) (resource.view shared) other =
      seen (state.holder resource.mutex) (resource.view state.shared) other) :
    Kept resource ⟨shared, holder, Function.update state.program thread next⟩ := by
  refine ⟨now, unheld, ?_⟩
  intro other
  show (Function.update state.program thread next other).Guards resource
    (seen (holder resource.mutex) (resource.view shared) other)
  by_cases same : other = thread
  · rw [same, Function.update_self]
    exact guards
  · rw [Function.update_of_ne same, others other same]
    exact kept.each other

theorem Kept.take (kept : Kept resource state) {thread : θ}
    {next : Program σ lock ε} (here : state.program thread = .acquire resource.mutex next)
    (unheld : state.holder resource.mutex = none) :
    Kept resource ⟨state.shared, Function.update state.holder resource.mutex (some thread),
      Function.update state.program thread next⟩ := by
  have guards := kept.each thread
  rw [here, unheld, seen_none] at guards
  simp only [Program.Guards, ↓reduceIte] at guards
  apply kept.replace kept.now
  · rw [Function.update_self]
    exact fun taken => (nomatch taken)
  · rw [Function.update_self, seen_self]
    exact guards _ (kept.unheld unheld)
  · intro other apart
    rw [Function.update_self, seen_of_ne apart, unheld, seen_none]

theorem Kept.give (kept : Kept resource state) {thread : θ}
    {next : Program σ lock ε} (here : state.program thread = .release resource.mutex next) :
    Kept resource ⟨state.shared, Function.update state.holder resource.mutex none,
      Function.update state.program thread next⟩ := by
  have guards := kept.each thread
  rw [here] at guards
  by_cases holds : state.holder resource.mutex = some thread
  · rw [holds, seen_self] at guards
    simp only [Program.Guards, ↓reduceIte] at guards
    apply kept.replace kept.now
    · exact fun _ => guards.1
    · rw [Function.update_self, seen_none]
      exact guards.2
    · intro other apart
      rw [Function.update_self, seen_none, holds, seen_of_ne apart]
  · rw [seen_of_not holds] at guards
    exact absurd rfl guards.1

/-- The other mutexes are no concern of the view's. -/
theorem Kept.pass (kept : Kept resource state) {thread : θ} {other : lock}
    {next : Program σ lock ε} (apart : other ≠ resource.mutex) (holder : Option θ)
    (guards : next.Guards resource
      (seen (state.holder resource.mutex) (resource.view state.shared) thread)) :
    Kept resource ⟨state.shared, Function.update state.holder other holder,
      Function.update state.program thread next⟩ := by
  have same : Function.update state.holder other holder resource.mutex =
      state.holder resource.mutex :=
    Function.update_of_ne (Ne.symm apart) _ _
  apply kept.replace kept.now
  · rw [same]
    exact kept.unheld
  · rw [same]
    exact guards
  · intro _ _
    rw [same]

theorem Kept.work (kept : Kept resource state) {thread : θ} {change : σ → σ}
    {next : σ → Program σ lock ε} (here : state.program thread = .perform change next) :
    Kept resource ⟨change state.shared, state.holder,
      Function.update state.program thread (next state.shared)⟩ := by
  have guards := kept.each thread
  rw [here] at guards
  by_cases holds : state.holder resource.mutex = some thread
  · rw [holds, seen_self] at guards
    have after := guards state.shared rfl
    apply kept.replace after.1
    · intro unheld
      rw [holds] at unheld
      cases unheld
    · rw [holds, seen_self]
      exact after.2
    · intro other apart
      rw [holds, seen_of_ne apart, seen_of_ne apart]
  · rw [seen_of_not holds] at guards
    have after := guards state.shared
    apply kept.replace
    · rw [after.1]
      exact kept.now
    · rw [after.1]
      exact kept.unheld
    · rw [seen_of_not holds]
      exact after.2
    · intro _ _
      rw [after.1]

theorem Kept.advance (kept : Kept resource state) {thread : θ}
    (can : state.CanAdvance thread) : Kept resource (state.advance thread) := by
  have guards := kept.each thread
  rcases advance_cases state thread can with ⟨other, next, here, unheld, step⟩ |
    ⟨other, next, here, step⟩ | ⟨change, next, here, step⟩
  · rw [step]
    by_cases same : other = resource.mutex
    · subst same
      exact kept.take here unheld
    · apply kept.pass same
      rw [here] at guards
      cases sees : seen (state.holder resource.mutex) (resource.view state.shared) thread with
      | none =>
          rw [sees] at guards
          simp only [Program.Guards, same, ↓reduceIte] at guards
          exact guards
      | some found =>
          rw [sees] at guards
          exact guards.2
  · rw [step]
    by_cases same : other = resource.mutex
    · subst same
      exact kept.give here
    · apply kept.pass same
      rw [here] at guards
      cases sees : seen (state.holder resource.mutex) (resource.view state.shared) thread with
      | none =>
          rw [sees] at guards
          exact guards.2
      | some found =>
          rw [sees] at guards
          simp only [Program.Guards, same, ↓reduceIte] at guards
          exact guards
  · rw [step]
    exact kept.work here

theorem Kept.unseen_of_finished (kept : Kept resource state) {thread : θ}
    (finished : (state.program thread).Finished) :
    seen (state.holder resource.mutex) (resource.view state.shared) thread = none := by
  have guards := kept.each thread
  obtain ⟨fault, here⟩ := finished.eq_done
  rw [here] at guards
  exact guards.1

theorem Kept.step {code : θ → τ → Program σ lock ε} {permits : σ → θ → τ → Prop}
    (guards : ∀ thread task, (code thread task).Guards resource none)
    (kept : Kept resource state) (label : Label θ τ)
    (enabled : (machine code permits).enabled state label) :
    Kept resource ((machine code permits).step state label) := by
  cases label with
  | start thread task =>
      apply kept.replace kept.now kept.unheld
      · rw [kept.unseen_of_finished enabled.1]
        exact guards thread task
      · exact fun _ _ => rfl
  | advance thread => exact kept.advance enabled

/-- Threads whose tasks guard a view keep it, over every run. -/
theorem reachable_kept {code : θ → τ → Program σ lock ε} {permits : σ → θ → τ → Prop}
    (guards : ∀ thread task, (code thread task).Guards resource none) {shared : σ}
    (start : resource.free (resource.view shared))
    (reached : (machine code permits).Reachable (idle shared) state) :
    Kept resource state :=
  reached.invariant (Kept resource)
    (fun _ label enabled kept => kept.step guards label enabled) (kept_idle shared start)

/-- A thread that has ended has ended in a fair fault, or in none. -/
theorem Kept.fair_of_done (kept : Kept resource state) {thread : θ} {error : ε}
    (ended : state.program thread = .done (some error)) : resource.fair error := by
  have guards := kept.each thread
  rw [ended] at guards
  exact guards.2 error rfl

/-- While a thread has the mutex, the others leave the view alone. -/
theorem Kept.stable (kept : Kept resource state) {thread other : θ}
    (holds : state.holder resource.mutex = some thread) (apart : other ≠ thread)
    (can : state.CanAdvance other) :
    resource.view (state.advance other).shared = resource.view state.shared := by
  have guards := kept.each other
  rw [holds, seen_of_ne apart] at guards
  rcases advance_cases state other can with ⟨_, _, _, _, step⟩ | ⟨_, _, _, step⟩ |
    ⟨change, next, here, step⟩
  · rw [step]
  · rw [step]
  · rw [step]
    rw [here] at guards
    exact (guards state.shared).1

end Resource

end Threads

end Concurrent
