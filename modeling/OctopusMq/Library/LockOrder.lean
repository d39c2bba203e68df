import OctopusMq.Library.Threads
import Mathlib.Logic.Hydra

set_option autoImplicit false

/- Threads that take their mutexes by rank: some thread can always go on, and their
steps come to an end. -/
namespace Concurrent

namespace Program

variable {σ lock ε : Type*}

/-- A thread that has the mutexes of `held` takes others only above those, gives
back what it has, and ends with none. -/
def Ordered (rank : lock → Nat) [DecidableEq lock] : Program σ lock ε → List lock → Prop
  | .done _, held => held = []
  | .acquire mutex next, held =>
      (∀ other ∈ held, rank other < rank mutex) ∧ next.Ordered rank (mutex :: held)
  | .release mutex next, held => mutex ∈ held ∧ next.Ordered rank (held.erase mutex)
  | .perform _ next, held => ∀ state, (next state).Ordered rank held

/-- One step further in a program. -/
inductive Behind : Program σ lock ε → Program σ lock ε → Prop where
  | acquire (mutex : lock) (next : Program σ lock ε) : Behind next (.acquire mutex next)
  | release (mutex : lock) (next : Program σ lock ε) : Behind next (.release mutex next)
  | perform (change : σ → σ) (next : σ → Program σ lock ε) (state : σ) :
      Behind (next state) (.perform change next)

/-- Every program ends. -/
theorem behind_wellFounded : WellFounded (Behind : Program σ lock ε → Program σ lock ε → Prop) := by
  constructor
  intro program
  induction program with
  | done fault =>
      constructor
      intro next behind
      cases behind
  | acquire mutex next ih =>
      constructor
      intro later behind
      cases behind
      exact ih
  | release mutex next ih =>
      constructor
      intro later behind
      cases behind
      exact ih
  | perform change next ih =>
      constructor
      intro later behind
      cases behind with
      | perform _ _ state => exact ih state

end Program

namespace Threads

variable {θ τ σ lock ε : Type*} [DecidableEq θ] [DecidableEq lock]

section Order

variable {rank : lock → Nat} {state : Threads θ σ lock ε} {held : θ → List lock}

/-- The mutexes each thread has are those in its list, and its program is ordered
from there on. -/
structure Tidy (rank : lock → Nat) (state : Threads θ σ lock ε) (held : θ → List lock) : Prop where
  nodup : ∀ thread, (held thread).Nodup
  holder : ∀ mutex thread, state.holder mutex = some thread ↔ mutex ∈ held thread
  ordered : ∀ thread, (state.program thread).Ordered rank (held thread)

omit [DecidableEq θ] in
theorem tidy_idle (rank : lock → Nat) (shared : σ) :
    Tidy rank (idle shared : Threads θ σ lock ε) fun _ => [] := by
  refine ⟨fun _ => List.nodup_nil, ?_, fun _ => rfl⟩
  intro mutex thread
  exact ⟨fun held => (nomatch held), fun member => (nomatch member)⟩

omit [DecidableEq θ] in
theorem Tidy.held_of_finished (tidy : Tidy rank state held) {thread : θ}
    (finished : (state.program thread).Finished) : held thread = [] := by
  have ordered := tidy.ordered thread
  obtain ⟨fault, here⟩ := finished.eq_done
  rw [here] at ordered
  exact ordered

/-- A thread that has taken a mutex has it alone. -/
theorem Tidy.take (tidy : Tidy rank state held) {thread : θ} {mutex : lock}
    {next : Program σ lock ε} (here : state.program thread = .acquire mutex next)
    (free : state.holder mutex = none) :
    Tidy rank ⟨state.shared, Function.update state.holder mutex (some thread),
        Function.update state.program thread next⟩
      (Function.update held thread (mutex :: held thread)) := by
  have absent : ∀ other, mutex ∉ held other := by
    intro other member
    have holds := (tidy.holder mutex other).mpr member
    rw [free] at holds
    cases holds
  have ordered := tidy.ordered thread
  rw [here] at ordered
  refine ⟨?_, ?_, ?_⟩
  · intro other
    by_cases same : other = thread
    · rw [same, Function.update_self]
      exact List.nodup_cons.mpr ⟨absent thread, tidy.nodup thread⟩
    · rw [Function.update_of_ne same]
      exact tidy.nodup other
  · intro wanted other
    show Function.update state.holder mutex (some thread) wanted = some other ↔
      wanted ∈ Function.update held thread (mutex :: held thread) other
    by_cases taken : wanted = mutex
    · rw [taken, Function.update_self]
      by_cases same : other = thread
      · rw [same, Function.update_self]
        exact ⟨fun _ => List.mem_cons_self, fun _ => rfl⟩
      · rw [Function.update_of_ne same]
        refine ⟨fun holds => ?_, fun member => absurd member (absent other)⟩
        exact absurd (Option.some.inj holds).symm same
    · rw [Function.update_of_ne taken, tidy.holder]
      by_cases same : other = thread
      · rw [same, Function.update_self, List.mem_cons]
        exact ⟨Or.inr, fun member => member.resolve_left taken⟩
      · rw [Function.update_of_ne same]
  · intro other
    show (Function.update state.program thread next other).Ordered rank _
    by_cases same : other = thread
    · rw [same, Function.update_self, Function.update_self]
      exact ordered.2
    · rw [Function.update_of_ne same, Function.update_of_ne same]
      exact tidy.ordered other

/-- A mutex that is given back is free. -/
theorem Tidy.give (tidy : Tidy rank state held) {thread : θ} {mutex : lock}
    {next : Program σ lock ε} (here : state.program thread = .release mutex next) :
    Tidy rank ⟨state.shared, Function.update state.holder mutex none,
        Function.update state.program thread next⟩
      (Function.update held thread ((held thread).erase mutex)) := by
  have ordered := tidy.ordered thread
  rw [here] at ordered
  have holds := (tidy.holder mutex thread).mpr ordered.1
  have unique : ∀ other, mutex ∈ held other → other = thread := by
    intro other member
    have also := (tidy.holder mutex other).mpr member
    rw [holds] at also
    exact (Option.some.inj also).symm
  refine ⟨?_, ?_, ?_⟩
  · intro other
    by_cases same : other = thread
    · rw [same, Function.update_self]
      exact (tidy.nodup thread).erase mutex
    · rw [Function.update_of_ne same]
      exact tidy.nodup other
  · intro wanted other
    show Function.update state.holder mutex none wanted = some other ↔
      wanted ∈ Function.update held thread ((held thread).erase mutex) other
    by_cases given : wanted = mutex
    · rw [given, Function.update_self]
      refine ⟨fun holds => (nomatch holds), ?_⟩
      intro member
      by_cases same : other = thread
      · rw [same, Function.update_self] at member
        exact absurd member (tidy.nodup thread).not_mem_erase
      · rw [Function.update_of_ne same] at member
        exact absurd (unique other member) same
    · rw [Function.update_of_ne given, tidy.holder]
      by_cases same : other = thread
      · rw [same, Function.update_self, List.mem_erase_of_ne given]
      · rw [Function.update_of_ne same]
  · intro other
    show (Function.update state.program thread next other).Ordered rank _
    by_cases same : other = thread
    · rw [same, Function.update_self, Function.update_self]
      exact ordered.2
    · rw [Function.update_of_ne same, Function.update_of_ne same]
      exact tidy.ordered other

/-- A program that is ordered from what its thread has may take the place of the
thread's own. -/
theorem Tidy.replace (tidy : Tidy rank state held) {thread : θ} {next : Program σ lock ε}
    (ordered : next.Ordered rank (held thread)) (shared : σ) :
    Tidy rank ⟨shared, state.holder, Function.update state.program thread next⟩ held := by
  refine ⟨tidy.nodup, tidy.holder, ?_⟩
  intro other
  show (Function.update state.program thread next other).Ordered rank _
  by_cases same : other = thread
  · rw [same, Function.update_self]
    exact ordered
  · rw [Function.update_of_ne same]
    exact tidy.ordered other

theorem Tidy.advance (tidy : Tidy rank state held) {thread : θ} (can : state.CanAdvance thread) :
    ∃ after, Tidy rank (state.advance thread) after := by
  rcases advance_cases state thread can with ⟨mutex, next, here, free, step⟩ |
    ⟨mutex, next, here, step⟩ | ⟨change, next, here, step⟩
  · rw [step]
    exact ⟨_, tidy.take here free⟩
  · rw [step]
    exact ⟨_, tidy.give here⟩
  · rw [step]
    have ordered := tidy.ordered thread
    rw [here] at ordered
    exact ⟨held, tidy.replace (ordered state.shared) _⟩

/-- Threads given ordered tasks stay tidy. -/
theorem exists_tidy {code : θ → τ → Program σ lock ε} {permits : σ → θ → τ → Prop}
    (ordered : ∀ thread task, (code thread task).Ordered rank []) {shared : σ}
    (reached : (machine code permits).Reachable (idle shared) state) :
    ∃ held, Tidy rank state held := by
  apply reached.invariant (fun now => ∃ held, Tidy rank now held) ?_ ⟨_, tidy_idle rank shared⟩
  intro now label enabled holds
  obtain ⟨held, tidy⟩ := holds
  cases label with
  | start thread task =>
      have empty := tidy.held_of_finished enabled.1
      refine ⟨held, tidy.replace ?_ now.shared⟩
      rw [empty]
      exact ordered thread task
  | advance thread => exact tidy.advance enabled

/-- What a mutex demands of the thread that uses it: it takes none that it has, gives
back none that it has not, and has none left at its end. -/
def Proper (state : Threads θ σ lock ε) (thread : θ) : Prop :=
  match state.program thread with
  | .done _ => ∀ mutex, state.holder mutex ≠ some thread
  | .acquire mutex _ => state.holder mutex ≠ some thread
  | .release mutex _ => state.holder mutex = some thread
  | .perform _ _ => True

omit [DecidableEq θ] in
theorem Tidy.proper (tidy : Tidy rank state held) (thread : θ) : state.Proper thread := by
  have ordered := tidy.ordered thread
  unfold Proper
  cases here : state.program thread with
  | done fault =>
      rw [here] at ordered
      intro mutex holds
      have member := (tidy.holder mutex thread).mp holds
      rw [show held thread = [] from ordered] at member
      cases member
  | acquire mutex next =>
      rw [here] at ordered
      intro holds
      have below := ordered.1 mutex ((tidy.holder mutex thread).mp holds)
      omega
  | release mutex next =>
      rw [here] at ordered
      exact (tidy.holder mutex thread).mpr ordered.1
  | perform change next => trivial

omit [DecidableEq θ] in
/-- The holder of a mutex can go on, or waits for a mutex above it. -/
theorem Tidy.holder_cases (tidy : Tidy rank state held) {mutex : lock} {thread : θ}
    (holds : state.holder mutex = some thread) :
    state.CanAdvance thread ∨ ∃ wanted, state.holder wanted ≠ none ∧ rank mutex < rank wanted := by
  have member := (tidy.holder mutex thread).mp holds
  have ordered := tidy.ordered thread
  unfold CanAdvance
  cases here : state.program thread with
  | done fault =>
      rw [here] at ordered
      rw [show held thread = [] from ordered] at member
      cases member
  | acquire wanted next =>
      rw [here] at ordered
      by_cases free : state.holder wanted = none
      · exact Or.inl free
      · exact Or.inr ⟨wanted, free, ordered.1 mutex member⟩
  | release _ _ => exact Or.inl trivial
  | perform _ _ => exact Or.inl trivial

omit [DecidableEq θ] in
/-- Behind a mutex that is taken there is a thread that can go on. The induction is
on the ranks above the mutex. -/
theorem Tidy.exists_canAdvance_of_taken (tidy : Tidy rank state held) (top : Nat)
    (bounded : ∀ mutex, rank mutex ≤ top) (above : Nat) (mutex : lock)
    (near : top ≤ rank mutex + above) (taken : state.holder mutex ≠ none) :
    ∃ thread, state.CanAdvance thread := by
  obtain ⟨thread, holds⟩ := Option.ne_none_iff_exists'.mp taken
  induction above generalizing mutex thread with
  | zero =>
      rcases tidy.holder_cases holds with can | ⟨wanted, _, higher⟩
      · exact ⟨thread, can⟩
      · have limit := bounded wanted
        omega
  | succ above ih =>
      rcases tidy.holder_cases holds with can | ⟨wanted, waits, higher⟩
      · exact ⟨thread, can⟩
      · obtain ⟨other, also⟩ := Option.ne_none_iff_exists'.mp waits
        exact ih wanted (by omega) waits other also

omit [DecidableEq θ] in
/-- No deadlock: while a thread is busy, some thread can go on. -/
theorem Tidy.exists_canAdvance (tidy : Tidy rank state held) (top : Nat)
    (bounded : ∀ mutex, rank mutex ≤ top) {thread : θ}
    (busy : ¬ (state.program thread).Finished) : ∃ other, state.CanAdvance other := by
  by_cases can : state.CanAdvance thread
  · exact ⟨thread, can⟩
  · unfold CanAdvance at can
    cases here : state.program thread with
    | done fault =>
        rw [here] at busy
        exact absurd trivial busy
    | acquire mutex next =>
        rw [here] at can
        exact tidy.exists_canAdvance_of_taken top bounded top mutex (by omega) can
    | release _ _ =>
        rw [here] at can
        exact absurd trivial can
    | perform _ _ =>
        rw [here] at can
        exact absurd trivial can

end Order

section Completion

variable {state : Threads θ σ lock ε}

/-- One step of some thread. -/
def Follows (after before : Threads θ σ lock ε) : Prop :=
  ∃ thread, before.CanAdvance thread ∧ after = before.advance thread

theorem behind_advance (state : Threads θ σ lock ε) {thread : θ} (can : state.CanAdvance thread) :
    Program.Behind ((state.advance thread).program thread) (state.program thread) := by
  rcases advance_cases state thread can with ⟨mutex, next, here, _, step⟩ |
    ⟨mutex, next, here, step⟩ | ⟨change, next, here, step⟩
  · rw [step, here]
    show Program.Behind (Function.update state.program thread next thread) _
    rw [Function.update_self]
    exact .acquire mutex next
  · rw [step, here]
    show Program.Behind (Function.update state.program thread next thread) _
    rw [Function.update_self]
    exact .release mutex next
  · rw [step, here]
    show Program.Behind (Function.update state.program thread _ thread) _
    rw [Function.update_self]
    exact .perform change next state.shared

/-- The threads that are not idle are among finitely many. -/
def Manned (crew : Finset θ) (state : Threads θ σ lock ε) : Prop :=
  ∀ thread, thread ∉ crew → (state.program thread).Finished

theorem Manned.advance {crew : Finset θ} (manned : Manned crew state) {thread : θ}
    (can : state.CanAdvance thread) : Manned crew (state.advance thread) := by
  intro other outside
  have apart : other ≠ thread := by
    intro same
    exact not_finished_of_canAdvance can (same ▸ manned other outside)
  rw [program_advance_of_ne state apart]
  exact manned other outside

/-- A step takes one thread of the crew further in its program, and leaves the others. -/
theorem cutExpand_advance {crew : Finset θ} (manned : Manned crew state) {thread : θ}
    (can : state.CanAdvance thread) :
    Relation.CutExpand Program.Behind (crew.val.map (state.advance thread).program)
      (crew.val.map state.program) := by
  have member : thread ∈ crew.val := by
    by_contra outside
    exact not_finished_of_canAdvance can (manned thread outside)
  obtain ⟨others, split⟩ := Multiset.exists_cons_of_mem member
  have nodup := crew.nodup
  rw [split, Multiset.nodup_cons] at nodup
  have same : others.map (state.advance thread).program = others.map state.program := by
    apply Multiset.map_congr rfl
    intro other inside
    apply program_advance_of_ne
    intro equal
    exact nodup.1 (equal ▸ inside)
  rw [split, Multiset.map_cons, Multiset.map_cons, same,
    ← Multiset.singleton_add, ← Multiset.singleton_add]
  apply (Relation.cutExpand_add_right _).mpr
  exact Relation.cutExpand_singleton_singleton (behind_advance state can)

/-- No run of steps of finitely many threads goes on for ever. -/
theorem Manned.acc {crew : Finset θ} (manned : Manned crew state) : Acc Follows state := by
  have wellFounded : WellFounded (Relation.CutExpand
      (Program.Behind : Program σ lock ε → Program σ lock ε → Prop)) :=
    Program.behind_wellFounded.cutExpand
  induction measure : crew.val.map state.program using wellFounded.induction generalizing state with
  | h programs ih =>
      constructor
      intro after follows
      obtain ⟨thread, can, step⟩ := follows
      rw [step]
      apply ih _ ?_ (manned.advance can) rfl
      rw [← measure]
      exact cutExpand_advance manned can

omit [DecidableEq θ] [DecidableEq lock] in
theorem manned_idle (shared : σ) : Manned ∅ (idle shared : Threads θ σ lock ε) :=
  fun _ _ => trivial

/-- A run gives tasks to finitely many threads only. -/
theorem exists_manned {code : θ → τ → Program σ lock ε} {permits : σ → θ → τ → Prop} {shared : σ}
    (reached : (machine code permits).Reachable (idle shared) state) :
    ∃ crew, Manned crew state := by
  apply reached.invariant (fun now => ∃ crew, Manned crew now) ?_ ⟨∅, manned_idle shared⟩
  intro now label enabled holds
  obtain ⟨crew, manned⟩ := holds
  cases label with
  | start thread task =>
      refine ⟨insert thread crew, ?_⟩
      intro other outside
      rw [Finset.mem_insert, not_or] at outside
      show (Function.update now.program thread (code thread task) other).Finished
      rw [Function.update_of_ne outside.1]
      exact manned other outside.2
  | advance thread => exact ⟨crew, manned.advance enabled⟩

/-- Whatever the threads have done so far, their steps come to an end, and some
order of them ends with all threads idle. -/
theorem completes {code : θ → τ → Program σ lock ε} {permits : σ → θ → τ → Prop}
    {rank : lock → Nat} (top : Nat) (bounded : ∀ mutex, rank mutex ≤ top)
    (ordered : ∀ thread task, (code thread task).Ordered rank []) {shared : σ}
    (reached : (machine code permits).Reachable (idle shared) state) :
    Acc Follows state ∧
      ∃ order : List θ, (machine code permits).Admits state (order.map .advance) ∧
        ∀ thread,
          (((machine code permits).run state (order.map .advance)).program thread).Finished := by
  obtain ⟨crew, manned⟩ := exists_manned reached
  obtain ⟨held, tidy⟩ := exists_tidy ordered reached
  have ends := manned.acc
  refine ⟨ends, ?_⟩
  clear reached manned
  induction ends generalizing held with
  | intro now _ ih =>
      by_cases all : ∀ thread, (now.program thread).Finished
      · exact ⟨[], trivial, all⟩
      · obtain ⟨busy, unfinished⟩ := not_forall.mp all
        obtain ⟨thread, can⟩ := tidy.exists_canAdvance top bounded unfinished
        obtain ⟨after, still⟩ := tidy.advance can
        obtain ⟨order, admitted, finished⟩ := ih _ ⟨thread, can, rfl⟩ after still
        exact ⟨thread :: order, ⟨can, admitted⟩, finished⟩

/-- While no other thread has a mutex, a thread can run to its end in one go. The
induction is on its program. -/
theorem Tidy.run_alone {code : θ → τ → Program σ lock ε} {permits : σ → θ → τ → Prop}
    {rank : lock → Nat} {held : θ → List lock} {thread : θ} {program : Program σ lock ε}
    (tidy : Tidy rank state held) (here : state.program thread = program)
    (sole : ∀ other, other ≠ thread → held other = []) :
    ∃ count, (machine code permits).Admits state (List.replicate count (.advance thread)) ∧
      (machine code permits).run state (List.replicate count (.advance thread)) =
        ⟨(program.alone state.shared).1, fun _ => none,
          Function.update state.program thread (.done (program.alone state.shared).2)⟩ := by
  have ordered := tidy.ordered thread
  rw [here] at ordered
  induction program generalizing state held with
  | done fault =>
      refine ⟨0, trivial, ?_⟩
      have free : state.holder = fun _ => none := by
        funext mutex
        cases holds : state.holder mutex with
        | none => rfl
        | some other =>
            have member := (tidy.holder mutex other).mp holds
            by_cases same : other = thread
            · rw [same, show held thread = [] from ordered] at member
              cases member
            · rw [sole other same] at member
              cases member
      have same : Function.update state.program thread (.done fault) = state.program := by
        rw [← here, Function.update_eq_self]
      show state = ⟨state.shared, fun _ => none, Function.update state.program thread (.done fault)⟩
      rw [← free, same]
  | acquire mutex next ih =>
      have free : state.holder mutex = none := by
        cases holds : state.holder mutex with
        | none => rfl
        | some other =>
            have member := (tidy.holder mutex other).mp holds
            by_cases same : other = thread
            · rw [same] at member
              exact absurd (ordered.1 mutex member) (Nat.lt_irrefl _)
            · rw [sole other same] at member
              cases member
      have step : state.advance thread = ⟨state.shared,
          Function.update state.holder mutex (some thread),
          Function.update state.program thread next⟩ := by
        simp only [Threads.advance, here]
      have can : state.CanAdvance thread := by
        simp only [CanAdvance, here]
        exact free
      obtain ⟨count, admitted, run⟩ := @ih (state.advance thread) _
        (step ▸ tidy.take here free)
        (by rw [step]; exact Function.update_self _ _ _)
        (by intro other apart; rw [Function.update_of_ne apart]; exact sole other apart)
        (by rw [Function.update_self]; exact ordered.2)
      refine ⟨count + 1, ⟨can, admitted⟩, ?_⟩
      rw [List.replicate_succ]
      refine run.trans ?_
      rw [step]
      simp only [Function.update_idem, Program.alone]
  | release mutex next ih =>
      have step : state.advance thread = ⟨state.shared,
          Function.update state.holder mutex none, Function.update state.program thread next⟩ := by
        simp only [Threads.advance, here]
      have can : state.CanAdvance thread := by
        simp only [CanAdvance, here]
      obtain ⟨count, admitted, run⟩ := @ih (state.advance thread) _
        (step ▸ tidy.give here)
        (by rw [step]; exact Function.update_self _ _ _)
        (by intro other apart; rw [Function.update_of_ne apart]; exact sole other apart)
        (by rw [Function.update_self]; exact ordered.2)
      refine ⟨count + 1, ⟨can, admitted⟩, ?_⟩
      rw [List.replicate_succ]
      refine run.trans ?_
      rw [step]
      simp only [Function.update_idem, Program.alone]
  | perform change next ih =>
      have step : state.advance thread = ⟨change state.shared, state.holder,
          Function.update state.program thread (next state.shared)⟩ := by
        simp only [Threads.advance, here]
      have can : state.CanAdvance thread := by
        simp only [CanAdvance, here]
      obtain ⟨count, admitted, run⟩ := @ih state.shared (state.advance thread) _
        (step ▸ tidy.replace (ordered state.shared) _)
        (by rw [step]; exact Function.update_self _ _ _) sole (ordered state.shared)
      refine ⟨count + 1, ⟨can, admitted⟩, ?_⟩
      rw [List.replicate_succ]
      refine run.trans ?_
      rw [step]
      simp only [Function.update_idem, Program.alone]

end Completion

end Threads

end Concurrent
