import OctopusMq.Library.LockInvariant
import OctopusMq.Library.Ownership

set_option autoImplicit false

/- Linearizability of an object behind a mutex: whatever the threads do, it is as if
the operations on it had been carried out one after the other, in some order that
keeps the order of each thread, and each had answered accordingly. -/
namespace Concurrent

/-- What is seen of an object, the mutex before it, and what an operation does to it
and answers; what is seen of it grows `within`. -/
structure Object (σ ρ lock ω υ : Type*) where
  view : σ → ρ
  mutex : lock
  run : ω → ρ → ρ × υ
  within : ρ → ρ → Prop
  refl : ∀ now, within now now
  trans : ∀ now later last, within now later → within later last → within now last

namespace Object

variable {σ ρ lock ω υ θ : Type*} (object : Object σ ρ lock ω υ)

/-- The object after some operations, each by a thread. -/
def after : ρ → List (θ × ω) → ρ
  | now, [] => now
  | now, entry :: rest => after (object.run entry.2 now).1 rest

/-- The operations with what they answer, one after the other. -/
def replay : ρ → List (θ × ω) → List (θ × ω × υ)
  | _, [] => []
  | now, entry :: rest =>
      (entry.1, entry.2, (object.run entry.2 now).2) :: replay (object.run entry.2 now).1 rest

theorem after_append (now : ρ) (first second : List (θ × ω)) :
    object.after now (first ++ second) = object.after (object.after now first) second := by
  induction first generalizing now with
  | nil => rfl
  | cons entry rest ih => exact ih _

theorem replay_append (now : ρ) (first second : List (θ × ω)) :
    object.replay now (first ++ second) =
      object.replay now first ++ object.replay (object.after now first) second := by
  induction first generalizing now with
  | nil => rfl
  | cons entry rest ih => exact congrArg (List.cons _) (ih _)

theorem map_replay (now : ρ) (log : List (θ × ω)) :
    (object.replay now log).map (fun entry => (entry.1, entry.2.1)) = log := by
  induction log generalizing now with
  | nil => rfl
  | cons entry rest ih => exact congrArg (List.cons _) (ih _)

end Object

/-- The operations a program may use, and how the object may be on its way `towards`
what an operation leaves. -/
structure Usage (ρ ω : Type*) where
  allowed : ω → Prop
  towards : ρ → ρ → Prop

/-- The other usage allows as much. -/
structure Usage.Within {ρ ω : Type*} (usage other : Usage ρ ω) : Prop where
  allowed : ∀ op, usage.allowed op → other.allowed op
  towards : ∀ now target, usage.towards now target → other.towards now target

/-- What a thread has done, and what it was answered. -/
def doneBy {θ ω υ : Type*} [DecidableEq θ] (thread : θ) (entries : List (θ × ω × υ)) :
    List (ω × υ) :=
  entries.filterMap fun entry => if entry.1 = thread then some entry.2 else none

section DoneBy

variable {θ ω υ : Type*} [DecidableEq θ] {thread : θ}

theorem doneBy_append (first second : List (θ × ω × υ)) :
    doneBy thread (first ++ second) = doneBy thread first ++ doneBy thread second :=
  List.filterMap_append

theorem doneBy_own (op : ω) (answer : υ) :
    doneBy thread [(thread, op, answer)] = [(op, answer)] := by
  simp only [doneBy, List.filterMap_cons, ↓reduceIte, List.filterMap_nil]

theorem doneBy_other {other : θ} (apart : other ≠ thread) (op : ω) (answer : υ) :
    doneBy thread [(other, op, answer)] = [] := by
  simp only [doneBy, List.filterMap_cons, apart, ↓reduceIte, List.filterMap_nil]

theorem doneBy_cons_own (entry : θ × ω × υ) (rest : List (θ × ω × υ)) :
    doneBy entry.1 (entry :: rest) = entry.2 :: doneBy entry.1 rest := by
  simp only [doneBy, List.filterMap_cons, ↓reduceIte]

theorem doneBy_cons_other {entry : θ × ω × υ} (apart : entry.1 ≠ thread)
    (rest : List (θ × ω × υ)) : doneBy thread (entry :: rest) = doneBy thread rest := by
  simp only [doneBy, List.filterMap_cons, apart, ↓reduceIte]

/-- What two threads have done, when no other has done anything. -/
theorem perm_doneBy {other : θ} (apart : other ≠ thread) (entries : List (θ × ω × υ))
    (two : ∀ entry ∈ entries, entry.1 = thread ∨ entry.1 = other) :
    (entries.map Prod.snd).Perm (doneBy thread entries ++ doneBy other entries) := by
  induction entries with
  | nil => exact .refl _
  | cons entry rest ih =>
      have later := ih fun entry member => two entry (List.mem_cons_of_mem _ member)
      rcases two entry List.mem_cons_self with same | same
      · rw [← same, doneBy_cons_own, doneBy_cons_other (by rw [same]; exact Ne.symm apart)]
        rw [← same] at later
        exact later.cons entry.2
      · rw [← same, doneBy_cons_own, doneBy_cons_other (by rw [same]; exact apart)]
        rw [← same] at later
        exact (later.cons entry.2).trans List.perm_middle.symm

end DoneBy

namespace Program

variable {σ lock ε ρ ω υ κ : Type*} [DecidableEq lock]

/-- The program uses the object only between taking its mutex and giving it back, for
one of the allowed operations at a time, and goes on as the operation answers; when it
ends, `goal` holds of what it owns and of what it has done. The second argument is what
it sees of the object while it has the mutex, and what it is to leave there. -/
def Operates (object : Object σ ρ lock ω υ) (usage : Usage ρ ω) (own : σ → κ)
    (goal : κ → List (ω × υ) → Prop) :
    Program σ lock ε → Option (ρ × ρ) → κ → List (ω × υ) → Prop
  | .done _, seen, now, sofar => seen = none ∧ goal now sofar
  | .acquire other next, none, now, sofar =>
      if other = object.mutex then
        ∃ op, usage.allowed op ∧ ∀ found, usage.towards found (object.run op found).1 ∧
          next.Operates object usage own goal (some (found, (object.run op found).1)) now
            (sofar ++ [(op, (object.run op found).2)])
      else next.Operates object usage own goal none now sofar
  | .acquire other next, some seen, now, sofar =>
      other ≠ object.mutex ∧ next.Operates object usage own goal (some seen) now sofar
  | .release other next, none, now, sofar =>
      other ≠ object.mutex ∧ next.Operates object usage own goal none now sofar
  | .release other next, some seen, now, sofar =>
      if other = object.mutex then
        seen.1 = seen.2 ∧ next.Operates object usage own goal none now sofar
      else next.Operates object usage own goal (some seen) now sofar
  | .perform change next, none, now, sofar => ∀ state, own state = now →
      object.view (change state) = object.view state ∧
        (next state).Operates object usage own goal none (own (change state)) sofar
  | .perform change next, some seen, now, sofar => ∀ state, own state = now →
      object.view state = seen.1 →
        object.within seen.1 (object.view (change state)) ∧
        usage.towards (object.view (change state)) seen.2 ∧
        (next state).Operates object usage own goal (some (object.view (change state), seen.2))
          (own (change state)) sofar

section Operates

variable {object : Object σ ρ lock ω υ} {usage other : Usage ρ ω} {own : σ → κ}
  {goal : κ → List (ω × υ) → Prop} {seen : Option (ρ × ρ)} {now : κ} {sofar : List (ω × υ)}

theorem Operates.acquire_of_ne {other : lock} {next : Program σ lock ε}
    (apart : other ≠ object.mutex) (later : next.Operates object usage own goal seen now sofar) :
    (Program.acquire other next).Operates object usage own goal seen now sofar := by
  cases seen with
  | none =>
      simp only [Operates, apart, ↓reduceIte]
      exact later
  | some found => exact ⟨apart, later⟩

theorem Operates.release_of_ne {other : lock} {next : Program σ lock ε}
    (apart : other ≠ object.mutex) (later : next.Operates object usage own goal seen now sofar) :
    (Program.release other next).Operates object usage own goal seen now sofar := by
  cases seen with
  | none => exact ⟨apart, later⟩
  | some found =>
      simp only [Operates, apart, ↓reduceIte]
      exact later

theorem Operates.acquire {next : Program σ lock ε} (op : ω) (may : usage.allowed op)
    (leads : ∀ found, usage.towards found (object.run op found).1)
    (later : ∀ found, next.Operates object usage own goal
      (some (found, (object.run op found).1)) now (sofar ++ [(op, (object.run op found).2)])) :
    (Program.acquire object.mutex next).Operates object usage own goal none now sofar := by
  simp only [Operates, ↓reduceIte]
  exact ⟨op, may, fun found => ⟨leads found, later found⟩⟩

theorem Operates.release {found : ρ} {next : Program σ lock ε}
    (later : next.Operates object usage own goal none now sofar) :
    (Program.release object.mutex next).Operates object usage own goal (some (found, found)) now
      sofar := by
  simp only [Operates, ↓reduceIte]
  exact ⟨trivial, later⟩

/-- A step that shows neither in the object nor in what the thread owns. -/
theorem Operates.pass {change : σ → σ} {next : σ → Program σ lock ε}
    (leads : ∀ found ∈ seen, usage.towards found.1 found.2)
    (hides : ∀ state, object.view (change state) = object.view state)
    (keeps : ∀ state, own (change state) = own state)
    (later : ∀ state, (next state).Operates object usage own goal seen now sofar) :
    (Program.perform change next).Operates object usage own goal seen now sofar := by
  cases seen with
  | none =>
      intro state same
      refine ⟨hides state, ?_⟩
      rw [keeps state, same]
      exact later state
  | some seen =>
      intro state same shown
      rw [keeps state, hides state, same, shown]
      exact ⟨object.refl _, leads seen rfl, later state⟩

/-- The last step under the mutex. -/
theorem Operates.once {change : σ → σ} {next : σ → Program σ lock ε} {found target : ρ}
    (grows : object.within found target) (arrives : usage.towards target target)
    (does : ∀ state, object.view state = found → object.view (change state) = target)
    (keeps : ∀ state, own (change state) = own state)
    (later : ∀ state, (next state).Operates object usage own goal (some (target, target)) now
      sofar) :
    (Program.perform change next).Operates object usage own goal (some (found, target)) now
      sofar := by
  intro state same shown
  rw [keeps state, does state shown, same]
  exact ⟨grows, arrives, later state⟩

/-- A program does as well without a goal, and where it may do more. -/
theorem Operates.forget {program : Program σ lock ε} {did : List (ω × υ)}
    (weaker : usage.Within other)
    (operates : program.Operates object usage own goal seen now sofar) :
    program.Operates object other own (fun _ _ => True) seen now did := by
  induction program generalizing seen now sofar did with
  | done fault => exact ⟨operates.1, trivial⟩
  | acquire mutex next ih =>
      cases seen with
      | some seen => exact ⟨operates.1, ih operates.2⟩
      | none =>
          unfold Operates at operates ⊢
          split at operates
          · obtain ⟨op, may, does⟩ := operates
            rw [if_pos ‹_›]
            exact ⟨op, weaker.allowed op may, fun found =>
              ⟨weaker.towards _ _ (does found).1, ih (does found).2⟩⟩
          · rw [if_neg ‹_›]
            exact ih operates
  | release mutex next ih =>
      cases seen with
      | none => exact ⟨operates.1, ih operates.2⟩
      | some seen =>
          unfold Operates at operates ⊢
          split at operates
          · rw [if_pos ‹_›]
            exact ⟨operates.1, ih operates.2⟩
          · rw [if_neg ‹_›]
            exact ih operates
  | perform change next ih =>
      cases seen with
      | none => exact fun state same => ⟨(operates state same).1, ih state (operates state same).2⟩
      | some seen =>
          intro state same shown
          obtain ⟨grows, leads, later⟩ := operates state same shown
          exact ⟨grows, weaker.towards _ _ leads, ih state later⟩

end Operates

end Program

namespace Threads

variable {θ τ σ lock ε ρ ω υ κ : Type*} [DecidableEq θ] [DecidableEq lock]
  {object : Object σ ρ lock ω υ} {usage : θ → Usage ρ ω} {own : θ → σ → κ}
  {goal : θ → κ → List (ω × υ) → Prop} {start : ρ} {state : Threads θ σ lock ε}
  {log : List (θ × ω)}

/-- The log explains what is seen of the object and what the threads were answered:
while the mutex is free, the object is as the log leaves it, and at any moment on its
way there; and each thread has done what the log says of it, and goes on from there. -/
structure Linearized (object : Object σ ρ lock ω υ) (usage : θ → Usage ρ ω) (own : θ → σ → κ)
    (goal : θ → κ → List (ω × υ) → Prop) (start : ρ) (state : Threads θ σ lock ε)
    (log : List (θ × ω)) : Prop where
  fair : ∀ entry ∈ log, (usage entry.1).allowed entry.2
  partly : ∀ thread, state.holder object.mutex = some thread →
    (usage thread).towards (object.view state.shared) (object.after start log)
  unheld : state.holder object.mutex = none → object.view state.shared = object.after start log
  each : ∀ thread, (state.program thread).Operates object (usage thread) (own thread) (goal thread)
    (seen (state.holder object.mutex) (object.view state.shared, object.after start log) thread)
    (own thread state.shared) (doneBy thread (object.replay start log))
  others : ∀ thread other, other ≠ thread → (state.program other).Keeps (own thread)

/-- While the mutex is free, a log may start. -/
theorem linearized_of_free (free : state.holder object.mutex = none)
    (each : ∀ thread, (state.program thread).Operates object (usage thread) (own thread)
      (goal thread) none (own thread state.shared) [])
    (others : ∀ thread other, other ≠ thread → (state.program other).Keeps (own thread)) :
    Linearized object usage own goal (object.view state.shared) state [] := by
  refine ⟨fun _ member => (nomatch member), ?_, fun _ => rfl, ?_, others⟩
  · intro thread taken
    rw [free] at taken
    cases taken
  · intro thread
    rw [free, seen_none]
    exact each thread

/-- A thread that goes on, with an operation or none, while the others see nothing of
it in what they own. -/
theorem Linearized.replace (linearized : Linearized object usage own goal start state log)
    {shared : σ} {holder : lock → Option θ} {thread : θ} {next : Program σ lock ε}
    {more : List (θ × ω)} (fair : ∀ entry ∈ more, (usage entry.1).allowed entry.2)
    (partly : ∀ other, holder object.mutex = some other →
      (usage other).towards (object.view shared) (object.after start (log ++ more)))
    (unheld : holder object.mutex = none →
      object.view shared = object.after start (log ++ more))
    (operates : next.Operates object (usage thread) (own thread) (goal thread)
      (seen (holder object.mutex) (object.view shared, object.after start (log ++ more)) thread)
      (own thread shared) (doneBy thread (object.replay start (log ++ more))))
    (keeps : ∀ other, other ≠ thread → next.Keeps (own other))
    (sees : ∀ other, other ≠ thread →
      seen (holder object.mutex) (object.view shared, object.after start (log ++ more)) other =
        seen (state.holder object.mutex) (object.view state.shared, object.after start log) other)
    (owns : ∀ other, other ≠ thread → own other shared = own other state.shared)
    (does : ∀ other, other ≠ thread → doneBy other (object.replay start (log ++ more)) =
      doneBy other (object.replay start log)) :
    Linearized object usage own goal start
      ⟨shared, holder, Function.update state.program thread next⟩ (log ++ more) := by
  refine ⟨?_, partly, unheld, ?_, ?_⟩
  · intro entry member
    rcases List.mem_append.mp member with old | new
    · exact linearized.fair entry old
    · exact fair entry new
  · intro other
    show (Function.update state.program thread next other).Operates object (usage other)
      (own other) (goal other)
      (seen (holder object.mutex) (object.view shared, object.after start (log ++ more)) other)
      (own other shared) (doneBy other (object.replay start (log ++ more)))
    by_cases same : other = thread
    · subst same
      rw [Function.update_self]
      exact operates
    · rw [Function.update_of_ne same, sees other same, owns other same, does other same]
      exact linearized.each other
  · intro owner other apart
    show (Function.update state.program thread next other).Keeps (own owner)
    by_cases same : other = thread
    · subst same
      rw [Function.update_self]
      exact keeps owner (Ne.symm apart)
    · rw [Function.update_of_ne same]
      exact linearized.others owner other apart

/-- As `Linearized.replace`, for a step that is no operation. -/
theorem Linearized.continue (linearized : Linearized object usage own goal start state log)
    {shared : σ} {holder : lock → Option θ} {thread : θ} {next : Program σ lock ε}
    (partly : ∀ other, holder object.mutex = some other →
      (usage other).towards (object.view shared) (object.after start log))
    (unheld : holder object.mutex = none → object.view shared = object.after start log)
    (operates : next.Operates object (usage thread) (own thread) (goal thread)
      (seen (holder object.mutex) (object.view shared, object.after start log) thread)
      (own thread shared) (doneBy thread (object.replay start log)))
    (keeps : ∀ other, other ≠ thread → next.Keeps (own other))
    (sees : ∀ other, other ≠ thread →
      seen (holder object.mutex) (object.view shared, object.after start log) other =
        seen (state.holder object.mutex) (object.view state.shared, object.after start log) other)
    (owns : ∀ other, other ≠ thread → own other shared = own other state.shared) :
    Linearized object usage own goal start
      ⟨shared, holder, Function.update state.program thread next⟩ log := by
  have none : ∀ entry ∈ ([] : List (θ × ω)), (usage entry.1).allowed entry.2 :=
    fun _ member => (nomatch member)
  have replaced := @Linearized.replace _ _ _ _ _ _ _ _ _ _ _ _ _ _ _ _ _ linearized shared
    holder thread next [] none
  rw [List.append_nil] at replaced
  exact replaced partly unheld operates keeps sees owns fun _ _ => rfl

section Step

variable {thread : θ}

omit [DecidableEq θ] [DecidableEq lock] in
/-- A thread that keeps a view keeps it in the rest of its program. -/
theorem keeps_of_next {program next : Program σ lock ε} {owner : θ}
    (keeps : program.Keeps (own owner)) (mutex : lock)
    (here : program = .acquire mutex next ∨ program = .release mutex next) :
    next.Keeps (own owner) := by
  rcases here with here | here
  · rw [here] at keeps
    exact keeps
  · rw [here] at keeps
    exact keeps

theorem Linearized.take (linearized : Linearized object usage own goal start state log)
    {next : Program σ lock ε} (here : state.program thread = .acquire object.mutex next)
    (free : state.holder object.mutex = none) :
    ∃ op, Linearized object usage own goal start
      ⟨state.shared, Function.update state.holder object.mutex (some thread),
        Function.update state.program thread next⟩ (log ++ [(thread, op)]) := by
  have operates := linearized.each thread
  rw [here, free, seen_none] at operates
  simp only [Program.Operates, ↓reduceIte] at operates
  obtain ⟨op, may, does⟩ := operates
  have found := linearized.unheld free
  have leaves : object.after start (log ++ [(thread, op)]) =
      (object.run op (object.after start log)).1 := object.after_append start log [(thread, op)]
  have answers : object.replay start (log ++ [(thread, op)]) = object.replay start log ++
      [(thread, op, (object.run op (object.after start log)).2)] :=
    object.replay_append start log [(thread, op)]
  refine ⟨op, linearized.replace ?_ ?_ ?_ ?_ ?_ ?_ (fun _ _ => rfl) ?_⟩
  · intro entry member
    rw [List.mem_singleton.mp member]
    exact may
  · intro other taken
    rw [Function.update_self] at taken
    rw [← Option.some.inj taken, leaves, found]
    exact (does _).1
  · rw [Function.update_self]
    exact fun taken => (nomatch taken)
  · rw [Function.update_self, seen_self, leaves, answers, found, doneBy_append, doneBy_own]
    exact (does _).2
  · exact fun owner apart => keeps_of_next (linearized.others owner thread (Ne.symm apart)) _
      (Or.inl here)
  · intro other apart
    rw [Function.update_self, seen_of_ne apart, free, seen_none]
  · intro other apart
    rw [answers, doneBy_append, doneBy_other (Ne.symm apart), List.append_nil]

theorem Linearized.give (linearized : Linearized object usage own goal start state log)
    {next : Program σ lock ε} (here : state.program thread = .release object.mutex next) :
    Linearized object usage own goal start
      ⟨state.shared, Function.update state.holder object.mutex none,
        Function.update state.program thread next⟩ log := by
  have operates := linearized.each thread
  rw [here] at operates
  have keeps : ∀ owner, owner ≠ thread → next.Keeps (own owner) := fun owner apart =>
    keeps_of_next (linearized.others owner thread (Ne.symm apart)) _ (Or.inr here)
  by_cases holds : state.holder object.mutex = some thread
  · rw [holds, seen_self] at operates
    simp only [Program.Operates, ↓reduceIte] at operates
    apply linearized.continue ?_ (fun _ => operates.1) ?_ keeps ?_ fun _ _ => rfl
    · intro other taken
      rw [Function.update_self] at taken
      cases taken
    · rw [Function.update_self, seen_none]
      exact operates.2
    · intro other apart
      rw [Function.update_self, seen_none, holds, seen_of_ne apart]
  · rw [seen_of_not holds] at operates
    exact absurd rfl operates.1

/-- The other mutexes are no concern of the object's. -/
theorem Linearized.pass (linearized : Linearized object usage own goal start state log)
    {other : lock} {next : Program σ lock ε} (apart : other ≠ object.mutex) (holder : Option θ)
    (operates : next.Operates object (usage thread) (own thread) (goal thread)
      (seen (state.holder object.mutex) (object.view state.shared, object.after start log) thread)
      (own thread state.shared) (doneBy thread (object.replay start log)))
    (keeps : ∀ owner, owner ≠ thread → next.Keeps (own owner)) :
    Linearized object usage own goal start
      ⟨state.shared, Function.update state.holder other holder,
        Function.update state.program thread next⟩ log := by
  have same : Function.update state.holder other holder object.mutex =
      state.holder object.mutex := Function.update_of_ne (Ne.symm apart) _ _
  apply linearized.continue ?_ ?_ ?_ keeps ?_ fun _ _ => rfl
  · rw [same]
    exact linearized.partly
  · rw [same]
    exact linearized.unheld
  · rw [same]
    exact operates
  · intro _ _
    rw [same]

theorem Linearized.work (linearized : Linearized object usage own goal start state log)
    {change : σ → σ} {next : σ → Program σ lock ε}
    (here : state.program thread = .perform change next) :
    object.within (object.view state.shared) (object.view (change state.shared)) ∧
      Linearized object usage own goal start
        ⟨change state.shared, state.holder,
          Function.update state.program thread (next state.shared)⟩ log := by
  have operates := linearized.each thread
  have others : ∀ owner, owner ≠ thread →
      own owner (change state.shared) = own owner state.shared ∧
        (next state.shared).Keeps (own owner) := by
    intro owner apart
    have before := linearized.others owner thread (Ne.symm apart)
    rw [here] at before
    exact before state.shared
  rw [here] at operates
  by_cases holds : state.holder object.mutex = some thread
  · rw [holds, seen_self] at operates
    obtain ⟨grows, leads, later⟩ := operates state.shared rfl rfl
    refine ⟨grows, linearized.continue ?_ ?_ ?_ (fun owner apart => (others owner apart).2) ?_
      fun owner apart => (others owner apart).1⟩
    · intro other taken
      rw [holds] at taken
      rw [← Option.some.inj taken]
      exact leads
    · rw [holds]
      exact fun free => (nomatch free)
    · rw [holds, seen_self]
      exact later
    · intro other apart
      rw [holds, seen_of_ne apart, seen_of_ne apart]
  · rw [seen_of_not holds] at operates
    obtain ⟨hides, later⟩ := operates state.shared rfl
    refine ⟨hides ▸ object.refl _, linearized.continue ?_ ?_ ?_
      (fun owner apart => (others owner apart).2) ?_ fun owner apart => (others owner apart).1⟩
    · rw [hides]
      exact linearized.partly
    · rw [hides]
      exact linearized.unheld
    · rw [seen_of_not holds]
      exact later
    · intro _ _
      rw [hides]

/-- A step of a thread is an operation, or none, and lets the object grow. -/
theorem Linearized.advance (linearized : Linearized object usage own goal start state log)
    (can : state.CanAdvance thread) :
    object.within (object.view state.shared) (object.view (state.advance thread).shared) ∧
      ∃ more, Linearized object usage own goal start (state.advance thread) (log ++ more) := by
  have operates := linearized.each thread
  have none : ∀ {next : Threads θ σ lock ε},
      Linearized object usage own goal start next log →
        ∃ more, Linearized object usage own goal start next (log ++ more) :=
    fun kept => ⟨[], (List.append_nil log).symm ▸ kept⟩
  have keeps : ∀ owner, owner ≠ thread → (state.program thread).Keeps (own owner) :=
    fun owner apart => linearized.others owner thread (Ne.symm apart)
  rcases advance_cases state thread can with ⟨other, next, here, unheld, step⟩ |
    ⟨other, next, here, step⟩ | ⟨change, next, here, step⟩
  · rw [step]
    refine ⟨object.refl _, ?_⟩
    by_cases same : other = object.mutex
    · subst same
      obtain ⟨op, taken⟩ := linearized.take here unheld
      exact ⟨[(thread, op)], taken⟩
    · rw [here] at operates keeps
      apply none
      apply linearized.pass same
      · cases sees : seen (state.holder object.mutex)
          (object.view state.shared, object.after start log) thread with
        | none =>
            rw [sees] at operates
            simp only [Program.Operates, same, ↓reduceIte] at operates
            exact operates
        | some found =>
            rw [sees] at operates
            exact operates.2
      · exact keeps
  · rw [step]
    refine ⟨object.refl _, ?_⟩
    by_cases same : other = object.mutex
    · subst same
      exact none (linearized.give here)
    · rw [here] at operates keeps
      apply none
      apply linearized.pass same
      · cases sees : seen (state.holder object.mutex)
          (object.view state.shared, object.after start log) thread with
        | none =>
            rw [sees] at operates
            exact operates.2
        | some found =>
            rw [sees] at operates
            simp only [Program.Operates, same, ↓reduceIte] at operates
            exact operates
      · exact keeps
  · rw [step]
    obtain ⟨grows, worked⟩ := linearized.work here
    exact ⟨grows, none worked⟩

end Step

/-- What an idle thread has done meets its goal. -/
theorem Linearized.goal_of_finished
    (linearized : Linearized object usage own goal start state log) {thread : θ}
    (finished : (state.program thread).Finished) :
    goal thread (own thread state.shared) (doneBy thread (object.replay start log)) := by
  have operates := linearized.each thread
  obtain ⟨fault, here⟩ := finished.eq_done
  rw [here] at operates
  exact operates.2

theorem Linearized.unseen_of_finished
    (linearized : Linearized object usage own goal start state log) {thread : θ}
    (finished : (state.program thread).Finished) :
    seen (state.holder object.mutex) (object.view state.shared, object.after start log) thread =
      none := by
  have operates := linearized.each thread
  obtain ⟨fault, here⟩ := finished.eq_done
  rw [here] at operates
  exact operates.1

/-- At any moment a new log may start, without goals, and an idle thread may be
allowed anything else from there. -/
theorem Linearized.restart (linearized : Linearized object usage own goal start state log)
    {later : θ → Usage ρ ω}
    (weaker : ∀ thread, (state.program thread).Finished ∨ (usage thread).Within (later thread)) :
    Linearized object later own (fun _ _ _ => True) (object.after start log) state [] := by
  refine ⟨fun _ member => (nomatch member), ?_, linearized.unheld, ?_, linearized.others⟩
  · intro thread taken
    rcases weaker thread with finished | weaker
    · have unseen := linearized.unseen_of_finished finished
      rw [taken, seen_self] at unseen
      cases unseen
    · exact weaker.towards _ _ (linearized.partly thread taken)
  · intro thread
    have operates := linearized.each thread
    rcases weaker thread with finished | weaker
    · obtain ⟨fault, here⟩ := finished.eq_done
      rw [here] at operates ⊢
      exact ⟨operates.1, trivial⟩
    · exact operates.forget weaker

section Run

variable {code : θ → τ → Program σ lock ε} {permits : σ → θ → τ → Prop}
  (meets : θ → List τ → κ → List (ω × υ) → Prop)

/-- Over every run of threads whose tasks use the object as they should, the object
grows, and a log goes on that explains what is seen of it. -/
theorem Linearized.run (labels : List (Label θ τ))
    (begins : ∀ shared thread task tasks sofar, .start thread task ∈ labels →
      permits shared thread task → meets thread tasks (own thread shared) sofar →
      (code thread task).Operates object (usage thread) (own thread)
        (meets thread (tasks ++ [task])) none (own thread shared) sofar)
    (leaves : ∀ shared thread other task, permits shared other task → other ≠ thread →
      (code other task).Keeps (own thread))
    (tasks : θ → List τ)
    (linearized : Linearized object usage own (fun thread => meets thread (tasks thread)) start
      state log)
    (admitted : (machine code permits).Admits state labels) :
    object.within (object.view state.shared)
        (object.view ((machine code permits).run state labels).shared) ∧
      ∃ more, Linearized object usage own
        (fun thread => meets thread (tasks thread ++ labels.filterMap (Label.taskOf thread))) start
        ((machine code permits).run state labels) (log ++ more) := by
  induction labels generalizing state log tasks with
  | nil =>
      refine ⟨object.refl _, [], ?_⟩
      simp only [List.filterMap_nil, List.append_nil]
      exact linearized
  | cons label rest ih =>
      have later : ∀ shared thread task tasks sofar, .start thread task ∈ rest →
          permits shared thread task → meets thread tasks (own thread shared) sofar →
          (code thread task).Operates object (usage thread) (own thread)
            (meets thread (tasks ++ [task])) none (own thread shared) sofar :=
        fun shared thread task tasks sofar member =>
          begins shared thread task tasks sofar (List.mem_cons_of_mem _ member)
      cases label with
      | advance thread =>
          obtain ⟨grows, first, advanced⟩ := linearized.advance admitted.1
          obtain ⟨grew, more, ends⟩ := ih later tasks advanced admitted.2
          refine ⟨object.trans _ _ _ grows grew, first ++ more, ?_⟩
          rw [← List.append_assoc]
          exact ends
      | start thread task =>
          obtain ⟨finished, permitted⟩ := admitted.1
          have started : Linearized object usage own
              (fun other => meets other (tasks other ++ ([task].filter fun _ => other = thread)))
              start ⟨state.shared, state.holder, Function.update state.program thread
                (code thread task)⟩ log := by
            refine ⟨linearized.fair, linearized.partly, linearized.unheld, ?_, ?_⟩
            · intro other
              show (Function.update state.program thread (code thread task) other).Operates object
                (usage other) (own other)
                (meets other (tasks other ++ ([task].filter fun _ => other = thread))) _ _ _
              by_cases same : other = thread
              · subst same
                rw [Function.update_self, linearized.unseen_of_finished finished]
                have done := linearized.goal_of_finished finished
                simp only [decide_true, List.filter_cons_of_pos, List.filter_nil]
                exact begins state.shared other task _ _ List.mem_cons_self permitted done
              · rw [Function.update_of_ne same]
                simp only [same, decide_false, List.filter_false, List.append_nil]
                exact linearized.each other
            · intro owner other apart
              show (Function.update state.program thread (code thread task) other).Keeps (own owner)
              by_cases same : other = thread
              · subst same
                rw [Function.update_self]
                exact leaves state.shared owner other task permitted apart
              · rw [Function.update_of_ne same]
                exact linearized.others owner other apart
          obtain ⟨grew, more, ends⟩ := ih later _ started admitted.2
          refine ⟨grew, more, ?_⟩
          have given : ∀ other, tasks other ++ ([task].filter fun _ => other = thread) ++
              rest.filterMap (Label.taskOf other) =
                tasks other ++ (.start thread task :: rest).filterMap (Label.taskOf other) := by
            intro other
            rw [List.append_assoc]
            congr 1
            by_cases same : other = thread
            · simp [Label.taskOf, same]
            · simp [Label.taskOf, same, Ne.symm same]
          simp only [given] at ends
          exact ends

end Run

end Threads

end Concurrent
