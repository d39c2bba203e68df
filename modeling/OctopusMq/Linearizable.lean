import OctopusMq.LockDiscipline
import OctopusMq.TableObject

set_option autoImplicit false

/- Each broker is linearizable: whatever the threads interleave, its table and the
PUBLISHes it sends are those of operations carried out one after the other. -/
namespace OctopusMq

open Imperative Concurrent Transition

variable {Opts Property : Type}

namespace Threads

/-- Who may do what with the table of a broker: the control thread may fan out what is
injected, and the broker may do what its events do. -/
def usage (lib : OptionsApi Opts) (dest : SettingsPtr) (events : List (Event Opts Property)) :
    Thread → Usage (Fanned Property) (TableOp Property)
  | .control => Routine.injecting lib
  | .broker adapter =>
      ⟨fun op => adapter = dest ∧ ∃ event ∈ events, op ∈ event.tableOps lib,
        fun now target => adapter = dest ∧ Underway now target⟩

/-- Whatever a thread may do, it leads from what was sent to what will have been. -/
theorem usage_underway {lib : OptionsApi Opts} {dest : SettingsPtr}
    {events : List (Event Opts Property)} (thread : Thread) (now target : Fanned Property)
    (towards : (usage lib dest events thread).towards now target) : Underway now target := by
  cases thread with
  | control => exact Or.inl towards
  | broker adapter => exact towards.2

/-- What is known of the table of a broker from what a thread owns: the control thread
which messages it has injected, the thread of a broker nothing. -/
def owns (dest : SettingsPtr) :
    Thread → History Property → Bool × List (AdapterMessagePair Property)
  | .control => Routine.controls dest
  | .broker _ => fun _ => (true, [])

/-- What a thread has done with the table of a broker, when it is idle: the control
thread has fanned out what it has injected beyond some messages, and the broker has
done what its events use. -/
def Meets (lib : OptionsApi Opts) (base : List (AdapterMessagePair Property))
    (dest : SettingsPtr) :
    Thread → List (Task Opts Property) → Bool × List (AdapterMessagePair Property) →
      List (TableOp Property × Option Fault) → Prop
  | .control, _, now, did => Routine.Injected lib base now did
  | .broker adapter, tasks, _, did =>
      ∃ used : List (List (TableOp Property)),
        List.Forall₂ (Event.Uses lib) (tasks.filterMap fun task => task.1.event) used ∧
          did.map Prod.fst = atTable adapter dest used.flatten

/-- At first nothing has been done. -/
theorem meets_nil (lib : OptionsApi Opts) (shared : History Property) (dest : SettingsPtr)
    (thread : Thread) :
    Meets lib (shared.injected dest) dest thread [] (owns dest thread shared) [] := by
  cases thread with
  | control => exact ⟨⟨[], (List.append_nil _).symm, .nil⟩, fun _ _ member => (nomatch member)⟩
  | broker adapter => exact ⟨[], .nil, (ite_self _).symm⟩

end Threads

section Runs

variable (lib : OptionsApi Opts) (pool : List Adapter)
  {base : List (AdapterMessagePair Property)}

theorem keeps_const {κ : Type} (owned : κ) (program : Routine Property) :
    program.Keeps fun _ => owned := by
  induction program with
  | done fault => trivial
  | acquire mutex next ih => exact ih
  | release mutex next ih => exact ih
  | perform change next ih => exact fun state => ⟨rfl, ih state⟩

/-- No turn changes what the thread of another owns. -/
theorem Turn.keeps_owns (dest : SettingsPtr) (wakeups : Nat) (turn : Turn Opts Property)
    {thread : Thread} (apart : turn.thread ≠ thread) :
    (turn.routine lib pool wakeups).Keeps (Threads.owns dest thread) := by
  cases thread with
  | broker adapter => exact keeps_const _ _
  | control =>
      cases turn with
      | drain connected => exact absurd rfl apart
      | client adapter event =>
          exact Routine.Outside.keeps_handler (Routine.still_controls adapter) lib event

/-- A turn uses the tables as its thread is to. -/
theorem Turn.operates (dest : SettingsPtr) (wakeups : Nat) (turn : Turn Opts Property)
    {events : List (Event Opts Property)}
    (comes : turn.thread = .broker dest → ∀ event ∈ turn.event, event ∈ events)
    (tasks : List (Task Opts Property)) (self : History Property)
    (sofar : List (TableOp Property × Option Fault))
    (meets : Threads.Meets lib base dest turn.thread tasks (Threads.owns dest turn.thread self)
      sofar) :
    (turn.routine lib pool wakeups).Operates (fanned dest)
      (Threads.usage lib dest events turn.thread) (Threads.owns dest turn.thread)
      (Threads.Meets lib base dest turn.thread (tasks ++ [(turn, wakeups)])) none
      (Threads.owns dest turn.thread self) sofar := by
  cases turn with
  | drain connected => exact Routine.operates_drain pool wakeups connected meets
  | client adapter event =>
      have underway : adapter = dest → ∀ now target, Underway now target →
          (Threads.usage lib dest events (.broker adapter)).towards now target :=
        fun home _ _ underway => ⟨home, underway⟩
      apply Routine.operates_handler (fun _ _ _ => rfl) underway
      · intro same op member
        exact ⟨same, event, comes (congrArg Thread.broker same) event rfl, member⟩
      · intro used uses
        obtain ⟨before, each, all⟩ := meets
        refine ⟨before ++ [used.map Prod.fst], ?_, ?_⟩
        · rw [List.filterMap_append]
          exact List.rel_append each (.cons uses .nil)
        · rw [List.map_append, all, map_atTable, List.flatten_append, atTable_append,
            List.flatten_singleton]

/-- Over any run of the threads, a log explains the table of a broker. -/
theorem linearized_run (dest : SettingsPtr) {state : Threads Thread (History Property) Mutex Fault}
    {tasks : Thread → List (Task Opts Property)} {start : Fanned Property}
    (labels : List (Label Thread (Task Opts Property)))
    (linearized : Threads.Linearized (fanned dest)
      (Threads.usage lib dest (given dest labels)) (Threads.owns dest)
      (fun thread => Threads.Meets lib base dest thread (tasks thread)) start state [])
    (admitted : (threads lib pool).Admits state labels) :
    (fanned dest).within ((fanned dest).view state.shared)
        ((fanned dest).view ((threads lib pool).run state labels).shared) ∧
      ∃ log, Threads.Linearized (fanned dest) (Threads.usage lib dest (given dest labels))
        (Threads.owns dest)
        (fun thread => Threads.Meets lib base dest thread
          (tasks thread ++ labels.filterMap (Label.taskOf thread))) start
        ((threads lib pool).run state labels) log := by
  apply linearized.run (Threads.Meets lib base dest) labels ?begins ?leaves tasks admitted
  case begins =>
    intro shared thread task tasks sofar member permitted meets
    obtain ⟨mine, _⟩ := permitted
    rw [← mine] at meets member ⊢
    apply task.1.operates lib pool dest task.2 ?_ tasks shared sofar meets
    intro own
    rw [own] at member
    exact mem_given_of_start member
  case leaves =>
    intro shared thread other task permitted apart
    obtain ⟨mine, _⟩ := permitted
    exact task.1.keeps_owns lib pool dest task.2 fun same => apart (mine.symm.trans same)

/-- At any moment a part has been sent of what the log explains. -/
theorem sent_within_after {lib : OptionsApi Opts} {dest : SettingsPtr}
    {goal : Thread → _ → _ → Prop} {start : Fanned Property}
    {state : Threads Thread (History Property) Mutex Fault}
    {log : List (Thread × TableOp Property)} {events : List (Event Opts Property)}
    (linearized : Threads.Linearized (fanned dest) (Threads.usage lib dest events)
      (Threads.owns dest) goal start state log) :
    state.shared.sentBy Packet.isPublish dest <+: ((fanned dest).after start log).2 := by
  cases taken : state.holder (.subs dest) with
  | none =>
      rw [← linearized.unheld taken]
      exact List.prefix_refl _
  | some thread =>
      exact (Threads.usage_underway thread _ _ (linearized.partly thread taken)).sent_within

/-- While all threads are idle, a log may start. -/
theorem linearized_quiet (dest : SettingsPtr) (events : List (Event Opts Property))
    {state : Threads Thread (History Property) Mutex Fault} (quiet : Quiet state) :
    Threads.Linearized (fanned dest) (Threads.usage lib dest events) (Threads.owns dest)
      (fun thread => Threads.Meets lib (state.shared.injected dest) dest thread [])
      ((fanned dest).view state.shared) state [] := by
  apply Threads.linearized_of_free (quiet.free _)
  · intro thread
    obtain ⟨fault, here⟩ := (quiet.finished thread).eq_done
    rw [here]
    exact ⟨rfl, Threads.meets_nil lib state.shared dest thread⟩
  · intro thread other _
    obtain ⟨fault, here⟩ := (quiet.finished other).eq_done
    rw [here]
    trivial

/-- Operations on the table of a broker, one after the other, that explain what the
threads do between two states. They are fan-outs of the control thread and what the
broker is to do for its events. They lead from the table and the PUBLISHes of the one
state to those of the other, which has at any moment sent a part of them. A broker
whose thread is idle has done there what its events use, in their order; and the
control thread, if it is idle, has fanned out what it has injected, in that order,
without a fault as long as it is in its loop. -/
structure Explains (dest : SettingsPtr) (early late : Threads Thread (History Property) Mutex Fault)
    (labels : List (Label Thread (Task Opts Property))) (log : List (Thread × TableOp Property)) :
    Prop where
  fair : ∀ entry ∈ log, (Threads.usage lib dest (given dest labels) entry.1).allowed entry.2
  partly : late.shared.sentBy Packet.isPublish dest <+:
    ((fanned dest).after ((fanned dest).view early.shared) log).2
  table : late.holder (.subs dest) = none → (fanned dest).view late.shared =
    (fanned dest).after ((fanned dest).view early.shared) log
  events : (late.program (.broker dest)).Finished →
    ∃ used, List.Forall₂ (Event.Uses lib) (given dest labels) used ∧
      (doneBy (.broker dest)
        ((fanned dest).replay ((fanned dest).view early.shared) log)).map Prod.fst = used.flatten
  injections : (late.program .control).Finished →
    ∃ items, late.shared.injected dest = early.shared.injected dest ++ items ∧
      List.Forall₂ (Routine.Injects lib) items
        (doneBy .control ((fanned dest).replay ((fanned dest).view early.shared) log))
  faultless : (late.program .control).Finished → late.shared.running = true →
    ∀ done ∈ doneBy Thread.control
      ((fanned dest).replay ((fanned dest).view early.shared) log), done.2 = none

theorem Quiet.explains {early : Threads Thread (History Property) Mutex Fault} (quiet : Quiet early)
    (labels : List (Label Thread (Task Opts Property)))
    (admitted : (threads lib pool).Admits early labels) (dest : SettingsPtr) :
    ∃ log, Explains lib dest early ((threads lib pool).run early labels) labels log := by
  obtain ⟨_, log, ends⟩ := linearized_run lib pool dest labels
    (linearized_quiet lib dest (given dest labels) quiet) admitted
  refine ⟨log, ends.fair, ?_, ends.unheld, ?_, ?_, ?_⟩
  · exact sent_within_after ends
  · intro finished
    obtain ⟨used, uses, did⟩ := ends.goal_of_finished finished
    exact ⟨used, uses, did.trans (atTable_self dest _)⟩
  · exact fun finished => (ends.goal_of_finished finished).each
  · exact fun finished => (ends.goal_of_finished finished).fine

theorem quiet_idle (shared : History Property) :
    Quiet (Threads.idle shared : Threads Thread (History Property) Mutex Fault) :=
  ⟨fun _ => trivial, fun _ => rfl⟩

/-- Each broker is linearizable: over any run of the threads, operations carried out
one after the other explain its table, and what is sent and answered through it. -/
theorem threads_linearizable (brokers : SettingsPtr → Broker)
    (labels : List (Label Thread (Task Opts Property)))
    (admitted : (threads lib pool).Admits (Threads.idle (History.start brokers)) labels)
    (dest : SettingsPtr) :
    ∃ log, Explains lib dest (Threads.idle (History.start brokers))
      ((threads lib pool).run (Threads.idle (History.start brokers)) labels) labels log :=
  (quiet_idle (History.start brokers)).explains lib pool labels admitted dest

end Runs

/-- Two connections subscribe in the middle of a drain. -/
theorem threads_linearizable_subscribing :
    ∃ log, Explains byteOptions 1 (Threads.idle (History.start fun _ => Broker.fresh))
      ((threads byteOptions [⟨1, Scope.global⟩]).run
        (Threads.idle (History.start fun _ => Broker.fresh)) subscribing) subscribing log :=
  threads_linearizable byteOptions [⟨1, Scope.global⟩] (fun _ => Broker.fresh) subscribing
    (by decide) 1

end OctopusMq
