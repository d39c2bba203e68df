import OctopusMq.Undisturbed
import OctopusMq.Library.LockInvariant
import OctopusMq.Library.LockOrder

set_option autoImplicit false

/- The order in which the threads take the mutexes, and what each mutex protects. -/
namespace OctopusMq

open Imperative Concurrent Transition

variable {Opts Property : Type}

/-- `_queue_mutex` is taken before `_subs_mutex`, and `log::_mutex` last. -/
def Mutex.rank : Mutex → Nat
  | .queue => 0
  | .subs _ => 1
  | .log => 2

theorem Mutex.rank_le (mutex : Mutex) : mutex.rank ≤ 2 := by
  cases mutex with
  | queue => exact Nat.zero_le 2
  | subs adapter => exact Nat.le_succ 1
  | log => exact Nat.le_refl 2

namespace Routine

section Ordered

variable {adapter : SettingsPtr} {con : Connection} {next : Routine Property} {held : List Mutex}

theorem below_nil (bound : Nat) : ∀ other ∈ ([] : List Mutex), other.rank < bound :=
  fun _ member => (nomatch member)

theorem ordered_call {handler : Broker → Broker.Result Property}
    {later : System.Result Property → Routine Property}
    (ordered : ∀ outcome, (later outcome).Ordered Mutex.rank held) :
    (call adapter handler later).Ordered Mutex.rank held :=
  fun _ => ordered _

theorem ordered_print (below : ∀ other ∈ held, other.rank < 2)
    (ordered : next.Ordered Mutex.rank held) : (print next).Ordered Mutex.rank held := by
  refine ⟨below, List.mem_cons_self, ?_⟩
  rw [List.erase_cons_head]
  exact ordered

theorem ordered_printEvent (below : ∀ other ∈ held, other.rank < 2)
    (ordered : next.Ordered Mutex.rank held) :
    (printEvent adapter con next).Ordered Mutex.rank held :=
  ordered_call fun _ => ordered_print below ordered

/-- A section under `_subs_mutex`. -/
theorem ordered_subs {update : Broker → Broker} (below : ∀ other ∈ held, other.rank < 1)
    (ordered : next.Ordered Mutex.rank held) :
    (Program.acquire (.subs adapter)
      (change adapter update (.release (.subs adapter) next))).Ordered Mutex.rank held := by
  refine ⟨below, fun _ => ⟨List.mem_cons_self, ?_⟩⟩
  rw [List.erase_cons_head]
  exact ordered

theorem ordered_finish : (finish : Routine Property).Ordered Mutex.rank [] := rfl

theorem ordered_closeConnection :
    (closeConnection adapter con : Routine Property).Ordered Mutex.rank [] :=
  ordered_call fun _ => ordered_subs (below_nil _) ordered_finish

theorem ordered_answer (packet : Packet Property) :
    (send adapter con packet (printEvent adapter con finish)).Ordered Mutex.rank [] :=
  ordered_call fun _ => ordered_printEvent (below_nil _) ordered_finish

theorem ordered_deliverEach {body : Subscription → Broker → Broker.Result Property}
    {failed : Fault → Routine Property} (below : ∀ other ∈ held, other.rank < 2)
    (leaves : ∀ fault, (failed fault).Ordered Mutex.rank held)
    (ordered : next.Ordered Mutex.rank held) (subs : List Subscription) :
    (deliverEach adapter body failed next subs).Ordered Mutex.rank held := by
  induction subs with
  | nil => exact ordered
  | cons sub rest ih =>
      apply ordered_call
      intro outcome
      cases outcome.fault with
      | some fault => exact leaves fault
      | none =>
          cases outcome.effects with
          | nil => exact ih
          | cons effect effects => exact ordered_print below ih

theorem ordered_deliverAll {body : Subscription → Broker → Broker.Result Property}
    {failed : Fault → Routine Property} (below : ∀ other ∈ held, other.rank < 1)
    (leaves : ∀ fault, (failed fault).Ordered Mutex.rank held)
    (ordered : next.Ordered Mutex.rank held) :
    (deliverAll adapter body failed next).Ordered Mutex.rank held := by
  have released : ∀ {later : Routine Property}, later.Ordered Mutex.rank held →
      (Program.release (.subs adapter) later).Ordered Mutex.rank (.subs adapter :: held) := by
    intro later ordered
    refine ⟨List.mem_cons_self, ?_⟩
    rw [List.erase_cons_head]
    exact ordered
  refine ⟨below, fun self => ?_⟩
  apply ordered_deliverEach
  · intro other member
    rcases List.mem_cons.mp member with same | inside
    · rw [same]
      exact Nat.lt_succ_self 1
    · have low := below other inside
      omega
  · exact fun fault => released (leaves fault)
  · exact released ordered

theorem ordered_publish {body : Subscription → Broker → Broker.Result Property}
    {share : Broker → Broker.Result Property} :
    (publish adapter con body share).Ordered Mutex.rank [] := by
  apply ordered_printEvent
  · exact below_nil _
  · apply ordered_deliverAll
    · exact below_nil _
    · exact fun _ => rfl
    · exact ⟨below_nil _, fun _ => ⟨List.mem_cons_self, rfl⟩⟩

theorem ordered_subscribeEach {Code : Type} {subscription : Text → SubscribeOptions → Subscription}
    {granted : Qos → Code} {refused : Code} {answer : List Code → Routine Property}
    (ordered : ∀ codes, (answer codes).Ordered Mutex.rank [])
    (entries : List (Text × SubscribeOptions)) (codes : List Code) :
    (subscribeEach adapter subscription granted refused answer entries codes).Ordered
      Mutex.rank [] := by
  induction entries generalizing codes with
  | nil => exact ordered codes
  | cons entry rest ih =>
      unfold subscribeEach
      cases Scope.validTopicFilter entry.1 with
      | error fault => rfl
      | ok valid =>
          cases valid with
          | true => exact ordered_subs (below_nil _) (ih _)
          | false => exact ih _

theorem ordered_subscribe {Code : Type} {subscription : Text → SubscribeOptions → Subscription}
    {granted : Qos → Code} {refused : Code} {suback : List Code → Packet Property}
    (entries : List (Text × SubscribeOptions)) :
    (subscribe adapter subscription granted refused suback con entries).Ordered Mutex.rank [] := by
  apply ordered_printEvent
  · exact below_nil _
  · exact ordered_subscribeEach (fun codes => ordered_answer (suback codes)) entries []

theorem ordered_handler (lib : OptionsApi Opts) (adapter : SettingsPtr)
    (event : Event Opts Property) : (handler lib adapter event).Ordered Mutex.rank [] := by
  have below := below_nil 2
  cases event with
  | accept con remote =>
      intro self
      rfl
  | close con => exact ordered_print below ordered_closeConnection
  | error con =>
      intro self
      by_cases registered : con ∈ (self.system.brokers adapter).connections
      · simp only [registered, ↓reduceIte]
        exact ordered_printEvent below ordered_closeConnection
      · simp only [registered, ↓reduceIte]
        exact ordered_finish
  | pingreq con => exact ordered_printEvent below (ordered_answer .pingresp)
  | connect version con clientId =>
      exact ordered_call fun _ => ordered_printEvent below (ordered_answer (.connack version))
  | disconnect version con => exact ordered_printEvent below ordered_closeConnection
  | ack version packet con => exact ordered_printEvent below ordered_finish
  | publish con connected pubopts topicName contents => exact ordered_publish
  | v5Publish con connected pubopts topicName contents props => exact ordered_publish
  | subscribe version con packetId entries =>
      cases version with
      | v3 => exact ordered_subscribe entries
      | v5 => exact ordered_subscribe entries
  | unsubscribe version con packetId topics =>
      apply ordered_printEvent below
      apply ordered_subs
      · exact below_nil _
      · exact ordered_answer (.unsuback packetId)
  | injectPublish connected message =>
      apply ordered_deliverAll
      · exact below_nil _
      · exact fun _ => rfl
      · exact ordered_finish

theorem ordered_leave (fault : Fault) :
    (leave fault : Routine Property).Ordered Mutex.rank [.queue] := by
  intro self
  refine ⟨List.mem_cons_self, ?_⟩
  rw [List.erase_cons_head]
  exact ordered_print (below_nil _) rfl

theorem ordered_injectEach (lib : OptionsApi Opts)
    (connected : SettingsPtr → Connection → Bool) (item : AdapterMessagePair Property)
    (ordered : next.Ordered Mutex.rank [.queue]) (pool : List Adapter) :
    (injectEach lib connected item next pool).Ordered Mutex.rank [.queue] := by
  induction pool with
  | nil => exact ordered
  | cons adapter rest ih =>
      rcases injectEach_cases lib connected item next adapter rest with
        ⟨_, skipped⟩ | ⟨fault, _, left⟩ | ⟨_, called⟩
      · rw [skipped]
        exact ih
      · rw [left]
        exact ordered_leave fault
      · rw [called]
        intro self
        apply ordered_deliverAll
        · intro other member
          rw [List.mem_singleton.mp member]
          decide
        · exact ordered_leave
        · exact ih

theorem ordered_drained : (Program.release .queue finish : Routine Property).Ordered Mutex.rank
    [.queue] := ⟨List.mem_cons_self, rfl⟩

theorem ordered_popAll (lib : OptionsApi Opts) (pool : List Adapter) (rounds : Nat)
    (connected : Nat → SettingsPtr → Connection → Bool) :
    (popAll lib pool rounds connected : Routine Property).Ordered Mutex.rank [.queue] := by
  induction rounds generalizing connected with
  | zero =>
      intro self
      cases front : self.system.queue with
      | nil =>
          simp only [front]
          exact ordered_drained
      | cons item rest =>
          simp only [front]
          exact ordered_leave .unfinished
  | succ rounds ih =>
      intro self
      cases front : self.system.queue with
      | nil =>
          simp only [front]
          exact ordered_drained
      | cons item rest =>
          simp only [front]
          apply ordered_injectEach
          exact fun _ => ih _

theorem ordered_waitFor (ordered : next.Ordered Mutex.rank [.queue]) (wakeups : Nat) :
    (waitFor next wakeups).Ordered Mutex.rank [.queue] := by
  induction wakeups with
  | zero => exact ordered
  | succ wakeups ih =>
      intro self
      cases front : self.system.queue with
      | nil =>
          simp only [front]
          exact ⟨List.mem_cons_self, below_nil _, ih⟩
      | cons item rest =>
          simp only [front]
          exact ordered

end Ordered

end Routine

/-- Every turn takes the mutexes in order, and gives back what it takes. -/
theorem Turn.ordered_routine (lib : OptionsApi Opts) (pool : List Adapter) (wakeups : Nat)
    (turn : Turn Opts Property) : (turn.routine lib pool wakeups).Ordered Mutex.rank [] := by
  cases turn with
  | client adapter event => exact Routine.ordered_handler lib adapter event
  | drain connected =>
      refine ⟨Routine.below_nil _, ?_⟩
      apply Routine.ordered_waitFor
      exact fun self => Routine.ordered_popAll lib pool _ connected

namespace Routine

theorem deliveryFault_cases (connected : Connection → Bool) (topicName : Text)
    (packet : Subscription → Option (Packet Property)) (sub : Subscription) (fault : Fault)
    (failed : Broker.deliveryFault connected topicName packet sub = some fault) :
    fault = .outOfRange ∨ fault = .notConnected := by
  unfold Broker.deliveryFault at failed
  rcases Scope.matchesFilter_trichotomy sub.topicFilter topicName with same | same | same
  · simp only [same] at failed
    split at failed
    · exact Or.inr (Option.some.inj failed).symm
    · cases failed
  · simp only [same] at failed
    cases failed
  · simp only [same] at failed
    exact Or.inl (Option.some.inj failed).symm

/-- A part of a handler that changes no table and pushes nothing. -/
structure Light (handler : Broker → Broker.Result Property) : Prop where
  subs : ∀ broker, (handler broker).state.subs = broker.subs
  quiet : ∀ broker, Broker.pushes (handler broker).effects = []
  fault : ∀ broker, (handler broker).fault ≠ some .unfinished

theorem light_done {update : Broker → Broker}
    (keeps : ∀ broker, (update broker).subs = broker.subs) :
    Light fun broker => (.done (update broker) : Broker.Result Property) :=
  ⟨keeps, fun _ => rfl, fun _ failed => (nomatch failed)⟩

theorem light_send (con : Connection) (packet : Packet Property) :
    Light fun broker => .emit broker (.send con packet) :=
  ⟨fun _ => rfl, fun _ => rfl, fun _ failed => (nomatch failed)⟩

theorem light_acceptHandler (con : Connection) (remote : Option Address) :
    Light (Broker.acceptHandler con remote : Broker → Broker.Result Property) := by
  cases remote with
  | none => exact ⟨fun _ => rfl, fun _ => rfl, fun _ failed => (nomatch failed)⟩
  | some address => exact ⟨fun _ => rfl, fun _ => rfl, fun _ failed => (nomatch failed)⟩

theorem light_deliver (connected : Connection → Bool) (topicName : Text)
    (packet : Subscription → Option (Packet Property)) (sub : Subscription) :
    Light (Broker.deliver connected topicName packet sub) := by
  have once : ∀ broker, Outcome.forEach (Broker.deliver connected topicName packet) [sub] broker =
      Broker.deliver connected topicName packet sub broker := fun _ => Outcome.andThen_done _
  refine ⟨?_, ?_, ?_⟩
  · intro broker
    by_cases served : Broker.Served connected topicName packet sub
    · rw [Broker.deliver_state_of_served _ _ _ broker served]
      rfl
    · rw [Broker.deliver_state_of_not_served _ _ _ broker served]
  · intro broker
    rw [← once broker]
    exact Broker.pushes_forEach_deliver connected topicName packet [sub] broker
  · intro broker failed
    rw [(Broker.deliver_uniform connected topicName packet).fault_eq] at failed
    rcases deliveryFault_cases connected topicName packet sub .unfinished failed with
      impossible | impossible
    · cases impossible
    · cases impossible

/-- The parts of the handlers keep the view of a resource, or stand under its mutex
and restore what they find. -/
structure Shields {ρ : Type} (resource : Resource (History Property) ρ Mutex Fault) : Prop where
  log : .log ≠ resource.mutex
  fair : ∀ fault, fault ≠ .unfinished → resource.fair fault
  light : ∀ adapter handler, Light handler → ∀ self : History Property,
    resource.view (self.record (System.call adapter handler self.system)) = resource.view self
  table : ∀ adapter (update : Broker → Broker), .subs adapter = resource.mutex →
    ∀ self : History Property, resource.free (resource.view self) →
      resource.free (resource.view (self.record
        (System.call adapter (fun broker => .done (update broker)) self.system)))
  tables : ∀ adapter (update : Broker → Broker), .subs adapter ≠ resource.mutex →
    ∀ self : History Property, resource.view (self.record
      (System.call adapter (fun broker => .done (update broker)) self.system)) = resource.view self
  queue : ∀ adapter message, .queue = resource.mutex →
    ∀ self : History Property, resource.free (resource.view self) →
      resource.free (resource.view (self.record
        (System.call adapter (fun broker => .emit broker (.push message)) self.system)))
  queued : ∀ adapter message, .queue ≠ resource.mutex →
    ∀ self : History Property, resource.view (self.record
      (System.call adapter (fun broker => .emit broker (.push message)) self.system)) =
        resource.view self

section Guards

variable {ρ : Type} {resource : Resource (History Property) ρ Mutex Fault}
  {adapter : SettingsPtr} {con : Connection} {next : Routine Property} {seen : Option ρ}

theorem known_none : ∀ found ∈ (none : Option ρ), resource.always found :=
  fun _ found => (nomatch found)

theorem guards_finish : (finish : Routine Property).Guards resource none :=
  ⟨rfl, fun _ failed => (nomatch failed)⟩

theorem Shields.stop (shields : Shields resource) {fault : Option Fault}
    (stops : fault ≠ some .unfinished) :
    (Program.done fault : Routine Property).Guards resource none := by
  refine ⟨rfl, ?_⟩
  intro error failed
  apply shields.fair
  intro same
  rw [same] at failed
  exact stops failed

theorem Shields.call (shields : Shields resource) {handler : Broker → Broker.Result Property}
    (light : Light handler) {later : System.Result Property → Routine Property}
    (known : ∀ found ∈ seen, resource.always found)
    (guards : ∀ outcome, outcome.fault ≠ some .unfinished → (later outcome).Guards resource seen) :
    (call adapter handler later).Guards resource seen :=
  Program.Guards.perform known (shields.light adapter handler light)
    fun self => guards _ (light.fault (self.system.brokers adapter))

theorem Shields.change (shields : Shields resource) {update : Broker → Broker}
    (keeps : ∀ broker, (update broker).subs = broker.subs) (guards : next.Guards resource none) :
    (change adapter update next).Guards resource none :=
  shields.call (light_done keeps) known_none fun _ _ => guards

theorem Shields.print (shields : Shields resource) (guards : next.Guards resource seen) :
    (print next).Guards resource seen :=
  Program.Guards.acquire_of_ne shields.log (Program.Guards.release_of_ne shields.log guards)

theorem Shields.printEvent (shields : Shields resource) (guards : next.Guards resource none) :
    (printEvent adapter con next).Guards resource none :=
  shields.change (fun _ => rfl) (shields.print guards)

/-- A section under `_subs_mutex`. -/
theorem Shields.subs (shields : Shields resource) {update : Broker → Broker}
    (guards : next.Guards resource none) :
    (Program.acquire (.subs adapter)
      (Routine.change adapter update (.release (.subs adapter) next))).Guards resource none := by
  by_cases own : .subs adapter = resource.mutex
  · exact Program.Guards.once own (shields.table adapter update own) fun _ => guards
  · apply Program.Guards.acquire_of_ne own
    apply Program.Guards.perform known_none (shields.tables adapter update own)
    exact fun _ => Program.Guards.release_of_ne own guards

theorem Shields.closeConnection (shields : Shields resource) :
    (closeConnection adapter con).Guards resource none :=
  shields.change (fun _ => rfl) (shields.subs guards_finish)

theorem Shields.answer (shields : Shields resource) (packet : Packet Property) :
    (send adapter con packet (Routine.printEvent adapter con finish)).Guards resource none :=
  shields.call (light_send con packet) known_none fun _ _ => shields.printEvent guards_finish

theorem Shields.deliverEach (shields : Shields resource)
    {body : Subscription → Broker → Broker.Result Property} (light : ∀ sub, Light (body sub))
    {failed : Fault → Routine Property} (known : ∀ found ∈ seen, resource.always found)
    (leaves : ∀ fault, fault ≠ .unfinished → (failed fault).Guards resource seen)
    (guards : next.Guards resource seen) (subs : List Subscription) :
    (deliverEach adapter body failed next subs).Guards resource seen := by
  induction subs with
  | nil => exact guards
  | cons sub rest ih =>
      apply shields.call (light sub) known
      intro outcome stops
      cases ended : outcome.fault with
      | some fault =>
          apply leaves fault
          intro same
          rw [ended, same] at stops
          exact stops rfl
      | none =>
          cases outcome.effects with
          | nil => exact ih
          | cons effect effects => exact shields.print ih

/-- A delivery loop, where the mutex of the table is not the one of the view unless
nothing is seen yet. -/
theorem Shields.deliverAll (shields : Shields resource)
    {body : Subscription → Broker → Broker.Result Property} (light : ∀ sub, Light (body sub))
    {failed : Fault → Routine Property} (known : ∀ found ∈ seen, resource.always found)
    (unseen : .subs adapter = resource.mutex → seen = none)
    (leaves : ∀ fault, fault ≠ .unfinished → (failed fault).Guards resource seen)
    (guards : next.Guards resource seen) :
    (deliverAll adapter body failed next).Guards resource seen := by
  by_cases own : .subs adapter = resource.mutex
  · have blind := unseen own
    subst blind
    apply Program.Guards.acquire own
    intro found isFree
    have sees : ∀ other ∈ some found, resource.always other := by
      intro other same
      rw [← Option.some.inj same]
      exact resource.gives found isFree
    apply Program.Guards.perform sees fun _ => rfl
    intro self
    apply shields.deliverEach light sees
    · exact fun fault stops => Program.Guards.release own isFree (leaves fault stops)
    · exact Program.Guards.release own isFree guards
  · apply Program.Guards.acquire_of_ne own
    apply Program.Guards.perform known fun _ => rfl
    intro self
    apply shields.deliverEach light known
    · exact fun fault stops => Program.Guards.release_of_ne own (leaves fault stops)
    · exact Program.Guards.release_of_ne own guards

theorem Shields.stopped (shields : Shields resource) (fault : Fault) (stops : fault ≠ .unfinished) :
    (Program.done (some fault) : Routine Property).Guards resource none :=
  shields.stop fun same => stops (Option.some.inj same)

theorem Shields.publish (shields : Shields resource)
    {body : Subscription → Broker → Broker.Result Property} (light : ∀ sub, Light (body sub))
    (message : Message Property) :
    (publish adapter con body fun broker => .emit broker (.push message)).Guards resource none := by
  apply shields.printEvent
  apply shields.deliverAll light known_none fun _ => rfl
  · exact shields.stopped
  · by_cases own : .queue = resource.mutex
    · exact Program.Guards.once own (shields.queue adapter message own) fun _ => guards_finish
    · apply Program.Guards.acquire_of_ne own
      apply Program.Guards.perform known_none (shields.queued adapter message own)
      exact fun _ => Program.Guards.release_of_ne own guards_finish

theorem Shields.subscribeEach (shields : Shields resource) {Code : Type}
    {subscription : Text → SubscribeOptions → Subscription} {granted : Qos → Code}
    {refused : Code} {answer : List Code → Routine Property}
    (guards : ∀ codes, (answer codes).Guards resource none)
    (entries : List (Text × SubscribeOptions)) (codes : List Code) :
    (subscribeEach adapter subscription granted refused answer entries codes).Guards resource
      none := by
  induction entries generalizing codes with
  | nil => exact guards codes
  | cons entry rest ih =>
      unfold Routine.subscribeEach
      rw [Scope.validTopicFilter_eq]
      by_cases good : Scope.Accepted entry.1
      · simp only [good, decide_true]
        exact shields.subs (ih _)
      · simp only [good, decide_false]
        exact ih _

theorem Shields.subscribe (shields : Shields resource) {Code : Type}
    {subscription : Text → SubscribeOptions → Subscription} {granted : Qos → Code}
    {refused : Code} {suback : List Code → Packet Property}
    (entries : List (Text × SubscribeOptions)) :
    (subscribe adapter subscription granted refused suback con entries).Guards resource none :=
  shields.printEvent
    (shields.subscribeEach (fun codes => shields.answer (suback codes)) entries [])

theorem Shields.handler (shields : Shields resource) (lib : OptionsApi Opts)
    (adapter : SettingsPtr) (event : Event Opts Property) :
    (handler lib adapter event).Guards resource none := by
  cases event with
  | accept con remote =>
      exact shields.call (light_acceptHandler con remote) known_none
        fun _ stops => shields.stop stops
  | close con => exact shields.print shields.closeConnection
  | error con =>
      apply Program.Guards.perform known_none fun _ => rfl
      intro self
      by_cases registered : con ∈ (self.system.brokers adapter).connections
      · simp only [registered, ↓reduceIte]
        exact shields.printEvent shields.closeConnection
      · simp only [registered, ↓reduceIte]
        exact guards_finish
  | pingreq con => exact shields.printEvent (shields.answer .pingresp)
  | connect version con clientId =>
      exact shields.change (fun _ => rfl)
        (shields.printEvent (shields.answer (.connack version)))
  | disconnect version con => exact shields.printEvent shields.closeConnection
  | ack version packet con => exact shields.printEvent guards_finish
  | publish con connected pubopts topicName contents =>
      exact shields.publish (fun sub => light_deliver connected topicName _ sub) _
  | v5Publish con connected pubopts topicName contents props =>
      exact shields.publish (fun sub => light_deliver connected topicName _ sub) _
  | subscribe version con packetId entries =>
      cases version with
      | v3 => exact shields.subscribe entries
      | v5 => exact shields.subscribe entries
  | unsubscribe version con packetId topics =>
      exact shields.printEvent (shields.subs (shields.answer (.unsuback packetId)))
  | injectPublish connected message =>
      exact shields.deliverAll (fun sub => light_deliver connected message.topic _ sub) known_none
        (fun _ => rfl) shields.stopped guards_finish

end Guards

end Routine

section Runs

variable (lib : OptionsApi Opts) (pool : List Adapter)

/-- Over any run of the threads, whatever they are doing, some order of their steps
ends what they do, and no order goes on for ever: no deadlock, no livelock. -/
theorem threads_complete (brokers : SettingsPtr → Broker)
    {state : Threads Thread (History Property) Mutex Fault}
    (reached : (threads lib pool).Reachable (Threads.idle (History.start brokers)) state) :
    Acc Threads.Follows state ∧
      ∃ order : List Thread, (threads lib pool).Admits state (order.map .advance) ∧
        ∀ thread, (((threads lib pool).run state (order.map .advance)).program thread).Finished :=
  Threads.completes 2 Mutex.rank_le
    (fun _ task => Turn.ordered_routine lib pool task.2 task.1) reached

/-- Over any run of the threads, no thread takes a mutex it has, gives back one it has
not, or ends with one, whether it ends in a fault or not. -/
theorem threads_proper (brokers : SettingsPtr → Broker)
    {state : Threads Thread (History Property) Mutex Fault}
    (reached : (threads lib pool).Reachable (Threads.idle (History.start brokers)) state)
    (thread : Thread) : state.Proper thread := by
  have ordered : ∀ (_ : Thread) (task : Task Opts Property),
      (task.1.routine lib pool task.2).Ordered Mutex.rank [] :=
    fun _ task => Turn.ordered_routine lib pool task.2 task.1
  obtain ⟨held, tidy⟩ := Threads.exists_tidy ordered reached
  exact tidy.proper thread

/-- The control thread is in a drain, and a publish handler waits for its mutex. -/
def contended : List (Label Thread (Task UInt8 Text)) :=
  [.start .control (.drain fun _ _ _ => true, 0), .advance .control,
    .start (.broker 1) (.client 1 (.publish 1 (fun _ => true) 0 (bytes "a") (bytes "hello")), 0)] ++
    List.replicate 6 (.advance (.broker 1))

theorem threads_complete_contended :
    Acc Threads.Follows ((threads byteOptions [⟨1, Scope.global⟩, ⟨2, Scope.global⟩]).run
        (Threads.idle (History.start fun _ => Broker.fresh)) contended) ∧
      ∃ order : List Thread, (threads byteOptions [⟨1, Scope.global⟩, ⟨2, Scope.global⟩]).Admits
          ((threads byteOptions [⟨1, Scope.global⟩, ⟨2, Scope.global⟩]).run
            (Threads.idle (History.start fun _ => Broker.fresh)) contended) (order.map .advance) ∧
        ∀ thread, (((threads byteOptions [⟨1, Scope.global⟩, ⟨2, Scope.global⟩]).run
          ((threads byteOptions [⟨1, Scope.global⟩, ⟨2, Scope.global⟩]).run
            (Threads.idle (History.start fun _ => Broker.fresh)) contended)
              (order.map .advance)).program thread).Finished :=
  threads_complete byteOptions [⟨1, Scope.global⟩, ⟨2, Scope.global⟩] (fun _ => Broker.fresh)
    ⟨contended, by decide, rfl⟩

theorem threads_proper_contended :
    ((threads byteOptions [⟨1, Scope.global⟩, ⟨2, Scope.global⟩]).run
      (Threads.idle (History.start fun _ => Broker.fresh)) contended).Proper (.broker 1) :=
  threads_proper byteOptions [⟨1, Scope.global⟩, ⟨2, Scope.global⟩] (fun _ => Broker.fresh)
    ⟨contended, by decide, rfl⟩ (.broker 1)

/-- The handler is blocked there. -/
example : ¬ ((threads byteOptions [⟨1, Scope.global⟩, ⟨2, Scope.global⟩]).run
    (Threads.idle (History.start fun _ => Broker.fresh)) contended).CanAdvance (.broker 1) := by
  decide

/-- No thread is in the middle of a task, and no mutex is taken. -/
structure Quiet (state : Threads Thread (History Property) Mutex Fault) : Prop where
  finished : ∀ thread, (state.program thread).Finished
  free : ∀ mutex, state.holder mutex = none

theorem Quiet.tidy {state : Threads Thread (History Property) Mutex Fault} (quiet : Quiet state) :
    Threads.Tidy Mutex.rank state fun _ => [] := by
  refine ⟨fun _ => List.nodup_nil, ?_, ?_⟩
  · intro mutex thread
    rw [quiet.free mutex]
    exact ⟨fun held => (nomatch held), fun member => (nomatch member)⟩
  · intro thread
    obtain ⟨fault, here⟩ := (quiet.finished thread).eq_done
    rw [here]
    rfl

/-- Between two turns, a thread can take its turn in one go. -/
theorem Quiet.turn {state : Threads Thread (History Property) Mutex Fault} (quiet : Quiet state)
    (wakeups : Nat) (turn : Turn Opts Property)
    (enabled : (History.machine lib pool).enabled state.shared turn) :
    ∃ labels, (threads lib pool).Admits state labels ∧
      Quiet ((threads lib pool).run state labels) ∧
      ((threads lib pool).run state labels).shared =
        (History.machine lib pool).step state.shared turn := by
  let started : Threads Thread (History Property) Mutex Fault :=
    { state with
      program := Function.update state.program turn.thread (turn.routine lib pool wakeups) }
  have tidy : Threads.Tidy Mutex.rank started fun _ => [] :=
    quiet.tidy.replace (Turn.ordered_routine lib pool wakeups turn) state.shared
  obtain ⟨count, admitted, run⟩ := tidy.run_alone
    (show started.program turn.thread = turn.routine lib pool wakeups from
      Function.update_self _ _ _) (fun _ _ => rfl)
  rw [Turn.alone_routine] at run
  have ends : (threads lib pool).run started (List.replicate count (.advance turn.thread)) =
      ⟨(History.machine lib pool).step state.shared turn, fun _ => none,
        Function.update started.program turn.thread
          (.done (History.perform lib pool state.shared.system turn).fault)⟩ := run
  refine ⟨.start turn.thread (turn, wakeups) :: List.replicate count (.advance turn.thread),
    ⟨⟨quiet.finished _, rfl, enabled⟩, admitted⟩, ?_, ?_⟩
  · show Quiet ((threads lib pool).run started _)
    rw [ends]
    refine ⟨?_, fun _ => rfl⟩
    intro thread
    show (Function.update started.program turn.thread _ thread).Finished
    by_cases same : thread = turn.thread
    · rw [same, Function.update_self]
      trivial
    · rw [Function.update_of_ne same]
      show (Function.update state.program turn.thread _ thread).Finished
      rw [Function.update_of_ne same]
      exact quiet.finished thread
  · show ((threads lib pool).run started _).shared = _
    rw [ends]

/-- Every run of whole turns is a run of the threads, in which no turn is interrupted. -/
theorem threads_take_turns (wakeups : Nat) (brokers : SettingsPtr → Broker)
    (turns : List (Turn Opts Property))
    (admitted : (History.machine lib pool).Admits (History.start brokers) turns) :
    ∃ labels, (threads lib pool).Admits (Threads.idle (History.start brokers)) labels ∧
      Quiet ((threads lib pool).run (Threads.idle (History.start brokers)) labels) ∧
      ((threads lib pool).run (Threads.idle (History.start brokers)) labels).shared =
        (History.machine lib pool).run (History.start brokers) turns := by
  have chain : ∀ (state : Threads Thread (History Property) Mutex Fault), Quiet state →
      (History.machine lib pool).Admits state.shared turns →
      ∃ labels, (threads lib pool).Admits state labels ∧
        Quiet ((threads lib pool).run state labels) ∧
        ((threads lib pool).run state labels).shared =
          (History.machine lib pool).run state.shared turns := by
    clear admitted
    induction turns with
    | nil => exact fun state quiet _ => ⟨[], trivial, quiet, rfl⟩
    | cons turn rest ih =>
        intro state quiet admitted
        obtain ⟨first, goes, then_quiet, done⟩ := quiet.turn lib pool wakeups turn admitted.1
        obtain ⟨later, follows, end_quiet, all⟩ := ih _ then_quiet (done ▸ admitted.2)
        refine ⟨first ++ later, ?_, ?_, ?_⟩
        · exact ((threads lib pool).admits_append state first later).mpr ⟨goes, follows⟩
        · rw [(threads lib pool).run_append]
          exact end_quiet
        · rw [(threads lib pool).run_append, all, done]
          rfl
  exact chain (Threads.idle (History.start brokers)) ⟨fun _ => trivial, fun _ => rfl⟩ admitted

end Runs

theorem threads_take_turns_bridged :
    ∃ labels, (threads byteOptions [⟨1, Scope.global⟩, ⟨2, Scope.global⟩]).Admits
        (Threads.idle (History.start fun _ => Broker.fresh)) labels ∧
      Quiet ((threads byteOptions [⟨1, Scope.global⟩, ⟨2, Scope.global⟩]).run
        (Threads.idle (History.start fun _ => Broker.fresh)) labels) ∧
      ((threads byteOptions [⟨1, Scope.global⟩, ⟨2, Scope.global⟩]).run
        (Threads.idle (History.start fun _ => Broker.fresh)) labels).shared =
        (History.machine byteOptions [⟨1, Scope.global⟩, ⟨2, Scope.global⟩]).run
          (History.start fun _ => Broker.fresh) History.bridged :=
  threads_take_turns byteOptions [⟨1, Scope.global⟩, ⟨2, Scope.global⟩] 1 (fun _ => Broker.fresh)
    History.bridged (by decide)

end OctopusMq
