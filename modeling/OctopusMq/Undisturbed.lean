import OctopusMq.Routines
import OctopusMq.Subscribing
import OctopusMq.Teardown

set_option autoImplicit false

/- A thread that no other disturbs runs the handlers and the drain as they stand:
a turn in one go. -/
namespace OctopusMq

open Imperative Concurrent

variable {Opts Property : Type}

namespace History

/-- Enter what a part of a drain has done. The control thread leaves its loop where
that throws. -/
def drained (outcome : System.Result Property) (self : History Property) : History Property :=
  ⟨outcome.state, self.acts ++ outcome.effects, self.running && outcome.fault.isNone⟩

@[simp] theorem record_system (outcome : System.Result Property) (self : History Property) :
    (self.record outcome).system = outcome.state := rfl

theorem record_done (self : History Property) : self.record (.done self.system) = self := by
  unfold record
  rw [Outcome.done_effects, List.append_nil, Outcome.done_state]

/-- What two steps do one after the other. -/
theorem record_andThen (self : History Property) (first : System.Result Property)
    (next : System Property → System.Result Property) (ok : first.fault = none) :
    (self.record first).record (next first.state) = self.record (first.andThen next) := by
  rw [Outcome.andThen_of_ok _ _ ok]
  unfold record
  rw [List.append_assoc]

end History

namespace System

theorem call_done (adapter : SettingsPtr) (self : System Property) :
    call adapter (fun broker => (.done broker : Broker.Result Property)) self = .done self := by
  simp only [call, Outcome.done_state, Function.update_eq_self]
  rfl

theorem call_congr (adapter : SettingsPtr) {first second : Broker → Broker.Result Property}
    {self : System Property} (same : first (self.brokers adapter) = second (self.brokers adapter)) :
    call adapter first self = call adapter second self := by
  unfold call
  rw [same]

/-- Two parts of a handler are called as one. -/
theorem call_andThen (adapter : SettingsPtr) (first second : Broker → Broker.Result Property)
    (self : System Property) :
    call adapter (fun broker => (first broker).andThen second) self =
      (call adapter first self).andThen (call adapter second) := by
  cases failed : (first (self.brokers adapter)).fault with
  | some fault =>
      have whole : (call adapter first self).fault = some fault := failed
      rw [Outcome.andThen_of_fault _ _ fault whole]
      simp only [call, Outcome.andThen_of_fault _ _ fault failed]
  | none =>
      have whole : (call adapter first self).fault = none := failed
      rw [Outcome.andThen_of_ok _ _ whole]
      simp only [call, Outcome.andThen_of_ok _ _ failed, Function.update_self,
        Function.update_idem, Broker.pushes_append, List.foldl_append, List.map_append]

end System

namespace Routine

/-- What follows a part that may fail. -/
def resume (failed : Fault → Routine Property) (next : Routine Property)
    (outcome : System.Result Property) : Routine Property :=
  match outcome.fault with
  | some fault => failed fault
  | none => next

/-- Run by itself, the routine does what the handler does. -/
def Does (adapter : SettingsPtr) (routine : Routine Property)
    (handler : Broker → Broker.Result Property) (self : History Property) : Prop :=
  routine.alone self = (self.record (System.call adapter handler self.system),
    (System.call adapter handler self.system).fault)

theorem alone_call (adapter : SettingsPtr) (handler : Broker → Broker.Result Property)
    (next : System.Result Property → Routine Property) (self : History Property) :
    (call adapter handler next).alone self =
      (next (System.call adapter handler self.system)).alone
        (self.record (System.call adapter handler self.system)) := rfl

section Does

variable {adapter : SettingsPtr} {rest : Routine Property} {self : History Property}
  {action : Broker → Broker.Result Property}

theorem does_finish (adapter : SettingsPtr) (self : History Property) :
    Does adapter finish (fun broker => .done broker) self := by
  unfold Does
  rw [System.call_done, History.record_done]
  rfl

/-- Only what the handler does to this broker counts. -/
theorem Does.congr {routine : Routine Property} {other : Broker → Broker.Result Property}
    (does : Does adapter routine other self)
    (same : action (self.system.brokers adapter) = other (self.system.brokers adapter)) :
    Does adapter routine action self := by
  unfold Does
  rw [System.call_congr adapter same]
  exact does

/-- A part that returns, and what follows it. -/
theorem does_call {first : Broker → Broker.Result Property}
    {next : System.Result Property → Routine Property}
    (ok : (System.call adapter first self.system).fault = none)
    (later : Does adapter (next (System.call adapter first self.system)) action
      (self.record (System.call adapter first self.system))) :
    Does adapter (call adapter first next) (fun broker => (first broker).andThen action) self := by
  unfold Does
  rw [System.call_andThen, ← History.record_andThen _ _ _ ok, Outcome.andThen_of_ok _ _ ok]
  exact later

theorem does_change {update : Broker → Broker}
    (later : ∀ now, Does adapter rest action now) :
    Does adapter (change adapter update rest) (fun broker => action (update broker)) self := by
  have whole : Does adapter (change adapter update rest)
      (fun broker => (Outcome.done (update broker)).andThen action) self :=
    does_call rfl (later _)
  exact whole

theorem does_send {con : Connection} {packet : Packet Property}
    (later : ∀ now, Does adapter rest action now) :
    Does adapter (send adapter con packet rest)
      (fun broker => (Outcome.emit broker (.send con packet)).andThen action) self :=
  does_call rfl (later _)

theorem does_printEvent {con : Connection} (later : ∀ now, Does adapter rest action now) :
    Does adapter (printEvent adapter con rest) (fun broker => action (broker.touch con)) self :=
  does_change fun now => later now

theorem does_closeConnection (adapter : SettingsPtr) (con : Connection)
    (self : History Property) :
    Does adapter (closeConnection adapter con) (fun broker => .done (broker.closeConnection con))
      self :=
  does_change fun _ => does_change fun later => does_finish adapter later

/-- A delivery loop goes on where it returns, and with `failed` where it does not.
The induction is on the subscriptions. -/
theorem alone_deliverEach {body : Subscription → Broker → Broker.Result Property}
    {failed : Fault → Routine Property} (subs : List Subscription) (self : History Property) :
    (deliverEach adapter body failed rest subs).alone self =
      (resume failed rest (System.call adapter (Outcome.forEach body subs) self.system)).alone
        (self.record (System.call adapter (Outcome.forEach body subs) self.system)) := by
  induction subs generalizing self with
  | nil =>
      have returns : System.call adapter (Outcome.forEach body []) self.system =
          .done self.system := System.call_done adapter self.system
      rw [returns, History.record_done]
      rfl
  | cons sub subs ih =>
      have split : System.call adapter (Outcome.forEach body (sub :: subs)) self.system =
          (System.call adapter (body sub) self.system).andThen
            (System.call adapter (Outcome.forEach body subs)) :=
        System.call_andThen adapter (body sub) (Outcome.forEach body subs) self.system
      rw [split]
      cases now : (System.call adapter (body sub) self.system).fault with
      | some fault =>
          rw [Outcome.andThen_of_fault _ _ fault now, deliverEach, alone_call, resume]
          simp only [now]
      | none =>
          have later := ih (self.record (System.call adapter (body sub) self.system))
          rw [History.record_system, History.record_andThen _ _ _ now] at later
          have same : resume failed rest ((System.call adapter (body sub) self.system).andThen
                (System.call adapter (Outcome.forEach body subs))) =
              resume failed rest (System.call adapter (Outcome.forEach body subs)
                (System.call adapter (body sub) self.system).state) := by
            rw [Outcome.andThen_of_ok _ _ now]
            rfl
          rw [same, ← later, deliverEach, alone_call]
          simp only [now]
          cases (System.call adapter (body sub) self.system).effects with
          | nil => rfl
          | cons effect effects => rfl

theorem alone_deliverAll {body : Subscription → Broker → Broker.Result Property}
    {failed : Fault → Routine Property} (self : History Property) :
    (deliverAll adapter body failed rest).alone self =
      (resume failed rest (System.call adapter
        (fun broker => Outcome.forEach body broker.subs.entries broker) self.system)).alone
      (self.record (System.call adapter
        (fun broker => Outcome.forEach body broker.subs.entries broker) self.system)) := by
  have each : (deliverAll adapter body failed rest).alone self = _ :=
    alone_deliverEach (self.system.brokers adapter).subs.entries self
  have same : System.call adapter
        (Outcome.forEach body (self.system.brokers adapter).subs.entries) self.system =
      System.call adapter (fun broker => Outcome.forEach body broker.subs.entries broker)
        self.system := System.call_congr adapter rfl
  rw [same] at each
  refine Eq.trans each ?_
  unfold resume
  cases (System.call adapter (fun broker => Outcome.forEach body broker.subs.entries broker)
    self.system).fault with
  | none => rfl
  | some fault => rfl

theorem does_deliverAll {body : Subscription → Broker → Broker.Result Property}
    (later : ∀ now, Does adapter rest action now) :
    Does adapter (deliverAll adapter body (fun fault => .done (some fault)) rest)
      (fun broker => (Outcome.forEach body broker.subs.entries broker).andThen action) self := by
  unfold Does
  rw [alone_deliverAll, System.call_andThen]
  cases now : (System.call adapter
    (fun broker => Outcome.forEach body broker.subs.entries broker) self.system).fault with
  | some fault =>
      rw [Outcome.andThen_of_fault _ _ fault now, now]
      unfold resume
      rw [now]
      rfl
  | none =>
      unfold resume
      rw [now, ← History.record_andThen _ _ _ now, Outcome.andThen_of_ok _ _ now]
      exact later _

theorem does_publish {body : Subscription → Broker → Broker.Result Property}
    {share : Broker → Broker.Result Property} {con : Connection}
    (returns : ∀ broker, (share broker).fault = none) :
    Does adapter (publish adapter con body share)
      (fun broker =>
        (Outcome.forEach body broker.subs.entries (broker.touch con)).andThen share) self := by
  have shares : ∀ now, Does adapter
      (.acquire .queue (call adapter share fun _ => .release .queue finish)) share now := by
    intro now
    unfold Does
    rw [show (System.call adapter share now.system).fault = none from returns _]
    rfl
  have whole : Does adapter (publish adapter con body share)
      (fun broker => (Outcome.forEach body (broker.touch con).subs.entries
        (broker.touch con)).andThen share) self :=
    does_printEvent fun _ => does_deliverAll shares
  exact whole.congr rfl

/-- The loop over the entries emplaces the valid ones, and goes on with one answer
code for each. The induction is on the entries. -/
theorem does_subscribeEach {Code : Type} {subscription : Text → SubscribeOptions → Subscription}
    {granted : Qos → Code} {refused : Code} {answer : List Code → Routine Property}
    {answered : List Code → Broker → Broker.Result Property}
    (later : ∀ codes now, Does adapter (answer codes) (answered codes) now)
    (entries : List (Text × SubscribeOptions)) (codes : List Code) :
    Does adapter (subscribeEach adapter subscription granted refused answer entries codes)
      (fun broker => answered (codes ++ entries.map (Broker.entryCode granted refused))
        { broker with subs :=
            (Broker.requested subscription entries).foldl OrderedTable.Table.emplace broker.subs })
      self := by
  induction entries generalizing self codes with
  | nil =>
      have now := later codes self
      simp only [Broker.requested, List.filter_nil, List.map_nil, List.append_nil, List.foldl_nil]
      exact now
  | cons entry rest ih =>
      by_cases good : Scope.Accepted entry.1
      · have valid : Scope.validTopicFilter entry.1 = .ok true := by
          rw [Scope.validTopicFilter_eq, decide_eq_true good]
        simp only [subscribeEach, valid]
        have whole := @does_change _ adapter _ self _
          (fun broker => { broker with
            subs := broker.subs.emplace (subscription entry.1 entry.2) })
          fun now => @ih now (codes ++ [granted entry.2.qos])
        apply Does.congr whole
        simp [Broker.requested, Broker.entryCode, good]
      · have invalid : Scope.validTopicFilter entry.1 = .ok false := by
          rw [Scope.validTopicFilter_eq, decide_eq_false good]
        simp only [subscribeEach, invalid]
        apply (ih (codes ++ [refused])).congr
        simp [Broker.requested, Broker.entryCode, good]

theorem touch_touch (broker : Broker) (con : Connection) :
    (broker.touch con).touch con = broker.touch con :=
  Broker.touch_eq_self _ con ((Broker.known_touch broker con con).mpr (Or.inl rfl))

theorem touch_subs_touch (broker : Broker) (con : Connection) (subs : SubscriptionContainer) :
    Broker.touch { broker.touch con with subs := subs } con =
      { broker.touch con with subs := subs } :=
  Broker.touch_eq_self _ con ((Broker.known_touch broker con con).mpr (Or.inl rfl))

/-- A handler that answers touches the entry of its connection once more. -/
theorem does_answer (adapter : SettingsPtr) (con : Connection) (packet : Packet Property)
    (self : History Property) :
    Does adapter (send adapter con packet (printEvent adapter con finish))
      (fun broker => .emit (broker.touch con) (.send con packet)) self :=
  does_send fun _ => does_printEvent fun now => does_finish adapter now

theorem does_subscribe {Code : Type} (subscription : Text → SubscribeOptions → Subscription)
    (granted : Qos → Code) (refused : Code) (suback : List Code → Packet Property)
    (con : Connection) (entries : List (Text × SubscribeOptions)) :
    Does adapter (subscribe adapter subscription granted refused suback con entries)
      (Broker.subscribeWith subscription granted refused suback con entries) self := by
  have whole : Does adapter (subscribe adapter subscription granted refused suback con entries)
      (fun broker => .emit
        (Broker.touch { broker.touch con with
          subs := (Broker.requested subscription entries).foldl OrderedTable.Table.emplace
            (broker.touch con).subs } con)
        (.send con (suback ([] ++ entries.map (Broker.entryCode granted refused))))) self :=
    does_printEvent fun _ => does_subscribeEach
      (fun codes now => does_answer adapter con (suback codes) now) entries []
  apply whole.congr
  rw [Broker.subscribeWith_eq, touch_subs_touch]
  rfl

/-- Every handler, run by itself, is the handler in one go. -/
theorem does_handler (lib : OptionsApi Opts) (adapter : SettingsPtr)
    (event : Event Opts Property) (self : History Property) :
    Does adapter (handler lib adapter event) (Broker.handle lib event) self := by
  cases event with
  | accept con remote => rfl
  | close con => exact does_closeConnection adapter con self
  | error con =>
      unfold Does handler look
      by_cases registered : con ∈ (self.system.brokers adapter).connections
      · have closes : Does adapter (printEvent adapter con (closeConnection adapter con))
            (fun broker => .done ((broker.touch con).closeConnection con)) self :=
          does_printEvent fun now => does_closeConnection adapter con now
        simp only [Program.alone, registered, ↓reduceIte, id_eq]
        apply closes.congr
        simp only [Broker.handle, Broker.errorHandler, registered, ↓reduceIte]
      · simp only [Program.alone, registered, ↓reduceIte, id_eq]
        apply (does_finish adapter self).congr
        simp only [Broker.handle, Broker.errorHandler, registered, ↓reduceIte]
  | pingreq con =>
      have whole : Does adapter (handler lib adapter (.pingreq con : Event Opts Property))
          (fun broker => .emit ((broker.touch con).touch con) (.send con .pingresp)) self :=
        does_printEvent fun now => does_answer adapter con .pingresp now
      apply whole.congr
      rw [touch_touch]
      rfl
  | connect version con clientId =>
      have whole : Does adapter (handler lib adapter (.connect version con clientId))
          (fun broker => .emit
            (((Broker.updateMetadata
              { broker with connections := insert con broker.connections } con
              fun old => { old with clientId := clientId, protocolVersion := version }).touch
                con).touch con) (.send con (.connack version))) self :=
        does_change fun _ => does_printEvent fun now =>
          does_answer adapter con (.connack version) now
      apply whole.congr
      rw [touch_touch, Broker.touch_eq_self]
      · cases version <;> rfl
      · exact (Broker.known_updateMetadata _ con con _).mpr (Or.inl rfl)
  | disconnect version con =>
      have whole : Does adapter (handler lib adapter (.disconnect version con))
          (fun broker => .done ((broker.touch con).closeConnection con)) self :=
        does_printEvent fun now => does_closeConnection adapter con now
      apply whole.congr
      cases version <;> rfl
  | ack version packet con =>
      have whole : Does adapter (handler lib adapter (.ack version packet con))
          (fun broker => .done (broker.touch con)) self :=
        does_printEvent fun now => does_finish adapter now
      apply whole.congr
      cases version <;> cases packet <;> rfl
  | publish con connected pubopts topicName contents => exact does_publish fun _ => rfl
  | v5Publish con connected pubopts topicName contents props => exact does_publish fun _ => rfl
  | subscribe version con packetId entries =>
      cases version with
      | v3 => exact does_subscribe _ _ _ _ con entries
      | v5 => exact does_subscribe _ _ _ _ con entries
  | unsubscribe version con packetId topics =>
      have whole : Does adapter (handler lib adapter (.unsubscribe version con packetId topics))
          (fun broker => .emit
            (Broker.touch { broker.touch con with
              subs := topics.foldl Broker.eraseTopic (broker.touch con).subs } con)
            (.send con (.unsuback packetId))) self :=
        does_printEvent fun _ => does_change fun now =>
          does_answer adapter con (.unsuback packetId) now
      apply whole.congr
      rw [touch_subs_touch]
      cases version <;> rfl
  | injectPublish connected message =>
      have whole : Does adapter (handler lib adapter (.injectPublish connected message))
          (fun broker => (Broker.injectPublish lib connected message broker).andThen
            fun reached => .done reached) self :=
        does_deliverAll fun now => does_finish adapter now
      apply whole.congr
      exact (Outcome.andThen_done _).symm

end Does

/-- Run by itself, the routine does what a part of a drain does. Where that throws,
the control thread leaves its loop. -/
def Drains (routine : Routine Property) (part : System Property → System.Result Property)
    (self : History Property) : Prop :=
  routine.alone self = (self.drained (part self.system), (part self.system).fault)

section Drains

variable {next : Routine Property} {part : System Property → System.Result Property}
  {self : History Property}

theorem drains_finish (self : History Property) :
    Drains (.release .queue finish) (fun system => .done system) self := by
  unfold Drains History.drained
  simp only [Program.alone, finish, Outcome.done_state, Outcome.done_effects, List.append_nil,
    Outcome.done_fault, Option.isNone_none, Bool.and_true]

theorem drains_leave (fault : Fault) (self : History Property) :
    Drains (leave fault) (fun system => .throw system fault) self := by
  unfold Drains History.drained leave History.leaveLoop
  simp only [Program.alone, print, Outcome.throw_state, Outcome.throw_effects, List.append_nil,
    Outcome.throw_fault, Option.isNone_some, Bool.and_false]

/-- What a part has done, and what follows it. -/
theorem drains_resume {first : System.Result Property}
    (later : first.fault = none → Drains next part (self.record first)) :
    (resume leave next first).alone (self.record first) =
      (self.drained (first.andThen part), (first.andThen part).fault) := by
  unfold resume
  cases now : first.fault with
  | some fault =>
      have leaves := drains_leave fault (self.record first)
      rw [Outcome.andThen_of_fault _ _ fault now, now]
      refine leaves.trans ?_
      unfold History.drained History.record
      simp only [Outcome.throw_state, Outcome.throw_effects, Outcome.throw_fault, now,
        Option.isNone_some, Bool.and_false, List.append_nil]
  | none =>
      refine (later now).trans ?_
      rw [Outcome.andThen_of_ok _ _ now]
      unfold History.drained History.record
      rw [List.append_assoc]

/-- `inject_publish` of an adapter, and what follows it. -/
theorem drains_inject (lib : OptionsApi Opts) (connected : SettingsPtr → Connection → Bool)
    (item : AdapterMessagePair Property) (adapter : Adapter)
    (later : ∀ now, Drains next part now) :
    Drains
      (.perform (fun self => self.record (.emit self.system (.inject adapter.settings item)))
        fun _ => deliverAll adapter.settings
          (Broker.deliver (connected adapter.settings) item.2.topic
            (Broker.injectedDelivery lib item.2)) leave next)
      (fun system => ((Outcome.emit system (.inject adapter.settings item)).andThen
        (System.call adapter.settings
          (Broker.injectPublish lib (connected adapter.settings) item.2))).andThen part) self := by
  have inner := @drains_resume _ next part
    (self.record (.emit self.system (.inject adapter.settings item)))
    (System.call adapter.settings
      (Broker.injectPublish lib (connected adapter.settings) item.2) self.system) fun _ => later _
  refine Eq.trans (alone_deliverAll _) (Eq.trans inner ?_)
  simp only [Outcome.andThen_assoc]
  simp only [Outcome.emit_andThen]
  unfold History.drained History.record
  simp only [Outcome.emit_effects, List.append_assoc, List.singleton_append]

/-- The loop over the pool, and what follows it. The induction is on the pool. -/
theorem drains_injectEach (lib : OptionsApi Opts)
    (connected : SettingsPtr → Connection → Bool) (item : AdapterMessagePair Property)
    (pool : List Adapter) (later : ∀ now, Drains next part now) :
    Drains (injectEach lib connected item next pool)
      (fun system =>
        (Outcome.forEach (System.injectInto lib connected item) pool system).andThen
          part) self := by
  induction pool generalizing self with
  | nil => exact later self
  | cons adapter rest ih =>
      have split : (fun system => (Outcome.forEach (System.injectInto lib connected item)
            (adapter :: rest) system).andThen part) =
          fun system => (System.injectInto lib connected item adapter system).andThen
            fun reached => (Outcome.forEach (System.injectInto lib connected item) rest
              reached).andThen part := by
        funext system
        rw [Outcome.forEach_cons, Outcome.andThen_assoc]
      rw [split]
      unfold injectEach
      by_cases foreign : adapter.settings ≠ item.1
      · simp only [foreign, ↓reduceIte, ne_eq, not_false_eq_true]
        cases inScope : adapter.scope.includes item.2.topic with
        | error fault =>
            refine (drains_leave fault self).trans ?_
            simp only [System.injectInto, foreign, ↓reduceIte, inScope, ne_eq, not_false_eq_true]
            rfl
        | ok included =>
            cases included with
            | false =>
                refine ih.trans ?_
                simp only [System.injectInto, foreign, ↓reduceIte, inScope, ne_eq,
                  not_false_eq_true]
                rfl
            | true =>
                refine (drains_inject lib connected item adapter fun now => ih).trans ?_
                simp only [System.injectInto, foreign, ↓reduceIte, inScope, ne_eq,
                  not_false_eq_true]
      · simp only [foreign, ↓reduceIte]
        refine ih.trans ?_
        simp only [System.injectInto, foreign, ↓reduceIte]
        rfl

/-- The loop while the queue is not empty. The induction is on the rounds. -/
theorem drains_popAll (lib : OptionsApi Opts) (pool : List Adapter) (rounds : Nat)
    (connected : Nat → SettingsPtr → Connection → Bool) :
    Drains (popAll lib pool rounds connected) (System.popAll lib pool rounds connected) self := by
  induction rounds generalizing self connected with
  | zero =>
      unfold popAll Drains look System.popAll
      cases front : self.system.queue with
      | nil =>
          simp only [Program.alone, id_eq, front]
          exact drains_finish self
      | cons item rest =>
          simp only [Program.alone, id_eq, front]
          exact drains_leave .unfinished self
  | succ rounds ih =>
      unfold popAll Drains look System.popAll
      cases front : self.system.queue with
      | nil =>
          simp only [Program.alone, id_eq, front]
          exact drains_finish self
      | cons item rest =>
          simp only [Program.alone, id_eq, front]
          rw [Outcome.andThen_assoc]
          apply drains_injectEach
          intro now
          have popped := @drains_resume _
            (popAll lib pool rounds fun round => connected (round + 1))
            (System.popAll lib pool rounds fun round => connected (round + 1)) now
            (System.pop now.system) fun _ => ih _
          exact popped

theorem alone_waitFor (wakeups : Nat) (self : History Property) :
    (waitFor next wakeups).alone self = next.alone self := by
  induction wakeups with
  | zero => rfl
  | succ wakeups ih =>
      unfold waitFor look
      cases front : self.system.queue with
      | nil =>
          simp only [Program.alone, id_eq, front]
          exact ih
      | cons item rest => simp only [Program.alone, id_eq, front]

end Drains

end Routine

/-- A thread that is left alone takes a turn in one go. -/
theorem Turn.alone_routine (lib : OptionsApi Opts) (pool : List Adapter) (wakeups : Nat)
    (turn : Turn Opts Property) (self : History Property) :
    (turn.routine lib pool wakeups).alone self =
      ((History.machine lib pool).step self turn,
        (History.perform lib pool self.system turn).fault) := by
  cases turn with
  | client adapter event => exact Routine.does_handler lib adapter event self
  | drain connected =>
      have drains := @Routine.drains_popAll _ _ self lib pool self.system.queue.length connected
      show (Routine.drain lib pool wakeups connected).alone self = _
      unfold Routine.drain
      simp only [Program.alone, Routine.alone_waitFor, Routine.look, id_eq]
      refine drains.trans ?_
      simp only [History.machine, History.perform, System.waitAndPopAll_eq]
      rfl

end OctopusMq
