import OctopusMq.Routing
import OctopusMq.Library.Threads

set_option autoImplicit false

/- The handlers and the drain as the threads of the program run them, with the
mutexes they take. -/
namespace OctopusMq

open Imperative Concurrent

variable {Opts Property : Type}

/-- `_queue_mutex`, the `_subs_mutex` of the broker of an adapter, and `log::_mutex`. -/
inductive Mutex where
  | queue
  | subs (adapter : SettingsPtr)
  | log
deriving DecidableEq

/-- The control thread, and the thread of the broker of an adapter. -/
inductive Thread where
  | control
  | broker (adapter : SettingsPtr)
deriving DecidableEq

abbrev Routine (Property : Type) := Program (History Property) Mutex Fault

namespace History

/-- Enter what a call has done. -/
def record (outcome : System.Result Property) (self : History Property) : History Property :=
  ⟨outcome.state, self.acts ++ outcome.effects, self.running⟩

/-- `break` out of the loop of `message_queue_manager`. -/
def leaveLoop (self : History Property) : History Property := { self with running := false }

end History

namespace Routine

def finish : Routine Property := .done none

/-- Read the shared state. -/
def look (next : History Property → Routine Property) : Routine Property := .perform id next

/-- A part of a handler of the broker of an adapter. -/
def call (adapter : SettingsPtr) (handler : Broker → Broker.Result Property)
    (next : System.Result Property → Routine Property) : Routine Property :=
  .perform (fun self => self.record (System.call adapter handler self.system))
    fun self => next (System.call adapter handler self.system)

/-- A part that only changes the broker. -/
def change (adapter : SettingsPtr) (update : Broker → Broker) (next : Routine Property) :
    Routine Property :=
  call adapter (fun broker => .done (update broker)) fun _ => next

/-- A packet to a connection. -/
def send (adapter : SettingsPtr) (con : Connection) (packet : Packet Property)
    (next : Routine Property) : Routine Property :=
  call adapter (fun broker => .emit broker (.send con packet)) fun _ => next

/-- A line of the log. -/
def print (next : Routine Property) : Routine Property := .acquire .log (.release .log next)

/-- `log::print_event`: its arguments read `_meta[con]` before it takes the mutex. -/
def printEvent (adapter : SettingsPtr) (con : Connection) (next : Routine Property) :
    Routine Property :=
  change adapter (fun broker => broker.touch con) (print next)

def closeConnection (adapter : SettingsPtr) (con : Connection) : Routine Property :=
  change adapter (fun broker => broker.closeUnlocked con)
    (.acquire (.subs adapter) (change adapter (fun broker => broker.closeLocked con)
      (.release (.subs adapter) finish)))

/-- The iterations of a delivery loop. A send is followed by a line of the log. -/
def deliverEach (adapter : SettingsPtr) (body : Subscription → Broker → Broker.Result Property)
    (failed : Fault → Routine Property) (next : Routine Property) :
    List Subscription → Routine Property
  | [] => next
  | sub :: rest =>
      call adapter (body sub) fun outcome =>
        match outcome.fault, outcome.effects with
        | some fault, _ => failed fault
        | none, [] => deliverEach adapter body failed next rest
        | none, _ :: _ => print (deliverEach adapter body failed next rest)

/-- A delivery loop under `_subs_mutex`. The lock is given back also when an
exception leaves the loop. -/
def deliverAll (adapter : SettingsPtr) (body : Subscription → Broker → Broker.Result Property)
    (failed : Fault → Routine Property) (next : Routine Property) : Routine Property :=
  .acquire (.subs adapter) (look fun self =>
    deliverEach adapter body (fun fault => .release (.subs adapter) (failed fault))
      (.release (.subs adapter) next) (self.system.brokers adapter).subs.entries)

/-- The publish handlers, up to the body of their loop and the message they share. -/
def publish (adapter : SettingsPtr) (con : Connection)
    (body : Subscription → Broker → Broker.Result Property)
    (share : Broker → Broker.Result Property) : Routine Property :=
  printEvent adapter con (deliverAll adapter body (fun fault => .done (some fault))
    -- `message_queue::push`
    (.acquire .queue (call adapter share fun _ => .release .queue finish)))

/-- The loop of the subscribe handlers: `_subs_mutex` is taken for each valid filter. -/
def subscribeEach {Code : Type} (adapter : SettingsPtr)
    (subscription : Text → SubscribeOptions → Subscription) (granted : Qos → Code)
    (refused : Code) (answer : List Code → Routine Property) :
    List (Text × SubscribeOptions) → List Code → Routine Property
  | [], codes => answer codes
  | entry :: rest, codes =>
      match Scope.validTopicFilter entry.1 with
      | .error fault => .done (some fault)
      | .ok true =>
          .acquire (.subs adapter) (change adapter
            (fun broker => { broker with
              subs := broker.subs.emplace (subscription entry.1 entry.2) })
            (.release (.subs adapter)
              (subscribeEach adapter subscription granted refused answer rest
              (codes ++ [granted entry.2.qos]))))
      | .ok false =>
          subscribeEach adapter subscription granted refused answer rest (codes ++ [refused])

def subscribe {Code : Type} (adapter : SettingsPtr)
    (subscription : Text → SubscribeOptions → Subscription) (granted : Qos → Code)
    (refused : Code) (suback : List Code → Packet Property) (con : Connection)
    (entries : List (Text × SubscribeOptions)) : Routine Property :=
  printEvent adapter con (subscribeEach adapter subscription granted refused
    (fun codes => send adapter con (suback codes) (printEvent adapter con finish)) entries [])

def connect (adapter : SettingsPtr) (version : Version) (con : Connection) (clientId : Text) :
    Routine Property :=
  change adapter (fun broker =>
      { broker with connections := insert con broker.connections }.updateMetadata con fun old =>
        { old with clientId := clientId, protocolVersion := version })
    (printEvent adapter con (send adapter con (.connack version)
      (printEvent adapter con finish)))

/-- The handler of an event, in the thread of the broker. -/
def handler (lib : OptionsApi Opts) (adapter : SettingsPtr) :
    Event Opts Property → Routine Property
  | .accept con remote =>
      call adapter (Broker.acceptHandler con remote) fun outcome => .done outcome.fault
  | .close con => print (closeConnection adapter con)
  | .error con =>
      look fun self =>
        if con ∈ (self.system.brokers adapter).connections then
          printEvent adapter con (closeConnection adapter con)
        else finish
  | .pingreq con =>
      printEvent adapter con (send adapter con .pingresp (printEvent adapter con finish))
  | .connect version con clientId => connect adapter version con clientId
  | .disconnect _ con => printEvent adapter con (closeConnection adapter con)
  | .ack _ _ con => printEvent adapter con finish
  | .publish con connected pubopts topicName contents =>
      publish adapter con
        (Broker.deliver connected topicName (Broker.v3Delivery lib pubopts topicName contents))
        (Broker.share lib topicName contents pubopts .v3 [])
  | .v5Publish con connected pubopts topicName contents props =>
      publish adapter con
        (Broker.deliver connected topicName
          (Broker.v5Delivery lib con pubopts topicName contents props))
        (Broker.share lib topicName contents pubopts .v5 props)
  | .subscribe .v3 con packetId entries =>
      subscribe adapter (fun filter options => Subscription.v3 filter con options)
        SubackReturnCode.successMaximumQos .failure (.suback packetId) con entries
  | .subscribe .v5 con packetId entries =>
      subscribe adapter (fun filter options => Subscription.v5 filter con options)
        SubackReasonCode.grantedQos .topicFilterInvalid (.v5Suback packetId) con entries
  | .unsubscribe _ con packetId topics =>
      printEvent adapter con (.acquire (.subs adapter) (change adapter
        (fun broker => { broker with subs := topics.foldl Broker.eraseTopic broker.subs })
        (.release (.subs adapter) (send adapter con (.unsuback packetId)
          (printEvent adapter con finish)))))
  | .injectPublish connected message =>
      deliverAll adapter
        (Broker.deliver connected message.topic (Broker.injectedDelivery lib message))
        (fun fault => .done (some fault)) finish

/-- An exception leaves `wait_and_pop_all`, which gives back its lock, and is caught
by `message_queue_manager`, which prints it and leaves its loop. -/
def leave (fault : Fault) : Routine Property :=
  .perform History.leaveLoop fun _ => .release .queue (print (.done (some fault)))

/-- The loop over the pool. -/
def injectEach (lib : OptionsApi Opts) (connected : SettingsPtr → Connection → Bool)
    (item : AdapterMessagePair Property) (next : Routine Property) :
    List Adapter → Routine Property
  | [] => next
  | adapter :: rest =>
      if adapter.settings ≠ item.1 then
        match adapter.scope.includes item.2.topic with
        | .error fault => leave fault
        | .ok false => injectEach lib connected item next rest
        | .ok true =>
            .perform
              (fun self => self.record (.emit self.system (.inject adapter.settings item)))
              fun _ => deliverAll adapter.settings
                (Broker.deliver (connected adapter.settings) item.2.topic
                  (Broker.injectedDelivery lib item.2))
                leave (injectEach lib connected item next rest)
      else injectEach lib connected item next rest

/-- The three ways of an adapter of the pool, as for `System.injectInto`. -/
theorem injectEach_cases (lib : OptionsApi Opts) (connected : SettingsPtr → Connection → Bool)
    (item : AdapterMessagePair Property) (next : Routine Property) (adapter : Adapter)
    (rest : List Adapter) :
    (adapter.eligible item = false ∧ injectEach lib connected item next (adapter :: rest) =
      injectEach lib connected item next rest) ∨
    (∃ fault, adapter.scope.includes item.2.topic = .error fault ∧
      injectEach lib connected item next (adapter :: rest) = leave fault) ∨
    (adapter.eligible item = true ∧ injectEach lib connected item next (adapter :: rest) =
      .perform (fun self => self.record (.emit self.system (.inject adapter.settings item)))
        fun _ => deliverAll adapter.settings
          (Broker.deliver (connected adapter.settings) item.2.topic
            (Broker.injectedDelivery lib item.2))
          leave (injectEach lib connected item next rest)) := by
  unfold Adapter.eligible
  by_cases foreign : adapter.settings ≠ item.1
  · cases included : adapter.scope.includes item.2.topic with
    | error fault => exact Or.inr (Or.inl ⟨fault, rfl, by simp [injectEach, foreign, included]⟩)
    | ok found =>
        cases found with
        | false => exact Or.inl ⟨by simp, by simp [injectEach, foreign, included]⟩
        | true => exact Or.inr (Or.inr ⟨by simp [foreign], by simp [injectEach, foreign, included]⟩)
  · exact Or.inl ⟨by simp [foreign], by simp [injectEach, foreign]⟩

/-- The loop while the queue is not empty, up to a number of rounds. -/
def popAll (lib : OptionsApi Opts) (pool : List Adapter) :
    Nat → (Nat → SettingsPtr → Connection → Bool) → Routine Property
  | 0, _ =>
      look fun self =>
        match self.system.queue with
        | [] => .release .queue finish
        | _ :: _ => leave .unfinished
  | rounds + 1, connected =>
      look fun self =>
        match self.system.queue with
        | [] => .release .queue finish
        | item :: _ =>
            injectEach lib (connected 0) item
              (.perform (fun self => self.record (System.pop self.system)) fun _ =>
                popAll lib pool rounds fun round => connected (round + 1)) pool

/-- `_queue_cv.wait_for`: the lock is given back and taken again while the queue is
empty, for a number of wake-ups. After them the time is up. -/
def waitFor (next : Routine Property) : Nat → Routine Property
  | 0 => next
  | wakeups + 1 =>
      look fun self =>
        match self.system.queue with
        | [] => .release .queue (.acquire .queue (waitFor next wakeups))
        | _ :: _ => next

/-- `wait_and_pop_all`, called by `message_queue_manager`. -/
def drain (lib : OptionsApi Opts) (pool : List Adapter) (wakeups : Nat)
    (connected : Nat → SettingsPtr → Connection → Bool) : Routine Property :=
  .acquire .queue (waitFor
    (look fun self => popAll lib pool self.system.queue.length connected) wakeups)

end Routine

/-- The thread that takes a turn. -/
def Turn.thread : Turn Opts Property → Thread
  | .client adapter _ => .broker adapter
  | .drain _ => .control

/-- What the thread runs, given the wake-ups of its wait. -/
def Turn.routine (lib : OptionsApi Opts) (pool : List Adapter) (wakeups : Nat) :
    Turn Opts Property → Routine Property
  | .client adapter event => Routine.handler lib adapter event
  | .drain connected => Routine.drain lib pool wakeups connected

/-- A turn, and how often the wait of a drain is woken up in vain. -/
abbrev Task (Opts Property : Type) := Turn Opts Property × Nat

/-- The threads of the program. Each takes the turns that are its own. -/
def threads (lib : OptionsApi Opts) (pool : List Adapter) :
    Transition.Machine (Threads Thread (History Property) Mutex Fault)
      (Label Thread (Task Opts Property)) :=
  Threads.machine (fun _ task => task.1.routine lib pool task.2) fun self thread task =>
    task.1.thread = thread ∧ (History.machine lib pool).enabled self task.1

instance (lib : OptionsApi Opts) (pool : List Adapter)
    (self : Threads Thread (History Property) Mutex Fault)
    (label : Label Thread (Task Opts Property)) :
    Decidable ((threads lib pool).enabled self label) :=
  @Threads.decidableEnabled _ _ _ _ _ _ _ _ _ (fun _ _ _ => instDecidableAnd) self label

end OctopusMq
