import OctopusMq.Session

set_option autoImplicit false

/- Class `message_queue`, the pool of adapters, and the loop of the control thread
over both. -/
namespace OctopusMq

open Imperative Transition

/-- A pointer to the settings of an adapter. It is what `message_queue` compares. -/
abbrev SettingsPtr := Nat

/-- An entry of `adapter_pool`. The interface is built from the settings of the
entry, so that their pointer also stands for the broker behind it. -/
structure Adapter where
  settings : SettingsPtr
  scope : Scope

/-- `adapter_message_pair`: the origin and the message. -/
abbrev AdapterMessagePair (Property : Type) := SettingsPtr × Message Property

/-- The brokers and the global queue. -/
structure System (Property : Type) where
  brokers : SettingsPtr → Broker
  queue : List (AdapterMessagePair Property)

/-- What happens in a system: a send, a push to the queue, a call of `inject_publish`. -/
inductive Act (Property : Type) where
  | send (via : SettingsPtr) (con : Connection) (packet : Packet Property)
  | push (item : AdapterMessagePair Property)
  | inject (into : SettingsPtr) (item : AdapterMessagePair Property)
deriving DecidableEq, Repr

namespace Act

variable {Property : Type}

/-- An effect of a handler of the adapter. A push is tagged with its settings. -/
def ofEffect (adapter : SettingsPtr) : Effect Property → Act Property
  | .send con packet => .send adapter con packet
  | .push message => .push (adapter, message)

def pushed : Act Property → Option (AdapterMessagePair Property)
  | .push item => some item
  | _ => none

def injectedInto (adapter : SettingsPtr) : Act Property → Option (AdapterMessagePair Property)
  | .inject into item => if into = adapter then some item else none
  | _ => none

end Act

namespace System

variable {Opts Property : Type}

abbrev Result (Property : Type) := Outcome (System Property) (Act Property) Fault

/-- `message_queue::push`. -/
def push (adapter : SettingsPtr) (queue : List (AdapterMessagePair Property))
    (message : Message Property) : List (AdapterMessagePair Property) :=
  queue ++ [(adapter, message)]

/-- A call into the broker of an adapter. -/
def call (adapter : SettingsPtr) (handler : Broker → Broker.Result Property)
    (self : System Property) : Result Property :=
  let result := handler (self.brokers adapter)
  { state :=
      { brokers := Function.update self.brokers adapter result.state
        queue := (Broker.pushes result.effects).foldl (push adapter) self.queue }
    effects := result.effects.map (Act.ofEffect adapter)
    fault := result.fault }

/-- The body of the loop over the pool. -/
def injectInto (lib : OptionsApi Opts) (connected : SettingsPtr → Connection → Bool)
    (item : AdapterMessagePair Property) (adapter : Adapter) (self : System Property) :
    Result Property :=
  if adapter.settings ≠ item.1 then
    match adapter.scope.includes item.2.topic with
    | .error fault => .throw self fault
    | .ok false => .done self
    | .ok true =>
        (Outcome.emit self (.inject adapter.settings item)).andThen
          (call adapter.settings (Broker.injectPublish lib (connected adapter.settings) item.2))
  else .done self

/-- `_queue.pop()`. -/
def pop (self : System Property) : Result Property :=
  .done { self with queue := self.queue.tail }

/-- The loop of `wait_and_pop_all` while the queue is not empty, up to a number
of rounds. The sockets may be others in each round. -/
def popAll (lib : OptionsApi Opts) (pool : List Adapter) :
    Nat → (Nat → SettingsPtr → Connection → Bool) → System Property → Result Property
  | 0, _, self =>
      match self.queue with
      | [] => .done self
      | _ :: _ => .throw self .unfinished
  | rounds + 1, connected, self =>
      match self.queue with
      | [] => .done self
      | item :: _ =>
          ((Outcome.forEach (injectInto lib (connected 0) item) pool self).andThen pop).andThen
            (popAll lib pool rounds fun round => connected (round + 1))

/-- `wait_and_pop_all`: the number it returns unless it throws, and what it does.
An empty queue is a timeout. -/
def waitAndPopAll (lib : OptionsApi Opts) (pool : List Adapter)
    (connected : Nat → SettingsPtr → Connection → Bool) (self : System Property) :
    Nat × Result Property :=
  match self.queue with
  | [] => (0, .done self)
  | _ :: _ => (self.queue.length, popAll lib pool self.queue.length connected self)

end System

/-- A handler of a broker called for one of its clients, or a round of the control thread. -/
inductive Turn (Opts Property : Type) where
  | client (adapter : SettingsPtr) (event : Event Opts Property)
  | drain (connected : Nat → SettingsPtr → Connection → Bool)

/-- A system, what has happened in it so far, and whether the control thread is
still in its loop. -/
structure History (Property : Type) where
  system : System Property
  acts : List (Act Property)
  running : Bool

namespace History

variable {Opts Property : Type}

/-- The queue is empty and the control thread enters its loop. -/
def start (brokers : SettingsPtr → Broker) : History Property := ⟨⟨brokers, []⟩, [], true⟩

/-- All messages pushed so far. -/
def pushed (self : History Property) : List (AdapterMessagePair Property) :=
  self.acts.filterMap Act.pushed

/-- All messages injected into the adapter so far. -/
def injected (self : History Property) (adapter : SettingsPtr) :
    List (AdapterMessagePair Property) :=
  self.acts.filterMap (Act.injectedInto adapter)

/-- What a turn does to the system. -/
def perform (lib : OptionsApi Opts) (pool : List Adapter) (self : System Property) :
    Turn Opts Property → System.Result Property
  | .client adapter event => self.call adapter (Broker.handle lib event)
  | .drain connected => (self.waitAndPopAll lib pool connected).2

/-- `message_queue_manager` leaves its loop at an exception. -/
def staysRunning (running : Bool) (outcome : System.Result Property) :
    Turn Opts Property → Bool
  | .client _ _ => running
  | .drain _ => running && outcome.fault.isNone

/-- The clients of the adapters of a pool and the control thread take turns. -/
def machine (lib : OptionsApi Opts) (pool : List Adapter) :
    Machine (History Property) (Turn Opts Property) where
  step self turn :=
    let outcome := perform lib pool self.system turn
    ⟨outcome.state, self.acts ++ outcome.effects, staysRunning self.running outcome turn⟩
  enabled self
    | .client adapter event => adapter ∈ pool.map Adapter.settings ∧ event.isClient
    | .drain _ => self.running

instance (lib : OptionsApi Opts) (pool : List Adapter) (self : History Property)
    (turn : Turn Opts Property) : Decidable ((machine lib pool).enabled self turn) := by
  cases turn <;> unfold machine <;> infer_instance

end History

end OctopusMq
