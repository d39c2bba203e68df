import OctopusMq.Routing
import OctopusMq.SentThrough

set_option autoImplicit false

/- The brokers of a pool with all their clients: which connection published each
queued message, and through which subscription each PUBLISH is sent. -/
namespace OctopusMq

open Imperative Transition

variable {Opts Property : Type}

/-- The connection an event comes from. -/
def Event.connection : Event Opts Property → Option Connection
  | .accept con _ => some con
  | .close con => some con
  | .error con => some con
  | .pingreq con => some con
  | .connect _ con _ => some con
  | .disconnect _ con => some con
  | .ack _ _ con => some con
  | .publish con _ _ _ _ => some con
  | .v5Publish con _ _ _ _ _ => some con
  | .subscribe _ con _ _ => some con
  | .unsubscribe _ con _ _ => some con
  | .injectPublish _ _ => none

/-- The version of a connection is fixed by its CONNECT, and only the handlers of
that version are called for it. -/
def KeepsVersion (phase : Connection → Phase) : Event Opts Property → Prop
  | .connect version con _ => phase con = .accepted ∨ phase con = .connected version
  | .disconnect version con => phase con = .connected version
  | .ack version _ con => phase con = .connected version
  | .publish con _ _ _ _ => phase con = .connected .v3
  | .v5Publish con _ _ _ _ _ => phase con = .connected .v5
  | .subscribe version con _ _ => phase con = .connected version
  | .unsubscribe version con _ _ => phase con = .connected version
  | _ => True

/-- The connection of the event is one of the broker. -/
def AtHome (home : Connection → SettingsPtr) (adapter : SettingsPtr) (event : Event Opts Property) :
    Prop :=
  ∀ con ∈ event.connection, home con = adapter

instance decidableKeepsVersion (phase : Connection → Phase) :
    (event : Event Opts Property) → Decidable (KeepsVersion phase event)
  | .accept _ _ => isTrue trivial
  | .close _ => isTrue trivial
  | .error _ => isTrue trivial
  | .pingreq _ => isTrue trivial
  | .connect _ _ _ => instDecidableOr
  | .disconnect version con => inferInstanceAs (Decidable (phase con = .connected version))
  | .ack version _ con => inferInstanceAs (Decidable (phase con = .connected version))
  | .publish con _ _ _ _ => inferInstanceAs (Decidable (phase con = .connected .v3))
  | .v5Publish con _ _ _ _ _ => inferInstanceAs (Decidable (phase con = .connected .v5))
  | .subscribe version con _ _ => inferInstanceAs (Decidable (phase con = .connected version))
  | .unsubscribe version con _ _ => inferInstanceAs (Decidable (phase con = .connected version))
  | .injectPublish _ _ => isTrue trivial

instance decidableAtHome (home : Connection → SettingsPtr) (adapter : SettingsPtr)
    (event : Event Opts Property) : Decidable (AtHome home adapter event) :=
  inferInstanceAs (Decidable (∀ con ∈ event.connection, home con = adapter))

def Packet.isPublish : Packet Property → Bool
  | .publish _ _ _ _ _ => true
  | _ => false

/-- A PUBLISH on its way to a connection. -/
def Act.published : Act Property → Option (SettingsPtr × Connection × Packet Property)
  | .send via con packet => if packet.isPublish then some (via, con, packet) else none
  | _ => none

/-- A PUBLISH sent by the broker of an adapter, with the subscription it is sent
through and the connection that published the message. -/
structure Delivered (Property : Type) where
  via : SettingsPtr
  sub : Subscription
  packet : Packet Property
  publisher : Connection

namespace Delivered

def ofSent (via : SettingsPtr) (publisher : Connection) (sent : Subscription × Packet Property) :
    Delivered Property :=
  ⟨via, sent.1, sent.2, publisher⟩

/-- What is seen of it from outside. -/
def receipt (self : Delivered Property) : SettingsPtr × Connection × Packet Property :=
  (self.via, self.sub.con, self.packet)

end Delivered

/-- What the handler of an event of a client delivers. -/
def Broker.delivered (lib : OptionsApi Opts) (adapter : SettingsPtr) (self : Broker) :
    Event Opts Property → List (Delivered Property)
  | .publish con connected pubopts topicName contents =>
      (publishSent lib connected con pubopts topicName contents self).map (.ofSent adapter con)
  | .v5Publish con connected pubopts topicName contents props =>
      (v5PublishSent lib connected con pubopts topicName contents props self).map
        (.ofSent adapter con)
  | _ => []

namespace System

/-- What `inject_publish` of an adapter delivers of an item, if it is called. -/
def injectDelivered (lib : OptionsApi Opts) (connected : SettingsPtr → Connection → Bool)
    (item : AdapterMessagePair Property) (publisher : Connection) (adapter : Adapter)
    (self : System Property) : List (Delivered Property) :=
  if adapter.eligible item then
    (Broker.injectPublishSent lib (connected adapter.settings) item.2
      (self.brokers adapter.settings)).map (.ofSent adapter.settings publisher)
  else []

/-- What a drain delivers, given who published the queued messages. -/
def popAllDelivered (lib : OptionsApi Opts) (pool : List Adapter) :
    Nat → (Nat → SettingsPtr → Connection → Bool) → List Connection → System Property →
      List (Delivered Property)
  | 0, _, _, _ => []
  | rounds + 1, connected, publishers, self =>
      match self.queue, publishers with
      | item :: _, publisher :: later =>
          let round := (Outcome.forEach (injectInto lib (connected 0) item) pool self).andThen pop
          Outcome.trace (injectDelivered lib (connected 0) item publisher)
              (injectInto lib (connected 0) item) pool self ++
            match round.fault with
            | none =>
                popAllDelivered lib pool rounds (fun round => connected (round + 1)) later
                  round.state
            | some _ => []
      | _, _ => []

end System

/-- A history, the phases of the connections of each broker, and the publishers of
the queued messages. -/
structure Conversation (Property : Type) where
  history : History Property
  phase : SettingsPtr → Connection → Phase
  publishers : List Connection

namespace Conversation

/-- Before the first connection to any broker. -/
def start : Conversation Property :=
  ⟨History.start fun _ => Broker.fresh, fun _ _ => .unseen, []⟩

/-- A broker with the phases of its connections. -/
def session (self : Conversation Property) (adapter : SettingsPtr) : Session :=
  ⟨self.history.system.brokers adapter, self.phase adapter⟩

def phaseAfter (phase : SettingsPtr → Connection → Phase) :
    Turn Opts Property → SettingsPtr → Connection → Phase
  | .client adapter event =>
      Function.update phase adapter (Session.phaseAfter (phase adapter) event)
  | .drain _ => phase

/-- A handler enters its connection for each message it pushes; a drain drops the
publishers of the messages it takes. -/
def publishersAfter (lib : OptionsApi Opts) (self : Conversation Property)
    (next : History Property) : Turn Opts Property → List Connection
  | .client adapter event =>
      self.publishers ++
        (Broker.pushes (Broker.handle lib event
          (self.history.system.brokers adapter)).effects).filterMap fun _ => event.connection
  | .drain _ =>
      self.publishers.drop (self.history.system.queue.length - next.system.queue.length)

/-- Every connection is one of the broker `home` says, and keeps its version. -/
def machine (lib : OptionsApi Opts) (pool : List Adapter) (home : Connection → SettingsPtr) :
    Machine (Conversation Property) (Turn Opts Property) where
  step self turn :=
    let next := (History.machine lib pool).step self.history turn
    ⟨next, phaseAfter self.phase turn, publishersAfter lib self next turn⟩
  enabled self turn :=
    (History.machine lib pool).enabled self.history turn ∧
      match turn with
      | .client adapter event =>
          (self.session adapter).enabled event ∧ KeepsVersion (self.phase adapter) event ∧
            AtHome home adapter event
      | .drain _ => True

instance decidableEnabled (lib : OptionsApi Opts) (pool : List Adapter)
    (home : Connection → SettingsPtr) (self : Conversation Property) :
    (turn : Turn Opts Property) → Decidable ((machine lib pool home).enabled self turn)
  | .client _ _ => instDecidableAnd
  | .drain _ => instDecidableAnd

/-- The PUBLISHes a turn delivers. -/
def delivered (lib : OptionsApi Opts) (pool : List Adapter) (self : Conversation Property) :
    Turn Opts Property → List (Delivered Property)
  | .client adapter event =>
      Broker.delivered lib adapter (self.history.system.brokers adapter) event
  | .drain connected =>
      System.popAllDelivered lib pool self.history.system.queue.length connected self.publishers
        self.history.system

/-- All PUBLISHes of the turn are accounted for, and none goes through a No Local
subscription to the connection that published the message. -/
structure RespectsNoLocal (lib : OptionsApi Opts) (pool : List Adapter)
    (state : Conversation Property) (turn : Turn Opts Property) : Prop where
  complete : (History.perform lib pool state.history.system turn).effects.filterMap Act.published =
    (delivered lib pool state turn).map Delivered.receipt
  noLocal : ∀ sent ∈ delivered lib pool state turn,
    ¬ (sent.sub.nlValue = .yes ∧ sent.sub.con = sent.publisher)

end Conversation

end OctopusMq
