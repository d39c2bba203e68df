import OctopusMq.Scope
import OctopusMq.Subscription
import OctopusMq.Library.Outcome
import Mathlib.Data.Finset.Basic
import Mathlib.Logic.Function.Basic

set_option autoImplicit false

/- Class `broker`. Logging is left out, except that the accesses `_meta[con]` it
makes are kept: `operator[]` inserts. -/
namespace OctopusMq

open Imperative OrderedTable

/-- `struct metadata`, as value initialization leaves it. -/
structure Metadata where
  address : Address := {}
  clientId : Text := []
  protocolVersion : Version := .v3
deriving DecidableEq, Repr

structure Broker where
  connections : Finset Connection
  metadata : Connection → Option Metadata
  subs : SubscriptionContainer

namespace Broker

variable {Opts Property : Type}

abbrev Result (Property : Type) := Outcome Broker (Effect Property) Fault

/-- The sends of a handler, in order. -/
def sends (effects : List (Effect Property)) : List (Connection × Packet Property) :=
  effects.filterMap Effect.sent

/-- The messages a handler pushes to the global queue, in order. -/
def pushes (effects : List (Effect Property)) : List (Message Property) :=
  effects.filterMap Effect.pushed

@[simp] theorem sends_append (first second : List (Effect Property)) :
    sends (first ++ second) = sends first ++ sends second :=
  List.filterMap_append

@[simp] theorem pushes_append (first second : List (Effect Property)) :
    pushes (first ++ second) = pushes first ++ pushes second :=
  List.filterMap_append

/-- A broker before its first connection. -/
def fresh : Broker := ⟨∅, fun _ => none, Table.empty⟩

/-- Write through `_meta[con]`, which adds a default entry when the key is absent. -/
def updateMetadata (self : Broker) (con : Connection) (write : Metadata → Metadata) : Broker :=
  { self with
    metadata := Function.update self.metadata con
      (some (write ((self.metadata con).getD {}))) }

/-- Read `_meta[con]`. -/
def touch (self : Broker) (con : Connection) : Broker := self.updateMetadata con id

@[simp] theorem touch_subs (self : Broker) (con : Connection) : (self.touch con).subs = self.subs :=
  rfl

/-- The part of `close_connection` before the lock. -/
def closeUnlocked (self : Broker) (con : Connection) : Broker :=
  { self with
    connections := self.connections.erase con
    metadata := Function.update self.metadata con none }

/-- The part of `close_connection` under `_subs_mutex`. -/
def closeLocked (self : Broker) (con : Connection) : Broker :=
  { self with
    connections := self.connections.erase con
    subs := self.subs.eraseWhere (fun sub => sub.con = con) }

def closeConnection (self : Broker) (con : Connection) : Broker :=
  (self.closeUnlocked con).closeLocked con

/-- The message `share` builds; the payload and the topic are copied. -/
def sharedMessage (lib : OptionsApi Opts) (topicName contents : Text) (pubopts : Opts)
    (version : Version) (props : List Property) : Message Property :=
  ⟨contents, topicName, lib.toByte pubopts, version, props⟩

/-- `share`. The queue entry is tagged with the settings of this adapter by the queue. -/
def share (lib : OptionsApi Opts) (topicName contents : Text) (pubopts : Opts)
    (version : Version) (props : List Property) (self : Broker) : Result Property :=
  .emit self (.push (sharedMessage lib topicName contents pubopts version props))

/-- The accept handler. `remote` is the address of the peer, absent when
`remote_endpoint()` throws. -/
def acceptHandler (con : Connection) (remote : Option Address) (self : Broker) :
    Result Property :=
  match remote with
  | none => .throw self .notConnected
  | some address => .done (self.updateMetadata con fun old => { old with address := address })

def closeHandler (con : Connection) (self : Broker) : Result Property :=
  .done (self.closeConnection con)

/-- The connection may already be closed by the close handler. -/
def errorHandler (con : Connection) (self : Broker) : Result Property :=
  if con ∈ self.connections then .done ((self.touch con).closeConnection con) else .done self

def pingreqHandler (con : Connection) (self : Broker) : Result Property :=
  .emit (self.touch con) (.send con .pingresp)

/-- The connect handlers, up to the version they record. -/
def connectWith (version : Version) (con : Connection) (clientId : Text) (self : Broker) :
    Result Property :=
  let registered := { self with connections := insert con self.connections }
  .emit
    (registered.updateMetadata con fun old =>
      { old with clientId := clientId, protocolVersion := version })
    (.send con (.connack version))

def connectHandler : Connection → Text → Broker → Result Property := connectWith .v3
def v5ConnectHandler : Connection → Text → Broker → Result Property := connectWith .v5

/-- Both disconnect handlers. -/
def disconnect (con : Connection) (self : Broker) : Result Property :=
  .done ((self.touch con).closeConnection con)

def disconnectHandler : Connection → Broker → Result Property := disconnect
def v5DisconnectHandler : Connection → Broker → Result Property := disconnect

/-- A handler that only logs. -/
def logOnly (con : Connection) (self : Broker) : Result Property := .done (self.touch con)

def pubackHandler : Connection → Broker → Result Property := logOnly
def pubrecHandler : Connection → Broker → Result Property := logOnly
def pubrelHandler : Connection → Broker → Result Property := logOnly
def pubcompHandler : Connection → Broker → Result Property := logOnly
def v5PubackHandler : Connection → Broker → Result Property := logOnly
def v5PubrecHandler : Connection → Broker → Result Property := logOnly
def v5PubrelHandler : Connection → Broker → Result Property := logOnly
def v5PubcompHandler : Connection → Broker → Result Property := logOnly

/-- One iteration of the delivery loops over the topic index. `packet` is absent
where the loop goes on without a send. Behind the send the address of the
subscriber is read for the log, by a `remote_endpoint()` that throws when the
socket is not connected, and then its client id. -/
def deliver (connected : Connection → Bool) (topicName : Text)
    (packet : Subscription → Option (Packet Property)) (sub : Subscription) (self : Broker) :
    Result Property :=
  match Scope.matchesFilter sub.topicFilter topicName with
  | .error fault => .throw self fault
  | .ok false => .done self
  | .ok true =>
      match packet sub with
      | none => .done self
      | some packet =>
          -- The send comes before `remote_endpoint()`, so it is made also when that throws.
          if connected sub.con then .emit (self.touch sub.con) (.send sub.con packet)
          else ⟨self, [.send sub.con packet], some .notConnected⟩

/-- The retain flag of a delivery that honours retain-as-published. -/
def retainAsPublished (lib : OptionsApi Opts) (pubopts : Opts) (sub : Subscription) : Retain :=
  if sub.rapValue = .retain then lib.getRetain pubopts else .no

/-- The send of the v3 handler: no retain flag, no properties. -/
def v3Delivery (lib : OptionsApi Opts) (pubopts : Opts) (topicName contents : Text)
    (sub : Subscription) : Option (Packet Property) :=
  some (.publish topicName contents (sub.qosValue.min (lib.getQos pubopts)) .no [])

/-- The send of the v5 handler, which skips the publisher's own subscriptions
with No Local. -/
def v5Delivery (lib : OptionsApi Opts) (con : Connection) (pubopts : Opts)
    (topicName contents : Text) (props : List Property) (sub : Subscription) :
    Option (Packet Property) :=
  if sub.nlValue = .yes ∧ sub.con = con then none
  else some (.publish topicName contents (sub.qosValue.min (lib.getQos pubopts))
    (retainAsPublished lib pubopts sub) props)

/-- The send of `inject_publish`. The options are rebuilt from their byte. -/
def injectedDelivery (lib : OptionsApi Opts) (message : Message Property) (sub : Subscription) :
    Option (Packet Property) :=
  let pubopts := lib.ofByte message.pubopts
  let qos := sub.qosValue.min (lib.getQos pubopts)
  match message.mqttVersion with
  | .v3 => some (.publish message.topic message.payload qos .no [])
  | .v5 => some (.publish message.topic message.payload qos (retainAsPublished lib pubopts sub)
      message.props)

def publishHandler (lib : OptionsApi Opts) (connected : Connection → Bool) (con : Connection)
    (pubopts : Opts) (topicName contents : Text) (self : Broker) : Result Property :=
  (Outcome.forEach (deliver connected topicName (v3Delivery lib pubopts topicName contents))
    self.subs.entries (self.touch con)).andThen
      (share lib topicName contents pubopts .v3 [])

def v5PublishHandler (lib : OptionsApi Opts) (connected : Connection → Bool) (con : Connection)
    (pubopts : Opts) (topicName contents : Text) (props : List Property) (self : Broker) :
    Result Property :=
  (Outcome.forEach
    (deliver connected topicName (v5Delivery lib con pubopts topicName contents props))
    self.subs.entries (self.touch con)).andThen
      (share lib topicName contents pubopts .v5 props)

def injectPublish (lib : OptionsApi Opts) (connected : Connection → Bool)
    (message : Message Property) (self : Broker) : Result Property :=
  Outcome.forEach (deliver connected message.topic (injectedDelivery lib message))
    self.subs.entries self

/-- The loop of the subscribe handlers: one answer code for each entry, and one
`emplace` for each valid filter. -/
def subscribeEntry {Code : Type} (subscription : Text → SubscribeOptions → Subscription)
    (granted : Qos → Code) (refused : Code) (entry : Text × SubscribeOptions)
    (state : Broker × List Code) : Outcome (Broker × List Code) (Effect Property) Fault :=
  match Scope.validTopicFilter entry.1 with
  | .error fault => .throw state fault
  | .ok true =>
      .done ({ state.1 with subs := state.1.subs.emplace (subscription entry.1 entry.2) },
        state.2 ++ [granted entry.2.qos])
  | .ok false => .done (state.1, state.2 ++ [refused])

/-- The subscribe handlers, up to the codes and the constructor they use. -/
def subscribeWith {Code : Type} (subscription : Text → SubscribeOptions → Subscription)
    (granted : Qos → Code) (refused : Code) (suback : List Code → Packet Property)
    (con : Connection) (entries : List (Text × SubscribeOptions)) (self : Broker) :
    Result Property :=
  let loop : Outcome (Broker × List Code) (Effect Property) Fault :=
    Outcome.forEach (subscribeEntry subscription granted refused) entries (self.touch con, [])
  match loop.fault with
  | some fault => .throw loop.state.1 fault
  | none => .emit loop.state.1 (.send con (suback loop.state.2))

def subscribeHandler (con : Connection) (packetId : UInt16)
    (entries : List (Text × SubscribeOptions)) (self : Broker) : Result Property :=
  subscribeWith (fun filter options => Subscription.v3 filter con options)
    SubackReturnCode.successMaximumQos .failure (.suback packetId) con entries self

def v5SubscribeHandler (con : Connection) (packetId : UInt16)
    (entries : List (Text × SubscribeOptions)) (self : Broker) : Result Property :=
  subscribeWith (fun filter options => Subscription.v5 filter con options)
    SubackReasonCode.grantedQos .topicFilterInvalid (.v5Suback packetId) con entries self

/-- `_subs.erase(topic)`: the container's own `erase` is that of the topic index. -/
def eraseTopic (subs : SubscriptionContainer) (topic : Text) : SubscriptionContainer :=
  subs.eraseWhere (fun sub => sub.topicFilter = topic)

/-- Both unsubscribe handlers. -/
def unsubscribe (con : Connection) (packetId : UInt16) (topics : List Text) (self : Broker) :
    Result Property :=
  let touched := self.touch con
  .emit { touched with subs := topics.foldl eraseTopic touched.subs }
    (.send con (.unsuback packetId))

def unsubscribeHandler : Connection → UInt16 → List Text → Broker → Result Property := unsubscribe
def v5UnsubscribeHandler : Connection → UInt16 → List Text → Broker → Result Property :=
  unsubscribe

end Broker

end OctopusMq
