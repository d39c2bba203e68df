import OctopusMq.Broker
import OctopusMq.Library.Machine

set_option autoImplicit false

/- The broker under the events the MQTT library and the control thread deliver. -/
namespace OctopusMq

open Transition

/-- The acknowledgements of the publish exchanges. -/
inductive AckPacket where
  | puback
  | pubrec
  | pubrel
  | pubcomp
deriving DecidableEq, Repr

/-- One call of a handler, or one `inject_publish`. `connected` tells which
sockets still have a remote endpoint while the call runs. -/
inductive Event (Opts Property : Type) where
  | accept (con : Connection) (remote : Option Address)
  | close (con : Connection)
  | error (con : Connection)
  | pingreq (con : Connection)
  | connect (version : Version) (con : Connection) (clientId : Text)
  | disconnect (version : Version) (con : Connection)
  | ack (version : Version) (packet : AckPacket) (con : Connection)
  | publish (con : Connection) (connected : Connection → Bool) (pubopts : Opts)
      (topicName contents : Text)
  | v5Publish (con : Connection) (connected : Connection → Bool) (pubopts : Opts)
      (topicName contents : Text) (props : List Property)
  | subscribe (version : Version) (con : Connection) (packetId : UInt16)
      (entries : List (Text × SubscribeOptions))
  | unsubscribe (version : Version) (con : Connection) (packetId : UInt16) (topics : List Text)
  | injectPublish (connected : Connection → Bool) (message : Message Property)

variable {Opts Property : Type}

/-- The event comes from a client and not from the control thread. -/
def Event.isClient : Event Opts Property → Bool
  | .injectPublish _ _ => false
  | _ => true

namespace Broker

/-- The handler of an event. -/
def handle (lib : OptionsApi Opts) : Event Opts Property → Broker → Result Property
  | .accept con remote => acceptHandler con remote
  | .close con => closeHandler con
  | .error con => errorHandler con
  | .pingreq con => pingreqHandler con
  | .connect .v3 con clientId => connectHandler con clientId
  | .connect .v5 con clientId => v5ConnectHandler con clientId
  | .disconnect .v3 con => disconnectHandler con
  | .disconnect .v5 con => v5DisconnectHandler con
  | .ack .v3 .puback con => pubackHandler con
  | .ack .v3 .pubrec con => pubrecHandler con
  | .ack .v3 .pubrel con => pubrelHandler con
  | .ack .v3 .pubcomp con => pubcompHandler con
  | .ack .v5 .puback con => v5PubackHandler con
  | .ack .v5 .pubrec con => v5PubrecHandler con
  | .ack .v5 .pubrel con => v5PubrelHandler con
  | .ack .v5 .pubcomp con => v5PubcompHandler con
  | .publish con connected pubopts topicName contents =>
      publishHandler lib connected con pubopts topicName contents
  | .v5Publish con connected pubopts topicName contents props =>
      v5PublishHandler lib connected con pubopts topicName contents props
  | .subscribe .v3 con packetId entries => subscribeHandler con packetId entries
  | .subscribe .v5 con packetId entries => v5SubscribeHandler con packetId entries
  | .unsubscribe .v3 con packetId topics => unsubscribeHandler con packetId topics
  | .unsubscribe .v5 con packetId topics => v5UnsubscribeHandler con packetId topics
  | .injectPublish connected message => injectPublish lib connected message

end Broker

/-- How far the library has brought a connection. -/
inductive Phase where
  | unseen
  | accepted
  | connected (version : Version)
  | disconnected
  | ended
deriving DecidableEq, Repr

def Phase.isConnected : Phase → Bool
  | .connected _ => true
  | _ => false

/-- Between the accept handler and the return of the close or error handler. -/
def Phase.isOpen : Phase → Bool
  | .unseen => false
  | .ended => false
  | _ => true

/-- A broker together with the phase of every connection. -/
structure Session where
  broker : Broker
  phase : Connection → Phase

namespace Session

/-- Before the first connection. -/
def fresh : Session := ⟨Broker.fresh, fun _ => .unseen⟩

/-- When the library calls a handler: those of packets after the connect handler
and before the disconnect, close or error handler, the latter two at any time
after the accept handler. -/
def enabled (self : Session) : Event Opts Property → Prop
  | .accept con _ => self.phase con = .unseen
  | .close con => self.phase con ≠ .unseen
  | .error con => self.phase con ≠ .unseen
  | .connect _ con _ => self.phase con = .accepted ∨ (self.phase con).isConnected
  | .pingreq con => (self.phase con).isConnected
  | .disconnect _ con => (self.phase con).isConnected
  | .ack _ _ con => (self.phase con).isConnected
  | .publish con _ _ _ _ => (self.phase con).isConnected
  | .v5Publish con _ _ _ _ _ => (self.phase con).isConnected
  | .subscribe _ con _ _ => (self.phase con).isConnected
  | .unsubscribe _ con _ _ => (self.phase con).isConnected
  | .injectPublish _ _ => True

instance (self : Session) (event : Event Opts Property) : Decidable (self.enabled event) := by
  cases event <;> unfold enabled <;> infer_instance

/-- The phases after an event. A connection whose accept handler throws is
never registered. -/
def phaseAfter (phase : Connection → Phase) : Event Opts Property → Connection → Phase
  | .accept con none => Function.update phase con .ended
  | .accept con (some _) => Function.update phase con .accepted
  | .close con => Function.update phase con .ended
  | .error con => Function.update phase con .ended
  | .connect version con _ => Function.update phase con (.connected version)
  | .disconnect _ con => Function.update phase con .disconnected
  | _ => phase

/-- The broker and its connections as a machine. A handler that throws leaves
the changes it made; runs go on from there. -/
def machine (lib : OptionsApi Opts) : Machine Session (Event Opts Property) where
  step self event := ⟨(Broker.handle lib event self.broker).state, phaseAfter self.phase event⟩
  enabled := enabled

instance (lib : OptionsApi Opts) (self : Session) (event : Event Opts Property) :
    Decidable ((machine lib).enabled self event) :=
  inferInstanceAs (Decidable (self.enabled event))

/-- A connection that subscribed once, with QoS 0. -/
def subscribedOnce : List (Event UInt8 Text) :=
  [.accept 1 (some {}), .connect .v3 1 (bytes "one"),
    .subscribe .v3 1 1 [(bytes "a", ⟨.atMostOnce, .dont, .no⟩)]]

/-- Two connections that subscribed to the same filter. -/
def sharedFilter : List (Event UInt8 Text) :=
  subscribedOnce ++ [.accept 2 (some {}), .connect .v3 2 (bytes "two"),
    .subscribe .v3 2 1 [(bytes "a", ⟨.atLeastOnce, .dont, .no⟩)]]

end Session

end OctopusMq
