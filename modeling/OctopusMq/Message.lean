import OctopusMq.Text
import OctopusMq.Network

set_option autoImplicit false

/- Messages, the options of the MQTT library they carry, and the packets the
broker sends. -/
namespace OctopusMq

/-- `mqtt_cpp::qos`, in the order of its values. -/
inductive Qos where
  | atMostOnce
  | atLeastOnce
  | exactlyOnce
deriving DecidableEq, Repr

def Qos.value : Qos → Nat
  | .atMostOnce => 0
  | .atLeastOnce => 1
  | .exactlyOnce => 2

/-- `std::min` on `mqtt_cpp::qos`. -/
def Qos.min (first second : Qos) : Qos :=
  if second.value < first.value then second else first

/-- `mqtt_cpp::retain`. -/
inductive Retain where
  | no
  | yes
deriving DecidableEq, Repr

/-- `mqtt_cpp::rap`: retain as published. -/
inductive Rap where
  | dont
  | retain
deriving DecidableEq, Repr

/-- `mqtt_cpp::nl`: no local. -/
inductive Nl where
  | no
  | yes
deriving DecidableEq, Repr

/-- `mqtt_cpp::subscribe_options`. -/
structure SubscribeOptions where
  qos : Qos
  rap : Rap
  nl : Nl
deriving DecidableEq, Repr

/-- What the broker uses of `mqtt_cpp::publish_options`: the getters, the
conversion to a byte and the constructor from a byte. -/
structure OptionsApi (Opts : Type) where
  getQos : Opts → Qos
  getRetain : Opts → Retain
  toByte : Opts → UInt8
  ofByte : UInt8 → Opts

/-- Building the options from their byte gives back the same options. -/
def OptionsApi.RoundTrip {Opts : Type} (api : OptionsApi Opts) : Prop :=
  ∀ opts, api.ofByte (api.toByte opts) = opts

/-- The options as the byte of the packet header itself. -/
def byteOptions : OptionsApi UInt8 where
  getQos byte :=
    if byte &&& 6 = 0 then .atMostOnce else if byte &&& 6 = 2 then .atLeastOnce else .exactlyOnce
  getRetain byte := if byte &&& 1 = 1 then .yes else .no
  toByte := id
  ofByte := id

theorem byteOptions_roundTrip : byteOptions.RoundTrip := fun _ => rfl

/-- Class `message`: the payload, the topic and what is known of the publish it
was made from. -/
structure Message (Property : Type) where
  payload : Text
  topic : Text
  pubopts : UInt8
  mqttVersion : Version
  props : List Property
deriving DecidableEq, Repr

/-- A connection object; two are the same only if the pointers are. -/
abbrev Connection := Nat

/-- `mqtt_cpp::suback_return_code`. -/
inductive SubackReturnCode where
  | successMaximumQos (qos : Qos)
  | failure
deriving DecidableEq, Repr

/-- The members of `mqtt_cpp::v5::suback_reason_code` the broker answers with. -/
inductive SubackReasonCode where
  | grantedQos (qos : Qos)
  | topicFilterInvalid
deriving DecidableEq, Repr

/-- The packets the broker sends. -/
inductive Packet (Property : Type) where
  | connack (version : Version)
  | pingresp
  | publish (topic contents : Text) (qos : Qos) (retain : Retain) (props : List Property)
  | suback (packetId : UInt16) (codes : List SubackReturnCode)
  | v5Suback (packetId : UInt16) (codes : List SubackReasonCode)
  | unsuback (packetId : UInt16)
deriving DecidableEq, Repr

/-- What a handler does outside its broker: a packet to a connection, or a
message to the global queue. -/
inductive Effect (Property : Type) where
  | send (con : Connection) (packet : Packet Property)
  | push (message : Message Property)
deriving DecidableEq, Repr

variable {Property : Type}

/-- The packet an effect puts on a connection. -/
def Effect.sent : Effect Property → Option (Connection × Packet Property)
  | .send con packet => some (con, packet)
  | .push _ => none

/-- The message an effect puts on the global queue. -/
def Effect.pushed : Effect Property → Option (Message Property)
  | .send _ _ => none
  | .push message => some message

end OctopusMq
