import OctopusMq.Json
import OctopusMq.Phy
import OctopusMq.Scope

set_option autoImplicit false

/- The settings of an adapter, read from its entry of the configuration. -/
namespace OctopusMq

open Fallible

inductive ProtocolType where
  | mqtt
  | dds
deriving DecidableEq, Repr

inductive TransportType where
  | udp
  | tcp
  | tls
  | websocket
  | tlsWebsocket
deriving DecidableEq, Repr

/-- `mqtt::adapter_role`. -/
inductive AdapterRole where
  | broker
  | client
deriving DecidableEq, Repr

/-- `OCTOMQ_ENABLE_TLS` and `OCTOMQ_ENABLE_DDS`. -/
structure Build where
  enableTls : Bool
  enableDds : Bool

namespace FieldName

def interface : Text := bytes "interface"
def protocol : Text := bytes "protocol"
def port : Text := bytes "port"
def transport : Text := bytes "transport"
def scope : Text := bytes "scope"
def role : Text := bytes "role"
def name : Text := bytes "name"

end FieldName

namespace TransportName

def udp : Text := bytes "udp"
def tcp : Text := bytes "tcp"
def tls : Text := bytes "tls"
def websocket : Text := bytes "websocket"
def tlsWebsocket : Text := bytes "tls/websocket"

end TransportName

/-- Class `adapter_settings`. -/
structure AdapterSettings where
  phy : Phy
  port : PortInt
  protocol : ProtocolType
  protocolName : Text
  scope : Scope
  name : Text
  generatedName : Bool

namespace AdapterSettings

variable {Json : Type} (api : JsonApi Json) (interfaces : Option (List Ifaddrs))

def readPort (json : Json) : Except SetupError PortInt := do
  let portField ← api.field json FieldName.port
  if api.isNumberUnsigned portField then JsonApi.got (api.getPortInt portField)
  else .error (.fieldTypeError FieldName.port)

def scopeResult : Except Fault Scope → Except SetupError Scope
  | .ok scope => .ok scope
  | .error fault => .error (.scope fault)

/-- A string is one filter, an array is a list of them. -/
def readScope (json : Json) : Except SetupError Scope := do
  let scopeField ← api.field json FieldName.scope
  if api.isString scopeField then
    scopeResult (Scope.ofString (← JsonApi.got (api.getString scopeField)))
  else if api.isArray scopeField then
    scopeResult (Scope.ofVector (← JsonApi.got (api.getStrings scopeField)))
  else .error (.fieldTypeError FieldName.scope)

/-- The name, and whether it is a generated one. -/
def readName (json : Json) (phy : Phy) (port : PortInt) (protocolName : Text) :
    Except SetupError (Text × Bool) :=
  match api.find json FieldName.name with
  | some nameField => do return (← api.asString nameField FieldName.name, false)
  | none =>
      .ok (bytes "[" ++ phy.name ++ bytes ":" ++ decimal port.toNat ++ bytes "] " ++ protocolName,
        true)

/-- The constructor. That the protocol is there and a string is checked before. -/
def ofJson (protocol : ProtocolType) (json : Json) : Except SetupError AdapterSettings := do
  let protocolName ← JsonApi.got (api.stringAt json FieldName.protocol)
  let phy ← Phy.ofName interfaces (← api.stringField json FieldName.interface)
  let port ← readPort api json
  let scope ← readScope api json
  let name ← readName api json phy port protocolName
  return ⟨phy, port, protocol, protocolName, scope, name.1, name.2⟩

/-- Only generated names grow. -/
def nameAppend (self : AdapterSettings) (appendix : Text) : AdapterSettings :=
  if self.generatedName then { self with name := self.name ++ bytes " " ++ appendix } else self

def compareBinding (self : AdapterSettings) (ip : IpInt) (port : PortInt) : Bool :=
  let phyIp := self.phy.ip
  (ip == phyIp || ip == loopbackIp || phyIp == loopbackIp) && port == self.port

def bingingName (self : AdapterSettings) : Text := (Address.mk self.phy.ip self.port).toString

/-- The interface and the port of the settings are those of the entry. -/
structure Describes (json : Json) (settings : AdapterSettings) : Prop where
  phy : ∃ name, api.stringAt json FieldName.interface = some name ∧
    Phy.ofName interfaces name = .ok settings.phy
  port : readPort api json = .ok settings.port

@[simp] theorem nameAppend_phy (self : AdapterSettings) (appendix : Text) :
    (self.nameAppend appendix).phy = self.phy := by
  unfold nameAppend
  split <;> rfl

@[simp] theorem nameAppend_port (self : AdapterSettings) (appendix : Text) :
    (self.nameAppend appendix).port = self.port := by
  unfold nameAppend
  split <;> rfl

theorem portAt_of_readPort {json : Json} {port : PortInt} (read : readPort api json = .ok port) :
    api.portAt json FieldName.port = some port := by
  obtain ⟨portField, found, got⟩ := (bind_eq_ok_iff _ _ _).mp read
  rw [JsonApi.portAt, (api.field_eq_ok_iff _ _ _).mp found]
  split at got
  · exact (JsonApi.got_eq_ok_iff _ port).mp got
  · cases got

theorem ofJson_describes {protocol : ProtocolType} {json : Json} {settings : AdapterSettings}
    (made : ofJson api interfaces protocol json = .ok settings) :
    Describes api interfaces json settings := by
  unfold ofJson at made
  obtain ⟨protocolName, _, made⟩ := (bind_eq_ok_iff _ _ _).mp made
  obtain ⟨interface, named, made⟩ := (bind_eq_ok_iff _ _ _).mp made
  obtain ⟨phy, addressed, made⟩ := (bind_eq_ok_iff _ _ _).mp made
  obtain ⟨port, numbered, made⟩ := (bind_eq_ok_iff _ _ _).mp made
  obtain ⟨scope, _, made⟩ := (bind_eq_ok_iff _ _ _).mp made
  obtain ⟨name, _, made⟩ := (bind_eq_ok_iff _ _ _).mp made
  cases made
  exact ⟨⟨interface, api.stringAt_of_stringField named, addressed⟩, numbered⟩

theorem Describes.nameAppend {json : Json} {settings : AdapterSettings}
    (described : Describes api interfaces json settings) (appendix : Text) :
    Describes api interfaces json (settings.nameAppend appendix) := by
  refine ⟨?_, ?_⟩
  · rw [nameAppend_phy]
    exact described.phy
  · rw [nameAppend_port]
    exact described.port

theorem compareBinding_iff (self : AdapterSettings) (ip : IpInt) (port : PortInt) :
    self.compareBinding ip port = true ↔
      (ip = self.phy.ip ∨ ip = loopbackIp ∨ self.phy.ip = loopbackIp) ∧ port = self.port := by
  simp only [compareBinding, Bool.and_eq_true, Bool.or_eq_true, beq_iff_eq, or_assoc]

/-- Two settings collide in either order. -/
theorem compareBinding_comm (first second : AdapterSettings) :
    first.compareBinding second.phy.ip second.port =
      second.compareBinding first.phy.ip first.port := by
  rw [Bool.eq_iff_iff, compareBinding_iff, compareBinding_iff,
    @eq_comm _ second.phy.ip first.phy.ip,
    @eq_comm _ second.port, @or_comm (second.phy.ip = loopbackIp)]

end AdapterSettings

/-- Class `mqtt::adapter_settings`. -/
structure MqttAdapterSettings extends AdapterSettings where
  transport : TransportType
  role : AdapterRole

/-- Class `dds::adapter_settings`. -/
structure DdsAdapterSettings extends AdapterSettings where
  transport : TransportType

/-- The value of a name in a table of the settings, or the error for the others. -/
def valueOf {α : Type} (table : List (Text × α)) (unknown name : Text) : Except SetupError α :=
  match table.lookup name with
  | some value => .ok value
  | none => .error (.runtimeError (unknown ++ name))

namespace MqttAdapterSettings

variable {Json : Type} (build : Build) (api : JsonApi Json) (interfaces : Option (List Ifaddrs))

def roleFromName : List (Text × AdapterRole) :=
  [(bytes "broker", .broker), (bytes "client", .client)]

def transportFromName : List (Text × TransportType) :=
  [(TransportName.tcp, .tcp), (TransportName.websocket, .websocket)] ++
    if build.enableTls then [(TransportName.tls, .tls), (TransportName.tlsWebsocket, .tlsWebsocket)]
    else []

/-- The constructor. The map of field parsers has `role` before `transport`. -/
def ofJson (json : Json) : Except SetupError MqttAdapterSettings := do
  let settings ← AdapterSettings.ofJson api interfaces .mqtt json
  let roleStr ← api.stringField json FieldName.role
  let role ← valueOf roleFromName (bytes "unknown mqtt adapter role: ") roleStr
  let transportStr ← api.stringField json FieldName.transport
  let transport ← valueOf (transportFromName build)
    (bytes "unsupported transport for mqtt adapter: ") transportStr
  let named := (settings.nameAppend roleStr).nameAppend (bytes "(" ++ transportStr ++ bytes ")")
  return ⟨named, transport, role⟩

theorem ofJson_describes {json : Json} {settings : MqttAdapterSettings}
    (made : ofJson build api interfaces json = .ok settings) :
    AdapterSettings.Describes api interfaces json settings.toAdapterSettings := by
  unfold ofJson at made
  obtain ⟨read, base, made⟩ := (bind_eq_ok_iff _ _ _).mp made
  obtain ⟨roleStr, _, made⟩ := (bind_eq_ok_iff _ _ _).mp made
  obtain ⟨role, _, made⟩ := (bind_eq_ok_iff _ _ _).mp made
  obtain ⟨transportStr, _, made⟩ := (bind_eq_ok_iff _ _ _).mp made
  obtain ⟨transport, _, made⟩ := (bind_eq_ok_iff _ _ _).mp made
  cases made
  have described := AdapterSettings.ofJson_describes api interfaces base
  exact (described.nameAppend api interfaces roleStr).nameAppend api interfaces _

end MqttAdapterSettings

namespace DdsAdapterSettings

variable {Json : Type} (api : JsonApi Json) (interfaces : Option (List Ifaddrs))

def transportFromName : List (Text × TransportType) :=
  [(TransportName.udp, .udp), (TransportName.tcp, .tcp)]

def ofJson (json : Json) : Except SetupError DdsAdapterSettings := do
  let settings ← AdapterSettings.ofJson api interfaces .dds json
  let transport ← valueOf transportFromName (bytes "unsupported transport for dds adapter: ")
    (← api.stringField json FieldName.transport)
  return ⟨settings, transport⟩

theorem ofJson_describes {json : Json} {settings : DdsAdapterSettings}
    (made : ofJson api interfaces json = .ok settings) :
    AdapterSettings.Describes api interfaces json settings.toAdapterSettings := by
  unfold ofJson at made
  obtain ⟨read, base, made⟩ := (bind_eq_ok_iff _ _ _).mp made
  obtain ⟨transportStr, _, made⟩ := (bind_eq_ok_iff _ _ _).mp made
  obtain ⟨transport, _, made⟩ := (bind_eq_ok_iff _ _ _).mp made
  cases made
  exact AdapterSettings.ofJson_describes api interfaces base

end DdsAdapterSettings

/-- The settings of an adapter of either protocol. -/
inductive ProtocolSettings where
  | mqtt (settings : MqttAdapterSettings)
  | dds (settings : DdsAdapterSettings)

namespace ProtocolSettings

/-- The settings as the base class has them. -/
def base : ProtocolSettings → AdapterSettings
  | mqtt settings => settings.toAdapterSettings
  | dds settings => settings.toAdapterSettings

variable {Json : Type} (build : Build) (api : JsonApi Json) (interfaces : Option (List Ifaddrs))

def protocolFromName : List (Text × ProtocolType) := [(bytes "mqtt", .mqtt), (bytes "dds", .dds)]

/-- `adapter_settings_factory::from_json`. -/
def fromJson (json : Json) : Except SetupError ProtocolSettings := do
  let protocolName ← api.stringField json FieldName.protocol
  match protocolFromName.lookup protocolName with
  | some .mqtt => return .mqtt (← MqttAdapterSettings.ofJson build api interfaces json)
  | some .dds =>
      if build.enableDds then return .dds (← DdsAdapterSettings.ofJson api interfaces json)
      else .error (.unknownProtocolError protocolName)
  | none => .error (.unknownProtocolError protocolName)

/-- Of either protocol, the settings have the interface and the port of their entry. -/
theorem fromJson_describes {json : Json} {settings : ProtocolSettings}
    (made : fromJson build api interfaces json = .ok settings) :
    AdapterSettings.Describes api interfaces json settings.base := by
  unfold fromJson at made
  obtain ⟨protocolName, _, made⟩ := (bind_eq_ok_iff _ _ _).mp made
  split at made
  · obtain ⟨mqtt, read, made⟩ := (bind_eq_ok_iff _ _ _).mp made
    cases made
    exact MqttAdapterSettings.ofJson_describes build api interfaces read
  · split at made
    · obtain ⟨dds, read, made⟩ := (bind_eq_ok_iff _ _ _).mp made
      cases made
      exact DdsAdapterSettings.ofJson_describes api interfaces read
    · cases made
  · cases made

end ProtocolSettings

end OctopusMq
