import OctopusMq.Settings
import OctopusMq.Broker

set_option autoImplicit false

/- What the brokers of an accepted configuration listen on. -/
namespace OctopusMq

open Fallible

/-- `ip::tcp::endpoint`, where no address is `ip::tcp::v4()`: all of the machine. -/
structure Endpoint (Port : Type) where
  address : Option IpInt
  port : Port
deriving DecidableEq, Repr

def Endpoint.Overlaps {Port : Type} (first second : Endpoint Port) : Prop :=
  first.port = second.port ∧
    (first.address = second.address ∨ first.address = none ∨ second.address = none)

/-- `boost::lexical_cast<uint16_t>`. -/
def lexicalCast (port : PortInt) : Except SetupError UInt16 :=
  if port.toNat ≤ 65535 then .ok port.toUInt16 else .error .badLexicalCast

/-- The endpoint the constructor of a broker gives its server. `ip::make_address` reads
what `ip_string` wrote. -/
def Broker.endpoint (adapterSettings : AdapterSettings) : Except SetupError (Endpoint UInt16) := do
  if adapterSettings.phy.ip = nullIp then return ⟨none, ← lexicalCast adapterSettings.port⟩
  else return ⟨some adapterSettings.phy.ip, ← lexicalCast adapterSettings.port⟩

namespace AdapterSettings

/-- The endpoint with the port as the settings have it. -/
def listener (self : AdapterSettings) : Endpoint PortInt :=
  ⟨if self.phy.ip = nullIp then none else some self.phy.ip, self.port⟩

theorem lexicalCast_ok {port : PortInt} {cast : UInt16} (ok : lexicalCast port = .ok cast) :
    cast.toUInt32 = port := by
  unfold lexicalCast at ok
  split at ok
  · rename_i small
    rw [← Except.ok.inj ok]
    apply UInt32.toNat_inj.mp
    simp only [UInt16.toNat_toUInt32, UInt32.toNat_toUInt16]
    omega
  · cases ok

theorem endpoint_eq (settings : AdapterSettings) :
    Broker.endpoint settings =
      do return ⟨settings.listener.address, ← lexicalCast settings.port⟩ := by
  unfold Broker.endpoint listener
  split <;> rfl

/-- A broker that is constructed listens on the listener of its settings. -/
theorem endpoint_ok {settings : AdapterSettings} {endpoint : Endpoint UInt16}
    (ok : Broker.endpoint settings = .ok endpoint) :
    endpoint.address = settings.listener.address ∧
      endpoint.port.toUInt32 = settings.listener.port := by
  rw [endpoint_eq] at ok
  obtain ⟨port, cast, same⟩ := (bind_eq_ok_iff _ _ _).mp ok
  cases same
  exact ⟨rfl, lexicalCast_ok cast⟩

/-- The port field holds an unsigned number, and `get<port_int>()` of it converts
modulo 2 ^ 32. -/
def PortIs {Json : Type} (api : JsonApi Json) (json : Json) (n : UInt64) : Prop :=
  ∃ portField, api.find json FieldName.port = some portField ∧
    api.isNumberUnsigned portField = true ∧ api.getPortInt portField = some n.toUInt32

/-- The broker listens on the port of the configuration, and one that no socket has
is refused. -/
structure ListensOn (settings : AdapterSettings) (n : UInt64) : Prop where
  port : ∀ endpoint, Broker.endpoint settings = .ok endpoint → endpoint.port.toNat = n.toNat
  refused : 65535 < n.toNat → ∃ error, Broker.endpoint settings = .error error

/-- The settings keep the low 32 bits of the number. -/
theorem ofJson_port {Json : Type} (api : JsonApi Json) (interfaces : Option (List Ifaddrs))
    {protocol : ProtocolType} {json : Json} {n : UInt64} {settings : AdapterSettings}
    (given : PortIs api json n) (made : ofJson api interfaces protocol json = .ok settings) :
    settings.port.toNat = n.toNat % 2 ^ 32 := by
  obtain ⟨portField, found, _, got⟩ := given
  have read := portAt_of_readPort api (ofJson_describes api interfaces made).port
  rw [JsonApi.portAt, found, Option.bind_some, got, Option.some.injEq] at read
  rw [← read]
  exact UInt64.toNat_toUInt32 n

/-- The port of the configuration is the one listened on exactly if it fits 32 bits,
or its low 32 bits are refused. -/
theorem listensOn_iff {Json : Type} (api : JsonApi Json) (interfaces : Option (List Ifaddrs))
    (protocol : ProtocolType) (json : Json) (n : UInt64) (settings : AdapterSettings)
    (given : PortIs api json n) (made : ofJson api interfaces protocol json = .ok settings) :
    ListensOn settings n ↔ n.toNat < 2 ^ 32 ∨ 65535 < n.toNat % 2 ^ 32 := by
  have kept := ofJson_port api interfaces given made
  have endpoint := endpoint_eq settings
  unfold lexicalCast at endpoint
  rw [kept] at endpoint
  by_cases large : 65535 < n.toNat % 2 ^ 32
  · rw [if_neg (by omega)] at endpoint
    refine ⟨fun _ => Or.inr large, fun _ => ⟨?_, fun _ => ⟨_, endpoint⟩⟩⟩
    intro bound ok
    rw [endpoint] at ok
    cases ok
  · rw [if_pos (by omega)] at endpoint
    have bound : settings.port.toUInt16.toNat = n.toNat % 2 ^ 32 := by
      rw [UInt32.toNat_toUInt16, kept]
      omega
    refine ⟨?_, ?_⟩
    · intro listens
      have same := listens.port _ endpoint
      change settings.port.toUInt16.toNat = n.toNat at same
      omega
    · intro fits
      refine ⟨?_, fun above => by omega⟩
      intro listener ok
      rw [endpoint] at ok
      cases ok
      change settings.port.toUInt16.toNat = n.toNat
      omega

/-- Two brokers bind endpoints that overlap exactly if their listeners do. -/
theorem endpoint_overlaps_iff {first second : AdapterSettings} {bound other : Endpoint UInt16}
    (firstOk : Broker.endpoint first = .ok bound) (secondOk : Broker.endpoint second = .ok other) :
    bound.Overlaps other ↔ first.listener.Overlaps second.listener := by
  have here := endpoint_ok firstOk
  have there := endpoint_ok secondOk
  unfold Endpoint.Overlaps
  rw [← here.1, ← here.2, ← there.1, ← there.2, UInt16.toUInt32_inj]

/-- Listeners that do not collide still overlap if the ports are the same and just
one of them is on any interface: the special address of the check is the loopback. -/
theorem listener_overlaps_iff {first second : AdapterSettings}
    (apart : second.compareBinding first.phy.ip first.port = false) :
    first.listener.Overlaps second.listener ↔
      first.port = second.port ∧ ¬ (first.phy.ip = nullIp ↔ second.phy.ip = nullIp) := by
  have differ : first.port = second.port → first.phy.ip ≠ second.phy.ip := by
    intro ports addresses
    rw [(second.compareBinding_iff _ _).mpr ⟨Or.inl addresses, ports⟩] at apart
    cases apart
  refine and_congr_right ?_
  intro ports
  have distinct := differ ports
  unfold listener
  by_cases here : first.phy.ip = nullIp
  · by_cases there : second.phy.ip = nullIp
    · exact absurd (here.trans there.symm) distinct
    · simp only [here, there, ↓reduceIte, true_or, or_true, true_iff, not_false_eq_true]
  · by_cases there : second.phy.ip = nullIp
    · simp only [here, there, ↓reduceIte, or_true, false_iff, not_true_eq_false, not_false_eq_true]
    · simp only [here, there, ↓reduceIte, Option.some.injEq, distinct, reduceCtorEq, or_self,
        not_true_eq_false]

end AdapterSettings

/-- No two adapters at different positions listen on overlapping endpoints. -/
def ListenersDisjoint (adapterPool : List ProtocolSettings) : Prop :=
  ∀ (i j : Nat) (first second : ProtocolSettings), i ≠ j →
    adapterPool[i]? = some first → adapterPool[j]? = some second →
      ¬ first.base.listener.Overlaps second.base.listener

/-- No two brokers at different positions, both of them constructed, bind endpoints that
overlap. -/
def BoundDisjoint (adapterPool : List ProtocolSettings) : Prop :=
  ∀ (i j : Nat) (first second : ProtocolSettings) (bound other : Endpoint UInt16), i ≠ j →
    adapterPool[i]? = some first → adapterPool[j]? = some second →
      Broker.endpoint first.base = .ok bound → Broker.endpoint second.base = .ok other →
        ¬ bound.Overlaps other

theorem boundDisjoint_of_listenersDisjoint {adapterPool : List ProtocolSettings}
    (disjoint : ListenersDisjoint adapterPool) : BoundDisjoint adapterPool := by
  intro i j first second bound other differ here there firstOk secondOk overlap
  apply disjoint i j first second differ here there
  exact (AdapterSettings.endpoint_overlaps_iff firstOk secondOk).mp overlap

/-- Where every broker is constructed, what they bind is disjoint exactly if their
listeners are. -/
theorem boundDisjoint_iff_listenersDisjoint {adapterPool : List ProtocolSettings}
    (constructed : ∀ settings ∈ adapterPool, ∃ bound, Broker.endpoint settings.base = .ok bound) :
    BoundDisjoint adapterPool ↔ ListenersDisjoint adapterPool := by
  apply Iff.intro
  · intro disjoint i j first second differ here there overlap
    obtain ⟨bound, firstOk⟩ := constructed first (List.mem_of_getElem? here)
    obtain ⟨other, secondOk⟩ := constructed second (List.mem_of_getElem? there)
    apply disjoint i j first second bound other differ here there firstOk secondOk
    exact (AdapterSettings.endpoint_overlaps_iff firstOk secondOk).mpr overlap
  · exact boundDisjoint_of_listenersDisjoint

/-- No entry on any interface has its port, as the settings read it, in common with
an entry on a named one. -/
def AnyInterfaceAlone {Json : Type} (api : JsonApi Json) (entries : List Json) : Prop :=
  ∀ first ∈ entries, ∀ second ∈ entries,
    api.portAt first FieldName.port = api.portAt second FieldName.port →
      api.stringAt first FieldName.interface = some anyInterface →
        api.stringAt second FieldName.interface = some anyInterface

instance decidableAnyInterfaceAlone {Json : Type} (api : JsonApi Json) (entries : List Json) :
    Decidable (AnyInterfaceAlone api entries) :=
  inferInstanceAs (Decidable (∀ first ∈ entries, ∀ second ∈ entries,
    api.portAt first FieldName.port = api.portAt second FieldName.port →
      api.stringAt first FieldName.interface = some anyInterface →
        api.stringAt second FieldName.interface = some anyInterface))

namespace Settings

variable {Json : Type} (build : Build) (api : JsonApi Json)
  (interfaces : Nat → Option (List Ifaddrs))

/-- The null address of an adapter is the any interface of its entry. -/
theorem made_ip {number : Nat} {entry : Json} {settings : ProtocolSettings}
    (ok : made build api interfaces number entry = .ok settings) :
    settings.base.phy.ip = nullIp ↔
      api.stringAt entry FieldName.interface = some anyInterface := by
  obtain ⟨name, read, phy⟩ := (ProtocolSettings.fromJson_describes build api _ ok).phy
  rw [Phy.ofName_ip phy, read, Option.some.injEq]

theorem made_port {number : Nat} {entry : Json} {settings : ProtocolSettings}
    (ok : made build api interfaces number entry = .ok settings) :
    api.portAt entry FieldName.port = some settings.base.port :=
  AdapterSettings.portAt_of_readPort api (ProtocolSettings.fromJson_describes build api _ ok).port

/-- In an accepted configuration, at two different positions. -/
theorem parse_overlaps_iff {settingsJson : Json}
    (accepted : (parse build api interfaces settingsJson []).fault = none) {i j : Nat}
    {first second : ProtocolSettings} (differ : i ≠ j)
    (here : (parse build api interfaces settingsJson []).state[i]? = some first)
    (there : (parse build api interfaces settingsJson []).state[j]? = some second) :
    first.base.listener.Overlaps second.base.listener ↔
      first.base.port = second.base.port ∧
        ¬ (first.base.phy.ip = nullIp ↔ second.base.phy.ip = nullIp) := by
  have pairwise := (parse_ok build api interfaces accepted).1
  exact AdapterSettings.listener_overlaps_iff
    (pairwise_at (fun _ _ => Compatible.symm) pairwise differ here there)

theorem anyInterfaceAlone_of_disjoint {settingsJson : Json}
    (accepted : (parse build api interfaces settingsJson []).fault = none)
    (disjoint : ListenersDisjoint (parse build api interfaces settingsJson []).state) :
    AnyInterfaceAlone api (entries api settingsJson) := by
  have adapters := (parse_ok build api interfaces accepted).2
  intro first firstIn second secondIn ports any
  obtain ⟨i, firstAt⟩ := List.mem_iff_getElem?.mp firstIn
  obtain ⟨j, secondAt⟩ := List.mem_iff_getElem?.mp secondIn
  by_cases same : i = j
  · rw [same, secondAt, Option.some.injEq] at firstAt
    rw [firstAt]
    exact any
  · obtain ⟨here, atHere, madeHere⟩ := adapters.exists_made firstAt
    obtain ⟨there, atThere, madeThere⟩ := adapters.exists_made secondAt
    rw [made_port build api interfaces madeHere, made_port build api interfaces madeThere,
      Option.some.injEq] at ports
    apply (made_ip build api interfaces madeThere).mp
    apply Classical.byContradiction
    intro named
    apply disjoint i j here there same atHere atThere
    refine (parse_overlaps_iff build api interfaces accepted same atHere atThere).mpr ⟨ports, ?_⟩
    intro both
    exact named (both.mp ((made_ip build api interfaces madeHere).mpr any))

theorem disjoint_of_anyInterfaceAlone {settingsJson : Json}
    (accepted : (parse build api interfaces settingsJson []).fault = none)
    (alone : AnyInterfaceAlone api (entries api settingsJson)) :
    ListenersDisjoint (parse build api interfaces settingsJson []).state := by
  have adapters := (parse_ok build api interfaces accepted).2
  intro i j first second differ here there overlap
  obtain ⟨samePort, one⟩ :=
    (parse_overlaps_iff build api interfaces accepted differ here there).mp overlap
  obtain ⟨entryFirst, memberFirst, madeFirst⟩ := adapters.exists_item here
  obtain ⟨entrySecond, memberSecond, madeSecond⟩ := adapters.exists_item there
  have ports : api.portAt entryFirst FieldName.port = api.portAt entrySecond FieldName.port := by
    rw [made_port build api interfaces madeFirst, made_port build api interfaces madeSecond,
      samePort]
  apply one
  rw [made_ip build api interfaces madeFirst, made_ip build api interfaces madeSecond]
  exact ⟨alone entryFirst memberFirst entrySecond memberSecond ports,
    alone entrySecond memberSecond entryFirst memberFirst ports.symm⟩

/-- The listeners of an accepted configuration are disjoint exactly if no adapter on
any interface shares its port with one on a named interface. -/
theorem parse_listenersDisjoint_iff (settingsJson : Json)
    (accepted : (parse build api interfaces settingsJson []).fault = none) :
    ListenersDisjoint (parse build api interfaces settingsJson []).state ↔
      AnyInterfaceAlone api (entries api settingsJson) :=
  ⟨anyInterfaceAlone_of_disjoint build api interfaces accepted,
    disjoint_of_anyInterfaceAlone build api interfaces accepted⟩

/-- So the brokers constructed from an accepted configuration bind disjoint endpoints if
no adapter on any interface shares its port with one on a named interface and, where all
are constructed, only then. -/
theorem parse_boundDisjoint_iff {settingsJson : Json}
    (accepted : (parse build api interfaces settingsJson []).fault = none) :
    (AnyInterfaceAlone api (entries api settingsJson) →
      BoundDisjoint (parse build api interfaces settingsJson []).state) ∧
    ((∀ settings ∈ (parse build api interfaces settingsJson []).state,
        ∃ bound, Broker.endpoint settings.base = .ok bound) →
      (BoundDisjoint (parse build api interfaces settingsJson []).state ↔
        AnyInterfaceAlone api (entries api settingsJson))) := by
  apply And.intro
  · intro alone
    apply boundDisjoint_of_listenersDisjoint
    exact disjoint_of_anyInterfaceAlone build api interfaces accepted alone
  · intro constructed
    apply (boundDisjoint_iff_listenersDisjoint constructed).trans
    apply Iff.intro
    · exact anyInterfaceAlone_of_disjoint build api interfaces accepted
    · exact disjoint_of_anyInterfaceAlone build api interfaces accepted

/-- An entry for a broker in the shape of the sample configuration. -/
def brokerEntry (interface transport : Text) (port : UInt64) : JsonValue :=
  .object [(FieldName.interface, .string interface), (FieldName.protocol, .string (bytes "mqtt")),
    (FieldName.transport, .string transport), (FieldName.port, .numberUnsigned port),
    (FieldName.role, .string (bytes "broker")), (FieldName.scope, .string (bytes "#"))]

/-- The sample configuration: two brokers on any interface. -/
def octopusJson : JsonValue :=
  .object [(bytes "adapters", .array [brokerEntry (bytes "*") TransportName.tcp 1883,
    brokerEntry (bytes "*") TransportName.websocket 19001])]

theorem parse_listenersDisjoint_octopusJson :
    ListenersDisjoint (parse ⟨false, false⟩ JsonValue.api (fun _ => none) octopusJson []).state :=
  (parse_listenersDisjoint_iff ⟨false, false⟩ JsonValue.api (fun _ => none) octopusJson
    (by decide)).mpr (by decide)

theorem listensOn_octopusJson :
    ∃ settings, AdapterSettings.ofJson JsonValue.api none .mqtt
        (brokerEntry (bytes "*") TransportName.tcp 1883) = .ok settings ∧
      (AdapterSettings.ListensOn settings 1883 ↔
        (1883 : UInt64).toNat < 2 ^ 32 ∨ 65535 < (1883 : UInt64).toNat % 2 ^ 32) :=
  ⟨_, rfl, AdapterSettings.listensOn_iff JsonValue.api none .mqtt
    (brokerEntry (bytes "*") TransportName.tcp 1883) 1883 _ ⟨.numberUnsigned 1883, rfl, rfl, rfl⟩
    rfl⟩

/-- The port 2 ^ 32 + 1883 is taken for 1883. -/
theorem listens_on_wrapped_port :
    ¬ ∀ (json : JsonValue) (n : UInt64) (settings : AdapterSettings),
      AdapterSettings.PortIs JsonValue.api json n →
      AdapterSettings.ofJson JsonValue.api none .mqtt json = .ok settings →
      AdapterSettings.ListensOn settings n := by
  intro listens
  have listens := listens (brokerEntry (bytes "*") TransportName.tcp 4294969179) 4294969179 _
    ⟨.numberUnsigned 4294969179, rfl, rfl, rfl⟩ rfl
  exact absurd (listens.port ⟨none, 1883⟩ rfl) (by decide)

/-- A broker on any interface, and one on the same port of the network card. -/
def sharedPortJson : JsonValue :=
  .object [(bytes "adapters", .array [brokerEntry (bytes "*") TransportName.tcp 1883,
    brokerEntry (bytes "eth0") TransportName.tcp 1883])]

/-- The loopback, and 192.168.0.10 on a network card. -/
def networkCard : List Ifaddrs :=
  [⟨some (bytes "lo"), some (.inet loopbackIp), some 0x000000ff⟩,
    ⟨some (bytes "eth0"), some .other, none⟩,
    ⟨some (bytes "eth0"), some (.inet 0x0a00a8c0), some 0x00ffffff⟩]

theorem parse_accepts_overlapping :
    (parse ⟨false, false⟩ JsonValue.api (fun _ => some networkCard) sharedPortJson []).fault =
        none ∧
      ¬ ListenersDisjoint
        (parse ⟨false, false⟩ JsonValue.api (fun _ => some networkCard)
          sharedPortJson []).state := by
  refine ⟨by decide, ?_⟩
  intro disjoint
  apply disjoint 0 1 _ _ (by decide) rfl rfl
  exact ⟨rfl, Or.inr (Or.inl rfl)⟩

end Settings

end OctopusMq
