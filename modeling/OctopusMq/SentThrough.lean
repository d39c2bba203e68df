import OctopusMq.Delivery

set_option autoImplicit false

/- The subscription each send of a delivery loop is made through, and the retain
flag it carries. -/
namespace OctopusMq

open Imperative OrderedTable Transition

variable {Opts Property : Type}

/-- The retain flag of a PUBLISH. -/
def Packet.retain : Packet Property → Option Retain
  | .publish _ _ _ retain _ => some retain
  | _ => none

namespace Broker

/-- The sends of a delivery loop, each with the subscription it is made through. -/
def sentThrough (connected : Connection → Bool) (topicName : Text)
    (packet : Subscription → Option (Packet Property)) (subs : List Subscription)
    (state : Broker) : List (Subscription × Packet Property) :=
  Outcome.trace
    (fun sub _ => ((delivery topicName packet sub).map fun sent => (sub, sent.2)).toList)
    (deliver connected topicName packet) subs state

section Loop

variable (connected : Connection → Bool) (topicName : Text)
  (packet : Subscription → Option (Packet Property))

/-- No send of the loop is left out, and none is made up. -/
theorem sends_forEach_deliver (subs : List Subscription) (state : Broker) :
    sends (Outcome.forEach (deliver connected topicName packet) subs state).effects =
      (sentThrough connected topicName packet subs state).map fun sent => (sent.1.con, sent.2) := by
  apply Outcome.forEach_effects_eq_trace
  intro sub _ state
  rw [(deliver_uniform connected topicName packet).effects_eq, deliveryEffects]
  cases sending : delivery topicName packet sub with
  | none => rfl
  | some sent =>
      have receiver := ((delivery_eq_some_iff topicName packet sub sent).mp sending).2.1
      show [sent] = [(sub.con, sent.2)]
      rw [receiver]

/-- A send is made through a subscription of the table whose filter the topic
matches, and carries the packet chosen for it. -/
theorem of_mem_sentThrough {connected : Connection → Bool} {topicName : Text}
    {packet : Subscription → Option (Packet Property)} {subs : List Subscription} {state : Broker}
    {sent : Subscription × Packet Property}
    (member : sent ∈ sentThrough connected topicName packet subs state) :
    sent.1 ∈ subs ∧ Scope.Delivers sent.1.topicFilter topicName ∧ packet sent.1 = some sent.2 := by
  refine Outcome.forall_mem_trace (fun _ => True)
    (fun sent => sent.1 ∈ subs ∧ Scope.Delivers sent.1.topicFilter topicName ∧
      packet sent.1 = some sent.2) _ _ subs ?_ state trivial sent member
  intro sub inside state _
  refine ⟨trivial, ?_⟩
  intro noted here
  rw [Option.mem_toList, Option.map_eq_some_iff] at here
  obtain ⟨found, sending, same⟩ := here
  have spec := (delivery_eq_some_iff topicName packet sub found).mp sending
  rw [← same]
  exact ⟨inside, spec.1, spec.2.2⟩

end Loop

/-- The sends of the v3 handler for a publish. -/
def publishSent (lib : OptionsApi Opts) (connected : Connection → Bool) (con : Connection)
    (pubopts : Opts) (topicName contents : Text) (self : Broker) :
    List (Subscription × Packet Property) :=
  sentThrough connected topicName (v3Delivery lib pubopts topicName contents) self.subs.entries
    (self.touch con)

/-- The sends of the v5 handler for a publish. -/
def v5PublishSent (lib : OptionsApi Opts) (connected : Connection → Bool) (con : Connection)
    (pubopts : Opts) (topicName contents : Text) (props : List Property) (self : Broker) :
    List (Subscription × Packet Property) :=
  sentThrough connected topicName (v5Delivery lib con pubopts topicName contents props)
    self.subs.entries (self.touch con)

/-- The sends of `inject_publish` for a message. -/
def injectPublishSent (lib : OptionsApi Opts) (connected : Connection → Bool)
    (message : Message Property) (self : Broker) : List (Subscription × Packet Property) :=
  sentThrough connected message.topic (injectedDelivery lib message) self.subs.entries self

theorem sends_publishHandler (lib : OptionsApi Opts) (connected : Connection → Bool)
    (con : Connection) (pubopts : Opts) (topicName contents : Text) (self : Broker) :
    sends (publishHandler lib connected con pubopts topicName contents self :
        Result Property).effects =
      (publishSent lib connected con pubopts topicName contents self).map
        fun sent => (sent.1.con, sent.2) := by
  rw [publishHandler, sends_andThen_share]
  exact sends_forEach_deliver connected topicName _ self.subs.entries _

theorem sends_v5PublishHandler (lib : OptionsApi Opts) (connected : Connection → Bool)
    (con : Connection) (pubopts : Opts) (topicName contents : Text) (props : List Property)
    (self : Broker) :
    sends (v5PublishHandler lib connected con pubopts topicName contents props self).effects =
      (v5PublishSent lib connected con pubopts topicName contents props self).map
        fun sent => (sent.1.con, sent.2) := by
  rw [v5PublishHandler, sends_andThen_share]
  exact sends_forEach_deliver connected topicName _ self.subs.entries _

theorem sends_injectPublish (lib : OptionsApi Opts) (connected : Connection → Bool)
    (message : Message Property) (self : Broker) :
    sends (injectPublish lib connected message self).effects =
      (injectPublishSent lib connected message self).map fun sent => (sent.1.con, sent.2) :=
  sends_forEach_deliver connected message.topic _ self.subs.entries self

section Sent

variable {lib : OptionsApi Opts} {connected : Connection → Bool} {self : Broker}
  {sent : Subscription × Packet Property}

theorem of_mem_publishSent {con : Connection} {pubopts : Opts} {topicName contents : Text}
    (member : sent ∈ publishSent lib connected con pubopts topicName contents self) :
    sent.2 =
      .publish topicName contents (sent.1.qosValue.min (lib.getQos pubopts)) .no [] := by
  have chosen := (of_mem_sentThrough member).2.2
  exact (Option.some.inj chosen).symm

/-- The v5 handler sends nothing back through a subscription with No Local. -/
theorem of_mem_v5PublishSent {con : Connection} {pubopts : Opts} {topicName contents : Text}
    {props : List Property}
    (member : sent ∈ v5PublishSent lib connected con pubopts topicName contents props self) :
    ¬ (sent.1.nlValue = .yes ∧ sent.1.con = con) ∧
      sent.2 = .publish topicName contents (sent.1.qosValue.min (lib.getQos pubopts))
        (retainAsPublished lib pubopts sent.1) props := by
  have chosen := (of_mem_sentThrough member).2.2
  unfold v5Delivery at chosen
  split at chosen
  · cases chosen
  · rename_i allowed
    exact ⟨allowed, (Option.some.inj chosen).symm⟩

/-- `inject_publish` sends a message as the handler of its version does. -/
theorem of_mem_injectPublishSent {message : Message Property}
    (member : sent ∈ injectPublishSent lib connected message self) :
    (message.mqttVersion = .v3 ∧ sent.2 = .publish message.topic message.payload
      (sent.1.qosValue.min (lib.getQos (lib.ofByte message.pubopts))) .no []) ∨
    (message.mqttVersion = .v5 ∧ sent.2 = .publish message.topic message.payload
      (sent.1.qosValue.min (lib.getQos (lib.ofByte message.pubopts)))
      (retainAsPublished lib (lib.ofByte message.pubopts) sent.1) message.props) := by
  have chosen := (of_mem_sentThrough member).2.2
  unfold injectedDelivery at chosen
  cases version : message.mqttVersion with
  | v3 =>
      rw [version] at chosen
      exact Or.inl ⟨rfl, (Option.some.inj chosen).symm⟩
  | v5 =>
      rw [version] at chosen
      exact Or.inr ⟨rfl, (Option.some.inj chosen).symm⟩

end Sent

/-- The send carries the retain flag of the publisher when its subscription was
made with retain-as-published, and no flag when it was not. -/
def HonoursRetain (lib : OptionsApi Opts) (pubopts : Opts)
    (sent : Subscription × Packet Property) : Prop :=
  (sent.1.rapValue = .retain → sent.2.retain = some (lib.getRetain pubopts)) ∧
  (sent.1.rapValue = .dont → sent.2.retain = some .no)

/-- A subscription with retain-as-published is due a retain flag that is set. -/
def DueRetain (lib : OptionsApi Opts) (pubopts : Opts) (sub : Subscription) : Prop :=
  sub.rapValue = .retain ∧ lib.getRetain pubopts = .yes

theorem honoursRetain_retainAsPublished (lib : OptionsApi Opts) (pubopts : Opts)
    (sent : Subscription × Packet Property)
    (flag : sent.2.retain = some (retainAsPublished lib pubopts sent.1)) :
    HonoursRetain lib pubopts sent := by
  unfold HonoursRetain
  rw [flag]
  unfold retainAsPublished
  refine ⟨fun asPublished => by rw [if_pos asPublished], ?_⟩
  intro plain
  rw [plain, if_neg (by decide)]

/-- A send that never carries the flag honours it unless it is due. -/
theorem honoursRetain_no_iff (lib : OptionsApi Opts) (pubopts : Opts)
    (sent : Subscription × Packet Property) (flag : sent.2.retain = some .no) :
    HonoursRetain lib pubopts sent ↔ ¬ DueRetain lib pubopts sent.1 := by
  unfold HonoursRetain DueRetain
  rw [flag]
  cases lib.getRetain pubopts <;> simp

/-- Every publish that comes through the v5 handler, or was shared by one, is
delivered with the retain flag the subscription asks for. One that comes through
the v3 handler, or was shared by one, is so exactly when no flag is due. -/
theorem publish_honoursRetain_iff (lib : OptionsApi Opts) (connected : Connection → Bool)
    (self : Broker) :
    (∀ con pubopts topicName contents,
      sends (publishHandler lib connected con pubopts topicName contents self :
          Result Property).effects =
        (publishSent lib connected con pubopts topicName contents self).map
          (fun sent => (sent.1.con, sent.2)) ∧
      ∀ sent ∈ (publishSent lib connected con pubopts topicName contents self :
          List (Subscription × Packet Property)),
        HonoursRetain lib pubopts sent ↔ ¬ DueRetain lib pubopts sent.1) ∧
    (∀ con pubopts topicName contents (props : List Property),
      sends (v5PublishHandler lib connected con pubopts topicName contents props self).effects =
        (v5PublishSent lib connected con pubopts topicName contents props self).map
          (fun sent => (sent.1.con, sent.2)) ∧
      ∀ sent ∈ v5PublishSent lib connected con pubopts topicName contents props self,
        HonoursRetain lib pubopts sent) ∧
    (∀ message : Message Property,
      sends (injectPublish lib connected message self).effects =
        (injectPublishSent lib connected message self).map
          (fun sent => (sent.1.con, sent.2)) ∧
      ∀ sent ∈ injectPublishSent lib connected message self,
        HonoursRetain lib (lib.ofByte message.pubopts) sent ↔
          message.mqttVersion = .v5 ∨ ¬ DueRetain lib (lib.ofByte message.pubopts) sent.1) := by
  refine ⟨?_, ?_, ?_⟩
  · intro con pubopts topicName contents
    refine ⟨sends_publishHandler lib connected con pubopts topicName contents self, ?_⟩
    intro sent member
    exact honoursRetain_no_iff lib pubopts sent (congrArg Packet.retain (of_mem_publishSent member))
  · intro con pubopts topicName contents props
    refine ⟨sends_v5PublishHandler lib connected con pubopts topicName contents props self, ?_⟩
    intro sent member
    exact honoursRetain_retainAsPublished lib pubopts sent
      (congrArg Packet.retain (of_mem_v5PublishSent member).2)
  · intro message
    refine ⟨sends_injectPublish lib connected message self, ?_⟩
    intro sent member
    rcases of_mem_injectPublishSent member with ⟨version, packet⟩ | ⟨version, packet⟩
    · rw [version]
      simpa only [reduceCtorEq, false_or] using
        honoursRetain_no_iff lib _ sent (congrArg Packet.retain packet)
    · have honoured : HonoursRetain lib (lib.ofByte message.pubopts) sent :=
        honoursRetain_retainAsPublished lib _ sent (congrArg Packet.retain packet)
      simp only [honoured, version, true_or]

end Broker

namespace Session

/-- A v5 client subscribes with retain-as-published, and a v3 client connects. -/
def retainAsPublishedToV5 : List (Event UInt8 Text) :=
  [.accept 1 (some {}), .connect .v5 1 (bytes "one"),
    .subscribe .v5 1 1 [(bytes "a", ⟨.atMostOnce, .retain, .no⟩)],
    .accept 2 (some {}), .connect .v3 2 (bytes "two")]

end Session

namespace Broker

/-- The retained publish of a v3 client loses its flag on the way to the v5
client, through the handler and through `inject_publish`. -/
theorem publish_drops_retain :
    ¬ (∀ (state : Session) (connected : Connection → Bool) (con : Connection) (pubopts : UInt8)
        (topicName contents : Text),
      (Session.machine byteOptions : Machine Session (Event UInt8 Text)).Reachable
        Session.fresh state →
      state.enabled (.publish con connected pubopts topicName contents : Event UInt8 Text) →
      ∀ sent ∈ (publishSent byteOptions connected con pubopts topicName contents state.broker :
        List (Subscription × Packet Text)), HonoursRetain byteOptions pubopts sent) ∧
    ¬ (∀ (state : Session) (connected : Connection → Bool) (message : Message Text),
      (Session.machine byteOptions : Machine Session (Event UInt8 Text)).Reachable
        Session.fresh state →
      ∀ sent ∈ injectPublishSent byteOptions connected message state.broker,
        HonoursRetain byteOptions (byteOptions.ofByte message.pubopts) sent) := by
  have reached : (Session.machine byteOptions : Machine Session (Event UInt8 Text)).Reachable
      Session.fresh ((Session.machine byteOptions).run Session.fresh
        Session.retainAsPublishedToV5) :=
    ⟨Session.retainAsPublishedToV5, by decide, rfl⟩
  refine ⟨?_, ?_⟩
  · intro honours
    have flag := (honours _ (fun _ => true) 2 1 (bytes "a") [] reached (by decide)
      (⟨bytes "a", 1, .atMostOnce, .retain, .no⟩,
        .publish (bytes "a") [] .atMostOnce .no []) (by decide)).1 rfl
    exact absurd flag (by decide)
  · intro honours
    have flag := (honours _ (fun _ => true) ⟨[], bytes "a", 1, .v3, []⟩ reached
      (⟨bytes "a", 1, .atMostOnce, .retain, .no⟩,
        .publish (bytes "a") [] .atMostOnce .no []) (by decide)).1 rfl
    exact absurd flag (by decide)

end Broker

end OctopusMq
