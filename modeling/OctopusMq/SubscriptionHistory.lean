import OctopusMq.FanOut
import OctopusMq.Lifecycle
import OctopusMq.Library.Register

set_option autoImplicit false

/- Who is subscribed, as the events so far tell: every pair of a connection and a
filter is a register of the table. -/
namespace OctopusMq

open Imperative OrderedTable Transition Register

variable {Opts Property : Type}

/-- The subscription a handler of a version constructs. -/
def Subscription.ofVersion : Version → Text → Connection → SubscribeOptions → Subscription
  | .v3 => v3
  | .v5 => v5

namespace Event

/-- What a SUBSCRIBE asks for under a key: its first entry for the filter. -/
def requested (key : Connection × Text) :
    Event Opts Property → Option Subscription
  | .subscribe version con _ entries =>
      if con = key.1 ∧ Scope.Accepted key.2 then
        (entries.find? fun entry => entry.1 = key.2).map fun entry =>
          Subscription.ofVersion version entry.1 con entry.2
      else none
  | _ => none

/-- What an event does to the register of a key. The end of a connection clears its
keys; an UNSUBSCRIBE clears the filters it lists, whosever they are. -/
def move (key : Connection × Text) (event : Event Opts Property) : Move Subscription :=
  match event with
  | .close con => if con = key.1 then .clear else .leave
  | .error con => if con = key.1 then .clear else .leave
  | .disconnect _ con => if con = key.1 then .clear else .leave
  | .unsubscribe _ _ _ topics => if topics.contains key.2 then .clear else .leave
  | _ => (event.requested key).elim .leave .claim

/-- No Local: a publish of a v5 client is not sent through the client's own
subscriptions that ask for this. One of a v3 client, or from another adapter, is. -/
def Withholds (event : Event Opts Property) (sub : Subscription) : Prop :=
  match event with
  | .v5Publish con _ _ _ _ _ => sub.nlValue = .yes ∧ sub.con = con
  | _ => False

end Event

namespace Broker

theorem lookup_of_leaves {con : Connection} {before after : Broker}
    (leaves : Leaves con before after) (key : Connection × Text) :
    after.subs.lookup key =
      (if con = key.1 then .clear else .leave : Move Subscription).apply
        (before.subs.lookup key) := by
  have same : after.subs.lookup key = if con ≠ key.1 then before.subs.lookup key else none := by
    apply Table.lookup_of_mem_iff
    intro sub keyed
    rw [leaves.subs sub, ← keyed]
    exact and_congr_right fun _ => ne_comm
  rw [same]
  by_cases own : con = key.1
  · simp [own, Move.apply]
  · simp [own, Move.apply]

/-- A connection that is not registered has nothing to be cleared. -/
theorem lookup_of_unregistered {self : Session} (consistent : Session.Consistent self)
    {con : Connection} (unregistered : con ∉ self.broker.connections) (key : Connection × Text) :
    self.broker.subs.lookup key =
      (if con = key.1 then .clear else .leave : Move Subscription).apply
        (self.broker.subs.lookup key) := by
  by_cases own : con = key.1
  · have absent : self.broker.subs.lookup key = none := by
      rw [Table.lookup_eq_none_iff]
      intro member
      obtain ⟨sub, inside, keyed⟩ := List.mem_map.mp member
      apply unregistered
      rw [own, ← keyed]
      exact consistent.subs sub inside
    simp [own, absent, Move.apply]
  · simp [own, Move.apply]

theorem lookup_unsubscribe (self : Broker) (con : Connection) (packetId : UInt16)
    (topics : List Text) (key : Connection × Text) :
    (unsubscribe con packetId topics self : Result Property).state.subs.lookup key =
      (if topics.contains key.2 then .clear else .leave : Move Subscription).apply
        (self.subs.lookup key) := by
  have same : (unsubscribe con packetId topics self : Result Property).state.subs.lookup key =
      if key.2 ∉ topics then self.subs.lookup key else none := by
    apply Table.lookup_of_mem_iff
    intro sub keyed
    rw [unsubscribe_entries, List.mem_filter, ← keyed]
    simp [Subscription.key]
  rw [same]
  by_cases listed : key.2 ∈ topics
  · simp [listed, Move.apply]
  · simp [listed, Move.apply]

/-- The first item of a request under a key. -/
theorem find_requested (version : Version) (con : Connection)
    (entries : List (Text × SubscribeOptions)) (key : Connection × Text) :
    (requested (fun filter options => Subscription.ofVersion version filter con options)
        entries).find? (fun sub => sub.key = key) =
      if con = key.1 ∧ Scope.Accepted key.2 then
        (entries.find? fun entry => entry.1 = key.2).map fun entry =>
          Subscription.ofVersion version entry.1 con entry.2
      else none := by
  have keyed : ∀ filter options,
      (Subscription.ofVersion version filter con options).key = (con, filter) := by
    cases version <;> exact fun _ _ => rfl
  unfold requested
  rw [List.find?_map, List.find?_filter]
  by_cases asked : con = key.1 ∧ Scope.Accepted key.2
  · rw [if_pos asked]
    congr 1
    apply List.find?_congr
    intro entry _
    simp only [Function.comp_apply, keyed, decide_eq_true_eq, decide_eq_decide]
    refine ⟨fun both => congrArg Prod.snd both.2, ?_⟩
    intro same
    rw [same]
    exact ⟨asked.2, Prod.ext asked.1 rfl⟩
  · rw [if_neg asked, Option.map_eq_none_iff, List.find?_eq_none]
    intro entry _ both
    simp only [Function.comp_apply, keyed, decide_eq_true_eq] at both
    apply asked
    rw [← both.2]
    exact ⟨rfl, both.1⟩

theorem lookup_subscribeWith {Code : Type} (version : Version) (granted : Qos → Code)
    (refused : Code) (suback : List Code → Packet Property) (con : Connection) (packetId : UInt16)
    (entries : List (Text × SubscribeOptions)) (self : Broker) (key : Connection × Text) :
    (subscribeWith (fun filter options => Subscription.ofVersion version filter con options)
        granted refused suback con entries self).state.subs.lookup key =
      (Event.move key (.subscribe version con packetId entries : Event Opts Property)).apply
        (self.subs.lookup key) := by
  rw [subscribeWith_eq]
  show (List.foldl Table.emplace self.subs _).lookup key = _
  rw [Table.lookup_foldl_emplace]
  have found : (requested (fun filter options => Subscription.ofVersion version filter con options)
        entries).find? (fun sub => sub.key = key) =
      Event.requested key (.subscribe version con packetId entries : Event Opts Property) :=
    find_requested version con entries key
  rw [found]
  unfold Event.move
  cases Event.requested key (.subscribe version con packetId entries : Event Opts Property) with
  | none => exact Option.or_none
  | some sub => rfl

/-- One case for each event: the handler moves the register of a key. -/
theorem lookup_handle (lib : OptionsApi Opts) (self : Session) (event : Event Opts Property)
    (consistent : Session.Consistent self) (enabled : self.enabled event)
    (key : Connection × Text) :
    (handle lib event self.broker).state.subs.lookup key =
      (event.move key).apply (self.broker.subs.lookup key) := by
  have changes := Session.handle_changes lib self event consistent enabled
  cases event with
  | accept con remote =>
      cases remote with
      | none => rfl
      | some address => rfl
  | close con => exact lookup_of_leaves changes key
  | error con =>
      by_cases registered : con ∈ self.broker.connections
      · simp only [Changes, registered, ↓reduceIte] at changes
        exact lookup_of_leaves changes key
      · simp only [Changes, registered, ↓reduceIte] at changes
        rw [changes]
        exact lookup_of_unregistered consistent registered key
  | pingreq con => rfl
  | connect version con clientId => exact congrArg (fun subs => Table.lookup subs key) changes.subs
  | disconnect version con => exact lookup_of_leaves changes key
  | ack version packet con => exact congrArg (fun subs => Table.lookup subs key) changes.subs
  | publish con connected pubopts topicName contents =>
      exact congrArg (fun subs => Table.lookup subs key) changes.subs
  | v5Publish con connected pubopts topicName contents props =>
      exact congrArg (fun subs => Table.lookup subs key) changes.subs
  | subscribe version con packetId entries =>
      cases version with
      | v3 => exact lookup_subscribeWith .v3 _ _ _ con packetId entries self.broker key
      | v5 => exact lookup_subscribeWith .v5 _ _ _ con packetId entries self.broker key
  | unsubscribe version con packetId topics =>
      cases version with
      | v3 => exact lookup_unsubscribe self.broker con packetId topics key
      | v5 => exact lookup_unsubscribe self.broker con packetId topics key
  | injectPublish connected message =>
      exact congrArg (fun subs => Table.lookup subs key) changes.subs

/-- What an event hands out, if it does: the topic, and the packet for each subscription. -/
def handsOut (lib : OptionsApi Opts) :
    Event Opts Property → Option (Text × (Subscription → Option (Packet Property)))
  | .publish _ _ pubopts topicName contents =>
      some (topicName, v3Delivery lib pubopts topicName contents)
  | .v5Publish con _ pubopts topicName contents props =>
      some (topicName, v5Delivery lib con pubopts topicName contents props)
  | .injectPublish _ message => some (message.topic, injectedDelivery lib message)
  | _ => none

/-- A subscription has no packet exactly if the message is withheld from it. -/
theorem packet_eq_none_iff (lib : OptionsApi Opts) {event : Event Opts Property}
    {topicName : Text} {packet : Subscription → Option (Packet Property)}
    (hands : handsOut lib event = some (topicName, packet)) (sub : Subscription) :
    packet sub = none ↔ event.Withholds sub := by
  cases event with
  | publish con connected pubopts topicName contents =>
      cases hands
      simp only [v3Delivery, Event.Withholds, reduceCtorEq]
  | v5Publish con connected pubopts topicName contents props =>
      cases hands
      simp only [v5Delivery, Event.Withholds]
      split
      · rename_i own
        exact iff_of_true rfl own
      · rename_i other
        exact iff_of_false (Option.some_ne_none _) other
  | injectPublish connected message =>
      cases hands
      simp only [injectedDelivery, Event.Withholds]
      cases message.mqttVersion with
      | v3 => simp only [reduceCtorEq]
      | v5 => simp only [reduceCtorEq]
  | accept con remote => cases hands
  | close con => cases hands
  | error con => cases hands
  | pingreq con => cases hands
  | connect version con clientId => cases hands
  | disconnect version con => cases hands
  | ack version packet con => cases hands
  | subscribe version con packetId entries => cases hands
  | unsubscribe version con packetId topics => cases hands

/-- The subscriptions of a list that are sent something, side by side with the sends. -/
theorem forall₂_delivery (topicName : Text) (packet : Subscription → Option (Packet Property))
    (subs : List Subscription) :
    List.Forall₂ (fun sub sent => delivery topicName packet sub = some sent)
      (subs.filter fun sub => (delivery topicName packet sub).isSome)
      (subs.filterMap (delivery topicName packet)) := by
  induction subs with
  | nil => exact List.Forall₂.nil
  | cons sub rest ih =>
      cases sending : delivery topicName packet sub with
      | none =>
          rw [List.filterMap_cons_none sending, List.filter_cons_of_neg (by simp [sending])]
          exact ih
      | some sent =>
          rw [List.filterMap_cons_some sending, List.filter_cons_of_pos (by simp [sending])]
          exact List.Forall₂.cons sending ih

/-- A delivery loop that returns sends one packet through every subscription whose filter
the topic matches and which has a packet, in the order of the table. -/
theorem sends_forEach_deliver_of_ok (connected : Connection → Bool) (topicName : Text)
    (packet : Subscription → Option (Packet Property)) (subs : SubscriptionContainer)
    (state : Broker)
    (ok : (Outcome.forEach (deliver connected topicName packet) subs.entries state).fault = none) :
    ∃ receivers : List Subscription,
      receivers.Pairwise (fun first second => first.rank ≤ second.rank) ∧
      receivers.Nodup ∧
      (∀ sub, sub ∈ receivers ↔ sub ∈ subs.entries ∧
        Scope.Delivers sub.topicFilter topicName ∧ ¬ packet sub = none) ∧
      List.Forall₂ (fun sub sent => sent.1 = sub.con ∧ packet sub = some sent.2) receivers
        (sends (Outcome.forEach (deliver connected topicName packet) subs.entries
          state).effects) := by
  have uniform := deliver_uniform connected topicName packet
  have all : sends (Outcome.forEach (deliver connected topicName packet) subs.entries
      state).effects = subs.entries.filterMap (delivery topicName packet) := by
    rw [uniform.effects_of_ok subs.entries state
      ((uniform.fault_none_iff subs.entries state).mp ok), sends_flatMap_deliveryEffects]
  refine ⟨subs.entries.filter fun sub => (delivery topicName packet sub).isSome,
    subs.sorted.sublist List.filter_sublist, ?_, ?_, ?_⟩
  · exact subs.distinct.of_map.sublist List.filter_sublist
  · intro sub
    rw [List.mem_filter]
    apply and_congr_right
    intro _
    cases chosen : packet sub with
    | none => simp [Option.isSome_iff_exists, delivery_eq_some_iff, chosen]
    | some sent => simp [Option.isSome_iff_exists, delivery_eq_some_iff, chosen]
  · rw [all]
    apply (forall₂_delivery topicName packet subs.entries).imp
    intro sub sent sending
    have delivered := (delivery_eq_some_iff topicName packet sub sent).mp sending
    exact ⟨delivered.2.1.symm, delivered.2.2⟩

/-- A handler that hands out a message sends what its loop over the table sends. -/
theorem sends_of_handsOut (lib : OptionsApi Opts) (event : Event Opts Property) (self : Broker)
    {topicName : Text} {packet : Subscription → Option (Packet Property)}
    (hands : handsOut lib event = some (topicName, packet))
    (ok : (handle lib event self).fault = none) :
    ∃ connected state,
      (Outcome.forEach (deliver connected topicName packet) self.subs.entries state).fault = none ∧
      sends (handle lib event self).effects =
        sends (Outcome.forEach (deliver connected topicName packet) self.subs.entries
          state).effects := by
  cases event with
  | publish con connected pubopts topicName contents =>
      cases hands
      refine ⟨connected, self.touch con, ?_, sends_andThen_share lib _ _ _ _ _ _⟩
      exact ((Outcome.andThen_fault_none_iff _ _).mp ok).1
  | v5Publish con connected pubopts topicName contents props =>
      cases hands
      refine ⟨connected, self.touch con, ?_, sends_andThen_share lib _ _ _ _ _ _⟩
      exact ((Outcome.andThen_fault_none_iff _ _).mp ok).1
  | injectPublish connected message =>
      cases hands
      exact ⟨connected, self, ok, rfl⟩
  | accept con remote => cases hands
  | close con => cases hands
  | error con => cases hands
  | pingreq con => cases hands
  | connect version con clientId => cases hands
  | disconnect version con => cases hands
  | ack version packet con => cases hands
  | subscribe version con packetId entries => cases hands
  | unsubscribe version con packetId topics => cases hands

end Broker

namespace Session

/-- The entry of a key is what its register holds. -/
theorem lookup_run (lib : OptionsApi Opts) (events : List (Event Opts Property))
    (admitted : (machine lib).Admits fresh events) (key : Connection × Text) :
    ((machine lib).run fresh events).broker.subs.lookup key =
      held (events.map (Event.move key)) := by
  have reading := (machine lib).run_reading (fun state => state.broker.subs.lookup key)
    (fun held event => (Event.move key event).apply held) Consistent (consistent_step lib)
    (fun state event enabled consistent =>
      Broker.lookup_handle lib state event consistent enabled key)
    fresh events admitted fresh_consistent
  unfold held
  rw [List.foldl_map]
  exact reading

/-- After every run, the table holds a subscription exactly when it is that of the
first request for its connection and filter since they were last cleared. -/
theorem subs_inForce (lib : OptionsApi Opts) (events : List (Event Opts Property))
    (admitted : (machine lib).Admits fresh events) (sub : Subscription) :
    sub ∈ ((machine lib).run fresh events).broker.subs.entries ↔
      InForce (events.map (Event.move sub.key)) sub := by
  rw [← held_eq_some_iff, ← lookup_run lib events admitted, Table.lookup_eq_some_iff]
  exact ⟨fun member => ⟨member, rfl⟩, fun found => found.1⟩

theorem subs_inForce_sharedFilter :
    (⟨bytes "a", 2, .atLeastOnce, .dont, .no⟩ : Subscription) ∈
        ((machine byteOptions).run fresh sharedFilter).broker.subs.entries ↔
      InForce (sharedFilter.map (Event.move (2, bytes "a")))
        ⟨bytes "a", 2, .atLeastOnce, .dont, .no⟩ :=
  subs_inForce byteOptions sharedFilter (by decide) ⟨bytes "a", 2, .atLeastOnce, .dont, .no⟩

/-- After every run, a publish, of a client or from another adapter, whose handler
returns is sent once through each subscription in force whose filter its topic
matches, in the order of the filters, and through no other. A publish of a v5 client
passes over the client's own subscriptions with No Local. -/
theorem publish_inForce (lib : OptionsApi Opts) (events : List (Event Opts Property))
    (admitted : (machine lib).Admits fresh events) (event : Event Opts Property)
    (topicName : Text) (packet : Subscription → Option (Packet Property))
    (hands : Broker.handsOut lib event = some (topicName, packet))
    (ok : (Broker.handle lib event ((machine lib).run fresh events).broker).fault = none) :
    ∃ receivers : List Subscription,
      receivers.Pairwise (fun first second => first.rank ≤ second.rank) ∧
      receivers.Nodup ∧
      (∀ sub, sub ∈ receivers ↔
        InForce (events.map (Event.move sub.key)) sub ∧
          Scope.Delivers sub.topicFilter topicName ∧ ¬ event.Withholds sub) ∧
      List.Forall₂ (fun sub sent => sent.1 = sub.con ∧ packet sub = some sent.2) receivers
        (Broker.sends
          (Broker.handle lib event ((machine lib).run fresh events).broker).effects) := by
  obtain ⟨connected, state, returns, sent⟩ := Broker.sends_of_handsOut lib event _ hands ok
  obtain ⟨receivers, sorted, distinct, held, all⟩ :=
    Broker.sends_forEach_deliver_of_ok connected topicName packet _ state returns
  rw [← sent] at all
  refine ⟨receivers, sorted, distinct, ?_, all⟩
  intro sub
  rw [held, ← held_eq_some_iff, ← lookup_run lib events admitted, Table.lookup_eq_some_iff,
    Broker.packet_eq_none_iff lib hands, eq_self_iff_true, and_true]

/-- Three subscribers to one filter, the last of them with No Local. -/
def noLocalShared : List (Event UInt8 Text) :=
  sharedFilter ++ [.accept 3 (some {}), .connect .v5 3 (bytes "three"),
    .subscribe .v5 3 1 [(bytes "a", ⟨.exactlyOnce, .dont, .yes⟩)]]

/-- The last of them publishes, and only the others are sent the message. -/
def noLocalPublish : Event UInt8 Text :=
  .v5Publish 3 (fun _ => true) 0 (bytes "a") (bytes "hello") []

theorem publish_inForce_noLocalShared :
    (Broker.sends (Broker.handle byteOptions noLocalPublish
        ((machine byteOptions).run fresh noLocalShared).broker).effects).map Prod.fst = [1, 2] ∧
    ∃ receivers : List Subscription,
      receivers.Pairwise (fun first second => first.rank ≤ second.rank) ∧
      receivers.Nodup ∧
      (∀ sub, sub ∈ receivers ↔
        InForce (noLocalShared.map (Event.move sub.key)) sub ∧
          Scope.Delivers sub.topicFilter (bytes "a") ∧ ¬ noLocalPublish.Withholds sub) ∧
      List.Forall₂
        (fun sub sent => sent.1 = sub.con ∧
          Broker.v5Delivery byteOptions 3 0 (bytes "a") (bytes "hello") [] sub = some sent.2)
        receivers
        (Broker.sends (Broker.handle byteOptions noLocalPublish
          ((machine byteOptions).run fresh noLocalShared).broker).effects) :=
  ⟨by decide, publish_inForce byteOptions noLocalShared (by decide) noLocalPublish (bytes "a")
    (Broker.v5Delivery byteOptions 3 0 (bytes "a") (bytes "hello") []) rfl (by decide)⟩

end Session

end OctopusMq
