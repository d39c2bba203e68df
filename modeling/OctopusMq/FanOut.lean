import OctopusMq.Delivery

set_option autoImplicit false

/- What a whole publish sends: to whom when a socket of a subscriber is not
connected any more, and by which of the three loops. -/
namespace OctopusMq.Broker

open Imperative OrderedTable Transition

variable {Opts Property : Type}

section Loop

variable (connected : Connection → Bool) (topicName : Text)
  (packet : Subscription → Option (Packet Property))

theorem sends_deliveryEffects (sub : Subscription) :
    sends (deliveryEffects topicName packet sub) = (delivery topicName packet sub).toList := by
  unfold deliveryEffects
  cases delivery topicName packet sub with
  | none => rfl
  | some sent => rfl

theorem sends_flatMap_deliveryEffects (subs : List Subscription) :
    sends (subs.flatMap (deliveryEffects topicName packet)) =
      subs.filterMap (delivery topicName packet) := by
  induction subs with
  | nil => rfl
  | cons sub rest ih =>
      rw [List.flatMap_cons, sends_append, ih, sends_deliveryEffects]
      cases sending : delivery topicName packet sub with
      | none => simp [sending]
      | some sent => simp [sending]

/-- A subscription at which the loop stops is not served. -/
theorem Stops.not_served {connected : Connection → Bool} {topicName : Text}
    {packet : Subscription → Option (Packet Property)} {sub : Subscription}
    (stops : Stops connected topicName packet sub) : ¬ Served connected topicName packet sub := by
  intro served
  rcases stops with overreads | dead
  · have found := (Scope.matchesFilter_true_iff _ _).mpr served.1.1
    rw [(Scope.matchesFilter_outOfRange_iff _ _).mpr overreads] at found
    cases found
  · exact Bool.false_ne_true (dead.2.symm.trans served.2)

/-- The deliveries on connected sockets are those of the served subscriptions. -/
theorem connected_deliveries_eq_nil_iff (subs : List Subscription) :
    (subs.filterMap (delivery topicName packet)).filter (fun sent => connected sent.1) = [] ↔
      ∀ sub ∈ subs, ¬ Served connected topicName packet sub := by
  simp only [List.filter_eq_nil_iff, List.mem_filterMap, served_iff]
  refine ⟨?_, ?_⟩
  · intro none sub member served
    obtain ⟨sent, sending, alive⟩ := served
    exact none sent ⟨sub, member, sending⟩ alive
  · intro none sent found alive
    obtain ⟨sub, member, sending⟩ := found
    exact none sub member ⟨sent, sending, alive⟩

/-- A loop that stops at no subscription serves all of them. -/
theorem servesConnected_of_unstopped (self state : Broker)
    (unstopped : ∀ sub ∈ self.subs.entries, ¬ Stops connected topicName packet sub) :
    ServesConnected connected topicName packet self.subs
      (Outcome.forEach (deliver connected topicName packet) self.subs.entries state) := by
  have uniform := deliver_uniform connected topicName packet
  have effects := uniform.effects_of_ok self.subs.entries state
    (fun sub member => (deliveryFault_none_iff _ _ _ sub).mpr (unstopped sub member))
  unfold ServesConnected
  rw [effects, sends_flatMap_deliveryEffects]
  exact List.filter_sublist

/-- A loop that stops serves everyone exactly when nobody behind the stop was to be served. -/
theorem servesConnected_of_stop (self state : Broker) (before after : List Subscription)
    (sub : Subscription) (split : self.subs.entries = before ++ sub :: after)
    (unstopped : ∀ earlier ∈ before, ¬ Stops connected topicName packet earlier)
    (stops : Stops connected topicName packet sub) :
    ServesConnected connected topicName packet self.subs
        (Outcome.forEach (deliver connected topicName packet) self.subs.entries state) ↔
      ∀ later ∈ after, ¬ Served connected topicName packet later := by
  have uniform := deliver_uniform connected topicName packet
  have ok : ∀ earlier ∈ before, deliveryFault connected topicName packet earlier = none :=
    fun earlier member => (deliveryFault_none_iff _ _ _ earlier).mpr (unstopped earlier member)
  obtain ⟨fault, failed⟩ := Option.ne_none_iff_exists'.mp
    (mt (deliveryFault_none_iff connected topicName packet sub).mp (not_not_intro stops))
  have effects := (uniform.stop before after sub fault state ok failed).2
  have here := (connected_deliveries_eq_nil_iff connected topicName packet [sub]).mpr
    (by simpa using stops.not_served)
  have own : [sub].filterMap (delivery topicName packet) =
      sends (deliveryEffects topicName packet sub) := by
    rw [← sends_flatMap_deliveryEffects, List.flatMap_singleton]
  rw [own] at here
  rw [← connected_deliveries_eq_nil_iff, ServesConnected, split, effects, sends_append,
    sends_flatMap_deliveryEffects, List.filterMap_append, List.filter_append,
    ← List.singleton_append, List.filterMap_append, List.filter_append, own, here,
    List.nil_append]
  refine ⟨?_, ?_⟩
  · intro served
    -- On connected sockets the loop has sent what is due before the stop, and no more.
    have counted := (served.filter fun sent => connected sent.1).length_le
    simp only [List.filter_append, List.filter_filter, Bool.and_self, here, List.append_nil,
      List.length_append] at counted
    exact List.eq_nil_of_length_eq_zero (by omega)
  · intro none
    rw [none, List.append_nil]
    exact List.filter_sublist.trans (List.sublist_append_left _ _)

/-- The loop serves every connected subscriber exactly when no subscription at
which it would stop has one to be served behind it. -/
theorem servesConnected_iff (self state : Broker) :
    ServesConnected connected topicName packet self.subs
        (Outcome.forEach (deliver connected topicName packet) self.subs.entries state) ↔
      self.subs.entries.Pairwise fun first later =>
        Stops connected topicName packet first → ¬ Served connected topicName packet later := by
  rcases Outcome.firstFault (deliveryFault connected topicName packet) self.subs.entries with
    ok | ⟨before, sub, after, fault, split, ok, failed⟩
  · simp only [deliveryFault_none_iff] at ok
    refine ⟨?_, ?_⟩
    · intro _
      exact List.pairwise_of_forall_mem_list fun first member _ _ stops =>
        absurd stops (ok first member)
    · intro _
      exact servesConnected_of_unstopped connected topicName packet self state ok
  · simp only [deliveryFault_none_iff] at ok
    have stops : Stops connected topicName packet sub := by
      apply Classical.byContradiction
      intro unstopped
      rw [(deliveryFault_none_iff _ _ _ sub).mpr unstopped] at failed
      cases failed
    rw [servesConnected_of_stop connected topicName packet self state before after sub split ok
      stops, split, List.pairwise_append, List.pairwise_cons]
    refine ⟨?_, ?_⟩
    · intro none
      refine ⟨?_, ⟨fun later member _ => none later member, ?_⟩, ?_⟩
      · exact List.pairwise_of_forall_mem_list fun first member _ _ stop =>
          absurd stop (ok first member)
      · exact List.pairwise_of_forall_mem_list fun _ _ later member _ => none later member
      · exact fun first member _ _ stop => absurd stop (ok first member)
    · intro ordered later member
      exact ordered.2.1.1 later member stops

end Loop

/-- The fan-out of a publish handler: connected subscribers are served, and the
message goes to the global queue. -/
def FaultIsolated (connected : Connection → Bool) (topicName : Text)
    (packet : Subscription → Option (Packet Property)) (message : Message Property)
    (subs : SubscriptionContainer) (outcome : Result Property) : Prop :=
  ServesConnected connected topicName packet subs outcome ∧ pushes outcome.effects = [message]

/-- A publish handler isolates faults exactly when its loop meets none: `share`
comes behind the loop. -/
theorem faultIsolated_andThen_share_iff (lib : OptionsApi Opts) (connected : Connection → Bool)
    (topicName contents : Text) (packet : Subscription → Option (Packet Property))
    (pubopts : Opts) (version : Version) (props : List Property) (self state : Broker) :
    FaultIsolated connected topicName packet
        (sharedMessage lib topicName contents pubopts version props) self.subs
        ((Outcome.forEach (deliver connected topicName packet) self.subs.entries state).andThen
          (share lib topicName contents pubopts version props)) ↔
      ∀ sub ∈ self.subs.entries, ¬ Stops connected topicName packet sub := by
  have uniform := deliver_uniform connected topicName packet
  have noPush := pushes_forEach_deliver connected topicName packet self.subs.entries state
  have finished := uniform.fault_none_iff self.subs.entries state
  simp only [deliveryFault_none_iff] at finished
  rw [← finished]
  refine ⟨?_, ?_⟩
  · intro isolated
    apply Option.eq_none_iff_forall_ne_some.mpr
    intro fault failed
    have pushed := isolated.2
    rw [Outcome.andThen_of_fault _ _ fault failed, noPush] at pushed
    cases pushed
  · intro ok
    have served := servesConnected_of_unstopped connected topicName packet self state
      (finished.mp ok)
    rw [FaultIsolated, ServesConnected, Outcome.andThen_of_ok _ _ ok, sends_append, pushes_append,
      noPush]
    exact ⟨List.Sublist.trans served (List.sublist_append_left _ _), rfl⟩

/-- A dead socket does not cost the other subscribers and adapters the message
exactly when, in a publish handler, the loop meets no dead socket at all, and in
`inject_publish`, nobody is to be served behind one. -/
theorem publish_faultIsolated_iff (lib : OptionsApi Opts) (connected : Connection → Bool)
    (self : Broker) :
    (∀ con pubopts topicName contents,
      FaultIsolated connected topicName (v3Delivery lib pubopts topicName contents)
          (sharedMessage lib topicName contents pubopts .v3 ([] : List Property)) self.subs
          (publishHandler lib connected con pubopts topicName contents self) ↔
        ∀ sub ∈ self.subs.entries, ¬ Stops connected topicName
          (v3Delivery lib pubopts topicName contents :
            Subscription → Option (Packet Property)) sub) ∧
    (∀ con pubopts topicName contents (props : List Property),
      FaultIsolated connected topicName (v5Delivery lib con pubopts topicName contents props)
          (sharedMessage lib topicName contents pubopts .v5 props) self.subs
          (v5PublishHandler lib connected con pubopts topicName contents props self) ↔
        ∀ sub ∈ self.subs.entries, ¬ Stops connected topicName
          (v5Delivery lib con pubopts topicName contents props) sub) ∧
    (∀ message : Message Property,
      ServesConnected connected message.topic (injectedDelivery lib message) self.subs
          (injectPublish lib connected message self) ↔
        self.subs.entries.Pairwise fun first later =>
          Stops connected message.topic (injectedDelivery lib message) first →
            ¬ Served connected message.topic (injectedDelivery lib message) later) := by
  refine ⟨?_, ?_, ?_⟩
  · intro con pubopts topicName contents
    exact faultIsolated_andThen_share_iff lib connected topicName contents _ pubopts .v3 [] self _
  · intro con pubopts topicName contents props
    exact faultIsolated_andThen_share_iff lib connected topicName contents _ pubopts .v5 props
      self _
  · intro message
    exact servesConnected_iff connected message.topic _ self self

/-- The first of two subscribers to a filter has lost its connection: the other
one is not served, and no message reaches the global queue. -/
theorem publish_not_faultIsolated :
    ¬ (∀ (state : Session) (connected : Connection → Bool) (con : Connection)
        (topicName contents : Text),
      (Session.machine byteOptions : Machine Session (Event UInt8 Text)).Reachable
        Session.fresh state →
      FaultIsolated connected topicName (v3Delivery byteOptions 0 topicName contents)
        (sharedMessage byteOptions topicName contents 0 .v3 ([] : List Text)) state.broker.subs
        (publishHandler byteOptions connected con 0 topicName contents state.broker)) ∧
    ¬ (∀ (state : Session) (connected : Connection → Bool) (con : Connection)
        (topicName contents : Text),
      (Session.machine byteOptions : Machine Session (Event UInt8 Text)).Reachable
        Session.fresh state →
      FaultIsolated connected topicName (v5Delivery byteOptions con 0 topicName contents [])
        (sharedMessage byteOptions topicName contents 0 .v5 ([] : List Text)) state.broker.subs
        (v5PublishHandler byteOptions connected con 0 topicName contents [] state.broker)) ∧
    ¬ (∀ (state : Session) (connected : Connection → Bool) (message : Message Text),
      (Session.machine byteOptions : Machine Session (Event UInt8 Text)).Reachable
        Session.fresh state →
      ServesConnected connected message.topic (injectedDelivery byteOptions message)
        state.broker.subs (injectPublish byteOptions connected message state.broker)) := by
  have reached : (Session.machine byteOptions : Machine Session (Event UInt8 Text)).Reachable
      Session.fresh ((Session.machine byteOptions).run Session.fresh Session.sharedFilter) :=
    ⟨Session.sharedFilter, by decide, rfl⟩
  refine ⟨?_, ?_, ?_⟩
  · intro isolated
    have lost := (isolated _ (fun con => con ≠ 1) 2 (bytes "a") [] reached).2
    exact absurd lost (by decide)
  · intro isolated
    have lost := (isolated _ (fun con => con ≠ 1) 2 (bytes "a") [] reached).2
    exact absurd lost (by decide)
  · intro serves
    have lost := serves _ (fun con => con ≠ 1) ⟨[], bytes "a", 0, .v3, []⟩ reached
    unfold ServesConnected at lost
    exact absurd lost (by decide)

theorem injectedDelivery_sharedMessage_v3 (lib : OptionsApi Opts) (round : lib.RoundTrip)
    (topicName contents : Text) (pubopts : Opts) :
    injectedDelivery lib
        (sharedMessage lib topicName contents pubopts .v3 ([] : List Property)) =
      v3Delivery lib pubopts topicName contents := by
  funext sub
  simp only [injectedDelivery, sharedMessage, v3Delivery, round pubopts]

/-- Without No Local nothing tells the v5 handler from `inject_publish`. -/
theorem injectedDelivery_sharedMessage_v5 (lib : OptionsApi Opts) (round : lib.RoundTrip)
    (con : Connection) (topicName contents : Text) (pubopts : Opts) (props : List Property)
    (sub : Subscription) (foreign : sub.con ≠ con) :
    injectedDelivery lib (sharedMessage lib topicName contents pubopts .v5 props) sub =
      v5Delivery lib con pubopts topicName contents props sub := by
  simp only [injectedDelivery, sharedMessage, v5Delivery, round pubopts, foreign, and_false,
    ↓reduceIte]

/-- Two loops over one table send the same when they choose the same packets. -/
theorem forEach_deliver_effects_eq (connected : Connection → Bool) (topicName : Text)
    (packet packet' : Subscription → Option (Packet Property)) (self state state' : Broker)
    (same : ∀ sub ∈ self.subs.entries, packet sub = packet' sub) :
    (Outcome.forEach (deliver connected topicName packet) self.subs.entries state).effects =
      (Outcome.forEach (deliver connected topicName packet') self.subs.entries state').effects := by
  have bodies : Outcome.forEach (deliver connected topicName packet') self.subs.entries state' =
      Outcome.forEach (deliver connected topicName packet) self.subs.entries state' := by
    apply Outcome.forEach_congr
    intro sub member other
    simp only [deliver, same sub member]
  have uniform := deliver_uniform connected topicName packet
  rw [bodies]
  exact (uniform.agree uniform self.subs.entries state state').1

/-- A publish handler sends what `inject_publish` sends for the shared message on
another broker with the same table, none of it the publisher's. -/
theorem publish_sends_eq_inject (lib : OptionsApi Opts) (round : lib.RoundTrip)
    (connected : Connection → Bool) (con : Connection) (self other : Broker)
    (sameTable : other.subs = self.subs) (foreign : ∀ sub ∈ self.subs.entries, sub.con ≠ con) :
    (∀ pubopts topicName contents,
      sends (publishHandler lib connected con pubopts topicName contents self).effects =
        sends (injectPublish lib connected
          (sharedMessage lib topicName contents pubopts .v3 ([] : List Property)) other).effects) ∧
    (∀ pubopts topicName contents (props : List Property),
      sends (v5PublishHandler lib connected con pubopts topicName contents props self).effects =
        sends (injectPublish lib connected
          (sharedMessage lib topicName contents pubopts .v5 props) other).effects) := by
  refine ⟨?_, ?_⟩
  · intro pubopts topicName contents
    rw [publishHandler, sends_andThen_share, injectPublish, sameTable,
      injectedDelivery_sharedMessage_v3 lib round]
    apply congrArg sends
    exact forEach_deliver_effects_eq connected topicName _ _ self _ _ fun _ _ => rfl
  · intro pubopts topicName contents props
    rw [v5PublishHandler, sends_andThen_share, injectPublish, sameTable]
    apply congrArg sends
    apply forEach_deliver_effects_eq connected topicName _ _ self
    intro sub member
    exact (injectedDelivery_sharedMessage_v5 lib round con topicName contents pubopts props sub
      (foreign sub member)).symm

/-- A third connection publishes to the two subscribers of `a`. -/
theorem publish_sends_eq_inject_shared :
    (∀ pubopts topicName contents,
      sends (publishHandler byteOptions (fun _ => true) 3 pubopts topicName contents
          ((Session.machine byteOptions).run Session.fresh Session.sharedFilter).broker).effects =
        sends (injectPublish byteOptions (fun _ => true)
          (sharedMessage byteOptions topicName contents pubopts .v3 ([] : List Text))
          ⟨∅, fun _ => none, ((Session.machine byteOptions).run Session.fresh
            Session.sharedFilter).broker.subs⟩).effects) ∧
    (∀ pubopts topicName contents (props : List Text),
      sends (v5PublishHandler byteOptions (fun _ => true) 3 pubopts topicName contents props
          ((Session.machine byteOptions).run Session.fresh Session.sharedFilter).broker).effects =
        sends (injectPublish byteOptions (fun _ => true)
          (sharedMessage byteOptions topicName contents pubopts .v5 props)
          ⟨∅, fun _ => none, ((Session.machine byteOptions).run Session.fresh
            Session.sharedFilter).broker.subs⟩).effects) :=
  publish_sends_eq_inject byteOptions byteOptions_roundTrip (fun _ => true) 3
    ((Session.machine byteOptions).run Session.fresh Session.sharedFilter).broker
    ⟨∅, fun _ => none,
      ((Session.machine byteOptions).run Session.fresh Session.sharedFilter).broker.subs⟩
    rfl (by decide)

end OctopusMq.Broker
