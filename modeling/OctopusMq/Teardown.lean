import OctopusMq.Lifecycle
import OctopusMq.FanOut
import OctopusMq.Conversation

set_option autoImplicit false

/- What `close_connection` takes away, and what it leaves to the other connections. -/
namespace OctopusMq

open Imperative OrderedTable Transition

variable {Opts Property : Type}

namespace Broker

/-- All entries of the connection are gone from the three containers, and no other is. -/
structure Removes (con : Connection) (before after : Broker) : Prop where
  connections : after.connections = before.connections.erase con
  own : after.metadata con = none
  metadata : ∀ other, other ≠ con → after.metadata other = before.metadata other
  subs : after.subs.entries = before.subs.entries.filter fun sub => sub.con ≠ con

theorem closeConnection_removes (self : Broker) (con : Connection) :
    Removes con self (self.closeConnection con) := by
  refine ⟨Finset.erase_idem, ?_, ?_, ?_⟩
  · change Function.update self.metadata con none con = none
    exact Function.update_self con none self.metadata
  · intro other different
    exact Function.update_of_ne different none self.metadata
  · change self.subs.entries.filter (fun sub => !decide (sub.con = con)) = _
    simp only [ne_eq, decide_not]

theorem eq_of_parts {self other : Broker} (connections : self.connections = other.connections)
    (metadata : ∀ con, self.metadata con = other.metadata con)
    (subs : self.subs.entries = other.subs.entries) : self = other := by
  obtain ⟨_, _, table⟩ := self
  obtain ⟨_, _, otherTable⟩ := other
  cases connections
  cases funext metadata
  cases (Table.ext_entries subs : table = otherTable)
  rfl

/-- What is removed leaves nothing to choose. -/
theorem Removes.eq {con : Connection} {before after other : Broker}
    (first : Removes con before after) (second : Removes con before other) : after = other := by
  apply eq_of_parts
  · rw [first.connections, second.connections]
  · intro key
    by_cases same : key = con
    · rw [same, first.own, second.own]
    · rw [first.metadata key same, second.metadata key same]
  · rw [first.subs, second.subs]

theorem closeConnection_idem (self : Broker) (con : Connection) :
    (self.closeConnection con).closeConnection con = self.closeConnection con := by
  have once := closeConnection_removes self con
  have twice := closeConnection_removes (self.closeConnection con) con
  have removes : Removes con self ((self.closeConnection con).closeConnection con) := by
    refine ⟨?_, twice.own, ?_, ?_⟩
    · rw [twice.connections, once.connections, Finset.erase_idem]
    · intro other different
      rw [twice.metadata other different, once.metadata other different]
    · simp only [twice.subs, once.subs, List.filter_filter, Bool.and_self]
  exact removes.eq once

theorem updateMetadata_own (self : Broker) (con : Connection) (write : Metadata → Metadata) :
    (self.updateMetadata con write).metadata con = some (write ((self.metadata con).getD {})) :=
  Function.update_self con _ self.metadata

theorem updateMetadata_other (self : Broker) {con other : Connection} (different : other ≠ con)
    (write : Metadata → Metadata) :
    (self.updateMetadata con write).metadata other = self.metadata other :=
  Function.update_of_ne different _ self.metadata

theorem touch_closeConnection (self : Broker) (con : Connection) :
    (self.touch con).closeConnection con = self.closeConnection con := by
  have touched := closeConnection_removes (self.touch con) con
  have removes : Removes con self ((self.touch con).closeConnection con) := by
    refine ⟨touched.connections, touched.own, ?_, touched.subs⟩
    intro other different
    rw [touched.metadata other different]
    exact self.updateMetadata_other different id
  exact removes.eq (closeConnection_removes self con)

theorem closeConnection_comm (self : Broker) (con other : Connection) :
    (self.closeConnection con).closeConnection other =
      (self.closeConnection other).closeConnection con := by
  apply eq_of_parts
  · simp only [(closeConnection_removes _ _).connections]
    exact Finset.erase_right_comm
  · intro key
    by_cases same : key = con
    · subst same
      by_cases own : key = other
      · rw [own]
      · rw [(closeConnection_removes _ other).metadata key own,
          (closeConnection_removes _ key).own, (closeConnection_removes _ key).own]
    · by_cases own : key = other
      · subst own
        rw [(closeConnection_removes _ con).metadata key same,
          (closeConnection_removes _ key).own, (closeConnection_removes _ key).own]
      · simp only [(closeConnection_removes _ other).metadata key own,
          (closeConnection_removes _ con).metadata key same]
  · simp only [(closeConnection_removes _ _).subs, List.filter_filter, Bool.and_comm]

/-- A handler of another connection writes to other entries of `_meta`. -/
theorem updateMetadata_closeConnection (self : Broker) {con other : Connection}
    (different : other ≠ con) (write : Metadata → Metadata) :
    (self.updateMetadata other write).closeConnection con =
      (self.closeConnection con).updateMetadata other write := by
  have removes := closeConnection_removes self con
  apply eq_of_parts
  · rw [(closeConnection_removes _ con).connections]
    exact removes.connections.symm
  · intro key
    by_cases same : key = con
    · subst same
      rw [(closeConnection_removes _ key).own, updateMetadata_other _ different.symm, removes.own]
    · rw [(closeConnection_removes _ con).metadata key same]
      by_cases own : key = other
      · rw [own, updateMetadata_own, updateMetadata_own, removes.metadata other different]
      · rw [updateMetadata_other _ own, updateMetadata_other _ own, removes.metadata key same]
  · rw [(closeConnection_removes _ con).subs]
    exact removes.subs.symm

theorem touch_eq_self (self : Broker) (con : Connection) (known : self.Known con) :
    self.touch con = self := by
  obtain ⟨entry, found⟩ := Option.isSome_iff_exists.mp known
  refine eq_of_parts rfl ?_ rfl
  intro key
  unfold touch
  by_cases same : key = con
  · rw [same, updateMetadata_own, found]
    rfl
  · rw [updateMetadata_other _ same]

/-- The delivery loop leaves the broker as it is when `_meta` has all subscribers. -/
theorem forEach_deliver_state (connected : Connection → Bool) (topicName : Text)
    (packet : Subscription → Option (Packet Property)) (subs : List Subscription) (self : Broker)
    (known : ∀ sub ∈ subs, self.Known sub.con) :
    (Outcome.forEach (deliver connected topicName packet) subs self).state = self := by
  apply Outcome.forEach_invariant (fun state => state = self) _ _ _ self rfl
  intro sub member state same
  rw [same]
  by_cases served : Served connected topicName packet sub
  · rw [deliver_state_of_served _ _ _ self served, touch_eq_self self sub.con (known sub member)]
  · exact deliver_state_of_not_served _ _ _ self served

theorem filterMap_delivery_filter (topicName : Text)
    (packet : Subscription → Option (Packet Property)) (con : Connection)
    (subs : List Subscription) :
    (subs.filter fun sub => sub.con ≠ con).filterMap (delivery topicName packet) =
      (subs.filterMap (delivery topicName packet)).filter fun sent => sent.1 ≠ con := by
  induction subs with
  | nil => rfl
  | cons sub rest ih =>
      cases sending : delivery topicName packet sub with
      | none => by_cases own : sub.con = con <;> simpa [own, sending] using ih
      | some sent =>
          have receiver := ((delivery_eq_some_iff topicName packet sub sent).mp sending).2.1
          by_cases own : sub.con = con
          · simpa [← receiver, own, sending] using ih
          · simpa [← receiver, own, sending] using ih

/-- Without the subscriptions of `con`, a loop that is not left early sends the
same to all others. -/
theorem forEach_deliver_without (connected : Connection → Bool) (topicName : Text)
    (packet : Subscription → Option (Packet Property)) (con : Connection)
    (subs : List Subscription) (self other : Broker)
    (ok : (Outcome.forEach (deliver connected topicName packet) subs self).fault = none) :
    (Outcome.forEach (deliver connected topicName packet)
        (subs.filter fun sub => sub.con ≠ con) other).fault = none ∧
      sends (Outcome.forEach (deliver connected topicName packet)
          (subs.filter fun sub => sub.con ≠ con) other).effects =
        (sends (Outcome.forEach (deliver connected topicName packet) subs self).effects).filter
          fun sent => sent.1 ≠ con := by
  have uniform := deliver_uniform connected topicName packet
  have each := (uniform.fault_none_iff subs self).mp ok
  have fewer : ∀ sub ∈ subs.filter fun sub => sub.con ≠ con,
      deliveryFault connected topicName packet sub = none :=
    fun sub member => each sub (List.mem_filter.mp member).1
  refine ⟨(uniform.fault_none_iff _ other).mpr fewer, ?_⟩
  rw [uniform.effects_of_ok _ other fewer, uniform.effects_of_ok _ self each,
    sends_flatMap_deliveryEffects, sends_flatMap_deliveryEffects, filterMap_delivery_filter]

theorem register_closeConnection (self : Broker) {con other : Connection}
    (different : other ≠ con) :
    ({ self with connections := insert other self.connections } : Broker).closeConnection con =
      { self.closeConnection con with
        connections := insert other (self.closeConnection con).connections } := by
  have removes := closeConnection_removes self con
  have registered := closeConnection_removes
    ({ self with connections := insert other self.connections } : Broker) con
  apply eq_of_parts
  · rw [registered.connections, removes.connections]
    exact Finset.erase_insert_of_ne different
  · intro key
    rfl
  · rfl

theorem subscribeWith_closeConnection {Code : Type}
    (subscription : Text → SubscribeOptions → Subscription) (granted : Qos → Code)
    (refused : Code) (suback : List Code → Packet Property) {con other : Connection}
    (keyed : ∀ filter options, (subscription filter options).key = (other, filter))
    (different : other ≠ con) (entries : List (Text × SubscribeOptions)) (self : Broker) :
    (subscribeWith subscription granted refused suback other entries
        (self.closeConnection con)).state =
      (subscribeWith subscription granted refused suback other entries
        self).state.closeConnection con := by
  have touched := self.updateMetadata_closeConnection different id
  have spared : ∀ sub ∈ requested subscription entries, decide (sub.con = con) = false := by
    intro sub member
    obtain ⟨entry, _, same⟩ := List.mem_map.mp member
    have own : sub.con = other := by
      rw [← same]
      exact congrArg Prod.fst (keyed entry.1 entry.2)
    simp [own, different]
  have tables := Table.foldl_emplace_eraseWhere (fun sub => decide (sub.con = con))
    (requested subscription entries) self.subs
    (fun first second same => by rw [show first.con = second.con from congrArg Prod.fst same])
    spared
  rw [subscribeWith_eq, subscribeWith_eq]
  apply eq_of_parts
  · exact (congrArg Broker.connections touched).symm
  · exact fun key => (congrFun (congrArg Broker.metadata touched) key).symm
  · exact (congrArg Table.entries tables).symm

theorem unsubscribe_closeConnection {con other : Connection} (different : other ≠ con)
    (packetId : UInt16) (topics : List Text) (self : Broker) :
    (unsubscribe other packetId topics (self.closeConnection con) : Result Property).state =
      (unsubscribe other packetId topics self : Result Property).state.closeConnection con := by
  have touched := self.updateMetadata_closeConnection different id
  have removes := closeConnection_removes
    (unsubscribe other packetId topics self : Result Property).state con
  apply eq_of_parts
  · exact (congrArg Broker.connections touched).symm
  · exact fun key => (congrFun (congrArg Broker.metadata touched) key).symm
  · rw [removes.subs, unsubscribe_entries, unsubscribe_entries,
      (closeConnection_removes self con).subs, List.filter_filter, List.filter_filter]
    simp only [Bool.and_comm]

theorem Known.closeConnection {self : Broker} {con other : Connection} (known : self.Known other)
    (different : other ≠ con) : (self.closeConnection con).Known other := by
  unfold Broker.Known
  rw [(closeConnection_removes self con).metadata other different]
  exact known

/-- Every subscriber that is left is still in `_meta`. -/
theorem known_closeConnection {self : Broker} (con : Connection)
    (known : ∀ sub ∈ self.subs.entries, self.Known sub.con) :
    ∀ sub ∈ (self.closeConnection con).subs.entries, (self.closeConnection con).Known sub.con := by
  intro sub member
  rw [(closeConnection_removes self con).subs, List.mem_filter] at member
  have different : sub.con ≠ con := by simpa using member.2
  exact (known sub member.1).closeConnection different

theorem errorHandler_closeConnection (self : Broker) {con other : Connection}
    (different : other ≠ con) :
    (errorHandler other (self.closeConnection con) : Result Property).state =
      (errorHandler other self : Result Property).state.closeConnection con := by
  have same : other ∈ (self.closeConnection con).connections ↔ other ∈ self.connections := by
    rw [(closeConnection_removes self con).connections, Finset.mem_erase]
    exact and_iff_right different
  unfold errorHandler
  by_cases registered : other ∈ self.connections
  · rw [if_pos registered, if_pos (same.mpr registered)]
    simp only [Outcome.done_state, touch_closeConnection]
    exact closeConnection_comm self con other
  · rw [if_neg registered, if_neg (mt same.mp registered)]
    rfl

theorem errorHandler_silent (other : Connection) (self : Broker) :
    (errorHandler other self : Result Property).fault = none ∧
      sends (errorHandler other self : Result Property).effects = [] := by
  unfold errorHandler
  split
  · exact ⟨rfl, rfl⟩
  · exact ⟨rfl, rfl⟩

theorem connectWith_closeConnection (version : Version) (self : Broker) {con other : Connection}
    (different : other ≠ con) (clientId : Text) :
    (connectWith version other clientId (self.closeConnection con) : Result Property).state =
      (connectWith version other clientId self : Result Property).state.closeConnection con := by
  unfold connectWith
  rw [Outcome.emit_state, Outcome.emit_state, updateMetadata_closeConnection _ different,
    register_closeConnection _ different]

/-- A publish reads `_meta` at keys that are there, also after the closing. -/
theorem publish_closeConnection (lib : OptionsApi Opts) {self : Broker} {con other : Connection}
    (known : ∀ sub ∈ self.subs.entries, self.Known sub.con) (publisher : self.Known other)
    (different : other ≠ con) (connected : Connection → Bool) (topicName contents : Text)
    (packet : Subscription → Option (Packet Property)) (pubopts : Opts) (version : Version)
    (props : List Property) :
    ((Outcome.forEach (deliver connected topicName packet) (self.closeConnection con).subs.entries
      ((self.closeConnection con).touch other)).andThen
        (share lib topicName contents pubopts version props)).state =
    ((Outcome.forEach (deliver connected topicName packet) self.subs.entries
      (self.touch other)).andThen
        (share lib topicName contents pubopts version props)).state.closeConnection con := by
  rw [andThen_share_eq, andThen_share_eq, touch_eq_self _ other publisher,
    touch_eq_self _ other (publisher.closeConnection different)]
  rw [forEach_deliver_state _ _ _ _ _ known,
    forEach_deliver_state _ _ _ _ _ (known_closeConnection con known)]

theorem publish_closeConnection_sends (lib : OptionsApi Opts) (self : Broker) (con : Connection)
    (connected : Connection → Bool) (topicName contents : Text)
    (packet : Subscription → Option (Packet Property)) (pubopts : Opts) (version : Version)
    (props : List Property) (state other : Broker)
    (ok : ((Outcome.forEach (deliver connected topicName packet) self.subs.entries state).andThen
      (share lib topicName contents pubopts version props)).fault = none) :
    ((Outcome.forEach (deliver connected topicName packet)
      (self.closeConnection con).subs.entries other).andThen
        (share lib topicName contents pubopts version props)).fault = none ∧
    sends ((Outcome.forEach (deliver connected topicName packet)
      (self.closeConnection con).subs.entries other).andThen
        (share lib topicName contents pubopts version props)).effects =
    (sends ((Outcome.forEach (deliver connected topicName packet) self.subs.entries state).andThen
      (share lib topicName contents pubopts version props)).effects).filter
        fun sent => sent.1 ≠ con := by
  rw [andThen_share_eq] at ok
  rw [sends_andThen_share, sends_andThen_share, andThen_share_eq,
    (closeConnection_removes self con).subs]
  exact forEach_deliver_without connected topicName packet con self.subs.entries state other ok

/-- An answer to another connection is not taken away. -/
theorem sends_answer {con other : Connection} (different : other ≠ con) (packet : Packet Property) :
    sends [Effect.send other packet] =
      (sends [Effect.send other packet]).filter fun sent => sent.1 ≠ con := by
  simp [sends, Effect.sent, different]

theorem subscribeWith_closeConnection_sends {Code : Type}
    (subscription : Text → SubscribeOptions → Subscription) (granted : Qos → Code)
    (refused : Code) (suback : List Code → Packet Property) {con other : Connection}
    (different : other ≠ con) (entries : List (Text × SubscribeOptions)) (self : Broker) :
    (subscribeWith subscription granted refused suback other entries
        (self.closeConnection con)).fault = none ∧
      sends (subscribeWith subscription granted refused suback other entries
          (self.closeConnection con)).effects =
        (sends (subscribeWith subscription granted refused suback other entries
          self).effects).filter
          fun sent => sent.1 ≠ con := by
  rw [subscribeWith_eq, subscribeWith_eq]
  exact ⟨rfl, sends_answer different _⟩

end Broker

namespace Session

open Broker

/-- Closing a connection and a handler of another one commute, whatever the
handler: what it reads of the table and of `_meta` is its own. -/
theorem handle_closeConnection (lib : OptionsApi Opts) (self : Session)
    (event : Event Opts Property) (con : Connection) (consistent : Consistent self)
    (enabled : self.enabled event) (away : event.connection ≠ some con) :
    (Broker.handle lib event (self.broker.closeConnection con)).state =
      (Broker.handle lib event self.broker).state.closeConnection con := by
  have known : ∀ sub ∈ self.broker.subs.entries, self.broker.Known sub.con :=
    fun _ member => consistent.known_of_sub member
  have differs : ∀ {other : Connection}, event.connection = some other → other ≠ con :=
    fun own same => away (own.trans (congrArg some same))
  cases event with
  | accept other remote =>
      cases remote with
      | none => rfl
      | some address =>
          exact (self.broker.updateMetadata_closeConnection (differs rfl)
            fun old => { old with address := address }).symm
  | close other => exact closeConnection_comm self.broker con other
  | error other => exact self.broker.errorHandler_closeConnection (differs rfl)
  | pingreq other => exact (self.broker.updateMetadata_closeConnection (differs rfl) id).symm
  | connect version other clientId =>
      cases version <;> exact connectWith_closeConnection _ self.broker (differs rfl) clientId
  | disconnect version other =>
      have closes : ((self.broker.closeConnection con).touch other).closeConnection other =
          ((self.broker.touch other).closeConnection other).closeConnection con := by
        rw [touch_closeConnection, touch_closeConnection, closeConnection_comm]
      cases version <;> exact closes
  | ack version packet other =>
      have touched := (self.broker.updateMetadata_closeConnection (differs rfl) id).symm
      cases version <;> cases packet <;> exact touched
  | publish other connected pubopts topicName contents =>
      exact publish_closeConnection lib known (consistent.known_of_connected enabled) (differs rfl)
        connected topicName contents _ pubopts .v3 []
  | v5Publish other connected pubopts topicName contents props =>
      exact publish_closeConnection lib known (consistent.known_of_connected enabled) (differs rfl)
        connected topicName contents _ pubopts .v5 props
  | subscribe version other packetId entries =>
      cases version <;>
        exact subscribeWith_closeConnection _ _ _ _ (fun _ _ => rfl) (differs rfl) entries
          self.broker
  | unsubscribe version other packetId topics =>
      cases version <;> exact unsubscribe_closeConnection (differs rfl) packetId topics self.broker
  | injectPublish connected message =>
      change (injectPublish lib connected message (self.broker.closeConnection con)).state =
        (injectPublish lib connected message self.broker).state.closeConnection con
      unfold injectPublish
      rw [forEach_deliver_state _ _ _ _ _ known,
        forEach_deliver_state _ _ _ _ _ (known_closeConnection con known)]

/-- A handler of another connection that returns sends, after the closing, what it
sent before it except what went to the closed connection. -/
theorem handle_closeConnection_sends (lib : OptionsApi Opts) (self : Broker)
    (event : Event Opts Property) (con : Connection) (away : event.connection ≠ some con)
    (ok : (Broker.handle lib event self).fault = none) :
    (Broker.handle lib event (self.closeConnection con)).fault = none ∧
      sends (Broker.handle lib event (self.closeConnection con)).effects =
        (sends (Broker.handle lib event self).effects).filter fun sent => sent.1 ≠ con := by
  have differs : ∀ {other : Connection}, event.connection = some other → other ≠ con :=
    fun own same => away (own.trans (congrArg some same))
  cases event with
  | accept other remote =>
      cases remote with
      | none => cases ok
      | some address => exact ⟨rfl, rfl⟩
  | close other => exact ⟨rfl, rfl⟩
  | error other =>
      have before := @errorHandler_silent Property other self
      have after := @errorHandler_silent Property other (self.closeConnection con)
      exact ⟨after.1, after.2.trans (congrArg (List.filter _) before.2).symm⟩
  | pingreq other => exact ⟨rfl, sends_answer (differs rfl) _⟩
  | connect version other clientId => cases version <;> exact ⟨rfl, sends_answer (differs rfl) _⟩
  | disconnect version other => cases version <;> exact ⟨rfl, rfl⟩
  | ack version packet other => cases version <;> cases packet <;> exact ⟨rfl, rfl⟩
  | publish other connected pubopts topicName contents =>
      exact publish_closeConnection_sends lib self con connected topicName contents _ pubopts .v3 []
        (self.touch other) _ ok
  | v5Publish other connected pubopts topicName contents props =>
      exact publish_closeConnection_sends lib self con connected topicName contents _ pubopts .v5
        props (self.touch other) _ ok
  | subscribe version other packetId entries =>
      cases version <;>
        exact subscribeWith_closeConnection_sends _ _ _ _ (differs rfl) entries self
  | unsubscribe version other packetId topics =>
      cases version <;> exact ⟨rfl, sends_answer (differs rfl) _⟩
  | injectPublish connected message =>
      change (injectPublish lib connected message (self.closeConnection con)).fault = none ∧
        sends (injectPublish lib connected message (self.closeConnection con)).effects =
          (sends (injectPublish lib connected message self).effects).filter _
      unfold injectPublish
      rw [(closeConnection_removes self con).subs]
      exact forEach_deliver_without connected message.topic (injectedDelivery lib message) con
        self.subs.entries self _ ok

/-- The close, error and disconnect handlers of the connection. -/
def TearsDown (con : Connection) : Event Opts Property → Prop
  | .close other => other = con
  | .error other => other = con
  | .disconnect _ other => other = con
  | _ => False

/-- The handler of the event calls `close_connection` for the connection. -/
def Closes (con : Connection) (self : Broker) : Event Opts Property → Prop
  | .error other => other = con ∧ con ∈ self.connections
  | event => TearsDown con event

theorem handle_of_closes (lib : OptionsApi Opts) (con : Connection) (self : Broker)
    (event : Event Opts Property) (closes : Closes con self event) :
    (Broker.handle lib event self).state = self.closeConnection con := by
  cases event with
  | close other =>
      cases closes
      rfl
  | error other =>
      obtain ⟨rfl, registered⟩ := closes
      change (errorHandler other self : Result Property).state = _
      unfold errorHandler
      rw [if_pos registered]
      exact touch_closeConnection self other
  | disconnect version other =>
      cases closes
      cases version <;> exact touch_closeConnection self con
  | _ => cases closes

/-- The handlers that tear a connection down find nothing to do after the first. -/
theorem handle_again (lib : OptionsApi Opts) (con : Connection) (self : Broker)
    (event : Event Opts Property) (again : TearsDown con event) :
    (Broker.handle lib event (self.closeConnection con)).state = self.closeConnection con := by
  cases event with
  | close other =>
      cases again
      exact closeConnection_idem self con
  | error other =>
      cases again
      have gone : con ∉ (self.closeConnection con).connections := by
        rw [(closeConnection_removes self con).connections]
        exact Finset.notMem_erase con self.connections
      change (errorHandler con (self.closeConnection con) : Result Property).state = _
      unfold errorHandler
      rw [if_neg gone]
      rfl
  | disconnect version other =>
      cases again
      have closes := (touch_closeConnection (self.closeConnection con) con).trans
        (closeConnection_idem self con)
      cases version <;> exact closes
  | _ => cases again

/-- One run has closed the connection, the other goes on as if it had not. -/
structure AsIfOpen (con : Connection) (closed opened : Session) : Prop where
  consistent : Consistent opened
  broker : closed.broker = opened.broker.closeConnection con
  phase : ∀ other, other ≠ con → closed.phase other = opened.phase other
  past : closed.phase con = .disconnected ∨ closed.phase con = .ended
  seen : opened.phase con ≠ .unseen

/-- Of a connection past its last packet only the close and error handlers are called. -/
theorem late_event {self : Session} {con : Connection} {event : Event Opts Property}
    (past : self.phase con = .disconnected ∨ self.phase con = .ended)
    (own : event.connection = some con) (enabled : self.enabled event) :
    event = .close con ∨ event = .error con := by
  have idle : (self.phase con).isConnected = false ∧ self.phase con ≠ .accepted ∧
      self.phase con ≠ .unseen := by
    rcases past with same | same <;> rw [same] <;> decide
  cases event with
  | close other => exact Or.inl (congrArg Event.close (Option.some.inj own))
  | error other => exact Or.inr (congrArg Event.error (Option.some.inj own))
  | accept other remote =>
      cases own
      exact absurd enabled idle.2.2
  | connect version other clientId =>
      cases own
      rcases enabled with accepted | connected
      · exact absurd accepted idle.2.1
      · rw [idle.1] at connected
        cases connected
  | injectPublish connected message => cases own
  | _ =>
      cases own
      have connected : (self.phase con).isConnected = true := enabled
      rw [idle.1] at connected
      cases connected

/-- The library calls a handler by the phase of its connection alone. -/
theorem enabled_of_phase {self other : Session} {con : Connection} {event : Event Opts Property}
    (same : ∀ key, key ≠ con → self.phase key = other.phase key)
    (away : event.connection ≠ some con) (enabled : self.enabled event) : other.enabled event := by
  have agrees : ∀ key ∈ event.connection, self.phase key = other.phase key := by
    intro key own
    exact same key fun equal => away (by rw [own, equal])
  cases event <;> simp_all [Session.enabled, Event.connection]

theorem phaseAfter_agrees {phase other : Connection → Phase} {con : Connection}
    (event : Event Opts Property) (same : ∀ key, key ≠ con → phase key = other key)
    (key : Connection)
    (different : key ≠ con) : phaseAfter phase event key = phaseAfter other event key := by
  have updated : ∀ (at_ : Connection) (next : Phase),
      Function.update phase at_ next key = Function.update other at_ next key := by
    intro at_ next
    by_cases here : key = at_
    · rw [here, Function.update_self, Function.update_self]
    · rw [Function.update_of_ne here, Function.update_of_ne here, same key different]
  cases event with
  | accept at_ remote => cases remote <;> exact updated at_ _
  | close at_ => exact updated at_ _
  | error at_ => exact updated at_ _
  | connect version at_ clientId => exact updated at_ _
  | disconnect version at_ => exact updated at_ _
  | _ => exact same key different

theorem phaseAfter_away {phase : Connection → Phase} {con : Connection}
    (event : Event Opts Property) (away : event.connection ≠ some con) :
    phaseAfter phase event con = phase con := by
  have updated : ∀ (at_ : Connection) (next : Phase), some at_ ≠ some con →
      Function.update phase at_ next con = phase con :=
    fun at_ next other => Function.update_of_ne (fun same => other (congrArg some same.symm)) _ _
  cases event with
  | accept at_ remote => cases remote <;> exact updated at_ _ away
  | close at_ => exact updated at_ _ away
  | error at_ => exact updated at_ _ away
  | connect version at_ clientId => exact updated at_ _ away
  | disconnect version at_ => exact updated at_ _ away
  | _ => rfl

/-- Every step keeps the two runs alike off the closed connection. -/
theorem AsIfOpen.step (lib : OptionsApi Opts) {con : Connection} (closed opened : Session)
    (event : Event Opts Property) (enabled : closed.enabled event)
    (alike : AsIfOpen con closed opened) :
    opened.enabled event ∧
      AsIfOpen con ((machine lib).step closed event) ((machine lib).step opened event) := by
  by_cases own : event.connection = some con
  · have late := late_event alike.past own enabled
    have there : opened.enabled event := by
      rcases late with same | same <;> rw [same] <;> exact alike.seen
    have again : TearsDown con event := by
      rcases late with same | same <;> rw [same] <;> exact rfl
    have ended : ∀ phase : Connection → Phase, phaseAfter phase event con = .ended := by
      intro phase
      rcases late with same | same <;> rw [same] <;> exact Function.update_self con _ phase
    refine ⟨there, consistent_step lib opened event there alike.consistent, ?_, ?_, ?_, ?_⟩
    · change (Broker.handle lib event closed.broker).state =
        (Broker.handle lib event opened.broker).state.closeConnection con
      rw [alike.broker, handle_again lib con opened.broker event again]
      by_cases closes : Closes con opened.broker event
      · rw [handle_of_closes lib con opened.broker event closes, closeConnection_idem]
      · -- Only an error handler that does not find the connection closes nothing.
        rcases late with same | same
        · exact absurd (same ▸ rfl) closes
        · subst same
          change _ = (errorHandler con opened.broker : Result Property).state.closeConnection con
          unfold errorHandler
          rw [if_neg fun registered => closes ⟨rfl, registered⟩]
          rfl
    · exact phaseAfter_agrees event alike.phase
    · exact Or.inr (ended closed.phase)
    · change phaseAfter opened.phase event con ≠ .unseen
      rw [ended]
      decide
  · have there := enabled_of_phase alike.phase own enabled
    refine ⟨there, consistent_step lib opened event there alike.consistent, ?_, ?_, ?_, ?_⟩
    · change (Broker.handle lib event closed.broker).state =
        (Broker.handle lib event opened.broker).state.closeConnection con
      rw [alike.broker]
      exact handle_closeConnection lib opened event con alike.consistent there own
    · exact phaseAfter_agrees event alike.phase
    · change phaseAfter closed.phase event con = _ ∨ phaseAfter closed.phase event con = _
      rw [phaseAfter_away event own]
      exact alike.past
    · change phaseAfter opened.phase event con ≠ .unseen
      rw [phaseAfter_away event own]
      exact alike.seen

/-- Closing takes exactly one connection out of the broker, once and for all. A
call that returns, at the end of any later run, sends to all others what it
would have sent had the connection not been closed. -/
structure RemovesOne (lib : OptionsApi Opts) (Property : Type) (con : Connection)
    (state : Session) : Prop where
  removes : Removes con state.broker (state.broker.closeConnection con)
  closes : ∀ event : Event Opts Property, Closes con state.broker event →
    (Broker.handle lib event state.broker).state = state.broker.closeConnection con
  idem : (state.broker.closeConnection con).closeConnection con = state.broker.closeConnection con
  again : ∀ event : Event Opts Property, TearsDown con event →
    (Broker.handle lib event (state.broker.closeConnection con)).state =
      state.broker.closeConnection con
  commutes : ∀ other, (state.broker.closeConnection con).closeConnection other =
    (state.broker.closeConnection other).closeConnection con
  later : ∀ (closing : Event Opts Property) (labels : List (Event Opts Property))
    (event : Event Opts Property), state.enabled closing → Closes con state.broker closing →
    (machine lib).Admits ((machine lib).step state closing) (labels ++ [event]) →
    let closed := (machine lib).run ((machine lib).step state closing) labels
    let opened := (machine lib).run state labels
    (Broker.handle lib event opened.broker).fault = none →
      (Broker.handle lib event closed.broker).fault = none ∧
        sends (Broker.handle lib event closed.broker).effects =
          (sends (Broker.handle lib event opened.broker).effects).filter fun sent => sent.1 ≠ con

/-- The close and error handlers send nothing. -/
theorem sends_late_event (lib : OptionsApi Opts) (self : Broker) {con : Connection}
    {event : Event Opts Property} (late : event = .close con ∨ event = .error con) :
    (Broker.handle lib event self).fault = none ∧
      sends (Broker.handle lib event self).effects = [] := by
  rcases late with same | same
  · rw [same]
    exact ⟨rfl, rfl⟩
  · rw [same]
    exact errorHandler_silent con self

theorem asIfOpen_of_closes (lib : OptionsApi Opts) {con : Connection} (state : Session)
    (consistent : Consistent state) (closing : Event Opts Property)
    (enabled : state.enabled closing) (closes : Closes con state.broker closing) :
    AsIfOpen con ((machine lib).step state closing) state := by
  have past : (phaseAfter state.phase closing con = .disconnected ∨
      phaseAfter state.phase closing con = .ended) ∧ state.phase con ≠ .unseen ∧
      ∀ other, other ≠ con → phaseAfter state.phase closing other = state.phase other := by
    cases closing with
    | close other =>
        cases closes
        exact ⟨Or.inr (Function.update_self con _ _), enabled,
          fun other different => Function.update_of_ne different _ _⟩
    | error other =>
        obtain ⟨rfl, _⟩ := closes
        exact ⟨Or.inr (Function.update_self _ _ _), enabled,
          fun other different => Function.update_of_ne different _ _⟩
    | disconnect version other =>
        cases closes
        refine ⟨Or.inl (Function.update_self con _ _), ?_,
          fun other different => Function.update_of_ne different _ _⟩
        intro unseen
        change (state.phase con).isConnected = true at enabled
        rw [unseen] at enabled
        cases enabled
    | _ => cases closes
  exact ⟨consistent, handle_of_closes lib con state.broker closing closes, past.2.2, past.1,
    past.2.1⟩

theorem reachable_closeConnection_removesOne (lib : OptionsApi Opts) (con : Connection)
    (state : Session)
    (reached : (machine lib : Machine Session (Event Opts Property)).Reachable fresh state) :
    RemovesOne lib Property con state := by
  refine ⟨closeConnection_removes state.broker con,
    fun event closes => handle_of_closes lib con state.broker event closes,
    closeConnection_idem state.broker con,
    fun event again => handle_again lib con state.broker event again,
    closeConnection_comm state.broker con, ?_⟩
  intro closing labels event enabled closes admitted closed opened ok
  have consistent := reachable_consistent lib state reached
  have split := ((machine lib).admits_append _ labels [event]).mp admitted
  obtain ⟨_, alike⟩ := (machine lib).run_relation (AsIfOpen con) (AsIfOpen.step lib) _ state labels
    split.1 (asIfOpen_of_closes lib state consistent closing enabled closes)
  by_cases own : event.connection = some con
  · have late := late_event alike.past own split.2.1
    have now := sends_late_event lib closed.broker late
    exact ⟨now.1, now.2.trans (congrArg (List.filter _)
      (sends_late_event lib opened.broker late).2).symm⟩
  · have same : closed.broker = opened.broker.closeConnection con := alike.broker
    rw [same]
    exact handle_closeConnection_sends lib opened.broker event con own ok

/-- Connection 1 closed after connection 2 subscribed to the same filter. -/
theorem closeConnection_sharedFilter :
    RemovesOne byteOptions Text 1 ((machine byteOptions).run fresh sharedFilter) :=
  reachable_closeConnection_removesOne byteOptions 1 ((machine byteOptions).run fresh sharedFilter)
    ⟨sharedFilter, by decide, rfl⟩

end Session

end OctopusMq
