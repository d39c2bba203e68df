import OctopusMq.Conversation
import OctopusMq.Lifecycle

set_option autoImplicit false

/- No Local over whole runs of a pool of brokers. -/
namespace OctopusMq

open Imperative Transition

variable {Opts Property : Type}

/-- The subscriptions of a broker belong to its connections, and those with No
Local to connections that speak v5. -/
def Session.Owned (home : Connection → SettingsPtr) (adapter : SettingsPtr) (self : Session) :
    Prop :=
  ∀ sub ∈ self.broker.subs.entries,
    home sub.con = adapter ∧ (sub.nlValue = .yes → self.phase sub.con = .connected .v5)

namespace Session

open Broker

variable {home : Connection → SettingsPtr} {adapter : SettingsPtr} {self : Session}

/-- Subscriptions that are kept stay owned as long as their phases stay. -/
theorem Owned.of_kept {after : Broker} {phase : Connection → Phase}
    (owned : self.Owned home adapter)
    (kept : ∀ sub ∈ after.subs.entries,
      sub ∈ self.broker.subs.entries ∧ phase sub.con = self.phase sub.con) :
    Owned home adapter ⟨after, phase⟩ := by
  intro sub member
  obtain ⟨old, same⟩ := kept sub member
  refine ⟨(owned sub old).1, ?_⟩
  intro noLocal
  rw [← (owned sub old).2 noLocal]
  exact same

/-- The phase of a connection without subscriptions does not matter. -/
theorem Owned.of_update {after : Broker} {con : Connection} {phase : Phase}
    (owned : self.Owned home adapter)
    (kept : ∀ sub ∈ after.subs.entries, sub ∈ self.broker.subs.entries ∧ sub.con ≠ con) :
    Owned home adapter ⟨after, Function.update self.phase con phase⟩ := by
  apply owned.of_kept
  intro sub member
  exact ⟨(kept sub member).1, Function.update_of_ne (kept sub member).2 _ _⟩

theorem Consistent.con_ne {con : Connection} (consistent : Consistent self)
    (unconnected : (self.phase con).isConnected = false) (sub : Subscription)
    (member : sub ∈ self.broker.subs.entries) : sub.con ≠ con := by
  intro same
  have connected := (consistent.connected sub.con).mp (consistent.subs sub member)
  rw [same, unconnected] at connected
  cases connected

/-- What a subscribe handler adds is made by the constructor of its version. -/
theorem mem_subscribeWith {Code : Type} (subscription : Text → SubscribeOptions → Subscription)
    (granted : Qos → Code) (refused : Code) (suback : List Code → Packet Property)
    (con : Connection) (entries : List (Text × SubscribeOptions)) (broker : Broker)
    (sub : Subscription)
    (member : sub ∈
      (subscribeWith subscription granted refused suback con entries broker).state.subs.entries) :
    sub ∈ broker.subs.entries ∨ ∃ entry ∈ entries, sub = subscription entry.1 entry.2 := by
  rw [subscribeWith_eq] at member
  refine OrderedTable.Table.forall_mem_foldl_emplace
    (fun sub => sub ∈ broker.subs.entries ∨ ∃ entry ∈ entries, sub = subscription entry.1 entry.2)
    (requested subscription entries) broker.subs ?_ ?_ sub member
  · exact fun old there => Or.inl there
  · intro new there
    obtain ⟨entry, inside, same⟩ := List.mem_map.mp there
    exact Or.inr ⟨entry, (List.mem_filter.mp inside).1, same.symm⟩

theorem Owned.subscribe {version : Version} {con : Connection} {packetId : UInt16}
    {entries : List (Text × SubscribeOptions)} (owned : self.Owned home adapter)
    (speaks : self.phase con = .connected version) (atHome : home con = adapter)
    (lib : OptionsApi Opts) :
    Owned home adapter ⟨(Broker.handle lib
      (.subscribe version con packetId entries : Event Opts Property) self.broker).state,
        self.phase⟩ := by
  intro sub member
  cases version with
  | v3 =>
      rcases mem_subscribeWith _ _ _ _ con entries self.broker sub member with old | new
      · exact owned sub old
      · obtain ⟨entry, _, same⟩ := new
        rw [same]
        exact ⟨atHome, fun noLocal => nomatch noLocal⟩
  | v5 =>
      rcases mem_subscribeWith _ _ _ _ con entries self.broker sub member with old | new
      · exact owned sub old
      · obtain ⟨entry, _, same⟩ := new
        rw [same]
        exact ⟨atHome, fun _ => speaks⟩

/-- Every event of a connection that is at home and keeps its version keeps the
ownership of the subscriptions. -/
theorem owned_step (lib : OptionsApi Opts) (event : Event Opts Property)
    (consistent : Consistent self) (enabled : self.enabled event)
    (version : KeepsVersion self.phase event) (atHome : AtHome home adapter event)
    (owned : self.Owned home adapter) :
    Owned home adapter ((machine lib).step self event) := by
  have changes := handle_changes lib self event consistent enabled
  show Owned home adapter
    ⟨(Broker.handle lib event self.broker).state, phaseAfter self.phase event⟩
  cases event with
  | accept con remote =>
      have unseen : (self.phase con).isConnected = false := by
        rw [enabled]
        rfl
      have absent := consistent.con_ne unseen
      cases remote with
      | none => exact owned.of_update fun sub member => ⟨member, absent sub member⟩
      | some address => exact owned.of_update fun sub member => ⟨member, absent sub member⟩
  | close con =>
      exact owned.of_update fun sub member => (changes.subs sub).mp member
  | error con =>
      by_cases registered : con ∈ self.broker.connections
      · simp only [Changes, registered, ↓reduceIte] at changes
        exact owned.of_update fun sub member => (changes.subs sub).mp member
      · simp only [Changes, registered, ↓reduceIte] at changes
        rw [changes]
        apply owned.of_update
        intro sub member
        exact ⟨member, fun same => registered (same ▸ consistent.subs sub member)⟩
  | connect newVersion con clientId =>
      apply owned.of_kept
      rw [changes.subs]
      intro sub member
      refine ⟨member, ?_⟩
      show Function.update self.phase con (.connected newVersion) sub.con = self.phase sub.con
      by_cases same : sub.con = con
      · rcases version with accepted | connected
        · exact absurd same (consistent.con_ne (by rw [accepted]; rfl) sub member)
        · rw [same, Function.update_self, connected]
      · exact Function.update_of_ne same _ _
  | disconnect oldVersion con =>
      exact owned.of_update fun sub member => (changes.subs sub).mp member
  | subscribe version' con packetId entries =>
      exact owned.subscribe version (atHome con rfl) lib
  | unsubscribe version' con packetId topics =>
      have entries : (Broker.handle lib (.unsubscribe version' con packetId topics :
          Event Opts Property) self.broker).state.subs.entries =
          (unsubscribe con packetId topics self.broker : Result Property).state.subs.entries := by
        cases version' <;> rfl
      apply owned.of_kept
      rw [entries, unsubscribe_entries]
      exact fun sub member => ⟨(List.mem_filter.mp member).1, rfl⟩
  | pingreq con => exact owned.of_kept fun sub member => ⟨changes.subs ▸ member, rfl⟩
  | ack version' packet con => exact owned.of_kept fun sub member => ⟨changes.subs ▸ member, rfl⟩
  | publish con connected pubopts topicName contents =>
      exact owned.of_kept fun sub member => ⟨changes.subs ▸ member, rfl⟩
  | v5Publish con connected pubopts topicName contents props =>
      exact owned.of_kept fun sub member => ⟨changes.subs ▸ member, rfl⟩
  | injectPublish connected message =>
      exact owned.of_kept fun sub member => ⟨changes.subs ▸ member, rfl⟩

end Session

namespace System

/-- No broker has changed in its connections, the keys of `_meta` or its table. -/
def Undisturbed (before after : System Property) : Prop :=
  ∀ adapter, Broker.Keeps (before.brokers adapter) (after.brokers adapter)

theorem Undisturbed.refl (self : System Property) : Undisturbed self self :=
  fun adapter => Broker.Keeps.refl (self.brokers adapter)

theorem Undisturbed.trans {first second third : System Property} (left : Undisturbed first second)
    (right : Undisturbed second third) : Undisturbed first third :=
  fun adapter => (left adapter).trans (right adapter)

/-- The subscriptions of every broker belong to connections it knows. -/
def SubsKnown (self : System Property) : Prop :=
  ∀ adapter, ∀ sub ∈ (self.brokers adapter).subs.entries, (self.brokers adapter).Known sub.con

theorem SubsKnown.of_undisturbed {before after : System Property} (known : SubsKnown before)
    (same : Undisturbed before after) : SubsKnown after := by
  intro adapter sub member
  rw [(same adapter).subs] at member
  exact ((same adapter).known sub.con).mpr (known adapter sub member)

section Drain

variable (lib : OptionsApi Opts) (pool : List Adapter)

/-- An adapter is passed over, or its `inject_publish` is called. -/
theorem injectInto_state (connected : SettingsPtr → Connection → Bool)
    (item : AdapterMessagePair Property) (adapter : Adapter) (self : System Property) :
    (injectInto lib connected item adapter self).state = self ∨
      (injectInto lib connected item adapter self).state =
        (call adapter.settings (Broker.injectPublish lib (connected adapter.settings) item.2)
          self).state := by
  rcases injectInto_cases lib connected item adapter self with
    ⟨_, skipped⟩ | ⟨_, fault, _, threw⟩ | ⟨_, called⟩
  · rw [skipped]
    exact Or.inl rfl
  · rw [threw]
    exact Or.inl rfl
  · rw [called]
    exact Or.inr rfl

theorem call_injectPublish_undisturbed (connected : Connection → Bool)
    (message : Message Property) (adapter : SettingsPtr) (self : System Property)
    (known : SubsKnown self) :
    Undisturbed self (call adapter (Broker.injectPublish lib connected message) self).state := by
  intro other
  show Broker.Keeps (self.brokers other) (Function.update self.brokers adapter _ other)
  by_cases same : other = adapter
  · rw [same, Function.update_self]
    exact Broker.forEach_deliver_keeps connected message.topic _ _ _ (known adapter)
      (Broker.Keeps.refl _)
  · rw [Function.update_of_ne same]
    exact Broker.Keeps.refl _

theorem injectInto_undisturbed (connected : SettingsPtr → Connection → Bool)
    (item : AdapterMessagePair Property) (adapter : Adapter) (self : System Property)
    (known : SubsKnown self) :
    Undisturbed self (injectInto lib connected item adapter self).state ∧
      (injectInto lib connected item adapter self).state.queue = self.queue := by
  rcases injectInto_state lib connected item adapter self with same | called
  · rw [same]
    exact ⟨Undisturbed.refl self, rfl⟩
  · rw [called]
    exact ⟨call_injectPublish_undisturbed lib _ item.2 adapter.settings self known,
      (call_injectPublish_queue lib _ item.2 adapter.settings self).2⟩

/-- The loop over the pool, whether or not it is left early. -/
theorem forEach_injectInto_undisturbed (connected : SettingsPtr → Connection → Bool)
    (item : AdapterMessagePair Property) (self : System Property) (known : SubsKnown self) :
    Undisturbed self (Outcome.forEach (injectInto lib connected item) pool self).state ∧
      (Outcome.forEach (injectInto lib connected item) pool self).state.queue = self.queue := by
  refine Outcome.forEach_invariant
    (fun state => Undisturbed self state ∧ state.queue = self.queue) _ pool ?_ self
    ⟨Undisturbed.refl self, rfl⟩
  intro adapter _ state kept
  have step := injectInto_undisturbed lib connected item adapter state
    (known.of_undisturbed kept.1)
  exact ⟨kept.1.trans step.1, step.2.trans kept.2⟩

/-- A round that returns leaves the brokers undisturbed and has taken the front item. -/
theorem round_undisturbed (connected : SettingsPtr → Connection → Bool)
    (item : AdapterMessagePair Property) (rest : List (AdapterMessagePair Property))
    (self : System Property) (front : self.queue = item :: rest) (known : SubsKnown self)
    (ok : ((Outcome.forEach (injectInto lib connected item) pool self).andThen pop).fault = none) :
    Undisturbed self
        ((Outcome.forEach (injectInto lib connected item) pool self).andThen pop).state ∧
      ((Outcome.forEach (injectInto lib connected item) pool self).andThen pop).state.queue =
        rest := by
  have loop := forEach_injectInto_undisturbed lib pool connected item self known
  have passed := ((Outcome.andThen_fault_none_iff _ _).mp ok).1
  rw [Outcome.andThen_of_ok _ _ passed]
  refine ⟨loop.1, ?_⟩
  show (Outcome.forEach (injectInto lib connected item) pool self).state.queue.tail = rest
  rw [loop.2, front, List.tail_cons]

/-- A drain leaves the brokers undisturbed, and the queue with some of its last
items, all of them when the first round throws. The induction is on the rounds. -/
theorem popAll_undisturbed (rounds : Nat) (connected : Nat → SettingsPtr → Connection → Bool)
    (self : System Property) (known : SubsKnown self) :
    Undisturbed self (popAll lib pool rounds connected self).state ∧
      (popAll lib pool rounds connected self).state.queue <:+ self.queue := by
  induction rounds generalizing connected self with
  | zero =>
      have same : (popAll lib pool 0 connected self).state = self := by
        unfold popAll
        cases self.queue with
        | nil => rfl
        | cons item rest => rfl
      rw [same]
      exact ⟨Undisturbed.refl self, List.suffix_refl _⟩
  | succ rounds ih =>
      cases front : self.queue with
      | nil =>
          rw [popAll_of_empty lib pool _ connected self front, ← front]
          exact ⟨Undisturbed.refl self, List.suffix_refl _⟩
      | cons item rest =>
          have loop := forEach_injectInto_undisturbed lib pool (connected 0) item self known
          rcases popAll_cases lib pool rounds connected self item rest front with
            ⟨fault, _, left⟩ | ⟨_, popped, queue, brokers, later⟩
          · rw [left, ← front]
            exact ⟨loop.1, loop.2 ▸ List.suffix_refl _⟩
          · have same : Undisturbed self popped := by
              intro adapter
              rw [brokers]
              exact loop.1 adapter
            have rounds := ih (fun round => connected (round + 1)) popped
              (known.of_undisturbed same)
            rw [queue] at rounds
            rw [later]
            exact ⟨same.trans rounds.1, rounds.2.trans (List.suffix_cons item rest)⟩

/-- The PUBLISHes of a call are those its handler sends. -/
theorem call_published (adapter : SettingsPtr) (handler : Broker → Broker.Result Property)
    (self : System Property) :
    (call adapter handler self).effects.filterMap Act.published =
      (Broker.sends (handler (self.brokers adapter)).effects).filterMap fun sent =>
        if sent.2.isPublish then some (adapter, sent.1, sent.2) else none := by
  unfold call Broker.sends
  rw [List.filterMap_map, List.filterMap_filterMap]
  apply List.filterMap_congr
  intro effect _
  cases effect with
  | send con packet => rfl
  | push message => rfl

theorem filterMap_sent (adapter : SettingsPtr) (publisher : Connection)
    (sent : List (Subscription × Packet Property))
    (publishes : ∀ each ∈ sent, each.2.isPublish = true) :
    ((sent.map fun each => (each.1.con, each.2)).filterMap fun each =>
        if each.2.isPublish then some (adapter, each.1, each.2) else none) =
      (sent.map (Delivered.ofSent adapter publisher)).map Delivered.receipt := by
  rw [List.filterMap_map, List.map_map, ← List.filterMap_eq_map]
  apply List.filterMap_congr
  intro each member
  simp only [Function.comp_apply, publishes each member, ↓reduceIte]
  rfl

theorem injectPublishSent_isPublish (connected : Connection → Bool) (message : Message Property)
    (self : Broker) :
    ∀ sent ∈ Broker.injectPublishSent lib connected message self, sent.2.isPublish = true := by
  intro sent member
  rcases Broker.of_mem_injectPublishSent member with ⟨_, packet⟩ | ⟨_, packet⟩
  · exact congrArg Packet.isPublish packet
  · exact congrArg Packet.isPublish packet

theorem injectInto_published (connected : SettingsPtr → Connection → Bool)
    (item : AdapterMessagePair Property) (publisher : Connection) (adapter : Adapter)
    (self : System Property) :
    (injectInto lib connected item adapter self).effects.filterMap Act.published =
      (injectDelivered lib connected item publisher adapter self).map Delivered.receipt := by
  unfold injectDelivered
  rcases injectInto_cases lib connected item adapter self with
    ⟨spared, skipped⟩ | ⟨spared, fault, _, threw⟩ | ⟨eligible, called⟩
  · rw [skipped, spared]
    rfl
  · rw [threw, spared]
    rfl
  · rw [called, if_pos eligible, Outcome.emit_andThen]
    show List.filterMap Act.published (call adapter.settings _ self).effects = _
    rw [call_published, Broker.sends_injectPublish, filterMap_sent _ publisher _
      (injectPublishSent_isPublish lib _ item.2 _)]

/-- The PUBLISHes of a round, whether or not its loop is left early. -/
theorem round_published (connected : SettingsPtr → Connection → Bool)
    (item : AdapterMessagePair Property) (publisher : Connection) (self : System Property) :
    ((Outcome.forEach (injectInto lib connected item) pool self).andThen pop).effects.filterMap
        Act.published =
      (Outcome.trace (injectDelivered lib connected item publisher)
        (injectInto lib connected item) pool self).map Delivered.receipt := by
  rw [← Outcome.forEach_effects_eq_trace Act.published Delivered.receipt _ _ pool
    fun adapter _ state => injectInto_published lib connected item publisher adapter state]
  cases failed : (Outcome.forEach (injectInto lib connected item) pool self).fault with
  | none =>
      rw [Outcome.andThen_of_ok _ _ failed]
      exact congrArg _ (List.append_nil _)
  | some fault => rw [Outcome.andThen_of_fault _ _ fault failed]

/-- All PUBLISHes of a drain are accounted for, if the publishers are known of all
queued items. -/
theorem popAll_published (rounds : Nat) (connected : Nat → SettingsPtr → Connection → Bool)
    (publishers : List Connection) (self : System Property) (known : SubsKnown self)
    (attributed : publishers.length = self.queue.length) :
    (popAll lib pool rounds connected self).effects.filterMap Act.published =
      (popAllDelivered lib pool rounds connected publishers self).map Delivered.receipt := by
  induction rounds generalizing connected publishers self with
  | zero =>
      unfold popAll popAllDelivered
      cases self.queue with
      | nil => rfl
      | cons item rest => rfl
  | succ rounds ih =>
      cases front : self.queue with
      | nil =>
          rw [popAll_of_empty lib pool _ connected self front]
          simp only [popAllDelivered, front]
          rfl
      | cons item rest =>
          cases publishers with
          | nil =>
              rw [front] at attributed
              cases attributed
          | cons publisher later =>
              rw [popAll_of_cons lib pool rounds connected self item rest front]
              simp only [popAllDelivered, front]
              rw [List.map_append, ← round_published]
              cases ended : ((Outcome.forEach (injectInto lib (connected 0) item) pool
                  self).andThen pop).fault with
              | none =>
                  have round := round_undisturbed lib pool (connected 0) item rest self front
                    known ended
                  rw [Outcome.andThen_of_ok _ _ ended, List.filterMap_append,
                    ih _ later _ (known.of_undisturbed round.1) ?_]
                  rw [front, List.length_cons, List.length_cons] at attributed
                  rw [round.2]
                  omega
              | some fault =>
                  rw [Outcome.andThen_of_fault _ _ fault ended, List.map_nil, List.append_nil]

/-- An injected message does not go to a connection at home at its origin. -/
theorem injectDelivered_foreign (home : Connection → SettingsPtr)
    (connected : SettingsPtr → Connection → Bool) (item : AdapterMessagePair Property)
    (publisher : Connection) (adapter : Adapter) (self : System Property)
    (atHome : ∀ sub ∈ (self.brokers adapter.settings).subs.entries, home sub.con = adapter.settings)
    (origin : home publisher = item.1) :
    ∀ sent ∈ injectDelivered lib connected item publisher adapter self,
      sent.sub.con ≠ sent.publisher := by
  intro sent member back
  unfold injectDelivered Adapter.eligible at member
  split at member
  · rename_i eligible
    obtain ⟨through, sending, rfl⟩ := List.mem_map.mp member
    have subscribed := (Broker.of_mem_sentThrough sending).1
    have backHome : home through.1.con = home publisher := congrArg home back
    rw [atHome through.1 subscribed, origin] at backHome
    exact (of_decide_eq_true eligible).1 backHome
  · cases member

/-- No PUBLISH of a round goes back: its injections leave the tables as they are. -/
theorem round_foreign (home : Connection → SettingsPtr)
    (connected : SettingsPtr → Connection → Bool) (item : AdapterMessagePair Property)
    (publisher : Connection) (self : System Property) (known : SubsKnown self)
    (atHome : ∀ adapter, ∀ sub ∈ (self.brokers adapter).subs.entries, home sub.con = adapter)
    (origin : home publisher = item.1) :
    ∀ sent ∈ Outcome.trace (injectDelivered lib connected item publisher)
        (injectInto lib connected item) pool self,
      sent.sub.con ≠ sent.publisher := by
  refine Outcome.forall_mem_trace (Undisturbed self)
    (fun sent : Delivered Property => sent.sub.con ≠ sent.publisher)
    _ _ pool ?_ self (Undisturbed.refl self)
  intro adapter _ state same
  have step := injectInto_undisturbed lib connected item adapter state (known.of_undisturbed same)
  refine ⟨same.trans step.1, injectDelivered_foreign lib home connected item publisher adapter
    state ?_ origin⟩
  rw [(same adapter.settings).subs]
  exact atHome adapter.settings

/-- No PUBLISH of a drain goes back to the connection that published the message:
connections are at home in the tables they subscribe in, messages are published at
their origin, and no message is injected into its origin. -/
theorem popAll_foreign (home : Connection → SettingsPtr) (rounds : Nat)
    (connected : Nat → SettingsPtr → Connection → Bool) (publishers : List Connection)
    (self : System Property) (known : SubsKnown self)
    (atHome : ∀ adapter, ∀ sub ∈ (self.brokers adapter).subs.entries, home sub.con = adapter)
    (attributed : List.Forall₂ (fun item publisher => home publisher = item.1)
      self.queue publishers) :
    ∀ sent ∈ popAllDelivered lib pool rounds connected publishers self,
      sent.sub.con ≠ sent.publisher := by
  induction rounds generalizing connected publishers self with
  | zero =>
      intro sent member
      cases member
  | succ rounds ih =>
      intro sent member
      unfold popAllDelivered at member
      cases front : self.queue with
      | nil =>
          simp only [front] at member
          cases member
      | cons item rest =>
          rw [front] at attributed
          cases attributed with
          | @cons _ publisher _ later here there =>
              simp only [front] at member
              rcases List.mem_append.mp member with now | next
              · exact round_foreign lib pool home (connected 0) item publisher self known atHome
                  here
                  sent now
              · cases ended : ((Outcome.forEach (injectInto lib (connected 0) item) pool
                    self).andThen pop).fault with
                | none =>
                    have round := round_undisturbed lib pool (connected 0) item rest self front
                      known ended
                    rw [ended] at next
                    refine ih _ later _ (known.of_undisturbed round.1) ?_ ?_ sent next
                    · intro adapter sub subscribed
                      rw [(round.1 adapter).subs] at subscribed
                      exact atHome adapter sub subscribed
                    · rw [round.2]
                      exact there
                | some fault =>
                    rw [ended] at next
                    cases next

end Drain

end System

namespace Broker

/-- All PUBLISHes of the handler of a client event are accounted for. -/
theorem delivered_published (lib : OptionsApi Opts) (adapter : SettingsPtr)
    (event : Event Opts Property) (client : event.isClient = true) (self : System Property) :
    (self.call adapter (handle lib event)).effects.filterMap Act.published =
      (delivered lib adapter (self.brokers adapter) event).map Delivered.receipt := by
  rw [System.call_published]
  cases event with
  | accept con remote =>
      cases remote with
      | none => rfl
      | some address => rfl
  | close con => rfl
  | error con =>
      show List.filterMap _ (sends (errorHandler con (self.brokers adapter) :
        Result Property).effects) = []
      unfold errorHandler
      split <;> rfl
  | pingreq con => rfl
  | connect version con clientId => cases version <;> rfl
  | disconnect version con => cases version <;> rfl
  | ack version packet con => cases version <;> cases packet <;> rfl
  | publish con connected pubopts topicName contents =>
      show List.filterMap _ (sends (publishHandler lib connected con pubopts topicName contents
        (self.brokers adapter)).effects) = _
      rw [sends_publishHandler]
      exact System.filterMap_sent adapter con _
        fun sent member => congrArg Packet.isPublish (of_mem_publishSent member)
  | v5Publish con connected pubopts topicName contents props =>
      show List.filterMap _ (sends (v5PublishHandler lib connected con pubopts topicName contents
        props (self.brokers adapter)).effects) = _
      rw [sends_v5PublishHandler]
      exact System.filterMap_sent adapter con _
        fun sent member => congrArg Packet.isPublish (of_mem_v5PublishSent member).2
  | subscribe version con packetId entries =>
      cases version with
      | v3 =>
          show List.filterMap _ (sends (subscribeWith _ _ _ _ con entries
            (self.brokers adapter)).effects) = []
          rw [subscribeWith_eq]
          rfl
      | v5 =>
          show List.filterMap _ (sends (subscribeWith _ _ _ _ con entries
            (self.brokers adapter)).effects) = []
          rw [subscribeWith_eq]
          rfl
  | unsubscribe version con packetId topics => cases version <;> rfl
  | injectPublish connected message => cases client

end Broker

namespace Conversation

/-- What a run keeps: every broker is consistent, its subscriptions are owned, and
every queued message was published at its origin. -/
structure Attributed (home : Connection → SettingsPtr) (state : Conversation Property) : Prop where
  consistent : ∀ adapter, (state.session adapter).Consistent
  owned : ∀ adapter, (state.session adapter).Owned home adapter
  publishers : List.Forall₂ (fun item publisher => home publisher = item.1)
    state.history.system.queue state.publishers

theorem attributed_start (home : Connection → SettingsPtr) :
    Attributed home (start : Conversation Property) :=
  ⟨fun _ => Session.fresh_consistent, fun _ _ member => (nomatch member), .nil⟩

variable {home : Connection → SettingsPtr} {self : Conversation Property}

theorem Attributed.subsKnown (attributed : Attributed home self) :
    self.history.system.SubsKnown :=
  fun adapter _ member => (attributed.consistent adapter).known_of_sub member

/-- A turn of a client is an event of the session of its broker, and of no other. -/
theorem session_client (lib : OptionsApi Opts) (pool : List Adapter) (adapter : SettingsPtr)
    (event : Event Opts Property) (other : SettingsPtr) :
    ((machine lib pool home).step self (.client adapter event)).session other =
      if other = adapter then (Session.machine lib).step (self.session adapter) event
      else self.session other := by
  by_cases same : other = adapter
  · rw [if_pos same, same]
    show Session.mk (Function.update self.history.system.brokers adapter _ adapter)
      (Function.update self.phase adapter _ adapter) = _
    rw [Function.update_self, Function.update_self]
    rfl
  · rw [if_neg same]
    show Session.mk (Function.update self.history.system.brokers adapter _ other)
      (Function.update self.phase adapter _ other) = _
    rw [Function.update_of_ne same, Function.update_of_ne same]
    rfl

/-- The messages of a client turn are published by a connection at home at their origin. -/
theorem forall₂_pushed (adapter : SettingsPtr) (event : Event Opts Property)
    (atHome : AtHome home adapter event) (messages : List (Message Property))
    (known : messages ≠ [] → event.connection ≠ none) :
    List.Forall₂ (fun (item : AdapterMessagePair Property) publisher => home publisher = item.1)
      (messages.map fun message => (adapter, message))
      (messages.filterMap fun _ => event.connection) := by
  cases source : event.connection with
  | none =>
      have empty : messages = [] := by
        apply Classical.byContradiction
        intro some
        exact known some source
      rw [empty]
      exact .nil
  | some con =>
      have here : home con = adapter := atHome con source
      clear known
      induction messages with
      | nil => exact .nil
      | cons message rest ih => exact .cons here ih

/-- A client turn: the session of its broker steps, its messages join the queue with
their publisher. -/
theorem attributed_client (lib : OptionsApi Opts) (pool : List Adapter) (adapter : SettingsPtr)
    (event : Event Opts Property)
    (enabled : (machine lib pool home).enabled self (.client adapter event))
    (attributed : Attributed home self) :
    Attributed home ((machine lib pool home).step self (.client adapter event)) := by
  obtain ⟨issued, allowed, version, atHome⟩ := enabled
  refine ⟨?_, ?_, ?_⟩
  · intro other
    rw [session_client]
    by_cases same : other = adapter
    · rw [if_pos same]
      exact Session.consistent_step lib _ event allowed (attributed.consistent adapter)
    · rw [if_neg same]
      exact attributed.consistent other
  · intro other
    rw [session_client]
    by_cases same : other = adapter
    · rw [if_pos same, same]
      exact Session.owned_step lib event (attributed.consistent adapter) allowed version atHome
        (attributed.owned adapter)
    · rw [if_neg same]
      exact attributed.owned other
  · show List.Forall₂ _ (self.history.system.call adapter (Broker.handle lib event)).state.queue
      (self.publishers ++ _)
    rw [System.call_queue, System.call_pushed]
    apply List.rel_append attributed.publishers
    apply forall₂_pushed adapter event atHome
    intro _ unknown
    cases event with
    | injectPublish connected message => cases issued.2
    | _ => cases unknown

/-- A drain: no session changes, and the queue keeps its last items. -/
theorem attributed_drain (lib : OptionsApi Opts) (pool : List Adapter)
    (connected : Nat → SettingsPtr → Connection → Bool) (attributed : Attributed home self) :
    Attributed home ((machine lib pool home).step self (.drain connected)) := by
  have kept := System.popAll_undisturbed lib pool self.history.system.queue.length connected
    self.history.system attributed.subsKnown
  have same : (self.history.system.waitAndPopAll lib pool connected).2 =
      System.popAll lib pool self.history.system.queue.length connected self.history.system :=
    congrArg Prod.snd (System.waitAndPopAll_eq lib pool connected self.history.system)
  rw [← same] at kept
  refine ⟨?_, ?_, ?_⟩
  · intro adapter
    exact (attributed.consistent adapter).of_keeps (kept.1 adapter)
  · intro adapter
    apply (attributed.owned adapter).of_kept
    intro sub member
    exact ⟨(kept.1 adapter).subs ▸ member, rfl⟩
  · have taken := List.forall₂_drop
      (self.history.system.queue.length -
        (self.history.system.waitAndPopAll lib pool connected).2.state.queue.length)
      attributed.publishers
    rw [← List.suffix_iff_eq_drop.mp kept.2] at taken
    exact taken

theorem attributed_step (lib : OptionsApi Opts) (pool : List Adapter) (turn : Turn Opts Property)
    (enabled : (machine lib pool home).enabled self turn) (attributed : Attributed home self) :
    Attributed home ((machine lib pool home).step self turn) := by
  cases turn with
  | client adapter event => exact attributed_client lib pool adapter event enabled attributed
  | drain connected => exact attributed_drain lib pool connected attributed

/-- Every turn respects No Local. In the v3 handler the publisher speaks v3 and so
has no such subscription, in the v5 handler it is skipped, and in a drain the
message never comes back to its origin. -/
theorem respectsNoLocal_of_attributed (lib : OptionsApi Opts) (pool : List Adapter)
    (turn : Turn Opts Property) (enabled : (machine lib pool home).enabled self turn)
    (attributed : Attributed home self) : RespectsNoLocal lib pool self turn := by
  cases turn with
  | client adapter event =>
      obtain ⟨issued, allowed, version, atHome⟩ := enabled
      refine ⟨Broker.delivered_published lib adapter event issued.2 self.history.system, ?_⟩
      intro sent member
      cases event with
      | publish con connected pubopts topicName contents =>
          obtain ⟨through, sending, rfl⟩ := List.mem_map.mp member
          have subscribed := (Broker.of_mem_sentThrough sending).1
          intro back
          have speaks := (attributed.owned adapter through.1 subscribed).2 back.1
          have own : through.1.con = con := back.2
          rw [own] at speaks
          cases speaks.symm.trans version
      | v5Publish con connected pubopts topicName contents props =>
          obtain ⟨through, sending, rfl⟩ := List.mem_map.mp member
          exact (Broker.of_mem_v5PublishSent sending).1
      | _ => cases member
  | drain connected =>
      refine ⟨?_, ?_⟩
      · show List.filterMap _ (self.history.system.waitAndPopAll lib pool connected).2.effects = _
        rw [System.waitAndPopAll_eq]
        exact System.popAll_published lib pool _ connected self.publishers self.history.system
          attributed.subsKnown attributed.publishers.length_eq.symm
      · intro sent member back
        refine System.popAll_foreign lib pool home _ connected self.publishers
          self.history.system attributed.subsKnown ?_ attributed.publishers sent member back.2
        exact fun adapter sub subscribed => (attributed.owned adapter sub subscribed).1

/-- In every run of every pool of brokers no PUBLISH goes through a No Local
subscription to the connection that published the message. -/
theorem noLocal_wholeRuns (lib : OptionsApi Opts) (pool : List Adapter)
    (home : Connection → SettingsPtr) (turns : List (Turn Opts Property))
    (admitted : (machine lib pool home).Admits start turns) :
    (machine lib pool home).EachStep (RespectsNoLocal lib pool) start turns :=
  (machine lib pool home).eachStep_of_invariant (Attributed home) (RespectsNoLocal lib pool)
    (fun _ turn enabled attributed => attributed_step lib pool turn enabled attributed)
    (fun _ turn enabled attributed =>
      respectsNoLocal_of_attributed lib pool turn enabled attributed)
    start turns admitted (attributed_start home)

/-- A v5 client with a No Local subscription publishes to it, and so does a v3
client of the same broker; the broker of another adapter has a No Local
subscriber of its own. -/
def noLocalSubscribers : List (Turn UInt8 Text) :=
  [.client 1 (.accept 1 (some {})), .client 1 (.connect .v5 1 (bytes "one")),
    .client 1 (.subscribe .v5 1 1 [(bytes "a", ⟨.atMostOnce, .dont, .yes⟩)]),
    .client 1 (.accept 2 (some {})), .client 1 (.connect .v3 2 (bytes "two")),
    .client 2 (.accept 3 (some {})), .client 2 (.connect .v5 3 (bytes "three")),
    .client 2 (.subscribe .v5 3 1 [(bytes "a", ⟨.atMostOnce, .dont, .yes⟩)]),
    .client 1 (.v5Publish 1 (fun _ => true) 0 (bytes "a") (bytes "hello") []),
    .client 1 (.publish 2 (fun _ => true) 0 (bytes "a") (bytes "again")),
    .drain (fun _ _ _ => true)]

theorem noLocal_wholeRuns_subscribers :
    (machine byteOptions [⟨1, Scope.global⟩, ⟨2, Scope.global⟩] fun con =>
        if con = 3 then 2 else 1).EachStep
      (RespectsNoLocal byteOptions [⟨1, Scope.global⟩, ⟨2, Scope.global⟩]) start
        noLocalSubscribers :=
  noLocal_wholeRuns byteOptions [⟨1, Scope.global⟩, ⟨2, Scope.global⟩]
    (fun con => if con = 3 then 2 else 1) noLocalSubscribers (by decide)

end Conversation

end OctopusMq
