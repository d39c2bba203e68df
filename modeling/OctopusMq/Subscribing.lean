import OctopusMq.Session
import Mathlib.Data.List.Find

set_option autoImplicit false

/- What the subscribe and unsubscribe handlers do to the subscription table. -/
namespace OctopusMq.Broker

open Imperative OrderedTable Transition

variable {Opts Property Code : Type}

/-- Erasing topics one by one erases every subscription to one of them, whoever holds it. -/
theorem foldl_eraseTopic_entries (topics : List Text) (subs : SubscriptionContainer) :
    (topics.foldl eraseTopic subs).entries =
      subs.entries.filter (fun sub => sub.topicFilter ∉ topics) := by
  induction topics generalizing subs with
  | nil => simp
  | cons topic rest ih =>
      rw [List.foldl_cons, ih, eraseTopic, Table.eraseWhere_entries, List.filter_filter]
      apply List.filter_congr
      intro sub _
      by_cases same : sub.topicFilter = topic <;> simp [same]

theorem unsubscribe_entries (self : Broker) (con : Connection) (packetId : UInt16)
    (topics : List Text) :
    (unsubscribe con packetId topics self : Result Property).state.subs.entries =
      self.subs.entries.filter (fun sub => sub.topicFilter ∉ topics) :=
  foldl_eraseTopic_entries topics self.subs

/-- The table an UNSUBSCRIBE of `con` leaves is the one before minus exactly the
subscriptions of `con` to the listed topics. -/
def UnsubscribesOnly (con : Connection) (topics : List Text) (before after : Broker) : Prop :=
  after.subs.entries =
    before.subs.entries.filter (fun sub => ¬ (sub.con = con ∧ sub.topicFilter ∈ topics))

theorem unsubscribe_unsubscribesOnly_iff (self : Broker) (con : Connection) (packetId : UInt16)
    (topics : List Text) :
    UnsubscribesOnly con topics self
        (unsubscribe con packetId topics self : Result Property).state ↔
      ∀ sub ∈ self.subs.entries, sub.topicFilter ∈ topics → sub.con = con := by
  rw [UnsubscribesOnly, unsubscribe_entries]
  refine ⟨?_, ?_⟩
  · intro same sub member listed
    apply Decidable.byContradiction
    intro other
    have kept : sub ∈ self.subs.entries.filter
        (fun sub => ¬ (sub.con = con ∧ sub.topicFilter ∈ topics)) := by
      simp [member, other]
    rw [← same] at kept
    simp [listed] at kept
  · intro own
    apply List.filter_congr
    intro sub member
    by_cases listed : sub.topicFilter ∈ topics
    · simp [listed, own sub member listed]
    · simp [listed]

/-- The unsubscribe handlers isolate the other connections exactly when none of
them holds one of the listed filters. -/
theorem unsubscribe_isolated_iff (self : Broker) (con : Connection) (packetId : UInt16)
    (topics : List Text) :
    (UnsubscribesOnly con topics self
        (unsubscribeHandler con packetId topics self : Result Property).state ↔
      ∀ sub ∈ self.subs.entries, sub.topicFilter ∈ topics → sub.con = con) ∧
    (UnsubscribesOnly con topics self
        (v5UnsubscribeHandler con packetId topics self : Result Property).state ↔
      ∀ sub ∈ self.subs.entries, sub.topicFilter ∈ topics → sub.con = con) :=
  ⟨unsubscribe_unsubscribesOnly_iff self con packetId topics,
    unsubscribe_unsubscribesOnly_iff self con packetId topics⟩

theorem unsubscribe_not_isolated :
    ¬ ∀ (state : Session) (con : Connection) (packetId : UInt16) (topics : List Text),
      (Session.machine byteOptions :
        Machine Session (Event UInt8 Text)).Reachable Session.fresh state →
      UnsubscribesOnly con topics state.broker
          (unsubscribeHandler con packetId topics state.broker : Result Text).state ∧
        UnsubscribesOnly con topics state.broker
          (v5UnsubscribeHandler con packetId topics state.broker : Result Text).state := by
  intro isolated
  have both := isolated ((Session.machine byteOptions).run Session.fresh Session.sharedFilter) 1 2
    [bytes "a"] ⟨Session.sharedFilter, by decide, rfl⟩
  have lost : ¬ UnsubscribesOnly 1 [bytes "a"]
      ((Session.machine byteOptions).run Session.fresh Session.sharedFilter).broker
      (unsubscribeHandler 1 2 [bytes "a"]
        ((Session.machine byteOptions).run Session.fresh Session.sharedFilter).broker :
          Result Text).state := by
    unfold UnsubscribesOnly
    decide
  exact lost both.1

/-- The answer code of one entry. -/
def entryCode (granted : Qos → Code) (refused : Code) (entry : Text × SubscribeOptions) : Code :=
  if Scope.Accepted entry.1 then granted entry.2.qos else refused

/-- The subscriptions a request asks for: one for each valid entry. -/
def requested (subscription : Text → SubscribeOptions → Subscription)
    (entries : List (Text × SubscribeOptions)) : List Subscription :=
  (entries.filter fun entry => Scope.Accepted entry.1).map fun entry =>
    subscription entry.1 entry.2

/-- The loop answers every entry in order and emplaces the valid ones in order. -/
theorem forEach_subscribeEntry (subscription : Text → SubscribeOptions → Subscription)
    (granted : Qos → Code) (refused : Code) (entries : List (Text × SubscribeOptions))
    (self : Broker) (codes : List Code) :
    (Outcome.forEach (subscribeEntry subscription granted refused) entries (self, codes) :
        Outcome (Broker × List Code) (Effect Property) Fault) =
      .done ({ self with subs := (requested subscription entries).foldl Table.emplace self.subs },
        codes ++ entries.map (entryCode granted refused)) := by
  induction entries generalizing self codes with
  | nil => simp [requested]
  | cons entry rest ih =>
      rw [Outcome.forEach_cons]
      by_cases good : Scope.Accepted entry.1
      · have step : (subscribeEntry subscription granted refused entry (self, codes) :
            Outcome (Broker × List Code) (Effect Property) Fault) =
            .done ({ self with subs := self.subs.emplace (subscription entry.1 entry.2) },
              codes ++ [granted entry.2.qos]) := by
          simp only [subscribeEntry, Scope.validTopicFilter_eq, good, decide_true]
        rw [step, Outcome.done_andThen, ih]
        simp [requested, entryCode, good]
      · have step : (subscribeEntry subscription granted refused entry (self, codes) :
            Outcome (Broker × List Code) (Effect Property) Fault) =
            .done (self, codes ++ [refused]) := by
          simp only [subscribeEntry, Scope.validTopicFilter_eq, good, decide_false]
        rw [step, Outcome.done_andThen, ih]
        simp [requested, entryCode, good]

/-- A subscribe handler returns, sends one SUBACK with a code for each entry and
emplaces the valid entries in order. -/
theorem subscribeWith_eq (subscription : Text → SubscribeOptions → Subscription)
    (granted : Qos → Code) (refused : Code) (suback : List Code → Packet Property)
    (con : Connection) (entries : List (Text × SubscribeOptions)) (self : Broker) :
    subscribeWith subscription granted refused suback con entries self =
      .emit
        { self.touch con with
          subs := (requested subscription entries).foldl Table.emplace self.subs }
        (.send con (suback (entries.map (entryCode granted refused)))) := by
  simp [subscribeWith, forEach_subscribeEntry]

/-- One SUBACK answers the entries one by one, and the keys of `con` for the valid
filters are all that the table gains. -/
structure Subscribes (granted : Qos → Code) (refused : Code) (suback : List Code → Packet Property)
    (con : Connection) (entries : List (Text × SubscribeOptions)) (before : Broker)
    (outcome : Result Property) : Prop where
  returns : outcome.fault = none
  answered : ∃ codes, outcome.effects = [.send con (suback codes)] ∧
    codes.length = entries.length ∧
    ∀ (index : Nat) (entry : Text × SubscribeOptions), entries[index]? = some entry →
      (codes[index]? = some refused ↔ Scope.validTopicFilter entry.1 ≠ .ok true) ∧
      (Scope.validTopicFilter entry.1 = .ok true → codes[index]? = some (granted entry.2.qos))
  keys : ∀ key, key ∈ outcome.state.subs.entries.map Subscription.key ↔
    key ∈ before.subs.entries.map Subscription.key ∨
      ∃ entry ∈ entries, Scope.validTopicFilter entry.1 = .ok true ∧ key = (con, entry.1)
  others : outcome.state.subs.entries.filter (fun sub => sub.con ≠ con) =
    before.subs.entries.filter (fun sub => sub.con ≠ con)

theorem validTopicFilter_ok_true_iff (filter : Text) :
    Scope.validTopicFilter filter = .ok true ↔ Scope.Accepted filter := by
  simp [Scope.validTopicFilter_eq]

/-- The keys a request asks for. -/
theorem mem_keys_requested (subscription : Text → SubscribeOptions → Subscription)
    (con : Connection) (keyed : ∀ filter options, (subscription filter options).key = (con, filter))
    (entries : List (Text × SubscribeOptions)) (key : Connection × Text) :
    key ∈ (requested subscription entries).map Subscription.key ↔
      ∃ entry ∈ entries, Scope.validTopicFilter entry.1 = .ok true ∧ key = (con, entry.1) := by
  simp only [requested, List.map_map, List.mem_map, List.mem_filter, decide_eq_true_eq,
    Function.comp_apply, keyed, validTopicFilter_ok_true_iff, and_assoc, @eq_comm _ key]

theorem subscribeWith_subscribes (subscription : Text → SubscribeOptions → Subscription)
    (granted : Qos → Code) (refused : Code) (suback : List Code → Packet Property)
    (distinct : ∀ qos, granted qos ≠ refused) (con : Connection)
    (keyed : ∀ filter options, (subscription filter options).key = (con, filter))
    (entries : List (Text × SubscribeOptions)) (self : Broker) :
    Subscribes granted refused suback con entries self
      (subscribeWith subscription granted refused suback con entries self) := by
  rw [subscribeWith_eq]
  refine ⟨rfl, ⟨entries.map (entryCode granted refused), rfl, by simp, ?_⟩, ?_, ?_⟩
  · intro index entry found
    rw [List.getElem?_map, found, ne_eq, validTopicFilter_ok_true_iff]
    by_cases valid : Scope.Accepted entry.1
    · simp [entryCode, valid, distinct]
    · simp [entryCode, valid]
  · intro key
    rw [← mem_keys_requested subscription con keyed]
    exact Table.mem_keys_foldl_emplace (requested subscription entries) self.subs key
  · apply Table.filter_foldl_emplace_of_dropped
    intro sub member
    obtain ⟨entry, _, same⟩ := List.mem_map.mp member
    have own : sub.con = con := by
      rw [← same]
      exact congrArg Prod.fst (keyed entry.1 entry.2)
    simp [own]

/-- Whatever the table, SUBACK and the table line up with the entries. -/
theorem subscribe_subscribes (self : Broker) (con : Connection) (packetId : UInt16)
    (entries : List (Text × SubscribeOptions)) :
    Subscribes SubackReturnCode.successMaximumQos .failure (.suback packetId) con entries self
        (subscribeHandler con packetId entries self : Result Property) ∧
    Subscribes SubackReasonCode.grantedQos .topicFilterInvalid (.v5Suback packetId) con entries self
        (v5SubscribeHandler con packetId entries self : Result Property) :=
  ⟨subscribeWith_subscribes _ _ _ _ (by simp) con (fun _ _ => rfl) entries self,
    subscribeWith_subscribes _ _ _ _ (by simp) con (fun _ _ => rfl) entries self⟩

/-- For the last entry of every valid filter of the request, the table holds one
subscription of `con` to it, which agrees with the options of that entry, and
the SUBACK grants the QoS that is stored. -/
def GrantsStored (granted : Qos → Code) (suback : List Code → Packet Property)
    (agrees : Subscription → SubscribeOptions → Prop) (con : Connection)
    (entries : List (Text × SubscribeOptions)) (outcome : Result Property) : Prop :=
  ∃ codes, outcome.effects = [.send con (suback codes)] ∧
    ∀ before filter options after, entries = before ++ (filter, options) :: after →
      Scope.validTopicFilter filter = .ok true → (∀ entry ∈ after, entry.1 ≠ filter) →
      ∃ sub,
        (∀ other, other ∈ outcome.state.subs.entries ∧ other.con = con ∧
          other.topicFilter = filter ↔ other = sub) ∧
        agrees sub options ∧ codes[before.length]? = some (granted sub.qosValue)

/-- The subscription that a request leaves under a filter: the one already
stored, else the first of the request. -/
def keptSubscription (subscription : Text → SubscribeOptions → Subscription) (con : Connection)
    (filter : Text) (entries : List (Text × SubscribeOptions)) (self : Broker) :
    Option Subscription :=
  (self.subs.lookup (con, filter)).or
    ((entries.find? fun entry => entry.1 = filter).map fun entry => subscription entry.1 entry.2)

/-- The subscription kept for a filter agrees with the last entry that names it. -/
def KeepsLast (subscription : Text → SubscribeOptions → Subscription)
    (agrees : Subscription → SubscribeOptions → Prop) (con : Connection)
    (entries : List (Text × SubscribeOptions)) (self : Broker) : Prop :=
  ∀ before filter options after, entries = before ++ (filter, options) :: after →
    Scope.validTopicFilter filter = .ok true → (∀ entry ∈ after, entry.1 ≠ filter) →
    ∀ kept ∈ keptSubscription subscription con filter entries self, agrees kept options

/-- What the table holds under a valid filter after the request. -/
theorem lookup_requested (subscription : Text → SubscribeOptions → Subscription)
    (con : Connection) (keyed : ∀ filter options, (subscription filter options).key = (con, filter))
    (entries : List (Text × SubscribeOptions)) (self : Broker) (filter : Text)
    (good : Scope.Accepted filter) :
    ((requested subscription entries).foldl Table.emplace self.subs).lookup (con, filter) =
      keptSubscription subscription con filter entries self := by
  rw [Table.lookup_foldl_emplace, keptSubscription, requested, List.find?_map, List.find?_filter]
  congr 2
  apply List.find?_congr
  intro entry _
  simp only [Function.comp_apply, keyed, Prod.mk.injEq, true_and]
  by_cases same : entry.1 = filter <;> simp [same, good]

theorem keptSubscription_isSome (subscription : Text → SubscribeOptions → Subscription)
    (con : Connection) (entries : List (Text × SubscribeOptions)) (self : Broker) (filter : Text)
    (options : SubscribeOptions) (listed : (filter, options) ∈ entries) :
    ∃ kept, keptSubscription subscription con filter entries self = some kept := by
  have found : (entries.find? fun entry => entry.1 = filter).isSome := by
    rw [List.find?_isSome]
    exact ⟨(filter, options), listed, by simp⟩
  obtain ⟨first, same⟩ := Option.isSome_iff_exists.mp found
  unfold keptSubscription
  rw [same]
  cases self.subs.lookup (con, filter) with
  | none => exact ⟨_, rfl⟩
  | some old => exact ⟨old, rfl⟩

/-- After the request, the kept subscription is the only one of `con` under the filter. -/
theorem subscribeWith_stored_iff (subscription : Text → SubscribeOptions → Subscription)
    (granted : Qos → Code) (refused : Code) (suback : List Code → Packet Property)
    (con : Connection) (keyed : ∀ filter options, (subscription filter options).key = (con, filter))
    (entries : List (Text × SubscribeOptions)) (self : Broker) {filter : Text}
    {kept : Subscription} (good : Scope.Accepted filter)
    (isKept : keptSubscription subscription con filter entries self = some kept)
    (other : Subscription) :
    other ∈
        (subscribeWith subscription granted refused suback con entries self).state.subs.entries ∧
        other.con = con ∧ other.topicFilter = filter ↔ other = kept := by
  have found := (lookup_requested subscription con keyed entries self filter good).trans isKept
  have unique := Table.mem_and_key_eq_iff found other
  rw [Subscription.key, Prod.mk.injEq] at unique
  rw [subscribeWith_eq]
  exact unique

theorem subscribeWith_grantsStored_iff (subscription : Text → SubscribeOptions → Subscription)
    (granted : Qos → Code) (refused : Code) (suback : List Code → Packet Property)
    (agrees : Subscription → SubscribeOptions → Prop) (con : Connection)
    (keyed : ∀ filter options, (subscription filter options).key = (con, filter))
    (agreesQos : ∀ sub options, agrees sub options → sub.qosValue = options.qos)
    (entries : List (Text × SubscribeOptions)) (self : Broker) :
    GrantsStored granted suback agrees con entries
        (subscribeWith subscription granted refused suback con entries self) ↔
      KeepsLast subscription agrees con entries self := by
  refine ⟨?_, ?_⟩
  · intro grants before filter options rest split valid last kept isKept
    obtain ⟨codes, _, each⟩ := grants
    obtain ⟨sub, unique, agreed, _⟩ := each before filter options rest split valid last
    have good : Scope.Accepted filter := by simpa [Scope.validTopicFilter_eq] using valid
    have stored := subscribeWith_stored_iff subscription granted refused suback con keyed entries
      self good isKept
    have same : kept = sub := (unique kept).mp ((stored kept).mpr rfl)
    rw [same]
    exact agreed
  · intro keeps
    refine ⟨entries.map (entryCode granted refused), by rw [subscribeWith_eq]; rfl, ?_⟩
    intro before filter options rest split valid last
    have good : Scope.Accepted filter := by simpa [Scope.validTopicFilter_eq] using valid
    obtain ⟨kept, isKept⟩ := keptSubscription_isSome subscription con entries self filter options
      (by rw [split]; simp)
    have stored := subscribeWith_stored_iff subscription granted refused suback con keyed entries
      self good isKept
    have agreed := keeps before filter options rest split valid last kept isKept
    refine ⟨kept, stored, agreed, ?_⟩
    rw [split, agreesQos kept options agreed]
    simp [entryCode, good]

/-- The QoS of a v3 subscription is that of the entry. -/
def AgreesV3 (sub : Subscription) (options : SubscribeOptions) : Prop :=
  sub.qosValue = options.qos

/-- All options of a v5 subscription are those of the entry. -/
def AgreesV5 (sub : Subscription) (options : SubscribeOptions) : Prop :=
  sub.qosValue = options.qos ∧ sub.rapValue = options.rap ∧ sub.nlValue = options.nl

/-- SUBACK grants what is stored exactly when, for every valid filter of the
request, the subscription already stored, or else the first entry for the
filter, has the options of the last entry. -/
theorem subscribe_grantsStored_iff (self : Broker) (con : Connection) (packetId : UInt16)
    (entries : List (Text × SubscribeOptions)) :
    (GrantsStored SubackReturnCode.successMaximumQos (.suback packetId) AgreesV3 con entries
        (subscribeHandler con packetId entries self : Result Property) ↔
      KeepsLast (fun filter options => .v3 filter con options) AgreesV3 con entries self) ∧
    (GrantsStored SubackReasonCode.grantedQos (.v5Suback packetId) AgreesV5 con entries
        (v5SubscribeHandler con packetId entries self : Result Property) ↔
      KeepsLast (fun filter options => .v5 filter con options) AgreesV5 con entries self) :=
  ⟨subscribeWith_grantsStored_iff _ _ _ _ AgreesV3 con (fun _ _ => rfl)
      (fun _ _ agreed => agreed) entries self,
    subscribeWith_grantsStored_iff _ _ _ _ AgreesV5 con (fun _ _ => rfl)
      (fun _ _ agreed => agreed.1) entries self⟩

/-- Subscribing again with QoS 1 is granted, but QoS 0 stays in the table. -/
theorem subscribe_grants_unstored :
    ¬ ∀ (state : Session) (con : Connection) (packetId : UInt16)
        (entries : List (Text × SubscribeOptions)),
      (Session.machine byteOptions :
        Machine Session (Event UInt8 Text)).Reachable Session.fresh state →
      GrantsStored SubackReturnCode.successMaximumQos (.suback packetId) AgreesV3 con entries
          (subscribeHandler con packetId entries state.broker : Result Text) ∧
        GrantsStored SubackReasonCode.grantedQos (.v5Suback packetId) AgreesV5 con entries
          (v5SubscribeHandler con packetId entries state.broker : Result Text) := by
  intro grants
  have both := grants ((Session.machine byteOptions).run Session.fresh Session.subscribedOnce) 1 2
    [(bytes "a", ⟨.atLeastOnce, .dont, .no⟩)] ⟨Session.subscribedOnce, by decide, rfl⟩
  obtain ⟨codes, _, each⟩ := both.1
  obtain ⟨sub, unique, agreed, _⟩ := each [] (bytes "a") ⟨.atLeastOnce, .dont, .no⟩ [] rfl
    (by decide) (by simp)
  have stored := (unique ⟨bytes "a", 1, .atMostOnce, .dont, .no⟩).mp (by decide)
  rw [← stored] at agreed
  cases agreed

end OctopusMq.Broker
