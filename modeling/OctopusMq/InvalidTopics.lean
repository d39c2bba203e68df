import OctopusMq.ScopeLists
import OctopusMq.SentThrough
import OctopusMq.Queue

set_option autoImplicit false

/- Strings that are no topic name: the shortcuts for `#` are the only way they
are matched, sent to a subscriber or handed to another adapter. -/
namespace OctopusMq

open Imperative OrderedTable Transition

variable {Opts Property : Type}

namespace Scope

/-- `matches_filter` without its shortcut. -/
def tokenizeAndCompare (filter topic : Text) : Except Fault Bool :=
  match tokenizeTopicFilter filter with
  | .error fault => .error fault
  | .ok filterTokens =>
      match tokenizeTopic topic with
      | .error fault => .error fault
      | .ok topicTokens =>
          if filterTokens.isEmpty ∨ topicTokens.isEmpty then .ok false
          else compareTopics filterTokens topicTokens

theorem tokenizeTopic_eq_nil_iff (topic : Text) :
    tokenizeTopic topic = .ok [] ↔ ¬ TopicName topic := by
  rw [tokenizeTopic_eq, Except.ok.injEq]
  by_cases name : TopicName topic
  · simp only [name, ↓reduceIte, levels_ne_nil, not_true_eq_false]
  · simp only [name, ↓reduceIte, not_false_eq_true]

theorem tokenizeAndCompare_hash (topic : Text) :
    tokenizeAndCompare hashSign topic = .ok (decide (TopicName topic)) := by
  have accepted : Accepted hashSign := by decide
  have single : levels hashSign = [hashSign] := (levels_eq_hash_iff hashSign).mpr rfl
  unfold tokenizeAndCompare
  rw [tokenizeTopicFilter_eq, if_pos accepted, tokenizeTopic_eq, single]
  by_cases name : TopicName topic
  · simp [name, levels_ne_nil, compareTopics]
  · simp [name]

theorem matchesFilter_invalid {topic : Text} (filter : Text) (invalid : ¬ TopicName topic) :
    matchesFilter filter topic = .ok (decide (filter = hashSign)) := by
  rw [matchesFilter_eq]
  by_cases shortcut : filter = hashSign
  · rw [if_pos shortcut, decide_eq_true shortcut]
  · rw [if_neg shortcut, if_neg (fun both => invalid both.2), decide_eq_false shortcut]

theorem includes_invalid {topic : Text} (self : Scope) (invalid : ¬ TopicName topic) :
    self.includes topic = .ok self.isGlobalWildcard := by
  rw [includes_eq]
  cases self.isGlobalWildcard with
  | true => rfl
  | false => rw [if_neg Bool.false_ne_true, if_neg invalid]

end Scope

namespace Broker

/-- A delivery loop for a string that is no topic name comes to a send at the
first `#` it does not skip. The induction is on the table. -/
theorem sentThrough_invalid_eq_nil_iff (connected : Connection → Bool) {topicName : Text}
    (invalid : ¬ Scope.TopicName topicName) (packet : Subscription → Option (Packet Property))
    (subs : List Subscription) (state : Broker) :
    sentThrough connected topicName packet subs state = [] ↔
      ∀ sub ∈ subs, sub.topicFilter = Scope.hashSign → packet sub = none := by
  induction subs generalizing state with
  | nil => simp [sentThrough, Outcome.trace]
  | cons sub rest ih =>
      have found := Scope.matchesFilter_invalid sub.topicFilter invalid
      unfold sentThrough Outcome.trace
      rw [(deliver_uniform connected topicName packet).fault_eq, List.forall_mem_cons]
      by_cases skipped : sub.topicFilter = Scope.hashSign → packet sub = none
      · have nothing : delivery topicName packet sub = none ∧
            deliveryFault connected topicName packet sub = none := by
          unfold delivery deliveryFault
          rw [found]
          by_cases shortcut : sub.topicFilter = Scope.hashSign
          · simp [shortcut, skipped shortcut]
          · simp [shortcut]
        rw [nothing.1, nothing.2]
        exact (ih _).trans ⟨fun tail => ⟨skipped, tail⟩, And.right⟩
      · have sending : delivery topicName packet sub ≠ none := by
          unfold delivery
          simp only [Classical.not_imp] at skipped
          rw [found, decide_eq_true skipped.1]
          simpa using skipped.2
        obtain ⟨sent, same⟩ := Option.ne_none_iff_exists'.mp sending
        rw [same]
        simp [skipped]

end Broker

namespace System

/-- The loop over the pool hands an item whose topic is no topic name to some
adapter exactly when the scope of one other than its origin is global. -/
theorem forEach_injectInto_invalid_iff (lib : OptionsApi Opts)
    (connected : SettingsPtr → Connection → Bool) (item : AdapterMessagePair Property)
    (invalid : ¬ Scope.TopicName item.2.topic) (pool : List Adapter) (self : System Property) :
    (∀ into, .inject into item ∉
        (Outcome.forEach (injectInto lib connected item) pool self).effects) ↔
      ∀ adapter ∈ pool, adapter.settings ≠ item.1 → adapter.scope.isGlobalWildcard = false := by
  induction pool with
  | nil => simp
  | cons adapter rest ih =>
      rw [Outcome.forEach_cons, List.forall_mem_cons]
      have included := Scope.includes_invalid adapter.scope invalid
      by_cases passed : adapter.settings ≠ item.1 → adapter.scope.isGlobalWildcard = false
      · have skipped : injectInto lib connected item adapter self = .done self := by
          unfold injectInto
          by_cases foreign : adapter.settings ≠ item.1
          · rw [if_pos foreign, included, passed foreign]
          · rw [if_neg foreign]
        rw [skipped, Outcome.done_andThen, ih]
        exact ⟨fun tail => ⟨passed, tail⟩, And.right⟩
      · have handed : .inject adapter.settings item ∈
            (injectInto lib connected item adapter self).effects := by
          simp only [Classical.not_imp, Bool.not_eq_false] at passed
          unfold injectInto
          rw [if_pos passed.1, included, passed.2]
          exact List.mem_cons_self
        simp only [passed, false_and, iff_false, not_forall, not_not]
        exact ⟨adapter.settings, Outcome.mem_andThen_effects_of_left handed⟩

end System

/-- What becomes of a string that is no topic name: it is matched, sent and handed
over by `#` alone. -/
structure RoutedByHashOnly (lib : OptionsApi Opts) (Property : Type) (topic : Text) : Prop where
  filters : ∀ filter, Scope.matchesFilter filter topic = .ok false ↔ filter ≠ Scope.hashSign
  listScopes : ∀ filters built, Scope.ofVector filters = .ok built →
    (built.includes topic = .ok false ↔ Scope.hashSign ∉ filters)
  stringScopes : ∀ filter built, Scope.ofString filter = .ok built →
    (built.includes topic = .ok false ↔ filter ≠ Scope.hashSign)
  defaultScope : Scope.global.includes topic = .ok true
  published : ∀ connected con pubopts contents (self : Broker),
    Broker.sends (Broker.publishHandler lib connected con pubopts topic contents self :
        Broker.Result Property).effects = [] ↔
      ∀ sub ∈ self.subs.entries, sub.topicFilter ≠ Scope.hashSign
  v5Published : ∀ connected con pubopts contents (props : List Property) (self : Broker),
    Broker.sends (Broker.v5PublishHandler lib connected con pubopts topic contents props
        self).effects = [] ↔
      ∀ sub ∈ self.subs.entries, sub.topicFilter = Scope.hashSign →
        sub.nlValue = .yes ∧ sub.con = con
  injected : ∀ connected (message : Message Property) (self : Broker), message.topic = topic →
    (Broker.sends (Broker.injectPublish lib connected message self).effects = [] ↔
      ∀ sub ∈ self.subs.entries, sub.topicFilter ≠ Scope.hashSign)
  handedOver : ∀ connected (item : AdapterMessagePair Property) (pool : List Adapter)
    (self : System Property), item.2.topic = topic →
    ((∀ into, .inject into item ∉
        (Outcome.forEach (System.injectInto lib connected item) pool self).effects) ↔
      ∀ adapter ∈ pool, adapter.settings ≠ item.1 → adapter.scope.isGlobalWildcard = false)

theorem routedByHashOnly (lib : OptionsApi Opts) {topic : Text}
    (invalid : ¬ Scope.TopicName topic) :
    RoutedByHashOnly lib Property topic where
  filters := by
    intro filter
    rw [Scope.matchesFilter_invalid filter invalid, Except.ok.injEq, decide_eq_false_iff_not]
  listScopes := by
    intro filters built returned
    rw [Scope.includes_invalid built invalid, (Scope.ofVector_stored returned).2.2,
      Except.ok.injEq, decide_eq_false_iff_not]
  stringScopes := by
    intro filter built returned
    rw [Scope.includes_invalid built invalid, Scope.ofString_wildcard returned, Except.ok.injEq,
      decide_eq_false_iff_not]
  defaultScope := Scope.includes_invalid Scope.global invalid
  published := by
    intro connected con pubopts contents self
    rw [Broker.sends_publishHandler, List.map_eq_nil_iff, Broker.publishSent,
      Broker.sentThrough_invalid_eq_nil_iff connected invalid]
    simp only [Broker.v3Delivery, reduceCtorEq, imp_false, ne_eq]
  v5Published := by
    intro connected con pubopts contents props self
    rw [Broker.sends_v5PublishHandler, List.map_eq_nil_iff, Broker.v5PublishSent,
      Broker.sentThrough_invalid_eq_nil_iff connected invalid]
    simp only [Broker.v5Delivery, ite_eq_left_iff, reduceCtorEq, imp_false, not_not]
  injected := by
    intro connected message self same
    rw [← same] at invalid
    rw [Broker.sends_injectPublish, List.map_eq_nil_iff, Broker.injectPublishSent,
      Broker.sentThrough_invalid_eq_nil_iff connected invalid]
    have sending (sub : Subscription) : Broker.injectedDelivery lib message sub ≠ none := by
      unfold Broker.injectedDelivery
      cases message.mqttVersion <;> simp
    simp only [sending, imp_false, ne_eq]
  handedOver := by
    intro connected item pool self same
    rw [← same] at invalid
    exact System.forEach_injectInto_invalid_iff lib connected item invalid pool self

/-- The shortcut for `#` agrees with the general path on topic names alone. What is
no topic name is routed nowhere exactly where no `#` is met: as a filter, in a
scope, in the table of a broker, and in the scopes of the other adapters. -/
theorem invalidTopic_routedByHashOnly (lib : OptionsApi Opts) :
    (∀ topic, Scope.matchesFilter Scope.hashSign topic =
        Scope.tokenizeAndCompare Scope.hashSign topic ↔ Scope.tokenizeTopic topic ≠ .ok []) ∧
    ∀ topic, Scope.tokenizeTopic topic = .ok [] → RoutedByHashOnly lib Property topic := by
  refine ⟨?_, ?_⟩
  · intro topic
    rw [Scope.tokenizeAndCompare_hash, ne_eq, Scope.tokenizeTopic_eq_nil_iff, not_not,
      Scope.matchesFilter_eq, if_pos rfl, Except.ok.injEq, eq_comm, decide_eq_true_eq]
  · intro topic invalid
    exact routedByHashOnly lib ((Scope.tokenizeTopic_eq_nil_iff topic).mp invalid)

/-- A client that subscribed to `#`, and another one. -/
def Session.allTopics : List (Event UInt8 Text) :=
  [.accept 1 (some {}), .connect .v3 1 (bytes "one"),
    .subscribe .v3 1 1 [(Scope.hashSign, ⟨.atMostOnce, .dont, .no⟩)],
    .accept 2 (some {}), .connect .v3 2 (bytes "two")]

/-- `a/+` is no topic name, but matches `#`, is in a scope built from `#`, and is
published to the subscriber of `#`. -/
theorem invalidTopic_routed :
    ¬ (∀ filter topic, Scope.tokenizeTopic topic = .ok [] →
      Scope.matchesFilter filter topic = .ok false) ∧
    ¬ (∀ filters built, Scope.ofVector filters = .ok built → ∀ topic,
      Scope.tokenizeTopic topic = .ok [] → built.includes topic = .ok false) ∧
    ¬ (∀ (state : Session) (connected : Connection → Bool) (con : Connection) (pubopts : UInt8)
        (topicName contents : Text),
      (Session.machine byteOptions : Machine Session (Event UInt8 Text)).Reachable
        Session.fresh state →
      state.enabled (.publish con connected pubopts topicName contents : Event UInt8 Text) →
      Scope.tokenizeTopic topicName = .ok [] →
      Broker.sends (Broker.publishHandler byteOptions connected con pubopts topicName contents
        state.broker : Broker.Result Text).effects = []) := by
  refine ⟨?_, ?_, ?_⟩
  · intro unmatched
    exact absurd (unmatched Scope.hashSign (bytes "a/+") (by decide)) (by decide)
  · intro outside
    have global : Scope.ofVector [Scope.hashSign] =
        .ok { Scope.blank with isGlobalWildcard := true } := rfl
    exact absurd (outside [Scope.hashSign] _ global (bytes "a/+") (by decide)) (by decide)
  · intro unsent
    have silent := unsent ((Session.machine byteOptions).run Session.fresh Session.allTopics)
      (fun _ => true) 2 0 (bytes "a/+") [] ⟨Session.allTopics, by decide, rfl⟩ (by decide)
      (by decide)
    exact absurd silent (by decide)

end OctopusMq
