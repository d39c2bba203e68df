import OctopusMq.Session

set_option autoImplicit false

/- The three delivery loops: what each iteration sends, where a loop stops, and
what a stop costs the subscriptions behind it. -/
namespace OctopusMq

open Imperative OrderedTable Transition

variable {Opts Property : Type}

namespace Broker

section Loop

variable (connected : Connection → Bool) (topicName : Text)
  (packet : Subscription → Option (Packet Property))

/-- What the iteration for a subscription sends. -/
def delivery (sub : Subscription) : Option (Connection × Packet Property) :=
  match Scope.matchesFilter sub.topicFilter topicName with
  | .ok true => (packet sub).map fun packet => (sub.con, packet)
  | _ => none

def deliveryEffects (sub : Subscription) : List (Effect Property) :=
  ((delivery topicName packet sub).map fun sent => .send sent.1 sent.2).toList

/-- The fault of the iteration for a subscription. -/
def deliveryFault (sub : Subscription) : Option Fault :=
  match Scope.matchesFilter sub.topicFilter topicName with
  | .error fault => some fault
  | .ok false => none
  | .ok true => if (packet sub).isSome ∧ connected sub.con = false then some .notConnected else none

/-- The publish gets as far as a send to the subscription. -/
def Reaches (sub : Subscription) : Prop :=
  Scope.Delivers sub.topicFilter topicName ∧ (packet sub).isSome

/-- The loop does not get past the subscription: its filter is overread, or it is
reached and its socket has no remote endpoint any more. -/
def Stops (sub : Subscription) : Prop :=
  Scope.Overreads sub.topicFilter topicName ∨
    Reaches topicName packet sub ∧ connected sub.con = false

/-- The publish reaches the subscription and its socket is connected. -/
def Served (sub : Subscription) : Prop :=
  Reaches topicName packet sub ∧ connected sub.con = true

/-- Every subscription that the publish reaches on a connected socket is sent its
packet, in the order of the table. -/
def ServesConnected (subs : SubscriptionContainer) (outcome : Result Property) : Prop :=
  ((subs.entries.filterMap (delivery topicName packet)).filter
    fun sent => connected sent.1).Sublist (sends outcome.effects)

/-- One iteration: the cases are those of the comparison, the packet and the socket. -/
theorem deliver_spec (sub : Subscription) (self : Broker) :
    (deliver connected topicName packet sub self).effects = deliveryEffects topicName packet sub ∧
      (deliver connected topicName packet sub self).fault =
        deliveryFault connected topicName packet sub := by
  unfold deliver deliveryEffects delivery deliveryFault
  cases Scope.matchesFilter sub.topicFilter topicName with
  | error fault => exact ⟨rfl, rfl⟩
  | ok found =>
      cases found with
      | false => exact ⟨rfl, rfl⟩
      | true =>
          cases packet sub with
          | none => exact ⟨rfl, rfl⟩
          | some packet => by_cases alive : connected sub.con = true <;> simp [alive]

theorem deliver_uniform :
    Outcome.Uniform (deliver connected topicName packet) (deliveryEffects topicName packet)
      (deliveryFault connected topicName packet) :=
  ⟨fun sub self => (deliver_spec connected topicName packet sub self).1,
    fun sub self => (deliver_spec connected topicName packet sub self).2⟩

theorem delivery_eq_some_iff (sub : Subscription) (sent : Connection × Packet Property) :
    delivery topicName packet sub = some sent ↔
      Scope.Delivers sub.topicFilter topicName ∧ sub.con = sent.1 ∧ packet sub = some sent.2 := by
  rw [← Scope.matchesFilter_true_iff]
  unfold delivery
  rcases Scope.matchesFilter_trichotomy sub.topicFilter topicName with same | same | same
  · rw [same]
    cases packet sub with
    | none => simp
    | some packet => simp [Prod.ext_iff]
  · simp [same]
  · simp [same]

theorem deliveryFault_outOfRange_iff (sub : Subscription) :
    deliveryFault connected topicName packet sub = some .outOfRange ↔
      Scope.Overreads sub.topicFilter topicName := by
  rw [← Scope.matchesFilter_outOfRange_iff]
  unfold deliveryFault
  rcases Scope.matchesFilter_trichotomy sub.topicFilter topicName with same | same | same
  · simp only [same]
    split <;> simp
  · simp [same]
  · simp [same]

theorem deliveryFault_none_iff (sub : Subscription) :
    deliveryFault connected topicName packet sub = none ↔
      ¬ Stops connected topicName packet sub := by
  rw [Stops, Reaches, ← Scope.matchesFilter_outOfRange_iff, ← Scope.matchesFilter_true_iff]
  unfold deliveryFault
  rcases Scope.matchesFilter_trichotomy sub.topicFilter topicName with same | same | same
  · rw [same]
    simp
  · simp [same]
  · simp [same]

theorem served_iff (sub : Subscription) :
    Served connected topicName packet sub ↔
      ∃ sent, delivery topicName packet sub = some sent ∧ connected sent.1 = true := by
  simp only [Served, Reaches, delivery_eq_some_iff]
  refine ⟨?_, ?_⟩
  · intro served
    obtain ⟨sent, same⟩ := Option.isSome_iff_exists.mp served.1.2
    exact ⟨(sub.con, sent), ⟨served.1.1, rfl, same⟩, served.2⟩
  · intro found
    obtain ⟨sent, reaches, alive⟩ := found
    rw [← reaches.2.1] at alive
    exact ⟨⟨reaches.1, by rw [reaches.2.2]; rfl⟩, alive⟩

theorem deliver_state_of_served {sub : Subscription} (self : Broker)
    (served : Served connected topicName packet sub) :
    (deliver connected topicName packet sub self).state = self.touch sub.con := by
  have found := (Scope.matchesFilter_true_iff sub.topicFilter topicName).mpr served.1.1
  obtain ⟨sent, same⟩ := Option.isSome_iff_exists.mp served.1.2
  unfold deliver
  simp only [found, same, served.2, ↓reduceIte, Outcome.emit_state]

theorem deliver_state_of_not_served {sub : Subscription} (self : Broker)
    (unserved : ¬ Served connected topicName packet sub) :
    (deliver connected topicName packet sub self).state = self := by
  unfold deliver
  rcases Scope.matchesFilter_trichotomy sub.topicFilter topicName with same | same | same
  · have delivers := (Scope.matchesFilter_true_iff sub.topicFilter topicName).mp same
    rw [same]
    cases sending : packet sub with
    | none => rfl
    | some sent =>
        have dead : ¬ connected sub.con = true :=
          fun alive => unserved ⟨⟨delivers, by rw [sending]; rfl⟩, alive⟩
        simp only [dead, Bool.false_eq_true, ↓reduceIte]
  · rw [same]
    rfl
  · rw [same]
    rfl

theorem pushes_forEach_deliver (subs : List Subscription) (self : Broker) :
    pushes (Outcome.forEach (deliver connected topicName packet) subs self).effects = [] := by
  have onlySends := Outcome.forEach_effects (fun effect : Effect Property => effect.pushed = none)
    (deliver connected topicName packet) subs
    (by
      intro sub _ state effect member
      rw [(deliver_uniform connected topicName packet).effects_eq, deliveryEffects] at member
      cases sending : delivery topicName packet sub with
      | none => simp [sending] at member
      | some sent =>
          have same : effect = .send sent.1 sent.2 := by simpa [sending] using member
          rw [same]
          rfl)
    self
  exact List.filterMap_eq_nil_iff.mpr onlySends

/-- Whatever the loop overreads lies behind a subscription at which it is left. -/
def InBounds (subs : SubscriptionContainer) : Prop :=
  ∀ before sub after, subs.entries = before ++ sub :: after →
    Scope.Overreads sub.topicFilter topicName →
    ∃ earlier ∈ before, Stops connected topicName packet earlier

theorem forEach_deliver_inBounds_iff (self state : Broker) :
    (Outcome.forEach (deliver connected topicName packet) self.subs.entries state).fault ≠
        some .outOfRange ↔
      InBounds connected topicName packet self.subs := by
  have first := (deliver_uniform connected topicName packet).fault_some_iff self.subs.entries
    state .outOfRange
  rw [ne_eq, first, InBounds]
  simp only [deliveryFault_outOfRange_iff, deliveryFault_none_iff]
  refine ⟨?_, ?_⟩
  · intro never before sub after split overreads
    apply Classical.byContradiction
    intro unstopped
    apply never
    refine ⟨before, sub, after, split, ?_, overreads⟩
    exact fun earlier member stops => unstopped ⟨earlier, member, stops⟩
  · intro inside found
    obtain ⟨before, sub, after, split, unstopped, overreads⟩ := found
    obtain ⟨earlier, member, stops⟩ := inside before sub after split overreads
    exact unstopped earlier member stops

end Loop

/-- `share` returns. It pushes the message when the loop before it has returned. -/
theorem andThen_share_eq (lib : OptionsApi Opts) (topicName contents : Text) (pubopts : Opts)
    (version : Version) (props : List Property) (loop : Result Property) :
    loop.andThen (share lib topicName contents pubopts version props) =
      ⟨loop.state,
        loop.effects ++ (if loop.fault.isNone then
          [.push (sharedMessage lib topicName contents pubopts version props)] else []),
        loop.fault⟩ := by
  obtain ⟨state, effects, fault⟩ := loop
  cases fault with
  | none => rfl
  | some fault =>
      show (⟨state, effects, some fault⟩ : Result Property) = ⟨state, effects ++ [], some fault⟩
      rw [List.append_nil]

/-- What follows the loop sends nothing. -/
theorem sends_andThen_share (lib : OptionsApi Opts) (topicName contents : Text) (pubopts : Opts)
    (version : Version) (props : List Property) (loop : Result Property) :
    sends (loop.andThen (share lib topicName contents pubopts version props)).effects =
      sends loop.effects := by
  rw [andThen_share_eq, sends_append]
  cases loop.fault with
  | none => exact List.append_nil _
  | some fault => exact List.append_nil _

/-- Topic matching stays inside the vectors it indexes except at a filter that
matches a proper initial part of the topic; the loops reach such a filter unless
they are left before it. -/
theorem matching_inBounds_iff (lib : OptionsApi Opts) :
    (∀ filter topic, Scope.matchesFilter filter topic ≠ .error .outOfRange ↔
      ¬ Scope.Overreads filter topic) ∧
    (∀ (scope : Scope) topic, scope.includes topic ≠ .error .outOfRange ↔
      ¬ scope.ScopeOverreads topic) ∧
    (∀ connected con pubopts topicName contents (self : Broker),
      (publishHandler lib connected con pubopts topicName contents self :
          Result Property).fault ≠ some .outOfRange ↔
        InBounds connected topicName
          (v3Delivery lib pubopts topicName contents :
            Subscription → Option (Packet Property)) self.subs) ∧
    (∀ connected con pubopts topicName contents (props : List Property) (self : Broker),
      (v5PublishHandler lib connected con pubopts topicName contents props self).fault ≠
          some .outOfRange ↔
        InBounds connected topicName
          (v5Delivery lib con pubopts topicName contents props) self.subs) ∧
    (∀ connected (message : Message Property) (self : Broker),
      (injectPublish lib connected message self).fault ≠ some .outOfRange ↔
        InBounds connected message.topic (injectedDelivery lib message) self.subs) := by
  refine ⟨?_, ?_, ?_, ?_, ?_⟩
  · intro filter topic
    rw [ne_eq, Scope.matchesFilter_outOfRange_iff]
  · intro scope topic
    rw [ne_eq, Scope.includes_outOfRange_iff]
  · intro connected con pubopts topicName contents self
    rw [publishHandler, andThen_share_eq]
    exact forEach_deliver_inBounds_iff connected topicName _ self _
  · intro connected con pubopts topicName contents props self
    rw [v5PublishHandler, andThen_share_eq]
    exact forEach_deliver_inBounds_iff connected topicName _ self _
  · intro connected message self
    exact forEach_deliver_inBounds_iff connected message.topic _ self _

/-- The filter `a` and the topic `a/b` read past the end of the filter: in
`matches_filter`, in `includes`, and in a publish over a table that a run fills. -/
theorem matching_reads_past_filter :
    ¬ (∀ filter topic, Scope.matchesFilter filter topic ≠ .error .outOfRange) ∧
    ¬ (∀ (scope : Scope) topic, scope.includes topic ≠ .error .outOfRange) ∧
    ¬ (∀ (state : Session) (con : Connection) (topicName contents : Text),
      (Session.machine byteOptions : Machine Session (Event UInt8 Text)).Reachable
        Session.fresh state →
      (publishHandler byteOptions (fun _ => true) con 0 topicName contents state.broker :
        Result Text).fault ≠ some .outOfRange) := by
  refine ⟨?_, ?_, ?_⟩
  · intro inside
    exact inside (bytes "a") (bytes "a/b") (by decide)
  · intro inside
    exact inside (Scope.blank.push [bytes "a"] (by decide)) (bytes "a/b") (by decide)
  · intro inside
    exact inside ((Session.machine byteOptions).run Session.fresh Session.subscribedOnce) 1
      (bytes "a/b") [] ⟨Session.subscribedOnce, by decide, rfl⟩ (by decide)

end Broker

end OctopusMq
