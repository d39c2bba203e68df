import OctopusMq.HandlerEffects

set_option autoImplicit false

/- `close_connection` on the broker thread against `inject_publish` on the control
thread. The first part of the former is outside the lock that the latter holds. -/
namespace OctopusMq

open Imperative OrderedTable Transition

variable {Opts Property : Type}

namespace Broker

/-- A delivery loop gets behind the send to a subscription of the connection,
where it reads `_meta`. -/
def ReadsMeta (connected : Connection → Bool) (topicName : Text)
    (packet : Subscription → Option (Packet Property)) (con : Connection)
    (subs : List Subscription) : Prop :=
  ∃ before sub after, subs = before ++ sub :: after ∧
    (∀ earlier ∈ before, ¬ Stops connected topicName packet earlier) ∧
    Served connected topicName packet sub ∧ sub.con = con

section Loop

variable {connected : Connection → Bool} {topicName : Text}
  {packet : Subscription → Option (Packet Property)}

theorem deliver_known (sub : Subscription) (self : Broker) (con : Connection) :
    (deliver connected topicName packet sub self).state.Known con ↔
      self.Known con ∨ Served connected topicName packet sub ∧ sub.con = con := by
  by_cases served : Served connected topicName packet sub
  · rw [deliver_state_of_served _ _ _ self served, known_touch]
    simp only [served, true_and, eq_comm, or_comm]
  · rw [deliver_state_of_not_served _ _ _ self served]
    simp only [served, false_and, or_false]

theorem readsMeta_cons (sub : Subscription) (rest : List Subscription) (con : Connection) :
    ReadsMeta connected topicName packet con (sub :: rest) ↔
      Served connected topicName packet sub ∧ sub.con = con ∨
        ¬ Stops connected topicName packet sub ∧
          ReadsMeta connected topicName packet con rest :=
  Segments.exists_split_cons sub rest

/-- What a delivery loop adds to the keys of `_meta`. The induction is on the subscriptions. -/
theorem forEach_deliver_known (subs : List Subscription) (self : Broker) (con : Connection) :
    (Outcome.forEach (deliver connected topicName packet) subs self).state.Known con ↔
      self.Known con ∨ ReadsMeta connected topicName packet con subs := by
  induction subs generalizing self with
  | nil => simp [ReadsMeta]
  | cons sub rest ih =>
      rw [Outcome.forEach_cons, readsMeta_cons]
      have now : (deliver connected topicName packet sub self).state.Known con ↔
          self.Known con ∨ Served connected topicName packet sub ∧ sub.con = con :=
        deliver_known sub self con
      have faulty := (deliver_uniform connected topicName packet).fault_eq sub self
      by_cases stops : Stops connected topicName packet sub
      · obtain ⟨fault, failed⟩ := Option.ne_none_iff_exists'.mp
          (mt (deliveryFault_none_iff connected topicName packet sub).mp (not_not_intro stops))
        rw [Outcome.andThen_of_fault _ _ fault (faulty.trans failed), now]
        simp only [stops, not_true_eq_false, false_and, or_false]
      · have ok := (deliveryFault_none_iff connected topicName packet sub).mpr stops
        rw [Outcome.andThen_of_ok _ _ (faulty.trans ok), ih, now]
        simp only [stops, not_false_eq_true, true_and, or_assoc]

theorem forEach_deliver_subs (subs : List Subscription) (self : Broker) :
    (Outcome.forEach (deliver connected topicName packet) subs self).state.subs = self.subs := by
  apply Outcome.forEach_invariant (fun state => state.subs = self.subs) _ _ _ self rfl
  intro sub _ state same
  by_cases served : Served connected topicName packet sub
  · rw [deliver_state_of_served _ _ _ state served]
    exact same
  · rw [deliver_state_of_not_served _ _ _ state served]
    exact same

end Loop

end Broker

/-- How much of `close_connection` has run. -/
inductive Progress where
  | opened
  | midway
  | closed
deriving DecidableEq, Repr

/-- The atomic steps: the two parts of `close_connection`, and `inject_publish`
with every socket connected. -/
inductive CloseStep (Property : Type) where
  | closeUnlocked
  | closeLocked
  | injectPublish (message : Message Property)

/-- A broker while one of its connections is closed. -/
structure Closing where
  broker : Broker
  progress : Progress

namespace Closing

open Broker

/-- The steps of both threads, in any order that runs the two parts of
`close_connection` once each. -/
def machine (lib : OptionsApi Opts) (con : Connection) : Machine Closing (CloseStep Property) where
  step self
    | .closeUnlocked => ⟨self.broker.closeUnlocked con, .midway⟩
    | .closeLocked => ⟨self.broker.closeLocked con, .closed⟩
    | .injectPublish message =>
        ⟨(injectPublish lib (fun _ => true) message self.broker).state, self.progress⟩
  enabled self
    | .closeUnlocked => self.progress = .opened
    | .closeLocked => self.progress = .midway
    | .injectPublish _ => True

instance (lib : OptionsApi Opts) (con : Connection) (self : Closing) (label : CloseStep Property) :
    Decidable ((machine lib con).enabled self label) := by
  cases label <;> unfold machine <;> infer_instance

/-- After `close_connection`, `_meta` has no entry for the connection. -/
def Forgotten (con : Connection) (state : Closing) : Prop :=
  state.progress = .closed → ¬ state.broker.Known con

/-- Between the two parts of `close_connection`, the message reaches no
subscription of the connection. -/
def Spares (lib : OptionsApi Opts) (con : Connection) (state : Closing) :
    CloseStep Property → Prop
  | .injectPublish message => state.progress = .midway →
      ¬ ReadsMeta (fun _ => true) message.topic (injectedDelivery lib message) con
        state.broker.subs.entries
  | _ => True

/-- The first part takes the key of `_meta`, the second one the subscriptions. -/
structure Forgets (con : Connection) (state : Closing) : Prop where
  known : state.progress ≠ .opened → ¬ state.broker.Known con
  subs : state.progress = .closed → ∀ sub ∈ state.broker.subs.entries, sub.con ≠ con

theorem injectPublish_known (lib : OptionsApi Opts) (message : Message Property) (self : Broker)
    (con : Connection) :
    (injectPublish lib (fun _ => true) message self).state.Known con ↔
      self.Known con ∨ ReadsMeta (fun _ => true) message.topic (injectedDelivery lib message) con
        self.subs.entries :=
  forEach_deliver_known self.subs.entries self con

theorem not_readsMeta_of_unsubscribed {connected : Connection → Bool} {topicName : Text}
    {packet : Subscription → Option (Packet Property)} {con : Connection}
    {subs : List Subscription} (gone : ∀ sub ∈ subs, sub.con ≠ con) :
    ¬ ReadsMeta connected topicName packet con subs := by
  intro reads
  obtain ⟨before, sub, after, split, _, _, same⟩ := reads
  exact gone sub (by rw [split]; simp) same

theorem forgets_step (lib : OptionsApi Opts) (con : Connection) (self : Closing)
    (label : CloseStep Property) (enabled : (machine lib con).enabled self label)
    (spares : Spares lib con self label) (forgets : Forgets con self) :
    Forgets con ((machine lib con).step self label) := by
  cases label with
  | closeUnlocked =>
      refine ⟨?_, ?_⟩
      · intro _
        simp [machine, closeUnlocked, Known]
      · intro closed
        cases closed
  | closeLocked =>
      have midway : self.progress = .midway := enabled
      refine ⟨?_, ?_⟩
      · intro _
        exact forgets.known (by rw [midway]; decide)
      · intro _ sub member
        have kept := (Table.mem_eraseWhere _ _ sub).mp member
        simpa using kept.2
  | injectPublish message =>
      have subs : ((machine lib con).step self (.injectPublish message)).broker.subs =
          self.broker.subs := forEach_deliver_subs self.broker.subs.entries self.broker
      refine ⟨?_, ?_⟩
      · intro begun there
        rcases (injectPublish_known lib message self.broker con).mp there with old | reads
        · exact forgets.known begun old
        · -- Before the first part the key is still to be erased, after the second one no
          -- subscription is left that could bring it back.
          cases progress : self.progress with
          | opened => exact begun progress
          | midway => exact spares progress reads
          | closed => exact not_readsMeta_of_unsubscribed (forgets.subs progress) reads
      · intro closed
        rw [subs]
        exact forgets.subs closed

/-- A key that comes back stays: nothing erases it any more. -/
theorem remembered_step (lib : OptionsApi Opts) (con : Connection) (self : Closing)
    (label : CloseStep Property) (enabled : (machine lib con).enabled self label)
    (remembered : self.progress ≠ .opened ∧ self.broker.Known con) :
    ((machine lib con).step self label).progress ≠ .opened ∧
      ((machine lib con).step self label).broker.Known con := by
  cases label with
  | closeUnlocked => exact absurd enabled remembered.1
  | closeLocked => exact ⟨by show Progress.closed ≠ .opened; decide, remembered.2⟩
  | injectPublish message =>
      exact ⟨remembered.1,
        (injectPublish_known lib message self.broker con).mpr (Or.inl remembered.2)⟩

theorem closed_step (lib : OptionsApi Opts) (con : Connection) (self : Closing)
    (label : CloseStep Property) (enabled : (machine lib con).enabled self label)
    (closed : self.progress = .closed) :
    ((machine lib con).step self label).progress = .closed := by
  cases label with
  | closeUnlocked =>
      have opened : self.progress = .opened := enabled
      rw [closed] at opened
      cases opened
  | closeLocked => rfl
  | injectPublish message => exact closed

/-- The key stays away from the first part of `close_connection` on exactly in
the runs whose messages spare the connection in between. -/
theorem unknown_throughout_iff (lib : OptionsApi Opts) (con : Connection) (broker : Broker)
    (labels : List (CloseStep Property))
    (admitted : (machine lib con).Admits ⟨broker, .opened⟩ labels) :
    (machine lib con).Throughout
        (fun state => state.progress ≠ .opened → ¬ state.broker.Known con)
        ⟨broker, .opened⟩ labels ↔
      (machine lib con).EachStep (Spares lib con) ⟨broker, .opened⟩ labels := by
  apply (machine lib con).throughout_iff_eachStep (Forgets con) _ (Spares lib con)
    (fun _ forgets => forgets.known) (forgets_step lib con)
  · intro state label enabled forgets unknown
    cases label with
    | injectPublish message =>
        intro midway reads
        apply unknown
        · change state.progress ≠ .opened
          rw [midway]
          decide
        · exact (injectPublish_known lib message state.broker con).mpr (Or.inr reads)
    | _ => trivial
  · exact admitted
  · refine ⟨fun begun => absurd rfl begun, ?_⟩
    intro closed
    cases closed

/-- A run that completes `close_connection` leaves `_meta` without the connection,
for good, exactly when no message that comes between its two parts reaches a
subscription of the connection. -/
theorem forgotten_iff_spares (lib : OptionsApi Opts) (con : Connection) (broker : Broker)
    (labels : List (CloseStep Property))
    (admitted : (machine lib con).Admits ⟨broker, .opened⟩ labels) :
    (machine lib con).Throughout (Forgotten con) ⟨broker, .opened⟩ labels ↔
      (((machine lib con).run ⟨broker, .opened⟩ labels).progress = .closed →
        (machine lib con).EachStep (Spares lib con) ⟨broker, .opened⟩ labels) := by
  rw [← unknown_throughout_iff lib con broker labels admitted, Machine.throughout_iff,
    Machine.throughout_iff]
  have later (front back : List (CloseStep Property)) (split : labels = front ++ back) :
      (machine lib con).run ⟨broker, .opened⟩ labels =
          (machine lib con).run ((machine lib con).run ⟨broker, .opened⟩ front) back ∧
        (machine lib con).Admits ((machine lib con).run ⟨broker, .opened⟩ front) back := by
    rw [split, Machine.admits_append] at admitted
    rw [split, Machine.run_append]
    exact ⟨rfl, admitted.2⟩
  refine ⟨?_, ?_⟩
  · intro forgotten completed front back split begun there
    have rest := later front back split
    have stays := (machine lib con).run_invariant _ (remembered_step lib con) _ back rest.2
      ⟨begun, there⟩
    rw [← rest.1] at stays
    exact forgotten labels [] (List.append_nil labels).symm completed stays.2
  · intro unknown front back split closed
    have rest := later front back split
    have completed := (machine lib con).run_invariant _ (closed_step lib con) _ back rest.2 closed
    rw [← rest.1] at completed
    exact unknown completed front back split (by rw [closed]; decide)

/-- A subscriber that closes while messages for it and for nobody come in. -/
def closingSubscriber : List (CloseStep Text) :=
  [.injectPublish ⟨[], bytes "a", 0, .v3, []⟩, .closeUnlocked,
    .injectPublish ⟨[], bytes "b", 0, .v3, []⟩, .closeLocked,
    .injectPublish ⟨[], bytes "a", 0, .v3, []⟩]

theorem forgotten_closingSubscriber :
    (machine byteOptions 1).Throughout (Forgotten 1)
        ⟨((Session.machine byteOptions).run Session.fresh Session.sharedFilter).broker, .opened⟩
        closingSubscriber ↔
      (((machine byteOptions 1).run
          ⟨((Session.machine byteOptions).run Session.fresh Session.sharedFilter).broker, .opened⟩
          closingSubscriber).progress = .closed →
        (machine byteOptions 1).EachStep (Spares byteOptions 1)
          ⟨((Session.machine byteOptions).run Session.fresh Session.sharedFilter).broker, .opened⟩
          closingSubscriber) :=
  forgotten_iff_spares byteOptions 1
    ((Session.machine byteOptions).run Session.fresh Session.sharedFilter).broker
    closingSubscriber (by decide)

/-- A message to the closing connection between the two parts brings its key back. -/
theorem inject_between_remembers :
    ¬ ∀ (state : Session) (con : Connection) (labels : List (CloseStep Text)),
      (Session.machine byteOptions : Machine Session (Event UInt8 Text)).Reachable
        Session.fresh state → (state.phase con).isConnected →
      (machine byteOptions con).Admits ⟨state.broker, .opened⟩ labels →
      (machine byteOptions con).Throughout (Forgotten con) ⟨state.broker, .opened⟩ labels := by
  intro forgotten
  have run := forgotten ((Session.machine byteOptions).run Session.fresh Session.subscribedOnce) 1
    [.closeUnlocked, .injectPublish ⟨[], bytes "a", 0, .v3, []⟩, .closeLocked]
    ⟨Session.subscribedOnce, by decide, rfl⟩ (by decide) (by decide)
  have last := (Machine.throughout_iff _ _ _ _).mp run _ [] (List.append_nil _).symm
  exact last rfl rfl

end Closing

end OctopusMq
