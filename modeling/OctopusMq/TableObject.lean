import OctopusMq.Answers
import OctopusMq.InterleavedTables
import OctopusMq.Library.Linearization

set_option autoImplicit false

/- The table of a broker with the PUBLISHes that go out through it, as an object of
which the threads use one operation at a time. -/
namespace OctopusMq

open Imperative Concurrent Transition

variable {Opts Property : Type}

/-- What is done with `_subs` under `_subs_mutex`. -/
inductive TableOp (Property : Type) where
  | emplace (sub : Subscription)
  | erase (topics : List Text)
  | expire (con : Connection)
  | fanOut (connected : Connection → Bool) (topicName : Text)
      (packet : Subscription → Option (Packet Property))

/-- The table, and the PUBLISHes sent so far. -/
abbrev Fanned (Property : Type) := SubscriptionContainer × List (Connection × Packet Property)

/-- An operation that nothing disturbs, and the fault it ends in. -/
def TableOp.run : TableOp Property → Fanned Property → Fanned Property × Option Fault
  | .emplace sub, now => ((now.1.emplace sub, now.2), none)
  | .erase topics, now => ((topics.foldl Broker.eraseTopic now.1, now.2), none)
  | .expire con, now => ((now.1.eraseWhere fun sub => sub.con = con, now.2), none)
  | .fanOut connected topicName packet, now =>
      let outcome : Broker.Result Property :=
        Outcome.forEach (Broker.deliver connected topicName packet) now.1.entries Broker.fresh
      ((now.1, now.2 ++ Broker.sends outcome.effects), outcome.fault)

namespace Event

/-- The valid filters of a SUBSCRIBE, one after the other. -/
def emplaced (subscription : Text → SubscribeOptions → Subscription)
    (entries : List (Text × SubscribeOptions)) : List (TableOp Property) :=
  (entries.filter fun entry => Scope.Accepted entry.1).map fun entry =>
    .emplace (subscription entry.1 entry.2)

/-- What the handler of an event does with the table. -/
def tableOps (lib : OptionsApi Opts) : Event Opts Property → List (TableOp Property)
  | .close con => [.expire con]
  | .error con => [.expire con]
  | .disconnect _ con => [.expire con]
  | .publish _ connected pubopts topicName contents =>
      [.fanOut connected topicName (Broker.v3Delivery lib pubopts topicName contents)]
  | .v5Publish con connected pubopts topicName contents props =>
      [.fanOut connected topicName (Broker.v5Delivery lib con pubopts topicName contents props)]
  | .subscribe .v3 con _ entries =>
      emplaced (fun filter options => Subscription.v3 filter con options) entries
  | .subscribe .v5 con _ entries =>
      emplaced (fun filter options => Subscription.v5 filter con options) entries
  | .unsubscribe _ _ _ topics => [.erase topics]
  | .injectPublish connected message =>
      [.fanOut connected message.topic (Broker.injectedDelivery lib message)]
  | _ => []

/-- The error handler of a connection that is closed already does nothing. -/
def Uses (lib : OptionsApi Opts) (event : Event Opts Property) (ops : List (TableOp Property)) :
    Prop :=
  ops = event.tableOps lib ∨ (∃ con, event = .error con) ∧ ops = []

end Event

/-- The table of the broker of an adapter, and what it has sent through it. -/
def fanned (dest : SettingsPtr) :
    Object (History Property) (Fanned Property) Mutex (TableOp Property) (Option Fault) where
  view self := ((self.system.brokers dest).subs, self.sentBy Packet.isPublish dest)
  mutex := .subs dest
  run := TableOp.run
  within now later := now.2 <+: later.2
  refl now := List.prefix_refl now.2
  trans _ _ _ := List.IsPrefix.trans

/-- A fan-out goes on: what is still to be sent goes to subscribers. -/
def Fanning (now target : Fanned Property) : Prop :=
  now.1 = target.1 ∧ ∃ more, target.2 = now.2 ++ more ∧
    ∀ sent ∈ more, ∃ sub ∈ now.1.entries, sub.con = sent.1

theorem Fanning.refl (now : Fanned Property) : Fanning now now :=
  ⟨rfl, [], (List.append_nil _).symm, fun _ member => (nomatch member)⟩

/-- On the way to what an operation leaves: in a fan-out, or before a change of the table. -/
def Underway (now target : Fanned Property) : Prop := Fanning now target ∨ now.2 = target.2

theorem Underway.sent_within {now target : Fanned Property} (underway : Underway now target) :
    now.2 <+: target.2 := by
  rcases underway with ⟨_, more, sends, _⟩ | same
  · exact sends ▸ List.prefix_append _ _
  · exact same ▸ List.prefix_refl _

/-- What is done in a table is nothing to the other tables. -/
def atTable {α : Type} (adapter dest : SettingsPtr) (ops : List α) : List α :=
  if adapter = dest then ops else []

theorem atTable_self {α : Type} (dest : SettingsPtr) (ops : List α) : atTable dest dest ops = ops :=
  if_pos rfl

theorem atTable_of_ne {α : Type} {adapter dest : SettingsPtr} (apart : adapter ≠ dest)
    (ops : List α) : atTable adapter dest ops = [] := if_neg apart

theorem map_atTable {α β : Type} (change : α → β) (adapter dest : SettingsPtr) (ops : List α) :
    (atTable adapter dest ops).map change = atTable adapter dest (ops.map change) := by
  unfold atTable
  split
  · rfl
  · rfl

theorem atTable_append {α : Type} (adapter dest : SettingsPtr) (first second : List α) :
    atTable adapter dest (first ++ second) =
      atTable adapter dest first ++ atTable adapter dest second := by
  unfold atTable
  split
  · rfl
  · rfl

/-- All that a delivery sends are PUBLISHes. -/
theorem Broker.sendsOf_delivery {topicName : Text}
    {packet : Subscription → Option (Packet Property)}
    (publishes : ∀ sub, ∀ chosen ∈ packet sub, chosen.isPublish = true) (sub : Subscription) :
    sendsOf Packet.isPublish (deliveryEffects topicName packet sub) =
      sends (deliveryEffects topicName packet sub) := by
  apply List.filter_eq_self.mpr
  intro sent member
  unfold deliveryEffects at member
  cases sending : delivery topicName packet sub with
  | none =>
      rw [sending] at member
      cases member
  | some chosen =>
      rw [sending] at member
      have same : sent = chosen := List.mem_singleton.mp member
      rw [same]
      exact publishes sub chosen.2
        ((delivery_eq_some_iff topicName packet sub chosen).mp sending).2.2

/-- A delivery loop sends what nothing stops, up to where it stops. -/
theorem Broker.sends_forEach_within (connected : Connection → Bool) (topicName : Text)
    (packet : Subscription → Option (Packet Property)) (subs : List Subscription) (self : Broker) :
    sends (Outcome.forEach (deliver connected topicName packet) subs self).effects <+:
        subs.filterMap (delivery topicName packet) ∧
      ((Outcome.forEach (deliver connected topicName packet) subs self).fault = none →
        sends (Outcome.forEach (deliver connected topicName packet) subs self).effects =
          subs.filterMap (delivery topicName packet)) := by
  have uniform := deliver_uniform connected topicName packet
  rcases Outcome.firstFault (deliveryFault connected topicName packet) subs with
    ok | ⟨before, sub, after, error, split, ok, failed⟩
  · have whole : sends (Outcome.forEach (deliver connected topicName packet) subs self).effects =
        subs.filterMap (delivery topicName packet) := by
      rw [uniform.effects_of_ok subs self ok, sends_flatMap_deliveryEffects]
    exact ⟨whole ▸ List.prefix_refl _, fun _ => whole⟩
  · have stops := uniform.stop before after sub error self ok failed
    rw [← split] at stops
    refine ⟨?_, fun fine => ?_⟩
    · rw [stops.2, sends_append, sends_flatMap_deliveryEffects, sends_deliveryEffects, split,
        List.filterMap_append, List.filterMap_cons]
      apply (List.prefix_append_right_inj _).mpr
      cases delivery topicName packet sub with
      | none => exact List.nil_prefix
      | some sent => exact ⟨_, rfl⟩
    · rw [stops.1] at fine
      cases fine

/-- What a delivery loop sends goes to subscribers. -/
theorem Broker.receiver_of_sends {connected : Connection → Bool} {topicName : Text}
    {packet : Subscription → Option (Packet Property)} {subs : List Subscription} {self : Broker}
    {sent : Connection × Packet Property}
    (member : sent ∈
      sends (Outcome.forEach (deliver connected topicName packet) subs self).effects) :
    ∃ sub ∈ subs, sub.con = sent.1 := by
  have early := (sends_forEach_within connected topicName packet subs self).1.subset member
  obtain ⟨sub, listed, sending⟩ := List.mem_filterMap.mp early
  exact ⟨sub, listed, ((delivery_eq_some_iff topicName packet sub sent).mp sending).2.1⟩

namespace Routine

variable {dest : SettingsPtr}

/-- A call shows in the table of its own broker, and in what it sends. -/
theorem view_call (handler : Broker → Broker.Result Property) (self : History Property) :
    (fanned dest).view (self.record (System.call dest handler self.system)) =
      ((handler (self.system.brokers dest)).state.subs,
        self.sentBy Packet.isPublish dest ++
          Broker.sendsOf Packet.isPublish (handler (self.system.brokers dest)).effects) := by
  show (((Function.update self.system.brokers dest _) dest).subs, _) = _
  rw [Function.update_self, History.sentBy_call]

theorem view_call_of_ne {adapter : SettingsPtr} (apart : adapter ≠ dest)
    (handler : Broker → Broker.Result Property) (self : History Property) :
    (fanned dest).view (self.record (System.call adapter handler self.system)) =
      (fanned dest).view self := by
  show (((Function.update self.system.brokers adapter _) dest).subs, _) = _
  rw [Function.update_of_ne (Ne.symm apart), History.sentBy_call_of_ne _ apart]
  rfl

/-- A part of a handler that changes no table and sends no PUBLISH. -/
structure Mute (handler : Broker → Broker.Result Property) : Prop where
  subs : ∀ broker, (handler broker).state.subs = broker.subs
  sends : ∀ broker, Broker.sendsOf Packet.isPublish (handler broker).effects = []

theorem Mute.hides {handler : Broker → Broker.Result Property} (mute : Mute handler)
    (adapter : SettingsPtr) (self : History Property) :
    (fanned dest).view (self.record (System.call adapter handler self.system)) =
      (fanned dest).view self := by
  by_cases same : adapter = dest
  · subst same
    rw [view_call, mute.subs, mute.sends, List.append_nil]
    rfl
  · exact view_call_of_ne same handler self

section Handler

variable {κ : Type} {usage : Usage (Fanned Property) (TableOp Property)}
  {own : History Property → κ}
  {goal : κ → List (TableOp Property × Option Fault) → Prop}
  {seen : Option (Fanned Property × Fanned Property)} {now : κ}
  {sofar : List (TableOp Property × Option Fault)} {adapter : SettingsPtr} {con : Connection}
  {next : Routine Property}

/-- No call into a broker changes what the thread owns. -/
def Still (own : History Property → κ) : Prop :=
  ∀ adapter handler, ∀ self : History Property,
    own (self.record (System.call adapter handler self.system)) = own self

theorem log_ne_fanned : Mutex.log ≠ (fanned dest : Object (History Property) _ _ _ _).mutex :=
  fun same => (nomatch (show Mutex.log = .subs dest from same))

theorem queue_ne_fanned : Mutex.queue ≠ (fanned dest : Object (History Property) _ _ _ _).mutex :=
  fun same => (nomatch (show Mutex.queue = .subs dest from same))

theorem operates_print (operates : next.Operates (fanned dest) usage own goal seen now sofar) :
    (print next).Operates (fanned dest) usage own goal seen now sofar :=
  Program.Operates.acquire_of_ne log_ne_fanned
    (Program.Operates.release_of_ne log_ne_fanned operates)

theorem operates_call (still : Still own) {handler : Broker → Broker.Result Property}
    (hides : ∀ self : History Property,
      (fanned dest).view (self.record (System.call adapter handler self.system)) =
        (fanned dest).view self)
    {later : System.Result Property → Routine Property}
    (operates : ∀ outcome, (later outcome).Operates (fanned dest) usage own goal none now sofar) :
    (call adapter handler later).Operates (fanned dest) usage own goal none now sofar :=
  Program.Operates.pass (fun _ found => (nomatch found)) hides (still adapter handler)
    fun _ => operates _

/-- Reading the state is no use of the table. -/
theorem operates_look {next : History Property → Routine Property}
    (operates : ∀ self, (next self).Operates (fanned dest) usage own goal none now sofar) :
    (look next).Operates (fanned dest) usage own goal none now sofar :=
  Program.Operates.pass (fun _ found => (nomatch found)) (fun _ => rfl) (fun _ => rfl) operates

theorem operates_update (still : Still own) {update : Broker → Broker}
    (keeps : ∀ broker, (update broker).subs = broker.subs)
    (operates : next.Operates (fanned dest) usage own goal none now sofar) :
    (change adapter update next).Operates (fanned dest) usage own goal none now sofar := by
  have mute : Mute fun broker => (.done (update broker) : Broker.Result Property) :=
    ⟨keeps, fun _ => rfl⟩
  exact operates_call still (mute.hides adapter) fun _ => operates

theorem operates_printEvent (still : Still own)
    (operates : next.Operates (fanned dest) usage own goal none now sofar) :
    (printEvent adapter con next).Operates (fanned dest) usage own goal none now sofar :=
  operates_update still (fun _ => rfl) (operates_print operates)

theorem operates_answer (still : Still own) {packet : Packet Property}
    (answer : packet.isPublish = false)
    (meets : goal now sofar) :
    (send adapter con packet (printEvent adapter con finish)).Operates (fanned dest) usage own
      goal none now sofar := by
  have mute : Mute fun broker => (.emit broker (.send con packet) : Broker.Result Property) := by
    refine ⟨fun _ => rfl, fun broker => ?_⟩
    show List.filter (fun sent => Packet.isPublish sent.2) [(con, packet)] = []
    simp [answer]
  exact operates_call still (mute.hides adapter) fun _ => operates_printEvent still ⟨rfl, meets⟩

/-- The thread may change the table. -/
def Changes (usage : Usage (Fanned Property) (TableOp Property)) : Prop :=
  ∀ now target, now.2 = target.2 → usage.towards now target

/-- The thread may fan out. -/
def FansOut (usage : Usage (Fanned Property) (TableOp Property)) : Prop :=
  ∀ now target, Fanning now target → usage.towards now target

/-- A change of a table under its mutex is an operation on it. -/
theorem operates_change (still : Still own) (changes : adapter = dest → Changes usage)
    {update : Broker → Broker} {op : TableOp Property}
    (may : adapter = dest → usage.allowed op)
    (runs : ∀ broker : Broker, ∀ sent,
      op.run (broker.subs, sent) = (((update broker).subs, sent), none))
    (operates : next.Operates (fanned dest) usage own goal none now
      (sofar ++ atTable adapter dest [(op, none)])) :
    (Program.acquire (.subs adapter) (change adapter update
      (.release (.subs adapter) next))).Operates (fanned dest) usage own goal none now sofar := by
  by_cases same : adapter = dest
  · subst same
    rw [atTable_self] at operates
    have ran : ∀ found : Fanned Property, _ := fun found =>
      runs { Broker.fresh with subs := found.1 } found.2
    have keeps : ∀ found : Fanned Property, found.2 = (op.run found).1.2 := fun found =>
      (congrArg (fun ran => ran.1.2) (ran found)).symm
    apply Program.Operates.acquire op (may rfl) fun found => changes rfl _ _ (keeps found)
    intro found
    have answers : (op.run found).2 = none := congrArg Prod.snd (ran found)
    have grows : found.2 <+: (op.run found).1.2 := keeps found ▸ List.prefix_refl _
    refine Program.Operates.once grows (changes rfl _ _ rfl) ?_ (still adapter _) fun _ => ?_
    · intro state shown
      have table : (state.system.brokers adapter).subs = found.1 := congrArg Prod.fst shown
      have sent : state.sentBy Packet.isPublish adapter = found.2 := congrArg Prod.snd shown
      have ran := runs (state.system.brokers adapter) found.2
      rw [table] at ran
      rw [view_call, sent]
      exact Eq.trans (congrArg (Prod.mk _) (List.append_nil _)) (congrArg Prod.fst ran).symm
    · apply Program.Operates.release
      show next.Operates (fanned adapter) usage own goal none now
        (sofar ++ [(op, (op.run found).2)])
      rw [answers]
      exact operates
  · rw [atTable_of_ne same, List.append_nil] at operates
    have other : Mutex.subs adapter ≠ (fanned dest : Object (History Property) _ _ _ _).mutex :=
      fun equal => same (Mutex.subs.inj equal)
    apply Program.Operates.acquire_of_ne other
    apply operates_call still (view_call_of_ne same _)
    exact fun _ => Program.Operates.release_of_ne other operates

theorem operates_closeConnection (still : Still own) (changes : adapter = dest → Changes usage)
    (may : adapter = dest → usage.allowed (.expire con))
    (meets : goal now (sofar ++ atTable adapter dest [(.expire con, none)])) :
    (closeConnection adapter con : Routine Property).Operates (fanned dest) usage own goal none now
      sofar :=
  operates_update still (fun _ => rfl)
    (operates_change still changes may (fun _ _ => rfl) ⟨rfl, meets⟩)

/-- A loop that is nobody's to see: it is that of another table. -/
theorem operates_deliverEach_of_ne (still : Still own) (apart : adapter ≠ dest)
    {body : Subscription → Broker → Broker.Result Property} {failed : Fault → Routine Property}
    (fails : ∀ fault, (failed fault).Operates (fanned dest) usage own goal none now sofar)
    (operates : next.Operates (fanned dest) usage own goal none now sofar)
    (subs : List Subscription) :
    (deliverEach adapter body failed next subs).Operates (fanned dest) usage own goal none now
      sofar := by
  induction subs with
  | nil => exact operates
  | cons sub rest ih =>
      apply operates_call still (view_call_of_ne apart (body sub))
      intro outcome
      cases outcome.fault with
      | some fault => exact fails fault
      | none =>
          cases outcome.effects with
          | nil => exact ih
          | cons effect effects => exact operates_print ih

/-- The rest of a fan-out. The induction is on the subscriptions that are left. -/
theorem operates_deliverEach (still : Still own) (fans : FansOut usage)
    {connected : Connection → Bool} {topicName : Text}
    {packet : Subscription → Option (Packet Property)}
    (publishes : ∀ sub, ∀ chosen ∈ packet sub, chosen.isPublish = true)
    {failed : Fault → Routine Property} {table : SubscriptionContainer}
    {target : Fanned Property} {answer : Option Fault} (subs : List Subscription) (broker : Broker)
    (sent : List (Connection × Packet Property)) (listed : ∀ sub ∈ subs, sub ∈ table.entries)
    (leaves : target = (table, sent ++ Broker.sends
      (Outcome.forEach (Broker.deliver connected topicName packet) subs broker).effects))
    (answers : answer =
      (Outcome.forEach (Broker.deliver connected topicName packet) subs broker).fault)
    (fails : ∀ fault, answer = some fault →
      (failed fault).Operates (fanned dest) usage own goal (some (target, target)) now sofar)
    (operates : answer = none →
      next.Operates (fanned dest) usage own goal (some (target, target)) now sofar) :
    (deliverEach dest (Broker.deliver connected topicName packet) failed next subs).Operates
      (fanned dest) usage own goal (some ((table, sent), target)) now sofar := by
  induction subs generalizing broker sent with
  | nil =>
      have arrived : target = (table, sent) := leaves.trans (congrArg _ (List.append_nil sent))
      rw [← arrived]
      exact operates answers
  | cons sub rest ih =>
      intro state owned shown
      have uniform := Broker.deliver_uniform connected topicName packet
      have same : (state.system.brokers dest).subs = table := congrArg Prod.fst shown
      have before : state.sentBy Packet.isPublish dest = sent := congrArg Prod.snd shown
      have after : (fanned dest).view (state.record (System.call dest
          (Broker.deliver connected topicName packet sub) state.system)) =
          (table, sent ++ Broker.sends
            (Broker.deliver connected topicName packet sub broker).effects) := by
        rw [view_call,
          (Broker.members_eq_iff.mp (Broker.deliver_members connected topicName packet sub _)).2,
          same, before, uniform.effects_eq sub broker, uniform.effects_eq sub _,
          Broker.sendsOf_delivery publishes]
      have faults : (System.call dest (Broker.deliver connected topicName packet sub)
          state.system).fault = (Broker.deliver connected topicName packet sub broker).fault := by
        show (Broker.deliver connected topicName packet sub _).fault = _
        rw [uniform.fault_eq, uniform.fault_eq]
      rw [still dest _ state, owned, after]
      refine ⟨List.prefix_append _ _, ?_⟩
      rw [Outcome.forEach_cons] at leaves answers
      simp only [faults]
      cases ends : (Broker.deliver connected topicName packet sub broker).fault with
      | some fault =>
          rw [Outcome.andThen_of_fault _ _ fault ends] at leaves answers
          rw [← leaves]
          exact ⟨fans _ _ (Fanning.refl target), fails fault (answers.trans ends)⟩
      | none =>
          rw [Outcome.andThen_of_ok _ _ ends] at leaves answers
          have split : target = (table, (sent ++ Broker.sends
              (Broker.deliver connected topicName packet sub broker).effects) ++
                Broker.sends (Outcome.forEach (Broker.deliver connected topicName packet) rest
                  (Broker.deliver connected topicName packet sub broker).state).effects) := by
            rw [leaves, Broker.sends_append, List.append_assoc]
          have left : ∀ sub ∈ rest, sub ∈ table.entries :=
            fun sub member => listed sub (List.mem_cons_of_mem _ member)
          refine ⟨?_, ?_⟩
          · apply fans
            rw [split]
            refine ⟨rfl, _, rfl, fun sent member => ?_⟩
            obtain ⟨sub, member, receives⟩ := Broker.receiver_of_sends member
            exact ⟨sub, left sub member, receives⟩
          have later := ih _ _ left split answers
          cases (System.call dest (Broker.deliver connected topicName packet sub)
            state.system).effects with
          | nil => exact later
          | cons effect effects => exact operates_print later

/-- A delivery loop is a fan-out of the table it finds. -/
theorem operates_deliverAll (still : Still own) (fans : adapter = dest → FansOut usage)
    {connected : Connection → Bool} {topicName : Text}
    {packet : Subscription → Option (Packet Property)}
    (publishes : ∀ sub, ∀ chosen ∈ packet sub, chosen.isPublish = true)
    (may : adapter = dest → usage.allowed (.fanOut connected topicName packet))
    {failed : Fault → Routine Property}
    (fails : ∀ fault, (failed fault).Operates (fanned dest) usage own goal none now
      (sofar ++ atTable adapter dest [(.fanOut connected topicName packet, some fault)]))
    (operates : next.Operates (fanned dest) usage own goal none now
      (sofar ++ atTable adapter dest [(.fanOut connected topicName packet, none)])) :
    (deliverAll adapter (Broker.deliver connected topicName packet) failed next).Operates
      (fanned dest) usage own goal none now sofar := by
  by_cases same : adapter = dest
  · subst same
    simp only [atTable_self] at fails operates
    have leads : ∀ found : Fanned Property, usage.towards found
        ((TableOp.fanOut connected topicName packet).run found).1 :=
      fun found => fans rfl _ _ ⟨rfl, _, rfl, fun sent member => Broker.receiver_of_sends member⟩
    apply Program.Operates.acquire (.fanOut connected topicName packet) (may rfl) leads
    intro found state owned shown
    have table : (state.system.brokers adapter).subs = found.1 := congrArg Prod.fst shown
    refine ⟨shown ▸ List.prefix_refl _, shown ▸ leads _, ?_⟩
    show (deliverEach adapter _ _ _ (state.system.brokers adapter).subs.entries).Operates
      (fanned adapter) usage own goal (some ((fanned adapter).view state, _)) (own state) _
    rw [owned, shown, table]
    apply operates_deliverEach still (fans rfl) publishes found.1.entries Broker.fresh found.2
      (fun _ member => member) rfl rfl
    · intro fault answer
      apply Program.Operates.release
      have known :
          ((fanned adapter).run (.fanOut connected topicName packet) found).2 = some fault :=
        answer
      rw [known]
      exact fails fault
    · intro answer
      apply Program.Operates.release
      have known : ((fanned adapter).run (.fanOut connected topicName packet) found).2 = none :=
        answer
      rw [known]
      exact operates
  · simp only [atTable_of_ne same, List.append_nil] at fails operates
    have other : Mutex.subs adapter ≠ (fanned dest : Object (History Property) _ _ _ _).mutex :=
      fun equal => same (Mutex.subs.inj equal)
    apply Program.Operates.acquire_of_ne other
    apply operates_look
    intro self
    apply operates_deliverEach_of_ne still same
    · exact fun fault => Program.Operates.release_of_ne other (fails fault)
    · exact Program.Operates.release_of_ne other operates

theorem operates_publish (still : Still own) (fans : adapter = dest → FansOut usage)
    {connected : Connection → Bool} {topicName : Text}
    {packet : Subscription → Option (Packet Property)} {message : Message Property}
    (publishes : ∀ sub, ∀ chosen ∈ packet sub, chosen.isPublish = true)
    (may : adapter = dest → usage.allowed (.fanOut connected topicName packet))
    (meets : ∀ answer, goal now
      (sofar ++ atTable adapter dest [(.fanOut connected topicName packet, answer)])) :
    (publish adapter con (Broker.deliver connected topicName packet)
      fun broker => .emit broker (.push message)).Operates (fanned dest) usage own goal none now
        sofar := by
  have shares : Mute fun broker => (.emit broker (.push message) : Broker.Result Property) :=
    ⟨fun _ => rfl, fun _ => rfl⟩
  apply operates_printEvent still
  apply operates_deliverAll still fans publishes may
  · exact fun fault => ⟨rfl, meets (some fault)⟩
  · apply Program.Operates.acquire_of_ne queue_ne_fanned
    apply operates_call still (shares.hides adapter)
    exact fun _ => Program.Operates.release_of_ne queue_ne_fanned ⟨rfl, meets none⟩

/-- The loop emplaces the valid filters that are left. -/
theorem operates_subscribeEach (still : Still own) (changes : adapter = dest → Changes usage)
    {Code : Type}
    {subscription : Text → SubscribeOptions → Subscription} {granted : Qos → Code}
    {refused : Code} {answer : List Code → Routine Property}
    (entries : List (Text × SubscribeOptions)) (codes : List Code)
    (may : adapter = dest → ∀ op ∈ (Event.emplaced subscription entries : List (TableOp Property)),
      usage.allowed op)
    (operates : ∀ codes, (answer codes).Operates (fanned dest) usage own goal none now
      (sofar ++ atTable adapter dest
        ((Event.emplaced subscription entries).map fun op => (op, none)))) :
    (subscribeEach adapter subscription granted refused answer entries codes).Operates
      (fanned dest) usage own goal none now sofar := by
  induction entries generalizing codes sofar with
  | nil =>
      have same := operates codes
      rw [show (Event.emplaced subscription [] : List (TableOp Property)) = [] from rfl,
        List.map_nil, show atTable adapter dest ([] : List (TableOp Property × Option Fault)) = []
          from ite_self _, List.append_nil] at same
      exact same
  | cons entry rest ih =>
      unfold subscribeEach
      rw [Scope.validTopicFilter_eq]
      by_cases good : Scope.Accepted entry.1
      · have split : (Event.emplaced subscription (entry :: rest) : List (TableOp Property)) =
            .emplace (subscription entry.1 entry.2) :: Event.emplaced subscription rest := by
          unfold Event.emplaced
          rw [List.filter_cons_of_pos (by simp [good]), List.map_cons]
        simp only [good, decide_true]
        have runs : ∀ (broker : Broker) sent,
            (TableOp.emplace (subscription entry.1 entry.2) : TableOp Property).run
              (broker.subs, sent) =
                ((broker.subs.emplace (subscription entry.1 entry.2), sent), none) :=
          fun _ _ => rfl
        rw [split] at may
        apply operates_change still changes (fun same => may same _ List.mem_cons_self) runs
        apply ih _ fun same op member => may same op (List.mem_cons_of_mem _ member)
        intro codes
        have same := operates codes
        rw [split, List.map_cons, ← List.singleton_append, atTable_append,
          ← List.append_assoc] at same
        exact same
      · have split : (Event.emplaced subscription (entry :: rest) : List (TableOp Property)) =
            Event.emplaced subscription rest := by
          unfold Event.emplaced
          rw [List.filter_cons_of_neg (by simp [good])]
        simp only [good, decide_false]
        rw [split] at operates may
        exact ih _ may operates

theorem operates_subscribe (still : Still own) (changes : adapter = dest → Changes usage)
    {Code : Type}
    {subscription : Text → SubscribeOptions → Subscription} {granted : Qos → Code}
    {refused : Code} {suback : List Code → Packet Property}
    (answers : ∀ codes, (suback codes).isPublish = false)
    {entries : List (Text × SubscribeOptions)}
    (may : adapter = dest → ∀ op ∈ (Event.emplaced subscription entries : List (TableOp Property)),
      usage.allowed op)
    (meets : goal now (sofar ++ atTable adapter dest
      ((Event.emplaced subscription entries).map fun op => (op, none)))) :
    (subscribe adapter subscription granted refused suback con entries).Operates (fanned dest) usage
      own goal none now sofar := by
  apply operates_printEvent still
  apply operates_subscribeEach still changes _ _ may
  exact fun codes => operates_answer still (answers codes) meets

/-- One case for each event: its handler does with the table what the event uses. -/
theorem operates_handler (still : Still own)
    (underway : adapter = dest → ∀ now target, Underway now target → usage.towards now target)
    (lib : OptionsApi Opts) (event : Event Opts Property)
    (may : adapter = dest → ∀ op ∈ event.tableOps lib, usage.allowed op)
    (meets : ∀ used : List (TableOp Property × Option Fault),
      event.Uses lib (used.map Prod.fst) → goal now (sofar ++ atTable adapter dest used)) :
    (handler lib adapter event).Operates (fanned dest) usage own goal none now sofar := by
  have changes : adapter = dest → Changes usage :=
    fun home now target same => underway home now target (Or.inr same)
  have fans : adapter = dest → FansOut usage :=
    fun home now target fanning => underway home now target (Or.inl fanning)
  have idle : event.Uses lib [] → goal now sofar := by
    intro uses
    have met := meets [] uses
    rw [show atTable adapter dest ([] : List (TableOp Property × Option Fault)) = [] from
      ite_self _, List.append_nil] at met
    exact met
  have whole : ∀ answers : List (Option Fault), answers.length = (event.tableOps lib).length →
      goal now (sofar ++ atTable adapter dest ((event.tableOps lib).zip answers)) := by
    intro answers long
    apply meets
    rw [List.map_fst_zip (le_of_eq long.symm)]
    exact Or.inl rfl
  have only : ∀ {op : TableOp Property}, event.tableOps lib = [op] → adapter = dest →
      usage.allowed op :=
    fun single same => may same _ (single ▸ List.mem_singleton.mpr rfl)
  cases event with
  | accept con remote =>
      have mute : Mute (Broker.acceptHandler con remote : Broker → Broker.Result Property) := by
        cases remote with
        | none => exact ⟨fun _ => rfl, fun _ => rfl⟩
        | some address => exact ⟨fun _ => rfl, fun _ => rfl⟩
      show (call adapter (Broker.acceptHandler con remote)
        fun outcome => .done outcome.fault).Operates _ _ _ _ _ _ _
      apply operates_call still (mute.hides adapter)
      exact fun _ => ⟨rfl, idle (Or.inl rfl)⟩
  | close con =>
      exact operates_print (operates_closeConnection still changes (only rfl) (whole [none] rfl))
  | error con =>
      apply operates_look
      intro self
      by_cases registered : con ∈ (self.system.brokers adapter).connections
      · simp only [registered, ↓reduceIte]
        exact operates_printEvent still
          (operates_closeConnection still changes (only rfl) (whole [none] rfl))
      · simp only [registered, ↓reduceIte]
        exact ⟨rfl, idle (Or.inr ⟨⟨con, rfl⟩, rfl⟩)⟩
  | pingreq con =>
      exact operates_printEvent still (operates_answer still rfl (idle (Or.inl rfl)))
  | connect version con clientId =>
      exact operates_update still (fun _ => rfl)
        (operates_printEvent still (operates_answer still rfl (idle (Or.inl rfl))))
  | disconnect version con =>
      exact operates_printEvent still
        (operates_closeConnection still changes (only rfl) (whole [none] rfl))
  | ack version packet con => exact operates_printEvent still ⟨rfl, idle (Or.inl rfl)⟩
  | publish con connected pubopts topicName contents =>
      exact operates_publish still fans (Broker.v3Delivery_publishes lib pubopts topicName contents)
        (only rfl) fun answer => whole [answer] rfl
  | v5Publish con connected pubopts topicName contents props =>
      exact operates_publish still fans
        (Broker.v5Delivery_publishes lib con pubopts topicName contents props)
        (only rfl) fun answer => whole [answer] rfl
  | subscribe version con packetId entries =>
      cases version with
      | v3 =>
          refine operates_subscribe still changes (fun _ => rfl) may (meets _ ?_)
          rw [List.map_map]
          exact Or.inl (List.map_id _)
      | v5 =>
          refine operates_subscribe still changes (fun _ => rfl) may (meets _ ?_)
          rw [List.map_map]
          exact Or.inl (List.map_id _)
  | unsubscribe version con packetId topics =>
      exact operates_printEvent still (operates_change still changes (only rfl) (fun _ _ => rfl)
        (operates_answer still rfl (whole [none] rfl)))
  | injectPublish connected message =>
      apply operates_deliverAll still fans (Broker.injectedDelivery_publishes lib message)
        (only rfl)
      · exact fun fault => ⟨rfl, whole [some fault] rfl⟩
      · exact ⟨rfl, whole [none] rfl⟩

end Handler

section Drain

/-- The control thread is in its loop, and has injected these messages. -/
def controls (dest : SettingsPtr) (self : History Property) :
    Bool × List (AdapterMessagePair Property) := (self.running, self.injected dest)

/-- What `inject_publish` does with the table. -/
def Injection (lib : OptionsApi Opts) (op : TableOp Property) : Prop :=
  ∃ connected message, op = .fanOut connected message.topic (Broker.injectedDelivery lib message)

/-- The control thread fans out what is injected. -/
def injecting (lib : OptionsApi Opts) : Usage (Fanned Property) (TableOp Property) where
  allowed := Injection lib
  towards := Fanning

/-- An injected message is fanned out. -/
def Injects (lib : OptionsApi Opts) (item : AdapterMessagePair Property)
    (done : TableOp Property × Option Fault) : Prop :=
  ∃ connected, done.1 = .fanOut connected item.2.topic (Broker.injectedDelivery lib item.2)

/-- What the control thread has injected beyond some messages, it has fanned out, and
if it is still in its loop, without a fault. -/
structure Injected (lib : OptionsApi Opts) (base : List (AdapterMessagePair Property))
    (now : Bool × List (AdapterMessagePair Property))
    (sofar : List (TableOp Property × Option Fault)) : Prop where
  each : ∃ items, now.2 = base ++ items ∧ List.Forall₂ (Injects lib) items sofar
  fine : now.1 = true → ∀ done ∈ sofar, done.2 = none

variable {lib : OptionsApi Opts} {base : List (AdapterMessagePair Property)}
  {next : Routine Property} {sofar : List (TableOp Property × Option Fault)}

theorem still_controls : Still (controls dest : History Property → _) := by
  intro adapter handler self
  show (self.running, _) = (self.running, _)
  congr 1
  show (self.acts ++ _).filterMap (Act.injectedInto dest) = self.acts.filterMap _
  rw [List.filterMap_append, System.call_injected, List.append_nil]

theorem controls_inject (adapter : SettingsPtr) (item : AdapterMessagePair Property)
    (self : History Property) :
    controls dest (self.record (.emit self.system (.inject adapter item))) =
      (self.running, self.injected dest ++ atTable adapter dest [item]) := by
  show (self.running, (self.acts ++ [_]).filterMap (Act.injectedInto dest)) = _
  rw [List.filterMap_append]
  by_cases same : adapter = dest
  · rw [same, atTable_self]
    simp [Act.injectedInto, History.injected]
  · rw [atTable_of_ne same]
    simp [Act.injectedInto, History.injected, same]

theorem operates_leave (fault : Fault) {now : Bool × List (AdapterMessagePair Property)}
    (each : ∃ items, now.2 = base ++ items ∧ List.Forall₂ (Injects lib) items sofar) :
    (leave fault : Routine Property).Operates (fanned dest) (injecting lib) (controls dest)
      (Injected lib base) none now
      sofar := by
  intro self owned
  refine ⟨rfl, ?_⟩
  apply Program.Operates.release_of_ne queue_ne_fanned
  apply operates_print
  refine ⟨rfl, ?_, fun on => (nomatch on)⟩
  rw [← owned] at each
  exact each

/-- The loop over the pool. The induction is on the adapters that are left. -/
theorem operates_injectEach (connected : SettingsPtr → Connection → Bool)
    (item : AdapterMessagePair Property)
    (operates : ∀ now sofar, Injected lib base now sofar →
      next.Operates (fanned dest) (injecting lib) (controls dest)
      (Injected lib base) none now sofar)
    (pool : List Adapter) (now : Bool × List (AdapterMessagePair Property))
    (sofar : List (TableOp Property × Option Fault)) (injected : Injected lib base now sofar) :
    (injectEach lib connected item next pool).Operates (fanned dest) (injecting lib) (controls dest)
      (Injected lib base) none now sofar := by
  induction pool generalizing now sofar with
  | nil => exact operates now sofar injected
  | cons adapter rest ih =>
      rcases injectEach_cases lib connected item next adapter rest with
        ⟨_, skipped⟩ | ⟨fault, _, left⟩ | ⟨_, called⟩
      · rw [skipped]
        exact ih now sofar injected
      · rw [left]
        exact operates_leave fault injected.each
      · rw [called]
        intro self owned
        refine ⟨?_, ?_⟩
        · show (_, (self.acts ++ [Act.inject adapter.settings item]).filterMap _) = _
          rw [List.filterMap_append]
          exact congrArg _ (List.append_nil _)
        · rw [controls_inject]
          have running : self.running = now.1 := congrArg Prod.fst owned
          have before : self.injected dest = now.2 := congrArg Prod.snd owned
          rw [running, before]
          obtain ⟨items, all, matched⟩ := injected.each
          have each : ∀ answer, ∃ items,
              now.2 ++ atTable adapter.settings dest [item] = base ++ items ∧
                List.Forall₂ (Injects lib) items (sofar ++ atTable adapter.settings dest
                  [(.fanOut (connected adapter.settings) item.2.topic
                    (Broker.injectedDelivery lib item.2), answer)]) := by
            intro answer
            refine ⟨items ++ atTable adapter.settings dest [item], ?_, ?_⟩
            · rw [all, List.append_assoc]
            · apply List.rel_append matched
              by_cases same : adapter.settings = dest
              · rw [same, atTable_self, atTable_self]
                exact .cons ⟨_, rfl⟩ .nil
              · rw [atTable_of_ne same, atTable_of_ne same]
                exact .nil
          have may : adapter.settings = dest → (injecting lib).allowed
              (.fanOut (connected adapter.settings) item.2.topic
                (Broker.injectedDelivery lib item.2)) := fun _ => ⟨_, item.2, rfl⟩
          apply operates_deliverAll still_controls (fun _ _ _ fanning => fanning)
            (Broker.injectedDelivery_publishes lib item.2) may
          · exact fun fault => operates_leave fault (each (some fault))
          · apply ih
            refine ⟨each none, fun on done member => ?_⟩
            rcases List.mem_append.mp member with old | new
            · exact injected.fine on done old
            · unfold atTable at new
              split at new
              · exact congrArg Prod.snd (List.mem_singleton.mp new)
              · cases new

theorem operates_popAll (pool : List Adapter) (rounds : Nat)
    (connected : Nat → SettingsPtr → Connection → Bool)
    (now : Bool × List (AdapterMessagePair Property))
    (sofar : List (TableOp Property × Option Fault)) (injected : Injected lib base now sofar) :
    (popAll lib pool rounds connected).Operates (fanned dest) (injecting lib) (controls dest)
      (Injected lib base) none now sofar := by
  have drained : (Program.release .queue finish : Routine Property).Operates (fanned dest)
      (injecting lib) (controls dest) (Injected lib base) none now sofar :=
    Program.Operates.release_of_ne queue_ne_fanned ⟨rfl, injected⟩
  induction rounds generalizing connected now sofar with
  | zero =>
      apply operates_look
      intro self
      cases front : self.system.queue with
      | nil =>
          exact drained
      | cons item rest =>
          exact operates_leave .unfinished injected.each
  | succ rounds ih =>
      apply operates_look
      intro self
      cases front : self.system.queue with
      | nil =>
          exact drained
      | cons item rest =>
          refine operates_injectEach _ item ?_ pool now sofar injected
          intro now sofar injected
          refine Program.Operates.pass (fun _ found => (nomatch found)) ?_ ?_ fun later => ?_
          · intro later
            show (_, (later.acts ++ []).filterMap _) = _
            rw [List.append_nil]
            rfl
          · intro later
            show (_, (later.acts ++ []).filterMap _) = _
            rw [List.append_nil]
            rfl
          · exact ih _ now sofar injected
              (Program.Operates.release_of_ne queue_ne_fanned ⟨rfl, injected⟩)

theorem operates_waitFor {now : Bool × List (AdapterMessagePair Property)}
    (operates : next.Operates (fanned dest) (injecting lib) (controls dest)
      (Injected lib base) none now sofar)
    (wakeups : Nat) :
    (waitFor next wakeups).Operates (fanned dest) (injecting lib) (controls dest)
      (Injected lib base) none now sofar := by
  induction wakeups with
  | zero => exact operates
  | succ wakeups ih =>
      apply operates_look
      intro self
      cases front : self.system.queue with
      | nil =>
          apply Program.Operates.release_of_ne queue_ne_fanned
          exact Program.Operates.acquire_of_ne queue_ne_fanned ih
      | cons item rest =>
          exact operates

/-- A drain fans out the messages it injects, one after the other. -/
theorem operates_drain (pool : List Adapter) (wakeups : Nat)
    (connected : Nat → SettingsPtr → Connection → Bool)
    {now : Bool × List (AdapterMessagePair Property)} (injected : Injected lib base now sofar) :
    (drain lib pool wakeups connected).Operates (fanned dest) (injecting lib) (controls dest)
      (Injected lib base) none now sofar := by
  apply Program.Operates.acquire_of_ne queue_ne_fanned
  apply operates_waitFor
  apply operates_look
  intro self
  exact operates_popAll pool _ connected now sofar injected

end Drain

end Routine

end OctopusMq
