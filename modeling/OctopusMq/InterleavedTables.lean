import OctopusMq.Apart
import OctopusMq.SubscriptionHistory

set_option autoImplicit false

/- The connections and the table of a broker, whatever the threads interleave: they
are those of its handlers run one after the other. -/
namespace OctopusMq

open Imperative OrderedTable Concurrent Transition

variable {Opts Property : Type}

namespace Broker

/-- `_connections` and `_subs`. -/
def members (self : Broker) : Finset Connection × SubscriptionContainer :=
  (self.connections, self.subs)

theorem members_eq_iff {self other : Broker} :
    self.members = other.members ↔ self.connections = other.connections ∧ self.subs = other.subs :=
  Prod.ext_iff

/-- A delivery changes `_meta` at most. -/
theorem deliver_members (connected : Connection → Bool) (topicName : Text)
    (packet : Subscription → Option (Packet Property)) (sub : Subscription) (self : Broker) :
    (deliver connected topicName packet sub self).state.members = self.members := by
  by_cases served : Served connected topicName packet sub
  · rw [deliver_state_of_served _ _ _ self served]
    rfl
  · rw [deliver_state_of_not_served _ _ _ self served]

theorem forEach_deliver_members (connected : Connection → Bool) (topicName : Text)
    (packet : Subscription → Option (Packet Property)) (subs : List Subscription) (self : Broker) :
    (Outcome.forEach (deliver connected topicName packet) subs self).state.members =
      self.members := by
  apply Outcome.forEach_invariant (fun state => state.members = self.members) _ _ _ self rfl
  intro sub _ state same
  rw [deliver_members]
  exact same

/-- What an event makes of the connections and the table. -/
def membersAfter (lib : OptionsApi Opts) (event : Event Opts Property)
    (members : Finset Connection × SubscriptionContainer) :
    Finset Connection × SubscriptionContainer :=
  (handle lib event ⟨members.1, fun _ => none, members.2⟩).state.members

/-- Nothing else of the broker counts for them. -/
theorem handle_members (lib : OptionsApi Opts) (event : Event Opts Property) (self : Broker) :
    (handle lib event self).state.members = membersAfter lib event self.members := by
  unfold membersAfter
  cases event with
  | accept con remote =>
      cases remote with
      | none => rfl
      | some address => rfl
  | close con => rfl
  | error con =>
      show (errorHandler con self : Result Property).state.members =
        (errorHandler con ⟨self.connections, fun _ => none, self.subs⟩ :
          Result Property).state.members
      unfold errorHandler
      by_cases registered : con ∈ self.connections
      · simp only [registered, ↓reduceIte]
        rfl
      · simp only [registered, ↓reduceIte]
        rfl
  | pingreq con => rfl
  | connect version con clientId => cases version <;> rfl
  | disconnect version con => cases version <;> rfl
  | ack version packet con => cases version <;> cases packet <;> rfl
  | publish con connected pubopts topicName contents =>
      simp only [handle, publishHandler, andThen_share_eq, forEach_deliver_members]
      rfl
  | v5Publish con connected pubopts topicName contents props =>
      simp only [handle, v5PublishHandler, andThen_share_eq, forEach_deliver_members]
      rfl
  | subscribe version con packetId entries =>
      cases version with
      | v3 =>
          simp only [handle, subscribeHandler, subscribeWith_eq]
          rfl
      | v5 =>
          simp only [handle, v5SubscribeHandler, subscribeWith_eq]
          rfl
  | unsubscribe version con packetId topics => cases version <;> rfl
  | injectPublish connected message =>
      simp only [handle, injectPublish, forEach_deliver_members]
      rfl

end Broker

/-- Over the events of a session. -/
theorem Session.run_members (lib : OptionsApi Opts) (events : List (Event Opts Property))
    (self : Session) :
    ((machine lib).run self events).broker.members =
      events.foldl (fun members event => Broker.membersAfter lib event members)
        self.broker.members := by
  induction events generalizing self with
  | nil => rfl
  | cons event rest ih =>
      rw [List.foldl_cons, ← Broker.handle_members lib event self.broker]
      exact ih _

/-- The connections and the table of the broker of an adapter. -/
def History.members (adapter : SettingsPtr) (self : History Property) :
    Finset Connection × SubscriptionContainer := (self.system.brokers adapter).members

namespace History

theorem members_call (adapter : SettingsPtr) (handler : Broker → Broker.Result Property)
    (self : History Property) :
    (self.record (System.call adapter handler self.system)).members adapter =
      (handler (self.system.brokers adapter)).state.members := by
  show (Function.update self.system.brokers adapter _ adapter).members = _
  rw [Function.update_self]

theorem members_call_of_ne {mine adapter : SettingsPtr} (apart : adapter ≠ mine)
    (handler : Broker → Broker.Result Property) (self : History Property) :
    (self.record (System.call adapter handler self.system)).members mine = self.members mine := by
  show (Function.update self.system.brokers adapter _ mine).members = _
  rw [Function.update_of_ne (Ne.symm apart)]
  rfl

end History

namespace Routine

/-- A drain changes no connections and no table. -/
theorem undrained_members (lib : OptionsApi Opts) (mine : SettingsPtr) :
    Undrained lib (History.members mine : History Property → _) := by
  refine ⟨fun _ => rfl, fun _ _ _ => rfl, fun _ => rfl, ?_⟩
  intro adapter connected message sub self
  by_cases same : adapter = mine
  · rw [same, History.members_call, Broker.deliver_members]
    rfl
  · exact History.members_call_of_ne same _ self

section Leads

variable {adapter : SettingsPtr} {con : Connection} {next : Routine Property}
  {now final : Finset Connection × SubscriptionContainer}

theorem leads_same {handler : Broker → Broker.Result Property}
    {later : System.Result Property → Routine Property}
    (same : ∀ broker, (handler broker).state.members = broker.members)
    (leads : ∀ outcome, (later outcome).Leads (History.members adapter) now final) :
    (call adapter handler later).Leads (History.members adapter) now final := by
  refine Program.Leads.pass ?_ fun _ _ => leads _
  intro self
  rw [History.members_call, same]
  rfl

/-- A part that changes the broker, with what it makes of the members. -/
theorem leads_change {update : Broker → Broker}
    (makes : Finset Connection × SubscriptionContainer → Finset Connection × SubscriptionContainer)
    (changes : ∀ broker, (update broker).members = makes broker.members)
    (leads : next.Leads (History.members adapter) (makes now) final) :
    (change adapter update next).Leads (History.members adapter) now final := by
  intro self same
  rw [History.members_call]
  show next.Leads _ (update (self.system.brokers adapter)).members final
  rw [changes, show (self.system.brokers adapter).members = now from same]
  exact leads

theorem leads_printEvent (leads : next.Leads (History.members adapter) now final) :
    (printEvent adapter con next).Leads (History.members adapter) now final :=
  leads_same (fun _ => rfl) fun _ => leads

theorem leads_answer (packet : Packet Property) :
    (send adapter con packet (printEvent adapter con finish)).Leads (History.members adapter)
      now now :=
  leads_same (fun _ => rfl) fun _ => leads_printEvent rfl

theorem leads_closeConnection :
    (closeConnection adapter con : Routine Property).Leads (History.members adapter) now
      ((now.1.erase con).erase con, now.2.eraseWhere fun sub => sub.con = con) :=
  leads_change (fun members => (members.1.erase con, members.2)) (fun _ => rfl)
    (leads_change
      (fun members => (members.1.erase con, members.2.eraseWhere fun sub => sub.con = con))
      (fun _ => rfl) rfl)

theorem leads_deliverEach {body : Subscription → Broker → Broker.Result Property}
    (same : ∀ sub broker, (body sub broker).state.members = broker.members)
    {failed : Fault → Routine Property}
    (fails : ∀ fault, (failed fault).Leads (History.members adapter) now final)
    (leads : next.Leads (History.members adapter) now final) (subs : List Subscription) :
    (deliverEach adapter body failed next subs).Leads (History.members adapter) now final := by
  induction subs with
  | nil => exact leads
  | cons sub rest ih =>
      apply leads_same (same sub)
      intro outcome
      cases outcome.fault with
      | some fault => exact fails fault
      | none =>
          cases outcome.effects with
          | nil => exact ih
          | cons effect effects => exact ih

theorem leads_deliverAll {body : Subscription → Broker → Broker.Result Property}
    (same : ∀ sub broker, (body sub broker).state.members = broker.members)
    {failed : Fault → Routine Property}
    (fails : ∀ fault, (failed fault).Leads (History.members adapter) now final)
    (leads : next.Leads (History.members adapter) now final) :
    (deliverAll adapter body failed next).Leads (History.members adapter) now final := by
  refine Program.Leads.pass (fun _ => rfl) fun self _ => ?_
  apply leads_deliverEach same
  · exact fun fault => fails fault
  · exact leads

theorem leads_publish {body : Subscription → Broker → Broker.Result Property}
    (same : ∀ sub broker, (body sub broker).state.members = broker.members)
    (message : Message Property) :
    (publish adapter con body fun broker => .emit broker (.push message)).Leads
      (History.members adapter) now now := by
  apply leads_printEvent
  apply leads_deliverAll same
  · exact fun _ => rfl
  · show (call adapter (fun broker => .emit broker (.push message))
      fun _ => .release .queue finish).Leads _ now now
    apply leads_same
    · exact fun _ => rfl
    · exact fun _ => rfl

/-- The loop inserts what is left of the request. -/
theorem leads_subscribeEach {Code : Type} {subscription : Text → SubscribeOptions → Subscription}
    {granted : Qos → Code} {refused : Code} {answer : List Code → Routine Property}
    (leads : ∀ codes members, (answer codes).Leads (History.members adapter) members members)
    (entries : List (Text × SubscribeOptions)) (codes : List Code)
    (now : Finset Connection × SubscriptionContainer) :
    (subscribeEach adapter subscription granted refused answer entries codes).Leads
      (History.members adapter) now
      (now.1, (Broker.requested subscription entries).foldl Table.emplace now.2) := by
  induction entries generalizing codes now with
  | nil => exact leads codes now
  | cons entry rest ih =>
      unfold subscribeEach Broker.requested
      rw [Scope.validTopicFilter_eq]
      by_cases good : Scope.Accepted entry.1
      · rw [List.filter_cons_of_pos (by simp [good])]
        simp only [good, decide_true]
        exact leads_change
          (fun members => (members.1, members.2.emplace (subscription entry.1 entry.2)))
          (fun _ => rfl) (ih _ _)
      · rw [List.filter_cons_of_neg (by simp [good])]
        simp only [good, decide_false]
        exact ih _ _

/-- One case for each event: its handler leads where it leads when it is run alone. -/
theorem leads_handler (lib : OptionsApi Opts) (adapter : SettingsPtr)
    (event : Event Opts Property) (now : Finset Connection × SubscriptionContainer) :
    (handler lib adapter event).Leads (History.members adapter) now
      (Broker.membersAfter lib event now) := by
  cases event with
  | accept con remote =>
      have same : ∀ broker,
          (Broker.acceptHandler con remote broker : Broker.Result Property).state.members =
          broker.members := by
        intro broker
        cases remote with
        | none => rfl
        | some address => rfl
      show (call adapter (Broker.acceptHandler con remote)
        fun outcome => .done outcome.fault).Leads _ now _
      apply leads_same same
      intro outcome
      exact (same ⟨now.1, fun _ => none, now.2⟩).symm
  | close con => exact leads_closeConnection
  | error con =>
      intro self same
      have here : (self.system.brokers adapter).connections = now.1 := congrArg Prod.fst same
      rw [id_eq, same]
      unfold Broker.membersAfter Broker.handle Broker.errorHandler
      by_cases registered : con ∈ now.1
      · simp only [here, registered, ↓reduceIte]
        exact leads_printEvent leads_closeConnection
      · simp only [here, registered, ↓reduceIte]
        rfl
  | pingreq con => exact leads_printEvent (leads_answer .pingresp)
  | connect version con clientId =>
      have makes : (Broker.membersAfter lib
          (.connect version con clientId : Event Opts Property) now) =
            (insert con now.1, now.2) := by
        cases version <;> rfl
      rw [makes]
      exact leads_change (fun members => (insert con members.1, members.2)) (fun _ => rfl)
        (leads_printEvent (leads_answer (.connack version)))
  | disconnect version con =>
      cases version <;> exact leads_printEvent leads_closeConnection
  | ack version packet con =>
      cases version <;> cases packet <;> exact leads_printEvent rfl
  | publish con connected pubopts topicName contents =>
      have makes : Broker.membersAfter lib
          (.publish con connected pubopts topicName contents : Event Opts Property) now = now := by
        simp only [Broker.membersAfter, Broker.handle, Broker.publishHandler,
          Broker.andThen_share_eq, Broker.forEach_deliver_members]
        rfl
      rw [makes]
      exact leads_publish (Broker.deliver_members connected topicName _) _
  | v5Publish con connected pubopts topicName contents props =>
      have makes : Broker.membersAfter lib
          (.v5Publish con connected pubopts topicName contents props) now = now := by
        simp only [Broker.membersAfter, Broker.handle, Broker.v5PublishHandler,
          Broker.andThen_share_eq, Broker.forEach_deliver_members]
        rfl
      rw [makes]
      exact leads_publish (Broker.deliver_members connected topicName _) _
  | subscribe version con packetId entries =>
      unfold Broker.membersAfter
      cases version with
      | v3 =>
          simp only [Broker.handle, Broker.subscribeHandler, Broker.subscribeWith_eq]
          exact leads_printEvent
            (leads_subscribeEach (fun codes _ => leads_answer _) entries [] now)
      | v5 =>
          simp only [Broker.handle, Broker.v5SubscribeHandler, Broker.subscribeWith_eq]
          exact leads_printEvent
            (leads_subscribeEach (fun codes _ => leads_answer _) entries [] now)
  | unsubscribe version con packetId topics =>
      have makes : Broker.membersAfter lib
          (.unsubscribe version con packetId topics : Event Opts Property) now =
            (now.1, topics.foldl Broker.eraseTopic now.2) := by
        cases version <;> rfl
      rw [makes]
      exact leads_printEvent (leads_change
        (fun members => (members.1, topics.foldl Broker.eraseTopic members.2)) (fun _ => rfl)
        (leads_answer (.unsuback packetId)))
  | injectPublish connected message =>
      have makes : Broker.membersAfter lib
          (.injectPublish connected message : Event Opts Property) now = now := by
        simp only [Broker.membersAfter, Broker.handle, Broker.injectPublish,
          Broker.forEach_deliver_members]
        rfl
      rw [makes]
      apply leads_deliverAll (Broker.deliver_members connected message.topic _)
      · exact fun _ => rfl
      · rfl

end Leads

end Routine

section Runs

variable (lib : OptionsApi Opts) (pool : List Adapter)

/-- The thread of a broker alone works on its connections and its table. -/
theorem owned_members (brokers : SettingsPtr → Broker)
    (labels : List (Label Thread (Task Opts Property)))
    (admitted : (threads lib pool).Admits (Threads.idle (History.start brokers)) labels)
    (adapter : SettingsPtr) :
    Threads.Owned (Promise.leads (History.members adapter)) (.broker adapter)
      ((threads lib pool).run (Threads.idle (History.start brokers)) labels)
      ((given adapter labels).foldl
        (fun members event => Broker.membersAfter lib event members)
        (brokers adapter).members) := by
  have start : Threads.Owned (Promise.leads (History.members adapter)) (.broker adapter)
      (Threads.idle (History.start brokers) : Threads Thread (History Property) Mutex Fault)
      (brokers adapter).members := ⟨rfl, fun _ _ => trivial⟩
  have owned := start.run
    (fun members (task : Task Opts Property) => task.1.event.elim members fun event =>
      Broker.membersAfter lib event members)
    ?begins (fun shared other task permitted apart => ?leaves) labels admitted
  case begins =>
    intro shared task permitted fault final owes
    have now : History.members adapter shared = final := owes
    rw [← now]
    have mine := permitted.1
    show (task.1.routine lib pool task.2).Leads _ _ _
    cases turn : task.1 with
    | client other event =>
        rw [turn] at mine
        have same : other = adapter := Thread.broker.inj mine
        rw [same]
        exact Routine.leads_handler lib adapter event _
    | drain connected =>
        rw [turn] at mine
        cases mine
  case leaves =>
    apply Turn.keeps_routine
    · exact fun other different handler self => History.members_call_of_ne different handler self
    · exact Routine.undrained_members lib adapter
    · rw [permitted.1]
      exact apart
  rw [foldl_given] at owned
  exact owned

/-- Over any run of the threads, the connections and the table of a broker are, when
its thread is idle, those of its events handled one after the other. -/
theorem threads_sequential (brokers : SettingsPtr → Broker)
    (labels : List (Label Thread (Task Opts Property)))
    (admitted : (threads lib pool).Admits (Threads.idle (History.start brokers)) labels)
    (adapter : SettingsPtr) (phase : Connection → Phase)
    (finished : (((threads lib pool).run (Threads.idle (History.start brokers)) labels).program
      (.broker adapter)).Finished) :
    let shared := ((threads lib pool).run (Threads.idle (History.start brokers)) labels).shared
    let alone := (Session.machine lib).run ⟨brokers adapter, phase⟩ (given adapter labels)
    (shared.system.brokers adapter).connections = alone.broker.connections ∧
      (shared.system.brokers adapter).subs = alone.broker.subs := by
  have ends := (owned_members lib pool brokers labels admitted adapter).view_of_finished finished
  have alone := Session.run_members lib (given adapter labels) ⟨brokers adapter, phase⟩
  exact Broker.members_eq_iff.mp (ends.trans alone.symm)

/-- Over any run of the threads whose events come to a broker as a session has them,
when its thread is idle its table holds exactly the subscriptions in force. -/
theorem threads_inForce (brokers : SettingsPtr → Broker)
    (labels : List (Label Thread (Task Opts Property)))
    (admitted : (threads lib pool).Admits (Threads.idle (History.start brokers)) labels)
    (adapter : SettingsPtr) (unused : brokers adapter = Broker.fresh)
    (session : (Session.machine lib).Admits Session.fresh (given adapter labels))
    (finished : (((threads lib pool).run (Threads.idle (History.start brokers)) labels).program
      (.broker adapter)).Finished) (sub : Subscription) :
    sub ∈ (((threads lib pool).run
          (Threads.idle (History.start brokers)) labels).shared.system.brokers
        adapter).subs.entries ↔
      Register.InForce ((given adapter labels).map (Event.move sub.key)) sub := by
  have ends := (owned_members lib pool brokers labels admitted adapter).view_of_finished finished
  have alone := Session.run_members lib (given adapter labels) Session.fresh
  rw [unused] at ends
  have same := (Broker.members_eq_iff.mp (ends.trans alone.symm)).2
  rw [same, ← Register.held_eq_some_iff, ← Session.lookup_run lib (given adapter labels) session,
    Table.lookup_eq_some_iff, eq_self_iff_true, and_true]

end Runs

/-- Two connections subscribe to one filter, while the control thread is in a drain. -/
def subscribing : List (Label Thread (Task UInt8 Text)) :=
  [.start .control (.drain fun _ _ _ => true, 0), .advance .control, .advance .control] ++
    ((Session.sharedFilter.zip [1, 8, 10, 1, 8, 10]).flatMap fun event =>
      .start (.broker 1) (.client 1 event.1, 0) :: List.replicate event.2 (.advance (.broker 1))) ++
    [.advance .control]

theorem threads_sequential_subscribing :
    let shared := ((threads byteOptions [⟨1, Scope.global⟩]).run
      (Threads.idle (History.start fun _ => Broker.fresh)) subscribing).shared
    let alone := (Session.machine byteOptions).run ⟨Broker.fresh, fun _ => .unseen⟩
      (given 1 subscribing)
    (shared.system.brokers 1).connections = alone.broker.connections ∧
      (shared.system.brokers 1).subs = alone.broker.subs :=
  threads_sequential byteOptions [⟨1, Scope.global⟩] (fun _ => Broker.fresh) subscribing
    (by decide) 1 (fun _ => .unseen) (by decide)

theorem threads_inForce_subscribing :
    (⟨bytes "a", 2, .atLeastOnce, .dont, .no⟩ : Subscription) ∈
        (((threads byteOptions [⟨1, Scope.global⟩]).run
          (Threads.idle (History.start fun _ => Broker.fresh)) subscribing).shared.system.brokers
            1).subs.entries ↔
      Register.InForce ((given 1 subscribing).map (Event.move (2, bytes "a")))
        ⟨bytes "a", 2, .atLeastOnce, .dont, .no⟩ :=
  threads_inForce byteOptions [⟨1, Scope.global⟩] (fun _ => Broker.fresh) subscribing
    (by decide) 1 rfl (by decide) (by decide) ⟨bytes "a", 2, .atLeastOnce, .dont, .no⟩

end OctopusMq
