import OctopusMq.Apart
import OctopusMq.InterleavedRouting

set_option autoImplicit false

/- The order of the messages of an adapter on their way into another, whatever the
threads interleave. -/
namespace OctopusMq

open Imperative Concurrent Transition Broadcast

variable {Opts Property : Type}

/-- What the broker of an adapter has pushed to the queue so far. -/
def History.pushedBy (adapter : SettingsPtr) (self : History Property) :
    List (AdapterMessagePair Property) := self.pushed.filter fun item => item.1 = adapter

/-- What the publishes given to the thread of a broker share, in their order. -/
def sharedBy (lib : OptionsApi Opts) (adapter : SettingsPtr)
    (labels : List (Label Thread (Task Opts Property))) : List (AdapterMessagePair Property) :=
  ((given adapter labels).filterMap (Broker.shared lib)).map fun message => (adapter, message)

namespace History

theorem pushedBy_record (adapter : SettingsPtr) (self : History Property)
    (outcome : System.Result Property) :
    (self.record outcome).pushedBy adapter = self.pushedBy adapter ++
      (outcome.effects.filterMap Act.pushed).filter fun item => item.1 = adapter := by
  unfold pushedBy pushed History.record
  rw [List.filterMap_append, List.filter_append]

theorem pushedBy_call (mine adapter : SettingsPtr) (handler : Broker → Broker.Result Property)
    (self : History Property) :
    (self.record (System.call adapter handler self.system)).pushedBy mine = self.pushedBy mine ++
      if adapter = mine then
        (Broker.pushes (handler (self.system.brokers adapter)).effects).map
          fun message => (adapter, message)
      else [] := by
  rw [pushedBy_record, System.call_pushed]
  congr 1
  by_cases same : adapter = mine
  · rw [if_pos same, List.filter_eq_self]
    intro item member
    obtain ⟨message, _, tagged⟩ := List.mem_map.mp member
    rw [← tagged]
    exact decide_eq_true same
  · rw [if_neg same, List.filter_eq_nil_iff]
    intro item member
    obtain ⟨message, _, tagged⟩ := List.mem_map.mp member
    rw [← tagged]
    simp [same]

end History

namespace Routine

theorem calm_pushedBy (mine adapter : SettingsPtr) :
    Calm (History.pushedBy mine : History Property → _) adapter := by
  intro handler quiet self
  rw [History.pushedBy_call, quiet, List.map_nil, ite_self, List.append_nil]

theorem outside_pushedBy {mine adapter : SettingsPtr} (apart : adapter ≠ mine) :
    Outside (History.pushedBy mine : History Property → _) adapter := by
  intro handler self
  rw [History.pushedBy_call, if_neg apart, List.append_nil]

theorem undrained_pushedBy (lib : OptionsApi Opts) (mine : SettingsPtr) :
    Undrained lib (History.pushedBy mine : History Property → _) := by
  refine ⟨fun _ => rfl, ?_, ?_, ?_⟩
  · intro self adapter item
    rw [History.pushedBy_record]
    exact List.append_nil _
  · intro self
    rw [History.pushedBy_record]
    exact List.append_nil _
  · exact fun adapter connected message sub self =>
      calm_pushedBy mine adapter _ (pushes_deliver connected message.topic _ sub) self

section Adds

variable {adapter : SettingsPtr} {con : Connection} {next : Routine Property}
  {most : List (AdapterMessagePair Property)}

theorem addsSome_call {handler : Broker → Broker.Result Property}
    {later : System.Result Property → Routine Property}
    (quiet : ∀ broker, Broker.pushes (handler broker).effects = [])
    (adds : ∀ outcome, (later outcome).AddsSome (History.pushedBy adapter) most) :
    (call adapter handler later).AddsSome (History.pushedBy adapter) most :=
  Program.AddsSome.pass (calm_pushedBy adapter adapter handler quiet) fun _ => adds _

theorem addsSome_deliverEach {body : Subscription → Broker → Broker.Result Property}
    (quiet : ∀ sub broker, Broker.pushes (body sub broker).effects = [])
    {failed : Fault → Routine Property}
    (fails : ∀ fault, (failed fault).AddsSome (History.pushedBy adapter) most)
    (adds : next.AddsSome (History.pushedBy adapter) most) (subs : List Subscription) :
    (deliverEach adapter body failed next subs).AddsSome (History.pushedBy adapter) most := by
  induction subs with
  | nil => exact adds
  | cons sub rest ih =>
      apply addsSome_call (quiet sub)
      intro outcome
      cases outcome.fault with
      | some fault => exact fails fault
      | none =>
          cases outcome.effects with
          | nil => exact ih
          | cons effect effects => exact ih

/-- A publish handler pushes its message last, if it gets there. -/
theorem addsSome_publish (connected : Connection → Bool) (topicName : Text)
    (packet : Subscription → Option (Packet Property)) (message : Message Property) :
    (publish adapter con (Broker.deliver connected topicName packet)
      fun broker => .emit broker (.push message)).AddsSome (History.pushedBy adapter)
        [(adapter, message)] := by
  refine Program.AddsSome.pass (calm_pushedBy adapter adapter _ fun _ => rfl) fun _ => ?_
  refine Program.AddsSome.pass (fun _ => rfl) fun _ => ?_
  apply addsSome_deliverEach (pushes_deliver connected topicName packet)
  · exact fun _ => trivial
  · intro self
    refine ⟨[(adapter, message)], [], List.Sublist.refl _, ?_, trivial⟩
    rw [History.pushedBy_call, if_pos rfl]
    rfl

/-- The handler of an event pushes what the event shares, or nothing. -/
theorem addsSome_handler (lib : OptionsApi Opts) (adapter : SettingsPtr)
    (event : Event Opts Property) :
    (handler lib adapter event).AddsSome (History.pushedBy adapter)
      ((Broker.shared lib event).toList.map fun message => (adapter, message)) := by
  have calm : Calm (History.pushedBy adapter : History Property → _) adapter :=
    calm_pushedBy adapter adapter
  cases event with
  | publish con connected pubopts topicName contents =>
      exact addsSome_publish connected topicName _ _
  | v5Publish con connected pubopts topicName contents props =>
      exact addsSome_publish connected topicName _ _
  | accept con remote => exact (calm.keeps_handler lib (.accept con remote) rfl).addsSome _
  | close con => exact (calm.keeps_handler lib (.close con) rfl).addsSome _
  | error con => exact (calm.keeps_handler lib (.error con) rfl).addsSome _
  | pingreq con => exact (calm.keeps_handler lib (.pingreq con) rfl).addsSome _
  | connect version con clientId =>
      exact (calm.keeps_handler lib (.connect version con clientId) rfl).addsSome _
  | disconnect version con =>
      exact (calm.keeps_handler lib (.disconnect version con) rfl).addsSome _
  | ack version packet con =>
      exact (calm.keeps_handler lib (.ack version packet con) rfl).addsSome _
  | subscribe version con packetId entries =>
      exact (calm.keeps_handler lib (.subscribe version con packetId entries) rfl).addsSome _
  | unsubscribe version con packetId topics =>
      exact (calm.keeps_handler lib (.unsubscribe version con packetId topics) rfl).addsSome _
  | injectPublish connected message =>
      exact (calm.keeps_handler lib (.injectPublish connected message) rfl).addsSome _

end Adds

end Routine

section Runs

variable (lib : OptionsApi Opts) (pool : List Adapter)

theorem foldl_shared (adapter : SettingsPtr) (events : List (Event Opts Property))
    (items : List (AdapterMessagePair Property)) :
    events.foldl (fun items event =>
        items ++ (Broker.shared lib event).toList.map fun message => (adapter, message)) items =
      items ++ (events.filterMap (Broker.shared lib)).map fun message => (adapter, message) := by
  induction events generalizing items with
  | nil => exact (List.append_nil _).symm
  | cons event rest ih =>
      rw [List.foldl_cons, ih, List.filterMap_cons, List.append_assoc]
      cases Broker.shared lib event with
      | none => rfl
      | some message => rfl

/-- The thread of a broker alone pushes for it. -/
theorem pushedBy_sublist (brokers : SettingsPtr → Broker)
    (labels : List (Label Thread (Task Opts Property)))
    (admitted : (threads lib pool).Admits (Threads.idle (History.start brokers)) labels)
    (adapter : SettingsPtr) :
    (((threads lib pool).run (Threads.idle (History.start brokers)) labels).shared.pushedBy
      adapter).Sublist (sharedBy lib adapter labels) := by
  have start : Threads.Owned (Promise.addsSome (History.pushedBy adapter)) (.broker adapter)
      (Threads.idle (History.start brokers) : Threads Thread (History Property) Mutex Fault) [] :=
    ⟨⟨[], trivial, List.Sublist.refl _⟩, fun _ _ => trivial⟩
  have owned := start.run
    (fun items (task : Task Opts Property) => task.1.event.elim items fun event =>
      items ++ (Broker.shared lib event).toList.map fun message => (adapter, message))
    ?begins (fun shared other task permitted apart => ?leaves) labels admitted
  case begins =>
    intro shared task permitted fault final owes
    obtain ⟨most, _, within⟩ := owes
    have mine := permitted.1
    show ∃ most, (task.1.routine lib pool task.2).AddsSome _ most ∧ _
    cases turn : task.1 with
    | client other event =>
        rw [turn] at mine
        have same : other = adapter := Thread.broker.inj mine
        rw [same]
        refine ⟨_, Routine.addsSome_handler lib adapter event, ?_⟩
        exact ((List.sublist_append_left _ most).trans within).append (List.Sublist.refl _)
    | drain connected =>
        rw [turn] at mine
        cases mine
  case leaves =>
    apply Turn.keeps_routine
    · exact fun other different => Routine.outside_pushedBy different
    · exact Routine.undrained_pushedBy lib adapter
    · rw [permitted.1]
      exact apart
  rw [foldl_given, foldl_shared, List.nil_append] at owned
  obtain ⟨most, _, within⟩ := owned.own
  exact (List.sublist_append_left _ most).trans within

/-- Over any run of the threads, as long as the control thread is in its loop: the
messages of an adapter come into another in the order in which its clients published
them, each at most once, and only those the other is eligible for. -/
theorem threads_inOrder (distinct : (pool.map Adapter.settings).Nodup)
    (brokers : SettingsPtr → Broker) (labels : List (Label Thread (Task Opts Property)))
    (admitted : (threads lib pool).Admits (Threads.idle (History.start brokers)) labels)
    (running : ((threads lib pool).run
      (Threads.idle (History.start brokers)) labels).shared.running = true)
    (origin dest : SettingsPtr) :
    ((((threads lib pool).run (Threads.idle (History.start brokers)) labels).shared.injected
        dest).filter fun item => item.1 = origin).Sublist
      ((sharedBy lib origin labels).filter (eligibleAt pool dest)) := by
  have kept : Threads.Kept (Routine.routing pool)
      ((threads lib pool).run (Threads.idle (History.start brokers)) labels) :=
    Threads.reachable_kept (fun _ task => task.1.guards_routing lib pool distinct task.2)
      (fun _ => Ledger.balanced_empty _) ⟨labels, admitted, rfl⟩
  have ahead : (((threads lib pool).run
      (Threads.idle (History.start brokers)) labels).shared.injected dest).Sublist
      (((threads lib pool).run (Threads.idle (History.start brokers)) labels).shared.pushed.filter
        (eligibleAt pool dest)) := by
    rcases kept.now running dest with whole | front
    · exact whole ▸ List.sublist_append_left _ _
    · exact front ▸ List.sublist_append_left _ _
  refine (ahead.filter fun item => item.1 = origin).trans ?_
  rw [List.filter_comm]
  exact (pushedBy_sublist lib pool brokers labels admitted origin).filter _

end Runs

theorem threads_inOrder_crossing :
    (((between crossing).shared.injected 2).filter fun item => item.1 = 1).Sublist
      ((sharedBy byteOptions 1 crossing).filter
        (eligibleAt [⟨1, Scope.global⟩, ⟨2, Scope.global⟩] 2)) :=
  threads_inOrder byteOptions [⟨1, Scope.global⟩, ⟨2, Scope.global⟩] (by decide)
    (fun _ => Broker.fresh) crossing (by decide) (by decide) 1 2

end OctopusMq
