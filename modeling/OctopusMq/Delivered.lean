import OctopusMq.InterleavedRouting
import OctopusMq.Linearizable
import OctopusMq.Provenance

set_option autoImplicit false

/- What a connection is sent while its subscriptions stay as they are: the messages
of the other adapters once each and in order, and those of its own adapter at most
once. -/
namespace OctopusMq

open Imperative Concurrent Transition OrderedTable Register Broadcast

variable {Opts Property : Type}

namespace TableOp

/-- What a fan-out sends through some subscriptions, if nothing stops it. -/
def copies (mine : List Subscription) :
    TableOp Property → List (Connection × Packet Property)
  | .fanOut _ topicName packet => mine.filterMap (Broker.delivery topicName packet)
  | _ => []

/-- The operation leaves the subscriptions of a connection as they are. -/
def Spares (con : Connection) (mine : List Subscription) : TableOp Property → Prop
  | .emplace sub => sub.con = con → sub.key ∈ mine.map Subscription.key
  | .erase topics => ∀ sub ∈ mine, sub.topicFilter ∉ topics
  | .expire closed => ∀ sub ∈ mine, sub.con ≠ closed
  | .fanOut _ _ _ => True

end TableOp

/-- The subscriptions of a connection. -/
def subsOf (con : Connection) (table : SubscriptionContainer) : List Subscription :=
  table.entries.filter fun sub => sub.con = con

/-- The packets that go to a connection. -/
def sentTo (con : Connection) (sent : List (Connection × Packet Property)) :
    List (Connection × Packet Property) := sent.filter fun sending => sending.1 = con

theorem sentTo_append (con : Connection) (first second : List (Connection × Packet Property)) :
    sentTo con (first ++ second) = sentTo con first ++ sentTo con second :=
  List.filter_append _ _

section Operation

variable {con : Connection} {mine : List Subscription}

theorem subsOf_run {op : TableOp Property} (spares : op.Spares con mine) (now : Fanned Property)
    (same : subsOf con now.1 = mine) : subsOf con (op.run now).1.1 = mine := by
  subst same
  unfold subsOf
  cases op with
  | fanOut connected topicName packet => rfl
  | emplace sub =>
      show (now.1.emplace sub).entries.filter _ = _
      by_cases own : sub.con = con
      · obtain ⟨other, member, keyed⟩ := List.mem_map.mp (spares own)
        have taken : ¬ sub.key ∉ now.1.entries.map Subscription.key := by
          intro absent
          apply absent
          rw [← keyed]
          exact List.mem_map_of_mem (List.mem_filter.mp member).1
        rw [Table.emplace, dif_neg taken]
      · apply Table.filter_foldl_emplace_of_dropped (fun sub => sub.con = con) [sub] now.1
        intro item only
        rw [List.mem_singleton.mp only]
        exact decide_eq_false own
  | erase topics =>
      show (topics.foldl Broker.eraseTopic now.1).entries.filter _ = _
      rw [Broker.foldl_eraseTopic_entries, List.filter_filter]
      apply List.filter_congr
      intro sub member
      by_cases own : sub.con = con
      · have kept : sub ∈ subsOf con now.1 := List.mem_filter.mpr ⟨member, decide_eq_true own⟩
        simp [own, spares sub kept]
      · simp [own]
  | expire closed =>
      show (now.1.eraseWhere fun sub => sub.con = closed).entries.filter _ = _
      rw [Table.eraseWhere_entries, List.filter_filter]
      apply List.filter_congr
      intro sub member
      by_cases own : sub.con = con
      · have kept : sub ∈ subsOf con now.1 := List.mem_filter.mpr ⟨member, decide_eq_true own⟩
        have other : sub.con ≠ closed := spares sub kept
        rw [own] at other
        simp [own, other]
      · simp [own]

theorem sentTo_filterMap_delivery (topicName : Text)
    (packet : Subscription → Option (Packet Property)) (subs : List Subscription) :
    sentTo con (subs.filterMap (Broker.delivery topicName packet)) =
      (subs.filter fun sub => sub.con = con).filterMap (Broker.delivery topicName packet) := by
  unfold sentTo
  rw [List.filter_filterMap, List.filterMap_filter]
  apply List.filterMap_congr
  intro sub _
  cases sending : Broker.delivery topicName packet sub with
  | none => simp
  | some sent =>
      have receiver := ((Broker.delivery_eq_some_iff topicName packet sub sent).mp sending).2.1
      simp [Option.filter, receiver]

/-- What an operation sends to the connection is at most its copies, and all of them
if it ends in no fault. -/
theorem sent_run (op : TableOp Property) (now : Fanned Property)
    (same : subsOf con now.1 = mine) :
    ∃ sent, (op.run now).1.2 = now.2 ++ sent ∧ (sentTo con sent).Sublist (op.copies mine) ∧
      ((op.run now).2 = none → sentTo con sent = op.copies mine) := by
  cases op with
  | emplace sub => exact ⟨[], (List.append_nil _).symm, List.Sublist.refl _, fun _ => rfl⟩
  | erase topics => exact ⟨[], (List.append_nil _).symm, List.Sublist.refl _, fun _ => rfl⟩
  | expire closed => exact ⟨[], (List.append_nil _).symm, List.Sublist.refl _, fun _ => rfl⟩
  | fanOut connected topicName packet =>
      have sends :=
        Broker.sends_forEach_within connected topicName packet now.1.entries Broker.fresh
      have copied : (TableOp.fanOut connected topicName packet).copies mine =
          sentTo con (now.1.entries.filterMap (Broker.delivery topicName packet)) := by
        rw [sentTo_filterMap_delivery, ← same]
        rfl
      refine ⟨_, rfl, ?_, fun fine => ?_⟩
      · rw [copied]
        exact sends.1.sublist.filter _
      · rw [copied, sends.2 fine]

/-- The same for some operations one after the other: of a thread that ended in no
fault, all copies are sent. -/
theorem sent_after {θ : Type} [DecidableEq θ] (dest : SettingsPtr)
    (log : List (θ × TableOp Property)) (now : Fanned Property)
    (spares : ∀ entry ∈ log, entry.2.Spares con mine) (same : subsOf con now.1 = mine) :
    subsOf con ((fanned dest).after now log).1 = mine ∧
      ∃ sent, ((fanned dest).after now log).2 = now.2 ++ sent ∧
        (sentTo con sent).Sublist
          ((((fanned dest).replay now log).map Prod.snd).flatMap fun done => done.1.copies mine) ∧
        ∀ thread, (∀ done ∈ doneBy thread ((fanned dest).replay now log), done.2 = none) →
          ((doneBy thread ((fanned dest).replay now log)).flatMap
            fun done => done.1.copies mine).Sublist (sentTo con sent) := by
  induction log generalizing now with
  | nil => exact ⟨same, [], (List.append_nil _).symm, .refl _, fun _ _ => .refl _⟩
  | cons entry rest ih =>
      obtain ⟨first, sends, most, all⟩ := sent_run entry.2 now same
      have kept := subsOf_run (spares entry List.mem_cons_self) now same
      obtain ⟨ends, later, sendsLater, mostLater, allLater⟩ := ih (entry.2.run now).1
        (fun other member => spares other (List.mem_cons_of_mem _ member)) kept
      refine ⟨ends, first ++ later, ?_, ?_, ?_⟩
      · show ((fanned dest).after (entry.2.run now).1 rest).2 = _
        rw [sendsLater, sends, List.append_assoc]
      · rw [sentTo_append]
        exact most.append mostLater
      · intro thread fine
        show (List.flatMap _ (doneBy thread ((entry.1, entry.2, (entry.2.run now).2) ::
          (fanned dest).replay (entry.2.run now).1 rest))).Sublist _
        have replayed : (fanned dest).replay now (entry :: rest) =
          (entry.1, entry.2, (entry.2.run now).2) ::
            (fanned dest).replay (entry.2.run now).1 rest := rfl
        rw [replayed] at fine
        rw [sentTo_append]
        by_cases own : entry.1 = thread
        · subst own
          rw [doneBy_cons_own (entry.1, entry.2, (entry.2.run now).2)] at fine ⊢
          rw [List.flatMap_cons, ← all (fine _ List.mem_cons_self)]
          exact (List.Sublist.refl _).append
            (allLater entry.1 fun done member => fine done (List.mem_cons_of_mem _ member))
        · rw [doneBy_cons_other own] at fine ⊢
          exact (allLater thread fine).trans (List.sublist_append_right _ _)

end Operation

namespace Event

/-- No subscription of the connection is moved. -/
def Spares (con : Connection) (table : SubscriptionContainer) (event : Event Opts Property) :
    Prop :=
  ∀ filter, (event.move (con, filter)).apply (table.lookup (con, filter)) =
    table.lookup (con, filter)

/-- What a publish sends through some subscriptions, if nothing stops it. -/
def copies (lib : OptionsApi Opts) (mine : List Subscription) (event : Event Opts Property) :
    List (Connection × Packet Property) :=
  (event.tableOps lib).flatMap (TableOp.copies mine)

section Spares

variable {con : Connection} {table : SubscriptionContainer} {event : Event Opts Property}

theorem Spares.not_clear (spares : event.Spares con table) {sub : Subscription}
    (member : sub ∈ subsOf con table) : event.move (con, sub.topicFilter) ≠ .clear := by
  intro clear
  obtain ⟨inside, own⟩ := List.mem_filter.mp member
  have same := spares sub.topicFilter
  have held : table.lookup (con, sub.topicFilter) = some sub :=
    (table.lookup_eq_some_iff _ sub).mpr
      ⟨inside, show (sub.con, sub.topicFilter) = _ by rw [of_decide_eq_true own]⟩
  rw [clear, held] at same
  cases same

theorem Spares.held_of_claim (spares : event.Spares con table) {filter : Text}
    {value : Subscription} (claim : event.move (con, filter) = .claim value) :
    (con, filter) ∈ (subsOf con table).map Subscription.key := by
  have same := spares filter
  rw [claim] at same
  cases held : table.lookup (con, filter) with
  | none =>
      rw [held] at same
      cases same
  | some sub =>
      obtain ⟨inside, keyed⟩ := (table.lookup_eq_some_iff _ sub).mp held
      have own : sub.con = con := congrArg Prod.fst keyed
      exact List.mem_map.mpr ⟨sub, List.mem_filter.mpr ⟨inside, decide_eq_true own⟩, keyed⟩

theorem Spares.expire (spares : event.Spares con table) {closed : Connection}
    (clears : ∀ filter, event.move (con, filter) =
      if closed = con then (.clear : Move Subscription) else .leave) :
    (TableOp.expire closed : TableOp Property).Spares con (subsOf con table) := by
  intro sub member same
  apply spares.not_clear member
  have own : sub.con = con := of_decide_eq_true (List.mem_filter.mp member).2
  rw [clears, if_pos (same.symm.trans own)]

/-- The entries of a SUBSCRIBE of the connection are in the table already. -/
theorem spares_emplaced {version : Version} {asking : Connection} {packetId : UInt16}
    {entries : List (Text × SubscribeOptions)}
    (spares : (.subscribe version asking packetId entries : Event Opts Property).Spares con table)
    {op : TableOp Property}
    (member : op ∈ emplaced
      (fun filter options => Subscription.ofVersion version filter asking options) entries) :
    op.Spares con (subsOf con table) := by
  obtain ⟨entry, inside, made⟩ := List.mem_map.mp member
  obtain ⟨listed, accepted⟩ := List.mem_filter.mp inside
  have keyed : (Subscription.ofVersion version entry.1 asking entry.2).key = (asking, entry.1) := by
    cases version with
    | v3 => rfl
    | v5 => rfl
  rw [← made]
  intro own
  have same : asking = con := (congrArg Prod.fst keyed).symm.trans own
  rw [keyed]
  subst same
  have found : (entries.find? fun other => other.1 = entry.1).isSome :=
    List.find?_isSome.mpr ⟨entry, listed, decide_eq_true rfl⟩
  obtain ⟨first, claims⟩ := Option.isSome_iff_exists.mp found
  apply spares.held_of_claim
  show Option.elim (if asking = asking ∧ Scope.Accepted entry.1 then _ else none) _ _ = _
  rw [if_pos ⟨rfl, of_decide_eq_true accepted⟩, claims]
  rfl

/-- An event that moves none of the subscriptions does nothing to them in the table. -/
theorem Spares.op (spares : event.Spares con table) (lib : OptionsApi Opts)
    {op : TableOp Property} (member : op ∈ event.tableOps lib) :
    op.Spares con (subsOf con table) := by
  cases event with
  | accept asking remote => cases member
  | pingreq asking => cases member
  | connect version asking clientId => cases member
  | ack version packet asking => cases member
  | close closed =>
      rw [List.mem_singleton.mp member]
      exact spares.expire fun _ => rfl
  | error closed =>
      rw [List.mem_singleton.mp member]
      exact spares.expire fun _ => rfl
  | disconnect version closed =>
      rw [List.mem_singleton.mp member]
      exact spares.expire fun _ => rfl
  | publish asking connected pubopts topicName contents =>
      rw [List.mem_singleton.mp member]
      trivial
  | v5Publish asking connected pubopts topicName contents props =>
      rw [List.mem_singleton.mp member]
      trivial
  | subscribe version asking packetId entries =>
      cases version with
      | v3 => exact spares_emplaced spares member
      | v5 => exact spares_emplaced spares member
  | unsubscribe version asking packetId topics =>
      rw [List.mem_singleton.mp member]
      intro sub inside listed
      apply spares.not_clear inside
      show (if topics.contains sub.topicFilter then (.clear : Move Subscription) else .leave) = _
      rw [if_pos (List.contains_iff_mem.mpr listed)]
  | injectPublish connected message =>
      rw [List.mem_singleton.mp member]
      trivial

end Spares

/-- What an event uses is what its handler does, or nothing to the subscriptions. -/
theorem Uses.copies {lib : OptionsApi Opts} {event : Event Opts Property}
    {ops : List (TableOp Property)} (uses : event.Uses lib ops) (mine : List Subscription) :
    ops.flatMap (TableOp.copies mine) = event.copies lib mine := by
  rcases uses with same | ⟨⟨con, failed⟩, same⟩
  · rw [same]
    rfl
  · rw [same, failed]
    rfl

end Event

/-- The copies of a message of another adapter. -/
def itemCopies (lib : OptionsApi Opts) (mine : List Subscription)
    (item : AdapterMessagePair Property) : List (Connection × Packet Property) :=
  mine.filterMap (Broker.delivery item.2.topic (Broker.injectedDelivery lib item.2))

section Copies

variable {lib : OptionsApi Opts}

theorem copies_of_injects (mine : List Subscription) {items : List (AdapterMessagePair Property)}
    {did : List (TableOp Property × Option Fault)}
    (matched : List.Forall₂ (Routine.Injects lib) items did) :
    did.flatMap (fun done => done.1.copies mine) = items.flatMap (itemCopies lib mine) := by
  induction matched with
  | nil => rfl
  | cons first _ ih =>
      obtain ⟨connected, same⟩ := first
      rw [List.flatMap_cons, List.flatMap_cons, ih, same]
      rfl

theorem copies_of_uses (mine : List Subscription) {events : List (Event Opts Property)}
    {used : List (List (TableOp Property))} (matched : List.Forall₂ (Event.Uses lib) events used) :
    used.flatten.flatMap (TableOp.copies mine) = events.flatMap (Event.copies lib mine) := by
  induction matched with
  | nil => rfl
  | cons first _ ih =>
      rw [List.flatten_cons, List.flatMap_append, List.flatMap_cons, ih, first.copies mine]

variable {pool : List Adapter} {early late : Threads Thread (History Property) Mutex Fault}
  {labels : List (Label Thread (Task Opts Property))} {dest : SettingsPtr}
  {log : List (Thread × TableOp Property)}

/-- An operation spares the subscriptions that all of the events spare: a fan-out
spares any. -/
theorem Threads.spares_of_allowed {con : Connection} {mine : List Subscription}
    {events : List (Event Opts Property)}
    (each : ∀ event ∈ events, ∀ op ∈ event.tableOps lib, op.Spares con mine) {thread : Thread}
    {op : TableOp Property} (allowed : (usage lib dest events thread).allowed op) :
    op.Spares con mine := by
  cases thread with
  | control =>
      obtain ⟨connected, message, same⟩ : Routine.Injection lib op := allowed
      rw [same]
      trivial
  | broker adapter =>
      obtain ⟨_, event, listed, does⟩ := allowed
      exact each event listed op does

/-- The operations of the log leave the subscriptions of a connection as they are, if
the events of the broker do. -/
theorem Explains.spares (explains : Explains lib dest early late labels log) {con : Connection}
    {table : SubscriptionContainer} (spares : ∀ event ∈ given dest labels, event.Spares con table)
    (entry : Thread × TableOp Property) (member : entry ∈ log) :
    entry.2.Spares con (subsOf con table) :=
  Threads.spares_of_allowed (fun event listed _ does => (spares event listed).op lib does)
    (explains.fair entry member)

/-- Only the control thread and the broker have used the table. -/
theorem Explains.two (explains : Explains lib dest early late labels log)
    {entry : Thread × TableOp Property × Option Fault}
    (member : entry ∈ (fanned dest).replay ((fanned dest).view early.shared) log) :
    entry.1 = .control ∨ entry.1 = .broker dest := by
  have inside := @List.mem_map_of_mem _ _ _ _
    (fun entry : Thread × TableOp Property × Option Fault =>
    (entry.1, entry.2.1)) member
  rw [(fanned dest).map_replay] at inside
  have allowed := explains.fair _ inside
  obtain ⟨thread, did⟩ := entry
  cases thread with
  | control => exact Or.inl rfl
  | broker adapter => exact Or.inr (congrArg Thread.broker allowed.1)

end Copies

section Runs

variable (lib : OptionsApi Opts) (pool : List Adapter)

/-- When all threads are idle, no mutex is taken. -/
theorem quiet_of_finished {brokers : SettingsPtr → Broker}
    {state : Threads Thread (History Property) Mutex Fault}
    (reached : (threads lib pool).Reachable (Threads.idle (History.start brokers)) state)
    (finished : ∀ thread, (state.program thread).Finished) : Quiet state := by
  have ordered : ∀ (_ : Thread) (task : Task Opts Property),
      (task.1.routine lib pool task.2).Ordered Mutex.rank [] :=
    fun _ task => Turn.ordered_routine lib pool task.2 task.1
  obtain ⟨held, tidy⟩ := Threads.exists_tidy ordered reached
  refine ⟨finished, ?_⟩
  intro mutex
  cases taken : state.holder mutex with
  | none => rfl
  | some thread =>
      have member := (tidy.holder mutex thread).mp taken
      rw [tidy.held_of_finished (finished thread)] at member
      cases member

/-- Between two moments at which all threads are idle and no subscription of a
connection has been moved, once the queue is drained: through every subscription, the
connection is sent all messages of other adapters that were still to be injected, in
their order and once each, and besides at most what its own adapter publishes, once. -/
theorem threads_deliver (distinct : (pool.map Adapter.settings).Nodup)
    (brokers : SettingsPtr → Broker) {early late : Threads Thread (History Property) Mutex Fault}
    (reached : (threads lib pool).Reachable (Threads.idle (History.start brokers)) early)
    (labels : List (Label Thread (Task Opts Property)))
    (admitted : (threads lib pool).Admits early labels)
    (ends : (threads lib pool).run early labels = late)
    (idle : ∀ thread, (early.program thread).Finished)
    (idles : ∀ thread, (late.program thread).Finished) (drained : late.shared.system.queue = [])
    (running : late.shared.running = true) (dest : SettingsPtr) (con : Connection)
    (spares : ∀ event ∈ given dest labels,
      event.Spares con (early.shared.system.brokers dest).subs) :
    let mine := subsOf con (early.shared.system.brokers dest).subs
    ∃ items sent,
      late.shared.pushed.filter (eligibleAt pool dest) = early.shared.injected dest ++ items ∧
      late.shared.sentBy Packet.isPublish dest =
        early.shared.sentBy Packet.isPublish dest ++ sent ∧
      (items.flatMap (itemCopies lib mine)).Sublist (sentTo con sent) ∧
      (sentTo con sent).Subperm (items.flatMap (itemCopies lib mine) ++
        (given dest labels).flatMap (Event.copies lib mine)) := by
  have reaches : (threads lib pool).Reachable (Threads.idle (History.start brokers)) late := by
    obtain ⟨path, goes, arrives⟩ := reached
    refine ⟨path ++ labels, ?_, ?_⟩
    · exact ((threads lib pool).admits_append _ path labels).mpr ⟨goes, arrives ▸ admitted⟩
    · rw [(threads lib pool).run_append, arrives, ends]
  have rests := quiet_of_finished lib pool reaches idles
  obtain ⟨log, explains⟩ :=
    (quiet_of_finished lib pool reached idle).explains lib pool labels admitted dest
  rw [ends] at explains
  obtain ⟨items, injected, matched⟩ := explains.injections (rests.finished .control)
  obtain ⟨used, uses, did⟩ := explains.events (rests.finished (.broker dest))
  have whole : late.shared.injected dest = late.shared.pushed.filter (eligibleAt pool dest) := by
    have kept : Threads.Kept (Routine.routing pool) late :=
      Threads.reachable_kept (fun _ task => task.1.guards_routing lib pool distinct task.2)
        (fun _ => Ledger.balanced_empty _) reaches
    have balanced : late.shared.injected dest ++
        late.shared.system.queue.filter (eligibleAt pool dest) =
          late.shared.pushed.filter (eligibleAt pool dest) :=
      kept.unheld (rests.free .queue) running dest
    rw [drained, List.filter_nil, List.append_nil] at balanced
    exact balanced
  obtain ⟨_, sent, sends, most, all⟩ := sent_after dest log ((fanned dest).view early.shared)
    (explains.spares spares) rfl
  refine ⟨items, sent, whole ▸ injected, ?_, ?_, ?_⟩
  · exact (congrArg Prod.snd (explains.table (rests.free (.subs dest)))).trans sends
  · have fans := all .control (explains.faultless (rests.finished .control) running)
    rw [copies_of_injects _ matched] at fans
    exact fans
  · have apart : Thread.broker dest ≠ .control := fun same => (nomatch same)
    have two := perm_doneBy apart
      ((fanned dest).replay ((fanned dest).view early.shared) log) fun entry member =>
        explains.two member
    have parts := two.flatMap_right fun done => done.1.copies
      (subsOf con (early.shared.system.brokers dest).subs)
    have own : (doneBy (.broker dest) ((fanned dest).replay ((fanned dest).view early.shared)
        log)).flatMap (fun done => done.1.copies
          (subsOf con (early.shared.system.brokers dest).subs)) =
        (given dest labels).flatMap
          (Event.copies lib (subsOf con (early.shared.system.brokers dest).subs)) := by
      rw [← copies_of_uses _ uses, ← did, List.flatMap_map]
    rw [List.flatMap_append, copies_of_injects _ matched, own] at parts
    exact most.subperm.trans parts.subperm

end Runs

/-- A client of one adapter subscribes. -/
def subscribed : List (Label Thread (Task UInt8 Text)) :=
  (Session.subscribedOnce.zip [1, 8, 10]).flatMap fun event =>
    .start (.broker 2) (.client 2 event.1, 0) :: List.replicate event.2 (.advance (.broker 2))

/-- A client of another adapter publishes, and a drain sends the message on. -/
def delivering : List (Label Thread (Task UInt8 Text)) :=
  .start (.broker 1) (.client 1 (.publish 7 (fun _ => true) 0 (bytes "a") (bytes "hello")), 0) ::
    List.replicate 9 (.advance (.broker 1)) ++
  .start .control (.drain fun _ _ _ => true, 0) :: List.replicate 13 (.advance .control)

theorem finished_between {labels : List (Label Thread (Task UInt8 Text))}
    (admitted : (threads byteOptions [⟨1, Scope.global⟩, ⟨2, Scope.global⟩]).Admits
      (Threads.idle (History.start fun _ => Broker.fresh)) labels)
    (finished : ∀ thread ∈ labels.filterMap Threads.started,
      ((between labels).program thread).Finished) (thread : Thread) :
    ((between labels).program thread).Finished := by
  by_cases given : thread ∈ labels.filterMap Threads.started
  · exact finished thread given
  · have idle : ((Threads.idle (History.start fun _ => Broker.fresh) :
        Threads Thread (History Text) Mutex Fault).program thread).Finished := trivial
    exact Threads.finished_of_unstarted idle labels given admitted

theorem threads_deliver_delivering :
    let mine := subsOf 1 ((between subscribed).shared.system.brokers 2).subs
    ∃ items sent,
      (between (subscribed ++ delivering)).shared.pushed.filter
          (eligibleAt [⟨1, Scope.global⟩, ⟨2, Scope.global⟩] 2) =
        (between subscribed).shared.injected 2 ++ items ∧
      (between (subscribed ++ delivering)).shared.sentBy Packet.isPublish 2 =
        (between subscribed).shared.sentBy Packet.isPublish 2 ++ sent ∧
      (items.flatMap (itemCopies byteOptions mine)).Sublist (sentTo 1 sent) ∧
      (sentTo 1 sent).Subperm (items.flatMap (itemCopies byteOptions mine) ++
        (given 2 delivering).flatMap (Event.copies byteOptions mine)) :=
  threads_deliver byteOptions [⟨1, Scope.global⟩, ⟨2, Scope.global⟩] (by decide)
    (fun _ => Broker.fresh) ⟨subscribed, by decide, rfl⟩ delivering (by decide)
    ((threads byteOptions _).run_append _ subscribed delivering).symm
    (finished_between (by decide) (by decide)) (finished_between (by decide) (by decide))
    (by decide) (by decide) 2 1 (fun _ given => (nomatch given))

/-- The subscriber has been sent the message, once. -/
example : sentTo 1 ((between (subscribed ++ delivering)).shared.sentBy Packet.isPublish 2) =
    [(1, .publish (bytes "a") (bytes "hello") .atMostOnce .no [])] := by decide

end OctopusMq
