import OctopusMq.LockDiscipline

set_option autoImplicit false

/- What the mutexes protect while the threads interleave: the tables of the brokers,
and the queue with what has been routed from it. -/
namespace OctopusMq

open Imperative Concurrent Transition Broadcast

variable {Opts Property : Type}

namespace History

/-- A step of a thread enters what it does in the ledger. -/
theorem ledger_record (self : History Property) (outcome : System.Result Property) :
    (self.record outcome).ledger = System.record self.ledger outcome := by
  unfold ledger System.record
  ext1
  · exact List.filterMap_append
  · rfl
  · funext dest
    exact List.filterMap_append

/-- A part of a handler pushes to the ledger. -/
theorem ledger_call (self : History Property) (adapter : SettingsPtr)
    (handler : Broker → Broker.Result Property) :
    (self.record (System.call adapter handler self.system)).ledger =
      self.ledger.push ((Broker.pushes (handler (self.system.brokers adapter)).effects).map
        fun message => (adapter, message)) := by
  rw [ledger_record]
  exact System.call_refines adapter handler self.system self.ledger rfl

theorem ledger_inject (self : History Property) (adapter : SettingsPtr)
    (item : AdapterMessagePair Property) :
    (self.record (.emit self.system (.inject adapter item))).ledger =
      self.ledger.hand adapter item := by
  rw [ledger_record]
  unfold System.record Ledger.hand
  ext1
  · exact List.append_nil _
  · rfl
  · funext dest
    by_cases same : adapter = dest
    · simp [Act.injectedInto, same, ledger, injected]
    · simp [Act.injectedInto, same, ledger, injected]

theorem ledger_pop (self : History Property) :
    (self.record (System.pop self.system)).ledger = self.ledger.drop := by
  rw [ledger_record]
  unfold System.record Ledger.drop
  ext1
  · exact List.append_nil _
  · rfl
  · funext dest
    exact List.append_nil _

end History

namespace Routine

/-- The table of the broker of an adapter. -/
def table (adapter : SettingsPtr) :
    Resource (History Property) SubscriptionContainer Mutex Fault where
  view self := (self.system.brokers adapter).subs
  mutex := .subs adapter
  always _ := True
  free _ := True
  fair _ := True
  gives _ _ := trivial

theorem table_call {dest adapter : SettingsPtr} {handler : Broker → Broker.Result Property}
    (self : History Property)
    (keeps : adapter = dest → (handler (self.system.brokers adapter)).state.subs =
      (self.system.brokers adapter).subs) :
    (table dest).view (self.record (System.call adapter handler self.system)) =
      (table dest).view self := by
  show (Function.update self.system.brokers adapter _ dest).subs = (self.system.brokers dest).subs
  by_cases same : dest = adapter
  · subst same
    rw [Function.update_self]
    exact keeps rfl
  · rw [Function.update_of_ne same]

theorem shields_table (dest : SettingsPtr) :
    Shields (table dest : Resource (History Property) _ _ _) := by
  refine ⟨?_, fun _ _ => trivial, ?_, fun _ _ _ _ _ => trivial, ?_, fun _ _ _ _ _ => trivial, ?_⟩
  · intro same
    cases same
  · intro adapter handler light self
    exact table_call self fun _ => light.subs _
  · intro adapter update apart self
    exact table_call self fun same => absurd (congrArg Mutex.subs same) apart
  · intro adapter message _ self
    exact table_call self fun _ => rfl

section Table

variable (dest : SettingsPtr)

theorem queue_ne_table :
    Mutex.queue ≠ (table dest : Resource (History Property) _ _ _).mutex :=
  fun same => (nomatch (show Mutex.queue = .subs dest from same))

theorem guards_leave_table (fault : Fault) :
    (leave fault : Routine Property).Guards (table dest) none := by
  refine Program.Guards.perform known_none (fun _ => rfl) fun _ => ?_
  apply Program.Guards.release_of_ne (queue_ne_table dest)
  apply (shields_table dest).print
  exact ⟨rfl, fun _ _ => trivial⟩

theorem guards_injectEach_table (lib : OptionsApi Opts)
    (connected : SettingsPtr → Connection → Bool) (item : AdapterMessagePair Property)
    {next : Routine Property} (guards : next.Guards (table dest) none) (pool : List Adapter) :
    (injectEach lib connected item next pool).Guards (table dest) none := by
  induction pool with
  | nil => exact guards
  | cons adapter rest ih =>
      rcases injectEach_cases lib connected item next adapter rest with
        ⟨_, skipped⟩ | ⟨fault, _, left⟩ | ⟨_, called⟩
      · rw [skipped]
        exact ih
      · rw [left]
        exact guards_leave_table dest fault
      · rw [called]
        refine Program.Guards.perform known_none (fun _ => rfl) fun _ => ?_
        apply (shields_table dest).deliverAll
        · exact fun sub => light_deliver _ item.2.topic _ sub
        · exact known_none
        · exact fun _ => rfl
        · exact fun fault _ => guards_leave_table dest fault
        · exact ih

theorem guards_drained_table :
    (Program.release .queue finish : Routine Property).Guards (table dest) none :=
  Program.Guards.release_of_ne (queue_ne_table dest) guards_finish

theorem guards_popAll_table (lib : OptionsApi Opts) (pool : List Adapter) (rounds : Nat)
    (connected : Nat → SettingsPtr → Connection → Bool) :
    (popAll lib pool rounds connected : Routine Property).Guards (table dest) none := by
  induction rounds generalizing connected with
  | zero =>
      apply Program.Guards.perform known_none fun _ => rfl
      intro self
      cases front : self.system.queue with
      | nil => exact guards_drained_table dest
      | cons item rest => exact guards_leave_table dest .unfinished
  | succ rounds ih =>
      apply Program.Guards.perform known_none fun _ => rfl
      intro self
      cases front : self.system.queue with
      | nil => exact guards_drained_table dest
      | cons item rest =>
          apply guards_injectEach_table
          exact Program.Guards.perform known_none (fun _ => rfl) fun _ => ih _

theorem guards_waitFor_table {next : Routine Property} (guards : next.Guards (table dest) none)
    (wakeups : Nat) : (waitFor next wakeups).Guards (table dest) none := by
  induction wakeups with
  | zero => exact guards
  | succ wakeups ih =>
      apply Program.Guards.perform known_none fun _ => rfl
      intro self
      cases front : self.system.queue with
      | nil =>
          show (Program.release .queue (.acquire .queue (waitFor next wakeups))).Guards _ none
          apply Program.Guards.release_of_ne (queue_ne_table dest)
          exact Program.Guards.acquire_of_ne (queue_ne_table dest) ih
      | cons item rest => exact guards

theorem guards_drain_table (lib : OptionsApi Opts) (pool : List Adapter) (wakeups : Nat)
    (connected : Nat → SettingsPtr → Connection → Bool) :
    (drain lib pool wakeups connected : Routine Property).Guards (table dest) none := by
  apply Program.Guards.acquire_of_ne (queue_ne_table dest)
  apply guards_waitFor_table
  apply Program.Guards.perform known_none fun _ => rfl
  exact fun self => guards_popAll_table dest lib pool _ connected

end Table

section Queue

variable (pool : List Adapter)

/-- What has been pushed, is pending and has been injected, and whether the control
thread is in its loop. While it is, and the queue is free, nothing is owed; a drain
may owe the front item to some. -/
def routing : Resource (History Property)
    (Ledger SettingsPtr (AdapterMessagePair Property) × Bool) Mutex Fault where
  view self := (self.ledger, self.running)
  mutex := .queue
  always found := found.2 = true → Ledger.Passing (eligibleAt pool) found.1
  free found := found.2 = true → Ledger.Balanced (eligibleAt pool) found.1
  fair fault := fault ≠ .unfinished
  gives _ isFree on := (isFree on).passing

theorem shields_routing : Shields (routing pool : Resource (History Property) _ _ _) := by
  have still : ∀ (adapter : SettingsPtr) (handler : Broker → Broker.Result Property)
      (self : History Property),
      Broker.pushes (handler (self.system.brokers adapter)).effects = [] →
      (routing pool).view (self.record (System.call adapter handler self.system)) =
        (routing pool).view self := by
    intro adapter handler self quiet
    show ((self.record (System.call adapter handler self.system)).ledger, self.running) =
      (self.ledger, self.running)
    rw [History.ledger_call, quiet, List.map_nil, Ledger.push_nil]
  refine ⟨fun same => (nomatch same), fun _ => id, ?_, fun _ _ own => (nomatch own), ?_, ?_,
    fun _ _ apart => absurd rfl apart⟩
  · exact fun adapter handler light self => still adapter handler self (light.quiet _)
  · exact fun adapter update _ self => still adapter _ self rfl
  · intro adapter message _ self isFree on
    show Ledger.Balanced (eligibleAt pool) (self.record _).ledger
    rw [History.ledger_call]
    exact (isFree on).push _

variable {pool}

/-- The control thread hands the front item around, and is done with some adapters. -/
structure Handing (pool : List Adapter) (item : AdapterMessagePair Property)
    (rest : List (AdapterMessagePair Property)) (served : List SettingsPtr)
    (found : Ledger SettingsPtr (AdapterMessagePair Property) × Bool) : Prop where
  front : found.1.pending = item :: rest
  midway : found.2 = true → Ledger.Midway (eligibleAt pool) item rest served found.1

theorem Handing.known {item : AdapterMessagePair Property}
    {rest : List (AdapterMessagePair Property)} {served : List SettingsPtr}
    {found : Ledger SettingsPtr (AdapterMessagePair Property) × Bool}
    (handing : Handing pool item rest served found) :
    ∀ other ∈ some found, (routing pool : Resource (History Property) _ _ _).always other := by
  intro other same on
  rw [← Option.some.inj same] at on ⊢
  exact (handing.midway on).passing

theorem guards_leave_routing {fault : Fault} (stops : fault ≠ .unfinished)
    (found : Ledger SettingsPtr (AdapterMessagePair Property) × Bool) :
    (leave fault : Routine Property).Guards (routing pool) (some found) := by
  intro self _
  refine ⟨fun on => (nomatch on), ?_⟩
  apply Program.Guards.release rfl fun on => (nomatch on)
  apply (shields_routing pool).print
  exact (shields_routing pool).stopped fault stops

/-- The loop over the pool. The induction is on the adapters it has yet to come to. -/
theorem guards_injectEach_routing (distinct : (pool.map Adapter.settings).Nodup)
    (lib : OptionsApi Opts) (connected : SettingsPtr → Connection → Bool)
    (item : AdapterMessagePair Property) (rest : List (AdapterMessagePair Property))
    {next : Routine Property}
    (guards : ∀ found, Handing pool item rest (pool.map Adapter.settings) found →
      next.Guards (routing pool) (some found))
    (todo done : List Adapter) (all : pool = done ++ todo)
    (found : Ledger SettingsPtr (AdapterMessagePair Property) × Bool)
    (handing : Handing pool item rest (done.map Adapter.settings) found) :
    (injectEach lib connected item next todo).Guards (routing pool) (some found) := by
  induction todo generalizing done found with
  | nil =>
      have full : pool.map Adapter.settings = done.map Adapter.settings := by
        rw [all, List.append_nil]
      apply guards found
      rw [full]
      exact handing
  | cons adapter later ih =>
      have member : adapter ∈ pool := by
        rw [all]
        exact List.mem_append_right _ List.mem_cons_self
      have absent : adapter.settings ∉ done.map Adapter.settings := by
        have apart := distinct
        rw [all, List.map_append, List.map_cons] at apart
        intro inside
        exact List.disjoint_of_nodup_append apart inside List.mem_cons_self
      have after : pool = (done ++ [adapter]) ++ later := by
        rw [all, List.append_assoc, List.singleton_append]
      rcases injectEach_cases lib connected item next adapter later with
        ⟨refused, skipped⟩ | ⟨fault, overread, left⟩ | ⟨wanted, called⟩
      · rw [skipped]
        apply ih _ after
        refine ⟨handing.front, fun on => ?_⟩
        rw [List.map_append]
        apply (handing.midway on).skip absent
        rw [eligibleAt_of_mem distinct member]
        exact refused
      · rw [left]
        apply guards_leave_routing
        rw [Scope.includes_fault adapter.scope item.2.topic fault overread]
        exact fun same => (nomatch same)
      · rw [called]
        rw [← eligibleAt_of_mem distinct member] at wanted
        intro self same
        have shown : (self.ledger, self.running) = found := same
        have handed : Handing pool item rest ((done ++ [adapter]).map Adapter.settings)
            ((routing pool).view
              (self.record (.emit self.system (.inject adapter.settings item)))) := by
          show Handing pool item rest _ ((self.record _).ledger, self.running)
          rw [History.ledger_inject, List.map_append]
          rw [← shown] at handing
          refine ⟨handing.front, fun on => ?_⟩
          exact (handing.midway on).hand absent wanted
        refine ⟨handed.known _ rfl, ?_⟩
        apply (shields_routing pool).deliverAll
        · exact fun sub => light_deliver _ item.2.topic _ sub
        · exact handed.known
        · exact fun own => (nomatch own)
        · exact fun fault stops => guards_leave_routing stops _
        · exact ih _ after _ handed

/-- What is seen of the queue is the queue. -/
theorem queue_of_view {self : History Property}
    {found : Ledger SettingsPtr (AdapterMessagePair Property) × Bool}
    (same : (routing pool).view self = found) : self.system.queue = found.1.pending :=
  congrArg (fun pair => pair.1.pending) same

/-- The item in front may go when it has been handed around. -/
theorem Handing.pop {item : AdapterMessagePair Property}
    {rest : List (AdapterMessagePair Property)}
    {found : Ledger SettingsPtr (AdapterMessagePair Property) × Bool}
    (handing : Handing pool item rest (pool.map Adapter.settings) found)
    {self : History Property} (same : (routing pool).view self = found) :
    (routing pool).free ((routing pool).view (self.record (System.pop self.system))) ∧
      ((routing pool).view (self.record (System.pop self.system))).1.pending = rest := by
  have ledger : self.ledger = found.1 := congrArg Prod.fst same
  refine ⟨fun on => ?_, ?_⟩
  · show Ledger.Balanced (eligibleAt pool) (self.record _).ledger
    rw [History.ledger_pop, ledger]
    have running : found.2 = true := (congrArg Prod.snd same).symm.trans on
    apply (handing.midway running).drop
    intro dest wanted
    unfold eligibleAt at wanted
    obtain ⟨adapter, member, chosen⟩ := List.any_eq_true.mp wanted
    simp only [Bool.and_eq_true, decide_eq_true_eq] at chosen
    rw [← chosen.1]
    exact List.mem_map_of_mem member
  · show (self.record (System.pop self.system)).ledger.pending = rest
    rw [History.ledger_pop, ledger]
    show found.1.pending.tail = rest
    rw [handing.front, List.tail_cons]

/-- The loop over the queue. Nothing is pushed meanwhile, so that the rounds do. -/
theorem guards_popAll_routing (distinct : (pool.map Adapter.settings).Nodup)
    (lib : OptionsApi Opts) (rounds : Nat)
    (connected : Nat → SettingsPtr → Connection → Bool)
    (found : Ledger SettingsPtr (AdapterMessagePair Property) × Bool)
    (enough : found.1.pending.length ≤ rounds)
    (isFree : (routing pool : Resource (History Property) _ _ _).free found) :
    (popAll lib pool rounds connected : Routine Property).Guards (routing pool) (some found) := by
  induction rounds generalizing connected found with
  | zero =>
      apply Program.Guards.read ((routing pool).gives found isFree)
      intro self same
      have empty : self.system.queue = [] := by
        rw [queue_of_view same]
        exact List.length_eq_zero_iff.mp (Nat.le_zero.mp enough)
      simp only [empty]
      exact Program.Guards.release rfl isFree guards_finish
  | succ rounds ih =>
      apply Program.Guards.read ((routing pool).gives found isFree)
      intro self same
      have queue := queue_of_view same
      cases front : self.system.queue with
      | nil => exact Program.Guards.release rfl isFree guards_finish
      | cons item rest =>
          rw [front] at queue
          apply guards_injectEach_routing distinct lib (connected 0) item rest _ pool [] rfl
          · exact ⟨queue.symm, fun on => (isFree on).midway queue.symm⟩
          · intro after handing state shown
            have popped := handing.pop shown
            refine ⟨(routing pool).gives _ popped.1, ?_⟩
            apply ih
            · rw [popped.2]
              rw [← queue, List.length_cons] at enough
              omega
            · exact popped.1

theorem guards_waitFor_routing {next : Routine Property}
    (guards : ∀ found, (routing pool : Resource (History Property) _ _ _).free found →
      next.Guards (routing pool) (some found)) (wakeups : Nat)
    (found : Ledger SettingsPtr (AdapterMessagePair Property) × Bool)
    (isFree : (routing pool : Resource (History Property) _ _ _).free found) :
    (waitFor next wakeups).Guards (routing pool) (some found) := by
  induction wakeups generalizing found with
  | zero => exact guards found isFree
  | succ wakeups ih =>
      apply Program.Guards.read ((routing pool).gives found isFree)
      intro self _
      cases front : self.system.queue with
      | nil => exact Program.Guards.release rfl isFree (Program.Guards.acquire rfl ih)
      | cons item rest => exact guards found isFree

theorem guards_drain_routing (distinct : (pool.map Adapter.settings).Nodup)
    (lib : OptionsApi Opts) (wakeups : Nat)
    (connected : Nat → SettingsPtr → Connection → Bool) :
    (drain lib pool wakeups connected : Routine Property).Guards (routing pool) none := by
  apply Program.Guards.acquire rfl
  apply guards_waitFor_routing
  intro found isFree
  apply Program.Guards.read ((routing pool).gives found isFree)
  intro self same
  rw [queue_of_view same]
  exact guards_popAll_routing distinct lib _ connected found (Nat.le_refl _) isFree

end Queue

end Routine

section Runs

variable (lib : OptionsApi Opts) (pool : List Adapter)

theorem Turn.guards_table (dest : SettingsPtr) (wakeups : Nat) (turn : Turn Opts Property) :
    (turn.routine lib pool wakeups).Guards (Routine.table dest) none := by
  cases turn with
  | client adapter event => exact (Routine.shields_table dest).handler lib adapter event
  | drain connected => exact Routine.guards_drain_table dest lib pool wakeups connected

theorem Turn.guards_routing (distinct : (pool.map Adapter.settings).Nodup) (wakeups : Nat)
    (turn : Turn Opts Property) :
    (turn.routine lib pool wakeups).Guards (Routine.routing pool) none := by
  cases turn with
  | client adapter event => exact (Routine.shields_routing pool).handler lib adapter event
  | drain connected => exact Routine.guards_drain_routing distinct lib wakeups connected

/-- Over any run of the threads, a thread that has the mutex of a table or of the
queue is alone with it: no step of another thread changes the table, or what is
pushed, pending, injected and running. -/
theorem threads_exclude (distinct : (pool.map Adapter.settings).Nodup)
    (brokers : SettingsPtr → Broker) {state : Threads Thread (History Property) Mutex Fault}
    (reached : (threads lib pool).Reachable (Threads.idle (History.start brokers)) state)
    {thread other : Thread} (apart : other ≠ thread) (can : state.CanAdvance other) :
    (∀ dest, state.holder (.subs dest) = some thread →
      ((state.advance other).shared.system.brokers dest).subs =
        (state.shared.system.brokers dest).subs) ∧
    (state.holder .queue = some thread →
      (state.advance other).shared.ledger = state.shared.ledger ∧
        (state.advance other).shared.running = state.shared.running) := by
  refine ⟨?_, ?_⟩
  · intro dest holds
    have kept : Threads.Kept (Routine.table dest) state :=
      Threads.reachable_kept (fun _ task => task.1.guards_table lib pool dest task.2) trivial
        reached
    exact kept.stable holds apart can
  · intro holds
    have kept : Threads.Kept (Routine.routing pool) state :=
      Threads.reachable_kept (fun _ task => task.1.guards_routing lib pool distinct task.2)
        (fun _ => Ledger.balanced_empty _) reached
    exact Prod.mk.inj (kept.stable holds apart can)

/-- Two adapters of any scope, after some steps of the threads. -/
def between (labels : List (Label Thread (Task UInt8 Text))) :
    Threads Thread (History Text) Mutex Fault :=
  (threads byteOptions [⟨1, Scope.global⟩, ⟨2, Scope.global⟩]).run
    (Threads.idle (History.start fun _ => Broker.fresh)) labels

/-- The control thread has the queue, and a publish handler is on its way to it. -/
theorem threads_exclude_contended :
    (∀ dest, (between (contended.take 4)).holder (.subs dest) = some .control →
      (((between (contended.take 4)).advance (.broker 1)).shared.system.brokers dest).subs =
        ((between (contended.take 4)).shared.system.brokers dest).subs) ∧
    ((between (contended.take 4)).holder .queue = some .control →
      ((between (contended.take 4)).advance (.broker 1)).shared.ledger =
          (between (contended.take 4)).shared.ledger ∧
        ((between (contended.take 4)).advance (.broker 1)).shared.running =
          (between (contended.take 4)).shared.running) :=
  threads_exclude byteOptions [⟨1, Scope.global⟩, ⟨2, Scope.global⟩] (by decide)
    (fun _ => Broker.fresh) ⟨contended.take 4, by decide, rfl⟩ (by decide) (by decide)

/-- Over any run of the threads, as long as the control thread is in its loop: an
adapter has been given, in the order of the pushes and once each, the messages it is
eligible for, but for those pending, and perhaps already the one in front. Between
drains it is not given yet. No message goes back into its origin, and a drain never
runs out of rounds. -/
theorem threads_route (distinct : (pool.map Adapter.settings).Nodup)
    (brokers : SettingsPtr → Broker) {state : Threads Thread (History Property) Mutex Fault}
    (reached : (threads lib pool).Reachable (Threads.idle (History.start brokers)) state) :
    (state.shared.running = true → ∀ dest,
      (state.shared.injected dest ++
            state.shared.system.queue.filter (eligibleAt pool dest) =
          state.shared.pushed.filter (eligibleAt pool dest) ∨
        state.shared.injected dest ++
            state.shared.system.queue.tail.filter (eligibleAt pool dest) =
          state.shared.pushed.filter (eligibleAt pool dest)) ∧
      (state.holder .queue = none → state.shared.injected dest ++
            state.shared.system.queue.filter (eligibleAt pool dest) =
          state.shared.pushed.filter (eligibleAt pool dest)) ∧
      ∀ item ∈ state.shared.injected dest, dest ≠ item.1) ∧
    ∀ thread, state.program thread ≠ .done (some .unfinished) := by
  have kept : Threads.Kept (Routine.routing pool) state :=
    Threads.reachable_kept (fun _ task => task.1.guards_routing lib pool distinct task.2)
      (fun _ => Ledger.balanced_empty _) reached
  refine ⟨fun running dest => ⟨kept.now running dest, ?_, ?_⟩, ?_⟩
  · exact fun unheld => kept.unheld unheld running dest
  · intro item injected
    have wanted : item ∈ state.shared.pushed.filter (eligibleAt pool dest) := by
      rcases kept.now running dest with whole | ahead
      · exact whole ▸ List.mem_append_left _ injected
      · exact ahead ▸ List.mem_append_left _ injected
    exact ne_origin_of_eligibleAt (List.mem_filter.mp wanted).2
  · intro thread ended
    exact kept.fair_of_done ended rfl

end Runs

/-- A message on its way from one adapter into another. -/
def crossing : List (Label Thread (Task UInt8 Text)) :=
  .start (.broker 1) (.client 1 (.publish 1 (fun _ => true) 0 (bytes "a") (bytes "hello")), 0) ::
    List.replicate 9 (.advance (.broker 1)) ++
    .start .control (.drain fun _ _ _ => true, 0) :: List.replicate 4 (.advance .control)

theorem threads_route_crossing :
    ((between crossing).shared.running = true → ∀ dest,
      ((between crossing).shared.injected dest ++
            (between crossing).shared.system.queue.filter
              (eligibleAt [⟨1, Scope.global⟩, ⟨2, Scope.global⟩] dest) =
          (between crossing).shared.pushed.filter
            (eligibleAt [⟨1, Scope.global⟩, ⟨2, Scope.global⟩] dest) ∨
        (between crossing).shared.injected dest ++
            (between crossing).shared.system.queue.tail.filter
              (eligibleAt [⟨1, Scope.global⟩, ⟨2, Scope.global⟩] dest) =
          (between crossing).shared.pushed.filter
            (eligibleAt [⟨1, Scope.global⟩, ⟨2, Scope.global⟩] dest)) ∧
      ((between crossing).holder .queue = none → (between crossing).shared.injected dest ++
            (between crossing).shared.system.queue.filter
              (eligibleAt [⟨1, Scope.global⟩, ⟨2, Scope.global⟩] dest) =
          (between crossing).shared.pushed.filter
            (eligibleAt [⟨1, Scope.global⟩, ⟨2, Scope.global⟩] dest)) ∧
      ∀ item ∈ (between crossing).shared.injected dest, dest ≠ item.1) ∧
    ∀ thread, (between crossing).program thread ≠ .done (some .unfinished) :=
  threads_route byteOptions [⟨1, Scope.global⟩, ⟨2, Scope.global⟩] (by decide)
    (fun _ => Broker.fresh) ⟨crossing, by decide, rfl⟩

/-- The drain has given the message to the other adapter, and not dropped it yet. -/
example : ((between crossing).shared.injected 2).length = 1 ∧
    (between crossing).shared.system.queue.length = 1 := by decide

end OctopusMq
