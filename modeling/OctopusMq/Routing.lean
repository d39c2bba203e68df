import OctopusMq.Queue
import OctopusMq.Delivery
import OctopusMq.Subscribing
import OctopusMq.Library.Ledger

set_option autoImplicit false

/- Routing between adapters: the queue and its drains refine a broadcast ledger
whose destinations are the adapters. -/
namespace OctopusMq

open Imperative Transition Broadcast

variable {Opts Property : Type}

/-- The adapter is to be given the message: it is not its origin, and its scope
includes the topic. -/
def Adapter.eligible (self : Adapter) (item : AdapterMessagePair Property) : Bool :=
  decide (self.settings ≠ item.1 ∧ self.scope.includes item.2.topic = .ok true)

/-- Some adapter of the pool with these settings is to be given the message. -/
def eligibleAt (pool : List Adapter) (dest : SettingsPtr) (item : AdapterMessagePair Property) :
    Bool :=
  pool.any fun adapter => decide (adapter.settings = dest) && adapter.eligible item

theorem eligibleAt_of_mem {pool : List Adapter} (distinct : (pool.map Adapter.settings).Nodup)
    {adapter : Adapter} (member : adapter ∈ pool) (item : AdapterMessagePair Property) :
    eligibleAt pool adapter.settings item = adapter.eligible item := by
  apply Bool.eq_iff_iff.mpr
  unfold eligibleAt
  simp only [List.any_eq_true, Bool.and_eq_true, decide_eq_true_eq]
  refine ⟨?_, fun eligible => ⟨adapter, member, rfl, eligible⟩⟩
  intro found
  obtain ⟨other, inside, same, eligible⟩ := found
  rw [← List.inj_on_of_nodup_map distinct inside member same]
  exact eligible

/-- An adapter is never to be given its own message. -/
theorem ne_origin_of_eligibleAt {pool : List Adapter} {dest : SettingsPtr}
    {item : AdapterMessagePair Property} (eligible : eligibleAt pool dest item = true) :
    dest ≠ item.1 := by
  unfold eligibleAt Adapter.eligible at eligible
  simp only [List.any_eq_true, Bool.and_eq_true, decide_eq_true_eq] at eligible
  obtain ⟨adapter, _, same, foreign, _⟩ := eligible
  rw [← same]
  exact foreign

namespace Broker

/-- The message a publish event shares. -/
def shared (lib : OptionsApi Opts) : Event Opts Property → Option (Message Property)
  | .publish _ _ pubopts topicName contents =>
      some (sharedMessage lib topicName contents pubopts .v3 [])
  | .v5Publish _ _ pubopts topicName contents props =>
      some (sharedMessage lib topicName contents pubopts .v5 props)
  | _ => none

/-- `inject_publish` never pushes, not even when it throws. -/
theorem pushes_injectPublish (lib : OptionsApi Opts) (connected : Connection → Bool)
    (message : Message Property) (self : Broker) :
    pushes (injectPublish lib connected message self).effects = [] :=
  pushes_forEach_deliver connected message.topic _ self.subs.entries self

end Broker

namespace System

theorem foldl_push (adapter : SettingsPtr) (messages : List (Message Property))
    (queue : List (AdapterMessagePair Property)) :
    messages.foldl (push adapter) queue =
      queue ++ messages.map fun message => (adapter, message) := by
  induction messages generalizing queue with
  | nil => simp
  | cons message rest ih =>
      rw [List.foldl_cons, ih, push, List.map_cons, List.append_assoc, List.singleton_append]

/-- The pushes of a call are those of the handler, tagged with the adapter. -/
theorem call_pushed (adapter : SettingsPtr) (handler : Broker → Broker.Result Property)
    (self : System Property) :
    (call adapter handler self).effects.filterMap Act.pushed =
      (Broker.pushes (handler (self.brokers adapter)).effects).map
        fun message => (adapter, message) := by
  unfold call Broker.pushes
  rw [List.filterMap_map, List.map_filterMap]
  apply List.filterMap_congr
  intro effect _
  cases effect with
  | send con packet => rfl
  | push message => rfl

theorem call_queue (adapter : SettingsPtr) (handler : Broker → Broker.Result Property)
    (self : System Property) :
    (call adapter handler self).state.queue =
      self.queue ++ (call adapter handler self).effects.filterMap Act.pushed := by
  rw [call_pushed]
  exact foldl_push adapter _ self.queue

theorem call_injected (adapter dest : SettingsPtr) (handler : Broker → Broker.Result Property)
    (self : System Property) :
    (call adapter handler self).effects.filterMap (Act.injectedInto dest) = [] := by
  unfold call
  rw [List.filterMap_map, List.filterMap_eq_nil_iff]
  intro effect _
  cases effect with
  | send con packet => rfl
  | push message => rfl

section Drain

variable (lib : OptionsApi Opts) (pool : List Adapter)

/-- A call of `inject_publish` leaves the queue as it is. -/
theorem call_injectPublish_queue (connected : Connection → Bool) (message : Message Property)
    (adapter : SettingsPtr) (self : System Property) :
    (call adapter (Broker.injectPublish lib connected message) self).effects.filterMap
        Act.pushed = [] ∧
      (call adapter (Broker.injectPublish lib connected message) self).state.queue =
        self.queue := by
  have quiet : (call adapter (Broker.injectPublish lib connected message) self).effects.filterMap
      Act.pushed = [] := by
    rw [call_pushed, Broker.pushes_injectPublish, List.map_nil]
  refine ⟨quiet, ?_⟩
  rw [call_queue, quiet, List.append_nil]

/-- The three ways of an adapter: it is passed over, its scope reads out of range, or
its `inject_publish` is called. -/
theorem injectInto_cases (connected : SettingsPtr → Connection → Bool)
    (item : AdapterMessagePair Property) (adapter : Adapter) (self : System Property) :
    (adapter.eligible item = false ∧ injectInto lib connected item adapter self = .done self) ∨
    (adapter.eligible item = false ∧ ∃ fault, adapter.scope.includes item.2.topic = .error fault ∧
      injectInto lib connected item adapter self = .throw self fault) ∨
    (adapter.eligible item = true ∧ injectInto lib connected item adapter self =
      (Outcome.emit self (.inject adapter.settings item)).andThen (call adapter.settings
        (Broker.injectPublish lib (connected adapter.settings) item.2))) := by
  unfold injectInto Adapter.eligible
  by_cases foreign : adapter.settings ≠ item.1
  · rw [if_pos foreign]
    cases included : adapter.scope.includes item.2.topic with
    | error fault => exact Or.inr (Or.inl ⟨by simp, fault, rfl, rfl⟩)
    | ok found =>
        cases found with
        | false => exact Or.inl ⟨by simp, rfl⟩
        | true => exact Or.inr (Or.inr ⟨by simp [foreign], rfl⟩)
  · rw [if_neg foreign]
    exact Or.inl ⟨by simp [foreign], rfl⟩

/-- One adapter leaves the queue as it is, whether or not its call throws. -/
theorem injectInto_queue (connected : SettingsPtr → Connection → Bool)
    (item : AdapterMessagePair Property) (adapter : Adapter) (self : System Property) :
    (injectInto lib connected item adapter self).state.queue = self.queue ∧
      (injectInto lib connected item adapter self).effects.filterMap Act.pushed = [] := by
  rcases injectInto_cases lib connected item adapter self with
    ⟨_, skipped⟩ | ⟨_, fault, _, threw⟩ | ⟨_, called⟩
  · rw [skipped]
    exact ⟨rfl, rfl⟩
  · rw [threw]
    exact ⟨rfl, rfl⟩
  · rw [called, Outcome.emit_andThen]
    have quiet := call_injectPublish_queue lib (connected adapter.settings) item.2
      adapter.settings self
    exact ⟨quiet.2, quiet.1⟩

/-- The loop over the pool leaves the queue as it is, wherever it is left. -/
theorem forEach_injectInto_queue (connected : SettingsPtr → Connection → Bool)
    (item : AdapterMessagePair Property) (self : System Property) :
    (Outcome.forEach (injectInto lib connected item) pool self).state.queue = self.queue ∧
      (Outcome.forEach (injectInto lib connected item) pool self).effects.filterMap
        Act.pushed = [] := by
  refine ⟨?_, ?_⟩
  · apply Outcome.forEach_invariant (fun state => state.queue = self.queue) _ _ _ self rfl
    intro adapter _ state same
    exact (injectInto_queue lib connected item adapter state).1.trans same
  · apply List.filterMap_eq_nil_iff.mpr
    apply Outcome.forEach_effects (fun act : Act Property => act.pushed = none)
    intro adapter _ state
    exact List.filterMap_eq_nil_iff.mp (injectInto_queue lib connected item adapter state).2

/-- The ledger of a system after what happened in it. -/
def record (ledger : Ledger SettingsPtr (AdapterMessagePair Property))
    (outcome : Result Property) : Ledger SettingsPtr (AdapterMessagePair Property) where
  pushed := ledger.pushed ++ outcome.effects.filterMap Act.pushed
  pending := outcome.state.queue
  handed dest := ledger.handed dest ++ outcome.effects.filterMap (Act.injectedInto dest)

theorem record_andThen (ledger : Ledger SettingsPtr (AdapterMessagePair Property))
    (first : Result Property) (next : System Property → Result Property)
    (ok : first.fault = none) :
    record ledger (first.andThen next) = record (record ledger first) (next first.state) := by
  rw [Outcome.andThen_of_ok _ _ ok]
  unfold record
  simp only [List.filterMap_append, List.append_assoc]

theorem popAll_of_empty (rounds : Nat) (connected : Nat → SettingsPtr → Connection → Bool)
    (self : System Property) (empty : self.queue = []) :
    popAll lib pool rounds connected self = .done self := by
  cases rounds <;> simp only [popAll, empty]

theorem popAll_of_cons (rounds : Nat) (connected : Nat → SettingsPtr → Connection → Bool)
    (self : System Property) (item : AdapterMessagePair Property)
    (rest : List (AdapterMessagePair Property)) (front : self.queue = item :: rest) :
    popAll lib pool (rounds + 1) connected self =
      ((Outcome.forEach (injectInto lib (connected 0) item) pool self).andThen pop).andThen
        (popAll lib pool rounds fun round => connected (round + 1)) := by
  simp only [popAll, front]

/-- A drain is left in the round of the front message, or goes on without it. -/
theorem popAll_cases (rounds : Nat) (connected : Nat → SettingsPtr → Connection → Bool)
    (self : System Property) (item : AdapterMessagePair Property)
    (rest : List (AdapterMessagePair Property)) (front : self.queue = item :: rest) :
    (∃ fault, (Outcome.forEach (injectInto lib (connected 0) item) pool self).fault = some fault ∧
      popAll lib pool (rounds + 1) connected self =
        Outcome.forEach (injectInto lib (connected 0) item) pool self) ∨
    ((Outcome.forEach (injectInto lib (connected 0) item) pool self).fault = none ∧
      ∃ popped : System Property, popped.queue = rest ∧
        popped.brokers =
          (Outcome.forEach (injectInto lib (connected 0) item) pool self).state.brokers ∧
        let later := popAll lib pool rounds (fun round => connected (round + 1)) popped
        popAll lib pool (rounds + 1) connected self = ⟨later.state,
          (Outcome.forEach (injectInto lib (connected 0) item) pool self).effects ++ later.effects,
          later.fault⟩) := by
  rw [popAll_of_cons lib pool rounds connected self item rest front, Outcome.andThen_assoc]
  cases passed : (Outcome.forEach (injectInto lib (connected 0) item) pool self).fault with
  | some fault => exact Or.inl ⟨fault, rfl, Outcome.andThen_of_fault _ _ fault passed⟩
  | none =>
      have queue := (forEach_injectInto_queue lib pool (connected 0) item self).1
      refine Or.inr ⟨rfl, _, ?_, ?_, Outcome.andThen_of_ok _ _ passed⟩
      · show (Outcome.forEach _ pool self).state.queue.tail = rest
        rw [queue, front, List.tail_cons]
      · rfl

theorem waitAndPopAll_eq (connected : Nat → SettingsPtr → Connection → Bool)
    (self : System Property) :
    waitAndPopAll lib pool connected self =
      (self.queue.length, popAll lib pool self.queue.length connected self) := by
  unfold waitAndPopAll
  cases front : self.queue with
  | nil => rw [List.length_nil, popAll_of_empty lib pool 0 connected self front]
  | cons item rest => rfl

end Drain

/-- A handler of a client appends its pushes to the ledger. -/
theorem call_refines (adapter : SettingsPtr) (handler : Broker → Broker.Result Property)
    (self : System Property) (ledger : Ledger SettingsPtr (AdapterMessagePair Property))
    (synced : ledger.pending = self.queue) :
    record ledger (call adapter handler self) =
      ledger.push ((Broker.pushes (handler (self.brokers adapter)).effects).map
        fun message => (adapter, message)) := by
  ext1
  · show ledger.pushed ++ (call adapter handler self).effects.filterMap Act.pushed = _
    rw [call_pushed]
    rfl
  · show (call adapter handler self).state.queue = _
    rw [call_queue, call_pushed, ← synced]
    rfl
  · funext dest
    show ledger.handed dest ++ (call adapter handler self).effects.filterMap _ = _
    rw [call_injected, List.append_nil]
    rfl

end System

namespace History

/-- What has been pushed, what is still queued and what has been injected where. -/
def ledger (self : History Property) : Ledger SettingsPtr (AdapterMessagePair Property) :=
  ⟨self.pushed, self.system.queue, self.injected⟩

/-- No `inject_publish` of the turn throws, and no topic comparison reads out of range. -/
def FaultFree (lib : OptionsApi Opts) (pool : List Adapter) (self : History Property) :
    Turn Opts Property → Prop
  | .client _ _ => True
  | .drain connected =>
      (self.system.waitAndPopAll lib pool connected).2.fault ≠ some .notConnected ∧
        (self.system.waitAndPopAll lib pool connected).2.fault ≠ some .outOfRange

instance decidableFaultFree (lib : OptionsApi Opts) (pool : List Adapter)
    (self : History Property) :
    (turn : Turn Opts Property) → Decidable (FaultFree lib pool self turn)
  | .client _ _ => isTrue trivial
  | .drain _ => instDecidableAnd

section Run

variable (lib : OptionsApi Opts) (pool : List Adapter)

end Run

/-- Two brokers for all topics: a client of the first publishes to a client of the second. -/
def bridged : List (Turn UInt8 Text) :=
  [.client 1 (.accept 1 (some {})), .client 1 (.connect .v3 1 (bytes "one")),
    .client 2 (.accept 2 (some {})), .client 2 (.connect .v3 2 (bytes "two")),
    .client 2 (.subscribe .v3 2 1 [(bytes "a", ⟨.atMostOnce, .dont, .no⟩)]),
    .client 1 (.publish 1 (fun _ => true) 0 (bytes "a") (bytes "hello")),
    .drain (fun _ _ _ => true)]

/-- The message arrives. -/
example : ((machine byteOptions [⟨1, Scope.global⟩, ⟨2, Scope.global⟩]).run
    (start fun _ => Broker.fresh) bridged).injected 2 =
      [(1, ⟨bytes "hello", bytes "a", 0, .v3, []⟩)] := by decide

end History

end OctopusMq
