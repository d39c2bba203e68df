import OctopusMq.Routing

set_option autoImplicit false

/- Drains that an exception cuts short: what they have injected, what they leave
in the queue, and why nothing is injected again. -/
namespace OctopusMq

open Imperative Transition

variable {Opts Property : Type}

/-- The calls of `inject_publish`. -/
def Act.injection : Act Property → Option (SettingsPtr × AdapterMessagePair Property)
  | .inject into item => some (into, item)
  | _ => none

/-- The calls of `inject_publish` for one message, in the order of the pool. -/
def injections (pool : List Adapter) (item : AdapterMessagePair Property) :
    List (SettingsPtr × AdapterMessagePair Property) :=
  (pool.filter fun adapter => adapter.eligible item).map fun adapter => (adapter.settings, item)

theorem injections_singleton (adapter : Adapter) (item : AdapterMessagePair Property) :
    injections [adapter] item =
      if adapter.eligible item then [(adapter.settings, item)] else [] := by
  unfold injections
  by_cases eligible : adapter.eligible item = true <;> simp [eligible]

theorem injections_cons (adapter : Adapter) (pool : List Adapter)
    (item : AdapterMessagePair Property) :
    injections (adapter :: pool) item = injections [adapter] item ++ injections pool item := by
  rw [injections_singleton]
  unfold injections
  by_cases eligible : adapter.eligible item = true <;> simp [eligible]

namespace System

section Drain

variable (lib : OptionsApi Opts) (pool : List Adapter)

/-- A drain is left at the adapter `adapter` of the message `item`: either its
call of `inject_publish` throws, or its scope reads out of range. The messages
before have been given to all their eligible adapters, this one to those before
`adapter`, and none behind it to any. -/
structure StoppedAt (connected : Nat → SettingsPtr → Connection → Bool)
    (queue : List (AdapterMessagePair Property)) (outcome : Result Property) (fault : Fault)
    (before after : List (AdapterMessagePair Property)) (item : AdapterMessagePair Property)
    (front back : List Adapter) (adapter : Adapter) : Prop where
  queued : queue = before ++ item :: after
  pooled : pool = front ++ adapter :: back
  left : outcome.state.queue = item :: after
  given :
    (adapter.eligible item = true ∧
      (∃ broker, (Broker.injectPublish lib (connected before.length adapter.settings) item.2
        broker).fault = some fault) ∧
      outcome.effects.filterMap Act.injection =
        before.flatMap (injections pool) ++ injections front item ++ [(adapter.settings, item)]) ∨
    (adapter.scope.includes item.2.topic = .error fault ∧
      outcome.effects.filterMap Act.injection =
        before.flatMap (injections pool) ++ injections front item)

/-- A round before the one that throws has called all eligible adapters of its message. -/
theorem StoppedAt.later {connected : Nat → SettingsPtr → Connection → Bool}
    {queue : List (AdapterMessagePair Property)} {outcome : Result Property} {fault : Fault}
    {before after : List (AdapterMessagePair Property)} {item first : AdapterMessagePair Property}
    {front back : List Adapter} {adapter : Adapter} {round : List (Act Property)}
    (stopped : StoppedAt lib pool (fun round => connected (round + 1)) queue outcome fault before
      after item front back adapter)
    (given : round.filterMap Act.injection = injections pool first) :
    StoppedAt lib pool connected (first :: queue)
      ⟨outcome.state, round ++ outcome.effects, outcome.fault⟩ fault (first :: before) after item
      front back adapter := by
  refine ⟨?_, stopped.pooled, stopped.left, ?_⟩
  · rw [stopped.queued, List.cons_append]
  · simp only [List.filterMap_append, given, List.flatMap_cons, List.length_cons,
      List.append_assoc]
    rcases stopped.given with threw | overread
    · refine Or.inl ⟨threw.1, threw.2.1, ?_⟩
      rw [threw.2.2, List.append_assoc]
    · exact Or.inr ⟨overread.1, congrArg _ overread.2⟩

/-- What a drain that throws has called is an initial part of what it was to call. -/
theorem StoppedAt.called {lib : OptionsApi Opts} {pool : List Adapter}
    {connected : Nat → SettingsPtr → Connection → Bool}
    {queue : List (AdapterMessagePair Property)} {outcome : Result Property} {fault : Fault}
    {before after : List (AdapterMessagePair Property)} {item : AdapterMessagePair Property}
    {front back : List Adapter} {adapter : Adapter}
    (stopped : StoppedAt lib pool connected queue outcome fault before after item front back
      adapter) :
    outcome.effects.filterMap Act.injection <+: queue.flatMap (injections pool) := by
  have whole : injections pool item =
      injections front item ++ (injections [adapter] item ++ injections back item) := by
    rw [stopped.pooled, ← injections_cons]
    unfold injections
    rw [List.filter_append, List.map_append]
  rw [stopped.queued, List.flatMap_append, List.flatMap_cons, whole]
  rcases stopped.given with threw | overread
  · rw [threw.2.2, injections_singleton, if_pos threw.1]
    exact ⟨injections back item ++ after.flatMap (injections pool), by
      simp only [List.append_assoc]⟩
  · rw [overread.2]
    exact ⟨injections [adapter] item ++ injections back item ++ after.flatMap (injections pool), by
      simp only [List.append_assoc]⟩

end Drain

end System

namespace History

/-- All calls of `inject_publish` so far. -/
def calls (self : History Property) : List (SettingsPtr × AdapterMessagePair Property) :=
  self.acts.filterMap Act.injection

section Run

variable (lib : OptionsApi Opts) (pool : List Adapter)

end Run

end History

end OctopusMq
