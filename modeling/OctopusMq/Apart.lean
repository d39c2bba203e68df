import OctopusMq.Routines
import OctopusMq.Library.Ownership

set_option autoImplicit false

/- What the threads leave alone: a view that no call into a broker shows is none of
its thread's, and one that no step of a drain shows is none of the control thread's. -/
namespace OctopusMq

open Imperative Concurrent Transition

variable {Opts Property : Type}

namespace Routine

section Handler

variable {ρ : Type} {view : History Property → ρ} {adapter : SettingsPtr} {con : Connection}
  {next : Routine Property}

/-- No part of a handler of the adapter that pushes nothing changes the view. -/
def Calm (view : History Property → ρ) (adapter : SettingsPtr) : Prop :=
  ∀ handler : Broker → Broker.Result Property,
    (∀ broker, Broker.pushes (handler broker).effects = []) → ∀ self : History Property,
      view (self.record (System.call adapter handler self.system)) = view self

/-- No call into the broker of the adapter changes the view. -/
def Outside (view : History Property → ρ) (adapter : SettingsPtr) : Prop :=
  ∀ (handler : Broker → Broker.Result Property) (self : History Property),
    view (self.record (System.call adapter handler self.system)) = view self

theorem Outside.calm (outside : Outside view adapter) : Calm view adapter :=
  fun handler _ => outside handler

theorem keeps_print (keeps : next.Keeps view) : (print next).Keeps view := keeps

theorem keeps_call {handler : Broker → Broker.Result Property}
    {later : System.Result Property → Routine Property}
    (leaves : ∀ self : History Property,
      view (self.record (System.call adapter handler self.system)) = view self)
    (keeps : ∀ outcome, (later outcome).Keeps view) : (call adapter handler later).Keeps view :=
  fun self => ⟨leaves self, keeps _⟩

theorem keeps_deliverEach {body : Subscription → Broker → Broker.Result Property}
    {failed : Fault → Routine Property}
    (leaves : ∀ sub (self : History Property),
      view (self.record (System.call adapter (body sub) self.system)) = view self)
    (fails : ∀ fault, (failed fault).Keeps view) (keeps : next.Keeps view)
    (subs : List Subscription) : (deliverEach adapter body failed next subs).Keeps view := by
  induction subs with
  | nil => exact keeps
  | cons sub rest ih =>
      apply keeps_call (leaves sub)
      intro outcome
      cases outcome.fault with
      | some fault => exact fails fault
      | none =>
          cases outcome.effects with
          | nil => exact ih
          | cons effect effects => exact ih

theorem keeps_deliverAll {body : Subscription → Broker → Broker.Result Property}
    {failed : Fault → Routine Property}
    (leaves : ∀ sub (self : History Property),
      view (self.record (System.call adapter (body sub) self.system)) = view self)
    (fails : ∀ fault, (failed fault).Keeps view) (keeps : next.Keeps view) :
    (deliverAll adapter body failed next).Keeps view := by
  refine fun self => ⟨rfl, ?_⟩
  apply keeps_deliverEach leaves
  · exact fun fault => fails fault
  · exact keeps

theorem pushes_deliver (connected : Connection → Bool) (topicName : Text)
    (packet : Subscription → Option (Packet Property)) (sub : Subscription) (broker : Broker) :
    Broker.pushes (Broker.deliver connected topicName packet sub broker).effects = [] := by
  rw [(Broker.deliver_uniform connected topicName packet).effects_eq]
  unfold Broker.deliveryEffects
  cases Broker.delivery topicName packet sub with
  | none => rfl
  | some sent => rfl

theorem Calm.keeps_change (calm : Calm view adapter) {update : Broker → Broker}
    (keeps : next.Keeps view) : (change adapter update next).Keeps view :=
  keeps_call (calm _ fun _ => rfl) fun _ => keeps

theorem Calm.keeps_printEvent (calm : Calm view adapter) (keeps : next.Keeps view) :
    (printEvent adapter con next).Keeps view := calm.keeps_change keeps

theorem Calm.keeps_answer (calm : Calm view adapter) (packet : Packet Property) :
    (send adapter con packet (printEvent adapter con finish)).Keeps view :=
  keeps_call (calm _ fun _ => rfl) fun _ => calm.keeps_printEvent trivial

theorem Calm.keeps_closeConnection (calm : Calm view adapter) :
    (closeConnection adapter con : Routine Property).Keeps view :=
  calm.keeps_change (calm.keeps_change trivial)

theorem Calm.keeps_deliver (calm : Calm view adapter) (connected : Connection → Bool)
    (topicName : Text) (packet : Subscription → Option (Packet Property))
    {failed : Fault → Routine Property} (fails : ∀ fault, (failed fault).Keeps view)
    (keeps : next.Keeps view) :
    (deliverAll adapter (Broker.deliver connected topicName packet) failed next).Keeps view := by
  apply keeps_deliverAll
  · exact fun sub => calm _ (pushes_deliver connected topicName packet sub)
  · exact fails
  · exact keeps

theorem Calm.keeps_subscribeEach (calm : Calm view adapter) {Code : Type}
    {subscription : Text → SubscribeOptions → Subscription} {granted : Qos → Code}
    {refused : Code} {answer : List Code → Routine Property}
    (keeps : ∀ codes, (answer codes).Keeps view) (entries : List (Text × SubscribeOptions))
    (codes : List Code) :
    (subscribeEach adapter subscription granted refused answer entries codes).Keeps view := by
  induction entries generalizing codes with
  | nil => exact keeps codes
  | cons entry rest ih =>
      unfold subscribeEach
      cases Scope.validTopicFilter entry.1 with
      | error fault => trivial
      | ok valid =>
          cases valid with
          | true => exact calm.keeps_change (ih _)
          | false => exact ih _

theorem Calm.keeps_subscribe (calm : Calm view adapter) {Code : Type}
    {subscription : Text → SubscribeOptions → Subscription} {granted : Qos → Code}
    {refused : Code} {suback : List Code → Packet Property}
    (entries : List (Text × SubscribeOptions)) :
    (subscribe adapter subscription granted refused suback con entries).Keeps view :=
  calm.keeps_printEvent
    (calm.keeps_subscribeEach (fun codes => calm.keeps_answer (suback codes)) entries [])

/-- The handler of an event that shares nothing leaves a calm view alone. -/
theorem Calm.keeps_handler (calm : Calm view adapter) (lib : OptionsApi Opts)
    (event : Event Opts Property) (shares : Broker.shared lib event = none) :
    (handler lib adapter event).Keeps view := by
  cases event with
  | accept con remote =>
      have quiet : ∀ broker,
          Broker.pushes (Broker.acceptHandler con remote broker : Broker.Result Property).effects =
            [] := by
        intro broker
        cases remote with
        | none => rfl
        | some address => rfl
      exact fun self => ⟨calm _ quiet self, trivial⟩
  | close con => exact keeps_print calm.keeps_closeConnection
  | error con =>
      refine fun self => ⟨rfl, ?_⟩
      by_cases registered : con ∈ (self.system.brokers adapter).connections
      · simp only [registered, ↓reduceIte]
        exact calm.keeps_printEvent calm.keeps_closeConnection
      · simp only [registered, ↓reduceIte]
        trivial
  | pingreq con => exact calm.keeps_printEvent (calm.keeps_answer .pingresp)
  | connect version con clientId =>
      exact calm.keeps_change (calm.keeps_printEvent (calm.keeps_answer (.connack version)))
  | disconnect version con => exact calm.keeps_printEvent calm.keeps_closeConnection
  | ack version packet con => exact calm.keeps_printEvent trivial
  | publish con connected pubopts topicName contents => cases shares
  | v5Publish con connected pubopts topicName contents props => cases shares
  | subscribe version con packetId entries =>
      cases version with
      | v3 => exact calm.keeps_subscribe entries
      | v5 => exact calm.keeps_subscribe entries
  | unsubscribe version con packetId topics =>
      exact calm.keeps_printEvent (calm.keeps_change (calm.keeps_answer (.unsuback packetId)))
  | injectPublish connected message =>
      exact calm.keeps_deliver connected message.topic _ (fun _ => trivial) trivial

/-- A publish handler leaves alone what no call into its broker shows. -/
theorem Outside.keeps_publish (outside : Outside view adapter) (connected : Connection → Bool)
    (topicName : Text) (packet : Subscription → Option (Packet Property))
    {share : Broker → Broker.Result Property} :
    (publish adapter con (Broker.deliver connected topicName packet) share).Keeps view := by
  apply outside.calm.keeps_printEvent
  apply outside.calm.keeps_deliver
  · exact fun _ => trivial
  · exact fun self => ⟨outside share self, trivial⟩

theorem Outside.keeps_handler (outside : Outside view adapter) (lib : OptionsApi Opts)
    (event : Event Opts Property) : (handler lib adapter event).Keeps view := by
  cases event with
  | publish con connected pubopts topicName contents => exact outside.keeps_publish _ _ _
  | v5Publish con connected pubopts topicName contents props => exact outside.keeps_publish _ _ _
  | accept con remote => exact outside.calm.keeps_handler lib (.accept con remote) rfl
  | close con => exact outside.calm.keeps_handler lib (.close con) rfl
  | error con => exact outside.calm.keeps_handler lib (.error con) rfl
  | pingreq con => exact outside.calm.keeps_handler lib (.pingreq con) rfl
  | connect version con clientId =>
      exact outside.calm.keeps_handler lib (.connect version con clientId) rfl
  | disconnect version con => exact outside.calm.keeps_handler lib (.disconnect version con) rfl
  | ack version packet con => exact outside.calm.keeps_handler lib (.ack version packet con) rfl
  | subscribe version con packetId entries =>
      exact outside.calm.keeps_handler lib (.subscribe version con packetId entries) rfl
  | unsubscribe version con packetId topics =>
      exact outside.calm.keeps_handler lib (.unsubscribe version con packetId topics) rfl
  | injectPublish connected message =>
      exact outside.calm.keeps_handler lib (.injectPublish connected message) rfl

end Handler

section Drain

variable {ρ : Type} {view : History Property → ρ}

/-- No step of a drain changes the view. -/
structure Undrained (lib : OptionsApi Opts) (view : History Property → ρ) : Prop where
  leaveLoop : ∀ self : History Property, view self.leaveLoop = view self
  inject : ∀ (self : History Property) adapter item,
    view (self.record (.emit self.system (.inject adapter item))) = view self
  pop : ∀ self : History Property, view (self.record (System.pop self.system)) = view self
  deliver : ∀ adapter connected message sub (self : History Property),
    view (self.record (System.call adapter (Broker.deliver connected message.topic
      (Broker.injectedDelivery lib message) sub) self.system)) = view self

variable {lib : OptionsApi Opts}

theorem Undrained.keeps_leave (undrained : Undrained lib view) (fault : Fault) :
    (leave fault : Routine Property).Keeps view :=
  fun self => ⟨undrained.leaveLoop self, trivial⟩

theorem Undrained.keeps_injectEach (undrained : Undrained lib view)
    (connected : SettingsPtr → Connection → Bool) (item : AdapterMessagePair Property)
    {next : Routine Property} (keeps : next.Keeps view) (pool : List Adapter) :
    (injectEach lib connected item next pool).Keeps view := by
  induction pool with
  | nil => exact keeps
  | cons adapter rest ih =>
      rcases injectEach_cases lib connected item next adapter rest with
        ⟨_, skipped⟩ | ⟨fault, _, left⟩ | ⟨_, called⟩
      · rw [skipped]
        exact ih
      · rw [left]
        exact undrained.keeps_leave fault
      · rw [called]
        refine fun self => ⟨undrained.inject self adapter.settings item, ?_⟩
        apply keeps_deliverAll
        · exact undrained.deliver adapter.settings _ item.2
        · exact undrained.keeps_leave
        · exact ih

theorem Undrained.keeps_popAll (undrained : Undrained lib view) (pool : List Adapter)
    (rounds : Nat) (connected : Nat → SettingsPtr → Connection → Bool) :
    (popAll lib pool rounds connected : Routine Property).Keeps view := by
  induction rounds generalizing connected with
  | zero =>
      refine fun self => ⟨rfl, ?_⟩
      cases front : self.system.queue with
      | nil =>
          simp only [front]
          trivial
      | cons item rest =>
          simp only [front]
          exact undrained.keeps_leave .unfinished
  | succ rounds ih =>
      refine fun self => ⟨rfl, ?_⟩
      cases front : self.system.queue with
      | nil =>
          simp only [front]
          trivial
      | cons item rest =>
          simp only [front]
          apply undrained.keeps_injectEach
          exact fun later => ⟨undrained.pop later, ih _⟩

theorem keeps_waitFor {next : Routine Property} (keeps : next.Keeps view) (wakeups : Nat) :
    (waitFor next wakeups).Keeps view := by
  induction wakeups with
  | zero => exact keeps
  | succ wakeups ih =>
      refine fun self => ⟨rfl, ?_⟩
      cases front : self.system.queue with
      | nil =>
          simp only [front]
          exact ih
      | cons item rest =>
          simp only [front]
          exact keeps

/-- A drain leaves alone what none of its steps shows. -/
theorem Undrained.keeps_drain (undrained : Undrained lib view) (pool : List Adapter)
    (wakeups : Nat) (connected : Nat → SettingsPtr → Connection → Bool) :
    (drain lib pool wakeups connected : Routine Property).Keeps view := by
  apply keeps_waitFor
  exact fun self => ⟨rfl, undrained.keeps_popAll pool _ connected⟩

end Drain

end Routine

/-- What the broker of an adapter shows alone is left alone by every thread but its own. -/
theorem Turn.keeps_routine {ρ : Type} {view : History Property → ρ} {lib : OptionsApi Opts}
    {mine : SettingsPtr} (outside : ∀ adapter, adapter ≠ mine → Routine.Outside view adapter)
    (undrained : Routine.Undrained lib view) (pool : List Adapter) (wakeups : Nat)
    (turn : Turn Opts Property) (apart : turn.thread ≠ .broker mine) :
    (turn.routine lib pool wakeups).Keeps view := by
  cases turn with
  | client adapter event =>
      have calm := outside adapter fun same => apart (congrArg Thread.broker same)
      exact calm.keeps_handler lib event
  | drain connected => exact undrained.keeps_drain pool wakeups connected

/-- The event a turn brings to a broker. -/
def Turn.event : Turn Opts Property → Option (Event Opts Property)
  | .client _ event => some event
  | .drain _ => none

/-- The events the thread of a broker has been given. -/
def given (adapter : SettingsPtr) (labels : List (Label Thread (Task Opts Property))) :
    List (Event Opts Property) :=
  (labels.filterMap (Label.taskOf (.broker adapter))).filterMap fun task => task.1.event

/-- An event that comes to a broker is among those it is given. -/
theorem mem_given_of_start {dest : SettingsPtr} {task : Task Opts Property}
    {labels : List (Label Thread (Task Opts Property))}
    (member : .start (.broker dest) task ∈ labels) :
    ∀ event ∈ task.1.event, event ∈ given dest labels := by
  intro event found
  apply List.mem_filterMap.mpr
  refine ⟨task, ?_, found⟩
  exact List.mem_filterMap.mpr ⟨_, member, if_pos rfl⟩

theorem given_append (adapter : SettingsPtr)
    (first second : List (Label Thread (Task Opts Property))) :
    given adapter (first ++ second) = given adapter first ++ given adapter second := by
  unfold given
  rw [List.filterMap_append, List.filterMap_append]

/-- What the tasks of a broker amount to is what their events amount to. -/
theorem foldl_given {α : Type} (after : α → Event Opts Property → α)
    (tasks : List (Task Opts Property)) (start : α) :
    tasks.foldl (fun now task => task.1.event.elim now (after now)) start =
      (tasks.filterMap fun task => task.1.event).foldl after start := by
  induction tasks generalizing start with
  | nil => rfl
  | cons task rest ih =>
      rw [List.foldl_cons, ih, List.filterMap_cons]
      cases task.1.event with
      | none => rfl
      | some event => rfl

end OctopusMq
