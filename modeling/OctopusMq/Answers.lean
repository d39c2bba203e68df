import OctopusMq.Apart
import OctopusMq.Conversation

set_option autoImplicit false

/- The answers to the requests of the clients, whatever the threads interleave: one
for each request, in the order of the requests. -/
namespace OctopusMq

open Imperative Concurrent Transition

variable {Opts Property : Type}

/-- A packet that answers a request: any but a PUBLISH. -/
def Packet.isAnswer (self : Packet Property) : Bool := !self.isPublish

/-- The answer to the request of an event. -/
def Event.answer : Event Opts Property → Option (Connection × Packet Property)
  | .pingreq con => some (con, .pingresp)
  | .connect version con _ => some (con, .connack version)
  | .subscribe .v3 con packetId entries =>
      some (con, .suback packetId
        (entries.map (Broker.entryCode SubackReturnCode.successMaximumQos .failure)))
  | .subscribe .v5 con packetId entries =>
      some (con, .v5Suback packetId
        (entries.map (Broker.entryCode SubackReasonCode.grantedQos .topicFilterInvalid)))
  | .unsubscribe _ con packetId _ => some (con, .unsuback packetId)
  | _ => none

/-- A packet of a kind that the broker of an adapter sends. -/
def Act.sentBy (kind : Packet Property → Bool) (adapter : SettingsPtr) :
    Act Property → Option (Connection × Packet Property)
  | .send via con packet => if via = adapter ∧ kind packet then some (con, packet) else none
  | _ => none

/-- All packets of a kind that the broker of an adapter has sent. -/
def History.sentBy (kind : Packet Property → Bool) (adapter : SettingsPtr)
    (self : History Property) : List (Connection × Packet Property) :=
  self.acts.filterMap (Act.sentBy kind adapter)

/-- All answers of the broker of an adapter so far. -/
def History.answers (adapter : SettingsPtr) (self : History Property) :
    List (Connection × Packet Property) := self.sentBy Packet.isAnswer adapter

/-- The packets of a kind that a part of a handler sends. -/
def Broker.sendsOf (kind : Packet Property → Bool) (effects : List (Effect Property)) :
    List (Connection × Packet Property) := (sends effects).filter fun sent => kind sent.2

/-- The answers a part of a handler sends. -/
def Broker.answers (effects : List (Effect Property)) : List (Connection × Packet Property) :=
  sendsOf Packet.isAnswer effects

namespace History

theorem sentBy_record (kind : Packet Property → Bool) (adapter : SettingsPtr)
    (self : History Property) (outcome : System.Result Property) :
    (self.record outcome).sentBy kind adapter =
      self.sentBy kind adapter ++ outcome.effects.filterMap (Act.sentBy kind adapter) :=
  List.filterMap_append

theorem sentBy_call (kind : Packet Property → Bool) (adapter : SettingsPtr)
    (handler : Broker → Broker.Result Property) (self : History Property) :
    (self.record (System.call adapter handler self.system)).sentBy kind adapter =
      self.sentBy kind adapter ++
        Broker.sendsOf kind (handler (self.system.brokers adapter)).effects := by
  rw [sentBy_record]
  congr 1
  show (List.map (Act.ofEffect adapter) _).filterMap _ = _
  unfold Broker.sendsOf Broker.sends
  rw [List.filterMap_map, List.filter_filterMap]
  apply List.filterMap_congr
  intro effect _
  cases effect with
  | push message => rfl
  | send con packet => simp [Act.ofEffect, Act.sentBy, Effect.sent, Option.filter]

/-- The broker of another adapter does not send it. -/
theorem sentBy_call_of_ne (kind : Packet Property → Bool) {mine adapter : SettingsPtr}
    (apart : adapter ≠ mine) (handler : Broker → Broker.Result Property)
    (self : History Property) :
    (self.record (System.call adapter handler self.system)).sentBy kind mine =
      self.sentBy kind mine := by
  rw [sentBy_record]
  show _ ++ (List.map (Act.ofEffect adapter) _).filterMap _ = _
  rw [List.filterMap_map, List.filterMap_eq_nil_iff.mpr, List.append_nil]
  intro effect _
  cases effect with
  | push message => rfl
  | send con packet => simp [Act.ofEffect, Act.sentBy, apart]

theorem answers_record (adapter : SettingsPtr) (self : History Property)
    (outcome : System.Result Property) :
    (self.record outcome).answers adapter =
      self.answers adapter ++ outcome.effects.filterMap (Act.sentBy Packet.isAnswer adapter) :=
  sentBy_record _ adapter self outcome

theorem answers_call (adapter : SettingsPtr) (handler : Broker → Broker.Result Property)
    (self : History Property) :
    (self.record (System.call adapter handler self.system)).answers adapter =
      self.answers adapter ++ Broker.answers (handler (self.system.brokers adapter)).effects :=
  sentBy_call _ adapter handler self

/-- The broker of another adapter does not answer. -/
theorem answers_call_of_ne {mine adapter : SettingsPtr} (apart : adapter ≠ mine)
    (handler : Broker → Broker.Result Property) (self : History Property) :
    (self.record (System.call adapter handler self.system)).answers mine = self.answers mine :=
  sentBy_call_of_ne _ apart handler self

end History

namespace Broker

/-- A delivery is no answer. -/
theorem answers_deliver {packet : Subscription → Option (Packet Property)}
    (publishes : ∀ sub, ∀ chosen ∈ packet sub, chosen.isPublish = true)
    (connected : Connection → Bool) (topicName : Text) (sub : Subscription) (self : Broker) :
    answers (deliver connected topicName packet sub self).effects = [] := by
  rw [(deliver_uniform connected topicName packet).effects_eq]
  unfold answers sendsOf deliveryEffects
  cases sending : delivery topicName packet sub with
  | none => rfl
  | some sent =>
      have chosen := ((delivery_eq_some_iff topicName packet sub sent).mp sending).2.2
      show List.filter _ [(sent.1, sent.2)] = []
      rw [List.filter_cons_of_neg]
      · rfl
      · simp [Packet.isAnswer, publishes sub sent.2 chosen]

theorem v3Delivery_publishes (lib : OptionsApi Opts) (pubopts : Opts) (topicName contents : Text)
    (sub : Subscription) :
    ∀ chosen ∈ (v3Delivery lib pubopts topicName contents sub : Option (Packet Property)),
      chosen.isPublish = true := by
  intro chosen found
  cases found
  rfl

theorem v5Delivery_publishes (lib : OptionsApi Opts) (con : Connection) (pubopts : Opts)
    (topicName contents : Text) (props : List Property) (sub : Subscription) :
    ∀ chosen ∈ v5Delivery lib con pubopts topicName contents props sub,
      chosen.isPublish = true := by
  intro chosen found
  unfold v5Delivery at found
  split at found
  · cases found
  · cases found
    rfl

theorem injectedDelivery_publishes (lib : OptionsApi Opts) (message : Message Property)
    (sub : Subscription) :
    ∀ chosen ∈ injectedDelivery lib message sub, chosen.isPublish = true := by
  intro chosen found
  unfold injectedDelivery at found
  cases version : message.mqttVersion with
  | v3 =>
      simp only [version] at found
      cases found
      rfl
  | v5 =>
      simp only [version] at found
      cases found
      rfl

end Broker

namespace Routine

/-- The control thread answers nothing. -/
theorem undrained_answers (lib : OptionsApi Opts) (mine : SettingsPtr) :
    Undrained lib (History.answers mine : History Property → _) := by
  refine ⟨fun _ => rfl, ?_, ?_, ?_⟩
  · intro self adapter item
    rw [History.answers_record]
    exact List.append_nil _
  · intro self
    rw [History.answers_record]
    exact List.append_nil _
  · intro adapter connected message sub self
    by_cases same : adapter = mine
    · rw [same, History.answers_call,
        Broker.answers_deliver (Broker.injectedDelivery_publishes lib message), List.append_nil]
    · exact History.answers_call_of_ne same _ self

section Adds

variable {adapter : SettingsPtr} {con : Connection} {next : Routine Property}
  {owed : List (Connection × Packet Property)}

theorem adds_quiet {handler : Broker → Broker.Result Property}
    {later : System.Result Property → Routine Property}
    (quiet : ∀ broker, Broker.answers (handler broker).effects = [])
    (adds : ∀ outcome, (later outcome).Adds (History.answers adapter) owed) :
    (call adapter handler later).Adds (History.answers adapter) owed := by
  refine Program.Adds.pass ?_ fun _ => adds _
  intro self
  rw [History.answers_call, quiet, List.append_nil]

theorem adds_change {update : Broker → Broker} (adds : next.Adds (History.answers adapter) owed) :
    (change adapter update next).Adds (History.answers adapter) owed :=
  adds_quiet (fun _ => rfl) fun _ => adds

theorem adds_printEvent (adds : next.Adds (History.answers adapter) owed) :
    (printEvent adapter con next).Adds (History.answers adapter) owed := adds_change adds

theorem adds_answer (packet : Packet Property) (answer : packet.isAnswer = true) :
    (send adapter con packet (printEvent adapter con finish)).Adds (History.answers adapter)
      [(con, packet)] := by
  refine @Program.Adds.perform _ _ _ _ _ _ _ [(con, packet)] [] ?_ fun _ => adds_printEvent rfl
  intro self
  rw [History.answers_call]
  show _ ++ List.filter (fun sent => Packet.isAnswer sent.2) [(con, packet)] = _
  simp [answer]

theorem adds_closeConnection :
    (closeConnection adapter con : Routine Property).Adds (History.answers adapter) [] :=
  adds_change (adds_change rfl)

theorem adds_deliverEach {body : Subscription → Broker → Broker.Result Property}
    (quiet : ∀ sub broker, Broker.answers (body sub broker).effects = [])
    {failed : Fault → Routine Property}
    (fails : ∀ fault, (failed fault).Adds (History.answers adapter) owed)
    (adds : next.Adds (History.answers adapter) owed) (subs : List Subscription) :
    (deliverEach adapter body failed next subs).Adds (History.answers adapter) owed := by
  induction subs with
  | nil => exact adds
  | cons sub rest ih =>
      apply adds_quiet (quiet sub)
      intro outcome
      cases outcome.fault with
      | some fault => exact fails fault
      | none =>
          cases outcome.effects with
          | nil => exact ih
          | cons effect effects => exact ih

theorem adds_deliverAll {body : Subscription → Broker → Broker.Result Property}
    (quiet : ∀ sub broker, Broker.answers (body sub broker).effects = [])
    {failed : Fault → Routine Property}
    (fails : ∀ fault, (failed fault).Adds (History.answers adapter) owed)
    (adds : next.Adds (History.answers adapter) owed) :
    (deliverAll adapter body failed next).Adds (History.answers adapter) owed := by
  refine Program.Adds.pass (fun _ => rfl) fun self => ?_
  apply adds_deliverEach quiet
  · exact fun fault => fails fault
  · exact adds

theorem adds_publish {body : Subscription → Broker → Broker.Result Property}
    (quiet : ∀ sub broker, Broker.answers (body sub broker).effects = [])
    (message : Message Property) :
    (publish adapter con body fun broker => .emit broker (.push message)).Adds
      (History.answers adapter) [] := by
  apply adds_printEvent
  apply adds_deliverAll quiet
  · exact fun _ => rfl
  · show (call adapter (fun broker => .emit broker (.push message))
      fun _ => .release .queue finish).Adds _ []
    apply adds_quiet
    · exact fun _ => rfl
    · exact fun _ => rfl

/-- The loop owes one code for each entry that is left. -/
theorem adds_subscribeEach {Code : Type} {subscription : Text → SubscribeOptions → Subscription}
    {granted : Qos → Code} {refused : Code} {answer : List Code → Routine Property}
    {packet : List Code → Packet Property}
    (adds : ∀ codes, (answer codes).Adds (History.answers adapter) [(con, packet codes)])
    (entries : List (Text × SubscribeOptions)) (codes : List Code) :
    (subscribeEach adapter subscription granted refused answer entries codes).Adds
      (History.answers adapter)
      [(con, packet (codes ++ entries.map (Broker.entryCode granted refused)))] := by
  induction entries generalizing codes with
  | nil =>
      rw [List.map_nil, List.append_nil]
      exact adds codes
  | cons entry rest ih =>
      have later := fun code => ih (codes ++ [code])
      simp only [List.append_assoc, List.singleton_append] at later
      unfold subscribeEach
      rw [Scope.validTopicFilter_eq, List.map_cons]
      by_cases good : Scope.Accepted entry.1
      · simp only [good, decide_true, Broker.entryCode, ↓reduceIte]
        exact adds_change (later _)
      · simp only [good, decide_false, Broker.entryCode, ↓reduceIte]
        exact later _

theorem adds_subscribe {Code : Type} {subscription : Text → SubscribeOptions → Subscription}
    {granted : Qos → Code} {refused : Code} {suback : List Code → Packet Property}
    (answers : ∀ codes, (suback codes).isAnswer = true)
    (entries : List (Text × SubscribeOptions)) :
    (subscribe adapter subscription granted refused suback con entries).Adds
      (History.answers adapter)
      [(con, suback (entries.map (Broker.entryCode granted refused)))] :=
  adds_printEvent (adds_subscribeEach (fun codes => adds_answer (suback codes) (answers codes))
    entries [])

/-- One case for each event: its handler owes its answer and no other. -/
theorem adds_handler (lib : OptionsApi Opts) (adapter : SettingsPtr)
    (event : Event Opts Property) :
    (handler lib adapter event).Adds (History.answers adapter) event.answer.toList := by
  cases event with
  | accept con remote =>
      show (call adapter (Broker.acceptHandler con remote)
        fun outcome => .done outcome.fault).Adds _ []
      apply adds_quiet
      · intro broker
        cases remote with
        | none => rfl
        | some address => rfl
      · exact fun _ => rfl
  | close con => exact adds_closeConnection
  | error con =>
      refine Program.Adds.pass (fun _ => rfl) fun self => ?_
      by_cases registered : con ∈ (self.system.brokers adapter).connections
      · simp only [registered, ↓reduceIte]
        exact adds_printEvent adds_closeConnection
      · simp only [registered, ↓reduceIte]
        rfl
  | pingreq con => exact adds_printEvent (adds_answer .pingresp rfl)
  | connect version con clientId =>
      exact adds_change (adds_printEvent (adds_answer (.connack version) rfl))
  | disconnect version con => exact adds_printEvent adds_closeConnection
  | ack version packet con => exact adds_printEvent rfl
  | publish con connected pubopts topicName contents =>
      exact adds_publish (Broker.answers_deliver
        (Broker.v3Delivery_publishes lib pubopts topicName contents) connected topicName) _
  | v5Publish con connected pubopts topicName contents props =>
      exact adds_publish (Broker.answers_deliver
        (Broker.v5Delivery_publishes lib con pubopts topicName contents props) connected
          topicName) _
  | subscribe version con packetId entries =>
      cases version with
      | v3 => exact adds_subscribe (fun _ => rfl) entries
      | v5 => exact adds_subscribe (fun _ => rfl) entries
  | unsubscribe version con packetId topics =>
      exact adds_printEvent (adds_change (adds_answer (.unsuback packetId) rfl))
  | injectPublish connected message =>
      apply adds_deliverAll (Broker.answers_deliver
        (Broker.injectedDelivery_publishes lib message) connected message.topic)
      · exact fun _ => rfl
      · rfl

end Adds

end Routine

/-- The answers to the requests the thread of a broker has been given. -/
def requests (adapter : SettingsPtr) (labels : List (Label Thread (Task Opts Property))) :
    List (Connection × Packet Property) := (given adapter labels).filterMap Event.answer

theorem foldl_answer (events : List (Event Opts Property))
    (answers : List (Connection × Packet Property)) :
    events.foldl (fun answers event => answers ++ event.answer.toList) answers =
      answers ++ events.filterMap Event.answer := by
  induction events generalizing answers with
  | nil => exact (List.append_nil _).symm
  | cons event rest ih =>
      rw [List.foldl_cons, ih, List.filterMap_cons, List.append_assoc]
      cases event.answer with
      | none => rfl
      | some answer => rfl

/-- From wherever the answers of a broker are told, a run adds those to the requests
of its thread, and the answers told before stay where they are. -/
theorem owned_answers (lib : OptionsApi Opts) (pool : List Adapter) (adapter : SettingsPtr)
    {base final : List (Connection × Packet Property)}
    {early : Threads Thread (History Property) Mutex Fault}
    (owned : Threads.Owned (Promise.adds (History.answers adapter) base 1) (.broker adapter) early
      final)
    (labels : List (Label Thread (Task Opts Property)))
    (admitted : (threads lib pool).Admits early labels) :
    Threads.Owned (Promise.adds (History.answers adapter) base 1) (.broker adapter)
      ((threads lib pool).run early labels) (final ++ requests adapter labels) := by
  have later := owned.run
    (fun answers (task : Task Opts Property) => task.1.event.elim answers fun event =>
      answers ++ event.answer.toList)
    ?begins (fun shared other task permitted apart => ?leaves) labels admitted
  case begins =>
    intro shared task permitted fault final owes
    obtain ⟨old, owed, adds, all, _⟩ := owes
    rw [show owed = [] from adds, List.append_nil] at all
    have mine := permitted.1
    show base <+: _ ∧ ∃ owed, (task.1.routine lib pool task.2).Adds _ owed ∧ _
    cases turn : task.1 with
    | client other event =>
        rw [turn] at mine
        have same : other = adapter := Thread.broker.inj mine
        rw [same]
        refine ⟨old, event.answer.toList, Routine.adds_handler lib adapter event, ?_,
          Option.length_toList_le⟩
        exact congrArg (· ++ event.answer.toList) all
    | drain connected =>
        rw [turn] at mine
        cases mine
  case leaves =>
    apply Turn.keeps_routine
    · exact fun other different handler self => History.answers_call_of_ne different handler self
    · exact Routine.undrained_answers lib adapter
    · rw [permitted.1]
      exact apart
  rw [foldl_given, foldl_answer] at later
  exact later

theorem owned_start (brokers : SettingsPtr → Broker) (adapter : SettingsPtr) :
    Threads.Owned (Promise.adds (History.answers adapter) [] 1) (.broker adapter)
      (Threads.idle (History.start brokers) : Threads Thread (History Property) Mutex Fault) [] :=
  ⟨⟨List.nil_prefix, [], rfl, rfl, Nat.zero_le 1⟩, fun _ _ => trivial⟩

/-- Over any run of the threads, each broker answers its requests one by one, in
their order, to the connection that asked: the last at most is still to be answered,
and none is when the thread is idle. -/
theorem threads_answer (lib : OptionsApi Opts) (pool : List Adapter)
    (brokers : SettingsPtr → Broker) (labels : List (Label Thread (Task Opts Property)))
    (admitted : (threads lib pool).Admits (Threads.idle (History.start brokers)) labels)
    (adapter : SettingsPtr) :
    (∃ owed, ((threads lib pool).run (Threads.idle (History.start brokers)) labels).shared.answers
        adapter ++ owed = requests adapter labels ∧ owed.length ≤ 1) ∧
    ((((threads lib pool).run (Threads.idle (History.start brokers)) labels).program
        (.broker adapter)).Finished →
      ((threads lib pool).run (Threads.idle (History.start brokers)) labels).shared.answers
        adapter = requests adapter labels) := by
  have owned := owned_answers lib pool adapter (owned_start brokers adapter) labels admitted
  rw [List.nil_append] at owned
  refine ⟨?_, owned.record_of_finished⟩
  obtain ⟨_, owed, _, all, few⟩ := owned.own
  exact ⟨owed, all, few⟩

/-- A connection has been answered its CONNECT, and not its PINGREQ yet. -/
def asking : List (Label Thread (Task UInt8 Text)) :=
  .start (.broker 1) (.client 1 (.connect .v3 1 (bytes "one")), 0) ::
    List.replicate 8 (.advance (.broker 1)) ++
    .start (.broker 1) (.client 1 (.pingreq 1), 0) :: List.replicate 2 (.advance (.broker 1))

theorem threads_answer_asking :
    (∃ owed, ((threads byteOptions [⟨1, Scope.global⟩]).run
          (Threads.idle (History.start fun _ => Broker.fresh)) asking).shared.answers 1 ++ owed =
        requests 1 asking ∧ owed.length ≤ 1) ∧
    ((((threads byteOptions [⟨1, Scope.global⟩]).run
          (Threads.idle (History.start fun _ => Broker.fresh)) asking).program
        (.broker 1)).Finished →
      ((threads byteOptions [⟨1, Scope.global⟩]).run
        (Threads.idle (History.start fun _ => Broker.fresh)) asking).shared.answers 1 =
        requests 1 asking) :=
  threads_answer byteOptions [⟨1, Scope.global⟩] (fun _ => Broker.fresh) asking (by decide) 1

end OctopusMq
