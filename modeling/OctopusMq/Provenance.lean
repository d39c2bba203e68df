import OctopusMq.InterleavedTables
import OctopusMq.Conversation

set_option autoImplicit false

/- Where the PUBLISHes come from, whatever the threads interleave: each was published
by a client, and goes out through a subscription its receiver has asked for. -/
namespace OctopusMq

open Imperative OrderedTable Concurrent Transition

variable {Opts Property : Type}

/-- A client of the broker has asked for the subscription. -/
def Asked (labels : List (Label Thread (Task Opts Property))) (adapter : SettingsPtr)
    (sub : Subscription) : Prop :=
  ∃ version con packetId entries,
    .subscribe version con packetId entries ∈ given adapter labels ∧
      ∃ entry ∈ entries, Scope.Accepted entry.1 ∧
        sub = Subscription.ofVersion version entry.1 con entry.2

/-- A client of the adapter of the item has published its message. -/
def Published (lib : OptionsApi Opts) (labels : List (Label Thread (Task Opts Property)))
    (item : AdapterMessagePair Property) : Prop :=
  ∃ event ∈ given item.1 labels, Broker.shared lib event = some item.2

/-- A message may be given out by an adapter: by its own, or by one that is eligible. -/
def MayGoTo (pool : List Adapter) (via : SettingsPtr) (item : AdapterMessagePair Property) : Prop :=
  item.1 = via ∨ eligibleAt pool via item = true

/-- What may happen: a PUBLISH goes out through a subscription that was asked for and
whose filter its topic matches, and carries a published message. -/
def Genuine (lib : OptionsApi Opts) (pool : List Adapter)
    (labels : List (Label Thread (Task Opts Property))) : Act Property → Prop
  | .send via con packet => packet.isPublish = true →
      ∃ sub item, Asked labels via sub ∧ sub.con = con ∧ Published lib labels item ∧
        MayGoTo pool via item ∧ Scope.Delivers sub.topicFilter item.2.topic ∧
        Broker.injectedDelivery lib item.2 sub = some packet
  | .push item => Published lib labels item
  | .inject into item => Published lib labels item ∧ eligibleAt pool into item = true

/-- The tables hold what was asked for, the queue holds what was published, and all
that has happened may happen. -/
structure Sound (lib : OptionsApi Opts) (pool : List Adapter)
    (labels : List (Label Thread (Task Opts Property))) (state : History Property) : Prop where
  tables : ∀ adapter, ∀ sub ∈ (state.system.brokers adapter).subs.entries, Asked labels adapter sub
  queue : ∀ item ∈ state.system.queue, Published lib labels item
  acts : ∀ act ∈ state.acts, Genuine lib pool labels act

section Steps

variable {lib : OptionsApi Opts} {pool : List Adapter}
  {labels : List (Label Thread (Task Opts Property))}

theorem sound_start (lib : OptionsApi Opts) (pool : List Adapter)
    (labels : List (Label Thread (Task Opts Property))) :
    Sound lib pool labels (History.start fun _ => Broker.fresh) :=
  ⟨fun _ _ member => (nomatch member), fun _ member => (nomatch member),
    fun _ member => (nomatch member)⟩

/-- A part of a handler keeps to what was asked for and what may happen. -/
structure Honest (lib : OptionsApi Opts) (pool : List Adapter)
    (labels : List (Label Thread (Task Opts Property))) (adapter : SettingsPtr)
    (handler : Broker → Broker.Result Property) : Prop where
  subs : ∀ broker, (∀ sub ∈ broker.subs.entries, Asked labels adapter sub) →
    ∀ sub ∈ (handler broker).state.subs.entries, Asked labels adapter sub
  effects : ∀ broker, ∀ effect ∈ (handler broker).effects,
    Genuine lib pool labels (Act.ofEffect adapter effect)

theorem Sound.call {self : History Property} (sound : Sound lib pool labels self)
    {adapter : SettingsPtr} {handler : Broker → Broker.Result Property}
    (honest : Honest lib pool labels adapter handler) :
    Sound lib pool labels (self.record (System.call adapter handler self.system)) := by
  have happened : ∀ act ∈ (System.call adapter handler self.system).effects,
      Genuine lib pool labels act := by
    intro act member
    obtain ⟨effect, inside, same⟩ := List.mem_map.mp member
    rw [← same]
    exact honest.effects _ effect inside
  refine ⟨?_, ?_, ?_⟩
  · intro other
    show ∀ sub ∈ (Function.update self.system.brokers adapter _ other).subs.entries, _
    by_cases same : other = adapter
    · rw [same, Function.update_self]
      exact honest.subs _ (sound.tables adapter)
    · rw [Function.update_of_ne same]
      exact sound.tables other
  · intro item member
    have queue := System.call_queue adapter handler self.system
    rw [show (self.record (System.call adapter handler self.system)).system.queue =
      (System.call adapter handler self.system).state.queue from rfl, queue] at member
    rcases List.mem_append.mp member with old | new
    · exact sound.queue item old
    · obtain ⟨act, inside, pushed⟩ := List.mem_filterMap.mp new
      cases act with
      | push other =>
          cases pushed
          exact happened _ inside
      | send via con packet => cases pushed
      | inject into other => cases pushed
  · intro act member
    rcases List.mem_append.mp member with old | new
    · exact sound.acts act old
    · exact happened act new

theorem Sound.inject {self : History Property} (sound : Sound lib pool labels self)
    {adapter : SettingsPtr} {item : AdapterMessagePair Property}
    (published : Published lib labels item) (eligible : eligibleAt pool adapter item = true) :
    Sound lib pool labels (self.record (.emit self.system (.inject adapter item))) := by
  refine ⟨sound.tables, sound.queue, ?_⟩
  intro act member
  rcases List.mem_append.mp member with old | new
  · exact sound.acts act old
  · rw [List.mem_singleton.mp new]
    exact ⟨published, eligible⟩

theorem Sound.pop {self : History Property} (sound : Sound lib pool labels self) :
    Sound lib pool labels (self.record (System.pop self.system)) := by
  refine ⟨sound.tables, fun item member => sound.queue item (List.mem_of_mem_tail member), ?_⟩
  intro act member
  rcases List.mem_append.mp member with old | new
  · exact sound.acts act old
  · cases new

theorem Sound.leaveLoop {self : History Property} (sound : Sound lib pool labels self) :
    Sound lib pool labels self.leaveLoop := ⟨sound.tables, sound.queue, sound.acts⟩

/-- A part that changes the table by what was asked for only, and sends nothing. -/
theorem honest_done {adapter : SettingsPtr} {update : Broker → Broker}
    (asks : ∀ broker, ∀ sub ∈ (update broker).subs.entries,
      sub ∈ broker.subs.entries ∨ Asked labels adapter sub) :
    Honest lib pool labels adapter fun broker => .done (update broker) := by
  refine ⟨?_, fun _ _ member => (nomatch member)⟩
  intro broker held sub member
  rcases asks broker sub member with old | new
  · exact held sub old
  · exact new

/-- An answer. -/
theorem honest_send {adapter : SettingsPtr} {con : Connection} {packet : Packet Property}
    (answer : packet.isPublish = false) :
    Honest lib pool labels adapter fun broker => .emit broker (.send con packet) := by
  refine ⟨fun _ held => held, ?_⟩
  intro broker effect member
  rw [List.mem_singleton.mp member]
  intro publish
  rw [answer] at publish
  cases publish

/-- A delivery of a published message through a subscription that was asked for. -/
theorem honest_deliver {adapter : SettingsPtr} {item : AdapterMessagePair Property}
    (published : Published lib labels item) (may : MayGoTo pool adapter item)
    (packet : Subscription → Option (Packet Property))
    (carries : ∀ sub, ∀ chosen ∈ packet sub, Broker.injectedDelivery lib item.2 sub = some chosen)
    (connected : Connection → Bool) {sub : Subscription} (asked : Asked labels adapter sub) :
    Honest lib pool labels adapter (Broker.deliver connected item.2.topic packet sub) := by
  refine ⟨?_, ?_⟩
  · intro broker held
    have same := congrArg Prod.snd
      (Broker.deliver_members connected item.2.topic packet sub broker)
    show ∀ other ∈
        (Broker.deliver connected item.2.topic packet sub broker).state.members.2.entries,
      Asked labels adapter other
    rw [same]
    exact held
  · intro broker effect member
    rw [(Broker.deliver_uniform connected item.2.topic packet).effects_eq] at member
    unfold Broker.deliveryEffects at member
    rw [Option.mem_toList, Option.map_eq_some_iff] at member
    obtain ⟨sent, sending, same⟩ := member
    obtain ⟨delivers, receiver, chosen⟩ :=
      (Broker.delivery_eq_some_iff item.2.topic packet sub sent).mp sending
    rw [← same]
    exact fun _ => ⟨sub, item, asked, receiver, published, may, delivers, carries sub sent.2 chosen⟩

theorem honest_share {adapter : SettingsPtr} {message : Message Property}
    (published : Published lib labels (adapter, message)) :
    Honest lib pool labels adapter fun broker => .emit broker (.push message) := by
  refine ⟨fun _ held => held, ?_⟩
  intro broker effect member
  rw [List.mem_singleton.mp member]
  exact published

end Steps

/-- What a message leaves on a PUBLISH that carries it. -/
theorem Broker.of_injectedDelivery {lib : OptionsApi Opts} {message : Message Property}
    {sub : Subscription} {topic payload : Text} {qos : Qos} {retain : Retain}
    {props : List Property}
    (carried : injectedDelivery lib message sub = some (.publish topic payload qos retain props)) :
    topic = message.topic ∧ payload = message.payload ∧
      qos = sub.qosValue.min (lib.getQos (lib.ofByte message.pubopts)) := by
  unfold injectedDelivery at carried
  cases version : message.mqttVersion with
  | v3 =>
      simp only [version] at carried
      cases carried
      exact ⟨rfl, rfl, rfl⟩
  | v5 =>
      simp only [version] at carried
      cases carried
      exact ⟨rfl, rfl, rfl⟩

namespace Routine

section Preserves

variable {lib : OptionsApi Opts} {pool : List Adapter}
  {labels : List (Label Thread (Task Opts Property))} {adapter : SettingsPtr} {con : Connection}
  {next : Routine Property}

theorem preserves_call {handler : Broker → Broker.Result Property}
    {later : System.Result Property → Routine Property}
    (honest : Honest lib pool labels adapter handler)
    (preserves : ∀ outcome, (later outcome).Preserves (Sound lib pool labels)) :
    (call adapter handler later).Preserves (Sound lib pool labels) :=
  fun _ sound => ⟨sound.call honest, preserves _⟩

theorem preserves_change {update : Broker → Broker}
    (asks : ∀ broker, ∀ sub ∈ (update broker).subs.entries,
      sub ∈ broker.subs.entries ∨ Asked labels adapter sub)
    (preserves : next.Preserves (Sound lib pool labels)) :
    (change adapter update next).Preserves (Sound lib pool labels) :=
  preserves_call (honest_done asks) fun _ => preserves

theorem preserves_printEvent (preserves : next.Preserves (Sound lib pool labels)) :
    (printEvent adapter con next).Preserves (Sound lib pool labels) := by
  apply preserves_change
  · exact fun _ _ member => Or.inl member
  · exact preserves

theorem preserves_answer (packet : Packet Property) (answer : packet.isPublish = false) :
    (send adapter con packet (printEvent adapter con finish)).Preserves (Sound lib pool labels) :=
  preserves_call (honest_send answer) fun _ => preserves_printEvent trivial

theorem preserves_closeConnection :
    (closeConnection adapter con : Routine Property).Preserves (Sound lib pool labels) := by
  apply preserves_change
  · exact fun _ _ member => Or.inl member
  · apply preserves_change
    · exact fun broker sub member => Or.inl ((Table.mem_eraseWhere broker.subs _ sub).mp member).1
    · trivial

theorem preserves_deliverEach {item : AdapterMessagePair Property}
    (published : Published lib labels item) (may : MayGoTo pool adapter item)
    {packet : Subscription → Option (Packet Property)}
    (carries : ∀ sub, ∀ chosen ∈ packet sub, Broker.injectedDelivery lib item.2 sub = some chosen)
    (connected : Connection → Bool) {failed : Fault → Routine Property}
    (fails : ∀ fault, (failed fault).Preserves (Sound lib pool labels))
    (preserves : next.Preserves (Sound lib pool labels)) (subs : List Subscription)
    (asked : ∀ sub ∈ subs, Asked labels adapter sub) :
    (deliverEach adapter (Broker.deliver connected item.2.topic packet) failed next subs).Preserves
      (Sound lib pool labels) := by
  induction subs with
  | nil => exact preserves
  | cons sub rest ih =>
      have later := ih fun other member => asked other (List.mem_cons_of_mem sub member)
      apply preserves_call
        (honest_deliver published may packet carries connected (asked sub List.mem_cons_self))
      intro outcome
      cases outcome.fault with
      | some fault => exact fails fault
      | none =>
          cases outcome.effects with
          | nil => exact later
          | cons effect effects => exact later

/-- A delivery loop reads its subscriptions off a sound table. -/
theorem preserves_deliverAll {item : AdapterMessagePair Property}
    (published : Published lib labels item) (may : MayGoTo pool adapter item)
    {packet : Subscription → Option (Packet Property)}
    (carries : ∀ sub, ∀ chosen ∈ packet sub, Broker.injectedDelivery lib item.2 sub = some chosen)
    (connected : Connection → Bool) {failed : Fault → Routine Property}
    (fails : ∀ fault, (failed fault).Preserves (Sound lib pool labels))
    (preserves : next.Preserves (Sound lib pool labels)) :
    (deliverAll adapter (Broker.deliver connected item.2.topic packet) failed next).Preserves
      (Sound lib pool labels) := by
  refine fun self sound => ⟨sound, ?_⟩
  apply preserves_deliverEach published may carries connected
  · exact fun fault => fails fault
  · exact preserves
  · exact sound.tables adapter

/-- A publish handler gives out and shares the message of its event. -/
theorem preserves_publish {message : Message Property}
    (published : Published lib labels (adapter, message))
    {packet : Subscription → Option (Packet Property)}
    (carries : ∀ sub, ∀ chosen ∈ packet sub, Broker.injectedDelivery lib message sub = some chosen)
    (connected : Connection → Bool) :
    (publish adapter con (Broker.deliver connected message.topic packet)
      fun broker => .emit broker (.push message)).Preserves (Sound lib pool labels) := by
  apply preserves_printEvent
  apply preserves_deliverAll published (Or.inl rfl) carries connected
  · exact fun _ => trivial
  · show (call adapter (fun broker => .emit broker (.push message))
      fun _ => .release .queue finish).Preserves _
    exact preserves_call (honest_share published) fun _ => trivial

/-- The subscribe loop inserts what its event asks for. -/
theorem preserves_subscribeEach {Code : Type} {version : Version} {granted : Qos → Code}
    {refused : Code} {answer : List Code → Routine Property}
    (preserves : ∀ codes, (answer codes).Preserves (Sound lib pool labels))
    (entries : List (Text × SubscribeOptions))
    (asks : ∀ entry ∈ entries, Scope.Accepted entry.1 →
      Asked labels adapter (Subscription.ofVersion version entry.1 con entry.2))
    (codes : List Code) :
    (subscribeEach adapter (fun filter options => Subscription.ofVersion version filter con options)
      granted refused answer entries codes).Preserves (Sound lib pool labels) := by
  induction entries generalizing codes with
  | nil => exact preserves codes
  | cons entry rest ih =>
      have later := ih fun other member => asks other (List.mem_cons_of_mem entry member)
      unfold subscribeEach
      rw [Scope.validTopicFilter_eq]
      by_cases good : Scope.Accepted entry.1
      · simp only [good, decide_true]
        apply preserves_change
        · intro broker sub member
          rcases Table.mem_of_mem_emplace member with old | new
          · exact Or.inl old
          · rw [new]
            exact Or.inr (asks entry List.mem_cons_self good)
        · exact later _
      · simp only [good, decide_false]
        exact later _

theorem preserves_subscribe {Code : Type} {version : Version} {granted : Qos → Code}
    {refused : Code} {suback : List Code → Packet Property} (packetId : UInt16)
    (answers : ∀ codes, (suback codes).isPublish = false)
    (entries : List (Text × SubscribeOptions))
    (here : .subscribe version con packetId entries ∈ given adapter labels) :
    (subscribe adapter (fun filter options => Subscription.ofVersion version filter con options)
      granted refused suback con entries).Preserves (Sound lib pool labels) := by
  apply preserves_printEvent
  apply preserves_subscribeEach
  · exact fun codes => preserves_answer (suback codes) (answers codes)
  · intro entry member good
    exact ⟨version, con, packetId, entries, here, entry, member, good, rfl⟩

/-- One case for each event: the handler of an event that was given is honest. -/
theorem preserves_handler (round : lib.RoundTrip) (event : Event Opts Property)
    (here : event ∈ given adapter labels) (client : event.isClient = true) :
    (handler lib adapter event).Preserves (Sound lib pool labels) := by
  cases event with
  | accept con remote =>
      have honest : Honest lib pool labels adapter (Broker.acceptHandler con remote) := by
        cases remote with
        | none => exact ⟨fun _ held => held, fun _ _ member => (nomatch member)⟩
        | some address => exact ⟨fun _ held => held, fun _ _ member => (nomatch member)⟩
      exact fun _ sound => ⟨sound.call honest, trivial⟩
  | close con => exact preserves_closeConnection
  | error con =>
      refine fun self sound => ⟨sound, ?_⟩
      by_cases registered : con ∈ (self.system.brokers adapter).connections
      · simp only [registered, ↓reduceIte]
        exact preserves_printEvent preserves_closeConnection
      · simp only [registered, ↓reduceIte]
        trivial
  | pingreq con => exact preserves_printEvent (preserves_answer .pingresp rfl)
  | connect version con clientId =>
      apply preserves_change
      · exact fun _ _ member => Or.inl member
      · exact preserves_printEvent (preserves_answer (.connack version) rfl)
  | disconnect version con => exact preserves_printEvent preserves_closeConnection
  | ack version packet con => exact preserves_printEvent trivial
  | publish con connected pubopts topicName contents =>
      have published : Published lib labels
          (adapter, Broker.sharedMessage lib topicName contents pubopts .v3 []) :=
        ⟨_, here, rfl⟩
      apply preserves_publish published (fun sub chosen found => ?_) connected
      rw [Broker.injectedDelivery_sharedMessage_v3 lib round]
      exact found
  | v5Publish con connected pubopts topicName contents props =>
      have published : Published lib labels
          (adapter, Broker.sharedMessage lib topicName contents pubopts .v5 props) :=
        ⟨_, here, rfl⟩
      apply preserves_publish published (fun sub chosen found => ?_) connected
      unfold Broker.v5Delivery at found
      split at found
      · cases found
      · simp only [Broker.injectedDelivery, Broker.sharedMessage, round pubopts]
        exact found
  | subscribe version con packetId entries =>
      cases version with
      | v3 => exact preserves_subscribe packetId (fun _ => rfl) entries here
      | v5 => exact preserves_subscribe packetId (fun _ => rfl) entries here
  | unsubscribe version con packetId topics =>
      apply preserves_printEvent
      apply preserves_change
      · intro broker sub member
        rw [Broker.foldl_eraseTopic_entries] at member
        exact Or.inl (List.mem_filter.mp member).1
      · exact preserves_answer (.unsuback packetId) rfl
  | injectPublish connected message => cases client

theorem preserves_leave (fault : Fault) :
    (leave fault : Routine Property).Preserves (Sound lib pool labels) :=
  fun _ sound => ⟨sound.leaveLoop, trivial⟩

/-- The loop over the pool injects a published message where it is eligible. -/
theorem preserves_injectEach (connected : SettingsPtr → Connection → Bool)
    {item : AdapterMessagePair Property} (published : Published lib labels item)
    (preserves : next.Preserves (Sound lib pool labels)) (todo : List Adapter)
    (inside : ∀ adapter ∈ todo, adapter ∈ pool) :
    (injectEach lib connected item next todo).Preserves (Sound lib pool labels) := by
  induction todo with
  | nil => exact preserves
  | cons adapter rest ih =>
      have later := ih fun other member => inside other (List.mem_cons_of_mem adapter member)
      rcases injectEach_cases lib connected item next adapter rest with
        ⟨_, skipped⟩ | ⟨fault, _, left⟩ | ⟨wanted, called⟩
      · rw [skipped]
        exact later
      · rw [left]
        exact preserves_leave fault
      · rw [called]
        have eligible : eligibleAt pool adapter.settings item = true := by
          unfold eligibleAt
          rw [List.any_eq_true]
          exact ⟨adapter, inside adapter List.mem_cons_self, by simp [wanted]⟩
        refine fun _ sound => ⟨sound.inject published eligible, ?_⟩
        apply preserves_deliverAll published (Or.inr eligible) fun _ _ found => found
        · exact preserves_leave
        · exact later

theorem preserves_popAll (rounds : Nat) (connected : Nat → SettingsPtr → Connection → Bool) :
    (popAll lib pool rounds connected : Routine Property).Preserves (Sound lib pool labels) := by
  induction rounds generalizing connected with
  | zero =>
      refine fun self sound => ⟨sound, ?_⟩
      cases front : self.system.queue with
      | nil =>
          simp only [front]
          trivial
      | cons item rest =>
          simp only [front]
          exact preserves_leave .unfinished
  | succ rounds ih =>
      refine fun self sound => ⟨sound, ?_⟩
      cases front : self.system.queue with
      | nil =>
          simp only [front]
          trivial
      | cons item rest =>
          have published : Published lib labels item := by
            apply sound.queue
            show item ∈ self.system.queue
            rw [front]
            exact List.mem_cons_self
          simp only [front]
          apply preserves_injectEach _ published
          · exact fun _ sound => ⟨sound.pop, ih _⟩
          · exact fun _ member => member

theorem preserves_waitFor (preserves : next.Preserves (Sound lib pool labels)) (wakeups : Nat) :
    (waitFor next wakeups).Preserves (Sound lib pool labels) := by
  induction wakeups with
  | zero => exact preserves
  | succ wakeups ih =>
      refine fun self sound => ⟨sound, ?_⟩
      cases front : self.system.queue with
      | nil =>
          simp only [front]
          exact ih
      | cons item rest =>
          simp only [front]
          exact preserves

end Preserves

end Routine

section Runs

variable (lib : OptionsApi Opts) (pool : List Adapter)

/-- Over any run of the threads, a PUBLISH goes out only through a subscription that
its receiver asked the broker for and whose filter matches, and it carries, with the
smaller QoS, the topic and the payload of a message that a client of this adapter
published, or a client of another from which the scope lets it in. -/
theorem threads_authentic (round : lib.RoundTrip)
    (labels : List (Label Thread (Task Opts Property)))
    (admitted : (threads lib pool).Admits
      (Threads.idle (History.start fun _ => Broker.fresh)) labels)
    (via : SettingsPtr) (con : Connection) (topic payload : Text) (qos : Qos) (retain : Retain)
    (props : List Property)
    (sent : .send via con (.publish topic payload qos retain props) ∈
      ((threads lib pool).run (Threads.idle (History.start fun _ => Broker.fresh))
        labels).shared.acts) :
    ∃ sub origin message, Asked labels via sub ∧ sub.con = con ∧
      Scope.Delivers sub.topicFilter topic ∧
      Published lib labels (origin, message) ∧ MayGoTo pool via (origin, message) ∧
      topic = message.topic ∧ payload = message.payload ∧
      qos = sub.qosValue.min (lib.getQos (lib.ofByte message.pubopts)) := by
  have start : Threads.Safe (Sound lib pool labels)
      (Threads.idle (History.start fun _ => Broker.fresh) :
        Threads Thread (History Property) Mutex Fault) :=
    ⟨sound_start lib pool labels, fun _ => trivial⟩
  have safe := start.run labels ?honest admitted
  case honest =>
    intro shared thread task member permitted
    obtain ⟨turn, wakeups⟩ := task
    cases turn with
    | client adapter event =>
        have mine : Thread.broker adapter = thread := permitted.1
        subst mine
        exact Routine.preserves_handler round event (mem_given_of_start member event rfl)
          permitted.2.2
    | drain connected =>
        apply Routine.preserves_waitFor
        exact fun self sound => ⟨sound, Routine.preserves_popAll _ connected⟩
  obtain ⟨sub, item, asked, receiver, published, may, delivers, carried⟩ :=
    safe.now.acts _ sent rfl
  obtain ⟨sameTopic, samePayload, sameQos⟩ := Broker.of_injectedDelivery carried
  refine ⟨sub, item.1, item.2, asked, receiver, ?_, published, may, sameTopic, samePayload, sameQos⟩
  rw [sameTopic]
  exact delivers

end Runs

/-- A client of one adapter subscribes, a client of another publishes, and a drain
has sent the message on. -/
def relayed : List (Label Thread (Task UInt8 Text)) :=
  ((Session.subscribedOnce.zip [1, 8, 10]).flatMap fun event =>
    .start (.broker 2) (.client 2 event.1, 0) :: List.replicate event.2 (.advance (.broker 2))) ++
  .start (.broker 1) (.client 1 (.publish 7 (fun _ => true) 0 (bytes "a") (bytes "hello")), 0) ::
    List.replicate 9 (.advance (.broker 1)) ++
  .start .control (.drain fun _ _ _ => true, 0) :: List.replicate 7 (.advance .control)

theorem threads_authentic_relayed :
    ∃ sub origin message, Asked relayed 2 sub ∧ sub.con = 1 ∧
      Scope.Delivers sub.topicFilter (bytes "a") ∧
      Published byteOptions relayed (origin, message) ∧
      MayGoTo [⟨1, Scope.global⟩, ⟨2, Scope.global⟩] 2 (origin, message) ∧
      bytes "a" = message.topic ∧ bytes "hello" = message.payload ∧
      Qos.atMostOnce = sub.qosValue.min (byteOptions.getQos (byteOptions.ofByte message.pubopts)) :=
  threads_authentic byteOptions [⟨1, Scope.global⟩, ⟨2, Scope.global⟩] byteOptions_roundTrip relayed
    (by decide) 2 1 (bytes "a") (bytes "hello") .atMostOnce .no [] (by decide)

end OctopusMq
