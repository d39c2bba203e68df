import OctopusMq.Delivered

set_option autoImplicit false

/- A connection that is over is sent nothing more, whatever the threads interleave
with the handler that has ended it. -/
namespace OctopusMq

open Imperative Concurrent Transition OrderedTable

variable {Opts Property : Type}

/-- After the disconnect, close or error handler. -/
def Phase.isOver : Phase → Bool
  | .disconnected => true
  | .ended => true
  | _ => false

/-- An event that a connection can have when it is over. -/
def Event.isEnd : Event Opts Property → Bool
  | .close _ => true
  | .error _ => true
  | _ => false

/-- The connection of the event may be over. -/
def Event.Past (con : Connection) (event : Event Opts Property) : Prop :=
  event.connection = some con → event.isEnd = true

theorem Event.Past.apart {con other : Connection} {event : Event Opts Property}
    (past : event.Past con) (comes : event.connection = some other)
    (lives : event.isEnd = false) : con ≠ other := by
  intro same
  rw [← same] at comes
  rw [past comes] at lives
  cases lives

namespace Session

variable {self : Session} {event : Event Opts Property} {con : Connection}

theorem not_connected_of_over (ended : (self.phase con).isOver = true) :
    ¬ (self.phase con).isConnected = true := by
  cases here : self.phase con with
  | unseen => simp [Phase.isConnected]
  | accepted => simp [Phase.isConnected]
  | connected version =>
      rw [here] at ended
      cases ended
  | disconnected => simp [Phase.isConnected]
  | ended => simp [Phase.isConnected]

theorem past_of_over (enabled : self.enabled event) (ended : (self.phase con).isOver = true) :
    event.Past con := by
  have closed := not_connected_of_over ended
  intro own
  cases event with
  | accept other remote =>
      cases own
      rw [show self.phase con = .unseen from enabled] at ended
      cases ended
  | close other => rfl
  | error other => rfl
  | connect version other clientId =>
      cases own
      rcases enabled with accepted | connected
      · rw [accepted] at ended
        cases ended
      · exact absurd connected closed
  | pingreq other =>
      cases own
      exact absurd enabled closed
  | disconnect version other =>
      cases own
      exact absurd enabled closed
  | ack version packet other =>
      cases own
      exact absurd enabled closed
  | publish other connected pubopts topicName contents =>
      cases own
      exact absurd enabled closed
  | v5Publish other connected pubopts topicName contents props =>
      cases own
      exact absurd enabled closed
  | subscribe version other packetId entries =>
      cases own
      exact absurd enabled closed
  | unsubscribe version other packetId topics =>
      cases own
      exact absurd enabled closed
  | injectPublish connected message => cases own

theorem over_phaseAfter (past : event.Past con) (ended : (self.phase con).isOver = true) :
    (phaseAfter self.phase event con).isOver = true := by
  have ends : ∀ other, (Function.update self.phase other .ended con).isOver = true := by
    intro other
    by_cases same : con = other
    · rw [same, Function.update_self]
      rfl
    · rw [Function.update_of_ne same]
      exact ended
  cases event with
  | close other => exact ends other
  | error other => exact ends other
  | accept other remote =>
      cases remote with
      | none => exact ends other
      | some address =>
          show (Function.update self.phase other _ con).isOver = true
          rw [Function.update_of_ne (past.apart rfl rfl)]
          exact ended
  | connect version other clientId =>
      show (Function.update self.phase other _ con).isOver = true
      rw [Function.update_of_ne (past.apart rfl rfl)]
      exact ended
  | disconnect version other =>
      show (Function.update self.phase other _ con).isOver = true
      rw [Function.update_of_ne (past.apart rfl rfl)]
      exact ended
  | pingreq other => exact ended
  | ack version packet other => exact ended
  | publish other connected pubopts topicName contents => exact ended
  | v5Publish other connected pubopts topicName contents props => exact ended
  | subscribe version other packetId entries => exact ended
  | unsubscribe version other packetId topics => exact ended
  | injectPublish connected message => exact ended

/-- Once a connection is over, a session has only its last events. -/
theorem past_run (lib : OptionsApi Opts) (events : List (Event Opts Property))
    (admitted : (machine lib).Admits self events) (ended : (self.phase con).isOver = true) :
    ∀ event ∈ events, event.Past con := by
  induction events generalizing self with
  | nil => exact fun _ member => (nomatch member)
  | cons event rest ih =>
      have past : event.Past con := past_of_over admitted.1 ended
      intro other member
      rcases List.mem_cons.mp member with same | later
      · rw [same]
        exact past
      · exact ih admitted.2 (over_phaseAfter past ended) other later

theorem subsOf_of_over (consistent : Consistent self) (ended : (self.phase con).isOver = true) :
    subsOf con self.broker.subs = [] := by
  apply List.filter_eq_nil_iff.mpr
  intro sub member own
  have known := consistent.subs sub member
  rw [of_decide_eq_true own] at known
  exact not_connected_of_over ended ((consistent.connected con).mp known)

end Session

namespace Event

variable {con : Connection} {event : Event Opts Property}

/-- No answer goes to a connection that is over. -/
theorem Past.answer (past : event.Past con) {sent : Connection × Packet Property}
    (answers : event.answer = some sent) : sent.1 ≠ con := by
  cases event with
  | pingreq other =>
      cases answers
      exact Ne.symm (past.apart rfl rfl)
  | connect version other clientId =>
      cases answers
      exact Ne.symm (past.apart rfl rfl)
  | subscribe version other packetId entries =>
      cases version with
      | v3 =>
          cases answers
          exact Ne.symm (past.apart rfl rfl)
      | v5 =>
          cases answers
          exact Ne.symm (past.apart rfl rfl)
  | unsubscribe version other packetId topics =>
      cases answers
      exact Ne.symm (past.apart rfl rfl)
  | accept other remote => cases answers
  | close other => cases answers
  | error other => cases answers
  | disconnect version other => cases answers
  | ack version packet other => cases answers
  | publish other connected pubopts topicName contents => cases answers
  | v5Publish other connected pubopts topicName contents props => cases answers
  | injectPublish connected message => cases answers

/-- No other connection subscribes for one that is over. -/
theorem Past.op (past : event.Past con) (lib : OptionsApi Opts) {op : TableOp Property}
    (member : op ∈ event.tableOps lib) : op.Spares con [] := by
  cases op with
  | fanOut connected topicName packet => trivial
  | erase topics => exact fun _ none => (nomatch none)
  | expire closed => exact fun _ none => (nomatch none)
  | emplace sub =>
      intro own
      cases event with
      | subscribe version other packetId entries =>
          have asked : sub.con = other := by
            cases version with
            | v3 =>
                obtain ⟨entry, _, made⟩ := List.mem_map.mp member
                rw [← TableOp.emplace.inj made]
                rfl
            | v5 =>
                obtain ⟨entry, _, made⟩ := List.mem_map.mp member
                rw [← TableOp.emplace.inj made]
                rfl
          exact absurd (own.symm.trans asked) (past.apart rfl rfl)
      | close other => cases List.mem_singleton.mp member
      | error other => cases List.mem_singleton.mp member
      | disconnect version other => cases List.mem_singleton.mp member
      | publish other connected pubopts topicName contents => cases List.mem_singleton.mp member
      | v5Publish other connected pubopts topicName contents props =>
          cases List.mem_singleton.mp member
      | unsubscribe version other packetId topics => cases List.mem_singleton.mp member
      | injectPublish connected message => cases List.mem_singleton.mp member
      | accept other remote => cases member
      | pingreq other => cases member
      | connect version other clientId => cases member
      | ack version packet other => cases member

end Event

section Runs

variable (lib : OptionsApi Opts) (pool : List Adapter) {dest : SettingsPtr} {con : Connection}
  {early : Threads Thread (History Property) Mutex Fault}

theorem sentTo_eq_nil {sent : List (Connection × Packet Property)}
    (others : ∀ sending ∈ sent, sending.1 ≠ con) : sentTo con sent = [] := by
  apply List.filter_eq_nil_iff.mpr
  intro sending member own
  exact others sending member (of_decide_eq_true own)

/-- While the thread of the broker is idle, what is still under way in its table goes
to subscribers. -/
theorem pending_of_idle {goal : Thread → _ → _ → Prop} {start : Fanned Property}
    {log : List (Thread × TableOp Property)} {events : List (Event Opts Property)}
    (linearized : Threads.Linearized (fanned dest) (Threads.usage lib dest events)
      (Threads.owns dest) goal start early log)
    (finished : (early.program (.broker dest)).Finished)
    (gone : subsOf con ((fanned dest).view early.shared).1 = []) :
    subsOf con ((fanned dest).after start log).1 = [] ∧
      ∃ pending, ((fanned dest).after start log).2 =
          ((fanned dest).view early.shared).2 ++ pending ∧ sentTo con pending = [] := by
  cases taken : early.holder (.subs dest) with
  | none =>
      rw [← linearized.unheld taken]
      exact ⟨gone, [], (List.append_nil _).symm, rfl⟩
  | some thread =>
      have towards := linearized.partly thread taken
      cases thread with
      | control =>
          obtain ⟨same, pending, sends, receivers⟩ : Fanning _ _ := towards
          refine ⟨same ▸ gone, pending, sends, sentTo_eq_nil ?_⟩
          intro sending member own
          obtain ⟨sub, inside, receives⟩ := receivers sending member
          have mine : sub ∈ subsOf con ((fanned dest).view early.shared).1 :=
            List.mem_filter.mpr ⟨inside, decide_eq_true (receives.trans own)⟩
          rw [gone] at mine
          cases mine
      | broker adapter =>
          obtain ⟨home, _⟩ : adapter = dest ∧ Underway _ _ := towards
          have unseen := linearized.unseen_of_finished finished
          rw [show early.holder (fanned dest : Object (History Property) _ _ _ _).mutex =
            some (.broker dest) from home ▸ taken, Threads.seen_self] at unseen
          cases unseen

/-- While the thread of the broker is idle, a log may start of what it is given from
there on. -/
theorem linearized_idle {goal : Thread → _ → _ → Prop} {start : Fanned Property}
    {log : List (Thread × TableOp Property)} {events : List (Event Opts Property)}
    (linearized : Threads.Linearized (fanned dest) (Threads.usage lib dest events)
      (Threads.owns dest) goal start early log)
    (finished : (early.program (.broker dest)).Finished)
    (labels : List (Label Thread (Task Opts Property)))
    (admitted : (threads lib pool).Admits early labels) :
    early.shared.sentBy Packet.isPublish dest <+:
        ((threads lib pool).run early labels).shared.sentBy Packet.isPublish dest ∧
      ∃ more, Threads.Linearized (fanned dest) (Threads.usage lib dest (given dest labels))
        (Threads.owns dest) (fun _ _ _ => True) ((fanned dest).after start log)
        ((threads lib pool).run early labels) more := by
  have again : Threads.Linearized (fanned dest) (Threads.usage lib dest (given dest labels))
      (Threads.owns dest) (fun _ _ _ => True) ((fanned dest).after start log) early [] := by
    apply linearized.restart
    intro thread
    cases thread with
    | control => exact Or.inr ⟨fun _ may => may, fun _ _ towards => towards⟩
    | broker adapter =>
        by_cases home : adapter = dest
        · exact Or.inl (home ▸ finished)
        · exact Or.inr ⟨fun _ may => absurd may.1 home, fun _ _ towards => towards⟩
  apply again.run (fun _ _ _ _ => True) labels ?begins ?leaves (fun _ => []) admitted
  case begins =>
    intro shared thread task tasks sofar member permitted _
    obtain ⟨mine, _⟩ := permitted
    rw [← mine] at member ⊢
    have comes : task.1.thread = .broker dest →
        ∀ event ∈ task.1.event, event ∈ given dest labels := by
      intro own
      rw [own] at member
      exact mem_given_of_start member
    have operates := task.1.operates lib pool dest task.2 comes [] shared []
      (Threads.meets_nil lib shared dest _)
    exact operates.forget ⟨fun _ may => may, fun _ _ towards => towards⟩
  case leaves =>
    intro shared thread other task permitted apart
    obtain ⟨mine, _⟩ := permitted
    exact task.1.keeps_owns lib pool dest task.2 fun same => apart (mine.symm.trans same)

/-- From a moment at which the broker is idle and a connection has no subscription
there, it is sent no PUBLISH as long as it asks for nothing. -/
theorem publishes_of_past {goal : Thread → _ → _ → Prop} {start : Fanned Property}
    {log : List (Thread × TableOp Property)} {events : List (Event Opts Property)}
    (linearized : Threads.Linearized (fanned dest) (Threads.usage lib dest events)
      (Threads.owns dest) goal start early log)
    (finished : (early.program (.broker dest)).Finished)
    (gone : subsOf con ((fanned dest).view early.shared).1 = [])
    (labels : List (Label Thread (Task Opts Property)))
    (admitted : (threads lib pool).Admits early labels)
    (past : ∀ event ∈ given dest labels, event.Past con) :
    sentTo con (((threads lib pool).run early labels).shared.sentBy Packet.isPublish dest) =
      sentTo con (early.shared.sentBy Packet.isPublish dest) := by
  obtain ⟨none, pending, waits, misses⟩ := pending_of_idle lib linearized finished gone
  obtain ⟨⟨later, grows⟩, more, ends⟩ :=
    linearized_idle lib pool linearized finished labels admitted
  obtain ⟨_, sent, sends, most, _⟩ := sent_after dest more ((fanned dest).after start log)
    (fun entry member => Threads.spares_of_allowed
      (fun event listed _ does => (past event listed).op lib does) (ends.fair entry member)) none
  have nothing : sentTo con sent = [] := by
    have empty : (((fanned dest).replay ((fanned dest).after start log) more).map Prod.snd).flatMap
        (fun done => done.1.copies []) = [] := by
      apply List.flatMap_eq_nil_iff.mpr
      intro done _
      cases done.1 with
      | emplace sub => rfl
      | erase topics => rfl
      | expire closed => rfl
      | fanOut connected topicName packet => rfl
    rw [empty] at most
    exact List.sublist_nil.mp most
  have within := sent_within_after ends
  rw [sends, waits, List.append_assoc, ← grows] at within
  have rest : sentTo con later <+: sentTo con (pending ++ sent) :=
    ((List.prefix_append_right_inj _).mp within).filter _
  rw [sentTo_append, misses, nothing] at rest
  rw [← grows, sentTo_append, List.prefix_nil.mp rest, List.append_nil]

/-- Nor an answer. -/
theorem answers_of_past {final : List (Connection × Packet Property)}
    (owned : Threads.Owned (Promise.adds (History.answers dest) [] 1) (.broker dest) early final)
    (finished : (early.program (.broker dest)).Finished)
    (labels : List (Label Thread (Task Opts Property)))
    (admitted : (threads lib pool).Admits early labels)
    (past : ∀ event ∈ given dest labels, event.Past con) :
    sentTo con (((threads lib pool).run early labels).shared.answers dest) =
      sentTo con (early.shared.answers dest) := by
  have again : Threads.Owned (Promise.adds (History.answers dest) (early.shared.answers dest) 1)
      (.broker dest) early (early.shared.answers dest) := by
    refine ⟨⟨List.prefix_refl _, [], ?_, List.append_nil _, Nat.zero_le 1⟩, owned.others⟩
    obtain ⟨fault, here⟩ := finished.eq_done
    rw [here]
    rfl
  obtain ⟨⟨more, grows⟩, owed, _, all, _⟩ :=
    (owned_answers lib pool dest again labels admitted).own
  rw [← grows, List.append_assoc, List.append_cancel_left_eq] at all
  have none : sentTo con (more ++ owed) = [] := by
    apply sentTo_eq_nil
    intro sending member
    rw [all] at member
    obtain ⟨event, listed, answers⟩ := List.mem_filterMap.mp member
    exact (past event listed).answer answers
  rw [sentTo_append] at none
  rw [← grows, sentTo_append, List.append_eq_nil_iff.mp none |>.1, List.append_nil]

/-- Over any run of the threads whose events come to a broker as a session has them:
once the disconnect, close or error handler of a connection has returned, the broker
sends it no PUBLISH and no answer, whatever the control thread is in the middle of. -/
theorem threads_silent (brokers : SettingsPtr → Broker)
    (before after : List (Label Thread (Task Opts Property)))
    (admitted : (threads lib pool).Admits (Threads.idle (History.start brokers)) (before ++ after))
    (dest : SettingsPtr) (unused : brokers dest = Broker.fresh)
    (session : (Session.machine lib).Admits Session.fresh (given dest (before ++ after)))
    (con : Connection)
    (ended :
      (((Session.machine lib).run Session.fresh (given dest before)).phase con).isOver = true)
    (finished : (((threads lib pool).run (Threads.idle (History.start brokers)) before).program
      (.broker dest)).Finished) :
    let early := ((threads lib pool).run (Threads.idle (History.start brokers)) before).shared
    let late := ((threads lib pool).run (Threads.idle (History.start brokers))
      (before ++ after)).shared
    sentTo con (late.sentBy Packet.isPublish dest) =
        sentTo con (early.sentBy Packet.isPublish dest) ∧
      sentTo con (late.answers dest) = sentTo con (early.answers dest) := by
  rw [given_append] at session
  obtain ⟨first, second⟩ := ((Session.machine lib).admits_append _ _ _).mp session
  obtain ⟨goes, continues⟩ := ((threads lib pool).admits_append _ before after).mp admitted
  have past := Session.past_run lib (given dest after) second ended
  have gone : subsOf con (((threads lib pool).run (Threads.idle (History.start brokers))
      before).shared.system.brokers dest).subs = [] := by
    have ends := (owned_members lib pool brokers before goes dest).view_of_finished finished
    rw [unused] at ends
    have alone := Session.run_members lib (given dest before) Session.fresh
    rw [(Broker.members_eq_iff.mp (ends.trans alone.symm)).2]
    apply Session.subsOf_of_over ?_ ended
    exact Transition.Machine.run_invariant _ Session.Consistent (Session.consistent_step lib) _ _
      first Session.fresh_consistent
  simp only [(threads lib pool).run_append]
  refine ⟨?_, ?_⟩
  · obtain ⟨_, log, linearized⟩ := linearized_run lib pool dest before
      (linearized_quiet lib dest (given dest before) (quiet_idle (History.start brokers))) goes
    exact publishes_of_past lib pool linearized finished gone after continues past
  · exact answers_of_past lib pool
      (owned_answers lib pool dest (owned_start brokers dest) before goes) finished after
      continues past

end Runs

/-- A subscriber is closed while a drain is about to send it a message. -/
def closing : List (Label Thread (Task UInt8 Text)) :=
  subscribed ++
  .start (.broker 1) (.client 1 (.publish 7 (fun _ => true) 0 (bytes "a") (bytes "hello")), 0) ::
    List.replicate 9 (.advance (.broker 1)) ++
  .start .control (.drain fun _ _ _ => true, 0) :: List.replicate 4 (.advance .control) ++
  .start (.broker 2) (.client 2 (.close 1), 0) :: List.replicate 6 (.advance (.broker 2))

/-- The drain goes on, and the connection fails besides. -/
def closed : List (Label Thread (Task UInt8 Text)) :=
  List.replicate 6 (.advance .control) ++
    .start (.broker 2) (.client 2 (.error 1), 0) :: [.advance (.broker 2)]

theorem threads_silent_closing :
    sentTo 1 ((between (closing ++ closed)).shared.sentBy Packet.isPublish 2) =
        sentTo 1 ((between closing).shared.sentBy Packet.isPublish 2) ∧
      sentTo 1 ((between (closing ++ closed)).shared.answers 2) =
        sentTo 1 ((between closing).shared.answers 2) :=
  threads_silent byteOptions [⟨1, Scope.global⟩, ⟨2, Scope.global⟩] (fun _ => Broker.fresh)
    closing closed (by decide) 2 rfl (by decide) 1 (by decide) (by decide)

end OctopusMq
