import OctopusMq.HandlerEffects

set_option autoImplicit false

/- What a connection leaves in `_connections`, `_meta` and `_subs` from its accept
handler to its last one. -/
namespace OctopusMq

open OrderedTable Transition

variable {Opts Property : Type}

namespace Session

open Broker

/-- What links the three containers and the phases. -/
structure Consistent (state : Session) : Prop where
  subs : ∀ sub ∈ state.broker.subs.entries, sub.con ∈ state.broker.connections
  connections : ∀ con ∈ state.broker.connections, state.broker.Known con
  filters : ∀ sub ∈ state.broker.subs.entries, Scope.Accepted sub.topicFilter
  connected : ∀ con, con ∈ state.broker.connections ↔ (state.phase con).isConnected
  accepted : ∀ con, state.phase con = .accepted → state.broker.Known con

theorem fresh_consistent : Consistent fresh := by
  refine ⟨?_, ?_, ?_, ?_, ?_⟩
  · intro sub member
    cases member
  · intro con member
    cases member
  · intro sub member
    cases member
  · intro con
    simp [fresh, Broker.fresh, Phase.isConnected]
  · intro con accepted
    cases accepted

theorem Consistent.known_of_connected {self : Session} (consistent : Consistent self)
    {con : Connection} (connected : (self.phase con).isConnected) : self.broker.Known con :=
  consistent.connections con ((consistent.connected con).mpr connected)

theorem Consistent.known_of_sub {self : Session} (consistent : Consistent self)
    {sub : Subscription} (member : sub ∈ self.broker.subs.entries) : self.broker.Known sub.con :=
  consistent.connections sub.con (consistent.subs sub member)

/-- One case for each event: the handler makes the change of its event. -/
theorem handle_changes (lib : OptionsApi Opts) (self : Session) (event : Event Opts Property)
    (consistent : Consistent self) (enabled : self.enabled event) :
    Changes self.broker (Broker.handle lib event self.broker).state event := by
  have known : ∀ sub ∈ self.broker.subs.entries, self.broker.Known sub.con :=
    fun _ member => consistent.known_of_sub member
  cases event with
  | accept con remote =>
      cases remote with
      | none => rfl
      | some address =>
          refine ⟨rfl, ?_, rfl⟩
          intro other
          exact known_updateMetadata self.broker con other fun old =>
            { old with address := address }
  | close con => exact closeConnection_leaves self.broker con
  | error con =>
      unfold Changes Broker.handle errorHandler
      by_cases registered : con ∈ self.broker.connections
      · simp only [registered, ↓reduceIte]
        exact touch_closeConnection_leaves self.broker con
      · simp only [registered, ↓reduceIte]
        rfl
  | pingreq con => exact keeps_touch self.broker con (consistent.known_of_connected enabled)
  | connect version con clientId =>
      have there : self.broker.Known con := by
        rcases enabled with accepted | connected
        · exact consistent.accepted con accepted
        · exact consistent.known_of_connected connected
      cases version <;> exact connectWith_registers _ con clientId self.broker there
  | disconnect version con =>
      cases version <;> exact touch_closeConnection_leaves self.broker con
  | ack version packet con =>
      have touched := keeps_touch self.broker con (consistent.known_of_connected enabled)
      cases version <;> cases packet <;> exact touched
  | publish con connected pubopts topicName contents =>
      exact forEach_deliver_share_keeps lib connected topicName contents _ pubopts .v3 [] con
        self.broker known (consistent.known_of_connected enabled)
  | v5Publish con connected pubopts topicName contents props =>
      exact forEach_deliver_share_keeps lib connected topicName contents _ pubopts .v5 props con
        self.broker known (consistent.known_of_connected enabled)
  | subscribe version con packetId entries =>
      have there := consistent.known_of_connected enabled
      cases version <;>
        exact subscribeWith_serves _ _ _ _ con (fun _ _ => rfl) entries self.broker there
  | unsubscribe version con packetId topics =>
      have there := consistent.known_of_connected enabled
      cases version <;> exact unsubscribe_serves con packetId topics self.broker there
  | injectPublish connected message =>
      exact forEach_deliver_keeps connected message.topic _ self.broker _ known (Keeps.refl _)

theorem Consistent.of_keeps {self : Session} {after : Broker} (consistent : Consistent self)
    (keeps : Keeps self.broker after) : Consistent ⟨after, self.phase⟩ := by
  refine ⟨?_, ?_, ?_, ?_, ?_⟩
  · rw [keeps.subs, keeps.connections]
    exact consistent.subs
  · rw [keeps.connections]
    exact fun con member => (keeps.known con).mpr (consistent.connections con member)
  · rw [keeps.subs]
    exact consistent.filters
  · rw [keeps.connections]
    exact consistent.connected
  · exact fun con accepted => (keeps.known con).mpr (consistent.accepted con accepted)

theorem Consistent.of_serves {self : Session} {after : Broker} {con : Connection}
    (consistent : Consistent self) (connected : (self.phase con).isConnected)
    (serves : Serves con self.broker after) : Consistent ⟨after, self.phase⟩ := by
  refine ⟨?_, ?_, ?_, ?_, ?_⟩
  · intro sub member
    rw [serves.connections]
    rcases serves.subs sub member with old | new
    · exact consistent.subs sub old
    · rw [new.1]
      exact (consistent.connected con).mpr connected
  · rw [serves.connections]
    exact fun other member => (serves.known other).mpr (consistent.connections other member)
  · intro sub member
    rcases serves.subs sub member with old | new
    · exact consistent.filters sub old
    · exact new.2
  · rw [serves.connections]
    exact consistent.connected
  · exact fun other accepted => (serves.known other).mpr (consistent.accepted other accepted)

theorem Consistent.of_arrives {self : Session} {after : Broker} {con : Connection}
    (consistent : Consistent self) (unseen : self.phase con = .unseen)
    (arrives : Arrives con self.broker after) :
    Consistent ⟨after, Function.update self.phase con .accepted⟩ := by
  refine ⟨?_, ?_, ?_, ?_, ?_⟩
  · rw [arrives.subs, arrives.connections]
    exact consistent.subs
  · rw [arrives.connections]
    exact fun other member =>
      (arrives.known other).mpr (Or.inr (consistent.connections other member))
  · rw [arrives.subs]
    exact consistent.filters
  · intro other
    rw [arrives.connections, consistent.connected]
    by_cases same : other = con
    · simp [same, unseen, Phase.isConnected]
    · simp [same]
  · intro other accepted
    apply (arrives.known other).mpr
    by_cases same : other = con
    · exact Or.inl same
    · exact Or.inr (consistent.accepted other (by simpa [same] using accepted))

theorem Consistent.of_registers {self : Session} {after : Broker} {con : Connection}
    {version : Version} (consistent : Consistent self)
    (known : self.broker.Known con) (registers : Registers con self.broker after) :
    Consistent ⟨after, Function.update self.phase con (.connected version)⟩ := by
  refine ⟨?_, ?_, ?_, ?_, ?_⟩
  · rw [registers.subs, registers.connections]
    exact fun sub member => Finset.mem_insert_of_mem (consistent.subs sub member)
  · intro other member
    rw [registers.connections, Finset.mem_insert] at member
    apply (registers.known other).mpr
    rcases member with same | old
    · rw [same]
      exact known
    · exact consistent.connections other old
  · rw [registers.subs]
    exact consistent.filters
  · intro other
    rw [registers.connections, Finset.mem_insert, consistent.connected]
    by_cases same : other = con
    · simp [same, Phase.isConnected]
    · simp [same]
  · intro other accepted
    apply (registers.known other).mpr
    by_cases same : other = con
    · simp [same] at accepted
    · exact consistent.accepted other (by simpa [same] using accepted)

/-- Ending a connection that is not registered changes no container. -/
theorem Consistent.of_retire {self : Session} {con : Connection} (consistent : Consistent self)
    (unregistered : con ∉ self.broker.connections) :
    Consistent ⟨self.broker, Function.update self.phase con .ended⟩ := by
  refine ⟨consistent.subs, consistent.connections, consistent.filters, ?_, ?_⟩
  · intro other
    by_cases same : other = con
    · simp [same, unregistered, Phase.isConnected]
    · simpa [same] using consistent.connected other
  · intro other accepted
    by_cases same : other = con
    · simp [same] at accepted
    · exact consistent.accepted other (by simpa [same] using accepted)

theorem Consistent.of_leaves {self : Session} {after : Broker} {con : Connection} {phase : Phase}
    (consistent : Consistent self) (past : phase ≠ .accepted ∧ phase.isConnected = false)
    (leaves : Leaves con self.broker after) :
    Consistent ⟨after, Function.update self.phase con phase⟩ := by
  refine ⟨?_, ?_, ?_, ?_, ?_⟩
  · intro sub member
    have old := (leaves.subs sub).mp member
    rw [leaves.connections, Finset.mem_erase]
    exact ⟨old.2, consistent.subs sub old.1⟩
  · intro other member
    rw [leaves.connections, Finset.mem_erase] at member
    exact (leaves.known other).mpr ⟨member.1, consistent.connections other member.2⟩
  · intro sub member
    exact consistent.filters sub ((leaves.subs sub).mp member).1
  · intro other
    rw [leaves.connections, Finset.mem_erase, consistent.connected]
    by_cases same : other = con
    · simp [same, past.2]
    · simp [same]
  · intro other accepted
    apply (leaves.known other).mpr
    by_cases same : other = con
    · simp [same, past.1] at accepted
    · exact ⟨same, consistent.accepted other (by simpa [same] using accepted)⟩

/-- Every event keeps the links. -/
theorem consistent_step (lib : OptionsApi Opts) (self : Session) (event : Event Opts Property)
    (enabled : self.enabled event) (consistent : Consistent self) :
    Consistent ((machine lib).step self event) := by
  have changes := handle_changes lib self event consistent enabled
  have ended : Phase.ended ≠ .accepted ∧ Phase.ended.isConnected = false := by decide
  change Consistent ⟨(Broker.handle lib event self.broker).state, phaseAfter self.phase event⟩
  generalize (Broker.handle lib event self.broker).state = after at changes ⊢
  cases event with
  | accept con remote =>
      cases remote with
      | none =>
          have same : after = self.broker := changes
          have unregistered : con ∉ self.broker.connections := by
            rw [consistent.connected, enabled]
            decide
          rw [same]
          exact consistent.of_retire unregistered
      | some address => exact consistent.of_arrives enabled changes
  | close con => exact consistent.of_leaves ended changes
  | error con =>
      by_cases registered : con ∈ self.broker.connections
      · simp only [Changes, registered, ↓reduceIte] at changes
        exact consistent.of_leaves ended changes
      · simp only [Changes, registered, ↓reduceIte] at changes
        rw [changes]
        exact consistent.of_retire registered
  | connect version con clientId =>
      have there : self.broker.Known con := by
        rcases enabled with accepted | connected
        · exact consistent.accepted con accepted
        · exact consistent.known_of_connected connected
      exact consistent.of_registers there changes
  | disconnect version con => exact consistent.of_leaves (by decide) changes
  | subscribe version con packetId entries => exact consistent.of_serves enabled changes
  | unsubscribe version con packetId topics => exact consistent.of_serves enabled changes
  | pingreq con => exact consistent.of_keeps changes
  | ack version packet con => exact consistent.of_keeps changes
  | publish con connected pubopts topicName contents => exact consistent.of_keeps changes
  | v5Publish con connected pubopts topicName contents props => exact consistent.of_keeps changes
  | injectPublish connected message => exact consistent.of_keeps changes

theorem reachable_consistent (lib : OptionsApi Opts) (state : Session)
    (reached : (machine lib : Machine Session (Event Opts Property)).Reachable fresh state) :
    Consistent state :=
  reached.invariant Consistent (consistent_step lib) fresh_consistent

/-- The state invariant of the broker. -/
structure BrokerInvariant (lib : OptionsApi Opts) (Property : Type) (state : Session) : Prop where
  subsConnected : ∀ sub ∈ state.broker.subs.entries, sub.con ∈ state.broker.connections
  connectionsKnown : ∀ con ∈ state.broker.connections, (state.broker.metadata con).isSome
  subsDistinct : (state.broker.subs.entries.map fun sub => (sub.con, sub.topicFilter)).Nodup
  filtersValid : ∀ sub ∈ state.broker.subs.entries,
    Scope.validTopicFilter sub.topicFilter = .ok true
  noNewKey : ∀ event : Event Opts Property, state.enabled event →
    (∀ con remote, event ≠ .accept con remote) → ∀ con,
    ((Broker.handle lib event state.broker).state.metadata con).isSome →
      (state.broker.metadata con).isSome

/-- No event but an accept adds a key to `_meta`. -/
theorem Consistent.noNewKey (lib : OptionsApi Opts) {self : Session} (consistent : Consistent self)
    (event : Event Opts Property) (enabled : self.enabled event)
    (noAccept : ∀ con remote, event ≠ .accept con remote) (con : Connection)
    (there : (Broker.handle lib event self.broker).state.Known con) : self.broker.Known con := by
  have changes := handle_changes lib self event consistent enabled
  generalize (Broker.handle lib event self.broker).state = after at changes there
  cases event with
  | accept other remote => exact absurd rfl (noAccept other remote)
  | close other => exact ((changes.known con).mp there).2
  | error other =>
      by_cases registered : other ∈ self.broker.connections
      · simp only [Changes, registered, ↓reduceIte] at changes
        exact ((changes.known con).mp there).2
      · simp only [Changes, registered, ↓reduceIte] at changes
        rw [← changes]
        exact there
  | connect version other clientId => exact (changes.known con).mp there
  | disconnect version other => exact ((changes.known con).mp there).2
  | subscribe version other packetId entries => exact (changes.known con).mp there
  | unsubscribe version other packetId topics => exact (changes.known con).mp there
  | pingreq other => exact (changes.known con).mp there
  | ack version packet other => exact (changes.known con).mp there
  | publish other connected pubopts topicName contents => exact (changes.known con).mp there
  | v5Publish other connected pubopts topicName contents props =>
      exact (changes.known con).mp there
  | injectPublish connected message => exact (changes.known con).mp there

/-- In every reachable state the three containers agree, and only an accept
extends `_meta`. -/
theorem reachable_brokerInvariant (lib : OptionsApi Opts) (state : Session)
    (reached : (machine lib : Machine Session (Event Opts Property)).Reachable fresh state) :
    BrokerInvariant lib Property state := by
  have consistent := reachable_consistent lib state reached
  refine ⟨consistent.subs, consistent.connections, state.broker.subs.distinct, ?_, ?_⟩
  · intro sub member
    rw [Scope.validTopicFilter_eq, decide_eq_true (consistent.filters sub member)]
  · exact fun event enabled noAccept con there =>
      consistent.noNewKey lib event enabled noAccept con there

theorem sharedFilter_brokerInvariant :
    BrokerInvariant byteOptions Text ((machine byteOptions).run fresh sharedFilter) :=
  reachable_brokerInvariant byteOptions ((machine byteOptions).run fresh sharedFilter)
    ⟨sharedFilter, by decide, rfl⟩

/-- The containers hold no connection but those still open. -/
def NoDeadTrace (state : Session) : Prop :=
  ∀ con, state.broker.Traces con → (state.phase con).isOpen

/-- An error handler is not called between the accept and the connect handler. -/
def ErrorAfterConnect (state : Session) : Event Opts Property → Prop
  | .error con => state.phase con ≠ .accepted
  | _ => True

/-- The keys of `_meta` bound all three containers. -/
theorem Consistent.known_of_traces {self : Session} (consistent : Consistent self)
    {con : Connection} (traces : self.broker.Traces con) : self.broker.Known con := by
  rcases traces with registered | known | ⟨sub, member, same⟩
  · exact consistent.connections con registered
  · exact known
  · rw [← same]
    exact consistent.known_of_sub member

/-- Every key of `_meta` is of a connection before its disconnect. -/
def KnownAlive (state : Session) : Prop :=
  ∀ con, state.broker.Known con → state.phase con = .accepted ∨ (state.phase con).isConnected

theorem noDeadTrace_of_knownAlive (state : Session)
    (good : Consistent state ∧ KnownAlive state) : NoDeadTrace state := by
  intro con traces
  rcases good.2 con (good.1.known_of_traces traces) with accepted | connected
  · rw [accepted]
    rfl
  · cases phase : state.phase con <;> simp [phase, Phase.isConnected, Phase.isOpen] at connected ⊢

/-- A connection other than `con` keeps its phase; `con` gets a new one. -/
theorem KnownAlive.update {self : Session} {after : Broker} {con : Connection} {phase : Phase}
    (alive : KnownAlive self)
    (known : ∀ other, after.Known other → other ≠ con → self.broker.Known other)
    (own : after.Known con → phase = .accepted ∨ phase.isConnected) :
    KnownAlive ⟨after, Function.update self.phase con phase⟩ := by
  intro other there
  by_cases same : other = con
  · subst same
    simpa using own there
  · simpa [same] using alive other (known other there same)

theorem KnownAlive.of_leaves {self : Session} {after : Broker} {con : Connection} {phase : Phase}
    (alive : KnownAlive self) (leaves : Leaves con self.broker after) :
    KnownAlive ⟨after, Function.update self.phase con phase⟩ := by
  apply alive.update
  · exact fun other there _ => ((leaves.known other).mp there).2
  · exact fun there => absurd rfl ((leaves.known con).mp there).1

theorem KnownAlive.of_known {self : Session} {after : Broker} (alive : KnownAlive self)
    (known : ∀ con, after.Known con ↔ self.broker.Known con) : KnownAlive ⟨after, self.phase⟩ :=
  fun con there => alive con ((known con).mp there)

/-- Every event but an error between accept and connect keeps the keys alive. -/
theorem knownAlive_step (lib : OptionsApi Opts) (self : Session) (event : Event Opts Property)
    (enabled : self.enabled event) (good : self.ErrorAfterConnect event)
    (consistent : Consistent self) (alive : KnownAlive self) :
    KnownAlive ((machine lib).step self event) := by
  have changes := handle_changes lib self event consistent enabled
  change KnownAlive ⟨(Broker.handle lib event self.broker).state, phaseAfter self.phase event⟩
  generalize (Broker.handle lib event self.broker).state = after at changes ⊢
  cases event with
  | accept con remote =>
      cases remote with
      | none =>
          have same : after = self.broker := changes
          rw [same]
          apply alive.update (fun other there _ => there)
          intro there
          have before := alive con there
          rw [enabled] at before
          rcases before with accepted | connected
          · cases accepted
          · cases connected
      | some address =>
          apply alive.update
          · intro other there different
            exact ((changes.known other).mp there).resolve_left different
          · exact fun _ => Or.inl rfl
  | close con => exact alive.of_leaves changes
  | error con =>
      by_cases registered : con ∈ self.broker.connections
      · simp only [Changes, registered, ↓reduceIte] at changes
        exact alive.of_leaves changes
      · simp only [Changes, registered, ↓reduceIte] at changes
        rw [changes]
        apply alive.update (fun other there _ => there)
        intro there
        rcases alive con there with accepted | connected
        · exact absurd accepted good
        · exact absurd ((consistent.connected con).mpr connected) registered
  | connect version con clientId =>
      apply alive.update
      · exact fun other there _ => (changes.known other).mp there
      · exact fun _ => Or.inr rfl
  | disconnect version con => exact alive.of_leaves changes
  | subscribe version con packetId entries => exact alive.of_known changes.known
  | unsubscribe version con packetId topics => exact alive.of_known changes.known
  | pingreq con => exact alive.of_known changes.known
  | ack version packet con => exact alive.of_known changes.known
  | publish con connected pubopts topicName contents => exact alive.of_known changes.known
  | v5Publish con connected pubopts topicName contents props =>
      exact alive.of_known changes.known
  | injectPublish connected message => exact alive.of_known changes.known

/-- An error between accept and connect leaves the entry of `_meta` behind. -/
theorem errorAfterConnect_of_noDeadTrace (lib : OptionsApi Opts) (self : Session)
    (event : Event Opts Property) (enabled : self.enabled event) (consistent : Consistent self)
    (clean : NoDeadTrace ((machine lib).step self event)) : self.ErrorAfterConnect event := by
  cases event with
  | error con =>
      intro accepted
      have unregistered : con ∉ self.broker.connections := by
        rw [consistent.connected, accepted]
        decide
      have changes := handle_changes lib self (.error con : Event Opts Property) consistent enabled
      simp only [Changes, unregistered, ↓reduceIte] at changes
      -- The handler looks for the connection in `_connections`, which accept does not fill.
      have stays :
          ((machine lib).step self (.error con : Event Opts Property)).broker.Known con := by
        change (Broker.handle lib (.error con : Event Opts Property) self.broker).state.Known con
        rw [changes]
        exact consistent.accepted con accepted
      have opened := clean con (Or.inr (Or.inl stays))
      change (Function.update self.phase con .ended con).isOpen = true at opened
      rw [Function.update_self] at opened
      cases opened
  | _ => trivial

/-- A run leaves no trace of a dead connection exactly when none of its errors
comes between the accept and the connect handler of the connection. -/
theorem noDeadTrace_iff_errorAfterConnect (lib : OptionsApi Opts)
    (labels : List (Event Opts Property)) (admitted : (machine lib).Admits fresh labels) :
    (machine lib).Throughout NoDeadTrace fresh labels ↔
      (machine lib).EachStep ErrorAfterConnect fresh labels := by
  apply (machine lib).throughout_iff_eachStep (fun state => Consistent state ∧ KnownAlive state)
    NoDeadTrace ErrorAfterConnect noDeadTrace_of_knownAlive
  · intro state event enabled good inv
    exact ⟨consistent_step lib state event enabled inv.1,
      knownAlive_step lib state event enabled good inv.1 inv.2⟩
  · intro state event enabled inv clean
    exact errorAfterConnect_of_noDeadTrace lib state event enabled inv.1 clean
  · exact admitted
  · refine ⟨fresh_consistent, ?_⟩
    intro con there
    cases there

theorem noDeadTrace_sharedFilter :
    (machine byteOptions).Throughout NoDeadTrace fresh
        (sharedFilter ++ [.error 1, .accept 3 (some {}), .close 3]) ↔
      (machine byteOptions).EachStep ErrorAfterConnect fresh
        (sharedFilter ++ [.error 1, .accept 3 (some {}), .close 3]) :=
  noDeadTrace_iff_errorAfterConnect byteOptions
    (sharedFilter ++ [.error 1, .accept 3 (some {}), .close 3]) (by decide)

/-- A connection whose error handler runs before its connect handler. -/
theorem accepted_error_leaves_trace :
    ¬ ∀ labels : List (Event UInt8 Text), (machine byteOptions).Admits fresh labels →
      (machine byteOptions).Throughout NoDeadTrace fresh labels := by
  intro clean
  have last := ((machine byteOptions).throughout_iff NoDeadTrace fresh _).mp
    (clean [.accept 1 (some {}), .error 1] (by decide)) [.accept 1 (some {}), .error 1] [] rfl
  have opened := last 1 (Or.inr (Or.inl rfl))
  exact absurd opened (by decide)

end Session

end OctopusMq
