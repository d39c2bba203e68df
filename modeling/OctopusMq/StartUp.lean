import OctopusMq.Control
import OctopusMq.Listeners

set_option autoImplicit false

/- Either all adapters of a configuration are started or none is. -/
namespace OctopusMq

open Imperative Outcome Fallible

section Settings

variable {Json : Type} (build : Build) (api : JsonApi Json)

/-- Without DDS, only settings for MQTT are made. -/
theorem ProtocolSettings.fromJson_mqtt (interfaces : Option (List Ifaddrs))
    (noDds : build.enableDds = false) {json : Json} {settings : ProtocolSettings}
    (made : fromJson build api interfaces json = .ok settings) :
    ∃ mqtt, settings = .mqtt mqtt := by
  unfold fromJson at made
  obtain ⟨protocolName, _, made⟩ := (bind_eq_ok_iff _ _ _).mp made
  split at made
  · obtain ⟨mqtt, _, made⟩ := (bind_eq_ok_iff _ _ _).mp made
    cases made
    exact ⟨mqtt, rfl⟩
  · rw [noDds] at made
    cases made
  · cases made

theorem Settings.parse_mqtt (interfaces : Nat → Option (List Ifaddrs))
    (noDds : build.enableDds = false) {settingsJson : Json}
    (accepted : (parse build api interfaces settingsJson []).fault = none) :
    ∀ settings ∈ (parse build api interfaces settingsJson []).state,
      ∃ mqtt, settings = .mqtt mqtt := by
  intro settings member
  obtain ⟨number, there⟩ := List.mem_iff_getElem?.mp member
  obtain ⟨entry, _, made⟩ := (parse_ok build api interfaces accepted).2.exists_item there
  exact ProtocolSettings.fromJson_mqtt build api _ noDds made

end Settings

variable {Other : Type} (build : Build) (surroundings : Surroundings Other)

theorem makeShared_cases (thrown : Option (Exception Other)) (iface : AdapterInterface) :
    (∃ exception, makeShared thrown iface = .error (.exception exception)) ∨
      ∃ made, makeShared thrown iface = .ok (some made) := by
  cases thrown with
  | none => exact Or.inr ⟨iface, rfl⟩
  | some exception => exact Or.inl ⟨exception, rfl⟩

/-- For MQTT the factory throws or makes a broker; it never returns a null pointer. -/
theorem AdapterInterface.fromSettings_mqtt (thrown : Option (Exception Other))
    (settings : MqttAdapterSettings) :
    (∃ exception, fromSettings build thrown (.mqtt settings) = .error (.exception exception)) ∨
      ∃ iface, fromSettings build thrown (.mqtt settings) = .ok (some iface) := by
  unfold fromSettings
  simp only
  split
  · exact makeShared_cases thrown _
  · exact makeShared_cases thrown _
  · split
    · exact makeShared_cases thrown _
    · exact Or.inl ⟨_, rfl⟩
  · split
    · exact makeShared_cases thrown _
    · exact Or.inl ⟨_, rfl⟩
  · exact Or.inl ⟨_, rfl⟩

namespace Control

/-- The interface of an adapter is used, by the drain of the queue or to stop it. -/
def IsUse (act : ControlAct) : Prop :=
  ∃ position, act = .injectPublish position ∨ act = .stop position

/-- No interface pointer of the pool is null. -/
def Live (adapterPool : List PoolEntry) : Prop := ∀ adapter ∈ adapterPool, adapter.iface ≠ none

/-- The factory returns for the adapter at a position: its constructor does not throw,
and its transport is one of the build's. -/
def Constructs (adapterPool : List ProtocolSettings) (position : Nat) : Prop :=
  ∀ settings, adapterPool[position]? = some settings → ∃ iface,
    AdapterInterface.fromSettings build (surroundings.construct position) settings = .ok iface

/-- The run, and the pool as `initialize_adapters` leaves it: no interface pointer is
null, and each adapter is run once, after all are constructed and before the loop. -/
structure AllStarted (adapterPool : List ProtocolSettings) (outcome : Result Other) : Prop where
  pointers : Live (initializeAdapters build surroundings (loaded adapterPool)).state.adapterPool
  settings : (initializeAdapters build surroundings (loaded adapterPool)).state.adapterPool.map
    PoolEntry.settings = adapterPool
  acts : ∃ later, outcome.effects =
      (List.range adapterPool.length).map .fromSettings ++
        ((List.range adapterPool.length).map .run ++
          .printAdapters :: .messageQueueManager :: later) ∧
    ∀ act ∈ later, IsUse act
  followed : outcome.fault ≠ some .nullPointer

/-- No adapter is run, and no interface pointer is followed. -/
structure NothingStarted (outcome : Result Other) : Prop where
  acts : ∀ act ∈ outcome.effects, ∃ position, act = .fromSettings position
  initialized : outcome.state.initialized = false
  followed : outcome.fault ≠ some .nullPointer

/-- The adapters are those of the settings, and the ones before a position have their
interface. -/
structure ReadyTo (adapterPool : List ProtocolSettings) (position : Nat) (reached : Control) :
    Prop where
  settings : reached.adapterPool.map PoolEntry.settings = adapterPool
  initialized : reached.initialized = false
  interfaces : ∀ i adapter, i < position → reached.adapterPool[i]? = some adapter →
    adapter.iface ≠ none

theorem setIface_getElem? (position i : Nat) (iface : Option AdapterInterface) (self : Control) :
    (self.setIface position iface).adapterPool[i]? =
      if position = i then self.adapterPool[i]?.map ({ · with iface := iface })
      else self.adapterPool[i]? := by
  unfold setIface
  rw [List.getElem?_modify]
  by_cases same : position = i
  · simp only [same, ↓reduceIte]
    rfl
  · simp only [same, ↓reduceIte]
    exact id_map _

theorem setIface_settings (position : Nat) (iface : Option AdapterInterface) (self : Control) :
    (self.setIface position iface).adapterPool.map PoolEntry.settings =
      self.adapterPool.map PoolEntry.settings := by
  apply List.ext_getElem?
  intro i
  rw [List.getElem?_map, List.getElem?_map, setIface_getElem?]
  split
  · rw [Option.map_map]
    rfl
  · rfl

theorem call_of_iface {self : Control} {position : Nat} {adapter : PoolEntry}
    (there : self.adapterPool[position]? = some adapter) (pointer : adapter.iface ≠ none)
    (act : ControlAct) (thrown : Option (Exception Other)) :
    self.call position act thrown = ⟨self, [act], thrown.map .exception⟩ := by
  unfold call
  rw [there, Option.bind_some]
  cases null : adapter.iface with
  | none => exact absurd null pointer
  | some iface => rfl

/-- The factory is called for the adapter, which then has its interface unless it threw. -/
theorem initializeAdapter_cases {adapterPool : List ProtocolSettings}
    (mqtt : ∀ settings ∈ adapterPool, ∃ mqtt, settings = .mqtt mqtt) {position : Nat}
    (inside : position < adapterPool.length) {self : Control}
    (settings : self.adapterPool.map PoolEntry.settings = adapterPool) :
    (∃ exception, initializeAdapter build surroundings position self =
        ⟨self, [.fromSettings position], some (.exception exception)⟩) ∨
      ∃ iface, initializeAdapter build surroundings position self =
        ⟨self.setIface position (some iface), [.fromSettings position], none⟩ := by
  subst settings
  rw [List.length_map] at inside
  have there := List.getElem?_eq_getElem inside
  obtain ⟨made, same⟩ := mqtt _ (List.mem_map_of_mem (List.getElem_mem inside))
  unfold initializeAdapter
  rw [there]
  simp only [same]
  rcases AdapterInterface.fromSettings_mqtt build (surroundings.construct position) made with
    ⟨exception, threw⟩ | ⟨iface, returned⟩
  · rw [threw]
    exact Or.inl ⟨exception, rfl⟩
  · rw [returned]
    exact Or.inr ⟨iface, rfl⟩

/-- One more adapter has its interface. -/
theorem ReadyTo.setIface {adapterPool : List ProtocolSettings} {position : Nat} {self : Control}
    (ready : ReadyTo adapterPool position self) (iface : AdapterInterface) :
    ReadyTo adapterPool (position + 1) (self.setIface position (some iface)) := by
  refine ⟨?_, ready.initialized, ?_⟩
  · rw [setIface_settings]
    exact ready.settings
  · intro i adapter before there
    rw [setIface_getElem?] at there
    by_cases same : position = i
    · rw [if_pos same, Option.map_eq_some_iff] at there
      obtain ⟨former, _, now⟩ := there
      rw [← now]
      exact Option.some_ne_none iface
    · rw [if_neg same] at there
      exact ready.interfaces i adapter (by omega) there

theorem ReadyTo.live {adapterPool : List ProtocolSettings} {self : Control}
    (ready : ReadyTo adapterPool adapterPool.length self) : Live self.adapterPool := by
  intro adapter member
  obtain ⟨i, there⟩ := List.mem_iff_getElem?.mp member
  obtain ⟨inside, _⟩ := List.getElem?_eq_some_iff.mp there
  apply ready.interfaces i adapter _ there
  rwa [← ready.settings, List.length_map]

theorem loaded_settings (adapterPool : List ProtocolSettings) :
    (loaded adapterPool).adapterPool.map PoolEntry.settings = adapterPool := by
  unfold loaded
  rw [List.map_map]
  exact List.map_id adapterPool

theorem loaded_length (adapterPool : List ProtocolSettings) :
    (loaded adapterPool).adapterPool.length = adapterPool.length := List.length_map _

/-- Where the first loop is left by an exception nothing is initialised, and where it
is not every adapter has its interface. -/
theorem constructAdapters_within {adapterPool : List ProtocolSettings}
    (mqtt : ∀ settings ∈ adapterPool, ∃ mqtt, settings = .mqtt mqtt) :
    Within (fun self => self.initialized = false)
        (fun act => ∃ position, act = ControlAct.fromSettings position)
        (fun error => ∃ exception, error = ControlError.exception exception)
        (constructAdapters build surroundings (loaded adapterPool)) ∧
      ((constructAdapters build surroundings (loaded adapterPool)).fault = none →
        ReadyTo adapterPool adapterPool.length
          (constructAdapters build surroundings (loaded adapterPool)).state) := by
  unfold constructAdapters
  rw [loaded_length]
  apply Within.forEach_range
  · intro position inside self ready
    rcases initializeAdapter_cases build surroundings mqtt inside ready.settings with
      ⟨exception, threw⟩ | ⟨iface, returned⟩
    · rw [threw]
      refine ⟨⟨ready.initialized, ?_, ?_⟩, fun ok => (nomatch ok)⟩
      · intro act member
        exact ⟨position, List.mem_singleton.mp member⟩
      · intro error failed
        exact ⟨exception, (Option.some.inj failed).symm⟩
    · rw [returned]
      refine ⟨⟨ready.initialized, ?_, fun error failed => (nomatch failed)⟩, ?_⟩
      · intro act member
        exact ⟨position, List.mem_singleton.mp member⟩
      · intro ok
        exact ready.setIface iface
  · refine ⟨loaded_settings adapterPool, rfl, ?_⟩
    exact fun i adapter before => absurd before (Nat.not_lt_zero i)
  · rfl

theorem constructAdapters_effects {adapterPool : List ProtocolSettings}
    (mqtt : ∀ settings ∈ adapterPool, ∃ mqtt, settings = .mqtt mqtt)
    (ok : (constructAdapters build surroundings (loaded adapterPool)).fault = none) :
    (constructAdapters build surroundings (loaded adapterPool)).effects =
      (List.range adapterPool.length).map .fromSettings := by
  unfold constructAdapters at ok ⊢
  rw [loaded_length] at ok ⊢
  have observed := forEach_observe
    (fun self => self.adapterPool.map PoolEntry.settings = adapterPool)
    some (fun position => [ControlAct.fromSettings position])
    (initializeAdapter build surroundings) (List.range adapterPool.length) ?_ _
    (loaded_settings adapterPool) ok
  · rw [List.filterMap_some, ← List.map_eq_flatMap] at observed
    exact observed.2
  · intro position member self settings returns
    rcases initializeAdapter_cases build surroundings mqtt (List.mem_range.mp member) settings with
      ⟨exception, threw⟩ | ⟨iface, returned⟩
    · rw [threw] at returns
      cases returns
    · rw [returned]
      exact ⟨(setIface_settings position (some iface) self).trans settings, rfl⟩

theorem initializeAdapter_fault_none_iff {adapterPool : List ProtocolSettings} (position : Nat)
    {self : Control} (settings : self.adapterPool.map PoolEntry.settings = adapterPool) :
    (initializeAdapter build surroundings position self).state.adapterPool.map
        PoolEntry.settings = adapterPool ∧
      ((initializeAdapter build surroundings position self).fault = none ↔
        Constructs build surroundings adapterPool position) := by
  subst settings
  unfold initializeAdapter Constructs
  rw [List.getElem?_map]
  cases there : self.adapterPool[position]? with
  | none => exact ⟨rfl, fun _ settings found => (nomatch found), fun _ => rfl⟩
  | some adapter =>
      simp only [emit_andThen, Option.map_some, Option.some.injEq, forall_eq']
      cases AdapterInterface.fromSettings build (surroundings.construct position)
          adapter.settings with
      | error error => simp
      | ok iface => simp [setIface_settings]

/-- The first loop returns exactly if the factory does for every adapter. -/
theorem constructAdapters_fault_none_iff (adapterPool : List ProtocolSettings) :
    (constructAdapters build surroundings (loaded adapterPool)).fault = none ↔
      ∀ position, Constructs build surroundings adapterPool position := by
  unfold constructAdapters
  rw [forEach_fault_none_iff (fun self => self.adapterPool.map PoolEntry.settings = adapterPool)
    (Constructs build surroundings adapterPool) _ _ ?_ _ (loaded_settings adapterPool),
    loaded_length]
  · apply Iff.intro
    · intro constructs position settings there
      have inside := (List.getElem?_eq_some_iff.mp there).1
      exact constructs position (List.mem_range.mpr inside) settings there
    · intro constructs position _
      exact constructs position
  · intro position _ self settings
    exact initializeAdapter_fault_none_iff build surroundings position settings

theorem runAdapters_of_live {self : Control} (live : Live self.adapterPool) :
    (runAdapters self : Result Other) =
      ⟨self, (List.range self.adapterPool.length).map .run, none⟩ := by
  apply forEach_emit
  intro position member
  have inside := List.mem_range.mp member
  exact call_of_iface (List.getElem?_eq_getElem inside) (live _ (List.getElem_mem inside))
    (.run position) none

/-- `initialize_adapters` has constructed all adapters and then run them. -/
structure AllInitialized (adapterPool : List ProtocolSettings) (outcome : Result Other) : Prop where
  returned : outcome.fault = none
  initialized : outcome.state.initialized = true
  live : Live outcome.state.adapterPool
  settings : outcome.state.adapterPool.map PoolEntry.settings = adapterPool
  acts : outcome.effects = (List.range adapterPool.length).map .fromSettings ++
    (List.range adapterPool.length).map .run

theorem initializeAdapters_of_ok {adapterPool : List ProtocolSettings}
    (mqtt : ∀ settings ∈ adapterPool, ∃ mqtt, settings = .mqtt mqtt)
    (ok : (constructAdapters build surroundings (loaded adapterPool)).fault = none) :
    AllInitialized adapterPool (initializeAdapters build surroundings (loaded adapterPool)) := by
  have ready := (constructAdapters_within build surroundings mqtt).2 ok
  have length : (constructAdapters build surroundings
      (loaded adapterPool)).state.adapterPool.length = adapterPool.length := by
    rw [← List.length_map PoolEntry.settings, ready.settings]
  unfold initializeAdapters
  simp only [ok, Option.bind_none]
  rw [andThen_of_ok _ _ ok, runAdapters_of_live ready.live, length,
    constructAdapters_effects build surroundings mqtt ok]
  exact ⟨rfl, rfl, ready.live, ready.settings, List.append_nil _⟩

/-- A `runtime_error` is caught, and anything else leaves `initialize_adapters`. -/
theorem initializeAdapters_of_fault {adapterPool : List ProtocolSettings}
    (mqtt : ∀ settings ∈ adapterPool, ∃ mqtt, settings = .mqtt mqtt) {error : ControlError Other}
    (failed : (constructAdapters build surroundings (loaded adapterPool)).fault = some error) :
    NothingStarted (initializeAdapters build surroundings (loaded adapterPool)) := by
  have within := (constructAdapters_within build surroundings mqtt).1
  obtain ⟨exception, rfl⟩ := within.fault error failed
  unfold initializeAdapters
  cases exception with
  | runtimeError what =>
      simp only [failed, Option.bind_some, ControlError.what]
      exact ⟨within.effects, rfl, fun followed => (nomatch followed)⟩
  | other thrown =>
      simp only [failed, Option.bind_some, ControlError.what]
      rw [andThen_of_fault _ runAdapters _ failed, andThen_of_fault _ _ _ failed]
      refine ⟨within.effects, within.state, ?_⟩
      rw [failed]
      exact fun followed => (nomatch followed)

/-- A call that does not meet a null pointer. -/
theorem call_within {inv : Control → Prop} {self : Control} {position : Nat} {adapter : PoolEntry}
    (there : self.adapterPool[position]? = some adapter) (pointer : adapter.iface ≠ none)
    (act : ControlAct) (use : IsUse act) (thrown : Option (Exception Other)) (holds : inv self) :
    Within inv IsUse (· ≠ .nullPointer) (self.call position act thrown) := by
  rw [call_of_iface there pointer]
  refine ⟨holds, ?_, ?_⟩
  · intro other member
    rw [List.mem_singleton.mp member]
    exact use
  · intro error failed
    obtain ⟨exception, _, same⟩ := Option.map_eq_some_iff.mp failed
    rw [← same]
    exact fun null => (nomatch null)

/-- A step of the loop of the control thread, which leaves the pool as it is. -/
def Serves (adapterPool : List PoolEntry) (outcome : Result Other) : Prop :=
  Within (fun self => self.adapterPool = adapterPool) IsUse (· ≠ .nullPointer) outcome

theorem injectInto_serves {adapterPool : List PoolEntry} (live : Live adapterPool)
    (item : QueuedMessage Other) {position : Nat} {self : Control}
    (same : self.adapterPool = adapterPool) :
    Serves adapterPool (injectInto item position self) := by
  unfold injectInto
  cases there : self.adapterPool[position]? with
  | none => exact Within.done same
  | some adapter =>
      have pointer : adapter.iface ≠ none := live adapter (same ▸ List.mem_of_getElem? there)
      simp only
      split
      · exact Within.done same
      · rw [if_neg (by rwa [Option.isNone_iff_eq_none])]
        split
        · exact Within.throw same (fun null => (nomatch null))
        · exact Within.done same
        · exact call_within there pointer _ ⟨position, Or.inl rfl⟩ _ same

theorem popAll_serves {adapterPool : List PoolEntry} (live : Live adapterPool)
    (items : List (QueuedMessage Other)) {self : Control} (same : self.adapterPool = adapterPool) :
    Serves adapterPool (popAll items self) := by
  refine Within.forEach items ?_ same
  intro item member reached kept
  refine Within.forEach _ ?_ kept
  intro position inside next still
  exact injectInto_serves live item still

/-- The induction is on the rounds. -/
theorem managerLoop_serves {adapterPool : List PoolEntry} (live : Live adapterPool)
    (signalled : Bool) (rounds : List (List (QueuedMessage Other))) {self : Control}
    (same : self.adapterPool = adapterPool) :
    Serves adapterPool (managerLoop signalled rounds self) := by
  induction rounds generalizing self with
  | nil =>
      unfold managerLoop
      split
      · exact Within.done same
      · exact Within.throw same (fun null => (nomatch null))
  | cons round rest ih =>
      have drained := popAll_serves live round same
      unfold managerLoop
      simp only
      split
      · exact ⟨drained.state, drained.effects, fun _ failed => (nomatch failed)⟩
      · exact drained.andThen fun _ => ih drained.state

/-- The adapters from a position on have their interface. -/
structure UpFrom (count position : Nat) (reached : Control) : Prop where
  length : reached.adapterPool.length = count
  interfaces : ∀ i adapter, position ≤ i → reached.adapterPool[i]? = some adapter →
    adapter.iface ≠ none

/-- Each pointer is followed before it is reset. -/
theorem shutdownAdapter_within {count position : Nat} (inside : position < count) {self : Control}
    (up : UpFrom count position self) :
    Within (fun _ => True) IsUse (· ≠ .nullPointer) (shutdownAdapter surroundings position self) ∧
      ((shutdownAdapter surroundings position self).fault = none →
        UpFrom count (position + 1) (shutdownAdapter surroundings position self).state) := by
  have there := List.getElem?_eq_getElem (up.length.symm ▸ inside)
  have pointer := up.interfaces position _ (Nat.le_refl position) there
  have stopped : Within (fun _ => True) IsUse (· ≠ .nullPointer)
      (self.call position (.stop position) (surroundings.stop position)) :=
    call_within there pointer _ ⟨position, Or.inr rfl⟩ _ trivial
  refine ⟨stopped.andThen fun _ => Within.done trivial, ?_⟩
  intro ok
  have returned := ((andThen_fault_none_iff _ _).mp ok).1
  unfold shutdownAdapter
  rw [andThen_of_ok _ _ returned, call_of_iface there pointer]
  refine ⟨(List.length_modify _ _ _).trans up.length, ?_⟩
  intro i adapter behind found
  have differ : position ≠ i := by omega
  have found : self.adapterPool[i]? = some adapter := by
    rwa [done_state, setIface_getElem?, if_neg differ] at found
  exact up.interfaces i adapter (by omega) found

theorem shutdownAdapters_within {self : Control} (live : Live self.adapterPool) :
    Within (fun _ => True) IsUse (· ≠ .nullPointer) (shutdownAdapters surroundings self) := by
  have loop := Within.forEach_range (UpFrom self.adapterPool.length) (shutdownAdapter surroundings)
    self.adapterPool.length
    (fun position inside state up => shutdownAdapter_within surroundings inside up)
    ⟨rfl, fun i adapter _ there => live adapter (List.mem_of_getElem? there)⟩ trivial
  exact loop.1.andThen fun _ => Within.done trivial

/-- The acts of an initialised pool begin with those of the two calls. -/
theorem serve_acts {self : Control} (live : Live self.adapterPool) :
    (∃ later, (serve surroundings self).effects = .printAdapters :: .messageQueueManager :: later ∧
      ∀ act ∈ later, IsUse act) ∧
    (serve surroundings self).fault ≠ some .nullPointer := by
  have loop := managerLoop_serves live surroundings.signalled surroundings.rounds rfl
  have rest : Within (fun _ => True) IsUse (· ≠ .nullPointer)
      ((managerLoop surroundings.signalled surroundings.rounds self).andThen
        (shutdownAdapters surroundings)) := by
    have any : Within (fun _ => True) IsUse (· ≠ .nullPointer)
        (managerLoop surroundings.signalled surroundings.rounds self) :=
      ⟨trivial, loop.effects, loop.fault⟩
    apply any.andThen
    intro _
    apply shutdownAdapters_within
    rw [loop.state]
    exact live
  unfold serve messageQueueManager printAdapters
  rw [andThen_assoc, emit_andThen, andThen_assoc, emit_andThen]
  exact ⟨⟨_, rfl, rest.effects⟩, fun null => rest.fault _ null rfl⟩

/-- Where nothing is initialised, `run` returns, or leaves by the exception. -/
theorem NothingStarted.andThen {outcome : Result Other} (nothing : NothingStarted outcome) :
    NothingStarted (outcome.andThen fun self =>
      if self.initialized then serve surroundings self else .done self) := by
  cases failed : outcome.fault with
  | some error =>
      rw [andThen_of_fault _ _ error failed]
      exact nothing
  | none =>
      rw [andThen_of_ok _ _ failed]
      simp only [nothing.initialized, Bool.false_eq_true, ↓reduceIte, done_state, done_effects,
        done_fault, List.append_nil]
      exact ⟨nothing.acts, nothing.initialized, fun null => (nomatch null)⟩

section Run

variable {Json : Type} (api : JsonApi Json) (interfaces : Nat → Option (List Ifaddrs))
  (settingsJson : Json)

/-- The configuration is accepted, and no call of the factory throws. -/
structure Startable : Prop where
  accepted : (Settings.parse build api interfaces settingsJson []).fault = none
  constructs : ∀ position, Constructs build surroundings
    (Settings.parse build api interfaces settingsJson []).state position

theorem run_of_startable (noDds : build.enableDds = false)
    (startable : Startable build surroundings api interfaces settingsJson) :
    AllStarted build surroundings (Settings.parse build api interfaces settingsJson []).state
      (run build api interfaces surroundings settingsJson) := by
  obtain ⟨pool, accepts⟩ := Settings.load_spec build api interfaces settingsJson []
  have loads := accepts.mpr startable.accepted
  have mqtt := Settings.parse_mqtt build api interfaces noDds startable.accepted
  have all := initializeAdapters_of_ok build surroundings mqtt
    ((constructAdapters_fault_none_iff build surroundings _).mpr startable.constructs)
  obtain ⟨⟨later, served, uses⟩, followed⟩ := serve_acts surroundings all.live
  unfold run
  simp only [loads, pool]
  rw [andThen_of_ok _ _ all.returned]
  simp only [all.initialized, ↓reduceIte]
  refine ⟨all.live, all.settings, ⟨later, ?_, uses⟩, followed⟩
  rw [all.acts, served, List.append_assoc]

theorem run_of_not_startable (noDds : build.enableDds = false)
    (stuck : ¬ Startable build surroundings api interfaces settingsJson) :
    NothingStarted (run build api interfaces surroundings settingsJson) := by
  obtain ⟨pool, accepts⟩ := Settings.load_spec build api interfaces settingsJson []
  unfold run
  cases failed : (Settings.load build api interfaces settingsJson []).fault with
  | some error =>
      simp only [failed]
      exact ⟨fun act member => (nomatch member), rfl, fun null => (nomatch null)⟩
  | none =>
      have accepted := accepts.mp failed
      have mqtt := Settings.parse_mqtt build api interfaces noDds accepted
      simp only [failed, pool]
      cases threw : (constructAdapters build surroundings
          (loaded (Settings.parse build api interfaces settingsJson []).state)).fault with
      | none =>
          have constructs := (constructAdapters_fault_none_iff build surroundings _).mp threw
          exact absurd ⟨accepted, constructs⟩ stuck
      | some error =>
          exact (initializeAdapters_of_fault build surroundings mqtt threw).andThen surroundings

/-- All adapters are started exactly if the configuration is accepted and no call of
the factory throws. -/
theorem run_allStarted_iff (noDds : build.enableDds = false) :
    AllStarted build surroundings (Settings.parse build api interfaces settingsJson []).state
        (run build api interfaces surroundings settingsJson) ↔
      Startable build surroundings api interfaces settingsJson := by
  refine ⟨?_, run_of_startable build surroundings api interfaces settingsJson noDds⟩
  intro all
  by_contra stuck
  have nothing := run_of_not_startable build surroundings api interfaces settingsJson noDds stuck
  obtain ⟨later, acts, _⟩ := all.acts
  have loop : ControlAct.messageQueueManager ∈
      (run build api interfaces surroundings settingsJson).effects := by
    rw [acts]
    simp
  obtain ⟨position, same⟩ := nothing.acts _ loop
  cases same

end Run

/-- Start-up is all or nothing. -/
theorem run_allOrNothing {Json : Type} (api : JsonApi Json)
    (interfaces : Nat → Option (List Ifaddrs)) (settingsJson : Json)
    (noDds : build.enableDds = false) :
    AllStarted build surroundings (Settings.parse build api interfaces settingsJson []).state
        (run build api interfaces surroundings settingsJson) ∨
      NothingStarted (run build api interfaces surroundings settingsJson) := by
  by_cases startable : Startable build surroundings api interfaces settingsJson
  · left
    exact run_of_startable build surroundings api interfaces settingsJson noDds startable
  · right
    exact run_of_not_startable build surroundings api interfaces settingsJson noDds startable

/-- The second broker of the sample configuration cannot be constructed. -/
def portTaken : Surroundings Unit where
  construct position := if position = 1 then some (.other ()) else none
  stop _ := none
  rounds := []
  signalled := true

example : (run ⟨false, false⟩ JsonValue.api (fun _ => none)
    { portTaken with construct := fun _ => none } Settings.octopusJson).effects =
    [.fromSettings 0, .fromSettings 1, .run 0, .run 1, .printAdapters, .messageQueueManager,
      .stop 0, .stop 1] := by decide

theorem run_allOrNothing_octopusJson :
    AllStarted ⟨false, false⟩ portTaken
        (Settings.parse ⟨false, false⟩ JsonValue.api (fun _ => none) Settings.octopusJson []).state
        (run ⟨false, false⟩ JsonValue.api (fun _ => none) portTaken Settings.octopusJson) ∨
      NothingStarted
        (run ⟨false, false⟩ JsonValue.api (fun _ => none) portTaken Settings.octopusJson) :=
  run_allOrNothing ⟨false, false⟩ portTaken JsonValue.api (fun _ => none) Settings.octopusJson rfl

end Control

end OctopusMq
