import OctopusMq.Settings

set_option autoImplicit false

/- Class `control`: the adapters of the settings are constructed, run, used and stopped. -/
namespace OctopusMq

open Imperative Outcome

/-- What an interface pointer points to: a broker over the server of a transport, or
a peer. -/
inductive AdapterInterface where
  | broker (transport : TransportType)
  | peer
deriving DecidableEq, Repr

/-- An entry of `adapter_pool`. The null pointer is none. -/
structure PoolEntry where
  settings : ProtocolSettings
  iface : Option AdapterInterface

/-- A `std::runtime_error`, or anything else that is thrown. -/
inductive Exception (Other : Type) where
  | runtimeError (what : Text)
  | other (thrown : Other)
deriving DecidableEq, Repr

inductive ControlError (Other : Type) where
  /-- Of `settings::load` and of the scopes. -/
  | setup (error : SetupError)
  | exception (exception : Exception Other)
  /-- A null interface pointer is followed. -/
  | nullPointer
  /-- No error: the control thread is still in its loop. -/
  | unfinished
deriving DecidableEq, Repr

/-- What `catch (const std::runtime_error &)` sees of it. -/
def ControlError.what {Other : Type} : ControlError Other → Option Text
  | setup error => error.what
  | exception (.runtimeError what) => some what
  | _ => none

/-- What the control thread does with the adapter at a position of the pool. -/
inductive ControlAct where
  | fromSettings (position : Nat)
  | run (position : Nat)
  | printAdapters
  | messageQueueManager
  | injectPublish (position : Nat)
  | stop (position : Nat)
deriving DecidableEq, Repr

/-- A message in the queue: the position of the adapter it comes from, its topic, and
what `inject_publish` of each adapter throws at it. -/
structure QueuedMessage (Other : Type) where
  origin : Nat
  topic : Text
  injectPublish : Nat → Option (Exception Other)

/-- What happens around the control thread: what the constructor and `stop` of the
adapter at each position throw, the messages found in the queue in each round of the
loop, and whether a signal stops the loop after these rounds. -/
structure Surroundings (Other : Type) where
  construct : Nat → Option (Exception Other)
  stop : Nat → Option (Exception Other)
  rounds : List (List (QueuedMessage Other))
  signalled : Bool

/-- The static members of `control`. -/
structure Control where
  adapterPool : List PoolEntry
  initialized : Bool
  shouldStop : Bool

variable {Other : Type}

/-- The text of an `adapter_transport_error`. -/
def adapterTransportError (adapterName protocolName : Text) : Text :=
  bytes "adapter '" ++ adapterName ++ bytes "': " ++ protocolName ++
    bytes " protocol does not support specified transport."

/-- `make_shared`, of a class whose constructor may throw. -/
def makeShared (thrown : Option (Exception Other)) (iface : AdapterInterface) :
    Except (ControlError Other) (Option AdapterInterface) :=
  match thrown with
  | some exception => .error (.exception exception)
  | none => .ok (some iface)

/-- `adapter_interface_factory::from_settings`. The settings of an entry are no null pointer. -/
def AdapterInterface.fromSettings (build : Build) (thrown : Option (Exception Other)) :
    ProtocolSettings → Except (ControlError Other) (Option AdapterInterface)
  | .mqtt settings =>
      let transportError : ControlError Other :=
        .exception (.runtimeError (adapterTransportError settings.name settings.protocolName))
      match settings.transport with
      | .tcp => makeShared thrown (.broker .tcp)
      | .websocket => makeShared thrown (.broker .websocket)
      | .tls => if build.enableTls then makeShared thrown (.broker .tls) else .error transportError
      | .tlsWebsocket =>
          if build.enableTls then makeShared thrown (.broker .tlsWebsocket)
          else .error transportError
      | .udp => .error transportError
  | .dds settings =>
      if build.enableDds then
        if settings.transport ≠ .udp ∧ settings.transport ≠ .tcp then
          .error (.exception (.runtimeError
            (adapterTransportError settings.name settings.protocolName)))
        else makeShared thrown .peer
      else .ok none

namespace Control

abbrev Result (Other : Type) := Outcome Control ControlAct (ControlError Other)

/-- A call through the interface pointer at a position, with what it throws. -/
def call (position : Nat) (act : ControlAct) (thrown : Option (Exception Other)) (self : Control) :
    Result Other :=
  match (self.adapterPool[position]?).bind PoolEntry.iface with
  | none => .throw self .nullPointer
  | some _ => ⟨self, [act], thrown.map .exception⟩

def setIface (position : Nat) (iface : Option AdapterInterface) (self : Control) : Control :=
  { self with adapterPool := self.adapterPool.modify position ({ · with iface := iface }) }

/-- The body of the first loop of `initialize_adapters`. -/
def initializeAdapter (build : Build) (surroundings : Surroundings Other) (position : Nat)
    (self : Control) : Result Other :=
  match self.adapterPool[position]? with
  | none => .done self
  | some adapter =>
      (Outcome.emit self (.fromSettings position)).andThen fun self =>
        match AdapterInterface.fromSettings build (surroundings.construct position)
            adapter.settings with
        | .error error => .throw self error
        | .ok iface => .done (self.setIface position iface)

/-- The first loop of `initialize_adapters`, without its handler. -/
def constructAdapters (build : Build) (surroundings : Surroundings Other) (self : Control) :
    Result Other :=
  forEach (initializeAdapter build surroundings) (List.range self.adapterPool.length) self

/-- `run()` is taken not to throw. -/
def runAdapter (position : Nat) (self : Control) : Result Other :=
  self.call position (.run position) none

def runAdapters (self : Control) : Result Other :=
  forEach runAdapter (List.range self.adapterPool.length) self

/-- `initialize_adapters`. The handler in the first loop returns from the function. -/
def initializeAdapters (build : Build) (surroundings : Surroundings Other) (self : Control) :
    Result Other :=
  let constructed := constructAdapters build surroundings self
  match constructed.fault.bind ControlError.what with
  | some _ =>
      ⟨{ constructed.state with shouldStop := true, initialized := false },
        constructed.effects, none⟩
  | none =>
      (constructed.andThen runAdapters).andThen fun self => .done { self with initialized := true }

/-- `print_adapters` reads the settings only. -/
def printAdapters (self : Control) : Result Other := .emit self .printAdapters

/-- The body of the loop of `wait_and_pop_all` over the pool. -/
def injectInto (item : QueuedMessage Other) (position : Nat) (self : Control) : Result Other :=
  match self.adapterPool[position]? with
  | none => .done self
  | some adapter =>
      if position = item.origin then .done self
      else if adapter.iface.isNone then .throw self .nullPointer
      else
        match adapter.settings.base.scope.includes item.topic with
        | .error fault => .throw self (.setup (.scope fault))
        | .ok false => .done self
        | .ok true => self.call position (.injectPublish position) (item.injectPublish position)

/-- `wait_and_pop_all` over the messages in the queue. -/
def popAll (items : List (QueuedMessage Other)) (self : Control) : Result Other :=
  forEach (fun item self =>
    forEach (injectInto item) (List.range self.adapterPool.length) self) items self

/-- The loop of `message_queue_manager`. -/
def managerLoop (signalled : Bool) : List (List (QueuedMessage Other)) → Control → Result Other
  | [], self =>
      if signalled then .done { self with shouldStop := true } else .throw self .unfinished
  | round :: rest, self =>
      let drained := popAll round self
      match drained.fault.bind ControlError.what with
      | some _ => ⟨{ drained.state with initialized := false }, drained.effects, none⟩
      | none => drained.andThen (managerLoop signalled rest)

def messageQueueManager (surroundings : Surroundings Other) (self : Control) : Result Other :=
  (Outcome.emit self .messageQueueManager).andThen
    (managerLoop surroundings.signalled surroundings.rounds)

/-- The body of the loop of `shutdown_adapters`. -/
def shutdownAdapter (surroundings : Surroundings Other) (position : Nat) (self : Control) :
    Result Other :=
  (self.call position (.stop position) (surroundings.stop position)).andThen fun self =>
    .done (self.setIface position none)

def shutdownAdapters (surroundings : Surroundings Other) (self : Control) : Result Other :=
  (forEach (shutdownAdapter surroundings) (List.range self.adapterPool.length) self).andThen
    fun self => .done { self with adapterPool := [] }

/-- What `run` does once the adapters are initialised. -/
def serve (surroundings : Surroundings Other) (self : Control) : Result Other :=
  ((printAdapters self).andThen (messageQueueManager surroundings)).andThen
    (shutdownAdapters surroundings)

/-- The members at the start, with what `settings::load` pushes to the pool. -/
def loaded (adapterPool : List ProtocolSettings) : Control :=
  ⟨adapterPool.map (⟨·, none⟩), false, false⟩

/-- `control::run` on the file the arguments name. -/
def run {Json : Type} (build : Build) (api : JsonApi Json)
    (interfaces : Nat → Option (List Ifaddrs)) (surroundings : Surroundings Other)
    (settingsJson : Json) : Result Other :=
  let parsed := Settings.load build api interfaces settingsJson []
  match parsed.fault with
  | some error => .throw (loaded parsed.state) (.setup error)
  | none =>
      (initializeAdapters build surroundings (loaded parsed.state)).andThen fun self =>
        if self.initialized then serve surroundings self else .done self

end Control

end OctopusMq
