import OctopusMq.AdapterSettings

set_option autoImplicit false

/- Class `settings`: the adapters of a configuration, each checked against the
ones before it. -/
namespace OctopusMq.Settings

open Imperative Outcome Fallible

variable {Json : Type} (build : Build) (api : JsonApi Json)
  (interfaces : Nat → Option (List Ifaddrs))

/-- A step on the adapter pool, whose interfaces are still all null. -/
abbrev Parsed := Outcome (List ProtocolSettings) Empty SetupError

/-- The loop of `check_bindings` over the adapters before the last. -/
def checkAgainst (back : AdapterSettings) : List ProtocolSettings → Except SetupError Unit
  | [] => .ok ()
  | iter :: rest =>
      if back.compareBinding iter.base.phy.ip iter.base.port then
        .error (.adapterBindingError back.bingingName back.name iter.base.name)
      else checkAgainst back rest

def checkBindings (adapterPool : List ProtocolSettings) : Except SetupError Unit :=
  match adapterPool.getLast? with
  | none => .ok ()
  | some back => checkAgainst back.base adapterPool.dropLast

/-- The body of the loop of `parse`. The system is asked for its interfaces anew
for each adapter. -/
def parseAdapter (adapterJson : Json) (adapterPool : List ProtocolSettings) : Parsed :=
  match ProtocolSettings.fromJson build api (interfaces adapterPool.length) adapterJson with
  | .error error => .throw adapterPool error
  | .ok settings =>
      let pushed := adapterPool ++ [settings]
      if 1 < pushed.length then
        match checkBindings pushed with
        | .error error => .throw pushed error
        | .ok () => .done pushed
      else .done pushed

def parse (settingsJson : Json) (adapterPool : List ProtocolSettings) : Parsed :=
  let missing : SetupError :=
    .runtimeError (bytes "configuration file does not contain 'adapters' list.")
  match api.find settingsJson (bytes "adapters") with
  | none => .throw adapterPool missing
  | some adapters =>
      if api.isArray adapters then
        if (api.items adapters).isEmpty then
          .throw adapterPool
            (.runtimeError (bytes "configuration file contains an empty 'adapters' list."))
        else forEach (parseAdapter build api interfaces) (api.items adapters) adapterPool
      else .throw adapterPool missing

/-- `load` once the file is read. Only a `std::runtime_error` is caught. -/
def load (settingsJson : Json) (adapterPool : List ProtocolSettings) : Parsed :=
  let parsed := parse build api interfaces settingsJson adapterPool
  match parsed.fault.bind SetupError.what with
  | none => parsed
  | some what => .throw parsed.state (.runtimeError (bytes "settings error: " ++ what))

/-- `load` only rewrites the text of an error. -/
theorem load_spec (settingsJson : Json) (adapterPool : List ProtocolSettings) :
    (load build api interfaces settingsJson adapterPool).state =
        (parse build api interfaces settingsJson adapterPool).state ∧
      ((load build api interfaces settingsJson adapterPool).fault = none ↔
        (parse build api interfaces settingsJson adapterPool).fault = none) := by
  unfold load
  cases failed : (parse build api interfaces settingsJson adapterPool).fault with
  | none => simp only [failed, Option.bind_none, and_self]
  | some error =>
      cases text : error.what with
      | none => simp only [failed, Option.bind_some, text, reduceCtorEq, and_self]
      | some what =>
          simp only [failed, Option.bind_some, text, Outcome.throw_state, Outcome.throw_fault,
            reduceCtorEq, and_self]

/-- The entries of the list of adapters. -/
def entries (settingsJson : Json) : List Json :=
  match api.find settingsJson (bytes "adapters") with
  | none => []
  | some adapters => api.items adapters

/-- The check of a later adapter finds no collision with an earlier one. -/
def Compatible (earlier later : ProtocolSettings) : Prop :=
  later.base.compareBinding earlier.base.phy.ip earlier.base.port = false

/-- The adapter made of the entry with a number. -/
def made (number : Nat) (adapterJson : Json) : Except SetupError ProtocolSettings :=
  ProtocolSettings.fromJson build api (interfaces number) adapterJson

theorem Compatible.symm {first second : ProtocolSettings} (apart : Compatible first second) :
    Compatible second first := by
  unfold Compatible
  rw [AdapterSettings.compareBinding_comm]
  exact apart

theorem checkAgainst_ok {back : ProtocolSettings} {adapterPool : List ProtocolSettings}
    (ok : checkAgainst back.base adapterPool = .ok ()) :
    ∀ earlier ∈ adapterPool, Compatible earlier back := by
  induction adapterPool with
  | nil =>
      intro earlier member
      cases member
  | cons iter rest ih =>
      unfold checkAgainst at ok
      split at ok
      · cases ok
      · rename_i apart
        intro earlier member
        rcases List.mem_cons.mp member with same | later
        · rw [same]
          exact eq_false_of_ne_true apart
        · exact ih ok earlier later

/-- With one adapter in the pool there is nothing to compare. -/
theorem parseAdapter_eq (adapterJson : Json) (adapterPool : List ProtocolSettings) :
    parseAdapter build api interfaces adapterJson adapterPool =
      enlist (made build api interfaces)
        (fun pool settings => checkAgainst settings.base pool) adapterJson adapterPool := by
  unfold parseAdapter enlist made
  cases ProtocolSettings.fromJson build api (interfaces adapterPool.length) adapterJson with
  | error error => rfl
  | ok settings =>
      simp only [checkBindings, List.getLast?_concat, List.dropLast_concat, List.length_append,
        List.length_singleton]
      split
      · cases checkAgainst settings.base adapterPool with
        | error error => rfl
        | ok done => rfl
      · rename_i single
        have empty : adapterPool = [] := List.length_eq_zero_iff.mp (by omega)
        rw [empty]
        rfl

/-- A list of adapters that is not empty is read entry by entry. -/
theorem parse_eq_forEach {settingsJson adapters : Json}
    (found : api.find settingsJson (bytes "adapters") = some adapters)
    (array : api.isArray adapters = true) (full : ¬ (api.items adapters).isEmpty = true)
    (adapterPool : List ProtocolSettings) :
    parse build api interfaces settingsJson adapterPool =
      forEach (enlist (made build api interfaces)
        fun pool settings => checkAgainst settings.base pool) (entries api settingsJson)
          adapterPool := by
  have same : parseAdapter build api interfaces = enlist (made build api interfaces)
      (fun pool settings => checkAgainst settings.base pool) :=
    funext₂ (parseAdapter_eq build api interfaces)
  unfold parse entries
  simp only [found]
  rw [if_pos array, if_neg full, same]

theorem parse_eq_of_ok {settingsJson : Json} {adapterPool : List ProtocolSettings}
    (accepted : (parse build api interfaces settingsJson adapterPool).fault = none) :
    parse build api interfaces settingsJson adapterPool =
      forEach (enlist (made build api interfaces)
        fun pool settings => checkAgainst settings.base pool) (entries api settingsJson)
          adapterPool := by
  have checks := accepted
  unfold parse at checks
  cases found : api.find settingsJson (bytes "adapters") with
  | none =>
      rw [found] at checks
      cases checks
  | some adapters =>
      simp only [found] at checks
      by_cases array : api.isArray adapters = true
      · rw [if_pos array] at checks
        by_cases empty : (api.items adapters).isEmpty = true
        · rw [if_pos empty] at checks
          cases checks
        · exact parse_eq_forEach build api interfaces found array empty adapterPool
      · rw [if_neg array] at checks
        cases checks

/-- An accepted configuration has one adapter for each entry, and no two collide. -/
theorem parse_ok {settingsJson : Json}
    (accepted : (parse build api interfaces settingsJson []).fault = none) :
    (parse build api interfaces settingsJson []).state.Pairwise Compatible ∧
      MadeFrom (made build api interfaces) 0 (entries api settingsJson)
        (parse build api interfaces settingsJson []).state := by
  have grown := parse_eq_of_ok build api interfaces accepted
  rw [grown] at accepted ⊢
  obtain ⟨added, state, apart, made⟩ := forEach_enlist Compatible
    (fun _ _ checked => checkAgainst_ok checked) (entries api settingsJson) [] .nil accepted
  rw [state]
  exact ⟨apart, made⟩

end OctopusMq.Settings
