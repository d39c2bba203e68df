import OctopusMq.Library.Fallible
import OctopusMq.Error
import OctopusMq.Network

set_option autoImplicit false

/- JSON values and how the settings read their fields. -/
namespace OctopusMq

/-- What the settings use of `nlohmann::json`. A `get` that throws its `type_error`
gives `none`. -/
structure JsonApi (Json : Type) where
  /-- `find`, which `contains` and `operator[]` agree with. -/
  find : Json → Text → Option Json
  isString : Json → Bool
  isArray : Json → Bool
  isNumberUnsigned : Json → Bool
  /-- The elements a `for` loop visits. -/
  items : Json → List Json
  /-- `get<string>()`. -/
  getString : Json → Option Text
  /-- `get<port_int>()`. -/
  getPortInt : Json → Option PortInt
  /-- `get<std::vector<string>>()`. -/
  getStrings : Json → Option (List Text)

/-- JSON values without floating-point numbers. -/
inductive JsonValue where
  | null
  | boolean (value : Bool)
  | numberInteger (value : Int)
  | numberUnsigned (value : UInt64)
  | string (value : Text)
  | array (items : List JsonValue)
  | object (fields : List (Text × JsonValue))

namespace JsonValue

def getString : JsonValue → Option Text
  | string value => some value
  | _ => none

/-- The conversion between arithmetic types, modulo 2 ^ 32. -/
def getPortInt : JsonValue → Option PortInt
  | boolean value => some (if value then 1 else 0)
  | numberInteger value => some (UInt32.ofInt value)
  | numberUnsigned value => some value.toUInt32
  | _ => none

def getStrings : JsonValue → Option (List Text)
  | array items => items.mapM getString
  | _ => none

def find : JsonValue → Text → Option JsonValue
  | object fields, name => fields.lookup name
  | _, _ => none

def items : JsonValue → List JsonValue
  | array items => items
  | object fields => fields.map Prod.snd
  | null => []
  | value => [value]

def api : JsonApi JsonValue where
  find := find
  isString
    | string _ => true
    | _ => false
  isArray
    | array _ => true
    | _ => false
  isNumberUnsigned
    | numberUnsigned _ => true
    | _ => false
  items := items
  getString := getString
  getPortInt := getPortInt
  getStrings := getStrings

end JsonValue

namespace JsonApi

open Fallible

variable {Json : Type} (api : JsonApi Json)

/-- The result of a `get`, or its exception. -/
def got {α : Type} : Option α → Except SetupError α
  | some value => .ok value
  | none => .error .jsonTypeError

/-- A field that has to be there. -/
def field (json : Json) (name : Text) : Except SetupError Json :=
  match api.find json name with
  | some value => .ok value
  | none => .error (.missingFieldError name)

/-- The string a field holds, which is of the wrong type if it is none. -/
def asString (value : Json) (name : Text) : Except SetupError Text :=
  if api.isString value then got (api.getString value) else .error (.fieldTypeError name)

/-- A field that has to be there and to be a string. -/
def stringField (json : Json) (name : Text) : Except SetupError Text := do
  api.asString (← api.field json name) name

/-- A field read as a string, whatever else it is. -/
def stringAt (json : Json) (name : Text) : Option Text := (api.find json name).bind api.getString

/-- A field read as a port, whatever else it is. -/
def portAt (json : Json) (name : Text) : Option PortInt := (api.find json name).bind api.getPortInt

theorem field_eq_ok_iff (json : Json) (name : Text) (value : Json) :
    api.field json name = .ok value ↔ api.find json name = some value := by
  unfold field
  cases api.find json name with
  | none => simp only [reduceCtorEq]
  | some found => simp only [Except.ok.injEq, Option.some.injEq]

theorem got_eq_ok_iff {α : Type} (read : Option α) (value : α) :
    got read = .ok value ↔ read = some value := by
  cases read with
  | none => simp only [got, reduceCtorEq]
  | some found => simp only [got, Except.ok.injEq, Option.some.injEq]

theorem stringAt_of_stringField {json : Json} {name text : Text}
    (read : api.stringField json name = .ok text) : api.stringAt json name = some text := by
  unfold stringField at read
  obtain ⟨value, found, got⟩ := (bind_eq_ok_iff _ _ _).mp read
  rw [stringAt, (api.field_eq_ok_iff json name value).mp found]
  unfold asString at got
  split at got
  · exact (got_eq_ok_iff _ text).mp got
  · cases got

end JsonApi

end OctopusMq
