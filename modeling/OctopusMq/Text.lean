import Mathlib.Data.List.Basic

set_option autoImplicit false

namespace OctopusMq

/-- `std::string`: a sequence of bytes. -/
abbrev Text := List UInt8

/-- The bytes of a string literal. -/
def bytes (literal : String) : Text := literal.toByteArray.data.toList

/-- How a call can end other than by returning. -/
inductive Fault where
  /-- A read past the end of a vector: undefined behaviour. -/
  | outOfRange
  /-- `std::out_of_range`, thrown by `substr`. -/
  | substrRange
  /-- `invalid_topic_filter`, thrown by the constructors of `scope`. -/
  | invalidTopicFilter (topic : Text)
  /-- `boost::system::system_error`, thrown by `remote_endpoint()`. -/
  | notConnected
  /-- A loop of the model ran out of its bound. -/
  | unfinished
deriving DecidableEq, Repr

/-- `find_first_of(c, pos)` for one character, with `npos` as `none`. -/
def findFirstOf (text : Text) (c : UInt8) (pos : Nat) : Option Nat :=
  ((text.drop pos).findIdx? (· == c)).map (pos + ·)

/-- `substr(pos, count)`. -/
def substr (text : Text) (pos count : Nat) : Except Fault Text :=
  if pos ≤ text.length then .ok ((text.drop pos).take count) else .error .substrRange

theorem findFirstOf_zero_eq_none_iff (text : Text) (c : UInt8) :
    findFirstOf text c 0 = none ↔ c ∉ text := by
  simp only [findFirstOf, List.drop_zero, Option.map_eq_none_iff, List.findIdx?_eq_none_iff,
    beq_eq_false_iff_ne]
  exact ⟨fun each member => each c member rfl, fun absent x member same => absent (same ▸ member)⟩

theorem findFirstOf_eq_none_iff (text : Text) (c : UInt8) (pos : Nat) :
    findFirstOf text c pos = none ↔ (text.drop pos).findIdx? (· == c) = none := by
  simp only [findFirstOf, Option.map_eq_none_iff]

/-- A character found from `pos` on lies inside the text, at or after `pos`. -/
theorem findFirstOf_some {text : Text} {c : UInt8} {pos index : Nat}
    (found : findFirstOf text c pos = some index) :
    ∃ offset, index = pos + offset ∧ (text.drop pos).findIdx? (· == c) = some offset ∧
      index < text.length := by
  obtain ⟨offset, inner, rfl⟩ := Option.map_eq_some_iff.mp found
  obtain ⟨inside, _⟩ := List.findIdx?_eq_some_iff_getElem.mp inner
  rw [List.length_drop] at inside
  exact ⟨offset, rfl, inner, by omega⟩

theorem substr_of_le (text : Text) (pos count : Nat) (inside : pos ≤ text.length) :
    substr text pos count = .ok ((text.drop pos).take count) := by
  simp only [substr, inside, ↓reduceIte]

end OctopusMq
