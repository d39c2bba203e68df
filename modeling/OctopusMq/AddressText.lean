import OctopusMq.Decimal

set_option autoImplicit false

/- Class `address` made from text. `inet_pton` is a parameter: the address it reads,
if it reads one. -/
namespace OctopusMq

def colon : UInt8 := 58
def dot : UInt8 := 46

/-- `find_last_of(c)`, with `npos` as `none`. -/
def findLastOf (text : Text) (c : UInt8) : Option Nat :=
  (text.reverse.findIdx? (· == c)).map (text.length - 1 - ·)

/-- The groups of a dotted address: those that ended, and the one that is read, if it
has begun. A group has no leading zero. -/
def readOctets (ended : List Nat) : Option Nat → Text → Option (List Nat)
  | none, [] => none
  | some value, [] => some (ended ++ [value])
  | none, c :: rest =>
      if isDigit c then readOctets ended (some (c.toNat - 48)) rest else none
  | some value, c :: rest =>
      if isDigit c then
        let next := (c.toNat - 48) + 10 * value
        if value = 0 ∨ 255 < next then none else readOctets ended (some next) rest
      else if c = dot then readOctets (ended ++ [value]) none rest
      else none

/-- `inet_pton` for `AF_INET`, of the C library on a machine that stores the lowest
byte first. -/
def readDotted (text : Text) : Option IpInt :=
  match readOctets [] none text with
  | some [first, second, third, fourth] =>
      some (UInt32.ofNat (first + 2 ^ 8 * second + 2 ^ 16 * third + 2 ^ 24 * fourth))
  | _ => none

example : readDotted (bytes "127.0.0.1") = some loopbackIp := by decide

/-- The fields of an address after a constructor; one that is not assigned is uninitialised. -/
structure AssignedAddress where
  ip : Option IpInt
  port : Option PortInt
deriving DecidableEq, Repr

namespace Address

variable (inetPton : Text → Option IpInt)

/-- `to_ip`. The string ends at its first zero byte for `inet_pton`. -/
def toIp (ipString : Text) : IpInt := (inetPton (ipString.takeWhile (· != 0))).getD nullIp

/-- The assignment of `stoi` to the port: an `int` converts modulo 2 ^ 32. -/
def stoiPort (port : Text) : Except StoiError PortInt :=
  match stoi port with
  | .error error => .error error
  | .ok value => .ok (UInt32.ofInt value)

/-- `address_string`, from a constructor that assigns nothing before. The literals
count their terminator. -/
def addressString (text : Text) : Except StoiError AssignedAddress :=
  match findLastOf text colon with
  | some pos =>
      let ip := text.take pos
      let port := text.drop (pos + 1)
      let assignedIp := if ip = [] then nullIp else toIp inetPton ip
      if port = [] then .ok ⟨some assignedIp, some nullPort⟩
      else
        match stoiPort port with
        | .error error => .error error
        | .ok assignedPort => .ok ⟨some assignedIp, some assignedPort⟩
  | none =>
      if (bytes "0.0.0.0").length + 1 ≤ text.length then
        .ok ⟨some (toIp inetPton text), some nullPort⟩
      else if text.length ≤ (bytes "65535").length + 1 then
        match stoiPort text with
        | .error error => .error error
        | .ok assignedPort => .ok ⟨some nullIp, some assignedPort⟩
      else .ok ⟨none, none⟩

/-- A group of a dotted address. -/
def Octet (text : Text) : Prop :=
  text ≠ [] ∧ text.length ≤ 3 ∧ (∀ c ∈ text, isDigit c = true) ∧ decimalValue text ≤ 255

/-- An IPv4 address in dotted decimal. -/
def DottedDecimal (text : Text) : Prop :=
  ∃ first second third fourth, Octet first ∧ Octet second ∧ Octet third ∧ Octet fourth ∧
    text = first ++ dot :: (second ++ dot :: (third ++ dot :: fourth))

/-- Text without a port or without an ip is taken for what it is: both fields are
assigned unless the constructor throws. -/
structure ParsedCompletely (text : Text) : Prop where
  assigned : ∀ parsed, addressString inetPton text = .ok parsed →
    parsed.ip.isSome ∧ parsed.port.isSome
  ip : DottedDecimal text →
    addressString inetPton text = .ok ⟨some (toIp inetPton text), some nullPort⟩
  port : ∀ n, n ≤ maxPort → text = decimal n →
    addressString inetPton text = .ok ⟨some nullIp, some (UInt32.ofNat n)⟩

theorem findLastOf_eq_none_iff (text : Text) (c : UInt8) : findLastOf text c = none ↔ c ∉ text := by
  simp only [findLastOf, Option.map_eq_none_iff, List.findIdx?_eq_none_iff, List.mem_reverse,
    beq_eq_false_iff_ne]
  exact ⟨fun each member => each c member rfl, fun absent x member same => absent (same ▸ member)⟩

/-- What stands behind the last of the characters does not hold it. -/
theorem findLastOf_append {before after : Text} {c : UInt8} (absent : c ∉ after) :
    findLastOf (before ++ c :: after) c = some before.length := by
  have skipped : (after.reverse ++ (c :: before.reverse)).findIdx? (· == c) =
      some after.length := by
    rw [List.findIdx?_append]
    have none : after.reverse.findIdx? (· == c) = none := by
      rw [List.findIdx?_eq_none_iff]
      intro x member
      rw [beq_eq_false_iff_ne]
      exact fun same => absent (same ▸ List.mem_reverse.mp member)
    rw [none, List.findIdx?_cons]
    simp
  unfold findLastOf
  rw [List.reverse_append, List.reverse_cons, List.append_assoc, List.singleton_append, skipped,
    Option.map_some, List.length_append, List.length_cons]
  congr 1
  omega

/-- Text without a colon, by its length: 8 and more is an ip, up to 6 a port. -/
theorem addressString_of_colon_absent {text : Text} (absent : colon ∉ text) :
    (8 ≤ text.length → addressString inetPton text =
      .ok ⟨some (toIp inetPton text), some nullPort⟩) ∧
    (text.length = 7 → addressString inetPton text = .ok ⟨none, none⟩) ∧
    (text.length ≤ 6 → addressString inetPton text =
      match stoiPort text with
      | .error error => .error error
      | .ok assignedPort => .ok ⟨some nullIp, some assignedPort⟩) := by
  have ipLength : (bytes "0.0.0.0").length + 1 = 8 := rfl
  have portLength : (bytes "65535").length + 1 = 6 := rfl
  unfold addressString
  rw [(findLastOf_eq_none_iff text colon).mpr absent, ipLength, portLength]
  refine ⟨?_, ?_, ?_⟩
  · intro long
    exact if_pos long
  · intro seven
    simp only [seven, show ¬ 8 ≤ 7 by decide, show ¬ 7 ≤ 6 by decide, ↓reduceIte]
  · intro short
    simp only [show ¬ 8 ≤ text.length by omega, short, ↓reduceIte]

theorem DottedDecimal.length_ge {text : Text} (dotted : DottedDecimal text) : 7 ≤ text.length := by
  obtain ⟨first, second, third, fourth, one, two, three, four, rfl⟩ := dotted
  have positive : ∀ group, Octet group → 0 < group.length :=
    fun group octet => List.length_pos_iff.mpr octet.1
  have := positive first one
  have := positive second two
  have := positive third three
  have := positive fourth four
  simp only [List.length_append, List.length_cons]
  omega

theorem stoiPort_of_digits {port : Text} (nonempty : port ≠ [])
    (digits : ∀ c ∈ port, isDigit c = true) (small : decimalValue port < 2 ^ 31) :
    stoiPort port = .ok (UInt32.ofNat (decimalValue port)) := by
  have unsigned : UInt32.ofInt (decimalValue port : Int) = UInt32.ofNat (decimalValue port) := by
    have same : ((decimalValue port : Int) % 2 ^ 32).toNat = decimalValue port := by omega
    unfold UInt32.ofInt
    rw [same]
  unfold stoiPort
  rw [stoi_of_digits nonempty digits, if_pos small]
  exact congrArg Except.ok unsigned

theorem stoiPort_decimal {n : Nat} (small : n < 2 ^ 31) :
    stoiPort (decimal n) = .ok (UInt32.ofNat n) := by
  rw [stoiPort_of_digits (decimal_ne_nil n) (decimal_isDigit n)
    (by rwa [decimalValue_decimal]), decimalValue_decimal]

theorem colon_not_mem_decimal (n : Nat) : colon ∉ decimal n := by
  intro member
  have digit := decimal_isDigit n colon member
  exact absurd digit (by decide)

/-- The text of every port is short enough for one. -/
theorem addressString_decimal {n : Nat} (possible : n ≤ maxPort) :
    addressString inetPton (decimal n) = .ok ⟨some nullIp, some (UInt32.ofNat n)⟩ := by
  have bound : maxPort = 65535 := rfl
  have digits : (decimal n).length ≤ 5 := by
    apply decimal_length_le (by decide)
    omega
  obtain ⟨_, _, short⟩ := addressString_of_colon_absent inetPton (colon_not_mem_decimal n)
  rw [short (by omega), stoiPort_decimal (by omega)]

/-- Where the text is neither too long nor too short, both fields are assigned. -/
theorem addressString_assigned {text : Text} (absent : colon ∉ text) (length : text.length ≠ 7)
    {parsed : AssignedAddress} (returned : addressString inetPton text = .ok parsed) :
    parsed.ip.isSome ∧ parsed.port.isSome := by
  obtain ⟨long, _, short⟩ := addressString_of_colon_absent inetPton absent
  by_cases ip : 8 ≤ text.length
  · rw [long ip] at returned
    cases returned
    exact ⟨rfl, rfl⟩
  · rw [short (by omega)] at returned
    cases read : stoiPort text with
    | error error =>
        rw [read] at returned
        cases returned
    | ok port =>
        rw [read] at returned
        cases returned
        exact ⟨rfl, rfl⟩

/-- Text without a colon is parsed completely exactly if it has not seven characters:
such text is neither tried as an ip nor as a port. -/
theorem parsedCompletely_iff (text : Text) (absent : colon ∉ text) :
    ParsedCompletely inetPton text ↔ text.length ≠ 7 := by
  obtain ⟨long, seven, _⟩ := addressString_of_colon_absent inetPton absent
  refine ⟨?_, ?_⟩
  · intro complete length
    exact absurd (complete.assigned _ (seven length)).1 (by decide)
  · intro length
    refine ⟨?_, ?_, ?_⟩
    · intro parsed returned
      exact addressString_assigned inetPton absent length returned
    · intro dotted
      have := dotted.length_ge
      exact long (by omega)
    · intro n possible same
      rw [same]
      exact addressString_decimal inetPton possible

theorem parsedCompletely_eightCharacters : ParsedCompletely readDotted (bytes "10.0.0.1") :=
  (parsedCompletely_iff readDotted (bytes "10.0.0.1") (by decide)).mpr (by decide)

/-- The shortest text of an ip is one character too short for the bound on its length. -/
theorem not_parsedCompletely_sevenCharacters : ¬ ParsedCompletely readDotted (bytes "1.1.1.1") := by
  intro complete
  exact absurd (complete.assigned ⟨none, none⟩ (by decide)).1 (by decide)

/-- Where the digits of the port stand, if anywhere. -/
def portText (text : Text) : Text :=
  match findLastOf text colon with
  | some pos => text.drop (pos + 1)
  | none => if text.length ≤ 6 then text else []

/-- A port that is assigned is a possible one, and it is the number that the port
text is the decimal digits of. -/
def PossiblePort (text : Text) : Prop :=
  ∀ parsed port, addressString inetPton text = .ok parsed → parsed.port = some port →
    port.toNat ≤ maxPort ∧ (∀ c ∈ portText text, isDigit c = true) ∧
      port.toNat = decimalValue (portText text)

/-- The text is all digits, of a possible port; or `stoi` throws, because it finds no
digit behind blanks and a sign, or because no `int` has the value. -/
def PortFits (port : Text) : Prop :=
  ((∀ c ∈ port, isDigit c = true) ∧ decimalValue port ≤ maxPort) ∨
    (readNumeral port).digits = [] ∨
    ¬ (-2 ^ 31 ≤ (readNumeral port).value ∧ (readNumeral port).value < 2 ^ 31)

/-- Where the port is converted from text, it is assigned what `stoi` gives. -/
theorem stoiPort_assigned (ip : IpInt) (port : Text) (result : Except StoiError AssignedAddress)
    (converts : result =
      match stoiPort port with
      | .error error => .error error
      | .ok assignedPort => .ok ⟨some ip, some assignedPort⟩) :
    (∀ parsed assigned, result = .ok parsed → parsed.port = some assigned →
      stoiPort port = .ok assigned) ∧
    ∀ assigned, stoiPort port = .ok assigned →
      ∃ parsed, result = .ok parsed ∧ parsed.port = some assigned := by
  rw [converts]
  cases stoiPort port with
  | error error =>
      exact ⟨fun parsed assigned returned => (nomatch returned), fun _ same => (nomatch same)⟩
  | ok value =>
      refine ⟨?_, ?_⟩
      · intro parsed assigned returned same
        cases returned
        exact congrArg Except.ok (Option.some.inj same)
      · intro assigned same
        cases same
        exact ⟨_, rfl, rfl⟩

theorem portText_of_colon_absent {text : Text} (absent : colon ∉ text) :
    portText text = if text.length ≤ 6 then text else [] := by
  unfold portText
  rw [(findLastOf_eq_none_iff text colon).mpr absent]

/-- Only the port text decides on the port. -/
theorem addressString_port (text : Text) :
    (∀ parsed port, addressString inetPton text = .ok parsed → parsed.port = some port →
      (portText text = [] ∧ port = nullPort) ∨ stoiPort (portText text) = .ok port) ∧
    (portText text ≠ [] → ∀ port, stoiPort (portText text) = .ok port →
      ∃ parsed, addressString inetPton text = .ok parsed ∧ parsed.port = some port) := by
  cases split : findLastOf text colon with
  | some pos =>
      unfold addressString portText
      simp only [split]
      by_cases empty : text.drop (pos + 1) = []
      · rw [if_pos empty, empty]
        refine ⟨?_, fun nonempty => absurd rfl nonempty⟩
        intro parsed port returned assigned
        cases returned
        exact Or.inl ⟨rfl, (Option.some.inj assigned).symm⟩
      · rw [if_neg empty]
        obtain ⟨given, gives⟩ := stoiPort_assigned _ (text.drop (pos + 1)) _ rfl
        exact ⟨fun parsed port returned assigned => Or.inr (given parsed port returned assigned),
          fun _ => gives⟩
  | none =>
      have absent := (findLastOf_eq_none_iff text colon).mp split
      obtain ⟨long, seven, short⟩ := addressString_of_colon_absent inetPton absent
      rw [portText_of_colon_absent absent]
      by_cases fits : text.length ≤ 6
      · rw [if_pos fits]
        obtain ⟨given, gives⟩ := stoiPort_assigned nullIp text _ (short fits)
        exact ⟨fun parsed port returned assigned => Or.inr (given parsed port returned assigned),
          fun _ => gives⟩
      · rw [if_neg fits]
        refine ⟨?_, fun nonempty => absurd rfl nonempty⟩
        intro parsed port returned assigned
        by_cases ip : 8 ≤ text.length
        · rw [long ip] at returned
          cases returned
          exact Or.inl ⟨rfl, (Option.some.inj assigned).symm⟩
        · rw [seven (by omega)] at returned
          cases returned
          cases assigned

/-- The port is converted exactly if `stoi` does not throw. -/
theorem stoiPort_ok_iff (port : Text) :
    (∃ assigned, stoiPort port = .ok assigned) ↔ ∃ value, stoi port = .ok value := by
  unfold stoiPort
  cases stoi port with
  | error error => exact ⟨fun ok => (nomatch ok), fun ok => (nomatch ok)⟩
  | ok value => exact ⟨fun _ => ⟨value, rfl⟩, fun _ => ⟨UInt32.ofInt value, rfl⟩⟩

/-- The port is assigned as the text says it exactly if that is a possible port, or
if the conversion throws. -/
theorem possiblePort_iff (text : Text) :
    PossiblePort inetPton text ↔ PortFits (portText text) := by
  have bound : maxPort = 65535 := rfl
  obtain ⟨given, gives⟩ := addressString_port inetPton text
  refine ⟨?_, ?_⟩
  · intro possible
    by_cases empty : portText text = []
    · rw [empty]
      exact Or.inl ⟨fun c member => absurd member List.not_mem_nil, Nat.zero_le maxPort⟩
    · by_cases converts : ∃ assigned, stoiPort (portText text) = .ok assigned
      · obtain ⟨assigned, converted⟩ := converts
        obtain ⟨parsed, returned, same⟩ := gives empty assigned converted
        obtain ⟨bounded, digits, value⟩ := possible parsed assigned returned same
        exact Or.inl ⟨digits, by omega⟩
      · rw [stoiPort_ok_iff, stoi_ok_iff] at converts
        exact Or.inr (Classical.not_and_iff_not_or_not.mp converts |>.imp_left Classical.not_not.mp)
  · intro fits parsed assigned returned same
    have read := given parsed assigned returned same
    rcases read with ⟨empty, rfl⟩ | converted
    · rw [empty]
      exact ⟨Nat.zero_le maxPort, fun c member => absurd member List.not_mem_nil, rfl⟩
    · have readable := (stoi_ok_iff _).mp ((stoiPort_ok_iff _).mp ⟨assigned, converted⟩)
      rcases fits with ⟨digits, bounded⟩ | noDigit | outside
      · have nonempty : portText text ≠ [] := by
          intro empty
          rw [empty] at readable
          exact readable.1 rfl
        rw [stoiPort_of_digits nonempty digits (by omega)] at converted
        cases converted
        have value : (UInt32.ofNat (decimalValue (portText text))).toNat =
            decimalValue (portText text) := by
          rw [UInt32.toNat_ofNat']
          omega
        exact ⟨by omega, digits, value⟩
      · exact absurd noDigit readable.1
      · exact absurd readable.2 outside

/-- A sign wraps around, a large number is kept and a trailing text is ignored. -/
theorem not_possiblePort_stoi : ¬ PossiblePort readDotted (bytes "1.2.3.4:-1") ∧
    ¬ PossiblePort readDotted (bytes "1.2.3.4:99999") ∧
    ¬ PossiblePort readDotted (bytes "1.2.3.4:12abc") := by
  refine ⟨?_, ?_, ?_⟩
  · intro possible
    have port := possible ⟨some 0x04030201, some 4294967295⟩ 4294967295 (by decide) rfl
    exact absurd port.1 (by decide)
  · intro possible
    have port := possible ⟨some 0x04030201, some 99999⟩ 99999 (by decide) rfl
    exact absurd port.1 (by decide)
  · intro possible
    have port := possible ⟨some 0x04030201, some 12⟩ 12 (by decide) rfl
    exact absurd port.2.1 (by decide)

end Address

end OctopusMq
