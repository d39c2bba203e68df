import OctopusMq.AddressText

set_option autoImplicit false

/- An address that is printed and read back. -/
namespace OctopusMq

theorem octet_decimal {value : Nat} (small : value < 256) : Address.Octet (decimal value) := by
  refine ⟨decimal_ne_nil value, ?_, decimal_isDigit value, ?_⟩
  · apply decimal_length_le (by decide)
    omega
  · rw [decimalValue_decimal]
    omega

theorem inetNtop_eq (ip : IpInt) :
    inetNtop ip = decimal (ip.toNat / 2 ^ 0 % 256) ++ dot :: (decimal (ip.toNat / 2 ^ 8 % 256) ++
      dot :: (decimal (ip.toNat / 2 ^ 16 % 256) ++ dot :: decimal (ip.toNat / 2 ^ 24 % 256))) := by
  have one : bytes "." = [dot] := rfl
  simp only [inetNtop, one, List.append_assoc, List.cons_append, List.nil_append]

theorem inetNtop_dotted (ip : IpInt) : Address.DottedDecimal (inetNtop ip) := by
  refine ⟨decimal (ip.toNat / 2 ^ 0 % 256), decimal (ip.toNat / 2 ^ 8 % 256),
    decimal (ip.toNat / 2 ^ 16 % 256), decimal (ip.toNat / 2 ^ 24 % 256),
    octet_decimal (by omega), octet_decimal (by omega), octet_decimal (by omega),
    octet_decimal (by omega), inetNtop_eq ip⟩

theorem Address.DottedDecimal.length_le {text : Text} (dotted : Address.DottedDecimal text) :
    text.length ≤ 15 := by
  obtain ⟨first, second, third, fourth, one, two, three, four, rfl⟩ := dotted
  have := one.2.1
  have := two.2.1
  have := three.2.1
  have := four.2.1
  simp only [List.length_append, List.length_cons]
  omega

theorem Address.DottedDecimal.digit_or_dot {text : Text} (dotted : Address.DottedDecimal text) :
    ∀ c ∈ text, isDigit c = true ∨ c = dot := by
  obtain ⟨first, second, third, fourth, one, two, three, four, rfl⟩ := dotted
  intro c member
  simp only [List.mem_append, List.mem_cons] at member
  rcases member with digit | rfl | digit | rfl | digit | rfl | digit
  · exact Or.inl (one.2.2.1 c digit)
  · exact Or.inr rfl
  · exact Or.inl (two.2.2.1 c digit)
  · exact Or.inr rfl
  · exact Or.inl (three.2.2.1 c digit)
  · exact Or.inr rfl
  · exact Or.inl (four.2.2.1 c digit)

theorem isDigit_ne {c other : UInt8} (digit : isDigit c = true) (none : isDigit other = false) :
    c ≠ other := by
  rintro rfl
  rw [digit] at none
  cases none

/-- The group that is read is the number that was printed. -/
theorem readOctets_decimal (value : Nat) (small : value < 256) (ended : List Nat) (rest : Text) :
    readOctets ended none (decimal value ++ rest) = readOctets ended (some value) rest := by
  induction value using decimal_induction generalizing rest with
  | digit value digit =>
      rw [decimal_of_lt digit, List.singleton_append, readOctets, if_pos (isDigit_digitChar digit),
        digitChar_toNat digit]
      congr 2
      omega
  | more high low positive digit ih =>
      rw [decimal_append positive digit, List.append_assoc, ih (by omega), List.singleton_append,
        readOctets, if_pos (isDigit_digitChar digit), digitChar_toNat digit]
      have next : 48 + low - 48 + 10 * high = low + 10 * high := by omega
      simp only [next]
      rw [if_neg (by omega)]

theorem readOctets_dot (value : Nat) (ended : List Nat) (rest : Text) :
    readOctets ended (some value) (dot :: rest) = readOctets (ended ++ [value]) none rest := by
  rw [readOctets, if_neg (by decide), if_pos rfl]

/-- The four bytes of an ip, the lowest first. -/
theorem ofNat_bytes (ip : IpInt) :
    UInt32.ofNat (ip.toNat / 2 ^ 0 % 256 + 2 ^ 8 * (ip.toNat / 2 ^ 8 % 256) +
      2 ^ 16 * (ip.toNat / 2 ^ 16 % 256) + 2 ^ 24 * (ip.toNat / 2 ^ 24 % 256)) = ip := by
  have bound := ip.toNat_lt
  apply UInt32.toNat_inj.mp
  rw [UInt32.toNat_ofNat']
  omega

theorem readDotted_inetNtop (ip : IpInt) : readDotted (inetNtop ip) = some ip := by
  have read : readOctets [] none (inetNtop ip) =
      some [ip.toNat / 2 ^ 0 % 256, ip.toNat / 2 ^ 8 % 256, ip.toNat / 2 ^ 16 % 256,
        ip.toNat / 2 ^ 24 % 256] := by
    rw [inetNtop_eq, readOctets_decimal _ (by omega), readOctets_dot,
      readOctets_decimal _ (by omega), readOctets_dot, readOctets_decimal _ (by omega),
      readOctets_dot, ← List.append_nil (decimal (ip.toNat / 2 ^ 24 % 256)),
      readOctets_decimal _ (by omega)]
    rfl
  unfold readDotted
  rw [read]
  exact congrArg some (ofNat_bytes ip)

namespace Address

/-- A port that is possible is printed as what it is, though `%d` is for an `int`. -/
theorem decimalInt_port {port : PortInt} (possible : port.toNat ≤ maxPort) :
    decimalInt port.toInt32.toInt = decimal port.toNat := by
  have bound : maxPort = 65535 := rfl
  have signed : port.toInt32.toInt = (port.toNat : Int) := by
    have unsigned : port.toInt32.toInt = port.toBitVec.toInt := rfl
    rw [unsigned, BitVec.toInt_eq_toNat_of_lt]
    · rfl
    · show 2 * port.toNat < 2 ^ 32
      omega
  rw [signed]
  unfold decimalInt
  rw [if_neg (by omega), Int.natAbs_natCast]

theorem decimal_port_length {port : PortInt} (possible : port.toNat ≤ maxPort) :
    (decimal port.toNat).length ≤ 5 := by
  have bound : maxPort = 65535 := rfl
  apply decimal_length_le (by decide)
  omega

theorem toString_eq (ip : IpInt) {port : PortInt} (possible : port.toNat ≤ maxPort) :
    toString ⟨ip, port⟩ = inetNtop ip ++ colon :: decimal port.toNat := by
  have ipLength := (inetNtop_dotted ip).length_le
  have portLength := decimal_port_length possible
  have separator : bytes ":" = [colon] := rfl
  have room : (colon :: decimal port.toNat).length ≤ addrStrSize - (inetNtop ip).length - 1 := by
    have size : addrStrSize = 23 := rfl
    rw [List.length_cons]
    omega
  unfold toString
  rw [decimalInt_port possible, separator, List.singleton_append]
  exact congrArg (inetNtop ip ++ ·) (List.take_of_length_le room)

/-- The text and its terminator fit the buffer. -/
theorem toString_length_lt (ip : IpInt) {port : PortInt} (possible : port.toNat ≤ maxPort) :
    (toString ⟨ip, port⟩).length < addrStrSize := by
  have ipLength := (inetNtop_dotted ip).length_le
  have portLength := decimal_port_length possible
  have size : addrStrSize = 23 := rfl
  rw [toString_eq ip possible, List.length_append, List.length_cons]
  omega

variable (inetPton : Text → Option IpInt)

theorem toIp_inetNtop (undoes : ∀ ip, inetPton (inetNtop ip) = some ip) (ip : IpInt) :
    toIp inetPton (inetNtop ip) = ip := by
  have whole : (inetNtop ip).takeWhile (· != 0) = inetNtop ip := by
    rw [List.takeWhile_eq_self_iff]
    intro c member
    rw [bne_iff_ne]
    rcases (inetNtop_dotted ip).digit_or_dot c member with digit | rfl
    · exact isDigit_ne digit (by decide)
    · decide
  unfold toIp
  rw [whole, undoes, Option.getD_some]

theorem addressString_toString (undoes : ∀ ip, inetPton (inetNtop ip) = some ip) (ip : IpInt)
    {port : PortInt} (possible : port.toNat ≤ maxPort) :
    addressString inetPton (toString ⟨ip, port⟩) = .ok ⟨some ip, some port⟩ := by
  have bound : maxPort = 65535 := rfl
  have nonempty : inetNtop ip ≠ [] := by
    have := (inetNtop_dotted ip).length_ge
    apply List.length_pos_iff.mp
    omega
  have before : (inetNtop ip ++ colon :: decimal port.toNat).take (inetNtop ip).length =
      inetNtop ip := List.take_left
  have behind : (inetNtop ip ++ colon :: decimal port.toNat).drop ((inetNtop ip).length + 1) =
      decimal port.toNat := by
    rw [List.drop_append, List.drop_eq_nil_of_le (by omega), List.nil_append]
    have one : (inetNtop ip).length + 1 - (inetNtop ip).length = 1 := by omega
    rw [one]
    rfl
  rw [toString_eq ip possible]
  unfold addressString
  rw [findLastOf_append (colon_not_mem_decimal port.toNat)]
  simp only [before, behind, if_neg nonempty, if_neg (decimal_ne_nil port.toNat),
    toIp_inetNtop inetPton undoes ip]
  rw [stoiPort_decimal (by omega), UInt32.ofNat_toNat]

/-- `INET_ADDRSTRLEN`. -/
def inetAddrstrlen : Nat := 16

/-- The text of an address is all that was to be printed, and the address is read
back from it. -/
structure RoundTrips (address : Address) : Prop where
  converted : (inetNtop address.ip).length < inetAddrstrlen
  whole : address.toString =
    inetNtop address.ip ++ (bytes ":" ++ decimalInt address.port.toInt32.toInt)
  fits : address.toString.length < addrStrSize
  back : addressString inetPton address.toString = .ok ⟨some address.ip, some address.port⟩

/-- Every address with a possible port is read back from its text, which is the text
of no other such address. -/
theorem toString_roundTrips (undoes : ∀ ip, inetPton (inetNtop ip) = some ip) (address : Address)
    (possible : address.port.toNat ≤ maxPort) :
    RoundTrips inetPton address ∧
      ∀ other : Address, other.port.toNat ≤ maxPort → other ≠ address →
        other.toString ≠ address.toString := by
  have back := addressString_toString inetPton undoes address.ip possible
  have ipLength := (inetNtop_dotted address.ip).length_le
  refine ⟨⟨?_, ?_, ?_, back⟩, ?_⟩
  · show (inetNtop address.ip).length < 16
    omega
  · rw [decimalInt_port possible]
    exact toString_eq address.ip possible
  · exact toString_length_lt address.ip possible
  · intro other otherPossible different same
    have otherBack := addressString_toString inetPton undoes other.ip otherPossible
    have parsed : addressString inetPton other.toString =
        .ok ⟨some address.ip, some address.port⟩ := by
      rw [same]
      exact back
    have fields := AssignedAddress.mk.inj (Except.ok.inj (otherBack.symm.trans parsed))
    exact different (congrArg₂ Address.mk (Option.some.inj fields.1) (Option.some.inj fields.2))

theorem toString_roundTrips_loopback : RoundTrips readDotted ⟨loopbackIp, 1883⟩ ∧
    ∀ other : Address, other.port.toNat ≤ maxPort → other ≠ ⟨loopbackIp, 1883⟩ →
      other.toString ≠ toString ⟨loopbackIp, 1883⟩ :=
  toString_roundTrips readDotted readDotted_inetNtop ⟨loopbackIp, 1883⟩ (by decide)

end Address

end OctopusMq
