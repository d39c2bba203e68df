import OctopusMq.Network
import Mathlib.Data.Nat.Digits.Defs

set_option autoImplicit false

/- Numbers and addresses as text. -/
namespace OctopusMq

/-- `std::to_string` of an unsigned integer. -/
def decimal (n : Nat) : Text :=
  if n = 0 then bytes "0" else (Nat.digits 10 n).reverse.map fun digit => 48 + UInt8.ofNat digit

/-- The conversion `%d`. -/
def decimalInt (n : Int) : Text :=
  if n < 0 then bytes "-" ++ decimal n.natAbs else decimal n.natAbs

example : decimalInt (-1883) = bytes "-1883" := by decide

/-- `inet_ntop` for `AF_INET`, on a machine that stores the lowest byte first. -/
def inetNtop (ip : IpInt) : Text :=
  let byte (shift : Nat) : Text := decimal (ip.toNat / 2 ^ shift % 256)
  byte 0 ++ bytes "." ++ byte 8 ++ bytes "." ++ byte 16 ++ bytes "." ++ byte 24

/-- `INET_ADDRSTRLEN + 1 + OCTOMQ_MAX_PORT_STRLEN`. -/
def addrStrSize : Nat := 16 + 1 + 6

/-- `address::to_string`: `snprintf` reads the port as an `int` and cuts the text
to what is left of the buffer, its last byte for the terminator. -/
def Address.toString (self : Address) : Text :=
  let addrStr := inetNtop self.ip
  addrStr ++ (bytes ":" ++ decimalInt self.port.toInt32.toInt).take
    (addrStrSize - addrStr.length - 1)

example : Address.toString ⟨loopbackIp, 1883⟩ = bytes "127.0.0.1:1883" := by decide

end OctopusMq
