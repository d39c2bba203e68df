import OctopusMq.Text

set_option autoImplicit false

namespace OctopusMq

/-- `mqtt::version`. -/
inductive Version where
  | v3
  | v5
deriving DecidableEq, Repr

/-- `ip_int` and `port_int`. -/
abbrev IpInt := UInt32
abbrev PortInt := UInt32

def nullIp : IpInt := 0
/-- 127.0.0.1, the first byte lowest. -/
def loopbackIp : IpInt := 0x0100007f
def nullPort : PortInt := 0
def maxPort : Nat := 65535
def anyInterface : Text := bytes "*"

/-- Class `address`, with its default constructor. -/
structure Address where
  ip : IpInt := nullIp
  port : PortInt := nullPort
deriving DecidableEq, Repr

end OctopusMq
