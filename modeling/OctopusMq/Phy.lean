import OctopusMq.Address
import OctopusMq.Error

set_option autoImplicit false

/- Class `phy`: a network interface by its name. -/
namespace OctopusMq

/-- `sockaddr`, of which only IPv4 addresses are read. -/
inductive SockAddr where
  | inet (ip : IpInt)
  | other
deriving DecidableEq, Repr

/-- An entry of the list of `getifaddrs`; `none` is a null pointer. -/
structure Ifaddrs where
  ifaName : Option Text
  ifaAddr : Option SockAddr
  ifaNetmask : Option IpInt
deriving DecidableEq, Repr

/-- The constructors from a name leave the netmask uninitialised, unless they find
the interface. -/
structure Phy where
  ip : IpInt
  netmask : Option IpInt
  name : Text
deriving DecidableEq, Repr

/-- The IPv4 address of an entry with that name. -/
def Ifaddrs.inetOf (name : Text) (self : Ifaddrs) : Option IpInt :=
  match self.ifaAddr, self.ifaName with
  | some (.inet ip), some ifaName => if name = ifaName then some ip else none
  | _, _ => none

namespace Phy

/-- The loop of `phy_addresses`, left at the first entry with the name. -/
def phyAddressesFrom (self : Phy) : List Ifaddrs → Except SetupError Phy
  | [] => .ok self
  | ifIter :: rest =>
      match ifIter.inetOf self.name with
      | none => phyAddressesFrom self rest
      | some ip =>
          match ifIter.ifaNetmask with
          | none => .error .nullPointer
          | some netmask => .ok { self with ip := ip, netmask := some netmask }

/-- `getifaddrs` fails where there is no list. -/
def phyAddresses (interfaces : Option (List Ifaddrs)) (self : Phy) : Except SetupError Phy :=
  match interfaces with
  | none => .error (.runtimeError (bytes "cannot read system network interface list."))
  | some list => self.phyAddressesFrom list

/-- `phy(const string &)`. -/
def ofName (interfaces : Option (List Ifaddrs)) (name : Text) : Except SetupError Phy :=
  let self : Phy := ⟨nullIp, none, name⟩
  if name = anyInterface then .ok self
  else
    match self.phyAddresses interfaces with
    | .error error => .error error
    | .ok found =>
        if found.ip = nullIp then .error (.runtimeError (bytes "interface not found: " ++ name))
        else .ok found

example : ofName (some [⟨some (bytes "lo"), some (.inet loopbackIp), some 255⟩]) (bytes "lo") =
    .ok ⟨loopbackIp, some 255, bytes "lo"⟩ := by decide

/-- Only the name of any interface stands for the null address. -/
theorem ofName_ip {interfaces : Option (List Ifaddrs)} {name : Text} {phy : Phy}
    (made : ofName interfaces name = .ok phy) : phy.ip = nullIp ↔ name = anyInterface := by
  unfold ofName at made
  by_cases any : name = anyInterface
  · rw [if_pos any] at made
    cases made
    exact ⟨fun _ => any, fun _ => rfl⟩
  · simp only [any, ↓reduceIte] at made
    cases found : phyAddresses interfaces ⟨nullIp, none, name⟩ with
    | error error =>
        rw [found] at made
        cases made
    | ok addressed =>
        simp only [found] at made
        split at made
        · cases made
        · rename_i address
          cases made
          exact ⟨fun null => absurd null address, fun same => absurd same any⟩

end Phy

end OctopusMq
