import OctopusMq.Phy
import OctopusMq.Library.Machine
import OctopusMq.Library.Outcome

set_option autoImplicit false

/- The setters of class `phy`, called one after another on one object. -/
namespace OctopusMq

open Imperative Transition

/-- The entry has the IPv4 address. -/
def Ifaddrs.hasIp (ip : IpInt) (self : Ifaddrs) : Bool :=
  match self.ifaAddr, self.ifaName with
  | some (.inet address), some _ => ip = address
  | _, _ => false

namespace Phy

/-- A setter that throws leaves what it has written. -/
abbrev Result := Outcome Phy Empty SetupError

/-- `phy()`. -/
def any : Phy := ⟨nullIp, none, anyInterface⟩

/-- The loop of `phy_name`, left at the first entry with the address. -/
def phyNameFrom (ip : IpInt) : List Ifaddrs → Text
  | [] => []
  | ifIter :: rest =>
      match ifIter.ifaAddr, ifIter.ifaName with
      | some (.inet address), some ifaName => if ip = address then ifaName else phyNameFrom ip rest
      | _, _ => phyNameFrom ip rest

def phyName (interfaces : Option (List Ifaddrs)) (self : Phy) : Text :=
  match interfaces with
  | none => []
  | some list => phyNameFrom self.ip list

/-- `phy_addresses` on the object itself. -/
def updateAddresses (interfaces : Option (List Ifaddrs)) (self : Phy) : Result :=
  match self.phyAddresses interfaces with
  | .error error => .throw self error
  | .ok found => .done found

/-- `ip_string`. -/
def ipString (self : Phy) : Text := inetNtop self.ip

/-- Both `name` setters. -/
def setName (interfaces : Option (List Ifaddrs)) (name : Text) (self : Phy) : Result :=
  let named := { self with name := name }
  if name = anyInterface then .done { named with ip := nullIp }
  else
    -- The address of the interface before stays where the new name is not found.
    (named.updateAddresses interfaces).andThen fun found =>
      if found.ip = nullIp then
        .throw found (.runtimeError (bytes "interface not found: " ++ found.name))
      else .done found

/-- The `ip` setter. -/
def setIp (interfaces : Option (List Ifaddrs)) (ip : IpInt) (self : Phy) : Result :=
  let addressed := { self with ip := ip }
  if ip ≠ nullIp then
    let named := { addressed with name := addressed.phyName interfaces }
    if named.name = [] then
      .throw named (.runtimeError (bytes "interface not found: " ++ named.ipString))
    else named.updateAddresses interfaces
  else .done addressed

/-- A call of a setter. -/
inductive Call where
  | name (name : Text)
  | ip (ip : IpInt)
deriving DecidableEq, Repr

def perform (interfaces : Option (List Ifaddrs)) : Call → Phy → Result
  | .name name => setName interfaces name
  | .ip ip => setIp interfaces ip

/-- The interfaces do not change. A setter may be called after one that has thrown. -/
def machine (interfaces : Option (List Ifaddrs)) : Machine Phy Call where
  step self call := (perform interfaces call self).state
  enabled _ _ := True

/-- What a phy is constructed from: nothing, or a name. -/
def construct (interfaces : Option (List Ifaddrs)) : Option Text → Except SetupError Phy
  | none => .ok any
  | some name => ofName interfaces name

/-- The entries of the list, if it can be read. -/
def table (interfaces : Option (List Ifaddrs)) : List Ifaddrs := interfaces.getD []

/-- The phy stands for any interface, or it has the name, the address and the netmask
of an entry. -/
def Real (interfaces : Option (List Ifaddrs)) (self : Phy) : Prop :=
  (self.name = anyInterface ∧ self.ip = nullIp) ∨
    ∃ entry ∈ table interfaces, entry.inetOf self.name = some self.ip ∧
      entry.ifaNetmask = self.netmask ∧ self.netmask.isSome

/-- The call throws, or it leaves a phy of a real interface, which has the address
that was set unless that is the null address. -/
def KeepsReal (interfaces : Option (List Ifaddrs)) (self : Phy) (call : Call) : Prop :=
  (perform interfaces call self).fault = none →
    Real interfaces (perform interfaces call self).state ∧
      ∀ ip, call = .ip ip → ip ≠ nullIp → (perform interfaces call self).state.ip = ip

/-- The first entry of the interface. -/
def firstNamed (interfaces : Option (List Ifaddrs)) (name : Text) : Option Ifaddrs :=
  (table interfaces).find? fun entry => (entry.inetOf name).isSome

/-- The first entry with the address. -/
def firstHolder (interfaces : Option (List Ifaddrs)) (ip : IpInt) : Option Ifaddrs :=
  (table interfaces).find? (Ifaddrs.hasIp ip)

/-- A name is any interface or in the list, unless no address is stored; the null
address is set only where it belongs to the stored name; and any other address is
the first of its interface. An entry without a netmask is not read to its end. -/
def Fits (interfaces : Option (List Ifaddrs)) (self : Phy) : Call → Prop
  | .name name => name = anyInterface ∨ interfaces = none ∨
      (firstNamed interfaces name).isSome ∨ self.ip = nullIp
  | .ip ip =>
      if ip = nullIp then
        self.name = anyInterface ∨
          ∃ entry ∈ table interfaces, entry.inetOf self.name = some nullIp ∧
            entry.ifaNetmask = self.netmask ∧ self.netmask.isSome
      else ∀ holder ∈ firstHolder interfaces ip, ∀ name ∈ holder.ifaName, name ≠ [] →
        ∀ first ∈ firstNamed interfaces name,
          first.inetOf name = some ip ∨ first.ifaNetmask = none

theorem phyAddressesFrom_eq (self : Phy) (list : List Ifaddrs) :
    self.phyAddressesFrom list =
      match list.find? fun entry => (entry.inetOf self.name).isSome with
      | none => .ok self
      | some first =>
          match first.ifaNetmask with
          | none => .error .nullPointer
          | some netmask =>
              .ok { self with
                ip := (first.inetOf self.name).getD nullIp
                netmask := some netmask } := by
  induction list with
  | nil => rfl
  | cons ifIter rest ih =>
      unfold phyAddressesFrom
      rw [List.find?_cons]
      cases found : ifIter.inetOf self.name with
      | none => exact ih
      | some ip =>
          cases netmask : ifIter.ifaNetmask with
          | none => simp only [netmask, Option.isSome_some]
          | some mask => simp only [found, netmask, Option.isSome_some, Option.getD_some]

theorem phyNameFrom_eq (ip : IpInt) (list : List Ifaddrs) :
    phyNameFrom ip list = ((list.find? (Ifaddrs.hasIp ip)).bind Ifaddrs.ifaName).getD [] := by
  induction list with
  | nil => rfl
  | cons ifIter rest ih =>
      obtain ⟨ifaName, ifaAddr, ifaNetmask⟩ := ifIter
      unfold phyNameFrom
      rw [List.find?_cons, ih]
      cases ifaAddr with
      | none => rfl
      | some addr =>
          cases addr with
          | other => rfl
          | inet address =>
              cases ifaName with
              | none => rfl
              | some name => by_cases same : ip = address <;> simp [Ifaddrs.hasIp, same]

theorem inetOf_of_hasIp {ip : IpInt} {entry : Ifaddrs} (holds : entry.hasIp ip = true) :
    ∃ name, entry.ifaName = some name ∧ entry.inetOf name = some ip := by
  obtain ⟨ifaName, ifaAddr, ifaNetmask⟩ := entry
  unfold Ifaddrs.hasIp at holds
  split at holds
  · rename_i address name addressed named
    cases addressed
    cases named
    have same : ip = address := by simpa using holds
    refine ⟨name, rfl, ?_⟩
    simp [Ifaddrs.inetOf, same]
  · cases holds

/-- What reading the addresses does to a phy, by the first entry of its interface. -/
theorem updateAddresses_spec (interfaces : Option (List Ifaddrs)) (self : Phy) :
    (interfaces = none → (self.updateAddresses interfaces).fault ≠ none) ∧
    (interfaces ≠ none → firstNamed interfaces self.name = none →
      self.updateAddresses interfaces = .done self) ∧
    ∀ first, firstNamed interfaces self.name = some first →
      first ∈ table interfaces ∧ ∃ ip, first.inetOf self.name = some ip ∧
        (first.ifaNetmask = none → (self.updateAddresses interfaces).fault ≠ none) ∧
        ∀ netmask, first.ifaNetmask = some netmask →
          self.updateAddresses interfaces =
            .done { self with ip := ip, netmask := some netmask } := by
  unfold updateAddresses phyAddresses firstNamed table
  cases interfaces with
  | none => exact ⟨fun _ => by simp, fun read => absurd rfl read, fun first found => by cases found⟩
  | some list =>
      refine ⟨fun unread => (nomatch unread), ?_, ?_⟩
      · intro _ missing
        rw [Option.getD_some] at missing
        simp only [phyAddressesFrom_eq, missing]
      · intro first found
        simp only [phyAddressesFrom_eq, Option.getD_some] at found ⊢
        have named := List.find?_some found
        obtain ⟨ip, same⟩ := Option.isSome_iff_exists.mp named
        refine ⟨List.mem_of_find?_eq_some found, ip, same, ?_, ?_⟩
        · intro unmasked
          rw [found]
          simp [unmasked]
        · intro netmask masked
          rw [found]
          simp [masked, same]

theorem setName_keepsReal_iff (interfaces : Option (List Ifaddrs)) (self : Phy) (name : Text) :
    KeepsReal interfaces self (.name name) ↔ Fits interfaces self (.name name) := by
  unfold KeepsReal Fits perform setName
  by_cases any : name = anyInterface
  · simp only [any, ↓reduceIte, true_or, iff_true]
    exact fun _ => ⟨Or.inl ⟨rfl, rfl⟩, fun ip same => by cases same⟩
  · simp only [any, ↓reduceIte, false_or]
    obtain ⟨unread, missing, found⟩ := updateAddresses_spec interfaces { self with name := name }
    by_cases read : interfaces = none
    · refine ⟨fun _ => Or.inl read, fun _ ok => ?_⟩
      exact absurd ((Outcome.andThen_fault_none_iff _ _).mp ok).1 (unread read)
    · cases first : firstNamed interfaces name with
      | none =>
          -- The stored address is that of the interface before.
          rw [missing read first, Outcome.done_andThen]
          by_cases null : self.ip = nullIp
          · simp [null]
          · simp only [null, read, ↓reduceIte, Option.isSome_none, Bool.false_eq_true, or_self,
              iff_false, Outcome.done_state]
            intro keeps
            rcases (keeps rfl).1 with isAny | ⟨entry, member, named, _⟩
            · exact any isAny.1
            · have absent := List.find?_eq_none.mp first entry member
              rw [show entry.inetOf name = some self.ip from named] at absent
              exact absent rfl
      | some entry =>
          obtain ⟨member, ip, named, unmasked, masked⟩ := found entry first
          simp only [read, Option.isSome_some, true_or, or_true, iff_true]
          intro ok
          cases mask : entry.ifaNetmask with
          | none => exact absurd ((Outcome.andThen_fault_none_iff _ _).mp ok).1 (unmasked mask)
          | some netmask =>
              rw [masked netmask mask, Outcome.done_andThen] at ok ⊢
              by_cases null : ip = nullIp
              · simp [null] at ok
              · simp only [null, ↓reduceIte, Outcome.done_state]
                refine ⟨Or.inr ⟨entry, member, named, mask, rfl⟩, ?_⟩
                intro other same
                cases same

theorem phyName_eq (interfaces : Option (List Ifaddrs)) (self : Phy) :
    self.phyName interfaces = ((firstHolder interfaces self.ip).bind Ifaddrs.ifaName).getD [] := by
  unfold phyName firstHolder table
  cases interfaces with
  | none => rfl
  | some list => exact phyNameFrom_eq self.ip list

/-- An address that is set gets the name of the first entry that has it, and with the
name the addresses of the first entry of that. -/
theorem setIp_of_holder {interfaces : Option (List Ifaddrs)} {ip : IpInt} {holder : Ifaddrs}
    {name : Text} (self : Phy) (real : ip ≠ nullIp) (held : firstHolder interfaces ip = some holder)
    (named : holder.ifaName = some name) :
    setIp interfaces ip self =
      if name = [] then .throw ⟨ip, self.netmask, name⟩
        (.runtimeError (bytes "interface not found: " ++ inetNtop ip))
      else updateAddresses interfaces ⟨ip, self.netmask, name⟩ := by
  have found : ({ self with ip := ip } : Phy).phyName interfaces = name := by
    rw [phyName_eq, held, Option.bind_some, named, Option.getD_some]
  unfold setIp
  simp only [found]
  rw [if_pos real]
  rfl

/-- An address that no entry has is refused. -/
theorem setIp_unheld {interfaces : Option (List Ifaddrs)} {ip : IpInt} (self : Phy)
    (real : ip ≠ nullIp) (unheld : firstHolder interfaces ip = none) :
    (setIp interfaces ip self).fault ≠ none := by
  have unnamed : ({ self with ip := ip } : Phy).phyName interfaces = [] := by
    rw [phyName_eq, unheld]
    rfl
  unfold setIp
  simp only [unnamed]
  rw [if_pos real, if_pos trivial]
  exact fun returned => (nomatch returned)

theorem firstNamed_isSome_of_holder {interfaces : Option (List Ifaddrs)} {ip : IpInt}
    {holder : Ifaddrs} {name : Text} (held : firstHolder interfaces ip = some holder)
    (inet : holder.inetOf name = some ip) : (firstNamed interfaces name).isSome := by
  unfold firstNamed
  rw [List.find?_isSome]
  exact ⟨holder, List.mem_of_find?_eq_some held, by rw [inet]; rfl⟩

theorem setIp_keepsReal_iff (interfaces : Option (List Ifaddrs)) (self : Phy) (ip : IpInt) :
    KeepsReal interfaces self (.ip ip) ↔ Fits interfaces self (.ip ip) := by
  unfold KeepsReal Fits perform
  by_cases null : ip = nullIp
  · subst null
    simp [Real, setIp]
  · simp only [null, ↓reduceIte]
    cases held : firstHolder interfaces ip with
    | none =>
        refine ⟨fun _ holder member => (nomatch member), ?_⟩
        exact fun _ ok => absurd ok (setIp_unheld self null held)
    | some holder =>
        obtain ⟨name, holderName, holderIp⟩ := inetOf_of_hasIp (List.find?_some held)
        simp only [setIp_of_holder self null held holderName, holderName, Option.mem_def,
          Option.some.injEq, forall_eq']
        by_cases unnamed : name = []
        · simp [unnamed]
        · obtain ⟨first, same⟩ :=
            Option.isSome_iff_exists.mp (firstNamed_isSome_of_holder held holderIp)
          obtain ⟨_, _, found⟩ := updateAddresses_spec interfaces ⟨ip, self.netmask, name⟩
          obtain ⟨member, address, inet, unmasked, masked⟩ := found first same
          have addressed : first.inetOf name = some address := inet
          simp only [unnamed, ↓reduceIte, same, Option.some.injEq, forall_eq', ne_eq,
            not_false_eq_true, forall_const, addressed]
          cases mask : first.ifaNetmask with
          | none => exact ⟨fun _ => Or.inr rfl, fun _ ok => absurd ok (unmasked mask)⟩
          | some netmask =>
              rw [masked netmask mask]
              simp only [Outcome.done_fault, Outcome.done_state, forall_const, reduceCtorEq,
                or_false]
              refine ⟨?_, ?_⟩
              · intro keeps
                exact keeps.2 ip rfl null
              · intro own
                refine ⟨Or.inr ⟨first, member, inet, mask, rfl⟩, ?_⟩
                intro other equal _
                rw [own, Call.ip.inj equal]

theorem keepsReal_iff_fits (interfaces : Option (List Ifaddrs)) (self : Phy) (call : Call) :
    KeepsReal interfaces self call ↔ Fits interfaces self call := by
  cases call with
  | name name => exact setName_keepsReal_iff interfaces self name
  | ip ip => exact setIp_keepsReal_iff interfaces self ip

/-- The constructor from a name is the setter on a phy without an address. -/
theorem setName_of_ofName {interfaces : Option (List Ifaddrs)} {name : Text} {phy : Phy}
    (made : ofName interfaces name = .ok phy) :
    setName interfaces name ⟨nullIp, none, name⟩ = .done phy := by
  unfold ofName at made
  unfold setName updateAddresses
  by_cases any : name = anyInterface
  · rw [if_pos any] at made ⊢
    cases made
    rfl
  · simp only [any, ↓reduceIte] at made ⊢
    cases found : phyAddresses interfaces ⟨nullIp, none, name⟩ with
    | error error =>
        rw [found] at made
        cases made
    | ok addressed =>
        simp only [found, Outcome.done_andThen] at made ⊢
        split at made
        · cases made
        · rename_i address
          cases made
          exact if_neg address

/-- It starts from the null address, so a name that is not found is noticed. -/
theorem ofName_real {interfaces : Option (List Ifaddrs)} {name : Text} {phy : Phy}
    (made : ofName interfaces name = .ok phy) : Real interfaces phy := by
  have set := setName_of_ofName made
  have keeps := (setName_keepsReal_iff interfaces ⟨nullIp, none, name⟩ name).mpr
    (Or.inr (Or.inr (Or.inr rfl)))
  unfold KeepsReal perform at keeps
  simp only [set] at keeps
  exact (keeps rfl).1

theorem construct_real {interfaces : Option (List Ifaddrs)} {name : Option Text} {phy : Phy}
    (made : construct interfaces name = .ok phy) : Real interfaces phy := by
  cases name with
  | none =>
      cases made
      exact Or.inl ⟨rfl, rfl⟩
  | some name => exact ofName_real made

/-- A phy is constructed for a real interface. Over any calls of its setters it stays
so, after each that returns, exactly if each of them fits what is stored then. -/
theorem setters_keepReal_iff (interfaces : Option (List Ifaddrs)) (name : Option Text) (phy : Phy)
    (made : construct interfaces name = .ok phy) (calls : List Call) :
    Real interfaces phy ∧
      ((machine interfaces).EachStep (KeepsReal interfaces) phy calls ↔
        (machine interfaces).EachStep (Fits interfaces) phy calls) := by
  refine ⟨construct_real made, ?_⟩
  refine ⟨?_, ?_⟩
  · exact fun keeps => keeps.imp fun self call => (keepsReal_iff_fits interfaces self call).mp
  · exact fun fits => fits.imp fun self call => (keepsReal_iff_fits interfaces self call).mpr

/-- The loopback, and a card with the addresses 192.168.0.10 and 192.168.0.11. -/
def twoAddresses : List Ifaddrs :=
  [⟨some (bytes "lo"), some (.inet loopbackIp), some 0x000000ff⟩,
    ⟨some (bytes "eth0"), some (.inet 0x0a00a8c0), some 0x00ffffff⟩,
    ⟨some (bytes "eth0"), some (.inet 0x0b00a8c0), some 0x00ffffff⟩]

theorem setters_keepReal_twoAddresses :
    Real (some twoAddresses) any ∧
      ((machine (some twoAddresses)).EachStep (KeepsReal (some twoAddresses)) any
          [.name (bytes "eth0"), .ip loopbackIp, .ip 0x0b00a8c0] ↔
        (machine (some twoAddresses)).EachStep (Fits (some twoAddresses)) any
          [.name (bytes "eth0"), .ip loopbackIp, .ip 0x0b00a8c0]) :=
  setters_keepReal_iff (some twoAddresses) none any rfl
    [.name (bytes "eth0"), .ip loopbackIp, .ip 0x0b00a8c0]

/-- Each setter leaves a phy of no interface, or of another address: an unknown name
with the address of the interface before, the null address with its name, and the
first address of a card for its second. -/
theorem setters_leave_unreal :
    ¬ (∀ calls, (machine (some twoAddresses)).EachStep (KeepsReal (some twoAddresses)) any calls) ∧
      ¬ KeepsReal (some twoAddresses) ⟨loopbackIp, some 0x000000ff, bytes "lo"⟩
        (.name (bytes "wlan0")) ∧
      ¬ KeepsReal (some twoAddresses) ⟨loopbackIp, some 0x000000ff, bytes "lo"⟩ (.ip nullIp) ∧
      ¬ KeepsReal (some twoAddresses) any (.ip 0x0b00a8c0) := by
  have unknown : ¬ KeepsReal (some twoAddresses) ⟨loopbackIp, some 0x000000ff, bytes "lo"⟩
      (.name (bytes "wlan0")) := by
    rw [keepsReal_iff_fits]
    unfold Fits
    decide
  refine ⟨?_, unknown, ?_, ?_⟩
  · intro keeps
    exact unknown (keeps [.name (bytes "lo"), .name (bytes "wlan0")]).2.1
  · rw [keepsReal_iff_fits]
    unfold Fits
    decide
  · intro keeps
    exact absurd ((keeps rfl).2 0x0b00a8c0 rfl (by decide)) (by decide)

end Phy

end OctopusMq
