import OctopusMq.Subscribing
import OctopusMq.Delivery

set_option autoImplicit false

/- What each handler changes in `_connections`, `_meta` and `_subs`. -/
namespace OctopusMq

open Imperative OrderedTable Transition

variable {Opts Property : Type}

namespace Broker

/-- `_meta` has an entry for the connection. -/
def Known (self : Broker) (con : Connection) : Prop := (self.metadata con).isSome

/-- One of the three containers holds the connection. -/
def Traces (self : Broker) (con : Connection) : Prop :=
  con ∈ self.connections ∨ self.Known con ∨ ∃ sub ∈ self.subs.entries, sub.con = con

theorem known_updateMetadata (self : Broker) (con other : Connection)
    (write : Metadata → Metadata) :
    (self.updateMetadata con write).Known other ↔ other = con ∨ self.Known other := by
  unfold Known updateMetadata
  by_cases same : other = con
  · simp [same]
  · simp [same]

theorem known_touch (self : Broker) (con other : Connection) :
    (self.touch con).Known other ↔ other = con ∨ self.Known other :=
  known_updateMetadata self con other id

/-- The connections, the keys of `_meta` and the table are as before. -/
structure Keeps (before after : Broker) : Prop where
  connections : after.connections = before.connections
  known : ∀ con, after.Known con ↔ before.Known con
  subs : after.subs = before.subs

/-- No more than the table has changed, by subscriptions of `con` to accepted filters. -/
structure Serves (con : Connection) (before after : Broker) : Prop where
  connections : after.connections = before.connections
  known : ∀ other, after.Known other ↔ before.Known other
  subs : ∀ sub ∈ after.subs.entries,
    sub ∈ before.subs.entries ∨ sub.con = con ∧ Scope.Accepted sub.topicFilter

/-- A new key of `_meta`. -/
structure Arrives (con : Connection) (before after : Broker) : Prop where
  connections : after.connections = before.connections
  known : ∀ other, after.Known other ↔ other = con ∨ before.Known other
  subs : after.subs = before.subs

/-- A new member of `_connections`. -/
structure Registers (con : Connection) (before after : Broker) : Prop where
  connections : after.connections = insert con before.connections
  known : ∀ other, after.Known other ↔ before.Known other
  subs : after.subs = before.subs

/-- The connection is gone from all three containers, and nothing else is. -/
structure Leaves (con : Connection) (before after : Broker) : Prop where
  connections : after.connections = before.connections.erase con
  known : ∀ other, after.Known other ↔ other ≠ con ∧ before.Known other
  subs : ∀ sub, sub ∈ after.subs.entries ↔ sub ∈ before.subs.entries ∧ sub.con ≠ con

theorem Keeps.refl (self : Broker) : Keeps self self := ⟨rfl, fun _ => Iff.rfl, rfl⟩

theorem Keeps.trans {first second third : Broker} (left : Keeps first second)
    (right : Keeps second third) : Keeps first third :=
  ⟨right.connections.trans left.connections, fun con => (right.known con).trans (left.known con),
    right.subs.trans left.subs⟩

/-- Reading `_meta` at a key that is there. -/
theorem keeps_touch (self : Broker) (con : Connection) (known : self.Known con) :
    Keeps self (self.touch con) := by
  refine ⟨rfl, ?_, rfl⟩
  intro other
  rw [known_touch]
  refine ⟨?_, Or.inr⟩
  intro cases
  rcases cases with same | old
  · rw [same]
    exact known
  · exact old

theorem closeConnection_leaves (self : Broker) (con : Connection) :
    Leaves con self (self.closeConnection con) := by
  refine ⟨?_, ?_, ?_⟩
  · unfold closeConnection closeLocked closeUnlocked
    exact Finset.erase_idem
  · intro other
    unfold closeConnection closeLocked closeUnlocked Known
    by_cases same : other = con
    · simp [same]
    · simp [same]
  · intro sub
    unfold closeConnection closeLocked closeUnlocked
    rw [Table.mem_eraseWhere]
    simp

/-- Closing a connection whose entry of `_meta` was just read. -/
theorem touch_closeConnection_leaves (self : Broker) (con : Connection) :
    Leaves con self ((self.touch con).closeConnection con) := by
  have leaves := closeConnection_leaves (self.touch con) con
  refine ⟨leaves.connections, ?_, leaves.subs⟩
  intro other
  rw [leaves.known, known_touch]
  refine ⟨?_, fun old => ⟨old.1, Or.inr old.2⟩⟩
  intro cases
  refine ⟨cases.1, ?_⟩
  rcases cases.2 with same | old
  · exact absurd same cases.1
  · exact old

theorem connectWith_registers (version : Version) (con : Connection) (clientId : Text)
    (self : Broker) (known : self.Known con) :
    Registers con self (connectWith version con clientId self : Result Property).state := by
  refine ⟨rfl, ?_, rfl⟩
  intro other
  have updated := known_updateMetadata { self with connections := insert con self.connections }
    con other fun old => { old with clientId := clientId, protocolVersion := version }
  refine updated.trans ⟨?_, Or.inr⟩
  intro cases
  rcases cases with same | old
  · rw [same]
    exact known
  · exact old

/-- The delivery loop reads `_meta` only at connections of the table. -/
theorem forEach_deliver_keeps (connected : Connection → Bool) (topicName : Text)
    (packet : Subscription → Option (Packet Property)) (self state : Broker)
    (known : ∀ sub ∈ self.subs.entries, self.Known sub.con) (start : Keeps self state) :
    Keeps self
      (Outcome.forEach (deliver connected topicName packet) self.subs.entries state).state := by
  apply Outcome.forEach_invariant (Keeps self) _ _ _ state start
  intro sub member other keeps
  have touched : Keeps self (other.touch sub.con) :=
    keeps.trans (keeps_touch other sub.con ((keeps.known sub.con).mpr (known sub member)))
  by_cases served : Served connected topicName packet sub
  · rw [deliver_state_of_served _ _ _ other served]
    exact touched
  · rw [deliver_state_of_not_served _ _ _ other served]
    exact keeps

/-- The publish handlers: their loop and `share`. -/
theorem forEach_deliver_share_keeps (lib : OptionsApi Opts) (connected : Connection → Bool)
    (topicName contents : Text) (packet : Subscription → Option (Packet Property))
    (pubopts : Opts) (version : Version) (props : List Property) (con : Connection)
    (self : Broker) (known : ∀ sub ∈ self.subs.entries, self.Known sub.con)
    (publisher : self.Known con) :
    Keeps self
      ((Outcome.forEach (deliver connected topicName packet) self.subs.entries
        (self.touch con)).andThen (share lib topicName contents pubopts version props)).state := by
  rw [andThen_share_eq]
  exact forEach_deliver_keeps connected topicName packet self (self.touch con) known
    (keeps_touch self con publisher)

theorem subscribeWith_serves {Code : Type}
    (subscription : Text → SubscribeOptions → Subscription) (granted : Qos → Code)
    (refused : Code) (suback : List Code → Packet Property) (con : Connection)
    (keyed : ∀ filter options, (subscription filter options).key = (con, filter))
    (entries : List (Text × SubscribeOptions)) (self : Broker) (known : self.Known con) :
    Serves con self
      (subscribeWith subscription granted refused suback con entries self).state := by
  have keeps := keeps_touch self con known
  rw [subscribeWith_eq]
  refine ⟨rfl, keeps.known, ?_⟩
  change ∀ sub ∈ ((requested subscription entries).foldl Table.emplace self.subs).entries,
    sub ∈ self.subs.entries ∨ sub.con = con ∧ Scope.Accepted sub.topicFilter
  apply Table.forall_mem_foldl_emplace
  · exact fun sub member => Or.inl member
  · intro sub member
    obtain ⟨entry, inside, same⟩ := List.mem_map.mp member
    have accepted : Scope.Accepted entry.1 := by simpa using (List.mem_filter.mp inside).2
    have key := keyed entry.1 entry.2
    rw [same] at key
    refine Or.inr ⟨congrArg Prod.fst key, ?_⟩
    have filter : sub.topicFilter = entry.1 := congrArg Prod.snd key
    rw [filter]
    exact accepted

theorem unsubscribe_serves (con : Connection) (packetId : UInt16) (topics : List Text)
    (self : Broker) (known : self.Known con) :
    Serves con self (unsubscribe con packetId topics self : Result Property).state := by
  refine ⟨rfl, (keeps_touch self con known).known, ?_⟩
  intro sub member
  rw [unsubscribe_entries] at member
  exact Or.inl (List.mem_filter.mp member).1

/-- What the handler of an event does to the three containers. -/
def Changes (before after : Broker) : Event Opts Property → Prop
  | .accept con (some _) => Arrives con before after
  | .accept _ none => after = before
  | .close con => Leaves con before after
  | .error con => if con ∈ before.connections then Leaves con before after else after = before
  | .connect _ con _ => Registers con before after
  | .disconnect _ con => Leaves con before after
  | .subscribe _ con _ _ => Serves con before after
  | .unsubscribe _ con _ _ => Serves con before after
  | _ => Keeps before after

end Broker

end OctopusMq
