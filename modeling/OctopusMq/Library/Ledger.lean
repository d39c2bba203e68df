import Mathlib.Data.List.Basic
import Mathlib.Tactic.TypeStar

set_option autoImplicit false

/- A queue whose items are handed to every destination they are eligible for when
they are taken, with what has been pushed and handed over so far. -/
namespace Broadcast

/-- The items ever pushed, those not taken yet, and those handed to each destination. -/
@[ext] structure Ledger (δ α : Type*) where
  pushed : List α
  pending : List α
  handed : δ → List α

namespace Ledger

variable {δ α : Type*}

/-- Append items to the queue. -/
def push (ledger : Ledger δ α) (items : List α) : Ledger δ α :=
  { ledger with pushed := ledger.pushed ++ items, pending := ledger.pending ++ items }

/-- Take one item from the front. -/
def take (eligible : δ → α → Bool) (ledger : Ledger δ α) : Ledger δ α :=
  match ledger.pending with
  | [] => ledger
  | item :: rest =>
      { ledger with
        pending := rest
        handed := fun dest => ledger.handed dest ++ [item].filter (eligible dest) }

/-- Take all items. -/
def drain (eligible : δ → α → Bool) (ledger : Ledger δ α) : Ledger δ α :=
  { ledger with
    pending := []
    handed := fun dest => ledger.handed dest ++ ledger.pending.filter (eligible dest) }

/-- Every destination has been handed, in order and once each, the pushed items
it is eligible for, but for those still pending. -/
def Balanced (eligible : δ → α → Bool) (ledger : Ledger δ α) : Prop :=
  ∀ dest, ledger.handed dest ++ ledger.pending.filter (eligible dest) =
    ledger.pushed.filter (eligible dest)

variable (eligible : δ → α → Bool)

theorem balanced_empty : Balanced eligible ⟨[], [], fun _ => []⟩ := fun _ => rfl

variable {eligible}

theorem Balanced.push {ledger : Ledger δ α} (balanced : Balanced eligible ledger)
    (items : List α) : Balanced eligible (ledger.push items) := by
  intro dest
  unfold Ledger.push
  rw [List.filter_append, List.filter_append, ← List.append_assoc, balanced dest]

theorem Balanced.drain {ledger : Ledger δ α} (balanced : Balanced eligible ledger) :
    Balanced eligible (ledger.drain eligible) := by
  intro dest
  unfold Ledger.drain
  rw [List.filter_nil, List.append_nil]
  exact balanced dest

@[simp] theorem push_nil (ledger : Ledger δ α) : ledger.push [] = ledger := by
  unfold push
  rw [List.append_nil, List.append_nil]

/-- Hand an item to a destination, and leave it pending. -/
def hand [DecidableEq δ] (ledger : Ledger δ α) (dest : δ) (item : α) : Ledger δ α :=
  { ledger with
    handed := fun other =>
      if dest = other then ledger.handed other ++ [item] else ledger.handed other }

/-- Drop the front item. -/
def drop (ledger : Ledger δ α) : Ledger δ α := { ledger with pending := ledger.pending.tail }

/-- Only the item in front may have been handed to some and not to others yet. -/
def Passing (eligible : δ → α → Bool) (ledger : Ledger δ α) : Prop :=
  ∀ dest, ledger.handed dest ++ ledger.pending.filter (eligible dest) =
      ledger.pushed.filter (eligible dest) ∨
    ledger.handed dest ++ ledger.pending.tail.filter (eligible dest) =
      ledger.pushed.filter (eligible dest)

/-- The front item is being handed around, and the destinations of `served` are done. -/
structure Midway (eligible : δ → α → Bool) (item : α) (rest : List α) (served : List δ)
    (ledger : Ledger δ α) : Prop where
  pending : ledger.pending = item :: rest
  done : ∀ dest ∈ served, ledger.handed dest ++ rest.filter (eligible dest) =
    ledger.pushed.filter (eligible dest)
  waiting : ∀ dest, dest ∉ served →
    ledger.handed dest ++ (item :: rest).filter (eligible dest) =
      ledger.pushed.filter (eligible dest)

theorem Balanced.passing {ledger : Ledger δ α} (balanced : Balanced eligible ledger) :
    Passing eligible ledger := fun dest => Or.inl (balanced dest)

theorem Balanced.midway {ledger : Ledger δ α} (balanced : Balanced eligible ledger) {item : α}
    {rest : List α} (front : ledger.pending = item :: rest) :
    Midway eligible item rest [] ledger := by
  refine ⟨front, fun _ member => (nomatch member), ?_⟩
  intro dest _
  rw [← front]
  exact balanced dest

theorem Midway.passing {ledger : Ledger δ α} {item : α} {rest : List α} {served : List δ}
    (midway : Midway eligible item rest served ledger) : Passing eligible ledger := by
  intro dest
  rw [midway.pending]
  by_cases member : dest ∈ served
  · exact Or.inr (midway.done dest member)
  · exact Or.inl (midway.waiting dest member)

/-- A destination that is not eligible is done without the item. -/
theorem Midway.skip {ledger : Ledger δ α} {item : α} {rest : List α} {served : List δ}
    (midway : Midway eligible item rest served ledger) {dest : δ} (absent : dest ∉ served)
    (refused : eligible dest item = false) :
    Midway eligible item rest (served ++ [dest]) ledger := by
  refine ⟨midway.pending, ?_, ?_⟩
  · intro other member
    rcases List.mem_append.mp member with before | now
    · exact midway.done other before
    · rw [List.mem_singleton.mp now]
      have still := midway.waiting dest absent
      rwa [List.filter_cons_of_neg (by simp [refused])] at still
  · intro other outside
    exact midway.waiting other fun member => outside (List.mem_append_left _ member)

/-- A destination that is eligible is handed the item. -/
theorem Midway.hand [DecidableEq δ] {ledger : Ledger δ α} {item : α} {rest : List α}
    {served : List δ} (midway : Midway eligible item rest served ledger) {dest : δ}
    (absent : dest ∉ served) (wanted : eligible dest item = true) :
    Midway eligible item rest (served ++ [dest]) (ledger.hand dest item) := by
  refine ⟨midway.pending, ?_, ?_⟩
  · intro other member
    by_cases same : dest = other
    · subst same
      have still := midway.waiting dest absent
      rw [List.filter_cons_of_pos wanted] at still
      simp only [Ledger.hand, ↓reduceIte, List.append_assoc, List.singleton_append]
      exact still
    · simp only [Ledger.hand, same, ↓reduceIte]
      rcases List.mem_append.mp member with before | now
      · exact midway.done other before
      · exact absurd (List.mem_singleton.mp now).symm same
  · intro other outside
    have apart : dest ≠ other := by
      intro same
      apply outside
      rw [same]
      exact List.mem_append_right _ (List.mem_singleton_self other)
    simp only [Ledger.hand, apart, ↓reduceIte]
    exact midway.waiting other fun member => outside (List.mem_append_left _ member)

/-- Once all eligible destinations are done, the item may go. -/
theorem Midway.drop {ledger : Ledger δ α} {item : α} {rest : List α} {served : List δ}
    (midway : Midway eligible item rest served ledger)
    (all : ∀ dest, eligible dest item = true → dest ∈ served) :
    Balanced eligible ledger.drop := by
  intro dest
  show ledger.handed dest ++ ledger.pending.tail.filter (eligible dest) = _
  rw [midway.pending, List.tail_cons]
  by_cases member : dest ∈ served
  · exact midway.done dest member
  · have refused : ¬ eligible dest item = true := fun wanted => member (all dest wanted)
    have still := midway.waiting dest member
    rwa [List.filter_cons_of_neg refused] at still

end Ledger

end Broadcast
