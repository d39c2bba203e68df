import Mathlib.Data.List.Sort
import Mathlib.Data.List.Nodup

set_option autoImplicit false

/- An indexed container: entries are listed by a non-unique rank, equal ranks in
insertion order, and a second, unique key refuses duplicates. -/
namespace OrderedTable

variable {α ρ κ : Type*} [LinearOrder ρ]

/-- The entries in rank order. No two of them share a key. -/
structure Table (rank : α → ρ) (key : α → κ) where
  entries : List α
  sorted : entries.Pairwise (fun first second => rank first ≤ rank second)
  distinct : (entries.map key).Nodup

/-- Insertion after all entries of the same rank. -/
def insertSorted (rank : α → ρ) (item : α) (entries : List α) : List α :=
  entries.orderedInsert (fun first second => rank first < rank second) item

theorem mem_insertSorted (rank : α → ρ) (item other : α) (entries : List α) :
    other ∈ insertSorted rank item entries ↔ other = item ∨ other ∈ entries :=
  List.mem_orderedInsert _

theorem insertSorted_sorted (rank : α → ρ) (item : α) (entries : List α)
    (sorted : entries.Pairwise (fun first second => rank first ≤ rank second)) :
    (insertSorted rank item entries).Pairwise
      (fun first second => rank first ≤ rank second) := by
  induction entries with
  | nil => simp [insertSorted]
  | cons first rest ih =>
      obtain ⟨least, tail⟩ := List.pairwise_cons.mp sorted
      unfold insertSorted
      rw [List.orderedInsert_cons]
      by_cases before : rank item < rank first
      · rw [if_pos before, List.pairwise_cons]
        refine ⟨?_, sorted⟩
        intro other member
        rcases List.mem_cons.mp member with same | later
        · rw [same]
          exact le_of_lt before
        · exact le_of_lt (lt_of_lt_of_le before (least other later))
      · rw [if_neg before, List.pairwise_cons]
        refine ⟨?_, ih tail⟩
        intro other member
        rcases (mem_insertSorted rank item other rest).mp member with same | later
        · rw [same]
          exact le_of_not_gt before
        · exact least other later

theorem insertSorted_distinct (rank : α → ρ) (key : α → κ) (item : α) (entries : List α)
    (distinct : (entries.map key).Nodup) (absent : key item ∉ entries.map key) :
    ((insertSorted rank item entries).map key).Nodup := by
  have perm := (List.perm_orderedInsert (fun first second => rank first < rank second)
    item entries).map key
  rw [insertSorted, perm.nodup_iff, List.map_cons, List.nodup_cons]
  exact ⟨absent, distinct⟩

/-- An insertion does not show among the entries that are kept when the item is not. -/
theorem filter_insertSorted_of_dropped (rank : α → ρ) (keep : α → Bool) (item : α)
    (entries : List α) (dropped : keep item = false) :
    (insertSorted rank item entries).filter keep = entries.filter keep := by
  induction entries with
  | nil => simp [insertSorted, dropped]
  | cons first rest ih =>
      unfold insertSorted at ih ⊢
      rw [List.orderedInsert_cons]
      by_cases before : rank item < rank first
      · rw [if_pos before, List.filter_cons_of_neg (by simp [dropped])]
      · rw [if_neg before, List.filter_cons, List.filter_cons, ih]

/-- Insertion and filtering commute when the item is kept. The entries must be
sorted: the place of the item is then the same among those that are kept. -/
theorem filter_insertSorted_of_kept (rank : α → ρ) (keep : α → Bool) (item : α)
    (entries : List α)
    (sorted : entries.Pairwise (fun first second => rank first ≤ rank second))
    (kept : keep item = true) :
    (insertSorted rank item entries).filter keep =
      insertSorted rank item (entries.filter keep) := by
  induction entries with
  | nil => simp [insertSorted, kept]
  | cons first rest ih =>
      obtain ⟨least, tail⟩ := List.pairwise_cons.mp sorted
      have later := ih tail
      unfold insertSorted at later ⊢
      rw [List.orderedInsert_cons]
      by_cases before : rank item < rank first
      · rw [if_pos before, List.filter_cons_of_pos kept]
        -- All entries lie behind the item, so all that are kept do.
        cases same : (first :: rest).filter keep with
        | nil => rfl
        | cons other others =>
            have inside : other ∈ (first :: rest).filter keep := by
              rw [same]
              exact List.mem_cons_self
            have member := (List.mem_filter.mp inside).1
            have behind : rank item < rank other := by
              rcases List.mem_cons.mp member with here | later
              · rw [here]
                exact before
              · exact lt_of_lt_of_le before (least other later)
            rw [List.orderedInsert_cons, if_pos behind]
      · rw [if_neg before]
        by_cases stays : keep first = true
        · rw [List.filter_cons_of_pos stays, List.filter_cons_of_pos stays, later,
            List.orderedInsert_cons, if_neg before]
        · rw [List.filter_cons_of_neg stays, List.filter_cons_of_neg stays, later]

namespace Table

variable {rank : α → ρ} {key : α → κ}

/-- A container is what it lists. -/
theorem ext_entries {table other : Table rank key} (same : table.entries = other.entries) :
    table = other := by
  cases table
  cases other
  cases same
  rfl

def empty : Table rank key := ⟨[], .nil, by simp⟩

/-- Erase the entries that satisfy `doomed`. -/
def eraseWhere (table : Table rank key) (doomed : α → Bool) : Table rank key where
  entries := table.entries.filter (fun item => !doomed item)
  sorted := table.sorted.sublist List.filter_sublist
  distinct := table.distinct.sublist (List.filter_sublist.map key)

@[simp] theorem empty_entries : (empty : Table rank key).entries = [] := rfl

@[simp] theorem eraseWhere_entries (table : Table rank key) (doomed : α → Bool) :
    (table.eraseWhere doomed).entries = table.entries.filter (fun item => !doomed item) := rfl

theorem mem_eraseWhere (table : Table rank key) (doomed : α → Bool) (item : α) :
    item ∈ (table.eraseWhere doomed).entries ↔ item ∈ table.entries ∧ doomed item = false := by
  simp only [eraseWhere_entries, List.mem_filter, Bool.not_eq_eq_eq_not, Bool.not_true]

theorem eq_of_key_eq (table : Table rank key) {first second : α}
    (left : first ∈ table.entries) (right : second ∈ table.entries)
    (same : key first = key second) : first = second :=
  List.inj_on_of_nodup_map table.distinct left right same

variable [DecidableEq κ]

/-- Insert unless the key is taken; then the container stays as it is. -/
def emplace (table : Table rank key) (item : α) : Table rank key :=
  if absent : key item ∉ table.entries.map key then
    { entries := insertSorted rank item table.entries
      sorted := insertSorted_sorted rank item table.entries table.sorted
      distinct := insertSorted_distinct rank key item table.entries table.distinct absent }
  else table

/-- The entry of a key. -/
def lookup (table : Table rank key) (k : κ) : Option α :=
  table.entries.find? (fun item => key item = k)

/-- An entry after `emplace` is an old one or the new item. -/
theorem mem_of_mem_emplace {table : Table rank key} {item other : α}
    (member : other ∈ (table.emplace item).entries) : other ∈ table.entries ∨ other = item := by
  unfold emplace at member
  split at member
  · exact ((mem_insertSorted rank item other table.entries).mp member).symm
  · exact Or.inl member

theorem mem_emplace_of_mem {table : Table rank key} {other : α} (item : α)
    (member : other ∈ table.entries) : other ∈ (table.emplace item).entries := by
  unfold emplace
  split
  · exact (mem_insertSorted rank item other table.entries).mpr (Or.inr member)
  · exact member

theorem mem_emplace_self {table : Table rank key} {item : α}
    (absent : key item ∉ table.entries.map key) : item ∈ (table.emplace item).entries := by
  unfold emplace
  rw [dif_pos absent]
  exact (mem_insertSorted rank item item table.entries).mpr (Or.inl rfl)

/-- The unique key makes `lookup` exact. -/
theorem lookup_eq_some_iff (table : Table rank key) (k : κ) (item : α) :
    table.lookup k = some item ↔ item ∈ table.entries ∧ key item = k := by
  unfold lookup
  refine ⟨?_, ?_⟩
  · intro found
    exact ⟨List.mem_of_find?_eq_some found, by simpa using List.find?_some found⟩
  · intro present
    obtain ⟨member, same⟩ := present
    cases found : table.entries.find? (fun item => decide (key item = k)) with
    | none =>
        have missing := List.find?_eq_none.mp found item member
        simp [same] at missing
    | some other =>
        have inside := List.mem_of_find?_eq_some found
        have keyed : key other = k := by simpa using List.find?_some found
        rw [table.eq_of_key_eq inside member (keyed.trans same.symm)]

/-- The entry of a key is the only one with it. -/
theorem mem_and_key_eq_iff {table : Table rank key} {k : κ} {item : α}
    (found : table.lookup k = some item) (other : α) :
    other ∈ table.entries ∧ key other = k ↔ other = item := by
  have present := (table.lookup_eq_some_iff k item).mp found
  refine ⟨?_, fun same => same ▸ present⟩
  intro there
  exact table.eq_of_key_eq there.1 present.1 (there.2.trans present.2.symm)

theorem lookup_eq_none_iff (table : Table rank key) (k : κ) :
    table.lookup k = none ↔ k ∉ table.entries.map key := by
  simp only [lookup, List.find?_eq_none, decide_eq_true_eq, List.mem_map, not_exists, not_and]

/-- The entry of a key after an erasure that spares or dooms all of the key. -/
theorem lookup_of_mem_iff {table after : Table rank key} {k : κ} (stays : Prop) [Decidable stays]
    (same : ∀ item, key item = k → (item ∈ after.entries ↔ item ∈ table.entries ∧ stays)) :
    after.lookup k = if stays then table.lookup k else none := by
  ext1 item
  rw [lookup_eq_some_iff]
  by_cases spared : stays
  · rw [if_pos spared, lookup_eq_some_iff]
    refine ⟨fun here => ⟨((same item here.2).mp here.1).1, here.2⟩, ?_⟩
    exact fun there => ⟨(same item there.2).mpr ⟨there.1, spared⟩, there.2⟩
  · rw [if_neg spared]
    refine ⟨?_, fun found => (nomatch found)⟩
    exact fun here => absurd ((same item here.2).mp here.1).2 spared

/-- The first insertion under a key decides: later ones change nothing. -/
theorem lookup_emplace (table : Table rank key) (item : α) (k : κ) :
    (table.emplace item).lookup k =
      (table.lookup k).or (if key item = k then some item else none) := by
  cases found : table.lookup k with
  | some old =>
      have present := (table.lookup_eq_some_iff k old).mp found
      rw [Option.some_or, lookup_eq_some_iff]
      exact ⟨mem_emplace_of_mem item present.1, present.2⟩
  | none =>
      have absent := (table.lookup_eq_none_iff k).mp found
      rw [Option.none_or]
      by_cases same : key item = k
      · rw [if_pos same, lookup_eq_some_iff]
        exact ⟨mem_emplace_self (same ▸ absent), same⟩
      · rw [if_neg same, lookup_eq_none_iff]
        intro present
        obtain ⟨other, member, keyed⟩ := List.mem_map.mp present
        rcases mem_of_mem_emplace member with old | new
        · exact absent (List.mem_map.mpr ⟨other, old, keyed⟩)
        · exact same (new ▸ keyed)

/-- Over a list of insertions: what was stored, else the first item of the key. -/
theorem lookup_foldl_emplace (items : List α) (table : Table rank key) (k : κ) :
    (items.foldl emplace table).lookup k =
      (table.lookup k).or (items.find? (fun item => key item = k)) := by
  induction items generalizing table with
  | nil => simp
  | cons item rest ih =>
      rw [List.foldl_cons, ih, lookup_emplace, Option.or_assoc, List.find?_cons]
      by_cases same : key item = k <;> simp [same]

/-- The keys after a list of insertions: the old ones and those of the items. -/
theorem mem_keys_foldl_emplace (items : List α) (table : Table rank key) (k : κ) :
    k ∈ (items.foldl emplace table).entries.map key ↔
      k ∈ table.entries.map key ∨ k ∈ items.map key := by
  rw [← not_iff_not, not_or, ← lookup_eq_none_iff, ← lookup_eq_none_iff, lookup_foldl_emplace,
    Option.or_eq_none_iff, List.find?_eq_none]
  simp only [decide_eq_true_eq, List.mem_map, not_exists, not_and]

/-- Insertion and erasure commute when the item is spared and entries of one key
are erased together. -/
theorem emplace_eraseWhere (table : Table rank key) (doomed : α → Bool) (item : α)
    (keyed : ∀ other, key other = key item → doomed other = doomed item)
    (spared : doomed item = false) :
    (table.emplace item).eraseWhere doomed = (table.eraseWhere doomed).emplace item := by
  apply ext_entries
  have keys : key item ∈ (table.eraseWhere doomed).entries.map key ↔
      key item ∈ table.entries.map key := by
    simp only [List.mem_map, mem_eraseWhere]
    refine ⟨?_, ?_⟩
    · rintro ⟨other, member, same⟩
      exact ⟨other, member.1, same⟩
    · rintro ⟨other, member, same⟩
      exact ⟨other, ⟨member, (keyed other same).trans spared⟩, same⟩
  unfold emplace
  by_cases taken : key item ∈ table.entries.map key
  · rw [dif_neg (not_not_intro taken), dif_neg (not_not_intro (keys.mpr taken))]
  · rw [dif_pos taken, dif_pos (mt keys.mp taken)]
    exact filter_insertSorted_of_kept rank _ item table.entries table.sorted (by simp [spared])

theorem foldl_emplace_eraseWhere (doomed : α → Bool) (items : List α) (table : Table rank key)
    (keyed : ∀ first second, key first = key second → doomed first = doomed second)
    (spared : ∀ item ∈ items, doomed item = false) :
    (items.foldl emplace table).eraseWhere doomed =
      items.foldl emplace (table.eraseWhere doomed) := by
  induction items generalizing table with
  | nil => rfl
  | cons first rest ih =>
      rw [List.foldl_cons, ih _ fun item member => spared item (List.mem_cons_of_mem first member),
        emplace_eraseWhere table doomed first (fun other same => keyed other first same)
          (spared first List.mem_cons_self), List.foldl_cons]

/-- Insertions under doomed keys leave the entries that are not doomed as they were. -/
theorem filter_foldl_emplace_of_dropped (keep : α → Bool) (items : List α)
    (table : Table rank key) (dropped : ∀ item ∈ items, keep item = false) :
    (items.foldl emplace table).entries.filter keep = table.entries.filter keep := by
  induction items generalizing table with
  | nil => rfl
  | cons first rest ih =>
      rw [List.foldl_cons, ih _ fun item member => dropped item (List.mem_cons_of_mem first member)]
      unfold emplace
      split
      · exact filter_insertSorted_of_dropped rank keep first table.entries
          (dropped first List.mem_cons_self)
      · rfl

/-- What holds of the old entries and of the inserted items holds of all entries. -/
theorem forall_mem_foldl_emplace (good : α → Prop) (items : List α) (table : Table rank key)
    (old : ∀ item ∈ table.entries, good item) (new : ∀ item ∈ items, good item) :
    ∀ item ∈ (items.foldl emplace table).entries, good item := by
  induction items generalizing table with
  | nil => exact old
  | cons first rest ih =>
      apply ih
      · intro item member
        rcases mem_of_mem_emplace member with before | now
        · exact old item before
        · rw [now]
          exact new first (by simp)
      · exact fun item member => new item (by simp [member])

end Table

end OrderedTable
