import Mathlib.Data.List.AList

/-! # Keyed tables

A finite map with one row for each key: a SQL table under its primary key, or a
hash map. The order of the entries is an accident of the representation. -/

namespace TerminalCanvas

abbrev Table (Key Row : Type) := AList (fun _ : Key => Row)

namespace Table

variable {Key Row : Type}

def size (table : Table Key Row) : Nat := table.keys.length

@[simp] theorem size_empty : size (∅ : Table Key Row) = 0 := rfl

def mapRows (table : Table Key Row) (change : Key → Row → Row) : Table Key Row :=
  ⟨table.entries.map (Sigma.map id change), table.nodupKeys.map₂ change table.entries⟩

def keepRows (table : Table Key Row) (property : Row → Bool) : Table Key Row :=
  ⟨table.entries.filter fun entry => property entry.2,
    table.nodupKeys.sublist List.filter_sublist⟩

def keepKeys (table : Table Key Row) (property : Key → Bool) : Table Key Row :=
  ⟨table.entries.filter fun entry => property entry.1,
    table.nodupKeys.sublist List.filter_sublist⟩

def rows (table : Table Key Row) : List Row := table.entries.map (·.2)

@[simp] theorem length_rows (table : Table Key Row) : table.rows.length = table.size := by
  rw [rows, List.length_map, size, AList.keys, List.keys, List.length_map]

theorem size_keepRows_le (table : Table Key Row) (property : Row → Bool) :
    (table.keepRows property).size ≤ table.size := by
  rw [← length_rows, ← length_rows, rows, rows, List.length_map, List.length_map]
  exact List.length_filter_le _ _

theorem size_keepKeys_le (table : Table Key Row) (property : Key → Bool) :
    (table.keepKeys property).size ≤ table.size := by
  rw [← length_rows, ← length_rows, rows, rows, List.length_map, List.length_map]
  exact List.length_filter_le _ _

@[simp] theorem size_mapRows (table : Table Key Row) (change : Key → Row → Row) :
    (table.mapRows change).size = table.size := by
  rw [← length_rows, ← length_rows, rows, rows, List.length_map, List.length_map, mapRows,
    List.length_map]

def countRows (table : Table Key Row) (property : Row → Bool) : Nat :=
  table.entries.countP fun entry => property entry.2

theorem countRows_le_size (table : Table Key Row) (property : Row → Bool) :
    table.countRows property ≤ table.size := by
  have bound := List.countP_le_length (p := fun entry => property entry.2) (l := table.entries)
  rw [countRows, size, AList.keys, List.keys, List.length_map]
  exact bound

theorem countRows_keepRows_le (table : Table Key Row) (kept property : Row → Bool) :
    (table.keepRows kept).countRows property ≤ table.countRows property :=
  List.Sublist.countP_le List.filter_sublist

theorem countRows_mapRows (table : Table Key Row) {change : Key → Row → Row}
    {property : Row → Bool} (stable : ∀ key row, property (change key row) = property row) :
    (table.mapRows change).countRows property = table.countRows property := by
  rw [countRows, countRows, mapRows, List.countP_map]
  apply List.countP_congr
  intro entry member
  simp [Sigma.map, stable]

variable [DecidableEq Key]

def find (table : Table Key Row) (key : Key) : Option Row := table.lookup key

/-- Store a row, replacing the one under the same key. -/
def put (table : Table Key Row) (key : Key) (row : Row) : Table Key Row :=
  AList.insert key row table

def remove (table : Table Key Row) (key : Key) : Table Key Row := AList.erase key table

@[simp] theorem find_empty (key : Key) : find (∅ : Table Key Row) key = none :=
  AList.lookup_empty key

@[simp] theorem find_put_self (table : Table Key Row) (key : Key) (row : Row) :
    (table.put key row).find key = some row := AList.lookup_insert table

theorem find_put_of_ne (table : Table Key Row) {key other : Key} (row : Row)
    (different : other ≠ key) : (table.put key row).find other = table.find other :=
  AList.lookup_insert_ne different

theorem find_put (table : Table Key Row) (key other : Key) (row : Row) :
    (table.put key row).find other = if other = key then some row else table.find other := by
  split
  · next equal => rw [equal, find_put_self]
  · next different => exact find_put_of_ne table row different

@[simp] theorem find_remove_self (table : Table Key Row) (key : Key) :
    (table.remove key).find key = none := AList.lookup_erase key table

theorem find_remove_of_ne (table : Table Key Row) {key other : Key}
    (different : other ≠ key) : (table.remove key).find other = table.find other :=
  AList.lookup_erase_ne different

theorem find_remove (table : Table Key Row) (key other : Key) :
    (table.remove key).find other = if other = key then none else table.find other := by
  split
  · next equal => rw [equal, find_remove_self]
  · next different => exact find_remove_of_ne table different

@[simp] theorem find_mapRows (table : Table Key Row) (change : Key → Row → Row) (key : Key) :
    (table.mapRows change).find key = (table.find key).map (change key) :=
  List.dlookup_map₂ key

theorem find_eq_some_iff {table : Table Key Row} {key : Key} {row : Row} :
    table.find key = some row ↔ ⟨key, row⟩ ∈ table.entries := AList.mem_lookup_iff

theorem find_keepRows (table : Table Key Row) (property : Row → Bool) (key : Key) :
    (table.keepRows property).find key = (table.find key).filter property := by
  apply Option.ext
  intro row
  rw [find_eq_some_iff, Option.filter_eq_some_iff, find_eq_some_iff, keepRows,
    List.mem_filter]

theorem find_keepKeys (table : Table Key Row) (property : Key → Bool) (key : Key) :
    (table.keepKeys property).find key = if property key then table.find key else none := by
  apply Option.ext
  intro row
  rw [find_eq_some_iff, keepKeys, List.mem_filter]
  split
  · next kept => rw [find_eq_some_iff, and_iff_left kept]
  · next dropped => simp [dropped]

theorem mem_rows_iff {table : Table Key Row} {row : Row} :
    row ∈ table.rows ↔ ∃ key, table.find key = some row := by
  rw [rows, List.mem_map]
  constructor
  · rintro ⟨⟨key, stored⟩, member, rfl⟩
    exact ⟨key, find_eq_some_iff.mpr member⟩
  · rintro ⟨key, found⟩
    exact ⟨⟨key, row⟩, find_eq_some_iff.mp found, rfl⟩

theorem find_eq_none_iff {table : Table Key Row} {key : Key} :
    table.find key = none ↔ key ∉ table.keys := AList.lookup_eq_none

theorem mem_keys_iff {table : Table Key Row} {key : Key} :
    key ∈ table.keys ↔ ∃ row, table.find key = some row := by
  rw [← Option.ne_none_iff_exists', ne_eq, find_eq_none_iff, not_not]

theorem mem_keys_put {table : Table Key Row} {key other : Key} {row : Row} :
    other ∈ (table.put key row).keys ↔ other = key ∨ other ∈ table.keys :=
  AList.mem_insert table

theorem mem_keys_remove {table : Table Key Row} {key other : Key} :
    other ∈ (table.remove key).keys ↔ other ≠ key ∧ other ∈ table.keys :=
  AList.mem_erase

theorem size_put_of_find_none {table : Table Key Row} {key : Key} (row : Row)
    (absent : table.find key = none) : (table.put key row).size = table.size + 1 := by
  simp [size, put, AList.keys_insert, List.erase_of_not_mem (find_eq_none_iff.mp absent)]

theorem size_put_of_find_some {table : Table Key Row} {key : Key} {old : Row} (row : Row)
    (present : table.find key = some old) : (table.put key row).size = table.size := by
  have member : key ∈ table.keys := mem_keys_iff.mpr ⟨old, present⟩
  have positive := List.length_pos_of_mem member
  simp only [size, put, AList.keys_insert, List.length_cons,
    List.length_erase_of_mem member]
  omega

theorem size_remove_of_find_some {table : Table Key Row} {key : Key} {old : Row}
    (present : table.find key = some old) : (table.remove key).size + 1 = table.size := by
  have member : key ∈ table.keys := mem_keys_iff.mpr ⟨old, present⟩
  have positive := List.length_pos_of_mem member
  simp only [size, remove, AList.keys_erase, List.length_erase_of_mem member]
  omega

theorem countRows_put_of_find_none {table : Table Key Row} {key : Key} (row : Row)
    (absent : table.find key = none) (property : Row → Bool) :
    (table.put key row).countRows property =
      table.countRows property + if property row then 1 else 0 := by
  have entries : (table.put key row).entries = ⟨key, row⟩ :: table.entries :=
    AList.entries_insert_of_notMem (find_eq_none_iff.mp absent)
  rw [countRows, entries, List.countP_cons]
  rfl

theorem countRows_remove_of_find_some {table : Table Key Row} {key : Key} {old : Row}
    (present : table.find key = some old) (property : Row → Bool) :
    (table.remove key).countRows property + (if property old then 1 else 0) =
      table.countRows property := by
  obtain ⟨row, before, after, -, split, erased⟩ :=
    List.exists_of_kerase (mem_keys_iff.mpr ⟨old, present⟩)
  have same : row = old := by
    have found : table.lookup key = some row :=
      AList.mem_lookup_iff.mpr (by rw [split]; simp)
    have again : table.lookup key = some old := present
    exact Option.some.inj (found.symm.trans again)
  have removed : (table.remove key).entries = before ++ after := erased
  rw [countRows, countRows, removed, split, List.countP_append, List.countP_append,
    List.countP_cons, same]
  simp only
  omega

theorem countRows_put (table : Table Key Row) (key : Key) (row : Row) (property : Row → Bool) :
    (table.put key row).countRows property =
      (table.remove key).countRows property + if property row then 1 else 0 := by
  have entries : (table.put key row).entries = ⟨key, row⟩ :: (table.remove key).entries :=
    AList.entries_insert
  rw [countRows, entries, List.countP_cons]
  rfl

theorem countRows_put_of_find_some {table : Table Key Row} {key : Key} {old : Row} (row : Row)
    (present : table.find key = some old) (property : Row → Bool) :
    (table.put key row).countRows property + (if property old then 1 else 0) =
      table.countRows property + if property row then 1 else 0 := by
  have without := countRows_remove_of_find_some present property
  rw [countRows_put]
  omega

theorem countRows_put_le (table : Table Key Row) (key : Key) (row : Row)
    (property : Row → Bool) :
    (table.put key row).countRows property ≤ table.countRows property + 1 := by
  rw [countRows_put]
  have without : (table.remove key).countRows property ≤ table.countRows property :=
    List.Sublist.countP_le (List.kerase_sublist key table.entries)
  split <;> omega

theorem countRows_pos {table : Table Key Row} {key : Key} {row : Row}
    (present : table.find key = some row) {property : Row → Bool} (holds : property row = true) :
    0 < table.countRows property := by
  apply List.countP_pos_iff.mpr
  exact ⟨⟨key, row⟩, AList.mem_lookup_iff.mp present, holds⟩

theorem nodup_map_rows {Value : Type} {table : Table Key Row} {view : Row → Value}
    (tells : ∀ key row other otherRow, table.find key = some row →
      table.find other = some otherRow → view row = view otherRow → key = other) :
    (table.rows.map view).Nodup := by
  have entries : table.entries.Nodup := List.NodupKeys.nodup table.nodupKeys
  rw [rows, List.map_map]
  refine List.Nodup.map_on (fun one member other otherMember same => ?_) entries
  have sameKey := tells one.1 one.2 other.1 other.2 (find_eq_some_iff.mpr member)
    (find_eq_some_iff.mpr otherMember) same
  obtain ⟨key, row⟩ := one
  obtain ⟨otherKey, otherRow⟩ := other
  subst sameKey
  rw [Option.some.inj ((find_eq_some_iff.mpr member).symm.trans
    (find_eq_some_iff.mpr otherMember))]

theorem find_foldl_put_iff {entries : List (Key × Row)}
    (distinct : (entries.map (·.1)).Nodup) {table : Table Key Row}
    (absent : ∀ entry ∈ entries, table.find entry.1 = none) {key : Key} {row : Row} :
    (entries.foldl (fun table entry => table.put entry.1 entry.2) table).find key = some row ↔
      (key, row) ∈ entries ∨ table.find key = some row := by
  induction entries generalizing table with
  | nil => simp
  | cons entry entries induction =>
      obtain ⟨fresh, distinct⟩ := List.nodup_cons.mp distinct
      have different (other : Key × Row) (member : other ∈ entries) : other.1 ≠ entry.1 :=
        fun same => fresh (List.mem_map.mpr ⟨other, member, same⟩)
      rw [List.foldl_cons, induction distinct fun other member => by
        rw [find_put_of_ne _ _ (different other member)]
        exact absent other (List.mem_cons_of_mem _ member), find_put, List.mem_cons]
      have nothing := absent entry List.mem_cons_self
      split
      · next same =>
          subst same
          rw [nothing, Option.some.injEq, Prod.ext_iff]
          simp [eq_comm, or_comm]
      · next other => simp [Prod.ext_iff, other]

end Table

end TerminalCanvas
