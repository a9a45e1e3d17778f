import Mathlib.Data.String.Basic

/-! # Sorted maps

A map that is walked in the order of its keys. -/

namespace TerminalCanvas

/-- Entries under strictly growing keys. -/
structure SortedMap (Key Value : Type) [LinearOrder Key] where
  entries : List (Key × Value)
  sorted : entries.Pairwise fun left right => left.1 < right.1
deriving DecidableEq

namespace SortedMap

variable {Key Value : Type} [LinearOrder Key]

def empty : SortedMap Key Value := ⟨[], .nil⟩

def insertEntry (key : Key) (value : Value) : List (Key × Value) → List (Key × Value)
  | [] => [(key, value)]
  | (other, old) :: rest =>
      if key < other then (key, value) :: (other, old) :: rest
      else if key = other then (key, value) :: rest
      else (other, old) :: insertEntry key value rest

theorem mem_insertEntry {key : Key} {value : Value} {entries : List (Key × Value)}
    (sorted : entries.Pairwise fun left right => left.1 < right.1) {entry : Key × Value} :
    entry ∈ insertEntry key value entries ↔
      entry = (key, value) ∨ entry ∈ entries ∧ entry.1 ≠ key := by
  induction entries with
  | nil => simp [insertEntry]
  | cons first rest induction =>
      obtain ⟨other, old⟩ := first
      obtain ⟨before, sortedRest⟩ := List.pairwise_cons.mp sorted
      rw [insertEntry]
      split
      · next smaller =>
          have apart : ∀ later ∈ (other, old) :: rest, later.1 ≠ key := by
            intro later member
            rcases List.mem_cons.mp member with rfl | member
            · exact ne_of_gt smaller
            · exact ne_of_gt (lt_trans smaller (before later member))
          rw [List.mem_cons]
          exact or_congr_right ⟨fun member => ⟨member, apart entry member⟩, And.left⟩
      · split
        · next same =>
            subst same
            have apart : ∀ later ∈ rest, later.1 ≠ key :=
              fun later member => ne_of_gt (before later member)
            rw [List.mem_cons, List.mem_cons]
            constructor
            · rintro (rfl | member)
              · exact .inl rfl
              · exact .inr ⟨.inr member, apart entry member⟩
            · rintro (rfl | ⟨rfl | member, other⟩)
              · exact .inl rfl
              · exact absurd rfl other
              · exact .inr member
        · next greater different =>
            rw [List.mem_cons, induction sortedRest, List.mem_cons]
            constructor
            · rintro (rfl | rfl | ⟨member, other⟩)
              · exact .inr ⟨.inl rfl, Ne.symm different⟩
              · exact .inl rfl
              · exact .inr ⟨.inr member, other⟩
            · rintro (rfl | ⟨rfl | member, other⟩)
              · exact .inr (.inl rfl)
              · exact .inl rfl
              · exact .inr (.inr ⟨member, other⟩)

theorem sorted_insertEntry {key : Key} {value : Value} {entries : List (Key × Value)}
    (sorted : entries.Pairwise fun left right => left.1 < right.1) :
    (insertEntry key value entries).Pairwise fun left right => left.1 < right.1 := by
  induction entries with
  | nil => exact List.pairwise_singleton _ _
  | cons first rest induction =>
      obtain ⟨other, old⟩ := first
      obtain ⟨before, sortedRest⟩ := List.pairwise_cons.mp sorted
      rw [insertEntry]
      split
      · next smaller =>
          apply List.Pairwise.cons _ sorted
          intro later member
          rcases List.mem_cons.mp member with rfl | member
          · exact smaller
          · exact lt_trans smaller (before later member)
      · split
        · next same =>
            subst same
            exact List.Pairwise.cons before sortedRest
        · next greater different =>
            apply List.Pairwise.cons _ (induction sortedRest)
            intro later member
            rcases (mem_insertEntry sortedRest).mp member with rfl | ⟨member, -⟩
            · exact lt_of_le_of_ne (not_lt.mp greater) (Ne.symm different)
            · exact before later member

/-- The value under the key is replaced. -/
def insert (map : SortedMap Key Value) (key : Key) (value : Value) : SortedMap Key Value :=
  ⟨insertEntry key value map.entries, sorted_insertEntry map.sorted⟩

theorem mem_insert {map : SortedMap Key Value} {key : Key} {value : Value}
    {entry : Key × Value} :
    entry ∈ (map.insert key value).entries ↔
      entry = (key, value) ∨ entry ∈ map.entries ∧ entry.1 ≠ key :=
  mem_insertEntry map.sorted

theorem value_unique {map : SortedMap Key Value} {key : Key} {first second : Value}
    (left : (key, first) ∈ map.entries) (right : (key, second) ∈ map.entries) :
    first = second := by
  by_contra different
  have pairs := map.sorted
  have apart := List.pairwise_iff_getElem.mp pairs
  obtain ⟨i, boundLeft, atLeft⟩ := List.getElem_of_mem left
  obtain ⟨j, boundRight, atRight⟩ := List.getElem_of_mem right
  rcases Nat.lt_trichotomy i j with less | same | greater
  · have order := apart i j boundLeft boundRight less
    rw [atLeft, atRight] at order
    exact lt_irrefl _ order
  · subst same
    rw [atLeft] at atRight
    exact different (congrArg Prod.snd atRight)
  · have order := apart j i boundRight boundLeft greater
    rw [atLeft, atRight] at order
    exact lt_irrefl _ order

theorem insertEntry_greatest {key : Key} {value : Value} {entries : List (Key × Value)}
    (greatest : ∀ entry ∈ entries, entry.1 < key) :
    insertEntry key value entries = entries ++ [(key, value)] := by
  induction entries with
  | nil => rfl
  | cons first rest induction =>
      obtain ⟨other, old⟩ := first
      have less : other < key := greatest (other, old) (List.mem_cons_self ..)
      rw [insertEntry, if_neg (not_lt_of_gt less), if_neg (ne_of_gt less),
        induction fun entry member => greatest entry (List.mem_cons_of_mem _ member)]
      rfl

theorem eq_of_entries {left right : SortedMap Key Value}
    (same : left.entries = right.entries) : left = right := by
  cases left
  cases right
  cases same
  rfl

theorem entries_foldl_insert {entries : List (Key × Value)} {map : SortedMap Key Value}
    (sorted : (map.entries ++ entries).Pairwise fun left right => left.1 < right.1) :
    (entries.foldl (fun map entry => map.insert entry.1 entry.2) map).entries =
      map.entries ++ entries := by
  induction entries generalizing map with
  | nil => rw [List.foldl_nil, List.append_nil]
  | cons first rest induction =>
      have greatest : ∀ entry ∈ map.entries, entry.1 < first.1 :=
        fun entry member => (List.pairwise_append.mp sorted).2.2 entry member first
          (List.mem_cons_self ..)
      have appended : (map.insert first.1 first.2).entries = map.entries ++ [first] :=
        insertEntry_greatest greatest
      have whole : map.entries ++ first :: rest = (map.entries ++ [first]) ++ rest := by simp
      rw [List.foldl_cons, induction (by rw [appended, ← whole]; exact sorted), appended, whole]

/-! ## Lookups -/

def get? (map : SortedMap Key Value) (key : Key) : Option Value :=
  (map.entries.find? (·.1 = key)).map (·.2)

def remove (map : SortedMap Key Value) (key : Key) : SortedMap Key Value :=
  ⟨map.entries.filter (·.1 ≠ key), map.sorted.filter _⟩

def values (map : SortedMap Key Value) : List Value := map.entries.map (·.2)

theorem get?_eq_some {map : SortedMap Key Value} {key : Key} {value : Value} :
    map.get? key = some value ↔ (key, value) ∈ map.entries := by
  rw [get?, Option.map_eq_some_iff]
  constructor
  · rintro ⟨entry, found, rfl⟩
    have same : entry.1 = key := by simpa using List.find?_some found
    rw [← same]
    exact List.mem_of_find?_eq_some found
  · intro member
    have found : (map.entries.find? (·.1 = key)).isSome = true :=
      List.find?_isSome.mpr ⟨(key, value), member, decide_eq_true rfl⟩
    obtain ⟨entry, found⟩ := Option.isSome_iff_exists.mp found
    refine ⟨entry, found, ?_⟩
    have same : entry.1 = key := by simpa using List.find?_some found
    have other : (key, entry.2) ∈ map.entries := by
      rw [← same]
      exact List.mem_of_find?_eq_some found
    exact value_unique other member

theorem get?_insert_self (map : SortedMap Key Value) (key : Key) (value : Value) :
    (map.insert key value).get? key = some value :=
  get?_eq_some.mpr (mem_insert.mpr (.inl rfl))

theorem get?_insert_of_ne {map : SortedMap Key Value} {key other : Key} {value : Value}
    (different : other ≠ key) : (map.insert key value).get? other = map.get? other := by
  apply Option.ext
  intro found
  rw [get?_eq_some, get?_eq_some, mem_insert]
  constructor
  · rintro (same | ⟨member, -⟩)
    · exact absurd (congrArg Prod.fst same) different
    · exact member
  · exact fun member => .inr ⟨member, different⟩

theorem get?_remove_self (map : SortedMap Key Value) (key : Key) :
    (map.remove key).get? key = none := by
  rw [Option.eq_none_iff_forall_ne_some]
  intro value found
  have member := List.mem_filter.mp (get?_eq_some.mp found)
  exact of_decide_eq_true member.2 rfl

theorem get?_remove_of_ne {map : SortedMap Key Value} {key other : Key}
    (different : other ≠ key) : (map.remove key).get? other = map.get? other := by
  apply Option.ext
  intro found
  rw [get?_eq_some, get?_eq_some, remove, List.mem_filter]
  exact ⟨And.left, fun member => ⟨member, decide_eq_true different⟩⟩

theorem mem_values {map : SortedMap Key Value} {value : Value} :
    value ∈ map.values ↔ ∃ key, map.get? key = some value := by
  simp only [values, List.mem_map, get?_eq_some]
  constructor
  · rintro ⟨entry, member, rfl⟩
    exact ⟨entry.1, member⟩
  · rintro ⟨key, member⟩
    exact ⟨(key, value), member, rfl⟩

end SortedMap

end TerminalCanvas
