import Mathlib.Data.List.Basic
import Mathlib.Data.List.Pairwise

/-! # Searching with a comparison that can fail

Entries are kept in the order of their keys, and a binary search finds the place of a key.
A comparison that fails ends the search. -/

namespace TerminalCanvas.FallibleSearch

/-- A comparison by a total preorder that may also fail. -/
structure Comparison (Key : Type) where
  compare : Key → Key → Option Ordering
  order : Key → Key → Ordering
  lawful : Std.TransCmp order
  agrees : ∀ left right answer, compare left right = some answer → answer = order left right

inductive Place where
  | found (index : Nat)
  | missing (index : Nat)
deriving DecidableEq, Repr

variable {Key Value : Type}

def middle (low high : Nat) : Nat := low + (high - low) / 2

theorem middle_lt {low high : Nat} (range : low < high) : middle low high < high := by
  unfold middle
  omega

theorem le_middle (low high : Nat) : low ≤ middle low high := Nat.le_add_right _ _

section Search

variable (compare : Key → Key → Option Ordering) (order : Key → Key → Ordering)
  (entries : List (Key × Value)) (key : Key)

/-- The place of a key, unless a comparison fails. -/
def locate (low high : Nat) (inside : high ≤ entries.length) : Option Place :=
  if range : low < high then
    have bound := middle_lt range
    have within : middle low high < entries.length := Nat.lt_of_lt_of_le bound inside
    match compare entries[middle low high].1 key with
    | none => none
    | some .lt => locate (middle low high + 1) high inside
    | some .gt => locate low (middle low high) (Nat.le_trans (Nat.le_of_lt bound) inside)
    | some .eq => some (.found (middle low high))
  else
    some (.missing low)
termination_by high - low
decreasing_by
  · have := le_middle low high
    omega
  · omega

def probes (low high : Nat) (inside : high ≤ entries.length) : List Key :=
  if range : low < high then
    have bound := middle_lt range
    have within : middle low high < entries.length := Nat.lt_of_lt_of_le bound inside
    let probe := entries[middle low high].1
    match order probe key with
    | .lt => probe :: probes (middle low high + 1) high inside
    | .gt => probe :: probes low (middle low high) (Nat.le_trans (Nat.le_of_lt bound) inside)
    | .eq => [probe]
  else
    []
termination_by high - low
decreasing_by
  · have := le_middle low high
    omega
  · omega

/-- The entries with the value of a key at its place, or without the key. -/
def put (value : Option Value) : Place → List (Key × Value)
  | .found index =>
      match value with
      | some value => entries.set index (key, value)
      | none => entries.eraseIdx index
  | .missing index =>
      match value with
      | some value => entries.insertIdx index (key, value)
      | none => entries

def change (value : Option Value) : Option (List (Key × Value)) :=
  (locate compare entries key 0 entries.length (Nat.le_refl _)).map (put entries key value)

end Search

/-- The keys of the entries grow. -/
def Sorted (order : Key → Key → Ordering) (entries : List (Key × Value)) : Prop :=
  entries.Pairwise fun left right => order left.1 right.1 = .lt

/-- A place parts the entries before a key from those behind it. -/
inductive Parts (order : Key → Key → Ordering) (key : Key) (entries : List (Key × Value)) :
    Place → Prop where
  | found (before after : List (Key × Value)) (entry : Key × Value)
      (split : entries = before ++ entry :: after) (same : order entry.1 key = .eq) :
      Parts order key entries (.found before.length)
  | missing (before after : List (Key × Value)) (split : entries = before ++ after)
      (below : ∀ entry ∈ before, order entry.1 key = .lt)
      (above : ∀ entry ∈ after, order entry.1 key = .gt) :
      Parts order key entries (.missing before.length)

section Laws

variable (comparison : Comparison Key) {entries : List (Key × Value)} {key : Key}

theorem Comparison.answers (left right : Key) : comparison.compare left right = none ∨
    comparison.compare left right = some (comparison.order left right) := by
  cases compared : comparison.compare left right with
  | none => exact .inl rfl
  | some answer =>
      right
      rw [comparison.agrees left right answer compared]

theorem locate_isSome (low high : Nat) (inside : high ≤ entries.length) :
    (locate comparison.compare entries key low high inside).isSome = true ↔
      ∀ probe ∈ probes comparison.order entries key low high inside,
        (comparison.compare probe key).isSome = true := by
  induction low, high, inside using probes.induct comparison.order entries key with
  | case1 low high inside range bound within probe less induction =>
      rw [locate, probes]
      simp only [range, ↓reduceDIte]
      rcases comparison.answers probe key with failed | answer
      · simp [probe, less, failed]
      · rw [less] at answer
        simp [probe, less, answer, induction]
  | case2 low high inside range bound within probe greater induction =>
      rw [locate, probes]
      simp only [range, ↓reduceDIte]
      rcases comparison.answers probe key with failed | answer
      · simp [probe, greater, failed]
      · rw [greater] at answer
        simp [probe, greater, answer, induction]
  | case3 low high inside range bound within probe same =>
      rw [locate, probes]
      simp only [range, ↓reduceDIte]
      rcases comparison.answers probe key with failed | answer
      · simp [probe, same, failed]
      · rw [same] at answer
        simp [probe, same, answer]
  | case4 low high inside empty =>
      rw [locate, probes, dif_neg empty, dif_neg empty]
      simp

theorem locate_order {low high : Nat} {inside : high ≤ entries.length} {place : Place}
    (located : locate comparison.compare entries key low high inside = some place) :
    locate (fun left right => some (comparison.order left right)) entries key low high inside =
      some place := by
  induction low, high, inside using locate.induct comparison.compare entries key with
  | case1 low high inside range bound within failed =>
      rw [locate] at located
      simp [range, failed] at located
  | case2 low high inside range bound within less induction =>
      have here := comparison.agrees _ _ _ less
      rw [locate] at located ⊢
      simp only [range, ↓reduceDIte, less] at located
      simp only [range, ↓reduceDIte, ← here]
      exact induction located
  | case3 low high inside range bound within greater induction =>
      have here := comparison.agrees _ _ _ greater
      rw [locate] at located ⊢
      simp only [range, ↓reduceDIte, greater] at located
      simp only [range, ↓reduceDIte, ← here]
      exact induction located
  | case4 low high inside range bound within same =>
      have here := comparison.agrees _ _ _ same
      rw [locate] at located ⊢
      simp only [range, ↓reduceDIte, same] at located
      simp only [range, ↓reduceDIte, ← here]
      exact located
  | case5 low high inside empty =>
      rw [locate, dif_neg empty] at located ⊢
      exact located

theorem change_order {value : Option Value} {changed : List (Key × Value)}
    (made : change comparison.compare entries key value = some changed) :
    change (fun left right => some (comparison.order left right)) entries key value =
      some changed := by
  obtain ⟨place, located, rfl⟩ := Option.map_eq_some_iff.mp made
  rw [change, locate_order comparison located, Option.map_some]

theorem locate_parts {order : Key → Key → Ordering} (lawful : Std.TransCmp order)
    {compare : Key → Key → Option Ordering}
    (agrees : ∀ left right answer, compare left right = some answer → answer = order left right)
    (sorted : Sorted order entries) (low high : Nat) (inside : high ≤ entries.length)
    (ordered : low ≤ high)
    (below : ∀ index (bound : index < entries.length), index < low →
      order entries[index].1 key = .lt)
    (above : ∀ index (bound : index < entries.length), high ≤ index →
      order entries[index].1 key = .gt) {place : Place}
    (located : locate compare entries key low high inside = some place) :
    Parts order key entries place := by
  induction low, high, inside using locate.induct compare entries key with
  | case1 low high inside range bound within failed =>
      rw [locate] at located
      simp [range, failed] at located
  | case2 low high inside range bound within less induction =>
      rw [locate] at located
      simp only [range, ↓reduceDIte, less] at located
      have here := (agrees _ _ _ less).symm
      refine induction ?_ ?_ above located
      · have := middle_lt range
        omega
      · intro index inBound before
        rcases Nat.lt_or_eq_of_le (Nat.le_of_lt_succ before) with earlier | rfl
        · exact Std.TransCmp.lt_trans
            (List.pairwise_iff_getElem.mp sorted index _ inBound _ earlier) here
        · exact here
  | case3 low high inside range bound within greater induction =>
      rw [locate] at located
      simp only [range, ↓reduceDIte, greater] at located
      have here := (agrees _ _ _ greater).symm
      refine induction (le_middle low high) below ?_ located
      intro index inBound behind
      rcases Nat.lt_or_eq_of_le behind with later | rfl
      · apply Std.OrientedCmp.gt_of_lt
        exact Std.TransCmp.lt_trans (Std.OrientedCmp.lt_of_gt here)
          (List.pairwise_iff_getElem.mp sorted _ index _ inBound later)
      · exact here
  | case4 low high inside range bound within same =>
      rw [locate] at located
      simp only [range, ↓reduceDIte, same, Option.some.injEq] at located
      have inBound := Nat.lt_of_lt_of_le bound inside
      have parts := Parts.found (entries.take (middle low high))
        (entries.drop (middle low high + 1)) entries[middle low high]
        (by rw [← List.drop_eq_getElem_cons inBound, List.take_append_drop])
        (agrees _ _ _ same).symm
      rw [List.length_take_of_le (Nat.le_of_lt inBound), located] at parts
      exact parts
  | case5 low high inside empty =>
      rw [locate, dif_neg empty, Option.some.injEq] at located
      have same : low = high := by omega
      have parts := @Parts.missing _ _ order key _ (entries.take low)
        (entries.drop low) (List.take_append_drop low entries).symm ?_ ?_
      · rw [List.length_take_of_le (by omega), located] at parts
        exact parts
      · intro entry member
        obtain ⟨index, inBound, rfl⟩ := List.getElem_of_mem member
        rw [List.length_take] at inBound
        rw [List.getElem_take]
        exact below index (by omega) (by omega)
      · intro entry member
        obtain ⟨index, inBound, rfl⟩ := List.getElem_of_mem member
        rw [List.length_drop] at inBound
        rw [List.getElem_drop]
        exact above (low + index) (by omega) (by omega)

structure Changed (order : Key → Key → Ordering) (key : Key) (value : Option Value)
    (entries changed : List (Key × Value)) : Prop where
  sorted : Sorted order changed
  mem : ∀ entry, entry ∈ changed ↔
    (key = entry.1 ∧ value = some entry.2) ∨ (entry ∈ entries ∧ order key entry.1 ≠ .eq)

end Laws

/-! ## Changes -/

section Changes

variable {order : Key → Key → Ordering} {entries : List (Key × Value)} {key : Key}

theorem set_length {α : Type} (before after : List α) (old new : α) :
    (before ++ old :: after).set before.length new = before ++ new :: after := by
  induction before with
  | nil => rfl
  | cons first before induction => exact congrArg (first :: ·) induction

theorem eraseIdx_length {α : Type} (before after : List α) (old : α) :
    (before ++ old :: after).eraseIdx before.length = before ++ after := by
  induction before with
  | nil => rfl
  | cons first before induction => exact congrArg (first :: ·) induction

theorem insertIdx_length {α : Type} (before after : List α) (new : α) :
    (before ++ after).insertIdx before.length new = before ++ new :: after := by
  induction before with
  | nil => rfl
  | cons first before induction => exact congrArg (first :: ·) induction

theorem Changed.of_split (lawful : Std.TransCmp order) {before own after : List (Key × Value)}
    (sorted : Sorted order (before ++ (own ++ after)))
    (below : ∀ entry ∈ before, order entry.1 key = .lt)
    (same : ∀ entry ∈ own, order key entry.1 = .eq)
    (above : ∀ entry ∈ after, order key entry.1 = .lt) (value : Option Value) :
    Changed order key value (before ++ (own ++ after))
      (before ++ (value.toList.map (key, ·) ++ after)) := by
  obtain ⟨sortedBefore, sortedRest, across⟩ := List.pairwise_append.mp sorted
  have sortedAfter := (List.pairwise_append.mp sortedRest).2.1
  have news : ∀ entry, entry ∈ value.toList.map (key, ·) ↔
      key = entry.1 ∧ value = some entry.2 := by
    intro entry
    obtain ⟨name, content⟩ := entry
    cases value with
    | none => simp
    | some value => simp [eq_comm (a := name), eq_comm (a := content)]
  constructor
  · refine List.pairwise_append.mpr ⟨sortedBefore, List.pairwise_append.mpr ⟨?_, sortedAfter, ?_⟩,
      ?_⟩
    · cases value with
      | none => exact List.Pairwise.nil
      | some value => exact List.pairwise_singleton _ _
    · intro left leftMember right rightMember
      rw [← ((news left).mp leftMember).1]
      exact above right rightMember
    · intro left leftMember right rightMember
      rcases List.mem_append.mp rightMember with new | later
      · rw [← ((news right).mp new).1]
        exact below left leftMember
      · exact across left leftMember right (List.mem_append_right _ later)
  · intro entry
    have belowNe : entry ∈ before → order key entry.1 ≠ .eq := by
      intro member equal
      have less := below entry member
      rw [Std.OrientedCmp.eq_symm equal] at less
      cases less
    have aboveNe : entry ∈ after → order key entry.1 ≠ .eq := by
      intro member equal
      rw [above entry member] at equal
      cases equal
    have ownEq : entry ∈ own → ¬ order key entry.1 ≠ .eq := fun member other =>
      other (same entry member)
    simp only [List.mem_append, news]
    tauto

theorem Parts.changed (lawful : Std.TransCmp order) {place : Place}
    (parts : Parts order key entries place) (sorted : Sorted order entries)
    (value : Option Value) : Changed order key value entries (put entries key value place) := by
  cases parts with
  | found before after entry split same =>
      subst split
      have pairs := List.pairwise_append.mp sorted
      have rest := List.pairwise_cons.mp pairs.2.1
      have result : put (before ++ entry :: after) key value (.found before.length) =
          before ++ (value.toList.map (key, ·) ++ after) := by
        cases value with
        | none => exact eraseIdx_length before after entry
        | some value => exact set_length before after entry (key, value)
      rw [result]
      have symmetric : order key entry.1 = .eq := Std.OrientedCmp.eq_symm same
      refine @Changed.of_split _ _ order key lawful before [entry] after sorted ?_ ?_ ?_ value
      · intro left member
        exact Std.TransCmp.lt_of_lt_of_eq (pairs.2.2 left member entry (List.mem_cons_self ..)) same
      · intro left member
        rw [List.mem_singleton.mp member]
        exact symmetric
      · intro right member
        exact Std.TransCmp.lt_of_eq_of_lt symmetric (rest.1 right member)
  | missing before after split below above =>
      subst split
      have result : put (before ++ after) key value (.missing before.length) =
          before ++ (value.toList.map (key, ·) ++ after) := by
        cases value with
        | none => rfl
        | some value => exact insertIdx_length before after (key, value)
      rw [result]
      refine @Changed.of_split _ _ order key lawful before [] after sorted below
        (List.forall_mem_nil _) ?_ value
      intro right member
      exact Std.OrientedCmp.lt_of_gt (above right member)

/-- A change of sorted entries succeeds if its comparisons do, and it changes one key. -/
theorem change_changed (comparison : Comparison Key) (sorted : Sorted comparison.order entries)
    (value : Option Value) :
    ((change comparison.compare entries key value).isSome = true ↔
      ∀ probe ∈ probes comparison.order entries key 0 entries.length (Nat.le_refl _),
        (comparison.compare probe key).isSome = true) ∧
    ∀ changed, change comparison.compare entries key value = some changed →
      Changed comparison.order key value entries changed := by
  constructor
  · rw [change, Option.isSome_map, locate_isSome]
  · intro changed made
    obtain ⟨place, located, rfl⟩ := Option.map_eq_some_iff.mp made
    refine Parts.changed comparison.lawful ?_ sorted value
    refine locate_parts comparison.lawful comparison.agrees sorted 0 entries.length
      (Nat.le_refl _) (Nat.zero_le _) ?_ ?_ located
    · exact fun _ _ less => absurd less (Nat.not_lt_zero _)
    · exact fun _ bound behind => absurd bound (Nat.not_lt_of_le behind)

end Changes

/-! ## Runs of changes -/

section Runs

/-- The last change of a key, up to the order, is the one that sets it to this value. -/
def LastSets (order : Key → Key → Ordering) (changes : List (Key × Option Value))
    (entry : Key × Value) : Prop :=
  ∃ before after, changes = before ++ (entry.1, some entry.2) :: after ∧
    ∀ later ∈ after, order later.1 entry.1 ≠ .eq

variable {order : Key → Key → Ordering}

theorem lastSets_append {changes : List (Key × Option Value)} {change : Key × Option Value}
    {entry : Key × Value} : LastSets order (changes ++ [change]) entry ↔
      (change.1 = entry.1 ∧ change.2 = some entry.2) ∨
        (LastSets order changes entry ∧ order change.1 entry.1 ≠ .eq) := by
  constructor
  · rintro ⟨before, after, split, apart⟩
    rcases List.eq_nil_or_concat after with rfl | ⟨front, last, rfl⟩
    · obtain ⟨-, same⟩ := List.append_inj' split rfl
      cases List.singleton_inj.mp same
      exact .inl ⟨rfl, rfl⟩
    · rw [List.concat_eq_append, ← List.cons_append, ← List.append_assoc] at split
      obtain ⟨rfl, same⟩ := List.append_inj' split rfl
      cases List.singleton_inj.mp same
      rw [List.concat_eq_append] at apart
      refine .inr ⟨⟨before, front, rfl, ?_⟩, ?_⟩
      · exact fun later member => apart later (List.mem_append_left _ member)
      · exact apart change (List.mem_append_right _ (List.mem_singleton_self _))
  · rintro (⟨name, content⟩ | ⟨⟨before, after, rfl, apart⟩, other⟩)
    · refine ⟨changes, [], ?_, List.forall_mem_nil _⟩
      rw [← name, ← content]
    · refine ⟨before, after ++ [change], by simp, ?_⟩
      intro later member
      rcases List.mem_append.mp member with earlier | last
      · exact apart later earlier
      · rw [List.mem_singleton.mp last]
        exact other

/-- Sorted entries that hold what some changes left. -/
structure Holds (order : Key → Key → Ordering) (changes : List (Key × Option Value))
    (entries : List (Key × Value)) : Prop where
  sorted : Sorted order entries
  mem : ∀ entry, entry ∈ entries ↔ LastSets order changes entry

theorem holds_nil : Holds order [] ([] : List (Key × Value)) := by
  refine ⟨.nil, fun entry => ⟨nofun, ?_⟩⟩
  rintro ⟨before, after, split, -⟩
  cases before <;> cases split

theorem Holds.change {changes : List (Key × Option Value)} {entries changed : List (Key × Value)}
    {key : Key} {value : Option Value} (holds : Holds order changes entries)
    (made : Changed order key value entries changed) :
    Holds order (changes ++ [(key, value)]) changed := by
  refine ⟨made.sorted, fun entry => ?_⟩
  rw [made.mem, lastSets_append, holds.mem]

end Runs

end TerminalCanvas.FallibleSearch
