import Mathlib.Data.Prod.Lex
import Mathlib.Data.String.Basic
import TerminalCanvas.Foundation.Primitives
import TerminalCanvas.Foundation.Selection
import TerminalCanvas.Foundation.Slices
import TerminalCanvas.Palette.Fuzzy

/-! # Ranking of the quick open

The class of a result comes first, then its score, and the label decides between equals.
Only the best results are kept. -/

namespace TerminalCanvas.Palette

open Slices

inductive RankClass
  | exactCommand
  | commandPrefix
  | panelName
  | file
  | fuzzyCommand
deriving DecidableEq, Repr

def RankClass.ordinal : RankClass → Nat
  | exactCommand => 0
  | commandPrefix => 1
  | panelName => 2
  | file => 3
  | fuzzyCommand => 4

inductive QuickOpenKind
  | command
  | panel (id : Uuid)
  | file
deriving DecidableEq, Repr

structure RankedItem where
  rankClass : RankClass
  score : Int
  label : String
  kind : QuickOpenKind
deriving DecidableEq, Repr

/-- Lower is better: the class, then the higher score, then the label. -/
def RankedItem.cmp (self other : RankedItem) : Ordering :=
  (compare self.rankClass.ordinal other.rankClass.ordinal).then
    ((compare other.score self.score).then (compare self.label other.label))

/-! ## Ranks -/

/-- The points for a query behind an edge of a word: `none` is a slice inside a character. -/
def boundaryBonus (lowering : Lowering) (candidate query : Text) : Option Int :=
  let candidateLower := lowering.lower candidate
  match find (lowering.lower query) candidateLower with
  | none => some 0
  | some index =>
      if index = 0 then
        some 30
      else do
        let before ← sliceTo candidateLower index
        pure (match before.getLast? with
          | some previous =>
              if previous = '/' ∨ previous = '.' ∨ previous = '-' ∨ previous = '_' then 20 else 0
          | none => 0)

def filenameBonus (lowering : Lowering) (path query : Text) : Int :=
  let fileName := (path.reverse.takeWhile (· ≠ '/')).reverse
  if (find (lowering.lower query) (lowering.lower fileName)).isSome then 25 else 0

def rankCommand (lowering : Lowering) (query label : Text) : Option (Option RankedItem) := do
  let queryLower := lowering.lower query
  let labelLower := lowering.lower label
  let (rankClass, bonus) :=
    if labelLower = queryLower then (RankClass.exactCommand, (1000 : Int))
    else if queryLower.isPrefixOf labelLower then (.commandPrefix, 500)
    else (.fuzzyCommand, 0)
  match ← fuzzyScore lowering query label with
  | none => pure none
  | some score =>
      pure (some ⟨rankClass, score + bonus, String.ofList label, .command⟩)

def rankPanel (lowering : Lowering) (query title : Text) (panelId : Uuid) :
    Option (Option RankedItem) := do
  match ← fuzzyScore lowering query title with
  | none => pure none
  | some score =>
      let bonus ← boundaryBonus lowering title query
      pure (some ⟨.panelName, score + bonus, String.ofList title, .panel panelId⟩)

def rankFile (lowering : Lowering) (query path : Text) : Option (Option RankedItem) := do
  match ← fuzzyScore lowering query path with
  | none => pure none
  | some score =>
      let bonus ← boundaryBonus lowering path query
      let score := score + bonus + filenameBonus lowering path query
      pure (some ⟨.file, score, String.ofList path, .file⟩)

section Panics

variable {lowering : Lowering} {query candidate : Text}

theorem boundaryBonus_isSome (candidate query : Text) :
    (boundaryBonus lowering candidate query).isSome = true := by
  rw [boundaryBonus]
  split
  · rfl
  · next index found =>
      obtain ⟨before, after, whole, rfl, -⟩ := find_eq_some found
      split
      · rfl
      · rw [whole, sliceTo_append]
        rfl

theorem ranks_isSome (panelId : Uuid) :
    ((rankCommand lowering query candidate).isSome = true ∧
      (rankPanel lowering query candidate panelId).isSome = true ∧
      (rankFile lowering query candidate).isSome = true) ↔
        (fuzzyScore lowering query candidate).isSome = true := by
  obtain ⟨bonus, bonus_eq⟩ := Option.isSome_iff_exists.mp
    (@boundaryBonus_isSome lowering candidate query)
  rw [rankCommand, rankPanel, rankFile]
  cases fuzzyScore lowering query candidate with
  | none => simp
  | some result =>
      cases result with
      | none => simp
      | some score => simp [bonus_eq]

end Panics

/-- Matching finds subsequences, rewards the starts of words and returns exactly where the
positions of its matches hold in the texts as they were typed. -/
theorem matching_exact_iff_aligned (lowering : Lowering) (query candidate : Text)
    (panelId : Uuid) :
    (MatchesExactly lowering query candidate ∧
      (rankCommand lowering query candidate).isSome = true ∧
      (rankPanel lowering query candidate panelId).isSome = true ∧
      (rankFile lowering query candidate).isSome = true) ↔
    Aligned lowering query candidate := by
  rw [ranks_isSome, ← matchesExactly_iff]
  refine and_iff_left_of_imp fun exactly => ?_
  obtain ⟨result, returned, -⟩ := exactly.returns
  exact Option.isSome_of_eq_some returned

/-- A lowering of ASCII letters and of the one character that becomes two. -/
def asciiLowering : Lowering where
  each text := text.map fun character =>
    if character = Char.ofNat 0x130 then ['i', Char.ofNat 0x307] else [character.toLower]
  one_each := fun _ => List.length_map _
  nonempty := by
    intro text group member
    obtain ⟨character, -, rfl⟩ := List.mem_map.mp member
    split
    · nofun
    · nofun

/-- The candidate has one character, and the query is the second one of its lower case. -/
theorem dotted_capital_panics :
    (asciiLowering.lower [Char.ofNat 0x307]).Sublist (asciiLowering.lower [Char.ofNat 0x130]) ∧
    fuzzyScore asciiLowering [Char.ofNat 0x307] [Char.ofNat 0x130] = none ∧
    rankFile asciiLowering [Char.ofNat 0x307] [Char.ofNat 0x130] = none := by decide +kernel

/-! ## The best results -/

/-- The order of the results as an order of keys. -/
def RankedItem.key (item : RankedItem) : Nat ×ₗ Intᵒᵈ ×ₗ String :=
  toLex (item.rankClass.ordinal, toLex (OrderDual.toDual item.score, item.label))

open Selection

/-- The best of some items, in the order of the heap that drops the worst. -/
def topK (heap : PriorityQueue RankedItem RankedItem.key) (items : List RankedItem) (k : Nat) :
    List RankedItem :=
  if k = 0 then []
  else (heap.items (select heap k items)).mergeSort fun left right => (left.cmp right).isLE

theorem cmp_isLE (left right : RankedItem) :
    (left.cmp right).isLE = decide (left.key ≤ right.key) := by
  rw [Bool.eq_iff_iff, decide_eq_true_eq, RankedItem.key, RankedItem.key,
    Prod.Lex.toLex_le_toLex, Prod.Lex.toLex_le_toLex, RankedItem.cmp, Ordering.isLE_then_iff_or,
    Ordering.isLE_then_iff_or, compare_lt_iff_lt, compare_eq_iff_eq, compare_lt_iff_lt,
    compare_eq_iff_eq, ← Ordering.ne_gt_iff_isLE, ← ne_eq, compare_le_iff_le]
  refine or_congr_right (and_congr_right fun _ => or_congr_right (and_congr_left fun _ => ?_))
  exact eq_comm

theorem topK_eq (heap : PriorityQueue RankedItem RankedItem.key) {k : Nat} (positive : k ≠ 0)
    (items : List RankedItem) :
    topK heap items k = sorted RankedItem.key (heap.items (select heap k items)) := by
  rw [topK, if_neg positive, sorted]
  simp only [cmp_isLE]

/-- The heap has the keys of the full sort, whatever heap it is and in whatever order the
items arrive, and every item of it is one of the given ones. -/
theorem top_k_sorts (heap : PriorityQueue RankedItem RankedItem.key) (items : List RankedItem)
    (k : Nat) :
    (topK heap items k).map RankedItem.key =
      ((items.mergeSort fun left right => (left.cmp right).isLE).map RankedItem.key).take
        (min k items.length) ∧
    (topK heap items k).Subperm items ∧
    ∀ (other : PriorityQueue RankedItem RankedItem.key) (arrived : List RankedItem),
      arrived.Perm items →
      (topK other arrived k).map RankedItem.key = (topK heap items k).map RankedItem.key ∧
      ((∀ left ∈ items, ∀ right ∈ items, left.key = right.key → left = right) →
        topK other arrived k = topK heap items k) := by
  have keys : ∀ (heap : PriorityQueue RankedItem RankedItem.key) (items : List RankedItem),
      (topK heap items k).map RankedItem.key =
        ((sorted RankedItem.key items).map RankedItem.key).take k := by
    intro heap items
    by_cases zero : k = 0
    · rw [topK, if_pos zero, zero]
      rfl
    · rw [topK_eq heap zero]
      exact (select_least k items).keys
  have given : ∀ (heap : PriorityQueue RankedItem RankedItem.key) (items : List RankedItem),
      (topK heap items k).Subperm items := by
    intro heap items
    by_cases zero : k = 0
    · rw [topK, if_pos zero]
      exact List.nil_subperm
    · rw [topK_eq heap zero]
      exact sorted_subperm (select_least k items)
  refine ⟨?_, given heap items, ?_⟩
  · have length : ((sorted RankedItem.key items).map RankedItem.key).length = items.length := by
      rw [List.length_map, (sorted_perm items).length_eq]
    simp only [cmp_isLE]
    rw [keys, ← List.take_length (l := (sorted RankedItem.key items).map RankedItem.key),
      List.take_take, length]
    rfl
  · intro other arrived same
    have equal : (topK other arrived k).map RankedItem.key =
        (topK heap items k).map RankedItem.key := by
      rw [keys, keys, sorted_keys_of_perm same]
    refine ⟨equal, fun distinct => ?_⟩
    have lengths : (topK other arrived k).length = (topK heap items k).length := by
      have sizes := congrArg List.length equal
      rw [List.length_map, List.length_map] at sizes
      exact sizes
    apply List.ext_getElem lengths
    intro position here there
    have one : (topK other arrived k)[position] ∈ items :=
      same.subset ((given other arrived).subset (List.getElem_mem here))
    have two : (topK heap items k)[position] ∈ items :=
      (given heap items).subset (List.getElem_mem there)
    apply distinct _ one _ two
    have places := congrArg (·[position]?) equal
    simp only [List.getElem?_map, List.getElem?_eq_getElem here, List.getElem?_eq_getElem there,
      Option.map_some, Option.some.injEq] at places
    exact places

end TerminalCanvas.Palette
