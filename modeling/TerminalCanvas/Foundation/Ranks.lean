import Mathlib.Data.List.Sort
import Mathlib.Order.Defs.LinearOrder

/-! # Ranks of positions

The positions of a sequence in the order of their keys, equal keys in the order of
the positions, and the rank of a position in it. -/

namespace TerminalCanvas.Ranks

variable {Key : Type} [LinearOrder Key]

/-- The order of two positions under a stable sort. -/
def sortsBefore (key : Nat → Key) (left right : Nat) : Bool :=
  key left < key right ∨ (key left = key right ∧ left ≤ right)

/-- The first positions in the order of their keys. -/
def order (key : Nat → Key) (count : Nat) : List Nat :=
  (List.range count).mergeSort (sortsBefore key)

def rank (key : Nat → Key) (count position : Nat) : Nat :=
  (order key count).idxOf position

theorem mem_order {key : Nat → Key} {count position : Nat} :
    position ∈ order key count ↔ position < count := by
  rw [order, List.mem_mergeSort, List.mem_range]

theorem rank_lt_count {key : Nat → Key} {count position : Nat} (inside : position < count) :
    rank key count position < count := by
  have found := List.idxOf_lt_length_of_mem ((@mem_order _ _ key _ _).mpr inside)
  rwa [order, List.length_mergeSort, List.length_range] at found

theorem order_sorted (key : Nat → Key) (count : Nat) :
    (order key count).Pairwise fun left right => sortsBefore key left right = true := by
  apply List.pairwise_mergeSort
  · intro first second third before after
    simp only [sortsBefore, decide_eq_true_eq] at before after ⊢
    rcases before with before | ⟨before, inOrder⟩
    · rcases after with after | ⟨after, -⟩
      · exact .inl (lt_trans before after)
      · exact .inl (after ▸ before)
    · rcases after with after | ⟨after, later⟩
      · exact .inl (before ▸ after)
      · exact .inr ⟨before.trans after, le_trans inOrder later⟩
  · intro first second
    simp only [sortsBefore, Bool.or_eq_true, decide_eq_true_eq]
    rcases lt_trichotomy (key first) (key second) with less | equal | greater
    · exact .inl (.inl less)
    · rcases Nat.le_total first second with before | after
      · exact .inl (.inr ⟨equal, before⟩)
      · exact .inr (.inr ⟨equal.symm, after⟩)
    · exact .inr (.inl greater)

theorem rank_lt {key : Nat → Key} {count left right : Nat} (leftInside : left < count)
    (rightInside : right < count) (less : key left < key right) :
    rank key count left < rank key count right := by
  have leftMember := (@mem_order _ _ key _ _).mpr leftInside
  have rightMember := (@mem_order _ _ key _ _).mpr rightInside
  by_contra notBefore
  have different : left ≠ right := by
    rintro rfl
    exact lt_irrefl _ less
  have apart : rank key count right ≠ rank key count left := fun equal =>
    different ((List.idxOf_inj leftMember).mp equal.symm)
  have before : rank key count right < rank key count left := by omega
  have sorted := List.pairwise_iff_getElem.mp (order_sorted key count) _ _
    (List.idxOf_lt_length_of_mem rightMember) (List.idxOf_lt_length_of_mem leftMember) before
  simp only [List.getElem_idxOf, sortsBefore, decide_eq_true_eq] at sorted
  rcases sorted with greater | ⟨equal, -⟩
  · exact lt_asymm less greater
  · exact absurd less (by rw [equal]; exact lt_irrefl _)

end TerminalCanvas.Ranks
