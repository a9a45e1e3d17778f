import Mathlib.Algebra.GroupWithZero.Nat
import Mathlib.Data.List.Basic

/-! # Ranges that lie end to end

Items of some size that are laid out one after another take ranges that lie end to end.
A list that a test splits in two has one point where it does. -/

namespace TerminalCanvas.Ranges

structure Range where
  start : Nat
  stop : Nat
deriving DecidableEq, Repr

def Range.length (range : Range) : Nat := range.stop - range.start

def Range.Inside (range : Range) (offset : Nat) : Prop :=
  range.start < offset ∧ offset < range.stop

/-- Ranges that lie end to end between two offsets. -/
def Contiguous : Nat → List Range → Nat → Prop
  | start, [], stop => start = stop
  | start, range :: ranges, stop =>
      range.start = start ∧ start ≤ range.stop ∧ Contiguous range.stop ranges stop

section Spans

variable {Item : Type} (size : Item → Nat)

/-- The ranges of items that are laid out one after another. -/
def spans : Nat → List Item → List Range
  | _, [] => []
  | offset, item :: items => ⟨offset, offset + size item⟩ :: spans (offset + size item) items

def total (items : List Item) : Nat := (items.map size).sum

@[simp] theorem total_nil : total size [] = 0 := rfl

@[simp] theorem total_cons (item : Item) (items : List Item) :
    total size (item :: items) = size item + total size items := by
  simp [total]

@[simp] theorem total_append (first second : List Item) :
    total size (first ++ second) = total size first + total size second := by
  simp [total]

theorem contiguous_spans (offset : Nat) (items : List Item) :
    Contiguous offset (spans size offset items) (offset + total size items) := by
  induction items generalizing offset with
  | nil => simp [spans, Contiguous]
  | cons item items induction =>
      have rest := induction (offset + size item)
      rw [Nat.add_assoc, ← total_cons] at rest
      exact ⟨rfl, Nat.le_add_right _ _, rest⟩

theorem spans_append (offset : Nat) (first second : List Item) :
    spans size offset (first ++ second) =
      spans size offset first ++ spans size (offset + total size first) second := by
  induction first generalizing offset with
  | nil => simp [spans]
  | cons item first induction =>
      simp only [List.cons_append, spans, induction, total_cons, Nat.add_assoc]

theorem mem_spans {offset : Nat} {items : List Item} {range : Range} :
    range ∈ spans size offset items ↔ ∃ before item after, items = before ++ item :: after ∧
      range = ⟨offset + total size before, offset + total size before + size item⟩ := by
  induction items generalizing offset with
  | nil => simp [spans]
  | cons head items induction =>
      rw [spans, List.mem_cons, induction]
      constructor
      · rintro (rfl | ⟨before, item, after, rfl, rfl⟩)
        · exact ⟨[], head, items, rfl, by simp⟩
        · exact ⟨head :: before, item, after, rfl, by simp [Nat.add_assoc]⟩
      · rintro ⟨before, item, after, split, rfl⟩
        cases before with
        | nil =>
            obtain ⟨rfl, rfl⟩ := List.cons.inj split
            exact .inl (by simp)
        | cons first before =>
            obtain ⟨rfl, rfl⟩ := List.cons.inj split
            exact .inr ⟨before, item, after, rfl, by simp [Nat.add_assoc]⟩

theorem bounds_of_mem_spans {offset : Nat} {items : List Item} {range : Range}
    (member : range ∈ spans size offset items) :
    offset ≤ range.start ∧ range.stop ≤ offset + total size items := by
  obtain ⟨before, item, after, rfl, rfl⟩ := (mem_spans size).mp member
  rw [total_append, total_cons]
  exact ⟨Nat.le_add_right _ _, by dsimp only; omega⟩

end Spans

/-! ## Offsets inside a range -/

def Divides (ranges : List Range) (offset : Nat) : Prop := ∃ range ∈ ranges, range.Inside offset

theorem divides_append {first second : List Range} {offset : Nat} :
    Divides (first ++ second) offset ↔ Divides first offset ∨ Divides second offset := by
  simp only [Divides, List.mem_append]
  constructor
  · rintro ⟨range, member | member, inside⟩
    · exact .inl ⟨range, member, inside⟩
    · exact .inr ⟨range, member, inside⟩
  · rintro (⟨range, member, inside⟩ | ⟨range, member, inside⟩)
    · exact ⟨range, .inl member, inside⟩
    · exact ⟨range, .inr member, inside⟩

theorem not_divides_spans {Item : Type} {size : Item → Nat} {offset place : Nat}
    {items : List Item} (outside : place ≤ offset ∨ offset + total size items ≤ place) :
    ¬ Divides (spans size offset items) place := by
  rintro ⟨range, member, above, below⟩
  have bounds := bounds_of_mem_spans size member
  omega

/-! ## Where a test splits a list -/

section PartitionPoint

variable {Item : Type} {test : Item → Bool}

/-- `items.partition_point(test)`, for items that the test splits in two. -/
def partitionPoint (test : Item → Bool) (items : List Item) : Nat :=
  (items.takeWhile test).length

theorem partitionPoint_append {front back : List Item} (passes : ∀ item ∈ front, test item = true)
    (fails : ∀ item ∈ back, test item = false) :
    partitionPoint test (front ++ back) = front.length := by
  rw [partitionPoint, List.takeWhile_append_of_pos passes, List.length_append]
  cases back with
  | nil => rfl
  | cons item back =>
      rw [List.takeWhile_cons_of_neg (by simp [fails item List.mem_cons_self])]
      rfl

end PartitionPoint

end TerminalCanvas.Ranges
