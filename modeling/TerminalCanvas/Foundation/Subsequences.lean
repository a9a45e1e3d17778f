import Mathlib.Data.List.Induction

/-! # Subsequences, greedily

A list is read once from the left, and each item that is the next one asked for is taken.
No other way of taking items gets further. -/

namespace TerminalCanvas.Subsequences

theorem append_sublist_append {α : Type} {front items : List α} {last item : α} :
    (front ++ [last]).Sublist (items ++ [item]) ↔
      (front ++ [last]).Sublist items ∨ last = item ∧ front.Sublist items := by
  rw [← List.reverse_sublist, ← @List.reverse_sublist _ (front ++ [last]) items,
    ← @List.reverse_sublist _ front items, List.reverse_append, List.reverse_append,
    List.reverse_singleton, List.reverse_singleton, List.singleton_append, List.singleton_append,
    List.sublist_cons_iff]
  refine or_congr_right ⟨?_, ?_⟩
  · rintro ⟨rest, same, inside⟩
    cases same
    exact ⟨rfl, inside⟩
  · rintro ⟨rfl, inside⟩
    exact ⟨_, rfl, inside⟩

variable {α : Type} [DecidableEq α]

/-- One more item was read behind some of the pattern. -/
def advance (pattern : List α) (taken : Nat) (item : α) : Nat :=
  if pattern[taken]? = some item then taken + 1 else taken

/-- How much of a pattern has been taken when a list was read. -/
def taken (pattern items : List α) : Nat := items.foldl (advance pattern) 0

/-- Reading the item at `index` takes the item of the pattern at `number`: no earlier item
brings the pattern that far. -/
structure Takes (pattern items : List α) (index number : Nat) : Prop where
  inside : index < items.length
  asked : number < pattern.length
  reached : (pattern.take (number + 1)).Sublist (items.take (index + 1))
  first : ¬ (pattern.take (number + 1)).Sublist (items.take index)

variable {pattern items : List α} {item : α}

theorem taken_append (items : List α) (item : α) :
    taken pattern (items ++ [item]) = advance pattern (taken pattern items) item := by
  rw [taken, List.foldl_append]
  rfl

theorem take_sublist_iff (items : List α) {number : Nat} (within : number ≤ pattern.length) :
    (pattern.take number).Sublist items ↔ number ≤ taken pattern items := by
  induction items using List.reverseRecOn generalizing number with
  | nil =>
      rw [List.sublist_nil, List.take_eq_nil_iff]
      have nothing : taken pattern [] = 0 := rfl
      rw [nothing]
      constructor
      · rintro (rfl | rfl)
        · exact Nat.le_refl _
        · exact within
      · intro zero
        exact .inl (Nat.le_zero.mp zero)
  | append_singleton items item induction =>
      rw [taken_append, advance]
      cases number with
      | zero => simp
      | succ number =>
          have last : pattern[number]? = some pattern[number] := List.getElem?_eq_getElem within
          rw [List.take_succ_eq_append_getElem within, append_sublist_append,
            ← List.take_succ_eq_append_getElem within, induction within,
            induction (Nat.le_of_lt within)]
          split
          · next asked =>
              constructor
              · rintro (more | ⟨-, behind⟩)
                · omega
                · omega
              · intro bound
                by_cases more : number + 1 ≤ taken pattern items
                · exact .inl more
                · have same : number = taken pattern items := by omega
                  rw [← same, last, Option.some.injEq] at asked
                  exact .inr ⟨asked, by omega⟩
          · next other =>
              constructor
              · rintro (more | ⟨rfl, behind⟩)
                · exact more
                · by_contra less
                  have same : number = taken pattern items := by omega
                  rw [← same] at other
                  exact other last
              · exact .inl

theorem taken_le (items : List α) : taken pattern items ≤ pattern.length := by
  induction items using List.reverseRecOn with
  | nil => exact Nat.zero_le _
  | append_singleton items item induction =>
      rw [taken_append, advance]
      split
      · next asked => exact (List.getElem?_eq_some_iff.mp asked).1
      · exact induction

theorem sublist_iff (items : List α) :
    pattern.Sublist items ↔ taken pattern items = pattern.length := by
  have whole := @take_sublist_iff _ _ pattern items pattern.length (Nat.le_refl _)
  rw [List.take_length] at whole
  have bound := @taken_le _ _ pattern items
  rw [whole]
  omega

theorem takes_iff {index number : Nat} : Takes pattern items index number ↔
    number = taken pattern (items.take index) ∧ number < pattern.length ∧
      index < items.length ∧ pattern[number]? = items[index]? := by
  constructor
  · rintro ⟨inside, asked, reached, first⟩
    have split := List.take_succ_eq_append_getElem inside
    rw [split, take_sublist_iff _ asked, taken_append, advance] at reached
    rw [take_sublist_iff _ asked] at first
    split at reached
    · next found =>
        have same : number = taken pattern (items.take index) := by omega
        refine ⟨same, asked, inside, ?_⟩
        rw [same, found, List.getElem?_eq_getElem inside]
    · omega
  · rintro ⟨rfl, asked, inside, same⟩
    rw [List.getElem?_eq_getElem inside] at same
    refine ⟨inside, asked, ?_, ?_⟩
    · rw [List.take_succ_eq_append_getElem inside, take_sublist_iff _ asked, taken_append]
      exact Nat.le_of_eq (by rw [advance, if_pos same])
    · rw [take_sublist_iff _ asked]
      omega

end TerminalCanvas.Subsequences
