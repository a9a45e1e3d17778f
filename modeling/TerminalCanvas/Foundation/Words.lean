import Mathlib.Data.List.Basic

/-! # Words

The parts of a list between separators, and which words a first part of a list has. -/

namespace TerminalCanvas

variable {α : Type} (separates : α → Bool)

/-- The words of a list. Several separators in a row count as one. -/
def words (items : List α) : List (List α) :=
  (items.splitOnP separates).filter (!·.isEmpty)

variable {separates} {first second rest : List α} {separator : α}

theorem words_of_no_separator (none : ∀ item ∈ first, separates item = false) :
    words separates first = if first.isEmpty then [] else [first] := by
  rw [words, List.splitOnP_eq_singleton none]
  cases first <;> rfl

theorem words_append_cons (none : ∀ item ∈ first, separates item = false)
    (separated : separates separator = true) (nonempty : first ≠ []) :
    words separates (first ++ separator :: rest) = first :: words separates rest := by
  rw [words, List.splitOnP_append_cons_of_forall_mem none separator separated,
    List.filter_cons_of_pos]
  · rfl
  · simpa using nonempty

theorem head_words_take (none : ∀ item ∈ first, separates item = false)
    (separated : separates separator = true) (nonempty : first ≠ []) {count : Nat}
    {word : List α}
    (head : (words separates ((first ++ separator :: rest).take count))[0]? = some word) :
    ∃ kept, word = first.take kept := by
  rcases Nat.lt_or_ge first.length count with longer | shorter
  · obtain ⟨more, rfl⟩ := Nat.exists_eq_add_of_lt longer
    have front : (first ++ separator :: rest).take (first.length + more + 1) =
        first ++ separator :: rest.take more := by
      rw [Nat.add_assoc, List.take_length_add_append, List.take_succ_cons]
    rw [front, words_append_cons none separated nonempty] at head
    exact ⟨first.length, by rw [List.take_length]; exact (Option.some.inj head).symm⟩
  · have none' : ∀ item ∈ first.take count, separates item = false :=
      fun item member => none item (List.mem_of_mem_take member)
    rw [List.take_append_of_le_length shorter, words_of_no_separator none'] at head
    split at head
    · cases head
    · exact ⟨count, (Option.some.inj head).symm⟩

theorem second_words_take (firstNone : ∀ item ∈ first, separates item = false)
    (secondNone : ∀ item ∈ second, separates item = false)
    (separated : separates separator = true) (firstNonempty : first ≠ [])
    (secondNonempty : second ≠ []) {count : Nat} {word : List α}
    (at' : (words separates
      ((first ++ separator :: (second ++ separator :: rest)).take count))[1]? = some word) :
    ∃ kept, word = second.take kept := by
  rcases Nat.lt_or_ge first.length count with longer | shorter
  · obtain ⟨more, rfl⟩ := Nat.exists_eq_add_of_lt longer
    have front : (first ++ separator :: (second ++ separator :: rest)).take
        (first.length + more + 1) =
          first ++ separator :: (second ++ separator :: rest).take more := by
      rw [Nat.add_assoc, List.take_length_add_append, List.take_succ_cons]
    rw [front, words_append_cons firstNone separated firstNonempty, List.getElem?_cons_succ] at at'
    exact head_words_take secondNone separated secondNonempty at'
  · have none' : ∀ item ∈ first.take count, separates item = false :=
      fun item member => firstNone item (List.mem_of_mem_take member)
    rw [List.take_append_of_le_length shorter, words_of_no_separator none'] at at'
    split at at' <;> cases at'

end TerminalCanvas
