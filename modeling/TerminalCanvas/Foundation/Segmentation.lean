import Mathlib.Data.List.Basic

/-! # Segmentations of texts

A segmentation divides a text into parts that are not empty, such as its grapheme
clusters. -/

namespace TerminalCanvas

structure Segmentation where
  segment : List Char → List (List Char)
  flatten_segment : ∀ text, (segment text).flatten = text
  ne_nil_of_mem : ∀ text, ∀ part ∈ segment text, part ≠ []

namespace Segmentation

variable (segmentation : Segmentation)

/-- What is cut off between two parts has the parts of the whole. -/
def CutsBetween : Prop :=
  ∀ text before after, segmentation.segment text = before ++ after →
    segmentation.segment before.flatten = before ∧ segmentation.segment after.flatten = after

@[simp] theorem segment_nil : segmentation.segment [] = [] := by
  cases parts : segmentation.segment [] with
  | nil => rfl
  | cons part rest =>
      have whole := segmentation.flatten_segment []
      rw [parts, List.flatten_cons] at whole
      exact absurd (List.append_eq_nil_iff.mp whole).1
        (segmentation.ne_nil_of_mem [] part (by rw [parts]; exact List.mem_cons_self))

theorem segment_ne_nil {text : List Char} (some : text ≠ []) :
    segmentation.segment text ≠ [] := by
  intro none
  apply some
  rw [← segmentation.flatten_segment text, none]
  rfl

theorem CutsBetween.middle {segmentation : Segmentation} (cuts : segmentation.CutsBetween)
    {text : List Char} {before parts after : List (List Char)}
    (whole : segmentation.segment text = before ++ (parts ++ after)) :
    segmentation.segment parts.flatten = parts := by
  have behind := (cuts text before (parts ++ after) whole).2
  exact (cuts _ parts after behind).1

def characters : Segmentation where
  segment text := text.map fun character => [character]
  flatten_segment text := by
    induction text with
    | nil => rfl
    | cons character text induction => simpa using induction
  ne_nil_of_mem text := by
    intro part member
    obtain ⟨character, -, rfl⟩ := List.mem_map.mp member
    simp

theorem characters_cutsBetween : characters.CutsBetween := by
  have parts : ∀ parts : List (List Char), (∀ part ∈ parts, ∃ character, part = [character]) →
      characters.segment parts.flatten = parts := by
    intro parts single
    induction parts with
    | nil => rfl
    | cons part parts induction =>
        obtain ⟨⟨character, rfl⟩, rest⟩ := List.forall_mem_cons.mp single
        have tail := induction rest
        simp only [characters] at tail
        simp [characters, tail]
  intro text before after whole
  have single : ∀ part ∈ before ++ after, ∃ character, part = [character] := by
    intro part member
    rw [← whole] at member
    obtain ⟨character, -, rfl⟩ := List.mem_map.mp member
    exact ⟨character, rfl⟩
  rw [List.forall_mem_append] at single
  exact ⟨parts before single.1, parts after single.2⟩

end Segmentation

end TerminalCanvas
