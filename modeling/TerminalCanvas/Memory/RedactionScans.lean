import TerminalCanvas.Memory.RedactionViews

/-! # The three scans

From one boundary of the text to a later one, each scan comes to the end of the text, and the
spans that it finds on its way may be replaced. -/

namespace TerminalCanvas.Memory.Secrets

open Json (byteLength byteLength_append)
open Slices
open Offsets (Runs)

namespace Redaction

def Covers (span : Redaction) (offset : Nat) : Prop := span.start ≤ offset ∧ offset < span.stop

structure Sound (text : Text) (span : Redaction) : Prop where
  start : Boundary text span.start
  stop : Boundary text span.stop
  ordered : span.start ≤ span.stop
  marked : span.replacement = marker ∨ span.replacement = keyMarker

end Redaction

/-! ## Private keys -/

theorem byteLength_toUpper (character : Char) :
    byteLength [character.toUpper] = byteLength [character] := by
  by_cases lower : 'a'.val ≤ character.val ∧ character.val ≤ 'z'.val
  · have first : 97 ≤ character.val.toNat := UInt32.le_iff_toNat_le.mp lower.1
    have last : character.val.toNat ≤ 122 := UInt32.le_iff_toNat_le.mp lower.2
    have upper : character.toUpper.toNat ≤ 0x7F := by
      have shift : ('A'.val - 'a'.val).toNat = 2 ^ 32 - 32 := by decide
      have sum : character.toUpper.val = character.val + ('A'.val - 'a'.val) := by
        rw [Char.toUpper, dif_pos lower]
      change character.toUpper.val.toNat ≤ 0x7F
      rw [sum, UInt32.toNat_add, shift]
      omega
    have small : character.toNat ≤ 0x7F := Nat.le_trans last (by decide)
    rw [byteLength_single upper, byteLength_single small]
  · rw [Char.toUpper, dif_neg lower]

theorem byteLength_map_toUpper (text : Text) :
    byteLength (text.map Char.toUpper) = byteLength text := by
  induction text with
  | nil => rfl
  | cons character text induction =>
      rw [List.map_cons, byteLength_cons_eq, byteLength_toUpper, induction, ← byteLength_cons_eq]

theorem boundary_of_upper {text : Text} {offset : Nat}
    (boundary : Boundary (text.map Char.toUpper) offset) : Boundary text offset := by
  obtain ⟨before, after, split, rfl⟩ := boundary
  obtain ⟨first, second, rfl, rfl, rfl⟩ := List.map_eq_append_iff.mp split
  rw [byteLength_map_toUpper]
  exact .intro first second

theorem find_newline (rest : Text) : find ['\n'] rest =
    if '\n' ∈ rest then some (byteLength (rest.takeWhile (· ≠ '\n'))) else none := by
  induction rest with
  | nil => rfl
  | cons character rest induction =>
      rw [find, induction]
      by_cases same : character = '\n'
      · subst same
        simp [List.isPrefixOf, byteLength_nil]
      · have other : ¬ '\n' = character := fun equal => same equal.symm
        have passed : ['\n'].isPrefixOf (character :: rest) = false := by
          simp [List.isPrefixOf, other]
        have goesOn : (character :: rest).takeWhile (· ≠ '\n') =
            character :: rest.takeWhile (· ≠ '\n') :=
          List.takeWhile_cons_of_pos (by simpa using same)
        have later : '\n' ∈ character :: rest ↔ '\n' ∈ rest := by simp [other]
        rw [passed, if_neg Bool.false_ne_true, goesOn]
        simp only [later]
        split
        · rw [Option.map_some, ← byteLength_cons_eq]
        · rfl

theorem lineEnd_eq (text before rest : Text)
    (same : byteLength text = byteLength (before ++ rest)) :
    lineEnd text (before ++ rest) (byteLength before) =
      some (byteLength (before ++ rest.takeWhile (· ≠ '\n'))) := by
  rw [lineEnd, sliceFrom_append]
  simp only [Option.bind_eq_bind, Option.bind_some, find_newline]
  split
  · rw [byteLength_append before]
    rfl
  · next single =>
      have whole : rest.takeWhile (· ≠ '\n') = rest := by
        rw [List.takeWhile_eq_self_iff]
        intro character member
        have other : character ≠ '\n' := fun equal => single (equal ▸ member)
        simpa using other
      rw [whole, same]
      rfl

theorem blockEnd_boundary (text before rest : Text)
    (same : byteLength text = byteLength (before ++ rest)) :
    ∃ taken, taken <+: rest ∧
      blockEnd text (before ++ rest) (byteLength before) = some (byteLength (before ++ taken)) := by
  rw [blockEnd, sliceFrom_append]
  simp only [Option.bind_eq_bind, Option.bind_some]
  cases found : find keyEnd rest with
  | none => exact ⟨rest, List.prefix_rfl, congrArg some same⟩
  | some ending =>
      obtain ⟨inside, behind, rfl, rfl, _⟩ := find_eq_some found
      have line := lineEnd_eq text (before ++ inside) behind (by rw [same, List.append_assoc])
      rw [List.append_assoc, byteLength_append before] at line
      have cut := slice_prefix (before ++ inside) (List.takeWhile_prefix (l := behind) (· ≠ '\n'))
      rw [List.append_assoc, byteLength_append before] at cut
      simp only [line, Option.bind_some, cut]
      cases last : find keySuffix (behind.takeWhile (· ≠ '\n')) with
      | none => exact ⟨inside ++ behind, List.prefix_rfl, congrArg some same⟩
      | some suffix =>
          obtain ⟨front, after, split, rfl, starts⟩ := find_eq_some last
          refine ⟨inside ++ (front ++ keySuffix), ?_, ?_⟩
          · refine (List.prefix_append_right_inj inside).mpr ?_
            refine List.IsPrefix.trans ?_ (List.takeWhile_prefix (· ≠ '\n'))
            rw [split]
            exact (List.prefix_append_right_inj front).mpr starts
          · simp only [byteLength_append, Option.map_some, Option.getD_some, Option.pure_def,
              Option.some.injEq]
            omega

/-- A round of the scan of keys takes some of the text, and the key that it finds ends there. -/
theorem keyRound_cases (text before rest : Text)
    (same : byteLength text = byteLength (before ++ rest)) :
    keyRound text (before ++ rest) (byteLength before) = some none ∨
      ∃ front taken found, taken ≠ [] ∧ front ++ taken <+: rest ∧
        keyRound text (before ++ rest) (byteLength before) =
          some (some (byteLength (before ++ front ++ taken), found)) ∧
        (found = [] ∨ found = [⟨byteLength (before ++ front),
          byteLength (before ++ front ++ taken), keyMarker⟩]) := by
  rw [keyRound, sliceFrom_append]
  simp only [Option.bind_eq_bind, Option.bind_some]
  cases begins : find keyBegin rest with
  | none => exact .inl rfl
  | some offset =>
      right
      obtain ⟨front, behind, rfl, rfl, starts⟩ := find_eq_some begins
      have line := lineEnd_eq text (before ++ front) behind (by rw [same, List.append_assoc])
      have cut := slice_prefix (before ++ front) (List.takeWhile_prefix (l := behind) (· ≠ '\n'))
      have first : behind.takeWhile (· ≠ '\n') ≠ [] := by
        obtain ⟨after, rfl⟩ := starts
        have dash : keyBegin ++ after = '-' :: (keyBegin.tail ++ after) := rfl
        rw [dash, List.takeWhile_cons_of_pos (by decide)]
        exact List.cons_ne_nil _ _
      have whole : behind.takeWhile (· ≠ '\n') ++ behind.dropWhile (· ≠ '\n') = behind :=
        List.takeWhile_append_dropWhile
      rw [List.append_assoc, byteLength_append before] at line cut
      simp only [line, Option.bind_some, cut]
      split
      · exact ⟨front, _, [], first, (List.prefix_append_right_inj front).mpr
          (List.takeWhile_prefix _), by rw [List.append_assoc]; rfl, .inl rfl⟩
      · obtain ⟨block, inBlock, ends⟩ := blockEnd_boundary text
          (before ++ (front ++ behind.takeWhile (· ≠ '\n'))) (behind.dropWhile (· ≠ '\n'))
          (by rw [same, List.append_assoc, List.append_assoc, whole])
        rw [List.append_assoc, List.append_assoc, whole] at ends
        have starting : front ++ (behind.takeWhile (· ≠ '\n') ++ block) <+: front ++ behind := by
          obtain ⟨after, split⟩ := inBlock
          refine ⟨after, ?_⟩
          rw [List.append_assoc, List.append_assoc, split, whole]
        refine ⟨front, behind.takeWhile (· ≠ '\n') ++ block, _,
          List.append_ne_nil_of_left_ne_nil first _, starting, ?_, .inr rfl⟩
        rw [← List.append_assoc before front (behind.takeWhile _)] at ends
        rw [ends, Option.bind_some, byteLength_append before front, ← List.append_assoc]
        rfl

/-! ## Runs -/

theorem boundary_of_starts (before : Text) {taken rest : Text} (starts : taken <+: rest) :
    Boundary (before ++ rest) (byteLength (before ++ taken)) := by
  obtain ⟨after, rfl⟩ := starts
  rw [← List.append_assoc]
  exact .intro _ _

theorem sound_of_starts (before : Text) {front value rest : Text} (starts : front ++ value <+: rest)
    {replacement : Text} (marked : replacement = marker ∨ replacement = keyMarker) :
    Redaction.Sound (before ++ rest)
      ⟨byteLength (before ++ front), byteLength (before ++ front ++ value), replacement⟩ := by
  refine ⟨boundary_of_starts before ((List.prefix_append front value).trans starts), ?_, ?_, marked⟩
  · rw [List.append_assoc]
    exact boundary_of_starts before starts
  · dsimp only
    rw [byteLength_append _ value]
    exact Nat.le_add_right _ _

theorem labelStep_value {rest front value : Text}
    (found : (labelStep rest).2 = some (front, value)) :
    (labelStep rest).1 = front ++ value := by
  revert found
  unfold labelStep
  split
  · nofun
  · split
    · nofun
    · rintro ⟨⟩
      rfl

theorem labels_run (text : Text) :
    ∃ spans, labelSpans text = some spans ∧ Runs (labelRound text) 0 spans ∧
      ∀ span ∈ spans, span.Sound text := by
  refine @Offsets.loop_runs _ _ (byteLength text) (Boundary text) _ ?_ _ 0 ⟨[], text, rfl, rfl⟩
    (by omega) (Nat.zero_le _)
  rintro _ ⟨before, rest, rfl, rfl⟩
  by_cases more : rest = []
  · left
    rw [more, List.append_nil, labelRound_end]
  · right
    obtain ⟨starts, moves⟩ := labelStep_starts more
    have reached := boundary_of_starts before starts
    refine ⟨_, _, labelRound_eq before more, byteLength_lt_append.mpr moves, reached.le, reached,
      fun span member => ?_⟩
    obtain ⟨⟨front, value⟩, found, rfl⟩ := Option.map_eq_some_iff.mp (Option.mem_toList.mp member)
    exact sound_of_starts before (labelStep_value found ▸ starts) (.inl rfl)

theorem tokens_run (text : Text) :
    ∃ spans, tokenSpans text = some spans ∧ Runs (tokenRound text) 0 spans ∧
      ∀ span ∈ spans, span.Sound text := by
  refine @Offsets.loop_runs _ _ (byteLength text) (Boundary text) _ ?_ _ 0 ⟨[], text, rfl, rfl⟩
    (by omega) (Nat.zero_le _)
  rintro _ ⟨before, rest, rfl, rfl⟩
  by_cases more : rest = []
  · left
    rw [more, List.append_nil, tokenRound_end]
  · right
    obtain ⟨starts, moves⟩ := tokenStep_starts more
    have reached := boundary_of_starts before starts
    refine ⟨_, _, tokenRound_eq before more, byteLength_lt_append.mpr moves, reached.le, reached,
      fun span member => ?_⟩
    split at member
    · rw [List.mem_singleton.mp member]
      have token := @sound_of_starts before [] _ rest (tokenFrom_starts false rest) marker
        (.inl rfl)
      rwa [List.append_nil] at token
    · cases member

theorem keys_run (text : Text) :
    ∃ spans, privateKeySpans text = some spans ∧
      Runs (keyRound text (text.map Char.toUpper)) 0 spans ∧ ∀ span ∈ spans, span.Sound text := by
  refine @Offsets.loop_runs _ _ (byteLength text) (Boundary (text.map Char.toUpper)) _ ?_ _ 0
    ⟨[], _, rfl, rfl⟩ (by omega) (Nat.zero_le _)
  rintro _ ⟨before, rest, upper, rfl⟩
  have same : byteLength text = byteLength (before ++ rest) := by
    rw [← upper, byteLength_map_toUpper]
  rw [upper]
  rcases keyRound_cases text before rest same with
    left | ⟨front, taken, found, some, starts, step, which⟩
  · exact .inl left
  · right
    have reached := boundary_of_starts before starts
    rw [← List.append_assoc] at reached
    refine ⟨_, found, step, ?_, same ▸ reached.le, reached, fun span member => ?_⟩
    · rw [List.append_assoc]
      exact byteLength_lt_append.mpr (List.append_ne_nil_of_right_ne_nil _ some)
    · rcases which with rfl | rfl
      · cases member
      · rw [List.mem_singleton.mp member]
        obtain ⟨start, stop, ordered, marked⟩ := sound_of_starts before starts (.inr rfl)
        rw [← upper] at start stop
        exact ⟨boundary_of_upper start, boundary_of_upper stop, ordered, marked⟩

end TerminalCanvas.Memory.Secrets
