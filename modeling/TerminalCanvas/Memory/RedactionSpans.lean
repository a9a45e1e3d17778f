import Mathlib.Data.List.Sort
import TerminalCanvas.Memory.RedactionScans

/-! # Redaction and its spans

Of what the scans detect, spans that overlap are merged, and the text is copied around them. -/

namespace TerminalCanvas.Memory.Secrets

open Json (byteLength byteLength_append)
open Slices
open Offsets (Runs)

/-! ## Merging -/

/-- Spans in the order of the text, none of which reaches into the next. -/
def Apart (spans : List Redaction) : Prop :=
  spans.Pairwise fun left right => left.stop ≤ right.start

structure Merges (spans merged : List Redaction) : Prop where
  apart : Apart merged
  covers : ∀ offset, (∃ span ∈ merged, span.Covers offset) ↔ ∃ span ∈ spans, span.Covers offset
  inside : ∀ span ∈ spans, ∃ whole ∈ merged, whole.start ≤ span.start ∧ span.stop ≤ whole.stop
  made : ∀ whole ∈ merged, ∃ first ∈ spans, ∃ last ∈ spans, whole.start = first.start ∧
    whole.replacement = first.replacement ∧ whole.stop = last.stop ∧ whole.start ≤ whole.stop

theorem mergeInto_merges {last : Redaction} {spans : List Redaction}
    (sorted : ∀ span ∈ spans, last.start ≤ span.start)
    (rest : spans.Pairwise fun left right => left.start ≤ right.start)
    (ordered : ∀ span ∈ last :: spans, span.start ≤ span.stop) :
    Merges (last :: spans) (mergeInto last spans) ∧
      ∀ whole ∈ mergeInto last spans, last.start ≤ whole.start := by
  induction spans generalizing last with
  | nil =>
      refine ⟨⟨List.pairwise_singleton _ _, fun _ => Iff.rfl, ?_, ?_⟩, ?_⟩
      · exact fun span member => ⟨span, member, Nat.le_refl _, Nat.le_refl _⟩
      · exact fun whole member =>
          ⟨whole, member, whole, member, rfl, rfl, rfl, ordered whole member⟩
      · exact List.forall_mem_singleton.mpr (Nat.le_refl _)
  | cons span spans induction =>
      obtain ⟨first, later⟩ := List.pairwise_cons.mp rest
      have behind := sorted span List.mem_cons_self
      have lastOrdered := ordered last List.mem_cons_self
      have spanOrdered := ordered span (List.mem_cons_of_mem _ List.mem_cons_self)
      have others (other : Redaction) (member : other ∈ spans) : other.start ≤ other.stop :=
        ordered other (List.mem_cons_of_mem _ (List.mem_cons_of_mem _ member))
      rw [mergeInto]
      split
      · next overlap =>
          obtain ⟨merges, onward⟩ := @induction { last with stop := max last.stop span.stop }
            (fun other member => Nat.le_trans behind (first other member)) later
            (List.forall_mem_cons.mpr ⟨Nat.le_trans lastOrdered (Nat.le_max_left _ _), others⟩)
          refine ⟨⟨merges.apart, fun offset => ?_, fun other member => ?_,
            fun whole member => ?_⟩, onward⟩
          · rw [merges.covers]
            simp only [List.exists_mem_cons_iff, Redaction.Covers, ← or_assoc]
            refine or_congr ?_ Iff.rfl
            omega
          · rcases List.mem_cons.mp member with rfl | member
            · obtain ⟨whole, wholeMember, starts, stops⟩ := merges.inside _ List.mem_cons_self
              exact ⟨whole, wholeMember, starts, Nat.le_trans (Nat.le_max_left _ _) stops⟩
            rcases List.mem_cons.mp member with rfl | member
            · obtain ⟨whole, wholeMember, starts, stops⟩ := merges.inside _ List.mem_cons_self
              exact ⟨whole, wholeMember, Nat.le_trans starts behind,
                Nat.le_trans (Nat.le_max_right _ _) stops⟩
            · exact merges.inside other (List.mem_cons_of_mem _ member)
          · obtain ⟨first, firstMember, final, finalMember, starts, replaced, stops, bounds⟩ :=
              merges.made whole member
            obtain ⟨one, oneMember, sameStart, sameMark⟩ : ∃ one ∈ last :: span :: spans,
                first.start = one.start ∧ first.replacement = one.replacement := by
              rcases List.mem_cons.mp firstMember with rfl | firstMember
              · exact ⟨last, List.mem_cons_self, rfl, rfl⟩
              · exact ⟨first, List.mem_cons_of_mem _ (List.mem_cons_of_mem _ firstMember), rfl, rfl⟩
            obtain ⟨other, otherMember, sameStop⟩ : ∃ other ∈ last :: span :: spans,
                final.stop = other.stop := by
              rcases List.mem_cons.mp finalMember with rfl | finalMember
              · rcases Nat.le_total last.stop span.stop with longer | longer
                · exact ⟨span, List.mem_cons_of_mem _ List.mem_cons_self, Nat.max_eq_right longer⟩
                · exact ⟨last, List.mem_cons_self, Nat.max_eq_left longer⟩
              · exact ⟨final, List.mem_cons_of_mem _ (List.mem_cons_of_mem _ finalMember), rfl⟩
            exact ⟨one, oneMember, other, otherMember, starts.trans sameStart,
              replaced.trans sameMark, stops.trans sameStop, bounds⟩
      · next apart =>
          obtain ⟨merges, onward⟩ := induction first later (List.forall_mem_cons.mpr
            ⟨spanOrdered, others⟩)
          refine ⟨⟨List.pairwise_cons.mpr ⟨fun whole member => ?_, merges.apart⟩,
            fun offset => ?_, fun other member => ?_, fun whole member => ?_⟩, ?_⟩
          · exact Nat.le_trans (Nat.le_of_not_lt apart) (onward whole member)
          · rw [List.exists_mem_cons_iff, List.exists_mem_cons_iff, merges.covers]
          · rcases List.mem_cons.mp member with rfl | member
            · exact ⟨other, List.mem_cons_self, Nat.le_refl _, Nat.le_refl _⟩
            · obtain ⟨whole, wholeMember, bounds⟩ := merges.inside other member
              exact ⟨whole, List.mem_cons_of_mem _ wholeMember, bounds⟩
          · rcases List.mem_cons.mp member with rfl | member
            · exact ⟨whole, List.mem_cons_self, whole, List.mem_cons_self, rfl, rfl, rfl,
                lastOrdered⟩
            · obtain ⟨first, firstMember, last, lastMember, bounds⟩ := merges.made whole member
              exact ⟨first, List.mem_cons_of_mem _ firstMember, last,
                List.mem_cons_of_mem _ lastMember, bounds⟩
          · refine List.forall_mem_cons.mpr ⟨Nat.le_refl _, fun whole member => ?_⟩
            exact Nat.le_trans behind (onward whole member)

theorem merged_merges {spans : List Redaction}
    (ordered : ∀ span ∈ spans, span.start ≤ span.stop) : Merges spans (merged spans) := by
  have perm := List.mergeSort_perm spans startsBefore
  have sorted : (spans.mergeSort startsBefore).Pairwise fun left right =>
      left.start ≤ right.start := by
    have transitive (one two three : Redaction) (first : startsBefore one two = true)
        (second : startsBefore two three = true) : startsBefore one three = true := by
      simp only [startsBefore, Bool.or_eq_true, Bool.and_eq_true, decide_eq_true_eq]
        at first second ⊢
      omega
    have total (one two : Redaction) : (startsBefore one two || startsBefore two one) = true := by
      simp only [startsBefore, Bool.or_eq_true, Bool.and_eq_true, decide_eq_true_eq]
      omega
    refine (List.pairwise_mergeSort transitive total spans).imp fun {left right} before => ?_
    simp only [startsBefore, Bool.or_eq_true, Bool.and_eq_true, decide_eq_true_eq] at before
    omega
  have same (span : Redaction) : span ∈ spans.mergeSort startsBefore ↔ span ∈ spans := perm.mem_iff
  have merges : Merges (spans.mergeSort startsBefore) (merged spans) := by
    rw [merged]
    split
    · next nothing =>
        rw [nothing]
        exact ⟨List.Pairwise.nil, fun _ => Iff.rfl, List.forall_mem_nil _, List.forall_mem_nil _⟩
    · next span rest found =>
        rw [found] at sorted ⊢
        obtain ⟨first, later⟩ := List.pairwise_cons.mp sorted
        exact (mergeInto_merges first later fun span member =>
          ordered span ((same span).mp (found ▸ member))).1
  refine ⟨merges.apart, fun offset => ?_, fun span member => ?_, fun whole member => ?_⟩
  · rw [merges.covers]
    simp only [same]
  · exact merges.inside span ((same span).mpr member)
  · obtain ⟨first, firstMember, last, lastMember, bounds⟩ := merges.made whole member
    exact ⟨first, (same first).mp firstMember, last, (same last).mp lastMember, bounds⟩

/-! ## Replacing -/

/-- A text with a replacement in the place of each span, behind some text before it. -/
inductive Replaces : Text → Text → List Redaction → Text → Prop where
  | rest (before rest : Text) : Replaces before rest [] rest
  | span {before kept removed behind output : Text} {span : Redaction} {spans : List Redaction}
      (start : span.start = byteLength (before ++ kept))
      (stop : span.stop = byteLength (before ++ kept ++ removed))
      (later : Replaces (before ++ kept ++ removed) behind spans output) :
      Replaces before (kept ++ removed ++ behind) (span :: spans)
        (kept ++ span.replacement ++ output)

theorem boundary_behind {before rest : Text} {offset : Nat}
    (boundary : Boundary (before ++ rest) offset) (reached : byteLength before ≤ offset) :
    ∃ front behind, rest = front ++ behind ∧ offset = byteLength (before ++ front) := by
  obtain ⟨first, second, split, rfl⟩ := boundary
  rcases List.append_eq_append_iff.mp split with ⟨front, rfl, rfl⟩ | ⟨middle, rfl, rfl⟩
  · exact ⟨front, second, rfl, rfl⟩
  · rw [byteLength_append] at reached
    cases middle with
    | nil => exact ⟨[], rest, rfl, by rw [List.append_nil, List.append_nil]⟩
    | cons character middle =>
        have positive := byteLength_single_pos character
        rw [byteLength_cons_eq] at reached
        omega

theorem replaceSpans_replaces {spans : List Redaction} (before rest : Text)
    (apart : Apart spans) (sound : ∀ span ∈ spans, span.Sound (before ++ rest))
    (behind : ∀ span ∈ spans, byteLength before ≤ span.start) :
    ∃ output, replaceSpans (before ++ rest) (byteLength before) spans = some output ∧
      Replaces before rest spans output := by
  induction spans generalizing before rest with
  | nil => exact ⟨rest, by rw [replaceSpans, sliceFrom_append], .rest before rest⟩
  | cons span spans induction =>
      obtain ⟨first, later⟩ := List.pairwise_cons.mp apart
      have own := sound span List.mem_cons_self
      obtain ⟨kept, behindStart, rfl, start⟩ :=
        boundary_behind own.start (behind span List.mem_cons_self)
      have reached : byteLength (before ++ kept) ≤ span.stop := start ▸ own.ordered
      have sameText : before ++ (kept ++ behindStart) = (before ++ kept) ++ behindStart :=
        (List.append_assoc ..).symm
      rw [sameText] at sound own
      obtain ⟨removed, behindStop, rfl, stop⟩ := boundary_behind own.stop reached
      have onwards : before ++ (kept ++ (removed ++ behindStop)) =
          (before ++ kept ++ removed) ++ behindStop := by simp
      rw [← List.append_assoc] at sound
      obtain ⟨output, replaced, replaces⟩ := induction (before ++ kept ++ removed) behindStop later
        (fun other member => sound other (List.mem_cons_of_mem _ member))
        fun other member => stop ▸ first other member
      refine ⟨kept ++ span.replacement ++ output, ?_, ?_⟩
      · rw [replaceSpans, start, slice_append, onwards, stop]
        simp only [Option.bind_eq_bind, Option.bind_some, replaced]
        rfl
      · rw [← List.append_assoc]
        exact .span start stop replaces

theorem detected_eq (text : Text) : ∃ keys labels tokens,
    (privateKeySpans text = some keys ∧ Runs (keyRound text (text.map Char.toUpper)) 0 keys) ∧
    (labelSpans text = some labels ∧ Runs (labelRound text) 0 labels) ∧
    (tokenSpans text = some tokens ∧ Runs (tokenRound text) 0 tokens) ∧
    detected text = some (keys ++ labels ++ tokens) ∧
    ∀ span ∈ keys ++ labels ++ tokens, span.Sound text := by
  obtain ⟨keys, keySpans, keyRuns, keysSound⟩ := keys_run text
  obtain ⟨labels, labelSpans, labelRuns, labelsSound⟩ := labels_run text
  obtain ⟨tokens, tokenSpans, tokenRuns, tokensSound⟩ := tokens_run text
  refine ⟨keys, labels, tokens, ⟨keySpans, keyRuns⟩, ⟨labelSpans, labelRuns⟩,
    ⟨tokenSpans, tokenRuns⟩, ?_, ?_⟩
  · rw [detected, keySpans, labelSpans, tokenSpans]
    rfl
  · intro span member
    rcases List.mem_append.mp member with member | member
    · rcases List.mem_append.mp member with member | member
      · exact keysSound span member
      · exact labelsSound span member
    · exact tokensSound span member

/-- Redaction touches what the scans detect, and nothing else. -/
theorem redaction_touches_detected (text : Text) : ∃ keys labels tokens output,
    (privateKeySpans text = some keys ∧ Runs (keyRound text (text.map Char.toUpper)) 0 keys) ∧
    (labelSpans text = some labels ∧ Runs (labelRound text) 0 labels) ∧
    (tokenSpans text = some tokens ∧ Runs (tokenRound text) 0 tokens) ∧
    (∀ span ∈ keys ++ labels ++ tokens, span.Sound text) ∧
    (∀ span ∈ merged (keys ++ labels ++ tokens), span.Sound text) ∧
    Merges (keys ++ labels ++ tokens) (merged (keys ++ labels ++ tokens)) ∧
    redactSecrets text = some output ∧
    Replaces [] text (merged (keys ++ labels ++ tokens)) output := by
  obtain ⟨keys, labels, tokens, keysRun, labelsRun, tokensRun, found, sound⟩ := detected_eq text
  have merges := merged_merges fun span member => (sound span member).ordered
  have mergedSound : ∀ span ∈ merged (keys ++ labels ++ tokens), span.Sound text := by
    intro span member
    obtain ⟨first, firstMember, last, lastMember, starts, marked, stops, ordered⟩ :=
      merges.made span member
    exact ⟨starts ▸ (sound first firstMember).start, stops ▸ (sound last lastMember).stop,
      ordered, marked ▸ (sound first firstMember).marked⟩
  obtain ⟨output, replaced, replaces⟩ := replaceSpans_replaces [] text merges.apart mergedSound
    fun _ _ => Nat.zero_le _
  have redacted : redactSecrets text = some output := by
    rw [redactSecrets, found]
    exact replaced
  exact ⟨keys, labels, tokens, output, keysRun, labelsRun, tokensRun, sound, mergedSound, merges,
    redacted, replaces⟩

end TerminalCanvas.Memory.Secrets
