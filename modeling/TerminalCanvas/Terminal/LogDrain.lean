import TerminalCanvas.Scrollback.LogCodec
import TerminalCanvas.Terminal.Pty

/-! # Draining the raw log

The raw log of a terminal is a string of encoded frames. A drain with a budget takes
the longest prefix of whole frames within it, and at least one frame. -/

namespace TerminalCanvas.Scrollback

/-! ## Whole frames -/

theorem take_encodeFrames_append (first second : List Frame) :
    (encodeFrames (first ++ second)).take (encodeFrames first).length = encodeFrames first := by
  rw [encodeFrames_append, List.take_left']
  rfl

theorem drop_encodeFrames_append (first second : List Frame) :
    (encodeFrames (first ++ second)).drop (encodeFrames first).length = encodeFrames second := by
  rw [encodeFrames_append, List.drop_left']
  rfl

theorem encodeFrames_eq_nil {frames : List Frame} : encodeFrames frames = [] ↔ frames = [] := by
  cases frames with
  | nil => simp
  | cons frame frames =>
      have length := length_encode frame
      simp only [encodeFrames_cons, List.append_eq_nil_iff, List.cons_ne_nil, iff_false, not_and]
      intro empty
      rw [empty] at length
      simp [frameHeaderBytes] at length
      omega

theorem encode_pos (frame : Frame) : 0 < frame.encode.length := by
  rw [length_encode]
  simp only [frameHeaderBytes]
  omega

theorem Follows.encodable {previousSeq : Option Nat} {frames : List Frame}
    (follows : Follows previousSeq frames) : ∀ frame ∈ frames, frame.Encodable := by
  induction frames generalizing previousSeq with
  | nil => exact List.forall_mem_nil _
  | cons frame frames induction =>
      exact List.forall_mem_cons.mpr ⟨follows.1, induction follows.2.2⟩

theorem length_encodeFrames_lt {frames first second third fourth : List Frame}
    (one : frames = first ++ second) (other : frames = third ++ fourth)
    (fewer : first.length < third.length) :
    (encodeFrames first).length < (encodeFrames third).length := by
  rcases List.append_eq_append_iff.mp (one.symm.trans other) with
    ⟨middle, rfl, -⟩ | ⟨middle, rfl, -⟩
  · cases middle with
    | nil => simp at fewer
    | cons frame middle =>
        have positive := encode_pos frame
        simp only [encodeFrames_append, encodeFrames_cons, List.length_append]
        omega
  · simp only [List.length_append] at fewer
    omega

end TerminalCanvas.Scrollback

namespace TerminalCanvas.Terminal

open Scrollback

/-- A size that a budget allows; no size is above the absent budget. -/
def Within (budget : Option Nat) (size : Nat) : Prop := budget.all (size ≤ ·) = true

instance (budget : Option Nat) (size : Nat) : Decidable (Within budget size) :=
  inferInstanceAs (Decidable (_ = true))

@[simp] theorem within_some {maximum size : Nat} :
    Within (some maximum) size ↔ size ≤ maximum := by
  simp [Within]

theorem not_within {budget : Option Nat} {size : Nat} :
    budget.any (· < size) = true ↔ ¬ Within budget size := by
  cases budget <;> simp [Within]

theorem Within.mono {budget : Option Nat} {size bound : Nat} (within : Within budget bound)
    (smaller : size ≤ bound) : Within budget size := by
  cases budget with
  | none => rfl
  | some maximum => exact within_some.mpr (Nat.le_trans smaller (within_some.mp within))

/-- What a drain with a budget takes off the front of a log, and what it leaves. -/
structure Drained (frames : List Frame) (budget : Option Nat) (taken left : List Frame) :
    Prop where
  whole : frames = taken ++ left
  /-- Only a single frame may exceed the budget. -/
  within : Within budget (encodeFrames taken).length ∨ ∃ first, taken = [first]
  longest : ∀ more rest, frames = more ++ rest → Within budget (encodeFrames more).length →
    more.length ≤ taken.length
  progress : frames ≠ [] → taken ≠ []

variable {frames : List Frame} {budget : Option Nat} {taken left : List Frame}

theorem Drained.oversized (drained : Drained frames budget taken left) {first : Frame}
    {later : List Frame} (split : frames = first :: later)
    (exceeds : ¬ Within budget first.encode.length) : taken = [first] := by
  have whole := drained.whole
  rw [split] at whole
  cases taken with
  | nil => exact absurd rfl (drained.progress (by simp [split]))
  | cons head more =>
      obtain ⟨rfl, -⟩ := List.cons.inj whole
      rcases drained.within with within | ⟨only, alone⟩
      · exact absurd (within.mono (by simp)) exceeds
      · rw [(List.cons.inj alone).2]

/-! ## One step of the loop -/

section Step

variable {first later : List Frame} {frame : Frame}

theorem drainCut_cons (fuel : Nat) (split : frames = first ++ frame :: later)
    (encodable : frame.Encodable) :
    drainCut (encodeFrames frames) budget (fuel + 1) (encodeFrames first).length =
      if first ≠ [] ∧ ¬ Within budget (encodeFrames (first ++ [frame])).length then
        (encodeFrames first).length
      else if budget.any (· ≤ (encodeFrames (first ++ [frame])).length) then
        (encodeFrames (first ++ [frame])).length
      else
        drainCut (encodeFrames frames) budget fuel (encodeFrames (first ++ [frame])).length := by
  have rest : (encodeFrames frames).drop (encodeFrames first).length =
      encodeFrames (frame :: later) := by
    rw [split, drop_encodeFrames_append]
  have payload : frameLength (encodeFrames (frame :: later)) = frame.payload.length := by
    rw [encodeFrames_cons, Frame.encode, frameLength_encodeFrame]
    exact Nat.mod_eq_of_lt encodable.payload
  have next : (encodeFrames first).length + frameHeaderBytes + frame.payload.length =
      (encodeFrames (first ++ [frame])).length := by
    simp [length_encode, Nat.add_assoc]
  have header : ¬ (encodeFrames (frame :: later)).length < frameHeaderBytes := by
    rw [encodeFrames_cons, List.length_append, length_encode]
    omega
  have complete : ¬ (encodeFrames frames).length < (encodeFrames (first ++ [frame])).length := by
    rw [split]
    simp
  have empty : (encodeFrames first).length = 0 ↔ first = [] := by
    rw [List.length_eq_zero_iff, encodeFrames_eq_nil]
  rw [drainCut, rest, if_neg header, payload, next]
  simp only [complete, false_or, ne_eq, empty, not_within]

theorem drained_of_refused (split : frames = first ++ frame :: later) (some : first ≠ [])
    (passed : Within budget (encodeFrames first).length)
    (refused : ¬ Within budget (encodeFrames (first ++ [frame])).length) :
    Drained frames budget first (frame :: later) := by
  refine ⟨split, .inl passed, ?_, fun _ => some⟩
  intro more rest divided within
  have split' : frames = (first ++ [frame]) ++ later := by
    rw [split, List.append_assoc, List.singleton_append]
  by_contra longer
  apply refused
  by_cases same : (first ++ [frame]).length = more.length
  · rw [List.append_inj_left (split'.symm.trans divided) same]
    exact within
  · have fewer : (first ++ [frame]).length < more.length := by
      simp only [List.length_append, List.length_singleton] at same ⊢
      omega
    exact within.mono (Nat.le_of_lt (length_encodeFrames_lt split' divided fewer))

theorem drained_of_full (split : frames = first ++ frame :: later)
    (allowed : ¬ (first ≠ [] ∧ ¬ Within budget (encodeFrames (first ++ [frame])).length))
    (full : budget.any (· ≤ (encodeFrames (first ++ [frame])).length) = true) :
    Drained frames budget (first ++ [frame]) later := by
  have split' : frames = (first ++ [frame]) ++ later := by
    rw [split, List.append_assoc, List.singleton_append]
  refine ⟨split', ?_, ?_, by simp⟩
  · by_cases none : first = []
    · exact .inr ⟨frame, by rw [none, List.nil_append]⟩
    · exact .inl (not_not.mp fun exceeds => allowed ⟨none, exceeds⟩)
  · intro more rest divided within
    by_contra longer
    have bigger := length_encodeFrames_lt split' divided (by omega)
    cases budget with
    | none => cases full
    | some maximum =>
        have reached : maximum ≤ (encodeFrames (first ++ [frame])).length := by simpa using full
        have bounded := within_some.mp within
        omega

end Step

/-! ## The whole loop -/

theorem passed_of_below {first : List Frame}
    (below : first = [] ∨ budget.any (· ≤ (encodeFrames first).length) = false) :
    Within budget (encodeFrames first).length := by
  rcases below with rfl | below
  · cases budget <;> simp [Within]
  · cases budget with
    | none => rfl
    | some maximum => exact within_some.mpr (Nat.le_of_lt (by simpa using below))

theorem drained_all (passed : Within budget (encodeFrames frames).length) :
    Drained frames budget frames [] where
  whole := by rw [List.append_nil]
  within := .inl passed
  longest := by
    intro more rest divided _
    rw [divided, List.length_append]
    omega
  progress := id

/-- The loop behind the frames it has passed. It goes on only while these stay below
the budget. -/
theorem drainCut_drained (fuel : Nat) {first second : List Frame}
    (split : frames = first ++ second) (encodable : ∀ frame ∈ second, frame.Encodable)
    (enough : (encodeFrames second).length ≤ fuel)
    (below : first = [] ∨ budget.any (· ≤ (encodeFrames first).length) = false) :
    ∃ taken left, Drained frames budget taken left ∧
      drainCut (encodeFrames frames) budget fuel (encodeFrames first).length =
        (encodeFrames taken).length := by
  induction fuel generalizing first second with
  | zero =>
      have none : second = [] := encodeFrames_eq_nil.mp (List.length_eq_zero_iff.mp (by omega))
      rw [none, List.append_nil] at split
      subst split
      exact ⟨frames, [], drained_all (passed_of_below below), rfl⟩
  | succ fuel induction =>
      cases second with
      | nil =>
          rw [List.append_nil] at split
          subst split
          refine ⟨frames, [], drained_all (passed_of_below below), ?_⟩
          rw [drainCut, List.drop_length, if_pos (by simp [frameHeaderBytes])]
      | cons frame later =>
          have fits := List.forall_mem_cons.mp encodable
          have positive := encode_pos frame
          rw [drainCut_cons fuel split fits.1]
          split
          · next refused =>
              exact ⟨first, frame :: later,
                drained_of_refused split refused.1 (passed_of_below below) refused.2, rfl⟩
          · next allowed =>
              split
              · next full =>
                  exact ⟨first ++ [frame], later, drained_of_full split allowed full, rfl⟩
              · next room =>
                  have split' : frames = (first ++ [frame]) ++ later := by
                    rw [split, List.append_assoc, List.singleton_append]
                  have shorter : (encodeFrames later).length ≤ fuel := by
                    rw [encodeFrames_cons, List.length_append] at enough
                    omega
                  exact induction split' fits.2 shorter (.inr (by simpa using room))

theorem drainLogPrefix_drained (encodable : ∀ frame ∈ frames, frame.Encodable)
    (positive : budget ≠ some 0) :
    ∃ taken left, Drained frames budget taken left ∧
      drainLogPrefix (encodeFrames frames) budget = (encodeFrames taken, encodeFrames left) := by
  obtain ⟨taken, left, drained, cut⟩ := drainCut_drained (encodeFrames frames).length
    (List.nil_append frames).symm encodable (Nat.le_refl _) (.inl rfl)
  refine ⟨taken, left, drained, ?_⟩
  rw [drainLogPrefix, if_neg positive, List.splitAt_eq]
  rw [encodeFrames_nil, List.length_nil] at cut
  rw [cut, drained.whole, take_encodeFrames_append, drop_encodeFrames_append]

/-- A drain takes the longest prefix of whole frames within its maximum, or a first
frame above it; the maximum `0` asks for nothing. -/
theorem drain_keeps_frames_whole {frames : List Frame}
    (encodable : ∀ frame ∈ frames, frame.Encodable) (maximum : Nat) :
    drainLogPrefix (encodeFrames frames) (some 0) = ([], encodeFrames frames) ∧
    (0 < maximum → ∃ taken left,
      drainLogPrefix (encodeFrames frames) (some maximum) =
        (encodeFrames taken, encodeFrames left) ∧
      frames = taken ++ left ∧ encodeFrames taken ++ encodeFrames left = encodeFrames frames ∧
      ((encodeFrames taken).length ≤ maximum ∨ ∃ first, taken = [first]) ∧
      (∀ first later, frames = first :: later → maximum < first.encode.length →
        taken = [first]) ∧
      (∀ more rest, frames = more ++ rest → (encodeFrames more).length ≤ maximum →
        more.length ≤ taken.length) ∧
      (frames ≠ [] → taken ≠ [])) := by
  refine ⟨rfl, ?_⟩
  intro positive
  have budget : some maximum ≠ some 0 := by simpa using Nat.ne_of_gt positive
  obtain ⟨taken, left, drained, result⟩ := drainLogPrefix_drained encodable budget
  refine ⟨taken, left, result, drained.whole, ?_, ?_, ?_, ?_, drained.progress⟩
  · rw [← encodeFrames_append, ← drained.whole]
  · exact drained.within.imp_left within_some.mp
  · intro first later split exceeds
    exact drained.oversized split (by simpa using exceeds)
  · intro more rest divided within
    exact drained.longest more rest divided (within_some.mpr within)

theorem resize_frames_drained : ∃ taken left,
    drainLogPrefix (encodeFrames [⟨1, .resize, resizePayload 80 24⟩, ⟨2, .clear, []⟩])
      (some 20) = (encodeFrames taken, encodeFrames left) ∧ taken ≠ [] := by
  have encodable : ∀ frame ∈ [(⟨1, .resize, resizePayload 80 24⟩ : Frame), ⟨2, .clear, []⟩],
      frame.Encodable := by
    intro frame member
    rcases List.mem_pair.mp member with rfl | rfl
    · exact ⟨by decide, by decide⟩
    · exact ⟨by decide, by decide⟩
  obtain ⟨taken, left, result, -, -, -, -, -, progress⟩ :=
    (drain_keeps_frames_whole encodable 20).2 (by decide)
  exact ⟨taken, left, result, progress (by simp)⟩

theorem drain_wraps_length (frame : Frame) (wraps : frame.payload.length % 2 ^ 32 = 0) :
    ((drainLogPrefix (encodeFrames [frame]) (some 13)).1).length = 13 := by
  have encoded : encodeFrames [frame] = frame.encode := by simp
  have length := length_encode frame
  simp only [frameHeaderBytes] at length
  have field : frameLength frame.encode = 0 := by
    have read := frameLength_encodeFrame frame.seq frame.kind frame.payload []
    rw [List.append_nil, wraps] at read
    exact read
  have fuel : frame.encode.length = (12 + frame.payload.length) + 1 := by omega
  have cut : drainCut frame.encode (some 13) frame.encode.length 0 = 13 := by
    rw [fuel, drainCut, List.drop_zero, field]
    simp [frameHeaderBytes, length]
  rw [encoded, drainLogPrefix, if_neg (by simp), cut, List.splitAt_eq, List.length_take]
  omega

/-- The maximum `0` makes no progress, and a payload of `2 ^ 32` bytes is cut off
behind its header. -/
theorem drain_stalls_or_splits :
    (∃ frames, frames ≠ [] ∧ (∀ frame ∈ frames, frame.Encodable) ∧
      (drainLogPrefix (encodeFrames frames) (some 0)).1 = []) ∧
    (∃ frames, ∀ taken left, frames = taken ++ left →
      (drainLogPrefix (encodeFrames frames) (some 13)).1 ≠ encodeFrames taken) := by
  obtain ⟨payload, size⟩ : ∃ payload : Bytes, payload.length = 2 ^ 32 :=
    ⟨List.replicate (2 ^ 32) 0, List.length_replicate⟩
  refine ⟨⟨[⟨1, .clear, []⟩], by simp, ?_, rfl⟩, [⟨1, .output, payload⟩], ?_⟩
  · intro frame member
    rw [List.mem_singleton.mp member]
    exact ⟨by decide, by decide⟩
  · intro taken left split drained
    have length := congrArg List.length drained
    rw [drain_wraps_length _ (by rw [size, Nat.mod_self])] at length
    cases taken with
    | nil => simp at length
    | cons frame taken =>
        obtain ⟨rfl, empty⟩ := List.cons.inj split
        have none : taken = [] := (List.append_eq_nil_iff.mp empty.symm).1
        rw [none, encodeFrames_cons, encodeFrames_nil, List.append_nil, length_encode, size]
          at length
        simp only [frameHeaderBytes] at length
        omega

end TerminalCanvas.Terminal
