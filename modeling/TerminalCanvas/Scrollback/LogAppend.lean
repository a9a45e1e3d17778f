import TerminalCanvas.Scrollback.LogCodec

/-! # What an append leaves in the file

An acknowledged append leaves the whole batch behind the durable frames. A failed
one leaves the durable frames alone, or, when its rollback could not truncate the
file, the frames of the batch that were already complete. -/

namespace TerminalCanvas.Scrollback

/-- The frames of a batch that a failed write leaves behind. -/
def strandedFrames (answer : AppendAnswer) (batch : List Frame) : Nat :=
  match answer with
  | .writeFails written false _ => completeFrames written batch
  | _ => 0

/-- The bytes of a log that reads as these frames. -/
def ReadsAs (bytes : Bytes) (generation : UInt32) (frames : List Frame) : Prop :=
  readFrames bytes = some (generation, frames)

theorem readsAs_iff {bytes : Bytes} {generation : UInt32} {frames : List Frame} :
    ReadsAs bytes generation frames ↔
      Follows none frames ∧
      ∃ tail, bytes = encodeHeader generation ++ encodeFrames frames ++ tail ∧
        readFrame (lastSeq none frames) tail = .stop := by
  simp [ReadsAs, readFrames_eq_some, readFramesWithValidLen_eq_some]

theorem readsAs_encode {generation : UInt32} {frames : List Frame}
    (follows : Follows none frames) :
    ReadsAs (encodeHeader generation ++ encodeFrames frames) generation frames :=
  readsAs_iff.mpr ⟨follows, [], by simp, rfl⟩

theorem readsAs_header (generation : UInt32) : ReadsAs (encodeHeader generation) generation [] :=
  readsAs_iff.mpr ⟨trivial, [], by simp, rfl⟩

variable {generation : UInt32} {durable batch : List Frame} {bytes : Bytes} {validLen : Nat}

theorem continuesSequence_of_follows (follows : Follows (lastSeq none durable) batch) :
    continuesSequence durable batch = true := by
  unfold continuesSequence
  split
  · next last first isLast isFirst =>
      cases batch with
      | nil => cases isFirst
      | cons frame frames =>
          cases isFirst
          have continues := follows.2.1
          rw [lastSeq_eq_getLast, isLast] at continues
          simpa [breaksSequence] using continues
  · rfl

theorem follows_none {previousSeq : Option Nat} (follows : Follows previousSeq batch) :
    Follows none batch := by
  cases batch with
  | nil => trivial
  | cons frame frames => exact ⟨follows.1, rfl, follows.2.2⟩

/-- What an append may leave of a batch behind the durable frames. -/
def Leaves (answer : AppendAnswer) (generation : UInt32) (durable batch : List Frame)
    (result : Except IoError Unit) (after : Bytes) : Prop :=
  (result = .ok () ∧ ReadsAs after generation (durable ++ batch) ∧
      ∀ written setLen sync, answer ≠ .writeFails written setLen sync) ∨
    ((∃ error, result = .error error) ∧
      ReadsAs after generation (durable ++ batch.take (strandedFrames answer batch)))

theorem leaves_of_refused {answer : AppendAnswer} (error : IoError)
    (none : strandedFrames answer batch = 0) (read : ReadsAs bytes generation durable) :
    Leaves answer generation durable batch (.error error) bytes :=
  .inr ⟨⟨error, rfl⟩, by simpa [none] using read⟩

theorem appendAt_leaves (answer : AppendAnswer) (durableFollows : Follows none durable)
    (follows : Follows (lastSeq none durable) batch) :
    Leaves answer generation durable batch
      (appendAt answer (encodeHeader generation ++ encodeFrames durable)
        (encodeFrames batch)).1
      (appendAt answer (encodeHeader generation ++ encodeFrames durable)
        (encodeFrames batch)).2 := by
  have acknowledged : ReadsAs
      (encodeHeader generation ++ encodeFrames durable ++ encodeFrames batch) generation
      (durable ++ batch) := by
    rw [List.append_assoc, ← encodeFrames_append]
    exact readsAs_encode (follows_append.mpr ⟨durableFollows, follows⟩)
  cases answer with
  | writeFails written setLen sync =>
      cases setLen with
      | true => exact leaves_of_refused _ rfl (readsAs_encode durableFollows)
      | false =>
          rcases take_encodeFrames written follows with ⟨tail, torn, stopped⟩
          refine .inr ⟨⟨_, rfl⟩, readsAs_iff.mpr ⟨?_, tail, ?_, ?_⟩⟩
          · rw [follows_append]
            refine ⟨durableFollows, ?_⟩
            rw [← List.take_append_drop (completeFrames written batch) batch,
              follows_append] at follows
            exact follows.1
          · simp [appendAt, strandedFrames, torn]
          · rw [lastSeq_append]
            exact stopped
  | _ => exact .inl ⟨rfl, acknowledged, by simp⟩

theorem appendFrames_leaves (answer : AppendAnswer)
    (read : ReadsAs bytes generation durable)
    (follows : Follows (lastSeq none durable) batch) :
    ∃ result after, appendFrames answer (some bytes) (encodeFrames batch) =
        (result, some after) ∧ Leaves answer generation durable batch result after := by
  have incoming := readFramesWithValidLen_encode 0 (follows_none follows)
  rcases readFrames_eq_some.mp read with ⟨validLen, whole⟩
  have durableFollows := (readsAs_iff.mp read).1
  have complete : ¬ headerBytes + (encodeFrames batch).length ≠
      (encodeHeader 0 ++ encodeFrames batch).length := by simp
  unfold appendFrames
  rw [incoming]
  simp only [existingOrCreated, whole, continuesSequence_of_follows follows, if_neg complete,
    take_validLen whole, Bool.true_eq_false, if_false]
  split
  · next reading =>
      exact ⟨_, _, rfl, leaves_of_refused .io (by rw [reading]; rfl) read⟩
  · split
    · next opening =>
        refine ⟨_, _, rfl, leaves_of_refused .io ?_ read⟩
        rcases opening with opening | ⟨repairing, -⟩
        · rw [opening]; rfl
        · rw [repairing]; rfl
    · split
      · next seeking =>
          exact ⟨_, _, rfl, leaves_of_refused .io (by rw [seeking]; rfl)
            (readsAs_encode durableFollows)⟩
      · exact ⟨_, _, rfl, appendAt_leaves answer durableFollows follows⟩

end TerminalCanvas.Scrollback
