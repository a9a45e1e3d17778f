import Mathlib.Data.List.Chain
import TerminalCanvas.Scrollback.LogAppend

/-! # What a crash leaves readable

A log that was cut anywhere behind its header reads as the frames that are whole,
and an append is all of its batch or none of it. Both are stated against frames
with consecutive numbers, without the reader's own checks. -/

namespace TerminalCanvas.Scrollback

/-- Frames whose numbers fit their fields and are consecutive. -/
structure Contiguous (frames : List Frame) : Prop where
  encodable : ∀ frame ∈ frames, frame.Encodable
  consecutive : frames.IsChain fun frame next => next.seq = frame.seq + 1

/-- The file that holds these frames and nothing else. -/
def encodeLog (generation : UInt32) (frames : List Frame) : Bytes :=
  encodeHeader generation ++ encodeFrames frames

@[simp] theorem length_encodeLog (generation : UInt32) (frames : List Frame) :
    (encodeLog generation frames).length = headerBytes + (encodeFrames frames).length := by
  simp [encodeLog]

theorem breaksSequence_some {previous seq : Nat} (inRange : seq ≤ u64Max) :
    breaksSequence (some previous) seq = false ↔ seq = previous + 1 := by
  simp only [breaksSequence, Option.any_some, decide_eq_false_iff_not, not_not, ne_eq,
    checkedAddU64_eq_some]
  omega

theorem follows_iff {previousSeq : Option Nat} {frames : List Frame} :
    Follows previousSeq frames ↔ Contiguous frames ∧
      ∀ first, frames.head? = some first → breaksSequence previousSeq first.seq = false := by
  induction frames generalizing previousSeq with
  | nil => exact ⟨fun _ => ⟨⟨by simp, .nil⟩, by simp⟩, fun _ => trivial⟩
  | cons frame frames induction =>
      rw [Follows, induction]
      constructor
      · rintro ⟨encodable, continues, contiguous, next⟩
        refine ⟨⟨?_, ?_⟩, ?_⟩
        · exact List.forall_mem_cons.mpr ⟨encodable, contiguous.encodable⟩
        · rw [List.isChain_cons]
          refine ⟨?_, contiguous.consecutive⟩
          intro later isNext
          have member : later ∈ frames := List.mem_of_head? isNext
          exact (breaksSequence_some (contiguous.encodable later member).seq).mp
            (next later isNext)
        · intro first isFirst
          cases isFirst
          exact continues
      · rintro ⟨⟨encodable, consecutive⟩, first⟩
        rw [List.isChain_cons] at consecutive
        rw [List.forall_mem_cons] at encodable
        refine ⟨encodable.1, first frame rfl, ⟨encodable.2, consecutive.2⟩, ?_⟩
        intro later isNext
        have member : later ∈ frames := List.mem_of_head? isNext
        exact (breaksSequence_some (encodable.2 later member).seq).mpr
          (consecutive.1 later isNext)

theorem follows_none_iff {frames : List Frame} : Follows none frames ↔ Contiguous frames := by
  rw [follows_iff, and_iff_left_iff_imp]
  intros
  rfl

/-! ## Cut files -/

theorem completeFrames_spec (written : Nat) (frames : List Frame) :
    (encodeFrames (frames.take (completeFrames written frames))).length ≤ written ∧
      ∀ next later, frames.drop (completeFrames written frames) = next :: later →
        written <
          (encodeFrames (frames.take (completeFrames written frames) ++ [next])).length := by
  induction frames generalizing written with
  | nil => simp [completeFrames]
  | cons frame frames induction =>
      rw [completeFrames]
      split
      · next cut =>
          refine ⟨by simp, ?_⟩
          intro next later isNext
          cases isNext
          simpa using cut
      · next complete =>
          obtain ⟨fits, beyond⟩ := induction (written - frame.encode.length)
          refine ⟨?_, ?_⟩
          · rw [List.take_succ_cons, encodeFrames_cons, List.length_append]
            omega
          · intro next later isNext
            have bound := beyond next later isNext
            rw [List.take_succ_cons, List.cons_append, encodeFrames_cons, List.length_append]
            omega

/-- A file that holds contiguous frames reads back whole; cut anywhere behind its
header it reads as the frames that lie wholly inside. -/
theorem torn_log_recovers (generation : UInt32) (frames : List Frame)
    (contiguous : Contiguous frames) :
    readFramesWithValidLen (encodeLog generation frames) =
        some (generation, frames, (encodeLog generation frames).length) ∧
      ∀ bytes, bytes <+: encodeLog generation frames → headerBytes ≤ bytes.length →
        ∃ inside outside, frames = inside ++ outside ∧
          (encodeLog generation inside).length ≤ bytes.length ∧
          (∀ next later, outside = next :: later →
            bytes.length < (encodeLog generation (inside ++ [next])).length) ∧
          readFramesWithValidLen bytes =
            some (generation, inside, (encodeLog generation inside).length) := by
  have follows : Follows none frames := follows_none_iff.mpr contiguous
  refine ⟨?_, ?_⟩
  · rw [length_encodeLog]
    exact readFramesWithValidLen_encode generation follows
  · intro bytes isPrefix long
    have cut : bytes = encodeHeader generation ++
        (encodeFrames frames).take (bytes.length - headerBytes) := by
      conv_lhs => rw [List.prefix_iff_eq_take.mp isPrefix]
      rw [encodeLog, List.take_append, length_encodeHeader, List.take_of_length_le]
      simpa using long
    obtain ⟨fits, beyond⟩ := completeFrames_spec (bytes.length - headerBytes) frames
    obtain ⟨tail, front, stopped⟩ := take_encodeFrames (bytes.length - headerBytes) follows
    refine ⟨frames.take (completeFrames (bytes.length - headerBytes) frames),
      frames.drop (completeFrames (bytes.length - headerBytes) frames),
      (List.take_append_drop _ _).symm, ?_, ?_, ?_⟩
    · rw [length_encodeLog]
      omega
    · intro next later isNext
      have bound := beyond next later isNext
      rw [length_encodeLog]
      omega
    · rw [length_encodeLog]
      refine readFramesWithValidLen_eq_some.mpr ⟨?_, rfl, tail, ?_, stopped⟩
      · rw [← List.take_append_drop (completeFrames (bytes.length - headerBytes) frames) frames,
          follows_append] at follows
        exact follows.1
      · rw [List.append_assoc, ← front]
        exact cut

private def typed : List Frame := [⟨7, .output, [104, 105]⟩, ⟨8, .resize, [80, 0, 24, 0]⟩]

private theorem typed_contiguous : Contiguous typed where
  encodable frame member := by
    rcases List.mem_cons.mp member with rfl | member
    · exact ⟨by decide, by decide⟩
    · rcases List.mem_singleton.mp member with rfl
      exact ⟨by decide, by decide⟩
  consecutive := by decide

/-- A crash inside the resize. -/
theorem torn_log_recovers_typed :
    readFramesWithValidLen (encodeLog 3 typed) = some (3, typed, 41) ∧
      ∃ inside outside, typed = inside ++ outside ∧
        (encodeLog 3 inside).length ≤ 40 ∧
        (∀ next later, outside = next :: later →
          40 < (encodeLog 3 (inside ++ [next])).length) ∧
        readFramesWithValidLen ((encodeLog 3 typed).take 40) =
          some (3, inside, (encodeLog 3 inside).length) := by
  have length : ((encodeLog 3 typed).take 40).length = 40 := by decide
  have recovers := torn_log_recovers 3 typed typed_contiguous
  refine ⟨recovers.1, ?_⟩
  have cut := recovers.2 ((encodeLog 3 typed).take 40) (List.take_prefix 40 _)
    (by rw [length]; decide)
  rwa [length] at cut

/-! ## Appends -/

/-- What is read at a path. A log that is missing is created empty. -/
def Reads (file : File) (generation : UInt32) (frames : List Frame) : Prop :=
  ReadsAs (file.getD (encodeHeader 0)) generation frames

/-- What an append may have done to the file. -/
structure AllOrNothing (answer : AppendAnswer) (file : File) (batch : Bytes)
    (result : Except IoError Unit) (after : File) : Prop where
  /-- A success leaves the batch behind the frames that were readable. -/
  appended : result = .ok () → ∃ generation durable incoming, Contiguous incoming ∧
    batch = encodeFrames incoming ∧ Reads file generation durable ∧
    Reads after generation (durable ++ incoming)
  /-- A batch that is not a whole number of consecutive frames, or that does not
  continue the file, is refused. -/
  refused : (∀ incoming, Contiguous incoming → batch = encodeFrames incoming →
      ∃ generation durable, Reads file generation durable ∧ ¬ Contiguous (durable ++ incoming)) →
    (∃ error, result = .error error) ∧ after = file
  /-- A failed write that could be rolled back leaves the previous valid prefix. -/
  rolledBack : ∀ written generation durable validLen incoming,
    answer = .writeFails written true true → Contiguous (durable ++ incoming) →
    batch = encodeFrames incoming →
    readFramesWithValidLen (file.getD (encodeHeader 0)) = some (generation, durable, validLen) →
    (∃ error, result = .error error) ∧
      after = some ((file.getD (encodeHeader 0)).take validLen)
  /-- Whatever was readable remains readable. -/
  kept : ∀ generation durable, Reads file generation durable →
    ∃ later, Reads after generation (durable ++ later)

theorem ReadsAs.contiguous {bytes : Bytes} {generation : UInt32} {frames : List Frame}
    (reads : ReadsAs bytes generation frames) : Contiguous frames :=
  follows_none_iff.mp (readsAs_iff.mp reads).1

theorem ReadsAs.unique {bytes : Bytes} {generation other : UInt32} {frames otherFrames : List Frame}
    (reads : ReadsAs bytes generation frames) (also : ReadsAs bytes other otherFrames) :
    generation = other ∧ frames = otherFrames := by
  have equal := reads.symm.trans also
  simpa using equal

section Appending

variable {incoming durable : List Frame} {answer : AppendAnswer} {batch bytes : Bytes}
variable {generation : UInt32}

theorem Contiguous.right (contiguous : Contiguous (durable ++ incoming)) : Contiguous incoming :=
  ⟨fun frame member => contiguous.encodable frame (by simp [member]),
    (List.isChain_append.mp contiguous.consecutive).2.1⟩

theorem Contiguous.ext {frames others : List Frame} (contiguous : Contiguous frames)
    (also : Contiguous others) (equal : encodeFrames frames = encodeFrames others) :
    frames = others := by
  have reads := @readsAs_encode 0 _ (follows_none_iff.mpr contiguous)
  rw [equal] at reads
  exact (reads.unique (readsAs_encode (follows_none_iff.mpr also))).2

theorem contiguous_append_iff (durableContiguous : Contiguous durable)
    (incomingContiguous : Contiguous incoming) :
    Contiguous (durable ++ incoming) ↔ continuesSequence durable incoming = true := by
  constructor
  · intro contiguous
    exact continuesSequence_of_follows
      (follows_append.mp (follows_none_iff.mpr contiguous)).2
  · intro continues
    refine follows_none_iff.mp (follows_append.mpr
      ⟨follows_none_iff.mpr durableContiguous, follows_iff.mpr ⟨incomingContiguous, ?_⟩⟩)
    intro first isFirst
    rw [lastSeq_eq_getLast]
    unfold continuesSequence at continues
    cases isLast : durable.getLast? with
    | none => rfl
    | some last =>
        rw [isLast, isFirst] at continues
        simpa [breaksSequence] using continues

theorem appendFrames_broken (answer : AppendAnswer) (file : File)
    (broken : ∀ incoming, Contiguous incoming → batch ≠ encodeFrames incoming) :
    appendFrames answer file batch = (.error (.invalidData "incomplete log batch"), file) := by
  unfold appendFrames
  split
  · rfl
  · next generation frames incomingLen read =>
      split
      · rfl
      · next complete =>
          obtain ⟨follows, valid, tail, encoded, -⟩ := readFramesWithValidLen_eq_some.mp read
          have lengths := congrArg List.length encoded
          simp only [List.length_append, length_encodeHeader] at lengths complete
          have noTail : tail = [] := List.length_eq_zero_iff.mp (by omega)
          rw [noTail, List.append_nil] at encoded
          have sameLength : (encodeHeader 0).length = (encodeHeader generation).length := by simp
          exact absurd (List.append_inj encoded sameLength).2
            (broken _ (follows_none_iff.mp follows))

theorem appendFrames_gap (answer : AppendAnswer) (reads : ReadsAs bytes generation durable)
    (contiguous : Contiguous incoming) (gap : ¬ Contiguous (durable ++ incoming)) :
    ∃ error, appendFrames answer (some bytes) (encodeFrames incoming) =
      (.error error, some bytes) := by
  have batchReads := readFramesWithValidLen_encode 0 (follows_none_iff.mpr contiguous)
  obtain ⟨validLen, whole⟩ := readFrames_eq_some.mp reads
  have breaks : continuesSequence durable incoming = false := by
    rw [contiguous_append_iff reads.contiguous contiguous] at gap
    simpa using gap
  have complete : ¬ headerBytes + (encodeFrames incoming).length ≠
      (encodeHeader 0 ++ encodeFrames incoming).length := by simp
  unfold appendFrames
  rw [batchReads]
  simp only [existingOrCreated, whole, breaks, if_neg complete, if_true]
  split
  · exact ⟨_, rfl⟩
  · exact ⟨_, rfl⟩

theorem appendFrames_unreadable (answer : AppendAnswer)
    (unreadable : readFramesWithValidLen bytes = none) (contiguous : Contiguous incoming) :
    ∃ error, appendFrames answer (some bytes) (encodeFrames incoming) =
      (.error error, some bytes) := by
  have batchReads := readFramesWithValidLen_encode 0 (follows_none_iff.mpr contiguous)
  have complete : ¬ headerBytes + (encodeFrames incoming).length ≠
      (encodeHeader 0 ++ encodeFrames incoming).length := by simp
  unfold appendFrames
  rw [batchReads]
  simp only [existingOrCreated, unreadable, if_neg complete]
  split
  · exact ⟨_, rfl⟩
  · exact ⟨_, rfl⟩

theorem appendFrames_rolledBack {written validLen : Nat} {sync : Bool}
    (whole : readFramesWithValidLen bytes = some (generation, durable, validLen))
    (contiguous : Contiguous (durable ++ incoming)) :
    ∃ error, appendFrames (.writeFails written true sync) (some bytes) (encodeFrames incoming) =
      (.error error, some (bytes.take validLen)) := by
  have batchReads := readFramesWithValidLen_encode 0 (follows_none_iff.mpr contiguous.right)
  have reads : ReadsAs bytes generation durable := readFrames_eq_some.mpr ⟨_, whole⟩
  have continues := (contiguous_append_iff reads.contiguous contiguous.right).mp contiguous
  have complete : ¬ headerBytes + (encodeFrames incoming).length ≠
      (encodeHeader 0 ++ encodeFrames incoming).length := by simp
  refine ⟨if sync then .io else .rollbackAlsoFailed, ?_⟩
  unfold appendFrames
  rw [batchReads]
  simp only [if_neg complete]
  simp [existingOrCreated, whole, continues, appendAt]

theorem appendFrames_missing (answer : AppendAnswer) (contiguous : Contiguous incoming) :
    appendFrames answer none (encodeFrames incoming) =
      if answer = .createFails then (.error .io, none)
      else appendFrames answer (some (encodeHeader 0)) (encodeFrames incoming) := by
  have batchReads := readFramesWithValidLen_encode 0 (follows_none_iff.mpr contiguous)
  have complete : ¬ headerBytes + (encodeFrames incoming).length ≠
      (encodeHeader 0 ++ encodeFrames incoming).length := by simp
  unfold appendFrames
  rw [batchReads]
  simp only [if_neg complete]
  by_cases creating : answer = .createFails
  · simp [existingOrCreated, creating]
  · simp [existingOrCreated, creating]

theorem appendFrames_existing (answer : AppendAnswer) (bytes : Bytes)
    (contiguous : Contiguous incoming) :
    AllOrNothing answer (some bytes) (encodeFrames incoming)
      (appendFrames answer (some bytes) (encodeFrames incoming)).1
      (appendFrames answer (some bytes) (encodeFrames incoming)).2 := by
  cases whole : readFramesWithValidLen bytes with
  | none =>
      obtain ⟨error, refused⟩ := appendFrames_unreadable answer whole contiguous
      rw [refused]
      refine ⟨nofun, fun _ => ⟨⟨_, rfl⟩, rfl⟩, ?_, ?_⟩
      · intro written generation durable validLen others _ _ _ read
        rw [Option.getD_some, whole] at read
        cases read
      · exact fun generation durable reads => ⟨[], by simpa using reads⟩
  | some read =>
      obtain ⟨generation, durable, validLen⟩ := read
      have reads : ReadsAs bytes generation durable := readFrames_eq_some.mpr ⟨_, whole⟩
      by_cases continues : Contiguous (durable ++ incoming)
      · have follows := (follows_append.mp (follows_none_iff.mpr continues)).2
        obtain ⟨result, after, appended, leaves⟩ := appendFrames_leaves answer reads follows
        rw [appended]
        refine ⟨?_, ?_, ?_, ?_⟩
        · rintro rfl
          rcases leaves with ⟨-, behind, -⟩ | ⟨⟨_, failed⟩, -⟩
          · exact ⟨generation, durable, incoming, contiguous, rfl, reads, behind⟩
          · cases failed
        · intro refused
          obtain ⟨other, others, also, gap⟩ := refused incoming contiguous rfl
          rw [← (reads.unique also).2] at gap
          exact absurd continues gap
        · intro written other others otherLen batch answered whole' equal read
          rw [Option.getD_some, whole] at read
          cases read
          rw [← whole'.right.ext contiguous equal.symm] at appended
          obtain ⟨error, rolledBack⟩ := @appendFrames_rolledBack _ _ _ _ _ _ true whole whole'
          rw [← answered, appended] at rolledBack
          cases rolledBack
          exact ⟨⟨_, rfl⟩, rfl⟩
        · intro other others also
          obtain ⟨rfl, rfl⟩ := reads.unique also
          rcases leaves with ⟨-, behind, -⟩ | ⟨-, behind⟩
          · exact ⟨_, behind⟩
          · exact ⟨_, behind⟩
      · obtain ⟨error, refused⟩ := appendFrames_gap answer reads contiguous continues
        rw [refused]
        refine ⟨nofun, fun _ => ⟨⟨_, rfl⟩, rfl⟩, ?_, ?_⟩
        · intro written other others otherLen batch _ whole' equal read
          rw [Option.getD_some, whole] at read
          cases read
          rw [contiguous.ext whole'.right equal] at continues
          exact absurd whole' continues
        · exact fun other others also => ⟨[], by simpa using also⟩

/-- An append adds the whole batch or nothing, whichever of its calls fails, and what
was readable remains readable. -/
theorem append_all_or_nothing (answer : AppendAnswer) (file : File) (batch : Bytes) :
    AllOrNothing answer file batch (appendFrames answer file batch).1
      (appendFrames answer file batch).2 := by
  by_cases broken : ∀ incoming, Contiguous incoming → batch ≠ encodeFrames incoming
  · rw [appendFrames_broken answer file broken]
    refine ⟨nofun, fun _ => ⟨⟨_, rfl⟩, rfl⟩, ?_, ?_⟩
    · intro written generation durable validLen incoming _ contiguous equal
      exact absurd equal (broken incoming contiguous.right)
    · exact fun generation durable reads => ⟨[], by simpa using reads⟩
  · simp only [not_forall, not_not] at broken
    obtain ⟨incoming, contiguous, rfl⟩ := broken
    cases file with
    | some bytes => exact appendFrames_existing answer bytes contiguous
    | none =>
        have created := appendFrames_existing answer (encodeHeader 0) contiguous
        have empty : ∀ generation durable, Reads none generation durable → durable = [] :=
          fun generation durable reads => (reads.unique (readsAs_header 0)).2
        have noRefusal : ¬ ∀ others, Contiguous others →
            encodeFrames incoming = encodeFrames others → ∃ generation durable,
              Reads none generation durable ∧ ¬ Contiguous (durable ++ others) := by
          intro refused
          obtain ⟨generation, durable, reads, gap⟩ := refused incoming contiguous rfl
          rw [empty generation durable reads] at gap
          exact gap contiguous
        rw [appendFrames_missing answer contiguous]
        split
        · next creating =>
            refine ⟨nofun, fun refused => absurd refused noRefusal, ?_, ?_⟩
            · intro written _ _ _ _ answered
              rw [creating] at answered
              cases answered
            · exact fun generation durable reads => ⟨[], by simpa using reads⟩
        · exact ⟨created.appended, fun refused => absurd refused noRefusal,
            created.rolledBack, created.kept⟩

end Appending

end TerminalCanvas.Scrollback
