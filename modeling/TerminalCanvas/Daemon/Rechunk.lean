import TerminalCanvas.Daemon.Backlog

/-! # Output in events

A batch of terminal frames becomes events of bounded size. The events carry the
output of the batch unchanged, and every frame is queued for the durable writer. -/

namespace TerminalCanvas.Daemon

open Scrollback Terminal

/-- The output of a list of frames, in order. -/
def outputBytes (frames : List Frame) : Bytes :=
  (frames.filter fun frame => frame.kind = .output).flatMap Frame.payload

@[simp] theorem outputBytes_nil : outputBytes [] = [] := rfl

theorem outputBytes_cons_output {frame : Frame} (output : frame.kind = .output)
    (frames : List Frame) :
    outputBytes (frame :: frames) = frame.payload ++ outputBytes frames := by
  simp [outputBytes, output]

theorem outputBytes_cons_other {frame : Frame} (other : frame.kind ≠ .output)
    (frames : List Frame) : outputBytes (frame :: frames) = outputBytes frames := by
  simp [outputBytes, other]

theorem outputBytes_append (first second : List Frame) :
    outputBytes (first ++ second) = outputBytes first ++ outputBytes second := by
  simp [outputBytes]

/-- The data of a list of events, in order. -/
def eventBytes (events : List (Nat × Bytes)) : Bytes := events.flatMap Prod.snd

namespace DaemonSession

/-! ## Chunks -/

theorem flatten_chunks {size : Nat} (positive : 0 < size) {fuel : Nat} {payload : Bytes}
    (enough : payload.length ≤ fuel) : (chunks size fuel payload).flatten = payload := by
  induction fuel generalizing payload with
  | zero => rw [List.eq_nil_of_length_eq_zero (Nat.le_zero.mp enough)]; rfl
  | succ fuel induction =>
      rw [chunks]
      split
      · next empty => rw [List.isEmpty_iff.mp empty]; rfl
      · next filled =>
          have some := List.length_pos_iff.mpr (mt List.isEmpty_iff.mpr filled)
          have rest : (payload.drop size).length ≤ fuel := by
            rw [List.length_drop]
            omega
          rw [List.flatten_cons, induction rest, List.take_append_drop]

theorem length_chunk_le {size fuel : Nat} {payload bytes : Bytes}
    (member : bytes ∈ chunks size fuel payload) : bytes.length ≤ size := by
  induction fuel generalizing payload with
  | zero => exact nomatch member
  | succ fuel induction =>
      rw [chunks] at member
      split at member
      · exact nomatch member
      · rcases List.mem_cons.mp member with rfl | later
        · exact List.length_take_le _ _
        · exact induction later

/-! ## The collector -/

/-- The events and the open output hold exactly `data`, within the limit, and the
events are numbered on from `start`. -/
structure Collects (start : Nat) (data : Bytes) (collector : Collector) : Prop where
  bytes : eventBytes collector.events ++ collector.output = data
  sizes : ∀ event ∈ collector.events,
    1 ≤ event.2.length ∧ event.2.length ≤ rawOutputChunkBytes
  pending : collector.output.length ≤ rawOutputChunkBytes
  numbers : start + collector.events.length ≤ u64Max →
    collector.events.map Prod.fst = List.range' (start + 1) collector.events.length ∧
      collector.session.seq = start + collector.events.length

namespace Collects

variable {start : Nat} {data : Bytes} {collector : Collector}

theorem begin (session : DaemonSession) : Collects session.seq [] ⟨session, [], []⟩ where
  bytes := rfl
  sizes := fun _ member => nomatch member
  pending := Nat.zero_le _
  numbers := fun _ => ⟨rfl, rfl⟩

theorem flush (collects : Collects start data collector) (filled : 1 ≤ collector.output.length) :
    Collects start data collector.flush ∧ collector.flush.output = [] := by
  refine ⟨⟨?bytes, ?sizes, Nat.zero_le _, ?numbers⟩, rfl⟩
  case bytes =>
    rw [← collects.bytes]
    simp [Collector.flush, eventBytes]
  case sizes =>
    intro event member
    rcases List.mem_append.mp member with earlier | last
    · exact collects.sizes event earlier
    · rw [List.mem_singleton.mp last]
      exact ⟨filled, collects.pending⟩
  case numbers =>
    intro room
    simp only [Collector.flush, List.length_append, List.length_singleton] at room ⊢
    obtain ⟨numbers, seq⟩ := collects.numbers (by omega)
    have next : (checkedAddU64 collector.session.seq 1).getD u64Max =
        start + (collector.events.length + 1) := by
      rw [seq, checkedAddU64, if_pos (by omega)]
      rfl
    refine ⟨?_, next⟩
    rw [List.map_append, numbers, List.range'_concat]
    simp only [pushOutputEvent, next, List.map_cons, List.map_nil]
    congr 2
    omega

theorem add (collects : Collects start data collector) {bytes : Bytes}
    (small : bytes.length ≤ rawOutputChunkBytes) :
    Collects start (data ++ bytes) (collector.add bytes) := by
  unfold Collector.add
  split
  · next exceeds =>
      -- a chunk within the limit overflows only a collector that is not empty
      obtain ⟨flushed, empty⟩ := collects.flush (by omega)
      refine ⟨?_, flushed.sizes, ?_, flushed.numbers⟩
      · rw [← flushed.bytes]
        simp
      · simpa [empty] using small
  · next fits =>
      refine ⟨?_, collects.sizes, ?_, collects.numbers⟩
      · rw [← collects.bytes]
        simp
      · simp only [List.length_append]
        omega

theorem addAll (collects : Collects start data collector) (pieces : List Bytes)
    (small : ∀ bytes ∈ pieces, bytes.length ≤ rawOutputChunkBytes) :
    Collects start (data ++ pieces.flatten) (pieces.foldl Collector.add collector) := by
  induction pieces generalizing data collector with
  | nil => simpa using collects
  | cons bytes pieces induction =>
      rw [List.foldl_cons, List.flatten_cons, ← List.append_assoc]
      exact induction (collects.add (small bytes List.mem_cons_self))
        fun other member => small other (List.mem_cons_of_mem _ member)

theorem record (collects : Collects start data collector) (kind : FrameKind) (payload : Bytes) :
    Collects start data
      { collector with session := collector.session.recordPersistFrame kind payload } := by
  refine ⟨collects.bytes, collects.sizes, collects.pending, fun room => ?_⟩
  obtain ⟨numbers, seq⟩ := collects.numbers room
  refine ⟨numbers, ?_⟩
  simp only [recordPersistFrame]
  split <;> exact seq

theorem ingest (collects : Collects start data collector) (frame : Frame) :
    Collects start (data ++ outputBytes [frame]) (collector.ingest frame) := by
  have recorded := collects.record frame.kind frame.payload
  unfold Collector.ingest
  split
  · next output =>
      have pieces := recorded.addAll
        (chunks rawOutputChunkBytes frame.payload.length frame.payload)
        fun _ member => length_chunk_le member
      rw [flatten_chunks (by decide) (Nat.le_refl _)] at pieces
      rw [outputBytes_cons_output output, outputBytes_nil, List.append_nil]
      exact pieces
  · next other =>
      rw [outputBytes_cons_other other, outputBytes_nil, List.append_nil]
      exact recorded

theorem ingestAll (collects : Collects start data collector) (frames : List Frame) :
    Collects start (data ++ outputBytes frames) (frames.foldl Collector.ingest collector) := by
  induction frames generalizing data collector with
  | nil => simpa using collects
  | cons frame frames induction =>
      have split : outputBytes (frame :: frames) = outputBytes [frame] ++ outputBytes frames :=
        outputBytes_append [frame] frames
      rw [List.foldl_cons, split, ← List.append_assoc]
      exact induction (collects.ingest frame)

theorem finish (collects : Collects start data collector) :
    Collects start data collector.finish ∧ collector.finish.output = [] := by
  unfold Collector.finish
  split
  · next empty => exact ⟨collects, List.isEmpty_iff.mp empty⟩
  · next filled =>
      exact collects.flush (List.length_pos_iff.mpr (mt List.isEmpty_iff.mpr filled))

end Collects

/-! ## The durable queue -/

theorem ingest_durable (collector : Collector) (frame : Frame)
    (room : collector.session.persistSeq + 1 ≤ u64Max) :
    (collector.ingest frame).session.persistPending = collector.session.persistPending ++
        encodeFrame (collector.session.persistSeq + 1) frame.kind frame.payload ∧
      (collector.ingest frame).session.persistSeq = collector.session.persistSeq + 1 := by
  have recorded := recordPersistFrame_backlog collector.session
    (checkedAddU64_eq_some.mpr ⟨room, rfl⟩) frame.kind frame.payload
  have ingested : (collector.ingest frame).session.backlog =
      (collector.session.recordPersistFrame frame.kind frame.payload).backlog := by
    unfold Collector.ingest
    split
    · exact (addAll_display ..).backlog
    · rfl
  have durable := congrArg Backlog.durable (ingested.trans recorded)
  simpa [backlog] using durable

theorem ingestAll_durable (frames : List Frame) (collector : Collector)
    (room : collector.session.persistSeq + frames.length ≤ u64Max) :
    (frames.foldl Collector.ingest collector).session.persistPending =
        collector.session.persistPending ++
          encodeFrames (renumbered (collector.session.persistSeq + 1) frames) ∧
      (frames.foldl Collector.ingest collector).session.persistSeq =
        collector.session.persistSeq + frames.length := by
  induction frames generalizing collector with
  | nil => simp [renumbered]
  | cons frame frames induction =>
      rw [List.length_cons] at room
      obtain ⟨pending, seq⟩ := ingest_durable collector frame (by omega)
      obtain ⟨later, last⟩ := induction (collector.ingest frame) (by omega)
      rw [pending, seq] at later
      rw [seq] at last
      refine ⟨?_, ?_⟩
      · rw [List.foldl_cons, later, renumbered, encodeFrames_cons, List.append_assoc]
        rfl
      · rw [List.foldl_cons, last, List.length_cons]
        omega

/-! ## A batch -/

theorem ingestPtyFrames_eq (session : DaemonSession) {frames : List Frame}
    (follows : Follows none frames) :
    ∃ ready collected, collected = (frames.foldl Collector.ingest
        ⟨{ session with outputReady := ready }, [], []⟩).finish ∧
      session.ingestPtyFrames (encodeFrames frames) = (collected.events, collected.session) :=
  ⟨_, _, rfl, by rw [ingestPtyFrames, decodeFrames_encodeFrames follows]⟩

theorem ingestPtyFrames_collects (session : DaemonSession) {frames : List Frame}
    (follows : Follows none frames) :
    let result := session.ingestPtyFrames (encodeFrames frames)
    Collects session.seq (outputBytes frames) ⟨result.2, result.1, []⟩ := by
  obtain ⟨ready, collected, rfl, ingested⟩ := ingestPtyFrames_eq session follows
  have collects := (Collects.begin { session with outputReady := ready }).ingestAll frames
  obtain ⟨finished, closed⟩ := collects.finish
  rw [ingested]
  have bytes := finished.bytes
  rw [closed] at bytes
  exact ⟨bytes, finished.sizes, Nat.zero_le _, finished.numbers⟩

theorem ingestPtyFrames_durable (session : DaemonSession) {frames : List Frame}
    (follows : Follows none frames) (room : session.persistSeq + frames.length ≤ u64Max) :
    let result := session.ingestPtyFrames (encodeFrames frames)
    result.2.persistPending = session.persistPending ++
        encodeFrames (renumbered (session.persistSeq + 1) frames) ∧
      result.2.persistSeq = session.persistSeq + frames.length := by
  obtain ⟨ready, collected, rfl, ingested⟩ := ingestPtyFrames_eq session follows
  have queued := ingestAll_durable frames ⟨{ session with outputReady := ready }, [], []⟩ room
  have display := finish_display
    (frames.foldl Collector.ingest ⟨{ session with outputReady := ready }, [], []⟩)
  rw [ingested, display]
  exact queued

theorem renumbered_append (first : Nat) (earlier later : List Frame) :
    renumbered first (earlier ++ later) =
      renumbered first earlier ++ renumbered (first + earlier.length) later := by
  induction earlier generalizing first with
  | nil => rfl
  | cons frame earlier induction =>
      rw [List.cons_append, renumbered, renumbered, induction, List.cons_append,
        List.length_cons]
      congr 3
      omega

/-- Ingesting re-chunks the output of a batch and changes none of it. -/
theorem ingest_rechunks (session : DaemonSession) {frames : List Frame}
    (follows : Follows none frames) :
    let result := session.ingestPtyFrames (encodeFrames frames)
    eventBytes result.1 = outputBytes frames ∧
      (∀ event ∈ result.1, 1 ≤ event.2.length ∧ event.2.length ≤ rawOutputChunkBytes) ∧
      (session.seq + result.1.length ≤ u64Max →
        result.1.map Prod.fst = List.range' (session.seq + 1) result.1.length ∧
          result.2.seq = session.seq + result.1.length) ∧
      (session.persistSeq + frames.length ≤ u64Max →
        result.2.persistPending = session.persistPending ++
            encodeFrames (renumbered (session.persistSeq + 1) frames) ∧
          result.2.persistSeq = session.persistSeq + frames.length) ∧
      ∀ first second, frames = first ++ second →
        let one := session.ingestPtyFrames (encodeFrames first)
        let two := one.2.ingestPtyFrames (encodeFrames second)
        eventBytes (one.1 ++ two.1) = eventBytes result.1 ∧
          (session.persistSeq + frames.length ≤ u64Max →
            two.2.persistPending = result.2.persistPending ∧
              two.2.persistSeq = result.2.persistSeq) := by
  have collects := ingestPtyFrames_collects session follows
  have whole : eventBytes (session.ingestPtyFrames (encodeFrames frames)).1 =
      outputBytes frames := by simpa using collects.bytes
  refine ⟨whole, collects.sizes, collects.numbers, ingestPtyFrames_durable session follows, ?_⟩
  rintro first second rfl
  obtain ⟨followsFirst, followsSecond⟩ := follows_append.mp follows
  have followsSecond := follows_none followsSecond
  have one := (ingestPtyFrames_collects session followsFirst).bytes
  have two := (ingestPtyFrames_collects
    (session.ingestPtyFrames (encodeFrames first)).2 followsSecond).bytes
  rw [List.append_nil] at one two
  refine ⟨?_, fun room => ?_⟩
  · rw [whole, outputBytes_append, ← one, ← two]
    exact List.flatMap_append
  · rw [List.length_append] at room
    obtain ⟨pendingOne, seqOne⟩ := ingestPtyFrames_durable session followsFirst (by omega)
    obtain ⟨pendingTwo, seqTwo⟩ := ingestPtyFrames_durable
      (session.ingestPtyFrames (encodeFrames first)).2 followsSecond (by omega)
    obtain ⟨pending, seq⟩ := ingestPtyFrames_durable session follows
      (by rw [List.length_append]; omega)
    rw [pendingTwo, pendingOne, seqTwo, seqOne, pending, seq]
    refine ⟨?_, by rw [List.length_append]; omega⟩
    rw [renumbered_append, encodeFrames_append, List.append_assoc]
    congr 4
    omega

/-- A resize between two outputs. -/
theorem ingest_rechunks_resize :
    eventBytes ((new .default).ingestPtyFrames (encodeFrames
        [⟨1, .output, [1, 2]⟩, ⟨2, .resize, [80, 0, 24, 0]⟩, ⟨3, .output, [3]⟩])).1 =
      [1, 2, 3] := by
  have follows : Follows none
      [⟨1, .output, [1, 2]⟩, ⟨2, .resize, [80, 0, 24, 0]⟩, ⟨3, .output, [3]⟩] :=
    ⟨⟨by decide, by decide⟩, by decide, ⟨by decide, by decide⟩, by decide,
      ⟨by decide, by decide⟩, by decide, trivial⟩
  exact (ingest_rechunks (new .default) follows).1

end DaemonSession

end TerminalCanvas.Daemon
