import TerminalCanvas.Daemon.Durability
import TerminalCanvas.Daemon.WireReader

/-! # Hot attach

Output events are numbered by their session. Whoever attached at a number applies every
later one once, until its connection ends. -/

namespace TerminalCanvas.Daemon

open Execution Scrollback Terminal

/-! ## The reader of a connection -/

structure RemoteReader where
  sessionId : Uuid
  attachedSeq : Nat
  exited : Bool
  inputError : Option String
  transportFailed : Bool
deriving DecidableEq, Repr

namespace RemoteReader

/-- The reader behind the answer to an attach. -/
def attached : Response → Option RemoteReader
  | .attached id _ seq .. => some ⟨id, seq, false, none, false⟩
  | _ => none

/-- One turn of the loop of `next_output`: a decoded line, and the block it gives. -/
def receive (parsers : Parsers) (reader : RemoteReader) (line : Option Response) :
    RemoteReader × Bytes :=
  if reader.transportFailed || reader.exited then
    (reader, [])
  else
    match line with
    | some (.inputError id message) =>
        (if id = reader.sessionId then { reader with inputError := some message } else reader, [])
    | some (.output id seq data) =>
        if id = reader.sessionId ∧ reader.attachedSeq < seq then
          ({ reader with attachedSeq := seq }, data)
        else
          (reader, [])
    | some (.exit id) | some (.killed id) =>
        (if id = reader.sessionId then { reader with exited := true } else reader, [])
    | some (.error message) =>
        (if (snapshotFailureFromResponse parsers (.error message)).any
            fun failure => failure.1 = reader.sessionId then
          { reader with transportFailed := true }
        else
          reader, [])
    | some _ => (reader, [])
    | none => ({ reader with transportFailed := true }, [])

/-- What a reader returns over the lines of a connection. -/
def readAll (parsers : Parsers) (reader : RemoteReader) : List (Option Response) → Bytes
  | [] => []
  | line :: lines =>
      let (next, block) := reader.receive parsers line
      block ++ next.readAll parsers lines

end RemoteReader

/-- The output events of a session. -/
def delivered (id : Uuid) (events : List Response) : List (Nat × Bytes) :=
  events.filterMap fun
    | .output other seq data => if other = id then some (seq, data) else none
    | _ => none

theorem delivered_append (id : Uuid) (first second : List Response) :
    delivered id (first ++ second) = delivered id first ++ delivered id second :=
  List.filterMap_append

theorem delivered_cons (id : Uuid) (event : Response) (events : List Response) :
    delivered id (event :: events) = delivered id [event] ++ delivered id events :=
  delivered_append id [event] events

@[simp] theorem delivered_outputEvents (id : Uuid) (output : List (Nat × Bytes)) :
    delivered id (DaemonSession.outputEvents id output) = output := by
  simp [delivered, DaemonSession.outputEvents, List.filterMap_map]

/-! ## Numbers -/

/-- Until the counter is exhausted, the numbers are new ones, in ascending order. -/
def Numbers (before after : Nat) (output : List (Nat × Bytes)) : Prop :=
  after < u64Max → before ≤ after ∧ output.Pairwise (fun first second => first.1 < second.1) ∧
    ∀ event ∈ output, before < event.1 ∧ event.1 ≤ after

namespace Numbers

variable {before between after : Nat} {first second output : List (Nat × Bytes)}

theorem none (seq : Nat) : Numbers seq seq [] :=
  fun _ => ⟨Nat.le_refl _, .nil, by simp⟩

theorem silent (numbers : Numbers before after output) : Numbers before after [] :=
  fun room => ⟨(numbers room).1, .nil, by simp⟩

theorem append (former : Numbers before between first) (latter : Numbers between after second) :
    Numbers before after (first ++ second) := by
  intro room
  obtain ⟨behind, ascending, inside⟩ := latter room
  obtain ⟨least, rising, within⟩ := former (by omega)
  refine ⟨by omega, List.pairwise_append.mpr ⟨rising, ascending, ?_⟩, ?_⟩
  · intro event early other late
    have := within event early
    have := inside other late
    omega
  · intro event member
    rcases List.mem_append.mp member with early | late
    · have := within event early
      omega
    · have := inside event late
      omega

theorem push (session : DaemonSession) (data : Bytes) :
    Numbers session.seq (session.pushOutputEvent data).seq
      [((session.pushOutputEvent data).seq, data)] := by
  simp only [DaemonSession.pushOutputEvent]
  cases advance : checkedAddU64 session.seq 1 with
  | none => exact fun absurd => absurd.false.elim
  | some seq =>
      obtain ⟨-, rfl⟩ := checkedAddU64_eq_some.mp advance
      exact fun _ => by simp

end Numbers

namespace DaemonSession

theorem seq_recordPersistFrame (session : DaemonSession) (kind : FrameKind) (payload : Bytes) :
    (session.recordPersistFrame kind payload).seq = session.seq := by
  unfold recordPersistFrame
  split
  · rfl
  · rfl

/-- What a collector has numbered since its start. -/
def Collector.Numbered (start : Nat) (collector : Collector) : Prop :=
  Numbers start collector.session.seq collector.events

theorem Collector.Numbered.flush {start : Nat} {collector : Collector}
    (numbered : collector.Numbered start) : collector.flush.Numbered start :=
  Numbers.append numbered (.push collector.session collector.output)

theorem Collector.Numbered.ingest {start : Nat} {collector : Collector}
    (numbered : collector.Numbered start) (frame : Frame) :
    (collector.ingest frame).Numbered start := by
  have recorded : Collector.Numbered start { collector with
      session := collector.session.recordPersistFrame frame.kind frame.payload } := by
    rwa [Numbered, seq_recordPersistFrame]
  unfold Collector.ingest
  simp only
  split
  · refine List.foldlRecOn (motive := Numbered start) _ Collector.add recorded ?_
    intro collector numbered bytes _
    unfold Collector.add
    simp only
    split
    · exact numbered.flush
    · exact numbered
  · exact recorded

theorem ingestPtyFrames_numbers (session : DaemonSession) (frames : Bytes) :
    Numbers session.seq (session.ingestPtyFrames frames).2.seq
      (session.ingestPtyFrames frames).1 := by
  obtain ⟨ready, whole⟩ : ∃ ready, session.ingestPtyFrames frames =
      let collected := ((decodeFrames frames).foldl Collector.ingest
        ⟨{ session with outputReady := ready }, [], []⟩).finish
      (collected.events, collected.session) := ⟨_, rfl⟩
  have ingested := List.foldlRecOn (motive := Collector.Numbered session.seq)
    (decodeFrames frames) Collector.ingest (b := ⟨{ session with outputReady := ready }, [], []⟩)
    (Numbers.none session.seq) fun collector numbered frame _ => numbered.ingest frame
  rw [whole]
  unfold Collector.finish
  simp only
  split
  · exact ingested
  · exact ingested.flush

theorem numberRepair_numbers {before : Nat} {session : DaemonSession}
    {output : List (Nat × Bytes)} (numbers : Numbers before session.seq output)
    (snapshot : Bytes) :
    Numbers before (session.numberRepair output snapshot).2.seq
      [((session.numberRepair output snapshot).1, snapshot)] := by
  unfold numberRepair
  split
  · next seq data last =>
      intro room
      obtain ⟨least, -, within⟩ := numbers room
      exact ⟨least, List.pairwise_singleton .., by
        simpa using within _ (List.mem_of_getLast? last)⟩
  · next empty =>
      rw [List.getLast?_eq_none_iff.mp empty] at numbers
      exact numbers.append (.push session snapshot)

theorem liveEvents_numbers {before : Nat} {session : DaemonSession}
    {output : List (Nat × Bytes)} (numbers : Numbers before session.seq output) (id : Uuid)
    (replacement : Option Bytes) :
    Numbers before (session.liveEvents id output replacement).2.seq
      (delivered id (session.liveEvents id output replacement).1) := by
  unfold liveEvents
  split
  · next snapshot => simpa [delivered] using numberRepair_numbers numbers snapshot
  · simpa using numbers

theorem pushChunks_numbers (session : DaemonSession) (pieces : List Bytes) :
    Numbers session.seq (session.pushChunks pieces).2.seq (session.pushChunks pieces).1 := by
  induction pieces generalizing session with
  | nil => exact .none _
  | cons data later induction => exact (Numbers.push session data).append (induction _)

theorem reportExit_numbers (session : DaemonSession) (alive : Bool) (id : Uuid) :
    Numbers session.seq (session.reportExit alive id).2.seq
      (delivered id (session.reportExit alive id).1) := by
  unfold reportExit
  split
  · exact .none _
  · exact .none _

theorem reportAll_numbers (host : Host) (session : DaemonSession) (alive : Bool) (id : Uuid) :
    Numbers session.seq (session.reportAll host alive id).2.seq
      (delivered id (session.reportAll host alive id).1) := by
  unfold reportAll
  split
  · split
    · exact reportExit_numbers _ _ _
    · next shared _ _ =>
        have error : Numbers session.seq (session.reportInputError shared.pty id).2.seq
            (delivered id (session.reportInputError shared.pty id).1) := by
          unfold reportInputError
          split
          · split
            · exact .none _
            · exact .none _
          · exact .none _
        have metadata : ∀ reported : DaemonSession, Numbers reported.seq
            (reported.reportMetadata host shared.pty).2.seq
            (reported.reportMetadata host shared.pty).1 := by
          intro reported
          unfold reportMetadata
          simp only
          split
          · exact pushChunks_numbers { reported with
              lastMetadata := host.metadataOsc shared.pty.metadata none } _
          · exact .none _
        simp only [delivered_append, delivered_outputEvents]
        exact (error.append (metadata _)).append (reportExit_numbers _ _ _)
  · exact reportExit_numbers _ _ _

/-! ## What a session sends -/

variable (host : Host) (id : Uuid) (lineLimit : Nat) (moment : Moment)

theorem attachBoundary_numbers (session : DaemonSession) :
    Numbers session.seq (session.attachBoundary host id lineLimit moment).2.seq
      (((session.attachBoundary host id lineLimit moment).1.map Prod.snd).toOption.getD []) := by
  unfold attachBoundary
  split
  · exact .none _
  · split
    · split
      · exact .none _
      · exact .none _
    · split
      · exact .none _
      · simp only
        split
        · exact .none _
        · exact .none _
        · next alternate frames pty _ =>
            have numbers := ingestPtyFrames_numbers
              { session.setPty pty with wasAlternate := alternate, liveRepair := none } frames
            split
            · exact numberRepair_numbers numbers _
            · exact numbers

theorem pump_numbers (session : DaemonSession) (interactiveBudget : Option Nat) :
    Numbers session.seq (session.pump host id lineLimit interactiveBudget moment).2.seq
      (delivered id (session.pump host id lineLimit interactiveBudget moment).1.events) := by
  unfold pump
  split
  · exact .none _
  · simp only
    split
    · exact .none _
    · next boundary pty _ =>
        have numbers := ingestPtyFrames_numbers (session.setPty pty) boundary.frames
        split
        · split
          · exact numbers.silent
          · exact numbers.silent
        · simp only [delivered_append]
          refine .append (liveEvents_numbers ?_ id boundary.replacement)
            (reportAll_numbers host _ boundary.alive id)
          exact numbers

theorem takeDirtyTarget_numbers (session : DaemonSession) :
    Numbers session.seq (session.takeDirtyTarget host id lineLimit moment).2.seq
      (delivered id (session.takeDirtyTarget host id lineLimit moment).1.events) := by
  unfold takeDirtyTarget
  split
  · exact .none _
  · split
    · split
      · exact .none _
      · split
        · exact .none _
        · simp only
          split
          · exact .none _
          · exact .none _
          · next text repair alternate frames pty _ =>
              have numbers := ingestPtyFrames_numbers (session.setPty pty) frames
              split
              · refine liveEvents_numbers ?_ id repair
                exact numbers
              · refine liveEvents_numbers ?_ id repair
                exact numbers
    · exact .none _

theorem seq_settle (session : DaemonSession) (report : TargetReport) :
    (session.settle report).seq = session.seq := by
  have acknowledged : ∀ bytes, (session.acknowledgePersisted bytes).seq = session.seq := by
    intro bytes
    unfold acknowledgePersisted
    simp only
    split
    · rfl
    · rfl
  cases written : report.acknowledged with
  | none =>
      simp only [settle, written]
      split <;> rfl
  | some written =>
      simp only [settle, written]
      split <;> exact acknowledged _

theorem seq_captureRetirement (session : DaemonSession) (closerStarts : Bool) :
    (session.captureRetirement closerStarts).seq = session.seq := by
  have front : ∀ pty, (session.capturePrefix pty).2.seq = session.seq := by
    intro pty
    unfold capturePrefix
    split <;> rfl
  have drain : ∀ prefixed : DaemonSession,
      (prefixed.startDrain closerStarts).2.seq = prefixed.seq := by
    intro prefixed
    unfold startDrain
    repeat' split
    all_goals rfl
  have tail : ∀ started : DaemonSession, started.captureTail.seq = started.seq := by
    intro started
    unfold captureTail
    split
    · rfl
    · simp only
      split <;> rfl
  unfold captureRetirement
  simp only
  split
  · rfl
  · split
    · rfl
    · split
      · split
        · rw [tail, drain, front]
        · rw [drain, front]
      · rw [front]

end DaemonSession

theorem step_numbers (host : Host) (id : Uuid) (state : DurableState) (input : DurableInput) :
    Numbers state.session.seq ((durability host id).next state input).session.seq
      (delivered id ((durability host id).observe state input).sent) := by
  have silent : ∀ next : DaemonSession, next.seq = state.session.seq →
      Numbers state.session.seq next.seq [] := by
    intro next same
    rw [same]
    exact .none _
  simp only [Machine.next, Machine.observe, durability, DurableState.step]
  cases input with
  | terminal activity =>
      simp only
      split
      · exact .none _
      · exact .none _
  | attach lineLimit moment =>
      simp only
      split
      · exact .none _
      · simp only [delivered_outputEvents]
        exact DaemonSession.attachBoundary_numbers host id lineLimit moment _
  | pump lineLimit interactiveBudget moment =>
      simp only
      split
      · exact .none _
      · exact DaemonSession.pump_numbers host id lineLimit moment _ interactiveBudget
  | takeCheckpoint lineLimit moment =>
      simp only
      split
      · exact DaemonSession.takeDirtyTarget_numbers host id lineLimit moment _
      · exact .none _
  | acknowledge =>
      simp only
      split
      · exact silent _ (state.session.seq_settle _)
      · exact .none _
  | close =>
      apply silent
      simp only [DaemonSession.requestRetirement]
      split <;> rfl
  | captureRetirement closerStarts =>
      exact silent _ (state.session.seq_captureRetirement closerStarts)
  | takeBatch | saveCheckpoint | appendBatch =>
      simp only
      split <;> exact .none _

/-- What the clients are sent in the course of a run. -/
def heard (host : Host) (id : Uuid) (initial : DurableState) (inputs : List DurableInput) :
    List Response :=
  (durability host id).monitor (fun seen _ observed => seen ++ observed.sent) [] initial inputs

theorem heard_numbers (host : Host) (id : Uuid) (initial : DurableState)
    (inputs : List DurableInput) :
    Numbers initial.session.seq ((durability host id).run initial inputs).session.seq
      (delivered id (heard host id initial inputs)) := by
  apply (durability host id).monitor_invariant (fun seen _ observed => seen ++ observed.sent)
    (fun state seen => Numbers initial.session.seq state.session.seq (delivered id seen))
  · intro state seen input numbers
    rw [delivered_append]
    exact numbers.append (step_numbers host id state input)
  · exact .none _

/-! ## What a reader applies -/

namespace RemoteReader

/-- The reader of a session goes on behind a response. -/
def goesOn (parsers : Parsers) (id : Uuid) : Response → Bool
  | .exit other | .killed other => other ≠ id
  | .error message => !(snapshotFailureFromResponse parsers (.error message)).any
      fun failure => failure.1 = id
  | _ => true

variable {parsers : Parsers} {reader : RemoteReader}

theorem readAll_stopped (stopped : (reader.transportFailed || reader.exited) = true)
    (lines : List (Option Response)) : reader.readAll parsers lines = [] := by
  induction lines with
  | nil => rfl
  | cons line lines induction => simpa [readAll, receive, stopped] using induction

theorem readAll_ascending (opened : (reader.transportFailed || reader.exited) = false)
    {events : List Response}
    (ascending : (delivered reader.sessionId events).Pairwise
      fun first second => first.1 < second.1)
    (later : ∀ event ∈ delivered reader.sessionId events, reader.attachedSeq < event.1) :
    reader.readAll parsers (events.map some) =
      (delivered reader.sessionId
        (events.takeWhile (goesOn parsers reader.sessionId))).flatMap Prod.snd := by
  induction events generalizing reader with
  | nil => rfl
  | cons event events induction =>
      have quiet : ∀ error, reader.receive parsers (some event) =
            ({ reader with inputError := error }, []) →
          goesOn parsers reader.sessionId event = true →
          delivered reader.sessionId [event] = [] → reader.readAll parsers
            ((event :: events).map some) = (delivered reader.sessionId ((event :: events).takeWhile
              (goesOn parsers reader.sessionId))).flatMap Prod.snd := by
        intro error received goes none
        rw [delivered_cons, none, List.nil_append] at ascending later
        have behind := @induction { reader with inputError := error } opened ascending later
        rw [List.takeWhile_cons_of_pos goes, delivered_cons, none]
        simpa [readAll, received] using behind
      have stops : ∀ next, reader.receive parsers (some event) = (next, []) →
          (next.transportFailed || next.exited) = true →
          goesOn parsers reader.sessionId event = false → reader.readAll parsers
            ((event :: events).map some) = (delivered reader.sessionId ((event :: events).takeWhile
              (goesOn parsers reader.sessionId))).flatMap Prod.snd := by
        intro next received stopped ends
        rw [List.takeWhile_cons_of_neg (by simp [ends])]
        simp [readAll, received, readAll_stopped stopped, delivered]
      cases event with
      | output other seq data =>
          by_cases same : other = reader.sessionId
          · subst same
            have head : delivered reader.sessionId [.output reader.sessionId seq data] =
              [(seq, data)] := by simp [delivered]
            rw [delivered_cons, head] at ascending later
            obtain ⟨above, rest⟩ := List.pairwise_cons.mp ascending
            have least : reader.attachedSeq < seq := later (seq, data) (by simp)
            have behind := @induction { reader with attachedSeq := seq } opened rest above
            rw [List.takeWhile_cons_of_pos rfl, delivered_cons, head]
            simpa [readAll, receive, opened, least] using behind
          · exact quiet reader.inputError (by simp [receive, opened, same]) rfl
              (by simp [delivered, same])
      | inputError other message =>
          by_cases same : other = reader.sessionId
          · exact quiet (some message) (by simp [receive, opened, same]) rfl rfl
          · exact quiet reader.inputError (by simp [receive, opened, same]) rfl rfl
      | exit other | killed other =>
          by_cases same : other = reader.sessionId
          · exact stops { reader with exited := true } (by simp [receive, opened, same]) (by simp)
              (by simp [goesOn, same])
          · exact quiet reader.inputError (by simp [receive, opened, same]) (by simp [goesOn, same])
              rfl
      | error message =>
          cases fails : (snapshotFailureFromResponse parsers (.error message)).any
              fun failure => failure.1 = reader.sessionId with
          | true =>
              exact stops { reader with transportFailed := true }
                (by simp only [receive, opened, fails]; rfl) rfl (by simp only [goesOn, fails]; rfl)
          | false =>
              exact quiet reader.inputError (by simp only [receive, opened, fails]; rfl)
                (by simp only [goesOn, fails]; rfl) rfl
      | _ => exact quiet reader.inputError (by simp [receive, opened]) rfl rfl

end RemoteReader

/-- Until its counter is exhausted, a session numbers what it sends behind an attach above the
number of the answer, in ascending order. In whatever chunks its lines arrive, the reader of the
connection gives every output once, in order, until the session ends. -/
theorem attached_reader_applies_once (host : Host) (id : Uuid) {parsers : Parsers}
    {initial : DurableState} {snapshot : Bytes} {reader : RemoteReader}
    (attached : RemoteReader.attached (initial.session.attachedResponse id snapshot) = some reader)
    {inputs : List DurableInput}
    (room : ((durability host id).run initial inputs).session.seq < u64Max)
    (fits : ∀ event ∈ heard host id initial inputs,
      encodesWithin jsonLength event maxProtocolLineBytes = true)
    (decodes : ∀ event ∈ heard host id initial inputs,
      decodeLine parsers (encodeLine event) = some event)
    {chunks : ChunkReader} (ended : chunks.ending = .eof)
    (coming : chunks.incoming =
      ((heard host id initial inputs).map fun event => utf8Bytes (encodeLine event)).flatten) :
    (delivered id (heard host id initial inputs)).Pairwise
        (fun first second => first.1 < second.1) ∧
      (∀ event ∈ delivered id (heard host id initial inputs), initial.session.seq < event.1) ∧
      ∀ calls ≥ (heard host id initial inputs).length, ∃ texts left,
        chunks.readLines maxProtocolLineBytes calls = .ok (texts, left) ∧
          reader.readAll parsers (texts.map (decodeLine parsers)) =
            (delivered id ((heard host id initial inputs).takeWhile
              (RemoteReader.goesOn parsers id))).flatMap Prod.snd := by
  obtain ⟨-, ascending, within⟩ := heard_numbers host id initial inputs room
  have later := fun event member => (within event member).1
  refine ⟨ascending, later, ?_⟩
  intro calls enough
  have encoded : ∀ line ∈ (heard host id initial inputs).map
      fun event => utf8Bytes (encodeLine event),
      IsEncodedLine wholeSerializer maxProtocolLineBytes line := by
    intro line member
    obtain ⟨event, sent, rfl⟩ := List.mem_map.mp member
    rw [utf8Bytes_encodeLine]
    exact ⟨event, encodeResponseLineWithLimit_of_encodesWithin (fits event sent)⟩
  obtain ⟨texts, left, read, same, -⟩ :=
    readLines_encoded (by decide) encoded calls chunks (by simpa using enough) ended coming
  refine ⟨texts, left, read, ?_⟩
  have whole : texts = (heard host id initial inputs).map encodeLine := by
    apply List.map_injective_iff.mpr fun _ _ => utf8Bytes_injective
    rw [same, List.map_map]
    rfl
  have lines : texts.map (decodeLine parsers) = (heard host id initial inputs).map some := by
    rw [whole, List.map_map]
    apply List.map_congr_left
    intro event sent
    rw [Function.comp_apply, decodes event sent]
  cases attached
  rw [lines]
  exact RemoteReader.readAll_ascending rfl ascending later

/-- A byte is read and pumped behind the attach. -/
def pumpedInputs : List DurableInput :=
  [.terminal .beginRead, .terminal (.completeRead (.data [65] false)), .pump 65536 none ⟨0, 0⟩]

theorem attached_reader_applies_byte :
    let byte : Response := .output (.fromU128 2) 1 [65]
    let parsers : Parsers := ⟨fun _ => some byte, fun _ => none, fun _ => none⟩
    ∃ texts left, ChunkReader.readLines maxProtocolLineBytes 1
        ⟨utf8Bytes (encodeLine byte), [], .eof⟩ = .ok (texts, left) ∧
      (⟨.fromU128 2, 0, false, none, false⟩ : RemoteReader).readAll parsers
        (texts.map (decodeLine parsers)) = [65] := by
  intro byte parsers
  have sent : heard .blank (.fromU128 2) .blank pumpedInputs = [byte] := by decide +kernel
  have once := @attached_reader_applies_once .blank (.fromU128 2) parsers .blank [] _ rfl
    pumpedInputs (by decide +kernel)
  rw [sent] at once
  simp only [List.forall_mem_singleton] at once
  have decodes : decodeLine parsers (encodeLine byte) = some byte := by
    rw [decodeLine, if_neg (by decide +kernel)]
  exact (@once (by decide +kernel) decodes ⟨utf8Bytes (encodeLine byte), [], .eof⟩ rfl
    (by simp [ChunkReader.incoming])).2.2 1 (by simp)

end TerminalCanvas.Daemon
