import TerminalCanvas.Daemon.Backlog
import TerminalCanvas.Foundation.Execution

/-! # From the terminal to the disk

A session and the files of its leaf, through every interleaving of the reader, the
clients, the pump and the writer of the serving loop, which holds one target of a
session at a time. -/

namespace TerminalCanvas.Terminal.PtyHandle

open Scrollback

/-- What happens to a terminal between two critical sections of its owner. -/
inductive Activity where
  | beginRead
  | completeRead (outcome : ReadOutcome)
  | publish (visible : Bool) (metadata : Metadata)
  | resize (cols rows : Nat)
  /-- The child, the writer and the closer of the master went on. -/
  | progress (outputFinished processReaped writerFinished masterCloserRunning : Bool)
      (inputError : Option String)

/-- A read fills at most the buffer of the reader. -/
def Activity.Fits : Activity → Prop
  | .completeRead (.data raw _) => raw.length ≤ 65536
  | _ => True

/-- The terminal behind an activity, and what it added to the stream. -/
def act (pty : PtyHandle) : Activity → PtyHandle × List Content
  | .beginRead =>
      ({ pty with readerRetirement :=
          pty.readerRetirement.beginRead.getD pty.readerRetirement }, [])
  | .completeRead outcome =>
      if pty.readerRetirement.admitted then
        (pty.completeRead outcome, match outcome with
          | .data raw _ => [(.output, raw)]
          | _ => [])
      else
        (pty, [])
  | .publish visible metadata => (pty.publish visible metadata, [])
  | .resize cols rows =>
      (pty.resize cols rows, (pty.resize cols rows).term.drop pty.term.length)
  | .progress outputFinished processReaped writerFinished masterCloserRunning inputError =>
      ({ pty with
          outputFinished := outputFinished
          processReaped := processReaped
          writerFinished := writerFinished
          masterCloserRunning := masterCloserRunning
          inputError := inputError }, [])

/-- The reader met the end of the stream and nothing of it is left. -/
def Ended (pty : PtyHandle) : Prop :=
  pty.retirementLogOwned = true ∧ pty.readerRetirement = .eof ∧ pty.pendingLog = []

variable {pty : PtyHandle} {activity : Activity}

/-- A read behind an unexhausted sequence is retained, whatever the parser does. -/
theorem retainRawRead_retains (room : pty.logSeq < u64Max) (raw : Bytes) (parserPanics : Bool) :
    ∃ next, pty.retainRawRead raw parserPanics = some next ∧
      next.pendingLog = pty.pendingLog ++ encodeFrame (pty.logSeq + 1) .output raw ∧
      next.logSeq = pty.logSeq + 1 ∧ next.retirementLogOwned = pty.retirementLogOwned ∧
      (next.termPoisoned = false →
        pty.termPoisoned = false ∧ next.term = pty.term ++ [(.output, raw)]) := by
  have advance : nextLogSequence pty.logSeq = some (pty.logSeq + 1) :=
    checkedAddU64_eq_some.mpr ⟨room, rfl⟩
  simp only [retainRawRead, advance, Option.bind_eq_bind, Option.bind_some]
  split
  · next poisoned => exact ⟨_, rfl, rfl, rfl, rfl, by simp [poisoned]⟩
  · next healthy =>
      split
      · exact ⟨_, rfl, rfl, rfl, rfl, by simp⟩
      · exact ⟨_, rfl, rfl, rfl, rfl, fun _ => ⟨by simpa using healthy, rfl⟩⟩

theorem act_owned (room : pty.logSeq < u64Max) (owned : pty.retirementLogOwned = true) :
    (pty.act activity).1.retirementLogOwned = true := by
  cases activity with
  | completeRead outcome =>
      simp only [act]
      split
      · cases outcome with
        | data raw parserPanics =>
            obtain ⟨next, retained, -, -, same, -⟩ := retainRawRead_retains room raw parserPanics
            simp only [completeRead, retained, same, owned]
        | _ => exact owned
      · exact owned
  | resize cols rows => simp [act, resize, owned]
  | _ => exact owned

theorem act_ended (ended : pty.Ended) : (pty.act activity).1.Ended := by
  obtain ⟨owned, eof, emptied⟩ := ended
  cases activity with
  | completeRead outcome => simp [act, eof, ReaderState.admitted, Ended, owned, emptied]
  | resize cols rows => simp [act, resize, owned, Ended, eof, emptied]
  | beginRead => simp [act, eof, ReaderState.beginRead, Ended, owned, emptied]
  | _ => exact ⟨owned, eof, emptied⟩

theorem act_of_ended (ended : pty.Ended) : (pty.act activity).2 = [] := by
  obtain ⟨owned, eof, -⟩ := ended
  cases activity with
  | completeRead outcome => simp [act, eof, ReaderState.admitted]
  | resize cols rows => simp [act, resize, owned]
  | _ => rfl

/-- An activity adds at most one frame to the log, and the grid absorbs it. -/
theorem act_logs {raw : List Frame} (fits : activity.Fits)
    (log : Daemon.Holds pty.pendingLog pty.logSeq raw) (room : pty.logSeq < u64Max) :
    ∃ added, contents added = (pty.act activity).2 ∧ added.length ≤ 1 ∧
      Daemon.Holds (pty.act activity).1.pendingLog (pty.act activity).1.logSeq (raw ++ added) ∧
      (pty.act activity).1.logSeq ≤ pty.logSeq + added.length ∧
      ((pty.act activity).1.termPoisoned = false → pty.termPoisoned = false ∧
        (pty.act activity).1.term = pty.term ++ (pty.act activity).2) := by
  have advance : checkedAddU64 pty.logSeq 1 = some (pty.logSeq + 1) :=
    checkedAddU64_eq_some.mpr ⟨room, rfl⟩
  have quiet : ∀ next : PtyHandle, next.rawLog = pty.rawLog →
      ∃ added, contents added = [] ∧ added.length ≤ 1 ∧
        Daemon.Holds next.pendingLog next.logSeq (raw ++ added) ∧
        next.logSeq ≤ pty.logSeq + added.length ∧
        (next.termPoisoned = false → pty.termPoisoned = false ∧ next.term = pty.term ++ []) := by
    intro next same
    simp only [rawLog, RawLog.mk.injEq] at same
    obtain ⟨bytes, seq, term, poisoned⟩ := same
    refine ⟨[], rfl, by simp, by rw [bytes, seq, List.append_nil]; exact log, by simp [seq], ?_⟩
    intro healthy
    exact ⟨poisoned ▸ healthy, by simp [term]⟩
  cases activity with
  | completeRead outcome =>
      simp only [act]
      split
      · cases outcome with
        | data read parserPanics =>
            have small : read.length < 2 ^ 32 := by
              have bound : read.length ≤ 65536 := fits
              omega
            refine ⟨[⟨pty.logSeq + 1, .output, read⟩], rfl, by simp, ?_⟩
            obtain ⟨next, retained, bytes, seq, -, grid⟩ :=
              retainRawRead_retains room read parserPanics
            simp only [completeRead, retained]
            exact ⟨bytes ▸ seq ▸ log.push advance .output small, Nat.le_of_eq seq, grid⟩
        | _ => exact quiet _ rfl
      · exact quiet _ rfl
  | resize cols rows =>
      simp only [act, resize]
      split
      · simpa using quiet pty rfl
      · split
        · simpa using quiet _ rfl
        · next changes =>
            have healthy : pty.termPoisoned = false := by
              simpa using (not_or.mp changes).1
            have small : (resizePayload cols rows).length < 2 ^ 32 := by
              simp [resizePayload]
            refine ⟨[⟨pty.logSeq + 1, .resize, resizePayload cols rows⟩], ?_, by simp, ?_⟩
            · simp [nextLogSequence, advance, contents, Frame.content]
            · simp only [nextLogSequence, advance]
              exact ⟨log.push advance .resize small, Nat.le_refl _, fun _ => ⟨healthy, by simp⟩⟩
  | _ => exact quiet _ rfl

end TerminalCanvas.Terminal.PtyHandle

namespace TerminalCanvas.Daemon

open Execution Scrollback Terminal

/-- What the writer of the serving loop holds of a session. -/
inductive Writing where
  | idle
  | checkpoint (target : ScrollbackTarget)
  | batch (target : IncrementalTarget)
  | reported (report : TargetReport)

/-- A session and the files of its leaf. -/
structure DurableState where
  session : DaemonSession
  files : LeafFiles
  writing : Writing

inductive DurableInput where
  | terminal (activity : PtyHandle.Activity)
  | attach (lineLimit : Nat) (moment : Moment)
  | pump (lineLimit : Nat) (interactiveBudget : Option Nat) (moment : Moment)
  | takeCheckpoint (lineLimit : Nat) (moment : Moment)
  | takeBatch
  | saveCheckpoint (answer : CheckpointAnswer)
  | appendBatch (answer : IncrementalAnswer)
  | acknowledge
  | close
  | captureRetirement (closerStarts : Bool)

/-- Reads fit into the buffer, and a failed append can truncate the file again. -/
def DurableInput.Permitted : DurableInput → Prop
  | .terminal activity => activity.Fits
  | .appendBatch answer => ∀ written sync, answer.append ≠ .writeFails written false sync
  | _ => True

/-- What the serving loop does with the report of a writer. -/
def DaemonSession.settle (session : DaemonSession) (report : TargetReport) : DaemonSession :=
  let settled := match report.acknowledged with
    | some (_, writtenBytes) => session.acknowledgePersisted writtenBytes
    | none => session
  if report.flagged.isSome then { settled with scrollbackDirty := true } else settled

/-- What the terminal produced in a step, and what earlier clients are sent. -/
structure Observed where
  produced : List Content
  sent : List Response

def DurableState.step (host : Host) (id : Uuid) (state : DurableState) :
    DurableInput → StepResult DurableState Observed
  | .terminal activity =>
      match state.session.handle with
      | none => ⟨state, [], []⟩
      | some shared =>
          let (pty, produced) := shared.pty.act activity
          ⟨{ state with session := state.session.setPty pty }, produced, []⟩
  | .attach lineLimit moment =>
      if state.session.retirementRequested then ⟨state, [], []⟩
      else
        let (answer, session) := state.session.attachBoundary host id lineLimit moment
        ⟨{ state with session := session }, [], DaemonSession.outputEvents id
          ((answer.map Prod.snd).toOption.getD [])⟩
  | .pump lineLimit interactiveBudget moment =>
      if state.session.retirementRequested then ⟨state, [], []⟩
      else
        let (turn, session) := state.session.pump host id lineLimit interactiveBudget moment
        ⟨{ state with session := session }, [], turn.events⟩
  | .takeCheckpoint lineLimit moment =>
      match state.writing with
      | .idle =>
          let (turn, session) := state.session.takeDirtyTarget host id lineLimit moment
          ⟨{ state with session := session, writing := match turn.target with
            | some target => .checkpoint target
            | none => .idle }, [], turn.events⟩
      | _ => ⟨state, [], []⟩
  | .takeBatch =>
      match state.writing, state.session.incrementalTarget id with
      | .idle, some target => ⟨{ state with writing := .batch target }, [], []⟩
      | _, _ => ⟨state, [], []⟩
  | .saveCheckpoint answer =>
      match state.writing with
      | .checkpoint target =>
          let (report, files) := persistScrollbackTarget answer state.files target
          ⟨{ state with files := files, writing := .reported report }, [], []⟩
      | _ => ⟨state, [], []⟩
  | .appendBatch answer =>
      match state.writing with
      | .batch target =>
          let (report, files) := persistIncrementalTarget answer state.files target
          ⟨{ state with files := files, writing := .reported report }, [], []⟩
      | _ => ⟨state, [], []⟩
  | .acknowledge =>
      match state.writing with
      | .reported report =>
          ⟨{ state with session := state.session.settle report, writing := .idle }, [], []⟩
      | _ => ⟨state, [], []⟩
  | .close => ⟨{ state with session := state.session.requestRetirement }, [], []⟩
  | .captureRetirement closerStarts =>
      ⟨{ state with session := state.session.captureRetirement closerStarts }, [], []⟩

def durability (host : Host) (id : Uuid) : Machine DurableState DurableInput Observed where
  step := DurableState.step host id

namespace DaemonSession

theorem capturePrefix_flags (session : DaemonSession) (pty : PtyHandle) :
    (session.capturePrefix pty).2.retirementRequested = session.retirementRequested ∧
      (session.capturePrefix pty).2.retirementFinalCaptured = session.retirementFinalCaptured ∧
      ((session.capturePrefix pty).1 = true →
        (session.capturePrefix pty).2.retirementCaptured = true) := by
  unfold capturePrefix
  split
  · next captured => exact ⟨rfl, rfl, fun _ => captured⟩
  · exact ⟨rfl, rfl, id⟩

theorem startDrain_flags (session : DaemonSession) (closerStarts : Bool) :
    (session.startDrain closerStarts).2.retirementRequested = session.retirementRequested ∧
      (session.startDrain closerStarts).2.retirementCaptured = session.retirementCaptured ∧
      (session.startDrain closerStarts).2.retirementFinalCaptured =
        session.retirementFinalCaptured := by
  unfold startDrain
  split
  · exact ⟨rfl, rfl, rfl⟩
  · split
    · exact ⟨rfl, rfl, rfl⟩
    · split
      · exact ⟨rfl, rfl, rfl⟩
      · split
        · exact ⟨rfl, rfl, rfl⟩
        · exact ⟨rfl, rfl, rfl⟩

end DaemonSession

/-! ## What stands where -/

structure Contained where
  shared : SharedPtyHandle
  history : LeafSessionHistory
  /-- The prefix of the durable queue that the writer took, and the frames behind it. -/
  captured : List Frame
  later : List Frame
  raw : List Frame
  /-- The captured prefix is in the files, and not yet acknowledged. -/
  written : Bool

/-- What the files and the captured prefix hold. -/
def Contained.stored (contained : Contained) : List Content :=
  contained.history.replay ++ if contained.written then [] else contents contained.captured

def Writing.Holds (contained : Contained) : Writing → Prop
  | .idle => contained.written = false
  | .checkpoint target => contained.written = false ∧ target.covers = contained.stored ∧
      target.pendingBytes = (encodeFrames contained.captured).length
  | .batch target => contained.written = false ∧ target.frames = encodeFrames contained.captured
  | .reported report => match report.acknowledged with
    | none => contained.written = false
    | some (_, writtenBytes) => contained.written = true ∧
        writtenBytes = (encodeFrames contained.captured).length

/-- How far the terminal of a session is closed. -/
structure Closed (session : DaemonSession) (pty : PtyHandle) : Prop where
  unrequested : session.retirementRequested = false →
    session.retirementCaptured = false ∧ session.retirementFinalCaptured = false
  owned : session.retirementCaptured = true → pty.retirementLogOwned = true
  ended : session.retirementFinalCaptured = true → pty.Ended

structure Sound (restored produced : List Content) (state : DurableState)
    (contained : Contained) : Prop where
  handle : state.session.handle = some contained.shared
  history : state.files.history = .ok contained.history
  backlog : state.session.backlog.Holds (contained.captured ++ contained.later) contained.raw
  stream : contained.stored ++ contents contained.later ++ contents contained.raw =
    restored ++ produced
  grid : contained.shared.pty.termPoisoned = false →
    contained.shared.pty.term = restored ++ produced
  numbers : state.session.persistSeq + contained.raw.length ≤ produced.length
  logged : contained.shared.pty.logSeq ≤ produced.length
  writing : state.writing.Holds contained
  closed : Closed state.session contained.shared.pty

namespace Sound

variable {restored produced : List Content} {state : DurableState} {contained : Contained}
variable {next : DaemonSession} {shared : SharedPtyHandle}

theorem raw (sound : Sound restored produced state contained) :
    state.session.backlog.raw = some contained.shared.pty.rawLog := by
  simp [DaemonSession.backlog, sound.handle]

theorem queue (sound : Sound restored produced state contained) :
    Daemon.Holds state.session.persistPending state.session.persistSeq
      (contained.captured ++ contained.later) :=
  sound.backlog.1

theorem log (sound : Sound restored produced state contained) :
    Daemon.Holds contained.shared.pty.pendingLog contained.shared.pty.logSeq contained.raw := by
  have holds := sound.backlog.2
  rw [sound.raw] at holds
  exact holds

theorem takes (sound : Sound restored produced state contained)
    (room : produced.length ≤ u64Max) {between : Backlog}
    (takes : state.session.backlog.Takes between)
    (durable : next.backlog.durable = between.durable) (log : next.backlog.raw = between.raw)
    (closed : ∀ shared, next.handle = some shared → Closed next shared.pty) :
    ∃ shared later left, Sound restored produced { state with session := next }
      { contained with shared := shared, later := later, raw := left } := by
  obtain ⟨added, left, moved⟩ := takes _ _ sound.backlog (Nat.le_trans sound.numbers room)
  obtain ⟨front, split, same⟩ := moved.split
  obtain ⟨grid, present, term, poisoned, seq⟩ := moved.grid _ sound.raw
  rw [← log] at present
  obtain ⟨shared, handle, rfl⟩ := Option.map_eq_some_iff.mp present
  refine ⟨shared, contained.later ++ added, left, handle, sound.history, ?_, ?_, ?_, ?_, ?_,
    sound.writing, closed shared handle⟩
  · have holds := moved.holds
    rw [Backlog.Holds, ← durable, ← log, List.append_assoc] at holds
    exact holds
  · have stream := sound.stream
    rw [split, contents_append, ← same] at stream
    simpa [Contained.stored] using stream
  · intro healthy
    exact term.trans (sound.grid (poisoned.symm.trans healthy))
  · have numbers := moved.numbers
    rw [← durable] at numbers
    exact Nat.le_trans numbers sound.numbers
  · exact Nat.le_trans seq sound.logged

theorem open_ (sound : Sound restored produced state contained)
    (unrequested : state.session.retirementRequested = false)
    (closing : next.backlog.closing = state.session.backlog.closing) (pty : PtyHandle) :
    Closed next pty := by
  obtain ⟨captured, final⟩ := sound.closed.unrequested unrequested
  simp only [DaemonSession.backlog, Closing.mk.injEq, captured, final] at closing
  exact ⟨fun _ => closing.2, by simp [closing], by simp [closing]⟩

theorem drains (sound : Sound restored produced state contained)
    (room : produced.length ≤ u64Max)
    (unrequested : state.session.retirementRequested = false)
    (takes : state.session.backlog.Takes next.backlog) :
    ∃ shared later left, Sound restored produced { state with session := next }
      { contained with shared := shared, later := later, raw := left } := by
  obtain ⟨_, _, moved⟩ := takes _ _ sound.backlog (Nat.le_trans sound.numbers room)
  exact sound.takes room takes rfl rfl fun shared _ =>
    sound.open_ unrequested moved.closing shared.pty

theorem terminal (sound : Sound restored produced state contained) {activity : PtyHandle.Activity}
    (fits : activity.Fits) (room : produced.length < u64Max) :
    ∃ later, Sound restored (produced ++ (contained.shared.pty.act activity).2)
      { state with
        session := state.session.setPty (contained.shared.pty.act activity).1 } later := by
  have inRange := Nat.lt_of_le_of_lt sound.logged room
  obtain ⟨added, same, short, log, seq, grid⟩ :=
    PtyHandle.act_logs fits sound.log inRange
  have length : (contained.shared.pty.act activity).2.length = added.length := by
    rw [← same]
    exact List.length_map ..
  have handle : (state.session.setPty (contained.shared.pty.act activity).1).handle =
      some { contained.shared with pty := (contained.shared.pty.act activity).1 } := by
    simp [DaemonSession.setPty, DaemonSession.onPty, sound.handle]
  refine ⟨{ contained with
    shared := { contained.shared with pty := (contained.shared.pty.act activity).1 }
    raw := contained.raw ++ added }, handle, sound.history, ⟨sound.backlog.1, ?_⟩, ?_, ?_, ?_, ?_,
    sound.writing, sound.closed.unrequested, ?_, ?_⟩
  · simp only [DaemonSession.backlog, handle]
    exact log
  · rw [contents_append, same, ← List.append_assoc, ← List.append_assoc, ← sound.stream]
    rfl
  · intro healthy
    rw [(grid healthy).2, sound.grid (grid healthy).1, List.append_assoc]
  · have numbers := sound.numbers
    simp only [List.length_append, length]
    simp only [DaemonSession.setPty, DaemonSession.onPty]
    omega
  · have logged := sound.logged
    simp only [List.length_append, length]
    exact Nat.le_trans seq (by omega)
  · exact fun captured => PtyHandle.act_owned inRange (sound.closed.owned captured)
  · exact fun final => PtyHandle.act_ended (sound.closed.ended final)

/-! ### The writer -/

theorem flag (sound : Sound restored produced state contained) (dirty : Bool) :
    Sound restored produced
      { state with session := { state.session with scrollbackDirty := dirty } } contained :=
  { sound with closed := ⟨sound.closed.unrequested, sound.closed.owned, sound.closed.ended⟩ }

/-- An acknowledgement drops exactly the captured prefix. -/
theorem acknowledge (sound : Sound restored produced state contained)
    (written : contained.written = true) :
    ∃ later, Sound restored produced
      { state with
        session := state.session.acknowledgePersisted (encodeFrames contained.captured).length
        writing := .idle } later := by
  have holds := sound.queue
  have pending : state.session.persistPending.drop (min (encodeFrames contained.captured).length
      state.session.persistPending.length) = encodeFrames contained.later := by
    rw [holds.encoded, encodeFrames_append, Nat.min_eq_left (by simp), List.drop_left]
  have rest : Daemon.Holds (encodeFrames contained.later) state.session.persistSeq
      contained.later := holds.rest
  have stream := sound.stream
  simp only [Contained.stored, written, if_true, List.append_nil] at stream
  refine ⟨{ contained with
    shared := { contained.shared with
      pty := contained.shared.pty.setDaemonDurablePressure (encodeFrames contained.later).length }
    captured := []
    written := false }, ?_⟩
  have log := sound.log
  have numbers := sound.numbers
  unfold DaemonSession.acknowledgePersisted
  simp only [pending]
  split
  · next idle =>
      have none : contained.later = [] := encodeFrames_eq_nil.mp (List.isEmpty_iff.mp idle.1)
      refine ⟨by simp [DaemonSession.onPty, sound.handle], sound.history, ⟨?_, ?_⟩, ?_, sound.grid,
        by simp only; omega, sound.logged, rfl, sound.closed.unrequested, sound.closed.owned,
        sound.closed.ended⟩
      · simp only [DaemonSession.backlog, DaemonSession.onPty, none, encodeFrames_nil]
        exact .empty 0
      · simp only [DaemonSession.backlog, DaemonSession.onPty, sound.handle, Option.map_some]
        exact log
      · simpa [Contained.stored] using stream
  · refine ⟨by simp [DaemonSession.onPty, sound.handle], sound.history, ⟨rest, ?_⟩, ?_, sound.grid,
      numbers, sound.logged, rfl, sound.closed.unrequested, sound.closed.owned,
      sound.closed.ended⟩
    · simp only [DaemonSession.backlog, DaemonSession.onPty, sound.handle, Option.map_some]
      exact log
    · simpa [Contained.stored] using stream

theorem settle (sound : Sound restored produced state contained) {report : TargetReport}
    (reported : state.writing = .reported report) :
    ∃ later, Sound restored produced
      { state with session := state.session.settle report, writing := .idle } later := by
  have holds := sound.writing
  rw [reported] at holds
  have settled : ∃ later, Sound restored produced
      { state with
        session := match report.acknowledged with
          | some (_, writtenBytes) => state.session.acknowledgePersisted writtenBytes
          | none => state.session
        writing := .idle } later := by
    cases acknowledged : report.acknowledged with
    | none =>
        simp only [Writing.Holds, acknowledged] at holds
        exact ⟨contained, { sound with writing := holds }⟩
    | some bytes =>
        simp only [Writing.Holds, acknowledged] at holds
        simp only [holds.2]
        exact sound.acknowledge holds.1
  obtain ⟨later, settled⟩ := settled
  unfold DaemonSession.settle
  simp only
  split
  · exact ⟨later, settled.flag true⟩
  · exact ⟨later, settled⟩

/-- The writer takes the whole durable queue. -/
theorem capture (sound : Sound restored produced state contained)
    (unwritten : contained.written = false) {writing : Writing}
    (holds : writing.Holds
      { contained with captured := contained.captured ++ contained.later, later := [] }) :
    Sound restored produced { state with writing := writing }
      { contained with captured := contained.captured ++ contained.later, later := [] } :=
  { sound with
    backlog := by simpa using sound.backlog
    stream := by simpa [Contained.stored, unwritten] using sound.stream
    writing := holds }

theorem takeBatch (sound : Sound restored produced state contained) (idle : state.writing = .idle)
    {id : Uuid} {target : IncrementalTarget}
    (taken : state.session.incrementalTarget id = some target) :
    ∃ later, Sound restored produced { state with writing := .batch target } later := by
  have unwritten := sound.writing
  rw [idle] at unwritten
  have frames : target.frames = encodeFrames (contained.captured ++ contained.later) := by
    rw [← sound.queue.encoded]
    simp only [DaemonSession.incrementalTarget, Option.bind_eq_bind,
      Option.bind_eq_some_iff] at taken
    obtain ⟨panelId, -, made⟩ := taken
    split at made
    · cases made
    · cases made
      rfl
  exact ⟨_, sound.capture unwritten ⟨unwritten, frames⟩⟩

/-- What a saved checkpoint or an acknowledged batch puts into the files. -/
theorem stores (sound : Sound restored produced state contained) {files : LeafFiles}
    {history : LeafSessionHistory} (unwritten : contained.written = false)
    (loaded : files.history = .ok history) (replay : history.replay = contained.stored)
    {report : TargetReport} {sessionId : Uuid}
    (acknowledged : report.acknowledged =
      some (sessionId, (encodeFrames contained.captured).length)) :
    Sound restored produced { state with files := files, writing := .reported report }
      { contained with history := history, written := true } :=
  { sound with
    history := loaded
    stream := by simpa [Contained.stored, replay, unwritten] using sound.stream
    writing := by simp [Writing.Holds, acknowledged] }

theorem saveCheckpoint (sound : Sound restored produced state contained)
    {target : ScrollbackTarget} (captured : state.writing = .checkpoint target)
    (answer : CheckpointAnswer) :
    ∃ later, Sound restored produced
      { state with
        files := (persistScrollbackTarget answer state.files target).2
        writing := .reported (persistScrollbackTarget answer state.files target).1 } later := by
  have holds := sound.writing
  rw [captured] at holds
  obtain ⟨unwritten, covers, bytes⟩ := holds
  rcases @persistScrollbackTarget_history state.files answer target with
    ⟨refused, same⟩ | ⟨acknowledged, generation, logGeneration, loaded⟩
  · rw [same]
    refine ⟨contained, { sound with writing := ?_ }⟩
    simpa [Writing.Holds, refused] using unwritten
  · rw [bytes] at acknowledged
    exact ⟨_, sound.stores unwritten loaded (by simp [LeafSessionHistory.replay, covers])
      acknowledged⟩

theorem appendBatch (sound : Sound restored produced state contained)
    {target : IncrementalTarget} (captured : state.writing = .batch target)
    {answer : IncrementalAnswer}
    (truncates : ∀ written sync, answer.append ≠ .writeFails written false sync) :
    ∃ later, Sound restored produced
      { state with
        files := (persistIncrementalTarget answer state.files target).2
        writing := .reported (persistIncrementalTarget answer state.files target).1 } later := by
  have holds := sound.writing
  rw [captured] at holds
  obtain ⟨unwritten, frames⟩ := holds
  have turn := persistIncrementalTarget_turn answer state.files target
  have follows : Follows none contained.captured :=
    (follows_append.mp sound.queue.follows).1
  cases acknowledged : (persistIncrementalTarget answer state.files target).1.acknowledged with
  | none =>
      obtain ⟨history, kept, loaded, checkpoint, stored, whole | ⟨written, strands, -⟩⟩ :=
        history_of_unacknowledged turn acknowledged sound.history
      · refine ⟨{ contained with history := history },
          { sound with history := loaded, stream := ?_, writing := ?_ }⟩
        · have stream := sound.stream
          simpa [Contained.stored, LeafSessionHistory.replay, checkpoint, stored, whole]
            using stream
        · simpa [Writing.Holds, acknowledged] using unwritten
      · obtain ⟨_, sync, -, -, stopped⟩ := strands
        exact absurd stopped (truncates written sync)
  | some acknowledgement =>
      obtain ⟨old, history, read, loaded, placed⟩ :=
        history_of_acknowledged turn (by simp [acknowledged])
      rw [sound.history] at read
      cases read
      rw [frames, decodeFrames_encodeFrames follows] at placed
      have replay : history.replay = contained.stored := by
        rcases placed with ⟨checkpoint, appended⟩ | ⟨checkpoint, none⟩
        · simp [LeafSessionHistory.replay, Contained.stored, unwritten, checkpoint, appended]
        · simp [LeafSessionHistory.replay, Contained.stored, unwritten, checkpoint, none]
      have exactly : acknowledgement =
          (target.sessionId, (encodeFrames contained.captured).length) := by
        rw [← frames]
        generalize (persistIncrementalTarget answer state.files target).2 = after at turn
        generalize (persistIncrementalTarget answer state.files target).1 = report
          at turn acknowledged
        cases turn with
        | appended => simpa using acknowledged.symm
        | unnumbered _ _ _ unacknowledged => simp [unacknowledged] at acknowledged
        | _ => cases acknowledged
      rw [exactly] at acknowledged
      exact ⟨_, sound.stores unwritten loaded replay acknowledged⟩

/-! ### The retirement -/

theorem requestRetirement (sound : Sound restored produced state contained) :
    Sound restored produced { state with session := state.session.requestRetirement }
      contained := by
  have requested : state.session.requestRetirement =
      { state.session with retirementRequested := true } := by
    simp [DaemonSession.requestRetirement, sound.handle]
  rw [requested]
  exact { sound with closed := ⟨by simp, sound.closed.owned, sound.closed.ended⟩ }

/-- Behind a transfer the closing may have gone on. -/
theorem transferred (sound : Sound restored produced state contained)
    (room : produced.length ≤ u64Max) (requested : state.session.retirementRequested = true)
    {claimed : PtyHandle} {transfer : Except IoError Bool × PtyHandle.DurableQueue × PtyHandle}
    (log : claimed.rawLog = contained.shared.pty.rawLog)
    (transfers : DaemonSession.Transfers claimed
      ⟨state.session.persistPending, state.session.persistSeq⟩ transfer)
    {captured final : Bool} (owned : captured = true → claimed.retirementLogOwned = true)
    (ended : final = true → claimed.retirementLogOwned = true ∧
      claimed.readerRetirement = .eof ∧ transfer.1.toOption.getD false = true) :
    ∃ later, Sound restored produced
      { state with session := { (state.session.transferred transfer).2 with
        retirementCaptured := captured, retirementFinalCaptured := final } } later := by
  have held : Daemon.Holds claimed.rawLog.bytes claimed.rawLog.seq contained.raw := by
    rw [log]
    exact sound.log
  have left : transfer.2.2.retirementLogOwned = claimed.retirementLogOwned ∧
      transfer.2.2.readerRetirement = claimed.readerRetirement ∧
      (transfer.1.toOption.getD false = true → transfer.2.2.pendingLog = []) := by
    cases transfers with
    | nothing kept => exact ⟨rfl, rfl, by simp [kept]⟩
    | everything moved =>
        obtain ⟨-, -, rfl⟩ := DaemonSession.transferRetirementFrames_moves moved held
        exact ⟨rfl, rfl, fun _ => rfl⟩
  have takes := DaemonSession.transferred_takes sound.handle log transfers
  let next := { (state.session.transferred transfer).2 with
    retirementCaptured := captured, retirementFinalCaptured := final }
  have closed : ∀ shared, next.handle = some shared → Closed next shared.pty := by
    intro shared handle
    simp only [next, DaemonSession.transferred, DaemonSession.setPty, DaemonSession.onPty,
      sound.handle, Option.map_some, Option.some.injEq] at handle
    subst handle
    refine ⟨fun unrequested => ?_, fun moved => left.1.trans (owned moved), fun last => ?_⟩
    · exact absurd (requested.symm.trans unrequested) (by simp)
    · obtain ⟨claim, eof, moved⟩ := ended last
      exact ⟨left.1.trans claim, left.2.1.trans eof, left.2.2 moved⟩
  obtain ⟨shared, later, rest, behind⟩ :=
    @Sound.takes _ _ _ _ next sound room _ takes rfl rfl closed
  exact ⟨_, behind⟩

theorem capturePrefix (sound : Sound restored produced state contained)
    (room : produced.length ≤ u64Max) (requested : state.session.retirementRequested = true)
    (unfinished : state.session.retirementFinalCaptured = false) :
    ∃ later, Sound restored produced
      { state with session := (state.session.capturePrefix contained.shared.pty).2 } later := by
  unfold DaemonSession.capturePrefix
  split
  · exact ⟨contained, sound⟩
  · have transfers := DaemonSession.transfers_front contained.shared.pty
      ⟨state.session.persistPending, state.session.persistSeq⟩ state.session.historyPanel.isSome
    exact @Sound.transferred _ _ _ _ sound room requested
      contained.shared.pty.claimRetirementLogOwner _ rfl transfers _
      state.session.retirementFinalCaptured (fun _ => rfl) (by simp [unfinished])

/-- The drain of a captured session leaves its log alone. -/
theorem startDrain (sound : Sound restored produced state contained)
    (room : produced.length ≤ u64Max) (requested : state.session.retirementRequested = true)
    (captured : state.session.retirementCaptured = true)
    (unfinished : state.session.retirementFinalCaptured = false) (closerStarts : Bool) :
    ∃ later, Sound restored produced
      { state with session := (state.session.startDrain closerStarts).2 } later := by
  have resumed : ∀ (pty : PtyHandle) (draining : Bool),
      pty.rawLog = contained.shared.pty.rawLog →
      pty.retirementLogOwned = contained.shared.pty.retirementLogOwned →
      ∃ later, Sound restored produced
        { state with
          session := { state.session.setPty pty with retirementDraining := draining } } later := by
    intro pty draining log same
    let next := { state.session.setPty pty with retirementDraining := draining }
    have raw : next.backlog.raw = state.session.backlog.raw := by
      simp [next, DaemonSession.backlog, DaemonSession.setPty, DaemonSession.onPty, sound.handle,
        log]
    have closed : ∀ shared, next.handle = some shared → Closed next shared.pty := by
      intro shared handle
      simp only [next, DaemonSession.setPty, DaemonSession.onPty, sound.handle, Option.map_some,
        Option.some.injEq] at handle
      subst handle
      refine ⟨fun unrequested => ?_, fun _ => same.trans (sound.closed.owned captured), ?_⟩
      · exact absurd (requested.symm.trans unrequested) (by simp)
      · exact fun final => absurd (unfinished.symm.trans final) (by simp)
    obtain ⟨shared, later, rest, behind⟩ :=
      @Sound.takes _ _ _ _ next sound room _ (.refl _) rfl raw closed
    exact ⟨_, behind⟩
  unfold DaemonSession.startDrain
  split
  · exact ⟨contained, sound⟩
  · split
    · exact ⟨contained, sound⟩
    · rw [sound.handle]
      have kept : (contained.shared.pty.beginRetirementDrain closerStarts).2.rawLog =
            contained.shared.pty.rawLog ∧
          (contained.shared.pty.beginRetirementDrain closerStarts).2.retirementLogOwned =
            contained.shared.pty.retirementLogOwned := by
        unfold PtyHandle.beginRetirementDrain
        simp only
        split
        · exact ⟨rfl, rfl⟩
        · split
          · exact ⟨rfl, rfl⟩
          · split
            · exact ⟨rfl, rfl⟩
            · exact ⟨rfl, rfl⟩
      simp only
      split
      · next begun =>
          rw [begun] at kept
          exact resumed _ state.session.retirementDraining kept.1 kept.2
      · next begun =>
          rw [begun] at kept
          exact resumed _ true kept.1 kept.2

/-- Only a tail behind the end of the stream is final. -/
theorem captureTail (sound : Sound restored produced state contained)
    (room : produced.length ≤ u64Max) (requested : state.session.retirementRequested = true)
    (captured : state.session.retirementCaptured = true)
    (unfinished : state.session.retirementFinalCaptured = false) :
    ∃ later, Sound restored produced
      { state with session := state.session.captureTail } later := by
  have owned := sound.closed.owned captured
  have transfers := DaemonSession.transfers_tail contained.shared.pty
    ⟨state.session.persistPending, state.session.persistSeq⟩ state.session.historyPanel.isSome
  unfold DaemonSession.captureTail
  rw [sound.handle]
  simp only
  split
  · next moved =>
      refine @Sound.transferred _ _ _ _ sound room requested _ _ rfl transfers
        state.session.retirementCaptured contained.shared.pty.retirementPhysicalComplete
        (fun _ => owned) ?_
      intro complete
      simp only [PtyHandle.retirementPhysicalComplete, Bool.and_eq_true, beq_iff_eq] at complete
      exact ⟨owned, complete.1.1.1.1.1.2, moved⟩
  · exact @Sound.transferred _ _ _ _ sound room requested _ _ rfl transfers
      state.session.retirementCaptured state.session.retirementFinalCaptured
      (fun _ => owned) (by simp [unfinished])

theorem captureRetirement (sound : Sound restored produced state contained)
    (room : produced.length ≤ u64Max) (closerStarts : Bool) :
    ∃ later, Sound restored produced
      { state with session := state.session.captureRetirement closerStarts } later := by
  unfold DaemonSession.captureRetirement
  split
  · exact ⟨contained, sound⟩
  · next due =>
      have requested : state.session.retirementRequested = true := by
        simpa using (not_or.mp due).1
      have unfinished : state.session.retirementFinalCaptured = false := by
        simpa using (not_or.mp due).2
      rw [sound.handle]
      obtain ⟨later, prefixed⟩ := sound.capturePrefix room requested unfinished
      have flags := DaemonSession.capturePrefix_flags state.session contained.shared.pty
      simp only
      split
      · next captured =>
          rw [requested, unfinished] at flags
          have held := flags.2.2 captured
          obtain ⟨still, started⟩ := prefixed.startDrain room flags.1 held flags.2.1 closerStarts
          split
          · have same := DaemonSession.startDrain_flags
              (state.session.capturePrefix contained.shared.pty).2 closerStarts
            exact started.captureTail room (same.1.trans flags.1) (same.2.1.trans held)
              (same.2.2.trans flags.2.1)
          · exact ⟨still, started⟩
      · exact ⟨later, prefixed⟩

/-! ### Steps and runs -/

variable (host : Host) (id : Uuid)

/-- A checkpoint is taken when the raw log is empty, so that it covers the queue. -/
theorem takeCheckpoint (sound : Sound restored produced state contained)
    (room : produced.length ≤ u64Max) (idle : state.writing = .idle) (lineLimit : Nat)
    (moment : Moment) {turn : DaemonSession.CaptureTurn} {next : DaemonSession}
    (taken : state.session.takeDirtyTarget host id lineLimit moment = (turn, next)) :
    ∃ later, Sound restored produced
      { state with
        session := next
        writing := match turn.target with
          | some target => .checkpoint target
          | none => .idle } later := by
  have unwritten := sound.writing
  rw [idle] at unwritten
  obtain ⟨takes, targets⟩ :=
    DaemonSession.takeDirtyTarget_takes host id lineLimit moment state.session
  rw [taken] at takes targets
  cases requested : state.session.retirementRequested with
  | true =>
      simp only [DaemonSession.takeDirtyTarget, requested, true_or, if_true,
        Prod.mk.injEq] at taken
      obtain ⟨rfl, rfl⟩ := taken
      exact ⟨contained, { sound with writing := unwritten }⟩
  | false =>
      obtain ⟨shared, later, left, drained⟩ := sound.drains room requested takes
      cases target : turn.target with
      | none => exact ⟨_, { drained with writing := unwritten }⟩
      | some captured =>
          obtain ⟨-, captures⟩ := targets captured target
          obtain ⟨log, present, emptied⟩ := captures.drained
          obtain ⟨before, grid, healthy, covers⟩ := captures.covers
          have none : left = [] := by
            have holds := drained.log
            rw [drained.raw] at present
            cases present
            exact encodeFrames_eq_nil.mp (holds.encoded.symm.trans emptied)
          subst none
          have stream := drained.stream
          simp only [contents_nil, List.append_nil] at stream
          rw [sound.raw] at grid
          cases grid
          refine ⟨_, drained.capture unwritten ⟨unwritten, ?_, ?_⟩⟩
          · rw [covers]
            refine (sound.grid healthy).trans (stream.symm.trans ?_)
            have open_ : contained.written = false := unwritten
            simp [Contained.stored, open_]
          · rw [captures.pendingBytes, ← drained.queue.encoded]

theorem step {input : DurableInput} (sound : Sound restored produced state contained)
    (permitted : input.Permitted) (room : produced.length < u64Max) :
    ((durability host id).observe state input).produced.length ≤ 1 ∧
      ∃ later, Sound restored (produced ++ ((durability host id).observe state input).produced)
        ((durability host id).next state input) later := by
  have quiet : ∀ next, (∃ later, Sound restored produced next later) →
      ([] : List Content).length ≤ 1 ∧ ∃ later, Sound restored (produced ++ []) next later := by
    intro next holds
    exact ⟨Nat.zero_le 1, by rwa [List.append_nil]⟩
  have same : ∃ later, Sound restored produced state later := ⟨contained, sound⟩
  have enough := Nat.le_of_lt room
  simp only [Machine.observe, Machine.next, durability, DurableState.step]
  cases input with
  | terminal activity =>
      simp only [sound.handle]
      have inRange := Nat.lt_of_le_of_lt sound.logged room
      obtain ⟨added, logged, short, -⟩ := PtyHandle.act_logs permitted sound.log inRange
      refine ⟨?_, sound.terminal permitted room⟩
      rw [← logged]
      simpa [contents] using short
  | attach lineLimit moment =>
      simp only
      split
      · exact quiet _ same
      · next requested =>
          obtain ⟨shared, later, left, drained⟩ := sound.drains enough (by simpa using requested)
            (DaemonSession.attachBoundary_takes host id lineLimit moment state.session)
          exact quiet _ ⟨_, drained⟩
  | pump lineLimit interactiveBudget moment =>
      simp only
      split
      · exact quiet _ same
      · next requested =>
          obtain ⟨shared, later, left, drained⟩ := sound.drains enough (by simpa using requested)
            (DaemonSession.pump_takes host id lineLimit moment state.session interactiveBudget)
          exact quiet _ ⟨_, drained⟩
  | takeCheckpoint lineLimit moment =>
      simp only
      split
      · next idle => exact quiet _ (sound.takeCheckpoint host id enough idle lineLimit moment rfl)
      · exact quiet _ same
  | takeBatch =>
      simp only
      split
      · next idle taken => exact quiet _ (sound.takeBatch idle taken)
      · exact quiet _ same
  | saveCheckpoint answer =>
      simp only
      split
      · next captured => exact quiet _ (sound.saveCheckpoint captured answer)
      · exact quiet _ same
  | appendBatch answer =>
      simp only
      split
      · next captured => exact quiet _ (sound.appendBatch captured permitted)
      · exact quiet _ same
  | acknowledge =>
      simp only
      split
      · next reported => exact quiet _ (sound.settle reported)
      · exact quiet _ same
  | close => exact quiet _ ⟨contained, sound.requestRetirement⟩
  | captureRetirement closerStarts =>
      exact quiet _ (sound.captureRetirement enough closerStarts)

end Sound

/-- What the terminal produced in the course of a run. -/
def produced (host : Host) (id : Uuid) (initial : DurableState) (inputs : List DurableInput) :
    List Content :=
  (durability host id).monitor (fun seen _ observed => seen ++ observed.produced) [] initial inputs

theorem Sound.run {restored : List Content} (host : Host) (id : Uuid) (inputs : List DurableInput)
    (permitted : ∀ input ∈ inputs, input.Permitted) {state : DurableState} {seen : List Content}
    {contained : Contained} (sound : Sound restored seen state contained)
    (room : seen.length + inputs.length ≤ u64Max) :
    ∃ later, Sound restored
      ((durability host id).monitor (fun seen _ observed => seen ++ observed.produced) seen
        state inputs)
      ((durability host id).run state inputs) later := by
  induction inputs generalizing state seen contained with
  | nil => exact ⟨contained, sound⟩
  | cons input inputs induction =>
      rw [List.length_cons] at room
      obtain ⟨short, later, stepped⟩ := sound.step host id (permitted input (by simp)) (by omega)
      apply induction (fun later member => permitted later (by simp [member])) stepped
      rw [List.length_append]
      omega

/-- A session behind its creation, its terminal fed with the history of the leaf. -/
structure Opened (restored : List Content) (state : DurableState) : Prop where
  history : ∃ history, state.files.history = .ok history ∧ history.replay = restored
  handle : ∃ shared, state.session.handle = some shared ∧ shared.pty.rawLog =
    ⟨[], 0, restored, false⟩
  pending : state.session.persistPending = [] ∧ state.session.persistSeq = 0
  closing : state.session.backlog.closing = ⟨false, false, false⟩
  writing : state.writing = .idle

theorem Opened.sound {restored : List Content} {state : DurableState}
    (opened : Opened restored state) : ∃ contained, Sound restored [] state contained := by
  obtain ⟨history, loaded, replay⟩ := opened.history
  obtain ⟨shared, handle, log⟩ := opened.handle
  obtain ⟨pending, seq⟩ := opened.pending
  have closing := opened.closing
  simp only [PtyHandle.rawLog, RawLog.mk.injEq] at log
  simp only [DaemonSession.backlog, Closing.mk.injEq] at closing
  refine ⟨⟨shared, history, [], [], [], false⟩, handle, loaded, ?_, ?_, ?_, ?_, ?_, ?_, ?_⟩
  · simp only [Backlog.Holds, DaemonSession.backlog, handle, Option.map_some, PtyHandle.rawLog,
      pending, log.1]
    exact ⟨.empty _, .empty _⟩
  · simp [Contained.stored, replay]
  · intro
    simp [log.2.2.1]
  · simp [seq]
  · simp [log.2.1]
  · simp [opened.writing, Writing.Holds]
  · exact ⟨fun _ => closing.2, by simp [closing], by simp [closing]⟩

/-- A leaf without files, behind a new terminal. -/
def DurableState.blank : DurableState where
  session := { DaemonSession.new { WireSpec.default with panelId := some (.fromU128 1) } with
    handle := some ⟨⟨[], false, [], 0, false, false, .idle, false, false, false, false, 0, none,
      ⟨"", none, none⟩, none, true, false, false, false⟩, false⟩ }
  files := ⟨none, none, none⟩
  writing := .idle

theorem opened_blank : Opened [] .blank where
  history := ⟨⟨0, [], none, []⟩, rfl, rfl⟩
  handle := ⟨_, rfl, rfl⟩
  pending := ⟨rfl, rfl⟩
  closing := rfl
  writing := rfl

/-- A byte is read, then the terminal is closed. -/
def closingInputs : List DurableInput :=
  let append : IncrementalAnswer :=
    ⟨.readable, true, .flushed, true, ⟨.readable, false, true, true, true⟩, true⟩
  [.terminal .beginRead, .terminal (.completeRead (.data [65] false)), .close,
    .captureRetirement true, .takeBatch, .appendBatch append, .acknowledge,
    .captureRetirement true, .terminal .beginRead, .terminal (.completeRead .eof),
    .terminal (.progress true true true false none), .captureRetirement true]

theorem permitted_closingInputs : ∀ input ∈ closingInputs, input.Permitted := by
  simp [closingInputs, DurableInput.Permitted, PtyHandle.Activity.Fits]

end TerminalCanvas.Daemon
