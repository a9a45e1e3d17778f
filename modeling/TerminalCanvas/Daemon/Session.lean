import Mathlib.Data.Finset.Insert
import TerminalCanvas.Daemon.Persist
import TerminalCanvas.Daemon.Protocol
import TerminalCanvas.Terminal.Pty

/-! # One session of the daemon

What the daemon knows of a session, and the operations that number its output,
queue its frames for the durable writer and take its snapshots. Reader steps that
fall between two samples of one operation commute with it, so each operation is
one step. -/

namespace TerminalCanvas.Daemon

open HookAuthority Scrollback Terminal

def maxSnapshotBytes : Nat := 256 * 1024

def interactiveByteBudget : Nat := 32 * 1024

def rawOutputChunkBytes : Nat := 64 * 1024

/-- Two seconds, in milliseconds. -/
def liveRepairRetry : Nat := 2000

/-- What the terminal emulator and the serializer compute. -/
structure Host where
  /-- The grid shows its alternate screen. -/
  alternateScreen : List Content → Bool
  /-- The bounded live snapshot within a budget of bytes. -/
  boundedLiveSnapshot : List Content → Nat → Option Bytes
  /-- The metadata sequences, with the age of the agent status at attach. -/
  metadataOsc : Metadata → Option Nat → Bytes
  jsonLength : Response → Nat

/-- A grid that stays blank, without metadata. -/
def Host.blank : Host where
  alternateScreen _ := false
  boundedLiveSnapshot _ _ := some []
  metadataOsc _ _ := []
  jsonLength _ := 0

structure SharedPtyHandle where
  pty : PtyHandle
  poisoned : Bool

structure LiveRepairPending where
  kind : SnapshotFailureKind
  retryAt : Nat
deriving DecidableEq, Repr

structure DaemonSession where
  spec : WireSpec
  snapshot : Bytes
  /-- The last number emitted. -/
  seq : Nat
  alive : Bool
  scrollbackDirty : Bool
  /-- Frames the durable writer has not acknowledged. -/
  persistPending : Bytes
  persistSeq : Nat
  lastMetadata : Bytes
  wasAlternate : Bool
  lastInputError : Option String
  liveRepair : Option LiveRepairPending
  outputReady : Bool
  historyPanel : Option Uuid
  retirementRequested : Bool
  retirementCaptured : Bool
  retirementDraining : Bool
  retirementFinalCaptured : Bool
  /-- The app identity that created this birth. -/
  birthClient : Option Uuid
  adopters : Finset Uuid
  handle : Option SharedPtyHandle

/-- The moment of an operation: the daemon's clock and the terminal's. -/
structure Moment where
  now : Nat
  ptyClock : Nat
deriving DecidableEq, Repr

def clampSnapshot (snapshot : Bytes) (maxBytes : Nat) : Bytes :=
  snapshot.drop (snapshot.length - maxBytes)

namespace DaemonSession

def new (spec : WireSpec) : DaemonSession where
  spec := spec
  snapshot := []
  seq := 0
  alive := true
  scrollbackDirty := false
  persistPending := []
  persistSeq := 0
  lastMetadata := []
  wasAlternate := false
  lastInputError := none
  liveRepair := none
  outputReady := false
  historyPanel := spec.panelId
  retirementRequested := false
  retirementCaptured := false
  retirementDraining := false
  retirementFinalCaptured := false
  birthClient := none
  adopters := ∅
  handle := none

def clientMayClose (session : DaemonSession) (clientId : Uuid) : Bool :=
  session.birthClient = some clientId || clientId ∈ session.adopters

def adopt (session : DaemonSession) (clientId : Uuid) : DaemonSession :=
  { session with adopters := insert clientId session.adopters }

def refuseLiveSnapshot (session : DaemonSession) (kind : SnapshotFailureKind) (now : Nat) :
    DaemonSession :=
  { session with liveRepair := some ⟨kind, now + liveRepairRetry⟩ }

def repairRetryDue (session : DaemonSession) (now : Nat) : Bool :=
  session.liveRepair.any fun repair => repair.retryAt ≤ now

/-- Change the terminal behind the handle, poisoned or not. -/
def onPty (session : DaemonSession) (change : PtyHandle → PtyHandle) : DaemonSession :=
  { session with handle := session.handle.map fun shared =>
      { shared with pty := change shared.pty } }

def setPty (session : DaemonSession) (pty : PtyHandle) : DaemonSession :=
  session.onPty fun _ => pty

/-! ## Numbering and queueing -/

/-- Number an output event. An exhausted counter stays at its maximum. -/
def pushOutputEvent (session : DaemonSession) (data : Bytes) : DaemonSession :=
  { session with
    seq := (checkedAddU64 session.seq 1).getD u64Max
    snapshot := clampSnapshot (session.snapshot ++ data) maxSnapshotBytes
    scrollbackDirty := true }

/-- Queue a frame for the durable writer. With an exhausted counter the frame is
omitted: the next full checkpoint contains it. -/
def recordPersistFrame (session : DaemonSession) (kind : FrameKind) (payload : Bytes) :
    DaemonSession :=
  match checkedAddU64 session.persistSeq 1 with
  | none => { session with scrollbackDirty := true }
  | some nextSeq =>
      let pending := session.persistPending ++ encodeFrame nextSeq kind payload
      { session with
        persistSeq := nextSeq
        persistPending := pending
        scrollbackDirty := true }.onPty (·.setDaemonDurablePressure pending.length)

/-- Cut a payload into chunks of at most `size` bytes. -/
def chunks (size : Nat) : (fuel : Nat) → Bytes → List Bytes
  | 0, _ => []
  | fuel + 1, payload =>
      if payload.isEmpty then [] else payload.take size :: chunks size fuel (payload.drop size)

/-- Output collected for the next event, and the events already numbered. -/
structure Collector where
  session : DaemonSession
  events : List (Nat × Bytes)
  output : Bytes

def Collector.flush (collector : Collector) : Collector :=
  let session := collector.session.pushOutputEvent collector.output
  ⟨session, collector.events ++ [(session.seq, collector.output)], []⟩

def Collector.add (collector : Collector) (bytes : Bytes) : Collector :=
  let ready := if rawOutputChunkBytes < collector.output.length + bytes.length then
      collector.flush
    else collector
  { ready with output := ready.output ++ bytes }

/-- Durable frames keep their kind, order and payload; output is also numbered. -/
def Collector.ingest (collector : Collector) (frame : Frame) : Collector :=
  let recorded := { collector with
    session := collector.session.recordPersistFrame frame.kind frame.payload }
  if frame.kind = .output then
    (chunks rawOutputChunkBytes frame.payload.length frame.payload).foldl Collector.add recorded
  else
    recorded

def Collector.finish (collector : Collector) : Collector :=
  if collector.output.isEmpty then collector else collector.flush

def ingestPtyFrames (session : DaemonSession) (frames : Bytes) :
    List (Nat × Bytes) × DaemonSession :=
  let ready := match session.handle with
    | some shared => session.outputReady || shared.pty.semanticOutputReady
    | none => session.outputReady || (decodeFrames frames).any fun frame =>
        frame.kind = .output && frame.payload ≠ []
  let start : Collector := ⟨{ session with outputReady := ready }, [], []⟩
  let collected := ((decodeFrames frames).foldl Collector.ingest start).finish
  (collected.events, collected.session)

def acknowledgePersisted (session : DaemonSession) (writtenBytes : Nat) : DaemonSession :=
  let pending := session.persistPending.drop (min writtenBytes session.persistPending.length)
  let drained := { session with persistPending := pending }.onPty
    (·.setDaemonDurablePressure pending.length)
  if pending.isEmpty ∧ session.retirementRequested = false then
    { drained with persistSeq := 0 }
  else
    drained

/-! ## Snapshots -/

section Snapshots

variable (host : Host)

def boundedWireSnapshot (term : List Content) (metadata : Bytes) (id : Uuid)
    (lineLimit : Nat) : Except SnapshotFailureKind Bytes :=
  match snapshotAnsiBudget host.jsonLength id metadata.length lineLimit with
  | none => .error .tooLarge
  | some budget =>
      match host.boundedLiveSnapshot term budget with
      | none => .error .tooLarge
      | some ansi =>
          if encodesWithin host.jsonLength (.attached id (ansi ++ metadata) u64Max false false
              (some .nil) (some ⟨.nil, .nil, .nil⟩)) lineLimit then
            .ok (ansi ++ metadata)
          else
            .error .tooLarge

/-- The snapshot of an attach with the alternate-screen state at its boundary. -/
def attachExport (metadata : Bytes) (id : Uuid) (lineLimit : Nat) (term : List Content) :
    Except SnapshotFailureKind (Bytes × Bool) :=
  (boundedWireSnapshot host term metadata id lineLimit).map fun snapshot =>
    (snapshot, host.alternateScreen term)

/-- The events of a repair: the last number belongs to the snapshot, a number of
its own when no output came with it. -/
def numberRepair (session : DaemonSession) (output : List (Nat × Bytes)) (snapshot : Bytes) :
    Nat × DaemonSession :=
  match output.getLast? with
  | some (seq, _) => (seq, session)
  | none =>
      let numbered := session.pushOutputEvent snapshot
      (numbered.seq, numbered)

def attachedResponse (session : DaemonSession) (id : Uuid) (snapshot : Bytes) : Response :=
  .attached id snapshot session.seq session.alive session.outputReady
    session.spec.hookGeneration (hostTargetFromSpec session.spec)

/-- A refusal is remembered, and nothing is drained. -/
def refuse {Result : Type} (session : DaemonSession) (kind : SnapshotFailureKind) (now : Nat) :
    Except SnapshotFailureKind Result × DaemonSession :=
  (.error kind, session.refuseLiveSnapshot kind now)

/-- The snapshot and the output that was not numbered yet, at one boundary. The
events are for earlier subscribers. -/
def attachBoundary (session : DaemonSession) (id : Uuid) (lineLimit : Nat) (moment : Moment) :
    Except SnapshotFailureKind (Bytes × List (Nat × Bytes)) × DaemonSession :=
  match session.liveRepair.filter fun _ => !session.repairRetryDue moment.now with
  | some repair => (.error repair.kind, session)
  | none =>
      match session.handle with
      | none =>
          if encodesWithin host.jsonLength (session.attachedResponse id session.snapshot)
              lineLimit then
            (.ok (session.snapshot, []), session)
          else
            (.error .tooLarge, session)
      | some shared =>
          if shared.poisoned then
            session.refuse .unavailable moment.now
          else
            let metadata := host.metadataOsc shared.pty.metadata (some moment.ptyClock)
            match shared.pty.tryAttachSnapshotAndDrain
                (attachExport host metadata id lineLimit) with
            | .error kind => session.refuse kind moment.now
            | .ok (none, _) => session.refuse .unavailable moment.now
            | .ok (some ((snapshot, alternate), frames), pty) =>
                let restorePrimary :=
                  session.liveRepair.isSome || (session.wasAlternate && !alternate)
                let (output, ingested) := ingestPtyFrames
                  { session.setPty pty with wasAlternate := alternate, liveRepair := none } frames
                if restorePrimary then
                  let (seq, numbered) := ingested.numberRepair output snapshot
                  (.ok (snapshot, [(seq, snapshot)]), numbered)
                else
                  (.ok (snapshot, output), ingested)

/-! ## The pump -/

/-- What one turn takes out of the terminal. -/
structure PumpBoundary where
  frames : Bytes
  alive : Bool
  alternate : Bool
  replacement : Option Bytes
  durableOnly : Bool

def repairWaits (session : DaemonSession) (now : Nat) : Bool :=
  session.liveRepair.isSome && !session.repairRetryDue now

def pumpBoundary (session : DaemonSession) (shared : SharedPtyHandle) (id : Uuid)
    (lineLimit : Nat) (budget : Option Nat) (moment : Moment) :
    Except SnapshotFailureKind PumpBoundary × PtyHandle :=
  let pty := shared.pty
  let alive := !pty.outputFinished
  if session.repairWaits moment.now then
    -- The refusal drained nothing. Whole frames move to the durable queue
    -- without live delivery, also behind a poisoned handle.
    let (frames, drained) := pty.drainPendingLogCapped rawOutputChunkBytes
    (.ok ⟨frames, alive, session.wasAlternate, none, true⟩, drained)
  else if shared.poisoned then
    (.error .unavailable, pty)
  else
    let metadata := host.metadataOsc pty.metadata (some moment.ptyClock)
    if session.liveRepair.isSome then
      match pty.tryAttachSnapshotAndDrain (attachExport host metadata id lineLimit) with
      | .error kind => (.error kind, pty)
      | .ok (none, _) => (.error .unavailable, pty)
      | .ok (some ((snapshot, alternate), frames), drained) =>
          (.ok ⟨frames, alive, alternate, some snapshot, false⟩, drained)
    else
      match pty.tryOutputUpdate host.alternateScreen budget session.wasAlternate
          (fun term => boundedWireSnapshot host term metadata id lineLimit) with
      | .error kind => (.error kind, pty)
      | .ok (none, _) => (.error .unavailable, pty)
      | .ok (some (frames, alternate, repair), drained) =>
          (.ok ⟨frames, alive, alternate, repair, false⟩, drained)

structure PumpTurn where
  events : List Response
  refused : Bool
  drained : Nat

def outputEvents (id : Uuid) (output : List (Nat × Bytes)) : List Response :=
  output.map fun (seq, data) => .output id seq data

def reportInputError (session : DaemonSession) (pty : PtyHandle) (id : Uuid) :
    List Response × DaemonSession :=
  match pty.inputError with
  | some message =>
      if session.lastInputError ≠ some message then
        ([.inputError id message], { session with lastInputError := some message })
      else
        ([], session)
  | none => ([], session)

/-- Number every chunk of a change of the metadata. -/
def pushChunks (session : DaemonSession) : List Bytes → List (Nat × Bytes) × DaemonSession
  | [] => ([], session)
  | data :: later =>
      let numbered := session.pushOutputEvent data
      let (events, final) := pushChunks numbered later
      ((numbered.seq, data) :: events, final)

def reportMetadata (session : DaemonSession) (pty : PtyHandle) :
    List (Nat × Bytes) × DaemonSession :=
  let metadata := host.metadataOsc pty.metadata none
  if metadata ≠ session.lastMetadata then
    pushChunks { session with lastMetadata := metadata }
      (chunks rawOutputChunkBytes metadata.length metadata)
  else
    ([], session)

def reportExit (session : DaemonSession) (alive : Bool) (id : Uuid) :
    List Response × DaemonSession :=
  if !alive && session.alive then
    ([.exit id], { session with alive := false })
  else
    ([], session)

/-- The live events of a turn: the output, or the snapshot that replaces it. -/
def liveEvents (session : DaemonSession) (id : Uuid) (output : List (Nat × Bytes))
    (replacement : Option Bytes) : List Response × DaemonSession :=
  match replacement with
  | some snapshot =>
      let (seq, numbered) := session.numberRepair output snapshot
      ([.output id seq snapshot], numbered)
  | none => (outputEvents id output, session)

/-- The reports behind the output, taken under a second lock of the handle. -/
def reportAll (session : DaemonSession) (alive : Bool) (id : Uuid) :
    List Response × DaemonSession :=
  match session.handle with
  | some shared =>
      if shared.poisoned then
        session.reportExit alive id
      else
        let (errors, session) := session.reportInputError shared.pty id
        let (metadata, session) := session.reportMetadata host shared.pty
        let (exits, session) := session.reportExit alive id
        (errors ++ outputEvents id metadata ++ exits, session)
  | none => session.reportExit alive id

/-- One turn of `pump_output_at` for a session that is not retiring. -/
def pump (session : DaemonSession) (id : Uuid) (lineLimit : Nat)
    (interactiveBudget : Option Nat) (moment : Moment) : PumpTurn × DaemonSession :=
  match session.handle with
  | none => (⟨[], false, 0⟩, session)
  | some shared =>
      let budget := if shared.pty.outputFinished then none else interactiveBudget
      match session.pumpBoundary host shared id lineLimit budget moment with
      | (.error kind, _) =>
          (⟨[], true, 0⟩, session.refuseLiveSnapshot kind moment.now)
      | (.ok boundary, pty) =>
          let (output, ingested) := (session.setPty pty).ingestPtyFrames boundary.frames
          if boundary.durableOnly then
            (⟨[], false, boundary.frames.length⟩,
              if boundary.alive then ingested else { ingested with alive := false })
          else
            let updated :=
              { ingested with wasAlternate := boundary.alternate, liveRepair := none }
            let (live, numbered) := updated.liveEvents id output boundary.replacement
            let (reports, final) := numbered.reportAll host boundary.alive id
            (⟨live ++ reports, false, boundary.frames.length⟩, final)

/-! ## Captures for the durable writer -/

/-- What one turn of `take_dirty_scrollback_targets_at` contributes. -/
structure CaptureTurn where
  events : List Response
  refused : Bool
  target : Option ScrollbackTarget

/-- The snapshot that earlier subscribers need at a checkpoint, when one is due. -/
def checkpointRepair (session : DaemonSession) (metadata : Bytes) (id : Uuid) (lineLimit : Nat)
    (term : List Content) : Except SnapshotFailureKind (Option Bytes) :=
  if session.liveRepair.isSome || (session.wasAlternate && !host.alternateScreen term) then
    (boundedWireSnapshot host term metadata id lineLimit).map some
  else
    .ok none

/-- The export of a checkpoint: its text on the primary screen, the repair and the
screen. -/
def checkpointExport (session : DaemonSession) (metadata : Bytes) (id : Uuid)
    (lineLimit : Nat) (term : List Content) :
    Except SnapshotFailureKind (Option (List Content) × Option Bytes × Bool) := do
  let alternate := host.alternateScreen term
  let repair ← session.checkpointRepair host metadata id lineLimit term
  .ok (if alternate then none else some term, repair, alternate)

def takeDirtyTarget (session : DaemonSession) (id : Uuid) (lineLimit : Nat)
    (moment : Moment) : CaptureTurn × DaemonSession :=
  if session.retirementRequested ∨ session.scrollbackDirty = false then
    (⟨[], false, none⟩, session)
  else
    match session.historyPanel, session.handle with
    | some panelId, some shared =>
        if session.repairWaits moment.now then
          (⟨[], false, none⟩, session)
        else if shared.poisoned then
          (⟨[], true, none⟩, session.refuseLiveSnapshot .unavailable moment.now)
        else
          let metadata := host.metadataOsc shared.pty.metadata (some moment.ptyClock)
          match shared.pty.tryAttachSnapshotAndDrain
              (session.checkpointExport host metadata id lineLimit) with
          | .error kind => (⟨[], true, none⟩, session.refuseLiveSnapshot kind moment.now)
          | .ok (none, _) =>
              (⟨[], true, none⟩, session.refuseLiveSnapshot .unavailable moment.now)
          | .ok (some ((text, repair, alternate), frames), pty) =>
              let (output, ingested) := (session.setPty pty).ingestPtyFrames frames
              let updated := { ingested with wasAlternate := alternate, liveRepair := none }
              let (events, numbered) := updated.liveEvents id output repair
              match text with
              | none => (⟨events, false, none⟩, numbered)
              | some covers =>
                  (⟨events, false, some ⟨id, ⟨panelId, session.spec.leafId⟩, covers,
                      numbered.persistPending.length⟩⟩,
                    { numbered with scrollbackDirty := false })
    | _, _ => (⟨[], false, none⟩, session)

def incrementalTarget (session : DaemonSession) (id : Uuid) : Option IncrementalTarget := do
  let panelId ← session.historyPanel
  if session.persistPending.isEmpty then
    none
  else
    pure ⟨id, ⟨panelId, session.spec.leafId⟩, session.persistPending, session.wasAlternate⟩

end Snapshots

/-! ## Retirement -/

/-- What a transfer left in the durable queue, and whether it moved the frames. -/
def transferred (session : DaemonSession)
    (transfer : Except IoError Bool × PtyHandle.DurableQueue × PtyHandle) : Bool × DaemonSession :=
  let (result, durable, pty) := transfer
  (result.toOption.getD false, { session.setPty pty with
    persistPending := durable.pending, persistSeq := durable.seq })

def capturePrefix (session : DaemonSession) (pty : PtyHandle) : Bool × DaemonSession :=
  if session.retirementCaptured then
    (true, session)
  else
    let (moved, taken) := session.transferred
      (pty.takeRetirementPrefix ⟨session.persistPending, session.persistSeq⟩
        session.historyPanel.isSome)
    (moved, { taken with retirementCaptured := moved })

/-- The child is terminated only behind the acknowledged prefix. -/
def startDrain (session : DaemonSession) (closerStarts : Bool) : Bool × DaemonSession :=
  if session.retirementDraining then
    (true, session)
  else if session.persistPending ≠ [] then
    (false, session)
  else
    match session.handle with
    | none => (false, session)
    | some shared =>
        match shared.pty.beginRetirementDrain closerStarts with
        | (.error _, pty) => (false, session.setPty pty)
        | (.ok (), pty) => (true, { session.setPty pty with retirementDraining := true })

/-- The physical boundary is sampled before the final transfer. -/
def captureTail (session : DaemonSession) : DaemonSession :=
  match session.handle with
  | none => session
  | some shared =>
      let physicalComplete := shared.pty.retirementPhysicalComplete
      let (moved, taken) := session.transferred
        (shared.pty.takeRetirementTail ⟨session.persistPending, session.persistSeq⟩
          session.historyPanel.isSome)
      if moved then { taken with retirementFinalCaptured := physicalComplete } else taken

/-- `capture_retirement`: the prefix, its acknowledgement, the drain, the tail. -/
def captureRetirement (session : DaemonSession) (closerStarts : Bool) : DaemonSession :=
  if session.retirementRequested = false ∨ session.retirementFinalCaptured then
    session
  else
    match session.handle with
    | none => session
    | some shared =>
        let (captured, prefixed) := session.capturePrefix shared.pty
        if captured then
          let (draining, started) := prefixed.startDrain closerStarts
          if draining then started.captureTail else started
        else
          prefixed

/-- Close has begun. A session without a terminal has nothing left to capture. -/
def requestRetirement (session : DaemonSession) : DaemonSession :=
  let requested := { session with retirementRequested := true }
  if session.handle.isNone then
    { requested with retirementCaptured := true, retirementFinalCaptured := true }
  else
    requested

/-- The final output is durable, so the handle may be destroyed. -/
def retirementAcknowledged (session : DaemonSession) : Bool :=
  session.retirementFinalCaptured && (session.handle.isNone || session.persistPending.isEmpty)

end DaemonSession

end TerminalCanvas.Daemon
