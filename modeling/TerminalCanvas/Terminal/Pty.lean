import TerminalCanvas.Scrollback.Store
import TerminalCanvas.Terminal.ReaderRetirement

/-! # A terminal and its raw log

The reader appends every physical read to the pending log before the grid parses
it. The grid is represented by the frames it has absorbed; what it displays is a
function of them that the environment of the model supplies. Every operation is
one critical section under the locks the program takes. -/

namespace TerminalCanvas.Terminal

open LittleEndian Scrollback

/-- `usize::MAX`, the durable pressure of a terminal without a durable owner. -/
def usizeMax : Nat := u64Max

structure WindowSize where
  cols : Nat
  rows : Nat
deriving DecidableEq, Repr

/-- Title, working directory and agent status, as last reported by the shell. -/
structure Metadata where
  title : String
  cwd : Option String
  agentStatus : Option String
deriving DecidableEq, Repr

structure PtyHandle where
  /-- What the grid has absorbed, restored history included. -/
  term : List Content
  /-- A parser panic poisons the grid but not the raw stream. -/
  termPoisoned : Bool
  pendingLog : Bytes
  logSeq : Nat
  restoringHistory : Bool
  historyRestoreFailed : Bool
  readerRetirement : ReaderState
  /-- The reader thread has returned. -/
  outputFinished : Bool
  retirementLogOwned : Bool
  legacyUnownedTransfer : Bool
  semanticOutputReady : Bool
  durablePressure : Nat
  /-- `none` behind a poisoned lock. -/
  windowSize : Option WindowSize
  metadata : Metadata
  inputError : Option String
  /-- The master is held; its closer may still be running. -/
  master : Bool
  masterCloserRunning : Bool
  processReaped : Bool
  writerFinished : Bool

/-- Payload of a resize frame: columns and rows. -/
def resizePayload (cols rows : Nat) : Bytes := leBytes 2 cols ++ leBytes 2 rows

/-- The next number of the raw log and the new value of its counter. -/
def nextLogSequence (logSeq : Nat) : Option Nat := checkedAddU64 logSeq 1

/-- The loop of `drain_log_prefix`: how many bytes of whole frames fit. One frame
is taken whatever its size. `none` is the budget that no vector reaches. -/
def drainCut (pending : Bytes) (maxBytes : Option Nat) : (fuel : Nat) → (cut : Nat) → Nat
  | 0, cut => cut
  | fuel + 1, cut =>
      if (pending.drop cut).length < frameHeaderBytes then
        cut
      else
        let next := cut + frameHeaderBytes + frameLength (pending.drop cut)
        if pending.length < next ∨ (cut ≠ 0 ∧ maxBytes.any (· < next)) then
          cut
        else if maxBytes.any (· ≤ next) then
          next
        else
          drainCut pending maxBytes fuel next

def drainLogPrefix (pending : Bytes) (maxBytes : Option Nat) : Bytes × Bytes :=
  if maxBytes = some 0 then
    ([], pending)
  else
    pending.splitAt (drainCut pending maxBytes pending.length 0)

namespace PtyHandle

/-! ## The reader -/

/-- `retain_raw_read_and_parse` for one physical read; `none` when the sequence
is exhausted. The parser may panic. -/
def retainRawRead (pty : PtyHandle) (raw : Bytes) (parserPanics : Bool) :
    Option PtyHandle := do
  let seq ← nextLogSequence pty.logSeq
  let retained := { pty with
    logSeq := seq, pendingLog := pty.pendingLog ++ encodeFrame seq .output raw }
  if pty.termPoisoned then
    pure retained
  else if parserPanics then
    pure { retained with termPoisoned := true }
  else
    pure { retained with term := pty.term ++ [(.output, raw)] }

inductive ReadOutcome where
  | data (raw : Bytes) (parserPanics : Bool)
  | eof
  | retry
  | failed
deriving DecidableEq, Repr

def failReader (pty : PtyHandle) : PtyHandle := { pty with readerRetirement := .failed }

/-- The second half of `read_and_retain`, behind an admitted read. -/
def completeRead (pty : PtyHandle) (outcome : ReadOutcome) : PtyHandle :=
  let completed := match outcome with
    | .data raw parserPanics =>
        match pty.retainRawRead raw parserPanics with
        | some retained => retained
        | none => pty.failReader
    | .eof => { pty with readerRetirement := .eof }
    | .retry => pty
    | .failed => pty.failReader
  { completed with readerRetirement := completed.readerRetirement.finishRead }

/-- What the reader publishes behind a parsed read. -/
def publish (pty : PtyHandle) (visible : Bool) (metadata : Metadata) : PtyHandle :=
  { pty with
    semanticOutputReady := pty.semanticOutputReady || visible
    metadata := metadata }

/-! ## The owner's side -/

def setDaemonDurablePressure (pty : PtyHandle) (pendingBytes : Nat) : PtyHandle :=
  { pty with durablePressure := pendingBytes }

def chargeTransferredPending (pty : PtyHandle) (bytes : Nat) : PtyHandle :=
  if pty.durablePressure = usizeMax then
    { pty with legacyUnownedTransfer := pty.legacyUnownedTransfer || 0 < bytes }
  else
    let charged := saturatingAddUsize pty.durablePressure bytes
    { pty with durablePressure := min charged (usizeMax - 1) }

def resize (pty : PtyHandle) (cols rows : Nat) : PtyHandle :=
  if pty.retirementLogOwned then
    pty
  else
    let sizeChanged := pty.windowSize.all fun size => size.rows ≠ rows ∨ size.cols ≠ cols
    let resized := { pty with windowSize := pty.windowSize.map fun _ => ⟨cols, rows⟩ }
    if pty.termPoisoned ∨ sizeChanged = false then
      resized
    else
      let absorbed := { resized with term := pty.term ++ [(.resize, resizePayload cols rows)] }
      match nextLogSequence pty.logSeq with
      | none => absorbed
      | some seq => { absorbed with
          logSeq := seq
          pendingLog := pty.pendingLog ++ encodeFrame seq .resize (resizePayload cols rows) }

def drainPendingLogCapped (pty : PtyHandle) (maxBytes : Nat) : Bytes × PtyHandle :=
  if pty.retirementLogOwned then
    ([], pty)
  else
    let (drained, rest) := drainLogPrefix pty.pendingLog (some maxBytes)
    let charged := { pty with pendingLog := rest }.chargeTransferredPending drained.length
    (drained, if rest.isEmpty then { charged with logSeq := 0 } else charged)

/-- Whether the grid may be read at all. -/
def snapshotBlocked (pty : PtyHandle) : Bool :=
  pty.retirementLogOwned || pty.restoringHistory || pty.historyRestoreFailed ||
    pty.termPoisoned

/-- Snapshot and drain at one boundary. A refused export leaves every frame
pending. -/
def tryAttachSnapshotAndDrain {Snapshot Error : Type} (pty : PtyHandle)
    (takeSnapshot : List Content → Except Error Snapshot) :
    Except Error (Option (Snapshot × Bytes) × PtyHandle) :=
  if pty.snapshotBlocked then
    .ok (none, pty)
  else do
    let snapshot ← takeSnapshot pty.term
    let drained := { pty with pendingLog := [] }.chargeTransferredPending pty.pendingLog.length
    .ok (some (snapshot, pty.pendingLog), { drained with logSeq := 0 })

/-- The primary snapshot that return from the alternate screen needs. -/
def primaryRepair {Snapshot Error : Type} (wasAlternate alternate : Bool)
    (takeSnapshot : List Content → Except Error Snapshot) (term : List Content) :
    Except Error (Option Snapshot) :=
  if wasAlternate && !alternate then (takeSnapshot term).map some else .ok none

/-- Frames, alternate screen and, on return from it, the primary snapshot. -/
def tryOutputUpdate {Snapshot Error : Type} (pty : PtyHandle)
    (alternateScreen : List Content → Bool)
    (maxBytes : Option Nat) (wasAlternate : Bool)
    (takeSnapshot : List Content → Except Error Snapshot) :
    Except Error (Option (Bytes × Bool × Option Snapshot) × PtyHandle) :=
  if pty.snapshotBlocked then
    .ok (none, pty)
  else do
    let alternate := alternateScreen pty.term
    let snapshot ← primaryRepair wasAlternate alternate takeSnapshot pty.term
    let (drained, rest) := drainLogPrefix pty.pendingLog
      (if snapshot.isSome then none else maxBytes)
    .ok (some (drained, alternate, snapshot),
      { pty with pendingLog := rest }.chargeTransferredPending drained.length)

/-! ## Retirement -/

def claimRetirementLogOwner (pty : PtyHandle) : PtyHandle :=
  { pty with retirementLogOwned := true, readerRetirement := pty.readerRetirement.request }

/-- The checks of `retirement_pending_snapshot`; `ok false` asks to retry. -/
def retirementPendingReady (pty : PtyHandle) : Except IoError Bool :=
  if pty.readerRetirement.quiescent = false then .ok false
  else if pty.restoringHistory then .ok false
  else if pty.readerRetirement = .failed then .error .io
  else if pty.logSeq = u64Max then .error .io
  else if pty.pendingLog ≠ [] ∧
      readFrames (encodeHeader 0 ++ pty.pendingLog) = none then
    .error (.invalidData "El cierre conserva un log incremental inválido.")
  else .ok true

/-- The queue of frames that wait for the durable writer, with its last number. -/
structure DurableQueue where
  pending : Bytes
  seq : Nat
deriving DecidableEq, Repr

def transferRetirementFrames (pty : PtyHandle) (durable : DurableQueue)
    (hasDestination : Bool) : Except IoError (Bool × DurableQueue × PtyHandle) :=
  if pty.logSeq = u64Max then
    .error .io
  else if hasDestination = false ∧ (pty.pendingLog ≠ [] ∨ durable.pending ≠ []) then
    .ok (false, durable, pty)
  else
    match readFramesWithValidLen (encodeHeader 0 ++ pty.pendingLog) with
    | none => .error (.invalidData "Log raw inválido.")
    | some (_, frames, validLen) =>
        if validLen ≠ (encodeHeader 0 ++ pty.pendingLog).length then
          .error (.invalidData "Log raw incompleto.")
        else if durable.seq + frames.length > u64Max then
          .error .io
        else
          let moved := durable.pending ++ encodeFrames (renumbered (durable.seq + 1) frames)
          .ok (true, ⟨moved, durable.seq + frames.length⟩,
            { pty with pendingLog := [] }.setDaemonDurablePressure moved.length)

def takeRetirementPrefix (pty : PtyHandle) (durable : DurableQueue) (hasDestination : Bool) :
    Except IoError Bool × DurableQueue × PtyHandle :=
  let claimed := pty.claimRetirementLogOwner
  match claimed.retirementPendingReady with
  | .error error => (.error error, durable, claimed)
  | .ok false => (.ok false, durable, claimed)
  | .ok true =>
      match claimed.transferRetirementFrames durable hasDestination with
      | .error error => (.error error, durable, claimed)
      | .ok (moved, durable, pty) => (.ok moved, durable, pty)

def takeRetirementTail (pty : PtyHandle) (durable : DurableQueue) (hasDestination : Bool) :
    Except IoError Bool × DurableQueue × PtyHandle :=
  if pty.readerRetirement.isDraining = false ∧ pty.readerRetirement ≠ .eof then
    (.ok false, durable, pty)
  else if pty.readerRetirement = .failed then
    (.error .io, durable, pty)
  else
    match pty.transferRetirementFrames durable hasDestination with
    | .error error => (.error error, durable, pty)
    | .ok (moved, durable, pty) => (.ok moved, durable, pty)

/-- Resume the reader, then close the master in a thread of its own. -/
def beginRetirementDrain (pty : PtyHandle) (closerStarts : Bool) :
    Except IoError Unit × PtyHandle :=
  let resumed := { pty with readerRetirement := pty.readerRetirement.resumeDrain }
  if resumed.readerRetirement.isDraining = false ∧ resumed.readerRetirement ≠ .eof then
    (.error .io, resumed)
  else if resumed.master = false then
    (.ok (), resumed)
  else if closerStarts then
    (.ok (), { resumed with master := false, masterCloserRunning := true })
  else
    (.error .io, resumed)

def retirementPhysicalComplete (pty : PtyHandle) : Bool :=
  !pty.legacyUnownedTransfer && pty.readerRetirement == .eof && pty.outputFinished &&
    pty.processReaped && pty.writerFinished && !pty.master && !pty.masterCloserRunning

end PtyHandle

end TerminalCanvas.Terminal
