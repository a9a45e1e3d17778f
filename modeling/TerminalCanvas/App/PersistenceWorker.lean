import TerminalCanvas.Daemon.PersistHistory
import TerminalCanvas.Foundation.Execution
import TerminalCanvas.Foundation.Stoppable

/-! # The history writer of the UI

One thread writes the checkpoints and the logs of every leaf. Every file operation
is answered by the environment, each write is atomic, and the process may stop
after any of them. -/

namespace TerminalCanvas.App

open Scrollback Daemon Stoppable

/-- Where the files of a leaf are. The root of older versions has no leaf. -/
structure StorageKey where
  dir : String
  panelId : Uuid
  leafId : Option Uuid
deriving DecidableEq, Repr

abbrev Disk := StorageKey → LeafFiles

def Disk.set (disk : Disk) (key : StorageKey) (files : LeafFiles) : Disk :=
  fun other => if other = key then files else disk other

@[simp] theorem Disk.set_same (disk : Disk) (key : StorageKey) (files : LeafFiles) :
    disk.set key files key = files := by
  simp [Disk.set]

theorem Disk.set_other (disk : Disk) {key other : StorageKey} (files : LeafFiles)
    (different : other ≠ key) : disk.set key files other = disk other := by
  simp [Disk.set, different]

structure Memory where
  nextSequences : StorageKey → Option Nat
  legacyRoots : String → Uuid → Option Uuid

def Memory.empty : Memory := ⟨fun _ => none, fun _ _ => none⟩

def Memory.setNextSequence (memory : Memory) (key : StorageKey) (next : Option Nat) : Memory :=
  { memory with nextSequences := fun other =>
      if other = key then next else memory.nextSequences other }

def Memory.setLegacyRoot (memory : Memory) (dir : String) (panelId : Uuid)
    (root : Option Uuid) : Memory :=
  { memory with legacyRoots := fun other panel =>
      if other = dir ∧ panel = panelId then root else memory.legacyRoots other panel }

/-- A leaf whose history is still under the root of older versions. -/
def Memory.isLegacyRoot (memory : Memory) (dir : String) (panelId : Uuid)
    (leafId : Option Uuid) : Bool :=
  leafId.any fun leaf => memory.legacyRoots dir panelId = some leaf

inductive DurableWrite where
  | saved (key : StorageKey) (generation : UInt32) (text : List Content)
  | reset (key : StorageKey) (generation : UInt32)
  | appended (key : StorageKey) (frames : Bytes)
  | logRemoved (key : StorageKey)
  | sidecarRemoved (key : StorageKey)
  | refused (key : StorageKey)
deriving DecidableEq, Repr

abbrev WorkerProgram := Program Disk Memory DurableWrite

/-- A write that failed changed nothing that is read. -/
def labelOf (key : StorageKey) (label : DurableWrite) : Except IoError Unit → DurableWrite
  | .ok () => label
  | .error _ => .refused key

def writeLeaf (key : StorageKey) (change : LeafFiles → Except IoError Unit × LeafFiles)
    (label : DurableWrite) : WorkerProgram (Except IoError Unit) :=
  .write (fun disk => ((change (disk key)).1, disk.set key (change (disk key)).2))
    (labelOf key label)

def withLog (files : LeafFiles) (written : Except IoError Unit × File) :
    Except IoError Unit × LeafFiles :=
  (written.1, { files with log := written.2 })

/-! ## Reading -/

def readLeafGeneration (answer : LoadAnswer) (files : LeafFiles) : Except IoError UInt32 := do
  let checkpoint ← tryLoadLeafScrollbackCheckpoint answer.checkpoint files.checkpoint
  leafGeneration answer files checkpoint

def readRetainedLog (readable : Bool) (file : File) :
    Except IoError (Option (UInt32 × List Frame)) := do
  match ← readOptionalHistoryFile readable file with
  | none => .ok none
  | some bytes =>
      match readFrames bytes with
      | none => .error (.invalidData "history log header is invalid")
      | some log => .ok (some log)

/-- The frames a restore replays: those of a log of the same generation. -/
def eligibleFrames (generation : UInt32) (log : Option (UInt32 × List Frame)) : List Frame :=
  match log with
  | none => []
  | some (logGeneration, frames) => if logGeneration = generation then frames else []

/-- One generation of a leaf. Only actual absence means no history. -/
def captureLeafHistory (answer : LoadAnswer) (files : LeafFiles) :
    Except IoError (Option (List Content × List Frame)) := do
  let checkpoint ← tryLoadLeafScrollbackCheckpoint answer.checkpoint files.checkpoint
  let sidecar ← match checkpoint with
    | some (some _, _) => .ok none
    | _ => readOptionalHistoryFile answer.sidecar files.sidecar
  let sidecarGeneration ← match sidecar with
    | none => .ok none
    | some sidecar => (decodeGenerationSidecar sidecar).map some
  let generation := ((checkpoint.bind Prod.fst).or sidecarGeneration).getD 0
  let frames := eligibleFrames generation (← readRetainedLog answer.log files.log)
  if checkpoint = none ∧ sidecar = none ∧ frames = [] then
    .ok none
  else
    .ok (some ((checkpoint.map Prod.snd).getD [], frames))

/-! ## Incremental batches -/

structure IncrementalEntry where
  dir : String
  panelId : Uuid
  leafId : Option Uuid
  runtimeSessionId : Uuid
  frames : Bytes
deriving DecidableEq, Repr

structure IncrementalAck where
  panelId : Uuid
  leafId : Option Uuid
  runtimeSessionId : Uuid
  writtenBytes : Nat
deriving DecidableEq, Repr

/-- What the loop over a batch collects: panels to be rolled over, and what it wrote. -/
inductive Notice where
  | rollover (panelId : Uuid)
  | acknowledged (ack : IncrementalAck)
deriving DecidableEq, Repr

def rolloverPanels (notices : List Notice) : List Uuid :=
  notices.filterMap fun notice => match notice with
    | .rollover panelId => some panelId
    | .acknowledged _ => none

def acknowledgements (notices : List Notice) : List IncrementalAck :=
  notices.filterMap fun notice => match notice with
    | .rollover _ => none
    | .acknowledged ack => some ack

/-- An append that leaves the batch or the valid frames that were there. -/
def AtomicAppend (answer : AppendAnswer) : Prop :=
  ∀ written sync, answer ≠ .writeFails written false sync

/-- What the system answers to the calls for one batch. -/
structure AppendAnswers where
  /-- The reads that number the batch. -/
  numbering : LoadAnswer
  /-- The reads that decide whether the log is current. -/
  rotation : LoadAnswer
  reset : Bool
  append : AppendAnswer
  size : Bool
  atomic : AtomicAppend append

/-- The append itself, and whether the log reached the size of a rollover. -/
def appendBatch (answers : AppendAnswers) (key : StorageKey) (frames : Bytes) :
    WorkerProgram (Option Bool) := do
  let appended ← writeLeaf key
    (fun files => withLog files (appendFrames answers.append files.log frames))
    (.appended key frames)
  match appended with
  | .error _ => return none
  | .ok () =>
      let disk ← .read
      return some (logExceeds answers.size (disk key) maxLogBytes)

/-- The batch goes behind the frames of a current log. -/
def persistIncrementalFrames (answers : AppendAnswers) (key : StorageKey) (frames : Bytes) :
    WorkerProgram (Option Bool) := do
  let disk ← .read
  match readLeafGeneration answers.rotation (disk key) with
  | .error _ => return none
  | .ok generation =>
      match readRetainedLog answers.rotation.log (disk key).log with
      | .error _ => return none
      | .ok log =>
          let initialized ←
            if log.map Prod.fst = some generation then
              pure (.ok ())
            else
              writeLeaf key
                (fun files => withLog files (resetLog answers.reset files.log generation))
                (.reset key generation)
          match initialized with
          | .error _ => return none
          | .ok () => appendBatch answers key frames

/-- The number of the first frame of a batch: `none` when it cannot be read. -/
def firstSeq (answer : LoadAnswer) (memory : Memory) (files : LeafFiles) (key : StorageKey) :
    Option Nat :=
  match memory.nextSequences key with
  | some next => some next
  | none =>
      match readLeafGeneration answer files with
      | .error _ => none
      | .ok generation =>
          match readRetainedLog answer.log files.log with
          | .error _ => none
          | .ok none => some 1
          | .ok (some (logGeneration, frames)) =>
              if logGeneration = generation then
                match frames.getLast? with
                | some last => some (min (last.seq + 1) u64Max)
                | none => some 1
              else
                some 1

/-- One turn of the loop of `persist_incremental_entries`. -/
def persistIncrementalEntry (turn : AppendAnswers × IncrementalEntry) :
    WorkerProgram (List Notice) := do
  let (answers, entry) := turn
  let ack (written : Nat) : Notice :=
    .acknowledged ⟨entry.panelId, entry.leafId, entry.runtimeSessionId, written⟩
  if entry.frames = [] then
    return [ack 0]
  else
    let memory ← .recollect
    let storageLeafId :=
      if memory.isLegacyRoot entry.dir entry.panelId entry.leafId then none else entry.leafId
    let key : StorageKey := ⟨entry.dir, entry.panelId, storageLeafId⟩
    let disk ← .read
    match firstSeq answers.numbering memory (disk key) key with
    | none => return []
    | some first =>
        if first = u64Max then
          .remember (·.setNextSequence key none)
          return [.rollover entry.panelId]
        else
          match renumberFrames entry.frames first with
          | none => return []
          | some (durableFrames, next) =>
              match ← persistIncrementalFrames answers key durableFrames with
              | none => return []
              | some needsRollover =>
                  .remember (·.setNextSequence key (some next))
                  return (if needsRollover then [.rollover entry.panelId] else []) ++
                    [ack entry.frames.length]

/-! ## Full checkpoints -/

/-- A checkpoint carries the text as the store keeps it, cut to its limit. -/
inductive FullContent where
  | checkpoint (text : List Content) (pendingBytes : Nat)
  | pendingLog (frames : Bytes)
  | unavailable
deriving DecidableEq, Repr

structure FullEntry where
  dir : String
  panelId : Uuid
  leafId : Option Uuid
  runtimeSessionId : Uuid
  content : FullContent
deriving DecidableEq, Repr

structure FullAnswers where
  load : LoadAnswer
  save : Bool
  removeLog : Bool
  removeSidecar : Bool
  /-- For the rescue of a pending log. -/
  rescue : AppendAnswers

def removeFile {Contents : Type} (succeeds : Bool) (file : Option Contents) :
    Except IoError Unit × Option Contents :=
  if succeeds then (.ok (), none) else (.error .io, file)

/-- Neither the generation of the checkpoint nor that of the retained log, also
where the counter wraps. -/
def nextGeneration (checkpointGeneration : UInt32) (retained : Option UInt32) : UInt32 :=
  let generation := checkpointGeneration + 1
  if retained = some generation then generation + 1 else generation

/-- The old log and the sidecar. A failed removal is ignored: the generation of the
checkpoint no longer matches theirs. -/
def removeSuperseded (answers : FullAnswers) (key : StorageKey) : WorkerProgram Unit := do
  let _ ← writeLeaf key
    (fun files => withLog files (removeFile answers.removeLog files.log)) (.logRemoved key)
  let _ ← writeLeaf key
    (fun files =>
      ((removeFile answers.removeSidecar files.sidecar).1,
        { files with sidecar := (removeFile answers.removeSidecar files.sidecar).2 }))
    (.sidecarRemoved key)
  return ()

def persistCheckpoint (answers : FullAnswers) (entry : FullEntry) (text : List Content)
    (pendingBytes : Nat) : WorkerProgram (List IncrementalAck) := do
  let key : StorageKey := ⟨entry.dir, entry.panelId, entry.leafId⟩
  let disk ← .read
  match readLeafGeneration answers.load (disk key) with
  | .error _ => return []
  | .ok checkpointGeneration =>
      match readRetainedLog answers.load.log (disk key).log with
      | .error _ => return []
      | .ok retained =>
          let generation := nextGeneration checkpointGeneration (retained.map Prod.fst)
          let saved ← writeLeaf key
            (fun files => saveLeafScrollbackVersioned answers.save files generation text)
            (.saved key generation text)
          match saved with
          | .error _ => return []
          | .ok () =>
              .remember fun memory =>
                let memory := memory.setNextSequence key none
                -- Canonical publication is complete before any later output
                -- switches away from the legacy root.
                if memory.isLegacyRoot entry.dir entry.panelId entry.leafId then
                  (memory.setLegacyRoot entry.dir entry.panelId none).setNextSequence
                    ⟨entry.dir, entry.panelId, none⟩ none
                else
                  memory
              removeSuperseded answers key
              return [⟨entry.panelId, entry.leafId, entry.runtimeSessionId, pendingBytes⟩]

/-- One turn of the loop of `persist_full_entries_with_remove`. -/
def persistFullEntry (turn : FullAnswers × FullEntry) : WorkerProgram (List IncrementalAck) :=
  let (answers, entry) := turn
  match entry.content with
  | .unavailable => return []
  | .checkpoint text pendingBytes => persistCheckpoint answers entry text pendingBytes
  | .pendingLog frames => do
      let rescued ← persistIncrementalEntry (answers.rescue,
        ⟨entry.dir, entry.panelId, entry.leafId, entry.runtimeSessionId, frames⟩)
      return acknowledgements rescued

/-! ## Runs -/

inductive Job where
  | full (entries : List (FullAnswers × FullEntry))
  | incremental (entries : List (AppendAnswers × IncrementalEntry))

def Job.program : Job → WorkerProgram (List Notice)
  | .full entries => .collect (fun turn => do
      return (← persistFullEntry turn).map .acknowledged) entries
  | .incremental entries => .collect persistIncrementalEntry entries

inductive Input where
  | job (job : Job)
  /-- The process stops behind this many writes of a job, and starts again. -/
  | stopped (job : Job) (writes : Nat)
  /-- A startup capture found the history of a panel under its root alone. -/
  | legacyRoot (dir : String) (panelId rootLeaf : Uuid)

structure Worker where
  disk : Disk
  memory : Memory

/-- What is seen of a step: its writes, and the notices of a finished job. -/
structure Report where
  writes : List DurableWrite
  notices : List Notice
deriving DecidableEq, Repr

def persistenceWorker : Execution.Machine Worker Input Report where
  step worker
    | .job job =>
        let outcome := job.program worker.disk worker.memory
        ⟨⟨lastState worker.disk outcome.writes, outcome.volatile⟩,
          outcome.writes.map Prod.fst, outcome.result⟩
    | .stopped job writes =>
        let outcome := job.program worker.disk worker.memory
        let done := outcome.writes.take writes
        ⟨⟨lastState worker.disk done, .empty⟩, done.map Prod.fst, []⟩
    | .legacyRoot dir panelId rootLeaf =>
        ⟨{ worker with memory := worker.memory.setLegacyRoot dir panelId (some rootLeaf) },
          [], []⟩

end TerminalCanvas.App
