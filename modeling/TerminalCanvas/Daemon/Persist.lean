import TerminalCanvas.Scrollback.Store

/-! # The durable writer of the daemon

One call of the writer handles one target after another. Every file operation is
answered by the environment; the registry only learns which bytes were
acknowledged and which sessions need another full checkpoint. -/

namespace TerminalCanvas.Daemon

open Scrollback

def maxAlternateLogBytes : Nat := 4 * 1024 * 1024

/-- The name of a leaf's files: its panel and its leaf inside the panel. -/
structure HistoryKey where
  panelId : Uuid
  leafId : Option Uuid
deriving DecidableEq, Repr

abbrev HistoryDir := HistoryKey → LeafFiles

def HistoryDir.set (dir : HistoryDir) (key : HistoryKey) (files : LeafFiles) : HistoryDir :=
  fun other => if other = key then files else dir other

@[simp] theorem HistoryDir.set_same (dir : HistoryDir) (key : HistoryKey) (files : LeafFiles) :
    dir.set key files key = files := by
  simp [HistoryDir.set]

theorem HistoryDir.set_other (dir : HistoryDir) {key other : HistoryKey} (files : LeafFiles)
    (different : other ≠ key) : dir.set key files other = dir other := by
  simp [HistoryDir.set, different]

structure ScrollbackTarget where
  sessionId : Uuid
  key : HistoryKey
  /-- The frames the captured text covers. -/
  covers : List Content
  pendingBytes : Nat
deriving DecidableEq, Repr

structure IncrementalTarget where
  sessionId : Uuid
  key : HistoryKey
  frames : Bytes
  alternate : Bool
deriving DecidableEq, Repr

/-- What one target contributes to the two lists a writer returns. -/
structure TargetReport where
  acknowledged : Option (Uuid × Nat)
  flagged : Option Uuid
deriving DecidableEq, Repr

/-- The frames of a batch in memory. Bytes that do not decode are dropped. -/
def decodeFrames (frames : Bytes) : List Frame :=
  if frames.isEmpty then
    []
  else
    match readFrames (encodeHeader 0 ++ frames) with
    | some (_, decoded) => decoded
    | none => []

/-! ## Full checkpoints -/

/-- If publication succeeds but log rotation fails, neither a current nor an
already stale retained log may become eligible for replay again. -/
def nextCheckpointGeneration (history : LeafSessionHistory) : UInt32 :=
  let next := history.generation + 1
  if history.logGeneration = some next then next + 1 else next

structure CheckpointAnswer where
  load : LoadAnswer
  save : Bool
  rotate : Bool
deriving DecidableEq, Repr

/-- One turn of the loop of `persist_scrollback_targets_in_dir`. -/
def persistScrollbackTarget (answer : CheckpointAnswer) (files : LeafFiles)
    (target : ScrollbackTarget) : TargetReport × LeafFiles :=
  match tryLoadLeafSession answer.load files with
  | .error _ => (⟨none, some target.sessionId⟩, files)
  | .ok history =>
      let generation := nextCheckpointGeneration history
      match saveLeafScrollbackVersioned answer.save files generation target.covers with
      | (.error _, files) => (⟨none, some target.sessionId⟩, files)
      | (.ok (), files) =>
          let acknowledged := some (target.sessionId, target.pendingBytes)
          match resetLog answer.rotate files.log generation with
          | (.error _, log) => (⟨acknowledged, some target.sessionId⟩, { files with log })
          | (.ok (), log) => (⟨acknowledged, none⟩, { files with log })

/-! ## Incremental batches -/

structure CompactAnswer where
  load : LoadAnswer
  /-- The disposable terminal ends the replay on its alternate screen. -/
  alternateScreen : Bool
  /-- Its snapshot starts with a reset and meets the size limit. -/
  fits : Bool
  save : Bool
  rotate : Bool
deriving DecidableEq, Repr

inductive CompactError where
  | store (error : IoError)
  | refused (message : String)
deriving DecidableEq, Repr

def compactAlternateLog (answer : CompactAnswer) (files : LeafFiles) (generation : UInt32) :
    Except CompactError Unit × LeafFiles :=
  match tryLoadLeafSession answer.load files with
  | .error error => (.error (.store error), files)
  | .ok history =>
      if history.generation ≠ generation then
        (.error (.refused "history generation changed before compaction"), files)
      else if answer.alternateScreen = false then
        (.ok (), files)
      else if answer.fits = false then
        (.error (.refused "semantic snapshot exceeds size limit"), files)
      else
        let next := nextCheckpointGeneration history
        match saveLeafScrollbackVersioned answer.save files next history.replay with
        | (.error error, files) => (.error (.store error), files)
        | (.ok (), files) =>
            match writeAtomic answer.rotate files.log (encodeHeader next) with
            | (.error error, log) => (.error (.store error), { files with log })
            | (.ok (), log) => (.ok (), { files with log })

structure IncrementalAnswer where
  load : LoadAnswer
  reset : Bool
  append : AppendAnswer
  /-- Whether the two size queries behind the append are answered. -/
  sizeBeforeCompaction : Bool
  compact : CompactAnswer
  sizeAfterCompaction : Bool
deriving DecidableEq, Repr

/-- The number of the first appended frame; `none` when the sequence of the
current log is exhausted. -/
def firstDurableSeq (history : LeafSessionHistory) : Option Nat :=
  if history.logGeneration = some history.generation then
    match history.frames.getLast? with
    | some last => checkedAddU64 last.seq 1
    | none => some 1
  else
    some 1

/-- A size query is answered and exceeds the limit. -/
def logExceeds (answered : Bool) (files : LeafFiles) (limit : Nat) : Bool :=
  answered && files.log.any fun bytes => limit < bytes.length

/-- A log of another generation is rotated before the append. -/
def currentLog (reset : Bool) (files : LeafFiles) (history : LeafSessionHistory) :
    Except IoError Unit × File :=
  if history.logGeneration = some history.generation then
    (.ok (), files.log)
  else
    resetLog reset files.log history.generation

/-- The part of a turn behind the acknowledgement. -/
def compactWhenLarge (answer : IncrementalAnswer) (files : LeafFiles)
    (target : IncrementalTarget) (generation : UInt32) : LeafFiles :=
  if target.alternate ∧ logExceeds answer.sizeBeforeCompaction files maxAlternateLogBytes then
    (compactAlternateLog answer.compact files generation).2
  else
    files

/-- One turn of the loop of `persist_incremental_targets_in_dir`. -/
def persistIncrementalTarget (answer : IncrementalAnswer) (files : LeafFiles)
    (target : IncrementalTarget) : TargetReport × LeafFiles :=
  match tryLoadLeafSession answer.load files with
  | .error _ => (⟨none, none⟩, files)
  | .ok history =>
      match currentLog answer.reset files history with
      | (.error _, log) => (⟨none, none⟩, { files with log })
      | (.ok (), log) =>
          match firstDurableSeq history with
          | none => (⟨none, some target.sessionId⟩, { files with log })
          | some firstSeq =>
              match renumberFrames target.frames firstSeq with
              | none => (⟨none, none⟩, { files with log })
              | some (durableFrames, _) =>
                  match appendFrames answer.append log durableFrames with
                  | (.error _, log) => (⟨none, none⟩, { files with log })
                  | (.ok (), log) =>
                      let files :=
                        compactWhenLarge answer { files with log } target history.generation
                      (⟨some (target.sessionId, target.frames.length),
                        if logExceeds answer.sizeAfterCompaction files maxLogBytes then
                          some target.sessionId
                        else none⟩, files)

/-! ## Whole calls -/

/-- What a writer returns: acknowledged byte counts and flagged sessions. -/
structure PersistReport where
  acknowledgements : List (Uuid × Nat)
  flagged : List Uuid
deriving DecidableEq, Repr

def PersistReport.add (report : PersistReport) (turn : TargetReport) : PersistReport where
  acknowledgements := report.acknowledgements ++ turn.acknowledged.toList
  flagged := report.flagged ++ turn.flagged.toList

section Loops

variable {Target Answer : Type} (keyOf : Target → HistoryKey)
variable (turn : Answer → LeafFiles → Target → TargetReport × LeafFiles)

def persistLoop (dir : HistoryDir) (report : PersistReport) :
    List (Target × Answer) → PersistReport × HistoryDir
  | [] => (report, dir)
  | (target, answer) :: targets =>
      let (outcome, files) := turn answer (dir (keyOf target)) target
      persistLoop (dir.set (keyOf target) files) (report.add outcome) targets

theorem persistLoop_other {dir : HistoryDir} {report : PersistReport} {key : HistoryKey}
    {targets : List (Target × Answer)}
    (others : ∀ target answer, (target, answer) ∈ targets → keyOf target ≠ key) :
    (persistLoop keyOf turn dir report targets).2 key = dir key := by
  induction targets generalizing dir report with
  | nil => rfl
  | cons head tail induction =>
      rcases head with ⟨target, answer⟩
      have different : key ≠ keyOf target := (others target answer (by simp)).symm
      rw [persistLoop, induction]
      · exact dir.set_other _ different
      · exact fun later laterAnswer member => others later laterAnswer (by simp [member])

theorem persistLoop_append (dir : HistoryDir) (report : PersistReport)
    (first second : List (Target × Answer)) :
    persistLoop keyOf turn dir report (first ++ second) =
      persistLoop keyOf turn (persistLoop keyOf turn dir report first).2
        (persistLoop keyOf turn dir report first).1 second := by
  induction first generalizing dir report with
  | nil => rfl
  | cons head tail induction =>
      rcases head with ⟨target, answer⟩
      simp only [List.cons_append, persistLoop, induction]

end Loops

def persistScrollbackTargetsInDir (dir : HistoryDir)
    (targets : List (ScrollbackTarget × CheckpointAnswer)) : PersistReport × HistoryDir :=
  persistLoop ScrollbackTarget.key persistScrollbackTarget dir ⟨[], []⟩ targets

def persistIncrementalTargetsInDir (dir : HistoryDir)
    (targets : List (IncrementalTarget × IncrementalAnswer)) : PersistReport × HistoryDir :=
  persistLoop IncrementalTarget.key persistIncrementalTarget dir ⟨[], []⟩ targets

end TerminalCanvas.Daemon
