import TerminalCanvas.Scrollback.LogAppend

/-! # The files of one leaf

A leaf owns a checkpoint, a generation sidecar of older versions and a log. The
text of a checkpoint is represented by the frames it covers: replaying the text
shows what replaying those frames showed. The log is kept to the byte. -/

namespace TerminalCanvas.Scrollback

/-- What a frame says: its kind and payload. -/
abbrev Content := FrameKind × Bytes

/-- What a list of frames says, without the numbering. -/
def contents (frames : List Frame) : List Content := frames.map Frame.content

@[simp] theorem contents_nil : contents [] = [] := rfl

@[simp] theorem contents_append (first second : List Frame) :
    contents (first ++ second) = contents first ++ contents second :=
  List.map_append

@[simp] theorem contents_renumbered (first : Nat) (frames : List Frame) :
    contents (renumbered first frames) = contents frames :=
  renumbered_content first frames

/-- A checkpoint file: versioned, cut off inside its header, or of the versions
that stored the text alone. -/
inductive CheckpointFile where
  | versioned (generation : UInt32) (covers : List Content)
  | truncated
  | historical (covers : List Content)
deriving DecidableEq, Repr

/-- A generation sidecar: four binary bytes, a whole decimal number, or neither. -/
inductive GenerationSidecar where
  | binary (generation : UInt32)
  | decimal (generation : UInt32)
  | invalid
deriving DecidableEq, Repr

structure LeafFiles where
  checkpoint : Option CheckpointFile
  sidecar : Option GenerationSidecar
  log : File
deriving DecidableEq, Repr

/-- Which of the three files the system lets the program read. -/
structure LoadAnswer where
  checkpoint : Bool
  sidecar : Bool
  log : Bool
deriving DecidableEq, Repr

def LoadAnswer.readable : LoadAnswer := ⟨true, true, true⟩

structure LeafSessionHistory where
  generation : UInt32
  checkpoint : List Content
  logGeneration : Option UInt32
  frames : List Frame
deriving DecidableEq, Repr

def tryLoadLeafScrollbackCheckpoint (readable : Bool) (file : Option CheckpointFile) :
    Except IoError (Option (Option UInt32 × List Content)) :=
  if readable = false then
    .error .io
  else
    match file with
    | none => .ok none
    | some .truncated => .error (.invalidData "history checkpoint header is truncated")
    | some (.versioned generation covers) => .ok (some (some generation, covers))
    | some (.historical covers) => .ok (some (none, covers))

def decodeGenerationSidecar : GenerationSidecar → Except IoError UInt32
  | .binary generation => .ok generation
  | .decimal generation => .ok generation
  | .invalid => .error (.invalidData "history generation sidecar is invalid")

def readOptionalHistoryFile {Contents : Type} (readable : Bool) (file : Option Contents) :
    Except IoError (Option Contents) :=
  if readable then .ok file else .error .io

/-- The generation of a leaf: of its checkpoint, else of its sidecar, else zero. -/
def leafGeneration (answer : LoadAnswer) (files : LeafFiles)
    (checkpoint : Option (Option UInt32 × List Content)) : Except IoError UInt32 :=
  match checkpoint.bind Prod.fst with
  | some generation => .ok generation
  | none => do
      match ← readOptionalHistoryFile answer.sidecar files.sidecar with
      | none => .ok 0
      | some sidecar => decodeGenerationSidecar sidecar

def tryLoadLeafSession (answer : LoadAnswer) (files : LeafFiles) :
    Except IoError LeafSessionHistory := do
  let checkpoint ← tryLoadLeafScrollbackCheckpoint answer.checkpoint files.checkpoint
  let generation ← leafGeneration answer files checkpoint
  let covers := (checkpoint.map Prod.snd).getD []
  match ← readOptionalHistoryFile answer.log files.log with
  | none => .ok ⟨generation, covers, none, []⟩
  | some bytes =>
      match readFrames bytes with
      | none => .error (.invalidData "history log has an invalid header or sequence gap")
      | some (logGeneration, frames) =>
          .ok ⟨generation, covers, some logGeneration,
            if logGeneration = generation then frames else []⟩

/-- The checkpoint and its generation are one atomic write. -/
def saveLeafScrollbackVersioned (succeeds : Bool) (files : LeafFiles) (generation : UInt32)
    (covers : List Content) : Except IoError Unit × LeafFiles :=
  if succeeds then
    (.ok (), { files with checkpoint := some (.versioned generation covers) })
  else
    (.error .io, files)

namespace LeafSessionHistory

/-- Everything a restart replays: the checkpoint, then the frames of its log. -/
def replay (history : LeafSessionHistory) : List Content :=
  history.checkpoint ++ contents history.frames

end LeafSessionHistory

namespace LeafFiles

/-- What the next load reads when the system lets it. -/
def history (files : LeafFiles) : Except IoError LeafSessionHistory :=
  tryLoadLeafSession .readable files

/-- The generation of a leaf and what its checkpoint covers. The log has no part
in it. -/
def base (files : LeafFiles) : Except IoError (UInt32 × List Content) := do
  let checkpoint ← tryLoadLeafScrollbackCheckpoint true files.checkpoint
  let generation ← leafGeneration .readable files checkpoint
  .ok (generation, (checkpoint.map Prod.snd).getD [])

@[simp] theorem base_log (files : LeafFiles) (log : File) :
    base { files with log := log } = base files := rfl

@[simp] theorem base_save (files : LeafFiles) (generation : UInt32) (covers : List Content) :
    base { files with checkpoint := some (.versioned generation covers) } =
      .ok (generation, covers) := rfl

/-- How a log of a leaf reads under the generation of its checkpoint. -/
def LogReads (log : File) (history : LeafSessionHistory) : Prop :=
  match log with
  | none => history.logGeneration = none ∧ history.frames = []
  | some bytes => ∃ logGeneration frames, ReadsAs bytes logGeneration frames ∧
      history.logGeneration = some logGeneration ∧
      history.frames = if logGeneration = history.generation then frames else []

theorem bind_eq_ok {Error First Second : Type} {first : Except Error First}
    {rest : First → Except Error Second} {result : Second} :
    (first >>= rest) = .ok result ↔ ∃ value, first = .ok value ∧ rest value = .ok result := by
  cases first with
  | error error => simp [bind, Except.bind]
  | ok value => simp [bind, Except.bind]

theorem readOptionalHistoryFile_eq_ok {Contents : Type} {readable : Bool}
    {file result : Option Contents} :
    readOptionalHistoryFile readable file = .ok result ↔ readable = true ∧ result = file := by
  cases readable with
  | false => simp [readOptionalHistoryFile]
  | true => simp [readOptionalHistoryFile, eq_comm]

theorem tryLoadLeafSession_eq_ok {answer : LoadAnswer} {files : LeafFiles}
    {history : LeafSessionHistory} :
    tryLoadLeafSession answer files = .ok history ↔
      ∃ checkpoint,
        tryLoadLeafScrollbackCheckpoint answer.checkpoint files.checkpoint = .ok checkpoint ∧
        leafGeneration answer files checkpoint = .ok history.generation ∧
        history.checkpoint = (checkpoint.map Prod.snd).getD [] ∧
        answer.log = true ∧ LogReads files.log history := by
  rcases history with ⟨generation, covers, logGeneration, frames⟩
  simp only [tryLoadLeafSession, bind_eq_ok, readOptionalHistoryFile_eq_ok]
  constructor
  · rintro ⟨checkpoint, read, _, numbered, _, ⟨readable, rfl⟩, loaded⟩
    split at loaded
    · next absent =>
        cases loaded
        exact ⟨checkpoint, read, numbered, rfl, readable, by simp [LogReads, absent]⟩
    · next bytes present =>
        split at loaded
        · cases loaded
        · next reads =>
            cases loaded
            refine ⟨checkpoint, read, numbered, rfl, readable, ?_⟩
            rw [present]
            exact ⟨_, _, reads, rfl, rfl⟩
  · rintro ⟨checkpoint, read, numbered, rfl, readable, reads⟩
    refine ⟨checkpoint, read, generation, numbered, files.log, ⟨readable, rfl⟩, ?_⟩
    cases present : files.log with
    | none =>
        rw [present] at reads
        rcases reads with ⟨rfl, rfl⟩
        rfl
    | some bytes =>
        rw [present] at reads
        rcases reads with ⟨logGeneration, stored, parsed, rfl, kept⟩
        simp only [ReadsAs] at parsed kept
        simp [parsed, kept]

theorem history_eq_ok {files : LeafFiles} {history : LeafSessionHistory} :
    files.history = .ok history ↔
      files.base = .ok (history.generation, history.checkpoint) ∧
        LogReads files.log history := by
  simp only [LeafFiles.history, tryLoadLeafSession_eq_ok, base, bind_eq_ok]
  constructor
  · rintro ⟨checkpoint, read, numbered, covers, -, reads⟩
    exact ⟨⟨checkpoint, read, _, numbered, by rw [covers]⟩, reads⟩
  · rintro ⟨⟨checkpoint, read, _, numbered, equal⟩, reads⟩
    rw [Except.ok.injEq, Prod.mk.injEq] at equal
    rcases equal with ⟨rfl, covers⟩
    exact ⟨checkpoint, read, numbered, covers.symm, rfl, reads⟩

theorem history_of_tryLoad {answer : LoadAnswer} {files : LeafFiles}
    {history : LeafSessionHistory} (loaded : tryLoadLeafSession answer files = .ok history) :
    files.history = .ok history := by
  rcases tryLoadLeafSession_eq_ok.mp loaded with
    ⟨checkpoint, read, numbered, covers, readable, reads⟩
  refine tryLoadLeafSession_eq_ok.mpr ⟨checkpoint, ?_, ?_, covers, rfl, reads⟩
  · cases allowed : answer.checkpoint with
    | false => simp [tryLoadLeafScrollbackCheckpoint, allowed] at read
    | true => rw [← read, allowed]; rfl
  · unfold leafGeneration at numbered ⊢
    split at numbered
    · exact numbered
    · rw [bind_eq_ok] at numbered ⊢
      rcases numbered with ⟨sidecar, readSidecar, decoded⟩
      rcases readOptionalHistoryFile_eq_ok.mp readSidecar with ⟨-, rfl⟩
      exact ⟨_, readOptionalHistoryFile_eq_ok.mpr ⟨rfl, rfl⟩, decoded⟩

end LeafFiles

end TerminalCanvas.Scrollback
