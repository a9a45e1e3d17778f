import TerminalCanvas.App.PersistenceWorker
import TerminalCanvas.Scrollback.LogRecovery

/-! # Histories across crashes

What a restore finds in the files of a leaf is the last checkpoint that was saved
and the batches that were appended behind it, wherever the worker stopped. A log
of another generation stays out of it until it is started anew. -/

namespace TerminalCanvas.App

open Scrollback Daemon Stoppable

abbrev Captured := Except IoError (Option (List Content × List Frame))

def appendHistory (history : Option (List Content × List Frame)) (batch : List Frame) :
    Option (List Content × List Frame) :=
  if batch = [] then
    history
  else
    some ((history.map Prod.fst).getD [], (history.map Prod.snd).getD [] ++ batch)

def DurableWrite.key : DurableWrite → StorageKey
  | .saved key _ _ => key
  | .reset key _ => key
  | .appended key _ => key
  | .logRemoved key => key
  | .sidecarRemoved key => key
  | .refused key => key

/-- The history of a leaf behind a write to its files. -/
def recordLeaf (captured : Captured) : DurableWrite → Captured
  | .saved _ _ text => .ok (some (text, []))
  | .appended _ frames => captured.map (appendHistory · (decodeFrames frames))
  | _ => captured

def recordWrite (captured : StorageKey → Captured) (write : DurableWrite) :
    StorageKey → Captured :=
  fun key => if key = write.key then recordLeaf (captured key) write else captured key

/-- What the writes of a step make of the histories. -/
def recordReport (captured : StorageKey → Captured) (_ : Input) (report : Report) :
    StorageKey → Captured :=
  report.writes.foldl recordWrite captured

def captures (disk : Disk) : StorageKey → Captured :=
  fun key => captureLeafHistory .readable (disk key)

/-- A readable leaf whose log a restore does not replay. -/
def Ineligible (files : LeafFiles) : Prop :=
  ∃ generation covers log, files.base = .ok (generation, covers) ∧
    readRetainedLog true files.log = .ok log ∧ log.map Prod.fst ≠ some generation

/-! ## Reading a leaf -/

theorem readRetainedLog_eq_ok {readable : Bool} {file : File}
    {log : Option (UInt32 × List Frame)} :
    readRetainedLog readable file = .ok log ↔ readable = true ∧
      match file with
      | none => log = none
      | some bytes => ∃ generation frames, log = some (generation, frames) ∧
          ReadsAs bytes generation frames := by
  cases readable with
  | false => simp [readRetainedLog, readOptionalHistoryFile, bind, Except.bind]
  | true =>
      cases file with
      | none => simp [readRetainedLog, readOptionalHistoryFile, bind, Except.bind, eq_comm]
      | some bytes =>
          simp only [readRetainedLog, readOptionalHistoryFile, bind, Except.bind, if_true,
            true_and, ReadsAs]
          cases read : readFrames bytes with
          | none => simp
          | some log =>
              rcases log with ⟨generation, frames⟩
              simp [eq_comm]

theorem readRetainedLog_readable {readable : Bool} {file : File}
    {log : Option (UInt32 × List Frame)} (read : readRetainedLog readable file = .ok log) :
    readRetainedLog true file = .ok log := by
  rw [← read, (readRetainedLog_eq_ok.mp read).1]

theorem base_of_generation {answer : LoadAnswer} {files : LeafFiles} {generation : UInt32}
    (read : readLeafGeneration answer files = .ok generation) :
    ∃ covers, files.base = .ok (generation, covers) := by
  simp only [readLeafGeneration, LeafFiles.bind_eq_ok] at read
  rcases read with ⟨checkpoint, loaded, numbered⟩
  have logless : tryLoadLeafSession { answer with log := true } { files with log := none } =
      .ok ⟨generation, (checkpoint.map Prod.snd).getD [], none, []⟩ :=
    LeafFiles.tryLoadLeafSession_eq_ok.mpr
      ⟨checkpoint, loaded, numbered, rfl, rfl, rfl, rfl⟩
  have readable := LeafFiles.history_of_tryLoad logless
  exact ⟨_, (LeafFiles.history_eq_ok.mp readable).1⟩

theorem captureLeafHistory_eq (files : LeafFiles) :
    captureLeafHistory .readable files = (do
      let (generation, covers) ← files.base
      let frames := eligibleFrames generation (← readRetainedLog true files.log)
      .ok (if files.checkpoint = none ∧ files.sidecar = none ∧ frames = [] then none
        else some (covers, frames))) := by
  rcases files with ⟨checkpoint, sidecar, log⟩
  rcases checkpoint with - | - | - | - <;> rcases sidecar with - | - | - | - <;>
    simp [captureLeafHistory, LeafFiles.base, tryLoadLeafScrollbackCheckpoint, leafGeneration,
      readOptionalHistoryFile, decodeGenerationSidecar, LoadAnswer.readable, bind, Except.bind,
      Except.map]
  -- Without a checkpoint and a sidecar the frames decide whether there is a history.
  cases readRetainedLog true log with
  | error error => rfl
  | ok log =>
      by_cases empty : eligibleFrames 0 log = []
      · simp [empty]
      · simp [empty]

section Captures

variable {files : LeafFiles} {generation : UInt32} {covers : List Content}
variable {log : Option (UInt32 × List Frame)}

theorem captureLeafHistory_withLog {file : File} (base : files.base = .ok (generation, covers))
    (read : readRetainedLog true file = .ok log) :
    captureLeafHistory .readable { files with log := file } =
      .ok (if files.checkpoint = none ∧ files.sidecar = none ∧
          eligibleFrames generation log = [] then none
        else some (covers, eligibleFrames generation log)) := by
  rw [captureLeafHistory_eq, LeafFiles.base_log, base]
  simp only [bind, Except.bind, read]

theorem captureLeafHistory_of_base (base : files.base = .ok (generation, covers))
    (read : readRetainedLog true files.log = .ok log) :
    captureLeafHistory .readable files =
      .ok (if files.checkpoint = none ∧ files.sidecar = none ∧
          eligibleFrames generation log = [] then none
        else some (covers, eligibleFrames generation log)) :=
  captureLeafHistory_withLog base read

end Captures

theorem eligibleFrames_of_ne {generation : UInt32} {log : Option (UInt32 × List Frame)}
    (different : log.map Prod.fst ≠ some generation) : eligibleFrames generation log = [] := by
  unfold eligibleFrames
  split
  · rfl
  · next logGeneration frames =>
      rw [if_neg]
      simpa using different

@[simp] theorem eligibleFrames_current (generation : UInt32) (frames : List Frame) :
    eligibleFrames generation (some (generation, frames)) = frames := by
  simp [eligibleFrames]

theorem nextGeneration_ne (checkpointGeneration : UInt32) (retained : Option UInt32) :
    retained ≠ some (nextGeneration checkpointGeneration retained) := by
  unfold nextGeneration
  by_cases next : retained = some (checkpointGeneration + 1)
  · simp only [next, if_true, ne_eq, Option.some.injEq]
    intro equal
    have values := congrArg UInt32.toNat equal
    simp only [UInt32.toNat_add] at values
    have bound := checkpointGeneration.toNat_lt
    have one : UInt32.toNat 1 = 1 := rfl
    omega
  · simpa [if_neg next] using next

/-! ## One write -/

structure LeafStep (write : DurableWrite) (before after : LeafFiles) : Prop where
  captured : captureLeafHistory .readable after =
    recordLeaf (captureLeafHistory .readable before) write
  /-- Only a log that is started anew becomes eligible. -/
  ineligible : (∀ generation, write ≠ .reset write.key generation) → Ineligible before →
    Ineligible after
  published : ∀ generation text, write = .saved write.key generation text → Ineligible after

theorem LeafStep.refl (key : StorageKey) (files : LeafFiles) :
    LeafStep (.refused key) files files where
  captured := rfl
  ineligible := fun _ stays => stays
  published := nofun

section Writes

variable {files : LeafFiles} {key : StorageKey} {generation : UInt32} {covers : List Content}
variable {log : Option (UInt32 × List Frame)}

theorem leafStep_saved {text : List Content} (checkpointGeneration : UInt32)
    (read : readRetainedLog true files.log = .ok log) :
    LeafStep (.saved key (nextGeneration checkpointGeneration (log.map Prod.fst)) text) files
      { files with checkpoint := some (.versioned
          (nextGeneration checkpointGeneration (log.map Prod.fst)) text) } := by
  have different := nextGeneration_ne checkpointGeneration (log.map Prod.fst)
  have behind : Ineligible { files with checkpoint := some (.versioned
      (nextGeneration checkpointGeneration (log.map Prod.fst)) text) } :=
    ⟨_, _, log, LeafFiles.base_save files _ text, read, different⟩
  refine ⟨?_, fun _ _ => behind, fun _ _ _ => behind⟩
  rw [captureLeafHistory_of_base (LeafFiles.base_save files _ text) read,
    eligibleFrames_of_ne different]
  simp [recordLeaf]

theorem leafStep_reset (base : files.base = .ok (generation, covers))
    (read : readRetainedLog true files.log = .ok log)
    (different : log.map Prod.fst ≠ some generation) :
    LeafStep (.reset key generation) files
      { files with log := some (encodeHeader generation) } := by
  have started : readRetainedLog true (some (encodeHeader generation)) =
      .ok (some (generation, [])) :=
    readRetainedLog_eq_ok.mpr ⟨rfl, _, _, rfl, readsAs_header generation⟩
  refine ⟨?_, fun excluded => absurd rfl (excluded generation), nofun⟩
  rw [captureLeafHistory_withLog base started, captureLeafHistory_of_base base read,
    eligibleFrames_of_ne different, eligibleFrames_current]
  rfl

theorem not_ineligible {frames : List Frame} (base : files.base = .ok (generation, covers))
    (read : readRetainedLog true files.log = .ok (some (generation, frames))) :
    ¬ Ineligible files := by
  rintro ⟨other, otherCovers, otherLog, otherBase, otherRead, different⟩
  rw [base] at otherBase
  rw [read] at otherRead
  cases otherBase
  cases otherRead
  exact different rfl

theorem appendFrames_some {bytes batch : Bytes} {answer : AppendAnswer}
    {result : Except IoError Unit} {after : File}
    (appends : appendFrames answer (some bytes) batch = (result, after)) :
    ∃ log, after = some log := by
  unfold appendFrames existingOrCreated at appends
  repeat' split at appends
  all_goals cases appends
  all_goals exact ⟨_, rfl⟩

theorem appendFrames_ok {durable : List Frame} {bytes batch : Bytes} {answer : AppendAnswer}
    {after : File} (reads : ReadsAs bytes generation durable)
    (appends : appendFrames answer (some bytes) batch = (.ok (), after)) :
    ∃ incoming, decodeFrames batch = incoming ∧ ∃ log, after = some log ∧
      ReadsAs log generation (durable ++ incoming) := by
  have broken : ∃ incoming, Contiguous incoming ∧ batch = encodeFrames incoming := by
    by_contra none
    simp only [not_exists, not_and] at none
    rw [appendFrames_broken answer (some bytes) none] at appends
    cases appends
  obtain ⟨incoming, contiguous, rfl⟩ := broken
  have whole := appendFrames_existing answer bytes contiguous
  rw [appends] at whole
  obtain ⟨found, before, others, also, equal, readsBefore, readsAfter⟩ := whole.appended rfl
  obtain ⟨rfl, rfl⟩ := reads.unique readsBefore
  obtain rfl := contiguous.ext also equal
  have decoded : decodeFrames (encodeFrames incoming) = incoming :=
    decodeFrames_of_read (readsAs_encode (follows_none_iff.mpr contiguous))
  obtain ⟨log, rfl⟩ := appendFrames_some appends
  exact ⟨incoming, decoded, log, rfl, readsAfter⟩

theorem appendAt_error {validPrefix batch : Bytes} {answer : AppendAnswer} {error : IoError}
    (atomic : AtomicAppend answer) (failed : (appendAt answer validPrefix batch).1 = .error error) :
    (appendAt answer validPrefix batch).2 = validPrefix := by
  cases answer with
  | writeFails written setLen sync =>
      cases setLen with
      | true => rfl
      | false => exact absurd rfl (atomic written sync)
  | _ => cases failed

theorem appendFrames_error {durable : List Frame} {bytes batch : Bytes} {answer : AppendAnswer}
    {after : File} {error : IoError} (atomic : AtomicAppend answer)
    (reads : ReadsAs bytes generation durable)
    (appends : appendFrames answer (some bytes) batch = (.error error, after)) :
    ∃ log, after = some log ∧ ReadsAs log generation durable := by
  obtain ⟨validLen, whole⟩ := readFrames_eq_some.mp reads
  have prefixReads : ReadsAs (bytes.take validLen) generation durable := by
    rw [take_validLen whole]
    exact readsAs_encode (readsAs_iff.mp reads).1
  unfold appendFrames existingOrCreated at appends
  simp only [whole] at appends
  repeat' split at appends
  all_goals try (cases appends; exact ⟨_, rfl, reads⟩)
  · cases appends
    exact ⟨_, rfl, prefixReads⟩
  · rw [Prod.mk.injEq] at appends
    exact ⟨_, appends.2.symm, by rw [appendAt_error atomic appends.1]; exact prefixReads⟩

theorem leafStep_appended {durable : List Frame} {bytes batch : Bytes} {answer : AppendAnswer}
    {after : File} (base : files.base = .ok (generation, covers))
    (present : files.log = some bytes) (reads : ReadsAs bytes generation durable)
    (appends : appendFrames answer (some bytes) batch = (.ok (), after)) :
    LeafStep (.appended key batch) files { files with log := after } := by
  have before : readRetainedLog true files.log = .ok (some (generation, durable)) := by
    rw [present]
    exact readRetainedLog_eq_ok.mpr ⟨rfl, _, _, rfl, reads⟩
  obtain ⟨incoming, decoded, log, rfl, behind⟩ := appendFrames_ok reads appends
  have stored : readRetainedLog true (some log) = .ok (some (generation, durable ++ incoming)) :=
    readRetainedLog_eq_ok.mpr ⟨rfl, _, _, rfl, behind⟩
  refine ⟨?_, fun _ stays => absurd stays (not_ineligible base before), nofun⟩
  rw [captureLeafHistory_withLog base stored, captureLeafHistory_of_base base before,
    eligibleFrames_current, eligibleFrames_current, recordLeaf, decoded]
  by_cases nothing : incoming = []
  · simp [appendHistory, nothing, Except.map]
  · by_cases absent : files.checkpoint = none ∧ files.sidecar = none ∧ durable = []
    · have noCovers : generation = 0 ∧ covers = [] := by
        simpa [LeafFiles.base, absent, tryLoadLeafScrollbackCheckpoint, leafGeneration,
          LoadAnswer.readable, readOptionalHistoryFile, bind, Except.bind, eq_comm] using base
      simp [appendHistory, nothing, absent, noCovers, Except.map]
    · simp [appendHistory, nothing, absent, Except.map]

theorem leafStep_appendRefused {durable : List Frame} {bytes batch : Bytes}
    {answer : AppendAnswer} {after : File} {error : IoError} (atomic : AtomicAppend answer)
    (base : files.base = .ok (generation, covers))
    (present : files.log = some bytes) (reads : ReadsAs bytes generation durable)
    (appends : appendFrames answer (some bytes) batch = (.error error, after)) :
    LeafStep (.refused key) files { files with log := after } := by
  have before : readRetainedLog true files.log = .ok (some (generation, durable)) := by
    rw [present]
    exact readRetainedLog_eq_ok.mpr ⟨rfl, _, _, rfl, reads⟩
  obtain ⟨log, rfl, kept⟩ := appendFrames_error atomic reads appends
  have stored : readRetainedLog true (some log) = .ok (some (generation, durable)) :=
    readRetainedLog_eq_ok.mpr ⟨rfl, _, _, rfl, kept⟩
  refine ⟨?_, fun _ stays => absurd stays (not_ineligible base before), nofun⟩
  rw [captureLeafHistory_withLog base stored, captureLeafHistory_of_base base before]
  rfl

theorem leafStep_logRemoved (ineligible : Ineligible files) :
    LeafStep (.logRemoved key) files { files with log := none } := by
  rcases ineligible with ⟨generation, covers, log, base, read, different⟩
  have absent : readRetainedLog true none = .ok none :=
    readRetainedLog_eq_ok.mpr ⟨rfl, rfl⟩
  refine ⟨?_, fun _ _ => ⟨generation, covers, none, base, absent, nofun⟩, nofun⟩
  rw [captureLeafHistory_withLog base absent,
    captureLeafHistory_of_base base read, eligibleFrames_of_ne different]
  rfl

theorem leafStep_sidecarRemoved
    (versioned : files.checkpoint = some (.versioned generation covers)) :
    LeafStep (.sidecarRemoved key) files { files with sidecar := none } := by
  have base : LeafFiles.base { files with sidecar := none } = files.base := by
    simp only [LeafFiles.base, versioned]
    rfl
  refine ⟨?_, ?_, (by simp)⟩
  · change captureLeafHistory _ _ = captureLeafHistory _ _
    rw [captureLeafHistory_eq, captureLeafHistory_eq, base]
    simp [versioned]
  · rintro _ ⟨other, otherCovers, log, read, logRead, different⟩
    exact ⟨other, otherCovers, log, base.trans read, logRead, different⟩

end Writes

/-! ## The programs of the worker -/

/-- A write of one leaf leaves the files of every other leaf. -/
def WriteStep (before : Disk) (write : DurableWrite) (after : Disk) : Prop :=
  LeafStep write (before write.key) (after write.key) ∧
    ∀ other, other ≠ write.key → after other = before other

theorem writeLeaf_bind {Result : Type} {disk : Disk} {memory : Memory} {key : StorageKey}
    {change : LeafFiles → Except IoError Unit × LeafFiles} {label : DurableWrite}
    {rest : Except IoError Unit → WorkerProgram Result}
    {ends : Result → Disk → Memory → List DurableWrite → Prop} (own : label.key = key)
    (step : LeafStep (labelOf key label (change (disk key)).1) (disk key) (change (disk key)).2)
    (ensures : Ensures WriteStep (rest (change (disk key)).1)
      (disk.set key (change (disk key)).2) memory fun result next memory later =>
        ends result next memory (labelOf key label (change (disk key)).1 :: later)) :
    Ensures WriteStep (writeLeaf key change label >>= rest) disk memory ends := by
  have labelKey : (labelOf key label (change (disk key)).1).key = key := by
    cases (change (disk key)).1 with
    | ok => exact own
    | error => rfl
  refine Ensures.write_bind ⟨?_, ?_⟩ ensures
  · change LeafStep _ _ (disk.set key _ _)
    rw [labelKey, Disk.set_same]
    exact step
  · intro other different
    rw [labelKey] at different
    exact disk.set_other _ different

theorem append_ensures {answers : AppendAnswers} {key : StorageKey} {frames : Bytes}
    {disk : Disk} {memory : Memory} {generation : UInt32} {covers : List Content}
    {durable : List Frame} (base : (disk key).base = .ok (generation, covers))
    (read : readRetainedLog true (disk key).log = .ok (some (generation, durable))) :
    Ensures WriteStep (appendBatch answers key frames) disk memory
      fun result _ _ writes => result ≠ none → .appended key frames ∈ writes := by
  obtain ⟨-, found⟩ := readRetainedLog_eq_ok.mp read
  cases present : (disk key).log with
  | none =>
      rw [present] at found
      cases found
  | some bytes =>
      rw [present] at found
      obtain ⟨_, _, equal, reads⟩ := found
      cases equal
      unfold appendBatch
      cases appends : appendFrames answers.append (some bytes) frames with
      | mk result after =>
          cases result with
          | error error =>
              refine writeLeaf_bind rfl ?_ ?_
              · rw [present, appends]
                exact leafStep_appendRefused answers.atomic base present reads appends
              · rw [present, appends]
                exact .pure (by simp)
          | ok =>
              refine writeLeaf_bind rfl ?_ ?_
              · rw [present, appends]
                exact leafStep_appended base present reads appends
              · rw [present, appends]
                exact .read_bind (.pure (by simp [withLog, labelOf]))

theorem persistIncrementalFrames_ensures (answers : AppendAnswers) (key : StorageKey)
    (frames : Bytes) (disk : Disk) (memory : Memory) :
    Ensures WriteStep (persistIncrementalFrames answers key frames) disk memory
      fun result _ _ writes => result ≠ none → .appended key frames ∈ writes := by
  unfold persistIncrementalFrames
  apply Ensures.read_bind
  split
  · exact .pure (by simp)
  · next generation read =>
      obtain ⟨covers, base⟩ := base_of_generation read
      split
      · exact .pure (by simp)
      · next log retained =>
          have present := readRetainedLog_readable retained
          split
          · next current =>
              cases log with
              | none => cases current
              | some log =>
                  obtain ⟨logGeneration, durable⟩ := log
                  obtain rfl : logGeneration = generation := by simpa using current
                  exact .pure_bind (append_ensures base present)
          · next stale =>
              cases answered : answers.reset with
              | false =>
                  refine writeLeaf_bind rfl ?_ ?_
                  · exact .refl key (disk key)
                  · exact .pure (by simp)
              | true =>
                  have started : readRetainedLog true (some (encodeHeader generation)) =
                      .ok (some (generation, [])) :=
                    readRetainedLog_eq_ok.mpr ⟨rfl, _, _, rfl, readsAs_header generation⟩
                  have rotated := disk.set_same key
                    { disk key with log := some (encodeHeader generation) }
                  have sameBase := (congrArg LeafFiles.base rotated).trans base
                  have empty := (congrArg (readRetainedLog true ·.log) rotated).trans started
                  refine writeLeaf_bind rfl (leafStep_reset base present stale) ?_
                  refine (append_ensures sameBase empty).mono ?_
                  intro result _ _ writes appended succeeds
                  exact List.mem_cons_of_mem _ (appended succeeds)

/-- What the acknowledgement of a batch promises: its frames are in the log. -/
def BatchKept (entry : IncrementalEntry) (ack : IncrementalAck) (writes : List DurableWrite) :
    Prop :=
  ack = ⟨entry.panelId, entry.leafId, entry.runtimeSessionId, entry.frames.length⟩ ∧
    (entry.frames = [] ∨ ∃ leafId batch, (leafId = entry.leafId ∨ leafId = none) ∧
      .appended ⟨entry.dir, entry.panelId, leafId⟩ batch ∈ writes ∧
      contents (decodeFrames batch) = contents (decodeFrames entry.frames))

theorem contents_renumberFrames {batch durable : Bytes} {first next : Nat}
    (renumbers : renumberFrames batch first = some (durable, next)) :
    contents (decodeFrames durable) = contents (decodeFrames batch) := by
  obtain ⟨follows, rfl, room⟩ := renumberFrames_eq_some renumbers
  have fits : renumbered first (decodeFrames batch) = [] ∨
      Follows none (renumbered first (decodeFrames batch)) := by
    rcases room with nothing | room
    · exact .inl (by rw [nothing]; rfl)
    · exact .inr (follows_renumbered follows rfl room)
  have decoded : decodeFrames (encodeFrames (renumbered first (decodeFrames batch))) =
      renumbered first (decodeFrames batch) := by
    rcases fits with nothing | follows
    · rw [nothing]
      rfl
    · exact decodeFrames_of_read (@readsAs_encode 0 _ follows)
  rw [decoded, contents_renumbered]

theorem persistIncrementalEntry_ensures (turn : AppendAnswers × IncrementalEntry) (disk : Disk)
    (memory : Memory) :
    Ensures WriteStep (persistIncrementalEntry turn) disk memory fun notices _ _ writes =>
      ∀ ack, .acknowledged ack ∈ notices → BatchKept turn.2 ack writes := by
  obtain ⟨answers, entry⟩ := turn
  dsimp only [persistIncrementalEntry]
  split
  · next empty =>
      refine .pure ?_
      intro ack member
      rw [List.mem_singleton, Notice.acknowledged.injEq] at member
      exact ⟨by rw [member, empty]; rfl, .inl empty⟩
  · next nonempty =>
      apply Ensures.recollect_bind
      apply Ensures.read_bind
      split
      · exact .pure (by simp)
      · split
        · exact .remember_bind (.pure (by simp))
        · split
          · exact .pure (by simp)
          · next renumbers =>
              refine Ensures.seq (persistIncrementalFrames_ensures answers _ _ disk memory) ?_
              intro result _ _ writes appended
              cases result with
              | none => exact .pure (by simp)
              | some needsRollover =>
                  refine .remember_bind (.pure ?_)
                  intro ack member
                  have acknowledged : ack = ⟨entry.panelId, entry.leafId,
                      entry.runtimeSessionId, entry.frames.length⟩ := by
                    cases needsRollover <;> simpa using member
                  have written := appended (by simp)
                  rw [← List.append_nil writes] at written
                  refine ⟨acknowledged, .inr ⟨_, _, ?_, written, contents_renumberFrames renumbers⟩⟩
                  split
                  · exact .inr rfl
                  · exact .inl rfl

/-- The writes of a full checkpoint of one leaf. -/
def PartOfCheckpoint (key : StorageKey) (text : List Content) (write : DurableWrite) : Prop :=
  write = .refused key ∨ write = .logRemoved key ∨ write = .sidecarRemoved key ∨
    ∃ generation, write = .saved key generation text

theorem removeSuperseded_ensures {disk : Disk} {memory : Memory} {key : StorageKey}
    {generation : UInt32} {text : List Content} (answers : FullAnswers)
    (versioned : (disk key).checkpoint = some (.versioned generation text))
    (left : Ineligible (disk key)) :
    Ensures WriteStep (removeSuperseded answers key) disk memory fun _ _ _ writes =>
      ∀ write ∈ writes, PartOfCheckpoint key text write := by
  have part : ∀ label, PartOfCheckpoint key text label → ∀ result,
      PartOfCheckpoint key text (labelOf key label result) := by
    intro label part result
    cases result with
    | ok => exact part
    | error => exact .inl rfl
  have logStep : LeafStep
      (labelOf key (.logRemoved key) (removeFile answers.removeLog (disk key).log).1) (disk key)
      (withLog (disk key) (removeFile answers.removeLog (disk key).log)).2 := by
    cases answers.removeLog with
    | true => exact leafStep_logRemoved left
    | false => exact .refl key (disk key)
  have sidecarStep : ∀ files : LeafFiles,
      files.checkpoint = some (.versioned generation text) →
      LeafStep
        (labelOf key (.sidecarRemoved key) (removeFile answers.removeSidecar files.sidecar).1) files
        { files with sidecar := (removeFile answers.removeSidecar files.sidecar).2 } := by
    intro files versioned
    cases answers.removeSidecar with
    | true => exact leafStep_sidecarRemoved versioned
    | false => exact .refl key files
  refine writeLeaf_bind rfl logStep (writeLeaf_bind rfl (sidecarStep _ ?_) (.pure ?_))
  · rw [Disk.set_same]
    exact versioned
  · intro write member
    rcases List.mem_cons.mp member with rfl | member
    · exact part _ (.inr (.inl rfl)) _
    · rw [List.mem_singleton.mp member]
      exact part _ (.inr (.inr (.inl rfl))) _

theorem persistCheckpoint_ensures (answers : FullAnswers) (entry : FullEntry)
    (text : List Content) (pendingBytes : Nat) (disk : Disk) (memory : Memory) :
    Ensures WriteStep (persistCheckpoint answers entry text pendingBytes) disk memory
      fun acks _ _ writes =>
        (∀ ack ∈ acks,
          ack = ⟨entry.panelId, entry.leafId, entry.runtimeSessionId, pendingBytes⟩ ∧
          ∃ generation,
            .saved ⟨entry.dir, entry.panelId, entry.leafId⟩ generation text ∈ writes) ∧
        ∀ write ∈ writes, PartOfCheckpoint ⟨entry.dir, entry.panelId, entry.leafId⟩ text write := by
  unfold persistCheckpoint
  apply Ensures.read_bind
  split
  · exact .pure (by simp)
  · next checkpointGeneration read =>
      split
      · exact .pure (by simp)
      · next log retained =>
          have present := readRetainedLog_readable retained
          cases saves : answers.save with
          | false =>
              refine writeLeaf_bind rfl (.refl _ _) (.pure ⟨by simp, ?_⟩)
              intro write member
              rw [List.mem_singleton] at member
              exact .inl member
          | true =>
              let key : StorageKey := ⟨entry.dir, entry.panelId, entry.leafId⟩
              let generation := nextGeneration checkpointGeneration (log.map Prod.fst)
              let saved : LeafFiles :=
                { disk key with checkpoint := some (.versioned generation text) }
              have published : LeafStep (.saved key generation text) (disk key) saved :=
                leafStep_saved checkpointGeneration present
              have left : Ineligible saved := published.published generation text rfl
              have inPlace := disk.set_same key saved
              have removes : ∀ memory, Ensures WriteStep (removeSuperseded answers key)
                  (disk.set key saved) memory fun _ _ _ writes =>
                    ∀ write ∈ writes, PartOfCheckpoint key text write := fun memory =>
                removeSuperseded_ensures answers
                  (congrArg LeafFiles.checkpoint inPlace) (by rw [inPlace]; exact left)
              refine writeLeaf_bind rfl published (.remember_bind ?_)
              refine Ensures.seq (removes _) ?_
              intro _ _ _ writes parts
              refine .pure ⟨?_, ?_⟩
              · intro ack member
                rw [List.mem_singleton] at member
                exact ⟨member, generation, List.Mem.head _⟩
              · intro write member
                rcases List.mem_cons.mp member with rfl | member
                · exact .inr (.inr (.inr ⟨generation, rfl⟩))
                · exact parts write (by simpa using member)

/-- What the acknowledgement of an entry of a full job promises. -/
def EntryKept (entry : FullEntry) (ack : IncrementalAck) (writes : List DurableWrite) : Prop :=
  match entry.content with
  | .unavailable => False
  | .checkpoint text pendingBytes =>
      ack = ⟨entry.panelId, entry.leafId, entry.runtimeSessionId, pendingBytes⟩ ∧
        ∃ generation, .saved ⟨entry.dir, entry.panelId, entry.leafId⟩ generation text ∈ writes
  | .pendingLog frames =>
      BatchKept ⟨entry.dir, entry.panelId, entry.leafId, entry.runtimeSessionId, frames⟩ ack writes

theorem persistFullEntry_ensures (turn : FullAnswers × FullEntry) (disk : Disk)
    (memory : Memory) :
    Ensures WriteStep (persistFullEntry turn) disk memory fun acks _ _ writes =>
      ∀ ack ∈ acks, EntryKept turn.2 ack writes := by
  obtain ⟨answers, dir, panelId, leafId, runtimeSessionId, content⟩ := turn
  cases content with
  | unavailable => exact .pure (by simp)
  | checkpoint text pendingBytes =>
      refine (persistCheckpoint_ensures answers _ text pendingBytes disk memory).mono ?_
      exact fun acks _ _ writes ends => ends.1
  | pendingLog frames =>
      refine Ensures.seq (persistIncrementalEntry_ensures _ disk memory) ?_
      intro notices _ _ writes kept
      refine .pure ?_
      intro ack member
      obtain ⟨notice, among, isAck⟩ := List.mem_filterMap.mp member
      cases notice with
      | rollover panelId => cases isAck
      | acknowledged found =>
          cases isAck
          rw [List.append_nil]
          exact kept ack among

theorem BatchKept.mono {entry : IncrementalEntry} {ack : IncrementalAck}
    {writes more : List DurableWrite} (kept : BatchKept entry ack writes)
    (held : ∀ write ∈ writes, write ∈ more) : BatchKept entry ack more := by
  obtain ⟨equal, nothing | ⟨leafId, batch, own, appended, same⟩⟩ := kept
  · exact ⟨equal, .inl nothing⟩
  · exact ⟨equal, .inr ⟨leafId, batch, own, held _ appended, same⟩⟩

theorem EntryKept.mono {entry : FullEntry} {ack : IncrementalAck}
    {writes more : List DurableWrite} (kept : EntryKept entry ack writes)
    (held : ∀ write ∈ writes, write ∈ more) : EntryKept entry ack more := by
  unfold EntryKept at kept ⊢
  split at kept
  · exact kept
  · obtain ⟨equal, generation, saved⟩ := kept
    exact ⟨equal, generation, held _ saved⟩
  · exact BatchKept.mono kept held

def Job.Kept (job : Job) (ack : IncrementalAck) (writes : List DurableWrite) : Prop :=
  match job with
  | .full entries => ∃ turn ∈ entries, EntryKept turn.2 ack writes
  | .incremental entries => ∃ turn ∈ entries, BatchKept turn.2 ack writes

theorem Job.program_ensures (job : Job) (disk : Disk) (memory : Memory) :
    Ensures WriteStep job.program disk memory fun notices _ _ writes =>
      ∀ ack, .acknowledged ack ∈ notices → job.Kept ack writes := by
  cases job with
  | incremental entries =>
      refine (Ensures.collect persistIncrementalEntry_ensures).mono ?_
      intro notices _ _ writes found ack member
      obtain ⟨turn, among, own, ownWrites, kept, held, inside⟩ := found _ member
      exact ⟨turn, among, (kept ack held).mono inside⟩
  | full entries =>
      have iterates : ∀ (turn : FullAnswers × FullEntry) (disk : Disk) (memory : Memory),
          Ensures WriteStep (do return (← persistFullEntry turn).map Notice.acknowledged)
            disk memory fun notices _ _ writes =>
              ∀ ack, .acknowledged ack ∈ notices → EntryKept turn.2 ack writes := by
        intro turn disk memory
        refine Ensures.seq (persistFullEntry_ensures turn disk memory) ?_
        intro acks _ _ writes kept
        refine .pure ?_
        intro ack member
        rw [List.append_nil]
        exact kept ack (by simpa using member)
      refine (Ensures.collect iterates).mono ?_
      intro notices _ _ writes found ack member
      obtain ⟨turn, among, own, ownWrites, kept, held, inside⟩ := found _ member
      exact ⟨turn, among, (kept ack held).mono inside⟩

/-! ## Runs -/

theorem captures_of_step {before after : Disk} {write : DurableWrite}
    (step : WriteStep before write after) :
    captures after = recordWrite (captures before) write := by
  funext key
  unfold recordWrite captures
  split
  · next own =>
      rw [own]
      exact step.1.captured
  · next other => rw [step.2 key other]

theorem ineligible_of_step {before after : Disk} {write : DurableWrite} {key : StorageKey}
    (step : WriteStep before write after) (kept : ∀ generation, write ≠ .reset key generation)
    (ineligible : Ineligible (before key)) : Ineligible (after key) := by
  by_cases own : key = write.key
  · rw [own] at kept ineligible ⊢
    exact step.1.ineligible kept ineligible
  · rw [step.2 key own]
    exact ineligible

theorem worker_chain (worker : Worker) (input : Input) :
    ∃ writes, Chain WriteStep worker.disk writes ∧
      (persistenceWorker.next worker input).disk = lastState worker.disk writes ∧
      (persistenceWorker.observe worker input).writes = writes.map Prod.fst := by
  cases input with
  | job job =>
      exact ⟨_, (job.program_ensures worker.disk worker.memory).chain, rfl, rfl⟩
  | stopped job count =>
      exact ⟨_, (job.program_ensures worker.disk worker.memory).chain.take count, rfl, rfl⟩
  | legacyRoot dir panelId rootLeaf => exact ⟨[], trivial, rfl, rfl⟩

theorem checkpoint_old_or_new (worker : Worker) (answers : FullAnswers) (entry : FullEntry)
    {text : List Content} {pendingBytes : Nat}
    (content : entry.content = .checkpoint text pendingBytes) (count : Nat) :
    let key : StorageKey := ⟨entry.dir, entry.panelId, entry.leafId⟩
    let after := persistenceWorker.next worker (.stopped (.full [(answers, entry)]) count)
    captures after.disk key = captures worker.disk key ∨
      (captures after.disk key = .ok (some (text, [])) ∧ Ineligible (after.disk key)) := by
  intro key after
  obtain ⟨dir, panelId, leafId, runtimeSessionId, found⟩ := entry
  cases content
  let entry : FullEntry :=
    ⟨dir, panelId, leafId, runtimeSessionId, .checkpoint text pendingBytes⟩
  have ensures : Ensures WriteStep (Job.full [(answers, entry)]).program worker.disk worker.memory
      fun _ _ _ writes => ∀ write ∈ writes, PartOfCheckpoint key text write := by
    have turn : Ensures WriteStep
        (do return (← persistFullEntry (answers, entry)).map Notice.acknowledged)
        worker.disk worker.memory fun _ _ _ writes => ∀ write ∈ writes,
          PartOfCheckpoint key text write := by
      refine Ensures.seq
        (persistCheckpoint_ensures answers entry text pendingBytes worker.disk worker.memory) ?_
      intro acks _ _ writes ends
      exact .pure (by simpa using ends.2)
    refine Ensures.seq turn ?_
    intro notices _ _ writes parts
    exact .pure_bind (.pure (by simpa using parts))
  have parts : ∀ write ∈ (((Job.full [(answers, entry)]).program worker.disk
      worker.memory).writes.take count).map Prod.fst, PartOfCheckpoint key text write := by
    intro write member
    rw [List.map_take] at member
    exact ensures.ends write (List.mem_of_mem_take member)
  refine (ensures.chain.take count).invariant
    (fun disk => captures disk key = captures worker.disk key ∨
      (captures disk key = .ok (some (text, [])) ∧ Ineligible (disk key)))
    (PartOfCheckpoint key text) ?_ parts (.inl rfl)
  intro before write after step part held
  have shown := congrFun (captures_of_step step) key
  rcases part with rfl | rfl | rfl | ⟨generation, rfl⟩
  all_goals
    simp only [recordWrite, DurableWrite.key, if_true, recordLeaf] at shown
    rw [shown]
  · exact held.imp id fun ⟨new, left⟩ => ⟨new, ineligible_of_step step nofun left⟩
  · exact held.imp id fun ⟨new, left⟩ => ⟨new, ineligible_of_step step nofun left⟩
  · exact held.imp id fun ⟨new, left⟩ => ⟨new, ineligible_of_step step nofun left⟩
  · exact .inr ⟨rfl, step.1.published generation text rfl⟩

end TerminalCanvas.App
