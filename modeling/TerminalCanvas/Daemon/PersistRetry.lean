import TerminalCanvas.Daemon.PersistHistory
import TerminalCanvas.Foundation.Execution

/-! # Retrying a batch

A batch stays in memory until one call of the writer acknowledges it. The retries
of one batch are a machine over the history directory; a retry appends behind
whatever the attempts before it left in the log. -/

namespace TerminalCanvas.Daemon

open Execution Scrollback

/-- One call of the incremental writer that carries the batch, among targets of
other sessions. -/
structure Attempt where
  before : List (IncrementalTarget × IncrementalAnswer)
  sessionId : Uuid
  alternate : Bool
  answer : IncrementalAnswer
  after : List (IncrementalTarget × IncrementalAnswer)

namespace Attempt

def target (attempt : Attempt) (key : HistoryKey) (batch : Bytes) : IncrementalTarget :=
  ⟨attempt.sessionId, key, batch, attempt.alternate⟩

/-- The other targets of the call belong to other sessions and other leaves. -/
def Separate (attempt : Attempt) (key : HistoryKey) : Prop :=
  ∀ target answer, (target, answer) ∈ attempt.before ++ attempt.after →
    target.key ≠ key ∧ target.sessionId ≠ attempt.sessionId

end Attempt

def retries (key : HistoryKey) (batch : Bytes) : Machine HistoryDir Attempt PersistReport where
  step dir attempt :=
    let (report, next) := persistIncrementalTargetsInDir dir
      (attempt.before ++ (attempt.target key batch, attempt.answer) :: attempt.after)
    ⟨next, report⟩

def Acknowledges (key : HistoryKey) (batch : Bytes) (dir : HistoryDir) (attempt : Attempt) :
    Prop :=
  (attempt.sessionId, batch.length) ∈
    ((retries key batch).observe dir attempt).acknowledgements

/-- The log that is read next holds the batch once behind the frames that were
durable before. Alternate-screen history may have been moved into the
checkpoint together with it. -/
def AppearsOnce (before after : LeafFiles) (batch : Bytes) : Prop :=
  ∃ old new, before.history = .ok old ∧ after.history = .ok new ∧
    ((new.checkpoint = old.checkpoint ∧
        contents new.frames = contents old.frames ++ contents (decodeFrames batch)) ∨
      (new.checkpoint = old.replay ++ contents (decodeFrames batch) ∧ new.frames = []))

theorem AppearsOnce.replay {before after : LeafFiles} {batch : Bytes}
    (once : AppearsOnce before after batch) :
    ∃ old new, before.history = .ok old ∧ after.history = .ok new ∧
      new.replay = old.replay ++ contents (decodeFrames batch) := by
  rcases once with ⟨old, new, loaded, read, ⟨covers, left⟩ | ⟨covers, empty⟩⟩
  · exact ⟨old, new, loaded, read, by simp [LeafSessionHistory.replay, covers, left]⟩
  · refine ⟨old, new, loaded, read, ?_⟩
    simp [LeafSessionHistory.replay, covers, empty]

/-- A write whose rollback could not truncate the file stopped inside the first
frame of the batch. -/
def StopsInFirstFrame (key : HistoryKey) (batch : Bytes) (dir : HistoryDir)
    (attempt : Attempt) : Prop :=
  ∀ written first, Strands attempt.answer (dir key) written →
    (decodeFrames batch).head? = some first →
    written < frameHeaderBytes + first.payload.length

variable {key : HistoryKey} {batch : Bytes}

/-! ## One attempt -/

theorem acknowledged_session {answer : IncrementalAnswer} {files : LeafFiles}
    {target : IncrementalTarget} {entry : Uuid × Nat}
    (acknowledged : (persistIncrementalTarget answer files target).1.acknowledged = some entry) :
    entry = (target.sessionId, target.frames.length) := by
  have turn := persistIncrementalTarget_turn answer files target
  revert acknowledged
  generalize (persistIncrementalTarget answer files target).1 = report at turn ⊢
  generalize (persistIncrementalTarget answer files target).2 = after at turn
  intro acknowledged
  cases turn with
  | unread | unrotated | failed => cases acknowledged
  | unnumbered _ _ _ unacknowledged =>
      rw [unacknowledged] at acknowledged
      cases acknowledged
  | appended =>
      cases acknowledged
      rfl

theorem mem_acknowledgements {dir : HistoryDir} {report : PersistReport} {entry : Uuid × Nat}
    {targets : List (IncrementalTarget × IncrementalAnswer)}
    (others : ∀ target answer, (target, answer) ∈ targets → target.sessionId ≠ entry.1) :
    entry ∈ (persistLoop IncrementalTarget.key persistIncrementalTarget dir report
      targets).1.acknowledgements ↔ entry ∈ report.acknowledgements := by
  induction targets generalizing dir report with
  | nil => rfl
  | cons head tail induction =>
      rcases head with ⟨target, answer⟩
      rw [persistLoop, induction (fun later laterAnswer member =>
        others later laterAnswer (by simp [member]))]
      have foreign : entry ∉
          (persistIncrementalTarget answer (dir target.key) target).1.acknowledged.toList := by
        intro member
        rw [Option.mem_toList] at member
        have named := acknowledged_session member
        exact others target answer (by simp) (by rw [named])
      simp [PersistReport.add, foreign]

section OneAttempt

variable {dir : HistoryDir} {attempt : Attempt}

theorem files_before (separate : attempt.Separate key) (report : PersistReport) :
    (persistLoop IncrementalTarget.key persistIncrementalTarget dir report
      attempt.before).2 key = dir key :=
  persistLoop_other _ _ fun target answer member =>
    (separate target answer (List.mem_append_left _ member)).1

theorem next_files (separate : attempt.Separate key) :
    (retries key batch).next dir attempt key =
      (persistIncrementalTarget attempt.answer (dir key) (attempt.target key batch)).2 := by
  change (persistIncrementalTargetsInDir dir _).2 key = _
  rw [persistIncrementalTargetsInDir, persistLoop_append, persistLoop, persistLoop_other]
  · change HistoryDir.set _ key _ key = _
    rw [HistoryDir.set_same]
    change (persistIncrementalTarget attempt.answer
      ((persistLoop _ _ dir ⟨[], []⟩ attempt.before).2 key) _).2 = _
    rw [files_before separate]
  · exact fun target answer member =>
      (separate target answer (List.mem_append_right _ member)).1

theorem acknowledges_iff (separate : attempt.Separate key) :
    Acknowledges key batch dir attempt ↔
      (persistIncrementalTarget attempt.answer (dir key)
        (attempt.target key batch)).1.acknowledged ≠ none := by
  let entry : Uuid × Nat := (attempt.sessionId, batch.length)
  have others : ∀ target answer, (target, answer) ∈ attempt.before ++ attempt.after →
      target.sessionId ≠ entry.1 :=
    fun target answer member => (separate target answer member).2
  have fresh : entry ∉ (persistLoop IncrementalTarget.key persistIncrementalTarget dir ⟨[], []⟩
      attempt.before).1.acknowledgements := by
    rw [mem_acknowledgements fun target answer member =>
      others target answer (List.mem_append_left _ member)]
    exact List.not_mem_nil
  change entry ∈ (persistIncrementalTargetsInDir dir _).1.acknowledgements ↔ _
  rw [persistIncrementalTargetsInDir, persistLoop_append, persistLoop, mem_acknowledgements
    (fun target answer member => others target answer (List.mem_append_right _ member))]
  simp only [PersistReport.add, List.mem_append, fresh, false_or, Option.mem_toList]
  change (persistIncrementalTarget attempt.answer
    ((persistLoop _ _ dir ⟨[], []⟩ attempt.before).2 key)
      (attempt.target key batch)).1.acknowledged = _ ↔ _
  rw [files_before separate]
  constructor
  · intro acknowledged
    simp [acknowledged]
  · intro acknowledged
    rcases Option.ne_none_iff_exists'.mp acknowledged with ⟨entry, found⟩
    rw [found, acknowledged_session found]
    rfl

theorem attempt_turn (separate : attempt.Separate key) (batch : Bytes) (dir : HistoryDir) :
    ∃ report, Turn attempt.answer (dir key) (attempt.target key batch) report
        ((retries key batch).next dir attempt key) ∧
      (Acknowledges key batch dir attempt ↔ report.acknowledged ≠ none) := by
  rw [next_files separate, acknowledges_iff separate]
  exact ⟨_, persistIncrementalTarget_turn .., Iff.rfl⟩

theorem target_frames : (attempt.target key batch).frames = batch := rfl

/-- An attempt that is not acknowledged strands nothing exactly while its write
stops inside the first frame. -/
theorem unacknowledged_attempt (separate : attempt.Separate key)
    (decodes : (readFrames (encodeHeader 0 ++ batch)).isSome = true)
    (room : Room (dir key) batch) (unacknowledged : ¬ Acknowledges key batch dir attempt) :
    ∃ old new stranded, (dir key).history = .ok old ∧
      ((retries key batch).next dir attempt key).history = .ok new ∧
      new.checkpoint = old.checkpoint ∧
      contents new.frames = contents old.frames ++ stranded ∧
      (stranded = [] ↔ StopsInFirstFrame key batch dir attempt) := by
  rcases attempt_turn separate batch dir with ⟨report, turn, acknowledges⟩
  have none : report.acknowledged = none := by
    by_contra some
    exact unacknowledged (acknowledges.mpr some)
  rcases room with ⟨old, firstSeq, loaded, number, fits⟩
  rcases history_of_unacknowledged turn none loaded with
    ⟨new, kept, read, covers, left, kept_cases⟩
  rw [target_frames] at left kept_cases
  refine ⟨old, new, _, loaded, read, covers, left, ?_⟩
  constructor
  · intro empty written first strands isFirst
    rcases turn.history_of_strands loaded ⟨old, firstSeq, loaded, number, fits⟩ decodes strands
      with ⟨_, again, exact⟩
    rw [read] at again
    cases again
    rw [left, empty, List.append_right_inj, target_frames] at exact
    have lengths := congrArg List.length exact
    have atMost := completeFrames_le written (decodeFrames batch)
    simp only [contents, List.length_nil, List.length_map, List.length_take] at lengths
    exact completeFrames_eq_zero.mp (by omega) first isFirst
  · intro stops
    rcases kept_cases with rfl | ⟨written, strands, rfl⟩
    · rfl
    · rw [completeFrames_eq_zero.mpr fun first isFirst => stops written first strands isFirst]
      rfl

end OneAttempt

/-! ## All attempts -/

/-- Attempts that are not acknowledged leave the durable frames and what their
failed rollbacks stranded. -/
theorem unacknowledged_attempts {failed : List Attempt} {dir : HistoryDir}
    (decodes : (readFrames (encodeHeader 0 ++ batch)).isSome = true)
    (separate : ∀ attempt ∈ failed, attempt.Separate key)
    (unacknowledged : ∀ state attempt,
      (state, attempt) ∈ (retries key batch).trace dir failed →
        ¬ Acknowledges key batch state attempt)
    (room : Room ((retries key batch).run dir failed key) batch) :
    Room (dir key) batch ∧ ∃ old new stranded, (dir key).history = .ok old ∧
      ((retries key batch).run dir failed key).history = .ok new ∧
      new.checkpoint = old.checkpoint ∧
      contents new.frames = contents old.frames ++ stranded ∧
      (stranded = [] ↔ ∀ state attempt,
        (state, attempt) ∈ (retries key batch).trace dir failed →
          StopsInFirstFrame key batch state attempt) := by
  induction failed generalizing dir with
  | nil =>
      rcases room with ⟨old, firstSeq, loaded, number, fits⟩
      exact ⟨⟨old, firstSeq, loaded, number, fits⟩, old, old, [], loaded, loaded, rfl,
        by simp, by simp⟩
  | cons attempt later induction =>
      have first := separate attempt (by simp)
      rcases @induction ((retries key batch).next dir attempt)
        (fun other member => separate other (by simp [member]))
        (fun state other member => unacknowledged state other (by simp [member])) room with
        ⟨roomNext, middle, new, strandedLater, readMiddle, readNew, coversNew, leftNew, exactNew⟩
      rcases attempt_turn first batch dir with ⟨report, turn, -⟩
      have roomNow : Room (dir key) batch := turn.room roomNext
      rcases unacknowledged_attempt first decodes roomNow
        (unacknowledged dir attempt (by simp)) with
        ⟨old, _, stranded, readOld, again, covers, left, exactNow⟩
      rw [readMiddle] at again
      cases again
      refine ⟨roomNow, old, new, stranded ++ strandedLater, readOld, readNew,
        coversNew.trans covers, by rw [leftNew, left, List.append_assoc], ?_⟩
      rw [List.append_eq_nil_iff, exactNow, exactNew]
      constructor
      · rintro ⟨now, afterwards⟩ state other member
        rcases List.mem_cons.mp member with equal | member
        · cases equal
          exact now
        · exact afterwards state other member
      · intro every
        exact ⟨every dir attempt (by simp),
          fun state other member => every state other (by simp [member])⟩

instance (key : HistoryKey) (batch : Bytes) (dir : HistoryDir) (attempt : Attempt) :
    Decidable (Acknowledges key batch dir attempt) :=
  inferInstanceAs (Decidable (_ ∈ _))

/-! ## A leaf whose disk fails once -/

section Example

/-- One frame of output that is waiting in memory. -/
private def waiting : Bytes := encodeFrame 1 .output [104, 105]

private def flushed : IncrementalAnswer where
  load := .readable
  reset := true
  append := .flushed
  sizeBeforeCompaction := true
  compact := ⟨.readable, false, true, true, true⟩
  sizeAfterCompaction := true

/-- The write stopped after this many bytes and the file was not truncated. -/
private def stoppedAfter (written : Nat) : IncrementalAnswer :=
  { flushed with append := .writeFails written false true }

private def attemptWith (answer : IncrementalAnswer) : Attempt :=
  ⟨[], .fromU128 1, false, answer, []⟩

private theorem separate_of_alone {attempts : List Attempt} (key : HistoryKey)
    (alone : ∀ attempt ∈ attempts, attempt.before ++ attempt.after = []) :
    ∀ attempt ∈ attempts, attempt.Separate key := by
  intro attempt member target answer among
  rw [alone attempt member] at among
  cases among

private def leaf : HistoryKey := ⟨.fromU128 2, some (.fromU128 3)⟩

private def emptyDir : HistoryDir := fun _ => ⟨none, none, none⟩

end Example

end TerminalCanvas.Daemon
