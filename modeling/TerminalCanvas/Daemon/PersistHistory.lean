import TerminalCanvas.Daemon.Persist

/-! # What the durable writer does to a history

The history of a leaf before and after one target: a checkpoint that is saved
covers what it was captured for, an acknowledged batch stands behind the durable
frames, and a failed batch leaves at most the frames a failed rollback strands. -/

namespace TerminalCanvas.Daemon

open Scrollback

variable {files : LeafFiles} {history : LeafSessionHistory}

/-! ## Generations -/

theorem logGeneration_ne_next (history : LeafSessionHistory) :
    history.logGeneration ≠ some (nextCheckpointGeneration history) := by
  unfold nextCheckpointGeneration
  by_cases retained : history.logGeneration = some (history.generation + 1)
  · simp only [retained, if_true, ne_eq, Option.some.injEq]
    intro equal
    have values := congrArg UInt32.toNat equal
    simp only [UInt32.toNat_add] at values
    have bound := history.generation.toNat_lt
    have one : UInt32.toNat 1 = 1 := rfl
    omega
  · simpa [if_neg retained] using retained

theorem history_of_save (loaded : files.history = .ok history) (covers : List Content)
    {log : File} (rotated : log = files.log ∨
      log = some (encodeHeader (nextCheckpointGeneration history))) :
    ∃ logGeneration, LeafFiles.history
        ⟨some (.versioned (nextCheckpointGeneration history) covers), files.sidecar, log⟩ =
      .ok ⟨nextCheckpointGeneration history, covers, logGeneration, []⟩ := by
  rcases rotated with rfl | rfl
  · refine ⟨history.logGeneration, LeafFiles.history_eq_ok.mpr ⟨rfl, ?_⟩⟩
    have reads := (LeafFiles.history_eq_ok.mp loaded).2
    cases present : files.log with
    | none =>
        rw [present] at reads
        exact ⟨reads.1, rfl⟩
    | some bytes =>
        rw [present] at reads
        rcases reads with ⟨logGeneration, frames, parsed, numbered, -⟩
        have stale : logGeneration ≠ nextCheckpointGeneration history := by
          intro equal
          exact logGeneration_ne_next history (by rw [numbered, equal])
        exact ⟨logGeneration, frames, parsed, numbered, by simp [stale]⟩
  · exact ⟨_, LeafFiles.history_eq_ok.mpr
      ⟨rfl, _, _, readsAs_header _, rfl, by simp⟩⟩

/-- One checkpoint target: acknowledged exactly when the checkpoint was saved,
whatever became of the rotation. -/
theorem persistScrollbackTarget_history (answer : CheckpointAnswer)
    (target : ScrollbackTarget) :
    ((persistScrollbackTarget answer files target).1.acknowledged = none ∧
      (persistScrollbackTarget answer files target).2 = files) ∨
    ((persistScrollbackTarget answer files target).1.acknowledged =
        some (target.sessionId, target.pendingBytes) ∧
      ∃ generation logGeneration, (persistScrollbackTarget answer files target).2.history =
        .ok ⟨generation, target.covers, logGeneration, []⟩) := by
  unfold persistScrollbackTarget
  cases loaded : tryLoadLeafSession answer.load files with
  | error error => exact .inl ⟨rfl, rfl⟩
  | ok history =>
      have readable := LeafFiles.history_of_tryLoad loaded
      cases saved : answer.save with
      | false => exact .inl ⟨rfl, rfl⟩
      | true =>
          cases rotated : answer.rotate with
          | false => exact .inr ⟨rfl, _, history_of_save readable target.covers (.inl rfl)⟩
          | true => exact .inr ⟨rfl, _, history_of_save readable target.covers (.inr rfl)⟩

/-! ## Appending a batch -/

theorem history_of_readsAs {generation : UInt32} {covers : List Content} {log : File}
    {bytes : Bytes} {frames : List Frame} (base : files.base = .ok (generation, covers))
    (present : log = some bytes) (reads : ReadsAs bytes generation frames) :
    LeafFiles.history { files with log := log } =
      .ok ⟨generation, covers, some generation, frames⟩ := by
  rw [present]
  exact LeafFiles.history_eq_ok.mpr ⟨base, _, _, reads, rfl, by simp⟩

theorem frames_of_stale (loaded : files.history = .ok history)
    (stale : history.logGeneration ≠ some history.generation) : history.frames = [] := by
  have reads := (LeafFiles.history_eq_ok.mp loaded).2
  cases present : files.log with
  | none =>
      rw [present] at reads
      exact reads.2
  | some bytes =>
      rw [present] at reads
      rcases reads with ⟨logGeneration, frames, -, numbered, kept⟩
      have other : logGeneration ≠ history.generation := by
        intro equal
        exact stale (by rw [numbered, equal])
      simpa [other] using kept

theorem readsAs_of_current (loaded : files.history = .ok history)
    (current : history.logGeneration = some history.generation) :
    ∃ bytes, files.log = some bytes ∧ ReadsAs bytes history.generation history.frames := by
  have reads := (LeafFiles.history_eq_ok.mp loaded).2
  cases present : files.log with
  | none =>
      rw [present] at reads
      rw [reads.1] at current
      cases current
  | some bytes =>
      rw [present] at reads
      rcases reads with ⟨logGeneration, frames, parsed, numbered, kept⟩
      rw [numbered, Option.some.injEq] at current
      rw [current] at parsed kept
      exact ⟨bytes, rfl, by simpa [kept] using parsed⟩

/-- The log an append works on has the generation of the checkpoint and the
frames that were loaded. -/
theorem currentLog_reads {reset : Bool} {log : File} (loaded : files.history = .ok history)
    (current : currentLog reset files history = (.ok (), log)) :
    (∃ bytes, log = some bytes ∧ ReadsAs bytes history.generation history.frames) ∧
      (history.logGeneration = some history.generation ∨ reset = true) := by
  unfold currentLog at current
  split at current
  · next isCurrent =>
      cases current
      exact ⟨readsAs_of_current loaded isCurrent, .inl isCurrent⟩
  · next stale =>
      rw [frames_of_stale loaded stale]
      cases reset with
      | false => simp [resetLog, writeAtomic] at current
      | true =>
          cases current
          exact ⟨⟨_, rfl, readsAs_header _⟩, .inr rfl⟩

theorem currentLog_error {reset : Bool} {log : File} {error : IoError}
    (refused : currentLog reset files history = (.error error, log)) :
    log = files.log ∧ history.logGeneration ≠ some history.generation ∧ reset = false := by
  unfold currentLog at refused
  split at refused
  · cases refused
  · next stale =>
      cases reset with
      | false =>
          cases refused
          exact ⟨rfl, stale, rfl⟩
      | true => cases refused

theorem firstDurableSeq_continues {firstSeq : Nat} (loaded : files.history = .ok history)
    (numbered : firstDurableSeq history = some firstSeq) :
    breaksSequence (lastSeq none history.frames) firstSeq = false := by
  rw [lastSeq_eq_getLast]
  unfold firstDurableSeq at numbered
  split at numbered
  · split at numbered
    · next last isLast => simp [isLast, breaksSequence, numbered]
    · next absent => simp [absent, breaksSequence]
  · next stale => simp [frames_of_stale loaded stale, breaksSequence]

theorem firstDurableSeq_current (loaded : files.history = .ok history) :
    firstDurableSeq { history with logGeneration := some history.generation } =
      firstDurableSeq history := by
  by_cases current : history.logGeneration = some history.generation
  · simp [firstDurableSeq, current]
  · simp [firstDurableSeq, current, frames_of_stale loaded current]

theorem contents_stranded (answer : AppendAnswer) (first : Nat) (frames : List Frame) :
    contents ((renumbered first frames).take
        (strandedFrames answer (renumbered first frames))) =
      contents (frames.take (strandedFrames answer frames)) := by
  have same : strandedFrames answer (renumbered first frames) =
      strandedFrames answer frames := by
    unfold strandedFrames
    split
    · exact completeFrames_renumbered ..
    · rfl
  rw [same, contents, contents, List.map_take, List.map_take, renumbered_content]

theorem decodeFrames_of_read {batch : Bytes} {generation : UInt32} {frames : List Frame}
    (read : readFrames (encodeHeader 0 ++ batch) = some (generation, frames)) :
    decodeFrames batch = frames := by
  unfold decodeFrames
  split
  · next empty =>
      rw [List.isEmpty_iff.mp empty, List.append_nil] at read
      have header := readsAs_header 0
      rw [ReadsAs, read] at header
      cases header
      rfl
  · rw [read]

theorem renumberFrames_eq_some {batch bytes : Bytes} {firstSeq last : Nat}
    (renumbers : renumberFrames batch firstSeq = some (bytes, last)) :
    Follows none (decodeFrames batch) ∧
      bytes = encodeFrames (renumbered firstSeq (decodeFrames batch)) ∧
      (decodeFrames batch = [] ∨ firstSeq + (decodeFrames batch).length ≤ u64Max) := by
  simp only [renumberFrames, Option.bind_eq_bind, Option.bind_eq_some_iff, Prod.exists,
    renumberLoop_eq_some] at renumbers
  rcases renumbers with ⟨generation, frames, read, rfl, rfl, room⟩
  rw [decodeFrames_of_read read]
  exact ⟨(readsAs_iff.mp read).1, rfl, room⟩

/-! ## One turn of the incremental writer -/

inductive Turn (answer : IncrementalAnswer) (files : LeafFiles) (target : IncrementalTarget) :
    TargetReport → LeafFiles → Prop
  | unread {error} (load : tryLoadLeafSession answer.load files = .error error) :
      Turn answer files target ⟨none, none⟩ files
  | unrotated {history error log} (load : tryLoadLeafSession answer.load files = .ok history)
      (rotate : currentLog answer.reset files history = (.error error, log)) :
      Turn answer files target ⟨none, none⟩ files
  | unnumbered {history log report}
      (load : tryLoadLeafSession answer.load files = .ok history)
      (rotate : currentLog answer.reset files history = (.ok (), log))
      (exhausted : ∀ firstSeq, firstDurableSeq history = some firstSeq →
        renumberFrames target.frames firstSeq = none)
      (unacknowledged : report.acknowledged = none) :
      Turn answer files target report { files with log := log }
  | failed {history log firstSeq bytes last error after}
      (load : tryLoadLeafSession answer.load files = .ok history)
      (rotate : currentLog answer.reset files history = (.ok (), log))
      (number : firstDurableSeq history = some firstSeq)
      (renumber : renumberFrames target.frames firstSeq = some (bytes, last))
      (append : appendFrames answer.append log bytes = (.error error, after)) :
      Turn answer files target ⟨none, none⟩ { files with log := after }
  | appended {history log firstSeq bytes last after flagged}
      (load : tryLoadLeafSession answer.load files = .ok history)
      (rotate : currentLog answer.reset files history = (.ok (), log))
      (number : firstDurableSeq history = some firstSeq)
      (renumber : renumberFrames target.frames firstSeq = some (bytes, last))
      (append : appendFrames answer.append log bytes = (.ok (), after)) :
      Turn answer files target ⟨some (target.sessionId, target.frames.length), flagged⟩
        (compactWhenLarge answer { files with log := after } target history.generation)

theorem persistIncrementalTarget_turn (answer : IncrementalAnswer) (files : LeafFiles)
    (target : IncrementalTarget) :
    Turn answer files target (persistIncrementalTarget answer files target).1
      (persistIncrementalTarget answer files target).2 := by
  unfold persistIncrementalTarget
  split
  · next load => exact .unread load
  · next history load =>
      split
      · next rotate =>
          rw [(currentLog_error rotate).1]
          exact .unrotated load rotate
      · next log rotate =>
          split
          · next exhausted =>
              exact .unnumbered load rotate (by simp [exhausted]) rfl
          · next firstSeq number =>
              split
              · next undecoded =>
                  refine .unnumbered load rotate ?_ rfl
                  intro other equal
                  rw [number] at equal
                  cases equal
                  exact undecoded
              · next renumber =>
                  split
                  · next append => exact .failed load rotate number renumber append
                  · next append => exact .appended load rotate number renumber append

theorem renumberFrames_of_room {batch : Bytes} {firstSeq : Nat}
    (decodes : (readFrames (encodeHeader 0 ++ batch)).isSome = true)
    (room : firstSeq + (decodeFrames batch).length ≤ u64Max) :
    ∃ bytes last, renumberFrames batch firstSeq = some (bytes, last) := by
  rcases Option.isSome_iff_exists.mp decodes with ⟨⟨generation, frames⟩, read⟩
  rw [decodeFrames_of_read read] at room
  refine ⟨encodeFrames (renumbered firstSeq frames), firstSeq + frames.length, ?_⟩
  simp only [renumberFrames, read]
  exact renumberLoop_eq_some.mpr ⟨rfl, rfl, .inr room⟩

/-! ## The history behind a turn -/

/-- A compaction moves the whole history into the checkpoint, or changes nothing
that is read. -/
theorem compactWhenLarge_history (answer : IncrementalAnswer) (target : IncrementalTarget)
    (generation : UInt32) (loaded : files.history = .ok history) :
    ∃ next, (compactWhenLarge answer files target generation).history = .ok next ∧
      (next = history ∨ (next.checkpoint = history.replay ∧ next.frames = [])) := by
  unfold compactWhenLarge
  split
  · unfold compactAlternateLog
    split
    · exact ⟨history, loaded, .inl rfl⟩
    · next found load =>
        have same : found = history := by
          have readable := LeafFiles.history_of_tryLoad load
          rw [loaded] at readable
          cases readable
          rfl
        cases same
        split
        · exact ⟨history, loaded, .inl rfl⟩
        · split
          · exact ⟨history, loaded, .inl rfl⟩
          · split
            · exact ⟨history, loaded, .inl rfl⟩
            · cases saved : answer.compact.save with
              | false => exact ⟨history, loaded, .inl rfl⟩
              | true =>
                  cases rotated : answer.compact.rotate with
                  | false =>
                      rcases history_of_save loaded history.replay (.inl rfl) with
                        ⟨logGeneration, behind⟩
                      exact ⟨_, behind, .inr ⟨rfl, rfl⟩⟩
                  | true =>
                      rcases history_of_save loaded history.replay (.inr rfl) with
                        ⟨logGeneration, behind⟩
                      exact ⟨_, behind, .inr ⟨rfl, rfl⟩⟩
  · exact ⟨history, loaded, .inl rfl⟩

/-- The write of a batch was reached, stopped after this many bytes, and the file
could not be truncated. -/
def Strands (answer : IncrementalAnswer) (files : LeafFiles) (written : Nat) : Prop :=
  ∃ history sync, tryLoadLeafSession answer.load files = .ok history ∧
    (history.logGeneration = some history.generation ∨ answer.reset = true) ∧
    answer.append = .writeFails written false sync

section Appending

variable {answer : IncrementalAnswer} {target : IncrementalTarget} {report : TargetReport}
variable {after : LeafFiles}

theorem appendFrames_history {log : File} {firstSeq last : Nat} {bytes : Bytes}
    {result : Except IoError Unit} {written : File}
    (loaded : files.history = .ok history)
    (rotate : currentLog answer.reset files history = (.ok (), log))
    (number : firstDurableSeq history = some firstSeq)
    (renumber : renumberFrames target.frames firstSeq = some (bytes, last))
    (append : appendFrames answer.append log bytes = (result, written)) :
    ∃ after, written = some after ∧
      Leaves answer.append history.generation history.frames
        (renumbered firstSeq (decodeFrames target.frames)) result after := by
  rcases (currentLog_reads loaded rotate).1 with ⟨current, rfl, reads⟩
  rcases renumberFrames_eq_some renumber with ⟨decodedFollows, rfl, room⟩
  have follows : Follows (lastSeq none history.frames)
      (renumbered firstSeq (decodeFrames target.frames)) := by
    rcases room with empty | room
    · rw [empty]
      trivial
    · exact follows_renumbered decodedFollows (firstDurableSeq_continues loaded number) room
  rcases appendFrames_leaves answer.append reads follows with ⟨_, _, appended, leaves⟩
  rw [append] at appended
  cases appended
  exact ⟨_, rfl, leaves⟩

/-- An acknowledged batch stands behind the frames that were durable before, in
the log or, compacted, in the checkpoint. -/
theorem history_of_acknowledged
    (turn : Turn answer files target report after) (acknowledged : report.acknowledged ≠ none) :
    ∃ old new, files.history = .ok old ∧ after.history = .ok new ∧
      ((new.checkpoint = old.checkpoint ∧ contents new.frames =
          contents old.frames ++ contents (decodeFrames target.frames)) ∨
        (new.checkpoint = old.replay ++ contents (decodeFrames target.frames) ∧
          new.frames = [])) := by
  cases turn with
  | unread | unrotated | failed => exact absurd rfl acknowledged
  | unnumbered _ _ _ unacknowledged => exact absurd unacknowledged acknowledged
  | @appended old log firstSeq bytes last written flagged load rotate number renumber append =>
      have loaded := LeafFiles.history_of_tryLoad load
      rcases appendFrames_history loaded rotate number renumber append with
        ⟨after, rfl, ⟨-, reads, -⟩ | ⟨⟨_, refused⟩, -⟩⟩
      · have behind := history_of_readsAs (LeafFiles.history_eq_ok.mp loaded).1 rfl reads
        rcases compactWhenLarge_history answer target old.generation behind with
          ⟨new, read, rfl | ⟨covers, empty⟩⟩
        · exact ⟨old, _, loaded, read, .inl ⟨rfl, by simp⟩⟩
        · refine ⟨old, new, loaded, read, .inr ⟨?_, empty⟩⟩
          rw [covers]
          simp [LeafSessionHistory.replay]
      · cases refused

theorem history_of_unacknowledged (turn : Turn answer files target report after)
    (unacknowledged : report.acknowledged = none) (loaded : files.history = .ok history) :
    ∃ new kept, after.history = .ok new ∧ new.checkpoint = history.checkpoint ∧
      contents new.frames =
        contents history.frames ++ contents ((decodeFrames target.frames).take kept) ∧
      (kept = 0 ∨ ∃ written, Strands answer files written ∧
        kept = completeFrames written (decodeFrames target.frames)) := by
  cases turn with
  | unread | unrotated => exact ⟨history, 0, loaded, rfl, by simp [contents], .inl rfl⟩
  | unnumbered load rotate =>
      have same := LeafFiles.history_of_tryLoad load
      rw [loaded] at same
      cases same
      rcases (currentLog_reads loaded rotate).1 with ⟨current, rfl, reads⟩
      exact ⟨_, 0, history_of_readsAs (LeafFiles.history_eq_ok.mp loaded).1 rfl reads, rfl,
        by simp [contents], .inl rfl⟩
  | failed load rotate number renumber append =>
      have same := LeafFiles.history_of_tryLoad load
      rw [loaded] at same
      cases same
      rcases appendFrames_history loaded rotate number renumber append with
        ⟨after, rfl, ⟨accepted, -⟩ | ⟨-, reads⟩⟩
      · cases accepted
      · refine ⟨_, strandedFrames answer.append (decodeFrames target.frames),
          history_of_readsAs (LeafFiles.history_eq_ok.mp loaded).1 rfl reads, rfl, ?_, ?_⟩
        · rw [contents_append, contents_stranded]
        · cases stopped : answer.append with
          | writeFails written setLen sync =>
              cases setLen with
              | true => exact .inl rfl
              | false => exact .inr ⟨written, ⟨history, sync, load,
                  (currentLog_reads loaded rotate).2, stopped⟩, rfl⟩
          | _ => exact .inl rfl
  | appended => cases unacknowledged

/-- A history behind which the whole batch can still be numbered. -/
def Room (files : LeafFiles) (batch : Bytes) : Prop :=
  ∃ history firstSeq, files.history = .ok history ∧
    firstDurableSeq history = some firstSeq ∧
    firstSeq + (decodeFrames batch).length ≤ u64Max

theorem firstDurableSeq_le {firstSeq : Nat} (number : firstDurableSeq history = some firstSeq) :
    firstSeq ≤ u64Max := by
  unfold firstDurableSeq at number
  split at number
  · split at number
    · rcases checkedAddU64_eq_some.mp number with ⟨fits, rfl⟩
      exact fits
    · cases number
      decide
  · cases number
    decide

theorem room_of_renumber {firstSeq last : Nat} {bytes : Bytes}
    (loaded : files.history = .ok history) (number : firstDurableSeq history = some firstSeq)
    (renumber : renumberFrames target.frames firstSeq = some (bytes, last)) :
    Room files target.frames := by
  refine ⟨history, firstSeq, loaded, number, ?_⟩
  rcases renumberFrames_eq_some renumber with ⟨-, -, empty | fits⟩
  · rw [empty]
    exact firstDurableSeq_le number
  · exact fits

theorem Turn.room (turn : Turn answer files target report after)
    (room : Room after target.frames) : Room files target.frames := by
  cases turn with
  | unread | unrotated => exact room
  | @unnumbered old log report load rotate _ _ =>
      have loaded := LeafFiles.history_of_tryLoad load
      rcases (currentLog_reads loaded rotate).1 with ⟨bytes, rfl, reads⟩
      rcases room with ⟨new, firstSeq, read, number, fits⟩
      rw [history_of_readsAs (LeafFiles.history_eq_ok.mp loaded).1 rfl reads] at read
      cases read
      exact ⟨old, firstSeq, loaded, (firstDurableSeq_current loaded).symm.trans number, fits⟩
  | failed load _ number renumber | appended load _ number renumber =>
      exact room_of_renumber (LeafFiles.history_of_tryLoad load) number renumber

theorem Turn.room_of_acknowledged (turn : Turn answer files target report after)
    (acknowledged : report.acknowledged ≠ none) :
    Room files target.frames ∧
      (readFrames (encodeHeader 0 ++ target.frames)).isSome = true := by
  cases turn with
  | unread | unrotated | failed => exact absurd rfl acknowledged
  | unnumbered _ _ _ unacknowledged => exact absurd unacknowledged acknowledged
  | appended load _ number renumber =>
      refine ⟨room_of_renumber (LeafFiles.history_of_tryLoad load) number renumber, ?_⟩
      simp only [renumberFrames, Option.bind_eq_bind, Option.bind_eq_some_iff] at renumber
      rcases renumber with ⟨_, read, -⟩
      rw [read]
      rfl

/-- While the batch has room, a write whose rollback cannot truncate the file
leaves every frame it completed. -/
theorem Turn.history_of_strands {written : Nat}
    (turn : Turn answer files target report after) (loaded : files.history = .ok history)
    (room : Room files target.frames)
    (decodes : (readFrames (encodeHeader 0 ++ target.frames)).isSome = true)
    (strands : Strands answer files written) :
    ∃ new, after.history = .ok new ∧ contents new.frames = contents history.frames ++
      contents ((decodeFrames target.frames).take
        (completeFrames written (decodeFrames target.frames))) := by
  rcases strands with ⟨found, sync, load, rotatable, stopped⟩
  have same := LeafFiles.history_of_tryLoad load
  rw [loaded] at same
  cases same
  rcases room with ⟨_, firstSeq, again, number, fits⟩
  rw [loaded] at again
  cases again
  rcases renumberFrames_of_room decodes fits with ⟨bytes, last, renumber⟩
  cases turn with
  | unread refused =>
      rw [load] at refused
      cases refused
  | unrotated again refused =>
      rw [load] at again
      cases again
      rcases currentLog_error refused with ⟨-, stale, failed⟩
      rcases rotatable with current | rotates
      · exact absurd current stale
      · rw [failed] at rotates
        cases rotates
  | unnumbered again _ exhausted =>
      rw [load] at again
      cases again
      rw [exhausted firstSeq number] at renumber
      cases renumber
  | failed again rotate anotherNumber another append =>
      rw [load] at again
      cases again
      rcases appendFrames_history loaded rotate anotherNumber another append with
        ⟨after, rfl, ⟨accepted, -⟩ | ⟨-, reads⟩⟩
      · cases accepted
      · refine ⟨_, history_of_readsAs (LeafFiles.history_eq_ok.mp loaded).1 rfl reads, ?_⟩
        rw [contents_append, contents_stranded, stopped]
        rfl
  | appended again rotate anotherNumber another append =>
      rw [load] at again
      cases again
      rcases appendFrames_history loaded rotate anotherNumber another append with
        ⟨after, rfl, ⟨-, -, flushed⟩ | ⟨⟨_, refused⟩, -⟩⟩
      · exact absurd stopped (flushed written false sync)
      · cases refused

end Appending

end TerminalCanvas.Daemon
