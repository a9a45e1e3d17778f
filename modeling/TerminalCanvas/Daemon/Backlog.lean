import TerminalCanvas.Daemon.Display
import TerminalCanvas.Daemon.PersistHistory
import TerminalCanvas.Terminal.LogDrain

/-! # The backlog of a session

Frames wait in the raw log of the terminal, then in the durable queue of the
session, both byte strings that hold contiguous frames. Whatever the session does,
frames only move from the first to the second, whole and in order. -/

namespace TerminalCanvas.Terminal

open Scrollback

/-- The raw log of a terminal and the grid that absorbed it. -/
structure RawLog where
  bytes : Bytes
  seq : Nat
  term : List Content
  termPoisoned : Bool

def PtyHandle.rawLog (pty : PtyHandle) : RawLog :=
  ⟨pty.pendingLog, pty.logSeq, pty.term, pty.termPoisoned⟩

@[simp] theorem PtyHandle.rawLog_setDaemonDurablePressure (pty : PtyHandle) (bytes : Nat) :
    (pty.setDaemonDurablePressure bytes).rawLog = pty.rawLog := rfl

@[simp] theorem PtyHandle.rawLog_chargeTransferredPending (pty : PtyHandle) (bytes : Nat) :
    (pty.chargeTransferredPending bytes).rawLog = pty.rawLog := by
  unfold chargeTransferredPending
  split
  · rfl
  · rfl

end TerminalCanvas.Terminal

namespace TerminalCanvas.Daemon

open Scrollback Terminal

/-! ## Whole frames -/

theorem follows_none {previousSeq : Option Nat} {frames : List Frame}
    (follows : Follows previousSeq frames) : Follows none frames := by
  cases frames with
  | nil => trivial
  | cons frame frames => exact ⟨follows.1, rfl, follows.2.2⟩

theorem decodeFrames_encodeFrames {frames : List Frame} (follows : Follows none frames) :
    decodeFrames (encodeFrames frames) = frames := by
  have read : readFrames (encodeHeader 0 ++ encodeFrames frames) = some (0, frames) :=
    readFrames_eq_some.mpr ⟨_, readFramesWithValidLen_encode 0 follows⟩
  exact decodeFrames_of_read read

/-- A drain takes whole frames off the front, whatever its budget. -/
theorem drainLogPrefix_encode {frames : List Frame} (follows : Follows none frames)
    (maxBytes : Option Nat) :
    ∃ taken left, frames = taken ++ left ∧
      drainLogPrefix (encodeFrames frames) maxBytes = (encodeFrames taken, encodeFrames left) := by
  by_cases zero : maxBytes = some 0
  · exact ⟨[], frames, rfl, by rw [drainLogPrefix, if_pos zero, encodeFrames_nil]⟩
  · obtain ⟨taken, left, drained, result⟩ := drainLogPrefix_drained follows.encodable zero
    exact ⟨taken, left, drained.whole, result⟩

/-! ## Numbered queues -/

/-- A byte string holds contiguous frames, the last of them with this number. -/
structure Holds (bytes : Bytes) (seq : Nat) (frames : List Frame) : Prop where
  encoded : bytes = encodeFrames frames
  follows : Follows none frames
  last : frames = [] ∨ lastSeq none frames = some seq

namespace Holds

variable {bytes : Bytes} {seq next : Nat} {frames : List Frame}

theorem empty (seq : Nat) : Holds [] seq [] := ⟨rfl, trivial, .inl rfl⟩

theorem continues (holds : Holds bytes seq frames) (advance : checkedAddU64 seq 1 = some next) :
    breaksSequence (lastSeq none frames) next = false := by
  rcases holds.last with empty | last
  · rw [empty]
    rfl
  · simp [last, breaksSequence, advance]

theorem push (holds : Holds bytes seq frames) (advance : checkedAddU64 seq 1 = some next)
    (kind : FrameKind) {payload : Bytes} (fits : payload.length < 2 ^ 32) :
    Holds (bytes ++ encodeFrame next kind payload) next (frames ++ [⟨next, kind, payload⟩]) := by
  have inRange : next ≤ u64Max := by
    obtain ⟨bound, rfl⟩ := checkedAddU64_eq_some.mp advance
    exact bound
  refine ⟨?_, ?_, .inr ?_⟩
  · rw [holds.encoded, encodeFrames_append]
    simp [Frame.encode]
  · exact follows_append.mpr
      ⟨holds.follows, ⟨inRange, fits⟩, holds.continues advance, trivial⟩
  · rw [lastSeq_append]
    rfl

theorem renumbered {start : Option Nat} {more : List Frame} (holds : Holds bytes seq frames)
    (follows : Follows start more) (room : seq + more.length ≤ u64Max) :
    Holds (bytes ++ encodeFrames (renumbered (seq + 1) more)) (seq + more.length)
      (frames ++ Scrollback.renumbered (seq + 1) more) := by
  induction more generalizing bytes seq frames start with
  | nil => simpa [Scrollback.renumbered] using holds
  | cons frame later induction =>
      rw [List.length_cons] at room ⊢
      have advance : checkedAddU64 seq 1 = some (seq + 1) :=
        checkedAddU64_eq_some.mpr ⟨by omega, rfl⟩
      have pushed := holds.push advance frame.kind follows.1.payload
      have queued := induction pushed follows.2.2 (by omega)
      have length : seq + 1 + later.length = seq + (later.length + 1) := by omega
      simpa [Scrollback.renumbered, Frame.encode, length] using queued

theorem rest {taken left : List Frame} (holds : Holds bytes seq (taken ++ left)) :
    Holds (encodeFrames left) seq left := by
  refine ⟨rfl, follows_none (follows_append.mp holds.follows).2, ?_⟩
  rcases holds.last with empty | last
  · exact .inl (List.append_eq_nil_iff.mp empty).2
  · cases left with
    | nil => exact .inl rfl
    | cons frame later =>
        rw [lastSeq_append] at last
        exact .inr last

end Holds

/-! ## Drains of the raw log -/

/-- Whole frames were taken off the front of the raw log. The grid is the same. -/
structure Gives (log next : RawLog) (frames : Bytes) : Prop where
  term : next.term = log.term
  termPoisoned : next.termPoisoned = log.termPoisoned
  seq : next.seq ≤ log.seq
  moved : ∀ raw, Holds log.bytes log.seq raw →
    ∃ moved left, raw = moved ++ left ∧ frames = encodeFrames moved ∧
      Holds next.bytes next.seq left

theorem gives_nothing (log : RawLog) : Gives log log [] where
  term := rfl
  termPoisoned := rfl
  seq := Nat.le_refl _
  moved raw holds := ⟨[], raw, rfl, rfl, holds⟩

/-- The whole raw log was taken, and its numbering may start again. -/
theorem gives_all (log : RawLog) {seq : Nat} (restarts : seq ≤ log.seq) :
    Gives log ⟨[], seq, log.term, log.termPoisoned⟩ log.bytes where
  term := rfl
  termPoisoned := rfl
  seq := restarts
  moved raw holds := ⟨raw, [], by simp, holds.encoded, Holds.empty seq⟩

/-- A prefix within a budget was taken, and an emptied log may start again. -/
theorem gives_prefix (log : RawLog) (maxBytes : Option Nat) {seq : Nat}
    (restarts : seq = log.seq ∨ ((drainLogPrefix log.bytes maxBytes).2 = [] ∧ seq = 0)) :
    Gives log ⟨(drainLogPrefix log.bytes maxBytes).2, seq, log.term, log.termPoisoned⟩
      (drainLogPrefix log.bytes maxBytes).1 where
  term := rfl
  termPoisoned := rfl
  seq := by
    rcases restarts with same | ⟨-, zero⟩
    · exact Nat.le_of_eq same
    · rw [zero]
      exact Nat.zero_le _
  moved := by
    intro raw holds
    obtain ⟨moved, left, split, drained⟩ := drainLogPrefix_encode holds.follows maxBytes
    rw [← holds.encoded] at drained
    rw [split] at holds
    refine ⟨moved, left, split, by rw [drained], ?_⟩
    rcases restarts with same | ⟨emptied, zero⟩
    · rw [same, drained]
      exact holds.rest
    · rw [drained] at emptied ⊢
      have none : left = [] := encodeFrames_eq_nil.mp emptied
      rw [none, zero]
      exact Holds.empty 0

variable {pty next : PtyHandle}

theorem gives_of_attach {Snapshot Error : Type}
    {takeSnapshot : List Content → Except Error Snapshot}
    {snapshot : Snapshot} {frames : Bytes}
    (taken : pty.tryAttachSnapshotAndDrain takeSnapshot = .ok (some (snapshot, frames), next)) :
    Gives pty.rawLog next.rawLog frames ∧ next.pendingLog = [] ∧ pty.termPoisoned = false ∧
      takeSnapshot pty.term = .ok snapshot := by
  unfold PtyHandle.tryAttachSnapshotAndDrain at taken
  split at taken
  · cases taken
  · next readable =>
      have healthy : pty.termPoisoned = false := by
        simp only [PtyHandle.snapshotBlocked, Bool.or_eq_true, not_or] at readable
        simpa using readable.2
      obtain ⟨value, exported, result⟩ := LeafFiles.bind_eq_ok.mp taken
      simp only [Except.ok.injEq, Prod.mk.injEq, Option.some.injEq] at result
      obtain ⟨⟨rfl, rfl⟩, rfl⟩ := result
      have charged := PtyHandle.rawLog_chargeTransferredPending
        { pty with pendingLog := [] } pty.pendingLog.length
      simp only [PtyHandle.rawLog, RawLog.mk.injEq] at charged
      have gives := gives_all pty.rawLog (Nat.zero_le _)
      refine ⟨?_, charged.1, healthy, exported⟩
      simpa [PtyHandle.rawLog, charged] using gives

theorem gives_of_update {Snapshot Error : Type} {alternateScreen : List Content → Bool}
    {maxBytes : Option Nat} {wasAlternate alternate : Bool}
    {takeSnapshot : List Content → Except Error Snapshot} {repair : Option Snapshot}
    {frames : Bytes}
    (taken : pty.tryOutputUpdate alternateScreen maxBytes wasAlternate takeSnapshot =
      .ok (some (frames, alternate, repair), next)) :
    Gives pty.rawLog next.rawLog frames := by
  unfold PtyHandle.tryOutputUpdate at taken
  split at taken
  · cases taken
  · obtain ⟨value, -, result⟩ := LeafFiles.bind_eq_ok.mp taken
    simp only [Except.ok.injEq, Prod.mk.injEq, Option.some.injEq] at result
    obtain ⟨⟨rfl, -, -⟩, rfl⟩ := result
    rw [PtyHandle.rawLog_chargeTransferredPending]
    exact gives_prefix pty.rawLog _ (.inl rfl)

theorem gives_of_capped (pty : PtyHandle) (maxBytes : Nat) :
    Gives pty.rawLog (pty.drainPendingLogCapped maxBytes).2.rawLog
      (pty.drainPendingLogCapped maxBytes).1 := by
  unfold PtyHandle.drainPendingLogCapped
  split
  · exact gives_nothing _
  · simp only
    split
    · next emptied =>
        have gives := gives_prefix pty.rawLog (some maxBytes)
          (.inr ⟨List.isEmpty_iff.mp emptied, rfl⟩)
        have charged := PtyHandle.rawLog_chargeTransferredPending
          { pty with pendingLog := (drainLogPrefix pty.pendingLog (some maxBytes)).2 }
          (drainLogPrefix pty.pendingLog (some maxBytes)).1.length
        simp only [PtyHandle.rawLog, RawLog.mk.injEq] at charged
        simpa [PtyHandle.rawLog, charged] using gives
    · rw [PtyHandle.rawLog_chargeTransferredPending]
      exact gives_prefix pty.rawLog (some maxBytes) (.inl rfl)

/-! ## The backlog -/

/-- How far a session has been closed. -/
structure Closing where
  requested : Bool
  captured : Bool
  finalCaptured : Bool

structure Backlog where
  durable : PtyHandle.DurableQueue
  raw : Option RawLog
  closing : Closing

namespace Backlog

/-- The frames of both queues. -/
def Holds (backlog : Backlog) (queued raw : List Frame) : Prop :=
  Daemon.Holds backlog.durable.pending backlog.durable.seq queued ∧
    match backlog.raw with
    | some log => Daemon.Holds log.bytes log.seq raw
    | none => raw = []

def SameGrid (log next : RawLog) : Prop :=
  next.term = log.term ∧ next.termPoisoned = log.termPoisoned ∧ next.seq ≤ log.seq

/-- Frames moved from the raw log to the durable queue. -/
structure Moved (backlog next : Backlog) (queued raw added left : List Frame) : Prop where
  closing : next.closing = backlog.closing
  grid : ∀ log, backlog.raw = some log → ∃ later, next.raw = some later ∧ SameGrid log later
  split : ∃ moved, raw = moved ++ left ∧ contents added = contents moved
  holds : next.Holds (queued ++ added) left
  /-- Numbers are only used up by frames. -/
  numbers : next.durable.seq + left.length ≤ backlog.durable.seq + raw.length

/-- While there are numbers for all frames, whole frames are moved, and nothing else
happens. -/
def Takes (backlog next : Backlog) : Prop :=
  ∀ queued raw, backlog.Holds queued raw → backlog.durable.seq + raw.length ≤ u64Max →
    ∃ added left, Moved backlog next queued raw added left

theorem Takes.refl (backlog : Backlog) : Takes backlog backlog := by
  intro queued raw holds _
  refine ⟨[], raw, rfl, ?_, ⟨[], rfl, rfl⟩, by simpa using holds, Nat.le_refl _⟩
  exact fun log present => ⟨log, present, rfl, rfl, Nat.le_refl _⟩

end Backlog

namespace DaemonSession

def backlog (session : DaemonSession) : Backlog where
  durable := ⟨session.persistPending, session.persistSeq⟩
  raw := session.handle.map fun shared => shared.pty.rawLog
  closing := ⟨session.retirementRequested, session.retirementCaptured,
    session.retirementFinalCaptured⟩

variable {session next : DaemonSession}

theorem OnlyDisplay.backlog (display : OnlyDisplay session next) :
    next.backlog = session.backlog := by
  rw [display]
  rfl

/-! ## Ingesting frames -/

theorem recordPersistFrame_backlog {seq : Nat} (session : DaemonSession)
    (advance : checkedAddU64 session.persistSeq 1 = some seq) (kind : FrameKind)
    (payload : Bytes) :
    (session.recordPersistFrame kind payload).backlog =
      ⟨⟨session.persistPending ++ encodeFrame seq kind payload, seq⟩, session.backlog.raw,
        session.backlog.closing⟩ := by
  unfold recordPersistFrame
  rw [advance]
  cases handle : session.handle with
  | none => simp [backlog, onPty, handle]
  | some shared => simp [backlog, onPty, handle]

theorem recordPersistFrame_raw (session : DaemonSession) (kind : FrameKind) (payload : Bytes) :
    (session.recordPersistFrame kind payload).backlog.raw = session.backlog.raw := by
  unfold recordPersistFrame
  split
  · rfl
  · cases handle : session.handle with
    | none => simp [backlog, onPty, handle]
    | some shared => simp [backlog, onPty, handle]

theorem ingestAll_raw (frames : List Frame) (collector : Collector) :
    (frames.foldl Collector.ingest collector).session.backlog.raw =
      collector.session.backlog.raw := by
  induction frames generalizing collector with
  | nil => rfl
  | cons frame later induction =>
      rw [List.foldl_cons, induction]
      unfold Collector.ingest
      split
      · rw [(addAll_display ..).backlog, recordPersistFrame_raw]
      · exact recordPersistFrame_raw ..

/-- Every frame of a batch is queued in order under a new number. -/
theorem ingestAll_backlog (moved : List Frame) (collector : Collector)
    (room : collector.session.persistSeq + moved.length ≤ u64Max) :
    (moved.foldl Collector.ingest collector).session.backlog =
      ⟨⟨collector.session.persistPending ++
          encodeFrames (renumbered (collector.session.persistSeq + 1) moved),
        collector.session.persistSeq + moved.length⟩,
        collector.session.backlog.raw, collector.session.backlog.closing⟩ := by
  induction moved generalizing collector with
  | nil => simp [renumbered, backlog]
  | cons frame later induction =>
      rw [List.length_cons] at room
      have advance : checkedAddU64 collector.session.persistSeq 1 =
          some (collector.session.persistSeq + 1) :=
        checkedAddU64_eq_some.mpr ⟨by omega, rfl⟩
      have recorded := recordPersistFrame_backlog collector.session advance frame.kind
        frame.payload
      have ingested : (collector.ingest frame).session.backlog =
          (collector.session.recordPersistFrame frame.kind frame.payload).backlog := by
        unfold Collector.ingest
        split
        · exact (addAll_display ..).backlog
        · rfl
      rw [recorded] at ingested
      have durable := congrArg Backlog.durable ingested
      simp only [backlog, PtyHandle.DurableQueue.mk.injEq] at durable
      rw [List.foldl_cons, induction (collector.ingest frame) (by rw [durable.2]; omega),
        ingested, durable.1, durable.2]
      simp [renumbered, Frame.encode, Nat.add_comm later.length, Nat.add_assoc]

theorem ingestPtyFrames_session (session : DaemonSession) (frames : Bytes) :
    ∃ ready, (session.ingestPtyFrames frames).2 =
      ((decodeFrames frames).foldl Collector.ingest
        ⟨{ session with outputReady := ready }, [], []⟩).finish.session :=
  ⟨_, rfl⟩

theorem ingestPtyFrames_raw (session : DaemonSession) (frames : Bytes) :
    (session.ingestPtyFrames frames).2.backlog.raw = session.backlog.raw := by
  obtain ⟨ready, ingested⟩ := ingestPtyFrames_session session frames
  rw [ingested, (finish_display _).backlog, ingestAll_raw]
  rfl

theorem takes_of_gives {shared : SharedPtyHandle} {pty : PtyHandle} {frames : Bytes}
    {drained shown : DaemonSession} (handle : session.handle = some shared)
    (gives : Gives shared.pty.rawLog pty.rawLog frames)
    (set : OnlyDisplay (session.setPty pty) drained)
    (display : OnlyDisplay (drained.ingestPtyFrames frames).2 shown) :
    session.backlog.Takes shown.backlog := by
  have before : session.backlog.raw = some shared.pty.rawLog := by simp [backlog, handle]
  have between : drained.backlog =
      ⟨⟨session.persistPending, session.persistSeq⟩, some pty.rawLog, session.backlog.closing⟩ := by
    rw [set.backlog]
    simp [backlog, setPty, onPty, handle]
  obtain ⟨ready, ingested⟩ := ingestPtyFrames_session drained frames
  have shows : shown.backlog = ((decodeFrames frames).foldl Collector.ingest
      ⟨{ drained with outputReady := ready }, [], []⟩).session.backlog := by
    rw [display.backlog, ingested, (finish_display _).backlog]
  intro queued raw holds room
  have held := holds.2
  rw [before] at held
  obtain ⟨moved, left, split, rfl, rest⟩ := gives.moved raw held
  have follows : Follows none moved := by
    rw [split] at held
    exact (follows_append.mp held.follows).1
  have durable := congrArg Backlog.durable between
  simp only [backlog, PtyHandle.DurableQueue.mk.injEq] at durable
  have lengths : raw.length = moved.length + left.length := by rw [split, List.length_append]
  have numbers : session.persistSeq + raw.length ≤ u64Max := room
  have behind := ingestAll_backlog moved ⟨{ drained with outputReady := ready }, [], []⟩
    (by simp only [durable.2]; omega)
  have result : shown.backlog =
      ⟨⟨session.persistPending ++ encodeFrames (renumbered (session.persistSeq + 1) moved),
        session.persistSeq + moved.length⟩, some pty.rawLog, session.backlog.closing⟩ := by
    have log : drained.backlog.raw = some pty.rawLog := by rw [between]
    have closing : drained.backlog.closing = session.backlog.closing := by rw [between]
    rw [shows, decodeFrames_encodeFrames follows, behind]
    exact (Backlog.mk.injEq ..).mpr ⟨by rw [← durable.1, ← durable.2], log, closing⟩
  rw [result]
  refine ⟨renumbered (session.persistSeq + 1) moved, left, rfl, ?_,
    ⟨moved, split, contents_renumbered _ _⟩, ⟨holds.1.renumbered follows ?_, rest⟩, ?_⟩
  · intro log present
    rw [before] at present
    cases present
    exact ⟨pty.rawLog, rfl, gives.term, gives.termPoisoned, gives.seq⟩
  · simp only [backlog]
    omega
  · simp only [backlog]
    omega

theorem OnlyDisplay.takes (display : OnlyDisplay session next) :
    session.backlog.Takes next.backlog := by
  rw [display.backlog]
  exact .refl _

/-! ## The operations that drain -/

section Drains

variable (host : Host) (id : Uuid) (lineLimit : Nat) (moment : Moment)

theorem attachBoundary_takes (session : DaemonSession) :
    session.backlog.Takes (session.attachBoundary host id lineLimit moment).2.backlog := by
  unfold attachBoundary
  split
  · exact .refl _
  · split
    · split
      · exact .refl _
      · exact .refl _
    · next shared handle =>
        split
        · exact (refuseLiveSnapshot_display ..).takes
        · simp only
          split
          · exact (refuseLiveSnapshot_display ..).takes
          · exact (refuseLiveSnapshot_display ..).takes
          · next taken =>
              have gives := (gives_of_attach taken).1
              split
              · exact takes_of_gives handle gives (display_settled ..) (numberRepair_display ..)
              · exact takes_of_gives handle gives (display_settled ..) (.refl _)

theorem pumpBoundary_gives {shared : SharedPtyHandle} {budget : Option Nat}
    {boundary : PumpBoundary} {pty : PtyHandle}
    (taken : session.pumpBoundary host shared id lineLimit budget moment = (.ok boundary, pty)) :
    Gives shared.pty.rawLog pty.rawLog boundary.frames := by
  unfold pumpBoundary at taken
  simp only at taken
  split at taken
  · cases taken
    exact gives_of_capped shared.pty rawOutputChunkBytes
  · split at taken
    · cases taken
    · split at taken
      · split at taken
        · cases taken
        · cases taken
        · next drained =>
            cases taken
            exact (gives_of_attach drained).1
      · split at taken
        · cases taken
        · cases taken
        · next drained =>
            cases taken
            exact gives_of_update drained

theorem pump_takes (session : DaemonSession) (interactiveBudget : Option Nat) :
    session.backlog.Takes
      (session.pump host id lineLimit interactiveBudget moment).2.backlog := by
  unfold pump
  split
  · exact .refl _
  · next shared handle =>
      simp only
      split
      · exact (refuseLiveSnapshot_display ..).takes
      · next taken =>
          have gives := pumpBoundary_gives host id lineLimit moment taken
          split
          · apply takes_of_gives handle gives (.refl _)
            split
            · exact .refl _
            · rfl
          · apply takes_of_gives handle gives (.refl _)
            exact (settledEvents_display ..).trans (reportAll_display ..)

/-- What a captured checkpoint covers: the grid at a boundary that left no frame
in the raw log. -/
structure Captures (session next : DaemonSession) (target : ScrollbackTarget) : Prop where
  drained : ∃ log, next.backlog.raw = some log ∧ log.bytes = []
  covers : ∃ log, session.backlog.raw = some log ∧ log.termPoisoned = false ∧
    target.covers = log.term
  pendingBytes : target.pendingBytes = next.persistPending.length

theorem checkpointExport_covers {metadata : Bytes} {term covers : List Content}
    {repair : Option Bytes} {alternate : Bool}
    (exported : checkpointExport host session metadata id lineLimit term =
      .ok (some covers, repair, alternate)) : covers = term := by
  obtain ⟨_, -, result⟩ := LeafFiles.bind_eq_ok.mp exported
  simp only [Except.ok.injEq, Prod.mk.injEq] at result
  have text := result.1
  split at text
  · cases text
  · cases text
    rfl

theorem takeDirtyTarget_takes (session : DaemonSession) :
    session.backlog.Takes (session.takeDirtyTarget host id lineLimit moment).2.backlog ∧
      ∀ target, (session.takeDirtyTarget host id lineLimit moment).1.target = some target →
        session.retirementRequested = false ∧
        session.Captures (session.takeDirtyTarget host id lineLimit moment).2 target := by
  have untargeted : ∀ (later : DaemonSession) (target : ScrollbackTarget), none = some target →
      session.retirementRequested = false ∧ session.Captures later target := by
    intro later target absurd
    cases absurd
  unfold takeDirtyTarget
  split
  · exact ⟨.refl _, untargeted _⟩
  · next due =>
      split
      · next shared _ handle =>
          split
          · exact ⟨.refl _, untargeted _⟩
          · split
            · exact ⟨(refuseLiveSnapshot_display ..).takes, untargeted _⟩
            · simp only
              split
              · exact ⟨(refuseLiveSnapshot_display ..).takes, untargeted _⟩
              · exact ⟨(refuseLiveSnapshot_display ..).takes, untargeted _⟩
              · next text repair alternate frames pty taken =>
                  obtain ⟨gives, emptied, healthy, exported⟩ := gives_of_attach taken
                  split
                  · refine ⟨?_, untargeted _⟩
                    exact takes_of_gives handle gives (.refl _) (settledEvents_display ..)
                  · next covers =>
                      have display := (settledEvents_display
                        ((session.setPty pty).ingestPtyFrames frames).2 alternate id
                        ((session.setPty pty).ingestPtyFrames frames).1 repair).trans
                        (display_clean _)
                      refine ⟨takes_of_gives handle gives (.refl _) display, ?_⟩
                      intro target isTarget
                      cases isTarget
                      have log : (session.setPty pty).backlog.raw = some pty.rawLog := by
                        simp [backlog, setPty, onPty, handle]
                      refine ⟨by simpa using (not_or.mp due).1, ?_, ?_, ?_⟩
                      · refine ⟨pty.rawLog, ?_, emptied⟩
                        rw [display.backlog, ingestPtyFrames_raw, log]
                      · exact ⟨shared.pty.rawLog, by simp [backlog, handle], healthy,
                          checkpointExport_covers host id lineLimit exported⟩
                      · rfl
      · exact ⟨.refl _, untargeted _⟩

end Drains

/-! ## The retirement -/

/-- A transfer moves the whole raw log, or nothing. -/
inductive Transfers (pty : PtyHandle) (durable : PtyHandle.DurableQueue) :
    Except IoError Bool × PtyHandle.DurableQueue × PtyHandle → Prop
  | nothing {result} (kept : result.toOption.getD false = false) :
      Transfers pty durable (result, durable, pty)
  | everything {hasDestination later next}
      (moved : pty.transferRetirementFrames durable hasDestination = .ok (true, later, next)) :
      Transfers pty durable (.ok true, later, next)

theorem transfers_frames (pty : PtyHandle) (durable : PtyHandle.DurableQueue)
    (hasDestination : Bool) :
    Transfers pty durable (match pty.transferRetirementFrames durable hasDestination with
      | .error error => (.error error, durable, pty)
      | .ok (moved, durable, pty) => (.ok moved, durable, pty)) := by
  cases transfer : pty.transferRetirementFrames durable hasDestination with
  | error error => exact .nothing rfl
  | ok result =>
      rcases result with ⟨moved, later, next⟩
      cases moved with
      | true => exact .everything transfer
      | false =>
          unfold PtyHandle.transferRetirementFrames at transfer
          split at transfer
          · cases transfer
          · split at transfer
            · cases transfer
              exact .nothing rfl
            · split at transfer
              · cases transfer
              · split at transfer
                · cases transfer
                · split at transfer
                  · cases transfer
                  · cases transfer

theorem transfers_front (pty : PtyHandle) (durable : PtyHandle.DurableQueue)
    (hasDestination : Bool) :
    Transfers pty.claimRetirementLogOwner durable
      (pty.takeRetirementPrefix durable hasDestination) := by
  unfold PtyHandle.takeRetirementPrefix
  simp only
  split
  · exact .nothing rfl
  · exact .nothing rfl
  · exact transfers_frames ..

theorem transfers_tail (pty : PtyHandle) (durable : PtyHandle.DurableQueue)
    (hasDestination : Bool) :
    Transfers pty durable (pty.takeRetirementTail durable hasDestination) := by
  unfold PtyHandle.takeRetirementTail
  split
  · exact .nothing rfl
  · split
    · exact .nothing rfl
    · exact transfers_frames ..

theorem transferRetirementFrames_moves {pty moved : PtyHandle}
    {durable later : PtyHandle.DurableQueue} {hasDestination : Bool} {raw : List Frame}
    (transfer : pty.transferRetirementFrames durable hasDestination = .ok (true, later, moved))
    (log : Daemon.Holds pty.pendingLog pty.logSeq raw) :
    durable.seq + raw.length ≤ u64Max ∧
      later = ⟨durable.pending ++ encodeFrames (renumbered (durable.seq + 1) raw),
        durable.seq + raw.length⟩ ∧
      moved = { pty with pendingLog := [] }.setDaemonDurablePressure later.pending.length := by
  unfold PtyHandle.transferRetirementFrames at transfer
  rw [log.encoded, readFramesWithValidLen_encode 0 log.follows] at transfer
  split at transfer
  · cases transfer
  · split at transfer
    · cases transfer
    · dsimp only at transfer
      split at transfer
      · cases transfer
      · split at transfer
        · cases transfer
        · next room =>
            cases transfer
            exact ⟨Nat.le_of_not_lt room, rfl, rfl⟩

theorem transferred_takes {shared : SharedPtyHandle} {claimed : PtyHandle}
    {transfer : Except IoError Bool × PtyHandle.DurableQueue × PtyHandle}
    (handle : session.handle = some shared) (log : claimed.rawLog = shared.pty.rawLog)
    (transfers : Transfers claimed ⟨session.persistPending, session.persistSeq⟩ transfer) :
    session.backlog.Takes (session.transferred transfer).2.backlog := by
  have before : session.backlog.raw = some claimed.rawLog := by simp [backlog, handle, log]
  cases transfers with
  | @nothing result kept =>
      have same : (session.transferred (result, ⟨session.persistPending, session.persistSeq⟩,
          claimed)).2.backlog = session.backlog := by
        simp [transferred, backlog, setPty, onPty, handle, log]
      rw [same]
      exact .refl _
  | everything moved =>
      intro queued raw holds room
      have held := holds.2
      rw [before] at held
      obtain ⟨-, rfl, rfl⟩ := transferRetirementFrames_moves moved held
      refine ⟨renumbered (session.persistSeq + 1) raw, [], rfl, ?_,
        ⟨raw, by simp, contents_renumbered _ _⟩,
        ⟨holds.1.renumbered held.follows room, ?_⟩, ?_⟩
      · intro later present
        rw [before] at present
        cases present
        refine ⟨_, by simp [transferred, backlog, setPty, onPty, handle]; rfl, ?_⟩
        exact ⟨rfl, rfl, Nat.le_refl _⟩
      · simp only [transferred, backlog, setPty, onPty, handle, Option.map_some]
        exact Holds.empty _
      · simp [transferred, backlog]

end DaemonSession

end TerminalCanvas.Daemon
