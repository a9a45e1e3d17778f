import TerminalCanvas.Daemon.Session

/-! # What a session shows

Numbering, snapshots, refusals and reports change only what the session shows to
its clients: neither its terminal, nor its durable queue, nor who may close it. -/

namespace TerminalCanvas.Daemon

open Scrollback Terminal

namespace DaemonSession

/-- Only what is shown to clients differs. -/
def OnlyDisplay (session next : DaemonSession) : Prop :=
  next = { session with
    snapshot := next.snapshot
    seq := next.seq
    alive := next.alive
    scrollbackDirty := next.scrollbackDirty
    lastMetadata := next.lastMetadata
    wasAlternate := next.wasAlternate
    lastInputError := next.lastInputError
    liveRepair := next.liveRepair
    outputReady := next.outputReady }

theorem OnlyDisplay.refl (session : DaemonSession) : OnlyDisplay session session := rfl

theorem OnlyDisplay.trans {first second third : DaemonSession} (former : OnlyDisplay first second)
    (latter : OnlyDisplay second third) : OnlyDisplay first third := by
  rw [OnlyDisplay, latter, former]

variable (session : DaemonSession)

theorem display_numbered (seq : Nat) (snapshot : Bytes) (dirty : Bool) :
    OnlyDisplay session
      { session with seq := seq, snapshot := snapshot, scrollbackDirty := dirty } := rfl

theorem display_settled (alternate : Bool) (repair : Option LiveRepairPending) :
    OnlyDisplay session { session with wasAlternate := alternate, liveRepair := repair } := rfl

theorem display_clean : OnlyDisplay session { session with scrollbackDirty := false } := rfl

theorem pushOutputEvent_display (data : Bytes) :
    OnlyDisplay session (session.pushOutputEvent data) :=
  display_numbered ..

theorem refuseLiveSnapshot_display (kind : SnapshotFailureKind) (now : Nat) :
    OnlyDisplay session (session.refuseLiveSnapshot kind now) := rfl

/-! ## Collected output -/

theorem flush_display (collector : Collector) :
    OnlyDisplay collector.session collector.flush.session :=
  pushOutputEvent_display ..

theorem add_display (collector : Collector) (bytes : Bytes) :
    OnlyDisplay collector.session (collector.add bytes).session := by
  unfold Collector.add
  simp only
  split
  · exact flush_display collector
  · exact .refl _

theorem addAll_display (collector : Collector) (pieces : List Bytes) :
    OnlyDisplay collector.session (pieces.foldl Collector.add collector).session := by
  induction pieces generalizing collector with
  | nil => exact .refl _
  | cons bytes pieces induction => exact (add_display collector bytes).trans (induction _)

theorem finish_display (collector : Collector) :
    OnlyDisplay collector.session collector.finish.session := by
  unfold Collector.finish
  split
  · exact .refl _
  · exact flush_display collector

/-! ## Repairs and reports -/

theorem numberRepair_display (output : List (Nat × Bytes)) (snapshot : Bytes) :
    OnlyDisplay session (session.numberRepair output snapshot).2 := by
  unfold numberRepair
  split
  · exact .refl _
  · exact pushOutputEvent_display ..

theorem pushChunks_display (pieces : List Bytes) :
    OnlyDisplay session (session.pushChunks pieces).2 := by
  induction pieces generalizing session with
  | nil => exact .refl _
  | cons data later induction =>
      simp only [pushChunks]
      exact (pushOutputEvent_display session data).trans (induction _)

theorem liveEvents_display (id : Uuid) (output : List (Nat × Bytes))
    (replacement : Option Bytes) :
    OnlyDisplay session (session.liveEvents id output replacement).2 := by
  unfold liveEvents
  split
  · exact numberRepair_display ..
  · exact .refl _

theorem settledEvents_display (alternate : Bool) (id : Uuid) (output : List (Nat × Bytes))
    (repair : Option Bytes) :
    OnlyDisplay session ({ session with wasAlternate := alternate, liveRepair := none }.liveEvents
      id output repair).2 :=
  (display_settled session alternate none).trans (liveEvents_display ..)

theorem reportInputError_display (pty : PtyHandle) (id : Uuid) :
    OnlyDisplay session (session.reportInputError pty id).2 := by
  unfold reportInputError
  split
  · split
    · rfl
    · exact .refl _
  · exact .refl _

theorem reportMetadata_display (host : Host) (pty : PtyHandle) :
    OnlyDisplay session (session.reportMetadata host pty).2 := by
  unfold reportMetadata
  simp only
  split
  · have noted : OnlyDisplay session
        { session with lastMetadata := host.metadataOsc pty.metadata none } := rfl
    exact noted.trans (pushChunks_display ..)
  · exact .refl _

theorem reportExit_display (alive : Bool) (id : Uuid) :
    OnlyDisplay session (session.reportExit alive id).2 := by
  unfold reportExit
  split
  · rfl
  · exact .refl _

theorem reportAll_display (host : Host) (alive : Bool) (id : Uuid) :
    OnlyDisplay session (session.reportAll host alive id).2 := by
  unfold reportAll
  split
  · split
    · exact reportExit_display ..
    · exact ((reportInputError_display ..).trans (reportMetadata_display ..)).trans
        (reportExit_display ..)
  · exact reportExit_display ..

end DaemonSession

end TerminalCanvas.Daemon
