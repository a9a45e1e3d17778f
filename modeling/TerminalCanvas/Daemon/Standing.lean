import TerminalCanvas.Daemon.Census
import TerminalCanvas.Daemon.Display

/-! # The standing of a session

Who created a session, who adopted it, whether it is retiring, and which leaf it
manages. Output, snapshots, captures and broadcasts leave every standing alone;
only spawning, attaching and closing change it. -/

namespace TerminalCanvas.Daemon

open HookAuthority Scrollback Terminal

namespace DaemonSession

def standing (session : DaemonSession) : Standing where
  birthClient := session.birthClient
  adopters := session.adopters
  retiring := session.retirementRequested
  target := hostTargetFromSpec session.spec
  hookGeneration := session.spec.hookGeneration

variable (session : DaemonSession)

/-! ## Operations on one session -/

theorem OnlyDisplay.standing {session next : DaemonSession} (display : OnlyDisplay session next) :
    next.standing = session.standing := by
  rw [display]
  rfl

theorem standing_adopt (clientId : Uuid) :
    (session.adopt clientId).standing = session.standing.adopt clientId := rfl

@[simp] theorem standing_setPty (pty : PtyHandle) :
    (session.setPty pty).standing = session.standing := by
  simp only [standing, setPty, onPty]

@[simp] theorem standing_recordPersistFrame (kind : FrameKind) (payload : Bytes) :
    (session.recordPersistFrame kind payload).standing = session.standing := by
  unfold recordPersistFrame
  split
  · simp only [standing]
  · simp only [standing, onPty]

theorem standing_ingest (collector : Collector) (frame : Frame) :
    (collector.ingest frame).session.standing = collector.session.standing := by
  unfold Collector.ingest
  split
  · rw [(addAll_display ..).standing, standing_recordPersistFrame]
  · exact standing_recordPersistFrame ..

theorem standing_ingestAll (collector : Collector) (frames : List Frame) :
    (frames.foldl Collector.ingest collector).session.standing =
      collector.session.standing := by
  induction frames generalizing collector with
  | nil => rfl
  | cons frame frames induction => rw [List.foldl_cons, induction, standing_ingest]

@[simp] theorem standing_ingestPtyFrames (frames : Bytes) :
    (session.ingestPtyFrames frames).2.standing = session.standing := by
  change (Collector.finish _).session.standing = _
  rw [(finish_display _).standing, standing_ingestAll]
  simp only [standing]

@[simp] theorem standing_acknowledgePersisted (writtenBytes : Nat) :
    (session.acknowledgePersisted writtenBytes).standing = session.standing := by
  unfold acknowledgePersisted
  simp only
  split
  · simp only [standing, onPty]
  · simp only [standing, onPty]

theorem standing_drained (pty : PtyHandle) (frames : Bytes) {shown : DaemonSession}
    (display : OnlyDisplay ((session.setPty pty).ingestPtyFrames frames).2 shown) :
    shown.standing = session.standing := by
  rw [display.standing, standing_ingestPtyFrames, standing_setPty]

@[simp] theorem standing_attachBoundary (host : Host) (id : Uuid) (lineLimit : Nat)
    (moment : Moment) :
    (session.attachBoundary host id lineLimit moment).2.standing = session.standing := by
  unfold attachBoundary
  split
  · rfl
  · split
    · split
      · rfl
      · rfl
    · split
      · exact (refuseLiveSnapshot_display ..).standing
      · simp only
        split
        · exact (refuseLiveSnapshot_display ..).standing
        · exact (refuseLiveSnapshot_display ..).standing
        · split
          · rw [(numberRepair_display ..).standing, standing_ingestPtyFrames]
            simp only [standing, setPty, onPty]
          · rw [standing_ingestPtyFrames]
            simp only [standing, setPty, onPty]

@[simp] theorem standing_pump (host : Host) (id : Uuid) (lineLimit : Nat)
    (interactiveBudget : Option Nat) (moment : Moment) :
    (session.pump host id lineLimit interactiveBudget moment).2.standing =
      session.standing := by
  unfold pump
  split
  · rfl
  · simp only
    split
    · rfl
    · split
      · apply standing_drained
        split
        · exact .refl _
        · rfl
      · rw [(reportAll_display ..).standing, (liveEvents_display ..).standing]
        apply standing_drained
        rfl

@[simp] theorem standing_takeDirtyTarget (host : Host) (id : Uuid) (lineLimit : Nat)
    (moment : Moment) :
    (session.takeDirtyTarget host id lineLimit moment).2.standing = session.standing := by
  unfold takeDirtyTarget
  split
  · rfl
  · split
    · split
      · rfl
      · split
        · rfl
        · simp only
          split
          · rfl
          · rfl
          · split
            · rw [(liveEvents_display ..).standing]
              apply standing_drained
              rfl
            · change (DaemonSession.liveEvents _ _ _ _).2.standing = _
              rw [(liveEvents_display ..).standing]
              apply standing_drained
              rfl
    · rfl

/-! A retirement moves frames and flags, nothing else. -/

@[simp] theorem standing_transferred
    (transfer : Except IoError Bool × PtyHandle.DurableQueue × PtyHandle) :
    (session.transferred transfer).2.standing = session.standing := by
  simp only [standing, transferred, setPty, onPty]

theorem standing_capturePrefix (pty : PtyHandle) :
    (session.capturePrefix pty).2.standing = session.standing := by
  unfold capturePrefix
  split
  · rfl
  · exact standing_transferred session (pty.takeRetirementPrefix
      ⟨session.persistPending, session.persistSeq⟩ session.historyPanel.isSome)

theorem standing_startDrain (closerStarts : Bool) :
    (session.startDrain closerStarts).2.standing = session.standing := by
  unfold startDrain
  split
  · rfl
  · split
    · rfl
    · split
      · rfl
      · split
        · next pty _ => exact standing_setPty session pty
        · next pty _ => exact standing_setPty session pty

theorem standing_captureTail : session.captureTail.standing = session.standing := by
  unfold captureTail
  split
  · rfl
  · next shared _ =>
      have taken := standing_transferred session (shared.pty.takeRetirementTail
        ⟨session.persistPending, session.persistSeq⟩ session.historyPanel.isSome)
      simp only
      split
      · exact taken
      · exact taken

theorem standing_requestRetirement :
    session.requestRetirement.standing = session.standing.retire := by
  unfold requestRetirement
  simp only
  split
  · rfl
  · rfl

@[simp] theorem standing_captureRetirement (closerStarts : Bool) :
    (session.captureRetirement closerStarts).standing = session.standing := by
  unfold captureRetirement
  split
  · rfl
  · split
    · rfl
    · next shared _ =>
        simp only
        split
        · split
          · rw [standing_captureTail, standing_startDrain, standing_capturePrefix]
          · rw [standing_startDrain, standing_capturePrefix]
        · exact standing_capturePrefix session shared.pty

end DaemonSession

end TerminalCanvas.Daemon
