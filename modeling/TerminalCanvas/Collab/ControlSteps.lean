import Mathlib.Logic.Relation
import TerminalCanvas.Collab.Manager

/-! # The control state step by step

Whatever an operation of the host does to its control state is a sequence of a few
elementary changes. A report of the broker also replaces the guests. -/

namespace TerminalCanvas.Collab.Sharing

open Execution

inductive ControlStep (host : HostSessionContext) : HostSessionContext → Prop where
  | frame (next : HostSessionContext) (guests : next.guests = host.guests)
      (pending : next.pendingControlRequests = host.pendingControlRequests)
      (controls : next.terminalControls = host.terminalControls) : ControlStep host next
  | give (terminalId : Uuid) (guestId : GuestId)
      (allowed : host.allowsControlTarget terminalId guestId = true)
      (requested : host.isRequested terminalId guestId = true) :
      ControlStep host (host.giveControl terminalId guestId)
  | take (terminalId : Uuid) : ControlStep host (host.takeControl terminalId)
  | note (request : ControlRequest) : ControlStep host (host.noteControlRequest request)
  | forget (guestId : GuestId) : ControlStep host (host.forgetRequests guestId)
  | reconcile (panels : List SharedPanelSnapshot) : ControlStep host (host.reconcile panels)

abbrev ControlSteps : HostSessionContext → HostSessionContext → Prop :=
  Relation.ReflTransGen ControlStep

theorem ControlSteps.of_frame {host next : HostSessionContext}
    (guests : next.guests = host.guests)
    (pending : next.pendingControlRequests = host.pendingControlRequests)
    (controls : next.terminalControls = host.terminalControls) : ControlSteps host next :=
  .single (.frame next guests pending controls)

theorem ControlSteps.preserves {Invariant : HostSessionContext → Prop}
    (preserved : ∀ {host next}, ControlStep host next → Invariant host → Invariant next)
    {host next : HostSessionContext} (steps : ControlSteps host next) (holds : Invariant host) :
    Invariant next := by
  induction steps with
  | refl => exact holds
  | tail earlier last induction => exact preserved last induction

/-! ## Operations of the host -/

section Operations

variable (foreign : Foreign)

theorem controlSteps_sendHostPayload (sending : Sending) (payload : SessionPayload) :
    ControlSteps sending.host (sendHostPayload foreign sending payload).2.host :=
  .of_frame rfl rfl rfl

theorem controlSteps_sendSessionRekeyed (sending : Sending) (newSessionSecret : String)
    (now : Instant) :
    ControlSteps sending.host
      (sendSessionRekeyed foreign sending newSessionSecret now).2.host := by
  have notice := controlSteps_sendHostPayload foreign sending (.sessionRekeyed newSessionSecret)
  unfold sendSessionRekeyed
  split <;> next after outcome =>
    rw [outcome] at notice
    exact notice.trans (ControlSteps.of_frame rfl rfl rfl)

theorem controlSteps_sendRekeyRecoveryIfDue (sending : Sending) (now : Instant) :
    ControlSteps sending.host (sendRekeyRecoveryIfDue foreign sending now).host := by
  unfold sendRekeyRecoveryIfDue
  split
  · exact .refl
  · split
    · exact .of_frame rfl rfl rfl
    · split
      · exact .refl
      · split
        · exact .of_frame rfl rfl rfl
        · next previous _ =>
            have queued : ControlSteps sending.host (queuePayload foreign sending previous
              (.sessionRekeyed sending.host.sessionSecret)).2.host := .of_frame rfl rfl rfl
            unfold sendRekeyRecovery
            split <;> next outcome =>
              rw [outcome] at queued
              exact queued.trans (ControlSteps.of_frame rfl rfl rfl)

theorem controlSteps_sendSnapshot (sending : Sending) (snapshot : SharedWorkspaceSnapshot)
    (now : Instant) :
    ControlSteps sending.host (sendSnapshot foreign sending snapshot now).host := by
  have queued : ControlSteps sending.host (queuePayload foreign sending
    sending.host.sessionSecret (.workspaceSnapshot snapshot)).2.host := .of_frame rfl rfl rfl
  unfold sendSnapshot
  split <;> next outcome =>
    rw [outcome] at queued
    exact queued.trans (ControlSteps.of_frame rfl rfl rfl)

theorem controlSteps_publishSnapshot (sending : Sending) (snapshot : SharedWorkspaceSnapshot)
    (recoveryNow now : Instant) :
    ControlSteps sending.host
      (publishSnapshot foreign sending snapshot recoveryNow now).host := by
  apply (controlSteps_sendRekeyRecoveryIfDue foreign sending recoveryNow).trans
  rw [publishSnapshot]
  generalize sendRekeyRecoveryIfDue foreign sending recoveryNow = recovered
  apply Relation.ReflTransGen.head (.reconcile snapshot.panels)
  unfold publishReconciled
  dsimp only
  split
  · exact .refl
  · split
    · exact controlSteps_sendSnapshot foreign
        { recovered with host := recovered.host.reconcile snapshot.panels } _ now
    · exact .refl

theorem controlSteps_grantControl (sending : Sending) (terminalId : Uuid) (guestId : GuestId)
    (utcNow : DateTime) :
    ControlSteps sending.host
      (grantControl foreign sending terminalId guestId utcNow).host := by
  unfold grantControl
  split
  · next guarded =>
      obtain ⟨allowed, requested⟩ := Bool.and_eq_true_iff.mp guarded
      apply Relation.ReflTransGen.head (.give terminalId guestId allowed requested)
      exact controlSteps_sendHostPayload foreign
        { sending with host := sending.host.giveControl terminalId guestId } _
  · exact .refl

theorem controlSteps_revokeControl (sending : Sending) (terminalId : Uuid) (reason : String) :
    ControlSteps sending.host (revokeControl foreign sending terminalId reason).host := by
  apply Relation.ReflTransGen.head (.take terminalId)
  exact controlSteps_sendHostPayload foreign
    { sending with host := sending.host.takeControl terminalId } _

theorem controlSteps_foldl {Item : Type} {operation : Sending → Item → Sending}
    (steps : ∀ (sending : Sending) (item : Item),
      ControlSteps sending.host (operation sending item).host)
    (items : List Item) (sending : Sending) :
    ControlSteps sending.host (items.foldl operation sending).host := by
  induction items generalizing sending with
  | nil => exact .refl
  | cons item items induction => exact (steps sending item).trans (induction _)

theorem controlSteps_releaseControlsForGuest (sending : Sending) (guestId : GuestId) :
    ControlSteps sending.host (releaseControlsForGuest foreign sending guestId).host := by
  have revoked := controlSteps_foldl (fun sending terminalId =>
      controlSteps_revokeControl foreign sending terminalId "Guest disconnected")
    ((sending.host.terminalControls.rows.filter (·.controller = some guestId)).map
      (·.terminalId)) sending
  exact revoked.tail (.forget guestId)

theorem controlSteps_takeRevocation (sending : Sending) (revoke : ControlRevoke) :
    ControlSteps sending.host
      (CollabManager.takeRevocation foreign revoke sending).host := by
  unfold CollabManager.takeRevocation
  split
  · exact controlSteps_revokeControl foreign sending _ _
  · exact .refl

theorem controlSteps_hostPresence (sending : Sending) (guests : List GuestPresence) :
    ControlSteps (CollabManager.recordGuests guests sending.host)
      (CollabManager.hostPresence foreign guests sending).host :=
  controlSteps_foldl (controlSteps_releaseControlsForGuest foreign)
    (CollabManager.goneGuests sending.host.guests
      (CollabManager.recordGuests guests sending.host) guests)
    { sending with host := CollabManager.recordGuests guests sending.host }

end Operations

/-! ## Calls of the manager -/

namespace CollabManager

/-- A host of the next state comes out of the host before by steps of its control state. -/
def StepsTo (manager next : CollabManager) : Prop :=
  ∀ after, next.host = some after →
    ∃ before, manager.host = some before ∧ ControlSteps before after

inductive ControlChange (foreign : Foreign) (manager : CollabManager) (call : Call)
    (next : CollabManager) : Prop where
  | steps (related : manager.StepsTo next) (unreported : ∀ guests,
      call ≠ .brokerMessage (.presence guests)) (continues : ∀ start,
      call ≠ .startHostSession start)
  | started (start : Option HostStart) (called : call = .startHostSession start)
      (begun : next.host = start.map .new)
  | reported (guests : List GuestPresence) (called : call = .brokerMessage (.presence guests))
      (recorded : next.host = manager.host.map fun host =>
        (hostPresence foreign guests ⟨host, manager.transport, manager.lastError⟩).host)

section Steps

variable {foreign : Foreign} {manager next : CollabManager}

theorem StepsTo.of_host (same : next.host = manager.host) : manager.StepsTo next :=
  fun after hosting => ⟨after, same ▸ hosting, .refl⟩

theorem StepsTo.of_none (gone : next.host = none) : manager.StepsTo next := by
  intro after hosting
  rw [gone] at hosting
  cases hosting

theorem stepsTo_withHost {operation : Sending → Sending}
    (steps : ∀ sending : Sending, ControlSteps sending.host (operation sending).host) :
    manager.StepsTo (manager.withHost operation) := by
  unfold withHost
  split
  · exact .of_host rfl
  · next host hosting =>
      rintro after ⟨⟩
      exact ⟨host, hosting, steps ⟨host, manager.transport, manager.lastError⟩⟩

theorem stepsTo_updateHost {change : HostSessionContext → HostSessionContext}
    (steps : ∀ host, ControlSteps host (change host)) :
    manager.StepsTo (manager.updateHost change) := by
  intro after hosting
  obtain ⟨before, hosted, rfl⟩ := Option.map_eq_some_iff.mp hosting
  exact ⟨before, hosted, steps before⟩

theorem StepsTo.trans {middle : CollabManager} (first : manager.StepsTo middle)
    (second : middle.StepsTo next) : manager.StepsTo next := by
  intro after hosting
  obtain ⟨between, hosted, steps⟩ := second after hosting
  obtain ⟨before, hostedBefore, earlier⟩ := first between hosted
  exact ⟨before, hostedBefore, earlier.trans steps⟩

theorem stepsTo_restorePendingJoin (guestId : GuestId) (removed : Option JoinRequest) :
    manager.StepsTo (manager.restorePendingJoin guestId removed) := by
  apply stepsTo_updateHost
  intro host
  cases removed with
  | none => exact .refl
  | some request =>
      dsimp only
      split
      · exact .of_frame rfl rfl rfl
      · exact .refl

theorem stepsTo_rotated (inviteSecret : String) (inviteExpiresAt : Option DateTime)
    (newSessionSecret : String) (now : Instant) :
    manager.StepsTo
      (manager.rotated foreign inviteSecret inviteExpiresAt newSessionSecret now) := by
  have rekeyed : manager.StepsTo (manager.withHost fun sending =>
      (sendSessionRekeyed foreign sending newSessionSecret now).2) :=
    stepsTo_withHost fun sending =>
      controlSteps_sendSessionRekeyed foreign sending newSessionSecret now
  exact rekeyed.trans (stepsTo_updateHost fun host => .of_frame rfl rfl rfl)

theorem stepsTo_applyHttpOutcome (op : CollabHttpOp) (result : HttpResult) (now : Instant) :
    manager.StepsTo (manager.applyHttpOutcome foreign op result now) := by
  cases op with
  | approveJoin guestId removed | denyJoin guestId removed =>
      cases result with
      | error message =>
          have restored := @stepsTo_restorePendingJoin manager guestId removed
          exact restored
      | ok | joined answer => exact .of_host rfl
  | rotateInvite inviteSecret inviteExpiresAt newSessionSecret =>
      cases result with
      | error message => exact .of_host rfl
      | ok | joined answer => exact stepsTo_rotated inviteSecret inviteExpiresAt _ now
  | joinSession invite displayName =>
      cases result with
      | ok | error message => exact .of_host rfl
      | joined answer =>
          simp only [applyHttpOutcome, completeJoin]
          split <;> exact .of_host rfl

theorem stepsTo_jobDone (index : Nat) (result : HttpResult) (now : Instant) :
    manager.StepsTo (manager.jobDone foreign index result now) := by
  unfold jobDone
  split
  · exact .of_host rfl
  · next job _ =>
      dsimp only
      split
      · have applied := @stepsTo_applyHttpOutcome foreign
          { manager with jobs := manager.jobs.eraseIdx index } job.op result now
        exact applied
      · exact .of_host rfl

theorem stepsTo_handleConnected : manager.StepsTo manager.handleConnected := by
  unfold handleConnected
  split
  · exact .of_host rfl
  · split
    · have forgotten := @stepsTo_updateHost manager _ (fun host =>
        @ControlSteps.of_frame host { host with
          lastSnapshot := none, lastRekeyRecoveryAt := none } rfl rfl rfl)
      exact forgotten
    · exact .of_host rfl
    · exact .of_host rfl

theorem stepsTo_applyPayload (sender : ParticipantId) (payload : SessionPayload) :
    manager.StepsTo (manager.applyPayload foreign sender payload) := by
  cases payload with
  | workspaceSnapshot snapshot => exact .of_host rfl
  | controlRequest request =>
      exact stepsTo_updateHost fun host => .single (.note request)
  | controlGrant grant => exact .of_host rfl
  | controlRevoke revoke =>
      simp only [applyPayload]
      split
      · exact stepsTo_withHost fun sending =>
          controlSteps_takeRevocation foreign sending revoke
      · exact .of_host rfl
  | guestInput input => cases sender <;> exact .of_host rfl
  | sessionRekeyed newSessionSecret => exact .of_host rfl

theorem stepsTo_handleBinaryMessage (binary : Bytes) :
    manager.StepsTo (manager.handleBinaryMessage foreign binary).1 := by
  unfold handleBinaryMessage
  split
  · exact .of_host rfl
  · split
    · exact .of_host rfl
    · next received _ =>
        have applied := @stepsTo_applyPayload foreign
          { manager with receivedMessageSeq := received }
        exact applied _ _

theorem stepsTo_handleBrokerMessage (message : BrokerControlMessage)
    (unreported : ∀ guests, message ≠ .presence guests) :
    manager.StepsTo (manager.handleBrokerMessage foreign message) := by
  cases message with
  | connected role => exact stepsTo_handleConnected
  | joinRequested request =>
      apply stepsTo_updateHost
      intro host
      split
      · exact .refl
      · exact .of_frame rfl rfl rfl
  | presence guests => exact absurd rfl (unreported guests)
  | sessionEnded | error message => exact .of_host rfl
  | joinApproved decision | joinDenied decision | hostDisconnected | hostReconnected =>
      simp only [handleBrokerMessage]
      split <;> exact .of_host rfl

theorem host_handlePresence (guests : List GuestPresence) :
    (manager.handlePresence foreign guests).host = manager.host.map fun host =>
      (hostPresence foreign guests ⟨host, manager.transport, manager.lastError⟩).host := by
  unfold handlePresence withHost
  cases hosting : manager.host with
  | none => exact hosting
  | some host => rfl

theorem controlChange_perform (manager : CollabManager) (call : Call) :
    ControlChange foreign manager call (manager.perform foreign call).nextState := by
  cases call with
  | startHostSession start => exact .started start rfl (by cases start <;> rfl)
  | joinSession invite displayName =>
      exact .steps (.of_none (by cases invite <;> rfl)) (by simp) (by simp)
  | stopSession => exact .steps (.of_none rfl) (by simp) (by simp)
  | sendJoinDecision guestId approve =>
      refine .steps ?_ (by simp) (by simp)
      simp only [perform, quiet, sendJoinDecision]
      split
      · exact .of_host rfl
      · next host hosting =>
          rintro after ⟨⟩
          exact ⟨host, hosting, .of_frame rfl rfl rfl⟩
  | rotateInvite inviteSecret newSessionSecret inviteExpiresAt =>
      refine .steps ?_ (by simp) (by simp)
      simp only [perform, quiet, rotateInvite]
      split
      · exact .of_host rfl
      · exact .of_host rfl
  | publishSnapshot snapshot recoveryNow now =>
      exact .steps (stepsTo_withHost fun sending =>
        controlSteps_publishSnapshot foreign sending snapshot recoveryNow now) (by simp) (by simp)
  | grantControl terminalId guestId utcNow =>
      exact .steps (stepsTo_withHost fun sending =>
        controlSteps_grantControl foreign sending terminalId guestId utcNow) (by simp) (by simp)
  | revokeControl terminalId reason =>
      exact .steps (stepsTo_withHost fun sending =>
        controlSteps_revokeControl foreign sending terminalId reason) (by simp) (by simp)
  | noteControlRequest request =>
      exact .steps (stepsTo_updateHost fun host => .single (.note request)) (by simp) (by simp)
  | releaseControlsForGuest guestId =>
      exact .steps (stepsTo_withHost fun sending =>
        controlSteps_releaseControlsForGuest foreign sending guestId) (by simp) (by simp)
  | requestControl terminalId utcNow =>
      have sends := manager.guestSends_requestControl foreign terminalId utcNow
      exact .steps (.of_host (by rw [perform, quiet, sends.frame])) (by simp) (by simp)
  | sendGuestInput terminalId events =>
      have sends := manager.guestSends_sendGuestInput foreign terminalId events
      exact .steps (.of_host (by rw [perform, quiet, sends.frame])) (by simp) (by simp)
  | releaseControl terminalId =>
      have sends := manager.guestSends_releaseControl foreign terminalId
      exact .steps (.of_host (by rw [perform, quiet, sends.frame])) (by simp) (by simp)
  | focusRemotePanel panelId => exact .steps (.of_host rfl) (by simp) (by simp)
  | scrollRemotePanel panelId deltaLines => exact .steps (.of_host rfl) (by simp) (by simp)
  | takeInputs => exact .steps (.of_host rfl) (by simp) (by simp)
  | jobDone index result now =>
      exact .steps (stepsTo_jobDone index result now) (by simp) (by simp)
  | connected => exact .steps stepsTo_handleConnected (by simp) (by simp)
  | disconnected =>
      refine .steps (.of_host ?_) (by simp) (by simp)
      simp only [perform, quiet]
      split <;> rfl
  | transportError message => exact .steps (.of_host rfl) (by simp) (by simp)
  | brokerMessage message =>
      by_cases report : ∃ guests, message = .presence guests
      · obtain ⟨guests, rfl⟩ := report
        exact .reported guests rfl (host_handlePresence guests)
      · have unreported : ∀ guests, message ≠ .presence guests :=
          fun guests same => report ⟨guests, same⟩
        exact .steps (stepsTo_handleBrokerMessage message unreported)
          (fun guests same => unreported guests (Call.brokerMessage.inj same)) (by simp)
  | binaryMessage binary =>
      exact .steps (stepsTo_handleBinaryMessage binary) (by simp) (by simp)

end Steps

end CollabManager

end TerminalCanvas.Collab.Sharing
