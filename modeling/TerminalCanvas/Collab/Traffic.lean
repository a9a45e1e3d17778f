import Mathlib.Data.List.Perm.Basic
import TerminalCanvas.Collab.Manager

/-! # The keys of a host

Which steps of a manager change the secret its host sends under, what its invite code
carries meanwhile, and under which secret each message goes out. -/

namespace TerminalCanvas.Collab.Sharing

open Execution

def SessionPayload.isRekey : SessionPayload → Bool
  | .sessionRekeyed _ => true
  | _ => false

/-! ## Operations of the host -/

/-- The operation changes no key, and all it sends goes out under the secret of the host,
notices apart. -/
structure Sending.KeepsKey (before after : Sending) : Prop where
  secret : after.host.sessionSecret = before.host.sessionSecret
  invite : after.host.inviteCode = before.host.inviteCode
  sent : before.transport.Grows
    (fun outbound => outbound.payload.isRekey = false →
      outbound.secret = before.host.sessionSecret) after.transport

namespace Sending

variable (foreign : Foreign)

theorem KeepsKey.refl (sending : Sending) : sending.KeepsKey sending :=
  ⟨rfl, rfl, .refl _ _⟩

theorem KeepsKey.trans {first second third : Sending} (left : first.KeepsKey second)
    (right : second.KeepsKey third) : first.KeepsKey third := by
  refine ⟨right.secret.trans left.secret, right.invite.trans left.invite, ?_⟩
  apply left.sent.trans
  rw [← left.secret]
  exact right.sent

theorem KeepsKey.foldl {Item : Type} {operation : Sending → Item → Sending}
    (keeps : ∀ (sending : Sending) (item : Item), sending.KeepsKey (operation sending item))
    (items : List Item) (sending : Sending) : sending.KeepsKey (items.foldl operation sending) := by
  induction items generalizing sending with
  | nil => exact .refl sending
  | cons item items induction => exact (keeps sending item).trans (induction _)

theorem keepsKey_queuePayload (sending : Sending) (secret : String) (payload : SessionPayload)
    (known : payload.isRekey = false → secret = sending.host.sessionSecret) :
    sending.KeepsKey (queuePayload foreign sending secret payload).2 := by
  refine ⟨rfl, rfl, (grows_queueMessage foreign _ _ _ _ _ _).imp ?_⟩
  rintro outbound ⟨-, sealedUnder, rfl⟩ notice
  rw [sealedUnder, known notice]

theorem keepsKey_sendHostPayload (sending : Sending) (payload : SessionPayload) :
    sending.KeepsKey (sendHostPayload foreign sending payload).2 := by
  obtain ⟨secret, invite, sent⟩ := sending.keepsKey_queuePayload foreign
    sending.host.sessionSecret payload fun _ => rfl
  exact ⟨secret, invite, sent⟩

theorem keepsKey_sendRekeyRecovery (sending : Sending) (previous : String) (now : Instant) :
    sending.KeepsKey (sendRekeyRecovery foreign sending previous now) := by
  have queued := sending.keepsKey_queuePayload foreign previous
    (.sessionRekeyed sending.host.sessionSecret) (by simp [SessionPayload.isRekey])
  unfold sendRekeyRecovery
  split
  · next outcome =>
      rw [outcome] at queued
      exact ⟨queued.secret, queued.invite, queued.sent⟩
  · next outcome =>
      rw [outcome] at queued
      exact ⟨queued.secret, queued.invite, queued.sent⟩
  · next outcome =>
      rw [outcome] at queued
      exact queued

theorem keepsKey_sendRekeyRecoveryIfDue (sending : Sending) (now : Instant) :
    sending.KeepsKey (sendRekeyRecoveryIfDue foreign sending now) := by
  unfold sendRekeyRecoveryIfDue
  split
  · exact .refl sending
  · split
    · exact ⟨rfl, rfl, .refl _ _⟩
    · split
      · exact .refl sending
      · split
        · exact ⟨rfl, rfl, .refl _ _⟩
        · exact sending.keepsKey_sendRekeyRecovery foreign _ now

theorem keepsKey_sendSnapshot (sending : Sending) (snapshot : SharedWorkspaceSnapshot)
    (now : Instant) : sending.KeepsKey (sendSnapshot foreign sending snapshot now) := by
  have queued := sending.keepsKey_queuePayload foreign sending.host.sessionSecret
    (.workspaceSnapshot snapshot) fun _ => rfl
  unfold sendSnapshot
  split <;> next outcome =>
    rw [outcome] at queued
    exact ⟨queued.secret, queued.invite, queued.sent⟩

theorem keepsKey_publishSnapshot (sending : Sending) (snapshot : SharedWorkspaceSnapshot)
    (recoveryNow now : Instant) :
    sending.KeepsKey (publishSnapshot foreign sending snapshot recoveryNow now) := by
  apply (sending.keepsKey_sendRekeyRecoveryIfDue foreign recoveryNow).trans
  rw [publishSnapshot]
  generalize sendRekeyRecoveryIfDue foreign sending recoveryNow = recovered
  have reconciled : recovered.KeepsKey
      { recovered with host := recovered.host.reconcile snapshot.panels } :=
    ⟨rfl, rfl, .refl _ _⟩
  unfold publishReconciled
  dsimp only
  split
  · exact ⟨rfl, rfl, .refl _ _⟩
  · split
    · exact reconciled.trans (keepsKey_sendSnapshot foreign _ _ now)
    · exact reconciled

theorem keepsKey_grantControl (sending : Sending) (terminalId : Uuid) (guestId : GuestId)
    (utcNow : DateTime) :
    sending.KeepsKey (grantControl foreign sending terminalId guestId utcNow) := by
  unfold grantControl
  split
  · have given : sending.KeepsKey
        { sending with host := sending.host.giveControl terminalId guestId } :=
      ⟨rfl, rfl, .refl _ _⟩
    exact given.trans (keepsKey_sendHostPayload foreign _ _)
  · exact .refl sending

theorem keepsKey_revokeControl (sending : Sending) (terminalId : Uuid) (reason : String) :
    sending.KeepsKey (revokeControl foreign sending terminalId reason) := by
  have taken : sending.KeepsKey { sending with host := sending.host.takeControl terminalId } := by
    unfold HostSessionContext.takeControl
    split <;> exact ⟨rfl, rfl, .refl _ _⟩
  exact taken.trans (keepsKey_sendHostPayload foreign _ _)

theorem keepsKey_releaseControlsForGuest (sending : Sending) (guestId : GuestId) :
    sending.KeepsKey (releaseControlsForGuest foreign sending guestId) := by
  obtain ⟨secret, invite, sent⟩ := KeepsKey.foldl
    (fun sending terminalId =>
      keepsKey_revokeControl foreign sending terminalId "Guest disconnected")
    ((sending.host.terminalControls.rows.filter (·.controller = some guestId)).map
      (·.terminalId)) sending
  exact ⟨secret, invite, sent⟩

theorem keepsKey_hostPresence (sending : Sending) (guests : List GuestPresence) :
    sending.KeepsKey (CollabManager.hostPresence foreign guests sending) := by
  have recorded : sending.KeepsKey
      { sending with host := CollabManager.recordGuests guests sending.host } :=
    ⟨rfl, rfl, .refl _ _⟩
  exact recorded.trans (KeepsKey.foldl (keepsKey_releaseControlsForGuest foreign) _ _)

theorem keepsKey_takeRevocation (sending : Sending) (revoke : ControlRevoke) :
    sending.KeepsKey (CollabManager.takeRevocation foreign revoke sending) := by
  unfold CollabManager.takeRevocation
  split
  · exact sending.keepsKey_revokeControl foreign _ _
  · exact .refl sending

/-! ## The notice of a new secret -/

/-- A message can be put on the transport: there is a number behind its own, it can be
sealed, and the transport takes it. -/
def canQueue (sending : Sending) (secret : String) (payload : SessionPayload) : Bool :=
  sending.host.nextMessageSeq.toNat < u64Max &&
    (sealPayload foreign sending.transport.next.nonce sending.host.sessionId .host
      sending.host.nextMessageSeq secret payload).isOk &&
    sending.transport.next.accepts

theorem queuePayload_queued_iff (sending : Sending) (secret : String)
    (payload : SessionPayload) :
    (queuePayload foreign sending secret payload).1 = .queued ↔
      sending.canQueue foreign secret payload = true := by
  unfold queuePayload queueMessage canQueue checkedSucc
  by_cases room : sending.host.nextMessageSeq.toNat < u64Max
  · cases sealing : sealPayload foreign sending.transport.next.nonce sending.host.sessionId
        .host sending.host.nextMessageSeq secret payload with
    | error error => simp [room, sealing, Except.isOk, Except.toBool]
    | ok bytes =>
        cases accepts : sending.transport.next.accepts <;>
          simp [room, sealing, accepts, Except.isOk, Except.toBool]
  · simp [room]

theorem sessionSecret_sendSessionRekeyed (sending : Sending) (newSessionSecret : String)
    (now : Instant) :
    (sendSessionRekeyed foreign sending newSessionSecret now).2.host.sessionSecret =
      if sending.canQueue foreign sending.host.sessionSecret (.sessionRekeyed newSessionSecret)
        then newSessionSecret else sending.host.sessionSecret := by
  have notice := sending.keepsKey_sendHostPayload foreign (.sessionRekeyed newSessionSecret)
  have answer : (sendHostPayload foreign sending (.sessionRekeyed newSessionSecret)).1 =
      sending.canQueue foreign sending.host.sessionSecret
        (.sessionRekeyed newSessionSecret) := by
    rw [sendHostPayload, Bool.eq_iff_iff, decide_eq_true_iff]
    exact queuePayload_queued_iff foreign _ _ _
  unfold sendSessionRekeyed
  split
  · next after outcome =>
      rw [outcome] at notice answer
      rw [← answer]
      exact notice.secret
  · next after outcome =>
      rw [outcome] at answer
      rw [← answer]
      rfl

theorem grows_sendSessionRekeyed (sending : Sending) (newSessionSecret : String)
    (now : Instant) :
    sending.transport.Grows (·.payload.isRekey = true)
      (sendSessionRekeyed foreign sending newSessionSecret now).2.transport := by
  have notice : sending.transport.Grows (·.payload.isRekey = true)
      (sendHostPayload foreign sending (.sessionRekeyed newSessionSecret)).2.transport := by
    apply (grows_queueMessage foreign _ _ _ _ _ _).imp
    rintro outbound ⟨-, -, payload⟩
    rw [payload]
    rfl
  unfold sendSessionRekeyed
  split <;> next after outcome =>
    rw [outcome] at notice
    exact notice

end Sending

/-! ## Steps of a manager -/

def CollabHttpOp.rotationSecret : CollabHttpOp → Option String
  | .rotateInvite _ _ newSessionSecret => some newSessionSecret
  | .approveJoin _ _ | .denyJoin _ _ | .joinSession _ _ => none

namespace CollabManager

/-- The secrets of the rotations that wait for the broker. -/
def pendingSecrets (jobs : List CollabHttpJob) : List String :=
  jobs.filterMap (·.op.rotationSecret)

def Call.drawn : Call → List String
  | .startHostSession (some start) => [start.sessionSecret]
  | .rotateInvite _ newSessionSecret _ => [newSessionSecret]
  | _ => []

def Call.changesSession : Call → Bool
  | .startHostSession _ | .joinSession _ _ | .stopSession => true
  | _ => false

/-- The secret of the host and the one in its invite code. -/
def keys (manager : CollabManager) : Option (String × String) :=
  manager.host.map fun host => (host.sessionSecret, host.inviteCode.sessionSecret)

/-- The broker's answer to a rotation of the invite arrives at the session it belongs to,
and it is not an error. -/
def ConfirmsRotation (manager : CollabManager) (call : Call) (host : HostSessionContext)
    (newSessionSecret : String) : Prop :=
  ∃ index result now inviteSecret inviteExpiresAt, call = .jobDone index result now ∧
    manager.jobs[index]? = some ⟨manager.httpGeneration,
      .rotateInvite inviteSecret inviteExpiresAt newSessionSecret⟩ ∧
    (∀ message, result ≠ .error message) ∧ manager.host = some host

/-- What a call does to the secret of the host and to the secrets that wait. -/
inductive KeyStep (manager : CollabManager) (call : Call) (next : CollabManager) : Prop where
  | kept (same : next.keys = manager.keys)
      (pending : (pendingSecrets next.jobs).Sublist
        (pendingSecrets manager.jobs ++ call.drawn))
  | left (changes : call.changesSession = true) (gone : next.keys = none)
      (pending : pendingSecrets next.jobs = pendingSecrets manager.jobs)
  | started (start : HostStart) (called : call = .startHostSession (some start))
      (begun : next.keys = some (start.sessionSecret, start.sessionSecret))
      (pending : pendingSecrets next.jobs = pendingSecrets manager.jobs)
  | rotated (host : HostSessionContext) (newSessionSecret : String)
      (confirms : manager.ConfirmsRotation call host newSessionSecret)
      (renewed : next.keys = some (newSessionSecret, newSessionSecret))
      (pending : (pendingSecrets manager.jobs).Perm
        (newSessionSecret :: pendingSecrets next.jobs))

/-- The invite code carries the secret of the host. -/
def InviteCurrent (manager : CollabManager) : Prop :=
  ∀ secret inInvite, manager.keys = some (secret, inInvite) → inInvite = secret

/-- Notices apart, the host sends under its secret. -/
def HostTraffic (manager : CollabManager) (after : Transport) : Prop :=
  manager.transport.Grows (fun outbound => outbound.sender = .host →
    outbound.payload.isRekey = false →
    ∃ host, manager.host = some host ∧ outbound.secret = host.sessionSecret) after

theorem hostTraffic_refl (manager : CollabManager) : manager.HostTraffic manager.transport :=
  .refl _ _

section Steps

variable {manager next : CollabManager} {call : Call}

theorem keys_withHost {operation : Sending → Sending}
    (keeps : ∀ sending : Sending, sending.KeepsKey (operation sending)) :
    (manager.withHost operation).keys = manager.keys := by
  unfold withHost
  split
  · rfl
  · next host present =>
      simp [keys, present, (keeps _).secret, (keeps _).invite]

theorem hostTraffic_withHost {operation : Sending → Sending}
    (keeps : ∀ sending : Sending, sending.KeepsKey (operation sending)) :
    manager.HostTraffic (manager.withHost operation).transport := by
  unfold withHost
  split
  · exact manager.hostTraffic_refl
  · next host present =>
      apply (keeps ⟨host, manager.transport, manager.lastError⟩).sent.imp
      intro outbound sealedUnder _ notice
      exact ⟨host, present, sealedUnder notice⟩

theorem keys_updateHost {change : HostSessionContext → HostSessionContext}
    (secret : ∀ host, (change host).sessionSecret = host.sessionSecret)
    (invite : ∀ host, (change host).inviteCode = host.inviteCode) :
    (manager.updateHost change).keys = manager.keys := by
  unfold keys updateHost
  cases manager.host with
  | none => rfl
  | some host => simp [secret, invite]

theorem jobs_withHost (operation : Sending → Sending) :
    (manager.withHost operation).jobs = manager.jobs := by
  unfold withHost
  split <;> rfl

end Steps

variable (foreign : Foreign)

/-- The notice of a new secret can be put on the transport. -/
def noticeQueued (manager : CollabManager) (host : HostSessionContext)
    (newSessionSecret : String) : Bool :=
  Sending.canQueue foreign ⟨host, manager.transport, manager.lastError⟩ host.sessionSecret
    (.sessionRekeyed newSessionSecret)

theorem keys_rotated {manager : CollabManager} {host : HostSessionContext}
    (hosting : manager.host = some host) (inviteSecret : String)
    (inviteExpiresAt : Option DateTime) (newSessionSecret : String) (now : Instant) :
    (manager.rotated foreign inviteSecret inviteExpiresAt newSessionSecret now).keys =
      if manager.noticeQueued foreign host newSessionSecret then
        some (newSessionSecret, newSessionSecret)
      else
        some (host.sessionSecret, host.sessionSecret) := by
  have secret := Sending.sessionSecret_sendSessionRekeyed foreign
    ⟨host, manager.transport, manager.lastError⟩ newSessionSecret now
  simp only [keys, rotated, updateHost, withHost, hosting, Option.map_some, renewInvite, secret]
  rw [noticeQueued]
  split <;> rfl

theorem grows_rotated (manager : CollabManager) (inviteSecret : String)
    (inviteExpiresAt : Option DateTime) (newSessionSecret : String) (now : Instant) :
    manager.transport.Grows (·.payload.isRekey = true)
      (manager.rotated foreign inviteSecret inviteExpiresAt newSessionSecret now).transport := by
  unfold rotated updateHost withHost
  split
  · exact .refl _ _
  · exact Sending.grows_sendSessionRekeyed foreign _ newSessionSecret now

theorem hostTraffic_rotated (manager : CollabManager) (inviteSecret : String)
    (inviteExpiresAt : Option DateTime) (newSessionSecret : String) (now : Instant) :
    manager.HostTraffic
      (manager.rotated foreign inviteSecret inviteExpiresAt newSessionSecret now).transport := by
  apply (manager.grows_rotated foreign _ _ _ _).imp
  intro outbound notice _ other
  rw [notice] at other
  cases other

theorem jobs_rotated (manager : CollabManager) (inviteSecret : String)
    (inviteExpiresAt : Option DateTime) (newSessionSecret : String) (now : Instant) :
    (manager.rotated foreign inviteSecret inviteExpiresAt newSessionSecret now).jobs =
      manager.jobs := jobs_withHost _

theorem rotated_of_no_host {manager : CollabManager} (absent : manager.host = none)
    (inviteSecret : String) (inviteExpiresAt : Option DateTime) (newSessionSecret : String)
    (now : Instant) :
    manager.rotated foreign inviteSecret inviteExpiresAt newSessionSecret now = manager := by
  obtain ⟨_, _, _, _, _, _, _, _, _, _, _, _, _, _⟩ := manager
  cases absent
  rfl

theorem applyHttpOutcome_frame (manager : CollabManager) (op : CollabHttpOp)
    (result : HttpResult) (now : Instant)
    (other : op.rotationSecret = none ∨ ∃ message, result = .error message) :
    (manager.applyHttpOutcome foreign op result now).keys = manager.keys ∧
      (manager.applyHttpOutcome foreign op result now).jobs = manager.jobs ∧
      (manager.applyHttpOutcome foreign op result now).transport = manager.transport := by
  have restored : ∀ guestId removed, (manager.restorePendingJoin guestId removed).keys =
      manager.keys := by
    intro guestId removed
    apply keys_updateHost
    all_goals
      intro host
      cases removed with
      | none => rfl
      | some request => dsimp only; split <;> rfl
  cases op with
  | approveJoin guestId removed | denyJoin guestId removed =>
      cases result with
      | error message => exact ⟨restored guestId removed, rfl, rfl⟩
      | ok | joined answer => exact ⟨rfl, rfl, rfl⟩
  | rotateInvite inviteSecret inviteExpiresAt newSessionSecret =>
      rcases other with absent | ⟨message, rfl⟩
      · cases absent
      · exact ⟨rfl, rfl, rfl⟩
  | joinSession invite displayName =>
      cases result with
      | ok | error message => exact ⟨rfl, rfl, rfl⟩
      | joined answer =>
          simp only [applyHttpOutcome, completeJoin]
          split <;> exact ⟨rfl, rfl, rfl⟩

/-! ## Every call -/

variable {foreign} {manager next : CollabManager} {call : Call}

theorem KeyStep.of_same (same : next.keys = manager.keys) (jobs : next.jobs = manager.jobs) :
    KeyStep manager call next :=
  .kept same (by rw [jobs]; exact List.sublist_append_left _ _)

theorem KeyStep.current (step : KeyStep manager call next) (current : manager.InviteCurrent) :
    next.InviteCurrent := by
  intro secret inInvite keyed
  cases step with
  | kept same pending => exact current secret inInvite (same ▸ keyed)
  | left changes gone pending =>
      rw [gone] at keyed
      cases keyed
  | started start called begun pending =>
      rw [begun] at keyed
      cases keyed
      rfl
  | rotated host newSessionSecret confirms renewed pending =>
      rw [renewed] at keyed
      cases keyed
      rfl

theorem pendingSecrets_perm {jobs : List CollabHttpJob} {index : Nat} {job : CollabHttpJob}
    (found : jobs[index]? = some job) :
    (pendingSecrets jobs).Perm (job.op.rotationSecret.toList ++
      pendingSecrets (jobs.eraseIdx index)) := by
  obtain ⟨bound, rfl⟩ := List.getElem?_eq_some_iff.mp found
  have perm := (List.getElem_cons_eraseIdx_perm bound).symm.filterMap (·.op.rotationSecret)
  apply perm.trans
  rw [List.filterMap_cons]
  cases jobs[index].op.rotationSecret <;> exact .refl _

theorem pendingSecrets_eraseIdx (jobs : List CollabHttpJob) (index : Nat) :
    (pendingSecrets (jobs.eraseIdx index)).Sublist (pendingSecrets jobs) :=
  (List.eraseIdx_sublist _ _).filterMap _

/-- The manager without a job whose result arrived. -/
def withoutJob (manager : CollabManager) (index : Nat) : CollabManager :=
  { manager with jobs := manager.jobs.eraseIdx index }

theorem withoutJob_kept {index : Nat} {result : HttpResult} {now : Instant}
    (same : next.keys = manager.keys) (jobs : next.jobs = (manager.withoutJob index).jobs) :
    KeyStep manager (.jobDone index result now) next := by
  refine .kept same ?_
  rw [jobs]
  exact (pendingSecrets_eraseIdx _ _).trans (List.sublist_append_left _ _)

theorem keyStep_rotated (current : manager.InviteCurrent) {index : Nat} {result : HttpResult}
    {inviteSecret newSessionSecret : String} {inviteExpiresAt : Option DateTime}
    (found : manager.jobs[index]? = some ⟨manager.httpGeneration,
      .rotateInvite inviteSecret inviteExpiresAt newSessionSecret⟩)
    (confirmed : ∀ message, result ≠ .error message) (now : Instant) :
    KeyStep manager (.jobDone index result now)
      ((manager.withoutJob index).rotated foreign inviteSecret inviteExpiresAt
        newSessionSecret now) := by
  cases hosting : manager.host with
  | none =>
      rw [@rotated_of_no_host foreign (manager.withoutJob index) hosting]
      exact withoutJob_kept rfl rfl
  | some host =>
      have renewed := @keys_rotated foreign (manager.withoutJob index) host hosting
        inviteSecret inviteExpiresAt newSessionSecret now
      split at renewed
      · refine .rotated host newSessionSecret ?_ renewed ?_
        · exact ⟨index, result, now, inviteSecret, inviteExpiresAt, rfl, found, confirmed,
            hosting⟩
        · rw [jobs_rotated]
          exact pendingSecrets_perm found
      · apply withoutJob_kept _ (jobs_rotated foreign _ _ _ _ _)
        have keyed : manager.keys = some (host.sessionSecret, host.inviteCode.sessionSecret) := by
          rw [keys, hosting, Option.map_some]
        rw [renewed, keyed, current _ _ keyed]

theorem keyStep_jobDone (current : manager.InviteCurrent) (index : Nat) (result : HttpResult)
    (now : Instant) :
    KeyStep manager (.jobDone index result now)
      (manager.jobDone foreign index result now) := by
  unfold jobDone
  split
  · exact .of_same rfl rfl
  · next job found =>
      obtain ⟨generation, op⟩ := job
      dsimp only
      split
      · next ofSession =>
          subst ofSession
          by_cases other : op.rotationSecret = none ∨ ∃ message, result = .error message
          · obtain ⟨keys, jobs, -⟩ :=
              applyHttpOutcome_frame foreign (manager.withoutJob index) op result now other
            exact withoutJob_kept keys jobs
          · obtain ⟨rotation, confirmed⟩ := not_or.mp other
            have confirmed : ∀ message, result ≠ .error message :=
              fun message failed => confirmed ⟨message, failed⟩
            cases op with
            | approveJoin guestId removed => exact absurd rfl rotation
            | denyJoin guestId removed => exact absurd rfl rotation
            | joinSession invite displayName => exact absurd rfl rotation
            | rotateInvite inviteSecret inviteExpiresAt newSessionSecret =>
                have rotated := @keyStep_rotated foreign _ current _ _ _ _ _ found confirmed now
                cases result with
                | ok => exact rotated
                | joined answer => exact rotated
                | error message => exact absurd rfl (confirmed message)
      · exact withoutJob_kept rfl rfl

theorem hostTraffic_jobDone (index : Nat) (result : HttpResult) (now : Instant) :
    manager.HostTraffic (manager.jobDone foreign index result now).transport := by
  unfold jobDone
  split
  · exact manager.hostTraffic_refl
  · next job found =>
      obtain ⟨generation, op⟩ := job
      dsimp only
      split
      · by_cases other : op.rotationSecret = none ∨ ∃ message, result = .error message
        · obtain ⟨-, -, transport⟩ :=
            applyHttpOutcome_frame foreign (manager.withoutJob index) op result now other
          have unsent := manager.hostTraffic_refl
          rw [← show _ = manager.transport from transport] at unsent
          exact unsent
        · obtain ⟨rotation, confirmed⟩ := not_or.mp other
          cases op with
          | approveJoin guestId removed => exact absurd rfl rotation
          | denyJoin guestId removed => exact absurd rfl rotation
          | joinSession invite displayName => exact absurd rfl rotation
          | rotateInvite inviteSecret inviteExpiresAt newSessionSecret =>
              have sent := hostTraffic_rotated foreign (manager.withoutJob index) inviteSecret
                inviteExpiresAt newSessionSecret now
              cases result with
              | ok => exact sent
              | joined answer => exact sent
              | error message => exact absurd ⟨message, rfl⟩ confirmed
      · exact manager.hostTraffic_refl

theorem keys_handleConnected : manager.handleConnected.keys = manager.keys := by
  unfold handleConnected
  split
  · rfl
  · split
    · exact keys_updateHost (fun _ => rfl) fun _ => rfl
    · rfl
    · rfl

theorem handleBrokerMessage_frame (message : BrokerControlMessage) :
    (manager.handleBrokerMessage foreign message).keys = manager.keys ∧
      (manager.handleBrokerMessage foreign message).jobs = manager.jobs ∧
      manager.HostTraffic (manager.handleBrokerMessage foreign message).transport := by
  have unsent := manager.hostTraffic_refl
  have connected : manager.handleConnected.jobs = manager.jobs ∧
      manager.handleConnected.transport = manager.transport := by
    unfold handleConnected
    split
    · exact ⟨rfl, rfl⟩
    · split <;> exact ⟨rfl, rfl⟩
  cases message with
  | connected role =>
      refine ⟨keys_handleConnected, connected.1, ?_⟩
      rw [← connected.2] at unsent
      exact unsent
  | joinRequested request =>
      refine ⟨?_, rfl, unsent⟩
      apply keys_updateHost <;> intro host <;> split <;> rfl
  | presence guests =>
      have keeps : ∀ sending : Sending, sending.KeepsKey (hostPresence foreign guests sending) :=
        fun sending => sending.keepsKey_hostPresence foreign guests
      exact ⟨keys_withHost keeps, jobs_withHost _, hostTraffic_withHost keeps⟩
  | sessionEnded => exact ⟨rfl, rfl, unsent⟩
  | error message => exact ⟨rfl, rfl, unsent⟩
  | joinApproved decision | joinDenied decision | hostDisconnected | hostReconnected =>
      simp only [handleBrokerMessage]
      split <;> exact ⟨rfl, rfl, unsent⟩

theorem applyPayload_frame (manager : CollabManager) (sender : ParticipantId)
    (payload : SessionPayload) :
    (manager.applyPayload foreign sender payload).keys = manager.keys ∧
      (manager.applyPayload foreign sender payload).jobs = manager.jobs ∧
      manager.HostTraffic (manager.applyPayload foreign sender payload).transport := by
  have unsent := manager.hostTraffic_refl
  cases payload with
  | workspaceSnapshot snapshot => exact ⟨rfl, rfl, unsent⟩
  | controlRequest request =>
      refine ⟨?_, rfl, unsent⟩
      apply keys_updateHost
      all_goals
        intro host
        unfold HostSessionContext.noteControlRequest
        split <;> rfl
  | controlGrant grant => exact ⟨rfl, rfl, unsent⟩
  | controlRevoke revoke =>
      have keeps : ∀ sending : Sending, sending.KeepsKey (takeRevocation foreign revoke sending) :=
        fun sending => sending.keepsKey_takeRevocation foreign revoke
      simp only [applyPayload]
      split
      · exact ⟨keys_withHost keeps, jobs_withHost _, hostTraffic_withHost keeps⟩
      · exact ⟨rfl, rfl, unsent⟩
  | guestInput input => cases sender <;> exact ⟨rfl, rfl, unsent⟩
  | sessionRekeyed newSessionSecret => exact ⟨rfl, rfl, unsent⟩

theorem handleBinaryMessage_frame (manager : CollabManager) (binary : Bytes) :
    (manager.handleBinaryMessage foreign binary).1.keys = manager.keys ∧
      (manager.handleBinaryMessage foreign binary).1.jobs = manager.jobs ∧
      manager.HostTraffic (manager.handleBinaryMessage foreign binary).1.transport := by
  unfold handleBinaryMessage
  split
  · exact ⟨rfl, rfl, manager.hostTraffic_refl⟩
  · split
    · exact ⟨rfl, rfl, manager.hostTraffic_refl⟩
    · next received _ =>
        exact applyPayload_frame { manager with receivedMessageSeq := received } _ _

structure KeySpec (manager : CollabManager) (call : Call) (next : CollabManager) : Prop where
  step : manager.InviteCurrent → KeyStep manager call next
  traffic : manager.HostTraffic next.transport

theorem KeySpec.of_same (same : next.keys = manager.keys) (jobs : next.jobs = manager.jobs)
    (transport : next.transport = manager.transport) : KeySpec manager call next := by
  refine ⟨fun _ => .of_same same jobs, ?_⟩
  rw [transport]
  exact manager.hostTraffic_refl

theorem keySpec_withHost {operation : Sending → Sending}
    (keeps : ∀ sending : Sending, sending.KeepsKey (operation sending)) :
    KeySpec manager call (manager.withHost operation) :=
  ⟨fun _ => .of_same (keys_withHost keeps) (jobs_withHost _), hostTraffic_withHost keeps⟩

theorem keySpec_guestSends (sends : manager.GuestSends next) : KeySpec manager call next := by
  refine ⟨fun _ => .of_same (by rw [sends.frame]; rfl) (by rw [sends.frame]), ?_⟩
  apply sends.sent.imp
  intro outbound notHost ofHost
  exact absurd ofHost notHost

theorem keySpec_startHostSession (start : Option HostStart) :
    KeySpec manager (.startHostSession start) (manager.startHostSession start) := by
  refine ⟨fun _ => ?_, ?_⟩
  · cases start with
    | none => exact .left rfl rfl rfl
    | some start => exact .started start rfl rfl rfl
  · cases start <;> exact manager.hostTraffic_refl

theorem keySpec_joinSession (invite : Option InviteCode) (displayName : String) :
    KeySpec manager (.joinSession invite displayName)
      (manager.joinSession invite displayName) := by
  refine ⟨fun _ => .left rfl ?_ ?_, ?_⟩
  · cases invite <;> rfl
  · cases invite with
    | none => rfl
    | some invite =>
        simp [joinSession, pendingSecrets, List.filterMap_append, stopSession,
          CollabHttpOp.rotationSecret]
  · cases invite <;> exact manager.hostTraffic_refl

theorem keySpec_sendJoinDecision (guestId : GuestId) (approve : Bool) :
    KeySpec manager (.sendJoinDecision guestId approve)
      (manager.sendJoinDecision guestId approve) := by
  unfold sendJoinDecision
  split
  · exact .of_same rfl rfl rfl
  · next host hosting =>
      refine ⟨fun _ => .kept (by rw [keys, keys, hosting]; rfl) ?_, manager.hostTraffic_refl⟩
      have unasked : pendingSecrets [⟨manager.httpGeneration, if approve = true then
          .approveJoin guestId (host.pendingJoins.find? (·.guestId = guestId)) else
          .denyJoin guestId (host.pendingJoins.find? (·.guestId = guestId))⟩] = [] := by
        cases approve <;> rfl
      rw [pendingSecrets, List.filterMap_append, ← pendingSecrets, ← pendingSecrets, unasked]
      exact .refl _

theorem keySpec_rotateInvite (inviteSecret newSessionSecret : String)
    (inviteExpiresAt : Option DateTime) :
    KeySpec manager (.rotateInvite inviteSecret newSessionSecret inviteExpiresAt)
      (manager.rotateInvite inviteSecret newSessionSecret inviteExpiresAt) := by
  unfold rotateInvite
  split
  · exact .of_same rfl rfl rfl
  · refine ⟨fun _ => .kept rfl ?_, manager.hostTraffic_refl⟩
    rw [pendingSecrets, List.filterMap_append]
    exact .refl _

theorem keySpec_perform (manager : CollabManager) (call : Call) :
    KeySpec manager call (manager.perform foreign call).nextState := by
  cases call with
  | startHostSession start => exact keySpec_startHostSession start
  | joinSession invite displayName => exact keySpec_joinSession invite displayName
  | stopSession => exact ⟨fun _ => .left rfl rfl rfl, manager.hostTraffic_refl⟩
  | sendJoinDecision guestId approve => exact keySpec_sendJoinDecision guestId approve
  | rotateInvite inviteSecret newSessionSecret inviteExpiresAt =>
      exact keySpec_rotateInvite inviteSecret newSessionSecret inviteExpiresAt
  | publishSnapshot snapshot recoveryNow now =>
      exact keySpec_withHost fun sending =>
        sending.keepsKey_publishSnapshot foreign snapshot recoveryNow now
  | grantControl terminalId guestId utcNow =>
      exact keySpec_withHost fun sending =>
        sending.keepsKey_grantControl foreign terminalId guestId utcNow
  | revokeControl terminalId reason =>
      exact keySpec_withHost fun sending => sending.keepsKey_revokeControl foreign terminalId reason
  | noteControlRequest request =>
      refine .of_same (keys_updateHost ?_ ?_) rfl rfl
      all_goals
        intro host
        unfold HostSessionContext.noteControlRequest
        split <;> rfl
  | releaseControlsForGuest guestId =>
      exact keySpec_withHost fun sending =>
        sending.keepsKey_releaseControlsForGuest foreign guestId
  | requestControl terminalId utcNow =>
      exact keySpec_guestSends (manager.guestSends_requestControl foreign terminalId utcNow)
  | sendGuestInput terminalId events =>
      exact keySpec_guestSends (manager.guestSends_sendGuestInput foreign terminalId events)
  | releaseControl terminalId =>
      exact keySpec_guestSends (manager.guestSends_releaseControl foreign terminalId)
  | focusRemotePanel panelId => exact .of_same rfl rfl rfl
  | scrollRemotePanel panelId deltaLines => exact .of_same rfl rfl rfl
  | takeInputs => exact .of_same rfl rfl rfl
  | jobDone index result now =>
      exact ⟨fun current => keyStep_jobDone current index result now,
        hostTraffic_jobDone index result now⟩
  | connected =>
      obtain ⟨keys, jobs, traffic⟩ :=
        @handleBrokerMessage_frame foreign manager (.connected .host)
      exact ⟨fun _ => .of_same keys jobs, traffic⟩
  | disconnected =>
      simp only [perform, quiet]
      split <;> exact .of_same rfl rfl rfl
  | transportError message => exact .of_same rfl rfl rfl
  | brokerMessage message =>
      obtain ⟨keys, jobs, traffic⟩ := handleBrokerMessage_frame message
      exact ⟨fun _ => .of_same keys jobs, traffic⟩
  | binaryMessage binary =>
      obtain ⟨keys, jobs, traffic⟩ := @handleBinaryMessage_frame foreign manager binary
      exact ⟨fun _ => .of_same keys jobs, traffic⟩

/-! ## The call that rotates -/

variable (foreign) in
theorem perform_of_confirms {host : HostSessionContext} {newSessionSecret : String}
    (confirms : manager.ConfirmsRotation call host newSessionSecret) :
    ∃ index inviteSecret inviteExpiresAt now,
      manager.jobs[index]? = some ⟨manager.httpGeneration,
        .rotateInvite inviteSecret inviteExpiresAt newSessionSecret⟩ ∧
      (manager.perform foreign call).nextState = (manager.withoutJob index).rotated foreign
        inviteSecret inviteExpiresAt newSessionSecret now := by
  obtain ⟨index, result, now, inviteSecret, inviteExpiresAt, rfl, found, confirmed, -⟩ := confirms
  refine ⟨index, inviteSecret, inviteExpiresAt, now, found, ?_⟩
  cases result with
  | ok => simp [perform, jobDone, found, applyHttpOutcome, withoutJob]
  | joined answer => simp [perform, jobDone, found, applyHttpOutcome, withoutJob]
  | error message => exact absurd rfl (confirmed message)

theorem keys_of_confirms {host : HostSessionContext} {newSessionSecret : String}
    (confirms : manager.ConfirmsRotation call host newSessionSecret) :
    (manager.perform foreign call).nextState.keys =
      if manager.noticeQueued foreign host newSessionSecret then
        some (newSessionSecret, newSessionSecret)
      else
        some (host.sessionSecret, host.sessionSecret) := by
  obtain ⟨index, inviteSecret, inviteExpiresAt, now, -, rotated⟩ :=
    perform_of_confirms foreign confirms
  obtain ⟨-, -, -, -, -, -, -, -, hosting⟩ := confirms
  rw [rotated]
  exact @keys_rotated foreign (manager.withoutJob index) host hosting _ _ _ _

theorem pendingSecrets_of_confirms {host : HostSessionContext} {newSessionSecret : String}
    (confirms : manager.ConfirmsRotation call host newSessionSecret) :
    (pendingSecrets manager.jobs).Perm
      (newSessionSecret :: pendingSecrets (manager.perform foreign call).nextState.jobs) := by
  obtain ⟨index, inviteSecret, inviteExpiresAt, now, found, rotated⟩ :=
    perform_of_confirms foreign confirms
  rw [rotated, jobs_rotated]
  exact pendingSecrets_perm found

theorem grows_of_confirms {host : HostSessionContext} {newSessionSecret : String}
    (confirms : manager.ConfirmsRotation call host newSessionSecret) :
    manager.transport.Grows (·.payload.isRekey = true)
      (manager.perform foreign call).nextState.transport := by
  obtain ⟨index, inviteSecret, inviteExpiresAt, now, -, rotated⟩ :=
    perform_of_confirms foreign confirms
  rw [rotated]
  exact (manager.withoutJob index).grows_rotated foreign _ _ _ _

end CollabManager

end TerminalCanvas.Collab.Sharing
