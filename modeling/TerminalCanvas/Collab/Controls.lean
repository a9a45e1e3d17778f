import TerminalCanvas.Collab.Snapshot

/-! # The host of a shared session

What the host keeps of its session, what it puts on the transport, and who controls
which terminal. -/

namespace TerminalCanvas.Collab.Sharing

def maxPendingControlRequests : Nat := 128

def maxPendingControlsPerGuest : Nat := 16

def snapshotHeartbeat : Nat := seconds 2

def rekeyRecoveryInterval : Nat := seconds 2

def rekeyRecoveryWindow : Nat := seconds 60

structure InviteCode where
  brokerUrl : String
  sessionId : ShareSessionId
  sessionSecret : String
  inviteSecret : Option String
  expiresAt : Option DateTime
  requiresPassphrase : Bool
  tlsCertPem : Option String
deriving DecidableEq, Repr

/-! ## Sequence numbers -/

/-- `checked_add(1)`. -/
def checkedSucc (seq : UInt64) : Option UInt64 :=
  if seq.toNat < u64Max then some (seq + 1) else none

/-- `saturating_add(1)`. -/
def saturatingSucc (seq : UInt64) : UInt64 := if seq.toNat < u64Max then seq + 1 else seq

theorem toNat_succ {seq : UInt64} (room : seq.toNat < u64Max) :
    (seq + 1).toNat = seq.toNat + 1 := by
  rw [UInt64.toNat_add, UInt64.toNat_one, Nat.mod_eq_of_lt]
  unfold u64Max at room
  omega

theorem toNat_saturatingSucc (seq : UInt64) :
    (saturatingSucc seq).toNat = min (seq.toNat + 1) u64Max := by
  have bound := seq.toNat_lt
  unfold saturatingSucc
  split
  · next room =>
      rw [toNat_succ room]
      omega
  · next full =>
      unfold u64Max at *
      omega

/-! ## Envelopes -/

structure CollabEnvelope where
  sessionId : ShareSessionId
  senderId : ParticipantId
  messageSeq : UInt64
  nonce : String
  encryptedPayload : String
deriving DecidableEq, Repr

inductive ProtocolError where
  | invalidKeyLength
  | invalidNonce
  | encryptFailed
  | decryptFailed
  | decodeFailed
  | encodeFailed
deriving DecidableEq, Repr

def ProtocolError.display : ProtocolError → String
  | invalidKeyLength => "invalid session secret length"
  | invalidNonce => "invalid nonce"
  | encryptFailed => "failed to encrypt payload"
  | decryptFailed => "failed to decrypt payload"
  | decodeFailed => "failed to decode payload"
  | encodeFailed => "failed to encode payload"

/-- The cipher, the MessagePack and the unpadded Base64 of third parties. -/
structure Foreign where
  encodeBase64 : Bytes → String
  decodeBase64 : String → Option Bytes
  encrypt : (key nonce message aad : Bytes) → Option Bytes
  decrypt : (key nonce ciphertext aad : Bytes) → Option Bytes
  packPayload : SessionPayload → Option Bytes
  unpackPayload : Bytes → Option SessionPayload
  packAad : ShareSessionId → ParticipantId → UInt64 → Option Bytes
  packEnvelope : CollabEnvelope → Option Bytes
  unpackEnvelope : Bytes → Except String CollabEnvelope

section Envelopes

variable (foreign : Foreign)

/-- `none` for the optional of a third party becomes an error. -/
def orError {α : Type} (value : Option α) (error : ProtocolError) : Except ProtocolError α :=
  match value with
  | some value => .ok value
  | none => .error error

def trafficKey (secret : String) : Except ProtocolError Bytes :=
  orError ((foreign.decodeBase64 secret).filter (·.length = 32)) .invalidKeyLength

/-- `nonce` is drawn at random. -/
def encodeEnvelope (nonce : Bytes) (sessionId : ShareSessionId) (senderId : ParticipantId)
    (messageSeq : UInt64) (secret : String) (payload : SessionPayload) :
    Except ProtocolError CollabEnvelope := do
  let key ← trafficKey foreign secret
  let message ← orError (foreign.packPayload payload) .encodeFailed
  let aad ← orError (foreign.packAad sessionId senderId messageSeq) .encodeFailed
  let ciphertext ← orError (foreign.encrypt key nonce message aad) .encryptFailed
  pure ⟨sessionId, senderId, messageSeq, foreign.encodeBase64 nonce,
    foreign.encodeBase64 ciphertext⟩

def decodeEnvelope (envelope : CollabEnvelope) (secret : String) :
    Except ProtocolError SessionPayload := do
  let key ← trafficKey foreign secret
  let nonce ← orError ((foreign.decodeBase64 envelope.nonce).filter (·.length = 24)) .invalidNonce
  let ciphertext ← orError (foreign.decodeBase64 envelope.encryptedPayload) .decryptFailed
  let aad ← orError (foreign.packAad envelope.sessionId envelope.senderId envelope.messageSeq)
    .encodeFailed
  let message ← orError (foreign.decrypt key nonce ciphertext aad) .decryptFailed
  orError (foreign.unpackPayload message) .decodeFailed

def sealPayload (nonce : Bytes) (sessionId : ShareSessionId) (senderId : ParticipantId)
    (messageSeq : UInt64) (secret : String) (payload : SessionPayload) :
    Except ProtocolError Bytes := do
  let envelope ← encodeEnvelope foreign nonce sessionId senderId messageSeq secret payload
  orError (foreign.packEnvelope envelope) .encodeFailed

end Envelopes

/-! ## The transport -/

/-- A message that was queued, with the secret it is encrypted with. -/
structure Outbound where
  sender : ParticipantId
  secret : String
  payload : SessionPayload
  bytes : Bytes
deriving DecidableEq

/-- What the environment has for the next attempt to send: a nonce, and whether the
transport takes the message. -/
structure Attempt where
  nonce : Bytes
  accepts : Bool
deriving DecidableEq, Repr

/-- The attempts to come, and everything queued so far. -/
structure Transport where
  attempts : List Attempt
  sent : List Outbound

def Attempt.refused : Attempt := ⟨[], false⟩

def Transport.next (transport : Transport) : Attempt := transport.attempts.headD .refused

/-- Nothing that was queued is lost, and what is new has a property. -/
def Transport.Grows (before : Transport) (Property : Outbound → Prop) (after : Transport) :
    Prop :=
  ∃ new, after.sent = before.sent ++ new ∧ ∀ outbound ∈ new, Property outbound

theorem Transport.Grows.refl (Property : Outbound → Prop) (transport : Transport) :
    transport.Grows Property transport := ⟨[], by simp, by simp⟩

theorem Transport.Grows.trans {Property : Outbound → Prop} {first second third : Transport}
    (left : first.Grows Property second) (right : second.Grows Property third) :
    first.Grows Property third := by
  obtain ⟨earlier, split, holds⟩ := left
  obtain ⟨later, split', holds'⟩ := right
  refine ⟨earlier ++ later, by rw [split', split, List.append_assoc], ?_⟩
  intro outbound member
  rcases List.mem_append.mp member with member | member
  · exact holds outbound member
  · exact holds' outbound member

theorem Transport.Grows.imp {Property Weaker : Outbound → Prop} {before after : Transport}
    (grows : before.Grows Property after)
    (weaker : ∀ outbound, Property outbound → Weaker outbound) : before.Grows Weaker after := by
  obtain ⟨new, split, holds⟩ := grows
  exact ⟨new, split, fun outbound member => weaker outbound (holds outbound member)⟩

/-! ## The host -/

structure HostSessionContext where
  sessionId : ShareSessionId
  workspaceId : Uuid
  hostToken : String
  sessionSecret : String
  /-- Guests that have not processed a rekey still send under it. -/
  previousSessionSecret : Option String
  inviteSecret : String
  inviteExpiresAt : Option DateTime
  requiresPassphrase : Bool
  tlsCertPem : String
  inviteCode : InviteCode
  guests : Table GuestId GuestPresence
  pendingJoins : List JoinRequest
  pendingControlRequests : List ControlRequest
  terminalControls : Table Uuid TerminalControlState
  lastSnapshot : Option SharedWorkspaceSnapshot
  lastSnapshotSentAt : Option Instant
  rekeyRecoveryUntil : Option Instant
  lastRekeyRecoveryAt : Option Instant
  nextMessageSeq : UInt64

/-- The host and its transport, with the error an operation leaves. -/
structure Sending where
  host : HostSessionContext
  transport : Transport
  lastError : Option String

section Sends

variable (foreign : Foreign)

/-- What became of a message for the transport. -/
inductive Queued where
  | queued
  | refused
  | failed (error : ProtocolError)
  | exhausted
deriving DecidableEq, Repr

def exhaustedSequence : String := "Collaboration message sequence exhausted"

/-- Seal a payload and put it on the transport. The number after it is used up when the
transport takes it. -/
def queueMessage (transport : Transport) (sessionId : ShareSessionId) (sender : ParticipantId)
    (messageSeq : UInt64) (secret : String) (payload : SessionPayload) :
    Queued × UInt64 × Transport :=
  match checkedSucc messageSeq with
  | none => (.exhausted, messageSeq, transport)
  | some nextMessageSeq =>
      let attempt := transport.next
      let rest := { transport with attempts := transport.attempts.tail }
      match sealPayload foreign attempt.nonce sessionId sender messageSeq secret payload with
      | .error error => (.failed error, messageSeq, rest)
      | .ok bytes =>
          if attempt.accepts then
            (.queued, nextMessageSeq,
              { rest with sent := rest.sent ++ [⟨sender, secret, payload, bytes⟩] })
          else
            (.refused, messageSeq, rest)

theorem grows_queueMessage (transport : Transport) (sessionId : ShareSessionId)
    (sender : ParticipantId) (messageSeq : UInt64) (secret : String)
    (payload : SessionPayload) :
    transport.Grows (fun outbound => outbound.sender = sender ∧ outbound.secret = secret ∧
        outbound.payload = payload)
      (queueMessage foreign transport sessionId sender messageSeq secret payload).2.2 := by
  unfold queueMessage
  split
  · exact .refl _ _
  · dsimp only
    split
    · exact ⟨[], by simp, by simp⟩
    · split
      · exact ⟨[_], rfl, by simp⟩
      · exact ⟨[], by simp, by simp⟩

def queuePayload (sending : Sending) (secret : String) (payload : SessionPayload) :
    Queued × Sending :=
  let (answer, nextMessageSeq, transport) := queueMessage foreign sending.transport
    sending.host.sessionId .host sending.host.nextMessageSeq secret payload
  (answer, { sending with
    host := { sending.host with nextMessageSeq := nextMessageSeq }
    transport := transport })

/-- The error a message leaves that was not queued. -/
def Queued.report (onRefusal : String) : Queued → Option String
  | queued => none
  | refused => some onRefusal
  | failed error => some error.display
  | exhausted => some exhaustedSequence

def sendHostPayload (sending : Sending) (payload : SessionPayload) : Bool × Sending :=
  let (answer, after) := queuePayload foreign sending sending.host.sessionSecret payload
  (answer = .queued, { after with
    lastError := answer.report "Collaboration transport rejected an outbound message" <|>
      after.lastError })

/-- Tell the guests under the old secret, and then change it. -/
def sendSessionRekeyed (sending : Sending) (newSessionSecret : String) (now : Instant) :
    Bool × Sending :=
  match sendHostPayload foreign sending (.sessionRekeyed newSessionSecret) with
  | (false, after) => (false, after)
  | (true, after) =>
      (true, { after with host := { after.host with
        previousSessionSecret := some after.host.sessionSecret
        sessionSecret := newSessionSecret
        rekeyRecoveryUntil := some (now + rekeyRecoveryWindow)
        lastRekeyRecoveryAt := some now } })

/-- Repeat the notice of a rekey under the previous secret. -/
def sendRekeyRecovery (sending : Sending) (previous : String) (now : Instant) : Sending :=
  match queuePayload foreign sending previous (.sessionRekeyed sending.host.sessionSecret) with
  | (.queued, after) =>
      { after with host := { after.host with lastRekeyRecoveryAt := some now } }
  | (.exhausted, after) => { after with lastError := some exhaustedSequence }
  | (_, after) => after

def sendRekeyRecoveryIfDue (sending : Sending) (now : Instant) : Sending :=
  match sending.host.rekeyRecoveryUntil with
  | none => sending
  | some deadline =>
      if deadline ≤ now then
        { sending with host := { sending.host with
          previousSessionSecret := none
          rekeyRecoveryUntil := none
          lastRekeyRecoveryAt := none } }
      else if sending.host.lastRekeyRecoveryAt.any (now - · < rekeyRecoveryInterval) then
        sending
      else
        match sending.host.previousSessionSecret with
        | none => { sending with host := { sending.host with rekeyRecoveryUntil := none } }
        | some previous => sendRekeyRecovery foreign sending previous now

end Sends

/-! ## Control of terminals -/

namespace HostSessionContext

def isPresent (guest : GuestPresence) : Bool :=
  guest.connectionState matches .approved | .connected

def sharesControl (panel : SharedPanelSnapshot) : Bool :=
  panel.alive && panel.shareScope.allowsControl

def allowsControlTarget (host : HostSessionContext) (terminalId : Uuid) (guestId : GuestId) :
    Bool :=
  (host.guests.find guestId).any isPresent &&
    host.lastSnapshot.any fun snapshot =>
      snapshot.panels.any fun panel => panel.panelId = terminalId && sharesControl panel

def isRequested (host : HostSessionContext) (terminalId : Uuid) (guestId : GuestId) : Bool :=
  host.pendingControlRequests.any fun request =>
    request.terminalId = terminalId && request.guestId = guestId

/-- The part of `grant_control` in front of the message. -/
def giveControl (host : HostSessionContext) (terminalId : Uuid) (guestId : GuestId) :
    HostSessionContext :=
  { host with
    terminalControls := host.terminalControls.put terminalId
      { terminalId := terminalId
        controller := some guestId
        controllerName := (host.guests.find guestId).map (·.displayName)
        queue := ((host.terminalControls.find terminalId).map
          fun control => control.queue.filter (· ≠ guestId)).getD [] }
    pendingControlRequests := host.pendingControlRequests.filter fun request =>
      request.terminalId ≠ terminalId || request.guestId ≠ guestId }

def controllerFor (host : HostSessionContext) (terminalId : Uuid) : Option GuestId :=
  (host.terminalControls.find terminalId).bind (·.controller)

/-- The part of `revoke_control` in front of the message. -/
def takeControl (host : HostSessionContext) (terminalId : Uuid) : HostSessionContext :=
  match host.terminalControls.find terminalId with
  | none => host
  | some control =>
      { host with
        terminalControls := host.terminalControls.put terminalId
          { control with controller := none, controllerName := none } }

/-- A request that is turned away: unknown targets and names, and what exceeds a bound. -/
def refusesRequest (host : HostSessionContext) (request : ControlRequest) : Bool :=
  !host.allowsControlTarget request.terminalId request.guestId ||
    (host.guests.find request.guestId).all (·.displayName ≠ request.displayName) ||
    maxPendingControlRequests ≤ host.pendingControlRequests.length ||
    maxPendingControlsPerGuest ≤
      host.pendingControlRequests.countP (·.guestId = request.guestId) ||
    ((host.terminalControls.find request.terminalId).isNone &&
      maxSharedControls ≤ host.terminalControls.size) ||
    (host.terminalControls.find request.terminalId).any (maxControlQueue ≤ ·.queue.length)

def noteControlRequest (host : HostSessionContext) (request : ControlRequest) :
    HostSessionContext :=
  if host.refusesRequest request || host.isRequested request.terminalId request.guestId then
    host
  else
    let control := (host.terminalControls.find request.terminalId).getD
      ⟨request.terminalId, none, none, []⟩
    { host with
      pendingControlRequests := host.pendingControlRequests ++ [request]
      terminalControls := host.terminalControls.put request.terminalId
        { control with queue := control.queue ++ [request.guestId] } }

/-- Nothing of the requests of a guest is left, nor terminals that nobody wants. -/
def forgetRequests (host : HostSessionContext) (guestId : GuestId) : HostSessionContext :=
  { host with
    pendingControlRequests := host.pendingControlRequests.filter (·.guestId ≠ guestId)
    terminalControls := (host.terminalControls.mapRows fun _ control =>
      { control with queue := control.queue.filter (· ≠ guestId) }).keepRows fun control =>
        control.controller.isSome || !control.queue.isEmpty }

end HostSessionContext

section Operations

variable (foreign : Foreign)

def grantControl (sending : Sending) (terminalId : Uuid) (guestId : GuestId)
    (utcNow : DateTime) : Sending :=
  if sending.host.allowsControlTarget terminalId guestId &&
      sending.host.isRequested terminalId guestId then
    (sendHostPayload foreign { sending with host := sending.host.giveControl terminalId guestId }
      (.controlGrant ⟨terminalId, guestId, utcNow⟩)).2
  else
    sending

def revokeControl (sending : Sending) (terminalId : Uuid) (reason : String) : Sending :=
  (sendHostPayload foreign { sending with host := sending.host.takeControl terminalId }
    (.controlRevoke ⟨terminalId, sending.host.controllerFor terminalId, reason⟩)).2

def releaseControlsForGuest (sending : Sending) (guestId : GuestId) : Sending :=
  let controlled := (sending.host.terminalControls.rows.filter
    (·.controller = some guestId)).map (·.terminalId)
  let revoked := controlled.foldl
    (fun sending terminalId => revokeControl foreign sending terminalId "Guest disconnected")
    sending
  { revoked with host := revoked.host.forgetRequests guestId }

end Operations

/-! ## Publishing -/

/-- Closed and private panels retain neither requests nor grants. -/
def HostSessionContext.reconcile (host : HostSessionContext)
    (panels : List SharedPanelSnapshot) : HostSessionContext :=
  let controllable := (panels.filter HostSessionContext.sharesControl).map (·.panelId)
  { host with
    terminalControls := host.terminalControls.keepKeys (· ∈ controllable)
    pendingControlRequests := host.pendingControlRequests.filter (·.terminalId ∈ controllable) }

def SharedPanelSnapshot.withControl (controls : Table Uuid TerminalControlState)
    (panel : SharedPanelSnapshot) : SharedPanelSnapshot :=
  match controls.find panel.panelId with
  | none => panel
  | some control =>
      { panel with
        controller := control.controller
        controllerName := control.controllerName
        queueLen := control.queue.length }

/-- The snapshot with the guests and the control state of the host. -/
def SharedWorkspaceSnapshot.merged (snapshot : SharedWorkspaceSnapshot)
    (guests : Table GuestId GuestPresence) (controls : Table Uuid TerminalControlState) :
    SharedWorkspaceSnapshot :=
  { snapshot with
    guests := guests.rows
    terminalControls := controls.rows
    panels := snapshot.panels.map (·.withControl controls) }

def snapshotsEquivalent (left right : SharedWorkspaceSnapshot) : Bool :=
  left.workspaceId = right.workspaceId && left.workspaceName = right.workspaceName &&
    left.guests = right.guests && left.terminalControls = right.terminalControls &&
    left.panels = right.panels

def snapshotNeedsPublish (previous : Option SharedWorkspaceSnapshot)
    (lastSentAt : Option Instant) (next : SharedWorkspaceSnapshot) (now : Instant) : Bool :=
  !previous.any (snapshotsEquivalent · next) ||
    lastSentAt.all (snapshotHeartbeat ≤ now - ·)

section Publishing

variable (foreign : Foreign)

def sendSnapshot (sending : Sending) (snapshot : SharedWorkspaceSnapshot) (now : Instant) :
    Sending :=
  match queuePayload foreign sending sending.host.sessionSecret (.workspaceSnapshot snapshot) with
  | (.queued, after) =>
      { after with host := { after.host with
        lastSnapshot := some snapshot
        lastSnapshotSentAt := some now } }
  | (.refused, after) =>
      { after with lastError := some "Collaboration transport rejected a snapshot under load" }
  | (.failed _, after) => after
  | (.exhausted, after) => { after with lastError := some exhaustedSequence }

def publishReconciled (sending : Sending) (snapshot : SharedWorkspaceSnapshot)
    (now : Instant) : Sending :=
  let host := sending.host.reconcile snapshot.panels
  let merged := snapshot.merged host.guests host.terminalControls
  match validateSnapshotLimits merged with
  | .error error => { sending with host := host, lastError := some error }
  | .ok () =>
      if snapshotNeedsPublish host.lastSnapshot host.lastSnapshotSentAt merged now then
        sendSnapshot foreign { sending with host := host } merged now
      else
        { sending with host := host }

def publishSnapshot (sending : Sending) (snapshot : SharedWorkspaceSnapshot)
    (recoveryNow now : Instant) : Sending :=
  publishReconciled foreign (sendRekeyRecoveryIfDue foreign sending recoveryNow) snapshot now

end Publishing

end TerminalCanvas.Collab.Sharing
