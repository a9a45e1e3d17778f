import TerminalCanvas.Collab.Controls
import TerminalCanvas.Foundation.Execution

/-! # The collaboration manager

One participant of shared sessions, host or guest, and every step it takes: on events of
its transport, on answers of the broker's HTTP interface and on requests of its user. -/

namespace TerminalCanvas.Collab.Sharing

open Execution

/-! ## State -/

inductive CollabMode where
  | inactive
  | host
  | guest
deriving DecidableEq, Repr

inductive CollabSessionState where
  | notSharing
  | starting
  | live
  | disconnected
  | ended
deriving DecidableEq, Repr

structure GuestSessionContext where
  approved : Bool
  sessionId : ShareSessionId
  guestId : GuestId
  sessionSecret : String
  /-- The secret before the last rekey, which messages in flight still use. -/
  previousSessionSecret : Option String
  displayName : String
  nextMessageSeq : UInt64

structure GuestWorkspaceView where
  snapshot : Option SharedWorkspaceSnapshot
  focusedPanel : Option Uuid
  myGuestId : Option GuestId
  scrollOffsets : Table Uuid Nat

inductive CollabHttpOp where
  /-- `removedRequest` returns when the request fails. -/
  | approveJoin (guestId : GuestId) (removedRequest : Option JoinRequest)
  | denyJoin (guestId : GuestId) (removedRequest : Option JoinRequest)
  | rotateInvite (inviteSecret : String) (inviteExpiresAt : Option DateTime)
      (newSessionSecret : String)
  | joinSession (invite : InviteCode) (displayName : String)

/-- A request whose result has not arrived, with the session it belongs to. -/
structure CollabHttpJob where
  generation : UInt64
  op : CollabHttpOp

structure CollabManager where
  brokerUrl : String
  mode : CollabMode
  sessionState : CollabSessionState
  host : Option HostSessionContext
  guest : Option GuestSessionContext
  guestView : GuestWorkspaceView
  remoteInputs : List GuestTerminalInput
  remoteInputSenders : List GuestId
  receivedMessageSeq : Table ParticipantId UInt64
  lastError : Option String
  httpGeneration : UInt64
  joinPending : Bool
  /-- The requests at the HTTP worker. -/
  jobs : List CollabHttpJob
  transport : Transport

def GuestWorkspaceView.empty : GuestWorkspaceView := ⟨none, none, none, ∅⟩

def CollabManager.new (brokerUrl : String) : CollabManager where
  brokerUrl := brokerUrl
  mode := .inactive
  sessionState := .notSharing
  host := none
  guest := none
  guestView := .empty
  remoteInputs := []
  remoteInputSenders := []
  receivedMessageSeq := ∅
  lastError := none
  httpGeneration := 0
  joinPending := false
  jobs := []
  transport := ⟨[], []⟩

/-! ## Sessions -/

/-- What starting a host session draws and is answered. -/
structure HostStart where
  workspaceId : Uuid
  reachableUrl : String
  sessionSecret : String
  inviteSecret : String
  inviteExpiresAt : Option DateTime
  requiresPassphrase : Bool
  tlsCertPem : String
  sessionId : ShareSessionId
  hostToken : String

def HostStart.inviteCode (start : HostStart) : InviteCode :=
  ⟨start.reachableUrl, start.sessionId, start.sessionSecret, some start.inviteSecret,
    start.inviteExpiresAt, start.requiresPassphrase, some start.tlsCertPem⟩

def HostSessionContext.new (start : HostStart) : HostSessionContext where
  sessionId := start.sessionId
  workspaceId := start.workspaceId
  hostToken := start.hostToken
  sessionSecret := start.sessionSecret
  previousSessionSecret := none
  inviteSecret := start.inviteSecret
  inviteExpiresAt := start.inviteExpiresAt
  requiresPassphrase := start.requiresPassphrase
  tlsCertPem := start.tlsCertPem
  inviteCode := start.inviteCode
  guests := ∅
  pendingJoins := []
  pendingControlRequests := []
  terminalControls := ∅
  lastSnapshot := none
  lastSnapshotSentAt := none
  rekeyRecoveryUntil := none
  lastRekeyRecoveryAt := none
  nextMessageSeq := 1

namespace CollabManager

variable (manager : CollabManager)

def stopSession : CollabManager :=
  { manager with
    httpGeneration := manager.httpGeneration + 1
    joinPending := false
    mode := .inactive
    sessionState := .notSharing
    host := none
    guest := none
    guestView := .empty
    remoteInputs := []
    remoteInputSenders := []
    receivedMessageSeq := ∅
    lastError := none }

/-- `start` is `none` when a step in front of the new session failed. -/
def startHostSession (start : Option HostStart) : CollabManager :=
  let stopped := { manager.stopSession with sessionState := .starting }
  match start with
  | none => stopped
  | some start =>
      { stopped with
        brokerUrl := start.reachableUrl
        host := some (.new start)
        mode := .host }

/-- `invite` is `none` when the code was refused. -/
def joinSession (invite : Option InviteCode) (displayName : String) : CollabManager :=
  let stopped := manager.stopSession
  match invite with
  | none => stopped
  | some invite =>
      { stopped with
        sessionState := .starting
        joinPending := true
        jobs := stopped.jobs ++ [⟨stopped.httpGeneration, .joinSession invite displayName⟩] }

def withHost (operation : Sending → Sending) : CollabManager :=
  match manager.host with
  | none => manager
  | some host =>
      let after := operation ⟨host, manager.transport, manager.lastError⟩
      { manager with
        host := some after.host, transport := after.transport, lastError := after.lastError }

def updateHost (change : HostSessionContext → HostSessionContext) : CollabManager :=
  { manager with host := manager.host.map change }

/-! ## Requests to the broker -/

def sendJoinDecision (guestId : GuestId) (approve : Bool) : CollabManager :=
  match manager.host with
  | none => manager
  | some host =>
      let removed := host.pendingJoins.find? (·.guestId = guestId)
      { manager with
        host := some { host with pendingJoins := host.pendingJoins.eraseP (·.guestId = guestId) }
        jobs := manager.jobs ++ [⟨manager.httpGeneration,
          if approve then .approveJoin guestId removed else .denyJoin guestId removed⟩] }

/-- Both secrets are drawn at random. -/
def rotateInvite (inviteSecret newSessionSecret : String) (inviteExpiresAt : Option DateTime) :
    CollabManager :=
  match manager.host with
  | none => manager
  | some _ =>
      { manager with
        jobs := manager.jobs ++ [⟨manager.httpGeneration,
          .rotateInvite inviteSecret inviteExpiresAt newSessionSecret⟩] }

/-- A late failure does not revive a request that was decided or expired. -/
def restorePendingJoin (guestId : GuestId) (removedRequest : Option JoinRequest) :
    CollabManager :=
  manager.updateHost fun host =>
    match removedRequest with
    | none => host
    | some request =>
        if (host.guests.find guestId).any (·.connectionState = .pending) &&
            !host.pendingJoins.any (·.guestId = guestId) then
          { host with pendingJoins := host.pendingJoins ++ [request] }
        else
          host

/-- The new invite carries the session secret that the host has by then. -/
def renewInvite (brokerUrl inviteSecret : String) (inviteExpiresAt : Option DateTime)
    (host : HostSessionContext) : HostSessionContext :=
  { host with
    inviteSecret := inviteSecret
    inviteExpiresAt := inviteExpiresAt
    inviteCode := ⟨brokerUrl, host.sessionId, host.sessionSecret, some inviteSecret,
      inviteExpiresAt, host.requiresPassphrase, some host.tlsCertPem⟩ }

/-- The answer to a join names the guest; `none` for a websocket that was refused. -/
structure JoinAnswer where
  guestId : GuestId
  autoApproved : Bool
  connects : Bool

def completeJoin (invite : InviteCode) (displayName : String)
    (result : Except String JoinAnswer) : CollabManager :=
  let settled := { manager with joinPending := false }
  match result with
  | .error error => { settled with sessionState := .notSharing, lastError := some error }
  | .ok answer =>
      if answer.connects then
        { settled with
          guest := some ⟨answer.autoApproved, invite.sessionId, answer.guestId,
            invite.sessionSecret, none, displayName, 1⟩
          guestView := ⟨none, none, some answer.guestId, ∅⟩
          mode := .guest
          sessionState := .starting
          brokerUrl := invite.brokerUrl
          receivedMessageSeq := ∅ }
      else
        { settled with
          sessionState := .notSharing
          lastError := some "El transporte de colaboración está saturado" }

/-- The result of a request. Only a join reads its answer. -/
inductive HttpResult where
  | ok
  | joined (answer : JoinAnswer)
  | error (message : String)

section Outcomes

variable (foreign : Foreign)

/-- The broker confirmed: tell the guests and change the secret, then renew the invite. -/
def rotated (inviteSecret : String) (inviteExpiresAt : Option DateTime)
    (newSessionSecret : String) (now : Instant) : CollabManager :=
  (manager.withHost fun sending =>
    (sendSessionRekeyed foreign sending newSessionSecret now).2).updateHost
      (renewInvite manager.brokerUrl inviteSecret inviteExpiresAt)

def applyHttpOutcome (op : CollabHttpOp) (result : HttpResult) (now : Instant) :
    CollabManager :=
  match op, result with
  | .approveJoin guestId removedRequest, .error error =>
      { manager.restorePendingJoin guestId removedRequest with
        lastError := some ("No se pudo aprobar el acceso: " ++ error) }
  | .denyJoin guestId removedRequest, .error error =>
      { manager.restorePendingJoin guestId removedRequest with
        lastError := some ("No se pudo rechazar el acceso: " ++ error) }
  | .rotateInvite inviteSecret inviteExpiresAt newSessionSecret, .ok
  | .rotateInvite inviteSecret inviteExpiresAt newSessionSecret, .joined _ =>
      manager.rotated foreign inviteSecret inviteExpiresAt newSessionSecret now
  | .rotateInvite _ _ _, .error error =>
      { manager with lastError := some ("No se pudo rotar el invite: " ++ error) }
  | .joinSession invite displayName, .joined answer =>
      manager.completeJoin invite displayName (.ok answer)
  | .joinSession invite displayName, .error error =>
      manager.completeJoin invite displayName (.error error)
  | .joinSession invite displayName, .ok =>
      manager.completeJoin invite displayName (.error "missing field guest_id")
  | .approveJoin _ _, _ | .denyJoin _ _, _ => manager

/-- Results of sessions that were closed are dropped. -/
def jobDone (index : Nat) (result : HttpResult) (now : Instant) : CollabManager :=
  match manager.jobs[index]? with
  | none => manager
  | some job =>
      let rest := { manager with jobs := manager.jobs.eraseIdx index }
      if job.generation = manager.httpGeneration then
        rest.applyHttpOutcome foreign job.op result now
      else
        rest

end Outcomes

/-! ## Messages of the broker -/

def handleConnected : CollabManager :=
  if manager.sessionState = .ended then
    manager
  else
    match manager.mode with
    | .host =>
        -- queued frames can be lost in a reconnect
        { manager.updateHost fun host =>
            { host with lastSnapshot := none, lastRekeyRecoveryAt := none } with
          sessionState := .live, lastError := none }
    | .guest => { manager with sessionState := .starting, lastError := none }
    | .inactive => manager

section Presence

variable (foreign : Foreign)

/-- The guests of a report by their identifiers. Of two with the same one the last counts. -/
def guestTable (guests : List GuestPresence) : Table GuestId GuestPresence :=
  guests.foldl (fun table guest => table.put guest.id guest) ∅

/-- The guests of a report and the joins that still wait. -/
def recordGuests (guests : List GuestPresence) (host : HostSessionContext) :
    HostSessionContext :=
  { host with
    guests := guestTable guests
    pendingJoins := host.pendingJoins.filter fun request =>
      ((guestTable guests).find request.guestId).any (·.connectionState = .pending) }

/-- The guests that a report says are gone, and those it does not name any more. -/
def goneGuests (before : Table GuestId GuestPresence) (host : HostSessionContext)
    (guests : List GuestPresence) : List GuestId :=
  (host.guests.rows.filter fun guest =>
      guest.connectionState matches .disconnected | .denied).map (·.id) ++
    before.keys.filter fun id => guests.all (·.id ≠ id)

def hostPresence (guests : List GuestPresence) (sending : Sending) : Sending :=
  let recorded := { sending with host := recordGuests guests sending.host }
  (goneGuests sending.host.guests recorded.host guests).foldl
    (releaseControlsForGuest foreign) recorded

def handlePresence (guests : List GuestPresence) : CollabManager :=
  let reported := manager.withHost (hostPresence foreign guests)
  { reported with
    guestView := { reported.guestView with
      snapshot := reported.guestView.snapshot.map fun snapshot =>
        { snapshot with guests := guests } } }

def updateGuest (change : GuestSessionContext → GuestSessionContext) : CollabManager :=
  { manager with guest := manager.guest.map change }

def handleBrokerMessage : BrokerControlMessage → CollabManager
  | .connected _ => manager.handleConnected
  | .joinRequested request =>
      manager.updateHost fun host =>
        if host.pendingJoins.any (·.guestId = request.guestId) then host
        else { host with pendingJoins := host.pendingJoins ++ [request] }
  | .joinApproved decision =>
      if manager.guest.any (·.guestId = decision.guestId) && decision.approved &&
          manager.sessionState ≠ .ended then
        { manager.updateGuest fun guest => { guest with approved := true } with
          sessionState := .live, lastError := none }
      else
        manager
  | .joinDenied decision =>
      if manager.guest.any (·.guestId = decision.guestId) then
        { manager.updateGuest fun guest => { guest with approved := false } with
          sessionState := .ended, lastError := some "Join request was denied" }
      else
        manager
  | .presence guests => manager.handlePresence foreign guests
  | .hostDisconnected =>
      if manager.mode = .guest ∧ manager.sessionState ≠ .ended then
        { manager with
          sessionState := .disconnected
          lastError := some "El host perdió la conexión de la sesión compartida" }
      else
        manager
  | .hostReconnected =>
      if manager.mode = .guest ∧ manager.sessionState ≠ .ended then
        { manager with
          sessionState := if manager.guest.any (·.approved) then .live else .starting
          lastError := none }
      else
        manager
  | .sessionEnded => { manager with sessionState := .ended }
  | .error message => { manager with lastError := some message }

end Presence

/-! ## Messages of the participants -/

def maxEnvelopeBytes : Nat := 16 * 1024 * 1024

def sessionId : Option ShareSessionId :=
  manager.host.map (·.sessionId) <|> manager.guest.map (·.sessionId)

def secrets : Option (String × Option String) :=
  manager.host.map (fun host => (host.sessionSecret, host.previousSessionSecret)) <|>
    manager.guest.map fun guest => (guest.sessionSecret, guest.previousSessionSecret)

section Inbound

variable (foreign : Foreign)

/-- Messages in flight may still use the previous secret. -/
def openEnvelope (secrets : String × Option String) (envelope : CollabEnvelope) :
    Option SessionPayload :=
  (decodeEnvelope foreign envelope secrets.1).toOption <|>
    secrets.2.bind fun previous => (decodeEnvelope foreign envelope previous).toOption

/-- What each role takes from whom. -/
def authorizes (sender : ParticipantId) (payload : SessionPayload) : Bool :=
  match manager.mode, sender, payload with
  | .guest, .host, .workspaceSnapshot _ => true
  | .guest, .host, .controlGrant _ => true
  | .guest, .host, .controlRevoke _ => true
  | .guest, .host, .sessionRekeyed _ => true
  | .host, .guest id, .controlRequest request =>
      request.guestId = id && (manager.host.bind (·.guests.find id)).any
        (·.displayName = request.displayName)
  | .host, .guest id, .controlRevoke revoke => revoke.guestId = some id
  | .host, .guest _, .guestInput _ => true
  | _, _, _ => false

def validateInboundPayload (sender : ParticipantId) (payload : SessionPayload) :
    Except String Unit :=
  match validatePayloadLimits foreign.decodeBase64 payload with
  | .error error => .error error
  | .ok () =>
      if manager.authorizes sender payload then .ok ()
      else .error "Collaboration payload is not authorized for the claimed sender"

/-- Everything in front of the sequence check. An error without a text is silent. -/
def openMessage (binary : Bytes) : Except (Option String) (CollabEnvelope × SessionPayload) :=
  if maxEnvelopeBytes < binary.length then
    .error none
  else
    match foreign.unpackEnvelope binary with
    | .error error => .error (some error)
    | .ok envelope =>
        if manager.sessionId ≠ some envelope.sessionId then
          .error (some "Collaboration envelope belongs to another session")
        else
          match manager.secrets with
          | none => .error none
          | some secrets =>
              match openEnvelope foreign secrets envelope with
              | none => .error (some "Failed to decode collab envelope")
              | some payload =>
                  match manager.validateInboundPayload foreign envelope.senderId payload with
                  | .error error => .error (some error)
                  | .ok () => .ok (envelope, payload)

end Inbound

def debugParticipant : ParticipantId → String
  | .host => "Host"
  | .guest id => "Guest(GuestId(" ++ id.id.display ++ "))"

/-- The least number a sender may use next. -/
def expectedSeq (sender : ParticipantId) : UInt64 :=
  saturatingSucc ((manager.receivedMessageSeq.find sender).getD 0)

def validateMessageSequence (sender : ParticipantId) (messageSeq : UInt64) :
    Except String (Table ParticipantId UInt64) :=
  if messageSeq < manager.expectedSeq sender then
    .error ("Invalid message sequence for " ++ debugParticipant sender ++ ": expected " ++
      toString (manager.expectedSeq sender).toNat ++ ", got " ++ toString messageSeq.toNat)
  else
    .ok (manager.receivedMessageSeq.put sender messageSeq)

section Apply

variable (foreign : Foreign)

/-- The guest that controls a terminal in the guest's view of the workspace. -/
def updateRemoteControl (terminalId : Uuid) (controller : Option GuestId)
    (snapshot : SharedWorkspaceSnapshot) : SharedWorkspaceSnapshot :=
  let controllerName := controller.bind fun id =>
    (snapshot.guests.find? (·.id = id)).map (·.displayName)
  { snapshot with
    panels := snapshot.panels.map fun panel =>
      if panel.panelId = terminalId then
        { panel with controller := controller, controllerName := controllerName }
      else
        panel
    terminalControls := snapshot.terminalControls.map fun control =>
      if control.terminalId = terminalId then
        { control with controller := controller, controllerName := controllerName }
      else
        control }

def updateView (change : SharedWorkspaceSnapshot → SharedWorkspaceSnapshot) : CollabManager :=
  { manager with
    guestView := { manager.guestView with snapshot := manager.guestView.snapshot.map change } }

def takeRekey (newSessionSecret : String) (guest : GuestSessionContext) : GuestSessionContext :=
  if guest.sessionSecret = newSessionSecret then
    guest
  else
    { guest with
      previousSessionSecret := some guest.sessionSecret, sessionSecret := newSessionSecret }

def takeRevocation (revoke : ControlRevoke) (sending : Sending) : Sending :=
  if revoke.guestId.isSome && sending.host.controllerFor revoke.terminalId = revoke.guestId then
    revokeControl foreign sending revoke.terminalId revoke.reason
  else
    sending

def applyPayload (sender : ParticipantId) : SessionPayload → CollabManager
  | .workspaceSnapshot snapshot =>
      { manager with
        guestView := { manager.guestView with
          scrollOffsets := manager.guestView.scrollOffsets.keepKeys fun id =>
            snapshot.panels.any (·.panelId = id)
          snapshot := some snapshot } }
  | .controlRequest request => manager.updateHost (·.noteControlRequest request)
  | .controlGrant grant =>
      manager.updateView (updateRemoteControl grant.terminalId (some grant.guestId))
  | .controlRevoke revoke =>
      if manager.mode = .host then manager.withHost (takeRevocation foreign revoke)
      else manager.updateView (updateRemoteControl revoke.terminalId none)
  | .guestInput input =>
      match sender with
      | .guest id =>
          { manager with
            remoteInputs := manager.remoteInputs ++ [input]
            remoteInputSenders := manager.remoteInputSenders ++ [id] }
      | .host => manager
  | .sessionRekeyed newSessionSecret => manager.updateGuest (takeRekey newSessionSecret)

/-- The sender and number of a message whose payload was applied. -/
structure Applied where
  sender : ParticipantId
  messageSeq : UInt64
deriving DecidableEq, Repr

def reject (error : Option String) : CollabManager :=
  { manager with lastError := error <|> manager.lastError }

def handleBinaryMessage (binary : Bytes) : CollabManager × Option Applied :=
  match manager.openMessage foreign binary with
  | .error error => (manager.reject error, none)
  | .ok (envelope, payload) =>
      match manager.validateMessageSequence envelope.senderId envelope.messageSeq with
      | .error error => (manager.reject (some error), none)
      | .ok received =>
          ({ manager with receivedMessageSeq := received }.applyPayload foreign
            envelope.senderId payload, some ⟨envelope.senderId, envelope.messageSeq⟩)

end Apply

/-! ## Requests of a guest -/

section GuestRequests

variable (foreign : Foreign)

def sendGuestPayload (guest : GuestSessionContext) (onRefusal : String)
    (payload : SessionPayload) : CollabManager :=
  let (answer, nextMessageSeq, transport) := queueMessage foreign manager.transport
    guest.sessionId (.guest guest.guestId) guest.nextMessageSeq guest.sessionSecret payload
  { manager with
    guest := some { guest with nextMessageSeq := nextMessageSeq }
    transport := transport
    lastError := match answer with
      | .queued | .failed _ => manager.lastError
      | .refused => some onRefusal
      | .exhausted => some exhaustedSequence }

def liveGuest : Option GuestSessionContext :=
  if manager.sessionState = .live then manager.guest else none

def requestControl (terminalId : Uuid) (utcNow : DateTime) : CollabManager :=
  match manager.liveGuest with
  | none => manager
  | some guest =>
      manager.sendGuestPayload foreign guest
        "Collaboration transport rejected a control request"
        (.controlRequest ⟨terminalId, guest.guestId, guest.displayName, utcNow⟩)

def releaseControl (terminalId : Uuid) : CollabManager :=
  match manager.liveGuest with
  | none => manager
  | some guest =>
      manager.sendGuestPayload foreign guest
        "Collaboration transport rejected control release"
        (.controlRevoke ⟨terminalId, some guest.guestId, "Released by guest"⟩)

def sendGuestInput (terminalId : Uuid) (events : List TerminalInputEvent) : CollabManager :=
  match manager.liveGuest, manager.guestView.snapshot.bind
      (·.panels.find? (·.panelId = terminalId)) with
  | some guest, some panel =>
      let payload := SessionPayload.guestInput ⟨panel.inputTarget, terminalId, events⟩
      if events.isEmpty then
        manager
      else
        match validatePayloadLimits foreign.decodeBase64 payload with
        | .error error => { manager with lastError := some error }
        | .ok () =>
            manager.sendGuestPayload foreign guest
              "Collaboration transport rejected terminal input" payload
  | _, _ => manager

def focusRemotePanel (panelId : Uuid) : CollabManager :=
  { manager with guestView := { manager.guestView with focusedPanel := some panelId } }

def scrollRemotePanel (panelId : Uuid) (deltaLines : Int) : CollabManager :=
  let offset := (manager.guestView.scrollOffsets.find panelId).getD 0
  { manager with guestView := { manager.guestView with
    scrollOffsets := manager.guestView.scrollOffsets.put panelId
      (if 0 < deltaLines then offset - deltaLines.toNat
        else saturatingAddUsize offset (-deltaLines).toNat) } }

/-- A guest sends at most messages of its own, and the rest of its state stays. -/
structure GuestSends (after : CollabManager) : Prop where
  frame : after = { manager with
    guest := after.guest, transport := after.transport, lastError := after.lastError }
  sent : manager.transport.Grows (·.sender ≠ .host) after.transport

theorem guestSends_refl : manager.GuestSends manager := ⟨rfl, .refl _ _⟩

theorem guestSends_sendGuestPayload (guest : GuestSessionContext) (onRefusal : String)
    (payload : SessionPayload) :
    manager.GuestSends (manager.sendGuestPayload foreign guest onRefusal payload) := by
  refine ⟨rfl, (grows_queueMessage foreign _ _ _ _ _ _).imp ?_⟩
  rintro outbound ⟨sender, -⟩
  simp [sender]

theorem guestSends_requestControl (terminalId : Uuid) (utcNow : DateTime) :
    manager.GuestSends (manager.requestControl foreign terminalId utcNow) := by
  unfold requestControl
  split
  · exact manager.guestSends_refl
  · exact manager.guestSends_sendGuestPayload foreign _ _ _

theorem guestSends_releaseControl (terminalId : Uuid) :
    manager.GuestSends (manager.releaseControl foreign terminalId) := by
  unfold releaseControl
  split
  · exact manager.guestSends_refl
  · exact manager.guestSends_sendGuestPayload foreign _ _ _

theorem guestSends_sendGuestInput (terminalId : Uuid) (events : List TerminalInputEvent) :
    manager.GuestSends (manager.sendGuestInput foreign terminalId events) := by
  unfold sendGuestInput
  split
  · dsimp only
    split
    · exact manager.guestSends_refl
    · split
      · exact ⟨rfl, .refl _ _⟩
      · exact manager.guestSends_sendGuestPayload foreign _ _ _
  · exact manager.guestSends_refl

end GuestRequests

/-! ## The machine -/

/-- One call of the manager. Events of the transport and results of requests are calls of
their own; whatever is drawn, read from clocks or decided by the transport comes with
them. -/
inductive Call where
  | startHostSession (start : Option HostStart)
  | joinSession (invite : Option InviteCode) (displayName : String)
  | stopSession
  | sendJoinDecision (guestId : GuestId) (approve : Bool)
  | rotateInvite (inviteSecret newSessionSecret : String) (inviteExpiresAt : Option DateTime)
  | publishSnapshot (snapshot : SharedWorkspaceSnapshot) (recoveryNow now : Instant)
  | grantControl (terminalId : Uuid) (guestId : GuestId) (utcNow : DateTime)
  | revokeControl (terminalId : Uuid) (reason : String)
  | noteControlRequest (request : ControlRequest)
  | releaseControlsForGuest (guestId : GuestId)
  | requestControl (terminalId : Uuid) (utcNow : DateTime)
  | sendGuestInput (terminalId : Uuid) (events : List TerminalInputEvent)
  | releaseControl (terminalId : Uuid)
  | focusRemotePanel (panelId : Uuid)
  | scrollRemotePanel (panelId : Uuid) (deltaLines : Int)
  /-- `drain_events`, behind what the transport delivers. -/
  | takeInputs
  | jobDone (index : Nat) (result : HttpResult) (now : Instant)
  | connected
  | disconnected
  | transportError (message : String)
  | brokerMessage (message : BrokerControlMessage)
  | binaryMessage (binary : Bytes)

/-- A call and the attempts to send that it finds. -/
structure Input where
  call : Call
  attempts : List Attempt

inductive Observation where
  | quiet
  /-- A session ended, or another one began. -/
  | began
  | applied (applied : Option Applied)
  | inputs (inputs : List (GuestId × GuestTerminalInput))

def quiet (manager : CollabManager) : StepResult CollabManager Observation := ⟨manager, .quiet⟩

def begins (manager : CollabManager) : StepResult CollabManager Observation := ⟨manager, .began⟩

/-- The result of a request lets a guest into a session. -/
def completesJoin (index : Nat) (result : HttpResult) : Bool :=
  match manager.jobs[index]?, result with
  | some ⟨generation, .joinSession _ _⟩, .joined answer =>
      generation = manager.httpGeneration && answer.connects
  | _, _ => false

section Machine

variable (foreign : Foreign)

def perform : Call → StepResult CollabManager Observation
  | .startHostSession start => begins (manager.startHostSession start)
  | .joinSession invite displayName => begins (manager.joinSession invite displayName)
  | .stopSession => begins manager.stopSession
  | .sendJoinDecision guestId approve => quiet (manager.sendJoinDecision guestId approve)
  | .rotateInvite inviteSecret newSessionSecret inviteExpiresAt =>
      quiet (manager.rotateInvite inviteSecret newSessionSecret inviteExpiresAt)
  | .publishSnapshot snapshot recoveryNow now =>
      quiet (manager.withHost (Sharing.publishSnapshot foreign · snapshot recoveryNow now))
  | .grantControl terminalId guestId utcNow =>
      quiet (manager.withHost (Sharing.grantControl foreign · terminalId guestId utcNow))
  | .revokeControl terminalId reason =>
      quiet (manager.withHost (Sharing.revokeControl foreign · terminalId reason))
  | .noteControlRequest request => quiet (manager.updateHost (·.noteControlRequest request))
  | .releaseControlsForGuest guestId =>
      quiet (manager.withHost (Sharing.releaseControlsForGuest foreign · guestId))
  | .requestControl terminalId utcNow => quiet (manager.requestControl foreign terminalId utcNow)
  | .sendGuestInput terminalId events => quiet (manager.sendGuestInput foreign terminalId events)
  | .releaseControl terminalId => quiet (manager.releaseControl foreign terminalId)
  | .focusRemotePanel panelId => quiet (manager.focusRemotePanel panelId)
  | .scrollRemotePanel panelId deltaLines => quiet (manager.scrollRemotePanel panelId deltaLines)
  | .takeInputs =>
      ⟨{ manager with remoteInputs := [], remoteInputSenders := [] },
        .inputs (manager.remoteInputSenders.zip manager.remoteInputs)⟩
  | .jobDone index result now =>
      ⟨manager.jobDone foreign index result now,
        if manager.completesJoin index result then .began else .quiet⟩
  | .connected => quiet manager.handleConnected
  | .disconnected =>
      quiet (if manager.sessionState = .ended then manager
        else { manager with sessionState := .disconnected })
  | .transportError message => quiet { manager with lastError := some message }
  | .brokerMessage message => quiet (manager.handleBrokerMessage foreign message)
  | .binaryMessage binary =>
      let (next, applied) := manager.handleBinaryMessage foreign binary
      ⟨next, .applied applied⟩

/-- The manager meets the attempts of an input. -/
def facing (attempts : List Attempt) : CollabManager :=
  { manager with transport := { manager.transport with attempts := attempts } }

def machine : Machine CollabManager Input Observation where
  step manager input := (manager.facing input.attempts).perform foreign input.call

/-- Where a manager gets from its start. -/
def reached (brokerUrl : String) (inputs : List Input) : CollabManager :=
  (machine foreign).run (.new brokerUrl) inputs

variable {foreign}

theorem reached_append_singleton (brokerUrl : String) (inputs : List Input) (input : Input) :
    reached foreign brokerUrl (inputs ++ [input]) =
      (((reached foreign brokerUrl inputs).facing input.attempts).perform foreign
        input.call).nextState := by
  unfold reached
  rw [Machine.run_append]
  rfl

theorem reached_append_cons (brokerUrl : String) (before : List Input) (input : Input)
    (middle : List Input) :
    reached foreign brokerUrl (before ++ input :: middle) =
      (machine foreign).run (reached foreign brokerUrl (before ++ [input])) middle := by
  rw [reached, reached, ← Machine.run_append, List.append_assoc, List.singleton_append]

end Machine

/-! ## A sample session -/

def sampleSecret : String := "00000000000000000000000000000000"

def sampleStart : HostStart where
  workspaceId := .fromU128 1
  reachableUrl := "https://host.example"
  sessionSecret := sampleSecret
  inviteSecret := "invite"
  inviteExpiresAt := none
  requiresPassphrase := false
  tlsCertPem := "pem"
  sessionId := ⟨.fromU128 2⟩
  hostToken := "token"

/-- Third parties without any secrecy. -/
def plainForeign : Foreign where
  encodeBase64 bytes := String.ofList (bytes.map fun byte => Char.ofNat byte.toNat)
  decodeBase64 text := some (text.toList.map fun char => UInt8.ofNat char.toNat)
  encrypt _ _ message _ := some message
  decrypt _ _ ciphertext _ := some ciphertext
  packPayload _ := some []
  unpackPayload _ := none
  packAad _ _ _ := some []
  packEnvelope _ := some [1]
  unpackEnvelope _ := .error "invalid envelope"

end CollabManager

end TerminalCanvas.Collab.Sharing
