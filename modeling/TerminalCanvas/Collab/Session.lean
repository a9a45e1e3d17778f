import TerminalCanvas.Foundation.Primitives
import TerminalCanvas.Foundation.Table
import TerminalCanvas.Foundation.Text

/-! # A shared session

The record the broker keeps of a session and its guests, and the changes its
handlers make to it under the registry lock. What they put on outbound queues is
returned beside the changed record. -/

namespace TerminalCanvas.Collab

/-- Nanoseconds of the monotonic clock. -/
abbrev Instant := Nat

def seconds (count : Nat) : Nat := count * 1000000000

/-- Nanoseconds of the wall clock, which may jump. -/
abbrev DateTime := Int

def heartbeatTimeout : Nat := seconds 30
def hostReconnectGrace : Nat := seconds 20
def guestReconnectGrace : Nat := seconds 45
def pendingJoinTtl : Nat := seconds 120
def deniedGuestTtl : Nat := seconds 30
def joinBackoffMaxSecs : Nat := 30
def participantLimit : Nat := 3

inductive StatusCode where
  | badRequest
  | unauthorized
  | forbidden
  | notFound
  | conflict
  | gone
  | tooManyRequests
  | internalServerError
deriving DecidableEq, Repr

structure ApiError where
  status : StatusCode
  message : String
deriving DecidableEq, Repr

structure ShareSessionId where
  id : Uuid
deriving DecidableEq, Repr

structure GuestId where
  id : Uuid
deriving DecidableEq, Repr

inductive ParticipantId where
  | host
  | guest (id : GuestId)
deriving DecidableEq, Repr

inductive GuestConnectionState where
  | pending
  | approved
  | connected
  | disconnected
  | denied
deriving DecidableEq, Repr

structure TrustedDevice where
  deviceId : String
  lastDisplayName : String
  approvedAt : DateTime
  lastSeenAt : DateTime
deriving DecidableEq, Repr

/-! ## Messages -/

structure GuestPresence where
  id : GuestId
  displayName : String
  joinedAt : DateTime
  connectionState : GuestConnectionState
deriving DecidableEq, Repr

structure JoinRequest where
  guestId : GuestId
  displayName : String
  deviceId : String
  requestedAt : DateTime
deriving DecidableEq, Repr

structure JoinDecision where
  guestId : GuestId
  approved : Bool
deriving DecidableEq, Repr

inductive BrokerControlMessage where
  | connected (role : ParticipantId)
  | joinRequested (request : JoinRequest)
  | joinApproved (decision : JoinDecision)
  | joinDenied (decision : JoinDecision)
  | presence (guests : List GuestPresence)
  | hostDisconnected
  | hostReconnected
  | sessionEnded
  | error (message : String)
deriving DecidableEq, Repr

inductive Message where
  | text (control : BrokerControlMessage)
  | binary (payload : Bytes)
  | pong (payload : Bytes)
deriving DecidableEq, Repr

/-- Messages for outbound queues, each named by the connection that drains it. -/
abbrev Sends := List (Uuid × Message)

/-! ## Records -/

structure GuestRecord where
  token : String
  displayName : String
  deviceId : String
  joinedAt : DateTime
  /-- Authorization survives transport changes. -/
  approved : Bool
  connectionState : GuestConnectionState
  tx : Option Uuid
  connectionId : Option Uuid
  lastSeen : Instant
  disconnectedAt : Option Instant
deriving DecidableEq, Repr

namespace GuestRecord

def isDenied (guest : GuestRecord) : Bool := guest.connectionState = .denied

def mayRelay (guest : GuestRecord) : Bool :=
  guest.approved && (guest.connectionState = .approved || guest.connectionState = .connected)

/-- `none` for a denied guest. -/
def connect (guest : GuestRecord) (connection : Uuid) (now : Instant) : Option GuestRecord :=
  if guest.isDenied then
    none
  else
    some { guest with
      tx := some connection
      connectionId := some connection
      lastSeen := now
      disconnectedAt := none
      connectionState := if guest.approved then .connected else .pending }

def disconnect (guest : GuestRecord) (now : Instant) : GuestRecord :=
  { guest with
    tx := none
    connectionId := none
    disconnectedAt := some now
    connectionState :=
      if guest.isDenied then .denied
      else if guest.approved then .disconnected else .pending }

def approve (guest : GuestRecord) (now : Instant) : GuestRecord :=
  { guest with
    approved := true, connectionState := .approved, disconnectedAt := none, lastSeen := now }

def deny (guest : GuestRecord) (now : Instant) : GuestRecord :=
  { guest with approved := false, connectionState := .denied, disconnectedAt := some now }

def beat (guest : GuestRecord) (now : Instant) : GuestRecord :=
  if guest.tx.isSome && heartbeatTimeout < now - guest.lastSeen then guest.disconnect now
  else guest

/-- The cleanup keeps the guest. -/
def retained (guest : GuestRecord) (now : Instant) : Bool :=
  if guest.isDenied then
    guest.disconnectedAt.any fun at_ => now - at_ ≤ deniedGuestTtl
  else if guest.connectionState = .pending && guest.tx.isNone then
    now - guest.lastSeen ≤ pendingJoinTtl
  else if guest.connectionState = .disconnected && guest.tx.isNone then
    guest.disconnectedAt.any fun at_ => now - at_ ≤ guestReconnectGrace
  else
    true

end GuestRecord

structure SessionRecord where
  inviteSecret : String
  inviteExpiresAt : Option DateTime
  passphraseHash : Option String
  hostToken : String
  hostTx : Option Uuid
  hostConnectionId : Option Uuid
  hostLastSeen : Instant
  hostDisconnectedAt : Option Instant
  failedJoinAttempts : Nat
  joinLockedUntil : Option Instant
  trustedDevices : Table String TrustedDevice
  guests : Table GuestId GuestRecord

structure CreateShareSessionRequest where
  inviteSecret : String
  inviteExpiresAt : Option DateTime
  passphraseHash : Option String
  trustedDevices : List TrustedDevice
deriving DecidableEq, Repr

structure JoinShareSessionRequest where
  displayName : String
  inviteSecret : String
  deviceId : String
  passphrase : Option String
deriving DecidableEq, Repr

structure JoinShareSessionResponse where
  guestId : GuestId
  guestToken : String
  autoApproved : Bool
deriving DecidableEq, Repr

structure JoinDecisionRequest where
  hostToken : String
  guestId : GuestId
deriving DecidableEq, Repr

structure RotateInviteRequest where
  hostToken : String
  inviteSecret : String
  inviteExpiresAt : Option DateTime
deriving DecidableEq, Repr

def maxDisplayNameLen : Nat := 64
def maxDeviceIdLen : Nat := 128
def maxInviteSecretLen : Nat := 128
def maxPassphraseLen : Nat := 1024

def sanitizeJoinRequest (body : JoinShareSessionRequest) :
    Except String JoinShareSessionRequest :=
  let displayName := trim body.displayName
  if displayName.isEmpty then
    .error "Display name is required"
  else if maxDisplayNameLen < displayName.utf8ByteSize then
    .error "Display name too long"
  else if displayName.toList.any fun character => isControl character || character.toNat = 0 then
    .error "Display name contains invalid characters"
  else if maxDeviceIdLen < body.deviceId.utf8ByteSize then
    .error "Device id too long"
  else if maxInviteSecretLen < body.inviteSecret.utf8ByteSize then
    .error "Invite secret too long"
  else if body.passphrase.any fun passphrase => maxPassphraseLen < passphrase.utf8ByteSize then
    .error "Passphrase too long"
  else
    .ok { body with displayName := displayName }

namespace SessionRecord

/-! ## Announcements -/

def sendsToGuests (session : SessionRecord) (control : BrokerControlMessage) : Sends :=
  session.guests.entries.filterMap fun entry => entry.2.tx.map (·, .text control)

def broadcastPresence (session : SessionRecord) : Sends :=
  let control := .presence (session.guests.entries.map fun entry =>
    ⟨entry.1, entry.2.displayName, entry.2.joinedAt, entry.2.connectionState⟩)
  (session.hostTx.toList.map (·, .text control)) ++ session.sendsToGuests control

def notifyHostDisconnected (session : SessionRecord) : Sends :=
  session.sendsToGuests .hostDisconnected

def notifyHostReconnected (session : SessionRecord) : Sends :=
  session.sendsToGuests .hostReconnected

def notifySessionEnded (session : SessionRecord) : Sends :=
  session.sendsToGuests .sessionEnded

/-! ## Joins -/

def activeGuestCount (session : SessionRecord) : Nat :=
  session.guests.countRows fun guest => !guest.isDenied

def validateJoinAccess (session : SessionRecord) (body : JoinShareSessionRequest)
    (utcNow : DateTime) : Except ApiError Unit :=
  if session.inviteExpiresAt.any (· ≤ utcNow) then
    .error ⟨.gone, "Invite expired"⟩
  else if constantTimeStrEq session.inviteSecret body.inviteSecret = false then
    .error ⟨.unauthorized, "Invalid invite secret"⟩
  else if participantLimit ≤ session.activeGuestCount then
    .error ⟨.badRequest, "Participant limit reached"⟩
  else
    .ok ()

def registerFailedJoinAttempt (session : SessionRecord) (now : Instant) : SessionRecord :=
  -- `saturating_add` on `u32`
  let attempts := min (session.failedJoinAttempts + 1) (2 ^ 32 - 1)
  let shift := min (attempts - 1) 5
  let delaySecs := min (2 ^ shift) joinBackoffMaxSecs
  { session with
    failedJoinAttempts := attempts, joinLockedUntil := some (now + seconds delaySecs) }

/-- The first phase of a join, with the free verification slots before and behind it.
`ok true` reserves a passphrase verification. -/
def prepareJoin (session : SessionRecord) (body : JoinShareSessionRequest) (now : Instant)
    (utcNow : DateTime) (slots : Nat) : Except ApiError Bool × SessionRecord × Nat :=
  if session.joinLockedUntil.any (now < ·) then
    (.error ⟨.tooManyRequests, "Join temporarily throttled"⟩, session, slots)
  else
    match session.validateJoinAccess body utcNow with
    | .error error => (.error error, session, slots)
    | .ok () =>
        if session.passphraseHash.isNone then
          (.ok false, session, slots)
        else if body.passphrase.isNone then
          (.error ⟨.unauthorized, "Session passphrase required"⟩,
            session.registerFailedJoinAttempt now, slots)
        else if slots = 0 then
          (.error ⟨.tooManyRequests, "Password verification capacity reached"⟩, session, slots)
        else
          -- the attempt is reserved before the registry is released
          (.ok true, { session with joinLockedUntil := some (now + seconds 1) }, slots - 1)

structure JoinDraw where
  guestId : GuestId
  guestToken : String
deriving DecidableEq, Repr

def admittedGuest (body : JoinShareSessionRequest) (token : String) (autoApproved : Bool)
    (now : Instant) (utcNow : DateTime) : GuestRecord where
  token := token
  displayName := body.displayName
  deviceId := body.deviceId
  joinedAt := utcNow
  approved := autoApproved
  connectionState := if autoApproved then .approved else .pending
  tx := none
  connectionId := none
  lastSeen := now
  disconnectedAt := none

def touchTrusted (session : SessionRecord) (body : JoinShareSessionRequest) (utcNow : DateTime) :
    Table String TrustedDevice :=
  match session.trustedDevices.find body.deviceId with
  | none => session.trustedDevices
  | some trusted => session.trustedDevices.put body.deviceId
      { trusted with lastDisplayName := body.displayName, lastSeenAt := utcNow }

def admitGuest (session : SessionRecord) (body : JoinShareSessionRequest) (draw : JoinDraw)
    (now : Instant) (utcNow : DateTime) : SessionRecord :=
  let autoApproved := (session.trustedDevices.find body.deviceId).isSome
  { session with
    failedJoinAttempts := 0
    joinLockedUntil := none
    trustedDevices := session.touchTrusted body utcNow
    guests := session.guests.put draw.guestId
      (admittedGuest body draw.guestToken autoApproved now utcNow) }

def finishJoin (session : SessionRecord) (body : JoinShareSessionRequest)
    (verifiedHash : Option String) (verified : Bool) (draw : JoinDraw) (now : Instant)
    (utcNow : DateTime) : Except ApiError JoinShareSessionResponse × SessionRecord × Sends :=
  -- the host may have rotated the invite while the passphrase was being hashed
  match session.validateJoinAccess body utcNow with
  | .error error => (.error error, session, [])
  | .ok () =>
      if session.passphraseHash ≠ verifiedHash then
        (.error ⟨.conflict, "Session policy changed; retry join"⟩, session, [])
      else if verified = false then
        (.error ⟨.unauthorized, "Invalid session passphrase"⟩,
          session.registerFailedJoinAttempt now, [])
      else
        let autoApproved := (session.trustedDevices.find body.deviceId).isSome
        let admitted := session.admitGuest body draw now utcNow
        let request : JoinRequest := ⟨draw.guestId, body.displayName, body.deviceId, utcNow⟩
        let requested := if autoApproved then [] else
          admitted.hostTx.toList.map (·, .text (.joinRequested request))
        (.ok ⟨draw.guestId, draw.guestToken, autoApproved⟩, admitted,
          admitted.broadcastPresence ++ requested)

/-! ## The host's decisions -/

/-- A handler that only the host's token opens. -/
def asHost {Answer : Type} (session : SessionRecord) (token : String)
    (handler : Except ApiError Answer × SessionRecord × Sends) :
    Except ApiError Answer × SessionRecord × Sends :=
  if constantTimeStrEq session.hostToken token then handler
  else (.error ⟨.unauthorized, "Invalid host token"⟩, session, [])

def rotateInvite (session : SessionRecord) (body : RotateInviteRequest) :
    Except ApiError Unit × SessionRecord × Sends :=
  session.asHost body.hostToken (.ok (), { session with
    inviteSecret := body.inviteSecret
    inviteExpiresAt := body.inviteExpiresAt
    failedJoinAttempts := 0
    joinLockedUntil := none }, [])

def withGuest (session : SessionRecord) (id : GuestId) (guest : GuestRecord) : SessionRecord :=
  { session with guests := session.guests.put id guest }

def approveJoin (session : SessionRecord) (body : JoinDecisionRequest) (now : Instant) :
    Except ApiError Unit × SessionRecord × Sends :=
  session.asHost body.hostToken <|
    match session.guests.find body.guestId with
    | none => (.error ⟨.notFound, "Guest not found"⟩, session, [])
    | some guest =>
        if guest.isDenied then
          (.error ⟨.gone, "Join request was revoked"⟩, session, [])
        else
          let decided := session.withGuest body.guestId (guest.approve now)
          (.ok (), decided,
            guest.tx.toList.map (·, .text (.joinApproved ⟨body.guestId, true⟩)) ++
              decided.broadcastPresence)

def denyJoin (session : SessionRecord) (body : JoinDecisionRequest) (now : Instant) :
    Except ApiError Unit × SessionRecord × Sends :=
  session.asHost body.hostToken <|
    match session.guests.find body.guestId with
    | none => (.error ⟨.notFound, "Guest not found"⟩, session, [])
    | some guest =>
        let decided := session.withGuest body.guestId (guest.deny now)
        (.ok (), decided,
          guest.tx.toList.map (·, .text (.joinDenied ⟨body.guestId, false⟩)) ++
            decided.broadcastPresence)

/-! ## Streams -/

def guestOfToken (session : SessionRecord) (token : String) : Option GuestId :=
  (session.guests.entries.find? fun entry =>
    !entry.2.isDenied && constantTimeStrEq entry.2.token token).map (·.1)

/-- The registration of an authenticated stream; `none` when it is refused. -/
def registerStream (session : SessionRecord) (auth : ParticipantId) (connection : Uuid)
    (now : Instant) : Option (SessionRecord × Sends) :=
  match auth with
  | .host =>
      let registered := { session with
        hostDisconnectedAt := none
        hostTx := some connection
        hostConnectionId := some connection
        hostLastSeen := now }
      let pending := session.guests.entries.filterMap fun entry =>
        if !entry.2.approved && entry.2.connectionState = .pending then
          some (connection, .text (.joinRequested
            ⟨entry.1, entry.2.displayName, entry.2.deviceId, entry.2.joinedAt⟩))
        else
          none
      some (registered,
        (if session.hostDisconnectedAt.isSome then registered.notifyHostReconnected else []) ++
          registered.broadcastPresence ++ pending)
  | .guest id => do
      let guest ← session.guests.find id
      let connected ← guest.connect connection now
      let registered := session.withGuest id connected
      pure (registered, registered.broadcastPresence)

/-- What is relayed: to whom a payload of a participant goes. -/
def relayTargets (session : SessionRecord) : ParticipantId → List (ParticipantId × Uuid)
  | .host => session.guests.entries.filterMap fun entry =>
      if entry.2.mayRelay then entry.2.tx.map (.guest entry.1, ·) else none
  | .guest id =>
      match session.guests.find id with
      | none => []
      | some guest => if guest.mayRelay then session.hostTx.toList.map (.host, ·) else []

def markConnectionActivity (session : SessionRecord) (auth : ParticipantId) (connection : Uuid)
    (now : Instant) : SessionRecord :=
  match auth with
  | .host =>
      if session.hostConnectionId = some connection then { session with hostLastSeen := now }
      else session
  | .guest id =>
      match session.guests.find id with
      | none => session
      | some guest =>
          if guest.connectionId = some connection then
            session.withGuest id { guest with lastSeen := now }
          else
            session

def handleDisconnect (session : SessionRecord) (auth : ParticipantId) (connection : Uuid)
    (now : Instant) : SessionRecord × Sends :=
  match auth with
  | .host =>
      if session.hostConnectionId ≠ some connection then
        (session, [])
      else
        let left := { session with
          hostTx := none, hostConnectionId := none, hostDisconnectedAt := some now }
        (left, left.notifyHostDisconnected)
  | .guest id =>
      match session.guests.find id with
      | none => (session, session.broadcastPresence)
      | some guest =>
          if guest.connectionId ≠ some connection then
            (session, [])
          else
            let left := session.withGuest id (guest.disconnect now)
            (left, left.broadcastPresence)

/-! ## The cleanup -/

def beatHost (session : SessionRecord) (now : Instant) : SessionRecord × Sends :=
  if session.hostTx.isSome && heartbeatTimeout < now - session.hostLastSeen then
    let left := { session with hostTx := none, hostConnectionId := none }
    if session.hostDisconnectedAt.isNone then
      ({ left with hostDisconnectedAt := some now }, left.notifyHostDisconnected)
    else
      (left, [])
  else
    (session, [])

def sweepGuests (guests : Table GuestId GuestRecord) (now : Instant) :
    Table GuestId GuestRecord :=
  (guests.mapRows fun _ guest => guest.beat now).keepRows fun guest => guest.retained now

/-- One session in the loop of `cleanup_expired_sessions`; whether it has ended. -/
def cleanup (session : SessionRecord) (now : Instant) : SessionRecord × Sends × Bool :=
  let (host, notices) := session.beatHost now
  let swept := { host with guests := sweepGuests host.guests now }
  let beaten := session.guests.entries.any fun entry =>
    entry.2.tx.isSome && heartbeatTimeout < now - entry.2.lastSeen
  let presence :=
    if beaten || swept.guests.size ≠ session.guests.size then swept.broadcastPresence else []
  (swept, notices ++ presence,
    swept.hostDisconnectedAt.any fun at_ => hostReconnectGrace < now - at_)

end SessionRecord

end TerminalCanvas.Collab
