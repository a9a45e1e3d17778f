import TerminalCanvas.Collab.Session
import TerminalCanvas.Foundation.Execution

/-! # The broker

Every handler, every critical section of a connection task and both phases of a join
are steps of one machine, so that a list of inputs is one interleaving of all
clients. The clock, the random draws, cancellations and network failures are inputs;
password hashing and the envelope codec are parameters. -/

namespace TerminalCanvas.Collab

open Execution

def outboundQueueCapacity : Nat := 512
def maxShareSessions : Nat := 128
def maxTrustedDevices : Nat := 128
def maxPasswordVerifications : Nat := 2
def maxPassphraseHashBytes : Nat := 512

structure BrokerConfig where
  requireLoopbackSessionCreation : Bool
deriving DecidableEq, Repr

structure CollabEnvelope where
  sessionId : ShareSessionId
  senderId : ParticipantId
deriving DecidableEq, Repr

/-- The password hashing and the envelope codec of third parties. -/
structure Foreign where
  /-- The hash parses and has the algorithm, parameters, salt and output required. -/
  policyAccepts : String → Bool
  passphraseMatches : (hash passphrase : String) → Bool
  parseEnvelope : Bytes → Option CollabEnvelope

section Checks

variable (foreign : Foreign)

def validatePassphraseHash (hash : String) : Bool :=
  hash.utf8ByteSize ≤ maxPassphraseHashBytes && foreign.policyAccepts hash

/-- `none` for an invalid verification policy. -/
def verifyPassphrase (hash passphrase : String) : Option Bool :=
  if validatePassphraseHash foreign hash && passphrase.utf8ByteSize ≤ maxPassphraseLen then
    some (foreign.passphraseMatches hash passphrase)
  else
    none

def validateRelayEnvelope (sessionId : ShareSessionId) (auth : ParticipantId)
    (payload : Bytes) : Except String Unit :=
  match foreign.parseEnvelope payload with
  | none => .error "Invalid collaboration envelope"
  | some envelope =>
      if envelope.sessionId ≠ sessionId then
        .error "Envelope session does not match the authenticated stream"
      else if envelope.senderId ≠ auth then
        .error "Envelope sender does not match the authenticated stream"
      else
        .ok ()

end Checks

/-! ## Tasks -/

/-- An outbound queue. Its receiver goes away with the socket. -/
structure Channel where
  messages : List Message
  receiver : Bool
deriving DecidableEq, Repr

inductive JoinPhase where
  | prepared
  /-- `none` when the verification has failed as such. -/
  | verified (answer : Option Bool)
deriving DecidableEq, Repr

structure JoinTask where
  sessionId : ShareSessionId
  body : JoinShareSessionRequest
  passphraseHash : Option String
  phase : JoinPhase
  /-- The request was cancelled; the blocking job still owns its slot. -/
  abandoned : Bool
deriving DecidableEq, Repr

inductive ClientMessage where
  | binary (payload : Bytes)
  | text
  | close
  | ping (payload : Bytes)
  | pong
deriving DecidableEq, Repr

inductive ConnectionPhase where
  /-- Authenticated; the upgrade is under way. -/
  | upgrading
  | registered
  | looping
  /-- A valid envelope waits for the registry lock. -/
  | relaying (payload : Bytes)
  | closing
  | closed
deriving DecidableEq, Repr

structure ConnectionTask where
  sessionId : ShareSessionId
  auth : ParticipantId
  phase : ConnectionPhase
deriving DecidableEq, Repr

structure Broker where
  config : BrokerConfig
  sessions : Table ShareSessionId SessionRecord
  channels : Table Uuid Channel
  /-- Free password verification slots. -/
  verificationSlots : Nat
  joins : Table Nat JoinTask
  connections : Table Uuid ConnectionTask
  /-- What `Instant::now` reads. -/
  now : Instant

def Broker.new (config : BrokerConfig) : Broker :=
  ⟨config, ∅, ∅, maxPasswordVerifications, ∅, ∅, 0⟩

inductive SessionRole where
  | host
  | guest
deriving DecidableEq, Repr

inductive Input where
  | tick (elapsed : Nat)
  /-- The clock is read some time before the registry is locked. -/
  | create (loopback : Option Bool) (body : CreateShareSessionRequest) (id : ShareSessionId)
      (hostToken : String) (lag : Nat)
  | join (key : Nat) (sessionId : ShareSessionId) (body : JoinShareSessionRequest)
      (utcNow : DateTime)
  /-- The verification of a join ends, or its worker fails. -/
  | verify (key : Nat) (workerFails : Bool)
  | finish (key : Nat) (draw : SessionRecord.JoinDraw) (utcNow : DateTime)
  | cancel (key : Nat)
  | rotate (sessionId : ShareSessionId) (body : RotateInviteRequest)
  | approve (sessionId : ShareSessionId) (body : JoinDecisionRequest)
  | deny (sessionId : ShareSessionId) (body : JoinDecisionRequest)
  | endSession (sessionId : ShareSessionId) (hostToken : String)
  | stream (connection : Uuid) (sessionId : ShareSessionId) (token : String)
      (role : Option SessionRole)
  | register (connection : Uuid)
  | greet (connection : Uuid)
  | receive (connection : Uuid) (message : ClientMessage)
  | relay (connection : Uuid)
  /-- A read error, a closed stream or an idle window without traffic. -/
  | lose (connection : Uuid)
  | disconnect (connection : Uuid)
  /-- The send task takes a message from its queue, or gives its socket up. -/
  | drain (connection : Uuid) (socketFails : Bool)
  | cleanup (lag : Nat)

inductive Observation where
  | silent
  | created (result : Except ApiError (ShareSessionId × String))
  /-- The first phase; `ok true` starts a passphrase verification. -/
  | prepared (result : Except ApiError Bool)
  | joined (sessionId : ShareSessionId) (deviceId : String)
      (result : Except ApiError JoinShareSessionResponse)
  | decided (result : Except ApiError Unit)
  | authenticated (result : Except ApiError ParticipantId)
  /-- A payload is offered to the queues of its targets. -/
  | relayed (sessionId : ShareSessionId) (sender : ParticipantId) (payload : Bytes)
      (targets : List ParticipantId)

namespace Broker

abbrev Result := StepResult Broker Observation

/-- `try_send` on one outbound queue. -/
def trySend (channels : Table Uuid Channel) (send : Uuid × Message) : Table Uuid Channel :=
  match channels.find send.1 with
  | none => channels
  | some channel =>
      if channel.receiver && channel.messages.length < outboundQueueCapacity then
        channels.put send.1 { channel with messages := channel.messages ++ [send.2] }
      else
        channels

def sendAll (broker : Broker) (sends : Sends) : Broker :=
  { broker with channels := sends.foldl trySend broker.channels }

def store (broker : Broker) (id : ShareSessionId) (session : SessionRecord) : Broker :=
  { broker with sessions := broker.sessions.put id session }

def sessionNotFound : ApiError := ⟨.notFound, "Session not found"⟩

/-! ## Requests -/

def validSessionParameters (body : CreateShareSessionRequest) : Bool :=
  !body.inviteSecret.isEmpty && body.inviteSecret.utf8ByteSize ≤ maxInviteSecretLen &&
    body.trustedDevices.length ≤ maxTrustedDevices &&
    body.trustedDevices.all fun device =>
      !device.deviceId.isEmpty && device.deviceId.utf8ByteSize ≤ maxDeviceIdLen &&
        device.lastDisplayName.utf8ByteSize ≤ maxDisplayNameLen

def newSession (body : CreateShareSessionRequest) (hostToken : String) (now : Instant) :
    SessionRecord where
  inviteSecret := body.inviteSecret
  inviteExpiresAt := body.inviteExpiresAt
  passphraseHash := body.passphraseHash
  hostToken := hostToken
  hostTx := none
  hostConnectionId := none
  hostLastSeen := now
  hostDisconnectedAt := some now
  failedJoinAttempts := 0
  joinLockedUntil := none
  trustedDevices := body.trustedDevices.foldl
    (fun devices device => devices.put device.deviceId device) ∅
  guests := ∅

def createShareSession (foreign : Foreign) (broker : Broker) (loopback : Option Bool)
    (body : CreateShareSessionRequest) (id : ShareSessionId) (hostToken : String)
    (now : Instant) : Result :=
  -- fails closed without a peer address
  if broker.config.requireLoopbackSessionCreation && !loopback.getD false then
    ⟨broker, .created (.error
      ⟨.forbidden, "Session creation is restricted to the local host"⟩)⟩
  else if validSessionParameters body = false then
    ⟨broker, .created (.error ⟨.badRequest, "Invalid session parameters"⟩)⟩
  else if body.passphraseHash.any fun hash => !validatePassphraseHash foreign hash then
    ⟨broker, .created (.error ⟨.badRequest, "Unsupported passphrase hash policy"⟩)⟩
  else if maxShareSessions ≤ broker.sessions.size then
    ⟨broker, .created (.error ⟨.tooManyRequests, "Session capacity reached"⟩)⟩
  else
    ⟨broker.store id (newSession body hostToken now), .created (.ok (id, hostToken))⟩

/-- `sanitize_join_request` and `prepare_join_verification`. -/
def joinShareSession (broker : Broker) (key : Nat) (sessionId : ShareSessionId)
    (request : JoinShareSessionRequest) (utcNow : DateTime) : Result :=
  if (broker.joins.find key).isSome then
    ⟨broker, .silent⟩
  else
    match sanitizeJoinRequest request with
    | .error reason => ⟨broker, .prepared (.error ⟨.badRequest, reason⟩)⟩
    | .ok body =>
        match broker.sessions.find sessionId with
        | none => ⟨broker, .prepared (.error sessionNotFound)⟩
        | some session =>
            let (answer, session, slots) :=
              session.prepareJoin body broker.now utcNow broker.verificationSlots
            let stored := { broker.store sessionId session with verificationSlots := slots }
            match answer with
            | .error error => ⟨stored, .prepared (.error error)⟩
            | .ok reserved => ⟨{ stored with
                joins := stored.joins.put key
                  ⟨sessionId, body, session.passphraseHash, .prepared, false⟩ },
                .prepared (.ok reserved)⟩

/-- The verification of a prepared join, without the lock. -/
def verifyJoin (foreign : Foreign) (broker : Broker) (key : Nat) (workerFails : Bool) : Result :=
  match broker.joins.find key with
  | none => ⟨broker, .silent⟩
  | some task =>
      if task.phase ≠ .prepared then
        ⟨broker, .silent⟩
      else
        match task.passphraseHash with
        | none => ⟨{ broker with
            joins := broker.joins.put key { task with phase := .verified (some true) } }, .silent⟩
        | some hash =>
            -- the slot goes with the blocking job
            let freed := { broker with verificationSlots := broker.verificationSlots + 1 }
            if task.abandoned then
              ⟨{ freed with joins := freed.joins.remove key }, .silent⟩
            else
              let answer := if workerFails then none else
                task.body.passphrase.bind (verifyPassphrase foreign hash)
              ⟨{ freed with joins := freed.joins.put key { task with phase := .verified answer } },
                .silent⟩

def finishJoin (broker : Broker) (key : Nat) (draw : SessionRecord.JoinDraw)
    (utcNow : DateTime) : Result :=
  match broker.joins.find key with
  | some ⟨sessionId, body, hash, .verified answer, false⟩ =>
      let taken := { broker with joins := broker.joins.remove key }
      match answer with
      | none => ⟨taken, .joined sessionId body.deviceId (.error
          ⟨.internalServerError, "Invalid verification policy"⟩)⟩
      | some verified =>
          match taken.sessions.find sessionId with
          | none => ⟨taken, .joined sessionId body.deviceId (.error sessionNotFound)⟩
          | some session =>
              let (answer, session, sends) :=
                session.finishJoin body hash verified draw broker.now utcNow
              ⟨(taken.store sessionId session).sendAll sends,
                .joined sessionId body.deviceId answer⟩
  | _ => ⟨broker, .silent⟩

def cancelJoin (broker : Broker) (key : Nat) : Result :=
  match broker.joins.find key with
  | none => ⟨broker, .silent⟩
  | some task =>
      if task.phase = .prepared ∧ task.passphraseHash.isSome then
        ⟨{ broker with joins := broker.joins.put key { task with abandoned := true } }, .silent⟩
      else
        ⟨{ broker with joins := broker.joins.remove key }, .silent⟩

/-- A decision of the host on one session. -/
def decide (broker : Broker) (sessionId : ShareSessionId)
    (handler : SessionRecord → Except ApiError Unit × SessionRecord × Sends) : Result :=
  match broker.sessions.find sessionId with
  | none => ⟨broker, .decided (.error sessionNotFound)⟩
  | some session =>
      let (answer, session, sends) := handler session
      ⟨(broker.store sessionId session).sendAll sends, .decided answer⟩

def endShareSession (broker : Broker) (sessionId : ShareSessionId) (hostToken : String) :
    Result :=
  match broker.sessions.find sessionId with
  | none => ⟨broker, .decided (.error sessionNotFound)⟩
  | some session =>
      if constantTimeStrEq session.hostToken hostToken = false then
        ⟨broker, .decided (.error ⟨.unauthorized, "Invalid host token"⟩)⟩
      else
        ⟨{ broker with sessions := broker.sessions.remove sessionId }.sendAll
          session.notifySessionEnded, .decided (.ok ())⟩

/-! ## Streams -/

def authenticate (session : SessionRecord) (token : String) : SessionRole → Option ParticipantId
  | .host => if constantTimeStrEq session.hostToken token then some .host else none
  | .guest => (session.guestOfToken token).map .guest

def streamSession (broker : Broker) (connection : Uuid) (sessionId : ShareSessionId)
    (token : String) (role : Option SessionRole) : Result :=
  if (broker.connections.find connection).isSome then
    ⟨broker, .silent⟩
  else
    match role, broker.sessions.find sessionId with
    | none, _ => ⟨broker, .authenticated (.error ⟨.badRequest, "Invalid role"⟩)⟩
    | some _, none => ⟨broker, .authenticated (.error sessionNotFound)⟩
    | some role, some session =>
        match authenticate session token role with
        | none => ⟨broker, .authenticated (.error ⟨.unauthorized, "Invalid token"⟩)⟩
        | some auth => ⟨{ broker with
            connections := broker.connections.put connection ⟨sessionId, auth, .upgrading⟩ },
            .authenticated (.ok auth)⟩

/-- The task of a connection in another phase. -/
def moveTo (broker : Broker) (connection : Uuid) (task : ConnectionTask)
    (phase : ConnectionPhase) : Broker :=
  { broker with connections := broker.connections.put connection { task with phase := phase } }

/-- The first critical section of `handle_socket`. -/
def registerSocket (broker : Broker) (connection : Uuid) : Result :=
  match broker.connections.find connection with
  | some ⟨sessionId, auth, .upgrading⟩ =>
      let task : ConnectionTask := ⟨sessionId, auth, .upgrading⟩
      match broker.sessions.find sessionId with
      | none => ⟨broker.moveTo connection task .closed, .silent⟩
      | some session =>
          match session.registerStream auth connection broker.now with
          | none => ⟨broker.moveTo connection task .closed, .silent⟩
          | some (session, sends) =>
              let opened := { broker.store sessionId session with
                channels := broker.channels.put connection ⟨[], true⟩ }
              ⟨(opened.sendAll sends).moveTo connection task .registered, .silent⟩
  | _ => ⟨broker, .silent⟩

/-- The greeting, with the second critical section of `handle_socket`. -/
def greetSocket (broker : Broker) (connection : Uuid) : Result :=
  match broker.connections.find connection with
  | some ⟨sessionId, auth, .registered⟩ =>
      let task : ConnectionTask := ⟨sessionId, auth, .registered⟩
      let approval : Sends :=
        match auth, broker.sessions.find sessionId with
        | .guest id, some session =>
            if (session.guests.find id).any GuestRecord.mayRelay then
              [(connection, .text (.joinApproved ⟨id, true⟩))]
            else
              []
        | _, _ => []
      ⟨(broker.sendAll ((connection, .text (.connected auth)) :: approval)).moveTo
        connection task .looping, .silent⟩
  | _ => ⟨broker, .silent⟩

def markActivity (broker : Broker) (sessionId : ShareSessionId) (auth : ParticipantId)
    (connection : Uuid) : Broker :=
  match broker.sessions.find sessionId with
  | none => broker
  | some session =>
      broker.store sessionId (session.markConnectionActivity auth connection broker.now)

/-- A message is read: activity is marked, and an envelope validated. -/
def receiveMessage (foreign : Foreign) (broker : Broker) (connection : Uuid)
    (message : ClientMessage) : Result :=
  match broker.connections.find connection with
  | some ⟨sessionId, auth, .looping⟩ =>
      let task : ConnectionTask := ⟨sessionId, auth, .looping⟩
      let marked := broker.markActivity sessionId auth connection
      match message with
      | .binary payload =>
          match validateRelayEnvelope foreign sessionId auth payload with
          | .error reason =>
              ⟨(marked.sendAll [(connection, .text (.error reason))]).moveTo
                connection task .closing, .silent⟩
          | .ok () => ⟨marked.moveTo connection task (.relaying payload), .silent⟩
      | .text =>
          ⟨(marked.sendAll [(connection,
            .text (.error "Client text frames are not allowed"))]).moveTo
              connection task .closing, .silent⟩
      | .close => ⟨marked.moveTo connection task .closing, .silent⟩
      | .ping payload =>
          let full := match marked.channels.find connection with
            | none => true
            | some channel =>
                !channel.receiver || outboundQueueCapacity ≤ channel.messages.length
          if full then
            ⟨marked.moveTo connection task .closing, .silent⟩
          else
            ⟨marked.sendAll [(connection, .pong payload)], .silent⟩
      | .pong => ⟨marked, .silent⟩
  | _ => ⟨broker, .silent⟩

/-- `relay_payload` on a validated envelope. -/
def relayPayload (broker : Broker) (connection : Uuid) : Result :=
  match broker.connections.find connection with
  | some ⟨sessionId, auth, .relaying payload⟩ =>
      let task : ConnectionTask := ⟨sessionId, auth, .relaying payload⟩
      let targets := match broker.sessions.find sessionId with
        | none => []
        | some session => session.relayTargets auth
      ⟨(broker.sendAll (targets.map fun target => (target.2, .binary payload))).moveTo
        connection task .looping, .relayed sessionId auth payload (targets.map (·.1))⟩
  | _ => ⟨broker, .silent⟩

def loseSocket (broker : Broker) (connection : Uuid) : Result :=
  match broker.connections.find connection with
  | some ⟨sessionId, auth, .looping⟩ =>
      ⟨broker.moveTo connection ⟨sessionId, auth, .looping⟩ .closing, .silent⟩
  | _ => ⟨broker, .silent⟩

def disconnectSocket (broker : Broker) (connection : Uuid) : Result :=
  match broker.connections.find connection with
  | some ⟨sessionId, auth, .closing⟩ =>
      let task : ConnectionTask := ⟨sessionId, auth, .closing⟩
      match broker.sessions.find sessionId with
      | none => ⟨broker.moveTo connection task .closed, .silent⟩
      | some session =>
          let (session, sends) := session.handleDisconnect auth connection broker.now
          ⟨((broker.store sessionId session).sendAll sends).moveTo connection task .closed,
            .silent⟩
  | _ => ⟨broker, .silent⟩

def drainChannel (broker : Broker) (connection : Uuid) (socketFails : Bool) : Result :=
  match broker.channels.find connection with
  | none => ⟨broker, .silent⟩
  | some channel =>
      let drained := { channel with
        messages := channel.messages.tail
        receiver := channel.receiver && !socketFails }
      ⟨{ broker with channels := broker.channels.put connection drained }, .silent⟩

/-! ## The cleanup -/

def cleanupSession (now : Instant) (broker : Broker) (id : ShareSessionId) : Broker :=
  match broker.sessions.find id with
  | none => broker
  | some session =>
      let (swept, sends, ended) := session.cleanup now
      if ended then
        { broker with sessions := broker.sessions.remove id }.sendAll
          (sends ++ swept.notifySessionEnded)
      else
        (broker.store id swept).sendAll sends

def cleanupExpiredSessions (broker : Broker) (now : Instant) : Broker :=
  broker.sessions.keys.foldl (cleanupSession now) broker

/-! ## The machine -/

def step (foreign : Foreign) (broker : Broker) : Input → Result
  | .tick elapsed => ⟨{ broker with now := broker.now + elapsed }, .silent⟩
  | .create loopback body id hostToken lag =>
      broker.createShareSession foreign loopback body id hostToken (broker.now - lag)
  | .join key sessionId body utcNow => broker.joinShareSession key sessionId body utcNow
  | .verify key workerFails => broker.verifyJoin foreign key workerFails
  | .finish key draw utcNow => broker.finishJoin key draw utcNow
  | .cancel key => broker.cancelJoin key
  | .rotate sessionId body => broker.decide sessionId (·.rotateInvite body)
  | .approve sessionId body => broker.decide sessionId (·.approveJoin body broker.now)
  | .deny sessionId body => broker.decide sessionId (·.denyJoin body broker.now)
  | .endSession sessionId hostToken => broker.endShareSession sessionId hostToken
  | .stream connection sessionId token role =>
      broker.streamSession connection sessionId token role
  | .register connection => broker.registerSocket connection
  | .greet connection => broker.greetSocket connection
  | .receive connection message => broker.receiveMessage foreign connection message
  | .relay connection => broker.relayPayload connection
  | .lose connection => broker.loseSocket connection
  | .disconnect connection => broker.disconnectSocket connection
  | .drain connection socketFails => broker.drainChannel connection socketFails
  | .cleanup lag => ⟨broker.cleanupExpiredSessions (broker.now - lag), .silent⟩

def machine (foreign : Foreign) : Machine Broker Input Observation where
  step := step foreign

end Broker

end TerminalCanvas.Collab
