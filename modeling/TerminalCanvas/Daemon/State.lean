import Mathlib.Data.Finset.Basic
import Mathlib.Data.List.Sort
import TerminalCanvas.Daemon.Session
import TerminalCanvas.Foundation.Table

/-! # The registry of the daemon

Sessions, who may close them, the identities that are spent, and the connections
that are subscribed. Every request is one critical section of the registry lock;
the hook store, the PTY factory and the order of a hash map answer from outside. -/

namespace TerminalCanvas.Daemon

open HookAuthority Scrollback Terminal

def maxBirthIdentities : Nat := 8192

def subscriberQueueCapacity : Nat := 64

/-! ## Event channels -/

/-- The bounded channel of a connection, and its socket. -/
structure Channel where
  queue : List Response
  /-- The writer thread still receives. -/
  receiving : Bool
  /-- The socket was not shut down. -/
  connected : Bool
  /-- What the writer has put on the socket. -/
  delivered : List Response
deriving DecidableEq, Repr

namespace Channel

def opened : Channel := ⟨[], true, true, []⟩

inductive TrySendError where
  | full
  | disconnected
deriving DecidableEq, Repr

def trySend (channel : Channel) (response : Response) : Except TrySendError Channel :=
  if channel.receiving = false then
    .error .disconnected
  else if subscriberQueueCapacity ≤ channel.queue.length then
    .error .full
  else
    .ok { channel with queue := channel.queue ++ [response] }

def shutdown (channel : Channel) : Channel := { channel with connected := false }

end Channel

structure Subscriber where
  connectionId : Uuid
  sessionId : Uuid
  /-- A clone of the socket to cut off a connection that stopped consuming. -/
  disconnect : Bool
deriving DecidableEq, Repr

/-! ## The registry -/

structure DaemonState where
  sessions : Table Uuid DaemonSession
  /-- The app instances that adopted each session. -/
  sessionClaimants : Table Uuid (Finset Uuid)
  /-- No eviction: a late authenticated spawn must remain fenced. -/
  birthTombstones : Table Uuid Uuid
  /-- The number of authenticated sockets of each instance. -/
  clientConnections : Table Uuid Nat
  clients : Nat
  idleSince : Option Nat
  subscribers : List Subscriber
  channels : Table Uuid Channel
  prioritySession : Option Uuid
  snapshotLineLimit : Option Nat

/-- What the durable hook ledger answers during a request. -/
structure HookStore where
  closeClaim : Uuid → Option Uuid → Except String (Option Claim)
  birthConsumed : Claim → Except String Bool

/-- How a session is made: without a terminal, or by the PTY factory. `fresh` is
the identifier the server draws when the client proposes none. -/
inductive Factory where
  | registryOnly (fresh : Uuid)
  | pty (fresh : Uuid) (spawned : Except String PtyHandle)

def Factory.fresh : Factory → Uuid
  | registryOnly fresh => fresh
  | pty fresh _ => fresh

/-- Everything outside the registry that a request depends on. -/
structure Answers where
  store : Option HookStore
  factory : Factory
  moment : Moment
  /-- Whether the thread that closes the master of a session starts. -/
  closerStarts : Uuid → Bool
  /-- The order in which the session map is walked. -/
  order : List Uuid

def eventSessionId : Response → Option Uuid
  | .output id .. | .exit id | .inputError id _ => some id
  | _ => none

/-! ## Close fences -/

/-- The close claim the store answers, if it answers one. -/
def closeClaimFrom (store : Option HookStore) (runtime : Uuid) (owner : Option Uuid) :
    Option Claim :=
  store.bind fun store =>
    match store.closeClaim runtime owner with
    | .ok claim => claim
    | .error _ => none

def hostUnknownCloseFence (store : Option HookStore) (runtime owner : Uuid) : Option Claim :=
  closeClaimFrom store runtime (some owner)

def hostCloseFenced (store : Option HookStore) (runtime : Uuid) (session : DaemonSession)
    (owner : Option Uuid) : Bool :=
  match hostTargetFromSpec session.spec with
  | none => true
  | some target =>
      (closeClaimFrom store runtime owner).any fun claim =>
        claim.generation = session.spec.hookGeneration &&
          HostHookTarget.from claim.key = target

namespace DaemonState

def new (now : Nat) : DaemonState where
  sessions := ∅
  sessionClaimants := ∅
  birthTombstones := ∅
  clientConnections := ∅
  clients := 0
  idleSince := some now
  subscribers := []
  channels := ∅
  prioritySession := none
  snapshotLineLimit := none

def lineLimit (state : DaemonState) : Nat :=
  state.snapshotLineLimit.getD maxProtocolLineBytes

def session (state : DaemonState) (id : Uuid) : Option DaemonSession := state.sessions.find id

def setSession (state : DaemonState) (id : Uuid) (session : DaemonSession) : DaemonState :=
  { state with sessions := state.sessions.put id session }

def sessionIds (state : DaemonState) : List Uuid :=
  state.sessions.keys.insertionSort fun left right => left.asU128.toNat ≤ right.asU128.toNat

/-- Sessions and tombstones together. -/
def birthIdentities (state : DaemonState) : Nat :=
  saturatingAddUsize state.sessions.size state.birthTombstones.size

/-! ## Subscribers -/

def channel (state : DaemonState) (connectionId : Uuid) : Channel :=
  (state.channels.find connectionId).getD ⟨[], false, false, []⟩

def setChannel (state : DaemonState) (connectionId : Uuid) (channel : Channel) : DaemonState :=
  { state with channels := state.channels.put connectionId channel }

def shutdownSocket (state : DaemonState) (subscriber : Subscriber) : DaemonState :=
  if subscriber.disconnect then
    state.setChannel subscriber.connectionId (state.channel subscriber.connectionId).shutdown
  else
    state

/-- One connection is subscribed to one session at a time. -/
def subscribe (state : DaemonState) (subscriber : Subscriber) : DaemonState :=
  { state with subscribers :=
      state.subscribers.filter (fun other => other.connectionId ≠ subscriber.connectionId) ++
        [subscriber] }

def unsubscribe (state : DaemonState) (connectionId : Uuid) : DaemonState :=
  { state with subscribers :=
      state.subscribers.filter fun other => other.connectionId ≠ connectionId }

def disconnectSessionSubscribers (state : DaemonState) (sessionId : Uuid) : DaemonState :=
  let leaving := state.subscribers.filter fun subscriber => subscriber.sessionId = sessionId
  let shut := leaving.foldl shutdownSocket state
  { shut with subscribers :=
      state.subscribers.filter fun subscriber => subscriber.sessionId ≠ sessionId }

/-- The events of its session go to a subscriber until its channel refuses one.
`false` when it is to be dropped. -/
def sendEvents (state : DaemonState) (subscriber : Subscriber) :
    List Response → Bool × DaemonState
  | [] => (true, state)
  | event :: later =>
      if (eventSessionId event).any (· ≠ subscriber.sessionId) then
        sendEvents state subscriber later
      else
        match (state.channel subscriber.connectionId).trySend event with
        | .ok channel =>
            sendEvents (state.setChannel subscriber.connectionId channel) subscriber later
        | .error .full => (false, state.shutdownSocket subscriber)
        | .error .disconnected => (false, state)

def broadcastTo (state : DaemonState) (events : List Response) :
    List Subscriber → List Subscriber × DaemonState
  | [] => ([], state)
  | subscriber :: later =>
      let (kept, sent) := state.sendEvents subscriber events
      let (others, final) := broadcastTo sent events later
      (if kept then subscriber :: others else others, final)

def broadcast (state : DaemonState) (events : List Response) : DaemonState :=
  let (kept, sent) := state.broadcastTo events state.subscribers
  { sent with subscribers := kept }

/-! ## Spawning -/

def insertSession (state : DaemonState) (id : Uuid) (spec : WireSpec) : DaemonState :=
  state.setSession id (.new spec)

def spawnWithPty (state : DaemonState) (spec : WireSpec) (desiredId : Option Uuid)
    (fresh : Uuid) (spawned : Except String PtyHandle) : Except String (Uuid × DaemonState) :=
  match desiredId with
  | some id =>
      if (state.session id).isSome then
        .error ("el UUID solicitado ya pertenece a otra sesión: " ++ id.display)
      else
        register id
  | none => register fresh
where
  register (id : Uuid) : Except String (Uuid × DaemonState) := do
    let pty ← spawned
    let session := DaemonSession.new spec
    .ok (id, state.setSession id { session with
      historyPanel := spec.panelId.or (some id)
      handle := some ⟨pty.setDaemonDurablePressure 0, false⟩ })

def createSession (state : DaemonState) (spec : WireSpec) (desiredId : Option Uuid)
    (factory : Factory) : Except String (Uuid × DaemonState) :=
  match factory with
  | .pty fresh spawned => state.spawnWithPty spec desiredId fresh spawned
  | .registryOnly fresh =>
      let id := desiredId.getD fresh
      .ok (id, state.insertSession id spec)

/-! ## Closing -/

/-- Remove a session whose final output is durable. -/
def removeRetired (state : DaemonState) (id : Uuid) (session : DaemonSession) : DaemonState :=
  let removed := { state with sessions := state.sessions.remove id }
  let fenced := match session.birthClient with
    | some creator => { removed with birthTombstones := removed.birthTombstones.put id creator }
    | none => removed
  let told := (fenced.broadcast [.exit id]).disconnectSessionSubscribers id
  { told with
    sessionClaimants := told.sessionClaimants.remove id
    prioritySession := if told.prioritySession = some id then none else told.prioritySession }

/-- True only after durable final output permits destroying the handle. -/
def kill (state : DaemonState) (store : Option HookStore) (id : Uuid) (closerStarts : Bool) :
    Bool × DaemonState :=
  match state.session id with
  | none => (false, state)
  | some session =>
      if (hostTargetFromSpec session.spec).isSome && !hostCloseFenced store id session none then
        (false, state)
      else
        let captured := session.requestRetirement.captureRetirement closerStarts
        if captured.retirementAcknowledged then
          (true, (state.setSession id captured).removeRetired id captured)
        else
          (false, state.setSession id captured)

/-- Kill every listed session and report the ones that are gone. -/
def killAll (state : DaemonState) (store : Option HookStore) (closerStarts : Uuid → Bool) :
    List Uuid → List Uuid × DaemonState
  | [] => ([], state)
  | id :: later =>
      let (killed, next) := state.kill store id (closerStarts id)
      let (others, final) := killAll next store closerStarts later
      (if killed then id :: others else others, final)

def retiring (state : DaemonState) (id : Uuid) : Bool :=
  (state.session id).any (·.retirementRequested)

def finishAcknowledgedRetirements (state : DaemonState) (answers : Answers) : DaemonState :=
  (state.killAll answers.store answers.closerStarts
    (answers.order.filter state.retiring)).2

/-! ## Claimants -/

def claimants (state : DaemonState) (id : Uuid) : Finset Uuid :=
  (state.sessionClaimants.find id).getD ∅

/-- The claim of a client on a session is recorded. -/
def addClaimant (state : DaemonState) (id clientId : Uuid) : DaemonState :=
  { state with sessionClaimants :=
      state.sessionClaimants.put id (insert clientId (state.claimants id)) }

/-- The claims of a client on everything it did not list are dropped. -/
def dropClaims (state : DaemonState) (clientId : Uuid) (live : List Uuid) : DaemonState :=
  { state with sessionClaimants := state.sessionClaimants.mapRows fun id claimants =>
      if id ∈ live then claimants else claimants.erase clientId }

/-- A listed session is claimed by a client that may close it. -/
def claimLive (state : DaemonState) (clientId id : Uuid) : DaemonState :=
  if (state.session id).any fun session =>
      session.birthClient.isNone || session.clientMayClose clientId then
    state.addClaimant id clientId
  else
    state

/-- Some claimant of the session has an open connection. -/
def claimedByConnected (state : DaemonState) (id : Uuid) : Bool :=
  (state.sessionClaimants.find id).any fun claimants =>
    decide (∃ claimant ∈ claimants, (state.clientConnections.find claimant).isSome)

/-- A session the list of a client leaves behind. -/
def orphaned (state : DaemonState) (clientId : Uuid) (live : List Uuid) (id : Uuid) : Bool :=
  (state.session id).any fun session =>
    id ∉ live
      && !(session.birthClient.isSome && !session.clientMayClose clientId)
      && !state.claimedByConnected id

def reconcileLive (state : DaemonState) (answers : Answers) (clientId : Uuid)
    (live : List Uuid) : List Uuid × DaemonState :=
  let claimed := live.foldl (fun state id => state.claimLive clientId id)
    (state.dropClaims clientId live)
  let orphans := answers.order.filter (claimed.orphaned clientId live)
  let (killed, final) := claimed.killAll answers.store answers.closerStarts orphans
  (killed.insertionSort fun left right => left.asU128.toNat ≤ right.asU128.toNat, final)

def clientConnected (state : DaemonState) (clientId : Uuid) : DaemonState :=
  { state with
    clients := saturatingAddUsize state.clients 1
    clientConnections := state.clientConnections.put clientId
      (saturatingAddUsize ((state.clientConnections.find clientId).getD 0) 1)
    idleSince := none }

def clientDisconnected (state : DaemonState) (clientId : Uuid) (now : Nat) : DaemonState :=
  let clients := state.clients - 1
  { state with
    clients := clients
    clientConnections := match state.clientConnections.find clientId with
      | some connections =>
          if connections - 1 = 0 then state.clientConnections.remove clientId
          else state.clientConnections.put clientId (connections - 1)
      | none => state.clientConnections
    idleSince := if clients = 0 then some now else state.idleSince }

end DaemonState

end TerminalCanvas.Daemon
