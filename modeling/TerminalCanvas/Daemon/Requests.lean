import TerminalCanvas.Daemon.State

/-! # Requests to the daemon

`handleRequestForClient` answers one authenticated request. Each arm of the
source is a definition of its own. -/

namespace TerminalCanvas.Daemon

open HookAuthority Scrollback Terminal

namespace DaemonState

variable (host : Host) (state : DaemonState) (answers : Answers) (clientId : Uuid)

/-! ## Births -/

/-- The same birth again, after a lost acknowledgement. -/
def sameBirth (session : DaemonSession) (clientId : Uuid) (spec : WireSpec) : Bool :=
  session.birthClient = some clientId && !session.retirementRequested &&
    session.spec.hookGeneration = spec.hookGeneration &&
    hostTargetFromSpec session.spec = hostTargetFromSpec spec

/-- A managed birth without a reserved identity, a nonce or a ledger. -/
def unauthorizedBirth (spec : WireSpec) (id : Option Uuid) (store : Option HookStore) : Bool :=
  (hostTargetFromSpec spec).isSome && (id.isNone || spec.hookGeneration.isNone || store.isNone)

/-- The session is made, owned and claimed by its creator. -/
def bear (spec : WireSpec) (id : Option Uuid) : Response × DaemonState :=
  match state.createSession spec id answers.factory with
  | .error error => (.error ("no se pudo crear la sesión del terminal: " ++ error), state)
  | .ok (born, created) =>
      let owned := match created.session born with
        | some session => created.setSession born { session with birthClient := some clientId }
        | none => created
      (.spawned born, owned.addClaimant born clientId)

def handleSpawn (wire : WireSpec) (id : Option Uuid) : Response × DaemonState :=
  let spec := { wire with hookOwner := some clientId }
  match id.filter fun id => (state.birthTombstones.find id).isSome with
  | some id => (birthRejectedResponse id, state)
  | none =>
      if maxBirthIdentities ≤ state.birthIdentities ∧
          ¬ id.any fun id => (state.session id).isSome then
        (.error "La capacidad protegida de nacimientos está completa.", state)
      else
        match id.bind fun id => (state.session id).map fun session => (id, session) with
        | some (id, session) =>
            if sameBirth session clientId spec then (.spawned id, state)
            else (birthRejectedResponse id, state)
        | none =>
            if unauthorizedBirth spec id answers.store then
              match id with
              | some id => (birthRejectedResponse id, state)
              | none =>
                  (.error "managed birth requires a reserved UUID and generation", state)
            else
              state.bear answers clientId spec id

/-! ## Adoption -/

def handleAttach (id : Uuid) : Response × DaemonState :=
  match state.session id with
  | none => (unknownSessionResponse id, state)
  | some session =>
      if session.retirementRequested then
        (closePendingResponse id, state)
      else
        -- Adoption also authorizes closing a session whose snapshot is unavailable.
        match (session.adopt clientId).attachBoundary host id state.lineLimit
            answers.moment with
        | (.error kind, next) =>
            (snapshotFailureResponse id kind,
              (state.setSession id next).disconnectSessionSubscribers id)
        | (.ok (snapshot, pending), next) =>
            (next.attachedResponse id snapshot,
              ((state.setSession id next).broadcast
                (DaemonSession.outputEvents id pending)).addClaimant id clientId)

/-! ## Input -/

/-- A session that takes input: known and not retiring. -/
def acceptsInput (id : Uuid) : Bool :=
  (state.session id).any fun session => !session.retirementRequested

def handleWrite (id : Uuid) : Response × DaemonState :=
  if state.acceptsInput id then (.sessions state.sessionIds, state)
  else (unknownSessionResponse id, state)

def resize (id : Uuid) (cols rows : Nat) : Bool × DaemonState :=
  match state.session id with
  | none => (false, state)
  | some session =>
      if session.retirementRequested then
        (false, state)
      else
        let resized := { session with
          spec := { session.spec with cols := cols, rows := rows }
          scrollbackDirty := true
          handle := session.handle.map fun shared =>
            if shared.poisoned then shared
            else { shared with pty := shared.pty.resize (max cols 1) (max rows 1) } }
        (true, state.setSession id resized)

def handleResize (id : Uuid) (cols rows : Nat) : Response × DaemonState :=
  match state.resize id cols rows with
  | (true, next) => (.sessions next.sessionIds, next)
  | (false, next) => (unknownSessionResponse id, next)

/-! ## Closing -/

/-- A managed session whose exact close fence is not durable. -/
def closeUnfenced (store : Option HookStore) (id : Uuid) (session : DaemonSession)
    (clientId : Uuid) : Bool :=
  (hostTargetFromSpec session.spec).isSome &&
    !hostCloseFenced store id session (some clientId)

/-- A closed session is gone or waits for its final output. -/
def closeAnswer (id : Uuid) (closed : Bool × DaemonState) : Response × DaemonState :=
  (if closed.1 then .killed id else closePendingResponse id, closed.2)

def handleKill (id : Uuid) : Response × DaemonState :=
  match state.session id with
  | none => (unknownSessionResponse id, state)
  | some session =>
      if closeUnfenced answers.store id session clientId then
        (birthRejectedResponse id, state)
      else if session.clientMayClose clientId = false then
        (birthRejectedResponse id, state)
      else
        closeAnswer id (state.kill answers.store id (answers.closerStarts id))

/-- The nonce of an unborn identity was durably fenced and never consumed. -/
def provenUnborn (store : Option HookStore) (id clientId : Uuid) : Bool :=
  match hostUnknownCloseFence store id clientId with
  | none => false
  | some claim =>
      store.any fun store =>
        match store.birthConsumed claim with
        | .ok consumed => !consumed
        | .error _ => false

def handleCloseBirth (id : Uuid) : Response × DaemonState :=
  match state.session id with
  | some session =>
      let managed := (hostTargetFromSpec session.spec).isSome
      if closeUnfenced answers.store id session clientId ||
          (!managed && session.birthClient ≠ some clientId) then
        (birthRejectedResponse id, state)
      else
        closeAnswer id (state.kill answers.store id (answers.closerStarts id))
  | none =>
      match state.birthTombstones.find id with
      | some creator =>
          if creator = clientId ∨
              (hostUnknownCloseFence answers.store id clientId).isSome then
            (.killed id, state)
          else
            (birthRejectedResponse id, state)
      | none =>
          if state.birthIdentities < maxBirthIdentities ∧
              provenUnborn answers.store id clientId then
            (.killed id,
              { state with birthTombstones := state.birthTombstones.put id clientId })
          else
            (closePendingResponse id, state)

/-! ## All requests -/

def handleRequestForClient (request : Request) : Response × DaemonState :=
  match request with
  | .hello .. => (.error "handshake repetido", state)
  | .spawn spec id => state.handleSpawn answers clientId spec id
  | .attach id => state.handleAttach host answers clientId id
  | .write id _ => state.handleWrite id
  | .resize id cols rows => state.handleResize id cols rows
  | .kill id => state.handleKill answers clientId id
  | .closeBirth id => state.handleCloseBirth answers clientId id
  | .setPriority id =>
      let next := { state with prioritySession := id }
      (.sessions next.sessionIds, next)
  | .list => (.sessions state.sessionIds, state)
  | .reconcileLive ids =>
      let (killed, next) := state.reconcileLive answers clientId ids
      (.reconciled killed, next)
  | .shutdownIfIdle => (.shuttingDown, state)

end DaemonState

end TerminalCanvas.Daemon
