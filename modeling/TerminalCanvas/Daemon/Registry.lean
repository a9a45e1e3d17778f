import TerminalCanvas.Daemon.Requests
import TerminalCanvas.Foundation.Execution

/-! # Runs of the registry

The loops over all sessions, and the machine whose inputs are the critical
sections of the registry lock together with what other threads do in between:
readers and children to terminals, writers to channels. -/

namespace TerminalCanvas.Daemon

open Execution HookAuthority Scrollback Terminal

namespace DaemonState

variable (host : Host)

/-! ## Loops over the sessions -/

/-- The sessions by identifier, with the focused one swapped to the front. -/
def pumpOrder (state : DaemonState) : List Uuid :=
  let ids := state.sessionIds
  match state.prioritySession.bind fun priority => ids.idxOf? priority with
  | none => ids
  | some position =>
      (ids.set position (ids.getD 0 .nil)).set 0 (ids.getD position .nil)

structure PumpRun where
  state : DaemonState
  events : List Response
  refused : List Uuid
  interactiveBudget : Nat

def PumpRun.turn (answers : Answers) (run : PumpRun) (id : Uuid) : PumpRun :=
  match run.state.session id with
  | none => run
  | some session =>
      if session.handle.isNone then
        run
      else if session.retirementRequested then
        { run with state :=
            run.state.setSession id (session.captureRetirement (answers.closerStarts id)) }
      else
        let focused := run.state.prioritySession = some id
        let budget := if focused ∧ 0 < run.interactiveBudget then
            some run.interactiveBudget else none
        let (turn, next) := session.pump host id run.state.lineLimit budget answers.moment
        { state := run.state.setSession id next
          events := run.events ++ turn.events
          refused := if turn.refused then run.refused ++ [id] else run.refused
          interactiveBudget := if focused then run.interactiveBudget - turn.drained
            else run.interactiveBudget }

def pumpLoop (state : DaemonState) (answers : Answers) : PumpRun :=
  state.pumpOrder.foldl (PumpRun.turn host answers)
    ⟨state, [], [], if state.prioritySession.isSome then interactiveByteBudget else 0⟩

def disconnectAll (state : DaemonState) (refused : List Uuid) : DaemonState :=
  refused.foldl disconnectSessionSubscribers state

def pumpOutputAt (state : DaemonState) (answers : Answers) : List Response × DaemonState :=
  let run := state.pumpLoop host answers
  (run.events, run.state.disconnectAll run.refused)

/-- The pump of the serving loop: drain, then broadcast. -/
def pumpAndBroadcast (state : DaemonState) (answers : Answers) : DaemonState :=
  let (events, pumped) := state.pumpOutputAt host answers
  if events.isEmpty then pumped else pumped.broadcast events

/-- The state of the checkpoint loop. -/
structure CaptureRun where
  state : DaemonState
  events : List Response
  refused : List Uuid
  targets : List ScrollbackTarget

def CaptureRun.turn (moment : Moment) (run : CaptureRun) (id : Uuid) : CaptureRun :=
  match run.state.session id with
  | none => run
  | some session =>
      let (turn, next) := session.takeDirtyTarget host id run.state.lineLimit moment
      { state := run.state.setSession id next
        events := run.events ++ turn.events
        refused := if turn.refused then run.refused ++ [id] else run.refused
        targets := run.targets ++ turn.target.toList }

def captureLoop (state : DaemonState) (answers : Answers) : CaptureRun :=
  answers.order.foldl (CaptureRun.turn host answers.moment) ⟨state, [], [], []⟩

def takeDirtyScrollbackTargetsAt (state : DaemonState) (answers : Answers) :
    List ScrollbackTarget × DaemonState :=
  let run := state.captureLoop host answers
  (run.targets, (run.state.disconnectAll run.refused).broadcast run.events)

def withSession (state : DaemonState) (id : Uuid) (change : DaemonSession → DaemonSession) :
    DaemonState :=
  match state.session id with
  | some session => state.setSession id (change session)
  | none => state

end DaemonState

/-! ## The machine -/

/-- The registry and the authenticated sockets it serves, each with its client. -/
structure RegistryState where
  registry : DaemonState
  connections : Table Uuid Uuid

inductive RegistryInput where
  | connect (connectionId clientId : Uuid)
  | disconnect (connectionId : Uuid) (now : Nat)
  | request (clientId : Uuid) (request : Request) (answers : Answers)
  | pump (answers : Answers)
  | capture (answers : Answers)
  | acknowledge (id : Uuid) (writtenBytes : Nat)
  | flag (id : Uuid)
  | finishRetirements (answers : Answers)
  /-- A reader or a child changed the terminal of a session. -/
  | terminal (id : Uuid) (handle : SharedPtyHandle)
  /-- Connection threads changed their channels and subscriptions. -/
  | wires (subscribers : List Subscriber) (channels : Table Uuid Channel)

namespace RegistryState

def new (now : Nat) : RegistryState := ⟨.new now, ∅⟩

def withRegistry (state : RegistryState) (registry : DaemonState) : RegistryState :=
  { state with registry := registry }

def step (host : Host) (state : RegistryState) :
    RegistryInput → StepResult RegistryState (Option Response)
  | .connect connectionId clientId =>
      ⟨⟨state.registry.clientConnected clientId, state.connections.put connectionId clientId⟩,
        none⟩
  | .disconnect connectionId now =>
      match state.connections.find connectionId with
      | some clientId =>
          ⟨⟨(state.registry.unsubscribe connectionId).clientDisconnected clientId now,
            state.connections.remove connectionId⟩, none⟩
      | none => ⟨state, none⟩
  | .request clientId request answers =>
      let (response, next) := state.registry.handleRequestForClient host answers clientId request
      ⟨state.withRegistry next, some response⟩
  | .pump answers => ⟨state.withRegistry (state.registry.pumpAndBroadcast host answers), none⟩
  | .capture answers =>
      ⟨state.withRegistry (state.registry.takeDirtyScrollbackTargetsAt host answers).2, none⟩
  | .acknowledge id writtenBytes =>
      ⟨state.withRegistry
        (state.registry.withSession id (·.acknowledgePersisted writtenBytes)), none⟩
  | .flag id =>
      ⟨state.withRegistry
        (state.registry.withSession id ({ · with scrollbackDirty := true })), none⟩
  | .finishRetirements answers =>
      ⟨state.withRegistry (state.registry.finishAcknowledgedRetirements answers), none⟩
  | .terminal id handle =>
      ⟨state.withRegistry (state.registry.withSession id fun session =>
        { session with handle := session.handle.map fun _ => handle }), none⟩
  | .wires subscribers channels =>
      ⟨state.withRegistry { state.registry with
        subscribers := subscribers, channels := channels }, none⟩

end RegistryState

/-- The registry of a daemon on a given host. -/
def registryMachine (host : Host) : Machine RegistryState RegistryInput (Option Response) where
  step := RegistryState.step host

end TerminalCanvas.Daemon
