import TerminalCanvas.Daemon.Registry
import TerminalCanvas.Daemon.Standing

/-! # The registry refines its census

Every critical section of the registry is a list of permitted census events, and
its request says which events it may cause. -/

namespace TerminalCanvas.Daemon

open Execution HookAuthority Scrollback Terminal

namespace DaemonState

def census (state : DaemonState) : Census where
  standing id := (state.session id).map DaemonSession.standing
  tombstone := state.birthTombstones.find
  identities := state.sessions.size + state.birthTombstones.size
  connected := state.clientConnections.find

/-- Moves of a registry of the capacity of the program. -/
abbrev Moves (state next : DaemonState) (Kind : CensusEvent → Prop) : Prop :=
  Census.Moves maxBirthIdentities Kind state.census next.census

abbrev Sound (state : DaemonState) : Prop := Census.Sound maxBirthIdentities state.census

variable {state : DaemonState}

/-! ## Sessions in place -/

theorem session_setSession (state : DaemonState) (id other : Uuid) (session : DaemonSession) :
    (state.setSession id session).session other =
      if other = id then some session else state.session other :=
  Table.find_put state.sessions id other session

@[simp] theorem session_setSession_self (state : DaemonState) (id : Uuid)
    (session : DaemonSession) : (state.setSession id session).session id = some session :=
  Table.find_put_self state.sessions id session

theorem census_standing_eq_some {id : Uuid} {session : DaemonSession}
    (found : state.session id = some session) :
    state.census.standing id = some session.standing := by
  simp [census, found]

theorem standings_setSession (state : DaemonState) (id : Uuid) (session : DaemonSession) :
    (state.setSession id session).census.standing =
      Function.update state.census.standing id (some session.standing) := by
  funext other
  by_cases same : other = id
  · simp [census, session_setSession, same]
  · simp [census, session_setSession, same]

theorem census_replaceSession {id : Uuid} {old session : DaemonSession}
    (found : state.session id = some old) :
    (state.setSession id session).census =
      state.census.setStanding id (some session.standing) := by
  have standings := standings_setSession state id session
  have size : (state.setSession id session).sessions.size = state.sessions.size :=
    Table.size_put_of_find_some session found
  simp only [census, Census.setStanding, Census.mk.injEq] at standings ⊢
  refine ⟨standings, rfl, ?_, rfl⟩
  rw [size]
  rfl

theorem census_setSession {id : Uuid} {old session : DaemonSession}
    (found : state.session id = some old) (same : session.standing = old.standing) :
    (state.setSession id session).census = state.census := by
  rw [census_replaceSession found, same, ← census_standing_eq_some found]
  simp [Census.setStanding]

theorem census_withSession (state : DaemonState) (id : Uuid)
    {change : DaemonSession → DaemonSession}
    (keeps : ∀ session, (change session).standing = session.standing) :
    (state.withSession id change).census = state.census := by
  unfold withSession
  split
  · next session found => exact census_setSession found (keeps session)
  · rfl

/-! ## Subscribers and channels -/

/-- Only subscriptions and channels differ. -/
def OnlyWires (state next : DaemonState) : Prop :=
  next = { state with subscribers := next.subscribers, channels := next.channels }

namespace OnlyWires

variable {next later : DaemonState}

theorem trans (first : OnlyWires state next) (second : OnlyWires next later) :
    OnlyWires state later := by
  rw [OnlyWires, second, first]

theorem census (wires : OnlyWires state next) : next.census = state.census := by
  rw [wires]
  rfl

end OnlyWires

theorem shutdownSocket_wires (state : DaemonState) (subscriber : Subscriber) :
    OnlyWires state (state.shutdownSocket subscriber) := by
  unfold shutdownSocket
  split
  · rfl
  · rfl

theorem shutdownAll_wires (subscribers : List Subscriber) (state : DaemonState) :
    OnlyWires state (subscribers.foldl shutdownSocket state) := by
  induction subscribers generalizing state with
  | nil => rfl
  | cons subscriber later induction =>
      exact (shutdownSocket_wires state subscriber).trans (induction _)

theorem disconnectSessionSubscribers_wires (state : DaemonState) (id : Uuid) :
    OnlyWires state (state.disconnectSessionSubscribers id) :=
  (shutdownAll_wires _ state).trans rfl

theorem disconnectAll_wires (refused : List Uuid) (state : DaemonState) :
    OnlyWires state (state.disconnectAll refused) := by
  unfold disconnectAll
  induction refused generalizing state with
  | nil => rfl
  | cons id later induction =>
      exact (disconnectSessionSubscribers_wires state id).trans (induction _)

theorem sendEvents_wires (subscriber : Subscriber) (events : List Response)
    (state : DaemonState) : OnlyWires state (state.sendEvents subscriber events).2 := by
  induction events generalizing state with
  | nil => rfl
  | cons event later induction =>
      unfold sendEvents
      split
      · exact induction state
      · split
        · next channel _ =>
            have set : OnlyWires state (state.setChannel subscriber.connectionId channel) := rfl
            exact set.trans (induction _)
        · exact shutdownSocket_wires state subscriber
        · rfl

theorem broadcastTo_wires (events : List Response) (subscribers : List Subscriber)
    (state : DaemonState) : OnlyWires state (state.broadcastTo events subscribers).2 := by
  induction subscribers generalizing state with
  | nil => rfl
  | cons subscriber later induction =>
      exact (sendEvents_wires subscriber events state).trans (induction _)

theorem broadcast_wires (state : DaemonState) (events : List Response) :
    OnlyWires state (state.broadcast events) :=
  (broadcastTo_wires events state.subscribers state).trans rfl

/-! ## Closing -/

def Closes (ids : List Uuid) : CensusEvent → Prop
  | .retired id | .removed id _ => id ∈ ids
  | _ => False

theorem closes_mono {ids more : List Uuid} (subset : ids ⊆ more) (event : CensusEvent)
    (closes : Closes ids event) : Closes more event := by
  cases event with
  | retired id => exact subset closes
  | removed id creator => exact subset closes
  | born id standing => exact closes
  | adopted id client => exact closes
  | fenced id client => exact closes
  | counted client connections => exact closes

inductive KillTurn (state : DaemonState) (id : Uuid) : Bool × DaemonState → Prop where
  | refused : KillTurn state id (false, state)
  | pending (session captured : DaemonSession) (found : state.session id = some session)
      (standing : captured.standing = session.standing.retire) :
      KillTurn state id (false, state.setSession id captured)
  | gone (session captured : DaemonSession) (found : state.session id = some session)
      (standing : captured.standing = session.standing.retire) :
      KillTurn state id (true, (state.setSession id captured).removeRetired id captured)

theorem kill_turn (state : DaemonState) (store : Option HookStore) (id : Uuid)
    (closerStarts : Bool) : KillTurn state id (state.kill store id closerStarts) := by
  unfold kill
  split
  · exact .refused
  · next session found =>
      split
      · exact .refused
      · have standing :
            (session.requestRetirement.captureRetirement closerStarts).standing =
              session.standing.retire := by
          rw [DaemonSession.standing_captureRetirement,
            DaemonSession.standing_requestRetirement]
        simp only
        split
        · exact .gone session _ found standing
        · exact .pending session _ found standing

theorem retired_census {id : Uuid} {session captured : DaemonSession}
    (found : state.session id = some session)
    (standing : captured.standing = session.standing.retire) :
    (state.setSession id captured).census = state.census.apply (.retired id) := by
  rw [census_replaceSession found, standing]
  simp [Census.apply, census_standing_eq_some found]

theorem removeRetired_census {id creator : Uuid} {session : DaemonSession}
    (found : state.session id = some session) (created : session.birthClient = some creator)
    (unfenced : state.birthTombstones.find id = none) :
    (state.removeRetired id session).census = state.census.apply (.removed id creator) := by
  have fenced : (state.removeRetired id session).census =
      { state with
        sessions := state.sessions.remove id
        birthTombstones := state.birthTombstones.put id creator }.census := by
    simp only [removeRetired, created]
    exact ((broadcast_wires _ _).trans (disconnectSessionSubscribers_wires _ id)).census
  have sessions : (state.sessions.remove id).size + 1 = state.sessions.size :=
    Table.size_remove_of_find_some found
  have tombstones := Table.size_put_of_find_none creator unfenced
  rw [fenced]
  simp only [census, DaemonState.session, Census.apply, Census.setStanding,
    Census.setTombstone, Census.mk.injEq, and_true]
  refine ⟨?_, ?_, by omega⟩
  · funext other
    by_cases same : other = id
    · simp [same]
    · simp [same, Table.find_remove]
  · funext other
    by_cases same : other = id
    · simp [same]
    · simp [same, Table.find_put]

variable {store : Option HookStore}

theorem KillTurn.moves {id : Uuid} {result : Bool × DaemonState}
    (turn : KillTurn state id result)
    (sound : Census.Sound maxBirthIdentities state.census) :
    Census.Moves maxBirthIdentities (Closes [id]) state.census result.2.census := by
  have retires : ∀ session captured : DaemonSession, state.session id = some session →
      captured.standing = session.standing.retire →
      Census.Moves maxBirthIdentities (Closes [id]) state.census
        (state.setSession id captured).census := by
    intro session captured found standing
    rw [retired_census found standing]
    apply Census.Moves.single
    · simp [Census.Permits, census_standing_eq_some found]
    · simp [Closes]
  cases turn with
  | refused => exact .refl
  | pending session captured found standing => exact retires session captured found standing
  | gone session captured found standing =>
      have moves := retires session captured found standing
      have resident := session_setSession_self state id captured
      have sound := moves.sound sound
      obtain ⟨creator, created⟩ := Option.isSome_iff_exists.mp
        (sound.owned id captured.standing (census_standing_eq_some resident))
      have unfenced := sound.disjoint id (by simp [census_standing_eq_some resident])
      refine moves.trans ?_
      rw [removeRetired_census resident created unfenced]
      apply Census.Moves.single
      · refine ⟨captured.standing, census_standing_eq_some resident, ?_, created⟩
        rw [standing, Standing.retire]
      · simp [Closes]

theorem KillTurn.fenced {id : Uuid} {result : Bool × DaemonState}
    (turn : KillTurn state id result)
    (sound : Census.Sound maxBirthIdentities state.census) (gone : result.1 = true) :
    (result.2.birthTombstones.find id).isSome := by
  cases turn with
  | refused => cases gone
  | pending session captured found standing => cases gone
  | gone session captured found standing =>
      have resident := session_setSession_self state id captured
      have owned := sound.owned id session.standing (census_standing_eq_some found)
      obtain ⟨creator, created⟩ : ∃ creator, captured.birthClient = some creator := by
        apply Option.isSome_iff_exists.mp
        have same : captured.birthClient = session.birthClient :=
          congrArg Standing.birthClient standing
        rw [same]
        exact owned
      have unfenced := sound.disjoint id (by simp [census_standing_eq_some found])
      have census := removeRetired_census resident created unfenced
      have tombstone := congrFun (congrArg Census.tombstone census) id
      simp only [Census.apply, Census.setTombstone, Function.update_self] at tombstone
      exact Option.isSome_iff_exists.mpr ⟨creator, tombstone⟩

theorem killAll_moves (store : Option HookStore) (closerStarts : Uuid → Bool)
    (ids : List Uuid) {state : DaemonState}
    (sound : Census.Sound maxBirthIdentities state.census) :
    Census.Moves maxBirthIdentities (Closes ids) state.census
      (state.killAll store closerStarts ids).2.census := by
  induction ids generalizing state with
  | nil => exact .refl
  | cons id later induction =>
      have first := (kill_turn state store id (closerStarts id)).moves sound
      have others := induction (first.sound sound)
      apply Census.Moves.trans
      · exact first.mono (closes_mono (by simp))
      · exact others.mono (closes_mono (by simp))

/-! ## Loops -/

variable (host : Host)

theorem pumpTurn_census (answers : Answers) (run : PumpRun) (id : Uuid) :
    (run.turn host answers id).state.census = run.state.census := by
  unfold PumpRun.turn
  split
  · rfl
  · next session found =>
      split
      · rfl
      · split
        · exact census_setSession found (session.standing_captureRetirement _)
        · exact census_setSession found (session.standing_pump ..)

theorem pumpLoop_census (state : DaemonState) (answers : Answers) :
    (state.pumpLoop host answers).state.census = state.census := by
  have every : ∀ (ids : List Uuid) (run : PumpRun),
      (ids.foldl (PumpRun.turn host answers) run).state.census = run.state.census := by
    intro ids
    induction ids with
    | nil => exact fun run => rfl
    | cons id later induction =>
        intro run
        rw [List.foldl_cons, induction, pumpTurn_census]
  exact every state.pumpOrder _

theorem pumpAndBroadcast_census (state : DaemonState) (answers : Answers) :
    (state.pumpAndBroadcast host answers).census = state.census := by
  have pumped : (state.pumpOutputAt host answers).2.census = state.census := by
    rw [← pumpLoop_census host state answers]
    exact (disconnectAll_wires _ _).census
  unfold pumpAndBroadcast
  simp only
  split
  · exact pumped
  · exact (broadcast_wires _ _).census.trans pumped

theorem captureTurn_census (moment : Moment) (run : CaptureRun) (id : Uuid) :
    (run.turn host moment id).state.census = run.state.census := by
  unfold CaptureRun.turn
  split
  · rfl
  · next session found => exact census_setSession found (session.standing_takeDirtyTarget ..)

theorem captureLoop_census (state : DaemonState) (answers : Answers) :
    (state.captureLoop host answers).state.census = state.census := by
  have every : ∀ (ids : List Uuid) (run : CaptureRun),
      (ids.foldl (CaptureRun.turn host answers.moment) run).state.census =
        run.state.census := by
    intro ids
    induction ids with
    | nil => exact fun run => rfl
    | cons id later induction =>
        intro run
        rw [List.foldl_cons, induction, captureTurn_census]
  exact every answers.order _

theorem takeDirtyScrollbackTargetsAt_census (state : DaemonState) (answers : Answers) :
    (state.takeDirtyScrollbackTargetsAt host answers).2.census = state.census := by
  rw [← captureLoop_census host state answers]
  exact ((disconnectAll_wires _ _).trans (broadcast_wires _ _)).census

end DaemonState

end TerminalCanvas.Daemon
