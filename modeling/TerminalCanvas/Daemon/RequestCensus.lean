import TerminalCanvas.Daemon.RegistryCensus

/-! # Requests on the census

Which request causes which census event, and on whose authority. -/

namespace TerminalCanvas.Daemon

open Execution HookAuthority Scrollback Terminal

namespace DaemonState

variable {state : DaemonState} (host : Host)

/-! ## Births -/

theorem createSession_eq_ok {spec : WireSpec} {desired : Option Uuid} {factory : Factory}
    {born : Uuid} {created : DaemonState}
    (answer : state.createSession spec desired factory = .ok (born, created)) :
    born = desired.getD factory.fresh ∧
      ∃ session, created = state.setSession born session ∧ session.adopters = ∅ ∧
        session.retirementRequested = false := by
  cases factory with
  | registryOnly fresh =>
      cases answer
      exact ⟨rfl, .new spec, rfl, rfl, rfl⟩
  | pty fresh spawned =>
      have registered : ∀ id, spawnWithPty.register state spec spawned id = .ok (born, created) →
          born = id ∧ ∃ session, created = state.setSession born session ∧
            session.adopters = ∅ ∧ session.retirementRequested = false := by
        intro id answer
        cases spawned with
        | error error => cases answer
        | ok pty =>
            cases answer
            exact ⟨rfl, _, rfl, rfl, rfl⟩
      simp only [createSession, spawnWithPty] at answer
      split at answer
      · next id =>
          split at answer
          · cases answer
          · exact registered id answer
      · exact registered fresh answer

theorem addClaimant_census (state : DaemonState) (id clientId : Uuid) :
    (state.addClaimant id clientId).census = state.census := rfl

theorem census_insertSession {id : Uuid} (vacant : state.session id = none)
    (session : DaemonSession) :
    (state.setSession id session).census = state.census.apply (.born id session.standing) := by
  have standings := standings_setSession state id session
  have size : (state.setSession id session).sessions.size = state.sessions.size + 1 :=
    Table.size_put_of_find_none session vacant
  simp only [census, Census.apply, Census.setStanding, Census.mk.injEq] at standings ⊢
  refine ⟨standings, rfl, ?_, rfl⟩
  rw [size]
  simp only [setSession]
  omega

/-! ## Requests -/

/-- The exact close fence of a managed session is durable for a client. -/
def OwnsFence (store : Option HookStore) (id clientId : Uuid) (session : DaemonSession) : Prop :=
  (hostTargetFromSpec session.spec).isSome = true ∧
    hostCloseFenced store id session (some clientId) = true

/-- A request with which a client may close a session. -/
inductive MayRetire (state : DaemonState) (answers : Answers) (clientId id : Uuid)
    (session : DaemonSession) : Request → Prop where
  | kill (closes : session.clientMayClose clientId = true) :
      MayRetire state answers clientId id session (.kill id)
  | created (creator : session.birthClient = some clientId) :
      MayRetire state answers clientId id session (.closeBirth id)
  | fence (owns : OwnsFence answers.store id clientId session) :
      MayRetire state answers clientId id session (.closeBirth id)
  | orphan (live : List Uuid) (unlisted : id ∉ live)
      (closes : session.clientMayClose clientId = true)
      (alone : ∀ claimant ∈ state.claimants id, claimant ≠ clientId →
        state.clientConnections.find claimant = none) :
      MayRetire state answers clientId id session (.reconcileLive live)

/-- What a request may cause for the client that sent it. -/
def Warrants (state : DaemonState) (answers : Answers) (clientId : Uuid)
    (request : Request) : CensusEvent → Prop
  | .born _ standing => (∃ spec id, request = .spawn spec id) ∧
      standing.birthClient = some clientId
  | .adopted id client => request = .attach id ∧ client = clientId ∧
      ∃ session, state.session id = some session ∧ session.retirementRequested = false
  | .retired id | .removed id _ => ∃ session, state.session id = some session ∧
      MayRetire state answers clientId id session request
  | .fenced id client => request = .closeBirth id ∧ client = clientId
  | .counted .. => False

/-- The identifiers the server draws for a request are unborn. -/
def FreshDraw (state : DaemonState) (answers : Answers) : Request → Prop
  | .spawn _ none => state.census.Unborn answers.factory.fresh
  | _ => True

section Requests

variable {answers : Answers} {clientId : Uuid}

theorem room_of_birthIdentities (room : ¬ maxBirthIdentities ≤ state.birthIdentities) :
    state.census.identities < maxBirthIdentities := by
  simp only [birthIdentities, saturatingAddUsize, u64Max, maxBirthIdentities] at room
  simp only [census, maxBirthIdentities]
  omega

theorem bear_moves {spec : WireSpec} {id : Option Uuid}
    (unborn : state.census.Unborn (id.getD answers.factory.fresh))
    (room : state.census.identities < maxBirthIdentities) :
    state.Moves (state.bear answers clientId spec id).2
      (fun event => ∃ born standing, event = .born born standing ∧
        standing.birthClient = some clientId) := by
  unfold bear
  split
  · exact .refl
  · next born created answer =>
      obtain ⟨named, session, equal, unadopted, lasting⟩ := createSession_eq_ok answer
      have vacant : state.session born = none := by
        have absent := unborn.1
        rw [← named] at absent
        simpa [census] using absent
      have owned : (created.setSession born
          { session with birthClient := some clientId }).census =
            state.census.apply (.born born
              { session.standing with birthClient := some clientId }) := by
        rw [equal, census_replaceSession (session_setSession_self state born session),
          census_insertSession vacant]
        simp only [Census.apply, Census.setStanding, Function.update_idem]
        rfl
      have found : created.session born = some session := by
        rw [equal, session_setSession_self]
      simp only [found]
      unfold Moves
      rw [addClaimant_census, owned]
      apply Census.Moves.single
      · rw [named]
        exact ⟨unborn, room, rfl, unadopted, lasting⟩
      · exact ⟨born, _, rfl, rfl⟩

theorem handleSpawn_moves {wire : WireSpec} {id : Option Uuid}
    (fresh : state.FreshDraw answers (.spawn wire id)) :
    state.Moves (state.handleSpawn answers clientId wire id).2
      (state.Warrants answers clientId (.spawn wire id)) := by
  unfold handleSpawn
  simp only
  split
  · exact .refl
  · next unfenced =>
      split
      · exact .refl
      · next room =>
          split
          · split
            · exact .refl
            · exact .refl
          · next vacant =>
              split
              · split
                · exact .refl
                · exact .refl
              · have unborn : state.census.Unborn (id.getD answers.factory.fresh) := by
                  cases id with
                  | none => exact fresh
                  | some id =>
                      simp only [Option.bind_some, Option.map_eq_none_iff] at vacant
                      simp only [Option.filter_eq_none_iff, Option.some.injEq] at unfenced
                      refine ⟨?_, ?_⟩
                      · simp [census, vacant]
                      · simpa [census] using unfenced id rfl
                have absent : ¬ id.any (fun id => (state.session id).isSome) = true := by
                  cases id with
                  | none => simp
                  | some id =>
                      simp only [Option.bind_some, Option.map_eq_none_iff] at vacant
                      simp [vacant]
                have capacity : ¬ maxBirthIdentities ≤ state.birthIdentities :=
                  fun full => room ⟨full, absent⟩
                apply (bear_moves unborn (room_of_birthIdentities capacity)).mono
                intro event cause
                obtain ⟨born, standing, equal, created⟩ := cause
                rw [equal]
                exact ⟨⟨wire, id, rfl⟩, created⟩

theorem warrants_of_closes {id : Uuid} {session : DaemonSession} {request : Request}
    (found : state.session id = some session)
    (authority : MayRetire state answers clientId id session request) {event : CensusEvent}
    (closes : Closes [id] event) : state.Warrants answers clientId request event := by
  cases event with
  | retired other =>
      have same : other = id := by simpa [Closes] using closes
      exact same ▸ ⟨session, found, authority⟩
  | removed other creator =>
      have same : other = id := by simpa [Closes] using closes
      exact same ▸ ⟨session, found, authority⟩
  | born other standing => exact closes.elim
  | adopted other client => exact closes.elim
  | fenced other client => exact closes.elim
  | counted client connections => exact closes.elim

theorem handleAttach_moves (id : Uuid) :
    state.Moves (state.handleAttach host answers clientId id).2
      (state.Warrants answers clientId (.attach id)) := by
  unfold handleAttach
  split
  · exact .refl
  · next session found =>
      split
      · exact .refl
      · next lasting =>
          have lasts : session.retirementRequested = false := by simpa using lasting
          have adoption : ∀ next : DaemonSession,
              next.standing = session.standing.adopt clientId →
              state.Moves (state.setSession id next)
                (state.Warrants answers clientId (.attach id)) := by
            intro next standing
            have census : (state.setSession id next).census =
                state.census.apply (.adopted id clientId) := by
              rw [census_replaceSession found, standing]
              simp [Census.apply, census_standing_eq_some found]
            unfold Moves
            rw [census]
            apply Census.Moves.single
            · exact ⟨session.standing, census_standing_eq_some found, lasts⟩
            · exact ⟨rfl, rfl, session, found, lasts⟩
          have kept : ∀ boundary,
              (session.adopt clientId).attachBoundary host id state.lineLimit
                answers.moment = boundary →
              boundary.2.standing = session.standing.adopt clientId := by
            intro boundary equal
            rw [← equal, DaemonSession.standing_attachBoundary, DaemonSession.standing_adopt]
          split
          · next kind next refused =>
              have moves := adoption next (kept _ refused)
              unfold Moves
              rw [(disconnectSessionSubscribers_wires _ id).census]
              exact moves
          · next snapshot pending next taken =>
              have moves := adoption next (kept _ taken)
              unfold Moves
              rw [addClaimant_census, (broadcast_wires _ _).census]
              exact moves

theorem resize_census (state : DaemonState) (id : Uuid) (cols rows : Nat) :
    (state.resize id cols rows).2.census = state.census := by
  unfold resize
  split
  · rfl
  · next session found =>
      split
      · rfl
      · exact census_setSession found rfl

theorem handleKill_moves (sound : state.Sound) (id : Uuid) :
    state.Moves (state.handleKill answers clientId id).2
      (state.Warrants answers clientId (.kill id)) := by
  unfold handleKill
  split
  · exact .refl
  · next session found =>
      split
      · exact .refl
      · split
        · exact .refl
        · next closes =>
            have authority : MayRetire state answers clientId id session (.kill id) :=
              .kill (by simpa using closes)
            have moves := (kill_turn state answers.store id (answers.closerStarts id)).moves sound
            exact moves.mono fun event closes => warrants_of_closes found authority closes

theorem handleCloseBirth_moves (sound : state.Sound) (id : Uuid) :
    state.Moves (state.handleCloseBirth answers clientId id).2
      (state.Warrants answers clientId (.closeBirth id)) := by
  unfold handleCloseBirth
  split
  · next session found =>
      simp only
      split
      · exact .refl
      · next allowed =>
          have authority : MayRetire state answers clientId id session (.closeBirth id) := by
            simp only [closeUnfenced, Bool.or_eq_true, Bool.and_eq_true, Bool.not_eq_true',
              decide_eq_true_eq, not_or, not_and, not_not] at allowed
            by_cases managed : (hostTargetFromSpec session.spec).isSome = true
            · exact .fence ⟨managed, by simpa using allowed.1 managed⟩
            · exact .created (allowed.2 (by simpa using managed))
          have moves := (kill_turn state answers.store id (answers.closerStarts id)).moves sound
          exact moves.mono fun event closes => warrants_of_closes found authority closes
  · next absent =>
      split
      · split
        · exact .refl
        · exact .refl
      · next unfenced =>
          split
          · next proven =>
              have vacant : state.census.standing id = none := by simp [census, absent]
              have room : ¬ maxBirthIdentities ≤ state.birthIdentities := by
                have below := proven.1
                omega
              have census : ({ state with
                  birthTombstones := state.birthTombstones.put id clientId } : DaemonState).census =
                    state.census.apply (.fenced id clientId) := by
                have size := Table.size_put_of_find_none clientId unfenced
                simp only [DaemonState.census, DaemonState.session, Census.apply,
                  Census.setTombstone, Census.mk.injEq, and_true, true_and]
                refine ⟨?_, by omega⟩
                funext other
                by_cases same : other = id
                · simp [same]
                · simp [same, Table.find_put]
              unfold Moves
              rw [census]
              apply Census.Moves.single
              · exact ⟨⟨vacant, unfenced⟩, room_of_birthIdentities room⟩
              · exact ⟨rfl, rfl⟩
          · exact .refl

/-! The claims of other clients survive a reconciliation. -/

structure ClaimsKept (clientId : Uuid) (state next : DaemonState) : Prop where
  session : ∀ id, next.session id = state.session id
  census : next.census = state.census
  claims : ∀ id claimant, claimant ≠ clientId → claimant ∈ state.claimants id →
    claimant ∈ next.claimants id

theorem ClaimsKept.trans {next later : DaemonState} (first : ClaimsKept clientId state next)
    (second : ClaimsKept clientId next later) : ClaimsKept clientId state later where
  session id := (second.session id).trans (first.session id)
  census := second.census.trans first.census
  claims id claimant other member :=
    second.claims id claimant other (first.claims id claimant other member)

theorem dropClaims_kept (state : DaemonState) (clientId : Uuid) (live : List Uuid) :
    ClaimsKept clientId state (state.dropClaims clientId live) where
  session _ := rfl
  census := rfl
  claims := by
    intro id claimant other member
    simp only [claimants, dropClaims, Table.find_mapRows] at member ⊢
    cases found : state.sessionClaimants.find id with
    | none => simp [found] at member
    | some claimants =>
        simp only [found, Option.getD_some] at member
        simp only [Option.map_some, Option.getD_some]
        split
        · exact member
        · exact Finset.mem_erase.mpr ⟨other, member⟩

theorem claimLive_kept (state : DaemonState) (clientId id : Uuid) :
    ClaimsKept clientId state (state.claimLive clientId id) := by
  unfold claimLive
  split
  · refine ⟨fun _ => rfl, rfl, ?_⟩
    intro other claimant _ member
    simp only [claimants, addClaimant, Table.find_put] at member ⊢
    split
    · next same =>
        rw [same] at member
        exact Finset.mem_insert_of_mem member
    · exact member
  · exact ⟨fun _ => rfl, rfl, fun _ _ _ member => member⟩

theorem claimAll_kept (clientId : Uuid) (live : List Uuid) (state : DaemonState) :
    ClaimsKept clientId state (live.foldl (fun state id => state.claimLive clientId id) state) := by
  induction live generalizing state with
  | nil => exact ⟨fun _ => rfl, rfl, fun _ _ _ member => member⟩
  | cons id later induction => exact (claimLive_kept state clientId id).trans (induction _)

theorem reconcileLive_moves (sound : state.Sound) (live : List Uuid) :
    state.Moves (state.reconcileLive answers clientId live).2
      (state.Warrants answers clientId (.reconcileLive live)) := by
  have kept := (dropClaims_kept state clientId live).trans (claimAll_kept clientId live _)
  generalize reached : live.foldl (fun state id => state.claimLive clientId id)
    (state.dropClaims clientId live) = claimed at kept
  have authority : ∀ id, claimed.orphaned clientId live id = true →
      ∃ session, state.session id = some session ∧
        MayRetire state answers clientId id session (.reconcileLive live) := by
    intro id orphan
    rw [orphaned, kept.session] at orphan
    obtain ⟨session, found, orphan⟩ := (Option.any_eq_true ..).mp orphan
    simp only [Bool.and_eq_true, decide_eq_true_eq, Bool.not_eq_true', Bool.and_eq_false_iff,
      Bool.not_eq_false'] at orphan
    obtain ⟨⟨unlisted, closes⟩, alone⟩ := orphan
    have owned := sound.owned id session.standing (census_standing_eq_some found)
    refine ⟨session, found, .orphan live unlisted ?_ ?_⟩
    · rcases closes with unowned | closes
      · simp [DaemonSession.standing, unowned] at owned
      · exact closes
    · intro claimant member other
      have claims := kept.claims id claimant other member
      have connected : claimed.clientConnections.find claimant =
          state.clientConnections.find claimant :=
        congrFun (congrArg Census.connected kept.census) claimant
      rw [← connected]
      simp only [claimants] at claims
      cases row : claimed.sessionClaimants.find id with
      | none => simp [row] at claims
      | some claimants =>
          simp only [row, Option.getD_some] at claims
          simp only [claimedByConnected, row, Option.any_some, decide_eq_false_iff_not,
            not_exists, not_and, Bool.not_eq_true, Option.isSome_eq_false_iff,
            Option.isNone_iff_eq_none] at alone
          exact alone claimant claims
  have soundClaimed : claimed.Sound := by
    unfold Sound
    rw [kept.census]
    exact sound
  have moves := killAll_moves answers.store answers.closerStarts
    (answers.order.filter (claimed.orphaned clientId live)) soundClaimed
  unfold Moves
  rw [← kept.census]
  simp only [reconcileLive, reached]
  apply moves.mono
  intro event closes
  cases event with
  | retired id => exact authority id (List.mem_filter.mp closes).2
  | removed id creator => exact authority id (List.mem_filter.mp closes).2
  | born id standing => exact closes.elim
  | adopted id client => exact closes.elim
  | fenced id client => exact closes.elim
  | counted client connections => exact closes.elim

/-! ## Connections -/

theorem clientConnected_census (state : DaemonState) (clientId : Uuid) :
    (state.clientConnected clientId).census = state.census.apply (.counted clientId
      (some (saturatingAddUsize ((state.clientConnections.find clientId).getD 0) 1))) := by
  simp only [census, clientConnected, Census.apply, Census.mk.injEq, session, true_and]
  funext other
  by_cases same : other = clientId
  · simp [same]
  · simp [same, Table.find_put]

theorem clientDisconnected_census (state : DaemonState) (clientId : Uuid) (now : Nat) :
    ∃ connections, (state.clientDisconnected clientId now).census =
      state.census.apply (.counted clientId connections) := by
  refine ⟨(state.clientDisconnected clientId now).clientConnections.find clientId, ?_⟩
  simp only [census, clientDisconnected, Census.apply, Census.mk.injEq, session, true_and]
  funext other
  by_cases same : other = clientId
  · simp [same]
  · split
    · split
      · simp [same, Table.find_remove]
      · simp [same, Table.find_put]
    · simp [same]

/-! ## All requests -/

theorem handleRequestForClient_moves (sound : state.Sound) {request : Request}
    (fresh : state.FreshDraw answers request) :
    state.Moves (state.handleRequestForClient host answers clientId request).2
      (state.Warrants answers clientId request) := by
  cases request with
  | hello version token client => exact .refl
  | spawn wire id => exact handleSpawn_moves fresh
  | attach id => exact handleAttach_moves host id
  | write id data =>
      simp only [handleRequestForClient, handleWrite]
      split
      · exact .refl
      · exact .refl
  | resize id cols rows =>
      have census := resize_census state id cols rows
      simp only [handleRequestForClient, handleResize]
      split
      · next resized =>
          rw [resized] at census
          exact .of_eq census
      · next unknown =>
          rw [unknown] at census
          exact .of_eq census
  | kill id => exact handleKill_moves sound id
  | closeBirth id => exact handleCloseBirth_moves sound id
  | setPriority id => exact .refl
  | list => exact .refl
  | reconcileLive live => exact reconcileLive_moves sound live
  | shutdownIfIdle => exact .refl

end Requests

end DaemonState

/-! ## Steps of the machine -/

namespace RegistryState

def Warrants (state : RegistryState) : RegistryInput → CensusEvent → Prop
  | .connect _ client, event => ∃ connections, event = .counted client connections
  | .disconnect .., event => ∃ client connections, event = .counted client connections
  | .request clientId request answers, event =>
      state.registry.Warrants answers clientId request event
  | .finishRetirements _, event =>
      ∃ ids, DaemonState.Closes ids event ∧ ∀ id ∈ ids, state.registry.retiring id = true
  | _, _ => False

/-- Identifiers drawn by the server are not in use. -/
def FreshDraw (state : RegistryState) : RegistryInput → Prop
  | .connect connectionId _ => state.connections.find connectionId = none
  | .request _ request answers => state.registry.FreshDraw answers request
  | _ => True

theorem step_moves (host : Host) {state : RegistryState} (sound : state.registry.Sound)
    {input : RegistryInput} (fresh : state.FreshDraw input) :
    state.registry.Moves ((registryMachine host).next state input).registry
      (state.Warrants input) := by
  cases input with
  | connect connectionId clientId =>
      have counted := DaemonState.clientConnected_census state.registry clientId
      change Census.Moves _ _ _ (state.registry.clientConnected clientId).census
      rw [counted]
      exact Census.Moves.single trivial ⟨_, rfl⟩
  | disconnect connectionId now =>
      simp only [Machine.next, registryMachine, step]
      split
      · next clientId _ =>
          obtain ⟨connections, counted⟩ := DaemonState.clientDisconnected_census
            (state.registry.unsubscribe connectionId) clientId now
          have same : (state.registry.unsubscribe connectionId).census = state.registry.census :=
            rfl
          unfold DaemonState.Moves
          rw [counted, same]
          exact Census.Moves.single trivial ⟨clientId, connections, rfl⟩
      · exact .refl
  | request clientId request answers =>
      exact DaemonState.handleRequestForClient_moves host sound fresh
  | pump answers => exact .of_eq (DaemonState.pumpAndBroadcast_census host _ answers)
  | capture answers => exact .of_eq (DaemonState.takeDirtyScrollbackTargetsAt_census host _ answers)
  | acknowledge id writtenBytes =>
      exact .of_eq (DaemonState.census_withSession _ id fun session =>
        session.standing_acknowledgePersisted writtenBytes)
  | flag id => exact .of_eq (DaemonState.census_withSession _ id fun session => rfl)
  | finishRetirements answers =>
      apply (DaemonState.killAll_moves answers.store answers.closerStarts _ sound).mono
      intro event closes
      exact ⟨_, closes, fun id member => (List.mem_filter.mp member).2⟩
  | terminal id handle => exact .of_eq (DaemonState.census_withSession _ id fun session => rfl)
  | wires subscribers channels => exact .refl

end RegistryState

end TerminalCanvas.Daemon
