import TerminalCanvas.Daemon.BirthFence

/-! # Close authority

A session is closed by its creator, by a client that adopted it, or behind the
durable close fence of its leaf; a reconciliation spares what others still claim. -/

namespace TerminalCanvas.Daemon

open Execution HookAuthority Scrollback Terminal

namespace RegistryState

variable (host : Host)

/-! ## Counted connections -/

def openConnections (state : RegistryState) (client : Uuid) : Nat :=
  state.connections.countRows (· = client)

/-- Every client is counted with its open connections. -/
def Counted (state : RegistryState) : Prop :=
  ∀ client, state.registry.census.connected client =
    if state.openConnections client = 0 then none else some (state.openConnections client)

/-- Identifiers drawn by the server are not in use, and fewer than `usize::MAX`
sockets are open. -/
def Realizable (state : RegistryState) (input : RegistryInput) : Prop :=
  state.FreshDraw input ∧ state.connections.size < u64Max

theorem Counted.getD {state : RegistryState} (counted : state.Counted) (client : Uuid) :
    (state.registry.clientConnections.find client).getD 0 = state.openConnections client := by
  have count : state.registry.clientConnections.find client =
      if state.openConnections client = 0 then none else some (state.openConnections client) :=
    counted client
  rw [count]
  split
  · next zero => simp [zero]
  · rfl

theorem Counted.connect {state : RegistryState} (counted : state.Counted)
    {connectionId clientId : Uuid}
    (realizable : state.Realizable (.connect connectionId clientId)) :
    Counted ((registryMachine host).next state (.connect connectionId clientId)) := by
  intro client
  have openings : openConnections ((registryMachine host).next state
      (.connect connectionId clientId)) client =
        state.openConnections client + if clientId = client then 1 else 0 := by
    have added := Table.countRows_put_of_find_none clientId realizable.1 (· = client)
    simpa [openConnections, Machine.next, registryMachine, step] using added
  have bound : state.openConnections clientId < u64Max :=
    Nat.lt_of_le_of_lt (Table.countRows_le_size _ _) realizable.2
  have census := DaemonState.clientConnected_census state.registry clientId
  change (state.registry.clientConnected clientId).census.connected client = _
  rw [openings, census, counted.getD]
  by_cases same : client = clientId
  · simp only [Census.apply, same, Function.update_self, saturatingAddUsize, if_true]
    rw [if_neg (by omega), Nat.min_eq_left (by omega)]
  · simpa [Census.apply, same, Ne.symm same] using counted client

theorem Counted.disconnect {state : RegistryState} (counted : state.Counted)
    (connectionId : Uuid) (now : Nat) :
    Counted ((registryMachine host).next state (.disconnect connectionId now)) := by
  simp only [Machine.next, registryMachine, step]
  split
  · next clientId found =>
      intro client
      have closings :
          (state.connections.remove connectionId).countRows (· = client) +
            (if clientId = client then 1 else 0) = state.openConnections client := by
        have removed := Table.countRows_remove_of_find_some found (· = client)
        simpa [openConnections] using removed
      have before : state.registry.clientConnections.find client =
          if state.openConnections client = 0 then none
          else some (state.openConnections client) := counted client
      change ((state.registry.unsubscribe connectionId).clientDisconnected clientId
        now).clientConnections.find client =
          if (state.connections.remove connectionId).countRows (· = client) = 0 then none
          else some ((state.connections.remove connectionId).countRows (· = client))
      generalize (state.connections.remove connectionId).countRows (· = client) = left
        at closings
      simp only [DaemonState.clientDisconnected, DaemonState.unsubscribe]
      by_cases same : client = clientId
      · rw [if_pos same.symm] at closings
        rw [if_neg (by omega)] at before
        rw [← same, before]
        simp only
        split
        · rw [Table.find_remove_self, if_pos (by omega)]
        · rw [Table.find_put_self, if_neg (by omega)]
          congr 1
          omega
      · rw [if_neg (Ne.symm same), Nat.add_zero] at closings
        rw [closings, ← before]
        split
        · split
          · exact Table.find_remove_of_ne _ same
          · exact Table.find_put_of_ne _ _ same
        · rfl
  · exact counted

theorem Counted.step {state : RegistryState} (counted : state.Counted)
    (sound : state.registry.Sound) {input : RegistryInput} (realizable : state.Realizable input) :
    Counted ((registryMachine host).next state input) := by
  have moves := step_moves host sound realizable.1
  have kept : (∀ client connections, ¬ state.Warrants input (.counted client connections)) →
      ((registryMachine host).next state input).connections = state.connections →
      Counted ((registryMachine host).next state input) := by
    intro uncounted same client
    rw [moves.connected_kept uncounted, openConnections, same]
    exact counted client
  cases input with
  | connect connectionId clientId => exact counted.connect host realizable
  | disconnect connectionId now => exact counted.disconnect host connectionId now
  | request clientId request answers => exact kept (fun _ _ => id) rfl
  | pump answers => exact kept (fun _ _ => id) rfl
  | capture answers => exact kept (fun _ _ => id) rfl
  | acknowledge other writtenBytes => exact kept (fun _ _ => id) rfl
  | flag other => exact kept (fun _ _ => id) rfl
  | finishRetirements answers => exact kept (fun _ _ ⟨_, closes, _⟩ => closes) rfl
  | terminal other handle => exact kept (fun _ _ => id) rfl
  | wires subscribers channels => exact kept (fun _ _ => id) rfl

theorem Realizable.fresh {state : RegistryState} {inputs : List RegistryInput}
    (realizable : (registryMachine host).Admits Realizable state inputs) :
    (registryMachine host).Admits FreshDraw state inputs :=
  fun before input member => (realizable before input member).1

theorem reached_counted {now : Nat} {inputs : List RegistryInput}
    (realizable : (registryMachine host).Admits Realizable (new now) inputs) :
    (reached host now inputs).Counted := by
  have start : Counted (new now) := by
    intro client
    rfl
  exact (Machine.Admits.invariant _ realizable
    (fun state => state.registry.Sound ∧ state.Counted)
    (fun _ _ allowed ⟨sound, counted⟩ =>
      ⟨(step_moves host sound allowed.1).sound sound, counted.step host sound allowed⟩)
    ⟨Census.empty_sound maxBirthIdentities, start⟩).2

/-! ## Adoption -/

/-- The client attached to the session while it was registered and not retiring. -/
def Adopted (now : Nat) (inputs : List RegistryInput) (clientId id : Uuid) : Prop :=
  ∃ state answers,
    (state, .request clientId (.attach id) answers) ∈
      (registryMachine host).trace (new now) inputs ∧
    ∃ session, state.registry.session id = some session ∧
      session.retirementRequested = false

theorem adopted_of_adopter {now : Nat} {inputs : List RegistryInput}
    (fresh : (registryMachine host).Admits FreshDraw (new now) inputs) {id clientId : Uuid}
    {session : DaemonSession}
    (found : (reached host now inputs).registry.session id = some session)
    (adopter : clientId ∈ session.adopters) : Adopted host now inputs clientId id := by
  obtain ⟨state, input, member, stranger, adopts⟩ := (registryMachine host).run_origin
    (fun state => ∃ standing, state.registry.census.standing id = some standing ∧
      clientId ∈ standing.adopters)
    (by rintro ⟨standing, resident, -⟩; cases resident)
    ⟨session.standing, DaemonState.census_standing_eq_some found, adopter⟩
  obtain ⟨before, after, split, equal⟩ := (registryMachine host).mem_trace_iff.mp member
  rw [split] at fresh
  have sound : state.registry.Sound := by
    rw [equal]
    exact reached_sound host ((Machine.admits_append _).mp fresh).1
  have drawn : state.FreshDraw input := by
    rw [equal]
    exact ((Machine.admits_cons _).mp ((Machine.admits_append _).mp fresh).2).1
  have cause := (step_moves host sound drawn).adopted
    (fun standing resident member => stranger ⟨standing, resident, member⟩) adopts
  cases input with
  | request sender request answers =>
      obtain ⟨attaches, same, registered⟩ := cause
      rw [attaches, ← same] at member
      exact ⟨state, answers, member, registered⟩
  | connect connectionId client =>
      obtain ⟨connections, counts⟩ := cause
      cases counts
  | disconnect connectionId later =>
      obtain ⟨client, connections, counts⟩ := cause
      cases counts
  | finishRetirements answers =>
      obtain ⟨ids, closes, -⟩ := cause
      exact closes.elim
  | pump answers => exact cause.elim
  | capture answers => exact cause.elim
  | acknowledge other writtenBytes => exact cause.elim
  | flag other => exact cause.elim
  | terminal other handle => exact cause.elim
  | wires subscribers channels => exact cause.elim

/-! ## Rejections -/

/-- An error that is not a pending close. -/
def Rejects (response : Response) : Prop :=
  ∃ message, response = .error message ∧ ∀ id, closePendingResponse id ≠ .error message

theorem birthRejected_rejects (id : Uuid) : Rejects (birthRejectedResponse id) := by
  refine ⟨_, rfl, ?_⟩
  intro pending equal
  have texts := congrArg (fun text => text.toList.take 17) (Response.error.inj equal)
  simp only [String.toList_append] at texts
  rw [List.take_append_of_le_length (by decide), List.take_append_of_le_length (by decide)]
    at texts
  exact absurd texts (by decide)

theorem rejected_unchanged {registry : DaemonState} {answers : Answers} {clientId : Uuid}
    {request : Request}
    (kind : (∃ wire proposed, request = .spawn wire proposed) ∨
      (∃ id, request = .kill id) ∨ ∃ id, request = .closeBirth id)
    (rejects : Rejects (registry.handleRequestForClient host answers clientId request).1) :
    (registry.handleRequestForClient host answers clientId request).2 = registry := by
  obtain ⟨message, answer, notPending⟩ := rejects
  have closed : ∀ id closed, (DaemonState.closeAnswer id closed).1 ≠ .error message := by
    intro id closed equal
    simp only [DaemonState.closeAnswer] at equal
    split at equal
    · cases equal
    · exact notPending id equal
  rcases kind with ⟨wire, proposed, rfl⟩ | ⟨id, rfl⟩ | ⟨id, rfl⟩
  · simp only [DaemonState.handleRequestForClient] at answer ⊢
    rcases DaemonState.handleSpawn_outcome wire proposed with ⟨text, refused⟩ | ⟨born, spawned⟩
    · rw [refused]
    · rw [spawned] at answer
      cases answer
  · simp only [DaemonState.handleRequestForClient] at answer ⊢
    rcases DaemonState.handleKill_outcome id with ⟨text, refused⟩ | killed
    · rw [refused]
    · rw [killed] at answer
      exact absurd answer (closed id _)
  · simp only [DaemonState.handleRequestForClient] at answer ⊢
    rcases DaemonState.handleCloseBirth_outcome id with
      ⟨text, refused⟩ | killed | ⟨-, before⟩ | unborn
    · rw [refused]
    · rw [killed] at answer
      exact absurd answer (closed id _)
    · rw [before] at answer
      cases answer
    · rw [unborn] at answer
      cases answer

/-! ## Authority -/

/-- A step starts retiring a session, or removes it. -/
def Closes (next : RegistryState) (id : Uuid) (session : DaemonSession) : Prop :=
  (session.retirementRequested = false ∧ ∀ later, next.registry.session id = some later →
    later.retirementRequested = true) ∨ next.registry.session id = none

theorem mayRetire_of_closes {state : RegistryState} (sound : state.registry.Sound)
    {clientId : Uuid} {request : Request} {answers : Answers}
    (fresh : state.FreshDraw (.request clientId request answers)) {id : Uuid}
    {session : DaemonSession} (found : state.registry.session id = some session)
    (closes : Closes ((registryMachine host).next state (.request clientId request answers))
      id session) :
    DaemonState.MayRetire state.registry answers clientId id session request := by
  have moves := step_moves host sound fresh
  have resident := DaemonState.census_standing_eq_some found
  have authority : ∃ found, state.registry.session id = some found ∧
      DaemonState.MayRetire state.registry answers clientId id found request := by
    rcases closes with ⟨lasting, ended⟩ | removed
    · apply moves.retired resident lasting
      intro later present
      obtain ⟨session, found, equal⟩ := Option.map_eq_some_iff.mp present
      exact equal ▸ ended session found
    · have present : state.registry.census.standing id ≠ none := by simp [resident]
      obtain ⟨creator, cause⟩ := moves.removed present (by simp [DaemonState.census, removed])
      exact cause
  obtain ⟨other, again, authority⟩ := authority
  rw [found] at again
  exact Option.some.inj again ▸ authority

/-- A client closes what it created, what it adopted, or, cancelling a managed
birth, what its durable close fence names. Its reconciliation retires nothing that
it lists, nothing of others, and nothing that another client with an open
connection claims. What it is refused changes nothing. -/
theorem close_authority (now : Nat) (before : List RegistryInput) (clientId : Uuid)
    (request : Request) (answers : Answers)
    (realizable : (registryMachine host).Admits Realizable (new now)
      (before ++ [.request clientId request answers])) :
    (∀ id session, (reached host now before).registry.session id = some session →
      Closes (reached host now (before ++ [.request clientId request answers])) id session →
      session.birthClient = some clientId ∨ Adopted host now before clientId id ∨
        (request = .closeBirth id ∧
          DaemonState.OwnsFence answers.store id clientId session)) ∧
    (∀ live id session, request = .reconcileLive live →
      (reached host now before).registry.session id = some session →
      Closes (reached host now (before ++ [.request clientId request answers])) id session →
      id ∉ live ∧
      (session.birthClient = some clientId ∨ Adopted host now before clientId id) ∧
      ∀ claimant ∈ (reached host now before).registry.claimants id, claimant ≠ clientId →
        ∀ connectionId,
          (reached host now before).connections.find connectionId ≠ some claimant) ∧
    ((∃ wire proposed, request = .spawn wire proposed) ∨ (∃ id, request = .kill id) ∨
        (∃ id, request = .closeBirth id) →
      (∀ response, (registryMachine host).observe (reached host now before)
          (.request clientId request answers) = some response → Rejects response →
        reached host now (before ++ [.request clientId request answers]) =
          reached host now before)) := by
  have fresh := Realizable.fresh host realizable
  have ⟨realizableBefore, realizableStep⟩ := (Machine.admits_append _).mp realizable
  have freshBefore := Realizable.fresh host realizableBefore
  have freshStep := ((Machine.admits_cons _).mp realizableStep).1.1
  have sound := reached_sound host freshBefore
  have counted := reached_counted host realizableBefore
  have mayClose : ∀ id session, (reached host now before).registry.session id = some session →
      session.clientMayClose clientId = true →
      session.birthClient = some clientId ∨ Adopted host now before clientId id := by
    intro id session found closes
    simp only [DaemonSession.clientMayClose, Bool.or_eq_true, decide_eq_true_eq] at closes
    rcases closes with created | adopter
    · exact .inl created
    · exact .inr (adopted_of_adopter host freshBefore found adopter)
  rw [reached_append]
  refine ⟨?_, ?_, ?_⟩
  · intro id session found closes
    cases mayRetire_of_closes host sound freshStep found closes with
    | kill authorized =>
        rcases mayClose id session found authorized with created | adopted
        · exact .inl created
        · exact .inr (.inl adopted)
    | created creator => exact .inl creator
    | fence owns => exact .inr (.inr ⟨rfl, owns⟩)
    | orphan live unlisted authorized alone =>
        rcases mayClose id session found authorized with created | adopted
        · exact .inl created
        · exact .inr (.inl adopted)
  · intro live id session reconciles found closes
    have authority := mayRetire_of_closes host sound freshStep found closes
    rw [reconciles] at authority
    cases authority with
    | orphan live unlisted authorized alone =>
        refine ⟨unlisted, mayClose id session found authorized, ?_⟩
        intro claimant member other connectionId opened
        have positive : 0 < (reached host now before).openConnections claimant :=
          Table.countRows_pos opened (by simp)
        have connected := counted claimant
        rw [if_neg (by omega)] at connected
        have disconnected := alone claimant member other
        rw [show (reached host now before).registry.clientConnections.find claimant = _ from
          connected] at disconnected
        cases disconnected
  · intro kind response answer rejects
    have observed : ((reached host now before).registry.handleRequestForClient host answers
        clientId request).1 = response := Option.some.inj answer
    have unchanged := rejected_unchanged host kind (observed ▸ rejects)
    simp only [Machine.run_cons, Machine.run_nil, Machine.next, registryMachine, step, unchanged,
      withRegistry]

/-! A client tries to kill a session that another one created. -/

theorem close_authority_foreignKill :
    reached .blank 0 ([lonelyBirth] ++
        [.request (.fromU128 3) (.kill (.fromU128 2)) lonelyAnswers]) =
      reached .blank 0 [lonelyBirth] := by
  have realizable : (registryMachine .blank).Admits Realizable (new 0) ([lonelyBirth] ++
      [.request (.fromU128 3) (.kill (.fromU128 2)) lonelyAnswers]) :=
    (Machine.admits_cons _).mpr ⟨⟨⟨rfl, rfl⟩, by decide +kernel⟩,
      (Machine.admits_cons _).mpr ⟨⟨trivial, by decide +kernel⟩, Machine.admits_nil _ _⟩⟩
  exact (close_authority .blank 0 [lonelyBirth] (.fromU128 3) (.kill (.fromU128 2))
    lonelyAnswers realizable).2.2 (.inr (.inl ⟨_, rfl⟩)) (birthRejectedResponse (.fromU128 2))
    (by decide +kernel) (birthRejected_rejects _)

end RegistryState

end TerminalCanvas.Daemon
