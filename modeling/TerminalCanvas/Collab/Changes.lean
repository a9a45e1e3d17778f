import TerminalCanvas.Collab.Broker

/-! # What a step does to a session

Every step is one of a few changes of any one session. -/

namespace TerminalCanvas.Collab.Broker

open Execution

variable {foreign : Foreign}

@[simp] theorem sendAll_sessions (broker : Broker) (sends : Sends) :
    (broker.sendAll sends).sessions = broker.sessions := rfl

@[simp] theorem sendAll_connections (broker : Broker) (sends : Sends) :
    (broker.sendAll sends).connections = broker.connections := rfl

@[simp] theorem sendAll_joins (broker : Broker) (sends : Sends) :
    (broker.sendAll sends).joins = broker.joins := rfl

@[simp] theorem sendAll_now (broker : Broker) (sends : Sends) :
    (broker.sendAll sends).now = broker.now := rfl

@[simp] theorem moveTo_sessions (broker : Broker) (connection : Uuid) (task : ConnectionTask)
    (phase : ConnectionPhase) : (broker.moveTo connection task phase).sessions = broker.sessions :=
  rfl

@[simp] theorem store_sessions (broker : Broker) (id : ShareSessionId)
    (session : SessionRecord) :
    (broker.store id session).sessions = broker.sessions.put id session := rfl

/-- A successful request that concerns a session. -/
def Concerns (id : ShareSessionId) : Input → Observation → Prop
  | .create .., .created (.ok (created, _)) => created = id
  | .join _ joined _ _, .prepared (.ok _) => joined = id
  | .finish .., .joined joined _ (.ok _) => joined = id
  | .rotate decided _, .decided (.ok ()) => decided = id
  | .approve decided _, .decided (.ok ()) => decided = id
  | .deny decided _, .decided (.ok ()) => decided = id
  | .endSession decided _, .decided (.ok ()) => decided = id
  | _, _ => False

inductive SessionStep (broker : Broker) (id : ShareSessionId) :
    Input → Observation → Option SessionRecord → Option SessionRecord → Prop
  | kept {input observation session} (quiet : ¬ Concerns id input observation) :
      SessionStep broker id input observation session session
  | created {loopback body hostToken lag old} :
      SessionStep broker id (.create loopback body id hostToken lag)
        (.created (.ok (id, hostToken))) old
        (some (newSession body hostToken (broker.now - lag)))
  | prepared {key request body utcNow session}
      (sanitized : sanitizeJoinRequest request = .ok body) :
      SessionStep broker id (.join key id request utcNow)
        (.prepared (session.prepareJoin body broker.now utcNow broker.verificationSlots).1)
        (some session)
        (some (session.prepareJoin body broker.now utcNow broker.verificationSlots).2.1)
  | finished {key draw utcNow body hash verified session}
      (task : broker.joins.find key = some ⟨id, body, hash, .verified (some verified), false⟩) :
      SessionStep broker id (.finish key draw utcNow)
        (.joined id body.deviceId
          (session.finishJoin body hash verified draw broker.now utcNow).1)
        (some session) (some (session.finishJoin body hash verified draw broker.now utcNow).2.1)
  | rotated {body session} :
      SessionStep broker id (.rotate id body) (.decided (session.rotateInvite body).1)
        (some session) (some (session.rotateInvite body).2.1)
  | approved {body session} :
      SessionStep broker id (.approve id body) (.decided (session.approveJoin body broker.now).1)
        (some session) (some (session.approveJoin body broker.now).2.1)
  | denied {body session} :
      SessionStep broker id (.deny id body) (.decided (session.denyJoin body broker.now).1)
        (some session) (some (session.denyJoin body broker.now).2.1)
  | ended {hostToken session} :
      SessionStep broker id (.endSession id hostToken) (.decided (.ok ())) (some session) none
  | registered {connection auth session registered sends}
      (task : broker.connections.find connection = some ⟨id, auth, .upgrading⟩)
      (registers : session.registerStream auth connection broker.now =
        some (registered, sends)) :
      SessionStep broker id (.register connection) .silent (some session) (some registered)
  | marked {connection message auth session}
      (task : broker.connections.find connection = some ⟨id, auth, .looping⟩) :
      SessionStep broker id (.receive connection message) .silent (some session)
        (some (session.markConnectionActivity auth connection broker.now))
  | disconnected {connection auth session}
      (task : broker.connections.find connection = some ⟨id, auth, .closing⟩) :
      SessionStep broker id (.disconnect connection) .silent (some session)
        (some (session.handleDisconnect auth connection broker.now).1)
  | swept {lag session} :
      SessionStep broker id (.cleanup lag) .silent (some session)
        (if (session.cleanup (broker.now - lag)).2.2 then none
          else some (session.cleanup (broker.now - lag)).1)

theorem find_store (broker : Broker) (id other : ShareSessionId) (session : SessionRecord) :
    (broker.store other session).sessions.find id =
      if id = other then some session else broker.sessions.find id :=
  Table.find_put _ _ _ _

/-! ## The cleanup -/

theorem cleanupSession_find (now : Instant) (broker : Broker) (id other : ShareSessionId) :
    (cleanupSession now broker other).sessions.find id =
      if id = other then
        (broker.sessions.find id).bind fun session =>
          if (session.cleanup now).2.2 then none else some (session.cleanup now).1
      else broker.sessions.find id := by
  rw [cleanupSession]
  by_cases same : id = other
  · subst other
    rw [if_pos rfl]
    cases found : broker.sessions.find id with
    | none => exact found
    | some session =>
        simp only [Option.bind_some]
        split
        · exact Table.find_remove_self _ _
        · exact Table.find_put_self _ _ _
  · rw [if_neg same]
    split
    · rfl
    · simp only
      split
      · exact Table.find_remove_of_ne _ same
      · exact Table.find_put_of_ne _ _ same

theorem cleanup_fold_find (now : Instant) (broker : Broker) (id : ShareSessionId)
    {keys : List ShareSessionId} (distinct : keys.Nodup) :
    (keys.foldl (cleanupSession now) broker).sessions.find id =
      if id ∈ keys then
        (broker.sessions.find id).bind fun session =>
          if (session.cleanup now).2.2 then none else some (session.cleanup now).1
      else broker.sessions.find id := by
  induction keys generalizing broker with
  | nil => rfl
  | cons key keys induction =>
      obtain ⟨absent, others⟩ := List.nodup_cons.mp distinct
      rw [List.foldl_cons, induction (cleanupSession now broker key) others,
        cleanupSession_find]
      by_cases same : id = key
      · subst key
        simp [absent]
      · simp [same]

theorem cleanupExpiredSessions_find (broker : Broker) (now : Instant) (id : ShareSessionId) :
    (broker.cleanupExpiredSessions now).sessions.find id =
      (broker.sessions.find id).bind fun session =>
        if (session.cleanup now).2.2 then none else some (session.cleanup now).1 := by
  rw [cleanupExpiredSessions, cleanup_fold_find now broker id (AList.keys_nodup _)]
  split
  · rfl
  · next absent => rw [Table.find_eq_none_iff.mpr absent, Option.bind_none]

/-- The clock and the tasks stay as they are. -/
structure SameTasks (before after : Broker) : Prop where
  now : after.now = before.now
  joins : after.joins = before.joins
  connections : after.connections = before.connections

theorem cleanupSession_tasks (now : Instant) (broker : Broker) (id : ShareSessionId) :
    SameTasks broker (cleanupSession now broker id) := by
  unfold cleanupSession
  split
  · exact ⟨rfl, rfl, rfl⟩
  · simp only
    split <;> exact ⟨rfl, rfl, rfl⟩

theorem cleanup_tasks (broker : Broker) (now : Instant) :
    SameTasks broker (broker.cleanupExpiredSessions now) := by
  have all : ∀ (keys : List ShareSessionId) (broker : Broker),
      SameTasks broker (keys.foldl (cleanupSession now) broker) := by
    intro keys
    induction keys with
    | nil => exact fun _ => ⟨rfl, rfl, rfl⟩
    | cons key keys induction =>
        intro broker
        have first := cleanupSession_tasks now broker key
        have others := induction (cleanupSession now broker key)
        exact ⟨others.now.trans first.now, others.joins.trans first.joins,
          others.connections.trans first.connections⟩
  exact all _ broker

theorem markActivity_tasks (broker : Broker) (sessionId : ShareSessionId) (auth : ParticipantId)
    (connection : Uuid) : SameTasks broker (broker.markActivity sessionId auth connection) := by
  rw [markActivity]
  split <;> exact ⟨rfl, rfl, rfl⟩

/-! ## Every step -/

variable {broker : Broker} {id : ShareSessionId}

theorem SessionStep.unchanged {input : Input} {result : Result}
    (sessions : result.nextState.sessions = broker.sessions)
    (quiet : ¬ Concerns id input result.observation) :
    SessionStep broker id input result.observation (broker.sessions.find id)
      (result.nextState.sessions.find id) := by
  rw [sessions]
  exact .kept quiet

theorem SessionStep.stored {input : Input} {result : Result} {other : ShareSessionId}
    {session after : SessionRecord}
    (sessions : result.nextState.sessions = broker.sessions.put other after)
    (found : broker.sessions.find other = some session)
    (changed : SessionStep broker other input result.observation (some session) (some after))
    (quiet : id ≠ other → ¬ Concerns id input result.observation) :
    SessionStep broker id input result.observation (broker.sessions.find id)
      (result.nextState.sessions.find id) := by
  rw [sessions, Table.find_put]
  by_cases same : id = other
  · subst same
    rw [if_pos rfl, found]
    exact changed
  · rw [if_neg same]
    exact .kept (quiet same)

theorem create_step (loopback : Option Bool) (body : CreateShareSessionRequest)
    (drawn : ShareSessionId) (hostToken : String) (lag : Nat) :
    SessionStep broker id (.create loopback body drawn hostToken lag)
      (broker.createShareSession foreign loopback body drawn hostToken
        (broker.now - lag)).observation
      (broker.sessions.find id)
      ((broker.createShareSession foreign loopback body drawn hostToken
        (broker.now - lag)).nextState.sessions.find id) := by
  rw [createShareSession]
  split
  · exact .unchanged rfl not_false
  split
  · exact .unchanged rfl not_false
  split
  · exact .unchanged rfl not_false
  split
  · exact .unchanged rfl not_false
  simp only [store_sessions, Table.find_put]
  by_cases same : id = drawn
  · subst same
    rw [if_pos rfl]
    exact .created
  · rw [if_neg same]
    exact .kept fun concerns => same concerns.symm

theorem join_step (key : Nat) (sessionId : ShareSessionId) (request : JoinShareSessionRequest)
    (utcNow : DateTime) :
    SessionStep broker id (.join key sessionId request utcNow)
      (broker.joinShareSession key sessionId request utcNow).observation
      (broker.sessions.find id)
      ((broker.joinShareSession key sessionId request utcNow).nextState.sessions.find id) := by
  rw [joinShareSession]
  split
  · exact .unchanged rfl not_false
  split
  · exact .unchanged rfl not_false
  next body sanitized =>
    split
    · exact .unchanged rfl not_false
    next session found =>
      have changed : SessionStep broker sessionId (.join key sessionId request utcNow) _
          (some session) _ := .prepared sanitized
      cases answer : session.prepareJoin body broker.now utcNow broker.verificationSlots with
      | mk result rest =>
          obtain ⟨after, slots⟩ := rest
          rw [answer] at changed
          cases result with
          | error error => exact .stored rfl found changed fun _ => not_false
          | ok reserved =>
              exact .stored rfl found changed fun different concerns => different concerns.symm

theorem verify_sessions (key : Nat) (workerFails : Bool) :
    (broker.verifyJoin foreign key workerFails).nextState.sessions = broker.sessions ∧
      (broker.verifyJoin foreign key workerFails).observation = .silent := by
  rw [verifyJoin]
  split
  · exact ⟨rfl, rfl⟩
  · split
    · exact ⟨rfl, rfl⟩
    · split
      · exact ⟨rfl, rfl⟩
      · simp only
        split <;> exact ⟨rfl, rfl⟩

theorem cancel_sessions (key : Nat) :
    (broker.cancelJoin key).nextState.sessions = broker.sessions ∧
      (broker.cancelJoin key).observation = .silent := by
  rw [cancelJoin]
  split
  · exact ⟨rfl, rfl⟩
  · split <;> exact ⟨rfl, rfl⟩

theorem finish_step (key : Nat) (draw : SessionRecord.JoinDraw) (utcNow : DateTime) :
    SessionStep broker id (.finish key draw utcNow)
      (broker.finishJoin key draw utcNow).observation
      (broker.sessions.find id)
      ((broker.finishJoin key draw utcNow).nextState.sessions.find id) := by
  rw [finishJoin]
  split
  · next sessionId body hash answer task =>
      simp only
      split
      · exact .unchanged rfl not_false
      next verified =>
        split
        · exact .unchanged rfl not_false
        next session found =>
          have changed : SessionStep broker sessionId (.finish key draw utcNow) _
              (some session) _ := .finished task
          have elsewhere : id ≠ sessionId → ∀ answer,
              ¬ Concerns id (.finish key draw utcNow) (.joined sessionId body.deviceId answer) := by
            intro different answer
            cases answer with
            | error error => exact not_false
            | ok response => exact fun concerns => different concerns.symm
          exact .stored rfl found changed fun different => elsewhere different _
  · exact .unchanged rfl not_false

theorem decide_step {input : Input} (sessionId : ShareSessionId)
    (handler : SessionRecord → Except ApiError Unit × SessionRecord × Sends)
    (changed : ∀ session, SessionStep broker sessionId input (.decided (handler session).1)
      (some session) (some (handler session).2.1))
    (refused : ∀ error, ¬ Concerns id input (.decided (.error error)))
    (elsewhere : id ≠ sessionId → ¬ Concerns id input (.decided (.ok ()))) :
    SessionStep broker id input (broker.decide sessionId handler).observation
      (broker.sessions.find id) ((broker.decide sessionId handler).nextState.sessions.find id) := by
  rw [decide]
  split
  · exact .unchanged rfl (refused _)
  next session found =>
    refine .stored rfl found (changed session) ?_
    intro different
    simp only
    cases (handler session).1 with
    | error error => exact refused error
    | ok => exact elsewhere different

theorem end_step (sessionId : ShareSessionId) (hostToken : String) :
    SessionStep broker id (.endSession sessionId hostToken)
      (broker.endShareSession sessionId hostToken).observation (broker.sessions.find id)
      ((broker.endShareSession sessionId hostToken).nextState.sessions.find id) := by
  rw [endShareSession]
  split
  · exact .unchanged rfl not_false
  next session found =>
    split
    · exact .unchanged rfl not_false
    simp only [sendAll_sessions, Table.find_remove]
    by_cases same : id = sessionId
    · subst same
      rw [if_pos rfl, found]
      exact .ended
    · rw [if_neg same]
      exact .kept fun concerns => same concerns.symm

theorem stream_sessions (connection : Uuid) (sessionId : ShareSessionId) (token : String)
    (role : Option SessionRole) :
    (broker.streamSession connection sessionId token role).nextState.sessions =
        broker.sessions ∧
      ∀ input, ¬ Concerns id input
        (broker.streamSession connection sessionId token role).observation := by
  have silent : ∀ input, ¬ Concerns id input .silent := by
    intro input
    cases input <;> exact not_false
  have answered : ∀ result input, ¬ Concerns id input (.authenticated result) := by
    intro result input
    cases input <;> exact not_false
  unfold streamSession
  split
  · exact ⟨rfl, silent⟩
  · split
    · exact ⟨rfl, answered _⟩
    · exact ⟨rfl, answered _⟩
    · split
      · exact ⟨rfl, answered _⟩
      · exact ⟨rfl, answered _⟩

theorem register_step (connection : Uuid) :
    SessionStep broker id (.register connection) (broker.registerSocket connection).observation
      (broker.sessions.find id)
      ((broker.registerSocket connection).nextState.sessions.find id) := by
  rw [registerSocket]
  split
  · next sessionId auth task =>
      simp only
      split
      · exact .unchanged rfl not_false
      next session found =>
        split
        · exact .unchanged rfl not_false
        next registered sends registers =>
          exact .stored rfl found (.registered task registers) fun _ => not_false
  · exact .unchanged rfl not_false

theorem greet_sessions (connection : Uuid) :
    (broker.greetSocket connection).nextState.sessions = broker.sessions ∧
      (broker.greetSocket connection).observation = .silent := by
  rw [greetSocket]
  split <;> exact ⟨rfl, rfl⟩

theorem markActivity_find (sessionId : ShareSessionId) (auth : ParticipantId)
    (connection : Uuid) :
    (broker.markActivity sessionId auth connection).sessions.find id =
      if id = sessionId then (broker.sessions.find id).map
        (·.markConnectionActivity auth connection broker.now)
      else broker.sessions.find id := by
  rw [markActivity]
  split
  · next missing =>
      split
      · next same => rw [same, missing, Option.map_none]
      · rfl
  · next session found =>
      rw [find_store]
      split
      · next same => rw [same, found, Option.map_some]
      · rfl

theorem receive_sessions (foreign : Foreign) {connection : Uuid} (message : ClientMessage)
    {sessionId : ShareSessionId} {auth : ParticipantId}
    (task : broker.connections.find connection = some ⟨sessionId, auth, .looping⟩) :
    (broker.receiveMessage foreign connection message).nextState.sessions =
        (broker.markActivity sessionId auth connection).sessions ∧
      (broker.receiveMessage foreign connection message).observation = .silent := by
  rw [receiveMessage, task]
  simp only
  split
  · split <;> exact ⟨rfl, rfl⟩
  · exact ⟨rfl, rfl⟩
  · exact ⟨rfl, rfl⟩
  · split
    · split <;> exact ⟨rfl, rfl⟩
    · split <;> exact ⟨rfl, rfl⟩
  · exact ⟨rfl, rfl⟩

theorem receive_ignored {connection : Uuid} {message : ClientMessage}
    (idle : ∀ sessionId auth,
      broker.connections.find connection ≠ some ⟨sessionId, auth, .looping⟩) :
    broker.receiveMessage foreign connection message = ⟨broker, .silent⟩ := by
  unfold receiveMessage
  split
  · next sessionId auth task => exact absurd task (idle sessionId auth)
  · rfl

theorem receive_step (connection : Uuid) (message : ClientMessage) :
    SessionStep broker id (.receive connection message)
      (broker.receiveMessage foreign connection message).observation (broker.sessions.find id)
      ((broker.receiveMessage foreign connection message).nextState.sessions.find id) := by
  by_cases looping : ∃ sessionId auth,
      broker.connections.find connection = some ⟨sessionId, auth, .looping⟩
  · obtain ⟨sessionId, auth, task⟩ := looping
    obtain ⟨sessions, silent⟩ := receive_sessions foreign message task
    rw [sessions, silent, markActivity_find]
    by_cases same : id = sessionId
    · subst same
      rw [if_pos rfl]
      cases broker.sessions.find id with
      | none => exact .kept not_false
      | some session => exact .marked task
    · rw [if_neg same]
      exact .kept not_false
  · simp only [not_exists] at looping
    rw [receive_ignored looping]
    exact .kept not_false

theorem relay_sessions (connection : Uuid) :
    (broker.relayPayload connection).nextState.sessions = broker.sessions ∧
      ∀ input, ¬ Concerns id input (broker.relayPayload connection).observation := by
  rw [relayPayload]
  split
  · refine ⟨rfl, ?_⟩
    intro input
    cases input <;> exact not_false
  · refine ⟨rfl, ?_⟩
    intro input
    cases input <;> exact not_false

theorem lose_sessions (connection : Uuid) :
    (broker.loseSocket connection).nextState.sessions = broker.sessions ∧
      (broker.loseSocket connection).observation = .silent := by
  rw [loseSocket]
  split <;> exact ⟨rfl, rfl⟩

theorem disconnect_step (connection : Uuid) :
    SessionStep broker id (.disconnect connection)
      (broker.disconnectSocket connection).observation (broker.sessions.find id)
      ((broker.disconnectSocket connection).nextState.sessions.find id) := by
  rw [disconnectSocket]
  split
  · next sessionId auth task =>
      simp only
      split
      · exact .unchanged rfl not_false
      next session found => exact .stored rfl found (.disconnected task) fun _ => not_false
  · exact .unchanged rfl not_false

theorem drain_sessions (connection : Uuid) (socketFails : Bool) :
    (broker.drainChannel connection socketFails).nextState.sessions = broker.sessions ∧
      (broker.drainChannel connection socketFails).observation = .silent := by
  rw [drainChannel]
  split <;> exact ⟨rfl, rfl⟩

theorem cleanup_step (lag : Nat) :
    SessionStep broker id (.cleanup lag) .silent (broker.sessions.find id)
      ((broker.cleanupExpiredSessions (broker.now - lag)).sessions.find id) := by
  rw [cleanupExpiredSessions_find]
  cases broker.sessions.find id with
  | none => exact .kept not_false
  | some session => exact .swept

theorem step_session (broker : Broker) (input : Input) (id : ShareSessionId) :
    SessionStep broker id input ((machine foreign).observe broker input)
      (broker.sessions.find id) (((machine foreign).next broker input).sessions.find id) := by
  have silent : ∀ {result : Result}, result.nextState.sessions = broker.sessions ∧
      result.observation = .silent →
      SessionStep broker id input result.observation (broker.sessions.find id)
        (result.nextState.sessions.find id) := by
    intro result ⟨sessions, quiet⟩
    refine .unchanged sessions ?_
    rw [quiet]
    cases input <;> exact not_false
  cases input with
  | tick elapsed => exact .kept not_false
  | create loopback body drawn hostToken lag => exact create_step loopback body drawn hostToken lag
  | join key sessionId body utcNow => exact join_step key sessionId body utcNow
  | verify key workerFails => exact silent (verify_sessions key workerFails)
  | finish key draw utcNow => exact finish_step key draw utcNow
  | cancel key => exact silent (cancel_sessions key)
  | rotate sessionId body =>
      exact decide_step sessionId _ (fun _ => .rotated) (fun _ => not_false)
        fun different concerns => different concerns.symm
  | approve sessionId body =>
      exact decide_step sessionId _ (fun _ => .approved) (fun _ => not_false)
        fun different concerns => different concerns.symm
  | deny sessionId body =>
      exact decide_step sessionId _ (fun _ => .denied) (fun _ => not_false)
        fun different concerns => different concerns.symm
  | endSession sessionId hostToken => exact end_step sessionId hostToken
  | stream connection sessionId token role =>
      obtain ⟨sessions, quiet⟩ := @stream_sessions broker id connection sessionId token role
      exact .unchanged sessions (quiet _)
  | register connection => exact register_step connection
  | greet connection => exact silent (greet_sessions connection)
  | receive connection message => exact receive_step connection message
  | relay connection =>
      obtain ⟨sessions, quiet⟩ := @relay_sessions broker id connection
      exact .unchanged sessions (quiet _)
  | lose connection => exact silent (lose_sessions connection)
  | disconnect connection => exact disconnect_step connection
  | drain connection socketFails => exact silent (drain_sessions connection socketFails)
  | cleanup lag => exact cleanup_step lag

end TerminalCanvas.Collab.Broker
