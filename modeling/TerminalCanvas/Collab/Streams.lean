import TerminalCanvas.Collab.Changes

/-! # Streams and outbound queues

What a step does to the connection tasks, and what it puts on the queues. -/

namespace TerminalCanvas.Collab

open Execution

/-! ## Targets -/

namespace SessionRecord

variable {session : SessionRecord}

theorem mem_relayTargets {auth : ParticipantId} {target : ParticipantId × Uuid}
    (member : target ∈ session.relayTargets auth) :
    (auth = .host ∧ ∃ id guest, target.1 = .guest id ∧ session.guests.find id = some guest ∧
      guest.mayRelay = true ∧ guest.tx = some target.2) ∨
    ∃ id guest, auth = .guest id ∧ target.1 = .host ∧ session.guests.find id = some guest ∧
      guest.mayRelay = true ∧ session.hostTx = some target.2 := by
  cases auth with
  | host =>
      obtain ⟨entry, stored, chosen⟩ := List.mem_filterMap.mp member
      split at chosen
      · next may =>
          obtain ⟨connection, open_, rfl⟩ := Option.map_eq_some_iff.mp chosen
          exact .inl ⟨rfl, entry.1, entry.2, rfl, Table.find_eq_some_iff.mpr stored, may, open_⟩
      · cases chosen
  | guest id =>
      unfold relayTargets at member
      simp only at member
      split at member
      · cases member
      next guest found =>
        split at member
        · next may =>
            obtain ⟨connection, open_, rfl⟩ := List.mem_map.mp member
            exact .inr ⟨id, guest, rfl, rfl, found, may, by simpa using open_⟩
        · cases member

/-! ## Announcements -/

/-- Nothing but messages of the broker. -/
def Plain (sends : Sends) : Prop :=
  ∀ send ∈ sends, ∀ payload, send.2 ≠ .binary payload

theorem Plain.nil : Plain [] := by
  intro send member
  cases member

theorem Plain.cons {send : Uuid × Message} {sends : Sends}
    (head : ∀ payload, send.2 ≠ .binary payload) (tail : Plain sends) : Plain (send :: sends) := by
  intro other member
  rcases List.mem_cons.mp member with rfl | later
  · exact head
  · exact tail other later

theorem Plain.append {first second : Sends} (left : Plain first) (right : Plain second) :
    Plain (first ++ second) := by
  intro send member
  rcases List.mem_append.mp member with earlier | later
  · exact left send earlier
  · exact right send later

theorem plain_texts (queues : List Uuid) (control : BrokerControlMessage) :
    Plain (queues.map (·, .text control)) := by
  intro send member payload
  obtain ⟨queue, _, rfl⟩ := List.mem_map.mp member
  nofun

theorem plain_sendsToGuests (session : SessionRecord) (control : BrokerControlMessage) :
    Plain (session.sendsToGuests control) := by
  intro send member payload
  obtain ⟨entry, _, chosen⟩ := List.mem_filterMap.mp member
  obtain ⟨queue, _, rfl⟩ := Option.map_eq_some_iff.mp chosen
  nofun

theorem plain_broadcastPresence (session : SessionRecord) : Plain session.broadcastPresence :=
  (plain_texts _ _).append (plain_sendsToGuests _ _)

theorem plain_finishJoin (session : SessionRecord) (body : JoinShareSessionRequest)
    (hash : Option String) (verified : Bool) (draw : JoinDraw) (now : Instant)
    (utcNow : DateTime) :
    Plain (session.finishJoin body hash verified draw now utcNow).2.2 := by
  rw [finishJoin]
  split
  · exact .nil
  split
  · exact .nil
  split
  · exact .nil
  · simp only
    refine (plain_broadcastPresence _).append ?_
    split
    · exact .nil
    · exact plain_texts _ _

theorem plain_asHost {Answer : Type} {token : String}
    {handler : Except ApiError Answer × SessionRecord × Sends} (plain : Plain handler.2.2) :
    Plain (session.asHost token handler).2.2 := by
  rw [asHost]
  split
  · exact plain
  · exact .nil

theorem plain_approveJoin (session : SessionRecord) (body : JoinDecisionRequest)
    (now : Instant) : Plain (session.approveJoin body now).2.2 := by
  apply plain_asHost
  split
  · exact .nil
  split
  · exact .nil
  · exact (plain_texts _ _).append (plain_broadcastPresence _)

theorem plain_denyJoin (session : SessionRecord) (body : JoinDecisionRequest)
    (now : Instant) : Plain (session.denyJoin body now).2.2 := by
  apply plain_asHost
  split
  · exact .nil
  · exact (plain_texts _ _).append (plain_broadcastPresence _)

theorem plain_rotateInvite (session : SessionRecord) (body : RotateInviteRequest) :
    Plain (session.rotateInvite body).2.2 := plain_asHost .nil

theorem plain_registerStream {auth : ParticipantId} {connection : Uuid} {now : Instant}
    {registered : SessionRecord} {sends : Sends}
    (registers : session.registerStream auth connection now = some (registered, sends)) :
    Plain sends := by
  cases auth with
  | host =>
      simp only [registerStream, Option.some.injEq, Prod.mk.injEq] at registers
      rw [← registers.2]
      refine (Plain.append ?_ (plain_broadcastPresence _)).append ?_
      · split
        · exact plain_sendsToGuests _ _
        · exact .nil
      · intro send member payload
        obtain ⟨entry, _, chosen⟩ := List.mem_filterMap.mp member
        split at chosen
        · cases chosen
          nofun
        · cases chosen
  | guest id =>
      simp only [registerStream, Option.pure_def, Option.bind_eq_bind,
        Option.bind_eq_some_iff] at registers
      obtain ⟨guest, _, after, _, equal⟩ := registers
      cases equal
      exact plain_broadcastPresence _

theorem plain_handleDisconnect (session : SessionRecord) (auth : ParticipantId)
    (connection : Uuid) (now : Instant) :
    Plain (session.handleDisconnect auth connection now).2 := by
  cases auth with
  | host =>
      rw [handleDisconnect]
      split
      · exact .nil
      · exact plain_sendsToGuests _ _
  | guest id =>
      rw [handleDisconnect]
      split
      · exact plain_broadcastPresence _
      · split
        · exact .nil
        · exact plain_broadcastPresence _

theorem plain_cleanup (session : SessionRecord) (now : Instant) :
    Plain (session.cleanup now).2.1 := by
  simp only [cleanup]
  refine Plain.append ?_ ?_
  · rw [beatHost]
    split
    · simp only
      split
      · exact plain_sendsToGuests _ _
      · exact .nil
    · exact .nil
  · split
    · exact plain_broadcastPresence _
    · exact .nil

end SessionRecord

namespace Broker

variable {foreign : Foreign}

/-! ## Queues -/

/-- How often a payload waits on a queue. -/
def waiting (broker : Broker) (queue : Uuid) (payload : Bytes) : Nat :=
  ((broker.channels.find queue).elim [] (·.messages)).count (.binary payload)

theorem waiting_of_channels {before after : Broker} (channels : after.channels = before.channels)
    (queue : Uuid) (payload : Bytes) :
    after.waiting queue payload = before.waiting queue payload := by
  rw [waiting, waiting, channels]

theorem trySend_count (channels : Table Uuid Channel) (send : Uuid × Message) (queue : Uuid)
    (message : Message) (other : send ≠ (queue, message)) :
    (((trySend channels send).find queue).elim [] (·.messages)).count message ≤
      ((channels.find queue).elim [] (·.messages)).count message := by
  rw [trySend]
  split
  · exact Nat.le_refl _
  next channel found =>
    split
    · rw [Table.find_put]
      split
      · next same =>
          subst same
          have unequal : send.2 ≠ message := fun equal => other (Prod.ext rfl equal)
          rw [found]
          simp [List.count_append, unequal]
      · exact Nat.le_refl _
    · exact Nat.le_refl _

theorem sendAll_count (sends : Sends) (channels : Table Uuid Channel) (queue : Uuid)
    (message : Message) (absent : (queue, message) ∉ sends) :
    (((sends.foldl trySend channels).find queue).elim [] (·.messages)).count message ≤
      ((channels.find queue).elim [] (·.messages)).count message := by
  induction sends generalizing channels with
  | nil => exact Nat.le_refl _
  | cons send sends induction =>
      obtain ⟨other, later⟩ := not_or.mp (List.mem_cons.not.mp absent)
      exact Nat.le_trans (induction _ later)
        (trySend_count channels send queue message (Ne.symm other))

theorem sendAll_waiting {broker : Broker} {sends : Sends} (plain : SessionRecord.Plain sends)
    (queue : Uuid) (payload : Bytes) :
    (broker.sendAll sends).waiting queue payload ≤ broker.waiting queue payload :=
  sendAll_count sends broker.channels queue _ fun member => plain _ member payload rfl

theorem cleanupSession_waiting (now : Instant) (broker : Broker) (id : ShareSessionId)
    (queue : Uuid) (payload : Bytes) :
    (cleanupSession now broker id).waiting queue payload ≤ broker.waiting queue payload := by
  rw [cleanupSession]
  split
  · exact Nat.le_refl _
  next session found =>
    simp only
    have swept := session.plain_cleanup now
    split
    · exact sendAll_waiting (swept.append (SessionRecord.plain_sendsToGuests _ _)) queue payload
    · exact sendAll_waiting swept queue payload

theorem cleanup_waiting (broker : Broker) (now : Instant) (queue : Uuid) (payload : Bytes) :
    (broker.cleanupExpiredSessions now).waiting queue payload ≤ broker.waiting queue payload := by
  have all : ∀ (keys : List ShareSessionId) (broker : Broker),
      (keys.foldl (cleanupSession now) broker).waiting queue payload ≤
        broker.waiting queue payload := by
    intro keys
    induction keys with
    | nil => exact fun _ => Nat.le_refl _
    | cons key keys induction =>
        intro broker
        exact Nat.le_trans (induction _) (cleanupSession_waiting now broker key queue payload)
  exact all _ broker

theorem decide_waiting (broker : Broker) (sessionId : ShareSessionId)
    {handler : SessionRecord → Except ApiError Unit × SessionRecord × Sends}
    (plain : ∀ session, SessionRecord.Plain (handler session).2.2) (queue : Uuid)
    (payload : Bytes) :
    (broker.decide sessionId handler).nextState.waiting queue payload ≤
      broker.waiting queue payload := by
  rw [decide]
  split
  · exact Nat.le_refl _
  next session found => exact sendAll_waiting (plain session) _ _

theorem finish_waiting (broker : Broker) (key : Nat) (draw : SessionRecord.JoinDraw)
    (utcNow : DateTime) (queue : Uuid) (payload : Bytes) :
    (broker.finishJoin key draw utcNow).nextState.waiting queue payload ≤
      broker.waiting queue payload := by
  rw [finishJoin]
  split
  · simp only
    split
    · exact Nat.le_refl _
    · split
      · exact Nat.le_refl _
      next session found =>
        exact sendAll_waiting (SessionRecord.plain_finishJoin session _ _ _ _ _ _) queue payload
  · exact Nat.le_refl _

theorem end_waiting (broker : Broker) (sessionId : ShareSessionId) (hostToken : String)
    (queue : Uuid) (payload : Bytes) :
    (broker.endShareSession sessionId hostToken).nextState.waiting queue payload ≤
      broker.waiting queue payload := by
  rw [endShareSession]
  split
  · exact Nat.le_refl _
  · split
    · exact Nat.le_refl _
    · exact sendAll_waiting (SessionRecord.plain_sendsToGuests _ _) queue payload

theorem register_waiting (broker : Broker) (connection queue : Uuid) (payload : Bytes) :
    (broker.registerSocket connection).nextState.waiting queue payload ≤
      broker.waiting queue payload := by
  rw [registerSocket]
  split
  · simp only
    split
    · exact Nat.le_refl _
    · split
      · exact Nat.le_refl _
      next registered sends registers =>
        refine Nat.le_trans (sendAll_waiting
          (SessionRecord.plain_registerStream registers) queue payload) ?_
        -- the new queue is empty
        rw [waiting, waiting]
        simp only [Table.find_put]
        split
        · exact Nat.zero_le _
        · exact Nat.le_refl _
  · exact Nat.le_refl _

theorem disconnect_waiting (broker : Broker) (connection queue : Uuid) (payload : Bytes) :
    (broker.disconnectSocket connection).nextState.waiting queue payload ≤
      broker.waiting queue payload := by
  rw [disconnectSocket]
  split
  · simp only
    split
    · exact Nat.le_refl _
    · exact sendAll_waiting (SessionRecord.plain_handleDisconnect _ _ _ _) queue payload
  · exact Nat.le_refl _

theorem greet_waiting (broker : Broker) (connection queue : Uuid) (payload : Bytes) :
    (broker.greetSocket connection).nextState.waiting queue payload ≤
      broker.waiting queue payload := by
  rw [greetSocket]
  split
  · refine sendAll_waiting (.cons ?_ ?_) queue payload
    · simp
    split
    · split
      · exact .cons (by simp) .nil
      · exact .nil
    · exact .nil
  · exact Nat.le_refl _

theorem receive_waiting (broker : Broker) (connection : Uuid) (message : ClientMessage)
    (queue : Uuid) (payload : Bytes) :
    (broker.receiveMessage foreign connection message).nextState.waiting queue payload ≤
      broker.waiting queue payload := by
  unfold receiveMessage
  split
  · next sessionId auth task =>
      have marked : (broker.markActivity sessionId auth connection).waiting queue payload =
          broker.waiting queue payload := by
        apply waiting_of_channels
        rw [markActivity]
        split <;> rfl
      have answered : ∀ answer : Message, (∀ payload, answer ≠ .binary payload) →
          ((broker.markActivity sessionId auth connection).sendAll
            [(connection, answer)]).waiting queue payload ≤ broker.waiting queue payload := by
        intro answer plain
        rw [← marked]
        exact sendAll_waiting (.cons plain .nil) queue payload
      have kept := Nat.le_of_eq marked
      simp only
      split
      · split
        · exact answered _ (by simp)
        · exact kept
      · exact answered _ (by simp)
      · exact kept
      · split
        · split
          · exact kept
          · exact answered _ (by simp)
        · split
          · exact kept
          · exact answered _ (by simp)
      · exact kept
  · exact Nat.le_refl _

theorem drain_waiting (broker : Broker) (connection : Uuid) (socketFails : Bool) (queue : Uuid)
    (payload : Bytes) :
    (broker.drainChannel connection socketFails).nextState.waiting queue payload ≤
      broker.waiting queue payload := by
  rw [drainChannel]
  split
  · exact Nat.le_refl _
  next channel found =>
    rw [waiting, waiting]
    simp only [Table.find_put]
    split
    · next same =>
        rw [same, found]
        exact (List.tail_sublist _).count_le _
    · exact Nat.le_refl _

def relayTargets (broker : Broker) (id : ShareSessionId) (auth : ParticipantId) :
    List (ParticipantId × Uuid) :=
  match broker.sessions.find id with
  | none => []
  | some session => session.relayTargets auth

theorem relay_spec {broker : Broker} {connection : Uuid} {id : ShareSessionId}
    {auth : ParticipantId} {payload : Bytes}
    (task : broker.connections.find connection = some ⟨id, auth, .relaying payload⟩) :
    (broker.relayPayload connection).observation =
        .relayed id auth payload ((broker.relayTargets id auth).map (·.1)) ∧
      ∀ queue other, broker.waiting queue other <
        (broker.relayPayload connection).nextState.waiting queue other →
        other = payload ∧ ∃ target, (target, queue) ∈ broker.relayTargets id auth := by
  rw [relayPayload, task]
  refine ⟨rfl, ?_⟩
  intro queue other grows
  by_contra elsewhere
  refine absurd grows (Nat.not_lt.mpr ?_)
  refine sendAll_count _ broker.channels queue (.binary other) ?_
  intro member
  obtain ⟨target, chosen, equal⟩ := List.mem_map.mp member
  simp only [Prod.mk.injEq, Message.binary.injEq] at equal
  obtain ⟨rfl, rfl⟩ := equal
  exact elsewhere ⟨rfl, target.1, chosen⟩

theorem receive_observation {broker : Broker} {connection : Uuid} {message : ClientMessage} :
    (broker.receiveMessage foreign connection message).observation = .silent := by
  unfold receiveMessage
  split
  · simp only
    repeat' split
    all_goals rfl
  · rfl

theorem relay_ignored {broker : Broker} {connection : Uuid}
    (idle : ∀ id auth payload,
      broker.connections.find connection ≠ some ⟨id, auth, .relaying payload⟩) :
    broker.relayPayload connection = ⟨broker, .silent⟩ := by
  unfold relayPayload
  split
  · next id auth payload task => exact absurd task (idle id auth payload)
  · rfl

theorem waiting_grows {broker : Broker} {input : Input} {queue : Uuid} {payload : Bytes}
    (grows : broker.waiting queue payload <
      ((machine foreign).next broker input).waiting queue payload) :
    ∃ connection id auth target, input = .relay connection ∧
      broker.connections.find connection = some ⟨id, auth, .relaying payload⟩ ∧
      (target, queue) ∈ broker.relayTargets id auth := by
  have never : ∀ {Goal : Prop},
      ((machine foreign).next broker input).waiting queue payload ≤
        broker.waiting queue payload → Goal :=
    fun bound => absurd grows (Nat.not_lt.mpr bound)
  cases input
  case finish key draw utcNow => exact never (finish_waiting broker key draw utcNow queue payload)
  case rotate sessionId body =>
    exact never (decide_waiting broker sessionId
      (fun session => session.plain_rotateInvite body) queue payload)
  case approve sessionId body =>
    exact never (decide_waiting broker sessionId
      (fun session => session.plain_approveJoin body broker.now) queue payload)
  case deny sessionId body =>
    exact never (decide_waiting broker sessionId
      (fun session => session.plain_denyJoin body broker.now) queue payload)
  case endSession sessionId hostToken =>
    exact never (end_waiting broker sessionId hostToken queue payload)
  case register connection => exact never (register_waiting broker connection queue payload)
  case greet connection => exact never (greet_waiting broker connection queue payload)
  case receive connection message =>
    exact never (receive_waiting broker connection message queue payload)
  case relay connection =>
    by_cases relaying : ∃ id auth other,
        broker.connections.find connection = some ⟨id, auth, .relaying other⟩
    · obtain ⟨id, auth, other, task⟩ := relaying
      obtain ⟨rfl, target, chosen⟩ := (relay_spec task).2 queue payload grows
      exact ⟨connection, id, auth, target, rfl, task, chosen⟩
    · simp only [not_exists] at relaying
      refine never (Nat.le_of_eq ?_)
      simp only [Machine.next, machine, step, relay_ignored relaying]
  case disconnect connection =>
    exact never (disconnect_waiting broker connection queue payload)
  case drain connection socketFails =>
    exact never (drain_waiting broker connection socketFails queue payload)
  case cleanup lag => exact never (cleanup_waiting broker _ queue payload)
  all_goals
    refine never (Nat.le_of_eq (waiting_of_channels ?_ queue payload))
    simp only [Machine.next, machine, step, createShareSession, joinShareSession, verifyJoin,
      cancelJoin, streamSession, loseSocket]
    repeat' split
    all_goals rfl

theorem relayed_inversion {broker : Broker} {input : Input} {id : ShareSessionId}
    {sender : ParticipantId} {payload : Bytes} {targets : List ParticipantId}
    (relayed : (machine foreign).observe broker input = .relayed id sender payload targets) :
    ∃ connection, input = .relay connection ∧
      broker.connections.find connection = some ⟨id, sender, .relaying payload⟩ ∧
      targets = (broker.relayTargets id sender).map (·.1) := by
  cases input
  case relay connection =>
    by_cases relaying : ∃ id auth other,
        broker.connections.find connection = some ⟨id, auth, .relaying other⟩
    · obtain ⟨id, auth, other, task⟩ := relaying
      have observed := (relay_spec task).1.symm.trans relayed
      cases observed
      exact ⟨connection, rfl, task, rfl⟩
    · simp only [not_exists] at relaying
      simp only [Machine.observe, machine, step, relay_ignored relaying] at relayed
      cases relayed
  case receive connection message =>
    have quiet := (@receive_observation foreign broker connection message).symm.trans relayed
    cases quiet
  all_goals
    simp only [Machine.observe, machine, step, createShareSession, joinShareSession, verifyJoin,
      finishJoin, cancelJoin, decide, endShareSession, streamSession, registerSocket, greetSocket,
      loseSocket, disconnectSocket, drainChannel] at relayed
    repeat' split at relayed
    all_goals cases relayed

/-! ## Connections -/

/-- From the registration of a connection to its disconnection. -/
def isOpen : ConnectionPhase → Bool
  | .upgrading | .closed => false
  | .registered | .looping | .relaying _ | .closing => true

inductive ConnectionStep (foreign : Foreign) (broker : Broker) :
    Input → Observation → Table Uuid ConnectionTask → Prop
  | kept {input observation} (quiet : ∀ auth, observation ≠ .authenticated (.ok auth)) :
      ConnectionStep foreign broker input observation broker.connections
  | opened {connection id token role auth session}
      (absent : broker.connections.find connection = none)
      (found : broker.sessions.find id = some session)
      (proof : authenticate session token role = some auth) :
      ConnectionStep foreign broker (.stream connection id token (some role))
        (.authenticated (.ok auth)) (broker.connections.put connection ⟨id, auth, .upgrading⟩)
  | moved {input observation connection task phase}
      (quiet : ∀ auth, observation ≠ .authenticated (.ok auth))
      (found : broker.connections.find connection = some task)
      (valid : ∀ payload, phase = .relaying payload →
        validateRelayEnvelope foreign task.sessionId task.auth payload = .ok ())
      (stays : isOpen task.phase = true → isOpen phase = true ∨ input = .disconnect connection) :
      ConnectionStep foreign broker input observation
        (broker.connections.put connection { task with phase := phase })

theorem stream_connections (broker : Broker) (connection : Uuid) (sessionId : ShareSessionId)
    (token : String) (role : Option SessionRole) :
    ConnectionStep foreign broker (.stream connection sessionId token role)
      (broker.streamSession connection sessionId token role).observation
      (broker.streamSession connection sessionId token role).nextState.connections := by
  unfold streamSession
  split
  · exact .kept (by simp)
  next unused =>
    split
    · exact .kept (by simp)
    · exact .kept (by simp)
    next role session found =>
      split
      · exact .kept (by simp)
      next auth proof => exact .opened (by simpa using unused) found proof

theorem register_connections (broker : Broker) (connection : Uuid) :
    ConnectionStep foreign broker (.register connection)
      (broker.registerSocket connection).observation
      (broker.registerSocket connection).nextState.connections := by
  rw [registerSocket]
  split
  · next id auth task =>
      simp only
      split
      · refine .moved ?_ task ?_ ?_
        all_goals simp [isOpen]
      · split
        · refine .moved ?_ task ?_ ?_
          all_goals simp [isOpen]
        · refine .moved ?_ task ?_ ?_
          all_goals simp [isOpen]
  · exact .kept (by simp)

theorem receive_connections (broker : Broker) (connection : Uuid) (message : ClientMessage) :
    ConnectionStep foreign broker (.receive connection message)
      (broker.receiveMessage foreign connection message).observation
      (broker.receiveMessage foreign connection message).nextState.connections := by
  rw [receive_observation]
  unfold receiveMessage
  split
  · next id auth task =>
      have same := (markActivity_tasks broker id auth connection).connections
      have left : ConnectionStep foreign broker (.receive connection message) .silent
          ((broker.markActivity id auth connection).connections.put connection
            ⟨id, auth, .closing⟩) := by
        rw [same]
        refine .moved ?_ task ?_ fun _ => .inl rfl
        · nofun
        · nofun
      have stays : ConnectionStep foreign broker (.receive connection message) .silent
          (broker.markActivity id auth connection).connections := by
        rw [same]
        exact .kept nofun
      simp only
      split
      · next payload =>
          split
          · exact left
          next valid =>
            have relays : ConnectionStep foreign broker (.receive connection (.binary payload))
                .silent (broker.connections.put connection ⟨id, auth, .relaying payload⟩) := by
              refine .moved ?_ task ?_ fun _ => .inl rfl
              · nofun
              · intro other equal
                cases equal
                exact valid
            rw [← same] at relays
            exact relays
      · exact left
      · exact left
      · split
        · split
          · exact left
          · exact stays
        · split
          · exact left
          · exact stays
      · exact stays
  · exact .kept nofun

theorem step_connections (broker : Broker) (input : Input) :
    ConnectionStep foreign broker input ((machine foreign).observe broker input)
      ((machine foreign).next broker input).connections := by
  cases input
  case stream connection id token role => exact stream_connections broker connection id token role
  case register connection => exact register_connections broker connection
  case receive connection message => exact receive_connections broker connection message
  case greet connection =>
    simp only [Machine.observe, Machine.next, machine, step]
    rw [greetSocket]
    split
    · next task => exact .moved (by simp) task (by simp) fun _ => .inl rfl
    · exact .kept (by simp)
  case relay connection =>
    simp only [Machine.observe, Machine.next, machine, step]
    rw [relayPayload]
    split
    · next task => exact .moved (by simp) task (by simp) fun _ => .inl rfl
    · exact .kept (by simp)
  case lose connection =>
    simp only [Machine.observe, Machine.next, machine, step]
    rw [loseSocket]
    split
    · next task => exact .moved (by simp) task (by simp) fun _ => .inl rfl
    · exact .kept (by simp)
  case disconnect connection =>
    simp only [Machine.observe, Machine.next, machine, step]
    rw [disconnectSocket]
    split
    · next task =>
        simp only
        split
        · exact .moved (by simp) task (by simp) fun _ => .inr rfl
        · exact .moved (by simp) task (by simp) fun _ => .inr rfl
    · exact .kept (by simp)
  case cleanup lag =>
    simp only [Machine.observe, Machine.next, machine, step]
    rw [(cleanup_tasks broker _).connections]
    exact .kept (by simp)
  all_goals
    simp only [Machine.observe, Machine.next, machine, step, createShareSession, joinShareSession,
      verifyJoin, finishJoin, cancelJoin, decide, endShareSession, drainChannel]
    repeat' split
    all_goals exact .kept (by simp)

def party (broker : Broker) (connection : Uuid) : Option (ShareSessionId × ParticipantId) :=
  (broker.connections.find connection).map fun task => (task.sessionId, task.auth)

end Broker

end TerminalCanvas.Collab
