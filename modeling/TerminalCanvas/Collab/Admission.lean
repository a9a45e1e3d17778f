import TerminalCanvas.Collab.Changes
import TerminalCanvas.Collab.Roster

/-! # Admission to a session

Joins verify their passphrase without the lock, so that decisions, rotations and
other joins come between their two phases. -/

namespace TerminalCanvas.Collab

open Execution

/-! ## Capacity -/

def activeCount (guests : Table GuestId GuestRecord) : Nat :=
  guests.countRows fun guest => !guest.isDenied

theorem RosterMove.activeCount_le {now : Instant} {guests after : Table GuestId GuestRecord}
    (move : RosterMove GuestMove now guests after) : activeCount after ≤ activeCount guests := by
  cases move with
  | kept => exact Nat.le_refl _
  | @moved id guest changed found move =>
      have exchanged := Table.countRows_put_of_find_some changed found fun guest => !guest.isDenied
      have lasting := move.isDenied
      rw [activeCount, activeCount]
      cases denied : guest.isDenied with
      | true =>
          rw [denied, lasting denied] at exchanged
          exact Nat.le_of_eq exchanged
      | false =>
          rw [denied, Bool.not_false, if_pos rfl] at exchanged
          split at exchanged <;> omega
  | swept reading past =>
      have beaten : activeCount (guests.mapRows fun _ guest => guest.beat reading) =
          activeCount guests :=
        Table.countRows_mapRows guests fun _ _ => by rw [GuestRecord.isDenied_beat]
      rw [← beaten]
      exact Table.countRows_keepRows_le _ _ _

theorem RosterMove.find_eq_some {now : Instant} {guests after : Table GuestId GuestRecord}
    (move : RosterMove GuestMove now guests after) {id : GuestId} {record : GuestRecord}
    (present : after.find id = some record) : ∃ old, guests.find id = some old := by
  cases move with
  | kept => exact ⟨record, present⟩
  | @moved other guest changed found move =>
      rw [Table.find_put] at present
      split at present
      · next same => exact ⟨guest, same ▸ found⟩
      · exact ⟨record, present⟩
  | swept reading past =>
      rw [SessionRecord.find_sweepGuests] at present
      obtain ⟨mapped, _⟩ := Option.filter_eq_some_iff.mp present
      obtain ⟨old, found, _⟩ := Option.map_eq_some_iff.mp mapped
      exact ⟨old, found⟩

namespace Broker

variable {foreign : Foreign}

/-- The changes of one session, as far as its policy and its size go. -/
inductive SessionChange (broker : Broker) (id : ShareSessionId) :
    Input → Observation → Option SessionRecord → Option SessionRecord → Prop
  | kept {input observation session} (quiet : ¬ Concerns id input observation) :
      SessionChange broker id input observation session session
  | created {loopback body hostToken lag old} :
      SessionChange broker id (.create loopback body id hostToken lag)
        (.created (.ok (id, hostToken))) old
        (some (newSession body hostToken (broker.now - lag)))
  | prepared {key request body utcNow session}
      (sanitized : sanitizeJoinRequest request = .ok body) :
      SessionChange broker id (.join key id request utcNow)
        (.prepared (session.prepareJoin body broker.now utcNow broker.verificationSlots).1)
        (some session)
        (some (session.prepareJoin body broker.now utcNow broker.verificationSlots).2.1)
  | finished {key draw utcNow body hash verified session}
      (task : broker.joins.find key = some ⟨id, body, hash, .verified (some verified), false⟩) :
      SessionChange broker id (.finish key draw utcNow)
        (.joined id body.deviceId
          (session.finishJoin body hash verified draw broker.now utcNow).1)
        (some session) (some (session.finishJoin body hash verified draw broker.now utcNow).2.1)
  | rotated {body session} :
      SessionChange broker id (.rotate id body) (.decided (session.rotateInvite body).1)
        (some session) (some (session.rotateInvite body).2.1)
  | moved {input observation session after}
      (move : SessionMove GuestMove broker.now session after) :
      SessionChange broker id input observation (some session) (some after)
  | gone {input observation before} : SessionChange broker id input observation before none

theorem SessionStep.change {broker : Broker} {id : ShareSessionId} {input : Input}
    {observation : Observation} {before after : Option SessionRecord}
    (step : SessionStep broker id input observation before after) :
    SessionChange broker id input observation before after := by
  cases step with
  | kept quiet => exact .kept quiet
  | created => exact .created
  | prepared sanitized => exact .prepared sanitized
  | finished task => exact .finished task
  | rotated => exact .rotated
  | approved => exact .moved (SessionRecord.approveJoin_move _ _ _)
  | denied => exact .moved (SessionRecord.denyJoin_move _ _ _)
  | ended => exact .gone
  | registered task registers =>
      exact .moved (SessionRecord.registerStream_move registers).ofTransport
  | marked task => exact .moved (SessionRecord.markConnectionActivity_move _ _).ofTransport
  | disconnected task => exact .moved (SessionRecord.handleDisconnect_move _ _).ofTransport
  | swept =>
      split
      · exact .gone
      · exact .moved (SessionRecord.cleanup_move _ (Nat.sub_le _ _)).ofTransport

theorem step_change (broker : Broker) (input : Input) (id : ShareSessionId) :
    SessionChange broker id input ((machine foreign).observe broker input)
      (broker.sessions.find id) (((machine foreign).next broker input).sessions.find id) :=
  (step_session broker input id).change

/-! ## Capacity of every session -/

/-- No session holds more active guests than the limit. -/
def Capacity (broker : Broker) : Prop :=
  ∀ id session, broker.sessions.find id = some session →
    session.activeGuestCount ≤ participantLimit

theorem SessionChange.capacity {broker : Broker} {id : ShareSessionId} {input : Input}
    {observation : Observation} {before after : Option SessionRecord}
    (change : SessionChange broker id input observation before after)
    (bounded : ∀ session, before = some session → session.activeGuestCount ≤ participantLimit) :
    ∀ session, after = some session → session.activeGuestCount ≤ participantLimit := by
  intro result equal
  cases change with
  | kept quiet => exact bounded result equal
  | created =>
      cases equal
      exact Nat.zero_le _
  | @prepared key request body utcNow session sanitized =>
      cases equal
      rcases session.prepareJoin_spec body broker.now utcNow broker.verificationSlots with
        ⟨_, same, _⟩ | ⟨_, failed⟩ | ⟨_, reserved⟩
      · rw [same]
        exact bounded session rfl
      · rw [failed]
        exact bounded session rfl
      · rw [reserved]
        exact bounded session rfl
  | @finished key draw utcNow body hash verified session task =>
      cases equal
      rcases session.finishJoin_spec body hash verified draw broker.now utcNow with
        ⟨_, same⟩ | ⟨_, failed⟩ | ⟨valid, _, _, _, admitted⟩
      · rw [same]
        exact bounded session rfl
      · rw [failed]
        exact bounded session rfl
      · rw [admitted]
        have free := (SessionRecord.validateJoinAccess_eq_ok.mp valid).2.2
        have grows := Table.countRows_put_le session.guests draw.guestId
          (SessionRecord.admittedGuest body draw.guestToken
            (session.trustedDevices.find body.deviceId).isSome broker.now utcNow)
          fun guest => !guest.isDenied
        exact Nat.le_trans grows free
  | @rotated body session =>
      cases equal
      rcases session.rotateInvite_spec body with ⟨_, refused⟩ | ⟨_, opened⟩
      · rw [refused]
        exact bounded session rfl
      · rw [opened]
        exact bounded session rfl
  | moved move =>
      cases equal
      exact Nat.le_trans move.guests.activeCount_le (bounded _ rfl)
  | gone => cases equal

theorem capacity_run (config : BrokerConfig) (inputs : List Input) :
    Capacity ((machine foreign).run (Broker.new config) inputs) := by
  apply (machine foreign).run_invariant Capacity
  · intro broker input capacity id
    exact (step_change broker input id).capacity (capacity id)
  · intro id session found
    simp [Broker.new] at found

/-! ## The throttle -/

/-- The lock of a session lasts at least until a moment. -/
def LockedUntil (moment : Instant) (session : SessionRecord) : Prop :=
  ∃ until_, session.joinLockedUntil = some until_ ∧ moment ≤ until_

/-- A passphrase verification that started at a moment still holds its session back. -/
def HeldBack (id : ShareSessionId) (started : Instant) (broker : Broker) : Prop :=
  started ≤ broker.now ∧ ∀ session, broker.sessions.find id = some session →
    LockedUntil (started + seconds 1) session

/-- A join succeeds, the invite is rotated, or another session takes the identifier. -/
def Resets (id : ShareSessionId) : Input → Observation → Prop
  | .finish .., .joined joined _ (.ok _) => joined = id
  | .rotate rotated _, .decided (.ok ()) => rotated = id
  | .create .., .created (.ok (created, _)) => created = id
  | _, _ => False

theorem registerFailedJoinAttempt_lock (session : SessionRecord) (now : Instant) :
    ∃ until_, (session.registerFailedJoinAttempt now).joinLockedUntil = some until_ ∧
      now + seconds 1 ≤ until_ := by
  refine ⟨_, rfl, ?_⟩
  have delay : ∀ shift : Nat, 1 ≤ min (2 ^ shift) joinBackoffMaxSecs := by
    intro shift
    have positive : 1 ≤ 2 ^ shift := Nat.one_le_two_pow
    exact Nat.le_min.mpr ⟨positive, by decide⟩
  exact Nat.add_le_add_left (Nat.mul_le_mul_right _ (delay _)) now

theorem receive_now {broker : Broker} (connection : Uuid) (message : ClientMessage) :
    (broker.receiveMessage foreign connection message).nextState.now = broker.now := by
  unfold receiveMessage
  split
  · next sessionId auth task =>
      have marked := (markActivity_tasks broker sessionId auth connection).now
      simp only
      repeat' split
      all_goals exact marked
  · rfl

theorem now_le_next (broker : Broker) (input : Input) :
    broker.now ≤ ((machine foreign).next broker input).now := by
  cases input
  case tick elapsed => exact Nat.le_add_right _ _
  case cleanup lag => exact Nat.le_of_eq (cleanup_tasks broker _).now.symm
  case receive connection message => exact Nat.le_of_eq (receive_now connection message).symm
  all_goals
    apply Nat.le_of_eq
    simp only [Machine.next, machine, step, createShareSession, joinShareSession, verifyJoin,
      finishJoin, cancelJoin, decide, endShareSession, streamSession, registerSocket, greetSocket,
      relayPayload, loseSocket, disconnectSocket, drainChannel]
    repeat' split
    all_goals rfl

theorem SessionChange.lockedUntil {broker : Broker} {id : ShareSessionId} {input : Input}
    {observation : Observation} {before after : Option SessionRecord} {started : Instant}
    (change : SessionChange broker id input observation before after)
    (past : started ≤ broker.now) (lasting : ¬ Resets id input observation)
    (locked : ∀ session, before = some session → LockedUntil (started + seconds 1) session) :
    ∀ session, after = some session → LockedUntil (started + seconds 1) session := by
  have later : ∀ {until_ : Instant}, broker.now + seconds 1 ≤ until_ →
      started + seconds 1 ≤ until_ :=
    fun beyond => Nat.le_trans (Nat.add_le_add_right past _) beyond
  have failed : ∀ session : SessionRecord,
      LockedUntil (started + seconds 1) (session.registerFailedJoinAttempt broker.now) := by
    intro session
    obtain ⟨until_, stored, beyond⟩ := registerFailedJoinAttempt_lock session broker.now
    exact ⟨until_, stored, later beyond⟩
  intro result equal
  cases change with
  | kept quiet => exact locked result equal
  | created => exact absurd rfl lasting
  | @prepared key request body utcNow session sanitized =>
      cases equal
      rcases session.prepareJoin_spec body broker.now utcNow broker.verificationSlots with
        ⟨_, same, _⟩ | ⟨_, refused⟩ | ⟨_, reserved⟩
      · rw [same]
        exact locked session rfl
      · rw [refused]
        exact failed session
      · rw [reserved]
        exact ⟨_, rfl, later (Nat.le_refl _)⟩
  | @finished key draw utcNow body hash verified session task =>
      cases equal
      rcases session.finishJoin_spec body hash verified draw broker.now utcNow with
        ⟨_, same⟩ | ⟨_, refused⟩ | ⟨_, _, _, answer, _⟩
      · rw [same]
        exact locked session rfl
      · rw [refused]
        exact failed session
      · rw [answer] at lasting
        exact absurd rfl lasting
  | @rotated body session =>
      cases equal
      rcases session.rotateInvite_spec body with ⟨_, refused⟩ | ⟨_, opened⟩
      · rw [refused]
        exact locked session rfl
      · rw [opened] at lasting
        exact absurd rfl lasting
  | @moved input observation session changed move =>
      cases equal
      obtain ⟨until_, stored, beyond⟩ := locked session rfl
      exact ⟨until_, move.policy.joinLockedUntil.trans stored, beyond⟩
  | gone => cases equal

theorem HeldBack.next {broker : Broker} {id : ShareSessionId} {started : Instant} {input : Input}
    (held : HeldBack id started broker)
    (lasting : ¬ Resets id input ((machine foreign).observe broker input)) :
    HeldBack id started ((machine foreign).next broker input) :=
  ⟨Nat.le_trans held.1 (now_le_next broker input),
    (step_change broker input id).lockedUntil held.1 lasting held.2⟩

theorem verification_starts {broker : Broker} {id : ShareSessionId} {key : Nat}
    {request : JoinShareSessionRequest} {utcNow : DateTime}
    (starts : (machine foreign).observe broker (.join key id request utcNow) =
      .prepared (.ok true)) :
    (∃ session, broker.sessions.find id = some session ∧
      ∀ until_, session.joinLockedUntil = some until_ → until_ ≤ broker.now) ∧
    HeldBack id broker.now ((machine foreign).next broker (.join key id request utcNow)) := by
  have step := @step_session foreign broker (.join key id request utcNow) id
  have past := @now_le_next foreign broker (.join key id request utcNow)
  refine And.imp_right (fun locked => ⟨past, locked⟩) ?_
  revert step starts
  generalize (machine foreign).observe broker (.join key id request utcNow) = observation
  generalize broker.sessions.find id = before
  generalize ((machine foreign).next broker (.join key id request utcNow)).sessions.find id =
    after
  intro starts step
  cases step with
  | kept quiet =>
      rw [starts] at quiet
      exact absurd rfl quiet
  | @prepared key request body utcNow session sanitized =>
      rcases session.prepareJoin_spec body broker.now utcNow broker.verificationSlots with
        ⟨_, same, refused⟩ | ⟨_, refused⟩ | ⟨unlocked, reserved⟩
      · rw [same] at starts
        exact absurd (by simpa using starts) refused
      · rw [refused] at starts
        cases starts
      · refine ⟨⟨session, rfl, unlocked⟩, ?_⟩
        intro after equal
        cases equal
        rw [reserved]
        exact ⟨_, rfl, Nat.le_refl _⟩

theorem verifications_apart {first : Broker} {id : ShareSessionId} {key : Nat}
    {request : JoinShareSessionRequest} {utcNow : DateTime} {between : List Input}
    {laterKey : Nat} {laterRequest : JoinShareSessionRequest} {laterUtc : DateTime}
    (starts : (machine foreign).observe first (.join key id request utcNow) =
      .prepared (.ok true))
    (lasting : ∀ state input,
      (state, input) ∈ (machine foreign).trace
        ((machine foreign).next first (.join key id request utcNow)) between →
      ¬ Resets id input ((machine foreign).observe state input))
    (again : (machine foreign).observe
      ((machine foreign).run ((machine foreign).next first (.join key id request utcNow)) between)
      (.join laterKey id laterRequest laterUtc) = .prepared (.ok true)) :
    first.now + seconds 1 ≤ ((machine foreign).run
      ((machine foreign).next first (.join key id request utcNow)) between).now := by
  have held := (machine foreign).run_invariant_of_trace (HeldBack id first.now)
    (fun state input => ¬ Resets id input ((machine foreign).observe state input))
    (fun _ _ lasting held => held.next lasting) (verification_starts starts).2 between lasting
  obtain ⟨⟨session, found, unlocked⟩, _⟩ := verification_starts again
  obtain ⟨until_, locked, beyond⟩ := held.2 session found
  exact Nat.le_trans beyond (unlocked until_ locked)

/-! ## Who is admitted -/

/-- A join counts as verified only when its passphrase matched the hash it was given. -/
def JoinsVerified (foreign : Foreign) (broker : Broker) : Prop :=
  ∀ key task, broker.joins.find key = some task → task.phase = .verified (some true) →
    ∀ hash, task.passphraseHash = some hash →
      ∃ passphrase, task.body.passphrase = some passphrase ∧
        verifyPassphrase foreign hash passphrase = some true

theorem receive_joins {broker : Broker} (connection : Uuid) (message : ClientMessage) :
    (broker.receiveMessage foreign connection message).nextState.joins = broker.joins := by
  unfold receiveMessage
  split
  · next sessionId auth task =>
      have marked := (markActivity_tasks broker sessionId auth connection).joins
      simp only
      repeat' split
      all_goals exact marked
  · rfl

namespace JoinsVerified

variable {broker after : Broker}

theorem of_joins (verified : JoinsVerified foreign broker) (joins : after.joins = broker.joins) :
    JoinsVerified foreign after := by
  intro key task found
  rw [joins] at found
  exact verified key task found

theorem put (verified : JoinsVerified foreign broker) {key : Nat} {changed : JoinTask}
    (joins : after.joins = broker.joins.put key changed)
    (sound : changed.phase = .verified (some true) → ∀ hash, changed.passphraseHash = some hash →
      ∃ passphrase, changed.body.passphrase = some passphrase ∧
        verifyPassphrase foreign hash passphrase = some true) :
    JoinsVerified foreign after := by
  intro other task found
  rw [joins, Table.find_put] at found
  split at found
  · cases found
    exact sound
  · exact verified other task found

theorem remove (verified : JoinsVerified foreign broker) {key : Nat}
    (joins : after.joins = broker.joins.remove key) : JoinsVerified foreign after := by
  intro other task found
  rw [joins, Table.find_remove] at found
  split at found
  · cases found
  · exact verified other task found

theorem join (verified : JoinsVerified foreign broker) (key : Nat) (sessionId : ShareSessionId)
    (request : JoinShareSessionRequest) (utcNow : DateTime) :
    JoinsVerified foreign (broker.joinShareSession key sessionId request utcNow).nextState := by
  rw [joinShareSession]
  split
  · exact verified
  split
  · exact verified
  split
  · exact verified
  simp only
  split
  · exact verified
  · exact verified.put rfl fun unverified => by cases unverified

theorem verify (verified : JoinsVerified foreign broker) (key : Nat) (workerFails : Bool) :
    JoinsVerified foreign (broker.verifyJoin foreign key workerFails).nextState := by
  rw [verifyJoin]
  split
  · exact verified
  next task found =>
    split
    · exact verified
    split
    · next unprotected => exact verified.put rfl fun _ hash stored => by simp_all
    next hash stored =>
      simp only
      split
      · exact verified.remove rfl
      · refine verified.put rfl ?_
        intro answered other same
        have equal : other = hash := by simpa [stored] using same.symm
        subst equal
        simp only [JoinPhase.verified.injEq] at answered
        split at answered
        · cases answered
        · exact Option.bind_eq_some_iff.mp answered

theorem finish (verified : JoinsVerified foreign broker) (key : Nat)
    (draw : SessionRecord.JoinDraw) (utcNow : DateTime) :
    JoinsVerified foreign (broker.finishJoin key draw utcNow).nextState := by
  rw [finishJoin]
  split
  · simp only
    split
    · exact verified.remove rfl
    · split
      · exact verified.remove rfl
      · exact verified.remove rfl
  · exact verified

theorem cancel (verified : JoinsVerified foreign broker) (key : Nat) :
    JoinsVerified foreign (broker.cancelJoin key).nextState := by
  rw [cancelJoin]
  split
  · exact verified
  next task found =>
    split
    · exact verified.put rfl (verified key task found)
    · exact verified.remove rfl

theorem next (verified : JoinsVerified foreign broker) (input : Input) :
    JoinsVerified foreign ((machine foreign).next broker input) := by
  cases input
  case join key sessionId body utcNow => exact verified.join key sessionId body utcNow
  case verify key workerFails => exact verified.verify key workerFails
  case finish key draw utcNow => exact verified.finish key draw utcNow
  case cancel key => exact verified.cancel key
  case cleanup lag => exact verified.of_joins (cleanup_tasks broker _).joins
  case receive connection message =>
    exact verified.of_joins (receive_joins connection message)
  all_goals
    apply verified.of_joins
    simp only [Machine.next, machine, step, createShareSession, decide, endShareSession,
      streamSession, registerSocket, greetSocket, relayPayload, loseSocket, disconnectSocket,
      drainChannel]
    repeat' split
    all_goals rfl

end JoinsVerified

theorem joinsVerified_run (config : BrokerConfig) (inputs : List Input) :
    JoinsVerified foreign ((machine foreign).run (Broker.new config) inputs) := by
  apply (machine foreign).run_invariant (JoinsVerified foreign)
  · exact fun _ input verified => verified.next input
  · intro key task found
    simp [Broker.new] at found

/-- No join draws the identifier of a guest. -/
def Undrawn (guest : GuestId) (inputs : List Input) : Prop :=
  ∀ key draw utcNow, .finish key draw utcNow ∈ inputs → draw.guestId ≠ guest

theorem undrawn_cons {guest : GuestId} {input : Input} {inputs : List Input} :
    Undrawn guest (input :: inputs) ↔ Undrawn guest [input] ∧ Undrawn guest inputs := by
  constructor
  · intro undrawn
    refine ⟨?_, ?_⟩
    · intro key draw utcNow member
      exact undrawn key draw utcNow (List.mem_cons.mpr (.inl (List.mem_singleton.mp member)))
    · intro key draw utcNow member
      exact undrawn key draw utcNow (List.mem_cons_of_mem _ member)
  · intro ⟨first, others⟩ key draw utcNow member
    rcases List.mem_cons.mp member with equal | later
    · exact first key draw utcNow (List.mem_singleton.mpr equal)
    · exact others key draw utcNow later

/-- The moment of an admission: the join presents the current invite, which has not
expired, and its passphrase matches the hash of the session. -/
def Admits (foreign : Foreign) (broker : Broker) (id : ShareSessionId) (guest : GuestId)
    (input : Input) : Prop :=
  ∃ key draw utcNow body session,
    input = .finish key draw utcNow ∧ draw.guestId = guest ∧
      broker.joins.find key =
        some ⟨id, body, session.passphraseHash, .verified (some true), false⟩ ∧
      broker.sessions.find id = some session ∧
      session.inviteSecret = body.inviteSecret ∧
      (∀ expires, session.inviteExpiresAt = some expires → utcNow < expires) ∧
      ∀ hash, session.passphraseHash = some hash →
        ∃ passphrase, body.passphrase = some passphrase ∧
          verifyPassphrase foreign hash passphrase = some true

theorem SessionChange.inserted {broker : Broker} {id : ShareSessionId} {input : Input}
    {observation : Observation} {before : Option SessionRecord} {after : SessionRecord}
    {guest : GuestId} {record : GuestRecord}
    (change : SessionChange broker id input observation before (some after))
    (absent : ∀ session, before = some session → session.guests.find guest = none)
    (present : after.guests.find guest = some record) :
    ∃ key draw utcNow body session,
      input = .finish key draw utcNow ∧ draw.guestId = guest ∧
        broker.joins.find key =
          some ⟨id, body, session.passphraseHash, .verified (some true), false⟩ ∧
        before = some session ∧ session.validateJoinAccess body utcNow = .ok () := by
  have stays : ∀ session : SessionRecord, before = some session →
      session.guests.find guest ≠ some record := by
    intro session equal found
    rw [absent session equal] at found
    cases found
  cases change with
  | kept quiet => exact absurd present (stays after rfl)
  | created => cases present
  | @prepared key request body utcNow session sanitized =>
      rcases session.prepareJoin_spec body broker.now utcNow broker.verificationSlots with
        ⟨_, same, _⟩ | ⟨_, failed⟩ | ⟨_, reserved⟩
      · rw [same] at present
        exact absurd present (stays session rfl)
      · rw [failed] at present
        exact absurd present (stays session rfl)
      · rw [reserved] at present
        exact absurd present (stays session rfl)
  | @finished key draw utcNow body hash verified session task =>
      rcases session.finishJoin_spec body hash verified draw broker.now utcNow with
        ⟨_, same⟩ | ⟨_, failed⟩ | ⟨valid, rfl, rfl, _, admitted⟩
      · rw [same] at present
        exact absurd present (stays session rfl)
      · rw [failed] at present
        exact absurd present (stays session rfl)
      · rw [admitted] at present
        have drawn : draw.guestId = guest := by
          by_contra different
          have old : session.guests.find guest = some record := by
            rw [← Table.find_put_of_ne session.guests _ (Ne.symm different)]
            exact present
          exact stays session rfl old
        exact ⟨key, draw, utcNow, body, session, rfl, drawn, task, rfl, valid⟩
  | @rotated body session =>
      rcases session.rotateInvite_spec body with ⟨_, refused⟩ | ⟨_, opened⟩
      · rw [refused] at present
        exact absurd present (stays session rfl)
      · rw [opened] at present
        exact absurd present (stays session rfl)
  | @moved input observation session after move =>
      obtain ⟨old, found⟩ := move.guests.find_eq_some present
      rw [absent session rfl] at found
      cases found

theorem JoinsVerified.insertion {broker : Broker} (verified : JoinsVerified foreign broker)
    {input : Input} {id : ShareSessionId} {guest : GuestId} {after : SessionRecord}
    {record : GuestRecord}
    (stored : ((machine foreign).next broker input).sessions.find id = some after)
    (present : after.guests.find guest = some record)
    (absent : ∀ session, broker.sessions.find id = some session →
      session.guests.find guest = none) :
    Admits foreign broker id guest input := by
  have change := @step_change foreign broker input id
  rw [stored] at change
  obtain ⟨key, draw, utcNow, body, session, rfl, drawn, task, found, valid⟩ :=
    change.inserted absent present
  obtain ⟨unexpired, secret, _⟩ := SessionRecord.validateJoinAccess_eq_ok.mp valid
  exact ⟨key, draw, utcNow, body, session, rfl, drawn, task, found, secret, unexpired,
    verified key _ task rfl⟩

theorem JoinsVerified.joined {broker : Broker} (verified : JoinsVerified foreign broker)
    {key : Nat} {draw : SessionRecord.JoinDraw} {utcNow : DateTime} {id : ShareSessionId}
    {deviceId : String} {response : JoinShareSessionResponse}
    (succeeds : (machine foreign).observe broker (.finish key draw utcNow) =
      .joined id deviceId (.ok response)) :
    Admits foreign broker id response.guestId (.finish key draw utcNow) := by
  have step := @step_session foreign broker (.finish key draw utcNow) id
  revert step succeeds
  generalize (machine foreign).observe broker (.finish key draw utcNow) = observation
  generalize found : broker.sessions.find id = before
  generalize ((machine foreign).next broker (.finish key draw utcNow)).sessions.find id = after
  intro succeeds step
  cases step with
  | kept quiet =>
      rw [succeeds] at quiet
      exact absurd rfl quiet
  | @finished _ _ _ body hash proof session task =>
      rcases session.finishJoin_spec body hash proof draw broker.now utcNow with
        ⟨_, refused⟩ | ⟨_, refused⟩ | ⟨valid, rfl, rfl, answer, _⟩
      · rw [refused] at succeeds
        cases succeeds
      · rw [refused] at succeeds
        cases succeeds
      · rw [answer] at succeeds
        simp only [Observation.joined.injEq, Except.ok.injEq] at succeeds
        obtain ⟨unexpired, secret, _⟩ := SessionRecord.validateJoinAccess_eq_ok.mp valid
        exact ⟨key, draw, utcNow, body, session, rfl, congrArg (·.guestId) succeeds.2.2, task,
          found, secret, unexpired, verified key _ task rfl⟩

/-- In every interleaving: a session never holds more active guests than the limit; a
guest is inserted only by an admission; and two passphrase verifications of a session
start a second apart unless a join succeeded or the invite was rotated in between. -/
theorem admission_under_races (foreign : Foreign) (config : BrokerConfig) (inputs : List Input) :
    (∀ id session,
      ((machine foreign).run (Broker.new config) inputs).sessions.find id = some session →
        session.activeGuestCount ≤ participantLimit) ∧
    (∀ input id guest after record,
      ((machine foreign).next ((machine foreign).run (Broker.new config) inputs)
        input).sessions.find id = some after →
      after.guests.find guest = some record →
      (∀ session,
        ((machine foreign).run (Broker.new config) inputs).sessions.find id = some session →
          session.guests.find guest = none) →
      Admits foreign ((machine foreign).run (Broker.new config) inputs) id guest input) ∧
    (∀ key draw utcNow id deviceId response,
      (machine foreign).observe ((machine foreign).run (Broker.new config) inputs)
        (.finish key draw utcNow) = .joined id deviceId (.ok response) →
      Admits foreign ((machine foreign).run (Broker.new config) inputs) id response.guestId
        (.finish key draw utcNow)) ∧
    ∀ id key request utcNow between laterKey laterRequest laterUtc,
      (machine foreign).observe ((machine foreign).run (Broker.new config) inputs)
        (.join key id request utcNow) = .prepared (.ok true) →
      (∀ state input,
        (state, input) ∈ (machine foreign).trace
          ((machine foreign).run (Broker.new config) (inputs ++ [.join key id request utcNow]))
          between →
        ¬ Resets id input ((machine foreign).observe state input)) →
      (machine foreign).observe
        ((machine foreign).run (Broker.new config)
          (inputs ++ [.join key id request utcNow] ++ between))
        (.join laterKey id laterRequest laterUtc) = .prepared (.ok true) →
      ((machine foreign).run (Broker.new config) inputs).now + seconds 1 ≤
        ((machine foreign).run (Broker.new config)
          (inputs ++ [.join key id request utcNow] ++ between)).now := by
  refine ⟨capacity_run config inputs, ?_, ?_, ?_⟩
  · intro input id guest after record stored present absent
    exact (joinsVerified_run config inputs).insertion stored present absent
  · intro key draw utcNow id deviceId response succeeds
    exact (joinsVerified_run config inputs).joined succeeds
  · intro id key request utcNow between laterKey laterRequest laterUtc starts lasting again
    rw [(machine foreign).run_append, (machine foreign).run_append] at again ⊢
    rw [(machine foreign).run_append] at lasting
    exact verifications_apart starts lasting again

end Broker

end TerminalCanvas.Collab
