import TerminalCanvas.Collab.Session

/-! # The roster of a session

What the handlers do to the guests of a session, and what they leave of its invite
and its throttle. -/

namespace TerminalCanvas.Collab

/-- What the connections of a guest change of its record. -/
inductive TransportMove (now : Instant) (guest : GuestRecord) : GuestRecord → Prop
  | connected {connection after} (opens : guest.connect connection now = some after) :
      TransportMove now guest after
  | active {connection} (current : guest.connectionId = some connection) :
      TransportMove now guest { guest with lastSeen := now }
  | left {connection} (current : guest.connectionId = some connection) :
      TransportMove now guest (guest.disconnect now)

/-- The changes of one guest that is already in the roster. -/
inductive GuestMove (now : Instant) (guest : GuestRecord) : GuestRecord → Prop
  | approved (standing : guest.isDenied = false) : GuestMove now guest (guest.approve now)
  | denied : GuestMove now guest (guest.deny now)
  | transport {after} (move : TransportMove now guest after) : GuestMove now guest after

namespace GuestRecord

variable {guest after : GuestRecord} {connection : Uuid} {now : Instant}

@[simp] theorem isDenied_disconnect : (guest.disconnect now).isDenied = guest.isDenied := by
  rw [isDenied, isDenied, disconnect]
  by_cases denied : guest.connectionState = .denied
  · simp [isDenied, denied]
  · cases guest.approved <;> simp [isDenied, denied]

@[simp] theorem isDenied_beat : (guest.beat now).isDenied = guest.isDenied := by
  rw [beat]
  split
  · exact isDenied_disconnect
  · rfl

@[simp] theorem isDenied_approve : (guest.approve now).isDenied = false := rfl

@[simp] theorem isDenied_deny : (guest.deny now).isDenied = true := rfl

theorem connect_eq_some (opens : guest.connect connection now = some after) :
    guest.isDenied = false ∧ after.isDenied = false ∧ after.approved = guest.approved ∧
      after.token = guest.token ∧ after.tx = some connection := by
  rw [connect] at opens
  split at opens
  · cases opens
  · next standing =>
      cases opens
      refine ⟨by simpa using standing, ?_, rfl, rfl, rfl⟩
      cases guest.approved <;> rfl

@[simp] theorem approved_beat : (guest.beat now).approved = guest.approved := by
  rw [beat]
  split <;> rfl

@[simp] theorem token_beat : (guest.beat now).token = guest.token := by
  rw [beat]
  split <;> rfl

end GuestRecord

theorem TransportMove.standing {now : Instant} {guest after : GuestRecord}
    (move : TransportMove now guest after) :
    after.token = guest.token ∧ after.approved = guest.approved ∧
      after.isDenied = guest.isDenied := by
  cases move with
  | connected opens =>
      obtain ⟨before, behind, approved, token, _⟩ := GuestRecord.connect_eq_some opens
      exact ⟨token, approved, behind.trans before.symm⟩
  | active current => exact ⟨rfl, rfl, rfl⟩
  | left current => exact ⟨rfl, rfl, GuestRecord.isDenied_disconnect⟩

theorem GuestMove.isDenied {now : Instant} {guest after : GuestRecord}
    (move : GuestMove now guest after) (denied : guest.isDenied = true) :
    after.isDenied = true := by
  cases move with
  | approved standing =>
      rw [standing] at denied
      cases denied
  | denied => rfl
  | transport move => exact move.standing.2.2.trans denied

section Moves

variable (Move : Instant → GuestRecord → GuestRecord → Prop)

/-- The changes of a roster outside of a join. -/
inductive RosterMove (now : Instant) (guests : Table GuestId GuestRecord) :
    Table GuestId GuestRecord → Prop
  | kept : RosterMove now guests guests
  | moved {id guest after} (found : guests.find id = some guest)
      (move : Move now guest after) : RosterMove now guests (guests.put id after)
  | swept (reading : Instant) (past : reading ≤ now) :
      RosterMove now guests (SessionRecord.sweepGuests guests reading)

/-- The invite, the credentials and the throttle stay as they are. -/
structure SamePolicy (before after : SessionRecord) : Prop where
  inviteSecret : after.inviteSecret = before.inviteSecret
  inviteExpiresAt : after.inviteExpiresAt = before.inviteExpiresAt
  passphraseHash : after.passphraseHash = before.passphraseHash
  hostToken : after.hostToken = before.hostToken
  failedJoinAttempts : after.failedJoinAttempts = before.failedJoinAttempts
  joinLockedUntil : after.joinLockedUntil = before.joinLockedUntil
  trustedDevices : after.trustedDevices = before.trustedDevices

/-- A change of the roster that leaves the policy alone. -/
structure SessionMove (now : Instant) (before after : SessionRecord) : Prop where
  policy : SamePolicy before after
  guests : RosterMove Move now before.guests after.guests

end Moves

theorem SamePolicy.refl (session : SessionRecord) : SamePolicy session session :=
  ⟨rfl, rfl, rfl, rfl, rfl, rfl, rfl⟩

section

variable {Move : Instant → GuestRecord → GuestRecord → Prop} {now : Instant}

theorem SessionMove.refl (session : SessionRecord) : SessionMove Move now session session :=
  ⟨.refl session, .kept⟩

theorem SessionMove.withGuest {session : SessionRecord} {id : GuestId}
    {guest after : GuestRecord} (found : session.guests.find id = some guest)
    (move : Move now guest after) : SessionMove Move now session (session.withGuest id after) :=
  ⟨⟨rfl, rfl, rfl, rfl, rfl, rfl, rfl⟩, .moved found move⟩

theorem RosterMove.ofTransport {guests after : Table GuestId GuestRecord}
    (move : RosterMove TransportMove now guests after) : RosterMove GuestMove now guests after := by
  cases move with
  | kept => exact .kept
  | moved found move => exact .moved found (.transport move)
  | swept reading past => exact .swept reading past

theorem RosterMove.standing {guests after : Table GuestId GuestRecord}
    (move : RosterMove TransportMove now guests after) {id : GuestId} {record : GuestRecord}
    (present : after.find id = some record) :
    ∃ old, guests.find id = some old ∧ record.token = old.token ∧
      record.approved = old.approved ∧ record.isDenied = old.isDenied := by
  cases move with
  | kept => exact ⟨record, present, rfl, rfl, rfl⟩
  | @moved other guest changed found move =>
      rw [Table.find_put] at present
      split at present
      · next same =>
          cases present
          exact ⟨guest, same ▸ found, move.standing⟩
      · exact ⟨record, present, rfl, rfl, rfl⟩
  | swept reading past =>
      rw [SessionRecord.sweepGuests, Table.find_keepRows, Table.find_mapRows] at present
      obtain ⟨mapped, _⟩ := Option.filter_eq_some_iff.mp present
      obtain ⟨old, found, beaten⟩ := Option.map_eq_some_iff.mp mapped
      subst beaten
      exact ⟨old, found, GuestRecord.token_beat, GuestRecord.approved_beat,
        GuestRecord.isDenied_beat⟩

theorem SessionMove.ofTransport {before after : SessionRecord}
    (move : SessionMove TransportMove now before after) : SessionMove GuestMove now before after :=
  ⟨move.policy, move.guests.ofTransport⟩

end

namespace SessionRecord

variable {session : SessionRecord} {now : Instant}

/-! ## Decisions -/

theorem asHost_spec {Answer : Type} {token : String}
    {handler : Except ApiError Answer × SessionRecord × Sends} :
    (∃ error, session.asHost token handler = (.error error, session, [])) ∨
      (session.hostToken = token ∧ session.asHost token handler = handler) := by
  rw [asHost]
  split
  · next opens => exact .inr ⟨constantTimeStrEq_eq_true.mp opens, rfl⟩
  · exact .inl ⟨_, rfl⟩

theorem rotateInvite_spec (session : SessionRecord) (body : RotateInviteRequest) :
    (∃ error, session.rotateInvite body = (.error error, session, [])) ∨
      session.hostToken = body.hostToken ∧
        session.rotateInvite body = (.ok (), { session with
          inviteSecret := body.inviteSecret
          inviteExpiresAt := body.inviteExpiresAt
          failedJoinAttempts := 0
          joinLockedUntil := none }, []) := by
  rw [rotateInvite]
  exact asHost_spec

theorem approveJoin_spec (session : SessionRecord) (body : JoinDecisionRequest) (now : Instant) :
    (∃ error, session.approveJoin body now = (.error error, session, [])) ∨
      session.hostToken = body.hostToken ∧
        ∃ guest, session.guests.find body.guestId = some guest ∧ guest.isDenied = false ∧
          (session.approveJoin body now).1 = .ok () ∧
          (session.approveJoin body now).2.1 =
            session.withGuest body.guestId (guest.approve now) := by
  rw [approveJoin]
  rcases asHost_spec with refused | ⟨token, opened⟩
  · exact .inl refused
  rw [opened]
  split
  · exact .inl ⟨_, rfl⟩
  next guest found =>
    split
    · exact .inl ⟨_, rfl⟩
    next standing => exact .inr ⟨token, guest, found, by simpa using standing, rfl, rfl⟩

theorem denyJoin_spec (session : SessionRecord) (body : JoinDecisionRequest) (now : Instant) :
    (∃ error, session.denyJoin body now = (.error error, session, [])) ∨
      session.hostToken = body.hostToken ∧
        ∃ guest, session.guests.find body.guestId = some guest ∧
          (session.denyJoin body now).1 = .ok () ∧
          (session.denyJoin body now).2.1 =
            session.withGuest body.guestId (guest.deny now) := by
  rw [denyJoin]
  rcases asHost_spec with refused | ⟨token, opened⟩
  · exact .inl refused
  rw [opened]
  split
  · exact .inl ⟨_, rfl⟩
  next guest found => exact .inr ⟨token, guest, found, rfl, rfl⟩

theorem approveJoin_move (session : SessionRecord) (body : JoinDecisionRequest) (now : Instant) :
    SessionMove GuestMove now session (session.approveJoin body now).2.1 := by
  rcases approveJoin_spec session body now with
    ⟨error, refused⟩ | ⟨_, guest, found, standing, _, after⟩
  · rw [refused]
    exact .refl session
  · rw [after]
    exact .withGuest found (.approved standing)

theorem denyJoin_move (session : SessionRecord) (body : JoinDecisionRequest) (now : Instant) :
    SessionMove GuestMove now session (session.denyJoin body now).2.1 := by
  rcases denyJoin_spec session body now with ⟨error, refused⟩ | ⟨_, guest, found, _, after⟩
  · rw [refused]
    exact .refl session
  · rw [after]
    exact .withGuest found .denied

/-! ## Streams and the cleanup -/

theorem registerStream_move {auth : ParticipantId} {connection : Uuid}
    {registered : SessionRecord} {sends : Sends}
    (registers : session.registerStream auth connection now = some (registered, sends)) :
    SessionMove TransportMove now session registered := by
  cases auth with
  | host =>
      cases registers
      exact ⟨⟨rfl, rfl, rfl, rfl, rfl, rfl, rfl⟩, .kept⟩
  | guest id =>
      simp only [registerStream, Option.pure_def, Option.bind_eq_bind,
        Option.bind_eq_some_iff] at registers
      obtain ⟨guest, found, after, opens, equal⟩ := registers
      cases equal
      exact .withGuest found (.connected opens)

theorem markConnectionActivity_move (auth : ParticipantId) (connection : Uuid) :
    SessionMove TransportMove now session (session.markConnectionActivity auth connection now) := by
  cases auth with
  | host =>
      rw [markConnectionActivity]
      split
      · exact ⟨⟨rfl, rfl, rfl, rfl, rfl, rfl, rfl⟩, .kept⟩
      · exact .refl session
  | guest id =>
      rw [markConnectionActivity]
      split
      · exact .refl session
      next guest found =>
        split
        · next current => exact .withGuest found (.active current)
        · exact .refl session

theorem handleDisconnect_move (auth : ParticipantId) (connection : Uuid) :
    SessionMove TransportMove now session (session.handleDisconnect auth connection now).1 := by
  cases auth with
  | host =>
      rw [handleDisconnect]
      split
      · exact .refl session
      · exact ⟨⟨rfl, rfl, rfl, rfl, rfl, rfl, rfl⟩, .kept⟩
  | guest id =>
      rw [handleDisconnect]
      split
      · exact .refl session
      next guest found =>
        split
        · exact .refl session
        next current => exact .withGuest found (.left (of_not_not current))

theorem beatHost_move (session : SessionRecord) (now : Instant) :
    SamePolicy session (session.beatHost now).1 ∧
      (session.beatHost now).1.guests = session.guests := by
  rw [beatHost]
  split
  · simp only
    split <;> exact ⟨⟨rfl, rfl, rfl, rfl, rfl, rfl, rfl⟩, rfl⟩
  · exact ⟨.refl session, rfl⟩

theorem cleanup_guests (session : SessionRecord) (now : Instant) :
    (session.cleanup now).1.guests = sweepGuests session.guests now := by
  simp only [cleanup]
  rw [(beatHost_move session now).2]

theorem cleanup_move (session : SessionRecord) {reading : Instant} (past : reading ≤ now) :
    SessionMove TransportMove now session (session.cleanup reading).1 where
  policy := by
    obtain ⟨secret, expires, hash, token, failed, locked, trusted⟩ :=
      (beatHost_move session reading).1
    exact ⟨secret, expires, hash, token, failed, locked, trusted⟩
  guests := by
    rw [cleanup_guests]
    exact .swept reading past

theorem find_sweepGuests (guests : Table GuestId GuestRecord) (now : Instant) (id : GuestId) :
    (sweepGuests guests now).find id =
      ((guests.find id).map (·.beat now)).filter (·.retained now) := by
  rw [sweepGuests, Table.find_keepRows, Table.find_mapRows]

/-! ## Joins -/

theorem validateJoinAccess_eq_ok {body : JoinShareSessionRequest} {utcNow : DateTime} :
    session.validateJoinAccess body utcNow = .ok () ↔
      (∀ expires, session.inviteExpiresAt = some expires → utcNow < expires) ∧
        session.inviteSecret = body.inviteSecret ∧
        session.activeGuestCount < participantLimit := by
  have current : session.inviteExpiresAt.any (· ≤ utcNow) = false ↔
      ∀ expires, session.inviteExpiresAt = some expires → utcNow < expires := by
    cases session.inviteExpiresAt <;> simp
  rw [← current, validateJoinAccess]
  split
  · next expired => simp [expired]
  next unexpired =>
    split
    · next wrong =>
        have different : session.inviteSecret ≠ body.inviteSecret := by
          intro equal
          rw [constantTimeStrEq_eq_true.mpr equal] at wrong
          cases wrong
        simp [different]
    next right =>
      have equal : session.inviteSecret = body.inviteSecret :=
        constantTimeStrEq_eq_true.mp (by simpa using right)
      split
      · next full => simp [Nat.not_lt.mpr full]
      · next free => simp [unexpired, equal, Nat.lt_of_not_le free]

theorem prepareJoin_spec (session : SessionRecord) (body : JoinShareSessionRequest)
    (now : Instant) (utcNow : DateTime) (slots : Nat) :
    (∃ answer, session.prepareJoin body now utcNow slots = (answer, session, slots) ∧
      answer ≠ .ok true) ∨
    (∃ error, session.prepareJoin body now utcNow slots =
      (.error error, session.registerFailedJoinAttempt now, slots)) ∨
    ((∀ until_, session.joinLockedUntil = some until_ → until_ ≤ now) ∧
      session.prepareJoin body now utcNow slots =
        (.ok true, { session with joinLockedUntil := some (now + seconds 1) }, slots - 1)) := by
  rw [prepareJoin]
  split
  · exact .inl ⟨_, rfl, by simp⟩
  next unlocked =>
    split
    · exact .inl ⟨_, rfl, by simp⟩
    split
    · exact .inl ⟨_, rfl, by simp⟩
    split
    · exact .inr (.inl ⟨_, rfl⟩)
    split
    · exact .inl ⟨_, rfl, by simp⟩
    · refine .inr (.inr ⟨?_, rfl⟩)
      intro until_ locked
      simpa [locked] using unlocked

theorem finishJoin_spec (session : SessionRecord) (body : JoinShareSessionRequest)
    (hash : Option String) (verified : Bool) (draw : JoinDraw) (now : Instant)
    (utcNow : DateTime) :
    (∃ error, session.finishJoin body hash verified draw now utcNow =
      (.error error, session, [])) ∨
    (∃ error, session.finishJoin body hash verified draw now utcNow =
      (.error error, session.registerFailedJoinAttempt now, [])) ∨
    (session.validateJoinAccess body utcNow = .ok () ∧ session.passphraseHash = hash ∧
      verified = true ∧
      (session.finishJoin body hash verified draw now utcNow).1 =
        .ok ⟨draw.guestId, draw.guestToken,
          (session.trustedDevices.find body.deviceId).isSome⟩ ∧
      (session.finishJoin body hash verified draw now utcNow).2.1 =
        session.admitGuest body draw now utcNow) := by
  rw [finishJoin]
  split
  · exact .inl ⟨_, rfl⟩
  next valid =>
    split
    · exact .inl ⟨_, rfl⟩
    next policy =>
      split
      · exact .inr (.inl ⟨_, rfl⟩)
      next proof =>
        exact .inr (.inr ⟨valid, of_not_not policy, by simpa using proof, rfl, rfl⟩)

end SessionRecord

end TerminalCanvas.Collab
