import TerminalCanvas.Collab.Admission
import TerminalCanvas.Collab.Streams
import TerminalCanvas.Collab.Tethers

/-! # Seats of guests without a connection

Which clock reading governs the expiry of a guest follows from its state. -/

namespace TerminalCanvas.Collab

open Execution

/-! ## One guest -/

/-- What a step makes of a guest outside of a join. -/
inductive GuestChange (now : Instant) (guest : GuestRecord) : GuestRecord → Prop
  | same : GuestChange now guest guest
  | moved {after} (move : GuestMove now guest after) : GuestChange now guest after
  | beaten (reading : Instant) (past : reading ≤ now) : GuestChange now guest (guest.beat reading)

theorem RosterMove.guest {now : Instant} {guests after : Table GuestId GuestRecord}
    (move : RosterMove GuestMove now guests after) {id : GuestId} {record : GuestRecord}
    (present : after.find id = some record) :
    ∃ old, guests.find id = some old ∧ GuestChange now old record := by
  cases move with
  | kept => exact ⟨record, present, .same⟩
  | @moved other guest changed found move =>
      rw [Table.find_put] at present
      split at present
      · next same =>
          cases present
          exact ⟨guest, same ▸ found, .moved move⟩
      · exact ⟨record, present, .same⟩
  | swept reading past =>
      rw [SessionRecord.find_sweepGuests] at present
      obtain ⟨mapped, _⟩ := Option.filter_eq_some_iff.mp present
      obtain ⟨old, found, rfl⟩ := Option.map_eq_some_iff.mp mapped
      exact ⟨old, found, .beaten reading past⟩

namespace GuestRecord

variable {guest after : GuestRecord} {now moment : Instant}

/-- The clock readings of a guest are past, and its state agrees with its queue. -/
structure Consistent (now : Instant) (guest : GuestRecord) : Prop where
  seen : guest.lastSeen ≤ now
  connection : guest.connectionId = guest.tx
  connected : guest.connectionState = .connected → guest.tx.isSome = true
  disconnected : guest.connectionState = .disconnected →
    ∃ at_, guest.disconnectedAt = some at_ ∧ at_ ≤ now

theorem Consistent.later (consistent : Consistent now guest) {next : Instant} (past : now ≤ next) :
    Consistent next guest where
  seen := Nat.le_trans consistent.seen past
  connection := consistent.connection
  connected := consistent.connected
  disconnected := by
    intro state
    obtain ⟨at_, stored, before⟩ := consistent.disconnected state
    exact ⟨at_, stored, Nat.le_trans before past⟩

theorem Consistent.disconnect (consistent : Consistent now guest) {reading : Instant}
    (past : reading ≤ now) : Consistent now (guest.disconnect reading) where
  seen := consistent.seen
  connection := rfl
  connected := by
    intro state
    simp only [GuestRecord.disconnect] at state
    repeat' split at state
    all_goals cases state
  disconnected := fun _ => ⟨reading, rfl, past⟩

theorem Consistent.beat (consistent : Consistent now guest) {reading : Instant}
    (past : reading ≤ now) : Consistent now (guest.beat reading) := by
  rw [GuestRecord.beat]
  split
  · exact consistent.disconnect past
  · exact consistent

theorem Consistent.change (consistent : Consistent now guest)
    (change : GuestChange now guest after) :
    Consistent now after := by
  cases change with
  | same => exact consistent
  | beaten reading past => exact consistent.beat past
  | moved move =>
      cases move with
      | approved standing => exact ⟨Nat.le_refl _, consistent.connection, nofun, nofun⟩
      | denied => exact ⟨consistent.seen, consistent.connection, nofun, nofun⟩
      | transport move =>
          cases move with
          | left current => exact consistent.disconnect (Nat.le_refl _)
          | active current =>
              exact ⟨Nat.le_refl _, consistent.connection, consistent.connected,
                consistent.disconnected⟩
          | connected opens =>
              rw [connect] at opens
              split at opens
              · cases opens
              · cases opens
                refine ⟨Nat.le_refl _, rfl, fun _ => rfl, ?_⟩
                intro state
                simp only at state
                split at state <;> cases state

/-- Without a connection since a moment, as its state tells. -/
inductive VacantSince (moment : Instant) (guest : GuestRecord) : Prop
  | denied (state : guest.connectionState = .denied)
  | approved (state : guest.connectionState = .approved)
  | pending (state : guest.connectionState = .pending) (seen : guest.lastSeen ≤ moment)
  | disconnected (state : guest.connectionState = .disconnected) {at_ : Instant}
      (stored : guest.disconnectedAt = some at_) (past : at_ ≤ moment)

theorem Consistent.vacant (consistent : Consistent now guest) (closed : guest.tx = none) :
    VacantSince now guest := by
  cases state : guest.connectionState with
  | pending => exact .pending state consistent.seen
  | approved => exact .approved state
  | denied => exact .denied state
  | connected =>
      have held := consistent.connected state
      rw [closed] at held
      cases held
  | disconnected =>
      obtain ⟨at_, stored, past⟩ := consistent.disconnected state
      exact .disconnected state stored past

theorem beat_of_closed (closed : guest.tx = none) : guest.beat now = guest := by
  rw [beat, closed]
  rfl

theorem VacantSince.change (vacant : VacantSince moment guest)
    (change : GuestChange now guest after) (connection : guest.connectionId = guest.tx)
    (closed : guest.tx = none) (stays : after.tx = none) : VacantSince moment after := by
  cases change with
  | same => exact vacant
  | beaten reading past =>
      rw [beat_of_closed closed]
      exact vacant
  | moved move =>
      cases move with
      | approved standing => exact .approved rfl
      | denied => exact .denied rfl
      | transport move =>
          cases move with
          | connected opens =>
              rw [(connect_eq_some opens).2.2.2.2] at stays
              cases stays
          | active current =>
              rw [connection, closed] at current
              cases current
          | left current =>
              rw [connection, closed] at current
              cases current

theorem overdue {reading start limit current : Nat} (past : reading ≤ start)
    (idle : start + limit < current) : limit + reading < current := by
  omega

theorem VacantSince.retained (vacant : VacantSince moment guest) (closed : guest.tx = none)
    (standing : guest.isDenied = false)
    (idle : moment + max pendingJoinTtl guestReconnectGrace < now) :
    guest.retained now = true ↔ guest.connectionState = .approved := by
  have ttl : moment + pendingJoinTtl < now :=
    Nat.lt_of_le_of_lt (Nat.add_le_add_left (Nat.le_max_left _ _) _) idle
  have grace : moment + guestReconnectGrace < now :=
    Nat.lt_of_le_of_lt (Nat.add_le_add_left (Nat.le_max_right _ _) _) idle
  cases vacant with
  | denied state =>
      rw [isDenied, state] at standing
      cases standing
  | approved state => simp [GuestRecord.retained, isDenied, state]
  | pending state seen =>
      simpa [GuestRecord.retained, isDenied, state, closed] using overdue seen ttl
  | @disconnected state at_ stored past =>
      simpa [GuestRecord.retained, isDenied, state, closed, stored] using overdue past grace

end GuestRecord

namespace Broker

variable {foreign : Foreign}

/-! ## One session -/

theorem SessionChange.guest {broker : Broker} {id : ShareSessionId} {input : Input}
    {observation : Observation} {before behind : Option SessionRecord} {after : SessionRecord}
    {guest : GuestId} {record : GuestRecord}
    (change : SessionChange broker id input observation before behind)
    (stored : behind = some after) (present : after.guests.find guest = some record) :
    (∃ session old, before = some session ∧ session.guests.find guest = some old ∧
      GuestChange broker.now old record) ∨
    ∃ key draw utcNow body approved, input = .finish key draw utcNow ∧ draw.guestId = guest ∧
      record = SessionRecord.admittedGuest body draw.guestToken approved broker.now utcNow := by
  cases change with
  | kept quiet => exact .inl ⟨after, record, stored, present, .same⟩
  | created =>
      cases stored
      simp [newSession] at present
  | @prepared key request body utcNow session sanitized =>
      cases stored
      rcases session.prepareJoin_spec body broker.now utcNow broker.verificationSlots with
        ⟨_, same, _⟩ | ⟨_, failed⟩ | ⟨_, reserved⟩
      · rw [same] at present
        exact .inl ⟨session, record, rfl, present, .same⟩
      · rw [failed] at present
        exact .inl ⟨session, record, rfl, present, .same⟩
      · rw [reserved] at present
        exact .inl ⟨session, record, rfl, present, .same⟩
  | @finished key draw utcNow body hash verified session task =>
      cases stored
      rcases session.finishJoin_spec body hash verified draw broker.now utcNow with
        ⟨_, same⟩ | ⟨_, failed⟩ | ⟨_, _, _, _, admitted⟩
      · rw [same] at present
        exact .inl ⟨session, record, rfl, present, .same⟩
      · rw [failed] at present
        exact .inl ⟨session, record, rfl, present, .same⟩
      · rw [admitted] at present
        simp only [SessionRecord.admitGuest, Table.find_put] at present
        split at present
        · next same =>
            cases present
            exact .inr ⟨key, draw, utcNow, body, _, rfl, same.symm, rfl⟩
        · exact .inl ⟨session, record, rfl, present, .same⟩
  | @rotated body session =>
      cases stored
      rcases session.rotateInvite_spec body with ⟨_, refused⟩ | ⟨_, opened⟩
      · rw [refused] at present
        exact .inl ⟨session, record, rfl, present, .same⟩
      · rw [opened] at present
        exact .inl ⟨session, record, rfl, present, .same⟩
  | moved move =>
      cases stored
      obtain ⟨old, found, changed⟩ := move.guests.guest present
      exact .inl ⟨_, old, rfl, found, changed⟩
  | gone => cases stored

/-! ## Every guest of a run -/

def GuestsConsistent (broker : Broker) : Prop :=
  ∀ id session guest record, broker.sessions.find id = some session →
    session.guests.find guest = some record → record.Consistent broker.now

theorem admittedGuest_consistent (body : JoinShareSessionRequest) (token : String)
    (approved : Bool) (now : Instant) (utcNow : DateTime) :
    (SessionRecord.admittedGuest body token approved now utcNow).Consistent now where
  seen := Nat.le_refl _
  connection := rfl
  connected := by cases approved <;> nofun
  disconnected := by cases approved <;> nofun

theorem GuestsConsistent.next {broker : Broker} (consistent : GuestsConsistent broker)
    (input : Input) : GuestsConsistent ((machine foreign).next broker input) := by
  intro id session guest record stored present
  refine GuestRecord.Consistent.later ?_ (@now_le_next foreign broker input)
  rcases (@step_change foreign broker input id).guest stored present with
    ⟨earlier, old, found, listed, change⟩ | ⟨key, draw, utcNow, body, approved, _, _, rfl⟩
  · exact (consistent id earlier guest old found listed).change change
  · exact admittedGuest_consistent body draw.guestToken approved broker.now utcNow

theorem guestsConsistent_run (config : BrokerConfig) (inputs : List Input) :
    GuestsConsistent ((machine foreign).run (Broker.new config) inputs) := by
  apply (machine foreign).run_invariant GuestsConsistent
  · exact fun _ input consistent => consistent.next input
  · intro id session guest record found
    simp [Broker.new] at found

/-! ## Open connections -/

def Opened (broker : Broker) (id : ShareSessionId) (connection : Uuid) (party : ParticipantId) :
    Prop :=
  ∃ phase, broker.connections.find connection = some ⟨id, party, phase⟩ ∧ isOpen phase = true

theorem ConnectionStep.open_ {broker after : Broker} {input : Input} {observation : Observation}
    (step : ConnectionStep foreign broker input observation after.connections)
    {id : ShareSessionId} {connection : Uuid} {party : ParticipantId}
    (opened : Opened broker id connection party) :
    Opened after id connection party ∨ input = .disconnect connection := by
  revert step
  rw [Opened]
  generalize after.connections = connections
  intro step
  obtain ⟨phase, found, open_⟩ := opened
  cases step with
  | kept quiet => exact .inl ⟨phase, found, open_⟩
  | opened absent session proof =>
      rw [Table.find_put]
      split
      · next same =>
          rw [same, absent] at found
          cases found
      · exact .inl ⟨phase, found, open_⟩
  | @moved _ _ other task changed quiet stored valid stays =>
      rw [Table.find_put]
      split
      · next same =>
          rw [same, stored] at found
          cases found
          rcases stays open_ with still | ends
          · exact .inl ⟨changed, rfl, still⟩
          · exact .inr (same ▸ ends)
      · exact .inl ⟨phase, found, open_⟩

theorem disconnect_releases {broker : Broker} (consistent : GuestsConsistent broker)
    {id : ShareSessionId} {connection : Uuid} {guest : GuestId} {session : SessionRecord}
    {record : GuestRecord} (opened : Opened broker id connection (.guest guest))
    (stored : (broker.disconnectSocket connection).nextState.sessions.find id = some session)
    (present : session.guests.find guest = some record) (held : record.tx = some connection) :
    Opened (broker.disconnectSocket connection).nextState id connection (.guest guest) := by
  obtain ⟨phase, task, open_⟩ := opened
  by_cases closing : phase = .closing
  · subst closing
    exfalso
    rw [disconnectSocket, task] at stored
    simp only at stored
    split at stored
    · next missing =>
        rw [moveTo_sessions, missing] at stored
        cases stored
    next earlier found =>
      simp only [moveTo_sessions, sendAll_sessions, store_sessions, Table.find_put_self,
        Option.some.injEq] at stored
      subst stored
      rw [SessionRecord.handleDisconnect] at present
      split at present
      · next missing =>
          rw [missing] at present
          cases present
      next old listed =>
        split at present
        · next other =>
            rw [listed] at present
            cases present
            rw [(consistent id earlier guest record found listed).connection] at other
            exact other held
        · rw [SessionRecord.withGuest, Table.find_put_self] at present
          cases present
          cases held
  · have ignored : broker.disconnectSocket connection = ⟨broker, .silent⟩ := by
      rw [disconnectSocket, task]
      cases phase <;> first | rfl | exact absurd rfl closing
    rw [ignored]
    exact ⟨phase, task, open_⟩

/-- The queue of a guest belongs to an open connection. -/
def QueuesOpen (broker : Broker) : Prop :=
  ∀ id session guest record connection, broker.sessions.find id = some session →
    session.guests.find guest = some record → record.tx = some connection →
    Opened broker id connection (.guest guest)

theorem QueuesOpen.register {broker : Broker} (open_ : QueuesOpen broker) {id : ShareSessionId}
    {connection : Uuid} {guest : GuestId} {session : SessionRecord} {record : GuestRecord}
    (task : broker.connections.find connection = some ⟨id, .guest guest, .upgrading⟩)
    (stored : (broker.registerSocket connection).nextState.sessions.find id = some session)
    (present : session.guests.find guest = some record) (held : record.tx = some connection) :
    Opened (broker.registerSocket connection).nextState id connection (.guest guest) := by
  rw [registerSocket, task] at stored ⊢
  simp only at stored ⊢
  split at stored
  · next missing =>
      rw [moveTo_sessions, missing] at stored
      cases stored
  next earlier found =>
    split at stored
    · rw [moveTo_sessions] at stored
      obtain ⟨phase, other, opened⟩ := open_ id session guest record connection stored present held
      rw [task] at other
      cases other
      cases opened
    · next registered sends registers =>
        exact ⟨.registered, Table.find_put_self _ _ _, rfl⟩

theorem QueuesOpen.next {broker : Broker} (open_ : QueuesOpen broker)
    (consistent : GuestsConsistent broker) (input : Input) :
    QueuesOpen ((machine foreign).next broker input) := by
  intro id session guest record connection stored present held
  -- the queue was open before, or its connection registers now
  have before : Tethered (fun connection party => party = .host ∨
      Opened broker id connection party ∨
      input = .register connection ∧
        broker.connections.find connection = some ⟨id, party, .upgrading⟩) session := by
    refine (@step_session foreign broker input id).tethered ?_ ?_ session stored
    · exact fun connection auth registers task => .inr (.inr ⟨registers, task⟩)
    · intro earlier found
      refine ⟨fun _ _ => .inl rfl, ?_⟩
      exact fun guest record connection listed held =>
        .inr (.inl (open_ id earlier guest record connection found listed held))
  rcases before.guests guest record connection present held with
    never | opened | ⟨registers, task⟩
  · cases never
  · rcases (@step_connections foreign broker input).open_ opened with still | leaves
    · exact still
    · subst leaves
      exact disconnect_releases consistent opened stored present held
  · subst registers
    exact open_.register task stored present held

theorem queuesOpen_run (config : BrokerConfig) (inputs : List Input) :
    QueuesOpen ((machine foreign).run (Broker.new config) inputs) := by
  suffices both : GuestsConsistent ((machine foreign).run (Broker.new config) inputs) ∧
      QueuesOpen ((machine foreign).run (Broker.new config) inputs) from both.2
  apply (machine foreign).run_invariant fun broker => GuestsConsistent broker ∧ QueuesOpen broker
  · exact fun _ input ⟨consistent, open_⟩ => ⟨consistent.next input, open_.next consistent input⟩
  · refine ⟨?_, ?_⟩
    · intro id session guest record found
      simp [Broker.new] at found
    · intro id session guest record connection found
      simp [Broker.new] at found

/-! ## Abandoned seats -/

/-- No connection of a guest is open at any moment of a period. -/
def Unconnected (foreign : Foreign) (start : Broker) (period : List Input)
    (id : ShareSessionId) (guest : GuestId) : Prop :=
  ∀ earlier later, period = earlier ++ later →
    ∀ connection, ¬ Opened ((machine foreign).run start earlier) id connection (.guest guest)

/-- A guest that is listed is without a connection since a moment. -/
def Vacant (broker : Broker) (moment : Instant) (id : ShareSessionId) (guest : GuestId) : Prop :=
  ∀ session record, broker.sessions.find id = some session →
    session.guests.find guest = some record → record.VacantSince moment

theorem closed_of_unopened {broker : Broker} (open_ : QueuesOpen broker) {id : ShareSessionId}
    {guest : GuestId} (unopened : ∀ connection, ¬ Opened broker id connection (.guest guest))
    {session : SessionRecord} {record : GuestRecord}
    (found : broker.sessions.find id = some session)
    (listed : session.guests.find guest = some record) : record.tx = none := by
  cases held : record.tx with
  | none => rfl
  | some connection =>
      exact absurd (open_ id session guest record connection found listed held)
        (unopened connection)

theorem Vacant.run (period : List Input) {broker : Broker} {moment : Instant}
    {id : ShareSessionId} {guest : GuestId} (consistent : GuestsConsistent broker)
    (open_ : QueuesOpen broker) (vacant : Vacant broker moment id guest)
    (undrawn : Undrawn guest period) (unconnected : Unconnected foreign broker period id guest) :
    Vacant ((machine foreign).run broker period) moment id guest := by
  induction period generalizing broker with
  | nil => exact vacant
  | cons input period induction =>
      obtain ⟨first, others⟩ := undrawn_cons.mp undrawn
      have opensNext := @QueuesOpen.next foreign broker open_ consistent input
      have later : Unconnected foreign ((machine foreign).next broker input) period id guest := by
        intro earlier rest split
        exact unconnected (input :: earlier) rest (by rw [split, List.cons_append])
      refine induction (consistent.next input) opensNext ?_ others later
      intro session record stored present
      rcases (@step_change foreign broker input id).guest stored present with
        ⟨earlier, old, found, listed, change⟩ |
          ⟨key, draw, utcNow, body, approved, rfl, drawn, _⟩
      · have closed := closed_of_unopened open_ (unconnected [] (input :: period) rfl) found listed
        have stays := closed_of_unopened opensNext (later [] period rfl) stored present
        exact (vacant earlier old found listed).change change
          (consistent id earlier guest old found listed).connection closed stays
      · exact absurd drawn (first key draw utcNow (List.mem_singleton.mpr rfl))

theorem cleanup_ends_iff (session : SessionRecord) (now : Instant) :
    (session.cleanup now).2.2 =
      session.hostDisconnectedAt.any fun at_ => hostReconnectGrace < now - at_ := by
  simp only [SessionRecord.cleanup, SessionRecord.beatHost]
  split
  · split
    · next connected =>
        simp only [Option.isNone_iff_eq_none] at connected
        simp [connected]
    · rfl
  · rfl

theorem find_cleanup {broker : Broker} {id : ShareSessionId} {session : SessionRecord}
    (lag : Nat) (found : broker.sessions.find id = some session) :
    ((machine foreign).next broker (.cleanup lag)).sessions.find id =
      if (session.cleanup (broker.now - lag)).2.2 then none
      else some (session.cleanup (broker.now - lag)).1 := by
  simp only [Machine.next, machine, step]
  rw [cleanupExpiredSessions_find, found, Option.bind_some]

theorem cleanup_roster {broker : Broker} {lag : Nat} {id : ShareSessionId}
    {session swept : SessionRecord} (found : broker.sessions.find id = some session)
    (stored : ((machine foreign).next broker (.cleanup lag)).sessions.find id = some swept) :
    swept.guests = SessionRecord.sweepGuests session.guests (broker.now - lag) := by
  rw [find_cleanup lag found] at stored
  split at stored
  · cases stored
  · cases stored
    exact SessionRecord.cleanup_guests _ _

theorem cleanup_seat {broker : Broker} {lag : Nat} {id : ShareSessionId} {guest : GuestId}
    {session : SessionRecord} {record : GuestRecord}
    (found : broker.sessions.find id = some session)
    (listed : session.guests.find guest = some record) (closed : record.tx = none) :
    (∀ swept, ((machine foreign).next broker (.cleanup lag)).sessions.find id = some swept →
      swept.guests.find guest = none) ↔
    record.retained (broker.now - lag) = false ∨
      (session.hostDisconnectedAt.any fun at_ =>
        hostReconnectGrace < broker.now - lag - at_) = true := by
  have seat : (session.cleanup (broker.now - lag)).1.guests.find guest =
      if record.retained (broker.now - lag) then some record else none := by
    rw [SessionRecord.cleanup_guests, SessionRecord.find_sweepGuests, listed, Option.map_some,
      GuestRecord.beat_of_closed closed]
    rfl
  rw [find_cleanup lag found, ← cleanup_ends_iff]
  cases ends : (session.cleanup (broker.now - lag)).2.2 with
  | true => simp
  | false =>
      simp only [Bool.false_eq_true, if_false, Option.some.injEq, forall_eq', seat, or_false]
      cases record.retained (broker.now - lag) <;> simp

theorem unconnected_seat {config : BrokerConfig} {before period : List Input}
    {id : ShareSessionId} {guest : GuestId} {session : SessionRecord} {record : GuestRecord}
    (undrawn : Undrawn guest period)
    (unconnected :
      Unconnected foreign ((machine foreign).run (Broker.new config) before) period id guest)
    (found : ((machine foreign).run (Broker.new config) (before ++ period)).sessions.find id =
      some session)
    (listed : session.guests.find guest = some record) :
    record.tx = none ∧
      record.VacantSince ((machine foreign).run (Broker.new config) before).now := by
  have consistent := @guestsConsistent_run foreign config before
  have opensAtStart := @queuesOpen_run foreign config before
  have opensAtEnd := @queuesOpen_run foreign config (before ++ period)
  rw [(machine foreign).run_append] at found opensAtEnd
  have vacant : Vacant ((machine foreign).run (Broker.new config) before)
      ((machine foreign).run (Broker.new config) before).now id guest := by
    intro earlier old stored present
    exact (consistent id earlier guest old stored present).vacant
      (closed_of_unopened opensAtStart (unconnected [] period rfl) stored present)
  exact ⟨closed_of_unopened opensAtEnd (unconnected period [] (by simp)) found listed,
    Vacant.run period consistent opensAtStart vacant undrawn unconnected session record found
      listed⟩

/-- For every run and every guest without an open connection for longer than both waiting
times: the cleanup at the end frees the seat exactly when the guest is not one that was
approved and has not connected since, unless it ends the session. Where that holds of
every guest, no active guest is left. -/
theorem abandoned_seat_freed_iff (foreign : Foreign) (config : BrokerConfig)
    (before period : List Input) (lag : Nat) (id : ShareSessionId) :
    (∀ guest session record,
      Undrawn guest period →
      Unconnected foreign ((machine foreign).run (Broker.new config) before) period id guest →
      ((machine foreign).run (Broker.new config) before).now +
          max pendingJoinTtl guestReconnectGrace <
        ((machine foreign).run (Broker.new config) (before ++ period)).now - lag →
      ((machine foreign).run (Broker.new config) (before ++ period)).sessions.find id =
        some session →
      session.guests.find guest = some record → record.isDenied = false →
      ((∀ swept,
        ((machine foreign).run (Broker.new config)
          (before ++ period ++ [.cleanup lag])).sessions.find id = some swept →
        swept.guests.find guest = none) ↔
      record.connectionState ≠ .approved ∨
        (session.hostDisconnectedAt.any fun at_ => hostReconnectGrace <
          ((machine foreign).run (Broker.new config) (before ++ period)).now - lag - at_) =
            true)) ∧
    (∀ session swept,
      ((machine foreign).run (Broker.new config) before).now +
          max pendingJoinTtl guestReconnectGrace <
        ((machine foreign).run (Broker.new config) (before ++ period)).now - lag →
      ((machine foreign).run (Broker.new config) (before ++ period)).sessions.find id =
        some session →
      (∀ guest record, session.guests.find guest = some record → record.isDenied = false →
        Undrawn guest period ∧
        Unconnected foreign ((machine foreign).run (Broker.new config) before) period id guest ∧
        record.connectionState ≠ .approved) →
      ((machine foreign).run (Broker.new config)
        (before ++ period ++ [.cleanup lag])).sessions.find id = some swept →
      swept.activeGuestCount = 0) := by
  refine ⟨?_, ?_⟩
  · intro guest session record undrawn unconnected idle found listed standing
    obtain ⟨closed, vacant⟩ := unconnected_seat undrawn unconnected found listed
    rw [(machine foreign).run_append _ (before ++ period), (machine foreign).run_cons,
      (machine foreign).run_nil, cleanup_seat found listed closed]
    have kept := vacant.retained closed standing idle
    rw [← Bool.not_eq_true, kept]
  · intro session swept idle found abandoned stored
    rw [(machine foreign).run_append _ (before ++ period), (machine foreign).run_cons,
      (machine foreign).run_nil] at stored
    rw [SessionRecord.activeGuestCount, Table.countRows, List.countP_eq_zero]
    intro entry member active
    have present := Table.find_eq_some_iff.mpr member
    rw [cleanup_roster found stored, SessionRecord.find_sweepGuests] at present
    obtain ⟨mapped, kept⟩ := Option.filter_eq_some_iff.mp present
    obtain ⟨old, listed, beaten⟩ := Option.map_eq_some_iff.mp mapped
    have standing : old.isDenied = false := by
      rw [← beaten, GuestRecord.isDenied_beat] at active
      simpa using active
    obtain ⟨undrawn, unconnected, unapproved⟩ := abandoned entry.1 old listed standing
    obtain ⟨closed, vacant⟩ := unconnected_seat undrawn unconnected found listed
    rw [← beaten, GuestRecord.beat_of_closed closed] at kept
    exact unapproved ((vacant.retained closed standing idle).mp kept)

/-! ### A trusted guest that never connects -/

namespace ForgottenSeat

def noPassphrases : Foreign := ⟨fun _ => false, fun _ _ => false, fun _ => none⟩

def session : ShareSessionId := ⟨.fromU128 1⟩

def hostConnection : Uuid := .fromU128 2

def guest : GuestId := ⟨.fromU128 3⟩

/-- The host connects, and a trusted device joins. -/
def joining : List Input :=
  [.create (some true) ⟨"invite", none, none, [⟨"laptop", "Ana", 0, 0⟩]⟩ session "host" 0,
    .stream hostConnection session "host" (some .host), .register hostConnection,
    .greet hostConnection, .join 0 session ⟨"Ana", "invite", "laptop", none⟩ 0,
    .verify 0 false, .finish 0 ⟨guest, "guest"⟩ 0]

/-- The host pings and the cleanup runs for 140 seconds. -/
def waiting : List Input :=
  (List.replicate 7
    [.tick (seconds 20), .receive hostConnection (.ping []), .cleanup 0]).flatten

def noGuestConnects (broker : Broker) : Bool :=
  broker.connections.entries.all fun entry => entry.2.auth = .host

theorem unopened {broker : Broker} (none_ : noGuestConnects broker = true) (connection : Uuid) :
    ¬ Opened broker session connection (.guest guest) := by
  intro ⟨phase, found, _⟩
  have host := List.all_eq_true.mp none_ _ (Table.find_eq_some_iff.mp found)
  simp at host

theorem unconnected :
    Unconnected noPassphrases
      ((machine noPassphrases).run (Broker.new ⟨true⟩) joining) waiting session
      guest := by
  intro earlier later split
  have bound : earlier.length < 22 := by
    have lengths := congrArg List.length split
    simp only [waiting, List.length_append] at lengths
    have total : (List.replicate 7 [Input.tick (seconds 20),
      .receive hostConnection (.ping []), .cleanup 0]).flatten.length = 21 := rfl
    omega
  have taken : earlier = waiting.take earlier.length := by
    rw [split, List.take_left']
    rfl
  have all : ∀ count < 22, noGuestConnects ((machine noPassphrases).run
      ((machine noPassphrases).run (Broker.new ⟨true⟩) joining) (waiting.take count)) = true := by
    decide +kernel
  rw [taken]
  exact unopened (all earlier.length bound)

end ForgottenSeat

/-- A trusted guest that never connects keeps its seat at every cleanup. -/
theorem forgotten_seat_kept :
    Undrawn ForgottenSeat.guest ForgottenSeat.waiting ∧
    Unconnected ForgottenSeat.noPassphrases
      ((machine ForgottenSeat.noPassphrases).run (Broker.new ⟨true⟩) ForgottenSeat.joining)
      ForgottenSeat.waiting ForgottenSeat.session ForgottenSeat.guest ∧
    ((machine ForgottenSeat.noPassphrases).run (Broker.new ⟨true⟩) ForgottenSeat.joining).now +
        max pendingJoinTtl guestReconnectGrace <
      ((machine ForgottenSeat.noPassphrases).run (Broker.new ⟨true⟩)
        (ForgottenSeat.joining ++ ForgottenSeat.waiting)).now ∧
    (((machine ForgottenSeat.noPassphrases).run (Broker.new ⟨true⟩)
      (ForgottenSeat.joining ++ ForgottenSeat.waiting ++ [.cleanup 0])).sessions.find
        ForgottenSeat.session).map
          (fun session => (session.guests.find ForgottenSeat.guest).map (·.isDenied)) =
      some (some false) := by
  refine ⟨?_, ForgottenSeat.unconnected, by decide +kernel, by decide +kernel⟩
  intro key draw utcNow member
  simp [ForgottenSeat.waiting] at member

end Broker

end TerminalCanvas.Collab
