import TerminalCanvas.Collab.Changes
import TerminalCanvas.Collab.Roster

/-! # The queues a session holds

A queue enters the record of a session with a registration only. -/

namespace TerminalCanvas.Collab.Broker

open Execution

/-- The queues a session holds for its parties have a property. -/
structure Tethered (Holds : Uuid → ParticipantId → Prop) (session : SessionRecord) : Prop where
  host : ∀ connection, session.hostTx = some connection → Holds connection .host
  guests : ∀ guest record connection, session.guests.find guest = some record →
    record.tx = some connection → Holds connection (.guest guest)

namespace Tethered

variable {Holds : Uuid → ParticipantId → Prop} {session after : SessionRecord}

theorem of_subset (tethered : Tethered Holds session)
    (host : ∀ connection, after.hostTx = some connection → session.hostTx = some connection)
    (guests : ∀ guest record connection, after.guests.find guest = some record →
      record.tx = some connection →
      ∃ old, session.guests.find guest = some old ∧ old.tx = some connection) :
    Tethered Holds after where
  host := fun connection held => tethered.host connection (host connection held)
  guests := by
    intro guest record connection present held
    obtain ⟨old, found, same⟩ := guests guest record connection present held
    exact tethered.guests guest old connection found same

theorem withGuest (tethered : Tethered Holds session) {guest : GuestId}
    {old changed : GuestRecord} (found : session.guests.find guest = some old)
    (subset : ∀ connection, changed.tx = some connection → old.tx = some connection) :
    Tethered Holds (session.withGuest guest changed) := by
  refine tethered.of_subset (fun _ held => held) ?_
  intro other record connection present held
  rw [SessionRecord.withGuest, Table.find_put] at present
  split at present
  · next same =>
      cases present
      exact ⟨old, same ▸ found, subset connection held⟩
  · exact ⟨record, present, held⟩

theorem register (tethered : Tethered Holds session) {auth : ParticipantId}
    {connection : Uuid} {now : Instant} {sends : Sends}
    (held : Holds connection auth)
    (registers : session.registerStream auth connection now = some (after, sends)) :
    Tethered Holds after := by
  cases auth with
  | host =>
      simp only [SessionRecord.registerStream, Option.some.injEq, Prod.mk.injEq] at registers
      obtain ⟨rfl, _⟩ := registers
      refine ⟨?_, tethered.guests⟩
      intro other open_
      cases open_
      exact held
  | guest guest =>
      simp only [SessionRecord.registerStream, Option.pure_def, Option.bind_eq_bind,
        Option.bind_eq_some_iff] at registers
      obtain ⟨old, found, connected, opens, equal⟩ := registers
      cases equal
      obtain ⟨_, _, _, _, fresh⟩ := GuestRecord.connect_eq_some opens
      refine ⟨tethered.host, ?_⟩
      intro other record queue present open_
      rw [SessionRecord.withGuest, Table.find_put] at present
      split at present
      · next same =>
          subst same
          cases present
          rw [fresh] at open_
          cases open_
          exact held
      · exact tethered.guests other record queue present open_

theorem markActivity (tethered : Tethered Holds session) (auth : ParticipantId)
    (connection : Uuid) (now : Instant) :
    Tethered Holds (session.markConnectionActivity auth connection now) := by
  cases auth with
  | host =>
      rw [SessionRecord.markConnectionActivity]
      split
      · exact ⟨tethered.host, tethered.guests⟩
      · exact tethered
  | guest guest =>
      rw [SessionRecord.markConnectionActivity]
      split
      · exact tethered
      next found =>
        split
        · exact tethered.withGuest found fun _ held => held
        · exact tethered

theorem disconnect (tethered : Tethered Holds session) (auth : ParticipantId)
    (connection : Uuid) (now : Instant) :
    Tethered Holds (session.handleDisconnect auth connection now).1 := by
  cases auth with
  | host =>
      rw [SessionRecord.handleDisconnect]
      split
      · exact tethered
      · exact ⟨(by simp), tethered.guests⟩
  | guest guest =>
      rw [SessionRecord.handleDisconnect]
      split
      · exact tethered
      next found =>
        split
        · exact tethered
        · exact tethered.withGuest found (fun queue held => by cases held)

theorem cleanup (tethered : Tethered Holds session) (now : Instant) :
    Tethered Holds (session.cleanup now).1 := by
  refine tethered.of_subset ?_ ?_
  · intro connection held
    simp only [SessionRecord.cleanup, SessionRecord.beatHost] at held
    repeat' split at held
    · cases held
    · cases held
    · exact held
  · intro guest record connection present held
    rw [SessionRecord.cleanup_guests, SessionRecord.find_sweepGuests] at present
    obtain ⟨mapped, _⟩ := Option.filter_eq_some_iff.mp present
    obtain ⟨old, found, rfl⟩ := Option.map_eq_some_iff.mp mapped
    refine ⟨old, found, ?_⟩
    rw [GuestRecord.beat] at held
    split at held
    · cases held
    · exact held

theorem mono (tethered : Tethered Holds session) {Weaker : Uuid → ParticipantId → Prop}
    (weaker : ∀ connection party, Holds connection party → Weaker connection party) :
    Tethered Weaker session where
  host := fun connection held => weaker _ _ (tethered.host connection held)
  guests := fun guest record connection present held =>
    weaker _ _ (tethered.guests guest record connection present held)

end Tethered

theorem SessionStep.tethered {broker : Broker} {id : ShareSessionId} {input : Input}
    {observation : Observation} {before after : Option SessionRecord}
    {Holds : Uuid → ParticipantId → Prop}
    (step : SessionStep broker id input observation before after)
    (registers : ∀ connection auth, input = .register connection →
      broker.connections.find connection = some ⟨id, auth, .upgrading⟩ → Holds connection auth)
    (tethered : ∀ session, before = some session → Tethered Holds session) :
    ∀ session, after = some session → Tethered Holds session := by
  intro result equal
  cases step with
  | kept quiet => exact tethered result equal
  | created =>
      cases equal
      refine ⟨nofun, ?_⟩
      intro guest record connection present
      simp [newSession] at present
  | @prepared key request body utcNow session sanitized =>
      cases equal
      have old := tethered session rfl
      rcases session.prepareJoin_spec body broker.now utcNow broker.verificationSlots with
        ⟨_, same, _⟩ | ⟨_, failed⟩ | ⟨_, reserved⟩
      · rw [same]
        exact old
      · rw [failed]
        exact ⟨old.host, old.guests⟩
      · rw [reserved]
        exact ⟨old.host, old.guests⟩
  | @finished key draw utcNow body hash verified session task =>
      cases equal
      have old := tethered session rfl
      rcases session.finishJoin_spec body hash verified draw broker.now utcNow with
        ⟨_, same⟩ | ⟨_, failed⟩ | ⟨_, _, _, _, admitted⟩
      · rw [same]
        exact old
      · rw [failed]
        exact ⟨old.host, old.guests⟩
      · rw [admitted]
        refine old.of_subset (fun _ held => held) ?_
        intro guest record connection present held
        simp only [SessionRecord.admitGuest, Table.find_put] at present
        split at present
        · cases present
          cases held
        · exact ⟨record, present, held⟩
  | @rotated body session =>
      cases equal
      have old := tethered session rfl
      rcases session.rotateInvite_spec body with ⟨_, refused⟩ | ⟨_, opened⟩
      · rw [refused]
        exact old
      · rw [opened]
        exact ⟨old.host, old.guests⟩
  | @approved body session =>
      cases equal
      have old := tethered session rfl
      rcases session.approveJoin_spec body broker.now with
        ⟨_, refused⟩ | ⟨_, guest, found, _, _, decided⟩
      · rw [refused]
        exact old
      · rw [decided]
        exact old.withGuest found fun _ held => held
  | @denied body session =>
      cases equal
      have old := tethered session rfl
      rcases session.denyJoin_spec body broker.now with
        ⟨_, refused⟩ | ⟨_, guest, found, _, decided⟩
      · rw [refused]
        exact old
      · rw [decided]
        exact old.withGuest found fun _ held => held
  | ended => cases equal
  | registered task registered =>
      cases equal
      exact (tethered _ rfl).register (registers _ _ rfl task) registered
  | marked task =>
      cases equal
      exact (tethered _ rfl).markActivity _ _ _
  | disconnected task =>
      cases equal
      exact (tethered _ rfl).disconnect _ _ _
  | swept =>
      split at equal
      · cases equal
      · cases equal
        exact (tethered _ rfl).cleanup _

end TerminalCanvas.Collab.Broker
