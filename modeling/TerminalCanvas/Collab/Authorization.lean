import TerminalCanvas.Collab.Admission
import TerminalCanvas.Collab.Streams
import TerminalCanvas.Collab.Tethers

/-! # Who may relay

An observer of the requests and their answers keeps the credentials that were handed
out and the guests that were approved with them. The broker delivers nothing else. -/

namespace TerminalCanvas.Collab

open Execution

structure SessionPermissions where
  hostToken : Option String
  trusts : String → Bool
  guestToken : GuestId → Option String
  /-- Approved with the host's token or as a trusted device, and not denied since. -/
  granted : GuestId → Bool

structure Permissions where
  sessions : ShareSessionId → SessionPermissions
  /-- Who opened a stream. -/
  streams : Uuid → Option (ShareSessionId × ParticipantId)

namespace SessionPermissions

def nothing : SessionPermissions := ⟨none, fun _ => false, fun _ => none, fun _ => false⟩

def created (body : CreateShareSessionRequest) (hostToken : String) : SessionPermissions where
  hostToken := some hostToken
  trusts := fun device => body.trustedDevices.any (·.deviceId = device)
  guestToken := fun _ => none
  granted := fun _ => false

def joined (permissions : SessionPermissions) (deviceId : String)
    (response : JoinShareSessionResponse) : SessionPermissions :=
  { permissions with
    guestToken := Function.update permissions.guestToken response.guestId
      (some response.guestToken)
    granted := Function.update permissions.granted response.guestId
      (permissions.trusts deviceId) }

def decided (permissions : SessionPermissions) (guest : GuestId) (verdict : Bool) :
    SessionPermissions :=
  { permissions with granted := Function.update permissions.granted guest verdict }

theorem joined_granted (permissions : SessionPermissions) (deviceId : String)
    (response : JoinShareSessionResponse) (guest : GuestId) :
    (permissions.joined deviceId response).granted guest =
      if guest = response.guestId then permissions.trusts deviceId
      else permissions.granted guest :=
  Function.update_apply _ _ _ _

theorem decided_granted (permissions : SessionPermissions) (decided guest : GuestId)
    (verdict : Bool) :
    (permissions.decided decided verdict).granted guest =
      if guest = decided then verdict else permissions.granted guest :=
  Function.update_apply _ _ _ _

/-- A token is the credential of a party. -/
def proves (permissions : SessionPermissions) (token : String) : ParticipantId → Bool
  | .host => permissions.hostToken = some token
  | .guest id => permissions.guestToken id = some token

/-- From whom to whom payloads may go. -/
def Permits (permissions : SessionPermissions) : ParticipantId → ParticipantId → Prop
  | .guest id, .host => permissions.granted id = true
  | .host, .guest id => permissions.granted id = true
  | _, _ => False

end SessionPermissions

namespace Permissions

def nothing : Permissions := ⟨fun _ => .nothing, fun _ => none⟩

def change (seen : Permissions) (id : ShareSessionId) (changed : SessionPermissions) :
    Permissions :=
  { seen with sessions := Function.update seen.sessions id changed }

def watch (seen : Permissions) : Input → Observation → Permissions
  | .create _ body _ _ _, .created (.ok (id, hostToken)) =>
      seen.change id (.created body hostToken)
  | .finish .., .joined id deviceId (.ok response) =>
      seen.change id ((seen.sessions id).joined deviceId response)
  | .approve id body, .decided (.ok ()) =>
      if (seen.sessions id).hostToken = some body.hostToken then
        seen.change id ((seen.sessions id).decided body.guestId true)
      else
        seen
  | .deny id body, .decided (.ok ()) =>
      seen.change id ((seen.sessions id).decided body.guestId false)
  | .stream connection id token _, .authenticated (.ok auth) =>
      if (seen.sessions id).proves token auth then
        { seen with streams := Function.update seen.streams connection (some (id, auth)) }
      else
        seen
  | _, _ => seen

@[simp] theorem change_self (seen : Permissions) (id : ShareSessionId)
    (changed : SessionPermissions) : (seen.change id changed).sessions id = changed :=
  Function.update_self _ _ _

theorem change_of_ne (seen : Permissions) {id other : ShareSessionId}
    (changed : SessionPermissions) (different : id ≠ other) :
    (seen.change other changed).sessions id = seen.sessions id :=
  Function.update_of_ne different _ _

@[simp] theorem change_streams (seen : Permissions) (id : ShareSessionId)
    (changed : SessionPermissions) : (seen.change id changed).streams = seen.streams := rfl

theorem watch_quiet (seen : Permissions) {id : ShareSessionId} {input : Input}
    {observation : Observation} (quiet : ¬ Broker.Concerns id input observation) :
    (seen.watch input observation).sessions id = seen.sessions id := by
  unfold watch
  split
  · exact change_of_ne seen _ (Ne.symm quiet)
  · exact change_of_ne seen _ (Ne.symm quiet)
  · split
    · exact change_of_ne seen _ (Ne.symm quiet)
    · rfl
  · exact change_of_ne seen _ (Ne.symm quiet)
  · split <;> rfl
  · rfl

theorem watch_streams (seen : Permissions) {input : Input} {observation : Observation}
    (quiet : ∀ auth, observation ≠ .authenticated (.ok auth)) :
    (seen.watch input observation).streams = seen.streams := by
  unfold watch
  split
  · rfl
  · rfl
  · split <;> rfl
  · rfl
  · next auth => exact absurd rfl (quiet auth)
  · rfl

end Permissions

namespace Broker

variable {foreign : Foreign}

/-! ## Credentials -/

/-- What a session stores is what was handed out and decided for it. -/
structure Sound (permissions : SessionPermissions) (session : SessionRecord) : Prop where
  hostToken : permissions.hostToken = some session.hostToken
  trusts : ∀ device trusted, session.trustedDevices.find device = some trusted →
    permissions.trusts device = true
  guests : ∀ id guest, session.guests.find id = some guest →
    permissions.guestToken id = some guest.token ∧
      (guest.approved = true → permissions.granted id = true)

theorem find_newSession_trusted {devices : List TrustedDevice} {start : Table String TrustedDevice}
    {device : String} {trusted : TrustedDevice}
    (found : (devices.foldl (fun table device => table.put device.deviceId device) start).find
      device = some trusted) :
    (∃ old, start.find device = some old) ∨ ∃ listed ∈ devices, listed.deviceId = device := by
  induction devices generalizing start with
  | nil => exact .inl ⟨trusted, found⟩
  | cons head devices induction =>
      rcases induction found with ⟨old, present⟩ | ⟨listed, member, equal⟩
      · rw [Table.find_put] at present
        split at present
        · next same => exact .inr ⟨head, by simp, same.symm⟩
        · exact .inl ⟨old, present⟩
      · exact .inr ⟨listed, by simp [member], equal⟩

theorem Sound.created (body : CreateShareSessionRequest) (hostToken : String) (now : Instant) :
    Sound (.created body hostToken) (newSession body hostToken now) where
  hostToken := rfl
  trusts := by
    intro device trusted found
    rcases find_newSession_trusted found with ⟨old, present⟩ | ⟨listed, member, equal⟩
    · simp at present
    · exact List.any_eq_true.mpr ⟨listed, member, by simpa using equal⟩
  guests := by
    intro id guest found
    simp [newSession] at found

namespace Sound

variable {permissions : SessionPermissions} {session after : SessionRecord}

theorem of_fields (sound : Sound permissions session)
    (hostToken : after.hostToken = session.hostToken)
    (trustedDevices : after.trustedDevices = session.trustedDevices)
    (guests : after.guests = session.guests) : Sound permissions after where
  hostToken := by rw [hostToken]; exact sound.hostToken
  trusts := by rw [trustedDevices]; exact sound.trusts
  guests := by rw [guests]; exact sound.guests

theorem transport (sound : Sound permissions session) {now : Instant}
    (move : SessionMove TransportMove now session after) : Sound permissions after where
  hostToken := by rw [move.policy.hostToken]; exact sound.hostToken
  trusts := by rw [move.policy.trustedDevices]; exact sound.trusts
  guests := by
    intro id guest found
    obtain ⟨old, present, token, approved, _⟩ := move.guests.standing found
    rw [token, approved]
    exact sound.guests id old present

theorem decided (sound : Sound permissions session) {id : GuestId} {guest decided : GuestRecord}
    (found : session.guests.find id = some guest) (token : decided.token = guest.token) :
    Sound (permissions.decided id decided.approved) (session.withGuest id decided) where
  hostToken := sound.hostToken
  trusts := sound.trusts
  guests := by
    intro other record present
    rw [SessionRecord.withGuest, Table.find_put] at present
    split at present
    · next same =>
        subst same
        cases present
        refine ⟨?_, ?_⟩
        · rw [token]
          exact (sound.guests _ guest found).1
        · intro approved
          simp [SessionPermissions.decided, approved]
    · next different =>
        obtain ⟨same, granted⟩ := sound.guests other record present
        refine ⟨same, ?_⟩
        intro approved
        rw [SessionPermissions.decided_granted, if_neg different]
        exact granted approved

theorem admitGuest (sound : Sound permissions session) (body : JoinShareSessionRequest)
    (draw : SessionRecord.JoinDraw) (now : Instant) (utcNow : DateTime) (approved : Bool) :
    Sound (permissions.joined body.deviceId ⟨draw.guestId, draw.guestToken, approved⟩)
      (session.admitGuest body draw now utcNow) where
  hostToken := sound.hostToken
  trusts := by
    intro device trusted found
    simp only [SessionRecord.admitGuest, SessionRecord.touchTrusted] at found
    split at found
    · exact sound.trusts device trusted found
    next old present =>
      rw [Table.find_put] at found
      split at found
      · next same => exact sound.trusts device old (same ▸ present)
      · exact sound.trusts device trusted found
  guests := by
    intro id guest found
    simp only [SessionRecord.admitGuest, Table.find_put] at found
    split at found
    · next same =>
        subst same
        cases found
        refine ⟨by simp [SessionPermissions.joined, SessionRecord.admittedGuest], ?_⟩
        intro trusted
        obtain ⟨device, present⟩ := Option.isSome_iff_exists.mp trusted
        rw [SessionPermissions.joined_granted, if_pos rfl]
        exact sound.trusts _ device present
    · next different =>
        obtain ⟨same, granted⟩ := sound.guests id guest found
        simp only [SessionPermissions.joined, Function.update_of_ne different]
        exact ⟨same, granted⟩

end Sound

theorem SessionStep.sound {broker : Broker} {id : ShareSessionId} {input : Input}
    {observation : Observation} {before after : Option SessionRecord} {seen : Permissions}
    (step : SessionStep broker id input observation before after)
    (sound : ∀ session, before = some session → Sound (seen.sessions id) session) :
    ∀ session, after = some session →
      Sound ((seen.watch input observation).sessions id) session := by
  intro result equal
  cases step with
  | kept quiet =>
      rw [seen.watch_quiet quiet]
      exact sound result equal
  | created =>
      cases equal
      rw [Permissions.watch, Permissions.change_self]
      exact .created _ _ _
  | @prepared key request body utcNow session sanitized =>
      cases equal
      have old := sound session rfl
      rcases session.prepareJoin_spec body broker.now utcNow broker.verificationSlots with
        ⟨_, same, _⟩ | ⟨_, failed⟩ | ⟨_, reserved⟩
      · rw [same]
        exact old
      · rw [failed]
        exact old.of_fields rfl rfl rfl
      · rw [reserved]
        exact old.of_fields rfl rfl rfl
  | @finished key draw utcNow body hash verified session task =>
      cases equal
      have old := sound session rfl
      rcases session.finishJoin_spec body hash verified draw broker.now utcNow with
        ⟨_, same⟩ | ⟨_, failed⟩ | ⟨_, _, _, answer, admitted⟩
      · rw [same]
        exact old
      · rw [failed]
        exact old.of_fields rfl rfl rfl
      · rw [answer, admitted, Permissions.watch, Permissions.change_self]
        exact old.admitGuest body draw _ _ _
  | @rotated body session =>
      cases equal
      have old := sound session rfl
      rcases session.rotateInvite_spec body with ⟨_, refused⟩ | ⟨_, opened⟩
      · rw [refused]
        exact old
      · rw [opened]
        exact old.of_fields rfl rfl rfl
  | @approved body session =>
      cases equal
      have old := sound session rfl
      rcases session.approveJoin_spec body broker.now with
        ⟨_, refused⟩ | ⟨token, guest, found, _, answer, decided⟩
      · rw [refused]
        exact old
      · rw [answer, decided, Permissions.watch, if_pos (old.hostToken.trans (congrArg some token)),
          Permissions.change_self]
        have token : (guest.approve broker.now).token = guest.token := rfl
        exact old.decided found token
  | @denied body session =>
      cases equal
      have old := sound session rfl
      rcases session.denyJoin_spec body broker.now with
        ⟨_, refused⟩ | ⟨token, guest, found, answer, decided⟩
      · rw [refused]
        exact old
      · rw [answer, decided, Permissions.watch, Permissions.change_self]
        have token : (guest.deny broker.now).token = guest.token := rfl
        exact old.decided found token
  | ended => cases equal
  | registered task registers =>
      cases equal
      exact (sound _ rfl).transport (SessionRecord.registerStream_move registers)
  | marked task =>
      cases equal
      exact (sound _ rfl).transport (SessionRecord.markConnectionActivity_move _ _)
  | disconnected task =>
      cases equal
      exact (sound _ rfl).transport (SessionRecord.handleDisconnect_move _ _)
  | swept =>
      split at equal
      · cases equal
      · cases equal
        exact (sound _ rfl).transport (SessionRecord.cleanup_move _ (Nat.sub_le _ _))

theorem Sound.proves {permissions : SessionPermissions} {session : SessionRecord}
    (sound : Sound permissions session) {token : String} {role : SessionRole}
    {auth : ParticipantId} (proof : authenticate session token role = some auth) :
    permissions.proves token auth = true := by
  cases role with
  | host =>
      rw [authenticate] at proof
      split at proof
      · next opens =>
          cases proof
          simp [SessionPermissions.proves, sound.hostToken, constantTimeStrEq_eq_true.mp opens]
      · cases proof
  | guest =>
      obtain ⟨id, chosen, rfl⟩ := Option.map_eq_some_iff.mp proof
      obtain ⟨entry, search, rfl⟩ := Option.map_eq_some_iff.mp chosen
      have stored := Table.find_eq_some_iff.mpr (List.mem_of_find?_eq_some search)
      have opens := List.find?_some search
      simp only [Bool.and_eq_true] at opens
      obtain ⟨same, _⟩ := sound.guests entry.1 entry.2 stored
      simp [SessionPermissions.proves, same, constantTimeStrEq_eq_true.mp opens.2]

/-! ## Streams -/

theorem ConnectionStep.party {broker after : Broker} {input : Input} {observation : Observation}
    (step : ConnectionStep foreign broker input observation after.connections)
    {connection : Uuid} {party : ShareSessionId × ParticipantId}
    (opened : broker.party connection = some party) : after.party connection = some party := by
  revert step
  generalize equal : after.connections = connections
  intro step
  rw [Broker.party] at opened ⊢
  rw [equal]
  cases step with
  | kept quiet => exact opened
  | @opened other id token role auth session absent found proof =>
      rw [Table.find_put]
      split
      · next same =>
          rw [same, absent] at opened
          cases opened
      · exact opened
  | @moved _ _ other task phase quiet found valid _ =>
      rw [Table.find_put]
      split
      · next same =>
          rw [same, found] at opened
          exact opened
      · exact opened

/-! ## The invariant -/

structure Authorized (foreign : Foreign) (broker : Broker) (seen : Permissions) : Prop where
  sessions : ∀ id session, broker.sessions.find id = some session →
    Sound (seen.sessions id) session
  /-- The queues of a session are those of streams its parties opened. -/
  tethered : ∀ id session, broker.sessions.find id = some session →
    Tethered (fun connection party => broker.party connection = some (id, party)) session
  streams : ∀ connection, seen.streams connection = broker.party connection
  relaying : ∀ connection id auth payload,
    broker.connections.find connection = some ⟨id, auth, .relaying payload⟩ →
    validateRelayEnvelope foreign id auth payload = .ok ()

theorem Authorized.start (config : BrokerConfig) :
    Authorized foreign (Broker.new config) .nothing where
  sessions := by
    intro id session found
    simp [Broker.new] at found
  tethered := by
    intro id session found
    simp [Broker.new] at found
  streams := by
    intro connection
    rw [party, Broker.new, Table.find_empty]
    rfl
  relaying := by
    intro connection id auth payload found
    simp [Broker.new] at found

theorem ConnectionStep.streams {broker after : Broker} {seen : Permissions} {input : Input}
    {observation : Observation}
    (step : ConnectionStep foreign broker input observation after.connections)
    (authorized : Authorized foreign broker seen) (connection : Uuid) :
    (seen.watch input observation).streams connection = after.party connection := by
  revert step
  rw [Broker.party]
  generalize after.connections = connections
  intro step
  have known := authorized.streams connection
  rw [Broker.party] at known
  cases step with
  | kept quiet =>
      rw [seen.watch_streams quiet]
      exact known
  | @opened opened id token role auth session absent found proof =>
      have proves := (authorized.sessions id session found).proves proof
      rw [Permissions.watch, if_pos proves, Table.find_put]
      split
      · next same =>
          subst same
          simp
      · next different => simpa [Function.update_of_ne different] using known
  | @moved _ _ moved task phase quiet found valid _ =>
      rw [seen.watch_streams quiet, known, Table.find_put]
      split
      · next same =>
          rw [same, found]
          rfl
      · rfl

theorem ConnectionStep.relaying {broker after : Broker} {input : Input}
    {observation : Observation}
    (step : ConnectionStep foreign broker input observation after.connections)
    (relaying : ∀ connection id auth payload,
      broker.connections.find connection = some ⟨id, auth, .relaying payload⟩ →
      validateRelayEnvelope foreign id auth payload = .ok ()) :
    ∀ connection id auth payload,
      after.connections.find connection = some ⟨id, auth, .relaying payload⟩ →
      validateRelayEnvelope foreign id auth payload = .ok () := by
  revert step
  generalize after.connections = connections
  intro step connection id auth payload task
  cases step with
  | kept quiet => exact relaying connection id auth payload task
  | opened absent found proof =>
      rw [Table.find_put] at task
      split at task
      · cases task
      · exact relaying connection id auth payload task
  | moved quiet found valid _ =>
      rw [Table.find_put] at task
      split at task
      · cases task
        exact valid payload rfl
      · exact relaying connection id auth payload task

theorem Authorized.next {broker : Broker} {seen : Permissions}
    (authorized : Authorized foreign broker seen) (input : Input) :
    Authorized foreign ((machine foreign).next broker input)
      (seen.watch input ((machine foreign).observe broker input)) where
  sessions := fun id =>
    (step_session broker input id).sound (authorized.sessions id)
  tethered := by
    intro id session found
    have held := (@step_session foreign broker input id).tethered
      (fun connection auth _ task => by rw [party, task, Option.map_some])
      (authorized.tethered id) session found
    exact held.mono fun connection party => (step_connections broker input).party
  streams := (step_connections broker input).streams authorized
  relaying := (step_connections broker input).relaying authorized.relaying

/-- What the requests of a run and their answers permit. -/
def permissions (foreign : Foreign) (config : BrokerConfig) (inputs : List Input) :
    Permissions :=
  (machine foreign).monitor Permissions.watch .nothing (Broker.new config) inputs

theorem authorized_run (config : BrokerConfig) (inputs : List Input) :
    Authorized foreign ((machine foreign).run (Broker.new config) inputs)
      (permissions foreign config inputs) :=
  (machine foreign).monitor_invariant Permissions.watch (Authorized foreign)
    (fun _ _ input authorized => authorized.next input) (.start config) inputs

/-! ## Delivery -/

theorem validateRelayEnvelope_eq_ok {id : ShareSessionId} {auth : ParticipantId}
    {payload : Bytes} (valid : validateRelayEnvelope foreign id auth payload = .ok ()) :
    foreign.parseEnvelope payload = some ⟨id, auth⟩ := by
  rw [validateRelayEnvelope] at valid
  split at valid
  · cases valid
  next envelope parsed =>
    split at valid
    · cases valid
    next session =>
      split at valid
      · cases valid
      next sender =>
        rw [parsed, ← of_not_not session, ← of_not_not sender]

theorem Authorized.target {broker : Broker} {seen : Permissions}
    (authorized : Authorized foreign broker seen) {id : ShareSessionId} {sender : ParticipantId}
    {target : ParticipantId × Uuid} (member : target ∈ broker.relayTargets id sender) :
    (seen.sessions id).Permits sender target.1 ∧
      seen.streams target.2 = some (id, target.1) := by
  rw [authorized.streams]
  unfold Broker.relayTargets at member
  split at member
  · cases member
  next session found =>
    have sound := authorized.sessions id session found
    have tethered := authorized.tethered id session found
    rcases SessionRecord.mem_relayTargets member with
      ⟨rfl, guest, record, aimed, present, may, open_⟩ |
        ⟨guest, record, rfl, aimed, present, may, open_⟩
    · rw [GuestRecord.mayRelay, Bool.and_eq_true] at may
      rw [aimed]
      exact ⟨(sound.guests guest record present).2 may.1,
        tethered.guests guest record target.2 present open_⟩
    · rw [GuestRecord.mayRelay, Bool.and_eq_true] at may
      rw [aimed]
      exact ⟨(sound.guests guest record present).2 may.1, tethered.host target.2 open_⟩

/-! ## Approval and denial -/

/-- The host approves a guest that was not denied, or a trusted device joins as a guest. -/
def Grants (broker : Broker) (id : ShareSessionId) (guest : GuestId) : Input → Prop
  | .approve decided body => decided = id ∧ body.guestId = guest ∧
      ∃ session record, broker.sessions.find id = some session ∧
        session.hostToken = body.hostToken ∧ session.guests.find guest = some record ∧
        record.isDenied = false
  | .finish key draw _ => draw.guestId = guest ∧
      ∃ session body, broker.sessions.find id = some session ∧
        broker.joins.find key =
          some ⟨id, body, session.passphraseHash, .verified (some true), false⟩ ∧
        (session.trustedDevices.find body.deviceId).isSome = true
  | _ => False

theorem SessionStep.grants {broker : Broker} {id : ShareSessionId} {input : Input}
    {observation : Observation} {before behind : Option SessionRecord} {after : SessionRecord}
    {guest : GuestId} {record : GuestRecord}
    (step : SessionStep broker id input observation before behind)
    (found : broker.sessions.find id = before) (stored : behind = some after)
    (present : after.guests.find guest = some record) (approved : record.approved = true)
    (pending : ∀ session old, before = some session → session.guests.find guest = some old →
      old.approved = false) :
    Grants broker id guest input := by
  have unapproved : ∀ session old, before = some session →
      session.guests.find guest = some old → old.approved ≠ true := by
    intro session old equal earlier
    rw [pending session old equal earlier]
    exact Bool.false_ne_true
  have moved : ∀ {session : SessionRecord}, before = some session →
      SessionMove TransportMove broker.now session after → Grants broker id guest input := by
    intro session equal move
    obtain ⟨old, earlier, _, same, _⟩ := move.guests.standing present
    exact absurd (same ▸ approved) (unapproved session old equal earlier)
  cases step with
  | kept quiet => exact absurd approved (unapproved after record stored present)
  | created =>
      cases stored
      simp [newSession] at present
  | @prepared key request body utcNow session sanitized =>
      cases stored
      rcases session.prepareJoin_spec body broker.now utcNow broker.verificationSlots with
        ⟨_, same, _⟩ | ⟨_, failed⟩ | ⟨_, reserved⟩
      · rw [same] at present
        exact absurd approved (unapproved session record rfl present)
      · rw [failed] at present
        exact absurd approved (unapproved session record rfl present)
      · rw [reserved] at present
        exact absurd approved (unapproved session record rfl present)
  | @finished key draw utcNow body hash verified session task =>
      cases stored
      rcases session.finishJoin_spec body hash verified draw broker.now utcNow with
        ⟨_, same⟩ | ⟨_, failed⟩ | ⟨_, rfl, rfl, _, admitted⟩
      · rw [same] at present
        exact absurd approved (unapproved session record rfl present)
      · rw [failed] at present
        exact absurd approved (unapproved session record rfl present)
      · rw [admitted] at present
        simp only [SessionRecord.admitGuest, Table.find_put] at present
        split at present
        · next same =>
            cases present
            exact ⟨same.symm, session, body, found, task, approved⟩
        · exact absurd approved (unapproved session record rfl present)
  | @rotated body session =>
      cases stored
      rcases session.rotateInvite_spec body with ⟨_, refused⟩ | ⟨_, opened⟩
      · rw [refused] at present
        exact absurd approved (unapproved session record rfl present)
      · rw [opened] at present
        exact absurd approved (unapproved session record rfl present)
  | @approved body session =>
      cases stored
      rcases session.approveJoin_spec body broker.now with
        ⟨_, refused⟩ | ⟨token, old, listed, standing, _, decided⟩
      · rw [refused] at present
        exact absurd approved (unapproved session record rfl present)
      · rw [decided, SessionRecord.withGuest, Table.find_put] at present
        split at present
        · next same =>
            subst same
            exact ⟨rfl, rfl, session, old, found, token, listed, standing⟩
        · exact absurd approved (unapproved session record rfl present)
  | @denied body session =>
      cases stored
      rcases session.denyJoin_spec body broker.now with
        ⟨_, refused⟩ | ⟨_, old, _, _, decided⟩
      · rw [refused] at present
        exact absurd approved (unapproved session record rfl present)
      · rw [decided, SessionRecord.withGuest, Table.find_put] at present
        split at present
        · cases present
          cases approved
        · exact absurd approved (unapproved session record rfl present)
  | ended => cases stored
  | registered task registers =>
      cases stored
      exact moved rfl (SessionRecord.registerStream_move registers)
  | marked task =>
      cases stored
      exact moved rfl (SessionRecord.markConnectionActivity_move _ _)
  | disconnected task =>
      cases stored
      exact moved rfl (SessionRecord.handleDisconnect_move _ _)
  | swept =>
      split at stored
      · cases stored
      · cases stored
        exact moved rfl (SessionRecord.cleanup_move _ (Nat.sub_le _ _))

/-- A guest is out: denied wherever it is still listed, and without permission. -/
structure Revoked (broker : Broker) (seen : Permissions) (id : ShareSessionId)
    (guest : GuestId) : Prop where
  denied : ∀ session record, broker.sessions.find id = some session →
    session.guests.find guest = some record → record.isDenied = true
  withdrawn : (seen.sessions id).granted guest = false


theorem SessionStep.revoked {broker : Broker} {id : ShareSessionId} {input : Input}
    {observation : Observation} {before behind : Option SessionRecord} {guest : GuestId}
    {seen : Permissions} (step : SessionStep broker id input observation before behind)
    (undrawn : Undrawn guest [input])
    (denied : ∀ session record, before = some session →
      session.guests.find guest = some record → record.isDenied = true)
    (withdrawn : (seen.sessions id).granted guest = false) :
    (∀ session record, behind = some session → session.guests.find guest = some record →
      record.isDenied = true) ∧
    ((seen.watch input observation).sessions id).granted guest = false := by
  -- the roster has the same guests, and the observer sees nothing
  have unchanged : ∀ {session after : SessionRecord}, before = some session →
      after.guests = session.guests → ∀ result record, some after = some result →
      result.guests.find guest = some record → record.isDenied = true := by
    intro session after equal guests result record same present
    cases same
    rw [guests] at present
    exact denied session record equal present
  have moved : ∀ {session after : SessionRecord}, before = some session →
      SessionMove TransportMove broker.now session after → ∀ result record,
      some after = some result → result.guests.find guest = some record →
      record.isDenied = true := by
    intro session after equal move result record same present
    cases same
    obtain ⟨old, earlier, _, _, standing⟩ := move.guests.standing present
    exact standing.trans (denied session old equal earlier)
  cases step with
  | kept quiet =>
      rw [seen.watch_quiet quiet]
      exact ⟨denied, withdrawn⟩
  | created =>
      rw [Permissions.watch, Permissions.change_self]
      refine ⟨?_, rfl⟩
      intro session record equal present
      cases equal
      simp [newSession] at present
  | @prepared key request body utcNow session sanitized =>
      refine ⟨?_, withdrawn⟩
      rcases session.prepareJoin_spec body broker.now utcNow broker.verificationSlots with
        ⟨_, same, _⟩ | ⟨_, failed⟩ | ⟨_, reserved⟩
      · rw [same]
        exact denied
      · rw [failed]
        exact unchanged rfl rfl
      · rw [reserved]
        exact unchanged rfl rfl
  | @finished key draw utcNow body hash verified session task =>
      rcases session.finishJoin_spec body hash verified draw broker.now utcNow with
        ⟨_, same⟩ | ⟨_, failed⟩ | ⟨_, _, _, answer, admitted⟩
      · rw [same]
        exact ⟨denied, withdrawn⟩
      · rw [failed]
        exact ⟨unchanged rfl rfl, withdrawn⟩
      · have different : guest ≠ draw.guestId :=
          Ne.symm (undrawn key draw utcNow (List.mem_singleton.mpr rfl))
        rw [answer, admitted, Permissions.watch, Permissions.change_self]
        refine ⟨?_, ?_⟩
        · intro result record equal present
          cases equal
          simp only [SessionRecord.admitGuest, Table.find_put, if_neg different] at present
          exact denied session record rfl present
        · rw [SessionPermissions.joined_granted, if_neg different]
          exact withdrawn
  | @rotated body session =>
      refine ⟨?_, withdrawn⟩
      rcases session.rotateInvite_spec body with ⟨_, refused⟩ | ⟨_, opened⟩
      · rw [refused]
        exact denied
      · rw [opened]
        exact unchanged rfl rfl
  | @approved body session =>
      rcases session.approveJoin_spec body broker.now with
        ⟨_, refused⟩ | ⟨_, old, listed, standing, answer, decided⟩
      · rw [refused]
        exact ⟨denied, withdrawn⟩
      · -- a denied guest is not approved
        have different : guest ≠ body.guestId := by
          intro same
          rw [denied session old rfl (same ▸ listed)] at standing
          cases standing
        rw [answer, decided]
        refine ⟨?_, ?_⟩
        · intro result record equal present
          cases equal
          rw [SessionRecord.withGuest, Table.find_put_of_ne _ _ different] at present
          exact denied session record rfl present
        · rw [Permissions.watch]
          split
          · rw [Permissions.change_self, SessionPermissions.decided_granted, if_neg different]
            exact withdrawn
          · exact withdrawn
  | @denied body session =>
      rcases session.denyJoin_spec body broker.now with
        ⟨_, refused⟩ | ⟨_, old, listed, answer, decided⟩
      · rw [refused]
        exact ⟨denied, withdrawn⟩
      · rw [answer, decided, Permissions.watch, Permissions.change_self]
        refine ⟨?_, ?_⟩
        · intro result record equal present
          cases equal
          rw [SessionRecord.withGuest, Table.find_put] at present
          split at present
          · cases present
            rfl
          · exact denied session record rfl present
        · rw [SessionPermissions.decided_granted]
          split
          · rfl
          · exact withdrawn
  | ended =>
      refine ⟨?_, withdrawn⟩
      intro result record equal
      cases equal
  | registered task registers =>
      exact ⟨moved rfl (SessionRecord.registerStream_move registers), withdrawn⟩
  | marked task =>
      exact ⟨moved rfl (SessionRecord.markConnectionActivity_move _ _), withdrawn⟩
  | disconnected task =>
      exact ⟨moved rfl (SessionRecord.handleDisconnect_move _ _), withdrawn⟩
  | swept =>
      refine ⟨?_, withdrawn⟩
      split
      · intro result record equal
        cases equal
      · exact moved rfl (SessionRecord.cleanup_move _ (Nat.sub_le _ _))

theorem Revoked.run {id : ShareSessionId} {guest : GuestId} (inputs : List Input)
    (undrawn : Undrawn guest inputs) {broker : Broker} {seen : Permissions}
    (revoked : Revoked broker seen id guest) :
    Revoked ((machine foreign).run broker inputs)
      ((machine foreign).monitor Permissions.watch seen broker inputs) id guest := by
  induction inputs generalizing broker seen with
  | nil => exact revoked
  | cons input inputs induction =>
      obtain ⟨first, others⟩ := undrawn_cons.mp undrawn
      obtain ⟨denied, withdrawn⟩ := (@step_session foreign broker input id).revoked first
        revoked.denied revoked.withdrawn
      exact induction others ⟨denied, withdrawn⟩

theorem denial_revokes {broker : Broker} {seen : Permissions} {id : ShareSessionId}
    {body : JoinDecisionRequest}
    (denies : (machine foreign).observe broker (.deny id body) = .decided (.ok ())) :
    Revoked ((machine foreign).next broker (.deny id body))
      (seen.watch (.deny id body) (.decided (.ok ()))) id body.guestId := by
  have step := @step_session foreign broker (.deny id body) id
  have withdrawn : ((seen.watch (.deny id body) (.decided (.ok ()))).sessions id).granted
      body.guestId = false := by
    rw [Permissions.watch, Permissions.change_self, SessionPermissions.decided_granted,
      if_pos rfl]
  refine ⟨?_, withdrawn⟩
  revert step denies
  generalize (machine foreign).observe broker (.deny id body) = observation
  generalize broker.sessions.find id = before
  generalize ((machine foreign).next broker (.deny id body)).sessions.find id = behind
  intro denies step result record equal present
  cases step with
  | kept quiet =>
      rw [denies] at quiet
      exact absurd rfl quiet
  | @denied _ session =>
      rcases session.denyJoin_spec body broker.now with
        ⟨_, refused⟩ | ⟨_, old, listed, answer, decided⟩
      · rw [refused] at denies
        cases denies
      · rw [decided] at equal
        cases equal
        rw [SessionRecord.withGuest, Table.find_put_self] at present
        cases present
        rfl

/-- In every interleaving: a payload is relayed only for the party that opened the
stream it arrived on, under that party's name, and only between the host and a guest
that was approved and not denied since; queues receive payloads in no other way; a guest
becomes approved only by a grant; and a denied guest stays denied and without permission
until its identifier is drawn for another guest. -/
theorem delivery_needs_approval (foreign : Foreign) (config : BrokerConfig)
    (inputs : List Input) :
    (∀ input id sender payload targets,
      (machine foreign).observe ((machine foreign).run (Broker.new config) inputs) input =
        .relayed id sender payload targets →
      ∃ connection, input = .relay connection ∧
        (permissions foreign config inputs).streams connection = some (id, sender) ∧
        foreign.parseEnvelope payload = some ⟨id, sender⟩ ∧
        ∀ target ∈ targets,
          ((permissions foreign config inputs).sessions id).Permits sender target) ∧
    (∀ input queue payload,
      ((machine foreign).run (Broker.new config) inputs).waiting queue payload <
        ((machine foreign).next ((machine foreign).run (Broker.new config) inputs)
          input).waiting queue payload →
      ∃ id sender target targets,
        (machine foreign).observe ((machine foreign).run (Broker.new config) inputs) input =
          .relayed id sender payload targets ∧ target ∈ targets ∧
        (permissions foreign config inputs).streams queue = some (id, target)) ∧
    (∀ input id guest session record,
      ((machine foreign).next ((machine foreign).run (Broker.new config) inputs)
        input).sessions.find id = some session →
      session.guests.find guest = some record → record.approved = true →
      (∀ earlier old,
        ((machine foreign).run (Broker.new config) inputs).sessions.find id = some earlier →
        earlier.guests.find guest = some old → old.approved = false) →
      Grants ((machine foreign).run (Broker.new config) inputs) id guest input) ∧
    ∀ id body later,
      (machine foreign).observe ((machine foreign).run (Broker.new config) inputs)
        (.deny id body) = .decided (.ok ()) →
      Undrawn body.guestId later →
      Revoked ((machine foreign).run (Broker.new config) (inputs ++ .deny id body :: later))
        (permissions foreign config (inputs ++ .deny id body :: later)) id body.guestId := by
  have authorized := @authorized_run foreign config inputs
  refine ⟨?_, ?_, ?_, ?_⟩
  · intro input id sender payload targets relayed
    obtain ⟨connection, rfl, task, rfl⟩ := relayed_inversion relayed
    refine ⟨connection, rfl, ?_, ?_, ?_⟩
    · rw [authorized.streams, party, task, Option.map_some]
    · exact validateRelayEnvelope_eq_ok (authorized.relaying connection id sender payload task)
    · intro target member
      obtain ⟨chosen, listed, rfl⟩ := List.mem_map.mp member
      exact (authorized.target listed).1
  · intro input queue payload grows
    obtain ⟨connection, id, sender, target, rfl, task, listed⟩ := waiting_grows grows
    exact ⟨id, sender, target, _, (relay_spec task).1, List.mem_map.mpr ⟨_, listed, rfl⟩,
      (authorized.target listed).2⟩
  · intro input id guest session record stored present approved pending
    exact (@step_session foreign _ input id).grants rfl stored present approved pending
  · intro id body later denies undrawn
    have out := @denial_revokes foreign _ (permissions foreign config inputs) id body denies
    have stays := @Revoked.run foreign id body.guestId later undrawn _ _ out
    rw [permissions, (machine foreign).monitor_append, (machine foreign).monitor_cons, denies,
      (machine foreign).run_append, (machine foreign).run_cons]
    exact stays

end Broker

end TerminalCanvas.Collab
