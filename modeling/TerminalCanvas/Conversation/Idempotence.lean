import TerminalCanvas.Conversation.Delegation
import TerminalCanvas.Conversation.Fingerprint

/-! # Sending twice

A request creates its transfer and its message once. A repeated request finds the
fingerprint that the first one stored. -/

namespace TerminalCanvas.Conversations

open Fallible Execution

def Codec.serde (codec : Codec) : Codec := { codec with fingerprint := jsonFingerprint }

def Input.sends (operation : Uuid) : Input → Bool
  | .send _ request _ _ => request.operationId = operation
  | _ => false

def rowsOf (tables : Tables) (operation : Uuid) : Nat :=
  tables.transfers.countP (·.id = operation)

def addsTransfer (codec : Codec) (operation : Uuid) (moment : State × Input) : Bool :=
  rowsOf moment.1.tables operation <
    rowsOf ((machine codec).next moment.1 moment.2).tables operation

def addsMessage (codec : Codec) (operation : Uuid) (moment : State × Input) : Bool :=
  moment.2.sends operation &&
    moment.1.tables.messages.size < ((machine codec).next moment.1 moment.2).tables.messages.size

/-- Who may send this request: the user, or its source with a current credential and a
link to the target. -/
def MaySend (tables : Tables) (caller : Caller) (request : SendRequest) : Prop :=
  ∀ own, caller.agentId = some own → own = request.sourceId ∧
    checkCredential tables caller own = .ok () ∧ linked tables own request.targetId = true

/-- What the first send of a request leaves: a transfer, and its message in the history of
the chat it comes from. -/
structure Created (codec : Codec) (tables next : Tables) (caller : Caller)
    (request : SendRequest) (prepared : Option PreparedSend) (world : World)
    (row : TransferRow) : Prop where
  absent : tables.transfer request.operationId = none
  born : Born tables caller request prepared row
  text : row.data.request = request.text
  fingerprint : row.fingerprint = codec.fingerprint request prepared
  unused : tables.messages.find world.draw = none
  transfers : next.transfers = tables.transfers ++ [row]
  message : ∃ source, tables.conversations.find request.sourceId = some source ∧
    next.messages = tables.messages.put world.draw
      { id := world.draw
        sequence := tables.lastSequence + 1
        conversationId := request.sourceId
        role := if caller.agentId.isSome then .activity else .user
        text := request.text
        source := "outgoing_request"
        origin := .of source
        createdAt := world.now }
  others : next = { tables with
    transfers := next.transfers
    messages := next.messages
    lastSequence := tables.lastSequence + 1 }

/-! ## One send -/

section Send

variable {codec : Codec} {tables next : Tables} {caller : Caller} {request : SendRequest}
  {prepared : Option PreparedSend} {world : World} {transfer : Transfer}

theorem composeTransfer_content {target : Conversation} {now : Int}
    (composed : composeTransfer codec tables caller request prepared target now = .ok transfer) :
    transfer.request = request.text ∧ transfer.createdAt = now := by
  unfold composeTransfer at composed
  obtain ⟨context, -, composed⟩ := bind_eq_ok.mp composed
  obtain ⟨⟨⟩, -, composed⟩ := bind_eq_ok.mp composed
  obtain ⟨automatic, -, composed⟩ := bind_eq_ok.mp composed
  obtain ⟨⟨depth, rootId⟩, -, composed⟩ := bind_eq_ok.mp composed
  obtain ⟨-, result⟩ := ensure_bind_eq_ok.mp composed
  cases pure_eq_ok.mp result
  exact ⟨rfl, rfl⟩

theorem sendInner_cases
    (sent : sendInner codec caller request prepared world tables = .ok (transfer, next)) :
    (∃ row, tables.transfer request.operationId = some row ∧
      row.fingerprint = codec.fingerprint request prepared ∧ row.data = transfer ∧
      next = tables) ∨
    ∃ row, row.data = transfer ∧
      Created codec tables next caller request prepared world row := by
  have outcome := sendInner_eq_ok sent
  unfold sendInner at sent
  obtain ⟨⟨source, target⟩, checked, sent⟩ := bind_eq_ok.mp sent
  obtain ⟨-, -, authorized, -⟩ := checkSend_eq_ok checked
  simp only at sent
  split at sent
  · next row found =>
      obtain ⟨answer, replays, result⟩ := bind_eq_ok.mp sent
      cases pure_eq_ok.mp result
      obtain ⟨same, replays⟩ := ensure_bind_eq_ok.mp replays
      obtain ⟨⟨⟩, -, answered⟩ := bind_eq_ok.mp replays
      exact .inl ⟨row, found, same, pure_eq_ok.mp answered, rfl⟩
  · next absent =>
      rw [absent] at outcome
      rcases outcome with ⟨seen, -⟩ | ⟨row, data, born, appended⟩
      · cases seen
      obtain ⟨composed, composes, sent⟩ := bind_eq_ok.mp sent
      obtain ⟨inserted, inserts, result⟩ := bind_eq_ok.mp sent
      cases pure_eq_ok.mp result
      obtain ⟨-, inserts⟩ := ensure_bind_eq_ok.mp inserts
      obtain ⟨-, inserts⟩ := ensure_bind_eq_ok.mp inserts
      obtain ⟨unused, stored⟩ := ensure_bind_eq_ok.mp inserts
      cases pure_eq_ok.mp stored
      obtain ⟨text, createdAt⟩ := composeTransfer_content composes
      obtain ⟨⟨-, sourceId, -, agent, -⟩, -⟩ := composeTransfer_eq_ok composes
      refine .inr ⟨row, data, ?_⟩
      refine
        { absent := absent
          born := born
          text := by rw [data, text]
          fingerprint := ?_
          unused := Option.isNone_iff_eq_none.mp unused
          transfers := appended
          message := ⟨source, authorized.found, ?_⟩
          others := rfl }
      · obtain rfl := List.singleton_inj.mp (List.append_cancel_left appended)
        rfl
      · simp only [text, createdAt, sourceId, agent]

theorem checkScope_eq_ok {source target workspaceId : Uuid} :
    checkScope tables caller source target workspaceId = .ok () ↔
      checkCredential tables caller source = .ok () ∧ ∃ own,
        tables.conversations.find source = some own ∧ own.workspaceId = workspaceId ∧
        (source = target ∨ linked tables source target = true) := by
  simp only [checkScope, bind_eq_ok, require_eq_ok, ensure_eq_ok]
  constructor
  · rintro ⟨⟨⟩, credential, own, found, reaches⟩
    exact ⟨credential, own, found, reaches⟩
  · rintro ⟨credential, own, found, reaches⟩
    exact ⟨(), credential, own, found, reaches⟩

theorem authorize_iff {target : Uuid} {conversation : Conversation} :
    authorize tables caller target = .ok conversation ↔
      tables.conversations.find target = some conversation ∧
        ∀ own, caller.agentId = some own →
          checkScope tables caller own target conversation.workspaceId = .ok () := by
  simp only [authorize, bind_eq_ok, require_eq_ok]
  cases agent : caller.agentId with
  | none => simp [pure_eq_ok]
  | some own =>
      simp only [bind_eq_ok, pure_eq_ok]
      constructor
      · rintro ⟨found, present, ⟨⟩, scope, rfl⟩
        exact ⟨present, fun other same => Option.some.inj same ▸ scope⟩
      · rintro ⟨present, scope⟩
        exact ⟨conversation, present, (), scope own rfl, rfl⟩

theorem maySend_of_checkSend {source target : Conversation}
    (checked : checkSend tables caller request = .ok (source, target)) :
    MaySend tables caller request := by
  obtain ⟨distinct, agents, -, -, -⟩ := checkSend_eq_ok checked
  unfold checkSend at checked
  simp only [ensure_bind_eq_ok] at checked
  obtain ⟨-, -, -, rest⟩ := checked
  obtain ⟨own, -, rest⟩ := bind_eq_ok.mp rest
  obtain ⟨peer, authorized, -⟩ := bind_eq_ok.mp rest
  intro own agent
  have same := agents own agent
  obtain ⟨credential, -, -, -, reaches⟩ := checkScope_eq_ok.mp
    ((authorize_iff.mp authorized).2 own agent)
  refine ⟨same, credential, reaches.resolve_left ?_⟩
  rw [same]
  exact distinct

theorem checkSend_again {earlier : Tables} {first : Caller} {source target : Conversation}
    (checked : checkSend earlier first request = .ok (source, target))
    (registered : ∀ id conversation, earlier.conversations.find id = some conversation →
      ∃ later, tables.conversations.find id = some later ∧
        later.workspaceId = conversation.workspaceId)
    (may : MaySend tables caller request) :
    ∃ ends, checkSend tables caller request = .ok ends := by
  obtain ⟨distinct, -, authorizedSource, authorizedTarget, workspace⟩ := checkSend_eq_ok checked
  obtain ⟨laterSource, foundSource, sourceWorkspace⟩ :=
    registered _ _ authorizedSource.found
  obtain ⟨laterTarget, foundTarget, targetWorkspace⟩ :=
    registered _ _ authorizedTarget.found
  have together : laterSource.workspaceId = laterTarget.workspaceId := by
    rw [sourceWorkspace, targetWorkspace, workspace]
  unfold checkSend at checked ⊢
  simp only [ensure_bind_eq_ok] at checked
  refine ⟨(laterSource, laterTarget), ?_⟩
  simp only [ensure_bind_eq_ok]
  refine ⟨checked.1, distinct, ?_, ?_⟩
  · cases agent : caller.agentId with
    | none => rfl
    | some own => simpa using (may own agent).1
  · rw [bind_eq_ok]
    refine ⟨laterSource, authorize_iff.mpr ⟨foundSource, fun own agent => ?_⟩, ?_⟩
    · obtain ⟨same, credential, -⟩ := may own agent
      subst same
      exact checkScope_eq_ok.mpr ⟨credential, laterSource, foundSource, rfl, .inl rfl⟩
    rw [bind_eq_ok]
    refine ⟨laterTarget, authorize_iff.mpr ⟨foundTarget, fun own agent => ?_⟩, ?_⟩
    · obtain ⟨same, credential, reaches⟩ := may own agent
      subst same
      exact checkScope_eq_ok.mpr ⟨credential, laterSource, foundSource, together, .inr reaches⟩
    exact ensure_bind_eq_ok.mpr ⟨together, rfl⟩

theorem checkTransferAccess_of_send {source target : Conversation}
    (checked : checkSend tables caller request = .ok (source, target))
    (same : transfer.sourceId = request.sourceId) :
    checkTransferAccess tables caller transfer = .ok () := by
  obtain ⟨-, agents, authorized, -⟩ := checkSend_eq_ok checked
  have may := maySend_of_checkSend checked
  unfold checkTransferAccess
  cases agent : caller.agentId with
  | none => rfl
  | some own =>
      obtain rfl := agents own agent
      simp only [bind_eq_ok]
      refine ⟨source, authorize_iff.mpr ⟨authorized.found, fun other known => ?_⟩, ?_⟩
      · cases agent.symm.trans known
        exact checkScope_eq_ok.mpr
          ⟨(may _ agent).2.1, source, authorized.found, rfl, .inl rfl⟩
      · exact ensure_eq_ok.mpr (.inl same.symm)

end Send

/-! ## What lasts -/

def Registered (first second : Tables) : Prop :=
  ∀ id conversation, first.conversations.find id = some conversation →
    ∃ later, second.conversations.find id = some later ∧
      later.workspaceId = conversation.workspaceId

def Remembered (first second : List TransferRow) : Prop :=
  ∀ row ∈ first, ∃ later ∈ second,
    later.id = row.id ∧ later.source = row.source ∧ later.fingerprint = row.fingerprint

section Lasting

variable {tables next : Tables} {caller : Caller} {world : World}

theorem Registered.of_eq (same : next.conversations = tables.conversations) :
    Registered tables next := by
  intro id conversation found
  rw [same]
  exact ⟨conversation, found, rfl⟩

theorem register_registered {conversation : Conversation}
    (done : register conversation tables = .ok next) : Registered tables next := by
  unfold register at done
  obtain ⟨-, done⟩ := ensure_bind_eq_ok.mp done
  intro id known found
  split at done
  · next absent =>
      cases pure_eq_ok.mp done
      refine ⟨known, ?_, rfl⟩
      rw [Table.find_put_of_ne, found]
      rintro rfl
      cases absent.symm.trans found
  · next previous present =>
      obtain ⟨⟨workspace, -⟩, done⟩ := ensure_bind_eq_ok.mp done
      rw [← pure_eq_ok.mp done]
      split
      · exact ⟨known, found, rfl⟩
      · by_cases same : id = conversation.id
        · subst same
          cases present.symm.trans found
          exact ⟨_, Table.find_put_self _ _ _, workspace.symm⟩
        · exact ⟨known, by rw [Table.find_put_of_ne _ _ same, found], rfl⟩

theorem insertMessage_conversations {id conversationId : Uuid} {role : MessageRole}
    {text source : String} {createdAt : Int} {origin : MessageOrigin}
    (inserted : insertMessage tables id conversationId role text source createdAt origin =
      .ok next) : next.conversations = tables.conversations := by
  obtain ⟨-, stored⟩ := ensure_bind_eq_ok.mp inserted
  cases pure_eq_ok.mp stored
  rfl

theorem transition_conversations {transfer moved : Transfer} {state : TransferState}
    {error : Option String} (done : transition tables transfer state error = .ok (moved, next)) :
    next.conversations = tables.conversations := by
  rw [(transition_eq_ok done).2.2]

theorem linkPair_conversations {source target : Uuid} {automatic : Bool}
    (done : linkPair source target automatic tables = .ok next) :
    next.conversations = tables.conversations := by
  obtain ⟨⟨⟩, -, done⟩ := bind_eq_ok.mp done
  obtain ⟨⟨⟩, -, done⟩ := bind_eq_ok.mp done
  cases pure_eq_ok.mp done
  rfl

theorem setAvailable_conversations {available : Bool}
    (done : setAvailable caller available tables = .ok next) :
    next.conversations = tables.conversations := by
  obtain ⟨id, -, done⟩ := bind_eq_ok.mp done
  obtain ⟨conversation, -, done⟩ := bind_eq_ok.mp done
  cases pure_eq_ok.mp done
  rfl

theorem record_conversations {id thread : Uuid} {role : MessageRole} {text source : String}
    {message : ConversationMessage}
    (done : record caller id thread role text source world tables = .ok (message, next)) :
    next.conversations = tables.conversations := by
  obtain ⟨-, done⟩ := ensure_bind_eq_ok.mp done
  obtain ⟨conversation, -, done⟩ := bind_eq_ok.mp done
  obtain ⟨-, done⟩ := ensure_bind_eq_ok.mp done
  obtain ⟨known, -, done⟩ := bind_eq_ok.mp done
  cases known with
  | some old =>
      obtain ⟨-, done⟩ := ensure_bind_eq_ok.mp done
      cases pure_eq_ok.mp done
      rfl
  | none =>
      obtain ⟨inserted, inserts, done⟩ := bind_eq_ok.mp done
      obtain ⟨read, -, done⟩ := bind_eq_ok.mp done
      obtain ⟨stored, -, done⟩ := bind_eq_ok.mp done
      cases pure_eq_ok.mp done
      exact insertMessage_conversations inserts

theorem sendInner_conversations {codec : Codec} {request : SendRequest}
    {prepared : Option PreparedSend} {transfer : Transfer}
    (sent : sendInner codec caller request prepared world tables = .ok (transfer, next)) :
    next.conversations = tables.conversations := by
  rcases sendInner_cases sent with ⟨row, -, -, -, rfl⟩ | ⟨row, -, created⟩
  · rfl
  · rw [created.others]

theorem cancel_conversations {id : Uuid} (done : cancel caller id tables = .ok next) :
    next.conversations = tables.conversations := by
  obtain ⟨transfer, -, done⟩ := bind_eq_ok.mp done
  obtain ⟨-, done⟩ := ensure_bind_eq_ok.mp done
  obtain ⟨⟨moved, after⟩, moves, result⟩ := bind_eq_ok.mp done
  cases pure_eq_ok.mp result
  exact transition_conversations moves

theorem claim_conversations {id binding : Uuid} {answer : Option Transfer}
    (done : claim id binding world tables = .ok (answer, next)) :
    next.conversations = tables.conversations := by
  obtain ⟨transfer, -, done⟩ := bind_eq_ok.mp done
  split at done
  · cases pure_eq_ok.mp done
    rfl
  unfold claimPending at done
  split at done
  · obtain ⟨⟨moved, after⟩, moves, result⟩ := bind_eq_ok.mp done
    cases pure_eq_ok.mp result
    exact transition_conversations moves
  obtain ⟨target, -, done⟩ := bind_eq_ok.mp done
  split at done
  · obtain ⟨⟨moved, after⟩, moves, result⟩ := bind_eq_ok.mp done
    cases pure_eq_ok.mp result
    exact transition_conversations moves
  · obtain ⟨⟨moved, after⟩, moves, result⟩ := bind_eq_ok.mp done
    cases pure_eq_ok.mp result
    exact transition_conversations moves

theorem deliveryResult_conversations {codec : Codec} {id : Uuid} {outcome : Except String Unit}
    (done : deliveryResult codec id outcome world tables = .ok next) :
    next.conversations = tables.conversations := by
  obtain ⟨transfer, -, done⟩ := bind_eq_ok.mp done
  split at done
  · cases pure_eq_ok.mp done
    rfl
  obtain ⟨-, done⟩ := ensure_bind_eq_ok.mp done
  cases outcome with
  | ok accepted =>
      obtain ⟨⟨queued, after⟩, moves, done⟩ := bind_eq_ok.mp done
      obtain ⟨target, -, done⟩ := bind_eq_ok.mp done
      obtain ⟨prompt, -, done⟩ := bind_eq_ok.mp done
      exact (insertMessage_conversations done).trans (transition_conversations moves)
  | error error =>
      obtain ⟨⟨moved, after⟩, moves, result⟩ := bind_eq_ok.mp done
      cases pure_eq_ok.mp result
      exact transition_conversations moves

theorem reply_conversations {id : Uuid} {text : String} {answer : Transfer}
    (done : reply caller id text world tables = .ok (answer, next)) :
    next.conversations = tables.conversations := by
  obtain ⟨transfer, -, done⟩ := bind_eq_ok.mp done
  obtain ⟨-, done⟩ := ensure_bind_eq_ok.mp done
  obtain ⟨-, done⟩ := ensure_bind_eq_ok.mp done
  split at done
  · obtain ⟨-, result⟩ := ensure_bind_eq_ok.mp done
    cases pure_eq_ok.mp result
    rfl
  · obtain ⟨-, done⟩ := ensure_bind_eq_ok.mp done
    obtain ⟨-, done⟩ := ensure_bind_eq_ok.mp done
    obtain ⟨target, -, done⟩ := bind_eq_ok.mp done
    obtain ⟨messaged, inserted, done⟩ := bind_eq_ok.mp done
    obtain ⟨stored, stores, result⟩ := bind_eq_ok.mp done
    cases pure_eq_ok.mp result
    have kept := insertMessage_conversations inserted
    rw [(storeTransfer_eq_ok stores).2]
    exact kept

theorem Resumed.wrote_conversations {after : Tables} {waits : Option Pending}
    (same : after.conversations = tables.conversations) :
    (Resumed.wrote world tables after waits).tables.conversations = tables.conversations := by
  unfold Resumed.wrote
  split
  · exact same
  · rfl

theorem resumePending_conversations (operation : Pending) :
    (resumePending world tables operation).tables.conversations = tables.conversations := by
  cases operation with
  | approving transfer =>
      unfold resumePending
      simp only
      split
      · rfl
      · rfl
  | approved transfer =>
      unfold resumePending
      simp only
      rcases transact_cases world (fun tables =>
        (storeApproval tables transfer).map fun next => (transfer, next)) tables with
        ⟨answer, next, stores, outcome⟩ | ⟨error, outcome⟩
      · rw [outcome]
        cases stored : storeApproval tables transfer with
        | error error =>
            rw [stored] at stores
            cases stores
        | ok after =>
            rw [stored] at stores
            cases stores
            obtain ⟨⟨moved, after⟩, moves, result⟩ := bind_eq_ok.mp stored
            cases pure_eq_ok.mp result
            exact transition_conversations moves
      · rw [outcome]
  | linking source target automatic => exact Resumed.wrote_conversations rfl
  | activating id digest => exact Resumed.wrote_conversations rfl
  | renewing lease id digest => exact Resumed.wrote_conversations rfl
  | expiring => exact Resumed.wrote_conversations rfl

theorem Remembered.refl (transfers : List TransferRow) : Remembered transfers transfers :=
  fun row member => ⟨row, member, rfl, rfl, rfl⟩

theorem Remembered.trans {first second third : List TransferRow} (one : Remembered first second)
    (two : Remembered second third) : Remembered first third := by
  intro row member
  obtain ⟨middle, middleMember, id, source, fingerprint⟩ := one row member
  obtain ⟨later, laterMember, laterId, laterSource, laterFingerprint⟩ := two middle middleMember
  exact ⟨later, laterMember, laterId.trans id, laterSource.trans source,
    laterFingerprint.trans fingerprint⟩

variable {codec : Codec} {state : State} {input : Input} {transfers : List TransferRow}

theorem Effect.remembered (effect : Effect state input transfers) :
    Remembered state.tables.transfers transfers := by
  cases effect with
  | kept same =>
      rw [same]
      exact .refl _
  | sent _ _ appended =>
      rw [appended]
      exact fun row member => ⟨row, List.mem_append_left _ member, rfl, rfl, rfl⟩
  | @moved moving data _ _ result =>
      rw [result]
      intro row member
      by_cases same : row = moving
      · subst same
        exact ⟨_, mem_replaceRow.mpr (.inr ⟨member, rfl⟩), rfl, rfl, rfl⟩
      · exact ⟨row, mem_replaceRow.mpr (.inl ⟨member, same⟩), rfl, rfl, rfl⟩
  | withdrawn _ _ result =>
      rw [result]
      intro row member
      refine ⟨_, mem_withdraw.mpr ⟨row, member, rfl⟩, ?_⟩
      split
      · exact ⟨rfl, rfl, rfl⟩
      · exact ⟨rfl, rfl, rfl⟩

theorem transact_registered {Answer : Type}
    {body : Tables → Except StoreError (Answer × Tables)}
    {observe : Except StoreError Answer → Observation}
    (registered : ∀ answer next, body state.tables = .ok (answer, next) →
      Registered state.tables next) :
    Registered state.tables
      (state.transacts observe (transact world body state.tables)).nextState.tables := by
  rcases transact_cases world body state.tables with
    ⟨answer, next, done, outcome⟩ | ⟨error, outcome⟩
  · rw [outcome]
    exact registered answer next done
  · rw [outcome]
    exact .of_eq rfl

theorem transactUnit_registered {body : Tables → Except StoreError Tables}
    {observe : Except StoreError Unit → Observation}
    (registered : ∀ next, body state.tables = .ok next → Registered state.tables next) :
    Registered state.tables
      (state.transacts observe (transactUnit world body state.tables)).nextState.tables := by
  rcases transactUnit_cases world body state.tables with ⟨next, done, outcome⟩ | ⟨error, outcome⟩
  · rw [outcome]
    exact registered next done
  · rw [outcome]
    exact .of_eq rfl

theorem step_registered (codec : Codec) (state : State) (input : Input) :
    Registered state.tables ((machine codec).next state input).tables := by
  cases input with
  | register conversation world =>
      exact transactUnit_registered fun next done => register_registered done
  | link source target automatic => exact .of_eq (congrArg _ (begin_tables _))
  | linkPair source target automatic world =>
      exact transactUnit_registered fun next done => .of_eq (linkPair_conversations done)
  | unlink source target world =>
      refine transactUnit_registered fun next done => ?_
      cases done
      exact .of_eq rfl
  | activate id token => exact .of_eq (congrArg _ (begin_tables _))
  | revoke id world =>
      refine transactUnit_registered fun next done => ?_
      cases done
      exact .of_eq rfl
  | renewBridge lease id token => exact .of_eq (congrArg _ (begin_tables _))
  | removeBridge lease world =>
      refine transactUnit_registered fun next done => ?_
      cases done
      exact .of_eq rfl
  | setAvailable caller available world =>
      exact transactUnit_registered fun next done => .of_eq (setAvailable_conversations done)
  | record caller id thread role text source world =>
      exact transact_registered fun answer next done => .of_eq (record_conversations done)
  | send caller request prepared world =>
      exact transact_registered fun answer next done => .of_eq (sendInner_conversations done)
  | approve id => exact .of_eq (congrArg _ (begin_tables _))
  | cancel caller id world =>
      exact transactUnit_registered fun next done => .of_eq (cancel_conversations done)
  | claim id binding world =>
      exact transact_registered fun answer next done => .of_eq (claim_conversations done)
  | deliveryResult id result world =>
      exact transactUnit_registered fun next done => .of_eq (deliveryResult_conversations done)
  | reply caller id text world =>
      exact transact_registered fun answer next done => .of_eq (reply_conversations done)
  | resume index world =>
      cases ticket : state.pending[index]? with
      | none =>
          rw [next_resume_none ticket]
          exact .of_eq rfl
      | some operation =>
          rw [next_resume_some ticket]
          exact .of_eq (resumePending_conversations operation)

theorem Registered.trans {first second third : Tables} (one : Registered first second)
    (two : Registered second third) : Registered first third := by
  intro id conversation found
  obtain ⟨middle, middleFound, middleWorkspace⟩ := one id conversation found
  obtain ⟨later, laterFound, laterWorkspace⟩ := two id middle middleFound
  exact ⟨later, laterFound, laterWorkspace.trans middleWorkspace⟩

theorem run_lasts (codec : Codec) (invariant : Invariant state) (inputs : List Input) :
    Registered state.tables ((machine codec).run state inputs).tables ∧
      Remembered state.tables.transfers ((machine codec).run state inputs).tables.transfers := by
  refine (machine codec).run_relation Invariant
    (fun first second => Registered first.tables second.tables ∧
      Remembered first.tables.transfers second.tables.transfers) ?_ ?_ ?_ ?_ invariant inputs
  · exact fun state => ⟨.of_eq rfl, .refl _⟩
  · exact fun one two => ⟨one.1.trans two.1, one.2.trans two.2⟩
  · exact fun state input invariant => invariant.next codec input
  · exact fun state input invariant =>
      ⟨step_registered codec state input, (step_effect codec invariant input).remembered⟩

end Lasting

/-! ## What a send adds -/

section Adds

variable {codec : Codec} {state : State} {caller : Caller} {request : SendRequest}
  {prepared : Option PreparedSend} {world : World} {operation : Uuid}

theorem send_cases (codec : Codec) (state : State) (caller : Caller) (request : SendRequest)
    (prepared : Option PreparedSend) (world : World) :
    (∃ row, Created codec state.tables
        ((machine codec).next state (.send caller request prepared world)).tables caller request
          prepared world row ∧
      (machine codec).observe state (.send caller request prepared world) = .sent (.ok row.data)) ∨
    ((machine codec).next state (.send caller request prepared world) = state ∧
      ((∃ row, state.tables.transfer request.operationId = some row ∧
          row.fingerprint = codec.fingerprint request prepared ∧
          (machine codec).observe state (.send caller request prepared world) =
            .sent (.ok row.data)) ∨
        ∃ error, (machine codec).observe state (.send caller request prepared world) =
          .sent (.error error))) := by
  simp only [Machine.next, Machine.observe, machine, step, State.transacts]
  rcases transact_cases world (sendInner codec caller request prepared world) state.tables with
    ⟨transfer, next, sent, outcome⟩ | ⟨error, outcome⟩
  · rw [outcome]
    rcases sendInner_cases sent with ⟨row, found, same, data, rfl⟩ | ⟨row, data, created⟩
    · exact .inr ⟨rfl, .inl ⟨row, found, same, by rw [data]⟩⟩
    · exact .inl ⟨row, created, by rw [data]⟩
  · rw [outcome]
    exact .inr ⟨rfl, .inr ⟨error, rfl⟩⟩

theorem rowsOf_eq_count (tables : Tables) (operation : Uuid) :
    rowsOf tables operation = (tables.transfers.map (·.id)).count operation := by
  rw [rowsOf, List.count, List.countP_map]
  apply List.countP_congr
  intro row _
  simp

theorem Effect.ids {input : Input} {transfers : List TransferRow}
    (effect : Effect state input transfers) :
    transfers.map (·.id) = state.tables.transfers.map (·.id) ∨
      ∃ caller request prepared world, input = .send caller request prepared world := by
  cases effect with
  | kept same => exact .inl (by rw [same])
  | sent isSend _ _ => exact .inr ⟨_, _, _, _, isSend⟩
  | moved _ _ result => exact .inl (by rw [result, replaceRow_ids])
  | withdrawn _ _ result => exact .inl (by rw [result, withdraw_ids])

theorem Created.rowsOf_next {next : Tables} {row : TransferRow}
    (created : Created codec state.tables next caller request prepared world row) :
    rowsOf next operation = rowsOf state.tables operation +
      if request.operationId = operation then 1 else 0 := by
  rw [rowsOf, created.transfers, List.countP_append, List.countP_singleton]
  simp only [created.born.id, decide_eq_true_eq]
  rfl

theorem addsTransfer_created {input : Input} (invariant : Invariant state)
    (adds : addsTransfer codec operation (state, input) = true) :
    ∃ caller request prepared world row, input = .send caller request prepared world ∧
      request.operationId = operation ∧ Created codec state.tables
        ((machine codec).next state input).tables caller request prepared world row := by
  have grows : rowsOf state.tables operation <
      rowsOf ((machine codec).next state input).tables operation := of_decide_eq_true adds
  rcases (step_effect codec invariant input).ids with same | ⟨caller, request, prepared, world, rfl⟩
  · rw [rowsOf_eq_count, rowsOf_eq_count, same] at grows
    omega
  rcases send_cases codec state caller request prepared world with
    ⟨row, created, -⟩ | ⟨unchanged, -⟩
  · have counted : rowsOf _ operation = _ := created.rowsOf_next
    have same : request.operationId = operation := by
      by_contra other
      rw [if_neg other] at counted
      omega
    exact ⟨caller, request, prepared, world, row, rfl, same, created⟩
  · rw [unchanged] at grows
    omega

theorem addsMessage_created {input : Input}
    (adds : addsMessage codec operation (state, input) = true) :
    ∃ caller request prepared world row, input = .send caller request prepared world ∧
      request.operationId = operation ∧ Created codec state.tables
        ((machine codec).next state input).tables caller request prepared world row := by
  simp only [addsMessage, Bool.and_eq_true, decide_eq_true_eq] at adds
  obtain ⟨sends, grows⟩ := adds
  cases input with
  | send caller request prepared world =>
      simp only [Input.sends, decide_eq_true_eq] at sends
      rcases send_cases codec state caller request prepared world with
        ⟨row, created, -⟩ | ⟨unchanged, -⟩
      · exact ⟨caller, request, prepared, world, row, rfl, sends, created⟩
      · rw [unchanged] at grows
        omega
  | _ => cases sends

theorem creates_once {acts : State × Input → Bool}
    (creates : ∀ state input, Invariant state → acts (state, input) = true →
      ∃ caller request prepared world row, input = .send caller request prepared world ∧
        request.operationId = operation ∧ Created codec state.tables
          ((machine codec).next state input).tables caller request prepared world row)
    (inputs : List Input) : ((machine codec).trace .empty inputs).countP acts ≤ 1 := by
  apply (machine codec).countP_trace_le_one Invariant
    (fun state => ∃ row ∈ state.tables.transfers, row.id = operation)
  · exact fun state input invariant => invariant.next codec input
  · rintro state input invariant ⟨row, member, same⟩
    obtain ⟨later, laterMember, id, -⟩ := (step_effect codec invariant input).remembered row member
    exact ⟨later, laterMember, id.trans same⟩
  · rintro state input invariant act ⟨row, member, same⟩
    obtain ⟨caller, request, prepared, world, new, -, rfl, created⟩ :=
      creates state input invariant act
    exact Tables.transfer_eq_none.mp created.absent row member same
  · intro state input invariant act
    obtain ⟨caller, request, prepared, world, new, -, sameId, created⟩ :=
      creates state input invariant act
    refine ⟨new, ?_, created.born.id.trans sameId⟩
    rw [created.transfers]
    simp
  · exact .empty

end Adds

/-! ## Repeated sends -/

section Repeated

variable {codec : Codec} {state : State} {input : Input}

/-- Every transfer keeps the fingerprint of a request of its own. -/
def Fingerprinted (codec : Codec) (transfers : List TransferRow) : Prop :=
  ∀ row ∈ transfers, ∃ request prepared, row.fingerprint = codec.fingerprint request prepared ∧
    row.id = request.operationId ∧ row.source = request.sourceId

theorem Fingerprinted.next (fingerprinted : Fingerprinted codec state.tables.transfers)
    (invariant : Invariant state) :
    Fingerprinted codec ((machine codec).next state input).tables.transfers := by
  intro row member
  cases step_effect codec invariant input with
  | kept same =>
      rw [same] at member
      exact fingerprinted row member
  | @sent caller request prepared world _ isSend _ _ =>
      subst isSend
      rcases send_cases codec state caller request prepared world with
        ⟨new, created, -⟩ | ⟨unchanged, -⟩
      · rw [created.transfers] at member
        rcases List.mem_append.mp member with old | fresh
        · exact fingerprinted row old
        · cases List.mem_singleton.mp fresh
          exact ⟨request, prepared, created.fingerprint, created.born.id, created.born.source⟩
      · rw [unchanged] at member
        exact fingerprinted row member
  | @moved moving data _ _ result =>
      rw [result] at member
      rcases mem_replaceRow.mp member with ⟨old, -⟩ | ⟨old, rfl⟩
      · exact fingerprinted row old
      · exact fingerprinted moving old
  | withdrawn _ _ result =>
      rw [result] at member
      obtain ⟨before, old, rfl⟩ := mem_withdraw.mp member
      split
      · exact fingerprinted before old
      · exact fingerprinted before old

theorem after_fingerprinted (codec : Codec) (inputs : List Input) :
    Fingerprinted codec (after codec inputs).tables.transfers := by
  have both : Invariant (after codec inputs) ∧
      Fingerprinted codec (after codec inputs).tables.transfers := by
    apply (machine codec).run_invariant
      (fun state => Invariant state ∧ Fingerprinted codec state.tables.transfers)
    · exact fun state input holds => ⟨holds.1.next codec input, holds.2.next holds.1⟩
    · exact ⟨.empty, by simp [Fingerprinted, State.empty, Tables.empty]⟩
  exact both.2

variable {caller : Caller} {request : SendRequest} {prepared : Option PreparedSend}
  {world : World} {row : TransferRow}

theorem resend_unchanged (seen : state.tables.transfer request.operationId = some row) :
    (machine codec).next state (.send caller request prepared world) = state := by
  rcases send_cases codec state caller request prepared world with
    ⟨new, created, -⟩ | ⟨unchanged, -⟩
  · cases created.absent.symm.trans seen
  · exact unchanged

theorem checkSend_of_answer {answer : Transfer}
    (answered : (machine codec).observe state (.send caller request prepared world) =
      .sent (.ok answer)) :
    (∃ ends, checkSend state.tables caller request = .ok ends) ∧ world.commits = true := by
  simp only [Machine.observe, machine, step, State.transacts, transact,
    Observation.sent.injEq] at answered
  split at answered
  · cases answered
  · next transfer next sent =>
      split at answered
      · next commits =>
          obtain ⟨ends, checked, -⟩ := bind_eq_ok.mp sent
          exact ⟨⟨ends, checked⟩, commits⟩
      · cases answered

theorem resend_again {ends : Conversation × Conversation} (wellFormed : WellFormed state.tables)
    (seen : state.tables.transfer request.operationId = some row)
    (same : row.fingerprint = codec.fingerprint request prepared)
    (source : row.source = request.sourceId)
    (checked : checkSend state.tables caller request = .ok ends)
    (commits : world.commits = true) :
    (machine codec).observe state (.send caller request prepared world) = .sent (.ok row.data) := by
  obtain ⟨own, peer⟩ := ends
  have columns := wellFormed.columns row (Tables.transfer_eq_some seen).1
  have replays : replaySend state.tables caller (codec.fingerprint request prepared) row =
      .ok row.data := by
    refine ensure_bind_eq_ok.mpr ⟨same, bind_eq_ok.mpr ⟨(), ?_, rfl⟩⟩
    exact checkTransferAccess_of_send checked (columns.source.trans source)
  have sent : sendInner codec caller request prepared world state.tables =
      .ok (row.data, state.tables) := by
    unfold sendInner
    rw [bind_eq_ok]
    refine ⟨(own, peer), checked, ?_⟩
    simp only [seen]
    exact bind_eq_ok.mpr ⟨row.data, replays, rfl⟩
  simp only [Machine.observe, machine, step, State.transacts, transact, sent, commits, if_true]

theorem sent_remembered {before rest : List Input} {answer : Transfer}
    (injective : ∀ first firstPrepared second secondPrepared,
      codec.fingerprint first firstPrepared = codec.fingerprint second secondPrepared →
        first = second ∧ firstPrepared = secondPrepared)
    (answered : (machine codec).observe (after codec before)
      (.send caller request prepared world) = .sent (.ok answer)) :
    ∃ row, (after codec (before ++ .send caller request prepared world :: rest)).tables.transfer
        request.operationId = some row ∧ row.source = request.sourceId ∧
      row.fingerprint = codec.fingerprint request prepared := by
  have stored : ∃ row ∈ ((machine codec).next (after codec before)
      (.send caller request prepared world)).tables.transfers, row.id = request.operationId ∧
      row.source = request.sourceId ∧ row.fingerprint = codec.fingerprint request prepared := by
    rcases send_cases codec (after codec before) caller request prepared world with
      ⟨row, created, -⟩ | ⟨unchanged, ⟨row, found, same, -⟩ | ⟨error, failed⟩⟩
    · refine ⟨row, ?_, created.born.id, created.born.source, created.fingerprint⟩
      rw [created.transfers]
      simp
    · rw [unchanged]
      obtain ⟨member, id⟩ := Tables.transfer_eq_some found
      obtain ⟨own, ownPrepared, ownFingerprint, -, source⟩ :=
        after_fingerprinted codec before row member
      obtain ⟨rfl, -⟩ := injective _ _ _ _ (ownFingerprint.symm.trans same)
      exact ⟨row, member, id, source, same⟩
    · cases answered.symm.trans failed
  obtain ⟨row, member, id, source, fingerprint⟩ := stored
  have lasts := (run_lasts codec ((after_invariant codec before).next codec
    (.send caller request prepared world)) rest).2 row member
  rw [← Machine.run_cons, ← after_append] at lasts
  obtain ⟨later, laterMember, laterId, laterSource, laterFingerprint⟩ := lasts
  have wellFormed := (after_invariant codec
    (before ++ .send caller request prepared world :: rest)).wellFormed
  refine ⟨later, ?_, laterSource.trans source, laterFingerprint.trans fingerprint⟩
  rw [← id, ← laterId]
  exact wellFormed.transfer_of_mem laterMember

end Repeated

/-- Over every run a request creates one transfer and one message at most. A repeated one
changes nothing. It is answered with its transfer when it is the same request and its
caller may still send; else it fails. -/
theorem send_is_idempotent (codec : Codec) (inputs : List Input) (operation : Uuid) :
    ((machine codec.serde).trace .empty inputs).countP (addsTransfer codec.serde operation) ≤ 1 ∧
    ((machine codec.serde).trace .empty inputs).countP (addsMessage codec.serde operation) ≤ 1 ∧
    rowsOf (after codec.serde inputs).tables operation ≤ 1 ∧
    ∀ caller request prepared world, request.operationId = operation →
      let state := after codec.serde inputs
      let next := (machine codec.serde).next state (.send caller request prepared world)
      let answer := (machine codec.serde).observe state (.send caller request prepared world)
      ((∃ error, answer = .sent (.error error)) → next = state) ∧
      (next ≠ state → ∃ row, answer = .sent (.ok row.data) ∧
        Created codec.serde state.tables next.tables caller request prepared world row) ∧
      ∀ before first firstRequest firstPrepared firstWorld rest transfer,
        inputs = before ++ .send first firstRequest firstPrepared firstWorld :: rest →
        firstRequest.operationId = operation →
        (machine codec.serde).observe (after codec.serde before)
          (.send first firstRequest firstPrepared firstWorld) = .sent (.ok transfer) →
        next = state ∧ ∃ row, state.tables.transfer operation = some row ∧
          (request = firstRequest ∧ prepared = firstPrepared ∧
            MaySend state.tables caller request ∧ world.commits = true →
              answer = .sent (.ok row.data)) ∧
          (¬ (request = firstRequest ∧ prepared = firstPrepared ∧
            MaySend state.tables caller request ∧ world.commits = true) →
              ∃ error, answer = .sent (.error error)) := by
  refine ⟨creates_once (fun _ _ => addsTransfer_created) inputs,
    creates_once (fun _ _ _ => addsMessage_created) inputs, ?_, ?_⟩
  · rw [rowsOf_eq_count]
    exact List.nodup_iff_count_le_one.mp (after_invariant _ inputs).wellFormed.ids operation
  intro caller request prepared world sameId state next answer
  have cases := send_cases codec.serde state caller request prepared world
  refine ⟨?_, ?_, ?_⟩
  · rintro ⟨error, failed⟩
    rcases cases with ⟨row, -, succeeds⟩ | ⟨unchanged, -⟩
    · cases failed.symm.trans succeeds
    · exact unchanged
  · intro changed
    rcases cases with ⟨row, created, succeeds⟩ | ⟨unchanged, -⟩
    · exact ⟨row, succeeds, created⟩
    · exact absurd unchanged changed
  · rintro before first firstRequest firstPrepared firstWorld rest transfer rfl firstId answered
    have different : ∀ other otherPrepared mine minePrepared,
        codec.serde.fingerprint other otherPrepared = codec.serde.fingerprint mine minePrepared →
          other = mine ∧ otherPrepared = minePrepared :=
      fun _ _ _ _ same => jsonFingerprint_injective same
    obtain ⟨row, found, source, fingerprint⟩ :=
      @sent_remembered codec.serde first firstRequest firstPrepared firstWorld before rest transfer
        different answered
    have seen : state.tables.transfer request.operationId = some row := by
      rw [sameId, ← firstId]
      exact found
    refine ⟨resend_unchanged seen, row, sameId ▸ seen, ?_, ?_⟩
    · rintro ⟨rfl, rfl, may, commits⟩
      obtain ⟨⟨⟨own, peer⟩, checked⟩, -⟩ := checkSend_of_answer answered
      have registered := (run_lasts codec.serde (after_invariant codec.serde before)
        (.send first request prepared firstWorld :: rest)).1
      rw [← after_append] at registered
      obtain ⟨ends, again⟩ := checkSend_again checked registered may
      exact resend_again (after_invariant _ _).wellFormed seen fingerprint source again commits
    · intro otherwise
      rcases cases with ⟨new, created, -⟩ | ⟨-, ⟨known, present, same, succeeds⟩ | failed⟩
      · cases created.absent.symm.trans seen
      · cases present.symm.trans seen
        obtain ⟨rfl, rfl⟩ := different _ _ _ _ (fingerprint.symm.trans same)
        obtain ⟨⟨⟨own, peer⟩, checked⟩, commits⟩ := checkSend_of_answer succeeds
        exact absurd ⟨rfl, rfl, maySend_of_checkSend checked, commits⟩ otherwise
      · exact failed

open Scenario

def Observation.answer : Observation → Option Transfer
  | .sent (.ok transfer) => some transfer
  | _ => none

private def permitting : List Input :=
  [.register ⟨uuid 3, uuid 1, uuid 3, "", none, none, none, none, none, none⟩ (calm 0),
    .register ⟨uuid 4, uuid 1, uuid 4, "", none, none, none, none, none, none⟩ (calm 0),
    .activate (uuid 3) "", .resume 0 (calm 0)] ++ linkedTo 3 4

private def firstSend : Input := sends (.agent (uuid 3)) 10 3 4

/-- The source loses its link, and the same request is refused. -/
theorem refused_after_unlink : ¬ ∀ (codec : Codec) (before rest : List Input) (caller : Caller)
    (request : SendRequest) (world : World), world.commits = true →
    ((machine codec.serde).observe (after codec.serde before)
      (.send caller request none world)).answer.isSome = true →
    ((machine codec.serde).observe
      (after codec.serde (before ++ .send caller request none world :: rest))
      (.send caller request none world)).answer.isSome = true := by
  intro claim
  have answered : ((machine plainCodec.serde).observe (after plainCodec.serde permitting)
      firstSend).answer.isSome = true := by decide +kernel
  have refused : ((machine plainCodec.serde).observe (after plainCodec.serde
      (permitting ++ firstSend :: [.unlink (uuid 3) (uuid 4) (calm 0)])) firstSend).answer.isSome =
      false := by decide +kernel
  have again := claim plainCodec permitting [.unlink (uuid 3) (uuid 4) (calm 0)] _ _ _ rfl answered
  cases refused.symm.trans again

end TerminalCanvas.Conversations
