import TerminalCanvas.Conversation.Statements

/-! # What the steps of the journal change

A step leaves the transfers as they are, appends one, moves one to its next state or
withdraws some that wait. -/

namespace TerminalCanvas.Conversations

open Fallible Execution

/-! ## Effects -/

def Transfer.birth (transfer : Transfer) : Transfer :=
  { transfer with state := .pending, targetBinding := none, result := none, error := none }

theorem Transfer.birth_eq {first second : Transfer} (same : first.birth = second.birth) :
    first.id = second.id ∧ first.sourceId = second.sourceId ∧ first.targetId = second.targetId ∧
      first.parentId = second.parentId ∧ first.rootId = second.rootId ∧
      first.depth = second.depth ∧ first.requestedByAgent = second.requestedByAgent := by
  simp only [Transfer.birth, Transfer.mk.injEq] at same
  obtain ⟨id, source, target, parent, root, depth, -, -, -, -, agent, -⟩ := same
  exact ⟨id, source, target, parent, root, depth, agent⟩

/-- A new row, as a send composes it. -/
structure Born (tables : Tables) (caller : Caller) (request : SendRequest)
    (prepared : Option PreparedSend) (row : TransferRow) : Prop where
  columns : Columns row
  id : row.id = request.operationId
  source : row.source = request.sourceId
  target : row.target = request.targetId
  fresh : ∀ other ∈ tables.transfers, other.id ≠ row.id
  distinct : row.source ≠ row.target
  agent : row.data.requestedByAgent = caller.agentId.isSome
  own : ∀ own, caller.agentId = some own → own = row.source
  ends : ∃ source target, Authorized tables caller row.source source ∧
    Authorized tables caller row.target target ∧ source.workspaceId = target.workspaceId ∧
    row.data.targetBinding = target.bindingId ∧
    ∀ reviewed, prepared = some reviewed → reviewed.targetBinding = target.bindingId
  state : ∃ automatic, automaticDelivery tables caller request = .ok automatic ∧
    row.state = if automatic then .pending else .awaitingApproval
  parent : row.data.parentId = parentOf tables caller
  place : ancestry tables row.target maxDelegationDepth row.data.parentId 1 row.id =
    .ok (row.data.depth, row.data.rootId)
  room : tables.transfers.countP (fun other => other.data.rootId = row.data.rootId) <
    maxRootTransfers

/-- A pending transfer that its target can take. -/
structure Deliverable (tables : Tables) (binding : Uuid) (row : TransferRow) : Prop where
  pending : row.state = .pending
  idle : busy tables row.target row.id = false
  permitted : permitted tables row.data = true
  unchanged : ∃ target, tables.conversations.find row.target = some target ∧
    reviewReason row.data target binding = none

/-- How an input moves a transfer to its next state. -/
inductive Move (state : State) : Input → TransferRow → Transfer → Prop where
  | approved {row : TransferRow} {index : Nat} {world : World} {transfer : Transfer}
      (ticket : state.pending[index]? = some (.approved transfer))
      (consents : row.state = .awaitingApproval ∨ row.state = .needsReview)
      (birth : transfer.birth = row.data.birth) :
      Move state (.resume index world) row { transfer with state := .pending, error := none }
  | cancelled {row : TransferRow} {caller : Caller} {world : World}
      (access : checkTransferAccess state.tables caller row.data = .ok ())
      (withdrawable : (row.state matches .awaitingApproval | .pending | .needsReview | .failed)
        = true) :
      Move state (.cancel caller row.id world) row
        { row.data with state := .cancelled, error := none }
  | refused {row : TransferRow} {binding : Uuid} {world : World} {reason : String}
      (pending : row.state = .pending) :
      Move state (.claim row.id binding world) row
        { row.data with state := .cancelled, error := some reason }
  | reviewed {row : TransferRow} {binding : Uuid} {world : World} {reason : String}
      (pending : row.state = .pending) :
      Move state (.claim row.id binding world) row
        { row.data with state := .needsReview, error := some reason }
  | dispatched {row : TransferRow} {binding : Uuid} {world : World}
      (deliverable : Deliverable state.tables binding row) :
      Move state (.claim row.id binding world) row
        { row.data with state := .dispatching, error := none }
  | queued {row : TransferRow} {world : World} (dispatching : row.state = .dispatching) :
      Move state (.deliveryResult row.id (.ok ()) world) row
        { row.data with state := .inputQueued, error := none }
  | failed {row : TransferRow} {world : World} {error : String}
      (dispatching : row.state = .dispatching) :
      Move state (.deliveryResult row.id (.error error) world) row
        { row.data with state := .failed, error := some error }
  | completed {row : TransferRow} {caller : Caller} {text : String} {world : World}
      (access : checkTransferAccess state.tables caller row.data = .ok ())
      (active : row.state.isActive = true)
      (answered : pendingChildren state.tables row.id = false) :
      Move state (.reply caller row.id text world) row
        { row.data with result := some text, state := .completed, error := none }

/-- What a step makes of the transfers. -/
inductive Effect (state : State) (input : Input) (transfers : List TransferRow) : Prop where
  | kept (same : transfers = state.tables.transfers)
  | sent {caller : Caller} {request : SendRequest} {prepared : Option PreparedSend}
      {world : World} {row : TransferRow} (isSend : input = .send caller request prepared world)
      (born : Born state.tables caller request prepared row)
      (appended : transfers = state.tables.transfers ++ [row])
  | moved {row : TransferRow} {data : Transfer} (member : row ∈ state.tables.transfers)
      (move : Move state input row data)
      (result : transfers = replaceRow state.tables.transfers row data)
  | withdrawn {chosen : TransferRow → Bool} {error : String}
      (revokes : (∃ source target world, input = .unlink source target world) ∨
        ∃ id world, input = .revoke id world)
      (waiting : ∀ row, chosen row = true →
        (row.state matches .pending | .awaitingApproval | .needsReview) = true)
      (result : transfers = withdraw state.tables.transfers chosen error)

/-! ## Operations on the transfers -/

section Operations

variable {tables next : Tables} {caller : Caller} {id : Uuid} {world : World}

theorem checkSend_eq_ok {request : SendRequest} {source target : Conversation}
    (checked : checkSend tables caller request = .ok (source, target)) :
    request.sourceId ≠ request.targetId ∧
      (∀ own, caller.agentId = some own → own = request.sourceId) ∧
      Authorized tables caller request.sourceId source ∧
      Authorized tables caller request.targetId target ∧
      source.workspaceId = target.workspaceId := by
  simp only [checkSend, ensure_bind_eq_ok] at checked
  obtain ⟨-, distinct, own, rest⟩ := checked
  obtain ⟨first, authorizedSource, rest⟩ := bind_eq_ok.mp rest
  obtain ⟨second, authorizedTarget, rest⟩ := bind_eq_ok.mp rest
  obtain ⟨workspace, same⟩ := ensure_bind_eq_ok.mp rest
  rw [pure_eq_ok] at same
  cases same
  refine ⟨distinct, ?_, authorize_eq_ok authorizedSource, authorize_eq_ok authorizedTarget,
    workspace⟩
  intro known agent
  simpa [agent] using own

theorem checkPrepared_eq_ok {prepared : Option PreparedSend} {context : ContextSnapshot}
    {targetBinding : Option Uuid}
    (checked : checkPrepared prepared context targetBinding = .ok ()) :
    ∀ reviewed, prepared = some reviewed → reviewed.targetBinding = targetBinding := by
  rintro reviewed rfl
  exact (ensure_eq_ok.mp checked).2

theorem composeTransfer_eq_ok {codec : Codec} {request : SendRequest}
    {prepared : Option PreparedSend} {target : Conversation} {now : Int} {transfer : Transfer}
    (composed : composeTransfer codec tables caller request prepared target now = .ok transfer) :
    (transfer.id = request.operationId ∧ transfer.sourceId = request.sourceId ∧
      transfer.targetId = request.targetId ∧
      transfer.requestedByAgent = caller.agentId.isSome ∧
      transfer.targetBinding = target.bindingId) ∧
    (∀ reviewed, prepared = some reviewed → reviewed.targetBinding = target.bindingId) ∧
    (∃ automatic, automaticDelivery tables caller request = .ok automatic ∧
      transfer.state = if automatic then .pending else .awaitingApproval) ∧
    transfer.parentId = parentOf tables caller ∧
    ancestry tables request.targetId maxDelegationDepth transfer.parentId 1 request.operationId =
      .ok (transfer.depth, transfer.rootId) ∧
    tables.transfers.countP (fun other => other.data.rootId = transfer.rootId) <
      maxRootTransfers := by
  unfold composeTransfer at composed
  obtain ⟨context, -, composed⟩ := bind_eq_ok.mp composed
  obtain ⟨⟨⟩, reviewed, composed⟩ := bind_eq_ok.mp composed
  obtain ⟨automatic, delivery, composed⟩ := bind_eq_ok.mp composed
  obtain ⟨⟨depth, rootId⟩, place, composed⟩ := bind_eq_ok.mp composed
  obtain ⟨room, result⟩ := ensure_bind_eq_ok.mp composed
  rw [pure_eq_ok] at result
  subst result
  exact ⟨⟨rfl, rfl, rfl, rfl, rfl⟩, checkPrepared_eq_ok reviewed, ⟨automatic, delivery, rfl⟩, rfl,
    place, room⟩

theorem sendInner_eq_ok {codec : Codec} {request : SendRequest} {prepared : Option PreparedSend}
    {transfer : Transfer}
    (sent : sendInner codec caller request prepared world tables = .ok (transfer, next)) :
    ((tables.transfer request.operationId).isSome = true ∧ next = tables) ∨
      ∃ row, row.data = transfer ∧ Born tables caller request prepared row ∧
        next.transfers = tables.transfers ++ [row] := by
  unfold sendInner at sent
  obtain ⟨⟨source, target⟩, checked, sent⟩ := bind_eq_ok.mp sent
  obtain ⟨distinct, own, authorizedSource, authorizedTarget, workspace⟩ := checkSend_eq_ok checked
  simp only at sent
  split at sent
  · next existing found =>
      obtain ⟨answer, -, result⟩ := bind_eq_ok.mp sent
      rw [pure_eq_ok] at result
      cases result
      exact .inl ⟨by rw [found]; rfl, rfl⟩
  · next absent =>
      right
      obtain ⟨composed, composes, sent⟩ := bind_eq_ok.mp sent
      obtain ⟨inserted, inserts, result⟩ := bind_eq_ok.mp sent
      rw [pure_eq_ok] at result
      cases result
      simp only [insertTransfer, ensure_bind_eq_ok] at inserts
      obtain ⟨-, -, inserts⟩ := inserts
      have appended := insertMessage_transfers inserts
      obtain ⟨⟨sameId, sameSource, sameTarget, agent, binding⟩, reviewed, state, parent, place,
        room⟩ := composeTransfer_eq_ok composes
      refine ⟨_, rfl, ?_, appended⟩
      refine
        { columns := ⟨rfl, rfl, rfl, rfl⟩
          id := sameId
          source := sameSource
          target := sameTarget
          fresh := fun other member => sameId ▸ Tables.transfer_eq_none.mp absent other member
          distinct := by rw [sameSource, sameTarget]; exact distinct
          agent := agent
          own := fun known isAgent => (own known isAgent).trans sameSource.symm
          ends := ?_
          state := state
          parent := parent
          place := ?_
          room := room }
      · rw [sameSource, sameTarget]
        exact ⟨source, target, authorizedSource, authorizedTarget, workspace, binding, reviewed⟩
      · rw [sameTarget, sameId]
        exact place

variable {state : State}

theorem cancel_effect (wellFormed : WellFormed state.tables)
    (done : cancel caller id state.tables = .ok next) :
    Effect state (.cancel caller id world) next.transfers := by
  unfold cancel at done
  obtain ⟨transfer, read, done⟩ := bind_eq_ok.mp done
  obtain ⟨row, member, rfl, rfl, access⟩ := readTransfer_eq_ok read
  obtain ⟨withdrawable, done⟩ := ensure_bind_eq_ok.mp done
  obtain ⟨⟨moved, after⟩, moves, result⟩ := bind_eq_ok.mp done
  rw [pure_eq_ok] at result
  subst result
  obtain ⟨rfl, rfl⟩ := transition_of_mem wellFormed member moves
  rw [(wellFormed.columns row member).state] at withdrawable
  exact .moved member (.cancelled access withdrawable) rfl

/-- A claim answers with the transfer it dispatches; else it leaves the transfers, or
withdraws the one it is about. -/
theorem claim_cases {binding : Uuid} {answer : Option Transfer} (wellFormed : WellFormed tables)
    (done : claim id binding world tables = .ok (answer, next)) :
    (answer = none ∧ next = tables) ∨
    ∃ row ∈ tables.transfers, row.id = id ∧
      ((answer = none ∧ row.state = .pending ∧ ∃ state reason,
          (state = .cancelled ∨ state = .needsReview) ∧
          next.transfers = replaceRow tables.transfers row
            { row.data with state := state, error := some reason }) ∨
        (Deliverable tables binding row ∧
          answer = some { row.data with state := .dispatching, error := none } ∧
          next.transfers = replaceRow tables.transfers row
            { row.data with state := .dispatching, error := none })) := by
  unfold claim at done
  obtain ⟨transfer, read, done⟩ := bind_eq_ok.mp done
  obtain ⟨row, member, sameId, rfl, -⟩ := readTransfer_eq_ok read
  have columns := wellFormed.columns row member
  split at done
  · cases pure_eq_ok.mp done
    exact .inl ⟨rfl, rfl⟩
  · next blocked =>
      right
      refine ⟨row, member, sameId, ?_⟩
      simp only [not_or, ne_eq, Decidable.not_not, Bool.not_eq_false, Bool.not_eq_true] at blocked
      obtain ⟨pending, -, idle⟩ := blocked
      rw [columns.state] at pending
      rw [columns.target, ← sameId] at idle
      unfold claimPending at done
      split at done
      · obtain ⟨⟨moved, after⟩, moves, result⟩ := bind_eq_ok.mp done
        cases pure_eq_ok.mp result
        obtain ⟨rfl, rfl⟩ := transition_of_mem wellFormed member moves
        exact .inl ⟨rfl, pending, .cancelled, _, .inl rfl, rfl⟩
      · next allowed =>
          obtain ⟨target, authorized, done⟩ := bind_eq_ok.mp done
          have found := (authorize_eq_ok authorized).found
          rw [columns.target] at found
          split at done
          · obtain ⟨⟨moved, after⟩, moves, result⟩ := bind_eq_ok.mp done
            cases pure_eq_ok.mp result
            obtain ⟨rfl, rfl⟩ := transition_of_mem wellFormed member moves
            exact .inl ⟨rfl, pending, .needsReview, _, .inr rfl, rfl⟩
          · next unchanged =>
              obtain ⟨⟨moved, after⟩, moves, result⟩ := bind_eq_ok.mp done
              cases pure_eq_ok.mp result
              obtain ⟨rfl, rfl⟩ := transition_of_mem wellFormed member moves
              exact .inr ⟨⟨pending, idle, by simpa using allowed, target, found, unchanged⟩, rfl,
                rfl⟩

theorem claim_effect {binding : Uuid} {answer : Option Transfer}
    (wellFormed : WellFormed state.tables)
    (done : claim id binding world state.tables = .ok (answer, next)) :
    Effect state (.claim id binding world) next.transfers := by
  rcases claim_cases wellFormed done with ⟨-, rfl⟩ | ⟨row, member, rfl, stopped | dispatched⟩
  · exact .kept rfl
  · obtain ⟨-, pending, after, reason, cancelled | reviewed, result⟩ := stopped
    · subst cancelled
      exact .moved member (.refused pending) result
    · subst reviewed
      exact .moved member (.reviewed pending) result
  · obtain ⟨deliverable, -, result⟩ := dispatched
    exact .moved member (.dispatched deliverable) result

theorem deliveryResult_effect {codec : Codec} {outcome : Except String Unit}
    (wellFormed : WellFormed state.tables)
    (done : deliveryResult codec id outcome world state.tables = .ok next) :
    Effect state (.deliveryResult id outcome world) next.transfers := by
  unfold deliveryResult at done
  obtain ⟨transfer, read, done⟩ := bind_eq_ok.mp done
  obtain ⟨row, member, rfl, rfl, -⟩ := readTransfer_eq_ok read
  split at done
  · rw [pure_eq_ok] at done
    cases done
    exact .kept rfl
  · obtain ⟨dispatching, done⟩ := ensure_bind_eq_ok.mp done
    rw [(wellFormed.columns row member).state] at dispatching
    cases outcome with
    | ok accepted =>
        simp only [storeDelivered] at done
        obtain ⟨⟨queued, after⟩, moves, done⟩ := bind_eq_ok.mp done
        obtain ⟨target, -, done⟩ := bind_eq_ok.mp done
        obtain ⟨prompt, -, done⟩ := bind_eq_ok.mp done
        obtain ⟨rfl, rfl⟩ := transition_of_mem wellFormed member moves
        exact .moved member (.queued dispatching) (insertMessage_transfers done)
    | error error =>
        obtain ⟨⟨moved, after⟩, moves, result⟩ := bind_eq_ok.mp done
        rw [pure_eq_ok] at result
        subst result
        obtain ⟨rfl, rfl⟩ := transition_of_mem wellFormed member moves
        exact .moved member (.failed dispatching) rfl

theorem reply_effect {text : String} {answer : Transfer} (wellFormed : WellFormed state.tables)
    (done : reply caller id text world state.tables = .ok (answer, next)) :
    Effect state (.reply caller id text world) next.transfers := by
  unfold reply at done
  obtain ⟨transfer, read, done⟩ := bind_eq_ok.mp done
  obtain ⟨row, member, rfl, rfl, access⟩ := readTransfer_eq_ok read
  simp only [ensure_bind_eq_ok] at done
  obtain ⟨-, -, done⟩ := done
  have columns := wellFormed.columns row member
  split at done
  · obtain ⟨-, result⟩ := ensure_bind_eq_ok.mp done
    rw [pure_eq_ok] at result
    cases result
    exact .kept rfl
  · simp only [storeReply, ensure_bind_eq_ok] at done
    obtain ⟨delivered, answered, done⟩ := done
    obtain ⟨target, -, done⟩ := bind_eq_ok.mp done
    obtain ⟨messaged, inserted, done⟩ := bind_eq_ok.mp done
    obtain ⟨stored, stores, result⟩ := bind_eq_ok.mp done
    rw [pure_eq_ok] at result
    cases result
    rw [columns.state] at delivered stores
    rw [columns.id] at answered
    have active : row.state.isActive = true := by
      rcases delivered with dispatching | queued
      · rw [dispatching]
        rfl
      · rw [queued]
        rfl
    have same := insertMessage_transfers inserted
    obtain ⟨-, rfl⟩ := storeTransfer_eq_ok stores
    refine .moved member (.completed access active answered) ?_
    simp only [same]
    exact update_eq_replaceRow wellFormed member columns.id

end Operations

/-! ## Operations beside the transfers -/

section Beside

variable {tables next : Tables} {caller : Caller} {world : World}

theorem register_transfers {conversation : Conversation}
    (done : register conversation tables = .ok next) : next.transfers = tables.transfers := by
  unfold register at done
  obtain ⟨-, done⟩ := ensure_bind_eq_ok.mp done
  split at done
  · cases pure_eq_ok.mp done
    rfl
  · obtain ⟨-, done⟩ := ensure_bind_eq_ok.mp done
    rw [← pure_eq_ok.mp done]
    split
    · rfl
    · rfl

theorem linkPair_transfers {source target : Uuid} {automatic : Bool}
    (done : linkPair source target automatic tables = .ok next) :
    next.transfers = tables.transfers := by
  unfold linkPair at done
  obtain ⟨⟨⟩, -, done⟩ := bind_eq_ok.mp done
  obtain ⟨⟨⟩, -, done⟩ := bind_eq_ok.mp done
  cases pure_eq_ok.mp done
  rfl

theorem setAvailable_transfers {available : Bool}
    (done : setAvailable caller available tables = .ok next) :
    next.transfers = tables.transfers := by
  unfold setAvailable at done
  obtain ⟨id, -, done⟩ := bind_eq_ok.mp done
  obtain ⟨conversation, -, done⟩ := bind_eq_ok.mp done
  cases pure_eq_ok.mp done
  rfl

theorem record_transfers {id thread : Uuid} {role : MessageRole} {text source : String}
    {message : ConversationMessage}
    (done : record caller id thread role text source world tables = .ok (message, next)) :
    next.transfers = tables.transfers := by
  unfold record at done
  obtain ⟨-, done⟩ := ensure_bind_eq_ok.mp done
  obtain ⟨conversation, -, done⟩ := bind_eq_ok.mp done
  obtain ⟨-, done⟩ := ensure_bind_eq_ok.mp done
  obtain ⟨known, -, done⟩ := bind_eq_ok.mp done
  cases known with
  | some old =>
      obtain ⟨-, done⟩ := ensure_bind_eq_ok.mp done
      cases pure_eq_ok.mp done
      rfl
  | none =>
      obtain ⟨inserted, inserts, done⟩ := bind_eq_ok.mp done
      obtain ⟨read, -, done⟩ := bind_eq_ok.mp done
      obtain ⟨stored, -, done⟩ := bind_eq_ok.mp done
      cases pure_eq_ok.mp done
      exact insertMessage_transfers inserts

end Beside

/-! ## The invariant of the journal -/

/-- The transfer that an approval in flight is about. -/
def Pending.approval : Pending → Option Transfer
  | .approving transfer => some transfer
  | .approved transfer => some transfer
  | _ => none

/-- A transfer that was read while it waited for consent. -/
def Consents (transfers : List TransferRow) (transfer : Transfer) : Prop :=
  (transfer.state = .awaitingApproval ∨ transfer.state = .needsReview) ∧
    ∃ row ∈ transfers, row.data.birth = transfer.birth

structure Invariant (state : State) : Prop where
  wellFormed : WellFormed state.tables
  approvals : ∀ operation ∈ state.pending, ∀ transfer, operation.approval = some transfer →
    Consents state.tables.transfers transfer

theorem Invariant.empty : Invariant .empty := ⟨.empty, by simp [State.empty]⟩

section Steps

variable {codec : Codec} {state : State} {input : Input} {world : World} {tables : Tables}

theorem Resumed.wrote_transfers {next : Tables} {waits : Option Pending}
    (same : next.transfers = tables.transfers) :
    (Resumed.wrote world tables next waits).tables.transfers = tables.transfers := by
  unfold Resumed.wrote
  split
  · exact same
  · rfl

theorem storeApproval_effect {index : Nat} {transfer : Transfer} {next : Tables}
    (wellFormed : WellFormed state.tables)
    (ticket : state.pending[index]? = some (.approved transfer))
    (consents : Consents state.tables.transfers transfer)
    (done : storeApproval state.tables transfer = .ok next) :
    Effect state (.resume index world) next.transfers := by
  unfold storeApproval at done
  obtain ⟨⟨moved, after⟩, moves, result⟩ := bind_eq_ok.mp done
  cases pure_eq_ok.mp result
  obtain ⟨rfl, ⟨row, member, sameId, sameState⟩, rfl⟩ := transition_eq_ok moves
  obtain ⟨waits, first, firstMember, birth⟩ := consents
  have firstId : first.id = transfer.id := by
    rw [← (wellFormed.columns first firstMember).id]
    exact (Transfer.birth_eq birth).1
  cases wellFormed.unique firstMember member (firstId.trans sameId.symm)
  rw [← sameState] at waits ⊢
  exact .moved member (.approved ticket waits birth.symm)
    (update_eq_replaceRow wellFormed member sameId.symm)

theorem resumePending_effect {index : Nat} {operation : Pending} (invariant : Invariant state)
    (ticket : state.pending[index]? = some operation) :
    Effect state (.resume index world)
      (resumePending world state.tables operation).tables.transfers := by
  cases operation with
  | approving transfer =>
      unfold resumePending
      simp only
      split
      · exact .kept rfl
      · exact .kept rfl
  | approved transfer =>
      have consents := invariant.approvals _ (List.mem_of_getElem? ticket) transfer rfl
      unfold resumePending
      simp only
      rcases transact_cases world (fun tables =>
        (storeApproval tables transfer).map fun next => (transfer, next)) state.tables with
        ⟨answer, next, stores, outcome⟩ | ⟨error, outcome⟩
      · rw [outcome]
        cases stored : storeApproval state.tables transfer with
        | error error =>
            rw [stored] at stores
            cases stores
        | ok after =>
            rw [stored] at stores
            cases stores
            exact storeApproval_effect invariant.wellFormed ticket consents stored
      · rw [outcome]
        exact .kept rfl
  | linking source target automatic => exact .kept (Resumed.wrote_transfers rfl)
  | activating id digest => exact .kept (Resumed.wrote_transfers rfl)
  | renewing lease id digest => exact .kept (Resumed.wrote_transfers rfl)
  | expiring => exact .kept (Resumed.wrote_transfers rfl)

theorem begin_tables (loaded : Except StoreError Pending) :
    (begin state loaded).nextState.tables = state.tables := by
  cases loaded with
  | ok operation => rfl
  | error error => rfl

theorem transact_effect {Answer : Type} {body : Tables → Except StoreError (Answer × Tables)}
    {observe : Except StoreError Answer → Observation}
    (effect : ∀ answer next, body state.tables = .ok (answer, next) →
      Effect state input next.transfers) :
    Effect state input
      (state.transacts observe (transact world body state.tables)).nextState.tables.transfers := by
  rcases transact_cases world body state.tables with
    ⟨answer, next, done, outcome⟩ | ⟨error, outcome⟩
  · rw [outcome]
    exact effect answer next done
  · rw [outcome]
    exact .kept rfl

theorem transactUnit_effect {body : Tables → Except StoreError Tables}
    {observe : Except StoreError Unit → Observation}
    (effect : ∀ next, body state.tables = .ok next → Effect state input next.transfers) :
    Effect state input
      (state.transacts observe
        (transactUnit world body state.tables)).nextState.tables.transfers := by
  rcases transactUnit_cases world body state.tables with ⟨next, done, outcome⟩ | ⟨error, outcome⟩
  · rw [outcome]
    exact effect next done
  · rw [outcome]
    exact .kept rfl

theorem next_resume_none {index : Nat} (ticket : state.pending[index]? = none) :
    (machine codec).next state (.resume index world) = state := by
  simp only [Machine.next, machine, step, ticket]

theorem next_resume_some {index : Nat} {operation : Pending}
    (ticket : state.pending[index]? = some operation) :
    (machine codec).next state (.resume index world) =
      (state.resumes index (resumePending world state.tables operation)).nextState := by
  simp only [Machine.next, machine, step, ticket]

theorem step_effect (codec : Codec) (invariant : Invariant state) (input : Input) :
    Effect state input ((machine codec).next state input).tables.transfers := by
  have wellFormed := invariant.wellFormed
  cases input with
  | register conversation world =>
      exact transactUnit_effect fun next done => .kept (register_transfers done)
  | link source target automatic => exact .kept (congrArg Tables.transfers (begin_tables _))
  | linkPair source target automatic world =>
      exact transactUnit_effect fun next done => .kept (linkPair_transfers done)
  | unlink source target world =>
      refine transactUnit_effect fun next done => ?_
      cases done
      refine .withdrawn (.inl ⟨source, target, world, rfl⟩) ?_ rfl
      intro row chosen
      simp only [Bool.and_eq_true] at chosen
      cases held : row.state <;> simp_all
  | activate id token => exact .kept (congrArg Tables.transfers (begin_tables _))
  | revoke id world =>
      refine transactUnit_effect fun next done => ?_
      cases done
      refine .withdrawn (.inr ⟨id, world, rfl⟩) ?_ rfl
      intro row chosen
      exact (Bool.and_eq_true _ _ ▸ chosen).2
  | renewBridge lease id token => exact .kept (congrArg Tables.transfers (begin_tables _))
  | removeBridge lease world =>
      refine transactUnit_effect fun next done => ?_
      cases done
      exact .kept rfl
  | setAvailable caller available world =>
      exact transactUnit_effect fun next done => .kept (setAvailable_transfers done)
  | record caller id thread role text source world =>
      exact transact_effect fun answer next done => .kept (record_transfers done)
  | send caller request prepared world =>
      refine transact_effect fun answer next done => ?_
      rcases sendInner_eq_ok done with ⟨-, rfl⟩ | ⟨row, -, born, appended⟩
      · exact .kept rfl
      · exact .sent rfl born appended
  | approve id => exact .kept (congrArg Tables.transfers (begin_tables _))
  | cancel caller id world =>
      exact transactUnit_effect fun next done => cancel_effect wellFormed done
  | claim id binding world =>
      exact transact_effect fun answer next done => claim_effect wellFormed done
  | deliveryResult id result world =>
      exact transactUnit_effect fun next done => deliveryResult_effect wellFormed done
  | reply caller id text world =>
      exact transact_effect fun answer next done => reply_effect wellFormed done
  | resume index world =>
      cases ticket : state.pending[index]? with
      | none =>
          rw [next_resume_none ticket]
          exact .kept rfl
      | some operation =>
          rw [next_resume_some ticket]
          exact resumePending_effect invariant ticket

end Steps

end TerminalCanvas.Conversations
