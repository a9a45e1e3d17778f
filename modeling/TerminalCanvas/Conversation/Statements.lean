import TerminalCanvas.Conversation.Journal

/-! # What the statements of the journal do

Lookups, checks and updates that succeed, one lemma each. -/

namespace TerminalCanvas.Conversations

open Fallible

/-! ## Well-formed tables -/

/-- The columns of a row repeat what its data says. -/
structure Columns (row : TransferRow) : Prop where
  id : row.data.id = row.id
  source : row.data.sourceId = row.source
  target : row.data.targetId = row.target
  state : row.data.state = row.state

structure WellFormed (tables : Tables) : Prop where
  ids : (tables.transfers.map (·.id)).Nodup
  columns : ∀ row ∈ tables.transfers, Columns row

theorem WellFormed.empty : WellFormed .empty := ⟨List.nodup_nil, by simp [Tables.empty]⟩

section Lookups

variable {tables : Tables} {row other : TransferRow} {id : Uuid}

theorem Tables.transfer_eq_some (found : tables.transfer id = some row) :
    row ∈ tables.transfers ∧ row.id = id :=
  ⟨List.mem_of_find?_eq_some found, by simpa using List.find?_some found⟩

theorem Tables.transfer_eq_none :
    tables.transfer id = none ↔ ∀ row ∈ tables.transfers, row.id ≠ id := by
  simp [Tables.transfer]

theorem WellFormed.unique (wellFormed : WellFormed tables) (member : row ∈ tables.transfers)
    (also : other ∈ tables.transfers) (same : row.id = other.id) : row = other :=
  List.inj_on_of_nodup_map wellFormed.ids member also same

theorem WellFormed.transfer_of_mem (wellFormed : WellFormed tables)
    (member : row ∈ tables.transfers) : tables.transfer row.id = some row := by
  cases found : tables.transfer row.id with
  | none => exact absurd rfl (Tables.transfer_eq_none.mp found row member)
  | some other =>
      obtain ⟨also, same⟩ := Tables.transfer_eq_some found
      rw [wellFormed.unique also member same]

theorem readTransfer_eq_ok {caller : Caller} {transfer : Transfer}
    (read : readTransfer tables caller id = .ok transfer) :
    ∃ row ∈ tables.transfers, row.id = id ∧ row.data = transfer ∧
      checkTransferAccess tables caller transfer = .ok () := by
  unfold readTransfer at read
  obtain ⟨row, found, rest⟩ := bind_eq_ok.mp read
  obtain ⟨⟨⟩, access, data⟩ := bind_eq_ok.mp rest
  rw [pure_eq_ok] at data
  obtain ⟨member, same⟩ := Tables.transfer_eq_some (require_eq_ok.mp found)
  exact ⟨row, member, same, data, data ▸ access⟩

theorem checkTransferAccess_agent {caller : Caller} {transfer : Transfer} {own : Uuid}
    (access : checkTransferAccess tables caller transfer = .ok ())
    (agent : caller.agentId = some own) : own = transfer.sourceId ∨ own = transfer.targetId := by
  simp only [checkTransferAccess, agent] at access
  obtain ⟨_, _, ends⟩ := bind_eq_ok.mp access
  exact ensure_eq_ok.mp ends

/-- What an authorized caller knows of a conversation. -/
structure Authorized (tables : Tables) (caller : Caller) (target : Uuid)
    (conversation : Conversation) : Prop where
  found : tables.conversations.find target = some conversation
  scope : ∀ own, caller.agentId = some own → ∃ ownConversation,
    tables.conversations.find own = some ownConversation ∧
    ownConversation.workspaceId = conversation.workspaceId ∧
    (own = target ∨ linked tables own target = true) ∧ (enabledDigest tables own).isSome = true

theorem authorize_eq_ok {caller : Caller} {target : Uuid} {conversation : Conversation}
    (authorized : authorize tables caller target = .ok conversation) :
    Authorized tables caller target conversation := by
  simp only [authorize, bind_eq_ok, require_eq_ok] at authorized
  obtain ⟨found, present, reached⟩ := authorized
  split at reached
  · next user =>
      cases reached
      exact ⟨present, fun own agent => by rw [user] at agent; cases agent⟩
  · next source agent =>
      simp only [checkScope, checkCredential, bind_eq_ok, require_eq_ok, ensure_eq_ok,
        pure_eq_ok] at reached
      obtain ⟨_, ⟨_, ⟨digest, enabled, -⟩, own, known, sameWorkspace, reaches⟩, rfl⟩ := reached
      refine ⟨present, fun other same => ?_⟩
      rw [agent, Option.some.injEq] at same
      subst same
      exact ⟨own, known, sameWorkspace, reaches, by rw [enabled]; rfl⟩

end Lookups

/-! ## Updates -/

section Updates

variable {tables next : Tables} {row : TransferRow} {data : Transfer}

def TransferRow.withData (row : TransferRow) (data : Transfer) : TransferRow :=
  { row with state := data.state, data := data }

def replaceRow (transfers : List TransferRow) (row : TransferRow) (data : Transfer) :
    List TransferRow :=
  transfers.map fun other => if other = row then row.withData data else other

theorem storeTransfer_eq_ok {previous : TransferState} {otherwise : String}
    (stored : storeTransfer tables previous data otherwise = .ok next) :
    (∃ row ∈ tables.transfers, row.id = data.id ∧ row.state = previous) ∧
      next = { tables with transfers := update tables.transfers previous data } := by
  simp only [storeTransfer, ensure_bind_eq_ok, pure_eq_ok] at stored
  obtain ⟨once, rfl⟩ := stored
  refine ⟨?_, rfl⟩
  have positive : 0 < tables.transfers.countP (updates previous data) := by omega
  obtain ⟨row, member, chosen⟩ := List.countP_pos_iff.mp positive
  simp only [updates, Bool.and_eq_true, decide_eq_true_eq] at chosen
  exact ⟨row, member, chosen⟩

theorem transition_eq_ok {transfer moved : Transfer} {state : TransferState}
    {error : Option String} (done : transition tables transfer state error = .ok (moved, next)) :
    moved = { transfer with state := state, error := error } ∧
      (∃ row ∈ tables.transfers, row.id = transfer.id ∧ row.state = transfer.state) ∧
      next = { tables with transfers := update tables.transfers transfer.state moved } := by
  simp only [transition, bind_eq_ok, pure_eq_ok, Prod.mk.injEq] at done
  obtain ⟨_, stored, rfl, rfl⟩ := done
  exact ⟨rfl, storeTransfer_eq_ok stored⟩

theorem update_eq_replaceRow (wellFormed : WellFormed tables) (member : row ∈ tables.transfers)
    (same : data.id = row.id) :
    update tables.transfers row.state data = replaceRow tables.transfers row data := by
  apply List.map_congr_left
  intro other also
  by_cases equal : other = row
  · rw [if_pos equal, equal, if_pos (by simp [updates, same])]
    rfl
  · rw [if_neg equal, if_neg]
    simp only [updates, Bool.and_eq_true, decide_eq_true_eq, not_and]
    intro sameId
    exact absurd (wellFormed.unique also member (sameId.trans same)) equal

theorem transition_of_mem (wellFormed : WellFormed tables) (member : row ∈ tables.transfers)
    {moved : Transfer} {state : TransferState} {error : Option String}
    (done : transition tables row.data state error = .ok (moved, next)) :
    moved = { row.data with state := state, error := error } ∧
      next = { tables with transfers := replaceRow tables.transfers row moved } := by
  obtain ⟨equal, -, rfl⟩ := transition_eq_ok done
  have columns := wellFormed.columns row member
  have same : moved.id = row.id := by
    rw [equal]
    exact columns.id
  exact ⟨equal, by rw [columns.state, update_eq_replaceRow wellFormed member same]⟩

theorem insertMessage_transfers {id conversationId : Uuid} {role : MessageRole}
    {text source : String} {createdAt : Int} {origin : MessageOrigin}
    (inserted : insertMessage tables id conversationId role text source createdAt origin =
      .ok next) :
    next.transfers = tables.transfers := by
  simp only [insertMessage, ensure_bind_eq_ok, pure_eq_ok] at inserted
  obtain ⟨-, rfl⟩ := inserted
  rfl

end Updates

/-! ## Transactions -/

theorem transact_cases {Answer : Type} (world : World)
    (body : Tables → Except StoreError (Answer × Tables)) (tables : Tables) :
    (∃ answer next, body tables = .ok (answer, next) ∧
        transact world body tables = (.ok answer, next)) ∨
      ∃ error, transact world body tables = (.error error, tables) := by
  unfold transact
  split
  · next error _ => exact .inr ⟨error, rfl⟩
  · next answer next result =>
      split
      · exact .inl ⟨answer, next, result, rfl⟩
      · exact .inr ⟨.busy, rfl⟩

theorem transactUnit_cases (world : World) (body : Tables → Except StoreError Tables)
    (tables : Tables) :
    (∃ next, body tables = .ok next ∧ transactUnit world body tables = (.ok (), next)) ∨
      ∃ error, transactUnit world body tables = (.error error, tables) := by
  rcases transact_cases world (fun tables => (body tables).map fun next => ((), next)) tables with
    ⟨⟨⟩, next, result, outcome⟩ | ⟨error, outcome⟩
  · left
    refine ⟨next, ?_, outcome⟩
    cases ran : body tables with
    | error error =>
        rw [ran] at result
        cases result
    | ok done =>
        rw [ran] at result
        cases result
        rfl
  · exact .inr ⟨error, outcome⟩

end TerminalCanvas.Conversations
