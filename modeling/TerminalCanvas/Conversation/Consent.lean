import TerminalCanvas.Conversation.Deliveries

/-! # Consent

What an agent asks for reaches its target over an automatic link, or after the user
approved it, and an agent changes the transfers of its own chat only. -/

namespace TerminalCanvas.Conversations

open Execution Fallible

section Runs

variable (codec : Codec)

/-- The user approved a transfer that was there: its request was read, this binding of
its target was bound to it, and the transfer was stored as pending. -/
def Approved (inputs : List Input) (id binding : Uuid) : Prop :=
  ∃ before asked bound rest index stored world last,
    inputs = before ++ .approve id :: (asked ++ .resume index world ::
      (bound ++ .resume stored last :: rest)) ∧
    (∃ row, (after codec before).tables.transfer id = some row) ∧
    (∃ transfer target,
      (after codec (before ++ .approve id :: asked)).pending[index]? =
        some (.approving transfer) ∧ transfer.id = id ∧
      (after codec (before ++ .approve id :: asked)).tables.conversations.find
        transfer.targetId = some target ∧ target.bindingId = some binding) ∧
    (∃ transfer,
      (after codec (before ++ .approve id :: (asked ++ .resume index world :: bound))).pending[
        stored]? = some (.approved transfer) ∧
      transfer.id = id ∧ transfer.targetBinding = some binding) ∧
    ∃ row,
      (after codec (before ++ .approve id :: (asked ++ .resume index world ::
        (bound ++ [.resume stored last])))).tables.transfer id = some row ∧
      row.state = .pending ∧ row.data.targetBinding = some binding

/-- A send created the transfer while its link was automatic and its target had this
binding, which is also what a reviewed request froze. -/
def SentAutomatically (inputs : List Input) (id source target binding : Uuid) : Prop :=
  ∃ before rest caller request prepared world,
    inputs = before ++ .send caller request prepared world :: rest ∧
    request.operationId = id ∧ request.sourceId = source ∧ request.targetId = target ∧
    (after codec before).tables.transfer id = none ∧
    (∃ row, (after codec (before ++ [.send caller request prepared world])).tables.transfer id =
      some row) ∧
    (after codec before).tables.links.find ⟨source, target⟩ = some true ∧
    (∃ conversation, (after codec before).tables.conversations.find target = some conversation ∧
      conversation.bindingId = some binding) ∧
    ∀ reviewed, prepared = some reviewed → reviewed.targetBinding = some binding

end Runs

section Origins

variable {codec : Codec} {inputs : List Input} {id binding : Uuid}

theorem approving_origin
    (asked : ∃ transfer, .approving transfer ∈ (after codec inputs).pending ∧ transfer.id = id) :
    ∃ before rest, inputs = before ++ .approve id :: rest ∧
      ∃ row, (after codec before).tables.transfer id = some row := by
  obtain ⟨before, input, rest, split, absent, transfer, member, same⟩ := after_origin
    (fun state => ∃ transfer, .approving transfer ∈ state.pending ∧ transfer.id = id)
    (by simp [State.empty]) asked
  have invariant := after_invariant codec before
  cases step_pending invariant.wellFormed codec input member with
  | waited old => exact absurd ⟨transfer, old, same⟩ absent
  | @approving row rowMember consents =>
      have rowId : row.id = id := (invariant.wellFormed.columns row rowMember).id ▸ same
      subst rowId
      exact ⟨before, rest, split, row, invariant.wellFormed.transfer_of_mem rowMember⟩
  | other beside => cases beside

theorem approved_origin
    (bound : ∃ transfer, .approved transfer ∈ (after codec inputs).pending ∧ transfer.id = id ∧
      transfer.targetBinding = some binding) :
    ∃ before index world rest, inputs = before ++ .resume index world :: rest ∧
      ∃ transfer target, (after codec before).pending[index]? = some (.approving transfer) ∧
        transfer.id = id ∧
        (after codec before).tables.conversations.find transfer.targetId = some target ∧
        target.bindingId = some binding := by
  obtain ⟨before, input, rest, split, absent, transfer, member, same, holds⟩ := after_origin
    (fun state => ∃ transfer, .approved transfer ∈ state.pending ∧ transfer.id = id ∧
      transfer.targetBinding = some binding)
    (by simp [State.empty]) bound
  have invariant := after_invariant codec before
  cases step_pending invariant.wellFormed codec input member with
  | waited old => exact absurd ⟨transfer, old, same, holds⟩ absent
  | @bound index world read target ticket found connected =>
      exact ⟨before, index, world, rest, split, read, target, ticket, same, found, holds⟩
  | other beside => cases beside

theorem approved_of_ticket {before rest : List Input} {stored : Nat} {last : World}
    {transfer : Transfer}
    (ticket : (after codec before).pending[stored]? = some (.approved transfer))
    (same : transfer.id = id) (holds : transfer.targetBinding = some binding)
    (approved : ∃ row, ((machine codec).next (after codec before)
        (.resume stored last)).tables.transfer id = some row ∧
      row.state = .pending ∧ row.data.targetBinding = some binding) :
    Approved codec (before ++ .resume stored last :: rest) id binding := by
  obtain ⟨second, index, world, bound, rfl, read, target, approving, readId, found, binds⟩ :=
    approved_origin ⟨transfer, List.mem_of_getElem? ticket, same, holds⟩
  obtain ⟨first, asked, rfl, row, known⟩ :=
    approving_origin ⟨read, List.mem_of_getElem? approving, readId⟩
  refine ⟨first, asked, bound, rest, index, stored, world, last, by simp, ⟨row, known⟩,
    ⟨read, target, approving, readId, found, binds⟩, ⟨transfer, ?_, same, holds⟩, ?_⟩
  · rw [← ticket]
    simp
  · rw [← after_snoc] at approved
    simpa using approved

/-- A pending request of an agent. -/
def Consented (id source target binding : Uuid) (state : State) : Prop :=
  ∃ row ∈ state.tables.transfers, row.id = id ∧ row.source = source ∧ row.target = target ∧
    row.state = .pending ∧ row.data.requestedByAgent = true ∧
    row.data.targetBinding = some binding

theorem Born.automatic {tables : Tables} {caller : Caller} {request : SendRequest}
    {prepared : Option PreparedSend} {row : TransferRow}
    (born : Born tables caller request prepared row) (pending : row.state = .pending)
    (agent : row.data.requestedByAgent = true) :
    tables.links.find ⟨row.source, row.target⟩ = some true := by
  obtain ⟨automatic, delivery, state⟩ := born.state
  rw [pending] at state
  cases automatic with
  | false => cases state
  | true =>
      rw [born.agent] at agent
      obtain ⟨own, isAgent⟩ := Option.isSome_iff_exists.mp agent
      unfold automaticDelivery at delivery
      rw [isAgent] at delivery
      rw [born.source, born.target]
      exact require_eq_ok.mp delivery

theorem Move.pending {state : State} {input : Input} {row : TransferRow} {data : Transfer}
    (move : Move state input row data) (pending : data.state = .pending) :
    ∃ index world transfer, input = .resume index world ∧
      state.pending[index]? = some (.approved transfer) ∧
      transfer.birth = row.data.birth ∧ data.targetBinding = transfer.targetBinding := by
  cases move with
  | @approved _ index world transfer ticket consents birth =>
      exact ⟨index, world, transfer, rfl, ticket, birth, rfl⟩
  | cancelled _ _ => cases pending
  | refused _ => cases pending
  | reviewed _ => cases pending
  | dispatched _ => cases pending
  | queued _ => cases pending
  | failed _ => cases pending
  | completed _ _ _ => cases pending

theorem consented_origin {source target : Uuid}
    (pending : Consented id source target binding (after codec inputs)) :
    SentAutomatically codec inputs id source target binding ∨ Approved codec inputs id binding := by
  obtain ⟨before, input, rest, split, absent, row, member, rfl, rfl, rfl, waits, agent, holds⟩ :=
    after_origin (Consented id source target binding) (by rintro ⟨row, member, _⟩; cases member)
      pending
  have invariant := after_invariant codec before
  have found := (invariant.next codec input).wellFormed.transfer_of_mem member
  have known : ∀ old ∈ (after codec before).tables.transfers, old ≠ row := by
    rintro old oldMember rfl
    exact absent ⟨old, oldMember, rfl, rfl, rfl, waits, agent, holds⟩
  cases effect : step_effect codec invariant input with
  | kept same =>
      rw [same] at member
      exact absurd rfl (known row member)
  | @sent caller request prepared world sent isSend born appended =>
      rw [appended] at member
      rcases List.mem_append.mp member with old | new
      · exact absurd rfl (known row old)
      · cases List.mem_singleton.mp new
        left
        obtain ⟨own, conversation, -, authorized, -, binds, reviewed⟩ := born.ends
        rw [holds] at binds
        subst isSend
        refine ⟨before, rest, caller, request, prepared, world, split, born.id.symm,
          born.source.symm, born.target.symm, Tables.transfer_eq_none.mpr born.fresh, ⟨row, ?_⟩,
          born.automatic waits agent, ⟨conversation, authorized.found, binds.symm⟩, ?_⟩
        · rw [after_snoc]
          exact found
        · intro frozen isFrozen
          rw [reviewed frozen isFrozen, ← binds]
  | @moved moving data moves move result =>
      rw [result] at member
      rcases mem_replaceRow.mp member with ⟨old, -⟩ | ⟨-, rfl⟩
      · exact absurd rfl (known row old)
      · right
        obtain ⟨index, world, transfer, rfl, ticket, birth, bound⟩ := move.pending waits
        have sameId : transfer.id = moving.id :=
          (Transfer.birth_eq birth).1.trans (invariant.wellFormed.columns moving moves).id
        rw [split]
        exact approved_of_ticket ticket sameId (bound.symm.trans holds)
          ⟨moving.withData data, found, waits, holds⟩
  | withdrawn _ _ result =>
      rw [result] at member
      obtain ⟨old, oldMember, equal⟩ := mem_withdraw.mp member
      split at equal
      · rw [equal] at waits
        cases waits
      · exact absurd equal.symm (known old oldMember)

end Origins

/-! ## What an agent can do -/

/-- Who asks for an operation that names its caller. -/
def Input.caller : Input → Option Caller
  | .setAvailable caller _ _ => some caller
  | .record caller _ _ _ _ _ _ => some caller
  | .send caller _ _ _ => some caller
  | .cancel caller _ _ => some caller
  | .reply caller _ _ _ => some caller
  | _ => none

section Agents

variable {state : State} {input : Input} {caller : Caller} {agent : Uuid}

theorem Born.reaches {tables : Tables} {request : SendRequest} {prepared : Option PreparedSend}
    {row : TransferRow} (born : Born tables caller request prepared row)
    (isAgent : caller.agentId = some agent) :
    row.source = agent ∧ linked tables agent row.target = true ∧
      ∃ own target, tables.conversations.find agent = some own ∧
        tables.conversations.find row.target = some target ∧
        own.workspaceId = target.workspaceId := by
  have source := born.own agent isAgent
  obtain ⟨-, target, -, authorized, -, -, -⟩ := born.ends
  obtain ⟨own, known, sameWorkspace, reaches, -⟩ := authorized.scope agent isAgent
  refine ⟨source.symm, ?_, own, target, known, authorized.found, sameWorkspace⟩
  rcases reaches with same | link
  · exact absurd (source.symm.trans same) born.distinct
  · exact link

theorem Move.ends {row : TransferRow} {data : Transfer} (columns : Columns row)
    (move : Move state input row data) (asks : input.caller = some caller)
    (isAgent : caller.agentId = some agent) : agent = row.source ∨ agent = row.target := by
  cases move with
  | cancelled access _ =>
      cases asks
      rw [← columns.source, ← columns.target]
      exact checkTransferAccess_agent access isAgent
  | completed access _ _ =>
      cases asks
      rw [← columns.source, ← columns.target]
      exact checkTransferAccess_agent access isAgent
  | approved _ _ _ => cases asks
  | refused _ => cases asks
  | reviewed _ => cases asks
  | dispatched _ => cases asks
  | queued _ => cases asks
  | failed _ => cases asks

/-- The step of an agent: what it creates starts at the agent, and the transfers of
others stay as they are. -/
theorem step_of_agent (codec : Codec) (invariant : Invariant state)
    (asks : input.caller = some caller) (isAgent : caller.agentId = some agent) :
    (∀ row ∈ ((machine codec).next state input).tables.transfers,
      (∀ old ∈ state.tables.transfers, old.id ≠ row.id) →
        row.source = agent ∧ linked state.tables agent row.target = true ∧
        ∃ own target, state.tables.conversations.find agent = some own ∧
          state.tables.conversations.find row.target = some target ∧
          own.workspaceId = target.workspaceId) ∧
    (∀ row ∈ state.tables.transfers, agent ≠ row.source → agent ≠ row.target →
      row ∈ ((machine codec).next state input).tables.transfers) := by
  cases step_effect codec invariant input with
  | kept same =>
      rw [same]
      exact ⟨fun row member fresh => absurd rfl (fresh row member), fun row member _ _ => member⟩
  | sent isSend born appended =>
      rw [appended]
      subst isSend
      cases asks
      refine ⟨?_, fun row member _ _ => List.mem_append_left _ member⟩
      intro row member fresh
      rcases List.mem_append.mp member with old | new
      · exact absurd rfl (fresh row old)
      · cases List.mem_singleton.mp new
        exact born.reaches isAgent
  | moved moves move result =>
      rw [result]
      refine ⟨?_, ?_⟩
      · intro row member fresh
        rcases mem_replaceRow.mp member with ⟨old, -⟩ | ⟨old, rfl⟩
        · exact absurd rfl (fresh row old)
        · exact (fresh _ old rfl).elim
      · intro row member notSource notTarget
        refine mem_replaceRow.mpr (.inl ⟨member, ?_⟩)
        rintro rfl
        rcases move.ends (invariant.wellFormed.columns row moves) asks isAgent with source | target
        · exact notSource source
        · exact notTarget target
  | withdrawn revokes _ _ =>
      rcases revokes with ⟨source, target, world, rfl⟩ | ⟨id, world, rfl⟩
      · cases asks
      · cases asks

end Agents

theorem reviewReason_eq_none {transfer : Transfer} {target : Conversation} {binding : Uuid}
    (nothing : reviewReason transfer target binding = none) :
    target.bindingId = some binding ∧ transfer.targetBinding = some binding := by
  unfold reviewReason at nothing
  split at nothing
  · cases nothing
  · split at nothing
    · cases nothing
    · next unchanged => simpa using unchanged

/-- What a claim returns of an agent's requests has its link, its credential, its
binding and its consent; and an agent creates transfers of its own to chats it is
linked to, and leaves the transfers of others alone. -/
theorem nothing_without_consent (codec : Codec) (inputs : List Input) (input : Input) :
    (∀ transfer, (machine codec).observe (after codec inputs) input =
          .claimed (.ok (some transfer)) → transfer.requestedByAgent = true →
      linked (after codec inputs).tables transfer.sourceId transfer.targetId = true ∧
      (enabledDigest (after codec inputs).tables transfer.sourceId).isSome = true ∧
      ∃ target binding,
        (after codec inputs).tables.conversations.find transfer.targetId = some target ∧
        target.bindingId = some binding ∧ transfer.targetBinding = some binding ∧
        (SentAutomatically codec inputs transfer.id transfer.sourceId transfer.targetId binding ∨
          Approved codec inputs transfer.id binding)) ∧
    (∀ caller agent, input.caller = some caller → caller.agentId = some agent →
      (∀ row ∈ (after codec (inputs ++ [input])).tables.transfers,
        (after codec inputs).tables.transfer row.id = none →
          row.source = agent ∧ linked (after codec inputs).tables agent row.target = true ∧
          ∃ own target, (after codec inputs).tables.conversations.find agent = some own ∧
            (after codec inputs).tables.conversations.find row.target = some target ∧
            own.workspaceId = target.workspaceId) ∧
      (∀ row ∈ (after codec inputs).tables.transfers, agent ≠ row.source → agent ≠ row.target →
        row ∈ (after codec (inputs ++ [input])).tables.transfers)) := by
  have invariant := after_invariant codec inputs
  constructor
  · intro transfer observed agent
    have claimed : claims codec transfer.id (after codec inputs, input) = true := by
      simp [claims, observed]
    obtain ⟨binding, world, rfl, row, member, -, deliverable, answer, -⟩ :=
      claims_eq_true invariant.wellFormed claimed
    rw [observed] at answer
    cases answer
    have columns := invariant.wellFormed.columns row member
    obtain ⟨target, found, unchanged⟩ := deliverable.unchanged
    obtain ⟨bound, holds⟩ := reviewReason_eq_none unchanged
    have permission := deliverable.permitted
    have asked : row.data.requestedByAgent = true := agent
    simp only [permitted, asked, Bool.not_true, Bool.false_or, Bool.and_eq_true] at permission
    have pending : Consented row.data.id row.data.sourceId row.data.targetId binding
        (after codec inputs) :=
      ⟨row, member, columns.id.symm, columns.source.symm, columns.target.symm,
        deliverable.pending, agent, holds⟩
    rw [← columns.target] at found
    exact ⟨permission.1, permission.2, target, binding, found, bound, holds,
      consented_origin pending⟩
  · intro caller agent asks isAgent
    obtain ⟨created, others⟩ := step_of_agent codec invariant asks isAgent
    rw [after_snoc]
    refine ⟨?_, others⟩
    intro row member fresh
    exact created row member (Tables.transfer_eq_none.mp fresh)

end TerminalCanvas.Conversations
