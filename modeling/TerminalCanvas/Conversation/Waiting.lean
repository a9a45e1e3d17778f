import TerminalCanvas.Conversation.Delegation
import TerminalCanvas.Foundation.Acyclic

/-! # Conversations that wait for each other

A conversation waits for the targets of the open delegations it made. -/

namespace TerminalCanvas.Conversations

open Execution Acyclicity Relation

/-- The conversation answers a transfer with an open child to the other one. -/
def Waits (transfers : List TransferRow) (waiting other : Uuid) : Prop :=
  ∃ parent ∈ transfers, ∃ child ∈ transfers, parent.target = waiting ∧
    parent.state.isActive = true ∧ ChildOf child parent ∧ child.target = other ∧
    child.state.isTerminal = false

/-- A step whose new delegation goes to a conversation that already waits for the
sender, itself or through others. -/
def ClosesCircle (codec : Codec) (state : State) (input : Input) : Prop :=
  ∃ child ∈ ((machine codec).next state input).tables.transfers,
    state.tables.transfer child.id = none ∧ child.data.parentId.isSome = true ∧
    ReflTransGen (Waits state.tables.transfers) child.target child.source

namespace TransferState

theorem isTerminal_of_reaches {state later : TransferState} (waits : later.isTerminal = false)
    (reaches : state.reaches later = true) : state.isTerminal = false := by
  revert waits reaches
  cases state <;> cases later <;> decide

end TransferState

section Steps

variable {state : State} {input : Input} {transfers : List TransferRow}

theorem Move.active_of_parent {row : TransferRow} {data : Transfer}
    (move : Move state input row data) (claimed : row.state.isClaimed = true)
    (active : data.state.isActive = true) : row.state.isActive = true := by
  rcases move.active active with before | ⟨binding, deliverable⟩
  · exact before
  · rw [deliverable.pending] at claimed
    cases claimed

theorem Move.waits {row : TransferRow} {data : Transfer} {waiting other : Uuid}
    (answered : Answered state.tables.transfers) (member : row ∈ state.tables.transfers)
    (move : Move state input row data)
    (waits : Waits (replaceRow state.tables.transfers row data) waiting other) :
    Waits state.tables.transfers waiting other := by
  obtain ⟨parent, parentMember, child, childMember, target, active, link, ends, open'⟩ := waits
  have birth := Transfer.birth_eq move.birth
  -- the rows that stand behind the parent and the child
  have childBefore : ∃ before ∈ state.tables.transfers, before.target = child.target ∧
      before.data.parentId = child.data.parentId ∧ before.state.isTerminal = false := by
    rcases mem_replaceRow.mp childMember with ⟨old, -⟩ | ⟨-, rfl⟩
    · exact ⟨child, old, rfl, rfl, open'⟩
    · exact ⟨row, member, rfl, birth.2.2.2.1.symm,
        TransferState.isTerminal_of_reaches open' move.reaches⟩
  obtain ⟨before, beforeMember, sameTarget, sameParent, waitsBefore⟩ := childBefore
  have linked : before.data.parentId = some parent.id := sameParent.trans link
  rcases mem_replaceRow.mp parentMember with ⟨old, -⟩ | ⟨-, rfl⟩
  · exact ⟨parent, old, before, beforeMember, target, active, linked, sameTarget.trans ends,
      waitsBefore⟩
  · obtain ⟨claimed, -⟩ := answered before beforeMember row member linked
    exact ⟨row, member, before, beforeMember, target, move.active_of_parent claimed active, linked,
      sameTarget.trans ends, waitsBefore⟩

theorem withdraw_waits {chosen : TransferRow → Bool} {error : String} {waiting other : Uuid}
    (waits : Waits (withdraw transfers chosen error) waiting other) :
    Waits transfers waiting other := by
  obtain ⟨parent, parentMember, child, childMember, target, active, link, ends, open'⟩ := waits
  obtain ⟨parentBefore, parentOld, rfl⟩ := mem_withdraw.mp parentMember
  obtain ⟨childBefore, childOld, rfl⟩ := mem_withdraw.mp childMember
  split at active
  · cases active
  · next kept =>
      rw [if_neg kept] at target link
      split at open'
      · cases open'
      · next childKept =>
          rw [if_neg childKept] at link ends
          exact ⟨parentBefore, parentOld, childBefore, childOld, target, active, link, ends, open'⟩

theorem Born.waiting {tables : Tables} {caller : Caller} {request : SendRequest}
    {prepared : Option PreparedSend} {row : TransferRow}
    (born : Born tables caller request prepared row) :
    row.state.isActive = false ∧ row.state.isTerminal = false := by
  obtain ⟨automatic, -, state⟩ := born.state
  rw [state]
  cases automatic with
  | false => exact ⟨rfl, rfl⟩
  | true => exact ⟨rfl, rfl⟩

theorem Born.waits_iff {tables : Tables} {caller : Caller} {request : SendRequest}
    {prepared : Option PreparedSend} {row : TransferRow} (wellFormed : WellFormed tables)
    (born : Born tables caller request prepared row) (waiting other : Uuid) :
    Waits (tables.transfers ++ [row]) waiting other ↔ Waits tables.transfers waiting other ∨
      (row.data.parentId.isSome = true ∧ waiting = row.source ∧ other = row.target) := by
  obtain ⟨notActive, notTerminal⟩ := born.waiting
  constructor
  · rintro ⟨parent, parentMember, child, childMember, target, active, link, ends, open'⟩
    rcases List.mem_append.mp parentMember with old | new
    · rcases List.mem_append.mp childMember with childOld | childNew
      · exact .inl ⟨parent, old, child, childOld, target, active, link, ends, open'⟩
      · cases List.mem_singleton.mp childNew
        obtain ⟨answering, member, sameId, -, agent⟩ :=
          parentOf_eq_some (born.parent.symm.trans link)
        cases wellFormed.unique member old sameId
        exact .inr ⟨by rw [show row.data.parentId = _ from link]; rfl,
          target.symm.trans (born.own _ agent), ends.symm⟩
    · rw [List.mem_singleton.mp new, notActive] at active
      cases active
  · rintro (⟨parent, parentMember, child, childMember, waits⟩ | ⟨delegated, rfl, rfl⟩)
    · exact ⟨parent, List.mem_append_left _ parentMember, child,
        List.mem_append_left _ childMember, waits⟩
    · obtain ⟨id, link⟩ := Option.isSome_iff_exists.mp delegated
      obtain ⟨parent, member, rfl, active, agent⟩ :=
        parentOf_eq_some (born.parent.symm.trans link)
      exact ⟨parent, List.mem_append_left _ member, row,
        List.mem_append_right _ (List.mem_singleton.mpr rfl), born.own _ agent, active, link, rfl,
        notTerminal⟩

theorem not_closesCircle {codec : Codec}
    (same : ((machine codec).next state input).tables.transfers.map (·.id) =
      state.tables.transfers.map (·.id)) : ¬ ClosesCircle codec state input := by
  rintro ⟨child, member, fresh, -, -⟩
  have known : child.id ∈ state.tables.transfers.map (·.id) := by
    rw [← same]
    exact List.mem_map_of_mem member
  obtain ⟨old, oldMember, sameId⟩ := List.mem_map.mp known
  exact Tables.transfer_eq_none.mp fresh old oldMember sameId

/-- From a state without circles a step leads to one without circles exactly when it
closes none. -/
theorem step_acyclic_iff (codec : Codec) (delegations : Delegations state) (input : Input)
    (acyclic : Acyclic (Waits state.tables.transfers)) :
    Acyclic (Waits ((machine codec).next state input).tables.transfers) ↔
      ¬ ClosesCircle codec state input := by
  have wellFormed := delegations.invariant.wellFormed
  cases step_effect codec delegations.invariant input with
  | kept same =>
      refine iff_of_true (by rw [same]; exact acyclic) (not_closesCircle (by rw [same]))
  | moved moves move result =>
      refine iff_of_true ?_ (not_closesCircle (by rw [result, replaceRow_ids]))
      rw [result]
      exact acyclic.mono fun _ _ => move.waits delegations.answered moves
  | withdrawn _ _ result =>
      refine iff_of_true ?_ (not_closesCircle (by rw [result, withdraw_ids]))
      rw [result]
      exact acyclic.mono fun _ _ => withdraw_waits
  | @sent caller request prepared world row _ born appended =>
      have waits := born.waits_iff wellFormed
      have created : ClosesCircle codec state input ↔ row.data.parentId.isSome = true ∧
          ReflTransGen (Waits state.tables.transfers) row.target row.source := by
        unfold ClosesCircle
        rw [appended]
        constructor
        · rintro ⟨child, member, fresh, delegated, back⟩
          rcases List.mem_append.mp member with old | new
          · exact absurd rfl (Tables.transfer_eq_none.mp fresh child old)
          · cases List.mem_singleton.mp new
            exact ⟨delegated, back⟩
        · rintro ⟨delegated, back⟩
          exact ⟨row, List.mem_append_right _ (List.mem_singleton.mpr rfl),
            Tables.transfer_eq_none.mpr born.fresh, delegated, back⟩
      rw [created, appended]
      by_cases delegated : row.data.parentId.isSome = true
      · have edges : Waits (state.tables.transfers ++ [row]) =
            WithEdge (Waits state.tables.transfers) row.source row.target := by
          funext waiting other
          exact propext ((waits waiting other).trans (by simp [delegated, WithEdge]))
        rw [edges, acyclic_withEdge acyclic]
        simp [delegated]
      · refine iff_of_true ?_ (fun closes => delegated closes.1)
        refine acyclic.mono fun waiting other waitsNew => ?_
        rcases (waits waiting other).mp waitsNew with old | ⟨isDelegated, -⟩
        · exact old
        · exact absurd isDelegated delegated

end Steps

/-! ## Runs without circles -/

/-- Without circles, whenever a transfer is active there is an active transfer each of
whose open children goes to a conversation that waits for nothing. -/
theorem exists_unblocked {transfers : List TransferRow} (acyclic : Acyclic (Waits transfers))
    {row : TransferRow} (member : row ∈ transfers) (active : row.state.isActive = true) :
    ∃ answering ∈ transfers, answering.state.isActive = true ∧
      ∀ child ∈ transfers, ChildOf child answering → child.state.isTerminal = false →
        ∀ other, ¬ Waits transfers child.target other := by
  by_cases open' : ∃ other, Waits transfers row.target other
  · obtain ⟨other, waits⟩ := open'
    have listed : ∀ waiting, ReflTransGen (Waits transfers) row.target waiting →
        (∃ other, Waits transfers waiting other) → waiting ∈ transfers.map (·.target) := by
      rintro waiting - ⟨other, parent, parentMember, -, -, rfl, -⟩
      exact List.mem_map_of_mem parentMember
    obtain ⟨waiting, final, ⟨parent, parentMember, child, childMember, rfl, busy, link, rest⟩,
      last⟩ := exists_last acyclic listed waits
    refine ⟨parent, parentMember, busy, ?_⟩
    intro next nextMember nextLink nextOpen
    exact last next.target ⟨parent, parentMember, next, nextMember, rfl, busy, nextLink, rfl,
      nextOpen⟩
  · refine ⟨row, member, active, ?_⟩
    intro child childMember link childOpen
    exact absurd ⟨child.target, row, member, child, childMember, rfl, active, link, rfl, childOpen⟩
      open'

/-- Conversations do not wait in a circle while no delegation closes one, and one that
closes a circle is all it takes. -/
theorem delegations_wait_acyclically (codec : Codec) (inputs : List Input) :
    ((machine codec).Admits (fun state input => ¬ ClosesCircle codec state input) .empty inputs →
      Acyclic (Waits (after codec inputs).tables.transfers) ∧
      ∀ row ∈ (after codec inputs).tables.transfers, row.state.isActive = true →
        ∃ answering ∈ (after codec inputs).tables.transfers, answering.state.isActive = true ∧
          ∀ child ∈ (after codec inputs).tables.transfers, ChildOf child answering →
            child.state.isTerminal = false →
            ∀ other, ¬ Waits (after codec inputs).tables.transfers child.target other) ∧
    (Acyclic (Waits (after codec inputs).tables.transfers) → ∀ input,
      (Acyclic (Waits (after codec (inputs ++ [input])).tables.transfers) ↔
        ¬ ClosesCircle codec (after codec inputs) input)) := by
  constructor
  · intro admitted
    have holds := Machine.Admits.invariant (machine codec) admitted
      (fun state => Delegations state ∧ Acyclic (Waits state.tables.transfers)) ?_ ⟨.empty, ?_⟩
    · exact ⟨holds.2, fun row member active => exists_unblocked holds.2 member active⟩
    · rintro state input apart ⟨delegations, acyclic⟩
      exact ⟨delegations.next codec input,
        (step_acyclic_iff codec delegations input acyclic).mpr apart⟩
    · intro conversation circle
      obtain ⟨-, ⟨parent, member, -⟩, -⟩ := TransGen.head'_iff.mp circle
      cases member
  · intro acyclic input
    rw [after_snoc]
    exact step_acyclic_iff codec (after_delegations codec inputs) input acyclic

open Scenario

/-- Two chains with different roots, one through each of two conversations. -/
private def crossed : List Input :=
  connected 3 ++ connected 4 ++ connected 5 ++ linkedTo 4 5 ++ linkedTo 5 4 ++
    [sends .user 10 3 4, claimed 10, sends .user 11 3 5, claimed 11,
      sends (.agent (uuid 4)) 12 4 5, sends (.agent (uuid 5)) 13 5 4]

instance (transfers : List TransferRow) (waiting other : Uuid) :
    Decidable (Waits transfers waiting other) :=
  inferInstanceAs (Decidable (∃ parent ∈ transfers, ∃ child ∈ transfers, _ ∧ _))

/-- Two conversations can wait for each other. -/
theorem circle_of_two_chains : ¬ ∀ (codec : Codec) (inputs : List Input),
    Acyclic (Waits (after codec inputs).tables.transfers) := by
  intro claim
  have forth : Waits (after plainCodec crossed).tables.transfers (uuid 4) (uuid 5) := by
    decide +kernel
  have back : Waits (after plainCodec crossed).tables.transfers (uuid 5) (uuid 4) := by
    decide +kernel
  exact claim plainCodec crossed (uuid 4) (.head forth (.single back))

end TerminalCanvas.Conversations
