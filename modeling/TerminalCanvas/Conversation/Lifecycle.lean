import TerminalCanvas.Conversation.Effects

/-! # The life of a transfer

Its state only advances, its birth never changes, and it stays in the journal. -/

namespace TerminalCanvas.Conversations

open Execution

/-! ## The order of the states -/

namespace TransferState

/-- What a state may have become later. -/
def reaches : TransferState → TransferState → Bool
  | awaitingApproval, _ => true
  | pending, later => later ≠ awaitingApproval
  | needsReview, later => later ≠ awaitingApproval
  | dispatching, later =>
      (later matches dispatching | inputQueued | failed | completed | cancelled)
  | inputQueued, later => (later matches inputQueued | completed)
  | failed, later => (later matches failed | cancelled)
  | completed, later => later = completed
  | cancelled, later => later = cancelled

@[simp] theorem reaches_refl (state : TransferState) : state.reaches state = true := by
  cases state <;> rfl

theorem reaches_trans {first second third : TransferState} (one : first.reaches second = true)
    (two : second.reaches third = true) : first.reaches third = true := by
  revert one two
  cases first <;> cases second <;> cases third <;> decide

def isClaimed (state : TransferState) : Bool :=
  state matches dispatching | inputQueued | failed | completed | cancelled

theorem isClaimed_mono {state later : TransferState} (claimed : state.isClaimed = true)
    (reaches : state.reaches later = true) : later.isClaimed = true := by
  revert claimed reaches
  cases state <;> cases later <;> decide

end TransferState

/-! ## Moves -/

section Moves

variable {state : State} {input : Input} {row : TransferRow} {data : Transfer}

theorem Move.birth (move : Move state input row data) : data.birth = row.data.birth := by
  cases move with
  | approved _ _ birth => exact birth
  | cancelled _ _ => rfl
  | refused _ => rfl
  | reviewed _ => rfl
  | dispatched _ => rfl
  | queued _ => rfl
  | failed _ => rfl
  | completed _ _ _ => rfl

theorem Move.reaches (move : Move state input row data) :
    row.state.reaches data.state = true := by
  cases move with
  | approved _ consents _ =>
      rcases consents with awaiting | review
      · rw [awaiting]
        rfl
      · rw [review]
        rfl
  | cancelled _ withdrawable =>
      change row.state.reaches .cancelled = true
      revert withdrawable
      cases row.state <;> decide
  | refused pending => rw [pending]; rfl
  | reviewed pending => rw [pending]; rfl
  | dispatched deliverable => rw [deliverable.pending]; rfl
  | queued dispatching => rw [dispatching]; rfl
  | failed dispatching => rw [dispatching]; rfl
  | completed _ active _ =>
      change row.state.reaches .completed = true
      revert active
      cases row.state <;> decide

theorem Move.active (move : Move state input row data) (active : data.state.isActive = true) :
    row.state.isActive = true ∨
      ∃ binding, Deliverable state.tables binding row := by
  cases move with
  | approved _ _ _ => cases active
  | cancelled _ _ => cases active
  | refused _ => cases active
  | reviewed _ => cases active
  | dispatched deliverable => exact .inr ⟨_, deliverable⟩
  | queued dispatching => exact .inl (by rw [dispatching]; rfl)
  | failed _ => cases active
  | completed _ _ _ => cases active

theorem Move.columns (move : Move state input row data) (columns : Columns row) :
    Columns (row.withData data) := by
  obtain ⟨id, source, target, -⟩ := Transfer.birth_eq move.birth
  exact ⟨id.trans columns.id, source.trans columns.source, target.trans columns.target, rfl⟩

end Moves

theorem TransferRow.cancelled_columns {row : TransferRow} {error : String}
    (columns : Columns row) : Columns (row.cancelled error) :=
  ⟨columns.id, columns.source, columns.target, rfl⟩

/-! ## Rows -/

section Rows

variable {transfers : List TransferRow} {row other : TransferRow} {data : Transfer}

theorem mem_replaceRow : other ∈ replaceRow transfers row data ↔
    (other ∈ transfers ∧ other ≠ row) ∨ (row ∈ transfers ∧ other = row.withData data) := by
  unfold replaceRow
  rw [List.mem_map]
  constructor
  · rintro ⟨before, member, rfl⟩
    by_cases same : before = row
    · subst same
      exact .inr ⟨member, if_pos rfl⟩
    · rw [if_neg same]
      exact .inl ⟨member, same⟩
  · rintro (⟨member, differs⟩ | ⟨member, rfl⟩)
    · exact ⟨other, member, if_neg differs⟩
    · exact ⟨row, member, if_pos rfl⟩

theorem mem_withdraw {chosen : TransferRow → Bool} {error : String} :
    other ∈ withdraw transfers chosen error ↔ ∃ before ∈ transfers,
      other = if chosen before && before.data.requestedByAgent then before.cancelled error
        else before := by
  unfold withdraw
  rw [List.mem_map]
  constructor
  · rintro ⟨before, member, rfl⟩
    exact ⟨before, member, rfl⟩
  · rintro ⟨before, member, rfl⟩
    exact ⟨before, member, rfl⟩

theorem replaceRow_ids : (replaceRow transfers row data).map (·.id) = transfers.map (·.id) := by
  unfold replaceRow
  rw [List.map_map]
  apply List.map_congr_left
  intro other _
  by_cases same : other = row
  · simp [same, TransferRow.withData]
  · simp [same]

theorem withdraw_ids {chosen : TransferRow → Bool} {error : String} :
    (withdraw transfers chosen error).map (·.id) = transfers.map (·.id) := by
  unfold withdraw
  rw [List.map_map]
  apply List.map_congr_left
  intro other _
  simp only [Function.comp]
  split
  · rfl
  · rfl

end Rows

/-! ## One step -/

/-- What later transfers keep of earlier ones. -/
def Continues (first second : List TransferRow) : Prop :=
  ∀ row ∈ first, ∃ later ∈ second, later.id = row.id ∧ later.data.birth = row.data.birth ∧
    row.state.reaches later.state = true

theorem Continues.refl (transfers : List TransferRow) : Continues transfers transfers :=
  fun row member => ⟨row, member, rfl, rfl, row.state.reaches_refl⟩

theorem Continues.trans {first second third : List TransferRow} (one : Continues first second)
    (two : Continues second third) : Continues first third := by
  intro row member
  obtain ⟨middle, middleMember, middleId, middleBirth, middleReaches⟩ := one row member
  obtain ⟨later, laterMember, laterId, laterBirth, laterReaches⟩ := two middle middleMember
  exact ⟨later, laterMember, laterId.trans middleId, laterBirth.trans middleBirth,
    TransferState.reaches_trans middleReaches laterReaches⟩

section Steps

variable {codec : Codec} {state : State} {input : Input} {transfers : List TransferRow}

theorem Effect.continues (effect : Effect state input transfers) :
    Continues state.tables.transfers transfers := by
  cases effect with
  | kept same =>
      rw [same]
      exact .refl _
  | sent _ _ appended =>
      rw [appended]
      intro row member
      exact ⟨row, List.mem_append_left _ member, rfl, rfl, row.state.reaches_refl⟩
  | @moved moving data moves move result =>
      rw [result]
      intro row member
      by_cases same : row = moving
      · subst same
        exact ⟨_, mem_replaceRow.mpr (.inr ⟨member, rfl⟩), rfl, move.birth, move.reaches⟩
      · exact ⟨row, mem_replaceRow.mpr (.inl ⟨member, same⟩), rfl, rfl, row.state.reaches_refl⟩
  | withdrawn _ waiting result =>
      rw [result]
      intro row member
      refine ⟨_, mem_withdraw.mpr ⟨row, member, rfl⟩, ?_⟩
      split
      · next chosen =>
          simp only [Bool.and_eq_true] at chosen
          have waits := waiting row chosen.1
          refine ⟨rfl, rfl, ?_⟩
          change row.state.reaches .cancelled = true
          revert waits
          cases row.state <;> decide
      · exact ⟨rfl, rfl, row.state.reaches_refl⟩

theorem Effect.wellFormed (effect : Effect state input transfers)
    (wellFormed : WellFormed state.tables) :
    (transfers.map (·.id)).Nodup ∧ ∀ row ∈ transfers, Columns row := by
  cases effect with
  | kept same =>
      rw [same]
      exact ⟨wellFormed.ids, wellFormed.columns⟩
  | @sent _ _ _ _ sent _ born appended =>
      rw [appended]
      constructor
      · rw [List.map_append, List.nodup_append]
        refine ⟨wellFormed.ids, by simp, ?_⟩
        intro id member other otherMember
        obtain ⟨row, rowMember, rfl⟩ := List.mem_map.mp member
        simp only [List.map_cons, List.map_nil, List.mem_singleton] at otherMember
        rw [otherMember]
        exact born.fresh row rowMember
      · intro row member
        rcases List.mem_append.mp member with old | new
        · exact wellFormed.columns row old
        · cases List.mem_singleton.mp new
          exact born.columns
  | moved moves move result =>
      rw [result, replaceRow_ids]
      refine ⟨wellFormed.ids, ?_⟩
      intro row member
      rcases mem_replaceRow.mp member with ⟨old, -⟩ | ⟨-, rfl⟩
      · exact wellFormed.columns row old
      · exact move.columns (wellFormed.columns _ moves)
  | withdrawn _ waiting result =>
      rw [result, withdraw_ids]
      refine ⟨wellFormed.ids, ?_⟩
      intro row member
      obtain ⟨before, old, rfl⟩ := mem_withdraw.mp member
      split
      · exact TransferRow.cancelled_columns (wellFormed.columns before old)
      · exact wellFormed.columns before old

theorem Consents.mono {transfer : Transfer} {first second : List TransferRow}
    (consents : Consents first transfer) (continues : Continues first second) :
    Consents second transfer := by
  obtain ⟨waits, row, member, birth⟩ := consents
  obtain ⟨later, laterMember, -, laterBirth, -⟩ := continues row member
  exact ⟨waits, later, laterMember, laterBirth.trans birth⟩

/-- What a step adds to the operations in flight. -/
inductive Entered (state : State) : Input → Pending → Prop where
  | waited {input : Input} {operation : Pending} (member : operation ∈ state.pending) :
      Entered state input operation
  | approving {row : TransferRow} (member : row ∈ state.tables.transfers)
      (consents : row.state = .awaitingApproval ∨ row.state = .needsReview) :
      Entered state (.approve row.id) (.approving row.data)
  | bound {index : Nat} {world : World} {transfer : Transfer} {target : Conversation}
      (ticket : state.pending[index]? = some (.approving transfer))
      (found : state.tables.conversations.find transfer.targetId = some target)
      (connected : target.bindingId.isSome = true) :
      Entered state (.resume index world)
        (.approved { transfer with targetBinding := target.bindingId })
  | other {input : Input} {operation : Pending} (beside : operation.approval = none) :
      Entered state input operation

theorem begin_pending {loaded : Except StoreError Pending} {operation : Pending}
    (member : operation ∈ (begin state loaded).nextState.pending) :
    operation ∈ state.pending ∨ loaded = .ok operation := by
  cases loaded with
  | ok started =>
      rcases List.mem_append.mp member with old | new
      · exact .inl old
      · exact .inr (by rw [List.mem_singleton.mp new])
  | error error => exact .inl member

theorem startApproval_eq_ok {tables : Tables} {id : Uuid} {operation : Pending}
    (wellFormed : WellFormed tables) (started : startApproval tables id = .ok operation) :
    ∃ row ∈ tables.transfers, row.id = id ∧ operation = .approving row.data ∧
      (row.state = .awaitingApproval ∨ row.state = .needsReview) := by
  unfold startApproval loadApproval at started
  obtain ⟨transfer, loaded, result⟩ := Fallible.bind_eq_ok.mp started
  obtain ⟨read, found, checked⟩ := Fallible.bind_eq_ok.mp loaded
  obtain ⟨waits, same⟩ := Fallible.ensure_bind_eq_ok.mp checked
  cases Fallible.pure_eq_ok.mp same
  cases Fallible.pure_eq_ok.mp result
  obtain ⟨row, member, sameId, rfl, -⟩ := readTransfer_eq_ok found
  rw [(wellFormed.columns row member).state] at waits
  exact ⟨row, member, sameId, rfl, waits⟩

theorem bindApproval_eq_ok {tables : Tables} {transfer bound : Transfer}
    (binds : bindApproval tables transfer = .ok bound) :
    ∃ target, tables.conversations.find transfer.targetId = some target ∧
      target.bindingId.isSome = true ∧ bound =
        { transfer with targetBinding := target.bindingId } := by
  unfold bindApproval at binds
  obtain ⟨target, authorized, checked⟩ := Fallible.bind_eq_ok.mp binds
  obtain ⟨connected, result⟩ := Fallible.ensure_bind_eq_ok.mp checked
  cases Fallible.pure_eq_ok.mp result
  exact ⟨target, (authorize_eq_ok authorized).found, connected, rfl⟩

theorem Resumed.wrote_waits {world : World} {tables next : Tables} {waits : Option Pending}
    {operation : Pending} (left : (Resumed.wrote world tables next waits).waits = some operation) :
    waits = some operation := by
  unfold Resumed.wrote at left
  split at left
  · exact left
  · cases left

theorem resumePending_waits {index : Nat} {world : World} {operation later : Pending}
    (ticket : state.pending[index]? = some operation)
    (left : (resumePending world state.tables operation).waits = some later) :
    Entered state (.resume index world) later := by
  cases operation with
  | approving transfer =>
      unfold resumePending at left
      simp only at left
      split at left
      · next bound binds =>
          obtain ⟨target, found, connected, rfl⟩ := bindApproval_eq_ok binds
          cases left
          exact .bound ticket found connected
      · cases left
  | approved transfer => cases left
  | linking source target automatic => cases Resumed.wrote_waits left
  | activating id digest => cases Resumed.wrote_waits left
  | renewing lease id digest =>
      cases Resumed.wrote_waits left
      exact .other rfl
  | expiring => cases Resumed.wrote_waits left

theorem step_pending (wellFormed : WellFormed state.tables) (codec : Codec) (input : Input)
    {operation : Pending} (member : operation ∈ ((machine codec).next state input).pending) :
    Entered state input operation := by
  cases input with
  | link source target automatic =>
      rcases begin_pending member with old | started
      · exact .waited old
      · obtain ⟨⟨⟩, -, result⟩ := Fallible.bind_eq_ok.mp started
        cases Fallible.pure_eq_ok.mp result
        exact .other rfl
  | activate id token =>
      rcases begin_pending member with old | started
      · exact .waited old
      · obtain ⟨conversation, -, result⟩ := Fallible.bind_eq_ok.mp started
        cases Fallible.pure_eq_ok.mp result
        exact .other rfl
  | renewBridge lease id token =>
      rcases begin_pending member with old | started
      · exact .waited old
      · obtain ⟨caller, -, result⟩ := Fallible.bind_eq_ok.mp started
        cases Fallible.pure_eq_ok.mp result
        exact .other rfl
  | approve id =>
      rcases begin_pending member with old | started
      · exact .waited old
      · obtain ⟨row, rowMember, rfl, rfl, consents⟩ := startApproval_eq_ok wellFormed started
        exact .approving rowMember consents
  | resume index world =>
      cases ticket : state.pending[index]? with
      | none =>
          rw [next_resume_none ticket] at member
          exact .waited member
      | some resumed =>
          rw [next_resume_some ticket] at member
          unfold State.resumes at member
          simp only at member
          split at member
          · next later left =>
              rcases List.mem_or_eq_of_mem_set member with old | rfl
              · exact .waited old
              · exact resumePending_waits ticket left
          · exact .waited (List.mem_of_mem_eraseIdx member)
  | register _ _ => exact .waited member
  | linkPair _ _ _ _ => exact .waited member
  | unlink _ _ _ => exact .waited member
  | revoke _ _ => exact .waited member
  | removeBridge _ _ => exact .waited member
  | setAvailable _ _ _ => exact .waited member
  | record _ _ _ _ _ _ _ => exact .waited member
  | send _ _ _ _ => exact .waited member
  | cancel _ _ _ => exact .waited member
  | claim _ _ _ => exact .waited member
  | deliveryResult _ _ _ => exact .waited member
  | reply _ _ _ _ => exact .waited member

theorem Invariant.next (invariant : Invariant state) (codec : Codec) (input : Input) :
    Invariant ((machine codec).next state input) := by
  have effect := step_effect codec invariant input
  have continues := effect.continues
  obtain ⟨ids, columns⟩ := effect.wellFormed invariant.wellFormed
  refine ⟨⟨ids, columns⟩, ?_⟩
  intro operation member transfer approval
  cases step_pending invariant.wellFormed codec input member with
  | waited old => exact (invariant.approvals operation old transfer approval).mono continues
  | approving rowMember consents =>
      cases approval
      rw [← (invariant.wellFormed.columns _ rowMember).state] at consents
      have read : Consents state.tables.transfers _ := ⟨consents, _, rowMember, rfl⟩
      exact read.mono continues
  | bound ticket _ _ =>
      cases approval
      obtain ⟨waits, row, rowMember, birth⟩ :=
        invariant.approvals _ (List.mem_of_getElem? ticket) _ rfl
      have read : Consents state.tables.transfers _ := ⟨waits, row, rowMember, birth⟩
      exact read.mono continues
  | other beside =>
      rw [beside] at approval
      cases approval

theorem continues_run (codec : Codec) {start : State} (invariant : Invariant start)
    (inputs : List Input) :
    Continues start.tables.transfers ((machine codec).run start inputs).tables.transfers := by
  refine (machine codec).run_relation Invariant
    (fun first second => Continues first.tables.transfers second.tables.transfers) ?_ ?_ ?_ ?_
    invariant inputs
  · exact fun state => .refl _
  · exact fun one two => one.trans two
  · exact fun state input invariant => invariant.next codec input
  · exact fun state input invariant => (step_effect codec invariant input).continues

end Steps

/-! ## Runs -/

def after (codec : Codec) (inputs : List Input) : State := (machine codec).run .empty inputs

section Runs

variable {codec : Codec} {inputs : List Input}

theorem after_invariant (codec : Codec) (inputs : List Input) : Invariant (after codec inputs) :=
  (machine codec).run_invariant Invariant (fun _ input invariant => invariant.next codec input)
    .empty inputs

theorem after_append (first second : List Input) :
    after codec (first ++ second) = (machine codec).run (after codec first) second :=
  (machine codec).run_append .empty first second

@[simp] theorem after_snoc (before : List Input) (input : Input) :
    after codec (before ++ [input]) = (machine codec).next (after codec before) input :=
  after_append before [input]

theorem after_origin (Property : State → Prop) (absent : ¬ Property .empty)
    (acquired : Property (after codec inputs)) :
    ∃ before input rest, inputs = before ++ input :: rest ∧ ¬ Property (after codec before) ∧
      Property ((machine codec).next (after codec before) input) := by
  obtain ⟨state, input, member, before, behind⟩ :=
    (machine codec).run_origin Property absent acquired
  obtain ⟨first, rest, split, rfl⟩ := (machine codec).mem_trace_iff.mp member
  exact ⟨first, input, rest, split, before, behind⟩

end Runs

end TerminalCanvas.Conversations
