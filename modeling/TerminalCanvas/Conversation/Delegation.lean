import TerminalCanvas.Conversation.Deliveries

/-! # Trees of delegations

A transfer that an agent sends while it answers another one is delegated under it. -/

namespace TerminalCanvas.Conversations

open Execution Fallible

/-! ## Places -/

/-- The place of a transfer in the tree of its delegation. -/
structure Place where
  id : Uuid
  source : Uuid
  target : Uuid
  parent : Option Uuid
  root : Uuid
  depth : Nat
deriving DecidableEq, Repr

def TransferRow.place (row : TransferRow) : Place :=
  ⟨row.id, row.source, row.target, row.data.parentId, row.data.rootId, row.data.depth⟩

/-- A place and those above it, up to the root. -/
inductive Lineage (places : List Place) : Place → List Place → Prop where
  | root {place : Place} (member : place ∈ places) (top : place.parent = none) :
      Lineage places place [place]
  | child {place parent : Place} {above : List Place} (member : place ∈ places)
      (link : place.parent = some parent.id) (lineage : Lineage places parent above) :
      Lineage places place (place :: above)

/-- The conversations along a lineage: every target, and the source of the root. -/
def conversationsOf : List Place → List Uuid
  | [] => []
  | [root] => [root.target, root.source]
  | place :: above => place.target :: conversationsOf above

/-- A lineage that ends at its root, within the limits, and visits no conversation
twice. -/
structure Rooted (place : Place) (lineage : List Place) : Prop where
  once : (lineage.map (·.id)).Nodup
  root : lineage.getLast?.map (·.id) = some place.root
  roots : ∀ above ∈ lineage, above.root = place.root
  depth : place.depth = lineage.length
  limit : place.depth ≤ maxDelegationDepth
  conversations : (conversationsOf lineage).Nodup
  links : lineage.IsChain fun child parent =>
    child.source = parent.target ∧ child.depth = parent.depth + 1

def WellPlaced (places : List Place) : Prop :=
  ∀ place ∈ places, ∃ lineage, Lineage places place lineage ∧ Rooted place lineage

section Lineages

variable {places : List Place} {place other : Place} {lineage : List Place}

theorem Lineage.mem (line : Lineage places place lineage) : place ∈ places := by
  cases line with
  | root member _ => exact member
  | child member _ _ => exact member

theorem Lineage.subset (line : Lineage places place lineage) :
    ∀ other ∈ lineage, other ∈ places := by
  induction line with
  | root member _ => simpa using member
  | child member _ _ induction =>
      intro other among
      rcases List.mem_cons.mp among with rfl | above
      · exact member
      · exact induction other above

theorem Lineage.head (line : Lineage places place lineage) :
    ∃ above, lineage = place :: above := by
  cases line with
  | root _ _ => exact ⟨[], rfl⟩
  | child _ _ _ => exact ⟨_, rfl⟩

theorem Lineage.append (line : Lineage places place lineage) (new : Place) :
    Lineage (places ++ [new]) place lineage := by
  induction line with
  | root member top => exact .root (List.mem_append_left _ member) top
  | child member link _ induction => exact .child (List.mem_append_left _ member) link induction

theorem mem_conversationsOf {conversation : Uuid}
    (among : conversation ∈ conversationsOf lineage) :
    ∃ place ∈ lineage, conversation = place.source ∨ conversation = place.target := by
  induction lineage with
  | nil => cases among
  | cons place above induction =>
      cases above with
      | nil =>
          simp only [conversationsOf, List.mem_cons, List.not_mem_nil, or_false] at among
          exact ⟨place, by simp, among.symm⟩
      | cons next above =>
          rcases List.mem_cons.mp among with rfl | among
          · exact ⟨place, by simp, .inr rfl⟩
          · obtain ⟨found, member, ends⟩ := induction among
            exact ⟨found, List.mem_cons_of_mem _ member, ends⟩

end Lineages

/-! ## The walk over the ancestors -/

section Ancestry

variable {tables : Tables} {target : Uuid}

theorem readTransfer_place {parent : Transfer} {place : Place} (wellFormed : WellFormed tables)
    (member : place ∈ tables.transfers.map TransferRow.place)
    (read : readTransfer tables .user place.id = .ok parent) :
    parent.sourceId = place.source ∧ parent.targetId = place.target ∧
      parent.parentId = place.parent ∧ parent.rootId = place.root := by
  obtain ⟨row, rowMember, sameId, rfl, -⟩ := readTransfer_eq_ok read
  obtain ⟨also, alsoMember, rfl⟩ := List.mem_map.mp member
  cases wellFormed.unique rowMember alsoMember sameId
  have columns := wellFormed.columns row rowMember
  exact ⟨columns.source, columns.target, rfl, rfl⟩

theorem ancestry_eq_ok {place : Place} {lineage : List Place} {fuel depth level : Nat}
    {known root : Uuid} (wellFormed : WellFormed tables)
    (line : Lineage (tables.transfers.map TransferRow.place) place lineage)
    (walks : ancestry tables target fuel (some place.id) depth known = .ok (level, root)) :
    level = depth + lineage.length ∧ level ≤ maxDelegationDepth ∧
      (∀ above ∈ lineage, above.source ≠ target ∧ above.target ≠ target) ∧
      lineage.getLast?.map (·.root) = some root := by
  induction line generalizing fuel depth known with
  | @root place member top =>
      cases fuel with
      | zero => cases walks
      | succ fuel =>
          obtain ⟨parent, read, walks⟩ := bind_eq_ok.mp walks
          obtain ⟨⟨notSource, notTarget⟩, walks⟩ := ensure_bind_eq_ok.mp walks
          obtain ⟨limit, walks⟩ := ensure_bind_eq_ok.mp walks
          obtain ⟨source, target, above, root⟩ := readTransfer_place wellFormed member read
          rw [above, top, ancestry] at walks
          cases walks
          refine ⟨rfl, limit, ?_, by simp [root]⟩
          intro other among
          rw [List.mem_singleton.mp among, ← source, ← target]
          exact ⟨notSource, notTarget⟩
  | @child place next above member link lineage induction =>
      cases fuel with
      | zero => cases walks
      | succ fuel =>
          obtain ⟨parent, read, walks⟩ := bind_eq_ok.mp walks
          obtain ⟨⟨notSource, notTarget⟩, walks⟩ := ensure_bind_eq_ok.mp walks
          obtain ⟨limit, walks⟩ := ensure_bind_eq_ok.mp walks
          obtain ⟨source, target, upwards, root⟩ := readTransfer_place wellFormed member read
          rw [upwards, link] at walks
          obtain ⟨counted, within, others, last⟩ := induction walks
          obtain ⟨rest, rfl⟩ := lineage.head
          refine ⟨?_, within, ?_, ?_⟩
          · rw [counted]
            simp only [List.length_cons]
            omega
          · intro other among
            rcases List.mem_cons.mp among with rfl | further
            · rw [← source, ← target]
              exact ⟨notSource, notTarget⟩
            · exact others other further
          · rw [← last]
            rfl

theorem not_mem_conversationsOf {lineage : List Place}
    (others : ∀ above ∈ lineage, above.source ≠ target ∧ above.target ≠ target) :
    target ∉ conversationsOf lineage := by
  intro among
  obtain ⟨above, member, source | target⟩ := mem_conversationsOf among
  · exact (others above member).1 source.symm
  · exact (others above member).2 target.symm

theorem ancestry_rooted {row : TransferRow} {next : Place} {lineage : List Place}
    (wellFormed : WellFormed tables)
    (line : Lineage (tables.transfers.map TransferRow.place) next lineage)
    (rooted : Rooted next lineage) (fresh : ∀ other ∈ tables.transfers, other.id ≠ row.id)
    (source : row.source = next.target)
    (walks : ancestry tables row.target maxDelegationDepth (some next.id) 1 row.id =
      .ok (row.data.depth, row.data.rootId)) :
    Rooted row.place (row.place :: lineage) := by
  obtain ⟨counted, within, others, last⟩ := ancestry_eq_ok wellFormed line walks
  obtain ⟨above, rfl⟩ := line.head
  have sameRoot : row.data.rootId = next.root := by
    cases ended : (next :: above).getLast? with
    | none => simp at ended
    | some final =>
        rw [ended, Option.map_some, Option.some.injEq] at last
        rw [← last]
        exact rooted.roots final (List.mem_of_getLast? ended)
  refine
    { once := ?_
      root := ?_
      roots := ?_
      depth := ?_
      limit := within
      conversations := ?_
      links := ?_ }
  · rw [List.map_cons, List.nodup_cons]
    refine ⟨?_, rooted.once⟩
    intro among
    obtain ⟨place, member, sameId⟩ := List.mem_map.mp among
    obtain ⟨other, otherMember, rfl⟩ := List.mem_map.mp (line.subset place member)
    exact fresh other otherMember sameId
  · rw [List.getLast?_cons_cons, rooted.root]
    exact congrArg some sameRoot.symm
  · intro other among
    rcases List.mem_cons.mp among with rfl | further
    · rfl
    · exact (rooted.roots other further).trans sameRoot.symm
  · change row.data.depth = (next :: above).length + 1
    omega
  · change (row.target :: conversationsOf (next :: above)).Nodup
    exact List.nodup_cons.mpr ⟨not_mem_conversationsOf others, rooted.conversations⟩
  · refine List.isChain_cons_cons.mpr ⟨⟨source, ?_⟩, rooted.links⟩
    change row.data.depth = next.depth + 1
    rw [rooted.depth]
    omega

theorem rooted_alone {row : TransferRow} (distinct : row.source ≠ row.target)
    (top : row.data.parentId = none)
    (walks : ancestry tables row.target maxDelegationDepth row.data.parentId 1 row.id =
      .ok (row.data.depth, row.data.rootId)) :
    Rooted row.place [row.place] := by
  rw [top, ancestry] at walks
  obtain ⟨depth, root⟩ := Prod.mk.inj (Except.ok.inj walks)
  exact
    { once := List.nodup_singleton _
      root := congrArg some root
      roots := by simp
      depth := depth.symm
      limit := by
        change row.data.depth ≤ maxDelegationDepth
        rw [← depth]
        decide
      conversations := by simpa [conversationsOf, TransferRow.place] using distinct.symm
      links := List.IsChain.singleton _ }

end Ancestry

/-! ## Places over a run -/

theorem parentOf_eq_some {tables : Tables} {caller : Caller} {id : Uuid}
    (answers : parentOf tables caller = some id) :
    ∃ row ∈ tables.transfers, row.id = id ∧ row.state.isActive = true ∧
      caller.agentId = some row.target := by
  unfold parentOf at answers
  obtain ⟨own, agent, answers⟩ := Option.bind_eq_some_iff.mp answers
  obtain ⟨row, found, sameId⟩ := Option.map_eq_some_iff.mp answers
  have chosen := List.find?_some found
  simp only [Bool.and_eq_true, decide_eq_true_eq] at chosen
  exact ⟨row, List.mem_of_find?_eq_some found, sameId, chosen.2, by rw [agent, chosen.1]⟩

theorem place_withData {row : TransferRow} {data : Transfer}
    (birth : data.birth = row.data.birth) : (row.withData data).place = row.place := by
  obtain ⟨-, -, -, parent, root, depth, -⟩ := Transfer.birth_eq birth
  simp only [TransferRow.place, TransferRow.withData, parent, root, depth]

section Steps

variable {state : State} {input : Input} {transfers : List TransferRow}

theorem Effect.places (effect : Effect state input transfers) :
    transfers.map TransferRow.place = state.tables.transfers.map TransferRow.place ∨
    ∃ caller request prepared row, Born state.tables caller request prepared row ∧
      transfers = state.tables.transfers ++ [row] := by
  cases effect with
  | kept same => exact .inl (by rw [same])
  | sent _ born appended => exact .inr ⟨_, _, _, _, born, appended⟩
  | moved _ move result =>
      left
      rw [result, replaceRow, List.map_map]
      apply List.map_congr_left
      intro other _
      simp only [Function.comp]
      split
      · next same => rw [place_withData move.birth, same]
      · rfl
  | withdrawn _ _ result =>
      left
      rw [result, withdraw, List.map_map]
      apply List.map_congr_left
      intro other _
      simp only [Function.comp]
      split
      · rfl
      · rfl

theorem Born.wellPlaced {tables : Tables} {caller : Caller} {request : SendRequest}
    {prepared : Option PreparedSend} {row : TransferRow} (wellFormed : WellFormed tables)
    (born : Born tables caller request prepared row)
    (placed : WellPlaced (tables.transfers.map TransferRow.place)) :
    WellPlaced ((tables.transfers ++ [row]).map TransferRow.place) := by
  rw [List.map_append, List.map_singleton]
  have new : row.place ∈ tables.transfers.map TransferRow.place ++ [row.place] :=
    List.mem_append_right _ (List.mem_singleton.mpr rfl)
  intro place member
  rcases List.mem_append.mp member with old | isNew
  · obtain ⟨lineage, line, rooted⟩ := placed place old
    exact ⟨lineage, line.append row.place, rooted⟩
  · cases List.mem_singleton.mp isNew
    cases parent : row.data.parentId with
    | none => exact ⟨_, .root new parent, rooted_alone born.distinct parent born.place⟩
    | some above =>
        obtain ⟨next, nextMember, rfl, -, agent⟩ :=
          parentOf_eq_some (born.parent.symm.trans parent)
        obtain ⟨lineage, line, rooted⟩ := placed next.place (List.mem_map_of_mem nextMember)
        have walks := born.place
        rw [parent] at walks
        have link : row.place.parent = some next.place.id := parent
        exact ⟨_, .child new link (line.append row.place), ancestry_rooted wellFormed line rooted
          born.fresh (born.own next.target agent).symm walks⟩

theorem Effect.wellPlaced (wellFormed : WellFormed state.tables)
    (placed : WellPlaced (state.tables.transfers.map TransferRow.place))
    (effect : Effect state input transfers) :
    WellPlaced (transfers.map TransferRow.place) := by
  rcases effect.places with same | ⟨caller, request, prepared, row, born, appended⟩
  · rw [same]
    exact placed
  · rw [appended]
    exact born.wellPlaced wellFormed placed

/-- No root has too many transfers. -/
def Bounded (places : List Place) : Prop :=
  ∀ root, places.countP (fun place => place.root = root) ≤ maxRootTransfers

theorem Effect.bounded (bounded : Bounded (state.tables.transfers.map TransferRow.place))
    (effect : Effect state input transfers) : Bounded (transfers.map TransferRow.place) := by
  rcases effect.places with same | ⟨caller, request, prepared, row, born, appended⟩
  · rw [same]
    exact bounded
  · rw [appended, List.map_append, List.map_singleton]
    intro root
    rw [List.countP_append]
    by_cases own : row.data.rootId = root
    · have room := born.room
      subst own
      have counted : (state.tables.transfers.map TransferRow.place).countP
          (fun place => place.root = row.data.rootId) < maxRootTransfers := by
        rw [List.countP_map]
        exact room
      have single : [row.place].countP (fun place => place.root = row.data.rootId) ≤ 1 :=
        List.countP_le_length
      omega
    · have single : [row.place].countP (fun place => place.root = root) = 0 := by
        rw [List.countP_eq_zero]
        intro place member
        cases List.mem_singleton.mp member
        exact fun holds => own (of_decide_eq_true holds)
      rw [single]
      exact bounded root

end Steps

/-! ## Parents and children -/

def ChildOf (child parent : TransferRow) : Prop := child.data.parentId = some parent.id

/-- A parent was handed to its target before it had children, and with its answer
nothing directly under it is open. -/
def Answered (transfers : List TransferRow) : Prop :=
  ∀ child ∈ transfers, ∀ parent ∈ transfers, ChildOf child parent →
    parent.state.isClaimed = true ∧
      (parent.state = .completed → child.state.isTerminal = true)

namespace TransferState

theorem isTerminal_mono {state later : TransferState} (terminal : state.isTerminal = true)
    (reaches : state.reaches later = true) : later.isTerminal = true := by
  revert terminal reaches
  cases state <;> cases later <;> decide

theorem isClaimed_of_isActive {state : TransferState} (active : state.isActive = true) :
    state.isClaimed = true := by
  revert active
  cases state <;> decide

end TransferState

section Families

variable {state : State} {input : Input} {transfers : List TransferRow}

theorem WellPlaced.parent {transfers : List TransferRow}
    (placed : WellPlaced (transfers.map TransferRow.place)) {child : TransferRow} {id : Uuid}
    (member : child ∈ transfers) (link : child.data.parentId = some id) :
    ∃ parent ∈ transfers, parent.id = id ∧ ChildOf child parent := by
  obtain ⟨lineage, line, -⟩ := placed child.place (List.mem_map_of_mem member)
  cases line with
  | root _ top => exact absurd (link.symm.trans top) nofun
  | @child _ parent above _ linked line =>
      obtain ⟨row, rowMember, rfl⟩ := List.mem_map.mp line.mem
      have same : some id = some row.id := link.symm.trans linked
      exact ⟨row, rowMember, (Option.some.inj same).symm, link.trans same⟩

theorem Move.answers {row : TransferRow} {data : Transfer}
    (answered : Answered state.tables.transfers) (move : Move state input row data)
    (member : row ∈ state.tables.transfers) {child : TransferRow}
    (also : child ∈ state.tables.transfers) (link : ChildOf child row) :
    data.state.isClaimed = true ∧ (data.state = .completed → child.state.isTerminal = true) := by
  obtain ⟨claimed, -⟩ := answered child also row member link
  refine ⟨TransferState.isClaimed_mono claimed move.reaches, ?_⟩
  intro completed
  cases move with
  | completed _ _ none =>
      by_contra waits
      have pending : pendingChildren state.tables row.id = true :=
        List.any_eq_true.mpr ⟨child, also, by simp [show child.data.parentId = _ from link, waits]⟩
      rw [none] at pending
      cases pending
  | approved _ _ _ => cases completed
  | cancelled _ _ => cases completed
  | refused _ => cases completed
  | reviewed _ => cases completed
  | dispatched _ => cases completed
  | queued _ => cases completed
  | failed _ => cases completed

theorem Born.parent_active {tables : Tables} {caller : Caller} {request : SendRequest}
    {prepared : Option PreparedSend} {row parent : TransferRow} (wellFormed : WellFormed tables)
    (born : Born tables caller request prepared row) (member : parent ∈ tables.transfers)
    (link : ChildOf row parent) : parent.state.isActive = true := by
  obtain ⟨answering, answeringMember, sameId, active, -⟩ :=
    parentOf_eq_some (born.parent.symm.trans link)
  cases wellFormed.unique answeringMember member sameId
  exact active

theorem Born.childless {tables : Tables} {caller : Caller} {request : SendRequest}
    {prepared : Option PreparedSend} {row child : TransferRow}
    (born : Born tables caller request prepared row)
    (placed : WellPlaced (tables.transfers.map TransferRow.place))
    (member : child ∈ tables.transfers ++ [row]) : ¬ ChildOf child row := by
  intro link
  rcases List.mem_append.mp member with old | new
  · obtain ⟨parent, parentMember, sameId, -⟩ := placed.parent old link
    exact born.fresh parent parentMember sameId
  · cases List.mem_singleton.mp new
    obtain ⟨parent, parentMember, sameId, -⟩ := parentOf_eq_some (born.parent.symm.trans link)
    exact born.fresh parent parentMember sameId

theorem Effect.answered (wellFormed : WellFormed state.tables)
    (placed : WellPlaced (state.tables.transfers.map TransferRow.place))
    (answered : Answered state.tables.transfers) (effect : Effect state input transfers) :
    Answered transfers := by
  cases effect with
  | kept same =>
      rw [same]
      exact answered
  | sent _ born appended =>
      rw [appended]
      intro child childMember parent parentMember link
      rcases List.mem_append.mp parentMember with old | new
      · rcases List.mem_append.mp childMember with childOld | childNew
        · exact answered child childOld parent old link
        · cases List.mem_singleton.mp childNew
          have active := born.parent_active wellFormed old link
          refine ⟨TransferState.isClaimed_of_isActive active, ?_⟩
          intro completed
          rw [completed] at active
          cases active
      · cases List.mem_singleton.mp new
        exact absurd link (born.childless placed childMember)
  | @moved row data moves move result =>
      rw [result]
      intro child childMember parent parentMember link
      have birth := Transfer.birth_eq move.birth
      rcases mem_replaceRow.mp parentMember with ⟨old, -⟩ | ⟨-, rfl⟩
      · rcases mem_replaceRow.mp childMember with ⟨childOld, -⟩ | ⟨-, rfl⟩
        · exact answered child childOld parent old link
        · have before : ChildOf row parent := birth.2.2.2.1.symm.trans link
          obtain ⟨claimed, answers⟩ := answered row moves parent old before
          exact ⟨claimed, fun completed =>
            TransferState.isTerminal_mono (answers completed) move.reaches⟩
      · rcases mem_replaceRow.mp childMember with ⟨childOld, -⟩ | ⟨-, rfl⟩
        · exact move.answers answered moves childOld link
        · have before : ChildOf row row := birth.2.2.2.1.symm.trans link
          obtain ⟨claimed, answers⟩ := move.answers answered moves moves before
          exact ⟨claimed, fun completed =>
            TransferState.isTerminal_mono (answers completed) move.reaches⟩
  | withdrawn _ waiting result =>
      rw [result]
      intro child childMember parent parentMember link
      obtain ⟨childBefore, childOld, childIs⟩ := mem_withdraw.mp childMember
      obtain ⟨parentBefore, parentOld, parentIs⟩ := mem_withdraw.mp parentMember
      have before : ChildOf childBefore parentBefore := by
        rw [childIs, parentIs] at link
        split at link
        · split at link
          · exact link
          · exact link
        · split at link
          · exact link
          · exact link
      obtain ⟨claimed, answers⟩ := answered childBefore childOld parentBefore parentOld before
      rw [parentIs, childIs]
      split
      · exact ⟨rfl, nofun⟩
      · refine ⟨claimed, fun completed => ?_⟩
        split
        · rfl
        · exact answers completed

end Families

/-- What holds of the delegations of every reachable journal. -/
structure Delegations (state : State) : Prop where
  invariant : Invariant state
  placed : WellPlaced (state.tables.transfers.map TransferRow.place)
  bounded : Bounded (state.tables.transfers.map TransferRow.place)
  answered : Answered state.tables.transfers

theorem Delegations.next {state : State} (delegations : Delegations state) (codec : Codec)
    (input : Input) : Delegations ((machine codec).next state input) := by
  have effect := step_effect codec delegations.invariant input
  have wellFormed := delegations.invariant.wellFormed
  exact
    { invariant := delegations.invariant.next codec input
      placed := effect.wellPlaced wellFormed delegations.placed
      bounded := effect.bounded delegations.bounded
      answered := effect.answered wellFormed delegations.placed delegations.answered }

theorem Delegations.empty : Delegations .empty where
  invariant := .empty
  placed := by
    intro place member
    cases member
  bounded := fun _ => Nat.zero_le _
  answered := by
    intro child member
    cases member

theorem after_delegations (codec : Codec) (inputs : List Input) :
    Delegations (after codec inputs) :=
  (machine codec).run_invariant Delegations
    (fun _ input delegations => delegations.next codec input) .empty inputs

/-! ## Everything under a transfer -/

/-- Recorded under the other transfer, directly or through others. -/
def Under (transfers : List TransferRow) : TransferRow → TransferRow → Prop :=
  Relation.TransGen fun child parent =>
    child ∈ transfers ∧ parent ∈ transfers ∧ ChildOf child parent

theorem Answered.under {transfers : List TransferRow} (answered : Answered transfers)
    {row top : TransferRow} (under : Under transfers row top) (completed : top.state = .completed) :
    row.state.isTerminal = true ∨ ∃ between, Under transfers row between ∧
      Under transfers between top ∧ (between.state = .failed ∨ between.state = .cancelled) := by
  induction under using Relation.TransGen.head_induction_on with
  | single link => exact .inl ((answered _ link.1 _ link.2.1 link.2.2).2 completed)
  | @head row parent link above induction =>
      have direct : Under transfers row parent := .single link
      rcases induction with terminal | ⟨between, under, rest, ended⟩
      · cases held : parent.state with
        | completed => exact .inl ((answered row link.1 parent link.2.1 link.2.2).2 held)
        | failed => exact .inr ⟨parent, direct, above, .inl held⟩
        | cancelled => exact .inr ⟨parent, direct, above, .inr held⟩
        | awaitingApproval => rw [held] at terminal; cases terminal
        | pending => rw [held] at terminal; cases terminal
        | dispatching => rw [held] at terminal; cases terminal
        | inputQueued => rw [held] at terminal; cases terminal
        | needsReview => rw [held] at terminal; cases terminal
      · exact .inr ⟨between, direct.trans under, rest, ended⟩

theorem WellPlaced.child {tables : Tables} (wellFormed : WellFormed tables)
    (placed : WellPlaced (tables.transfers.map TransferRow.place)) {child parent : TransferRow}
    (member : child ∈ tables.transfers) (also : parent ∈ tables.transfers)
    (link : ChildOf child parent) :
    child.source = parent.target ∧ child.data.depth = parent.data.depth + 1 := by
  obtain ⟨lineage, line, rooted⟩ := placed child.place (List.mem_map_of_mem member)
  cases line with
  | root _ top => exact absurd (link.symm.trans top) nofun
  | @child _ next above _ linked line =>
      obtain ⟨row, rowMember, rfl⟩ := List.mem_map.mp line.mem
      have same : some parent.id = some row.id := link.symm.trans linked
      cases wellFormed.unique also rowMember (Option.some.inj same)
      obtain ⟨rest, rfl⟩ := line.head
      exact (List.isChain_cons_cons.mp rooted.links).1

/-- Delegations are trees: every transfer has a lineage to its root without repetition,
within the limits of depth and size; and what is directly under a completed transfer is
never open, what is open further below is under a failed or cancelled one. -/
theorem delegation_trees (codec : Codec) (inputs later : List Input) :
    (∀ row ∈ (after codec inputs).tables.transfers, ∃ lineage,
      Lineage ((after codec inputs).tables.transfers.map TransferRow.place) row.place lineage ∧
        Rooted row.place lineage) ∧
    (∀ child ∈ (after codec inputs).tables.transfers,
      ∀ parent ∈ (after codec inputs).tables.transfers, ChildOf child parent →
        child.source = parent.target ∧ child.data.depth = parent.data.depth + 1) ∧
    (∀ root, (after codec inputs).tables.transfers.countP (fun row => row.data.rootId = root) ≤
      maxRootTransfers) ∧
    (∀ top ∈ (after codec inputs).tables.transfers, top.state = .completed →
      ∀ child ∈ (after codec (inputs ++ later)).tables.transfers, ChildOf child top →
        child.state.isTerminal = true) ∧
    (∀ top, top.state = .completed →
      ∀ row, Under (after codec inputs).tables.transfers row top →
        row.state.isTerminal = true ∨
        ∃ between, Under (after codec inputs).tables.transfers row between ∧
          Under (after codec inputs).tables.transfers between top ∧
          (between.state = .failed ∨ between.state = .cancelled)) := by
  have delegations := after_delegations codec inputs
  have wellFormed := delegations.invariant.wellFormed
  refine ⟨?_, ?_, ?_, ?_, ?_⟩
  · intro row member
    exact delegations.placed row.place (List.mem_map_of_mem member)
  · intro child member parent also link
    exact delegations.placed.child wellFormed member also link
  · intro root
    have bound := delegations.bounded root
    rw [List.countP_map] at bound
    exact bound
  · intro top member completed child childMember link
    obtain ⟨final, finalMember, sameId, -, reaches⟩ :=
      continues_run codec delegations.invariant later top member
    rw [← after_append] at finalMember
    rw [completed] at reaches
    have stays : final.state = .completed := by simpa [TransferState.reaches] using reaches
    have linked : ChildOf child final := by
      unfold ChildOf
      rw [sameId]
      exact link
    exact ((after_delegations codec (inputs ++ later)).answered child childMember final finalMember
      linked).2 stays
  · intro top completed row under
    exact delegations.answered.under under completed

/-! ## An open transfer under a completed one -/

namespace Scenario

def uuid : Nat → Uuid := Uuid.fromU128

def calm (draw : Nat) : World := ⟨uuid draw, 0, true⟩

def plainCodec : Codec := ⟨fun _ => [], fun _ _ => "", fun _ => 100, fun _ => ""⟩

def connected (chat : Nat) : List Input :=
  [.register ⟨uuid chat, uuid 1, uuid chat, "", some .claudeCode, none, none, none, none,
      some (uuid 2)⟩ (calm 0),
    .activate (uuid chat) "", .resume 0 (calm 0),
    .renewBridge (uuid chat) (uuid chat) "", .resume 0 (calm 0), .resume 0 (calm 0)]

def linkedTo (source target : Nat) : List Input :=
  [.link (uuid source) (uuid target) true, .resume 0 (calm 0)]

/-- A transfer that is sent and, if it is to be, claimed. -/
def sends (caller : Caller) (id source target : Nat) : Input :=
  .send caller ⟨uuid id, uuid source, uuid target, "x", [], 1024⟩ none (calm id)

def claimed (id : Nat) : Input := .claim (uuid id) (uuid 2) (calm 0)

end Scenario

open Scenario

/-- The second of three delegations fails to be delivered while its target delegates. -/
private def orphaned : List Input :=
  connected 3 ++ connected 4 ++ connected 5 ++ connected 6 ++ linkedTo 4 5 ++ linkedTo 5 6 ++
    [sends .user 10 3 4, claimed 10, sends (.agent (uuid 4)) 11 4 5, claimed 11,
      sends (.agent (uuid 5)) 12 5 6, .deliveryResult (uuid 11) (.error "") (calm 0),
      .reply .user (uuid 10) "ok" (calm 13)]

instance (child parent : TransferRow) : Decidable (ChildOf child parent) :=
  inferInstanceAs (Decidable (_ = _))

/-- Under a completed transfer another one can be open. -/
theorem open_under_completed : ¬ ∀ (codec : Codec) (inputs : List Input),
    ∀ top ∈ (after codec inputs).tables.transfers, top.state = .completed →
      ∀ row, Under (after codec inputs).tables.transfers row top →
        row.state.isTerminal = true := by
  intro claim
  have orphan : ∃ top ∈ (after plainCodec orphaned).tables.transfers,
      ∃ middle ∈ (after plainCodec orphaned).tables.transfers,
      ∃ row ∈ (after plainCodec orphaned).tables.transfers, ChildOf row middle ∧
        ChildOf middle top ∧ top.state = .completed ∧ row.state.isTerminal = false := by
    decide +kernel
  obtain ⟨top, topMember, middle, middleMember, row, member, below, above, completed, waits⟩ :=
    orphan
  have terminal := claim plainCodec orphaned top topMember completed row
    (.head ⟨member, middleMember, below⟩ (.single ⟨middleMember, topMember, above⟩))
  rw [waits] at terminal
  cases terminal

end TerminalCanvas.Conversations
