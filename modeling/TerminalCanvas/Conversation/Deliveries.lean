import TerminalCanvas.Conversation.Lifecycle

/-! # Deliveries

A transfer is claimed once, and a conversation answers one transfer at a time. -/

namespace TerminalCanvas.Conversations

open Execution

/-! ## One active transfer for each target -/

/-- Two transfers to one target are not active together. -/
def Exclusive (transfers : List TransferRow) : Prop :=
  ∀ row ∈ transfers, ∀ other ∈ transfers, row.target = other.target →
    row.state.isActive = true → other.state.isActive = true → row = other

section Exclusivity

variable {state : State} {input : Input} {transfers : List TransferRow}

theorem not_active_of_idle {tables : Tables} {row other : TransferRow}
    (wellFormed : WellFormed tables) (member : row ∈ tables.transfers)
    (also : other ∈ tables.transfers) (idle : busy tables row.target row.id = false)
    (same : other.target = row.target) (active : other.state.isActive = true) : other = row := by
  by_contra differs
  have busies : busy tables row.target row.id = true := by
    refine List.any_eq_true.mpr ⟨other, also, ?_⟩
    have otherId : other.id ≠ row.id := fun equal => differs (wellFormed.unique also member equal)
    simp [same, otherId, active]
  rw [idle] at busies
  cases busies

theorem Move.exclusive {row other : TransferRow} {data : Transfer}
    (wellFormed : WellFormed state.tables) (exclusive : Exclusive state.tables.transfers)
    (member : row ∈ state.tables.transfers) (also : other ∈ state.tables.transfers)
    (move : Move state input row data) (same : other.target = row.target)
    (active : data.state.isActive = true) (otherActive : other.state.isActive = true) :
    other = row := by
  rcases move.active active with before | ⟨binding, deliverable⟩
  · exact exclusive other also row member same otherActive before
  · exact not_active_of_idle wellFormed member also deliverable.idle same otherActive

theorem Effect.exclusive (wellFormed : WellFormed state.tables)
    (exclusive : Exclusive state.tables.transfers) (effect : Effect state input transfers) :
    Exclusive transfers := by
  cases effect with
  | kept same =>
      rw [same]
      exact exclusive
  | @sent _ _ _ _ sent _ born appended =>
      have waits : sent.state.isActive = false := by
        obtain ⟨automatic, -, state⟩ := born.state
        rw [state]
        cases automatic <;> rfl
      rw [appended]
      intro row member other also same active otherActive
      rcases List.mem_append.mp member with old | new
      · rcases List.mem_append.mp also with otherOld | otherNew
        · exact exclusive row old other otherOld same active otherActive
        · rw [List.mem_singleton.mp otherNew, waits] at otherActive
          cases otherActive
      · rw [List.mem_singleton.mp new, waits] at active
        cases active
  | moved moves move result =>
      rw [result]
      intro row member other also same active otherActive
      rcases mem_replaceRow.mp member with ⟨old, differs⟩ | ⟨-, rfl⟩
      · rcases mem_replaceRow.mp also with ⟨otherOld, -⟩ | ⟨-, rfl⟩
        · exact exclusive row old other otherOld same active otherActive
        · exact absurd (move.exclusive wellFormed exclusive moves old same otherActive active)
            differs
      · rcases mem_replaceRow.mp also with ⟨otherOld, differs⟩ | ⟨-, rfl⟩
        · exact absurd (move.exclusive wellFormed exclusive moves otherOld same.symm active
            otherActive) differs
        · rfl
  | withdrawn _ _ result =>
      rw [result]
      intro row member other also same active otherActive
      obtain ⟨before, old, rfl⟩ := mem_withdraw.mp member
      obtain ⟨otherBefore, otherOld, rfl⟩ := mem_withdraw.mp also
      split at active
      · cases active
      · split at otherActive
        · cases otherActive
        · next kept otherKept =>
            rw [if_neg kept, if_neg otherKept] at same ⊢
            exact exclusive before old otherBefore otherOld same active otherActive

end Exclusivity

theorem after_exclusive (codec : Codec) (inputs : List Input) :
    Exclusive (after codec inputs).tables.transfers := by
  have holds := (machine codec).run_invariant
    (fun state => Invariant state ∧ Exclusive state.tables.transfers) ?_
    ⟨.empty, by intro row member; cases member⟩ inputs
  · exact holds.2
  · rintro state input ⟨invariant, exclusive⟩
    exact ⟨invariant.next codec input,
      (step_effect codec invariant input).exclusive invariant.wellFormed exclusive⟩

/-! ## Claims -/

/-- A step in which `claim` returns this transfer. -/
def claims (codec : Codec) (id : Uuid) (moment : State × Input) : Bool :=
  match (machine codec).observe moment.1 moment.2 with
  | .claimed (.ok (some transfer)) => transfer.id = id
  | _ => false

/-- A transfer that was handed to its target. -/
def Claimed (id : Uuid) (state : State) : Prop :=
  ∃ row ∈ state.tables.transfers, row.id = id ∧ row.state.isClaimed = true

section Claims

variable {codec : Codec} {state : State} {input : Input} {id : Uuid}

theorem begin_not_claimed {loaded : Except StoreError Pending}
    {result : Except StoreError (Option Transfer)} :
    (begin state loaded).observation ≠ .claimed result := by
  cases loaded with
  | ok operation => nofun
  | error error => nofun

theorem Resumed.wrote_not_claimed {world : World} {tables next : Tables} {waits : Option Pending}
    {result : Except StoreError (Option Transfer)} :
    (Resumed.wrote world tables next waits).observation ≠ .claimed result := by
  unfold Resumed.wrote
  split
  · cases waits with
    | some operation => nofun
    | none => nofun
  · nofun

theorem resumePending_not_claimed {world : World} {tables : Tables} {operation : Pending}
    {result : Except StoreError (Option Transfer)} :
    (resumePending world tables operation).observation ≠ .claimed result := by
  cases operation with
  | approving transfer =>
      unfold resumePending
      simp only
      split
      · nofun
      · nofun
  | approved transfer => nofun
  | linking source target automatic => exact Resumed.wrote_not_claimed
  | activating id digest => exact Resumed.wrote_not_claimed
  | renewing lease id digest => exact Resumed.wrote_not_claimed
  | expiring => exact Resumed.wrote_not_claimed

theorem observe_claimed {result : Except StoreError (Option Transfer)}
    (observed : (machine codec).observe state input = .claimed result) :
    ∃ id binding world, input = .claim id binding world ∧
      (transact world (claim id binding world) state.tables).1 = result := by
  cases input with
  | claim id binding world =>
      exact ⟨id, binding, world, rfl, Observation.claimed.inj observed⟩
  | link source target automatic => exact absurd observed begin_not_claimed
  | activate id token => exact absurd observed begin_not_claimed
  | renewBridge lease id token => exact absurd observed begin_not_claimed
  | approve id => exact absurd observed begin_not_claimed
  | resume index world =>
      simp only [Machine.observe, machine, step] at observed
      split at observed
      · cases observed
      · exact absurd observed resumePending_not_claimed
  | register _ _ => cases observed
  | linkPair _ _ _ _ => cases observed
  | unlink _ _ _ => cases observed
  | revoke _ _ => cases observed
  | removeBridge _ _ => cases observed
  | setAvailable _ _ _ => cases observed
  | record _ _ _ _ _ _ _ => cases observed
  | send _ _ _ _ => cases observed
  | cancel _ _ _ => cases observed
  | deliveryResult _ _ _ => cases observed
  | reply _ _ _ _ => cases observed

theorem claims_eq_true (wellFormed : WellFormed state.tables)
    (claimed : claims codec id (state, input) = true) :
    ∃ binding world, input = .claim id binding world ∧ ∃ row ∈ state.tables.transfers,
      row.id = id ∧ Deliverable state.tables binding row ∧
      (machine codec).observe state input =
        .claimed (.ok (some { row.data with state := .dispatching, error := none })) ∧
      ((machine codec).next state input).tables.transfers =
        replaceRow state.tables.transfers row
          { row.data with state := .dispatching, error := none } := by
  unfold claims at claimed
  split at claimed
  · next transfer observed =>
      obtain ⟨requested, binding, world, rfl, answered⟩ := observe_claimed observed
      rcases transact_cases world (claim requested binding world) state.tables with
        ⟨answer, next, done, outcome⟩ | ⟨error, outcome⟩
      · rw [outcome] at answered
        cases answered
        have after : ((machine codec).next state (.claim requested binding world)).tables = next :=
          congrArg Prod.snd outcome
        rcases claim_cases wellFormed done with ⟨nothing, -⟩ | ⟨row, member, rfl, rest⟩
        · cases nothing
        · rcases rest with ⟨nothing, -⟩ | ⟨deliverable, answer, result⟩
          · cases nothing
          · cases answer
            have sameId : row.id = id := by
              rw [← (wellFormed.columns row member).id]
              simpa using claimed
            subst sameId
            exact ⟨binding, world, rfl, row, member, rfl, deliverable, observed, after ▸ result⟩
      · rw [outcome] at answered
        cases answered
  · cases claimed

theorem claims_claimed (invariant : Invariant state)
    (claimed : claims codec id (state, input) = true) :
    Claimed id ((machine codec).next state input) := by
  obtain ⟨binding, world, -, row, member, sameId, -, -, result⟩ :=
    claims_eq_true invariant.wellFormed claimed
  refine ⟨row.withData { row.data with state := .dispatching, error := none }, ?_, sameId, rfl⟩
  rw [result]
  exact mem_replaceRow.mpr (.inr ⟨member, rfl⟩)

theorem claims_not_claimed (invariant : Invariant state)
    (claimed : claims codec id (state, input) = true) : ¬ Claimed id state := by
  obtain ⟨binding, world, -, row, member, sameId, deliverable, -, -⟩ :=
    claims_eq_true invariant.wellFormed claimed
  rintro ⟨other, also, otherId, spent⟩
  cases invariant.wellFormed.unique also member (otherId.trans sameId.symm)
  rw [deliverable.pending] at spent
  cases spent

theorem Claimed.mono {first second : State}
    (continues : Continues first.tables.transfers second.tables.transfers)
    (claimed : Claimed id first) : Claimed id second := by
  obtain ⟨row, member, sameId, spent⟩ := claimed
  obtain ⟨later, laterMember, laterId, -, reaches⟩ := continues row member
  exact ⟨later, laterMember, laterId.trans sameId, TransferState.isClaimed_mono spent reaches⟩

end Claims

/-- A transfer is claimed once at most, its state only advances, also where the column
and the data say it, and no target has two transfers in its hands. -/
theorem delivered_at_most_once (codec : Codec) (inputs : List Input) :
    (∀ id, ((machine codec).trace .empty inputs).countP (claims codec id) ≤ 1) ∧
    (∀ later id row, (after codec inputs).tables.transfer id = some row →
      ∃ final, (after codec (inputs ++ later)).tables.transfer id = some final ∧
        (row.state = .completed → final.state = .completed) ∧
        (row.state = .cancelled → final.state = .cancelled) ∧
        (row.state = .failed → final.state = .failed ∨ final.state = .cancelled)) ∧
    (∀ input later id, claims codec id (after codec inputs, input) = true →
      ∃ final, (after codec (inputs ++ input :: later)).tables.transfer id = some final ∧
        final.state ≠ .awaitingApproval ∧ final.state ≠ .pending ∧
        final.state ≠ .needsReview) ∧
    (∀ row ∈ (after codec inputs).tables.transfers, row.data.state = row.state) ∧
    (∀ row ∈ (after codec inputs).tables.transfers,
      ∀ other ∈ (after codec inputs).tables.transfers,
      row.target = other.target → row.state.isActive = true → other.state.isActive = true →
        row.id = other.id) := by
  have invariant := after_invariant codec inputs
  refine ⟨?_, ?_, ?_, ?_, ?_⟩
  · intro id
    exact (machine codec).countP_trace_le_one Invariant (Claimed id) (claims codec id)
      (fun _ input invariant => invariant.next codec input)
      (fun _ input invariant claimed => claimed.mono (step_effect codec invariant input).continues)
      (fun _ _ invariant claimed => claims_not_claimed invariant claimed)
      (fun _ _ invariant claimed => claims_claimed invariant claimed) .empty inputs
  · intro later id row found
    obtain ⟨member, rfl⟩ := Tables.transfer_eq_some found
    obtain ⟨final, finalMember, sameId, -, reaches⟩ :=
      continues_run codec invariant later row member
    rw [← after_append] at finalMember
    have reached := after_invariant codec (inputs ++ later)
    refine ⟨final, sameId ▸ reached.wellFormed.transfer_of_mem finalMember, ?_, ?_, ?_⟩
    · intro completed
      rw [completed] at reaches
      simpa [TransferState.reaches] using reaches
    · intro cancelled
      rw [cancelled] at reaches
      simpa [TransferState.reaches] using reaches
    · intro failed
      rw [failed] at reaches
      cases held : final.state <;> simp_all [TransferState.reaches]
  · intro input later id claimed
    have first := claims_claimed invariant claimed
    have continues := continues_run codec (invariant.next codec input) later
    obtain ⟨final, member, sameId, spent⟩ := first.mono continues
    have same : after codec (inputs ++ input :: later) =
        (machine codec).run ((machine codec).next (after codec inputs) input) later :=
      after_append inputs (input :: later)
    rw [← same] at member
    have reached := after_invariant codec (inputs ++ input :: later)
    refine ⟨final, sameId ▸ reached.wellFormed.transfer_of_mem member, ?_, ?_, ?_⟩
    · intro equal
      rw [equal] at spent
      cases spent
    · intro equal
      rw [equal] at spent
      cases spent
    · intro equal
      rw [equal] at spent
      cases spent
  · intro row member
    exact (invariant.wellFormed.columns row member).state
  · intro row member other also same active otherActive
    rw [after_exclusive codec inputs row member other also same active otherActive]

end TerminalCanvas.Conversations
