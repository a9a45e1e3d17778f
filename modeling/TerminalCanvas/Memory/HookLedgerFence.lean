import TerminalCanvas.Memory.HookLedgerEpoch
import TerminalCanvas.Memory.HookLedgerInvariant
import TerminalCanvas.Memory.HookLedgerReceipts

/-! # One birth, one fence

A birth is spent by the first permit handed out for it and stays spent. A leaf
whose retirement is fenced takes no transition but the retirement of the fenced
claim, and a birth that was unspent at the fence stays unspent. -/

namespace TerminalCanvas.Memory.HookLedger

open TerminalCanvas.HookAuthority TerminalCanvas.Transaction TerminalCanvas.Execution

/-! ## Generation rows under a step -/

/-- What a step keeps of a generation row. -/
structure RowGrows (old next : GenerationRow) : Prop where
  key : next.key = old.key
  spent : old.spawnConsumed = true → next.spawnConsumed = true

section Transitions

variable {tables final : Tables} {intent : LedgerIntent} {receipt : LedgerReceipt}

private theorem row_born {generation fresh : Uuid} {old row : GenerationRow}
    (found : tables.generationAt generation = some old)
    (unused : tables.generationAt fresh = none) :
    (tables.putGeneration fresh row).generationAt generation = some old := by
  have different : generation ≠ fresh := by
    rintro rfl
    cases found.symm.trans unused
  rw [Tables.generationAt_putGeneration, if_neg different]
  exact found

private theorem row_activated {generation other : Uuid} {old row : GenerationRow}
    {guard : GenerationPhase → Bool} (found : tables.generationAt generation = some old)
    (stored : tables.generationAt other = some row) (live : row.phase ≠ .retired) :
    ∃ next, (tables.activate other row guard).generationAt generation = some next ∧
      next.key = old.key ∧ next.spawnConsumed = old.spawnConsumed := by
  by_cases here : generation = other
  · subst here
    cases found.symm.trans stored
    rcases tables.generationAt_activate_self generation old guard found live with
      ⟨phase, -, held⟩
    exact ⟨_, held, rfl, rfl⟩
  · exact ⟨old, (tables.generationAt_activate_of_ne other row guard here).trans found, rfl, rfl⟩

theorem Transition.generation_kept {generation : Uuid} {old : GenerationRow}
    (moved : Transition tables intent receipt final)
    (found : tables.generationAt generation = some old) :
    ∃ next, final.generationAt generation = some next ∧ next.key = old.key ∧
      next.spawnConsumed = old.spawnConsumed := by
  cases moved with
  | reserveFirst absent fresh => exact ⟨old, row_born found fresh, rfl, rfl⟩
  | reserveAgain current retired fresh => exact ⟨old, row_born found fresh, rfl, rfl⟩
  | observeExisting absent named fresh => exact ⟨old, row_born found fresh, rfl, rfl⟩
  | install current phase proved live => exact row_activated found live.found live.notRetired
  | adopt current phase proved live => exact row_activated found live.found live.notRetired
  | @retireBound expected other row current phase named stored notRetired =>
      by_cases here : generation = other
      · subst here
        cases found.symm.trans stored
        exact ⟨_, Table.find_put_self .., rfl, rfl⟩
      · refine ⟨old, ?_, rfl, rfl⟩
        rw [Tables.generationAt_putGeneration, if_neg here]
        exact found
  | _ => exact ⟨old, found, rfl, rfl⟩

theorem Transition.authorizedBirth {key : LeafKey} {next : Claim}
    (moved : Transition tables intent receipt final)
    (found : final.claimAt key = some next) (phase : next.phase = .authorizedBirth) :
    tables.claimAt key = some next ∨
      ∀ generation, next.generation = some generation →
        tables.generationAt generation = none := by
  have kept {written : Claim} (stored : (tables.putClaim written).claimAt key = some next)
      (other : written.phase ≠ .authorizedBirth) : tables.claimAt key = some next := by
    rw [Tables.claimAt_putClaim] at stored
    split at stored
    · cases stored
      exact absurd phase other
    · exact stored
  have born {birth : BirthBinding} {row : GenerationRow} {owner : Uuid} {epoch : Int}
      {leaf : LeafKey} (fresh : tables.generationAt birth.generation = none)
      (stored : ((tables.putGeneration birth.generation row).putClaim
        (reservedClaim leaf birth owner epoch)).claimAt key = some next) :
      tables.claimAt key = some next ∨
        ∀ generation, next.generation = some generation →
          tables.generationAt generation = none := by
    rw [Tables.claimAt_putClaim] at stored
    split at stored
    · cases stored
      right
      rintro generation ⟨⟩
      exact fresh
    · exact .inl stored
  cases moved with
  | reserveFirst absent fresh => exact born fresh found
  | reserveAgain current retired fresh => exact born fresh found
  | install | adopt =>
      rw [Tables.claimAt_activate] at found
      exact .inl (kept found (by simp [installedClaim, adoptedClaim]))
  | fenceRetire => exact .inl (kept found (by simp [fencedClaim]))
  | retireLegacy | retireBound => exact .inl (kept found (by simp [retiredClaim]))
  | release => exact .inl (kept found (by simp [releasedClaim]))
  | adoptLegacy => exact .inl (kept found (by simp [adoptedClaim]))
  | observeExisting | importLegacy | importLegacyRoot =>
      exact .inl (kept found (by simp [firstClaim]))
  | closeAlias | closeAliasUnset => exact .inl found

theorem Transition.of_retiring {key : LeafKey} {claim : Claim}
    (moved : Transition tables intent receipt final)
    (found : tables.claimAt key = some claim) (phase : claim.phase = .retiring)
    (leaf : intent.leaf = some key) : intent = .retire claim := by
  have same {expected : Claim} (current : tables.claimAt expected.key = some expected)
      (here : some expected.key = some key) : expected = claim := by
    cases here
    exact Option.some.inj (current.symm.trans found)
  cases moved with
  | reserveFirst absent | observeExisting absent | importLegacy absent
  | importLegacyRoot absent =>
      cases leaf
      cases absent.symm.trans found
  | reserveAgain current retired =>
      cases leaf
      cases current.symm.trans found
      simp [phase] at retired
  | install current stage | release current stage | adopt current stage
  | adoptLegacy current _ _ stage =>
      cases same current leaf
      simp [phase] at stage
  | fenceRetire current authorized =>
      cases same current leaf
      simp [phase, ClaimPhase.authorized] at authorized
  | retireLegacy current | retireBound current =>
      cases same current leaf
      rfl
  | closeAlias | closeAliasUnset => cases leaf

end Transitions

/-! ## Births are spent once -/

/-- The step hands out a spawn permit for a generation. -/
def permitsGeneration (generation : Uuid) (step : Tables × LedgerInput) : Bool :=
  match ledger.observe step.1 step.2 with
  | .permit (.ok (some permit)) => permit.claim.generation == some generation
  | _ => false

def Spent (generation : Uuid) (tables : Tables) : Prop :=
  ∃ row, tables.generationAt generation = some row ∧ row.spawnConsumed = true

theorem permitsGeneration_iff {generation : Uuid} {tables : Tables} {input : LedgerInput} :
    permitsGeneration generation (tables, input) = true ↔
      ∃ permit, Permits tables input permit ∧ permit.claim.generation = some generation := by
  unfold permitsGeneration Permits
  constructor
  · intro permits
    split at permits
    · next permit handed => exact ⟨permit, handed, by simpa using permits⟩
    · cases permits
  · rintro ⟨permit, handed, named⟩
    simp [handed, named]

theorem generationAt_next {tables : Tables} {generation : Uuid} {old : GenerationRow}
    (found : tables.generationAt generation = some old) (input : LedgerInput) :
    ∃ next, (ledger.next tables input).generationAt generation = some next ∧
      RowGrows old next := by
  rcases next_cases tables input with same | change
  · exact ⟨old, by rw [same, found], rfl, id⟩
  · generalize ledger.next tables input = final at change
    cases change with
    | intent commits fresh moved =>
        rcases moved.generation_kept found with ⟨next, held, key, spent⟩
        exact ⟨next, held, key, fun consumed => spent.trans consumed⟩
    | @consume expected other row consumable =>
        by_cases here : generation = other
        · subst here
          cases found.symm.trans consumable.live.found
          exact ⟨_, Table.find_put_self .., rfl, fun _ => rfl⟩
        · refine ⟨old, ?_, rfl, id⟩
          rw [Tables.generationAt_putGeneration, if_neg here]
          exact found

theorem Spent.next {generation : Uuid} {tables : Tables} (spent : Spent generation tables)
    (input : LedgerInput) : Spent generation (ledger.next tables input) := by
  rcases spent with ⟨row, found, consumed⟩
  rcases generationAt_next found input with ⟨next, held, grows⟩
  exact ⟨next, held, grows.spent consumed⟩

theorem spends_of_permits {generation : Uuid} {tables : Tables} {input : LedgerInput}
    (permits : permitsGeneration generation (tables, input) = true) :
    ¬ Spent generation tables ∧ Spent generation (ledger.next tables input) := by
  rcases permitsGeneration_iff.mp permits with ⟨permit, handed, named⟩
  rcases handed.consumes with ⟨nonce, row, consumable, next⟩
  cases named.symm.trans consumable.live.named
  constructor
  · rintro ⟨other, found, consumed⟩
    cases consumable.live.found.symm.trans found
    simp [consumable.unspent] at consumed
  · rw [next]
    exact ⟨_, Table.find_put_self .., rfl⟩

theorem permits_at_most_once (inputs : List LedgerInput) (generation : Uuid) :
    (ledger.trace .empty inputs).countP (permitsGeneration generation) ≤ 1 :=
  ledger.countP_trace_le_one (fun _ => True) (Spent generation) (permitsGeneration generation)
    (fun _ _ _ => trivial) (fun _ input _ spent => spent.next input)
    (fun _ _ _ permits => (spends_of_permits permits).1)
    (fun _ _ _ permits => (spends_of_permits permits).2) trivial inputs

theorem no_permit_of_unspent {generation : Uuid} {tables : Tables} (inputs : List LedgerInput)
    (unspent : ¬ Spent generation (ledger.run tables inputs)) :
    (ledger.trace tables inputs).countP (permitsGeneration generation) = 0 := by
  rw [List.countP_eq_zero]
  rintro ⟨state, input⟩ member permits
  rcases (ledger.mem_trace_iff).mp member with ⟨before, after, rfl, rfl⟩
  apply unspent
  rw [Machine.run_append, Machine.run_cons]
  exact ledger.run_invariant (Spent generation) (fun _ input spent => spent.next input)
    (spends_of_permits permits).2 after

/-! ## The fence -/

/-- The request asks to act for a leaf: an intent that gives or moves its
authority, its birth, or a validation of its claim. -/
def LedgerRequest.actsFor (request : LedgerRequest) (key : LeafKey) : Prop :=
  match request with
  | .applyIntent _ _ intent =>
      match intent with
      | .reserve .. | .install .. | .release .. | .adopt .. | .adoptLegacy .. =>
          intent.leaf = some key
      | _ => False
  | .consumeBirthOnce expected | .validateSpawn expected => expected.key = key
  | .validateOwned context => context.claim.key = key

/-- The leaf of a fenced claim, whose receipts for that leaf are those stored
before the fence. -/
structure Fenced (original : Tables) (claim : Claim) (tables : Tables) : Prop where
  current : tables.claimAt claim.key = some (fencedClaim claim)
  receipts : ∀ key row, tables.receiptAt key = some row →
    row.intentJson.leaf = some claim.key → row.intentJson ≠ .fenceRetire claim →
    original.receiptAt key = some row

section Fence

variable {original tables : Tables} {claim : Claim} {input : LedgerInput}

theorem Commits.fenced {receipt : LedgerReceipt}
    (commits : Commits tables input (.fenceRetire claim) receipt) :
    Fenced tables claim (ledger.next tables input) := by
  rcases commits.transition with ⟨middle, operation, moved, equal⟩
  cases moved
  rw [equal]
  constructor
  · simp [fencedClaim]
  · intro key row stored leaf other
    rw [Tables.receiptAt_putReceipt] at stored
    split at stored
    · cases stored
      exact absurd rfl other
    · exact stored

theorem Fenced.next (fenced : Fenced original claim tables) (input : LedgerInput)
    (notRetired : ∀ receipt, ¬ Commits tables input (.retire (fencedClaim claim)) receipt) :
    Fenced original claim (ledger.next tables input) := by
  rcases next_cases tables input with same | change
  · rw [same]
    exact fenced
  · generalize ledger.next tables input = final at change
    cases change with
    | consume consumable => exact ⟨fenced.current, fenced.receipts⟩
    | @intent operation intent receipt middle commits fresh moved =>
        have elsewhere : intent.leaf ≠ some claim.key := by
          intro leaf
          have retires := moved.of_retiring fenced.current rfl leaf
          rw [retires] at commits
          exact notRetired receipt commits
        constructor
        · rcases moved.advances fenced.current with ⟨next, held, ⟨rfl, -⟩ | ⟨-, leaf⟩⟩
          · exact held
          · exact absurd leaf elsewhere
        · intro key row stored leaf other
          rw [Tables.receiptAt_putReceipt] at stored
          split at stored
          · cases stored
            exact absurd leaf elsewhere
          · rw [moved.receiptAt] at stored
            exact fenced.receipts key row stored leaf other

/-- Acting for a fenced leaf succeeds only by repeating an operation whose
receipt was stored before the fence. -/
theorem Fenced.replays {request : LedgerRequest} {commit : Except String Unit}
    (fenced : Fenced original claim tables) (acts : request.actsFor claim.key)
    (succeeds : (ledger.observe tables ⟨request, commit⟩).succeeds) :
    ∃ owner operation intent receipt, request = .applyIntent owner operation intent ∧
      original.receiptAt ⟨owner, operation⟩ = some ⟨intent, receipt⟩ ∧
      ledger.step tables ⟨request, commit⟩ = ⟨tables, .receipt (.ok receipt)⟩ := by
  have lost {expected : Claim} (current : tables.claimAt expected.key = some expected)
      (here : expected.key = claim.key) : expected.phase = .retiring := by
    rw [here, fenced.current] at current
    cases current
    rfl
  cases request with
  | applyIntent owner operation intent =>
      rcases immediate_cases commit (applyIntent owner operation intent) tables with
        ⟨receipt, final, run, -, done⟩ | ⟨error, done⟩
      · rcases applyIntent_ok run with ⟨cached, rfl⟩ | ⟨-, middle, moved, -⟩
        · refine ⟨owner, operation, intent, receipt, rfl, ?_, ?_⟩
          · apply fenced.receipts _ _ cached
            · cases intent <;> simp_all [LedgerRequest.actsFor]
            · rintro rfl
              exact acts
          · simp [ledger, transact, done]
        · have leaf : intent.leaf = some claim.key := by
            cases intent <;> simp_all [LedgerRequest.actsFor]
          cases moved.of_retiring fenced.current rfl leaf
          cases acts
      · simp [Machine.observe, ledger, transact, done] at succeeds
  | consumeBirthOnce expected =>
      rcases immediate_cases commit (consumeBirthOnce expected) tables with
        ⟨_, final, run, -, -⟩ | ⟨error, done⟩
      · rcases consumeBirthOnce_ok run with ⟨current, phase, -⟩
        simp [lost current acts] at phase
      · simp [Machine.observe, ledger, transact, done] at succeeds
  | validateSpawn expected =>
      rcases immediate_cases commit (validateSpawn expected) tables with
        ⟨_, final, run, -, -⟩ | ⟨error, done⟩
      · rcases validateSpawn_ok run with ⟨current, phase, -⟩
        simp [lost current acts] at phase
      · simp [Machine.observe, ledger, transact, done] at succeeds
  | validateOwned context =>
      rcases immediate_cases commit (validateOwned context) tables with
        ⟨_, final, run, -, -⟩ | ⟨error, done⟩
      · rcases (validateOwned_ok run).1 with ⟨current, held, same⟩
        rw [show context.claim.key = claim.key from acts, fenced.current] at held
        cases held
        have authorized := (sameAuthority_iff.mp same).1
        cases authorized
      · simp [Machine.observe, ledger, transact, done] at succeeds

end Fence

/-! ## A birth fenced before it was spent -/

/-- A birth of a leaf that is not spent and can no longer be. -/
structure Unborn (generation : Uuid) (key : LeafKey) (tables : Tables) : Prop where
  unspent : ∃ row, tables.generationAt generation = some row ∧ row.key = key ∧
    row.spawnConsumed = false
  closed : ∀ claim, tables.claimAt key = some claim → claim.generation = some generation →
    claim.phase ≠ .authorizedBirth

section Unborn

variable {tables : Tables} {generation : Uuid} {key : LeafKey}

theorem Unborn.next (unborn : Unborn generation key tables) (input : LedgerInput) :
    Unborn generation key (ledger.next tables input) := by
  rcases unborn.unspent with ⟨row, found, rowKey, unspent⟩
  rcases next_cases tables input with same | change
  · rw [same]
    exact unborn
  · generalize ledger.next tables input = final at change
    cases change with
    | intent commits fresh moved =>
        constructor
        · rcases moved.generation_kept found with ⟨next, held, nextKey, spent⟩
          exact ⟨next, held, nextKey.trans rowKey, spent.trans unspent⟩
        · intro claim held named phase
          rcases moved.authorizedBirth held phase with before | unseen
          · exact unborn.closed claim before named phase
          · cases found.symm.trans (unseen generation named)
    | @consume expected other stored consumable =>
        have different : generation ≠ other := by
          rintro rfl
          cases found.symm.trans consumable.live.found
          have here : expected.key = key := consumable.live.key.symm.trans rowKey
          exact unborn.closed expected (here ▸ consumable.current) consumable.live.named
            consumable.phase
        constructor
        · refine ⟨row, ?_, rowKey, unspent⟩
          rw [Tables.generationAt_putGeneration, if_neg different]
          exact found
        · exact unborn.closed

theorem Commits.unborn {input : LedgerInput} {claim : Claim} {receipt : LedgerReceipt}
    {row : GenerationRow} (wellFormed : WellFormed tables)
    (commits : Commits tables input (.fenceRetire claim) receipt)
    (named : claim.generation = some generation)
    (found : tables.generationAt generation = some row) (unspent : row.spawnConsumed = false) :
    Unborn generation claim.key (ledger.next tables input) := by
  rcases commits.transition with ⟨middle, operation, moved, equal⟩
  cases moved with
  | fenceRetire current authorized =>
      rcases wellFormed.registered _ _ _ current named with ⟨same, stored, rowKey, -⟩
      cases found.symm.trans stored
      rw [equal]
      constructor
      · exact ⟨row, found, rowKey, unspent⟩
      · intro next held _
        have written : fencedClaim claim = next := by simpa [fencedClaim] using held
        simp [← written, fencedClaim]

theorem Unborn.run (unborn : Unborn generation key tables) (inputs : List LedgerInput) :
    Unborn generation key (ledger.run tables inputs) :=
  ledger.run_invariant (Unborn generation key) (fun _ input held => held.next input) unborn inputs

theorem Unborn.not_spent (unborn : Unborn generation key tables) : ¬ Spent generation tables := by
  rintro ⟨row, found, consumed⟩
  rcases unborn.unspent with ⟨same, held, -, unspent⟩
  cases found.symm.trans held
  simp [unspent] at consumed

end Unborn

/-! ## Runs -/

/-- Whatever the endpoints do, a birth yields one permit at most. From a
committed fence to the matching retirement, acting for the leaf succeeds only by
repeating an operation whose receipt was stored before the fence, which changes
no table. A birth unspent at the fence is never spent, and no permit is ever
handed out for it. -/
theorem fenced_leaf_only_replays :
    (∀ inputs generation,
      (ledger.trace .empty inputs).countP (permitsGeneration generation) ≤ 1) ∧
    (∀ before fence between claim receipt,
      Commits (ledger.run .empty before) fence (.fenceRetire claim) receipt →
      (∀ state input, (state, input) ∈
          ledger.trace (ledger.run .empty (before ++ [fence])) between →
        ∀ retired, ¬ Commits state input (.retire (fencedClaim claim)) retired) →
      ∀ request commit, request.actsFor claim.key →
        (ledger.observe (ledger.run .empty (before ++ [fence] ++ between))
          ⟨request, commit⟩).succeeds →
        ∃ owner operation intent result, request = .applyIntent owner operation intent ∧
          (ledger.run .empty before).receiptAt ⟨owner, operation⟩ = some ⟨intent, result⟩ ∧
          ledger.step (ledger.run .empty (before ++ [fence] ++ between)) ⟨request, commit⟩ =
            ⟨ledger.run .empty (before ++ [fence] ++ between), .receipt (.ok result)⟩) ∧
    (∀ before fence after claim receipt generation row,
      Commits (ledger.run .empty before) fence (.fenceRetire claim) receipt →
      claim.generation = some generation →
      (ledger.run .empty before).generationAt generation = some row →
      row.spawnConsumed = false →
      (∃ next, (ledger.run .empty (before ++ [fence] ++ after)).generationAt generation =
          some next ∧ next.spawnConsumed = false) ∧
        (ledger.trace .empty (before ++ [fence] ++ after)).countP
          (permitsGeneration generation) = 0) := by
  refine ⟨permits_at_most_once, ?_, ?_⟩
  · intro before fence between claim receipt commits notRetired request commit acts succeeds
    have fenced : Fenced (ledger.run .empty before) claim
        (ledger.run .empty (before ++ [fence] ++ between)) := by
      rw [Machine.run_append]
      apply ledger.run_invariant_of_trace (Fenced (ledger.run .empty before) claim)
        (fun state input => ∀ retired,
          ¬ Commits state input (.retire (fencedClaim claim)) retired)
      · exact fun state input allowed held => held.next input allowed
      · rw [Machine.run_append]
        exact commits.fenced
      · exact notRetired
    exact fenced.replays acts succeeds
  · intro before fence after claim receipt generation row commits named found unspent
    have unborn : Unborn generation claim.key
        (ledger.run .empty (before ++ [fence] ++ after)) := by
      rw [Machine.run_append, Machine.run_append]
      exact (commits.unborn (.run before) named found unspent).run after
    rcases unborn.unspent with ⟨next, held, -, stays⟩
    exact ⟨⟨next, held, stays⟩, no_permit_of_unspent _ unborn.not_spent⟩

/-- A birth reserved, consumed, installed and fenced. -/
theorem fenced_leaf_only_replays_installed :
    let birth : BirthBinding := ⟨.fromU128 4, .fromU128 5⟩
    let key : LeafKey := ⟨.fromU128 1, .fromU128 2, .fromU128 3⟩
    let claim := reservedClaim key birth (.fromU128 6) 1
    let host : HostEvidence := ⟨.fromU128 4, some (.fromU128 5), some (.from key)⟩
    let install : LedgerIntent := .install claim host
    let before : List LedgerInput :=
      [⟨.applyIntent (.fromU128 6) (.fromU128 7) (.reserve none key birth (.fromU128 6)), .ok ()⟩,
        ⟨.consumeBirthOnce claim, .ok ()⟩,
        ⟨.applyIntent (.fromU128 6) (.fromU128 8) install, .ok ()⟩]
    let fence : LedgerInput :=
      ⟨.applyIntent (.fromU128 6) (.fromU128 9) (.fenceRetire (installedClaim claim)), .ok ()⟩
    ∃ owner operation intent result,
      LedgerRequest.applyIntent (.fromU128 6) (.fromU128 8) install =
        .applyIntent owner operation intent ∧
      (ledger.run .empty before).receiptAt ⟨owner, operation⟩ = some ⟨intent, result⟩ ∧
      ledger.step (ledger.run .empty (before ++ [fence] ++ []))
          ⟨.applyIntent (.fromU128 6) (.fromU128 8) install, .ok ()⟩ =
        ⟨ledger.run .empty (before ++ [fence] ++ []), .receipt (.ok result)⟩ := by
  intro birth key claim host install before fence
  exact fenced_leaf_only_replays.2.1 before fence [] (installedClaim claim)
    (committed (fencedClaim (installedClaim claim)))
    ⟨.fromU128 6, .fromU128 9, rfl, by decide +kernel, by decide +kernel⟩
    (by simp) _ (.ok ()) rfl (by decide +kernel)

/-- The receipt of an installation answers behind the fence too. -/
theorem installation_repeated_behind_fence_succeeds :
    ¬ ∀ before fence between claim receipt,
      Commits (ledger.run .empty before) fence (.fenceRetire claim) receipt →
      (∀ state input, (state, input) ∈
          ledger.trace (ledger.run .empty (before ++ [fence])) between →
        ∀ retired, ¬ Commits state input (.retire (fencedClaim claim)) retired) →
      ∀ request commit, request.actsFor claim.key →
        (ledger.observe (ledger.run .empty (before ++ [fence] ++ between))
          ⟨request, commit⟩).succeeds = false := by
  intro excluded
  let birth : BirthBinding := ⟨.fromU128 4, .fromU128 5⟩
  let key : LeafKey := ⟨.fromU128 1, .fromU128 2, .fromU128 3⟩
  let claim := reservedClaim key birth (.fromU128 6) 1
  let host : HostEvidence := ⟨.fromU128 4, some (.fromU128 5), some (.from key)⟩
  let install : LedgerInput :=
    ⟨.applyIntent (.fromU128 6) (.fromU128 8) (.install claim host), .ok ()⟩
  let reserve : LedgerInput :=
    ⟨.applyIntent (.fromU128 6) (.fromU128 7) (.reserve none key birth (.fromU128 6)), .ok ()⟩
  let fence : LedgerInput :=
    ⟨.applyIntent (.fromU128 6) (.fromU128 9) (.fenceRetire (installedClaim claim)), .ok ()⟩
  have refused := excluded [reserve, ⟨.consumeBirthOnce claim, .ok ()⟩, install] fence []
    (installedClaim claim) (committed (fencedClaim (installedClaim claim)))
    ⟨.fromU128 6, .fromU128 9, rfl, by decide +kernel, by decide +kernel⟩ (by simp)
    install.request (.ok ()) rfl
  exact absurd refused (by decide +kernel)

end TerminalCanvas.Memory.HookLedger
