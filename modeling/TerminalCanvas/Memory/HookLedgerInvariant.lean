import TerminalCanvas.Memory.HookLedgerRun

/-! # The structural invariant of the ledger

The claims and the generations of the ledger describe the same births. Intents
change the two tables in four ways only: a leaf is born, its claim moves while
its birth stays, its claim retires together with its birth, or neither changes. -/

namespace TerminalCanvas.Memory.HookLedger

open TerminalCanvas.HookAuthority TerminalCanvas.Execution

/-- A live generation row is the birth of its leaf's current claim, and a bound
claim has its generation row, retired exactly when the claim is. -/
structure WellFormed (tables : Tables) : Prop where
  current : ∀ generation row, tables.generationAt generation = some row →
    row.phase ≠ .retired →
    ∃ claim, tables.claimAt row.key = some claim ∧ claim.generation = some generation ∧
      claim.runtime = row.runtimeId ∧ claim.phase ≠ .retired
  registered : ∀ key claim generation, tables.claimAt key = some claim →
    claim.generation = some generation →
    ∃ row, tables.generationAt generation = some row ∧ row.key = key ∧
      row.runtimeId = claim.runtime ∧ (row.phase = .retired ↔ claim.phase = .retired)

namespace WellFormed

theorem empty : WellFormed .empty where
  current := by simp [Tables.generationAt, Tables.empty]
  registered := by simp [Tables.claimAt, Tables.empty]

theorem live_unique {tables : Tables} (wellFormed : WellFormed tables)
    {left right : Uuid} {leftRow rightRow : GenerationRow}
    (leftFound : tables.generationAt left = some leftRow) (leftLive : leftRow.phase ≠ .retired)
    (rightFound : tables.generationAt right = some rightRow)
    (rightLive : rightRow.phase ≠ .retired) (sameLeaf : leftRow.key = rightRow.key) :
    left = right := by
  rcases wellFormed.current left leftRow leftFound leftLive with
    ⟨leftClaim, leftCurrent, leftNamed, -⟩
  rcases wellFormed.current right rightRow rightFound rightLive with
    ⟨rightClaim, rightCurrent, rightNamed, -⟩
  rw [sameLeaf, rightCurrent] at leftCurrent
  cases leftCurrent
  exact Option.some.inj (leftNamed.symm.trans rightNamed)

end WellFormed

/-- Two rows describe the same birth in the same stage of its life. -/
structure SameBirth (left right : GenerationRow) : Prop where
  key : left.key = right.key
  runtime : left.runtimeId = right.runtimeId
  retired : left.phase = .retired ↔ right.phase = .retired

theorem SameBirth.refl (row : GenerationRow) : SameBirth row row := ⟨rfl, rfl, .rfl⟩

/-- Generation rows keep their births from one state to the next. -/
def KeepsBirths (tables final : Tables) : Prop :=
  ∀ generation, Option.Rel SameBirth (tables.generationAt generation)
    (final.generationAt generation)

theorem KeepsBirths.of_eq {tables final : Tables}
    (same : final.generationAt = tables.generationAt) : KeepsBirths tables final := by
  intro generation
  rw [same]
  cases tables.generationAt generation with
  | none => exact .none
  | some row => exact .some (.refl row)

theorem KeepsBirths.replaced {tables : Tables} {generation : Uuid} {old row : GenerationRow}
    (found : tables.generationAt generation = some old) (same : SameBirth old row) :
    KeepsBirths tables (tables.putGeneration generation row) := by
  intro other
  rw [Tables.generationAt_putGeneration]
  split
  · next here =>
      rw [here, found]
      exact .some same
  · exact KeepsBirths.of_eq rfl other

theorem KeepsBirths.activate {tables : Tables} {generation : Uuid} {row : GenerationRow}
    {guard : GenerationPhase → Bool} (found : tables.generationAt generation = some row)
    (live : row.phase ≠ .retired) : KeepsBirths tables (tables.activate generation row guard) := by
  unfold Tables.activate
  split
  · exact .replaced found ⟨rfl, rfl, by simp [live]⟩
  · exact .of_eq rfl

namespace WellFormed

variable {tables final : Tables} (wellFormed : WellFormed tables)
include wellFormed

theorem unchanged (claims : final.claimAt = tables.claimAt)
    (births : KeepsBirths tables final) : WellFormed final where
  current generation row found live := by
    have kept := births generation
    rw [found] at kept
    cases before : tables.generationAt generation with
    | none =>
        rw [before] at kept
        cases kept
    | some old =>
        rw [before] at kept
        cases kept with
        | some same =>
            rw [claims, ← same.key, ← same.runtime]
            exact wellFormed.current generation old before (fun gone => live (same.retired.mp gone))
  registered key claim generation found named := by
    rw [claims] at found
    rcases wellFormed.registered key claim generation found named with
      ⟨old, before, oldKey, oldRuntime, oldRetired⟩
    have kept := births generation
    rw [before] at kept
    cases after : final.generationAt generation with
    | none =>
        rw [after] at kept
        cases kept
    | some row =>
        rw [after] at kept
        cases kept with
        | some same =>
            exact ⟨row, rfl, same.key ▸ oldKey, same.runtime ▸ oldRuntime,
              same.retired.symm.trans oldRetired⟩

theorem moved {old : Claim} (next : Claim) (before : tables.claimAt old.key = some old)
    (sameKey : next.key = old.key)
    (claims : ∀ key, final.claimAt key =
      if key = next.key then some next else tables.claimAt key)
    (generation : next.generation = old.generation) (runtime : next.runtime = old.runtime)
    (oldLive : old.phase ≠ .retired) (nextLive : next.phase ≠ .retired)
    (births : KeepsBirths tables final) : WellFormed final where
  current nonce row found live := by
    rw [← sameKey] at before
    have kept := births nonce
    rw [found] at kept
    cases stored : tables.generationAt nonce with
    | none =>
        rw [stored] at kept
        cases kept
    | some oldRow =>
        rw [stored] at kept
        cases kept with
        | some same =>
            rcases wellFormed.current nonce oldRow stored
              (fun gone => live (same.retired.mp gone)) with
              ⟨claim, claimed, named, sameRuntime, notRetired⟩
            rw [claims, ← same.key, ← same.runtime]
            split
            · next here =>
                rw [here, before] at claimed
                cases claimed
                exact ⟨next, rfl, generation.trans named, runtime.trans sameRuntime, nextLive⟩
            · exact ⟨claim, claimed, named, sameRuntime, notRetired⟩
  registered key claim nonce found named := by
    have source : ∃ former, tables.claimAt key = some former ∧
        former.generation = claim.generation ∧ former.runtime = claim.runtime ∧
        (former.phase = .retired ↔ claim.phase = .retired) := by
      rw [claims] at found
      split at found
      · next here =>
          cases found
          exact ⟨old, here ▸ sameKey ▸ before, generation.symm, runtime.symm,
            by simp [oldLive, nextLive]⟩
      · exact ⟨claim, found, rfl, rfl, .rfl⟩
    rcases source with ⟨former, held, sameGeneration, sameRuntime, sameRetired⟩
    rcases wellFormed.registered key former nonce held (sameGeneration.trans named) with
      ⟨oldRow, stored, rowKey, rowRuntime, rowRetired⟩
    have kept := births nonce
    rw [stored] at kept
    cases after : final.generationAt nonce with
    | none =>
        rw [after] at kept
        cases kept
    | some row =>
        rw [after] at kept
        cases kept with
        | some same =>
            exact ⟨row, rfl, same.key ▸ rowKey,
              same.runtime ▸ rowRuntime.trans sameRuntime,
              same.retired.symm.trans (rowRetired.trans sameRetired)⟩

theorem retired {old : Claim} (next : Claim) (before : tables.claimAt old.key = some old)
    (sameKey : next.key = old.key)
    (claims : ∀ key, final.claimAt key =
      if key = next.key then some next else tables.claimAt key)
    (generation : next.generation = old.generation) (phase : next.phase = .retired)
    (births : ∀ nonce, old.generation ≠ some nonce →
      final.generationAt nonce = tables.generationAt nonce)
    (gone : ∀ nonce, old.generation = some nonce →
      ∃ row, final.generationAt nonce = some row ∧ row.key = next.key ∧
        row.runtimeId = next.runtime ∧ row.phase = .retired) : WellFormed final where
  current nonce row found live := by
    rw [← sameKey] at before
    by_cases named : old.generation = some nonce
    · rcases gone nonce named with ⟨dead, stored, -, -, isRetired⟩
      rw [found] at stored
      cases stored
      exact absurd isRetired live
    · rw [births nonce named] at found
      rcases wellFormed.current nonce row found live with ⟨claim, claimed, bound, rest⟩
      have elsewhere : row.key ≠ next.key := by
        intro here
        rw [here, before] at claimed
        cases claimed
        exact named bound
      rw [claims, if_neg elsewhere]
      exact ⟨claim, claimed, bound, rest⟩
  registered key claim nonce found named := by
    rw [claims] at found
    split at found
    · next here =>
        cases found
        rcases gone nonce (generation ▸ named) with ⟨row, stored, rowKey, runtime, isRetired⟩
        exact ⟨row, stored, rowKey.trans here.symm, runtime, by simp [isRetired, phase]⟩
    · next elsewhere =>
        rcases wellFormed.registered key claim nonce found named with ⟨row, stored, rowKey, rest⟩
        have other : old.generation ≠ some nonce := by
          intro bound
          rcases wellFormed.registered old.key old nonce before bound with
            ⟨same, stored', oldKey, -⟩
          rw [stored] at stored'
          cases stored'
          exact elsewhere ((rowKey.symm.trans oldKey).trans sameKey.symm)
        exact ⟨row, (births nonce other).trans stored, rowKey, rest⟩

theorem born (next : Claim)
    (vacant : ∀ old, tables.claimAt next.key = some old → old.phase = .retired)
    (claims : ∀ key, final.claimAt key =
      if key = next.key then some next else tables.claimAt key)
    (phase : next.phase ≠ .retired)
    (births : ∀ nonce, next.generation ≠ some nonce →
      final.generationAt nonce = tables.generationAt nonce)
    (fresh : ∀ nonce, next.generation = some nonce →
      tables.generationAt nonce = none ∧
        ∃ row, final.generationAt nonce = some row ∧ row.key = next.key ∧
          row.runtimeId = next.runtime ∧ row.phase ≠ .retired) : WellFormed final where
  current nonce row found live := by
    by_cases named : next.generation = some nonce
    · rcases (fresh nonce named).2 with ⟨newborn, stored, rowKey, runtime, -⟩
      rw [found] at stored
      cases stored
      rw [claims, if_pos rowKey]
      exact ⟨next, rfl, named, runtime.symm, phase⟩
    · rw [births nonce named] at found
      rcases wellFormed.current nonce row found live with ⟨claim, claimed, bound, runtime, alive⟩
      have elsewhere : row.key ≠ next.key := by
        intro here
        rw [here] at claimed
        exact alive (vacant claim claimed)
      rw [claims, if_neg elsewhere]
      exact ⟨claim, claimed, bound, runtime, alive⟩
  registered key claim nonce found named := by
    rw [claims] at found
    split at found
    · next here =>
        cases found
        rcases (fresh nonce named).2 with ⟨row, stored, rowKey, runtime, alive⟩
        exact ⟨row, stored, rowKey.trans here.symm, runtime, by simp [alive, phase]⟩
    · rcases wellFormed.registered key claim nonce found named with ⟨row, stored, rest⟩
      have other : next.generation ≠ some nonce := by
        intro bound
        simp [(fresh nonce bound).1] at stored
      exact ⟨row, (births nonce other).trans stored, rest⟩

theorem bound {claim : Claim} {generation : Uuid} {row : GenerationRow}
    (vacant : ∀ old, tables.claimAt claim.key = some old → old.phase = .retired)
    (fresh : tables.generationAt generation = none)
    (named : claim.generation = some generation) (phase : claim.phase ≠ .retired)
    (rowKey : row.key = claim.key) (rowRuntime : row.runtimeId = claim.runtime)
    (rowLive : row.phase ≠ .retired) :
    WellFormed ((tables.putGeneration generation row).putClaim claim) := by
  apply wellFormed.born claim vacant
  · simp
  · exact phase
  · intro nonce other
    have different : nonce ≠ generation := by
      rintro rfl
      exact other named
    simp [different]
  · intro nonce here
    have equal : generation = nonce := Option.some.inj (named.symm.trans here)
    subst equal
    exact ⟨fresh, row, by simp, rowKey, rowRuntime, rowLive⟩

theorem imported {claim : Claim} (absent : tables.claimAt claim.key = none)
    (legacy : claim.generation = none) (phase : claim.phase ≠ .retired) :
    WellFormed (tables.putClaim claim) := by
  apply wellFormed.born claim
  · simp [absent]
  · simp
  · exact phase
  · simp
  · simp [legacy]

/-! ## Every step keeps the invariant -/

theorem advanced {old : Claim} (next : Claim) (before : tables.claimAt old.key = some old)
    (sameKey : next.key = old.key) (generation : next.generation = old.generation)
    (runtime : next.runtime = old.runtime) (oldLive : old.phase ≠ .retired)
    (nextLive : next.phase ≠ .retired) : WellFormed (tables.putClaim next) :=
  wellFormed.moved next before sameKey (tables.claimAt_putClaim next) generation runtime oldLive
    nextLive (.of_eq rfl)

theorem activated {generation : Uuid} {row : GenerationRow} {guard : GenerationPhase → Bool}
    (found : tables.generationAt generation = some row) (live : row.phase ≠ .retired) :
    WellFormed (tables.activate generation row guard) :=
  wellFormed.unchanged (tables.claimAt_activate generation row guard) (.activate found live)

theorem transition {intent : LedgerIntent} {receipt : LedgerReceipt}
    (moved : Transition tables intent receipt final) : WellFormed final := by
  cases moved with
  | reserveFirst absent fresh =>
      apply wellFormed.bound _ fresh <;> simp [reservedClaim, bornRow, absent]
  | reserveAgain current retired fresh =>
      apply wellFormed.bound _ fresh <;> simp [reservedClaim, bornRow, current, retired]
  | observeExisting absent named fresh =>
      apply wellFormed.bound _ fresh <;> simp [firstClaim, bornRow, absent, named]
  | importLegacy absent kept =>
      exact wellFormed.imported absent rfl (by simp [firstClaim])
  | importLegacyRoot absent unset =>
      exact (wellFormed.imported absent rfl (by simp [firstClaim])).unchanged rfl (.of_eq rfl)
  | closeAlias | closeAliasUnset => exact wellFormed.unchanged rfl (.of_eq rfl)
  | @fenceRetire expected current authorized =>
      have live : expected.phase ≠ .retired := by
        intro gone
        simp [gone, ClaimPhase.authorized] at authorized
      exact wellFormed.advanced _ current rfl rfl rfl live (by simp [fencedClaim])
  | release current phase =>
      exact wellFormed.advanced _ current rfl rfl rfl (by simp [phase]) (by simp [releasedClaim])
  | @adoptLegacy expected newOwner current legacy unbound phase =>
      have live : expected.phase ≠ .retired := by
        rcases phase with phase | phase <;> simp [phase]
      exact wellFormed.advanced _ current rfl rfl rfl live (by simp [adoptedClaim])
  | install current phase proved live consumed =>
      have kept := wellFormed.advanced (installedClaim _) current rfl rfl rfl (by simp [phase])
        (by simp [installedClaim])
      exact kept.activated live.found live.notRetired
  | @adopt expected host newOwner generation row current phase proved live consumed =>
      have alive : expected.phase ≠ .retired := by
        rcases phase with phase | phase | phase <;> simp [phase]
      have kept := wellFormed.advanced (adoptedClaim expected newOwner) current rfl rfl rfl alive
        (by simp [adoptedClaim])
      exact kept.activated live.found live.notRetired
  | @retireLegacy expected current phase legacy =>
      apply wellFormed.retired (retiredClaim expected) current rfl
      · exact Tables.claimAt_putClaim tables _
      · rfl
      · rfl
      · simp
      · simp [legacy]
  | @retireBound expected generation row current phase named found notRetired =>
      rcases wellFormed.registered _ _ _ current named with ⟨_, stored, rowKey, runtime, -⟩
      rw [found] at stored
      cases stored
      apply wellFormed.retired (retiredClaim expected) current rfl
      · exact Tables.claimAt_putClaim tables _
      · rfl
      · rfl
      · intro nonce other
        have different : nonce ≠ generation := by
          rintro rfl
          exact other named
        simp [different]
      · intro nonce here
        have equal : generation = nonce := Option.some.inj (named.symm.trans here)
        subst equal
        exact ⟨_, Table.find_put_self .., rowKey, runtime, rfl⟩

theorem next (input : LedgerInput) : WellFormed (ledger.next tables input) := by
  rcases next_cases tables input with same | change
  · rw [same]
    exact wellFormed
  · generalize ledger.next tables input = final at change
    cases change with
    | intent commits fresh moved => exact (wellFormed.transition moved).unchanged rfl (.of_eq rfl)
    | consume consumable =>
        exact wellFormed.unchanged rfl (.replaced consumable.live.found ⟨rfl, rfl, .rfl⟩)

omit wellFormed

theorem run (inputs : List LedgerInput) : WellFormed (ledger.run .empty inputs) :=
  ledger.run_invariant WellFormed (fun _ input held => held.next input) .empty inputs

end WellFormed

/-- Every run of transactions from empty tables leaves at most one generation row
of a leaf that is not retired, each of them the birth of the leaf's current
claim, and every bound claim has its generation row, retired exactly when the
claim is. -/
theorem claims_and_generations_agree (inputs : List LedgerInput) (key : LeafKey) :
    (∀ left right leftRow rightRow,
      (ledger.run .empty inputs).generationAt left = some leftRow →
      (ledger.run .empty inputs).generationAt right = some rightRow →
      leftRow.key = key → rightRow.key = key →
      leftRow.phase ≠ .retired → rightRow.phase ≠ .retired → left = right) ∧
    (∀ generation row, (ledger.run .empty inputs).generationAt generation = some row →
      row.key = key → row.phase ≠ .retired →
      ∃ claim, (ledger.run .empty inputs).claimAt key = some claim ∧
        claim.generation = some generation ∧ claim.runtime = row.runtimeId ∧
        claim.phase ≠ .retired) ∧
    (∀ claim generation, (ledger.run .empty inputs).claimAt key = some claim →
      claim.generation = some generation →
      ∃ row, (ledger.run .empty inputs).generationAt generation = some row ∧
        row.key = key ∧ row.runtimeId = claim.runtime ∧
        (row.phase = .retired ↔ claim.phase = .retired)) := by
  have wellFormed := WellFormed.run inputs
  refine ⟨?_, ?_, ?_⟩
  · intro left right leftRow rightRow leftFound rightFound leftKey rightKey leftLive rightLive
    exact wellFormed.live_unique leftFound leftLive rightFound rightLive
      (leftKey.trans rightKey.symm)
  · intro generation row found here live
    rw [← here]
    exact wellFormed.current generation row found live
  · intro claim generation claimed named
    exact wellFormed.registered key claim generation claimed named

end TerminalCanvas.Memory.HookLedger
