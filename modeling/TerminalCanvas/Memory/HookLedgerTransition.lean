import TerminalCanvas.Memory.HookLedger

/-! # What one ledger transition can do

`transition_ok` says once, for all ten intents, which checks a committed
transition passed and which tables it left. Every invariant of the ledger is
derived from it without opening a statement again. -/

namespace TerminalCanvas.Memory.HookLedger

open TerminalCanvas.HookAuthority TerminalCanvas.Transaction

/-! ## Reading tables after a write -/

namespace Tables

variable (tables : Tables)

theorem claimAt_key {tables : Tables} {key : LeafKey} {claim : Claim}
    (found : tables.claimAt key = some claim) : claim.key = key := by
  rcases Option.map_eq_some_iff.mp found with ⟨row, -, equal⟩
  rw [← equal]
  exact row.toClaim_key key

theorem find_leafAuthority_eq_none {tables : Tables} {key : LeafKey} :
    tables.leafAuthority.find key = none ↔ tables.claimAt key = none :=
  Option.map_eq_none_iff.symm

@[simp] theorem claimAt_putClaim (claim : Claim) (key : LeafKey) :
    (tables.putClaim claim).claimAt key =
      if key = claim.key then some claim else tables.claimAt key := by
  unfold claimAt putClaim
  rw [Table.find_put]
  split
  · next equal => simp [equal]
  · rfl

@[simp] theorem claimAt_putGeneration (generation : Uuid) (row : GenerationRow) :
    (tables.putGeneration generation row).claimAt = tables.claimAt := rfl

@[simp] theorem claimAt_putLegacyPolicy (panel : PanelKey) (row : LegacyPolicyRow) :
    (tables.putLegacyPolicy panel row).claimAt = tables.claimAt := rfl

@[simp] theorem claimAt_putReceipt (key : OperationKey) (row : OperationReceiptRow) :
    (tables.putReceipt key row).claimAt = tables.claimAt := rfl

@[simp] theorem generationAt_putGeneration (generation other : Uuid) (row : GenerationRow) :
    (tables.putGeneration generation row).generationAt other =
      if other = generation then some row else tables.generationAt other :=
  Table.find_put tables.generations generation other row

@[simp] theorem generationAt_putClaim (claim : Claim) :
    (tables.putClaim claim).generationAt = tables.generationAt := rfl

@[simp] theorem generationAt_putLegacyPolicy (panel : PanelKey) (row : LegacyPolicyRow) :
    (tables.putLegacyPolicy panel row).generationAt = tables.generationAt := rfl

@[simp] theorem generationAt_putReceipt (key : OperationKey) (row : OperationReceiptRow) :
    (tables.putReceipt key row).generationAt = tables.generationAt := rfl

@[simp] theorem legacyPolicyAt_putLegacyPolicy (panel other : PanelKey)
    (row : LegacyPolicyRow) :
    (tables.putLegacyPolicy panel row).legacyPolicyAt other =
      if other = panel then some row else tables.legacyPolicyAt other :=
  Table.find_put tables.panelLegacyPolicy panel other row

@[simp] theorem legacyPolicyAt_putClaim (claim : Claim) :
    (tables.putClaim claim).legacyPolicyAt = tables.legacyPolicyAt := rfl

@[simp] theorem legacyPolicyAt_putGeneration (generation : Uuid) (row : GenerationRow) :
    (tables.putGeneration generation row).legacyPolicyAt = tables.legacyPolicyAt := rfl

@[simp] theorem legacyPolicyAt_putReceipt (key : OperationKey) (row : OperationReceiptRow) :
    (tables.putReceipt key row).legacyPolicyAt = tables.legacyPolicyAt := rfl

@[simp] theorem receiptAt_putReceipt (key other : OperationKey) (row : OperationReceiptRow) :
    (tables.putReceipt key row).receiptAt other =
      if other = key then some row else tables.receiptAt other :=
  Table.find_put tables.operationReceipts key other row

@[simp] theorem receiptAt_putClaim (claim : Claim) :
    (tables.putClaim claim).receiptAt = tables.receiptAt := rfl

@[simp] theorem receiptAt_putGeneration (generation : Uuid) (row : GenerationRow) :
    (tables.putGeneration generation row).receiptAt = tables.receiptAt := rfl

@[simp] theorem receiptAt_putLegacyPolicy (panel : PanelKey) (row : LegacyPolicyRow) :
    (tables.putLegacyPolicy panel row).receiptAt = tables.receiptAt := rfl

/-- Mark a generation row active if its phase passes the guard. -/
def activate (generation : Uuid) (row : GenerationRow) (guard : GenerationPhase → Bool) :
    Tables :=
  if guard row.phase then tables.putGeneration generation { row with phase := .active }
  else tables

variable (generation : Uuid) (row : GenerationRow) (guard : GenerationPhase → Bool)

@[simp] theorem claimAt_activate :
    (tables.activate generation row guard).claimAt = tables.claimAt := by
  unfold activate
  split <;> rfl

@[simp] theorem legacyPolicyAt_activate :
    (tables.activate generation row guard).legacyPolicyAt = tables.legacyPolicyAt := by
  unfold activate
  split <;> rfl

@[simp] theorem receiptAt_activate :
    (tables.activate generation row guard).receiptAt = tables.receiptAt := by
  unfold activate
  split <;> rfl

theorem generationAt_activate_of_ne {other : Uuid} (different : other ≠ generation) :
    (tables.activate generation row guard).generationAt other =
      tables.generationAt other := by
  unfold activate
  split
  · simp [different]
  · rfl

/-- Activation never changes the identity of a row, whether it was spent, or
whether it is retired. -/
theorem generationAt_activate_self (found : tables.generationAt generation = some row)
    (live : row.phase ≠ .retired) :
    ∃ phase, phase ≠ .retired ∧
      (tables.activate generation row guard).generationAt generation =
        some { row with phase } := by
  unfold activate
  split
  · exact ⟨.active, by simp, by simp⟩
  · exact ⟨row.phase, live, found⟩

end Tables

/-! ## Successful statements -/

section Statements

variable {tables final : Tables} {claim expected next : Claim} {Result : Type}

@[simp] theorem loadClaim_bind {key : LeafKey} {rest : Option Claim → Tx Result} :
    (loadClaim key >>= rest) tables = rest (tables.claimAt key) tables := rfl

@[simp] theorem requireExact_bind_eq_ok {rest : Unit → Tx Result} {result : Result} :
    (requireExact expected >>= rest) tables = .ok result final ↔
      tables.claimAt expected.key = some expected ∧ rest () tables = .ok result final := by
  simp only [requireExact, bind_assoc, loadClaim_bind, ensure_bind_eq_ok]

@[simp] theorem nextEpoch_bind_eq_ok {rest : Int → Tx Result} {result : Result} :
    (nextEpoch claim >>= rest) tables = .ok result final ↔
      claim.epoch + 1 ≤ i64Max ∧ rest (claim.epoch + 1) tables = .ok result final := by
  by_cases fits : claim.epoch + 1 ≤ i64Max
  · have added : nextEpoch claim = pure (claim.epoch + 1) := by
      simp [nextEpoch, checkedAddI64, fits]
    simp [added, fits]
  · have exhausted : nextEpoch claim = throw "managed hook epoch exhausted" := by
      simp [nextEpoch, checkedAddI64, fits]
    simp [exhausted, bind_eq_ok, fits]

/-- The generation row that a live birth stands on. -/
structure Live (tables : Tables) (claim : Claim) (generation : Uuid) (row : GenerationRow) :
    Prop where
  named : claim.generation = some generation
  found : tables.generationAt generation = some row
  key : row.key = claim.key
  runtime : row.runtimeId = claim.runtime
  notRetired : row.phase ≠ .retired

theorem generationLive_eq_ok {requireConsumed : Bool} {result : Unit} :
    generationLive claim requireConsumed tables = .ok result final ↔
      (∃ generation row, Live tables claim generation row ∧
        (requireConsumed → row.spawnConsumed)) ∧ tables = final := by
  unfold generationLive
  cases named : claim.generation with
  | none =>
      simp only [throw_eq_ok, false_iff, not_and]
      rintro ⟨generation, row, live, -⟩
      simp [live.named] at named
  | some generation =>
      simp only [get_bind]
      constructor
      · intro run
        cases found : tables.generationAt generation with
        | none => simp [found] at run
        | some row =>
            simp only [found, ensure_eq_ok] at run
            rcases run with ⟨⟨key, runtime, notRetired, consumed⟩, same⟩
            exact ⟨⟨generation, row, ⟨named, found, key, runtime, notRetired⟩, consumed⟩, same⟩
      · rintro ⟨⟨other, row, live, consumed⟩, same⟩
        have equal : generation = other := Option.some.inj (named.symm.trans live.named)
        subst equal
        simp only [live.found, ensure_eq_ok]
        exact ⟨⟨live.key, live.runtime, live.notRetired, consumed⟩, same⟩

theorem insertClaim_ok {result : Unit} (run : insertClaim claim tables = .ok result final) :
    tables.claimAt claim.key = none ∧ final = tables.putClaim claim := by
  simp only [insertClaim, get_bind, ensure_bind_eq_ok, modify_eq_ok] at run
  rcases run with ⟨absent, -, equal⟩
  exact ⟨Tables.find_leafAuthority_eq_none.mp absent, equal.symm⟩

theorem updateClaim_ok {result : Unit}
    (run : updateClaim expected next tables = .ok result final) :
    tables.claimAt expected.key = some expected ∧ final = tables.putClaim next := by
  simp only [updateClaim, requireExact_bind_eq_ok, ensure_bind_eq_ok, modify_eq_ok] at run
  rcases run with ⟨found, -, -, -, equal⟩
  exact ⟨found, equal.symm⟩

theorem insertGeneration_ok {consumed : Bool} {phase : GenerationPhase} {result : Unit}
    (run : insertGeneration claim consumed phase tables = .ok result final) :
    ∃ generation owner, claim.generation = some generation ∧ claim.owner = some owner ∧
      tables.generationAt generation = none ∧
      final = tables.putGeneration generation
        { key := claim.key
          runtimeId := claim.runtime
          birthOwnerId := owner
          bornEpoch := claim.epoch
          spawnConsumed := consumed
          phase := phase
          retiredEpoch := none } := by
  simp only [insertGeneration, get_bind, ensure_bind_eq_ok] at run
  rcases run with ⟨-, rest⟩
  cases named : claim.generation with
  | none => simp [named] at rest
  | some generation =>
      cases owned : claim.owner with
      | none => simp [named, owned] at rest
      | some owner =>
          simp only [named, owned, get_bind, ensure_bind_eq_ok, modify_eq_ok] at rest
          rcases rest with ⟨fresh, -, equal⟩
          exact ⟨generation, owner, rfl, rfl, fresh, equal.symm⟩

theorem activateGeneration_ok {guard : GenerationPhase → Bool} {result : Unit}
    {generation : Uuid} {row : GenerationRow}
    (run : activateGeneration claim guard tables = .ok result final)
    (named : claim.generation = some generation)
    (found : tables.generationAt generation = some row) :
    final = tables.activate generation row guard := by
  simp only [activateGeneration, named, get_bind, found] at run
  unfold Tables.activate
  split at run
  · next passes =>
      simp only [ensure_bind_eq_ok, modify_eq_ok] at run
      simp only [passes, if_true]
      exact run.2.symm
  · next stays =>
      simp only [pure_eq_ok] at run
      simp only [stays]
      exact run.2.symm

theorem retireGeneration_ok {generation : Uuid} {epoch : Int} {result : Unit}
    (run : retireGeneration generation epoch tables = .ok result final) :
    ∃ row, tables.generationAt generation = some row ∧ row.phase ≠ .retired ∧
      final = tables.putGeneration generation
        { row with phase := .retired, retiredEpoch := some epoch } := by
  simp only [retireGeneration, get_bind] at run
  cases found : tables.generationAt generation with
  | none => simp [found] at run
  | some row =>
      simp only [found, ensure_bind_eq_ok, modify_eq_ok] at run
      exact ⟨row, rfl, run.1, run.2.symm⟩

theorem insertLegacyPolicy_ok {panel : PanelKey} {row : LegacyPolicyRow} {result : Unit}
    (run : insertLegacyPolicy panel row tables = .ok result final) :
    tables.legacyPolicyAt panel = none ∧ final = tables.putLegacyPolicy panel row := by
  simp only [insertLegacyPolicy, get_bind, ensure_bind_eq_ok, modify_eq_ok] at run
  exact ⟨run.1, run.2.symm⟩

end Statements

/-! ## Committed transitions -/

def reservedClaim (key : LeafKey) (birth : BirthBinding) (owner : Uuid) (epoch : Int) :
    Claim where
  key := key
  runtime := birth.runtime
  generation := some birth.generation
  epoch := epoch
  owner := some owner
  phase := .authorizedBirth
  requireBinding := true

/-- The claim written for a leaf without history. -/
def firstClaim (key : LeafKey) (runtime : Uuid) (generation : Option Uuid) (owner : Uuid)
    (requireBinding : Bool) : Claim where
  key := key
  runtime := runtime
  generation := generation
  epoch := 1
  owner := some owner
  phase := .active
  requireBinding := requireBinding

def installedClaim (expected : Claim) : Claim := { expected with phase := .active }

def fencedClaim (expected : Claim) : Claim :=
  { expected with epoch := expected.epoch + 1, phase := .retiring, requireBinding := true }

def retiredClaim (expected : Claim) : Claim :=
  { expected with epoch := expected.epoch + 1, phase := .retired, requireBinding := true }

def releasedClaim (expected : Claim) : Claim :=
  { expected with epoch := expected.epoch + 1, owner := none, phase := .detached }

def adoptedClaim (expected : Claim) (newOwner : Uuid) : Claim :=
  { expected with epoch := expected.epoch + 1, owner := some newOwner, phase := .active }

def bornRow (key : LeafKey) (runtime owner : Uuid) (epoch : Int) (consumed : Bool)
    (phase : GenerationPhase) : GenerationRow where
  key := key
  runtimeId := runtime
  birthOwnerId := owner
  bornEpoch := epoch
  spawnConsumed := consumed
  phase := phase
  retiredEpoch := none

/-- `Transition tables intent receipt final`: the checks `intent` passed on
`tables` and the tables it left. -/
inductive Transition (tables : Tables) : LedgerIntent → LedgerReceipt → Tables → Prop
  | reserveFirst {key birth owner}
      (absent : tables.claimAt key = none)
      (fresh : tables.generationAt birth.generation = none) :
      Transition tables (.reserve none key birth owner)
        (committed (reservedClaim key birth owner 1))
        ((tables.putGeneration birth.generation
          (bornRow key birth.runtime owner 1 false .authorizedBirth)).putClaim
          (reservedClaim key birth owner 1))
  | reserveAgain {old key birth owner}
      (current : tables.claimAt key = some old) (retired : old.phase = .retired)
      (fresh : tables.generationAt birth.generation = none) :
      Transition tables (.reserve (some old) key birth owner)
        (committed (reservedClaim key birth owner (old.epoch + 1)))
        ((tables.putGeneration birth.generation
          (bornRow key birth.runtime owner (old.epoch + 1) false .authorizedBirth)).putClaim
          (reservedClaim key birth owner (old.epoch + 1)))
  | install {expected host generation row}
      (current : tables.claimAt expected.key = some expected)
      (phase : expected.phase = .authorizedBirth) (proved : host.proves expected)
      (live : Live tables expected generation row) (consumed : row.spawnConsumed) :
      Transition tables (.install expected host)
        (committed (installedClaim expected))
        ((tables.putClaim (installedClaim expected)).activate generation row
          (· == .authorizedBirth))
  | fenceRetire {expected}
      (current : tables.claimAt expected.key = some expected)
      (authorized : expected.phase.authorized) :
      Transition tables (.fenceRetire expected)
        (committed (fencedClaim expected)) (tables.putClaim (fencedClaim expected))
  | retireLegacy {expected}
      (current : tables.claimAt expected.key = some expected)
      (phase : expected.phase ≠ .retired) (legacy : expected.generation = none) :
      Transition tables (.retire expected)
        (committed (retiredClaim expected)) (tables.putClaim (retiredClaim expected))
  | retireBound {expected generation row}
      (current : tables.claimAt expected.key = some expected)
      (phase : expected.phase ≠ .retired)
      (named : expected.generation = some generation)
      (found : tables.generationAt generation = some row)
      (notRetired : row.phase ≠ .retired) :
      Transition tables (.retire expected)
        (committed (retiredClaim expected))
        ((tables.putClaim (retiredClaim expected)).putGeneration generation
          { row with phase := .retired, retiredEpoch := some (expected.epoch + 1) })
  | release {expected}
      (current : tables.claimAt expected.key = some expected)
      (phase : expected.phase = .active) :
      Transition tables (.release expected)
        (committed (releasedClaim expected)) (tables.putClaim (releasedClaim expected))
  | adopt {expected host newOwner generation row}
      (current : tables.claimAt expected.key = some expected)
      (phase : expected.phase = .active ∨ expected.phase = .detached ∨
        expected.phase = .authorizedBirth)
      (proved : host.proves expected)
      (live : Live tables expected generation row) (consumed : row.spawnConsumed) :
      Transition tables (.adopt expected host newOwner)
        (committed (adoptedClaim expected newOwner))
        ((tables.putClaim (adoptedClaim expected newOwner)).activate generation row
          (· != .retired))
  | adoptLegacy {expected newOwner}
      (current : tables.claimAt expected.key = some expected)
      (legacy : expected.generation = none) (unbound : expected.requireBinding = false)
      (phase : expected.phase = .active ∨ expected.phase = .detached) :
      Transition tables (.adoptLegacy expected newOwner)
        (committed (adoptedClaim expected newOwner))
        (tables.putClaim (adoptedClaim expected newOwner))
  | observeExisting {key host newOwner generation}
      (absent : tables.claimAt key = none)
      (named : host.generation = some generation)
      (fresh : tables.generationAt generation = none) :
      Transition tables (.observeExisting key host newOwner)
        (committed (firstClaim key host.runtime host.generation newOwner true))
        ((tables.putGeneration generation
          (bornRow key host.runtime newOwner 1 true .active)).putClaim
          (firstClaim key host.runtime host.generation newOwner true))
  | importLegacy {key runtime owner singleOriginalRoot}
      (absent : tables.claimAt key = none)
      (kept : ∀ policy, tables.legacyPolicyAt (.of key) = some policy →
        policy.legacyRootAliasClosed = false) :
      Transition tables (.importLegacy key runtime owner singleOriginalRoot)
        (committed (firstClaim key runtime none owner false))
        (tables.putClaim (firstClaim key runtime none owner false))
  | importLegacyRoot {key runtime owner}
      (absent : tables.claimAt key = none)
      (unset : tables.legacyPolicyAt (.of key) = none) :
      Transition tables (.importLegacy key runtime owner true)
        (committed (firstClaim key runtime none owner false))
        ((tables.putClaim (firstClaim key runtime none owner false)).putLegacyPolicy (.of key)
          ⟨1, key.leaf, false⟩)
  | closeAlias {workspace panel epoch root}
      (opened : tables.legacyPolicyAt ⟨workspace, panel⟩ = some ⟨epoch, root, false⟩) :
      Transition tables (.closeLegacyAlias workspace panel (some epoch) root)
        ⟨none, some (epoch + 1)⟩
        (tables.putLegacyPolicy ⟨workspace, panel⟩ ⟨epoch + 1, root, true⟩)
  | closeAliasUnset {workspace panel root}
      (unset : tables.legacyPolicyAt ⟨workspace, panel⟩ = none) :
      Transition tables (.closeLegacyAlias workspace panel none root) ⟨none, some 1⟩
        (tables.putLegacyPolicy ⟨workspace, panel⟩ ⟨1, root, true⟩)

section TransitionOk

variable {tables final : Tables} {receipt : LedgerReceipt}

attribute [local simp] transition

private theorem reserve_ok {expected : Option Claim} {key : LeafKey} {birth : BirthBinding}
    {owner : Uuid}
    (run : transition (.reserve expected key birth owner) tables = .ok receipt final) :
    Transition tables (.reserve expected key birth owner) receipt final := by
  cases expected with
  | none =>
      simp only [transition, loadClaim_bind, ensure_bind_eq_ok, pure_bind] at run
      rcases run with ⟨absent, run⟩
      rcases bind_eq_ok.mp run with ⟨_, _, inserted, run⟩
      rcases insertGeneration_ok inserted with ⟨_, _, ⟨⟩, ⟨⟩, fresh, rfl⟩
      rcases bind_eq_ok.mp run with ⟨_, _, stored, run⟩
      rcases insertClaim_ok stored with ⟨-, rfl⟩
      rcases pure_eq_ok.mp run with ⟨rfl, rfl⟩
      exact .reserveFirst absent fresh
  | some old =>
      simp only [transition, loadClaim_bind, ensure_bind_eq_ok,
        nextEpoch_bind_eq_ok] at run
      rcases run with ⟨current, ⟨-, retired⟩, -, run⟩
      rcases bind_eq_ok.mp run with ⟨_, _, inserted, run⟩
      rcases insertGeneration_ok inserted with ⟨_, _, ⟨⟩, ⟨⟩, fresh, rfl⟩
      rcases bind_eq_ok.mp run with ⟨_, _, stored, run⟩
      rcases updateClaim_ok stored with ⟨-, rfl⟩
      rcases pure_eq_ok.mp run with ⟨rfl, rfl⟩
      exact .reserveAgain current retired fresh

private theorem install_ok {expected : Claim} {host : HostEvidence}
    (run : transition (.install expected host) tables = .ok receipt final) :
    Transition tables (.install expected host) receipt final := by
  simp only [transition, requireExact_bind_eq_ok, ensure_bind_eq_ok] at run
  rcases run with ⟨current, ⟨phase, proved⟩, run⟩
  rcases bind_eq_ok.mp run with ⟨_, _, checked, run⟩
  rcases generationLive_eq_ok.mp checked with ⟨⟨generation, row, live, consumed⟩, rfl⟩
  rcases bind_eq_ok.mp run with ⟨_, _, stored, run⟩
  rcases updateClaim_ok stored with ⟨-, rfl⟩
  rcases bind_eq_ok.mp run with ⟨_, _, activated, run⟩
  rw [activateGeneration_ok activated live.named live.found] at run
  rcases pure_eq_ok.mp run with ⟨rfl, rfl⟩
  exact .install current phase proved live (consumed rfl)

private theorem fenceRetire_ok {expected : Claim}
    (run : transition (.fenceRetire expected) tables = .ok receipt final) :
    Transition tables (.fenceRetire expected) receipt final := by
  simp only [transition, requireExact_bind_eq_ok, ensure_bind_eq_ok,
    nextEpoch_bind_eq_ok] at run
  rcases run with ⟨current, authorized, -, run⟩
  rcases bind_eq_ok.mp run with ⟨_, _, stored, run⟩
  rcases updateClaim_ok stored with ⟨-, rfl⟩
  rcases pure_eq_ok.mp run with ⟨rfl, rfl⟩
  exact .fenceRetire current authorized

private theorem retire_ok {expected : Claim}
    (run : transition (.retire expected) tables = .ok receipt final) :
    Transition tables (.retire expected) receipt final := by
  simp only [transition, requireExact_bind_eq_ok, ensure_bind_eq_ok,
    nextEpoch_bind_eq_ok] at run
  rcases run with ⟨current, phase, -, run⟩
  rcases bind_eq_ok.mp run with ⟨_, _, stored, run⟩
  rcases updateClaim_ok stored with ⟨-, rfl⟩
  cases named : expected.generation with
  | none =>
      simp only [named] at run
      rcases pure_eq_ok.mp run with ⟨rfl, rfl⟩
      rw [← named]
      exact .retireLegacy current phase named
  | some generation =>
      simp only [named] at run
      rcases bind_eq_ok.mp run with ⟨_, _, retired, run⟩
      rcases retireGeneration_ok retired with ⟨row, found, notRetired, rfl⟩
      rcases pure_eq_ok.mp run with ⟨rfl, rfl⟩
      rw [← named]
      exact .retireBound current phase named found notRetired

private theorem release_ok {expected : Claim}
    (run : transition (.release expected) tables = .ok receipt final) :
    Transition tables (.release expected) receipt final := by
  simp only [transition, requireExact_bind_eq_ok, ensure_bind_eq_ok,
    nextEpoch_bind_eq_ok] at run
  rcases run with ⟨current, phase, -, run⟩
  rcases bind_eq_ok.mp run with ⟨_, _, stored, run⟩
  rcases updateClaim_ok stored with ⟨-, rfl⟩
  rcases pure_eq_ok.mp run with ⟨rfl, rfl⟩
  exact .release current phase

private theorem adopt_ok {expected : Claim} {host : HostEvidence} {newOwner : Uuid}
    (run : transition (.adopt expected host newOwner) tables = .ok receipt final) :
    Transition tables (.adopt expected host newOwner) receipt final := by
  simp only [transition, requireExact_bind_eq_ok, ensure_bind_eq_ok] at run
  rcases run with ⟨current, ⟨phase, proved⟩, run⟩
  rcases bind_eq_ok.mp run with ⟨_, _, checked, run⟩
  rcases generationLive_eq_ok.mp checked with ⟨⟨generation, row, live, consumed⟩, rfl⟩
  rcases nextEpoch_bind_eq_ok.mp run with ⟨-, run⟩
  rcases bind_eq_ok.mp run with ⟨_, _, stored, run⟩
  rcases updateClaim_ok stored with ⟨-, rfl⟩
  rcases bind_eq_ok.mp run with ⟨_, _, activated, run⟩
  rw [activateGeneration_ok activated live.named live.found] at run
  rcases pure_eq_ok.mp run with ⟨rfl, rfl⟩
  exact .adopt current phase proved live (consumed rfl)

private theorem adoptLegacy_ok {expected : Claim} {newOwner : Uuid}
    (run : transition (.adoptLegacy expected newOwner) tables = .ok receipt final) :
    Transition tables (.adoptLegacy expected newOwner) receipt final := by
  simp only [transition, requireExact_bind_eq_ok, ensure_bind_eq_ok,
    nextEpoch_bind_eq_ok] at run
  rcases run with ⟨current, ⟨legacy, unbound, phase⟩, -, run⟩
  rcases bind_eq_ok.mp run with ⟨_, _, stored, run⟩
  rcases updateClaim_ok stored with ⟨-, rfl⟩
  rcases pure_eq_ok.mp run with ⟨rfl, rfl⟩
  exact .adoptLegacy current legacy unbound phase

private theorem observeExisting_ok {key : LeafKey} {host : HostEvidence} {newOwner : Uuid}
    (run : transition (.observeExisting key host newOwner) tables = .ok receipt final) :
    Transition tables (.observeExisting key host newOwner) receipt final := by
  simp only [transition, loadClaim_bind, ensure_bind_eq_ok] at run
  rcases run with ⟨absent, -, run⟩
  rcases bind_eq_ok.mp run with ⟨_, _, inserted, run⟩
  rcases insertGeneration_ok inserted with ⟨generation, _, named, ⟨⟩, fresh, rfl⟩
  rcases bind_eq_ok.mp run with ⟨_, _, stored, run⟩
  rcases insertClaim_ok stored with ⟨-, rfl⟩
  rcases pure_eq_ok.mp run with ⟨rfl, rfl⟩
  exact .observeExisting absent named fresh

private theorem importLegacy_ok {key : LeafKey} {runtime owner : Uuid}
    {singleOriginalRoot : Bool}
    (run : transition (.importLegacy key runtime owner singleOriginalRoot) tables =
      .ok receipt final) :
    Transition tables (.importLegacy key runtime owner singleOriginalRoot) receipt final := by
  simp only [transition, loadClaim_bind, ensure_bind_eq_ok, get_bind] at run
  rcases run with ⟨absent, unclosed, run⟩
  rcases bind_eq_ok.mp run with ⟨_, _, stored, rest⟩
  rcases insertClaim_ok stored with ⟨-, rfl⟩
  split at rest
  · next root =>
      rcases bind_eq_ok.mp rest with ⟨_, _, inserted, last⟩
      rcases insertLegacyPolicy_ok inserted with ⟨-, rfl⟩
      rcases pure_eq_ok.mp last with ⟨rfl, rfl⟩
      rw [root.1]
      exact .importLegacyRoot absent (Option.map_eq_none_iff.mp root.2)
  · rcases pure_eq_ok.mp rest with ⟨rfl, rfl⟩
    apply Transition.importLegacy absent
    intro policy found
    simpa [found] using unclosed

private theorem closeLegacyAlias_ok {workspace panel root : Uuid} {expectedEpoch : Option Int}
    (run : transition (.closeLegacyAlias workspace panel expectedEpoch root) tables =
      .ok receipt final) :
    Transition tables (.closeLegacyAlias workspace panel expectedEpoch root) receipt final := by
  simp only [transition] at run
  cases expectedEpoch with
  | none =>
      rcases bind_eq_ok.mp run with ⟨_, _, inserted, run⟩
      rcases insertLegacyPolicy_ok inserted with ⟨unset, rfl⟩
      rcases pure_eq_ok.mp run with ⟨rfl, rfl⟩
      exact .closeAliasUnset unset
  | some epoch =>
      cases added : checkedAddI64 epoch 1 with
      | none => simp [added] at run
      | some next =>
          rcases checkedAddI64_eq_some.mp added with ⟨-, rfl⟩
          simp only [added, get_bind, ensure_bind_eq_ok, modify_bind, pure_eq_ok] at run
          rcases run with ⟨opened, rfl, rfl⟩
          exact .closeAlias opened

/-- Everything a transition can do: its checks hold on the tables it started
from, and its receipt and tables are those of one case of `Transition`. -/
theorem transition_ok {intent : LedgerIntent}
    (run : transition intent tables = .ok receipt final) :
    Transition tables intent receipt final := by
  cases intent with
  | reserve => exact reserve_ok run
  | install => exact install_ok run
  | retire => exact retire_ok run
  | fenceRetire => exact fenceRetire_ok run
  | release => exact release_ok run
  | adopt => exact adopt_ok run
  | adoptLegacy => exact adoptLegacy_ok run
  | observeExisting => exact observeExisting_ok run
  | importLegacy => exact importLegacy_ok run
  | closeLegacyAlias => exact closeLegacyAlias_ok run

end TransitionOk

end TerminalCanvas.Memory.HookLedger
