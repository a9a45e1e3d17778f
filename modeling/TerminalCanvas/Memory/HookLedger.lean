import TerminalCanvas.Foundation.Table
import TerminalCanvas.Foundation.Transaction
import TerminalCanvas.HookAuthority.Claim

/-! # The durable hook ledger

Four tables record who may act on a terminal leaf, which shell births were
authorized, which panels still accept a legacy alias, and the receipt of every
operation. Statements run inside one immediate transaction of the memory store.
Checks and triggers of the schema stand where a statement meets them. -/

namespace TerminalCanvas.Memory.HookLedger

open TerminalCanvas.HookAuthority TerminalCanvas.Transaction

def maxGenerations : Nat := 1000000

/-! ## Tables -/

/-- A row of `tc_hook_leaf_authority`; its primary key is the leaf key. -/
structure LeafAuthorityRow where
  epoch : Int
  ownerId : Option Uuid
  runtimeId : Uuid
  generation : Option Uuid
  phase : ClaimPhase
  requireBinding : Bool
deriving DecidableEq, Repr

inductive GenerationPhase where
  | authorizedBirth
  | active
  | retired
deriving DecidableEq, Repr

/-- A row of `tc_hook_generations`; its primary key is the generation nonce. -/
structure GenerationRow where
  key : LeafKey
  runtimeId : Uuid
  birthOwnerId : Uuid
  bornEpoch : Int
  spawnConsumed : Bool
  phase : GenerationPhase
  retiredEpoch : Option Int
deriving DecidableEq, Repr

structure PanelKey where
  workspace : Uuid
  panel : Uuid
deriving DecidableEq, Repr

def PanelKey.of (key : LeafKey) : PanelKey := ⟨key.workspace, key.panel⟩

/-- A row of `tc_hook_panel_legacy_policy`. -/
structure LegacyPolicyRow where
  aliasEpoch : Int
  rootLeafId : Uuid
  legacyRootAliasClosed : Bool
deriving DecidableEq, Repr

inductive LedgerIntent where
  | reserve (expected : Option Claim) (key : LeafKey) (birth : BirthBinding) (owner : Uuid)
  | install (expected : Claim) (host : HostEvidence)
  | retire (expected : Claim)
  | fenceRetire (expected : Claim)
  | release (expected : Claim)
  | adopt (expected : Claim) (host : HostEvidence) (newOwner : Uuid)
  | adoptLegacy (expected : Claim) (newOwner : Uuid)
  | observeExisting (key : LeafKey) (host : HostEvidence) (newOwner : Uuid)
  | importLegacy (key : LeafKey) (runtime owner : Uuid) (singleOriginalRoot : Bool)
  | closeLegacyAlias (workspace panel : Uuid) (expectedEpoch : Option Int) (root : Uuid)
deriving DecidableEq, Repr

structure LedgerReceipt where
  claim : Option Claim
  aliasEpoch : Option Int
deriving DecidableEq, Repr

structure OperationKey where
  ownerId : Uuid
  operationId : Uuid
deriving DecidableEq, Repr

/-- A row of `tc_hook_operation_receipts`. The JSON columns hold the values they
encode: the derived serializers are injective and round-trip. -/
structure OperationReceiptRow where
  intentJson : LedgerIntent
  receiptJson : LedgerReceipt
deriving DecidableEq, Repr

structure Tables where
  leafAuthority : Table LeafKey LeafAuthorityRow
  generations : Table Uuid GenerationRow
  panelLegacyPolicy : Table PanelKey LegacyPolicyRow
  operationReceipts : Table OperationKey OperationReceiptRow
deriving DecidableEq

def Tables.empty : Tables := ⟨∅, ∅, ∅, ∅⟩

abbrev Tx := EStateM String Tables

namespace LeafAuthorityRow

def ofClaim (claim : Claim) : LeafAuthorityRow where
  epoch := claim.epoch
  ownerId := claim.owner
  runtimeId := claim.runtime
  generation := claim.generation
  phase := claim.phase
  requireBinding := claim.requireBinding

def toClaim (row : LeafAuthorityRow) (key : LeafKey) : Claim where
  key := key
  runtime := row.runtimeId
  generation := row.generation
  epoch := row.epoch
  owner := row.ownerId
  phase := row.phase
  requireBinding := row.requireBinding

@[simp] theorem toClaim_ofClaim (claim : Claim) :
    (ofClaim claim).toClaim claim.key = claim := rfl

@[simp] theorem toClaim_key (row : LeafAuthorityRow) (key : LeafKey) :
    (row.toClaim key).key = key := rfl

/-- `CHECK(epoch > 0)` and the check that an authorized phase has an owner. -/
def checks (row : LeafAuthorityRow) : Bool :=
  decide (0 < row.epoch) && (!row.phase.authorized || row.ownerId.isSome)

end LeafAuthorityRow

namespace Tables

variable (tables : Tables)

def claimAt (key : LeafKey) : Option Claim :=
  (tables.leafAuthority.find key).map (·.toClaim key)

def generationAt (generation : Uuid) : Option GenerationRow :=
  tables.generations.find generation

def legacyPolicyAt (panel : PanelKey) : Option LegacyPolicyRow :=
  tables.panelLegacyPolicy.find panel

def receiptAt (key : OperationKey) : Option OperationReceiptRow :=
  tables.operationReceipts.find key

def putClaim (claim : Claim) : Tables :=
  { tables with leafAuthority := tables.leafAuthority.put claim.key (.ofClaim claim) }

def putGeneration (generation : Uuid) (row : GenerationRow) : Tables :=
  { tables with generations := tables.generations.put generation row }

def putLegacyPolicy (panel : PanelKey) (row : LegacyPolicyRow) : Tables :=
  { tables with panelLegacyPolicy := tables.panelLegacyPolicy.put panel row }

def putReceipt (key : OperationKey) (row : OperationReceiptRow) : Tables :=
  { tables with operationReceipts := tables.operationReceipts.put key row }

end Tables

/-! ## Statements -/

def loadClaim (key : LeafKey) : Tx (Option Claim) := do
  return (← get).claimAt key

def requireExact (expected : Claim) : Tx Unit := do
  let current ← loadClaim expected.key
  ensure (current = some expected) "managed hook ownership lost"

def generationLive (claim : Claim) (requireConsumed : Bool) : Tx Unit := do
  match claim.generation with
  | none => throw "managed birth binding missing"
  | some generation =>
      match (← get).generationAt generation with
      | none => throw "managed birth not registered"
      | some row =>
          ensure (row.key = claim.key ∧ row.runtimeId = claim.runtime ∧
              row.phase ≠ .retired ∧ (requireConsumed → row.spawnConsumed))
            "managed birth no longer authorized"

/-- Must succeed inside every transaction that acts for a managed hook. -/
def validateOwned (context : OwnedHookContext) : Tx Unit := do
  let claim := context.claim
  match ← loadClaim claim.key with
  | none => throw "managed hook target missing"
  | some current =>
      ensure (sameAuthority current claim) "managed hook ownership lost"
      ensure (claim.owner.isSome ∧ claim.phase.authorized) "managed hook claim inactive"
      if claim.generation.isSome then
        ensure (context.legacyAliasEpoch = none) "bound hook cannot use legacy alias"
        generationLive claim true
      else
        ensure (claim.requireBinding = false ∧ claim.phase = .active)
          "legacy hook quarantined"
        match context.legacyAliasEpoch with
        | none => pure ()
        | some epoch =>
            let policy := (← get).legacyPolicyAt (.of claim.key)
            ensure (policy = some ⟨epoch, claim.key.leaf, false⟩) "legacy root alias closed"

def nextEpoch (claim : Claim) : Tx Int :=
  match checkedAddI64 claim.epoch 1 with
  | some epoch => pure epoch
  | none => throw "managed hook epoch exhausted"

def insertClaim (claim : Claim) : Tx Unit := do
  ensure ((← get).leafAuthority.find claim.key = none)
    "UNIQUE constraint failed: tc_hook_leaf_authority"
  ensure (LeafAuthorityRow.ofClaim claim).checks
    "CHECK constraint failed: tc_hook_leaf_authority"
  modify (·.putClaim claim)

/-- The `UPDATE` names every column of the expected row, so it changes one row
exactly when `requireExact` holds and the new claim keeps the key. -/
def updateClaim (expected next : Claim) : Tx Unit := do
  requireExact expected
  ensure (next.key = expected.key) "managed hook ownership lost"
  -- The trigger `tc_no_leaf_policy_reset` guards the sticky columns.
  ensure ((expected.requireBinding → next.requireBinding) ∧ expected.epoch ≤ next.epoch)
    "hook policy is monotonic"
  ensure (LeafAuthorityRow.ofClaim next).checks
    "CHECK constraint failed: tc_hook_leaf_authority"
  modify (·.putClaim next)

def insertGeneration (claim : Claim) (consumed : Bool) (phase : GenerationPhase) :
    Tx Unit := do
  ensure ((← get).generations.size < maxGenerations)
    "managed hook generation capacity reached; tombstones retained"
  match claim.generation, claim.owner with
  | some generation, some owner =>
      ensure ((← get).generationAt generation = none)
        "UNIQUE constraint failed: tc_hook_generations.generation"
      ensure (0 < claim.epoch) "CHECK constraint failed: born_epoch > 0"
      modify (·.putGeneration generation
        { key := claim.key
          runtimeId := claim.runtime
          birthOwnerId := owner
          bornEpoch := claim.epoch
          spawnConsumed := consumed
          phase := phase
          retiredEpoch := none })
  -- Every caller passes a generation and an owner.
  | _, _ => throw "NOT NULL constraint failed: tc_hook_generations"

/-- `UPDATE tc_hook_generations SET phase='active'` for a row the guard admits. -/
def activateGeneration (claim : Claim) (guard : GenerationPhase → Bool) : Tx Unit := do
  match claim.generation with
  | none => pure ()
  | some generation =>
      match (← get).generationAt generation with
      | none => pure ()
      | some row =>
          if guard row.phase then
            -- The trigger `tc_no_generation_revive` guards a retired row.
            ensure (row.phase ≠ .retired) "hook birth is immutable"
            modify (·.putGeneration generation { row with phase := .active })

/-- `UPDATE tc_hook_generations SET phase='retired'`, which must change one row. -/
def retireGeneration (generation : Uuid) (epoch : Int) : Tx Unit := do
  match (← get).generationAt generation with
  | none => throw "managed birth no longer current"
  | some row =>
      ensure (row.phase ≠ .retired) "managed birth no longer current"
      modify (·.putGeneration generation
        { row with phase := .retired, retiredEpoch := some epoch })

def insertLegacyPolicy (panel : PanelKey) (row : LegacyPolicyRow) : Tx Unit := do
  ensure ((← get).legacyPolicyAt panel = none)
    "UNIQUE constraint failed: tc_hook_panel_legacy_policy"
  modify (·.putLegacyPolicy panel row)

/-! ## Transitions -/

def committed (claim : Claim) : LedgerReceipt := ⟨some claim, none⟩

def transition (intent : LedgerIntent) : Tx LedgerReceipt := do
  match intent with
  | .reserve expected key birth owner => do
      let current ← loadClaim key
      ensure (current = expected) "managed hook ownership lost"
      let epoch ← match expected with
        | some old => do
            ensure (old.key = key ∧ old.phase = .retired) "birth requires retired target"
            nextEpoch old
        | none => pure 1
      let claim : Claim :=
        { key := key
          runtime := birth.runtime
          generation := some birth.generation
          epoch := epoch
          owner := some owner
          phase := .authorizedBirth
          requireBinding := true }
      -- The primary key refuses any nonce seen before, a tombstone included.
      insertGeneration claim false .authorizedBirth
      match expected with
      | some old => updateClaim old claim
      | none => insertClaim claim
      return committed claim
  | .install expected host => do
      requireExact expected
      ensure (expected.phase = .authorizedBirth ∧ host.proves expected)
        "host birth evidence mismatch"
      generationLive expected true
      let claim := { expected with phase := .active }
      updateClaim expected claim
      activateGeneration claim (· == .authorizedBirth)
      return committed claim
  | .fenceRetire expected => do
      requireExact expected
      ensure expected.phase.authorized "retirement already fenced or transferred"
      let epoch ← nextEpoch expected
      let claim := { expected with epoch, phase := .retiring, requireBinding := true }
      updateClaim expected claim
      return committed claim
  | .retire expected => do
      requireExact expected
      ensure (expected.phase ≠ .retired) "birth already retired"
      let epoch ← nextEpoch expected
      let claim := { expected with epoch, phase := .retired, requireBinding := true }
      updateClaim expected claim
      match claim.generation with
      | some generation => retireGeneration generation claim.epoch
      | none => pure ()
      return committed claim
  | .release expected => do
      requireExact expected
      ensure (expected.phase = .active) "only active endpoint can release"
      let epoch ← nextEpoch expected
      let claim := { expected with epoch, owner := none, phase := .detached }
      updateClaim expected claim
      return committed claim
  | .adopt expected host newOwner => do
      requireExact expected
      ensure ((expected.phase = .active ∨ expected.phase = .detached ∨
          expected.phase = .authorizedBirth) ∧ host.proves expected)
        "host evidence mismatch or retired generation"
      generationLive expected true
      let epoch ← nextEpoch expected
      let claim := { expected with epoch, owner := some newOwner, phase := .active }
      updateClaim expected claim
      activateGeneration claim (· != .retired)
      return committed claim
  | .adoptLegacy expected newOwner => do
      requireExact expected
      ensure (expected.generation = none ∧ expected.requireBinding = false ∧
          (expected.phase = .active ∨ expected.phase = .detached))
        "legacy target quarantined"
      let epoch ← nextEpoch expected
      let claim := { expected with epoch, owner := some newOwner, phase := .active }
      updateClaim expected claim
      return committed claim
  | .observeExisting key host newOwner => do
      let current ← loadClaim key
      ensure (current = none) "managed hook target has history"
      let claim : Claim :=
        { key := key
          runtime := host.runtime
          generation := host.generation
          epoch := 1
          owner := some newOwner
          phase := .active
          requireBinding := true }
      ensure (host.proves claim) "observed host evidence incomplete"
      insertGeneration claim true .active
      insertClaim claim
      return committed claim
  | .importLegacy key runtime owner singleOriginalRoot => do
      let current ← loadClaim key
      ensure (current = none) "legacy target has managed history"
      let policy := (← get).legacyPolicyAt (.of key)
      let panelPolicy := policy.map (·.legacyRootAliasClosed)
      ensure (panelPolicy.getD false = false) "legacy target quarantined"
      let claim : Claim :=
        { key := key
          runtime := runtime
          generation := none
          epoch := 1
          owner := some owner
          phase := .active
          requireBinding := false }
      insertClaim claim
      if singleOriginalRoot ∧ panelPolicy = none then
        insertLegacyPolicy (.of key) ⟨1, key.leaf, false⟩
      return committed claim
  | .closeLegacyAlias workspace panel expectedEpoch root => do
      match expectedEpoch with
      | some epoch =>
          match checkedAddI64 epoch 1 with
          | none => throw "legacy alias epoch exhausted"
          | some next =>
              let policy := (← get).legacyPolicyAt ⟨workspace, panel⟩
              ensure (policy = some ⟨epoch, root, false⟩) "legacy alias ownership lost"
              modify (·.putLegacyPolicy ⟨workspace, panel⟩ ⟨next, root, true⟩)
              return ⟨none, some next⟩
      | none =>
          insertLegacyPolicy ⟨workspace, panel⟩ ⟨1, root, true⟩
          return ⟨none, some 1⟩

/-- The owner an intent must be submitted by. -/
def LedgerIntent.actorMatches (intent : LedgerIntent) (owner : Uuid) : Bool :=
  match intent with
  | .reserve _ _ _ proposed | .importLegacy _ _ proposed _ => owner == proposed
  | .install expected _ | .retire expected | .fenceRetire expected | .release expected =>
      expected.owner == some owner
  | .adopt _ _ newOwner | .adoptLegacy _ newOwner | .observeExisting _ _ newOwner =>
      newOwner == owner
  | .closeLegacyAlias .. => true

/-- A receipt proves only that an intent committed once. -/
def applyIntent (owner operation : Uuid) (intent : LedgerIntent) : Tx LedgerReceipt := do
  ensure (intent.actorMatches owner) "managed hook intent owner mismatch"
  match (← get).receiptAt ⟨owner, operation⟩ with
  | some cached =>
      ensure (cached.intentJson = intent) "hook operation intent conflict"
      return cached.receiptJson
  | none =>
      let receipt ← transition intent
      ensure ((← get).receiptAt ⟨owner, operation⟩ = none)
        "UNIQUE constraint failed: tc_hook_operation_receipts"
      modify (·.putReceipt ⟨owner, operation⟩ ⟨intent, receipt⟩)
      return receipt

/-! ## Births -/

/-- A one-shot capability to run the shell factory for a claim. -/
structure SpawnPermit where
  claim : Claim
deriving DecidableEq, Repr

def validateSpawn (expected : Claim) : Tx Unit := do
  requireExact expected
  ensure (expected.phase = .authorizedBirth) "birth retired before factory"
  generationLive expected true

def GenerationRow.consumable (row : GenerationRow) (expected : Claim) : Bool :=
  row.phase == .authorizedBirth
    && row.spawnConsumed == false
    && row.runtimeId == expected.runtime
    && some row.birthOwnerId == expected.owner
    && row.bornEpoch == expected.epoch

def consumeBirthOnce (expected : Claim) : Tx (Option SpawnPermit) := do
  requireExact expected
  ensure (expected.phase = .authorizedBirth ∧ expected.owner.isSome) "birth claim inactive"
  generationLive expected false
  match expected.generation with
  | none => return none
  | some generation =>
      match (← get).generationAt generation with
      | none => return none
      | some row =>
          if row.consumable expected then
            modify (·.putGeneration generation { row with spawnConsumed := true })
            return some ⟨expected⟩
          else
            return none

end TerminalCanvas.Memory.HookLedger
