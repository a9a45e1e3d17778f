import TerminalCanvas.Foundation.Execution
import TerminalCanvas.Memory.HookLedgerTransition

/-! # Runs of the hook ledger

Any number of endpoints send transactions to one database. SQLite runs them one
after another, so a run is a list of transactions in the order of their locks. -/

namespace TerminalCanvas.Memory.HookLedger

open TerminalCanvas.HookAuthority TerminalCanvas.Transaction TerminalCanvas.Execution

inductive LedgerRequest where
  | applyIntent (owner operation : Uuid) (intent : LedgerIntent)
  | consumeBirthOnce (expected : Claim)
  | validateSpawn (expected : Claim)
  | validateOwned (context : OwnedHookContext)
deriving DecidableEq, Repr

/-- A transaction with the database's answer to its commit. -/
structure LedgerInput where
  request : LedgerRequest
  commit : Except String Unit

inductive LedgerReply where
  | receipt (result : Except String LedgerReceipt)
  | permit (result : Except String (Option SpawnPermit))
  | validated (result : Except String Unit)
deriving DecidableEq

def LedgerReply.succeeds : LedgerReply → Bool
  | .receipt result => result.isOk
  | .permit result => result.isOk
  | .validated result => result.isOk

namespace LedgerReply

@[simp] theorem succeeds_receipt_error (error : String) :
    (receipt (.error error)).succeeds = false := rfl

@[simp] theorem succeeds_permit_error (error : String) :
    (permit (.error error)).succeeds = false := rfl

@[simp] theorem succeeds_validated_error (error : String) :
    (validated (.error error)).succeeds = false := rfl

end LedgerReply

/-- `with_immediate_tx` around the body of a request. -/
def transact (tables : Tables) (input : LedgerInput) : StepResult Tables LedgerReply :=
  match input.request with
  | .applyIntent owner operation intent =>
      let (result, next) := immediate input.commit (applyIntent owner operation intent) tables
      ⟨next, .receipt result⟩
  | .consumeBirthOnce expected =>
      let (result, next) := immediate input.commit (consumeBirthOnce expected) tables
      ⟨next, .permit result⟩
  | .validateSpawn expected =>
      let (result, next) := immediate input.commit (validateSpawn expected) tables
      ⟨next, .validated result⟩
  | .validateOwned context =>
      let (result, next) := immediate input.commit (validateOwned context) tables
      ⟨next, .validated result⟩

def ledger : Machine Tables LedgerInput LedgerReply := ⟨transact⟩

/-- `validate_owned` with this context succeeds on these tables. -/
def Validates (tables : Tables) (context : OwnedHookContext) : Prop :=
  validateOwned context tables = .ok () tables

/-- An intent committed in this step: it succeeded and was not a replay. -/
def Commits (tables : Tables) (input : LedgerInput) (intent : LedgerIntent)
    (receipt : LedgerReceipt) : Prop :=
  ∃ owner operation, input.request = .applyIntent owner operation intent ∧
    tables.receiptAt ⟨owner, operation⟩ = none ∧
    ledger.observe tables input = .receipt (.ok receipt)

/-- A spawn permit for a claim was handed out in this step. -/
def Permits (tables : Tables) (input : LedgerInput) (permit : SpawnPermit) : Prop :=
  ledger.observe tables input = .permit (.ok (some permit))

section Bodies

variable {tables final : Tables}

theorem applyIntent_ok {owner operation : Uuid} {intent : LedgerIntent}
    {receipt : LedgerReceipt}
    (run : applyIntent owner operation intent tables = .ok receipt final) :
    (tables.receiptAt ⟨owner, operation⟩ = some ⟨intent, receipt⟩ ∧ final = tables) ∨
    (tables.receiptAt ⟨owner, operation⟩ = none ∧
      ∃ middle, Transition tables intent receipt middle ∧
        final = middle.putReceipt ⟨owner, operation⟩ ⟨intent, receipt⟩) := by
  simp only [applyIntent, get_bind, ensure_bind_eq_ok] at run
  rcases run with ⟨-, run⟩
  cases cached : tables.receiptAt ⟨owner, operation⟩ with
  | some row =>
      left
      simp only [cached, ensure_bind_eq_ok, pure_eq_ok] at run
      rcases run with ⟨rfl, rfl, rfl⟩
      exact ⟨rfl, rfl⟩
  | none =>
      right
      simp only [cached] at run
      rcases bind_eq_ok.mp run with ⟨moved, middle, transitioned, recorded⟩
      simp only [get_bind, ensure_bind_eq_ok, modify_bind, pure_eq_ok] at recorded
      rcases recorded with ⟨-, rfl, rfl⟩
      exact ⟨rfl, middle, transition_ok transitioned, rfl⟩

structure Consumable (tables : Tables) (expected : Claim) (generation : Uuid)
    (row : GenerationRow) : Prop where
  current : tables.claimAt expected.key = some expected
  phase : expected.phase = .authorizedBirth
  live : Live tables expected generation row
  unspent : row.spawnConsumed = false

theorem consumeBirthOnce_ok {expected : Claim} {permit : Option SpawnPermit}
    (run : consumeBirthOnce expected tables = .ok permit final) :
    tables.claimAt expected.key = some expected ∧ expected.phase = .authorizedBirth ∧
      ((permit = none ∧ final = tables) ∨
        ∃ generation row, Consumable tables expected generation row ∧
          permit = some ⟨expected⟩ ∧
          final = tables.putGeneration generation { row with spawnConsumed := true }) := by
  simp only [consumeBirthOnce, requireExact_bind_eq_ok, ensure_bind_eq_ok] at run
  rcases run with ⟨current, ⟨phase, -⟩, run⟩
  rcases bind_eq_ok.mp run with ⟨_, _, checked, rest⟩
  rcases generationLive_eq_ok.mp checked with ⟨⟨generation, row, live, -⟩, rfl⟩
  refine ⟨current, phase, ?_⟩
  simp only [live.named, get_bind, live.found] at rest
  split at rest
  · next consumable =>
      simp only [modify_bind, pure_eq_ok] at rest
      rcases rest with ⟨rfl, rfl⟩
      have unspent : row.spawnConsumed = false := by
        simp only [GenerationRow.consumable, Bool.and_eq_true, beq_iff_eq] at consumable
        exact consumable.1.1.1.2
      exact .inr ⟨generation, row, ⟨current, phase, live, unspent⟩, rfl, rfl⟩
  · simp only [pure_eq_ok] at rest
    exact .inl ⟨rest.1.symm, rest.2.symm⟩

theorem validateSpawn_ok {expected : Claim} {result : Unit}
    (run : validateSpawn expected tables = .ok result final) :
    tables.claimAt expected.key = some expected ∧ expected.phase = .authorizedBirth ∧
      final = tables := by
  simp only [validateSpawn, requireExact_bind_eq_ok, ensure_bind_eq_ok,
    generationLive_eq_ok] at run
  exact ⟨run.1, run.2.1, run.2.2.2.symm⟩

theorem validateOwned_ok {context : OwnedHookContext} {result : Unit}
    (run : validateOwned context tables = .ok result final) :
    (∃ current, tables.claimAt context.claim.key = some current ∧
        sameAuthority current context.claim) ∧
      (∀ epoch, context.legacyAliasEpoch = some epoch →
        tables.legacyPolicyAt (.of context.claim.key) =
          some ⟨epoch, context.claim.key.leaf, false⟩) ∧
      final = tables := by
  simp only [validateOwned, loadClaim_bind] at run
  cases found : tables.claimAt context.claim.key with
  | none => simp [found] at run
  | some current =>
      simp only [found, ensure_bind_eq_ok] at run
      rcases run with ⟨same, -, rest⟩
      refine ⟨⟨current, rfl, same⟩, ?_⟩
      split at rest
      · simp only [ensure_bind_eq_ok, generationLive_eq_ok] at rest
        rcases rest with ⟨noAlias, -, same⟩
        refine ⟨?_, same.symm⟩
        intro epoch aliased
        simp [noAlias] at aliased
      · simp only [ensure_bind_eq_ok] at rest
        rcases rest with ⟨-, rest⟩
        cases aliased : context.legacyAliasEpoch with
        | none =>
            simp only [aliased, pure_eq_ok] at rest
            exact ⟨by simp, rest.2.symm⟩
        | some epoch =>
            simp only [aliased, get_bind, ensure_eq_ok] at rest
            refine ⟨?_, rest.2.symm⟩
            rintro _ ⟨⟩
            exact rest.1

end Bodies

/-! ## One step of a run -/

/-- Every way a step can change the tables. -/
inductive Change (tables : Tables) (input : LedgerInput) : Tables → Prop
  | intent {key intent receipt middle} (commits : Commits tables input intent receipt)
      (fresh : tables.receiptAt key = none)
      (moved : Transition tables intent receipt middle) :
      Change tables input (middle.putReceipt key ⟨intent, receipt⟩)
  | consume {expected generation row}
      (consumable : Consumable tables expected generation row) :
      Change tables input (tables.putGeneration generation { row with spawnConsumed := true })

theorem next_cases (tables : Tables) (input : LedgerInput) :
    ledger.next tables input = tables ∨
      Change tables input (ledger.next tables input) := by
  rcases input with ⟨request, commit⟩
  cases request with
  | applyIntent owner operation intent =>
      rcases immediate_cases commit (applyIntent owner operation intent) tables with
        ⟨receipt, final, run, -, done⟩ | ⟨error, done⟩
      · have next : ledger.next tables ⟨.applyIntent owner operation intent, commit⟩ =
            final := by simp [Machine.next, ledger, transact, done]
        rw [next]
        rcases applyIntent_ok run with ⟨-, unchanged⟩ | ⟨fresh, middle, moved, rfl⟩
        · exact .inl unchanged
        · refine .inr (.intent ⟨owner, operation, rfl, fresh, ?_⟩ fresh moved)
          simp [Machine.observe, ledger, transact, done]
      · left
        simp [Machine.next, ledger, transact, done]
  | consumeBirthOnce expected =>
      rcases immediate_cases commit (consumeBirthOnce expected) tables with
        ⟨permit, final, run, -, done⟩ | ⟨error, done⟩
      · have next : ledger.next tables ⟨.consumeBirthOnce expected, commit⟩ = final := by
          simp [Machine.next, ledger, transact, done]
        rw [next]
        rcases consumeBirthOnce_ok run with
          ⟨-, -, ⟨-, unchanged⟩ | ⟨generation, row, consumable, -, rfl⟩⟩
        · exact .inl unchanged
        · exact .inr (.consume consumable)
      · left
        simp [Machine.next, ledger, transact, done]
  | validateSpawn expected =>
      left
      rcases immediate_cases commit (validateSpawn expected) tables with
        ⟨_, final, run, -, done⟩ | ⟨error, done⟩
      · simp [Machine.next, ledger, transact, done, (validateSpawn_ok run).2.2]
      · simp [Machine.next, ledger, transact, done]
  | validateOwned context =>
      left
      rcases immediate_cases commit (validateOwned context) tables with
        ⟨_, final, run, -, done⟩ | ⟨error, done⟩
      · simp [Machine.next, ledger, transact, done, (validateOwned_ok run).2.2]
      · simp [Machine.next, ledger, transact, done]

theorem Commits.transition {tables : Tables} {input : LedgerInput} {intent : LedgerIntent}
    {receipt : LedgerReceipt} (commits : Commits tables input intent receipt) :
    ∃ middle key, Transition tables intent receipt middle ∧
      ledger.next tables input = middle.putReceipt key ⟨intent, receipt⟩ := by
  rcases commits with ⟨owner, operation, request, fresh, reply⟩
  rcases input with ⟨_, commit⟩
  cases request
  rcases immediate_cases commit (applyIntent owner operation intent) tables with
    ⟨result, final, run, -, done⟩ | ⟨error, done⟩
  · have equal : result = receipt := by
      simpa [Machine.observe, ledger, transact, done] using reply
    subst equal
    rcases applyIntent_ok run with ⟨cached, -⟩ | ⟨-, middle, moved, rfl⟩
    · simp [fresh] at cached
    · refine ⟨middle, ⟨owner, operation⟩, moved, ?_⟩
      simp [Machine.next, ledger, transact, done]
  · simp [Machine.observe, ledger, transact, done] at reply

theorem Permits.consumes {tables : Tables} {input : LedgerInput} {permit : SpawnPermit}
    (permits : Permits tables input permit) :
    ∃ generation row, Consumable tables permit.claim generation row ∧
      ledger.next tables input =
        tables.putGeneration generation { row with spawnConsumed := true } := by
  rcases input with ⟨request, commit⟩
  cases request with
  | applyIntent | validateSpawn | validateOwned =>
      simp [Permits, Machine.observe, ledger, transact] at permits
  | consumeBirthOnce expected =>
      rcases immediate_cases commit (consumeBirthOnce expected) tables with
        ⟨result, final, run, -, done⟩ | ⟨error, done⟩
      · have handed : result = some permit := by
          simpa [Permits, Machine.observe, ledger, transact, done] using permits
        subst handed
        rcases consumeBirthOnce_ok run with
          ⟨-, -, ⟨⟨⟩, -⟩ | ⟨generation, row, consumable, handed, rfl⟩⟩
        cases handed
        refine ⟨generation, row, consumable, ?_⟩
        simp [Machine.next, ledger, transact, done]
      · simp [Permits, Machine.observe, ledger, transact, done] at permits

end TerminalCanvas.Memory.HookLedger
