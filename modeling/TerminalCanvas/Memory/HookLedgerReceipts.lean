import TerminalCanvas.Memory.HookLedgerRun

/-! # Receipts

A receipt stored once is never changed, so that repeating an operation answers
from the receipt instead of acting again. -/

namespace TerminalCanvas.Memory.HookLedger

open TerminalCanvas.HookAuthority TerminalCanvas.Transaction TerminalCanvas.Execution

theorem Transition.receiptAt {tables final : Tables} {intent : LedgerIntent}
    {receipt : LedgerReceipt} (moved : Transition tables intent receipt final) :
    final.receiptAt = tables.receiptAt := by
  cases moved <;> simp

theorem receiptAt_next {tables : Tables} {input : LedgerInput} {key : OperationKey}
    {row : OperationReceiptRow} (stored : tables.receiptAt key = some row) :
    (ledger.next tables input).receiptAt key = some row := by
  rcases next_cases tables input with unchanged | change
  · rw [unchanged]
    exact stored
  · generalize ledger.next tables input = final at change
    cases change with
    | @intent operation _ _ _ commits fresh moved =>
        have other : key ≠ operation := by
          rintro rfl
          simp [stored] at fresh
        simp [other, moved.receiptAt, stored]
    | consume consumable => simpa using stored

theorem receiptAt_run {tables : Tables} {key : OperationKey} {row : OperationReceiptRow}
    (stored : tables.receiptAt key = some row) (inputs : List LedgerInput) :
    (ledger.run tables inputs).receiptAt key = some row := by
  apply ledger.run_invariant (fun tables => tables.receiptAt key = some row)
  · intro state input held
    exact receiptAt_next held
  · exact stored

section Intents

variable {tables : Tables} {owner operation : Uuid} {intent : LedgerIntent}

theorem stored_of_observe {commit : Except String Unit} {receipt : LedgerReceipt}
    (answered : ledger.observe tables ⟨.applyIntent owner operation intent, commit⟩ =
      .receipt (.ok receipt)) :
    intent.actorMatches owner ∧
      (ledger.next tables ⟨.applyIntent owner operation intent, commit⟩).receiptAt
        ⟨owner, operation⟩ = some ⟨intent, receipt⟩ := by
  rcases immediate_cases commit (applyIntent owner operation intent) tables with
    ⟨result, final, run, -, done⟩ | ⟨error, done⟩
  · have equal : result = receipt := by
      simpa [Machine.observe, ledger, transact, done] using answered
    subst equal
    have next : ledger.next tables ⟨.applyIntent owner operation intent, commit⟩ = final := by
      simp [Machine.next, ledger, transact, done]
    rw [next]
    constructor
    · simp only [applyIntent, ensure_bind_eq_ok] at run
      exact run.1
    · rcases applyIntent_ok run with ⟨cached, rfl⟩ | ⟨-, middle, -, rfl⟩
      · exact cached
      · simp
  · simp [Machine.observe, ledger, transact, done] at answered

theorem step_of_stored {receipt : LedgerReceipt} (actor : intent.actorMatches owner)
    (stored : tables.receiptAt ⟨owner, operation⟩ = some ⟨intent, receipt⟩)
    (commit : Except String Unit) :
    ledger.step tables ⟨.applyIntent owner operation intent, commit⟩ =
      ⟨tables, .receipt (commit.map fun _ => receipt)⟩ := by
  have replayed : applyIntent owner operation intent tables = .ok receipt tables := by
    simp only [applyIntent, get_bind, ensure_bind_eq_ok, stored]
    exact ⟨actor, by simp⟩
  cases commit <;> simp [ledger, transact, immediate, replayed, Except.map]

theorem step_of_conflict {prior : LedgerIntent} {receipt : LedgerReceipt}
    (stored : tables.receiptAt ⟨owner, operation⟩ = some ⟨prior, receipt⟩)
    (different : intent ≠ prior) (commit : Except String Unit) :
    ∃ error, ledger.step tables ⟨.applyIntent owner operation intent, commit⟩ =
      ⟨tables, .receipt (.error error)⟩ := by
  rcases immediate_cases commit (applyIntent owner operation intent) tables with
    ⟨result, final, run, -, -⟩ | ⟨error, done⟩
  · rcases applyIntent_ok run with ⟨cached, -⟩ | ⟨fresh, -⟩
    · rw [stored] at cached
      simp only [Option.some.injEq, OperationReceiptRow.mk.injEq] at cached
      exact absurd cached.1.symm different
    · simp [stored] at fresh
  · exact ⟨error, by simp [ledger, transact, done]⟩

theorem next_of_refused {commit : Except String Unit} {error : String}
    (refused : ledger.observe tables ⟨.applyIntent owner operation intent, commit⟩ =
      .receipt (.error error)) :
    ledger.next tables ⟨.applyIntent owner operation intent, commit⟩ = tables := by
  have failed : (immediate commit (applyIntent owner operation intent) tables).1 =
      .error error := by
    simpa [Machine.observe, ledger, transact] using refused
  simpa [Machine.next, ledger, transact] using immediate_error failed

end Intents

/-- In every run from empty tables: once an intent succeeded with a receipt, the
same operation answers the same receipt and a different intent under it is
refused, both without changing a table, whatever was committed in between; and
an intent that reports an error changes no table. -/
theorem intents_are_idempotent_receipts :
    (∀ before between owner operation intent commit receipt,
      ledger.observe (ledger.run .empty before)
          ⟨.applyIntent owner operation intent, commit⟩ = .receipt (.ok receipt) →
      ∀ later, later = ledger.run .empty
          (before ++ ⟨.applyIntent owner operation intent, commit⟩ :: between) →
        (∀ again, ledger.step later ⟨.applyIntent owner operation intent, again⟩ =
          ⟨later, .receipt (again.map fun _ => receipt)⟩) ∧
        (∀ other again, other ≠ intent →
          ∃ error, ledger.step later ⟨.applyIntent owner operation other, again⟩ =
            ⟨later, .receipt (.error error)⟩)) ∧
    (∀ inputs owner operation intent commit error,
      ledger.observe (ledger.run .empty inputs)
          ⟨.applyIntent owner operation intent, commit⟩ = .receipt (.error error) →
        ledger.next (ledger.run .empty inputs)
          ⟨.applyIntent owner operation intent, commit⟩ = ledger.run .empty inputs) := by
  constructor
  · intro before between owner operation intent commit receipt answered later reached
    rcases stored_of_observe answered with ⟨actor, stored⟩
    have kept : later.receiptAt ⟨owner, operation⟩ = some ⟨intent, receipt⟩ := by
      rw [reached, Machine.run_append, Machine.run_cons]
      exact receiptAt_run stored between
    constructor
    · exact step_of_stored actor kept
    · intro other again different
      exact step_of_conflict kept different again
  · intro inputs owner operation intent commit error refused
    exact next_of_refused refused

/-- A reservation repeated after another leaf was reserved. -/
theorem intents_are_idempotent_receipts_reserved :
    let first : LeafKey := ⟨.fromU128 1, .fromU128 2, .fromU128 3⟩
    let second : LeafKey := ⟨.fromU128 1, .fromU128 2, .fromU128 4⟩
    let intent : LedgerIntent := .reserve none first ⟨.fromU128 5, .fromU128 6⟩ (.fromU128 7)
    let reserved : LedgerInput := ⟨.applyIntent (.fromU128 7) (.fromU128 8) intent, .ok ()⟩
    let between : LedgerInput :=
      ⟨.applyIntent (.fromU128 7) (.fromU128 9)
        (.reserve none second ⟨.fromU128 5, .fromU128 10⟩ (.fromU128 7)), .ok ()⟩
    ledger.step (ledger.run .empty [reserved, between]) reserved =
      ⟨ledger.run .empty [reserved, between],
        .receipt (.ok (committed (reservedClaim first ⟨.fromU128 5, .fromU128 6⟩
          (.fromU128 7) 1)))⟩ := by
  intro first second intent reserved between
  exact (intents_are_idempotent_receipts.1 [] [between] (.fromU128 7) (.fromU128 8) intent
    (.ok ()) (committed (reservedClaim first ⟨.fromU128 5, .fromU128 6⟩ (.fromU128 7) 1))
    rfl _ rfl).1 (.ok ())

end TerminalCanvas.Memory.HookLedger
