/-! # Transactions with rollback

A transaction body threads the tables it reads and writes. An error keeps the
writes made so far: only the enclosing `immediate` puts the old tables back, as
a database does when a transaction is dropped without a commit. -/

namespace TerminalCanvas.Transaction

variable {Error Tables α β : Type}

/-- Fail with `error` unless the condition holds. -/
def ensure (condition : Prop) [Decidable condition] (error : Error) :
    EStateM Error Tables Unit :=
  if condition then pure () else throw error

/-- Run a body in one transaction. `commit` is the database's answer to the
commit; a body that fails, or whose commit fails, changes no table. -/
def immediate (commit : Except Error Unit) (body : EStateM Error Tables α)
    (tables : Tables) : Except Error α × Tables :=
  match body tables with
  | .error error _ => (.error error, tables)
  | .ok value next =>
      match commit with
      | .error error => (.error error, tables)
      | .ok () => (.ok value, next)

/-! ## Successful bodies

These equivalences open a successful `do` block one statement at a time. -/

theorem bind_eq_ok {first : EStateM Error Tables α} {rest : α → EStateM Error Tables β}
    {tables final : Tables} {result : β} :
    (first >>= rest) tables = .ok result final ↔
      ∃ value middle, first tables = .ok value middle ∧
        rest value middle = .ok result final := by
  change EStateM.bind first rest tables = _ ↔ _
  unfold EStateM.bind
  cases first tables with
  | ok value middle =>
      constructor
      · intro succeeds
        exact ⟨value, middle, rfl, succeeds⟩
      · rintro ⟨_, _, ⟨⟩, succeeds⟩
        exact succeeds
  | error error middle => simp

section Statements

variable {tables final : Tables} {error : Error}

@[simp] theorem pure_eq_ok {value result : α} :
    (pure value : EStateM Error Tables α) tables = .ok result final ↔
      value = result ∧ tables = final := by
  change EStateM.Result.ok value tables = _ ↔ _
  simp

@[simp] theorem throw_eq_ok {result : α} :
    (throw error : EStateM Error Tables α) tables = .ok result final ↔ False := by
  change EStateM.Result.error error tables = _ ↔ _
  simp

@[simp] theorem modify_eq_ok {change : Tables → Tables} {result : Unit} :
    (modify change : EStateM Error Tables Unit) tables = .ok result final ↔
      change tables = final := by
  change EStateM.Result.ok () (change tables) = _ ↔ _
  simp

@[simp] theorem ensure_eq_ok {condition : Prop} [Decidable condition] {result : Unit} :
    ensure condition error tables = .ok result final ↔ condition ∧ tables = final := by
  unfold ensure
  split
  · next holds => simp [holds]
  · next fails => simp [fails]

@[simp] theorem get_bind {rest : Tables → EStateM Error Tables β} :
    (get >>= rest) tables = rest tables tables := rfl

@[simp] theorem modify_bind {change : Tables → Tables}
    {rest : PUnit → EStateM Error Tables β} :
    (modify change >>= rest) tables = rest ⟨⟩ (change tables) := rfl

@[simp] theorem ensure_bind_eq_ok {condition : Prop} [Decidable condition]
    {rest : Unit → EStateM Error Tables β} {result : β} :
    (ensure condition error >>= rest) tables = .ok result final ↔
      condition ∧ rest () tables = .ok result final := by
  rw [bind_eq_ok]
  constructor
  · rintro ⟨_, _, checked, succeeds⟩
    rcases ensure_eq_ok.mp checked with ⟨holds, rfl⟩
    exact ⟨holds, succeeds⟩
  · rintro ⟨holds, succeeds⟩
    exact ⟨(), tables, ensure_eq_ok.mpr ⟨holds, rfl⟩, succeeds⟩

end Statements

/-! ## Rollback -/

theorem immediate_error {commit : Except Error Unit} {body : EStateM Error Tables α}
    {tables : Tables} {error : Error}
    (failed : (immediate commit body tables).1 = .error error) :
    (immediate commit body tables).2 = tables := by
  unfold immediate at failed ⊢
  cases run : body tables with
  | error => rfl
  | ok value middle =>
      cases commit with
      | error => rfl
      | ok => simp [run] at failed

/-- Every transaction either succeeds with its body's tables or changes nothing. -/
theorem immediate_cases (commit : Except Error Unit) (body : EStateM Error Tables α)
    (tables : Tables) :
    (∃ value final, body tables = .ok value final ∧ commit = .ok () ∧
        immediate commit body tables = (.ok value, final)) ∨
      (∃ error, immediate commit body tables = (.error error, tables)) := by
  unfold immediate
  cases body tables with
  | error error middle => exact .inr ⟨error, rfl⟩
  | ok value middle =>
      cases commit with
      | error error => exact .inr ⟨error, rfl⟩
      | ok => exact .inl ⟨value, middle, rfl, rfl, rfl⟩

end TerminalCanvas.Transaction
