/-! # Fallible computations

Checks and lookups in `Except`, with the equivalences that open a successful `do`
block one statement at a time. -/

namespace TerminalCanvas.Fallible

variable {Error α β : Type}

/-- Fail with `error` unless the condition holds. -/
def ensure (condition : Prop) [Decidable condition] (error : Error) : Except Error Unit :=
  if condition then .ok () else .error error

/-- The value of a lookup, or the error of its absence. -/
def require (value : Option α) (error : Error) : Except Error α :=
  match value with
  | some value => .ok value
  | none => .error error

theorem bind_eq_ok {first : Except Error α} {rest : α → Except Error β} {result : β} :
    (first >>= rest) = .ok result ↔ ∃ value, first = .ok value ∧ rest value = .ok result := by
  cases first with
  | error error => simp [bind, Except.bind]
  | ok value => simp [bind, Except.bind]

@[simp] theorem ensure_eq_ok {condition : Prop} [Decidable condition] {error : Error}
    {result : Unit} : ensure condition error = .ok result ↔ condition := by
  unfold ensure
  split
  · next holds => simp [holds]
  · next fails => simp [fails]

theorem ensure_bind_eq_ok {condition : Prop} [Decidable condition] {error : Error}
    {rest : Unit → Except Error β} {result : β} :
    (ensure condition error >>= rest) = .ok result ↔ condition ∧ rest () = .ok result := by
  rw [bind_eq_ok]
  constructor
  · rintro ⟨_, checked, succeeds⟩
    exact ⟨ensure_eq_ok.mp checked, succeeds⟩
  · rintro ⟨holds, succeeds⟩
    exact ⟨(), ensure_eq_ok.mpr holds, succeeds⟩

@[simp] theorem require_eq_ok {value : Option α} {error : Error} {result : α} :
    require value error = .ok result ↔ value = some result := by
  cases value with
  | none => simp [require]
  | some value => simp [require]

theorem pure_eq_ok {value result : α} :
    (pure value : Except Error α) = .ok result ↔ value = result := by
  change Except.ok value = _ ↔ _
  simp

end TerminalCanvas.Fallible
