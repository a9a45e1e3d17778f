import Mathlib.Data.String.Basic

/-! # The configuration in a diagnostic

The values of secret keys are replaced in the parsed file, whatever their shape. -/

namespace TerminalCanvas.Diagnostics

/-- Names whose values stay on the machine of the user. -/
def secretKeyHints : List String :=
  ["token", "secret", "password", "key", "apikey", "credential", "credentials"]

/-- A segment of the name, between `_`, `-` and `.`, is a hint. -/
def isSecretKey (key : String) : Bool :=
  (key.toLower.toList.splitOnP fun character => character ∈ ['_', '-', '.']).any
    fun segment => secretKeyHints.contains (String.ofList segment)

/-- A number with a fraction is kept as its bits, and a time as its text. -/
inductive TomlValue where
  | string (value : String)
  | integer (value : Int64)
  | float (bits : UInt64)
  | boolean (value : Bool)
  | datetime (text : String)
  | array (values : List TomlValue)
  | table (entries : List (String × TomlValue))

/-- Neither a table nor an array. -/
def TomlValue.isScalar : TomlValue → Bool
  | array _ | table _ => false
  | _ => true

def redacted : TomlValue := .string "<redacted>"

mutual

def redact : TomlValue → TomlValue
  | .table entries => .table (redactEntries entries)
  | .array values => .array (redactValues values)
  | value => value

def redactValues : List TomlValue → List TomlValue
  | [] => []
  | value :: values => redact value :: redactValues values

def redactEntries : List (String × TomlValue) → List (String × TomlValue)
  | [] => []
  | (key, value) :: entries =>
      (key, if isSecretKey key then redacted else redact value) :: redactEntries entries

end

structure Toml where
  fromStr : String → Option TomlValue
  toStringPretty : TomlValue → Option String

def redactConfigChecked (toml : Toml) (text : String) : Option String := do
  let value ← toml.fromStr text
  toml.toStringPretty (redact value)

def configOmitted : String := "# Configuration omitted: invalid TOML.\n"

def redactConfig (toml : Toml) (text : String) : String :=
  (redactConfigChecked toml text).getD configOmitted

/-! ## Places in a value -/

inductive TomlStep where
  | key (name : String)
  | index (position : Nat)
deriving DecidableEq, Repr

def TomlStep.isSecret : TomlStep → Bool
  | key name => isSecretKey name
  | index _ => false

/-- The entry or item that a step leads to. -/
def TomlValue.next : TomlValue → TomlStep → Option TomlValue
  | table entries, .key name => (entries.find? (·.1 = name)).map (·.2)
  | array values, .index position => values[position]?
  | _, _ => none

def TomlValue.at (value : TomlValue) : List TomlStep → Option TomlValue
  | [] => some value
  | step :: path => (value.next step).bind (TomlValue.at · path)

theorem redact_scalar {value : TomlValue} (scalar : value.isScalar = true) :
    redact value = value := by
  cases value with
  | array values => cases scalar
  | table entries => cases scalar
  | _ => rfl

theorem redactValues_eq_map (values : List TomlValue) :
    redactValues values = values.map redact := by
  induction values with
  | nil => rfl
  | cons value values induction => rw [redactValues, induction, List.map_cons]

theorem find?_redactEntries (entries : List (String × TomlValue)) (name : String) :
    ((redactEntries entries).find? (·.1 = name)).map (·.2) =
      ((entries.find? (·.1 = name)).map (·.2)).map
        fun value => if isSecretKey name then redacted else redact value := by
  induction entries with
  | nil => rfl
  | cons entry entries induction =>
      obtain ⟨key, value⟩ := entry
      rw [redactEntries, List.find?_cons, List.find?_cons]
      by_cases same : key = name
      · subst same
        simp
      · simp [same, induction]

theorem next_redact (value : TomlValue) (step : TomlStep) :
    (redact value).next step =
      (value.next step).map fun inner => if step.isSecret then redacted else redact inner := by
  cases value with
  | table entries =>
      cases step with
      | key name => exact find?_redactEntries entries name
      | index position => rfl
  | array values =>
      cases step with
      | key name => rfl
      | index position =>
          simp [redact, TomlValue.next, TomlStep.isSecret, redactValues_eq_map]
  | _ => cases step <;> rfl

theorem at_redact_public {path : List TomlStep} (isPublic : ∀ step ∈ path, step.isSecret = false)
    (value : TomlValue) : (redact value).at path = (value.at path).map redact := by
  induction path generalizing value with
  | nil => rfl
  | cons step path induction =>
      obtain ⟨head, rest⟩ := List.forall_mem_cons.mp isPublic
      rw [TomlValue.at, TomlValue.at, next_redact, head]
      cases value.next step with
      | none => rfl
      | some inner => exact induction rest inner

theorem at_redact_secret {before after : List TomlStep} {secret : TomlStep}
    (isPublic : ∀ step ∈ before, step.isSecret = false) (isSecret : secret.isSecret = true)
    (value : TomlValue) : (redact value).at (before ++ secret :: after) =
      if after = [] then (value.at (before ++ [secret])).map fun _ => redacted else none := by
  induction before generalizing value with
  | nil =>
      rw [List.nil_append, List.nil_append, TomlValue.at, TomlValue.at, next_redact, isSecret]
      cases value.next secret with
      | none => simp
      | some inner =>
          cases after with
          | nil => rfl
          | cons step after => rfl
  | cons step before induction =>
      obtain ⟨head, rest⟩ := List.forall_mem_cons.mp isPublic
      rw [List.cons_append, List.cons_append, TomlValue.at, TomlValue.at, next_redact, head]
      cases value.next step with
      | none => simp
      | some inner => exact induction rest inner

end TerminalCanvas.Diagnostics
