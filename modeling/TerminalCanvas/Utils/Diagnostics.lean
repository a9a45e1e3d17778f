import TerminalCanvas.Utils.LayoutRecords

/-! # The layout in a diagnostic

A diagnostic holds the saved layout with the texts of the user replaced by short hashes.
Which members hold such texts is a list of names. -/

namespace TerminalCanvas.Diagnostics

open Layout (JsonValue)

/-! ## What is hashed -/

/-- Names of members whose strings are hashed, at any depth below them. -/
def sensitive : List String :=
  ["title", "custom_title", "cwd", "agent_command", "leaf_agent_commands", "agent_session_id",
    "leaf_agent_session_ids", "startup_command", "startup_input", "summary", "excerpt",
    "command_excerpt", "last_error", "last_success", "changed_files", "name", "label", "brief",
    "task_title", "branch", "path", "repo_root", "worktree_path"]

section Anonymizing

variable (sha256 : String → Bytes)

/-- The first four bytes of the digest in hexadecimal. -/
def stableHash (text : String) : String :=
  String.ofList (((sha256 text).take 4).flatMap fun byte => Json.hexByte byte.toNat)

/-- What stands for a text; an empty text stands for itself. -/
def mark (text : String) : String := if text = "" then text else "#" ++ stableHash sha256 text

mutual

def anonymizeStrings : JsonValue → JsonValue
  | .string text => .string (mark sha256 text)
  | .object members => .object (anonymizeStringsMembers members)
  | .array items => .array (anonymizeStringsItems items)
  | value => value

def anonymizeStringsItems : List JsonValue → List JsonValue
  | [] => []
  | item :: items => anonymizeStrings item :: anonymizeStringsItems items

def anonymizeStringsMembers : List (String × JsonValue) → List (String × JsonValue)
  | [] => []
  | (key, entry) :: members => (key, anonymizeStrings entry) :: anonymizeStringsMembers members

end

mutual

def anonymizeValue : JsonValue → JsonValue
  | .object members => .object (anonymizeMembers members)
  | .array items => .array (anonymizeItems items)
  | value => value

def anonymizeItems : List JsonValue → List JsonValue
  | [] => []
  | item :: items => anonymizeValue item :: anonymizeItems items

def anonymizeMembers : List (String × JsonValue) → List (String × JsonValue)
  | [] => []
  | (key, entry) :: members =>
      (key,
        if sensitive.contains key then anonymizeStrings sha256 entry else anonymizeValue entry) ::
        anonymizeMembers members

end

structure SerdeJson where
  fromStr : String → Option JsonValue
  toStringPretty : JsonValue → Option String

def anonymizeLayout (serde : SerdeJson) (json : String) : String :=
  match serde.fromStr json with
  | none => ""
  | some value => (serde.toStringPretty (anonymizeValue sha256 value)).getD ""

/-! ## The strings of a value -/

mutual

/-- Every string of a value; keys are none. -/
def texts : JsonValue → List String
  | .string text => [text]
  | .object members => textsMembers members
  | .array items => textsItems items
  | _ => []

def textsItems : List JsonValue → List String
  | [] => []
  | item :: items => texts item ++ textsItems items

def textsMembers : List (String × JsonValue) → List String
  | [] => []
  | (_, entry) :: members => texts entry ++ textsMembers members

end

mutual

def sensitiveTexts : JsonValue → List String
  | .object members => sensitiveTextsMembers members
  | .array items => sensitiveTextsItems items
  | _ => []

def sensitiveTextsItems : List JsonValue → List String
  | [] => []
  | item :: items => sensitiveTexts item ++ sensitiveTextsItems items

def sensitiveTextsMembers : List (String × JsonValue) → List String
  | [] => []
  | (key, entry) :: members =>
      (if sensitive.contains key then texts entry else sensitiveTexts entry) ++
        sensitiveTextsMembers members

end

/-- A text that is empty, or its own mark by chance, is not changed. -/
def Stays (text : String) : Prop := text = "" ∨ text = "#" ++ stableHash sha256 text

variable {sha256}

theorem mark_eq_self_iff {text : String} : mark sha256 text = text ↔ Stays sha256 text := by
  unfold mark Stays
  split
  · next empty => simp [empty]
  · next some => simp [some, eq_comm]

mutual

theorem anonymizeStrings_eq_self_iff : ∀ value : JsonValue,
    anonymizeStrings sha256 value = value ↔ ∀ text ∈ texts value, Stays sha256 text
  | .null => by simp [anonymizeStrings, texts]
  | .bool _ => by simp [anonymizeStrings, texts]
  | .number _ => by simp [anonymizeStrings, texts]
  | .string text => by simp [anonymizeStrings, texts, mark_eq_self_iff]
  | .array items => by
      simp [anonymizeStrings, texts, anonymizeStringsItems_eq_self_iff items]
  | .object members => by
      simp [anonymizeStrings, texts, anonymizeStringsMembers_eq_self_iff members]

theorem anonymizeStringsItems_eq_self_iff : ∀ items : List JsonValue,
    anonymizeStringsItems sha256 items = items ↔ ∀ text ∈ textsItems items, Stays sha256 text
  | [] => by simp [anonymizeStringsItems, textsItems]
  | item :: items => by
      simp [anonymizeStringsItems, textsItems, anonymizeStrings_eq_self_iff item,
        anonymizeStringsItems_eq_self_iff items, or_imp, forall_and]

theorem anonymizeStringsMembers_eq_self_iff : ∀ members : List (String × JsonValue),
    anonymizeStringsMembers sha256 members = members ↔
      ∀ text ∈ textsMembers members, Stays sha256 text
  | [] => by simp [anonymizeStringsMembers, textsMembers]
  | (_, entry) :: members => by
      simp [anonymizeStringsMembers, textsMembers, anonymizeStrings_eq_self_iff entry,
        anonymizeStringsMembers_eq_self_iff members, or_imp, forall_and]

end

mutual

theorem anonymizeValue_eq_self_iff : ∀ value : JsonValue,
    anonymizeValue sha256 value = value ↔ ∀ text ∈ sensitiveTexts value, Stays sha256 text
  | .null => by simp [anonymizeValue, sensitiveTexts]
  | .bool _ => by simp [anonymizeValue, sensitiveTexts]
  | .number _ => by simp [anonymizeValue, sensitiveTexts]
  | .string _ => by simp [anonymizeValue, sensitiveTexts]
  | .array items => by
      simp [anonymizeValue, sensitiveTexts, anonymizeItems_eq_self_iff items]
  | .object members => by
      simp [anonymizeValue, sensitiveTexts, anonymizeMembers_eq_self_iff members]

theorem anonymizeItems_eq_self_iff : ∀ items : List JsonValue,
    anonymizeItems sha256 items = items ↔ ∀ text ∈ sensitiveTextsItems items, Stays sha256 text
  | [] => by simp [anonymizeItems, sensitiveTextsItems]
  | item :: items => by
      simp [anonymizeItems, sensitiveTextsItems, anonymizeValue_eq_self_iff item,
        anonymizeItems_eq_self_iff items, or_imp, forall_and]

theorem anonymizeMembers_eq_self_iff : ∀ members : List (String × JsonValue),
    anonymizeMembers sha256 members = members ↔
      ∀ text ∈ sensitiveTextsMembers members, Stays sha256 text
  | [] => by simp [anonymizeMembers, sensitiveTextsMembers]
  | (key, entry) :: members => by
      rw [anonymizeMembers, sensitiveTextsMembers]
      cases sensitive.contains key with
      | true =>
          simp [anonymizeStrings_eq_self_iff entry, anonymizeMembers_eq_self_iff members, or_imp,
            forall_and]
      | false =>
          simp [anonymizeValue_eq_self_iff entry, anonymizeMembers_eq_self_iff members, or_imp,
            forall_and]

end

end Anonymizing

end TerminalCanvas.Diagnostics
