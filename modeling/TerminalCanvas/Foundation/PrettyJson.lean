import Mathlib.Tactic.Ring
import TerminalCanvas.Foundation.Json

/-! # Indented JSON texts

A value is a text for each depth at which it stands. Its lines are indented by two
spaces a level. -/

namespace TerminalCanvas.Json

abbrev Pretty := Nat → List Char

def scalar (text : List Char) : Pretty := fun _ => text

def newLine (depth : Nat) : List Char := '\n' :: List.replicate (2 * depth) ' '

def prettyLines (depth : Nat) : List Pretty → List Char
  | [] => []
  | first :: rest => newLine depth ++ first depth ++
      rest.flatMap fun value => ',' :: (newLine depth ++ value depth)

/-- A bracketed value, one line a part. -/
def block (opening closing : Char) (parts : List Pretty) : Pretty := fun depth =>
  match parts with
  | [] => [opening, closing]
  | parts => opening :: prettyLines (depth + 1) parts ++ newLine depth ++ [closing]

def prettyArray (items : List Pretty) : Pretty := block '[' ']' items

def prettyMember (name : String) (value : Pretty) : Pretty := fun depth =>
  string name.toList ++ ':' :: ' ' :: value depth

def prettyObject (members : List Pretty) : Pretty :=
  block (Char.ofNat 0x7B) (Char.ofNat 0x7D) members

def prettyOptional {Value : Type} (text : Value → Pretty) : Option Value → Pretty
  | none => scalar "null".toList
  | some value => text value

/-! ## Sizes -/

theorem byteLength_newLine (depth : Nat) : byteLength (newLine depth) = 2 * depth + 1 := by
  rw [newLine, byteLength_cons (by decide), byteLength_of_ascii, List.length_replicate,
    Nat.add_comm]
  intro character member
  rw [List.eq_of_mem_replicate member]
  decide

theorem byteLength_prettyLines (depth : Nat) (first : Pretty) (rest : List Pretty) :
    byteLength (prettyLines depth (first :: rest)) + 1 =
      ((first :: rest).map fun value => byteLength (value depth)).sum +
        (first :: rest).length * (2 * depth + 2) := by
  have others : byteLength (rest.flatMap fun value => ',' :: (newLine depth ++ value depth)) =
      (rest.map fun value => byteLength (value depth)).sum + rest.length * (2 * depth + 2) := by
    induction rest with
    | nil => simp [byteLength]
    | cons second rest induction =>
        rw [List.flatMap_cons, byteLength_append, induction, byteLength_cons (by decide),
          byteLength_append, byteLength_newLine, List.map_cons, List.sum_cons,
          List.length_cons, Nat.add_mul]
        omega
  rw [prettyLines, byteLength_append, byteLength_append, byteLength_newLine, others,
    List.map_cons, List.sum_cons, List.length_cons, Nat.add_mul]
  omega

theorem byteLength_block {opening closing : Char} (opens : opening.toNat ≤ 0x7F)
    (closes : closing.toNat ≤ 0x7F) {parts : List Pretty} (filled : parts ≠ []) (depth : Nat) :
    byteLength (block opening closing parts depth) =
      (parts.map fun value => byteLength (value (depth + 1))).sum +
        parts.length * (2 * depth + 4) + 2 * depth + 2 := by
  obtain ⟨first, rest, rfl⟩ := List.exists_cons_of_ne_nil filled
  have closed : byteLength [closing] = 1 := by
    rw [byteLength_cons closes]
    rfl
  change byteLength (opening :: prettyLines (depth + 1) (first :: rest) ++ newLine depth ++
    [closing]) = _
  have lines := byteLength_prettyLines (depth + 1) first rest
  have width : 2 * (depth + 1) + 2 = 2 * depth + 4 := by omega
  rw [width] at lines
  rw [byteLength_append, byteLength_append, byteLength_cons opens, byteLength_newLine, closed]
  omega

theorem byteLength_prettyObject {members : List Pretty} (filled : members ≠ []) (depth : Nat) :
    byteLength (prettyObject members depth) =
      (members.map fun value => byteLength (value (depth + 1))).sum +
        members.length * (2 * depth + 4) + 2 * depth + 2 :=
  byteLength_block (by decide) (by decide) filled depth

theorem byteLength_prettyMember (name : String) (value : Pretty) (depth : Nat) :
    byteLength (prettyMember name value depth) =
      byteLength (string name.toList) + 2 + byteLength (value depth) := by
  rw [prettyMember, byteLength_append, byteLength_cons (by decide), byteLength_cons (by decide)]
  omega

theorem byteLength_append_mono (before after : List Char) {less more : List Char}
    (longer : byteLength less ≤ byteLength more) :
    byteLength (before ++ less ++ after) ≤ byteLength (before ++ more ++ after) := by
  simp only [byteLength_append]
  omega

theorem byteLength_prettyMember_mono {less more : Pretty} {depth : Nat} (name : String)
    (longer : byteLength (less depth) ≤ byteLength (more depth)) :
    byteLength (prettyMember name less depth) ≤ byteLength (prettyMember name more depth) := by
  rw [byteLength_prettyMember, byteLength_prettyMember]
  exact Nat.add_le_add_left longer _

theorem byteLength_prettyObject_mono {less more : Pretty} {depth : Nat} (before after : List Pretty)
    (longer : byteLength (less (depth + 1)) ≤ byteLength (more (depth + 1))) :
    byteLength (prettyObject (before ++ less :: after) depth) ≤
      byteLength (prettyObject (before ++ more :: after) depth) := by
  rw [byteLength_prettyObject (by simp), byteLength_prettyObject (by simp), List.map_append,
    List.map_append, List.map_cons, List.map_cons, List.sum_append, List.sum_append, List.sum_cons,
    List.sum_cons, List.length_append, List.length_append, List.length_cons, List.length_cons]
  omega

/-! ## Values of one line -/

/-- The text of a value does not depend on where it stands. -/
def Flat (value : Pretty) : Prop := ∀ first second, value first = value second

theorem flat_scalar (text : List Char) : Flat (scalar text) := fun _ _ => rfl

theorem Flat.member {value : Pretty} (flat : Flat value) (name : String) :
    Flat (prettyMember name value) := by
  intro first second
  rw [prettyMember, prettyMember, flat first second]

theorem Flat.optional {Value : Type} {text : Value → Pretty} (flat : ∀ value, Flat (text value))
    (value : Option Value) : Flat (prettyOptional text value) := by
  cases value with
  | none => exact flat_scalar _
  | some value => exact flat value

theorem byteLength_prettyObject_succ {members : List Pretty} (filled : members ≠ [])
    (flat : ∀ value ∈ members, Flat value) (depth : Nat) :
    byteLength (prettyObject members (depth + 1)) =
      byteLength (prettyObject members depth) + 2 * members.length + 2 := by
  have same : (members.map fun value => byteLength (value (depth + 1 + 1))).sum =
      (members.map fun value => byteLength (value (depth + 1))).sum := by
    congr 1
    apply List.map_congr_left
    intro value member
    rw [flat value member (depth + 1 + 1) (depth + 1)]
  have wider : members.length * (2 * (depth + 1) + 4) =
      members.length * (2 * depth + 4) + 2 * members.length := by
    ring
  rw [byteLength_prettyObject filled, byteLength_prettyObject filled, same, wider]
  omega

end TerminalCanvas.Json
