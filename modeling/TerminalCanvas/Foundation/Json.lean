import TerminalCanvas.Foundation.Primitives
import TerminalCanvas.Foundation.Text

/-! # JSON texts

The compact texts of JSON values as lists of characters. No control character is ever
left in one, so a text is a line. -/

namespace TerminalCanvas.Json

def quote : Char := Char.ofNat 0x22

def backslash : Char := Char.ofNat 0x5C

/-- The digits of a byte below 32, after `\u00`. -/
def hexByte (code : Nat) : List Char := [Nat.digitChar (code / 16), Nat.digitChar (code % 16)]

/-- Short escapes where JSON has them, `\u` for the other control characters. -/
def escape (character : Char) : List Char :=
  if character = quote ∨ character = backslash then [backslash, character]
  else if character.toNat = 0x08 then [backslash, 'b']
  else if character.toNat = 0x09 then [backslash, 't']
  else if character.toNat = 0x0A then [backslash, 'n']
  else if character.toNat = 0x0C then [backslash, 'f']
  else if character.toNat = 0x0D then [backslash, 'r']
  else if character.toNat < 0x20 then
    [backslash, 'u', '0', '0'] ++ hexByte character.toNat
  else [character]

def string (text : List Char) : List Char := quote :: text.flatMap escape ++ [quote]

def number (value : Nat) : List Char := Nat.toDigits 10 value

def integer (value : Int) : List Char :=
  if value < 0 then '-' :: number value.natAbs else number value.natAbs

def optional {Value : Type} (text : Value → List Char) : Option Value → List Char
  | none => "null".toList
  | some value => text value

def bool (value : Bool) : List Char := (if value then "true" else "false").toList

def separated : List (List Char) → List Char
  | [] => []
  | first :: rest => first ++ rest.flatMap (',' :: ·)

def array (items : List (List Char)) : List Char := '[' :: separated items ++ [']']

def member (name : String) (value : List Char) : List Char :=
  string name.toList ++ ':' :: value

def object (members : List (List Char)) : List Char :=
  Char.ofNat 0x7B :: separated members ++ [Char.ofNat 0x7D]

/-! ## No control characters -/

/-- No character is below the space. -/
def Printable (text : List Char) : Prop := ∀ character ∈ text, 0x20 ≤ character.toNat

instance (text : List Char) : Decidable (Printable text) :=
  List.decidableBAll (fun character : Char => 0x20 ≤ character.toNat) text

theorem Printable.append {first second : List Char} (left : Printable first)
    (right : Printable second) : Printable (first ++ second) := by
  intro character member
  rcases List.mem_append.mp member with member | member
  · exact left character member
  · exact right character member

theorem Printable.cons {first : Char} {rest : List Char} (head : 0x20 ≤ first.toNat)
    (tail : Printable rest) : Printable (first :: rest) := by
  intro character member
  rcases List.mem_cons.mp member with rfl | member
  · exact head
  · exact tail character member

theorem Printable.flatMap {Item : Type} {items : List Item} {text : Item → List Char}
    (printable : ∀ item ∈ items, Printable (text item)) : Printable (items.flatMap text) := by
  intro character member
  obtain ⟨item, itemIn, member⟩ := List.mem_flatMap.mp member
  exact printable item itemIn character member

theorem printable_digitChar {value : Nat} (bound : value < 16) :
    0x20 ≤ (Nat.digitChar value).toNat := by
  have all : ∀ value < 16, 0x20 ≤ (Nat.digitChar value).toNat := by decide
  exact all value bound

theorem printable_hexByte {code : Nat} (bound : code < 0x20) : Printable (hexByte code) :=
  .cons (printable_digitChar (by omega)) (.cons (printable_digitChar (by omega)) (by decide))

theorem printable_escape (character : Char) : Printable (escape character) := by
  unfold escape
  split
  · next special =>
      rcases special with rfl | rfl <;> decide
  · split
    · decide
    · split
      · decide
      · split
        · decide
        · split
          · decide
          · split
            · decide
            · split
              · next control => exact .append (by decide) (printable_hexByte control)
              · next printable =>
                  exact .cons (Nat.le_of_not_lt printable) (by decide)

theorem printable_string (text : List Char) : Printable (string text) :=
  .append (.cons (by decide) (.flatMap fun character _ => printable_escape character)) (by decide)

theorem printable_number (value : Nat) : Printable (number value) := by
  intro character member
  have isDigit := Nat.isDigit_of_mem_toDigits (by decide) (by decide) member
  simp only [Char.isDigit, Bool.and_eq_true, decide_eq_true_eq] at isDigit
  have bound : '0'.toNat ≤ character.toNat := UInt32.le_iff_toNat_le.mp isDigit.1
  exact Nat.le_trans (by decide) bound

theorem printable_bool (value : Bool) : Printable (bool value) := by
  cases value <;> decide

theorem printable_separated {texts : List (List Char)}
    (printable : ∀ text ∈ texts, Printable text) : Printable (separated texts) := by
  cases texts with
  | nil => decide
  | cons first rest =>
      apply Printable.append (printable first (List.mem_cons_self ..))
      apply Printable.flatMap
      intro text member
      exact .cons (by decide) (printable text (List.mem_cons_of_mem _ member))

theorem printable_array {items : List (List Char)}
    (printable : ∀ item ∈ items, Printable item) : Printable (array items) :=
  .append (.cons (by decide) (printable_separated printable)) (by decide)

theorem printable_member (name : String) {value : List Char} (printable : Printable value) :
    Printable (member name value) :=
  .append (printable_string _) (.cons (by decide) printable)

theorem printable_object {members : List (List Char)}
    (printable : ∀ text ∈ members, Printable text) : Printable (object members) :=
  .append (.cons (by decide) (printable_separated printable)) (by decide)

/-! ## Plain strings -/

/-- A character that a string keeps as it is, and that is one byte. -/
def Plain (character : Char) : Prop :=
  0x20 ≤ character.toNat ∧ character.toNat ≤ 0x7F ∧ character ≠ quote ∧ character ≠ backslash

instance (character : Char) : Decidable (Plain character) :=
  inferInstanceAs (Decidable (_ ∧ _ ∧ _ ∧ _))

theorem escape_of_plain {character : Char} (plain : Plain character) :
    escape character = [character] := by
  obtain ⟨printable, -, notQuote, notBackslash⟩ := plain
  unfold escape
  rw [if_neg (by simp [notQuote, notBackslash]), if_neg (by omega), if_neg (by omega),
    if_neg (by omega), if_neg (by omega), if_neg (by omega), if_neg (by omega)]

theorem string_of_plain {text : List Char} (plain : ∀ character ∈ text, Plain character) :
    string text = quote :: text ++ [quote] := by
  have kept : text.flatMap escape = text := by
    induction text with
    | nil => rfl
    | cons first rest induction =>
        rw [List.flatMap_cons, escape_of_plain (plain first (List.mem_cons_self ..)),
          induction fun character member => plain character (List.mem_cons_of_mem _ member)]
        rfl
  rw [string, kept]

/-! ## Numbers -/

theorem number_injective {left right : Nat} (texts : number left = number right) :
    left = right := by
  have values := congrArg (Nat.ofDigitChars 10 · 0) texts
  simpa only [number, Nat.ofDigitChars_ten_toDigits] using values

/-! ## Identifiers -/

theorem plain_of_mem_hexDigits {width value : Nat} {character : Char}
    (member : character ∈ Uuid.hexDigits width value) : Plain character := by
  have digits : ∀ digit < 16, Plain (Nat.digitChar digit) := by decide
  induction width generalizing value with
  | zero => cases member
  | succ width induction =>
      rcases List.mem_append.mp member with member | member
      · exact induction member
      · rw [List.mem_singleton.mp member]
        exact digits _ (Nat.mod_lt _ (by decide))

theorem toList_display (id : Uuid) :
    id.display.toList.length = 36 ∧ ∀ character ∈ id.display.toList, Plain character := by
  have length := Uuid.length_hexDigits 32 id.asU128.toNat
  have plain : ∀ character ∈ Uuid.hexDigits 32 id.asU128.toNat, Plain character :=
    fun character => plain_of_mem_hexDigits
  have hyphen : Plain '-' := by decide
  rw [Uuid.display, String.toList_ofList]
  constructor
  · simp only [List.length_append, List.length_take, List.length_drop, length,
      List.length_singleton]
    omega
  · simp only [List.forall_mem_append, List.forall_mem_singleton]
    refine ⟨⟨⟨⟨⟨⟨⟨⟨?_, hyphen⟩, ?_⟩, hyphen⟩, ?_⟩, hyphen⟩, ?_⟩, hyphen⟩, ?_⟩
    · exact fun character member => plain character (List.mem_of_mem_take member)
    · exact fun character member =>
        plain character (List.mem_of_mem_drop (List.mem_of_mem_take member))
    · exact fun character member =>
        plain character (List.mem_of_mem_drop (List.mem_of_mem_take member))
    · exact fun character member =>
        plain character (List.mem_of_mem_drop (List.mem_of_mem_take member))
    · exact fun character member => plain character (List.mem_of_mem_drop member)

/-! ## Sizes -/

/-- The length of a text in UTF-8. -/
def byteLength (text : List Char) : Nat := (text.flatMap String.utf8EncodeChar).length

theorem byteLength_toList (text : String) : byteLength text.toList = text.utf8ByteSize := by
  have bytes := utf8Bytes_ofList text.toList
  rw [String.ofList_toList] at bytes
  rw [byteLength, ← bytes]
  rfl

theorem byteLength_append (first second : List Char) :
    byteLength (first ++ second) = byteLength first + byteLength second := by
  rw [byteLength, List.flatMap_append, List.length_append]
  rfl

theorem byteLength_cons {first : Char} (ascii : first.toNat ≤ 0x7F) (rest : List Char) :
    byteLength (first :: rest) = 1 + byteLength rest := by
  rw [byteLength, List.flatMap_cons, List.length_append, length_utf8EncodeChar_of_ascii ascii]
  rfl

theorem byteLength_of_ascii {text : List Char}
    (ascii : ∀ character ∈ text, character.toNat ≤ 0x7F) :
    byteLength text = text.length := by
  induction text with
  | nil => rfl
  | cons first rest induction =>
      rw [byteLength_cons (ascii first (List.mem_cons_self ..)),
        induction fun character member => ascii character (List.mem_cons_of_mem _ member),
        List.length_cons, Nat.add_comm]

theorem byteLength_string_of_plain {text : List Char}
    (plain : ∀ character ∈ text, Plain character) :
    byteLength (string text) = text.length + 2 := by
  rw [string_of_plain plain, byteLength_append, byteLength_cons (by decide),
    byteLength_of_ascii fun character member => (plain character member).2.1]
  have closing : byteLength [quote] = 1 := rfl
  omega

theorem byteLength_number (value : Nat) : byteLength (number value) = (number value).length := by
  apply byteLength_of_ascii
  intro character member
  have isDigit := Nat.isDigit_of_mem_toDigits (by decide) (by decide) member
  simp only [Char.isDigit, Bool.and_eq_true, decide_eq_true_eq] at isDigit
  have bound : character.toNat ≤ '9'.toNat := UInt32.le_iff_toNat_le.mp isDigit.2
  exact Nat.le_trans bound (by decide)

theorem byteLength_bool_le (value : Bool) : byteLength (bool value) ≤ 5 := by
  cases value <;> decide

theorem byteLength_member (name : String) (value : List Char) :
    byteLength (member name value) = byteLength (string name.toList) + (1 + byteLength value) := by
  rw [member, byteLength_append, byteLength_cons (by decide)]

theorem byteLength_separated (texts : List (List Char)) :
    byteLength (separated texts) = (texts.map byteLength).sum + (texts.length - 1) := by
  cases texts with
  | nil => rfl
  | cons first rest =>
      have commas : byteLength (rest.flatMap (',' :: ·)) =
          (rest.map byteLength).sum + rest.length := by
        induction rest with
        | nil => rfl
        | cons second rest induction =>
            rw [List.flatMap_cons, byteLength_append, byteLength_cons (by decide), induction,
              List.map_cons, List.sum_cons, List.length_cons]
            omega
      rw [separated, byteLength_append, commas, List.map_cons, List.sum_cons, List.length_cons]
      omega

theorem byteLength_object (members : List (List Char)) :
    byteLength (object members) = (members.map byteLength).sum + (members.length - 1) + 2 := by
  rw [object, byteLength_append, byteLength_cons (by decide), byteLength_separated]
  have closing : byteLength [Char.ofNat 0x7D] = 1 := rfl
  omega

theorem byteLength_display (id : Uuid) : byteLength (string id.display.toList) = 38 := by
  obtain ⟨length, plain⟩ := toList_display id
  rw [byteLength_string_of_plain plain, length]

end TerminalCanvas.Json
