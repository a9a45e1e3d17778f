import TerminalCanvas.Foundation.Json

/-! # Reading JSON texts back

What a text of a value says about the value, whatever stands behind it. A text that
determines its value has only one value. -/

namespace TerminalCanvas.Json

/-- What stands behind a value: nothing more, or a delimiter. -/
def Ends (rest : List Char) : Prop :=
  rest = [] ∨ ∃ delimiter later, rest = delimiter :: later ∧
    (delimiter = ',' ∨ delimiter = ']' ∨ delimiter = Char.ofNat 0x7D)

/-- Values of the same text are related, and what stands behind them is the same. -/
def Determines {Value : Type} (text : Value → List Char) (same : Value → Value → Prop) : Prop :=
  ∀ left right leftRest rightRest, Ends leftRest → Ends rightRest →
    text left ++ leftRest = text right ++ rightRest → same left right ∧ leftRest = rightRest

theorem ends_comma (rest : List Char) : Ends (',' :: rest) := .inr ⟨_, rest, rfl, .inl rfl⟩

theorem ends_bracket (rest : List Char) : Ends (']' :: rest) :=
  .inr ⟨_, rest, rfl, .inr (.inl rfl)⟩

theorem ends_brace (rest : List Char) : Ends (Char.ofNat 0x7D :: rest) :=
  .inr ⟨_, rest, rfl, .inr (.inr rfl)⟩

variable {Value Other : Type} {text : Value → List Char} {same : Value → Value → Prop}

theorem Determines.weaken {weaker : Value → Value → Prop} (determines : Determines text same)
    (implies : ∀ left right, same left right → weaker left right) : Determines text weaker := by
  intro left right leftRest rightRest leftEnds rightEnds texts
  obtain ⟨related, rests⟩ := determines left right leftRest rightRest leftEnds rightEnds texts
  exact ⟨implies left right related, rests⟩

theorem Determines.of (determines : Determines text same) (part : Other → Value) :
    Determines (fun whole => text (part whole)) fun left right => same (part left) (part right) :=
  fun left right => determines (part left) (part right)

/-! ## Strings -/

def shortEscape (letter : Char) : Option Char :=
  if letter = quote ∨ letter = backslash then some letter
  else if letter = 'b' then some (Char.ofNat 0x08)
  else if letter = 't' then some (Char.ofNat 0x09)
  else if letter = 'n' then some (Char.ofNat 0x0A)
  else if letter = 'f' then some (Char.ofNat 0x0C)
  else if letter = 'r' then some (Char.ofNat 0x0D)
  else none

def digitValue (digit : Char) : Nat :=
  if digit.isDigit then digit.toNat - '0'.toNat else digit.toNat - 'a'.toNat + 10

/-- The first character of an escaped text, unless the text ends. -/
def readEscape : List Char → Option (Char × List Char)
  | [] => none
  | first :: rest =>
      if first = quote then none
      else if first = backslash then
        match rest with
        | 'u' :: '0' :: '0' :: high :: low :: later =>
            some (Char.ofNat (16 * digitValue high + digitValue low), later)
        | letter :: later => (shortEscape letter).map (·, later)
        | [] => none
      else some (first, rest)

theorem readEscape_escape (character : Char) (rest : List Char) :
    readEscape (escape character ++ rest) = some (character, rest) := by
  have code : ∀ value, character.toNat = value → character = Char.ofNat value := by
    rintro value rfl
    exact (Char.ofNat_toNat character).symm
  unfold escape
  split
  · next special => rcases special with rfl | rfl <;> rfl
  next plain =>
  split
  · next control => rw [code _ control]; rfl
  split
  · next control => rw [code _ control]; rfl
  split
  · next control => rw [code _ control]; rfl
  split
  · next control => rw [code _ control]; rfl
  split
  · next control => rw [code _ control]; rfl
  split
  · next control =>
      have values : ∀ value < 16, digitValue (Nat.digitChar value) = value := by decide
      have high := values (character.toNat / 16) (by omega)
      have low := values (character.toNat % 16) (by omega)
      change some (Char.ofNat (16 * digitValue _ + digitValue _), rest) = _
      rw [high, low, Nat.div_add_mod, Char.ofNat_toNat]
  · rw [not_or] at plain
    change readEscape (character :: rest) = _
    simp only [readEscape, if_neg plain.1, if_neg plain.2]

theorem determines_string : Determines string (· = ·) := by
  intro left right leftRest rightRest _ _ texts
  unfold string at texts
  rw [List.cons_append, List.cons_append, List.cons_append, List.cons_append,
    List.cons.injEq] at texts
  replace texts := texts.2
  induction left generalizing right with
  | nil =>
      cases right with
      | nil => exact ⟨rfl, (List.cons.inj texts).2⟩
      | cons head tail =>
          have read := congrArg readEscape texts
          simp only [List.flatMap_cons, List.append_assoc, readEscape_escape] at read
          cases read
  | cons first left induction =>
      cases right with
      | nil =>
          have read := congrArg readEscape texts
          simp only [List.flatMap_cons, List.append_assoc, readEscape_escape] at read
          cases read
      | cons second right =>
          have read := congrArg readEscape texts
          simp only [List.flatMap_cons, List.append_assoc, readEscape_escape, Option.some.injEq,
            Prod.mk.injEq] at read
          obtain ⟨rfl, rests⟩ := read
          obtain ⟨rfl, ends⟩ := induction right (by simpa using rests)
          exact ⟨rfl, ends⟩

/-! ## Numbers -/

theorem ends_not_digit {rest : List Char} (ends : Ends rest) :
    rest.takeWhile Char.isDigit = [] := by
  rcases ends with rfl | ⟨delimiter, later, rfl, rfl | rfl | rfl⟩ <;> rfl

theorem digits_of_number (value : Nat) : ∀ digit ∈ number value, digit.isDigit = true :=
  fun _ member => Nat.isDigit_of_mem_toDigits (by decide) (by decide) member

theorem determines_number : Determines number (· = ·) := by
  intro left right leftRest rightRest leftEnds rightEnds texts
  have split : ∀ (value : Nat) (rest : List Char), Ends rest →
      (number value ++ rest).takeWhile Char.isDigit = number value := by
    intro value rest ends
    rw [List.takeWhile_append_of_pos (digits_of_number value), ends_not_digit ends, List.append_nil]
  have digits := congrArg (List.takeWhile Char.isDigit) texts
  rw [split left _ leftEnds, split right _ rightEnds] at digits
  refine ⟨number_injective digits, ?_⟩
  rw [digits] at texts
  exact List.append_cancel_left texts

/-! ## Members and objects -/

theorem Determines.member (determines : Determines text same) (name : String) :
    Determines (fun value => Json.member name (text value)) same := by
  intro left right leftRest rightRest leftEnds rightEnds texts
  refine determines left right leftRest rightRest leftEnds rightEnds ?_
  unfold Json.member at texts
  rw [List.append_assoc, List.append_assoc] at texts
  have values := List.append_cancel_left texts
  exact (List.cons.inj values).2

/-- A member of the objects that stand for some values. -/
structure Field (Value : Type) where
  text : Value → List Char
  same : Value → Value → Prop
  determines : Determines text same

def Field.of (name : String) (part : Other → Value) (determines : Determines text (· = ·)) :
    Field Other where
  text whole := Json.member name (text (part whole))
  same left right := part left = part right
  determines := (determines.of part).member name

theorem ends_fields {fields : List (Field Value)} {value : Value} {rest : List Char}
    (ends : Ends rest) : Ends ((fields.flatMap fun field => ',' :: field.text value) ++ rest) := by
  cases fields with
  | nil => exact ends
  | cons field fields =>
      rw [List.flatMap_cons]
      exact ends_comma _

theorem determines_fields (fields : List (Field Value)) :
    Determines (fun value => fields.flatMap fun field => ',' :: field.text value)
      fun left right => ∀ field ∈ fields, field.same left right := by
  intro left right leftRest rightRest leftEnds rightEnds texts
  induction fields with
  | nil => exact ⟨by simp, texts⟩
  | cons field fields induction =>
      simp only [List.flatMap_cons, List.cons_append, List.append_assoc, List.cons.injEq,
        true_and] at texts
      obtain ⟨first, rests⟩ := field.determines left right _ _ (ends_fields leftEnds)
        (ends_fields rightEnds) texts
      obtain ⟨others, ends⟩ := induction rests
      exact ⟨List.forall_mem_cons.mpr ⟨first, others⟩, ends⟩

theorem determines_object (field : Field Value) (fields : List (Field Value)) :
    Determines (fun value => object ((field :: fields).map fun field => field.text value))
      fun left right => ∀ other ∈ field :: fields, other.same left right := by
  intro left right leftRest rightRest _ _ texts
  have open' : ∀ (value : Value) (rest : List Char),
      object ((field :: fields).map fun field => field.text value) ++ rest =
        Char.ofNat 0x7B :: (field.text value ++
          ((fields.flatMap fun field => ',' :: field.text value) ++
            (Char.ofNat 0x7D :: rest))) := by
    intro value rest
    simp [object, separated, List.flatMap_map]
  rw [open', open', List.cons.injEq] at texts
  obtain ⟨first, rests⟩ := field.determines left right _ _ (ends_fields (ends_brace _))
    (ends_fields (ends_brace _)) texts.2
  obtain ⟨others, ends⟩ := determines_fields fields left right _ _ (ends_brace _) (ends_brace _)
    rests
  exact ⟨List.forall_mem_cons.mpr ⟨first, others⟩, (List.cons.inj ends).2⟩

/-! ## Optional values and arrays -/

/-- No text is empty, the start of `null` or the end of an array. -/
def Starts (text : Value → List Char) : Prop :=
  ∀ value, ∃ first rest, text value = first :: rest ∧ first ≠ 'n' ∧ first ≠ ']'

theorem starts_string : Starts string := fun text =>
  ⟨quote, text.flatMap escape ++ [quote], rfl, by decide, by decide⟩

theorem starts_object (members : Value → List (List Char)) :
    Starts fun value => object (members value) := fun value =>
  ⟨Char.ofNat 0x7B, separated (members value) ++ [Char.ofNat 0x7D], rfl, by decide, by decide⟩

theorem determines_optional (determines : Determines text (· = ·)) (starts : Starts text) :
    Determines (optional text) (· = ·) := by
  intro left right leftRest rightRest leftEnds rightEnds texts
  cases left with
  | none =>
      cases right with
      | none => exact ⟨rfl, List.append_cancel_left texts⟩
      | some value =>
          obtain ⟨first, rest, begins, notNull, -⟩ := starts value
          rw [optional, optional, begins] at texts
          exact absurd (List.cons.inj texts).1.symm notNull
  | some value =>
      cases right with
      | none =>
          obtain ⟨first, rest, begins, notNull, -⟩ := starts value
          rw [optional, optional, begins] at texts
          exact absurd (List.cons.inj texts).1 notNull
      | some other =>
          obtain ⟨rfl, ends⟩ := determines value other _ _ leftEnds rightEnds texts
          exact ⟨rfl, ends⟩

theorem ends_items (text : Value → List Char) (items : List Value) (rest : List Char) :
    Ends ((items.flatMap fun item => ',' :: text item) ++ ']' :: rest) := by
  cases items with
  | nil => exact ends_bracket rest
  | cons item items =>
      rw [List.flatMap_cons]
      exact ends_comma _

theorem determines_items (determines : Determines text (· = ·)) {left right : List Value}
    {leftRest rightRest : List Char}
    (texts : (left.flatMap fun item => ',' :: text item) ++ ']' :: leftRest =
      (right.flatMap fun item => ',' :: text item) ++ ']' :: rightRest) :
    left = right ∧ leftRest = rightRest := by
  induction left generalizing right with
  | nil =>
      cases right with
      | nil => exact ⟨rfl, (List.cons.inj texts).2⟩
      | cons item right => exact absurd (List.cons.inj texts).1 (by decide)
  | cons first left induction =>
      cases right with
      | nil => exact absurd (List.cons.inj texts).1 (by decide)
      | cons second right =>
          simp only [List.flatMap_cons, List.cons_append, List.append_assoc, List.cons.injEq,
            true_and] at texts
          obtain ⟨rfl, rests⟩ := determines first second _ _ (ends_items text left leftRest)
            (ends_items text right rightRest) texts
          obtain ⟨rfl, ends⟩ := induction rests
          exact ⟨rfl, ends⟩

theorem determines_array (determines : Determines text (· = ·)) (starts : Starts text) :
    Determines (fun items : List Value => array (items.map text)) (· = ·) := by
  intro left right leftRest rightRest _ _ texts
  have open' : ∀ (item : Value) (items : List Value) (rest : List Char),
      array ((item :: items).map text) ++ rest = '[' :: (text item ++
        ((items.flatMap fun item => ',' :: text item) ++ ']' :: rest)) := by
    intro item items rest
    simp [array, separated, List.flatMap_map]
  have empty : ∀ rest : List Char, array (List.map text []) ++ rest = '[' :: ']' :: rest :=
    fun _ => rfl
  cases left with
  | nil =>
      cases right with
      | nil => exact ⟨rfl, List.append_cancel_left texts⟩
      | cons item items =>
          obtain ⟨first, rest, begins, -, notClosing⟩ := starts item
          rw [empty, open', begins] at texts
          exact absurd (List.cons.inj (List.cons.inj texts).2).1.symm notClosing
  | cons item items =>
      cases right with
      | nil =>
          obtain ⟨first, rest, begins, -, notClosing⟩ := starts item
          rw [empty, open', begins] at texts
          exact absurd (List.cons.inj (List.cons.inj texts).2).1 notClosing
      | cons other others =>
          rw [open', open'] at texts
          obtain ⟨rfl, rests⟩ := determines item other _ _ (ends_items text items leftRest)
            (ends_items text others rightRest) (List.cons.inj texts).2
          obtain ⟨rfl, ends⟩ := determines_items determines rests
          exact ⟨rfl, ends⟩

/-! ## Signed numbers -/

theorem determines_integer : Determines integer (· = ·) := by
  intro left right leftRest rightRest leftEnds rightEnds texts
  have noSign : ∀ (value : Nat) (rest other : List Char), Ends rest →
      number value ++ rest ≠ '-' :: other := by
    intro value rest other ends same
    have digits := digits_of_number value
    cases first : number value with
    | nil => exact Nat.toDigits_ne_nil first
    | cons digit digitRest =>
        rw [first] at same digits
        have isDigit := digits digit (List.mem_cons_self ..)
        rw [(List.cons.inj same).1] at isDigit
        revert isDigit
        decide
  unfold integer at texts
  split at texts
  · next negative =>
      split at texts
      · obtain ⟨values, ends⟩ := determines_number _ _ _ _ leftEnds rightEnds
          (List.cons.inj texts).2
        exact ⟨by omega, ends⟩
      · exact absurd texts.symm (noSign _ _ _ rightEnds)
  · split at texts
    · exact absurd texts (noSign _ _ _ leftEnds)
    · obtain ⟨values, ends⟩ := determines_number _ _ _ _ leftEnds rightEnds texts
      exact ⟨by omega, ends⟩

end TerminalCanvas.Json
