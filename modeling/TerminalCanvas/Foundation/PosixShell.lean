import TerminalCanvas.Foundation.Json

/-! # Tokens of a POSIX shell

A shell cuts its input into words and operators. A quoted character stands for itself; an
unquoted special one starts an expansion, a pattern or an operator. -/

namespace TerminalCanvas.PosixShell

/-- A character of a word: itself, or the start of an expansion or of a pattern. -/
inductive Piece where
  | literal (character : Char)
  | active (character : Char)
deriving DecidableEq, Repr

inductive Token where
  | word (pieces : List Piece)
  | operator (character : Char)
deriving DecidableEq, Repr

def apostrophe : Char := Char.ofNat 0x27

def backtick : Char := Char.ofNat 0x60

def isBlank (character : Char) : Bool := character = ' ' || character = '\t'

def isOperator (character : Char) : Bool :=
  character = '\n' || character = ';' || character = '&' || character = '|' ||
    character = '<' || character = '>' || character = '(' || character = ')'

/-- What expands in a word, also between double quotes. -/
def expands (character : Char) : Bool := character = '$' || character = backtick

/-- What is a pattern in a word without quotes. -/
def isPattern (character : Char) : Bool :=
  character = '*' || character = '?' || character = '['

/-- A backslash between double quotes escapes only these. -/
def escapesInDouble (character : Char) : Bool :=
  expands character || character = Json.quote || character = Json.backslash

/-- How the next character is read. An escape is the state behind a backslash. -/
inductive Mode where
  | unquoted
  | escape
  | single
  | double
  | doubleEscape
  | comment
deriving DecidableEq, Repr

/-- The word that ends here, if one has begun. -/
def finish : Option (List Piece) → List Token
  | none => []
  | some pieces => [.word pieces]

def extend (word : Option (List Piece)) (piece : Piece) : Option (List Piece) :=
  some (word.getD [] ++ [piece])

/-- The tokens of an input, unless a quote stays open. -/
def tokens : List Char → Mode → Option (List Piece) → Option (List Token)
  | [], .unquoted, word => some (finish word)
  | [], .escape, word => some (finish (extend word (.literal Json.backslash)))
  | [], .comment, _ => some []
  | [], .single, _ | [], .double, _ | [], .doubleEscape, _ => none
  | character :: rest, .comment, word =>
      if character = '\n' then (tokens rest .unquoted word).map (.operator '\n' :: ·)
      else tokens rest .comment word
  | character :: rest, .single, word =>
      if character = apostrophe then tokens rest .unquoted word
      else tokens rest .single (extend word (.literal character))
  | character :: rest, .double, word =>
      if character = Json.quote then tokens rest .unquoted word
      else if character = Json.backslash then tokens rest .doubleEscape word
      else if expands character then tokens rest .double (extend word (.active character))
      else tokens rest .double (extend word (.literal character))
  | character :: rest, .doubleEscape, word =>
      if escapesInDouble character then tokens rest .double (extend word (.literal character))
      else if character = '\n' then tokens rest .double word
      else tokens rest .double
        (extend (extend word (.literal Json.backslash)) (.literal character))
  | character :: rest, .escape, word =>
      -- a newline behind a backslash joins two lines
      if character = '\n' then tokens rest .unquoted word
      else tokens rest .unquoted (extend word (.literal character))
  | character :: rest, .unquoted, word =>
      if character = Json.backslash then tokens rest .escape word
      else if character = apostrophe then tokens rest .single (some (word.getD []))
      else if character = Json.quote then tokens rest .double (some (word.getD []))
      else if isBlank character then (tokens rest .unquoted none).map (finish word ++ ·)
      else if isOperator character then
        (tokens rest .unquoted none).map (finish word ++ .operator character :: ·)
      else if character = '#' ∧ word = none then tokens rest .comment none
      else if expands character ∨ isPattern character ∨ (character = '~' ∧ word = none) then
        tokens rest .unquoted (extend word (.active character))
      else tokens rest .unquoted (extend word (.literal character))

def tokenize (input : List Char) : Option (List Token) := tokens input .unquoted none

/-- The token of a word without expansions. -/
def plainWord (text : List Char) : Token := .word (text.map .literal)

/-- A character that stands for itself without quotes, wherever it stands in a word. -/
def Ordinary (character : Char) : Prop :=
  character ≠ Json.backslash ∧ character ≠ apostrophe ∧ character ≠ Json.quote ∧
    isBlank character = false ∧ isOperator character = false ∧ character ≠ '#' ∧
    expands character = false ∧ isPattern character = false ∧ character ≠ '~'

instance (character : Char) : Decidable (Ordinary character) :=
  inferInstanceAs (Decidable (_ ∧ _))

theorem ordinary_of_all {text : List Char}
    (all : (text.all fun character => decide (Ordinary character)) = true) :
    ∀ character ∈ text, Ordinary character :=
  fun character member => of_decide_eq_true (List.all_eq_true.mp all character member)

/-! ## Reading -/

section Rules

variable {word : Option (List Piece)} {character : Char} {rest : List Char}

theorem tokens_apostrophe :
    tokens (apostrophe :: rest) .unquoted word = tokens rest .single (some (word.getD [])) := rfl

theorem tokens_blank (blank : isBlank character = true) :
    tokens (character :: rest) .unquoted word =
      (tokenize rest).map (finish word ++ ·) := by
  simp only [isBlank, Bool.or_eq_true, decide_eq_true_eq] at blank
  rcases blank with rfl | rfl
  · rfl
  · rfl

theorem tokens_ordinary (ordinary : Ordinary character) :
    tokens (character :: rest) .unquoted word =
      tokens rest .unquoted (extend word (.literal character)) := by
  obtain ⟨escape, single, double, blank, operator, comment, expansion, pattern, home⟩ := ordinary
  simp [tokens, escape, single, double, blank, operator, comment, expansion, pattern, home]

theorem tokens_single (different : character ≠ apostrophe) :
    tokens (character :: rest) .single word =
      tokens rest .single (extend word (.literal character)) := by
  rw [tokens, if_neg different]

theorem tokens_single_closes :
    tokens (apostrophe :: rest) .single word = tokens rest .unquoted word := rfl

theorem tokens_ordinaries {text : List Char} (ordinary : ∀ character ∈ text, Ordinary character)
    (nonempty : text ≠ []) : tokens (text ++ rest) .unquoted word =
      tokens rest .unquoted (some (word.getD [] ++ text.map .literal)) := by
  induction text generalizing word with
  | nil => exact absurd rfl nonempty
  | cons first text induction =>
      rw [List.cons_append, tokens_ordinary (ordinary first (List.mem_cons_self ..))]
      cases text with
      | nil => rfl
      | cons second text =>
          rw [induction (fun other member => ordinary other (List.mem_cons_of_mem _ member)) nofun]
          simp [extend]

end Rules

/-! ## Quoting -/

/-- A text in single quotes in which something stands for each apostrophe. -/
def quoteWith (escaped : List Char) (text : List Char) : List Char :=
  apostrophe :: text.flatMap (fun character =>
    if character = apostrophe then escaped else [character]) ++ [apostrophe]

/-- Text that closes the quotes, adds one apostrophe and opens them again. -/
def Requotes (escaped : List Char) : Prop :=
  ∀ (pieces : List Piece) (rest : List Char), tokens (escaped ++ rest) .single (some pieces) =
    tokens rest .single (some (pieces ++ [.literal apostrophe]))

variable {escaped : List Char}

theorem tokens_single_flatMap (requotes : Requotes escaped) (text : List Char)
    (pieces : List Piece) (rest : List Char) :
    tokens (text.flatMap (fun character =>
      if character = apostrophe then escaped else [character]) ++ rest) .single (some pieces) =
        tokens rest .single (some (pieces ++ text.map .literal)) := by
  induction text generalizing pieces with
  | nil => simp
  | cons character text induction =>
      rw [List.flatMap_cons, List.append_assoc]
      split
      · next same =>
          rw [requotes, induction, same]
          simp
      · next different =>
          rw [List.singleton_append, tokens_single different, extend, induction]
          simp

/-- A quoted text extends the word that has begun, and begins one if none has. -/
theorem tokens_quoteWith (requotes : Requotes escaped) (text : List Char)
    (word : Option (List Piece)) (rest : List Char) :
    tokens (quoteWith escaped text ++ rest) .unquoted word =
      tokens rest .unquoted (some (word.getD [] ++ text.map .literal)) := by
  rw [quoteWith, List.cons_append, List.cons_append, tokens_apostrophe, List.append_assoc,
    tokens_single_flatMap requotes, List.singleton_append, tokens_single_closes]

/-- Texts that are quoted one way or the other, each behind a space. -/
def spaced (texts : List (List Char)) : List Char := texts.flatMap (' ' :: ·)

/-- Words behind a word: every part of a line extends a word, and blanks are between them. -/
theorem tokens_spaced {parts : List (List Char × List Char)}
    (reads : ∀ part ∈ parts, ∀ rest, tokens (part.1 ++ rest) .unquoted none =
      tokens rest .unquoted (some (part.2.map .literal))) (word : Option (List Piece)) :
    tokens (spaced (parts.map (·.1))) .unquoted word =
      some (finish word ++ parts.map fun part => plainWord part.2) := by
  induction parts generalizing word with
  | nil => simp [spaced, tokens]
  | cons part parts induction =>
      have first := reads part (List.mem_cons_self ..)
      have later := fun other member => reads other (List.mem_cons_of_mem part member)
      have split : spaced ((part :: parts).map (·.1)) =
          ' ' :: (part.1 ++ spaced (parts.map (·.1))) := rfl
      rw [split, tokens_blank rfl, tokenize, first, induction later]
      rfl

end TerminalCanvas.PosixShell
