import Mathlib.Data.List.Basic

/-! # Words of a Windows command line

The rules by which the C runtime cuts a command line into words. The first word is taken as
it stands. In the others a backslash counts for itself, except in front of a quote: there two
of them count for one, and one that is left over makes the quote a character. -/

namespace TerminalCanvas.CrtWords

abbrev Units := List UInt16

def quote : UInt16 := 34

def backslash : UInt16 := 92

def space : UInt16 := 32

def isBlank (unit : UInt16) : Bool := unit = space || unit = 9

/-- The first word, and what stands behind the blank after it. -/
def programWord : Bool → Units → Units × Units
  | _, [] => ([], [])
  | quoted, unit :: rest =>
      if unit = quote then programWord (!quoted) rest
      else if isBlank unit && !quoted then ([], rest)
      else (unit :: (programWord quoted rest).1, (programWord quoted rest).2)

/-- The other words, behind a number of backslashes that were read of one. -/
def argumentWords : Units → Bool → Nat → Option Units → List Units
  | [], _, slashes, word =>
      match word with
      | none => []
      | some word => [word ++ List.replicate slashes backslash]
  | unit :: rest, quoted, slashes, word =>
      if unit = backslash then argumentWords rest quoted (slashes + 1) (some (word.getD []))
      else if unit = quote then
        let word := word.getD [] ++ List.replicate (slashes / 2) backslash
        if slashes % 2 = 0 then argumentWords rest (!quoted) 0 (some word)
        else argumentWords rest quoted 0 (some (word ++ [quote]))
      else if isBlank unit && !quoted then
        match word with
        | none => argumentWords rest quoted 0 none
        | some word =>
            (word ++ List.replicate slashes backslash) :: argumentWords rest quoted 0 none
      else
        argumentWords rest quoted 0
          (some (word.getD [] ++ List.replicate slashes backslash ++ [unit]))

/-- The words of a line that ends in front of its first null. -/
def parseLine (line : Units) : List Units :=
  let (program, rest) := programWord false (line.takeWhile (· ≠ 0))
  program :: argumentWords rest false 0 none

/-! ## Quoting -/

/-- What an argument is written as behind its opening quote and a number of backslashes that
were read of it. -/
def escaped : Units → Nat → Units
  | [], slashes => List.replicate (slashes * 2) backslash ++ [quote]
  | unit :: rest, slashes =>
      if unit = backslash then escaped rest (slashes + 1)
      else if unit = quote then
        List.replicate (slashes * 2 + 1) backslash ++ quote :: escaped rest 0
      else List.replicate slashes backslash ++ unit :: escaped rest 0

variable {word : Units} {quoted : Bool} {slashes : Nat} {rest : Units}

theorem argumentWords_slashes (count : Nat) :
    argumentWords (List.replicate count backslash ++ rest) quoted slashes (some word) =
      argumentWords rest quoted (slashes + count) (some word) := by
  induction count generalizing slashes with
  | zero => rfl
  | succ count induction =>
      rw [List.replicate_succ, List.cons_append, argumentWords, if_pos rfl, Option.getD_some,
        induction, Nat.add_right_comm, Nat.add_assoc]

theorem argumentWords_quote {rest : Units} :
    argumentWords (quote :: rest) quoted slashes (some word) =
      if slashes % 2 = 0 then
        argumentWords rest (!quoted) 0 (some (word ++ List.replicate (slashes / 2) backslash))
      else argumentWords rest quoted 0
        (some (word ++ List.replicate (slashes / 2) backslash ++ [quote])) := by
  rw [argumentWords, if_neg (by decide), if_pos rfl, Option.getD_some]

theorem argumentWords_unit {unit : UInt16} (notSlash : unit ≠ backslash)
    (notQuote : unit ≠ quote) :
    argumentWords (unit :: rest) true slashes (some word) =
      argumentWords rest true 0 (some (word ++ List.replicate slashes backslash ++ [unit])) := by
  rw [argumentWords, if_neg notSlash, if_neg notQuote, if_neg (by simp), Option.getD_some]

theorem argumentWords_escaped (argument : Units) (slashes : Nat) (word rest : Units) :
    argumentWords (escaped argument slashes ++ rest) true 0 (some word) =
      argumentWords rest false 0
        (some (word ++ List.replicate slashes backslash ++ argument)) := by
  induction argument generalizing slashes word with
  | nil =>
      have even : slashes * 2 % 2 = 0 := by omega
      have half : slashes * 2 / 2 = slashes := by omega
      rw [escaped, List.append_assoc, argumentWords_slashes, Nat.zero_add, List.singleton_append,
        argumentWords_quote, if_pos even, half, List.append_nil]
      rfl
  | cons unit argument induction =>
      rw [escaped]
      split
      · next slash =>
          rw [induction, slash, List.replicate_succ', ← List.append_assoc, List.append_assoc]
          rfl
      split
      · next closing =>
          have odd : ¬ (slashes * 2 + 1) % 2 = 0 := by omega
          have half : (slashes * 2 + 1) / 2 = slashes := by omega
          rw [List.append_assoc, argumentWords_slashes, Nat.zero_add, List.cons_append,
            argumentWords_quote, if_neg odd, half, induction, closing, List.replicate_zero,
            List.append_nil, List.append_assoc, List.singleton_append]
      · next other =>
          rw [List.append_assoc, argumentWords_slashes, Nat.zero_add, List.cons_append,
            argumentWords_unit ‹_› other, induction, List.replicate_zero, List.append_nil,
            List.append_assoc, List.singleton_append]

def quotedArguments (arguments : List Units) : Units :=
  arguments.flatMap fun argument => space :: quote :: escaped argument 0

theorem argumentWords_quotedArguments (arguments : List Units) (word : Option Units) :
    argumentWords (quotedArguments arguments) false 0 word = word.toList ++ arguments := by
  induction arguments generalizing word with
  | nil =>
      cases word with
      | none => rfl
      | some word => simp [quotedArguments, argumentWords]
  | cons argument arguments induction =>
      have split : quotedArguments (argument :: arguments) =
          space :: quote :: (escaped argument 0 ++ quotedArguments arguments) := rfl
      have opened : ∀ rest, argumentWords (quote :: rest) false 0 none =
          argumentWords rest true 0 (some []) := fun _ => rfl
      have read := induction (some argument)
      rw [split]
      cases word with
      | none =>
          rw [argumentWords, if_neg (by decide), if_neg (by decide), if_pos (by decide)]
          rw [opened, argumentWords_escaped]
          exact read
      | some word =>
          rw [argumentWords, if_neg (by decide), if_neg (by decide), if_pos (by decide)]
          rw [opened, argumentWords_escaped, List.replicate_zero, List.append_nil]
          exact congrArg (word :: ·) read

theorem programWord_quoted {program : Units} (unquoted : quote ∉ program) (rest : Units) :
    programWord true (program ++ quote :: rest) =
      (program ++ (programWord false rest).1, (programWord false rest).2) := by
  induction program with
  | nil =>
      rw [List.nil_append, programWord, if_pos rfl]
      rfl
  | cons unit program induction =>
      rw [List.mem_cons, not_or] at unquoted
      obtain ⟨other, later⟩ := unquoted
      rw [List.cons_append, programWord, if_neg (Ne.symm other), if_neg (by simp), induction later]
      rfl

/-- A line of a quoted program and quoted arguments has them for its words. -/
theorem parseLine_quoted {program : Units} {arguments : List Units} (unquoted : quote ∉ program)
    (ended : 0 ∉ quote :: (program ++ quote :: quotedArguments arguments)) :
    parseLine (quote :: (program ++ quote :: quotedArguments arguments) ++ [0]) =
      program :: arguments := by
  have whole : (quote :: (program ++ quote :: quotedArguments arguments) ++ [0]).takeWhile
      (· ≠ 0) = quote :: (program ++ quote :: quotedArguments arguments) := by
    rw [List.takeWhile_append_of_pos]
    · simp
    · intro unit member
      have different : unit ≠ 0 := fun same => ended (same ▸ member)
      simpa using different
  have opened : ∀ rest, programWord false (quote :: rest) = programWord true rest := fun _ => rfl
  rw [parseLine, whole, opened, programWord_quoted unquoted]
  cases arguments with
  | nil =>
      rw [quotedArguments, List.flatMap_nil, programWord, List.append_nil]
      rfl
  | cons argument arguments =>
      have behind : programWord false (quotedArguments (argument :: arguments)) =
          ([], (quotedArguments (argument :: arguments)).tail) := rfl
      have words := argumentWords_quotedArguments (argument :: arguments) none
      rw [behind, List.append_nil]
      exact congrArg (program :: ·) words

end TerminalCanvas.CrtWords
