import Mathlib.Algebra.Group.Int.Defs
import TerminalCanvas.Foundation.CrtWords
import TerminalCanvas.Foundation.Fallible

/-! # The command line of a verification on Windows

A process is started with one line of UTF-16 units. The program and its arguments are
quoted in it as the C runtime reads them. -/

namespace TerminalCanvas.WindowsCommand

open CrtWords

def maxCommandLineUnits : Nat := 32767

/-! ## Quoting -/

/-- One unit of an argument, behind what is quoted of it and the backslashes in front. -/
def quoteUnit (state : Units × Nat) (unit : UInt16) : Except String (Units × Nat) :=
  let (quoted, backslashes) := state
  if unit = 0 then
    .error "Verification argument contains a null character"
  else if unit = backslash then
    .ok (quoted, backslashes + 1)
  else if unit = quote then
    .ok (quoted ++ List.replicate (backslashes * 2 + 1) backslash ++ [unit], 0)
  else
    .ok (quoted ++ List.replicate backslashes backslash ++ [unit], 0)

def quotedArgument (argument : Units) : Except String Units := do
  let (quoted, backslashes) ← argument.foldlM quoteUnit ([quote], 0)
  pure (quoted ++ List.replicate (backslashes * 2) backslash ++ [quote])

def appendArguments (line : Units) : List Units → Except String Units
  | [] => pure line
  | argument :: arguments => do
      let quoted ← quotedArgument argument
      let line := line ++ space :: quoted
      if maxCommandLineUnits ≤ line.length then .error "Verification command line is too long"
      else appendArguments line arguments

def commandLine (program : Units) (arguments : List Units) : Except String Units :=
  if 0 ∈ program ∨ quote ∈ program then
    .error "Verification program path contains an invalid character"
  else do
    -- the first word is read without the escapes of the others
    let line ← appendArguments (quote :: (program ++ [quote])) arguments
    let line := line ++ [0]
    if maxCommandLineUnits < line.length then .error "Verification command line is too long"
    else pure line

/-- The program and its arguments between quotes, and a null. -/
def terminatedLine (program : Units) (arguments : List Units) : Units :=
  quote :: (program ++ quote :: quotedArguments arguments) ++ [0]

/-! ## What is written -/

theorem foldlM_quoteUnit (argument quoted : Units) (backslashes : Nat) :
    (0 ∉ argument → ∃ end' left, argument.foldlM quoteUnit (quoted, backslashes) =
      .ok (end', left) ∧ end' ++ List.replicate (left * 2) backslash ++ [quote] =
        quoted ++ escaped argument backslashes) ∧
    (0 ∈ argument → ∃ error, argument.foldlM quoteUnit (quoted, backslashes) = .error error) := by
  induction argument generalizing quoted backslashes with
  | nil =>
      refine ⟨fun _ => ⟨quoted, backslashes, rfl, ?_⟩, nofun⟩
      rw [escaped, List.append_assoc]
  | cons unit argument induction =>
      rw [List.foldlM_cons, escaped]
      by_cases null : unit = 0
      · refine ⟨fun absent => absurd (null ▸ List.mem_cons_self ..) absent, fun _ => ?_⟩
        rw [null]
        exact ⟨_, rfl⟩
      have later : 0 ∈ unit :: argument → 0 ∈ argument := fun member =>
        (List.mem_cons.mp member).resolve_left (Ne.symm null)
      by_cases slash : unit = backslash
      · obtain ⟨fits, fails⟩ := induction quoted (backslashes + 1)
        have step : quoteUnit (quoted, backslashes) unit = .ok (quoted, backslashes + 1) := by
          rw [slash]
          rfl
        rw [step, if_pos slash]
        exact ⟨fun absent => fits fun member => absent (List.mem_cons_of_mem _ member),
          fun member => fails (later member)⟩
      by_cases closing : unit = quote
      · obtain ⟨fits, fails⟩ := induction
          (quoted ++ List.replicate (backslashes * 2 + 1) backslash ++ [unit]) 0
        have step : quoteUnit (quoted, backslashes) unit =
            .ok (quoted ++ List.replicate (backslashes * 2 + 1) backslash ++ [unit], 0) := by
          rw [closing]
          rfl
        rw [step, if_neg slash, if_pos closing]
        refine ⟨fun absent => ?_, fun member => fails (later member)⟩
        obtain ⟨end', left, read, same⟩ := fits fun member =>
          absent (List.mem_cons_of_mem _ member)
        refine ⟨end', left, read, same.trans ?_⟩
        rw [closing]
        simp
      · obtain ⟨fits, fails⟩ := induction
          (quoted ++ List.replicate backslashes backslash ++ [unit]) 0
        have step : quoteUnit (quoted, backslashes) unit =
            .ok (quoted ++ List.replicate backslashes backslash ++ [unit], 0) := by
          simp [quoteUnit, null, slash, closing]
        rw [step, if_neg slash, if_neg closing]
        refine ⟨fun absent => ?_, fun member => fails (later member)⟩
        obtain ⟨end', left, read, same⟩ := fits fun member =>
          absent (List.mem_cons_of_mem _ member)
        refine ⟨end', left, read, same.trans ?_⟩
        simp

theorem quotedArgument_ok {argument : Units} (absent : 0 ∉ argument) :
    quotedArgument argument = .ok (quote :: escaped argument 0) := by
  obtain ⟨end', left, read, same⟩ := (foldlM_quoteUnit argument [quote] 0).1 absent
  rw [quotedArgument, read]
  exact congrArg Except.ok same

theorem quotedArgument_error {argument : Units} (null : 0 ∈ argument) :
    ∃ error, quotedArgument argument = .error error := by
  obtain ⟨error, fails⟩ := (foldlM_quoteUnit argument [quote] 0).2 null
  rw [quotedArgument, fails]
  exact ⟨error, rfl⟩

theorem appendArguments_cons {line argument quoted : Units} {arguments : List Units}
    (written : quotedArgument argument = .ok quoted) :
    appendArguments line (argument :: arguments) =
      if maxCommandLineUnits ≤ (line ++ space :: quoted).length then
        .error "Verification command line is too long"
      else appendArguments (line ++ space :: quoted) arguments := by
  rw [appendArguments, written]
  rfl

theorem appendArguments_spec (line : Units) (arguments : List Units) :
    (appendArguments line arguments = .ok (line ++ quotedArguments arguments) ∧
      ∀ argument ∈ arguments, 0 ∉ argument) ∨
    (∃ error, appendArguments line arguments = .error error) ∧
      ((∃ argument ∈ arguments, 0 ∈ argument) ∨
        maxCommandLineUnits ≤ (line ++ quotedArguments arguments).length) := by
  induction arguments generalizing line with
  | nil =>
      left
      rw [quotedArguments, List.flatMap_nil, List.append_nil]
      exact ⟨rfl, List.forall_mem_nil _⟩
  | cons argument arguments induction =>
      have whole : line ++ quotedArguments (argument :: arguments) =
          (line ++ space :: quote :: escaped argument 0) ++ quotedArguments arguments := by
        simp [quotedArguments]
      by_cases null : 0 ∈ argument
      · obtain ⟨error, fails⟩ := quotedArgument_error null
        refine .inr ⟨⟨error, ?_⟩, .inl ⟨argument, List.mem_cons_self .., null⟩⟩
        rw [appendArguments, fails]
        rfl
      rw [appendArguments_cons (quotedArgument_ok null), whole]
      split
      · next long =>
          refine .inr ⟨⟨_, rfl⟩, .inr (Nat.le_trans long ?_)⟩
          rw [@List.length_append _ (line ++ space :: quote :: escaped argument 0)]
          exact Nat.le_add_right _ _
      · rcases induction (line ++ space :: quote :: escaped argument 0) with
          ⟨fits, clean⟩ | ⟨fails, ⟨other, member, nulls⟩ | long⟩
        · exact .inl ⟨fits, List.forall_mem_cons.mpr ⟨null, clean⟩⟩
        · exact .inr ⟨fails, .inl ⟨other, List.mem_cons_of_mem _ member, nulls⟩⟩
        · exact .inr ⟨fails, .inr long⟩

theorem mem_escaped {argument : Units} {slashes : Nat} {unit : UInt16}
    (member : unit ∈ escaped argument slashes) :
    unit = backslash ∨ unit = quote ∨ unit ∈ argument := by
  induction argument generalizing slashes with
  | nil =>
      rw [escaped, List.mem_append, List.mem_singleton] at member
      rcases member with slash | closing
      · exact .inl (List.eq_of_mem_replicate slash)
      · exact .inr (.inl closing)
  | cons first argument induction =>
      rw [escaped] at member
      split at member
      · exact (induction member).imp_right (.imp_right (List.mem_cons_of_mem _))
      split at member
      · rcases List.mem_append.mp member with slash | behind
        · exact .inl (List.eq_of_mem_replicate slash)
        rcases List.mem_cons.mp behind with closing | later
        · exact .inr (.inl closing)
        · exact (induction later).imp_right (.imp_right (List.mem_cons_of_mem _))
      · rcases List.mem_append.mp member with slash | behind
        · exact .inl (List.eq_of_mem_replicate slash)
        rcases List.mem_cons.mp behind with same | later
        · exact .inr (.inr (same ▸ List.mem_cons_self ..))
        · exact (induction later).imp_right (.imp_right (List.mem_cons_of_mem _))

theorem null_not_mem_quotedArguments {arguments : List Units}
    (clean : ∀ argument ∈ arguments, 0 ∉ argument) : 0 ∉ quotedArguments arguments := by
  intro member
  obtain ⟨argument, inside, written⟩ := List.mem_flatMap.mp member
  rcases List.mem_cons.mp written with blank | behind
  · exact absurd blank (by decide)
  rcases List.mem_cons.mp behind with opening | later
  · exact absurd opening (by decide)
  rcases mem_escaped later with slash | closing | own
  · exact absurd slash (by decide)
  · exact absurd closing (by decide)
  · exact clean argument inside own

/-! ## The command line -/

/-- A command line is refused for a null, for a quote in the program and for its length only,
and is read back as the program and the arguments. -/
theorem command_line_inverts_parsing (program : Units) (arguments : List Units) :
    ((∃ error, commandLine program arguments = .error error) ↔
      0 ∈ program ∨ quote ∈ program ∨ (∃ argument ∈ arguments, 0 ∈ argument) ∨
        maxCommandLineUnits < (terminatedLine program arguments).length) ∧
    ∀ line, commandLine program arguments = .ok line →
      line = terminatedLine program arguments ∧ parseLine line = program :: arguments := by
  have whole : quote :: (program ++ [quote]) ++ quotedArguments arguments =
      quote :: (program ++ quote :: quotedArguments arguments) := by simp
  have length : (terminatedLine program arguments).length =
      (quote :: (program ++ quote :: quotedArguments arguments)).length + 1 := by
    rw [terminatedLine, List.length_append, List.length_singleton]
  rw [commandLine]
  by_cases invalid : 0 ∈ program ∨ quote ∈ program
  · rw [if_pos invalid]
    refine ⟨⟨fun _ => ?_, fun _ => ⟨_, rfl⟩⟩, nofun⟩
    exact invalid.imp_right .inl
  rw [if_neg invalid]
  rw [not_or] at invalid
  obtain ⟨noNull, noQuote⟩ := invalid
  rcases appendArguments_spec (quote :: (program ++ [quote])) arguments with
    ⟨fits, clean⟩ | ⟨⟨error, fails⟩, reason⟩
  · have run : (appendArguments (quote :: (program ++ [quote])) arguments >>= fun line =>
        if maxCommandLineUnits < (line ++ [0]).length then
          .error "Verification command line is too long"
        else pure (line ++ [0])) =
          if maxCommandLineUnits < (terminatedLine program arguments).length then
            .error "Verification command line is too long"
          else Except.ok (terminatedLine program arguments) := by
      rw [fits, whole]
      rfl
    rw [run]
    split
    · next long => exact ⟨⟨fun _ => .inr (.inr (.inr long)), fun _ => ⟨_, rfl⟩⟩, nofun⟩
    · next room =>
        constructor
        · constructor
          · rintro ⟨error, fails⟩
            cases fails
          · rintro (null | closing | ⟨argument, member, null⟩ | long)
            · exact absurd null noNull
            · exact absurd closing noQuote
            · exact absurd null (clean argument member)
            · exact absurd long room
        · rintro line ⟨⟩
          refine ⟨rfl, parseLine_quoted noQuote ?_⟩
          rintro (_ | ⟨_, null⟩)
          rcases List.mem_append.mp null with own | behind
          · exact noNull own
          rcases List.mem_cons.mp behind with closing | later
          · exact absurd closing (by decide)
          · exact null_not_mem_quotedArguments clean later
  · rw [fails]
    refine ⟨⟨fun _ => ?_, fun _ => ⟨error, rfl⟩⟩, nofun⟩
    rcases reason with nulls | long
    · exact .inr (.inr (.inl nulls))
    · rw [whole] at long
      exact .inr (.inr (.inr (by omega)))

end TerminalCanvas.WindowsCommand
