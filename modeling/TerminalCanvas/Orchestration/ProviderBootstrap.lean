import TerminalCanvas.Conversation.Model
import TerminalCanvas.Foundation.PosixShell

/-! # Commands for a shell

Paths that are dropped on a terminal and briefs that start an agent are quoted in two ways.
A shell reads both back as they were. -/

namespace TerminalCanvas.ShellWords

open PosixShell
open Conversations (AgentProvider)

abbrev Text := List Char

/-- Within the quotes of `quote_path` an apostrophe is escaped outside of them. -/
def pathApostrophe : Text := [apostrophe, Json.backslash, apostrophe, apostrophe]

def quotePath (path : Text) : Text := quoteWith pathApostrophe path

/-- Within those of `shell_single_quote` it stands between double quotes. -/
def briefApostrophe : Text := [apostrophe, Json.quote, apostrophe, Json.quote, apostrophe]

def shellSingleQuote (input : Text) : Text := quoteWith briefApostrophe input

/-- What dropped paths insert behind the text of a line. -/
def droppedPaths (paths : List Text) : Text := spaced (paths.map quotePath)

def launchCommand : AgentProvider → Option Text
  | .claudeCode => some "claude".toList
  | .codexCli => some "codex".toList
  | .geminiCli => some "gemini".toList
  | .aider => some "aider".toList
  | .openCode => some "opencode".toList
  | .cursorAgent => some "cursor-agent".toList
  | .copilot => some "copilot".toList
  | .goose => some "goose".toList
  | .amp => some "amp".toList
  | .crush => some "crush".toList
  | .unknown => none

structure ProviderBootstrap where
  command : Option Text
  initialInput : Option Text
deriving DecidableEq, Repr

/-- `str::trim`. -/
def trimmed (text : Text) : Text :=
  ((text.dropWhile isWhiteSpace).reverse.dropWhile isWhiteSpace).reverse

def typedInput (brief : Text) : Option Text := if brief = [] then none else some brief

def providerBootstrap (provider : AgentProvider) (brief : Text) : ProviderBootstrap :=
  let brief := trimmed brief
  match provider with
  | .claudeCode =>
      ⟨some (if brief = [] then "claude".toList
        else "claude ".toList ++ shellSingleQuote brief), none⟩
  | .geminiCli =>
      ⟨some (if brief = [] then "gemini".toList
        else "gemini -i ".toList ++ shellSingleQuote brief), none⟩
  | .openCode =>
      ⟨some (if brief = [] then "opencode".toList
        else "opencode --prompt ".toList ++ shellSingleQuote brief), none⟩
  | .unknown => ⟨none, typedInput brief⟩
  | provider => ⟨launchCommand provider, typedInput brief⟩

def startWords (provider : AgentProvider) (brief : Text) : List Text :=
  match provider with
  | .claudeCode => "claude".toList :: (typedInput brief).toList
  | .geminiCli => "gemini".toList ::
      if brief = [] then [] else ["-i".toList, brief]
  | .openCode => "opencode".toList ::
      if brief = [] then [] else ["--prompt".toList, brief]
  | provider => (launchCommand provider).toList

/-! ## The two ways of quoting -/

theorem pathApostrophe_requotes : Requotes pathApostrophe := fun _ _ => rfl

theorem briefApostrophe_requotes : Requotes briefApostrophe := fun _ _ => rfl

/-- A word that needs no quotes. -/
structure Bare where
  text : Text
  ordinary : ∀ character ∈ text, Ordinary character
  nonempty : text ≠ []

inductive Part where
  | bare (word : Bare)
  | path (text : Text)
  | brief (text : Text)

def Part.text : Part → Text
  | bare word => word.text
  | path text | brief text => text

def Part.written : Part → Text
  | bare word => word.text
  | path text => quotePath text
  | brief text => shellSingleQuote text

theorem Part.tokens_written (part : Part) (rest : Text) :
    tokens (part.written ++ rest) .unquoted none =
      tokens rest .unquoted (some (part.text.map .literal)) := by
  cases part with
  | bare word => exact tokens_ordinaries word.ordinary word.nonempty
  | path text => exact tokens_quoteWith pathApostrophe_requotes text none rest
  | brief text => exact tokens_quoteWith briefApostrophe_requotes text none rest

theorem tokenize_parts (first : Part) (parts : List Part) :
    tokenize (first.written ++ spaced (parts.map Part.written)) =
      some (plainWord first.text :: parts.map fun part => plainWord part.text) := by
  have reads : ∀ part ∈ parts.map fun part => (part.written, part.text), ∀ rest,
      tokens (part.1 ++ rest) .unquoted none =
        tokens rest .unquoted (some (part.2.map .literal)) := by
    intro pair member
    obtain ⟨part, -, rfl⟩ := List.mem_map.mp member
    exact part.tokens_written
  have line := tokens_spaced reads (some (first.text.map .literal))
  rw [List.map_map, List.map_map] at line
  rw [tokenize, first.tokens_written]
  exact line

theorem tokenize_part (part : Part) : tokenize part.written = some [plainWord part.text] := by
  have alone := tokenize_parts part []
  rw [List.map_nil, spaced, List.flatMap_nil, List.append_nil] at alone
  exact alone

/-! ## Bootstraps -/

theorem launchCommand_ordinary {provider : AgentProvider} {command : Text}
    (launches : launchCommand provider = some command) :
    (∀ character ∈ command, Ordinary character) ∧ command ≠ [] := by
  cases provider <;> cases launches <;>
    exact ⟨ordinary_of_all (by decide +kernel), by decide +kernel⟩

theorem tokenize_bare {text : Text} (ordinary : ∀ character ∈ text, Ordinary character)
    (nonempty : text ≠ []) : tokenize text = some [plainWord text] :=
  tokenize_part (.bare ⟨text, ordinary, nonempty⟩)

def claudeWord : Bare := ⟨"claude".toList, ordinary_of_all (by decide +kernel), by decide +kernel⟩

def geminiWord : Bare := ⟨"gemini".toList, ordinary_of_all (by decide +kernel), by decide +kernel⟩

def openCodeWord : Bare :=
  ⟨"opencode".toList, ordinary_of_all (by decide +kernel), by decide +kernel⟩

def inputFlag : Bare := ⟨"-i".toList, ordinary_of_all (by decide +kernel), by decide +kernel⟩

def promptFlag : Bare := ⟨"--prompt".toList, ordinary_of_all (by decide +kernel), by decide +kernel⟩

theorem tokenize_briefed (command : Bare) {start : Text} (split : start = command.text ++ [' '])
    (brief : Text) : tokenize (start ++ shellSingleQuote brief) =
      some [plainWord command.text, plainWord brief] := by
  have line := tokenize_parts (.bare command) [.brief brief]
  rw [split]
  simpa [spaced, Part.written, Part.text] using line

theorem tokenize_flagged (command flag : Bare) {start : Text}
    (split : start = command.text ++ (' ' :: (flag.text ++ [' ']))) (brief : Text) :
    tokenize (start ++ shellSingleQuote brief) =
      some [plainWord command.text, plainWord flag.text, plainWord brief] := by
  have line := tokenize_parts (.bare command) [.bare flag, .brief brief]
  rw [split]
  simpa [spaced, Part.written, Part.text] using line

theorem tokenize_providerBootstrap {provider : AgentProvider} {brief command : Text}
    (starts : (providerBootstrap provider brief).command = some command) :
    tokenize command = some ((startWords provider (trimmed brief)).map plainWord) := by
  have plain : (providerBootstrap provider brief).command = launchCommand provider →
      startWords provider (trimmed brief) = (launchCommand provider).toList →
      tokenize command = some ((startWords provider (trimmed brief)).map plainWord) := by
    intro launches words
    rw [launches] at starts
    obtain ⟨ordinary, nonempty⟩ := launchCommand_ordinary starts
    rw [words, starts]
    exact tokenize_bare ordinary nonempty
  by_cases empty : trimmed brief = []
  · apply plain
    · cases provider <;> simp [providerBootstrap, empty, launchCommand]
    · cases provider <;> simp [startWords, empty, launchCommand, typedInput]
  cases provider with
  | claudeCode =>
      rw [providerBootstrap] at starts
      dsimp only at starts
      rw [if_neg empty, Option.some.injEq] at starts
      rw [← starts, startWords, typedInput, if_neg empty]
      exact tokenize_briefed claudeWord (by decide +kernel) _
  | geminiCli =>
      rw [providerBootstrap] at starts
      dsimp only at starts
      rw [if_neg empty, Option.some.injEq] at starts
      rw [← starts, startWords, if_neg empty]
      exact tokenize_flagged geminiWord inputFlag (by decide +kernel) _
  | openCode =>
      rw [providerBootstrap] at starts
      dsimp only at starts
      rw [if_neg empty, Option.some.injEq] at starts
      rw [← starts, startWords, if_neg empty]
      exact tokenize_flagged openCodeWord promptFlag (by decide +kernel) _
  | unknown => cases starts
  | codexCli => exact plain rfl rfl
  | aider => exact plain rfl rfl
  | cursorAgent => exact plain rfl rfl
  | copilot => exact plain rfl rfl
  | goose => exact plain rfl rfl
  | amp => exact plain rfl rfl
  | crush => exact plain rfl rfl

/-- A shell reads quoted texts back as they were, alone and behind a command. -/
theorem quoting_is_exact :
    (∀ text, tokenize (quotePath text) = some [plainWord text] ∧
      tokenize (shellSingleQuote text) = some [plainWord text]) ∧
    (∀ (command : Bare) (parts : List Part),
      tokenize (command.text ++ spaced (parts.map Part.written)) =
        some (plainWord command.text :: parts.map fun part => plainWord part.text)) ∧
    (∀ (command : Bare) (paths : List Text),
      tokenize (command.text ++ droppedPaths paths) =
        some (plainWord command.text :: paths.map plainWord)) ∧
    ∀ provider brief command, (providerBootstrap provider brief).command = some command →
      tokenize command = some ((startWords provider (trimmed brief)).map plainWord) := by
  refine ⟨fun text => ⟨tokenize_part (.path text), tokenize_part (.brief text)⟩, ?_, ?_, ?_⟩
  · exact fun command parts => tokenize_parts (.bare command) parts
  · intro command paths
    have line := tokenize_parts (.bare command) (paths.map Part.path)
    rw [List.map_map, List.map_map] at line
    exact line
  · exact fun _ _ _ starts => tokenize_providerBootstrap starts

end TerminalCanvas.ShellWords
