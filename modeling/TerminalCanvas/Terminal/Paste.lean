import TerminalCanvas.Foundation.Framing
import TerminalCanvas.Foundation.Text
import TerminalCanvas.Terminal.InputWriter

/-! # Pastes and prompts

Text from a clipboard, a guest or a prompt reaches the program in a terminal between
the markers of a bracketed paste. Prompts are stripped of their escapes first. -/

namespace TerminalCanvas.Terminal

open Framing

/-- The modes the program in the terminal asked for. -/
structure InputMode where
  appCursor : Bool
  bracketedPaste : Bool
  mouseMode : Bool
  mouseDrag : Bool
  mouseMotion : Bool
  altScreen : Bool
deriving DecidableEq, Repr

def escapeByte : UInt8 := 0x1b

def pasteStart : Bytes := [escapeByte, 0x5b, 0x32, 0x30, 0x30, 0x7e]

def pasteEnd : Bytes := [escapeByte, 0x5b, 0x32, 0x30, 0x31, 0x7e]

def pasteBytes (text : String) (mode : InputMode) : Bytes :=
  if mode.bracketedPaste then
    pasteStart ++ utf8Bytes text ++ pasteEnd
  else
    utf8Bytes text

def escapeChar : Char := Char.ofNat 0x1b

/-- What takes the place of a character in a prompt. -/
def neutralized (character : Char) : List Char :=
  if character = escapeChar then ['<', 'E', 'S', 'C', '>'] else [character]

def sanitizeAgentPrompt (text : String) : String :=
  String.ofList (text.toList.flatMap neutralized)

def agentPromptBytes (text : String) (mode : InputMode) : Bytes :=
  pasteBytes (sanitizeAgentPrompt (trim text)) mode ++ [0x0d]

def startupInputBytes (input : String) (mode : InputMode) : Bytes :=
  pasteBytes (sanitizeAgentPrompt input) mode ++ [0x0a]

/-- The framed size is counted before a copy is made. -/
def promptFitsInputBudget (input : String) : Bool :=
  let bytes := utf8Bytes input
  bytes.length ≤ maxInputBytes &&
    bytes.length + bytes.countP (· = escapeByte) * 4 + 13 ≤ maxInputBytes

/-! ## Sanitized prompts -/

theorem escapeByte_not_mem_encode {character : Char} (other : character ≠ escapeChar) :
    escapeByte ∉ String.utf8EncodeChar character := by
  intro member
  rcases mem_utf8EncodeChar member with same | large
  · apply other
    apply Char.ext
    apply UInt32.toNat_inj.mp
    exact same.symm
  · exact absurd large (by decide)

theorem utf8Bytes_sanitize (text : String) :
    utf8Bytes (sanitizeAgentPrompt text) =
      text.toList.flatMap fun character =>
        (neutralized character).flatMap String.utf8EncodeChar := by
  rw [sanitizeAgentPrompt, utf8Bytes_ofList, List.flatMap_assoc]

theorem escapeByte_not_mem_sanitize (text : String) :
    escapeByte ∉ utf8Bytes (sanitizeAgentPrompt text) := by
  rw [utf8Bytes_sanitize, List.mem_flatMap]
  rintro ⟨character, -, member⟩
  unfold neutralized at member
  split at member
  · exact absurd member (by decide)
  · next other =>
      rw [List.flatMap_singleton] at member
      exact escapeByte_not_mem_encode other member

theorem length_sanitize (text : String) :
    (utf8Bytes (sanitizeAgentPrompt text)).length =
      (utf8Bytes text).length + (utf8Bytes text).countP (· = escapeByte) * 4 := by
  have bytes : utf8Bytes text = text.toList.flatMap String.utf8EncodeChar := by
    rw [← utf8Bytes_ofList, String.ofList_toList]
  rw [utf8Bytes_sanitize, bytes]
  induction text.toList with
  | nil => rfl
  | cons character rest induction =>
      rw [List.flatMap_cons, List.flatMap_cons, List.length_append, List.length_append,
        List.countP_append, induction]
      by_cases escapes : character = escapeChar
      · have size : ((neutralized character).flatMap String.utf8EncodeChar).length = 5 := by
          rw [escapes]
          decide
        have one : (String.utf8EncodeChar character).length = 1 := by
          rw [escapes]
          decide
        have counted : (String.utf8EncodeChar character).countP (· = escapeByte) = 1 := by
          rw [escapes]
          decide
        omega
      · have same : (neutralized character).flatMap String.utf8EncodeChar =
            String.utf8EncodeChar character := by
          rw [neutralized, if_neg escapes, List.flatMap_singleton]
        have counted : (String.utf8EncodeChar character).countP (· = escapeByte) = 0 := by
          rw [List.countP_eq_zero]
          intro byte member equal
          exact escapeByte_not_mem_encode escapes (of_decide_eq_true equal ▸ member)
        rw [same]
        omega

/-! ## What the program receives -/

/-- Everything a program reads from these bytes is one paste. -/
def OnePaste (bytes : Bytes) : Prop :=
  ∃ data, receive pasteStart pasteEnd bytes = [.data data]

/-- The bytes are one paste and the key that submits it. -/
def OnePasteThen (enter : UInt8) (bytes : Bytes) : Prop :=
  ∃ data, receive pasteStart pasteEnd bytes = [.data data, .outside [enter]]

variable {mode : InputMode}

theorem pasteBytes_bracketed (bracketed : mode.bracketedPaste = true) (text : String) :
    pasteBytes text mode = pasteStart ++ utf8Bytes text ++ pasteEnd :=
  if_pos bracketed

theorem onePaste_pasteBytes (bracketed : mode.bracketedPaste = true) (text : String) :
    OnePaste (pasteBytes text mode) ↔ ¬ pasteEnd <:+: utf8Bytes text := by
  rw [OnePaste, pasteBytes_bracketed bracketed]
  constructor
  · rintro ⟨data, received⟩ inside
    exact receive_broken (by decide) (by decide) inside data received
  · intro absent
    refine ⟨utf8Bytes text, ?_⟩
    rw [← List.append_nil (pasteStart ++ utf8Bytes text ++ pasteEnd)]
    exact receive_framed (by decide) absent []

theorem onePasteThen_sanitized (bracketed : mode.bracketedPaste = true) (text : String)
    (enter : UInt8) :
    OnePasteThen enter (pasteBytes (sanitizeAgentPrompt text) mode ++ [enter]) := by
  have absent : ¬ pasteEnd <:+: utf8Bytes (sanitizeAgentPrompt text) := fun inside =>
    escapeByte_not_mem_sanitize text (inside.subset List.mem_cons_self)
  have outside : splitAtFirst pasteStart [enter] = none := by
    simp [splitAtFirst, pasteStart]
  refine ⟨utf8Bytes (sanitizeAgentPrompt text), ?_⟩
  rw [pasteBytes_bracketed bracketed]
  refine (receive_framed (by decide) absent [enter]).trans ?_
  rw [List.length_append, List.length_singleton, receiveLoop, outside]
  rfl

theorem length_agentPromptBytes (bracketed : mode.bracketedPaste = true) {text : String}
    (trimmed : trim text = text) :
    (agentPromptBytes text mode).length =
      (utf8Bytes text).length + (utf8Bytes text).countP (· = escapeByte) * 4 + 13 := by
  have sanitized := length_sanitize text
  rw [agentPromptBytes, trimmed, pasteBytes_bracketed bracketed]
  simp only [List.length_append, List.length_singleton, sanitized]
  have markers : pasteStart.length = 6 ∧ pasteEnd.length = 6 := by decide
  omega

/-- No text leaves its paste, and the budget of a trimmed prompt is exact. -/
structure Contained (text : String) (mode : InputMode) : Prop where
  paste : OnePaste (pasteBytes text mode)
  prompt : OnePasteThen 0x0d (agentPromptBytes text mode)
  startup : OnePasteThen 0x0a (startupInputBytes text mode)
  budget : trim text = text → (promptFitsInputBudget text = true ↔
    (agentPromptBytes text mode).length ≤ maxInputBytes)

/-- Only a text with the closing marker escapes its paste. -/
theorem contained_iff (bracketed : mode.bracketedPaste = true) (text : String) :
    Contained text mode ↔ ¬ pasteEnd <:+: utf8Bytes text := by
  constructor
  · intro contained
    exact (onePaste_pasteBytes bracketed text).mp contained.paste
  · intro absent
    refine ⟨(onePaste_pasteBytes bracketed text).mpr absent,
      onePasteThen_sanitized bracketed (trim text) _,
      onePasteThen_sanitized bracketed text _, fun trimmed => ?_⟩
    rw [length_agentPromptBytes bracketed trimmed, promptFitsInputBudget, Bool.and_eq_true,
      decide_eq_true_eq, decide_eq_true_eq]
    omega

def bracketedMode : InputMode := ⟨false, true, false, false, false, false⟩

/-- A pasted closing marker runs what follows it. -/
theorem contained_escapes :
    ¬ Contained "\x1b[201~id\r" bracketedMode := by
  rintro ⟨⟨data, received⟩, -⟩
  have seen : receive pasteStart pasteEnd (pasteBytes "\x1b[201~id\r" bracketedMode) =
      [.data [], .outside [0x69, 0x64, 0x0d, 0x1b, 0x5b, 0x32, 0x30, 0x31, 0x7e]] := by
    decide +kernel
  rw [seen] at received
  exact nomatch received

/-- A part of the marker at the end of a text does no harm. -/
theorem contained_partial_marker : Contained "ls\x1b[20" bracketedMode :=
  (contained_iff rfl "ls\x1b[20").mpr (by decide +kernel)

end TerminalCanvas.Terminal
