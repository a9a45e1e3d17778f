import TerminalCanvas.Foundation.Primitives
import TerminalCanvas.Foundation.Text

/-! # The status channel of agents

Agents report their state, and shells their directory, in sequences of the output
stream. The reader cuts these sequences out before the terminal sees them. -/

namespace TerminalCanvas.Terminal

def oscCodeAgentStatus : Nat := 9999

def oscCodeCwd : Nat := 7

def maxPayloadBytes : Nat := 64 * 1024

def maxToolChars : Nat := 160

def maxPromptChars : Nat := 16384

def maxCodeDigits : Nat := 6

def esc : UInt8 := 0x1b

def bel : UInt8 := 0x07

def backslash : UInt8 := 0x5c

def bracket : UInt8 := 0x5d

def semicolon : UInt8 := 0x3b

inductive AgentStatusState
  | working
  | blocked
  | waiting
  | done
deriving DecidableEq, Repr

structure AgentStatusReport where
  state : AgentStatusState
  tool : Option String
  prompt : Option String
  receivedAtMs : Int
deriving DecidableEq, Repr

structure AgentStatusPayload where
  state : Option String
  tool : Option String
  prompt : Option String
  ageMs : Nat
deriving DecidableEq, Repr

/-- `serde_json::from_slice` on a status payload. -/
abbrev FromSlice := Bytes → Option AgentStatusPayload

/-! ## Payloads -/

def clampField (value : Option String) (maxChars : Nat) : Option String := do
  let value := trim (← value)
  if value.isEmpty then
    none
  else if value.length ≤ maxChars then
    some value
  else
    some (String.ofList (value.toList.take maxChars))

def parseState (text : String) : Option AgentStatusState :=
  let word := String.ofList ((trim text).toList.map Char.toLower)
  if word ∈ ["working", "running", "busy"] then
    some .working
  else if word ∈ ["blocked", "approval", "permission"] then
    some .blocked
  else if word ∈ ["waiting", "input", "needs_input"] then
    some .waiting
  else if word ∈ ["done", "idle", "complete", "finished"] then
    some .done
  else
    none

/-- `saturating_sub` of an age that saturates at `i64::MAX` itself. -/
def receivedAt (nowMs : Int) (ageMs : Nat) : Int :=
  max (-2 ^ 63) (nowMs - min (ageMs : Int) i64Max)

def parseAgentStatusPayload (fromSlice : FromSlice) (bytes : Bytes) (nowMs : Int) :
    Option AgentStatusReport := do
  let payload ← fromSlice bytes
  let state ← parseState (← payload.state)
  some ⟨state, clampField payload.tool maxToolChars, clampField payload.prompt maxPromptChars,
    receivedAt nowMs payload.ageMs⟩

/-- The path of `file://host/path`, or an absolute path on its own. -/
def parseOsc7Cwd (bytes : Bytes) : Option String := do
  let text := trim (← String.fromUTF8? ⟨bytes.toArray⟩)
  if text.isEmpty then
    none
  else
    match stripPrefix text "file://" with
    | some rest =>
        let path := rest.toList.dropWhile (· ≠ '/')
        if path.isEmpty then none else some (String.ofList path)
    | none => if text.toList.head? = some '/' then some text else none

/-! ## The interceptor -/

structure AgentStatusStream where
  /-- Bytes of a possible sequence that is not classified yet. -/
  seq : Bytes
  /-- The code whose payload is being captured. -/
  oscCode : Option Nat
  /-- An escape ended the payload: the next byte tells whether it was its terminator. -/
  expectSt : Bool
  payload : Bytes
  truncated : Bool
deriving DecidableEq, Repr

def AgentStatusStream.new : AgentStatusStream := ⟨[], none, false, [], false⟩

/-- The interceptor and what a call has put out so far. -/
structure Turn where
  stream : AgentStatusStream
  clean : Bytes
  reports : List AgentStatusReport
  cwds : List String
deriving DecidableEq, Repr

def isAsciiDigit (byte : UInt8) : Bool := 0x30 ≤ byte && byte ≤ 0x39

/-- The value of a code; the interceptor only asks for digits. -/
def parseCode (digits : Bytes) : Option Nat :=
  if digits.isEmpty then
    none
  else
    some (digits.foldl (fun value digit => 10 * value + (digit.toNat - 0x30)) 0)
      |>.filter (· ≤ u32Max)

namespace Turn

def start (stream : AgentStatusStream) : Turn := ⟨stream, [], [], []⟩

/-- Let the held bytes through. -/
def discharge (turn : Turn) : Turn :=
  { turn with stream.seq := [], clean := turn.clean ++ turn.stream.seq }

def classifySeq (turn : Turn) : Turn :=
  let seq := turn.stream.seq
  if seq.length = 1 then
    turn
  else if seq.getD 1 0 ≠ bracket then
    -- the last byte may itself start a sequence
    if seq.getLast? = some esc then
      { turn with stream.seq := [esc], clean := turn.clean ++ seq.dropLast }
    else
      turn.discharge
  else
    let body := seq.drop 2
    if body.isEmpty then
      turn
    else
      match body.find? (fun byte => !isAsciiDigit byte) with
      | some byte =>
          if byte = semicolon then
            match parseCode body.dropLast with
            | some code =>
                if code = oscCodeAgentStatus ∨ code = oscCodeCwd then
                  { turn with stream := { turn.stream with
                      seq := [], oscCode := some code, payload := [], truncated := false } }
                else
                  turn.discharge
            | none => turn.discharge
          else
            turn.discharge
      | none => if maxCodeDigits < body.length then turn.discharge else turn

variable (fromSlice : FromSlice) (nowMs : Int)

def finishPayload (turn : Turn) (code : Nat) : Turn :=
  let stream := turn.stream
  let ended := { turn with stream := { stream with
    oscCode := none, truncated := false, payload := [] } }
  if !stream.truncated && !stream.payload.isEmpty then
    if code = oscCodeAgentStatus then
      { ended with reports := turn.reports ++
          (parseAgentStatusPayload fromSlice stream.payload nowMs).toList }
    else if code = oscCodeCwd then
      { ended with cwds := turn.cwds ++ (parseOsc7Cwd stream.payload).toList }
    else
      ended
  else
    ended

def payloadByte (turn : Turn) (byte : UInt8) (code : Nat) : Turn :=
  if byte = bel then
    turn.finishPayload fromSlice nowMs code
  else if byte = esc then
    let ended := turn.finishPayload fromSlice nowMs code
    { ended with stream.expectSt := true }
  else if turn.stream.payload.length < maxPayloadBytes then
    { turn with stream.payload := turn.stream.payload ++ [byte] }
  else
    { turn with stream.truncated := true }

/-- One turn of the loop over the chunk. -/
def processByte (turn : Turn) (byte : UInt8) : Turn :=
  if turn.stream.expectSt then
    let stream := { turn.stream with expectSt := false }
    if byte = backslash then
      { turn with stream := stream }
    else
      classifySeq { turn with stream := { stream with seq := stream.seq ++ [esc] ++ [byte] } }
  else
    match turn.stream.oscCode with
    | some code => turn.payloadByte fromSlice nowMs byte code
    | none =>
        if turn.stream.seq ≠ [] then
          classifySeq { turn with stream.seq := turn.stream.seq ++ [byte] }
        else if byte = esc then
          { turn with stream.seq := turn.stream.seq ++ [byte] }
        else
          { turn with clean := turn.clean ++ [byte] }

end Turn

def AgentStatusStream.process (stream : AgentStatusStream) (fromSlice : FromSlice) (nowMs : Int)
    (chunk : Bytes) : Turn :=
  if stream.seq = [] ∧ stream.oscCode = none ∧ stream.expectSt = false ∧ esc ∉ chunk then
    { Turn.start stream with clean := chunk }
  else
    chunk.foldl (Turn.processByte fromSlice nowMs) (.start stream)

end TerminalCanvas.Terminal
