import TerminalCanvas.Foundation.Execution
import TerminalCanvas.Foundation.LittleEndian

/-! # The input writer of a terminal

Callers hand their input over under one lock; only the worker touches the OS
writer, and never while it holds the lock. Every operation of a caller and every
critical section or OS call of the worker is one step, so that a list of inputs is
one interleaving of both threads. -/

namespace TerminalCanvas.Terminal

open LittleEndian Execution

def maxInputBytes : Nat := 2 * 1024 * 1024

/-- `io::ErrorKind`, as far as the writer tells its values apart. -/
inductive ErrorKind where
  | invalidInput
  | brokenPipe
  | wouldBlock
  | interrupted
  | writeZero
  | other
deriving DecidableEq, Repr

structure InputError where
  kind : ErrorKind
  message : String
deriving DecidableEq, Repr

namespace InputWriter

structure State where
  pending : List Bytes
  /-- Accounted bytes. No addition overflows: at most two of the accounted inputs are
  final ones, and one slice holds at most `isize::MAX` bytes. -/
  buffered : Nat
  closed : Bool
  finishing : Bool
  error : Option String
deriving DecidableEq, Repr

def totalBytes (inputs : List Bytes) : Nat := (inputs.map List.length).sum

def queuePoisoned : InputError := ⟨.other, "input queue poisoned"⟩

def tooLarge : InputError :=
  ⟨.invalidInput, "No se envió la entrada: el texto supera el límite de 2 MiB. " ++
    "Dividilo en partes más pequeñas."⟩

def channelClosed : InputError :=
  ⟨.brokenPipe, "No se envió la entrada: el canal del terminal está cerrado."⟩

def queueFull : InputError :=
  ⟨.wouldBlock, "No se envió la entrada: el proceso no consume datos y la cola de 2 MiB " ++
    "está llena. Reintentá cuando responda."⟩

namespace State

/-- Why `enqueue` rejects an input that is not empty. -/
def refusal (state : State) (bytes : Bytes) : Option InputError :=
  if maxInputBytes < bytes.length then
    some tooLarge
  else if state.closed || state.finishing then
    some channelClosed
  else if maxInputBytes - state.buffered < bytes.length then
    some queueFull
  else
    none

def enqueue (state : State) (bytes : Bytes) : Except InputError Unit × State :=
  match state.refusal bytes with
  | some failure => (.error failure, { state with error := some failure.message })
  | none => (.ok (), { state with
      buffered := state.buffered + bytes.length
      pending := state.pending ++ [bytes] })

def enqueueFinal (state : State) (bytes : Bytes) : Except InputError Unit × State :=
  if state.closed then
    (.error ⟨.brokenPipe, "broken pipe"⟩, state)
  else
    let queued := totalBytes state.pending
    (.ok (), { state with
      buffered := state.buffered - queued + bytes.length
      pending := [bytes]
      finishing := true })

def close (state : State) : State :=
  { state with closed := true, pending := [], buffered := 0 }

def checkOpen (state : State) : Except InputError Unit :=
  if state.closed || state.finishing then
    .error ⟨.brokenPipe, "El canal de entrada del terminal está cerrado."⟩
  else
    .ok ()

end State

/-! ## The worker -/

/-- Where the worker is in one attempt at an OS call: before it looks at `closed`,
in the call, and in the two critical sections of `retry_input`. -/
inductive Attempt where
  | check
  | call
  | retry
  | wait
deriving DecidableEq, Repr

inductive Worker where
  | waiting
  | writing (bytes : Bytes) (offset : Nat) (attempt : Attempt)
  | flushing (bytes : Bytes) (attempt : Attempt)
  /-- `write_input_batch` has returned. -/
  | settling (bytes : Bytes) (result : Except InputError Bool)
  /-- The worker has returned and drops the OS writer. -/
  | returned
  | gone
deriving Repr

/-- The batch the worker has taken from the queue. -/
def Worker.inFlight : Worker → Option Bytes
  | waiting | returned | gone => none
  | writing bytes _ _ | flushing bytes _ | settling bytes _ => some bytes

def writeLoop (bytes : Bytes) (offset : Nat) : Worker :=
  if offset < bytes.length then .writing bytes offset .check else .flushing bytes .check

end InputWriter

structure InputWriter where
  state : InputWriter.State
  /-- A holder of the lock has panicked. -/
  poisoned : Bool
  worker : InputWriter.Worker
  finished : Bool

namespace InputWriter

def new : InputWriter := ⟨⟨[], 0, false, false, none⟩, false, .waiting, false⟩

inductive Input where
  | enqueue (bytes : Bytes)
  | enqueueFinal (bytes : Bytes)
  | checkOpen
  | recordError (message : String)
  | close
  /-- An owner goes away. What happens between its two critical sections is a run
  with `close` in the place of the second. -/
  | drop (lastOwner : Bool)
  /-- A holder of the lock panics. -/
  | poison
  /-- The worker's next step. An OS call gives the answer: how much it accepted. -/
  | work (answer : Except InputError Nat)

inductive Observation where
  | silent
  | answered (result : Except InputError Unit)
  /-- The worker has taken an input from the queue. -/
  | took
  /-- The OS has accepted bytes. -/
  | wrote (chunk : Bytes)
  /-- The worker has accounted for its batch. -/
  | settled
deriving DecidableEq

/-- A fallible operation of a caller. -/
def locked (writer : InputWriter) (operation : State → Except InputError Unit × State) :
    StepResult InputWriter Observation :=
  if writer.poisoned then
    ⟨writer, .answered (.error queuePoisoned)⟩
  else
    ⟨{ writer with state := (operation writer.state).2 },
      .answered (operation writer.state).1⟩

/-- An operation of a caller that gives up silently behind a poisoned lock. -/
def lockedOrSkip (writer : InputWriter) (operation : State → State) : InputWriter :=
  if writer.poisoned then writer else { writer with state := operation writer.state }

def enqueue (writer : InputWriter) (bytes : Bytes) : StepResult InputWriter Observation :=
  if bytes.isEmpty then
    ⟨writer, .answered (.ok ())⟩
  else
    writer.locked (·.enqueue bytes)

def enqueueFinal (writer : InputWriter) (bytes : Bytes) : StepResult InputWriter Observation :=
  writer.locked (·.enqueueFinal bytes)

def checkOpen (writer : InputWriter) : StepResult InputWriter Observation :=
  writer.locked fun state => (state.checkOpen, state)

def recordError (writer : InputWriter) (message : String) : InputWriter :=
  writer.lockedOrSkip ({ · with error := some message })

def close (writer : InputWriter) : InputWriter := writer.lockedOrSkip State.close

def drop (writer : InputWriter) (lastOwner : Bool) : InputWriter :=
  let finishing := if writer.poisoned then false else writer.state.finishing
  if lastOwner && !finishing then writer.close else writer

def retryable (error : InputError) : Bool :=
  error.kind = .wouldBlock || error.kind = .interrupted

/-- What the worker does next when it looks at `closed`. -/
def unlessClosed (writer : InputWriter) (bytes : Bytes) (next : Worker) :
    StepResult InputWriter Observation :=
  if writer.state.closed then
    ⟨{ writer with worker := .settling bytes (.ok false) }, .silent⟩
  else
    ⟨{ writer with worker := next }, .silent⟩

/-- An OS call has failed: retry, or give the batch up. -/
def callFailed (writer : InputWriter) (bytes : Bytes) (error : InputError) (retry : Worker) :
    StepResult InputWriter Observation :=
  if retryable error then
    ⟨{ writer with worker := retry }, .silent⟩
  else
    ⟨{ writer with worker := .settling bytes (.error error) }, .silent⟩

/-- The head of the loop of `run_input_worker`. -/
def takeInput (writer : InputWriter) : StepResult InputWriter Observation :=
  if writer.state.closed || (writer.state.finishing && writer.state.pending.isEmpty) then
    ⟨{ writer with worker := .returned }, .silent⟩
  else
    match writer.state.pending with
    -- spurious wakeups included
    | [] => ⟨writer, .silent⟩
    | bytes :: pending =>
        ⟨{ writer with
          state := { writer.state with pending := pending }
          worker := writeLoop bytes 0 }, .took⟩

/-- The tail of the loop of `run_input_worker`. -/
def settle (writer : InputWriter) (bytes : Bytes) (result : Except InputError Bool) :
    StepResult InputWriter Observation :=
  let settled := { writer.state with buffered := writer.state.buffered - bytes.length }
  match result with
  | .error error =>
      ⟨{ writer with
        state := { settled with
          error := some ("Error de entrada: " ++ error.message ++
            ". Parte del texto puede no haber llegado al proceso.")
          pending := []
          buffered := 0
          closed := true }
        worker := .returned }, .settled⟩
  | .ok false => ⟨{ writer with state := settled, worker := .returned }, .settled⟩
  | .ok true => ⟨{ writer with state := settled, worker := .waiting }, .settled⟩

def work (writer : InputWriter) (answer : Except InputError Nat) :
    StepResult InputWriter Observation :=
  match writer.worker with
  | .waiting => writer.takeInput
  | .writing bytes offset .check => writer.unlessClosed bytes (.writing bytes offset .call)
  | .writing bytes offset .call =>
      match answer with
      | .ok 0 => ⟨{ writer with
          worker := .settling bytes (.error ⟨.writeZero, "write zero"⟩) }, .silent⟩
      | .ok written => ⟨{ writer with worker := writeLoop bytes (offset + written) },
          .wrote ((bytes.drop offset).take written)⟩
      | .error error => writer.callFailed bytes error (.writing bytes offset .retry)
  | .writing bytes offset .retry => writer.unlessClosed bytes (.writing bytes offset .wait)
  | .writing bytes offset .wait => writer.unlessClosed bytes (.writing bytes offset .check)
  | .flushing bytes .check => writer.unlessClosed bytes (.flushing bytes .call)
  | .flushing bytes .call =>
      match answer with
      | .ok _ => ⟨{ writer with worker := .settling bytes (.ok true) }, .silent⟩
      | .error error => writer.callFailed bytes error (.flushing bytes .retry)
  | .flushing bytes .retry => writer.unlessClosed bytes (.flushing bytes .wait)
  | .flushing bytes .wait => writer.unlessClosed bytes (.flushing bytes .check)
  | .settling bytes result => writer.settle bytes result
  | .returned => ⟨{ writer with worker := .gone, finished := true }, .silent⟩
  | .gone => ⟨writer, .silent⟩

def step (writer : InputWriter) : Input → StepResult InputWriter Observation
  | .enqueue bytes => writer.enqueue bytes
  | .enqueueFinal bytes => writer.enqueueFinal bytes
  | .checkOpen => writer.checkOpen
  | .recordError message => ⟨writer.recordError message, .silent⟩
  | .close => ⟨writer.close, .silent⟩
  | .drop lastOwner => ⟨writer.drop lastOwner, .silent⟩
  | .poison => ⟨{ writer with poisoned := true }, .silent⟩
  | .work answer => writer.work answer

def machine : Machine InputWriter Input Observation where
  step := step

end InputWriter

end TerminalCanvas.Terminal
