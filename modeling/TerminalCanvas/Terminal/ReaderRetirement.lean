/-! # The reader of a terminal

Read admissions and physical EOF are separate from a pause acknowledgement. -/

namespace TerminalCanvas.Terminal

inductive ReaderState where
  | idle
  | reading
  | pauseRequested
  | paused
  | draining
  | drainReading
  | eof
  | failed
deriving DecidableEq, Repr

namespace ReaderState

def beginRead : ReaderState → Option ReaderState
  | idle => some reading
  | draining => some drainReading
  | _ => none

def finishRead : ReaderState → ReaderState
  | reading => idle
  | pauseRequested => paused
  | drainReading => draining
  | state => state

def request : ReaderState → ReaderState
  | idle => paused
  | reading => pauseRequested
  | state => state

def quiescent (state : ReaderState) : Bool := state matches paused | eof

def isDraining (state : ReaderState) : Bool := state matches draining | drainReading

def resumeDrain : ReaderState → ReaderState
  | paused => draining
  | state => state

def admitted (state : ReaderState) : Bool :=
  state matches reading | pauseRequested | drainReading

end ReaderState

end TerminalCanvas.Terminal
