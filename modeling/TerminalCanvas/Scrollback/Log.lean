import TerminalCanvas.Foundation.LittleEndian
import TerminalCanvas.Foundation.Primitives
import TerminalCanvas.Foundation.Scan

/-! # The incremental scrollback log

A log file is a header (magic, version, generation) followed by frames (sequence
number, kind, payload length, payload). A file is the bytes it holds; the system
calls of one append are answered by the environment. -/

namespace TerminalCanvas.Scrollback

open LittleEndian Scan

def magic : Bytes := [0x4D, 0x54, 0x4C, 0x47]

def version : UInt8 := 2

def maxLogBytes : Nat := 1024 * 1024

inductive FrameKind where
  | output
  | resize
  | clear
deriving DecidableEq, Repr

namespace FrameKind

def toU8 : FrameKind → UInt8
  | output => 1
  | resize => 2
  | clear => 3

def fromU8 (value : UInt8) : Option FrameKind :=
  if value = 1 then some output
  else if value = 2 then some resize
  else if value = 3 then some clear
  else none

end FrameKind

structure Frame where
  seq : Nat
  kind : FrameKind
  payload : Bytes
deriving DecidableEq, Repr

def encodeHeader (generation : UInt32) : Bytes :=
  magic ++ [version] ++ leBytes 4 generation.toNat

def encodeFrame (seq : Nat) (kind : FrameKind) (payload : Bytes) : Bytes :=
  leBytes 8 seq ++ [kind.toU8] ++ leBytes 4 payload.length ++ payload

def headerBytes : Nat := 9

def frameHeaderBytes : Nat := 13

/-- The sequence number at the front of a frame. -/
def frameSeq (rest : Bytes) : Nat := ofLeBytes (rest.take 8)

def frameLength (rest : Bytes) : Nat := ofLeBytes ((rest.drop 9).take 4)

/-- A sequence gap: this number does not follow the previous one. -/
def breaksSequence (previousSeq : Option Nat) (seq : Nat) : Bool :=
  previousSeq.any fun previous => checkedAddU64 previous 1 ≠ some seq

/-- One turn of the reading loop: the sequence number is checked before the kind
and before the length. -/
def readFrame (previousSeq : Option Nat) (rest : Bytes) : ScanStep (Option Nat) Frame :=
  if rest.length < frameHeaderBytes then
    .stop
  else if breaksSequence previousSeq (frameSeq rest) then
    .invalid
  else
    match FrameKind.fromU8 (rest.getD 8 0) with
    | none => .stop
    | some kind =>
        if rest.length < frameHeaderBytes + frameLength rest then
          .stop
        else
          .item ⟨frameSeq rest, kind, (rest.drop frameHeaderBytes).take (frameLength rest)⟩
            (some (frameSeq rest)) (frameHeaderBytes + frameLength rest)

theorem readFrame_eq_item {previousSeq : Option Nat} {rest : Bytes} {frame : Frame}
    {next : Option Nat} {size : Nat} :
    readFrame previousSeq rest = .item frame next size ↔
      frameHeaderBytes + frameLength rest ≤ rest.length ∧
      breaksSequence previousSeq (frameSeq rest) = false ∧
      FrameKind.fromU8 (rest.getD 8 0) = some frame.kind ∧
      frame.seq = frameSeq rest ∧
      frame.payload = (rest.drop frameHeaderBytes).take (frameLength rest) ∧
      next = some frame.seq ∧ size = frameHeaderBytes + frameLength rest := by
  unfold readFrame
  constructor
  · intro read
    split at read
    · cases read
    · split at read
      · cases read
      · next continues =>
          split at read
          · cases read
          · next kind known =>
              split at read
              · cases read
              · next fits =>
                  cases read
                  exact ⟨by omega, by simpa using continues, known, rfl, rfl, rfl, rfl⟩
  · rintro ⟨fits, continues, known, seq, payload, rfl, rfl⟩
    rw [if_neg (by omega), if_neg (by simp [continues]), known]
    simp only
    rw [if_neg (by omega), ← seq, ← payload]

theorem readFrame_progress {previousSeq : Option Nat} {rest : Bytes} {frame : Frame}
    {next : Option Nat} {size : Nat}
    (read : readFrame previousSeq rest = .item frame next size) :
    0 < size ∧ size ≤ rest.length := by
  rcases readFrame_eq_item.mp read with ⟨fits, -, -, -, -, -, rfl⟩
  exact ⟨by simp only [frameHeaderBytes]; omega, fits⟩

def frameScanner : Scanner UInt8 (Option Nat) Frame where
  step := readFrame
  progress := readFrame_progress

/-- The generation, the complete frames and the length of the valid prefix. -/
def readFramesWithValidLen (bytes : Bytes) : Option (UInt32 × List Frame × Nat) :=
  if bytes.length < headerBytes ∨ bytes.take 4 ≠ magic ∨ bytes.getD 4 0 ≠ version then
    none
  else
    (frameScanner.scan none (bytes.drop headerBytes)).map fun (frames, length) =>
      (UInt32.ofNat (ofLeBytes ((bytes.drop 5).take 4)), frames, headerBytes + length)

def readFrames (bytes : Bytes) : Option (UInt32 × List Frame) :=
  (readFramesWithValidLen bytes).map fun (generation, frames, _) => (generation, frames)

def renumberLoop (nextSeq : Nat) : List Frame → Option (Bytes × Nat)
  | [] => some ([], nextSeq)
  | frame :: frames => do
      let following ← checkedAddU64 nextSeq 1
      let (later, last) ← renumberLoop following frames
      pure (encodeFrame nextSeq frame.kind frame.payload ++ later, last)

def renumberFrames (bytes : Bytes) (firstSeq : Nat) : Option (Bytes × Nat) := do
  let (_, frames) ← readFrames (encodeHeader 0 ++ bytes)
  renumberLoop firstSeq frames

/-! ## Files -/

abbrev File := Option Bytes

/-- `std::io::Error`: the errors the program makes itself and those of the system. -/
inductive IoError where
  | invalidData (message : String)
  | io
  | rollbackAlsoFailed
deriving DecidableEq, Repr

/-- A temporary file is written, flushed and renamed. A failure leaves the
destination as it was. -/
def writeAtomic (succeeds : Bool) (file : File) (bytes : Bytes) : Except IoError Unit × File :=
  if succeeds then (.ok (), some bytes) else (.error .io, file)

def resetLog (succeeds : Bool) (file : File) (generation : UInt32) :
    Except IoError Unit × File :=
  writeAtomic succeeds file (encodeHeader generation)

/-- The first system call of an append that fails. -/
inductive AppendAnswer where
  | createFails
  | readFails
  | openFails
  | repairFails
  | seekFails
  /-- The write stopped, or its flush failed, with this many bytes in the file;
  then the two calls of the rollback are answered. -/
  | writeFails (written : Nat) (setLen sync : Bool)
  | flushed
deriving DecidableEq, Repr

/-- The write of a batch behind the valid prefix, with its rollback. -/
def appendAt (answer : AppendAnswer) (validPrefix framesBytes : Bytes) :
    Except IoError Unit × Bytes :=
  match answer with
  | .writeFails written setLen sync =>
      if setLen = true then
        (.error (if sync then .io else .rollbackAlsoFailed), validPrefix)
      else
        (.error .rollbackAlsoFailed, validPrefix ++ framesBytes.take written)
  | _ => (.ok (), validPrefix ++ framesBytes)

/-- The file an append reads, created when it is missing. -/
def existingOrCreated (answer : AppendAnswer) : File → Option Bytes
  | some bytes => some bytes
  | none => if answer = .createFails then none else some (encodeHeader 0)

/-- Whether a batch continues the durable sequence. -/
def continuesSequence (existing incoming : List Frame) : Bool :=
  match existing.getLast?, incoming.head? with
  | some last, some first => checkedAddU64 last.seq 1 = some first.seq
  | _, _ => true

def appendFrames (answer : AppendAnswer) (file : File) (framesBytes : Bytes) :
    Except IoError Unit × File :=
  match readFramesWithValidLen (encodeHeader 0 ++ framesBytes) with
  | none => (.error (.invalidData "incomplete log batch"), file)
  | some (_, incomingFrames, incomingLen) =>
      if incomingLen ≠ (encodeHeader 0 ++ framesBytes).length then
        (.error (.invalidData "incomplete log batch"), file)
      else
        match existingOrCreated answer file with
        | none => (.error .io, file)
        | some bytes =>
            if answer = .readFails then
              (.error .io, some bytes)
            else
              match readFramesWithValidLen bytes with
              | none => (.error (.invalidData "log incremental inválido"), some bytes)
              | some (_, existingFrames, validLen) =>
                  if continuesSequence existingFrames incomingFrames = false then
                    (.error (.invalidData "log batch does not continue the durable sequence"),
                      some bytes)
                  else if answer = .openFails ∨
                      (answer = .repairFails ∧ validLen < bytes.length) then
                    (.error .io, some bytes)
                  else if answer = .seekFails then
                    (.error .io, some (bytes.take validLen))
                  else
                    let (result, after) := appendAt answer (bytes.take validLen) framesBytes
                    (result, some after)

end TerminalCanvas.Scrollback
