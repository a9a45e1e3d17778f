import TerminalCanvas.Foundation.Execution
import TerminalCanvas.Foundation.Text
import TerminalCanvas.Foundation.Words
import TerminalCanvas.Foundation.Primitives

/-! # The run marker

The instance that started last owns the saved state. Its token stands in a marker file,
which is only read and written under an exclusive lock, one operation at a time. -/

namespace TerminalCanvas.RunMarker

/-! ## The marker -/

inductive Marker where
  | absent
  | unreadable
  | text (contents : String)
deriving DecidableEq, Repr

def splitWhitespace (text : String) : List String :=
  (words isWhiteSpace text.toList).map String.ofList

/-- `str::parse::<u32>`: decimal digits, perhaps behind a plus sign. -/
def parseU32 (text : String) : Option Nat :=
  let digits := match text.toList with
    | '+' :: digits => digits
    | digits => digits
  if digits ≠ [] ∧ digits.all Char.isDigit then
    some (Nat.ofDigitChars 10 digits 0) |>.filter (· ≤ u32Max)
  else
    none

def markerPid (marker : String) : Option Nat :=
  (splitWhitespace marker).head?.bind parseU32

def markerHasToken (token : Uuid) : Marker → Bool
  | .text contents => (splitWhitespace contents)[1]? = some token.display
  | .absent | .unreadable => false

/-- `process_is_alive`, with the answers of the system. A pid is an `i32` there. -/
def processIsAlive (answers : Nat → Bool) (pid : Nat) : Bool :=
  decide (pid < 2 ^ 31) && answers pid

structure DirtyRun where
  marker : String
deriving DecidableEq, Repr

/-- The marker of the previous run, as `try_claim_run_in` takes it from the file. -/
def previousMarker (found : Option String) : Option String :=
  (found.map trim).filter (· ≠ "")

def dirtyRun (answers : Nat → Bool) (found : Option String) : Option DirtyRun :=
  match previousMarker found with
  | none => none
  | some previous =>
      if (markerPid previous).any (processIsAlive answers) then none else some ⟨previous⟩

def markerText (pid : Nat) (token : Uuid) (timestamp : String) : String :=
  toString pid ++ " " ++ token.display ++ " " ++ timestamp ++ "\n"

/-! ## The instances -/

def Marker.contents : Marker → Option String
  | .text contents => some contents
  | .absent | .unreadable => none

/-- What a claim read before it writes. -/
structure Seen where
  read : Bool
  found : Option String
  answers : Nat → Bool

/-- The operation that whoever holds the lock is about to carry out. -/
inductive Work where
  | readMarker (pid : Nat) (timestamp : String)
  | truncateMarker (pid : Nat) (timestamp : String) (seen : Seen)
  | writeMarker (pid : Nat) (timestamp : String) (seen : Seen) (replaced : Marker)
      (written : Nat)
  | checkWrite
  | write
  | checkEnd
  | recheckEnd
  | removeMarker

/-- What happened, in its order. A claim is noted with the marker it replaced, and a
removed marker with the instance that wrote it. -/
inductive Entry where
  | claimed (token : Uuid) (seen : Seen) (replaced : Marker) (dirty : Option DirtyRun)
  | claimFailed (token : Uuid)
  | wrote (token : Uuid) (marker : Marker)
  | removed (token : Uuid) (author : Option Uuid)

/-- The marker file, the holder of the lock, and the instances, by their tokens. -/
structure RunDir where
  marker : Marker
  holder : Option (Uuid × Work)
  begun : List Uuid
  dead : List Uuid
  author : Option Uuid
  history : List Entry

/-- The instances whose claim is over. From then on `RUN_CLAIM` is set, also when the
claim failed. -/
def endedClaims (history : List Entry) : List Uuid :=
  history.filterMap fun
    | .claimed token _ _ _ | .claimFailed token => some token
    | .wrote _ _ | .removed _ _ => none

namespace RunDir

def enter (dir : RunDir) (token : Uuid) (work : Work) : RunDir :=
  { dir with holder := some (token, work) }

def release (dir : RunDir) : RunDir := { dir with holder := none }

def note (dir : RunDir) (entry : Entry) : RunDir :=
  { dir with history := dir.history ++ [entry] }

def setMarker (dir : RunDir) (author : Uuid) (contents : String) : RunDir :=
  { dir with marker := .text contents, author := some author }

end RunDir

/-- Whether an operation succeeds, how much it writes, and which processes live. -/
structure Answer where
  ok : Bool
  count : Nat
  alive : Nat → Bool

/-- The next operation under the lock. -/
def proceed (dir : RunDir) (token : Uuid) (answer : Answer) : Work → RunDir
  | .readMarker pid timestamp =>
      let found := if answer.ok then dir.marker.contents else none
      dir.enter token (.truncateMarker pid timestamp ⟨answer.ok, found, answer.alive⟩)
  | .truncateMarker pid timestamp seen =>
      if answer.ok then
        (dir.setMarker token "").enter token (.writeMarker pid timestamp seen dir.marker 0)
      else
        (dir.note (.claimFailed token)).release
  | .writeMarker pid timestamp seen replaced written =>
      let contents := markerText pid token timestamp
      if answer.ok then
        let dir := dir.setMarker token
          (String.ofList (contents.toList.take (written + answer.count)))
        if contents.length ≤ written + answer.count then
          (dir.note (.claimed token seen replaced (dirtyRun seen.answers seen.found))).release
        else
          dir.enter token (.writeMarker pid timestamp seen replaced (written + answer.count))
      else
        (dir.note (.claimFailed token)).release
  | .checkWrite =>
      if answer.ok ∧ markerHasToken token dir.marker then dir.enter token .write else dir.release
  | .write =>
      -- the guard may cover several writes
      if answer.ok then dir.note (.wrote token dir.marker) else dir.release
  | .checkEnd =>
      if answer.ok ∧ markerHasToken token dir.marker then dir.enter token .recheckEnd
      else dir.release
  | .recheckEnd =>
      if answer.ok ∧ markerHasToken token dir.marker then dir.enter token .removeMarker
      else dir.release
  | .removeMarker =>
      if answer.ok then
        (({ dir with marker := .absent, author := none } : RunDir).note
          (.removed token dir.author)).release
      else
        dir.release

inductive Event where
  | claim (token : Uuid) (pid : Nat) (timestamp : String)
  | claimTimesOut (token : Uuid)
  | acquireWriteGuard (token : Uuid)
  | endRunClean (token : Uuid)
  | proceed (answer : Answer)
  | crash (token : Uuid)

/-- An operation of an instance starts when it gets the lock. An instance claims once, and
has something to guard once its claim is over. -/
def step (dir : RunDir) : Event → RunDir
  | .claim token pid timestamp =>
      if dir.holder.isNone ∧ token ∉ dir.begun ∧ token ∉ dir.dead then
        { dir with begun := token :: dir.begun }.enter token (.readMarker pid timestamp)
      else
        dir
  | .claimTimesOut token =>
      if token ∉ dir.begun ∧ token ∉ dir.dead then
        { dir with begun := token :: dir.begun }.note (.claimFailed token)
      else
        dir
  | .acquireWriteGuard token =>
      if dir.holder.isNone ∧ token ∈ endedClaims dir.history ∧ token ∉ dir.dead then
        dir.enter token .checkWrite
      else
        dir
  | .endRunClean token =>
      if dir.holder.isNone ∧ token ∈ endedClaims dir.history ∧ token ∉ dir.dead then
        dir.enter token .checkEnd
      else
        dir
  | .proceed answer =>
      match dir.holder with
      | none => dir
      | some (token, work) => proceed dir token answer work
  | .crash token =>
      let dir := { dir with dead := token :: dir.dead }
      if dir.holder.any (·.1 = token) then dir.release else dir

open Execution in
def instances : Machine RunDir Event Unit where
  step dir event := ⟨step dir event, ()⟩

/-- A data directory with whatever earlier runs left, before any instance starts. -/
def start (marker : Marker) : RunDir where
  marker := marker
  holder := none
  begun := []
  dead := []
  author := none
  history := []

end TerminalCanvas.RunMarker
