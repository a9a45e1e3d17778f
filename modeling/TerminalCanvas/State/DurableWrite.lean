import Mathlib.Logic.Function.Basic
import TerminalCanvas.Foundation.Execution
import TerminalCanvas.State.LayoutLoad

/-! # Durable writes

A layout is written to a file beside the main one, which then takes its place. Before
that the main file may be copied into the ring of backups. The writer can stop between
any two operations. -/

namespace TerminalCanvas.Layout

/-! ## The disk -/

/-- The files by their paths, and which of them are not synced. -/
structure Disk where
  entries : String → Entry
  dirty : String → Bool

namespace Disk

def set (disk : Disk) (path : String) (entry : Entry) (dirty : Bool) : Disk where
  entries := Function.update disk.entries path entry
  dirty := Function.update disk.dirty path dirty

def write (disk : Disk) (path : String) (bytes : Bytes) : Disk :=
  disk.set path (.file bytes) true

def sync (disk : Disk) (path : String) : Disk := disk.set path (disk.entries path) false

def remove (disk : Disk) (path : String) : Disk := disk.set path .absent false

def rename (disk : Disk) (source target : String) : Disk :=
  (disk.set target (disk.entries source) (disk.dirty source)).remove source

/-- Only a first part stays of each file that is not synced. -/
def lose (disk : Disk) (kept : String → Nat) : Disk :=
  { disk with entries := fun path =>
      match disk.entries path with
      | .file bytes => .file (if disk.dirty path then bytes.take (kept path) else bytes)
      | entry => entry }

end Disk

/-! ## The writer -/

def tempPath (path : String) (id : Uuid) : String := path ++ "." ++ id.display ++ ".tmp"

/-- `write_durable` with the identifier that names its temporary file. -/
structure Call where
  bytes : Bytes
  temp : Uuid
deriving DecidableEq

/-- The operation a call is about to carry out. -/
inductive Phase where
  | validate
  | compare
  | validateRing
  | present
  | age
  | shift (slot : Nat)
  | openCopy
  | copy (copied : Nat)
  | directory
  | create
  | write (written : Nat)
  | sync
  | rename
  | syncDirectory
  | cleanUp
deriving DecidableEq, Repr

/-- Whether the operation succeeds, and how many bytes it moves. -/
structure Outcome where
  ok : Bool
  count : Nat

inductive Ending where
  | done (changed : Bool)
  | failed
  | stopped
deriving DecidableEq, Repr

/-- The disk and the call on it, with a record of the calls that ended, of the contents
the main file had, and of which of them each backup is a copy. -/
structure Writer where
  disk : Disk
  running : Option (Call × Phase)
  ended : List (Bytes × Ending)
  mains : List Bytes
  origins : Nat → Nat

namespace Writer

def enter (writer : Writer) (call : Call) (phase : Phase) : Writer :=
  { writer with running := some (call, phase) }

def finish (writer : Writer) (call : Call) (ending : Ending) : Writer :=
  { writer with running := none, ended := writer.ended ++ [(call.bytes, ending)] }

end Writer

/-- A regular file or nothing. -/
def Entry.plain : Entry → Bool
  | .absent | .file _ => true
  | .unreadable _ | .notRegular => false

section Machine

variable (path : String)

def newest : String := backupPath path 0

/-- One operation of `rotate_backup_ring`: the slots move from the oldest on. -/
def shiftSlot (writer : Writer) (slot : Nat) (ok : Bool) : Writer :=
  if writer.disk.entries (backupPath path (slot - 1)) ≠ .absent ∧ ok then
    { writer with
      disk := writer.disk.rename (backupPath path (slot - 1)) (backupPath path slot)
      origins := Function.update writer.origins slot (writer.origins (slot - 1)) }
  else
    writer

/-- The next operation of a call. Its outcome is up to the system. -/
def advance (writer : Writer) (call : Call) (outcome : Outcome) : Phase → Writer
  | .validate =>
      if outcome.ok ∧ (writer.disk.entries path).plain then writer.enter call .compare
      else writer.finish call .failed
  | .compare =>
      if outcome.ok ∧ writer.disk.entries path = .file call.bytes then
        writer.finish call (.done false)
      else
        writer.enter call .validateRing
  | .validateRing =>
      if outcome.ok ∧ ∀ slot ∈ List.range backupSlots,
          (writer.disk.entries (backupPath path slot)).plain then
        writer.enter call .present
      else
        writer.finish call .failed
  | .present =>
      if outcome.ok ∧ writer.disk.entries path ≠ .absent then writer.enter call .age
      else writer.enter call .directory
  | .age =>
      -- the outcome: the newest backup is old enough, or its age is unknown
      if outcome.ok ∨ writer.disk.entries (newest path) = .absent then
        writer.enter call (.shift (backupSlots - 1))
      else
        writer.enter call .directory
  | .shift slot =>
      (shiftSlot path writer slot outcome.ok).enter call
        (if slot ≤ 1 then .openCopy else .shift (slot - 1))
  | .openCopy =>
      if outcome.ok then
        { writer with
          disk := writer.disk.write (newest path) []
          origins := Function.update writer.origins 0 (writer.mains.length - 1)
          running := some (call, .copy 0) }
      else
        writer.enter call .directory
  | .copy copied =>
      match writer.disk.entries path with
      | .file main =>
          if outcome.ok then
            { writer with
              disk := writer.disk.write (newest path) (main.take (copied + outcome.count))
              running := some (call, if main.length ≤ copied + outcome.count then .directory
                else .copy (copied + outcome.count)) }
          else
            writer.enter call .directory
      | _ => writer.enter call .directory
  | .directory =>
      if outcome.ok then writer.enter call .create else writer.finish call .failed
  | .create =>
      if outcome.ok ∧ writer.disk.entries (tempPath path call.temp) = .absent then
        { writer with
          disk := writer.disk.write (tempPath path call.temp) []
          running := some (call, .write 0) }
      else
        writer.enter call .cleanUp
  | .write written =>
      if outcome.ok then
        { writer with
          disk := writer.disk.write (tempPath path call.temp)
            (call.bytes.take (written + outcome.count))
          running := some (call, if call.bytes.length ≤ written + outcome.count then .sync
            else .write (written + outcome.count)) }
      else
        writer.enter call .cleanUp
  | .sync =>
      if outcome.ok then
        { writer with
          disk := writer.disk.sync (tempPath path call.temp)
          running := some (call, .rename) }
      else
        writer.enter call .cleanUp
  | .rename =>
      if outcome.ok then
        { writer with
          disk := writer.disk.rename (tempPath path call.temp) path
          mains := writer.mains ++ [call.bytes]
          running := some (call, .syncDirectory) }
      else
        writer.enter call .cleanUp
  | .syncDirectory => writer.finish call (.done true)
  | .cleanUp =>
      if outcome.ok then
        { writer with disk := writer.disk.remove (tempPath path call.temp) }.finish call .failed
      else
        writer.finish call .failed

inductive Event where
  | call (call : Call)
  | proceed (outcome : Outcome)
  | stop (kept : String → Nat)

/-- A call starts when none is running. A stop can come at any time, and loses what is not
synced. -/
def stepWriter (writer : Writer) : Event → Writer
  | .call call =>
      match writer.running with
      | none => writer.enter call .validate
      | some _ => writer
  | .proceed outcome =>
      match writer.running with
      | none => writer
      | some (call, phase) => advance path writer call outcome phase
  | .stop kept =>
      let writer := { writer with disk := writer.disk.lose kept }
      match writer.running with
      | none => writer
      | some (call, _) => writer.finish call .stopped

open Execution in
def writes : Machine Writer Event Unit where
  step writer event := ⟨stepWriter path writer event, ()⟩

/-- A directory that holds a main file or nothing yet. -/
def startWriter (initial : Option Bytes) : Writer where
  disk :=
    { entries := fun other => if other = path then initial.elim .absent .file else .absent
      dirty := fun _ => false }
  running := none
  ended := []
  mains := initial.toList
  origins := fun _ => 0

end Machine

/-! ## Paths -/

theorem length_display (id : Uuid) : id.display.length = 36 := by
  rw [Uuid.display, String.length_ofList]
  simp only [List.length_append, List.length_take, List.length_drop, Uuid.length_hexDigits,
    List.length_singleton]
  rfl

section Paths

variable {path : String} {slot other : Nat}

theorem length_backupPath (bound : slot < backupSlots) :
    (backupPath path slot).length = path.length + 6 := by
  have digits : ∀ slot < backupSlots, (toString slot).length = 1 := by decide
  rw [backupPath, String.length_append, String.length_append, digits slot bound]
  rfl

theorem length_tempPath (id : Uuid) : (tempPath path id).length = path.length + 41 := by
  rw [tempPath, String.length_append, String.length_append, String.length_append, length_display]
  rfl

theorem backupPath_ne_path (bound : slot < backupSlots) : backupPath path slot ≠ path := by
  intro same
  have lengths := @length_backupPath path slot bound
  rw [same] at lengths
  omega

theorem tempPath_ne_path (id : Uuid) : tempPath path id ≠ path := by
  intro same
  have lengths := @length_tempPath path id
  rw [same] at lengths
  omega

theorem backupPath_ne_tempPath (bound : slot < backupSlots) (id : Uuid) :
    backupPath path slot ≠ tempPath path id := by
  intro same
  have lengths := @length_backupPath path slot bound
  rw [same, length_tempPath] at lengths
  omega

theorem backupPath_injective (bound : slot < backupSlots) (otherBound : other < backupSlots)
    (same : backupPath path slot = backupPath path other) : slot = other := by
  have digits : ∀ slot < backupSlots, ∀ other < backupSlots,
      toString slot = toString other → slot = other := by decide
  exact digits slot bound other otherBound (String.append_right_inj _ |>.mp same)

end Paths

end TerminalCanvas.Layout
