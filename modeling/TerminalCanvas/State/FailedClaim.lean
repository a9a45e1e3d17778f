import TerminalCanvas.State.RunLease

/-! # Claims that fail

A claim appends to a log and writes the marker anew, and each operation on a file may fail
or stop early. -/

namespace TerminalCanvas.RunMarker

/-! ## The log -/

def maxLogBytes : Nat := 128 * 1024

/-- A byte behind the first one of a character. -/
def continuation (byte : UInt8) : Bool := byte &&& 0xC0 = 0x80

/-- The part of a log from the first line on that starts in its second half. -/
def keptLog (contents : Bytes) : Bytes :=
  let tail := (contents.drop (contents.length / 2)).dropWhile continuation
  match tail.dropWhile (· ≠ 10) with
  | [] => tail
  | _ :: lines => lines

/-- `std::fs::write` of the marker. An opened file is empty, and a write that stops may leave
a part of a character, with which the file cannot be read. -/
inductive Overwrite where
  | notOpened
  | opened (count : Nat) (torn : Bool)

/-- What becomes of each operation of a claim. Counts are of what is written. -/
structure Operations where
  lock : Bool
  read : Bool
  alive : Nat → Bool
  metadata : Bool
  readLog : Bool
  trimLog : Option Nat
  openLog : Bool
  appendLog : Nat
  overwrite : Overwrite

structure RunFiles where
  marker : Marker
  log : Option Bytes

section Claim

variable (operations : Operations)

def trimLogIfNeeded : Option Bytes → Option Bytes
  | none => none
  | some contents =>
      if operations.metadata ∧ maxLogBytes < contents.length ∧ operations.readLog ∧
          (String.fromUTF8? ⟨contents.toArray⟩).isSome then
        match operations.trimLog with
        | none => some contents
        | some count => some ((keptLog contents).take count)
      else
        some contents

/-- A failed append is not an error of the claim. -/
def appendLog (line : String) (log : Option Bytes) : Option Bytes :=
  let log := trimLogIfNeeded operations log
  if operations.openLog then some (log.getD [] ++ (utf8Bytes line).take operations.appendLog)
  else log

def claimLine (timestamp previous : String) : String :=
  if (markerPid previous).any (processIsAlive operations.alive) then
    timestamp ++ " otra instancia tomó la lease de persistencia (marker anterior: " ++ previous ++
      ")\n"
  else
    timestamp ++ " corrida anterior murió sin cierre limpio (marker: " ++ previous ++ ")\n"

/-- The marker with a text written over it, and whether that was done to the end. -/
def overwriteMarker (contents : String) (marker : Marker) : Marker × Bool :=
  match operations.overwrite with
  | .notOpened => (marker, false)
  | .opened count torn =>
      if contents.length ≤ count then (.text contents, true)
      else if torn then (.unreadable, false)
      else (.text (String.ofList (contents.toList.take count)), false)

def tryClaimRunIn (files : RunFiles) (pid : Nat) (token : Uuid) (timestamp : String) :
    RunFiles × Except String (Option DirtyRun) :=
  if operations.lock then
    let found := if operations.read then files.marker.contents else none
    let log := match previousMarker found with
      | none => files.log
      | some previous => appendLog operations (claimLine operations timestamp previous) files.log
    match overwriteMarker operations (markerText pid token timestamp) files.marker with
    | (marker, true) => (⟨marker, log⟩, .ok (dirtyRun operations.alive found))
    | (marker, false) => (⟨marker, log⟩, .error "run.marker")
  else
    (files, .error "persistence ownership lock timed out")

end Claim

/-- Whether a durable write is admitted, or an error of the lock. -/
def acquireWriteGuard (lock read : Bool) (files : RunFiles) : Option Uuid → Except String Bool
  | none => .ok true
  | some token =>
      if lock then .ok (read && markerHasToken token files.marker)
      else .error "persistence ownership lock timed out"

/-- The instance gets the guard where the lock and the marker can be had. -/
def Admits (files : RunFiles) (token : Uuid) : Prop :=
  acquireWriteGuard true true files (some token) = .ok true

/-- The marker is opened, and so emptied, and not written to its end. -/
def Operations.Interrupted (operations : Operations) (contents : String) : Prop :=
  ∃ count torn, operations.overwrite = .opened count torn ∧ count < contents.length

theorem admits_iff {files : RunFiles} {token : Uuid} :
    Admits files token ↔ markerHasToken token files.marker = true := by
  rw [Admits, acquireWriteGuard, if_pos rfl, Bool.true_and, Except.ok.injEq]

section Overwriting

variable {operations : Operations} {contents : String} {marker : Marker}

theorem overwriteMarker_cases :
    (operations.overwrite = .notOpened ∧
      overwriteMarker operations contents marker = (marker, false)) ∨
    (¬ operations.Interrupted contents ∧
      overwriteMarker operations contents marker = (.text contents, true)) ∨
    (operations.Interrupted contents ∧
      (overwriteMarker operations contents marker = (.unreadable, false) ∨
        ∃ count, overwriteMarker operations contents marker =
          (.text (String.ofList (contents.toList.take count)), false))) := by
  unfold overwriteMarker
  cases opened : operations.overwrite with
  | notOpened => exact .inl ⟨rfl, rfl⟩
  | opened count torn =>
      right
      dsimp only
      split
      · next finished =>
          refine .inl ⟨?_, rfl⟩
          rintro ⟨other, tornOther, same, short⟩
          rw [opened] at same
          cases same
          omega
      · next short =>
          refine .inr ⟨⟨count, torn, opened, by omega⟩, ?_⟩
          cases torn with
          | true => exact .inl rfl
          | false => exact .inr ⟨count, rfl⟩

end Overwriting

section Failures

variable (operations : Operations) (files : RunFiles) (pid : Nat) (token : Uuid)
  (timestamp : String)

theorem tryClaimRunIn_error
    (fails : ∃ error, (tryClaimRunIn operations files pid token timestamp).2 = .error error) :
    (¬ (operations.lock = true ∧ operations.Interrupted (markerText pid token timestamp)) ∧
      (tryClaimRunIn operations files pid token timestamp).1.marker = files.marker) ∨
    ((operations.lock = true ∧ operations.Interrupted (markerText pid token timestamp)) ∧
      ((tryClaimRunIn operations files pid token timestamp).1.marker = .unreadable ∨
        ∃ count, (tryClaimRunIn operations files pid token timestamp).1.marker =
          .text (String.ofList ((markerText pid token timestamp).toList.take count)))) := by
  unfold tryClaimRunIn at fails ⊢
  by_cases lock : operations.lock = true
  · rw [if_pos lock] at fails ⊢
    rcases @overwriteMarker_cases operations (markerText pid token timestamp) files.marker with
      ⟨notOpened, same⟩ | ⟨finished, done⟩ | ⟨interrupted, torn | ⟨count, part⟩⟩
    · left
      rw [same]
      refine ⟨?_, rfl⟩
      rintro ⟨-, count, torn, opened, -⟩
      rw [notOpened] at opened
      cases opened
    · rw [done] at fails
      obtain ⟨error, fails⟩ := fails
      cases fails
    · right
      rw [torn]
      exact ⟨⟨lock, interrupted⟩, .inl rfl⟩
    · right
      rw [part]
      exact ⟨⟨lock, interrupted⟩, .inr ⟨count, rfl⟩⟩
  · rw [if_neg lock]
    exact .inl ⟨fun interrupted => lock interrupted.1, rfl⟩

theorem tryClaimRunIn_interrupted (lock : operations.lock = true)
    (interrupted : operations.Interrupted (markerText pid token timestamp)) :
    ∃ error, (tryClaimRunIn operations files pid token timestamp).2 = .error error := by
  obtain ⟨count, torn, opened, short⟩ := interrupted
  rw [tryClaimRunIn, if_pos lock, overwriteMarker, opened]
  dsimp only
  rw [if_neg (by omega)]
  cases torn with
  | true => exact ⟨_, rfl⟩
  | false => exact ⟨_, rfl⟩

/-- A failed claim leaves the owner in place unless it has opened the marker and not written
it to its end. -/
theorem failed_claim_keeps_owner_iff {owner : Uuid} (other : owner ≠ token)
    (owns : Admits files owner) :
    ((∃ error, (tryClaimRunIn operations files pid token timestamp).2 = .error error) →
      Admits (tryClaimRunIn operations files pid token timestamp).1 owner) ↔
    ¬ (operations.lock = true ∧ operations.Interrupted (markerText pid token timestamp)) := by
  constructor
  · rintro kept ⟨lock, interrupted⟩
    have fails := tryClaimRunIn_interrupted operations files pid token timestamp lock interrupted
    have named := admits_iff.mp (kept fails)
    rcases tryClaimRunIn_error operations files pid token timestamp fails with
      ⟨whole, -⟩ | ⟨-, torn | ⟨count, part⟩⟩
    · exact whole ⟨lock, interrupted⟩
    · rw [torn] at named
      cases named
    · rw [part] at named
      exact other (token_of_part named)
  · intro whole fails
    rcases tryClaimRunIn_error operations files pid token timestamp fails with
      ⟨-, same⟩ | ⟨interrupted, -⟩
    · rw [admits_iff, same]
      exact admits_iff.mp owns
    · exact absurd interrupted whole

/-! A claim on a full disk. -/

def fullDisk : Operations where
  lock := true
  read := true
  alive := fun _ => true
  metadata := true
  readLog := true
  trimLog := some 0
  openLog := true
  appendLog := 0
  overwrite := .opened 0 false

def ownedFiles : RunFiles where
  marker := .text (markerText 100 (.fromU128 1) "2026-08-05T00:00:00Z")
  log := none

theorem ownedFiles_admits : Admits ownedFiles (.fromU128 1) :=
  admits_iff.mpr (markerHasToken_markerText 100 (.fromU128 1) "2026-08-05T00:00:00Z")

theorem claim_without_lock_keeps_owner :
    ((∃ error, (tryClaimRunIn { fullDisk with lock := false } ownedFiles 200 (.fromU128 2)
        "2026-08-05T00:05:00Z").2 = .error error) →
      Admits (tryClaimRunIn { fullDisk with lock := false } ownedFiles 200 (.fromU128 2)
        "2026-08-05T00:05:00Z").1 (.fromU128 1)) ↔
    ¬ (false = true ∧ Operations.Interrupted { fullDisk with lock := false }
      (markerText 200 (.fromU128 2) "2026-08-05T00:05:00Z")) :=
  failed_claim_keeps_owner_iff { fullDisk with lock := false } ownedFiles 200 (.fromU128 2)
    "2026-08-05T00:05:00Z" (by decide) ownedFiles_admits

/-- The claim fails, and no instance owns the marker. -/
theorem full_disk_leaves_no_owner :
    Admits ownedFiles (.fromU128 1) ∧ (.fromU128 1 : Uuid) ≠ .fromU128 2 ∧
    (∃ error, (tryClaimRunIn fullDisk ownedFiles 200 (.fromU128 2)
      "2026-08-05T00:05:00Z").2 = .error error) ∧
    ∀ token, ¬ Admits (tryClaimRunIn fullDisk ownedFiles 200 (.fromU128 2)
      "2026-08-05T00:05:00Z").1 token := by
  have emptied : (tryClaimRunIn fullDisk ownedFiles 200 (.fromU128 2)
      "2026-08-05T00:05:00Z").1.marker = .text "" := by
    decide +kernel
  refine ⟨ownedFiles_admits, by decide, ?_, ?_⟩
  · exact tryClaimRunIn_interrupted fullDisk ownedFiles 200 (.fromU128 2) "2026-08-05T00:05:00Z"
      rfl ⟨0, false, rfl, by decide +kernel⟩
  · intro token admitted
    rw [admits_iff, emptied] at admitted
    exact absurd admitted (by simp [markerHasToken, splitWhitespace, words])

end Failures

end TerminalCanvas.RunMarker
