import TerminalCanvas.Foundation.LittleEndian
import TerminalCanvas.HookAuthority.Claim

/-! # The protocol of the daemon

Requests, responses and the error texts that carry a meaning. -/

namespace TerminalCanvas.Daemon

open HookAuthority

def protocolVersion : Nat := 4

def maxProtocolLineBytes : Nat := 8 * 1024 * 1024

structure WireSpec where
  hookGeneration : Option Uuid
  /-- Captured from the authenticated handshake, never deserialized. -/
  hookOwner : Option Uuid
  panelId : Option Uuid
  workspaceId : Option Uuid
  leafId : Option Uuid
  cols : Nat
  rows : Nat
deriving DecidableEq, Repr

def WireSpec.default : WireSpec := ⟨none, none, none, none, none, 80, 24⟩

/-- The leaf a managed session belongs to; `none` for an unmanaged one. -/
def hostTargetFromSpec (spec : WireSpec) : Option HostHookTarget := do
  pure ⟨← spec.workspaceId, ← spec.panelId, ← spec.leafId⟩

inductive Request where
  | hello (version : Nat) (token : String) (clientId : Uuid)
  | spawn (spec : WireSpec) (id : Option Uuid)
  | attach (id : Uuid)
  | write (id : Uuid) (data : Bytes)
  | resize (id : Uuid) (cols rows : Nat)
  | kill (id : Uuid)
  | closeBirth (id : Uuid)
  | setPriority (id : Option Uuid)
  | list
  | reconcileLive (ids : List Uuid)
  | shutdownIfIdle
deriving DecidableEq, Repr

inductive Response where
  | welcome (version : Nat) (birthIdempotent birthCancelSafe hookBirthAuthority : Bool)
  | spawned (id : Uuid)
  | attached (id : Uuid) (snapshot : Bytes) (seq : Nat) (alive outputReady : Bool)
      (hookGeneration : Option Uuid) (hookTarget : Option HostHookTarget)
  | sessions (ids : List Uuid)
  | output (id : Uuid) (seq : Nat) (data : Bytes)
  | exit (id : Uuid)
  | inputError (id : Uuid) (message : String)
  | killed (id : Uuid)
  | reconciled (killed : List Uuid)
  | shuttingDown
  | error (message : String)
deriving DecidableEq, Repr

/-! ## Meaningful errors -/

inductive SnapshotFailureKind where
  | tooLarge
  | unavailable
  | unknown
deriving DecidableEq, Repr

def SnapshotFailureKind.name : SnapshotFailureKind → String
  | tooLarge => "too_large"
  | unavailable => "unavailable"
  | unknown => "unknown"

def snapshotFailureResponse (id : Uuid) (kind : SnapshotFailureKind) : Response :=
  .error ("terminal_canvas_snapshot_failure_v1:" ++
    "\x7b\"id\":\"" ++ id.display ++ "\",\"kind\":\"" ++ kind.name ++ "\"\x7d")

def birthRejectedResponse (id : Uuid) : Response :=
  .error ("terminal_canvas_birth_rejected_v1:" ++ id.display)

def closePendingResponse (id : Uuid) : Response :=
  .error ("terminal_canvas_close_pending_v1:" ++ id.display)

def unknownSessionResponse (id : Uuid) : Response :=
  .error ("sesión desconocida: " ++ id.display)

/-! ## Lines

The length of a serialized response, its final line feed apart, is a parameter. -/

section Lines

variable (jsonLength : Response → Nat)

def snapshotPayloadBudget (id : Uuid) (maxLineBytes : Nat) : Option Nat :=
  let attached := jsonLength (.attached id [] u64Max false false (some .nil)
    (some ⟨.nil, .nil, .nil⟩)) + 1
  let repair := jsonLength (.output id u64Max []) + 1
  if max attached repair ≤ maxLineBytes then
    some ((maxLineBytes - max attached repair) / 4 * 3)
  else
    none

/-- Reserve the exact metadata bytes before exporting the semantic state. -/
def snapshotAnsiBudget (id : Uuid) (metadataBytes maxLineBytes : Nat) : Option Nat := do
  let budget ← snapshotPayloadBudget jsonLength id maxLineBytes
  if metadataBytes ≤ budget then some (budget - metadataBytes) else none

def payloadFits (response : Response) (maxLineBytes : Nat) : Bool :=
  match response with
  | .attached id payload .. | .output id _ payload =>
      payload.length ≤ (snapshotPayloadBudget jsonLength id maxLineBytes).getD 0
  | _ => true

/-- `encode_response_line_with_limit` succeeds. -/
def encodesWithin (response : Response) (maxLineBytes : Nat) : Bool :=
  payloadFits jsonLength response maxLineBytes &&
    (maxLineBytes ≠ 0 && jsonLength response ≤ maxLineBytes - 1)

end Lines

end TerminalCanvas.Daemon
