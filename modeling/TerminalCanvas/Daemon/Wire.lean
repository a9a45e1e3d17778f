import TerminalCanvas.Daemon.Client
import TerminalCanvas.Foundation.Base64
import TerminalCanvas.Foundation.Json

/-! # Lines on the wire

The JSON of every response, the bounded sink it is serialized into, and the writer of a
connection that only ever sees complete lines. -/

namespace TerminalCanvas.Daemon

open HookAuthority

/-! ## The JSON of a response -/

def uuidText (id : Uuid) : List Char := Json.string id.display.toList

def bytesText (data : Bytes) : List Char := Json.string (Base64.encode data)

def hookTargetText (target : HostHookTarget) : List Char :=
  Json.object [Json.member "workspace_id" (uuidText target.workspaceId),
    Json.member "panel_id" (uuidText target.panelId),
    Json.member "leaf_id" (uuidText target.leafId)]

def tag (name : String) : List Char := Json.member "type" (Json.string name.toList)

/-- The members of an attached session. The last two are left out when absent. -/
def attachedMembers (id : Uuid) (snapshot : Bytes) (seq : Nat) (alive outputReady : Bool)
    (hookGeneration : Option Uuid) (hookTarget : Option HostHookTarget) : List (List Char) :=
  [tag "attached", Json.member "id" (uuidText id), Json.member "snapshot" (bytesText snapshot),
    Json.member "seq" (Json.number seq), Json.member "alive" (Json.bool alive),
    Json.member "output_ready" (Json.bool outputReady)] ++
    (hookGeneration.map fun generation =>
      Json.member "hook_generation" (uuidText generation)).toList ++
    (hookTarget.map fun target => Json.member "hook_target" (hookTargetText target)).toList

def Response.members : Response → List (List Char)
  | .welcome version birthIdempotent birthCancelSafe hookBirthAuthority =>
      [tag "welcome", Json.member "version" (Json.number version),
        Json.member "birth_idempotent" (Json.bool birthIdempotent),
        Json.member "birth_cancel_safe" (Json.bool birthCancelSafe),
        Json.member "hook_birth_authority" (Json.bool hookBirthAuthority)]
  | .spawned id => [tag "spawned", Json.member "id" (uuidText id)]
  | .attached id snapshot seq alive outputReady hookGeneration hookTarget =>
      attachedMembers id snapshot seq alive outputReady hookGeneration hookTarget
  | .sessions ids => [tag "sessions", Json.member "ids" (Json.array (ids.map uuidText))]
  | .output id seq data =>
      [tag "output", Json.member "id" (uuidText id), Json.member "seq" (Json.number seq),
        Json.member "data" (bytesText data)]
  | .exit id => [tag "exit", Json.member "id" (uuidText id)]
  | .inputError id message =>
      [tag "input_error", Json.member "id" (uuidText id),
        Json.member "message" (Json.string message.toList)]
  | .killed id => [tag "killed", Json.member "id" (uuidText id)]
  | .reconciled ids =>
      [tag "reconciled", Json.member "killed" (Json.array (ids.map uuidText))]
  | .shuttingDown => [tag "shutting_down"]
  | .error message => [tag "error", Json.member "message" (Json.string message.toList)]

def Response.text (response : Response) : List Char := Json.object response.members

/-- `encode_line`: the JSON and a line feed. -/
def encodeLine (response : Response) : String :=
  String.ofList (response.text ++ [Char.ofNat 0x0A])

/-- The bytes of the JSON, without the line feed. -/
def Response.bytes (response : Response) : Bytes :=
  response.text.flatMap String.utf8EncodeChar

def jsonLength (response : Response) : Nat := response.bytes.length

theorem utf8Bytes_encodeLine (response : Response) :
    utf8Bytes (encodeLine response) = response.bytes ++ [lineFeed] := by
  rw [encodeLine, utf8Bytes_ofList, List.flatMap_append]
  rfl

/-! ## One line

Neither the JSON nor anything in it holds a line feed. -/

theorem printable_tag (name : String) : Json.Printable (tag name) :=
  Json.printable_member _ (Json.printable_string _)

theorem printable_uuidMember (name : String) (id : Uuid) :
    Json.Printable (Json.member name (uuidText id)) :=
  Json.printable_member _ (Json.printable_string _)

theorem printable_uuids (ids : List Uuid) : Json.Printable (Json.array (ids.map uuidText)) := by
  apply Json.printable_array
  intro item member
  obtain ⟨id, -, rfl⟩ := List.mem_map.mp member
  exact Json.printable_string _

theorem printable_hookTargetText (target : HostHookTarget) :
    Json.Printable (hookTargetText target) := by
  apply Json.printable_object
  simp only [List.forall_mem_cons]
  exact ⟨printable_uuidMember _ _, printable_uuidMember _ _, printable_uuidMember _ _,
    fun _ member => nomatch member⟩

theorem printable_attachedMembers (id : Uuid) (snapshot : Bytes) (seq : Nat)
    (alive outputReady : Bool) (hookGeneration : Option Uuid)
    (hookTarget : Option HostHookTarget) :
    ∀ text ∈ attachedMembers id snapshot seq alive outputReady hookGeneration hookTarget,
      Json.Printable text := by
  simp only [attachedMembers, List.forall_mem_append, List.forall_mem_cons]
  refine ⟨⟨⟨printable_tag _, printable_uuidMember _ _,
    Json.printable_member _ (Json.printable_string _),
    Json.printable_member _ (Json.printable_number _),
    Json.printable_member _ (Json.printable_bool _),
    Json.printable_member _ (Json.printable_bool _), fun _ member => nomatch member⟩, ?_⟩, ?_⟩
  · cases hookGeneration with
    | none => exact fun _ member => nomatch member
    | some generation =>
        intro text member
        rw [List.mem_singleton.mp member]
        exact printable_uuidMember _ _
  · cases hookTarget with
    | none => exact fun _ member => nomatch member
    | some target =>
        intro text member
        rw [List.mem_singleton.mp member]
        exact Json.printable_member _ (printable_hookTargetText target)

theorem printable_text (response : Response) : Json.Printable response.text := by
  have finished : ∀ text ∈ ([] : List (List Char)), Json.Printable text :=
    fun _ member => nomatch member
  apply Json.printable_object
  cases response with
  | welcome version birthIdempotent birthCancelSafe hookBirthAuthority =>
      simp only [Response.members, List.forall_mem_cons]
      exact ⟨printable_tag _, Json.printable_member _ (Json.printable_number _),
        Json.printable_member _ (Json.printable_bool _),
        Json.printable_member _ (Json.printable_bool _),
        Json.printable_member _ (Json.printable_bool _), finished⟩
  | spawned id | exit id | killed id =>
      simp only [Response.members, List.forall_mem_cons]
      exact ⟨printable_tag _, printable_uuidMember _ _, finished⟩
  | attached id snapshot seq alive outputReady hookGeneration hookTarget =>
      exact printable_attachedMembers id snapshot seq alive outputReady hookGeneration hookTarget
  | sessions ids | reconciled ids =>
      simp only [Response.members, List.forall_mem_cons]
      exact ⟨printable_tag _, Json.printable_member _ (printable_uuids ids), finished⟩
  | output id seq data =>
      simp only [Response.members, List.forall_mem_cons]
      exact ⟨printable_tag _, printable_uuidMember _ _,
        Json.printable_member _ (Json.printable_number _),
        Json.printable_member _ (Json.printable_string _), finished⟩
  | inputError id message =>
      simp only [Response.members, List.forall_mem_cons]
      exact ⟨printable_tag _, printable_uuidMember _ _,
        Json.printable_member _ (Json.printable_string _), finished⟩
  | shuttingDown =>
      simp only [Response.members, List.forall_mem_cons]
      exact ⟨printable_tag _, finished⟩
  | error message =>
      simp only [Response.members, List.forall_mem_cons]
      exact ⟨printable_tag _, Json.printable_member _ (Json.printable_string _), finished⟩

theorem lineFeed_not_mem_bytes (response : Response) : lineFeed ∉ response.bytes := by
  intro member
  obtain ⟨character, characterIn, byteIn⟩ := List.mem_flatMap.mp member
  have printable := printable_text response character characterIn
  have code : lineFeed.toNat = 10 := rfl
  rcases mem_utf8EncodeChar byteIn with ascii | high <;> omega

/-! ## The bounded sink -/

structure LineBytes where
  bytes : Bytes
  maxBytes : Nat
deriving DecidableEq, Repr

def LineBytes.write (line : LineBytes) (bytes : Bytes) : Except String LineBytes :=
  if line.maxBytes - line.bytes.length < bytes.length then
    .error "respuesta del daemon demasiado grande"
  else
    .ok { line with bytes := line.bytes ++ bytes }

/-- Every piece is written in turn; the first failure ends it. -/
def LineBytes.writeAll : LineBytes → List Bytes → Except String LineBytes
  | line, [] => .ok line
  | line, piece :: pieces =>
      match line.write piece with
      | .error message => .error message
      | .ok written => written.writeAll pieces

/-- How the serializer cuts the JSON into writes. -/
structure Serializer where
  pieces : Response → List Bytes
  flatten_pieces : ∀ response, (pieces response).flatten = response.bytes

theorem LineBytes.writeAll_eq_write (pieces : List Bytes) :
    ∀ line : LineBytes, line.bytes.length ≤ line.maxBytes →
      line.writeAll pieces = line.write pieces.flatten := by
  induction pieces with
  | nil => intro line _; simp [writeAll, write]
  | cons piece pieces induction =>
      intro line within
      rw [writeAll, List.flatten_cons]
      by_cases tooLong : line.maxBytes - line.bytes.length < piece.length
      · have wholeTooLong : line.maxBytes - line.bytes.length <
            (piece ++ pieces.flatten).length := by
          rw [List.length_append]
          omega
        rw [write, if_pos tooLong, write, if_pos wholeTooLong]
      · rw [write, if_neg tooLong]
        dsimp only
        rw [induction _ (by simp only [List.length_append]; omega)]
        unfold write
        simp only [List.length_append, List.append_assoc]
        split <;> split <;> first | rfl | omega

section Encoding

variable (serializer : Serializer)

def encodeResponseLineWithLimit (response : Response) (maxLineBytes : Nat) :
    Except String Bytes :=
  if payloadFits jsonLength response maxLineBytes then
    if maxLineBytes = 0 then
      .error "límite del protocolo inválido"
    else
      match LineBytes.writeAll ⟨[], maxLineBytes - 1⟩ (serializer.pieces response) with
      | .error message => .error message
      | .ok line => .ok (line.bytes ++ [lineFeed])
  else
    .error "respuesta binaria del daemon demasiado grande"

theorem writeAll_pieces (response : Response) (maxBytes : Nat) :
    LineBytes.writeAll ⟨[], maxBytes⟩ (serializer.pieces response) =
      if maxBytes < jsonLength response then
        .error "respuesta del daemon demasiado grande"
      else
        .ok ⟨response.bytes, maxBytes⟩ := by
  rw [LineBytes.writeAll_eq_write _ _ (Nat.zero_le _), serializer.flatten_pieces]
  rfl

theorem encodeResponseLineWithLimit_eq_ok {response : Response} {maxLineBytes : Nat}
    {line : Bytes} :
    encodeResponseLineWithLimit serializer response maxLineBytes = .ok line ↔
      encodesWithin jsonLength response maxLineBytes = true ∧
        response.bytes ++ [lineFeed] = line := by
  unfold encodeResponseLineWithLimit encodesWithin
  rw [writeAll_pieces]
  by_cases fits : payloadFits jsonLength response maxLineBytes = true
  · rw [if_pos fits, fits]
    by_cases zero : maxLineBytes = 0
    · simp [zero]
    · by_cases tooLong : maxLineBytes - 1 < jsonLength response
      · simp [zero, tooLong]
      · simp [zero, tooLong, Nat.le_of_not_lt tooLong]
  · rw [if_neg fits]
    simp [fits]

theorem encodesWithin_eq_false_of_over {response : Response} {maxLineBytes : Nat}
    (oversized : maxLineBytes < jsonLength response + 1) :
    encodesWithin jsonLength response maxLineBytes = false := by
  have refused : ¬ (maxLineBytes ≠ 0 ∧ jsonLength response ≤ maxLineBytes - 1) := by omega
  unfold encodesWithin
  rw [Bool.and_eq_false_iff]
  right
  rw [← Bool.not_eq_true, Bool.and_eq_true, decide_eq_true_eq, decide_eq_true_eq]
  exact refused

theorem encodeResponseLineWithLimit_eq_error_of_over {response : Response} {maxLineBytes : Nat}
    (oversized : maxLineBytes < jsonLength response + 1) :
    ∃ message, encodeResponseLineWithLimit serializer response maxLineBytes = .error message := by
  cases encoded : encodeResponseLineWithLimit serializer response maxLineBytes with
  | error message => exact ⟨message, rfl⟩
  | ok line =>
      have accepted := ((encodeResponseLineWithLimit_eq_ok serializer).mp encoded).1
      rw [encodesWithin_eq_false_of_over oversized] at accepted
      cases accepted

/-! ## The writer of a connection -/

structure StreamWriter where
  poisoned : Bool
  sent : Bytes
  isShutDown : Bool
  /-- The failures of the coming writes, with the bytes that get through before them. A
  write without an entry succeeds. -/
  failures : List (Option (Nat × String))
deriving DecidableEq, Repr

/-- `write_all` and `flush` under the lock. -/
def StreamWriter.write (writer : StreamWriter) (line : Bytes) :
    Except String Unit × StreamWriter :=
  if writer.poisoned then
    (.error "escritor del daemon envenenado", writer)
  else
    match writer.failures.head? with
    | some (some (through, message)) =>
        (.error message, { writer with
          sent := writer.sent ++ line.take through, failures := writer.failures.tail })
    | _ => (.ok (), { writer with
        sent := writer.sent ++ line, failures := writer.failures.tail })

def withEncodedResponse (response : Response) (lineLimit : Nat) (writer : StreamWriter) :
    Except String Unit × StreamWriter :=
  match encodeResponseLineWithLimit serializer response lineLimit with
  | .error message => (.error message, writer)
  | .ok line => writer.write line

def writeResponse (writer : StreamWriter) (response : Response) :
    Except String Unit × StreamWriter :=
  match withEncodedResponse serializer response maxProtocolLineBytes writer with
  | (.error message, handed) => (.error message, { handed with isShutDown := true })
  | (.ok (), handed) => (.ok (), handed)

end Encoding

end TerminalCanvas.Daemon
