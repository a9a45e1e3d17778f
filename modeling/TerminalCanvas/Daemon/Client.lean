import TerminalCanvas.Daemon.Protocol
import TerminalCanvas.Foundation.Text

/-! # A client's requests

One request and its answer on a connection. What the daemon side sends is an
arbitrary byte string and an ending; the JSON and UUID parsers are parameters. -/

namespace TerminalCanvas.Daemon

structure Parsers where
  response : String → Option Response
  snapshotFailureDetails : String → Option (Uuid × SnapshotFailureKind)
  uuid : String → Option Uuid

section Parsing

variable (parsers : Parsers)

def decodeLine (line : String) : Option Response :=
  let trimmed := trim line
  if trimmed.isEmpty then none else parsers.response trimmed

def snapshotFailureFromResponse : Response → Option (Uuid × SnapshotFailureKind)
  | .error message =>
      (stripPrefix message "terminal_canvas_snapshot_failure_v1:").bind
        parsers.snapshotFailureDetails
  | _ => none

def birthRejectedFromResponse : Response → Option Uuid
  | .error message =>
      (stripPrefix message "terminal_canvas_birth_rejected_v1:").bind parsers.uuid
  | _ => none

end Parsing

def isPushedEvent : Response → Bool
  | .output .. | .exit _ | .inputError .. => true
  | _ => false

structure BirthCapabilities where
  idempotent : Bool
  cancelSafe : Bool
  hookAuthority : Bool
deriving DecidableEq, Repr

namespace BirthCapabilities

def permitsBirth (capabilities : BirthCapabilities) : Bool :=
  capabilities.idempotent && capabilities.cancelSafe

def permitsHookBirth (capabilities : BirthCapabilities) : Bool :=
  capabilities.permitsBirth && capabilities.hookAuthority

end BirthCapabilities

/-! ## Connections -/

/-- How the incoming bytes end: the daemon side closes, or a read fails. -/
inductive Ending where
  | eof
  | failed (message : String)
deriving DecidableEq, Repr

structure Connection where
  incoming : Bytes
  ending : Ending
  /-- The failures of the coming writes; a write without an entry succeeds. -/
  writes : List (Option String)
  /-- Every request handed to the writer, whether or not it got through. -/
  requested : List Request
deriving DecidableEq, Repr

def lineFeed : UInt8 := 10

/-- `take(limit).read_until(LF)`: what is read and what remains; `none` when the
read fails first. -/
def readUntil (limit : Nat) (incoming : Bytes) (ending : Ending) : Except String (Bytes × Bytes) :=
  let window := incoming.take limit
  let body := window.takeWhile (· ≠ lineFeed)
  if body.length < window.length then
    .ok (incoming.splitAt (body.length + 1))
  else if window.length = limit then
    .ok (incoming.splitAt limit)
  else
    match ending with
    | .eof => .ok (incoming, [])
    | .failed message => .error message

def readProtocolLineWithLimit (maxBytes : Nat) (incoming : Bytes) (ending : Ending) :
    Except String (Option (String × Bytes)) :=
  if u64Max < maxBytes + 1 then
    .error "límite inválido"
  else
    match readUntil (maxBytes + 1) incoming ending with
    | .error message => .error message
    | .ok (bytes, rest) =>
        if bytes.isEmpty then
          .ok none
        else if maxBytes < bytes.length then
          .error "línea del protocolo demasiado grande"
        else
          match String.fromUTF8? ⟨bytes.toArray⟩ with
          | some line => .ok (some (line, rest))
          | none => .error "línea del protocolo no es UTF-8"

def readProtocolLine (incoming : Bytes) (ending : Ending) :
    Except String (Option (String × Bytes)) :=
  readProtocolLineWithLimit maxProtocolLineBytes incoming ending

section Requests

variable (parsers : Parsers)

/-- The loop of `request`. Every turn reads at least one byte. -/
def awaitResponse (ending : Ending) : (fuel : Nat) → Bytes → Except String Response × Bytes
  | 0, incoming => (.error "el daemon cerró la conexión", incoming)
  | fuel + 1, incoming =>
      match readProtocolLine incoming ending with
      | .error message => (.error message, incoming)
      | .ok none => (.error "el daemon cerró la conexión", incoming)
      | .ok (some (line, rest)) =>
          match decodeLine parsers line with
          | none =>
              (.error "El daemon devolvió una línea inválida; se abandona esta conexión.", rest)
          | some response =>
              if isPushedEvent response then
                awaitResponse ending fuel rest
              else
                (.ok response, rest)

namespace Connection

/-- `write_all` and `flush`. -/
def write (connection : Connection) (request : Request) : Except String Unit × Connection :=
  let handed := { connection with
    writes := connection.writes.tail, requested := connection.requested ++ [request] }
  match connection.writes.head? with
  | some (some message) => (.error message, handed)
  | _ => (.ok (), handed)

def request (connection : Connection) (request : Request) :
    Except String Response × Connection :=
  match connection.write request with
  | (.error message, handed) => (.error message, handed)
  | (.ok (), handed) =>
      let (answer, rest) :=
        awaitResponse parsers handed.ending (handed.incoming.length + 1) handed.incoming
      (answer, { handed with incoming := rest })

end Connection

end Requests

end TerminalCanvas.Daemon
