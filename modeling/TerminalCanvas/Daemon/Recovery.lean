import TerminalCanvas.Daemon.Client

/-! # Recovering a remote session

A panel whose session may still live in the daemon is attached to it, or given a
new session once the daemon has denied the old one. -/

namespace TerminalCanvas.Daemon

open HookAuthority

inductive RemoteSpawnIntent where
  | newBirth
  | adoptExisting
deriving DecidableEq, Repr

/-- A refusal and the identity that must survive it. -/
structure RemoteRecoveryError where
  sessionId : Uuid
  safeLocalFallback : Bool
  message : String
  /-- A closer over the endpoint is attached. -/
  closer : Bool
  retryIntent : RemoteSpawnIntent
  retryable : Bool
  mayClose : Bool
deriving DecidableEq, Repr

namespace RemoteRecoveryError

def isProtected (sessionId : Uuid) (message : String) : RemoteRecoveryError where
  sessionId := sessionId
  safeLocalFallback := false
  message := message
  closer := false
  retryIntent := .adoptExisting
  retryable := true
  mayClose := true

def birthPending (sessionId : Uuid) (message : String) (idempotent : Bool) :
    RemoteRecoveryError :=
  { isProtected sessionId message with
    retryIntent := .newBirth, retryable := idempotent, mayClose := idempotent }

def birthRejected (sessionId : Uuid) (message : String) : RemoteRecoveryError :=
  { birthPending sessionId message false with retryable := false, mayClose := false }

def withCloser (error : RemoteRecoveryError) : RemoteRecoveryError :=
  { error with closer := true }

def beforeCreation (sessionId : Uuid) (message : String) : RemoteRecoveryError where
  sessionId := sessionId
  safeLocalFallback := true
  message := message
  closer := false
  retryIntent := .newBirth
  retryable := true
  mayClose := false

end RemoteRecoveryError

/-- An error of the program: a recovery error that a caller can tell apart, or any other. -/
inductive AnyError where
  | recovery (error : RemoteRecoveryError)
  | other (message : String)
deriving DecidableEq, Repr

def AnyError.toText : AnyError → String
  | recovery error => error.message
  | other message => message

/-- `map_err` of a closure whose other errors become recovery errors. -/
def refuseAs {Value : Type} (refusal : String → RemoteRecoveryError) :
    Except AnyError Value → Except AnyError Value
  | .ok value => .ok value
  | .error (.recovery error) => .error (.recovery error)
  | .error (.other message) => .error (.recovery (refusal message))

structure ExistingSnapshot where
  snapshot : Bytes
  seq : Nat
  alive : Bool
  outputReady : Bool
  evidence : HostEvidence
deriving DecidableEq, Repr

def hookEvidence (runtime : Uuid) (generation : Option Uuid) (target : Option HostHookTarget) :
    HostEvidence :=
  ⟨runtime, generation, target⟩

def SnapshotFailureKind.debug : SnapshotFailureKind → String
  | tooLarge => "TooLarge"
  | unavailable => "Unavailable"
  | unknown => "Unknown"

section Recovery

variable (parsers : Parsers)

/-- The closure of `existing_snapshot` behind the answer to its Attach. -/
def existingFromAnswer (id : Uuid) (connection : Connection) :
    Response → Except AnyError (Option ExistingSnapshot) × Connection
  | .attached actual snapshot seq alive outputReady hookGeneration hookTarget =>
      if actual = id then
        (.ok (some ⟨snapshot, seq, alive, outputReady,
          hookEvidence id hookGeneration hookTarget⟩), connection)
      else
        (.error (.other "Respuesta inválida al recuperar la identidad remota."), connection)
  | .error message =>
      match snapshotFailureFromResponse parsers (.error message) with
      | some (failedId, kind) =>
          if failedId = id then
            (.error (.other ("La sesión remota existe, pero su pantalla sigue pendiente (" ++
              kind.debug ++ ").")), connection)
          else
            (.error (.other "El daemon devolvió un error de otra identidad."), connection)
      | none =>
          match connection.request parsers .list with
          | (.error message, after) => (.error (.other message), after)
          | (.ok (.sessions ids), after) =>
              if ids.contains id then
                (.error (.other
                  "La sesión remota existe, pero su pantalla no está disponible."), after)
              else
                (.ok none, after)
          | (.ok _, after) =>
              (.error (.other "El daemon no confirmó si la sesión remota existe."), after)
  | _ => (.error (.other "Respuesta inválida al recuperar la identidad remota."), connection)

/-- A completed Error can be followed by List; transport failures cannot. -/
def existingSnapshot (id : Uuid) (connection : Connection) :
    Except AnyError (Option ExistingSnapshot) × Connection :=
  match connection.request parsers (.attach id) with
  | (.error message, after) =>
      (refuseAs (RemoteRecoveryError.isProtected id) (.error (.other message)), after)
  | (.ok answer, after) =>
      let (result, after) := existingFromAnswer parsers id after answer
      (refuseAs (RemoteRecoveryError.isProtected id) result, after)

/-- The closure of `spawn_then_snapshot` behind the answer to its Attach. -/
def spawnedFromAnswer (id : Uuid) : Response → Except AnyError ExistingSnapshot
  | .attached actual snapshot seq alive outputReady hookGeneration hookTarget =>
      if actual = id then
        .ok ⟨snapshot, seq, alive, outputReady, hookEvidence id hookGeneration hookTarget⟩
      else
        .error (.other "Respuesta inválida al recuperar la sesión creada.")
  | .error message =>
      match snapshotFailureFromResponse parsers (.error message) with
      | some (failedId, kind) =>
          if failedId = id then
            .error (.other ("La sesión fue creada, pero su pantalla sigue pendiente (" ++
              kind.debug ++ ")."))
          else
            .error (.other "El daemon devolvió un error de otra identidad.")
      | none => .error (.other "La sesión fue creada, pero su pantalla sigue pendiente.")
  | _ => .error (.other "Respuesta inválida al recuperar la sesión creada.")

def spawnThenSnapshot (spec : WireSpec) (id : Uuid) (connection : Connection) :
    Except AnyError ExistingSnapshot × Connection :=
  let pending message := RemoteRecoveryError.birthPending id message true
  match connection.request parsers (.spawn spec (some id)) with
  | (.error message, after) => (refuseAs pending (.error (.other message)), after)
  | (.ok spawned, after) =>
      if birthRejectedFromResponse parsers spawned = some id then
        (.error (.recovery (RemoteRecoveryError.birthRejected id
          ("La identidad de nacimiento fue rechazada; no se adquieren derechos sobre " ++
            "otra sesión."))), after)
      else if spawned ≠ .spawned id then
        (refuseAs pending (.error (.other
          "No se confirmó la creación remota; se recuperará la misma identidad.")), after)
      else
        match after.request parsers (.attach id) with
        | (.error message, after) => (refuseAs pending (.error (.other message)), after)
        | (.ok answer, after) => (refuseAs pending (spawnedFromAnswer parsers id answer), after)

/-! ## The whole recovery -/

structure SessionSpec where
  workspaceId : Option Uuid
  panelId : Option Uuid
  leafId : Option Uuid
  memoryTaskId : Option Uuid
  hookLegacyRoot : Bool
deriving DecidableEq, Repr

def wireSpecFrom (spec : SessionSpec) (cols rows : Nat) : WireSpec where
  hookGeneration := none
  hookOwner := none
  panelId := spec.panelId
  workspaceId := spec.workspaceId
  leafId := spec.leafId
  cols := max cols 1
  rows := max rows 1

def specKey (spec : SessionSpec) : Option LeafKey := do
  pure ⟨← spec.workspaceId, ← spec.panelId, ← spec.leafId⟩

/-- A missing component is a protected error, never an unscoped fallback. -/
def remoteBindingKey (spec : SessionSpec) : Except String (Option LeafKey) :=
  if spec.workspaceId.isNone && spec.panelId.isNone && spec.leafId.isNone &&
      spec.memoryTaskId.isNone && !spec.hookLegacyRoot then
    .ok none
  else
    match specKey spec with
    | some key => .ok (some key)
    | none => .error "managed remote target incomplete"

/-- What the process answers in the course of a recovery. -/
structure Process where
  clientId : Uuid
  /-- The three clones of the stream, in order. -/
  cloneStream : Nat → Except String Unit
  /-- The owner of the hook runtime of the process; `none` without one. -/
  hookRuntime : Option Uuid
  authorizeBirth : LeafKey → Uuid → Except String (Option Uuid)
  attachHook : LeafKey → HostEvidence → Bool → Except String Unit
  attachRemote : ExistingSnapshot → Except String Unit

structure RemoteSpawnResult where
  sessionId : Uuid
  outputReady : Bool
  ownedBirth : Bool
deriving DecidableEq, Repr

def birthSpec (process : Process) (capabilities : BirthCapabilities) (key : Option LeafKey)
    (wire : WireSpec) (id : Uuid) : Except AnyError WireSpec :=
  match key with
  | some key =>
      if capabilities.permitsHookBirth = false then
        .error (.recovery (RemoteRecoveryError.birthRejected id
          ("La creación remota requiere actualizar el daemon para confirmar idempotencia " ++
            "y cancelación por UUID.")))
      else
        match process.hookRuntime with
        | none => .error (.other "hook endpoint unavailable")
        | some owner =>
            if owner ≠ process.clientId then
              .error (.other "remote endpoint owner mismatch")
            else
              match process.authorizeBirth key id with
              | .error message => .error (.other message)
              | .ok generation => .ok { wire with hookGeneration := generation }
  | none =>
      if capabilities.permitsBirth then .ok wire
      else .error (.other "daemon lacks idempotent creation")

/-- Binds the hooks and builds the handle. -/
def adoptSnapshot (process : Process) (spec : SessionSpec) (key : Option LeafKey) (id : Uuid)
    (birth : Bool) (snapshot : ExistingSnapshot) : Except AnyError RemoteSpawnResult :=
  let bound : Except AnyError Unit :=
    match key with
    | some key =>
        match process.hookRuntime with
        | none => .error (.other "hook endpoint unavailable")
        | some _ =>
            match process.attachHook key snapshot.evidence spec.hookLegacyRoot with
            | .error message => .error (.other message)
            | .ok () => .ok ()
    | none =>
        if snapshot.evidence.generation.isNone && snapshot.evidence.target.isNone then .ok ()
        else .error (.other "an unscoped client cannot adopt managed hook authority")
  match bound with
  | .error error => .error error
  | .ok () =>
      match process.cloneStream 2 with
      | .error message => .error (.other message)
      | .ok () =>
          match process.attachRemote snapshot with
          | .error message => .error (.other message)
          | .ok () => .ok ⟨id, snapshot.outputReady, birth⟩

/-- The closure of `recover_remote` from a licensed birth on. -/
def giveBirth (process : Process) (spec : SessionSpec) (cols rows : Nat)
    (capabilities : BirthCapabilities) (key : Option LeafKey) (id : Uuid)
    (connection : Connection) : Except AnyError RemoteSpawnResult × Connection :=
  match birthSpec process capabilities key (wireSpecFrom spec cols rows) id with
  | .error error => (.error error, connection)
  | .ok wire =>
      match spawnThenSnapshot parsers wire id connection with
      | (.error error, after) => (.error error, after)
      | (.ok snapshot, after) => (adoptSnapshot process spec key id true snapshot, after)

/-- What a recovery finds of the session: its snapshot, or nothing. -/
def findExisting (cols rows : Nat) (id : Uuid) (birth : Bool) (connection : Connection) :
    Except AnyError (Option ExistingSnapshot) × Connection :=
  if birth then
    (.ok none, connection)
  else
    match connection.request parsers (.resize id (max cols 1) (max rows 1)) with
    | (.error message, after) => (.error (.other message), after)
    | (.ok (.sessions _), after) | (.ok (.error _), after) => existingSnapshot parsers id after
    | (.ok _, after) =>
        (.error (.other "Respuesta inválida al redimensionar la sesión."), after)

/-- The closure of `recover_remote`, with what becomes of its `birth`. -/
def recoverOperation (process : Process) (spec : SessionSpec) (cols rows : Nat)
    (capabilities : BirthCapabilities) (key : Option LeafKey) (id : Uuid) (birth : Bool)
    (connection : Connection) : Except AnyError RemoteSpawnResult × Bool × Connection :=
  match process.cloneStream 0, process.cloneStream 1 with
  | .error message, _ => (.error (.other message), birth, connection)
  | .ok (), .error message => (.error (.other message), birth, connection)
  | .ok (), .ok () =>
      match findExisting parsers cols rows id birth connection with
      | (.error error, after) => (.error error, birth, after)
      | (.ok (some snapshot), after) =>
          (adoptSnapshot process spec key id birth snapshot, birth, after)
      | (.ok none, after) =>
          let (result, after) :=
            giveBirth parsers process spec cols rows capabilities key id after
          (result, true, after)

/-- Only a genuinely fresh failure before the Spawn may degrade locally. -/
def recoverRemote (process : Process) (spec : SessionSpec) (cols rows : Nat) (id : Uuid)
    (intent : RemoteSpawnIntent) (connected : Option (BirthCapabilities × Connection)) :
    Except RemoteRecoveryError RemoteSpawnResult × Option Connection :=
  match connected with
  | none =>
      if intent = .newBirth then
        (.error (RemoteRecoveryError.beforeCreation id
          "No se pudo conectar al daemon antes de crear la sesión."), none)
      else
        (.error (RemoteRecoveryError.isProtected id
          "La sesión remota sigue pendiente: el daemon no responde.").withCloser, none)
  | some (capabilities, connection) =>
      match remoteBindingKey spec with
      | .error message =>
          (.error (RemoteRecoveryError.isProtected id message).withCloser, some connection)
      | .ok key =>
          match recoverOperation parsers process spec cols rows capabilities key id
              (intent = .newBirth) connection with
          | (.ok result, _, after) => (.ok result, some after)
          | (.error error, birth, after) =>
              let refusal :=
                if key.isNone && birth then
                  RemoteRecoveryError.birthPending id error.toText false
                else
                  match error with
                  | .recovery typed => typed
                  | .other message =>
                      if birth then
                        RemoteRecoveryError.birthPending id message capabilities.permitsBirth
                      else
                        RemoteRecoveryError.isProtected id message
              (.error refusal.withCloser, some after)

end Recovery

end TerminalCanvas.Daemon
