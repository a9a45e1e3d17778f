import TerminalCanvas.Conversation.Store

/-! # Transfers between conversations

A transfer is sent, approved when it needs a user's consent, claimed for its target,
delivered and answered. -/

namespace TerminalCanvas.Conversations

open Fallible

/-! ## Reading transfers -/

def Tables.transfer (tables : Tables) (id : Uuid) : Option TransferRow :=
  tables.transfers.find? fun row => row.id = id

def checkTransferAccess (tables : Tables) (caller : Caller) (transfer : Transfer) :
    Except StoreError Unit :=
  match caller.agentId with
  | none => .ok ()
  | some own => do
      let _ ← authorize tables caller own
      ensure (own = transfer.sourceId ∨ own = transfer.targetId)
        (.message "La operación pertenece a otros chats")

def readTransfer (tables : Tables) (caller : Caller) (id : Uuid) : Except StoreError Transfer := do
  let row ← require (tables.transfer id) .noRows
  checkTransferAccess tables caller row.data
  pure row.data

/-! ## Changing states -/

/-- The rows an update of this transfer in this state changes. -/
def updates (previous : TransferState) (next : Transfer) (row : TransferRow) : Bool :=
  row.id = next.id && row.state = previous

def update (transfers : List TransferRow) (previous : TransferState) (next : Transfer) :
    List TransferRow :=
  transfers.map fun row =>
    if updates previous next row then { row with state := next.state, data := next } else row

/-- Store a transfer in its new state, unless its row left the previous one. -/
def storeTransfer (tables : Tables) (previous : TransferState) (next : Transfer)
    (otherwise : String) : Except StoreError Tables := do
  ensure (tables.transfers.countP (updates previous next) = 1) (.message otherwise)
  pure { tables with transfers := update tables.transfers previous next }

def transition (tables : Tables) (transfer : Transfer) (next : TransferState)
    (error : Option String) : Except StoreError (Transfer × Tables) := do
  let moved := { transfer with state := next, error := error }
  let tables ← storeTransfer tables transfer.state moved
    "La operación cambió en otro proceso; recargá su estado"
  pure (moved, tables)

/-! ## Sending -/

section Sending

variable (codec : Codec)

def ancestry (tables : Tables) (target : Uuid) :
    (fuel : Nat) → Option Uuid → Nat → Uuid → Except StoreError (Nat × Uuid)
  | _, none, depth, rootId => .ok (depth, rootId)
  | 0, some _, _, _ => .error (.message "La delegación supera el límite de 8 niveles")
  | fuel + 1, some id, depth, _ => do
      let parent ← readTransfer tables .user id
      ensure (parent.sourceId ≠ target ∧ parent.targetId ≠ target)
        (.message ("La delegación volvería a un chat de su propia cadena; " ++
          "respondé la operación existente"))
      ensure (depth + 1 ≤ maxDelegationDepth)
        (.message "La delegación supera el límite de 8 niveles")
      ancestry tables target fuel parent.parentId (depth + 1) parent.rootId

/-- The operation an agent is answering. -/
def parentOf (tables : Tables) (caller : Caller) : Option Uuid :=
  caller.agentId.bind fun own =>
    (tables.transfers.find? fun row => row.target = own && row.state.isActive).map (·.id)

/-- Whether the transfer needs no approval. -/
def automaticDelivery (tables : Tables) (caller : Caller) (request : SendRequest) :
    Except StoreError Bool :=
  match caller.agentId with
  | none => .ok true
  | some _ => require (tables.links.find ⟨request.sourceId, request.targetId⟩) .noRows

/-- What was reviewed is still what would be sent. -/
def checkPrepared (prepared : Option PreparedSend) (context : ContextSnapshot)
    (targetBinding : Option Uuid) : Except StoreError Unit :=
  match prepared with
  | none => .ok ()
  | some prepared =>
      ensure (prepared.context = context ∧ prepared.targetBinding = targetBinding)
        (.message ("Cambió el contexto o la sesión de destino; " ++
          "prepará y revisá otra vez la transferencia"))

/-- The new transfer with its place in the tree of delegations. -/
def composeTransfer (tables : Tables) (caller : Caller) (request : SendRequest)
    (prepared : Option PreparedSend) (target : Conversation) (now : Int) :
    Except StoreError Transfer := do
  let context ← contextOf codec tables caller request.sourceId request.messageIds
    request.contextBudgetBytes
  checkPrepared prepared context target.bindingId
  let automatic ← automaticDelivery tables caller request
  let parentId := parentOf tables caller
  let (depth, rootId) ← ancestry tables request.targetId maxDelegationDepth parentId 1
    request.operationId
  ensure (tables.transfers.countP (fun row => row.data.rootId = rootId) < maxRootTransfers)
    (.message "La tarea alcanzó el límite de 64 transferencias")
  pure
    { id := request.operationId
      sourceId := request.sourceId
      targetId := request.targetId
      parentId := parentId
      rootId := rootId
      depth := depth
      request := request.text
      context := context
      state := if automatic then .pending else .awaitingApproval
      targetBinding := target.bindingId
      requestedByAgent := caller.agentId.isSome
      result := none
      error := none
      createdAt := now }

def insertTransfer (tables : Tables) (transfer : Transfer) (fingerprint : String)
    (source : Conversation) (messageId : Uuid) : Except StoreError Tables := do
  ensure ((transfer.prompt codec).isSome = true)
    (.message "El mensaje y su contexto exceden 1 MiB; no se recortó la instrucción")
  ensure (tables.transfers.countP (fun row =>
      row.target = transfer.targetId && row.state.isQueued) < maxPendingTransfers)
    (.message "La cola del chat está llena; esperá o cancelá mensajes pendientes")
  let inserted := { tables with transfers := tables.transfers ++
    [⟨transfer.id, transfer.sourceId, transfer.targetId, transfer.state, fingerprint,
      transfer⟩] }
  insertMessage inserted messageId transfer.sourceId
    (if transfer.requestedByAgent then .activity else .user) transfer.request
    "outgoing_request" transfer.createdAt (.of source)

/-- The checks in front of a send: its text, its source and its scope. -/
def checkSend (tables : Tables) (caller : Caller) (request : SendRequest) :
    Except StoreError (Conversation × Conversation) := do
  ensure ((trim request.text).isEmpty = false ∧ byteLength request.text ≤ maxMessageBytes)
    (.message "Instrucción vacía o demasiado grande")
  ensure (request.sourceId ≠ request.targetId) (.message "Elegí otro chat de destino")
  ensure (caller.agentId.all (· = request.sourceId) = true)
    (.message "No se puede suplantar al chat de origen")
  let source ← authorize tables caller request.sourceId
  let target ← authorize tables caller request.targetId
  ensure (source.workspaceId = target.workspaceId)
    (.message "Origen y destino pertenecen a distintos workspaces")
  pure (source, target)

/-- A repeated request is answered with the transfer it created. -/
def replaySend (tables : Tables) (caller : Caller) (fingerprint : String)
    (existing : TransferRow) : Except StoreError Transfer := do
  ensure (existing.fingerprint = fingerprint)
    (.message "El identificador de operación ya tiene otro contenido")
  checkTransferAccess tables caller existing.data
  pure existing.data

def sendInner (caller : Caller) (request : SendRequest) (prepared : Option PreparedSend)
    (world : World) (tables : Tables) : Except StoreError (Transfer × Tables) := do
  let (source, target) ← checkSend tables caller request
  let fingerprint := codec.fingerprint request prepared
  match tables.transfer request.operationId with
  | some existing => do
      let transfer ← replaySend tables caller fingerprint existing
      pure (transfer, tables)
  | none => do
      let transfer ← composeTransfer codec tables caller request prepared target world.now
      let tables ← insertTransfer codec tables transfer fingerprint source world.draw
      pure (transfer, tables)

end Sending

/-! ## Consent -/

def loadApproval (tables : Tables) (id : Uuid) : Except StoreError Transfer := do
  let transfer ← readTransfer tables .user id
  ensure (transfer.state = .awaitingApproval ∨ transfer.state = .needsReview)
    (.message "La operación ya no espera aprobación")
  pure transfer

def bindApproval (tables : Tables) (transfer : Transfer) : Except StoreError Transfer := do
  let target ← authorize tables .user transfer.targetId
  ensure (target.bindingId.isSome = true) (.message "El chat de destino no está conectado")
  pure { transfer with targetBinding := target.bindingId }

/-- The last statement. It fails when the state changed in between. -/
def storeApproval (tables : Tables) (transfer : Transfer) : Except StoreError Tables := do
  let (_, tables) ← transition tables transfer .pending none
  pure tables

def cancel (caller : Caller) (id : Uuid) (tables : Tables) : Except StoreError Tables := do
  let transfer ← readTransfer tables caller id
  ensure ((transfer.state matches .awaitingApproval | .pending | .needsReview | .failed) = true)
    (.message "La entrada ya pudo haber sido enviada; no puede retirarse")
  let (_, tables) ← transition tables transfer .cancelled none
  pure tables

/-! ## Delivery -/

/-- Another transfer is on its way to this target, or waits for its answer. -/
def busy (tables : Tables) (target id : Uuid) : Bool :=
  tables.transfers.any fun row => row.target = target && row.id ≠ id && row.state.isActive

/-- The request of an agent keeps its permission. -/
def permitted (tables : Tables) (transfer : Transfer) : Bool :=
  !transfer.requestedByAgent ||
    (linked tables transfer.sourceId transfer.targetId &&
      (enabledDigest tables transfer.sourceId).isSome)

/-- The error that stops a permitted transfer in front of its target. -/
def reviewReason (transfer : Transfer) (target : Conversation) (binding : Uuid) :
    Option String :=
  if target.provider.all (· = .unknown) then
    some "El destino no tiene un proveedor registrado; no se envía contexto a un shell"
  else if target.bindingId ≠ some binding ∨ transfer.targetBinding ≠ some binding then
    some "Cambió la sesión de destino; revisá el contexto antes de reanudar"
  else
    none

/-- A claim of a pending transfer whose target can take it. -/
def claimPending (tables : Tables) (transfer : Transfer) (binding : Uuid) :
    Except StoreError (Option Transfer × Tables) := do
  if permitted tables transfer = false then
    let (_, tables) ← transition tables transfer .cancelled (some "El vínculo fue revocado")
    pure (none, tables)
  else
    let target ← authorize tables .user transfer.targetId
    match reviewReason transfer target binding with
    | some reason => do
        let (_, tables) ← transition tables transfer .needsReview (some reason)
        pure (none, tables)
    | none => do
        let (claimed, tables) ← transition tables transfer .dispatching none
        pure (some claimed, tables)

def claim (id binding : Uuid) (world : World) (tables : Tables) :
    Except StoreError (Option Transfer × Tables) := do
  let transfer ← readTransfer tables .user id
  if transfer.state ≠ .pending ∨ bridgeConnected tables transfer.targetId world.now = false ∨
      busy tables transfer.targetId id = true then
    pure (none, tables)
  else
    claimPending tables transfer binding

section Delivery

variable (codec : Codec)

/-- The delivery was accepted, and the request enters the history of the target. -/
def storeDelivered (tables : Tables) (transfer : Transfer) (world : World) :
    Except StoreError Tables := do
  let (queued, tables) ← transition tables transfer .inputQueued none
  let target ← authorize tables .user queued.targetId
  let prompt ← require (queued.prompt codec)
    (.message "El mensaje y su contexto exceden 1 MiB; no se recortó la instrucción")
  insertMessage tables world.draw queued.targetId .user prompt "incoming_request" world.now
    (.of target)

def deliveryResult (id : Uuid) (result : Except String Unit) (world : World)
    (tables : Tables) : Except StoreError Tables := do
  let transfer ← readTransfer tables .user id
  if transfer.state = .completed then
    pure tables
  else
    ensure (transfer.state = .dispatching) (.message "La operación no está siendo entregada")
    match result with
    | .ok () => storeDelivered codec tables transfer world
    | .error error => do
        let (_, tables) ← transition tables transfer .failed (some error)
        pure tables

end Delivery

/-! ## Answers -/

/-- A delegated operation has no result yet. -/
def pendingChildren (tables : Tables) (id : Uuid) : Bool :=
  tables.transfers.any fun row => row.data.parentId = some id && !row.state.isTerminal

/-- An answer to an operation that was delivered. -/
def storeReply (tables : Tables) (transfer : Transfer) (text : String) (world : World) :
    Except StoreError (Transfer × Tables) := do
  ensure (transfer.state = .dispatching ∨ transfer.state = .inputQueued)
    (.message "La operación no fue entregada")
  ensure (pendingChildren tables transfer.id = false)
    (.message ("Todavía quedan operaciones delegadas sin resultado; " ++
      "esperá o resolvelas antes de responder"))
  let answered := { transfer with result := some text, state := .completed, error := none }
  let target ← authorize tables .user transfer.targetId
  let tables ← insertMessage tables world.draw transfer.targetId .assistant text "peer_reply"
    world.now (.of target)
  let tables ← storeTransfer tables transfer.state answered
    "La operación cambió antes de guardar la respuesta"
  pure (answered, tables)

def reply (caller : Caller) (id : Uuid) (text : String) (world : World) (tables : Tables) :
    Except StoreError (Transfer × Tables) := do
  let transfer ← readTransfer tables caller id
  ensure (caller.agentId.all (· = transfer.targetId) = true)
    (.message "Sólo el destinatario puede responder la operación")
  ensure ((trim text).isEmpty = false ∧ byteLength text ≤ maxMessageBytes)
    (.message "Respuesta vacía o demasiado grande")
  if transfer.state = .completed then
    ensure (transfer.result = some text) (.message "Ya hay otra respuesta para esta operación")
    pure (transfer, tables)
  else
    storeReply tables transfer text world

end TerminalCanvas.Conversations
