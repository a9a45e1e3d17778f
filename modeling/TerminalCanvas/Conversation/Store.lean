import TerminalCanvas.Conversation.Model
import TerminalCanvas.Foundation.Fallible
import TerminalCanvas.Foundation.Table

/-! # The conversation store

Conversations, their messages, links, credentials, bridges and transfers. An
operation is a function from the tables to its answer and the tables it leaves; an
error leaves the tables as they were. -/

namespace TerminalCanvas.Conversations

open Fallible

/-! ## Tables -/

structure LinkKey where
  source : Uuid
  target : Uuid
deriving DecidableEq, Repr

structure Credential where
  digest : Bytes
  enabled : Bool
deriving DecidableEq, Repr

/-- The lease of a connected MCP client. -/
structure Bridge where
  conversation : Uuid
  digest : Bytes
  expires : Int
  available : Option Bool
deriving DecidableEq, Repr

/-- The state is a column of its own beside the one inside the data. -/
structure TransferRow where
  id : Uuid
  source : Uuid
  target : Uuid
  state : TransferState
  fingerprint : String
  data : Transfer
deriving DecidableEq, Repr

structure Tables where
  conversations : Table Uuid Conversation
  messages : Table Uuid ConversationMessage
  lastSequence : Nat
  /-- Whether delivery is automatic. -/
  links : Table LinkKey Bool
  credentials : Table Uuid Credential
  bridges : Table Uuid Bridge
  /-- In the order of their row numbers. -/
  transfers : List TransferRow

def Tables.empty : Tables := ⟨∅, ∅, 0, ∅, ∅, ∅, []⟩

inductive StoreError where
  | message (text : String)
  /-- A query that needs a row found none. -/
  | noRows
  | constraint
  | busy
deriving DecidableEq, Repr

/-- What a transaction draws and reads outside of the tables, and whether the database
lets it through. -/
structure World where
  draw : Uuid
  now : Int
  commits : Bool

/-! ## Conversations -/

def register (conversation : Conversation) (tables : Tables) : Except StoreError Tables := do
  ensure (byteLength conversation.title ≤ 4096 ∧
      (conversation.cwd.map byteLength).getD 0 ≤ 32768 ∧
      (conversation.nativeSessionId.map byteLength).getD 0 ≤ 256)
    (.message "Metadatos de conversación demasiado grandes")
  match tables.conversations.find conversation.id with
  | none =>
      pure { tables with
        conversations := tables.conversations.put conversation.id conversation }
  | some previous => do
      ensure (previous.workspaceId = conversation.workspaceId ∧
          previous.panelId = conversation.panelId)
        (.message "La identidad de conversación ya pertenece a otro workspace o panel")
      let merged := { conversation with
        provider := conversation.provider <|> previous.provider }
      pure (if previous = merged then tables
        else { tables with conversations := tables.conversations.put conversation.id merged })

def enabledDigest (tables : Tables) (id : Uuid) : Option Bytes :=
  ((tables.credentials.find id).filter (·.enabled)).map (·.digest)

/-- The time does not depend on where the digests differ. -/
def credentialMatches (expected actual : Bytes) : Bool :=
  expected.length = actual.length &&
    (((expected.zip actual).map fun pair => (pair.1 ^^^ pair.2).toNat).foldl (· ||| ·) 0 = 0)

def checkCredential (tables : Tables) (caller : Caller) (source : Uuid) :
    Except StoreError Unit := do
  let digest ← require (enabledDigest tables source) (.message "Credencial de chat revocada")
  match caller with
  | .authenticatedAgent auth =>
      ensure (credentialMatches digest auth.digest = true)
        (.message "Credencial de chat renovada; reconectá el puente MCP")
  | _ => pure ()

def linked (tables : Tables) (source target : Uuid) : Bool :=
  (tables.links.find ⟨source, target⟩).isSome

/-- The scope of an agent: its own chat and the chats of its workspace it is linked
to. -/
def checkScope (tables : Tables) (caller : Caller) (source target workspaceId : Uuid) :
    Except StoreError Unit := do
  checkCredential tables caller source
  let own ← require (tables.conversations.find source)
    (.message "El chat llamante no existe")
  ensure (own.workspaceId = workspaceId ∧ (source = target ∨ linked tables source target = true))
    (.message "El chat no está vinculado al alcance autorizado")

def authorize (tables : Tables) (caller : Caller) (target : Uuid) :
    Except StoreError Conversation := do
  let conversation ← require (tables.conversations.find target)
    (.message "La conversación no existe")
  match caller.agentId with
  | none => pure conversation
  | some source => do
      checkScope tables caller source target conversation.workspaceId
      pure conversation

/-! ## Links -/

def checkLink (tables : Tables) (source target : Uuid) : Except StoreError Unit := do
  ensure (source ≠ target) (.message "Elegí dos conversaciones distintas")
  let first ← authorize tables .user source
  let second ← authorize tables .user target
  ensure (first.workspaceId = second.workspaceId)
    (.message "No se vinculan chats de otros workspaces")

def insertLink (tables : Tables) (source target : Uuid) (automatic : Bool) : Tables :=
  { tables with links := tables.links.put ⟨source, target⟩ automatic }

def linkPair (source target : Uuid) (automatic : Bool) (tables : Tables) :
    Except StoreError Tables := do
  checkLink tables source target
  let tables := insertLink tables source target automatic
  checkLink tables target source
  pure (insertLink tables target source automatic)

def TransferRow.cancelled (row : TransferRow) (error : String) : TransferRow :=
  { row with
    state := .cancelled
    data := { row.data with state := .cancelled, error := some error } }

/-- Queued requests of agents lose their permission. -/
def withdraw (transfers : List TransferRow) (chosen : TransferRow → Bool) (error : String) :
    List TransferRow :=
  transfers.map fun row =>
    if chosen row && row.data.requestedByAgent then row.cancelled error else row

def unlink (source target : Uuid) (tables : Tables) : Tables :=
  { tables with
    links := tables.links.remove ⟨source, target⟩
    transfers := withdraw tables.transfers
      (fun row => row.source = source && row.target = target &&
        (row.state matches .pending | .awaitingApproval))
      "Vínculo revocado antes de la entrega" }

/-! ## Credentials and bridges -/

section Credentials

variable (codec : Codec)

def activateCredential (tables : Tables) (id : Uuid) (digest : Bytes) : Tables :=
  { tables with credentials := tables.credentials.put id ⟨digest, true⟩ }

def authenticate (tables : Tables) (id : Uuid) (token : String) : Except StoreError Caller := do
  let actual := codec.sha256 token
  ensure ((enabledDigest tables id).any (credentialMatches · actual) = true)
    (.message "Credencial de chat inválida o revocada")
  pure (.authenticatedAgent ⟨id, actual⟩)

def revoke (id : Uuid) (tables : Tables) : Tables :=
  { tables with
    credentials := match tables.credentials.find id with
      | some credential => tables.credentials.put id { credential with enabled := false }
      | none => tables.credentials
    transfers := withdraw tables.transfers
      (fun row => row.source = id &&
        (row.state matches .pending | .awaitingApproval | .needsReview))
      "Credencial revocada antes de entregar" }

def insertBridge (tables : Tables) (lease id : Uuid) (digest : Bytes) (now : Int) : Tables :=
  { tables with bridges := tables.bridges.put lease (match tables.bridges.find lease with
      | some bridge => { bridge with expires := now + 15000 }
      | none => ⟨id, digest, now + 15000, none⟩) }

def expireBridges (tables : Tables) (now : Int) : Tables :=
  { tables with bridges := tables.bridges.keepRows fun bridge => now ≤ bridge.expires }

def removeBridge (tables : Tables) (lease : Uuid) : Tables :=
  { tables with bridges := tables.bridges.remove lease }

/-- A lease of the current credential has not expired. -/
def bridgeConnected (tables : Tables) (id : Uuid) (now : Int) : Bool :=
  tables.bridges.entries.any fun entry =>
    entry.2.conversation = id && enabledDigest tables id = some entry.2.digest &&
      now < entry.2.expires

def setAvailable (caller : Caller) (available : Bool) (tables : Tables) :
    Except StoreError Tables := do
  let id ← require caller.agentId
    (.message "La disponibilidad la declara el chat receptor")
  let _ ← authorize tables caller id
  pure { tables with bridges := tables.bridges.mapRows fun _ bridge =>
    if bridge.conversation = id ∧ enabledDigest tables id = some bridge.digest then
      { bridge with available := some available }
    else
      bridge }

end Credentials

/-! ## Messages -/

/-- A message that was delivered in a context, quoted or omitted. -/
def referenced (tables : Tables) (own source id : Uuid) : Bool :=
  tables.transfers.any fun row =>
    row.target = own && row.source = source &&
      (row.state matches .dispatching | .inputQueued | .completed) &&
      (row.data.context.messages.any (·.id = id) || row.data.context.omitted.any (·.id = id))

def readMessage (tables : Tables) (caller : Caller) (id : Uuid) :
    Except StoreError (Option ConversationMessage) :=
  match tables.messages.find id with
  | none => .ok none
  | some message =>
      match authorize tables caller message.conversationId, caller.agentId with
      | .ok _, _ => .ok (some message)
      | .error error, none => .error error
      | .error _, some own => do
          let _ ← authorize tables caller own
          ensure (referenced tables own message.conversationId id = true)
            (.message "El mensaje no está en el contexto autorizado")
          pure (some message)

def insertMessage (tables : Tables) (id conversationId : Uuid) (role : MessageRole)
    (text source : String) (createdAt : Int) (origin : MessageOrigin) :
    Except StoreError Tables := do
  ensure ((tables.messages.find id).isNone = true) .constraint
  pure { tables with
    lastSequence := tables.lastSequence + 1
    messages := tables.messages.put id
      ⟨id, tables.lastSequence + 1, conversationId, role, text, source, origin, createdAt⟩ }

def record (caller : Caller) (id thread : Uuid) (role : MessageRole) (text source : String)
    (world : World) (tables : Tables) : Except StoreError (ConversationMessage × Tables) := do
  ensure (caller.agentId.all (· = thread) = true)
    (.message "Sólo se registran mensajes en el chat propio")
  let conversation ← authorize tables caller thread
  ensure ((trim text).isEmpty = false ∧ byteLength text ≤ maxMessageBytes ∧
      byteLength source ≤ 256)
    (.message "Mensaje vacío o demasiado grande")
  match ← readMessage tables caller id with
  | some old => do
      ensure (old.conversationId = thread ∧ old.role = role ∧ old.text = text ∧
          old.source = source)
        (.message "El identificador ya representa otro mensaje")
      pure (old, tables)
  | none => do
      let tables ← insertMessage tables id thread role text source world.now (.of conversation)
      let message ← require (← readMessage tables caller id)
        (.message "No se pudo leer el mensaje guardado")
      pure (message, tables)

/-! ## Contexts -/

section Contexts

variable (codec : Codec)

/-- The size counts the digits it is written with. -/
def measureContext : (fuel : Nat) → ContextSnapshot → ContextSnapshot
  | 0, context => context
  | fuel + 1, context =>
      if codec.contextBytes context = context.usedBytes then
        context
      else
        measureContext fuel { context with usedBytes := codec.contextBytes context }

/-- More rounds than the size can change. -/
def measureRounds (context : ContextSnapshot) : Nat :=
  context.usedBytes + 2 * codec.contextBytes context

def measured (context : ContextSnapshot) : ContextSnapshot :=
  measureContext codec (measureRounds codec context) context

def omitMessage (tables : Tables) (thread : Uuid) (context : ContextSnapshot) (id : Uuid) :
    Except StoreError ContextSnapshot := do
  ensure (context.omitted.any (·.id = id) = false) (.message "Mensaje de contexto repetido")
  let message ← require ((tables.messages.find id).filter (·.conversationId = thread))
    (.message "El mensaje seleccionado no existe en el chat de origen")
  pure { context with omitted := context.omitted ++
    [⟨id, message.sequence, message.role, byteLength message.text⟩] }

/-- Quote a message when it fits, else leave its reference where it was. -/
def quoteMessage (tables : Tables) (caller : Caller) (thread : Uuid) (budget : Nat)
    (context : ContextSnapshot) (id : Uuid) : Except StoreError ContextSnapshot := do
  let message ← require (← readMessage tables caller id)
    (.message "El mensaje seleccionado ya no existe")
  ensure (message.conversationId = thread)
    (.message "El mensaje no pertenece al chat de origen")
  let position ← require (context.omitted.findIdx? (·.id = id))
    (.message "Falta la referencia de contexto")
  let quoted := measured codec { context with
    omitted := context.omitted.eraseIdx position
    messages := context.messages ++ [message] }
  pure (if budget < quoted.usedBytes then
      { quoted with messages := context.messages, omitted := context.omitted }
    else quoted)

def contextOf (tables : Tables) (caller : Caller) (thread : Uuid) (ids : List Uuid)
    (budget : Nat) : Except StoreError ContextSnapshot := do
  ensure (1024 ≤ budget ∧ budget ≤ maxContextBytes)
    (.message "Presupuesto de contexto fuera de 1–64 KiB")
  ensure (ids.length ≤ 100) (.message "Elegí como máximo 100 mensajes por transferencia")
  let source ← authorize tables caller thread
  let omitted ← ids.foldlM (omitMessage tables thread) ⟨1, source, [], [], budget, 0⟩
  let start := measured codec omitted
  ensure (start.usedBytes ≤ budget)
    (.message "Ni las referencias al historial omitido caben en el presupuesto")
  let filled ← ids.foldlM (quoteMessage codec tables caller thread budget) start
  let context := measured codec { filled with
    messages := filled.messages.mergeSort (·.sequence ≤ ·.sequence)
    omitted := filled.omitted.mergeSort (·.sequence ≤ ·.sequence) }
  ensure (context.usedBytes ≤ budget)
    (.message "Ni las referencias al historial omitido caben en el presupuesto")
  pure context

end Contexts

end TerminalCanvas.Conversations
