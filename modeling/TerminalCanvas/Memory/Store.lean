import TerminalCanvas.Foundation.Execution
import TerminalCanvas.Foundation.Table
import TerminalCanvas.Foundation.Transaction
import TerminalCanvas.Memory.Model

/-! # The memory store

Projects, tasks, memories with their revisions and their search index, handoffs and
the receipts of requests. Every operation is one immediate transaction; a retry after
`SQLITE_BUSY` starts from the same tables. -/

namespace TerminalCanvas.Memory.Store

open TerminalCanvas.Transaction TerminalCanvas.Execution

/-! ## Tables -/

structure ProjectRow where
  identityKind : IdentityKind
  identityValue : String
  rootHint : Option String
  remoteFingerprint : Option String
  linkedProjectId : Option String
  createdAt : Int
  updatedAt : Int
deriving DecidableEq, Repr

structure TaskRow where
  projectId : String
  identityValue : String
  orchestratorTaskId : Option String
  createdAt : Int
deriving DecidableEq, Repr

structure RevisionRow where
  memoryId : String
  revision : Nat
  operation : String
  content : String
  actorKind : String
  actorId : String
  createdAt : Int
deriving DecidableEq, Repr

structure FtsRow where
  memoryId : String
  content : String
  stableKey : String
deriving DecidableEq, Repr

structure ReceiptKey where
  clientId : String
  requestId : String
deriving DecidableEq, Repr

/-- A row of `mutation_receipts`. Its JSON column holds the values it encodes: the
derived serializers round-trip. -/
structure ReceiptRow where
  requestFingerprint : String
  result : WriteResult
  committedAt : Int
deriving DecidableEq, Repr

structure Tables where
  projects : Table String ProjectRow
  tasks : Table String TaskRow
  memories : Table String MemoryRecord
  revisions : Table String RevisionRow
  handoffs : Table String HandoffRecord
  receipts : Table ReceiptKey ReceiptRow
  fts : List FtsRow

def Tables.empty : Tables := ⟨∅, ∅, ∅, ∅, ∅, ∅, []⟩

/-- The keys and unique indexes of the schema. -/
inductive Constraint where
  | projectId
  | taskId
  | taskIdentity
  | activeKey
  | revisionId
  | memoryRevision
  | handoffId
deriving DecidableEq, Repr

inductive StoreError where
  | constraint (violated : Constraint)
  | busy
  | message (text : String)
deriving DecidableEq, Repr

/-! ## Statements -/

/-- What an operation draws and reads outside of the tables. -/
structure Environment where
  draws : Nat → Uuid
  clock : Nat → Int
  /-- The order of the rows of a query without `ORDER BY`. -/
  arrange : List String → List String
  arranged : ∀ keys, (arrange keys).Perm keys

structure Work where
  tables : Tables
  environment : Environment
  drawn : Nat
  ticks : Nat

abbrev Tx := EStateM StoreError Work

def prefixedId (start : String) (draw : Uuid) : String := start ++ draw.simple

def newPrefixedId (start : String) : Tx String := do
  let work ← get
  modify fun work => { work with drawn := work.drawn + 1 }
  pure (prefixedId start (work.environment.draws work.drawn))

def nowSecs : Tx Int := do
  let work ← get
  modify fun work => { work with ticks := work.ticks + 1 }
  pure (work.environment.clock work.ticks)

def write (change : Tables → Tables) : Tx Unit :=
  modify fun work => { work with tables := change work.tables }

def read {Result : Type} (question : Tables → Result) : Tx Result := do
  let work ← get
  pure (question work.tables)

/-- The rows with a property, in the order the database gives them. -/
def Environment.rows {Row : Type} (environment : Environment) (table : Table String Row)
    (property : Row → Bool) : List (String × Row) :=
  (environment.arrange table.keys).filterMap fun key =>
    ((table.find key).filter property).map (key, ·)

def select {Row : Type} (table : Tables → Table String Row) (property : Row → Bool) :
    Tx (List (String × Row)) := do
  let work ← get
  pure (work.environment.rows (table work.tables) property)

/-- The row that comes first so far. -/
def better {Row : Type} (before : Row → Row → Bool) (best : Option Row) (row : Row) :
    Option Row :=
  match best with
  | none => some row
  | some chosen => if before row chosen then some row else some chosen

/-- `ORDER BY .. LIMIT 1`. -/
def firstBy {Row : Type} (before : Row → Row → Bool) (rows : List Row) : Option Row :=
  rows.foldl (better before) none

/-! ## Projects -/

/-- `follow_links`, one project at a time. -/
def followFrom (projects : Table String ProjectRow) : Nat → List String → String → String
  | 0, _, current => current
  | fuel + 1, seen, current =>
      if current ∈ seen then
        current
      else
        match (projects.find current).bind (·.linkedProjectId) with
        | some next =>
            if next.isEmpty then current
            else followFrom projects fuel (current :: seen) next
        | none => current

def followLinks (projects : Table String ProjectRow) (start fallback : String) : String :=
  followFrom projects (projects.size + 1) [fallback] start

def loadProject (projects : Table String ProjectRow) (id : String) : Option ResolvedProject :=
  (projects.find id).map fun row =>
    { id := id
      canonicalId := followLinks projects (row.linkedProjectId.getD id) id
      identityKind := row.identityKind
      identityValue := row.identityValue
      remoteFingerprint := row.remoteFingerprint }

def ProjectRow.seenAt (row : ProjectRow) (location : ResolvedLocation) (now : Int) : ProjectRow :=
  { row with
    remoteFingerprint := location.remoteFingerprint <|> row.remoteFingerprint
    rootHint := location.worktreeRoot
    updatedAt := now }

def newProject (location : ResolvedLocation) (now : Int) : ProjectRow where
  identityKind := location.identityKind
  identityValue := location.identityValue
  rootHint := location.worktreeRoot
  remoteFingerprint := location.remoteFingerprint
  linkedProjectId := none
  createdAt := now
  updatedAt := now

/-- The project of a location, written as it is seen now. -/
def seeProject (location : ResolvedLocation) : Tx String := do
  let existing ← select (·.projects) fun row =>
    row.identityKind = location.identityKind && row.identityValue = location.identityValue
  let now ← nowSecs
  match existing.head? with
  | some (id, row) => do
      write fun tables => { tables with
        projects := tables.projects.put id (row.seenAt location now) }
      pure id
  | none => do
      let id ← newPrefixedId "prj_"
      let taken ← read fun tables => (tables.projects.find id).isSome
      ensure (taken = false) (.constraint .projectId)
      write fun tables => { tables with
        projects := tables.projects.put id (newProject location now) }
      pure id

/-- The project with an identifier, or the error of its absence. -/
def requireProject (id : String) (absence : String) : Tx ResolvedProject := do
  let loaded ← read fun tables => loadProject tables.projects id
  match loaded with
  | some project => pure project
  | none => throw (.message absence)

def upsertProject (location : ResolvedLocation) : Tx ResolvedProject := do
  let id ← seeProject location
  requireProject id "proyecto recién escrito no se pudo leer"

/-! ## Tasks -/

/-- `ORDER BY created_at, id`. -/
def olderTask (left right : String × TaskRow) : Bool :=
  left.2.createdAt < right.2.createdAt ||
    (left.2.createdAt = right.2.createdAt && left.1 < right.1)

def newTask (projectId identity : String) (orchestratorTaskId : Option Uuid) : Tx String := do
  let id ← newPrefixedId "tsk_"
  let now ← nowSecs
  let taken ← read fun tables => (tables.tasks.find id).isSome
  ensure (taken = false) (.constraint .taskId)
  write fun tables => { tables with
    tasks := tables.tasks.put id
      ⟨projectId, identity, orchestratorTaskId.map Uuid.display, now⟩ }
  pure id

def taskByOrchestrator (projectId : String) : Option Uuid → Tx (Option String)
  | none => pure none
  | some orchestrator => do
      let rows ← select (·.tasks) fun row =>
        row.projectId = projectId && row.orchestratorTaskId = some orchestrator.display
      pure ((firstBy olderTask rows).map (·.1))

def taskIdentityAt (location : ResolvedLocation) : Option Uuid → String
  | some orchestrator => "orchestrator:" ++ orchestrator.display
  | none => location.taskIdentity

def findOrNewTask (projectId identity : String) (orchestratorTaskId : Option Uuid) :
    Tx String := do
  let rows ← select (·.tasks) fun row =>
    row.projectId = projectId && row.identityValue = identity
  match rows.head? with
  | some (id, _) => pure id
  | none => newTask projectId identity orchestratorTaskId

def upsertTask (projectId : String) (location : ResolvedLocation)
    (orchestratorTaskId : Option Uuid) : Tx String := do
  let bound ← taskByOrchestrator projectId orchestratorTaskId
  match bound with
  | some id => pure id
  | none =>
      findOrNewTask projectId (taskIdentityAt location orchestratorTaskId) orchestratorTaskId

/-! ## Memories -/

def revisionAfter (current : Nat) : Tx Nat :=
  match checkedAddU32 current 1 with
  | some next => pure next
  | none => throw (.message "la memoria alcanzó el máximo de revisiones")

/-- The key that at most one active memory may have. -/
def sameKey (left right : MemoryRecord) : Bool :=
  left.scopeKind = right.scopeKind && left.scopeId = right.scopeId &&
    left.stableKey = right.stableKey

/-- The stored row behind an `INSERT .. ON CONFLICT(id) DO UPDATE`. -/
def upserted (memory : MemoryRecord) (stored : Option MemoryRecord) : MemoryRecord :=
  match stored with
  | none => memory
  | some old => { old with
      status := memory.status
      trustClass := memory.trustClass
      content := memory.content
      currentRevision := memory.currentRevision
      validUntil := memory.validUntil
      updatedAt := memory.updatedAt }

def activeKeyTaken (memories : Table String MemoryRecord) (id : String) (row : MemoryRecord) :
    Bool :=
  memories.entries.any fun entry =>
    entry.1 ≠ id && entry.2.status = .active && sameKey entry.2 row

/-- Store a row of `memories` under the unique index of active keys. -/
def storeMemory (id : String) (row : MemoryRecord) : Tx Unit := do
  let taken ← read fun tables => activeKeyTaken tables.memories id row
  ensure (row.status = .active → taken = false) (.constraint .activeKey)
  write fun tables => { tables with memories := tables.memories.put id row }

def persistMemory (memory : MemoryRecord) : Tx Unit := do
  let stored ← read fun tables => tables.memories.find memory.id
  storeMemory memory.id (upserted memory stored)

def revisionTaken (revisions : Table String RevisionRow) (memoryId : String) (revision : Nat) :
    Bool :=
  revisions.entries.any fun entry =>
    entry.2.memoryId = memoryId && entry.2.revision = revision

def appendRevision (memory : MemoryRecord) (operation : String) (actor : Actor) : Tx Unit := do
  let id ← newPrefixedId "rev_"
  let now ← nowSecs
  let drawn ← read fun tables => (tables.revisions.find id).isSome
  ensure (drawn = false) (.constraint .revisionId)
  let taken ← read fun tables =>
    revisionTaken tables.revisions memory.id memory.currentRevision
  ensure (taken = false) (.constraint .memoryRevision)
  write fun tables => { tables with
    revisions := tables.revisions.put id ⟨memory.id, memory.currentRevision, operation,
      memory.content, actor.kind, actor.id, now⟩ }

def deleteFts (memoryId : String) : Tx Unit :=
  write fun tables => { tables with fts := tables.fts.filter (·.memoryId ≠ memoryId) }

def ftsRow (memory : MemoryRecord) : FtsRow :=
  ⟨memory.id, memory.content, memory.stableKey⟩

def upsertFts (memory : MemoryRecord) : Tx Unit := do
  deleteFts memory.id
  write fun tables => { tables with fts := tables.fts ++ [ftsRow memory] }

def indexRetrievable (memory : MemoryRecord) : Tx Unit :=
  if memory.status.isRetrievable then upsertFts memory else pure ()

def dropFtsIf (condition : Bool) (memoryId : String) : Tx Unit :=
  if condition then deleteFts memoryId else pure ()

def loadMemory (id : String) : Tx (Option MemoryRecord) :=
  read fun tables => tables.memories.find id

def findActiveKey (kind : ScopeKind) (scopeId key : String) : Tx (Option MemoryRecord) := do
  let rows ← select (·.memories) fun row =>
    row.scopeKind = kind && row.scopeId = scopeId && row.stableKey = key &&
      row.status = .active
  pure (rows.head?.map (·.2))

/-- `ORDER BY CASE status WHEN 'active' THEN 0 ELSE 1 END, updated_at DESC`. -/
def laterMemory (left right : String × MemoryRecord) : Bool :=
  (left.2.status = .active && right.2.status ≠ .active) ||
    (decide (left.2.status = .active) = decide (right.2.status = .active) &&
      right.2.updatedAt < left.2.updatedAt)

def findLatestKey (kind : ScopeKind) (scopeId key : String) : Tx (Option MemoryRecord) := do
  let rows ← select (·.memories) fun row =>
    row.scopeKind = kind && row.scopeId = scopeId && row.stableKey = key &&
      (row.status = .active || row.status = .candidate)
  pure ((firstBy laterMemory rows).map (·.2))

/-! ## Remembering -/

/-- Redaction, the JSON encoding of a request and the digest in hexadecimal. -/
structure Policy where
  prepareContent : String → String
  encode : RememberRequest → Except String String
  digest : String → String

def Policy.fingerprintRequest (policy : Policy) (request : RememberRequest) :
    Except String String :=
  (policy.encode request).map policy.digest

def insertFresh (request : RememberRequest) (scopeId key content : String)
    (status : MemoryStatus) : Tx WriteResult := do
  let now ← nowSecs
  let id ← newPrefixedId "mem_"
  let memory : MemoryRecord := {
    id := id
    scopeKind := request.scope
    scopeId := scopeId
    kind := request.kind
    stableKey := key
    status := status
    trustClass := request.actor.trust
    content := content
    currentRevision := 1
    validUntil := none
    createdAt := now
    updatedAt := now }
  persistMemory memory
  appendRevision memory "remember" request.actor
  indexRetrievable memory
  let receipt ← newPrefixedId "rcp_"
  pure (.committed ⟨memory, receipt, memory.currentRevision⟩)

def insertConflictCandidate (scopeId : String) (scope : ScopeKind) (kind : MemoryKind)
    (key content : String) (actor : Actor) : Tx MemoryRecord := do
  let now ← nowSecs
  let id ← newPrefixedId "mem_"
  -- candidates keep the key, so that an approval replaces the decision in conflict
  let memory : MemoryRecord := {
    id := id
    scopeKind := scope
    scopeId := scopeId
    kind := kind
    stableKey := key
    status := .candidate
    trustClass := actor.trust
    content := content
    currentRevision := 1
    validUntil := none
    createdAt := now
    updatedAt := now }
  persistMemory memory
  appendRevision memory "conflict" actor
  pure memory

def supersedeRow (existing : MemoryRecord) (content : String) (actor : Actor) :
    Tx MemoryRecord := do
  let now ← nowSecs
  let nextRevision ← revisionAfter existing.currentRevision
  let previous := { existing with status := .superseded, updatedAt := now }
  persistMemory previous
  deleteFts previous.id
  let id ← newPrefixedId "mem_"
  let next := { existing with
    id := id
    content := content
    status := if actor.isHuman then .active else .candidate
    trustClass := actor.trust
    currentRevision := nextRevision
    createdAt := now
    updatedAt := now }
  persistMemory next
  appendRevision next "supersede" actor
  indexRetrievable next
  pure next

def scopeIdOf (request : RememberRequest) (location : ResolvedLocation) (project : ResolvedProject)
    (task : String) : String :=
  match request.scope with
  | .project => project.canonicalId
  | .task => task
  | .workspace => (request.workspaceId.map Uuid.display).getD location.cwd
  | .user => "user"

def desiredStatus (actor : Actor) : MemoryStatus :=
  if actor.isHuman then .active else .candidate

/-- A write over the latest memory of its key. -/
def rememberOver (request : RememberRequest) (scopeId key content : String)
    (existing : MemoryRecord) : Tx WriteResult := do
  let equivalent := contentsEquivalent existing.content content
  let deduped : Tx WriteResult := do
    let receipt ← newPrefixedId "rcp_"
    pure (.deduped ⟨existing, receipt, existing.currentRevision⟩)
  let conflict : Tx WriteResult := do
    let inserted ← insertConflictCandidate scopeId request.scope request.kind key content
      request.actor
    pure (.conflict ⟨existing, content, some inserted.id⟩)
  if existing.status = .tombstoned || existing.status = .rejected then
    insertFresh request scopeId key content (desiredStatus request.actor)
  else if equivalent && existing.status = desiredStatus request.actor then
    deduped
  else if !request.actor.isHuman && existing.status = .active then
    -- an agent does not withdraw a memory that was approved
    if equivalent then deduped else conflict
  else if request.expectedRevision ≠ some existing.currentRevision then
    if equivalent then pure (.conflict ⟨existing, content, none⟩) else conflict
  else
    let updated ← supersedeRow existing content request.actor
    let receipt ← newPrefixedId "rcp_"
    pure (.committed ⟨updated, receipt, updated.currentRevision⟩)

/-- A request behind the normalisation of its key and its content. -/
def rememberKeyed (request : RememberRequest) (scopeId key content : String) :
    Tx WriteResult := do
  ensure (key ≠ "") (.message "la clave no puede estar vacía")
  ensure (key.length ≤ maxMemoryKeyChars) (.message "la clave supera el límite de 256 caracteres")
  ensure (content ≠ "") (.message "el contenido no puede estar vacío")
  ensure (content.length ≤ maxMemoryContentChars)
    (.message "el contenido supera el límite de 65536 caracteres")
  let existing ← findLatestKey request.scope scopeId key
  match existing with
  | some existing => rememberOver request scopeId key content existing
  | none => insertFresh request scopeId key content (desiredStatus request.actor)

def rememberInner (policy : Policy) (request : RememberRequest) (location : ResolvedLocation) :
    Tx WriteResult := do
  let project ← upsertProject location
  let task ← upsertTask project.canonicalId location request.orchestratorTaskId
  ensure (¬ (request.scope = .user ∧ request.actor.isHuman = false))
    (.message "solo una acción humana puede crear memoria de usuario")
  rememberKeyed request (scopeIdOf request location project task)
    (normalizeKey (stripInvisible request.key)) (policy.prepareContent request.content)

/-! ## Receipts -/

def receiptMismatch : StoreError :=
  .message "request_id reutilizado con un payload diferente; no se ejecutó la mutación"

def loadReceipt (key : ReceiptKey) (fingerprint : String) : Tx (Option WriteResult) := do
  let stored ← read fun tables => tables.receipts.find key
  match stored with
  | none => pure none
  | some receipt => do
      ensure (receipt.requestFingerprint = fingerprint) receiptMismatch
      pure (some receipt.result)

def saveReceipt (key : ReceiptKey) (fingerprint : String) (result : WriteResult) : Tx Unit := do
  let now ← nowSecs
  write fun tables => { tables with
    receipts := if (tables.receipts.find key).isSome then tables.receipts
      else tables.receipts.put key ⟨fingerprint, result, now⟩ }

def ReceiptKey.of (request : RememberRequest) : ReceiptKey :=
  ⟨request.clientId, request.requestId⟩

/-- A request that is executed, and its receipt. -/
def rememberAnew (policy : Policy) (request : RememberRequest) (location : ResolvedLocation)
    (fingerprint : String) : Tx WriteResult := do
  let result ← rememberInner policy request location
  saveReceipt (.of request) fingerprint result
  pure result

def rememberOnce (policy : Policy) (request : RememberRequest) (location : ResolvedLocation)
    (fingerprint : String) : Tx WriteResult := do
  let cached ← loadReceipt (.of request) fingerprint
  match cached with
  | some result => pure result
  | none => rememberAnew policy request location fingerprint

/-! ## Decisions of a human -/

/-- The active memory that an approval replaces; the revision behind it. -/
def supersedeOnApprove (existing : MemoryRecord) (nextRevision : Nat) (actor : Actor) :
    Tx Nat := do
  let revision ← revisionAfter existing.currentRevision
  let now ← nowSecs
  let replaced := { existing with
    status := .superseded, currentRevision := revision, updatedAt := now }
  let following ← revisionAfter revision
  persistMemory replaced
  appendRevision replaced "supersede_on_approve" actor
  deleteFts replaced.id
  pure (max nextRevision following)

/-- The revision of an approval, behind the memory it replaces. -/
def revisionOver (existing : Option MemoryRecord) (memoryId : String) (nextRevision : Nat)
    (actor : Actor) : Tx Nat :=
  match existing with
  | some existing =>
      if existing.id ≠ memoryId then supersedeOnApprove existing nextRevision actor
      else pure nextRevision
  | none => pure nextRevision

def approveInner (memoryId : String) (actor : Actor) : Tx MemoryRecord := do
  let loaded ← loadMemory memoryId
  match loaded with
  | none => throw (.message "memoria no encontrada")
  | some memory => do
      ensure (memory.status = .candidate) (.message "solo se aprueban candidatas")
      let nextRevision ← revisionAfter memory.currentRevision
      let existing ← findActiveKey memory.scopeKind memory.scopeId memory.stableKey
      let revision ← revisionOver existing memory.id nextRevision actor
      let now ← nowSecs
      let approved := { memory with
        status := .active, currentRevision := revision, updatedAt := now }
      persistMemory approved
      appendRevision approved "approve" actor
      upsertFts approved
      pure approved

def setStatus (memoryId : String) (status : MemoryStatus) (actor : Actor) (operation : String)
    (dropFts : Bool) (expectedStatus : Option MemoryStatus) : Tx MemoryRecord := do
  let loaded ← loadMemory memoryId
  match loaded with
  | none => throw (.message "memoria no encontrada")
  | some memory => do
      ensure (∀ expected, expectedStatus = some expected → memory.status = expected)
        (.message ("estado de memoria inválido para " ++ operation))
      let revision ← revisionAfter memory.currentRevision
      let now ← nowSecs
      let changed := { memory with
        status := status, currentRevision := revision, updatedAt := now }
      persistMemory changed
      appendRevision changed operation actor
      dropFtsIf dropFts changed.id
      pure changed

/-! ## Linking projects -/

/-- `UPDATE memories SET scope_id, status, current_revision, updated_at WHERE id`. -/
def updateMemory (memory : MemoryRecord) : Tx Unit := do
  let stored ← read fun tables => tables.memories.find memory.id
  match stored with
  | none => pure ()
  | some old => storeMemory memory.id { old with
      scopeId := memory.scopeId
      status := memory.status
      currentRevision := memory.currentRevision
      updatedAt := memory.updatedAt }

/-- The active key of a memory is taken in another scope. -/
def collides (kind : ScopeKind) (target : String) (memory : MemoryRecord) : Tx Bool :=
  if memory.status = .active then do
    let existing ← findActiveKey kind target memory.stableKey
    pure existing.isSome
  else
    pure false

def moveMemory (kind : ScopeKind) (target : String) (memory : MemoryRecord) : Tx Unit := do
  let collision ← collides kind target memory
  dropFtsIf collision memory.id
  let revision ← revisionAfter memory.currentRevision
  let now ← nowSecs
  let moved := { memory with
    status := if collision then .candidate else memory.status
    scopeId := target
    currentRevision := revision
    updatedAt := now }
  updateMemory moved
  appendRevision moved (if collision then "link_project_conflict" else "link_project")
    .localUser

def mergeMemoryScope (kind : ScopeKind) (source target : String) : Tx Unit := do
  let memories ← select (·.memories) fun row => row.scopeKind = kind && row.scopeId = source
  memories.forM fun entry => moveMemory kind target entry.2

def taskIdentityTaken (tasks : Table String TaskRow) (id : String) (row : TaskRow) : Bool :=
  tasks.entries.any fun entry =>
    entry.1 ≠ id && entry.2.projectId = row.projectId &&
      entry.2.identityValue = row.identityValue

def moveTask (target : String) (entry : String × TaskRow) : Tx Unit := do
  let rows ← select (·.tasks) fun row =>
    row.projectId = target && (row.identityValue = entry.2.identityValue ||
      (row.orchestratorTaskId.isSome && row.orchestratorTaskId = entry.2.orchestratorTaskId))
  match firstBy olderTask rows with
  | some existing => do
      mergeMemoryScope .task entry.1 existing.1
      write fun tables => { tables with
        handoffs := tables.handoffs.mapRows fun _ handoff =>
          if handoff.taskId = entry.1 then { handoff with taskId := existing.1 } else handoff
        tasks := tables.tasks.remove entry.1 }
  | none => do
      let moved := { entry.2 with projectId := target }
      let taken ← read fun tables => taskIdentityTaken tables.tasks entry.1 moved
      ensure (taken = false) (.constraint .taskIdentity)
      write fun tables => { tables with tasks := tables.tasks.put entry.1 moved }

def mergeProjectState (source target : String) : Tx Unit := do
  mergeMemoryScope .project source target
  let tasks ← select (·.tasks) fun row => row.projectId = source
  tasks.forM (moveTask target)
  write fun tables => { tables with
    handoffs := tables.handoffs.mapRows fun _ handoff =>
      if handoff.projectId = source then { handoff with projectId := target } else handoff }

/-- Merge one canonical project into another, unless they are the same. -/
def absorbProject (source target : String) : Tx Unit :=
  if source = target then
    pure ()
  else do
    mergeProjectState source target
    let now ← nowSecs
    write fun tables => { tables with
      projects := tables.projects.mapRows fun id row =>
        if id = source then { row with linkedProjectId := some target, updatedAt := now }
        else row }

def linkInner (left right : ResolvedLocation) : Tx ResolvedProject := do
  let a ← upsertProject left
  let b ← upsertProject right
  absorbProject b.canonicalId a.canonicalId
  requireProject a.id "proyecto perdido tras vincular"

/-! ## Handoffs and visits -/

def handoffExpiry (now : Int) : Option Int → Tx (Option Int)
  | none => pure none
  | some ttl =>
      if ttl ≤ 0 then throw (.message "el TTL del handoff debe ser positivo")
      else match checkedAddI64 now ttl with
        | some expires => pure (some expires)
        | none => throw (.message "el TTL del handoff es demasiado grande")

/-- `create_handoff` behind the answer of the hook ledger. -/
def handoffInner (policy : Policy) (request : HandoffRequest) (location : ResolvedLocation)
    (validated : Except String Unit) : Tx HandoffRecord := do
  match validated with
  | .error reason => throw (.message reason)
  | .ok () => do
      let project ← upsertProject location
      let task ← upsertTask project.canonicalId location request.orchestratorTaskId
      let now ← nowSecs
      let summary := policy.prepareContent request.summary
      ensure (summary ≠ "") (.message "el handoff no puede estar vacío")
      ensure (summary.length ≤ maxHandoffChars)
        (.message "el handoff supera el límite de 32768 caracteres")
      let expiresAt ← handoffExpiry now request.ttlSecs
      let id ← newPrefixedId "hnd_"
      let record : HandoffRecord :=
        ⟨id, project.canonicalId, task, summary, request.provider, request.sessionId, expiresAt,
          now⟩
      let taken ← read fun tables => (tables.handoffs.find id).isSome
      ensure (taken = false) (.constraint .handoffId)
      write fun tables => { tables with handoffs := tables.handoffs.put id record }
      pure record

/-- What every query writes before it reads: the project and the task of its directory. -/
def visitInner (location : ResolvedLocation) (orchestratorTaskId : Option Uuid)
    (validated : Except String Unit) : Tx (ResolvedProject × String) := do
  match validated with
  | .error reason => throw (.message reason)
  | .ok () => do
      let project ← upsertProject location
      let task ← upsertTask project.canonicalId location orchestratorTaskId
      pure (project, task)

/-! ## The machine -/

/-- The surroundings of one transaction, and whether its commit succeeds. -/
structure World where
  environment : Environment
  commits : Bool

def transact {Answer : Type} (world : World) (body : Tx Answer) (tables : Tables) :
    Except StoreError Answer × Tables :=
  let outcome := immediate (if world.commits then .ok () else .error .busy) body
    ⟨tables, world.environment, 0, 0⟩
  (outcome.1, outcome.2.tables)

def validClientIdentifier (value : String) : Bool :=
  !(trim value).isEmpty && value.length ≤ maxClientIdChars && !value.toList.any isControl

/-- What `remember` checks before its transaction: the fingerprint of a valid request. -/
def admitRequest (policy : Policy) (request : RememberRequest) : Except StoreError String :=
  if validClientIdentifier request.clientId = false then
    .error (.message "client_id debe tener entre 1 y 256 caracteres")
  else if validClientIdentifier request.requestId = false then
    .error (.message "request_id debe tener entre 1 y 256 caracteres")
  else
    match policy.fingerprintRequest request with
    | .error reason => .error (.message reason)
    | .ok fingerprint => .ok fingerprint

def remember (policy : Policy) (request : RememberRequest) (location : ResolvedLocation)
    (world : World) (tables : Tables) : Except StoreError WriteResult × Tables :=
  match admitRequest policy request with
  | .error error => (.error error, tables)
  | .ok fingerprint => transact world (rememberOnce policy request location fingerprint) tables

def proposed (request : RememberRequest) : RememberRequest :=
  if request.actor.isHuman then { request with actor := .ofProvider "unspecified" } else request

def asHuman {Answer : Type} (actor : Actor) (operation : String) (world : World)
    (body : Tx Answer) (tables : Tables) : Except StoreError Answer × Tables :=
  if actor.isHuman then
    transact world body tables
  else
    (.error (.message ("sólo una acción humana puede " ++ operation ++ " memoria")), tables)

inductive Input where
  | remember (request : RememberRequest) (location : ResolvedLocation) (world : World)
  | propose (request : RememberRequest) (location : ResolvedLocation) (world : World)
  | approve (memoryId : String) (actor : Actor) (world : World)
  | reject (memoryId : String) (actor : Actor) (world : World)
  | forget (memoryId : String) (actor : Actor) (world : World)
  | linkProjects (left right : ResolvedLocation) (world : World)
  | resolveProject (location : ResolvedLocation) (world : World)
  | createHandoff (request : HandoffRequest) (location : ResolvedLocation)
      (validated : Except String Unit) (world : World)
  | visit (location : ResolvedLocation) (orchestratorTaskId : Option Uuid)
      (validated : Except String Unit) (world : World)

inductive Observation where
  | remembered (result : Except StoreError WriteResult)
  | decided (result : Except StoreError MemoryRecord)
  | resolved (result : Except StoreError ResolvedProject)
  | handedOff (result : Except StoreError HandoffRecord)
  | visited (result : Except StoreError (ResolvedProject × String))

/-- What a caller sees of an operation, and what it leaves. -/
def answer {Answer : Type} (observed : Except StoreError Answer → Observation)
    (outcome : Except StoreError Answer × Tables) : StepResult Tables Observation :=
  ⟨outcome.2, observed outcome.1⟩

def step (policy : Policy) (tables : Tables) : Input → StepResult Tables Observation
  | .remember request location world =>
      answer .remembered (remember policy request location world tables)
  | .propose request location world =>
      answer .remembered (remember policy (proposed request) location world tables)
  | .approve memoryId actor world =>
      answer .decided (asHuman actor "aprobar" world (approveInner memoryId actor) tables)
  | .reject memoryId actor world =>
      answer .decided (asHuman actor "rechazar" world
        (setStatus memoryId .rejected actor "reject" false (some .candidate)) tables)
  | .forget memoryId actor world =>
      answer .decided (asHuman actor "olvidar" world
        (setStatus memoryId .tombstoned actor "forget" true none) tables)
  | .linkProjects left right world =>
      answer .resolved (transact world (linkInner left right) tables)
  | .resolveProject location world =>
      answer .resolved (transact world (upsertProject location) tables)
  | .createHandoff request location validated world =>
      answer .handedOff (transact world (handoffInner policy request location validated) tables)
  | .visit location orchestratorTaskId validated world =>
      answer .visited (transact world (visitInner location orchestratorTaskId validated) tables)

def machine (policy : Policy) : Machine Tables Input Observation where
  step := step policy

end TerminalCanvas.Memory.Store
