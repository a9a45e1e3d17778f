import Mathlib.Data.List.Infix
import TerminalCanvas.Memory.ContextText
import TerminalCanvas.Memory.StoreOperations

/-! # What a context pack reads

The active memories of the visible scopes, the latest handoff of the task and the results
of a search. Every query sees the project and the task of its directory first. -/

namespace TerminalCanvas.Memory.Store

open TerminalCanvas.Transaction

def maxSearchResults : Nat := 100
def maxSearchResponseBytes : Nat := 512 * 1024
def maxSearchQueryChars : Nat := 512
def maxFtsTerms : Nat := 32
def maxContextCandidatesPerScope : Nat := 32

/-! ## Scopes -/

structure VisibleScope where
  kind : ScopeKind
  id : String
deriving DecidableEq, Repr

def scopesFor (project : ResolvedProject) (taskId cwd : String) (workspaceId : Option Uuid) :
    List VisibleScope :=
  [⟨.project, project.canonicalId⟩, ⟨.task, taskId⟩, ⟨.user, "user"⟩, ⟨.workspace, cwd⟩] ++
    (workspaceId.map fun id => ⟨.workspace, id.display⟩).toList

/-- A memory of a scope that has not expired. -/
def visibleIn (scope : VisibleScope) (status : MemoryStatus) (now : Int) (row : MemoryRecord) :
    Bool :=
  row.scopeKind = scope.kind && row.scopeId = scope.id && row.status = status &&
    row.validUntil.all (now < ·)

/-! ## Lists -/

/-- `ORDER BY updated_at DESC, rowid DESC`, the rows as the database gives them. -/
def latestFirst (rows : List (String × MemoryRecord)) : List MemoryRecord :=
  (rows.map (·.2)).mergeSort fun left right => right.updatedAt ≤ left.updatedAt

def limited {Row : Type} (limit : Option Nat) (rows : List Row) : List Row :=
  match limit with
  | some limit => rows.take limit
  | none => rows

def listByScopesWithLimit (status : MemoryStatus) (perScopeLimit : Option Nat) :
    List VisibleScope → Tx (List MemoryRecord)
  | [] => pure []
  | scope :: scopes => do
      let now ← nowSecs
      let rows ← select (·.memories) (visibleIn scope status now)
      let others ← listByScopesWithLimit status perScopeLimit scopes
      pure (limited perScopeLimit (latestFirst rows) ++ others)

/-- `ORDER BY created_at DESC, rowid DESC`. -/
def laterHandoff (left right : String × HandoffRecord) : Bool :=
  right.2.createdAt < left.2.createdAt

def loadLatestHandoff (taskId : String) : Tx (Option HandoffRecord) := do
  let now ← nowSecs
  let rows ← select (·.handoffs) fun row =>
    row.taskId = taskId && row.expiresAt.all (now < ·)
  pure ((firstBy laterHandoff rows).map (·.2))

/-- What is loaded in front of every pack. -/
structure VisibleActive where
  project : ResolvedProject
  taskId : String
  active : List MemoryRecord
  handoff : Option HandoffRecord

def loadVisibleActive (location : ResolvedLocation) (orchestratorTaskId workspaceId : Option Uuid)
    (validated : Except String Unit) : Tx VisibleActive := do
  let (project, task) ← visitInner location orchestratorTaskId validated
  let memories ← listByScopesWithLimit .active (some maxContextCandidatesPerScope)
    (scopesFor project task location.cwd workspaceId)
  let handoff ← loadLatestHandoff task
  pure ⟨project, task, memories, handoff⟩

/-! ## Searches -/

/-- The text of a row, or its key, contains the query. -/
def mentions (query : String) (row : MemoryRecord) : Bool :=
  query = "" || row.stableKey = query ||
    decide (asciiLowercase query <:+: asciiLowercase row.content) ||
    decide (asciiLowercase query <:+: asciiLowercase row.stableKey)

/-- `ORDER BY CASE WHEN stable_key = ? THEN 0 ELSE 1 END, updated_at DESC, rowid DESC`. -/
def exactFirst (query : String) (rows : List (String × MemoryRecord)) : List MemoryRecord :=
  (latestFirst rows).mergeSort fun left right =>
    decide (left.stableKey = query) || !decide (right.stableKey = query)

/-- The full-text index: the memories that match, in the order of the query. -/
abbrev FullText := Tables → String → List String

def isTermCharacter (character : Char) : Bool :=
  character.isAlphanum || character = '_' || character = '-' || character = '/'

def ftsQuery (raw : String) : Option String :=
  let terms := ((raw.toList.splitOnP (!isTermCharacter ·)).filter (· ≠ [])).take maxFtsTerms
  if terms.isEmpty then
    none
  else
    some (" OR ".intercalate (terms.map fun term =>
      String.ofList (Json.quote :: term.filter (· ≠ Json.quote) ++ [Json.quote])))

/-- The results so far, and the bytes they take in the response. -/
structure Response where
  out : List MemoryRecord
  bytes : Nat

/-- A record gains two spaces a line inside of its array. -/
def responseCost (memory : MemoryRecord) : Nat :=
  let json := toStringPretty (memoryValue memory)
  Json.byteLength json + (json.count '\n' + 1) * 2 + 2

def appendSearchResult (response : Response) (memory : MemoryRecord) : Response :=
  if response.out.any (·.id = memory.id) then
    response
  else if response.bytes + responseCost memory ≤ maxSearchResponseBytes then
    ⟨response.out ++ [memory], response.bytes + responseCost memory⟩
  else
    response

def appendSearchResults (response : Response) : List MemoryRecord → Response
  | [] => response
  | memory :: memories =>
      let next := appendSearchResult response memory
      if next.out.length = maxSearchResults then next else appendSearchResults next memories

/-- One query for each scope, until the response is full. -/
def searchScopes (query : VisibleScope → Tx (List MemoryRecord)) (response : Response) :
    List VisibleScope → Tx Response
  | [] => pure response
  | scope :: scopes => do
      let rows ← query scope
      let next := appendSearchResults response rows
      if next.out.length = maxSearchResults then
        pure next
      else
        searchScopes query next scopes

def searchLiteral (query : String) (scope : VisibleScope) : Tx (List MemoryRecord) := do
  let now ← nowSecs
  let rows ← select (·.memories) fun row =>
    visibleIn scope .active now row && mentions query row
  pure ((exactFirst query rows).take maxSearchResults)

def searchFullText (fullText : FullText) (query : String) (scope : VisibleScope) :
    Tx (List MemoryRecord) := do
  let now ← nowSecs
  let rows ← read fun tables =>
    ((fullText tables query).filterMap tables.memories.find).filter (visibleIn scope .active now)
  pure (rows.take maxSearchResults)

def searchOrder : ScopeKind → Nat
  | .task => 0
  | .project => 1
  | .workspace => 2
  | .user => 3

def searchVisible (fullText : FullText) (scopes : List VisibleScope) (query : String) :
    Tx (List MemoryRecord) := do
  let trimmed := trim query
  ensure (trimmed.length ≤ maxSearchQueryChars)
    (.message "la consulta supera el límite de 512 caracteres")
  let sorted := scopes.mergeSort fun left right => searchOrder left.kind ≤ searchOrder right.kind
  let literal ← searchScopes (searchLiteral trimmed) ⟨[], 4⟩ sorted
  if literal.out.length = maxSearchResults then
    pure literal.out
  else
    match ftsQuery trimmed with
    | none => pure literal.out
    | some terms => do
        let found ← searchScopes (searchFullText fullText terms) literal sorted
        pure found.out

def searchForContext (fullText : FullText) (location : ResolvedLocation) (query : String)
    (orchestratorTaskId workspaceId : Option Uuid) (validated : Except String Unit) :
    Tx (List MemoryRecord) := do
  let (project, task) ← visitInner location orchestratorTaskId validated
  searchVisible fullText (scopesFor project task location.cwd workspaceId) query

/-! ## Only active memories -/

def AllActive (memories : List MemoryRecord) : Prop :=
  ∀ memory ∈ memories, memory.status = .active

section Active

variable {work : Work}

theorem visibleIn_status {scope : VisibleScope} {status : MemoryStatus} {now : Int}
    {row : MemoryRecord} (visible : visibleIn scope status now row = true) :
    row.status = status := by
  simp only [visibleIn, Bool.and_eq_true, decide_eq_true_eq] at visible
  exact visible.1.2

theorem mem_latestFirst {rows : List (String × MemoryRecord)} {memory : MemoryRecord} :
    memory ∈ latestFirst rows ↔ ∃ id, (id, memory) ∈ rows := by
  rw [latestFirst, List.mem_mergeSort, List.mem_map]
  constructor
  · rintro ⟨⟨id, _⟩, member, rfl⟩
    exact ⟨id, member⟩
  · rintro ⟨id, member⟩
    exact ⟨(id, memory), member, rfl⟩

theorem mem_of_mem_limited {Row : Type} {limit : Option Nat} {rows : List Row} {row : Row}
    (member : row ∈ limited limit rows) : row ∈ rows := by
  cases limit with
  | none => exact member
  | some limit => exact List.mem_of_mem_take member

theorem listByScopesWithLimit_ensures (limit : Option Nat) (scopes : List VisibleScope) :
    Ensures (listByScopesWithLimit .active limit scopes) work
      (fun memories _ => AllActive memories) fun _ => True := by
  induction scopes generalizing work with
  | nil =>
      rw [listByScopesWithLimit]
      exact .pure (List.forall_mem_nil _)
  | cons scope scopes induction =>
      rw [listByScopesWithLimit]
      refine .seq nowSecs_ensures ?_
      intro now first _
      apply select_bind
      refine .seq induction ?_
      intro others second rest
      refine .pure ?_
      intro memory member
      rcases List.mem_append.mp member with own | other
      · obtain ⟨id, stored⟩ := mem_latestFirst.mp (mem_of_mem_limited own)
        exact visibleIn_status (mem_rows.mp stored).2
      · exact rest memory other

theorem loadVisibleActive_ensures (location : ResolvedLocation)
    (orchestratorTaskId workspaceId : Option Uuid) (validated : Except String Unit) :
    Ensures (loadVisibleActive location orchestratorTaskId workspaceId validated) work
      (fun loaded _ => AllActive loaded.active) fun _ => True := by
  rw [loadVisibleActive]
  refine .seq .whatever ?_
  rintro ⟨project, task⟩ first -
  refine .seq (listByScopesWithLimit_ensures _ _) ?_
  intro memories second active
  refine .seq .whatever ?_
  intro handoff third _
  exact .pure active

theorem appendSearchResult_active {response : Response} {memory : MemoryRecord}
    (active : AllActive response.out) (own : memory.status = .active) :
    AllActive (appendSearchResult response memory).out := by
  unfold appendSearchResult
  split
  · exact active
  · split
    · intro other member
      rcases List.mem_append.mp member with old | new
      · exact active other old
      · rw [List.mem_singleton.mp new]
        exact own
    · exact active

theorem appendSearchResults_active {response : Response} {memories : List MemoryRecord}
    (active : AllActive response.out) (rows : AllActive memories) :
    AllActive (appendSearchResults response memories).out := by
  induction memories generalizing response with
  | nil => exact active
  | cons memory memories induction =>
      have next := appendSearchResult_active active (rows memory (List.mem_cons_self ..))
      rw [appendSearchResults]
      split
      · exact next
      · exact induction next fun other member => rows other (List.mem_cons_of_mem _ member)

theorem searchScopes_ensures {query : VisibleScope → Tx (List MemoryRecord)}
    (queries : ∀ scope work, Ensures (query scope) work
      (fun memories _ => AllActive memories) fun _ => True)
    {response : Response} (active : AllActive response.out) (scopes : List VisibleScope) :
    Ensures (searchScopes query response scopes) work
      (fun response _ => AllActive response.out) fun _ => True := by
  induction scopes generalizing work response with
  | nil =>
      rw [searchScopes]
      exact .pure active
  | cons scope scopes induction =>
      rw [searchScopes]
      refine .seq (queries scope work) ?_
      intro rows next found
      have grown := appendSearchResults_active active found
      simp only
      split
      · exact .pure grown
      · exact induction grown

theorem searchLiteral_ensures (query : String) (scope : VisibleScope) :
    Ensures (searchLiteral query scope) work (fun memories _ => AllActive memories)
      fun _ => True := by
  rw [searchLiteral]
  refine .seq nowSecs_ensures ?_
  intro now first _
  apply select_bind
  refine .pure ?_
  intro memory member
  have taken := List.mem_of_mem_take member
  rw [exactFirst, List.mem_mergeSort, mem_latestFirst] at taken
  obtain ⟨id, stored⟩ := taken
  have chosen := (mem_rows.mp stored).2
  rw [Bool.and_eq_true] at chosen
  exact visibleIn_status chosen.1

theorem searchFullText_ensures (fullText : FullText) (query : String) (scope : VisibleScope) :
    Ensures (searchFullText fullText query scope) work (fun memories _ => AllActive memories)
      fun _ => True := by
  rw [searchFullText]
  refine .seq nowSecs_ensures ?_
  intro now first _
  apply read_bind
  refine .pure ?_
  intro memory member
  exact visibleIn_status (List.mem_filter.mp (List.mem_of_mem_take member)).2

theorem searchForContext_ensures (fullText : FullText) (location : ResolvedLocation)
    (query : String) (orchestratorTaskId workspaceId : Option Uuid)
    (validated : Except String Unit) :
    Ensures (searchForContext fullText location query orchestratorTaskId workspaceId validated) work
      (fun memories _ => AllActive memories) fun _ => True := by
  rw [searchForContext]
  refine .seq .whatever ?_
  rintro ⟨project, task⟩ first -
  simp only [searchVisible]
  refine .ensure_bind (fun _ => trivial) ?_
  intro _
  have start : AllActive (Response.mk [] 4).out := List.forall_mem_nil _
  refine .seq (searchScopes_ensures (fun scope work => searchLiteral_ensures _ scope) start _) ?_
  intro literal second active
  split
  · exact .pure active
  · split
    · exact .pure active
    · next terms _ =>
        refine .seq (searchScopes_ensures
          (fun scope work => searchFullText_ensures fullText terms scope) active _) ?_
        intro found third all
        exact .pure all

end Active

end TerminalCanvas.Memory.Store
