import TerminalCanvas.Foundation.Primitives
import TerminalCanvas.Foundation.Text

/-! # The types of the memory store

Paths stand as the text the store keeps of them. -/

namespace TerminalCanvas.Memory

inductive IdentityKind where
  | gitCommonDir
  | workspaceRoot
deriving DecidableEq, Repr

inductive ScopeKind where
  | user
  | project
  | workspace
  | task
deriving DecidableEq, Repr

inductive MemoryKind where
  | preference
  | constraint
  | decision
  | fact
  | procedure
  | handoff
  | episode
  | instruction
deriving DecidableEq, Repr

inductive MemoryStatus where
  | candidate
  | active
  | rejected
  | superseded
  | tombstoned
deriving DecidableEq, Repr

def MemoryStatus.isRetrievable (status : MemoryStatus) : Bool := status = .active

inductive TrustClass where
  | owner
  | agent
  | tool
  | external
  | recalled
  | system
deriving DecidableEq, Repr

inductive Actor where
  | human (id : String)
  | agent (provider : String) (sessionId : Option String)
deriving DecidableEq, Repr

namespace Actor

/-- The human the store itself acts for. -/
def localUser : Actor := .human "local-user"

/-- An agent without a session. -/
def ofProvider (provider : String) : Actor := .agent provider none

def isHuman : Actor → Bool
  | .human _ => true
  | .agent _ _ => false

def kind : Actor → String
  | .human _ => "human"
  | .agent _ _ => "agent"

def id : Actor → String
  | .human id => id
  | .agent provider none => provider
  | .agent provider (some session) => provider ++ ":" ++ session

def trust (actor : Actor) : TrustClass := if actor.isHuman then .owner else .agent

end Actor

structure ResolvedLocation where
  cwd : String
  identityKind : IdentityKind
  identityValue : String
  worktreeRoot : Option String
  remoteFingerprint : Option String
deriving DecidableEq, Repr

def ResolvedLocation.taskIdentity (location : ResolvedLocation) : String :=
  location.worktreeRoot.getD location.cwd

structure ResolvedProject where
  id : String
  canonicalId : String
  identityKind : IdentityKind
  identityValue : String
  remoteFingerprint : Option String
deriving DecidableEq, Repr

structure MemoryRecord where
  id : String
  scopeKind : ScopeKind
  scopeId : String
  kind : MemoryKind
  stableKey : String
  status : MemoryStatus
  trustClass : TrustClass
  content : String
  currentRevision : Nat
  validUntil : Option Int
  createdAt : Int
  updatedAt : Int
deriving DecidableEq, Repr

structure HandoffRecord where
  id : String
  projectId : String
  taskId : String
  summary : String
  provider : Option String
  sessionId : Option String
  expiresAt : Option Int
  createdAt : Int
deriving DecidableEq, Repr

def maxMemoryKeyChars : Nat := 256
def maxMemoryContentChars : Nat := 65536
def maxHandoffChars : Nat := 32768
def maxClientIdChars : Nat := 256

structure RememberRequest where
  clientId : String
  requestId : String
  cwd : String
  scope : ScopeKind
  kind : MemoryKind
  key : String
  content : String
  actor : Actor
  expectedRevision : Option Nat
  orchestratorTaskId : Option Uuid
  workspaceId : Option Uuid
deriving DecidableEq, Repr

structure CommittedWrite where
  memory : MemoryRecord
  receiptId : String
  committedRevision : Nat
deriving DecidableEq, Repr

structure ConflictWrite where
  current : MemoryRecord
  incomingContent : String
  candidateId : Option String
deriving DecidableEq, Repr

inductive WriteResult where
  | committed (write : CommittedWrite)
  | conflict (write : ConflictWrite)
  | deduped (write : CommittedWrite)
deriving DecidableEq, Repr

structure HandoffRequest where
  cwd : String
  summary : String
  provider : Option String
  sessionId : Option String
  orchestratorTaskId : Option Uuid
  ttlSecs : Option Int
deriving DecidableEq, Repr

def contentsEquivalent (left right : String) : Bool := left = right

def normalizeKey (key : String) : String :=
  let parts := (trim key).toList.splitOnP fun character =>
    isWhiteSpace character || character = '\\'
  "/".intercalate ((parts.filter (· ≠ [])).map String.ofList)

/-- The characters that redaction strips besides control characters. -/
def invisible : List Nat :=
  [0x200B, 0x200C, 0x200D, 0x2060, 0xFEFF, 0x00AD, 0x202A, 0x202B, 0x202C, 0x202D, 0x202E,
    0x2066, 0x2067, 0x2068, 0x2069]

def stripInvisible (text : String) : String :=
  String.ofList (text.toList.filter fun character =>
    (!invisible.contains character.toNat && !isControl character) ||
      character = '\n' || character = '\r' || character = '\t')

end TerminalCanvas.Memory
