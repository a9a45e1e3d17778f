import TerminalCanvas.Foundation.Table
import TerminalCanvas.HookAuthority.Claim
import TerminalCanvas.Terminal.AgentStatus

/-! # Observations of panels

A poll takes what is observed of the panels into the sessions of the agents, and from these
into the tasks and the inbox. -/

namespace TerminalCanvas.Orchestration

open HookAuthority (Claim)
open Terminal (AgentStatusReport)

inductive AgentStatus where
  | idle
  | running
  | waitingApproval
  | needsInput
  | reviewing
  | failed
  | done
deriving DecidableEq, Repr

inductive TaskState where
  | draft
  | queued
  | running
  | blocked
  | reviewReady
  | done
  | cancelled
deriving DecidableEq, Repr

inductive DependencyKind where
  | blockedBy
  | dependsOn
deriving DecidableEq, Repr

structure DependencyEdge where
  fromTask : Uuid
  toTask : Uuid
  kind : DependencyKind
deriving DecidableEq, Repr

structure ReviewSummary where
  changedFiles : List String
  lastError : Option String
  lastSuccess : Option String
deriving DecidableEq, Repr

structure TaskCard where
  id : Uuid
  state : TaskState
  sessionIds : List Uuid
  conflictRisk : Bool
deriving DecidableEq, Repr

/-- Of the summary of the last command only the excerpt is kept. -/
structure AgentSessionMeta where
  sessionId : Uuid
  panelId : Option Uuid
  workspaceId : Uuid
  label : String
  taskId : Option Uuid
  status : AgentStatus
  commandExcerpt : Option String
  review : ReviewSummary
  conflictRisk : Bool
deriving DecidableEq, Repr

inductive InboxEventKind where
  | approvalPending
  | needsInput
  | testsFailed
  | processDone
  | conflictRisk
  | reviewReady
deriving DecidableEq, Repr

structure InboxEvent where
  id : Uuid
  sessionId : Option Uuid
  taskId : Option Uuid
  kind : InboxEventKind
  title : String
  summary : String
  createdAt : Int
  resolved : Bool
  archived : Bool
deriving DecidableEq, Repr

structure OrchestrationState where
  tasks : List TaskCard
  sessions : List AgentSessionMeta
  inbox : List InboxEvent
  dependencies : List DependencyEdge

/-- The state, and what hooks reported of it. Times are in nanoseconds. -/
structure Orchestrator where
  state : OrchestrationState
  hookStatus : Table Claim (AgentStatus × Int)
  sessionHookClaims : Table Uuid Claim

structure PanelRuntimeObservation where
  panelId : Uuid
  runtimeSessionId : Option Uuid
  workspaceId : Uuid
  hookClaim : Option Claim
  visibleText : String
  alive : Bool
  recentOutput : Bool
  textSnapshotAvailable : Bool
  attached : Bool
  agentStatus : Option AgentStatusReport

/-- What the git inspector has found out about the directory of a session. -/
structure GitResult where
  sessionId : Uuid
  changedFiles : Option (List String)

/-- A call of `apply_observations` with the clocks it reads. Each event that it builds reads
the clock for itself. -/
structure Poll where
  now : Int
  ptyNowMs : Int
  git : List GitResult
  observations : List PanelRuntimeObservation
  clock : InboxEventKind → Uuid → Int

/-! ## Texts -/

def asciiLower (byte : UInt8) : UInt8 := if 65 ≤ byte ∧ byte ≤ 90 then byte + 32 else byte

def asciiIcontains (haystack needle : String) : Bool :=
  ((utf8Bytes haystack).map asciiLower).tails.any
    (((utf8Bytes needle).map asciiLower).isPrefixOf ·)

def anyOf (text : String) (needles : List String) : Bool := needles.any (asciiIcontains text ·)

/-- `str::lines`: a line ends before its line feed and a carriage return in front of that. -/
def lines (text : String) : List String :=
  let parts := (text.toList.splitOn '\n').map fun line =>
    if line.getLast? = some '\r' then line.dropLast else line
  -- nothing stands behind a final line feed, and the last line keeps its carriage return
  let last := (text.toList.splitOn '\n').getLast?.getD []
  (if last = [] then parts.dropLast else parts.dropLast ++ [last]).map String.ofList

def trimEnd (text : String) : String :=
  String.ofList (text.toList.reverse.dropWhile isWhiteSpace).reverse

def hasBrailleSpinner (line : String) : Bool :=
  line.toList.any fun character => 0x2800 ≤ character.toNat && character.toNat ≤ 0x28FF

def statusTailLines (visibleText : String) (maxLines : Nat) : String :=
  let kept := ((lines visibleText).map trimEnd).filter (trim · ≠ "")
  String.intercalate "\n" (kept.drop (kept.length - maxLines))

def truncateText (text : String) (maxChars : Nat) : String :=
  if text.length ≤ maxChars then text
  else String.ofList (text.toList.take (maxChars - 1)) ++ "…"

/-! ## The status of a session -/

def agentStatusTtlMs : Int := 5 * 60 * 1000

def hookFreshnessSecs : Int := 10

def deriveStatus (alive recentOutput : Bool) (visibleText : String) (lastError : Option String) :
    AgentStatus :=
  let tail := statusTailLines visibleText 4
  let lastLine := (lines tail).getLast?.getD ""
  -- a spinner wins over the text of an older error
  if alive && recentOutput && hasBrailleSpinner lastLine then .running
  else if anyOf tail ["approve", "approval", "allow this command", "waiting for approval"] then
    .waitingApproval
  else if anyOf tail ["press enter", "continue?", "select an option", "waiting for input",
      "[y/n]"] then
    .needsInput
  else if lastError.isSome || anyOf tail ["error", "failed", "traceback", "exception", "panic",
      "command failed"] then
    .failed
  else if anyOf tail ["ready for review", "review ready", "tests passed",
      "done. changed files"] then
    .reviewing
  else if alive && recentOutput then .running
  else if alive then .idle
  else .done

def freshAgentStatus (report : Option AgentStatusReport) (nowMs : Int) :
    Option AgentStatusReport :=
  report.filter fun report => nowMs - report.receivedAtMs ≤ agentStatusTtlMs

/-- A finished turn is idle while the process lives. -/
def authoritativeAgentStatus (report : Option AgentStatusReport) (nowMs : Int) (alive : Bool) :
    Option AgentStatus :=
  (freshAgentStatus report nowMs).map fun report =>
    match report.state with
    | .working => .running
    | .blocked => .waitingApproval
    | .waiting => .needsInput
    | .done => if alive then .idle else .done

/-- The last line that is not empty. -/
def summarizeCommandOutput (visibleText : String) : Option String :=
  (((lines visibleText).map trim).filter (· ≠ "")).getLast?

def applyOutputSummaries (review : ReviewSummary) (visibleText : String) : ReviewSummary :=
  let review :=
    if anyOf visibleText ["tests passed", "all checks passed"] then
      { review with lastSuccess := some "Tests passed" }
    else review
  let errorLine := (((lines visibleText).filter (anyOf · ["error", "failed"])).getLast?.map
    trim).filter (· ≠ "")
  match errorLine with
  | some line => { review with lastError := some line }
  | none => review

section Observing

variable (orchestrator : Orchestrator) (poll : Poll)

def observationsByPanel : Table (Uuid × Uuid) PanelRuntimeObservation :=
  poll.observations.foldl (fun table observation =>
    table.put (observation.workspaceId, observation.panelId) observation) ∅

def freshHookStatus (claim : Claim) : Option AgentStatus :=
  ((orchestrator.hookStatus.find claim).filter fun hook =>
    (poll.now - hook.2).tdiv 1000000000 < hookFreshnessSecs).map (·.1)

/-- The claims that are observed on their own panel, with what their hooks reported. -/
def freshHooks : List (Claim × AgentStatus) :=
  (observationsByPanel poll).rows.filterMap fun observation => do
    let claim ← observation.hookClaim
    if claim.key.workspace ≠ observation.workspaceId ∨ claim.key.panel ≠ observation.panelId ∨
        some claim.runtime ≠ observation.runtimeSessionId ∨ !observation.alive ∨
        !observation.attached then
      none
    else
      (freshHookStatus orchestrator poll claim).map (claim, ·)

/-- A hook comes before the report of the agent, and that before the text. -/
def observedStatus (session : AgentSessionMeta) (observation : PanelRuntimeObservation) :
    AgentStatus :=
  let hook := (observation.hookClaim.filter fun claim =>
    orchestrator.sessionHookClaims.find session.sessionId = some claim).bind fun claim =>
      (freshHooks orchestrator poll).lookup claim
  match hook.or (authoritativeAgentStatus observation.agentStatus poll.ptyNowMs
      observation.alive) with
  | some status => status
  | none =>
      if observation.textSnapshotAvailable then
        deriveStatus observation.alive observation.recentOutput observation.visibleText
          session.review.lastError
      else if observation.alive then session.status
      else .done

def observedExcerpt (session : AgentSessionMeta) (observation : PanelRuntimeObservation) :
    Option String :=
  let excerpt :=
    if observation.textSnapshotAvailable then summarizeCommandOutput observation.visibleText
    else session.commandExcerpt
  match freshAgentStatus observation.agentStatus poll.ptyNowMs with
  | none => excerpt
  | some report =>
      if report.tool.any (· ≠ "") then some (truncateText (report.prompt.getD "") 160)
      else excerpt

def observeSession (session : AgentSessionMeta) (observation : PanelRuntimeObservation) :
    AgentSessionMeta :=
  { session with
    status := observedStatus orchestrator poll session observation
    commandExcerpt := observedExcerpt poll session observation
    review :=
      if observation.textSnapshotAvailable then
        applyOutputSummaries session.review observation.visibleText
      else session.review }

def observationOf (session : AgentSessionMeta) : Option PanelRuntimeObservation :=
  session.panelId.bind fun panel => (observationsByPanel poll).find (session.workspaceId, panel)

end Observing

/-! ## Tasks -/

/-- The state that a session writes to its task. An idle session writes none. -/
def writtenState : AgentStatus → Option TaskState
  | .waitingApproval | .needsInput => some .blocked
  | .reviewing => some .reviewReady
  | .done => some .done
  | .failed | .running => some .running
  | .idle => none

def changeTask (id : Uuid) (change : TaskCard → TaskCard) : List TaskCard → List TaskCard
  | [] => []
  | task :: tasks =>
      if task.id = id then change task :: tasks else task :: changeTask id change tasks

def findTask (tasks : List TaskCard) (id : Uuid) : Option TaskCard := tasks.find? (·.id = id)

def writeTask (tasks : List TaskCard) (session : AgentSessionMeta) : List TaskCard :=
  match session.taskId with
  | none => tasks
  | some id => changeTask id (fun task =>
      { task with state := (writtenState session.status).getD task.state }) tasks

def TaskState.finished (state : TaskState) : Bool := state = .done || state = .cancelled

/-- The states of the tasks that some task depends on. -/
def dependencyStates (dependencies : List DependencyEdge) (tasks : List TaskCard) :
    List (Uuid × TaskState) :=
  dependencies.filterMap fun edge => (findTask tasks edge.toTask).map fun task =>
    (edge.fromTask, task.state)

def syncTask (states : List (Uuid × TaskState)) (task : TaskCard) : TaskCard :=
  if task.state.finished then task
  else if states.any fun (fromTask, state) => fromTask = task.id && !state.finished then
    { task with state := .blocked }
  else if task.state = .blocked then
    { task with state := if task.sessionIds.isEmpty then .queued else .running }
  else task

def syncTaskStatesFromDependencies (dependencies : List DependencyEdge) (tasks : List TaskCard) :
    List TaskCard :=
  tasks.map (syncTask (dependencyStates dependencies tasks))

/-! ## The inbox -/

def kindMask : InboxEventKind → BitVec 128
  | .approvalPending => 0x11
  | .needsInput => 0x22
  | .testsFailed => 0x33
  | .processDone => 0x44
  | .conflictRisk => 0x55
  | .reviewReady => 0x66

def deterministicEventId (kind : InboxEventKind) (sessionId : Uuid) : Uuid :=
  ⟨sessionId.asU128 ^^^ kindMask kind⟩

/-- The event of a session, with its kind, title and summary. -/
def notification (session : AgentSessionMeta) : Option (InboxEventKind × String × String) :=
  match session.status with
  | .waitingApproval => some (.approvalPending, session.label ++ " needs approval",
      session.commandExcerpt.getD "Pending approval in terminal output")
  | .needsInput => some (.needsInput, session.label ++ " needs input",
      session.commandExcerpt.getD "Session appears to be waiting for input")
  | .failed => some (.testsFailed, session.label ++ " reported a failure",
      session.review.lastError.getD "Failure detected in terminal output")
  | .done => some (.processDone, session.label ++ " finished",
      session.review.lastSuccess.getD "Process exited or completed")
  | .reviewing => some (.reviewReady, session.label ++ " is ready for review",
      toString session.review.changedFiles.length ++ " changed file(s)")
  | .idle | .running => none

/-- What an event keeps of the one with its identifier before. -/
def carryOver (previous : Option InboxEvent) (event : InboxEvent) : InboxEvent :=
  match previous with
  | none => event
  | some previous =>
      { event with
        createdAt := previous.createdAt
        resolved := previous.resolved
        archived := previous.archived }

/-- The events by their identifiers. Of several with one identifier the last is kept. -/
def byId (events : List InboxEvent) : Table Uuid InboxEvent :=
  events.foldl (fun table event => table.put event.id event) ∅

section Inbox

variable (clock : InboxEventKind → Uuid → Int)

def desiredEvents (sessions : List AgentSessionMeta) : Table (InboxEventKind × Uuid) InboxEvent :=
  sessions.foldl (fun table session =>
    match notification session with
    | none => table
    | some (kind, title, summary) => table.put (kind, session.sessionId)
        { id := deterministicEventId kind session.sessionId
          sessionId := some session.sessionId
          taskId := session.taskId
          kind, title, summary
          createdAt := clock kind session.sessionId
          resolved := false
          archived := false }) ∅

/-- Conflicts are refreshed behind this, and pass through. -/
def refreshInbox (sessions : List AgentSessionMeta) (inbox : List InboxEvent) :
    List InboxEvent :=
  (desiredEvents clock sessions).rows.map (fun event =>
    carryOver ((byId inbox).find event.id) event) ++
    inbox.filter (·.kind = .conflictRisk)

def sharesFile (left right : AgentSessionMeta) : Bool :=
  left.workspaceId = right.workspaceId &&
    right.review.changedFiles.any (left.review.changedFiles.contains ·)

/-- The sessions that share a changed file, pair by pair. -/
def conflictsOf : List AgentSessionMeta → List Uuid
  | [] => []
  | left :: rest =>
      (rest.filter (sharesFile left)).flatMap (fun right => [left.sessionId, right.sessionId]) ++
        conflictsOf rest

def conflictEvent (sessions : List AgentSessionMeta) (id : Uuid) : InboxEvent :=
  let session := sessions.find? (·.sessionId = id)
  { id := deterministicEventId .conflictRisk id
    sessionId := some id
    taskId := session.bind (·.taskId)
    kind := .conflictRisk
    title := (session.map fun session => session.label ++ " has conflict risk").getD
      "Conflict risk"
    summary := "Another active task is touching the same file set"
    createdAt := clock .conflictRisk id
    resolved := false
    archived := false }

def putConflict (sessions : List AgentSessionMeta) (table : Table Uuid InboxEvent) (id : Uuid) :
    Table Uuid InboxEvent :=
  let event := conflictEvent clock sessions id
  table.put event.id (carryOver (table.find event.id) event)

/-- By the time of creation, and then by the identifier. -/
def notLater (left right : InboxEvent) : Bool :=
  left.createdAt < right.createdAt ||
    (left.createdAt = right.createdAt && left.id.asU128.toNat ≤ right.id.asU128.toNat)

def refreshConflictInbox (sessions : List AgentSessionMeta) (inbox : List InboxEvent) :
    List InboxEvent :=
  let conflicts := (conflictsOf sessions).dedup
  let kept := inbox.filter fun event =>
    event.kind ≠ .conflictRisk || event.sessionId.any (· ∈ conflicts)
  (conflicts.foldl (putConflict clock sessions) (byId kept)).rows.mergeSort notLater

end Inbox

/-! ## Polls -/

/-- The first session with the identifier gets the files. -/
def mergeGit (sessions : List AgentSessionMeta) (result : GitResult) : List AgentSessionMeta :=
  match result.changedFiles with
  | none => sessions
  | some files => go files sessions
where
  go (files : List String) : List AgentSessionMeta → List AgentSessionMeta
    | [] => []
    | session :: rest =>
        if session.sessionId = result.sessionId then
          { session with review := { session.review with changedFiles := files } } :: rest
        else session :: go files rest

/-- The sessions behind a poll, each with whether it was observed. -/
def observedSessions (orchestrator : Orchestrator) (poll : Poll) :
    List (AgentSessionMeta × Bool) :=
  (poll.git.foldl mergeGit orchestrator.state.sessions).map fun session =>
    match observationOf poll session with
    | none => (session, false)
    | some observation => (observeSession orchestrator poll session observation, true)

/-- The observed sessions write to their tasks in turn. -/
def writtenTasks (tasks : List TaskCard) (sessions : List (AgentSessionMeta × Bool)) :
    List TaskCard :=
  ((sessions.filter (·.2)).map (·.1)).foldl writeTask tasks

def applyObservations (orchestrator : Orchestrator) (poll : Poll) : Orchestrator :=
  let state := orchestrator.state
  let observed := observedSessions orchestrator poll
  let sessions := observed.map (·.1)
  let tasks := writtenTasks state.tasks observed
  let conflicts := conflictsOf sessions
  { orchestrator with
    state :=
      { state with
        sessions := sessions.map fun session =>
          { session with conflictRisk := session.sessionId ∈ conflicts }
        tasks := syncTaskStatesFromDependencies state.dependencies (tasks.map fun task =>
          { task with conflictRisk := task.sessionIds.any (· ∈ conflicts) })
        inbox := refreshConflictInbox poll.clock sessions
          (refreshInbox poll.clock sessions state.inbox) } }

theorem map_mergeGit {Value : Type} {view : AgentSessionMeta → Value}
    (blind : ∀ session files,
      view { session with review := { session.review with changedFiles := files } } = view session)
    (result : GitResult) (sessions : List AgentSessionMeta) :
    (mergeGit sessions result).map view = sessions.map view := by
  rw [mergeGit]
  split
  · rfl
  · next files _ =>
      induction sessions with
      | nil => rfl
      | cons session sessions induction =>
          rw [mergeGit.go]
          split
          · rw [List.map_cons, List.map_cons, blind]
          · rw [List.map_cons, List.map_cons, induction]

theorem map_foldl_mergeGit {Value : Type} {view : AgentSessionMeta → Value}
    (blind : ∀ session files,
      view { session with review := { session.review with changedFiles := files } } = view session)
    (results : List GitResult) (sessions : List AgentSessionMeta) :
    (results.foldl mergeGit sessions).map view = sessions.map view := by
  induction results generalizing sessions with
  | nil => rfl
  | cons result results induction => rw [List.foldl_cons, induction, map_mergeGit blind]

theorem map_observedSessions {Value : Type} (orchestrator : Orchestrator) (poll : Poll)
    {view : AgentSessionMeta × Bool → Value} {before : AgentSessionMeta → Value}
    (unobserved : ∀ session, observationOf poll session = none →
      view (session, false) = before session)
    (observed : ∀ session observation, observationOf poll session = some observation →
      view (observeSession orchestrator poll session observation, true) = before session)
    (blind : ∀ session files,
      before { session with review := { session.review with changedFiles := files } } =
        before session) :
    (observedSessions orchestrator poll).map view = orchestrator.state.sessions.map before := by
  rw [← map_foldl_mergeGit blind poll.git, observedSessions, List.map_map]
  refine List.map_congr_left fun session _ => ?_
  rw [Function.comp_apply]
  cases found : observationOf poll session with
  | none => exact unobserved session found
  | some observation => exact observed session observation found

def changeEvent (id : Uuid) (change : InboxEvent → InboxEvent) : List InboxEvent → List InboxEvent
  | [] => []
  | event :: events =>
      if event.id = id then change event :: events else event :: changeEvent id change events

def markInboxResolved (id : Uuid) (orchestrator : Orchestrator) : Orchestrator :=
  { orchestrator with
    state := { orchestrator.state with
      inbox := changeEvent id (fun event => { event with resolved := true })
        orchestrator.state.inbox } }

def archiveInboxEvent (id : Uuid) (orchestrator : Orchestrator) : Orchestrator :=
  { orchestrator with
    state := { orchestrator.state with
      inbox := changeEvent id (fun event => { event with archived := true })
        orchestrator.state.inbox } }

end TerminalCanvas.Orchestration
