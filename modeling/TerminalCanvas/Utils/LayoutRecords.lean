import TerminalCanvas.Collab.Snapshot
import TerminalCanvas.Conversation.ContextText
import TerminalCanvas.Orchestration.Observations
import TerminalCanvas.State.LayoutLoad

/-! # The records of a saved layout

The saved state with all of its fields, as the JSON value it is serialized to. Members
are in the order of their declaration. Times are in nanoseconds. -/

namespace TerminalCanvas.Diagnostics

open Layout (JsonValue JsonNumber)
open Collab.Sharing (F32 PanelShareScope)
open Conversations (AgentProvider providerName)
open Orchestration (AgentStatus TaskState DependencyKind DependencyEdge InboxEventKind)

/-! ## Values -/

def optional {Value : Type} (value : Value → JsonValue) : Option Value → JsonValue
  | none => .null
  | some inner => value inner

def list {Value : Type} (value : Value → JsonValue) (items : List Value) : JsonValue :=
  .array (items.map value)

def id (id : Uuid) : JsonValue := .string id.display

def number (value : UInt64) : JsonValue := .number (.posInt value)

/-- What is not finite is written as `null`. -/
def float : F32 → JsonValue
  | .finite value => .number (.float value)
  | .nonFinite => .null

def pair (value : F32 × F32) : JsonValue := .array [float value.1, float value.2]

def leafMap (map : SortedMap String String) : JsonValue :=
  .object (map.entries.map fun entry => (entry.1, .string entry.2))

/-! ## Workspaces -/

inductive SnapSlot where
  | leftHalf
  | rightHalf
  | topHalf
  | bottomHalf
  | topLeft
  | topRight
  | bottomLeft
  | bottomRight
  | maximized
deriving DecidableEq, Repr

def SnapSlot.name : SnapSlot → String
  | leftHalf => "left-half"
  | rightHalf => "right-half"
  | topHalf => "top-half"
  | bottomHalf => "bottom-half"
  | topLeft => "top-left"
  | topRight => "top-right"
  | bottomLeft => "bottom-left"
  | bottomRight => "bottom-right"
  | maximized => "maximized"

inductive PanelPlacement where
  | floating
  | snapped (slot : SnapSlot)
  | maximized
deriving DecidableEq, Repr

def PanelPlacement.toJson : PanelPlacement → JsonValue
  | floating => .string "floating"
  | snapped slot => .object [("snapped", .string slot.name)]
  | maximized => .string "maximized"

structure SavedPanelBounds where
  position : F32 × F32
  size : F32 × F32

def SavedPanelBounds.toJson (bounds : SavedPanelBounds) : JsonValue :=
  .object [("position", pair bounds.position), ("size", pair bounds.size)]

def scopeName : PanelShareScope → String
  | .isPrivate => "Private"
  | .visibleOnly => "VisibleOnly"
  | .visibleAndHistory => "VisibleAndHistory"
  | .controllable => "Controllable"

structure PanelState where
  leafMemoryTaskIds : SortedMap String String
  id : String
  title : String
  customTitle : Option String
  position : F32 × F32
  size : F32 × F32
  color : UInt8 × UInt8 × UInt8
  zIndex : UInt32
  focused : Bool
  minimized : Bool
  placement : PanelPlacement
  restorePlacement : Option PanelPlacement
  restoreBounds : Option SavedPanelBounds
  shareScope : PanelShareScope
  agentCommand : Option String
  leafAgentCommands : SortedMap String String
  unread : Bool
  /-- The tree of splits, as opaque JSON. -/
  splitTree : Option JsonValue
  focusedLeaf : Option String
  rootLeaf : Option String
  linkedIssue : Option UInt64
  agentSessionId : Option String
  leafAgentSessionIds : SortedMap String String
  runtimeSessionId : Option String
  leafRuntimeSessionIds : SortedMap String String

def PanelState.toJson (panel : PanelState) : JsonValue :=
  .object
    [("leaf_memory_task_ids", leafMap panel.leafMemoryTaskIds),
      ("id", .string panel.id),
      ("title", .string panel.title),
      ("custom_title", optional .string panel.customTitle),
      ("position", pair panel.position),
      ("size", pair panel.size),
      ("color", .array [number panel.color.1.toUInt64, number panel.color.2.1.toUInt64,
        number panel.color.2.2.toUInt64]),
      ("z_index", number panel.zIndex.toUInt64),
      ("focused", .bool panel.focused),
      ("minimized", .bool panel.minimized),
      ("placement", panel.placement.toJson),
      ("restore_placement", optional PanelPlacement.toJson panel.restorePlacement),
      ("restore_bounds", optional SavedPanelBounds.toJson panel.restoreBounds),
      ("share_scope", .string (scopeName panel.shareScope)),
      ("agent_command", optional .string panel.agentCommand),
      ("leaf_agent_commands", leafMap panel.leafAgentCommands),
      ("unread", .bool panel.unread),
      ("split_tree", panel.splitTree.getD .null),
      ("focused_leaf", optional .string panel.focusedLeaf),
      ("root_leaf", optional .string panel.rootLeaf),
      ("linked_issue", optional number panel.linkedIssue),
      ("agent_session_id", optional .string panel.agentSessionId),
      ("leaf_agent_session_ids", leafMap panel.leafAgentSessionIds),
      ("runtime_session_id", optional .string panel.runtimeSessionId),
      ("leaf_runtime_session_ids", leafMap panel.leafRuntimeSessionIds)]

structure WorkspaceDesktopState where
  nextZ : UInt32
  nextColor : UInt64
  splitX : F32
  splitY : F32

def WorkspaceDesktopState.toJson (desktop : WorkspaceDesktopState) : JsonValue :=
  .object
    [("next_z", number desktop.nextZ.toUInt64),
      ("next_color", number desktop.nextColor),
      ("split_x", float desktop.splitX),
      ("split_y", float desktop.splitY)]

structure LegacyCanvasState where
  viewportPan : F32 × F32
  viewportZoom : F32

def LegacyCanvasState.toJson (canvas : LegacyCanvasState) : JsonValue :=
  .object
    [("viewport_pan", pair canvas.viewportPan), ("viewport_zoom", float canvas.viewportZoom)]

structure WorkspaceState where
  id : String
  name : String
  cwd : Option String
  panels : List PanelState
  desktop : WorkspaceDesktopState
  legacyCanvas : LegacyCanvasState

def WorkspaceState.toJson (workspace : WorkspaceState) : JsonValue :=
  .object
    [("id", .string workspace.id),
      ("name", .string workspace.name),
      ("cwd", optional .string workspace.cwd),
      ("panels", list PanelState.toJson workspace.panels),
      ("desktop", workspace.desktop.toJson),
      ("legacy_canvas", workspace.legacyCanvas.toJson)]

/-! ## Orchestration -/

section Orchestration

-- the text of a time, in the format of RFC 3339
variable (timeText : Int → String)

def time (moment : Int) : JsonValue := .string (timeText moment)

def taskStateName : TaskState → String
  | .draft => "Draft"
  | .queued => "Queued"
  | .running => "Running"
  | .blocked => "Blocked"
  | .reviewReady => "ReviewReady"
  | .done => "Done"
  | .cancelled => "Cancelled"

def agentStatusName : AgentStatus → String
  | .idle => "Idle"
  | .running => "Running"
  | .waitingApproval => "WaitingApproval"
  | .needsInput => "NeedsInput"
  | .reviewing => "Reviewing"
  | .failed => "Failed"
  | .done => "Done"

def dependencyKindName : DependencyKind → String
  | .blockedBy => "BlockedBy"
  | .dependsOn => "DependsOn"

def inboxEventKindName : InboxEventKind → String
  | .approvalPending => "ApprovalPending"
  | .needsInput => "NeedsInput"
  | .testsFailed => "TestsFailed"
  | .processDone => "ProcessDone"
  | .conflictRisk => "ConflictRisk"
  | .reviewReady => "ReviewReady"

inductive SceneTemplateKind where
  | bugfix
  | featureParallel
  | refactorReview
  | frontendBackendSplit
deriving DecidableEq, Repr

def SceneTemplateKind.name : SceneTemplateKind → String
  | bugfix => "Bugfix"
  | featureParallel => "FeatureParallel"
  | refactorReview => "RefactorReview"
  | frontendBackendSplit => "FrontendBackendSplit"

structure DiffStats where
  filesChanged : UInt64
  insertions : UInt64
  deletions : UInt64

def DiffStats.toJson (stats : DiffStats) : JsonValue :=
  .object
    [("files_changed", number stats.filesChanged),
      ("insertions", number stats.insertions),
      ("deletions", number stats.deletions)]

structure TestStatus where
  label : String
  passed : Bool

def TestStatus.toJson (test : TestStatus) : JsonValue :=
  .object [("label", .string test.label), ("passed", .bool test.passed)]

structure ReviewSummary where
  changedFiles : List String
  diffStats : DiffStats
  tests : List TestStatus
  lastError : Option String
  lastSuccess : Option String

def ReviewSummary.toJson (summary : ReviewSummary) : JsonValue :=
  .object
    [("changed_files", list .string summary.changedFiles),
      ("diff_stats", summary.diffStats.toJson),
      ("tests", list TestStatus.toJson summary.tests),
      ("last_error", optional .string summary.lastError),
      ("last_success", optional .string summary.lastSuccess)]

structure CommandSummary where
  title : String
  excerpt : String
  failed : Bool

def CommandSummary.toJson (summary : CommandSummary) : JsonValue :=
  .object
    [("title", .string summary.title),
      ("excerpt", .string summary.excerpt),
      ("failed", .bool summary.failed)]

structure TaskCard where
  id : Uuid
  workspaceId : Uuid
  title : String
  brief : String
  state : TaskState
  providerHint : Option AgentProvider
  sessionIds : List Uuid
  conflictRisk : Bool
  createdAt : Int
  updatedAt : Int

def TaskCard.toJson (task : TaskCard) : JsonValue :=
  .object
    [("id", Diagnostics.id task.id),
      ("workspace_id", Diagnostics.id task.workspaceId),
      ("title", .string task.title),
      ("brief", .string task.brief),
      ("state", .string (taskStateName task.state)),
      ("provider_hint", optional (fun provider => .string (providerName provider))
        task.providerHint),
      ("session_ids", list Diagnostics.id task.sessionIds),
      ("conflict_risk", .bool task.conflictRisk),
      ("created_at", time timeText task.createdAt),
      ("updated_at", time timeText task.updatedAt)]

structure AgentSessionMeta where
  sessionId : Uuid
  panelId : Option Uuid
  runtimeSessionId : Option Uuid
  workspaceId : Uuid
  provider : AgentProvider
  label : String
  cwd : Option String
  worktreePath : Option String
  branch : Option String
  taskId : Option Uuid
  createdAt : Int
  lastActivityAt : Int
  status : AgentStatus
  dirty : Bool
  repoRoot : Option String
  sharedRepoMode : Bool
  startupCommand : Option String
  commandSummary : Option CommandSummary
  reviewSummary : ReviewSummary
  conflictRisk : Bool

def AgentSessionMeta.toJson (session : AgentSessionMeta) : JsonValue :=
  .object
    [("session_id", id session.sessionId),
      ("panel_id", optional id session.panelId),
      ("runtime_session_id", optional id session.runtimeSessionId),
      ("workspace_id", id session.workspaceId),
      ("provider", .string (providerName session.provider)),
      ("label", .string session.label),
      ("cwd", optional .string session.cwd),
      ("worktree_path", optional .string session.worktreePath),
      ("branch", optional .string session.branch),
      ("task_id", optional id session.taskId),
      ("created_at", time timeText session.createdAt),
      ("last_activity_at", time timeText session.lastActivityAt),
      ("status", .string (agentStatusName session.status)),
      ("dirty", .bool session.dirty),
      ("repo_root", optional .string session.repoRoot),
      ("shared_repo_mode", .bool session.sharedRepoMode),
      ("startup_command", optional .string session.startupCommand),
      ("command_summary", optional CommandSummary.toJson session.commandSummary),
      ("review_summary", session.reviewSummary.toJson),
      ("conflict_risk", .bool session.conflictRisk)]

structure InboxEvent where
  id : Uuid
  sessionId : Option Uuid
  taskId : Option Uuid
  kind : InboxEventKind
  title : String
  summary : String
  createdAt : Int
  resolved : Bool
  archived : Bool

def InboxEvent.toJson (event : InboxEvent) : JsonValue :=
  .object
    [("id", Diagnostics.id event.id),
      ("session_id", optional Diagnostics.id event.sessionId),
      ("task_id", optional Diagnostics.id event.taskId),
      ("kind", .string (inboxEventKindName event.kind)),
      ("title", .string event.title),
      ("summary", .string event.summary),
      ("created_at", time timeText event.createdAt),
      ("resolved", .bool event.resolved),
      ("archived", .bool event.archived)]

def edgeValue (edge : DependencyEdge) : JsonValue :=
  .object
    [("from_task", id edge.fromTask),
      ("to_task", id edge.toTask),
      ("kind", .string (dependencyKindName edge.kind))]

structure OrchestrationState where
  tasks : List TaskCard
  sessions : List AgentSessionMeta
  inbox : List InboxEvent
  dependencies : List DependencyEdge
  sceneTemplate : Option SceneTemplateKind

def OrchestrationState.toJson (state : OrchestrationState) : JsonValue :=
  .object
    [("tasks", list (TaskCard.toJson timeText) state.tasks),
      ("sessions", list (AgentSessionMeta.toJson timeText) state.sessions),
      ("inbox", list (InboxEvent.toJson timeText) state.inbox),
      ("dependencies", list edgeValue state.dependencies),
      ("scene_template", optional (fun kind => .string kind.name) state.sceneTemplate)]

/-! ## The whole state -/

structure TrustedDevice where
  deviceId : String
  lastDisplayName : String
  approvedAt : Int
  lastSeenAt : Int

def TrustedDevice.toJson (device : TrustedDevice) : JsonValue :=
  .object
    [("device_id", .string device.deviceId),
      ("last_display_name", .string device.lastDisplayName),
      ("approved_at", time timeText device.approvedAt),
      ("last_seen_at", time timeText device.lastSeenAt)]

structure LegacyCanvasUiState where
  showGrid : Bool
  showMinimap : Bool

def LegacyCanvasUiState.toJson (canvas : LegacyCanvasUiState) : JsonValue :=
  .object [("show_grid", .bool canvas.showGrid), ("show_minimap", .bool canvas.showMinimap)]

structure AppState where
  schemaVersion : UInt32
  workspaces : List WorkspaceState
  activeWs : UInt64
  sidebarVisible : Bool
  legacyCanvasUi : LegacyCanvasUiState
  localDeviceId : String
  trustedDevices : List TrustedDevice
  orchestration : OrchestrationState

def AppState.toJson (state : AppState) : JsonValue :=
  .object
    [("schema_version", number state.schemaVersion.toUInt64),
      ("workspaces", list WorkspaceState.toJson state.workspaces),
      ("active_ws", number state.activeWs),
      ("sidebar_visible", .bool state.sidebarVisible),
      ("legacy_canvas_ui", state.legacyCanvasUi.toJson),
      ("local_device_id", .string state.localDeviceId),
      ("trusted_devices", list (TrustedDevice.toJson timeText) state.trustedDevices),
      ("orchestration", state.orchestration.toJson timeText)]

end Orchestration

end TerminalCanvas.Diagnostics
