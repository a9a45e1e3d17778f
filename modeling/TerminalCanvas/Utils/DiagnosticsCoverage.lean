import TerminalCanvas.Utils.ConfigRedaction
import TerminalCanvas.Utils.Diagnostics

/-! # What a diagnostic hides of a layout

The fields that hold texts of the user are named once more, by the types of the state,
and compared with the list of sensitive names. -/

namespace TerminalCanvas.Diagnostics

open Layout (JsonValue)

/-! ## Rewriting the texts of a state -/

/-- What is done to the texts of a state. -/
structure Rewriting where
  /-- Texts chosen by the user or by programs in a terminal. -/
  text : String → String
  /-- The names that trusted devices showed last. -/
  deviceName : String → String
  /-- The entries of maps that identify what runs in a leaf. -/
  leaf : String → String → String
  /-- The opaque trees of splits. -/
  tree : JsonValue → JsonValue

section Rewrite

variable (rewriting : Rewriting)

def rewriteMap (change : String → String → String) (map : SortedMap String String) :
    SortedMap String String where
  entries := map.entries.map fun entry => (entry.1, change entry.1 entry.2)
  sorted := by
    rw [List.pairwise_map]
    exact map.sorted

def PanelState.rewrite (panel : PanelState) : PanelState :=
  { panel with
    leafMemoryTaskIds := rewriteMap rewriting.leaf panel.leafMemoryTaskIds
    title := rewriting.text panel.title
    customTitle := panel.customTitle.map rewriting.text
    agentCommand := panel.agentCommand.map rewriting.text
    leafAgentCommands := rewriteMap (fun _ => rewriting.text) panel.leafAgentCommands
    splitTree := panel.splitTree.map rewriting.tree
    agentSessionId := panel.agentSessionId.map rewriting.text
    leafAgentSessionIds := rewriteMap (fun _ => rewriting.text) panel.leafAgentSessionIds
    leafRuntimeSessionIds := rewriteMap rewriting.leaf panel.leafRuntimeSessionIds }

def WorkspaceState.rewrite (workspace : WorkspaceState) : WorkspaceState :=
  { workspace with
    name := rewriting.text workspace.name
    cwd := workspace.cwd.map rewriting.text
    panels := workspace.panels.map (PanelState.rewrite rewriting) }

def TestStatus.rewrite (test : TestStatus) : TestStatus :=
  { test with label := rewriting.text test.label }

def ReviewSummary.rewrite (summary : ReviewSummary) : ReviewSummary :=
  { summary with
    changedFiles := summary.changedFiles.map rewriting.text
    tests := summary.tests.map (TestStatus.rewrite rewriting)
    lastError := summary.lastError.map rewriting.text
    lastSuccess := summary.lastSuccess.map rewriting.text }

def CommandSummary.rewrite (summary : CommandSummary) : CommandSummary :=
  { summary with
    title := rewriting.text summary.title
    excerpt := rewriting.text summary.excerpt }

def TaskCard.rewrite (task : TaskCard) : TaskCard :=
  { task with
    title := rewriting.text task.title
    brief := rewriting.text task.brief }

def AgentSessionMeta.rewrite (session : AgentSessionMeta) : AgentSessionMeta :=
  { session with
    label := rewriting.text session.label
    cwd := session.cwd.map rewriting.text
    worktreePath := session.worktreePath.map rewriting.text
    branch := session.branch.map rewriting.text
    repoRoot := session.repoRoot.map rewriting.text
    startupCommand := session.startupCommand.map rewriting.text
    commandSummary := session.commandSummary.map (CommandSummary.rewrite rewriting)
    reviewSummary := session.reviewSummary.rewrite rewriting }

def InboxEvent.rewrite (event : InboxEvent) : InboxEvent :=
  { event with
    title := rewriting.text event.title
    summary := rewriting.text event.summary }

def OrchestrationState.rewrite (state : OrchestrationState) : OrchestrationState :=
  { state with
    tasks := state.tasks.map (TaskCard.rewrite rewriting)
    sessions := state.sessions.map (AgentSessionMeta.rewrite rewriting)
    inbox := state.inbox.map (InboxEvent.rewrite rewriting) }

def TrustedDevice.rewrite (device : TrustedDevice) : TrustedDevice :=
  { device with lastDisplayName := rewriting.deviceName device.lastDisplayName }

def AppState.rewrite (state : AppState) : AppState :=
  { state with
    workspaces := state.workspaces.map (WorkspaceState.rewrite rewriting)
    trustedDevices := state.trustedDevices.map (TrustedDevice.rewrite rewriting)
    orchestration := state.orchestration.rewrite rewriting }

end Rewrite

section Exports

variable (sha256 : String → Bytes)

/-- Every text is hidden, and nothing else is changed. -/
def concealing : Rewriting where
  text := mark sha256
  deviceName := mark sha256
  leaf _ value := value
  tree := fun tree => tree

/-- What the list of names comes to. -/
def exporting : Rewriting where
  text := mark sha256
  deviceName := fun name => name
  leaf key value := if sensitive.contains key then mark sha256 value else value
  tree := anonymizeValue sha256

/-! ## The list of names, type by type -/

variable {sha256}

theorem anonymizeItems_eq_map (items : List JsonValue) :
    anonymizeItems sha256 items = items.map (anonymizeValue sha256) := by
  induction items with
  | nil => rfl
  | cons item items induction => rw [anonymizeItems, induction, List.map_cons]

theorem anonymizeStringsItems_eq_map (items : List JsonValue) :
    anonymizeStringsItems sha256 items = items.map (anonymizeStrings sha256) := by
  induction items with
  | nil => rfl
  | cons item items induction => rw [anonymizeStringsItems, induction, List.map_cons]

@[simp] theorem anonymizeValue_string (text : String) :
    anonymizeValue sha256 (.string text) = .string text := rfl

@[simp] theorem anonymizeValue_number (value : UInt64) :
    anonymizeValue sha256 (number value) = number value := rfl

@[simp] theorem anonymizeValue_float (value : Collab.Sharing.F32) :
    anonymizeValue sha256 (float value) = float value := by
  cases value <;> rfl

@[simp] theorem anonymizeValue_pair (value : Collab.Sharing.F32 × Collab.Sharing.F32) :
    anonymizeValue sha256 (pair value) = pair value := by
  simp [pair, anonymizeValue, anonymizeItems]

theorem anonymizeValue_optional {Value : Type} {value : Value → JsonValue}
    {change : Value → Value} (inner : ∀ item, anonymizeValue sha256 (value item) =
      value (change item)) (item : Option Value) :
    anonymizeValue sha256 (optional value item) = optional value (item.map change) := by
  cases item with
  | none => rfl
  | some item => exact inner item

theorem anonymizeValue_list {Value : Type} {value : Value → JsonValue}
    {change : Value → Value} (inner : ∀ item, anonymizeValue sha256 (value item) =
      value (change item)) (items : List Value) :
    anonymizeValue sha256 (list value items) = list value (items.map change) := by
  simp only [list, anonymizeValue, anonymizeItems_eq_map, List.map_map, JsonValue.array.injEq]
  exact List.map_congr_left fun item _ => inner item

@[simp] theorem anonymizeStrings_optional (text : Option String) :
    anonymizeStrings sha256 (optional .string text) =
      optional .string (text.map (mark sha256)) := by
  cases text <;> rfl

@[simp] theorem anonymizeStrings_list (texts : List String) :
    anonymizeStrings sha256 (list .string texts) = list .string (texts.map (mark sha256)) := by
  simp only [list, anonymizeStrings, anonymizeStringsItems_eq_map, List.map_map]
  rfl

@[simp] theorem anonymizeStrings_leafMap (map : SortedMap String String) :
    anonymizeStrings sha256 (leafMap map) = leafMap (rewriteMap (fun _ => mark sha256) map) := by
  simp only [leafMap, rewriteMap, anonymizeStrings, JsonValue.object.injEq, List.map_map]
  induction map.entries with
  | nil => rfl
  | cons entry entries induction =>
      simp only [List.map_cons, anonymizeStringsMembers, induction, anonymizeStrings,
        Function.comp_apply]

@[simp] theorem anonymizeValue_leafMap (map : SortedMap String String) :
    anonymizeValue sha256 (leafMap map) = leafMap (rewriteMap (exporting sha256).leaf map) := by
  simp only [leafMap, rewriteMap, anonymizeValue, JsonValue.object.injEq, List.map_map]
  induction map.entries with
  | nil => rfl
  | cons entry entries induction =>
      rw [List.map_cons, anonymizeMembers, induction, List.map_cons]
      simp only [Function.comp_apply, exporting, List.cons.injEq, Prod.mk.injEq, true_and, and_true]
      split <;> rfl

@[simp] theorem anonymize_placement (placement : PanelPlacement) :
    anonymizeValue sha256 placement.toJson = placement.toJson := by
  cases placement with
  | floating => rfl
  | snapped slot => simp [PanelPlacement.toJson, anonymizeValue, anonymizeMembers, sensitive]
  | maximized => rfl

@[simp] theorem anonymize_bounds (bounds : SavedPanelBounds) :
    anonymizeValue sha256 bounds.toJson = bounds.toJson := by
  simp [SavedPanelBounds.toJson, anonymizeValue, anonymizeMembers, sensitive]

theorem anonymize_optional_plain {Value : Type} {value : Value → JsonValue}
    (inner : ∀ item, anonymizeValue sha256 (value item) = value item) (item : Option Value) :
    anonymizeValue sha256 (optional value item) = optional value item := by
  rw [@anonymizeValue_optional sha256 Value value (fun item => item) inner, Option.map_id']

theorem anonymize_list_plain {Value : Type} {value : Value → JsonValue}
    (inner : ∀ item, anonymizeValue sha256 (value item) = value item) (items : List Value) :
    anonymizeValue sha256 (list value items) = list value items := by
  rw [@anonymizeValue_list sha256 Value value (fun item => item) inner, List.map_id']

@[simp] theorem anonymize_optional_string (text : Option String) :
    anonymizeValue sha256 (optional .string text) = optional .string text :=
  anonymize_optional_plain (fun _ => rfl) text

@[simp] theorem anonymize_optional_id (item : Option Uuid) :
    anonymizeValue sha256 (optional id item) = optional id item :=
  anonymize_optional_plain (fun _ => rfl) item

@[simp] theorem anonymize_id (item : Uuid) : anonymizeValue sha256 (id item) = id item := rfl

@[simp] theorem anonymize_bool (value : Bool) :
    anonymizeValue sha256 (.bool value) = .bool value := rfl

theorem anonymize_panel (panel : PanelState) :
    anonymizeValue sha256 panel.toJson = (panel.rewrite (exporting sha256)).toJson := by
  have tree : anonymizeValue sha256 (panel.splitTree.getD .null) =
      (panel.splitTree.map (anonymizeValue sha256)).getD .null := by
    cases panel.splitTree <;> rfl
  have issue := anonymize_optional_plain (@anonymizeValue_number sha256) panel.linkedIssue
  have restored := anonymize_optional_plain (@anonymize_placement sha256) panel.restorePlacement
  have bounded := anonymize_optional_plain (@anonymize_bounds sha256) panel.restoreBounds
  simp [PanelState.toJson, PanelState.rewrite, anonymizeValue, anonymizeMembers, anonymizeItems,
    sensitive, anonymizeStrings, tree, issue, restored, bounded, exporting]

theorem anonymize_workspace (workspace : WorkspaceState) :
    anonymizeValue sha256 workspace.toJson = (workspace.rewrite (exporting sha256)).toJson := by
  have panels := anonymizeValue_list (@anonymize_panel sha256) workspace.panels
  simp [WorkspaceState.toJson, WorkspaceState.rewrite, anonymizeValue, anonymizeMembers, sensitive,
    anonymizeStrings, panels, WorkspaceDesktopState.toJson, LegacyCanvasState.toJson, exporting]

theorem anonymize_test (test : TestStatus) :
    anonymizeValue sha256 test.toJson = (test.rewrite (exporting sha256)).toJson := by
  simp [TestStatus.toJson, TestStatus.rewrite, anonymizeValue, anonymizeMembers, sensitive,
    anonymizeStrings, exporting]

theorem anonymize_review (summary : ReviewSummary) :
    anonymizeValue sha256 summary.toJson = (summary.rewrite (exporting sha256)).toJson := by
  have tests := anonymizeValue_list (@anonymize_test sha256) summary.tests
  simp [ReviewSummary.toJson, ReviewSummary.rewrite, anonymizeValue, anonymizeMembers, sensitive,
    DiffStats.toJson, tests, exporting]

theorem anonymize_command (summary : CommandSummary) :
    anonymizeValue sha256 summary.toJson = (summary.rewrite (exporting sha256)).toJson := by
  simp [CommandSummary.toJson, CommandSummary.rewrite, anonymizeValue, anonymizeMembers, sensitive,
    anonymizeStrings, exporting]

section Times

variable (timeText : Int → String)

@[simp] theorem anonymize_time (moment : Int) :
    anonymizeValue sha256 (time timeText moment) = time timeText moment := rfl

theorem anonymize_task (task : TaskCard) :
    anonymizeValue sha256 (task.toJson timeText) =
      (task.rewrite (exporting sha256)).toJson timeText := by
  have sessions := anonymize_list_plain (@anonymize_id sha256) task.sessionIds
  have hint := @anonymize_optional_plain sha256 _ (fun provider =>
    .string (Conversations.providerName provider)) (fun _ => rfl) task.providerHint
  simp [TaskCard.toJson, TaskCard.rewrite, anonymizeValue, anonymizeMembers, sensitive,
    anonymizeStrings, sessions, hint, exporting]

theorem anonymize_session (session : AgentSessionMeta) :
    anonymizeValue sha256 (session.toJson timeText) =
      (session.rewrite (exporting sha256)).toJson timeText := by
  have command := anonymizeValue_optional (@anonymize_command sha256) session.commandSummary
  have review := @anonymize_review sha256 session.reviewSummary
  simp [AgentSessionMeta.toJson, AgentSessionMeta.rewrite, anonymizeValue, anonymizeMembers,
    sensitive, anonymizeStrings, command, review, exporting]

theorem anonymize_event (event : InboxEvent) :
    anonymizeValue sha256 (event.toJson timeText) =
      (event.rewrite (exporting sha256)).toJson timeText := by
  simp [InboxEvent.toJson, InboxEvent.rewrite, anonymizeValue, anonymizeMembers, sensitive,
    anonymizeStrings, exporting]

theorem anonymize_edge (edge : Orchestration.DependencyEdge) :
    anonymizeValue sha256 (edgeValue edge) = edgeValue edge := by
  simp [edgeValue, anonymizeValue, anonymizeMembers, sensitive]

theorem anonymize_orchestration (state : OrchestrationState) :
    anonymizeValue sha256 (state.toJson timeText) =
      (state.rewrite (exporting sha256)).toJson timeText := by
  have tasks := anonymizeValue_list (@anonymize_task sha256 timeText) state.tasks
  have sessions := anonymizeValue_list (@anonymize_session sha256 timeText) state.sessions
  have inbox := anonymizeValue_list (@anonymize_event sha256 timeText) state.inbox
  have edges := anonymize_list_plain (@anonymize_edge sha256) state.dependencies
  have scene := @anonymize_optional_plain sha256 SceneTemplateKind (fun kind =>
    .string kind.name) (fun _ => rfl) state.sceneTemplate
  simp [OrchestrationState.toJson, OrchestrationState.rewrite, anonymizeValue, anonymizeMembers,
    sensitive, tasks, sessions, inbox, edges, scene]

theorem anonymize_device (device : TrustedDevice) :
    anonymizeValue sha256 (device.toJson timeText) =
      (device.rewrite (exporting sha256)).toJson timeText := by
  simp [TrustedDevice.toJson, TrustedDevice.rewrite, anonymizeValue, anonymizeMembers, sensitive,
    exporting]

theorem anonymize_state (state : AppState) :
    anonymizeValue sha256 (state.toJson timeText) =
      (state.rewrite (exporting sha256)).toJson timeText := by
  have workspaces := anonymizeValue_list (@anonymize_workspace sha256) state.workspaces
  have devices := anonymizeValue_list (@anonymize_device sha256 timeText) state.trustedDevices
  have orchestration := @anonymize_orchestration sha256 timeText state.orchestration
  simp [AppState.toJson, AppState.rewrite, anonymizeValue, anonymizeMembers, sensitive,
    workspaces, devices, orchestration, LegacyCanvasUiState.toJson]

end Times

/-! ## Where the list of names falls short -/

variable (sha256) in
/-- Nothing is left to hide that the list of names does not reach, and it reaches nothing
else. -/
structure Covered (state : AppState) : Prop where
  devices : ∀ device ∈ state.trustedDevices, Stays sha256 device.lastDisplayName
  leaves : ∀ workspace ∈ state.workspaces, ∀ panel ∈ workspace.panels,
    ∀ entry ∈ panel.leafMemoryTaskIds.entries ++ panel.leafRuntimeSessionIds.entries,
      entry.1 ∈ sensitive → Stays sha256 entry.2
  trees : ∀ workspace ∈ state.workspaces, ∀ panel ∈ workspace.panels,
    ∀ tree, panel.splitTree = some tree → ∀ text ∈ sensitiveTexts tree, Stays sha256 text

theorem list_map_inj {Value : Type} {value : Value → JsonValue} {items : List Value}
    {first second : Value → Value} :
    list value (items.map first) = list value (items.map second) ↔
      ∀ item ∈ items, value (first item) = value (second item) := by
  simp [list]

theorem leafMap_rewrite_inj (map : SortedMap String String) :
    leafMap (rewriteMap (exporting sha256).leaf map) =
        leafMap (rewriteMap (concealing sha256).leaf map) ↔
      ∀ entry ∈ map.entries, entry.1 ∈ sensitive → Stays sha256 entry.2 := by
  simp only [leafMap, rewriteMap, JsonValue.object.injEq, List.map_map, List.map_inj_left,
    Function.comp_apply, Prod.mk.injEq, JsonValue.string.injEq, true_and, exporting, concealing]
  apply forall₂_congr
  intro entry _
  split
  · next known =>
      have member : entry.1 ∈ sensitive := by simpa using known
      simp [member, mark_eq_self_iff]
  · next unknown =>
      have absent : entry.1 ∉ sensitive := by simpa using unknown
      simp [absent]

theorem tree_rewrite_inj (tree : Option JsonValue) :
    (tree.map (exporting sha256).tree).getD .null = (tree.map (concealing sha256).tree).getD .null ↔
      ∀ inner, tree = some inner → ∀ text ∈ sensitiveTexts inner, Stays sha256 text := by
  cases tree with
  | none => simp
  | some inner => simp [exporting, concealing, anonymizeValue_eq_self_iff]

theorem panel_rewrite_inj (panel : PanelState) :
    (panel.rewrite (exporting sha256)).toJson = (panel.rewrite (concealing sha256)).toJson ↔
      (∀ entry ∈ panel.leafMemoryTaskIds.entries ++ panel.leafRuntimeSessionIds.entries,
        entry.1 ∈ sensitive → Stays sha256 entry.2) ∧
      ∀ tree, panel.splitTree = some tree → ∀ text ∈ sensitiveTexts tree, Stays sha256 text := by
  have text : (exporting sha256).text = (concealing sha256).text := rfl
  rw [List.forall_mem_append, ← leafMap_rewrite_inj panel.leafMemoryTaskIds,
    ← leafMap_rewrite_inj panel.leafRuntimeSessionIds, ← tree_rewrite_inj panel.splitTree]
  simp only [PanelState.toJson, PanelState.rewrite, text, JsonValue.object.injEq, List.cons.injEq,
    Prod.mk.injEq, true_and, and_true]
  tauto

theorem workspace_rewrite_inj (workspace : WorkspaceState) :
    (workspace.rewrite (exporting sha256)).toJson = (workspace.rewrite (concealing sha256)).toJson ↔
      ∀ panel ∈ workspace.panels,
        (panel.rewrite (exporting sha256)).toJson = (panel.rewrite (concealing sha256)).toJson := by
  have text : (exporting sha256).text = (concealing sha256).text := rfl
  simp only [WorkspaceState.toJson, WorkspaceState.rewrite, text, JsonValue.object.injEq,
    List.cons.injEq, Prod.mk.injEq, true_and, and_true, list_map_inj]

theorem device_rewrite_inj (timeText : Int → String) (device : TrustedDevice) :
    (device.rewrite (exporting sha256)).toJson timeText =
        (device.rewrite (concealing sha256)).toJson timeText ↔
      Stays sha256 device.lastDisplayName := by
  simp only [TrustedDevice.toJson, TrustedDevice.rewrite, JsonValue.object.injEq, List.cons.injEq,
    Prod.mk.injEq, true_and, and_true, JsonValue.string.injEq, exporting, concealing]
  rw [eq_comm, mark_eq_self_iff]

theorem orchestration_rewrite (state : OrchestrationState) :
    state.rewrite (exporting sha256) = state.rewrite (concealing sha256) := rfl

theorem anonymize_state_iff (timeText : Int → String) (state : AppState) :
    anonymizeValue sha256 (state.toJson timeText) =
        (state.rewrite (concealing sha256)).toJson timeText ↔ Covered sha256 state := by
  rw [anonymize_state]
  have parts : (state.rewrite (exporting sha256)).toJson timeText =
      (state.rewrite (concealing sha256)).toJson timeText ↔
      (∀ workspace ∈ state.workspaces, ∀ panel ∈ workspace.panels,
        (panel.rewrite (exporting sha256)).toJson = (panel.rewrite (concealing sha256)).toJson) ∧
      ∀ device ∈ state.trustedDevices, Stays sha256 device.lastDisplayName := by
    simp only [AppState.toJson, AppState.rewrite, orchestration_rewrite, JsonValue.object.injEq,
      List.cons.injEq, Prod.mk.injEq, true_and, and_true, list_map_inj, workspace_rewrite_inj,
      device_rewrite_inj]
  rw [parts]
  simp only [panel_rewrite_inj]
  constructor
  · rintro ⟨panels, devices⟩
    exact ⟨devices, fun workspace known panel member => (panels workspace known panel member).1,
      fun workspace known panel member => (panels workspace known panel member).2⟩
  · rintro ⟨devices, leaves, trees⟩
    exact ⟨fun workspace known panel member =>
      ⟨leaves workspace known panel member, trees workspace known panel member⟩, devices⟩

end Exports

/-! ## The export -/

/-- The layout is exported with every text hidden exactly when the list of names covers
the state. Of the configuration no value of a secret key is left, and nothing else changes. -/
theorem export_hides (sha256 : String → Bytes) (timeText : Int → String) (state : AppState)
    (serde : SerdeJson) (toml : Toml) :
    (anonymizeValue sha256 (state.toJson timeText) =
        (state.rewrite (concealing sha256)).toJson timeText ↔ Covered sha256 state) ∧
    (∀ json value, serde.fromStr json = some value →
      anonymizeLayout sha256 serde json =
        (serde.toStringPretty (anonymizeValue sha256 value)).getD "") ∧
    (∀ text, toml.fromStr text = none → redactConfig toml text = configOmitted) ∧
    (∀ text value, toml.fromStr text = some value →
      redactConfig toml text = (toml.toStringPretty (redact value)).getD configOmitted) ∧
    (∀ (value : TomlValue) (path : List TomlStep), (∀ step ∈ path, step.isSecret = false) →
      (redact value).at path = (value.at path).map redact ∧
        ∀ found, value.at path = some found → found.isScalar = true →
          (redact value).at path = some found) ∧
    (∀ (value : TomlValue) (before after : List TomlStep) (secret : TomlStep),
      (∀ step ∈ before, step.isSecret = false) → secret.isSecret = true →
        (redact value).at (before ++ secret :: after) =
          if after = [] then (value.at (before ++ [secret])).map fun _ => redacted else none) := by
  refine ⟨anonymize_state_iff timeText state, ?_, ?_, ?_, ?_, ?_⟩
  · intro json value read
    rw [anonymizeLayout, read]
  · intro text broken
    simp [redactConfig, redactConfigChecked, broken]
  · intro text value read
    simp [redactConfig, redactConfigChecked, read]
  · intro value path isPublic
    have same := at_redact_public isPublic value
    refine ⟨same, ?_⟩
    intro found present scalar
    rw [same, present, Option.map_some, redact_scalar scalar]
  · intro value before after secret isPublic isSecret
    exact at_redact_secret isPublic isSecret value

def stateOfDevices (devices : List TrustedDevice) : AppState where
  schemaVersion := 3
  workspaces := []
  activeWs := 0
  sidebarVisible := true
  legacyCanvasUi := ⟨true, false⟩
  localDeviceId := "11111111-1111-1111-1111-111111111111"
  trustedDevices := devices
  orchestration := ⟨[], [], [], [], none⟩

theorem export_hides_token :
    (redact (.table [("api", .table [("auth-token", .string "s3cret")]), ("port", .integer 80)])).at
      ([.key "api"] ++ .key "auth-token" :: []) = some redacted :=
  (export_hides (fun _ => []) (fun _ => "") (stateOfDevices []) ⟨fun _ => none, fun _ => none⟩
    ⟨fun _ => none, fun _ => none⟩).2.2.2.2.2 _ [.key "api"] [] (.key "auth-token")
    (by decide +kernel) (by decide +kernel)

def digestOfAna : Bytes :=
  [222, 162, 16, 240, 88, 180, 7, 219, 92, 27, 94, 168, 155, 46, 66, 165, 114, 33, 192, 3, 219, 165,
    94, 47, 23, 118, 167, 90, 50, 84, 211, 134]

/-- The name of a trusted device is exported as it is. -/
theorem device_name_exported :
    anonymizeValue (fun _ => digestOfAna)
        ((stateOfDevices [⟨"device-1", "Ana", 0, 0⟩]).toJson fun _ => "1970-01-01T00:00:00Z") ≠
      ((stateOfDevices [⟨"device-1", "Ana", 0, 0⟩]).rewrite
        (concealing fun _ => digestOfAna)).toJson fun _ => "1970-01-01T00:00:00Z" := by
  rw [ne_eq, anonymize_state_iff]
  intro covered
  have stays := covered.devices ⟨"device-1", "Ana", 0, 0⟩ (by simp [stateOfDevices])
  revert stays
  unfold Stays
  decide +kernel

end TerminalCanvas.Diagnostics
