import TerminalCanvas.App.FileViewerNavigation
import TerminalCanvas.App.FileViewerReader
import TerminalCanvas.App.HistoryCheckpoints
import TerminalCanvas.Canvas.Snap
import TerminalCanvas.Collab.Authorization
import TerminalCanvas.Collab.ControlRuns
import TerminalCanvas.Collab.Rekey
import TerminalCanvas.Collab.Replay
import TerminalCanvas.Collab.Seats
import TerminalCanvas.Conversation.Consent
import TerminalCanvas.Conversation.ContextBudget
import TerminalCanvas.Conversation.Idempotence
import TerminalCanvas.Conversation.Waiting
import TerminalCanvas.Daemon.CloseAuthority
import TerminalCanvas.Daemon.HotAttach
import TerminalCanvas.Daemon.PersistRetry
import TerminalCanvas.Daemon.PumpOrder
import TerminalCanvas.Daemon.Rechunk
import TerminalCanvas.HookAuthority.GateExclusivity
import TerminalCanvas.Memory.ContextPackBudget
import TerminalCanvas.Memory.HookLedgerFence
import TerminalCanvas.Memory.RedactionLabels
import TerminalCanvas.Memory.StoreAgents
import TerminalCanvas.Memory.StoreLinking
import TerminalCanvas.Memory.StoreReplay
import TerminalCanvas.Orchestration.ClaudeHooks
import TerminalCanvas.Orchestration.DiffNotes
import TerminalCanvas.Orchestration.Inbox
import TerminalCanvas.Orchestration.TaskStates
import TerminalCanvas.Palette.Rank
import TerminalCanvas.Preferences.Runs
import TerminalCanvas.Runtime.PromptSent
import TerminalCanvas.Scrollback.Clamp
import TerminalCanvas.State.BackupRing
import TerminalCanvas.State.DurableLoad
import TerminalCanvas.State.FailedClaim
import TerminalCanvas.State.LayoutRepair
import TerminalCanvas.State.WorkspaceRuns
import TerminalCanvas.Terminal.AgentStatusSync
import TerminalCanvas.Terminal.BoundedSnapshot
import TerminalCanvas.Terminal.InputDelivery
import TerminalCanvas.Terminal.PanelLeaves
import TerminalCanvas.Terminal.SplitLayout
import TerminalCanvas.Update.EnvironmentBlock
import TerminalCanvas.Update.WindowsCommand
import TerminalCanvas.Utils.DiagnosticsCoverage
