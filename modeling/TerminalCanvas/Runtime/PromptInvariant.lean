import TerminalCanvas.Runtime.PromptLedger

/-! # Every operation keeps the accepted input in order

The startup input is configured while nothing was accepted yet, and the prompt in its slot
has a ticket that still waits. -/

namespace TerminalCanvas.Runtime.PromptDelivery

open Terminal Execution

/-- The startup input may still be configured. -/
def World.StartupDue (world : World) : Prop :=
  match world.session.remoteRecovery with
  | some recovery => recovery.startupDelivered = false
  | none => world.remoteAsync = false ∧ world.session.handle = none

def PromptWaits (receipts : Receipts String PromptError) (slot : Option PendingStartupInput) :
    Prop :=
  ∀ pending, slot = some pending → ∃ ticket, pending.completion = some ticket ∧
    receipts.channel ticket = some .waiting ∧ receipts.item ticket = some pending.input

/-- Startup input that waits is untracked, and the first input of all. -/
def StartupWaits (written : List Written) (slot : Option PendingStartupInput) : Prop :=
  ∀ pending, slot = some pending → pending.completion = none ∧ written = []

structure Invariant (world : World) : Prop where
  ledger : Ledger world.receipts world.written world.submitted
  prompt : PromptWaits world.receipts world.session.pendingPrompt
  startup : StartupWaits world.written world.session.pendingStartupInput
  due : world.StartupDue → world.session.handle = none ∧
    world.session.pendingStartupInput = none ∧ world.written = []
  inProcess : world.remoteAsync = false → world.session.remoteRecovery = none ∧
    ∀ handle, world.session.handle = some handle → handle.isRemote = false

/-! ## The slots -/

theorem PromptWaits.map {receipts : Receipts String PromptError}
    {slot : Option PendingStartupInput} (waits : PromptWaits receipts slot)
    (change : PendingStartupInput → PendingStartupInput)
    (keeps : ∀ pending, (change pending).completion = pending.completion ∧
      (change pending).input = pending.input) : PromptWaits receipts (slot.map change) := by
  intro changed equal
  obtain ⟨pending, present, rfl⟩ := Option.map_eq_some_iff.mp equal
  rw [(keeps pending).1, (keeps pending).2]
  exact waits pending present

theorem PromptWaits.none (receipts : Receipts String PromptError) : PromptWaits receipts none :=
  fun _ equal => by cases equal

theorem StartupWaits.map {written : List Written} {slot : Option PendingStartupInput}
    (waits : StartupWaits written slot) (change : PendingStartupInput → PendingStartupInput)
    (keeps : ∀ pending, (change pending).completion = pending.completion) :
    StartupWaits written (slot.map change) := by
  intro changed equal
  obtain ⟨pending, present, rfl⟩ := Option.map_eq_some_iff.mp equal
  rw [keeps pending]
  exact waits pending present

theorem StartupWaits.none (written : List Written) : StartupWaits written none :=
  fun _ equal => by cases equal

theorem StartupWaits.append {written : List Written} {slot : Option PendingStartupInput}
    (empty : slot = Option.none) (entry : Written) : StartupWaits (written ++ [entry]) slot := by
  rw [empty]
  exact StartupWaits.none _

/-! ## Recovery and connections -/

section Recovery

variable {world : World}

theorem Invariant.setRecovery (invariant : Invariant world) {recovery changed : RemoteRecoveryState}
    (present : world.session.remoteRecovery = some recovery)
    (delivered : changed.startupDelivered = recovery.startupDelivered) :
    Invariant (world.setRecovery changed) where
  ledger := invariant.ledger
  prompt := invariant.prompt
  startup := invariant.startup
  due due := invariant.due (by
    simp only [World.StartupDue, World.setRecovery] at due ⊢
    rw [present]
    exact delivered.symm.trans due)
  inProcess local_ := by
    have absent := (invariant.inProcess local_).1
    rw [present] at absent
    cases absent

theorem Invariant.queueRemoteRecovery (invariant : Invariant world) (view : RecoveryView) :
    Invariant (world.queueRemoteRecovery view) := by
  unfold World.queueRemoteRecovery
  split
  case h_1 => exact invariant
  case h_2 recovery present =>
    split
    · exact invariant
    · split
      · exact invariant.setRecovery present rfl
      · split
        · exact invariant
        · split
          · exact invariant
          · exact invariant.setRecovery present rfl

theorem Invariant.releaseHandle (invariant : Invariant world) (remote : world.remoteAsync = true) :
    Invariant (world.setHandle none) where
  ledger := invariant.ledger
  prompt := invariant.prompt
  startup := invariant.startup
  due due := by
    have before : world.StartupDue := by
      simp only [World.StartupDue, World.setHandle] at due ⊢
      split at due
      case h_1 recovery present => exact due
      case h_2 absent => rw [remote] at due; cases due.1
    exact ⟨rfl, (invariant.due before).2⟩
  inProcess local_ := by
    rw [show (world.setHandle none).remoteAsync = world.remoteAsync from rfl, remote] at local_
    cases local_

theorem Invariant.releaseDisconnected (invariant : Invariant world)
    (remote : world.remoteAsync = true) (lock : Lock) :
    Invariant (world.releaseDisconnected lock) := by
  unfold World.releaseDisconnected
  split
  case h_1 =>
    split
    · exact invariant.releaseHandle remote
    · exact invariant
  case h_2 => exact invariant

theorem Invariant.recordInputError (invariant : Invariant world) (message : String) :
    Invariant (world.recordInputError message) :=
  ⟨invariant.ledger, invariant.prompt, invariant.startup, invariant.due, invariant.inProcess⟩

end Recovery

/-! ## Publication -/

/-- What configuring the startup input of an untouched session leaves behind. -/
structure Configured (world configured : World) : Prop where
  remoteAsync : configured.remoteAsync = world.remoteAsync
  closed : configured.closed = world.closed
  receipts : configured.receipts = world.receipts
  submitted : configured.submitted = world.submitted
  prompt : configured.session.pendingPrompt = world.session.pendingPrompt
  recovery : configured.session.remoteRecovery = world.session.remoteRecovery
  outcome : (configured.written = [] ∧
      StartupWaits [] configured.session.pendingStartupInput) ∨
    (∃ bytes, configured.written = [⟨.startup, bytes, false⟩]) ∧
      configured.session.pendingStartupInput = none

theorem configureStartupInput_spec (world : World) (view : ConfigureView)
    (untouched : world.written = []) (empty : world.session.pendingStartupInput = none) :
    Configured world (world.configureStartupInput view) := by
  have same : Configured world world :=
    ⟨rfl, rfl, rfl, rfl, rfl, rfl, .inl ⟨untouched, empty ▸ .none _⟩⟩
  have deferred (baseline : Option Nat) (input : String) :
      Configured world (world.setStartup (some ⟨false, input, baseline, none⟩)) :=
    ⟨rfl, rfl, rfl, rfl, rfl, rfl, .inl ⟨untouched, fun pending equal => by
      cases equal
      exact ⟨rfl, rfl⟩⟩⟩
  unfold World.configureStartupInput
  split
  case h_1 => exact same
  case h_2 text given =>
    split
    · dsimp only
      split <;>
        exact ⟨rfl, rfl, rfl, rfl, rfl, rfl, .inl ⟨untouched, .none _⟩⟩
    · split
      · exact same
      · split
        · exact deferred _ _
        · split
          · exact same
          · split
            case h_1 bytes _ =>
              refine ⟨rfl, rfl, rfl, rfl, rfl, rfl, .inr ⟨⟨bytes, ?_⟩, empty⟩⟩
              simp [World.accept, untouched, empty]
            case h_2 error _ =>
              split
              · exact deferred _ _
              · exact ⟨rfl, rfl, rfl, rfl, rfl, rfl, .inl ⟨untouched, empty ▸ .none _⟩⟩

section Publication

variable {world : World}

theorem Invariant.remoteAsync_of_recovery (invariant : Invariant world)
    {recovery : RemoteRecoveryState} (present : world.session.remoteRecovery = some recovery) :
    world.remoteAsync = true := by
  cases mode : world.remoteAsync with
  | true => rfl
  | false =>
      rw [(invariant.inProcess mode).1] at present
      cases present

theorem Configured.ledger {configured : World} (configures : Configured world configured)
    (ledger : Ledger world.receipts [] world.submitted) :
    Ledger configured.receipts configured.written configured.submitted ∧
      StartupWaits configured.written configured.session.pendingStartupInput := by
  rw [configures.receipts, configures.submitted]
  rcases configures.outcome with ⟨untouched, waits⟩ | ⟨⟨bytes, written⟩, empty⟩
  · rw [untouched]
    exact ⟨ledger, waits⟩
  · rw [written, empty]
    exact ⟨ledger.acceptStartup bytes false, .none _⟩

theorem invariant_of_delivered
    (ledger : Ledger world.receipts world.written world.submitted)
    (prompt : PromptWaits world.receipts world.session.pendingPrompt)
    (startup : StartupWaits world.written world.session.pendingStartupInput)
    (remote : world.remoteAsync = true)
    (delivered : world.session.remoteRecovery.all (·.startupDelivered) = true) :
    Invariant world where
  ledger := ledger
  prompt := prompt
  startup := startup
  due due := by
    unfold World.StartupDue at due
    split at due
    case h_1 recovery present =>
      rw [present, Option.all_some, due] at delivered
      cases delivered
    case h_2 absent =>
      rw [remote] at due
      cases due.1
  inProcess local_ := by
    rw [remote] at local_
    cases local_

theorem Invariant.publish (invariant : Invariant world) {recovery : RemoteRecoveryState}
    (present : world.session.remoteRecovery = some recovery) (result : RemoteResult)
    (view : CollectView) : Invariant (world.publish recovery result view) := by
  have remote := invariant.remoteAsync_of_recovery present
  have republishes : ∀ pending : PendingStartupInput,
      (pending.republish result.outputReady view.published).completion = pending.completion ∧
      (pending.republish result.outputReady view.published).input = pending.input :=
    fun pending => ⟨rfl, rfl⟩
  unfold World.publish
  cases delivered : recovery.startupDelivered with
  | true =>
      simp only [if_true]
      exact invariant_of_delivered invariant.ledger (invariant.prompt.map _ republishes)
        (invariant.startup.map _ fun pending => (republishes pending).1) remote rfl
  | false =>
      have due : world.StartupDue := by
        rw [World.StartupDue, present]
        exact delivered
      obtain ⟨_, empty, untouched⟩ := invariant.due due
      have configures := configureStartupInput_spec
        (world.setRecovery { recovery with startupDelivered := true }) view.configure
        untouched empty
      obtain ⟨ledger, startup⟩ := configures.ledger (untouched ▸ invariant.ledger)
      have prompt := invariant.prompt
      have mode := configures.remoteAsync.trans remote
      have recovered := congrArg (Option.all RemoteRecoveryState.startupDelivered)
        configures.recovery
      rw [show world.receipts = _ from configures.receipts.symm,
        show world.session.pendingPrompt = _ from configures.prompt.symm] at prompt
      simp only [Bool.false_eq_true, if_false]
      split
      case isTrue ready =>
        exact invariant_of_delivered ledger (prompt.map _ republishes)
          ((startup.map ({ · with baselineRenderRevision := none }) fun _ => rfl).map _
            fun pending => (republishes pending).1) mode recovered
      case isFalse =>
        exact invariant_of_delivered ledger (prompt.map _ republishes)
          (startup.map _ fun pending => (republishes pending).1) mode recovered

theorem Invariant.collectRemoteCompletions (invariant : Invariant world) (view : CollectView) :
    Invariant (world.collectRemoteCompletions view) := by
  unfold World.collectRemoteCompletions
  split
  case h_1 recovery completion present _ =>
    split
    · exact invariant
    · cases completion with
      | result result =>
          dsimp only
          split
          · exact invariant.publish present result view
          · split
            · exact invariant
            · exact invariant.setRecovery present rfl
      | wrongIdentity => exact invariant.setRecovery present rfl
      | failed retryable => exact invariant.setRecovery present rfl
  case h_2 => exact invariant

theorem Invariant.attachLocal (invariant : Invariant world) (mode : world.remoteAsync = false)
    (detached : world.session.handle = none) (view : AttachView) :
    Invariant (world.attachLocal view) := by
  have absent := (invariant.inProcess mode).1
  unfold World.attachLocal
  split
  case isFalse => exact invariant
  case isTrue =>
    have due : world.StartupDue := by
      rw [World.StartupDue, absent]
      exact ⟨mode, detached⟩
    obtain ⟨_, empty, untouched⟩ := invariant.due due
    have configures := configureStartupInput_spec world view.configure untouched empty
    obtain ⟨ledger, startup⟩ := configures.ledger (untouched ▸ invariant.ledger)
    have prompt := invariant.prompt
    rw [← configures.receipts, ← configures.prompt] at prompt
    have recovery := configures.recovery.trans absent
    have still := configures.remoteAsync.trans mode
    simp only [absent, Option.all_none, if_true]
    split
    case h_2 other present =>
      rw [recovery] at present
      cases present
    case h_1 =>
      refine ⟨ledger, prompt, startup, fun due => ?_, fun _ => ⟨recovery, fun handle local_ => ?_⟩⟩
      · simp only [World.StartupDue, World.setHandle, recovery] at due
        cases due.2
      · cases local_
        rfl

end Publication

/-! ## The slots of a flush -/

section Flush

variable {world : World}

theorem Invariant.setStartup (invariant : Invariant world) {slot : Option PendingStartupInput}
    (waits : StartupWaits world.written slot)
    (keeps : world.session.pendingStartupInput = none → slot = none) :
    Invariant (world.setStartup slot) where
  ledger := invariant.ledger
  prompt := invariant.prompt
  startup := waits
  due due := by
    obtain ⟨detached, empty, untouched⟩ := invariant.due due
    exact ⟨detached, keeps empty, untouched⟩
  inProcess := invariant.inProcess

theorem Invariant.setPrompt (invariant : Invariant world) {slot : Option PendingStartupInput}
    (waits : PromptWaits world.receipts slot) : Invariant (world.setPrompt slot) :=
  ⟨invariant.ledger, waits, invariant.startup, invariant.due, invariant.inProcess⟩

theorem Invariant.resolvePrompt (invariant : Invariant world)
    {receipts : Receipts String PromptError}
    (ledger : Ledger receipts world.written world.submitted) :
    Invariant ({ world with receipts := receipts }.setPrompt none) :=
  ⟨ledger, .none _, invariant.startup, invariant.due, invariant.inProcess⟩

theorem Invariant.flushDetached (invariant : Invariant world) (lease : RemoteLease) :
    Invariant (world.flushDetached lease) := by
  unfold World.flushDetached
  dsimp only
  split
  · exact invariant
  · split
    case h_1 => exact invariant
    case h_2 ticket tracked =>
      obtain ⟨pending, present, completion⟩ := Option.bind_eq_some_iff.mp tracked
      obtain ⟨other, issued, waiting, _⟩ := invariant.prompt pending present
      obtain rfl := Option.some.inj (completion.symm.trans issued)
      exact invariant.resolvePrompt (invariant.ledger.refuse waiting _)

theorem Invariant.discardCancelled (invariant : Invariant world) :
    Invariant world.discardCancelled := by
  unfold World.discardCancelled
  split
  case h_1 => exact invariant
  case h_2 ticket tracked =>
    obtain ⟨pending, present, completion⟩ := Option.bind_eq_some_iff.mp tracked
    obtain ⟨other, issued, waiting, _⟩ := invariant.prompt pending present
    obtain rfl := Option.some.inj (completion.symm.trans issued)
    split
    · exact invariant.resolvePrompt (invariant.ledger.close waiting)
    · exact invariant

theorem Invariant.settle_error (invariant : Invariant world) {isStartup : Bool}
    {pending : PendingStartupInput} (present : world.slot isStartup = some pending)
    (error : PromptError) : Invariant (world.settle isStartup pending (.error error)) := by
  cases isStartup with
  | true =>
      have untracked := (invariant.startup pending present).1
      simp only [World.settle, World.complete, untracked, World.setSlot, if_true]
      exact invariant.setStartup (.none _) fun _ => rfl
  | false =>
      obtain ⟨ticket, issued, waiting, _⟩ := invariant.prompt pending present
      simp only [World.settle, World.complete, issued, World.setSlot, Bool.false_eq_true, if_false]
      exact invariant.resolvePrompt (invariant.ledger.refuse waiting error)

theorem Invariant.fail (invariant : Invariant world) {isStartup : Bool}
    {pending : PendingStartupInput} (present : world.slot isStartup = some pending)
    (error : PromptError) : Invariant (world.fail isStartup pending error) :=
  (invariant.recordInputError _).settle_error (by cases isStartup <;> exact present) error

theorem Invariant.acceptStartup (invariant : Invariant world) {pending : PendingStartupInput}
    (present : world.session.pendingStartupInput = some pending) (bytes : Bytes) :
    Invariant ((world.accept .startup bytes).setStartup none) := by
  have untouched := (invariant.startup pending present).2
  have ledger := invariant.ledger
  rw [untouched] at ledger
  refine ⟨?_, invariant.prompt, .none _, fun due => ?_, invariant.inProcess⟩
  · simpa [World.accept, World.setStartup, untouched, present] using
      ledger.acceptStartup bytes true
  · have empty := (invariant.due due).2.1
    rw [present] at empty
    cases empty

theorem Invariant.acceptPrompt (invariant : Invariant world) {pending : PendingStartupInput}
    {ticket : Nat} {handle : SharedHandle} (attached : world.session.handle = some handle)
    (free : world.session.pendingStartupInput = none)
    (present : world.session.pendingPrompt = some pending)
    (completion : pending.completion = some ticket) (mode : InputMode) :
    Invariant (((world.accept (.prompt ticket) (agentPromptBytes pending.input mode)).complete
      (some ticket) (.ok ())).setPrompt none) := by
  obtain ⟨other, issued, waiting, item⟩ := invariant.prompt pending present
  obtain rfl := Option.some.inj (completion.symm.trans issued)
  refine ⟨?_, .none _, ?_, fun due => ?_, invariant.inProcess⟩
  · simpa [World.accept, World.complete, World.setPrompt, free] using
      invariant.ledger.acceptPrompt waiting item mode
  · exact StartupWaits.append free _
  · have detached := (invariant.due due).1
    rw [attached] at detached
    cases detached

theorem trySend_slot {pending later : PendingStartupInput} {current : Nat}
    {answer : Except PromptError Unit} {sent : Except PromptError Bool}
    (attempt : pending.trySend current answer = (later, sent)) :
    later.completion = pending.completion ∧ later.input = pending.input := by
  unfold PendingStartupInput.trySend at attempt
  split at attempt <;>
    · obtain ⟨rfl, _⟩ := Prod.mk.inj attempt
      exact ⟨rfl, rfl⟩

theorem fail_congr {pending later : PendingStartupInput}
    (completion : later.completion = pending.completion) (world : World) (isStartup : Bool)
    (error : PromptError) :
    world.fail isStartup later error = world.fail isStartup pending error := by
  simp only [World.fail, World.settle, completion]

theorem Invariant.flushLocked (invariant : Invariant world) {isStartup : Bool}
    {pending : PendingStartupInput} {handle : SharedHandle}
    (attached : world.session.handle = some handle)
    (present : world.slot isStartup = some pending)
    (free : isStartup = false → world.session.pendingStartupInput = none)
    (terminal : PtyHandle) (lease : RemoteLease) :
    Invariant (world.flushLocked isStartup pending handle terminal lease) := by
  unfold World.flushLocked
  split
  · split
    · exact invariant
    · exact invariant.fail present _
  · split
    case h_1 error _ => exact invariant.fail present error
    case h_2 =>
      cases isStartup with
      | true =>
          have untracked := (invariant.startup pending present).1
          simp only [if_true]
          split
          case h_1 later attempt =>
            simp only [World.setSlot, if_true]
            refine invariant.setStartup (fun other same => ?_) fun empty => ?_
            · obtain rfl := Option.some.inj same
              exact ⟨(trySend_slot attempt).1.trans untracked,
                (invariant.startup pending present).2⟩
            · rw [show world.session.pendingStartupInput = some pending from present] at empty
              cases empty
          case h_2 later attempt =>
            simp only [World.sourceOf, World.settle, World.complete, (trySend_slot attempt).1,
              untracked, World.setSlot, if_true]
            exact invariant.acceptStartup present _
          case h_3 later error attempt =>
            rw [fail_congr (trySend_slot attempt).1]
            exact invariant.fail present error
      | false =>
          obtain ⟨ticket, issued, waiting, item⟩ := invariant.prompt pending present
          simp only [Bool.false_eq_true, if_false]
          split
          case h_1 later attempt =>
            simp only [World.setSlot, Bool.false_eq_true, if_false]
            refine invariant.setPrompt fun other same => ?_
            obtain rfl := Option.some.inj same
            exact ⟨ticket, (trySend_slot attempt).1.trans issued, waiting,
              (trySend_slot attempt).2 ▸ item⟩
          case h_2 later attempt =>
            simp only [World.sourceOf, World.settle, (trySend_slot attempt).1, issued,
              Option.getD_some, World.setSlot, Bool.false_eq_true, if_false]
            exact invariant.acceptPrompt attached (free rfl) present issued _
          case h_3 later error attempt =>
            rw [fail_congr (trySend_slot attempt).1]
            exact invariant.fail present error

theorem Invariant.flushOnePending (invariant : Invariant world) (isStartup : Bool)
    (free : isStartup = false → world.session.pendingStartupInput = none) (view : SlotView) :
    Invariant (world.flushOnePending isStartup view) := by
  unfold World.flushOnePending
  split
  case h_1 => exact invariant.flushDetached view.lease
  case h_2 handle attached =>
    split
    case h_1 => exact invariant
    case h_2 pending present =>
      split
      case h_1 => exact invariant.settle_error present _
      case h_2 terminal _ => exact invariant.flushLocked attached present free terminal view.lease

theorem Invariant.prepareFlush (invariant : Invariant world) (view : FlushView) :
    Invariant (world.prepareFlush view) := by
  unfold World.prepareFlush
  have collected := invariant.collectRemoteCompletions view.collect
  dsimp only
  refine Invariant.discardCancelled ?_
  split
  case isFalse => exact collected
  case isTrue remote =>
    have released := collected.releaseDisconnected remote view.disconnect
    split
    · exact released.queueRemoteRecovery view.recovery
    · exact released

theorem Invariant.flushPendingInputs (invariant : Invariant world) (view : FlushView) :
    Invariant (world.flushPendingInputs view) := by
  unfold World.flushPendingInputs
  split
  · exact invariant
  · have flushed := (invariant.prepareFlush view).flushOnePending true
      (fun impossible => by cases impossible) view.startup
    dsimp only
    split
    case isTrue free =>
      exact flushed.flushOnePending false (fun _ => Option.isNone_iff_eq_none.mp free) view.prompt
    case isFalse => exact flushed

end Flush

end TerminalCanvas.Runtime.PromptDelivery
