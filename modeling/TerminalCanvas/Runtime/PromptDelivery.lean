import TerminalCanvas.Foundation.Execution
import TerminalCanvas.Foundation.Tickets
import TerminalCanvas.Terminal.Paste

/-! # Prompts of a session

A session keeps two slots for input that its terminal cannot take yet: the startup input
and one prompt. What other threads decide in the meantime (the terminal, the worker of the
remote queue) is part of the inputs. -/

namespace TerminalCanvas.Runtime

open Execution Terminal

/-- `io::ErrorKind`, as far as the delivery of prompts tells its values apart. -/
inductive PromptErrorKind
  | notFound
  | notConnected
  | invalidInput
  | wouldBlock
  | brokenPipe
  | other
  deriving DecidableEq

structure PromptError where
  kind : PromptErrorKind
  message : String
  deriving DecidableEq

namespace PromptDelivery

/-! ## The terminal and the remote side -/

/-- What one lock of a terminal shows. A write is taken whole or not at all. -/
structure PtyHandle where
  alive : Bool
  remoteSessionExited : Bool
  checkInputOpen : Except PromptError Unit
  renderRevision : Nat
  inputMode : InputMode
  tryWriteAll : Bytes → Except PromptError Unit

/-- One attempt to lock a terminal, which fails where the lock is poisoned or, for
`try_lock`, taken. -/
abbrev Lock := Option PtyHandle

/-- The published terminal of a session. -/
structure SharedHandle where
  isRemote : Bool

structure RemoteLease where
  retired : Bool
  pending : Bool

structure RemoteRecoveryState where
  nextRetry : Nat
  retryable : Bool
  startupDelivered : Bool

def remoteRetryDelay : Nat := 2000

def RemoteRecoveryState.recoverable (recovery : RemoteRecoveryState) (lease : RemoteLease) :
    Bool :=
  !lease.retired && (recovery.retryable || lease.pending)

/-! ## The session -/

structure SessionSpec where
  startupInput : Option String
  startupCommand : Option String

structure PendingStartupInput where
  deferUntilRemotePublication : Bool
  input : String
  /-- `none` where readiness was already observed. -/
  baselineRenderRevision : Option Nat
  completion : Option Nat

structure ManagedSession where
  spec : SessionSpec
  handle : Option SharedHandle
  pendingStartupInput : Option PendingStartupInput
  pendingPrompt : Option PendingStartupInput
  remoteRecovery : Option RemoteRecoveryState

/-- Whose bytes a terminal was given. -/
inductive Source
  | startup
  | prompt (ticket : Nat)
  /-- The calls of `submit_prompt` are numbered. -/
  | direct (number : Nat)
  deriving DecidableEq

/-- An accepted input, and whether startup input was pending when it was written. -/
structure Written where
  source : Source
  bytes : Bytes
  startupPending : Bool

structure World where
  remoteAsync : Bool
  closed : Bool
  session : ManagedSession
  receipts : Receipts String PromptError
  written : List Written
  submitted : Nat
  inputErrors : List String

def emptyPrompt : PromptError := ⟨.invalidInput, "El prompt está vacío."⟩

def oversizedPrompt : PromptError :=
  ⟨.invalidInput, "No se envió el prompt: el texto preparado supera el límite de 2 MiB. " ++
    "Dividilo en partes más pequeñas."⟩

def sessionGone : PromptError := ⟨.notFound, "La sesión del terminal ya no existe."⟩

def terminalExited : PromptError := ⟨.brokenPipe, "El terminal terminó."⟩

def notConnected : PromptError := ⟨.notConnected, "El terminal no está conectado."⟩

namespace World

def recordInputError (world : World) (message : String) : World :=
  { world with inputErrors := world.inputErrors ++ [message] }

def accept (world : World) (source : Source) (bytes : Bytes) : World :=
  { world with
    written := world.written ++
      [⟨source, bytes, world.session.pendingStartupInput.isSome⟩] }

def setStartup (world : World) (pending : Option PendingStartupInput) : World :=
  { world with session := { world.session with pendingStartupInput := pending } }

def setPrompt (world : World) (pending : Option PendingStartupInput) : World :=
  { world with session := { world.session with pendingPrompt := pending } }

def setHandle (world : World) (handle : Option SharedHandle) : World :=
  { world with session := { world.session with handle := handle } }

def setRecovery (world : World) (recovery : RemoteRecoveryState) : World :=
  { world with session := { world.session with remoteRecovery := some recovery } }

end World

def writeStartupInput (terminal : PtyHandle) (input : String) :
    Bytes × Except PromptError Unit :=
  let bytes := startupInputBytes input terminal.inputMode
  (bytes, terminal.tryWriteAll bytes)

def writePromptInput (terminal : PtyHandle) (input : String) :
    Bytes × Except PromptError Unit :=
  let bytes := agentPromptBytes input terminal.inputMode
  (bytes, terminal.tryWriteAll bytes)

namespace PendingStartupInput

def isReady (pending : PendingStartupInput) (current : Nat) : Bool :=
  pending.baselineRenderRevision.all (· < current)

def trySend (pending : PendingStartupInput) (current : Nat) (answer : Except PromptError Unit) :
    PendingStartupInput × Except PromptError Bool :=
  if pending.isReady current then
    ({ pending with baselineRenderRevision := none },
      match answer with
      | .ok () => .ok true
      | .error error => if error.kind = .wouldBlock then .ok false else .error error)
  else
    (pending, .ok false)

/-- A publication starts to count renders anew, unless there is nothing to wait for. -/
def republish (ready : Bool) (published : Lock) (pending : PendingStartupInput) :
    PendingStartupInput :=
  { pending with
    deferUntilRemotePublication := false
    baselineRenderRevision :=
      if ready then none
      else if pending.baselineRenderRevision.isSome then published.map PtyHandle.renderRevision
      else none }

end PendingStartupInput

/-! ## Publication -/

/-- The locks of a new terminal while its startup input is configured. -/
structure ConfigureView where
  baseline : Lock
  write : Lock

namespace World

def configureStartupInput (world : World) (view : ConfigureView) : World :=
  match world.session.spec.startupInput with
  | none => world
  | some text =>
      if promptFitsInputBudget (trim text) = false then
        let world := { world with
          session := { world.session with
            spec := { world.session.spec with startupInput := none }
            pendingStartupInput := none } }
        if view.baseline.isSome then world.recordInputError oversizedPrompt.message else world
      else if (trim text).isEmpty then
        world
      else if world.session.spec.startupCommand.any fun command => !(trim command).isEmpty then
        world.setStartup (some ⟨false, trim text,
          some ((view.baseline.map PtyHandle.renderRevision).getD 0), none⟩)
      else
        match view.write with
        | none => world
        | some terminal =>
            match writeStartupInput terminal (trim text) with
            | (bytes, .ok ()) => world.accept .startup bytes
            | (_, .error error) =>
                if error.kind = .wouldBlock then
                  world.setStartup (some ⟨false, trim text, none, none⟩)
                else
                  world.recordInputError ("No se pudo enviar el prompt inicial: " ++ error.message)

end World

structure RemoteResult where
  handle : SharedHandle
  outputReady : Bool
  dimensions : Nat × Nat

/-- What the worker left for the session. -/
inductive RemoteCompletion
  | result (result : RemoteResult)
  | wrongIdentity
  | failed (retryable : Bool)

structure CollectView where
  completion : Option RemoteCompletion
  retired : Bool
  desired : Nat × Nat
  /-- The queue takes the job that applies other dimensions first. -/
  takesResize : Bool
  now : Nat
  configure : ConfigureView
  published : Lock

namespace World

def publish (world : World) (recovery : RemoteRecoveryState) (result : RemoteResult)
    (view : CollectView) : World :=
  let world := world.setRecovery { recovery with startupDelivered := true }
  let world :=
    if recovery.startupDelivered then
      world
    else
      let world := world.configureStartupInput view.configure
      if result.outputReady then
        world.setStartup (world.session.pendingStartupInput.map
          ({ · with baselineRenderRevision := none }))
      else
        world
  let world := world.setStartup
    (world.session.pendingStartupInput.map (.republish result.outputReady view.published))
  let world := world.setPrompt
    (world.session.pendingPrompt.map (.republish result.outputReady view.published))
  world.setHandle (some result.handle)

def collectRemoteCompletions (world : World) (view : CollectView) : World :=
  match world.session.remoteRecovery, view.completion with
  | some recovery, some completion =>
      if view.retired then
        world
      else
        match completion with
        | .result result =>
            if view.desired = result.dimensions then
              world.publish recovery result view
            else if view.takesResize then
              world
            else
              world.setRecovery { recovery with nextRetry := view.now + remoteRetryDelay }
        | .wrongIdentity => world.setRecovery { recovery with retryable := false }
        | .failed retryable =>
            world.setRecovery { recovery with
              retryable := retryable
              nextRetry := view.now + remoteRetryDelay }
  | _, _ => world

end World

structure RecoveryView where
  retired : Bool
  specFits : Bool
  /-- An attempt is under way, or its completion waits. -/
  busy : Bool
  now : Nat
  takesJob : Bool

def World.queueRemoteRecovery (world : World) (view : RecoveryView) : World :=
  match world.session.remoteRecovery with
  | none => world
  | some recovery =>
      if view.retired ∨ recovery.retryable = false then
        world
      else if view.specFits = false then
        world.setRecovery { recovery with retryable := false }
      else if view.busy ∨ view.now < recovery.nextRetry then
        world
      else if view.takesJob then
        world
      else
        world.setRecovery { recovery with nextRetry := view.now + remoteRetryDelay }

/-! ## Prompts -/

namespace World

/-- Enqueue into a live terminal without overtaking startup or deferred input. -/
def submitPrompt (world : World) (text : String) (lock : Lock) : World × Except PromptError Unit :=
  let number := world.submitted
  let world := { world with submitted := number + 1 }
  if (trim text).isEmpty then
    (world, .error emptyPrompt)
  else if promptFitsInputBudget (trim text) = false then
    (world, .error oversizedPrompt)
  else if world.closed then
    (world, .error sessionGone)
  else if world.session.pendingStartupInput.isSome ∨ world.session.pendingPrompt.isSome then
    (world, .error ⟨.wouldBlock,
      "El terminal todavía tiene un prompt pendiente; esperá antes de enviar otro."⟩)
  else if world.session.handle.isNone then
    (world, .error notConnected)
  else
    match lock with
    | none => (world, .error ⟨.other, "No se pudo acceder al terminal."⟩)
    | some terminal =>
        if terminal.alive then
          match writePromptInput terminal text with
          | (bytes, .ok ()) => (world.accept (.direct number) bytes, .ok ())
          | (_, .error error) => (world, .error error)
        else
          (world, .error terminalExited)

/-- The render revision behind which a new prompt waits, or why it is refused. -/
def promptBaseline (world : World) (recoverable : Bool) (lock : Lock) : Except PromptError Nat :=
  match world.session.handle with
  -- `u64::MAX`: no revision of a terminal is later
  | none => .ok (2 ^ 64 - 1)
  | some handle =>
      match lock with
      | none => .error ⟨.other, "No se pudo acceder al estado del terminal."⟩
      | some terminal =>
          if !terminal.alive &&
              !(handle.isRemote && !terminal.remoteSessionExited && recoverable) then
            .error terminalExited
          else if terminal.alive then
            terminal.checkInputOpen.map fun _ => terminal.renderRevision
          else
            .ok terminal.renderRevision

/-- A bounded startup slot, with observable acceptance and no replacement. -/
def queuePromptTracked (world : World) (text : String) (lease : RemoteLease) (lock : Lock) :
    World × Except PromptError Nat :=
  if world.closed then
    (world, .error sessionGone)
  else
    let recoverable := world.session.remoteRecovery.any (·.recoverable lease)
    if world.session.handle.isNone ∧ recoverable = false then
      (world, .error notConnected)
    else if (trim text).isEmpty then
      (world, .error emptyPrompt)
    else if world.session.pendingPrompt.isSome then
      (world, .error ⟨.wouldBlock,
        "Hay otro prompt pendiente; esperá a que el terminal lo acepte."⟩)
    else if promptFitsInputBudget (trim text) = false then
      let world :=
        if world.session.handle.isSome ∧ lock.isSome then
          world.recordInputError oversizedPrompt.message
        else
          world
      (world, .error oversizedPrompt)
    else
      match world.promptBaseline recoverable lock with
      | .error error => (world, .error error)
      | .ok baseline =>
          let ticket := world.receipts.length
          let world := { world with receipts := world.receipts.issue (trim text) }
          (world.setPrompt (some ⟨world.session.handle.isNone && recoverable, trim text,
            some baseline, some ticket⟩), .ok ticket)

/-! ## Flushing -/

/-- The sender of a result is dropped behind it. -/
def complete (world : World) (completion : Option Nat) (result : Except PromptError Unit) :
    World :=
  match completion with
  | none => world
  | some ticket => { world with receipts := world.receipts.resolve ticket result }

def slot (world : World) (isStartup : Bool) : Option PendingStartupInput :=
  if isStartup then world.session.pendingStartupInput else world.session.pendingPrompt

def setSlot (world : World) (isStartup : Bool) (pending : Option PendingStartupInput) : World :=
  if isStartup then world.setStartup pending else world.setPrompt pending

end World

/-- What one flush of a slot sees of the lease and of the terminal. -/
structure SlotView where
  lease : RemoteLease
  lock : Lock

namespace World

/-- A slot of a session without a terminal: the prompt waits for the first publication, or
is given up. -/
def flushDetached (world : World) (lease : RemoteLease) : World :=
  let waitingForFirstPublication :=
    world.session.pendingPrompt.any (·.deferUntilRemotePublication) &&
      world.session.remoteRecovery.any (·.recoverable lease)
  if waitingForFirstPublication then
    world
  else
    match world.session.pendingPrompt.bind (·.completion) with
    | none => world
    | some ticket =>
        (world.complete (some ticket) (.error ⟨.notConnected,
          "El terminal se desconectó antes de aceptar el prompt pendiente."⟩)).setPrompt none

/-- The slot is empty behind every result but a refusal for lack of room. -/
def settle (world : World) (isStartup : Bool) (pending : PendingStartupInput)
    (result : Except PromptError Unit) : World :=
  (world.complete pending.completion result).setSlot isStartup none

def fail (world : World) (isStartup : Bool) (pending : PendingStartupInput)
    (error : PromptError) : World :=
  (world.recordInputError ("No se pudo enviar el prompt pendiente: " ++ error.message)).settle
    isStartup pending (.error error)

def sourceOf (isStartup : Bool) (pending : PendingStartupInput) : Source :=
  if isStartup then .startup else .prompt (pending.completion.getD 0)

/-- A slot of a session whose terminal is locked. -/
def flushLocked (world : World) (isStartup : Bool) (pending : PendingStartupInput)
    (handle : SharedHandle) (terminal : PtyHandle) (lease : RemoteLease) : World :=
  if terminal.alive = false then
    if handle.isRemote ∧ terminal.remoteSessionExited = false ∧
        world.session.remoteRecovery.isSome ∧ lease.retired = false then
      world
    else
      world.fail isStartup pending
        ⟨.brokenPipe, "El terminal terminó antes de recibir el prompt."⟩
  else
    match terminal.checkInputOpen with
    | .error error => world.fail isStartup pending error
    | .ok () =>
        let (bytes, answer) :=
          if isStartup then writeStartupInput terminal pending.input
          else writePromptInput terminal pending.input
        match pending.trySend terminal.renderRevision answer with
        | (pending, .ok false) => world.setSlot isStartup (some pending)
        | (pending, .ok true) =>
            (world.accept (sourceOf isStartup pending) bytes).settle isStartup pending (.ok ())
        | (pending, .error error) => world.fail isStartup pending error

def flushOnePending (world : World) (isStartup : Bool) (view : SlotView) : World :=
  match world.session.handle with
  | none => world.flushDetached view.lease
  | some handle =>
      match world.slot isStartup with
      | none => world
      | some pending =>
          match view.lock with
          | none =>
              world.settle isStartup pending
                (.error ⟨.other, "No se pudo acceder al terminal pendiente."⟩)
          | some terminal => world.flushLocked isStartup pending handle terminal view.lease

/-- A remote terminal that lost its connection is let go. -/
def releaseDisconnected (world : World) (lock : Lock) : World :=
  match world.session.handle, lock with
  | some handle, some terminal =>
      if terminal.alive = false ∧ handle.isRemote ∧ terminal.remoteSessionExited = false then
        world.setHandle none
      else
        world
  | _, _ => world

/-- A prompt whose receipt was dropped leaves its slot. -/
def discardCancelled (world : World) : World :=
  match world.session.pendingPrompt.bind (·.completion) with
  | none => world
  | some ticket =>
      if world.receipts.cancelled ticket then
        { world with receipts := world.receipts.close ticket }.setPrompt none
      else
        world

end World

structure FlushView where
  collect : CollectView
  disconnect : Lock
  recovery : RecoveryView
  startup : SlotView
  prompt : SlotView

namespace World

/-- The locks of the remote side come first, then the slots. -/
def prepareFlush (world : World) (view : FlushView) : World :=
  let world := world.collectRemoteCompletions view.collect
  let world :=
    if world.remoteAsync then
      let world := world.releaseDisconnected view.disconnect
      if world.session.handle.isNone then world.queueRemoteRecovery view.recovery else world
    else
      world
  world.discardCancelled

def flushPendingInputs (world : World) (view : FlushView) : World :=
  if world.closed then
    world
  else
    let world := world.prepareFlush view
    let world := world.flushOnePending true view.startup
    if world.session.pendingStartupInput.isNone then
      world.flushOnePending false view.prompt
    else
      world

end World

/-! ## Attaching, adopting and closing -/

structure AttachView where
  collect : CollectView
  lock : Lock
  recovery : RecoveryView
  /-- A local terminal was started. -/
  spawned : Bool
  configure : ConfigureView

namespace World

/-- The local terminal of a session without a remote side. -/
def attachLocal (world : World) (view : AttachView) : World :=
  if view.spawned then
    let startup := world.session.remoteRecovery.all (!·.startupDelivered)
    let world := if startup then world.configureStartupInput view.configure else world
    let world :=
      match world.session.remoteRecovery with
      | none => world
      | some recovery => world.setRecovery { recovery with startupDelivered := true }
    world.setHandle (some ⟨false⟩)
  else
    world

def attachDetached (world : World) (view : AttachView) : World :=
  if world.closed then
    world
  else
    let world := world.collectRemoteCompletions view.collect
    match world.session.handle with
    | none =>
        if world.remoteAsync then world.queueRemoteRecovery view.recovery
        else world.attachLocal view
    | some handle =>
        let disconnected := view.lock.any fun terminal =>
          !terminal.alive && handle.isRemote && !terminal.remoteSessionExited
        if disconnected = false then
          world
        else if world.remoteAsync then
          (world.setHandle none).queueRemoteRecovery view.recovery
        else
          (world.setHandle none).attachLocal view

/-- Another backend takes over the sessions that have no local terminal; one that is in use
stays. -/
def setRemoteBackend (world : World) (inUse : Bool) (lock : Lock) (now : Nat) : World :=
  if world.remoteAsync ∧ inUse then
    world
  else
    let localOnly := lock.isSome && world.session.handle.any (!·.isRemote)
    let world := { world with remoteAsync := true }
    if world.closed ∨ localOnly then world else world.setRecovery ⟨now, true, true⟩

/-- Both ways to close a session drop its slots. -/
def close (world : World) : World :=
  let receipts :=
    match world.session.pendingPrompt.bind (·.completion) with
    | none => world.receipts
    | some ticket => world.receipts.close ticket
  ({ world with closed := true, receipts := receipts }.setPrompt none).setStartup none

/-- A session that was created, or whose birth was asked of a remote backend. -/
def created (remoteAsync newBirth : Bool) (spec : SessionSpec) (now : Nat) : World where
  remoteAsync := remoteAsync
  closed := false
  session :=
    { spec := spec
      handle := none
      pendingStartupInput := none
      pendingPrompt := none
      remoteRecovery := if remoteAsync then some ⟨now, true, !newBirth⟩ else none }
  receipts := []
  written := []
  submitted := 0
  inputErrors := []

end World

/-! ## Runs -/

inductive Input
  | submitPrompt (text : String) (lock : Lock)
  | queuePromptTracked (text : String) (lease : RemoteLease) (lock : Lock)
  | flushPendingInputs (view : FlushView)
  | attachDetached (view : AttachView)
  | setRemoteBackend (inUse : Bool) (lock : Lock) (now : Nat)
  | close
  | poll (ticket : Nat)
  | drop (ticket : Nat)
  | detach (ticket : Nat)

inductive Observation
  | done
  | submitted (result : Except PromptError Unit)
  | queued (result : Except PromptError Nat)
  | polled (result : Option (Except PromptError Unit))

/-- What a receipt reports of a session that is gone. -/
def promptLost : PromptError :=
  ⟨.brokenPipe, "El terminal se cerró antes de aceptar el prompt pendiente."⟩

def step (world : World) : Input → StepResult World Observation
  | .submitPrompt text lock =>
      let answer := world.submitPrompt text lock
      ⟨answer.1, .submitted answer.2⟩
  | .queuePromptTracked text lease lock =>
      let answer := world.queuePromptTracked text lease lock
      ⟨answer.1, .queued answer.2⟩
  | .flushPendingInputs view => ⟨world.flushPendingInputs view, .done⟩
  | .attachDetached view => ⟨world.attachDetached view, .done⟩
  | .setRemoteBackend inUse lock now => ⟨world.setRemoteBackend inUse lock now, .done⟩
  | .close => ⟨world.close, .done⟩
  | .poll ticket =>
      let answer := world.receipts.poll promptLost ticket
      ⟨{ world with receipts := answer.2 }, .polled answer.1⟩
  | .drop ticket => ⟨{ world with receipts := world.receipts.drop ticket }, .done⟩
  | .detach ticket => ⟨{ world with receipts := world.receipts.detach ticket }, .done⟩

def machine : Machine World Input Observation where
  step := step

end PromptDelivery

end TerminalCanvas.Runtime
