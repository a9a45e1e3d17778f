import TerminalCanvas.Runtime.PromptRuns

/-! # Prompts that are not sent

Only a flush sends what was queued, and it empties the slot of a prompt whose receipt was
dropped before it looks at the terminal. -/

namespace TerminalCanvas.Runtime.PromptDelivery

open Terminal Execution

def World.sent (world : World) (ticket : Nat) : List Written :=
  world.written.filter (·.source = .prompt ticket)

def World.promptTicket (world : World) : Option Nat :=
  world.session.pendingPrompt.bind (·.completion)

/-- No prompt was sent, and neither the receipts nor the prompt in its slot changed. -/
structure Silent (world later : World) : Prop where
  receipts : later.receipts = world.receipts
  slot : later.promptTicket = world.promptTicket
  sent : ∀ ticket, later.sent ticket = world.sent ticket

/-- This prompt was not sent. A cancellation stays, and the slot is not filled with it. -/
structure Unsent (ticket : Nat) (world later : World) : Prop where
  sent : later.sent ticket = world.sent ticket
  cancelled : world.receipts.cancelled ticket = true → later.receipts.cancelled ticket = true
  slot : world.promptTicket ≠ some ticket → later.promptTicket ≠ some ticket

section Sent

variable {world middle later : World} {ticket : Nat}

theorem Silent.refl (world : World) : Silent world world := ⟨rfl, rfl, fun _ => rfl⟩

theorem Silent.trans (former : Silent world middle) (latter : Silent middle later) :
    Silent world later :=
  ⟨latter.receipts.trans former.receipts, latter.slot.trans former.slot,
    fun ticket => (latter.sent ticket).trans (former.sent ticket)⟩

theorem Silent.unsent (silent : Silent world later) (ticket : Nat) : Unsent ticket world later where
  sent := silent.sent ticket
  cancelled := by
    rw [silent.receipts]
    exact id
  slot := by
    rw [silent.slot]
    exact id

theorem Unsent.trans (former : Unsent ticket world middle) (latter : Unsent ticket middle later) :
    Unsent ticket world later :=
  ⟨latter.sent.trans former.sent, latter.cancelled ∘ former.cancelled, latter.slot ∘ former.slot⟩

theorem silent_accept {source : Source} (other : ∀ ticket, source ≠ .prompt ticket)
    (bytes : Bytes) : Silent world (world.accept source bytes) :=
  ⟨rfl, rfl, fun ticket => by simp [World.sent, World.accept, other ticket]⟩

theorem silent_configureStartupInput (view : ConfigureView) :
    Silent world (world.configureStartupInput view) := by
  have quiet : ∀ slot, Silent world (world.setStartup slot) := fun _ => ⟨rfl, rfl, fun _ => rfl⟩
  unfold World.configureStartupInput
  split
  · exact .refl world
  split
  · dsimp only
    split <;> exact ⟨rfl, rfl, fun _ => rfl⟩
  split
  · exact .refl world
  split
  · exact quiet _
  split
  · exact .refl world
  split
  · exact silent_accept (fun _ => by simp) _
  split
  · exact quiet _
  · exact ⟨rfl, rfl, fun _ => rfl⟩

theorem silent_publish (recovery : RemoteRecoveryState) (result : RemoteResult)
    (view : CollectView) : Silent world (world.publish recovery result view) := by
  have republished (middle : World) (slot : Option PendingStartupInput) :
      Silent middle (((middle.setStartup slot).setPrompt (middle.session.pendingPrompt.map
        (.republish result.outputReady view.published))).setHandle (some result.handle)) := by
    refine ⟨rfl, ?_, fun _ => rfl⟩
    simp only [World.promptTicket, World.setHandle, World.setPrompt, Option.bind_map]
    rfl
  have delivered : Silent world (world.setRecovery { recovery with startupDelivered := true }) :=
    ⟨rfl, rfl, fun _ => rfl⟩
  unfold World.publish
  dsimp only
  refine Silent.trans ?_ (republished _ _)
  split
  · exact delivered
  · refine delivered.trans ((silent_configureStartupInput view.configure).trans ?_)
    split <;> exact ⟨rfl, rfl, fun _ => rfl⟩

theorem silent_collectRemoteCompletions (world : World) (view : CollectView) :
    Silent world (world.collectRemoteCompletions view) := by
  have recovered : ∀ recovery, Silent world (world.setRecovery recovery) :=
    fun _ => ⟨rfl, rfl, fun _ => rfl⟩
  unfold World.collectRemoteCompletions
  split
  case h_2 => exact .refl world
  case h_1 recovery completion _ _ =>
    split
    · exact .refl world
    · cases completion with
      | result result =>
          dsimp only
          split
          · exact silent_publish recovery result view
          · split
            · exact .refl world
            · exact recovered _
      | wrongIdentity => exact recovered _
      | failed retryable => exact recovered _

theorem silent_queueRemoteRecovery (view : RecoveryView) :
    Silent world (world.queueRemoteRecovery view) := by
  unfold World.queueRemoteRecovery
  repeat' split
  all_goals exact ⟨rfl, rfl, fun _ => rfl⟩

theorem silent_releaseDisconnected (lock : Lock) :
    Silent world (world.releaseDisconnected lock) := by
  unfold World.releaseDisconnected
  repeat' split
  all_goals exact ⟨rfl, rfl, fun _ => rfl⟩

theorem silent_attachLocal (view : AttachView) : Silent world (world.attachLocal view) := by
  unfold World.attachLocal
  dsimp only
  split
  · have configured : Silent world
        (if world.session.remoteRecovery.all (!·.startupDelivered) then
          world.configureStartupInput view.configure else world) := by
      split
      · exact silent_configureStartupInput view.configure
      · exact .refl world
    refine configured.trans ?_
    generalize (if world.session.remoteRecovery.all (!·.startupDelivered) then
      world.configureStartupInput view.configure else world) = started
    split <;> exact ⟨rfl, rfl, fun _ => rfl⟩
  · exact .refl world

theorem silent_attachDetached (view : AttachView) : Silent world (world.attachDetached view) := by
  have collected := silent_collectRemoteCompletions world view.collect
  have released (middle : World) : Silent middle (middle.setHandle none) :=
    ⟨rfl, rfl, fun _ => rfl⟩
  unfold World.attachDetached
  dsimp only
  split
  · exact .refl world
  split
  · split
    · exact collected.trans (silent_queueRemoteRecovery _)
    · exact collected.trans (silent_attachLocal _)
  split
  · exact collected
  split
  · exact (collected.trans (released _)).trans (silent_queueRemoteRecovery _)
  · exact (collected.trans (released _)).trans (silent_attachLocal _)

theorem silent_setRemoteBackend (inUse : Bool) (lock : Lock) (now : Nat) :
    Silent world (world.setRemoteBackend inUse lock now) := by
  unfold World.setRemoteBackend
  dsimp only
  repeat' split
  all_goals exact ⟨rfl, rfl, fun _ => rfl⟩

theorem silent_submitPrompt (text : String) (lock : Lock) :
    Silent world (world.submitPrompt text lock).1 := by
  have counted : Silent world world.countSubmission := ⟨rfl, rfl, fun _ => rfl⟩
  rcases submitPrompt_cases world text lock with ⟨error, refused⟩ | ⟨_, _, bytes, taken⟩
  · rw [refused]
    exact counted
  · rw [taken]
    exact counted.trans (silent_accept (fun _ => by simp) bytes)

/-! ## Slots that are emptied -/

theorem cancelled_resolve {receipts : Receipts String PromptError} (other : Nat)
    (result : Except PromptError Unit) (cancelled : receipts.cancelled ticket = true) :
    (receipts.resolve other result).cancelled ticket = true :=
  Receipts.cancelled_modify _ (fun _ set => set) cancelled

theorem cancelled_close {receipts : Receipts String PromptError} (other : Nat)
    (cancelled : receipts.cancelled ticket = true) :
    (receipts.close other).cancelled ticket = true :=
  Receipts.cancelled_modify _ (fun _ set => set) cancelled

theorem unsent_complete (completion : Option Nat) (result : Except PromptError Unit) :
    Unsent ticket world (world.complete completion result) := by
  cases completion with
  | none => exact (Silent.refl world).unsent ticket
  | some other => exact ⟨rfl, cancelled_resolve other result, id⟩

theorem unsent_setSlot (isStartup : Bool) {slot : Option PendingStartupInput}
    (same : isStartup = false → slot.bind (·.completion) = world.promptTicket ∨ slot = none) :
    Unsent ticket world (world.setSlot isStartup slot) := by
  cases isStartup with
  | true => exact ⟨rfl, id, id⟩
  | false =>
      refine ⟨rfl, id, fun other => ?_⟩
      change slot.bind _ ≠ some ticket
      rcases same rfl with kept | empty
      · rw [kept]
        exact other
      · simp [empty]

theorem unsent_settle (isStartup : Bool) (pending : PendingStartupInput)
    (result : Except PromptError Unit) :
    Unsent ticket world (world.settle isStartup pending result) :=
  (unsent_complete _ _).trans (unsent_setSlot isStartup fun _ => .inr rfl)

theorem unsent_fail (isStartup : Bool) (pending : PendingStartupInput) (error : PromptError) :
    Unsent ticket world (world.fail isStartup pending error) := by
  have recorded (message : String) : Silent world (world.recordInputError message) :=
    ⟨rfl, rfl, fun _ => rfl⟩
  unfold World.fail
  exact ((recorded _).unsent ticket).trans (unsent_settle isStartup pending _)

theorem unsent_flushDetached (lease : RemoteLease) :
    Unsent ticket world (world.flushDetached lease) := by
  unfold World.flushDetached
  dsimp only
  split
  · exact (Silent.refl world).unsent ticket
  split
  · exact (Silent.refl world).unsent ticket
  · exact (unsent_complete _ _).trans (unsent_setSlot false fun _ => .inr rfl)

theorem unsent_flushLocked {isStartup : Bool} {pending : PendingStartupInput}
    (present : world.slot isStartup = some pending)
    (other : isStartup = false → pending.completion.getD 0 ≠ ticket) (handle : SharedHandle)
    (terminal : PtyHandle) (lease : RemoteLease) :
    Unsent ticket world (world.flushLocked isStartup pending handle terminal lease) := by
  unfold World.flushLocked
  split
  · split
    · exact (Silent.refl world).unsent ticket
    · exact unsent_fail isStartup pending _
  split
  · exact unsent_fail isStartup pending _
  generalize (if isStartup then writeStartupInput terminal pending.input
    else writePromptInput terminal pending.input) = writes
  obtain ⟨bytes, answer⟩ := writes
  dsimp only
  split
  case h_1 later attempt =>
    refine unsent_setSlot isStartup fun isPrompt => .inl ?_
    subst isPrompt
    rw [Option.bind_some, (trySend_slot attempt).1, World.promptTicket,
      show world.session.pendingPrompt = some pending from present, Option.bind_some]
  case h_2 later attempt =>
    refine Unsent.trans ?_ (unsent_settle isStartup later _)
    refine ⟨?_, id, id⟩
    have different : World.sourceOf isStartup later ≠ .prompt ticket := by
      rw [World.sourceOf]
      cases isStartup with
      | true => simp
      | false =>
          rw [if_neg (by simp), (trySend_slot attempt).1]
          simpa using other rfl
    simp [World.sent, World.accept, different]
  case h_3 later error attempt => exact unsent_fail isStartup later error

theorem unsent_flushOnePending (isStartup : Bool) (invariant : Invariant world)
    (other : isStartup = false → world.promptTicket ≠ some ticket) (view : SlotView) :
    Unsent ticket world (world.flushOnePending isStartup view) := by
  unfold World.flushOnePending
  split
  · exact unsent_flushDetached view.lease
  split
  · exact (Silent.refl world).unsent ticket
  case h_2 pending present =>
    split
    · exact unsent_settle isStartup pending _
    · refine unsent_flushLocked present (fun isPrompt => ?_) _ _ _
      subst isPrompt
      obtain ⟨issued, completion, _, _⟩ := invariant.prompt pending present
      have slot := other rfl
      rw [World.promptTicket, show world.session.pendingPrompt = some pending from present,
        Option.bind_some, completion] at slot
      rw [completion, Option.getD_some]
      exact fun same => slot (congrArg some same)

theorem unsent_discardCancelled : Unsent ticket world world.discardCancelled := by
  unfold World.discardCancelled
  split
  · exact (Silent.refl world).unsent ticket
  split
  · exact ⟨rfl, cancelled_close _, fun _ => by simp [World.promptTicket, World.setPrompt]⟩
  · exact (Silent.refl world).unsent ticket

theorem discardCancelled_slot (cancelled : world.receipts.cancelled ticket = true) :
    world.discardCancelled.promptTicket ≠ some ticket := by
  unfold World.discardCancelled
  split
  case h_1 empty =>
    rw [World.promptTicket, empty]
    simp
  case h_2 other tracked =>
    split
    case isTrue => simp [World.promptTicket, World.setPrompt]
    case isFalse stays =>
      rw [World.promptTicket, tracked]
      rintro same
      rw [Option.some.inj same] at stays
      exact stays cancelled

theorem unsent_prepareFlush (ticket : Nat) (world : World) (view : FlushView) :
    Unsent ticket world (world.prepareFlush view) ∧
      (world.receipts.cancelled ticket = true →
        (world.prepareFlush view).promptTicket ≠ some ticket) := by
  have collected := silent_collectRemoteCompletions world view.collect
  unfold World.prepareFlush
  dsimp only
  have prepared : Silent world
      (if (world.collectRemoteCompletions view.collect).remoteAsync then
        if ((world.collectRemoteCompletions view.collect).releaseDisconnected
            view.disconnect).session.handle.isNone then
          ((world.collectRemoteCompletions view.collect).releaseDisconnected
            view.disconnect).queueRemoteRecovery view.recovery
        else
          (world.collectRemoteCompletions view.collect).releaseDisconnected view.disconnect
      else
        world.collectRemoteCompletions view.collect) := by
    split
    · split
      · exact (collected.trans (silent_releaseDisconnected _)).trans (silent_queueRemoteRecovery _)
      · exact collected.trans (silent_releaseDisconnected _)
    · exact collected
  refine ⟨(prepared.unsent ticket).trans unsent_discardCancelled, fun cancelled => ?_⟩
  exact discardCancelled_slot (by rw [prepared.receipts]; exact cancelled)

/-! ## Cancelled prompts -/

/-- A cancelled prompt stays cancelled and is not sent. -/
def Withheld (ticket : Nat) (world later : World) : Prop :=
  world.receipts.cancelled ticket = true →
    later.receipts.cancelled ticket = true ∧ later.sent ticket = world.sent ticket

theorem Silent.withheld (silent : Silent world later) (ticket : Nat) :
    Withheld ticket world later :=
  fun cancelled => ⟨(silent.unsent ticket).cancelled cancelled, silent.sent ticket⟩

theorem withheld_flushPendingInputs (invariant : Invariant world) (view : FlushView) :
    Withheld ticket world (world.flushPendingInputs view) := by
  intro cancelled
  obtain ⟨prepared, empty⟩ := unsent_prepareFlush ticket world view
  have ready := invariant.prepareFlush view
  have startup : Unsent ticket _ _ := unsent_flushOnePending true ready
    (fun impossible => by cases impossible) view.startup
  have flushed := prepared.trans startup
  unfold World.flushPendingInputs
  split
  · exact ⟨cancelled, rfl⟩
  dsimp only
  split
  · have behind := ready.flushOnePending true
      (fun impossible => by cases impossible) view.startup
    have both := flushed.trans (unsent_flushOnePending false behind
      (fun _ => startup.slot (empty cancelled)) view.prompt)
    exact ⟨both.cancelled cancelled, both.sent⟩
  · exact ⟨flushed.cancelled cancelled, flushed.sent⟩

theorem withheld_step (world : World) (input : Input) (invariant : Invariant world) :
    Withheld ticket world (machine.next world input) := by
  have holder (change : Receipt String PromptError → Receipt String PromptError) (other : Nat)
      (keeps : ∀ receipt : Receipt String PromptError, receipt.cancelled = true →
        (change receipt).cancelled = true) :
      Withheld ticket world { world with receipts := world.receipts.modify other change } :=
    fun cancelled => ⟨Receipts.cancelled_modify change keeps cancelled, rfl⟩
  cases input with
  | submitPrompt text lock => exact (silent_submitPrompt text lock).withheld ticket
  | queuePromptTracked text lease lock =>
      change Withheld ticket world (world.queuePromptTracked text lease lock).1
      rcases queuePromptTracked_cases world text lease lock with
        ⟨error, messages, refused⟩ | ⟨pending, _, queued⟩
      · rw [refused]
        exact fun cancelled => ⟨cancelled, rfl⟩
      · rw [queued]
        exact fun cancelled => ⟨Receipts.cancelled_issue _ cancelled, rfl⟩
  | flushPendingInputs view => exact withheld_flushPendingInputs invariant view
  | attachDetached view => exact (silent_attachDetached view).withheld ticket
  | setRemoteBackend inUse lock now =>
      exact (silent_setRemoteBackend inUse lock now).withheld ticket
  | close =>
      change Withheld ticket world world.close
      unfold World.close
      dsimp only
      split
      · exact fun cancelled => ⟨cancelled, rfl⟩
      · exact fun cancelled => ⟨cancelled_close _ cancelled, rfl⟩
  | poll other =>
      change Withheld ticket world { world with receipts :=
        (world.receipts.poll promptLost other).2 }
      unfold Receipts.poll
      split
      · exact fun cancelled => ⟨cancelled, rfl⟩
      · exact holder _ other fun _ _ => rfl
  | drop other =>
      refine holder _ other fun receipt set => ?_
      split
      · rfl
      · exact set
  | detach other => exact holder _ other fun _ set => set

theorem withheld_run (ticket : Nat) (invariant : Invariant world) (inputs : List Input) :
    Withheld ticket world (machine.run world inputs) := by
  refine machine.run_relation Invariant (Withheld ticket) (fun _ cancelled => ⟨cancelled, rfl⟩)
    (fun {first second third} former latter cancelled => ?_) invariant_step
    (fun world input holds => withheld_step world input holds) invariant inputs
  obtain ⟨still, same⟩ := former cancelled
  obtain ⟨later, unsent⟩ := latter still
  exact ⟨later, unsent.trans same⟩

end Sent

/-! ## Deferred prompts -/

/-- What holds of a reachable world and of every world that is reached from it. -/
structure Delivered (world later : World) : Prop where
  /-- The startup input and every prompt are accepted at most once. -/
  once : (later.written.map Written.source).Nodup
  startupFirst : ∀ entry ∈ later.written.tail, entry.source ≠ .startup
  startupSettled : ∀ entry ∈ later.written, entry.source ≠ .startup → entry.startupPending = false
  ownBytes : ∀ entry ∈ later.written, ∀ ticket, entry.source = .prompt ticket →
    ∃ text mode, later.receipts.item ticket = some text ∧ entry.bytes = agentPromptBytes text mode
  accepted : ∀ ticket, world.receipts.received ticket (.ok ()) →
    ∃ entry ∈ world.written, entry.source = .prompt ticket
  never : ∀ ticket error, world.receipts.received ticket (.error error) →
    ∀ entry ∈ later.written, entry.source ≠ .prompt ticket
  dropped : ∀ ticket, world.receipts.cancelled ticket = true → later.sent ticket = world.sent ticket
  refused : world.session.pendingPrompt.isSome → Refuses world

theorem sent_eq_nil_iff {world : World} {ticket : Nat} :
    world.sent ticket = [] ↔ ∀ entry ∈ world.written, entry.source ≠ .prompt ticket := by
  simp [World.sent, List.filter_eq_nil_iff]

/-- Deferred input is delivered at most once and in order, in every run. -/
theorem prompts_delivered (remoteAsync newBirth : Bool) (spec : SessionSpec) (now : Nat)
    (inputs continuation : List Input) :
    Delivered (machine.run (World.created remoteAsync newBirth spec now) inputs)
      (machine.run (World.created remoteAsync newBirth spec now) (inputs ++ continuation)) := by
  have reached := machine.run_invariant Invariant invariant_step
    (invariant_created remoteAsync newBirth spec now) inputs
  rw [Machine.run_append]
  generalize machine.run (World.created remoteAsync newBirth spec now) inputs = world at reached
  have final := machine.run_invariant Invariant invariant_step reached continuation
  have tracks := reached.ledger.tracks
  have absent (ticket : Nat) (unsent : ticket ∉ tickets world.written) :
      world.sent ticket = [] := by
    rw [sent_eq_nil_iff]
    intro entry member source
    exact unsent (Ledger.mem_tickets_iff.mpr (List.mem_map.mpr ⟨entry, member, source⟩))
  refine
    { once := final.ledger.once
      startupFirst := final.ledger.first
      startupSettled := final.ledger.quiet
      ownBytes := final.ledger.texts
      accepted := fun ticket received => ?_
      never := fun ticket error received => ?_
      dropped := fun ticket cancelled => (withheld_run ticket reached continuation cancelled).2
      refused := refuses_of_pending }
  · have member := Ledger.mem_tickets_iff.mp (tracks.of_received_ok received)
    exact List.mem_map.mp member
  · -- whoever received an error has given up the ticket
    have cancelled := tracks.cancelled_of_received received
    rw [← sent_eq_nil_iff, (withheld_run ticket reached continuation cancelled).2]
    exact absent ticket (tracks.of_received_error received)

end TerminalCanvas.Runtime.PromptDelivery
