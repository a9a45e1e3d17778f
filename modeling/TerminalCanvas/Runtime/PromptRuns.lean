import TerminalCanvas.Runtime.PromptInvariant

/-! # Runs of a session's prompts

A prompt is refused or takes the empty slot, and every input keeps the invariant. -/

namespace TerminalCanvas.Runtime.PromptDelivery

open Terminal Execution

/-! ## New prompts -/

/-- A call of `submit_prompt` has been counted. -/
def World.countSubmission (world : World) : World :=
  { world with submitted := world.submitted + 1 }

theorem submitPrompt_cases (world : World) (text : String) (lock : Lock) :
    (∃ error, world.submitPrompt text lock = (world.countSubmission, .error error)) ∨
      (world.session.pendingStartupInput = none ∧ world.session.handle.isSome ∧
        ∃ bytes, world.submitPrompt text lock =
          (world.countSubmission.accept (.direct world.submitted) bytes, .ok ())) := by
  unfold World.submitPrompt
  dsimp only
  split
  · exact .inl ⟨_, rfl⟩
  split
  · exact .inl ⟨_, rfl⟩
  split
  · exact .inl ⟨_, rfl⟩
  split
  · exact .inl ⟨_, rfl⟩
  split
  · exact .inl ⟨_, rfl⟩
  split
  · exact .inl ⟨_, rfl⟩
  split
  case isFalse => exact .inl ⟨_, rfl⟩
  case isTrue _ _ _ occupied detached _ _ _ =>
    split
    case h_2 => exact .inl ⟨_, rfl⟩
    case h_1 bytes _ =>
      rw [not_or] at occupied
      exact .inr ⟨by simpa using occupied.1, by simpa [Option.isSome_iff_ne_none] using detached,
        bytes, rfl⟩

theorem queuePromptTracked_cases (world : World) (text : String) (lease : RemoteLease)
    (lock : Lock) :
    (∃ error messages, world.queuePromptTracked text lease lock =
        ({ world with inputErrors := messages }, .error error)) ∨
      ∃ pending : PendingStartupInput, pending.completion = some world.receipts.length ∧
        world.queuePromptTracked text lease lock =
          ({ world with receipts := world.receipts.issue pending.input }.setPrompt (some pending),
            .ok world.receipts.length) := by
  unfold World.queuePromptTracked
  dsimp only
  split
  · exact .inl ⟨_, _, rfl⟩
  split
  · exact .inl ⟨_, _, rfl⟩
  split
  · exact .inl ⟨_, _, rfl⟩
  split
  · exact .inl ⟨_, _, rfl⟩
  split
  · split
    · exact .inl ⟨_, _, rfl⟩
    · exact .inl ⟨_, _, rfl⟩
  split
  case h_1 => exact .inl ⟨_, _, rfl⟩
  case h_2 baseline _ =>
    exact .inr ⟨⟨_, trim text, some baseline, some world.receipts.length⟩, rfl, rfl⟩

/-- While a prompt is pending, others are refused and nothing of the session changes. -/
structure Refuses (world : World) : Prop where
  queued : ∀ text lease lock, ∃ error,
    world.queuePromptTracked text lease lock = (world, .error error)
  submitted : ∀ text lock, ∃ error,
    world.submitPrompt text lock = (world.countSubmission, .error error)

theorem refuses_of_pending {world : World} (pending : world.session.pendingPrompt.isSome) :
    Refuses world where
  queued text lease lock := by
    unfold World.queuePromptTracked
    dsimp only
    split
    · exact ⟨_, rfl⟩
    split
    · exact ⟨_, rfl⟩
    split
    · exact ⟨_, rfl⟩
    · exact ⟨_, rfl⟩
  submitted text lock := by
    unfold World.submitPrompt
    dsimp only
    split
    · exact ⟨_, rfl⟩
    split
    · exact ⟨_, rfl⟩
    split
    · exact ⟨_, rfl⟩
    · exact ⟨_, if_pos (.inr pending)⟩

/-! ## Every input keeps the invariant -/

section Steps

variable {world : World}

theorem Invariant.countSubmission (invariant : Invariant world) :
    Invariant world.countSubmission :=
  ⟨invariant.ledger.moreSubmitted, invariant.prompt, invariant.startup, invariant.due,
    invariant.inProcess⟩

theorem Invariant.submitPrompt (invariant : Invariant world) (text : String) (lock : Lock) :
    Invariant (world.submitPrompt text lock).1 := by
  rcases submitPrompt_cases world text lock with ⟨error, refused⟩ | ⟨free, attached, bytes, taken⟩
  · rw [refused]
    exact invariant.countSubmission
  · rw [taken]
    refine ⟨?_, invariant.prompt, ?_, fun due => ?_, invariant.inProcess⟩
    · simpa [World.accept, World.countSubmission, free] using
        invariant.ledger.acceptDirect bytes
    · exact StartupWaits.append free _
    · rw [(invariant.due due).1] at attached
      cases attached

theorem Invariant.queuePromptTracked (invariant : Invariant world) (text : String)
    (lease : RemoteLease) (lock : Lock) :
    Invariant (world.queuePromptTracked text lease lock).1 := by
  rcases queuePromptTracked_cases world text lease lock with
    ⟨error, messages, refused⟩ | ⟨pending, completion, queued⟩
  · rw [refused]
    exact ⟨invariant.ledger, invariant.prompt, invariant.startup, invariant.due,
      invariant.inProcess⟩
  · rw [queued]
    refine ⟨invariant.ledger.issue _, fun other same => ?_, invariant.startup, invariant.due,
      invariant.inProcess⟩
    obtain rfl := Option.some.inj same
    exact ⟨_, completion, Receipts.channel_issue _ _, Receipts.item_issue _ _⟩

theorem Invariant.attachDetached (invariant : Invariant world) (view : AttachView) :
    Invariant (world.attachDetached view) := by
  have collected := invariant.collectRemoteCompletions view.collect
  unfold World.attachDetached
  dsimp only
  split
  · exact invariant
  split
  case h_1 detached =>
    split
    case isTrue => exact collected.queueRemoteRecovery view.recovery
    case isFalse mode => exact collected.attachLocal (by simpa using mode) detached view
  case h_2 handle attached =>
    split
    case isTrue => exact collected
    case isFalse disconnected =>
      split
      case isTrue remote => exact (collected.releaseHandle remote).queueRemoteRecovery view.recovery
      case isFalse mode =>
        -- only a remote terminal is disconnected
        have inProcess := (collected.inProcess (by simpa using mode)).2 handle attached
        cases locked : view.lock <;> simp [locked, inProcess] at disconnected

theorem Invariant.setRemoteBackend (invariant : Invariant world) (inUse : Bool) (lock : Lock)
    (now : Nat) : Invariant (world.setRemoteBackend inUse lock now) := by
  unfold World.setRemoteBackend
  dsimp only
  split
  · exact invariant
  · split
    · refine ⟨invariant.ledger, invariant.prompt, invariant.startup, fun due => ?_,
        fun mode => by cases mode⟩
      refine invariant.due ?_
      simp only [World.StartupDue] at due ⊢
      split at due
      case h_1 recovery present => exact due
      case h_2 => cases due.1
    · exact invariant_of_delivered invariant.ledger invariant.prompt invariant.startup rfl rfl

theorem Invariant.close (invariant : Invariant world) : Invariant world.close := by
  have empty {receipts : Receipts String PromptError}
      (ledger : Ledger receipts world.written world.submitted) :
      Invariant (({ world with closed := true, receipts := receipts }.setPrompt none).setStartup
        none) :=
    ⟨ledger, .none _, .none _, fun due => ⟨(invariant.due due).1, rfl, (invariant.due due).2.2⟩,
      invariant.inProcess⟩
  unfold World.close
  dsimp only
  split
  case h_1 => exact empty invariant.ledger
  case h_2 ticket tracked =>
    obtain ⟨pending, present, completion⟩ := Option.bind_eq_some_iff.mp tracked
    obtain ⟨other, issued, waiting, _⟩ := invariant.prompt pending present
    obtain rfl := Option.some.inj (completion.symm.trans issued)
    exact empty (invariant.ledger.close waiting)

theorem Invariant.withReceipts (invariant : Invariant world)
    {receipts : Receipts String PromptError}
    (tracks : receipts.Tracks (tickets world.written))
    (items : ∀ ticket, receipts.item ticket = world.receipts.item ticket)
    (waiting : ∀ ticket, world.receipts.channel ticket = some .waiting →
      receipts.channel ticket = some .waiting) :
    Invariant { world with receipts := receipts } where
  ledger := invariant.ledger.withReceipts tracks fun ticket _ found => (items ticket).trans found
  prompt pending present := by
    obtain ⟨ticket, completion, waits, item⟩ := invariant.prompt pending present
    exact ⟨ticket, completion, waiting ticket waits, (items ticket).trans item⟩
  startup := invariant.startup
  due := invariant.due
  inProcess := invariant.inProcess

theorem invariant_step (world : World) (input : Input) (invariant : Invariant world) :
    Invariant (machine.next world input) := by
  have tracks := invariant.ledger.tracks
  cases input with
  | submitPrompt text lock => exact invariant.submitPrompt text lock
  | queuePromptTracked text lease lock => exact invariant.queuePromptTracked text lease lock
  | flushPendingInputs view => exact invariant.flushPendingInputs view
  | attachDetached view => exact invariant.attachDetached view
  | setRemoteBackend inUse lock now => exact invariant.setRemoteBackend inUse lock now
  | close => exact invariant.close
  | poll ticket =>
      exact invariant.withReceipts (tracks.poll promptLost ticket)
        (fun _ => Receipts.item_poll promptLost ticket)
        fun _ waiting => Receipts.waiting_poll promptLost ticket waiting
  | drop ticket =>
      refine invariant.withReceipts (tracks.drop ticket)
        (fun _ => Receipts.item_modify _ fun receipt => ?_)
        fun _ waiting => Receipts.waiting_modify _ (fun receipt waits => ?_) waiting
      · split <;> rfl
      · split <;> exact waits
  | detach ticket =>
      exact invariant.withReceipts (tracks.detach ticket)
        (fun _ => Receipts.item_modify _ fun _ => rfl)
        fun _ waiting => Receipts.waiting_modify _ (fun _ waits => waits) waiting

theorem invariant_created (remoteAsync newBirth : Bool) (spec : SessionSpec) (now : Nat) :
    Invariant (World.created remoteAsync newBirth spec now) where
  ledger := .empty
  prompt := .none _
  startup := .none _
  due _ := ⟨rfl, rfl, rfl⟩
  inProcess mode := by
    obtain rfl : remoteAsync = false := mode
    exact ⟨rfl, fun handle attached => by cases attached⟩

end Steps

end TerminalCanvas.Runtime.PromptDelivery
