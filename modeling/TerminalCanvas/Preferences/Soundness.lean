import TerminalCanvas.Preferences.Records

/-! # The worker keeps what was accepted -/

namespace TerminalCanvas.Preferences

section Soundness

variable {Root Notes Config : Type} [LinearOrder Root] {display : Root → String}

/-- What the thread holds while the job is active. An answer that a save was done is the
last write of its destination. -/
inductive Holds (writes : List (Ticket Root Notes Config × Bool)) :
    Thread Root Notes Config → Option (Ticket Root Notes Config) → Prop where
  | idle (alive : Bool) : Holds writes ⟨none, none, [], alive⟩ none
  | queued (ticket : Ticket Root Notes Config) :
      Holds writes ⟨some ticket, none, [], true⟩ (some ticket)
  | running (ticket : Ticket Root Notes Config) :
      Holds writes ⟨none, some ticket, [], true⟩ (some ticket)
  | answered (ticket : Ticket Root Notes Config) (outcome : Outcome Notes) (alive : Bool)
      (wrote : outcome.error = none → ∀ destination, ticket.job.destination = some destination →
        lastWrite writes destination = some (ticket, true)) :
      Holds writes ⟨none, none, [runJob outcome ticket.job], alive⟩ (some ticket)
  | lost (ticket : Ticket Root Notes Config) :
      Holds writes ⟨none, none, [], false⟩ (some ticket)

namespace PreferencesWorker

variable {worker : PreferencesWorker Root Notes Config} {ticket : Ticket Root Notes Config}

structure Coherent (worker : PreferencesWorker Root Notes Config) : Prop where
  alone : worker.active = none ∨ worker.failedActive = none
  retains : Retains worker.front worker.pending worker.record worker.accepted worker.writes
  reading : ∀ ticket root, worker.active = some ticket → ticket.job.loads = some root →
    worker.record (.notes root) = none
  retired : ∀ thread ∈ worker.retired, thread.alive = false

structure Sound (worker : PreferencesWorker Root Notes Config) : Prop extends
    Coherent worker where
  holds : ∀ thread, worker.worker = some thread → Holds worker.writes thread worker.active
  sent : worker.worker = none → worker.active = none

/-- Nothing is accepted or written, and no record of a failed save goes. -/
structure Keeps (before after : PreferencesWorker Root Notes Config) : Prop where
  accepted : after.accepted = before.accepted
  writes : after.writes = before.writes
  records : ∀ destination, before.record destination ≠ none → after.record destination ≠ none

theorem Keeps.refl (worker : PreferencesWorker Root Notes Config) : Keeps worker worker :=
  ⟨rfl, rfl, fun _ => id⟩

theorem Keeps.trans {first second third : PreferencesWorker Root Notes Config}
    (left : Keeps first second) (right : Keeps second third) : Keeps first third :=
  ⟨right.accepted.trans left.accepted, right.writes.trans left.writes,
    fun destination failed => right.records destination (left.records destination failed)⟩

/-! ## Failures -/

def Stopped (worker : PreferencesWorker Root Notes Config) : Prop :=
  ∀ thread, worker.worker = some thread → thread.alive = false

theorem keeps_setRecord {failure : FailedSave Root Notes Config}
    {destination : Destination Root} :
    Keeps worker (worker.setRecord (some failure) destination) := by
  refine ⟨setRecord_accepted, setRecord_writes, fun other failed => ?_⟩
  by_cases same : other = destination
  · rw [same, record_setRecord_self]
    exact Option.some_ne_none failure
  · rw [record_setRecord_of_ne same]
    exact failed

theorem keeps_interruptJob {reason : String} :
    Keeps worker (interruptJob display reason worker ticket) := by
  rw [interruptJob]
  cases saves : ticket.job.destination with
  | none =>
      rw [noteWriteResult_read saves]
      exact ⟨rfl, rfl, fun _ => id⟩
  | some destination =>
      obtain ⟨error, interrupted⟩ := interrupted_of_destination display saves reason
      rw [interrupted, noteWriteResult_error saves]
      have keeps : Keeps worker (worker.setRecord (some ⟨ticket, error⟩) destination) :=
        keeps_setRecord
      exact ⟨keeps.accepted, keeps.writes, keeps.records⟩

variable (display worker ticket) in
theorem interruptJob_frame (reason : String) :
    ∃ errors settings completions, interruptJob display reason worker ticket =
      { worker with
        notesWriteErrors := errors
        settingsWriteError := settings
        completions := completions } := by
  rw [interruptJob]
  cases saves : ticket.job.destination with
  | none =>
      rw [noteWriteResult_read saves]
      exact ⟨_, _, _, rfl⟩
  | some destination =>
      obtain ⟨error, interrupted⟩ := interrupted_of_destination display saves reason
      rw [interrupted, noteWriteResult_error saves]
      cases destination with
      | notes root => exact ⟨_, _, _, rfl⟩
      | settings => exact ⟨_, _, _, rfl⟩

theorem Coherent.setRecord {destination : Destination Root} (coherent : Coherent worker)
    (idle : worker.active = none) (member : ticket ∈ worker.line)
    (saves : ticket.job.destination = some destination) (error : String) :
    Coherent (worker.setRecord (some ⟨ticket, error⟩) destination) := by
  refine ⟨by simpa using coherent.alone, ?_, fun ticket root active => ?_,
    by simpa using coherent.retired⟩
  · simp only [setRecord_front, setRecord_pending, setRecord_accepted, setRecord_writes]
    exact coherent.retains.note member saves record_setRecord_self
      fun other apart => record_setRecord_of_ne apart
  · rw [setRecord_active, idle] at active
    cases active

theorem Coherent.interruptJob {reason : String} (coherent : Coherent worker)
    (idle : worker.active = none) (member : ticket ∈ worker.line) :
    Coherent (interruptJob display reason worker ticket) := by
  rw [PreferencesWorker.interruptJob]
  cases saves : ticket.job.destination with
  | none =>
      rw [noteWriteResult_read saves]
      exact ⟨coherent.alone, coherent.retains, coherent.reading, coherent.retired⟩
  | some destination =>
      obtain ⟨error, interrupted⟩ := interrupted_of_destination display saves reason
      rw [interrupted, noteWriteResult_error saves]
      have noted := coherent.setRecord idle member saves error
      exact ⟨noted.alone, noted.retains, noted.reading, noted.retired⟩

variable (display) in
theorem Coherent.interruptAll {jobs : List (Ticket Root Notes Config)}
    (coherent : Coherent worker) (reason : String) (idle : worker.active = none)
    (members : ∀ ticket ∈ jobs, ticket ∈ worker.line) :
    Coherent (jobs.foldl (PreferencesWorker.interruptJob display reason) worker) ∧
      Keeps worker (jobs.foldl (PreferencesWorker.interruptJob display reason) worker) ∧
      (jobs.foldl (PreferencesWorker.interruptJob display reason) worker).worker =
        worker.worker ∧
      (jobs.foldl (PreferencesWorker.interruptJob display reason) worker).active = none := by
  induction jobs generalizing worker with
  | nil => exact ⟨coherent, .refl worker, rfl, idle⟩
  | cons ticket jobs induction =>
      have next : Coherent (PreferencesWorker.interruptJob display reason worker ticket) :=
        coherent.interruptJob idle (members ticket (List.mem_cons_self ..))
      have keeps : Keeps worker (PreferencesWorker.interruptJob display reason worker ticket) :=
        keeps_interruptJob
      obtain ⟨errors, settings, completions, frame⟩ :=
        interruptJob_frame display worker ticket reason
      rw [List.foldl_cons]
      rw [frame] at next keeps ⊢
      obtain ⟨all, kept, same, none⟩ := induction next idle
        fun other member => members other (List.mem_cons_of_mem _ member)
      exact ⟨all, keeps.trans kept, same, none⟩

/-- The worker without its thread. The job without an answer precedes the queue. -/
def withoutThread (worker : PreferencesWorker Root Notes Config) (reason : String) :
    PreferencesWorker Root Notes Config :=
  { worker with
    unavailable := some reason
    worker := none
    retired := (worker.retired ++ worker.worker.toList).filter (·.alive)
    active := none
    failedActive := worker.active.or worker.failedActive }

theorem markUnavailable_eq {reason : String} (available : worker.unavailable.isSome = false) :
    worker.markUnavailable display reason =
      ((worker.active.or worker.failedActive).toList ++ worker.pending).foldl
        (interruptJob display reason) (worker.withoutThread reason) := by
  rw [markUnavailable, available]
  obtain ⟨thread, retired, pending, active, failedActive, completions, unavailable, errors,
    settings, accepted, writes⟩ := worker
  cases active with
  | none => rfl
  | some ticket => rfl

theorem Sound.withoutThread (sound : Sound worker) (stopped : Stopped worker) (reason : String) :
    Coherent (worker.withoutThread reason) := by
  have retired : ∀ thread ∈ (worker.retired ++ worker.worker.toList).filter (·.alive),
      thread.alive = false := by
    intro thread member
    rcases List.mem_append.mp (List.mem_filter.mp member).1 with member | member
    · exact sound.retired thread member
    · exact stopped thread (Option.mem_toList.mp member)
  have same : worker.front = (worker.active.or worker.failedActive).toList := by
    rw [front]
    rcases sound.alone with none | none
    · rw [none]
      rfl
    · rw [none]
      cases worker.active with
      | none => rfl
      | some ticket => rfl
  refine ⟨.inl rfl, ?_, fun _ _ active => (nomatch active), retired⟩
  have retains := sound.retains
  rw [same] at retains
  exact retains

theorem Sound.markUnavailable {reason : String} (sound : Sound worker) (stopped : Stopped worker) :
    Sound (worker.markUnavailable display reason) ∧
      Keeps worker (worker.markUnavailable display reason) := by
  cases available : worker.unavailable.isSome with
  | true =>
      rw [PreferencesWorker.markUnavailable, if_pos available]
      exact ⟨sound, .refl worker⟩
  | false =>
      rw [markUnavailable_eq available]
      obtain ⟨coherent, keeps, retired, idle⟩ :=
        (sound.withoutThread stopped reason).interruptAll display reason rfl
          fun ticket member => member
      refine ⟨⟨coherent, fun thread is => ?_, fun _ => idle⟩, keeps.accepted, keeps.writes,
        keeps.records⟩
      cases retired.symm.trans is

/-! ## Sending -/

/-- The job is where it was before it was taken to be sent. -/
def put (worker : PreferencesWorker Root Notes Config) (ticket : Ticket Root Notes Config)
    (wasActive : Bool) : PreferencesWorker Root Notes Config :=
  if wasActive then { worker with failedActive := some ticket }
  else { worker with pending := ticket :: worker.pending }

theorem Sound.activate {wasActive : Bool} (kept : Sound (worker.put ticket wasActive))
    (idle : worker.active = none) (vacant : worker.failedActive = none)
    (clear : worker.blocks ticket = none) :
    Sound { worker with
      active := some ticket
      worker := some ⟨some ticket, none, [], true⟩ } := by
  have retains : Retains [ticket] worker.pending worker.record worker.accepted worker.writes := by
    have retains := kept.retains
    cases wasActive with
    | true =>
        have same : (worker.put ticket true).front = [ticket] := by
          rw [put, if_pos rfl, front]
          dsimp only
          rw [idle]
          rfl
        rw [same] at retains
        exact retains
    | false =>
        have same : (worker.put ticket false).front = [] := by
          rw [put, if_neg Bool.false_ne_true, front]
          dsimp only
          rw [idle, vacant]
          rfl
        rw [same] at retains
        exact retains.send
  have retired : ∀ thread ∈ worker.retired, thread.alive = false := by
    cases wasActive with
    | true => exact kept.retired
    | false => exact kept.retired
  refine ⟨⟨.inr vacant, ?_, ?_, retired⟩, ?_, fun absent => (nomatch absent)⟩
  · have same : (some ticket).toList ++ worker.failedActive.toList = [ticket] := by
      rw [vacant]
      rfl
    change Retains ((some ticket).toList ++ worker.failedActive.toList) _ _ _ _
    rw [same]
    exact retains
  · intro other root active loads
    obtain rfl := Option.some.inj active
    have found : ticket.job.loads.bind worker.notesWriteErrors.get? = none := clear
    rw [loads] at found
    exact found
  · intro thread is
    obtain rfl := Option.some.inj is
    exact .queued ticket

variable (display) in
theorem Sound.send {wasActive : Bool} (kept : Sound (worker.put ticket wasActive))
    (idle : worker.active = none) (vacant : worker.failedActive = none)
    (clear : worker.blocks ticket = none) :
    Sound (worker.send display ticket wasActive) ∧
      Keeps worker (worker.send display ticket wasActive) := by
  have keeps : Keeps worker (worker.put ticket wasActive) := by
    cases wasActive with
    | true => exact ⟨rfl, rfl, fun _ => id⟩
    | false => exact ⟨rfl, rfl, fun _ => id⟩
  have same : (worker.put ticket wasActive).worker = worker.worker := by
    cases wasActive with
    | true => rfl
    | false => rfl
  have still : (worker.put ticket wasActive).active = none := by
    cases wasActive with
    | true => exact idle
    | false => exact idle
  rw [PreferencesWorker.send]
  split
  · next thread found =>
      have holds := kept.holds thread (same.trans found)
      rw [still] at holds
      cases holds with
      | idle alive =>
          cases alive with
          | true => exact ⟨kept.activate idle vacant clear, rfl, rfl, fun _ => id⟩
          | false =>
              have stopped : Stopped (worker.put ticket wasActive) := by
                intro thread is
                rw [same, found] at is
                rw [← Option.some.inj is]
              obtain ⟨sound, kept⟩ := kept.markUnavailable stopped
              exact ⟨sound, keeps.trans kept⟩
  · next found =>
      have stopped : Stopped (worker.put ticket wasActive) := by
        intro thread is
        rw [same, found] at is
        cases is
      obtain ⟨sound, kept⟩ := kept.markUnavailable stopped
      exact ⟨sound, keeps.trans kept⟩

theorem reads_of_blocks {failure : FailedSave Root Notes Config}
    (blocked : worker.blocks ticket = some failure) : ticket.job.destination = none := by
  rw [blocks, Option.bind_eq_some_iff] at blocked
  obtain ⟨root, loads, -⟩ := blocked
  exact destination_of_loads loads

variable (display) in
theorem Sound.sendNext {pending : List (Ticket Root Notes Config)}
    (sound : Sound { worker with pending := pending }) (idle : worker.active = none)
    (vacant : worker.failedActive = none) :
    Sound (sendNext display worker pending) ∧ Keeps worker (sendNext display worker pending) := by
  induction pending generalizing worker with
  | nil => exact ⟨sound, rfl, rfl, fun _ => id⟩
  | cons ticket pending induction =>
      rw [PreferencesWorker.sendNext]
      cases blocked : worker.blocks ticket with
      | some failure =>
          have nothing : worker.front = [] := by
            rw [front, idle, vacant]
            rfl
          have retains : Retains worker.front pending worker.record worker.accepted
              worker.writes := by
            have retains : Retains worker.front (ticket :: pending) worker.record worker.accepted
              worker.writes := sound.retains
            rw [nothing] at retains ⊢
            exact retains.dropHead (reads_of_blocks blocked)
          have next : Sound { worker.interruptLoad display ticket failure with
              pending := pending } :=
            ⟨⟨sound.alone, retains, sound.reading, sound.retired⟩, sound.holds, sound.sent⟩
          obtain ⟨sent, keeps⟩ := induction next idle vacant
          exact ⟨sent, keeps.accepted, keeps.writes, keeps.records⟩
      | none =>
          have taken : Sound (put { worker with pending := pending } ticket false) := sound
          obtain ⟨sent, keeps⟩ := taken.send display idle vacant blocked
          exact ⟨sent, keeps.accepted, keeps.writes, keeps.records⟩

theorem start_ok {spawn : Option String} {started : PreferencesWorker Root Notes Config}
    (ok : worker.start spawn = .ok started) :
    started = { worker with worker := worker.worker.or (some ⟨none, none, [], true⟩) } := by
  obtain ⟨thread, retired, pending, active, failedActive, completions, unavailable, errors,
    settings, accepted, writes⟩ := worker
  cases thread with
  | some thread =>
      cases ok
      rfl
  | none =>
      cases spawn with
      | some error => cases ok
      | none =>
          cases ok
          rfl

theorem start_error {spawn : Option String} {error : String}
    (failed : worker.start spawn = .error error) : worker.worker = none := by
  unfold start at failed
  split at failed
  · cases failed
  · next absent => exact absent
  · cases failed

theorem Sound.start (sound : Sound worker) (idle : worker.active = none) :
    Sound { worker with worker := worker.worker.or (some ⟨none, none, [], true⟩) } := by
  refine ⟨⟨sound.alone, sound.retains, sound.reading, sound.retired⟩, fun thread is => ?_,
    fun _ => idle⟩
  cases found : worker.worker with
  | some other =>
      apply sound.holds
      dsimp only at is
      rw [found] at is ⊢
      exact is
  | none =>
      dsimp only at is ⊢
      rw [found] at is
      obtain rfl := Option.some.inj is
      rw [idle]
      exact .idle true

variable (display) in
theorem Sound.sendFirst (sound : Sound worker) (idle : worker.active = none) :
    let sent := match worker.failedActive with
      | none => PreferencesWorker.sendNext display worker worker.pending
      | some ticket =>
          let worker := { worker with failedActive := none }
          match worker.blocks ticket with
          | some failure =>
              PreferencesWorker.sendNext display (worker.interruptLoad display ticket failure)
                worker.pending
          | none => worker.send display ticket true
    Sound sent ∧ Keeps worker sent := by
  cases failed : worker.failedActive with
  | none =>
      have whole : Sound { worker with pending := worker.pending } := sound
      exact whole.sendNext display idle failed
  | some ticket =>
      dsimp only
      have retains : Retains [ticket] worker.pending worker.record worker.accepted
          worker.writes := by
        have same : worker.front = [ticket] := by
          rw [front, idle, failed]
          rfl
        rw [← same]
        exact sound.retains
      cases blocked : blocks { worker with failedActive := none } ticket with
      | some failure =>
          have next : Sound { (interruptLoad display { worker with failedActive := none } ticket
              failure) with pending := worker.pending } := by
            have rest : Retains (worker.active.toList ++ []) worker.pending worker.record
                worker.accepted worker.writes := by
              rw [idle]
              exact retains.dropSent (reads_of_blocks blocked)
            exact ⟨⟨.inr rfl, rest, sound.reading, sound.retired⟩, sound.holds, sound.sent⟩
          obtain ⟨sent, keeps⟩ := next.sendNext display idle rfl
          exact ⟨sent, keeps.accepted, keeps.writes, keeps.records⟩
      | none =>
          have taken : Sound (put { worker with failedActive := none } ticket true) := by
            have same : put { worker with failedActive := none } ticket true = worker := by
              rw [put, if_pos rfl, ← failed]
            rw [same]
            exact sound
          obtain ⟨sent, keeps⟩ := taken.send display idle rfl blocked
          exact ⟨sent, keeps.accepted, keeps.writes, keeps.records⟩

variable (display) in
theorem Sound.schedule (sound : Sound worker) (spawn : Option String) :
    Sound (worker.schedule display spawn) ∧ Keeps worker (worker.schedule display spawn) := by
  rw [PreferencesWorker.schedule]
  split
  · exact ⟨sound, .refl worker⟩
  · next free =>
      have idle : worker.active = none := by
        cases active : worker.active with
        | none => rfl
        | some ticket => exact absurd (.inl (by rw [active]; rfl)) free
      cases started : worker.start spawn with
      | error error =>
          have stopped : Stopped worker := by
            intro thread is
            cases (start_error started).symm.trans is
          exact sound.markUnavailable stopped
      | ok next =>
          obtain rfl := start_ok started
          obtain ⟨sent, keeps⟩ := (sound.start idle).sendFirst display idle
          exact ⟨sent, keeps.accepted, keeps.writes, keeps.records⟩

end PreferencesWorker

end Soundness

end TerminalCanvas.Preferences
