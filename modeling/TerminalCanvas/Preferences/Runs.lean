import TerminalCanvas.Preferences.Submission

/-! # Runs of the preferences worker -/

namespace TerminalCanvas.Preferences

section Runs

variable {Root Notes Config : Type} [LinearOrder Root] {display : Root → String}

/-! ## The thread -/

omit [LinearOrder Root] in
theorem written_read {ticket : Ticket Root Notes Config} (reads : ticket.job.destination = none)
    (work : Work Notes) : written ticket work = [] := by
  simp [written, reads]

omit [LinearOrder Root] in
theorem written_done {ticket : Ticket Root Notes Config} {destination : Destination Root}
    {outcome : Outcome Notes} (saves : ticket.job.destination = some destination)
    (done : outcome.error = none) (wrote : Bool) :
    written ticket (.returns outcome wrote) = [(ticket, true)] := by
  simp [written, saves, done]

omit [LinearOrder Root] in
theorem written_cases (ticket : Ticket Root Notes Config) (work : Work Notes) :
    written ticket work = [] ∨ ∃ destination result, ticket.job.destination = some destination ∧
      written ticket work = [(ticket, result)] := by
  cases saves : ticket.job.destination with
  | none => exact .inl (written_read saves work)
  | some destination =>
      have failed : ∀ wrote : Bool, (if wrote = true then [(ticket, false)] else []) = [] ∨
          ∃ target result, some destination = some target ∧
            (if wrote = true then [(ticket, false)] else []) = [(ticket, result)] := by
        intro wrote
        cases wrote with
        | true => exact .inr ⟨destination, false, rfl, rfl⟩
        | false => exact .inl rfl
      cases work with
      | returns outcome wrote =>
          cases done : outcome.error with
          | none => exact .inr ⟨destination, true, rfl, written_done saves done wrote⟩
          | some error => simpa [written, saves, done] using failed wrote
      | panics wrote => simpa [written, saves] using failed wrote

omit [LinearOrder Root] in
theorem step_of_dead {thread : Thread Root Notes Config} (dead : thread.alive = false)
    (step : ThreadStep Notes) : (thread.step step).1.alive = false ∧ (thread.step step).2 = [] := by
  obtain ⟨jobs, running, results, alive⟩ := thread
  obtain rfl : alive = false := dead
  cases step with
  | receive => exact ⟨rfl, rfl⟩
  | work work => exact ⟨rfl, rfl⟩
  | ends =>
      cases running with
      | none => exact ⟨rfl, rfl⟩
      | some ticket => exact ⟨rfl, rfl⟩

theorem Holds.step {writes : List (Ticket Root Notes Config × Bool)}
    {thread : Thread Root Notes Config} {active : Option (Ticket Root Notes Config)}
    (holds : Holds writes thread active) (step : ThreadStep Notes) :
    ((thread.step step).2 = [] ∨ ∃ ticket work, active = some ticket ∧
      (thread.step step).2 = written ticket work) ∧
    Holds (writes ++ (thread.step step).2) (thread.step step).1 active := by
  cases holds with
  | idle alive =>
      cases alive with
      | true =>
          cases step with
          | receive | work => exact ⟨.inl rfl, .idle true⟩
          | ends => exact ⟨.inl rfl, .idle false⟩
      | false =>
          cases step with
          | receive | work | ends => exact ⟨.inl rfl, .idle false⟩
  | queued ticket =>
      cases step with
      | receive => exact ⟨.inl rfl, .running ticket⟩
      | work => exact ⟨.inl rfl, .queued ticket⟩
      | ends => exact ⟨.inl rfl, .lost ticket⟩
  | running ticket =>
      cases step with
      | receive | ends => exact ⟨.inl rfl, .running ticket⟩
      | work work =>
          refine ⟨.inr ⟨ticket, work, rfl, rfl⟩, ?_⟩
          cases work with
          | panics wrote => exact .lost ticket
          | returns outcome wrote =>
              apply Holds.answered ticket outcome true
              intro done destination saves
              change lastWrite (writes ++ written ticket (.returns outcome wrote)) destination = _
              rw [written_done saves done]
              exact lastWrite_push_self saves
  | answered ticket outcome alive wrote =>
      have same : ∀ step : ThreadStep Notes, Thread.step
          (⟨none, none, [runJob outcome ticket.job], alive⟩ : Thread Root Notes Config) step =
            (⟨none, none, [runJob outcome ticket.job], alive⟩, []) ∨
          Thread.step
          (⟨none, none, [runJob outcome ticket.job], alive⟩ : Thread Root Notes Config) step =
            (⟨none, none, [runJob outcome ticket.job], false⟩, []) := by
        intro step
        cases alive with
        | true =>
            cases step with
            | receive | work => exact .inl rfl
            | ends => exact .inr rfl
        | false =>
            cases step with
            | receive | work | ends => exact .inl rfl
      rcases same step with same | same
      · rw [same, List.append_nil]
        exact ⟨.inl rfl, .answered ticket outcome alive wrote⟩
      · rw [same, List.append_nil]
        exact ⟨.inl rfl, .answered ticket outcome false wrote⟩
  | lost ticket =>
      cases step with
      | receive | work | ends => exact ⟨.inl rfl, .lost ticket⟩

namespace PreferencesWorker

variable {worker : PreferencesWorker Root Notes Config} {ticket : Ticket Root Notes Config}

/-- The record of a failed save goes only where the newest save of its destination is the
last write. -/
def Confirms (before after : PreferencesWorker Root Notes Config) : Prop :=
  ∀ destination, before.record destination ≠ none → after.record destination = none →
    ∃ newest, Newest after.accepted destination newest ∧
      lastWrite after.writes destination = some (newest, true)

theorem Confirms.of_records {after : PreferencesWorker Root Notes Config}
    (records : ∀ destination, worker.record destination ≠ none →
      after.record destination ≠ none) : Confirms worker after :=
  fun destination failed cleared => absurd cleared (records destination failed)

theorem Confirms.trans_keeps {middle after : PreferencesWorker Root Notes Config}
    (confirms : Confirms worker middle) (keeps : Keeps middle after) : Confirms worker after := by
  intro destination failed cleared
  have middleCleared : middle.record destination = none := by
    by_contra stays
    exact keeps.records destination stays cleared
  rw [keeps.accepted, keeps.writes]
  exact confirms destination failed middleCleared

/-! ## Answers -/

theorem Coherent.finished {destination : Destination Root}
    {value : Option (FailedSave Root Notes Config)} (coherent : Coherent worker)
    (vacant : worker.failedActive = none)
    (rest : Retains [] worker.pending (worker.setRecord value destination).record worker.accepted
      worker.writes) :
    Coherent (PreferencesWorker.setRecord { worker with active := none } value destination) := by
  have nothing : front { worker with active := none } = [] := by
    rw [front, vacant]
    rfl
  have same :
      (PreferencesWorker.setRecord { worker with active := none } value destination).record =
      (worker.setRecord value destination).record := by
    cases destination with
    | notes root => rfl
    | settings => rfl
  refine ⟨.inl (by rw [setRecord_active]), ?_, fun ticket root active => ?_,
    by simpa using coherent.retired⟩
  · rw [setRecord_front, setRecord_pending, setRecord_accepted, setRecord_writes, nothing, same]
    exact rest
  · rw [setRecord_active] at active
    cases active

variable (display) in
theorem Coherent.finish {outcome : Outcome Notes} (coherent : Coherent worker)
    (active : worker.active = some ticket)
    (wrote : outcome.error = none → ∀ destination, ticket.job.destination = some destination →
      lastWrite worker.writes destination = some (ticket, true)) :
    Coherent (worker.finish display (runJob outcome ticket.job)) ∧
      Confirms worker (worker.finish display (runJob outcome ticket.job)) ∧
      (worker.finish display (runJob outcome ticket.job)).worker = worker.worker ∧
      (worker.finish display (runJob outcome ticket.job)).active = none := by
  have vacant : worker.failedActive = none := by
    rcases coherent.alone with none | none
    · cases none.symm.trans active
    · exact none
  have retains : Retains [ticket] worker.pending worker.record worker.accepted worker.writes := by
    have same : worker.front = [ticket] := by
      rw [front, active, vacant]
      rfl
    rw [← same]
    exact coherent.retains
  have finishes : worker.finish display (runJob outcome ticket.job) =
      { noteWriteResult { worker with active := none } ticket (runJob outcome ticket.job) with
        completions :=
          (noteWriteResult { worker with active := none } ticket
            (runJob outcome ticket.job)).completions ++ [runJob outcome ticket.job] } := by
    rw [PreferencesWorker.finish, active]
  have line : line { worker with active := none } = worker.pending := by
    rw [PreferencesWorker.line, vacant]
    rfl
  rw [finishes]
  cases saves : ticket.job.destination with
  | none =>
      rw [noteWriteResult_read saves]
      have rest : Retains ([] ++ worker.failedActive.toList) worker.pending worker.record
          worker.accepted worker.writes := by
        rw [vacant]
        exact retains.dropSent saves
      exact ⟨⟨.inl rfl, rest, fun _ _ active => (by cases active), coherent.retired⟩,
        .of_records fun _ => id, rfl, rfl⟩
  | some destination =>
      rw [runJob_of_destination saves]
      cases failed : outcome.error with
      | some error =>
          have result : outcome.result () = .error error := by rw [Outcome.result, failed]
          have noted := retains.finish saves (fun other apart => record_setRecord_of_ne apart)
            (.inl ⟨error, record_setRecord_self⟩)
          have finished := coherent.finished vacant noted
          rw [result, noteWriteResult_error saves]
          refine ⟨⟨finished.alone, finished.retains, finished.reading, finished.retired⟩,
            .of_records fun other stays => ?_, setRecord_worker, setRecord_active⟩
          have keeps : Keeps { worker with active := none }
              (PreferencesWorker.setRecord { worker with active := none } (some ⟨ticket, error⟩)
                destination) := keeps_setRecord
          exact keeps.records other stays
      | none =>
          have result : outcome.result () = .ok () := by rw [Outcome.result, failed]
          have last := wrote failed destination saves
          have waits : writeWaiting { worker with active := none } ticket.job = false ↔
              Unwaited worker.pending destination := by
            rw [writeWaiting_eq_false saves, line]
          rw [result, noteWriteResult_ok saves]
          cases waiting : writeWaiting { worker with active := none } ticket.job with
          | true =>
              have waited : ¬ Unwaited worker.pending destination := by
                rw [← waits, waiting]
                exact fun same => by cases same
              have noted := retains.finish saves (fun _ _ => rfl) (.inr ⟨last, .inr ⟨waited, rfl⟩⟩)
              have rest : Retains ([] ++ worker.failedActive.toList) worker.pending worker.record
                  worker.accepted worker.writes := by
                rw [vacant]
                exact noted
              exact ⟨⟨.inl rfl, rest, fun _ _ active => (by cases active), coherent.retired⟩,
                .of_records fun _ => id, rfl, rfl⟩
          | false =>
              have clear := waits.mp waiting
              have noted := retains.finish saves (fun other apart => record_setRecord_of_ne apart)
                (.inr ⟨last, .inl ⟨clear, record_setRecord_self⟩⟩)
              have finished := coherent.finished vacant noted
              rw [if_neg Bool.false_ne_true]
              refine ⟨⟨finished.alone, finished.retains, finished.reading, finished.retired⟩,
                fun other stays cleared => ?_, setRecord_worker, setRecord_active⟩
              have same : other = destination := by
                by_contra apart
                have gone : (PreferencesWorker.setRecord { worker with active := none } none
                    destination).record other = none := cleared
                rw [record_setRecord_of_ne apart] at gone
                exact stays gone
              subst same
              obtain ⟨newest, greatest⟩ :=
                exists_newest (retains.line ticket (List.mem_cons_self ..)) saves
              have is := retains.frontNewest other newest greatest clear ticket
                (List.mem_cons_self ..) saves
              subst is
              refine ⟨ticket, ?_, ?_⟩
              · change Newest (PreferencesWorker.setRecord _ none other).accepted other ticket
                rw [setRecord_accepted]
                exact greatest
              · change lastWrite (PreferencesWorker.setRecord _ none other).writes other = _
                rw [setRecord_writes]
                exact last

variable (display) in
theorem Sound.receiveRest (sound : Sound worker) :
    Sound (receiveAll display worker []) ∧ Keeps worker (receiveAll display worker []) := by
  rw [receiveAll]
  cases found : worker.worker with
  | none => exact ⟨sound, .refl worker⟩
  | some thread =>
      dsimp only
      split
      · exact ⟨sound, .refl worker⟩
      · next dead =>
          apply sound.markUnavailable
          intro other is
          rw [← Option.some.inj (found.symm.trans is)]
          exact Bool.eq_false_iff.mpr dead

def results (worker : PreferencesWorker Root Notes Config) : List (Completion Root Notes) :=
  match worker.worker with
  | some thread => thread.results
  | none => []

variable (display) in
theorem Sound.answer {thread : Thread Root Notes Config} {completion : Completion Root Notes}
    {results : List (Completion Root Notes)} (sound : Sound worker)
    (found : worker.worker = some thread) (answers : thread.results = completion :: results) :
    results = [] ∧
      Sound (PreferencesWorker.finish display
        { worker with worker := some { thread with results := results } } completion) ∧
      Confirms worker (PreferencesWorker.finish display
        { worker with worker := some { thread with results := results } } completion) := by
  have holds := sound.holds thread found
  rcases Option.eq_none_or_eq_some worker.active with active | ⟨ticket, active⟩
  · rw [active] at holds
    cases holds
    cases answers
  · rw [active] at holds
    cases holds with
    | queued | running | lost => cases answers
    | answered _ outcome alive wrote =>
        obtain ⟨rfl, rfl⟩ := List.cons.inj answers
        have coherent : Coherent { worker with worker := some ⟨none, none, [], alive⟩ } :=
          ⟨sound.alone, sound.retains, sound.reading, sound.retired⟩
        obtain ⟨finished, confirms, same, idle⟩ := coherent.finish display active wrote
        refine ⟨rfl, ⟨finished, fun thread is => ?_, fun _ => idle⟩, confirms⟩
        rw [idle]
        obtain rfl := Option.some.inj (same.symm.trans is)
        exact .idle alive

variable (display) in
theorem Sound.receiveAll (sound : Sound worker) :
    Sound (receiveAll display worker worker.results) ∧
      Confirms worker (receiveAll display worker worker.results) := by
  cases answers : worker.results with
  | nil =>
      obtain ⟨received, keeps⟩ := sound.receiveRest display
      exact ⟨received, .of_records keeps.records⟩
  | cons completion rest =>
      cases found : worker.worker with
      | none =>
          rw [results, found] at answers
          cases answers
      | some thread =>
          rw [results, found] at answers
          obtain ⟨rfl, finished, confirms⟩ := sound.answer display found answers
          rw [PreferencesWorker.receiveAll, found]
          obtain ⟨received, keeps⟩ := finished.receiveRest display
          exact ⟨received, confirms.trans_keeps keeps⟩

theorem Sound.poll (sound : Sound worker) (spawn : Option String) :
    Sound (worker.poll display spawn).1 ∧ Confirms worker (worker.poll display spawn).1 := by
  have reaped : Sound { worker with retired := worker.retired.filter (·.alive) } :=
    ⟨⟨sound.alone, sound.retains, sound.reading,
      fun thread member => sound.retired thread (List.mem_filter.mp member).1⟩,
      sound.holds, sound.sent⟩
  obtain ⟨received, confirms⟩ := reaped.receiveAll display
  obtain ⟨scheduled, keeps⟩ := received.schedule display spawn
  have polled := confirms.trans_keeps keeps
  exact ⟨⟨⟨scheduled.alone, scheduled.retains, scheduled.reading, scheduled.retired⟩,
    scheduled.holds, scheduled.sent⟩, polled⟩

theorem Sound.drainTurn (sound : Sound worker) (spawn : Option String) :
    Sound (worker.drainTurn display spawn) ∧ Confirms worker (worker.drainTurn display spawn) := by
  obtain ⟨scheduled, keeps⟩ := sound.schedule display spawn
  rw [PreferencesWorker.drainTurn]
  split
  · next waits =>
      cases found : (worker.schedule display spawn).worker with
      | none =>
          have idle := scheduled.sent found
          rw [idle] at waits
          cases waits.2
      | some thread =>
          dsimp only
          cases answers : thread.results with
          | nil =>
              dsimp only
              split
              · exact ⟨scheduled, .of_records keeps.records⟩
              · next dead =>
                  have stopped : Stopped (worker.schedule display spawn) := by
                    intro other is
                    rw [← Option.some.inj (found.symm.trans is)]
                    exact Bool.eq_false_iff.mpr dead
                  obtain ⟨interrupted, kept⟩ := scheduled.markUnavailable stopped
                  exact ⟨interrupted, .of_records (keeps.trans kept).records⟩
          | cons completion results =>
              obtain ⟨-, finished, confirms⟩ := scheduled.answer display found answers
              refine ⟨finished, fun destination failed cleared => ?_⟩
              exact confirms destination (keeps.records destination failed) cleared
  · exact ⟨scheduled, .of_records keeps.records⟩

/-! ## Writes -/

theorem Coherent.wrote {work : Work Notes} (coherent : Coherent worker)
    (active : worker.active = some ticket) :
    Coherent { worker with writes := worker.writes ++ written ticket work } := by
  have vacant : worker.failedActive = none := by
    rcases coherent.alone with none | none
    · cases none.symm.trans active
    · exact none
  have same : worker.front = [ticket] := by
    rw [front, active, vacant]
    rfl
  have retains := coherent.retains
  have wrote : Retains worker.front worker.pending worker.record worker.accepted
      (worker.writes ++ written ticket work) := by
    rcases written_cases ticket work with none | ⟨destination, result, saves, wrote⟩
    · rw [none, List.append_nil]
      exact retains
    · rw [wrote, same]
      rw [same] at retains
      exact retains.wrote saves
  exact ⟨coherent.alone, wrote, coherent.reading, coherent.retired⟩

theorem Sound.thread {thread : Thread Root Notes Config} (sound : Sound worker)
    (found : worker.worker = some thread) (step : ThreadStep Notes) :
    Sound { worker with
      worker := some (thread.step step).1
      writes := worker.writes ++ (thread.step step).2 } := by
  obtain ⟨wrote, holds⟩ := (sound.holds thread found).step step
  have coherent : Coherent { worker with writes := worker.writes ++ (thread.step step).2 } := by
    rcases wrote with none | ⟨ticket, work, active, wrote⟩
    · rw [none, List.append_nil]
      exact sound.toCoherent
    · rw [wrote]
      exact sound.toCoherent.wrote active
  refine ⟨⟨coherent.alone, coherent.retains, coherent.reading, coherent.retired⟩,
    fun other is => ?_, fun absent => (nomatch absent)⟩
  obtain rfl := Option.some.inj is
  exact holds

theorem Sound.retiredThread {thread : Thread Root Notes Config} {index : Nat}
    (sound : Sound worker) (found : worker.retired[index]? = some thread)
    (step : ThreadStep Notes) :
    Sound { worker with
      retired := worker.retired.set index (thread.step step).1
      writes := worker.writes ++ (thread.step step).2 } := by
  obtain ⟨dead, nothing⟩ :=
    step_of_dead (sound.retired thread (List.mem_of_getElem? found)) step
  rw [nothing, List.append_nil]
  refine ⟨⟨sound.alone, sound.retains, sound.reading, fun other member => ?_⟩, sound.holds,
    sound.sent⟩
  rcases List.mem_or_eq_of_mem_set member with member | rfl
  · exact sound.retired other member
  · exact dead

/-! ## Runs -/

variable (display) in
theorem Sound.step (sound : Sound worker) (event : Event Root Notes Config) :
    Sound (step display worker event) ∧ Confirms worker (step display worker event) := by
  cases event with
  | saveNotes root notes spawn =>
      obtain ⟨next, records⟩ := sound.submit display (.saveNotes root notes) spawn
      exact ⟨next, .of_records records⟩
  | saveSettings config permitted spawn =>
      cases permitted with
      | true =>
          obtain ⟨next, records⟩ := sound.submit display (.saveSettings config) spawn
          exact ⟨next, .of_records records⟩
      | false => exact ⟨sound, .of_records fun _ => id⟩
  | loadNotes key request root spawn =>
      obtain ⟨requeued, keeps⟩ := sound.requeueFailure root
      obtain ⟨next, records⟩ := requeued.submit display (.loadNotes key request root) spawn
      exact ⟨next, .of_records fun destination failed =>
        records destination (keeps.records destination failed)⟩
  | importNotes key request root spawn =>
      obtain ⟨next, records⟩ := sound.submit display (.importNotes key request root) spawn
      exact ⟨next, .of_records records⟩
  | retry spawn =>
      obtain ⟨next, keeps⟩ := sound.retry display spawn
      exact ⟨next, .of_records keeps.records⟩
  | poll spawn => exact sound.poll spawn
  | drainTurn spawn => exact sound.drainTurn spawn
  | thread step =>
      rw [Preferences.step]
      cases found : worker.worker with
      | none => exact ⟨sound, .of_records fun _ => id⟩
      | some thread => exact ⟨sound.thread found step, .of_records fun _ => id⟩
  | retiredThread index step =>
      rw [Preferences.step]
      cases found : worker.retired[index]? with
      | none => exact ⟨sound, .of_records fun _ => id⟩
      | some thread => exact ⟨sound.retiredThread found step, .of_records fun _ => id⟩

theorem retains_nothing :
    Retains [] [] (new Root Notes Config).record ([] : List (Ticket Root Notes Config)) [] := by
  refine ⟨nofun, nofun, fun destination failure found => ?_, nofun, .nil, fun _ _ _ => nofun,
    fun _ _ _ _ => nofun, fun _ _ greatest => absurd greatest.1 List.not_mem_nil, nofun, .nil,
    ⟨?_, fun _ _ _ _ _ _ _ => nofun⟩⟩
  · cases destination with
    | notes root => cases found
    | settings => cases found
  · intro before load after root whole
    exact absurd whole (by simp)

theorem sound_new : Sound (new Root Notes Config) :=
  ⟨⟨.inl rfl, retains_nothing, fun _ _ active => (nomatch active),
    fun _ member => absurd member List.not_mem_nil⟩, fun _ found => (nomatch found), fun _ => rfl⟩

/-- What is known of the saves at any moment. -/
structure Safe (worker : PreferencesWorker Root Notes Config) : Prop where
  stamped : Stamped worker.accepted
  accepted : ∀ write ∈ worker.writes, write.1 ∈ worker.accepted
  kept : ∀ destination newest, Newest worker.accepted destination newest →
    lastWrite worker.writes destination = some (newest, true) ∨ newest ∈ worker.pending ∨
      worker.active = some newest ∨ worker.failedActive = some newest ∨
      ∃ failure, worker.record destination = some failure ∧ failure.ticket = newest
  ordered : worker.writes.Pairwise fun first second => ∀ destination,
    first.1.job.destination = some destination → second.1.job.destination = some destination →
    first.1.stamp ≤ second.1.stamp
  /-- A thread that reads the notes of a repository reads what every older save wrote. -/
  reads : ∀ thread ∈ worker.worker.toList ++ worker.retired, thread.alive = true →
    ∀ load root, thread.running = some load → load.job.loads = some root →
      worker.record (.notes root) = none ∧
      (∀ save ∈ worker.line, save.job.destination = some (.notes root) →
        load.stamp ≤ save.stamp) ∧
      ∀ save ∈ worker.accepted, save.job.destination = some (.notes root) →
        save.stamp < load.stamp → Settled worker.writes save

theorem Sound.safe (sound : Sound worker) : Safe worker := by
  refine ⟨sound.retains.stamped, sound.retains.written, fun destination newest greatest => ?_,
    sound.retains.sorted, ?_⟩
  · by_cases clear : Unwaited (worker.front ++ worker.pending) destination
    · rcases sound.retains.kept destination newest greatest clear with failed | ⟨-, last⟩
      · exact .inr (.inr (.inr (.inr failed)))
      · exact .inl last
    · have waits := sound.retains.newest_waits greatest clear
      simp only [front, List.mem_append, Option.mem_toList] at waits
      tauto
  · intro thread member alive load root running loads
    have found : worker.worker = some thread := by
      rcases List.mem_append.mp member with member | member
      · exact Option.mem_toList.mp member
      · cases alive.symm.trans (sound.retired thread member)
    have active : worker.active = some load := by
      have holds := sound.holds thread found
      rcases Option.eq_none_or_eq_some worker.active with active | ⟨ticket, active⟩
      · rw [active] at holds
        cases holds
        cases running
      · rw [active] at holds
        cases holds with
        | running ticket => rw [active, Option.some.inj running]
        | queued | answered | lost => cases running
    have vacant : worker.failedActive = none := by
      rcases sound.alone with none | none
      · cases none.symm.trans active
      · exact none
    have sent : worker.front = [load] := by
      rw [front, active, vacant]
      rfl
    have clear := sound.reading load root active loads
    have served := sound.retains.served
    rw [sent] at served
    have whole : [load] ++ worker.pending = [] ++ load :: worker.pending := rfl
    refine ⟨clear, fun save member saves => ?_, fun save member saves early => ?_⟩
    · rw [line_eq, sent] at member
      rcases List.mem_cons.mp member with rfl | member
      · exact le_rfl
      · exact served.behind [] load worker.pending root whole loads clear save member saves
    · rcases served.settled [] load worker.pending root whole loads clear save member saves early
        with settled | ⟨_, member, _⟩
      · exact settled
      · exact absurd member List.not_mem_nil

end PreferencesWorker

open PreferencesWorker

variable (display) in
theorem sound_run (events : List (Event Root Notes Config)) :
    Sound ((preferences display).run (.new Root Notes Config) events) := by
  apply (preferences display).run_invariant Sound
  · exact fun worker event sound => (sound.step display event).1
  · exact sound_new

/-- At any moment of any run the newest save of a destination is the last write, waits, or
is recorded as failed; writes happen in the order the saves were accepted; a load reads what
the saves before it wrote; and a record goes only once the newest save is written. -/
theorem newest_save_retained (display : Root → String) (events : List (Event Root Notes Config)) :
    Safe ((preferences display).run (.new Root Notes Config) events) ∧
      ∀ event, Confirms ((preferences display).run (.new Root Notes Config) events)
        ((preferences display).run (.new Root Notes Config) (events ++ [event])) := by
  have sound := sound_run display events
  refine ⟨sound.safe, fun event => ?_⟩
  rw [Execution.Machine.run_append]
  exact (sound.step display event).2

/-! A panic while a save is processed, a newer save, and both threads at work. -/

def panicThenSave : List (Event Nat Nat Nat) :=
  [.saveNotes 0 1 none, .thread .receive, .thread (.work (.panics true)), .poll none,
    .saveNotes 0 2 none, .thread .receive, .thread (.work (.returns ⟨none, 0, false⟩ true)),
    .poll none, .thread .receive, .thread (.work (.returns ⟨none, 0, false⟩ true)), .poll none]

/-- The interrupted save is written before the newer one. -/
example : ((preferences toString).run (.new Nat Nat Nat) panicThenSave).writes.map
    (fun write => (write.1.stamp, write.2)) = [(0, false), (0, true), (1, true)] := by
  decide +kernel

end Runs

end TerminalCanvas.Preferences
