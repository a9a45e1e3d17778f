import TerminalCanvas.Preferences.Soundness

/-! # Accepting and retrying jobs -/

namespace TerminalCanvas.Preferences

section Submission

variable {Root Notes Config : Type}

theorem Retains.dropLoads [DecidableEq Root]
    {front before pending : List (Ticket Root Notes Config)}
    {record : Destination Root → Option (FailedSave Root Notes Config)}
    {accepted : List (Ticket Root Notes Config)}
    {writes : List (Ticket Root Notes Config × Bool)}
    (retains : Retains front (before ++ pending) record accepted writes) :
    Retains front (before ++ pending.filter (·.job.loads.isNone)) record accepted writes := by
  induction pending generalizing before with
  | nil => exact retains
  | cons ticket pending induction =>
      cases loads : ticket.job.loads with
      | none =>
          rw [List.filter_cons_of_pos (by rw [loads]; rfl), List.append_cons]
          rw [List.append_cons] at retains
          exact induction retains
      | some root =>
          rw [List.filter_cons_of_neg (by rw [loads]; exact Bool.false_ne_true)]
          apply induction
          have whole : front ++ (before ++ ticket :: pending) =
              (front ++ before) ++ ticket :: pending := (List.append_assoc ..).symm
          refine retains.drop (destination_of_loads loads) whole (List.append_assoc ..).symm
            (fun _ => id) (List.Sublist.append_left (List.sublist_cons_self ..) _) ?_
          intro other member
          simp only [List.mem_append, List.mem_cons] at member ⊢
          tauto

variable [LinearOrder Root] {display : Root → String}

namespace PreferencesWorker

variable {worker : PreferencesWorker Root Notes Config} {ticket : Ticket Root Notes Config}
  {destination : Destination Root}

theorem sameWriteDestination_iff {other : Job Root Notes Config}
    (saves : ticket.job.destination = some destination) :
    ticket.job.sameWriteDestination other = true ↔ other.destination = some destination := by
  simp only [Job.sameWriteDestination, saves, Option.isSome_some, Bool.true_and,
    decide_eq_true_eq]
  exact eq_comm

theorem coalesce_some {pending coalesced : List (Ticket Root Notes Config)}
    (saves : ticket.job.destination = some destination)
    (found : coalesce ticket pending = some coalesced) :
    ∃ before other after, pending = before ++ other :: after ∧
      coalesced = before ++ ticket :: after ∧ other.job.destination = some destination ∧
      Unwaited before destination := by
  induction pending generalizing coalesced with
  | nil => cases found
  | cons other pending induction =>
      rw [coalesce] at found
      split at found
      · next same =>
          obtain rfl := Option.some.inj found
          exact ⟨[], other, pending, rfl, rfl, (sameWriteDestination_iff saves).mp same,
            fun _ member => absurd member List.not_mem_nil⟩
      · next apart =>
          obtain ⟨rest, inner, rfl⟩ := Option.map_eq_some_iff.mp found
          obtain ⟨before, match_, after, rfl, rfl, is, clear⟩ := induction inner
          refine ⟨other :: before, match_, after, rfl, rfl, is, fun waiting member => ?_⟩
          rcases List.mem_cons.mp member with rfl | member
          · exact fun same => apart ((sameWriteDestination_iff saves).mpr same)
          · exact clear waiting member

theorem coalesce_none {pending : List (Ticket Root Notes Config)}
    (saves : ticket.job.destination = some destination) :
    coalesce ticket pending = none ↔ Unwaited pending destination := by
  induction pending with
  | nil => exact ⟨fun _ _ member => absurd member List.not_mem_nil, fun _ => rfl⟩
  | cons other pending induction =>
      rw [coalesce]
      split
      · next same =>
          refine ⟨fun none => (nomatch none), fun clear => ?_⟩
          exact absurd ((sameWriteDestination_iff saves).mp same)
            (clear other (List.mem_cons_self ..))
      · next apart =>
          rw [Option.map_eq_none_iff, induction, Unwaited, Unwaited, List.forall_mem_cons]
          exact ⟨fun clear => ⟨fun same => apart ((sameWriteDestination_iff saves).mpr same),
            clear⟩,
            And.right⟩

theorem coalesce_read {pending : List (Ticket Root Notes Config)}
    (reads : ticket.job.destination = none) : coalesce ticket pending = none := by
  induction pending with
  | nil => rfl
  | cons other pending induction =>
      have apart : ticket.job.sameWriteDestination other.job = false := by
        rw [Job.sameWriteDestination, reads]
        rfl
      rw [coalesce, if_neg (by rw [apart]; exact Bool.false_ne_true), induction]
      rfl

/-! ## Accepting -/

theorem Sound.accept (sound : Sound worker) (next : ticket.stamp = worker.accepted.length) :
    Sound (queue { worker with accepted := worker.accepted ++ [ticket] } ticket) := by
  have retains := sound.retains
  rw [queue]
  cases found : coalesce ticket worker.pending with
  | some coalesced =>
      cases saves : ticket.job.destination with
      | none => cases (coalesce_read saves).symm.trans found
      | some destination =>
          obtain ⟨before, other, after, whole, rfl, is, clear⟩ := coalesce_some saves found
          rw [whole] at retains
          have apart : Unwaited after destination := by
            intro waiting member
            have distinct := (List.pairwise_append.mp retains.distinct).2.1
            exact (List.pairwise_cons.mp distinct).1 waiting member destination is
          have placed : Retains worker.front (before ++ ((some other).toList ++ after))
              worker.record worker.accepted worker.writes := retains
          have accepted := placed.acceptSave next saves
            (fun _ same => Option.some.inj (Option.mem_def.mp same) ▸ is) clear apart
          exact ⟨⟨sound.alone, accepted, sound.reading, sound.retired⟩, sound.holds, sound.sent⟩
  | none =>
      cases saves : ticket.job.destination with
      | some destination =>
          have clear := (coalesce_none saves).mp found
          have placed : Retains worker.front
              (worker.pending ++ ((none : Option (Ticket Root Notes Config)).toList ++ []))
              worker.record worker.accepted worker.writes := by
            rw [Option.toList_none, List.append_nil, List.append_nil]
            exact retains
          have accepted := placed.acceptSave next saves (fun _ same => nomatch same) clear
            fun _ member => absurd member List.not_mem_nil
          have stays : ticket.job.loads.isSome = false := by
            cases loads : ticket.job.loads with
            | none => rfl
            | some root => cases (destination_of_loads loads).symm.trans saves
          rw [stays]
          exact ⟨⟨sound.alone, accepted, sound.reading, sound.retired⟩, sound.holds, sound.sent⟩
      | none =>
          have fewer : Retains worker.front ([] ++ worker.pending.filter (·.job.loads.isNone))
              worker.record worker.accepted worker.writes := Retains.dropLoads retains
          cases ticket.job.loads.isSome with
          | true =>
              have accepted := fewer.acceptRead next saves
              exact ⟨⟨sound.alone, accepted, sound.reading, sound.retired⟩, sound.holds, sound.sent⟩
          | false =>
              have accepted := retains.acceptRead next saves
              exact ⟨⟨sound.alone, accepted, sound.reading, sound.retired⟩, sound.holds, sound.sent⟩

theorem Sound.requeueFailure (sound : Sound worker) (root : Root) :
    Sound (worker.requeueFailure root) ∧ Keeps worker (worker.requeueFailure root) := by
  rw [PreferencesWorker.requeueFailure]
  cases failed : worker.notesWriteErrors.get? root with
  | none => exact ⟨sound, .refl worker⟩
  | some failure =>
      have recorded : worker.record (.notes root) = some failure := failed
      obtain ⟨-, saves⟩ := sound.retains.recorded _ _ recorded
      dsimp only
      cases waiting : worker.writeWaiting failure.ticket.job with
      | true => exact ⟨sound, .refl worker⟩
      | false =>
          have clear := (writeWaiting_eq_false saves).mp waiting
          have last : Retains worker.front (worker.pending ++ []) worker.record worker.accepted
              worker.writes := by
            rw [List.append_nil]
            exact sound.retains
          have requeued := last.requeue recorded (by rw [List.append_nil]; exact clear)
          have behind := (coalesce_none saves).mpr (Unwaited.append.mp clear).2
          have stays : failure.ticket.job.loads.isSome = false := by
            cases loads : failure.ticket.job.loads with
            | none => rfl
            | some root => cases (destination_of_loads loads).symm.trans saves
          rw [if_neg Bool.false_ne_true, queue, behind, stays]
          exact ⟨⟨⟨sound.alone, requeued, sound.reading, sound.retired⟩, sound.holds, sound.sent⟩,
            rfl, rfl, fun _ => id⟩

/-! ## Retrying -/

theorem retains_retries {failures : List (FailedSave Root Notes Config)}
    {front pending accepted : List (Ticket Root Notes Config)}
    {record : Destination Root → Option (FailedSave Root Notes Config)}
    {writes : List (Ticket Root Notes Config × Bool)}
    (retains : Retains front pending record accepted writes)
    (failed : ∀ failure ∈ failures, ∃ destination, record destination = some failure ∧
      Unwaited (front ++ pending) destination)
    (distinct : failures.Pairwise fun first second =>
      first.ticket.job.destination ≠ second.ticket.job.destination) :
    Retains front (failures.map (·.ticket) ++ pending) record accepted writes := by
  induction failures with
  | nil => exact retains
  | cons failure failures induction =>
      obtain ⟨apart, distinct⟩ := List.pairwise_cons.mp distinct
      have rest := induction (fun other member => failed other (List.mem_cons_of_mem _ member))
        distinct
      obtain ⟨destination, recorded, clear⟩ := failed failure (List.mem_cons_self ..)
      obtain ⟨-, saves⟩ := retains.recorded _ _ recorded
      have ahead : Retains front ([] ++ (failures.map (·.ticket) ++ pending)) record accepted
          writes := rest
      apply ahead.requeue recorded
      intro waiting member is
      simp only [List.nil_append, List.mem_append, List.mem_map] at member
      rcases member with member | ⟨other, member, rfl⟩ | member
      · exact clear waiting (List.mem_append_left _ member) is
      · exact apart other member (saves.trans is.symm)
      · exact clear waiting (List.mem_append_right _ member) is

/-- The failed saves that nothing supersedes. -/
def retries (worker : PreferencesWorker Root Notes Config) : List (FailedSave Root Notes Config) :=
  (worker.notesWriteErrors.values ++ worker.settingsWriteError.toList).filter
    fun failure => !worker.writeWaiting failure.ticket.job

variable (display) in
theorem Sound.retry (sound : Sound worker) (spawn : Option String) :
    Sound (worker.retry display spawn) ∧ Keeps worker (worker.retry display spawn) := by
  have recorded : ∀ destination failure, worker.record destination = some failure →
      failure.ticket.job.destination = some destination :=
    fun destination failure found => (sound.retains.recorded destination failure found).2
  have failed : ∀ failure ∈ worker.retries, ∃ destination,
      worker.record destination = some failure ∧
        Unwaited (worker.front ++ worker.pending) destination := by
    intro failure member
    obtain ⟨member, free⟩ := List.mem_filter.mp member
    obtain ⟨destination, found⟩ := mem_failures.mp member
    have waiting : worker.writeWaiting failure.ticket.job = false := by simpa using free
    exact ⟨destination, found, (writeWaiting_eq_false (recorded _ _ found)).mp waiting⟩
  have retried := retains_retries sound.retains failed ((failures_distinct recorded).filter _)
  have next : Sound { worker with
      unavailable := none
      pending := worker.retries.map (·.ticket) ++ worker.pending } :=
    ⟨⟨sound.alone, retried, sound.reading, sound.retired⟩, sound.holds, sound.sent⟩
  obtain ⟨scheduled, keeps⟩ := next.schedule display spawn
  exact ⟨scheduled, keeps.accepted, keeps.writes, keeps.records⟩

theorem record_queue : (worker.queue ticket).record = worker.record := by
  rw [queue]
  cases coalesce ticket worker.pending with
  | some coalesced => rfl
  | none => rfl

variable (display) in
theorem Sound.submit (sound : Sound worker) (job : Job Root Notes Config)
    (spawn : Option String) :
    Sound (worker.submit display job spawn) ∧
      ∀ destination, worker.record destination ≠ none →
        (worker.submit display job spawn).record destination ≠ none := by
  have next : (⟨worker.accepted.length, job⟩ : Ticket Root Notes Config).stamp =
      worker.accepted.length := rfl
  have accepted := sound.accept next
  rw [PreferencesWorker.submit]
  split
  · obtain ⟨retried, keeps⟩ := accepted.retry display spawn
    exact ⟨retried, fun destination failed => keeps.records destination
      (by rw [record_queue]; exact failed)⟩
  · obtain ⟨scheduled, keeps⟩ := accepted.schedule display spawn
    exact ⟨scheduled, fun destination failed => keeps.records destination
      (by rw [record_queue]; exact failed)⟩

end PreferencesWorker

end Submission

end TerminalCanvas.Preferences
