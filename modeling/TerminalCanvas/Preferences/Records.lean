import TerminalCanvas.Preferences.Retention

/-! # The records of failed saves -/

namespace TerminalCanvas.Preferences

section Records

variable {Root Notes Config : Type} [LinearOrder Root] {display : Root → String}

def Destination.saved : Destination Root → Except String Unit → Completion Root Notes
  | .notes _, result => .notesSaved result
  | .settings, result => .settingsSaved result

omit [LinearOrder Root] in
theorem runJob_of_destination {job : Job Root Notes Config} {destination : Destination Root}
    (saves : job.destination = some destination) (outcome : Outcome Notes) :
    runJob outcome job = destination.saved (outcome.result ()) := by
  cases job with
  | saveNotes root notes =>
      obtain rfl := Option.some.inj saves
      rfl
  | saveSettings config =>
      obtain rfl := Option.some.inj saves
      rfl
  | loadNotes | importNotes => cases saves

variable (display) in
omit [LinearOrder Root] in
theorem interrupted_of_destination {job : Job Root Notes Config} {destination : Destination Root}
    (saves : job.destination = some destination) (reason : String) :
    ∃ error, job.interrupted display reason = destination.saved (.error error) := by
  cases job with
  | saveNotes root notes =>
      obtain rfl := Option.some.inj saves
      exact ⟨_, rfl⟩
  | saveSettings config =>
      obtain rfl := Option.some.inj saves
      exact ⟨_, rfl⟩
  | loadNotes | importNotes => cases saves

namespace PreferencesWorker

variable (worker : PreferencesWorker Root Notes Config)

def record : Destination Root → Option (FailedSave Root Notes Config)
  | .notes root => worker.notesWriteErrors.get? root
  | .settings => worker.settingsWriteError

def setRecord (value : Option (FailedSave Root Notes Config)) :
    Destination Root → PreferencesWorker Root Notes Config
  | .notes root =>
      { worker with
        notesWriteErrors := match value with
          | some failure => worker.notesWriteErrors.insert root failure
          | none => worker.notesWriteErrors.remove root }
  | .settings => { worker with settingsWriteError := value }

variable {worker} {value : Option (FailedSave Root Notes Config)}
  {destination other : Destination Root} {ticket : Ticket Root Notes Config}

theorem record_setRecord_self :
    (worker.setRecord value destination).record destination = value := by
  cases destination with
  | notes root =>
      cases value with
      | some failure => exact SortedMap.get?_insert_self ..
      | none => exact SortedMap.get?_remove_self ..
  | settings => rfl

theorem record_setRecord_of_ne (apart : other ≠ destination) :
    (worker.setRecord value destination).record other = worker.record other := by
  cases destination with
  | notes root =>
      cases other with
      | notes otherRoot =>
          have different : otherRoot ≠ root := fun same => apart (congrArg _ same)
          cases value with
          | some failure => exact SortedMap.get?_insert_of_ne different
          | none => exact SortedMap.get?_remove_of_ne different
      | settings => rfl
  | settings =>
      cases other with
      | notes otherRoot => rfl
      | settings => exact absurd rfl apart

/-! The rest of the worker is unchanged. -/

@[simp] theorem setRecord_worker :
    (worker.setRecord value destination).worker = worker.worker := by
  cases destination <;> rfl

@[simp] theorem setRecord_retired :
    (worker.setRecord value destination).retired = worker.retired := by
  cases destination <;> rfl

@[simp] theorem setRecord_pending :
    (worker.setRecord value destination).pending = worker.pending := by
  cases destination <;> rfl

@[simp] theorem setRecord_active :
    (worker.setRecord value destination).active = worker.active := by
  cases destination <;> rfl

@[simp] theorem setRecord_failedActive :
    (worker.setRecord value destination).failedActive = worker.failedActive := by
  cases destination <;> rfl

@[simp] theorem setRecord_accepted :
    (worker.setRecord value destination).accepted = worker.accepted := by
  cases destination <;> rfl

@[simp] theorem setRecord_writes :
    (worker.setRecord value destination).writes = worker.writes := by
  cases destination <;> rfl

theorem noteWriteResult_error (saves : ticket.job.destination = some destination)
    (error : String) :
    worker.noteWriteResult ticket (destination.saved (.error error)) =
      worker.setRecord (some ⟨ticket, error⟩) destination := by
  obtain ⟨stamp, job⟩ := ticket
  cases job with
  | saveNotes root notes =>
      obtain rfl := Option.some.inj saves
      rfl
  | saveSettings config =>
      obtain rfl := Option.some.inj saves
      rfl
  | loadNotes | importNotes => cases saves

theorem noteWriteResult_ok (saves : ticket.job.destination = some destination) :
    worker.noteWriteResult ticket (destination.saved (.ok ())) =
      if worker.writeWaiting ticket.job then worker else worker.setRecord none destination := by
  obtain ⟨stamp, job⟩ := ticket
  cases job with
  | saveNotes root notes =>
      obtain rfl := Option.some.inj saves
      rfl
  | saveSettings config =>
      obtain rfl := Option.some.inj saves
      rfl
  | loadNotes | importNotes => cases saves

theorem noteWriteResult_read (reads : ticket.job.destination = none)
    (completion : Completion Root Notes) :
    worker.noteWriteResult ticket completion = worker := by
  obtain ⟨stamp, job⟩ := ticket
  cases job with
  | saveNotes | saveSettings => cases reads
  | loadNotes | importNotes => rfl

theorem writeWaiting_eq_false {job : Job Root Notes Config}
    (saves : job.destination = some destination) :
    worker.writeWaiting job = false ↔ Unwaited worker.line destination := by
  rw [writeWaiting, List.any_eq_false]
  apply forall₂_congr
  intro waiting _
  simp only [Job.sameWriteDestination, saves, Option.isSome_some, Bool.true_and,
    decide_eq_true_eq, ne_eq]
  exact not_congr eq_comm

/-- The jobs that were sent or are about to be. -/
def front (worker : PreferencesWorker Root Notes Config) : List (Ticket Root Notes Config) :=
  worker.active.toList ++ worker.failedActive.toList

@[simp] theorem setRecord_front : (worker.setRecord value destination).front = worker.front := by
  cases destination <;> rfl

theorem line_eq : worker.line = worker.front ++ worker.pending := rfl

theorem mem_failures {failure : FailedSave Root Notes Config} :
    failure ∈ worker.notesWriteErrors.values ++ worker.settingsWriteError.toList ↔
      ∃ destination, worker.record destination = some failure := by
  rw [List.mem_append, SortedMap.mem_values, Option.mem_toList]
  constructor
  · rintro (⟨root, found⟩ | found)
    · exact ⟨.notes root, found⟩
    · exact ⟨.settings, found⟩
  · rintro ⟨root | _, found⟩
    · exact .inl ⟨root, found⟩
    · exact .inr found

theorem failures_distinct
    (recorded : ∀ destination failure, worker.record destination = some failure →
      failure.ticket.job.destination = some destination) :
    (worker.notesWriteErrors.values ++ worker.settingsWriteError.toList).Pairwise
      fun first second => first.ticket.job.destination ≠ second.ticket.job.destination := by
  have notes : ∀ entry ∈ worker.notesWriteErrors.entries,
      entry.2.ticket.job.destination = some (.notes entry.1) :=
    fun entry member => recorded (.notes entry.1) entry.2 (SortedMap.get?_eq_some.mpr member)
  refine List.pairwise_append.mpr ⟨List.pairwise_map.mpr ?_, ?_, ?_⟩
  · apply worker.notesWriteErrors.sorted.imp_of_mem
    intro first second firstIn secondIn less same
    rw [notes first firstIn, notes second secondIn] at same
    have keys := Destination.notes.inj (Option.some.inj same)
    rw [keys] at less
    exact lt_irrefl _ less
  · cases worker.settingsWriteError with
    | none => exact .nil
    | some failure => exact List.pairwise_singleton _ _
  · intro first firstIn second secondIn same
    obtain ⟨entry, entryIn, rfl⟩ := List.mem_map.mp firstIn
    rw [notes entry entryIn, recorded .settings second (Option.mem_toList.mp secondIn)] at same
    cases same

end PreferencesWorker

end Records

end TerminalCanvas.Preferences
