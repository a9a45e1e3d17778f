import TerminalCanvas.Memory.StoreInvariant

/-! # What the operations of the store write

Every operation is a chain of admissible writes to the memories, between writes to the
other tables. -/

namespace TerminalCanvas.Memory.Store

open TerminalCanvas.Transaction

/-- No write has met a revision that was already logged. -/
def NoRevisionClash (error : StoreError) : Prop := error ≠ .constraint .memoryRevision

/-! ## Projects and tasks -/

def ProjectRow.IsAt (row : ProjectRow) (location : ResolvedLocation) : Prop :=
  row.identityKind = location.identityKind ∧ row.identityValue = location.identityValue

/-- The project of a location is seen again, or for the first time. -/
inductive ProjectSeen (location : ResolvedLocation) (before : Table String ProjectRow)
    (id : String) : Table String ProjectRow → Prop
  | again {row now} (found : before.find id = some row) (identity : row.IsAt location) :
      ProjectSeen location before id (before.put id (row.seenAt location now))
  | first {now} (named : id ≠ "") (absent : before.find id = none)
      (unknown : ∀ other row, before.find other = some row → ¬ row.IsAt location) :
      ProjectSeen location before id (before.put id (newProject location now))

section Projects

variable {work : Work}

theorem seeProject_ensures (location : ResolvedLocation) :
    Ensures (seeProject location) work
      (fun id next => ∃ projects, ProjectSeen location work.tables.projects id projects ∧
        Leaves work next { work.tables with projects := projects }) NoRevisionClash := by
  rw [seeProject]
  apply select_bind
  refine .seq nowSecs_ensures ?_
  intro now second ⟨same, environment⟩
  cases existing : (work.environment.rows work.tables.projects fun row =>
      row.identityKind = location.identityKind &&
        row.identityValue = location.identityValue).head? with
  | some entry =>
      obtain ⟨found, identity⟩ := head_rows_eq_some existing
      simp only [Bool.and_eq_true, decide_eq_true_eq] at identity
      refine .seq (write_ensures _) ?_
      intro _ third ⟨written, environment'⟩
      rw [same] at written
      exact .pure ⟨_, .again found identity, written, environment'.trans environment⟩
  | none =>
      refine .seq (newPrefixedId_ensures _) ?_
      intro id third ⟨drawn, same', environment'⟩
      apply read_bind
      refine .ensure_bind (fun _ => nofun) ?_
      intro unused
      refine .seq (write_ensures _) ?_
      intro _ fourth ⟨written, environment''⟩
      rw [same', same] at unused written
      refine .pure ⟨_, .first drawn.named (by simpa using unused) ?_, written,
        environment''.trans (environment'.trans environment)⟩
      intro other row found identity
      have excluded := head_rows_eq_none existing found
      simp [identity.1, identity.2] at excluded

theorem requireProject_ensures (id absence : String) :
    Ensures (requireProject id absence) work
      (fun project next => loadProject work.tables.projects id = some project ∧ next = work)
      NoRevisionClash := by
  rw [requireProject]
  apply read_bind
  cases loaded : loadProject work.tables.projects id with
  | some project => exact .pure ⟨rfl, rfl⟩
  | none => exact .throw nofun

theorem loadProject_id {projects : Table String ProjectRow} {id : String}
    {project : ResolvedProject} (loaded : loadProject projects id = some project) :
    project.id = id := by
  obtain ⟨row, _, rfl⟩ := Option.map_eq_some_iff.mp loaded
  rfl

theorem upsertProject_ensures (location : ResolvedLocation) :
    Ensures (upsertProject location) work
      (fun project next => ∃ projects,
        ProjectSeen location work.tables.projects project.id projects ∧
        loadProject projects project.id = some project ∧
        Leaves work next { work.tables with projects := projects }) NoRevisionClash := by
  rw [upsertProject]
  refine .seq (seeProject_ensures location) ?_
  intro id first ⟨projects, seen, same, environment⟩
  refine (requireProject_ensures id _).mono ?_ fun _ fails => fails
  rintro project _ ⟨loaded, rfl⟩
  rw [same] at loaded
  have own := loadProject_id loaded
  exact ⟨projects, own ▸ seen, own ▸ loaded, same, environment⟩

/-- The task of a project and an identity is found, or written for the first time. -/
inductive TaskSeen (projectId identity : String) (orchestratorTaskId : Option Uuid)
    (before : Table String TaskRow) (id : String) : Table String TaskRow → Prop
  | again {row} (found : before.find id = some row) (project : row.projectId = projectId) :
      TaskSeen projectId identity orchestratorTaskId before id before
  | first {now} (absent : before.find id = none)
      (unknown : ∀ other row, before.find other = some row → row.projectId = projectId →
        row.identityValue ≠ identity) :
      TaskSeen projectId identity orchestratorTaskId before id
        (before.put id ⟨projectId, identity, orchestratorTaskId.map Uuid.display, now⟩)

theorem taskByOrchestrator_ensures (projectId : String) (orchestratorTaskId : Option Uuid) :
    Ensures (taskByOrchestrator projectId orchestratorTaskId) work
      (fun found next => next = work ∧ ∀ id, found = some id →
        ∃ row, work.tables.tasks.find id = some row ∧ row.projectId = projectId)
      NoRevisionClash := by
  cases orchestratorTaskId with
  | none => exact .pure ⟨rfl, nofun⟩
  | some orchestrator =>
      rw [taskByOrchestrator]
      apply select_bind
      refine .pure ⟨rfl, ?_⟩
      intro id bound
      obtain ⟨entry, first, rfl⟩ := Option.map_eq_some_iff.mp bound
      obtain ⟨found, chosen⟩ := mem_rows.mp (firstBy_mem first)
      simp only [Bool.and_eq_true, decide_eq_true_eq] at chosen
      exact ⟨entry.2, found, chosen.1⟩

theorem findOrNewTask_ensures (projectId identity : String) (orchestratorTaskId : Option Uuid) :
    Ensures (findOrNewTask projectId identity orchestratorTaskId) work
      (fun id next => ∃ tasks,
        TaskSeen projectId identity orchestratorTaskId work.tables.tasks id tasks ∧
        Leaves work next { work.tables with tasks := tasks }) NoRevisionClash := by
  rw [findOrNewTask]
  apply select_bind
  cases existing : (work.environment.rows work.tables.tasks fun row =>
      row.projectId = projectId && row.identityValue = identity).head? with
  | some entry =>
      obtain ⟨found, chosen⟩ := head_rows_eq_some existing
      simp only [Bool.and_eq_true, decide_eq_true_eq] at chosen
      exact .pure ⟨_, .again found chosen.1, rfl, rfl⟩
  | none =>
      change Ensures (newTask projectId identity orchestratorTaskId) work _ _
      rw [newTask]
      refine .seq (newPrefixedId_ensures _) ?_
      intro id first ⟨_, same, environment⟩
      refine .seq nowSecs_ensures ?_
      intro now second ⟨same', environment'⟩
      have unchanged : second.tables = work.tables := same'.trans same
      apply read_bind
      refine .ensure_bind (fun _ => nofun) ?_
      intro unused
      refine .seq (write_ensures _) ?_
      intro _ third ⟨written, environment''⟩
      rw [unchanged] at unused written
      refine .pure ⟨_, .first (by simpa using unused) ?_, written,
        environment''.trans (environment'.trans environment)⟩
      intro other row found project identityIs
      have excluded := head_rows_eq_none existing found
      simp [project, identityIs] at excluded

theorem upsertTask_ensures (projectId : String) (location : ResolvedLocation)
    (orchestratorTaskId : Option Uuid) :
    Ensures (upsertTask projectId location orchestratorTaskId) work
      (fun id next => ∃ tasks,
        TaskSeen projectId (taskIdentityAt location orchestratorTaskId) orchestratorTaskId
          work.tables.tasks id tasks ∧
        Leaves work next { work.tables with tasks := tasks }) NoRevisionClash := by
  rw [upsertTask]
  refine .seq (taskByOrchestrator_ensures projectId orchestratorTaskId) ?_
  rintro bound _ ⟨rfl, chosen⟩
  cases bound with
  | some id =>
      obtain ⟨row, found, project⟩ := chosen id rfl
      exact .pure ⟨_, .again found project, rfl, rfl⟩
  | none => exact findOrNewTask_ensures _ _ _

end Projects

/-! ## A logged write -/

/-- A memory and its revision are written. -/
def Logged (before : Tables) (row : MemoryRecord) (after : Tables) : Prop :=
  ∃ id revision, before.revisions.find id = none ∧ LogsRevision row revision ∧
    after = { before with
      memories := before.memories.put row.id row
      revisions := before.revisions.put id revision }

theorem Logged.stored {before middle : Tables} {row : MemoryRecord} {fts : List FtsRow}
    (logged : Logged before row middle) (change : IndexChange before row fts) :
    Stored before { middle with fts := fts } row true := by
  obtain ⟨id, revision, unused, logs, rfl⟩ := logged
  exact ⟨rfl, change, ⟨id, revision, unused, logs, rfl⟩, ⟨rfl, rfl, rfl, rfl⟩⟩

theorem Logged.fts {before middle : Tables} {row : MemoryRecord}
    (logged : Logged before row middle) : middle.fts = before.fts := by
  obtain ⟨_, _, _, _, rfl⟩ := logged
  rfl

/-- Nothing is lost when a row is written over the one with its identifier. -/
def Overwrites (before : Tables) (row : MemoryRecord) : Prop :=
  ∀ old, before.memories.find row.id = some old → upserted row (some old) = row

theorem Overwrites.of_absent {before : Tables} {row : MemoryRecord}
    (absent : before.memories.find row.id = none) : Overwrites before row := by
  intro old found
  rw [absent] at found
  cases found

theorem Admissible.of_absent {before : Tables} {row : MemoryRecord} {logged : Bool}
    (absent : before.memories.find row.id = none)
    (free : row.status = .active → activeKeyTaken before.memories row.id row = false) :
    Admissible before row logged where
  advances := by
    intro old found
    rw [absent] at found
    cases found
  free := free

section Writes

variable {work : Work}

theorem persistMemory_whole {row : MemoryRecord} {logged : Bool}
    (admissible : Admissible work.tables row logged) (whole : Overwrites work.tables row) :
    Ensures (persistMemory row) work
      (fun _ next => Leaves work next
        { work.tables with memories := work.tables.memories.put row.id row })
      NoRevisionClash := by
  have same : upserted row (work.tables.memories.find row.id) = row := by
    cases found : work.tables.memories.find row.id with
    | none => rfl
    | some old => exact whole old found
  have ensures := @persistMemory_ensures work NoRevisionClash row
  rw [same] at ensures
  exact ensures admissible.free

theorem persist_append {Answer : Type} {row : MemoryRecord} {operation : String} {actor : Actor}
    {rest : Tx Answer} {success : Answer → Work → Prop} (consistent : Consistent work.tables)
    (admissible : Admissible work.tables row true) (whole : Overwrites work.tables row)
    (continues : ∀ next, Logged work.tables row next.tables →
      next.environment = work.environment → Ensures rest next success NoRevisionClash) :
    Ensures (do
      persistMemory row
      appendRevision row operation actor
      rest) work success NoRevisionClash := by
  refine .seq (persistMemory_whole admissible whole) ?_
  intro _ first ⟨stored, environment⟩
  have untaken : revisionTaken first.tables.revisions row.id row.currentRevision = false := by
    rw [stored]
    exact consistent.unlogged admissible
  refine .seq (appendRevision_ensures untaken nofun) ?_
  intro _ second ⟨id, revision, unused, logs, tables, environment'⟩
  rw [stored] at unused tables
  exact continues second ⟨id, revision, unused, logs, tables⟩ (environment'.trans environment)

theorem indexRetrievable_ensures (row : MemoryRecord) :
    Ensures (indexRetrievable row) work
      (fun _ next => Leaves work next { work.tables with
        fts := if row.status = .active then
            work.tables.fts.filter (·.memoryId ≠ row.id) ++ [ftsRow row]
          else work.tables.fts }) NoRevisionClash := by
  rw [indexRetrievable]
  by_cases active : row.status = .active
  · simp only [MemoryStatus.isRetrievable, active, decide_true, if_true]
    exact upsertFts_ensures row
  · simp only [MemoryStatus.isRetrievable, active, decide_false, if_false]
    exact .pure ⟨rfl, rfl⟩

theorem IndexChange.of_absent {before : Tables} {row : MemoryRecord}
    (absent : before.memories.find row.id = none) :
    IndexChange before row (if row.status = .active then
      before.fts.filter (·.memoryId ≠ row.id) ++ [ftsRow row] else before.fts) := by
  split
  · next active => exact .replaced active
  · next inactive =>
      refine .kept ?_ fun active => absurd active inactive
      intro old found
      rw [absent] at found
      cases found

end Writes

end TerminalCanvas.Memory.Store
