import TerminalCanvas.Memory.StoreMoves

/-! # Linking two projects

One project is absorbed by another: its memories, tasks and handoffs move, and a task
that the other project already knows is merged into the one there. -/

namespace TerminalCanvas.Memory.Store

open TerminalCanvas.Transaction

variable {work : Work} {source target : String}

/-! ## Where memories go -/

/-- Every memory stands where its scope has moved to. One that has lost its activity
lost it to an active memory of its key. -/
structure Relocates (place : ScopeKind → String → String)
    (before after : Table String MemoryRecord) : Prop where
  kept : ∀ id old, before.find id = some old → ∃ row, after.find id = some row ∧
    SameText old row ∧ row.scopeId = place old.scopeKind old.scopeId ∧
    (row.status = old.status ∨ old.status = .active ∧ row.status = .candidate ∧
      KeyActive after row.scopeKind row.scopeId row.stableKey)
  nothingNew : ∀ id, before.find id = none → after.find id = none

theorem SameText.refl (row : MemoryRecord) : SameText row row :=
  ⟨rfl, rfl, rfl, rfl, rfl, rfl, rfl, rfl⟩

theorem SameText.trans {first second third : MemoryRecord} (left : SameText first second)
    (right : SameText second third) : SameText first third where
  id := right.id.trans left.id
  scopeKind := right.scopeKind.trans left.scopeKind
  kind := right.kind.trans left.kind
  stableKey := right.stableKey.trans left.stableKey
  trustClass := right.trustClass.trans left.trustClass
  content := right.content.trans left.content
  validUntil := right.validUntil.trans left.validUntil
  createdAt := right.createdAt.trans left.createdAt

namespace Relocates

variable {before middle after : Table String MemoryRecord}
variable {place further : ScopeKind → String → String}

theorem refl (memories : Table String MemoryRecord) :
    Relocates (fun _ scopeId => scopeId) memories memories where
  kept := by
    intro id old found
    exact ⟨old, found, .refl old, rfl, .inl rfl⟩
  nothingNew := fun _ absent => absent

theorem congr (relocates : Relocates place before after)
    (same : ∀ kind scopeId, further kind scopeId = place kind scopeId) :
    Relocates further before after := by
  have equal : further = place := by
    funext kind scopeId
    exact same kind scopeId
  exact equal ▸ relocates

theorem keyActive (relocates : Relocates place before after) {kind : ScopeKind}
    {scopeId key : String} (active : KeyActive before kind scopeId key) :
    KeyActive after kind (place kind scopeId) key := by
  obtain ⟨id, old, found, ⟨kindIs, scopeIs, keyIs⟩, was⟩ := active
  obtain ⟨row, present, text, scope, status⟩ := relocates.kept id old found
  have has : HasKey kind (place kind scopeId) key row := by
    rw [kindIs, scopeIs] at scope
    exact ⟨text.scopeKind.trans kindIs, scope, text.stableKey.trans keyIs⟩
  rcases status with same | ⟨_, _, rival⟩
  · exact ⟨id, row, present, has, same.trans was⟩
  · rw [has.1, has.2.1, has.2.2] at rival
    exact rival

theorem trans (first : Relocates place before middle) (second : Relocates further middle after) :
    Relocates (fun kind scopeId => further kind (place kind scopeId)) before after where
  kept := by
    intro id old found
    obtain ⟨row, present, text, scope, status⟩ := first.kept id old found
    obtain ⟨last, stands, text', scope', status'⟩ := second.kept id row present
    rw [text.scopeKind, scope] at scope'
    refine ⟨last, stands, text.trans text', scope', ?_⟩
    rcases status with same | ⟨was, candidate, rival⟩
    · rcases status' with same' | ⟨was, candidate, rival⟩
      · exact .inl (same'.trans same)
      · exact .inr ⟨same.symm.trans was, candidate, rival⟩
    · rcases status' with same' | ⟨was', _, _⟩
      · refine .inr ⟨was, same'.trans candidate, ?_⟩
        have still := second.keyActive rival
        rw [text'.scopeKind, scope', text'.stableKey]
        rw [text.scopeKind, scope] at still
        rw [text.scopeKind]
        exact still
      · rw [candidate] at was'
        cases was'
  nothingNew := fun id absent => second.nothingNew id (first.nothingNew id absent)

end Relocates

def movedScope (kind : ScopeKind) (source target : String) (other : ScopeKind)
    (scopeId : String) : String :=
  if other = kind ∧ scopeId = source then target else scopeId

theorem MergedScope.relocates {kind : ScopeKind} {before after : Table String MemoryRecord}
    (distinct : source ≠ target) (merged : MergedScope kind source target before after) :
    Relocates (movedScope kind source target) before after where
  kept := by
    intro id old found
    by_cases inside : InScope kind source old
    · obtain ⟨row, present, moved⟩ := merged.moved id old found inside
      refine ⟨row, present, moved.text, ?_, ?_⟩
      · rw [moved.scopeId]
        exact (if_pos inside).symm
      · rcases moved.status with same | ⟨was, candidate, other, rival, at_, has, active⟩
        · exact .inl same
        · refine .inr ⟨was, candidate, other, rival, ?_, ?_, active⟩
          · rw [merged.others other]
            · exact at_
            · intro stored present inside
              rw [at_] at present
              cases present
              exact distinct (inside.2.symm.trans has.2.1)
          · rw [moved.text.scopeKind, moved.scopeId, moved.text.stableKey]
            exact has
    · refine ⟨old, ?_, .refl old, ?_, .inl rfl⟩
      · rw [merged.others id]
        · exact found
        · intro stored present inside'
          rw [found] at present
          cases present
          exact inside inside'
      · exact (if_neg inside).symm
  nothingNew := by
    intro id absent
    rw [merged.others id]
    · exact absent
    · intro old found
      rw [absent] at found
      cases found

/-! ## One task -/

def TasksBound (tasks : Table String TaskRow) : Prop :=
  ∀ id row orchestrator, tasks.find id = some row → row.orchestratorTaskId = some orchestrator →
    row.identityValue = "orchestrator:" ++ orchestrator

def readdressTask (id survivor : String) (handoff : HandoffRecord) : HandoffRecord :=
  if handoff.taskId = id then { handoff with taskId := survivor } else handoff

/-- A task is merged into the one the other project knows it by, or moves there itself. -/
inductive TaskMoved (target id : String) (task : TaskRow) (before after : Tables)
    (survivor : String) : Prop
  | merged {other : TaskRow} (found : before.tasks.find survivor = some other)
      (project : other.projectId = target) (identity : other.identityValue = task.identityValue)
      (memories : MergedScope .task id survivor before.memories after.memories)
      (handoffs : after.handoffs =
        before.handoffs.mapRows fun _ handoff => readdressTask id survivor handoff)
      (tasks : after.tasks = before.tasks.remove id)
  | moved (own : survivor = id) (memories : after.memories = before.memories)
      (handoffs : after.handoffs = before.handoffs)
      (tasks : after.tasks = before.tasks.put id { task with projectId := target })

theorem moveTask_ensures {entry : String × TaskRow} (consistent : Consistent work.tables)
    (bound : TasksBound work.tables.tasks) (distinct : source ≠ target)
    (found : work.tables.tasks.find entry.1 = some entry.2)
    (project : entry.2.projectId = source) :
    Ensures (moveTask target entry) work
      (fun _ next => Makes MayMove work next ∧ next.tables.projects = work.tables.projects ∧
        ∃ survivor, TaskMoved target entry.1 entry.2 work.tables next.tables survivor)
      NoRevisionClash := by
  rw [moveTask]
  apply select_bind
  split
  · next existing first =>
      obtain ⟨stored, chosen⟩ := mem_rows.mp (firstBy_mem first)
      simp only [Bool.and_eq_true, Bool.or_eq_true, decide_eq_true_eq] at chosen
      have identity : existing.2.identityValue = entry.2.identityValue := by
        rcases chosen.2 with same | ⟨some_, same⟩
        · exact same
        · obtain ⟨orchestrator, bindsTo⟩ := Option.isSome_iff_exists.mp some_
          rw [bound existing.1 existing.2 orchestrator stored bindsTo,
            bound entry.1 entry.2 orchestrator found (same ▸ bindsTo)]
      have different : entry.1 ≠ existing.1 := by
        intro same
        rw [← same, found] at stored
        rw [← Option.some.inj stored] at chosen
        exact distinct (project.symm.trans chosen.1)
      refine .seq (mergeMemoryScope_ensures different consistent) ?_
      intro _ first ⟨makes, elsewhere, merged⟩
      refine (write_ensures _).mono ?_ fun _ fails => fails
      intro _ last ⟨written, environment⟩
      refine ⟨⟨makes.stores.elsewhere ?_, environment.trans makes.environment⟩, ?_,
        existing.1, .merged stored chosen.1 identity ?_ ?_ ?_⟩
      · rw [written]
        exact ⟨rfl, rfl, rfl⟩
      · rw [written]
        exact elsewhere.projects
      · rw [written]
        exact merged
      · rw [written, ← elsewhere.handoffs]
        rfl
      · rw [written, ← elsewhere.tasks]
  · next first =>
      apply read_bind
      refine .ensure_bind (fun _ => nofun) fun _ => ?_
      refine (write_ensures _).mono ?_ fun _ fails => fails
      intro _ last ⟨written, environment⟩
      refine ⟨⟨Stores.start.elsewhere ?_, environment⟩, ?_, entry.1, .moved rfl ?_ ?_ ?_⟩ <;>
        rw [written]
      exact ⟨rfl, rfl, rfl⟩

/-! ## All tasks -/

/-- Where the memories of tasks are once their tasks have moved. -/
def atTask (home : String → String) (kind : ScopeKind) (scopeId : String) : String :=
  if kind = .task then home scopeId else scopeId

/-- Some tasks of a project have moved, and the others are where they were. -/
structure TasksMoving (source target : String) (behind : List (String × TaskRow))
    (home : String → String) (start now : Work) : Prop where
  makes : Makes MayMove start now
  projects : now.tables.projects = start.tables.projects
  bound : TasksBound now.tables.tasks
  elsewhere : ∀ id, id ∉ behind.map (·.1) → home id = id ∧
    now.tables.tasks.find id = start.tables.tasks.find id
  survivors : ∀ entry ∈ behind, ∃ survivor, now.tables.tasks.find (home entry.1) = some survivor ∧
    survivor.projectId = target ∧ survivor.identityValue = entry.2.identityValue
  left : ∀ id row, now.tables.tasks.find id = some row → row.projectId = source →
    id ∉ behind.map (·.1)
  relocates : Relocates (atTask home) start.tables.memories now.tables.memories
  untouched : ∀ id row, start.tables.memories.find id = some row →
    (row.scopeKind = .task → row.scopeId ∉ behind.map (·.1)) →
    now.tables.memories.find id = some row
  handoffs : ∀ id, now.tables.handoffs.find id = (start.tables.handoffs.find id).map
    fun handoff => { handoff with taskId := home handoff.taskId }

variable {behind : List (String × TaskRow)} {home : String → String} {start now next : Work}

theorem TasksMoving.iterate {entry : String × TaskRow} {survivor : String}
    (moving : TasksMoving source target behind home start now) (distinct : source ≠ target)
    (pending : entry.1 ∉ behind.map (·.1))
    (found : now.tables.tasks.find entry.1 = some entry.2)
    (project : entry.2.projectId = source) (makes : Makes MayMove now next)
    (projects : next.tables.projects = now.tables.projects)
    (moved : TaskMoved target entry.1 entry.2 now.tables next.tables survivor) :
    TasksMoving source target (behind ++ [entry])
      (fun id => if home id = entry.1 then survivor else home id) start next := by
  have own : home entry.1 = entry.1 := (moving.elsewhere entry.1 pending).1
  have apart : ∀ other ∈ behind, home other.1 ≠ entry.1 := by
    intro other place same
    obtain ⟨row, present, at_, _⟩ := moving.survivors other place
    rw [same, found] at present
    cases present
    exact distinct (project.symm.trans at_)
  have stays : ∀ id, id ≠ entry.1 →
      next.tables.tasks.find id = now.tables.tasks.find id := by
    intro id different
    cases moved with
    | merged _ _ _ _ _ tasks => rw [tasks, Table.find_remove_of_ne _ different]
    | moved _ _ _ tasks => rw [tasks, Table.find_put_of_ne _ _ different]
  have outside : ∀ id, id ∉ (behind ++ [entry]).map (·.1) ↔
      id ∉ behind.map (·.1) ∧ id ≠ entry.1 := by
    intro id
    simp
  refine ⟨moving.makes.trans makes, projects.trans moving.projects, ?_, ?_, ?_, ?_, ?_, ?_, ?_⟩
  · intro id row orchestrator present bindsTo
    by_cases same : id = entry.1
    · subst same
      cases moved with
      | merged _ _ _ _ _ tasks =>
          rw [tasks, Table.find_remove_self] at present
          cases present
      | moved _ _ _ tasks =>
          rw [tasks, Table.find_put_self] at present
          cases present
          exact moving.bound entry.1 entry.2 orchestrator found bindsTo
    · rw [stays id same] at present
      exact moving.bound id row orchestrator present bindsTo
  · intro id away
    obtain ⟨before, different⟩ := (outside id).mp away
    obtain ⟨still, same⟩ := moving.elsewhere id before
    refine ⟨?_, (stays id different).trans same⟩
    rw [if_neg (by rw [still]; exact different)]
    exact still
  · intro other place
    rcases List.mem_append.mp place with earlier | last
    · obtain ⟨row, present, at_, identity⟩ := moving.survivors other earlier
      refine ⟨row, ?_, at_, identity⟩
      simp only [if_neg (apart other earlier)]
      rw [stays _ (apart other earlier)]
      exact present
    · rw [List.mem_singleton] at last
      subst last
      simp only [own, if_true]
      cases moved with
      | @merged row stored at_ identity _ _ tasks =>
          refine ⟨row, ?_, at_, identity⟩
          rw [stays]
          · exact stored
          · rintro rfl
            rw [found] at stored
            cases stored
            exact distinct (project.symm.trans at_)
      | moved same _ _ tasks =>
          exact ⟨{ other.2 with projectId := target }, by rw [same, tasks, Table.find_put_self],
            rfl, rfl⟩
  · intro id row present at_
    rw [outside]
    by_cases same : id = entry.1
    · subst same
      cases moved with
      | merged _ _ _ _ _ tasks =>
          rw [tasks, Table.find_remove_self] at present
          cases present
      | moved _ _ _ tasks =>
          rw [tasks, Table.find_put_self] at present
          cases present
          exact absurd at_.symm distinct
    · rw [stays id same] at present
      exact ⟨moving.left id row present at_, same⟩
  · cases moved with
    | merged stored at_ _ memories _ _ =>
        have different : entry.1 ≠ survivor := by
          rintro same
          rw [← same, found] at stored
          rw [← Option.some.inj stored] at at_
          exact distinct (project.symm.trans at_)
        refine (moving.relocates.trans (memories.relocates different)).congr ?_
        intro kind scopeId
        by_cases task : kind = .task
        · simp [atTask, movedScope, task]
        · simp [atTask, movedScope, task]
    | moved same memories _ _ =>
        rw [memories]
        refine moving.relocates.congr ?_
        intro kind scopeId
        rw [atTask, atTask]
        split
        · split
          · next at_ => rw [same, at_]
          · rfl
        · rfl
  · intro id row present away
    have still := moving.untouched id row present fun task =>
      ((outside row.scopeId).mp (away task)).1
    cases moved with
    | merged _ _ _ memories _ _ =>
        rw [memories.others id]
        · exact still
        · intro old present' inside
          rw [still] at present'
          cases present'
          exact ((outside row.scopeId).mp (away inside.1)).2 inside.2
    | moved _ memories _ _ =>
        rw [memories]
        exact still
  · intro id
    cases moved with
    | merged _ _ _ _ handoffs _ =>
        rw [handoffs, Table.find_mapRows, moving.handoffs id, Option.map_map]
        congr 1
        funext handoff
        simp only [Function.comp_apply, readdressTask]
        split <;> rfl
    | moved same _ handoffs _ =>
        rw [handoffs, moving.handoffs id]
        congr 1
        funext handoff
        split
        · next at_ => rw [same, at_]
        · rfl

theorem moveTasks_ensures {entries : List (String × TaskRow)} (consistent : Consistent work.tables)
    (bound : TasksBound work.tables.tasks) (distinct : source ≠ target)
    (member : ∀ entry, entry ∈ entries ↔
      work.tables.tasks.find entry.1 = some entry.2 ∧ entry.2.projectId = source)
    (once : (entries.map (·.1)).Nodup) :
    Ensures (entries.forM (moveTask target)) work
      (fun _ next => ∃ home, TasksMoving source target entries home work next)
      NoRevisionClash := by
  refine .forM (fun behind _ next => ∃ home, TasksMoving source target behind home work next)
    entries ?_ ?_ ?_
  · refine ⟨id, ⟨.start, rfl⟩, rfl, bound, fun _ _ => ⟨rfl, rfl⟩, ?_, ?_, ?_, ?_, ?_⟩
    · exact fun entry never => absurd never List.not_mem_nil
    · exact fun id row found project => List.not_mem_nil
    · refine (Relocates.refl _).congr fun kind scopeId => ?_
      rw [atTask]
      split <;> rfl
    · exact fun id row found away => found
    · intro id
      exact (Option.map_id_fun' ▸ rfl)
  · rintro behind entry ahead next whole ⟨home, moving⟩
    have ownIn : entry ∈ entries := by
      rw [← whole]
      exact List.mem_append_right _ List.mem_cons_self
    obtain ⟨found, project⟩ := (member entry).mp ownIn
    rw [← whole, List.map_append, List.map_cons] at once
    have pending : entry.1 ∉ behind.map (·.1) := by
      intro earlier
      exact (List.nodup_append.mp once).2.2 entry.1 earlier entry.1 (by simp) rfl
    have still : next.tables.tasks.find entry.1 = some entry.2 :=
      (moving.elsewhere entry.1 pending).2.trans found
    refine (moveTask_ensures (moving.makes.stores.consistent consistent) moving.bound distinct
      still project).mono ?_ fun _ fails => fails
    rintro _ last ⟨makes, projects, survivor, moved⟩
    exact ⟨_, moving.iterate distinct pending still project makes projects moved⟩
  · exact fun next moving => moving

/-! ## One project -/

/-- Where the memories of a project and of its tasks are once it is absorbed. -/
def absorbedScope (source target : String) (home : String → String) : ScopeKind → String → String
  | .project, scopeId => if scopeId = source then target else scopeId
  | .task, scopeId => home scopeId
  | _, scopeId => scopeId

/-- A handoff of the absorbed project or of one of its tasks. -/
def readdress (source target : String) (home : String → String) (handoff : HandoffRecord) :
    HandoffRecord :=
  { handoff with
    projectId := if handoff.projectId = source then target else handoff.projectId
    taskId := home handoff.taskId }

/-- A memory of a project, or of one of its tasks. -/
def BelongsTo (tasks : Table String TaskRow) (project : String) (row : MemoryRecord) : Prop :=
  InScope .project project row ∨
    row.scopeKind = .task ∧ ∃ task, tasks.find row.scopeId = some task ∧ task.projectId = project

/-- One project is absorbed by another, with all that belongs to it. -/
structure Absorbed (source target : String) (home : String → String) (before after : Tables) :
    Prop where
  memories : Relocates (absorbedScope source target home) before.memories after.memories
  untouched : ∀ id row, before.memories.find id = some row →
    ¬ BelongsTo before.tasks source row → after.memories.find id = some row
  tasks : ∀ id task, before.tasks.find id = some task → ∃ survivor,
    after.tasks.find (home id) = some survivor ∧ survivor.identityValue = task.identityValue ∧
    survivor.projectId = (if task.projectId = source then target else task.projectId)
  otherTasks : ∀ id, (∀ task, before.tasks.find id = some task → task.projectId ≠ source) →
    home id = id ∧ after.tasks.find id = before.tasks.find id
  handoffs : ∀ id, after.handoffs.find id =
    (before.handoffs.find id).map (readdress source target home)
  tasksLeft : ∀ id task, after.tasks.find id = some task → task.projectId ≠ source

theorem mergeProjectState_ensures (consistent : Consistent work.tables)
    (bound : TasksBound work.tables.tasks) (distinct : source ≠ target) :
    Ensures (mergeProjectState source target) work
      (fun _ next => Makes MayMove work next ∧ next.tables.projects = work.tables.projects ∧
        TasksBound next.tables.tasks ∧ ∃ home, Absorbed source target home work.tables next.tables)
      NoRevisionClash := by
  rw [mergeProjectState]
  refine .seq (mergeMemoryScope_ensures distinct consistent) ?_
  intro _ first ⟨makes, elsewhere, merged⟩
  apply select_bind
  generalize listed : first.environment.rows first.tables.tasks (fun row =>
    row.projectId = source) = entries
  have member : ∀ entry, entry ∈ entries ↔
      first.tables.tasks.find entry.1 = some entry.2 ∧ entry.2.projectId = source := by
    intro entry
    rw [← listed, mem_rows, decide_eq_true_eq]
  have once : (entries.map (·.1)).Nodup := by
    rw [← listed]
    exact rows_nodup _ _ _
  refine .seq (moveTasks_ensures (makes.stores.consistent consistent)
    (elsewhere.tasks.symm ▸ bound) distinct member once) ?_
  rintro _ second ⟨home, moving⟩
  refine (write_ensures _).mono ?_ fun _ fails => fails
  intro _ last ⟨written, environment⟩
  have memories : last.tables.memories = second.tables.memories := by rw [written]
  have tasks : last.tables.tasks = second.tables.tasks := by rw [written]
  have outside : ∀ id, (∀ task, work.tables.tasks.find id = some task →
      task.projectId ≠ source) → id ∉ entries.map (·.1) := by
    intro id away listed
    obtain ⟨entry, place, rfl⟩ := List.mem_map.mp listed
    obtain ⟨found, project⟩ := (member entry).mp place
    rw [elsewhere.tasks] at found
    exact away entry.2 found project
  refine ⟨⟨(makes.stores.trans moving.makes.stores).elsewhere ?_, ?_⟩, ?_, tasks ▸ moving.bound,
    home, ?_, ?_, ?_, ?_, ?_, ?_⟩
  · rw [written]
    exact ⟨rfl, rfl, rfl⟩
  · exact environment.trans (moving.makes.environment.trans makes.environment)
  · rw [written]
    exact moving.projects.trans elsewhere.projects
  · rw [memories]
    refine ((merged.relocates distinct).trans moving.relocates).congr ?_
    intro kind scopeId
    cases kind <;> simp [absorbedScope, atTask, movedScope]
  · intro id row found foreign
    have still : first.tables.memories.find id = some row := by
      rw [merged.others id]
      · exact found
      · intro old present inside
        rw [found] at present
        cases present
        exact foreign (.inl inside)
    rw [memories]
    exact moving.untouched id row still fun isTask => outside row.scopeId fun task present own =>
      foreign (.inr ⟨isTask, task, present, own⟩)
  · intro id task found
    rw [tasks]
    by_cases own : task.projectId = source
    · rw [if_pos own]
      obtain ⟨survivor, present, project, identity⟩ := moving.survivors (id, task)
        ((member (id, task)).mpr ⟨elsewhere.tasks.symm ▸ found, own⟩)
      exact ⟨survivor, present, identity, project⟩
    · rw [if_neg own]
      obtain ⟨still, same⟩ := moving.elsewhere id (outside id fun other present => by
        rw [found] at present
        cases present
        exact own)
      rw [still, same, elsewhere.tasks]
      exact ⟨task, found, rfl, rfl⟩
  · intro id away
    obtain ⟨still, same⟩ := moving.elsewhere id (outside id away)
    rw [tasks, same, elsewhere.tasks]
    exact ⟨still, rfl⟩
  · intro id
    rw [written, Table.find_mapRows, moving.handoffs id, elsewhere.handoffs, Option.map_map]
    congr 1
    funext handoff
    simp only [Function.comp_apply, readdress]
    split <;> rfl
  · intro id task present project
    rw [tasks] at present
    have pending := moving.left id task present project
    rw [(moving.elsewhere id pending).2] at present
    exact pending (List.mem_map.mpr ⟨(id, task), (member (id, task)).mpr ⟨present, project⟩, rfl⟩)

/-- The row of a project once another one has absorbed it. -/
def linkTo (source target : String) (now : Int) (id : String) (row : ProjectRow) : ProjectRow :=
  if id = source then { row with linkedProjectId := some target, updatedAt := now } else row

/-- Two canonical projects are one: they were before, or one absorbs the other. -/
inductive United (source target : String) (before after : Tables) : Prop
  | already (same : source = target) (unchanged : after = before)
  | absorbed {home : String → String} {now : Int} (distinct : source ≠ target)
      (absorbed : Absorbed source target home before after)
      (projects : after.projects = before.projects.mapRows (linkTo source target now))

theorem absorbProject_ensures (consistent : Consistent work.tables)
    (bound : TasksBound work.tables.tasks) :
    Ensures (absorbProject source target) work
      (fun _ next => Makes MayMove work next ∧ TasksBound next.tables.tasks ∧
        United source target work.tables next.tables) NoRevisionClash := by
  rw [absorbProject]
  split
  · next same => exact .pure ⟨⟨.start, rfl⟩, bound, .already same rfl⟩
  · next distinct =>
      refine .seq (mergeProjectState_ensures consistent bound distinct) ?_
      rintro _ first ⟨makes, projects, stillBound, home, absorbed⟩
      refine .seq nowSecs_ensures ?_
      intro now second ⟨same, environment⟩
      refine (write_ensures _).mono ?_ fun _ fails => fails
      intro _ third ⟨written, environment'⟩
      rw [same] at written
      refine ⟨⟨makes.stores.elsewhere ?_, environment'.trans (environment.trans
        makes.environment)⟩, ?_, .absorbed distinct (?_ : Absorbed _ _ home _ _)
          (?_ : _ = Table.mapRows _ (linkTo _ _ now))⟩
      · rw [written]
        exact ⟨rfl, rfl, rfl⟩
      · rw [written]
        exact stillBound
      · rw [written]
        exact ⟨absorbed.memories, absorbed.untouched, absorbed.tasks, absorbed.otherTasks,
          absorbed.handoffs, absorbed.tasksLeft⟩
      · rw [written, ← projects]
        rfl

/-- What a successful request to link two locations does. -/
structure Linked (left right : ResolvedLocation) (before after : Tables)
    (project : ResolvedProject) : Prop where
  unites : ∃ a b first second, ProjectSeen left before.projects a.id first ∧
    loadProject first a.id = some a ∧ ProjectSeen right first b.id second ∧
    loadProject second b.id = some b ∧
    United b.canonicalId a.canonicalId { before with projects := second } after ∧
    loadProject after.projects a.id = some project

theorem linkInner_ensures {left right : ResolvedLocation} (consistent : Consistent work.tables)
    (bound : TasksBound work.tables.tasks) :
    Ensures (linkInner left right) work
      (fun project next => Makes MayMove work next ∧ TasksBound next.tables.tasks ∧
        Linked left right work.tables next.tables project) NoRevisionClash := by
  rw [linkInner]
  refine .seq (upsertProject_ensures left) ?_
  rintro a first ⟨projects, seen, loaded, leaves⟩
  refine .seq (upsertProject_ensures right) ?_
  rintro b second ⟨projects', seen', loaded', leaves'⟩
  have stores : Stores MayMove work.tables second.tables :=
    (Stores.start.elsewhere leaves.sameMemory).elsewhere leaves'.sameMemory
  have tables : second.tables = { work.tables with projects := projects' } := by
    rw [leaves'.tables, leaves.tables]
  refine .seq (absorbProject_ensures (stores.consistent consistent) (by rw [tables]; exact bound))
    ?_
  rintro _ third ⟨makes, stillBound, united⟩
  refine (requireProject_ensures a.id _).mono ?_ fun _ fails => fails
  rintro project _ ⟨found, rfl⟩
  refine ⟨⟨stores.trans makes.stores, makes.environment.trans
    (leaves'.environment.trans leaves.environment)⟩, stillBound, ?_⟩
  rw [leaves.tables] at seen'
  rw [tables] at united
  exact ⟨a, b, projects, projects', seen, loaded, seen', loaded', united, found⟩

end TerminalCanvas.Memory.Store
