import TerminalCanvas.Memory.StoreOperations

/-! # What no operation of the store changes

A property that no single write breaks is kept by every operation, whatever it draws
and however it ends. -/

namespace TerminalCanvas.Memory.Store

open TerminalCanvas.Transaction TerminalCanvas.Execution

/-- A property that does not look at memories and handoffs, and that projects and tasks
seen by an operation do not break. -/
structure Stable (Property : Tables → Prop) : Prop where
  projects : ∀ {tables location id projects},
    ProjectSeen location tables.projects id projects → Property tables →
    Property { tables with projects := projects }
  tasks : ∀ {tables projectId location orchestrator id tasks},
    TaskSeen projectId (taskIdentityAt location orchestrator) orchestrator tables.tasks id tasks →
    Property tables → Property { tables with tasks := tasks }
  memories : ∀ {tables memories}, Property tables → Property { tables with memories := memories }
  revisions : ∀ {tables revisions}, Property tables →
    Property { tables with revisions := revisions }
  fts : ∀ {tables fts}, Property tables → Property { tables with fts := fts }
  handoffs : ∀ {tables handoffs}, Property tables → Property { tables with handoffs := handoffs }

def Keeps {Answer : Type} (Property : Tables → Prop) (body : Tx Answer) : Prop :=
  ∀ work : Work, Property work.tables →
    Ensures body work (fun _ next => Property next.tables) fun _ => True

variable {Property : Tables → Prop}

namespace Keeps

variable {Answer Result : Type}

theorem bind {first : Tx Result} {rest : Result → Tx Answer} (head : Keeps Property first)
    (tail : ∀ result, Keeps Property (rest result)) : Keeps Property (first >>= rest) :=
  fun work holds => .seq (head work holds) fun result next holds => tail result next holds

theorem pure (answer : Answer) : Keeps Property (Pure.pure answer : Tx Answer) :=
  fun _ holds => .pure holds

theorem throw (error : StoreError) : Keeps Property (throw error : Tx Answer) :=
  fun _ _ => .throw trivial

theorem ensure {condition : Prop} [Decidable condition] {error : StoreError} :
    Keeps Property (ensure condition error) := by
  rw [Transaction.ensure]
  split
  · exact .pure ()
  · exact .throw error

theorem read (question : Tables → Result) : Keeps Property (read question) :=
  fun _ holds => ⟨holds⟩

theorem select {Row : Type} (table : Tables → Table String Row) (property : Row → Bool) :
    Keeps Property (select table property) :=
  fun _ holds => ⟨holds⟩

theorem write {change : Tables → Tables}
    (kept : ∀ tables, Property tables → Property (change tables)) :
    Keeps Property (write change) :=
  fun work holds => ⟨kept work.tables holds⟩

theorem newPrefixedId (start : String) : Keeps Property (newPrefixedId start) :=
  fun _ holds => ⟨holds⟩

theorem nowSecs : Keeps Property nowSecs :=
  fun _ holds => ⟨holds⟩

theorem revisionAfter (current : Nat) : Keeps Property (revisionAfter current) := by
  rw [Store.revisionAfter]
  split
  · exact .pure _
  · exact .throw _

theorem forM {Item : Type} {body : Item → Tx PUnit} (items : List Item)
    (each : ∀ item, Keeps Property (body item)) : Keeps Property (items.forM body) :=
  fun _ holds => .forM (fun _ _ next => Property next.tables) items holds
    (fun _ item _ next _ holds => each item next holds) fun _ holds => holds

theorem of_ensures {body : Tx Answer} {success : Work → Answer → Work → Prop}
    (ensures : ∀ work, Ensures body work (success work) NoRevisionClash)
    (kept : ∀ work answer next, success work answer next → Property work.tables →
      Property next.tables) : Keeps Property body :=
  fun work holds => (ensures work).mono (fun answer next done => kept work answer next done holds)
    fun _ _ => trivial

end Keeps

theorem Keeps.saveReceipt
    (anyReceipts : ∀ {tables receipts}, Property tables →
      Property { tables with receipts := receipts })
    (key : ReceiptKey) (fingerprint : String) (result : WriteResult) :
    Keeps Property (saveReceipt key fingerprint result) :=
  .bind .nowSecs fun _ => .write fun _ => anyReceipts

namespace Stable

variable (stable : Stable Property)

include stable

/-! ## Statements -/

theorem upsertProject (location : ResolvedLocation) : Keeps Property (upsertProject location) := by
  refine .of_ensures (fun _ => upsertProject_ensures location) ?_
  rintro work project next ⟨projects, seen, _, leaves⟩ holds
  rw [leaves.tables]
  exact stable.projects seen holds

theorem upsertTask (projectId : String) (location : ResolvedLocation)
    (orchestratorTaskId : Option Uuid) :
    Keeps Property (upsertTask projectId location orchestratorTaskId) := by
  refine .of_ensures (fun _ => upsertTask_ensures projectId location orchestratorTaskId) ?_
  rintro work id next ⟨tasks, seen, leaves⟩ holds
  rw [leaves.tables]
  exact stable.tasks seen holds

theorem storeMemory (id : String) (row : MemoryRecord) : Keeps Property (storeMemory id row) :=
  .bind (.read _) fun _ => .bind .ensure fun _ => .write fun _ => stable.memories

theorem persistMemory (memory : MemoryRecord) : Keeps Property (persistMemory memory) :=
  .bind (.read _) fun _ => stable.storeMemory _ _

theorem appendRevision (memory : MemoryRecord) (operation : String) (actor : Actor) :
    Keeps Property (appendRevision memory operation actor) :=
  .bind (.newPrefixedId _) fun _ => .bind .nowSecs fun _ => .bind (.read _) fun _ =>
    .bind .ensure fun _ => .bind (.read _) fun _ => .bind .ensure fun _ =>
      .write fun _ => stable.revisions

theorem deleteFts (memoryId : String) : Keeps Property (deleteFts memoryId) :=
  .write fun _ => stable.fts

theorem upsertFts (memory : MemoryRecord) : Keeps Property (upsertFts memory) :=
  .bind (stable.deleteFts _) fun _ => .write fun _ => stable.fts

theorem indexRetrievable (memory : MemoryRecord) : Keeps Property (indexRetrievable memory) := by
  rw [Store.indexRetrievable]
  split
  · exact stable.upsertFts memory
  · exact .pure ()

theorem dropFtsIf (condition : Bool) (memoryId : String) :
    Keeps Property (dropFtsIf condition memoryId) := by
  rw [Store.dropFtsIf]
  split
  · exact stable.deleteFts memoryId
  · exact .pure ()

/-! ## Requests -/

theorem insertFresh (request : RememberRequest) (scopeId key content : String)
    (status : MemoryStatus) : Keeps Property (insertFresh request scopeId key content status) :=
  .bind .nowSecs fun _ => .bind (.newPrefixedId _) fun _ =>
    .bind (stable.persistMemory _) fun _ => .bind (stable.appendRevision _ _ _) fun _ =>
      .bind (stable.indexRetrievable _) fun _ => .bind (.newPrefixedId _) fun _ => .pure _

theorem insertConflictCandidate (scopeId : String) (scope : ScopeKind) (kind : MemoryKind)
    (key content : String) (actor : Actor) :
    Keeps Property (insertConflictCandidate scopeId scope kind key content actor) :=
  .bind .nowSecs fun _ => .bind (.newPrefixedId _) fun _ =>
    .bind (stable.persistMemory _) fun _ => .bind (stable.appendRevision _ _ _) fun _ => .pure _

theorem supersedeRow (existing : MemoryRecord) (content : String) (actor : Actor) :
    Keeps Property (supersedeRow existing content actor) :=
  .bind .nowSecs fun _ => .bind (.revisionAfter _) fun _ =>
    .bind (stable.persistMemory _) fun _ => .bind (stable.deleteFts _) fun _ =>
      .bind (.newPrefixedId _) fun _ => .bind (stable.persistMemory _) fun _ =>
        .bind (stable.appendRevision _ _ _) fun _ =>
          .bind (stable.indexRetrievable _) fun _ => .pure _

theorem rememberOver (request : RememberRequest) (scopeId key content : String)
    (existing : MemoryRecord) :
    Keeps Property (rememberOver request scopeId key content existing) := by
  have deduped : Keeps Property (do
      let receipt ← Store.newPrefixedId "rcp_"
      pure (.deduped ⟨existing, receipt, existing.currentRevision⟩ : WriteResult)) :=
    .bind (.newPrefixedId _) fun _ => .pure _
  have conflict : Keeps Property (do
      let inserted ← Store.insertConflictCandidate scopeId request.scope request.kind key content
        request.actor
      pure (.conflict ⟨existing, content, some inserted.id⟩ : WriteResult)) :=
    .bind (stable.insertConflictCandidate _ _ _ _ _ _) fun _ => .pure _
  simp only [Store.rememberOver]
  split
  · exact stable.insertFresh _ _ _ _ _
  split
  · exact deduped
  split
  · split
    · exact deduped
    · exact conflict
  split
  · split
    · exact .pure _
    · exact conflict
  · exact .bind (stable.supersedeRow _ _ _) fun _ => .bind (.newPrefixedId _) fun _ => .pure _

theorem rememberKeyed (request : RememberRequest) (scopeId key content : String) :
    Keeps Property (rememberKeyed request scopeId key content) := by
  refine .bind .ensure fun _ => .bind .ensure fun _ => .bind .ensure fun _ =>
    .bind .ensure fun _ => .bind ?_ fun existing => ?_
  · exact .bind (.select _ _) fun _ => .pure _
  · cases existing with
    | some existing => exact stable.rememberOver _ _ _ _ _
    | none => exact stable.insertFresh _ _ _ _ _

theorem rememberInner (policy : Policy) (request : RememberRequest)
    (location : ResolvedLocation) : Keeps Property (rememberInner policy request location) :=
  .bind (stable.upsertProject _) fun _ => .bind (stable.upsertTask _ _ _) fun _ =>
    .bind .ensure fun _ => stable.rememberKeyed _ _ _ _

theorem rememberOnce
    (anyReceipts : ∀ {tables receipts}, Property tables →
      Property { tables with receipts := receipts })
    (policy : Policy) (request : RememberRequest) (location : ResolvedLocation)
    (fingerprint : String) :
    Keeps Property (rememberOnce policy request location fingerprint) := by
  refine .bind (.bind (.read _) fun stored => ?_) fun cached => ?_
  · cases stored with
    | none => exact .pure _
    | some receipt => exact .bind .ensure fun _ => .pure _
  · cases cached with
    | some result => exact .pure _
    | none =>
        exact .bind (stable.rememberInner _ _ _) fun _ =>
          .bind (.saveReceipt anyReceipts _ _ _) fun _ => .pure _

/-! ## Decisions -/

theorem supersedeOnApprove (existing : MemoryRecord) (nextRevision : Nat) (actor : Actor) :
    Keeps Property (supersedeOnApprove existing nextRevision actor) :=
  .bind (.revisionAfter _) fun _ => .bind .nowSecs fun _ => .bind (.revisionAfter _) fun _ =>
    .bind (stable.persistMemory _) fun _ => .bind (stable.appendRevision _ _ _) fun _ =>
      .bind (stable.deleteFts _) fun _ => .pure _

theorem revisionOver (existing : Option MemoryRecord) (memoryId : String) (nextRevision : Nat)
    (actor : Actor) : Keeps Property (revisionOver existing memoryId nextRevision actor) := by
  cases existing with
  | none => exact .pure _
  | some existing =>
      rw [Store.revisionOver]
      split
      · exact stable.supersedeOnApprove _ _ _
      · exact .pure _

theorem approveInner (memoryId : String) (actor : Actor) :
    Keeps Property (approveInner memoryId actor) := by
  refine .bind (.read _) fun loaded => ?_
  cases loaded with
  | none => exact .throw _
  | some memory =>
      exact .bind .ensure fun _ => .bind (.revisionAfter _) fun _ =>
        .bind (.bind (.select _ _) fun _ => .pure _) fun _ =>
          .bind (stable.revisionOver _ _ _ _) fun _ => .bind .nowSecs fun _ =>
            .bind (stable.persistMemory _) fun _ => .bind (stable.appendRevision _ _ _) fun _ =>
              .bind (stable.upsertFts _) fun _ => .pure _

theorem setStatus (memoryId : String) (status : MemoryStatus) (actor : Actor)
    (operation : String) (dropFts : Bool) (expected : Option MemoryStatus) :
    Keeps Property (setStatus memoryId status actor operation dropFts expected) := by
  refine .bind (.read _) fun loaded => ?_
  cases loaded with
  | none => exact .throw _
  | some memory =>
      exact .bind .ensure fun _ => .bind (.revisionAfter _) fun _ => .bind .nowSecs fun _ =>
        .bind (stable.persistMemory _) fun _ => .bind (stable.appendRevision _ _ _) fun _ =>
          .bind (stable.dropFtsIf _ _) fun _ => .pure _

/-! ## Handoffs and visits -/

theorem handoffInner (policy : Policy) (request : HandoffRequest) (location : ResolvedLocation)
    (validated : Except String Unit) :
    Keeps Property (handoffInner policy request location validated) := by
  cases validated with
  | error reason => exact .throw _
  | ok =>
      refine .bind (stable.upsertProject _) fun _ => .bind (stable.upsertTask _ _ _) fun _ =>
        .bind .nowSecs fun _ => .bind .ensure fun _ => .bind .ensure fun _ => .bind ?_ fun _ =>
          .bind (.newPrefixedId _) fun _ => .bind (.read _) fun _ => .bind .ensure fun _ =>
            .bind (.write fun _ => stable.handoffs) fun _ => .pure _
      unfold handoffExpiry
      split
      · exact .pure _
      · split
        · exact .throw _
        · split
          · exact .pure _
          · exact .throw _

theorem visitInner (location : ResolvedLocation) (orchestratorTaskId : Option Uuid)
    (validated : Except String Unit) :
    Keeps Property (visitInner location orchestratorTaskId validated) := by
  cases validated with
  | error reason => exact .throw _
  | ok =>
      exact .bind (stable.upsertProject _) fun _ => .bind (stable.upsertTask _ _ _) fun _ =>
        .pure _

/-! ## Moves -/

theorem moveMemory (kind : ScopeKind) (target : String) (memory : MemoryRecord) :
    Keeps Property (moveMemory kind target memory) := by
  refine .bind ?_ fun _ => .bind (stable.dropFtsIf _ _) fun _ => .bind (.revisionAfter _) fun _ =>
    .bind .nowSecs fun _ => .bind (.bind (.read _) fun stored => ?_) fun _ =>
      stable.appendRevision _ _ _
  · rw [collides]
    split
    · exact .bind (.bind (.select _ _) fun _ => .pure _) fun _ => .pure _
    · exact .pure _
  · cases stored with
    | none => exact .pure _
    | some old => exact stable.storeMemory _ _

theorem mergeMemoryScope (kind : ScopeKind) (source target : String) :
    Keeps Property (mergeMemoryScope kind source target) :=
  .bind (.select _ _) fun _ => .forM _ fun _ => stable.moveMemory _ _ _

theorem mergeProjectState
    (anyTasks : ∀ {tables tasks}, Property tables → Property { tables with tasks := tasks })
    (source target : String) : Keeps Property (mergeProjectState source target) := by
  refine .bind (stable.mergeMemoryScope _ _ _) fun _ => .bind (.select _ _) fun _ =>
    .bind (.forM _ fun entry => ?_) fun _ => .write fun _ => stable.handoffs
  refine .bind (.select _ _) fun rows => ?_
  cases firstBy olderTask rows with
  | some existing =>
      refine .bind (stable.mergeMemoryScope _ _ _) fun _ => .write fun tables holds => ?_
      exact @anyTasks { tables with
        handoffs := tables.handoffs.mapRows fun _ handoff =>
          if handoff.taskId = entry.1 then { handoff with taskId := existing.1 } else handoff } _
        (stable.handoffs holds)
  | none =>
      exact .bind (.read _) fun _ => .bind .ensure fun _ => .write fun _ holds => anyTasks holds

theorem linkInner
    (anyTasks : ∀ {tables tasks}, Property tables → Property { tables with tasks := tasks })
    (anyProjects : ∀ {tables projects}, Property tables →
      Property { tables with projects := projects })
    (left right : ResolvedLocation) : Keeps Property (linkInner left right) := by
  have absorbs : ∀ source target, Keeps Property (absorbProject source target) := by
    intro source target
    rw [absorbProject]
    split
    · exact .pure ()
    · exact .bind (stable.mergeProjectState anyTasks _ _) fun _ => .bind .nowSecs fun _ =>
        .write fun _ => anyProjects
  have requires : ∀ id absence, Keeps Property (requireProject id absence) := by
    intro id absence
    refine .bind (.read _) fun loaded => ?_
    cases loaded with
    | some project => exact .pure _
    | none => exact .throw _
  exact .bind (stable.upsertProject _) fun _ => .bind (stable.upsertProject _) fun _ =>
    .bind (absorbs _ _) fun _ => requires _ _

end Stable

/-! ## Transactions -/

theorem transact_keeps {Answer : Type} {body : Tx Answer} (keeps : Keeps Property body)
    {tables : Tables} (holds : Property tables) (world : World) :
    Property (transact world body tables).2 := by
  have ensures := keeps ⟨tables, world.environment, 0, 0⟩ holds
  rcases @Ensures.immediate _ _ _ _ _ _ _ (if world.commits then .ok () else .error .busy) ensures
    with ⟨_, _, kept⟩ | ⟨_, _, unchanged, _⟩
  · exact kept
  · change Property (immediate _ body ⟨tables, world.environment, 0, 0⟩).2.tables
    rw [unchanged]
    exact holds

theorem asHuman_keeps {Answer : Type} {body : Tx Answer} (keeps : Keeps Property body)
    {tables : Tables} (holds : Property tables) (actor : Actor) (operation : String)
    (world : World) : Property (asHuman actor operation world body tables).2 := by
  rw [asHuman]
  split
  · exact transact_keeps keeps holds world
  · exact holds

theorem remember_keeps (stable : Stable Property)
    (anyReceipts : ∀ {tables receipts}, Property tables →
      Property { tables with receipts := receipts })
    {tables : Tables} (holds : Property tables) (policy : Policy) (request : RememberRequest)
    (location : ResolvedLocation) (world : World) :
    Property (remember policy request location world tables).2 := by
  rw [remember]
  split
  · exact holds
  · exact transact_keeps (stable.rememberOnce anyReceipts _ _ _ _) holds world

theorem step_keeps (stable : Stable Property) {policy : Policy} {tables : Tables} {input : Input}
    (remembers : ∀ request location world, input = .remember request location world →
      Property (remember policy request location world tables).2)
    (proposes : ∀ request location world, input = .propose request location world →
      Property (remember policy (proposed request) location world tables).2)
    (links : ∀ left right world, input = .linkProjects left right world →
      Property (transact world (linkInner left right) tables).2)
    (holds : Property tables) : Property ((machine policy).next tables input) := by
  simp only [Machine.next, machine]
  cases input with
  | remember request location world =>
      simp only [step, answer]
      exact remembers request location world rfl
  | propose request location world =>
      simp only [step, answer]
      exact proposes request location world rfl
  | approve memoryId actor world =>
      simp only [step, answer]
      exact asHuman_keeps (stable.approveInner _ _) holds actor _ world
  | reject memoryId actor world =>
      simp only [step, answer]
      exact asHuman_keeps (stable.setStatus _ _ _ _ _ _) holds actor _ world
  | forget memoryId actor world =>
      simp only [step, answer]
      exact asHuman_keeps (stable.setStatus _ _ _ _ _ _) holds actor _ world
  | linkProjects left right world =>
      simp only [step, answer]
      exact links left right world rfl
  | resolveProject location world =>
      simp only [step, answer]
      exact transact_keeps (stable.upsertProject _) holds world
  | createHandoff request location validated world =>
      simp only [step, answer]
      exact transact_keeps (stable.handoffInner _ _ _ _) holds world
  | visit location orchestratorTaskId validated world =>
      simp only [step, answer]
      exact transact_keeps (stable.visitInner _ _ _) holds world

end TerminalCanvas.Memory.Store
