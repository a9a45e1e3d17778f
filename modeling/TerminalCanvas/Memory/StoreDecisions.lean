import TerminalCanvas.Memory.StoreRemember

/-! # What the decisions of a human write

An approval makes a candidate active in the place of the active memory of its key.
Rejecting and forgetting withdraw one memory. -/

namespace TerminalCanvas.Memory.Store

open TerminalCanvas.Transaction

/-- What a later version of a memory keeps. -/
structure SameText (old row : MemoryRecord) : Prop where
  id : row.id = old.id
  scopeKind : row.scopeKind = old.scopeKind
  kind : row.kind = old.kind
  stableKey : row.stableKey = old.stableKey
  trustClass : row.trustClass = old.trustClass
  content : row.content = old.content
  validUntil : row.validUntil = old.validUntil
  createdAt : row.createdAt = old.createdAt

inductive MayApprove (memoryId : String) (before : Tables) (row : MemoryRecord) : Prop
  | supersedes {old : MemoryRecord} (found : before.memories.find row.id = some old)
      (superseded : row.status = .superseded)
  | approves {old : MemoryRecord} (found : before.memories.find row.id = some old)
      (own : row.id = memoryId) (candidate : old.status = .candidate)
      (active : row.status = .active) (same : SameText old row)

inductive MayWithdraw (status : MemoryStatus) (before : Tables) (row : MemoryRecord) : Prop
  | withdraws {old : MemoryRecord} (found : before.memories.find row.id = some old)
      (withdrawn : row.status = status)

theorem Admissible.of_found {before : Tables} {old row : MemoryRecord} {logged : Bool}
    (found : before.memories.find row.id = some old)
    (later : old.currentRevision < row.currentRevision)
    (free : row.status = .active → activeKeyTaken before.memories row.id row = false) :
    Admissible before row logged where
  advances := by
    intro stored present
    rw [found] at present
    cases present
    exact ⟨Nat.le_of_lt later, fun _ => later⟩
  free := free

section Writes

variable {work : Work} {actor : Actor}

theorem supersedeOnApprove_ensures {existing : MemoryRecord} {nextRevision : Nat}
    (memoryId : String) (consistent : Consistent work.tables)
    (found : work.tables.memories.find existing.id = some existing) :
    Ensures (supersedeOnApprove existing nextRevision actor) work
      (fun revision next => nextRevision ≤ revision ∧
        Makes (MayApprove memoryId) work next ∧
        ∃ row, row.status = .superseded ∧ row.id = existing.id ∧
          next.tables.memories = work.tables.memories.put existing.id row)
      NoRevisionClash := by
  rw [supersedeOnApprove]
  refine .seq (revisionAfter_ensures _ nofun) ?_
  rintro revision work ⟨rfl, rfl⟩
  refine .seq nowSecs_ensures ?_
  intro now first ⟨same, environment⟩
  refine .seq (revisionAfter_ensures _ nofun) ?_
  rintro following _ ⟨rfl, rfl⟩
  have admissible : ∀ row : MemoryRecord, row.id = existing.id →
      row.currentRevision = existing.currentRevision + 1 → row.status = .superseded →
      Admissible work.tables row true := by
    intro row own revision superseded
    refine .of_found (own ▸ found) (by omega) fun active => ?_
    rw [superseded] at active
    cases active
  have admitted := admissible { existing with
    status := .superseded
    currentRevision := existing.currentRevision + 1
    updatedAt := now } rfl rfl rfl
  refine persist_append (same.symm ▸ consistent) (same.symm ▸ admitted) ?_ ?_
  · intro old present
    rw [same, found] at present
    cases present
    rfl
  intro second logged environment'
  rw [same] at logged
  refine .seq (deleteFts_ensures _) ?_
  intro _ third ⟨dropped, environment''⟩
  have stored : Stored work.tables third.tables { existing with
      status := .superseded
      currentRevision := existing.currentRevision + 1
      updatedAt := now } true := by
    rw [dropped, logged.fts]
    exact logged.stored (.dropped nofun)
  exact .pure ⟨Nat.le_max_left _ _,
    ⟨Stores.start.stored stored admitted (.supersedes found rfl),
      environment''.trans (environment'.trans environment)⟩,
    { existing with
      status := .superseded
      currentRevision := existing.currentRevision + 1
      updatedAt := now }, rfl, rfl, stored.memories⟩

theorem revisionOver_ensures {existing : Option MemoryRecord} {memory : MemoryRecord}
    {nextRevision : Nat} (consistent : Consistent work.tables)
    (found : work.tables.memories.find memory.id = some memory)
    (candidate : memory.status = .candidate)
    (absent : existing = none → ∀ id row, work.tables.memories.find id = some row →
      HasKey memory.scopeKind memory.scopeId memory.stableKey row → row.status ≠ .active)
    (chosen : ∀ row, existing = some row → row.status = .active ∧
      HasKey memory.scopeKind memory.scopeId memory.stableKey row ∧
      ∃ id, work.tables.memories.find id = some row) :
    Ensures (revisionOver existing memory.id nextRevision actor) work
      (fun revision next => nextRevision ≤ revision ∧
        Makes (MayApprove memory.id) work next ∧
        next.tables.memories.find memory.id = some memory ∧
        ∀ id row, next.tables.memories.find id = some row →
          HasKey memory.scopeKind memory.scopeId memory.stableKey row → row.status ≠ .active)
      NoRevisionClash := by
  cases existing with
  | none =>
      exact .pure ⟨Nat.le_refl _, ⟨.start, rfl⟩, found, absent rfl⟩
  | some existing =>
      obtain ⟨active, has, id, stored⟩ := chosen existing rfl
      have own := consistent.ids id existing stored
      rw [← own] at stored
      have different : existing.id ≠ memory.id := by
        intro same
        rw [same, found] at stored
        cases stored
        rw [candidate] at active
        cases active
      rw [revisionOver, if_pos different]
      refine (supersedeOnApprove_ensures memory.id consistent stored).mono ?_ fun _ fails => fails
      rintro revision next ⟨later, makes, replaced, superseded, _, memories⟩
      refine ⟨later, makes, ?_, ?_⟩
      · rw [memories, Table.find_put_of_ne _ _ (Ne.symm different)]
        exact found
      · intro other row present hasKey alsoActive
        rw [memories, Table.find_put] at present
        split at present
        · cases present
          rw [superseded] at alsoActive
          cases alsoActive
        · next another =>
            have same : sameKey row existing = true := by
              rw [sameKey_iff, has.1, has.2.1, has.2.2]
              exact hasKey
            exact another (consistent.activeKeys other existing.id row existing present stored
              alsoActive active same)

theorem approveInner_ensures {memoryId : String} (consistent : Consistent work.tables) :
    Ensures (approveInner memoryId actor) work
      (fun _ next => Makes (MayApprove memoryId) work next) NoRevisionClash := by
  rw [approveInner, loadMemory]
  apply read_bind
  cases found : work.tables.memories.find memoryId with
  | none => exact .throw nofun
  | some memory =>
      have own := consistent.ids memoryId memory found
      subst own
      refine .ensure_bind (fun _ => nofun) ?_
      intro candidate
      refine .seq (revisionAfter_ensures _ nofun) ?_
      rintro nextRevision _ ⟨rfl, rfl⟩
      refine .seq (findActiveKey_ensures _ _ _) ?_
      rintro existing _ ⟨rfl, absent, chosen⟩
      refine .seq (revisionOver_ensures consistent found candidate absent chosen) ?_
      intro revision first ⟨later, makes, stored, free⟩
      refine .seq nowSecs_ensures ?_
      intro now second ⟨same, environment⟩
      have behind := makes.stores.consistent consistent
      have admissible : ∀ row : MemoryRecord, row.id = memory.id →
          row.currentRevision = revision →
          HasKey memory.scopeKind memory.scopeId memory.stableKey row →
          Admissible first.tables row true := by
        intro row own revisionIs ⟨kindIs, scopeIs, keyIs⟩
        refine .of_found (own ▸ stored) (by omega) fun _ => ?_
        rw [activeKeyTaken_eq_false]
        intro other old present active sameRow
        have has := sameKey_iff.mp sameRow
        rw [kindIs, scopeIs, keyIs] at has
        exact absurd active (free other old present has)
      have admitted := admissible { memory with
        status := .active
        currentRevision := revision
        updatedAt := now } rfl rfl ⟨rfl, rfl, rfl⟩
      refine persist_append (same.symm ▸ behind) (same.symm ▸ admitted) ?_ ?_
      · intro old present
        rw [same, stored] at present
        cases present
        rfl
      intro third logged environment'
      rw [same] at logged
      refine .seq (upsertFts_ensures _) ?_
      intro _ fourth ⟨indexed, environment''⟩
      refine .pure ⟨?_, environment''.trans (environment'.trans
        (environment.trans makes.environment))⟩
      rw [indexed, logged.fts]
      exact makes.stores.stored (logged.stored (.replaced rfl)) admitted
        (.approves stored rfl candidate rfl ⟨rfl, rfl, rfl, rfl, rfl, rfl, rfl, rfl⟩)

/-- The index of a memory that is withdrawn: a candidate has no row, and any other
memory loses its own. -/
theorem dropFtsIf_ensures (condition : Bool) (memoryId : String) :
    Ensures (dropFtsIf condition memoryId) work
      (fun _ next => Leaves work next { work.tables with
        fts := if condition then work.tables.fts.filter (·.memoryId ≠ memoryId)
          else work.tables.fts }) NoRevisionClash := by
  cases condition with
  | true => exact deleteFts_ensures memoryId
  | false => exact .pure ⟨rfl, rfl⟩

theorem setStatus_ensures {memoryId operation : String} {status : MemoryStatus} {dropFts : Bool}
    {expected : Option MemoryStatus} (consistent : Consistent work.tables)
    (inactive : status ≠ .active)
    (indexed : dropFts = true ∨ ∃ required, expected = some required ∧ required ≠ .active) :
    Ensures (setStatus memoryId status actor operation dropFts expected) work
      (fun _ next => Makes (MayWithdraw status) work next) NoRevisionClash := by
  rw [setStatus, loadMemory]
  apply read_bind
  cases found : work.tables.memories.find memoryId with
  | none => exact .throw nofun
  | some memory =>
      have own := consistent.ids memoryId memory found
      subst own
      refine .ensure_bind (fun _ => nofun) ?_
      intro allowed
      refine .seq (revisionAfter_ensures _ nofun) ?_
      rintro revision work ⟨rfl, rfl⟩
      refine .seq nowSecs_ensures ?_
      intro now first ⟨same, environment⟩
      have admissible : ∀ row : MemoryRecord, row.id = memory.id →
          row.currentRevision = memory.currentRevision + 1 → row.status = status →
          Admissible work.tables row true := by
        intro row own revisionIs statusIs
        exact .of_found (own ▸ found) (by omega) fun active =>
          absurd (statusIs.symm.trans active) inactive
      have admitted := admissible { memory with
        status := status
        currentRevision := memory.currentRevision + 1
        updatedAt := now } rfl rfl rfl
      refine persist_append (same.symm ▸ consistent) (same.symm ▸ admitted) ?_ ?_
      · intro old present
        rw [same, found] at present
        cases present
        rfl
      intro second logged environment'
      rw [same] at logged
      refine .seq (dropFtsIf_ensures _ _) ?_
      intro _ third ⟨dropped, environment''⟩
      refine .pure ⟨?_, environment''.trans (environment'.trans environment)⟩
      rw [dropped, logged.fts]
      refine Stores.start.stored (logged.stored ?_) admitted (.withdraws found rfl)
      cases dropFts with
      | true => exact .dropped inactive
      | false =>
          obtain never | ⟨required, rfl, candidate⟩ := indexed
          · cases never
          · refine .kept ?_ fun active => absurd active inactive
            intro old present active
            rw [found] at present
            cases present
            exact absurd ((allowed required rfl).symm.trans active) candidate

end Writes

end TerminalCanvas.Memory.Store
