import TerminalCanvas.Memory.StoreOperations

/-! # What a remembered request writes

A request writes fresh rows, and supersedes the row it replaces: an agent only where
no active memory is replaced. -/

namespace TerminalCanvas.Memory.Store

open TerminalCanvas.Transaction

/-- No identifier an operation can draw names a memory yet. -/
def MemoryUndrawn (environment : Environment) (memories : Table String MemoryRecord) : Prop :=
  ∀ count, memories.find (prefixedId "mem_" (environment.draws count)) = none

/-- A status that an actor may give to a memory or take from it. -/
def MayDecide (actor : Actor) (status : MemoryStatus) : Prop :=
  status = .candidate ∨ status = .active ∧ actor.isHuman = true

/-- A row that a request may write: a fresh one of its content, or the withdrawal of
another row. -/
inductive MayRemember (actor : Actor) (content : String) (before : Tables)
    (row : MemoryRecord) : Prop
  | fresh (absent : before.memories.find row.id = none) (trust : row.trustClass = actor.trust)
      (content : row.content = content) (decides : MayDecide actor row.status)
  | supersedes {old : MemoryRecord} (found : before.memories.find row.id = some old)
      (superseded : row.status = .superseded) (decides : MayDecide actor old.status)

theorem mayDecide_desired (actor : Actor) : MayDecide actor (desiredStatus actor) := by
  cases human : actor.isHuman with
  | true => exact .inr ⟨by simp [desiredStatus, human], human⟩
  | false => exact .inl (by simp [desiredStatus, human])

/-- An operation makes a chain of allowed writes, in its own surroundings. -/
structure Makes (Allowed : Tables → MemoryRecord → Prop) (before after : Work) : Prop where
  stores : Stores Allowed before.tables after.tables
  environment : after.environment = before.environment

/-- The only active memory of a key that a write may meet is the one it replaces. -/
def OnlyActive (memories : Table String MemoryRecord) (kind : ScopeKind) (scopeId key id : String) :
    Prop :=
  ∀ other row, memories.find other = some row → HasKey kind scopeId key row →
    row.status = .active → other = id

section Writes

variable {work : Work} {actor : Actor} {content : String}

theorem drawn_absent {environment : Environment} {memories : Table String MemoryRecord}
    (undrawn : MemoryUndrawn environment memories) {id : String}
    (drawn : Drawn environment "mem_" id) : memories.find id = none := by
  obtain ⟨count, rfl⟩ := drawn
  exact undrawn count

theorem insertFresh_ensures {request : RememberRequest} {scopeId key : String}
    {status : MemoryStatus} (consistent : Consistent work.tables)
    (undrawn : MemoryUndrawn work.environment work.tables.memories)
    (decides : MayDecide request.actor status)
    (free : status = .active → ∀ id row, work.tables.memories.find id = some row →
      HasKey request.scope scopeId key row → row.status ≠ .active) :
    Ensures (insertFresh request scopeId key content status) work
      (fun _ next => Makes (MayRemember request.actor content) work next) NoRevisionClash := by
  rw [insertFresh]
  refine .seq nowSecs_ensures ?_
  intro now first ⟨same, environment⟩
  refine .seq (newPrefixedId_ensures _) ?_
  intro id second ⟨drawn, same', environment'⟩
  have unchanged : second.tables = work.tables := same'.trans same
  have absent : work.tables.memories.find id = none :=
    drawn_absent undrawn (environment ▸ drawn)
  have admissible : ∀ row : MemoryRecord, row.id = id → row.status = status →
      HasKey request.scope scopeId key row → Admissible work.tables row true := by
    rintro row rfl rfl ⟨kindIs, scopeIs, keyIs⟩
    refine .of_absent absent fun active => ?_
    rw [activeKeyTaken_eq_false]
    intro other stored found alsoActive sameRow
    have has := sameKey_iff.mp sameRow
    rw [kindIs, scopeIs, keyIs] at has
    exact absurd alsoActive (free active other stored found has)
  have admitted := admissible ⟨id, request.scope, scopeId, request.kind, key, status,
    request.actor.trust, content, 1, none, now, now⟩ rfl rfl ⟨rfl, rfl, rfl⟩
  refine persist_append (unchanged.symm ▸ consistent) (unchanged.symm ▸ admitted)
    (.of_absent (unchanged.symm ▸ absent)) ?_
  intro third logged environment''
  refine .seq (indexRetrievable_ensures _) ?_
  intro _ fourth ⟨indexed, environment₃⟩
  refine .seq (newPrefixedId_ensures _) ?_
  intro receipt fifth ⟨_, same₄, environment₄⟩
  rw [unchanged] at logged
  refine .pure ⟨?_, environment₄.trans (environment₃.trans
    (environment''.trans (environment'.trans environment)))⟩
  rw [same₄, indexed, logged.fts]
  exact Stores.start.stored (logged.stored (.of_absent absent)) admitted
    (.fresh absent rfl rfl decides)

theorem insertConflictCandidate_ensures {scopeId key : String} {scope : ScopeKind}
    {kind : MemoryKind} (consistent : Consistent work.tables)
    (undrawn : MemoryUndrawn work.environment work.tables.memories) :
    Ensures (insertConflictCandidate scopeId scope kind key content actor) work
      (fun _ next => Makes (MayRemember actor content) work next) NoRevisionClash := by
  rw [insertConflictCandidate]
  refine .seq nowSecs_ensures ?_
  intro now first ⟨same, environment⟩
  refine .seq (newPrefixedId_ensures _) ?_
  intro id second ⟨drawn, same', environment'⟩
  have unchanged : second.tables = work.tables := same'.trans same
  have absent : work.tables.memories.find id = none :=
    drawn_absent undrawn (environment ▸ drawn)
  have admitted : ∀ row : MemoryRecord, row.id = id → row.status = .candidate →
      Admissible work.tables row true := by
    rintro row rfl candidate
    exact .of_absent absent fun active => by simp [candidate] at active
  refine persist_append (unchanged.symm ▸ consistent) (unchanged.symm ▸ admitted _ rfl rfl)
    (.of_absent (unchanged.symm ▸ absent)) ?_
  intro third logged environment''
  rw [unchanged] at logged
  have stored := logged.stored (.of_absent absent)
  rw [if_neg (by simp), ← logged.fts] at stored
  exact .pure ⟨Stores.start.stored stored (admitted _ rfl rfl) (.fresh absent rfl rfl (.inl rfl)),
    environment''.trans (environment'.trans environment)⟩

theorem supersedeRow_ensures {existing : MemoryRecord} (consistent : Consistent work.tables)
    (undrawn : MemoryUndrawn work.environment work.tables.memories)
    (found : work.tables.memories.find existing.id = some existing)
    (decides : MayDecide actor existing.status)
    (only : OnlyActive work.tables.memories existing.scopeKind existing.scopeId
      existing.stableKey existing.id) :
    Ensures (supersedeRow existing content actor) work
      (fun _ next => Makes (MayRemember actor content) work next) NoRevisionClash := by
  rw [supersedeRow]
  refine .seq nowSecs_ensures ?_
  rintro now first ⟨same, environment⟩
  refine .seq (revisionAfter_ensures _ (fun clash => by cases clash)) ?_
  rintro nextRevision _ ⟨rfl, rfl⟩
  -- the row that is replaced
  have withdrawn : ∀ row : MemoryRecord,
      row = { existing with status := .superseded, updatedAt := now } →
      Admissible work.tables row false := by
    rintro row rfl
    refine ⟨?_, (by simp)⟩
    intro old present
    rw [found] at present
    cases present
    exact ⟨Nat.le_refl _, (by simp)⟩
  refine .seq (persistMemory_whole (same.symm ▸ withdrawn _ rfl) ?_) ?_
  · intro old present
    rw [same, found] at present
    cases present
    rfl
  rintro _ second ⟨stored, environment'⟩
  refine .seq (deleteFts_ensures _) ?_
  rintro _ third ⟨dropped, environment''⟩
  rw [stored, same] at dropped
  have replaced : Stored work.tables third.tables
      { existing with status := .superseded, updatedAt := now } false := by
    rw [dropped]
    exact ⟨rfl, .dropped (by simp), rfl, ⟨rfl, rfl, rfl, rfl⟩⟩
  have behind := consistent.stored replaced (withdrawn _ rfl)
  have first_ : Stores (MayRemember actor content) work.tables third.tables :=
    Stores.start.stored replaced (withdrawn _ rfl) (.supersedes found rfl decides)
  -- its successor
  refine .seq (newPrefixedId_ensures _) ?_
  rintro id fourth ⟨drawn, same', environment₃⟩
  have fresh : work.tables.memories.find id = none := by
    rw [environment'', environment', environment] at drawn
    exact drawn_absent undrawn drawn
  have different : id ≠ existing.id := by
    rintro rfl
    rw [found] at fresh
    cases fresh
  have absent : third.tables.memories.find id = none := by
    rw [replaced.memories, Table.find_put_of_ne _ _ different]
    exact fresh
  have admissible : ∀ row : MemoryRecord, row.id = id →
      HasKey existing.scopeKind existing.scopeId existing.stableKey row →
      Admissible third.tables row true := by
    rintro row rfl ⟨kindIs, scopeIs, keyIs⟩
    refine .of_absent absent fun active => ?_
    rw [activeKeyTaken_eq_false]
    intro other old present alsoActive sameRow
    have has := sameKey_iff.mp sameRow
    rw [kindIs, scopeIs, keyIs] at has
    rw [replaced.memories, Table.find_put] at present
    split at present
    · cases present
      cases alsoActive
    · next another => exact absurd (only other old present has alsoActive) another
  have admitted := admissible { existing with
    id := id
    content := content
    status := if actor.isHuman then .active else .candidate
    trustClass := actor.trust
    currentRevision := existing.currentRevision + 1
    createdAt := now
    updatedAt := now } rfl ⟨rfl, rfl, rfl⟩
  refine persist_append (same'.symm ▸ behind) (same'.symm ▸ admitted)
    (.of_absent (same'.symm ▸ absent)) ?_
  intro fifth logged environment₄
  rw [same'] at logged
  refine .seq (indexRetrievable_ensures _) ?_
  rintro _ sixth ⟨indexed, environment₅⟩
  refine .pure ⟨?_, environment₅.trans (environment₄.trans (environment₃.trans
    (environment''.trans (environment'.trans environment))))⟩
  rw [indexed, logged.fts]
  exact first_.stored (logged.stored (.of_absent absent)) admitted
    (.fresh absent rfl rfl (mayDecide_desired actor))

theorem rememberOver_ensures {request : RememberRequest} {scopeId key : String}
    {existing : MemoryRecord} (consistent : Consistent work.tables)
    (undrawn : MemoryUndrawn work.environment work.tables.memories)
    (current : existing.status = .active ∨ existing.status = .candidate)
    (has : HasKey request.scope scopeId key existing)
    (found : work.tables.memories.find existing.id = some existing)
    (latest : existing.status ≠ .active → ∀ id other,
      work.tables.memories.find id = some other → HasKey request.scope scopeId key other →
      other.status ≠ .active) :
    Ensures (rememberOver request scopeId key content existing) work
      (fun _ next => Makes (MayRemember request.actor content) work next) NoRevisionClash := by
  have unchanged : ∀ next : Work, Leaves work next work.tables →
      Makes (MayRemember request.actor content) work next := by
    intro next ⟨same, environment⟩
    exact ⟨same.symm ▸ .start, environment⟩
  have deduped : Ensures (do
      let receipt ← newPrefixedId "rcp_"
      pure (.deduped ⟨existing, receipt, existing.currentRevision⟩ : WriteResult)) work
      (fun _ next => Makes (MayRemember request.actor content) work next) NoRevisionClash := by
    refine .seq (newPrefixedId_ensures _) ?_
    intro _ next ⟨_, leaves⟩
    exact .pure (unchanged next leaves)
  have conflict : Ensures (do
      let inserted ← insertConflictCandidate scopeId request.scope request.kind key content
        request.actor
      pure (.conflict ⟨existing, content, some inserted.id⟩ : WriteResult)) work
      (fun _ next => Makes (MayRemember request.actor content) work next) NoRevisionClash := by
    refine .seq (insertConflictCandidate_ensures consistent undrawn) ?_
    intro _ next makes
    exact .pure makes
  simp only [rememberOver]
  split
  · next gone =>
      simp only [Bool.or_eq_true, decide_eq_true_eq] at gone
      rcases current with status | status <;> simp [status] at gone
  split
  · exact deduped
  split
  · split
    · exact deduped
    · exact conflict
  next authority =>
  split
  · split
    · exact .pure (unchanged work ⟨rfl, rfl⟩)
    · exact conflict
  have decides : MayDecide request.actor existing.status := by
    rcases current with active | candidate
    · exact .inr ⟨active, by simpa [active] using authority⟩
    · exact .inl candidate
  have only : OnlyActive work.tables.memories existing.scopeKind existing.scopeId
      existing.stableKey existing.id := by
    intro other row present hasKey active
    by_cases own : existing.status = .active
    · exact consistent.activeKeys other existing.id row existing present found active own
        (sameKey_iff.mpr hasKey)
    · rw [has.1, has.2.1, has.2.2] at hasKey
      exact absurd active (latest own other row present hasKey)
  refine .seq (supersedeRow_ensures consistent undrawn found decides only) ?_
  intro updated first makes
  refine .seq (newPrefixedId_ensures _) ?_
  intro receipt second ⟨_, same, environment⟩
  exact .pure ⟨same.symm ▸ makes.stores, environment.trans makes.environment⟩

theorem Leaves.sameMemory {before after : Work} {projects : Table String ProjectRow}
    (leaves : Leaves before after { before.tables with projects := projects }) :
    SameMemory before.tables after.tables := by
  rw [leaves.tables]
  exact ⟨rfl, rfl, rfl⟩

theorem Leaves.sameMemory_tasks {before after : Work} {tasks : Table String TaskRow}
    (leaves : Leaves before after { before.tables with tasks := tasks }) :
    SameMemory before.tables after.tables := by
  rw [leaves.tables]
  exact ⟨rfl, rfl, rfl⟩

theorem rememberKeyed_ensures {request : RememberRequest} {scopeId key : String}
    (consistent : Consistent work.tables)
    (undrawn : MemoryUndrawn work.environment work.tables.memories) :
    Ensures (rememberKeyed request scopeId key content) work
      (fun _ next => Makes (MayRemember request.actor content) work next) NoRevisionClash := by
  rw [rememberKeyed]
  refine .ensure_bind (fun _ => nofun) fun _ => ?_
  refine .ensure_bind (fun _ => nofun) fun _ => ?_
  refine .ensure_bind (fun _ => nofun) fun _ => ?_
  refine .ensure_bind (fun _ => nofun) fun _ => ?_
  refine .seq (findLatestKey_ensures _ _ _) ?_
  rintro existing _ ⟨rfl, absent, chosen⟩
  cases existing with
  | none =>
      refine insertFresh_ensures consistent undrawn (mayDecide_desired _) ?_
      intro _ id row found has
      exact absent rfl id row found has
  | some existing =>
      obtain ⟨current, has, ⟨id, found⟩, latest⟩ := chosen existing rfl
      have own := consistent.ids id existing found
      exact rememberOver_ensures consistent undrawn current has (own ▸ found) latest

theorem rememberInner_ensures {policy : Policy} {request : RememberRequest}
    {location : ResolvedLocation} (consistent : Consistent work.tables)
    (undrawn : MemoryUndrawn work.environment work.tables.memories) :
    Ensures (rememberInner policy request location) work
      (fun _ next => Makes
        (MayRemember request.actor (policy.prepareContent request.content)) work next)
      NoRevisionClash := by
  rw [rememberInner]
  refine .seq (upsertProject_ensures location) ?_
  rintro project first ⟨projects, _, _, seen⟩
  refine .seq (upsertTask_ensures _ _ _) ?_
  rintro task second ⟨tasks, _, taken⟩
  have stores : Stores (MayRemember request.actor (policy.prepareContent request.content))
      work.tables second.tables :=
    (Stores.start.elsewhere seen.sameMemory).elsewhere taken.sameMemory_tasks
  have environment : second.environment = work.environment :=
    taken.environment.trans seen.environment
  have fresh : MemoryUndrawn second.environment second.tables.memories := by
    rw [environment, taken.sameMemory_tasks.memories, seen.sameMemory.memories]
    exact undrawn
  refine .ensure_bind (fun _ => nofun) fun _ => ?_
  refine (rememberKeyed_ensures (stores.consistent consistent) fresh).mono ?_
    fun _ fails => fails
  intro _ next makes
  exact ⟨stores.trans makes.stores, makes.environment.trans environment⟩

theorem saveReceipt_ensures (key : ReceiptKey) (fingerprint : String) (result : WriteResult) :
    Ensures (saveReceipt key fingerprint result) work
      (fun _ next => ∃ now, Leaves work next { work.tables with
        receipts := if (work.tables.receipts.find key).isSome then work.tables.receipts
          else work.tables.receipts.put key ⟨fingerprint, result, now⟩ }) NoRevisionClash := by
  rw [saveReceipt]
  refine .seq nowSecs_ensures ?_
  intro now first ⟨same, environment⟩
  refine (write_ensures _).mono ?_ fun _ fails => fails
  intro _ second ⟨written, environment'⟩
  rw [same] at written
  exact ⟨now, written, environment'.trans environment⟩

theorem rememberOnce_ensures {policy : Policy} {request : RememberRequest}
    {location : ResolvedLocation} {fingerprint : String} (consistent : Consistent work.tables)
    (undrawn : MemoryUndrawn work.environment work.tables.memories) :
    Ensures (rememberOnce policy request location fingerprint) work
      (fun _ next => Makes
        (MayRemember request.actor (policy.prepareContent request.content)) work next)
      NoRevisionClash := by
  rw [rememberOnce, loadReceipt]
  refine @Ensures.seq _ _ _ _ _ _ _ _ _ (fun _ next => next = work) ?_ ?_
  · apply read_bind
    cases work.tables.receipts.find (ReceiptKey.of request) with
    | none => exact .pure rfl
    | some receipt => exact .ensure_bind (fun _ => nofun) fun _ => .pure rfl
  rintro cached _ rfl
  cases cached with
  | some result => exact .pure ⟨.start, rfl⟩
  | none =>
      change Ensures (rememberAnew policy request location fingerprint) _ _ _
      rw [rememberAnew]
      refine .seq (rememberInner_ensures consistent undrawn) ?_
      intro result first makes
      refine .seq (saveReceipt_ensures _ _ _) ?_
      intro _ second ⟨now, saved, environment⟩
      refine .pure ⟨makes.stores.elsewhere ?_, environment.trans makes.environment⟩
      rw [saved]
      exact ⟨rfl, rfl, rfl⟩

end Writes

/-! ## Handoffs and visits -/

section Visits

variable {work : Work}

theorem handoffExpiry_ensures (now : Int) (ttl : Option Int) :
    Ensures (handoffExpiry now ttl) work (fun _ next => next = work) NoRevisionClash := by
  unfold handoffExpiry
  split
  · exact .pure rfl
  · split
    · exact .throw (fun clash => by cases clash)
    · split
      · exact .pure rfl
      · exact .throw (fun clash => by cases clash)

theorem handoffInner_ensures {policy : Policy} {request : HandoffRequest}
    {location : ResolvedLocation} {validated : Except String Unit} :
    Ensures (handoffInner policy request location validated) work
      (fun _ next => SameMemory work.tables next.tables) NoRevisionClash := by
  unfold handoffInner
  cases validated with
  | error reason => exact .throw nofun
  | ok =>
      refine .seq (upsertProject_ensures location) ?_
      rintro project first ⟨projects, _, _, seen⟩
      refine .seq (upsertTask_ensures _ _ _) ?_
      rintro task second ⟨tasks, _, taken⟩
      refine .seq nowSecs_ensures ?_
      intro now third ⟨same, _⟩
      refine .ensure_bind (fun _ => nofun) fun _ => ?_
      refine .ensure_bind (fun _ => nofun) fun _ => ?_
      refine .seq (handoffExpiry_ensures _ _) ?_
      rintro expiresAt third rfl
      refine .seq (newPrefixedId_ensures _) ?_
      intro id fourth ⟨_, same', _⟩
      apply read_bind
      refine .ensure_bind (fun _ => nofun) fun _ => ?_
      refine .seq (write_ensures _) ?_
      intro _ fifth ⟨written, _⟩
      have memory : SameMemory work.tables third.tables := by
        rw [same, taken.tables, seen.tables]
        exact ⟨rfl, rfl, rfl⟩
      refine .pure ?_
      rw [written, same']
      exact ⟨memory.memories, memory.revisions, memory.fts⟩

theorem visitInner_ensures {location : ResolvedLocation} {orchestratorTaskId : Option Uuid}
    {validated : Except String Unit} :
    Ensures (visitInner location orchestratorTaskId validated) work
      (fun _ next => SameMemory work.tables next.tables) NoRevisionClash := by
  unfold visitInner
  cases validated with
  | error reason => exact .throw nofun
  | ok =>
      refine .seq (upsertProject_ensures location) ?_
      rintro project first ⟨projects, _, _, seen⟩
      refine .seq (upsertTask_ensures _ _ _) ?_
      rintro task second ⟨tasks, _, taken⟩
      refine .pure ?_
      rw [taken.tables, seen.tables]
      exact ⟨rfl, rfl, rfl⟩

end Visits

end TerminalCanvas.Memory.Store
