import TerminalCanvas.Memory.StoreDecisions

/-! # Memories that change their scope

A scope is merged into another one memory by memory. An active memory whose key is
taken in the other scope becomes a candidate there; nothing else about it changes. -/

namespace TerminalCanvas.Memory.Store

open TerminalCanvas.Transaction

variable {work : Work} {kind : ScopeKind} {source target : String}

def KeyActive (memories : Table String MemoryRecord) (kind : ScopeKind) (scopeId key : String) :
    Prop :=
  ∃ id row, memories.find id = some row ∧ HasKey kind scopeId key row ∧ row.status = .active

inductive MayMove (before : Tables) (row : MemoryRecord) : Prop
  | moves {old : MemoryRecord} (found : before.memories.find row.id = some old)
      (same : SameText old row)
      (status : row.status = old.status ∨ old.status = .active ∧ row.status = .candidate)

/-- A memory in the scope it moves to, where some keys are taken. -/
structure Moved (memories : Table String MemoryRecord) (target : String)
    (old row : MemoryRecord) : Prop where
  text : SameText old row
  scopeId : row.scopeId = target
  collides : old.status = .active → KeyActive memories old.scopeKind target old.stableKey →
    row.status = .candidate
  otherwise : (old.status = .active →
    ¬ KeyActive memories old.scopeKind target old.stableKey) → row.status = old.status

theorem Moved.status {memories : Table String MemoryRecord} {old row : MemoryRecord}
    (moved : Moved memories target old row) :
    row.status = old.status ∨ old.status = .active ∧ row.status = .candidate ∧
      KeyActive memories old.scopeKind target old.stableKey := by
  by_cases taken : old.status = .active ∧
      KeyActive memories old.scopeKind target old.stableKey
  · exact .inr ⟨taken.1, moved.collides taken.1 taken.2, taken.2⟩
  · exact .inl (moved.otherwise fun active key => taken ⟨active, key⟩)

/-! ## One memory -/

theorem collides_ensures (memory : MemoryRecord) :
    Ensures (collides kind target memory) work
      (fun collision next => next = work ∧ (collision = true ↔ memory.status = .active ∧
        KeyActive work.tables.memories kind target memory.stableKey)) NoRevisionClash := by
  rw [collides]
  split
  · next active =>
      refine .seq (findActiveKey_ensures _ _ _) ?_
      rintro existing _ ⟨rfl, absent, chosen⟩
      refine .pure ⟨rfl, ?_⟩
      cases existing with
      | none =>
          refine ⟨nofun, ?_⟩
          rintro ⟨_, id, row, found, has, alsoActive⟩
          exact absurd alsoActive (absent rfl id row found has)
      | some row =>
          obtain ⟨alsoActive, has, id, found⟩ := chosen row rfl
          exact ⟨fun _ => ⟨active, id, row, found, has, alsoActive⟩, fun _ => rfl⟩
  · next inactive => exact .pure ⟨rfl, nofun, fun taken => absurd taken.1 inactive⟩

theorem updateMemory_ensures {memory old : MemoryRecord}
    (found : work.tables.memories.find memory.id = some old) (same : SameText old memory)
    (free : memory.status = .active →
      activeKeyTaken work.tables.memories memory.id memory = false) :
    Ensures (updateMemory memory) work
      (fun _ next => Leaves work next
        { work.tables with memories := work.tables.memories.put memory.id memory })
      NoRevisionClash := by
  rw [updateMemory]
  apply read_bind
  rw [found]
  have whole : { old with
      scopeId := memory.scopeId
      status := memory.status
      currentRevision := memory.currentRevision
      updatedAt := memory.updatedAt } = memory := by
    obtain ⟨id, scopeKind, kind, stableKey, trustClass, content, validUntil, createdAt⟩ := same
    cases memory
    cases old
    simp_all
  have ensures := @storeMemory_ensures work NoRevisionClash memory.id memory free
  simp only [whole]
  exact ensures

theorem moveMemory_ensures {memory : MemoryRecord} (consistent : Consistent work.tables)
    (found : work.tables.memories.find memory.id = some memory)
    (kindIs : memory.scopeKind = kind) :
    Ensures (moveMemory kind target memory) work
      (fun _ next => Makes MayMove work next ∧ SameElsewhere work.tables next.tables ∧
        ∃ row, Moved work.tables.memories target memory row ∧
          next.tables.memories = work.tables.memories.put memory.id row) NoRevisionClash := by
  subst kindIs
  rw [moveMemory]
  refine .seq (collides_ensures memory) ?_
  rintro collision work ⟨rfl, collides⟩
  refine .seq (dropFtsIf_ensures collision memory.id) ?_
  intro _ first ⟨dropped, environment⟩
  refine .seq (revisionAfter_ensures _ nofun) ?_
  rintro revision _ ⟨rfl, rfl⟩
  refine .seq nowSecs_ensures ?_
  intro now second ⟨same, environment'⟩
  rw [dropped] at same
  -- the row that is stored
  generalize rowIs : ({ memory with
    scopeId := target
    status := if collision then .candidate else memory.status
    currentRevision := memory.currentRevision + 1
    updatedAt := now } : MemoryRecord) = row
  have text : SameText memory row := by
    rw [← rowIs]
    exact ⟨rfl, rfl, rfl, rfl, rfl, rfl, rfl, rfl⟩
  have scopeId : row.scopeId = target := by rw [← rowIs]
  have status : row.status = if collision then .candidate else memory.status := by rw [← rowIs]
  have revision : row.currentRevision = memory.currentRevision + 1 := by rw [← rowIs]
  have foundRow : work.tables.memories.find row.id = some memory := text.id ▸ found
  have moved : Moved work.tables.memories target memory row := by
    refine ⟨text, scopeId, ?_, ?_⟩
    · intro active taken
      rw [status, collides.mpr ⟨active, taken⟩]
      rfl
    · intro free
      rw [status, if_neg]
      intro collision
      obtain ⟨active, taken⟩ := collides.mp collision
      exact free active taken
  have admitted : Admissible work.tables row true := by
    refine .of_found foundRow (by omega) fun active => ?_
    rw [activeKeyTaken_eq_false]
    intro other stored present alsoActive sameRow
    have has := sameKey_iff.mp sameRow
    rw [text.scopeKind, text.stableKey, scopeId] at has
    have was : memory.status = .active := by
      rcases moved.status with kept | ⟨_, candidate, _⟩
      · exact kept.symm.trans active
      · rw [candidate] at active
        cases active
    rw [moved.collides was ⟨other, stored, present, has, alsoActive⟩] at active
    cases active
  have update := @updateMemory_ensures second row memory
    (by rw [same]; exact foundRow) text (by rw [same]; exact admitted.free)
  refine .seq update ?_
  intro _ third ⟨written, environment''⟩
  rw [same] at written
  have untaken : revisionTaken third.tables.revisions row.id row.currentRevision = false := by
    rw [written]
    exact consistent.unlogged admitted
  refine (appendRevision_ensures untaken nofun).mono ?_ fun _ fails => fails
  intro _ fourth ⟨id, logged, unused, logs, tables, environment₃⟩
  rw [written] at unused tables
  have change : IndexChange work.tables row (if collision then
      work.tables.fts.filter (·.memoryId ≠ memory.id) else work.tables.fts) := by
    rw [← text.id]
    cases collision with
    | true =>
        refine .dropped ?_
        rw [status]
        nofun
    | false =>
        refine .kept ?_ ?_
        · intro old present active
          rw [foundRow] at present
          cases present
          exact ⟨status.trans active, by rw [ftsRow, ftsRow, text.id, text.content,
            text.stableKey]⟩
        · intro active
          exact ⟨memory, foundRow, status.symm.trans active⟩
  have stored : Stored work.tables fourth.tables row true := by
    rw [tables]
    exact ⟨rfl, change, ⟨id, logged, unused, logs, rfl⟩, ⟨rfl, rfl, rfl, rfl⟩⟩
  refine ⟨⟨Stores.start.stored stored admitted (.moves foundRow text ?_),
    environment₃.trans (environment''.trans (environment'.trans environment))⟩,
    stored.elsewhere, row, moved, ?_⟩
  · rcases moved.status with kept | ⟨active, candidate, _⟩
    · exact .inl kept
    · exact .inr ⟨active, candidate⟩
  · rw [← text.id]
    exact stored.memories

/-! ## One scope -/

def InScope (kind : ScopeKind) (scopeId : String) (row : MemoryRecord) : Prop :=
  row.scopeKind = kind ∧ row.scopeId = scopeId

/-- Every memory of one scope is in another one, and no other memory has changed. -/
structure MergedScope (kind : ScopeKind) (source target : String)
    (before after : Table String MemoryRecord) : Prop where
  moved : ∀ id old, before.find id = some old → InScope kind source old →
    ∃ row, after.find id = some row ∧ Moved before target old row
  others : ∀ id, (∀ old, before.find id = some old → ¬ InScope kind source old) →
    after.find id = before.find id

/-- While a scope is merged, the taken keys of the other one stay the same for the
memories that are still to come. -/
theorem keyActive_during {before now : Table String MemoryRecord} {memory : MemoryRecord}
    {id : String} (activeKeys : ∀ id other row stored, before.find id = some row →
      before.find other = some stored → row.status = .active → stored.status = .active →
      sameKey row stored = true → id = other)
    (distinct : source ≠ target) (found : before.find id = some memory)
    (scope : InScope kind source memory) (active : memory.status = .active)
    (others : ∀ other, (∀ old, before.find other = some old → ¬ InScope kind source old) →
      now.find other = before.find other)
    (progress : ∀ other old, before.find other = some old → InScope kind source old →
      now.find other = some old ∨
        other ≠ id ∧ ∃ row, now.find other = some row ∧ Moved before target old row) :
    KeyActive now kind target memory.stableKey ↔
      KeyActive before kind target memory.stableKey := by
  constructor
  · rintro ⟨other, row, present, has, alsoActive⟩
    by_cases mover : ∃ old, before.find other = some old ∧ InScope kind source old
    · obtain ⟨old, was, inside⟩ := mover
      rcases progress other old was inside with still | ⟨different, moved, at_, is⟩
      · -- a memory that still is in the old scope
        rw [still] at present
        cases present
        exact absurd (inside.2.symm.trans has.2.1) distinct
      · -- a memory that has moved had the same key in the old scope
        rw [at_] at present
        cases present
        have wasActive : old.status = .active := by
          rcases is.status with kept | ⟨was, _, _⟩
          · exact kept.symm.trans alsoActive
          · exact was
        have same : sameKey old memory = true := by
          rw [sameKey_iff, scope.1, scope.2]
          exact ⟨inside.1, inside.2, is.text.stableKey.symm.trans has.2.2⟩
        exact absurd (activeKeys other id old memory was found wasActive active same) different
    · rw [others other fun old was inside => mover ⟨old, was, inside⟩] at present
      exact ⟨other, row, present, has, alsoActive⟩
  · rintro ⟨other, row, present, has, alsoActive⟩
    refine ⟨other, row, ?_, has, alsoActive⟩
    rw [others other ?_]
    · exact present
    · intro old was inside
      rw [present] at was
      cases was
      exact distinct (inside.2.symm.trans has.2.1)

theorem Moved.transfer {before now : Table String MemoryRecord} {old row : MemoryRecord}
    (moved : Moved now target old row)
    (same : old.status = .active → (KeyActive now old.scopeKind target old.stableKey ↔
      KeyActive before old.scopeKind target old.stableKey)) : Moved before target old row where
  text := moved.text
  scopeId := moved.scopeId
  collides active taken := moved.collides active ((same active).mpr taken)
  otherwise free := moved.otherwise fun active taken => free active ((same active).mp taken)

/-- Some memories of a scope have moved, and the others are where they were. -/
structure Moving (kind : ScopeKind) (source target : String) (behind : List (String × MemoryRecord))
    (start now : Work) : Prop where
  makes : Makes MayMove start now
  elsewhere : SameElsewhere start.tables now.tables
  moved : ∀ entry ∈ behind, ∃ row, now.tables.memories.find entry.1 = some row ∧
    Moved start.tables.memories target entry.2 row
  others : ∀ id, id ∉ behind.map (·.1) →
    now.tables.memories.find id = start.tables.memories.find id

theorem SameElsewhere.trans {first second third : Tables} (left : SameElsewhere first second)
    (right : SameElsewhere second third) : SameElsewhere first third where
  projects := right.projects.trans left.projects
  tasks := right.tasks.trans left.tasks
  handoffs := right.handoffs.trans left.handoffs
  receipts := right.receipts.trans left.receipts

theorem Makes.trans {Allowed : Tables → MemoryRecord → Prop} {first second third : Work}
    (left : Makes Allowed first second) (right : Makes Allowed second third) :
    Makes Allowed first third :=
  ⟨left.stores.trans right.stores, right.environment.trans left.environment⟩

theorem mergeMemoryScope_ensures (distinct : source ≠ target)
    (consistent : Consistent work.tables) :
    Ensures (mergeMemoryScope kind source target) work
      (fun _ next => Makes MayMove work next ∧ SameElsewhere work.tables next.tables ∧
        MergedScope kind source target work.tables.memories next.tables.memories)
      NoRevisionClash := by
  rw [mergeMemoryScope]
  apply select_bind
  generalize listed : work.environment.rows work.tables.memories (fun row =>
    row.scopeKind = kind && row.scopeId = source) = entries
  have member : ∀ entry, entry ∈ entries ↔
      work.tables.memories.find entry.1 = some entry.2 ∧ InScope kind source entry.2 := by
    intro entry
    rw [← listed, mem_rows, Bool.and_eq_true, decide_eq_true_eq, decide_eq_true_eq]
    rfl
  have once : (entries.map (·.1)).Nodup := by
    rw [← listed]
    exact rows_nodup _ _ _
  refine .forM (fun behind _ next => Moving kind source target behind work next) entries ?_ ?_ ?_
  · exact ⟨⟨.start, rfl⟩, ⟨rfl, rfl, rfl, rfl⟩,
      fun entry never => absurd never List.not_mem_nil, fun _ _ => rfl⟩
  · intro behind entry ahead next whole moving
    have earlierIn : ∀ passed ∈ behind, passed ∈ entries := by
      intro passed place
      rw [← whole]
      exact List.mem_append_left _ place
    have ownIn : entry ∈ entries := by
      rw [← whole]
      exact List.mem_append_right _ List.mem_cons_self
    obtain ⟨found, scope⟩ := (member entry).mp ownIn
    rw [← whole, List.map_append, List.map_cons] at once
    have pending : entry.1 ∉ behind.map (·.1) := by
      intro earlier
      exact (List.nodup_append.mp once).2.2 entry.1 earlier entry.1 (by simp) rfl
    have named : entry.2.id = entry.1 := consistent.ids entry.1 entry.2 found
    have still : next.tables.memories.find entry.2.id = some entry.2 := by
      rw [named, moving.others entry.1 pending]
      exact found
    have taken : entry.2.status = .active →
        (KeyActive next.tables.memories kind target entry.2.stableKey ↔
          KeyActive work.tables.memories kind target entry.2.stableKey) := by
      intro active
      refine keyActive_during consistent.activeKeys distinct found scope active ?_ ?_
      · intro other outside
        apply moving.others
        intro earlier
        obtain ⟨passed, place, rfl⟩ := List.mem_map.mp earlier
        have inside := (member passed).mp (earlierIn passed place)
        exact outside passed.2 inside.1 inside.2
      · intro other old was inside
        by_cases earlier : other ∈ behind.map (·.1)
        · refine .inr ⟨fun same => pending (same ▸ earlier), ?_⟩
          obtain ⟨passed, place, rfl⟩ := List.mem_map.mp earlier
          have present := ((member passed).mp (earlierIn passed place)).1
          rw [was] at present
          cases present
          exact moving.moved passed place
        · exact .inl ((moving.others other earlier).trans was)
    refine (moveMemory_ensures (moving.makes.stores.consistent consistent) still scope.1).mono
      ?_ fun _ fails => fails
    rintro _ last ⟨makes, elsewhere, row, moved, memories⟩
    rw [named] at memories
    refine ⟨moving.makes.trans makes, moving.elsewhere.trans elsewhere, ?_, ?_⟩
    · intro passed place
      rcases List.mem_append.mp place with earlier | own
      · obtain ⟨old, present, was⟩ := moving.moved passed earlier
        refine ⟨old, ?_, was⟩
        rw [memories, Table.find_put_of_ne]
        · exact present
        · intro same
          exact pending (same ▸ List.mem_map.mpr ⟨passed, earlier, rfl⟩)
      · rw [List.mem_singleton] at own
        subst own
        refine ⟨row, ?_, moved.transfer fun active => ?_⟩
        · rw [memories, Table.find_put_self]
        · rw [scope.1]
          exact taken active
    · intro id outside
      rw [List.map_append, List.mem_append, not_or] at outside
      rw [memories, Table.find_put_of_ne _ _ (by simpa using outside.2)]
      exact moving.others id outside.1
  · intro next moving
    refine ⟨moving.makes, moving.elsewhere, ?_, ?_⟩
    · intro id old found scope
      exact moving.moved (id, old) ((member (id, old)).mpr ⟨found, scope⟩)
    · intro id outside
      apply moving.others
      intro listed
      obtain ⟨entry, place, rfl⟩ := List.mem_map.mp listed
      obtain ⟨found, scope⟩ := (member entry).mp place
      exact outside entry.2 found scope

end TerminalCanvas.Memory.Store
