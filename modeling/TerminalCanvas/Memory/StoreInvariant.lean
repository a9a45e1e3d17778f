import TerminalCanvas.Memory.StoreStatements

/-! # Keys, index and revisions of the memories

The three facts a write has to restore at once, and the writes that do. -/

namespace TerminalCanvas.Memory.Store

/-- The index holds one row for each active memory, with its key and content. -/
structure Indexed (memories : Table String MemoryRecord) (fts : List FtsRow) : Prop where
  rows : ∀ entry, entry ∈ fts ↔ ∃ row, memories.find entry.memoryId = some row ∧
    row.status = .active ∧ entry = ftsRow row
  once : (fts.map (·.memoryId)).Nodup

structure Consistent (tables : Tables) : Prop where
  ids : ∀ id row, tables.memories.find id = some row → row.id = id
  activeKeys : ∀ id other row stored, tables.memories.find id = some row →
    tables.memories.find other = some stored → row.status = .active → stored.status = .active →
    sameKey row stored = true → id = other
  indexed : Indexed tables.memories tables.fts
  bounded : ∀ id revision, tables.revisions.find id = some revision →
    ∃ row, tables.memories.find revision.memoryId = some row ∧
      revision.revision ≤ row.currentRevision
  distinct : ∀ id other revision stored, tables.revisions.find id = some revision →
    tables.revisions.find other = some stored → revision.memoryId = stored.memoryId →
    revision.revision = stored.revision → id = other

theorem Consistent.empty : Consistent .empty where
  ids := by
    intro id row found
    simp [Tables.empty] at found
  activeKeys := by
    intro id other row stored found
    simp [Tables.empty] at found
  indexed := ⟨by simp [Tables.empty], List.nodup_nil⟩
  bounded := by
    intro id revision found
    simp [Tables.empty] at found
  distinct := by
    intro id other revision stored found
    simp [Tables.empty] at found

/-! ## One write -/

inductive IndexChange (before : Tables) (row : MemoryRecord) : List FtsRow → Prop
  | dropped (inactive : row.status ≠ .active) :
      IndexChange before row (before.fts.filter (·.memoryId ≠ row.id))
  | replaced (active : row.status = .active) :
      IndexChange before row (before.fts.filter (·.memoryId ≠ row.id) ++ [ftsRow row])
  /-- The index already is as it has to be. -/
  | kept (agrees : ∀ old, before.memories.find row.id = some old → old.status = .active →
        row.status = .active ∧ ftsRow old = ftsRow row)
      (listed : row.status = .active →
        ∃ old, before.memories.find row.id = some old ∧ old.status = .active) :
      IndexChange before row before.fts

/-- Everything but memories, revisions and index. -/
structure SameElsewhere (before after : Tables) : Prop where
  projects : after.projects = before.projects
  tasks : after.tasks = before.tasks
  handoffs : after.handoffs = before.handoffs
  receipts : after.receipts = before.receipts

/-- A memory is stored with its place in the index, and a revision may be logged. -/
structure Stored (before after : Tables) (row : MemoryRecord) (logged : Bool) : Prop where
  memories : after.memories = before.memories.put row.id row
  index : IndexChange before row after.fts
  revisions : if logged then ∃ id revision, before.revisions.find id = none ∧
      LogsRevision row revision ∧ after.revisions = before.revisions.put id revision
    else after.revisions = before.revisions
  elsewhere : SameElsewhere before after

/-- A write that respects keys and revisions. -/
structure Admissible (before : Tables) (row : MemoryRecord) (logged : Bool) : Prop where
  advances : ∀ old, before.memories.find row.id = some old →
    old.currentRevision ≤ row.currentRevision ∧
      (logged = true → old.currentRevision < row.currentRevision)
  free : row.status = .active → activeKeyTaken before.memories row.id row = false

variable {before after : Tables} {row : MemoryRecord} {logged : Bool}

theorem Indexed.change (consistent : Consistent before) {fts : List FtsRow}
    (change : IndexChange before row fts) :
    Indexed (before.memories.put row.id row) fts := by
  have indexed := consistent.indexed
  cases change with
  | dropped inactive =>
      refine ⟨?_, (indexed.once.sublist (List.filter_sublist.map _))⟩
      intro entry
      rw [List.mem_filter, indexed.rows, Table.find_put]
      by_cases own : entry.memoryId = row.id
      · simp [own, inactive]
      · simp [own]
  | replaced active =>
      refine ⟨?_, ?_⟩
      · intro entry
        rw [List.mem_append, List.mem_filter, indexed.rows, Table.find_put,
          List.mem_singleton]
        by_cases own : entry.memoryId = row.id
        · simp [own, active]
        · have other : entry ≠ ftsRow row := by
            rintro rfl
            exact own rfl
          simp [own, other]
      · rw [List.map_append]
        refine List.Nodup.append (indexed.once.sublist (List.filter_sublist.map _))
          (List.nodup_singleton _) ?_
        intro id listed own
        obtain ⟨entry, member, rfl⟩ := List.mem_map.mp listed
        have different := (List.mem_filter.mp member).2
        simp only [List.map_cons, List.map_nil, List.mem_singleton] at own
        simp [own, ftsRow] at different
  | kept agrees listed =>
      refine ⟨?_, indexed.once⟩
      intro entry
      rw [indexed.rows, Table.find_put]
      by_cases own : entry.memoryId = row.id
      · rw [if_pos own, own]
        constructor
        · rintro ⟨old, found, active, rfl⟩
          obtain ⟨stays, equal⟩ := agrees old found active
          exact ⟨row, rfl, stays, equal⟩
        · rintro ⟨_, equal, active, rfl⟩
          cases equal
          obtain ⟨old, found, was⟩ := listed active
          exact ⟨old, found, was, (agrees old found was).2.symm⟩
      · rw [if_neg own]

theorem Consistent.unlogged (consistent : Consistent before)
    (admissible : Admissible before row true) :
    revisionTaken before.revisions row.id row.currentRevision = false := by
  rw [revisionTaken_eq_false]
  intro id revision found memory same
  obtain ⟨old, stored, bound⟩ := consistent.bounded id revision found
  rw [memory] at stored
  have later := (admissible.advances old stored).2 rfl
  omega

theorem Consistent.stored (consistent : Consistent before) (stored : Stored before after row logged)
    (admissible : Admissible before row logged) : Consistent after where
  ids := by
    intro id found present
    rw [stored.memories, Table.find_put] at present
    split at present
    · next same =>
        cases present
        exact same.symm
    · exact consistent.ids id found present
  activeKeys := by
    intro id other first second found present active alsoActive same
    have free : ∀ {id : String} {old : MemoryRecord}, before.memories.find id = some old →
        old.status = .active → row.status = .active → sameKey old row = true → id = row.id :=
      fun found active fresh same =>
        activeKeyTaken_eq_false.mp (admissible.free fresh) _ _ found active same
    have symmetric : ∀ {left right : MemoryRecord}, sameKey left right = true →
        sameKey right left = true := by
      intro left right same
      obtain ⟨kind, scope, key⟩ := sameKey_iff.mp same
      exact sameKey_iff.mpr ⟨kind.symm, scope.symm, key.symm⟩
    rw [stored.memories, Table.find_put] at found present
    split at found
    · next own =>
        cases found
        split at present
        · next alsoOwn => exact own.trans alsoOwn.symm
        · exact own.trans (free present alsoActive active (symmetric same)).symm
    · split at present
      · next own =>
          cases present
          exact (free found active alsoActive same).trans own.symm
      · exact consistent.activeKeys id other first second found present active alsoActive same
  indexed := by
    rw [stored.memories]
    exact .change consistent stored.index
  bounded := by
    have grows : ∀ memoryId old, before.memories.find memoryId = some old →
        ∃ new, after.memories.find memoryId = some new ∧
          old.currentRevision ≤ new.currentRevision := by
      intro memoryId old found
      rw [stored.memories, Table.find_put]
      split
      · next same => exact ⟨row, rfl, (admissible.advances old (same ▸ found)).1⟩
      · exact ⟨old, found, Nat.le_refl _⟩
    have older : ∀ id revision, before.revisions.find id = some revision →
        ∃ new, after.memories.find revision.memoryId = some new ∧
          revision.revision ≤ new.currentRevision := by
      intro id revision found
      obtain ⟨old, present, bound⟩ := consistent.bounded id revision found
      obtain ⟨new, stays, more⟩ := grows _ old present
      exact ⟨new, stays, Nat.le_trans bound more⟩
    intro id revision found
    have revisions := stored.revisions
    split at revisions
    · obtain ⟨fresh, written, _, logs, equal⟩ := revisions
      rw [equal, Table.find_put] at found
      split at found
      · cases found
        refine ⟨row, ?_, Nat.le_of_eq logs.revision⟩
        rw [logs.memoryId, stored.memories, Table.find_put_self]
      · exact older id revision found
    · rw [revisions] at found
      exact older id revision found
  distinct := by
    intro id other first second found present memory revision
    have revisions := stored.revisions
    split at revisions
    · next isLogged =>
        obtain ⟨fresh, written, unused, logs, equal⟩ := revisions
        rw [isLogged] at admissible
        have untaken := revisionTaken_eq_false.mp (consistent.unlogged admissible)
        rw [equal, Table.find_put] at found present
        split at found
        · next own =>
            cases found
            split at present
            · next alsoOwn => exact own.trans alsoOwn.symm
            · exact absurd (revision.symm.trans logs.revision)
                (untaken other second present (memory.symm.trans logs.memoryId))
        · split at present
          · cases present
            exact absurd (revision.trans logs.revision)
              (untaken id first found (memory.trans logs.memoryId))
          · exact consistent.distinct id other first second found present memory revision
    · rw [revisions] at found present
      exact consistent.distinct id other first second found present memory revision

/-! ## Chains of writes -/

structure SameMemory (before after : Tables) : Prop where
  memories : after.memories = before.memories
  revisions : after.revisions = before.revisions
  fts : after.fts = before.fts

theorem SameMemory.consistent (same : SameMemory before after) (consistent : Consistent before) :
    Consistent after where
  ids := by
    rw [same.memories]
    exact consistent.ids
  activeKeys := by
    rw [same.memories]
    exact consistent.activeKeys
  indexed := by
    rw [same.memories, same.fts]
    exact consistent.indexed
  bounded := by
    rw [same.memories, same.revisions]
    exact consistent.bounded
  distinct := by
    rw [same.revisions]
    exact consistent.distinct

/-- Tables that admissible writes of allowed rows lead to, between changes of the
other tables. -/
inductive Stores (Allowed : Tables → MemoryRecord → Prop) (start : Tables) : Tables → Prop
  | start : Stores Allowed start start
  | elsewhere {middle after : Tables} (made : Stores Allowed start middle)
      (same : SameMemory middle after) : Stores Allowed start after
  | stored {middle after : Tables} {row : MemoryRecord} {logged : Bool}
      (made : Stores Allowed start middle) (write : Stored middle after row logged)
      (admissible : Admissible middle row logged) (allowed : Allowed middle row) :
      Stores Allowed start after

namespace Stores

variable {Allowed : Tables → MemoryRecord → Prop} {start : Tables}

theorem induct (made : Stores Allowed start after) (Property : Tables → Prop)
    (same : ∀ middle after, SameMemory middle after → Property middle → Property after)
    (writes : ∀ middle after row logged, Consistent middle → Stored middle after row logged →
      Admissible middle row logged → Allowed middle row → Property middle → Property after)
    (consistent : Consistent start) (holds : Property start) :
    Consistent after ∧ Property after := by
  induction made with
  | start => exact ⟨consistent, holds⟩
  | elsewhere _ unchanged induction =>
      exact ⟨unchanged.consistent induction.1, same _ _ unchanged induction.2⟩
  | stored _ write admissible allowed induction =>
      exact ⟨induction.1.stored write admissible,
        writes _ _ _ _ induction.1 write admissible allowed induction.2⟩

theorem consistent (made : Stores Allowed start after) (consistent : Consistent start) :
    Consistent after :=
  (made.induct (fun _ => True) (fun _ _ _ _ => trivial) (fun _ _ _ _ _ _ _ _ _ => trivial)
    consistent trivial).1

theorem mono {Laxer : Tables → MemoryRecord → Prop} (made : Stores Allowed start after)
    (allows : ∀ before row, Allowed before row → Laxer before row) :
    Stores Laxer start after := by
  induction made with
  | start => exact .start
  | elsewhere _ unchanged induction => exact induction.elsewhere unchanged
  | stored _ write admissible allowed induction =>
      exact induction.stored write admissible (allows _ _ allowed)

theorem trans {middle : Tables} (first : Stores Allowed start middle)
    (second : Stores Allowed middle after) : Stores Allowed start after := by
  induction second with
  | start => exact first
  | elsewhere _ unchanged induction => exact induction.elsewhere unchanged
  | stored _ write admissible allowed induction =>
      exact induction.stored write admissible allowed

end Stores

end TerminalCanvas.Memory.Store
