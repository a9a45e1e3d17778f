import TerminalCanvas.Foundation.Ensures
import TerminalCanvas.Memory.Store

/-! # What the statements of the store ensure

One lemma for each statement: the tables it leaves, and the errors it can report. -/

namespace TerminalCanvas.Memory.Store

open TerminalCanvas.Transaction

/-! ## Queries -/

section Queries

variable {Row : Type}

theorem mem_rows {environment : Environment} {table : Table String Row} {property : Row → Bool}
    {entry : String × Row} :
    entry ∈ environment.rows table property ↔
      table.find entry.1 = some entry.2 ∧ property entry.2 = true := by
  rw [Environment.rows, List.mem_filterMap]
  constructor
  · rintro ⟨key, _, chosen⟩
    obtain ⟨row, filtered, rfl⟩ := Option.map_eq_some_iff.mp chosen
    exact Option.filter_eq_some_iff.mp filtered
  · intro ⟨found, holds⟩
    refine ⟨entry.1, ?_, ?_⟩
    · exact (environment.arranged table.keys).mem_iff.mpr (Table.mem_keys_iff.mpr ⟨_, found⟩)
    · rw [Option.filter_eq_some_iff.mpr ⟨found, holds⟩]
      rfl

theorem rows_nodup (environment : Environment) (table : Table String Row)
    (property : Row → Bool) : ((environment.rows table property).map (·.1)).Nodup := by
  have keys : ((environment.rows table property).map (·.1)).Sublist
      (environment.arrange table.keys) := by
    rw [Environment.rows, List.map_filterMap]
    induction environment.arrange table.keys with
    | nil => exact List.Sublist.slnil
    | cons key keys induction =>
        rw [List.filterMap_cons]
        cases (table.find key).filter property with
        | none => exact induction.cons key
        | some row => exact induction.cons_cons key
  exact keys.nodup ((environment.arranged table.keys).nodup_iff.mpr (AList.keys_nodup table))

theorem head_rows_eq_none {environment : Environment} {table : Table String Row}
    {property : Row → Bool} (none_ : (environment.rows table property).head? = none)
    {key : String} {row : Row} (found : table.find key = some row) : property row = false := by
  rw [List.head?_eq_none_iff] at none_
  by_contra holds
  have member : (key, row) ∈ environment.rows table property :=
    mem_rows.mpr ⟨found, by simpa using holds⟩
  rw [none_] at member
  cases member

theorem head_rows_eq_some {environment : Environment} {table : Table String Row}
    {property : Row → Bool} {entry : String × Row}
    (first : (environment.rows table property).head? = some entry) :
    table.find entry.1 = some entry.2 ∧ property entry.2 = true :=
  mem_rows.mp (List.mem_of_head? first)

/-! ### The first row of an order -/

theorem foldl_better {before : Row → Row → Bool} (rows : List Row) (best : Option Row) :
    (rows.foldl (better before) best = none ↔ best = none ∧ rows = []) ∧
      ∀ chosen, rows.foldl (better before) best = some chosen →
        best = some chosen ∨ chosen ∈ rows := by
  induction rows generalizing best with
  | nil => exact ⟨by simp, fun chosen equal => .inl equal⟩
  | cons row rows induction =>
      rw [List.foldl_cons]
      obtain ⟨empty, member⟩ := induction (better before best row)
      refine ⟨?_, ?_⟩
      · rw [empty]
        cases best with
        | none => simp [better]
        | some old => by_cases earlier : before row old = true <;> simp [better, earlier]
      · intro chosen equal
        rcases member chosen equal with kept | later
        · cases best with
          | none =>
              cases kept
              exact .inr (by simp)
          | some old =>
              rw [better] at kept
              split at kept
              · cases kept
                exact .inr (by simp)
              · exact .inl kept
        · exact .inr (by simp [later])

theorem firstBy_eq_none {before : Row → Row → Bool} {rows : List Row} :
    firstBy before rows = none ↔ rows = [] := by
  rw [firstBy, (foldl_better rows none).1]
  simp

theorem firstBy_mem {before : Row → Row → Bool} {rows : List Row} {chosen : Row}
    (first : firstBy before rows = some chosen) : chosen ∈ rows := by
  rcases (foldl_better rows none).2 chosen first with never | member
  · cases never
  · exact member

theorem firstBy_preferred {before : Row → Row → Bool} {preferred : Row → Bool}
    (first : ∀ row other, preferred row = true → preferred other = false →
      before row other = true)
    (keeps : ∀ row other, before row other = true → preferred other = true →
      preferred row = true)
    {rows : List Row} {chosen : Row} (result : firstBy before rows = some chosen)
    (exists_ : ∃ row ∈ rows, preferred row = true) : preferred chosen = true := by
  have fold : ∀ (rows : List Row) (best : Option Row) (chosen : Row),
      rows.foldl (better before) best = some chosen →
      (∃ row, (best = some row ∨ row ∈ rows) ∧ preferred row = true) →
      preferred chosen = true := by
    intro rows
    induction rows with
    | nil =>
        rintro best chosen equal ⟨row, same | member, holds⟩
        · rw [same] at equal
          cases equal
          exact holds
        · cases member
    | cons row rows induction =>
        rintro best chosen equal ⟨other, place, holds⟩
        rw [List.foldl_cons] at equal
        apply induction _ chosen equal
        by_cases tail : other ∈ rows
        · exact ⟨other, .inr tail, holds⟩
        cases best with
        | none =>
            rcases place with never | member
            · cases never
            · rcases List.mem_cons.mp member with rfl | later
              · exact ⟨other, .inl rfl, holds⟩
              · exact absurd later tail
        | some old =>
            rw [better]
            split
            · next earlier =>
                refine ⟨row, .inl rfl, ?_⟩
                rcases place with same | member
                · cases same
                  exact keeps row other earlier holds
                · rcases List.mem_cons.mp member with rfl | later
                  · exact holds
                  · exact absurd later tail
            · next kept =>
                refine ⟨old, .inl rfl, ?_⟩
                rcases place with same | member
                · cases same
                  exact holds
                · rcases List.mem_cons.mp member with rfl | later
                  · by_contra unpreferred
                    exact kept (first other old holds (by simpa using unpreferred))
                  · exact absurd later tail
  obtain ⟨row, member, holds⟩ := exists_
  exact fold rows none chosen result ⟨row, .inr member, holds⟩

end Queries

/-! ## Statements -/

/-- A statement leaves some tables, in the same surroundings. -/
structure Leaves (before after : Work) (tables : Tables) : Prop where
  tables : after.tables = tables
  environment : after.environment = before.environment

def Drawn (environment : Environment) (start id : String) : Prop :=
  ∃ count, id = prefixedId start (environment.draws count)

theorem Drawn.named {environment : Environment} {id : String}
    (drawn : Drawn environment "prj_" id) : id ≠ "" := by
  obtain ⟨count, rfl⟩ := drawn
  intro empty
  have length := congrArg String.length empty
  rw [prefixedId, String.length_append] at length
  exact absurd length (by simp)

section Statements

variable {work : Work} {failure : StoreError → Prop}

theorem newPrefixedId_ensures (start : String) :
    Ensures (newPrefixedId start) work
      (fun id next => Drawn work.environment start id ∧ Leaves work next work.tables) failure :=
  ⟨⟨work.drawn, rfl⟩, rfl, rfl⟩

theorem nowSecs_ensures :
    Ensures nowSecs work (fun _ next => Leaves work next work.tables) failure :=
  ⟨rfl, rfl⟩

theorem write_ensures (change : Tables → Tables) :
    Ensures (write change) work (fun _ next => Leaves work next (change work.tables)) failure :=
  ⟨rfl, rfl⟩

theorem read_bind {Result Answer : Type} {question : Tables → Result}
    {rest : Result → Tx Answer} {success : Answer → Work → Prop}
    (continues : Ensures (rest (question work.tables)) work success failure) :
    Ensures (read question >>= rest) work success failure := ⟨continues.outcome⟩

theorem select_bind {Row Answer : Type} {table : Tables → Table String Row}
    {property : Row → Bool} {rest : List (String × Row) → Tx Answer}
    {success : Answer → Work → Prop}
    (continues : Ensures (rest (work.environment.rows (table work.tables) property)) work success
      failure) :
    Ensures (select table property >>= rest) work success failure := ⟨continues.outcome⟩

theorem revisionAfter_ensures (current : Nat)
    (overflows : failure (.message "la memoria alcanzó el máximo de revisiones")) :
    Ensures (revisionAfter current) work (fun next after => next = current + 1 ∧ after = work)
      failure := by
  rw [revisionAfter]
  split
  · next following fits => exact .pure ⟨(checkedAddU32_eq_some.mp fits).2, rfl⟩
  · exact .throw overflows

theorem activeKeyTaken_eq_false {memories : Table String MemoryRecord} {id : String}
    {row : MemoryRecord} :
    activeKeyTaken memories id row = false ↔
      ∀ other stored, memories.find other = some stored → stored.status = .active →
        sameKey stored row = true → other = id := by
  rw [activeKeyTaken, List.any_eq_false]
  constructor
  · intro free other stored found active same
    by_contra different
    have taken := free _ (Table.find_eq_some_iff.mp found)
    simp [different, active, same] at taken
  · intro free entry member taken
    simp only [ne_eq, Bool.and_eq_true, decide_eq_true_eq] at taken
    exact taken.1.1 (free entry.1 entry.2 (Table.find_eq_some_iff.mpr member) taken.1.2 taken.2)

theorem storeMemory_ensures {id : String} {row : MemoryRecord}
    (free : row.status = .active → activeKeyTaken work.tables.memories id row = false) :
    Ensures (storeMemory id row) work
      (fun _ next => Leaves work next
        { work.tables with memories := work.tables.memories.put id row }) failure := by
  rw [storeMemory]
  apply read_bind
  exact .ensure_bind (fun refused => absurd free refused) fun _ => write_ensures _

theorem revisionTaken_eq_false {revisions : Table String RevisionRow} {memoryId : String}
    {revision : Nat} :
    revisionTaken revisions memoryId revision = false ↔
      ∀ id row, revisions.find id = some row → row.memoryId = memoryId →
        row.revision ≠ revision := by
  rw [revisionTaken, List.any_eq_false]
  constructor
  · intro free id row found memory same
    have taken := free _ (Table.find_eq_some_iff.mp found)
    simp [memory, same] at taken
  · intro free entry member taken
    simp only [Bool.and_eq_true, decide_eq_true_eq] at taken
    exact free entry.1 entry.2 (Table.find_eq_some_iff.mpr member) taken.1 taken.2

structure LogsRevision (memory : MemoryRecord) (row : RevisionRow) : Prop where
  memoryId : row.memoryId = memory.id
  revision : row.revision = memory.currentRevision
  content : row.content = memory.content

theorem appendRevision_ensures {memory : MemoryRecord} {operation : String} {actor : Actor}
    (free : revisionTaken work.tables.revisions memory.id memory.currentRevision = false)
    (collides : failure (.constraint .revisionId)) :
    Ensures (appendRevision memory operation actor) work
      (fun _ next => ∃ id row, work.tables.revisions.find id = none ∧ LogsRevision memory row ∧
        Leaves work next { work.tables with revisions := work.tables.revisions.put id row })
      failure := by
  rw [appendRevision]
  refine .seq (newPrefixedId_ensures _) ?_
  intro id first ⟨_, same, environment⟩
  refine .seq nowSecs_ensures ?_
  intro now second ⟨tables, environment'⟩
  have unchanged : second.tables = work.tables := tables.trans same
  apply read_bind
  refine .ensure_bind (fun _ => collides) ?_
  intro unused
  apply read_bind
  rw [unchanged]
  refine .ensure_bind (fun taken => absurd free taken) ?_
  intro _
  refine (write_ensures _).mono ?_ fun _ fails => fails
  intro _ third ⟨written, environment''⟩
  rw [unchanged] at written unused
  exact ⟨id, _, by simpa using unused, ⟨rfl, rfl, rfl⟩, written,
    environment''.trans (environment'.trans environment)⟩

theorem deleteFts_ensures (memoryId : String) :
    Ensures (deleteFts memoryId) work
      (fun _ next => Leaves work next
        { work.tables with fts := work.tables.fts.filter (·.memoryId ≠ memoryId) }) failure :=
  write_ensures _

theorem upsertFts_ensures (memory : MemoryRecord) :
    Ensures (upsertFts memory) work
      (fun _ next => Leaves work next { work.tables with
        fts := work.tables.fts.filter (·.memoryId ≠ memory.id) ++ [ftsRow memory] }) failure :=
  ⟨rfl, rfl⟩

def HasKey (kind : ScopeKind) (scopeId key : String) (row : MemoryRecord) : Prop :=
  row.scopeKind = kind ∧ row.scopeId = scopeId ∧ row.stableKey = key

theorem sameKey_iff {left right : MemoryRecord} :
    sameKey left right = true ↔
      HasKey right.scopeKind right.scopeId right.stableKey left := by
  simp only [sameKey, HasKey, Bool.and_eq_true, decide_eq_true_eq, and_assoc]

theorem findActiveKey_ensures (kind : ScopeKind) (scopeId key : String) :
    Ensures (findActiveKey kind scopeId key) work
      (fun found next => next = work ∧
        (found = none → ∀ id row, work.tables.memories.find id = some row →
          HasKey kind scopeId key row → row.status ≠ .active) ∧
        ∀ row, found = some row → row.status = .active ∧ HasKey kind scopeId key row ∧
          ∃ id, work.tables.memories.find id = some row) failure := by
  rw [findActiveKey]
  apply select_bind
  refine .pure ⟨rfl, ?_, ?_⟩
  · intro none_ id row stored ⟨kindIs, scopeIs, keyIs⟩ active
    have excluded := head_rows_eq_none (Option.map_eq_none_iff.mp none_) stored
    simp [kindIs, scopeIs, keyIs, active] at excluded
  · intro row equal
    obtain ⟨entry, first, rfl⟩ := Option.map_eq_some_iff.mp equal
    obtain ⟨stored, chosen⟩ := head_rows_eq_some first
    simp only [Bool.and_eq_true, decide_eq_true_eq] at chosen
    exact ⟨chosen.2, ⟨chosen.1.1.1, chosen.1.1.2, chosen.1.2⟩, entry.1, stored⟩

theorem findLatestKey_ensures (kind : ScopeKind) (scopeId key : String) :
    Ensures (findLatestKey kind scopeId key) work
      (fun found next => next = work ∧
        (found = none → ∀ id row, work.tables.memories.find id = some row →
          HasKey kind scopeId key row → row.status ≠ .active) ∧
        ∀ row, found = some row →
          (row.status = .active ∨ row.status = .candidate) ∧ HasKey kind scopeId key row ∧
          (∃ id, work.tables.memories.find id = some row) ∧
          (row.status ≠ .active → ∀ id other, work.tables.memories.find id = some other →
            HasKey kind scopeId key other → other.status ≠ .active)) failure := by
  rw [findLatestKey]
  apply select_bind
  have listed : ∀ id row, work.tables.memories.find id = some row →
      HasKey kind scopeId key row → row.status = .active →
      (id, row) ∈ work.environment.rows work.tables.memories fun row =>
        row.scopeKind = kind && row.scopeId = scopeId && row.stableKey = key &&
          (row.status = .active || row.status = .candidate) := by
    intro id row stored ⟨kindIs, scopeIs, keyIs⟩ active
    exact mem_rows.mpr ⟨stored, by simp [kindIs, scopeIs, keyIs, active]⟩
  refine .pure ⟨rfl, ?_, ?_⟩
  · intro none_ id row stored has active
    have member := listed id row stored has active
    rw [firstBy_eq_none.mp (Option.map_eq_none_iff.mp none_)] at member
    cases member
  · intro row equal
    obtain ⟨entry, first, rfl⟩ := Option.map_eq_some_iff.mp equal
    obtain ⟨stored, chosen⟩ := mem_rows.mp (firstBy_mem first)
    simp only [Bool.and_eq_true, Bool.or_eq_true, decide_eq_true_eq] at chosen
    refine ⟨chosen.2, ⟨chosen.1.1.1, chosen.1.1.2, chosen.1.2⟩, ⟨entry.1, stored⟩, ?_⟩
    -- active rows come first
    intro candidate id other present has active
    have preferred := @firstBy_preferred _ laterMemory (fun entry => entry.2.status = .active)
      (by intro row other; simp +contextual [laterMemory])
      (by
        intro row other
        by_cases active : row.2.status = .active <;> simp +contextual [laterMemory, active])
      _ _ first ⟨(id, other), listed id other present has active, by simpa using active⟩
    exact candidate (by simpa using preferred)

theorem persistMemory_ensures {memory : MemoryRecord}
    (free : memory.status = .active → activeKeyTaken work.tables.memories memory.id
      (upserted memory (work.tables.memories.find memory.id)) = false) :
    Ensures (persistMemory memory) work
      (fun _ next => Leaves work next { work.tables with
        memories := work.tables.memories.put memory.id
          (upserted memory (work.tables.memories.find memory.id)) }) failure := by
  rw [persistMemory]
  apply read_bind
  apply storeMemory_ensures
  intro active
  apply free
  rw [← active]
  cases work.tables.memories.find memory.id <;> rfl

end Statements

end TerminalCanvas.Memory.Store
