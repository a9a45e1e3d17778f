import Mathlib.Data.String.Basic
import TerminalCanvas.Memory.ContextReads

/-! # Context packs

The active memories and the results of a search are ranked, and taken in that order as
long as the budget of the pack and the part of it for projects and users allow. -/

namespace TerminalCanvas.Memory

open Json (byteLength prettyMember prettyObject)

/-! ## Ranking -/

structure Ranked where
  memory : MemoryRecord
  score : Nat
  reason : String

def scopeScore : ScopeKind → Nat
  | .task => 40
  | .project => 30
  | .workspace => 20
  | .user => 10

/-- A query without white space around it, unless nothing is left. -/
def trimmedQuery (query : Option String) : Option String :=
  (query.map trim).filter (!·.isEmpty)

def rankMemory (query : Option String) (memory : MemoryRecord) : Ranked :=
  let score := scopeScore memory.scopeKind
  match query with
  | none => ⟨memory, score, "memoria activa del scope visible"⟩
  | some query =>
      if asciiLowercase memory.stableKey = asciiLowercase query then
        ⟨memory, score + 100, "coincidencia exacta: " ++ memory.stableKey⟩
      else if asciiLowercase query <:+: asciiLowercase memory.stableKey then
        ⟨memory, score + 50, "clave contiene " ++ query⟩
      else if asciiLowercase query <:+: asciiLowercase memory.content then
        ⟨memory, score + 20, "contenido contiene " ++ query⟩
      else
        ⟨memory, score, "memoria activa del scope visible"⟩

def rankMemories (active searched : List MemoryRecord) (query : Option String) : List Ranked :=
  (active ++ searched).map (rankMemory (trimmedQuery query))

/-- Higher scores first, equal scores by identifier. -/
def ranksBefore (left right : Ranked) : Bool :=
  right.score < left.score || (left.score = right.score && left.memory.id ≤ right.memory.id)

def toItem (memory : MemoryRecord) (reason : String) : ContextItem where
  citation := "TerminalCanvas memory " ++ memory.id ++ ", rev " ++ toString memory.currentRevision
  memoryId := memory.id
  kind := memory.kind
  scope := memory.scopeKind
  key := memory.stableKey
  content := memory.content
  source := memory.scopeKind.asStr ++ " / " ++ memory.trustClass.asStr
  reason := reason
  trust := memory.trustClass
  revision := memory.currentRevision

def Ranked.item (entry : Ranked) : ContextItem := toItem entry.memory entry.reason

/-! ## Filling -/

/-- The scopes that share a part of the budget. -/
def ScopeKind.isCore (scope : ScopeKind) : Bool := scope matches .project | .user

structure Filling where
  pack : ContextPack
  seen : List String
  coreUsed : Nat

def ContextPack.push (pack : ContextPack) (entry : Ranked) : ContextPack :=
  { pack with
    revisionCursor := max pack.revisionCursor entry.memory.currentRevision
    items := pack.items ++ [entry.item] }

/-- One round of the loop over the ranked memories. -/
def consider (filling : Filling) (entry : Ranked) : Filling :=
  if entry.memory.id ∈ filling.seen then
    filling
  else
    let filling := { filling with seen := entry.memory.id :: filling.seen }
    if entry.memory.status.isRetrievable = false then
      filling
    else
      let cost := contextItemCost entry.item
      let core := entry.memory.scopeKind.isCore
      if core = true ∧ coreTokenBudget < filling.coreUsed + cost ∧ entry.score < 100 then
        filling
      else if defaultTokenBudget < contextPackCost (filling.pack.push entry) then
        filling
      else
        { filling with
          pack := filling.pack.push entry
          coreUsed := if core then filling.coreUsed + cost else filling.coreUsed }

def fill (filling : Filling) : List Ranked → Filling
  | [] => filling
  | entry :: entries =>
      if maxContextItems ≤ filling.pack.items.length then
        filling
      else
        fill (consider filling entry) entries

/-! ## Building -/

/-- A transaction of a pack: the tables it finds, its surroundings and what the hook ledger
answers. -/
structure Visit where
  tables : Store.Tables
  world : Store.World
  validated : Except String Unit

section Building

open Store

def Visit.call {Answer : Type} (visit : Visit) (body : Except String Unit → Tx Answer) :
    Except StoreError Answer :=
  (transact visit.world (body visit.validated) visit.tables).1

def framedPack (loaded : VisibleActive) : ContextPack :=
  { ContextPack.empty loaded.project.canonicalId loaded.taskId with
    handoff := loaded.handoff.bind fitHandoffBudget }

def candidates (loaded : VisibleActive) (searched : List MemoryRecord) (query : Option String) :
    List Ranked :=
  (rankMemories loaded.active searched query).mergeSort ranksBefore

def filledPack (loaded : VisibleActive) (searched : List MemoryRecord) (query : Option String) :
    ContextPack :=
  let filled := (fill ⟨framedPack loaded, [], 0⟩ (candidates loaded searched query)).pack
  { filled with budgetUsed := contextPackCost filled }

variable (fullText : FullText) (location : ResolvedLocation) (query : Option String)
  (orchestratorTaskId workspaceId : Option Uuid)

/-- What is searched for a pack. Other processes may have written since the load. -/
def searchedFor (searches : Visit) : Except StoreError (List MemoryRecord) :=
  match trimmedQuery query with
  | some query => searches.call
      (searchForContext fullText location query orchestratorTaskId workspaceId)
  | none => .ok []

def buildContextPackGuarded (loads searches : Visit) : Except StoreError ContextPack := do
  let loaded ← loads.call (loadVisibleActive location orchestratorTaskId workspaceId)
  let searched ← searchedFor fullText location query orchestratorTaskId workspaceId searches
  pure (filledPack loaded searched query)

end Building

/-! ## One round -/

/-- What the core items of a pack have used of their part of the budget. -/
def coreCost (items : List ContextItem) : Nat :=
  ((items.filter (·.scope.isCore)).map contextItemCost).sum

/-- Why a pack has no place for a memory at its turn. -/
inductive Exceeds (pack : ContextPack) (entry : Ranked) : Prop where
  | items (full : maxContextItems ≤ pack.items.length)
  | core (scope : entry.memory.scopeKind.isCore = true)
      (cost : coreTokenBudget < coreCost pack.items + contextItemCost entry.item)
      (score : entry.score < 100)
  | budget (cost : defaultTokenBudget < contextPackCost (pack.push entry))

/-- Why a pack leaves a memory out at its turn. -/
def Refuses (pack : ContextPack) (entry : Ranked) : Prop :=
  entry.memory.status.isRetrievable = false ∨ Exceeds pack entry

/-- The core part of the budget is accounted for. -/
def Accounted (filling : Filling) : Prop := filling.coreUsed = coreCost filling.pack.items

inductive Considered (filling : Filling) (entry : Ranked) : Filling → Prop where
  | again (seen : entry.memory.id ∈ filling.seen) : Considered filling entry filling
  | refused (refuses : Refuses filling.pack entry) :
      Considered filling entry { filling with seen := entry.memory.id :: filling.seen }
  | taken {core : Nat} (unseen : entry.memory.id ∉ filling.seen)
      (retrievable : entry.memory.status.isRetrievable = true)
      (fits : contextPackCost (filling.pack.push entry) ≤ defaultTokenBudget)
      (accounted : core = coreCost (filling.pack.push entry).items) :
      Considered filling entry ⟨filling.pack.push entry, entry.memory.id :: filling.seen, core⟩

theorem coreCost_push (pack : ContextPack) (entry : Ranked) :
    coreCost (pack.push entry).items = coreCost pack.items +
      if entry.memory.scopeKind.isCore then contextItemCost entry.item else 0 := by
  rw [ContextPack.push, coreCost, coreCost, List.filter_append, List.map_append, List.sum_append]
  have scope : entry.item.scope = entry.memory.scopeKind := rfl
  cases core : entry.memory.scopeKind.isCore with
  | true => simp [scope, core]
  | false => simp [scope, core]

theorem consider_considered {filling : Filling} (accounted : Accounted filling) (entry : Ranked) :
    Considered filling entry (consider filling entry) := by
  unfold Accounted at accounted
  unfold consider
  split
  · next seen => exact .again seen
  next unseen =>
  simp only
  split
  · next inactive => exact .refused (.inl inactive)
  next retrievable =>
  split
  · next exceeds =>
      rw [accounted] at exceeds
      exact .refused (.inr (.core exceeds.1 exceeds.2.1 exceeds.2.2))
  split
  · next exceeds => exact .refused (.inr (.budget exceeds))
  next fits =>
  refine .taken unseen (by simpa using retrievable) (Nat.le_of_not_lt fits) ?_
  rw [coreCost_push, accounted]
  split
  · rfl
  · rfl

/-! ## The whole loop -/

def packBefore (start : Filling) (before : List Ranked) : ContextPack := (fill start before).pack

/-- Everything but items and cursor. -/
structure SameFrame (first second : ContextPack) : Prop where
  protocolVersion : second.protocolVersion = first.protocolVersion
  projectId : second.projectId = first.projectId
  taskId : second.taskId = first.taskId
  budgetRequested : second.budgetRequested = first.budgetRequested
  budgetUsed : second.budgetUsed = first.budgetUsed
  handoff : second.handoff = first.handoff

/-- A memory was refused at its turn, which was the turn of its identifier. -/
def LeftOut (start : Filling) (entries : List Ranked) (id : String) : Prop :=
  ∃ before turn rest, entries = before ++ turn :: rest ∧ turn.memory.id = id ∧
    Refuses (packBefore start before) turn

/-- What the loop makes of its candidates. -/
structure Fills (start : Filling) (entries taken : List Ranked) : Prop where
  order : taken.Sublist entries
  items : (fill start entries).pack.items = start.pack.items ++ taken.map Ranked.item
  fresh : ∀ entry ∈ taken, entry.memory.id ∉ start.seen
  distinct : (taken.map (·.memory.id)).Nodup
  retrievable : ∀ entry ∈ taken, entry.memory.status.isRetrievable = true
  room : start.pack.items.length ≤ maxContextItems →
    (fill start entries).pack.items.length ≤ maxContextItems
  frame : SameFrame start.pack (fill start entries).pack
  unchanged : taken = [] → (fill start entries).pack = start.pack
  cost : (fill start entries).pack = start.pack ∨
    contextPackCost (fill start entries).pack ≤ defaultTokenBudget
  leftOut : ∀ entry ∈ entries, entry.memory.id ∈ start.seen ∨
    (∃ other ∈ taken, other.memory.id = entry.memory.id) ∨ LeftOut start entries entry.memory.id

theorem fill_full {start : Filling} (full : maxContextItems ≤ start.pack.items.length)
    (entries : List Ranked) : fill start entries = start := by
  cases entries with
  | nil => rfl
  | cons entry entries => rw [fill, if_pos full]

theorem fill_open {start : Filling} (room : ¬ maxContextItems ≤ start.pack.items.length)
    (entry : Ranked) (entries : List Ranked) :
    fill start (entry :: entries) = fill (consider start entry) entries := by
  rw [fill, if_neg room]

theorem SameFrame.refl (pack : ContextPack) : SameFrame pack pack := ⟨rfl, rfl, rfl, rfl, rfl, rfl⟩

theorem LeftOut.behind {start : Filling} {entry : Ranked} {entries : List Ranked} {id : String}
    (room : ¬ maxContextItems ≤ start.pack.items.length)
    (leftOut : LeftOut (consider start entry) entries id) :
    LeftOut start (entry :: entries) id := by
  obtain ⟨before, turn, rest, rfl, same, refuses⟩ := leftOut
  refine ⟨entry :: before, turn, rest, rfl, same, ?_⟩
  rw [packBefore, fill_open room]
  exact refuses

theorem Fills.stopped {start : Filling} {entries : List Ranked} (same : fill start entries = start)
    (leftOut : ∀ entry ∈ entries, LeftOut start entries entry.memory.id) :
    Fills start entries [] where
  order := List.nil_sublist entries
  items := by rw [same, List.map_nil, List.append_nil]
  fresh := List.forall_mem_nil _
  distinct := List.nodup_nil
  retrievable := List.forall_mem_nil _
  room := by
    rw [same]
    exact id
  frame := by
    rw [same]
    exact .refl _
  unchanged := fun _ => by rw [same]
  cost := .inl (by rw [same])
  leftOut := fun entry member => .inr (.inr (leftOut entry member))

section Rounds

variable {start : Filling} {entry : Ranked} {entries taken : List Ranked}

theorem Fills.skip {seen : List String} (room : ¬ maxContextItems ≤ start.pack.items.length)
    (skips : consider start entry = { start with seen := seen })
    (keeps : ∀ id, id ∈ start.seen → id ∈ seen)
    (adds : ∀ id, id ∈ seen → id ∈ start.seen ∨ id = entry.memory.id)
    (own : entry.memory.id ∈ start.seen ∨ Refuses start.pack entry)
    (behind : Fills (consider start entry) entries taken) :
    Fills start (entry :: entries) taken := by
  have opened := fill_open room entry entries
  have first : entry.memory.id ∈ start.seen ∨ LeftOut start (entry :: entries) entry.memory.id :=
    own.imp_right fun refuses => ⟨[], entry, entries, rfl, rfl, refuses⟩
  refine
    { order := behind.order.cons entry
      items := by rw [opened, behind.items, skips]
      fresh := ?_
      distinct := behind.distinct
      retrievable := behind.retrievable
      room := ?_
      frame := ?_
      unchanged := ?_
      cost := ?_
      leftOut := ?_ }
  · intro other member seenBefore
    refine behind.fresh other member ?_
    rw [skips]
    exact keeps _ seenBefore
  · have kept := behind.room
    rw [opened]
    rw [skips] at kept ⊢
    exact kept
  · have kept := behind.frame
    rw [opened]
    rw [skips] at kept ⊢
    exact kept
  · have kept := behind.unchanged
    rw [opened]
    rw [skips] at kept ⊢
    exact kept
  · have kept := behind.cost
    rw [opened]
    rw [skips] at kept ⊢
    exact kept
  · intro other member
    rcases List.mem_cons.mp member with rfl | later
    · exact first.imp_right .inr
    · rcases behind.leftOut other later with seenNow | chosen | leftOut
      · rw [skips] at seenNow
        rcases adds _ seenNow with old | same
        · exact .inl old
        · rw [same]
          exact first.imp_right .inr
      · exact .inr (.inl chosen)
      · exact .inr (.inr (leftOut.behind room))

theorem Fills.take {core : Nat} (room : ¬ maxContextItems ≤ start.pack.items.length)
    (takes : consider start entry =
      ⟨start.pack.push entry, entry.memory.id :: start.seen, core⟩)
    (unseen : entry.memory.id ∉ start.seen)
    (retrievable : entry.memory.status.isRetrievable = true)
    (fits : contextPackCost (start.pack.push entry) ≤ defaultTokenBudget)
    (behind : Fills (consider start entry) entries taken) :
    Fills start (entry :: entries) (entry :: taken) := by
  have opened := fill_open room entry entries
  have fresh : ∀ other ∈ taken, other.memory.id ≠ entry.memory.id ∧
      other.memory.id ∉ start.seen := by
    intro other member
    have unknown := behind.fresh other member
    rw [takes] at unknown
    simpa using unknown
  refine
    { order := behind.order.cons_cons entry
      items := by
        rw [opened, behind.items, takes, List.map_cons, ContextPack.push, List.append_assoc]
        rfl
      fresh := ?_
      distinct := ?_
      retrievable := ?_
      room := ?_
      frame := ?_
      unchanged := nofun
      cost := .inr ?_
      leftOut := ?_ }
  · intro other member
    rcases List.mem_cons.mp member with rfl | later
    · exact unseen
    · exact (fresh other later).2
  · rw [List.map_cons, List.nodup_cons]
    refine ⟨?_, behind.distinct⟩
    intro again
    obtain ⟨other, member, same⟩ := List.mem_map.mp again
    exact (fresh other member).1 same
  · intro other member
    rcases List.mem_cons.mp member with rfl | later
    · exact retrievable
    · exact behind.retrievable other later
  · intro _
    have kept := behind.room
    rw [opened]
    rw [takes] at kept ⊢
    apply kept
    rw [ContextPack.push, List.length_append, List.length_singleton]
    omega
  · have kept := behind.frame
    rw [opened]
    rw [takes] at kept ⊢
    exact ⟨kept.protocolVersion, kept.projectId, kept.taskId, kept.budgetRequested,
      kept.budgetUsed, kept.handoff⟩
  · rw [opened]
    rcases behind.cost with same | within
    · rw [same, takes]
      exact fits
    · exact within
  · intro other member
    rcases List.mem_cons.mp member with rfl | later
    · exact .inr (.inl ⟨other, List.mem_cons_self .., rfl⟩)
    · rcases behind.leftOut other later with seenNow | ⟨chosen, inside, same⟩ | leftOut
      · rw [takes] at seenNow
        rcases List.mem_cons.mp seenNow with same | old
        · exact .inr (.inl ⟨entry, List.mem_cons_self .., same.symm⟩)
        · exact .inl old
      · exact .inr (.inl ⟨chosen, List.mem_cons_of_mem _ inside, same⟩)
      · exact .inr (.inr (leftOut.behind room))

end Rounds

theorem fill_fills {start : Filling} (accounted : Accounted start) (entries : List Ranked) :
    ∃ taken, Fills start entries taken := by
  induction entries generalizing start with
  | nil => exact ⟨[], .stopped rfl (List.forall_mem_nil _)⟩
  | cons entry entries induction =>
      by_cases full : maxContextItems ≤ start.pack.items.length
      · refine ⟨[], .stopped (fill_full full _) ?_⟩
        intro other member
        obtain ⟨before, rest, split⟩ := List.append_of_mem member
        refine ⟨before, other, rest, split, rfl, ?_⟩
        rw [packBefore, fill_full full]
        exact .inr (.items full)
      have considered := consider_considered accounted entry
      generalize next_eq : consider start entry = next at considered
      cases considered with
      | again seen =>
          obtain ⟨taken, behind⟩ := induction accounted
          refine ⟨taken, .skip full next_eq (fun _ => id) (fun _ => .inl) (.inl seen) ?_⟩
          rw [next_eq]
          exact behind
      | refused refuses =>
          obtain ⟨taken, behind⟩ := @induction
            { start with seen := entry.memory.id :: start.seen } accounted
          refine ⟨taken, .skip full next_eq (fun _ => List.mem_cons_of_mem _) ?_ (.inr refuses) ?_⟩
          · intro id member
            exact (List.mem_cons.mp member).symm
          · rw [next_eq]
            exact behind
      | taken unseen retrievable fits core =>
          obtain ⟨taken, behind⟩ := @induction
            ⟨start.pack.push entry, entry.memory.id :: start.seen, _⟩ core
          refine ⟨entry :: taken, .take full next_eq unseen retrievable fits ?_⟩
          rw [next_eq]
          exact behind

end TerminalCanvas.Memory
