import TerminalCanvas.Foundation.Fallible
import TerminalCanvas.Memory.ContextPack
import TerminalCanvas.Memory.StoreRuns

/-! # The budget of a context pack

A pack without items fits its budget, and every item was measured with the pack it
entered. -/

namespace TerminalCanvas.Memory

open Json (byteLength Pretty scalar prettyMember prettyObject prettyOptional prettyArray)

/-! ## Sizes -/

/-- What the identifiers of a pack take in its JSON. -/
def identifierBytes (pack : ContextPack) : Nat :=
  byteLength (jsonText pack.projectId) + byteLength (jsonText pack.taskId)

section Sizes

theorem byteLength_handoffValue_nested (handoff : HandoffRecord) :
    byteLength (handoffValue handoff 1) =
      byteLength (toStringPretty (handoffValue handoff)) + 18 := by
  rw [toStringPretty, handoffValue, Json.byteLength_prettyObject_succ (List.cons_ne_nil _ _)]
  · rfl
  · have texts : ∀ value, Json.Flat (textValue value) := fun value => Json.flat_scalar _
    have integers : ∀ value, Json.Flat (integerValue value) := fun value => Json.flat_scalar _
    simp only [List.forall_mem_cons]
    exact ⟨(texts _).member _, (texts _).member _, (texts _).member _, (texts _).member _,
      (Json.Flat.optional texts _).member _, (Json.Flat.optional texts _).member _,
      (Json.Flat.optional integers _).member _, (integers _).member _, List.forall_mem_nil _⟩

theorem byteLength_packValue_empty {pack : ContextPack} (items : pack.items = []) :
    byteLength (toStringPretty (packValue pack)) = identifierBytes pack +
      byteLength (number pack.protocolVersion) + byteLength (number pack.revisionCursor) +
      byteLength (number pack.budgetRequested) + byteLength (number pack.budgetUsed) +
      byteLength (prettyOptional handoffValue pack.handoff 1) + 155 := by
  rw [toStringPretty, packValue, Json.byteLength_prettyObject (List.cons_ne_nil _ _), items]
  have protocol : byteLength (Json.string "protocol_version".toList) = 18 := by decide +kernel
  have project : byteLength (Json.string "project_id".toList) = 12 := by decide +kernel
  have task : byteLength (Json.string "task_id".toList) = 9 := by decide +kernel
  have cursor : byteLength (Json.string "revision_cursor".toList) = 17 := by decide +kernel
  have requested : byteLength (Json.string "budget_requested".toList) = 18 := by decide +kernel
  have used : byteLength (Json.string "budget_used".toList) = 13 := by decide +kernel
  have listed : byteLength (Json.string "items".toList) = 7 := by decide +kernel
  have handoff : byteLength (Json.string "handoff".toList) = 9 := by decide +kernel
  have empty : byteLength (prettyArray ([].map itemValue) (0 + 1)) = 2 := by decide +kernel
  simp only [List.map_cons, List.map_nil, List.sum_cons, List.sum_nil, List.length_cons,
    List.length_nil, Json.byteLength_prettyMember, textValue, numberValue, scalar, protocol,
    project, task, cursor, requested, used, listed, handoff, identifierBytes,
      Nat.zero_add] at empty ⊢
  rw [empty]
  omega

theorem byteLength_number_le {value : Nat} (small : value ≤ defaultTokenBudget) :
    byteLength (number value) ≤ 4 := by
  unfold defaultTokenBudget at small
  rw [number, Json.byteLength_number, Json.number,
    Nat.length_toDigits_le_iff (by decide) (by decide)]
  omega

theorem byteLength_packHeader : byteLength packHeader.toList = 170 := by
  rw [Json.byteLength_toList]
  decide +kernel

theorem byteLength_formatContextPack_le (pack : ContextPack) :
    byteLength (formatContextPack pack) ≤ 170 + byteLength (pack.items.flatMap formatContextItem) +
      byteLength ((pack.handoff.map formatHandoff).getD []) := by
  unfold formatContextPack
  split
  · exact Nat.zero_le _
  · rw [Json.byteLength_append, Json.byteLength_append, byteLength_packHeader]

theorem contextPackCost_le {pack : ContextPack}
    (text : byteLength (formatContextPack pack) ≤ 4 * defaultTokenBudget)
    (json : byteLength (toStringPretty
      (packValue { pack with budgetUsed := pack.budgetRequested })) ≤ 4 * defaultTokenBudget) :
    contextPackCost pack ≤ defaultTokenBudget := by
  unfold contextPackCost
  split
  · exact Nat.zero_le _
  · rw [serializedCost_le]
    exact Nat.max_le.mpr ⟨text, json⟩

theorem byteLength_packValue_used {pack : ContextPack} {used : Nat}
    (requested : pack.budgetRequested = defaultTokenBudget) (small : used ≤ defaultTokenBudget) :
    byteLength (toStringPretty (packValue { pack with budgetUsed := used })) ≤
      byteLength (toStringPretty (packValue { pack with budgetUsed := pack.budgetRequested })) := by
  refine Json.byteLength_prettyObject_mono
    [prettyMember "protocol_version" (numberValue pack.protocolVersion),
      prettyMember "project_id" (textValue pack.projectId),
      prettyMember "task_id" (textValue pack.taskId),
      prettyMember "revision_cursor" (numberValue pack.revisionCursor),
      prettyMember "budget_requested" (numberValue pack.budgetRequested)] _
    (Json.byteLength_prettyMember_mono "budget_used" ?_)
  have widest : byteLength (number defaultTokenBudget) = 4 := by decide +kernel
  have narrow := byteLength_number_le small
  simp only [numberValue, scalar, requested, widest]
  exact narrow

end Sizes

/-! ## Packs without items -/

section Framed

open Store

variable {loaded : VisibleActive}

theorem framedPack_handoff {handoff : HandoffRecord}
    (fitted : (framedPack loaded).handoff = some handoff) :
    handoffSize handoff ≤ handoffLimit := by
  obtain ⟨original, -, fits⟩ := Option.bind_eq_some_iff.mp fitted
  exact (fits ▸ fitHandoffBudget_fitted original).size

theorem framedPack_text :
    byteLength (formatContextPack (framedPack loaded)) ≤ 4 * defaultTokenBudget := by
  have text : byteLength (formatContextPack (framedPack loaded)) ≤ 170 + 0 +
      byteLength (((framedPack loaded).handoff.map formatHandoff).getD []) :=
    byteLength_formatContextPack_le (framedPack loaded)
  have budget : 4 * defaultTokenBudget = 9600 := rfl
  have limit : handoffLimit = 1600 := rfl
  cases fitted : (framedPack loaded).handoff with
  | none =>
      rw [fitted] at text
      exact Nat.le_trans text (by decide)
  | some handoff =>
      have small := Nat.le_trans (Nat.le_max_left _ _) (framedPack_handoff fitted)
      rw [fitted, Option.map_some, Option.getD_some] at text
      omega

theorem framedPack_nested : byteLength
    (prettyOptional handoffValue (framedPack loaded).handoff 1) ≤ handoffLimit + 18 := by
  cases fitted : (framedPack loaded).handoff with
  | none => decide +kernel
  | some handoff =>
      have small := Nat.le_trans (Nat.le_max_right _ _) (framedPack_handoff fitted)
      rw [prettyOptional, byteLength_handoffValue_nested handoff]
      exact Nat.add_le_add_right small 18

theorem framedPack_json (short : identifierBytes (framedPack loaded) ≤ 7800) :
    byteLength (toStringPretty (packValue
      { framedPack loaded with budgetUsed := (framedPack loaded).budgetRequested })) ≤
        4 * defaultTokenBudget := by
  have one : byteLength (number 1) ≤ 4 := byteLength_number_le (by decide)
  have zero : byteLength (number 0) ≤ 4 := byteLength_number_le (by decide)
  have widest := byteLength_number_le (Nat.le_refl defaultTokenBudget)
  have nested := @framedPack_nested loaded
  rw [byteLength_packValue_empty rfl]
  calc
    _ ≤ 7800 + 4 + 4 + 4 + 4 + (handoffLimit + 18) + 155 := by
      refine Nat.add_le_add_right ?_ _
      refine Nat.add_le_add ?_ nested
      refine Nat.add_le_add ?_ widest
      refine Nat.add_le_add ?_ widest
      refine Nat.add_le_add ?_ zero
      exact Nat.add_le_add short one
    _ ≤ 4 * defaultTokenBudget := by decide

theorem framedPack_cost (short : identifierBytes (framedPack loaded) ≤ 7800) :
    contextPackCost (framedPack loaded) ≤ defaultTokenBudget :=
  contextPackCost_le framedPack_text (framedPack_json short)

end Framed

/-! ## Whole packs -/

/-- A pack keeps its budget. Only a pack of nothing costs nothing. -/
structure WithinBudget (pack : ContextPack) : Prop where
  text : byteLength (formatContextPack pack) ≤ 4 * defaultTokenBudget
  json : byteLength (toStringPretty (packValue pack)) ≤ 4 * defaultTokenBudget
  used : pack.budgetUsed ≤ defaultTokenBudget
  covers : pack.items ≠ [] ∨ pack.handoff.isSome = true →
    serializedCost (byteLength (formatContextPack pack)) ≤ pack.budgetUsed ∧
      serializedCost (byteLength (toStringPretty (packValue pack))) ≤ pack.budgetUsed
  nothing : pack.items = [] → pack.handoff = none →
    pack.budgetUsed = 0 ∧ formatContextPack pack = []

theorem withinBudget_of_cost {pack : ContextPack}
    (requested : pack.budgetRequested = defaultTokenBudget)
    (cost : contextPackCost pack ≤ defaultTokenBudget)
    (json : pack.items = [] → pack.handoff = none →
      byteLength (toStringPretty (packValue { pack with budgetUsed := 0 })) ≤
        4 * defaultTokenBudget) :
    WithinBudget { pack with budgetUsed := contextPackCost pack } := by
  have sameText : formatContextPack { pack with budgetUsed := contextPackCost pack } =
      formatContextPack pack := rfl
  have smallJson := byteLength_packValue_used requested cost
  by_cases nothing : pack.items = [] ∧ pack.handoff = none
  · obtain ⟨items, handoff⟩ := nothing
    have free : contextPackCost pack = 0 := by simp [contextPackCost, items, handoff]
    have silent : formatContextPack pack = [] := by simp [formatContextPack, items, handoff]
    rw [free] at sameText ⊢
    refine ⟨?_, json items handoff, Nat.zero_le _, ?_, fun _ _ => ⟨rfl, sameText.trans silent⟩⟩
    · rw [sameText, silent]
      exact Nat.zero_le _
    · rintro (some | some)
      · exact absurd items some
      · simp [handoff] at some
  · have filled : (pack.items.isEmpty && pack.handoff.isNone) = false := by
      rw [Bool.eq_false_iff, ne_eq, Bool.and_eq_true, List.isEmpty_iff,
        Option.isNone_iff_eq_none]
      exact nothing
    have total : contextPackCost pack = serializedCost
        (max (byteLength (formatContextPack pack)) (byteLength (toStringPretty
          (packValue { pack with budgetUsed := pack.budgetRequested })))) := by
      rw [contextPackCost, filled]
      rfl
    have sizes := Nat.max_le.mp (serializedCost_le.mp (total ▸ cost))
    have textCost := Nat.le_trans (serializedCost_mono (Nat.le_max_left _ _))
      (Nat.le_of_eq total.symm)
    have jsonCost := Nat.le_trans
      (serializedCost_mono (Nat.le_trans smallJson (Nat.le_max_right _ _)))
      (Nat.le_of_eq total.symm)
    exact
      { text := sizes.1
        json := Nat.le_trans smallJson sizes.2
        used := cost
        covers := fun _ => ⟨textCost, jsonCost⟩
        nothing := fun items handoff => absurd ⟨items, handoff⟩ nothing }

section Whole

open Store

variable {loaded : VisibleActive} {searched : List MemoryRecord} {query : Option String}

theorem candidates_ordered : (candidates loaded searched query).Pairwise fun left right =>
    right.score ≤ left.score := by
  have sorted : (candidates loaded searched query).Pairwise fun left right =>
      ranksBefore left right = true := by
    apply List.pairwise_mergeSort
    · intro first second third before behind
      simp only [ranksBefore, Bool.or_eq_true, Bool.and_eq_true,
        decide_eq_true_eq] at before behind ⊢
      rcases before with less | ⟨same, ids⟩
      · rcases behind with less' | ⟨same', -⟩
        · exact .inl (by omega)
        · exact .inl (by omega)
      · rcases behind with less' | ⟨same', ids'⟩
        · exact .inl (by omega)
        · exact .inr ⟨by omega, le_trans ids ids'⟩
    · intro first second
      simp only [ranksBefore, Bool.or_eq_true, Bool.and_eq_true, decide_eq_true_eq]
      rcases Nat.lt_trichotomy first.score second.score with less | same | greater
      · exact .inr (.inl less)
      · rcases le_total first.memory.id second.memory.id with before | behind
        · exact .inl (.inr ⟨same, before⟩)
        · exact .inr (.inr ⟨same.symm, behind⟩)
      · exact .inl (.inl greater)
  refine sorted.imp ?_
  intro left right before
  simp only [ranksBefore, Bool.or_eq_true, Bool.and_eq_true, decide_eq_true_eq] at before
  omega

theorem mem_candidates {entry : Ranked} : entry ∈ candidates loaded searched query ↔
    ∃ memory ∈ loaded.active ++ searched, rankMemory (trimmedQuery query) memory = entry := by
  rw [candidates, List.mem_mergeSort, rankMemories, List.mem_map]

theorem rankMemory_memory (query : Option String) (memory : MemoryRecord) :
    (rankMemory query memory).memory = memory := by
  unfold rankMemory
  split
  · rfl
  · split
    · rfl
    · split
      · rfl
      · split
        · rfl
        · rfl

theorem filledPack_withinBudget {taken : List Ranked}
    (fills : Fills ⟨framedPack loaded, [], 0⟩ (candidates loaded searched query) taken)
    (short : (filledPack loaded searched query).items ≠ [] ∨
      identifierBytes (filledPack loaded searched query) ≤ 7800) :
    WithinBudget (filledPack loaded searched query) := by
  have identifiers : identifierBytes (filledPack loaded searched query) =
      identifierBytes (framedPack loaded) := by
    change identifierBytes (fill _ _).pack = _
    rw [identifierBytes, fills.frame.projectId, fills.frame.taskId]
    rfl
  rw [identifiers] at short
  apply withinBudget_of_cost fills.frame.budgetRequested
  · rcases fills.cost with same | within
    · rw [same]
      refine framedPack_cost (short.resolve_left fun filled => filled ?_)
      change (fill _ _).pack.items = []
      rw [same]
      rfl
    · exact within
  · intro items handoff
    have framed : (fill ⟨framedPack loaded, [], 0⟩ (candidates loaded searched query)).pack =
        framedPack loaded := by
      apply fills.unchanged
      have taken_eq := fills.items.symm.trans items
      simpa [framedPack, ContextPack.empty] using taken_eq
    rw [framed]
    have filled : (filledPack loaded searched query).items = [] := items
    exact Nat.le_trans (byteLength_packValue_used rfl (Nat.zero_le _))
      (framedPack_json (short.resolve_left fun some => some filled))

end Whole

/-! ## The pack that is built -/

section Built

open Store TerminalCanvas.Transaction

variable {fullText : FullText} {location : ResolvedLocation} {query : Option String}
  {orchestratorTaskId workspaceId : Option Uuid} {loads searches : Visit}

theorem call_active {loaded : VisibleActive}
    (called : loads.call (loadVisibleActive location orchestratorTaskId workspaceId) = .ok loaded) :
    AllActive loaded.active := by
  rcases Ensures.immediate (loadVisibleActive_ensures location orchestratorTaskId workspaceId
    loads.validated) with ⟨value, succeeds, active⟩ | ⟨error, fails, -⟩
  · cases called.symm.trans succeeds
    exact active
  · cases called.symm.trans fails

theorem searchedFor_active {searched : List MemoryRecord}
    (called : searchedFor fullText location query orchestratorTaskId workspaceId searches =
      .ok searched) : AllActive searched := by
  unfold searchedFor at called
  split at called
  · next terms _ =>
      rcases Ensures.immediate (searchForContext_ensures fullText location terms
        orchestratorTaskId workspaceId searches.validated) with
        ⟨value, succeeds, active⟩ | ⟨error, fails, -⟩
      · cases called.symm.trans succeeds
        exact active
      · cases called.symm.trans fails
  · cases called
    exact List.forall_mem_nil _

/-- A pack keeps its budget. It lists its memories by score, each of them once, and leaves
out only what had no place at its turn. -/
theorem context_pack_keeps_its_budget {pack : ContextPack}
    (built : buildContextPackGuarded fullText location query orchestratorTaskId workspaceId loads
      searches = .ok pack) :
    ∃ (loaded : VisibleActive) (searched : List MemoryRecord) (taken : List Ranked),
      loads.call (loadVisibleActive location orchestratorTaskId workspaceId) = .ok loaded ∧
      searchedFor fullText location query orchestratorTaskId workspaceId searches = .ok searched ∧
      (pack.items ≠ [] ∨ identifierBytes pack ≤ 7800 → WithinBudget pack) ∧
      pack.items.length ≤ maxContextItems ∧
      pack.items = taken.map Ranked.item ∧
      taken.Sublist (candidates loaded searched query) ∧
      (pack.items.map (·.memoryId)).Nodup ∧
      (∀ entry ∈ taken, entry.memory.status.isRetrievable = true) ∧
      taken.Pairwise (fun left right => right.score ≤ left.score) ∧
      (∀ memory ∈ loaded.active ++ searched, memory.id ∈ pack.items.map (·.memoryId) ∨
        ∃ before turn rest, candidates loaded searched query = before ++ turn :: rest ∧
          turn.memory.id = memory.id ∧
          Exceeds (packBefore ⟨framedPack loaded, [], 0⟩ before) turn) ∧
      pack.handoff = loaded.handoff.bind fitHandoffBudget ∧
      ∀ handoff, loaded.handoff = some handoff → Fitted handoff pack.handoff := by
  obtain ⟨loaded, loads_eq, rest⟩ := Fallible.bind_eq_ok.mp built
  obtain ⟨searched, searches_eq, result⟩ := Fallible.bind_eq_ok.mp rest
  cases Fallible.pure_eq_ok.mp result
  have active : AllActive (loaded.active ++ searched) := by
    intro memory member
    rcases List.mem_append.mp member with own | found
    · exact call_active loads_eq memory own
    · exact searchedFor_active searches_eq memory found
  obtain ⟨taken, fills⟩ := @fill_fills ⟨framedPack loaded, [], 0⟩ rfl
    (candidates loaded searched query)
  have items : (filledPack loaded searched query).items = taken.map Ranked.item := fills.items
  have ids : (filledPack loaded searched query).items.map (·.memoryId) =
      taken.map (·.memory.id) := by
    rw [items, List.map_map]
    rfl
  have handoff : (filledPack loaded searched query).handoff =
      loaded.handoff.bind fitHandoffBudget := fills.frame.handoff
  refine ⟨loaded, searched, taken, loads_eq, searches_eq, filledPack_withinBudget fills,
    fills.room (Nat.zero_le _), items, fills.order, ids ▸ fills.distinct, fills.retrievable,
    candidates_ordered.sublist fills.order, ?_, handoff, ?_⟩
  · intro memory member
    rw [ids]
    have candidate : rankMemory (trimmedQuery query) memory ∈ candidates loaded searched query :=
      mem_candidates.mpr ⟨memory, member, rfl⟩
    have own := rankMemory_memory (trimmedQuery query) memory
    rcases fills.leftOut _ candidate with seen | ⟨other, chosen, same⟩ |
      ⟨before, turn, rest, split, same, refuses⟩
    · cases seen
    · left
      rw [own] at same
      exact List.mem_map.mpr ⟨other, chosen, same⟩
    · right
      rw [own] at same
      refine ⟨before, turn, rest, split, same, refuses.resolve_left fun inactive => ?_⟩
      have turnMember : turn ∈ candidates loaded searched query := by
        rw [split]
        simp
      obtain ⟨stored, storedMember, rfl⟩ := mem_candidates.mp turnMember
      rw [rankMemory_memory] at inactive
      simp [MemoryStatus.isRetrievable, active stored storedMember] at inactive
  · intro original present
    rw [handoff, present, Option.bind_some]
    exact fitHandoffBudget_fitted original

end Built

/-! ## A pack of nothing -/

section Nothing

open Store

def noFullText : FullText := fun _ _ => []

def quietVisit (tables : Tables) : Visit := ⟨tables, Sample.world 1, .ok ()⟩

/-- The pack of the user without a question. -/
def buildPlain (tables : Tables) : Except StoreError ContextPack :=
  buildContextPackGuarded noFullText Sample.location none none none (quietVisit tables)
    (quietVisit tables)

def packOf (result : Except StoreError ContextPack) : Option ContextPack :=
  match result with
  | .ok pack => some pack
  | .error _ => none

theorem packOf_eq_some {result : Except StoreError ContextPack} {pack : ContextPack} :
    packOf result = some pack ↔ result = .ok pack := by
  cases result with
  | ok built => simp [packOf]
  | error error => simp [packOf]

private def loadedIn (canonicalId : String) : VisibleActive :=
  ⟨⟨"prj_a", canonicalId, .workspaceRoot, "/repo", none⟩, "tsk_a", [], none⟩

/-- An active memory of another project. -/
private def elsewhere : MemoryRecord :=
  ⟨"mem_a", .project, "prj_a", .decision, "style", .active, .owner, "usa rustfmt", 1, none, 0, 0⟩

private def elsewhereTables : Tables :=
  { Tables.empty with memories := Tables.empty.memories.put "mem_a" elsewhere }

theorem exists_of_packOf {tables : Tables} {property : ContextPack → Bool}
    (holds : (packOf (buildPlain tables)).any property = true) :
    ∃ pack, buildPlain tables = .ok pack ∧ property pack = true := by
  obtain ⟨pack, built, has⟩ := (Option.any_eq_true _ _).mp holds
  exact ⟨pack, packOf_eq_some.mp built, has⟩

theorem empty_pack_uncounted : ∃ pack, buildPlain .empty = .ok pack ∧
    decide (pack.budgetUsed <
      serializedCost (byteLength (toStringPretty (packValue pack)))) = true :=
  exists_of_packOf (by decide +kernel)

theorem filledPack_loadedIn (canonicalId : String) :
    filledPack (loadedIn canonicalId) [] none = { framedPack (loadedIn canonicalId) with
      budgetUsed := contextPackCost (framedPack (loadedIn canonicalId)) } := by
  have nothing : candidates (loadedIn canonicalId) [] none = [] := by
    rw [candidates, rankMemories, loadedIn]
    exact List.mergeSort_nil
  simp only [filledPack, nothing, fill]

theorem loadedIn_wide (canonicalId : String) : byteLength (jsonText canonicalId) ≤
    byteLength (toStringPretty (packValue (filledPack (loadedIn canonicalId) [] none))) := by
  rw [filledPack_loadedIn]
  refine Nat.le_trans ?_ (Nat.le_of_eq (byteLength_packValue_empty rfl).symm)
  have own : byteLength (jsonText canonicalId) ≤ identifierBytes
      { framedPack (loadedIn canonicalId) with
        budgetUsed := contextPackCost (framedPack (loadedIn canonicalId)) } :=
    Nat.le_add_right _ _
  omega

theorem wide_pack_exceeds : ∃ canonicalId, 4 * defaultTokenBudget <
    byteLength (toStringPretty (packValue (filledPack (loadedIn canonicalId) [] none))) := by
  refine ⟨String.ofList (List.replicate 9600 'a'), Nat.lt_of_lt_of_le ?_ (loadedIn_wide _)⟩
  rw [jsonText, String.toList_ofList, Json.byteLength_string_of_plain, List.length_replicate]
  · decide
  · intro character member
    rw [List.eq_of_mem_replicate member]
    decide

theorem elsewhere_left_out : ∃ pack, buildPlain elsewhereTables = .ok pack ∧
    decide (pack.items = [] ∧ pack.handoff = none ∧
      contextItemCost (rankMemory none elsewhere).item ≤ coreTokenBudget ∧
      byteLength (toStringPretty (packValue { pack.push (rankMemory none elsewhere) with
        budgetUsed := pack.budgetRequested })) ≤ 4 * defaultTokenBudget) = true :=
  exists_of_packOf (by decide +kernel)

private def ofUser : MemoryRecord := { elsewhere with scopeKind := .user, scopeId := "user" }

private def userTables : Tables :=
  { Tables.empty with memories := Tables.empty.memories.put "mem_a" ofUser }

theorem user_pack_keeps_its_budget : ∃ pack, buildPlain userTables = .ok pack ∧
    pack.items.map (·.memoryId) = ["mem_a"] ∧ WithinBudget pack := by
  obtain ⟨pack, built, has⟩ := @exists_of_packOf userTables
    (fun pack => pack.items.map (·.memoryId) == ["mem_a"]) (by decide +kernel)
  have items : pack.items.map (·.memoryId) = ["mem_a"] := eq_of_beq has
  obtain ⟨-, -, -, -, -, within, -⟩ := context_pack_keeps_its_budget built
  refine ⟨pack, built, items, within (.inl ?_)⟩
  intro nothing
  rw [nothing] at items
  cases items

/-- Three ways in which a pack can be outside of its budget or leave out a memory that has
place: it has no items, an identifier is too wide, or the memory is not visible. -/
theorem budget_has_exceptions :
    (∃ pack, buildPlain .empty = .ok pack ∧
      pack.budgetUsed < serializedCost (byteLength (toStringPretty (packValue pack)))) ∧
    (∃ loaded : VisibleActive, 4 * defaultTokenBudget <
      byteLength (toStringPretty (packValue (filledPack loaded [] none)))) ∧
    ∃ pack, buildPlain elsewhereTables = .ok pack ∧ elsewhere.status.isRetrievable = true ∧
      pack.items = [] ∧ contextItemCost (rankMemory none elsewhere).item ≤ coreTokenBudget ∧
      byteLength (toStringPretty (packValue { pack.push (rankMemory none elsewhere) with
        budgetUsed := pack.budgetRequested })) ≤ 4 * defaultTokenBudget := by
  refine ⟨?_, ?_, ?_⟩
  · obtain ⟨pack, built, uncounted⟩ := empty_pack_uncounted
    exact ⟨pack, built, of_decide_eq_true uncounted⟩
  · obtain ⟨canonicalId, wide⟩ := wide_pack_exceeds
    exact ⟨loadedIn canonicalId, wide⟩
  · obtain ⟨pack, built, has⟩ := elsewhere_left_out
    obtain ⟨items, -, cost, json⟩ := of_decide_eq_true has
    exact ⟨pack, built, rfl, items, cost, json⟩

end Nothing

end TerminalCanvas.Memory
