import Mathlib.Data.List.Basic
import Mathlib.Data.List.Nodup
import TerminalCanvas.State.Layout

/-! # The sessions of a layout

The panels of a layout in the order they are visited, and which of their sessions they
keep: those whose runtime nobody visited earlier has. -/

namespace TerminalCanvas.Layout

/-- The sessions of a panel: the one of its root leaf and the map of its leaves. -/
abbrev PanelSessions := Option String × SortedMap String String

def PanelState.sessions (panel : PanelState) : PanelSessions :=
  (panel.runtimeSessionId, panel.leafRuntimeSessionIds)

/-- A panel, and whether it and its workspace keep their identities. -/
structure Visit where
  keeps : Bool
  panel : PanelState

section Sessions

variable (parser : UuidParser)

variable {parser} in
theorem parseNonNilUuid_display {id : Uuid} (nonNil : id ≠ .nil) :
    parseNonNilUuid parser id.display = some id := by
  rw [parseNonNilUuid, parser.parse_display]
  exact Option.filter_some_pos (decide_eq_true nonNil)

variable {parser} in
theorem nonNil_of_parse {text : String} {id : Uuid}
    (parsed : parseNonNilUuid parser text = some id) : id ≠ .nil := by
  obtain ⟨-, nonNil⟩ := Option.filter_eq_some_iff.mp parsed
  exact of_decide_eq_true nonNil

/-! ## The leaves of one panel -/

def validEntry (entry : String × String) : Option (Uuid × Uuid) :=
  match parseNonNilUuid parser entry.1, parseNonNilUuid parser entry.2 with
  | some leafId, some runtimeId => some (leafId, runtimeId)
  | _, _ => none

/-- The entries whose runtime is not used by then. -/
def accepted (used : List Uuid) : List (String × String) → List (Uuid × Uuid)
  | [] => []
  | entry :: entries =>
      match validEntry parser entry with
      | none => accepted used entries
      | some pair =>
          if pair.2 ∈ used then accepted used entries
          else pair :: accepted (pair.2 :: used) entries

def insertPair (map : SortedMap String String) (pair : Uuid × Uuid) : SortedMap String String :=
  map.insert pair.1.display pair.2.display

variable {parser}

theorem foldl_takeLeaf (entries : List (String × String)) (leaves : Leaves)
    (inside : ∀ id ∈ leaves.localRuntimeIds, id ∈ leaves.runtimeIds) :
    entries.foldl (takeLeaf parser) leaves =
      ⟨((accepted parser leaves.runtimeIds entries).map (·.2)).reverse ++ leaves.localRuntimeIds,
        ((accepted parser leaves.runtimeIds entries).map (·.2)).reverse ++ leaves.runtimeIds,
        (accepted parser leaves.runtimeIds entries).foldl insertPair leaves.normalized⟩ := by
  induction entries generalizing leaves with
  | nil => rfl
  | cons entry entries induction =>
      rw [List.foldl_cons, accepted]
      cases leaf : parseNonNilUuid parser entry.1 with
      | none => 
          have invalid : validEntry parser entry = none := by simp [validEntry, leaf]
          have kept : takeLeaf parser leaves entry = leaves := by simp [takeLeaf, leaf]
          rw [invalid, kept]
          exact induction leaves inside
      | some leafId =>
          cases runtime : parseNonNilUuid parser entry.2 with
          | none =>
              have invalid : validEntry parser entry = none := by
                simp [validEntry, leaf, runtime]
              have kept : takeLeaf parser leaves entry = leaves := by
                simp [takeLeaf, leaf, runtime]
              rw [invalid, kept]
              exact induction leaves inside
          | some runtimeId =>
              have valid : validEntry parser entry = some (leafId, runtimeId) := by
                simp [validEntry, leaf, runtime]
              rw [valid]
              dsimp only
              by_cases taken : runtimeId ∈ leaves.runtimeIds
              · have kept : takeLeaf parser leaves entry = leaves := by
                  simp [takeLeaf, leaf, runtime, taken]
                rw [if_pos taken, kept]
                exact induction leaves inside
              · have new : runtimeId ∉ leaves.localRuntimeIds :=
                  fun member => taken (inside _ member)
                have step : takeLeaf parser leaves entry =
                    ⟨runtimeId :: leaves.localRuntimeIds, runtimeId :: leaves.runtimeIds,
                      insertPair leaves.normalized (leafId, runtimeId)⟩ := by
                  simp [takeLeaf, leaf, runtime, taken, new, insertPair]
                rw [if_neg taken, step, induction]
                · simp
                · intro id member
                  rcases List.mem_cons.mp member with rfl | member
                  · exact List.mem_cons_self ..
                  · exact List.mem_cons_of_mem _ (inside id member)

theorem takeLeaves_eq (used : List Uuid) (entries : List (String × String)) :
    takeLeaves parser used entries =
      ⟨((accepted parser used entries).map (·.2)).reverse,
        ((accepted parser used entries).map (·.2)).reverse ++ used,
        (accepted parser used entries).foldl insertPair .empty⟩ := by
  have inside : ∀ id ∈ ([] : List Uuid), id ∈ used := fun _ member => nomatch member
  rw [takeLeaves, foldl_takeLeaf entries ⟨[], used, .empty⟩ inside, List.append_nil]

def runtimesOf (parser : UuidParser) (entries : List (String × String)) : List Uuid :=
  entries.filterMap fun entry => (validEntry parser entry).map (·.2)

theorem mem_accepted_or_used {used : List Uuid} {entries : List (String × String)} {id : Uuid} :
    id ∈ ((accepted parser used entries).map (·.2)).reverse ++ used ↔
      id ∈ used ∨ id ∈ runtimesOf parser entries := by
  induction entries generalizing used with
  | nil => simp [accepted, runtimesOf]
  | cons entry entries induction =>
      rw [accepted, runtimesOf]
      cases valid : validEntry parser entry with
      | none =>
          rw [List.filterMap_cons_none (by rw [valid]; rfl)]
          exact induction
      | some pair =>
          rw [List.filterMap_cons_some (by rw [valid]; rfl), List.mem_cons]
          dsimp only
          split
          · next taken =>
              rw [induction]
              constructor
              · rintro (before | later)
                · exact .inl before
                · exact .inr (.inr later)
              · rintro (before | rfl | later)
                · exact .inl before
                · exact .inl taken
                · exact .inr later
          · have rest := @induction (pair.2 :: used)
            rw [List.map_cons, List.reverse_cons, List.append_assoc, List.singleton_append, rest,
              List.mem_cons, or_assoc, or_left_comm]
            rfl

theorem accepted_append (used : List Uuid) (first second : List (String × String)) :
    accepted parser used (first ++ second) = accepted parser used first ++
      accepted parser (((accepted parser used first).map (·.2)).reverse ++ used) second := by
  induction first generalizing used with
  | nil => rfl
  | cons entry first induction =>
      rw [List.cons_append, accepted, accepted]
      cases validEntry parser entry with
      | none => exact induction used
      | some pair =>
          dsimp only
          split
          · exact induction used
          · rw [induction, List.map_cons, List.reverse_cons, List.append_assoc,
              List.singleton_append, List.cons_append]

theorem accepted_runtimes (used : List Uuid) (entries : List (String × String)) :
    ((accepted parser used entries).map (·.2)).Nodup ∧
      ∀ pair ∈ accepted parser used entries, pair.2 ∉ used ∧ pair.1 ≠ .nil ∧ pair.2 ≠ .nil := by
  induction entries generalizing used with
  | nil => exact ⟨.nil, fun _ member => nomatch member⟩
  | cons entry entries induction =>
      rw [accepted]
      cases valid : validEntry parser entry with
      | none => exact induction used
      | some pair =>
          dsimp only
          split
          · exact induction used
          · next new =>
              obtain ⟨distinct, fresh⟩ := induction (pair.2 :: used)
              constructor
              · rw [List.map_cons, List.nodup_cons]
                refine ⟨?_, distinct⟩
                intro member
                obtain ⟨other, otherIn, same⟩ := List.mem_map.mp member
                exact (fresh other otherIn).1 (same ▸ List.mem_cons_self ..)
              · intro other member
                rcases List.mem_cons.mp member with rfl | member
                · refine ⟨new, ?_⟩
                  unfold validEntry at valid
                  split at valid
                  · next leafId runtimeId leaf runtime =>
                      cases valid
                      exact ⟨nonNil_of_parse leaf, nonNil_of_parse runtime⟩
                  · cases valid
                · obtain ⟨apart, nonNil⟩ := fresh other member
                  exact ⟨fun used => apart (List.mem_cons_of_mem _ used), nonNil⟩

theorem mem_foldl_insertPair {pairs : List (Uuid × Uuid)} {map : SortedMap String String}
    {entry : String × String} :
    entry ∈ (pairs.foldl insertPair map).entries ↔
      (∃ before pair after, pairs = before ++ pair :: after ∧
        entry = (pair.1.display, pair.2.display) ∧ ∀ later ∈ after, later.1 ≠ pair.1) ∨
      entry ∈ map.entries ∧ ∀ pair ∈ pairs, entry.1 ≠ pair.1.display := by
  induction pairs generalizing map with
  | nil => simp
  | cons first rest induction =>
      rw [List.foldl_cons, induction, insertPair, SortedMap.mem_insert]
      constructor
      · rintro (⟨before, pair, after, rfl, same, last⟩ | ⟨rfl | ⟨member, other⟩, untouched⟩)
        · exact .inl ⟨first :: before, pair, after, rfl, same, last⟩
        · refine .inl ⟨[], first, rest, rfl, rfl, ?_⟩
          intro later member sameLeaf
          exact untouched later member (by rw [sameLeaf])
        · refine .inr ⟨member, ?_⟩
          intro pair inside
          rcases List.mem_cons.mp inside with rfl | inside
          · exact other
          · exact untouched pair inside
      · rintro (⟨before, pair, after, split, same, last⟩ | ⟨member, untouched⟩)
        · cases before with
          | nil =>
              obtain ⟨rfl, rfl⟩ := List.cons.inj split
              refine .inr ⟨.inl same, ?_⟩
              intro later inside sameText
              rw [same] at sameText
              exact last later inside (Uuid.display_injective sameText).symm
          | cons _ before =>
              obtain ⟨rfl, rfl⟩ := List.cons.inj split
              exact .inl ⟨before, pair, after, rfl, same, last⟩
        · exact .inr ⟨.inr ⟨member, untouched first (List.mem_cons_self ..)⟩,
            fun pair inside => untouched pair (List.mem_cons_of_mem _ inside)⟩

/-! ## Visits -/

def takeVisit (parser : UuidParser) (used : List Uuid) (visit : Visit) :
    PanelSessions × List Uuid :=
  if visit.keeps then
    let (root, leaves, runtimeIds) := takeSessions parser used visit.panel
    ((root, leaves), runtimeIds)
  else
    ((none, .empty), used)

def takeVisits (parser : UuidParser) : List Uuid → List Visit → List PanelSessions × List Uuid
  | used, [] => ([], used)
  | used, visit :: visits =>
      let first := takeVisit parser used visit
      let rest := takeVisits parser first.2 visits
      (first.1 :: rest.1, rest.2)

def sessionRuntimes (parser : UuidParser) (sessions : PanelSessions) : List Uuid :=
  (sessions.1.bind (parseNonNilUuid parser)).toList ++
    sessions.2.entries.filterMap fun entry => parseNonNilUuid parser entry.2

/-- The runtimes of a visited panel, when it keeps its identity. -/
def Visit.claims (parser : UuidParser) (visit : Visit) : List Uuid :=
  if visit.keeps then
    runtimesOf parser visit.panel.leafRuntimeSessionIds.entries ++
      (visit.panel.runtimeSessionId.bind (parseNonNilUuid parser)).toList
  else
    []

theorem takeVisits_append (used : List Uuid) (first second : List Visit) :
    takeVisits parser used (first ++ second) =
      ((takeVisits parser used first).1 ++
          (takeVisits parser (takeVisits parser used first).2 second).1,
        (takeVisits parser (takeVisits parser used first).2 second).2) := by
  induction first generalizing used with
  | nil => rfl
  | cons visit first induction =>
      rw [List.cons_append, takeVisits, induction]
      rfl

theorem length_takeVisits (used : List Uuid) (visits : List Visit) :
    (takeVisits parser used visits).1.length = visits.length := by
  induction visits generalizing used with
  | nil => rfl
  | cons visit visits induction => rw [takeVisits, List.length_cons, induction, List.length_cons]

/-- What becomes of the session of the root leaf behind the accepted entries, and the
runtimes used from then on. -/
inductive RootTaken (parser : UuidParser) (pairs : List (Uuid × Uuid)) (used : List Uuid)
    (text : Option String) : Option String → List Uuid → Prop where
  | invalid (parsed : text.bind (parseNonNilUuid parser) = none) :
      RootTaken parser pairs used text none ((pairs.map (·.2)).reverse ++ used)
  | dropped (id : Uuid) (parsed : text.bind (parseNonNilUuid parser) = some id)
      (other : id ∉ pairs.map (·.2)) (taken : id ∈ used) :
      RootTaken parser pairs used text none ((pairs.map (·.2)).reverse ++ used)
  | own (id : Uuid) (parsed : text.bind (parseNonNilUuid parser) = some id)
      (repeated : id ∈ pairs.map (·.2)) :
      RootTaken parser pairs used text (some id.display) ((pairs.map (·.2)).reverse ++ used)
  | new (id : Uuid) (parsed : text.bind (parseNonNilUuid parser) = some id)
      (other : id ∉ pairs.map (·.2)) (free : id ∉ used) :
      RootTaken parser pairs used text (some id.display) (id :: ((pairs.map (·.2)).reverse ++ used))

theorem rootTaken_takeRoot (pairs : List (Uuid × Uuid)) (used : List Uuid)
    (normalized : SortedMap String String) (text : Option String) :
    RootTaken parser pairs used text
      (takeRoot parser ⟨(pairs.map (·.2)).reverse, (pairs.map (·.2)).reverse ++ used, normalized⟩
        text).1
      (takeRoot parser ⟨(pairs.map (·.2)).reverse, (pairs.map (·.2)).reverse ++ used, normalized⟩
        text).2 := by
  unfold takeRoot
  dsimp only
  split
  · next invalid => exact .invalid invalid
  · next id parsed =>
      split
      · next own => exact .own id parsed (List.mem_reverse.mp own)
      · next other =>
          have notOwn : id ∉ pairs.map (·.2) := fun own => other (List.mem_reverse.mpr own)
          split
          · next taken =>
              exact .dropped id parsed notOwn ((List.mem_append.mp taken).resolve_left other)
          · next free =>
              exact .new id parsed notOwn fun taken => free (List.mem_append_right _ taken)

theorem takeVisit_keeps {used : List Uuid} {visit : Visit} (keeps : visit.keeps = true) :
    ∃ pairs root after, pairs = accepted parser used visit.panel.leafRuntimeSessionIds.entries ∧
      takeVisit parser used visit = ((root, pairs.foldl insertPair .empty), after) ∧
      RootTaken parser pairs used visit.panel.runtimeSessionId root after := by
  generalize entriesAre : visit.panel.leafRuntimeSessionIds.entries = entries
  have rooted := @rootTaken_takeRoot parser (accepted parser used entries) used
    ((accepted parser used entries).foldl insertPair .empty) visit.panel.runtimeSessionId
  refine ⟨_, _, _, rfl, ?_, rooted⟩
  rw [takeVisit, if_pos keeps, takeSessions]
  dsimp only
  rw [takeLeaves_eq, entriesAre]

theorem takeVisit_resets {used : List Uuid} {visit : Visit} (resets : visit.keeps = false) :
    takeVisit parser used visit = ((none, .empty), used) := by
  rw [takeVisit, resets]
  rfl

theorem claims_keeps {visit : Visit} (keeps : visit.keeps = true) :
    visit.claims parser = runtimesOf parser visit.panel.leafRuntimeSessionIds.entries ++
      (visit.panel.runtimeSessionId.bind (parseNonNilUuid parser)).toList := by
  rw [Visit.claims, keeps]
  rfl

theorem claims_resets {visit : Visit} (resets : visit.keeps = false) :
    visit.claims parser = [] := by
  rw [Visit.claims, resets]
  rfl

theorem mem_takeVisit {used : List Uuid} {visit : Visit} {id : Uuid} :
    id ∈ (takeVisit parser used visit).2 ↔ id ∈ used ∨ id ∈ visit.claims parser := by
  cases keeps : visit.keeps with
  | false =>
      rw [takeVisit_resets keeps, claims_resets keeps]
      simp
  | true =>
      obtain ⟨pairs, root, after, rfl, whole, rooted⟩ := @takeVisit_keeps parser used visit keeps
      rw [whole, claims_keeps keeps, List.mem_append, ← or_assoc, ← mem_accepted_or_used,
        Option.mem_toList]
      cases rooted with
      | invalid parsed => simp [parsed]
      | dropped other parsed notOwn taken =>
          rw [parsed, or_iff_left_of_imp]
          intro member
          cases Option.mem_some_iff.mp member
          exact List.mem_append_right _ taken
      | own other parsed repeated =>
          rw [parsed, or_iff_left_of_imp]
          intro member
          cases Option.mem_some_iff.mp member
          exact List.mem_append_left _ (List.mem_reverse.mpr repeated)
      | new other parsed notOwn free =>
          rw [parsed, List.mem_cons, or_comm]
          exact or_congr_right ⟨fun same => congrArg some same.symm,
            fun same => (Option.some.inj same).symm⟩

theorem mem_takeVisits {used : List Uuid} {visits : List Visit} {id : Uuid} :
    id ∈ (takeVisits parser used visits).2 ↔
      id ∈ used ∨ id ∈ visits.flatMap (Visit.claims parser) := by
  induction visits generalizing used with
  | nil => simp [takeVisits]
  | cons visit visits induction =>
      rw [takeVisits, induction, mem_takeVisit, List.flatMap_cons, List.mem_append, or_assoc]

theorem mem_takeVisit_entries {pairs : List (Uuid × Uuid)} {entry : String × String} :
    entry ∈ (pairs.foldl insertPair .empty).entries ↔
      ∃ before pair after, pairs = before ++ pair :: after ∧
        entry = (pair.1.display, pair.2.display) ∧ ∀ later ∈ after, later.1 ≠ pair.1 := by
  rw [mem_foldl_insertPair]
  exact or_iff_left fun impossible => nomatch impossible.1

theorem parse_entry {pairs : List (Uuid × Uuid)} {entry : String × String}
    (nonNil : ∀ pair ∈ pairs, pair.1 ≠ .nil ∧ pair.2 ≠ .nil)
    (member : entry ∈ (pairs.foldl insertPair .empty).entries) :
    ∃ pair ∈ pairs, entry = (pair.1.display, pair.2.display) ∧
      parseNonNilUuid parser entry.1 = some pair.1 ∧
      parseNonNilUuid parser entry.2 = some pair.2 := by
  obtain ⟨before, pair, after, rfl, rfl, -⟩ := mem_takeVisit_entries.mp member
  have inside : pair ∈ before ++ pair :: after :=
    List.mem_append_right _ (List.mem_cons_self ..)
  obtain ⟨leaf, runtime⟩ := nonNil pair inside
  exact ⟨pair, inside, rfl, parseNonNilUuid_display leaf, parseNonNilUuid_display runtime⟩

theorem takeVisit_sessions (used : List Uuid) (visit : Visit) :
    (∀ id ∈ sessionRuntimes parser (takeVisit parser used visit).1,
      id ∉ used ∧ id ∈ (takeVisit parser used visit).2) ∧
    (∀ first ∈ (takeVisit parser used visit).1.2.entries,
      ∀ second ∈ (takeVisit parser used visit).1.2.entries,
        parseNonNilUuid parser first.2 = parseNonNilUuid parser second.2 → first = second) := by
  cases keeps : visit.keeps with
  | false =>
      rw [takeVisit_resets keeps]
      exact ⟨fun id member => (nomatch member), fun first member => (nomatch member)⟩
  | true =>
      obtain ⟨distinct, fresh⟩ :=
        @accepted_runtimes parser used visit.panel.leafRuntimeSessionIds.entries
      obtain ⟨pairs, root, after, rfl, whole, rooted⟩ := @takeVisit_keeps parser used visit keeps
      generalize accepted parser used visit.panel.leafRuntimeSessionIds.entries = pairs at *
      have nonNil : ∀ pair ∈ pairs, pair.1 ≠ .nil ∧ pair.2 ≠ .nil :=
        fun pair member => (fresh pair member).2
      have inAfter : ∀ pair ∈ pairs, pair.2 ∈ after := by
        intro pair member
        have listed : pair.2 ∈ (pairs.map (·.2)).reverse ++ used :=
          List.mem_append_left _ (List.mem_reverse.mpr (List.mem_map_of_mem member))
        cases rooted with
        | new => exact List.mem_cons_of_mem _ listed
        | _ => exact listed
      rw [whole]
      constructor
      · intro id member
        rcases List.mem_append.mp member with ofRoot | ofLeaf
        · rw [Option.mem_toList] at ofRoot
          cases rooted with
          | invalid | dropped => cases ofRoot
          | own other parsed repeated =>
              have nonNilRoot : other ≠ .nil := by
                obtain ⟨text, -, parsed⟩ := Option.bind_eq_some_iff.mp parsed
                exact nonNil_of_parse parsed
              rw [Option.bind_some, parseNonNilUuid_display nonNilRoot] at ofRoot
              cases Option.mem_some_iff.mp ofRoot
              obtain ⟨pair, pairIn, rfl⟩ := List.mem_map.mp repeated
              exact ⟨(fresh pair pairIn).1, inAfter pair pairIn⟩
          | new other parsed notOwn free =>
              have nonNilRoot : other ≠ .nil := by
                obtain ⟨text, -, parsed⟩ := Option.bind_eq_some_iff.mp parsed
                exact nonNil_of_parse parsed
              rw [Option.bind_some, parseNonNilUuid_display nonNilRoot] at ofRoot
              cases Option.mem_some_iff.mp ofRoot
              exact ⟨free, List.mem_cons_self ..⟩
        · obtain ⟨entry, entryIn, parsed⟩ := List.mem_filterMap.mp ofLeaf
          obtain ⟨pair, pairIn, -, -, runtime⟩ := @parse_entry parser _ _ nonNil entryIn
          cases parsed.symm.trans runtime
          exact ⟨(fresh pair pairIn).1, inAfter pair pairIn⟩
      · intro first firstIn second secondIn same
        obtain ⟨left, leftIn, rfl, -, leftRuntime⟩ := @parse_entry parser _ _ nonNil firstIn
        obtain ⟨right, rightIn, rfl, -, rightRuntime⟩ := @parse_entry parser _ _ nonNil secondIn
        rw [leftRuntime, rightRuntime] at same
        rw [List.inj_on_of_nodup_map distinct leftIn rightIn (Option.some.inj same)]

theorem takeVisits_sessions (used : List Uuid) (visits : List Visit) :
    (takeVisits parser used visits).1.Pairwise fun first second =>
      ∀ id ∈ sessionRuntimes parser first, id ∉ sessionRuntimes parser second := by
  have unused : ∀ (visits : List Visit) (used : List Uuid),
      ∀ sessions ∈ (takeVisits parser used visits).1,
        ∀ id ∈ sessionRuntimes parser sessions, id ∉ used := by
    intro visits
    induction visits with
    | nil => exact fun used sessions member => nomatch member
    | cons visit visits induction =>
        intro used sessions member id mine
        rcases List.mem_cons.mp member with rfl | member
        · exact ((takeVisit_sessions used visit).1 id mine).1
        · intro taken
          exact induction _ sessions member id mine (mem_takeVisit.mpr (.inl taken))
  induction visits generalizing used with
  | nil => exact .nil
  | cons visit visits induction =>
      rw [takeVisits]
      apply List.Pairwise.cons _ (induction _)
      intro sessions member id first second
      exact unused visits _ sessions member id second
        ((takeVisit_sessions used visit).1 id first).2

/-! ## What is dropped -/

/-- The map holds the entry, in the texts its identifiers are written as. -/
def KeepsEntry (parser : UuidParser) (leaves : SortedMap String String)
    (entry : String × String) : Prop :=
  ∃ pair, validEntry parser entry = some pair ∧
    (pair.1.display, pair.2.display) ∈ leaves.entries

/-- A visited panel still has the runtime, for its root leaf or an entry of its map. -/
def KeepsRuntime (parser : UuidParser) (visit : Visit) (sessions : PanelSessions)
    (id : Uuid) : Prop :=
  visit.keeps = true ∧
    (sessions.1.bind (parseNonNilUuid parser) = some id ∨
      ∃ entry ∈ visit.panel.leafRuntimeSessionIds.entries,
        (validEntry parser entry).map (·.2) = some id ∧ KeepsEntry parser sessions.2 entry)

/-- Where panels kept their identities, a valid entry is dropped only when its leaf or its
runtime was taken by something earlier that is kept. -/
def DropsOnlyTaken (parser : UuidParser) (visits : List Visit)
    (results : List PanelSessions) : Prop :=
  ∀ earlier visit later, visits = earlier ++ visit :: later → visit.keeps = true →
    ∀ sessions, results[earlier.length]? = some sessions →
    ∀ before entry after, visit.panel.leafRuntimeSessionIds.entries = before ++ entry :: after →
      ∀ pair, validEntry parser entry = some pair → ¬ KeepsEntry parser sessions.2 entry →
        (∃ other ∈ before, ((validEntry parser other).map (·.1) = some pair.1 ∨
          (validEntry parser other).map (·.2) = some pair.2) ∧
          KeepsEntry parser sessions.2 other) ∨
        ∃ index < earlier.length, ∃ otherVisit otherSessions,
          visits[index]? = some otherVisit ∧ results[index]? = some otherSessions ∧
          KeepsRuntime parser otherVisit otherSessions pair.2

/-- No earlier panel claims the runtime, and no entry in front in its own. -/
def FirstUse (parser : UuidParser) (earlier : List Visit) (before : List (String × String))
    (id : Uuid) : Prop :=
  id ∉ earlier.flatMap (Visit.claims parser) ∧ id ∉ runtimesOf parser before

/-- A panel that keeps its identity has two entries of one leaf, in different texts, and
the runtime of each is used there first. -/
def SharesLeaf (parser : UuidParser) (visits : List Visit) : Prop :=
  ∃ earlier visit later before first middle second after leaf firstRuntime secondRuntime,
    visits = earlier ++ visit :: later ∧ visit.keeps = true ∧
    visit.panel.leafRuntimeSessionIds.entries =
      before ++ first :: (middle ++ second :: after) ∧
    validEntry parser first = some (leaf, firstRuntime) ∧
    validEntry parser second = some (leaf, secondRuntime) ∧
    FirstUse parser earlier before firstRuntime ∧
    FirstUse parser earlier (before ++ first :: middle) secondRuntime

theorem runtimesOf_cons {entry : String × String} {entries : List (String × String)} :
    runtimesOf parser (entry :: entries) =
      ((validEntry parser entry).map (·.2)).toList ++ runtimesOf parser entries := by
  cases valid : validEntry parser entry with
  | none => rw [runtimesOf, List.filterMap_cons_none (by rw [valid]; rfl)]; rfl
  | some pair => rw [runtimesOf, List.filterMap_cons_some (by rw [valid]; rfl)]; rfl

theorem runtimesOf_append (first second : List (String × String)) :
    runtimesOf parser (first ++ second) = runtimesOf parser first ++ runtimesOf parser second :=
  List.filterMap_append

theorem accepted_of_first {used : List Uuid} {before after : List (String × String)}
    {entry : String × String} {pair : Uuid × Uuid}
    (valid : validEntry parser entry = some pair) (unused : pair.2 ∉ used)
    (new : pair.2 ∉ runtimesOf parser before) :
    ∃ next, accepted parser used (before ++ entry :: after) =
        accepted parser used before ++ pair :: accepted parser next after ∧
      ∀ id, id ∈ next ↔ id ∈ used ∨ id ∈ runtimesOf parser (before ++ [entry]) := by
  have free : pair.2 ∉ ((accepted parser used before).map (·.2)).reverse ++ used := by
    rw [mem_accepted_or_used]
    exact fun taken => taken.elim unused new
  refine ⟨pair.2 :: (((accepted parser used before).map (·.2)).reverse ++ used), ?_, ?_⟩
  · rw [accepted_append, accepted, valid]
    dsimp only
    rw [if_neg free]
  · intro id
    rw [List.mem_cons, mem_accepted_or_used, runtimesOf_append, runtimesOf_cons, valid,
      List.mem_append]
    simp only [Option.map_some, Option.toList_some, runtimesOf, List.filterMap_nil,
      List.append_nil, List.mem_singleton]
    rw [or_left_comm, or_comm (a := id = pair.2)]

theorem accepted_split {used : List Uuid} {entries : List (String × String)} {pair : Uuid × Uuid}
    (member : pair ∈ accepted parser used entries) :
    ∃ before entry after, entries = before ++ entry :: after ∧
      validEntry parser entry = some pair ∧ pair.2 ∉ used ∧ pair.2 ∉ runtimesOf parser before := by
  induction entries generalizing used with
  | nil => cases member
  | cons first entries induction =>
      rw [accepted] at member
      cases valid : validEntry parser first with
      | none =>
          rw [valid] at member
          obtain ⟨before, entry, after, rfl, found, unused, new⟩ := induction member
          refine ⟨first :: before, entry, after, rfl, found, unused, ?_⟩
          rw [runtimesOf_cons, valid]
          exact new
      | some other =>
          rw [valid] at member
          dsimp only at member
          split at member
          · next taken =>
              obtain ⟨before, entry, after, rfl, found, unused, new⟩ := induction member
              refine ⟨first :: before, entry, after, rfl, found, unused, ?_⟩
              rw [runtimesOf_cons, valid]
              intro inside
              rcases List.mem_cons.mp inside with same | inside
              · exact unused (same ▸ taken)
              · exact new inside
          · next free =>
              rcases List.mem_cons.mp member with rfl | member
              · exact ⟨[], first, entries, rfl, valid, free, List.not_mem_nil⟩
              · obtain ⟨before, entry, after, rfl, found, unused, new⟩ := induction member
                refine ⟨first :: before, entry, after, rfl, found,
                  fun taken => unused (List.mem_cons_of_mem _ taken), ?_⟩
                rw [runtimesOf_cons, valid]
                intro inside
                rcases List.mem_cons.mp inside with same | inside
                · exact unused (same ▸ List.mem_cons_self ..)
                · exact new inside

theorem keepsEntry_iff {used : List Uuid} {visit : Visit} (keeps : visit.keeps = true)
    {entry : String × String} {pair : Uuid × Uuid} (valid : validEntry parser entry = some pair) :
    KeepsEntry parser (takeVisit parser used visit).1.2 entry ↔
      ∃ before after, accepted parser used visit.panel.leafRuntimeSessionIds.entries =
        before ++ pair :: after ∧ ∀ later ∈ after, later.1 ≠ pair.1 := by
  obtain ⟨pairs, root, after, rfl, whole, -⟩ := @takeVisit_keeps parser used visit keeps
  rw [whole]
  constructor
  · rintro ⟨found, same, member⟩
    cases valid.symm.trans same
    obtain ⟨before, other, after, split, texts, last⟩ := mem_takeVisit_entries.mp member
    obtain ⟨leafText, runtimeText⟩ := Prod.mk.inj texts
    have equal : other = pair :=
      Prod.ext (Uuid.display_injective leafText).symm (Uuid.display_injective runtimeText).symm
    subst equal
    exact ⟨before, after, split, last⟩
  · rintro ⟨before, after, split, last⟩
    exact ⟨pair, valid, mem_takeVisit_entries.mpr ⟨before, pair, after, split, rfl, last⟩⟩

section Dropped

variable {visits earlier later : List Visit} {visit : Visit}
  {before after : List (String × String)} {entry : String × String} {pair : Uuid × Uuid}

/-- An entry with a first use is kept, or another entry of its leaf behind it has a first
use too. -/
theorem keepsEntry_or_sharesLeaf (split : visits = earlier ++ visit :: later)
    (keeps : visit.keeps = true)
    (entries : visit.panel.leafRuntimeSessionIds.entries = before ++ entry :: after)
    (valid : validEntry parser entry = some pair) (first : FirstUse parser earlier before pair.2) :
    KeepsEntry parser (takeVisit parser (takeVisits parser [] earlier).2 visit).1.2 entry ∨
      SharesLeaf parser visits := by
  obtain ⟨unclaimed, new⟩ := first
  have unused : pair.2 ∉ (takeVisits parser [] earlier).2 := by
    rw [mem_takeVisits]
    exact fun taken => taken.elim List.not_mem_nil unclaimed
  obtain ⟨next, accepts, used⟩ :=
    @accepted_of_first parser _ before after entry pair valid unused new
  by_cases last : ∀ other ∈ accepted parser next after, other.1 ≠ pair.1
  · left
    rw [keepsEntry_iff keeps valid, entries]
    exact ⟨_, _, accepts, last⟩
  · right
    simp only [not_forall, not_not, exists_prop] at last
    obtain ⟨other, member, sameLeaf⟩ := last
    obtain ⟨middle, second, rest, rfl, secondValid, secondUnused, secondNew⟩ :=
      accepted_split member
    refine ⟨earlier, visit, later, before, entry, middle, second, rest, pair.1, pair.2, other.2,
      split, keeps, entries, valid, ?_, ⟨unclaimed, new⟩, ?_, ?_⟩
    · rw [secondValid, ← sameLeaf]
    · intro claimed
      exact secondUnused ((used _).mpr (.inl (mem_takeVisits.mpr (.inr claimed))))
    · intro inside
      rw [List.append_cons, runtimesOf_append, List.mem_append] at inside
      rcases inside with inside | inside
      · exact secondUnused ((used _).mpr (.inr inside))
      · exact secondNew inside

theorem takeVisits_at (earlier : List Visit) (visit : Visit) (later : List Visit) :
    (takeVisits parser [] (earlier ++ visit :: later)).1[earlier.length]? =
      some (takeVisit parser (takeVisits parser [] earlier).2 visit).1 := by
  rw [takeVisits_append, List.getElem?_append_right (by rw [length_takeVisits]),
    length_takeVisits, Nat.sub_self, takeVisits]
  rfl

/-- A runtime that is used has someone who got it first, and keeps it unless two entries of
one leaf got theirs. -/
theorem keepsRuntime_of_claimed {id : Uuid}
    (split : visits = earlier ++ later) (apart : ¬ SharesLeaf parser visits)
    (claimed : id ∈ earlier.flatMap (Visit.claims parser)) :
    ∃ index < earlier.length, ∃ visit sessions, visits[index]? = some visit ∧
      (takeVisits parser [] visits).1[index]? = some sessions ∧
      KeepsRuntime parser visit sessions id := by
  have some : (earlier.find? fun visit => decide (id ∈ visit.claims parser)).isSome = true := by
    obtain ⟨visit, member, claims⟩ := List.mem_flatMap.mp claimed
    exact List.find?_isSome.mpr ⟨visit, member, decide_eq_true claims⟩
  obtain ⟨visit, found⟩ := Option.isSome_iff_exists.mp some
  obtain ⟨claims, front, rest, rfl, others⟩ := List.find?_eq_some_iff_append.mp found
  have claims : id ∈ visit.claims parser := of_decide_eq_true claims
  have unclaimed : id ∉ front.flatMap (Visit.claims parser) := by
    intro inside
    obtain ⟨other, member, theirs⟩ := List.mem_flatMap.mp inside
    have not := others other member
    simp [theirs] at not
  have unused : id ∉ (takeVisits parser [] front).2 := by
    rw [mem_takeVisits]
    exact fun taken => taken.elim List.not_mem_nil unclaimed
  have keeps : visit.keeps = true := by
    by_contra resets
    rw [claims_resets (Bool.not_eq_true _ ▸ resets)] at claims
    cases claims
  have split' : visits = front ++ visit :: (rest ++ later) := by
    rw [split, List.append_assoc, List.cons_append]
  refine ⟨front.length, by simp, visit, _, ?_, split' ▸ takeVisits_at front visit _, keeps, ?_⟩
  · rw [split', List.getElem?_append_right (Nat.le_refl _), Nat.sub_self]
    rfl
  · rw [claims_keeps keeps, List.mem_append] at claims
    by_cases ofEntry : id ∈ runtimesOf parser visit.panel.leafRuntimeSessionIds.entries
    · right
      have listed := (@mem_accepted_or_used parser (takeVisits parser [] front).2 _ id).mpr
        (.inr ofEntry)
      have own := (List.mem_append.mp listed).resolve_right unused
      obtain ⟨pair, member, rfl⟩ := List.mem_map.mp (List.mem_reverse.mp own)
      obtain ⟨before, entry, after, entries, valid, -, new⟩ := accepted_split member
      have kept := (keepsEntry_or_sharesLeaf split' keeps entries valid
        ⟨unclaimed, new⟩).resolve_right apart
      refine ⟨entry, ?_, by rw [valid]; rfl, kept⟩
      rw [entries]
      exact List.mem_append_right _ (List.mem_cons_self ..)
    · left
      have ofRoot := claims.resolve_left ofEntry
      rw [Option.mem_toList] at ofRoot
      obtain ⟨text, -, parsedText⟩ := Option.bind_eq_some_iff.mp ofRoot
      obtain ⟨pairs, root, after, rfl, whole, rooted⟩ :=
        @takeVisit_keeps parser (takeVisits parser [] front).2 visit keeps
      rw [whole]
      have written : root.bind (parseNonNilUuid parser) = .some id := by
        cases rooted with
        | invalid parsed => cases parsed.symm.trans ofRoot
        | dropped other parsed _ taken =>
            cases parsed.symm.trans ofRoot
            exact absurd taken unused
        | own other parsed _ | new other parsed _ _ =>
            cases parsed.symm.trans ofRoot
            exact parseNonNilUuid_display (nonNil_of_parse parsedText)
      exact written

theorem not_keepsEntry_of_later {used : List Uuid} {other : String × String}
    {otherPair : Uuid × Uuid} (keeps : visit.keeps = true)
    (entries : visit.panel.leafRuntimeSessionIds.entries = before ++ entry :: after)
    (valid : validEntry parser entry = some pair) (unused : pair.2 ∉ used)
    (new : pair.2 ∉ runtimesOf parser before) (member : other ∈ before)
    (otherValid : validEntry parser other = some otherPair) (sameLeaf : pair.1 = otherPair.1) :
    ¬ KeepsEntry parser (takeVisit parser used visit).1.2 other := by
  rw [keepsEntry_iff keeps otherValid, entries]
  rintro ⟨front, rest, split, last⟩
  obtain ⟨next, accepts, nextUsed⟩ :=
    @accepted_of_first parser used before after entry pair valid unused new
  have distinct : (accepted parser used (before ++ entry :: after)).Nodup :=
    (accepted_runtimes used _).1.of_map _
  have claimed : otherPair.2 ∈ runtimesOf parser before :=
    List.mem_filterMap.mpr ⟨other, member, by rw [otherValid]; rfl⟩
  rw [accepts] at split distinct
  have inside : otherPair ∈ accepted parser used before ++ pair :: accepted parser next after := by
    rw [split]
    exact List.mem_append_right _ (List.mem_cons_self ..)
  have inFront : otherPair ∈ accepted parser used before := by
    rcases List.mem_append.mp inside with inFront | inBack
    · exact inFront
    · rcases List.mem_cons.mp inBack with rfl | inBack
      · exact absurd claimed new
      · apply absurd _ ((accepted_runtimes next after).2 otherPair inBack).1
        rw [nextUsed, runtimesOf_append]
        exact .inr (List.mem_append_left _ claimed)
  obtain ⟨first, second, whole⟩ := List.append_of_mem inFront
  rw [whole, List.append_assoc, List.cons_append] at split distinct
  have unique : otherPair ∉ first ∧ otherPair ∉ second ++ pair :: accepted parser next after := by
    obtain ⟨-, tail, apart⟩ := List.nodup_append.mp distinct
    exact ⟨fun member => apart otherPair member otherPair (List.mem_cons_self ..) rfl,
      (List.nodup_cons.mp tail).1⟩
  have same := (List.append_cons_inj_of_notMem unique.1 unique.2).mp split
  apply last pair _ sameLeaf
  rw [← same.2.2]
  exact List.mem_append_right _ (List.mem_cons_self ..)

theorem claims_of_keepsRuntime {used : List Uuid} {id : Uuid}
    (kept : KeepsRuntime parser visit (takeVisit parser used visit).1 id) :
    id ∈ visit.claims parser := by
  obtain ⟨keeps, kept⟩ := kept
  rw [claims_keeps keeps, List.mem_append]
  rcases kept with ofRoot | ⟨entry, member, runtime, -⟩
  · right
    obtain ⟨pairs, root, after, rfl, whole, rooted⟩ := @takeVisit_keeps parser used visit keeps
    rw [whole] at ofRoot
    cases rooted with
    | invalid | dropped => cases ofRoot
    | own other parsed _ | new other parsed _ _ =>
        obtain ⟨text, -, parsedText⟩ := Option.bind_eq_some_iff.mp parsed
        rw [Option.bind_some, parseNonNilUuid_display (nonNil_of_parse parsedText)] at ofRoot
        cases Option.some.inj ofRoot
        exact Option.mem_toList.mpr parsed
  · exact .inl (List.mem_filterMap.mpr ⟨entry, member, runtime⟩)

theorem dropsOnlyTaken_iff :
    DropsOnlyTaken parser visits (takeVisits parser [] visits).1 ↔ ¬ SharesLeaf parser visits := by
  constructor
  · rintro drops ⟨earlier, visit, later, before, first, middle, second, after, leaf,
      firstRuntime, secondRuntime, split, keeps, entries, firstValid, secondValid,
      ⟨unclaimed, new⟩, secondUnclaimed, secondNew⟩
    have unused : ∀ id, id ∉ earlier.flatMap (Visit.claims parser) →
        id ∉ (takeVisits parser [] earlier).2 := by
      intro id free
      rw [mem_takeVisits]
      exact fun taken => taken.elim List.not_mem_nil free
    have dropped : ¬ KeepsEntry parser
        (takeVisit parser (takeVisits parser [] earlier).2 visit).1.2 first := by
      have whole : visit.panel.leafRuntimeSessionIds.entries =
          (before ++ first :: middle) ++ second :: after := by
        rw [entries, List.append_assoc, List.cons_append]
      exact not_keepsEntry_of_later keeps whole secondValid (unused _ secondUnclaimed) secondNew
        (List.mem_append_right _ (List.mem_cons_self ..)) firstValid rfl
    rcases drops earlier visit later split keeps _ (split ▸ takeVisits_at earlier visit later)
      before first _ entries _ firstValid dropped with
      ⟨other, member, shared, kept⟩ | ⟨index, bound, otherVisit, otherSessions, at', result, kept⟩
    · rcases shared with sameLeaf | sameRuntime
      · obtain ⟨otherPair, otherValid, leafIs⟩ := Option.map_eq_some_iff.mp sameLeaf
        exact not_keepsEntry_of_later keeps entries firstValid (unused _ unclaimed) new member
          otherValid leafIs.symm kept
      · apply new
        exact List.mem_filterMap.mpr ⟨other, member, sameRuntime⟩
    · obtain ⟨front, rest, earlierIs, length⟩ :
          ∃ front rest, earlier = front ++ otherVisit :: rest ∧ front.length = index := by
        have inEarlier : earlier[index]? = some otherVisit := by
          rw [split, List.getElem?_append_left bound] at at'
          exact at'
        obtain ⟨bound, rfl⟩ := List.getElem?_eq_some_iff.mp inEarlier
        exact ⟨earlier.take index, earlier.drop (index + 1), by simp,
          List.length_take_of_le (Nat.le_of_lt bound)⟩
      have whole : visits = front ++ otherVisit :: (rest ++ visit :: later) := by
        rw [split, earlierIs, List.append_assoc, List.cons_append]
      rw [whole, ← length, takeVisits_at] at result
      cases result
      apply unclaimed
      rw [earlierIs]
      exact List.mem_flatMap.mpr ⟨otherVisit, List.mem_append_right _ (List.mem_cons_self ..),
        claims_of_keepsRuntime kept⟩
  · intro apart earlier visit later split keeps sessions at' before entry after entries pair
      valid dropped
    rw [split, takeVisits_at] at at'
    cases at'
    by_cases claimed : pair.2 ∈ earlier.flatMap (Visit.claims parser)
    · exact .inr (keepsRuntime_of_claimed split apart claimed)
    · left
      by_cases new : pair.2 ∈ runtimesOf parser before
      · have unused : pair.2 ∉ (takeVisits parser [] earlier).2 := by
          rw [mem_takeVisits]
          exact fun taken => taken.elim List.not_mem_nil claimed
        have listed := (@mem_accepted_or_used parser (takeVisits parser [] earlier).2 before
          pair.2).mpr (.inr new)
        rcases List.mem_append.mp listed with own | taken
        · obtain ⟨other, member, same⟩ := List.mem_map.mp (List.mem_reverse.mp own)
          obtain ⟨front, holder, rest, beforeIs, otherValid, otherUnused, otherNew⟩ :=
            accepted_split member
          have whole : visit.panel.leafRuntimeSessionIds.entries =
              front ++ holder :: (rest ++ entry :: after) := by
            rw [entries, beforeIs, List.append_assoc, List.cons_append]
          have first : FirstUse parser earlier front other.2 :=
            ⟨same ▸ claimed, otherNew⟩
          have kept := (keepsEntry_or_sharesLeaf split keeps whole otherValid first).resolve_right
            apart
          refine ⟨holder, ?_, .inr ?_, kept⟩
          · rw [beforeIs]
            exact List.mem_append_right _ (List.mem_cons_self ..)
          · rw [otherValid, Option.map_some, same]
        · exact absurd taken unused
      · exact absurd ((keepsEntry_or_sharesLeaf split keeps entries valid
          ⟨claimed, new⟩).resolve_right apart) dropped

end Dropped

end Sessions

end TerminalCanvas.Layout
