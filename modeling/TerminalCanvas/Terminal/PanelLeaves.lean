import TerminalCanvas.Foundation.SortedMap
import TerminalCanvas.Foundation.Table
import TerminalCanvas.Foundation.Text
import TerminalCanvas.Terminal.SplitTree

/-! # The leaves of a panel and their sessions

A saved panel is restored whatever its identifiers look like. Its leaves are then split,
closed and focused, each with a session of its own. -/

namespace TerminalCanvas.PanelLeaves

open SplitTree (LeafId SplitNode Axis)

/-! ## Saved panels -/

/-- What a saved panel says about its leaves. -/
structure SavedLeaves (Value : Type) where
  splitTree : Option Value
  rootLeaf : Option String
  focusedLeaf : Option String
  leafRuntimeSessionIds : SortedMap String String
  runtimeSessionId : Option String
  leafAgentCommands : SortedMap String String
  agentCommand : Option String
  leafAgentSessionIds : SortedMap String String
  agentSessionId : Option String

structure RestoredLeafState where
  splitTree : Option SplitNode
  rootLeaf : LeafId
  focusedLeaf : LeafId
  runtimeSessionIds : Table LeafId Uuid
  agentCommands : Table LeafId String
  agentSessionIds : Table LeafId String

/-- The runtimes given to leaves so far, and those that are taken. -/
structure Runtimes where
  sessions : Table LeafId Uuid
  claimed : List Uuid

section Restoring

variable (parse : String → Option Uuid)

def parseSavedUuid (value : Option String) : Option Uuid := (value.bind parse).filter (· ≠ .nil)

/-- A tree without nil or repeated leaves. -/
def validTree (tree : Option SplitNode) : Option SplitNode :=
  tree.filter fun tree =>
    ¬ (tree.leaves = [] ∨ Uuid.nil ∈ tree.leaves ∨ ¬ tree.leaves.Nodup)

def restoredRoot (leaves : List LeafId) (generated : LeafId) (saved : Option String) : LeafId :=
  match parseSavedUuid parse saved with
  | some root => if leaves = [] ∨ root ∈ leaves then root else leaves.head?.getD generated
  | none => leaves.head?.getD generated

def takeRuntime (active : List LeafId) (runtimes : Runtimes) (entry : String × String) :
    Runtimes :=
  match parseSavedUuid parse (some entry.1), parseSavedUuid parse (some entry.2) with
  | some leaf, some runtime =>
      if leaf ∉ active then runtimes
      else if runtime ∈ runtimes.claimed then runtimes
      else ⟨runtimes.sessions.put leaf runtime, runtime :: runtimes.claimed⟩
  | _, _ => runtimes

/-- Older layouts know the session of the root only. -/
def takeLegacyRuntime (root : LeafId) (legacy : Option String) (runtimes : Runtimes) :
    Table LeafId Uuid :=
  match runtimes.sessions.find root, parseSavedUuid parse legacy with
  | none, some runtime =>
      if runtime ∈ runtimes.claimed then runtimes.sessions
      else runtimes.sessions.put root runtime
  | _, _ => runtimes.sessions

def takeString (active : List LeafId) (strings : Table LeafId String) (entry : String × String) :
    Table LeafId String :=
  match parseSavedUuid parse (some entry.1) with
  | some leaf =>
      if leaf ∉ active ∨ trim entry.2 = "" then strings else strings.put leaf (trim entry.2)
  | none => strings

def takeLegacyString (root : LeafId) (legacy : Option String) (strings : Table LeafId String) :
    Table LeafId String :=
  match strings.find root, legacy.filter (trim · ≠ "") with
  | none, some value => strings.put root value
  | _, _ => strings

def restoredLeafStrings (active : List LeafId) (root : LeafId) (saved : SortedMap String String)
    (legacy : Option String) : Table LeafId String :=
  takeLegacyString root legacy (saved.entries.foldl (takeString parse active) ∅)

/-- The tree is decoded by the derived deserializer. -/
def restoredLeafState {Value : Type} (decode : Value → Option SplitNode)
    (saved : SavedLeaves Value) (generatedRoot : LeafId) : RestoredLeafState :=
  let tree := validTree (saved.splitTree.bind decode)
  let leaves := (tree.map SplitNode.leaves).getD []
  let root := restoredRoot parse leaves generatedRoot saved.rootLeaf
  let active := if leaves = [] then [root] else leaves
  let runtimes := saved.leafRuntimeSessionIds.entries.foldl (takeRuntime parse active) ⟨∅, []⟩
  { splitTree := tree.filter (1 < ·.leafCount)
    rootLeaf := root
    focusedLeaf := ((parseSavedUuid parse saved.focusedLeaf).filter (· ∈ active)).getD root
    runtimeSessionIds := takeLegacyRuntime parse root saved.runtimeSessionId runtimes
    agentCommands :=
      restoredLeafStrings parse active root saved.leafAgentCommands saved.agentCommand
    agentSessionIds :=
      restoredLeafStrings parse active root saved.leafAgentSessionIds saved.agentSessionId }

end Restoring

/-! ## Panels -/

abbrev Session := Option Uuid

/-- A panel, with the sessions that were closed for good. -/
structure Panel where
  splitTree : Option SplitNode
  rootLeaf : LeafId
  focusedLeaf : LeafId
  session : Session
  leafSessions : Table LeafId Session
  leafAgentCommands : Table LeafId String
  leafAgentSessionIds : Table LeafId String
  agentCommand : Option String
  agentSessionId : Option String
  closed : List Uuid

/-- The sessions that the manager knows. It cannot be used once its lock is poisoned. -/
abbrev Manager := Option (List Uuid)

/-- `restore_detached_with_spec`: a session that exists is not given out again. -/
def restoreDetached (drawn : Uuid) (existing : Option Uuid) : Manager → Session × Manager
  | none => (none, none)
  | some sessions =>
      let id := (existing.filter (· ∉ sessions)).getD drawn
      (some id, some (id :: sessions))

namespace Panel

def activeLeafIds (panel : Panel) : List LeafId :=
  (panel.splitTree.map SplitNode.leaves).getD [panel.rootLeaf]

def leafSession (panel : Panel) (leaf : LeafId) : Option Session :=
  if leaf = panel.rootLeaf then some panel.session else panel.leafSessions.find leaf

def syncLegacyAgentMetadata (panel : Panel) : Panel :=
  { panel with
    agentCommand := panel.leafAgentCommands.find panel.rootLeaf
    agentSessionId := panel.leafAgentSessionIds.find panel.rootLeaf }

def closeForGood (panel : Panel) (session : Session) : Panel :=
  { panel with closed := panel.closed ++ session.toList }

/-- The session of the new leaf has no identifier when it could not be started. -/
def splitFocused (axis : Axis) (random : BitVec 128) (started : Session) (panel : Panel) : Panel :=
  match (panel.splitTree.getD (.leaf panel.rootLeaf)).splitLeaf panel.focusedLeaf axis random with
  | (tree, none) => { panel with splitTree := some tree }
  | (tree, some newLeaf) =>
      { panel with
        splitTree := some tree
        leafSessions := panel.leafSessions.put newLeaf started
        focusedLeaf := newLeaf }

/-- What is left once the session of a leaf is closed. -/
def afterClose (closing nextFocus : LeafId) (tree : SplitNode) (panel : Panel) : Panel :=
  let panel := { panel with
    leafAgentCommands := panel.leafAgentCommands.remove closing
    leafAgentSessionIds := panel.leafAgentSessionIds.remove closing
    focusedLeaf := nextFocus }
  let panel :=
    if tree.leafCount ≤ 1 then { panel with splitTree := none, focusedLeaf := panel.rootLeaf }
    else { panel with splitTree := some tree }
  panel.syncLegacyAgentMetadata

/-- Whether the panel itself has to be closed stands beside what is left of it. -/
def closeFocusedLeaf (panel : Panel) : Panel × Bool :=
  match panel.splitTree with
  | none => (panel, true)
  | some original =>
      match original.close panel.focusedLeaf with
      | (_, .emptied) =>
          ({ panel.closeForGood panel.session with splitTree := none, session := none }, true)
      | (_, .closed none) => (panel, false)
      | (tree, .closed (some nextFocus)) =>
          if panel.focusedLeaf = panel.rootLeaf then
            match panel.leafSessions.find nextFocus with
            | none => (panel, false)
            | some promoted =>
                let promotedPanel := { panel.closeForGood panel.session with
                  session := promoted
                  rootLeaf := nextFocus
                  leafSessions := panel.leafSessions.remove nextFocus }
                (promotedPanel.afterClose panel.focusedLeaf nextFocus tree, false)
          else
            match panel.leafSessions.find panel.focusedLeaf with
            | none => (panel, false)
            | some closed =>
                let closedPanel := { panel.closeForGood closed with
                  leafSessions := panel.leafSessions.remove panel.focusedLeaf }
                (closedPanel.afterClose panel.focusedLeaf nextFocus tree, false)
      | (tree, .notFound) => ({ panel with splitTree := some tree }, false)

def focusNextLeaf (panel : Panel) : Panel :=
  match panel.splitTree.bind (·.focusNext panel.focusedLeaf) with
  | none => panel
  | some next => { panel with focusedLeaf := next }

end Panel

/-- The sessions of the leaves behind the root, in the order of the tree. -/
def restoreLeaf (restored : RestoredLeafState) (draw : LeafId → Uuid)
    (state : Table LeafId Session × Manager) (leaf : LeafId) : Table LeafId Session × Manager :=
  if leaf = restored.rootLeaf then state
  else
    let (session, manager) :=
      restoreDetached (draw leaf) (restored.runtimeSessionIds.find leaf) state.2
    (state.1.put leaf session, manager)

/-- `draw` is the identifier that the manager draws for the session of a leaf. -/
def restoreSplitTree (restored : RestoredLeafState) (manager : Manager) (draw : LeafId → Uuid) :
    Panel :=
  let root := restoreDetached (draw restored.rootLeaf)
    (restored.runtimeSessionIds.find restored.rootLeaf) manager
  let active := (restored.splitTree.map SplitNode.leaves).getD [restored.rootLeaf]
  { splitTree := restored.splitTree
    rootLeaf := restored.rootLeaf
    focusedLeaf := restored.focusedLeaf
    session := root.1
    leafSessions := (active.foldl (restoreLeaf restored draw) (∅, root.2)).1
    leafAgentCommands := restored.agentCommands
    leafAgentSessionIds := restored.agentSessionIds
    agentCommand := restored.agentCommands.find restored.rootLeaf
    agentSessionId := restored.agentSessionIds.find restored.rootLeaf
    closed := [] }

/-! ## What is restored -/

section Restored

variable {parse : String → Option Uuid}

theorem parseSavedUuid_ne_nil {value : Option String} {id : Uuid}
    (parsed : parseSavedUuid parse value = some id) : id ≠ .nil :=
  of_decide_eq_true (Option.filter_eq_some_iff.mp parsed).2

theorem validTree_leaves {tree valid : Option SplitNode} (is : validTree tree = valid) :
    (((valid.map SplitNode.leaves).getD []).Nodup ∧
      Uuid.nil ∉ (valid.map SplitNode.leaves).getD []) ∧
      ((valid.map SplitNode.leaves).getD [] = [] ↔ valid = none) := by
  cases valid with
  | none => simp
  | some valid =>
      have sound := of_decide_eq_true (Option.filter_eq_some_iff.mp is).2
      rw [not_or, not_or, not_not] at sound
      exact ⟨⟨sound.2.2, sound.2.1⟩, by simp [sound.1]⟩

theorem restoredRoot_mem {leaves : List LeafId} {generated : LeafId} {saved : Option String}
    (named : generated ≠ .nil) :
    (leaves = [] → restoredRoot parse leaves generated saved ≠ .nil) ∧
    (leaves ≠ [] → restoredRoot parse leaves generated saved ∈ leaves) := by
  have head : leaves ≠ [] → leaves.head?.getD generated ∈ leaves := by
    intro some
    cases leaves with
    | nil => exact absurd rfl some
    | cons first rest => exact List.mem_cons_self ..
  unfold restoredRoot
  cases parsed : parseSavedUuid parse saved with
  | none =>
      refine ⟨?_, head⟩
      rintro rfl
      exact named
  | some root =>
      dsimp only
      split
      · next placed => exact ⟨fun _ => parseSavedUuid_ne_nil parsed, fun some =>
          placed.resolve_left some⟩
      · refine ⟨?_, head⟩
        rintro rfl
        exact named

/-! ### Runtimes -/

/-- Each runtime is given to one leaf, and is then taken. -/
structure Runtimes.Sound (runtimes : Runtimes) : Prop where
  claimed : ∀ leaf runtime, runtimes.sessions.find leaf = some runtime →
    runtime ∈ runtimes.claimed
  injective : ∀ leaf other runtime, runtimes.sessions.find leaf = some runtime →
    runtimes.sessions.find other = some runtime → leaf = other

theorem find_put_injective {sessions : Table LeafId Uuid} {leaf : LeafId} {runtime : Uuid}
    (new : ∀ other, sessions.find other ≠ some runtime)
    (injective : ∀ leaf other runtime, sessions.find leaf = some runtime →
      sessions.find other = some runtime → leaf = other) :
    ∀ first second id, (sessions.put leaf runtime).find first = some id →
      (sessions.put leaf runtime).find second = some id → first = second := by
  intro first second id one two
  rw [Table.find_put] at one two
  split at one
  · next here =>
      cases one
      split at two
      · next also => rw [here, also]
      · exact absurd two (new second)
  · split at two
    · cases two
      exact absurd one (new first)
    · exact injective first second id one two

theorem takeRuntime_sound {active : List LeafId} {runtimes : Runtimes} (sound : runtimes.Sound)
    (entry : String × String) : (takeRuntime parse active runtimes entry).Sound := by
  unfold takeRuntime
  split
  · next leaf runtime _ _ =>
      split
      · exact sound
      · split
        · exact sound
        · next free =>
            have new : ∀ other, runtimes.sessions.find other ≠ some runtime := fun other found =>
              free (sound.claimed other runtime found)
            refine ⟨?_, find_put_injective new sound.injective⟩
            intro other id found
            rw [Table.find_put] at found
            split at found
            · cases found
              exact List.mem_cons_self ..
            · exact List.mem_cons_of_mem _ (sound.claimed other id found)
  · exact sound

theorem foldl_takeRuntime_sound {active : List LeafId} {runtimes : Runtimes}
    (sound : runtimes.Sound) (entries : List (String × String)) :
    (entries.foldl (takeRuntime parse active) runtimes).Sound := by
  induction entries generalizing runtimes with
  | nil => exact sound
  | cons entry entries induction => exact induction (takeRuntime_sound sound entry)

theorem takeLegacyRuntime_injective {root : LeafId} {legacy : Option String}
    {runtimes : Runtimes} (sound : runtimes.Sound) :
    ∀ leaf other runtime, (takeLegacyRuntime parse root legacy runtimes).find leaf = some runtime →
      (takeLegacyRuntime parse root legacy runtimes).find other = some runtime → leaf = other := by
  unfold takeLegacyRuntime
  split
  · next runtime _ _ =>
      split
      · exact sound.injective
      · next free =>
          refine find_put_injective ?_ sound.injective
          exact fun other found => free (sound.claimed other runtime found)
  · exact sound.injective

theorem takeRuntime_claimed {active : List LeafId} {runtimes : Runtimes}
    {entry : String × String} {runtime : Uuid}
    (claimed : runtime ∈ (takeRuntime parse active runtimes entry).claimed) :
    runtime ∈ runtimes.claimed ∨ parseSavedUuid parse (some entry.2) = some runtime := by
  unfold takeRuntime at claimed
  split at claimed
  · next leaf own _ parsed =>
      split at claimed
      · exact .inl claimed
      · split at claimed
        · exact .inl claimed
        · rcases List.mem_cons.mp claimed with rfl | before
          · exact .inr parsed
          · exact .inl before
  · exact .inl claimed

theorem foldl_takeRuntime_claimed {active : List LeafId} {runtimes : Runtimes}
    {entries : List (String × String)} {runtime : Uuid}
    (claimed : runtime ∈ (entries.foldl (takeRuntime parse active) runtimes).claimed) :
    runtime ∈ runtimes.claimed ∨
      ∃ entry ∈ entries, parseSavedUuid parse (some entry.2) = some runtime := by
  induction entries generalizing runtimes with
  | nil => exact .inl claimed
  | cons entry entries induction =>
      rcases induction claimed with here | ⟨other, member, parsed⟩
      · rcases takeRuntime_claimed here with before | parsed
        · exact .inl before
        · exact .inr ⟨entry, List.mem_cons_self .., parsed⟩
      · exact .inr ⟨other, List.mem_cons_of_mem _ member, parsed⟩

theorem foldl_takeRuntime_other {active : List LeafId} {runtimes : Runtimes}
    {entries : List (String × String)} {leaf : LeafId}
    (other : ∀ entry ∈ entries, parseSavedUuid parse (some entry.1) ≠ some leaf) :
    (entries.foldl (takeRuntime parse active) runtimes).sessions.find leaf =
      runtimes.sessions.find leaf := by
  induction entries generalizing runtimes with
  | nil => rfl
  | cons entry entries induction =>
      have rest := @induction (takeRuntime parse active runtimes entry) fun later member =>
        other later (List.mem_cons_of_mem _ member)
      rw [List.foldl_cons, rest]
      unfold takeRuntime
      split
      · next own runtime parsed _ =>
          split
          · rfl
          · split
            · rfl
            · refine Table.find_put_of_ne _ _ fun same => ?_
              exact other entry (List.mem_cons_self ..) (same ▸ parsed)
      · rfl

/-- A pair of a leaf and a runtime neither of which another pair has. -/
structure Kept (parse : String → Option Uuid) (active : List LeafId)
    (saved : SortedMap String String) (entry : String × String) (leaf : LeafId)
    (runtime : Uuid) : Prop where
  member : entry ∈ saved.entries
  leafParsed : parseSavedUuid parse (some entry.1) = some leaf
  runtimeParsed : parseSavedUuid parse (some entry.2) = some runtime
  active : leaf ∈ active
  once : ∀ other ∈ saved.entries, other ≠ entry →
    parseSavedUuid parse (some other.1) ≠ some leaf ∧
      parseSavedUuid parse (some other.2) ≠ some runtime

theorem Kept.find {active : List LeafId} {saved : SortedMap String String}
    {entry : String × String} {leaf : LeafId} {runtime : Uuid}
    (kept : Kept parse active saved entry leaf runtime) :
    (saved.entries.foldl (takeRuntime parse active) ⟨∅, []⟩).sessions.find leaf =
      some runtime := by
  obtain ⟨before, after, split⟩ := List.append_of_mem kept.member
  have sorted := saved.sorted
  rw [split, List.pairwise_append, List.pairwise_cons] at sorted
  have once : ∀ other, other ∈ before ∨ other ∈ after →
      parseSavedUuid parse (some other.1) ≠ some leaf ∧
        parseSavedUuid parse (some other.2) ≠ some runtime := by
    rintro other (earlier | later)
    · refine kept.once other (by rw [split]; exact List.mem_append_left _ earlier) fun same => ?_
      exact ne_of_lt (sorted.2.2 other earlier entry (List.mem_cons_self ..)) (congrArg _ same)
    · refine kept.once other ?_ fun same => ?_
      · rw [split]
        exact List.mem_append_right _ (List.mem_cons_of_mem _ later)
      · exact ne_of_gt (sorted.2.1.1 other later) (congrArg _ same)
  have free : runtime ∉ (before.foldl (takeRuntime parse active) ⟨∅, []⟩).claimed := by
    intro claimed
    rcases foldl_takeRuntime_claimed claimed with nothing | ⟨other, member, parsed⟩
    · exact nomatch nothing
    · exact (once other (.inl member)).2 parsed
  rw [split, List.foldl_append, List.foldl_cons, foldl_takeRuntime_other fun other member =>
    (once other (.inr member)).1, takeRuntime, kept.leafParsed, kept.runtimeParsed]
  dsimp only
  rw [if_neg (not_not.mpr kept.active), if_neg free]
  exact Table.find_put_self _ _ _

theorem takeLegacyRuntime_find {root leaf : LeafId} {legacy : Option String}
    {runtimes : Runtimes} {runtime : Uuid} (found : runtimes.sessions.find leaf = some runtime) :
    (takeLegacyRuntime parse root legacy runtimes).find leaf = some runtime := by
  unfold takeLegacyRuntime
  split
  · next vacant _ =>
      split
      · exact found
      · rw [Table.find_put_of_ne, found]
        rintro rfl
        rw [vacant] at found
        cases found
  · exact found

/-! ### Strings -/

theorem takeString_keys {active : List LeafId} {strings : Table LeafId String}
    (within : ∀ leaf ∈ strings.keys, leaf ∈ active) (entry : String × String) :
    ∀ leaf ∈ (takeString parse active strings entry).keys, leaf ∈ active := by
  unfold takeString
  split
  · next own _ =>
      split
      · exact within
      · next kept =>
          rw [not_or, not_not] at kept
          intro leaf member
          rcases Table.mem_keys_put.mp member with rfl | before
          · exact kept.1
          · exact within leaf before
  · exact within

theorem restoredLeafStrings_keys {active : List LeafId} {root : LeafId} (inside : root ∈ active)
    (saved : SortedMap String String) (legacy : Option String) :
    ∀ leaf ∈ (restoredLeafStrings parse active root saved legacy).keys, leaf ∈ active := by
  have taken : ∀ (entries : List (String × String)) (strings : Table LeafId String),
      (∀ leaf ∈ strings.keys, leaf ∈ active) →
      ∀ leaf ∈ (entries.foldl (takeString parse active) strings).keys, leaf ∈ active := by
    intro entries
    induction entries with
    | nil => exact fun _ within => within
    | cons entry entries induction =>
        exact fun strings within => induction _ (takeString_keys within entry)
  have own := taken saved.entries ∅ nofun
  unfold restoredLeafStrings takeLegacyString
  split
  · intro leaf member
    rcases Table.mem_keys_put.mp member with rfl | before
    · exact inside
    · exact own leaf before
  · exact own

end Restored

/-! ### Sessions -/

section Sessions

variable (restored : RestoredLeafState) (draw : LeafId → Uuid)

theorem keys_restoreLeaf (state : Table LeafId Session × Manager) (leaf other : LeafId) :
    other ∈ (restoreLeaf restored draw state leaf).1.keys ↔
      other ∈ state.1.keys ∨ (other = leaf ∧ other ≠ restored.rootLeaf) := by
  unfold restoreLeaf
  split
  · next root =>
      constructor
      · exact .inl
      · rintro (there | ⟨same, apart⟩)
        · exact there
        · exact absurd (same.trans root) apart
  · next apart =>
      dsimp only
      rw [Table.mem_keys_put]
      constructor
      · rintro (rfl | there)
        · exact .inr ⟨rfl, apart⟩
        · exact .inl there
      · rintro (there | ⟨same, -⟩)
        · exact .inr there
        · exact .inl same

theorem keys_foldl_restoreLeaf (leaves : List LeafId) (state : Table LeafId Session × Manager)
    (other : LeafId) : other ∈ (leaves.foldl (restoreLeaf restored draw) state).1.keys ↔
      other ∈ state.1.keys ∨ (other ∈ leaves ∧ other ≠ restored.rootLeaf) := by
  induction leaves generalizing state with
  | nil => simp
  | cons leaf leaves induction =>
      rw [List.foldl_cons, induction, keys_restoreLeaf, List.mem_cons]
      tauto

theorem find_foldl_restoreLeaf_other {leaves : List LeafId} {other : LeafId}
    (apart : other ∉ leaves) (state : Table LeafId Session × Manager) :
    (leaves.foldl (restoreLeaf restored draw) state).1.find other = state.1.find other := by
  induction leaves generalizing state with
  | nil => rfl
  | cons leaf leaves induction =>
      rw [List.mem_cons, not_or] at apart
      rw [List.foldl_cons, induction apart.2]
      unfold restoreLeaf
      split
      · rfl
      · exact Table.find_put_of_ne _ _ apart.1

/-- The identifier of the session of a leaf: the saved one, unless the manager knew it. -/
def givenSession (sessions : List Uuid) (leaf : LeafId) : Uuid :=
  ((restored.runtimeSessionIds.find leaf).filter (· ∉ sessions)).getD (draw leaf)

structure FreshDraws (sessions : List Uuid) (leaves : List LeafId) : Prop where
  distinct : ∀ leaf ∈ leaves, ∀ other ∈ leaves, draw leaf = draw other → leaf = other
  unknown : ∀ leaf ∈ leaves, draw leaf ∉ sessions
  unsaved : ∀ leaf ∈ leaves, ∀ other, restored.runtimeSessionIds.find other ≠ some (draw leaf)

variable {restored draw}

theorem restoreDetached_given {sessions current : List Uuid} {leaves earlier : List LeafId}
    {leaf : LeafId} (fresh : FreshDraws restored draw sessions leaves)
    (injective : ∀ leaf other runtime, restored.runtimeSessionIds.find leaf = some runtime →
      restored.runtimeSessionIds.find other = some runtime → leaf = other)
    (known : ∀ id, id ∈ current ↔ id ∈ sessions ∨
      ∃ other ∈ earlier, id = givenSession restored draw sessions other)
    (within : ∀ other ∈ earlier, other ∈ leaves) (new : leaf ∉ earlier) :
    restoreDetached (draw leaf) (restored.runtimeSessionIds.find leaf) (some current) =
      (some (givenSession restored draw sessions leaf),
        some (givenSession restored draw sessions leaf :: current)) := by
  have same : (restored.runtimeSessionIds.find leaf).filter (· ∉ current) =
      (restored.runtimeSessionIds.find leaf).filter (· ∉ sessions) := by
    cases saved : restored.runtimeSessionIds.find leaf with
    | none => rfl
    | some runtime =>
        have only : runtime ∈ current ↔ runtime ∈ sessions := by
          rw [known]
          refine ⟨?_, .inl⟩
          rintro (there | ⟨other, member, is⟩)
          · exact there
          · exfalso
            unfold givenSession at is
            cases also : (restored.runtimeSessionIds.find other).filter (· ∉ sessions) with
            | none =>
                rw [also, Option.getD_none] at is
                exact fresh.unsaved other (within other member) leaf (is ▸ saved)
            | some id =>
                rw [also, Option.getD_some] at is
                have held := (Option.filter_eq_some_iff.mp also).1
                exact new (injective other leaf id held (is ▸ saved) ▸ member)
        simp only [Option.filter_some, only]
  unfold restoreDetached givenSession
  dsimp only
  rw [same]

theorem find_foldl_restoreLeaf {sessions current : List Uuid} {leaves earlier rest : List LeafId}
    (fresh : FreshDraws restored draw sessions leaves)
    (injective : ∀ leaf other runtime, restored.runtimeSessionIds.find leaf = some runtime →
      restored.runtimeSessionIds.find other = some runtime → leaf = other)
    (known : ∀ id, id ∈ current ↔ id ∈ sessions ∨
      ∃ other ∈ earlier, id = givenSession restored draw sessions other)
    (root : restored.rootLeaf ∈ earlier) (within : ∀ other ∈ earlier, other ∈ leaves)
    (inside : ∀ other ∈ rest, other ∈ leaves) (distinct : rest.Nodup)
    (apart : ∀ other ∈ rest, other ∈ earlier → other = restored.rootLeaf)
    (table : Table LeafId Session) {leaf : LeafId} (member : leaf ∈ rest)
    (other : leaf ≠ restored.rootLeaf) :
    (rest.foldl (restoreLeaf restored draw) (table, some current)).1.find leaf =
      some (some (givenSession restored draw sessions leaf)) := by
  induction rest generalizing current earlier table with
  | nil => exact nomatch member
  | cons first rest induction =>
      obtain ⟨new, distinct⟩ := List.nodup_cons.mp distinct
      have insideRest : ∀ other ∈ rest, other ∈ leaves := fun other later =>
        inside other (List.mem_cons_of_mem _ later)
      rw [List.foldl_cons, restoreLeaf]
      split
      · next isRoot =>
          have later := (List.mem_cons.mp member).resolve_left fun same => other (same.trans isRoot)
          exact induction known root within insideRest distinct
            (fun other later => apart other (List.mem_cons_of_mem _ later)) table later
      · next notRoot =>
          have unseen : first ∉ earlier := fun seen =>
            notRoot (apart first (List.mem_cons_self ..) seen)
          rw [restoreDetached_given fresh injective known within unseen]
          dsimp only
          rcases List.mem_cons.mp member with rfl | later
          · rw [find_foldl_restoreLeaf_other restored draw new]
            exact Table.find_put_self _ _ _
          · refine @induction _ (first :: earlier) ?_ (List.mem_cons_of_mem _ root) ?_
              insideRest distinct ?_ _ later
            · intro id
              rw [List.mem_cons, known]
              constructor
              · rintro (same | there | ⟨other, seen, is⟩)
                · exact .inr ⟨first, List.mem_cons_self .., same⟩
                · exact .inl there
                · exact .inr ⟨other, List.mem_cons_of_mem _ seen, is⟩
              · rintro (there | ⟨other, seen, is⟩)
                · exact .inr (.inl there)
                · rcases List.mem_cons.mp seen with rfl | seen
                  · exact .inl is
                  · exact .inr (.inr ⟨other, seen, is⟩)
            · intro other seen
              rcases List.mem_cons.mp seen with rfl | seen
              · exact inside other (List.mem_cons_self ..)
              · exact within other seen
            · intro other later seen
              rcases List.mem_cons.mp seen with rfl | seen
              · exact absurd later new
              · exact apart other (List.mem_cons_of_mem _ later) seen

end Sessions

/-! ## The invariant -/

/-- The leaves, the focus, the sessions and the metadata of a panel agree. -/
structure InStep (panel : Panel) : Prop where
  distinct : panel.activeLeafIds.Nodup
  named : Uuid.nil ∉ panel.activeLeafIds
  root : panel.rootLeaf ∈ panel.activeLeafIds
  focused : panel.focusedLeaf ∈ panel.activeLeafIds
  sessions : ∀ leaf, leaf ∈ panel.leafSessions.keys ↔
    leaf ∈ panel.activeLeafIds ∧ leaf ≠ panel.rootLeaf
  shared : ∀ tree, panel.splitTree = some tree → 2 ≤ tree.leafCount
  commands : ∀ leaf ∈ panel.leafAgentCommands.keys, leaf ∈ panel.activeLeafIds
  agents : ∀ leaf ∈ panel.leafAgentSessionIds.keys, leaf ∈ panel.activeLeafIds
  command : panel.agentCommand = panel.leafAgentCommands.find panel.rootLeaf
  agent : panel.agentSessionId = panel.leafAgentSessionIds.find panel.rootLeaf

section FromSaved

variable {Value : Type} (parse : String → Option Uuid) (decode : Value → Option SplitNode)
  (saved : SavedLeaves Value) {generatedRoot : LeafId}

theorem restored_active (named : generatedRoot ≠ .nil) :
    ∃ active : List LeafId, active.Nodup ∧ Uuid.nil ∉ active ∧
      (restoredLeafState parse decode saved generatedRoot).rootLeaf ∈ active ∧
      (restoredLeafState parse decode saved generatedRoot).focusedLeaf ∈ active ∧
      ((restoredLeafState parse decode saved generatedRoot).splitTree.map SplitNode.leaves).getD
        [(restoredLeafState parse decode saved generatedRoot).rootLeaf] = active ∧
      (restoredLeafState parse decode saved generatedRoot).runtimeSessionIds =
        takeLegacyRuntime parse (restoredLeafState parse decode saved generatedRoot).rootLeaf
          saved.runtimeSessionId (saved.leafRuntimeSessionIds.entries.foldl
            (takeRuntime parse active) ⟨∅, []⟩) ∧
      (∀ leaf ∈ (restoredLeafState parse decode saved generatedRoot).agentCommands.keys,
        leaf ∈ active) ∧
      ∀ leaf ∈ (restoredLeafState parse decode saved generatedRoot).agentSessionIds.keys,
        leaf ∈ active := by
  obtain ⟨tree, is⟩ : ∃ tree, validTree (saved.splitTree.bind decode) = tree := ⟨_, rfl⟩
  obtain ⟨⟨distinct, clean⟩, empty⟩ := validTree_leaves is
  unfold restoredLeafState
  rw [is]
  dsimp only
  obtain ⟨leaves, leaves_eq⟩ : ∃ leaves, (tree.map SplitNode.leaves).getD [] = leaves := ⟨_, rfl⟩
  rw [leaves_eq] at distinct clean empty ⊢
  obtain ⟨root, root_eq⟩ : ∃ root, restoredRoot parse leaves generatedRoot saved.rootLeaf = root :=
    ⟨_, rfl⟩
  obtain ⟨apart, inside⟩ :=
    root_eq ▸ @restoredRoot_mem parse leaves generatedRoot saved.rootLeaf named
  rw [root_eq]
  obtain ⟨active, active_eq⟩ : ∃ active, (if leaves = [] then [root] else leaves) = active :=
    ⟨_, rfl⟩
  rw [active_eq]
  have rootActive : root ∈ active := by
    rw [← active_eq]
    split
    · exact List.mem_singleton_self root
    · next some => exact inside some
  refine ⟨active, ?_, ?_, rootActive, ?_, ?_, rfl, ?_, ?_⟩
  · rw [← active_eq]
    split
    · exact List.nodup_singleton root
    · exact distinct
  · rw [← active_eq]
    split
    · next none => exact fun member => apart none (List.mem_singleton.mp member).symm
    · exact clean
  · cases focused : (parseSavedUuid parse saved.focusedLeaf).filter (· ∈ active) with
    | none => exact rootActive
    | some leaf => exact of_decide_eq_true (Option.filter_eq_some_iff.mp focused).2
  · cases tree with
    | none => rw [← active_eq, if_pos (empty.mpr rfl)]; rfl
    | some tree =>
        rw [Option.map_some, Option.getD_some] at leaves_eq
        have some : leaves ≠ [] := leaves_eq ▸ tree.leaves_ne_nil
        rw [← active_eq, if_neg some, Option.filter_some]
        split
        · exact leaves_eq
        · next few =>
            -- a tree of one leaf is given up
            have one : leaves.length = 1 := by
              have := List.length_pos_iff.mpr some
              have few : ¬ 1 < tree.leaves.length := fun less => few (decide_eq_true less)
              rw [leaves_eq] at few
              omega
            obtain ⟨only, rfl⟩ := List.length_eq_one_iff.mp one
            rw [List.mem_singleton.mp (inside some)]
            rfl
  · exact restoredLeafStrings_keys rootActive _ _
  · exact restoredLeafStrings_keys rootActive _ _

end FromSaved

/-! ## Steps -/

section Steps

variable {panel : Panel}

theorem InStep.leaves_eq {tree : SplitNode} (split : panel.splitTree = some tree) :
    panel.activeLeafIds = tree.leaves := by
  rw [Panel.activeLeafIds, split]
  rfl

theorem InStep.focusNextLeaf (inStep : InStep panel) : InStep panel.focusNextLeaf := by
  unfold Panel.focusNextLeaf
  split
  · exact inStep
  · next next found =>
      obtain ⟨tree, split, step⟩ := Option.bind_eq_some_iff.mp found
      have inside : next ∈ tree.leaves := by
        unfold SplitNode.focusNext at step
        dsimp only at step
        split at step
        · cases step
        · exact List.mem_of_getElem? step
      exact
        { distinct := inStep.distinct
          named := inStep.named
          root := inStep.root
          focused := (InStep.leaves_eq split).symm ▸ inside
          sessions := inStep.sessions
          shared := inStep.shared
          commands := inStep.commands
          agents := inStep.agents
          command := inStep.command
          agent := inStep.agent }

theorem leaves_getD (panel : Panel) :
    (panel.splitTree.getD (.leaf panel.rootLeaf)).leaves = panel.activeLeafIds := by
  unfold Panel.activeLeafIds
  cases panel.splitTree <;> rfl

theorem InStep.splitFocused (inStep : InStep panel) (axis : Axis) {random : BitVec 128}
    (fresh : Uuid.newV4 random ∉ panel.activeLeafIds) (started : Session) :
    InStep (panel.splitFocused axis random started) := by
  have present : panel.focusedLeaf ∈ (panel.splitTree.getD (.leaf panel.rootLeaf)).leaves :=
    (leaves_getD panel).symm ▸ inStep.focused
  have added := SplitNode.perm_splitLeaf axis random present
  rw [leaves_getD] at added
  obtain ⟨context, -, result⟩ := SplitNode.splitLeaf_present axis random present
  rw [result] at added
  unfold Panel.splitFocused
  rw [result]
  obtain ⟨tree, tree_eq⟩ : ∃ tree, context.plug (.split axis SplitTree.half
      (.leaf panel.focusedLeaf) (.leaf (Uuid.newV4 random))) = tree := ⟨_, rfl⟩
  rw [tree_eq] at added ⊢
  change tree.leaves.Perm _ at added
  have member : ∀ leaf, leaf ∈ tree.leaves ↔
      leaf = Uuid.newV4 random ∨ leaf ∈ panel.activeLeafIds := fun leaf => by
    rw [added.mem_iff, List.mem_cons]
  have apart : Uuid.newV4 random ≠ panel.rootLeaf := fun same => fresh (same ▸ inStep.root)
  exact
    { distinct := added.nodup_iff.mpr (List.nodup_cons.mpr ⟨fresh, inStep.distinct⟩)
      named := by
        intro nil
        rcases (member .nil).mp nil with new | old
        · exact Uuid.newV4_ne_nil random new.symm
        · exact inStep.named old
      root := (member _).mpr (.inr inStep.root)
      focused := (member _).mpr (.inl rfl)
      sessions := by
        intro leaf
        refine Table.mem_keys_put.trans ?_
        rw [inStep.sessions]
        refine Iff.trans ?_ (and_congr_left' (member leaf)).symm
        constructor
        · rintro (rfl | ⟨active, other⟩)
          · exact ⟨.inl rfl, apart⟩
          · exact ⟨.inr active, other⟩
        · rintro ⟨rfl | active, other⟩
          · exact .inl rfl
          · exact .inr ⟨active, other⟩
      shared := by
        intro other same
        cases same
        have length := added.length_eq
        have some := List.length_pos_of_mem inStep.root
        rw [List.length_cons] at length
        change 2 ≤ tree.leaves.length
        omega
      commands := fun leaf there => (member leaf).mpr (.inr (inStep.commands leaf there))
      agents := fun leaf there => (member leaf).mpr (.inr (inStep.agents leaf there))
      command := inStep.command
      agent := inStep.agent }

theorem InStep.close (inStep : InStep panel) {tree : SplitNode}
    (split : panel.splitTree = some tree) : ∃ left next,
      tree.close panel.focusedLeaf = (left, .closed (some next)) ∧
      left.leaves = panel.activeLeafIds.erase panel.focusedLeaf ∧
      left.leaves.head? = some next := by
  have leaves := InStep.leaves_eq split
  have distinct := inStep.distinct
  have named := inStep.named
  have focused := inStep.focused
  rw [leaves] at distinct named focused
  obtain ⟨context, sibling, node, parent, rfl, result⟩ :=
    SplitNode.close_present ⟨distinct, .inr named⟩ focused (inStep.shared tree split)
  obtain ⟨earlier, later, old, new⟩ := SplitNode.leaves_parent context parent
  have left : (context.plug sibling).leaves =
      panel.activeLeafIds.erase panel.focusedLeaf := by
    have apart : panel.focusedLeaf ∉ earlier := fun member => by
      rw [old] at distinct
      exact (List.nodup_append.mp distinct).2.2 _ member _ (List.mem_cons_self ..) rfl
    rw [leaves, old, new, List.erase_append_right _ apart, List.erase_cons_head]
  obtain ⟨next, head⟩ : ∃ next, (context.plug sibling).leaves.head? = some next :=
    Option.isSome_iff_exists.mp (List.isSome_head?.mpr (SplitNode.leaves_ne_nil _))
  exact ⟨context.plug sibling, next, by rw [result, head], left, head⟩

theorem afterClose_inStep {closing next : LeafId} {left : SplitNode}
    (distinct : left.leaves.Nodup) (named : Uuid.nil ∉ left.leaves)
    (root : panel.rootLeaf ∈ left.leaves) (inside : next ∈ left.leaves)
    (sessions : ∀ leaf, leaf ∈ panel.leafSessions.keys ↔
      leaf ∈ left.leaves ∧ leaf ≠ panel.rootLeaf)
    (commands : ∀ leaf ∈ panel.leafAgentCommands.keys, leaf = closing ∨ leaf ∈ left.leaves)
    (agents : ∀ leaf ∈ panel.leafAgentSessionIds.keys, leaf = closing ∨ leaf ∈ left.leaves) :
    InStep (panel.afterClose closing next left) ∧
      (panel.afterClose closing next left).activeLeafIds = left.leaves ∧
      (panel.afterClose closing next left).closed = panel.closed ∧
      (panel.afterClose closing next left).leafSession = panel.leafSession := by
  have kept : ∀ {Row : Type} (table : Table LeafId Row),
      (∀ leaf ∈ table.keys, leaf = closing ∨ leaf ∈ left.leaves) →
      ∀ leaf ∈ (table.remove closing).keys, leaf ∈ left.leaves := by
    intro Row table within leaf member
    obtain ⟨other, there⟩ := Table.mem_keys_remove.mp member
    exact (within leaf there).resolve_left other
  unfold Panel.afterClose
  by_cases few : left.leafCount ≤ 1
  · have one : left.leaves.length = 1 := by
      have some := List.length_pos_of_mem root
      rw [SplitNode.leafCount] at few
      omega
    obtain ⟨only, single⟩ := List.length_eq_one_iff.mp one
    have isRoot : left.leaves = [panel.rootLeaf] := by
      rw [single] at root ⊢
      rw [List.mem_singleton.mp root]
    dsimp only
    rw [if_pos few]
    refine ⟨?_, isRoot.symm, rfl, rfl⟩
    have keptCommands := kept _ commands
    have keptAgents := kept _ agents
    rw [isRoot] at distinct named keptCommands keptAgents
    simp only [isRoot] at sessions
    exact
      { distinct := distinct
        named := named
        root := List.mem_singleton_self _
        focused := List.mem_singleton_self _
        sessions := sessions
        shared := fun tree split => by cases split
        commands := keptCommands
        agents := keptAgents
        command := rfl
        agent := rfl }
  · dsimp only
    rw [if_neg few]
    refine ⟨?_, rfl, rfl, rfl⟩
    exact
      { distinct := distinct
        named := named
        root := root
        focused := inside
        sessions := sessions
        shared := by
          intro tree same
          cases same
          omega
        commands := kept _ commands
        agents := kept _ agents
        command := rfl
        agent := rfl }

/-- A close takes the focused leaf and its session away, and nothing else. -/
structure ClosesFocused (panel : Panel) : Prop where
  refused : panel.splitTree = none → panel.closeFocusedLeaf = (panel, true)
  accepted : panel.splitTree ≠ none → panel.closeFocusedLeaf.2 = false ∧
    panel.closeFocusedLeaf.1.activeLeafIds = panel.activeLeafIds.erase panel.focusedLeaf ∧
    (∃ session, panel.leafSession panel.focusedLeaf = some session ∧
      panel.closeFocusedLeaf.1.closed = panel.closed ++ session.toList) ∧
    ∀ leaf ∈ panel.closeFocusedLeaf.1.activeLeafIds,
      panel.closeFocusedLeaf.1.leafSession leaf = panel.leafSession leaf

theorem InStep.closeFocusedLeaf (inStep : InStep panel) :
    InStep panel.closeFocusedLeaf.1 ∧ ClosesFocused panel := by
  cases split : panel.splitTree with
  | none =>
      have same : panel.closeFocusedLeaf = (panel, true) := by
        rw [Panel.closeFocusedLeaf, split]
      exact ⟨same.symm ▸ inStep, fun _ => same, fun shared => absurd split shared⟩
  | some tree =>
      obtain ⟨left, next, result, leaves, head⟩ := inStep.close split
      have distinct : left.leaves.Nodup := leaves ▸ inStep.distinct.erase _
      have named : Uuid.nil ∉ left.leaves := leaves ▸ fun member =>
        inStep.named (List.mem_of_mem_erase member)
      have inside : next ∈ left.leaves := List.mem_of_head? head
      have member : ∀ leaf, leaf ∈ left.leaves ↔
          leaf ≠ panel.focusedLeaf ∧ leaf ∈ panel.activeLeafIds := fun leaf => by
        rw [leaves]
        exact inStep.distinct.mem_erase_iff
      have metadata : ∀ leaf ∈ panel.activeLeafIds,
          leaf = panel.focusedLeaf ∨ leaf ∈ left.leaves := fun leaf active =>
        (eq_or_ne leaf panel.focusedLeaf).imp_right fun other => (member leaf).mpr ⟨other, active⟩
      have nextActive := (member next).mp inside
      by_cases atRoot : panel.focusedLeaf = panel.rootLeaf
      · -- the first leaf that is left becomes the root
        obtain ⟨promoted, found⟩ := Table.mem_keys_iff.mp
          ((inStep.sessions next).mpr ⟨nextActive.2, atRoot ▸ nextActive.1⟩)
        have closes : panel.closeFocusedLeaf = (Panel.afterClose panel.focusedLeaf next left
            { panel.closeForGood panel.session with
              session := promoted
              rootLeaf := next
              leafSessions := panel.leafSessions.remove next }, false) := by
          rw [Panel.closeFocusedLeaf, split]
          dsimp only
          rw [result]
          dsimp only
          rw [if_pos atRoot, found]
        have sessions : ∀ leaf, leaf ∈ (panel.leafSessions.remove next).keys ↔
            leaf ∈ left.leaves ∧ leaf ≠ next := by
          intro leaf
          rw [Table.mem_keys_remove, inStep.sessions, member, ← atRoot]
          tauto
        obtain ⟨kept, active, closed, unchanged⟩ := @afterClose_inStep
          { panel.closeForGood panel.session with
            session := promoted
            rootLeaf := next
            leafSessions := panel.leafSessions.remove next }
          panel.focusedLeaf next left distinct named inside inside sessions
          (fun leaf there => metadata leaf (inStep.commands leaf there))
          (fun leaf there => metadata leaf (inStep.agents leaf there))
        refine ⟨closes.symm ▸ kept, fun none => absurd (split.symm.trans none) nofun, fun _ =>
          ⟨congrArg Prod.snd closes, ?_, ?_, ?_⟩⟩
        · rw [closes]
          exact active.trans leaves
        · rw [closes]
          exact ⟨panel.session, if_pos atRoot, closed⟩
        · rw [closes]
          intro leaf remains
          have there := (member leaf).mp (active ▸ remains)
          have old : panel.leafSession leaf = panel.leafSessions.find leaf :=
            if_neg fun same => there.1 (same.trans atRoot.symm)
          rw [unchanged, old]
          rcases eq_or_ne leaf next with rfl | other
          · rw [found]
            exact if_pos rfl
          · exact (if_neg other).trans (Table.find_remove_of_ne _ other)
      · obtain ⟨gone, found⟩ := Table.mem_keys_iff.mp
          ((inStep.sessions panel.focusedLeaf).mpr ⟨inStep.focused, atRoot⟩)
        have closes : panel.closeFocusedLeaf = (Panel.afterClose panel.focusedLeaf next left
            { panel.closeForGood gone with
              leafSessions := panel.leafSessions.remove panel.focusedLeaf }, false) := by
          rw [Panel.closeFocusedLeaf, split]
          dsimp only
          rw [result]
          dsimp only
          rw [if_neg atRoot, found]
        have sessions : ∀ leaf, leaf ∈ (panel.leafSessions.remove panel.focusedLeaf).keys ↔
            leaf ∈ left.leaves ∧ leaf ≠ panel.rootLeaf := by
          intro leaf
          rw [Table.mem_keys_remove, inStep.sessions, member]
          tauto
        obtain ⟨kept, active, closed, unchanged⟩ := @afterClose_inStep
          { panel.closeForGood gone with
            leafSessions := panel.leafSessions.remove panel.focusedLeaf }
          panel.focusedLeaf next left distinct named
          ((member _).mpr ⟨Ne.symm atRoot, inStep.root⟩) inside sessions
          (fun leaf there => metadata leaf (inStep.commands leaf there))
          (fun leaf there => metadata leaf (inStep.agents leaf there))
        refine ⟨closes.symm ▸ kept, fun none => absurd (split.symm.trans none) nofun, fun _ =>
          ⟨congrArg Prod.snd closes, ?_, ?_, ?_⟩⟩
        · rw [closes]
          exact active.trans leaves
        · rw [closes]
          refine ⟨gone, ?_, closed⟩
          rw [Panel.leafSession, if_neg atRoot, found]
        · rw [closes]
          intro leaf remains
          have there := (member leaf).mp (active ▸ remains)
          rw [unchanged]
          rcases eq_or_ne leaf panel.rootLeaf with rfl | other
          · exact (if_pos rfl).trans (if_pos rfl).symm
          · refine (if_neg other).trans (Eq.trans ?_ (if_neg other).symm)
            exact Table.find_remove_of_ne _ there.1

end Steps

/-! ## Runs -/

/-- The panels that splits, closes and moves of the focus lead to. -/
inductive Reached (start : Panel) : Panel → Prop
  | start : Reached start start
  | split {panel : Panel} (reached : Reached start panel) (axis : Axis) (random : BitVec 128)
      (started : Session) (fresh : Uuid.newV4 random ∉ panel.activeLeafIds) :
      Reached start (panel.splitFocused axis random started)
  | close {panel : Panel} (reached : Reached start panel) :
      Reached start panel.closeFocusedLeaf.1
  | focusNext {panel : Panel} (reached : Reached start panel) : Reached start panel.focusNextLeaf

theorem Reached.inStep {start panel : Panel} (reached : Reached start panel)
    (inStep : InStep start) : InStep panel := by
  induction reached with
  | start => exact inStep
  | split _ axis random started fresh kept => exact kept.splitFocused axis fresh started
  | close _ kept => exact kept.closeFocusedLeaf.1
  | focusNext _ kept => exact kept.focusNextLeaf

section Runs

variable {Value : Type} (parse : String → Option Uuid) (decode : Value → Option SplitNode)
  (saved : SavedLeaves Value) {generatedRoot : LeafId} (draw : LeafId → Uuid)

theorem inStep_restored (named : generatedRoot ≠ .nil) (manager : Manager) :
    InStep (restoreSplitTree (restoredLeafState parse decode saved generatedRoot) manager
      draw) := by
  obtain ⟨active, distinct, clean, root, focused, active_eq, -, commands, agents⟩ :=
    restored_active parse decode saved named
  have shared : ∀ tree, (restoredLeafState parse decode saved generatedRoot).splitTree =
      some tree → 2 ≤ tree.leafCount := fun tree split =>
    of_decide_eq_true (Option.filter_eq_some_iff.mp split).2
  obtain ⟨restored, restored_eq⟩ : ∃ restored,
      restoredLeafState parse decode saved generatedRoot = restored := ⟨_, rfl⟩
  rw [restored_eq] at root focused active_eq commands agents shared ⊢
  have leaves : (restoreSplitTree restored manager draw).activeLeafIds = active := active_eq
  exact
    { distinct := leaves.symm ▸ distinct
      named := leaves.symm ▸ clean
      root := leaves.symm ▸ root
      focused := leaves.symm ▸ focused
      sessions := by
        intro leaf
        rw [leaves]
        refine (keys_foldl_restoreLeaf restored draw _ _ leaf).trans ?_
        rw [active_eq]
        exact or_iff_right nofun
      shared := shared
      commands := leaves.symm ▸ commands
      agents := leaves.symm ▸ agents
      command := rfl
      agent := rfl }

theorem restored_injective (named : generatedRoot ≠ .nil) (leaf other : LeafId) (runtime : Uuid)
    (one : (restoredLeafState parse decode saved generatedRoot).runtimeSessionIds.find leaf =
      some runtime)
    (two : (restoredLeafState parse decode saved generatedRoot).runtimeSessionIds.find other =
      some runtime) : leaf = other := by
  obtain ⟨active, -, -, -, -, -, runtimes, -, -⟩ := restored_active parse decode saved named
  rw [runtimes] at one two
  exact takeLegacyRuntime_injective
    (foldl_takeRuntime_sound ⟨fun _ _ found => absurd found (by simp), fun _ _ _ found =>
      absurd found (by simp)⟩ _) leaf other runtime one two

theorem givenSession_injective {restored : RestoredLeafState} {sessions : List Uuid}
    {leaves : List LeafId} (fresh : FreshDraws restored draw sessions leaves)
    (injective : ∀ leaf other runtime, restored.runtimeSessionIds.find leaf = some runtime →
      restored.runtimeSessionIds.find other = some runtime → leaf = other)
    {leaf other : LeafId} (inside : leaf ∈ leaves) (insideOther : other ∈ leaves)
    (same : givenSession restored draw sessions leaf = givenSession restored draw sessions other) :
    leaf = other := by
  unfold givenSession at same
  cases one : (restored.runtimeSessionIds.find leaf).filter (· ∉ sessions) with
  | none =>
      cases two : (restored.runtimeSessionIds.find other).filter (· ∉ sessions) with
      | none =>
          rw [one, two] at same
          exact fresh.distinct leaf inside other insideOther same
      | some runtime =>
          rw [one, two] at same
          have is : draw leaf = runtime := same
          exact absurd ((Option.filter_eq_some_iff.mp two).1.trans (congrArg some is.symm))
            (fresh.unsaved leaf inside other)
  | some runtime =>
      cases two : (restored.runtimeSessionIds.find other).filter (· ∉ sessions) with
      | none =>
          rw [one, two] at same
          have is : runtime = draw other := same
          exact absurd ((Option.filter_eq_some_iff.mp one).1.trans (congrArg some is))
            (fresh.unsaved other insideOther leaf)
      | some runtime' =>
          rw [one, two] at same
          cases same
          exact injective leaf other runtime (Option.filter_eq_some_iff.mp one).1
            (Option.filter_eq_some_iff.mp two).1

theorem restored_sessions (named : generatedRoot ≠ .nil) {sessions : List Uuid}
    {panel : Panel} (restores : panel = restoreSplitTree
      (restoredLeafState parse decode saved generatedRoot) (some sessions) draw)
    (fresh : FreshDraws (restoredLeafState parse decode saved generatedRoot) draw sessions
      panel.activeLeafIds) {leaf : LeafId} (inside : leaf ∈ panel.activeLeafIds) :
    panel.leafSession leaf = some (some (givenSession
      (restoredLeafState parse decode saved generatedRoot) draw sessions leaf)) := by
  have inStep := inStep_restored parse decode saved draw named (some sessions)
  have injective := restored_injective parse decode saved named
  rw [← restores] at inStep
  obtain ⟨restored, restored_eq⟩ : ∃ restored,
      restoredLeafState parse decode saved generatedRoot = restored := ⟨_, rfl⟩
  rw [restored_eq] at injective restores fresh ⊢
  have root : panel.rootLeaf = restored.rootLeaf := by rw [restores]; rfl
  have first := @restoreDetached_given restored draw sessions sessions _ [] restored.rootLeaf
    fresh injective (fun id => by simp) nofun nofun
  unfold Panel.leafSession
  split
  · next atRoot =>
      have session : panel.session = (restoreDetached (draw restored.rootLeaf)
          (restored.runtimeSessionIds.find restored.rootLeaf) (some sessions)).1 := by
        rw [restores]
        rfl
      rw [session, first, atRoot, root]
  · next other =>
      rw [root] at other
      have table : panel.leafSessions = (panel.activeLeafIds.foldl (restoreLeaf restored draw)
          (∅, some (givenSession restored draw sessions restored.rootLeaf :: sessions))).1 := by
        rw [restores]
        change (List.foldl _ (∅, (restoreDetached (draw restored.rootLeaf)
          (restored.runtimeSessionIds.find restored.rootLeaf) (some sessions)).2) _).1 = _
        rw [first]
        rfl
      rw [table]
      refine @find_foldl_restoreLeaf restored draw sessions _ _ [restored.rootLeaf] _ fresh
        injective ?_ (List.mem_singleton_self _) ?_ (fun _ => id) inStep.distinct ?_ ∅ leaf inside
        other
      · intro id
        simp [or_comm]
      · intro leaf member
        rw [List.mem_singleton.mp member, ← root]
        exact inStep.root
      · exact fun leaf _ member => List.mem_singleton.mp member

/-- Whatever was saved, the leaves of the restored panel and of every later one agree with
its sessions, and a close takes one session away. -/
theorem leaves_and_sessions_in_step (generated : BitVec 128) (manager : Manager) :
    let restored := restoredLeafState parse decode saved (Uuid.newV4 generated)
    let panel := restoreSplitTree restored manager draw
    (∀ leaf other runtime, restored.runtimeSessionIds.find leaf = some runtime →
      restored.runtimeSessionIds.find other = some runtime → leaf = other) ∧
    (∀ entry leaf runtime,
      Kept parse panel.activeLeafIds saved.leafRuntimeSessionIds entry leaf runtime →
        restored.runtimeSessionIds.find leaf = some runtime) ∧
    (∀ sessions, manager = some sessions →
      FreshDraws restored draw sessions panel.activeLeafIds →
      ∀ leaf ∈ panel.activeLeafIds,
        panel.leafSession leaf = some (some (givenSession restored draw sessions leaf)) ∧
        ∀ other ∈ panel.activeLeafIds, panel.leafSession leaf = panel.leafSession other →
          leaf = other) ∧
    ∀ reached, Reached panel reached → InStep reached ∧ ClosesFocused reached := by
  have named := Uuid.newV4_ne_nil generated
  refine ⟨restored_injective parse decode saved named, ?_, ?_, ?_⟩
  · intro entry leaf runtime kept
    obtain ⟨active, -, -, -, -, active_eq, runtimes, -, -⟩ :=
      restored_active parse decode saved named
    have leaves : (restoreSplitTree (restoredLeafState parse decode saved (Uuid.newV4 generated))
        manager draw).activeLeafIds = active := active_eq
    rw [leaves] at kept
    rw [runtimes]
    exact takeLegacyRuntime_find kept.find
  · rintro sessions rfl fresh leaf inside
    have given := @restored_sessions _ parse decode saved _ draw named _ _ rfl fresh
    refine ⟨given inside, fun other insideOther same => ?_⟩
    rw [given inside, given insideOther, Option.some.injEq, Option.some.injEq] at same
    exact givenSession_injective draw fresh (restored_injective parse decode saved named) inside
      insideOther same
  · intro reached steps
    have inStep := steps.inStep (inStep_restored parse decode saved draw named manager)
    exact ⟨inStep, inStep.closeFocusedLeaf.2⟩

end Runs

end TerminalCanvas.PanelLeaves
