import TerminalCanvas.Foundation.Execution
import TerminalCanvas.Foundation.Primitives
import TerminalCanvas.Foundation.Ranks

/-! # The order of the panels of a workspace

Focus flags and z-indexes of the panels, as the workspace changes them. What a
panel is apart from these does not matter here. -/

namespace TerminalCanvas.State

open Ranks

structure Panel where
  id : Uuid
  zIndex : UInt32
  focused : Bool
  minimized : Bool
deriving DecidableEq, Repr

structure Workspace where
  panels : List Panel
  nextZ : UInt32
  nextColor : Nat
deriving DecidableEq, Repr

def maxZ : UInt32 := 0xFFFFFFFF

def panelColors : Nat := 8

def saturatingNext (z : UInt32) : UInt32 := if z = maxZ then z else z + 1

/-- `u32::try_from(..).unwrap_or(u32::MAX - 1)` -/
def compactZ (rank : Nat) : UInt32 := if rank < 2 ^ 32 then UInt32.ofNat rank else maxZ - 1

def Panel.setMinimized (panel : Panel) (minimized : Bool) : Panel :=
  { panel with minimized := minimized, focused := panel.focused && !minimized }

def updateFirst (id : Uuid) (change : Panel → Panel) : List Panel → List Panel
  | [] => []
  | panel :: panels =>
      if panel.id = id then change panel :: panels else panel :: updateFirst id change panels

/-- The last of the panels with the greatest z-index, with its position. -/
def maxByZ : List (Panel × Nat) → Option (Panel × Nat)
  | [] => none
  | head :: tail =>
      match maxByZ tail with
      | none => some head
      | some best => if best.1.zIndex < head.1.zIndex then some head else some best

namespace Workspace

def keys (panels : List Panel) (position : Nat) : Nat :=
  (panels[position]?.map fun panel => panel.zIndex.toNat).getD 0

def compactZIndices (workspace : Workspace) : Workspace :=
  { workspace with
    panels := workspace.panels.mapIdx fun position panel =>
      { panel with
        zIndex := compactZ (rank (keys workspace.panels) workspace.panels.length position) }
    nextZ := compactZ (workspace.panels.length - 1) }

/-- A counter that is used up is compacted first. -/
def compactWhenFull (workspace : Workspace) : Workspace :=
  if workspace.nextZ = maxZ then workspace.compactZIndices else workspace

/-- The next z-index is the counter behind the step. -/
def advanceZIndex (workspace : Workspace) : Workspace :=
  { workspace.compactWhenFull with nextZ := saturatingNext workspace.compactWhenFull.nextZ }

def maxPanelZ (panels : List Panel) : UInt32 :=
  panels.foldl (fun z panel => if z < panel.zIndex then panel.zIndex else z) 0

def reconcileOrderCounters (workspace : Workspace) : Workspace :=
  let workspace := { workspace with nextColor := workspace.nextColor % panelColors }
  let highest := maxPanelZ workspace.panels
  if workspace.nextZ = maxZ ∨ highest = maxZ then
    workspace.compactZIndices
  else
    { workspace with nextZ := if workspace.nextZ < highest then highest else workspace.nextZ }

def focusTopmostVisiblePanel (workspace : Workspace) : Workspace :=
  let visible := workspace.panels.zipIdx.filter fun entry => !entry.1.minimized
  let target := (maxByZ visible).map Prod.snd
  { workspace with panels := workspace.panels.mapIdx fun position panel =>
      { panel with focused := some position = target } }

/-- The panels and the counters of a saved workspace. -/
def fromSaved (saved : List Panel) (nextZ : UInt32) (nextColor : Nat) : Workspace :=
  let panels := saved.map fun panel =>
    { panel with focused := panel.focused && !panel.minimized }
  let workspace := reconcileOrderCounters ⟨panels, nextZ, nextColor⟩
  if workspace.panels.countP (fun panel => panel.focused && !panel.minimized) ≠ 1 then
    workspace.focusTopmostVisiblePanel
  else
    workspace

/-- The panel of an id gets a z-index and the focus, the others lose the focus. -/
def raise (id : Uuid) (z : UInt32) (panel : Panel) : Panel :=
  if panel.id = id then
    { panel with zIndex := z, focused := true }
  else
    { panel with focused := false }

def bringToFront (workspace : Workspace) (id : Uuid) : Workspace :=
  if (workspace.panels.find? (·.id = id)).any (·.minimized) then
    workspace
  else
    let advanced := workspace.advanceZIndex
    { advanced with panels := advanced.panels.map (raise id advanced.nextZ) }

/-- The workspace with a new panel in it, before it is brought to the front. -/
def pushPanel (workspace : Workspace) (id : Uuid) : Workspace :=
  { workspace with
    panels := workspace.panels ++ [⟨id, workspace.nextZ, false, false⟩]
    nextColor := (workspace.nextColor % panelColors + 1) % panelColors }

def spawnTerminal (workspace : Workspace) (id : Uuid) : Workspace :=
  (workspace.pushPanel id).advanceZIndex.bringToFront id

def unfocusAll (workspace : Workspace) : Workspace :=
  { workspace with panels := workspace.panels.map fun panel => { panel with focused := false } }

def closePanel (workspace : Workspace) (id : Uuid) : Workspace :=
  focusTopmostVisiblePanel
    { workspace with panels := workspace.panels.filter fun panel => panel.id ≠ id }

def showPanel (workspace : Workspace) (id : Uuid) : Workspace :=
  { workspace with panels := updateFirst id (·.setMinimized false) workspace.panels }

def restorePanel (workspace : Workspace) (id : Uuid) : Workspace :=
  if workspace.panels.any (·.id = id) then
    (workspace.showPanel id).bringToFront id
  else
    workspace

/-- Both placements a panel may get make it visible. -/
def maximizePanel (workspace : Workspace) (id : Uuid) : Workspace :=
  if workspace.panels.any (·.id = id) then
    (workspace.showPanel id).bringToFront id
  else
    workspace

def toggleMinimizePanel (workspace : Workspace) (id : Uuid) : Workspace :=
  match workspace.panels.find? (·.id = id) with
  | none => workspace
  | some panel =>
      if panel.minimized then
        workspace.restorePanel id
      else
        let hidden := { workspace with
          panels := updateFirst id (·.setMinimized true) workspace.panels }
        if panel.focused then hidden.focusTopmostVisiblePanel else hidden

inductive Action where
  | spawn (id : Uuid)
  | closePanel (id : Uuid)
  | toggleMinimizePanel (id : Uuid)
  | restorePanel (id : Uuid)
  | maximizePanel (id : Uuid)
  | unfocusAll
  | bringToFront (id : Uuid)
deriving DecidableEq, Repr

def act (workspace : Workspace) : Action → Workspace
  | .spawn id => workspace.spawnTerminal id
  | .closePanel id => workspace.closePanel id
  | .toggleMinimizePanel id => workspace.toggleMinimizePanel id
  | .restorePanel id => workspace.restorePanel id
  | .maximizePanel id => workspace.maximizePanel id
  | .unfocusAll => workspace.unfocusAll
  | .bringToFront id => workspace.bringToFront id

def machine : Execution.Machine Workspace Action Unit where
  step workspace action := ⟨workspace.act action, ()⟩

/-! ## The panels of the parts -/

/-- At most one panel has the focus, and it is visible. -/
structure Focused (panels : List Panel) : Prop where
  distinct : (panels.map Panel.id).Nodup
  oneFocused : panels.Pairwise fun first second => ¬ (first.focused ∧ second.focused)
  focusedVisible : ∀ panel ∈ panels, panel.focused → panel.minimized = false

/-- No z-index is beyond the counter. -/
def Counted (workspace : Workspace) : Prop :=
  ∀ panel ∈ workspace.panels, panel.zIndex.toNat ≤ workspace.nextZ.toNat

/-- Panels with different z-indexes keep their order, apart from a raised one. -/
def KeepsOrder (raised : Option Uuid) (before after : List Panel) : Prop :=
  ∀ low ∈ before, ∀ high ∈ before, low.zIndex < high.zIndex →
    raised ≠ some low.id → raised ≠ some high.id →
    ∀ newLow ∈ after, ∀ newHigh ∈ after, newLow.id = low.id → newHigh.id = high.id →
      newLow.zIndex < newHigh.zIndex

/-! ## Counters -/

theorem toNat_maxZ : maxZ.toNat = 4294967295 := rfl

theorem ne_maxZ_iff {z : UInt32} : z ≠ maxZ ↔ z.toNat < 4294967295 := by
  have bound := z.toNat_lt
  constructor
  · intro different
    have apart : z.toNat ≠ maxZ.toNat := fun equal => different (UInt32.toNat_inj.mp equal)
    rw [toNat_maxZ] at apart
    omega
  · rintro less rfl
    rw [toNat_maxZ] at less
    omega

theorem toNat_saturatingNext {z : UInt32} (room : z ≠ maxZ) :
    (saturatingNext z).toNat = z.toNat + 1 := by
  have less := ne_maxZ_iff.mp room
  have one : UInt32.toNat 1 = 1 := rfl
  rw [saturatingNext, if_neg room, UInt32.toNat_add, one]
  omega

theorem toNat_compactZ {rank : Nat} (fits : rank < 2 ^ 32) : (compactZ rank).toNat = rank := by
  rw [compactZ, if_pos fits, UInt32.toNat_ofNat']
  exact Nat.mod_eq_of_lt fits

/-! ## Flags -/

/-- A panel apart from its z-index. -/
def flags (panel : Panel) : Uuid × Bool × Bool :=
  (panel.id, panel.focused, panel.minimized)

theorem focused_congr {panels others : List Panel} (same : panels.map flags = others.map flags)
    (focused : Focused others) : Focused panels := by
  have ids : panels.map Panel.id = others.map Panel.id := by
    have firsts := congrArg (List.map Prod.fst) same
    rwa [List.map_map, List.map_map] at firsts
  have pairs : (panels.map flags).Pairwise fun first second => ¬ (first.2.1 ∧ second.2.1) := by
    rw [same, List.pairwise_map]
    exact focused.oneFocused
  have visible : ∀ entry ∈ panels.map flags, entry.2.1 → entry.2.2 = false := by
    rw [same]
    intro entry member
    obtain ⟨panel, inside, rfl⟩ := List.mem_map.mp member
    exact focused.focusedVisible panel inside
  refine ⟨ids ▸ focused.distinct, List.pairwise_map.mp pairs, ?_⟩
  intro panel member
  exact visible _ (List.mem_map_of_mem member)

theorem map_mapIdx_same {Seen : Type} {read : Panel → Seen} {change : Nat → Panel → Panel}
    (same : ∀ position panel, read (change position panel) = read panel)
    (panels : List Panel) : (panels.mapIdx change).map read = panels.map read := by
  apply List.ext_getElem
  · simp
  · intro position inside alsoInside
    simp [same]

theorem focused_mapIdx {panels : List Panel} {target : Option Nat}
    (distinct : (panels.map Panel.id).Nodup)
    (visible : ∀ position panel, target = some position → panels[position]? = some panel →
      panel.minimized = false) :
    Focused (panels.mapIdx fun position panel =>
      { panel with focused := some position = target }) := by
  refine ⟨?_, ?_, ?_⟩
  · rw [map_mapIdx_same]
    · exact distinct
    · exact fun position panel => rfl
  · rw [List.pairwise_iff_getElem]
    intro first second firstInside secondInside before both
    simp only [List.getElem_mapIdx, decide_eq_true_eq] at both
    have same := both.1.trans both.2.symm
    rw [Option.some.injEq] at same
    omega
  · intro panel member focused
    obtain ⟨position, inside, rfl⟩ := List.mem_mapIdx.mp member
    simp only [decide_eq_true_eq] at focused
    exact visible position panels[position] focused.symm (List.getElem?_eq_getElem inside)

theorem maxByZ_mem {entries : List (Panel × Nat)} {best : Panel × Nat}
    (found : maxByZ entries = some best) : best ∈ entries := by
  induction entries generalizing best with
  | nil => cases found
  | cons head tail induction =>
      rw [maxByZ] at found
      cases rest : maxByZ tail with
      | none =>
          rw [rest] at found
          cases found
          exact List.mem_cons_self ..
      | some other =>
          rw [rest] at found
          simp only at found
          split at found
          · cases found
            exact List.mem_cons_self ..
          · cases found
            exact List.mem_cons_of_mem _ (induction rest)

theorem focused_focusTopmostVisiblePanel {workspace : Workspace}
    (distinct : (workspace.panels.map Panel.id).Nodup) :
    Focused workspace.focusTopmostVisiblePanel.panels := by
  refine focused_mapIdx distinct ?_
  intro position panel target present
  obtain ⟨⟨best, bestPosition⟩, found, rfl⟩ := Option.map_eq_some_iff.mp target
  obtain ⟨member, visible⟩ := List.mem_filter.mp (maxByZ_mem found)
  have inPlace := List.mem_zipIdx_iff_getElem?.mp member
  rw [present, Option.some.injEq] at inPlace
  rw [inPlace]
  simpa using visible

theorem flags_compactZIndices (workspace : Workspace) :
    workspace.compactZIndices.panels.map flags = workspace.panels.map flags := by
  unfold compactZIndices
  rw [map_mapIdx_same]
  exact fun position panel => rfl

theorem flags_advanceZIndex (workspace : Workspace) :
    workspace.advanceZIndex.panels.map flags = workspace.panels.map flags := by
  change workspace.compactWhenFull.panels.map flags = _
  unfold compactWhenFull
  split
  · exact flags_compactZIndices workspace
  · rfl

/-! ## Z-indexes -/

def HasRoom (workspace : Workspace) : Prop := workspace.panels.length < 2 ^ 32

theorem counted_compactZIndices {workspace : Workspace} (room : workspace.HasRoom) :
    Counted workspace.compactZIndices := by
  intro panel member
  obtain ⟨position, inside, rfl⟩ := List.mem_mapIdx.mp member
  have below := @rank_lt_count _ _ (keys workspace.panels) _ _ inside
  have size : workspace.panels.length < 2 ^ 32 := room
  change (compactZ (rank _ _ _)).toNat ≤ (compactZ (workspace.panels.length - 1)).toNat
  rw [toNat_compactZ (by omega), toNat_compactZ (by omega)]
  omega

theorem counted_compactWhenFull {workspace : Workspace} (counted : workspace.Counted)
    (room : workspace.HasRoom) : Counted workspace.compactWhenFull := by
  unfold compactWhenFull
  split
  · exact counted_compactZIndices room
  · exact counted

theorem nextZ_compactWhenFull {workspace : Workspace} (room : workspace.HasRoom) :
    workspace.compactWhenFull.nextZ ≠ maxZ := by
  unfold compactWhenFull
  have size : workspace.panels.length < 2 ^ 32 := room
  split
  · rw [ne_maxZ_iff]
    change (compactZ (workspace.panels.length - 1)).toNat < _
    rw [toNat_compactZ (by omega)]
    omega
  · assumption

theorem toNat_advanceZIndex {workspace : Workspace} (room : workspace.HasRoom) :
    workspace.advanceZIndex.nextZ.toNat = workspace.compactWhenFull.nextZ.toNat + 1 :=
  toNat_saturatingNext (nextZ_compactWhenFull room)

theorem advanceZIndex_greater {workspace : Workspace} (counted : workspace.Counted)
    (room : workspace.HasRoom) :
    ∀ panel ∈ workspace.advanceZIndex.panels,
      panel.zIndex.toNat < workspace.advanceZIndex.nextZ.toNat := by
  intro panel member
  have below := counted_compactWhenFull counted room panel member
  rw [toNat_advanceZIndex room]
  omega

theorem KeepsOrder.of_sameZ {raised : Option Uuid} {before after : List Panel}
    (distinct : (before.map Panel.id).Nodup)
    (same : ∀ panel ∈ after, raised = some panel.id ∨
      ∃ old ∈ before, old.id = panel.id ∧ old.zIndex = panel.zIndex) :
    KeepsOrder raised before after := by
  intro low lowMember high highMember less lowStays highStays newLow newLowMember newHigh
    newHighMember lowId highId
  have kept : ∀ old ∈ before, ∀ new ∈ after, raised ≠ some old.id → new.id = old.id →
      new.zIndex = old.zIndex := by
    intro old oldMember new newMember stays id
    rcases same new newMember with isRaised | ⟨found, foundMember, foundId, z⟩
    · exact absurd (isRaised.trans (by rw [id])) stays
    · have equal : found = old :=
        List.inj_on_of_nodup_map distinct foundMember oldMember (foundId.trans id)
      rw [← z, equal]
  rw [kept low lowMember newLow newLowMember lowStays lowId,
    kept high highMember newHigh newHighMember highStays highId]
  exact less

theorem KeepsOrder.trans {raised : Option Uuid} {before middle after : List Panel}
    (first : KeepsOrder raised before middle) (second : KeepsOrder raised middle after)
    (present : ∀ panel ∈ after, (∃ old ∈ before, old.id = panel.id) →
      ∃ old ∈ middle, old.id = panel.id) : KeepsOrder raised before after := by
  intro low lowMember high highMember less lowStays highStays newLow newLowMember newHigh
    newHighMember lowId highId
  obtain ⟨midLow, midLowMember, midLowId⟩ :=
    present newLow newLowMember ⟨low, lowMember, lowId.symm⟩
  obtain ⟨midHigh, midHighMember, midHighId⟩ :=
    present newHigh newHighMember ⟨high, highMember, highId.symm⟩
  have between := first low lowMember high highMember less lowStays highStays midLow midLowMember
    midHigh midHighMember (midLowId.trans lowId) (midHighId.trans highId)
  refine second midLow midLowMember midHigh midHighMember between ?_ ?_ newLow newLowMember
    newHigh newHighMember midLowId.symm midHighId.symm
  · rw [midLowId, lowId]
    exact lowStays
  · rw [midHighId, highId]
    exact highStays

theorem keepsOrder_compactZIndices {workspace : Workspace} (raised : Option Uuid)
    (distinct : (workspace.panels.map Panel.id).Nodup) (room : workspace.HasRoom) :
    KeepsOrder raised workspace.panels workspace.compactZIndices.panels := by
  intro low lowMember high highMember less _ _ newLow newLowMember newHigh newHighMember lowId
    highId
  obtain ⟨lowAt, lowInside, rfl⟩ := List.mem_mapIdx.mp newLowMember
  obtain ⟨highAt, highInside, rfl⟩ := List.mem_mapIdx.mp newHighMember
  have sameLow : workspace.panels[lowAt] = low :=
    List.inj_on_of_nodup_map distinct (List.getElem_mem _) lowMember lowId
  have sameHigh : workspace.panels[highAt] = high :=
    List.inj_on_of_nodup_map distinct (List.getElem_mem _) highMember highId
  have keysLess : keys workspace.panels lowAt < keys workspace.panels highAt := by
    simp only [keys, List.getElem?_eq_getElem lowInside, List.getElem?_eq_getElem highInside,
      Option.map_some, Option.getD_some, sameLow, sameHigh]
    exact UInt32.lt_iff_toNat_lt.mp less
  have ranks := rank_lt lowInside highInside keysLess
  have below := @rank_lt_count _ _ (keys workspace.panels) _ _ highInside
  have size : workspace.panels.length < 2 ^ 32 := room
  rw [UInt32.lt_iff_toNat_lt]
  change (compactZ (rank _ _ lowAt)).toNat < (compactZ (rank _ _ highAt)).toNat
  rw [toNat_compactZ (by omega), toNat_compactZ (by omega)]
  exact ranks

theorem ids_of_flags {panels others : List Panel} (same : panels.map flags = others.map flags) :
    panels.map Panel.id = others.map Panel.id := by
  have firsts := congrArg (List.map Prod.fst) same
  rwa [List.map_map, List.map_map] at firsts

theorem present_of_ids {panels others : List Panel}
    (same : panels.map Panel.id = others.map Panel.id) {panel : Panel} (member : panel ∈ panels) :
    ∃ other ∈ others, other.id = panel.id := by
  have inIds : panel.id ∈ others.map Panel.id := same ▸ List.mem_map_of_mem member
  simpa using inIds

theorem keepsOrder_advanceZIndex {workspace : Workspace} (raised : Option Uuid)
    (distinct : (workspace.panels.map Panel.id).Nodup) (room : workspace.HasRoom) :
    KeepsOrder raised workspace.panels workspace.advanceZIndex.panels := by
  change KeepsOrder raised workspace.panels workspace.compactWhenFull.panels
  unfold compactWhenFull
  split
  · exact keepsOrder_compactZIndices raised distinct room
  · exact .of_sameZ distinct fun panel member => .inr ⟨panel, member, rfl, rfl⟩

/-! ## Bringing a panel to the front -/

/-- A workspace in order: its focus and its counter. -/
structure Ordered (workspace : Workspace) : Prop where
  focused : Focused workspace.panels
  counted : Counted workspace

/-- No panel of the id is minimized. -/
def Visible (workspace : Workspace) (id : Uuid) : Prop :=
  ∀ panel ∈ workspace.panels, panel.id = id → panel.minimized = false

theorem visible_iff {workspace : Workspace} (distinct : (workspace.panels.map Panel.id).Nodup)
    {id : Uuid} : workspace.Visible id ↔
      (workspace.panels.find? (·.id = id)).any (·.minimized) = false := by
  cases found : workspace.panels.find? (·.id = id) with
  | none =>
      simp only [Option.any_none, iff_true]
      intro panel member own
      have absent := List.find?_eq_none.mp found panel member
      simp [own] at absent
  | some panel =>
      have member := List.mem_of_find?_eq_some found
      have own : panel.id = id := by simpa using List.find?_some found
      simp only [Option.any_some]
      constructor
      · exact fun visible => visible panel member own
      · intro shown other otherMember otherOwn
        have same : other = panel :=
          List.inj_on_of_nodup_map distinct otherMember member (otherOwn.trans own.symm)
        rw [same]
        exact shown

theorem visible_congr {workspace other : Workspace} {id : Uuid}
    (same : other.panels.map flags = workspace.panels.map flags) (visible : workspace.Visible id) :
    other.Visible id := by
  intro panel member own
  have inFlags : flags panel ∈ workspace.panels.map flags := same ▸ List.mem_map_of_mem member
  obtain ⟨old, oldMember, equal⟩ := List.mem_map.mp inFlags
  simp only [flags, Prod.mk.injEq] at equal
  rw [← equal.2.2]
  exact visible old oldMember (equal.1.trans own)

theorem oneFocused_of_id {panels : List Panel} {id : Uuid} (distinct : (panels.map Panel.id).Nodup)
    (only : ∀ panel ∈ panels, panel.focused → panel.id = id) :
    panels.Pairwise fun first second => ¬ (first.focused ∧ second.focused) := by
  refine (List.pairwise_map.mp distinct).imp_of_mem ?_
  intro first second firstMember secondMember different both
  exact different ((only first firstMember both.1).trans (only second secondMember both.2).symm)

@[simp] theorem raise_id (id : Uuid) (z : UInt32) (panel : Panel) :
    (raise id z panel).id = panel.id := by
  unfold raise
  split <;> rfl

@[simp] theorem raise_minimized (id : Uuid) (z : UInt32) (panel : Panel) :
    (raise id z panel).minimized = panel.minimized := by
  unfold raise
  split <;> rfl

@[simp] theorem raise_focused (id : Uuid) (z : UInt32) (panel : Panel) :
    (raise id z panel).focused = decide (panel.id = id) := by
  unfold raise
  split <;> simp [*]

theorem raise_zIndex (id : Uuid) (z : UInt32) (panel : Panel) :
    (raise id z panel).zIndex = if panel.id = id then z else panel.zIndex := by
  unfold raise
  split <;> rfl

theorem bringToFront_eq {workspace : Workspace} {id : Uuid}
    (distinct : (workspace.panels.map Panel.id).Nodup) (visible : workspace.Visible id) :
    workspace.bringToFront id = { workspace.advanceZIndex with
      panels := workspace.advanceZIndex.panels.map (raise id workspace.advanceZIndex.nextZ) } := by
  rw [bringToFront, if_neg]
  rw [(visible_iff distinct).mp visible]
  exact Bool.false_ne_true

theorem ids_bringToFront {workspace : Workspace} (id : Uuid) :
    (workspace.bringToFront id).panels.map Panel.id = workspace.panels.map Panel.id := by
  unfold bringToFront
  split
  · rfl
  · change (workspace.advanceZIndex.panels.map (raise id _)).map Panel.id = _
    rw [List.map_map, ← ids_of_flags (flags_advanceZIndex workspace)]
    exact List.map_congr_left fun panel _ => raise_id id _ panel

theorem bringToFront_top {workspace : Workspace} {id : Uuid} (ordered : workspace.Ordered)
    (room : workspace.HasRoom) (visible : workspace.Visible id) :
    ∀ panel ∈ (workspace.bringToFront id).panels,
      (panel.focused = true ↔ panel.id = id) ∧
        (panel.id = id → ∀ other ∈ (workspace.bringToFront id).panels, other.id ≠ id →
          other.zIndex < panel.zIndex) := by
  rw [bringToFront_eq ordered.focused.distinct visible]
  intro panel member
  obtain ⟨old, -, rfl⟩ := List.mem_map.mp member
  refine ⟨by simp, ?_⟩
  intro own other otherMember otherId
  obtain ⟨otherOld, otherOldMember, rfl⟩ := List.mem_map.mp otherMember
  rw [raise_id] at own otherId
  rw [raise_zIndex, raise_zIndex, if_pos own, if_neg otherId, UInt32.lt_iff_toNat_lt]
  exact advanceZIndex_greater ordered.counted room otherOld otherOldMember

theorem ordered_bringToFront {workspace : Workspace} {id : Uuid} (ordered : workspace.Ordered)
    (room : workspace.HasRoom) : (workspace.bringToFront id).Ordered := by
  by_cases visible : workspace.Visible id
  · have greater := advanceZIndex_greater ordered.counted room
    have advanced := focused_congr (flags_advanceZIndex workspace) ordered.focused
    have ids := @ids_bringToFront workspace id
    rw [bringToFront_eq ordered.focused.distinct visible] at ids ⊢
    have distinct : ((workspace.advanceZIndex.panels.map
        (raise id workspace.advanceZIndex.nextZ)).map Panel.id).Nodup :=
      ids ▸ ordered.focused.distinct
    have only : ∀ panel ∈ workspace.advanceZIndex.panels.map
        (raise id workspace.advanceZIndex.nextZ), panel.focused → panel.id = id := by
      intro panel member focused
      obtain ⟨old, oldMember, rfl⟩ := List.mem_map.mp member
      simpa using focused
    refine ⟨⟨distinct, oneFocused_of_id distinct only, ?_⟩, ?_⟩
    · intro panel member focused
      obtain ⟨old, oldMember, rfl⟩ := List.mem_map.mp member
      rw [raise_focused, decide_eq_true_eq] at focused
      rw [raise_minimized]
      exact visible_congr (flags_advanceZIndex workspace) visible old oldMember focused
    · intro panel member
      obtain ⟨old, oldMember, rfl⟩ := List.mem_map.mp member
      rw [raise_zIndex]
      split
      · exact le_refl _
      · exact Nat.le_of_lt (greater old oldMember)
  · have hidden : (workspace.panels.find? (·.id = id)).any (·.minimized) = true := by
      rw [visible_iff ordered.focused.distinct, Bool.not_eq_false] at visible
      exact visible
    rw [bringToFront, if_pos hidden]
    exact ordered

theorem keepsOrder_bringToFront {workspace : Workspace} {id : Uuid} (ordered : workspace.Ordered)
    (room : workspace.HasRoom) :
    KeepsOrder (some id) workspace.panels (workspace.bringToFront id).panels := by
  by_cases visible : workspace.Visible id
  · have advanced := focused_congr (flags_advanceZIndex workspace) ordered.focused
    rw [bringToFront_eq ordered.focused.distinct visible]
    refine (keepsOrder_advanceZIndex (some id) ordered.focused.distinct room).trans
      (.of_sameZ advanced.distinct ?_) ?_
    · intro panel member
      obtain ⟨old, oldMember, rfl⟩ := List.mem_map.mp member
      by_cases own : old.id = id
      · exact .inl (by rw [raise_id, own])
      · exact .inr ⟨old, oldMember, (raise_id id _ old).symm, by rw [raise_zIndex, if_neg own]⟩
    · intro panel member _
      obtain ⟨old, oldMember, rfl⟩ := List.mem_map.mp member
      exact ⟨old, oldMember, (raise_id id _ old).symm⟩
  · have hidden : (workspace.panels.find? (·.id = id)).any (·.minimized) = true := by
      rw [visible_iff ordered.focused.distinct, Bool.not_eq_false] at visible
      exact visible
    rw [bringToFront, if_pos hidden]
    exact .of_sameZ ordered.focused.distinct fun panel member => .inr ⟨panel, member, rfl, rfl⟩

/-! ## The other actions -/

theorem mem_updateFirst {id : Uuid} {change : Panel → Panel} {panels : List Panel} {panel : Panel}
    (member : panel ∈ updateFirst id change panels) :
    ∃ old ∈ panels, panel = old ∨ (old.id = id ∧ panel = change old) := by
  induction panels with
  | nil => cases member
  | cons head tail induction =>
      rw [updateFirst] at member
      split at member
      · next own =>
          rcases List.mem_cons.mp member with rfl | member
          · exact ⟨head, List.mem_cons_self .., .inr ⟨own, rfl⟩⟩
          · exact ⟨panel, List.mem_cons_of_mem _ member, .inl rfl⟩
      · rcases List.mem_cons.mp member with rfl | member
        · exact ⟨panel, List.mem_cons_self .., .inl rfl⟩
        · obtain ⟨old, among, how⟩ := induction member
          exact ⟨old, List.mem_cons_of_mem _ among, how⟩

theorem ids_updateFirst (id : Uuid) {change : Panel → Panel}
    (same : ∀ panel, (change panel).id = panel.id) (panels : List Panel) :
    (updateFirst id change panels).map Panel.id = panels.map Panel.id := by
  induction panels with
  | nil => rfl
  | cons head tail induction =>
      rw [updateFirst]
      split
      · simp [same]
      · simp [induction]

theorem oneFocused_updateFirst {id : Uuid} {change : Panel → Panel}
    (fewer : ∀ panel, (change panel).focused → panel.focused) {panels : List Panel}
    (one : panels.Pairwise fun first second => ¬ (first.focused ∧ second.focused)) :
    (updateFirst id change panels).Pairwise fun first second =>
      ¬ (first.focused ∧ second.focused) := by
  induction panels with
  | nil => exact .nil
  | cons head tail induction =>
      rw [List.pairwise_cons] at one
      rw [updateFirst]
      split
      · rw [List.pairwise_cons]
        exact ⟨fun other member both => one.1 other member ⟨fewer head both.1, both.2⟩, one.2⟩
      · rw [List.pairwise_cons]
        refine ⟨?_, induction one.2⟩
        intro other member both
        obtain ⟨old, among, rfl | ⟨-, rfl⟩⟩ := mem_updateFirst member
        · exact one.1 _ among both
        · exact one.1 _ among ⟨both.1, fewer old both.2⟩

theorem ordered_setMinimized {workspace : Workspace} (ordered : workspace.Ordered) (id : Uuid)
    (minimized : Bool) :
    Ordered { workspace with
      panels := updateFirst id (·.setMinimized minimized) workspace.panels } := by
  refine ⟨⟨?_, ?_, ?_⟩, ?_⟩
  · have kept : ∀ panel : Panel, (panel.setMinimized minimized).id = panel.id := fun _ => rfl
    have ids := ids_updateFirst id kept workspace.panels
    exact ids ▸ ordered.focused.distinct
  · refine oneFocused_updateFirst ?_ ordered.focused.oneFocused
    intro panel focused
    simp only [Panel.setMinimized, Bool.and_eq_true] at focused
    exact focused.1
  · intro panel member focused
    obtain ⟨old, among, rfl | ⟨-, rfl⟩⟩ := mem_updateFirst member
    · exact ordered.focused.focusedVisible _ among focused
    · simp only [Panel.setMinimized, Bool.and_eq_true, Bool.not_eq_true'] at focused ⊢
      exact focused.2
  · intro panel member
    obtain ⟨old, among, rfl | ⟨-, rfl⟩⟩ := mem_updateFirst member
    · exact ordered.counted _ among
    · exact ordered.counted old among

theorem keepsOrder_setMinimized {workspace : Workspace} (ordered : workspace.Ordered)
    (raised : Option Uuid) (id : Uuid) (minimized : Bool) :
    KeepsOrder raised workspace.panels
      (updateFirst id (·.setMinimized minimized) workspace.panels) := by
  refine .of_sameZ ordered.focused.distinct ?_
  intro panel member
  obtain ⟨old, among, rfl | ⟨-, rfl⟩⟩ := mem_updateFirst member
  · exact .inr ⟨_, among, rfl, rfl⟩
  · exact .inr ⟨old, among, rfl, rfl⟩

theorem ordered_focusTopmostVisiblePanel {workspace : Workspace}
    (distinct : (workspace.panels.map Panel.id).Nodup) (counted : workspace.Counted) :
    workspace.focusTopmostVisiblePanel.Ordered := by
  refine ⟨focused_focusTopmostVisiblePanel distinct, ?_⟩
  intro panel member
  obtain ⟨position, inside, rfl⟩ := List.mem_mapIdx.mp member
  exact counted workspace.panels[position] (List.getElem_mem inside)

theorem sameZ_focusTopmostVisiblePanel (workspace : Workspace) :
    ∀ panel ∈ workspace.focusTopmostVisiblePanel.panels,
      ∃ old ∈ workspace.panels, old.id = panel.id ∧ old.zIndex = panel.zIndex := by
  intro panel member
  obtain ⟨position, inside, rfl⟩ := List.mem_mapIdx.mp member
  exact ⟨_, List.getElem_mem inside, rfl, rfl⟩

theorem length_updateFirst (id : Uuid) (change : Panel → Panel) (panels : List Panel) :
    (updateFirst id change panels).length = panels.length := by
  induction panels with
  | nil => rfl
  | cons head tail induction =>
      rw [updateFirst]
      split
      · rfl
      · simp [induction]

theorem ordered_showPanel {workspace : Workspace} (ordered : workspace.Ordered) (id : Uuid) :
    (workspace.showPanel id).Ordered :=
  ordered_setMinimized ordered id false

theorem hasRoom_showPanel {workspace : Workspace} (room : workspace.HasRoom) (id : Uuid) :
    (workspace.showPanel id).HasRoom := by
  change (updateFirst _ _ _).length < _
  rw [length_updateFirst]
  exact room

theorem ordered_show {workspace : Workspace} (ordered : workspace.Ordered)
    (room : workspace.HasRoom) (id : Uuid) :
    Ordered ((workspace.showPanel id).bringToFront id) ∧
      KeepsOrder (some id) workspace.panels ((workspace.showPanel id).bringToFront id).panels := by
  have shown := ordered_showPanel ordered id
  have shownRoom := hasRoom_showPanel room id
  refine ⟨ordered_bringToFront shown shownRoom, ?_⟩
  refine (keepsOrder_setMinimized ordered (some id) id false).trans
    (keepsOrder_bringToFront shown shownRoom) ?_
  intro panel member _
  exact present_of_ids (ids_bringToFront id) member

theorem ordered_restorePanel {workspace : Workspace} (ordered : workspace.Ordered)
    (room : workspace.HasRoom) (id : Uuid) :
    (workspace.restorePanel id).Ordered ∧
      KeepsOrder (some id) workspace.panels (workspace.restorePanel id).panels := by
  unfold restorePanel
  split
  · exact ordered_show ordered room id
  · exact ⟨ordered, .of_sameZ ordered.focused.distinct fun panel member =>
      .inr ⟨panel, member, rfl, rfl⟩⟩

theorem keepsOrder_hide {workspace : Workspace} (ordered : workspace.Ordered)
    (raised : Option Uuid) (id : Uuid) (moves : Bool) :
    let hidden : Workspace := { workspace with
      panels := updateFirst id (·.setMinimized true) workspace.panels }
    KeepsOrder raised workspace.panels
      (if moves then hidden.focusTopmostVisiblePanel else hidden).panels := by
  have hidden := ordered_setMinimized ordered id true
  have kept := keepsOrder_setMinimized ordered raised id true
  dsimp only
  split
  · refine kept.trans (.of_sameZ hidden.focused.distinct fun panel member =>
      .inr (sameZ_focusTopmostVisiblePanel _ panel member)) ?_
    intro panel member _
    obtain ⟨old, among, own, -⟩ := sameZ_focusTopmostVisiblePanel _ panel member
    exact ⟨old, among, own⟩
  · exact kept

theorem ordered_toggleMinimizePanel {workspace : Workspace} (ordered : workspace.Ordered)
    (room : workspace.HasRoom) (id : Uuid) :
    (workspace.toggleMinimizePanel id).Ordered ∧
      KeepsOrder (some id) workspace.panels (workspace.toggleMinimizePanel id).panels := by
  unfold toggleMinimizePanel
  cases workspace.panels.find? (·.id = id) with
  | none => exact ⟨ordered, .of_sameZ ordered.focused.distinct fun panel member =>
      .inr ⟨panel, member, rfl, rfl⟩⟩
  | some panel =>
      dsimp only
      split
      · exact ordered_restorePanel ordered room id
      · have hidden := ordered_setMinimized ordered id true
        refine ⟨?_, keepsOrder_hide ordered (some id) id panel.focused⟩
        split
        · exact ordered_focusTopmostVisiblePanel hidden.focused.distinct hidden.counted
        · exact hidden

theorem ordered_unfocusAll {workspace : Workspace} (ordered : workspace.Ordered) :
    workspace.unfocusAll.Ordered ∧
      KeepsOrder none workspace.panels workspace.unfocusAll.panels := by
  have none : ∀ panel ∈ workspace.unfocusAll.panels, panel.focused = false := by
    intro panel member
    obtain ⟨old, -, rfl⟩ := List.mem_map.mp member
    rfl
  refine ⟨⟨⟨?_, ?_, ?_⟩, ?_⟩, .of_sameZ ordered.focused.distinct ?_⟩
  · change ((workspace.panels.map _).map Panel.id).Nodup
    rw [List.map_map]
    exact ordered.focused.distinct
  · refine List.pairwise_of_forall_mem_list ?_
    intro first firstMember second _ both
    rw [none first firstMember] at both
    exact Bool.false_ne_true both.1
  · intro panel member focused
    rw [none panel member] at focused
    cases focused
  · intro panel member
    obtain ⟨old, among, rfl⟩ := List.mem_map.mp member
    exact ordered.counted old among
  · intro panel member
    obtain ⟨old, among, rfl⟩ := List.mem_map.mp member
    exact .inr ⟨old, among, rfl, rfl⟩

theorem ordered_closePanel {workspace : Workspace} (ordered : workspace.Ordered) (id : Uuid) :
    (workspace.closePanel id).Ordered ∧
      KeepsOrder none workspace.panels (workspace.closePanel id).panels := by
  have distinct : ((workspace.panels.filter fun panel => panel.id ≠ id).map Panel.id).Nodup :=
    ordered.focused.distinct.sublist (List.filter_sublist.map _)
  refine ⟨ordered_focusTopmostVisiblePanel distinct ?_, .of_sameZ ordered.focused.distinct ?_⟩
  · intro panel member
    exact ordered.counted panel (List.mem_filter.mp member).1
  · intro panel member
    obtain ⟨old, among, own, z⟩ := sameZ_focusTopmostVisiblePanel _ panel member
    exact .inr ⟨old, (List.mem_filter.mp among).1, own, z⟩

/-! ## New panels -/

def Fresh (workspace : Workspace) (id : Uuid) : Prop := ∀ panel ∈ workspace.panels, panel.id ≠ id

theorem ordered_pushPanel {workspace : Workspace} (ordered : workspace.Ordered) {id : Uuid}
    (fresh : workspace.Fresh id) : (workspace.pushPanel id).Ordered := by
  refine ⟨⟨?_, ?_, ?_⟩, ?_⟩
  · change ((workspace.panels ++ [_]).map Panel.id).Nodup
    rw [List.map_append, List.nodup_append]
    refine ⟨ordered.focused.distinct, by simp, ?_⟩
    intro first firstMember second secondMember equal
    obtain ⟨panel, member, rfl⟩ := List.mem_map.mp firstMember
    rw [List.map_singleton, List.mem_singleton] at secondMember
    exact fresh panel member (equal.trans secondMember)
  · refine List.pairwise_append.mpr
      ⟨ordered.focused.oneFocused, List.pairwise_singleton _ _, ?_⟩
    intro first _ second secondMember both
    rw [List.mem_singleton.mp secondMember] at both
    exact Bool.false_ne_true both.2
  · intro panel member focused
    rcases List.mem_append.mp member with member | member
    · exact ordered.focused.focusedVisible panel member focused
    · rw [List.mem_singleton.mp member]
  · intro panel member
    rcases List.mem_append.mp member with member | member
    · exact ordered.counted panel member
    · rw [List.mem_singleton.mp member]
      exact le_refl _

theorem ordered_advanceZIndex {workspace : Workspace} (ordered : workspace.Ordered)
    (room : workspace.HasRoom) : workspace.advanceZIndex.Ordered :=
  ⟨focused_congr (flags_advanceZIndex workspace) ordered.focused, fun panel member =>
    Nat.le_of_lt (advanceZIndex_greater ordered.counted room panel member)⟩

theorem hasRoom_advanceZIndex {workspace : Workspace} (room : workspace.HasRoom) :
    workspace.advanceZIndex.HasRoom := by
  have lengths := congrArg List.length (flags_advanceZIndex workspace)
  rw [List.length_map, List.length_map] at lengths
  change workspace.advanceZIndex.panels.length < _
  rw [lengths]
  exact room

theorem ordered_spawnTerminal {workspace : Workspace} (ordered : workspace.Ordered) {id : Uuid}
    (fresh : workspace.Fresh id) (room : (workspace.pushPanel id).HasRoom) :
    (workspace.spawnTerminal id).Ordered ∧
      KeepsOrder (some id) workspace.panels (workspace.spawnTerminal id).panels := by
  have pushed := ordered_pushPanel ordered fresh
  have advanced := ordered_advanceZIndex pushed room
  have advancedRoom := hasRoom_advanceZIndex room
  refine ⟨ordered_bringToFront advanced advancedRoom, ?_⟩
  have push : KeepsOrder (some id) workspace.panels (workspace.pushPanel id).panels := by
    refine .of_sameZ ordered.focused.distinct ?_
    intro panel member
    rcases List.mem_append.mp member with member | member
    · exact .inr ⟨panel, member, rfl, rfl⟩
    · exact .inl (by rw [List.mem_singleton.mp member])
  have pushAdvance := push.trans (keepsOrder_advanceZIndex (some id) pushed.focused.distinct room)
    fun panel member _ => present_of_ids (ids_of_flags (flags_advanceZIndex _)) member
  exact pushAdvance.trans (keepsOrder_bringToFront advanced advancedRoom)
    fun panel member _ => present_of_ids (ids_bringToFront id) member

/-! ## Restored workspaces -/

theorem maxPanelZ_ge {panels : List Panel} :
    ∀ panel ∈ panels, panel.zIndex.toNat ≤ (maxPanelZ panels).toNat := by
  have grows : ∀ (panels : List Panel) (start : UInt32), start.toNat ≤
      (panels.foldl (fun z panel => if z < panel.zIndex then panel.zIndex else z) start).toNat ∧
      ∀ panel ∈ panels, panel.zIndex.toNat ≤
        (panels.foldl (fun z panel => if z < panel.zIndex then panel.zIndex else z)
          start).toNat := by
    intro panels
    induction panels with
    | nil => exact fun start => ⟨le_refl _, by simp⟩
    | cons head tail induction =>
        intro start
        rw [List.foldl_cons]
        obtain ⟨above, rest⟩ := induction (if start < head.zIndex then head.zIndex else start)
        have both : start.toNat ≤ (if start < head.zIndex then head.zIndex else start).toNat ∧
            head.zIndex.toNat ≤ (if start < head.zIndex then head.zIndex else start).toNat := by
          split
          · next less => exact ⟨Nat.le_of_lt (UInt32.lt_iff_toNat_lt.mp less), le_refl _⟩
          · next notLess =>
              exact ⟨le_refl _, Nat.le_of_not_lt fun less =>
                notLess (UInt32.lt_iff_toNat_lt.mpr less)⟩
        refine ⟨le_trans both.1 above, ?_⟩
        intro panel member
        rcases List.mem_cons.mp member with rfl | member
        · exact le_trans both.2 above
        · exact rest panel member
  exact (grows panels 0).2

theorem counted_reconcileOrderCounters {workspace : Workspace} (room : workspace.HasRoom) :
    Counted workspace.reconcileOrderCounters ∧
      workspace.reconcileOrderCounters.panels.map flags = workspace.panels.map flags ∧
      ((workspace.panels.map Panel.id).Nodup →
        KeepsOrder none workspace.panels workspace.reconcileOrderCounters.panels) := by
  unfold reconcileOrderCounters
  dsimp only
  split
  · refine ⟨counted_compactZIndices room, flags_compactZIndices _, fun distinct => ?_⟩
    exact keepsOrder_compactZIndices none distinct room
  · refine ⟨?_, rfl, fun distinct => .of_sameZ distinct fun panel member =>
      .inr ⟨panel, member, rfl, rfl⟩⟩
    intro panel member
    refine le_trans (maxPanelZ_ge panel member) ?_
    dsimp only
    split
    · exact le_refl _
    · next notLess =>
        exact Nat.le_of_not_lt fun less => notLess (UInt32.lt_iff_toNat_lt.mpr less)

theorem pairwise_of_countP {panels : List Panel} {holds : Panel → Bool}
    (one : panels.countP holds ≤ 1) :
    panels.Pairwise fun first second => ¬ (holds first = true ∧ holds second = true) := by
  induction panels with
  | nil => exact .nil
  | cons head tail induction =>
      rw [List.countP_cons] at one
      refine List.pairwise_cons.mpr ⟨?_, induction (by omega)⟩
      intro other member both
      have positive := List.countP_pos_iff.mpr ⟨other, member, both.2⟩
      rw [if_pos both.1] at one
      omega

theorem ordered_fromSaved {saved : List Panel} (nextZ : UInt32) (nextColor : Nat)
    (distinct : (saved.map Panel.id).Nodup) (room : saved.length < 2 ^ 32) :
    (fromSaved saved nextZ nextColor).Ordered ∧
      KeepsOrder none saved (fromSaved saved nextZ nextColor).panels ∧
      (fromSaved saved nextZ nextColor).panels.length = saved.length := by
  let panels := saved.map fun panel => { panel with focused := panel.focused && !panel.minimized }
  let seeded : Workspace := ⟨panels, nextZ, nextColor⟩
  have ids : panels.map Panel.id = saved.map Panel.id := by
    rw [List.map_map]
    rfl
  have seededRoom : seeded.HasRoom := by
    change panels.length < _
    rw [List.length_map]
    exact room
  have visible : ∀ panel ∈ panels, panel.focused → panel.minimized = false := by
    intro panel member focused
    obtain ⟨old, -, rfl⟩ := List.mem_map.mp member
    simp only [Bool.and_eq_true, Bool.not_eq_true'] at focused
    exact focused.2
  have seedOrder : KeepsOrder none saved panels := by
    refine .of_sameZ distinct ?_
    intro panel member
    obtain ⟨old, among, rfl⟩ := List.mem_map.mp member
    exact .inr ⟨old, among, rfl, rfl⟩
  obtain ⟨counted, sameFlags, keeps⟩ := counted_reconcileOrderCounters seededRoom
  have sameIds := ids_of_flags sameFlags
  have reconciledDistinct : (seeded.reconcileOrderCounters.panels.map Panel.id).Nodup := by
    rw [sameIds]
    exact ids ▸ distinct
  have order : KeepsOrder none saved seeded.reconcileOrderCounters.panels :=
    seedOrder.trans (keeps (ids ▸ distinct)) fun panel member _ => present_of_ids sameIds member
  have length : seeded.reconcileOrderCounters.panels.length = saved.length := by
    have lengths := congrArg List.length sameIds
    simp only [List.length_map] at lengths
    rw [lengths]
    exact List.length_map ..
  unfold fromSaved
  dsimp only
  split
  · refine ⟨ordered_focusTopmostVisiblePanel reconciledDistinct counted, ?_, ?_⟩
    · refine order.trans (.of_sameZ reconciledDistinct fun panel member =>
        .inr (sameZ_focusTopmostVisiblePanel _ panel member)) ?_
      intro panel member _
      obtain ⟨old, among, own, -⟩ := sameZ_focusTopmostVisiblePanel _ panel member
      exact ⟨old, among, own⟩
    · simp only [focusTopmostVisiblePanel, List.length_mapIdx]
      exact length
  · next single =>
      rw [not_not] at single
      have reconciledVisible : ∀ panel ∈ seeded.reconcileOrderCounters.panels,
          panel.focused → panel.minimized = false := by
        intro panel member focused
        have inFlags : flags panel ∈ panels.map flags := sameFlags ▸ List.mem_map_of_mem member
        obtain ⟨old, among, equal⟩ := List.mem_map.mp inFlags
        simp only [flags, Prod.mk.injEq] at equal
        rw [← equal.2.2]
        exact visible old among (equal.2.1 ▸ focused)
      refine ⟨⟨⟨reconciledDistinct, ?_, reconciledVisible⟩, counted⟩, order, length⟩
      refine (pairwise_of_countP (Nat.le_of_eq single)).imp_of_mem ?_
      intro first second firstMember secondMember apart both
      refine apart ⟨?_, ?_⟩
      · simp [both.1, reconciledVisible first firstMember both.1]
      · simp [both.2, reconciledVisible second secondMember both.2]

end Workspace

end TerminalCanvas.State
