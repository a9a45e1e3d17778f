import Mathlib.Tactic.Linarith
import TerminalCanvas.Foundation.Rectangles
import TerminalCanvas.Terminal.SplitTree

/-! # The layout of a split tree

The layout in exact arithmetic: rational ratios and coordinates stand for the
single-precision ones. Each split cuts its area in two, so that the leaves tile the
panel and each divider lies along the cut of its split. -/

namespace TerminalCanvas.SplitLayout

open Rectangles SplitTree

abbrev Area := Rect Rat

inductive SplitNode
  | leaf (id : LeafId)
  | split (axis : Axis) (ratio : Rat) (first second : SplitNode)
deriving DecidableEq, Repr

structure LeafLayout where
  id : LeafId
  rect : Area
deriving DecidableEq, Repr

structure DividerHit where
  axis : Axis
  rect : Area
  /-- The area of the split that owns this divider. -/
  parent : Area
  path : List Nat
deriving DecidableEq, Repr

structure Layout where
  leaves : List LeafLayout
  dividers : List DividerHit
deriving DecidableEq, Repr

def clampRatio (ratio : Rat) : Rat := max (1 / 20) (min ratio (19 / 20))

/-- The two parts of an area and the divider between them. -/
structure Division where
  first : Area
  second : Area
  divider : Area
deriving DecidableEq, Repr

def divide (axis : Axis) (ratio : Rat) (rect : Area) : Division :=
  match axis with
  | .horizontal =>
      let splitX := rect.min.x + (rect.max.x - rect.min.x) * ratio
      ⟨⟨rect.min, ⟨splitX, rect.max.y⟩⟩, ⟨⟨splitX, rect.min.y⟩, rect.max⟩,
        ⟨⟨splitX - 3, rect.min.y⟩, ⟨splitX + 3, rect.max.y⟩⟩⟩
  | .vertical =>
      let splitY := rect.min.y + (rect.max.y - rect.min.y) * ratio
      ⟨⟨rect.min, ⟨rect.max.x, splitY⟩⟩, ⟨⟨rect.min.x, splitY⟩, rect.max⟩,
        ⟨⟨rect.min.x, splitY - 3⟩, ⟨rect.max.x, splitY + 3⟩⟩⟩

namespace SplitNode

def leaves : SplitNode → List LeafId
  | leaf id => [id]
  | split _ _ first second => first.leaves ++ second.leaves

def layoutInner : SplitNode → Area → List Nat → Layout → Layout
  | leaf id, rect, _, placed => { placed with leaves := placed.leaves ++ [⟨id, rect⟩] }
  | split axis ratio first second, rect, path, placed =>
      let division := divide axis (clampRatio ratio) rect
      let placed := { placed with
        dividers := placed.dividers ++ [⟨axis, division.divider, rect, path⟩] }
      let placed := first.layoutInner division.first (path ++ [0]) placed
      second.layoutInner division.second (path ++ [1]) placed

def layout (tree : SplitNode) (rect : Area) : Layout :=
  tree.layoutInner rect [] ⟨[], []⟩

def setRatio : SplitNode → List Nat → Rat → SplitNode
  | leaf id, _, _ => leaf id
  | split axis _ first second, [], ratio => split axis (clampRatio ratio) first second
  | split axis current first second, index :: path, ratio =>
      if index = 0 then
        split axis current (first.setRatio path ratio) second
      else
        split axis current first (second.setRatio path ratio)

/-! ## Paths -/

def subtree : SplitNode → List Nat → Option SplitNode
  | node, [] => some node
  | leaf _, _ :: _ => none
  | split _ _ first second, index :: path =>
      if index = 0 then first.subtree path else second.subtree path

/-- The tree with another node where a path leads. -/
def put : SplitNode → List Nat → SplitNode → SplitNode
  | _, [], node => node
  | leaf id, _ :: _, _ => leaf id
  | split axis ratio first second, index :: path, node =>
      if index = 0 then
        split axis ratio (first.put path node) second
      else
        split axis ratio first (second.put path node)

@[simp] theorem subtree_nil (tree : SplitNode) : tree.subtree [] = some tree := by
  cases tree <;> rfl

@[simp] theorem put_nil (tree node : SplitNode) : tree.put [] node = node := by
  cases tree <;> rfl

/-- What a node is apart from its subtrees. -/
inductive Label
  | leaf (id : LeafId)
  | split (axis : Axis) (ratio : Rat)
deriving DecidableEq, Repr

def label : SplitNode → Label
  | leaf id => .leaf id
  | split axis ratio _ _ => .split axis ratio

/-- A path as the layout writes it: first and second children. -/
def Canonical (path : List Nat) : Prop := ∀ index ∈ path, index < 2

theorem setRatio_eq_put {tree first second : SplitNode} {path : List Nat} {axis : Axis}
    {current : Rat} (reached : tree.subtree path = some (split axis current first second))
    (ratio : Rat) :
    tree.setRatio path ratio = tree.put path (split axis (clampRatio ratio) first second) := by
  induction path generalizing tree with
  | nil =>
      rw [subtree_nil, Option.some.injEq] at reached
      rw [reached, put_nil]
      rfl
  | cons index path induction =>
      cases tree with
      | leaf id => cases reached
      | split axis ratio one two =>
          simp only [subtree] at reached
          simp only [setRatio, put]
          split at reached
          · next isFirst => rw [if_pos isFirst, if_pos isFirst, induction reached]
          · next isSecond => rw [if_neg isSecond, if_neg isSecond, induction reached]

theorem put_subtree {tree node : SplitNode} {path : List Nat}
    (reached : tree.subtree path = some node) : tree.put path node = tree := by
  induction path generalizing tree with
  | nil =>
      rw [subtree_nil, Option.some.injEq] at reached
      rw [reached, put_nil]
  | cons index path induction =>
      cases tree with
      | leaf id => rfl
      | split axis ratio one two =>
          simp only [subtree] at reached
          simp only [put]
          split at reached
          · next isFirst => rw [if_pos isFirst, induction reached]
          · next isSecond => rw [if_neg isSecond, induction reached]

/-! ## Where the layout puts things -/

/-- The leaves of a subtree in its area. -/
def leafLayouts : SplitNode → Area → List LeafLayout
  | leaf id, rect => [⟨id, rect⟩]
  | split axis ratio first second, rect =>
      first.leafLayouts (divide axis (clampRatio ratio) rect).first ++
        second.leafLayouts (divide axis (clampRatio ratio) rect).second

/-- The dividers of a subtree in its area, with paths from the root of the tree. -/
def dividerHits : SplitNode → Area → List Nat → List DividerHit
  | leaf _, _, _ => []
  | split axis ratio first second, rect, path =>
      ⟨axis, (divide axis (clampRatio ratio) rect).divider, rect, path⟩ ::
        (first.dividerHits (divide axis (clampRatio ratio) rect).first (path ++ [0]) ++
          second.dividerHits (divide axis (clampRatio ratio) rect).second (path ++ [1]))

theorem layoutInner_eq (tree : SplitNode) (rect : Area) (path : List Nat) (placed : Layout) :
    tree.layoutInner rect path placed =
      ⟨placed.leaves ++ tree.leafLayouts rect,
        placed.dividers ++ tree.dividerHits rect path⟩ := by
  induction tree generalizing rect path placed with
  | leaf id => simp [layoutInner, leafLayouts, dividerHits]
  | split axis ratio first second one two =>
      simp [layoutInner, leafLayouts, dividerHits, one, two]

theorem layout_eq (tree : SplitNode) (rect : Area) :
    tree.layout rect = ⟨tree.leafLayouts rect, tree.dividerHits rect []⟩ := by
  rw [layout, layoutInner_eq]
  rfl

theorem clampRatio_bounds (ratio : Rat) : 0 ≤ clampRatio ratio ∧ clampRatio ratio ≤ 1 := by
  unfold clampRatio
  constructor
  · exact le_trans (by norm_num) (le_max_left _ _)
  · exact max_le (by norm_num) (le_trans (min_le_right _ _) (by norm_num))

theorem halves_divide (axis : Axis) (ratio : Rat) {rect : Area} (proper : rect.Proper) :
    Halves (divide axis (clampRatio ratio) rect).first
      (divide axis (clampRatio ratio) rect).second rect := by
  obtain ⟨low, high⟩ := clampRatio_bounds ratio
  cases axis with
  | horizontal =>
      have width : 0 ≤ rect.max.x - rect.min.x := sub_nonneg.mpr proper.1
      have left := mul_nonneg width low
      have right := mul_le_of_le_one_right width high
      exact halves_horizontal proper (by linarith) (by linarith)
  | vertical =>
      have height : 0 ≤ rect.max.y - rect.min.y := sub_nonneg.mpr proper.2
      have top := mul_nonneg height low
      have bottom := mul_le_of_le_one_right height high
      exact halves_vertical proper (by linarith) (by linarith)

theorem leafLayouts_tile (tree : SplitNode) {rect : Area} (proper : rect.Proper) :
    Tiles ((tree.leafLayouts rect).map LeafLayout.rect) rect := by
  induction tree generalizing rect with
  | leaf id => exact tiles_singleton proper
  | split axis ratio first second one two =>
      have halves := halves_divide axis ratio proper
      rw [leafLayouts, List.map_append]
      exact (one halves.properFirst).append (two halves.properSecond) halves

theorem leafLayouts_ids (tree : SplitNode) (rect : Area) :
    (tree.leafLayouts rect).map LeafLayout.id = tree.leaves := by
  induction tree generalizing rect with
  | leaf id => rfl
  | split axis ratio first second one two =>
      rw [leafLayouts, List.map_append, one, two, leaves]

theorem dividerHits_parents (tree : SplitNode) {rect : Area} (proper : rect.Proper)
    (path : List Nat) :
    ∀ divider ∈ tree.dividerHits rect path, divider.parent.Within rect := by
  induction tree generalizing rect path with
  | leaf id => simp [dividerHits]
  | split axis ratio first second one two =>
      have halves := halves_divide axis ratio proper
      intro divider member
      rcases List.mem_cons.mp member with rfl | member
      · rfl
      · rcases List.mem_append.mp member with member | member
        · exact (one halves.properFirst _ _ member).trans halves.withinFirst
        · exact (two halves.properSecond _ _ member).trans halves.withinSecond

/-- A subtree occupies one part of the leaves and one part of the dividers, those
of its area, and whatever stands in its place occupies the same part. -/
structure Occupies (tree : SplitNode) (rect : Area) (start path : List Nat) (area : Area)
    (before after : List LeafLayout) (dividersBefore dividersAfter : List DividerHit) :
    Prop where
  proper : area.Proper
  within : area.Within rect
  leaves : ∀ node, (tree.put path node).leafLayouts rect =
    before ++ node.leafLayouts area ++ after
  dividers : ∀ node, (tree.put path node).dividerHits rect start =
    dividersBefore ++ node.dividerHits area (start ++ path) ++ dividersAfter

theorem exists_occupies {tree node : SplitNode} {rect : Area} (proper : rect.Proper)
    (start : List Nat) {path : List Nat} (canonical : Canonical path)
    (reached : tree.subtree path = some node) :
    ∃ area before after dividersBefore dividersAfter,
      Occupies tree rect start path area before after dividersBefore dividersAfter := by
  induction path generalizing tree rect start with
  | nil =>
      refine ⟨rect, [], [], [], [], ⟨proper, .refl rect, ?_, ?_⟩⟩
      · simp
      · simp
  | cons index path induction =>
      cases tree with
      | leaf id => cases reached
      | split axis ratio first second =>
          have halves := halves_divide axis ratio proper
          let division := divide axis (clampRatio ratio) rect
          let own : DividerHit := ⟨axis, division.divider, rect, start⟩
          have rest : Canonical path := fun other member =>
            canonical other (List.mem_cons_of_mem _ member)
          simp only [subtree] at reached
          by_cases isFirst : index = 0
          · rw [if_pos isFirst] at reached
            obtain ⟨area, before, after, dividersBefore, dividersAfter, occupies⟩ :=
              induction halves.properFirst (start ++ [0]) rest reached
            refine ⟨area, before, after ++ second.leafLayouts division.second,
              own :: dividersBefore,
              dividersAfter ++ second.dividerHits division.second (start ++ [1]),
              ⟨occupies.proper, occupies.within.trans halves.withinFirst, ?_, ?_⟩⟩
            · intro node
              simp only [put, if_pos isFirst, leafLayouts, occupies.leaves node]
              simp [division]
            · intro node
              simp only [put, if_pos isFirst, dividerHits, occupies.dividers node]
              simp [isFirst, own, division]
          · have isOne : index = 1 := by
              have bound := canonical index (List.mem_cons_self ..)
              omega
            rw [if_neg isFirst] at reached
            obtain ⟨area, before, after, dividersBefore, dividersAfter, occupies⟩ :=
              induction halves.properSecond (start ++ [1]) rest reached
            refine ⟨area, first.leafLayouts division.first ++ before, after,
              own :: (first.dividerHits division.first (start ++ [0]) ++ dividersBefore),
              dividersAfter,
              ⟨occupies.proper, occupies.within.trans halves.withinSecond, ?_, ?_⟩⟩
            · intro node
              simp only [put, if_neg isFirst, leafLayouts, occupies.leaves node]
              simp [division]
            · intro node
              simp only [put, if_neg isFirst, dividerHits, occupies.dividers node]
              simp [isOne, own, division]

/-! ## The paths of the dividers -/

def IsSplit (node : Option SplitNode) : Prop :=
  ∃ axis ratio first second, node = some (split axis ratio first second)

theorem canonical_cons {index : Nat} {path : List Nat} :
    Canonical (index :: path) ↔ index < 2 ∧ Canonical path := by
  simp [Canonical]

theorem mem_paths {tree : SplitNode} {rect : Area} {start found : List Nat} :
    found ∈ (tree.dividerHits rect start).map DividerHit.path ↔
      ∃ path, found = start ++ path ∧ Canonical path ∧ IsSplit (tree.subtree path) := by
  induction tree generalizing rect start with
  | leaf id =>
      constructor
      · intro member
        cases member
      · rintro ⟨path, -, -, axis, ratio, first, second, reached⟩
        cases path with
        | nil => cases reached
        | cons => cases reached
  | split axis ratio first second one two =>
      simp only [dividerHits, List.map_cons, List.map_append, List.mem_cons, List.mem_append,
        one, two]
      constructor
      · rintro (rfl | ⟨path, rfl, canonical, reached⟩ | ⟨path, rfl, canonical, reached⟩)
        · exact ⟨[], by simp, by simp [Canonical], axis, ratio, first, second, rfl⟩
        · exact ⟨0 :: path, by simp, canonical_cons.mpr ⟨by omega, canonical⟩, reached⟩
        · exact ⟨1 :: path, by simp, canonical_cons.mpr ⟨by omega, canonical⟩, reached⟩
      · rintro ⟨path, rfl, canonical, reached⟩
        cases path with
        | nil => exact .inl (by simp)
        | cons index path =>
            obtain ⟨bound, rest⟩ := canonical_cons.mp canonical
            have which : index = 0 ∨ index = 1 := by omega
            rcases which with rfl | rfl
            · exact .inr (.inl ⟨path, by simp, rest, reached⟩)
            · exact .inr (.inr ⟨path, by simp, rest, reached⟩)

theorem paths_nodup (tree : SplitNode) (rect : Area) (start : List Nat) :
    ((tree.dividerHits rect start).map DividerHit.path).Nodup := by
  induction tree generalizing rect start with
  | leaf id => exact List.nodup_nil
  | split axis ratio first second one two =>
      rw [dividerHits, List.map_cons, List.map_append, List.nodup_cons, List.nodup_append]
      refine ⟨?_, one _ _, two _ _, ?_⟩
      · intro member
        rcases List.mem_append.mp member with member | member
        all_goals
          obtain ⟨path, equal, -⟩ := mem_paths.mp member
          have lengths := congrArg List.length equal
          simp only [List.length_append, List.length_singleton] at lengths
          omega
      · intro path inFirst other inSecond equal
        obtain ⟨firstPath, rfl, -⟩ := mem_paths.mp inFirst
        obtain ⟨secondPath, rfl, -⟩ := mem_paths.mp inSecond
        simp [List.append_assoc] at equal

/-! ## A divider and its split -/

/-- What an own divider is: it lies along the cut of its area. -/
def ownDivider (axis : Axis) (ratio : Rat) (area : Area) (path : List Nat) : DividerHit :=
  ⟨axis, (divide axis (clampRatio ratio) area).divider, area, path⟩

/-- The divider of a path is the own divider of the split there, and its parent is
the area that split occupies. -/
theorem divider_occupies {tree : SplitNode} {rect : Area} (proper : rect.Proper)
    {divider : DividerHit} (member : divider ∈ tree.dividerHits rect []) :
    ∃ ratio first second before after dividersBefore dividersAfter,
      tree.subtree divider.path = some (split divider.axis ratio first second) ∧
      Canonical divider.path ∧
      divider = ownDivider divider.axis ratio divider.parent divider.path ∧
      Occupies tree rect [] divider.path divider.parent before after dividersBefore
        dividersAfter := by
  obtain ⟨path, equal, canonical, axis, ratio, first, second, reached⟩ :=
    mem_paths.mp (List.mem_map_of_mem member)
  rw [List.nil_append] at equal
  obtain ⟨area, before, after, dividersBefore, dividersAfter, occupies⟩ :=
    exists_occupies proper [] canonical reached
  have placed := occupies.dividers (split axis ratio first second)
  rw [put_subtree reached, List.nil_append] at placed
  have own : ownDivider axis ratio area path ∈ tree.dividerHits rect [] := by
    rw [placed]
    simp [dividerHits, ownDivider]
  have same : divider = ownDivider axis ratio area path :=
    List.inj_on_of_nodup_map (paths_nodup tree rect []) member own equal
  subst same
  exact ⟨ratio, first, second, before, after, dividersBefore, dividersAfter, reached, canonical,
    rfl, occupies⟩

theorem label_put {tree first second : SplitNode} {path other : List Nat} {axis : Axis}
    {current : Rat} (next : Rat) (canonical : Canonical path) (otherCanonical : Canonical other)
    (reached : tree.subtree path = some (split axis current first second)) :
    ((tree.put path (split axis next first second)).subtree other).map label =
      if other = path then some (.split axis next) else (tree.subtree other).map label := by
  induction path generalizing tree other with
  | nil =>
      rw [subtree_nil, Option.some.injEq] at reached
      rw [reached, put_nil]
      cases other with
      | nil => rfl
      | cons index other => rfl
  | cons index path induction =>
      cases tree with
      | leaf id => cases reached
      | split own ratio one two =>
          simp only [subtree] at reached
          cases other with
          | nil =>
              simp only [put]
              split <;> simp [label]
          | cons otherIndex other =>
              have bound := (canonical_cons.mp canonical).1
              have otherBound := (canonical_cons.mp otherCanonical).1
              have rest := (canonical_cons.mp canonical).2
              have otherRest := (canonical_cons.mp otherCanonical).2
              by_cases isFirst : index = 0
              · rw [if_pos isFirst] at reached
                by_cases otherFirst : otherIndex = 0
                · simp only [put, isFirst, otherFirst, if_true, subtree,
                    induction rest otherRest reached, List.cons.injEq, true_and]
                · have different : otherIndex ≠ index := by omega
                  simp [put, isFirst, otherFirst, subtree, List.cons.injEq]
              · rw [if_neg isFirst] at reached
                have isOne : index = 1 := by omega
                by_cases otherFirst : otherIndex = 0
                · simp [put, isOne, otherFirst, subtree, List.cons.injEq]
                · have otherOne : otherIndex = 1 := by omega
                  simp only [put, isOne, otherOne, if_false, subtree, Nat.one_ne_zero,
                    induction rest otherRest reached, List.cons.injEq, true_and]

/-! ## Layouts -/

/-- A divider lies along the common edge of two areas, three units to either side. -/
def Straddles (divider : DividerHit) (first second : Area) : Prop :=
  match divider.axis with
  | .horizontal => ∃ x, first = ⟨divider.parent.min, ⟨x, divider.parent.max.y⟩⟩ ∧
      second = ⟨⟨x, divider.parent.min.y⟩, divider.parent.max⟩ ∧
      divider.rect = ⟨⟨x - 3, divider.parent.min.y⟩, ⟨x + 3, divider.parent.max.y⟩⟩
  | .vertical => ∃ y, first = ⟨divider.parent.min, ⟨divider.parent.max.x, y⟩⟩ ∧
      second = ⟨⟨divider.parent.min.x, y⟩, divider.parent.max⟩ ∧
      divider.rect = ⟨⟨divider.parent.min.x, y - 3⟩, ⟨divider.parent.max.x, y + 3⟩⟩

/-- A divider of a layout, its split and the parts of the layout it separates. -/
structure Separates (tree : SplitNode) (placed : Layout) (divider : DividerHit) (ratio : Rat)
    (first second : SplitNode) (firstArea secondArea : Area)
    (before firstLeaves secondLeaves after : List LeafLayout) : Prop where
  reached : tree.subtree divider.path = some (split divider.axis ratio first second)
  leaves : placed.leaves = before ++ firstLeaves ++ secondLeaves ++ after
  firstIds : firstLeaves.map LeafLayout.id = first.leaves
  secondIds : secondLeaves.map LeafLayout.id = second.leaves
  firstTiles : Tiles (firstLeaves.map LeafLayout.rect) firstArea
  secondTiles : Tiles (secondLeaves.map LeafLayout.rect) secondArea
  parentTiles : Tiles [firstArea, secondArea] divider.parent
  straddles : Straddles divider firstArea secondArea

/-- Two layouts that differ in one part of their leaves and of their dividers. -/
structure ChangesInside (placed next : Layout) (area : Area)
    (before old new after : List LeafLayout)
    (dividersBefore oldDividers newDividers dividersAfter : List DividerHit) : Prop where
  leaves : placed.leaves = before ++ old ++ after
  nextLeaves : next.leaves = before ++ new ++ after
  ids : old.map LeafLayout.id = new.map LeafLayout.id
  oldTiles : Tiles (old.map LeafLayout.rect) area
  newTiles : Tiles (new.map LeafLayout.rect) area
  dividers : placed.dividers = dividersBefore ++ oldDividers ++ dividersAfter
  nextDividers : next.dividers = dividersBefore ++ newDividers ++ dividersAfter
  paths : oldDividers.map DividerHit.path = newDividers.map DividerHit.path
  oldParents : ∀ divider ∈ oldDividers, divider.parent.Within area
  newParents : ∀ divider ∈ newDividers, divider.parent.Within area

theorem straddles_divide (axis : Axis) (ratio : Rat) (area : Area) (path : List Nat) :
    Straddles (ownDivider axis ratio area path) (divide axis (clampRatio ratio) area).first
      (divide axis (clampRatio ratio) area).second := by
  cases axis with
  | horizontal => exact ⟨_, rfl, rfl, rfl⟩
  | vertical => exact ⟨_, rfl, rfl, rfl⟩

theorem separates_of_mem {tree : SplitNode} {rect : Area} (proper : rect.Proper)
    {divider : DividerHit} (member : divider ∈ (tree.layout rect).dividers) :
    ∃ ratio first second firstArea secondArea before firstLeaves secondLeaves after,
      Separates tree (tree.layout rect) divider ratio first second firstArea secondArea before
        firstLeaves secondLeaves after := by
  rw [layout_eq] at member ⊢
  obtain ⟨ratio, first, second, before, after, dividersBefore, dividersAfter, reached,
    canonical, own, occupies⟩ := divider_occupies proper member
  have halves := halves_divide divider.axis ratio occupies.proper
  have placed := occupies.leaves (split divider.axis ratio first second)
  rw [put_subtree reached] at placed
  refine ⟨ratio, first, second, _, _, before, _, _, after, reached, ?_,
    first.leafLayouts_ids _, second.leafLayouts_ids _,
    first.leafLayouts_tile halves.properFirst, second.leafLayouts_tile halves.properSecond,
    (tiles_singleton halves.properFirst).append (tiles_singleton halves.properSecond) halves,
    ?_⟩
  · simp [placed, leafLayouts]
  · have straddles := straddles_divide divider.axis ratio divider.parent divider.path
    rw [← own] at straddles
    exact straddles

theorem paths_congr (tree : SplitNode) (area other : Area) (path : List Nat) :
    (tree.dividerHits area path).map DividerHit.path =
      (tree.dividerHits other path).map DividerHit.path := by
  induction tree generalizing area other path with
  | leaf id => rfl
  | split axis ratio first second one two =>
      simp only [dividerHits, List.map_cons, List.map_append]
      rw [one _ (divide axis (clampRatio ratio) other).first,
        two _ (divide axis (clampRatio ratio) other).second]

theorem paths_of_split (axis : Axis) (first second : SplitNode) (ratio other : Rat)
    (area : Area) (path : List Nat) :
    ((split axis ratio first second).dividerHits area path).map DividerHit.path =
      ((split axis other first second).dividerHits area path).map DividerHit.path := by
  simp only [dividerHits, List.map_cons, List.map_append]
  rw [paths_congr first _ (divide axis (clampRatio other) area).first,
    paths_congr second _ (divide axis (clampRatio other) area).second]

theorem setRatio_changesInside {tree : SplitNode} {rect : Area} (proper : rect.Proper)
    {divider : DividerHit} (member : divider ∈ (tree.layout rect).dividers) (ratio : Rat) :
    ∃ before old new after dividersBefore oldDividers newDividers dividersAfter,
      ChangesInside (tree.layout rect) ((tree.setRatio divider.path ratio).layout rect)
        divider.parent before old new after dividersBefore oldDividers newDividers
        dividersAfter := by
  rw [layout_eq] at member
  obtain ⟨current, first, second, before, after, dividersBefore, dividersAfter, reached,
    canonical, own, occupies⟩ := divider_occupies proper member
  let old := split divider.axis current first second
  let new := split divider.axis (clampRatio ratio) first second
  have placed := occupies.leaves old
  have placedDividers := occupies.dividers old
  rw [put_subtree reached] at placed placedDividers
  rw [setRatio_eq_put reached, layout_eq, layout_eq]
  refine ⟨before, old.leafLayouts divider.parent, new.leafLayouts divider.parent, after,
    dividersBefore, old.dividerHits divider.parent ([] ++ divider.path),
    new.dividerHits divider.parent ([] ++ divider.path), dividersAfter, ?_⟩
  exact {
    leaves := placed
    nextLeaves := occupies.leaves new
    ids := by rw [leafLayouts_ids, leafLayouts_ids]; rfl
    oldTiles := old.leafLayouts_tile occupies.proper
    newTiles := new.leafLayouts_tile occupies.proper
    dividers := placedDividers
    nextDividers := occupies.dividers new
    paths := paths_of_split ..
    oldParents := old.dividerHits_parents occupies.proper _
    newParents := new.dividerHits_parents occupies.proper _ }

theorem label_setRatio {tree : SplitNode} {rect : Area} (proper : rect.Proper)
    {divider : DividerHit} (member : divider ∈ (tree.layout rect).dividers) (ratio : Rat)
    {path : List Nat} (canonical : Canonical path) :
    ((tree.setRatio divider.path ratio).subtree path).map label =
      if path = divider.path then some (.split divider.axis (clampRatio ratio))
      else (tree.subtree path).map label := by
  rw [layout_eq] at member
  obtain ⟨current, first, second, -, -, -, -, reached, own, -, -⟩ :=
    divider_occupies proper member
  rw [setRatio_eq_put reached]
  exact label_put _ own canonical reached

/-- The layout of a panel: its leaves tile it in their order, and each split has one
divider, along its cut, through which its ratio is set and nothing else. -/
theorem layout_tiles (tree : SplitNode) {rect : Area} (proper : rect.Proper) :
    Tiles ((tree.layout rect).leaves.map LeafLayout.rect) rect ∧
      (tree.layout rect).leaves.map LeafLayout.id = tree.leaves ∧
      ((tree.layout rect).dividers.map DividerHit.path).Nodup ∧
      (∀ path, path ∈ (tree.layout rect).dividers.map DividerHit.path ↔
        Canonical path ∧ IsSplit (tree.subtree path)) ∧
      ∀ divider ∈ (tree.layout rect).dividers,
        (∃ ratio first second firstArea secondArea before firstLeaves secondLeaves after,
          Separates tree (tree.layout rect) divider ratio first second firstArea secondArea
            before firstLeaves secondLeaves after) ∧
        ∀ ratio,
          (∀ path, Canonical path →
            ((tree.setRatio divider.path ratio).subtree path).map label =
              if path = divider.path then some (.split divider.axis (clampRatio ratio))
              else (tree.subtree path).map label) ∧
          ∃ before old new after dividersBefore oldDividers newDividers dividersAfter,
            ChangesInside (tree.layout rect) ((tree.setRatio divider.path ratio).layout rect)
              divider.parent before old new after dividersBefore oldDividers newDividers
              dividersAfter := by
  refine ⟨?_, ?_, ?_, ?_, ?_⟩
  · rw [layout_eq]
    exact tree.leafLayouts_tile proper
  · rw [layout_eq]
    exact tree.leafLayouts_ids rect
  · rw [layout_eq]
    exact paths_nodup tree rect []
  · intro path
    rw [layout_eq]
    refine mem_paths.trans ⟨?_, fun ⟨canonical, reached⟩ => ⟨path, rfl, canonical, reached⟩⟩
    rintro ⟨found, rfl, canonical, reached⟩
    exact ⟨canonical, reached⟩
  · intro divider member
    refine ⟨separates_of_mem proper member, fun ratio => ⟨?_, ?_⟩⟩
    · exact fun path canonical => label_setRatio proper member ratio canonical
    · exact setRatio_changesInside proper member ratio

/-- A panel of two columns. -/
theorem layout_tiles_columns :
    (⟨⟨0, 0⟩, ⟨100, 50⟩⟩ : Area).Proper ∧
      (((split .horizontal (1 / 2) (leaf (Uuid.newV4 1)) (leaf (Uuid.newV4 2))).layout
          ⟨⟨0, 0⟩, ⟨100, 50⟩⟩).dividers.map DividerHit.path).Nodup :=
  ⟨by constructor <;> norm_num, (layout_tiles _ (by constructor <;> norm_num)).2.2.1⟩

end SplitNode

end TerminalCanvas.SplitLayout
