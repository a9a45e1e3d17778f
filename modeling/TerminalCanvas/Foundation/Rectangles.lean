import Mathlib.Data.List.Pairwise
import Mathlib.Data.Set.Lattice
import Mathlib.Order.CompletePartialOrder

/-! # Tilings by rectangles

Rectangles with sides along the axes, over any linear order of coordinates. A
tiling covers a rectangle with rectangles whose interiors do not meet; two halves
of a rectangle that are tiled make a tiling of the whole. -/

namespace TerminalCanvas.Rectangles

structure Point (α : Type) where
  x : α
  y : α
deriving DecidableEq, Repr

structure Rect (α : Type) where
  min : Point α
  max : Point α
deriving DecidableEq, Repr

variable {α : Type} [LinearOrder α]

namespace Rect

/-- Both sides have a length that is not negative. -/
def Proper (rect : Rect α) : Prop :=
  rect.min.x ≤ rect.max.x ∧ rect.min.y ≤ rect.max.y

/-- The points of a rectangle, its border among them. -/
def points (rect : Rect α) : Set (Point α) :=
  {point | (rect.min.x ≤ point.x ∧ point.x ≤ rect.max.x) ∧
    (rect.min.y ≤ point.y ∧ point.y ≤ rect.max.y)}

def interior (rect : Rect α) : Set (Point α) :=
  {point | (rect.min.x < point.x ∧ point.x < rect.max.x) ∧
    (rect.min.y < point.y ∧ point.y < rect.max.y)}

def Within (inner outer : Rect α) : Prop :=
  (outer.min.x ≤ inner.min.x ∧ inner.max.x ≤ outer.max.x) ∧
    (outer.min.y ≤ inner.min.y ∧ inner.max.y ≤ outer.max.y)

@[refl] theorem Within.refl (rect : Rect α) : rect.Within rect :=
  ⟨⟨le_refl _, le_refl _⟩, ⟨le_refl _, le_refl _⟩⟩

theorem Within.trans {inner middle outer : Rect α} (first : inner.Within middle)
    (second : middle.Within outer) : inner.Within outer :=
  ⟨⟨le_trans second.1.1 first.1.1, le_trans first.1.2 second.1.2⟩,
    ⟨le_trans second.2.1 first.2.1, le_trans first.2.2 second.2.2⟩⟩

theorem Within.interior_subset {inner outer : Rect α} (within : inner.Within outer) :
    inner.interior ⊆ outer.interior := fun _ inside =>
  ⟨⟨lt_of_le_of_lt within.1.1 inside.1.1, lt_of_lt_of_le inside.1.2 within.1.2⟩,
    ⟨lt_of_le_of_lt within.2.1 inside.2.1, lt_of_lt_of_le inside.2.2 within.2.2⟩⟩

end Rect

/-- Rectangles that cover another exactly and do not overlap. -/
structure Tiles (rects : List (Rect α)) (whole : Rect α) : Prop where
  proper : ∀ rect ∈ rects, rect.Proper
  within : ∀ rect ∈ rects, rect.Within whole
  disjoint : rects.Pairwise fun first second => Disjoint first.interior second.interior
  covers : ∀ point, point ∈ whole.points ↔ ∃ rect ∈ rects, point ∈ rect.points

theorem tiles_singleton {rect : Rect α} (proper : rect.Proper) : Tiles [rect] rect where
  proper other member := by rwa [List.mem_singleton.mp member]
  within other member := by rw [List.mem_singleton.mp member]
  disjoint := List.pairwise_singleton _ _
  covers point := by simp

/-- Two rectangles that make up a third. -/
structure Halves (first second whole : Rect α) : Prop where
  properFirst : first.Proper
  properSecond : second.Proper
  withinFirst : first.Within whole
  withinSecond : second.Within whole
  disjoint : Disjoint first.interior second.interior
  covers : ∀ point, point ∈ whole.points ↔ point ∈ first.points ∨ point ∈ second.points

theorem halves_horizontal {whole : Rect α} (proper : whole.Proper) {x : α}
    (left : whole.min.x ≤ x) (right : x ≤ whole.max.x) :
    Halves ⟨whole.min, ⟨x, whole.max.y⟩⟩ ⟨⟨x, whole.min.y⟩, whole.max⟩ whole where
  properFirst := ⟨left, proper.2⟩
  properSecond := ⟨right, proper.2⟩
  withinFirst := ⟨⟨le_refl _, right⟩, ⟨le_refl _, le_refl _⟩⟩
  withinSecond := ⟨⟨left, le_refl _⟩, ⟨le_refl _, le_refl _⟩⟩
  disjoint := by
    rw [Set.disjoint_left]
    intro point first second
    exact lt_asymm first.1.2 second.1.1
  covers point := by
    constructor
    · intro inside
      rcases le_total point.x x with before | behind
      · exact .inl ⟨⟨inside.1.1, before⟩, inside.2⟩
      · exact .inr ⟨⟨behind, inside.1.2⟩, inside.2⟩
    · rintro (inside | inside)
      · exact ⟨⟨inside.1.1, le_trans inside.1.2 right⟩, inside.2⟩
      · exact ⟨⟨le_trans left inside.1.1, inside.1.2⟩, inside.2⟩

theorem halves_vertical {whole : Rect α} (proper : whole.Proper) {y : α}
    (top : whole.min.y ≤ y) (bottom : y ≤ whole.max.y) :
    Halves ⟨whole.min, ⟨whole.max.x, y⟩⟩ ⟨⟨whole.min.x, y⟩, whole.max⟩ whole where
  properFirst := ⟨proper.1, top⟩
  properSecond := ⟨proper.1, bottom⟩
  withinFirst := ⟨⟨le_refl _, le_refl _⟩, ⟨le_refl _, bottom⟩⟩
  withinSecond := ⟨⟨le_refl _, le_refl _⟩, ⟨top, le_refl _⟩⟩
  disjoint := by
    rw [Set.disjoint_left]
    intro point first second
    exact lt_asymm first.2.2 second.2.1
  covers point := by
    constructor
    · intro inside
      rcases le_total point.y y with above | below
      · exact .inl ⟨inside.1, ⟨inside.2.1, above⟩⟩
      · exact .inr ⟨inside.1, ⟨below, inside.2.2⟩⟩
    · rintro (inside | inside)
      · exact ⟨inside.1, ⟨inside.2.1, le_trans inside.2.2 bottom⟩⟩
      · exact ⟨inside.1, ⟨le_trans top inside.2.1, inside.2.2⟩⟩

theorem Tiles.append {firstRects secondRects : List (Rect α)} {first second whole : Rect α}
    (tilesFirst : Tiles firstRects first) (tilesSecond : Tiles secondRects second)
    (halves : Halves first second whole) : Tiles (firstRects ++ secondRects) whole where
  proper rect member := by
    rcases List.mem_append.mp member with member | member
    · exact tilesFirst.proper rect member
    · exact tilesSecond.proper rect member
  within rect member := by
    rcases List.mem_append.mp member with member | member
    · exact (tilesFirst.within rect member).trans halves.withinFirst
    · exact (tilesSecond.within rect member).trans halves.withinSecond
  disjoint := by
    refine List.pairwise_append.mpr ⟨tilesFirst.disjoint, tilesSecond.disjoint, ?_⟩
    intro one inFirst other inSecond
    exact halves.disjoint.mono (tilesFirst.within one inFirst).interior_subset
      (tilesSecond.within other inSecond).interior_subset
  covers point := by
    rw [halves.covers, tilesFirst.covers, tilesSecond.covers]
    constructor
    · rintro (⟨rect, member, inside⟩ | ⟨rect, member, inside⟩)
      · exact ⟨rect, List.mem_append_left _ member, inside⟩
      · exact ⟨rect, List.mem_append_right _ member, inside⟩
    · rintro ⟨rect, member, inside⟩
      rcases List.mem_append.mp member with member | member
      · exact .inl ⟨rect, member, inside⟩
      · exact .inr ⟨rect, member, inside⟩

end TerminalCanvas.Rectangles
