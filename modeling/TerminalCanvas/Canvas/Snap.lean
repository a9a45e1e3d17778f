import Mathlib.Algebra.Order.Ring.Rat
import Mathlib.Algebra.Order.Group.Abs
import Mathlib.Data.List.MinMax
import TerminalCanvas.Foundation.Rectangles

/-! # Snapping of panels

While a panel is moved or resized, its edges snap to the edges and centres of the
other panels. Coordinates are exact rationals. -/

namespace TerminalCanvas.Canvas

open Rectangles

structure SnapGuide where
  /-- A vertical guide aligns along `x`, a horizontal one along `y`. -/
  vertical : Bool
  position : ℚ
  start : ℚ
  finish : ℚ
deriving DecidableEq, Repr

structure Vec2 where
  x : ℚ
  y : ℚ
deriving DecidableEq, Repr

structure SnapResult where
  delta : Vec2
  guides : List SnapGuide
deriving DecidableEq, Repr

/-- The axis that guides of an orientation are about. -/
def Vec2.along (vec : Vec2) (vertical : Bool) : ℚ := if vertical then vec.x else vec.y

def Vec2.setAlong (vec : Vec2) (vertical : Bool) (value : ℚ) : Vec2 :=
  if vertical then { vec with x := value } else { vec with y := value }

def SnapResult.guidesAlong (result : SnapResult) (vertical : Bool) : List SnapGuide :=
  result.guides.filter (·.vertical = vertical)

/-! ## Candidates -/

/-- Left, centre and right, or top, centre and bottom. -/
def edges (vertical : Bool) (rect : Rect ℚ) : List ℚ :=
  if vertical then
    [rect.min.x, (rect.min.x + rect.max.x) / 2, rect.max.x]
  else
    [rect.min.y, (rect.min.y + rect.max.y) / 2, rect.max.y]

/-- The guide at an edge of another panel, as long as both panels. -/
def snapGuide (vertical : Bool) (moving other : Rect ℚ) (position : ℚ) : SnapGuide :=
  if vertical then
    ⟨true, position, min moving.min.y other.min.y, max moving.max.y other.max.y⟩
  else
    ⟨false, position, min moving.min.x other.min.x, max moving.max.x other.max.x⟩

/-- The distances from the own edges to the edges of another panel, with their guides. -/
def candidates (vertical : Bool) (moving : Rect ℚ) (own : List ℚ) (other : Rect ℚ) :
    List (ℚ × SnapGuide) :=
  own.flatMap fun mine => (edges vertical other).map fun theirs =>
    (theirs - mine, snapGuide vertical moving other theirs)

/-! ## Dragging -/

/-- One round of the loops of `snap_drag`. -/
def keepNearest (threshold : ℚ) (best : Option (ℚ × SnapGuide)) (candidate : ℚ × SnapGuide) :
    Option (ℚ × SnapGuide) :=
  if |candidate.1| < threshold ∧ best.all (|candidate.1| < |·.1|) then
    some candidate
  else
    best

def dragAxis (vertical : Bool) (moving : Rect ℚ) (threshold : ℚ)
    (best : Option (ℚ × SnapGuide)) (other : Rect ℚ) : Option (ℚ × SnapGuide) :=
  (candidates vertical moving (edges vertical moving) other).foldl (keepNearest threshold) best

def snapDrag (moving : Rect ℚ) (otherPanels : List (Rect ℚ)) (threshold : ℚ) : SnapResult :=
  let (bestDx, bestDy) := otherPanels.foldl
    (fun (bestDx, bestDy) other =>
      (dragAxis true moving threshold bestDx other, dragAxis false moving threshold bestDy other))
    (none, none)
  { delta := ⟨bestDx.elim 0 Prod.fst, bestDy.elim 0 Prod.fst⟩
    guides := (bestDx.map Prod.snd).toList ++ (bestDy.map Prod.snd).toList }

/-! ## Resizing -/

/-- One round of the loops of `snap_resize`. A displacement of zero stands for none. -/
def SnapResult.align (threshold : ℚ) (vertical : Bool) (result : SnapResult)
    (candidate : ℚ × SnapGuide) : SnapResult :=
  if |candidate.1| < threshold ∧
      (result.delta.along vertical = 0 ∨ |candidate.1| < |result.delta.along vertical|) then
    { delta := result.delta.setAlong vertical candidate.1
      guides := result.guides.filter (·.vertical ≠ vertical) ++ [candidate.2] }
  else
    result

def resizeAxis (vertical : Bool) (moving : Rect ℚ) (threshold mine : ℚ) (result : SnapResult)
    (other : Rect ℚ) : SnapResult :=
  (candidates vertical moving [mine] other).foldl (SnapResult.align threshold vertical) result

def resizedEdge (moving : Rect ℚ) (resizeLeft resizeBottom vertical : Bool) : ℚ :=
  if vertical then
    if resizeLeft then moving.min.x else moving.max.x
  else
    if resizeBottom then moving.max.y else moving.min.y

def snapResize (moving : Rect ℚ) (otherPanels : List (Rect ℚ)) (threshold : ℚ)
    (resizeLeft resizeBottom : Bool) : SnapResult :=
  let myX := resizedEdge moving resizeLeft resizeBottom true
  let myY := resizedEdge moving resizeLeft resizeBottom false
  otherPanels.foldl
    (fun result other =>
      resizeAxis false moving threshold myY (resizeAxis true moving threshold myX result other)
        other)
    ⟨⟨0, 0⟩, []⟩

/-! ## What snapping is for -/

/-- Along an axis a displacement takes an own edge to the nearest edge within the
threshold, and shows one guide there. Without such an edge nothing happens. -/
structure Snaps (vertical : Bool) (moving : Rect ℚ) (own : List ℚ)
    (otherPanels : List (Rect ℚ)) (threshold : ℚ) (result : SnapResult) : Prop where
  nearest : ∀ other ∈ otherPanels, ∀ mine ∈ own, ∀ theirs ∈ edges vertical other,
    |theirs - mine| < threshold → |result.delta.along vertical| ≤ |theirs - mine|
  aligned : (∃ other ∈ otherPanels, ∃ mine ∈ own, ∃ theirs ∈ edges vertical other,
      |theirs - mine| < threshold) →
    ∃ other ∈ otherPanels, ∃ mine ∈ own, ∃ theirs ∈ edges vertical other,
      |theirs - mine| < threshold ∧ result.delta.along vertical = theirs - mine ∧
      result.guidesAlong vertical = [snapGuide vertical moving other theirs]
  nothing : (∀ other ∈ otherPanels, ∀ mine ∈ own, ∀ theirs ∈ edges vertical other,
      threshold ≤ |theirs - mine|) →
    result.delta.along vertical = 0 ∧ result.guidesAlong vertical = []

/-- The candidates within the threshold. -/
def near (threshold : ℚ) (found : List (ℚ × SnapGuide)) : List (ℚ × SnapGuide) :=
  found.filter fun candidate => |candidate.1| < threshold

/-- What is shown along an axis comes from a nearest candidate. -/
structure Settles (found : List (ℚ × SnapGuide)) (shown : ℚ × List SnapGuide) : Prop where
  nearest : ∀ candidate ∈ found, |shown.1| ≤ |candidate.1|
  chosen : found ≠ [] → ∃ candidate ∈ found, shown = (candidate.1, [candidate.2])
  nothing : found = [] → shown = (0, [])

def SnapResult.shown (result : SnapResult) (vertical : Bool) : ℚ × List SnapGuide :=
  (result.delta.along vertical, result.guidesAlong vertical)

section Axis

variable {vertical : Bool} {moving : Rect ℚ} {own : List ℚ} {otherPanels : List (Rect ℚ)}
  {threshold : ℚ} {result : SnapResult} {candidate : ℚ × SnapGuide}

/-- The candidates of all panels within the threshold. -/
abbrev nearAll (vertical : Bool) (moving : Rect ℚ) (own : List ℚ) (otherPanels : List (Rect ℚ))
    (threshold : ℚ) : List (ℚ × SnapGuide) :=
  near threshold (otherPanels.flatMap (candidates vertical moving own))

theorem mem_nearAll : candidate ∈ nearAll vertical moving own otherPanels threshold ↔
    ∃ other ∈ otherPanels, ∃ mine ∈ own, ∃ theirs ∈ edges vertical other,
      |theirs - mine| < threshold ∧
      candidate = (theirs - mine, snapGuide vertical moving other theirs) := by
  simp only [nearAll, near, candidates, List.mem_filter, List.mem_flatMap, List.mem_map,
    decide_eq_true_eq]
  constructor
  · rintro ⟨⟨other, known, mine, isOwn, theirs, isEdge, rfl⟩, close⟩
    exact ⟨other, known, mine, isOwn, theirs, isEdge, close, rfl⟩
  · rintro ⟨other, known, mine, isOwn, theirs, isEdge, close, rfl⟩
    exact ⟨⟨other, known, mine, isOwn, theirs, isEdge, rfl⟩, close⟩

theorem snaps_iff : Snaps vertical moving own otherPanels threshold result ↔
    Settles (nearAll vertical moving own otherPanels threshold) (result.shown vertical) := by
  have present : nearAll vertical moving own otherPanels threshold ≠ [] ↔
      ∃ other ∈ otherPanels, ∃ mine ∈ own, ∃ theirs ∈ edges vertical other,
        |theirs - mine| < threshold := by
    rw [ne_eq, List.eq_nil_iff_forall_not_mem, not_forall_not]
    constructor
    · rintro ⟨candidate, member⟩
      obtain ⟨other, known, mine, isOwn, theirs, isEdge, close, -⟩ := mem_nearAll.mp member
      exact ⟨other, known, mine, isOwn, theirs, isEdge, close⟩
    · rintro ⟨other, known, mine, isOwn, theirs, isEdge, close⟩
      exact ⟨_, mem_nearAll.mpr ⟨other, known, mine, isOwn, theirs, isEdge, close, rfl⟩⟩
  constructor
  · intro snaps
    refine ⟨?_, ?_, ?_⟩
    · intro candidate member
      obtain ⟨other, known, mine, isOwn, theirs, isEdge, close, rfl⟩ := mem_nearAll.mp member
      exact snaps.nearest other known mine isOwn theirs isEdge close
    · intro some
      obtain ⟨other, known, mine, isOwn, theirs, isEdge, close, delta, guides⟩ :=
        snaps.aligned (present.mp some)
      exact ⟨_, mem_nearAll.mpr ⟨other, known, mine, isOwn, theirs, isEdge, close, rfl⟩,
        Prod.ext delta guides⟩
    · intro none
      have far : ∀ other ∈ otherPanels, ∀ mine ∈ own, ∀ theirs ∈ edges vertical other,
          threshold ≤ |theirs - mine| := by
        intro other known mine isOwn theirs isEdge
        by_contra close
        exact present.mpr ⟨other, known, mine, isOwn, theirs, isEdge, not_le.mp close⟩ none
      obtain ⟨delta, guides⟩ := snaps.nothing far
      exact Prod.ext delta guides
  · intro settles
    refine ⟨?_, ?_, ?_⟩
    · intro other known mine isOwn theirs isEdge close
      have member : (theirs - mine, snapGuide vertical moving other theirs) ∈
          nearAll vertical moving own otherPanels threshold :=
        mem_nearAll.mpr ⟨other, known, mine, isOwn, theirs, isEdge, close, rfl⟩
      have nearest := settles.nearest _ member
      simpa only [SnapResult.shown] using nearest
    · intro some
      obtain ⟨candidate, member, shown⟩ := settles.chosen (present.mpr some)
      obtain ⟨other, known, mine, isOwn, theirs, isEdge, close, rfl⟩ := mem_nearAll.mp member
      exact ⟨other, known, mine, isOwn, theirs, isEdge, close, (Prod.ext_iff.mp shown).1,
        (Prod.ext_iff.mp shown).2⟩
    · intro far
      have none : nearAll vertical moving own otherPanels threshold = [] := by
        by_contra some
        obtain ⟨other, known, mine, isOwn, theirs, isEdge, close⟩ := present.mp some
        exact absurd close (not_lt.mpr (far other known mine isOwn theirs isEdge))
      exact Prod.ext_iff.mp (settles.nothing none)

theorem Settles.abs_eq {found others : List (ℚ × SnapGuide)} {shown next : ℚ × List SnapGuide}
    (settles : Settles found shown) (later : Settles others next)
    (same : found.Perm others) : |shown.1| = |next.1| := by
  by_cases none : found = []
  · rw [settles.nothing none, later.nothing (List.nil_perm.mp (none ▸ same))]
  · obtain ⟨one, isFound, rfl⟩ := settles.chosen none
    obtain ⟨two, isOther, rfl⟩ := later.chosen fun empty =>
      none (List.perm_nil.mp (empty ▸ same))
    exact le_antisymm (settles.nearest two (same.mem_iff.mpr isOther))
      (later.nearest one (same.mem_iff.mp isFound))

theorem nearAll_perm {order : List (Rect ℚ)} (perm : order.Perm otherPanels) :
    (nearAll vertical moving own order threshold).Perm
      (nearAll vertical moving own otherPanels threshold) :=
  (perm.flatMap_right _).filter _

/-! ## Dragging picks the nearest candidate -/

theorem foldl_keepNearest (threshold : ℚ) (found : List (ℚ × SnapGuide)) :
    found.foldl (keepNearest threshold) none = (near threshold found).argmin (|·.1|) := by
  rw [near, List.argmin, List.foldl_filter]
  congr 1
  funext best candidate
  cases best with
  | none => simp [keepNearest, List.argAux]
  | some current =>
      by_cases close : |candidate.1| < threshold
      · simp [keepNearest, List.argAux, close]
      · simp [keepNearest, close]

theorem foldl_pair {α β γ : Type} (first : α → γ → α) (second : β → γ → β) (items : List γ)
    (start : α) (other : β) :
    items.foldl (fun (one, two) item => (first one item, second two item)) (start, other) =
      (items.foldl first start, items.foldl second other) := by
  induction items generalizing start other with
  | nil => rfl
  | cons item items induction => exact induction ..

/-- What the best candidate along an axis is shown as. -/
def shownBest (best : Option (ℚ × SnapGuide)) : ℚ × List SnapGuide :=
  (best.elim 0 Prod.fst, (best.map Prod.snd).toList)

theorem vertical_of_mem {other : Rect ℚ}
    (member : candidate ∈ candidates vertical moving own other) :
    candidate.2.vertical = vertical := by
  simp only [candidates, List.mem_flatMap, List.mem_map] at member
  obtain ⟨mine, -, theirs, -, rfl⟩ := member
  cases vertical <;> rfl

theorem foldl_dragAxis (vertical : Bool) (moving : Rect ℚ) (otherPanels : List (Rect ℚ))
    (threshold : ℚ) :
    otherPanels.foldl (dragAxis vertical moving threshold) none =
      (nearAll vertical moving (edges vertical moving) otherPanels threshold).argmin (|·.1|) := by
  rw [← foldl_keepNearest, List.foldl_flatMap]
  rfl

theorem settles_argmin (found : List (ℚ × SnapGuide)) :
    Settles found (shownBest (found.argmin (|·.1|))) := by
  cases least : found.argmin (|·.1|) with
  | none =>
      rw [List.argmin_eq_none] at least
      subst least
      exact ⟨List.forall_mem_nil _, fun some => absurd rfl some, fun _ => rfl⟩
  | some best =>
      have member := List.argmin_mem least
      refine ⟨?_, ?_, ?_⟩
      · intro candidate other
        have nearest := List.le_of_mem_argmin other least
        simpa only [shownBest, Option.elim_some] using nearest
      · exact fun _ => ⟨best, member, rfl⟩
      · intro none
        rw [none] at member
        cases member

theorem shown_snapDrag (vertical : Bool) (moving : Rect ℚ) (otherPanels : List (Rect ℚ))
    (threshold : ℚ) :
    (snapDrag moving otherPanels threshold).shown vertical =
      shownBest ((nearAll vertical moving (edges vertical moving) otherPanels threshold).argmin
        (|·.1|)) := by
  have across : ∀ orientation best,
      (nearAll orientation moving (edges orientation moving) otherPanels threshold).argmin
        (|·.1|) = some best → best.2.vertical = orientation := by
    intro orientation best least
    obtain ⟨other, -, mine, -, theirs, -, -, rfl⟩ := mem_nearAll.mp (List.argmin_mem least)
    cases orientation <;> rfl
  have one := across true
  have two := across false
  rw [snapDrag, foldl_pair (dragAxis true moving threshold), foldl_dragAxis, foldl_dragAxis]
  simp only [SnapResult.shown, SnapResult.guidesAlong, shownBest, List.filter_append]
  cases first : List.argmin (|·.1|)
      (nearAll true moving (edges true moving) otherPanels threshold) <;>
    cases second : List.argmin (|·.1|)
      (nearAll false moving (edges false moving) otherPanels threshold) <;>
    cases vertical <;> simp_all [Vec2.along]

theorem snaps_snapDrag (vertical : Bool) (moving : Rect ℚ) (otherPanels : List (Rect ℚ))
    (threshold : ℚ) :
    Snaps vertical moving (edges vertical moving) otherPanels threshold
      (snapDrag moving otherPanels threshold) := by
  rw [snaps_iff, shown_snapDrag]
  exact settles_argmin _

/-! ## Resizing forgets an aligned edge -/

/-- One round of a resize along its own axis. -/
def realign (threshold : ℚ) (shown : ℚ × List SnapGuide) (candidate : ℚ × SnapGuide) :
    ℚ × List SnapGuide :=
  if |candidate.1| < threshold ∧ (shown.1 = 0 ∨ |candidate.1| < |shown.1|) then
    (candidate.1, [candidate.2])
  else
    shown

theorem shown_align (result : SnapResult) (own : candidate.2.vertical = vertical) :
    (result.align threshold vertical candidate).shown vertical =
      realign threshold (result.shown vertical) candidate := by
  unfold SnapResult.align realign SnapResult.shown
  by_cases moves : |candidate.1| < threshold ∧
      (result.delta.along vertical = 0 ∨ |candidate.1| < |result.delta.along vertical|)
  · rw [if_pos moves, if_pos moves]
    cases vertical <;> simp [SnapResult.guidesAlong, Vec2.along, Vec2.setAlong, own]
  · rw [if_neg moves, if_neg moves]

theorem shown_align_across (result : SnapResult) {across : Bool} (different : across ≠ vertical)
    (own : candidate.2.vertical = vertical) :
    (result.align threshold vertical candidate).shown across = result.shown across := by
  unfold SnapResult.align
  split
  · cases vertical <;> cases across <;>
      simp_all [SnapResult.shown, SnapResult.guidesAlong, Vec2.along, Vec2.setAlong]
  · rfl

theorem shown_resizeAxis (mine : ℚ) (result : SnapResult) (other : Rect ℚ) :
    (resizeAxis vertical moving threshold mine result other).shown vertical =
      (candidates vertical moving [mine] other).foldl (realign threshold)
        (result.shown vertical) := by
  have own := fun candidate =>
    @vertical_of_mem vertical moving [mine] candidate other
  unfold resizeAxis
  generalize candidates vertical moving [mine] other = found at own ⊢
  induction found generalizing result with
  | nil => rfl
  | cons candidate found induction =>
      rw [List.foldl_cons, List.foldl_cons, ← shown_align result (own candidate List.mem_cons_self)]
      exact induction _ fun later member => own later (List.mem_cons_of_mem _ member)

theorem shown_resizeAxis_across (mine : ℚ) (result : SnapResult) (other : Rect ℚ) {across : Bool}
    (different : across ≠ vertical) :
    (resizeAxis vertical moving threshold mine result other).shown across =
      result.shown across := by
  have own := fun candidate =>
    @vertical_of_mem vertical moving [mine] candidate other
  unfold resizeAxis
  generalize candidates vertical moving [mine] other = found at own ⊢
  induction found generalizing result with
  | nil => rfl
  | cons candidate found induction =>
      rw [List.foldl_cons,
        induction _ fun later member => own later (List.mem_cons_of_mem _ member)]
      exact shown_align_across result different (own candidate List.mem_cons_self)

theorem shown_snapResize (vertical : Bool) (moving : Rect ℚ) (otherPanels : List (Rect ℚ))
    (threshold : ℚ) (resizeLeft resizeBottom : Bool) :
    (snapResize moving otherPanels threshold resizeLeft resizeBottom).shown vertical =
      (nearAll vertical moving [resizedEdge moving resizeLeft resizeBottom vertical] otherPanels
        threshold).foldl (realign threshold) (0, []) := by
  have filtered : ∀ found start, (near threshold found).foldl (realign threshold) start =
      found.foldl (realign threshold) start := by
    intro found start
    rw [near, List.foldl_filter]
    congr 1
    funext shown candidate
    by_cases close : |candidate.1| < threshold <;> simp [realign, close]
  have start : (0, []) = (⟨⟨0, 0⟩, []⟩ : SnapResult).shown vertical := by
    cases vertical <;> rfl
  rw [filtered, List.foldl_flatMap, start, snapResize]
  generalize (⟨⟨0, 0⟩, []⟩ : SnapResult) = result
  induction otherPanels generalizing result with
  | nil => rfl
  | cons other otherPanels induction =>
      rw [List.foldl_cons, List.foldl_cons, induction]
      congr 1
      cases vertical with
      | true =>
          rw [shown_resizeAxis_across _ _ _ (by decide), shown_resizeAxis]
      | false =>
          rw [shown_resizeAxis, shown_resizeAxis_across _ _ _ (by decide)]

end Axis

/-! ## One axis of a resize -/

section Realign

variable {threshold : ℚ} {found : List (ℚ × SnapGuide)}

theorem realign_near {candidate : ℚ × SnapGuide} (shown : ℚ × List SnapGuide)
    (close : |candidate.1| < threshold) :
    (realign threshold shown candidate = (candidate.1, [candidate.2]) ∧
        (shown.1 = 0 ∨ |candidate.1| < |shown.1|)) ∨
      (realign threshold shown candidate = shown ∧ shown.1 ≠ 0 ∧
        |shown.1| ≤ |candidate.1|) := by
  unfold realign
  split
  · next moves => exact .inl ⟨rfl, moves.2⟩
  · next kept =>
      simp only [close, true_and, not_or, not_lt] at kept
      exact .inr ⟨rfl, kept⟩

theorem realign_chosen (close : ∀ candidate ∈ found, |candidate.1| < threshold)
    (some : found ≠ []) : ∃ candidate ∈ found,
      found.foldl (realign threshold) (0, []) = (candidate.1, [candidate.2]) := by
  induction found using List.reverseRecOn with
  | nil => exact absurd rfl some
  | append_singleton found last induction =>
      have earlier := fun candidate member => close candidate (List.mem_append_left _ member)
      rw [List.foldl_append, List.foldl_cons, List.foldl_nil]
      rcases realign_near (found.foldl (realign threshold) (0, [])) (close last (by simp)) with
        ⟨taken, -⟩ | ⟨kept, displaced, -⟩
      · exact ⟨last, by simp, taken⟩
      · by_cases none : found = []
        · rw [none] at displaced
          exact absurd rfl displaced
        · obtain ⟨candidate, member, shown⟩ := induction earlier none
          exact ⟨candidate, List.mem_append_left _ member, kept.trans shown⟩

theorem realign_nearest (close : ∀ candidate ∈ found, |candidate.1| < threshold)
    (displaced : ∀ candidate ∈ found, candidate.1 ≠ 0) :
    ∀ candidate ∈ found,
      |(found.foldl (realign threshold) (0, [])).1| ≤ |candidate.1| := by
  induction found using List.reverseRecOn with
  | nil => exact List.forall_mem_nil _
  | append_singleton found last induction =>
      have earlier := fun candidate member => close candidate (List.mem_append_left _ member)
      have nearest := induction earlier
        fun candidate member => displaced candidate (List.mem_append_left _ member)
      rw [List.foldl_append, List.foldl_cons, List.foldl_nil, List.forall_mem_append]
      rcases realign_near (found.foldl (realign threshold) (0, [])) (close last (by simp)) with
        ⟨taken, improves⟩ | ⟨kept, -, bound⟩
      · rw [taken]
        refine ⟨?_, by simp⟩
        intro candidate member
        have some := List.ne_nil_of_mem member
        rcases improves with zero | nearer
        · -- a displacement was there already, so it was not zero
          obtain ⟨shown, isFound, equal⟩ := realign_chosen earlier some
          rw [equal] at zero
          exact absurd zero (displaced shown (List.mem_append_left _ isFound))
        · exact le_trans (le_of_lt nearer) (nearest candidate member)
      · rw [kept]
        exact ⟨nearest, by simpa using bound⟩

theorem realign_last (earlier : List (ℚ × SnapGuide)) (last : ℚ × SnapGuide)
    (close : |last.1| < threshold) :
    ((earlier ++ [last]).foldl (realign threshold) (0, [])).1 = 0 ↔ last.1 = 0 := by
  rw [List.foldl_append, List.foldl_cons, List.foldl_nil]
  rcases realign_near (earlier.foldl (realign threshold) (0, [])) close with
    ⟨taken, -⟩ | ⟨kept, displaced, bound⟩
  · rw [taken]
  · rw [kept]
    constructor
    · exact fun zero => absurd zero displaced
    · intro zero
      rw [zero, abs_zero] at bound
      exact abs_eq_zero.mp (le_antisymm bound (abs_nonneg _))

theorem settles_realign_iff (close : ∀ candidate ∈ found, |candidate.1| < threshold) :
    Settles found (found.foldl (realign threshold) (0, [])) ↔
      ((∃ candidate ∈ found, candidate.1 = 0) →
        ∃ last, found.getLast? = some last ∧ last.1 = 0) := by
  constructor
  · rintro settles ⟨aligned, member, zero⟩
    have still : (found.foldl (realign threshold) (0, [])).1 = 0 := by
      have bound := settles.nearest aligned member
      rw [zero, abs_zero] at bound
      exact abs_eq_zero.mp (le_antisymm bound (abs_nonneg _))
    have isLast := List.getLast?_eq_some_getLast (List.ne_nil_of_mem member)
    refine ⟨_, isLast, ?_⟩
    obtain ⟨earlier, split⟩ := List.getLast?_eq_some_iff.mp isLast
    rw [split] at still
    exact (realign_last earlier _ (close _ (List.getLast_mem _))).mp still
  · intro ends
    refine ⟨?_, realign_chosen close, fun none => by rw [none]; rfl⟩
    by_cases aligned : ∃ candidate ∈ found, candidate.1 = 0
    · obtain ⟨last, isLast, zero⟩ := ends aligned
      obtain ⟨earlier, rfl⟩ := List.getLast?_eq_some_iff.mp isLast
      have still := (realign_last earlier last (close last (by simp))).mpr zero
      intro candidate _
      rw [still, abs_zero]
      exact abs_nonneg _
    · apply realign_nearest close
      intro candidate member zero
      exact aligned ⟨candidate, member, zero⟩

end Realign

/-! ## The order of the panels -/

/-- The edges of another panel within the threshold of the resized edge. -/
def nearEdges (vertical : Bool) (threshold mine : ℚ) (other : Rect ℚ) : List ℚ :=
  (edges vertical other).filter fun theirs => |theirs - mine| < threshold

/-- If the resized edge is aligned already, so is the last edge within the threshold. -/
def LastAligned (vertical : Bool) (threshold mine : ℚ) (otherPanels : List (Rect ℚ)) : Prop :=
  (∃ other ∈ otherPanels, mine ∈ nearEdges vertical threshold mine other) →
    (otherPanels.flatMap (nearEdges vertical threshold mine)).getLast? = some mine

/-- If the resized edge is aligned already, so is the last edge within the threshold of
every panel that has one. -/
def EachAligned (vertical : Bool) (threshold mine : ℚ) (otherPanels : List (Rect ℚ)) : Prop :=
  (∃ other ∈ otherPanels, mine ∈ nearEdges vertical threshold mine other) →
    ∀ other ∈ otherPanels, ∀ theirs,
      (nearEdges vertical threshold mine other).getLast? = some theirs → theirs = mine

section Orders

variable {vertical : Bool} {moving : Rect ℚ} {otherPanels : List (Rect ℚ)} {threshold mine : ℚ}

theorem nearAll_edges (moving : Rect ℚ) : (nearAll vertical moving [mine] otherPanels threshold).map
    (fun candidate => candidate.1 + mine) =
      otherPanels.flatMap (nearEdges vertical threshold mine) := by
  induction otherPanels with
  | nil => rfl
  | cons other otherPanels induction =>
      rw [List.flatMap_cons, ← induction]
      simp [near, candidates, nearEdges, List.filter_map, Function.comp_def]

theorem lastAligned_iff : LastAligned vertical threshold mine otherPanels ↔
    ((∃ candidate ∈ nearAll vertical moving [mine] otherPanels threshold, candidate.1 = 0) →
      ∃ last, (nearAll vertical moving [mine] otherPanels threshold).getLast? = some last ∧
        last.1 = 0) := by
  have edge : ∀ candidate : ℚ × SnapGuide, candidate.1 + mine = mine ↔ candidate.1 = 0 := by
    intro candidate
    rw [add_eq_right]
  have present : (∃ other ∈ otherPanels, mine ∈ nearEdges vertical threshold mine other) ↔
      ∃ candidate ∈ nearAll vertical moving [mine] otherPanels threshold, candidate.1 = 0 := by
    rw [← List.mem_flatMap, ← nearAll_edges moving, List.mem_map]
    simp only [edge]
  unfold LastAligned
  rw [present, ← nearAll_edges moving, List.getLast?_map]
  simp only [Option.map_eq_some_iff, edge]

theorem eachAligned_iff : EachAligned vertical threshold mine otherPanels ↔
    ∀ order, order.Perm otherPanels → LastAligned vertical threshold mine order := by
  constructor
  · intro each order perm ⟨other, known, aligned⟩
    have ends := each ⟨other, perm.mem_iff.mp known, aligned⟩
    cases last : (order.flatMap (nearEdges vertical threshold mine)).getLast? with
    | none =>
        rw [List.getLast?_eq_none_iff, List.flatMap_eq_nil_iff] at last
        rw [last other known] at aligned
        cases aligned
    | some theirs =>
        rw [List.getLast?_flatMap] at last
        obtain ⟨panel, member, isLast⟩ := List.exists_of_findSome?_eq_some last
        rw [ends panel (perm.mem_iff.mp (List.mem_reverse.mp member)) theirs isLast]
  · intro orders ⟨aligned, present, isAligned⟩ other known theirs isLast
    have perm : (otherPanels.erase other ++ [other]).Perm otherPanels :=
      (List.perm_append_singleton ..).trans (List.perm_cons_erase known).symm
    have last := orders _ perm ⟨aligned, perm.mem_iff.mpr present, isAligned⟩
    rw [List.flatMap_append, List.flatMap_singleton, List.getLast?_append, isLast] at last
    exact Option.some.inj last

theorem snaps_snapResize_iff (moving : Rect ℚ) (otherPanels : List (Rect ℚ)) (threshold : ℚ)
    (resizeLeft resizeBottom vertical : Bool) :
    Snaps vertical moving [resizedEdge moving resizeLeft resizeBottom vertical] otherPanels
        threshold (snapResize moving otherPanels threshold resizeLeft resizeBottom) ↔
      LastAligned vertical threshold (resizedEdge moving resizeLeft resizeBottom vertical)
        otherPanels := by
  rw [snaps_iff, shown_snapResize, lastAligned_iff, settles_realign_iff]
  intro candidate member
  exact of_decide_eq_true (List.mem_filter.mp member).2

end Orders

/-- Dragging picks the nearest candidate in every order of the panels. Resizing does so
exactly while an aligned edge is not followed by another one within the threshold. -/
theorem snap_nearest (moving : Rect ℚ) (otherPanels : List (Rect ℚ)) (threshold : ℚ)
    (vertical : Bool) :
    Snaps vertical moving (edges vertical moving) otherPanels threshold
      (snapDrag moving otherPanels threshold) ∧
    (∀ order, order.Perm otherPanels →
      |(snapDrag moving order threshold).delta.along vertical| =
        |(snapDrag moving otherPanels threshold).delta.along vertical|) ∧
    ∀ resizeLeft resizeBottom mine, mine = resizedEdge moving resizeLeft resizeBottom vertical →
      (Snaps vertical moving [mine] otherPanels threshold
          (snapResize moving otherPanels threshold resizeLeft resizeBottom) ↔
        LastAligned vertical threshold mine otherPanels) ∧
      ((∀ order, order.Perm otherPanels →
          Snaps vertical moving [mine] order threshold
            (snapResize moving order threshold resizeLeft resizeBottom) ∧
          |(snapResize moving order threshold resizeLeft resizeBottom).delta.along vertical| =
            |(snapResize moving otherPanels threshold resizeLeft resizeBottom).delta.along
              vertical|) ↔
        EachAligned vertical threshold mine otherPanels) := by
  refine ⟨snaps_snapDrag .., ?_, ?_⟩
  · intro order perm
    have settles := snaps_iff.mp (snaps_snapDrag vertical moving order threshold)
    have later := snaps_iff.mp (snaps_snapDrag vertical moving otherPanels threshold)
    have equal := settles.abs_eq later (nearAll_perm perm)
    simpa only [SnapResult.shown] using equal
  · rintro resizeLeft resizeBottom mine rfl
    refine ⟨snaps_snapResize_iff .., ?_⟩
    rw [eachAligned_iff]
    constructor
    · intro orders order perm
      exact (snaps_snapResize_iff ..).mp (orders order perm).1
    · intro aligned order perm
      have snaps := (snaps_snapResize_iff moving order threshold resizeLeft resizeBottom
        vertical).mpr (aligned order perm)
      have same := (snaps_snapResize_iff moving otherPanels threshold resizeLeft resizeBottom
        vertical).mpr (aligned otherPanels (List.Perm.refl _))
      refine ⟨snaps, ?_⟩
      have equal := (snaps_iff.mp snaps).abs_eq (snaps_iff.mp same) (nearAll_perm perm)
      simpa only [SnapResult.shown] using equal

/-- An aligned panel behind one that is three to the right. -/
theorem snap_nearest_two_panels :
    Snaps true ⟨⟨0, 0⟩, ⟨100, 100⟩⟩ [100]
      [⟨⟨103, 500⟩, ⟨303, 700⟩⟩, ⟨⟨100, 500⟩, ⟨300, 700⟩⟩] 8
      (snapResize ⟨⟨0, 0⟩, ⟨100, 100⟩⟩
        [⟨⟨103, 500⟩, ⟨303, 700⟩⟩, ⟨⟨100, 500⟩, ⟨300, 700⟩⟩] 8 false true) := by
  refine (((snap_nearest _ _ _ true).2.2 false true 100 rfl).1).mpr ?_
  intro _
  decide +kernel

/-- The aligned panel comes first, and the edge is moved away from it. -/
theorem aligned_edge_moved :
    ¬ Snaps true ⟨⟨0, 0⟩, ⟨100, 100⟩⟩ [100]
      [⟨⟨100, 500⟩, ⟨300, 700⟩⟩, ⟨⟨103, 500⟩, ⟨303, 700⟩⟩] 8
      (snapResize ⟨⟨0, 0⟩, ⟨100, 100⟩⟩
        [⟨⟨100, 500⟩, ⟨300, 700⟩⟩, ⟨⟨103, 500⟩, ⟨303, 700⟩⟩] 8 false true) := by
  intro snaps
  have nearest := snaps.nearest ⟨⟨100, 500⟩, ⟨300, 700⟩⟩ (by decide) 100 (by decide) 100
    (by decide +kernel) (by decide +kernel)
  revert nearest
  decide +kernel

end TerminalCanvas.Canvas
