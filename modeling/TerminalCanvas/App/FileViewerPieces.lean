import TerminalCanvas.App.FileViewerDocument

/-! # The pieces of a text

A line is cut into pieces: whole graphemes, or the chunks of one grapheme that is too
long. The prepared document is where these pieces lie in the text. -/

namespace TerminalCanvas.App.FileViewer

open Json (byteLength byteLength_append)
open Ranges (Range spans total)
open Slices (slice sliceFrom Boundary)

/-! ## Boundaries -/

@[simp] theorem isCharBoundary_iff {text : List Char} {offset : Nat} :
    isCharBoundary text offset = true ↔ Boundary text offset :=
  Slices.isSome_sliceFrom

theorem floorCharBoundary_spec (text : List Char) (offset : Nat) :
    Boundary text (floorCharBoundary text offset) ∧ floorCharBoundary text offset ≤ offset ∧
      ∀ other, Boundary text other → other ≤ offset → other ≤ floorCharBoundary text offset := by
  induction offset with
  | zero => exact ⟨.zero _, Nat.le_refl _, fun other _ bound => bound⟩
  | succ offset induction =>
      obtain ⟨boundary, bound, last⟩ := induction
      rw [floorCharBoundary]
      split
      · next here => exact ⟨isCharBoundary_iff.mp here, Nat.le_refl _, fun other _ bound => bound⟩
      · next between =>
          refine ⟨boundary, Nat.le_succ_of_le bound, ?_⟩
          intro other isBoundary small
          rcases Nat.lt_or_ge offset other with beyond | small
          · have same : other = offset + 1 := by omega
            rw [same] at isBoundary
            exact absurd (isCharBoundary_iff.mpr isBoundary) between
          · exact last other isBoundary small

theorem byteLength_single_le (character : Char) : byteLength [character] ≤ 4 := by
  rw [byteLength, List.flatMap_singleton, String.length_utf8EncodeChar]
  exact character.utf8Size_le_four

/-! ## Pieces -/

/-- The text of a fragment, and whether it begins or ends inside a grapheme. -/
structure Piece where
  text : List Char
  startsInside : Bool
  endsInside : Bool
deriving DecidableEq, Repr

def Piece.size (piece : Piece) : Nat := byteLength piece.text

def textOf (pieces : List Piece) : List Char := pieces.flatMap Piece.text

@[simp] theorem textOf_nil : textOf [] = [] := rfl

@[simp] theorem textOf_cons (piece : Piece) (pieces : List Piece) :
    textOf (piece :: pieces) = piece.text ++ textOf pieces := rfl

@[simp] theorem textOf_append (first second : List Piece) :
    textOf (first ++ second) = textOf first ++ textOf second :=
  List.flatMap_append

theorem total_size (pieces : List Piece) :
    total Piece.size pieces = byteLength (textOf pieces) := by
  induction pieces with
  | nil => rfl
  | cons piece pieces induction => rw [Ranges.total_cons, induction, textOf_cons, byteLength_append,
      Piece.size]

def cutPieces : Bool → List (List Char) → List Piece
  | _, [] => []
  | inside, text :: texts => ⟨text, inside, !texts.isEmpty⟩ :: cutPieces true texts

@[simp] theorem textOf_cutPieces (inside : Bool) (texts : List (List Char)) :
    textOf (cutPieces inside texts) = texts.flatten := by
  induction texts generalizing inside with
  | nil => rfl
  | cons text texts induction => rw [cutPieces, textOf_cons, induction, List.flatten_cons]

/-- The pieces that graphemes are cut into. -/
inductive Packs : List (List Char) → List Piece → Prop
  | nil : Packs [] []
  | whole {graphemes later : List (List Char)} {pieces : List Piece} (some : graphemes ≠ [])
      (fits : byteLength graphemes.flatten ≤ fragmentByteCap) (rest : Packs later pieces) :
      Packs (graphemes ++ later) (⟨graphemes.flatten, false, false⟩ :: pieces)
  | split {texts later : List (List Char)} {pieces : List Piece}
      (long : fragmentByteCap < byteLength texts.flatten)
      (fit : ∀ text ∈ texts, text ≠ [] ∧ byteLength text ≤ fragmentByteCap)
      (rest : Packs later pieces) : Packs (texts.flatten :: later) (cutPieces false texts ++ pieces)

theorem Packs.append {first second : List (List Char)} {pieces more : List Piece}
    (one : Packs first pieces) (two : Packs second more) :
    Packs (first ++ second) (pieces ++ more) := by
  induction one with
  | nil => exact two
  | whole some fits rest induction =>
      rw [List.append_assoc, List.cons_append]
      exact .whole some fits induction
  | split long fit rest induction =>
      rw [List.cons_append, List.append_assoc]
      exact .split long fit induction

theorem Packs.textOf_eq {graphemes : List (List Char)} {pieces : List Piece}
    (packs : Packs graphemes pieces) : textOf pieces = graphemes.flatten := by
  induction packs with
  | nil => rfl
  | whole some fits rest induction => rw [textOf_cons, induction, List.flatten_append]
  | split long fit rest induction =>
      rw [textOf_append, textOf_cutPieces, induction, List.flatten_cons]

theorem total_byteLength (graphemes : List (List Char)) :
    total byteLength graphemes = byteLength graphemes.flatten := by
  induction graphemes with
  | nil => rfl
  | cons grapheme graphemes induction =>
      rw [Ranges.total_cons, induction, List.flatten_cons, byteLength_append]

theorem cutPieces_flags {texts : List (List Char)} {inside : Bool} {front back : List Piece}
    {piece : Piece} (fit : ∀ text ∈ texts, text ≠ [] ∧ byteLength text ≤ fragmentByteCap)
    (split : cutPieces inside texts = front ++ piece :: back) :
    piece.size ≤ fragmentByteCap ∧ 0 < piece.size ∧
      (piece.startsInside = true ↔ inside = true ∨ 0 < byteLength (textOf front)) ∧
      (piece.endsInside = true ↔ 0 < byteLength (textOf back)) := by
  induction texts generalizing inside front with
  | nil => simp [cutPieces] at split
  | cons text texts induction =>
      obtain ⟨⟨some, small⟩, rest⟩ := List.forall_mem_cons.mp fit
      have positive := Nat.pos_of_ne_zero (mt Slices.byteLength_eq_zero.mp some)
      rw [cutPieces] at split
      cases front with
      | nil =>
          obtain ⟨rfl, rfl⟩ := List.cons.inj split
          refine ⟨small, positive, by simp [byteLength], ?_⟩
          rw [textOf_cutPieces]
          cases texts with
          | nil => simp [byteLength]
          | cons next texts =>
              have some' := (List.forall_mem_cons.mp rest).1.1
              have positive' := Nat.pos_of_ne_zero (mt Slices.byteLength_eq_zero.mp some')
              rw [List.flatten_cons, byteLength_append]
              simp
              omega
      | cons first front =>
          rw [List.cons_append] at split
          obtain ⟨rfl, tails⟩ := List.cons.inj split
          obtain ⟨fits, wide, starts, ends⟩ := induction rest tails
          refine ⟨fits, wide, ?_, ends⟩
          rw [starts, textOf_cons, byteLength_append]
          simp
          omega

/-- A piece fits, divides only graphemes that do not, and its flags say so. -/
structure Piece.Honest (graphemes : List Range) (start : Nat) (piece : Piece) : Prop where
  fits : piece.size ≤ fragmentByteCap
  starts : piece.startsInside = true ↔ Ranges.Divides graphemes start
  ends : piece.endsInside = true ↔ Ranges.Divides graphemes (start + piece.size)
  long : ∀ grapheme ∈ graphemes,
    grapheme.Inside start ∨ grapheme.Inside (start + piece.size) → fragmentByteCap < grapheme.length

theorem Piece.Honest.append {front graphemes back : List Range} {start : Nat} {piece : Piece}
    (honest : piece.Honest graphemes start) (before : ∀ range ∈ front, range.stop ≤ start)
    (behind : ∀ range ∈ back, start + piece.size ≤ range.start) :
    piece.Honest (front ++ (graphemes ++ back)) start := by
  have front_out : ∀ range ∈ front, ¬ range.Inside start ∧ ¬ range.Inside (start + piece.size) := by
    intro range member
    have bound := before range member
    simp only [Range.Inside]
    omega
  have back_out : ∀ range ∈ back, ¬ range.Inside start ∧ ¬ range.Inside (start + piece.size) := by
    intro range member
    have bound := behind range member
    simp only [Range.Inside]
    omega
  have divides : ∀ place, (∀ range ∈ front, ¬ range.Inside place) →
      (∀ range ∈ back, ¬ range.Inside place) →
      (Ranges.Divides (front ++ (graphemes ++ back)) place ↔ Ranges.Divides graphemes place) := by
    intro place outside outside'
    rw [Ranges.divides_append, Ranges.divides_append]
    constructor
    · rintro (⟨range, member, inside⟩ | inside | ⟨range, member, inside⟩)
      · exact absurd inside (outside range member)
      · exact inside
      · exact absurd inside (outside' range member)
    · exact fun inside => .inr (.inl inside)
  refine ⟨honest.fits, ?_, ?_, ?_⟩
  · rw [divides _ (fun range member => (front_out range member).1)
      (fun range member => (back_out range member).1)]
    exact honest.starts
  · rw [divides _ (fun range member => (front_out range member).2)
      (fun range member => (back_out range member).2)]
    exact honest.ends
  · intro grapheme member inside
    rcases List.mem_append.mp member with member | member
    · have outside := front_out grapheme member
      tauto
    rcases List.mem_append.mp member with member | member
    · exact honest.long grapheme member inside
    · have outside := back_out grapheme member
      tauto

theorem Packs.honest {graphemes : List (List Char)} {pieces front back : List Piece}
    {piece : Piece} (packs : Packs graphemes pieces) (offset : Nat)
    (split : pieces = front ++ piece :: back) :
    piece.Honest (spans byteLength offset graphemes) (offset + byteLength (textOf front)) := by
  induction packs generalizing offset front with
  | nil => simp at split
  | @whole graphemes later pieces some fits rest induction =>
      rw [Ranges.spans_append, total_byteLength]
      cases front with
      | nil =>
          obtain ⟨rfl, rfl⟩ := List.cons.inj split
          rw [textOf_nil, Slices.byteLength_nil, Nat.add_zero]
          have honest : Piece.Honest (spans byteLength offset graphemes) offset
              ⟨graphemes.flatten, false, false⟩ := by
            have start := @Ranges.not_divides_spans _ byteLength offset offset graphemes
              (.inl (Nat.le_refl _))
            have stop := @Ranges.not_divides_spans _ byteLength offset
              (offset + byteLength graphemes.flatten) graphemes
              (.inr (by rw [total_byteLength]))
            refine ⟨fits, by simp [start], by simp [stop, Piece.size], ?_⟩
            rintro grapheme member (inside | inside)
            · exact absurd ⟨grapheme, member, inside⟩ start
            · exact absurd ⟨grapheme, member, inside⟩ stop
          exact @Piece.Honest.append [] _ _ _ _ honest (List.forall_mem_nil _)
            fun range member => (Ranges.bounds_of_mem_spans _ member).1
      | cons first front =>
          rw [List.cons_append] at split
          obtain ⟨rfl, tails⟩ := List.cons.inj split
          have honest := induction (offset + byteLength graphemes.flatten) tails
          rw [textOf_cons, byteLength_append, ← Nat.add_assoc]
          have whole := @Piece.Honest.append (spans byteLength offset graphemes) _ [] _ _ honest
            (fun range member => ?_) (List.forall_mem_nil _)
          · rw [List.append_nil] at whole
            exact whole
          · have bounds := Ranges.bounds_of_mem_spans _ member
            rw [total_byteLength] at bounds
            omega
  | @split texts later pieces long fit rest induction =>
      have behind : ∀ front', front = cutPieces false texts ++ front' →
          pieces = front' ++ piece :: back →
          piece.Honest (spans byteLength offset (texts.flatten :: later))
            (offset + byteLength (textOf front)) := by
        rintro front' rfl tails
        have honest := induction (offset + byteLength texts.flatten) tails
        rw [textOf_append, textOf_cutPieces, byteLength_append, ← Nat.add_assoc]
        have whole := @Piece.Honest.append [⟨offset, offset + byteLength texts.flatten⟩] _ [] _ _
          honest (List.forall_mem_singleton.mpr (Nat.le_add_right _ _)) (List.forall_mem_nil _)
        rw [List.append_nil] at whole
        exact whole
      rcases List.append_eq_append_iff.mp split with ⟨front', front_eq, tails⟩ | ⟨inner, cut, tails⟩
      · exact behind front' front_eq tails
      cases inner with
      | nil =>
          rw [List.append_nil] at cut
          exact behind [] (by rw [cut, List.append_nil]) tails.symm
      | cons first inner =>
          rw [List.cons_append] at tails
          obtain ⟨rfl, rfl⟩ := List.cons.inj tails
          obtain ⟨fits, wide, starts, ends⟩ := cutPieces_flags fit cut
          have whole := textOf_cutPieces false texts
          rw [cut, textOf_append, textOf_cons] at whole
          have size : byteLength texts.flatten =
              byteLength (textOf front) + (piece.size + byteLength (textOf inner)) := by
            rw [← whole, byteLength_append, byteLength_append, Piece.size]
          have only : ∀ place, Ranges.Divides [⟨offset, offset + byteLength texts.flatten⟩] place ↔
              offset < place ∧ place < offset + byteLength texts.flatten := by
            intro place
            simp [Ranges.Divides, Range.Inside]
          have honest : Piece.Honest [⟨offset, offset + byteLength texts.flatten⟩]
              (offset + byteLength (textOf front)) piece := by
            refine ⟨fits, ?_, ?_, ?_⟩
            · rw [only, starts]
              simp only [Bool.false_eq_true, false_or]
              omega
            · rw [only, ends]
              omega
            · rw [List.forall_mem_singleton, Range.length]
              dsimp only
              omega
          refine @Piece.Honest.append [] _ _ _ _ honest (List.forall_mem_nil _) ?_
          intro range member
          have bounds := Ranges.bounds_of_mem_spans _ member
          omega

/-- The fragments that pieces make from some offset on. -/
def placed (logicalLine : Nat) : Nat → List Piece → List VisualFragment
  | _, [] => []
  | offset, piece :: pieces =>
      ⟨logicalLine, ⟨offset, offset + piece.size⟩, piece.startsInside, piece.endsInside⟩ ::
        placed logicalLine (offset + piece.size) pieces

theorem placed_append (logicalLine offset : Nat) (first second : List Piece) :
    placed logicalLine offset (first ++ second) =
      placed logicalLine offset first ++
        placed logicalLine (offset + byteLength (textOf first)) second := by
  induction first generalizing offset with
  | nil => simp [placed, byteLength]
  | cons piece first induction =>
      simp only [List.cons_append, placed, induction, textOf_cons, byteLength_append, Piece.size,
        Nat.add_assoc]

theorem length_placed (logicalLine offset : Nat) (pieces : List Piece) :
    (placed logicalLine offset pieces).length = pieces.length := by
  induction pieces generalizing offset with
  | nil => rfl
  | cons piece pieces induction => rw [placed, List.length_cons, List.length_cons, induction]

/-! ## The loops -/

section Loops

variable {source front back : List Char} (logicalLine : Nat)

theorem chunkGrapheme_cuts {rest : List Char} (split : source = front ++ (rest ++ back))
    {start fuel : Nat} (enough : byteLength rest ≤ fuel) (begun : start ≤ byteLength front) :
    ∃ texts, chunkGrapheme source logicalLine start (byteLength (front ++ rest)) fuel
        (byteLength front) =
        some (placed logicalLine (byteLength front)
          (cutPieces (byteLength front ≠ start) texts)) ∧
      texts.flatten = rest ∧ ∀ text ∈ texts, text ≠ [] ∧ byteLength text ≤ fragmentByteCap := by
  induction fuel generalizing front rest with
  | zero =>
      have none : rest = [] := Slices.byteLength_eq_zero.mp (Nat.le_zero.mp enough)
      subst none
      refine ⟨[], ?_, rfl, List.forall_mem_nil _⟩
      rw [chunkGrapheme, List.append_nil, if_neg (Nat.lt_irrefl _)]
      rfl
  | succ fuel induction =>
      cases rest with
      | nil =>
          refine ⟨[], ?_, rfl, List.forall_mem_nil _⟩
          rw [chunkGrapheme, List.append_nil, if_neg (Nat.lt_irrefl _)]
          rfl
      | cons character rest =>
          have positive := Slices.byteLength_single_pos character
          have small := byteLength_single_le character
          have size := Slices.byteLength_cons_eq character rest
          have whole := byteLength_append front (character :: rest)
          have more : byteLength front < byteLength (front ++ character :: rest) := by omega
          obtain ⟨boundary, bound, last⟩ := floorCharBoundary_spec source
            (min (byteLength front + fragmentByteCap) (byteLength (front ++ character :: rest)))
          -- the first character fits, so the loop moves on
          have first : Boundary source (byteLength front + byteLength [character]) := by
            refine ⟨front ++ [character], rest ++ back, by simp [split], ?_⟩
            rw [byteLength_append]
          have moves := last _ first (by simp only [fragmentByteCap]; omega)
          generalize chunkEnd_eq : floorCharBoundary source _ = chunkEnd at boundary bound moves
          rw [split] at boundary
          obtain ⟨text, rest', cut, end_eq⟩ := boundary.inside (by omega) (by omega)
          rw [byteLength_append] at end_eq
          have size' := byteLength_append text rest'
          rw [← cut] at size'
          have split' : source = front ++ text ++ (rest' ++ back) := by
            rw [split, cut, List.append_assoc, List.append_assoc]
          have whole' : front ++ character :: rest = front ++ text ++ rest' := by
            rw [cut, List.append_assoc]
          obtain ⟨texts, cuts, flatten, fit⟩ :=
            @induction (front ++ text) rest' split' (by omega)
              (by rw [byteLength_append]; omega)
          have text_some : text ≠ [] := by
            rintro rfl
            rw [Slices.byteLength_eq_zero.mpr rfl] at end_eq
            omega
          have later : chunkEnd ≠ byteLength (front ++ character :: rest) ↔ texts ≠ [] := by
            rw [ne_eq, ne_eq, not_iff_not]
            constructor
            · intro same
              have nothing : rest' = [] := Slices.byteLength_eq_zero.mp (by omega)
              rw [nothing, List.flatten_eq_nil_iff] at flatten
              exact List.eq_nil_iff_forall_not_mem.mpr fun other member =>
                (fit other member).1 (flatten other member)
            · intro none
              rw [none, List.flatten_nil] at flatten
              rw [← flatten, Slices.byteLength_eq_zero.mpr rfl] at size'
              omega
          have moved : decide (byteLength (front ++ text) ≠ start) = true := by
            rw [decide_eq_true_eq, byteLength_append]
            omega
          have flag : decide (chunkEnd ≠ byteLength (front ++ character :: rest)) =
              !texts.isEmpty := by
            rw [decide_eq_decide.mpr later]
            cases texts <;> rfl
          refine ⟨text :: texts, ?_, ?_, List.forall_mem_cons.mpr ⟨⟨text_some, ?_⟩, fit⟩⟩
          · rw [moved] at cuts
            rw [chunkGrapheme, if_pos more]
            simp only [chunkEnd_eq, flag]
            rw [whole', end_eq, ← byteLength_append, cuts]
            simp only [Option.map_some, cutPieces, placed, Piece.size, byteLength_append]
          · rw [List.flatten_cons, flatten, cut]
          · omega

theorem fragmentGraphemes_packs {pending graphemes : List (List Char)}
    (split : source = front ++ ((pending ++ graphemes).flatten ++ back))
    (nonempty : ∀ part ∈ pending ++ graphemes, part ≠ [])
    (fits : byteLength pending.flatten ≤ fragmentByteCap) :
    ∃ closed remaining pieces, pending ++ graphemes = closed ++ remaining ∧
      Packs closed pieces ∧ byteLength remaining.flatten ≤ fragmentByteCap ∧
      fragmentGraphemes source logicalLine graphemes (byteLength (front ++ pending.flatten))
        (byteLength front) =
        some (placed logicalLine (byteLength front) pieces,
          byteLength (front ++ closed.flatten)) := by
  induction graphemes generalizing front pending with
  | nil =>
      rw [List.append_nil]
      exact ⟨[], pending, [], rfl, .nil, fits, by simp [fragmentGraphemes, placed]⟩
  | cons grapheme later induction =>
      have stop_eq : byteLength (front ++ pending.flatten) + byteLength grapheme =
          byteLength (front ++ (pending ++ [grapheme]).flatten) := by
        simp [byteLength_append, Nat.add_assoc]
      have pending_size := byteLength_append front pending.flatten
      have pushed : byteLength front < byteLength (front ++ pending.flatten) ↔ pending ≠ [] := by
        constructor
        · rintro more rfl
          simp at more
        · intro some
          obtain ⟨part, parts, rfl⟩ := List.exists_cons_of_ne_nil some
          have part_some := nonempty part List.mem_cons_self
          have positive := mt Slices.byteLength_eq_zero.mp part_some
          simp only [List.flatten_cons, byteLength_append] at pending_size ⊢
          omega
      rw [fragmentGraphemes]
      split
      · next long =>
          have opening : ∃ opening, Packs pending opening ∧
              (if byteLength front < byteLength (front ++ pending.flatten) then
                [⟨logicalLine, ⟨byteLength front, byteLength (front ++ pending.flatten)⟩, false,
                  false⟩] else []) = placed logicalLine (byteLength front) opening := by
            by_cases some : pending = []
            · rw [if_neg (by rw [pushed]; exact not_not.mpr some), some]
              exact ⟨[], .nil, rfl⟩
            · rw [if_pos (pushed.mpr some), pending_size]
              have packs := Packs.whole some fits .nil
              rw [List.append_nil] at packs
              exact ⟨_, packs, rfl⟩
          have whole_front : source =
              front ++ pending.flatten ++ (grapheme ++ (later.flatten ++ back)) := by
            rw [split]
            simp
          obtain ⟨texts, cuts, rfl, fit⟩ :=
            chunkGrapheme_cuts logicalLine whole_front (Nat.le_refl _) (Nat.le_refl _)
          obtain ⟨closed, remaining, pieces, whole, packs, small, result⟩ :=
            @induction (front ++ pending.flatten ++ texts.flatten) []
              (by rw [whole_front]; simp)
              (fun part member => nonempty part (List.mem_append_right _
                (List.mem_cons_of_mem _ member)))
              (Nat.zero_le _)
          rw [List.flatten_nil, List.append_nil] at result
          obtain ⟨opening, opens, opening_eq⟩ := opening
          refine ⟨pending ++ texts.flatten :: closed, remaining,
            opening ++ (cutPieces false texts ++ pieces), by simp [← whole],
            opens.append (.split long fit packs), small, ?_⟩
          have same : decide (byteLength (front ++ pending.flatten) ≠
              byteLength (front ++ pending.flatten)) = false := by simp
          rw [same] at cuts
          rw [← byteLength_append, cuts, result, opening_eq]
          simp [placed_append, opens.textOf_eq, byteLength_append, Nat.add_assoc]
      · next short =>
          split
          · next beyond =>
              have some : pending ≠ [] := by
                rintro rfl
                simp only [List.flatten_nil, List.append_nil] at beyond
                omega
              obtain ⟨closed, remaining, pieces, whole, packs, small, result⟩ :=
                @induction (front ++ pending.flatten) [grapheme] (by rw [split]; simp)
                  (fun part member => nonempty part (by simp at member ⊢; tauto))
                  (by simpa using short)
              refine ⟨pending ++ closed, remaining, ⟨pending.flatten, false, false⟩ :: pieces,
                by rw [List.append_assoc, ← whole]; rfl, .whole some fits packs, small, ?_⟩
              have stop_eq' : byteLength (front ++ pending.flatten) + byteLength grapheme =
                  byteLength (front ++ pending.flatten ++ [grapheme].flatten) := by
                simp [byteLength_append, Nat.add_assoc]
              rw [stop_eq', result]
              simp [placed, Piece.size, byteLength_append]
          · next under =>
              obtain ⟨closed, remaining, pieces, whole, packs, small, result⟩ :=
                @induction front (pending ++ [grapheme]) (by rw [split]; simp)
                  (fun part member => nonempty part (by simpa using member)) (by
                    rw [stop_eq, byteLength_append] at under
                    omega)
              refine ⟨closed, remaining, pieces, by rw [← whole]; simp, packs, small, ?_⟩
              rw [stop_eq]
              exact result

end Loops

end TerminalCanvas.App.FileViewer
