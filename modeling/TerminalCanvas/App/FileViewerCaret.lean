import TerminalCanvas.App.FileViewerPartition
import TerminalCanvas.App.FileViewerSelection

/-! # Where the caret moves

Positions are told by the line, the piece and the graphemes before them. The binary
searches find the line and the fragment of a position, so a move is known by the parts
around the caret. -/

namespace TerminalCanvas.App.FileViewer

open Json (byteLength byteLength_append)
open Ranges (Range partitionPoint spans)
open Slices (slice sliceFrom sliceTo Boundary)

def placedDocument (lines : List TextLine) (long : Bool) : SourceDocument :=
  ⟨linesText lines, placeLines 0 0 lines, placeFragments 0 0 lines, long⟩

section Places

variable {graphemes : Segmentation}

/-! ## Bounds -/

theorem TextLines.prefix_ended {before after : List TextLine} {line : TextLine}
    (lines : TextLines graphemes (before ++ line :: after)) :
    ∀ earlier ∈ before, Ends earlier.content earlier.ending := by
  intro earlier member
  obtain ⟨front, back, rfl⟩ := List.append_of_mem member
  rw [List.append_assoc, List.cons_append] at lines
  obtain ⟨-, -, ends | ⟨-, none⟩⟩ := lines.line_parts
  · exact ends
  · simp at none

theorem TextLines.all_cut {lines : List TextLine} (lines_ok : TextLines graphemes lines) :
    ∀ line ∈ lines, Cuts graphemes line.content line.pieces := by
  intro line member
  obtain ⟨before, after, rfl⟩ := List.append_of_mem member
  exact lines_ok.line_parts.2.1

theorem Ends.positive {content ending : List Char} (ends : Ends content ending) :
    0 < byteLength ending := by
  rcases ends with rfl | ⟨rfl, -⟩
  · decide
  · decide

theorem TextLines.ending_some {before after : List TextLine} {line : TextLine}
    (lines : TextLines graphemes (before ++ line :: after)) (some : after ≠ []) :
    0 < byteLength line.ending := by
  obtain ⟨-, -, ends | ⟨-, none⟩⟩ := lines.line_parts
  · exact ends.positive
  · exact absurd none some

theorem start_of_placeLines {firstFragment offset : Nat} {lines : List TextLine}
    {found : LogicalLine} (member : found ∈ placeLines firstFragment offset lines) :
    offset ≤ found.content.start ∧
      found.content.start ≤ offset + byteLength (linesText lines) := by
  obtain ⟨index, at_index⟩ := List.mem_iff_getElem?.mp member
  obtain ⟨before, line, after, rfl, rfl, rfl⟩ := exists_of_placeLines at_index
  rw [linesText_append, byteLength_append, lineAt]
  exact ⟨Nat.le_add_right _ _, by dsimp only; omega⟩

theorem range_of_placed {logicalLine offset : Nat} {pieces : List Piece}
    {found : VisualFragment} (member : found ∈ placed logicalLine offset pieces) :
    offset ≤ found.source.start ∧ found.source.start ≤ found.source.stop ∧
      found.source.stop ≤ offset + byteLength (textOf pieces) := by
  obtain ⟨front, piece, back, rfl, rfl⟩ := exists_of_placed member
  rw [textOf_append, textOf_cons, byteLength_append, byteLength_append, fragmentAt, Piece.size]
  dsimp only
  omega

theorem range_of_placeFragments {logicalLine offset : Nat} {lines : List TextLine}
    (cuts : ∀ line ∈ lines, Cuts graphemes line.content line.pieces)
    {found : VisualFragment} (member : found ∈ placeFragments logicalLine offset lines) :
    offset ≤ found.source.start ∧ found.source.start ≤ found.source.stop ∧
      ∃ line ∈ lines, found.source.stop + byteLength line.ending ≤
        offset + byteLength (linesText lines) := by
  obtain ⟨before, line, after, rfl, inside⟩ := exists_of_placeFragments member
  have bounds := range_of_placed inside
  have inside_line : line ∈ before ++ line :: after := by simp
  rw [(cuts line inside_line).textOf_eq] at bounds
  rw [linesText_append, linesText_cons]
  simp only [byteLength_append]
  exact ⟨by omega, bounds.2.1, line, inside_line, by omega⟩

/-! ## What the searches find -/

section Found

variable {before after : List TextLine} {line : TextLine} {long : Bool}

theorem getElem?_lines :
    (placedDocument (before ++ line :: after) long).lines[before.length]? =
      some (lineAt (pieceCount before) (byteLength (linesText before)) line) := by
  rw [placedDocument, placeLines_append, List.getElem?_append_right (by rw [length_placeLines]),
    length_placeLines, Nat.sub_self, Nat.zero_add, Nat.zero_add]
  rfl

theorem lineForOffset_at {offset : Nat} (from_le : byteLength (linesText before) ≤ offset)
    (inside : after ≠ [] → offset < byteLength (linesText before) + byteLength line.text) :
    lineForOffset (placedDocument (before ++ line :: after) long) offset = some before.length := by
  have passes : ∀ found ∈ placeLines 0 0 before ++
      [lineAt (pieceCount before) (byteLength (linesText before)) line],
      decide (found.content.start ≤ offset) = true := by
    intro found member
    rw [decide_eq_true_eq]
    rcases List.mem_append.mp member with member | member
    · have bounds := start_of_placeLines member
      omega
    · rw [List.mem_singleton.mp member, lineAt]
      exact from_le
  have fails : ∀ found ∈ placeLines (pieceCount before + line.pieces.length)
      (byteLength (linesText before) + byteLength line.text) after,
      decide (found.content.start ≤ offset) = false := by
    intro found member
    rw [decide_eq_false_iff_not]
    have some : after ≠ [] := by
      rintro rfl
      simp [placeLines] at member
    have bounds := start_of_placeLines member
    have bound := inside some
    omega
  have places : (placedDocument (before ++ line :: after) long).lines =
      placeLines 0 0 before ++
        [lineAt (pieceCount before) (byteLength (linesText before)) line] ++
        placeLines (pieceCount before + line.pieces.length)
          (byteLength (linesText before) + byteLength line.text) after := by
    rw [placedDocument, placeLines_append, Nat.zero_add, Nat.zero_add, List.append_assoc]
    rfl
  rw [lineForOffset, places, Ranges.partitionPoint_append passes fails, if_neg (by simp),
    List.length_append, length_placeLines, List.length_singleton, Nat.add_sub_cancel]

variable {front back : List Piece} {piece : Piece}

theorem getElem?_fragments (pieces : line.pieces = front ++ piece :: back) :
    (placedDocument (before ++ line :: after) long).fragments[pieceCount before + front.length]? =
      some (fragmentAt before.length
        (byteLength (linesText before) + byteLength (textOf front)) piece) := by
  have inside : front.length <
      (placed before.length (byteLength (linesText before)) line.pieces).length := by
    rw [length_placed, pieces, List.length_append, List.length_cons]
    omega
  rw [placedDocument, placeFragments_append,
    List.getElem?_append_right (by rw [length_placeFragments]; omega), length_placeFragments,
    Nat.add_sub_cancel_left, Nat.zero_add, Nat.zero_add, List.getElem?_append_left inside, pieces,
    getElem?_placed]

theorem fragmentForOffset_at (lines : TextLines graphemes (before ++ line :: after))
    (pieces : line.pieces = front ++ piece :: back) {offset : Nat}
    (above : byteLength (linesText before) + byteLength (textOf front) < offset ∨
      front = [] ∧ offset = byteLength (linesText before))
    (below : offset ≤ byteLength (linesText before) + byteLength (textOf front) + piece.size) :
    fragmentForOffset (placedDocument (before ++ line :: after) long) offset =
      some (pieceCount before + front.length) := by
  have text_eq := lines.line_parts.2.1.textOf_eq
  rw [pieces, textOf_append, textOf_cons] at text_eq
  have size := congrArg byteLength text_eq
  rw [byteLength_append, byteLength_append] at size
  have cut := lines.all_cut
  have passes : ∀ found ∈ placeFragments 0 0 before ++
      placed before.length (byteLength (linesText before)) front,
      decide (found.source.stop < offset) = true := by
    intro found member
    rw [decide_eq_true_eq]
    rcases List.mem_append.mp member with member | member
    · obtain ⟨-, -, earlier, inside, bound⟩ := range_of_placeFragments
        (fun earlier inside => cut earlier (List.mem_append_left _ inside)) member
      have positive := (lines.prefix_ended earlier inside).positive
      omega
    · have bounds := range_of_placed member
      rcases above with above | ⟨rfl, -⟩
      · omega
      · simp [placed] at member
  have fails : ∀ found ∈ fragmentAt before.length
        (byteLength (linesText before) + byteLength (textOf front)) piece ::
      (placed before.length
        (byteLength (linesText before) + byteLength (textOf front) + piece.size) back ++
        placeFragments (before.length + 1)
          (byteLength (linesText before) + byteLength line.text) after),
      decide (found.source.stop < offset) = false := by
    intro found member
    rw [decide_eq_false_iff_not, Nat.not_lt]
    rcases List.mem_cons.mp member with rfl | member
    · exact below
    rcases List.mem_append.mp member with member | member
    · have bounds := range_of_placed member
      omega
    · obtain ⟨start, ordered, -⟩ := range_of_placeFragments
        (fun later inside => cut later (by simp [inside])) member
      rw [TextLine.text, byteLength_append] at start
      rw [Piece.size] at below
      omega
  have places : (placedDocument (before ++ line :: after) long).fragments =
      placeFragments 0 0 before ++ placed before.length (byteLength (linesText before)) front ++
        fragmentAt before.length
            (byteLength (linesText before) + byteLength (textOf front)) piece ::
          (placed before.length
            (byteLength (linesText before) + byteLength (textOf front) + piece.size) back ++
            placeFragments (before.length + 1)
              (byteLength (linesText before) + byteLength line.text) after) := by
    rw [placedDocument, placeFragments_append, Nat.zero_add, Nat.zero_add, pieces, placed_append]
    simp [placed, fragmentAt]
  rw [fragmentForOffset, places, Ranges.partitionPoint_append passes fails, if_neg (by simp),
    List.length_append, length_placeFragments, length_placed]
  simp only [List.length_append, List.length_cons, length_placeFragments, length_placed]
  congr 1
  omega

/-! ## Moves inside a fragment -/

/-- The offset behind some lines and some text. -/
def place (before : List TextLine) (text : List Char) : Nat := byteLength (linesText before ++ text)

theorem place_eq (before : List TextLine) (text : List Char) :
    place before text = byteLength (linesText before) + byteLength text :=
  byteLength_append _ _

theorem fragmentText_at (lines : TextLines graphemes (before ++ line :: after))
    (pieces : line.pieces = front ++ piece :: back) :
    (placedDocument (before ++ line :: after) long).fragmentText
      (pieceCount before + front.length) = some piece.text := by
  have split := text_split before after lines.line_parts.2.1 pieces
  rw [SourceDocument.fragmentText, getElem?_fragments pieces, Option.bind_some,
    ← byteLength_append, fragmentAt_source, placedDocument, split, Slices.slice_append]

theorem line_size (lines : TextLines graphemes (before ++ line :: after))
    (pieces : line.pieces = front ++ piece :: back) :
    byteLength line.content =
      byteLength (textOf front) + (byteLength piece.text + byteLength (textOf back)) := by
  rw [← lines.line_parts.2.1.textOf_eq, pieces, textOf_append, textOf_cons, byteLength_append,
    byteLength_append]

theorem fragmentToScan_right (lines : TextLines graphemes (before ++ line :: after))
    (pieces : line.pieces = front ++ piece :: back) {pre rest : List Char}
    (text : piece.text = pre ++ rest) (rest_some : rest ≠ []) :
    fragmentToScan (placedDocument (before ++ line :: after) long)
      (lineAt (pieceCount before) (byteLength (linesText before)) line)
      (place before (textOf front ++ pre)) true = some (pieceCount before + front.length) := by
  have positive := Nat.pos_of_ne_zero (mt Slices.byteLength_eq_zero.mp rest_some)
  have size := congrArg byteLength text
  rw [byteLength_append] at size
  rw [place_eq, byteLength_append]
  by_cases here : pre ≠ [] ∨ front = []
  · have above : byteLength (linesText before) + byteLength (textOf front) <
          byteLength (linesText before) + (byteLength (textOf front) + byteLength pre) ∨
        front = [] ∧ byteLength (linesText before) +
          (byteLength (textOf front) + byteLength pre) = byteLength (linesText before) := by
      by_cases pre_some : pre = []
      · obtain rfl := here.resolve_left (not_not.mpr pre_some)
        subst pre_some
        exact .inr ⟨rfl, rfl⟩
      · have pre_size := Nat.pos_of_ne_zero (mt Slices.byteLength_eq_zero.mp pre_some)
        omega
    rw [fragmentToScan, fragmentForOffset_at lines pieces above (by rw [Piece.size]; omega)]
    simp only [Option.bind_eq_bind, Option.bind_some, getElem?_fragments pieces, fragmentAt,
      Piece.size, true_and, not_true_eq_false, false_and, if_false]
    rw [if_neg (by omega)]
  · rw [not_or, not_not] at here
    obtain ⟨rfl, front_some⟩ := here
    obtain ⟨earlier, previous, rfl⟩ := (List.eq_nil_or_concat' front).resolve_left front_some
    have pieces' : line.pieces = earlier ++ previous :: piece :: back := by rw [pieces]; simp
    have content_some : line.content ≠ [] := by
      intro none
      have whole := line_size lines pieces
      rw [none, Slices.byteLength_nil] at whole
      omega
    have previous_some := lines.line_parts.2.1.piece_some content_some previous (by simp [pieces'])
    have previous_size := Nat.pos_of_ne_zero (mt Slices.byteLength_eq_zero.mp previous_some)
    rw [textOf_append, textOf_cons, textOf_nil, List.append_nil, byteLength_append,
      Slices.byteLength_nil, Nat.add_zero]
    rw [fragmentToScan, fragmentForOffset_at lines pieces' (.inl (by omega))
      (by rw [Piece.size]; omega)]
    simp only [Option.bind_eq_bind, Option.bind_some, getElem?_fragments pieces', fragmentAt,
      Piece.size, true_and, lineAt, pieces', List.length_append, List.length_cons]
    rw [if_pos (by omega), List.length_nil, Nat.add_assoc]

theorem right_inside (lines : TextLines graphemes (before ++ line :: after))
    (pieces : line.pieces = front ++ piece :: back) {pre rest first : List Char}
    {others : List (List Char)} (text : piece.text = pre ++ rest)
    (parts : graphemes.segment rest = first :: others) :
    horizontalOffset graphemes (placedDocument (before ++ line :: after) long)
      (place before (textOf front ++ pre)) true =
        some (place before (textOf front ++ (pre ++ first))) := by
  have rest_some : rest ≠ [] := by
    rintro rfl
    rw [graphemes.segment_nil] at parts
    cases parts
  have positive := Nat.pos_of_ne_zero (mt Slices.byteLength_eq_zero.mp rest_some)
  have size := congrArg byteLength text
  rw [byteLength_append] at size
  have whole := line_size lines pieces
  have place_size : place before (textOf front ++ pre) =
      byteLength (linesText before) + byteLength (textOf front) + byteLength pre := by
    rw [place_eq, byteLength_append, Nat.add_assoc]
  have line_text : byteLength line.text = byteLength line.content + byteLength line.ending :=
    byteLength_append _ _
  have found := @lineForOffset_at before after line long (place before (textOf front ++ pre))
    (by omega) (by omega)
  have scan := @fragmentToScan_right graphemes before after line long front back piece lines pieces
    pre rest text rest_some
  have relative : min (place before (textOf front ++ pre) -
      (byteLength (linesText before) + byteLength (textOf front))) piece.size = byteLength pre := by
    rw [Piece.size]
    omega
  have cut : sliceFrom piece.text (byteLength pre) = some rest := by
    rw [text, Slices.sliceFrom_append]
  have inside : ¬ (True ∧ (lineAt (pieceCount before) (byteLength (linesText before))
      line).content.stop ≤ place before (textOf front ++ pre)) := by
    simp only [lineAt]
    omega
  rw [horizontalOffset, found]
  simp only [Option.bind_eq_bind, getElem?_lines, Option.bind_some]
  rw [if_neg inside, if_neg (by simp), if_neg (by simp), scan]
  simp only [Option.bind_some, getElem?_fragments pieces, fragmentText_at lines pieces]
  have stop : (fragmentAt before.length (byteLength (linesText before) +
      byteLength (textOf front)) piece).source.length = piece.size :=
    Nat.add_sub_cancel_left _ _
  rw [stop]
  simp only [fragmentAt, relative, cut, Option.bind_some, if_true, parts]
  simp [place_eq, byteLength_append, Nat.add_assoc]

theorem fragmentToScan_left (lines : TextLines graphemes (before ++ line :: after))
    (pieces : line.pieces = front ++ piece :: back) {pre rest : List Char}
    (text : piece.text = pre ++ rest) (pre_some : pre ≠ []) :
    fragmentToScan (placedDocument (before ++ line :: after) long)
      (lineAt (pieceCount before) (byteLength (linesText before)) line)
      (place before (textOf front ++ pre)) false = some (pieceCount before + front.length) := by
  have positive := Nat.pos_of_ne_zero (mt Slices.byteLength_eq_zero.mp pre_some)
  have size := congrArg byteLength text
  rw [byteLength_append] at size
  rw [place_eq, byteLength_append]
  rw [fragmentToScan, fragmentForOffset_at lines pieces (.inl (by omega))
    (by rw [Piece.size]; omega)]
  simp only [Option.bind_eq_bind, Option.bind_some, getElem?_fragments pieces, fragmentAt,
    Piece.size, Bool.false_eq_true, not_false_eq_true, true_and, false_and, if_false]
  rw [if_neg (by omega)]

theorem getLast?_graphemeIndices {text last : List Char} {parts : List (List Char)}
    (segments : graphemes.segment text = parts ++ [last]) :
    (graphemeIndices graphemes text).getLast? = some (byteLength parts.flatten) := by
  rw [graphemeIndices, segments, Ranges.spans_append, List.map_append, total_byteLength]
  simp [spans]

theorem left_inside (lines : TextLines graphemes (before ++ line :: after))
    (pieces : line.pieces = front ++ piece :: back) {pre rest last : List Char}
    {parts : List (List Char)} (text : piece.text = pre ++ rest)
    (segments : graphemes.segment pre = parts ++ [last]) :
    horizontalOffset graphemes (placedDocument (before ++ line :: after) long)
      (place before (textOf front ++ pre)) false =
        some (place before (textOf front ++ parts.flatten)) := by
  have pre_some : pre ≠ [] := by
    rintro rfl
    rw [graphemes.segment_nil] at segments
    simp at segments
  have positive := Nat.pos_of_ne_zero (mt Slices.byteLength_eq_zero.mp pre_some)
  have size := congrArg byteLength text
  rw [byteLength_append] at size
  have whole := line_size lines pieces
  have place_size : place before (textOf front ++ pre) =
      byteLength (linesText before) + byteLength (textOf front) + byteLength pre := by
    rw [place_eq, byteLength_append, Nat.add_assoc]
  have line_text : byteLength line.text = byteLength line.content + byteLength line.ending :=
    byteLength_append _ _
  have found := @lineForOffset_at before after line long (place before (textOf front ++ pre))
    (by omega) (fun some => by have ending := lines.ending_some some; omega)
  have scan := @fragmentToScan_left graphemes before after line long front back piece lines pieces
    pre rest text pre_some
  have relative : min (place before (textOf front ++ pre) -
      (byteLength (linesText before) + byteLength (textOf front))) piece.size = byteLength pre := by
    rw [Piece.size]
    omega
  have cut : sliceTo piece.text (byteLength pre) = some pre := by
    rw [text, Slices.sliceTo_append]
  have inside : ¬ (¬ false = true ∧ (lineAt (pieceCount before) (byteLength (linesText before))
      line).content.stop < place before (textOf front ++ pre)) := by
    simp only [lineAt]
    omega
  have behind : ¬ (¬ false = true ∧ place before (textOf front ++ pre) =
      (lineAt (pieceCount before) (byteLength (linesText before)) line).content.start) := by
    simp only [lineAt]
    omega
  rw [horizontalOffset, found]
  simp only [Option.bind_eq_bind, getElem?_lines, Option.bind_some]
  rw [if_neg (by simp), if_neg inside, if_neg behind, scan]
  simp only [Option.bind_some, getElem?_fragments pieces, fragmentText_at lines pieces]
  have stop : (fragmentAt before.length (byteLength (linesText before) +
      byteLength (textOf front)) piece).source.length = piece.size :=
    Nat.add_sub_cancel_left _ _
  rw [stop]
  simp only [fragmentAt, relative, cut, Option.bind_some, Bool.false_eq_true, if_false,
    getLast?_graphemeIndices segments, Option.getD_some]
  rw [place_eq, byteLength_append, Nat.add_assoc]

/-! ## Moves over a line end -/

theorem right_behind {offset : Nat} (from_le : place before line.content ≤ offset)
    (inside : after ≠ [] → offset < place before line.text) :
    horizontalOffset graphemes (placedDocument (before ++ line :: after) long) offset true =
      some (place before line.text) := by
  rw [place_eq] at from_le inside
  have found := @lineForOffset_at before after line long offset (by omega) inside
  have behind : True ∧ (lineAt (pieceCount before) (byteLength (linesText before))
      line).content.stop ≤ offset := ⟨trivial, from_le⟩
  rw [horizontalOffset, found]
  simp only [Option.bind_eq_bind, getElem?_lines, Option.bind_some]
  rw [if_pos behind, place_eq]
  cases after with
  | nil =>
      have none : (placedDocument (before ++ [line]) long).lines[before.length + 1]? = none := by
        rw [List.getElem?_eq_none_iff, placedDocument, length_placeLines, List.length_append]
        exact Nat.le_refl _
      have size : byteLength (placedDocument (before ++ [line]) long).source =
          byteLength (linesText before) + byteLength line.text := by
        simp [placedDocument, linesText, byteLength_append]
      rw [none, size]
  | cons next after =>
      have split : before ++ line :: next :: after = (before ++ [line]) ++ next :: after := by simp
      have length : before.length + 1 = (before ++ [line]).length := by simp
      rw [split, length, getElem?_lines]
      simp [lineAt, linesText, byteLength_append]

theorem left_behind {offset : Nat} (from_lt : place before line.content < offset)
    (inside : after ≠ [] → offset < place before line.text) :
    horizontalOffset graphemes (placedDocument (before ++ line :: after) long) offset false =
      some (place before line.content) := by
  rw [place_eq] at from_lt inside
  have found := @lineForOffset_at before after line long offset (by omega) inside
  have behind : ¬ false = true ∧ (lineAt (pieceCount before) (byteLength (linesText before))
      line).content.stop < offset := ⟨by simp, from_lt⟩
  rw [horizontalOffset, found]
  simp only [Option.bind_eq_bind, getElem?_lines, Option.bind_some]
  rw [if_neg (by simp), if_pos behind, place_eq]
  rfl

theorem lineForOffset_start (lines : TextLines graphemes (before ++ line :: after)) :
    lineForOffset (placedDocument (before ++ line :: after) long) (place before []) =
      some before.length := by
  rw [place_eq, Slices.byteLength_nil, Nat.add_zero]
  refine lineForOffset_at (Nat.le_refl _) fun some => ?_
  have ending := lines.ending_some some
  rw [TextLine.text, byteLength_append]
  omega

theorem left_start {previous : TextLine}
    (lines : TextLines graphemes ((before ++ [previous]) ++ line :: after)) :
    horizontalOffset graphemes (placedDocument ((before ++ [previous]) ++ line :: after) long)
      (place (before ++ [previous]) []) false = some (place before previous.content) := by
  have start : place (before ++ [previous]) [] = byteLength (linesText (before ++ [previous])) := by
    rw [place, List.append_nil]
  have split : before ++ [previous] ++ line :: after = before ++ previous :: line :: after := by
    simp
  have earlier :
      (placedDocument (before ++ [previous] ++ line :: after) long).lines[before.length]? =
      some (lineAt (pieceCount before) (byteLength (linesText before)) previous) := by
    rw [split, getElem?_lines]
  rw [horizontalOffset, lineForOffset_start lines]
  simp only [Option.bind_eq_bind, getElem?_lines, Option.bind_some]
  rw [if_neg (by simp), if_neg (by simp only [lineAt, start]; omega),
    if_pos (by exact ⟨by simp, start⟩), List.length_append, List.length_singleton]
  simp only [earlier, Option.map_some]
  rw [place_eq]
  rfl

theorem left_zero (lines : TextLines graphemes (line :: after)) :
    horizontalOffset graphemes (placedDocument (line :: after) long) 0 false = some 0 := by
  have found := @lineForOffset_start graphemes [] after line long lines
  have at_zero := @getElem?_lines [] after line long
  rw [List.nil_append] at found at_zero
  have zero : place [] [] = 0 := rfl
  rw [zero, List.length_nil] at found
  rw [List.length_nil] at at_zero
  rw [horizontalOffset, found]
  simp only [Option.bind_eq_bind, at_zero, Option.bind_some]
  rw [if_neg (by simp), if_neg (by simp), if_pos (by exact ⟨by simp, rfl⟩)]

end Found

end Places

end TerminalCanvas.App.FileViewer
