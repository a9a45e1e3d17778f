import TerminalCanvas.App.FileViewerLines

/-! # The prepared document partitions its text

Lines, fragments and graphemes are compared as ranges. The cursors of a fragment are the
boundaries of its range. -/

namespace TerminalCanvas.App.FileViewer

open Json (byteLength byteLength_append)
open Ranges (Range Contiguous Divides spans)
open Slices (slice Boundary)

/-! ## Cursors -/

theorem charOffsets_eq_some {text : List Char} {cursor offset : Nat} :
    (SourceDocument.charOffsets text)[cursor]? = some offset ↔
      ∃ pre post, text = pre ++ post ∧ cursor = pre.length ∧ offset = byteLength pre := by
  induction text generalizing cursor offset with
  | nil =>
      constructor
      · intro some
        cases cursor with
        | zero =>
            cases some
            exact ⟨[], [], rfl, rfl, rfl⟩
        | succ cursor => simp [SourceDocument.charOffsets] at some
      · rintro ⟨pre, post, split, rfl, rfl⟩
        obtain ⟨rfl, rfl⟩ := List.append_eq_nil_iff.mp split.symm
        rfl
  | cons character text induction =>
      cases cursor with
      | zero =>
          constructor
          · intro some
            cases some
            exact ⟨[], character :: text, rfl, rfl, rfl⟩
          · rintro ⟨pre, post, split, length, rfl⟩
            obtain rfl := List.eq_nil_of_length_eq_zero length.symm
            rfl
      | succ cursor =>
          rw [SourceDocument.charOffsets, List.getElem?_cons_succ, List.getElem?_map,
            Option.map_eq_some_iff]
          constructor
          · rintro ⟨inner, some, rfl⟩
            obtain ⟨pre, post, rfl, rfl, rfl⟩ := induction.mp some
            exact ⟨character :: pre, post, rfl, rfl, (Slices.byteLength_cons_eq _ _).symm⟩
          · rintro ⟨pre, post, split, length, rfl⟩
            cases pre with
            | nil => cases length
            | cons first pre =>
                obtain ⟨rfl, rfl⟩ := List.cons.inj split
                refine ⟨byteLength pre, induction.mpr ⟨pre, post, rfl, ?_, rfl⟩,
                  (Slices.byteLength_cons_eq _ _).symm⟩
                simpa using length

section Cursors

variable {document : SourceDocument} {index : Nat} {fragment : VisualFragment}
  {front text back : List Char}

theorem fragmentCursorToSource_eq_ok (at_index : document.fragments[index]? = some fragment)
    (split : document.source = front ++ (text ++ back))
    (range : fragment.source = ⟨byteLength front, byteLength (front ++ text)⟩)
    {cursor offset : Nat} :
    document.fragmentCursorToSource index cursor = some (.ok offset) ↔
      ∃ pre post, text = pre ++ post ∧ cursor = pre.length ∧
        offset = byteLength (front ++ pre) := by
  have sliced : slice document.source fragment.source.start fragment.source.stop = some text := by
    rw [split, range, Slices.slice_append]
  simp only [SourceDocument.fragmentCursorToSource, at_index, sliced, Option.bind_eq_bind,
    Option.bind_some]
  constructor
  · intro found
    split at found
    · cases found
    · next inner some =>
        obtain ⟨pre, post, split, length, rfl⟩ := charOffsets_eq_some.mp some
        cases found
        exact ⟨pre, post, split, length, by rw [range, byteLength_append front pre]⟩
  · rintro ⟨pre, post, split, length, rfl⟩
    rw [charOffsets_eq_some.mpr ⟨pre, post, split, length, rfl⟩, range, byteLength_append front pre]

theorem sourceToFragmentCursor_eq_ok (at_index : document.fragments[index]? = some fragment)
    (split : document.source = front ++ (text ++ back))
    (range : fragment.source = ⟨byteLength front, byteLength (front ++ text)⟩)
    {cursor offset : Nat} :
    document.sourceToFragmentCursor index offset = some (.ok cursor) ↔
      ∃ pre post, text = pre ++ post ∧ cursor = pre.length ∧
        offset = byteLength (front ++ pre) := by
  have start : fragment.source.start = byteLength front := by rw [range]
  have stop : fragment.source.stop = byteLength (front ++ text) := by rw [range]
  simp only [SourceDocument.sourceToFragmentCursor, at_index]
  constructor
  · intro found
    split at found
    · cases found
    · next inside =>
        rw [not_or, not_or, not_not, isCharBoundary_iff, split] at inside
        obtain ⟨from_le, le_to, boundary⟩ := inside
        obtain ⟨pre, post, rfl, rfl⟩ := boundary.inside (by omega) (by omega)
        rw [split, start, List.append_assoc, Slices.slice_append] at found
        cases found
        exact ⟨pre, post, rfl, rfl, rfl⟩
  · rintro ⟨pre, post, rfl, rfl, rfl⟩
    have boundary : Boundary document.source (byteLength (front ++ pre)) :=
      ⟨front ++ pre, post ++ back, by rw [split]; simp, rfl⟩
    have size := byteLength_append front pre
    have whole := byteLength_append (front ++ pre) post
    rw [List.append_assoc] at whole
    rw [if_neg (by rw [not_or, not_or, not_not, isCharBoundary_iff]; exact
      ⟨by omega, by omega, boundary⟩), split, start, List.append_assoc, Slices.slice_append]
    rfl

end Cursors

/-! ## The partition -/

/-- A fragment of a line with these graphemes is short, lies between characters and divides
only a grapheme that is too long. Its flags say whether it does. -/
structure Fits (source : List Char) (graphemes : List Range) (fragment : VisualFragment) :
    Prop where
  short : fragment.source.length ≤ fragmentByteCap
  start_boundary : Boundary source fragment.source.start
  stop_boundary : Boundary source fragment.source.stop
  starts : fragment.startsInsideGrapheme = true ↔ Divides graphemes fragment.source.start
  ends : fragment.endsInsideGrapheme = true ↔ Divides graphemes fragment.source.stop
  long : ∀ grapheme ∈ graphemes,
    grapheme.Inside fragment.source.start ∨ grapheme.Inside fragment.source.stop →
      fragmentByteCap < grapheme.length

def SourceDocument.lineFragments (document : SourceDocument) (line : LogicalLine) :
    List VisualFragment :=
  (document.fragments.drop line.fragments.start).take line.fragments.length

/-- What a line says about the text and the fragments. -/
structure LineParts (graphemes : Segmentation) (document : SourceDocument) (index : Nat)
    (line : LogicalLine) : Prop where
  /-- The ending is a line end, and none is in the content. -/
  text : ∃ content ending,
    slice document.source line.content.start line.content.stop = some content ∧
      slice document.source line.ending.start line.ending.stop = some ending ∧
      '\n' ∉ content ∧ (Ends content ending ∨ ending = []) ∧
      ∀ fragment ∈ document.lineFragments line, fragment.logicalLine = index ∧
        Fits document.source (spans byteLength line.content.start (graphemes.segment content))
          fragment
  some_fragment : document.lineFragments line ≠ []
  fragments : Contiguous line.content.start
    ((document.lineFragments line).map VisualFragment.source) line.content.stop

/-- The cursors of a fragment are the boundaries of its range. -/
structure Cursors (document : SourceDocument) (index : Nat) (fragment : VisualFragment) :
    Prop where
  inverse : ∀ cursor offset, document.fragmentCursorToSource index cursor = some (.ok offset) ↔
    document.sourceToFragmentCursor index offset = some (.ok cursor)
  cursors : ∃ text, document.fragmentText index = some text ∧
    ∀ cursor, (∃ offset, document.fragmentCursorToSource index cursor = some (.ok offset)) ↔
      cursor ≤ text.length
  offsets : ∀ offset,
    (∃ cursor, document.sourceToFragmentCursor index offset = some (.ok cursor)) ↔
      Boundary document.source offset ∧ fragment.source.start ≤ offset ∧
        offset ≤ fragment.source.stop

structure Partitions (graphemes : Segmentation) (source : List Char)
    (document : SourceDocument) : Prop where
  source_eq : document.source = source
  lines : Contiguous 0 (document.lines.flatMap fun line => [line.content, line.ending])
    (byteLength source)
  /-- Every fragment is one of exactly one line. -/
  indices : Contiguous 0 (document.lines.map LogicalLine.fragments) document.fragments.length
  parts : ∀ index line, document.lines[index]? = some line →
    LineParts graphemes document index line
  cursors : ∀ index fragment, document.fragments[index]? = some fragment →
    Cursors document index fragment

theorem contiguous_lines (firstFragment offset : Nat) (lines : List TextLine) :
    Contiguous offset ((placeLines firstFragment offset lines).flatMap fun line =>
      [line.content, line.ending]) (offset + byteLength (linesText lines)) := by
  induction lines generalizing firstFragment offset with
  | nil => rfl
  | cons line lines induction =>
      have rest := induction (firstFragment + line.pieces.length)
        (offset + byteLength line.content + byteLength line.ending)
      rw [linesText_cons, byteLength_append, byteLength_append, ← Nat.add_assoc, ← Nat.add_assoc]
      exact ⟨rfl, Nat.le_add_right _ _, rfl, Nat.le_add_right _ _, rest⟩

theorem contiguous_indices (firstFragment offset : Nat) (lines : List TextLine) :
    Contiguous firstFragment ((placeLines firstFragment offset lines).map LogicalLine.fragments)
      (firstFragment + pieceCount lines) := by
  induction lines generalizing firstFragment offset with
  | nil => rfl
  | cons line lines induction =>
      have rest := induction (firstFragment + line.pieces.length)
        (offset + byteLength line.content + byteLength line.ending)
      rw [pieceCount_cons, ← Nat.add_assoc]
      exact ⟨rfl, Nat.le_add_right _ _, rest⟩

theorem placed_source (logicalLine offset : Nat) (pieces : List Piece) :
    (placed logicalLine offset pieces).map VisualFragment.source =
      spans Piece.size offset pieces := by
  induction pieces generalizing offset with
  | nil => rfl
  | cons piece pieces induction => rw [placed, List.map_cons, induction, spans]

theorem placed_index {logicalLine offset : Nat} {pieces : List Piece} {fragment : VisualFragment}
    (member : fragment ∈ placed logicalLine offset pieces) :
    fragment.logicalLine = logicalLine := by
  obtain ⟨front, piece, back, rfl, rfl⟩ := exists_of_placed member
  rfl

section Document

variable {graphemes : Segmentation}

theorem TextLines.line_parts {before after : List TextLine} {line : TextLine}
    (lines : TextLines graphemes (before ++ line :: after)) :
    '\n' ∉ line.content ∧ Cuts graphemes line.content line.pieces ∧
      (Ends line.content line.ending ∨ line.ending = [] ∧ after = []) := by
  induction before with
  | nil =>
      cases lines with
      | last some single cuts => exact ⟨single, cuts, .inr ⟨rfl, rfl⟩⟩
      | ended single cuts ends rest => exact ⟨single, cuts, .inl ends⟩
  | cons first before induction =>
      rw [List.cons_append] at lines
      generalize tail_eq : before ++ line :: after = tail at lines
      cases lines with
      | last some single cuts => simp at tail_eq
      | ended single cuts ends rest => exact induction (tail_eq ▸ rest)

theorem text_split (before after : List TextLine) {line : TextLine}
    (cuts : Cuts graphemes line.content line.pieces) {front back : List Piece} {piece : Piece}
    (pieces : line.pieces = front ++ piece :: back) :
    linesText (before ++ line :: after) =
      linesText before ++ textOf front ++
        (piece.text ++ (textOf back ++ (line.ending ++ linesText after))) := by
  rw [linesText_append, linesText_cons, ← cuts.textOf_eq, pieces]
  simp

theorem fragmentAt_source (logicalLine : Nat) (front : List Char) (piece : Piece) :
    (fragmentAt logicalLine (byteLength front) piece).source =
      ⟨byteLength front, byteLength (front ++ piece.text)⟩ := by
  rw [fragmentAt, Piece.size, byteLength_append]

theorem fits_fragmentAt {before after : List TextLine} {line : TextLine}
    (cuts : Cuts graphemes line.content line.pieces) {front back : List Piece} {piece : Piece}
    (pieces : line.pieces = front ++ piece :: back) (logicalLine : Nat) :
    Fits (linesText (before ++ line :: after))
      (spans byteLength (byteLength (linesText before)) (graphemes.segment line.content))
      (fragmentAt logicalLine (byteLength (linesText before) + byteLength (textOf front))
        piece) := by
  have honest : piece.Honest
      (spans byteLength (byteLength (linesText before)) (graphemes.segment line.content))
      (byteLength (linesText before) + byteLength (textOf front)) := by
    generalize line.content = content at cuts
    generalize line.pieces = all at cuts pieces
    cases cuts with
    | filled some packs => exact packs.honest _ pieces
    | empty =>
        cases front with
        | cons first front => simp at pieces
        | nil =>
            obtain ⟨rfl, rfl⟩ := List.cons.inj pieces
            rw [graphemes.segment_nil]
            exact ⟨Nat.zero_le _, by simp [spans, Divides], by simp [spans, Divides],
              List.forall_mem_nil _⟩
  have split := text_split before after cuts pieces
  refine ⟨?_, ⟨_, _, split, (byteLength_append _ _).symm⟩,
    ⟨linesText before ++ textOf front ++ piece.text, _, by rw [split, ← List.append_assoc], ?_⟩,
    honest.starts, honest.ends, honest.long⟩
  · rw [Range.length, fragmentAt, Nat.add_sub_cancel_left]
    exact honest.fits
  · rw [byteLength_append, byteLength_append]
    rfl

theorem lineFragments_eq {source : List Char} {before after : List TextLine} {line : TextLine}
    {long : Bool} :
    SourceDocument.lineFragments
      ⟨source, placeLines 0 0 (before ++ line :: after),
        placeFragments 0 0 (before ++ line :: after), long⟩
      (lineAt (pieceCount before) (byteLength (linesText before)) line) =
      placed before.length (byteLength (linesText before)) line.pieces := by
  simp only [SourceDocument.lineFragments, lineAt, Range.length, placeFragments_append,
    Nat.zero_add, Nat.add_sub_cancel_left]
  rw [List.drop_left' (length_placeFragments _ _ _), List.take_left' (length_placed _ _ _)]

theorem lineParts_lineAt {before after : List TextLine} {line : TextLine} {long : Bool}
    (lines : TextLines graphemes (before ++ line :: after)) :
    LineParts graphemes
      ⟨linesText (before ++ line :: after), placeLines 0 0 (before ++ line :: after),
        placeFragments 0 0 (before ++ line :: after), long⟩ before.length
      (lineAt (pieceCount before) (byteLength (linesText before)) line) := by
  obtain ⟨single, cuts, ends⟩ := lines.line_parts
  have text_eq := linesText_append before (line :: after)
  rw [linesText_cons] at text_eq
  refine ⟨⟨line.content, line.ending, ?_, ?_, single, ends.imp_right And.left, ?_⟩, ?_, ?_⟩
  · rw [lineAt, text_eq, ← byteLength_append, Slices.slice_append]
  · have sliced :=
      Slices.slice_append (linesText before ++ line.content) line.ending (linesText after)
    rw [List.append_assoc, List.append_assoc, byteLength_append, byteLength_append] at sliced
    rw [text_eq]
    exact sliced
  · rw [lineFragments_eq]
    intro fragment member
    refine ⟨placed_index member, ?_⟩
    obtain ⟨front, piece, back, pieces, rfl⟩ := exists_of_placed member
    exact fits_fragmentAt cuts pieces _
  · rw [lineFragments_eq]
    intro none
    have length := length_placed before.length (byteLength (linesText before)) line.pieces
    rw [none, List.length_nil] at length
    exact cuts.ne_nil (List.eq_nil_of_length_eq_zero length.symm)
  · rw [lineFragments_eq, placed_source]
    have ends := Ranges.contiguous_spans Piece.size (byteLength (linesText before)) line.pieces
    rw [total_size, cuts.textOf_eq] at ends
    exact ends

theorem fragment_split {lines : List TextLine} (lines_ok : TextLines graphemes lines)
    {fragment : VisualFragment} (member : fragment ∈ placeFragments 0 0 lines) :
    ∃ front text back, linesText lines = front ++ (text ++ back) ∧
      fragment.source = ⟨byteLength front, byteLength (front ++ text)⟩ := by
  obtain ⟨before, line, after, rfl, inside⟩ := exists_of_placeFragments member
  obtain ⟨front, piece, back, pieces, rfl⟩ := exists_of_placed inside
  refine ⟨_, _, _, text_split before after lines_ok.line_parts.2.1 pieces, ?_⟩
  rw [Nat.zero_add (byteLength _), ← byteLength_append, fragmentAt_source]

theorem cursors_fragment {lines : List TextLine} (lines_ok : TextLines graphemes lines)
    {document : SourceDocument} (source_eq : document.source = linesText lines)
    (fragments : document.fragments = placeFragments 0 0 lines) {index : Nat}
    {fragment : VisualFragment} (at_index : document.fragments[index]? = some fragment) :
    Cursors document index fragment := by
  have member := List.mem_of_getElem? at_index
  rw [fragments] at member
  obtain ⟨front, text, back, split, range⟩ := fragment_split lines_ok member
  rw [← source_eq] at split
  have source_cursor := @fragmentCursorToSource_eq_ok document index fragment _ _ _ at_index split
    range
  have fragment_cursor := @sourceToFragmentCursor_eq_ok document index fragment _ _ _ at_index split
    range
  refine ⟨fun cursor offset => source_cursor.trans fragment_cursor.symm,
    ⟨text, ?_, fun cursor => ?_⟩, fun offset => ?_⟩
  · rw [SourceDocument.fragmentText, at_index, Option.bind_some, split, range, Slices.slice_append]
  · simp only [source_cursor]
    constructor
    · rintro ⟨offset, pre, post, text_eq, rfl, -⟩
      rw [text_eq, List.length_append]
      exact Nat.le_add_right _ _
    · intro bound
      exact ⟨_, text.take cursor, text.drop cursor, (List.take_append_drop _ _).symm,
        (List.length_take_of_le bound).symm, rfl⟩
  · simp only [fragment_cursor, range]
    constructor
    · rintro ⟨cursor, pre, post, text_eq, -, rfl⟩
      rw [split, text_eq]
      refine ⟨⟨front ++ pre, _, by simp only [List.append_assoc]; rfl, rfl⟩, ?_, ?_⟩
      · rw [byteLength_append _ pre]
        exact Nat.le_add_right _ _
      · rw [← List.append_assoc, byteLength_append _ post]
        exact Nat.le_add_right _ _
    · rintro ⟨boundary, from_le, le_to⟩
      rw [split] at boundary
      obtain ⟨pre, post, text_eq, rfl⟩ := boundary.inside from_le le_to
      exact ⟨_, pre, post, text_eq, rfl, rfl⟩

/-- Preparing a text ends, and the document partitions it. -/
theorem prepare_partitions (graphemes : Segmentation) (source : List Char) :
    ∃ document, prepare graphemes source = some document ∧
      Partitions graphemes source document := by
  obtain ⟨lines, lines_ok, text_eq, result⟩ := prepare_places graphemes source
  obtain rfl : linesText lines = source := text_eq
  refine ⟨_, result, rfl, ?_, ?_, ?_, ?_⟩
  · have ends := contiguous_lines 0 0 lines
    rw [Nat.zero_add] at ends
    exact ends
  · have ends := contiguous_indices 0 0 lines
    rw [Nat.zero_add] at ends
    rw [length_placeFragments]
    exact ends
  · intro index line at_index
    obtain ⟨before, textLine, after, rfl, rfl, rfl⟩ := exists_of_placeLines at_index
    rw [Nat.zero_add, Nat.zero_add]
    exact lineParts_lineAt lines_ok
  · intro index fragment at_index
    exact cursors_fragment lines_ok rfl rfl at_index

example : prepare Segmentation.characters ['a', '\r', '\n', '\n', 'b'] = some
    { source := ['a', '\r', '\n', '\n', 'b']
      lines := [⟨⟨0, 1⟩, ⟨1, 3⟩, ⟨0, 1⟩⟩, ⟨⟨3, 3⟩, ⟨3, 4⟩, ⟨1, 2⟩⟩, ⟨⟨4, 5⟩, ⟨5, 5⟩, ⟨2, 3⟩⟩]
      fragments := [⟨0, ⟨0, 1⟩, false, false⟩, ⟨1, ⟨3, 3⟩, false, false⟩, ⟨2, ⟨4, 5⟩, false, false⟩]
      hasLongLines := false } := by decide

end Document

end TerminalCanvas.App.FileViewer
