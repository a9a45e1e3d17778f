import TerminalCanvas.App.FileViewerPieces

/-! # The lines of a prepared document

Every text is a list of lines with the pieces of their contents. The prepared document
says where they lie. -/

namespace TerminalCanvas.App.FileViewer

open Json (byteLength byteLength_append)
open Ranges (Range)
open Slices (slice)

/-- The pieces of the content of a line. An empty line has an empty piece. -/
inductive Cuts (graphemes : Segmentation) : List Char → List Piece → Prop
  | empty : Cuts graphemes [] [⟨[], false, false⟩]
  | filled {content : List Char} {pieces : List Piece} (some : content ≠ [])
      (packs : Packs (graphemes.segment content) pieces) : Cuts graphemes content pieces

structure TextLine where
  content : List Char
  ending : List Char
  pieces : List Piece

def TextLine.text (line : TextLine) : List Char := line.content ++ line.ending

def Ends (content ending : List Char) : Prop :=
  ending = ['\r', '\n'] ∨ ending = ['\n'] ∧ content.getLast? ≠ some '\r'

inductive TextLines (graphemes : Segmentation) : List TextLine → Prop
  | nil : TextLines graphemes []
  | last {content : List Char} {pieces : List Piece} (some : content ≠ [])
      (single : '\n' ∉ content) (cuts : Cuts graphemes content pieces) :
      TextLines graphemes [⟨content, [], pieces⟩]
  | ended {content ending : List Char} {pieces : List Piece} {rest : List TextLine}
      (single : '\n' ∉ content) (cuts : Cuts graphemes content pieces)
      (ends : Ends content ending)
      (rest_lines : TextLines graphemes rest) :
      TextLines graphemes (⟨content, ending, pieces⟩ :: rest)

/-- The logical lines, from a first fragment and an offset on. -/
def placeLines : (firstFragment offset : Nat) → List TextLine → List LogicalLine
  | _, _, [] => []
  | firstFragment, offset, line :: lines =>
      let contentEnd := offset + byteLength line.content
      let lineEnd := contentEnd + byteLength line.ending
      let lastFragment := firstFragment + line.pieces.length
      ⟨⟨offset, contentEnd⟩, ⟨contentEnd, lineEnd⟩, ⟨firstFragment, lastFragment⟩⟩ ::
        placeLines lastFragment lineEnd lines

def placeFragments : (logicalLine offset : Nat) → List TextLine → List VisualFragment
  | _, _, [] => []
  | logicalLine, offset, line :: lines =>
      placed logicalLine offset line.pieces ++
        placeFragments (logicalLine + 1) (offset + byteLength line.text) lines

/-- Further lines, up to some offset. -/
def Prepared.extend (prepared : Prepared) (lines : List TextLine) (stop : Nat) : Prepared where
  lines := prepared.lines ++ placeLines prepared.fragments.length prepared.start lines
  fragments := prepared.fragments ++ placeFragments prepared.lines.length prepared.start lines
  hasLongLines := prepared.hasLongLines ||
    lines.any fun line => fragmentByteCap < byteLength line.content
  start := stop

theorem Prepared.extend_cons (prepared : Prepared) (line : TextLine) (lines : List TextLine)
    (stop : Nat) :
    (prepared.extend [line] (prepared.start + byteLength line.text)).extend lines stop =
      prepared.extend (line :: lines) stop := by
  simp [Prepared.extend, placeLines, placeFragments, length_placed, TextLine.text,
    byteLength_append, Nat.add_assoc, Bool.or_assoc]

/-! ## The pieces of a line -/

theorem Packs.of_nil {graphemes : List (List Char)} {pieces : List Piece}
    (packs : Packs graphemes pieces) (none : graphemes = []) : pieces = [] := by
  cases packs with
  | nil => rfl
  | whole some => exact absurd (List.append_eq_nil_iff.mp none).1 some
  | split => cases none

theorem Packs.ne_nil {graphemes : List (List Char)} {pieces : List Piece}
    (packs : Packs graphemes pieces) (some : graphemes ≠ []) : pieces ≠ [] := by
  cases packs with
  | nil => exact absurd rfl some
  | whole => exact List.cons_ne_nil _ _
  | @split texts later pieces long fit rest =>
      cases texts with
      | nil => simp [byteLength] at long
      | cons text texts => exact List.cons_ne_nil _ _

theorem cutPieces_some {texts : List (List Char)} {inside : Bool}
    (some : ∀ text ∈ texts, text ≠ []) : ∀ piece ∈ cutPieces inside texts, piece.text ≠ [] := by
  induction texts generalizing inside with
  | nil => exact List.forall_mem_nil _
  | cons text texts induction =>
      obtain ⟨here, later⟩ := List.forall_mem_cons.mp some
      exact List.forall_mem_cons.mpr ⟨here, induction later⟩

theorem Packs.piece_some {graphemes : List (List Char)} {pieces : List Piece}
    (packs : Packs graphemes pieces) (nonempty : ∀ grapheme ∈ graphemes, grapheme ≠ []) :
    ∀ piece ∈ pieces, piece.text ≠ [] := by
  induction packs with
  | nil => exact List.forall_mem_nil _
  | @whole graphemes later pieces some fits rest induction =>
      obtain ⟨here, later⟩ := List.forall_mem_append.mp nonempty
      refine List.forall_mem_cons.mpr ⟨?_, induction later⟩
      obtain ⟨grapheme, graphemes, rfl⟩ := List.exists_cons_of_ne_nil some
      intro none
      rw [List.flatten_cons] at none
      exact here grapheme List.mem_cons_self (List.append_eq_nil_iff.mp none).1
  | split long fit rest induction =>
      exact List.forall_mem_append.mpr ⟨cutPieces_some fun text member => (fit text member).1,
        induction (List.forall_mem_cons.mp nonempty).2⟩

section Lines

variable {graphemes : Segmentation}

theorem Cuts.piece_some {content : List Char} {pieces : List Piece}
    (cuts : Cuts graphemes content pieces) (some : content ≠ []) :
    ∀ piece ∈ pieces, piece.text ≠ [] := by
  cases cuts with
  | empty => exact absurd rfl some
  | filled some packs => exact packs.piece_some (graphemes.ne_nil_of_mem content)

theorem Cuts.textOf_eq {content : List Char} {pieces : List Piece}
    (cuts : Cuts graphemes content pieces) : textOf pieces = content := by
  cases cuts with
  | empty => rfl
  | filled some packs => rw [packs.textOf_eq, graphemes.flatten_segment]

theorem Cuts.ne_nil {content : List Char} {pieces : List Piece}
    (cuts : Cuts graphemes content pieces) : pieces ≠ [] := by
  cases cuts with
  | empty => exact List.cons_ne_nil _ _
  | filled some packs => exact packs.ne_nil (graphemes.segment_ne_nil some)

theorem fragmentLine_cuts {source front content back : List Char} (logicalLine : Nat)
    (split : source = front ++ (content ++ back)) :
    ∃ pieces, Cuts graphemes content pieces ∧
      fragmentLine graphemes source ⟨byteLength front, byteLength (front ++ content)⟩ logicalLine =
        some (placed logicalLine (byteLength front) pieces) := by
  have sliced : slice source (byteLength front) (byteLength (front ++ content)) = some content := by
    rw [split, Slices.slice_append]
  have flatten := graphemes.flatten_segment content
  obtain ⟨closed, remaining, pieces, whole, packs, small, result⟩ :=
    @fragmentGraphemes_packs source front back logicalLine [] (graphemes.segment content)
      (by rw [List.nil_append, flatten, split]) (graphemes.ne_nil_of_mem content) (Nat.zero_le _)
  rw [List.flatten_nil, List.append_nil] at result
  rw [List.nil_append] at whole
  rw [whole, List.flatten_append] at flatten
  have size := byteLength_append front content
  have size' := byteLength_append front closed.flatten
  have size'' := byteLength_append closed.flatten remaining.flatten
  rw [flatten] at size''
  simp only [fragmentLine, sliced, result, Option.bind_eq_bind, Option.bind_some]
  by_cases none : content = []
  · subst none
    rw [graphemes.segment_nil] at whole
    obtain ⟨rfl, rfl⟩ := List.append_eq_nil_iff.mp whole.symm
    obtain rfl := packs.of_nil rfl
    refine ⟨_, .empty, ?_⟩
    rw [if_pos (.inr (by simp))]
    simp [placed, Piece.size, Slices.byteLength_nil]
  · have some := mt Slices.byteLength_eq_zero.mp none
    by_cases nothing : remaining = []
    · subst nothing
      rw [List.append_nil] at whole
      refine ⟨pieces, .filled none (by rw [whole]; exact packs), ?_⟩
      rw [List.flatten_nil, Slices.byteLength_nil] at size''
      rw [if_neg (by omega)]
    · have all := packs.append (.whole nothing small .nil)
      rw [List.append_nil] at all
      refine ⟨_, .filled none (by rw [whole]; exact all), ?_⟩
      have positive : 0 < byteLength remaining.flatten := by
        obtain ⟨part, parts, rfl⟩ := List.exists_cons_of_ne_nil nothing
        have part_some := graphemes.ne_nil_of_mem content part (by rw [whole]; simp)
        have part_size := Nat.pos_of_ne_zero (mt Slices.byteLength_eq_zero.mp part_some)
        rw [List.flatten_cons, byteLength_append]
        omega
      rw [if_pos (.inl (by omega)), placed_append, packs.textOf_eq]
      have stop_eq : byteLength front + byteLength closed.flatten + byteLength remaining.flatten =
          byteLength (front ++ content) := by omega
      simp only [placed, Piece.size, stop_eq, size']

/-! ## The loop over the lines -/

/-- What splitting at line feeds gives. -/
inductive RawLines : List (List Char) → Prop
  | nil : RawLines []
  | last {body : List Char} (some : body ≠ []) (single : '\n' ∉ body) : RawLines [body]
  | ended {body : List Char} {rest : List (List Char)} (single : '\n' ∉ body)
      (rest_raw : RawLines rest) : RawLines ((body ++ ['\n']) :: rest)

theorem splitInclusive_raw (text : List Char) :
    RawLines (splitInclusive text) ∧ (splitInclusive text).flatten = text := by
  induction text with
  | nil => exact ⟨.nil, rfl⟩
  | cons character text induction =>
      obtain ⟨raw, flatten⟩ := induction
      rw [splitInclusive]
      split
      · next feed =>
          rw [feed, List.flatten_cons, flatten]
          exact ⟨@RawLines.ended [] _ List.not_mem_nil raw, rfl⟩
      · next other =>
          generalize splitInclusive text = lines at raw flatten
          subst flatten
          cases raw with
          | nil => exact ⟨.last (List.cons_ne_nil _ _) (by simpa using Ne.symm other), rfl⟩
          | last some single =>
              exact ⟨.last (List.cons_ne_nil _ _) (by simp [Ne.symm other, single]), rfl⟩
          | @ended body rest single rest_raw =>
              exact ⟨@RawLines.ended (character :: body) _ (by simp [Ne.symm other, single])
                rest_raw, rfl⟩

theorem exists_ends {body : List Char} (single : '\n' ∉ body) :
    ∃ content ending, body ++ ['\n'] = content ++ ending ∧ '\n' ∉ content ∧
      Ends content ending := by
  rcases List.eq_nil_or_concat' body with rfl | ⟨front, last, rfl⟩
  · exact ⟨[], ['\n'], rfl, List.not_mem_nil, .inr ⟨rfl, by simp⟩⟩
  · by_cases carriage : last = '\r'
    · subst carriage
      refine ⟨front, ['\r', '\n'], by simp, ?_, .inl rfl⟩
      exact fun member => single (by simp [member])
    · exact ⟨front ++ [last], ['\n'], rfl, single, .inr ⟨rfl, by simpa using carriage⟩⟩

theorem contentEnd_eq {content ending : List Char}
    (ends : Ends content ending ∨ ending = [] ∧ '\n' ∉ content) (stop : Nat) :
    (if ['\r', '\n'].isSuffixOf (content ++ ending) then stop + byteLength ending - 2
      else if ['\n'].isSuffixOf (content ++ ending) then stop + byteLength ending - 1
      else stop + byteLength ending) = stop := by
  simp only [List.isSuffixOf_iff_suffix]
  have carriage : byteLength ['\r', '\n'] = 2 := by decide
  have feed : byteLength ['\n'] = 1 := by decide
  rcases ends with (rfl | ⟨rfl, other⟩) | ⟨rfl, none⟩
  · rw [if_pos (List.suffix_append _ _), carriage]
    rfl
  · rw [if_neg, if_pos (List.suffix_append _ _), feed]
    · rfl
    · rintro ⟨front, same⟩
      have same' : (front ++ ['\r']) ++ ['\n'] = content ++ ['\n'] := by rw [← same]; simp
      rw [← List.append_cancel_right same'] at other
      simp at other
  · rw [List.append_nil, if_neg, if_neg]
    · rfl
    · exact fun suffix => none (suffix.subset (by simp))
    · exact fun suffix => none (suffix.subset (by simp))

theorem prepareLine_line {source front content ending back : List Char} {prepared : Prepared}
    (split : source = front ++ (content ++ (ending ++ back)))
    (start : prepared.start = byteLength front)
    (ends : Ends content ending ∨ ending = [] ∧ '\n' ∉ content) :
    ∃ pieces, Cuts graphemes content pieces ∧
      prepareLine graphemes source prepared (content ++ ending) = some
        (prepared.extend [⟨content, ending, pieces⟩]
          (prepared.start + byteLength (content ++ ending))) := by
  obtain ⟨pieces, cuts, result⟩ :=
    @fragmentLine_cuts graphemes source front content (ending ++ back) prepared.lines.length split
  refine ⟨pieces, cuts, ?_⟩
  have contentEnd := contentEnd_eq ends (byteLength (front ++ content))
  have size := byteLength_append front content
  have stop : byteLength front + byteLength (content ++ ending) =
      byteLength (front ++ content) + byteLength ending := by
    rw [size, byteLength_append, Nat.add_assoc]
  simp only [prepareLine, start, stop, contentEnd, result, Option.bind_eq_bind, Option.bind_some,
    Prepared.extend, placeLines, placeFragments, List.append_nil, length_placed]
  simp [size, Nat.add_assoc]

theorem foldlM_prepareLine {raws : List (List Char)} (raw : RawLines raws)
    {source front : List Char} {prepared : Prepared} (split : source = front ++ raws.flatten)
    (start : prepared.start = byteLength front) :
    ∃ lines, TextLines graphemes lines ∧ lines.flatMap TextLine.text = raws.flatten ∧
      raws.foldlM (prepareLine graphemes source) prepared = some
        (prepared.extend lines (byteLength source)) := by
  induction raw generalizing front prepared with
  | nil =>
      rw [List.flatten_nil, List.append_nil] at split
      exact ⟨[], .nil, rfl, by simp [Prepared.extend, placeLines, placeFragments, split, ← start]⟩
  | @last body some single =>
      obtain ⟨pieces, cuts, result⟩ := @prepareLine_line graphemes source front body [] [] prepared
        (by simpa using split) start (.inr ⟨rfl, single⟩)
      rw [List.append_nil, start, ← byteLength_append] at result
      rw [List.flatten_singleton] at split
      refine ⟨_, .last some single cuts, by simp [TextLine.text], ?_⟩
      rw [List.foldlM_cons, result, Option.bind_eq_bind, Option.bind_some, List.foldlM_nil, split]
      rfl
  | @ended body rest single rest_raw induction =>
      obtain ⟨content, ending, raw_eq, single, ends⟩ := exists_ends single
      rw [raw_eq] at split ⊢
      obtain ⟨pieces, cuts, result⟩ := @prepareLine_line graphemes source front content ending
        rest.flatten prepared (by simpa using split) start (.inl ends)
      obtain ⟨lines, lines_ok, texts, final⟩ := @induction (front ++ (content ++ ending))
        (prepared.extend [⟨content, ending, pieces⟩]
          (prepared.start + byteLength (content ++ ending)))
        (by simpa using split) (by rw [byteLength_append front, ← start]; rfl)
      refine ⟨_, .ended single cuts ends lines_ok, by simp [TextLine.text, texts], ?_⟩
      rw [List.foldlM_cons, result, Option.bind_eq_bind, Option.bind_some, final]
      exact congrArg some (prepared.extend_cons ⟨content, ending, pieces⟩ lines _)

theorem prepare_places (graphemes : Segmentation) (source : List Char) :
    ∃ lines, TextLines graphemes lines ∧ lines.flatMap TextLine.text = source ∧
      prepare graphemes source = some ⟨source, placeLines 0 0 lines, placeFragments 0 0 lines,
        lines.any fun line => fragmentByteCap < byteLength line.content⟩ := by
  obtain ⟨raw, flatten⟩ := splitInclusive_raw source
  obtain ⟨lines, lines_ok, texts, result⟩ := @foldlM_prepareLine graphemes _ raw source []
    ⟨[], [], false, 0⟩ (by rw [List.nil_append, flatten]) rfl
  refine ⟨lines, lines_ok, texts.trans flatten, ?_⟩
  rw [prepare, result]
  simp [Prepared.extend]

end Lines

/-! ## Where a line and a piece lie -/

def linesText (lines : List TextLine) : List Char := lines.flatMap TextLine.text

def pieceCount (lines : List TextLine) : Nat := (lines.flatMap TextLine.pieces).length

@[simp] theorem linesText_cons (line : TextLine) (lines : List TextLine) :
    linesText (line :: lines) = line.content ++ (line.ending ++ linesText lines) := by
  simp [linesText, TextLine.text]

@[simp] theorem linesText_append (first second : List TextLine) :
    linesText (first ++ second) = linesText first ++ linesText second := by
  simp [linesText]

@[simp] theorem pieceCount_nil : pieceCount [] = 0 := rfl

@[simp] theorem pieceCount_cons (line : TextLine) (lines : List TextLine) :
    pieceCount (line :: lines) = line.pieces.length + pieceCount lines := by
  simp [pieceCount]

def lineAt (firstFragment offset : Nat) (line : TextLine) : LogicalLine where
  content := ⟨offset, offset + byteLength line.content⟩
  ending := ⟨offset + byteLength line.content, offset + byteLength line.text⟩
  fragments := ⟨firstFragment, firstFragment + line.pieces.length⟩

def fragmentAt (logicalLine offset : Nat) (piece : Piece) : VisualFragment where
  logicalLine := logicalLine
  source := ⟨offset, offset + piece.size⟩
  startsInsideGrapheme := piece.startsInside
  endsInsideGrapheme := piece.endsInside

theorem placeLines_append (firstFragment offset : Nat) (before : List TextLine) (line : TextLine)
    (after : List TextLine) :
    placeLines firstFragment offset (before ++ line :: after) =
      placeLines firstFragment offset before ++
        lineAt (firstFragment + pieceCount before) (offset + byteLength (linesText before)) line ::
          placeLines (firstFragment + pieceCount before + line.pieces.length)
            (offset + byteLength (linesText before) + byteLength line.text) after := by
  induction before generalizing firstFragment offset with
  | nil =>
      simp [placeLines, lineAt, linesText, TextLine.text, byteLength_append, Nat.add_assoc,
        Slices.byteLength_nil]
  | cons first before induction =>
      simp only [List.cons_append, placeLines, induction, linesText_cons, pieceCount_cons,
        byteLength_append, Nat.add_assoc]

theorem length_placeLines (firstFragment offset : Nat) (lines : List TextLine) :
    (placeLines firstFragment offset lines).length = lines.length := by
  induction lines generalizing firstFragment offset with
  | nil => rfl
  | cons line lines induction => rw [placeLines, List.length_cons, List.length_cons, induction]

theorem placeFragments_append (logicalLine offset : Nat) (before : List TextLine)
    (line : TextLine) (after : List TextLine) :
    placeFragments logicalLine offset (before ++ line :: after) =
      placeFragments logicalLine offset before ++
        (placed (logicalLine + before.length)
          (offset + byteLength (linesText before)) line.pieces ++
          placeFragments (logicalLine + before.length + 1)
            (offset + byteLength (linesText before) + byteLength line.text) after) := by
  induction before generalizing logicalLine offset with
  | nil => simp [placeFragments, linesText, Slices.byteLength_nil]
  | cons first before induction =>
      simp only [List.cons_append, placeFragments, induction, linesText_cons, byteLength_append,
        List.length_cons, List.append_assoc, TextLine.text, Nat.add_assoc, Nat.add_comm 1]

theorem length_placeFragments (logicalLine offset : Nat) (lines : List TextLine) :
    (placeFragments logicalLine offset lines).length = pieceCount lines := by
  induction lines generalizing logicalLine offset with
  | nil => rfl
  | cons line lines induction =>
      rw [placeFragments, List.length_append, length_placed, induction, pieceCount_cons]

theorem exists_of_placeLines {lines : List TextLine} {firstFragment offset index : Nat}
    {found : LogicalLine} (some : (placeLines firstFragment offset lines)[index]? = some found) :
    ∃ before line after, lines = before ++ line :: after ∧ index = before.length ∧
      found = lineAt (firstFragment + pieceCount before)
        (offset + byteLength (linesText before)) line := by
  have inside := (List.getElem?_eq_some_iff.mp some).1
  rw [length_placeLines] at inside
  obtain ⟨before, line, after, rfl, rfl⟩ : ∃ before line after,
      lines = before ++ line :: after ∧ index = before.length :=
    ⟨lines.take index, lines[index], lines.drop (index + 1), by simp, by simp; omega⟩
  refine ⟨before, line, after, rfl, rfl, ?_⟩
  rw [placeLines_append, List.getElem?_append_right (by rw [length_placeLines]),
    length_placeLines, Nat.sub_self] at some
  exact (Option.some.inj some).symm

theorem getElem?_placed (logicalLine offset : Nat) (front : List Piece) (piece : Piece)
    (back : List Piece) :
    (placed logicalLine offset (front ++ piece :: back))[front.length]? =
      some (fragmentAt logicalLine (offset + byteLength (textOf front)) piece) := by
  rw [placed_append, List.getElem?_append_right (by rw [length_placed]), length_placed,
    Nat.sub_self]
  rfl

theorem exists_of_placed {pieces : List Piece} {logicalLine offset : Nat}
    {found : VisualFragment} (member : found ∈ placed logicalLine offset pieces) :
    ∃ front piece back, pieces = front ++ piece :: back ∧
      found = fragmentAt logicalLine (offset + byteLength (textOf front)) piece := by
  obtain ⟨index, some⟩ := List.mem_iff_getElem?.mp member
  have inside := (List.getElem?_eq_some_iff.mp some).1
  rw [length_placed] at inside
  obtain ⟨front, piece, back, rfl, rfl⟩ : ∃ front piece back,
      pieces = front ++ piece :: back ∧ index = front.length :=
    ⟨pieces.take index, pieces[index], pieces.drop (index + 1), by simp, by simp; omega⟩
  refine ⟨front, piece, back, rfl, ?_⟩
  rw [getElem?_placed] at some
  exact (Option.some.inj some).symm

theorem exists_of_placeFragments {lines : List TextLine} {logicalLine offset : Nat}
    {found : VisualFragment} (member : found ∈ placeFragments logicalLine offset lines) :
    ∃ before line after, lines = before ++ line :: after ∧
      found ∈ placed (logicalLine + before.length) (offset + byteLength (linesText before))
        line.pieces := by
  induction lines generalizing logicalLine offset with
  | nil => simp [placeFragments] at member
  | cons line lines induction =>
      rw [placeFragments, List.mem_append] at member
      rcases member with member | member
      · exact ⟨[], line, lines, rfl, by simpa [linesText, Slices.byteLength_nil] using member⟩
      · obtain ⟨before, next, after, rfl, inside⟩ := induction member
        refine ⟨line :: before, next, after, rfl, ?_⟩
        simpa [TextLine.text, byteLength_append, Nat.add_assoc, Nat.add_comm 1] using inside

end TerminalCanvas.App.FileViewer
