import Mathlib.Data.List.Induction
import TerminalCanvas.App.FileViewerMovement

/-! # The caret stays between characters

Every key moves the caret from one boundary of the text to another, and never into a line
end of two characters. -/

namespace TerminalCanvas.App.FileViewer

open Json (byteLength byteLength_append)
open Ranges (Range spans)
open Slices (slice Boundary)

/-- The offset is between the two characters of a line end. -/
def InsideCrlf (source : List Char) (offset : Nat) : Prop :=
  ∃ before after, source = before ++ '\r' :: '\n' :: after ∧ offset = byteLength (before ++ ['\r'])

structure CaretPosition (source : List Char) (offset : Nat) : Prop where
  boundary : Boundary source offset
  outside : ¬ InsideCrlf source offset

section Positions

variable {graphemes : Segmentation} {lines before after : List TextLine} {line : TextLine}

theorem getLast?_linesText (ended : ∀ earlier ∈ lines, Ends earlier.content earlier.ending) :
    (linesText lines).getLast? ≠ some '\r' := by
  rcases List.eq_nil_or_concat' lines with rfl | ⟨before, line, rfl⟩
  · simp [linesText]
  · rw [linesText_append, linesText_cons]
    rcases ended line (by simp) with ending | ⟨ending, -⟩
    · simp [linesText, ending]
    · simp [linesText, ending]

theorem content_position (lines_ok : TextLines graphemes lines)
    (split : lines = before ++ line :: after) {pre post : List Char}
    (content : line.content = pre ++ post) :
    CaretPosition (linesText lines) (place before pre) := by
  have text : linesText lines =
      (linesText before ++ pre) ++ (post ++ (line.ending ++ linesText after)) := by
    rw [split, linesText_append, linesText_cons, content]
    simp
  refine ⟨⟨_, _, text, rfl⟩, ?_⟩
  rintro ⟨first, second, crlf, size⟩
  have crlf' : linesText lines = (first ++ ['\r']) ++ '\n' :: second := by rw [crlf]; simp
  rw [text] at crlf'
  obtain ⟨front, rest⟩ := Slices.append_inj crlf' size
  subst split
  obtain ⟨single, -, ends⟩ := lines_ok.line_parts
  cases post with
  | cons character post =>
      obtain ⟨rfl, -⟩ := List.cons.inj rest
      exact single (by simp [content])
  | nil =>
      rw [List.append_nil] at content
      have last : (linesText before ++ pre).getLast? = some '\r' := by rw [front]; simp
      rcases ends with (ending | ⟨ending, other⟩) | ⟨ending, rfl⟩
      · simp [ending] at rest
      · rcases List.eq_nil_or_concat' pre with rfl | ⟨pre, character, rfl⟩
        · rw [List.append_nil] at last
          exact getLast?_linesText lines_ok.prefix_ended last
        · rw [content] at other
          simp at last other
          exact other last
      · simp [ending, linesText] at rest

theorem end_position (source : List Char) : CaretPosition source (byteLength source) := by
  refine ⟨⟨source, [], (List.append_nil _).symm, rfl⟩, ?_⟩
  rintro ⟨first, second, rfl, size⟩
  have feed := Slices.byteLength_single_pos '\n'
  rw [byteLength_append, byteLength_append, Slices.byteLength_cons_eq '\r',
    Slices.byteLength_cons_eq '\n'] at size
  omega

theorem lineEnd_position (lines_ok : TextLines graphemes lines)
    (split : lines = before ++ line :: after) :
    CaretPosition (linesText lines) (place before line.text) := by
  cases after with
  | nil =>
      have text : place before line.text = byteLength (linesText lines) := by
        simp [split, place, linesText]
      rw [text]
      exact end_position _
  | cons next after =>
      have split' : lines = (before ++ [line]) ++ next :: after := by rw [split]; simp
      have start : place before line.text = place (before ++ [line]) [] := by
        simp [place, linesText]
      rw [start]
      exact content_position lines_ok split' (List.nil_append _).symm

/-! ## Where an offset lies -/

theorem exists_line (lines_some : lines ≠ []) {offset : Nat}
    (bound : offset ≤ byteLength (linesText lines)) :
    ∃ before line after, lines = before ++ line :: after ∧
      byteLength (linesText before) ≤ offset ∧ offset ≤ place before line.text ∧
        (after ≠ [] → offset < place before line.text) := by
  induction lines using List.reverseRecOn with
  | nil => exact absurd rfl lines_some
  | append_singleton before line induction =>
      have text : byteLength (linesText (before ++ [line])) = place before line.text := by
        simp [place, linesText]
      rw [text] at bound
      rcases Nat.lt_or_ge offset (byteLength (linesText before)) with earlier | here
      · have before_some : before ≠ [] := by
          rintro rfl
          exact absurd earlier (Nat.not_lt_zero _)
        obtain ⟨front, found, back, rfl, start, stop, inside⟩ :=
          induction before_some (Nat.le_of_lt earlier)
        refine ⟨front, found, back ++ [line], by simp, start, stop, fun _ => ?_⟩
        by_cases last : back = []
        · subst last
          simpa [place, linesText] using earlier
        · exact inside last
      · exact ⟨before, line, [], rfl, here, bound, fun some => absurd rfl some⟩

theorem locate (lines_some : lines ≠ []) {offset : Nat}
    (boundary : Boundary (linesText lines) offset) :
    ∃ before line after, lines = before ++ line :: after ∧ offset ≤ place before line.text ∧
      (after ≠ [] → offset < place before line.text) ∧
        ((∃ pre post, line.content = pre ++ post ∧ offset = place before pre) ∨
          place before line.content < offset) := by
  obtain ⟨before, line, after, rfl, start, stop, inside⟩ := exists_line lines_some boundary.le
  refine ⟨before, line, after, rfl, stop, inside, ?_⟩
  rcases Nat.lt_or_ge (place before line.content) offset with behind | within
  · exact .inr behind
  · rw [linesText_append, linesText_cons] at boundary
    exact .inl (boundary.inside start within)

theorem exists_piece_right {pieces : List Piece} {pre post : List Char}
    (text : textOf pieces = pre ++ post) (post_some : post ≠ []) :
    ∃ front piece back inner rest, pieces = front ++ piece :: back ∧
      piece.text = inner ++ rest ∧ rest ≠ [] ∧ pre = textOf front ++ inner := by
  induction pieces generalizing pre with
  | nil => exact absurd (List.append_eq_nil_iff.mp text.symm).2 post_some
  | cons piece pieces induction =>
      have later : ∀ beyond, pre = piece.text ++ beyond → textOf pieces = beyond ++ post →
          ∃ front found back inner rest, piece :: pieces = front ++ found :: back ∧
            found.text = inner ++ rest ∧ rest ≠ [] ∧ pre = textOf front ++ inner := by
        intro beyond pre_eq text
        obtain ⟨front, found, back, inner, rest, rfl, found_eq, rest_some, rfl⟩ := induction text
        exact ⟨piece :: front, found, back, inner, rest, rfl, found_eq, rest_some, by simp [pre_eq]⟩
      rw [textOf_cons] at text
      rcases List.append_eq_append_iff.mp text with ⟨beyond, pre_eq, text⟩ | ⟨rest, piece_eq, text⟩
      · exact later beyond pre_eq text
      · by_cases rest_some : rest = []
        · subst rest_some
          rw [List.append_nil] at piece_eq
          exact later [] (by rw [piece_eq, List.append_nil]) text.symm
        · exact ⟨[], piece, pieces, pre, rest, rfl, piece_eq, rest_some, rfl⟩

theorem exists_piece_left {pieces : List Piece} {pre post : List Char}
    (text : textOf pieces = pre ++ post) (pre_some : pre ≠ []) :
    ∃ front piece back inner rest, pieces = front ++ piece :: back ∧
      piece.text = inner ++ rest ∧ inner ≠ [] ∧ pre = textOf front ++ inner := by
  induction pieces generalizing pre with
  | nil => exact absurd (List.append_eq_nil_iff.mp text.symm).1 pre_some
  | cons piece pieces induction =>
      rw [textOf_cons] at text
      rcases List.append_eq_append_iff.mp text with ⟨beyond, rfl, later⟩ | ⟨rest, piece_eq, -⟩
      · by_cases beyond_some : beyond = []
        · subst beyond_some
          rw [List.append_nil] at pre_some ⊢
          exact ⟨[], piece, pieces, piece.text, [], rfl, (List.append_nil _).symm, pre_some, rfl⟩
        · obtain ⟨front, found, back, inner, rest, rfl, found_eq, inner_some, rfl⟩ :=
            induction later beyond_some
          exact ⟨piece :: front, found, back, inner, rest, rfl, found_eq, inner_some, by simp⟩
      · exact ⟨[], piece, pieces, pre, rest, rfl, piece_eq, pre_some, rfl⟩

/-! ## Moves -/

section Moves

variable {long : Bool}

theorem right_content (lines_ok : TextLines graphemes lines)
    (split : lines = before ++ line :: after) {pre post : List Char}
    (content : line.content = pre ++ post) (post_some : post ≠ []) :
    ∃ pre' post', line.content = pre' ++ post' ∧
      horizontalOffset graphemes (placedDocument lines long) (place before pre) true =
        some (place before pre') ∧ place before pre < place before pre' := by
  subst split
  have text_eq := lines_ok.line_parts.2.1.textOf_eq
  rw [content] at text_eq
  obtain ⟨front, piece, back, inner, rest, pieces, piece_eq, rest_some, rfl⟩ :=
    exists_piece_right text_eq post_some
  obtain ⟨first, others, parts⟩ := List.exists_cons_of_ne_nil (graphemes.segment_ne_nil rest_some)
  have flatten := graphemes.flatten_segment rest
  rw [parts, List.flatten_cons] at flatten
  have first_some := graphemes.ne_nil_of_mem rest first (by rw [parts]; exact List.mem_cons_self)
  have positive := Nat.pos_of_ne_zero (mt Slices.byteLength_eq_zero.mp first_some)
  refine ⟨textOf front ++ (inner ++ first), others.flatten ++ textOf back, ?_,
    right_inside lines_ok pieces piece_eq parts, ?_⟩
  · rw [content, ← text_eq, pieces, textOf_append, textOf_cons, piece_eq, ← flatten]
    simp
  · simp only [place_eq, byteLength_append]
    omega

theorem left_content (lines_ok : TextLines graphemes lines)
    (split : lines = before ++ line :: after) {pre post : List Char}
    (content : line.content = pre ++ post) (pre_some : pre ≠ []) :
    ∃ pre' post', line.content = pre' ++ post' ∧
      horizontalOffset graphemes (placedDocument lines long) (place before pre) false =
        some (place before pre') ∧ place before pre' < place before pre := by
  subst split
  have text_eq := lines_ok.line_parts.2.1.textOf_eq
  rw [content] at text_eq
  obtain ⟨front, piece, back, inner, rest, pieces, piece_eq, inner_some, rfl⟩ :=
    exists_piece_left text_eq pre_some
  obtain ⟨parts, last, segments⟩ :=
    (List.eq_nil_or_concat' _).resolve_left (graphemes.segment_ne_nil inner_some)
  have flatten := graphemes.flatten_segment inner
  rw [segments, List.flatten_append, List.flatten_singleton] at flatten
  have last_some := graphemes.ne_nil_of_mem inner last (by rw [segments]; simp)
  have positive := Nat.pos_of_ne_zero (mt Slices.byteLength_eq_zero.mp last_some)
  refine ⟨textOf front ++ parts.flatten, last ++ (rest ++ textOf back), ?_,
    left_inside lines_ok pieces piece_eq segments, ?_⟩
  · rw [content, ← text_eq, pieces, textOf_append, textOf_cons, piece_eq, ← flatten]
    simp
  · rw [← flatten]
    simp only [place_eq, byteLength_append]
    omega

theorem right_moves (lines_ok : TextLines graphemes lines) {offset : Nat}
    (boundary : Boundary (linesText lines) offset) :
    ∃ next, horizontalOffset graphemes (placedDocument lines long) offset true = some next ∧
      CaretPosition (linesText lines) next ∧
        (offset < next ∨ offset = byteLength (linesText lines) ∧ next = offset) := by
  by_cases lines_some : lines = []
  · subst lines_some
    have zero : offset = 0 := Nat.le_zero.mp boundary.le
    subst zero
    exact ⟨0, rfl, end_position [], .inr ⟨rfl, rfl⟩⟩
  obtain ⟨before, line, after, split, bound, inside, place_or⟩ := locate lines_some boundary
  have behind : place before line.content ≤ offset → ∃ next,
      horizontalOffset graphemes (placedDocument lines long) offset true = some next ∧
        CaretPosition (linesText lines) next ∧
          (offset < next ∨ offset = byteLength (linesText lines) ∧ next = offset) := by
    intro behind
    have moved := @right_behind graphemes before after line long offset behind inside
    rw [← split] at moved
    refine ⟨_, moved, lineEnd_position lines_ok split, ?_⟩
    by_cases last : after = []
    · subst last
      have text : place before line.text = byteLength (linesText lines) := by
        simp [split, place, linesText]
      omega
    · exact .inl (inside last)
  rcases place_or with ⟨pre, post, content, rfl⟩ | strictly
  · by_cases post_some : post = []
    · rw [post_some, List.append_nil] at content
      exact behind (by rw [content])
    · obtain ⟨pre', post', content', moved, less⟩ :=
        @right_content graphemes lines before after line long lines_ok split pre post content
          post_some
      exact ⟨_, moved, content_position lines_ok split content', .inl less⟩
  · exact behind (Nat.le_of_lt strictly)

theorem left_moves (lines_ok : TextLines graphemes lines) {offset : Nat}
    (boundary : Boundary (linesText lines) offset) :
    ∃ previous, horizontalOffset graphemes (placedDocument lines long) offset false =
        some previous ∧ CaretPosition (linesText lines) previous ∧
        (previous < offset ∨ offset = 0 ∧ previous = 0) := by
  by_cases lines_some : lines = []
  · subst lines_some
    have zero : offset = 0 := Nat.le_zero.mp boundary.le
    subst zero
    exact ⟨0, rfl, end_position [], .inr ⟨rfl, rfl⟩⟩
  obtain ⟨before, line, after, split, bound, inside, place_or⟩ := locate lines_some boundary
  rcases place_or with ⟨pre, post, content, rfl⟩ | strictly
  · by_cases pre_some : pre = []
    · subst pre_some
      rcases List.eq_nil_or_concat' before with rfl | ⟨before, previous, rfl⟩
      · have zero := content_position lines_ok split content
        rw [List.nil_append] at split
        rw [split] at lines_ok zero ⊢
        exact ⟨0, left_zero lines_ok, zero, .inr ⟨rfl, rfl⟩⟩
      · have split' : lines = before ++ previous :: line :: after := by rw [split]; simp
        have moved := @left_start graphemes before after line long previous (split ▸ lines_ok)
        rw [← split] at moved
        refine ⟨_, moved, content_position lines_ok split' (List.append_nil _).symm, .inl ?_⟩
        have ending := (split' ▸ lines_ok).ending_some (List.cons_ne_nil _ _)
        have size := congrArg byteLength (linesText_append before [previous])
        rw [byteLength_append, linesText_cons, byteLength_append, byteLength_append] at size
        rw [place_eq, place_eq]
        omega
    · obtain ⟨pre', post', content', moved, less⟩ :=
        @left_content graphemes lines before after line long lines_ok split pre post content
          pre_some
      exact ⟨_, moved, content_position lines_ok split content', .inl less⟩
  · have moved := @left_behind graphemes before after line long offset strictly inside
    rw [← split] at moved
    exact ⟨_, moved, content_position lines_ok split (List.append_nil _).symm, .inl strictly⟩

end Moves

/-! ## Keys -/

def ValidState (document : SourceDocument) (state : SelectionState) : Prop :=
  ∀ selection, state.selection = some selection →
    ∃ text, document.selectionText selection = some (.ok text)

theorem selectionText_iff {document : SourceDocument} {selection : SourceSelection} :
    (∃ text, document.selectionText selection = some (.ok text)) ↔
      Boundary document.source selection.anchor ∧ Boundary document.source selection.caret := by
  have ends : Boundary document.source (min selection.anchor selection.caret) ∧
        Boundary document.source (max selection.anchor selection.caret) ↔
      Boundary document.source selection.anchor ∧ Boundary document.source selection.caret := by
    rcases Nat.le_total selection.anchor selection.caret with order | order
    · rw [Nat.min_eq_left order, Nat.max_eq_right order]
    · rw [Nat.min_eq_right order, Nat.max_eq_left order, and_comm]
  rw [← ends]
  constructor
  · rintro ⟨text, found⟩
    rw [SourceDocument.selectionText, SourceDocument.validSelection] at found
    split at found
    · cases found
    · next range valid =>
        split at valid
        · cases valid
        · next inside =>
            rw [not_or, not_or, not_not, not_not, isCharBoundary_iff, isCharBoundary_iff] at inside
            exact inside.2
  · rintro ⟨start, stop⟩
    have bound := stop.le
    obtain ⟨front, text, back, split, start_eq, stop_eq⟩ := start.between stop (by omega)
    refine ⟨text, ?_⟩
    have valid : document.validSelection selection = .ok selection.normalized := by
      rw [SourceDocument.validSelection, if_neg]
      rw [not_or, not_or, not_not, not_not, isCharBoundary_iff, isCharBoundary_iff]
      exact ⟨Nat.not_lt.mpr bound, start, stop⟩
    rw [SourceDocument.selectionText, valid]
    simp only [SourceSelection.normalized, start_eq, stop_eq]
    rw [split, Slices.slice_append]
    rfl

section Keys

variable {long : Bool}

theorem caretFragment_some {document : SourceDocument} {state : SelectionState}
    {offset index : Nat} (found : caretFragment document state offset = some index) :
    ∃ fragment, document.fragments[index]? = some fragment := by
  rw [caretFragment] at found
  split at found
  · next kept some_kept =>
      cases found
      have passes := (Option.filter_eq_some_iff.mp some_kept).2
      cases here : document.fragments[index]? with
      | none => simp [here] at passes
      | some fragment => exact ⟨fragment, rfl⟩
  · rw [fragmentForOffset] at found
    split at found
    · cases found
    · next some =>
        cases found
        have positive : 0 < document.fragments.length := by
          rw [List.isEmpty_iff] at some
          exact List.length_pos_of_ne_nil some
        exact ⟨_, List.getElem?_eq_getElem (by omega)⟩

theorem clamp_boundary {source : List Char} {value low high : Nat} (order : low ≤ high)
    (value_boundary : Boundary source value) (low_boundary : Boundary source low)
    (high_boundary : Boundary source high) :
    ∃ within, clamp value low high = some within ∧ Boundary source within ∧ low ≤ within := by
  refine ⟨_, if_pos order, ?_, Nat.le_max_left _ _⟩
  rcases Nat.le_total value high with below | above
  · rw [Nat.min_eq_left below]
    rcases Nat.le_total low value with inside | outside
    · rw [Nat.max_eq_right inside]
      exact value_boundary
    · rw [Nat.max_eq_left outside]
      exact low_boundary
  · rw [Nat.min_eq_right above, Nat.max_eq_right order]
    exact high_boundary

theorem graphemeIndices_boundary {text : List Char} {start : Nat}
    (member : start ∈ graphemeIndices graphemes text ++ [byteLength text]) :
    Boundary text start := by
  rcases List.mem_append.mp member with member | member
  · obtain ⟨range, inside, rfl⟩ := List.mem_map.mp member
    obtain ⟨front, part, back, segments, rfl⟩ := (Ranges.mem_spans _).mp inside
    have flatten := graphemes.flatten_segment text
    rw [segments, List.flatten_append] at flatten
    rw [Nat.zero_add, total_byteLength]
    exact ⟨_, _, flatten.symm, rfl⟩
  · rw [List.mem_singleton.mp member]
    exact ⟨text, [], (List.append_nil _).symm, rfl⟩

theorem graphemeIndices_find {front text back pre post : List Char} (split : text = pre ++ post) :
    ∃ start, (graphemeIndices graphemes text ++ [byteLength text]).find?
        (byteLength pre ≤ ·) = some start ∧
      Boundary (front ++ (text ++ back)) (byteLength front + start) := by
  have size := congrArg byteLength split
  rw [byteLength_append] at size
  cases found : (graphemeIndices graphemes text ++ [byteLength text]).find?
      (byteLength pre ≤ ·) with
  | none =>
      have fails := List.find?_eq_none.mp found (byteLength text) (by simp)
      rw [decide_eq_true_eq] at fails
      omega
  | some start =>
      obtain ⟨first, second, rfl, rfl⟩ := graphemeIndices_boundary (List.mem_of_find?_eq_some found)
      exact ⟨_, rfl, front ++ first, second ++ back, by simp, (byteLength_append _ _).symm⟩

theorem verticalTarget_boundary (lines_ok : TextLines graphemes lines) {state : SelectionState}
    {caret : Nat} (boundary : Boundary (linesText lines) caret) (up : Bool) :
    ∃ target, verticalTarget graphemes (placedDocument lines long) state caret up = some target ∧
      Boundary (linesText lines) target.offset := by
  cases found : caretFragment (placedDocument lines long) state caret with
  | none => exact ⟨⟨0, none, none⟩, by rw [verticalTarget, found], .zero _⟩
  | some index =>
      obtain ⟨current, at_index⟩ := caretFragment_some found
      have inside := (List.getElem?_eq_some_iff.mp at_index).1
      obtain ⟨front, text, back, split, range⟩ :=
        fragment_split lines_ok (List.mem_of_getElem? at_index)
      have start : Boundary (linesText lines) current.source.start := by
        rw [split, range]
        exact .intro _ _
      have stop : Boundary (linesText lines) current.source.stop := by
        rw [split, range, ← List.append_assoc]
        exact .intro _ _
      have order : current.source.start ≤ current.source.stop := by
        rw [range, byteLength_append]
        exact Nat.le_add_right _ _
      obtain ⟨within, within_eq, within_boundary, from_le⟩ :=
        clamp_boundary order boundary start stop
      obtain ⟨preferred, reads⟩ : ∃ preferred, state.preferredColumn = some preferred ∨
          state.preferredColumn = none ∧
            (slice (linesText lines) current.source.start within).map List.length =
              some preferred := by
        cases state.preferredColumn with
        | some column => exact ⟨column, .inl rfl⟩
        | none =>
            obtain ⟨before, middle, after, whole, start_eq, within_eq⟩ :=
              start.between within_boundary from_le
            refine ⟨middle.length, .inr ⟨rfl, ?_⟩⟩
            rw [start_eq, within_eq, whole]
            simp only [Slices.slice_append, Option.map_some]
      obtain ⟨next, next_eq⟩ : ∃ next, (if up then index - 1 else
          min (index + 1) ((placedDocument lines long).fragments.length - 1)) = next := ⟨_, rfl⟩
      have next_inside : next < (placedDocument lines long).fragments.length := by
        rw [← next_eq]
        split
        · omega
        · omega
      obtain ⟨fragment, at_next⟩ : ∃ fragment,
          (placedDocument lines long).fragments[next]? = some fragment :=
        ⟨_, List.getElem?_eq_getElem next_inside⟩
      obtain ⟨front, text, back, split, range⟩ :=
        fragment_split lines_ok (List.mem_of_getElem? at_next)
      have text_eq : (placedDocument lines long).fragmentText next = some text := by
        rw [SourceDocument.fragmentText, at_next, Option.bind_some, range, placedDocument, split,
          Slices.slice_append]
      have cut := (List.take_append_drop (min preferred text.length) text).symm
      have cursor := (@fragmentCursorToSource_eq_ok (placedDocument lines long) next fragment
        front text back at_next split range (min preferred text.length) _).mpr
        ⟨_, _, cut, (List.length_take_of_le (Nat.min_le_right _ _)).symm, rfl⟩
      obtain ⟨start, find, start_boundary⟩ :=
        @graphemeIndices_find graphemes front text back _ _ cut
      rw [← split] at start_boundary
      have relative : byteLength (front ++ text.take (min preferred text.length)) -
          fragment.source.start = byteLength (text.take (min preferred text.length)) := by
        rw [range, byteLength_append]
        exact Nat.add_sub_cancel_left _ _
      refine ⟨⟨fragment.source.start + start, some next, some preferred⟩, ?_, ?_⟩
      · have source : (placedDocument lines long).source = linesText lines := rfl
        simp only [verticalTarget, found, at_index, within_eq, source, next_eq, text_eq, at_next,
          Option.bind_eq_bind, Option.bind_some]
        rcases reads with column | ⟨column, counted⟩
        · simp only [column, cursor, relative, find, Option.bind_some]
        · simp only [column, counted, cursor, relative, find, Option.bind_some]
      · rw [range]
        exact start_boundary

theorem edgeTarget_boundary {caret : Nat} (lines_ok : TextLines graphemes lines)
    (boundary : Boundary (linesText lines) caret) (toEnd wholeText : Bool) :
    ∃ target, edgeTarget (placedDocument lines long) caret toEnd wholeText = some target ∧
      Boundary (linesText lines) target := by
  rw [edgeTarget]
  split
  · refine ⟨_, rfl, ?_⟩
    split
    · exact (end_position _).boundary
    · exact .zero _
  · by_cases lines_some : lines = []
    · subst lines_some
      exact ⟨0, rfl, .zero _⟩
    · obtain ⟨before, line, after, rfl, start, stop, inside⟩ := exists_line lines_some boundary.le
      rw [place_eq] at inside
      have found := @lineForOffset_at before after line long caret start inside
      simp only [found, getElem?_lines, Option.map_some]
      refine ⟨_, rfl, ?_⟩
      have first := (content_position lines_ok rfl (List.nil_append _).symm).boundary
      have last := (content_position lines_ok rfl (List.append_nil _).symm).boundary
      rw [place_eq] at first last
      split
      · exact last
      · exact first

theorem keyTarget_boundary (lines_ok : TextLines graphemes lines) {state : SelectionState}
    {old : SourceSelection} (anchor : Boundary (linesText lines) old.anchor)
    (caret : Boundary (linesText lines) old.caret) (key : Key) (shift command : Bool) :
    ∃ target, keyTarget graphemes (placedDocument lines long) state old key shift command =
        some target ∧
      ∀ found, target = some found → Boundary (linesText lines) found.offset := by
  have range : Boundary (linesText lines) old.normalized.start ∧
      Boundary (linesText lines) old.normalized.stop := by
    rcases Nat.le_total old.anchor old.caret with order | order
    · rw [SourceSelection.normalized, Nat.min_eq_left order, Nat.max_eq_right order]
      exact ⟨anchor, caret⟩
    · rw [SourceSelection.normalized, Nat.min_eq_right order, Nat.max_eq_left order]
      exact ⟨caret, anchor⟩
  have plain : ∀ {target : Option Nat}, (∃ offset, target = some offset ∧
      Boundary (linesText lines) offset) →
      ∃ found, target.map (fun offset => some (Target.mk offset none none)) = some found ∧
        ∀ inner, found = some inner → Boundary (linesText lines) inner.offset := by
    rintro target ⟨offset, rfl, boundary⟩
    exact ⟨_, rfl, fun inner same => by cases same; exact boundary⟩
  have moves : ∀ right, ∃ offset, horizontalOffset graphemes (placedDocument lines long) old.caret
      right = some offset ∧ Boundary (linesText lines) offset := by
    intro right
    cases right with
    | true =>
        obtain ⟨next, moved, position, -⟩ := @right_moves graphemes lines long lines_ok _ caret
        exact ⟨next, moved, position.boundary⟩
    | false =>
        obtain ⟨next, moved, position, -⟩ := @left_moves graphemes lines long lines_ok _ caret
        exact ⟨next, moved, position.boundary⟩
  have edges := @edgeTarget_boundary graphemes lines long old.caret lines_ok caret
  have vertical : ∀ up, ∃ found,
      (verticalTarget graphemes (placedDocument lines long) state old.caret up).map some =
        some found ∧ ∀ inner, found = some inner → Boundary (linesText lines) inner.offset := by
    intro up
    obtain ⟨target, found, boundary⟩ :=
      @verticalTarget_boundary graphemes lines long lines_ok state _ caret up
    exact ⟨some target, by rw [found]; rfl, fun inner same => by cases same; exact boundary⟩
  cases key with
  | arrowLeft =>
      simp only [keyTarget]
      split
      · exact ⟨_, rfl, fun inner same => by cases same; exact range.1⟩
      split
      · exact plain (moves false)
      · exact plain (edges false false)
  | arrowRight =>
      simp only [keyTarget]
      split
      · exact ⟨_, rfl, fun inner same => by cases same; exact range.2⟩
      split
      · exact plain (moves true)
      · exact plain (edges true false)
  | arrowUp => exact vertical true
  | arrowDown => exact vertical false
  | home => exact plain (edges false command)
  | endKey => exact plain (edges true command)
  | other => exact ⟨none, rfl, nofun⟩

theorem navigate_valid (lines_ok : TextLines graphemes lines) {state : SelectionState}
    (valid : ValidState (placedDocument lines long) state) (key : Key) (shift command : Bool) :
    ∃ next, navigate graphemes (placedDocument lines long) state key shift command = some next ∧
      ValidState (placedDocument lines long) next := by
  have old : Boundary (linesText lines) (state.selection.getD ⟨0, 0⟩).anchor ∧
      Boundary (linesText lines) (state.selection.getD ⟨0, 0⟩).caret := by
    cases selected : state.selection with
    | none => exact ⟨.zero _, .zero _⟩
    | some selection => exact selectionText_iff.mp (valid selection selected)
  obtain ⟨target, found, boundary⟩ :=
    @keyTarget_boundary graphemes lines long lines_ok state _ old.1 old.2 key shift command
  rw [navigate]
  simp only [found, Option.bind_eq_bind, Option.bind_some]
  cases target with
  | none => exact ⟨state, rfl, valid⟩
  | some target =>
      have target_boundary := boundary target rfl
      refine ⟨_, rfl, ?_⟩
      intro selection selected
      cases selected
      refine selectionText_iff.mpr ⟨?_, target_boundary⟩
      split
      · exact old.1
      · exact target_boundary

theorem navigate_run (lines_ok : TextLines graphemes lines) (keys : List (Key × Bool × Bool))
    {state : SelectionState} (valid : ValidState (placedDocument lines long) state) :
    ∃ next, keys.foldlM (fun state (key, shift, command) =>
        navigate graphemes (placedDocument lines long) state key shift command) state = some next ∧
      ValidState (placedDocument lines long) next := by
  induction keys generalizing state with
  | nil => exact ⟨state, rfl, valid⟩
  | cons pressed keys induction =>
      obtain ⟨next, moved, next_valid⟩ :=
        navigate_valid lines_ok valid pressed.1 pressed.2.1 pressed.2.2
      obtain ⟨final, run, final_valid⟩ := induction next_valid
      refine ⟨final, ?_, final_valid⟩
      rw [List.foldlM_cons]
      simp only [moved, Option.bind_eq_bind, Option.bind_some]
      exact run

end Keys

end Positions

/-! ## The whole document -/

/-- The two directions agree on every stop, nothing is skipped and no key panics. -/
structure Consistent (graphemes : Segmentation) (document : SourceDocument) : Prop where
  right : ∀ offset, CaretPosition document.source offset →
    ∃ next, horizontalOffset graphemes document offset true = some next ∧
      CaretPosition document.source next ∧
        (offset < next ∨ offset = byteLength document.source ∧ next = offset)
  left : ∀ offset, CaretPosition document.source offset →
    ∃ previous, horizontalOffset graphemes document offset false = some previous ∧
      CaretPosition document.source previous ∧ (previous < offset ∨ offset = 0 ∧ previous = 0)
  /-- At the end of the text no move to the right is left to undo. -/
  left_right : ∀ offset, Reachable graphemes document offset →
    offset ≠ byteLength document.source →
      ∀ next, horizontalOffset graphemes document offset true = some next →
        horizontalOffset graphemes document next false = some offset
  right_left : ∀ offset, Reachable graphemes document offset → offset ≠ 0 →
    ∀ previous, horizontalOffset graphemes document offset false = some previous →
      horizontalOffset graphemes document previous true = some offset
  graphemes_visited : ∀ line ∈ document.lines, ∃ content,
    slice document.source line.content.start line.content.stop = some content ∧
      ∀ grapheme ∈ spans byteLength line.content.start (graphemes.segment content),
        Reachable graphemes document grapheme.start ∧ Reachable graphemes document grapheme.stop
  cuts_visited : ∀ fragment ∈ document.fragments,
    Reachable graphemes document fragment.source.start ∧
      Reachable graphemes document fragment.source.stop
  end_visited : Reachable graphemes document (byteLength document.source)
  keys : ∀ (keys : List (Key × Bool × Bool)) (state : SelectionState), ValidState document state →
    ∃ next, keys.foldlM (fun state (key, shift, command) =>
        navigate graphemes document state key shift command) state = some next ∧
      ValidState document next

theorem placedDocument_consistent {graphemes : Segmentation} (cuts : graphemes.CutsBetween)
    {lines : List TextLine} (lines_ok : TextLines graphemes lines) (long : Bool) :
    Consistent graphemes (placedDocument lines long) := by
  refine ⟨fun offset position => right_moves lines_ok position.boundary,
    fun offset position => left_moves lines_ok position.boundary, ?_, ?_, ?_, ?_, ?_,
    fun keys state valid => navigate_run lines_ok keys valid⟩
  · intro offset reachable before_end next moved
    rcases (reachable.stop cuts lines_ok).next lines_ok with final | ⟨following, adjacent, -⟩
    · exact absurd final before_end
    · rw [adjacent.right cuts lines_ok] at moved
      cases moved
      exact adjacent.left cuts lines_ok
  · intro offset reachable behind_start previous moved
    rcases (reachable.stop cuts lines_ok).previous lines_ok with zero | ⟨earlier, adjacent, -⟩
    · exact absurd zero behind_start
    · rw [adjacent.left cuts lines_ok] at moved
      cases moved
      exact adjacent.right cuts lines_ok
  · intro logical member
    obtain ⟨index, at_index⟩ := List.mem_iff_getElem?.mp member
    obtain ⟨before, line, after, rfl, -, rfl⟩ := exists_of_placeLines at_index
    refine ⟨line.content, ?_, ?_⟩
    · rw [Nat.zero_add, Nat.zero_add, lineAt, placedDocument, linesText_append, linesText_cons,
        ← byteLength_append, Slices.slice_append]
    · intro grapheme inside
      rw [Nat.zero_add, Nat.zero_add] at inside
      obtain ⟨start, stop⟩ := grapheme_stops cuts lines_ok rfl inside
      exact ⟨start.reachable cuts lines_ok, stop.reachable cuts lines_ok⟩
  · intro fragment member
    obtain ⟨start, stop⟩ := fragment_stops lines_ok member
    exact ⟨start.reachable cuts lines_ok, stop.reachable cuts lines_ok⟩
  · exact Stop.reachable cuts lines_ok (.inr rfl)

/-- The caret moves consistently over every prepared document. -/
theorem caret_moves_consistently (graphemes : Segmentation) (cuts : graphemes.CutsBetween)
    (source : List Char) {document : SourceDocument}
    (prepared : prepare graphemes source = some document) : Consistent graphemes document := by
  obtain ⟨lines, lines_ok, text_eq, result⟩ := prepare_places graphemes source
  obtain rfl : linesText lines = source := text_eq
  rw [result] at prepared
  cases prepared
  exact placedDocument_consistent cuts lines_ok _

theorem caret_moves_consistently_two_lines :
    Consistent Segmentation.characters
      { source := ['a', '\r', '\n', 'b']
        lines := [⟨⟨0, 1⟩, ⟨1, 3⟩, ⟨0, 1⟩⟩, ⟨⟨3, 4⟩, ⟨4, 4⟩, ⟨1, 2⟩⟩]
        fragments := [⟨0, ⟨0, 1⟩, false, false⟩, ⟨1, ⟨3, 4⟩, false, false⟩]
        hasLongLines := false } :=
  caret_moves_consistently Segmentation.characters Segmentation.characters_cutsBetween
    ['a', '\r', '\n', 'b'] (by decide)

end TerminalCanvas.App.FileViewer
