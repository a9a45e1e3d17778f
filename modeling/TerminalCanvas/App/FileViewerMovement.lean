import TerminalCanvas.App.FileViewerCaret

/-! # The caret visits every stop

The stops of the caret are the borders of graphemes in the fragments, and the end of the
text. Two stops are adjacent where a grapheme or a line end lies between them. -/

namespace TerminalCanvas.App.FileViewer

open Json (byteLength byteLength_append)
open Ranges (Range spans)
open Slices (slice Boundary)

section Stops

variable (graphemes : Segmentation) (lines : List TextLine)

inductive Adjacent : Nat → Nat → Prop
  | grapheme {before after : List TextLine} {line : TextLine} {front back : List Piece}
      {piece : Piece} {parts others : List (List Char)} {grapheme : List Char}
      (split : lines = before ++ line :: after) (pieces : line.pieces = front ++ piece :: back)
      (segments : graphemes.segment piece.text = parts ++ grapheme :: others) :
      Adjacent (place before (textOf front ++ parts.flatten))
        (place before (textOf front ++ (parts.flatten ++ grapheme)))
  | lineEnd {before after : List TextLine} {line : TextLine}
      (split : lines = before ++ line :: after) (ending : line.ending ≠ []) :
      Adjacent (place before line.content) (place before line.text)

def Border (offset : Nat) : Prop :=
  ∃ before line after front piece back parts others, lines = before ++ line :: after ∧
    line.pieces = front ++ piece :: back ∧ graphemes.segment piece.text = parts ++ others ∧
      offset = place before (textOf front ++ parts.flatten)

def Stop (offset : Nat) : Prop :=
  Border graphemes lines offset ∨ offset = byteLength (linesText lines)

end Stops

section Moves

variable {graphemes : Segmentation} {lines : List TextLine} {long : Bool}

theorem Adjacent.right (cuts : graphemes.CutsBetween) (lines_ok : TextLines graphemes lines)
    {offset next : Nat} (adjacent : Adjacent graphemes lines offset next) :
    horizontalOffset graphemes (placedDocument lines long) offset true = some next := by
  cases adjacent with
  | @grapheme before after line front back piece parts others grapheme split pieces segments =>
      subst split
      have text := graphemes.flatten_segment piece.text
      rw [segments, List.flatten_append] at text
      exact right_inside lines_ok pieces text.symm (cuts _ _ _ segments).2
  | @lineEnd before after line split ending =>
      subst split
      refine right_behind (Nat.le_refl _) fun _ => ?_
      have positive := Nat.pos_of_ne_zero (mt Slices.byteLength_eq_zero.mp ending)
      rw [place_eq, place_eq, TextLine.text, byteLength_append]
      omega

theorem Adjacent.left (cuts : graphemes.CutsBetween) (lines_ok : TextLines graphemes lines)
    {offset next : Nat} (adjacent : Adjacent graphemes lines offset next) :
    horizontalOffset graphemes (placedDocument lines long) next false = some offset := by
  cases adjacent with
  | @grapheme before after line front back piece parts others grapheme split pieces segments =>
      subst split
      have text := graphemes.flatten_segment piece.text
      have segments' : graphemes.segment piece.text = (parts ++ [grapheme]) ++ others := by
        rw [segments, List.append_assoc, List.singleton_append]
      rw [segments', List.flatten_append] at text
      have moved := @left_inside graphemes _ _ _ long _ _ _ lines_ok pieces _ _ _ _ text.symm
        (cuts _ _ _ segments').1
      rw [List.flatten_append, List.flatten_singleton] at moved
      exact moved
  | @lineEnd before after line split ending =>
      subst split
      have positive := Nat.pos_of_ne_zero (mt Slices.byteLength_eq_zero.mp ending)
      cases after with
      | nil =>
          refine left_behind ?_ (fun some => absurd rfl some)
          rw [place_eq, place_eq, TextLine.text, byteLength_append]
          omega
      | cons next after =>
          have start : place before line.text = place (before ++ [line]) [] := by
            simp [place, linesText]
          have split : before ++ line :: next :: after = (before ++ [line]) ++ next :: after := by
            simp
          rw [split] at lines_ok ⊢
          rw [start]
          exact left_start lines_ok

theorem Adjacent.lt {offset next : Nat} (adjacent : Adjacent graphemes lines offset next) :
    offset < next := by
  cases adjacent with
  | @grapheme before after line front back piece parts others grapheme split pieces segments =>
      have some := graphemes.ne_nil_of_mem piece.text grapheme (by rw [segments]; simp)
      have positive := Nat.pos_of_ne_zero (mt Slices.byteLength_eq_zero.mp some)
      simp only [place_eq, byteLength_append]
      omega
  | @lineEnd before after line split ending =>
      have positive := Nat.pos_of_ne_zero (mt Slices.byteLength_eq_zero.mp ending)
      rw [place_eq, place_eq, TextLine.text, byteLength_append]
      omega

/-! ## Borders -/

section Borders

variable {before after : List TextLine} {line : TextLine}

theorem lineStart_border (lines_ok : TextLines graphemes lines)
    (split : lines = before ++ line :: after) : Border graphemes lines (place before []) := by
  subst split
  obtain ⟨piece, back, pieces⟩ := List.exists_cons_of_ne_nil lines_ok.line_parts.2.1.ne_nil
  exact ⟨before, line, after, [], piece, back, [], _, rfl, pieces, rfl, rfl⟩

theorem contentEnd_border (lines_ok : TextLines graphemes lines)
    (split : lines = before ++ line :: after) :
    Border graphemes lines (place before line.content) := by
  subst split
  have cuts := lines_ok.line_parts.2.1
  obtain ⟨front, piece, pieces⟩ := (List.eq_nil_or_concat' line.pieces).resolve_left cuts.ne_nil
  refine ⟨before, line, after, front, piece, [], _, [], rfl, pieces, (List.append_nil _).symm, ?_⟩
  rw [graphemes.flatten_segment, ← cuts.textOf_eq, pieces, textOf_append, textOf_cons, textOf_nil,
    List.append_nil]

theorem piece_some_of_two (lines_ok : TextLines graphemes lines)
    (split : lines = before ++ line :: after) {front back : List Piece} {first second : Piece}
    (pieces : line.pieces = front ++ first :: second :: back) :
    first.text ≠ [] ∧ second.text ≠ [] := by
  subst split
  have cuts := lines_ok.line_parts.2.1
  rw [pieces] at cuts
  generalize line.content = content at cuts
  generalize all_eq : front ++ first :: second :: back = all at cuts
  cases cuts with
  | empty => simp [List.append_eq_singleton_iff] at all_eq
  | filled content_some packs =>
      have all_some := packs.piece_some (graphemes.ne_nil_of_mem _)
      rw [← all_eq] at all_some
      exact ⟨all_some first (by simp), all_some second (by simp)⟩

theorem Border.next (lines_ok : TextLines graphemes lines) {offset : Nat}
    (border : Border graphemes lines offset) :
    offset = byteLength (linesText lines) ∨
      ∃ next, Adjacent graphemes lines offset next ∧ Stop graphemes lines next := by
  obtain ⟨before, line, after, front, piece, back, parts, others, split, pieces, segments, rfl⟩ :=
    border
  cases others with
  | cons grapheme others =>
      refine .inr ⟨_, .grapheme split pieces segments,
        .inl ⟨before, line, after, front, piece, back, parts ++ [grapheme], others, split, pieces,
          by rw [segments]; simp, by simp⟩⟩
  | nil =>
      have text := graphemes.flatten_segment piece.text
      rw [segments, List.append_nil] at text
      cases back with
      | cons next back =>
          have next_some := (piece_some_of_two lines_ok split pieces).2
          obtain ⟨grapheme, others, next_segments⟩ :=
            List.exists_cons_of_ne_nil (graphemes.segment_ne_nil next_some)
          have pieces' : line.pieces = (front ++ [piece]) ++ next :: back := by rw [pieces]; simp
          have same : place before (textOf front ++ parts.flatten) =
              place before (textOf (front ++ [piece]) ++ ([] : List (List Char)).flatten) := by
            simp [text]
          rw [same]
          exact .inr ⟨_, .grapheme split pieces' next_segments, .inl ⟨before, line, after, _, next,
            back, [grapheme], others, split, pieces', next_segments, by simp⟩⟩
      | nil =>
          have content : textOf front ++ parts.flatten = line.content := by
            subst split
            rw [← lines_ok.line_parts.2.1.textOf_eq, pieces]
            simp [text]
          rw [content]
          by_cases ending : line.ending = []
          · subst split
            have last : after = [] := by
              by_contra some
              have positive := lines_ok.ending_some some
              rw [ending, Slices.byteLength_nil] at positive
              omega
            subst last
            exact .inl (by simp [place, linesText, TextLine.text, ending])
          · refine .inr ⟨_, .lineEnd split ending, ?_⟩
            cases after with
            | nil => exact .inr (by simp [split, place, linesText])
            | cons next after =>
                have split' : lines = (before ++ [line]) ++ next :: after := by rw [split]; simp
                have start : place before line.text = place (before ++ [line]) [] := by
                  simp [place, linesText]
                rw [start]
                exact .inl (lineStart_border lines_ok split')

theorem Border.previous (lines_ok : TextLines graphemes lines) {offset : Nat}
    (border : Border graphemes lines offset) :
    offset = 0 ∨ ∃ previous, Adjacent graphemes lines previous offset ∧
      Stop graphemes lines previous := by
  obtain ⟨before, line, after, front, piece, back, parts, others, split, pieces, segments, rfl⟩ :=
    border
  rcases List.eq_nil_or_concat' parts with rfl | ⟨parts, grapheme, rfl⟩
  · rw [List.flatten_nil, List.append_nil]
    rcases List.eq_nil_or_concat' front with rfl | ⟨front, previous, rfl⟩
    · rcases List.eq_nil_or_concat' before with rfl | ⟨before, previous, rfl⟩
      · exact .inl rfl
      · have split' : lines = before ++ previous :: line :: after := by rw [split]; simp
        have start : place (before ++ [previous]) (textOf []) = place before previous.text := by
          simp [place, linesText]
        have ending : previous.ending ≠ [] := by
          intro none
          have positive := (split' ▸ lines_ok).ending_some (List.cons_ne_nil _ _)
          rw [none, Slices.byteLength_nil] at positive
          omega
        rw [start]
        exact .inr ⟨_, .lineEnd split' ending, .inl (contentEnd_border lines_ok split')⟩
    · have pieces' : line.pieces = front ++ previous :: piece :: back := by rw [pieces]; simp
      have previous_some := (piece_some_of_two lines_ok split pieces').1
      obtain ⟨parts, grapheme, previous_segments⟩ :=
        (List.eq_nil_or_concat' _).resolve_left (graphemes.segment_ne_nil previous_some)
      have text := graphemes.flatten_segment previous.text
      rw [previous_segments, List.flatten_append, List.flatten_singleton] at text
      have same : place before (textOf (front ++ [previous])) =
          place before (textOf front ++ (parts.flatten ++ grapheme)) := by
        simp [text]
      rw [same]
      exact .inr ⟨_, .grapheme split pieces' previous_segments, .inl ⟨before, line, after, front,
        previous, _, parts, [grapheme], split, pieces', previous_segments, rfl⟩⟩
  · rw [List.append_assoc, List.singleton_append] at segments
    rw [List.flatten_append, List.flatten_singleton]
    exact .inr ⟨_, .grapheme split pieces segments, .inl ⟨before, line, after, front, piece, back,
      parts, grapheme :: others, split, pieces, segments, rfl⟩⟩

end Borders

/-! ## Stops -/

theorem Stop.next (lines_ok : TextLines graphemes lines) {offset : Nat}
    (stop : Stop graphemes lines offset) :
    offset = byteLength (linesText lines) ∨
      ∃ next, Adjacent graphemes lines offset next ∧ Stop graphemes lines next := by
  rcases stop with border | final
  · exact border.next lines_ok
  · exact .inl final

theorem Stop.previous (lines_ok : TextLines graphemes lines) {offset : Nat}
    (stop : Stop graphemes lines offset) :
    offset = 0 ∨ ∃ previous, Adjacent graphemes lines previous offset ∧
      Stop graphemes lines previous := by
  rcases stop with border | rfl
  · exact border.previous lines_ok
  rcases List.eq_nil_or_concat' lines with rfl | ⟨before, line, rfl⟩
  · exact .inl rfl
  · have contentEnd := contentEnd_border lines_ok rfl
    have text : byteLength (linesText (before ++ [line])) = place before line.text := by
      simp [place, linesText]
    rw [text]
    by_cases ending : line.ending = []
    · rw [TextLine.text, ending, List.append_nil]
      exact contentEnd.previous lines_ok
    · exact .inr ⟨_, .lineEnd rfl ending, .inl contentEnd⟩

theorem stop_zero (lines_ok : TextLines graphemes lines) : Stop graphemes lines 0 := by
  cases lines with
  | nil => exact .inr rfl
  | cons line after => exact .inl (@lineStart_border graphemes _ [] after line lines_ok rfl)

theorem right_end :
    horizontalOffset graphemes (placedDocument lines long) (byteLength (linesText lines)) true =
      some (byteLength (linesText lines)) := by
  rcases List.eq_nil_or_concat' lines with rfl | ⟨before, line, rfl⟩
  · rfl
  · have text : byteLength (linesText (before ++ [line])) = place before line.text := by
      simp [place, linesText]
    rw [text]
    refine right_behind ?_ fun some => absurd rfl some
    rw [place_eq, place_eq, TextLine.text, byteLength_append]
    omega

/-- The offsets that the caret visits on its way from the start to the right. -/
inductive Reachable (graphemes : Segmentation) (document : SourceDocument) : Nat → Prop
  | start : Reachable graphemes document 0
  | right {offset next : Nat} (reachable : Reachable graphemes document offset)
      (moved : horizontalOffset graphemes document offset true = some next) :
      Reachable graphemes document next

theorem Reachable.stop (cuts : graphemes.CutsBetween) (lines_ok : TextLines graphemes lines)
    {offset : Nat} (reachable : Reachable graphemes (placedDocument lines long) offset) :
    Stop graphemes lines offset := by
  induction reachable with
  | start => exact stop_zero lines_ok
  | @right offset next reachable moved induction =>
      rcases induction.next lines_ok with rfl | ⟨following, adjacent, stop⟩
      · rw [right_end] at moved
        cases moved
        exact induction
      · rw [adjacent.right cuts lines_ok] at moved
        cases moved
        exact stop

theorem Stop.reachable (cuts : graphemes.CutsBetween) (lines_ok : TextLines graphemes lines)
    {offset : Nat} (stop : Stop graphemes lines offset) :
    Reachable graphemes (placedDocument lines long) offset := by
  induction offset using Nat.strong_induction_on with
  | h offset induction =>
      rcases stop.previous lines_ok with rfl | ⟨previous, adjacent, stop⟩
      · exact .start
      · exact .right (induction previous adjacent.lt stop) (adjacent.right cuts lines_ok)

/-! ## Graphemes of a line -/

theorem Packs.border (cuts : graphemes.CutsBetween) {parts : List (List Char)}
    {pieces : List Piece} (packs : Packs parts pieces) (some : pieces ≠ []) {text : List Char}
    {earlier front back : List (List Char)} (segments : graphemes.segment text = earlier ++ parts)
    (split : parts = front ++ back) :
    ∃ first piece last inner others, pieces = first ++ piece :: last ∧
      graphemes.segment piece.text = inner ++ others ∧
        front.flatten = textOf first ++ inner.flatten := by
  induction packs generalizing earlier front with
  | nil => exact absurd rfl some
  | @whole group later pieces group_some fits rest induction =>
      have middle : graphemes.segment group.flatten = group := cuts.middle segments
      rcases List.append_eq_append_iff.mp split with ⟨beyond, rfl, later_eq⟩ | ⟨rest', rfl, -⟩
      · by_cases here : beyond = []
        · subst here
          exact ⟨[], _, pieces, group, [], rfl, by rw [middle, List.append_nil], by simp⟩
        · have pieces_some : pieces ≠ [] :=
            rest.ne_nil (by rw [later_eq]; simp [here])
          obtain ⟨first, piece, last, inner, others, rfl, inside, flatten⟩ :=
            @induction pieces_some (earlier ++ group) beyond (by rw [segments, List.append_assoc])
              later_eq
          exact ⟨_ :: first, piece, last, inner, others, rfl, inside, by simp [flatten]⟩
      · exact ⟨[], _, pieces, front, rest', rfl, middle, rfl⟩
  | @split texts later pieces long fit rest induction =>
      have chunks_some : cutPieces false texts ≠ [] := by
        cases texts with
        | nil => simp [byteLength] at long
        | cons text texts => exact List.cons_ne_nil _ _
      cases front with
      | nil =>
          obtain ⟨piece, last, chunks⟩ := List.exists_cons_of_ne_nil chunks_some
          exact ⟨[], piece, last ++ pieces, [], _, by rw [chunks]; rfl, rfl, rfl⟩
      | cons grapheme front =>
          obtain ⟨rfl, later_eq⟩ := List.cons.inj split
          by_cases here : front = []
          · subst here
            obtain ⟨first, piece, chunks⟩ :=
              (List.eq_nil_or_concat' _).resolve_left chunks_some
            have whole := textOf_cutPieces false texts
            rw [chunks] at whole
            refine ⟨first, piece, pieces, _, [], by rw [chunks]; simp, (List.append_nil _).symm, ?_⟩
            rw [graphemes.flatten_segment, List.flatten_singleton, ← whole]
            simp
          · have pieces_some : pieces ≠ [] := rest.ne_nil (by rw [later_eq]; simp [here])
            obtain ⟨first, piece, last, inner, others, rfl, inside, flatten⟩ :=
              @induction pieces_some (earlier ++ [texts.flatten]) front (by rw [segments]; simp)
                later_eq
            exact ⟨cutPieces false texts ++ first, piece, last, inner, others, by simp, inside,
              by simp [flatten]⟩

theorem Cuts.border (between : graphemes.CutsBetween) {content : List Char} {pieces : List Piece}
    (cuts : Cuts graphemes content pieces) {front back : List (List Char)}
    (segments : graphemes.segment content = front ++ back) :
    ∃ first piece last inner others, pieces = first ++ piece :: last ∧
      graphemes.segment piece.text = inner ++ others ∧
        front.flatten = textOf first ++ inner.flatten := by
  cases cuts with
  | empty =>
      rw [graphemes.segment_nil] at segments
      obtain ⟨rfl, rfl⟩ := List.append_eq_nil_iff.mp segments.symm
      exact ⟨[], _, [], [], [], rfl, graphemes.segment_nil, rfl⟩
  | filled some packs =>
      exact @Packs.border graphemes between _ _ packs
        (packs.ne_nil (graphemes.segment_ne_nil some)) content [] front back rfl segments

theorem grapheme_stops (cuts : graphemes.CutsBetween) (lines_ok : TextLines graphemes lines)
    {before after : List TextLine} {line : TextLine} (split : lines = before ++ line :: after)
    {grapheme : Range} (member : grapheme ∈ spans byteLength (byteLength (linesText before))
      (graphemes.segment line.content)) :
    Stop graphemes lines grapheme.start ∧ Stop graphemes lines grapheme.stop := by
  have line_cuts := (split ▸ lines_ok).line_parts.2.1
  have stop : ∀ front back, graphemes.segment line.content = front ++ back →
      Stop graphemes lines (place before front.flatten) := by
    intro front back segments
    obtain ⟨first, piece, last, inner, others, pieces, inside, flatten⟩ :=
      line_cuts.border cuts segments
    exact .inl ⟨before, line, after, first, piece, last, inner, others, split, pieces, inside,
      by rw [flatten]⟩
  obtain ⟨front, part, back, segments, rfl⟩ := (Ranges.mem_spans _).mp member
  have start := stop front (part :: back) segments
  have stop := stop (front ++ [part]) back (by rw [segments]; simp)
  rw [place_eq] at start stop
  rw [total_byteLength]
  rw [List.flatten_append, List.flatten_singleton, byteLength_append, ← Nat.add_assoc] at stop
  exact ⟨start, stop⟩

theorem fragment_stops (lines_ok : TextLines graphemes lines) {fragment : VisualFragment}
    (member : fragment ∈ placeFragments 0 0 lines) :
    Stop graphemes lines fragment.source.start ∧ Stop graphemes lines fragment.source.stop := by
  obtain ⟨before, line, after, rfl, inside⟩ := exists_of_placeFragments member
  obtain ⟨front, piece, back, pieces, rfl⟩ := exists_of_placed inside
  have start : Stop graphemes (before ++ line :: after)
      (place before (textOf front ++ ([] : List (List Char)).flatten)) :=
    .inl ⟨before, line, after, front, piece, back, [], _, rfl, pieces, rfl, rfl⟩
  have stop : Stop graphemes (before ++ line :: after)
      (place before (textOf front ++ (graphemes.segment piece.text).flatten)) :=
    .inl ⟨before, line, after, front, piece, back, _, [], rfl, pieces, (List.append_nil _).symm,
      rfl⟩
  rw [List.flatten_nil, List.append_nil, place_eq] at start
  rw [graphemes.flatten_segment, place_eq, byteLength_append, ← Nat.add_assoc] at stop
  simp only [fragmentAt, Nat.zero_add]
  exact ⟨start, stop⟩

end Moves

end TerminalCanvas.App.FileViewer
