import TerminalCanvas.Terminal.LiveSnapshot

/-! # The bounded snapshot is the largest that fits -/

namespace TerminalCanvas.LiveSnapshot

variable {lines columns : Nat}

/-! ## The size of what is written -/

/-- The bytes that these pieces take. -/
def size (pieces : List String) : Nat :=
  (String.join pieces).utf8ByteSize

@[simp] theorem size_nil : size [] = 0 := rfl

@[simp] theorem size_cons (piece : String) (pieces : List String) :
    size (piece :: pieces) = piece.utf8ByteSize + size pieces := by
  simp [size]

@[simp] theorem size_append (first second : List String) :
    size (first ++ second) = size first + size second := by
  simp [size]

theorem foldlM_writeStr {maxBytes : Nat} (pieces : List String) (out : SnapshotText maxBytes) :
    (pieces.foldlM SnapshotText.writeStr out).map SnapshotText.text =
      if out.text.utf8ByteSize + size pieces ≤ maxBytes then
        some (out.text ++ String.join pieces)
      else
        none := by
  have bounded := out.bounded
  induction pieces generalizing out with
  | nil => simp [bounded]
  | cons piece pieces induction =>
      rw [List.foldlM_cons, SnapshotText.writeStr, size_cons]
      by_cases fits : piece.utf8ByteSize ≤ maxBytes - out.text.utf8ByteSize
      · rw [dif_pos fits]
        refine (induction _ (by rw [String.utf8ByteSize_append]; omega)).trans ?_
        simp only [String.utf8ByteSize_append, String.join_cons, String.append_assoc,
          Nat.add_assoc]
      · rw [dif_neg fits, if_neg (by omega)]
        rfl

/-! ## Styles

Two runs over the same cells agree from the first style on. -/

theorem size_restyle_le (style first second : String) :
    size (if style ≠ second then [style] else []) ≤
      size (if style ≠ first then [style] else []) + first.utf8ByteSize := by
  have written : size (if style ≠ second then [style] else []) ≤ style.utf8ByteSize := by
    split <;> simp
  by_cases same : style = first
  · rw [same] at written ⊢
    omega
  · rw [if_pos same, size_cons]
    omega

theorem writeCells_seed (cells : List Cell) (first second : String) :
    (cells.foldl styleAfter first = first ∧ cells.foldl styleAfter second = second ∧
        writeCells first cells = [] ∧ writeCells second cells = []) ∨
      (cells.foldl styleAfter first = cells.foldl styleAfter second ∧
        size (writeCells second cells) ≤ size (writeCells first cells) + first.utf8ByteSize) := by
  induction cells with
  | nil => exact .inl ⟨rfl, rfl, rfl, rfl⟩
  | cons cell cells induction =>
      by_cases spacer : cell.isSpacer
      · simpa [writeCells, writeCell, styleAfter, spacer] using induction
      · have restyled := size_restyle_le (liveCellStyle cell) first second
        right
        simp only [List.foldl_cons, writeCells, writeCell, styleAfter, spacer,
          Bool.false_eq_true, if_false, size_append, true_and]
        omega

theorem writeRows_seed (rows : List (Row columns)) (first second : String) :
    size (writeRows second rows) ≤ size (writeRows first rows) + first.utf8ByteSize := by
  induction rows generalizing first second with
  | nil => simp [writeRows]
  | cons row below induction =>
      simp only [writeRows, size_append]
      rcases writeCells_seed row.toList first second with
        ⟨keepsFirst, keepsSecond, emptyFirst, emptySecond⟩ | ⟨agree, bound⟩
      · rw [keepsFirst, keepsSecond, emptyFirst, emptySecond]
        have later := induction first second
        omega
      · rw [agree]
        omega

theorem styleAfter_le (cells : List Cell) (previous : String) :
    (cells.foldl styleAfter previous).utf8ByteSize ≤
      size (writeCells previous cells) + previous.utf8ByteSize := by
  induction cells generalizing previous with
  | nil => simp [writeCells]
  | cons cell cells induction =>
      have later := induction (styleAfter previous cell)
      have here : (styleAfter previous cell).utf8ByteSize ≤
          size (writeCell previous cell) + previous.utf8ByteSize := by
        unfold styleAfter writeCell
        by_cases spacer : cell.isSpacer
        · simp [spacer]
        · by_cases same : liveCellStyle cell = previous
          · simp [spacer, same]
          · simp only [spacer, Bool.false_eq_true, if_false, ne_eq, same, not_false_eq_true,
              if_true, size_append, size_cons]
            omega
      simp only [List.foldl_cons, writeCells, size_append]
      omega

theorem writeRows_cons_le (row : Row columns) (below : List (Row columns)) :
    size (writeRows "" below) ≤ size (writeRows "" (row :: below)) := by
  have inForce := styleAfter_le row.toList ""
  have restyled := writeRows_seed below (row.toList.foldl styleAfter "") ""
  have nothing : ("" : String).utf8ByteSize = 0 := rfl
  simp only [writeRows, size_append]
  omega

/-! ## Tails of the history -/

/-- The text of the screen behind this tail of the history. -/
def snapshotText (term : Term lines columns) (retained : Nat) : String :=
  String.join (writeLiveSnapshot term retained)

theorem tail_succ (term : Term lines columns) {retained : Nat}
    (more : retained < term.history.length) :
    ∃ row, term.tail (retained + 1) = row :: term.tail retained := by
  have inside : term.history.length - (retained + 1) < term.history.length := by omega
  have next : term.history.length - (retained + 1) + 1 = term.history.length - retained := by
    omega
  refine ⟨term.history[term.history.length - (retained + 1)], ?_⟩
  unfold Term.tail
  rw [List.drop_eq_getElem_cons inside, next]

theorem snapshotText_mono (term : Term lines columns) {small large : Nat} (ordered : small ≤ large)
    (inside : large ≤ term.history.length) :
    (snapshotText term small).utf8ByteSize ≤ (snapshotText term large).utf8ByteSize := by
  induction large, ordered using Nat.le_induction with
  | base => exact Nat.le_refl _
  | succ large _ induction =>
      obtain ⟨row, longer⟩ := tail_succ term (Nat.lt_of_succ_le inside)
      have grows := writeRows_cons_le row (term.tail large ++ term.screen.toList)
      refine Nat.le_trans (induction (by omega)) ?_
      change size _ ≤ size _
      simp only [writeLiveSnapshot, size_append, longer, List.cons_append]
      omega

/-! ## Line boundaries -/

/-- The tails that a snapshot may keep: none, the whole history, or one whose first row
does not continue a wrapped row above it. -/
def LineTail (term : Term lines columns) (retained : Nat) : Prop :=
  retained = 0 ∨ retained = term.history.length ∨
    (retained < term.history.length ∧ term.continuesRow retained = false)

theorem lineStart_le (term : Term lines columns) (retained : Nat) :
    term.lineStart retained ≤ retained := by
  induction retained with
  | zero => exact Nat.le_refl 0
  | succ retained induction =>
      unfold Term.lineStart
      split
      · omega
      · exact Nat.le_refl _

theorem lineStart_mono (term : Term lines columns) {small large : Nat} (ordered : small ≤ large) :
    term.lineStart small ≤ term.lineStart large := by
  induction large, ordered using Nat.le_induction with
  | base => exact Nat.le_refl _
  | succ large below induction =>
      refine Nat.le_trans induction ?_
      have shorter := lineStart_le term large
      rw [show term.lineStart (large + 1) =
        if term.continuesRow (large + 1) then term.lineStart large else large + 1 from rfl]
      split <;> omega

theorem lineTail_lineStart (term : Term lines columns) {retained : Nat}
    (inside : retained ≤ term.history.length) : LineTail term (term.lineStart retained) := by
  induction retained with
  | zero => exact .inl rfl
  | succ retained induction =>
      unfold Term.lineStart
      split
      case isTrue continues => exact induction (by omega)
      case isFalse starts =>
        rcases Nat.eq_or_lt_of_le inside with whole | part
        · exact .inr (.inl whole)
        · exact .inr (.inr ⟨part, by simpa using starts⟩)

theorem lineStart_eq (term : Term lines columns) {retained : Nat} (line : LineTail term retained) :
    term.lineStart retained = retained := by
  cases retained with
  | zero => rfl
  | succ retained =>
      have starts : term.continuesRow (retained + 1) = false := by
        rcases line with empty | whole | ⟨_, starts⟩
        · omega
        · simp [Term.continuesRow, whole]
        · exact starts
      rw [Term.lineStart, if_neg (by simp [starts])]

/-! ## The search -/

theorem render_eq (term : Term lines columns) (maxBytes retained : Nat) :
    render term maxBytes retained =
      if (snapshotText term (term.lineStart retained)).utf8ByteSize ≤ maxBytes then
        some ⟨snapshotText term (term.lineStart retained),
          term.history.length - term.lineStart retained⟩
      else
        none := by
  have written := foldlM_writeStr (writeLiveSnapshot term (term.lineStart retained))
    (.empty maxBytes)
  simp only [SnapshotText.empty, String.utf8ByteSize_empty, Nat.zero_add, String.empty_append]
    at written
  unfold render
  change Option.map _ _ = if size (writeLiveSnapshot term (term.lineStart retained)) ≤ maxBytes
    then _ else _
  by_cases fits : size (writeLiveSnapshot term (term.lineStart retained)) ≤ maxBytes
  · rw [if_pos fits] at written ⊢
    obtain ⟨out, wrote, text⟩ := Option.map_eq_some_iff.mp written
    simp only [SnapshotText.empty, wrote, Option.map_some, text]
    rfl
  · rw [if_neg fits] at written ⊢
    simp only [SnapshotText.empty, Option.map_eq_none_iff] at written ⊢
    exact written

theorem render_isSome (term : Term lines columns) (maxBytes retained : Nat) :
    (render term maxBytes retained).isSome ↔
      (snapshotText term (term.lineStart retained)).utf8ByteSize ≤ maxBytes := by
  rw [render_eq]
  split <;> simp_all

theorem render_downward (term : Term lines columns) (maxBytes : Nat) :
    Bisect.Downward (render term maxBytes) term.history.length := by
  intro small large ordered inside fits
  rw [render_isSome] at fits ⊢
  have shorter := lineStart_le term large
  exact Nat.le_trans
    (snapshotText_mono term (lineStart_mono term ordered) (Nat.le_trans shorter inside)) fits

/-- The snapshot is the screen behind the longest of the tails that fit. -/
structure IsLargest (term : Term lines columns) (maxBytes kept : Nat)
    (snapshot : BoundedLiveSnapshot) : Prop where
  inside : kept ≤ term.history.length
  line : LineTail term kept
  text : snapshot.ansi = snapshotText term kept
  fits : snapshot.ansi.utf8ByteSize ≤ maxBytes
  omitted : snapshot.omittedHistoryRows + kept = term.history.length
  longest : ∀ other ≤ term.history.length, LineTail term other →
    (snapshotText term other).utf8ByteSize ≤ maxBytes → other ≤ kept

theorem isLargest_of_render (term : Term lines columns) {maxBytes retained : Nat}
    {snapshot : BoundedLiveSnapshot} (inside : retained ≤ term.history.length)
    (rendered : render term maxBytes retained = some snapshot)
    (behind : ∀ other, retained < other → other ≤ term.history.length →
      render term maxBytes other = none) :
    IsLargest term maxBytes (term.lineStart retained) snapshot := by
  have shorter := lineStart_le term retained
  rw [render_eq] at rendered
  split at rendered
  case isFalse => cases rendered
  case isTrue fits =>
    obtain rfl := Option.some.inj rendered
    refine ⟨by omega, lineTail_lineStart term inside, rfl, fits, Nat.sub_add_cancel (by omega),
      fun other small line room => ?_⟩
    -- a longer tail that fits would be a success behind this attempt, or start a line in it
    by_contra longer
    have own := lineStart_eq term line
    rcases Nat.lt_or_ge retained other with above | below
    · have failed := behind other above small
      rw [render_eq, own, if_pos room] at failed
      cases failed
    · have kept := lineStart_mono term below
      omega

/-- The snapshot fails exactly when the screen alone exceeds the limit, and otherwise keeps
the longest tail of the history that fits. -/
theorem boundedLiveSnapshot_largest (term : Term lines columns) (maxBytes : Nat) :
    match boundedLiveSnapshot term maxBytes with
    | none => maxBytes < (snapshotText term 0).utf8ByteSize
    | some snapshot =>
        (snapshotText term 0).utf8ByteSize ≤ maxBytes ∧
          ∃ kept, IsLargest term maxBytes kept snapshot := by
  have room : (snapshotText term 0).utf8ByteSize ≤ maxBytes ↔
      (render term maxBytes 0).isSome := (render_isSome term maxBytes 0).symm
  unfold boundedLiveSnapshot
  cases whole : render term maxBytes term.history.length with
  | some snapshot =>
      refine ⟨room.mpr ?_, _, isLargest_of_render term (Nat.le_refl _) whole
        fun other above below => by omega⟩
      exact render_downward term maxBytes 0 _ (Nat.zero_le _) (Nat.le_refl _) (by simp [whole])
  | none =>
      cases empty : render term maxBytes 0 with
      | none =>
          rw [empty] at room
          simpa using room
      | some best =>
          have downward : Bisect.Downward (render term maxBytes) (term.history.length - 1) :=
            fun small large ordered inside =>
              render_downward term maxBytes small large ordered (by omega)
          obtain ⟨kept, inside, rendered, behind⟩ := Bisect.largest_spec downward 0
            (term.history.length - 1) empty (Nat.zero_le _) (Nat.le_refl _)
            fun other above below => by omega
          refine ⟨room.mpr (by simp [empty]), _, isLargest_of_render term (by omega) rendered
            fun other above below => ?_⟩
          rcases Nat.eq_or_lt_of_le below with all | part
          · rw [all]
            exact whole
          · exact behind other above (by omega)

end TerminalCanvas.LiveSnapshot
