import Mathlib.Data.List.Infix

/-! # Framed data

A receiver that takes what stands between an opening marker and the next closing
marker for data. Framed data is received whole exactly when it does not contain
the closing marker, if the marker's first symbol is not repeated in it. -/

namespace TerminalCanvas.Framing

variable {Symbol : Type} [DecidableEq Symbol]

/-- What stands before and behind the first occurrence of a marker. -/
def splitAtFirst (marker : List Symbol) : List Symbol → Option (List Symbol × List Symbol)
  | [] => if marker = [] then some ([], []) else none
  | first :: rest =>
      if marker.isPrefixOf (first :: rest) then
        some ([], (first :: rest).drop marker.length)
      else
        (splitAtFirst marker rest).map fun (before, after) => (first :: before, after)

theorem splitAtFirst_eq_some {marker symbols before after : List Symbol}
    (split : splitAtFirst marker symbols = some (before, after)) :
    symbols = before ++ marker ++ after := by
  induction symbols generalizing before with
  | nil =>
      rw [splitAtFirst] at split
      split at split
      · next empty => cases split; simp [empty]
      · exact nomatch split
  | cons first rest induction =>
      rw [splitAtFirst] at split
      split at split
      · next here =>
          cases split
          rw [List.isPrefixOf_iff_prefix] at here
          rw [List.nil_append]
          exact (List.prefix_iff_eq_append.mp here).symm
      · obtain ⟨⟨earlier, later⟩, found, same⟩ := Option.map_eq_some_iff.mp split
        cases same
        rw [induction found]
        simp

theorem splitAtFirst_le (marker before after : List Symbol) :
    ∃ first last, splitAtFirst marker (before ++ marker ++ after) = some (first, last) ∧
      first.length ≤ before.length := by
  induction before with
  | nil =>
      have here : marker.isPrefixOf (marker ++ after) = true :=
        List.isPrefixOf_iff_prefix.mpr (List.prefix_append marker after)
      rw [List.nil_append]
      rcases symbols : marker ++ after with _ | ⟨first, rest⟩
      · exact ⟨[], [], by simp [splitAtFirst, (List.append_eq_nil_iff.mp symbols).1], Nat.le_refl _⟩
      · rw [symbols] at here
        exact ⟨[], _, by rw [splitAtFirst, if_pos here], Nat.le_refl _⟩
  | cons symbol before induction =>
      obtain ⟨first, last, found, short⟩ := induction
      rw [List.cons_append, List.cons_append, splitAtFirst]
      split
      · exact ⟨[], _, rfl, Nat.zero_le _⟩
      · exact ⟨symbol :: first, last, by rw [found]; rfl, Nat.succ_le_succ short⟩

/-- Behind data without the marker the first occurrence is the marker itself: a part of
the marker at the end of the data does not grow into another one. -/
theorem splitAtFirst_append {head : Symbol} {tail data : List Symbol} (once : head ∉ tail)
    (absent : ¬ (head :: tail) <:+: data) (later : List Symbol) :
    splitAtFirst (head :: tail) (data ++ (head :: tail) ++ later) = some (data, later) := by
  induction data with
  | nil => simp [splitAtFirst, List.isPrefixOf_iff_prefix]
  | cons first rest induction =>
      have absentRest : ¬ (head :: tail) <:+: rest :=
        fun inside => absent (inside.trans (List.suffix_cons first rest).isInfix)
      have notHere : ¬ (head :: tail) <+: first :: rest ++ ((head :: tail) ++ later) := by
        intro here
        rcases Nat.le_total (head :: tail).length (first :: rest).length with short | long
        · exact absent (List.prefix_of_prefix_length_le here (List.prefix_append _ _) short).isInfix
        · -- the marker's head would stand in its own tail
          obtain ⟨more, split⟩ :=
            List.prefix_of_prefix_length_le (List.prefix_append (first :: rest) _) here long
          rw [← split, List.prefix_append_right_inj] at here
          cases more with
          | nil =>
              rw [List.append_nil] at split
              exact absent (split ▸ List.infix_rfl)
          | cons symbol more =>
              obtain ⟨rfl, -⟩ := List.cons_prefix_cons.mp here
              rw [List.cons_append, List.cons.injEq] at split
              exact once (by rw [← split.2]; simp [split.1])
      rw [List.append_assoc] at induction ⊢
      rw [List.cons_append, splitAtFirst, if_neg, induction absentRest]
      · rfl
      · rw [List.isPrefixOf_iff_prefix]
        exact notHere

/-! ## The receiver -/

inductive Seen (Symbol : Type) where
  | outside (symbols : List Symbol)
  | data (symbols : List Symbol)
  /-- Data whose closing marker has not come yet. -/
  | unfinished (symbols : List Symbol)
deriving DecidableEq, Repr

def outsideOf (symbols : List Symbol) : List (Seen Symbol) :=
  if symbols.isEmpty then [] else [.outside symbols]

variable (opening closing : List Symbol)

def receiveLoop : (fuel : Nat) → List Symbol → List (Seen Symbol)
  | 0, _ => []
  | fuel + 1, symbols =>
      match splitAtFirst opening symbols with
      | none => outsideOf symbols
      | some (before, rest) =>
          outsideOf before ++
            match splitAtFirst closing rest with
            | none => [.unfinished rest]
            | some (data, later) => .data data :: receiveLoop fuel later

/-- What the receiver makes of a stream; every round takes a marker off it. -/
def receive (symbols : List Symbol) : List (Seen Symbol) :=
  receiveLoop opening closing (symbols.length + 1) symbols

variable {opening closing}

theorem receiveLoop_ne_nil {fuel : Nat} {symbols : List Symbol} (filled : symbols ≠ []) :
    receiveLoop opening closing (fuel + 1) symbols ≠ [] := by
  rw [receiveLoop]
  split
  · simp [outsideOf, filled]
  · split <;> simp

theorem splitAtFirst_opening (opening rest : List Symbol) :
    splitAtFirst opening (opening ++ rest) = some ([], rest) := by
  obtain ⟨first, last, found, short⟩ :=
    splitAtFirst_le opening [] rest
  have none : first = [] := List.eq_nil_of_length_eq_zero (Nat.le_zero.mp short)
  have same := splitAtFirst_eq_some found
  subst none
  simp only [List.nil_append, List.append_cancel_left_eq] at same found
  rw [found, ← same]

/-- Framed data without the closing marker is one piece of data, and what follows is
received on its own. -/
theorem receive_framed {head : Symbol} {tail data : List Symbol} (once : head ∉ tail)
    (absent : ¬ (head :: tail) <:+: data) (later : List Symbol) :
    receive opening (head :: tail) (opening ++ data ++ (head :: tail) ++ later) =
      .data data :: receiveLoop opening (head :: tail)
        (opening ++ data ++ (head :: tail) ++ later).length later := by
  have opens := splitAtFirst_opening opening (data ++ (head :: tail) ++ later)
  have closes := splitAtFirst_append once absent later
  rw [receive, receiveLoop]
  simp only [List.append_assoc] at opens closes ⊢
  rw [opens]
  simp only [closes, outsideOf, List.isEmpty_nil, if_true, List.nil_append]

theorem receive_broken {data : List Symbol} (filled : opening ≠ []) (closed : closing ≠ [])
    (inside : closing <:+: data) (piece : List Symbol) :
    receive opening closing (opening ++ data ++ closing) ≠ [.data piece] := by
  obtain ⟨before, after, rfl⟩ := inside
  have opens := splitAtFirst_opening opening (before ++ closing ++ after ++ closing)
  obtain ⟨first, last, found, short⟩ :=
    splitAtFirst_le closing before (after ++ closing)
  have left : last ≠ [] := by
    rintro rfl
    have lengths := congrArg List.length (splitAtFirst_eq_some found)
    have some := List.length_pos_iff.mpr closed
    simp only [List.length_append, List.length_nil] at lengths
    omega
  rw [receive, receiveLoop]
  simp only [List.append_assoc] at opens found ⊢
  rw [opens]
  simp only [found, outsideOf, List.isEmpty_nil, if_true, List.nil_append]
  intro one
  have rest := (List.cons.inj one).2
  obtain ⟨fuel, size⟩ : ∃ fuel, (opening ++ (before ++ (closing ++ (after ++ closing)))).length =
      fuel + 1 := by
    have some := List.length_pos_iff.mpr filled
    refine ⟨_, (Nat.succ_pred_eq_of_pos ?_).symm⟩
    rw [List.length_append]
    omega
  rw [size] at rest
  exact receiveLoop_ne_nil left rest

end TerminalCanvas.Framing
