import TerminalCanvas.Foundation.Json

/-! # Clamping a history text

A saved history keeps the end of its text. Positions are character boundaries,
counted by the characters before them. -/

namespace TerminalCanvas.Scrollback

open Json (byteLength byteLength_append)

def escape : Char := Char.ofNat 0x1b

/-- The first character boundary at or after the byte `cut`. -/
def boundaryFrom : (text : List Char) → (cut : Nat) → Nat
  | _, 0 => 0
  | [], _ + 1 => 0
  | first :: rest, cut + 1 => boundaryFrom rest (cut + 1 - first.utf8Size) + 1

/-- `str::find` for a character. -/
def find (character : Char) : List Char → Option Nat
  | [] => none
  | first :: rest => if first = character then some 0 else (find character rest).map (· + 1)

/-- `str::rfind` for a character. -/
def rfind (character : Char) : List Char → Option Nat
  | [] => none
  | first :: rest =>
      match rfind character rest with
      | some position => some (position + 1)
      | none => if first = character then some 0 else none

/-- Past the `m` of the escape sequence that `start` may have fallen into. -/
def escapeEnd (text : List Char) (start : Nat) : Nat :=
  match rfind escape (text.take start) with
  | some escapeStart =>
      match find 'm' (text.drop escapeStart) with
      | some offset =>
          if escapeStart + offset + 1 > start then escapeStart + offset + 1 else start
      | none => start
  | none => start

/-- Where the text left by the byte limit starts. -/
def keptStart (text : List Char) (maxBytes : Nat) : Nat :=
  escapeEnd text (boundaryFrom text (byteLength text - maxBytes))

def clampScrollback (text : List Char) (maxBytes : Nat) : List Char :=
  if byteLength text ≤ maxBytes then
    text
  else
    let tail := text.drop (keptStart text maxBytes)
    -- the first line is taken for a partial one
    match find '\n' tail with
    | some index => tail.drop (index + 1)
    | none => tail

/-! ## Searching -/

theorem find_eq_none {character : Char} {text : List Char} :
    find character text = none ↔ character ∉ text := by
  induction text with
  | nil => simp [find]
  | cons first rest induction =>
      by_cases same : first = character
      · simp [find, same]
      · simp [find, same, induction, Ne.symm same]

theorem find_eq_some {character : Char} {text : List Char} {position : Nat} :
    find character text = some position ↔
      ∃ earlier later, text = earlier ++ character :: later ∧ earlier.length = position ∧
        character ∉ earlier := by
  induction text generalizing position with
  | nil => simp [find]
  | cons first rest induction =>
      by_cases same : first = character
      · subst same
        rw [find, if_pos rfl, Option.some.injEq]
        constructor
        · rintro rfl
          exact ⟨[], rest, rfl, rfl, List.not_mem_nil⟩
        · rintro ⟨earlier, later, text, length, absent⟩
          cases earlier with
          | nil => exact length
          | cons head earlier =>
              rw [List.cons_append, List.cons.injEq] at text
              exact absurd (text.1 ▸ List.mem_cons_self) absent
      · rw [find, if_neg same, Option.map_eq_some_iff]
        constructor
        · rintro ⟨before, found, rfl⟩
          obtain ⟨earlier, later, rfl, rfl, absent⟩ := induction.mp found
          refine ⟨first :: earlier, later, rfl, rfl, ?_⟩
          rw [List.mem_cons, not_or]
          exact ⟨Ne.symm same, absent⟩
        · rintro ⟨earlier, later, text, rfl, absent⟩
          cases earlier with
          | nil => exact absurd (List.cons.inj text).1 same
          | cons head earlier =>
              rw [List.cons_append, List.cons.injEq] at text
              exact ⟨earlier.length, induction.mpr ⟨earlier, later, text.2, rfl,
                fun member => absent (List.mem_cons_of_mem _ member)⟩, rfl⟩

theorem rfind_eq_none {character : Char} {text : List Char} :
    rfind character text = none ↔ character ∉ text := by
  induction text with
  | nil => simp [rfind]
  | cons first rest induction =>
      rw [rfind]
      rcases found : rfind character rest with _ | position
      · have absent := induction.mp found
        by_cases same : first = character
        · simp [same]
        · simp [same, Ne.symm same, absent]
      · have present : character ∈ rest := by
          by_contra absent
          rw [induction.mpr absent] at found
          exact nomatch found
        simp [present]

theorem rfind_append {character : Char} (earlier : List Char) {later : List Char}
    (absent : character ∉ later) :
    rfind character (earlier ++ character :: later) = some earlier.length := by
  induction earlier with
  | nil => simp [rfind, rfind_eq_none.mpr absent]
  | cons first earlier induction => simp [rfind, induction]

theorem lt_length_of_rfind {character : Char} {text : List Char} {position : Nat}
    (found : rfind character text = some position) : position < text.length := by
  induction text generalizing position with
  | nil => exact nomatch found
  | cons first rest induction =>
      rw [rfind] at found
      rcases behind : rfind character rest with _ | before
      · simp only [behind] at found
        split at found
        · cases found
          simp
        · exact nomatch found
      · simp only [behind] at found
        cases found
        have inside := induction behind
        simp only [List.length_cons]
        omega

/-! ## The byte limit -/

theorem byteLength_cons_utf8Size (first : Char) (rest : List Char) :
    byteLength (first :: rest) = first.utf8Size + byteLength rest := by
  rw [byteLength, List.flatMap_cons, List.length_append, String.length_utf8EncodeChar]
  rfl

theorem boundaryFrom_le_iff {text : List Char} {cut : Nat} (inside : cut ≤ byteLength text)
    (position : Nat) :
    boundaryFrom text cut ≤ position ↔ cut ≤ byteLength (text.take position) := by
  induction text generalizing cut position with
  | nil =>
      have zero : cut = 0 := Nat.le_zero.mp inside
      simp [zero, boundaryFrom]
  | cons first rest induction =>
      cases cut with
      | zero => simp [boundaryFrom]
      | succ cut =>
          have size := first.utf8Size_pos
          rw [byteLength_cons_utf8Size] at inside
          cases position with
          | zero => simp [boundaryFrom, byteLength]
          | succ position =>
              rw [boundaryFrom, List.take_succ_cons, byteLength_cons_utf8Size,
                Nat.add_le_add_iff_right, induction (by omega)]
              omega

/-! ## Escape sequences -/

/-- A graphic rendition sequence: its parameters between the introducer and its `m`. -/
def Sgr (sequence : List Char) : Prop :=
  ∃ params : List Char, sequence = escape :: '[' :: (params ++ ['m']) ∧
    ∀ character ∈ params, 0x30 ≤ character.toNat ∧ character.toNat ≤ 0x3f

theorem Sgr.not_mem {params : List Char} {character : Char}
    (allowed : ∀ other ∈ params, 0x30 ≤ other.toNat ∧ other.toNat ≤ 0x3f)
    (outside : character.toNat < 0x30 ∨ 0x3f < character.toNat) : character ∉ params := by
  intro member
  have bounds := allowed character member
  omega

/-- The position lies between two characters of one sequence. -/
def InsideSgr (text : List Char) (position : Nat) : Prop :=
  ∃ earlier sequence later, Sgr sequence ∧ text = earlier ++ (sequence ++ later) ∧
    earlier.length < position ∧ position < earlier.length + sequence.length

theorem not_insideSgr {earlier later : List Char} {character : Char}
    (ending : character = 'm' ∨ character = '\n') :
    ¬ InsideSgr (earlier ++ character :: later) (earlier.length + 1) := by
  rintro ⟨before, sequence, after, ⟨params, rfl, allowed⟩, same, above, below⟩
  have here := congrArg (fun text => text[earlier.length]?) same
  simp only [List.getElem?_append_right (Nat.le_refl _), Nat.sub_self,
    List.getElem?_cons_zero] at here
  simp only [List.length_cons, List.length_append, List.length_nil] at below
  rw [List.getElem?_append_right (by omega), List.getElem?_append_left (by simp; omega)] at here
  rcases offset : earlier.length - before.length with _ | _ | offset'
  · rw [offset, List.getElem?_cons_zero, Option.some.injEq] at here
    rcases ending with rfl | rfl <;> exact absurd here (by decide)
  · rw [offset, List.getElem?_cons_succ, List.getElem?_cons_zero, Option.some.injEq] at here
    rcases ending with rfl | rfl <;> exact absurd here (by decide)
  · rw [offset, List.getElem?_cons_succ, List.getElem?_cons_succ,
      List.getElem?_append_left (by omega)] at here
    have member := List.mem_of_getElem? here.symm
    rcases ending with rfl | rfl <;> exact Sgr.not_mem allowed (by decide) member

theorem escapeEnd_cases (text : List Char) (start : Nat) :
    escapeEnd text start = start ∨
      ∃ earlier later, text = earlier ++ 'm' :: later ∧
        escapeEnd text start = earlier.length + 1 ∧ start < earlier.length + 1 := by
  rw [escapeEnd]
  rcases escapes : rfind escape (text.take start) with _ | escapeStart
  · exact .inl rfl
  · rcases closes : find 'm' (text.drop escapeStart) with _ | offset
    · exact .inl (by simp only [closes])
    · by_cases past : escapeStart + offset + 1 > start
      · right
        obtain ⟨middle, later, rest, rfl, -⟩ := find_eq_some.mp closes
        have inside := lt_length_of_rfind escapes
        rw [List.length_take] at inside
        have length : (text.take escapeStart ++ middle).length = escapeStart + middle.length := by
          rw [List.length_append, List.length_take]
          omega
        refine ⟨text.take escapeStart ++ middle, later, ?_, ?_, ?_⟩
        · rw [List.append_assoc, ← rest, List.take_append_drop]
        · simp only [closes, if_pos past, length]
        · omega
      · exact .inl (by simp only [closes, if_neg past])

theorem le_escapeEnd (text : List Char) (start : Nat) : start ≤ escapeEnd text start := by
  rcases escapeEnd_cases text start with same | ⟨_, _, _, moved, past⟩ <;> omega

theorem escapeEnd_of_inside {earlier params later : List Char} {start : Nat}
    (noEscape : escape ∉ params) (noEnd : 'm' ∉ params) (after : earlier.length < start)
    (before : start ≤ earlier.length + params.length + 1) :
    escapeEnd (earlier ++ escape :: (params ++ 'm' :: later)) start =
      earlier.length + params.length + 2 := by
  have cutPrefix : (earlier ++ escape :: (params ++ 'm' :: later)).take start =
      earlier ++ escape :: params.take (start - earlier.length - 1) := by
    obtain ⟨more, rfl⟩ := Nat.exists_eq_add_of_lt after
    rw [List.take_append, List.take_of_length_le (by omega),
      show earlier.length + more + 1 - earlier.length = more + 1 by omega, List.take_succ_cons,
      List.take_append_of_le_length (by omega), Nat.add_sub_cancel]
  have lastEscape : rfind escape (earlier ++ escape :: params.take (start - earlier.length - 1)) =
      some earlier.length :=
    rfind_append earlier fun member => noEscape (List.mem_of_mem_take member)
  have firstEnd : find 'm' (escape :: (params ++ 'm' :: later)) = some (params.length + 1) := by
    refine find_eq_some.mpr ⟨escape :: params, later, rfl, rfl, ?_⟩
    rw [List.mem_cons, not_or]
    exact ⟨by decide, noEnd⟩
  rw [escapeEnd, cutPrefix, lastEscape]
  simp only [List.drop_left, firstEnd]
  rw [if_pos (by omega)]
  omega

theorem escapeEnd_not_insideSgr (text : List Char) (start : Nat) :
    ¬ InsideSgr text (escapeEnd text start) := by
  rcases escapeEnd_cases text start with same | ⟨earlier, later, rfl, moved, -⟩
  · rintro ⟨earlier, sequence, later, ⟨params, rfl, allowed⟩, rfl, above, below⟩
    simp only [List.length_cons, List.length_append, List.length_nil] at below
    have noEscape : escape ∉ '[' :: params := by
      rw [List.mem_cons, not_or]
      exact ⟨by decide, Sgr.not_mem allowed (by decide)⟩
    have noEnd : 'm' ∉ '[' :: params := by
      rw [List.mem_cons, not_or]
      exact ⟨by decide, Sgr.not_mem allowed (by decide)⟩
    have ended : escapeEnd (earlier ++ escape :: ('[' :: params ++ 'm' :: later)) start =
        earlier.length + (params.length + 1) + 2 :=
      escapeEnd_of_inside noEscape noEnd (by omega) (by rw [List.length_cons]; omega)
    simp only [List.cons_append, List.append_assoc, List.nil_append] at *
    omega
  · rw [moved]
    exact not_insideSgr (.inl rfl)

/-! ## The clamped text -/

theorem clampScrollback_of_fits {text : List Char} {maxBytes : Nat}
    (fits : byteLength text ≤ maxBytes) : clampScrollback text maxBytes = text :=
  if_pos fits

theorem clampScrollback_of_cut {text : List Char} {maxBytes : Nat}
    (large : maxBytes < byteLength text) :
    let tail := text.drop (keptStart text maxBytes)
    (clampScrollback text maxBytes = tail ∧ '\n' ∉ tail) ∨
      ∃ line, tail = line ++ '\n' :: clampScrollback text maxBytes ∧ '\n' ∉ line := by
  rw [clampScrollback, if_neg (by omega)]
  rcases newline : find '\n' (text.drop (keptStart text maxBytes)) with _ | index
  · exact .inl ⟨by simp only [newline], find_eq_none.mp newline⟩
  · right
    obtain ⟨line, later, equal, rfl, absent⟩ := find_eq_some.mp newline
    refine ⟨line, ?_, absent⟩
    have skipped : (line ++ '\n' :: later).drop (line.length + 1) = later := by
      simp [List.drop_append]
    simp only [newline]
    rw [equal, skipped]

theorem byteLength_keptStart (text : List Char) (maxBytes : Nat) :
    byteLength (text.drop (keptStart text maxBytes)) ≤ maxBytes := by
  have reached : boundaryFrom text (byteLength text - maxBytes) ≤ keptStart text maxBytes :=
    le_escapeEnd text _
  rw [boundaryFrom_le_iff (Nat.sub_le _ _)] at reached
  have total := byteLength_append (text.take (keptStart text maxBytes))
    (text.drop (keptStart text maxBytes))
  rw [List.take_append_drop] at total
  omega

theorem keptStart_of_no_escape {text : List Char} (plain : escape ∉ text) (maxBytes : Nat) :
    keptStart text maxBytes = boundaryFrom text (byteLength text - maxBytes) := by
  rw [keptStart, escapeEnd,
    rfind_eq_none.mpr fun member => plain (List.mem_of_mem_take member)]

/-- The last `maxBytes` bytes begin a line and hold its end. -/
def WholeLineAtCut (text : List Char) (maxBytes : Nat) : Prop :=
  ∃ earlier window, text = earlier ++ '\n' :: window ∧ byteLength window = maxBytes ∧
    '\n' ∈ window

/-- A clean end of the text: within the limit, between two escape sequences, from
the start of a line on, and with every last line that fits. -/
structure CleanSuffix (text : List Char) (maxBytes : Nat) (result : List Char) : Prop where
  suffix : result <:+ text
  fits : byteLength result ≤ maxBytes
  between : ¬ InsideSgr text (text.length - result.length)
  aligned : result ≠ text → '\n' ∈ result → ∃ earlier, text = earlier ++ '\n' :: result
  alignedRegion : result ≠ text → '\n' ∈ text.drop (keptStart text maxBytes) →
    ∃ earlier, text = earlier ++ '\n' :: result
  lines : escape ∉ text → ∀ earlier later, text = earlier ++ later →
    (earlier = [] ∨ earlier.getLast? = some '\n') → byteLength later ≤ maxBytes →
    later <:+ result

theorem byteLength_newline (earlier : List Char) :
    byteLength (earlier ++ ['\n']) = byteLength earlier + 1 := by
  rw [byteLength_append]
  rfl

theorem boundaryFrom_wholeLine {earlier window : List Char} {maxBytes : Nat}
    (size : byteLength window = maxBytes) :
    boundaryFrom (earlier ++ '\n' :: window)
      (byteLength (earlier ++ '\n' :: window) - maxBytes) = earlier.length + 1 := by
  have total : byteLength (earlier ++ '\n' :: window) - maxBytes =
      byteLength earlier + 1 := by
    rw [List.append_cons, byteLength_append, byteLength_newline]
    omega
  have below := boundaryFrom_le_iff (Nat.sub_le (byteLength (earlier ++ '\n' :: window)) maxBytes)
    earlier.length
  have above := boundaryFrom_le_iff (Nat.sub_le (byteLength (earlier ++ '\n' :: window)) maxBytes)
    (earlier.length + 1)
  rw [total, List.take_left] at below
  rw [total, List.append_cons, List.take_left' (by simp), byteLength_newline] at above
  rw [List.append_cons] at below
  rw [total, List.append_cons]
  omega

theorem suffix_clampScrollback (text : List Char) (maxBytes : Nat) :
    clampScrollback text maxBytes <:+ text := by
  rcases Nat.lt_or_ge maxBytes (byteLength text) with large | fits
  · rcases clampScrollback_of_cut large with ⟨same, -⟩ | ⟨line, equal, -⟩
    · rw [same]
      exact List.drop_suffix _ _
    · have inTail : clampScrollback text maxBytes <:+ text.drop (keptStart text maxBytes) :=
        ⟨line ++ ['\n'], by rw [equal]; simp⟩
      exact inTail.trans (List.drop_suffix _ _)
  · exact ⟨[], clampScrollback_of_fits fits⟩

theorem clampScrollback_start (text : List Char) (maxBytes : Nat) :
    clampScrollback text maxBytes = text ∨
      (clampScrollback text maxBytes = text.drop (keptStart text maxBytes) ∧
        '\n' ∉ text.drop (keptStart text maxBytes)) ∨
      ∃ earlier, text = earlier ++ '\n' :: clampScrollback text maxBytes := by
  rcases Nat.lt_or_ge maxBytes (byteLength text) with large | fits
  · rcases clampScrollback_of_cut large with same | ⟨line, equal, -⟩
    · exact .inr (.inl same)
    · refine .inr (.inr ⟨text.take (keptStart text maxBytes) ++ line, ?_⟩)
      rw [List.append_assoc, ← equal, List.take_append_drop]
  · exact .inl (clampScrollback_of_fits fits)

theorem clampScrollback_fits (text : List Char) (maxBytes : Nat) :
    byteLength (clampScrollback text maxBytes) ≤ maxBytes := by
  rcases Nat.lt_or_ge maxBytes (byteLength text) with large | fits
  · have region := byteLength_keptStart text maxBytes
    rcases clampScrollback_of_cut large with ⟨same, -⟩ | ⟨line, equal, -⟩
    · rwa [same]
    · rw [equal, List.append_cons, byteLength_append] at region
      omega
  · rwa [clampScrollback_of_fits fits]

theorem clampScrollback_between (text : List Char) (maxBytes : Nat) :
    ¬ InsideSgr text (text.length - (clampScrollback text maxBytes).length) := by
  rcases clampScrollback_start text maxBytes with same | ⟨same, -⟩ | ⟨earlier, equal⟩
  · rw [same, Nat.sub_self]
    rintro ⟨earlier, _, _, _, _, above, _⟩
    omega
  · rw [same, List.length_drop]
    rcases Nat.le_total (keptStart text maxBytes) text.length with inside | past
    · rw [Nat.sub_sub_self inside]
      exact escapeEnd_not_insideSgr text _
    · rw [Nat.sub_eq_zero_of_le past, Nat.sub_zero]
      rintro ⟨earlier, sequence, later, -, equal, -, below⟩
      have length := congrArg List.length equal
      simp only [List.length_append] at length
      omega
  · have cut : text.length - (clampScrollback text maxBytes).length = earlier.length + 1 := by
      have length := congrArg List.length equal
      rw [List.length_append, List.length_cons] at length
      omega
    rw [cut]
    have outside : ¬ InsideSgr (earlier ++ '\n' :: clampScrollback text maxBytes)
        (earlier.length + 1) := not_insideSgr (.inr rfl)
    rwa [← equal] at outside

theorem suffix_of_first_newline {earlier later line rest : List Char} (absent : '\n' ∉ line)
    (same : earlier ++ '\n' :: later = line ++ '\n' :: rest) : later <:+ rest := by
  rcases List.append_eq_append_iff.mp same with ⟨between, split, remains⟩ | ⟨between, -, remains⟩
  · cases between with
    | nil => exact (List.cons.inj remains).2 ▸ List.suffix_refl rest
    | cons head between =>
        rw [List.cons_append, List.cons.injEq] at remains
        exact absurd (by rw [split, ← remains.1]; simp) absent
  · cases between with
    | nil => exact (List.cons.inj remains).2 ▸ List.suffix_refl later
    | cons head between =>
        rw [List.cons_append, List.cons.injEq] at remains
        exact ⟨between ++ ['\n'], by rw [remains.2, List.append_assoc]; rfl⟩

theorem suffix_of_lines {text : List Char} {maxBytes : Nat} (plain : escape ∉ text)
    (lost : ¬ WholeLineAtCut text maxBytes) {earlier later : List Char}
    (parts : text = earlier ++ later) (starts : earlier = [] ∨ earlier.getLast? = some '\n')
    (size : byteLength later ≤ maxBytes) : later <:+ clampScrollback text maxBytes := by
  rcases Nat.lt_or_ge maxBytes (byteLength text) with large | fits
  · have total := byteLength_append earlier later
    rw [← parts] at total
    obtain ⟨shorter, rfl⟩ : ∃ shorter, earlier = shorter ++ ['\n'] := by
      rcases starts with rfl | ends
      · simp only [List.nil_append] at parts
        rw [parts] at large
        omega
      · exact ⟨earlier.dropLast, (List.dropLast_append_getLast? _ ends).symm⟩
    rw [← List.append_cons] at parts
    have bounds := boundaryFrom_le_iff (Nat.sub_le (byteLength text) maxBytes)
    rw [← keptStart_of_no_escape plain] at bounds
    rcases Nat.lt_or_ge shorter.length (keptStart text maxBytes) with atCut | before
    · have short : ¬ byteLength text - maxBytes ≤ byteLength shorter := by
        have below := bounds shorter.length
        rw [parts, List.take_left, ← parts] at below
        omega
      have region : text.drop (keptStart text maxBytes) = later := by
        have above := bounds (shorter.length + 1)
        rw [parts, List.append_cons, List.take_left' (by simp), ← List.append_cons,
          ← parts] at above
        have start : keptStart text maxBytes = shorter.length + 1 := by omega
        rw [start, parts, List.append_cons, List.drop_left' (by simp)]
      rw [byteLength_newline] at total
      rcases clampScrollback_of_cut large with ⟨same, -⟩ | ⟨line, equal, -⟩
      · exact ⟨[], (same.trans region).symm⟩
      · rw [region] at equal
        refine absurd ⟨shorter, later, parts, by omega, ?_⟩ lost
        rw [equal]
        simp
    · have region : text.drop (keptStart text maxBytes) =
          shorter.drop (keptStart text maxBytes) ++ '\n' :: later :=
        (congrArg (List.drop _) parts).trans (List.drop_append_of_le_length before)
      rcases clampScrollback_of_cut large with ⟨-, absent⟩ | ⟨line, equal, absent⟩
      · rw [region] at absent
        exact absurd (by simp) absent
      · rw [region] at equal
        exact suffix_of_first_newline absent equal
  · rw [clampScrollback_of_fits fits, parts]
    exact List.suffix_append earlier later

/-- The clamped text is a clean end of the text, unless the limit leaves the
first line of an escape-free text whole. -/
theorem clampScrollback_clean_iff (text : List Char) (maxBytes : Nat) :
    CleanSuffix text maxBytes (clampScrollback text maxBytes) ↔
      (escape ∈ text ∨ ¬ WholeLineAtCut text maxBytes) := by
  constructor
  · intro clean
    by_contra failed
    rw [not_or, not_not] at failed
    obtain ⟨plain, earlier, window, rfl, size, newline⟩ := failed
    have kept := clean.lines plain (earlier ++ ['\n']) window (List.append_cons ..)
      (.inr List.getLast?_concat) (Nat.le_of_eq size)
    have large : maxBytes < byteLength (earlier ++ '\n' :: window) := by
      rw [List.append_cons, byteLength_append, byteLength_newline]
      omega
    have region : (earlier ++ '\n' :: window).drop
        (keptStart (earlier ++ '\n' :: window) maxBytes) = window := by
      rw [keptStart_of_no_escape plain, boundaryFrom_wholeLine size, List.append_cons,
        List.drop_left' (by simp)]
    rcases clampScrollback_of_cut large with ⟨-, absent⟩ | ⟨line, equal, -⟩
    · rw [region] at absent
      exact absent newline
    · rw [region] at equal
      have longer := kept.length_le
      have shorter := congrArg List.length equal
      simp only [List.length_append, List.length_cons] at shorter
      omega
  · intro condition
    have start := clampScrollback_start text maxBytes
    refine ⟨suffix_clampScrollback text maxBytes, clampScrollback_fits text maxBytes,
      clampScrollback_between text maxBytes, ?_, ?_, ?_⟩
    · intro cut newline
      rcases start with same | ⟨same, absent⟩ | aligned
      · exact absurd same cut
      · rw [same] at newline
        exact absurd newline absent
      · exact aligned
    · intro cut newline
      rcases start with same | ⟨-, absent⟩ | aligned
      · exact absurd same cut
      · exact absurd newline absent
      · exact aligned
    · intro plain earlier later parts starts size
      exact suffix_of_lines plain (condition.resolve_left plain) parts starts size

/-- A last line of exactly the limit is dropped. -/
theorem clampScrollback_drops_whole_line :
    ¬ CleanSuffix "a\nbc\n".toList 3 (clampScrollback "a\nbc\n".toList 3) := by
  intro clean
  have kept := clean.lines (by decide) ['a', '\n'] ['b', 'c', '\n'] rfl (.inr rfl) (by decide)
  have dropped : clampScrollback "a\nbc\n".toList 3 = [] := by decide
  rw [dropped] at kept
  exact absurd kept.length_le (by decide)

end TerminalCanvas.Scrollback
