import TerminalCanvas.Foundation.Json

/-! # Diff notes

The text in which a note on a diff travels to an agent: a file, perhaps a range of lines
and the old side, and the comment of the user. -/

namespace TerminalCanvas.DiffNotes

open Json (quote backslash number number_injective)

/-- Line 0 stands for the whole file. -/
structure DiffNote where
  filePath : List Char
  startLine : Option UInt32
  line : UInt32
  oldSide : Bool
  body : List Char
deriving DecidableEq, Repr

/-- `str::replace` of a character. -/
def replace (pattern : Char) (replacement text : List Char) : List Char :=
  text.flatMap fun character => if character = pattern then replacement else [character]

def escapeBody (body : List Char) : List Char :=
  replace '\r' [backslash, 'r'] (replace '\n' [backslash, 'n']
    (replace quote [backslash, quote] (replace backslash [backslash, backslash] body)))

def formatNote (note : DiffNote) : List Char :=
  let out := "File: ".toList ++ note.filePath
  let out :=
    if 0 < note.line then
      match note.startLine with
      | some start =>
          if start ≠ note.line then
            out ++ "\nLines: ".toList ++ number start.toNat ++ '-' :: number note.line.toNat
          else
            out ++ "\nLines: ".toList ++ number note.line.toNat
      | none => out ++ "\nLines: ".toList ++ number note.line.toNat
    else
      out
  let out := if note.oldSide then out ++ "\nSide: old (removed code)".toList else out
  out ++ "\nUser comment: ".toList ++ quote :: escapeBody note.body ++ [quote]

/-! ## What a note says -/

/-- The lines of a range, from the first to the last. -/
def DiffNote.range (note : DiffNote) : Option (UInt32 × UInt32) :=
  if 0 < note.line then some (note.startLine.getD note.line, note.line) else none

structure Denoted where
  path : List Char
  range : Option (UInt32 × UInt32)
  oldSide : Bool
  body : List Char
deriving DecidableEq, Repr

def DiffNote.denoted (note : DiffNote) : Denoted :=
  ⟨note.filePath, note.range, note.oldSide, note.body⟩

inductive Heading where
  | file
  | lines
  | side
  | comment
deriving DecidableEq, Repr

def heading (line : List Char) : Option Heading :=
  if "File: ".toList.isPrefixOf line then some .file
  else if "Lines: ".toList.isPrefixOf line then some .lines
  else if "Side: ".toList.isPrefixOf line then some .side
  else if "User comment: ".toList.isPrefixOf line then some .comment
  else none

def textLines (text : List Char) : List (List Char) := text.splitOn '\n'

/-- At most one range and at most one side, in this order. -/
def between : List (List (Option Heading)) :=
  [[], [some .lines], [some .side], [some .lines, some .side]]

/-- One file, at most one range, at most one side and one comment, in this order. -/
def OneUnit (note : DiffNote) : Prop :=
  ∃ middle ∈ between, (textLines (formatNote note)).map heading =
    some .file :: middle ++ [some .comment]

instance (note : DiffNote) : Decidable (OneUnit note) := List.decidableBEx _ _

/-- The lines a note puts between its path and its comment. -/
def ownLines (note : DiffNote) : List (List Char) :=
  (match note.range with
    | some (first, last) => ["Lines: ".toList ++
        if first ≠ last then number first.toNat ++ '-' :: number last.toNat
        else number last.toNat]
    | none => []) ++
  if note.oldSide then ["Side: old (removed code)".toList] else []

/-- The further lines of the path and the note's own lines are what one unit has. -/
def LinesFit (note : DiffNote) : Prop :=
  ((textLines note.filePath).tail ++ ownLines note).map heading ∈ between

/-- The path of a note ends in the lines that the other note has beyond its own. -/
def Absorbs (note other : DiffNote) : Prop :=
  note.body = other.body ∧ ∃ extra, extra ≠ [] ∧ ownLines other = extra ++ ownLines note ∧
    note.filePath = other.filePath ++ extra.flatMap ('\n' :: ·)

/-! ## Escaped bodies -/

def escapeChar (character : Char) : List Char :=
  if character = backslash then [backslash, backslash]
  else if character = quote then [backslash, quote]
  else if character = '\n' then [backslash, 'n']
  else if character = '\r' then [backslash, 'r']
  else [character]

theorem escapeBody_eq (body : List Char) : escapeBody body = body.flatMap escapeChar := by
  unfold escapeBody replace
  rw [List.flatMap_assoc, List.flatMap_assoc, List.flatMap_assoc]
  refine List.flatMap_congr fun character _ => ?_
  unfold escapeChar
  by_cases isBackslash : character = backslash
  · rw [if_pos isBackslash, if_pos isBackslash]
    decide
  by_cases isQuote : character = quote
  · rw [if_neg isBackslash, if_neg isBackslash, if_pos isQuote, isQuote]
    decide
  by_cases isNewline : character = '\n'
  · rw [if_neg isBackslash, if_neg isBackslash, if_neg isQuote, if_pos isNewline, isNewline]
    decide
  by_cases isReturn : character = '\r'
  · rw [if_neg isBackslash, if_neg isBackslash, if_neg isQuote, if_neg isNewline, isReturn]
    decide
  simp [isBackslash, isQuote, isNewline, isReturn]

theorem newline_notMem_escapeBody (body : List Char) : '\n' ∉ escapeBody body := by
  rw [escapeBody_eq, List.mem_flatMap]
  rintro ⟨character, -, member⟩
  revert member
  unfold escapeChar
  split
  · decide
  · split
    · decide
    · split
      · decide
      · split
        · decide
        · next different _ => simpa using Ne.symm different

def unescapeChar (character : Char) : Char :=
  if character = 'n' then '\n' else if character = 'r' then '\r' else character

/-- A body read back from its escaped text. -/
def unescape : List Char → List Char
  | [] => []
  | [character] => [character]
  | first :: second :: rest =>
      if first = backslash then unescapeChar second :: unescape rest
      else first :: unescape (second :: rest)

theorem unescape_cons {character : Char} (plain : character ≠ backslash) (rest : List Char) :
    unescape (character :: rest) = character :: unescape rest := by
  cases rest with
  | nil => rfl
  | cons second rest => rw [unescape, if_neg plain]

theorem unescape_escapeChar (character : Char) (rest : List Char) :
    unescape (escapeChar character ++ rest) = character :: unescape rest := by
  have pair : ∀ second, unescape ([backslash, second] ++ rest) =
      unescapeChar second :: unescape rest := fun second => if_pos rfl
  unfold escapeChar
  split
  · next special => rw [pair, special]; rfl
  · next notBackslash =>
    split
    · next special => rw [pair, special]; rfl
    · split
      · next special => rw [pair, special]; rfl
      · split
        · next special => rw [pair, special]; rfl
        · exact unescape_cons notBackslash rest

theorem unescape_escapeBody (body : List Char) : unescape (escapeBody body) = body := by
  rw [escapeBody_eq]
  induction body with
  | nil => rfl
  | cons head tail induction => rw [List.flatMap_cons, unescape_escapeChar, induction]

theorem escapeBody_injective : Function.Injective escapeBody :=
  Function.LeftInverse.injective unescape_escapeBody

/-! ## Lines -/

theorem textLines_append {extra : List (List Char)} (oneLine : ∀ line ∈ extra, '\n' ∉ line)
    (text : List Char) :
    textLines (text ++ extra.flatMap ('\n' :: ·)) = textLines text ++ extra := by
  induction extra generalizing text with
  | nil => simp
  | cons line extra induction =>
      have lineFree := oneLine line (List.mem_cons_self ..)
      have rest : ∀ other ∈ extra, '\n' ∉ other := fun other member =>
        oneLine other (List.mem_cons_of_mem _ member)
      have regroup : text ++ (line :: extra).flatMap ('\n' :: ·) =
          (text ++ '\n' :: line) ++ extra.flatMap ('\n' :: ·) := by
        rw [List.flatMap_cons, List.append_assoc]
      have split : textLines (text ++ '\n' :: line) = textLines text ++ [line] := by
        unfold textLines
        rw [List.splitOn_append_cons_self, List.splitOn_eq_singleton lineFree]
      rw [regroup, induction rest, split, List.append_assoc]
      rfl

theorem textLines_injective : Function.Injective textLines := by
  intro left right same
  have joined := congrArg (List.intercalate ['\n']) same
  unfold textLines at joined
  rwa [List.intercalate_splitOn, List.intercalate_splitOn] at joined

theorem textLines_ne_nil (text : List Char) : textLines text ≠ [] :=
  fun empty => List.splitOn_ne_nil _ _ empty

theorem textLines_prepend {start : List Char} (oneLine : '\n' ∉ start) (text : List Char) :
    ∃ first rest, textLines text = first :: rest ∧
      textLines (start ++ text) = (start ++ first) :: rest := by
  induction start with
  | nil =>
      obtain ⟨first, rest, equal⟩ := List.exists_cons_of_ne_nil (textLines_ne_nil text)
      exact ⟨first, rest, equal, equal⟩
  | cons head start induction =>
      rw [List.mem_cons, not_or] at oneLine
      obtain ⟨first, rest, equal, prepended⟩ := induction oneLine.2
      refine ⟨first, rest, equal, ?_⟩
      unfold textLines at prepended ⊢
      rw [List.cons_append, List.splitOn_cons_eq_if_modifyHead, prepended, if_neg]
      · rfl
      · simpa using Ne.symm oneLine.1

theorem newline_notMem_number (value : Nat) : '\n' ∉ number value := by
  intro member
  have printable := Json.printable_number value _ member
  revert printable
  decide

theorem ownLines_oneLine (note : DiffNote) : ∀ line ∈ ownLines note, '\n' ∉ line := by
  intro line member
  unfold ownLines at member
  rcases List.mem_append.mp member with member | member
  · split at member
    · next first last _ =>
        rw [List.mem_singleton.mp member]
        split
        · simp [newline_notMem_number]
        · simp [newline_notMem_number]
    · cases member
  · split at member
    · rw [List.mem_singleton.mp member]
      decide
    · cases member

def commentLine (note : DiffNote) : List Char :=
  "User comment: ".toList ++ quote :: escapeBody note.body ++ [quote]

theorem commentLine_oneLine (note : DiffNote) : '\n' ∉ commentLine note := by
  unfold commentLine
  rw [List.mem_append, List.mem_append, List.mem_cons, not_or, not_or, not_or]
  exact ⟨⟨by decide, by decide, newline_notMem_escapeBody note.body⟩, by decide⟩

theorem addedLines_oneLine (note : DiffNote) :
    ∀ line ∈ ownLines note ++ [commentLine note], '\n' ∉ line := by
  intro line member
  rcases List.mem_append.mp member with member | member
  · exact ownLines_oneLine note line member
  · rw [List.mem_singleton.mp member]
    exact commentLine_oneLine note

theorem formatNote_eq (note : DiffNote) : formatNote note = "File: ".toList ++ (note.filePath ++
    (ownLines note ++ [commentLine note]).flatMap ('\n' :: ·)) := by
  have linesText : "\nLines: ".toList = '\n' :: "Lines: ".toList := rfl
  have sideText : "\nSide: old (removed code)".toList =
      '\n' :: "Side: old (removed code)".toList := rfl
  have commentText : "\nUser comment: ".toList = '\n' :: "User comment: ".toList := rfl
  unfold formatNote ownLines DiffNote.range commentLine
  rw [linesText, sideText, commentText]
  dsimp only
  by_cases whole : 0 < note.line
  · rw [if_pos whole, if_pos whole]
    cases note.startLine with
    | none => cases note.oldSide <;> simp
    | some start =>
        by_cases range : start = note.line
        · cases note.oldSide <;> simp [range]
        · cases note.oldSide <;> simp [range]
  · rw [if_neg whole, if_neg whole]
    cases note.oldSide <;> simp

/-! ## The shape of a note -/

theorem heading_file (text : List Char) : heading ("File: ".toList ++ text) = some .file := rfl

theorem heading_comment (note : DiffNote) : heading (commentLine note) = some .comment := rfl

theorem textLines_formatNote (note : DiffNote) :
    ∃ first, textLines (formatNote note) = ("File: ".toList ++ first) ::
      ((textLines note.filePath).tail ++ ownLines note ++ [commentLine note]) := by
  obtain ⟨head, tail, split, prepended⟩ := @textLines_prepend "File: ".toList (by decide)
    (note.filePath ++ (ownLines note ++ [commentLine note]).flatMap ('\n' :: ·))
  obtain ⟨first, rest, path⟩ := List.exists_cons_of_ne_nil (textLines_ne_nil note.filePath)
  rw [textLines_append (addedLines_oneLine note), path, List.cons_append] at split
  obtain ⟨sameHead, sameTail⟩ := List.cons.inj split
  refine ⟨first, ?_⟩
  rw [formatNote_eq, prepended, path, List.tail_cons, List.append_assoc, sameTail, sameHead]

theorem oneUnit_iff (note : DiffNote) : OneUnit note ↔ LinesFit note := by
  obtain ⟨first, lines⟩ := textLines_formatNote note
  unfold OneUnit LinesFit
  rw [lines, List.map_cons, heading_file, List.map_append, List.map_singleton, heading_comment]
  constructor
  · rintro ⟨middle, inside, same⟩
    have middles := List.append_inj_left' (List.cons.inj same).2 rfl
    rw [middles]
    exact inside
  · exact fun fits => ⟨_, fits, rfl⟩

/-! ## Telling notes apart -/

theorem dash_notMem_number (value : Nat) : '-' ∉ number value := by
  intro member
  have isDigit := Nat.isDigit_of_mem_toDigits (by decide) (by decide) member
  revert isDigit
  decide

def rangeText (range : UInt32 × UInt32) : List Char :=
  if range.1 ≠ range.2 then number range.1.toNat ++ '-' :: number range.2.toNat
  else number range.2.toNat

theorem rangeText_injective : Function.Injective rangeText := by
  have single : ∀ (first second value : Nat), number first ++ '-' :: number second ≠
      number value := by
    intro first second value same
    have dash : '-' ∈ number value := same ▸ List.mem_append_right _ (List.mem_cons_self ..)
    exact dash_notMem_number value dash
  rintro ⟨first, last⟩ ⟨otherFirst, otherLast⟩ same
  unfold rangeText at same
  dsimp only at same
  split at same
  · split at same
    · obtain ⟨firsts, -, lasts⟩ := (List.append_cons_inj_of_notMem
        (dash_notMem_number _) (dash_notMem_number _)).mp same
      rw [UInt32.toNat_inj.mp (number_injective firsts),
        UInt32.toNat_inj.mp (number_injective lasts)]
    · exact absurd same (single _ _ _)
  · next equal =>
    split at same
    · exact absurd same.symm (single _ _ _)
    · next otherEqual =>
      rw [not_not] at equal otherEqual
      rw [equal, otherEqual, UInt32.toNat_inj.mp (number_injective same)]

def rangeLines (range : Option (UInt32 × UInt32)) : List (List Char) :=
  (range.map fun range => "Lines: ".toList ++ rangeText range).toList

def sideLines (oldSide : Bool) : List (List Char) :=
  if oldSide then ["Side: old (removed code)".toList] else []

theorem ownLines_eq (note : DiffNote) :
    ownLines note = rangeLines note.range ++ sideLines note.oldSide := by
  unfold ownLines rangeLines sideLines
  cases note.range <;> rfl

theorem ownLines_inj {note other : DiffNote} (same : ownLines note = ownLines other) :
    note.range = other.range ∧ note.oldSide = other.oldSide := by
  rw [ownLines_eq, ownLines_eq] at same
  have kinds := congrArg (List.map heading) same
  have shape : ∀ (range : Option (UInt32 × UInt32)) (oldSide : Bool),
      (rangeLines range ++ sideLines oldSide).map heading =
        (if range.isSome then [some Heading.lines] else []) ++
          if oldSide then [some Heading.side] else [] := by
    intro range oldSide
    cases range <;> cases oldSide <;> rfl
  rw [shape, shape] at kinds
  have sides : note.oldSide = other.oldSide := by
    revert kinds
    cases note.range.isSome <;> cases other.range.isSome <;> cases note.oldSide <;>
      cases other.oldSide <;> decide
  refine ⟨?_, sides⟩
  rw [sides] at same
  have ranges := List.append_cancel_right same
  revert ranges
  cases note.range with
  | none => cases other.range <;> simp [rangeLines]
  | some range =>
      cases other.range with
      | none => simp [rangeLines]
      | some otherRange =>
          intro ranges
          have texts := List.append_cancel_left (List.singleton_inj.mp ranges)
          rw [rangeText_injective texts]

theorem formatNote_eq_iff {note other : DiffNote} : formatNote note = formatNote other ↔
    textLines note.filePath ++ ownLines note = textLines other.filePath ++ ownLines other ∧
      note.body = other.body := by
  rw [formatNote_eq, formatNote_eq, List.append_cancel_left_eq, ← textLines_injective.eq_iff,
    textLines_append (addedLines_oneLine note), textLines_append (addedLines_oneLine other),
    ← List.append_assoc,
    ← List.append_assoc]
  constructor
  · intro same
    obtain ⟨fronts, comments⟩ := List.append_inj' same rfl
    refine ⟨fronts, ?_⟩
    have lines := List.singleton_inj.mp comments
    unfold commentLine at lines
    have quoted := List.append_cancel_left (List.append_cancel_right lines)
    exact escapeBody_injective (List.cons.inj quoted).2
  · rintro ⟨fronts, bodies⟩
    unfold commentLine
    rw [fronts, bodies]

theorem denoted_eq {note other : DiffNote}
    (paths : textLines note.filePath = textLines other.filePath)
    (own : ownLines note = ownLines other) (bodies : note.body = other.body) :
    note.denoted = other.denoted := by
  obtain ⟨ranges, sides⟩ := ownLines_inj own
  unfold DiffNote.denoted
  rw [textLines_injective paths, ranges, sides, bodies]

theorem absorbs_of_split {note other : DiffNote} {extra : List (List Char)}
    (bodies : note.body = other.body) (some : extra ≠ [])
    (path : textLines note.filePath = textLines other.filePath ++ extra)
    (own : ownLines other = extra ++ ownLines note) : Absorbs note other := by
  refine ⟨bodies, extra, some, own, textLines_injective ?_⟩
  have oneLine : ∀ line ∈ extra, '\n' ∉ line := fun line member =>
    ownLines_oneLine other line (own ▸ List.mem_append_left _ member)
  rw [path, textLines_append oneLine]

theorem absorbs_same_text {note other : DiffNote} (absorbs : Absorbs note other) :
    formatNote note = formatNote other ∧ note.filePath ≠ other.filePath := by
  obtain ⟨bodies, extra, some, own, path⟩ := absorbs
  have oneLine : ∀ line ∈ extra, '\n' ∉ line := fun line member =>
    ownLines_oneLine other line (own ▸ List.mem_append_left _ member)
  have lines := textLines_append oneLine other.filePath
  rw [← path] at lines
  constructor
  · rw [formatNote_eq_iff, lines, own, List.append_assoc]
    exact ⟨rfl, bodies⟩
  · intro samePath
    rw [samePath] at lines
    exact some (List.self_eq_append_right.mp lines)

theorem absorbs_of_same_text {note other : DiffNote} (different : note.denoted ≠ other.denoted)
    (same : formatNote note = formatNote other) : Absorbs note other ∨ Absorbs other note := by
  obtain ⟨fronts, bodies⟩ := formatNote_eq_iff.mp same
  rcases List.append_eq_append_iff.mp fronts with ⟨extra, path, own⟩ | ⟨extra, path, own⟩
  · by_cases empty : extra = []
    · rw [empty, List.append_nil] at path
      rw [empty, List.nil_append] at own
      exact absurd (denoted_eq path.symm own bodies) different
    · exact .inr (absorbs_of_split bodies.symm empty path own)
  · by_cases empty : extra = []
    · rw [empty, List.append_nil] at path
      rw [empty, List.nil_append] at own
      exact absurd (denoted_eq path own.symm bodies) different
    · exact .inl (absorbs_of_split bodies empty path own)

/-- A note is one unit exactly where the lines of its path fit in, and two notes are told
apart exactly where neither path ends in the lines that the other note has beyond its own. -/
theorem one_unambiguous_unit_iff (note other : DiffNote) :
    (OneUnit note ↔ LinesFit note) ∧
      ((note.denoted ≠ other.denoted → formatNote note ≠ formatNote other) ↔
        ¬ Absorbs note other ∧ ¬ Absorbs other note) := by
  refine ⟨oneUnit_iff note, ?_, ?_⟩
  · intro tellsApart
    constructor
    · intro absorbs
      obtain ⟨same, paths⟩ := absorbs_same_text absorbs
      exact tellsApart (fun equal => paths (congrArg Denoted.path equal)) same
    · intro absorbs
      obtain ⟨same, paths⟩ := absorbs_same_text absorbs
      exact tellsApart (fun equal => paths (congrArg Denoted.path equal).symm) same.symm
  · intro neither different same
    rcases absorbs_of_same_text different same with absorbs | absorbs
    · exact neither.1 absorbs
    · exact neither.2 absorbs

/-- A path with a newline, decoded from git. -/
def spoofing : DiffNote := ⟨"a\nLines: 5".toList, none, 0, false, ['x']⟩

def spoofed : DiffNote := ⟨['a'], none, 5, false, ['x']⟩

theorem path_is_not_escaped :
    (spoofing.denoted ≠ spoofed.denoted ∧ formatNote spoofing = formatNote spoofed) ∧
      ¬ OneUnit { spoofing with line := 3 } := by
  decide +kernel

end TerminalCanvas.DiffNotes
