import Mathlib.Data.Vector.Basic
import TerminalCanvas.Foundation.Bisect

/-! # The live snapshot

What a client that attaches replays to see the screen, the modes and the cursor of a
running terminal. -/

namespace TerminalCanvas.LiveSnapshot

/-! ## Colours -/

structure Rgb where
  r : UInt8
  g : UInt8
  b : UInt8
  deriving DecidableEq

def ansiColors : Vector Rgb 16 :=
  #v[⟨0, 0, 0⟩, ⟨204, 0, 0⟩, ⟨78, 154, 6⟩, ⟨196, 160, 0⟩, ⟨52, 101, 164⟩, ⟨117, 80, 123⟩,
    ⟨6, 152, 154⟩, ⟨211, 215, 207⟩, ⟨85, 87, 83⟩, ⟨239, 41, 41⟩, ⟨138, 226, 52⟩,
    ⟨252, 233, 79⟩, ⟨114, 159, 207⟩, ⟨173, 127, 168⟩, ⟨52, 226, 226⟩, ⟨238, 238, 236⟩]

def indexedToEgui (index : UInt8) : Rgb :=
  if named : index.toNat < 16 then
    ansiColors[index.toNat]
  else if index ≤ 231 then
    let cube := index - 16
    let channel (level : UInt8) : UInt8 := if level > 0 then level * 40 + 55 else 0
    ⟨channel (cube / 36), channel (cube % 36 / 6), channel (cube % 6)⟩
  else
    let gray := (index - 232) * 10 + 8
    ⟨gray, gray, gray⟩

def dimColor (color : Rgb) : Rgb :=
  let dim (channel : UInt8) : UInt8 := (channel.toUInt16 * 2 / 3).toUInt8
  ⟨dim color.r, dim color.g, dim color.b⟩

inductive NamedColor
  | black | red | green | yellow | blue | magenta | cyan | white
  | brightBlack | brightRed | brightGreen | brightYellow
  | brightBlue | brightMagenta | brightCyan | brightWhite
  | foreground | background | cursor
  | dimBlack | dimRed | dimGreen | dimYellow | dimBlue | dimMagenta | dimCyan | dimWhite
  | brightForeground | dimForeground
  deriving DecidableEq

inductive AnsiColor
  | named (name : NamedColor)
  | spec (rgb : Rgb)
  | indexed (index : UInt8)
  deriving DecidableEq

def NamedColor.paletteIndex : NamedColor → Option UInt8
  | .black => some 0
  | .red => some 1
  | .green => some 2
  | .yellow => some 3
  | .blue => some 4
  | .magenta => some 5
  | .cyan => some 6
  | .white => some 7
  | .brightBlack => some 8
  | .brightRed => some 9
  | .brightGreen => some 10
  | .brightYellow => some 11
  | .brightBlue => some 12
  | .brightMagenta => some 13
  | .brightCyan => some 14
  | .brightWhite => some 15
  | _ => none

/-- `none` is the default of the terminal in that role. -/
def namedToRgb (name : NamedColor) (foreground : Bool) : Option Rgb :=
  match name with
  | .foreground | .brightForeground => if foreground then none else some (indexedToEgui 7)
  | .background => if foreground then some ⟨0, 0, 0⟩ else none
  | .dimForeground | .dimBlack => some ⟨0, 0, 0⟩
  | .cursor => some ⟨244, 244, 244⟩
  | .dimRed => some (dimColor (indexedToEgui 1))
  | .dimGreen => some (dimColor (indexedToEgui 2))
  | .dimYellow => some (dimColor (indexedToEgui 3))
  | .dimBlue => some (dimColor (indexedToEgui 4))
  | .dimMagenta => some (dimColor (indexedToEgui 5))
  | .dimCyan => some (dimColor (indexedToEgui 6))
  | .dimWhite => some (dimColor (indexedToEgui 7))
  | name => name.paletteIndex.map indexedToEgui

def colorRgb (color : AnsiColor) (foreground : Bool) : Option Rgb :=
  match color with
  | .spec rgb => some rgb
  | .indexed index => some (indexedToEgui index)
  | .named name => namedToRgb name foreground

/-! ## Cells -/

/-- The flags of a cell that a snapshot reads. -/
structure Flags where
  bold : Bool := false
  dim : Bool := false
  italic : Bool := false
  underline : Bool := false
  inverse : Bool := false
  hidden : Bool := false
  strikeout : Bool := false
  doubleUnderline : Bool := false
  undercurl : Bool := false
  dottedUnderline : Bool := false
  dashedUnderline : Bool := false
  wrapline : Bool := false
  wideCharSpacer : Bool := false
  leadingWideCharSpacer : Bool := false
  deriving DecidableEq

structure Cell where
  c : Char := ' '
  zerowidth : List Char := []
  flags : Flags := {}
  fg : AnsiColor := .named .foreground
  bg : AnsiColor := .named .background
  underlineColor : Option AnsiColor := none
  deriving DecidableEq

/-- The codes of the flags that are set, each behind the separator. -/
def setCodes (separator : String) (codes : List (Bool × Nat)) : String :=
  String.join (codes.map fun (set, code) => if set then separator ++ toString code else "")

def rgbCode (role : Nat) (rgb : Rgb) : String :=
  ";" ++ toString role ++ ";2;" ++ toString rgb.r ++ ";" ++ toString rgb.g ++ ";" ++
    toString rgb.b

def colorCode (color : AnsiColor) (foreground : Bool) : String :=
  let role := if foreground then 38 else 48
  let index :=
    match color with
    | .indexed index => some index
    | .named name => name.paletteIndex
    | .spec _ => none
  match index, colorRgb color foreground with
  | some index, _ => ";" ++ toString role ++ ";5;" ++ toString index
  | none, some rgb => rgbCode role rgb
  | none, none => ""

def liveCellStyle (cell : Cell) : String :=
  "\x1b[0" ++
  setCodes ";" [(cell.flags.bold, 1), (cell.flags.dim, 2), (cell.flags.italic, 3),
    (cell.flags.underline, 4), (cell.flags.inverse, 7), (cell.flags.hidden, 8),
    (cell.flags.strikeout, 9), (cell.flags.doubleUnderline, 21)] ++
  colorCode cell.fg true ++ colorCode cell.bg false ++
  setCodes ";4:" [(cell.flags.undercurl, 3), (cell.flags.dottedUnderline, 4),
    (cell.flags.dashedUnderline, 5)] ++
  ((cell.underlineColor.bind (colorRgb · true)).map (rgbCode 58)).getD "" ++
  "m"

/-! ## Modes -/

/-- The modes that a snapshot restores. -/
structure TermMode where
  altScreen : Bool := false
  appCursor : Bool := false
  origin : Bool := false
  lineWrap : Bool := true
  showCursor : Bool := true
  mouseReportClick : Bool := false
  mouseDrag : Bool := false
  mouseMotion : Bool := false
  focusInOut : Bool := false
  utf8Mouse : Bool := false
  sgrMouse : Bool := false
  alternateScroll : Bool := true
  bracketedPaste : Bool := false
  insert : Bool := false
  lineFeedNewLine : Bool := false
  appKeypad : Bool := false
  disambiguateEscCodes : Bool := false
  reportEventTypes : Bool := false
  reportAlternateKeys : Bool := false
  reportAllKeysAsEsc : Bool := false
  reportAssociatedText : Bool := false
  deriving DecidableEq

def modeSwitches (introducer : String) (codes : List (Bool × Nat)) : String :=
  String.join (codes.map fun (set, code) =>
    introducer ++ toString code ++ (if set then "h" else "l"))

def liveModeSequence (mode : TermMode) : String :=
  let keyboard : Nat := [(mode.disambiguateEscCodes, 1), (mode.reportEventTypes, 2),
    (mode.reportAlternateKeys, 4), (mode.reportAllKeysAsEsc, 8),
    (mode.reportAssociatedText, 16)].foldl
      (fun keyboard (set, bit) => if set then keyboard ||| bit else keyboard) 0
  modeSwitches "\x1b[?" [(mode.appCursor, 1), (mode.origin, 6), (mode.lineWrap, 7),
    (mode.showCursor, 25), (mode.mouseReportClick, 1000), (mode.mouseDrag, 1002),
    (mode.mouseMotion, 1003), (mode.focusInOut, 1004), (mode.utf8Mouse, 1005),
    (mode.sgrMouse, 1006), (mode.alternateScroll, 1007), (mode.bracketedPaste, 2004)] ++
  modeSwitches "\x1b[" [(mode.insert, 4), (mode.lineFeedNewLine, 20)] ++
  (if mode.appKeypad then "\x1b=" else "\x1b>") ++
  "\x1b[=" ++ toString keyboard ++ "u"

/-! ## The terminal -/

abbrev Row (columns : Nat) := Vector Cell columns

/-- The last cell of the row says that the next row continues it. -/
def Row.wraps {columns : Nat} (row : Row columns) : Bool :=
  row.toList.getLast?.any (·.flags.wrapline)

structure Cursor where
  line : Nat
  column : Nat
  template : Cell := {}
  inputNeedsWrap : Bool := false

inductive CursorShape
  | block | underline | beam | hollowBlock | hidden
  deriving DecidableEq

/-- What a snapshot reads of a terminal. The margins are the lines on which the cursor
lands with origin set, and the tabs are reached by moving forward. -/
structure Term (lines columns : Nat) where
  history : List (Row columns)
  screen : Vector (Row columns) lines
  colors : Nat → Option Rgb
  mode : TermMode
  cursor : Cursor
  savedCursor : Cursor
  shape : CursorShape
  blinking : Bool
  top : Nat
  bottom : Nat
  tabZero : Bool
  moveForwardTab : Nat → Nat
  line_inside : cursor.line < lines
  column_inside : cursor.column < columns
  tab_advances : ∀ column, column + 1 < columns → column < moveForwardTab column

variable {lines columns : Nat}

/-- The stops that moving forward reaches from a column. -/
def Term.tabsFrom (term : Term lines columns) (column : Nat) : List Nat :=
  if more : column + 1 < columns then
    have := term.tab_advances column more
    term.moveForwardTab column :: term.tabsFrom (term.moveForwardTab column)
  else
    []
termination_by columns - column

def Term.tabs (term : Term lines columns) : List Nat :=
  (if 1 < columns ∧ term.tabZero then [0] else []) ++ term.tabsFrom 0

/-! ## Writing -/

def Cell.isSpacer (cell : Cell) : Bool :=
  cell.flags.wideCharSpacer || cell.flags.leadingWideCharSpacer

def Cell.glyph (cell : Cell) : List String :=
  (cell.c :: cell.zerowidth).map String.singleton

def styleAfter (previous : String) (cell : Cell) : String :=
  if cell.isSpacer then previous else liveCellStyle cell

def writeCell (previous : String) (cell : Cell) : List String :=
  if cell.isSpacer then
    []
  else
    (if liveCellStyle cell ≠ previous then [liveCellStyle cell] else []) ++ cell.glyph

def writeCells (previous : String) : List Cell → List String
  | [] => []
  | cell :: cells => writeCell previous cell ++ writeCells (styleAfter previous cell) cells

/-- A wrapped row must stay wrapped, and nothing ends the last one. -/
def rowEnd (row : Row columns) (below : List (Row columns)) : List String :=
  if below ≠ [] ∧ row.wraps = false then ["\r\n"] else []

def writeRows (previous : String) : List (Row columns) → List String
  | [] => []
  | row :: below =>
      writeCells previous row.toList ++ rowEnd row below ++
        writeRows (row.toList.foldl styleAfter previous) below

/-- One byte in two hexadecimal digits. -/
def hexByte (byte : UInt8) : String :=
  String.ofList [Nat.digitChar (byte.toNat / 16), Nat.digitChar (byte.toNat % 16)]

def rgbSpec (rgb : Rgb) : String :=
  ";rgb:" ++ hexByte rgb.r ++ "/" ++ hexByte rgb.g ++ "/" ++ hexByte rgb.b ++ "\x07"

def writePalette (term : Term lines columns) : List String :=
  (List.range 256).filterMap fun index =>
    (term.colors index).map fun rgb => "\x1b]4;" ++ toString index ++ rgbSpec rgb

/-- The default foreground and background and the colour of the cursor. -/
def writeDefaults (term : Term lines columns) : List String :=
  [(256, 10), (257, 11), (258, 12)].filterMap fun (color, osc) =>
    (term.colors color).map fun rgb => "\x1b]" ++ toString (osc : Nat) ++ rgbSpec rgb

def cursorPosition (line column : String) : String :=
  "\x1b[" ++ line ++ ";" ++ column ++ "H"

def Term.cursorLine (term : Term lines columns) : String :=
  let line := (term.cursor.line : Int) - (if term.mode.origin then (term.top : Int) else 0)
  toString (max line 0 + 1)

/-- The column of the last cell that the cursor wrote. -/
def Term.lastColumn (term : Term lines columns) : Fin columns :=
  let column : Fin columns := ⟨term.cursor.column, term.column_inside⟩
  let cell := (term.screen.get ⟨term.cursor.line, term.line_inside⟩).get column
  if cell.flags.wideCharSpacer ∧ 0 < column.val then
    ⟨column.val - 1, by omega⟩
  else
    column

/-- Writing the last cell again leaves the cursor waiting to wrap. -/
def writePendingWrap (term : Term lines columns) : List String :=
  if term.cursor.inputNeedsWrap then
    let cell := (term.screen.get ⟨term.cursor.line, term.line_inside⟩).get term.lastColumn
    (if term.lastColumn.val ≠ term.cursor.column then
      [cursorPosition term.cursorLine (toString (term.lastColumn.val + 1))]
    else
      []) ++
    liveCellStyle cell :: cell.glyph
  else
    []

def cursorShapeCode (shape : CursorShape) (blinking : Bool) : Nat :=
  (match shape with
    | .underline => 3
    | .beam => 5
    | _ => 1) +
  (if blinking then 0 else 1)

def writeHeader (term : Term lines columns) : List String :=
  "\x1bc" :: writePalette term ++ writeDefaults term ++
    (if term.mode.altScreen then ["\x1b[?1049h"] else [])

def writeState (term : Term lines columns) : List String :=
  "\x1b[0m" ::
  ("\x1b[" ++ toString (term.top + 1) ++ ";" ++ toString (term.bottom + 1) ++ "r") ::
  "\x1b[3g" ::
  term.tabs.map (fun column => cursorPosition "1" (toString (column + 1)) ++ "\x1bH") ++
  [cursorPosition (toString (term.savedCursor.line + 1))
      (toString (term.savedCursor.column + 1)) ++
      liveCellStyle term.savedCursor.template ++ "\x1b7",
    liveModeSequence term.mode,
    cursorPosition term.cursorLine (toString (term.cursor.column + 1))] ++
  writePendingWrap term ++
  [liveCellStyle term.cursor.template,
    "\x1b[" ++ toString (cursorShapeCode term.shape term.blinking) ++ " q"]

def Term.tail (term : Term lines columns) (retained : Nat) : List (Row columns) :=
  term.history.drop (term.history.length - retained)

/-- What is written for a snapshot that starts this many rows above the screen. -/
def writeLiveSnapshot (term : Term lines columns) (retained : Nat) : List String :=
  writeHeader term ++ writeRows "" (term.tail retained ++ term.screen.toList) ++ writeState term

/-! ## The bounded snapshot -/

structure SnapshotText (maxBytes : Nat) where
  text : String
  bounded : text.utf8ByteSize ≤ maxBytes

def SnapshotText.empty (maxBytes : Nat) : SnapshotText maxBytes :=
  ⟨"", Nat.zero_le maxBytes⟩

def SnapshotText.writeStr {maxBytes : Nat} (out : SnapshotText maxBytes) (text : String) :
    Option (SnapshotText maxBytes) :=
  if fits : text.utf8ByteSize ≤ maxBytes - out.text.utf8ByteSize then
    some ⟨out.text ++ text, by
      have bounded := out.bounded
      rw [String.utf8ByteSize_append]
      omega⟩
  else
    none

structure BoundedLiveSnapshot where
  ansi : String
  omittedHistoryRows : Nat
  deriving DecidableEq

/-- The first row of this tail continues a wrapped row above it. -/
def Term.continuesRow (term : Term lines columns) (retained : Nat) : Bool :=
  retained < term.history.length &&
    (term.history[term.history.length - (retained + 1)]?).any Row.wraps

/-- The tail is shortened to the start of a line, or to nothing. -/
def Term.lineStart (term : Term lines columns) : Nat → Nat
  | 0 => 0
  | retained + 1 =>
      if term.continuesRow (retained + 1) then term.lineStart retained else retained + 1

def render (term : Term lines columns) (maxBytes retained : Nat) : Option BoundedLiveSnapshot :=
  let kept := term.lineStart retained
  ((writeLiveSnapshot term kept).foldlM SnapshotText.writeStr (.empty maxBytes)).map fun out =>
    ⟨out.text, term.history.length - kept⟩

/-- `none` says that the active screen and its state exceed the limit. -/
def boundedLiveSnapshot (term : Term lines columns) (maxBytes : Nat) :
    Option BoundedLiveSnapshot :=
  match render term maxBytes term.history.length with
  | some snapshot => some snapshot
  | none =>
      match render term maxBytes 0 with
      | none => none
      | some best =>
          some (Bisect.largest (render term maxBytes) 0 (term.history.length - 1) best)

end TerminalCanvas.LiveSnapshot
