import TerminalCanvas.Foundation.Ranges
import TerminalCanvas.Foundation.Segmentation
import TerminalCanvas.Foundation.Slices

/-! # The document of the file viewer

A text is prepared as logical lines and visual fragments, both ranges of bytes of the
text. Cancellation is left out. Where a slice or an expectation may panic, `none` stands
for the panic, and so it does for a loop that does not end. -/

namespace TerminalCanvas.App.FileViewer

open Json (byteLength)
open Ranges (Range)
open Slices (slice sliceFrom)

def fragmentByteCap : Nat := 1024

/-- A source line. Its ending is not part of a fragment. -/
structure LogicalLine where
  content : Range
  ending : Range
  /-- Indices of its fragments. -/
  fragments : Range
deriving DecidableEq, Repr

structure VisualFragment where
  logicalLine : Nat
  source : Range
  startsInsideGrapheme : Bool
  endsInsideGrapheme : Bool
deriving DecidableEq, Repr

structure SourceSelection where
  anchor : Nat
  caret : Nat
deriving DecidableEq, Repr

def SourceSelection.normalized (selection : SourceSelection) : Range :=
  ⟨min selection.anchor selection.caret, max selection.anchor selection.caret⟩

inductive OffsetError where
  | unknownFragment
  | invalidScalarCursor
  | invalidSourceOffset
deriving DecidableEq, Repr

structure SourceDocument where
  source : List Char
  lines : List LogicalLine
  fragments : List VisualFragment
  hasLongLines : Bool
deriving DecidableEq, Repr

def isCharBoundary (text : List Char) (offset : Nat) : Bool := (sliceFrom text offset).isSome

/-- The loop that steps back to a character boundary. -/
def floorCharBoundary (text : List Char) : Nat → Nat
  | 0 => 0
  | offset + 1 =>
      if isCharBoundary text (offset + 1) then offset + 1 else floorCharBoundary text offset

def splitInclusive : List Char → List (List Char)
  | [] => []
  | character :: rest =>
      if character = '\n' then
        [character] :: splitInclusive rest
      else
        match splitInclusive rest with
        | [] => [[character]]
        | line :: lines => (character :: line) :: lines

section Preparing

variable (graphemes : Segmentation) (source : List Char)

def chunkGrapheme (logicalLine start stop : Nat) :
    (fuel : Nat) → (chunkStart : Nat) → Option (List VisualFragment)
  | 0, chunkStart => if chunkStart < stop then none else some []
  | fuel + 1, chunkStart =>
      if chunkStart < stop then
        let chunkEnd := floorCharBoundary source (min (chunkStart + fragmentByteCap) stop)
        (chunkGrapheme logicalLine start stop fuel chunkEnd).map
          (⟨logicalLine, ⟨chunkStart, chunkEnd⟩, chunkStart ≠ start, chunkEnd ≠ stop⟩ :: ·)
      else
        some []

/-- The loop over the graphemes of a line: the fragments it pushes, and where the
fragment begins that is left. -/
def fragmentGraphemes (logicalLine : Nat) :
    List (List Char) → (start fragmentStart : Nat) → Option (List VisualFragment × Nat)
  | [], _, fragmentStart => some ([], fragmentStart)
  | grapheme :: later, start, fragmentStart =>
      let stop := start + byteLength grapheme
      if fragmentByteCap < byteLength grapheme then do
        let before := if fragmentStart < start then
          [⟨logicalLine, ⟨fragmentStart, start⟩, false, false⟩] else []
        let chunks ← chunkGrapheme source logicalLine start stop (byteLength grapheme) start
        let (pushed, left) ← fragmentGraphemes logicalLine later stop stop
        some (before ++ chunks ++ pushed, left)
      else if fragmentByteCap < stop - fragmentStart then do
        let (pushed, left) ← fragmentGraphemes logicalLine later stop start
        some (⟨logicalLine, ⟨fragmentStart, start⟩, false, false⟩ :: pushed, left)
      else
        fragmentGraphemes logicalLine later stop fragmentStart

/-- The fragments that `fragment_line` pushes. -/
def fragmentLine (content : Range) (logicalLine : Nat) : Option (List VisualFragment) := do
  let text ← slice source content.start content.stop
  let (pushed, fragmentStart) ←
    fragmentGraphemes source logicalLine (graphemes.segment text) content.start content.start
  if fragmentStart < content.stop ∨ content.stop ≤ content.start then
    some (pushed ++ [⟨logicalLine, ⟨fragmentStart, content.stop⟩, false, false⟩])
  else
    some pushed

structure Prepared where
  lines : List LogicalLine
  fragments : List VisualFragment
  hasLongLines : Bool
  start : Nat

def prepareLine (prepared : Prepared) (rawLine : List Char) : Option Prepared := do
  let start := prepared.start
  let stop := start + byteLength rawLine
  let contentEnd :=
    if ['\r', '\n'].isSuffixOf rawLine then stop - 2
    else if ['\n'].isSuffixOf rawLine then stop - 1
    else stop
  let pushed ← fragmentLine graphemes source ⟨start, contentEnd⟩ prepared.lines.length
  let firstFragment := prepared.fragments.length
  some
    { lines := prepared.lines ++ [⟨⟨start, contentEnd⟩, ⟨contentEnd, stop⟩,
        ⟨firstFragment, firstFragment + pushed.length⟩⟩]
      fragments := prepared.fragments ++ pushed
      hasLongLines := prepared.hasLongLines || fragmentByteCap < contentEnd - start
      start := stop }

def prepare : Option SourceDocument :=
  ((splitInclusive source).foldlM (prepareLine graphemes source) ⟨[], [], false, 0⟩).map
    fun prepared => ⟨source, prepared.lines, prepared.fragments, prepared.hasLongLines⟩

end Preparing

namespace SourceDocument

variable (document : SourceDocument)

def fragmentText (index : Nat) : Option (List Char) :=
  document.fragments[index]?.bind fun fragment =>
    slice document.source fragment.source.start fragment.source.stop

def charOffsets : List Char → List Nat
  | [] => [0]
  | character :: rest => 0 :: (charOffsets rest).map (byteLength [character] + ·)

def fragmentCursorToSource (index scalarCursor : Nat) : Option (Except OffsetError Nat) :=
  match document.fragments[index]? with
  | none => some (.error .unknownFragment)
  | some fragment => do
      let text ← slice document.source fragment.source.start fragment.source.stop
      match (charOffsets text)[scalarCursor]? with
      | none => some (.error .invalidScalarCursor)
      | some offset => some (.ok (fragment.source.start + offset))

def sourceToFragmentCursor (index offset : Nat) : Option (Except OffsetError Nat) :=
  match document.fragments[index]? with
  | none => some (.error .unknownFragment)
  | some fragment =>
      if offset < fragment.source.start ∨ fragment.source.stop < offset ∨
          ¬ isCharBoundary document.source offset then
        some (.error .invalidSourceOffset)
      else do
        let text ← slice document.source fragment.source.start offset
        some (.ok text.length)

def validSelection (selection : SourceSelection) : Except OffsetError Range :=
  let range := selection.normalized
  if byteLength document.source < range.stop ∨ ¬ isCharBoundary document.source range.start ∨
      ¬ isCharBoundary document.source range.stop then
    .error .invalidSourceOffset
  else
    .ok range

def selectionText (selection : SourceSelection) : Option (Except OffsetError (List Char)) :=
  match document.validSelection selection with
  | .error error => some (.error error)
  | .ok range => (slice document.source range.start range.stop).map .ok

end SourceDocument

end TerminalCanvas.App.FileViewer
