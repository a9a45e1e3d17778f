import TerminalCanvas.App.FileViewerDocument

/-! # The caret of the file viewer

The functions that move the caret over a prepared document. Where an index, a slice or an
expectation may panic, `none` stands for the panic. -/

namespace TerminalCanvas.App.FileViewer

open Json (byteLength)
open Ranges (Range partitionPoint spans)
open Slices (slice sliceFrom sliceTo)

inductive Key where
  | arrowLeft
  | arrowRight
  | arrowUp
  | arrowDown
  | home
  | endKey
  /-- Every other key. -/
  | other
deriving DecidableEq, Repr

/-- What moving the caret reads and writes of the state. -/
structure SelectionState where
  selection : Option SourceSelection
  activeLine : Nat
  caretFragment : Option Nat
  preferredColumn : Option Nat
  scrollTarget : Option Nat
  revealCaret : Bool
  visible : Range
deriving DecidableEq, Repr

section Moves

variable (graphemes : Segmentation) (document : SourceDocument)

def lineForOffset (offset : Nat) : Option Nat :=
  if document.lines.isEmpty then none
  else some (partitionPoint (fun line => line.content.start ≤ offset) document.lines - 1)

def fragmentForOffset (offset : Nat) : Option Nat :=
  if document.fragments.isEmpty then none
  else some (min (partitionPoint (fun fragment => fragment.source.stop < offset) document.fragments)
    (document.fragments.length - 1))

def caretFragment (state : SelectionState) (offset : Nat) : Option Nat :=
  let kept := state.caretFragment.filter fun index =>
    match document.fragments[index]? with
    | some fragment => fragment.source.start ≤ offset ∧ offset ≤ fragment.source.stop
    | none => false
  match kept with
  | some index => some index
  | none => fragmentForOffset document offset

/-- Where the graphemes of a text start, as `text.grapheme_indices(true)` lists them. -/
def graphemeIndices (text : List Char) : List Nat :=
  (spans byteLength 0 (graphemes.segment text)).map Range.start

def fragmentToScan (line : LogicalLine) (offset : Nat) (right : Bool) : Option Nat := do
  let index ← fragmentForOffset document offset
  let fragment ← document.fragments[index]?
  if right ∧ offset = fragment.source.stop ∧ index + 1 < line.fragments.stop then
    some (index + 1)
  else if ¬ right ∧ offset = fragment.source.start ∧ line.fragments.start < index then
    some (index - 1)
  else
    some index

def horizontalOffset (offset : Nat) (right : Bool) : Option Nat :=
  match lineForOffset document offset with
  | none => some 0
  | some lineIndex => do
    let line ← document.lines[lineIndex]?
    if right ∧ line.content.stop ≤ offset then
      match document.lines[lineIndex + 1]? with
      | some next => some next.content.start
      | none => some (byteLength document.source)
    else if ¬ right ∧ line.content.stop < offset then
      some line.content.stop
    else if ¬ right ∧ offset = line.content.start then
      match lineIndex with
      | 0 => some 0
      | previous + 1 => (document.lines[previous]?).map fun line => line.content.stop
    else do
      let index ← fragmentToScan document line offset right
      let fragment ← document.fragments[index]?
      let relative := min (offset - fragment.source.start) fragment.source.length
      let text ← document.fragmentText index
      if right then do
        let rest ← sliceFrom text relative
        some (offset + (((graphemes.segment rest).head?).map byteLength).getD 0)
      else do
        let before ← sliceTo text relative
        some (fragment.source.start + ((graphemeIndices graphemes before).getLast?).getD 0)

structure Target where
  offset : Nat
  fragment : Option Nat
  column : Option Nat
deriving DecidableEq, Repr

def clamp (value low high : Nat) : Option Nat :=
  if low ≤ high then some (max low (min value high)) else none

def verticalTarget (state : SelectionState) (caret : Nat) (up : Bool) : Option Target :=
  match caretFragment document state caret with
  | none => some ⟨0, none, none⟩
  | some index => do
    let current ← document.fragments[index]?
    let within ← clamp caret current.source.start current.source.stop
    let preferred ← match state.preferredColumn with
      | some column => some column
      | none => (slice document.source current.source.start within).map List.length
    let next := if up then index - 1 else min (index + 1) (document.fragments.length - 1)
    let text ← document.fragmentText next
    match ← document.fragmentCursorToSource next (min preferred text.length) with
    | .error _ => none
    | .ok offset => do
      let fragment ← document.fragments[next]?
      let relative := offset - fragment.source.start
      let start ← (graphemeIndices graphemes text ++ [byteLength text]).find? (relative ≤ ·)
      some ⟨fragment.source.start + start, some next, some preferred⟩

/-- The start or the end of the line, or of the text. -/
def edgeTarget (caret : Nat) (toEnd wholeText : Bool) : Option Nat :=
  if wholeText then
    some (if toEnd then byteLength document.source else 0)
  else
    match lineForOffset document caret with
    | none => some 0
    | some index => (document.lines[index]?).map fun line =>
        if toEnd then line.content.stop else line.content.start

/-- The target of a key. A key that does not move the caret has none. -/
def keyTarget (state : SelectionState) (old : SourceSelection) (key : Key)
    (shift command : Bool) : Option (Option Target) :=
  let range := old.normalized
  let plain := fun offset : Nat => some (Target.mk offset none none)
  match key with
  | .arrowLeft =>
      if ¬ shift ∧ range.start ≠ range.stop then some (plain range.start)
      else if ¬ command then (horizontalOffset graphemes document old.caret false).map plain
      else (edgeTarget document old.caret false false).map plain
  | .arrowRight =>
      if ¬ shift ∧ range.start ≠ range.stop then some (plain range.stop)
      else if ¬ command then (horizontalOffset graphemes document old.caret true).map plain
      else (edgeTarget document old.caret true false).map plain
  | .home => (edgeTarget document old.caret false command).map plain
  | .endKey => (edgeTarget document old.caret true command).map plain
  | .arrowUp => (verticalTarget graphemes document state old.caret true).map some
  | .arrowDown => (verticalTarget graphemes document state old.caret false).map some
  | .other => some none

def navigate (state : SelectionState) (key : Key) (shift command : Bool) :
    Option SelectionState := do
  let old := state.selection.getD ⟨0, 0⟩
  match ← keyTarget graphemes document state old key shift command with
  | none => some state
  | some target =>
    let caretFragment := match target.fragment with
      | some index => some index
      | none => fragmentForOffset document target.offset
    some { state with
      selection := some ⟨if shift then old.anchor else target.offset, target.offset⟩
      caretFragment := caretFragment
      preferredColumn := target.column
      activeLine := (lineForOffset document target.offset).getD 0
      scrollTarget := match caretFragment with
        | some index =>
            if state.visible.start ≤ index ∧ index < state.visible.stop then state.scrollTarget
            else some index
        | none => state.scrollTarget
      revealCaret := true }

end Moves

end TerminalCanvas.App.FileViewer
