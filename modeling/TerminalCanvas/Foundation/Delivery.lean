import Mathlib.Data.List.Basic

/-! # Deliveries in order

Items are accepted into a queue, begun one at a time and written out piece by
piece. A superseding item takes the place of everything that is still queued. -/

namespace TerminalCanvas.Execution

structure Delivery (Item Symbol : Type) where
  /-- Every item whose writing has begun, in order. -/
  begun : List Item
  /-- The one of them that is not accounted for. -/
  inFlight : Option Item
  queued : List Item
  /-- What was written. -/
  output : List Symbol

namespace Delivery

variable {Item Symbol : Type}

def empty : Delivery Item Symbol := ⟨[], none, [], []⟩

/-- The accepted items in their order, less the superseded ones. -/
def accepted (delivery : Delivery Item Symbol) : List Item := delivery.begun ++ delivery.queued

/-- What has been begun and is not accounted for, and what is still to begin. -/
def outstanding (delivery : Delivery Item Symbol) : List Item :=
  delivery.inFlight.toList ++ delivery.queued

def accept (delivery : Delivery Item Symbol) (item : Item) : Delivery Item Symbol :=
  { delivery with queued := delivery.queued ++ [item] }

def supersede (delivery : Delivery Item Symbol) (item : Item) : Delivery Item Symbol :=
  { delivery with queued := [item] }

def begin (delivery : Delivery Item Symbol) : Delivery Item Symbol :=
  match delivery.queued with
  | [] => delivery
  | item :: queued =>
      { delivery with
        begun := delivery.begun ++ [item], inFlight := some item, queued := queued }

def write (delivery : Delivery Item Symbol) (chunk : List Symbol) : Delivery Item Symbol :=
  { delivery with output := delivery.output ++ chunk }

def settle (delivery : Delivery Item Symbol) : Delivery Item Symbol :=
  { delivery with inFlight := none }

variable (content : Item → List Symbol)

/-- Everything that was begun is written. -/
def Whole (delivery : Delivery Item Symbol) : Prop :=
  delivery.output = delivery.begun.flatMap content

/-- The last item that was begun is written up to an offset, the others are written
whole. -/
def Reaches (delivery : Delivery Item Symbol) (item : Item) (offset : Nat) : Prop :=
  ∃ earlier, delivery.begun = earlier ++ [item] ∧
    delivery.output = earlier.flatMap content ++ (content item).take offset

/-- Every item is written once and in order; the last one may have been given up. -/
structure InOrder (delivery : Delivery Item Symbol) : Prop where
  earlier : delivery.begun.dropLast.flatMap content <+: delivery.output
  begun : delivery.output <+: delivery.begun.flatMap content

variable {content} {delivery : Delivery Item Symbol} {item : Item} {offset : Nat}

theorem Whole.inOrder (whole : delivery.Whole content) : delivery.InOrder content where
  earlier := by
    rw [show delivery.output = delivery.begun.flatMap content from whole]
    obtain ⟨rest, equal⟩ := List.dropLast_prefix delivery.begun
    refine ⟨rest.flatMap content, ?_⟩
    rw [← List.flatMap_append, equal]
  begun := ⟨[], (List.append_nil _).trans whole⟩

theorem Reaches.inOrder (reaches : delivery.Reaches content item offset) :
    delivery.InOrder content := by
  obtain ⟨earlier, begun, output⟩ := reaches
  constructor
  · rw [begun, output, List.dropLast_concat]
    exact List.prefix_append _ _
  · rw [begun, output, List.flatMap_append, List.flatMap_singleton]
    exact (List.prefix_append_right_inj _).mpr (List.take_prefix _ _)

theorem Reaches.whole (reaches : delivery.Reaches content item offset)
    (covered : (content item).length ≤ offset) : delivery.Whole content := by
  obtain ⟨earlier, begun, output⟩ := reaches
  rw [List.take_of_length_le covered] at output
  rw [Whole, begun, output, List.flatMap_append, List.flatMap_singleton]

theorem Whole.begin {queued : List Item} (whole : delivery.Whole content)
    (next : delivery.queued = item :: queued) :
    delivery.begin.Reaches content item 0 := by
  refine ⟨delivery.begun, ?_, ?_⟩
  · rw [Delivery.begin, next]
  · rw [Delivery.begin, next, List.take_zero, List.append_nil]
    exact whole

theorem Reaches.write (reaches : delivery.Reaches content item offset) (count : Nat) :
    (delivery.write (((content item).drop offset).take count)).Reaches content item
      (offset + count) := by
  obtain ⟨earlier, begun, output⟩ := reaches
  refine ⟨earlier, begun, ?_⟩
  calc delivery.output ++ ((content item).drop offset).take count
      = earlier.flatMap content ++
          ((content item).take offset ++ ((content item).drop offset).take count) := by
        rw [output, List.append_assoc]
    _ = earlier.flatMap content ++ (content item).take (offset + count) := by
        rw [List.take_add]

theorem InOrder.accepted (inOrder : delivery.InOrder content) :
    delivery.output <+: delivery.accepted.flatMap content := by
  apply inOrder.begun.trans
  rw [Delivery.accepted, List.flatMap_append]
  exact List.prefix_append _ _

end Delivery

end TerminalCanvas.Execution
