import Mathlib.Data.Nat.Basic

/-! # Loops over an offset

A round of such a loop leaves it, or goes on at another offset with the items it found.
Rounds that move forward within a length bring the loop to its end. -/

namespace TerminalCanvas.Offsets

variable {Item : Type}

/-- What a round does at an offset: `none` is a panic, `some none` leaves the loop. -/
abbrev Round (Item : Type) := Nat → Option (Option (Nat × List Item))

/-- A loop that has not ended after as many rounds as its fuel has no items. -/
def loop (round : Round Item) : Nat → Nat → Option (List Item)
  | 0, _ => none
  | fuel + 1, offset => do
      match ← round offset with
      | none => pure []
      | some (next, found) =>
          let later ← loop round fuel next
          pure (found ++ later)

/-- The items of a loop, in the order in which its rounds find them. -/
inductive Runs (round : Round Item) : Nat → List Item → Prop where
  | stop {offset : Nat} (left : round offset = some none) : Runs round offset []
  | next {offset after : Nat} {found later : List Item}
      (step : round offset = some (some (after, found))) (rest : Runs round after later) :
      Runs round offset (found ++ later)

/-- The rounds of a loop from one offset to another. -/
inductive Reaches (round : Round Item) (start : Nat) : Nat → Prop where
  | start : Reaches round start start
  | next {offset after : Nat} {found : List Item} (before : Reaches round start offset)
      (step : round offset = some (some (after, found))) : Reaches round start after

variable {round : Round Item} {offset start : Nat} {items : List Item}

theorem Reaches.found {after : Nat} {found : List Item} (reaches : Reaches round start offset)
    (step : round offset = some (some (after, found))) (runs : Runs round start items) :
    ∀ item ∈ found, item ∈ items := by
  suffices behind : ∃ later, Runs round offset later ∧ ∀ item ∈ later, item ∈ items by
    obtain ⟨later, rest, inside⟩ := behind
    cases rest with
    | stop left => cases left.symm.trans step
    | next step' rest' =>
        cases step.symm.trans step'
        intro item member
        exact inside item (List.mem_append_left _ member)
  clear step
  induction reaches with
  | start => exact ⟨items, runs, fun _ => id⟩
  | next before step induction =>
      obtain ⟨later, rest, inside⟩ := induction
      cases rest with
      | stop left => cases left.symm.trans step
      | next step' rest' =>
          cases step.symm.trans step'
          exact ⟨_, rest', fun item member => inside item (List.mem_append_right _ member)⟩

/-- A loop whose rounds move forward ends within the fuel that its length gives. -/
theorem loop_runs {length : Nat} {safe : Nat → Prop} {good : Item → Prop}
    (advances : ∀ offset, safe offset → round offset = some none ∨
      ∃ after found, round offset = some (some (after, found)) ∧ offset < after ∧
        after ≤ length ∧ safe after ∧ ∀ item ∈ found, good item)
    (fuel : Nat) (offset : Nat) (begins : safe offset) (enough : length < offset + fuel)
    (within : offset ≤ length) :
    ∃ items, loop round fuel offset = some items ∧ Runs round offset items ∧
      ∀ item ∈ items, good item := by
  induction fuel generalizing offset with
  | zero => omega
  | succ fuel induction =>
      rcases advances offset begins with left | ⟨after, found, step, forward, inside, next, goods⟩
      · refine ⟨[], ?_, .stop left, List.forall_mem_nil _⟩
        rw [loop, left]
        rfl
      · obtain ⟨later, loops, rest, laterGood⟩ := induction after next (by omega) inside
        refine ⟨found ++ later, ?_, .next step rest, List.forall_mem_append.mpr ⟨goods, laterGood⟩⟩
        rw [loop, step]
        simp [loops]

end TerminalCanvas.Offsets
