import Mathlib.Data.Nat.Basic

/-! # The largest attempt that succeeds

A binary search over attempts where each success makes the smaller ones succeed. -/

namespace TerminalCanvas.Bisect

variable {Result : Type} (attempt : Nat → Option Result)

/-- The result of the largest successful attempt above `low`, or `best`. -/
def largest (low high : Nat) (best : Result) : Result :=
  if low < high then
    let middle := low + (high - low + 1) / 2
    match attempt middle with
    | some result => largest middle high result
    | none => largest low (middle - 1) best
  else
    best
termination_by high - low

/-- Attempts up to `bound` that succeed make the smaller ones succeed. -/
def Downward (bound : Nat) : Prop :=
  ∀ small large, small ≤ large → large ≤ bound → (attempt large).isSome → (attempt small).isSome

variable {attempt}

/-- The search ends with a successful attempt behind which all others fail. -/
theorem largest_spec {bound : Nat} (downward : Downward attempt bound) (low high : Nat)
    {best : Result} (found : attempt low = some best) (ordered : low ≤ high) (inside : high ≤ bound)
    (behind : ∀ count, high < count → count ≤ bound → attempt count = none) :
    ∃ count ≤ bound, attempt count = some (largest attempt low high best) ∧
      ∀ other, count < other → other ≤ bound → attempt other = none := by
  induction low, high, best using largest.induct attempt with
  | case1 low high best open_ middle result success induction =>
      rw [largest, if_pos open_]
      simp only [middle] at success
      simp only [success]
      exact induction success (by omega) inside behind
  | case2 low high best open_ middle failure induction =>
      rw [largest, if_pos open_]
      simp only [middle] at failure
      simp only [failure]
      refine induction found (by omega) (by omega) fun count above below => ?_
      -- a success above the failed middle would make the middle succeed
      by_contra success
      have lower := downward middle count (by omega) below
        (Option.isSome_iff_ne_none.mpr success)
      simp [middle, failure] at lower
  | case3 low high best closed =>
      rw [largest, if_neg closed]
      refine ⟨low, by omega, found, fun other above below => behind other (by omega) below⟩

end TerminalCanvas.Bisect
