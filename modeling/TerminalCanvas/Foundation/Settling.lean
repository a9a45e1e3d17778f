import Mathlib.Order.Monotone.Basic

/-! # Settling on a fixed point

A value that is recomputed until it no longer changes. Below a value that the function
does not raise, a monotone function settles from wherever it starts. -/

namespace TerminalCanvas.Settling

variable (function : Nat → Nat)

/-- Recompute a value until it stays, for a number of rounds at most. -/
def settle : (rounds : Nat) → Nat → Nat
  | 0, value => value
  | rounds + 1, value =>
      if function value = value then value else settle rounds (function value)

variable {function}

/-- Where the function settles from a value: a fixed point that passes no value on the way
which the function does not move further. -/
structure SettlesAt (function : Nat → Nat) (value result : Nat) : Prop where
  fixed : function result = result
  least : ∀ other, function other ≤ other → value ≤ other → result ≤ other
  greatest : ∀ other, other ≤ function other → other ≤ value → other ≤ result

theorem SettlesAt.of_next {value result : Nat} (monotone : Monotone function)
    (next : SettlesAt function (function value) result) : SettlesAt function value result := by
  refine ⟨next.fixed, ?_, ?_⟩
  · intro other lowers below
    exact next.least other lowers (le_trans (monotone below) lowers)
  · intro other raises above
    exact next.greatest other raises (le_trans raises (monotone above))

theorem SettlesAt.of_fixed {value : Nat} (fixed : function value = value) :
    SettlesAt function value value :=
  ⟨fixed, fun _ _ below => below, fun _ _ above => above⟩

theorem settles_down (monotone : Monotone function) {rounds value : Nat}
    (lowers : function value ≤ value) (enough : value ≤ rounds) :
    SettlesAt function value (settle function rounds value) := by
  induction rounds generalizing value with
  | zero =>
      have fixed : function value = value := by omega
      exact .of_fixed fixed
  | succ rounds induction =>
      rw [settle]
      split
      · next fixed => exact .of_fixed fixed
      · next moves =>
          refine .of_next monotone (induction (monotone lowers) ?_)
          omega

/-- A value that the function raises settles before any bound that it keeps. -/
theorem settles_up (monotone : Monotone function) {rounds value bound : Nat}
    (raises : value ≤ function value) (below : value ≤ bound) (keeps : function bound ≤ bound)
    (enough : bound - value ≤ rounds) :
    SettlesAt function value (settle function rounds value) := by
  induction rounds generalizing value with
  | zero =>
      have equal : value = bound := by omega
      have fixed : function value = value := le_antisymm (equal ▸ keeps) raises
      exact .of_fixed fixed
  | succ rounds induction =>
      rw [settle]
      split
      · next fixed => exact .of_fixed fixed
      · next moves =>
          have stays : function value ≤ bound := le_trans (monotone below) keeps
          refine .of_next monotone (induction (monotone raises) stays ?_)
          omega

/-- A function that lowers whatever is beyond a bound settles from everywhere. -/
theorem settles (monotone : Monotone function) {rounds value bound : Nat}
    (lowers : ∀ other, bound ≤ other → function other ≤ other)
    (enough : max value bound ≤ rounds) :
    SettlesAt function value (settle function rounds value) := by
  rcases Nat.le_total (function value) value with lower | raises
  · exact settles_down monotone lower (by omega)
  · rcases Nat.le_total value bound with below | beyond
    · exact settles_up monotone raises below (lowers bound (le_refl _)) (by omega)
    · exact settles_down monotone (lowers value beyond) (by omega)

/-! ## Results -/

theorem SettlesAt.stays {value result : Nat} (at' : SettlesAt function value result)
    (fixed : function value = value) : result = value :=
  le_antisymm (at'.least value (le_of_eq fixed) (le_refl _))
    (at'.greatest value (le_of_eq fixed.symm) (le_refl _))

end TerminalCanvas.Settling
