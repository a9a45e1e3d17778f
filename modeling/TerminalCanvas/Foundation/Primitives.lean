import Mathlib.Algebra.Group.Int.Defs
import Mathlib.Algebra.GroupWithZero.Nat

/-! # Primitive values of the program

Fixed-width integers are kept as `Nat` and `Int` with the checked and saturating
operations the program applies to them. -/

namespace TerminalCanvas

structure Uuid where
  asU128 : BitVec 128
deriving DecidableEq, Repr

namespace Uuid

def fromU128 (value : Nat) : Uuid := ⟨BitVec.ofNat 128 value⟩

def nil : Uuid := fromU128 0

/-- The lowest `width` hexadecimal digits, most significant first. -/
def hexDigits : (width : Nat) → Nat → List Char
  | 0, _ => []
  | width + 1, value => hexDigits width (value / 16) ++ [Nat.digitChar (value % 16)]

theorem length_hexDigits (width value : Nat) : (hexDigits width value).length = width := by
  induction width generalizing value with
  | zero => rfl
  | succ width induction => rw [hexDigits, List.length_append, induction]; rfl

/-- The hyphenated text of an identifier. -/
def display (id : Uuid) : String :=
  let digits := hexDigits 32 id.asU128.toNat
  String.ofList (digits.take 8 ++ ['-'] ++ (digits.drop 8).take 4 ++ ['-'] ++
    (digits.drop 12).take 4 ++ ['-'] ++ (digits.drop 16).take 4 ++ ['-'] ++ digits.drop 20)

theorem hexDigits_injective {width first second : Nat} (firstFits : first < 16 ^ width)
    (secondFits : second < 16 ^ width) (same : hexDigits width first = hexDigits width second) :
    first = second := by
  have digits : ∀ one < 16, ∀ other < 16, Nat.digitChar one = Nat.digitChar other →
      one = other := by decide
  induction width generalizing first second with
  | zero => omega
  | succ width induction =>
      rw [Nat.pow_succ] at firstFits secondFits
      obtain ⟨high, low⟩ := List.append_inj' same rfl
      have highs := induction (by omega) (by omega) high
      have lows := digits _ (Nat.mod_lt _ (by decide)) _ (Nat.mod_lt _ (by decide))
        (List.singleton_inj.mp low)
      omega

theorem regroup (digits : List Char) : digits = digits.take 8 ++ ((digits.drop 8).take 4 ++
    ((digits.drop 12).take 4 ++ ((digits.drop 16).take 4 ++ digits.drop 20))) := by
  have tail : ∀ count, digits.drop count =
      (digits.drop count).take 4 ++ digits.drop (count + 4) := by
    intro count
    rw [← List.drop_drop, List.take_append_drop]
  rw [← tail 16, ← tail 12, ← tail 8, List.take_append_drop]

theorem display_injective {first second : Uuid} (same : first.display = second.display) :
    first = second := by
  have lists := congrArg String.toList same
  simp only [display, String.toList_ofList] at lists
  have firstLength := length_hexDigits 32 first.asU128.toNat
  have secondLength := length_hexDigits 32 second.asU128.toNat
  obtain ⟨lists, fifth⟩ := List.append_inj' lists (by simp [firstLength, secondLength])
  obtain ⟨lists, fourth⟩ := List.append_inj' (List.append_cancel_right lists)
    (by simp [firstLength, secondLength])
  obtain ⟨lists, third⟩ := List.append_inj' (List.append_cancel_right lists)
    (by simp [firstLength, secondLength])
  obtain ⟨lists, second'⟩ := List.append_inj' (List.append_cancel_right lists)
    (by simp [firstLength, secondLength])
  have digits : hexDigits 32 first.asU128.toNat = hexDigits 32 second.asU128.toNat := by
    rw [regroup (hexDigits 32 first.asU128.toNat), List.append_cancel_right lists, second', third,
      fourth, fifth, ← regroup]
  have values := hexDigits_injective first.asU128.isLt second.asU128.isLt digits
  have same := BitVec.eq_of_toNat_eq values
  cases first
  exact congrArg Uuid.mk same

/-- The text of an identifier without hyphens. -/
def simple (id : Uuid) : String := String.ofList (hexDigits 32 id.asU128.toNat)

end Uuid

/-- `u64::MAX`, also `usize::MAX` on the supported targets. -/
def u64Max : Nat := 2 ^ 64 - 1

def i64Max : Int := 2 ^ 63 - 1

/-- `checked_add` on `u64`. -/
def checkedAddU64 (left right : Nat) : Option Nat :=
  if left + right ≤ u64Max then some (left + right) else none

def u32Max : Nat := 2 ^ 32 - 1

/-- `checked_add` on `u32`. -/
def checkedAddU32 (left right : Nat) : Option Nat :=
  if left + right ≤ u32Max then some (left + right) else none

/-- `checked_add` on `i64` for a non-negative addend. -/
def checkedAddI64 (left right : Int) : Option Int :=
  if left + right ≤ i64Max then some (left + right) else none

/-- `saturating_add` on `usize`. -/
def saturatingAddUsize (left right : Nat) : Nat := min (left + right) u64Max

theorem checkedAddU64_eq_some {left right result : Nat} :
    checkedAddU64 left right = some result ↔
      left + right ≤ u64Max ∧ result = left + right := by
  unfold checkedAddU64
  split
  · next fits => simp [fits, eq_comm]
  · next overflows => simp [overflows]

theorem checkedAddU32_eq_some {left right result : Nat} :
    checkedAddU32 left right = some result ↔
      left + right ≤ u32Max ∧ result = left + right := by
  unfold checkedAddU32
  split
  · next fits => simp [fits, eq_comm]
  · next overflows => simp [overflows]

theorem checkedAddI64_eq_some {left right result : Int} :
    checkedAddI64 left right = some result ↔
      left + right ≤ i64Max ∧ result = left + right := by
  unfold checkedAddI64
  split
  · next fits => simp [fits, eq_comm]
  · next overflows => simp [overflows]

end TerminalCanvas
