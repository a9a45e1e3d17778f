import Mathlib.Algebra.GroupWithZero.Nat
import Mathlib.Data.List.Basic

/-! # Little-endian bytes

Fixed-width natural numbers as byte strings, least-significant byte first. -/

namespace TerminalCanvas

abbrev Bytes := List UInt8

namespace LittleEndian

/-- The low `width` bytes of a number. -/
def leBytes : (width : Nat) → Nat → Bytes
  | 0, _ => []
  | width + 1, value => UInt8.ofNat value :: leBytes width (value / 256)

/-- The number a byte string stands for. -/
def ofLeBytes : Bytes → Nat
  | [] => 0
  | byte :: rest => byte.toNat + 256 * ofLeBytes rest

@[simp] theorem length_leBytes (width value : Nat) : (leBytes width value).length = width := by
  induction width generalizing value with
  | zero => rfl
  | succ width induction => simp [leBytes, induction]

theorem ofLeBytes_leBytes (width value : Nat) :
    ofLeBytes (leBytes width value) = value % 256 ^ width := by
  induction width generalizing value with
  | zero => simp [leBytes, ofLeBytes, Nat.mod_one]
  | succ width induction =>
      have byte : (UInt8.ofNat value).toNat = value % 256 := by simp
      rw [leBytes, ofLeBytes, induction, byte, Nat.pow_succ', Nat.mod_mul]

theorem ofLeBytes_leBytes_of_lt {width value : Nat} (fits : value < 256 ^ width) :
    ofLeBytes (leBytes width value) = value := by
  rw [ofLeBytes_leBytes, Nat.mod_eq_of_lt fits]

theorem ofLeBytes_lt (bytes : Bytes) : ofLeBytes bytes < 256 ^ bytes.length := by
  induction bytes with
  | nil => simp [ofLeBytes]
  | cons byte rest induction =>
      have small : byte.toNat < 256 := byte.toNat_lt
      rw [ofLeBytes, List.length_cons, Nat.pow_succ']
      omega

@[simp] theorem leBytes_ofLeBytes (bytes : Bytes) :
    leBytes bytes.length (ofLeBytes bytes) = bytes := by
  induction bytes with
  | nil => rfl
  | cons byte rest induction =>
      have small : byte.toNat < 256 := byte.toNat_lt
      have head : UInt8.ofNat (ofLeBytes (byte :: rest)) = byte := by
        apply UInt8.toNat_inj.mp
        rw [ofLeBytes, UInt8.toNat_ofNat']
        omega
      have tail : ofLeBytes (byte :: rest) / 256 = ofLeBytes rest := by
        rw [ofLeBytes]
        omega
      rw [List.length_cons, leBytes, head, tail, induction]

end LittleEndian

end TerminalCanvas
