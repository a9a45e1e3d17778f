import Mathlib.Data.Nat.Bitwise
import TerminalCanvas.Foundation.LittleEndian

/-! # Text

The operations on strings the program takes from the standard library, and its
comparison of secrets. -/

namespace TerminalCanvas

/-- The white space that `str::trim` strips. -/
def isWhiteSpace (character : Char) : Bool :=
  let code := character.toNat
  (9 ≤ code && code ≤ 13) || code = 0x20 || code = 0x85 || code = 0xA0 || code = 0x1680 ||
    (0x2000 ≤ code && code ≤ 0x200A) || code = 0x2028 || code = 0x2029 || code = 0x202F ||
    code = 0x205F || code = 0x3000

def trim (text : String) : String :=
  String.ofList (((text.toList.dropWhile isWhiteSpace).reverse.dropWhile isWhiteSpace).reverse)

def stripPrefix (text start : String) : Option String :=
  if start.toList.isPrefixOf text.toList then
    some (String.ofList (text.toList.drop start.length))
  else
    none

def isControl (character : Char) : Bool :=
  character.toNat < 0x20 || (0x7F ≤ character.toNat && character.toNat ≤ 0x9F)

/-- The bytes of a string in UTF-8. -/
def utf8Bytes (text : String) : Bytes := text.toUTF8.data.toList

/-- `constant_time_str_eq`: the time does not depend on where the secrets differ. -/
def constantTimeStrEq (left right : String) : Bool :=
  let differences := (utf8Bytes left).zip (utf8Bytes right) |>.map fun pair =>
    (pair.1 ^^^ pair.2).toNat
  differences.foldl (· ||| ·) ((utf8Bytes left).length ^^^ (utf8Bytes right).length) = 0

theorem foldl_or_eq_zero {start : Nat} {values : List Nat} :
    values.foldl (· ||| ·) start = 0 ↔ start = 0 ∧ ∀ value ∈ values, value = 0 := by
  induction values generalizing start with
  | nil => simp
  | cons value values induction =>
      rw [List.foldl_cons, induction, Nat.or_eq_zero_iff]
      simp [and_assoc]

theorem zip_eq_of_length {left right : Bytes} (lengths : left.length = right.length)
    (same : ∀ pair ∈ left.zip right, pair.1 = pair.2) : left = right := by
  induction left generalizing right with
  | nil => exact (List.eq_nil_of_length_eq_zero lengths.symm).symm
  | cons byte left induction =>
      cases right with
      | nil => simp at lengths
      | cons other right =>
          have head : byte = other := same (byte, other) (by simp)
          have tail := @induction right (by simpa using lengths)
            fun pair member => same pair (by simp [member])
          rw [head, tail]

theorem utf8Bytes_injective {left right : String} (same : utf8Bytes left = utf8Bytes right) :
    left = right := by
  apply String.toByteArray_inj.mp
  apply ByteArray.ext
  exact Array.toList_inj.mp same

theorem byte_xor_eq_zero {left right : UInt8} : (left ^^^ right).toNat = 0 ↔ left = right := by
  rw [← UInt8.xor_eq_zero_iff, ← UInt8.toNat_inj]
  rfl

theorem constantTimeStrEq_eq_true {left right : String} :
    constantTimeStrEq left right = true ↔ left = right := by
  simp only [constantTimeStrEq, decide_eq_true_eq, foldl_or_eq_zero, Nat.xor_eq_zero_iff]
  constructor
  · rintro ⟨lengths, zeros⟩
    apply utf8Bytes_injective
    apply zip_eq_of_length lengths
    intro pair member
    exact byte_xor_eq_zero.mp (zeros _ (List.mem_map_of_mem member))
  · rintro rfl
    refine ⟨rfl, ?_⟩
    intro value member
    obtain ⟨pair, paired, rfl⟩ := List.mem_map.mp member
    apply byte_xor_eq_zero.mpr
    rw [List.zip_eq_zipWith, List.zipWith_self] at paired
    obtain ⟨byte, -, rfl⟩ := List.mem_map.mp paired
    rfl

/-! ## UTF-8 -/

theorem utf8Bytes_ofList (text : List Char) :
    utf8Bytes (String.ofList text) = text.flatMap String.utf8EncodeChar := by
  rw [utf8Bytes, String.toUTF8, String.toByteArray_ofList, List.utf8Encode]
  simp

theorem fromUTF8_utf8Bytes (text : String) :
    String.fromUTF8? ⟨(utf8Bytes text).toArray⟩ = some text := by
  have bytes : (⟨(utf8Bytes text).toArray⟩ : ByteArray) = text.toByteArray := by
    simp [utf8Bytes, String.toUTF8]
  rw [bytes, String.fromUTF8?, dif_pos text.isValidUTF8]
  rfl

/-- An ASCII character is its own byte, and the others have no byte below 128. -/
theorem mem_utf8EncodeChar {character : Char} {byte : UInt8}
    (member : byte ∈ String.utf8EncodeChar character) :
    byte.toNat = character.toNat ∨ 0x80 ≤ byte.toNat := by
  unfold String.utf8EncodeChar at member
  dsimp only at member
  split at member
  · next small =>
      rw [List.mem_singleton.mp member]
      left
      have same : character.toNat = character.val.toNat := rfl
      rw [same, UInt8.toNat_ofNat']
      omega
  · right
    split at member
    · simp only [List.mem_cons, List.not_mem_nil, or_false] at member
      rcases member with rfl | rfl <;> rw [UInt8.toNat_ofNat'] <;> omega
    · split at member
      · simp only [List.mem_cons, List.not_mem_nil, or_false] at member
        rcases member with rfl | rfl | rfl <;> rw [UInt8.toNat_ofNat'] <;> omega
      · simp only [List.mem_cons, List.not_mem_nil, or_false] at member
        rcases member with rfl | rfl | rfl | rfl <;> rw [UInt8.toNat_ofNat'] <;> omega

theorem length_utf8EncodeChar_of_ascii {character : Char} (ascii : character.toNat ≤ 0x7F) :
    (String.utf8EncodeChar character).length = 1 := by
  have small : character.val.toNat ≤ 0x7F := ascii
  unfold String.utf8EncodeChar
  dsimp only
  rw [if_pos small]
  rfl

end TerminalCanvas
