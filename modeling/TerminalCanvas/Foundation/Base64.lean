import TerminalCanvas.Foundation.LittleEndian

/-! # Base64

The standard alphabet with padding: four characters for every three bytes. -/

namespace TerminalCanvas.Base64

/-- The character of a six-bit number. -/
def digit (value : Nat) : Char :=
  if value < 26 then Char.ofNat (value + 65)
  else if value < 52 then Char.ofNat (value + 71)
  else if value < 62 then Char.ofNat (value - 4)
  else if value = 62 then Char.ofNat 43
  else Char.ofNat 47

def padding : Char := Char.ofNat 61

def alphabet : List Char := (List.range 64).map digit ++ [padding]

def encode : Bytes → List Char
  | [] => []
  | [first] => [digit (first.toNat / 4), digit (first.toNat % 4 * 16), padding, padding]
  | [first, second] =>
      [digit (first.toNat / 4), digit (first.toNat % 4 * 16 + second.toNat / 16),
        digit (second.toNat % 16 * 4), padding]
  | first :: second :: third :: rest =>
      digit (first.toNat / 4) :: digit (first.toNat % 4 * 16 + second.toNat / 16) ::
        digit (second.toNat % 16 * 4 + third.toNat / 64) :: digit (third.toNat % 64) ::
        encode rest

theorem length_encode (bytes : Bytes) :
    (encode bytes).length = 4 * ((bytes.length + 2) / 3) := by
  induction bytes using encode.induct with
  | case1 => rfl
  | case2 first => simp [encode]
  | case3 first second => simp [encode]
  | case4 first second third rest induction =>
      rw [encode, List.length_cons, List.length_cons, List.length_cons, List.length_cons,
        induction, List.length_cons, List.length_cons, List.length_cons]
      omega

theorem digit_mem_alphabet {value : Nat} (bound : value < 64) : digit value ∈ alphabet :=
  List.mem_append_left _ (List.mem_map_of_mem (List.mem_range.mpr bound))

theorem padding_mem_alphabet : padding ∈ alphabet :=
  List.mem_append_right _ (List.mem_singleton_self _)

theorem mem_alphabet_of_mem_encode {bytes : Bytes} {character : Char}
    (member : character ∈ encode bytes) : character ∈ alphabet := by
  induction bytes using encode.induct with
  | case1 => cases member
  | case2 first =>
      have high := first.toNat_lt
      simp only [encode, List.mem_cons, List.not_mem_nil, or_false] at member
      rcases member with rfl | rfl | rfl | rfl
      · exact digit_mem_alphabet (by omega)
      · exact digit_mem_alphabet (by omega)
      · exact padding_mem_alphabet
      · exact padding_mem_alphabet
  | case3 first second =>
      have high := first.toNat_lt
      have low := second.toNat_lt
      simp only [encode, List.mem_cons, List.not_mem_nil, or_false] at member
      rcases member with rfl | rfl | rfl | rfl
      · exact digit_mem_alphabet (by omega)
      · exact digit_mem_alphabet (by omega)
      · exact digit_mem_alphabet (by omega)
      · exact padding_mem_alphabet
  | case4 first second third rest induction =>
      have high := first.toNat_lt
      have middle := second.toNat_lt
      have low := third.toNat_lt
      simp only [encode, List.mem_cons] at member
      rcases member with rfl | rfl | rfl | rfl | member
      · exact digit_mem_alphabet (by omega)
      · exact digit_mem_alphabet (by omega)
      · exact digit_mem_alphabet (by omega)
      · exact digit_mem_alphabet (by omega)
      · exact induction member

example : String.ofList (encode [104, 111, 108, 97]) = "aG9sYQ==" := by decide

end TerminalCanvas.Base64
