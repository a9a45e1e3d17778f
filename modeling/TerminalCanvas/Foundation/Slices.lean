import TerminalCanvas.Foundation.Json

/-! # Slices of UTF-8 text

Offsets into a text count its bytes. A slice between two characters is a part of the
text, and every other slice is a panic. -/

namespace TerminalCanvas.Slices

open Json (byteLength byteLength_append)

def sliceFrom : List Char → Nat → Option (List Char)
  | text, 0 => some text
  | [], _ + 1 => none
  | character :: rest, offset + 1 =>
      if offset + 1 < byteLength [character] then none
      else sliceFrom rest (offset + 1 - byteLength [character])

def sliceTo : List Char → Nat → Option (List Char)
  | _, 0 => some []
  | [], _ + 1 => none
  | character :: rest, offset + 1 =>
      if offset + 1 < byteLength [character] then none
      else (sliceTo rest (offset + 1 - byteLength [character])).map (character :: ·)

/-- `text[start..stop]`. -/
def slice (text : List Char) (start stop : Nat) : Option (List Char) :=
  if start ≤ stop then (sliceFrom text start).bind (sliceTo · (stop - start)) else none

/-- The bytes of a text, each as the character of its number. -/
def bytes (text : List Char) : List Char :=
  (text.flatMap String.utf8EncodeChar).map fun byte => Char.ofNat byte.toNat

/-- `text.as_bytes().get(offset)`. -/
def byteAt (text : List Char) (offset : Nat) : Option Char := (bytes text)[offset]?

def find (pattern : List Char) : List Char → Option Nat
  | [] => if pattern.isPrefixOf [] then some 0 else none
  | character :: rest =>
      if pattern.isPrefixOf (character :: rest) then some 0
      else (find pattern rest).map (byteLength [character] + ·)

/-- A slice may start or end at this offset. -/
def Boundary (text : List Char) (offset : Nat) : Prop :=
  ∃ before after, text = before ++ after ∧ offset = byteLength before

/-! ## Slices at boundaries -/

theorem byteLength_nil : byteLength [] = 0 := rfl

theorem byteLength_cons_eq (character : Char) (rest : List Char) :
    byteLength (character :: rest) = byteLength [character] + byteLength rest :=
  byteLength_append [character] rest

theorem byteLength_single_pos (character : Char) : 0 < byteLength [character] := by
  rw [byteLength, List.flatMap_singleton, String.length_utf8EncodeChar]
  exact character.utf8Size_pos

theorem sliceFrom_cons (character : Char) (rest : List Char) (offset : Nat) :
    sliceFrom (character :: rest) (byteLength [character] + offset) = sliceFrom rest offset := by
  obtain ⟨size, size_eq⟩ : ∃ size, byteLength [character] = size + 1 :=
    ⟨_, (Nat.succ_pred_eq_of_pos (byteLength_single_pos character)).symm⟩
  have shape : byteLength [character] + offset = size + offset + 1 := by omega
  rw [shape, sliceFrom, if_neg (by omega)]
  congr 1
  omega

theorem sliceTo_cons (character : Char) (rest : List Char) (offset : Nat) :
    sliceTo (character :: rest) (byteLength [character] + offset) =
      (sliceTo rest offset).map (character :: ·) := by
  obtain ⟨size, size_eq⟩ : ∃ size, byteLength [character] = size + 1 :=
    ⟨_, (Nat.succ_pred_eq_of_pos (byteLength_single_pos character)).symm⟩
  have shape : byteLength [character] + offset = size + offset + 1 := by omega
  rw [shape, sliceTo, if_neg (by omega)]
  congr 2
  omega

theorem sliceFrom_append (before after : List Char) :
    sliceFrom (before ++ after) (byteLength before) = some after := by
  induction before with
  | nil => cases after <;> rfl
  | cons character before induction =>
      rw [List.cons_append, byteLength_cons_eq, sliceFrom_cons, induction]

theorem sliceTo_append (before after : List Char) :
    sliceTo (before ++ after) (byteLength before) = some before := by
  induction before with
  | nil => cases after <;> rfl
  | cons character before induction =>
      rw [List.cons_append, byteLength_cons_eq, sliceTo_cons, induction, Option.map_some]

theorem slice_append (before middle after : List Char) :
    slice (before ++ (middle ++ after)) (byteLength before) (byteLength (before ++ middle)) =
      some middle := by
  rw [slice, byteLength_append, if_pos (Nat.le_add_right _ _), sliceFrom_append, Option.bind_some,
    Nat.add_sub_cancel_left, sliceTo_append]

theorem slice_prefix (before : List Char) {middle rest : List Char} (starts : middle <+: rest) :
    slice (before ++ rest) (byteLength before) (byteLength (before ++ middle)) = some middle := by
  obtain ⟨after, rfl⟩ := starts
  exact slice_append before middle after

theorem Boundary.intro (before after : List Char) :
    Boundary (before ++ after) (byteLength before) := ⟨before, after, rfl, rfl⟩

theorem Boundary.le {text : List Char} {offset : Nat} (boundary : Boundary text offset) :
    offset ≤ byteLength text := by
  obtain ⟨before, after, rfl, rfl⟩ := boundary
  rw [byteLength_append]
  exact Nat.le_add_right _ _

theorem Boundary.between {text : List Char} {start stop : Nat} (first : Boundary text start)
    (second : Boundary text stop) (order : start ≤ stop) :
    ∃ before middle after, text = before ++ (middle ++ after) ∧ start = byteLength before ∧
      stop = byteLength (before ++ middle) := by
  obtain ⟨before, after, text_eq, rfl⟩ := first
  obtain ⟨before', after', rfl, rfl⟩ := second
  rcases List.append_eq_append_iff.mp text_eq with ⟨middle, rfl, rfl⟩ | ⟨middle, rfl, rfl⟩
  · rw [byteLength_append] at order
    have nothing : byteLength middle = 0 := by omega
    cases middle with
    | nil => exact ⟨before', [], after, rfl, by rw [List.append_nil], by rw [List.append_nil]⟩
    | cons character middle =>
        have positive := byteLength_single_pos character
        rw [byteLength_cons_eq] at nothing
        omega
  · exact ⟨before, middle, after', by simp, rfl, rfl⟩

theorem Boundary.zero (text : List Char) : Boundary text 0 := ⟨[], text, rfl, rfl⟩

theorem Boundary.cons {character : Char} {text : List Char} {offset : Nat} :
    Boundary (character :: text) offset ↔
      offset = 0 ∨ ∃ inner, Boundary text inner ∧ offset = byteLength [character] + inner := by
  constructor
  · rintro ⟨before, after, split, rfl⟩
    cases before with
    | nil => exact .inl rfl
    | cons first before =>
        obtain ⟨rfl, rfl⟩ := List.cons.inj split
        exact .inr ⟨_, ⟨before, after, rfl, rfl⟩, byteLength_cons_eq ..⟩
  · rintro (rfl | ⟨inner, ⟨before, after, rfl, rfl⟩, rfl⟩)
    · exact .zero _
    · exact ⟨character :: before, after, rfl, (byteLength_cons_eq ..).symm⟩

theorem isSome_sliceFrom {text : List Char} {offset : Nat} :
    (sliceFrom text offset).isSome = true ↔ Boundary text offset := by
  induction text generalizing offset with
  | nil =>
      cases offset with
      | zero => exact ⟨fun _ => .zero _, fun _ => rfl⟩
      | succ offset =>
          constructor
          · intro cut
            cases cut
          · intro boundary
            have bound := boundary.le
            simp [byteLength] at bound
  | cons character text induction =>
      have positive := byteLength_single_pos character
      cases offset with
      | zero => exact ⟨fun _ => .zero _, fun _ => rfl⟩
      | succ offset =>
          rw [sliceFrom, Boundary.cons]
          split
          · next short =>
              constructor
              · intro cut
                cases cut
              · rintro (absurd | ⟨inner, -, equal⟩)
                · omega
                · omega
          · next long =>
              rw [induction]
              constructor
              · intro boundary
                exact .inr ⟨_, boundary, by omega⟩
              · rintro (absurd | ⟨inner, boundary, equal⟩)
                · omega
                · have same : offset + 1 - byteLength [character] = inner := by omega
                  rw [same]
                  exact boundary

theorem Boundary.inside {front part back : List Char} {offset : Nat}
    (boundary : Boundary (front ++ (part ++ back)) offset) (from_le : byteLength front ≤ offset)
    (le_to : offset ≤ byteLength (front ++ part)) :
    ∃ first second, part = first ++ second ∧ offset = byteLength (front ++ first) := by
  induction front generalizing offset with
  | nil =>
      rw [List.nil_append] at boundary le_to
      clear from_le
      induction part generalizing offset with
      | nil =>
          simp only [byteLength, List.flatMap_nil, List.length_nil, Nat.le_zero] at le_to
          exact ⟨[], [], rfl, le_to⟩
      | cons character part induction =>
          rw [List.cons_append, Boundary.cons] at boundary
          rcases boundary with rfl | ⟨inner, boundary, rfl⟩
          · exact ⟨[], character :: part, rfl, rfl⟩
          · rw [byteLength_cons_eq character part] at le_to
            obtain ⟨first, second, rfl, equal⟩ := induction boundary (by omega)
            refine ⟨character :: first, second, rfl, ?_⟩
            rw [List.nil_append, byteLength_cons_eq character first, equal, List.nil_append]
  | cons character front induction =>
      have positive := byteLength_single_pos character
      rw [List.cons_append, Boundary.cons] at boundary
      rw [byteLength_cons_eq character front] at from_le
      rw [List.cons_append, byteLength_cons_eq character (front ++ part)] at le_to
      rcases boundary with rfl | ⟨inner, boundary, rfl⟩
      · omega
      · obtain ⟨first, second, split, equal⟩ := induction boundary (by omega) (by omega)
        refine ⟨first, second, split, ?_⟩
        rw [equal, List.cons_append, byteLength_cons_eq character (front ++ first)]

theorem byteLength_eq_zero {text : List Char} : byteLength text = 0 ↔ text = [] := by
  cases text with
  | nil => exact ⟨fun _ => rfl, fun _ => rfl⟩
  | cons character text =>
      have positive := byteLength_single_pos character
      rw [byteLength_cons_eq]
      simp only [reduceCtorEq, iff_false]
      omega

theorem append_inj {first second first' second' : List Char}
    (same : first ++ second = first' ++ second') (size : byteLength first = byteLength first') :
    first = first' ∧ second = second' := by
  have cut := sliceTo_append first second
  rw [same, size, sliceTo_append] at cut
  obtain rfl := Option.some.inj cut
  exact ⟨rfl, List.append_cancel_left same⟩

/-! ## Bytes -/

theorem bytes_append (first second : List Char) :
    bytes (first ++ second) = bytes first ++ bytes second := by
  rw [bytes, List.flatMap_append, List.map_append]
  rfl

theorem length_bytes (text : List Char) : (bytes text).length = byteLength text :=
  List.length_map _

theorem bytes_of_ascii {character : Char} (ascii : character.toNat ≤ 0x7F) :
    bytes [character] = [character] := by
  have small : character.val.toNat ≤ 0x7F := ascii
  have number : (UInt8.ofNat character.val.toNat).toNat = character.toNat := by
    rw [UInt8.toNat_ofNat']
    exact Nat.mod_eq_of_lt (by omega)
  rw [bytes, List.flatMap_singleton, String.utf8EncodeChar, if_pos small, List.map_singleton,
    number, Char.ofNat_toNat]

theorem bytes_of_not_ascii {character : Char} (wide : 0x7F < character.toNat) :
    ∀ byte ∈ bytes [character], 0x7F < byte.toNat := by
  intro byte member
  rw [bytes, List.flatMap_singleton] at member
  obtain ⟨encoded, inside, rfl⟩ := List.mem_map.mp member
  have small : encoded.toNat < 256 := encoded.toNat_lt
  have number : (Char.ofNat encoded.toNat).toNat = encoded.toNat := by
    rw [Char.ofNat, dif_pos (.inl (by omega))]
    rfl
  rw [number]
  rcases mem_utf8EncodeChar inside with same | high
  · omega
  · omega

theorem bytes_ne_nil (character : Char) : bytes [character] ≠ [] := by
  intro nothing
  have length := length_bytes [character]
  have positive := byteLength_single_pos character
  rw [nothing, List.length_nil] at length
  omega

/-- The byte at a boundary is the next character, where one of them is ASCII. -/
theorem byteAt_cons (before after : List Char) (character : Char) :
    ∃ first, byteAt (before ++ character :: after) (byteLength before) = some first ∧
      (first.toNat ≤ 0x7F ∨ character.toNat ≤ 0x7F → first = character) := by
  have drop : byteAt (before ++ character :: after) (byteLength before) =
      (bytes [character] ++ bytes after)[0]? := by
    rw [byteAt, bytes_append, ← length_bytes before, List.getElem?_append_right (Nat.le_refl _),
      Nat.sub_self, ← bytes_append]
    rfl
  rw [drop]
  rcases Nat.lt_or_ge 0x7F character.toNat with wide | ascii
  · cases encoded : bytes [character] with
    | nil => exact absurd encoded (bytes_ne_nil character)
    | cons first rest =>
        refine ⟨first, rfl, ?_⟩
        have high := bytes_of_not_ascii wide first (by rw [encoded]; exact List.mem_cons_self ..)
        omega
  · rw [bytes_of_ascii ascii]
    exact ⟨character, rfl, fun _ => rfl⟩

theorem byteAt_end (text : List Char) : byteAt text (byteLength text) = none := by
  rw [byteAt, List.getElem?_eq_none_iff, length_bytes]

theorem byteAt_eq_some {before after : List Char} {character : Char}
    (ascii : character.toNat ≤ 0x7F) :
    byteAt (before ++ after) (byteLength before) = some character ↔
      after.head? = some character := by
  cases after with
  | nil =>
      rw [List.append_nil, byteAt_end]
      exact Iff.rfl
  | cons next after =>
      obtain ⟨first, at_eq, same⟩ := byteAt_cons before after next
      rw [at_eq, List.head?_cons, Option.some.injEq, Option.some.injEq]
      constructor
      · rintro rfl
        exact (same (.inl ascii)).symm
      · rintro rfl
        exact same (.inr ascii)

theorem drop_bytes (before after : List Char) :
    (bytes (before ++ after)).drop (byteLength before) = bytes after := by
  rw [bytes_append, ← length_bytes before, List.drop_left]

theorem takeWhile_bytes {test : Char → Bool}
    (ascii : ∀ character, test character = true → character.toNat ≤ 0x7F) (text : List Char) :
    (bytes text).takeWhile test = text.takeWhile test := by
  induction text with
  | nil => rfl
  | cons character text induction =>
      have split : bytes (character :: text) = bytes [character] ++ bytes text :=
        bytes_append [character] text
      rw [split]
      rcases Nat.lt_or_ge 0x7F character.toNat with wide | small
      · have fails : ∀ byte : Char, 0x7F < byte.toNat → ¬ test byte = true := by
          intro byte high passes
          have low := ascii byte passes
          omega
        rw [List.takeWhile_cons_of_neg (fails character wide)]
        cases encoded : bytes [character] with
        | nil => exact absurd encoded (bytes_ne_nil character)
        | cons first rest =>
            have high := bytes_of_not_ascii wide first
              (by rw [encoded]; exact List.mem_cons_self ..)
            rw [List.cons_append, List.takeWhile_cons_of_neg (fails first high)]
      · rw [bytes_of_ascii small, List.singleton_append]
        cases passes : test character with
        | true => rw [List.takeWhile_cons_of_pos passes, List.takeWhile_cons_of_pos passes,
            induction]
        | false =>
            rw [List.takeWhile_cons_of_neg (by simp [passes]),
              List.takeWhile_cons_of_neg (by simp [passes])]

/-! ## Searching -/

theorem find_eq_some {pattern text : List Char} {offset : Nat}
    (found : find pattern text = some offset) :
    ∃ before after, text = before ++ after ∧ offset = byteLength before ∧ pattern <+: after := by
  induction text generalizing offset with
  | nil =>
      rw [find] at found
      split at found
      · next starts =>
          cases found
          exact ⟨[], [], rfl, rfl, List.isPrefixOf_iff_prefix.mp starts⟩
      · cases found
  | cons character text induction =>
      rw [find] at found
      split at found
      · next starts =>
          cases found
          exact ⟨[], _, rfl, rfl, List.isPrefixOf_iff_prefix.mp starts⟩
      · obtain ⟨inner, later, rfl⟩ := Option.map_eq_some_iff.mp found
        obtain ⟨before, after, rfl, rfl, starts⟩ := induction later
        exact ⟨character :: before, after, rfl, (byteLength_cons_eq _ _).symm, starts⟩

end TerminalCanvas.Slices
