import Mathlib.Data.List.Basic

/-! # Scanning a sequence of items

A scanner reads one item after another from the front of a string until the rest
holds no further item, or gives the whole string up. Every item takes at least
one symbol, so the length of the string is fuel enough. -/

namespace TerminalCanvas.Scan

inductive ScanStep (State Item : Type) where
  | stop
  | invalid
  | item (value : Item) (next : State) (size : Nat)

structure Scanner (Symbol State Item : Type) where
  step : State → List Symbol → ScanStep State Item
  progress : ∀ {state rest value next size},
    step state rest = .item value next size → 0 < size ∧ size ≤ rest.length

namespace Scanner

variable {Symbol State Item : Type} (scanner : Scanner Symbol State Item)

def loop : Nat → State → List Symbol → Option (List Item × Nat)
  | 0, _, _ => some ([], 0)
  | fuel + 1, state, rest =>
      match scanner.step state rest with
      | .stop => some ([], 0)
      | .invalid => none
      | .item value next size =>
          (loop fuel next (rest.drop size)).map fun (items, length) =>
            (value :: items, size + length)

/-- The items in front of a string and the number of symbols they take. -/
def scan (state : State) (rest : List Symbol) : Option (List Item × Nat) :=
  scanner.loop (rest.length + 1) state rest

variable {scanner} {state next : State} {rest : List Symbol} {value : Item} {size : Nat}

theorem loop_eq_loop {fuel more : Nat} (enough : rest.length < fuel)
    (alsoEnough : rest.length < more) :
    scanner.loop fuel state rest = scanner.loop more state rest := by
  induction fuel generalizing state rest more with
  | zero => omega
  | succ fuel induction =>
      cases more with
      | zero => omega
      | succ more =>
          rw [loop, loop]
          cases stepped : scanner.step state rest with
          | stop => rfl
          | invalid => rfl
          | item value next size =>
              have smaller := scanner.progress stepped
              have left : (rest.drop size).length < fuel := by
                rw [List.length_drop]
                omega
              have alsoLeft : (rest.drop size).length < more := by
                rw [List.length_drop]
                omega
              simp only [induction left alsoLeft]

theorem scan_of_stop (stepped : scanner.step state rest = .stop) :
    scanner.scan state rest = some ([], 0) := by
  simp [scan, loop, stepped]

theorem scan_of_invalid (stepped : scanner.step state rest = .invalid) :
    scanner.scan state rest = none := by
  simp [scan, loop, stepped]

theorem scan_of_item (stepped : scanner.step state rest = .item value next size) :
    scanner.scan state rest = (scanner.scan next (rest.drop size)).map
      fun (items, length) => (value :: items, size + length) := by
  have smaller := scanner.progress stepped
  have fuel : scanner.loop rest.length next (rest.drop size) =
      scanner.scan next (rest.drop size) := by
    apply loop_eq_loop
    · rw [List.length_drop]
      omega
    · omega
  rw [scan, loop, stepped]
  simp only [fuel]

theorem scan_cases {items : List Item} {length : Nat}
    (scanned : scanner.scan state rest = some (items, length)) :
    (scanner.step state rest = .stop ∧ items = [] ∧ length = 0) ∨
      ∃ value next size later remaining,
        scanner.step state rest = .item value next size ∧
        scanner.scan next (rest.drop size) = some (later, remaining) ∧
        items = value :: later ∧ length = size + remaining := by
  cases stepped : scanner.step state rest with
  | stop =>
      rw [scan_of_stop stepped] at scanned
      cases scanned
      exact .inl ⟨rfl, rfl, rfl⟩
  | invalid =>
      rw [scan_of_invalid stepped] at scanned
      cases scanned
  | item value next size =>
      rw [scan_of_item stepped, Option.map_eq_some_iff] at scanned
      rcases scanned with ⟨⟨later, remaining⟩, scanned, equal⟩
      cases equal
      exact .inr ⟨value, next, size, later, remaining, rfl, scanned, rfl, rfl⟩

end Scanner

end TerminalCanvas.Scan
