import Mathlib.Algebra.GroupWithZero.Nat
import TerminalCanvas.Foundation.CrtWords
import TerminalCanvas.Foundation.Fallible
import TerminalCanvas.Foundation.FallibleSearch

/-! # The environment of a verification on Windows

The inherited variables with some changes, sorted by their names as Windows compares them,
and written one behind the other. -/

namespace TerminalCanvas.WindowsCommand

open CrtWords FallibleSearch

/-- The unit between a name and its value. -/
def equals : UInt16 := 61

def i32Max : Nat := 2 ^ 31 - 1

abbrev Entries := List (Units × Units)

/-- Only an inherited name may start with an equals sign. -/
def validName (key : Units) (inherited : Bool) : Bool :=
  !(key.isEmpty || key.contains 0 || i32Max < key.length ||
    key.zipIdx.any fun (unit, index) => unit = equals && !(inherited && index = 0))

def environmentKey (key : Units) (inherited : Bool) : Except String Units :=
  if validName key inherited then .ok key
  else .error "Verification environment has an invalid variable name"

def environmentValue : Option Units → Except String (Option Units)
  | none => .ok none
  | some value =>
      if 0 ∈ value then .error "Verification environment value contains a null character"
      else .ok (some value)

structure Operation where
  key : Units
  value : Option Units
  inherited : Bool

section Run

variable (comparison : Comparison Units)

def environmentChange (entries : Entries) (operation : Operation) : Except String Entries := do
  let key ← environmentKey operation.key operation.inherited
  let value ← environmentValue operation.value
  Fallible.require (change comparison.compare entries key value) "last OS error"

def writtenEntry (entry : Units × Units) : Units := entry.1 ++ equals :: (entry.2 ++ [0])

def written (entries : Entries) : Units :=
  let block := entries.flatMap writtenEntry
  (if block.isEmpty then [0] else block) ++ [0]

def environmentBlock (inherited : List (Units × Units))
    (changes : List (Units × Option Units)) : Except String Units := do
  let entries ← inherited.foldlM
    (fun entries pair => environmentChange comparison entries ⟨pair.1, some pair.2, true⟩) []
  let entries ← changes.foldlM
    (fun entries pair => environmentChange comparison entries ⟨pair.1, pair.2, false⟩) entries
  pure (written entries)

end Run

/-! ## Reading a block -/

/-- The name ends at the first equals sign behind its first unit. -/
def splitEntry : Units → Option (Units × Units)
  | [] => none
  | first :: rest =>
      match rest.dropWhile (· ≠ equals) with
      | [] => none
      | _ :: value => some (first :: rest.takeWhile (· ≠ equals), value)

/-- The entries of a block, behind some units of the first one. -/
def decodeEntries : Units → Units → Option Entries
  | [], _ => none
  | unit :: rest, entry =>
      if unit ≠ 0 then decodeEntries rest (entry ++ [unit])
      else if entry = [] then (if rest = [] then some [] else none)
      else do
        let first ← splitEntry entry
        let later ← decodeEntries rest []
        pure (first :: later)

def decode (block : Units) : Option Entries :=
  if block = [0, 0] then some [] else decodeEntries block []

/-- A name and a value that can be told apart again. -/
structure Readable (entry : Units × Units) : Prop where
  nonempty : entry.1 ≠ []
  nameEnds : equals ∉ entry.1.tail
  noNullName : 0 ∉ entry.1
  noNullValue : 0 ∉ entry.2

theorem splitEntry_append {name value : Units} (nonempty : name ≠ []) (ends : equals ∉ name.tail) :
    splitEntry (name ++ equals :: value) = some (name, value) := by
  cases name with
  | nil => exact absurd rfl nonempty
  | cons first rest =>
      have apart : ∀ unit ∈ rest, unit ≠ equals := fun unit member same => ends (same ▸ member)
      have front : (rest ++ equals :: value).takeWhile (· ≠ equals) = rest := by
        rw [List.takeWhile_append_of_pos (by simpa using apart)]
        simp
      have behind : (rest ++ equals :: value).dropWhile (· ≠ equals) = equals :: value := by
        rw [List.dropWhile_append_of_pos (by simpa using apart)]
        simp
      rw [List.cons_append, splitEntry, behind, front]

theorem decodeEntries_units {units : Units} (clean : 0 ∉ units) (rest entry : Units) :
    decodeEntries (units ++ rest) entry = decodeEntries rest (entry ++ units) := by
  induction units generalizing entry with
  | nil => simp
  | cons unit units induction =>
      rw [List.mem_cons, not_or] at clean
      rw [List.cons_append, decodeEntries, if_pos (Ne.symm clean.1), induction clean.2]
      simp

theorem decodeEntries_written {entries : Entries} (readable : ∀ entry ∈ entries, Readable entry) :
    decodeEntries (entries.flatMap writtenEntry ++ [0]) [] = some entries := by
  induction entries with
  | nil => rfl
  | cons entry entries induction =>
      have first := readable entry (List.mem_cons_self ..)
      have later := induction fun other member => readable other (List.mem_cons_of_mem _ member)
      have clean : 0 ∉ entry.1 ++ equals :: entry.2 := by
        intro member
        rcases List.mem_append.mp member with name | behind
        · exact first.noNullName name
        rcases List.mem_cons.mp behind with sign | value
        · exact absurd sign (by decide)
        · exact first.noNullValue value
      have split : (entry :: entries).flatMap writtenEntry ++ [0] =
          (entry.1 ++ equals :: entry.2) ++ 0 :: (entries.flatMap writtenEntry ++ [0]) := by
        simp [writtenEntry]
      have some : [] ++ (entry.1 ++ equals :: entry.2) ≠ [] := by simp
      rw [split, decodeEntries_units clean, decodeEntries, if_neg (not_not.mpr rfl), if_neg some,
        List.nil_append, splitEntry_append first.nonempty first.nameEnds, later]
      rfl

theorem decode_written {entries : Entries} (readable : ∀ entry ∈ entries, Readable entry) :
    decode (written entries) = some entries := by
  cases entries with
  | nil => rfl
  | cons entry entries =>
      have block : written (entry :: entries) = (entry :: entries).flatMap writtenEntry ++ [0] := by
        rw [written, if_neg]
        simp [writtenEntry]
      have first := readable entry (List.mem_cons_self ..)
      have other : (entry :: entries).flatMap writtenEntry ++ [0] ≠ [0, 0] := by
        intro same
        cases name : entry.1 with
        | nil => exact first.nonempty name
        | cons unit rest =>
            have head := congrArg List.head? same
            simp [writtenEntry, name] at head
            exact first.noNullName (by rw [name, head]; exact List.mem_cons_self ..)
      rw [block, decode, if_neg other]
      exact decodeEntries_written readable

/-! ## Runs of operations -/

/-- The inherited variables, and behind them the changes. -/
def operationsOf (inherited : List (Units × Units)) (changes : List (Units × Option Units)) :
    List Operation :=
  (inherited.map fun pair => ⟨pair.1, some pair.2, true⟩) ++
    changes.map fun pair => ⟨pair.1, pair.2, false⟩

/-- The names that some operations compare, each with the name it is sought for. -/
def comparisons (order : Units → Units → Ordering) :
    Entries → List Operation → List (Units × Units)
  | _, [] => []
  | entries, operation :: operations =>
      ((probes order entries operation.key 0 entries.length (Nat.le_refl _)).map
          fun probe => (probe, operation.key)) ++
        match change (fun left right => some (order left right)) entries operation.key
            operation.value with
        | some changed => comparisons order changed operations
        | none => []

structure Operation.Valid (operation : Operation) : Prop where
  name : validName operation.key operation.inherited = true
  value : ∀ value, operation.value = some value → 0 ∉ value

def Operation.assignment (operation : Operation) : Units × Option Units :=
  (operation.key, operation.value)

section Runs

variable (comparison : Comparison Units)

theorem environmentValue_eq_ok {value result : Option Units} :
    environmentValue value = .ok result ↔
      result = value ∧ ∀ units, value = some units → 0 ∉ units := by
  cases value with
  | none => simp [environmentValue, eq_comm]
  | some units =>
      rw [environmentValue]
      split
      · next null => simp [null]
      · next clean => simp [clean, eq_comm]

theorem environmentChange_eq_ok {entries changed : Entries} {operation : Operation} :
    environmentChange comparison entries operation = .ok changed ↔ operation.Valid ∧
      change comparison.compare entries operation.key operation.value = some changed := by
  rw [environmentChange, Fallible.bind_eq_ok]
  constructor
  · rintro ⟨key, named, rest⟩
    rw [environmentKey] at named
    split at named
    · next valid =>
        obtain rfl := Except.ok.inj named
        obtain ⟨value, read, made⟩ := Fallible.bind_eq_ok.mp rest
        obtain ⟨rfl, clean⟩ := environmentValue_eq_ok.mp read
        exact ⟨⟨valid, clean⟩, Fallible.require_eq_ok.mp made⟩
    · cases named
  · rintro ⟨⟨valid, clean⟩, made⟩
    refine ⟨operation.key, ?_, Fallible.bind_eq_ok.mpr ⟨operation.value, ?_, ?_⟩⟩
    · rw [environmentKey, if_pos valid]
    · exact environmentValue_eq_ok.mpr ⟨rfl, clean⟩
    · exact Fallible.require_eq_ok.mpr made

theorem environmentBlock_eq (inherited : List (Units × Units))
    (changes : List (Units × Option Units)) :
    environmentBlock comparison inherited changes =
      ((operationsOf inherited changes).foldlM (environmentChange comparison) []).map written := by
  rw [operationsOf, List.foldlM_append, List.foldlM_map, environmentBlock]
  cases inherited.foldlM (fun entries pair =>
      environmentChange comparison entries ⟨pair.1, some pair.2, true⟩) [] with
  | error error => rfl
  | ok entries =>
      change (changes.foldlM _ entries >>= _) = Except.map written (List.foldlM _ entries _)
      rw [List.foldlM_map]
      cases changes.foldlM (fun entries pair =>
          environmentChange comparison entries ⟨pair.1, pair.2, false⟩) entries with
      | error error => rfl
      | ok entries => rfl

theorem run_succeeds {past : List (Units × Option Units)} {entries : Entries}
    (holds : Holds comparison.order past entries) (operations : List Operation) :
    (∃ result, operations.foldlM (environmentChange comparison) entries = .ok result) ↔
      (∀ operation ∈ operations, operation.Valid) ∧
      ∀ pair ∈ comparisons comparison.order entries operations,
        (comparison.compare pair.1 pair.2).isSome = true := by
  induction operations generalizing past entries with
  | nil =>
      refine ⟨fun _ => ⟨List.forall_mem_nil _, List.forall_mem_nil _⟩, fun _ => ⟨entries, rfl⟩⟩
  | cons operation operations induction =>
      have first := @change_changed _ _ entries operation.key comparison holds.sorted
        operation.value
      rw [List.foldlM_cons, comparisons]
      constructor
      · rintro ⟨result, ran⟩
        obtain ⟨changed, made, later⟩ := Fallible.bind_eq_ok.mp ran
        obtain ⟨valid, made⟩ := (environmentChange_eq_ok comparison).mp made
        have next := (induction (holds.change (first.2 changed made))).mp ⟨result, later⟩
        have probed := first.1.mp (by rw [made]; rfl)
        refine ⟨List.forall_mem_cons.mpr ⟨valid, next.1⟩, ?_⟩
        rw [change_order comparison made]
        intro pair member
        rcases List.mem_append.mp member with here | after
        · obtain ⟨probe, among, rfl⟩ := List.mem_map.mp here
          exact probed probe among
        · exact next.2 pair after
      · rintro ⟨valid, compared⟩
        obtain ⟨here, others⟩ := List.forall_mem_cons.mp valid
        obtain ⟨changed, made⟩ := Option.isSome_iff_exists.mp (first.1.mpr fun probe member =>
          compared (probe, operation.key)
            (List.mem_append_left _ (List.mem_map.mpr ⟨probe, member, rfl⟩)))
        rw [change_order comparison made] at compared
        obtain ⟨result, later⟩ := (induction (holds.change (first.2 changed made))).mpr
          ⟨others, fun pair member => compared pair (List.mem_append_right _ member)⟩
        refine ⟨result, Fallible.bind_eq_ok.mpr ⟨changed, ?_, later⟩⟩
        exact (environmentChange_eq_ok comparison).mpr ⟨here, made⟩

theorem run_holds {past : List (Units × Option Units)} {entries result : Entries}
    (holds : Holds comparison.order past entries) {operations : List Operation}
    (ran : operations.foldlM (environmentChange comparison) entries = .ok result) :
    Holds comparison.order (past ++ operations.map Operation.assignment) result ∧
      ∀ operation ∈ operations, operation.Valid := by
  induction operations generalizing past entries with
  | nil =>
      obtain rfl := Except.ok.inj ran
      rw [List.map_nil, List.append_nil]
      exact ⟨holds, List.forall_mem_nil _⟩
  | cons operation operations induction =>
      rw [List.foldlM_cons] at ran
      obtain ⟨changed, made, later⟩ := Fallible.bind_eq_ok.mp ran
      obtain ⟨valid, made⟩ := (environmentChange_eq_ok comparison).mp made
      have first := @change_changed _ _ entries operation.key comparison holds.sorted
        operation.value
      have next := induction (holds.change (first.2 changed made)) later
      rw [List.append_assoc] at next
      exact ⟨next.1, List.forall_mem_cons.mpr ⟨valid, next.2⟩⟩

theorem validName_ends {key : Units} {inherited : Bool} (valid : validName key inherited = true) :
    key ≠ [] ∧ 0 ∉ key ∧ equals ∉ key.tail := by
  simp only [validName, Bool.not_eq_true', Bool.or_eq_false_iff, List.isEmpty_eq_false_iff,
    List.contains_eq_mem, decide_eq_false_iff_not, List.any_eq_false] at valid
  obtain ⟨⟨⟨nonempty, clean⟩, -⟩, signs⟩ := valid
  refine ⟨nonempty, clean, fun member => ?_⟩
  obtain ⟨index, bound, found⟩ := List.getElem_of_mem member
  rw [List.length_tail] at bound
  rw [List.getElem_tail] at found
  have inside : index + 1 < key.length := by omega
  refine signs (key[index + 1], index + 1) ?_ (by simp [found])
  rw [List.mk_mem_zipIdx_iff_getElem?]
  exact List.getElem?_eq_getElem inside

theorem readable_of_lastSets {order : Units → Units → Ordering} {operations : List Operation}
    (valid : ∀ operation ∈ operations, operation.Valid) {entry : Units × Units}
    (last : LastSets order (operations.map Operation.assignment) entry) : Readable entry := by
  obtain ⟨before, after, split, -⟩ := last
  have member : (entry.1, some entry.2) ∈ operations.map Operation.assignment := by
    rw [split]
    exact List.mem_append_right _ (List.mem_cons_self ..)
  obtain ⟨operation, member, same⟩ := List.mem_map.mp member
  obtain ⟨name, content⟩ := Prod.mk.inj same
  obtain ⟨nonempty, clean, ends⟩ := validName_ends (valid operation member).name
  rw [name] at nonempty clean ends
  exact ⟨nonempty, ends, clean, (valid operation member).value entry.2 content⟩

/-- The block is refused exactly for an operation that is not valid or a comparison that fails.
Else it reads as the sorted variables that the operations set last. -/
theorem environment_block_is_a_map (inherited : List (Units × Units))
    (changes : List (Units × Option Units)) :
    ((∃ error, environmentBlock comparison inherited changes = .error error) ↔
      (∃ operation ∈ operationsOf inherited changes, ¬ operation.Valid) ∨
      ∃ pair ∈ comparisons comparison.order [] (operationsOf inherited changes),
        comparison.compare pair.1 pair.2 = none) ∧
    ∀ block, environmentBlock comparison inherited changes = .ok block →
      ∃ entries, decode block = some entries ∧ Sorted comparison.order entries ∧
        ∀ entry, entry ∈ entries ↔ LastSets comparison.order
          ((operationsOf inherited changes).map Operation.assignment) entry := by
  rw [environmentBlock_eq]
  have succeeds := run_succeeds comparison holds_nil (operationsOf inherited changes)
  constructor
  · rw [← not_iff_not]
    have refused : (¬ ∃ error, ((operationsOf inherited changes).foldlM
        (environmentChange comparison) []).map written = .error error) ↔
        ∃ result, (operationsOf inherited changes).foldlM (environmentChange comparison) [] =
          .ok result := by
      cases (operationsOf inherited changes).foldlM (environmentChange comparison) [] with
      | error error => simp [Except.map]
      | ok result => simp [Except.map]
    rw [refused, succeeds]
    simp only [not_or, not_exists, not_and, not_not, Option.isSome_iff_ne_none, ne_eq]
  · intro block made
    cases ran : (operationsOf inherited changes).foldlM (environmentChange comparison) [] with
    | error error =>
        rw [ran] at made
        cases made
    | ok entries =>
        rw [ran] at made
        obtain rfl := Except.ok.inj made
        have left := run_holds comparison holds_nil ran
        rw [List.nil_append] at left
        refine ⟨entries, decode_written ?_, left.1.sorted, left.1.mem⟩
        exact fun entry member => readable_of_lastSets left.2 ((left.1.mem entry).mp member)

end Runs

end TerminalCanvas.WindowsCommand
