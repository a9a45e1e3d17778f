import Mathlib
import TerminalCanvas.Memory.Redaction

/-! # What a scan reads

From an offset between two characters the scans read only the text behind it, and they
stop between two characters again. -/

namespace TerminalCanvas.Memory.Secrets

open Json (byteLength byteLength_append)
open Slices

/-! ## The text behind an offset -/

/-- The label in front of a text and what it takes with its quotes. -/
def labelIn : Text → Option (Text × Text)
  | [] => none
  | first :: rest =>
      if isQuote first then
        let label := rest.takeWhile isLabelCharacter
        if label ≠ [] ∧ (rest.dropWhile isLabelCharacter).head? = some first then
          some (label, first :: label ++ [first])
        else
          none
      else
        let label := (first :: rest).takeWhile isLabelCharacter
        if label = [] then none else some (label, label)

/-- The value in front of a text, behind its opening quote. -/
def valueIn : Text → Option (Text × Text)
  | [] => none
  | first :: rest =>
      if marker.isPrefixOf (first :: rest) then some ([], marker)
      else if isQuote first then some ([first], insideQuotes first false rest)
      else
        let value := (first :: rest).takeWhile (!endsValue ·)
        if value = [] then none else some ([], value)

def schemeIn (rest : Text) : Text :=
  match labelIn rest with
  | none => []
  | some (scheme, taken) =>
      let space := (rest.drop taken.length).takeWhile isWhiteSpace
      if isScheme scheme = true ∧ space ≠ [] then taken ++ space else []

/-- What leads from a label to the place of its value, with whether it is an assignment. -/
def separatorIn (label : Text) (rest : Text) : Option (Bool × Text) :=
  let space := rest.takeWhile isWhiteSpace
  let separator := (rest.dropWhile isWhiteSpace).head?
  if isSecretLabel label && (separator = some '=' || separator = some ':') then
    some (true, space ++ separator.toList)
  else if isBearer label && !space.isEmpty then some (false, space)
  else none

/-- The text between a separator and the place of the value. -/
def valueGap (label : Text) (assignment : Bool) (rest : Text) : Text :=
  let space := rest.takeWhile isWhiteSpace
  if assignment && isAuthorization label then space ++ schemeIn (rest.drop space.length) else space

/-- The value behind a label, and what stands between them. -/
def givenAway (label rest : Text) : Option (Text × Text) :=
  (separatorIn label rest).bind fun (assignment, front) =>
    let front := front ++ valueGap label assignment (rest.drop front.length)
    (valueIn (rest.drop front.length)).map fun (opening, value) => (front ++ opening, value)

/-- What the scan of labels takes in a round, and the value it finds there behind some text. -/
def labelStep (rest : Text) : Text × Option (Text × Text) :=
  match labelIn rest with
  | none => (rest.take 1, none)
  | some (label, taken) =>
      match givenAway label (rest.drop taken.length) with
      | none => (taken, none)
      | some (front, value) => (taken ++ front ++ value, some (taken ++ front, value))

/-- What the scan of tokens takes in a round. -/
def tokenStep (rest : Text) : Text :=
  if tokenFrom false rest = [] then rest.take 1 else tokenFrom false rest

/-! ## The readers -/

theorem isQuote_ascii {character : Char} (quoted : isQuote character = true) :
    character.toNat ≤ 0x7F := by
  simp only [isQuote, Bool.or_eq_true, decide_eq_true_eq] at quoted
  rcases quoted with (rfl | rfl) | rfl <;> decide

theorem isLabelCharacter_ascii (character : Char) (inside : isLabelCharacter character = true) :
    character.toNat ≤ 0x7F := by
  have below : ∀ limit : Char, limit.toNat ≤ 0x7F → character.val ≤ limit.val →
      character.toNat ≤ 0x7F :=
    fun limit small order => Nat.le_trans (UInt32.le_iff_toNat_le.mp order) small
  simp only [isLabelCharacter, Char.isAlphanum, Char.isAlpha, Char.isUpper, Char.isLower,
    Char.isDigit, Bool.or_eq_true, decide_eq_true_eq, Bool.and_eq_true] at inside
  rcases inside with ((⟨-, upper⟩ | ⟨-, lower⟩) | ⟨-, digit⟩) | rfl
  · exact below 'Z' (by decide) upper
  · exact below 'z' (by decide) lower
  · exact below '9' (by decide) digit
  · decide

theorem byteAt_any_isQuote (before : Text) (first : Char) (rest : Text) :
    (byteAt (before ++ first :: rest) (byteLength before)).any isQuote = isQuote first := by
  obtain ⟨byte, at_eq, same⟩ := byteAt_cons before rest first
  rw [at_eq, Option.any_some]
  cases quoted : isQuote first with
  | true => rw [same (.inr (isQuote_ascii quoted)), quoted]
  | false =>
      apply Bool.eq_false_iff.mpr
      intro byteQuoted
      rw [same (.inl (isQuote_ascii byteQuoted)), quoted] at byteQuoted
      cases byteQuoted

theorem byteLength_single {character : Char} (ascii : character.toNat ≤ 0x7F) :
    byteLength [character] = 1 := Json.byteLength_cons ascii []

theorem skipWhitespace_eq (before rest : Text) :
    skipWhitespace (before ++ rest) (byteLength before) =
      some (byteLength (before ++ rest.takeWhile isWhiteSpace)) := by
  rw [skipWhitespace, sliceFrom_append, byteLength_append]
  rfl

theorem length_labelRun (before rest : Text) :
    byteLength before + (((bytes (before ++ rest)).drop (byteLength before)).takeWhile
      isLabelCharacter).length = byteLength (before ++ rest.takeWhile isLabelCharacter) := by
  have ascii : ∀ character ∈ rest.takeWhile isLabelCharacter, character.toNat ≤ 0x7F :=
    fun character member => isLabelCharacter_ascii _ (List.mem_takeWhile_imp member)
  rw [drop_bytes, takeWhile_bytes isLabelCharacter_ascii, byteLength_append,
    Json.byteLength_of_ascii ascii]

theorem byteLength_append_eq {before middle : Text} :
    byteLength (before ++ middle) = byteLength before ↔ middle = [] := by
  rw [byteLength_append]
  cases middle with
  | nil => simp [byteLength]
  | cons first rest =>
      have positive := byteLength_single_pos first
      rw [byteLength_cons_eq]
      constructor
      · omega
      · simp

theorem labelAt_quoted (before rest : Text) {first : Char} (quoted : isQuote first = true) :
    labelAt (before ++ first :: rest) (byteLength before) =
      some ((labelIn (first :: rest)).map fun (label, taken) =>
        (label, byteLength (before ++ taken))) := by
  have ascii := isQuote_ascii quoted
  have text : before ++ first :: rest = (before ++ [first]) ++ rest := by simp
  have start : byteLength before + true.toNat = byteLength (before ++ [first]) := by
    rw [byteLength_append, byteLength_single ascii]
    rfl
  have run := length_labelRun (before ++ [first]) rest
  simp only [labelAt, byteAt_any_isQuote, quoted, start]
  rw [← text] at run
  rw [run]
  by_cases nothing : rest.takeWhile isLabelCharacter = []
  · rw [if_pos (byteLength_append_eq.mpr nothing)]
    simp [labelIn, quoted, nothing]
  rw [if_neg (mt byteLength_append_eq.mp nothing), if_pos trivial]
  have whole : before ++ first :: rest =
      (before ++ [first] ++ rest.takeWhile isLabelCharacter) ++
        rest.dropWhile isLabelCharacter := by
    rw [List.append_assoc, List.takeWhile_append_dropWhile, text]
  have opening : byteAt (before ++ first :: rest) (byteLength before) = some first :=
    (byteAt_eq_some ascii).mpr rfl
  have closing : byteAt (before ++ first :: rest)
      (byteLength (before ++ [first] ++ rest.takeWhile isLabelCharacter)) = some first ↔
        (rest.dropWhile isLabelCharacter).head? = some first := by
    rw [whole]
    exact byteAt_eq_some ascii
  rw [opening]
  by_cases closed : (rest.dropWhile isLabelCharacter).head? = some first
  · have label : slice (before ++ first :: rest) (byteLength (before ++ [first]))
        (byteLength (before ++ [first] ++ rest.takeWhile isLabelCharacter)) =
          some (rest.takeWhile isLabelCharacter) := by
      rw [text]
      exact slice_prefix (before ++ [first]) (List.takeWhile_prefix _)
    rw [if_neg (not_not.mpr (closing.mpr closed)), label]
    simp [labelIn, quoted, nothing, closed, byteLength_append, byteLength_single ascii,
      byteLength_cons_eq first]
    omega
  · rw [if_pos (mt closing.mp closed)]
    simp [labelIn, quoted, closed]

theorem labelAt_eq (before rest : Text) :
    labelAt (before ++ rest) (byteLength before) = some ((labelIn rest).map fun (label, taken) =>
      (label, byteLength (before ++ taken))) := by
  have run := length_labelRun before rest
  cases rest with
  | nil =>
      rw [List.append_nil] at run ⊢
      simp only [labelAt, byteAt_end, Option.any_none, Bool.toNat_false, Nat.add_zero, run]
      simp [labelIn]
  | cons first rest =>
      cases quoted : isQuote first with
      | true => exact labelAt_quoted before rest quoted
      | false =>
          simp only [labelAt, byteAt_any_isQuote, quoted, Bool.toNat_false, Nat.add_zero, run]
          by_cases nothing : (first :: rest).takeWhile isLabelCharacter = []
          · rw [if_pos (byteLength_append_eq.mpr nothing)]
            simp [labelIn, quoted, nothing]
          · have label : slice (before ++ first :: rest) (byteLength before)
                (byteLength (before ++ (first :: rest).takeWhile isLabelCharacter)) =
                  some ((first :: rest).takeWhile isLabelCharacter) :=
              slice_prefix before (List.takeWhile_prefix _)
            rw [if_neg (mt byteLength_append_eq.mp nothing), if_neg nofun, label]
            simp [labelIn, quoted, nothing]

/-! ## Reading on -/

theorem append_drop (before : Text) {front rest : Text} (starts : front <+: rest) :
    before ++ rest = (before ++ front) ++ rest.drop front.length := by
  obtain ⟨after, rfl⟩ := starts
  rw [List.drop_left, List.append_assoc]

theorem prefix_append {front more rest : Text} (starts : front <+: rest)
    (goesOn : more <+: rest.drop front.length) : front ++ more <+: rest := by
  obtain ⟨after, rfl⟩ := starts
  rw [List.drop_left] at goesOn
  exact List.prefix_append_right_inj front |>.mpr goesOn

theorem labelIn_starts {rest label taken : Text} (found : labelIn rest = some (label, taken)) :
    taken <+: rest ∧ taken ≠ [] := by
  cases rest with
  | nil => cases found
  | cons first rest =>
      simp only [labelIn] at found
      split at found
      · split at found
        · next labelled =>
            cases found
            refine ⟨?_, nofun⟩
            obtain ⟨after, behind⟩ := List.head?_eq_some_iff.mp labelled.2
            refine ⟨after, ?_⟩
            rw [List.cons_append, List.cons_append, List.append_assoc, List.singleton_append,
              ← behind, List.takeWhile_append_dropWhile]
        · cases found
      · split at found
        · cases found
        · next labelled =>
            cases found
            exact ⟨List.takeWhile_prefix _, labelled⟩

theorem schemeIn_starts (rest : Text) : schemeIn rest <+: rest := by
  unfold schemeIn
  split
  · exact List.nil_prefix
  · next scheme taken found =>
      dsimp only
      split
      · exact prefix_append (labelIn_starts found).1 (List.takeWhile_prefix _)
      · exact List.nil_prefix

theorem skipScheme_eq (before rest : Text) :
    skipScheme (before ++ rest) (byteLength before) =
      some (byteLength (before ++ schemeIn rest)) := by
  rw [skipScheme, labelAt_eq, schemeIn]
  cases found : labelIn rest with
  | none => simp
  | some pair =>
      obtain ⟨scheme, taken⟩ := pair
      have text := append_drop before (labelIn_starts found).1
      have behind := skipWhitespace_eq (before ++ taken) (rest.drop taken.length)
      rw [← text] at behind
      have moved : byteLength (before ++ taken) < byteLength (before ++ taken ++
          (rest.drop taken.length).takeWhile isWhiteSpace) ↔
            (rest.drop taken.length).takeWhile isWhiteSpace ≠ [] := by
        rw [← not_iff_not, not_lt, not_not, ← @byteLength_append_eq (before ++ taken)]
        rw [byteLength_append (before ++ taken)]
        omega
      simp only [Option.map_some, Option.bind_eq_bind, Option.bind_some, behind, moved]
      split
      · rw [List.append_assoc]
        rfl
      · rw [List.append_nil]
        rfl

theorem insideQuotes_starts (quote : Char) (escaped : Bool) (rest : Text) :
    insideQuotes quote escaped rest <+: rest := by
  induction rest generalizing escaped with
  | nil => exact List.nil_prefix
  | cons character rest induction =>
      cases escaped with
      | true => exact (List.prefix_cons_inj character).mpr (induction false)
      | false =>
          rw [insideQuotes]
          split
          · exact (List.prefix_cons_inj character).mpr (induction true)
          split
          · exact List.nil_prefix
          · exact (List.prefix_cons_inj character).mpr (induction false)

theorem valueIn_starts {rest opening value : Text} (found : valueIn rest = some (opening, value)) :
    opening ++ value <+: rest := by
  cases rest with
  | nil => cases found
  | cons first rest =>
      simp only [valueIn] at found
      split at found
      · next marked =>
          cases found
          exact List.isPrefixOf_iff_prefix.mp marked
      split at found
      · cases found
        exact (List.prefix_cons_inj first).mpr (insideQuotes_starts first false rest)
      · split at found
        · cases found
        · cases found
          exact List.takeWhile_prefix _

theorem secretValueSpan_eq (before rest : Text) :
    secretValueSpan (before ++ rest) (byteLength before) =
      some ((valueIn rest).map fun (opening, value) =>
        (byteLength (before ++ opening), byteLength (before ++ opening ++ value))) := by
  cases rest with
  | nil =>
      rw [List.append_nil, secretValueSpan, byteAt_end]
      rfl
  | cons first rest =>
      obtain ⟨byte, at_eq, same⟩ := byteAt_cons before rest first
      have quotes : isQuote byte = isQuote first := by
        have both := byteAt_any_isQuote before first rest
        rw [at_eq, Option.any_some] at both
        exact both
      rw [secretValueSpan, at_eq]
      simp only [sliceFrom_append, Option.bind_eq_bind, Option.bind_some, quotes, valueIn]
      split
      · simp [byteLength_append, byteLength_nil]
      split
      · next quoted =>
          have ascii := isQuote_ascii quoted
          have text : before ++ first :: rest = (before ++ [first]) ++ rest := by simp
          have start : byteLength before + 1 = byteLength (before ++ [first]) := by
            rw [byteLength_append, byteLength_single ascii]
          rw [same (.inr ascii), start, text, sliceFrom_append]
          simp [byteLength_append, Nat.add_assoc]
      · by_cases nothing : (first :: rest).takeWhile (!endsValue ·) = []
        · simp [nothing, byteLength]
        · have moved : byteLength before < byteLength before +
              byteLength ((first :: rest).takeWhile (!endsValue ·)) := by
            have grows := mt (@byteLength_append_eq before _).mp nothing
            rw [byteLength_append] at grows
            omega
          rw [if_pos moved, if_neg nothing]
          simp [byteLength_append, byteLength_nil]

/-! ## Labels with their values -/

theorem separatorIn_starts {label rest front : Text} {assignment : Bool}
    (found : separatorIn label rest = some (assignment, front)) : front <+: rest := by
  simp only [separatorIn] at found
  split at found
  · cases found
    cases behind : rest.dropWhile isWhiteSpace with
    | nil => simpa using List.takeWhile_prefix _
    | cons first after =>
        refine ⟨after, ?_⟩
        rw [List.head?_cons, Option.toList_some, List.append_assoc, List.singleton_append, ← behind,
          List.takeWhile_append_dropWhile]
  split at found
  · cases found
    exact List.takeWhile_prefix _
  · cases found

theorem valueGap_starts (label : Text) (assignment : Bool) (rest : Text) :
    valueGap label assignment rest <+: rest := by
  unfold valueGap
  dsimp only
  split
  · exact prefix_append (List.takeWhile_prefix _) (schemeIn_starts _)
  · exact List.takeWhile_prefix _

theorem separator_eq (before rest : Text) (character : Char) (ascii : character.toNat ≤ 0x7F) :
    (byteAt (before ++ rest) (byteLength (before ++ rest.takeWhile isWhiteSpace)) =
      some character) = ((rest.dropWhile isWhiteSpace).head? = some character) := by
  have text : before ++ rest =
      (before ++ rest.takeWhile isWhiteSpace) ++ rest.dropWhile isWhiteSpace := by
    rw [List.append_assoc, List.takeWhile_append_dropWhile]
  rw [text, eq_iff_iff]
  exact byteAt_eq_some ascii

theorem byteLength_lt_append {before middle : Text} :
    byteLength before < byteLength (before ++ middle) ↔ middle ≠ [] := by
  rw [ne_eq, ← @byteLength_append_eq before middle, byteLength_append]
  omega

theorem valueBehind_eq (before : Text) {front rest : Text} (starts : front <+: rest)
    (label : Text) (assignment : Bool) :
    (do
      let valueStart ← skipWhitespace (before ++ rest) (byteLength (before ++ front))
      let valueStart ← if assignment && isAuthorization label then
        skipScheme (before ++ rest) valueStart else pure valueStart
      secretValueSpan (before ++ rest) valueStart) =
    some ((valueIn (rest.drop
      (front ++ valueGap label assignment (rest.drop front.length)).length)).map
        fun (opening, value) =>
          let front := front ++ valueGap label assignment (rest.drop front.length) ++ opening
          (byteLength (before ++ front), byteLength (before ++ front ++ value))) := by
  have skipped : skipWhitespace (before ++ rest) (byteLength (before ++ front)) =
      some (byteLength (before ++ (front ++ (rest.drop front.length).takeWhile isWhiteSpace))) := by
    rw [append_drop before starts, skipWhitespace_eq, ← List.append_assoc]
  have spaced := prefix_append starts (List.takeWhile_prefix isWhiteSpace)
  have whole := prefix_append starts (valueGap_starts label assignment _)
  have value := secretValueSpan_eq (before ++ (front ++ valueGap label assignment
    (rest.drop front.length))) (rest.drop (front ++ valueGap label assignment
      (rest.drop front.length)).length)
  rw [← append_drop before whole] at value
  simp only [Option.bind_eq_bind]
  rw [skipped, Option.bind_some]
  cases authorization : assignment && isAuthorization label with
  | true =>
      have scheme := skipScheme_eq
        (before ++ (front ++ (rest.drop front.length).takeWhile isWhiteSpace))
        (rest.drop (front ++ (rest.drop front.length).takeWhile isWhiteSpace).length)
      rw [← append_drop before spaced] at scheme
      have gap : before ++ (front ++ valueGap label assignment (rest.drop front.length)) =
          before ++ (front ++ (rest.drop front.length).takeWhile isWhiteSpace) ++
            schemeIn (rest.drop
              (front ++ (rest.drop front.length).takeWhile isWhiteSpace).length) := by
        rw [valueGap, authorization]
        simp [List.append_assoc, List.drop_drop]
      rw [if_pos rfl, scheme, Option.bind_some, ← gap, value]
      simp [List.append_assoc]
  | false =>
      have gap : valueGap label assignment (rest.drop front.length) =
          (rest.drop front.length).takeWhile isWhiteSpace := by
        rw [valueGap, authorization]
        rfl
      rw [gap] at value ⊢
      rw [if_neg Bool.false_ne_true, Option.pure_def, Option.bind_some, value]
      simp [List.append_assoc]

theorem labelledValue_eq (before label rest : Text) :
    labelledValue (before ++ rest) label (byteLength before) =
      some ((givenAway label rest).map fun (front, value) =>
        (byteLength (before ++ front), byteLength (before ++ front ++ value))) := by
  have spaced : decide (byteLength before < byteLength (before ++ rest.takeWhile isWhiteSpace)) =
      !(rest.takeWhile isWhiteSpace).isEmpty := by
    rw [Bool.eq_iff_iff, decide_eq_true_iff, byteLength_lt_append]
    simp
  have equals := separator_eq before rest '=' (by decide)
  have colon := separator_eq before rest ':' (by decide)
  rw [labelledValue, skipWhitespace_eq]
  simp only [Option.bind_eq_bind, Option.bind_some, spaced, equals, colon]
  rw [givenAway, separatorIn]
  dsimp only
  cases assignment : isSecretLabel label &&
      (decide ((rest.dropWhile isWhiteSpace).head? = some '=') ||
        decide ((rest.dropWhile isWhiteSpace).head? = some ':')) with
  | true =>
      obtain ⟨character, behind, ascii⟩ : ∃ character,
          (rest.dropWhile isWhiteSpace).head? = some character ∧ character.toNat ≤ 0x7F := by
        have either := (Bool.and_eq_true_iff.mp assignment).2
        rw [Bool.or_eq_true, decide_eq_true_iff, decide_eq_true_iff] at either
        rcases either with equal | colon
        · exact ⟨'=', equal, by decide⟩
        · exact ⟨':', colon, by decide⟩
      have starts : rest.takeWhile isWhiteSpace ++ [character] <+: rest := by
        obtain ⟨after, whole⟩ := List.head?_eq_some_iff.mp behind
        exact ⟨after, by rw [List.append_assoc, List.singleton_append, ← whole,
          List.takeWhile_append_dropWhile]⟩
      have moved : byteLength (before ++ rest.takeWhile isWhiteSpace) + 1 =
          byteLength (before ++ (rest.takeWhile isWhiteSpace ++ [character])) := by
        rw [← List.append_assoc, byteLength_append _ [character], byteLength_single ascii]
      simp only [behind, if_true, moved, Option.toList_some, Option.bind_some, Bool.true_or]
      rw [Option.map_map]
      exact valueBehind_eq before starts label true
  | false =>
      simp only [Bool.false_or, Bool.false_eq_true, if_false]
      split
      · rw [Option.bind_some, Option.map_map]
        exact valueBehind_eq before (List.takeWhile_prefix _) label false
      · rfl

theorem givenAway_starts {rest label front value : Text}
    (given : givenAway label rest = some (front, value)) : front ++ value <+: rest := by
  obtain ⟨⟨assignment, separator⟩, separated, behind⟩ := Option.bind_eq_some_iff.mp given
  obtain ⟨⟨opening, found⟩, valued, same⟩ := Option.map_eq_some_iff.mp behind
  cases same
  have starts := prefix_append (separatorIn_starts separated)
    (valueGap_starts label assignment _)
  rw [List.append_assoc]
  exact prefix_append starts (valueIn_starts valued)

theorem labelStep_starts {rest : Text} (more : rest ≠ []) :
    (labelStep rest).1 <+: rest ∧ (labelStep rest).1 ≠ [] := by
  unfold labelStep
  split
  · refine ⟨List.take_prefix 1 rest, ?_⟩
    cases rest with
    | nil => exact absurd rfl more
    | cons first rest => exact List.cons_ne_nil _ _
  · next label taken found =>
      obtain ⟨starts, some⟩ := labelIn_starts found
      split
      · exact ⟨starts, some⟩
      · next front value given =>
          rw [List.append_assoc]
          refine ⟨prefix_append starts (givenAway_starts given), ?_⟩
          exact List.append_ne_nil_of_left_ne_nil some _

theorem labelRound_end (text : Text) : labelRound text (byteLength text) = some none := by
  rw [labelRound, if_neg (Nat.lt_irrefl _)]
  rfl

theorem labelRound_eq (before : Text) {rest : Text} (more : rest ≠ []) :
    labelRound (before ++ rest) (byteLength before) =
      some (some (byteLength (before ++ (labelStep rest).1),
        ((labelStep rest).2.map fun (front, value) =>
          Redaction.mk (byteLength (before ++ front)) (byteLength (before ++ front ++ value))
            marker).toList)) := by
  rw [labelRound, if_pos (byteLength_lt_append.mpr more)]
  simp only [Option.bind_eq_bind]
  rw [labelAt_eq, Option.bind_some, labelStep]
  cases found : labelIn rest with
  | none =>
      simp only [Option.map_none, sliceFrom_append, Option.bind_some, byteLength_append]
      rfl
  | some pair =>
      obtain ⟨label, taken⟩ := pair
      obtain ⟨starts, _⟩ := labelIn_starts found
      have value := labelledValue_eq (before ++ taken) label (rest.drop taken.length)
      rw [← append_drop before starts] at value
      simp only [Option.map_some, value, Option.bind_some]
      cases given : givenAway label (rest.drop taken.length) with
      | none => rfl
      | some pair =>
          obtain ⟨front, value⟩ := pair
          simp [List.append_assoc]

/-! ## Tokens -/

theorem tokenFrom_starts (url : Bool) (rest : Text) : tokenFrom url rest <+: rest := by
  induction rest generalizing url with
  | nil => exact List.nil_prefix
  | cons character rest induction =>
      simp only [tokenFrom]
      split
      · exact List.nil_prefix
      · exact (List.prefix_cons_inj character).mpr (induction _)

theorem tokenStep_starts {rest : Text} (more : rest ≠ []) :
    tokenStep rest <+: rest ∧ tokenStep rest ≠ [] := by
  unfold tokenStep
  split
  · refine ⟨List.take_prefix 1 rest, ?_⟩
    cases rest with
    | nil => exact absurd rfl more
    | cons first rest => exact List.cons_ne_nil _ _
  · next some => exact ⟨tokenFrom_starts false rest, some⟩

theorem tokenRound_end (text : Text) : tokenRound text (byteLength text) = some none := by
  rw [tokenRound, if_neg (Nat.lt_irrefl _)]
  rfl

theorem tokenRound_eq (before : Text) {rest : Text} (more : rest ≠ []) :
    tokenRound (before ++ rest) (byteLength before) =
      some (some (byteLength (before ++ tokenStep rest),
        if looksLikeSecret (tokenFrom false rest) then
          [⟨byteLength before, byteLength (before ++ tokenFrom false rest), marker⟩] else [])) := by
  have ending : tokenEnd (before ++ rest) (byteLength before) =
      some (byteLength (before ++ tokenFrom false rest)) := by
    rw [tokenEnd, sliceFrom_append, byteLength_append]
    rfl
  rw [tokenRound, if_pos (byteLength_lt_append.mpr more), ending]
  simp only [Option.bind_eq_bind, Option.bind_some, byteLength_lt_append]
  by_cases nothing : tokenFrom false rest = []
  · have short : looksLikeSecret [] = false := by decide
    rw [if_neg (not_not.mpr nothing), sliceFrom_append, Option.bind_some, tokenStep,
      if_pos nothing, nothing, short, byteLength_append]
    rfl
  · rw [if_pos nothing, slice_prefix before (tokenFrom_starts false rest), Option.bind_some,
      tokenStep, if_neg nothing]
    rfl

end TerminalCanvas.Memory.Secrets
