import TerminalCanvas.Memory.RedactionSpans

/-! # Labelled secrets

What a secret behind a label looks like is said of the text alone. Whether it is replaced
depends on the scan of labels coming to the label. -/

namespace TerminalCanvas.Memory.Secrets

open Json (byteLength byteLength_append)
open Slices
open Offsets (Runs Reaches)

/-! ## The form of a secret -/

/-- The inside of a quoted text, which no closing quote ends. -/
inductive Inside (quote : Char) : Text → Prop where
  | nil : Inside quote []
  | plain {character : Char} {rest : Text} (unescaped : character ≠ Json.backslash)
      (goesOn : character ≠ quote) (inside : Inside quote rest) : Inside quote (character :: rest)
  | escaped (character : Char) {rest : Text} (inside : Inside quote rest) :
      Inside quote (Json.backslash :: character :: rest)

/-- A value, with its opening quote before and the text behind it. -/
inductive ValueText : Text → Text → Text → Prop where
  | quoted {quote : Char} (isQuote : isQuote quote = true) {value : Text}
      (inside : Inside quote value) (after : Text) : ValueText [quote] value (quote :: after)
  | run {first : Char} {rest : Text} (opens : first ≠ '[' ∧ isQuote first = false)
      (inside : ∀ character ∈ first :: rest, endsValue character = false) (after : Text) :
      ValueText [] (first :: rest) after

def SchemeText (scheme : Text) : Prop :=
  ∃ word space, scheme = word ++ space ∧ isScheme word = true ∧ space ≠ [] ∧
    ∀ character ∈ space, isWhiteSpace character = true

/-- What may stand between the separator of a label and its value. A scheme that is there
is not a part of the value. -/
inductive SchemeGap (label : Text) : Text → Text → Prop where
  | absent {rest : Text} (free : isAuthorization label = true →
      ¬ ∃ scheme, SchemeText scheme ∧ scheme <+: rest) : SchemeGap label [] rest
  | present {scheme : Text} (authorization : isAuthorization label = true)
      (written : SchemeText scheme) (rest : Text) : SchemeGap label scheme rest

/-- A scheme in quotes, which the scan takes for one, in front of a text. -/
def QuotedScheme (rest : Text) : Prop :=
  ∃ quote word space, isQuote quote = true ∧ isScheme word = true ∧ space ≠ [] ∧
    (∀ character ∈ space, isWhiteSpace character = true) ∧
    quote :: (word ++ quote :: space) <+: rest

structure LabelledSecret where
  before : Text
  label : Text
  space : Text
  separator : Char
  more : Text
  scheme : Text
  opening : Text
  value : Text
  after : Text
  fresh : ∀ character, before.getLast? = some character → isLabelCharacter character = false
  characters : ∀ character ∈ label, isLabelCharacter character = true
  secret : isSecretLabel label = true
  spaces : ∀ character ∈ space, isWhiteSpace character = true
  separates : separator = '=' ∨ separator = ':'
  moreSpaces : ∀ character ∈ more, isWhiteSpace character = true
  gap : SchemeGap label scheme (opening ++ (value ++ after))
  written : ValueText opening value after

namespace LabelledSecret

variable (secret : LabelledSecret)

/-- What stands between the label and its value. -/
def front : Text :=
  secret.space ++ secret.separator :: (secret.more ++ (secret.scheme ++ secret.opening))

/-- What stands behind the separator and its whitespace. -/
def valuePlace : Text := secret.scheme ++ (secret.opening ++ (secret.value ++ secret.after))

def text : Text :=
  secret.before ++ (secret.label ++ (secret.front ++ (secret.value ++ secret.after)))

def start : Nat := byteLength (secret.before ++ (secret.label ++ secret.front))

def stop : Nat := byteLength (secret.before ++ (secret.label ++ (secret.front ++ secret.value)))

/-- Every byte of the value is in a span that is replaced. -/
def Replaced : Prop :=
  ∃ spans, detected secret.text = some spans ∧ ∀ offset, secret.start ≤ offset →
    offset < secret.stop → ∃ span ∈ merged spans, span.Covers offset

/-- The scan of labels takes the label, or a part of it, as the value of an earlier one. -/
def Swallowed : Prop :=
  ∃ earlier rest lead value, secret.text = earlier ++ rest ∧
    Reaches (labelRound secret.text) 0 (byteLength earlier) ∧
    (labelStep rest).2 = some (lead, value) ∧
    byteLength earlier < byteLength secret.before ∧
    byteLength secret.before < byteLength (earlier ++ (lead ++ value))

/-- The value of an authorization is a scheme in quotes, with whitespace behind it. -/
def SchemeQuoted : Prop :=
  isAuthorization secret.label = true ∧
    QuotedScheme secret.valuePlace

end LabelledSecret

/-! ## Reading a secret -/

theorem takeWhile_run {test : Char → Bool} {run rest : Text}
    (inside : ∀ character ∈ run, test character = true)
    (stops : ∀ character, rest.head? = some character → test character = false) :
    (run ++ rest).takeWhile test = run := by
  rw [List.takeWhile_append_of_pos inside]
  cases rest with
  | nil => rw [List.takeWhile_nil, List.append_nil]
  | cons first rest =>
      rw [List.takeWhile_cons_of_neg (by rw [stops first rfl]; exact Bool.false_ne_true),
        List.append_nil]

theorem dropWhile_run {test : Char → Bool} {run rest : Text}
    (inside : ∀ character ∈ run, test character = true)
    (stops : ∀ character, rest.head? = some character → test character = false) :
    (run ++ rest).dropWhile test = rest := by
  have whole := List.takeWhile_append_dropWhile (p := test) (l := run ++ rest)
  rw [takeWhile_run inside stops] at whole
  exact List.append_cancel_left whole

theorem insideQuotes_inside {quote : Char} (other : quote ≠ Json.backslash) {value : Text}
    (inside : Inside quote value) (after : Text) :
    insideQuotes quote false (value ++ quote :: after) = value := by
  induction inside with
  | nil => rw [List.nil_append, insideQuotes, if_neg other, if_pos rfl]
  | plain unescaped goesOn inside induction =>
      rw [List.cons_append, insideQuotes, if_neg unescaped, if_neg goesOn, induction]
  | escaped character inside induction =>
      rw [List.cons_append, List.cons_append, insideQuotes, if_pos rfl, insideQuotes, induction]

theorem isQuote_ne_backslash {character : Char} (quoted : isQuote character = true) :
    character ≠ Json.backslash := by
  rintro rfl
  revert quoted
  decide

theorem not_marked {first : Char} (other : first ≠ '[') (rest : Text) :
    marker.isPrefixOf (first :: rest) = false := by
  have split : marker = '[' :: marker.tail := by decide +kernel
  rw [split, List.isPrefixOf, beq_eq_false_iff_ne.mpr other.symm, Bool.false_and]

theorem valueIn_text {opening value after : Text} (written : ValueText opening value after) :
    ∃ more, value <+: more ∧ valueIn (opening ++ (value ++ after)) = some (opening, more) := by
  cases written with
  | @quoted quote quoted value inside after =>
      have other : quote ≠ '[' := by
        rintro rfl
        revert quoted
        decide
      refine ⟨value, List.prefix_rfl, ?_⟩
      rw [List.singleton_append, valueIn, not_marked other, if_neg Bool.false_ne_true,
        if_pos quoted, insideQuotes_inside (isQuote_ne_backslash quoted) inside]
  | @run first rest opens inside after =>
      have all : ∀ character ∈ first :: rest, (!endsValue character) = true :=
        fun character member => congrArg not (inside character member)
      have starts : first :: rest <+: (first :: (rest ++ after)).takeWhile (!endsValue ·) := by
        rw [← List.cons_append, List.takeWhile_append_of_pos all]
        exact List.prefix_append _ _
      refine ⟨_, starts, ?_⟩
      rw [List.nil_append, List.cons_append, valueIn, not_marked opens.1,
        if_neg Bool.false_ne_true, opens.2, if_neg Bool.false_ne_true]
      dsimp only
      rw [if_neg]
      intro nothing
      rw [nothing] at starts
      cases List.prefix_nil.mp starts

theorem isLabelCharacter_of_toLower {character : Char}
    (lower : isLabelCharacter character.toLower = true) : isLabelCharacter character = true := by
  by_cases upper : 'A'.val ≤ character.val ∧ character.val ≤ 'Z'.val
  · have isUpper : character.isUpper = true := by
      rw [Char.isUpper]
      simpa using upper
    simp [isLabelCharacter, Char.isAlphanum, Char.isAlpha, isUpper]
  · rwa [Char.toLower, dif_neg upper] at lower

theorem isScheme_characters {word : Text} (scheme : isScheme word = true) :
    (∀ character ∈ word, isLabelCharacter character = true) ∧ word ≠ [] := by
  have lowered : (lowercase word).all isLabelCharacter = true ∧ lowercase word ≠ [] := by
    simp only [isScheme, Bool.or_eq_true, decide_eq_true_eq] at scheme
    rcases scheme with (same | same) | same <;> rw [same] <;> decide +kernel
  constructor
  · intro character member
    exact isLabelCharacter_of_toLower
      (List.all_eq_true.mp lowered.1 _ (List.mem_map_of_mem member))
  · rintro rfl
    exact lowered.2 rfl

theorem isWhiteSpace_of_label {character : Char} (inside : isLabelCharacter character = true) :
    isWhiteSpace character = false := by
  have above : ∀ limit : Char, 48 ≤ limit.toNat → limit.val ≤ character.val →
      48 ≤ character.toNat :=
    fun limit large order => Nat.le_trans large (UInt32.le_iff_toNat_le.mp order)
  have last := isLabelCharacter_ascii character inside
  have first : 48 ≤ character.toNat := by
    simp only [isLabelCharacter, Char.isAlphanum, Char.isAlpha, Char.isUpper, Char.isLower,
      Char.isDigit, Bool.or_eq_true, decide_eq_true_eq, Bool.and_eq_true] at inside
    rcases inside with ((⟨upper, -⟩ | ⟨lower, -⟩) | ⟨digit, -⟩) | rfl
    · exact above 'A' (by decide) upper
    · exact above 'a' (by decide) lower
    · exact above '0' (by decide) digit
    · decide
  simp only [isWhiteSpace, Bool.or_eq_false_iff, Bool.and_eq_false_iff, decide_eq_false_iff_not]
  omega

theorem isLabelCharacter_of_space {character : Char} (space : isWhiteSpace character = true) :
    isLabelCharacter character = false := by
  cases inside : isLabelCharacter character with
  | false => rfl
  | true => exact absurd space (by rw [isWhiteSpace_of_label inside]; exact Bool.false_ne_true)

theorem isQuote_cases {character : Char} (quoted : isQuote character = true) :
    isLabelCharacter character = false ∧ isWhiteSpace character = false := by
  simp only [isQuote, Bool.or_eq_true, decide_eq_true_eq] at quoted
  rcases quoted with (rfl | rfl) | rfl <;> exact ⟨by decide, by decide⟩

theorem head_space {space rest : Text} (some : space ≠ [])
    (inside : ∀ character ∈ space, isWhiteSpace character = true) (character : Char)
    (first : (space ++ rest).head? = Option.some character) : isWhiteSpace character = true := by
  cases space with
  | nil => exact absurd rfl some
  | cons head space =>
      obtain rfl := Option.some.inj first
      exact inside head List.mem_cons_self

theorem head_value {opening value after : Text} (written : ValueText opening value after)
    (character : Char) (first : (opening ++ (value ++ after)).head? = some character) :
    isWhiteSpace character = false := by
  cases written with
  | quoted quoted inside after =>
      obtain rfl := Option.some.inj first
      exact (isQuote_cases quoted).2
  | run opens inside after =>
      obtain rfl := Option.some.inj first
      have goesOn := inside _ List.mem_cons_self
      simp only [endsValue, Bool.or_eq_false_iff] at goesOn
      exact goesOn.1.1.1.1.1

/-! ## Schemes -/

theorem labelIn_word {word rest : Text}
    (characters : ∀ character ∈ word, isLabelCharacter character = true) (some : word ≠ [])
    (stops : ∀ character, rest.head? = Option.some character →
      isLabelCharacter character = false) :
    labelIn (word ++ rest) = Option.some (word, word) := by
  cases word with
  | nil => exact absurd rfl some
  | cons first more =>
      have unquoted : isQuote first = false := by
        apply Bool.eq_false_iff.mpr
        intro quoted
        have inside := characters first List.mem_cons_self
        rw [(isQuote_cases quoted).1] at inside
        cases inside
      have run := takeWhile_run characters stops
      rw [List.cons_append] at run ⊢
      simp only [labelIn, unquoted, Bool.false_eq_true, if_false, run]
      rw [if_neg some]

theorem labelIn_cases {rest label taken : Text} (found : labelIn rest = some (label, taken)) :
    taken = label ∨ ∃ quote, isQuote quote = true ∧ taken = quote :: (label ++ [quote]) := by
  cases rest with
  | nil => cases found
  | cons first rest =>
      simp only [labelIn] at found
      split at found
      · next quoted =>
          split at found
          · cases found
            exact .inr ⟨first, quoted, rfl⟩
          · cases found
      · split at found
        · cases found
        · cases found
          exact .inl rfl

theorem schemeIn_present {scheme rest : Text} (written : SchemeText scheme)
    (stops : ∀ character, rest.head? = some character → isWhiteSpace character = false) :
    schemeIn (scheme ++ rest) = scheme := by
  obtain ⟨word, space, rfl, isScheme, some, spaces⟩ := written
  obtain ⟨characters, nonempty⟩ := isScheme_characters isScheme
  have label : labelIn (word ++ space ++ rest) = Option.some (word, word) := by
    rw [List.append_assoc]
    exact labelIn_word characters nonempty fun character first =>
      isLabelCharacter_of_space (head_space some spaces character first)
  rw [schemeIn, label]
  dsimp only
  rw [List.append_assoc, List.drop_left, takeWhile_run spaces stops, if_pos ⟨isScheme, some⟩]

theorem schemeIn_absent {rest : Text} (free : ¬ ∃ scheme, SchemeText scheme ∧ scheme <+: rest)
    (unquoted : ¬ QuotedScheme rest) : schemeIn rest = [] := by
  have starts := schemeIn_starts rest
  revert starts
  unfold schemeIn
  split
  · exact fun _ => rfl
  · next word taken found =>
      dsimp only
      split
      · next read =>
          intro starts
          obtain ⟨isScheme, some⟩ := read
          have spaces : ∀ character ∈ (rest.drop taken.length).takeWhile isWhiteSpace,
              isWhiteSpace character = true := fun _ member => List.mem_takeWhile_imp member
          rcases labelIn_cases found with rfl | ⟨quote, quoted, same⟩
          · exact absurd ⟨_, ⟨_, _, rfl, isScheme, some, spaces⟩, starts⟩ free
          · refine absurd ⟨quote, word, _, quoted, isScheme, some, spaces, ?_⟩ unquoted
            rw [same] at starts
            simpa [same] using starts
      · exact fun _ => rfl

namespace SchemeGap

variable {label scheme rest : Text}

theorem head (gap : SchemeGap label scheme rest)
    (stops : ∀ character, rest.head? = some character → isWhiteSpace character = false)
    (character : Char) (first : (scheme ++ rest).head? = some character) :
    isWhiteSpace character = false := by
  cases gap with
  | absent => exact stops character first
  | present authorization written rest =>
      obtain ⟨word, space, rfl, isScheme, _⟩ := written
      obtain ⟨characters, nonempty⟩ := isScheme_characters isScheme
      cases word with
      | nil => exact absurd rfl nonempty
      | cons letter word =>
          obtain rfl := Option.some.inj first
          exact isWhiteSpace_of_label (characters letter List.mem_cons_self)

theorem read (gap : SchemeGap label scheme rest)
    (stops : ∀ character, rest.head? = some character → isWhiteSpace character = false)
    (unquoted : isAuthorization label = true → ¬ QuotedScheme (scheme ++ rest)) :
    (if isAuthorization label = true then schemeIn (scheme ++ rest) else []) = scheme := by
  cases gap with
  | absent free =>
      split
      · next authorization =>
          exact schemeIn_absent (free authorization) (unquoted authorization)
      · rfl
  | present authorization written rest =>
      rw [if_pos authorization, schemeIn_present written stops]

end SchemeGap

/-! ## Secrets that are found -/

namespace LabelledSecret

variable (secret : LabelledSecret)

theorem head_valuePlace (character : Char) (first : secret.valuePlace.head? = some character) :
    isWhiteSpace character = false :=
  secret.gap.head (head_value secret.written) character first

theorem gap_read (unquoted : ¬ secret.SchemeQuoted) :
    valueGap secret.label true (secret.more ++ secret.valuePlace) =
      secret.more ++ secret.scheme := by
  have read := secret.gap.read (head_value secret.written) fun authorization quoted =>
    unquoted ⟨authorization, quoted⟩
  have run := takeWhile_run secret.moreSpaces secret.head_valuePlace
  rw [valueGap]
  simp only [run, List.drop_left, Bool.true_and]
  split
  · next authorization =>
      rw [if_pos authorization] at read
      exact congrArg (secret.more ++ ·) read
  · next other =>
      rw [if_neg other] at read
      rw [← read, List.append_nil]

theorem given (unquoted : ¬ secret.SchemeQuoted) :
    ∃ more, secret.value <+: more ∧
      givenAway secret.label (secret.front ++ (secret.value ++ secret.after)) =
        some (secret.front, more) := by
  obtain ⟨more, starts, read⟩ := valueIn_text secret.written
  have rest : secret.front ++ (secret.value ++ secret.after) =
      secret.space ++ secret.separator :: (secret.more ++ secret.valuePlace) := by
    simp [front, valuePlace]
  have stops : ∀ character, (secret.separator :: (secret.more ++ secret.valuePlace)).head? =
      some character → isWhiteSpace character = false := by
    rintro character ⟨⟩
    rcases secret.separates with same | same <;> rw [same] <;> decide
  have separator : separatorIn secret.label (secret.front ++ (secret.value ++ secret.after)) =
      some (true, secret.space ++ [secret.separator]) := by
    have separates : (decide (some secret.separator = some '=') ||
        decide (some secret.separator = some ':')) = true := by
      rcases secret.separates with same | same <;> rw [same] <;> decide
    rw [separatorIn, rest, takeWhile_run secret.spaces stops, dropWhile_run secret.spaces stops,
      List.head?_cons, secret.secret, separates]
    rfl
  have behind : (secret.front ++ (secret.value ++ secret.after)).drop
      (secret.space ++ [secret.separator]).length = secret.more ++ secret.valuePlace := by
    rw [rest, List.append_cons secret.space _ (secret.more ++ _), List.drop_left]
  refine ⟨more, starts, ?_⟩
  rw [givenAway, separator, Option.bind_some]
  dsimp only
  rw [behind, secret.gap_read unquoted]
  have place : (secret.front ++ (secret.value ++ secret.after)).drop
      (secret.space ++ [secret.separator] ++ (secret.more ++ secret.scheme)).length =
        secret.opening ++ (secret.value ++ secret.after) := by
    have split : secret.front ++ (secret.value ++ secret.after) =
        (secret.space ++ [secret.separator] ++ (secret.more ++ secret.scheme)) ++
          (secret.opening ++ (secret.value ++ secret.after)) := by
      simp [front]
    rw [split, List.drop_left]
  rw [place, read]
  simp [front]

/-! ### Coming to the label -/

theorem head_front (rest : Text) (character : Char)
    (first : (secret.front ++ rest).head? = some character) :
    isLabelCharacter character = false ∧ isQuote character = false := by
  rw [front] at first
  cases spaces : secret.space with
  | nil =>
      rw [spaces] at first
      obtain rfl := Option.some.inj first
      rcases secret.separates with same | same <;> rw [same] <;> exact ⟨by decide, by decide⟩
  | cons head space =>
      rw [spaces] at first
      obtain rfl := Option.some.inj first
      have white := secret.spaces head (spaces ▸ List.mem_cons_self)
      refine ⟨isLabelCharacter_of_space white, Bool.eq_false_iff.mpr fun quoted => ?_⟩
      rw [(isQuote_cases quoted).2] at white
      cases white

end LabelledSecret

theorem labelIn_characters {rest label taken : Text}
    (found : labelIn rest = some (label, taken)) :
    ∀ character ∈ label, isLabelCharacter character = true := by
  cases rest with
  | nil => cases found
  | cons first rest =>
      simp only [labelIn] at found
      split at found
      · split at found
        · cases found
          exact fun _ member => List.mem_takeWhile_imp member
        · cases found
      · split at found
        · cases found
        · cases found
          exact fun _ member => List.mem_takeWhile_imp member

theorem labelIn_quoted {rest label taken : Text} {quote : Char} (quoted : isQuote quote = true)
    (found : labelIn (quote :: rest) = some (label, taken)) :
    label = rest.takeWhile isLabelCharacter ∧
      (rest.dropWhile isLabelCharacter).head? = some quote := by
  simp only [labelIn, quoted, if_true] at found
  split at found
  · next closed =>
      cases found
      exact ⟨rfl, closed.2⟩
  · cases found

/-- A step of the scan of labels takes a character or a label, or goes to the end of a value. -/
theorem labelStep_cases (rest : Text) :
    (labelStep rest).1 = rest.take 1 ∨
      (∃ label, labelIn rest = some (label, (labelStep rest).1)) ∨
      ∃ lead value, (labelStep rest).2 = some (lead, value) := by
  unfold labelStep
  split
  · exact .inl rfl
  · next label taken found =>
      split
      · exact .inr (.inl ⟨label, found⟩)
      · exact .inr (.inr ⟨_, _, rfl⟩)

theorem append_split {first second third fourth : Text}
    (same : first ++ second = third ++ fourth) (length : byteLength first = byteLength third) :
    first = third ∧ second = fourth := by
  rcases List.append_eq_append_iff.mp same with ⟨middle, rfl, rfl⟩ | ⟨middle, rfl, rfl⟩
  · rw [byteLength_append_eq.mp length.symm, List.append_nil, List.nil_append]
    exact ⟨rfl, rfl⟩
  · rw [byteLength_append_eq.mp length, List.append_nil, List.nil_append]
    exact ⟨rfl, rfl⟩

theorem label_over {ended rest label taken : Text} (some : ended ≠ [])
    (fresh : ∀ character, ended.getLast? = Option.some character →
      isLabelCharacter character = false)
    (found : labelIn (ended ++ rest) = Option.some (label, taken))
    (passes : byteLength ended < byteLength taken) :
    ∃ quote, isQuote quote = true ∧ ended = [quote] ∧
      label = rest.takeWhile isLabelCharacter ∧
      (rest.dropWhile isLabelCharacter).head? = Option.some quote := by
  obtain ⟨starts, _⟩ := labelIn_starts found
  have inside : ended <+: taken := by
    rcases List.prefix_or_prefix_of_prefix (List.prefix_append ended rest) starts with
      shorter | longer
    · exact shorter
    · obtain ⟨extra, rfl⟩ := longer
      rw [byteLength_append] at passes
      omega
  have characters := labelIn_characters found
  -- the last character of the ended text would be one of the label
  have noLabel {front : Text} (nonempty : front ≠ []) (inLabel : front <+: label)
      (last : ended.getLast? = front.getLast?) : False := by
    have lastOf := List.getLast?_eq_some_getLast nonempty
    have inside := characters _ (inLabel.subset (List.getLast_mem nonempty))
    rw [fresh _ (last.trans lastOf)] at inside
    cases inside
  rcases labelIn_cases found with rfl | ⟨quote, quoted, rfl⟩
  · exact (noLabel some inside rfl).elim
  · cases ended with
    | nil => exact absurd rfl some
    | cons first more =>
        obtain ⟨rfl, more_inside⟩ := List.cons_prefix_cons.mp inside
        cases more with
        | nil => exact ⟨first, quoted, rfl, labelIn_quoted quoted found⟩
        | cons second more =>
            rcases List.prefix_concat_iff.mp more_inside with whole | inLabel
            · rw [whole] at passes
              exact absurd passes (Nat.lt_irrefl _)
            · exact (noLabel (List.cons_ne_nil _ _) inLabel (by rw [List.getLast?_cons_cons])).elim

namespace LabelledSecret

variable (secret : LabelledSecret)

theorem boundary_before : Boundary secret.text (byteLength secret.before) := .intro _ _

/-- From an offset in front of the label, a step that takes no value comes to the label at most. -/
theorem step_before (free : ¬ secret.Swallowed) {earlier rest : Text}
    (split : secret.text = earlier ++ rest)
    (reaches : Reaches (labelRound secret.text) 0 (byteLength earlier))
    (inFront : byteLength earlier < byteLength secret.before) :
    byteLength (earlier ++ (labelStep rest).1) ≤ byteLength secret.before := by
  obtain ⟨ended, behind, rfl, ends⟩ : ∃ ended behind, rest = ended ++ behind ∧
      byteLength secret.before = byteLength (earlier ++ ended) :=
    boundary_behind (split ▸ secret.boundary_before) (Nat.le_of_lt inFront)
  obtain ⟨whole, tail⟩ := @append_split _ _ (earlier ++ ended) behind
    (split.trans (List.append_assoc ..).symm) ends
  have some : ended ≠ [] := by
    rintro rfl
    rw [List.append_nil] at ends
    omega
  rcases Nat.lt_or_ge (byteLength secret.before)
    (byteLength (earlier ++ (labelStep (ended ++ behind)).1)) with passes | within
  · rw [ends, byteLength_append earlier, byteLength_append earlier] at passes
    have longer : byteLength ended < byteLength (labelStep (ended ++ behind)).1 := by omega
    rcases labelStep_cases (ended ++ behind) with one | ⟨label, found⟩ | ⟨lead, value, found⟩
    · cases ended with
      | nil => exact absurd rfl some
      | cons first more =>
          rw [one, List.cons_append, List.take_succ_cons, List.take_zero,
            byteLength_cons_eq first more] at longer
          omega
    · have fresh : ∀ character, ended.getLast? = Option.some character →
          isLabelCharacter character = false := fun character last =>
        secret.fresh character (by rw [whole, List.getLast?_append_of_ne_nil _ some, last])
      obtain ⟨quote, quoted, _, _, closed⟩ := label_over some fresh found longer
      rw [← tail, dropWhile_run secret.characters fun character first =>
        (secret.head_front _ character first).1] at closed
      rw [(secret.head_front _ quote closed).2] at quoted
      cases quoted
    · refine absurd ⟨earlier, _, lead, value, split, reaches, found, inFront, ?_⟩ free
      rw [ends, byteLength_append earlier, byteLength_append earlier, ← labelStep_value found]
      omega
  · exact within

theorem reached (free : ¬ secret.Swallowed) :
    Reaches (labelRound secret.text) 0 (byteLength secret.before) := by
  suffices general : ∀ offset spans, Runs (labelRound secret.text) offset spans →
      Reaches (labelRound secret.text) 0 offset → Boundary secret.text offset →
      offset ≤ byteLength secret.before →
      Reaches (labelRound secret.text) 0 (byteLength secret.before) by
    obtain ⟨spans, _, runs, _⟩ := labels_run secret.text
    exact general 0 spans runs .start ⟨[], _, rfl, rfl⟩ (Nat.zero_le _)
  intro offset spans runs
  induction runs with
  | @stop offset left =>
      rintro reaches ⟨earlier, rest, split, rfl⟩ within
      by_cases more : rest = []
      · rw [more, List.append_nil] at split
        have same := Nat.le_antisymm within (split ▸ secret.boundary_before.le)
        exact same ▸ reaches
      · rw [split, labelRound_eq earlier more] at left
        cases left
  | @next offset after found later step rest induction =>
      rintro reaches ⟨earlier, behind, split, rfl⟩ within
      rcases Nat.lt_or_eq_of_le within with inFront | same
      · have more : behind ≠ [] := by
          rintro rfl
          rw [List.append_nil] at split
          rw [split, labelRound_end] at step
          cases step
        have goesOn := labelRound_eq earlier more
        rw [← split, step] at goesOn
        cases goesOn
        refine induction (reaches.next step) ?_ (secret.step_before free split reaches inFront)
        rw [split]
        exact boundary_of_starts earlier (labelStep_starts more).1
      · exact same ▸ reaches

theorem labelStep_secret (unquoted : ¬ secret.SchemeQuoted) :
    ∃ more, secret.value <+: more ∧
      labelStep (secret.label ++ (secret.front ++ (secret.value ++ secret.after))) =
        (secret.label ++ secret.front ++ more, some (secret.label ++ secret.front, more)) := by
  obtain ⟨more, starts, given⟩ := secret.given unquoted
  have nonempty : secret.label ≠ [] := by
    intro nothing
    have secretLabel := secret.secret
    rw [nothing] at secretLabel
    revert secretLabel
    decide +kernel
  have label := labelIn_word secret.characters nonempty fun character first =>
    (secret.head_front (secret.value ++ secret.after) character first).1
  refine ⟨more, starts, ?_⟩
  rw [labelStep, label]
  dsimp only
  rw [List.drop_left, given]

theorem found (reached : Reaches (labelRound secret.text) 0 (byteLength secret.before))
    (unquoted : ¬ secret.SchemeQuoted) {spans : List Redaction}
    (runs : Runs (labelRound secret.text) 0 spans) :
    ∃ span ∈ spans, span.start = secret.start ∧ secret.stop ≤ span.stop := by
  obtain ⟨more, ⟨rest, rfl⟩, taken⟩ := secret.labelStep_secret unquoted
  have some : secret.label ++ (secret.front ++ (secret.value ++ secret.after)) ≠ [] := by
    simp [front]
  have step := labelRound_eq secret.before some
  rw [taken] at step
  refine ⟨_, reached.found step runs _ (List.mem_singleton_self _), rfl, ?_⟩
  simp only [stop, byteLength_append]
  omega

theorem characters_of_all {text : Text} (all : text.all isLabelCharacter = true) :
    ∀ character ∈ text, isLabelCharacter character = true := List.all_eq_true.mp all

/-- An unquoted password, with some text before its label. -/
def password (before : Text) (fresh : ∀ character, before.getLast? = some character →
    isLabelCharacter character = false) : LabelledSecret where
  before
  label := "password".toList
  space := []
  separator := ':'
  more := [' ']
  scheme := []
  opening := []
  value := "hunter2".toList
  after := []
  fresh
  characters := characters_of_all (by decide +kernel)
  secret := by decide +kernel
  spaces := List.forall_mem_nil _
  separates := .inr rfl
  moreSpaces := List.forall_mem_singleton.mpr (by decide)
  gap := .absent fun authorization => absurd authorization (by decide +kernel)
  written := .run ⟨by decide, by decide⟩
    (fun character member => by
      have all : ("hunter2".toList.all (!endsValue ·)) = true := by decide +kernel
      simpa using List.all_eq_true.mp all character member) []

end LabelledSecret

end TerminalCanvas.Memory.Secrets
