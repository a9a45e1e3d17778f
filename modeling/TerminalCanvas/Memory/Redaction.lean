import TerminalCanvas.Foundation.Offsets
import TerminalCanvas.Foundation.Slices

/-! # Redaction of secrets

Private key blocks, values behind labels and tokens that look like secrets are found in
a text and replaced by a marker. Offsets count bytes, and a slice that is not between
characters is a panic: the functions have no result then. -/

namespace TerminalCanvas.Memory.Secrets

open Json (byteLength)
open Slices (sliceFrom slice byteAt bytes find)

abbrev Text := List Char

/-! ## Preparing -/

def invisible : List Nat :=
  [0x200B, 0x200C, 0x200D, 0x2060, 0xFEFF, 0x00AD, 0x202A, 0x202B, 0x202C, 0x202D, 0x202E,
    0x2066, 0x2067, 0x2068, 0x2069]

def staysVisible (character : Char) : Bool :=
  (!invisible.contains character.toNat && !isControl character) ||
    character = '\n' || character = '\r' || character = '\t'

def stripInvisible (text : Text) : Text := text.filter staysVisible

structure Redaction where
  start : Nat
  stop : Nat
  replacement : Text

def marker : Text := "[redacted]".toList

def keyMarker : Text := "[redacted private key]".toList

/-! ## Characters -/

def apostrophe : Char := Char.ofNat 0x27

def backtick : Char := Char.ofNat 0x60

def isQuote (character : Char) : Bool :=
  character = Json.quote || character = apostrophe || character = backtick

def isLabelCharacter (character : Char) : Bool := character.isAlphanum || character = '_'

def endsValue (character : Char) : Bool :=
  isWhiteSpace character || character = ',' || character = ';' || character = Char.ofNat 0x7D ||
    character = ']' || character = ')'

/-- What ends a token, besides a colon in front of a URL. -/
def endsToken (character : Char) : Bool :=
  isWhiteSpace character || isQuote character || character = ',' || character = ';' ||
    character = Char.ofNat 0x7B || character = Char.ofNat 0x7D || character = '[' ||
    character = ']' || character = '(' || character = ')' || character = '='

def lowercase (text : Text) : Text := text.map Char.toLower

/-! ## Labels and values -/

def skipWhitespace (text : Text) (start : Nat) : Option Nat := do
  let rest ← sliceFrom text start
  pure (start + byteLength (rest.takeWhile isWhiteSpace))

def labelAt (text : Text) (start : Nat) : Option (Option (Text × Nat)) :=
  let quoted := (byteAt text start).any isQuote
  let labelStart := start + quoted.toNat
  let stop := labelStart + (((bytes text).drop labelStart).takeWhile isLabelCharacter).length
  if stop = labelStart then
    pure none
  else if quoted then
    if byteAt text stop ≠ byteAt text start then
      pure none
    else do
      let label ← slice text labelStart stop
      pure (some (label, stop + 1))
  else do
    let label ← slice text labelStart stop
    pure (some (label, stop))

/-- The characters up to the closing quote, or all of them without one. -/
def insideQuotes (quote : Char) : Bool → Text → Text
  | _, [] => []
  | true, character :: rest => character :: insideQuotes quote false rest
  | false, character :: rest =>
      if character = Json.backslash then character :: insideQuotes quote true rest
      else if character = quote then []
      else character :: insideQuotes quote false rest

def secretValueSpan (text : Text) (start : Nat) : Option (Option (Nat × Nat)) :=
  match byteAt text start with
  | none => pure none
  | some first => do
      let rest ← sliceFrom text start
      if marker.isPrefixOf rest then
        pure (some (start, start + byteLength marker))
      else if isQuote first then
        let quoted ← sliceFrom text (start + 1)
        pure (some (start + 1, start + 1 + byteLength (insideQuotes first false quoted)))
      else
        let stop := start + byteLength (rest.takeWhile (!endsValue ·))
        pure (if start < stop then some (start, stop) else none)

def secretLabels : List Text :=
  ["api_key", "apikey", "access_key", "secret", "secret_key", "token", "auth_token",
    "authorization", "password", "passwd", "pwd", "private_key"].map String.toList

def isSecretLabel (label : Text) : Bool :=
  secretLabels.any fun needle =>
    lowercase label = needle || ('_' :: needle).isSuffixOf (lowercase label)

def isBearer (label : Text) : Bool := lowercase label = "bearer".toList

def isScheme (label : Text) : Bool :=
  lowercase label = "bearer".toList || lowercase label = "basic".toList ||
    lowercase label = "token".toList

def isAuthorization (label : Text) : Bool := "authorization".toList.isSuffixOf (lowercase label)

/-- The value of an authorization begins behind its scheme. -/
def skipScheme (text : Text) (valueStart : Nat) : Option Nat := do
  match ← labelAt text valueStart with
  | none => pure valueStart
  | some (scheme, stop) =>
      let behind ← skipWhitespace text stop
      pure (if isScheme scheme = true ∧ stop < behind then behind else valueStart)

/-- The value that a label at this offset gives away. -/
def labelledValue (text : Text) (label : Text) (labelEnd : Nat) : Option (Option (Nat × Nat)) := do
  let separator ← skipWhitespace text labelEnd
  let bareBearer := isBearer label && labelEnd < separator
  let assignment := isSecretLabel label &&
    (byteAt text separator = some '=' || byteAt text separator = some ':')
  if assignment || bareBearer then
    let valueStart ← skipWhitespace text (if assignment then separator + 1 else separator)
    let valueStart ← if assignment && isAuthorization label then skipScheme text valueStart
      else pure valueStart
    secretValueSpan text valueStart
  else
    pure none

def labelRound (text : Text) (offset : Nat) : Option (Option (Nat × List Redaction)) :=
  if offset < byteLength text then do
    match ← labelAt text offset with
    | some (label, labelEnd) =>
        match ← labelledValue text label labelEnd with
        | some (start, stop) => pure (some (stop, [⟨start, stop, marker⟩]))
        | none => pure (some (labelEnd, []))
    | none =>
        let rest ← sliceFrom text offset
        pure (some (offset + byteLength (rest.take 1), []))
  else
    pure none

/-! ## Tokens -/

/-- The characters of a token. A colon ends it unless a URL has begun. -/
def tokenFrom : Bool → Text → Text
  | _, [] => []
  | url, character :: rest =>
      let url := url || "://".toList.isPrefixOf (character :: rest)
      if endsToken character || (character = ':' && !url) then []
      else character :: tokenFrom url rest

def tokenEnd (text : Text) (start : Nat) : Option Nat := do
  let rest ← sliceFrom text start
  pure (start + byteLength (tokenFrom false rest))

def splitOnce (pattern : Text) : Text → Option (Text × Text)
  | [] => if pattern.isPrefixOf [] then some ([], []) else none
  | character :: rest =>
      if pattern.isPrefixOf (character :: rest) then
        some ([], (character :: rest).drop pattern.length)
      else (splitOnce pattern rest).map fun (before, after) => (character :: before, after)

def containsUrlCredentials (value : Text) : Bool :=
  match splitOnce "://".toList value with
  | none => false
  | some (_, rest) =>
      let authority := rest.takeWhile fun character =>
        !(character = '/' || character = '?' || character = '#')
      match splitOnce ['@'] authority with
      | none => false
      | some (credentials, _) => credentials.contains ':'

def secretPrefixes : List Text :=
  ["sk-", "sk_live_", "sk_test_", "ghp_", "github_pat_", "gho_", "ghu_", "ghs_", "xoxb-",
    "xoxp-", "xoxa-", "akia", "aiza", "eyj"].map String.toList

def looksLikeSecret (token : Text) : Bool :=
  if byteLength token < 12 then false
  else secretPrefixes.any (·.isPrefixOf (lowercase token)) ||
    containsUrlCredentials (lowercase token)

def tokenRound (text : Text) (offset : Nat) : Option (Option (Nat × List Redaction)) :=
  if offset < byteLength text then do
    let stop ← tokenEnd text offset
    if offset < stop then
      let token ← slice text offset stop
      pure (some (stop, if looksLikeSecret token then [⟨offset, stop, marker⟩] else []))
    else
      let rest ← sliceFrom text offset
      pure (some (offset + byteLength (rest.take 1), []))
  else
    pure none

/-! ## Private keys -/

def keyBegin : Text := "-----BEGIN".toList

def keyEnd : Text := "-----END".toList

def keySuffix : Text := "PRIVATE KEY-----".toList

def lineEnd (text upper : Text) (start : Nat) : Option Nat := do
  let rest ← sliceFrom upper start
  pure (((find ['\n'] rest).map (start + ·)).getD (byteLength text))

/-- The end of a block whose first line ends here. -/
def blockEnd (text upper : Text) (firstLine : Nat) : Option Nat := do
  let behind ← sliceFrom upper firstLine
  match find keyEnd behind with
  | none => pure (byteLength text)
  | some ending =>
      let lastLine ← lineEnd text upper (firstLine + ending)
      let line ← slice upper (firstLine + ending) lastLine
      pure (((find keySuffix line).map (firstLine + ending + · + byteLength keySuffix)).getD
        (byteLength text))

def keyRound (text upper : Text) (offset : Nat) : Option (Option (Nat × List Redaction)) := do
  let rest ← sliceFrom upper offset
  match find keyBegin rest with
  | none => pure none
  | some begins =>
      let firstLine ← lineEnd text upper (offset + begins)
      let line ← slice upper (offset + begins) firstLine
      if (find keySuffix line).isNone then
        pure (some (firstLine, []))
      else
        let stop ← blockEnd text upper firstLine
        pure (some (stop, [⟨offset + begins, stop, keyMarker⟩]))

/-! ## Replacing -/

def privateKeySpans (text : Text) : Option (List Redaction) :=
  Offsets.loop (keyRound text (text.map Char.toUpper)) (byteLength text + 1) 0

def labelSpans (text : Text) : Option (List Redaction) :=
  Offsets.loop (labelRound text) (byteLength text + 1) 0

def tokenSpans (text : Text) : Option (List Redaction) :=
  Offsets.loop (tokenRound text) (byteLength text + 1) 0

/-- Everything that the three scans detect. -/
def detected (text : Text) : Option (List Redaction) := do
  let keys ← privateKeySpans text
  let labels ← labelSpans text
  let tokens ← tokenSpans text
  pure (keys ++ labels ++ tokens)

/-- Earlier spans first, and of those with one start the longest. -/
def startsBefore (left right : Redaction) : Bool :=
  left.start < right.start || (left.start = right.start && right.stop ≤ left.stop)

def mergeInto (last : Redaction) : List Redaction → List Redaction
  | [] => [last]
  | span :: spans =>
      if span.start < last.stop then mergeInto { last with stop := max last.stop span.stop } spans
      else last :: mergeInto span spans

def merged (spans : List Redaction) : List Redaction :=
  match spans.mergeSort startsBefore with
  | [] => []
  | span :: spans => mergeInto span spans

def replaceSpans (text : Text) (copied : Nat) : List Redaction → Option Text
  | [] => sliceFrom text copied
  | span :: spans => do
      let kept ← slice text copied span.start
      let rest ← replaceSpans text span.stop spans
      pure (kept ++ span.replacement ++ rest)

def redactSecrets (text : Text) : Option Text := do
  let spans ← detected text
  replaceSpans text 0 (merged spans)

def prepareContent (text : Text) : Option Text := redactSecrets (stripInvisible text)

end TerminalCanvas.Memory.Secrets
