import Mathlib.Data.Rat.Init
import TerminalCanvas.Foundation.Text
import TerminalCanvas.State.Layout

/-! # Loading the layout

The layout is loaded from the main file or, when that is missing or invalid, from the
newest backup. A file of a newer version of the program ends the search. -/

namespace TerminalCanvas.Layout

/-! ## JSON -/

/-- Integers outside of 64 bits are kept as floating-point numbers. -/
inductive JsonNumber where
  | posInt (value : UInt64)
  | negInt (value : Int)
  | float (value : ℚ)
deriving DecidableEq

inductive JsonValue where
  | null
  | bool (value : Bool)
  | number (value : JsonNumber)
  | string (value : String)
  | array (items : List JsonValue)
  | object (members : List (String × JsonValue))

/-- `Value::get` with a key. Only objects have members. -/
def JsonValue.get (key : String) : JsonValue → Option JsonValue
  | object members => (members.find? (·.1 = key)).map (·.2)
  | _ => none

def JsonNumber.toRat : JsonNumber → ℚ
  | posInt value => value.toNat
  | negInt value => value
  | float value => value

def JsonNumber.asU64 : JsonNumber → Option Nat
  | posInt value => some value.toNat
  | negInt _ | float _ => none

/-- The fields of a layout without a schema version that the model keeps. -/
structure LegacyAppState where
  workspaces : List WorkspaceState
  activeWs : Nat
deriving DecidableEq

def AppState.ofLegacy (value : LegacyAppState) : AppState :=
  ⟨appStateSchemaVersion, value.workspaces, value.activeWs⟩

/-- The JSON parser and the deserializers of third parties. A schema version is read as a
`u32` and as nothing else. -/
structure LayoutFormat where
  value : Bytes → Option JsonValue
  appState : JsonValue → Option AppState
  legacyAppState : JsonValue → Option LegacyAppState
  appState_version : ∀ {json state version}, appState json = some state →
    json.get "schema_version" = some version →
      ∃ value : UInt64, version = .number (.posInt value) ∧ value.toNat ≤ u32Max ∧
        state.schemaVersion = value.toNat

/-! ## Files -/

def backupSlots : Nat := 5

def backupPath (path : String) (slot : Nat) : String := path ++ ".bak." ++ toString slot

def candidatePaths (path : String) : List String :=
  path :: (List.range backupSlots).map (backupPath path)

/-- What is found at a path. A dangling link is there and cannot be read. -/
inductive Entry where
  | absent
  | unreadable (error : String)
  | notRegular
  | file (bytes : Bytes)
deriving DecidableEq, Repr

def layoutSizeError (limit : Nat) : String :=
  "El layout supera el límite de " ++ toString limit ++ " bytes"

def readStateBytes (limit : Nat) : Entry → Except String (Option Bytes)
  | .absent => .ok none
  | .unreadable error => .error error
  | .notRegular => .error "El layout debe estar en un archivo regular"
  | .file bytes => if limit < bytes.length then .error (layoutSizeError limit) else .ok (some bytes)

inductive StateLoadResult where
  | loaded (state : AppState)
  | missingOrUnreadable
  | readError (path error : String)
  | incompatibleFuture (version : Nat)
deriving DecidableEq

section Loading

variable (parser : UuidParser) (draws : List Uuid) (format : LayoutFormat)

def serializedSchemaVersion (bytes : Bytes) : Option Nat := do
  let json ← format.value bytes
  let version ← json.get "schema_version"
  match version with
  | .number number => number.asU64.filter (· ≤ u32Max)
  | _ => none

/-- `parse_state_bytes`, with the identifiers it may draw. Without a schema version the
layout is a legacy one. -/
def parseStateBytes (bytes : Bytes) : Option AppState := do
  let json ← format.value bytes
  match json.get "schema_version" with
  | some _ =>
      let state ← format.appState json
      if appStateSchemaVersion < state.schemaVersion then none
      else normalizeSavedState parser draws state
  | none =>
      let legacy ← format.legacyAppState json
      normalizeSavedState parser draws (.ofLegacy legacy)

def loadCandidates (read : String → Except String (Option Bytes)) : List String → StateLoadResult
  | [] => .missingOrUnreadable
  | candidate :: candidates =>
      match read candidate with
      | .ok none => loadCandidates read candidates
      | .error error => .readError candidate error
      | .ok (some bytes) =>
          match (serializedSchemaVersion format bytes).filter (appStateSchemaVersion < ·) with
          | some version => .incompatibleFuture version
          | none =>
              match parseStateBytes parser draws format bytes with
              | some state => .loaded state
              | none => loadCandidates read candidates

def loadStateResultWithReader (path : String) (read : String → Except String (Option Bytes)) :
    StateLoadResult :=
  loadCandidates parser draws format read (candidatePaths path)

def loadStateResultFromPathWithLimit (path : String) (limit : Nat) (files : String → Entry) :
    StateLoadResult :=
  loadStateResultWithReader parser draws format path fun candidate =>
    readStateBytes limit (files candidate)

/-! ## What decides -/

/-- What a load should come to, the number of a newer version apart. -/
inductive Decision where
  | loaded (state : AppState)
  | nothing
  | readError (path error : String)
  | future
deriving DecidableEq

def StateLoadResult.decision : StateLoadResult → Decision
  | loaded state => .loaded state
  | missingOrUnreadable => .nothing
  | readError path error => .readError path error
  | incompatibleFuture _ => .future

/-- The JSON of a newer version: its schema version is a larger number. -/
def IsNewer (bytes : Bytes) : Prop :=
  ∃ json number, format.value bytes = some json ∧
    json.get "schema_version" = some (.number number) ∧ (appStateSchemaVersion : ℚ) < number.toRat

/-- The file decides the load to this, by its own content. -/
inductive Decides (candidate : String) : Except String (Option Bytes) → Decision → Prop where
  | unreadable (error : String) : Decides candidate (.error error) (.readError candidate error)
  | newer (bytes : Bytes) (newer : IsNewer format bytes) :
      Decides candidate (.ok (some bytes)) .future
  | state (bytes : Bytes) (state : AppState) (older : ¬ IsNewer format bytes)
      (parsed : parseStateBytes parser draws format bytes = some state) :
      Decides candidate (.ok (some bytes)) (.loaded state)

/-- The file is absent, or readable and of invalid content. -/
def Skipped (outcome : Except String (Option Bytes)) : Prop :=
  outcome = .ok none ∨ ∃ bytes, outcome = .ok (some bytes) ∧ ¬ IsNewer format bytes ∧
    parseStateBytes parser draws format bytes = none

/-- The first candidate that is not skipped decides. -/
inductive DecidedBy (read : String → Except String (Option Bytes)) :
    List String → Decision → Prop where
  | nothing : DecidedBy read [] .nothing
  | skip {candidate : String} {candidates : List String} {decision : Decision}
      (skipped : Skipped parser draws format (read candidate))
      (rest : DecidedBy read candidates decision) :
      DecidedBy read (candidate :: candidates) decision
  | decide {candidate : String} {candidates : List String} {decision : Decision}
      (decides : Decides parser draws format candidate (read candidate) decision) :
      DecidedBy read (candidate :: candidates) decision

/-- Newer by a number that is not an integer of 32 bits. -/
def Unseen (bytes : Bytes) : Prop :=
  ∃ json number, format.value bytes = some json ∧
    json.get "schema_version" = some (.number number) ∧
    (appStateSchemaVersion : ℚ) < number.toRat ∧
    ∀ value, number = .posInt value → u32Max < value.toNat

/-- Unseen newer files apart, the first candidate that is not skipped is a newer one. -/
inductive ReachesNewer (read : String → Except String (Option Bytes)) : List String → Prop where
  | skip {candidate : String} {candidates : List String}
      (skipped : Skipped parser draws format (read candidate))
      (rest : ReachesNewer read candidates) : ReachesNewer read (candidate :: candidates)
  | pass {candidate : String} {candidates : List String} {bytes : Bytes}
      (found : read candidate = .ok (some bytes)) (unseen : Unseen format bytes)
      (rest : ReachesNewer read candidates) : ReachesNewer read (candidate :: candidates)
  | newer {candidate : String} {candidates : List String} {bytes : Bytes}
      (found : read candidate = .ok (some bytes)) (newer : IsNewer format bytes)
      (seen : ¬ Unseen format bytes) : ReachesNewer read (candidate :: candidates)

/-- The file that decides is newer by a number that is not an integer of 32 bits, and no
newer file behind it makes up for that. -/
inductive Misreads (read : String → Except String (Option Bytes)) : List String → Prop where
  | skip {candidate : String} {candidates : List String}
      (skipped : Skipped parser draws format (read candidate))
      (rest : Misreads read candidates) : Misreads read (candidate :: candidates)
  | unseen {candidate : String} {candidates : List String} {bytes : Bytes}
      (found : read candidate = .ok (some bytes)) (unseen : Unseen format bytes)
      (rest : ¬ ReachesNewer parser draws format read candidates) :
      Misreads read (candidate :: candidates)

variable {parser draws format}

/-! ## One candidate -/

theorem Unseen.isNewer {bytes : Bytes} (unseen : Unseen format bytes) : IsNewer format bytes := by
  obtain ⟨json, number, parsed, version, larger, -⟩ := unseen
  exact ⟨json, number, parsed, version, larger⟩

theorem isNewer_iff {bytes : Bytes} {json : JsonValue} {number : JsonNumber}
    (parsed : format.value bytes = some json)
    (version : json.get "schema_version" = some (.number number)) :
    IsNewer format bytes ↔ (appStateSchemaVersion : ℚ) < number.toRat := by
  constructor
  · rintro ⟨other, found, parsed', version', larger⟩
    cases parsed.symm.trans parsed'
    cases version.symm.trans version'
    exact larger
  · exact fun larger => ⟨json, number, parsed, version, larger⟩

theorem unseen_iff {bytes : Bytes} {json : JsonValue} {number : JsonNumber}
    (parsed : format.value bytes = some json)
    (version : json.get "schema_version" = some (.number number)) :
    Unseen format bytes ↔ (appStateSchemaVersion : ℚ) < number.toRat ∧
      ∀ value, number = .posInt value → u32Max < value.toNat := by
  constructor
  · rintro ⟨other, found, parsed', version', larger, wide⟩
    cases parsed.symm.trans parsed'
    cases version.symm.trans version'
    exact ⟨larger, wide⟩
  · exact fun ⟨larger, wide⟩ => ⟨json, number, parsed, version, larger, wide⟩

theorem filter_serializedSchemaVersion (bytes : Bytes) :
    ((serializedSchemaVersion format bytes).filter (appStateSchemaVersion < ·)).isSome = true ↔
      IsNewer format bytes ∧ ¬ Unseen format bytes := by
  cases parsed : format.value bytes with
  | none =>
      have older : ¬ IsNewer format bytes := by
        rintro ⟨json, number, found, -⟩
        cases parsed.symm.trans found
      simp [serializedSchemaVersion, parsed, older]
  | some json =>
      by_cases numbered : ∃ number, json.get "schema_version" = some (.number number)
      · obtain ⟨number, version⟩ := numbered
        rw [isNewer_iff parsed version, unseen_iff parsed version]
        cases number with
        | posInt value =>
            have asNat : (appStateSchemaVersion : ℚ) < (value.toNat : ℚ) ↔
                appStateSchemaVersion < value.toNat := Rat.natCast_lt_natCast
            simp only [serializedSchemaVersion, parsed, version, Option.bind_eq_bind,
              Option.bind_some, JsonNumber.asU64, JsonNumber.toRat, asNat, JsonNumber.posInt.injEq,
              forall_eq']
            by_cases fits : value.toNat ≤ u32Max
            · simp [Option.filter, fits, Nat.not_lt_of_le fits]
            · simp [Option.filter, fits, Nat.lt_of_not_le fits]
        | negInt value =>
            have wide : ∀ other, JsonNumber.negInt value = .posInt other → u32Max < other.toNat :=
              fun other same => nomatch same
            simp [serializedSchemaVersion, parsed, version, JsonNumber.asU64]
        | float value =>
            simp [serializedSchemaVersion, parsed, version, JsonNumber.asU64]
      · have older : ¬ IsNewer format bytes := by
          rintro ⟨other, number, found, version, -⟩
          cases parsed.symm.trans found
          exact numbered ⟨number, version⟩
        have unreported : serializedSchemaVersion format bytes = none := by
          simp only [serializedSchemaVersion, parsed, Option.bind_eq_bind, Option.bind_some]
          cases version : json.get "schema_version" with
          | none => rfl
          | some found =>
              cases found with
              | number number => exact absurd ⟨number, version⟩ numbered
              | _ => rfl
        simp [unreported, older]

theorem parseStateBytes_of_isNewer {bytes : Bytes} (newer : IsNewer format bytes) :
    parseStateBytes parser draws format bytes = none := by
  obtain ⟨json, number, parsed, version, larger⟩ := newer
  unfold parseStateBytes
  simp only [parsed, Option.bind_eq_bind, Option.bind_some, version]
  cases read : format.appState json with
  | none => rfl
  | some state =>
      obtain ⟨value, same, -, stateVersion⟩ := format.appState_version read version
      cases same
      have asNumber : (appStateSchemaVersion : ℚ) < (value.toNat : ℚ) := larger
      have bigger : appStateSchemaVersion < state.schemaVersion := by
        rw [stateVersion]
        exact_mod_cast asNumber
      rw [Option.bind_some, if_pos bigger]

/-! ## The loop -/

section Loop

variable {read : String → Except String (Option Bytes)} {candidate : String}
  {candidates : List String}

theorem loadCandidates_skipped (skipped : Skipped parser draws format (read candidate)) :
    loadCandidates parser draws format read (candidate :: candidates) =
      loadCandidates parser draws format read candidates := by
  rcases skipped with absent | ⟨bytes, found, older, invalid⟩
  · rw [loadCandidates, absent]
  · have unreported := mt (filter_serializedSchemaVersion bytes).mp fun both => older both.1
    rw [Option.not_isSome_iff_eq_none] at unreported
    rw [loadCandidates, found]
    dsimp only
    rw [unreported, invalid]

theorem loadCandidates_unseen {bytes : Bytes} (found : read candidate = .ok (some bytes))
    (unseen : Unseen format bytes) :
    loadCandidates parser draws format read (candidate :: candidates) =
      loadCandidates parser draws format read candidates := by
  have unreported := mt (filter_serializedSchemaVersion bytes).mp fun both => both.2 unseen
  rw [Option.not_isSome_iff_eq_none] at unreported
  rw [loadCandidates, found]
  dsimp only
  rw [unreported, parseStateBytes_of_isNewer unseen.isNewer]

theorem loadCandidates_newer {bytes : Bytes} (found : read candidate = .ok (some bytes))
    (newer : IsNewer format bytes) (seen : ¬ Unseen format bytes) :
    (loadCandidates parser draws format read (candidate :: candidates)).decision = .future := by
  obtain ⟨version, reported⟩ := Option.isSome_iff_exists.mp
    ((filter_serializedSchemaVersion bytes).mpr ⟨newer, seen⟩)
  rw [loadCandidates, found]
  dsimp only
  rw [reported]
  rfl

theorem loadCandidates_state {bytes : Bytes} {state : AppState}
    (found : read candidate = .ok (some bytes)) (older : ¬ IsNewer format bytes)
    (parsed : parseStateBytes parser draws format bytes = some state) :
    loadCandidates parser draws format read (candidate :: candidates) = .loaded state := by
  have unreported := mt (filter_serializedSchemaVersion bytes).mp fun both => older both.1
  rw [Option.not_isSome_iff_eq_none] at unreported
  rw [loadCandidates, found]
  dsimp only
  rw [unreported, parsed]

theorem candidate_cases (parser : UuidParser) (draws : List Uuid) (format : LayoutFormat)
    (outcome : Except String (Option Bytes)) :
    Skipped parser draws format outcome ∨
    (∃ error, outcome = .error error) ∨
    (∃ bytes, outcome = .ok (some bytes) ∧ Unseen format bytes) ∨
    (∃ bytes, outcome = .ok (some bytes) ∧ IsNewer format bytes ∧ ¬ Unseen format bytes) ∨
    (∃ bytes state, outcome = .ok (some bytes) ∧ ¬ IsNewer format bytes ∧
      parseStateBytes parser draws format bytes = some state) := by
  cases outcome with
  | error error => exact .inr (.inl ⟨error, rfl⟩)
  | ok found =>
      cases found with
      | none => exact .inl (.inl rfl)
      | some bytes =>
          by_cases newer : IsNewer format bytes
          · by_cases unseen : Unseen format bytes
            · exact .inr (.inr (.inl ⟨bytes, rfl, unseen⟩))
            · exact .inr (.inr (.inr (.inl ⟨bytes, rfl, newer, unseen⟩)))
          · cases parsed : parseStateBytes parser draws format bytes with
            | none => exact .inl (.inr ⟨bytes, rfl, newer, parsed⟩)
            | some state => exact .inr (.inr (.inr (.inr ⟨bytes, state, rfl, newer, parsed⟩)))

theorem Skipped.not_decides {outcome : Except String (Option Bytes)} {decision : Decision}
    (skipped : Skipped parser draws format outcome) :
    ¬ Decides parser draws format candidate outcome decision := by
  intro decides
  rcases skipped with rfl | ⟨bytes, rfl, older, invalid⟩
  · cases decides
  · cases decides with
    | newer bytes newer => exact older newer
    | state bytes state _ parsed => exact absurd (parsed.symm.trans invalid) (by simp)

theorem Decides.unique {outcome : Except String (Option Bytes)} {first second : Decision}
    (left : Decides parser draws format candidate outcome first)
    (right : Decides parser draws format candidate outcome second) : first = second := by
  cases left with
  | unreadable error => cases right; rfl
  | newer bytes newer =>
      cases right with
      | newer bytes _ => rfl
      | state bytes state older _ => exact absurd newer older
  | state bytes state older parsed =>
      cases right with
      | newer bytes newer => exact absurd newer older
      | state bytes other _ parsed' =>
          cases parsed.symm.trans parsed'
          rfl

theorem decidedBy_skipped {decision : Decision}
    (skipped : Skipped parser draws format (read candidate)) :
    DecidedBy parser draws format read (candidate :: candidates) decision ↔
      DecidedBy parser draws format read candidates decision := by
  constructor
  · intro decided
    cases decided with
    | skip _ rest => exact rest
    | decide decides => exact absurd decides skipped.not_decides
  · exact .skip skipped

theorem decidedBy_decides {expected decision : Decision}
    (decides : Decides parser draws format candidate (read candidate) expected) :
    DecidedBy parser draws format read (candidate :: candidates) decision ↔
      decision = expected := by
  constructor
  · intro decided
    cases decided with
    | skip skipped _ => exact absurd decides skipped.not_decides
    | decide other => exact other.unique decides
  · rintro rfl
    exact .decide decides

theorem Skipped.not_isNewer {bytes : Bytes} (found : read candidate = .ok (some bytes))
    (skipped : Skipped parser draws format (read candidate)) : ¬ IsNewer format bytes := by
  rcases skipped with absent | ⟨other, same, older, -⟩
  · rw [found] at absent
    cases absent
  · rw [found] at same
    cases same
    exact older

theorem decision_eq_future_iff :
    (loadCandidates parser draws format read candidates).decision = .future ↔
      ReachesNewer parser draws format read candidates := by
  induction candidates with
  | nil => exact ⟨fun impossible => (nomatch impossible), fun impossible => nomatch impossible⟩
  | cons candidate candidates induction =>
      rcases candidate_cases parser draws format (read candidate) with skipped |
        ⟨error, found⟩ | ⟨bytes, found, unseen⟩ | ⟨bytes, found, newer, seen⟩ |
        ⟨bytes, state, found, older, parsed⟩
      · rw [loadCandidates_skipped skipped, induction]
        refine ⟨.skip skipped, ?_⟩
        intro reaches
        cases reaches with
        | skip _ rest => exact rest
        | pass found unseen _ => exact absurd unseen.isNewer (skipped.not_isNewer found)
        | newer found newer _ => exact absurd newer (skipped.not_isNewer found)
      · have failed : loadCandidates parser draws format read (candidate :: candidates) =
            .readError candidate error := by rw [loadCandidates, found]
        have decides : Decides parser draws format candidate (read candidate)
          (.readError candidate error) := found ▸ .unreadable error
        rw [failed]
        refine ⟨fun impossible => (nomatch impossible), ?_⟩
        intro reaches
        cases reaches with
        | skip skipped _ => exact absurd decides skipped.not_decides
        | pass other _ _ => cases found.symm.trans other
        | newer other _ _ => cases found.symm.trans other
      · rw [loadCandidates_unseen found unseen, induction]
        refine ⟨.pass found unseen, ?_⟩
        intro reaches
        cases reaches with
        | skip _ rest | pass _ _ rest => exact rest
        | newer other _ seen =>
            cases found.symm.trans other
            exact absurd unseen seen
      · exact ⟨fun _ => .newer found newer seen, fun _ => loadCandidates_newer found newer seen⟩
      · have decides : Decides parser draws format candidate (read candidate) (.loaded state) :=
          found ▸ .state bytes state older parsed
        rw [loadCandidates_state found older parsed]
        refine ⟨fun impossible => (nomatch impossible), ?_⟩
        intro reaches
        cases reaches with
        | skip skipped _ => exact absurd decides skipped.not_decides
        | pass other unseen _ =>
            cases found.symm.trans other
            exact absurd unseen.isNewer older
        | newer other newer _ =>
            cases found.symm.trans other
            exact absurd newer older

theorem misreads_decides {expected : Decision}
    (decides : Decides parser draws format candidate (read candidate) expected)
    (seen : ∀ bytes, read candidate = .ok (some bytes) → ¬ Unseen format bytes) :
    ¬ Misreads parser draws format read (candidate :: candidates) := by
  intro misreads
  cases misreads with
  | skip skipped _ => exact skipped.not_decides decides
  | unseen found unseen _ => exact seen _ found unseen

/-- The load comes to what the first candidate says that is not skipped, except behind a
newer file whose number is not seen. -/
theorem decidedBy_loadCandidates_iff :
    DecidedBy parser draws format read candidates
        (loadCandidates parser draws format read candidates).decision ↔
      ¬ Misreads parser draws format read candidates := by
  induction candidates with
  | nil => exact ⟨fun _ impossible => (nomatch impossible), fun _ => .nothing⟩
  | cons candidate candidates induction =>
      rcases candidate_cases parser draws format (read candidate) with skipped |
        ⟨error, found⟩ | ⟨bytes, found, unseen⟩ | ⟨bytes, found, newer, seen⟩ |
        ⟨bytes, state, found, older, parsed⟩
      · rw [loadCandidates_skipped skipped, decidedBy_skipped skipped, induction, not_iff_not]
        refine ⟨.skip skipped, ?_⟩
        intro misreads
        cases misreads with
        | skip _ rest => exact rest
        | unseen found unseen _ => exact absurd unseen.isNewer (skipped.not_isNewer found)
      · have decides : Decides parser draws format candidate (read candidate)
          (.readError candidate error) := found ▸ .unreadable error
        have failed : loadCandidates parser draws format read (candidate :: candidates) =
            .readError candidate error := by rw [loadCandidates, found]
        rw [decidedBy_decides decides, failed]
        refine ⟨fun _ => misreads_decides decides ?_, fun _ => rfl⟩
        intro bytes other
        cases found.symm.trans other
      · have decides : Decides parser draws format candidate (read candidate) .future :=
          found ▸ .newer bytes unseen.isNewer
        rw [decidedBy_decides decides, loadCandidates_unseen found unseen, decision_eq_future_iff]
        constructor
        · intro reaches misreads
          cases misreads with
          | skip skipped _ => exact skipped.not_decides decides
          | unseen _ _ rest => exact rest reaches
        · intro reads
          by_contra unreached
          exact reads (.unseen found unseen unreached)
      · have decides : Decides parser draws format candidate (read candidate) .future :=
          found ▸ .newer bytes newer
        rw [decidedBy_decides decides]
        refine ⟨fun _ => misreads_decides decides ?_,
          fun _ => loadCandidates_newer found newer seen⟩
        intro other same
        cases found.symm.trans same
        exact seen
      · have decides : Decides parser draws format candidate (read candidate) (.loaded state) :=
          found ▸ .state bytes state older parsed
        rw [decidedBy_decides decides, loadCandidates_state found older parsed]
        refine ⟨fun _ => misreads_decides decides ?_, fun _ => rfl⟩
        intro other same unseen
        cases found.symm.trans same
        exact older unseen.isNewer

end Loop

end Loading

/-- A load is decided by the first file that is neither absent nor invalid, exactly when
that file is not newer by a number the program does not see. -/
theorem load_decided_iff (parser : UuidParser) (draws : List Uuid) (format : LayoutFormat)
    (path : String) (limit : Nat) (files : String → Entry) :
    DecidedBy parser draws format (fun candidate => readStateBytes limit (files candidate))
        (candidatePaths path)
        (loadStateResultFromPathWithLimit parser draws format path limit files).decision ↔
      ¬ Misreads parser draws format (fun candidate => readStateBytes limit (files candidate))
        (candidatePaths path) :=
  decidedBy_loadCandidates_iff

/-! A main file of a much newer version is passed over for an older backup. -/

def newerText : String := "\x7b\"schema_version\":4294967296\x7d"

def olderText : String :=
  "\x7b\"schema_version\":3,\"workspaces\":[],\"active_ws\":0,\"sidebar_visible\":true\x7d"

def sampleFormat : LayoutFormat where
  value bytes :=
    if bytes = utf8Bytes newerText then
      some (.object [("schema_version", .number (.posInt 4294967296))])
    else if bytes = utf8Bytes olderText then
      some (.object [("schema_version", .number (.posInt 3)), ("workspaces", .array []),
        ("active_ws", .number (.posInt 0)), ("sidebar_visible", .bool true)])
    else
      none
  appState json :=
    match json.get "schema_version" with
    | some (.number (.posInt version)) =>
        if version.toNat ≤ u32Max then some ⟨version.toNat, [], 0⟩ else none
    | _ => none
  legacyAppState _ := none
  appState_version := by
    intro json state version read found
    rw [found] at read
    split at read
    · next value same =>
        cases same
        split at read
        · next fits =>
            cases read
            exact ⟨value, rfl, fits, rfl⟩
        · cases read
    · cases read

def newerWithBackup (path : String) : Entry :=
  if path = "layout.json" then .file (utf8Bytes newerText)
  else if path = "layout.json.bak.0" then .file (utf8Bytes olderText)
  else .absent

theorem newer_layout_passed_over :
    (loadStateResultFromPathWithLimit .hex [.fromU128 1] sampleFormat "layout.json" 1024
        newerWithBackup).decision = .loaded ⟨3, [⟨(Uuid.fromU128 1).display, "Default", []⟩], 0⟩ ∧
      IsNewer sampleFormat (utf8Bytes newerText) := by
  constructor
  · decide +kernel
  · refine ⟨_, .posInt 4294967296, rfl, rfl, ?_⟩
    decide +kernel

end TerminalCanvas.Layout
