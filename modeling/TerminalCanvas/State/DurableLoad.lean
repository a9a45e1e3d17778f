import TerminalCanvas.State.DurableInvariant

/-! # Loading what a durable write leaves

Wherever the writer stops, the main file is a layout that was saved; and when the main
file is lost, the newest complete backup is loaded. -/

namespace TerminalCanvas.Layout

def lineFeed : UInt8 := 10

def closingBrace : UInt8 := 125

/-- What the JSON parser makes of a line feed at the end, and of an object that is not
closed. -/
structure JsonLaws (format : LayoutFormat) : Prop where
  lineFeed : ∀ text, format.value (text ++ [lineFeed]) = format.value text
  unclosed : ∀ text members, format.value (text ++ [closingBrace]) = some (.object members) →
    ∀ front, front <+: text → format.value front = none

section Loads

variable (parser : UuidParser) (draws : List Uuid) (format : LayoutFormat) (limit : Nat)

/-- What `serialize_state_with_limit` makes of a layout: an object and a line feed, in the
limit, that is read back. -/
structure Saved (bytes : Bytes) : Prop where
  object : ∃ text members, bytes = text ++ [closingBrace] ++ [lineFeed] ∧
    format.value (text ++ [closingBrace]) = some (.object members)
  fits : bytes.length ≤ limit
  parses : (parseStateBytes parser draws format bytes).isSome = true

/-- The backup holds the content of an earlier main file, but for the final line feed. -/
def Complete (path : String) (writer : Writer) (slot : Nat) (content : Bytes) : Prop :=
  slot < backupSlots ∧ writer.mains[writer.origins slot]? = some content ∧
    ∃ bytes, writer.disk.entries (backupPath path slot) = .file bytes ∧
      (bytes = content ∨ bytes ++ [lineFeed] = content)

/-- What the user finds, wherever the writer was stopped. -/
structure CrashSafe (path : String) (initial : Option Bytes) (writer : Writer) : Prop where
  whole : writer.disk.entries path ∈ standing (initial.elim .absent .file) writer.ended ∨
    ∃ call phase, writer.running = some (call, phase) ∧
      writer.disk.entries path = .file call.bytes
  loads : ∀ bytes, writer.disk.entries path = .file bytes →
    ∃ state, parseStateBytes parser draws format bytes = some state ∧
      loadStateResultFromPathWithLimit parser draws format path limit writer.disk.entries =
        .loaded state
  untouched : ∀ event, (stepWriter path writer event).disk.entries path =
      writer.disk.entries path ∨
    ∃ call, writer.running = some (call, .rename) ∧
      (stepWriter path writer event).disk.entries path = .file call.bytes
  recovers : ∀ junk, Skipped parser draws format (readStateBytes limit (.file junk)) →
    (∃ slot content, Complete path writer slot content) →
    ∃ slot content state, Complete path writer slot content ∧
      (∀ other otherContent, Complete path writer other otherContent →
        writer.origins other ≤ writer.origins slot) ∧
      parseStateBytes parser draws format content = some state ∧
      loadStateResultFromPathWithLimit parser draws format path limit
        (Function.update writer.disk.entries path (.file junk)) = .loaded state

variable {parser draws format limit}

theorem parseStateBytes_congr {left right : Bytes} (same : format.value left = format.value right) :
    parseStateBytes parser draws format left = parseStateBytes parser draws format right := by
  rw [parseStateBytes, parseStateBytes, same]

theorem Saved.read {bytes : Bytes} (saved : Saved parser draws format limit bytes) :
    readStateBytes limit (.file bytes) = .ok (some bytes) :=
  if_neg (Nat.not_lt_of_le saved.fits)

theorem skipped_of_value {bytes : Bytes} (fits : bytes.length ≤ limit)
    (invalid : format.value bytes = none) :
    Skipped parser draws format (readStateBytes limit (.file bytes)) := by
  refine .inr ⟨bytes, if_neg (Nat.not_lt_of_le fits), ?_, ?_⟩
  · rintro ⟨json, number, found, -⟩
    cases invalid.symm.trans found
  · simp [parseStateBytes, invalid]

theorem Saved.front (laws : JsonLaws format) {bytes content : Bytes}
    (saved : Saved parser draws format limit content) (part : bytes <+: content) :
    ((bytes = content ∨ bytes ++ [lineFeed] = content) ∧ bytes.length ≤ limit ∧
      parseStateBytes parser draws format bytes = parseStateBytes parser draws format content) ∨
    ¬ (bytes = content ∨ bytes ++ [lineFeed] = content) ∧
      Skipped parser draws format (readStateBytes limit (.file bytes)) := by
  obtain ⟨text, members, rfl, parsed⟩ := saved.object
  have fits := Nat.le_trans part.length_le saved.fits
  rcases List.prefix_concat_iff.mp part with rfl | shorter
  · exact .inl ⟨.inl rfl, fits, rfl⟩
  rcases List.prefix_concat_iff.mp shorter with rfl | unclosed
  · exact .inl ⟨.inr rfl, fits, parseStateBytes_congr (laws.lineFeed _).symm⟩
  · right
    constructor
    · have length := unclosed.length_le
      rintro (rfl | same)
      · simp only [List.length_append, List.length_singleton] at length
        omega
      · have lengths := congrArg List.length same
        rw [List.length_append, List.length_append, List.length_append] at lengths
        simp only [List.length_singleton] at lengths
        omega
    · exact skipped_of_value fits (laws.unclosed text members parsed bytes unclosed)

theorem loadCandidates_saved {read : String → Except String (Option Bytes)} {candidate : String}
    {candidates : List String} {bytes : Bytes} {state : AppState}
    (found : read candidate = .ok (some bytes))
    (parsed : parseStateBytes parser draws format bytes = some state) :
    loadCandidates parser draws format read (candidate :: candidates) = .loaded state := by
  apply loadCandidates_state found _ parsed
  intro newer
  cases (parseStateBytes_of_isNewer newer).symm.trans parsed

theorem loadCandidates_ring (laws : JsonLaws format) {path : String} {writer : Writer}
    (intact : Intact path writer.disk writer.mains writer.origins)
    (saved : ∀ content ∈ writer.mains, Saved parser draws format limit content)
    {files : String → Entry} {slots : List Nat} (sorted : slots.Pairwise (· < ·))
    (bound : ∀ slot ∈ slots, slot < backupSlots)
    (same : ∀ slot ∈ slots, files (backupPath path slot) =
      writer.disk.entries (backupPath path slot))
    (some : ∃ slot ∈ slots, ∃ content, Complete path writer slot content) :
    ∃ slot ∈ slots, ∃ content state, Complete path writer slot content ∧
      (∀ other ∈ slots, ∀ otherContent, Complete path writer other otherContent →
        writer.origins other ≤ writer.origins slot) ∧
      parseStateBytes parser draws format content = .some state ∧
      loadCandidates parser draws format (fun candidate => readStateBytes limit (files candidate))
        (slots.map (backupPath path)) = .loaded state := by
  induction slots with
  | nil =>
      obtain ⟨slot, member, -⟩ := some
      cases member
  | cons slot slots induction =>
      obtain ⟨newer, sortedRest⟩ := List.pairwise_cons.mp sorted
      have here := bound slot (List.mem_cons_self ..)
      have file := same slot (List.mem_cons_self ..)
      have later : ¬ (∃ content, Complete path writer slot content) →
          Skipped parser draws format (readStateBytes limit (files (backupPath path slot))) →
          ∃ slot' ∈ slot :: slots, ∃ content state, Complete path writer slot' content ∧
            (∀ other ∈ slot :: slots, ∀ otherContent, Complete path writer other otherContent →
              writer.origins other ≤ writer.origins slot') ∧
            parseStateBytes parser draws format content = .some state ∧
            loadCandidates parser draws format
              (fun candidate => readStateBytes limit (files candidate))
              ((slot :: slots).map (backupPath path)) = .loaded state := by
        intro incomplete skipped
        obtain ⟨found, member, content, complete⟩ := some
        have behind : found ∈ slots := by
          rcases List.mem_cons.mp member with rfl | behind
          · exact absurd ⟨content, complete⟩ incomplete
          · exact behind
        obtain ⟨first, firstIn, firstContent, state, firstComplete, newest, parsed, loads⟩ :=
          induction sortedRest (fun slot member => bound slot (List.mem_cons_of_mem _ member))
            (fun slot member => same slot (List.mem_cons_of_mem _ member))
            ⟨found, behind, content, complete⟩
        refine ⟨first, List.mem_cons_of_mem _ firstIn, firstContent, state, firstComplete, ?_,
          parsed, ?_⟩
        · intro other otherIn otherContent otherComplete
          rcases List.mem_cons.mp otherIn with rfl | otherIn
          · exact absurd ⟨otherContent, otherComplete⟩ incomplete
          · exact newest other otherIn otherContent otherComplete
        · rw [List.map_cons, loadCandidates_skipped skipped]
          exact loads
      rcases intact.slots slot here with absent | ⟨bytes, content, held, origin, part⟩
      · apply later
        · rintro ⟨content, -, -, bytes, held, -⟩
          cases absent.symm.trans held
        · rw [file, absent]
          exact .inl rfl
      · have contentSaved := saved content (List.mem_of_getElem? origin)
        rcases contentSaved.front laws part with ⟨whole, fits, parses⟩ | ⟨torn, skipped⟩
        · obtain ⟨state, parsed⟩ := Option.isSome_iff_exists.mp contentSaved.parses
          have complete : Complete path writer slot content := ⟨here, origin, bytes, held, whole⟩
          refine ⟨slot, List.mem_cons_self .., content, state, complete, ?_, parsed, ?_⟩
          · intro other otherIn otherContent otherComplete
            rcases List.mem_cons.mp otherIn with rfl | otherIn
            · exact Nat.le_refl _
            · obtain ⟨otherBound, -, otherBytes, otherHeld, -⟩ := otherComplete
              exact intact.order slot other (newer other otherIn) otherBound
                (by rw [held]; exact nofun) (by rw [otherHeld]; exact nofun)
          · have found : readStateBytes limit (files (backupPath path slot)) =
                .ok (.some bytes) := by
              rw [file, held]
              exact if_neg (Nat.not_lt_of_le fits)
            exact loadCandidates_saved found (parses.trans parsed)
        · apply later
          · rintro ⟨other, -, otherOrigin, otherBytes, otherHeld, whole⟩
            cases origin.symm.trans otherOrigin
            cases held.symm.trans otherHeld
            exact torn whole
          · rw [file, held]
            exact skipped

/-! ## Every run -/

section Runs

variable {path : String} {initial : Entry} {writer : Writer} {call : Call} {outcome : Outcome}

theorem advance_main {phase : Phase} (underway : Underway path initial writer call phase) :
    (advance path writer call outcome phase).disk.entries path = writer.disk.entries path ∨
      phase = .rename ∧
        (advance path writer call outcome phase).disk.entries path = .file call.bytes := by
  have backup : ∀ bytes, (writer.disk.write (newest path) bytes).entries path =
      writer.disk.entries path :=
    fun bytes => Function.update_of_ne (backupPath_ne_path (by decide)).symm _ _
  cases phase with
  | rename =>
      obtain ⟨stands, file, synced⟩ := underway
      rw [advance]
      split
      · exact .inr ⟨rfl, ((Function.update_of_ne (tempPath_ne_path call.temp).symm _ _).trans
          (Function.update_self ..)).trans file⟩
      · exact .inl rfl
  | shift slot =>
      left
      obtain ⟨stands, file, positive, bound⟩ := underway
      have sourceBound : slot - 1 < backupSlots := by omega
      rw [advance, shiftSlot]
      split
      · exact (Function.update_of_ne (backupPath_ne_path sourceBound).symm _ _).trans
          (Function.update_of_ne (backupPath_ne_path bound).symm _ _)
      · rfl
  | openCopy =>
      left
      rw [advance]
      split
      · exact backup []
      · rfl
  | copy copied =>
      left
      rw [advance]
      split
      · split
        · exact backup _
        · rfl
      · rfl
  | create | write | sync | cleanUp =>
      left
      rw [advance]
      split
      · exact entries_set_temp ..
      · rfl
  | syncDirectory => exact .inl rfl
  | validate | compare | validateRing | present | age | directory =>
      left
      rw [advance]
      split <;> rfl

theorem stepWriter_main (sound : Sound path initial writer) (event : Event) :
    (stepWriter path writer event).disk.entries path = writer.disk.entries path ∨
      ∃ call, writer.running = some (call, .rename) ∧
        (stepWriter path writer event).disk.entries path = .file call.bytes := by
  cases event with
  | call call =>
      left
      rw [stepWriter]
      split <;> rfl
  | proceed outcome =>
      rw [stepWriter]
      split
      · exact .inl rfl
      · next call phase running =>
          apply (advance_main (sound.underway call phase running)).imp_right
          rintro ⟨rfl, file⟩
          exact ⟨call, running, file⟩
  | stop kept =>
      left
      rw [stepWriter]
      dsimp only
      split <;> exact lose_main sound.intact kept

theorem advance_sources {phase : Phase} :
    ((advance path writer call outcome phase).mains = writer.mains ∨
      (advance path writer call outcome phase).mains = writer.mains ++ [call.bytes]) ∧
    ∀ other later, (advance path writer call outcome phase).running = some (other, later) →
      other = call := by
  cases phase with
  | rename =>
      rw [advance]
      split
      · exact ⟨.inr rfl, fun other later same => by cases same; rfl⟩
      · exact ⟨.inl rfl, fun other later same => by cases same; rfl⟩
  | shift slot =>
      rw [advance, shiftSlot]
      split <;> exact ⟨.inl rfl, fun other later same => by cases same; rfl⟩
  | syncDirectory => exact ⟨.inl rfl, fun other later same => by cases same⟩
  | copy copied =>
      rw [advance]
      split
      · split <;> exact ⟨.inl rfl, fun other later same => by cases same; rfl⟩
      · exact ⟨.inl rfl, fun other later same => by cases same; rfl⟩
  | _ =>
      rw [advance]
      split <;> exact ⟨.inl rfl, fun other later same => by cases same <;> rfl⟩

structure Sourced (Allowed : Bytes → Prop) (writer : Writer) : Prop where
  mains : ∀ content ∈ writer.mains, Allowed content
  running : ∀ call phase, writer.running = some (call, phase) → Allowed call.bytes

theorem stepWriter_sourced {Allowed : Bytes → Prop} {event : Event}
    (called : ∀ call, event = .call call → Allowed call.bytes)
    (sourced : Sourced Allowed writer) : Sourced Allowed (stepWriter path writer event) := by
  cases event with
  | call call =>
      rw [stepWriter]
      split
      · refine ⟨sourced.mains, ?_⟩
        intro other phase same
        cases same
        exact called call rfl
      · exact sourced
  | proceed outcome =>
      rw [stepWriter]
      split
      · exact sourced
      · next call phase running =>
          have allowed := sourced.running call phase running
          obtain ⟨mains, same⟩ := @advance_sources path writer call outcome phase
          constructor
          · intro content member
            rcases mains with kept | added
            · exact sourced.mains content (kept ▸ member)
            · rw [added, List.mem_append, List.mem_singleton] at member
              rcases member with earlier | rfl
              · exact sourced.mains content earlier
              · exact allowed
          · intro other later running
            rw [same other later running]
            exact allowed
  | stop kept =>
      rw [stepWriter]
      dsimp only
      split
      · exact ⟨sourced.mains, sourced.running⟩
      · exact ⟨sourced.mains, fun call phase running => by cases running⟩

theorem sourced_run {Allowed : Bytes → Prop} {initial : Option Bytes} {events : List Event}
    (first : ∀ bytes ∈ initial, Allowed bytes)
    (called : ∀ call, Event.call call ∈ events → Allowed call.bytes) :
    Sourced Allowed ((writes path).run (startWriter path initial) events) := by
  apply (writes path).run_invariant_of_trace (Sourced Allowed)
    fun _ event => ∀ call, event = .call call → Allowed call.bytes
  · exact fun writer event allowed sourced => stepWriter_sourced allowed sourced
  · exact ⟨fun content member => first content (Option.mem_toList.mp member), nofun⟩
  · intro writer event member call same
    obtain ⟨before, after, split, -⟩ := (writes path).mem_trace_iff.mp member
    apply called call
    rw [split, same]
    exact List.mem_append_right _ (List.mem_cons_self ..)

end Runs

end Loads

/-- Wherever a run of writes stops, the main file is whole and what is loaded; no step
damages it; and when it is lost, the newest complete backup is loaded. -/
theorem writes_crash_safe (parser : UuidParser) (draws : List Uuid) (format : LayoutFormat)
    (laws : JsonLaws format) (limit : Nat) (path : String) (initial : Option Bytes)
    (events : List Event)
    (initialSaved : ∀ bytes ∈ initial, Saved parser draws format limit bytes)
    (saved : ∀ call, Event.call call ∈ events → Saved parser draws format limit call.bytes) :
    CrashSafe parser draws format limit path initial
      ((writes path).run (startWriter path initial) events) := by
  have sound := @sound_run path initial events
  have sourced := @sourced_run path _ initial events initialSaved saved
  generalize (writes path).run (startWriter path initial) events = writer at *
  refine ⟨?_, ?_, fun event => stepWriter_main sound event, ?_⟩
  · cases running : writer.running with
    | none => exact .inl (sound.idle running)
    | some pair =>
        obtain ⟨call, phase⟩ := pair
        have underway := sound.underway call phase running
        by_cases replaced : phase = .syncDirectory
        · subst replaced
          exact .inr ⟨call, _, rfl, underway⟩
        · exact .inl (underway.stands replaced)
  · intro bytes file
    have last := (sound.intact.main_file file).1
    have saved := sourced.mains bytes (List.mem_of_getLast? last)
    obtain ⟨state, parsed⟩ := Option.isSome_iff_exists.mp saved.parses
    refine ⟨state, parsed, ?_⟩
    have found : readStateBytes limit (writer.disk.entries path) = .ok (some bytes) := by
      rw [file]
      exact saved.read
    exact @loadCandidates_saved parser draws format
      (fun candidate => readStateBytes limit (writer.disk.entries candidate)) path _ bytes state
      found parsed
  · intro junk invalid ⟨slot, content, complete⟩
    have ring : ∀ slot ∈ List.range backupSlots,
        Function.update writer.disk.entries path (.file junk) (backupPath path slot) =
          writer.disk.entries (backupPath path slot) :=
      fun slot member => Function.update_of_ne (backupPath_ne_path (List.mem_range.mp member)) _ _
    obtain ⟨first, -, firstContent, state, firstComplete, newest, parsed, loads⟩ :=
      loadCandidates_ring laws sound.intact sourced.mains List.pairwise_lt_range
        (fun slot member => List.mem_range.mp member) ring
        ⟨slot, List.mem_range.mpr complete.1, content, complete⟩
    refine ⟨first, firstContent, state, firstComplete, ?_, parsed, ?_⟩
    · intro other otherContent otherComplete
      exact newest other (List.mem_range.mpr otherComplete.1) otherContent otherComplete
    · have skipped : Skipped parser draws format (readStateBytes limit
          (Function.update writer.disk.entries path (.file junk) path)) := by
        rw [Function.update_self]
        exact invalid
      rw [loadStateResultFromPathWithLimit, loadStateResultWithReader, candidatePaths,
        loadCandidates_skipped skipped]
      exact loads

/-! ## A copy that lacks its final line feed -/

/-- The backups that hold the content of an earlier main file to the last byte. -/
def wholeBackups (path : String) (writer : Writer) : List (Nat × Bytes) :=
  (List.range backupSlots).filterMap fun slot =>
    match writer.mains[writer.origins slot]?, writer.disk.entries (backupPath path slot) with
    | some content, .file bytes => if bytes = content then some (slot, content) else none
    | _, _ => none

def withoutLineFeeds (bytes : Bytes) : Bytes :=
  (bytes.reverse.dropWhile (· = lineFeed)).reverse

def readWorkspace (json : JsonValue) : Option WorkspaceState :=
  match json.get "id", json.get "name" with
  | some (.string id), some (.string name) => some ⟨id, name, []⟩
  | _, _ => none

/-- Reads these documents, with line feeds behind them, and workspaces without panels. -/
def documentFormat (documents : List (Bytes × JsonValue)) : LayoutFormat where
  value bytes := (documents.find? fun document =>
    document.1 = withoutLineFeeds bytes).map (·.2)
  appState json :=
    match json.get "schema_version", json.get "workspaces" with
    | some (.number (.posInt version)), some (.array workspaces) =>
        if version.toNat ≤ u32Max then
          (workspaces.mapM readWorkspace).map fun workspaces => ⟨version.toNat, workspaces, 0⟩
        else
          none
    | _, _ => none
  legacyAppState _ := none
  appState_version := by
    intro json state version read found
    rw [found] at read
    split at read
    · next value _ same _ =>
        cases same
        split at read
        · next fits =>
            obtain ⟨workspaces, -, rfl⟩ := Option.map_eq_some_iff.mp read
            exact ⟨value, rfl, fits, rfl⟩
        · cases read
    · cases read

section Documents

variable {text bytes : Bytes} {json : JsonValue} {rest : List (Bytes × JsonValue)}

theorem documentFormat_head (same : text = withoutLineFeeds bytes) :
    (documentFormat ((text, json) :: rest)).value bytes = some json := by
  simp [documentFormat, same]

theorem documentFormat_tail (other : text ≠ withoutLineFeeds bytes) :
    (documentFormat ((text, json) :: rest)).value bytes = (documentFormat rest).value bytes := by
  simp [documentFormat, other]

end Documents

theorem prefix_withoutLineFeeds (bytes : Bytes) : withoutLineFeeds bytes <+: bytes := by
  have suffix := List.reverse_prefix.mpr (List.dropWhile_suffix (· = lineFeed) (l := bytes.reverse))
  rwa [List.reverse_reverse] at suffix

theorem documentFormat_laws {documents : List (Bytes × JsonValue)}
    (apart : ∀ left ∈ documents, ∀ right ∈ documents, left.1 <+: right.1 → left.1 = right.1) :
    JsonLaws (documentFormat documents) where
  lineFeed text := by
    have same : withoutLineFeeds (text ++ [lineFeed]) = withoutLineFeeds text := by
      simp [withoutLineFeeds]
    rw [documentFormat]
    dsimp only
    rw [same]
  unclosed := by
    intro text members closed front part
    obtain ⟨document, found, -⟩ := Option.map_eq_some_iff.mp closed
    have closes : withoutLineFeeds (text ++ [closingBrace]) = text ++ [closingBrace] := by
      simp [withoutLineFeeds, closingBrace, lineFeed]
    have is : document.1 = text ++ [closingBrace] := by
      have is := List.find?_some found
      rw [closes] at is
      exact of_decide_eq_true is
    apply Option.map_eq_none_iff.mpr
    apply List.find?_eq_none.mpr
    intro other member same
    have otherIs : other.1 = withoutLineFeeds front := of_decide_eq_true same
    have inside : other.1 <+: document.1 := by
      rw [otherIs, is]
      exact ((prefix_withoutLineFeeds front).trans part).trans (List.prefix_append _ _)
    have equal := apart other member document (List.mem_of_find?_eq_some found) inside
    have short := (prefix_withoutLineFeeds front).length_le
    have shorter := part.length_le
    have lengths := congrArg List.length (otherIs.symm.trans (equal.trans is))
    rw [List.length_append, List.length_singleton] at lengths
    omega

def defaultText : String :=
  "\x7b\"schema_version\":3,\"workspaces\":[],\"active_ws\":0,\"sidebar_visible\":true\x7d"

def workText : String :=
  "\x7b\"schema_version\":3,\"workspaces\":[\x7b\"id\":\"00000000-0000-0000-0000-000000000005\",\"name\":\"Work\",\"cwd\":null,\"panels\":[]\x7d],\"active_ws\":0,\"sidebar_visible\":true\x7d"

def defaultMembers : List (String × JsonValue) :=
  [("schema_version", .number (.posInt 3)), ("workspaces", .array []),
    ("active_ws", .number (.posInt 0)), ("sidebar_visible", .bool true)]

def workMembers : List (String × JsonValue) :=
  [("schema_version", .number (.posInt 3)),
    ("workspaces", .array [.object [
      ("id", .string "00000000-0000-0000-0000-000000000005"), ("name", .string "Work"),
      ("cwd", .null), ("panels", .array [])]]),
    ("active_ws", .number (.posInt 0)), ("sidebar_visible", .bool true)]

def documents : List (Bytes × JsonValue) :=
  [(utf8Bytes defaultText, .object defaultMembers), (utf8Bytes workText, .object workMembers)]

def defaultCall : Call := ⟨utf8Bytes defaultText ++ [lineFeed], .fromU128 11⟩

def workCall : Call := ⟨utf8Bytes workText ++ [lineFeed], .fromU128 12⟩

/-- A call and some of its operations, all of which succeed. -/
def callSteps (call : Call) (operations : Nat) : List Event :=
  .call call :: List.replicate operations (.proceed ⟨true, 1000⟩)

def cutCopy : List Event :=
  callSteps defaultCall 10 ++ callSteps workCall 17 ++ callSteps defaultCall 10 ++
    [.proceed ⟨true, (utf8Bytes workText).length⟩, .stop fun _ => 1000]

theorem defaultCall_saved :
    Saved .hex [.fromU128 1] (documentFormat documents) 1024 defaultCall.bytes where
  object := by
    refine ⟨(utf8Bytes defaultText).dropLast, defaultMembers, by decide +kernel, ?_⟩
    exact documentFormat_head (by decide +kernel)
  fits := by decide +kernel
  parses := by decide +kernel

theorem workCall_saved :
    Saved .hex [.fromU128 1] (documentFormat documents) 1024 workCall.bytes where
  object := by
    refine ⟨(utf8Bytes workText).dropLast, workMembers, by decide +kernel, ?_⟩
    rw [documents, documentFormat_tail (by decide +kernel)]
    exact documentFormat_head (by decide +kernel)
  fits := by decide +kernel
  parses := by decide +kernel

theorem documents_apart : ∀ left ∈ documents, ∀ right ∈ documents,
    left.1 <+: right.1 → left.1 = right.1 := by
  have first : ¬ utf8Bytes defaultText <+: utf8Bytes workText := by decide +kernel
  have second : ¬ utf8Bytes workText <+: utf8Bytes defaultText := by decide +kernel
  intro left leftIn right rightIn inside
  rcases List.mem_pair.mp leftIn with rfl | rfl <;> rcases List.mem_pair.mp rightIn with rfl | rfl
  · rfl
  · dsimp only at inside
    exact absurd inside first
  · dsimp only at inside
    exact absurd inside second
  · rfl

theorem cutCopy_crash_safe :
    CrashSafe .hex [.fromU128 1] (documentFormat documents) 1024 "layout.json" none
      ((writes "layout.json").run (startWriter "layout.json" none) cutCopy) := by
  apply writes_crash_safe .hex [.fromU128 1] (documentFormat documents)
    (documentFormat_laws documents_apart) 1024 "layout.json" none cutCopy
  · exact fun bytes none => nomatch none
  · intro call member
    have one : call = defaultCall ∨ call = workCall := by
      simpa [cutCopy, callSteps, or_comm, or_assoc] using member
    rcases one with rfl | rfl
    · exact defaultCall_saved
    · exact workCall_saved

/-- The newest backup that is whole holds another layout than the one that is loaded. -/
theorem cut_copy_is_loaded :
    wholeBackups "layout.json"
        ((writes "layout.json").run (startWriter "layout.json" none) cutCopy) =
      [(1, defaultCall.bytes)] ∧
    parseStateBytes .hex [.fromU128 1] (documentFormat documents) defaultCall.bytes =
      some ⟨3, [⟨(Uuid.fromU128 1).display, "Default", []⟩], 0⟩ ∧
    loadStateResultFromPathWithLimit .hex [.fromU128 1] (documentFormat documents) "layout.json"
        1024 (Function.update ((writes "layout.json").run (startWriter "layout.json" none)
          cutCopy).disk.entries "layout.json" (.file [])) =
      .loaded ⟨3, [⟨(Uuid.fromU128 5).display, "Work", []⟩], 0⟩ := by
  refine ⟨by decide +kernel, by decide +kernel, by decide +kernel⟩

end TerminalCanvas.Layout
