import TerminalCanvas.Foundation.Primitives
import TerminalCanvas.Foundation.SortedMap

/-! # The saved layout

What a saved layout identifies: workspaces, panels and the sessions of their leaves. The
identities are repaired before anything is built from them. -/

namespace TerminalCanvas.Layout

def appStateSchemaVersion : Nat := 3

structure PanelState where
  id : String
  runtimeSessionId : Option String
  leafRuntimeSessionIds : SortedMap String String
deriving DecidableEq

structure WorkspaceState where
  id : String
  name : String
  panels : List PanelState
deriving DecidableEq

structure AppState where
  schemaVersion : Nat
  workspaces : List WorkspaceState
  activeWs : Nat
deriving DecidableEq

/-- `Uuid::parse_str`. An identifier has several texts, one of them the one it is written
as. -/
structure UuidParser where
  parse : String → Option Uuid
  parse_display : ∀ id : Uuid, parse id.display = some id

/-- The sets of identifiers already taken, and the identifiers still to be drawn. -/
structure Taken where
  workspaceIds : List Uuid
  panelIds : List Uuid
  runtimeIds : List Uuid
  draws : List Uuid
deriving DecidableEq, Repr

/-- `fresh_uuid`: the first draw that is not taken, and the draws behind it. `none` while
every draw is taken. -/
def freshUuid (used : List Uuid) : List Uuid → Option (Uuid × List Uuid)
  | [] => none
  | id :: draws => if id ∈ used then freshUuid used draws else some (id, draws)

section Normalization

variable (parser : UuidParser)

def parseNonNilUuid (value : String) : Option Uuid :=
  (parser.parse value).filter (· ≠ .nil)

/-- An identity of a workspace or panel as it comes out of the repair. -/
structure Identity where
  text : String
  reset : Bool
  used : List Uuid
  draws : List Uuid

def renewIdentity (used draws : List Uuid) : Option Identity :=
  (freshUuid used draws).map fun fresh => ⟨fresh.1.display, true, fresh.1 :: used, fresh.2⟩

/-- The identity stays when it is valid and not taken; otherwise a new one is drawn. -/
def takeIdentity (used draws : List Uuid) (text : String) : Option Identity :=
  match parseNonNilUuid parser text with
  | none => renewIdentity used draws
  | some id =>
      if id ∈ used then renewIdentity used draws
      else some ⟨text, false, id :: used, draws⟩

structure Leaves where
  localRuntimeIds : List Uuid
  runtimeIds : List Uuid
  normalized : SortedMap String String

def takeLeaf (leaves : Leaves) (entry : String × String) : Leaves :=
  match parseNonNilUuid parser entry.1, parseNonNilUuid parser entry.2 with
  | some leafId, some runtimeId =>
      if runtimeId ∈ leaves.localRuntimeIds ∨ runtimeId ∈ leaves.runtimeIds then
        leaves
      else
        { localRuntimeIds := runtimeId :: leaves.localRuntimeIds
          runtimeIds := runtimeId :: leaves.runtimeIds
          normalized := leaves.normalized.insert leafId.display runtimeId.display }
  | _, _ => leaves

def takeLeaves (runtimeIds : List Uuid) (entries : List (String × String)) : Leaves :=
  entries.foldl (takeLeaf parser) ⟨[], runtimeIds, .empty⟩

/-- The session of the root leaf. It may repeat one of the map of its own panel. -/
def takeRoot (leaves : Leaves) (runtimeSessionId : Option String) :
    Option String × List Uuid :=
  match runtimeSessionId.bind (parseNonNilUuid parser) with
  | none => (none, leaves.runtimeIds)
  | some runtimeId =>
      if runtimeId ∈ leaves.localRuntimeIds then
        (some runtimeId.display, leaves.runtimeIds)
      else if runtimeId ∈ leaves.runtimeIds then
        (none, leaves.runtimeIds)
      else
        (some runtimeId.display, runtimeId :: leaves.runtimeIds)

/-- The sessions of a panel that kept its identity. -/
def takeSessions (runtimeIds : List Uuid) (panel : PanelState) :
    Option String × SortedMap String String × List Uuid :=
  let leaves := takeLeaves parser runtimeIds panel.leafRuntimeSessionIds.entries
  let root := takeRoot parser leaves panel.runtimeSessionId
  (root.1, leaves.normalized, root.2)

def normalizePanel (workspaceReset : Bool) (taken : Taken) (panel : PanelState) :
    Option (PanelState × Taken) :=
  (takeIdentity parser taken.panelIds taken.draws panel.id).map fun identity =>
    if workspaceReset || identity.reset then
      (⟨identity.text, none, .empty⟩,
        { taken with panelIds := identity.used, draws := identity.draws })
    else
      let (root, leaves, runtimeIds) := takeSessions parser taken.runtimeIds panel
      (⟨identity.text, root, leaves⟩, { taken with
        panelIds := identity.used, draws := identity.draws, runtimeIds := runtimeIds })

def normalizePanels (workspaceReset : Bool) :
    Taken → List PanelState → Option (List PanelState × Taken)
  | taken, [] => some ([], taken)
  | taken, panel :: panels => do
      let first ← normalizePanel parser workspaceReset taken panel
      let rest ← normalizePanels workspaceReset first.2 panels
      pure (first.1 :: rest.1, rest.2)

def normalizeWorkspace (taken : Taken) (workspace : WorkspaceState) :
    Option (WorkspaceState × Taken) := do
  let identity ← takeIdentity parser taken.workspaceIds taken.draws workspace.id
  let panels ← normalizePanels parser identity.reset
    { taken with workspaceIds := identity.used, draws := identity.draws } workspace.panels
  pure ({ workspace with id := identity.text, panels := panels.1 }, panels.2)

def normalizeWorkspaces : Taken → List WorkspaceState → Option (List WorkspaceState × Taken)
  | taken, [] => some ([], taken)
  | taken, workspace :: workspaces => do
      let first ← normalizeWorkspace parser taken workspace
      let rest ← normalizeWorkspaces first.2 workspaces
      pure (first.1 :: rest.1, rest.2)

/-- A layout without workspaces gets an empty one, under the first draw. -/
def seedWorkspaces (draws : List Uuid) (workspaces : List WorkspaceState) :
    Option (List WorkspaceState × List Uuid) :=
  match workspaces, draws with
  | [], [] => none
  | [], id :: rest => some ([⟨id.display, "Default", []⟩], rest)
  | workspace :: workspaces, draws => some (workspace :: workspaces, draws)

/-- `none` when more identifiers have to be drawn than there are. -/
def normalizeSavedState (draws : List Uuid) (state : AppState) : Option AppState := do
  let (seeded, draws) ← seedWorkspaces draws state.workspaces
  let (workspaces, _) ← normalizeWorkspaces parser ⟨[], [], [], draws⟩ seeded
  pure
    { schemaVersion := appStateSchemaVersion
      workspaces := workspaces
      activeWs := min state.activeWs (seeded.length - 1) }

end Normalization

/-! ## A parser

Hexadecimal digits of either case, hyphens between them. -/

def hexValue (digit : Char) : Option Nat :=
  if '0' ≤ digit ∧ digit ≤ '9' then some (digit.toNat - 48)
  else if 'a' ≤ digit ∧ digit ≤ 'f' then some (digit.toNat - 87)
  else if 'A' ≤ digit ∧ digit ≤ 'F' then some (digit.toNat - 55)
  else none

def hexNumber : (number : Nat) → List Char → Option Nat
  | number, [] => some number
  | number, digit :: digits =>
      (hexValue digit).bind fun value => hexNumber (number * 16 + value) digits

def parseHex (text : String) : Option Uuid :=
  let digits := text.toList.filter (· ≠ '-')
  if digits.length = 32 then (hexNumber 0 digits).map Uuid.fromU128 else none

theorem hexNumber_append (number : Nat) (left right : List Char) :
    hexNumber number (left ++ right) =
      (hexNumber number left).bind fun value => hexNumber value right := by
  induction left generalizing number with
  | nil => rfl
  | cons digit left induction =>
      rw [List.cons_append, hexNumber, hexNumber]
      cases hexValue digit with
      | none => rfl
      | some value => exact induction _

theorem hexNumber_hexDigits (number width value : Nat) :
    hexNumber number (Uuid.hexDigits width value) =
      some (number * 16 ^ width + value % 16 ^ width) := by
  have digits : ∀ digit < 16, hexValue (Nat.digitChar digit) = some digit := by decide
  induction width generalizing number value with
  | zero => rw [Uuid.hexDigits, hexNumber, Nat.pow_zero, Nat.mod_one, Nat.mul_one, Nat.add_zero]
  | succ width induction =>
      rw [Uuid.hexDigits, hexNumber_append, induction, Option.bind_some, hexNumber,
        digits _ (Nat.mod_lt _ (by decide)), Option.bind_some, hexNumber, Nat.pow_succ,
        Nat.mul_comm (16 ^ width) 16, Nat.mod_mul]
      congr 1
      generalize 16 ^ width = power
      generalize value / 16 % power = high
      rw [Nat.add_mul, Nat.mul_assoc, Nat.mul_comm power 16]
      omega

theorem hyphen_not_mem_hexDigits (width value : Nat) : '-' ∉ Uuid.hexDigits width value := by
  have digits : ∀ digit < 16, Nat.digitChar digit ≠ '-' := by decide
  induction width generalizing value with
  | zero => exact List.not_mem_nil
  | succ width induction =>
      rw [Uuid.hexDigits, List.mem_append, List.mem_singleton]
      rintro (member | same)
      · exact induction _ member
      · exact digits _ (Nat.mod_lt _ (by decide)) same.symm

theorem filter_display (id : Uuid) :
    id.display.toList.filter (· ≠ '-') = Uuid.hexDigits 32 id.asU128.toNat := by
  have clean := hyphen_not_mem_hexDigits 32 id.asU128.toNat
  rw [Uuid.display, String.toList_ofList]
  generalize Uuid.hexDigits 32 id.asU128.toNat = digits at clean
  have kept : ∀ part : List Char, (∀ digit ∈ part, digit ∈ digits) →
      part.filter (· ≠ '-') = part := by
    intro part inside
    apply List.filter_eq_self.mpr
    intro digit member
    have other : digit ≠ '-' := fun same => clean (same ▸ inside digit member)
    simpa using other
  have hyphen : ['-'].filter (· ≠ '-') = [] := by decide
  have first := kept (digits.take 8) fun _ member => List.mem_of_mem_take member
  have middle : ∀ start, ((digits.drop start).take 4).filter (· ≠ '-') =
      (digits.drop start).take 4 := fun start => kept _ fun _ member =>
    List.mem_of_mem_drop (List.mem_of_mem_take member)
  have last := kept (digits.drop 20) fun _ member => List.mem_of_mem_drop member
  simp only [List.filter_append, first, middle, last, hyphen, List.append_nil]
  have join : ∀ start, (digits.drop start).take 4 ++ digits.drop (start + 4) =
      digits.drop start := by
    intro start
    rw [← List.drop_drop, List.take_append_drop]
  rw [List.append_assoc, List.append_assoc, List.append_assoc, join 16, join 12, join 8,
    List.take_append_drop]

/-- A parser that reads every identifier as it is written. -/
def UuidParser.hex : UuidParser where
  parse := parseHex
  parse_display := by
    intro id
    have bound := id.asU128.isLt
    rw [parseHex, filter_display, if_pos (Uuid.length_hexDigits _ _), hexNumber_hexDigits,
      Option.map_some, Nat.zero_mul, Nat.zero_add, Nat.mod_eq_of_lt (by simpa using bound),
      Uuid.fromU128, BitVec.ofNat_toNat, BitVec.setWidth_eq]

end TerminalCanvas.Layout
