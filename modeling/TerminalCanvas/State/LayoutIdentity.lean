import Mathlib.Data.List.Nodup
import TerminalCanvas.State.LayoutSessions

/-! # The identities of a layout

After the repair every workspace, panel and session has an identity of its own. -/

namespace TerminalCanvas.Layout

section Identities

variable (parser : UuidParser)

/-- The identity is valid and nothing in front has it. -/
def keepsIdentity (earlier : List String) (text : String) : Bool :=
  match parseNonNilUuid parser text with
  | none => false
  | some id => decide (id ∉ earlier.filterMap (parseNonNilUuid parser))

/-- The first valid occurrence of every identity stays where it is. -/
def KeepsFirst (earlier texts results : List String) : Prop :=
  ∀ front text back, texts = front ++ text :: back →
    keepsIdentity parser (earlier ++ front) text = true → results[front.length]? = some text

def panelVisits (workspaceKeeps : Bool) : List String → List PanelState → List Visit
  | _, [] => []
  | earlier, panel :: panels =>
      ⟨workspaceKeeps && keepsIdentity parser earlier panel.id, panel⟩ ::
        panelVisits workspaceKeeps (earlier ++ [panel.id]) panels

/-- The panels in the order they are visited, behind workspaces and panels with the
given identities. -/
def workspaceVisits : List String → List String → List WorkspaceState → List Visit
  | _, _, [] => []
  | workspaceTexts, panelTexts, workspace :: workspaces =>
      panelVisits parser (keepsIdentity parser workspaceTexts workspace.id) panelTexts
          workspace.panels ++
        workspaceVisits (workspaceTexts ++ [workspace.id])
          (panelTexts ++ workspace.panels.map (·.id)) workspaces

def AppState.panels (state : AppState) : List PanelState :=
  state.workspaces.flatMap (·.panels)

def AppState.visits (state : AppState) : List Visit :=
  workspaceVisits parser [] [] state.workspaces

def AppState.sessions (state : AppState) : List PanelSessions :=
  state.panels.map (·.sessions)

def AppState.identifiers (state : AppState) : List Uuid :=
  (state.workspaces.map (·.id) ++ state.panels.map (·.id)).filterMap (parseNonNilUuid parser)

/-! ## One identity -/

/-- The identifiers taken for the texts in front: those the texts name, and others that
no text at all names. -/
structure Reserved (named : List Uuid) (earlier : List String) (used : List Uuid) : Prop where
  seen : ∀ id ∈ earlier.filterMap (parseNonNilUuid parser), id ∈ used
  only : ∀ id ∈ used, id ∈ earlier.filterMap (parseNonNilUuid parser) ∨ id ∉ named
  distinct : used.Nodup

/-- Draws that are distinct and new. -/
structure Supply (named used draws : List Uuid) : Prop where
  distinct : draws.Nodup
  new : ∀ id ∈ draws, id ≠ .nil ∧ id ∉ named ∧ id ∉ used

/-- The identifiers that come to be used are those of the texts, in their order. -/
def Assigns (texts : List String) (used after : List Uuid) : Prop :=
  ∃ ids : List Uuid, texts.map (parseNonNilUuid parser) = ids.map some ∧
    after = ids.reverse ++ used

structure IdentityTaken (named : List Uuid) (earlier : List String) (used draws : List Uuid)
    (text : String) (identity : Identity) : Prop where
  reset : identity.reset = !keepsIdentity parser earlier text
  kept : keepsIdentity parser earlier text = true → identity.text = text
  assigned : Assigns parser [identity.text] used identity.used
  reserved : Reserved parser named (earlier ++ [text]) identity.used
  rest : identity.draws <:+ draws
  count : draws.length ≤ identity.draws.length + 1
  supply : Supply named identity.used identity.draws

variable {parser} {named used draws : List Uuid} {earlier : List String} {text : String}

theorem Supply.suffix {later : List Uuid} (supply : Supply named used draws)
    (suffix : later <:+ draws) : Supply named used later :=
  ⟨supply.distinct.sublist suffix.sublist, fun id member => supply.new id (suffix.subset member)⟩

theorem identityTaken_renew (reserved : Reserved parser named earlier used)
    (supply : Supply named used draws) (enough : draws ≠ [])
    (loses : keepsIdentity parser earlier text = false)
    (seen : ∀ id, parseNonNilUuid parser text = some id → id ∈ used) :
    ∃ identity, renewIdentity used draws = some identity ∧
      IdentityTaken parser named earlier used draws text identity := by
  cases draws with
  | nil => exact absurd rfl enough
  | cons id draws =>
      obtain ⟨nonNil, unnamed, unused⟩ := supply.new id (List.mem_cons_self ..)
      obtain ⟨apart, distinct⟩ := List.nodup_cons.mp supply.distinct
      refine ⟨⟨id.display, true, id :: used, draws⟩, ?_, ?_⟩
      · rw [renewIdentity, freshUuid, if_neg unused]
        rfl
      refine ⟨by rw [loses]; rfl, fun keeps => absurd (loses.symm.trans keeps) nofun, ?_, ?_,
        List.suffix_cons .., Nat.le_refl _, distinct, ?_⟩
      · refine ⟨[id], ?_, rfl⟩
        rw [List.map_singleton, List.map_singleton, parseNonNilUuid_display nonNil]
      · refine ⟨?_, ?_, List.nodup_cons.mpr ⟨unused, reserved.distinct⟩⟩
        · intro other member
          apply List.mem_cons_of_mem
          rw [List.filterMap_append, List.mem_append] at member
          rcases member with front | own
          · exact reserved.seen other front
          · obtain ⟨own', member, parsed⟩ := List.mem_filterMap.mp own
            cases List.mem_singleton.mp member
            exact seen other parsed
        · intro other member
          rw [List.filterMap_append, List.mem_append]
          rcases List.mem_cons.mp member with rfl | member
          · exact .inr unnamed
          · exact (reserved.only other member).imp_left .inl
      · intro other member
        obtain ⟨otherNonNil, otherUnnamed, otherUnused⟩ :=
          supply.new other (List.mem_cons_of_mem _ member)
        refine ⟨otherNonNil, otherUnnamed, ?_⟩
        intro taken
        rcases List.mem_cons.mp taken with rfl | taken
        · exact apart member
        · exact otherUnused taken

theorem takeIdentity_spec (reserved : Reserved parser named earlier used)
    (supply : Supply named used draws) (enough : draws ≠ [])
    (isNamed : ∀ id, parseNonNilUuid parser text = some id → id ∈ named) :
    ∃ identity, takeIdentity parser used draws text = some identity ∧
      IdentityTaken parser named earlier used draws text identity := by
  rw [takeIdentity]
  cases parsed : parseNonNilUuid parser text with
  | none =>
      apply identityTaken_renew reserved supply enough (by rw [keepsIdentity, parsed])
      intro id same
      cases parsed.symm.trans same
  | some id =>
      dsimp only
      by_cases taken : id ∈ used
      · rw [if_pos taken]
        have front : id ∈ earlier.filterMap (parseNonNilUuid parser) :=
          (reserved.only id taken).resolve_right (not_not.mpr (isNamed id parsed))
        apply identityTaken_renew reserved supply enough
        · rw [keepsIdentity, parsed]
          exact decide_eq_false (not_not.mpr front)
        · intro other same
          cases parsed.symm.trans same
          exact taken
      · rw [if_neg taken]
        have first : keepsIdentity parser earlier text = true := by
          rw [keepsIdentity, parsed]
          exact decide_eq_true fun front => taken (reserved.seen id front)
        refine ⟨_, rfl, by rw [first]; rfl, fun _ => rfl, ?_, ?_, List.suffix_refl _,
          Nat.le_succ _, supply.distinct, ?_⟩
        · refine ⟨[id], ?_, rfl⟩
          rw [List.map_singleton, List.map_singleton, parsed]
        · have own : [text].filterMap (parseNonNilUuid parser) = [id] := by
            rw [List.filterMap_cons_some parsed, List.filterMap_nil]
          refine ⟨?_, ?_, List.nodup_cons.mpr ⟨taken, reserved.distinct⟩⟩
          · intro other member
            rw [List.filterMap_append, own, List.mem_append, List.mem_singleton] at member
            rcases member with front | rfl
            · exact List.mem_cons_of_mem _ (reserved.seen other front)
            · exact List.mem_cons_self ..
          · intro other member
            rw [List.filterMap_append, own, List.mem_append, List.mem_singleton]
            rcases List.mem_cons.mp member with rfl | member
            · exact .inl (.inr rfl)
            · exact (reserved.only other member).imp_left .inl
        · intro other member
          obtain ⟨nonNil, unnamed, unused⟩ := supply.new other member
          refine ⟨nonNil, unnamed, ?_⟩
          intro inside
          rcases List.mem_cons.mp inside with rfl | inside
          · exact unnamed (isNamed other parsed)
          · exact unused inside

/-! ## The walk over the layout -/

/-- Between workspaces and panels: what is taken so far is what the texts in front took. -/
structure Standing (parser : UuidParser) (named : List Uuid)
    (workspaceTexts panelTexts : List String) (taken : Taken) : Prop where
  workspaces : Reserved parser named workspaceTexts taken.workspaceIds
  panels : Reserved parser named panelTexts taken.panelIds
  workspaceSupply : Supply named taken.workspaceIds taken.draws
  panelSupply : Supply named taken.panelIds taken.draws

/-- A part of the walk, from the texts of its workspaces and panels to those it gives
them. -/
structure Walked (parser : UuidParser) (named : List Uuid)
    (workspaceTexts panelTexts workspacesIn panelsIn : List String) (visits : List Visit)
    (taken : Taken) (workspacesOut panelsOut : List String) (sessions : List PanelSessions)
    (after : Taken) : Prop where
  standing :
    Standing parser named (workspaceTexts ++ workspacesIn) (panelTexts ++ panelsIn) after
  workspacesAssigned : Assigns parser workspacesOut taken.workspaceIds after.workspaceIds
  panelsAssigned : Assigns parser panelsOut taken.panelIds after.panelIds
  workspacesCount : workspacesOut.length = workspacesIn.length
  panelsCount : panelsOut.length = panelsIn.length
  workspacesKept : KeepsFirst parser workspaceTexts workspacesIn workspacesOut
  panelsKept : KeepsFirst parser panelTexts panelsIn panelsOut
  draws : taken.draws.length ≤ after.draws.length + (workspacesIn.length + panelsIn.length)
  visited : takeVisits parser taken.runtimeIds visits = (sessions, after.runtimeIds)

theorem Assigns.append {first second : List String} {middle after : List Uuid}
    (left : Assigns parser first used middle) (right : Assigns parser second middle after) :
    Assigns parser (first ++ second) used after := by
  obtain ⟨firstIds, firstParsed, rfl⟩ := left
  obtain ⟨secondIds, secondParsed, rfl⟩ := right
  refine ⟨firstIds ++ secondIds, ?_, ?_⟩
  · rw [List.map_append, List.map_append, firstParsed, secondParsed]
  · rw [List.reverse_append, List.append_assoc]

theorem Assigns.nil : Assigns parser [] used used := ⟨[], rfl, rfl⟩

theorem KeepsFirst.append {first second firstOut secondOut : List String}
    (count : firstOut.length = first.length) (left : KeepsFirst parser earlier first firstOut)
    (right : KeepsFirst parser (earlier ++ first) second secondOut) :
    KeepsFirst parser earlier (first ++ second) (firstOut ++ secondOut) := by
  intro front text back split keeps
  rcases List.append_eq_append_iff.mp split with ⟨rest, rfl, inSecond⟩ | ⟨rest, inFirst, inBack⟩
  · rw [← List.append_assoc] at keeps
    have at' := right rest text back inSecond keeps
    rw [List.length_append, List.getElem?_append_right (by omega), count,
      Nat.add_sub_cancel_left, at']
  · cases rest with
    | nil =>
        rw [List.append_nil] at inFirst
        subst inFirst
        have at' := right [] text back (by simpa using inBack.symm) (by simpa using keeps)
        rw [List.getElem?_append_right (by omega), count, Nat.sub_self]
        exact at'
    | cons other rest =>
        obtain ⟨rfl, -⟩ := List.cons.inj inBack
        have at' := left front text rest inFirst keeps
        obtain ⟨bound, -⟩ := List.getElem?_eq_some_iff.mp at'
        rw [List.getElem?_append_left bound, at']

theorem KeepsFirst.nil : KeepsFirst parser earlier [] [] := by
  intro front text back split
  cases front <;> cases split

theorem KeepsFirst.singleton {result : String}
    (kept : keepsIdentity parser earlier text = true → result = text) :
    KeepsFirst parser earlier [text] [result] := by
  intro front other back split keeps
  rcases List.append_eq_singleton_iff.mp split.symm with ⟨rfl, rest⟩ | ⟨-, none⟩
  · cases rest
    rw [List.append_nil] at keeps
    exact congrArg some (kept keeps)
  · cases none

section Walks

variable {workspaceTexts panelTexts : List String} {taken : Taken}

theorem Walked.append {firstWs firstPanels secondWs secondPanels firstWsOut firstPanelsOut
      secondWsOut secondPanelsOut : List String} {firstVisits secondVisits : List Visit}
    {firstSessions secondSessions : List PanelSessions} {middle after : Taken}
    (left : Walked parser named workspaceTexts panelTexts firstWs firstPanels firstVisits taken
      firstWsOut firstPanelsOut firstSessions middle)
    (right : Walked parser named (workspaceTexts ++ firstWs) (panelTexts ++ firstPanels) secondWs
      secondPanels secondVisits middle secondWsOut secondPanelsOut secondSessions after) :
    Walked parser named workspaceTexts panelTexts (firstWs ++ secondWs)
      (firstPanels ++ secondPanels) (firstVisits ++ secondVisits) taken
      (firstWsOut ++ secondWsOut) (firstPanelsOut ++ secondPanelsOut)
      (firstSessions ++ secondSessions) after where
  standing := by
    rw [← List.append_assoc, ← List.append_assoc]
    exact right.standing
  workspacesAssigned := left.workspacesAssigned.append right.workspacesAssigned
  panelsAssigned := left.panelsAssigned.append right.panelsAssigned
  workspacesCount := by
    rw [List.length_append, List.length_append, left.workspacesCount, right.workspacesCount]
  panelsCount := by
    rw [List.length_append, List.length_append, left.panelsCount, right.panelsCount]
  workspacesKept := left.workspacesKept.append left.workspacesCount right.workspacesKept
  panelsKept := left.panelsKept.append left.panelsCount right.panelsKept
  draws := by
    have first := left.draws
    have second := right.draws
    rw [List.length_append, List.length_append]
    omega
  visited := by
    rw [takeVisits_append, left.visited]
    dsimp only
    rw [right.visited]

theorem Walked.nil (standing : Standing parser named workspaceTexts panelTexts taken) :
    Walked parser named workspaceTexts panelTexts [] [] [] taken [] [] [] taken where
  standing := by
    rw [List.append_nil, List.append_nil]
    exact standing
  workspacesAssigned := .nil
  panelsAssigned := .nil
  workspacesCount := rfl
  panelsCount := rfl
  workspacesKept := .nil
  panelsKept := .nil
  draws := Nat.le_refl _
  visited := rfl

theorem normalizePanel_walked (standing : Standing parser named workspaceTexts panelTexts taken)
    (keeps : Bool) (panel : PanelState) (enough : 0 < taken.draws.length)
    (isNamed : ∀ id, parseNonNilUuid parser panel.id = some id → id ∈ named) :
    ∃ result after, normalizePanel parser (!keeps) taken panel = some (result, after) ∧
      Walked parser named workspaceTexts panelTexts [] [panel.id]
        [⟨keeps && keepsIdentity parser panelTexts panel.id, panel⟩] taken [] [result.id]
        [result.sessions] after := by
  obtain ⟨identity, found, identityTaken⟩ := takeIdentity_spec standing.panels
    standing.panelSupply (List.ne_nil_of_length_pos enough) isNamed
  have resets : (!keeps || identity.reset) =
      !(keeps && keepsIdentity parser panelTexts panel.id) := by
    rw [identityTaken.reset, Bool.not_and]
  have walked : ∀ (sessions : PanelSessions) (runtimeIds : List Uuid),
      takeVisit parser taken.runtimeIds
          ⟨keeps && keepsIdentity parser panelTexts panel.id, panel⟩ = (sessions, runtimeIds) →
      Walked parser named workspaceTexts panelTexts [] [panel.id]
        [⟨keeps && keepsIdentity parser panelTexts panel.id, panel⟩] taken [] [identity.text]
        [sessions] { taken with
          panelIds := identity.used, draws := identity.draws, runtimeIds := runtimeIds } := by
    intro sessions runtimeIds visit
    refine ⟨⟨?_, identityTaken.reserved, ?_, identityTaken.supply⟩, .nil, identityTaken.assigned,
      rfl, rfl, .nil, .singleton identityTaken.kept, identityTaken.count, ?_⟩
    · rw [List.append_nil]
      exact standing.workspaces
    · exact standing.workspaceSupply.suffix identityTaken.rest
    · rw [takeVisits, takeVisits, visit]
  rw [normalizePanel, found, Option.map_some, resets]
  cases kept : keeps && keepsIdentity parser panelTexts panel.id with
  | false =>
      rw [kept] at walked
      exact ⟨_, _, rfl, walked (none, .empty) taken.runtimeIds (takeVisit_resets rfl)⟩
  | true =>
      rw [kept] at walked
      exact ⟨_, _, rfl, walked _ _ rfl⟩

theorem normalizePanels_walked (standing : Standing parser named workspaceTexts panelTexts taken)
    (keeps : Bool) (panels : List PanelState) (enough : panels.length ≤ taken.draws.length)
    (isNamed : ∀ panel ∈ panels, ∀ id, parseNonNilUuid parser panel.id = some id → id ∈ named) :
    ∃ results after, normalizePanels parser (!keeps) taken panels = some (results, after) ∧
      Walked parser named workspaceTexts panelTexts [] (panels.map (·.id))
        (panelVisits parser keeps panelTexts panels) taken [] (results.map (·.id))
        (results.map (·.sessions)) after := by
  induction panels generalizing taken panelTexts with
  | nil => exact ⟨[], taken, rfl, .nil standing⟩
  | cons panel panels induction =>
      rw [List.length_cons] at enough
      obtain ⟨first, middle, firstFound, firstWalked⟩ := normalizePanel_walked standing keeps panel
        (by omega) (isNamed panel (List.mem_cons_self ..))
      have standing' : Standing parser named workspaceTexts (panelTexts ++ [panel.id]) middle := by
        have standing' := firstWalked.standing
        rw [List.append_nil] at standing'
        exact standing'
      have count := firstWalked.draws
      rw [List.length_nil, List.length_singleton] at count
      obtain ⟨rest, after, restFound, restWalked⟩ := induction standing' (by omega)
        fun panel member => isNamed panel (List.mem_cons_of_mem _ member)
      refine ⟨first :: rest, after, ?_, ?_⟩
      · rw [normalizePanels, firstFound]
        simp only [bind, Option.bind_some, restFound, pure]
      · rw [← List.append_nil workspaceTexts] at restWalked
        exact firstWalked.append restWalked

theorem normalizeWorkspace_walked
    (standing : Standing parser named workspaceTexts panelTexts taken)
    (workspace : WorkspaceState)
    (enough : workspace.panels.length + 1 ≤ taken.draws.length)
    (workspaceNamed : ∀ id, parseNonNilUuid parser workspace.id = some id → id ∈ named)
    (panelsNamed : ∀ panel ∈ workspace.panels, ∀ id,
      parseNonNilUuid parser panel.id = some id → id ∈ named) :
    ∃ result after, normalizeWorkspace parser taken workspace = some (result, after) ∧
      Walked parser named workspaceTexts panelTexts [workspace.id] (workspace.panels.map (·.id))
        (panelVisits parser (keepsIdentity parser workspaceTexts workspace.id) panelTexts
          workspace.panels) taken [result.id] (result.panels.map (·.id))
        (result.panels.map (·.sessions)) after ∧
      (result.name, result.panels.length) = (workspace.name, workspace.panels.length) := by
  obtain ⟨identity, found, identityTaken⟩ := takeIdentity_spec standing.workspaces
    standing.workspaceSupply (List.ne_nil_of_length_pos (by omega)) workspaceNamed
  have walked : Walked parser named workspaceTexts panelTexts [workspace.id] [] [] taken
      [identity.text] [] []
      { taken with workspaceIds := identity.used, draws := identity.draws } := by
    refine ⟨⟨identityTaken.reserved, ?_, identityTaken.supply, ?_⟩, identityTaken.assigned, .nil,
      rfl, rfl, .singleton identityTaken.kept, .nil, identityTaken.count, rfl⟩
    · rw [List.append_nil]
      exact standing.panels
    · exact standing.panelSupply.suffix identityTaken.rest
  have standing' := walked.standing
  rw [List.append_nil] at standing'
  have count := identityTaken.count
  obtain ⟨results, after, panelsFound, panelsWalked⟩ := normalizePanels_walked standing'
    (keepsIdentity parser workspaceTexts workspace.id) workspace.panels
    (by dsimp only; omega) panelsNamed
  rw [← identityTaken.reset] at panelsFound
  refine ⟨{ workspace with id := identity.text, panels := results }, after, ?_, ?_, ?_⟩
  · rw [normalizeWorkspace, found]
    simp only [bind, Option.bind_some, panelsFound, pure]
  · have behind : Walked parser named (workspaceTexts ++ [workspace.id]) (panelTexts ++ []) []
        (workspace.panels.map (·.id))
        (panelVisits parser (keepsIdentity parser workspaceTexts workspace.id) panelTexts
          workspace.panels)
        { taken with workspaceIds := identity.used, draws := identity.draws } []
        (results.map (·.id)) (results.map (·.sessions)) after := by
      rw [List.append_nil]
      exact panelsWalked
    exact walked.append behind
  · have length := panelsWalked.panelsCount
    rw [List.length_map, List.length_map] at length
    rw [length]

theorem normalizeWorkspaces_walked
    (standing : Standing parser named workspaceTexts panelTexts taken)
    (workspaces : List WorkspaceState)
    (enough : workspaces.length + (workspaces.flatMap (·.panels)).length ≤ taken.draws.length)
    (workspacesNamed : ∀ workspace ∈ workspaces, ∀ id,
      parseNonNilUuid parser workspace.id = some id → id ∈ named)
    (panelsNamed : ∀ panel ∈ workspaces.flatMap (·.panels), ∀ id,
      parseNonNilUuid parser panel.id = some id → id ∈ named) :
    ∃ results after, normalizeWorkspaces parser taken workspaces = some (results, after) ∧
      Walked parser named workspaceTexts panelTexts (workspaces.map (·.id))
        ((workspaces.flatMap (·.panels)).map (·.id))
        (workspaceVisits parser workspaceTexts panelTexts workspaces) taken (results.map (·.id))
        ((results.flatMap (·.panels)).map (·.id)) ((results.flatMap (·.panels)).map (·.sessions))
        after ∧
      results.map (fun workspace => (workspace.name, workspace.panels.length)) =
        workspaces.map fun workspace => (workspace.name, workspace.panels.length) := by
  induction workspaces generalizing taken workspaceTexts panelTexts with
  | nil => exact ⟨[], taken, rfl, .nil standing, rfl⟩
  | cons workspace workspaces induction =>
      rw [List.length_cons, List.flatMap_cons, List.length_append] at enough
      rw [List.flatMap_cons] at panelsNamed
      obtain ⟨first, middle, firstFound, firstWalked, firstShape⟩ :=
        normalizeWorkspace_walked standing workspace (by omega)
          (workspacesNamed workspace (List.mem_cons_self ..))
          fun panel member => panelsNamed panel (List.mem_append_left _ member)
      have count := firstWalked.draws
      rw [List.length_singleton, List.length_map] at count
      obtain ⟨rest, after, restFound, restWalked, restShape⟩ :=
        induction firstWalked.standing (by omega)
          (fun workspace member => workspacesNamed workspace (List.mem_cons_of_mem _ member))
          fun panel member => panelsNamed panel (List.mem_append_right _ member)
      refine ⟨first :: rest, after, ?_, ?_, ?_⟩
      · rw [normalizeWorkspaces, firstFound]
        simp only [bind, Option.bind_some, restFound, pure]
      · simp only [List.map_cons, List.flatMap_cons, List.map_append]
        exact firstWalked.append restWalked
      · rw [List.map_cons, List.map_cons, firstShape, restShape]

end Walks

end Identities

end TerminalCanvas.Layout
