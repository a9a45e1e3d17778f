import TerminalCanvas.State.LayoutIdentity

/-! # A repaired layout

Its identities are unique, and repairing it again changes nothing. -/

namespace TerminalCanvas.Layout

section Repaired

variable {parser : UuidParser}

/-- Sessions in the texts their identifiers are written as, with distinct runtimes. -/
structure Canonical (parser : UuidParser) (sessions : PanelSessions) : Prop where
  entries : ∀ entry ∈ sessions.2.entries, ∃ pair, validEntry parser entry = some pair ∧
    entry = (pair.1.display, pair.2.display)
  distinct : (runtimesOf parser sessions.2.entries).Nodup
  root : ∀ text, sessions.1 = some text → ∃ id, parseNonNilUuid parser text = some id ∧
    text = id.display

theorem validEntry_display {pair : Uuid × Uuid} (leaf : pair.1 ≠ .nil) (runtime : pair.2 ≠ .nil) :
    validEntry parser (pair.1.display, pair.2.display) = some pair := by
  rw [validEntry, parseNonNilUuid_display leaf, parseNonNilUuid_display runtime]

theorem parse_runtime {entry : String × String} {pair : Uuid × Uuid}
    (valid : validEntry parser entry = some pair) :
    parseNonNilUuid parser entry.2 = some pair.2 := by
  unfold validEntry at valid
  split at valid
  · next runtime =>
      cases valid
      exact runtime
  · cases valid

theorem takeVisit_canonical (used : List Uuid) (visit : Visit) :
    Canonical parser (takeVisit parser used visit).1 := by
  obtain ⟨-, injective⟩ := @takeVisit_sessions parser used visit
  cases keeps : visit.keeps with
  | false =>
      rw [takeVisit_resets keeps]
      exact ⟨fun entry member => (nomatch member), .nil, fun text same => (nomatch same)⟩
  | true =>
      obtain ⟨pairs, root, after, pairsAre, whole, rooted⟩ :=
        @takeVisit_keeps parser used visit keeps
      rw [whole] at injective ⊢
      have nonNil : ∀ pair ∈ pairs, pair.1 ≠ .nil ∧ pair.2 ≠ .nil := by
        rw [pairsAre]
        exact fun pair member => ((accepted_runtimes used _).2 pair member).2
      have written : ∀ entry ∈ (pairs.foldl insertPair .empty).entries,
          ∃ pair, validEntry parser entry = some pair ∧
            entry = (pair.1.display, pair.2.display) := by
        intro entry member
        obtain ⟨pair, pairIn, rfl, -, -⟩ := @parse_entry parser _ _ nonNil member
        exact ⟨pair, validEntry_display (nonNil pair pairIn).1 (nonNil pair pairIn).2, rfl⟩
      refine ⟨written, ?_, ?_⟩
      · apply List.pairwise_filterMap.mpr
        apply (pairs.foldl insertPair .empty).sorted.imp_of_mem
        intro first second firstIn secondIn less left leftIs right rightIs
        obtain ⟨leftPair, leftValid, rfl⟩ := Option.map_eq_some_iff.mp leftIs
        obtain ⟨rightPair, rightValid, rfl⟩ := Option.map_eq_some_iff.mp rightIs
        intro same
        have equal := injective first firstIn second secondIn (by
          rw [parse_runtime leftValid, parse_runtime rightValid, same])
        rw [equal] at less
        exact lt_irrefl _ less
      · intro text same
        cases rooted with
        | invalid | dropped => cases same
        | own id parsed | new id parsed =>
            obtain ⟨original, -, parsed⟩ := Option.bind_eq_some_iff.mp parsed
            have textIs : id.display = text := Option.some.inj same
            refine ⟨id, ?_, textIs.symm⟩
            rw [← textIs, parseNonNilUuid_display (nonNil_of_parse parsed)]

theorem accepted_all {used : List Uuid} {entries : List (String × String)}
    (distinct : (runtimesOf parser entries).Nodup)
    (unused : ∀ id ∈ runtimesOf parser entries, id ∉ used) :
    accepted parser used entries = entries.filterMap (validEntry parser) := by
  induction entries generalizing used with
  | nil => rfl
  | cons entry entries induction =>
      rw [runtimesOf_cons] at distinct unused
      rw [accepted]
      cases valid : validEntry parser entry with
      | none =>
          rw [valid] at distinct unused
          rw [List.filterMap_cons_none valid]
          exact induction distinct unused
      | some pair =>
          rw [valid] at distinct unused
          obtain ⟨apart, distinct⟩ := List.nodup_cons.mp distinct
          rw [List.filterMap_cons_some valid]
          dsimp only
          rw [if_neg (unused pair.2 (List.mem_cons_self ..)), induction distinct]
          intro id member inside
          rcases List.mem_cons.mp inside with rfl | inside
          · exact apart member
          · exact unused id (List.mem_cons_of_mem _ member) inside

theorem foldl_insertPair_same {entries : List (String × String)} (map : SortedMap String String)
    (written : ∀ entry ∈ entries, ∃ pair, validEntry parser entry = some pair ∧
      entry = (pair.1.display, pair.2.display)) :
    (entries.filterMap (validEntry parser)).foldl insertPair map =
      entries.foldl (fun map entry => map.insert entry.1 entry.2) map := by
  induction entries generalizing map with
  | nil => rfl
  | cons entry entries induction =>
      obtain ⟨pair, valid, rfl⟩ := written _ (List.mem_cons_self ..)
      rw [List.filterMap_cons_some valid, List.foldl_cons, List.foldl_cons]
      exact induction _ fun entry member => written entry (List.mem_cons_of_mem _ member)

theorem runtimesOf_subset {entries : List (String × String)} {id : Uuid}
    (member : id ∈ runtimesOf parser entries) :
    id ∈ entries.filterMap fun entry => parseNonNilUuid parser entry.2 := by
  obtain ⟨entry, inside, same⟩ := List.mem_filterMap.mp member
  obtain ⟨pair, valid, rfl⟩ := Option.map_eq_some_iff.mp same
  exact List.mem_filterMap.mpr ⟨entry, inside, parse_runtime valid⟩

theorem takeVisit_same {used : List Uuid} {panel : PanelState}
    (canonical : Canonical parser panel.sessions)
    (unused : ∀ id ∈ sessionRuntimes parser panel.sessions, id ∉ used) :
    (takeVisit parser used ⟨true, panel⟩).1 = panel.sessions ∧
      ∀ id ∈ (takeVisit parser used ⟨true, panel⟩).2,
        id ∈ used ∨ id ∈ sessionRuntimes parser panel.sessions := by
  constructor
  · have all : accepted parser used panel.leafRuntimeSessionIds.entries =
        panel.leafRuntimeSessionIds.entries.filterMap (validEntry parser) := by
      apply accepted_all canonical.distinct
      intro id member
      exact unused id (List.mem_append_right _ (runtimesOf_subset member))
    obtain ⟨pairs, root, after, pairsAre, whole, rooted⟩ :=
      @takeVisit_keeps parser used ⟨true, panel⟩ rfl
    have leaves : pairs.foldl insertPair .empty = panel.leafRuntimeSessionIds := by
      apply SortedMap.eq_of_entries
      have same := foldl_insertPair_same .empty canonical.entries
      dsimp only [PanelState.sessions] at same
      rw [pairsAre, all, same,
        SortedMap.entries_foldl_insert panel.leafRuntimeSessionIds.sorted]
      rfl
    have rootIs : root = panel.runtimeSessionId := by
      cases written : panel.runtimeSessionId with
      | none =>
          dsimp only at rooted
          rw [written] at rooted
          cases rooted with
          | invalid => rfl
          | dropped id parsed | own id parsed | new id parsed => cases parsed
      | some text =>
          obtain ⟨id, parsed, rfl⟩ := canonical.root text written
          have mine : id ∈ sessionRuntimes parser panel.sessions := by
            apply List.mem_append_left
            rw [PanelState.sessions, written]
            exact Option.mem_toList.mpr parsed
          dsimp only at rooted
          rw [written] at rooted
          cases rooted with
          | invalid invalid => cases invalid.symm.trans parsed
          | dropped other same _ taken =>
              cases same.symm.trans parsed
              exact absurd taken (unused id mine)
          | own other same | new other same =>
              cases same.symm.trans parsed
              rfl
    rw [whole, leaves, rootIs]
    rfl
  · intro id member
    apply (mem_takeVisit.mp member).imp_right
    intro claimed
    rw [claims_keeps rfl, List.mem_append] at claimed
    rcases claimed with leaf | root
    · exact List.mem_append_right _ (runtimesOf_subset leaf)
    · exact List.mem_append_left _ root

/-! ## Repairing again -/

/-- Panels that can be taken as they are, behind what is taken already. -/
structure PanelsFit (parser : UuidParser) (taken : Taken) (panels : List PanelState) :
    Prop where
  identities : ∃ ids : List Uuid,
    (panels.map fun panel => parseNonNilUuid parser panel.id) = ids.map some ∧
      ids.Nodup ∧ ∀ id ∈ ids, id ∉ taken.panelIds
  canonical : ∀ panel ∈ panels, Canonical parser panel.sessions
  unused : ∀ panel ∈ panels, ∀ id ∈ sessionRuntimes parser panel.sessions, id ∉ taken.runtimeIds
  apart : panels.Pairwise fun first second =>
    ∀ id ∈ sessionRuntimes parser first.sessions, id ∉ sessionRuntimes parser second.sessions

theorem takeIdentity_same {used draws : List Uuid} {text : String} {id : Uuid}
    (parsed : parseNonNilUuid parser text = some id) (new : id ∉ used) :
    takeIdentity parser used draws text = some ⟨text, false, id :: used, draws⟩ := by
  rw [takeIdentity, parsed]
  exact if_neg new

theorem normalizePanels_same (panels : List PanelState) {rest : List PanelState} {taken : Taken}
    (fit : PanelsFit parser taken (panels ++ rest)) :
    ∃ after, normalizePanels parser false taken panels = some (panels, after) ∧
      PanelsFit parser after rest ∧ after.workspaceIds = taken.workspaceIds := by
  induction panels generalizing taken with
  | nil => exact ⟨taken, rfl, fit, rfl⟩
  | cons panel panels induction =>
      obtain ⟨ids, parsed, distinct, new⟩ := fit.identities
      cases ids with
      | nil => cases parsed
      | cons id ids =>
          obtain ⟨parsed, parsedRest⟩ := List.cons.inj parsed
          obtain ⟨apart, distinct⟩ := List.nodup_cons.mp distinct
          have mine : panel ∈ panel :: (panels ++ rest) := List.mem_cons_self ..
          obtain ⟨same, used⟩ := takeVisit_same (fit.canonical panel mine) (fit.unused panel mine)
          obtain ⟨disjoint, apartRest⟩ := List.pairwise_cons.mp fit.apart
          have identity := @takeIdentity_same parser taken.panelIds taken.draws panel.id id parsed
            (new id (List.mem_cons_self ..))
          have first : normalizePanel parser false taken panel = some (panel, { taken with
              panelIds := id :: taken.panelIds
              runtimeIds := (takeVisit parser taken.runtimeIds ⟨true, panel⟩).2 }) := by
            rw [normalizePanel, identity, Option.map_some]
            obtain ⟨root, leaves⟩ := Prod.mk.inj same
            exact congrArg (fun kept => some (kept, _)) (by
              rw [PanelState.mk.injEq]
              exact ⟨rfl, root, leaves⟩)
          have fitRest : PanelsFit parser { taken with
              panelIds := id :: taken.panelIds
              runtimeIds := (takeVisit parser taken.runtimeIds ⟨true, panel⟩).2 }
              (panels ++ rest) := by
            refine ⟨⟨ids, parsedRest, distinct, ?_⟩,
              fun other member => fit.canonical other (List.mem_cons_of_mem _ member), ?_,
              apartRest⟩
            · intro other member inside
              rcases List.mem_cons.mp inside with rfl | inside
              · exact apart member
              · exact new other (List.mem_cons_of_mem _ member) inside
            · intro other member runtime theirs inside
              rcases used runtime inside with taken | own
              · exact fit.unused other (List.mem_cons_of_mem _ member) runtime theirs taken
              · exact disjoint other member runtime own theirs
          obtain ⟨after, found, fitRest, workspaceIds⟩ := induction fitRest
          refine ⟨after, ?_, fitRest, workspaceIds⟩
          rw [normalizePanels, first]
          simp only [bind, Option.bind_some, found, pure]

theorem normalizeWorkspaces_same (workspaces : List WorkspaceState) {taken : Taken}
    (identities : ∃ ids : List Uuid,
      (workspaces.map fun workspace => parseNonNilUuid parser workspace.id) = ids.map some ∧
        ids.Nodup ∧ ∀ id ∈ ids, id ∉ taken.workspaceIds)
    (fit : PanelsFit parser taken (workspaces.flatMap (·.panels))) :
    ∃ after, normalizeWorkspaces parser taken workspaces = some (workspaces, after) := by
  induction workspaces generalizing taken with
  | nil => exact ⟨taken, rfl⟩
  | cons workspace workspaces induction =>
      obtain ⟨ids, parsed, distinct, new⟩ := identities
      cases ids with
      | nil => cases parsed
      | cons id ids =>
          obtain ⟨parsed, parsedRest⟩ := List.cons.inj parsed
          obtain ⟨apart, distinct⟩ := List.nodup_cons.mp distinct
          have identity := @takeIdentity_same parser taken.workspaceIds taken.draws workspace.id id
            parsed (new id (List.mem_cons_self ..))
          have fitHere : PanelsFit parser { taken with workspaceIds := id :: taken.workspaceIds }
              (workspace.panels ++ workspaces.flatMap (·.panels)) :=
            ⟨fit.identities, fit.canonical, fit.unused, fit.apart⟩
          obtain ⟨middle, panels, fitRest, workspaceIds⟩ :=
            normalizePanels_same workspace.panels fitHere
          have first : normalizeWorkspace parser taken workspace = some (workspace, middle) := by
            rw [normalizeWorkspace, identity]
            simp only [bind, Option.bind_some, panels, pure]
          have free : ∀ other ∈ ids, other ∉ middle.workspaceIds := by
            rw [workspaceIds]
            intro other member inside
            rcases List.mem_cons.mp inside with rfl | inside
            · exact apart member
            · exact new other (List.mem_cons_of_mem _ member) inside
          obtain ⟨after, found⟩ := induction ⟨ids, parsedRest, distinct, free⟩ fitRest
          refine ⟨after, ?_⟩
          rw [normalizeWorkspaces, first]
          simp only [bind, Option.bind_some, found, pure]

/-! ## The repair of a saved layout -/

/-- Workspaces, panels, leaves and runtimes each have an identity of their own, and one of
the workspaces is active. -/
structure UniqueIdentities (parser : UuidParser) (state : AppState) : Prop where
  workspaces : ∃ ids : List Uuid,
    (state.workspaces.map fun workspace => parseNonNilUuid parser workspace.id) = ids.map some ∧
      ids.Nodup
  panels : ∃ ids : List Uuid,
    (state.panels.map fun panel => parseNonNilUuid parser panel.id) = ids.map some ∧ ids.Nodup
  canonical : ∀ panel ∈ state.panels, Canonical parser panel.sessions
  leaves : ∀ panel ∈ state.panels, ∀ first ∈ panel.leafRuntimeSessionIds.entries,
    ∀ second ∈ panel.leafRuntimeSessionIds.entries,
      parseNonNilUuid parser first.1 = parseNonNilUuid parser second.1 → first = second
  runtimes : state.panels.Pairwise fun first second =>
    ∀ id ∈ sessionRuntimes parser first.sessions, id ∉ sessionRuntimes parser second.sessions
  active : state.activeWs < state.workspaces.length

/-- Workspaces and panels stay in their places, and the first of each identity keeps it. -/
structure KeepsIdentities (parser : UuidParser) (state result : AppState) : Prop where
  shape : state.workspaces ≠ [] →
    result.workspaces.map (fun workspace => (workspace.name, workspace.panels.length)) =
      state.workspaces.map fun workspace => (workspace.name, workspace.panels.length)
  workspaces : KeepsFirst parser [] (state.workspaces.map (·.id)) (result.workspaces.map (·.id))
  panels : KeepsFirst parser [] (state.panels.map (·.id)) (result.panels.map (·.id))

theorem takeVisits_canonical (used : List Uuid) (visits : List Visit) :
    ∀ sessions ∈ (takeVisits parser used visits).1, Canonical parser sessions := by
  induction visits generalizing used with
  | nil => exact fun sessions member => nomatch member
  | cons visit visits induction =>
      intro sessions member
      rcases List.mem_cons.mp member with rfl | member
      · exact takeVisit_canonical used visit
      · exact induction _ sessions member

theorem Canonical.leaves {sessions : PanelSessions} (canonical : Canonical parser sessions)
    {first second : String × String} (firstIn : first ∈ sessions.2.entries)
    (secondIn : second ∈ sessions.2.entries)
    (same : parseNonNilUuid parser first.1 = parseNonNilUuid parser second.1) :
    first = second := by
  have leafOf : ∀ {entry : String × String} {pair : Uuid × Uuid},
      validEntry parser entry = some pair → parseNonNilUuid parser entry.1 = some pair.1 := by
    intro entry pair valid
    unfold validEntry at valid
    split at valid
    · next leaf _ =>
        cases valid
        exact leaf
    · cases valid
  obtain ⟨left, leftValid, leftIs⟩ := canonical.entries first firstIn
  obtain ⟨right, rightValid, rightIs⟩ := canonical.entries second secondIn
  rw [leafOf leftValid, leafOf rightValid] at same
  have key : first.1 = second.1 := by rw [leftIs, rightIs, Option.some.inj same]
  obtain ⟨firstKey, firstValue⟩ := first
  obtain ⟨secondKey, secondValue⟩ := second
  cases key
  rw [SortedMap.value_unique firstIn secondIn]

theorem normalizeWorkspaces_unique {named draws : List Uuid} (workspaces : List WorkspaceState)
    (supply : Supply named [] draws)
    (enough : workspaces.length + (workspaces.flatMap (·.panels)).length ≤ draws.length)
    (isNamed : ∀ text ∈ workspaces.map (·.id) ++ (workspaces.flatMap (·.panels)).map (·.id),
      ∀ id, parseNonNilUuid parser text = some id → id ∈ named) :
    ∃ results after,
      normalizeWorkspaces parser ⟨[], [], [], draws⟩ workspaces = some (results, after) ∧
      Walked parser named [] [] (workspaces.map (·.id))
        ((workspaces.flatMap (·.panels)).map (·.id)) (workspaceVisits parser [] [] workspaces)
        ⟨[], [], [], draws⟩ (results.map (·.id)) ((results.flatMap (·.panels)).map (·.id))
        ((results.flatMap (·.panels)).map (·.sessions)) after ∧
      results.map (fun workspace => (workspace.name, workspace.panels.length)) =
        workspaces.map (fun workspace => (workspace.name, workspace.panels.length)) ∧
      (∃ ids : List Uuid,
        (results.map fun workspace => parseNonNilUuid parser workspace.id) = ids.map some ∧
          ids.Nodup) ∧
      ∀ others, PanelsFit parser ⟨[], [], [], others⟩ (results.flatMap (·.panels)) := by
  have nothing : Reserved parser named [] [] :=
    ⟨fun id member => (nomatch member), fun id member => (nomatch member), .nil⟩
  have standing : Standing parser named [] [] ⟨[], [], [], draws⟩ :=
    ⟨nothing, nothing, supply, supply⟩
  obtain ⟨results, after, found, walked, shape⟩ := normalizeWorkspaces_walked standing workspaces
    enough
    (fun workspace member => isNamed workspace.id
      (List.mem_append_left _ (List.mem_map_of_mem member)))
    fun panel member => isNamed panel.id (List.mem_append_right _ (List.mem_map_of_mem member))
  refine ⟨results, after, found, walked, shape, ?_, ?_⟩
  · obtain ⟨ids, parsed, used⟩ := walked.workspacesAssigned
    rw [List.map_map] at parsed
    have distinct := walked.standing.workspaces.distinct
    rw [used, List.append_nil, List.nodup_reverse] at distinct
    exact ⟨ids, parsed, distinct⟩
  · intro others
    have visited := congrArg Prod.fst walked.visited
    refine ⟨?_, ?_, fun panel member id mine => List.not_mem_nil, ?_⟩
    · obtain ⟨ids, parsed, used⟩ := walked.panelsAssigned
      rw [List.map_map] at parsed
      have distinct := walked.standing.panels.distinct
      rw [used, List.append_nil, List.nodup_reverse] at distinct
      exact ⟨ids, parsed, distinct, fun id member => List.not_mem_nil⟩
    · intro panel member
      apply takeVisits_canonical [] (workspaceVisits parser [] [] workspaces)
      rw [visited]
      exact List.mem_map_of_mem member
    · have apart := @takeVisits_sessions parser [] (workspaceVisits parser [] [] workspaces)
      rw [visited] at apart
      exact List.pairwise_map.mp apart

/-- The workspaces the walk starts from. -/
structure Seeded (parser : UuidParser) (named : List Uuid) (state : AppState)
    (seeds : List WorkspaceState) (rest : List Uuid) : Prop where
  supply : Supply named [] rest
  some : seeds ≠ []
  enough : seeds.length + (seeds.flatMap (·.panels)).length ≤ rest.length
  named : ∀ text ∈ seeds.map (·.id) ++ (seeds.flatMap (·.panels)).map (·.id),
    ∀ id, parseNonNilUuid parser text = .some id → id ∈ named
  same : state.workspaces ≠ [] → seeds = state.workspaces
  panels : seeds.flatMap (·.panels) = state.panels
  visits : workspaceVisits parser [] [] seeds = state.visits parser

theorem seedWorkspaces_seeded {draws : List Uuid} {state : AppState} (distinct : draws.Nodup)
    (new : ∀ id ∈ draws, id ≠ .nil ∧ id ∉ state.identifiers parser)
    (enough : state.workspaces.length + state.panels.length + 2 ≤ draws.length) :
    ∃ named seeds rest, seedWorkspaces draws state.workspaces = some (seeds, rest) ∧
      Seeded parser named state seeds rest := by
  cases workspaces : state.workspaces with
  | cons workspace others =>
      refine ⟨state.identifiers parser, _, draws, rfl, ?_⟩
      rw [← workspaces]
      refine ⟨⟨distinct, fun id member => ⟨(new id member).1, (new id member).2,
        List.not_mem_nil⟩⟩, by rw [workspaces]; exact List.cons_ne_nil _ _,
        Nat.le_trans (Nat.le_add_right _ 2) enough, ?_, fun _ => rfl, rfl, rfl⟩
      intro text member id parsed
      exact List.mem_filterMap.mpr ⟨text, member, parsed⟩
  | nil =>
      cases draws with
      | nil => exact absurd enough (Nat.not_lt_zero _)
      | cons id draws =>
          obtain ⟨apart, distinct⟩ := List.nodup_cons.mp distinct
          have noPanels : state.panels = [] := by rw [AppState.panels, workspaces]; rfl
          rw [workspaces, noPanels, List.length_cons] at enough
          refine ⟨[id], _, draws, rfl, ⟨distinct, ?_⟩, List.cons_ne_nil _ _, ?_, ?_,
            fun nonempty => absurd workspaces nonempty, noPanels.symm, ?_⟩
          · intro other member
            refine ⟨(new other (List.mem_cons_of_mem _ member)).1, ?_, List.not_mem_nil⟩
            intro same
            exact apart (List.mem_singleton.mp same ▸ member)
          · exact Nat.le_of_succ_le_succ enough
          · intro text member other parsed
            have nonNil := (new id (List.mem_cons_self ..)).1
            have textIs : text = id.display := by simpa using member
            rw [textIs, parseNonNilUuid_display nonNil] at parsed
            exact List.mem_singleton.mpr (Option.some.inj parsed).symm
          · rw [AppState.visits, workspaces]
            rfl

/-- The repair gives every workspace, panel and session an identity of its own, keeps the
first valid ones, and is done once. Only what was taken is dropped, unless a panel has two
entries of one leaf. -/
theorem normalized_layout (parser : UuidParser) (draws : List Uuid) (state : AppState)
    (distinct : draws.Nodup)
    (new : ∀ id ∈ draws, id ≠ .nil ∧ id ∉ state.identifiers parser)
    (enough : state.workspaces.length + state.panels.length + 2 ≤ draws.length) :
    ∃ result, normalizeSavedState parser draws state = some result ∧
      UniqueIdentities parser result ∧ KeepsIdentities parser state result ∧
      (∀ others, normalizeSavedState parser others result = some result) ∧
      (DropsOnlyTaken parser (state.visits parser) result.sessions ↔
        ¬ SharesLeaf parser (state.visits parser)) := by
  obtain ⟨named, seeds, rest, seeding, seeded⟩ := seedWorkspaces_seeded distinct new enough
  obtain ⟨results, after, found, walked, shape, workspaceIds, fit⟩ :=
    normalizeWorkspaces_unique seeds seeded.supply seeded.enough seeded.named
  have count : results.length = seeds.length := by
    have count := walked.workspacesCount
    rwa [List.length_map, List.length_map] at count
  have positive : 0 < seeds.length := List.length_pos_of_ne_nil seeded.some
  have panelsIn := seeded.panels
  refine ⟨⟨appStateSchemaVersion, results, min state.activeWs (seeds.length - 1)⟩, ?_, ?_, ?_,
    ?_, ?_⟩
  · rw [normalizeSavedState, seeding]
    simp only [bind, Option.bind_some, found, pure]
  · obtain ⟨identities, canonical, -, apart⟩ := fit []
    obtain ⟨ids, parsed, unique, -⟩ := identities
    refine ⟨workspaceIds, ⟨ids, parsed, unique⟩, canonical, ?_, apart, ?_⟩
    · intro panel member first firstIn second secondIn same
      exact (canonical panel member).leaves firstIn secondIn same
    · dsimp only
      omega
  · refine ⟨?_, ?_, ?_⟩
    · intro nonempty
      rw [← seeded.same nonempty]
      exact shape
    · cases workspaces : state.workspaces with
      | nil => exact fun front text back split => absurd split.symm (by simp)
      | cons workspace others =>
          rw [← workspaces, ← seeded.same (by rw [workspaces]; exact List.cons_ne_nil _ _)]
          exact walked.workspacesKept
    · rw [← panelsIn]
      exact walked.panelsKept
  · intro others
    have nonempty : results ≠ [] := List.ne_nil_of_length_pos (count ▸ positive)
    have reseeded : seedWorkspaces others results = some (results, others) := by
      cases results with
      | nil => exact absurd rfl nonempty
      | cons => rfl
    obtain ⟨ids, parsed, unique⟩ := workspaceIds
    obtain ⟨after, again⟩ := normalizeWorkspaces_same results
      ⟨ids, parsed, unique, fun id member => List.not_mem_nil⟩ (fit others)
    rw [normalizeSavedState, reseeded]
    simp only [bind, Option.bind_some, again, pure, count]
    rw [Nat.min_assoc, Nat.min_self]
  · have sessions : AppState.sessions
        ⟨appStateSchemaVersion, results, min state.activeWs (seeds.length - 1)⟩ =
          (takeVisits parser [] (state.visits parser)).1 := by
      rw [← seeded.visits, walked.visited]
      rfl
    rw [sessions]
    exact dropsOnlyTaken_iff

def twoTexts : AppState where
  schemaVersion := 3
  workspaces := [{
    id := (Uuid.fromU128 1).display
    name := "Default"
    panels := [{
      id := (Uuid.fromU128 2).display
      runtimeSessionId := none
      leafRuntimeSessionIds := (SortedMap.empty.insert "0000000000000000000000000000000A"
        (Uuid.fromU128 3).display).insert "0000000000000000000000000000000a"
        (Uuid.fromU128 4).display }] }]
  activeWs := 0

def fourDraws : List Uuid := [7, 8, 9, 10].map Uuid.fromU128

theorem repairs_twoTexts : (normalizeSavedState .hex fourDraws twoTexts).isSome = true := by
  decide +kernel

theorem normalized_two_texts :
    ∃ result, normalizeSavedState .hex fourDraws twoTexts = some result ∧
      UniqueIdentities .hex result ∧ KeepsIdentities .hex twoTexts result ∧
      (∀ others, normalizeSavedState .hex others result = some result) ∧
      (DropsOnlyTaken .hex (twoTexts.visits .hex) result.sessions ↔
        ¬ SharesLeaf .hex (twoTexts.visits .hex)) :=
  normalized_layout .hex fourDraws twoTexts (by decide +kernel) (by decide +kernel)
    (by decide +kernel)

/-- The session under the first text is lost to the one under the second. -/
theorem first_text_loses_session :
    ∃ draws state result, draws.Nodup ∧
      (∀ id ∈ draws, id ≠ .nil ∧ id ∉ state.identifiers .hex) ∧
      state.workspaces.length + state.panels.length + 2 ≤ draws.length ∧
      normalizeSavedState .hex draws state = some result ∧
      ¬ DropsOnlyTaken .hex (state.visits .hex) result.sessions := by
  refine ⟨fourDraws, twoTexts, (normalizeSavedState .hex fourDraws twoTexts).get repairs_twoTexts,
    by decide +kernel, by decide +kernel, by decide +kernel, by decide +kernel, ?_⟩
  have sessions :
      ((normalizeSavedState .hex fourDraws twoTexts).get repairs_twoTexts).sessions =
      (takeVisits .hex [] (twoTexts.visits .hex)).1 := by decide +kernel
  rw [sessions, dropsOnlyTaken_iff, not_not]
  -- both entries are the first use of their runtime
  refine ⟨[], _, [], [], ("0000000000000000000000000000000A", (Uuid.fromU128 3).display), [],
    ("0000000000000000000000000000000a", (Uuid.fromU128 4).display), [], Uuid.fromU128 10,
    Uuid.fromU128 3, Uuid.fromU128 4, rfl, by decide +kernel, by decide +kernel,
    by decide +kernel, by decide +kernel, ⟨?_, ?_⟩, ?_, ?_⟩
  all_goals decide +kernel

end Repaired

end TerminalCanvas.Layout
