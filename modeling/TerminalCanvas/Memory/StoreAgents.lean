import TerminalCanvas.Memory.StoreRuns

/-! # What agents can do to the memory store

An agent writes candidates and withdraws candidates. Only a human activates: by an
approval of a candidate, or by a memory of their own. -/

namespace TerminalCanvas.Memory.Store

open TerminalCanvas.Transaction TerminalCanvas.Execution

/-- An operation on behalf of an agent, or one that has no actor and writes no memory. -/
def Input.ByAgent : Input → Prop
  | .remember request _ _ => request.actor.isHuman = false
  | .propose _ _ _ => True
  | .approve _ actor _ => actor.isHuman = false
  | .reject _ actor _ => actor.isHuman = false
  | .forget _ actor _ => actor.isHuman = false
  | .linkProjects _ _ _ => False
  | _ => True

/-- A candidate is added, or gives way to a new one. -/
inductive AgentWrite (before : Tables) (row : MemoryRecord) : Prop
  | added (absent : before.memories.find row.id = none) (candidate : row.status = .candidate)
  | replaced {old : MemoryRecord} (found : before.memories.find row.id = some old)
      (candidate : old.status = .candidate) (superseded : row.status = .superseded)

section Runs

variable {policy : Policy} {tables start after : Tables} {input : Input}

theorem MayDecide.agent {actor : Actor} {status : MemoryStatus} (decides : MayDecide actor status)
    (agent : actor.isHuman = false) : status = .candidate := by
  rcases decides with candidate | ⟨_, human⟩
  · exact candidate
  · rw [agent] at human
    cases human

theorem MayRemember.agent {actor : Actor} {content : String} {row : MemoryRecord}
    (may : MayRemember actor content tables row) (agent : actor.isHuman = false) :
    AgentWrite tables row := by
  cases may with
  | fresh absent _ _ decides => exact .added absent (decides.agent agent)
  | supersedes found superseded decides => exact .replaced found (decides.agent agent) superseded

theorem proposed_agent (request : RememberRequest) :
    (proposed request).actor.isHuman = false := by
  rw [proposed]
  split
  · rfl
  · next agent => simpa using agent

theorem Input.MayWrite.agent {row : MemoryRecord} (byAgent : input.ByAgent)
    (may : input.MayWrite policy tables row) : AgentWrite tables row := by
  have decision : ∀ {actor : Actor} {Allowed : Prop}, actor.isHuman = false →
      ¬ (actor.isHuman = true ∧ Allowed) := by
    intro actor Allowed agent allowed
    rw [agent] at allowed
    exact absurd allowed.1 Bool.false_ne_true
  cases input with
  | remember request location world => exact MayRemember.agent may byAgent
  | propose request location world => exact MayRemember.agent may (proposed_agent request)
  | approve memoryId actor world => exact absurd may (decision byAgent)
  | reject memoryId actor world => exact absurd may (decision byAgent)
  | forget memoryId actor world => exact absurd may (decision byAgent)
  | linkProjects left right world => exact byAgent.elim
  | resolveProject location world => exact may.elim
  | createHandoff request location validated world => exact may.elim
  | visit location orchestratorTaskId validated world => exact may.elim

/-- Active memories, their revisions and the index are the same; what else is there was
added or replaced as a candidate. -/
structure SameActive (before after : Tables) : Prop where
  active : ∀ id row, row.status = .active →
    (after.memories.find id = some row ↔ before.memories.find id = some row)
  fts : after.fts = before.fts
  revisions : ∀ id row, before.memories.find id = some row → row.status = .active →
    ∀ revisionId revision, revision.memoryId = id →
      (after.revisions.find revisionId = some revision ↔
        before.revisions.find revisionId = some revision)
  changes : ∀ id row, after.memories.find id = some row → before.memories.find id = some row ∨
    (row.status = .candidate ∧ before.memories.find id = none) ∨
    (row.status = .superseded ∧ ∀ old, before.memories.find id = some old →
      old.status = .candidate)
  kept : ∀ id, after.memories.find id = none → before.memories.find id = none

theorem SameActive.refl (tables : Tables) : SameActive tables tables where
  active _ _ _ := Iff.rfl
  fts := rfl
  revisions _ _ _ _ _ _ _ := Iff.rfl
  changes _ _ found := .inl found
  kept _ absent := absent

theorem SameActive.trans {middle : Tables} (first : SameActive start middle)
    (second : SameActive middle after) : SameActive start after where
  active id row isActive := (second.active id row isActive).trans (first.active id row isActive)
  fts := second.fts.trans first.fts
  revisions id row found isActive revisionId revision own :=
    (second.revisions id row ((first.active id row isActive).mpr found) isActive revisionId
      revision own).trans (first.revisions id row found isActive revisionId revision own)
  changes := by
    intro id row found
    rcases second.changes id row found with same | ⟨candidate, absent⟩ | ⟨superseded, was⟩
    · exact first.changes id row same
    · exact .inr (.inl ⟨candidate, first.kept id absent⟩)
    · refine .inr (.inr ⟨superseded, ?_⟩)
      intro old before
      cases between : middle.memories.find id with
      | none =>
          rw [first.kept id between] at before
          cases before
      | some row =>
          have candidate := was row between
          rcases first.changes id row between with same | ⟨_, absent⟩ | ⟨other, _⟩
          · rw [before] at same
            cases same
            exact candidate
          · rw [before] at absent
            cases absent
          · rw [candidate] at other
            cases other
  kept id absent := first.kept id (second.kept id absent)

theorem Stored.sameActive {row : MemoryRecord} {logged : Bool} (consistent : Consistent start)
    (stored : Stored start after row logged) (write : AgentWrite start row) :
    SameActive start after := by
  have inactive : row.status ≠ .active := by
    cases write with
    | added _ candidate =>
        rw [candidate]
        nofun
    | replaced _ _ superseded =>
        rw [superseded]
        nofun
  have wasInactive : ∀ old, start.memories.find row.id = some old → old.status ≠ .active := by
    intro old found
    cases write with
    | added absent _ =>
        rw [absent] at found
        cases found
    | replaced found' candidate _ =>
        rw [found'] at found
        cases found
        rw [candidate]
        nofun
  refine ⟨?_, ?_, ?_, ?_, ?_⟩
  · intro id other active
    rw [stored.memories, Table.find_put]
    split
    · next own =>
        constructor
        · rintro ⟨⟩
          exact absurd active inactive
        · intro found
          exact absurd active (wasInactive other (own ▸ found))
    · exact Iff.rfl
  · have index := stored.index
    revert index
    generalize after.fts = fts
    intro index
    cases index with
    | dropped _ =>
        apply List.filter_eq_self.mpr
        intro entry member
        obtain ⟨old, found, active, rfl⟩ := (consistent.indexed.rows entry).mp member
        rw [decide_eq_true_eq]
        intro own
        rw [own] at found
        exact wasInactive old found active
    | replaced active => exact absurd active inactive
    | kept _ _ => rfl
  · intro id other found active revisionId revision own
    have revisions := stored.revisions
    split at revisions
    · obtain ⟨fresh, written, unused, logs, equal⟩ := revisions
      rw [equal, Table.find_put]
      split
      · next same =>
          have apart : revision.memoryId ≠ row.id := by
            rw [own]
            intro same
            exact wasInactive other (same ▸ found) active
          constructor
          · rintro ⟨⟩
            exact absurd logs.memoryId apart
          · intro present
            rw [same, unused] at present
            cases present
      · exact Iff.rfl
    · rw [revisions]
  · intro id other found
    rw [stored.memories, Table.find_put] at found
    split at found
    · next own =>
        cases found
        subst own
        cases write with
        | added absent candidate => exact .inr (.inl ⟨candidate, absent⟩)
        | replaced present candidate superseded =>
            refine .inr (.inr ⟨superseded, ?_⟩)
            intro old before
            rw [present] at before
            cases before
            exact candidate
    · exact .inl found
  · intro id absent
    rw [stored.memories, Table.find_put] at absent
    split at absent
    · cases absent
    · exact absent

theorem Stores.sameActive (made : Stores AgentWrite start after) (consistent : Consistent start) :
    SameActive start after := by
  refine (made.induct (SameActive start) ?_ ?_ consistent (.refl start)).2
  · intro middle last same so
    refine so.trans ⟨?_, same.fts, ?_, ?_, ?_⟩
    · intro id row _
      rw [same.memories]
    · intro id row _ _ revisionId revision _
      rw [same.revisions]
    · intro id row found
      exact .inl (same.memories ▸ found)
    · intro id absent
      exact same.memories ▸ absent
  · intro middle last row logged consistent stored _ write so
    exact so.trans (stored.sameActive consistent write)

/-! ## Activation -/

inductive Activated (policy : Policy) (before : Tables) (input : Input) (id : String)
    (row : MemoryRecord) : Prop
  /-- It was, and only its scope and revision may be others. -/
  | already {old : MemoryRecord} (found : before.memories.find id = some old)
      (active : old.status = .active) (same : SameText old row)
  | approved {old : MemoryRecord} {actor : Actor} {world : World}
      (asked : input = .approve id actor world) (human : actor.isHuman = true)
      (found : before.memories.find id = some old) (candidate : old.status = .candidate)
      (same : SameText old row)
  | remembered {request : RememberRequest} {location : ResolvedLocation} {world : World}
      (asked : input = .remember request location world) (human : request.actor.isHuman = true)
      (absent : before.memories.find id = none) (trust : row.trustClass = .owner)
      (content : row.content = policy.prepareContent request.content)

/-- A memory that is active behind some writes was active before, or comes from a write
that activates. -/
theorem Stores.activation {Allowed : Tables → MemoryRecord → Prop}
    {Fresh : MemoryRecord → Prop} {Chosen : String → Prop}
    (made : Stores Allowed start after) (consistent : Consistent start)
    (texts : ∀ old row, SameText old row → Fresh old → Fresh row)
    (allows : ∀ before row, Allowed before row → row.status = .active →
      (before.memories.find row.id = none ∧ Fresh row) ∨
      ∃ old, before.memories.find row.id = some old ∧ SameText old row ∧
        (old.status = .active ∨ Chosen row.id ∧ old.status = .candidate))
    (candidates : ∀ before row, Allowed before row → Chosen row.id → row.status ≠ .candidate) :
    ∀ id row, after.memories.find id = some row → row.status = .active →
      (start.memories.find id = none ∧ Fresh row) ∨
        ∃ old, start.memories.find id = some old ∧ SameText old row ∧
          (old.status = .active ∨ Chosen id ∧ old.status = .candidate) := by
  have property := made.induct (fun middle =>
    (∀ id row, middle.memories.find id = some row → row.status = .active →
      (start.memories.find id = none ∧ Fresh row) ∨
        ∃ old, start.memories.find id = some old ∧ SameText old row ∧
          (old.status = .active ∨ Chosen id ∧ old.status = .candidate)) ∧
    (∀ id row, middle.memories.find id = some row → row.status = .candidate → Chosen id →
      ∃ old, start.memories.find id = some old ∧ SameText old row ∧ old.status = .candidate) ∧
    ∀ id, middle.memories.find id = none → start.memories.find id = none) ?_ ?_ consistent ?_
  · exact property.2.1
  · intro middle last same
    rw [same.memories]
    exact fun holds => holds
  · intro middle last row logged _ stored _ allowed ⟨actives, chosen, kept⟩
    refine ⟨?_, ?_, ?_⟩
    · intro id other found active
      rw [stored.memories, Table.find_put] at found
      split at found
      · next own =>
          cases found
          subst own
          rcases allows middle row allowed active with ⟨absent, fresh⟩ | ⟨old, present, text, was⟩
          · exact .inl ⟨kept row.id absent, fresh⟩
          rcases was with was | ⟨isChosen, was⟩
          · rcases actives row.id old present was with ⟨absent, fresh⟩ | ⟨first, before, text', at_⟩
            · exact .inl ⟨absent, texts old row text fresh⟩
            · exact .inr ⟨first, before, text'.trans text, at_⟩
          · obtain ⟨first, before, text', candidate⟩ := chosen row.id old present was isChosen
            exact .inr ⟨first, before, text'.trans text, .inr ⟨isChosen, candidate⟩⟩
      · exact actives id other found active
    · intro id other found candidate isChosen
      rw [stored.memories, Table.find_put] at found
      split at found
      · next own =>
          cases found
          subst own
          exact absurd candidate (candidates middle row allowed isChosen)
      · exact chosen id other found candidate isChosen
    · intro id absent
      rw [stored.memories, Table.find_put] at absent
      split at absent
      · cases absent
      · exact kept id absent
  · exact ⟨fun id row found active => .inr ⟨row, found, .refl row, .inl active⟩,
      fun id row found candidate _ => ⟨row, found, .refl row, candidate⟩, fun _ absent => absent⟩

theorem Stores.inactive {Allowed : Tables → MemoryRecord → Prop}
    (made : Stores Allowed start after) (consistent : Consistent start)
    (allows : ∀ before row, Allowed before row → row.status = .active →
      ∃ old, before.memories.find row.id = some old ∧ SameText old row ∧ old.status = .active)
    (id : String) (row : MemoryRecord) (found : after.memories.find id = some row)
    (active : row.status = .active) : Activated policy start input id row := by
  have origin := @Stores.activation start after Allowed (fun _ => False) (fun _ => False) made
    consistent (fun _ _ _ never => never) (fun before row allowed active => by
      obtain ⟨old, present, text, was⟩ := allows before row allowed active
      exact .inr ⟨old, present, text, .inl was⟩) (fun _ _ _ never => never.elim) id row found active
  rcases origin with ⟨_, never⟩ | ⟨old, before, text, was | ⟨never, _⟩⟩
  · exact never.elim
  · exact .already before was text
  · exact never.elim

theorem Actor.trust_human {actor : Actor} (human : actor.isHuman = true) :
    actor.trust = .owner := by
  rw [Actor.trust, if_pos human]

theorem remember_activation {actor : Actor} {content : String}
    (made : Stores (MayRemember actor content) start after) (consistent : Consistent start)
    (id : String) (row : MemoryRecord) (found : after.memories.find id = some row)
    (active : row.status = .active) :
    (start.memories.find id = none ∧ actor.isHuman = true ∧ row.trustClass = .owner ∧
        row.content = content) ∨
      ∃ old, start.memories.find id = some old ∧ SameText old row ∧ old.status = .active := by
  have origin := @Stores.activation start after (MayRemember actor content)
    (fun row => actor.isHuman = true ∧ row.trustClass = .owner ∧ row.content = content)
    (fun _ => False) made consistent ?_ ?_ (fun _ _ _ never => never.elim) id row found active
  · rcases origin with fresh | ⟨old, before, text, was | ⟨never, _⟩⟩
    · exact .inl fresh
    · exact .inr ⟨old, before, text, was⟩
    · exact never.elim
  · intro old row text ⟨human, trust, contentIs⟩
    exact ⟨human, text.trustClass.trans trust, text.content.trans contentIs⟩
  · intro before row allowed active
    cases allowed with
    | fresh absent trust contentIs decides =>
        rcases decides with candidate | ⟨_, human⟩
        · rw [active] at candidate
          cases candidate
        · exact .inl ⟨absent, human, trust.trans (Actor.trust_human human), contentIs⟩
    | supersedes _ superseded _ =>
        rw [active] at superseded
        cases superseded

/-- Every memory that is active behind an input was active before it, unless a human
approved or remembered it. -/
theorem step_activation (sound : Sound tables) (undrawn : Undrawn tables input) {id : String}
    {row : MemoryRecord} (found : ((machine policy).next tables input).memories.find id = some row)
    (active : row.status = .active) : Activated policy tables input id row := by
  have made := (@step_writes policy _ _ sound undrawn).1
  have consistent := sound.consistent
  cases input with
  | remember request location world =>
      rcases remember_activation made consistent id row found active with
        ⟨absent, human, trust, content⟩ | ⟨old, before, text, was⟩
      · exact .remembered rfl human absent trust content
      · exact .already before was text
  | propose request location world =>
      rcases remember_activation made consistent id row found active with
        ⟨_, human, _, _⟩ | ⟨old, before, text, was⟩
      · rw [proposed_agent request] at human
        cases human
      · exact .already before was text
  | approve memoryId actor world =>
      have origin := @Stores.activation tables _ _ (fun _ => False)
        (fun id => id = memoryId ∧ actor.isHuman = true) made consistent
        (fun _ _ _ never => never) ?_ ?_ id row found active
      · rcases origin with ⟨_, never⟩ | ⟨old, before, text, was | ⟨⟨own, human⟩, candidate⟩⟩
        · exact never.elim
        · exact .already before was text
        · subst own
          exact .approved rfl human before candidate text
      · rintro before row ⟨human, may⟩ active
        cases may with
        | supersedes _ superseded =>
            rw [active] at superseded
            cases superseded
        | approves found own candidate _ same =>
            exact .inr ⟨_, found, same, .inr ⟨⟨own, human⟩, candidate⟩⟩
      · rintro before row ⟨_, may⟩ _ candidate
        cases may with
        | supersedes _ superseded =>
            rw [candidate] at superseded
            cases superseded
        | approves _ _ _ active _ =>
            rw [candidate] at active
            cases active
  | reject memoryId actor world =>
      refine made.inactive consistent ?_ id row found active
      rintro before row ⟨_, _, withdrawn⟩ active
      rw [active] at withdrawn
      cases withdrawn
  | forget memoryId actor world =>
      refine made.inactive consistent ?_ id row found active
      rintro before row ⟨_, _, withdrawn⟩ active
      rw [active] at withdrawn
      cases withdrawn
  | linkProjects left right world =>
      refine made.inactive consistent ?_ id row found active
      rintro before row ⟨present, text, same | ⟨_, candidate⟩⟩ active
      · exact ⟨_, present, text, same.symm.trans active⟩
      · rw [active] at candidate
        cases candidate
  | resolveProject location world =>
      exact made.inactive consistent (fun _ _ never => never.elim) id row found active
  | createHandoff request location validated world =>
      exact made.inactive consistent (fun _ _ never => never.elim) id row found active
  | visit location orchestratorTaskId validated world =>
      exact made.inactive consistent (fun _ _ never => never.elim) id row found active

/-- Agents leave the active memories of every reachable store, their revisions and their
rows of the index as they are: they add candidates and replace candidates. What becomes
active in any run was approved, or remembered, by a human. -/
theorem agents_cannot_activate (policy : Policy) (before inputs : List Input)
    (fresh : (machine policy).Admits Undrawn .empty (before ++ inputs)) :
    ((∀ input ∈ inputs, input.ByAgent) →
      SameActive ((machine policy).run .empty before)
        ((machine policy).run .empty (before ++ inputs))) ∧
    ∀ tables input, (tables, input) ∈ (machine policy).trace .empty (before ++ inputs) →
      ∀ id row, ((machine policy).next tables input).memories.find id = some row →
        row.status = .active → Activated policy tables input id row := by
  refine ⟨?_, ?_⟩
  · intro agents
    obtain ⟨freshBefore, freshInputs⟩ := (machine policy).admits_append.mp fresh
    rw [(machine policy).run_append]
    have sound := run_sound freshBefore .empty
    clear fresh freshBefore
    generalize (machine policy).run .empty before = tables at sound freshInputs
    induction inputs generalizing tables with
    | nil => exact .refl tables
    | cons input inputs induction =>
        obtain ⟨undrawn, freshRest⟩ := (machine policy).admits_cons.mp freshInputs
        have made := (@step_writes policy _ _ sound undrawn).1.mono fun _ _ =>
          Input.MayWrite.agent (agents input List.mem_cons_self)
        refine (made.sameActive sound.consistent).trans ?_
        exact induction (fun later member => agents later (List.mem_cons_of_mem _ member)) _
          (next_sound undrawn sound) freshRest
  · intro tables input member id row found active
    have admitted := fresh tables input member
    obtain ⟨first, rest, equal, rfl⟩ := (machine policy).mem_trace_iff.mp member
    rw [equal] at fresh
    have sound := run_sound ((machine policy).admits_append.mp fresh).1 .empty
    exact step_activation sound admitted found active

end Runs

namespace Sample

/-- An agent proposes another content for the key of an approved memory. -/
def rival : Input := .propose clangFormat location (world 3)

theorem rival_fresh : (machine policy).Admits Undrawn .empty (approval ++ [rival]) := by
  have absent : ((machine policy).run .empty approval).memories.find (memoryId 3) = none := by
    decide +kernel
  rw [(machine policy).admits_append, (machine policy).admits_cons]
  refine ⟨approval_fresh, ?_, (machine policy).admits_nil _⟩
  generalize (machine policy).run .empty approval = tables at absent
  exact fun _ => absent

end Sample

theorem agents_cannot_activate_rival :
    ((((machine Sample.policy).run .empty (Sample.approval ++ [Sample.rival])).memories.find
      (Sample.memoryId 3)).map (·.status) = some .candidate) ∧
    SameActive ((machine Sample.policy).run .empty Sample.approval)
      ((machine Sample.policy).run .empty (Sample.approval ++ [Sample.rival])) :=
  ⟨by decide +kernel, (agents_cannot_activate Sample.policy Sample.approval [Sample.rival]
    Sample.rival_fresh).1 (by
      intro input member
      rw [List.mem_singleton.mp member]
      exact trivial)⟩

end TerminalCanvas.Memory.Store
