import TerminalCanvas.Memory.ProjectForest

/-! # Linking is a union that loses nothing

Runs of the store keep the forest of linked projects, and every link moves what the
absorbed project has to the other one. -/

namespace TerminalCanvas.Memory.Store

open Relation
open TerminalCanvas.Transaction TerminalCanvas.Execution TerminalCanvas.Forest

/-- The identities whose link has succeeded so far. -/
def linksMade (seen : List (Identity × Identity)) : Input → Observation →
    List (Identity × Identity)
  | .linkProjects left right _, .resolved (.ok _) => (identityAt left, identityAt right) :: seen
  | _, _ => seen

section Runs

variable {policy : Policy} {tables : Tables} {input : Input}
variable {requests : List (Identity × Identity)} {left right : ResolvedLocation} {world : World}

theorem charted_stable (requests : List (Identity × Identity)) :
    Stable fun tables => Charted requests tables.projects where
  projects seen charted := seen.charted charted
  tasks _ charted := charted
  memories charted := charted
  revisions charted := charted
  fts charted := charted
  handoffs charted := charted

theorem link_outcome (sound : Sound tables) :
    (∃ project, (machine policy).observe tables (.linkProjects left right world) =
        .resolved (.ok project) ∧
      Linked left right tables ((machine policy).next tables (.linkProjects left right world))
        project ∧
      Consistent ((machine policy).next tables (.linkProjects left right world))) ∨
    ∃ error, (machine policy).observe tables (.linkProjects left right world) =
        .resolved (.error error) ∧
      (machine policy).next tables (.linkProjects left right world) = tables := by
  have ensures := @linkInner_ensures ⟨tables, world.environment, 0, 0⟩ left right
    sound.consistent sound.bound
  simp only [Machine.next, Machine.observe, machine, step, answer, transact]
  rcases @Ensures.immediate _ _ _ _ _ _ _ (if world.commits then .ok () else .error .busy) ensures
    with ⟨project, succeeds, makes, _, linked⟩ | ⟨error, fails, unchanged, _⟩
  · exact .inl ⟨project, by rw [succeeds], linked, makes.stores.consistent sound.consistent⟩
  · exact .inr ⟨error, by rw [fails], by rw [unchanged]⟩

theorem next_charted (sound : Sound tables) (charted : Charted requests tables.projects) :
    Charted (linksMade requests input ((machine policy).observe tables input))
      ((machine policy).next tables input).projects := by
  have stable := charted_stable requests
  by_cases link : ∃ left right world, input = .linkProjects left right world
  · obtain ⟨left, right, world, rfl⟩ := link
    rcases @link_outcome policy tables left right world sound with
      ⟨project, observed, linked, _⟩ | ⟨error, observed, unchanged⟩
    · rw [observed]
      exact linked.charted charted
    · rw [observed, unchanged]
      exact charted
  · have unlinked : linksMade requests input ((machine policy).observe tables input) =
        requests := by
      cases input with
      | linkProjects left right world => exact absurd ⟨left, right, world, rfl⟩ link
      | _ => rfl
    rw [unlinked]
    refine step_keeps stable
      (fun _ _ _ _ => remember_keeps stable (fun charted => charted) charted _ _ _ _)
      (fun _ _ _ _ => remember_keeps stable (fun charted => charted) charted _ _ _ _) ?_ charted
    intro left right world linked
    exact absurd ⟨left, right, world, linked⟩ link

theorem run_charted {inputs : List Input} (fresh : (machine policy).Admits Undrawn .empty inputs) :
    Charted ((machine policy).monitor linksMade [] .empty inputs)
      ((machine policy).run .empty inputs).projects :=
  (fresh.monitor_invariant _ linksMade
    (fun tables requests => Sound tables ∧ Charted requests tables.projects)
    (fun _ _ _ undrawn related => ⟨next_sound undrawn related.1,
      next_charted related.1 related.2⟩) ⟨.empty, .empty⟩).2

end Runs

/-! ## One link -/

/-- What two linked projects had is what one of them has. -/
structure Merged (source target : String) (before after : Tables) : Prop where
  /-- Where the tasks of the absorbed project are. -/
  absorbed : ∃ home, Absorbed source target home before after ∧
    -- of two active memories with one key, the one of the other project stays as it is
    ∀ id other row stored, before.memories.find id = some row →
      before.memories.find other = some stored → row.status = .active → stored.status = .active →
      BelongsTo before.tasks source row → ¬ BelongsTo before.tasks source stored →
      HasKey row.scopeKind (absorbedScope source target home row.scopeKind row.scopeId)
        row.stableKey stored →
      after.memories.find other = some stored ∧
        ∃ candidate, after.memories.find id = some candidate ∧ SameText row candidate ∧
          candidate.scopeId = stored.scopeId ∧ candidate.status = .candidate
  memories : ∀ id row, after.memories.find id = some row → ¬ BelongsTo after.tasks source row
  tasks : ∀ id task, after.tasks.find id = some task → task.projectId ≠ source
  handoffs : ∀ id handoff, after.handoffs.find id = some handoff → handoff.projectId ≠ source

theorem Absorbed.merged {source target : String} {home : String → String} {before after : Tables}
    (absorbed : Absorbed source target home before after) (distinct : source ≠ target)
    (consistent : Consistent after) : Merged source target before after where
  absorbed := by
    refine ⟨home, absorbed, ?_⟩
    intro id other row stored found present active alsoActive own foreign ⟨kind, scope, key⟩
    have stays := absorbed.untouched other stored present foreign
    obtain ⟨moved, stands, text, place, status⟩ := absorbed.memories.kept id row found
    refine ⟨stays, moved, stands, text, place.trans scope.symm, ?_⟩
    rcases status with same | ⟨_, candidate, _⟩
    · -- both were active under one key
      have one : id = other := by
        refine consistent.activeKeys id other moved stored stands stays (same.trans active)
          alsoActive (sameKey_iff.mpr ⟨?_, place.trans scope.symm, ?_⟩)
        · exact text.scopeKind.trans kind.symm
        · exact text.stableKey.trans key.symm
      rw [one, present] at found
      cases found
      exact absurd own foreign
    · exact candidate
  memories := by
    rintro id row found (⟨kind, scope⟩ | ⟨_, task, present, own⟩)
    · cases was : before.memories.find id with
      | none =>
          rw [absorbed.memories.nothingNew id was] at found
          cases found
      | some old =>
          obtain ⟨moved, stands, text, place, _⟩ := absorbed.memories.kept id old was
          rw [found] at stands
          cases stands
          rw [scope, text.scopeKind.symm.trans kind, absorbedScope] at place
          split at place
          · exact distinct place
          · next other => exact other place.symm
    · exact absorbed.tasksLeft row.scopeId task present own
  tasks := absorbed.tasksLeft
  handoffs := by
    intro id handoff found own
    rw [absorbed.handoffs id] at found
    obtain ⟨old, _, rfl⟩ := Option.map_eq_some_iff.mp found
    rw [readdress] at own
    simp only at own
    split at own
    · exact distinct own.symm
    · next other => exact other own

/-- What a successful link of two locations does. Their projects are resolved, and unless
they already are one, the canonical project of the second one is merged into that of the
first one. -/
structure LinkMerges (left right : ResolvedLocation) (before after : Tables) : Prop where
  merges : ∃ (a b : ResolvedProject) (projects : Table String ProjectRow),
    identityOf projects a.id = some (identityAt left) ∧
    identityOf projects b.id = some (identityAt right) ∧
    RootOf (linkOf projects) a.id a.canonicalId ∧ RootOf (linkOf projects) b.id b.canonicalId ∧
    (a.canonicalId = b.canonicalId ∧ after = { before with projects := projects } ∨
      a.canonicalId ≠ b.canonicalId ∧
        Merged b.canonicalId a.canonicalId { before with projects := projects } after)

theorem Linked.merges {left right : ResolvedLocation} {before after : Tables}
    {project : ResolvedProject} {requests : List (Identity × Identity)}
    (linked : Linked left right before after project)
    (charted : Charted requests before.projects) (consistent : Consistent after) :
    LinkMerges left right before after := by
  obtain ⟨a, b, first, second, seenLeft, loadedLeft, seenRight, loadedRight, united, _⟩ :=
    linked.unites
  have chartedLeft := seenLeft.charted charted
  have chartedRight := seenRight.charted chartedLeft
  refine ⟨a, b, second, seenRight.grows seenLeft.identityOf_self, seenRight.identityOf_self,
    ?_, canonical_rootOf chartedRight loadedRight, ?_⟩
  · rw [seenRight.linkOf]
    exact canonical_rootOf chartedLeft loadedLeft
  · cases united with
    | already same unchanged => exact .inl ⟨same.symm, unchanged⟩
    | absorbed distinct absorbed _ =>
        exact .inr ⟨Ne.symm distinct, absorbed.merged distinct consistent⟩

/-- In every run whose identifiers are fresh, the links of the projects have no cycle and
lead from every project to one root, which is its canonical project; two projects have
the same root exactly when successful requests connect them; and a link merges what two
projects have without losing any of it. -/
theorem linking_is_union (policy : Policy) (inputs : List Input)
    (fresh : (machine policy).Admits Undrawn .empty inputs) :
    (∀ id, ¬ TransGen (Links (linkOf ((machine policy).run .empty inputs).projects)) id id) ∧
    (∀ id, ∃ root, RootOf (linkOf ((machine policy).run .empty inputs).projects) id root ∧
      ∀ other, RootOf (linkOf ((machine policy).run .empty inputs).projects) id other →
        other = root) ∧
    (∀ id project, loadProject ((machine policy).run .empty inputs).projects id = some project →
      RootOf (linkOf ((machine policy).run .empty inputs).projects) id project.canonicalId) ∧
    (∀ id other, SameRoot (linkOf ((machine policy).run .empty inputs).projects) id other ↔
      EqvGen (Requested ((machine policy).monitor linksMade [] .empty inputs)
        ((machine policy).run .empty inputs).projects) id other) ∧
    ∀ left right world project,
      (machine policy).observe ((machine policy).run .empty inputs)
        (.linkProjects left right world) = .resolved (.ok project) →
      LinkMerges left right ((machine policy).run .empty inputs)
        ((machine policy).next ((machine policy).run .empty inputs)
          (.linkProjects left right world)) := by
  have charted := run_charted fresh
  have sound := run_sound fresh .empty
  generalize (machine policy).run .empty inputs = tables at charted sound ⊢
  refine ⟨charted.grounded.acyclic, ?_, ?_, charted.classes, ?_⟩
  · intro id
    obtain ⟨root, rootOf⟩ := charted.grounded id
    exact ⟨root, rootOf, fun other otherRoot => otherRoot.unique rootOf⟩
  · intro id project loaded
    exact canonical_rootOf charted loaded
  · intro left right world project observed
    rcases @link_outcome policy tables left right world sound with
      ⟨found, _, linked, consistent⟩ | ⟨error, failed, _⟩
    · exact linked.merges charted consistent
    · rw [failed] at observed
      cases observed

namespace Sample

def worktree : ResolvedLocation := ⟨"/worktree", .workspaceRoot, "/worktree", none, none⟩

/-- A project with a proposal is linked to a new one. -/
def linking : List Input :=
  [.propose rustfmt location (world 1), .linkProjects worktree location (world 2)]

theorem linking_fresh : (machine policy).Admits Undrawn .empty linking := by
  refine (machine policy).admits_cons.mpr ⟨fun _ => rfl, ?_⟩
  refine (machine policy).admits_cons.mpr ⟨fun _ => ?_, (machine policy).admits_nil _⟩
  change ((machine policy).next .empty (.propose rustfmt location (world 1))).memories.find
    (memoryId 2) = none
  decide +kernel

end Sample

theorem linking_is_union_linked :
    (((machine Sample.policy).run .empty Sample.linking).memories.find
      (Sample.memoryId 1)).map (·.scopeId) = some (prefixedId "prj_" (Uuid.fromU128 2)) ∧
    ∀ id other, SameRoot (linkOf ((machine Sample.policy).run .empty Sample.linking).projects)
      id other ↔
        EqvGen (Requested ((machine Sample.policy).monitor linksMade [] .empty Sample.linking)
          ((machine Sample.policy).run .empty Sample.linking).projects) id other :=
  ⟨by decide +kernel,
    (linking_is_union Sample.policy Sample.linking Sample.linking_fresh).2.2.2.1⟩

end TerminalCanvas.Memory.Store
