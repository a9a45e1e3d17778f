import TerminalCanvas.Memory.StoreFrames
import TerminalCanvas.Memory.StoreLinks

/-! # Runs of the memory store

What every input may write, and the facts about keys, index and revisions that every
run keeps. -/

namespace TerminalCanvas.Memory.Store

open TerminalCanvas.Transaction TerminalCanvas.Execution

/-! ## One input -/

def Input.world : Input → World
  | .remember _ _ world => world
  | .propose _ _ world => world
  | .approve _ _ world => world
  | .reject _ _ world => world
  | .forget _ _ world => world
  | .linkProjects _ _ world => world
  | .resolveProject _ world => world
  | .createHandoff _ _ _ world => world
  | .visit _ _ _ world => world

def failureOf {Answer : Type} : Except StoreError Answer → Option StoreError
  | .error error => some error
  | .ok _ => none

theorem failureOf_eq_some {Answer : Type} {result : Except StoreError Answer}
    {error : StoreError} : failureOf result = some error ↔ result = .error error := by
  cases result <;> simp [failureOf]

/-- The error an input is answered with. -/
def Observation.failure : Observation → Option StoreError
  | .remembered result => failureOf result
  | .decided result => failureOf result
  | .resolved result => failureOf result
  | .handedOff result => failureOf result
  | .visited result => failureOf result

def Input.MayWrite (policy : Policy) : Input → Tables → MemoryRecord → Prop
  | .remember request _ _ => MayRemember request.actor (policy.prepareContent request.content)
  | .propose request _ _ =>
      MayRemember (proposed request).actor (policy.prepareContent request.content)
  | .approve memoryId actor _ => fun before row =>
      actor.isHuman = true ∧ MayApprove memoryId before row
  | .reject _ actor _ => fun before row =>
      actor.isHuman = true ∧ MayWithdraw .rejected before row
  | .forget _ actor _ => fun before row =>
      actor.isHuman = true ∧ MayWithdraw .tombstoned before row
  | .linkProjects _ _ _ => MayMove
  | _ => fun _ _ => False

/-- The identifiers that an input may draw for a memory name none yet. -/
def Undrawn (tables : Tables) (input : Input) : Prop :=
  MemoryUndrawn input.world.environment tables.memories

/-- What holds between two inputs. -/
structure Sound (tables : Tables) : Prop where
  consistent : Consistent tables
  bound : TasksBound tables.tasks

theorem Sound.empty : Sound .empty where
  consistent := .empty
  bound := by
    intro id row orchestrator found
    simp [Tables.empty] at found

theorem tasksBound_stable : Stable fun tables => TasksBound tables.tasks where
  projects _ bound := bound
  tasks := by
    intro tables projectId location orchestrator id after seen bound
    cases seen with
    | again => exact bound
    | first absent =>
        intro other row bindsTo found bound'
        rw [Table.find_put] at found
        split at found
        · rw [← Option.some.inj found] at bound' ⊢
          obtain ⟨known, rfl, text⟩ := Option.map_eq_some_iff.mp bound'
          rw [← text]
          rfl
        · exact bound other row bindsTo found bound'
  memories bound := bound
  revisions bound := bound
  fts bound := bound
  handoffs bound := bound

/-- What a transaction does that only makes allowed writes. -/
structure Writes {Answer : Type} (Allowed : Tables → MemoryRecord → Prop) (before : Tables)
    (outcome : Except StoreError Answer × Tables) : Prop where
  stores : Stores Allowed before outcome.2
  errors : ∀ error, outcome.1 = .error error → NoRevisionClash error

section Transactions

variable {Answer : Type} {Allowed : Tables → MemoryRecord → Prop} {body : Tx Answer}
variable {tables : Tables} {world : World}

theorem transact_writes {success : Answer → Work → Prop}
    (ensures : Ensures body ⟨tables, world.environment, 0, 0⟩ success NoRevisionClash)
    (stores : ∀ answer next, success answer next → Stores Allowed tables next.tables) :
    Writes Allowed tables (transact world body tables) := by
  rcases @Ensures.immediate _ _ _ _ _ _ _ (if world.commits then .ok () else .error .busy) ensures
    with ⟨answer, succeeds, made⟩ | ⟨error, fails, unchanged, cause⟩
  · refine ⟨stores answer _ made, ?_⟩
    intro error failed
    have equal := succeeds.symm.trans failed
    cases equal
  · refine ⟨?_, ?_⟩
    · change Stores Allowed tables (immediate _ body ⟨tables, world.environment, 0, 0⟩).2.tables
      rw [unchanged]
      exact .start
    · intro other failed
      cases fails.symm.trans failed
      rcases cause with clash | busy
      · exact clash
      · split at busy
        · cases busy
        · cases busy
          exact nofun

theorem asHuman_writes {actor : Actor} {operation : String} {success : Answer → Work → Prop}
    (ensures : Ensures body ⟨tables, world.environment, 0, 0⟩ success NoRevisionClash)
    (stores : ∀ answer next, success answer next → Stores Allowed tables next.tables) :
    Writes (fun before row => actor.isHuman = true ∧ Allowed before row) tables
      (asHuman actor operation world body tables) := by
  rw [asHuman]
  split
  · next human =>
      exact transact_writes ensures fun answer next made =>
        (stores answer next made).mono fun _ _ allowed => ⟨human, allowed⟩
  · refine ⟨.start, ?_⟩
    rintro error ⟨⟩
    exact fun clash => by cases clash

theorem remember_writes {policy : Policy} {request : RememberRequest}
    {location : ResolvedLocation} (consistent : Consistent tables)
    (undrawn : MemoryUndrawn world.environment tables.memories) :
    Writes (MayRemember request.actor (policy.prepareContent request.content)) tables
      (remember policy request location world tables) := by
  rw [remember]
  split
  · next error refused =>
      refine ⟨.start, ?_⟩
      rintro _ ⟨⟩
      rw [admitRequest] at refused
      split at refused
      · cases refused
        exact fun clash => by cases clash
      · split at refused
        · cases refused
          exact fun clash => by cases clash
        · split at refused
          · cases refused
            exact fun clash => by cases clash
          · cases refused
  · exact transact_writes (rememberOnce_ensures consistent undrawn) fun _ _ makes => makes.stores

end Transactions

section Runs

variable {policy : Policy} {tables : Tables} {input : Input}

theorem step_writes (sound : Sound tables) (undrawn : Undrawn tables input) :
    Stores (input.MayWrite policy) tables ((machine policy).next tables input) ∧
      ∀ error, ((machine policy).observe tables input).failure = some error →
        NoRevisionClash error := by
  have consistent := sound.consistent
  have reported : ∀ {Answer : Type} {Allowed : Tables → MemoryRecord → Prop}
      {outcome : Except StoreError Answer × Tables}, Writes Allowed tables outcome →
      Stores Allowed tables outcome.2 ∧
        ∀ error, failureOf outcome.1 = some error → NoRevisionClash error := by
    intro Answer Allowed outcome writes
    exact ⟨writes.stores, fun error failed => writes.errors error (failureOf_eq_some.mp failed)⟩
  have visits : ∀ {Answer : Type} {world : World} {body : Tx Answer},
      Ensures body ⟨tables, world.environment, 0, 0⟩
        (fun _ next => SameMemory tables next.tables) NoRevisionClash →
      Writes (fun _ _ => False) tables (transact world body tables) := by
    intro Answer world body ensures
    exact transact_writes ensures fun _ _ same => Stores.start.elsewhere same
  simp only [Machine.next, Machine.observe, machine]
  cases input with
  | remember request location world =>
      simp only [step, answer, Observation.failure]
      exact reported (remember_writes consistent undrawn)
  | propose request location world =>
      have content : (proposed request).content = request.content := by
        rw [proposed]
        split <;> rfl
      have writes := @remember_writes tables world policy (proposed request) location consistent
        undrawn
      rw [content] at writes
      simp only [step, answer, Observation.failure]
      exact reported writes
  | approve memoryId actor world =>
      simp only [step, answer, Observation.failure]
      exact reported (asHuman_writes (approveInner_ensures consistent) fun _ _ makes =>
        makes.stores)
  | reject memoryId actor world =>
      simp only [step, answer, Observation.failure]
      exact reported (asHuman_writes
        (setStatus_ensures consistent (by simp) (.inr ⟨.candidate, rfl, (by simp)⟩)) fun _ _ makes =>
        makes.stores)
  | forget memoryId actor world =>
      simp only [step, answer, Observation.failure]
      exact reported (asHuman_writes (setStatus_ensures consistent (by simp) (.inl rfl))
        fun _ _ makes => makes.stores)
  | linkProjects left right world =>
      simp only [step, answer, Observation.failure]
      exact reported (transact_writes (linkInner_ensures consistent sound.bound)
        fun _ _ made => made.1.stores)
  | resolveProject location world =>
      simp only [step, answer, Observation.failure]
      refine reported (visits ((upsertProject_ensures location).mono ?_ fun _ fails => fails))
      rintro project next ⟨projects, _, _, leaves⟩
      exact leaves.sameMemory
  | createHandoff request location validated world =>
      simp only [step, answer, Observation.failure]
      exact reported (visits handoffInner_ensures)
  | visit location orchestratorTaskId validated world =>
      simp only [step, answer, Observation.failure]
      exact reported (visits visitInner_ensures)

/-! ## Runs -/

theorem link_bound (sound : Sound tables) (left right : ResolvedLocation) (world : World) :
    TasksBound (transact world (linkInner left right) tables).2.tasks := by
  have ensures := @linkInner_ensures ⟨tables, world.environment, 0, 0⟩ left right
    sound.consistent sound.bound
  rcases @Ensures.immediate _ _ _ _ _ _ _ (if world.commits then .ok () else .error .busy) ensures
    with ⟨_, _, _, bound, _⟩ | ⟨_, _, unchanged, _⟩
  · exact bound
  · change TasksBound (immediate _ (linkInner left right)
      ⟨tables, world.environment, 0, 0⟩).2.tables.tasks
    rw [unchanged]
    exact sound.bound

theorem next_sound (undrawn : Undrawn tables input) (sound : Sound tables) :
    Sound ((machine policy).next tables input) where
  consistent := (step_writes sound undrawn).1.consistent sound.consistent
  bound := step_keeps tasksBound_stable
    (fun _ _ _ _ => remember_keeps tasksBound_stable (fun bound => bound) sound.bound _ _ _ _)
    (fun _ _ _ _ => remember_keeps tasksBound_stable (fun bound => bound) sound.bound _ _ _ _)
    (fun left right world _ => link_bound sound left right world) sound.bound

theorem run_sound {inputs : List Input} (fresh : (machine policy).Admits Undrawn tables inputs)
    (sound : Sound tables) : Sound ((machine policy).run tables inputs) :=
  fresh.invariant _ Sound (fun _ _ undrawn sound => next_sound undrawn sound) sound

/-- In every run whose identifiers are fresh, every key has at most one active memory,
the index holds exactly the active memories, and the revisions of a memory are distinct
and bounded; and no input ever fails for a revision that is already there. -/
theorem store_invariant (policy : Policy) (inputs : List Input)
    (fresh : (machine policy).Admits Undrawn .empty inputs) :
    Consistent ((machine policy).run .empty inputs) ∧
      ∀ tables input, (tables, input) ∈ (machine policy).trace .empty inputs →
        ((machine policy).observe tables input).failure ≠
          some (.constraint .memoryRevision) := by
  refine ⟨(run_sound fresh .empty).consistent, ?_⟩
  intro tables input member failed
  have admitted := fresh tables input member
  obtain ⟨before, after, rfl, rfl⟩ := (machine policy).mem_trace_iff.mp member
  have sound := run_sound ((machine policy).admits_append.mp fresh).1 .empty
  exact (step_writes sound admitted).2 _ failed rfl

end Runs

/-! ### A proposal and its approval -/

namespace Sample

/-- Surroundings in which every draw of an operation is the same identifier. -/
def world (seed : Nat) : World where
  environment :=
    { draws := fun _ => Uuid.fromU128 seed
      clock := fun _ => 1700000000
      arrange := fun keys => keys
      arranged := fun keys => .refl keys }
  commits := true

def location : ResolvedLocation := ⟨"/repo", .workspaceRoot, "/repo", none, none⟩

def claude : Actor := .agent "claude" none

def request (requestId content : String) (actor : Actor) : RememberRequest :=
  ⟨"cli", requestId, "/repo", .project, .decision, "style", content, actor, none, none, none⟩

def json (request : RememberRequest) : String :=
  "\x7b\"client_id\":\"cli\",\"request_id\":\"" ++ request.requestId ++
  "\",\"cwd\":\"/repo\",\"scope\":\"project\",\"kind\":\"decision\"," ++
  "\"key\":\"style\",\"content\":\"" ++ request.content ++
  "\",\"actor\":\x7b\"Agent\":\x7b\"provider\":\"claude\",\"session_id\":null\x7d\x7d," ++
  "\"expected_revision\":null,\"orchestrator_task_id\":null,\"workspace_id\":null\x7d"

def rustfmt : RememberRequest := request "r1" "usa rustfmt" claude

/-- Another payload under the identifiers of the first request. -/
def reused : RememberRequest := request "r1" "usa clang-format" claude

def clangFormat : RememberRequest := request "r2" "usa clang-format" claude

/-- The policy on proposals that hold no secret. -/
def policy : Policy where
  prepareContent := id
  encode request := .ok (json request)
  digest text :=
    if text = json rustfmt then
      "ca7107503dcbb4ccc9a033fd8965ccc284db73e4923c8703220350bb0d0fd6eb"
    else if text = json reused then
      "0e5f9c957f8bd249c407008ade22749550e0053f483f1f153edbf96cf1eec6f1"
    else
      "13d5a0d3b1801e08b2e59c95e423fdd65adfcbaeab5b285ef5753bb8489612aa"

def memoryId (seed : Nat) : String := prefixedId "mem_" (Uuid.fromU128 seed)

/-- An agent proposes a memory, and a human approves it. -/
def approval : List Input :=
  [.propose rustfmt location (world 1),
    .approve (memoryId 1) .localUser (world 2)]

theorem approval_fresh : (machine policy).Admits Undrawn .empty approval := by
  refine (machine policy).admits_cons.mpr ⟨fun _ => rfl, ?_⟩
  refine (machine policy).admits_cons.mpr ⟨fun _ => ?_, (machine policy).admits_nil _⟩
  change ((machine policy).next .empty (.propose rustfmt location (world 1))).memories.find
    (memoryId 2) = none
  decide +kernel

end Sample

theorem store_invariant_approved :
    ((((machine Sample.policy).run .empty Sample.approval).memories.find
      (Sample.memoryId 1)).map (·.status) = some .active) ∧
    Consistent ((machine Sample.policy).run .empty Sample.approval) :=
  ⟨by decide +kernel, (store_invariant Sample.policy Sample.approval Sample.approval_fresh).1⟩

end TerminalCanvas.Memory.Store
