import Mathlib.Data.List.Perm.Basic
import TerminalCanvas.Orchestration.Observations

/-! # States of tasks

Three writers share the state of a task: the user, the sessions that work on it, and the
dependencies. A session finds the first task with its identifier, so each task is taken with
whether it is that one. -/

namespace TerminalCanvas.Orchestration

/-- Each task with whether it is the first with its identifier. -/
def marked : List TaskCard → List (TaskCard × Bool)
  | [] => []
  | task :: tasks =>
      (task, true) :: (marked tasks).map fun card => (card.1, card.2 && card.1.id ≠ task.id)

theorem map_fst_marked (tasks : List TaskCard) : (marked tasks).map (·.1) = tasks := by
  induction tasks with
  | nil => rfl
  | cons task tasks induction =>
      rw [marked, List.map_cons, List.map_map]
      exact congrArg (task :: ·) induction

/-! ## Writing -/

/-- What the sessions write to a task, in their order. -/
def writtenBy (sessions : List AgentSessionMeta) (id : Uuid) : List TaskState :=
  sessions.filterMap fun session =>
    if session.taskId = some id then writtenState session.status else none

/-- What is written to a marked task: nothing if another one is found in its place. -/
def writesTo (writes : Uuid → List TaskState) (card : TaskCard × Bool) : List TaskState :=
  if card.2 then writes card.1.id else []

def lastWritten (writes : Uuid → List TaskState) (card : TaskCard × Bool) : TaskState :=
  (writesTo writes card).getLast?.getD card.1.state

def writeCard (session : AgentSessionMeta) (card : TaskCard × Bool) : TaskCard × Bool :=
  if card.2 ∧ session.taskId = some card.1.id then
    ({ card.1 with state := (writtenState session.status).getD card.1.state }, card.2)
  else card

theorem marked_changeTask (id : Uuid) (change : TaskCard → TaskCard)
    (keeps : ∀ task, (change task).id = task.id) (tasks : List TaskCard) :
    marked (changeTask id change tasks) =
      (marked tasks).map fun card =>
        if card.2 ∧ id = card.1.id then (change card.1, card.2) else card := by
  induction tasks with
  | nil => rfl
  | cons task tasks induction =>
      rw [changeTask]
      split
      · next found =>
          rw [marked, marked, List.map_cons, List.map_map, if_pos ⟨rfl, found.symm⟩, keeps]
          refine congrArg _ (List.map_congr_left fun card _ => ?_)
          rw [Function.comp_apply, if_neg]
          rintro ⟨first, same⟩
          have other : card.1.id ≠ task.id := by simpa using (Bool.and_eq_true_iff.mp first).2
          exact other (same.symm.trans found.symm)
      · next other =>
          rw [marked, marked, List.map_cons, induction, List.map_map, List.map_map,
            if_neg fun both => other both.2.symm]
          refine congrArg _ (List.map_congr_left fun card _ => ?_)
          rw [Function.comp_apply, Function.comp_apply]
          by_cases hit : card.2 ∧ id = card.1.id
          · have different : card.1.id ≠ task.id := fun same => other (same ▸ hit.2.symm)
            rw [if_pos hit, if_pos ⟨by simp [hit.1, different], hit.2⟩, keeps]
          · rw [if_neg hit, if_neg]
            exact fun both => hit ⟨(Bool.and_eq_true_iff.mp both.1).1, both.2⟩

theorem marked_writeTask (tasks : List TaskCard) (session : AgentSessionMeta) :
    marked (writeTask tasks session) = (marked tasks).map (writeCard session) := by
  rw [writeTask]
  split
  · next none =>
      rw [← List.map_id (marked tasks), List.map_map]
      refine List.map_congr_left fun card _ => ?_
      rw [Function.comp_apply, id, writeCard, if_neg (by simp [none])]
  · next id given =>
      rw [marked_changeTask id (fun task =>
        { task with state := (writtenState session.status).getD task.state }) (fun _ => rfl)]
      refine List.map_congr_left fun card _ => ?_
      simp only [writeCard, given, Option.some.injEq]

theorem lastWritten_writeCard (session : AgentSessionMeta) (sessions : List AgentSessionMeta)
    (card : TaskCard × Bool) :
    lastWritten (writtenBy sessions) (writeCard session card) =
      lastWritten (writtenBy (session :: sessions)) card := by
  obtain ⟨task, first⟩ := card
  cases first with
  | false => simp [lastWritten, writesTo, writeCard]
  | true =>
      by_cases own : session.taskId = some task.id
      · simp only [lastWritten, writesTo, writeCard, own, and_self, if_true, writtenBy,
          List.filterMap_cons]
        cases writtenState session.status with
        | none => rfl
        | some state => rw [List.getLast?_cons]; rfl
      · simp [lastWritten, writesTo, writeCard, own, writtenBy]

theorem foldl_writeTask (sessions : List AgentSessionMeta) (tasks : List TaskCard) :
    sessions.foldl writeTask tasks =
      (marked tasks).map fun card =>
        { card.1 with state := lastWritten (writtenBy sessions) card } := by
  induction sessions generalizing tasks with
  | nil =>
      rw [List.foldl_nil]
      conv_lhs => rw [← map_fst_marked tasks]
      refine List.map_congr_left fun card _ => ?_
      simp [lastWritten, writesTo, writtenBy]
  | cons session sessions induction =>
      rw [List.foldl_cons, induction, marked_writeTask, List.map_map]
      refine List.map_congr_left fun card _ => ?_
      rw [Function.comp_apply, lastWritten_writeCard, writeCard]
      split <;> rfl

/-! ## Dependencies -/

/-- Whether a task has a dependency on one that is not finished. -/
def openIn (dependencies : List DependencyEdge) (endings : List (Uuid × Bool)) (id : Uuid) :
    Bool :=
  dependencies.any fun edge => edge.fromTask = id && endings.lookup edge.toTask == some false

/-- What becomes of a state that was written, for a task with open dependencies and one
without sessions. -/
def settled (blocked alone : Bool) (state : TaskState) : TaskState :=
  if state.finished then state
  else if blocked then .blocked
  else if state = .blocked then (if alone then .queued else .running)
  else state

@[simp] theorem finished_settled (blocked alone : Bool) (state : TaskState) :
    (settled blocked alone state).finished = state.finished := by
  cases blocked <;> cases alone <;> cases state <;> rfl

@[simp] theorem settled_settled (blocked alone : Bool) (state : TaskState) :
    settled blocked alone (settled blocked alone state) = settled blocked alone state := by
  cases blocked <;> cases alone <;> cases state <;> rfl

theorem settled_eq_blocked_iff {blocked alone : Bool} {state : TaskState}
    (unfinished : state.finished = false) :
    settled blocked alone state = .blocked ↔ blocked = true := by
  cases blocked <;> cases alone <;> cases state <;> simp_all [settled, TaskState.finished]

def endings (tasks : List TaskCard) : List (Uuid × Bool) :=
  tasks.map fun task => (task.id, task.state.finished)

theorem lookup_endings (tasks : List TaskCard) (id : Uuid) :
    (endings tasks).lookup id = (findTask tasks id).map (·.state.finished) := by
  induction tasks with
  | nil => rfl
  | cons task tasks induction =>
      rw [endings, List.map_cons, List.lookup_cons, findTask, List.find?_cons]
      by_cases same : task.id = id
      · simp [same]
      · have different : (id == task.id) = false := beq_eq_false_iff_ne.mpr (Ne.symm same)
        rw [different, decide_eq_false same]
        exact induction

theorem openIn_perm {dependencies others : List DependencyEdge}
    (reordered : others.Perm dependencies) (endings : List (Uuid × Bool)) (id : Uuid) :
    openIn others endings id = openIn dependencies endings id := reordered.any_eq

theorem openIn_iff (dependencies : List DependencyEdge) (tasks : List TaskCard) (id : Uuid) :
    openIn dependencies (endings tasks) id = true ↔
      ∃ edge ∈ dependencies, edge.fromTask = id ∧
        ∃ task, findTask tasks edge.toTask = some task ∧ task.state.finished = false := by
  simp [openIn, lookup_endings, Option.map_eq_some_iff]

theorem any_dependencyStates (dependencies : List DependencyEdge) (tasks : List TaskCard)
    (id : Uuid) :
    ((dependencyStates dependencies tasks).any fun (fromTask, state) =>
      fromTask = id && !state.finished) = openIn dependencies (endings tasks) id := by
  rw [dependencyStates, List.any_filterMap, openIn]
  refine congrArg dependencies.any (funext fun edge => ?_)
  rw [lookup_endings]
  cases findTask tasks edge.toTask with
  | none => simp
  | some task => cases finished : task.state.finished <;> simp [finished]

theorem syncTask_eq (states : List (Uuid × TaskState)) (task : TaskCard) :
    syncTask states task =
      { task with
        state := settled
          (states.any fun (fromTask, state) => fromTask = task.id && !state.finished)
          task.sessionIds.isEmpty task.state } := by
  rw [syncTask, settled]
  split
  · rfl
  · split
    · rfl
    · split <;> rfl

theorem sync_eq (dependencies : List DependencyEdge) (tasks : List TaskCard) :
    syncTaskStatesFromDependencies dependencies tasks = tasks.map fun task =>
      { task with
        state := settled (openIn dependencies (endings tasks) task.id)
          task.sessionIds.isEmpty task.state } := by
  refine List.map_congr_left fun task _ => ?_
  rw [syncTask_eq, any_dependencyStates]

theorem endings_sync (dependencies : List DependencyEdge) (tasks : List TaskCard) :
    endings (syncTaskStatesFromDependencies dependencies tasks) = endings tasks := by
  rw [sync_eq, endings, endings, List.map_map]
  refine List.map_congr_left fun task _ => ?_
  rw [Function.comp_apply, finished_settled]

theorem sync_sync (dependencies : List DependencyEdge) (tasks : List TaskCard) :
    syncTaskStatesFromDependencies dependencies
        (syncTaskStatesFromDependencies dependencies tasks) =
      syncTaskStatesFromDependencies dependencies tasks := by
  rw [sync_eq, endings_sync, sync_eq, List.map_map]
  refine List.map_congr_left fun task _ => ?_
  rw [Function.comp_apply, settled_settled]

/-! ## A poll -/

section Polling

variable (orchestrator : Orchestrator) (poll : Poll)

/-- The status that a poll gives to a session. -/
def shownStatus (session : AgentSessionMeta) : AgentStatus :=
  ((observationOf poll session).map (observedStatus orchestrator poll session)).getD
    session.status

/-- What a session writes to a task in a poll. -/
def writtenTo (id : Uuid) (session : AgentSessionMeta) : Option TaskState :=
  if session.taskId = some id then
    (observationOf poll session).bind fun observation =>
      writtenState (observedStatus orchestrator poll session observation)
  else none

def writes (id : Uuid) : List TaskState :=
  orchestrator.state.sessions.filterMap (writtenTo orchestrator poll id)

/-- Which tasks the sessions leave finished. -/
def endingsBehind : List (Uuid × Bool) :=
  (marked orchestrator.state.tasks).map fun card =>
    (card.1.id, (lastWritten (writes orchestrator poll) card).finished)

/-- Whether a task has a dependency on one that the sessions leave unfinished. -/
def openBehind (id : Uuid) : Bool :=
  openIn orchestrator.state.dependencies (endingsBehind orchestrator poll) id

/-- What becomes of a state that is written to a task. -/
def settledBehind (task : TaskCard) (state : TaskState) : TaskState :=
  settled (openBehind orchestrator poll task.id) task.sessionIds.isEmpty state

theorem writtenBy_observed (id : Uuid) :
    writtenBy (((observedSessions orchestrator poll).filter (·.2)).map (·.1)) id =
      writes orchestrator poll id := by
  have views : (observedSessions orchestrator poll).map (fun pair =>
      if pair.2 then
        if pair.1.taskId = some id then writtenState pair.1.status else none
      else none) = orchestrator.state.sessions.map (writtenTo orchestrator poll id) := by
    apply map_observedSessions
    · intro session none
      simp [writtenTo, none]
    · intro session observation found
      rw [writtenTo, found]
      rfl
    · intro session files
      rfl
  have written := congrArg (List.filterMap fun state => state) views
  rw [List.filterMap_map, List.filterMap_map] at written
  rw [writtenBy, List.filterMap_map, List.filterMap_filter]
  exact written

def appliedCard (card : TaskCard × Bool) : TaskCard :=
  { card.1 with
    state :=
      settledBehind orchestrator poll card.1 (lastWritten (writes orchestrator poll) card)
    conflictRisk := card.1.sessionIds.any
      (· ∈ conflictsOf ((observedSessions orchestrator poll).map (·.1))) }

theorem tasks_applyObservations :
    (applyObservations orchestrator poll).state.tasks =
      (marked orchestrator.state.tasks).map (appliedCard orchestrator poll) := by
  have equal : writtenBy (((observedSessions orchestrator poll).filter (·.2)).map (·.1)) =
      writes orchestrator poll := funext (writtenBy_observed orchestrator poll)
  simp only [applyObservations, writtenTasks, foldl_writeTask, sync_eq, equal, List.map_map]
  refine List.map_congr_left fun card _ => ?_
  simp only [Function.comp_apply, appliedCard, settledBehind, openBehind, endings, List.map_map,
    endingsBehind, Function.comp_def]

theorem endings_applyObservations :
    endings (applyObservations orchestrator poll).state.tasks =
      endingsBehind orchestrator poll := by
  rw [tasks_applyObservations, endings, List.map_map]
  refine List.map_congr_left fun card _ => ?_
  rw [Function.comp_apply, appliedCard, settledBehind, finished_settled]

theorem statuses_applyObservations :
    (applyObservations orchestrator poll).state.sessions.map
        (fun session => (session.taskId, session.status)) =
      orchestrator.state.sessions.map
        (fun session => (session.taskId, shownStatus orchestrator poll session)) := by
  simp only [applyObservations, List.map_map]
  apply map_observedSessions
  · intro session none
    simp [shownStatus, none]
  · intro session observation found
    rw [shownStatus, found]
    rfl
  · intro session files
    rfl

end Polling

/-! ## When states follow -/

def AgentStatus.waits (status : AgentStatus) : Bool :=
  status = .waitingApproval || status = .needsInput

namespace OrchestrationState

variable (state : OrchestrationState)

/-- A task depends on one that is neither done nor cancelled. -/
def DependsOnOpen (id : Uuid) : Prop :=
  ∃ edge ∈ state.dependencies, edge.fromTask = id ∧
    ∃ task, findTask state.tasks edge.toTask = some task ∧ task.state.finished = false

/-- A session of a task waits for approval or input. -/
def SessionWaits (id : Uuid) : Prop :=
  ∃ session ∈ state.sessions, session.taskId = some id ∧ session.status.waits = true

end OrchestrationState

/-- The same tasks, with sessions and dependencies stored in another order. -/
def Orchestrator.reordered (orchestrator : Orchestrator) (sessions : List AgentSessionMeta)
    (dependencies : List DependencyEdge) : Orchestrator :=
  { orchestrator with state := { orchestrator.state with sessions, dependencies } }

section Following

variable (orchestrator : Orchestrator) (poll : Poll)

/-- The states of the tasks behind a poll follow the sessions and the dependencies. -/
structure StatesFollow : Prop where
  blocked : ∀ task ∈ (applyObservations orchestrator poll).state.tasks,
    task.state.finished = false →
      (task.state = .blocked ↔
        (applyObservations orchestrator poll).state.DependsOnOpen task.id ∨
          (applyObservations orchestrator poll).state.SessionWaits task.id)
  orderless : ∀ sessions dependencies, sessions.Perm orchestrator.state.sessions →
    dependencies.Perm orchestrator.state.dependencies →
      (applyObservations (orchestrator.reordered sessions dependencies) poll).state.tasks.map
          (·.state) =
        (applyObservations orchestrator poll).state.tasks.map (·.state)
  cancelled : ∀ tasks ∈ orchestrator.state.tasks.zip
      (applyObservations orchestrator poll).state.tasks,
    tasks.1.state = .cancelled → tasks.2.state.finished = true
  idempotent : ∀ dependencies tasks,
    syncTaskStatesFromDependencies dependencies
        (syncTaskStatesFromDependencies dependencies tasks) =
      syncTaskStatesFromDependencies dependencies tasks

/-- The sessions of a task agree with each other, with its dependencies and with the user. -/
structure SessionsAgree : Prop where
  /-- Who waits on an unfinished task waits beside an open dependency. -/
  waiting : ∀ card ∈ marked orchestrator.state.tasks,
    (lastWritten (writes orchestrator poll) card).finished = false →
      (∃ session ∈ orchestrator.state.sessions, session.taskId = some card.1.id ∧
        (shownStatus orchestrator poll session).waits = true) →
      openBehind orchestrator poll card.1.id = true
  /-- Whatever is written to a task comes out the same. -/
  writing : ∀ card ∈ marked orchestrator.state.tasks,
    ∀ one ∈ writesTo (writes orchestrator poll) card,
      ∀ other ∈ writesTo (writes orchestrator poll) card,
        settledBehind orchestrator poll card.1 one = settledBehind orchestrator poll card.1 other
  /-- Nothing but an end is written last to a cancelled task. -/
  cancelled : ∀ card ∈ marked orchestrator.state.tasks, card.1.state = .cancelled →
    (lastWritten (writes orchestrator poll) card).finished = true

theorem dependsOnOpen_iff (id : Uuid) :
    (applyObservations orchestrator poll).state.DependsOnOpen id ↔
      openBehind orchestrator poll id = true := by
  rw [OrchestrationState.DependsOnOpen, ← openIn_iff, endings_applyObservations]
  rfl

theorem sessionWaits_iff (id : Uuid) :
    (applyObservations orchestrator poll).state.SessionWaits id ↔
      ∃ session ∈ orchestrator.state.sessions, session.taskId = some id ∧
        (shownStatus orchestrator poll session).waits = true := by
  have members (pair : Option Uuid × AgentStatus) :=
    congrArg (pair ∈ ·) (statuses_applyObservations orchestrator poll)
  simp only [List.mem_map, eq_iff_iff] at members
  constructor
  · rintro ⟨session, member, own, waits⟩
    obtain ⟨before, stored, same⟩ := (members _).mp ⟨session, member, rfl⟩
    obtain ⟨sameTask, sameStatus⟩ := Prod.mk.inj same
    exact ⟨before, stored, sameTask.trans own, sameStatus ▸ waits⟩
  · rintro ⟨before, stored, own, waits⟩
    obtain ⟨session, member, same⟩ := (members _).mpr ⟨before, stored, rfl⟩
    obtain ⟨sameTask, sameStatus⟩ := Prod.mk.inj same
    exact ⟨session, member, sameTask.trans own, sameStatus ▸ waits⟩

theorem blocked_iff :
    (∀ task ∈ (applyObservations orchestrator poll).state.tasks, task.state.finished = false →
      (task.state = .blocked ↔
        (applyObservations orchestrator poll).state.DependsOnOpen task.id ∨
          (applyObservations orchestrator poll).state.SessionWaits task.id)) ↔
      ∀ card ∈ marked orchestrator.state.tasks,
        (lastWritten (writes orchestrator poll) card).finished = false →
          (∃ session ∈ orchestrator.state.sessions, session.taskId = some card.1.id ∧
            (shownStatus orchestrator poll session).waits = true) →
          openBehind orchestrator poll card.1.id = true := by
  rw [tasks_applyObservations]
  simp only [List.forall_mem_map, dependsOnOpen_iff, sessionWaits_iff]
  refine forall₂_congr fun card _ => ?_
  have sameEnd : (appliedCard orchestrator poll card).state.finished =
      (lastWritten (writes orchestrator poll) card).finished := finished_settled _ _ _
  rw [sameEnd]
  refine imp_congr_right fun unfinished => ?_
  have isBlocked : (appliedCard orchestrator poll card).state = .blocked ↔
      openBehind orchestrator poll card.1.id = true := settled_eq_blocked_iff unfinished
  rw [isBlocked]
  exact ⟨fun both waits => both.mpr (.inr waits),
    fun waits => ⟨.inl, fun either => either.elim id waits⟩⟩

theorem cancelled_iff :
    (∀ tasks ∈ orchestrator.state.tasks.zip (applyObservations orchestrator poll).state.tasks,
      tasks.1.state = .cancelled → tasks.2.state.finished = true) ↔
      ∀ card ∈ marked orchestrator.state.tasks, card.1.state = .cancelled →
        (lastWritten (writes orchestrator poll) card).finished = true := by
  have pairs : orchestrator.state.tasks.zip (applyObservations orchestrator poll).state.tasks =
      (marked orchestrator.state.tasks).map fun card =>
        (card.1, appliedCard orchestrator poll card) := by
    have zipped : ((marked orchestrator.state.tasks).map (·.1)).zip
        ((marked orchestrator.state.tasks).map (appliedCard orchestrator poll)) = _ :=
      List.zip_map'
    rw [map_fst_marked] at zipped
    rw [tasks_applyObservations, zipped]
  rw [pairs]
  simp only [List.forall_mem_map, appliedCard, settledBehind, finished_settled]

/-! ### Orders -/

theorem lastWritten_cases (written : Uuid → List TaskState) (card : TaskCard × Bool) :
    (writesTo written card = [] ∧ lastWritten written card = card.1.state) ∨
      lastWritten written card ∈ writesTo written card := by
  rw [lastWritten]
  cases last : (writesTo written card).getLast? with
  | none => exact .inl ⟨List.getLast?_eq_none_iff.mp last, rfl⟩
  | some state => exact .inr (List.mem_of_getLast? last)

variable {orchestrator poll} {sessions : List AgentSessionMeta}
  {dependencies : List DependencyEdge}

theorem openBehind_reordered
    (reordered : dependencies.Perm orchestrator.state.dependencies)
    (sameEnds : ∀ card ∈ marked orchestrator.state.tasks,
      (lastWritten (writes (orchestrator.reordered sessions dependencies) poll) card).finished =
        (lastWritten (writes orchestrator poll) card).finished) (id : Uuid) :
    openBehind (orchestrator.reordered sessions dependencies) poll id =
      openBehind orchestrator poll id := by
  have endings : endingsBehind (orchestrator.reordered sessions dependencies) poll =
      endingsBehind orchestrator poll :=
    List.map_congr_left fun card member => by rw [sameEnds card member]
  rw [openBehind, openBehind, endings]
  exact openIn_perm reordered _ _

theorem states_reordered_iff (reordered : dependencies.Perm orchestrator.state.dependencies) :
    (applyObservations (orchestrator.reordered sessions dependencies) poll).state.tasks.map
          (·.state) =
        (applyObservations orchestrator poll).state.tasks.map (·.state) ↔
      ∀ card ∈ marked orchestrator.state.tasks,
        settledBehind orchestrator poll card.1
            (lastWritten (writes (orchestrator.reordered sessions dependencies) poll) card) =
          settledBehind orchestrator poll card.1
            (lastWritten (writes orchestrator poll) card) := by
  rw [tasks_applyObservations, tasks_applyObservations, List.map_map, List.map_map]
  have sameMarks : marked (orchestrator.reordered sessions dependencies).state.tasks =
      marked orchestrator.state.tasks := rfl
  rw [sameMarks, List.map_inj_left]
  constructor
  · intro equal card member
    have openSame := @openBehind_reordered orchestrator poll sessions dependencies reordered
      fun card member => by
        have ends := congrArg TaskState.finished (equal card member)
        simpa only [Function.comp_apply, appliedCard, settledBehind, finished_settled] using ends
    have same := equal card member
    simp only [Function.comp_apply, appliedCard, settledBehind, openSame] at same
    exact same
  · intro equal card member
    have openSame := @openBehind_reordered orchestrator poll sessions dependencies reordered
      fun card member => by
        have ends := congrArg TaskState.finished (equal card member)
        simpa only [settledBehind, finished_settled] using ends
    have same := equal card member
    simp only [Function.comp_apply, appliedCard, settledBehind, openSame]
    exact same

theorem writes_reordered (id : Uuid) :
    writes (orchestrator.reordered sessions dependencies) poll id =
      sessions.filterMap (writtenTo orchestrator poll id) := rfl

theorem exists_reordered_last {card : TaskCard × Bool} {state : TaskState}
    (member : state ∈ writesTo (writes orchestrator poll) card) :
    ∃ sessions : List AgentSessionMeta, sessions.Perm orchestrator.state.sessions ∧
      lastWritten (writes (orchestrator.reordered sessions orchestrator.state.dependencies) poll)
        card = state := by
  obtain ⟨task, first⟩ := card
  cases first with
  | false => cases member
  | true =>
      obtain ⟨session, stored, written⟩ := List.mem_filterMap.mp member
      obtain ⟨front, back, split⟩ := List.append_of_mem stored
      refine ⟨front ++ (back ++ [session]), ?_, ?_⟩
      · rw [split]
        exact (List.perm_append_singleton session back).append_left front
      · simp [lastWritten, writesTo, writes_reordered, List.filterMap_append, written]

variable (orchestrator poll)

theorem orderless_iff :
    (∀ sessions dependencies, sessions.Perm orchestrator.state.sessions →
      dependencies.Perm orchestrator.state.dependencies →
        (applyObservations (orchestrator.reordered sessions dependencies) poll).state.tasks.map
            (·.state) =
          (applyObservations orchestrator poll).state.tasks.map (·.state)) ↔
      ∀ card ∈ marked orchestrator.state.tasks,
        ∀ one ∈ writesTo (writes orchestrator poll) card,
          ∀ other ∈ writesTo (writes orchestrator poll) card,
            settledBehind orchestrator poll card.1 one =
              settledBehind orchestrator poll card.1 other := by
  constructor
  · intro orderless card member
    have comesOut (state : TaskState) (written : state ∈ writesTo (writes orchestrator poll) card) :
        settledBehind orchestrator poll card.1 state =
          settledBehind orchestrator poll card.1 (lastWritten (writes orchestrator poll) card) := by
      obtain ⟨sessions, reordered, last⟩ := exists_reordered_last written
      have same := (states_reordered_iff (.refl _)).mp (orderless sessions _ reordered (.refl _))
        card member
      rwa [last] at same
    intro one oneWritten other otherWritten
    exact (comesOut one oneWritten).trans (comesOut other otherWritten).symm
  · intro agree sessions dependencies sameSessions sameDependencies
    refine (states_reordered_iff sameDependencies).mpr fun card member => ?_
    have sameWrites : (writesTo (writes (orchestrator.reordered sessions dependencies) poll)
        card).Perm (writesTo (writes orchestrator poll) card) := by
      rw [writesTo, writesTo]
      split
      · exact sameSessions.filterMap _
      · exact .refl _
    rcases lastWritten_cases (writes (orchestrator.reordered sessions dependencies) poll) card with
      ⟨none, last⟩ | written
    · rcases lastWritten_cases (writes orchestrator poll) card with ⟨_, before⟩ | writtenBefore
      · rw [last, before]
      · rw [none] at sameWrites
        rw [sameWrites.symm.eq_nil] at writtenBefore
        cases writtenBefore
    · rcases lastWritten_cases (writes orchestrator poll) card with ⟨none, _⟩ | writtenBefore
      · rw [none] at sameWrites
        rw [sameWrites.eq_nil] at written
        cases written
      · exact agree card member _ (sameWrites.mem_iff.mp written) _ writtenBefore

/-- A poll makes the states of the tasks follow just when the sessions of each task agree. -/
theorem states_follow_iff : StatesFollow orchestrator poll ↔ SessionsAgree orchestrator poll := by
  constructor
  · intro follow
    exact
      { waiting := (blocked_iff orchestrator poll).mp follow.blocked
        writing := (orderless_iff orchestrator poll).mp follow.orderless
        cancelled := (cancelled_iff orchestrator poll).mp follow.cancelled }
  · intro agree
    exact
      { blocked := (blocked_iff orchestrator poll).mpr agree.waiting
        orderless := (orderless_iff orchestrator poll).mpr agree.writing
        cancelled := (cancelled_iff orchestrator poll).mpr agree.cancelled
        idempotent := sync_sync }

end Following

/-- A session waits for approval on one task, and another runs on a cancelled task. -/
def waitingAndCancelled : Orchestrator :=
  { state :=
      { tasks := [⟨⟨1⟩, .running, [⟨3⟩], false⟩, ⟨⟨2⟩, .cancelled, [⟨4⟩], false⟩]
        sessions :=
          [⟨⟨3⟩, some ⟨5⟩, ⟨7⟩, "Codex", some ⟨1⟩, .waitingApproval, none, ⟨[], none, none⟩, false⟩,
            ⟨⟨4⟩, some ⟨6⟩, ⟨7⟩, "Claude", some ⟨2⟩, .running, none, ⟨[], none, none⟩, false⟩]
        inbox := []
        dependencies := [] }
    hookStatus := ∅
    sessionHookClaims := ∅ }

/-- Both panels are alive, and their texts could not be read this time. -/
def livePanels : Poll :=
  { now := 0
    ptyNowMs := 0
    git := []
    observations :=
      [⟨⟨5⟩, none, ⟨7⟩, none, "", true, false, false, true, none⟩,
        ⟨⟨6⟩, none, ⟨7⟩, none, "", true, false, false, true, none⟩]
    clock := fun _ _ => 0 }

theorem waiting_and_cancelled_tasks_run :
    (applyObservations waitingAndCancelled livePanels).state.tasks.map (·.state) =
        [.running, .running] ∧
      (applyObservations waitingAndCancelled livePanels).state.sessions.map (·.status) =
        [.waitingApproval, .running] ∧
      ¬ StatesFollow waitingAndCancelled livePanels := by
  refine ⟨by decide +kernel, by decide +kernel, fun follow => ?_⟩
  have revived := (cancelled_iff waitingAndCancelled livePanels).mp follow.cancelled
    (⟨⟨2⟩, .cancelled, [⟨4⟩], false⟩, true) (by decide +kernel) rfl
  revert revived
  decide +kernel

end TerminalCanvas.Orchestration
