import TerminalCanvas.Daemon.RequestCensus

/-! # Birth uniqueness

An identity is a resident, a tombstone, or unborn, and a tombstone is for ever. -/

namespace TerminalCanvas.Daemon

open Execution HookAuthority Scrollback Terminal

namespace DaemonState

variable {state : DaemonState} {answers : Answers} {clientId : Uuid} (host : Host)

/-! ## Outcomes -/

theorem handleSpawn_outcome (wire : WireSpec) (proposed : Option Uuid) :
    (∃ message, state.handleSpawn answers clientId wire proposed = (.error message, state)) ∨
      ∃ id, (state.handleSpawn answers clientId wire proposed).1 = .spawned id := by
  simp only [handleSpawn, bear, birthRejectedResponse]
  repeat' split
  all_goals first | exact .inl ⟨_, rfl⟩ | exact .inr ⟨_, rfl⟩

theorem handleKill_outcome (id : Uuid) :
    (∃ message, state.handleKill answers clientId id = (.error message, state)) ∨
      state.handleKill answers clientId id =
        closeAnswer id (state.kill answers.store id (answers.closerStarts id)) := by
  simp only [handleKill, unknownSessionResponse, birthRejectedResponse]
  repeat' split
  all_goals first | exact .inl ⟨_, rfl⟩ | exact .inr rfl

theorem handleCloseBirth_outcome (id : Uuid) :
    (∃ message, state.handleCloseBirth answers clientId id = (.error message, state)) ∨
      state.handleCloseBirth answers clientId id =
        closeAnswer id (state.kill answers.store id (answers.closerStarts id)) ∨
      ((state.birthTombstones.find id).isSome ∧
        state.handleCloseBirth answers clientId id = (.killed id, state)) ∨
      state.handleCloseBirth answers clientId id =
        (.killed id, { state with
          birthTombstones := state.birthTombstones.put id clientId }) := by
  simp only [handleCloseBirth, birthRejectedResponse, closePendingResponse]
  split
  · split
    · exact .inl ⟨_, rfl⟩
    · exact .inr (.inl rfl)
  · split
    · next creator found =>
        split
        · exact .inr (.inr (.inl ⟨by simp [found], rfl⟩))
        · exact .inl ⟨_, rfl⟩
    · split
      · exact .inr (.inr (.inr rfl))
      · exact .inl ⟨_, rfl⟩

/-! ## Answers that fence -/

theorem closeAnswer_fenced (sound : state.Sound) {store : Option HookStore} {id other : Uuid}
    {closerStarts : Bool}
    (killed : (closeAnswer id (state.kill store id closerStarts)).1 = .killed other) :
    ((closeAnswer id (state.kill store id closerStarts)).2.birthTombstones.find
      other).isSome := by
  have fenced := (kill_turn state store id closerStarts).fenced sound
  simp only [closeAnswer] at killed ⊢
  split at killed
  · next gone =>
      cases killed
      exact fenced gone
  · cases killed

theorem killed_fenced (sound : state.Sound) {request : Request} {id : Uuid}
    (killed : (state.handleRequestForClient host answers clientId request).1 = .killed id) :
    ((state.handleRequestForClient host answers clientId request).2.birthTombstones.find
      id).isSome := by
  cases request with
  | hello version token client => cases killed
  | spawn wire proposed =>
      simp only [handleRequestForClient] at killed
      rcases handleSpawn_outcome wire proposed with ⟨message, refused⟩ | ⟨born, spawned⟩
      · rw [refused] at killed
        cases killed
      · rw [spawned] at killed
        cases killed
  | attach other =>
      simp only [handleRequestForClient, handleAttach, unknownSessionResponse,
        closePendingResponse, snapshotFailureResponse, DaemonSession.attachedResponse] at killed
      repeat' split at killed
      all_goals cases killed
  | write other data =>
      simp only [handleRequestForClient, handleWrite, unknownSessionResponse] at killed
      split at killed
      all_goals cases killed
  | resize other cols rows =>
      simp only [handleRequestForClient, handleResize, unknownSessionResponse] at killed
      split at killed
      all_goals cases killed
  | kill other =>
      simp only [handleRequestForClient] at killed ⊢
      rcases handleKill_outcome other with ⟨message, refused⟩ | closed
      · rw [refused] at killed
        cases killed
      · rw [closed] at killed ⊢
        exact closeAnswer_fenced sound killed
  | closeBirth other =>
      simp only [handleRequestForClient] at killed ⊢
      rcases handleCloseBirth_outcome other with
        ⟨message, refused⟩ | closed | ⟨present, before⟩ | unborn
      · rw [refused] at killed
        cases killed
      · rw [closed] at killed ⊢
        exact closeAnswer_fenced sound killed
      · rw [before] at killed ⊢
        cases killed
        exact present
      · rw [unborn] at killed ⊢
        cases killed
        simp
  | setPriority other => cases killed
  | list => cases killed
  | reconcileLive live => cases killed
  | shutdownIfIdle => cases killed

theorem handleSpawn_fenced {id creator : Uuid}
    (fenced : state.birthTombstones.find id = some creator) (answers : Answers)
    (clientId : Uuid) (wire : WireSpec) :
    state.handleSpawn answers clientId wire (some id) = (birthRejectedResponse id, state) := by
  have filtered : (some id).filter (fun id => (state.birthTombstones.find id).isSome) =
      some id := by simp [fenced]
  unfold handleSpawn
  simp only [filtered]

theorem handleCloseBirth_fenced {id creator : Uuid} (vacant : state.session id = none)
    (fenced : state.birthTombstones.find id = some creator) (answers : Answers) :
    state.handleCloseBirth answers creator id = (.killed id, state) := by
  simp [handleCloseBirth, vacant, fenced]

end DaemonState

/-! ## Runs -/

namespace RegistryState

variable (host : Host)

/-- The state of a daemon after a run. -/
def reached (now : Nat) (inputs : List RegistryInput) : RegistryState :=
  (registryMachine host).run (new now) inputs

theorem reached_append (now : Nat) (before after : List RegistryInput) :
    reached host now (before ++ after) =
      (registryMachine host).run (reached host now before) after :=
  (registryMachine host).run_append (new now) before after

theorem reached_sound {now : Nat} {inputs : List RegistryInput}
    (fresh : (registryMachine host).Admits FreshDraw (new now) inputs) :
    (reached host now inputs).registry.Sound :=
  Machine.Admits.invariant _ fresh (fun state => state.registry.Sound)
    (fun _ _ drawn sound => (step_moves host sound drawn).sound sound)
    (Census.empty_sound maxBirthIdentities)

theorem tombstone_kept {state : RegistryState} (sound : state.registry.Sound)
    {inputs : List RegistryInput}
    (fresh : (registryMachine host).Admits FreshDraw state inputs) {id creator : Uuid}
    (fenced : state.registry.birthTombstones.find id = some creator) :
    ((registryMachine host).run state inputs).registry.birthTombstones.find id =
      some creator :=
  (Machine.Admits.invariant _ fresh
    (fun state => state.registry.Sound ∧
      state.registry.birthTombstones.find id = some creator)
    (fun _ _ drawn ⟨sound, fenced⟩ =>
      ⟨(step_moves host sound drawn).sound sound,
        (step_moves host sound drawn).tombstone_kept sound fenced⟩)
    ⟨sound, fenced⟩).2

theorem vacant_of_fenced {registry : DaemonState} (sound : registry.Sound) {id : Uuid}
    (fenced : (registry.birthTombstones.find id).isSome) : registry.session id = none := by
  by_contra resident
  obtain ⟨session, found⟩ := Option.ne_none_iff_exists'.mp resident
  have absent := sound.disjoint id (by simp [DaemonState.census, found])
  simp only [DaemonState.census] at absent
  simp [absent] at fenced

/-- In every run an identity is never both a resident and a tombstone, the
capacity is kept, a kill is answered only for a fenced identity, and a tombstone
keeps its creator for ever: no session appears under it again, every spawn of it is
refused and its creator is told that it is gone. -/
theorem births_are_fenced (now : Nat) (inputs : List RegistryInput)
    (fresh : (registryMachine host).Admits FreshDraw (new now) inputs) :
    (∀ id, ¬ (((reached host now inputs).registry.session id).isSome ∧
      ((reached host now inputs).registry.birthTombstones.find id).isSome)) ∧
    (reached host now inputs).registry.sessions.size +
      (reached host now inputs).registry.birthTombstones.size ≤ maxBirthIdentities ∧
    (∀ before after id creator, inputs = before ++ after →
      (reached host now before).registry.birthTombstones.find id = some creator →
      (reached host now inputs).registry.birthTombstones.find id = some creator ∧
      (reached host now inputs).registry.session id = none) ∧
    (∀ before input after id, inputs = before ++ input :: after →
      (registryMachine host).observe (reached host now before) input = some (.killed id) →
      ((reached host now (before ++ [input])).registry.birthTombstones.find id).isSome) ∧
    (∀ id creator,
      (reached host now inputs).registry.birthTombstones.find id = some creator →
      ∀ answers,
        (∀ clientId wire,
          (registryMachine host).step (reached host now inputs)
              (.request clientId (.spawn wire (some id)) answers) =
            ⟨reached host now inputs, some (birthRejectedResponse id)⟩) ∧
        (registryMachine host).observe (reached host now inputs)
          (.request creator (.closeBirth id) answers) = some (.killed id)) := by
  have sound := reached_sound host fresh
  refine ⟨?_, sound.bounded, ?_, ?_, ?_⟩
  · intro id ⟨resident, fenced⟩
    rw [vacant_of_fenced sound fenced] at resident
    cases resident
  · intro before after id creator split fenced
    rw [split] at fresh sound ⊢
    have ⟨freshBefore, freshAfter⟩ := (Machine.admits_append _).mp fresh
    have kept := tombstone_kept host (reached_sound host freshBefore) freshAfter fenced
    rw [reached_append] at sound ⊢
    exact ⟨kept, vacant_of_fenced sound (by simp [kept])⟩
  · intro before input after id split killed
    rw [split] at fresh
    have soundBefore := reached_sound host ((Machine.admits_append _).mp fresh).1
    rw [reached_append]
    cases input with
    | request clientId request answers =>
        have answered : ((reached host now before).registry.handleRequestForClient host answers
            clientId request).1 = .killed id := Option.some.inj killed
        exact DaemonState.killed_fenced host soundBefore answered
    | disconnect connectionId later =>
        simp only [Machine.observe, registryMachine, step] at killed
        split at killed
        · cases killed
        · cases killed
    | connect connectionId clientId => cases killed
    | pump answers => cases killed
    | capture answers => cases killed
    | acknowledge other writtenBytes => cases killed
    | flag other => cases killed
    | finishRetirements answers => cases killed
    | terminal other handle => cases killed
    | wires subscribers channels => cases killed
  · intro id creator fenced answers
    have vacant : (reached host now inputs).registry.session id = none :=
      vacant_of_fenced sound (by simp [fenced])
    refine ⟨?_, ?_⟩
    · intro clientId wire
      have refused := DaemonState.handleSpawn_fenced fenced answers clientId wire
      simp only [registryMachine, step, DaemonState.handleRequestForClient, refused,
        withRegistry]
    · have told := DaemonState.handleCloseBirth_fenced vacant fenced answers
      simp only [Machine.observe, registryMachine, step, DaemonState.handleRequestForClient,
        told]

/-! A session without a terminal, born under a drawn identifier and killed. -/

def lonelyAnswers : Answers := ⟨none, .registryOnly (.fromU128 2), ⟨0, 0⟩, fun _ => true, []⟩

def lonelyBirth : RegistryInput :=
  .request (.fromU128 1) (.spawn .default none) lonelyAnswers

def bornAndKilled : List RegistryInput :=
  [lonelyBirth, .request (.fromU128 1) (.kill (.fromU128 2)) lonelyAnswers]

theorem births_are_fenced_bornAndKilled :
    (reached .blank 0 bornAndKilled).registry.birthTombstones.find (.fromU128 2) =
        some (.fromU128 1) ∧
      (reached .blank 0 bornAndKilled).registry.session (.fromU128 2) = none := by
  have fresh : (registryMachine .blank).Admits FreshDraw (new 0) bornAndKilled :=
    (Machine.admits_cons _).mpr ⟨⟨rfl, rfl⟩,
      (Machine.admits_cons _).mpr ⟨trivial, Machine.admits_nil _ _⟩⟩
  exact (births_are_fenced .blank 0 bornAndKilled fresh).2.2.1 bornAndKilled [] (.fromU128 2)
    (.fromU128 1) (by simp) (by decide +kernel)

end RegistryState

end TerminalCanvas.Daemon
