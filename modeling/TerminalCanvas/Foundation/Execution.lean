import Mathlib.Data.List.Basic

/-! # Executions of deterministic machines

A machine answers one input at a time. Whatever its environment decides (clocks,
failures, answers of other processes) is part of the input, so that one list of
inputs is one interleaving and a statement about every list is a statement
about every run. -/

namespace TerminalCanvas.Execution

structure StepResult (State Observation : Type) where
  nextState : State
  observation : Observation

structure Machine (State Input Observation : Type) where
  step : State → Input → StepResult State Observation

namespace Machine

variable {State Input Observation : Type}
variable (machine : Machine State Input Observation)

def next (state : State) (input : Input) : State :=
  (machine.step state input).nextState

def observe (state : State) (input : Input) : Observation :=
  (machine.step state input).observation

def run (initial : State) (inputs : List Input) : State :=
  inputs.foldl machine.next initial

@[simp] theorem run_nil (initial : State) : machine.run initial [] = initial := rfl

@[simp] theorem run_cons (initial : State) (input : Input) (inputs : List Input) :
    machine.run initial (input :: inputs) =
      machine.run (machine.next initial input) inputs := rfl

@[simp] theorem run_append (initial : State) (first second : List Input) :
    machine.run initial (first ++ second) =
      machine.run (machine.run initial first) second := by
  simp [run, List.foldl_append]

/-- Every step of a run with the state it started from. -/
def trace (initial : State) : List Input → List (State × Input)
  | [] => []
  | input :: inputs =>
      (initial, input) :: trace (machine.next initial input) inputs

@[simp] theorem trace_nil (initial : State) : machine.trace initial [] = [] := rfl

@[simp] theorem trace_cons (initial : State) (input : Input) (inputs : List Input) :
    machine.trace initial (input :: inputs) =
      (initial, input) :: machine.trace (machine.next initial input) inputs := rfl

theorem mem_trace_iff {initial : State} {inputs : List Input}
    {state : State} {input : Input} :
    (state, input) ∈ machine.trace initial inputs ↔
      ∃ before after, inputs = before ++ input :: after ∧
        state = machine.run initial before := by
  induction inputs generalizing initial with
  | nil => simp
  | cons head tail induction =>
      rw [trace_cons, List.mem_cons, induction]
      constructor
      · rintro (equal | ⟨before, after, split, reached⟩)
        · cases equal
          exact ⟨[], tail, rfl, rfl⟩
        · exact ⟨head :: before, after, by simp [split], by simpa using reached⟩
      · rintro ⟨before, after, split, reached⟩
        cases before with
        | nil =>
            simp only [List.nil_append, List.cons.injEq] at split
            obtain ⟨rfl, rfl⟩ := split
            exact .inl (by simpa using reached)
        | cons first before =>
            simp only [List.cons_append, List.cons.injEq] at split
            obtain ⟨rfl, rfl⟩ := split
            exact .inr ⟨before, after, rfl, by simpa using reached⟩

/-- A property of states that every step keeps holds at the end of every run. -/
theorem run_invariant (Invariant : State → Prop)
    (preserved : ∀ state input, Invariant state → Invariant (machine.next state input))
    {initial : State} (start : Invariant initial) (inputs : List Input) :
    Invariant (machine.run initial inputs) := by
  induction inputs generalizing initial with
  | nil => exact start
  | cons input inputs induction => exact induction (preserved initial input start)

theorem run_invariant_of_trace (Invariant : State → Prop) (Allowed : State → Input → Prop)
    (preserved : ∀ state input, Allowed state input → Invariant state →
      Invariant (machine.next state input))
    {initial : State} (start : Invariant initial) (inputs : List Input)
    (allowed : ∀ state input, (state, input) ∈ machine.trace initial inputs →
      Allowed state input) :
    Invariant (machine.run initial inputs) := by
  induction inputs generalizing initial with
  | nil => exact start
  | cons input inputs induction =>
      apply induction
      · exact preserved initial input (allowed initial input (by simp)) start
      · intro state later member
        exact allowed state later (by simp [member])

/-- A reflexive and transitive relation between the ends of every step relates
the ends of every run. An invariant may be assumed on the way. -/
theorem run_relation (Invariant : State → Prop) (Related : State → State → Prop)
    (reflexive : ∀ state, Related state state)
    (transitive : ∀ {first second third}, Related first second →
      Related second third → Related first third)
    (preserved : ∀ state input, Invariant state → Invariant (machine.next state input))
    (related : ∀ state input, Invariant state → Related state (machine.next state input))
    {initial : State} (start : Invariant initial) (inputs : List Input) :
    Related initial (machine.run initial inputs) := by
  induction inputs generalizing initial with
  | nil => exact reflexive initial
  | cons input inputs induction =>
      exact transitive (related initial input start)
        (induction (preserved initial input start))

theorem run_origin (Property : State → Prop) {initial : State} (absent : ¬ Property initial)
    {inputs : List Input} (acquired : Property (machine.run initial inputs)) :
    ∃ state input, (state, input) ∈ machine.trace initial inputs ∧
      ¬ Property state ∧ Property (machine.next state input) := by
  induction inputs generalizing initial with
  | nil => exact absurd acquired absent
  | cons input inputs induction =>
      by_cases first : Property (machine.next initial input)
      · exact ⟨initial, input, by simp, absent, first⟩
      · obtain ⟨state, later, member, before, behind⟩ := induction first acquired
        exact ⟨state, later, by simp [member], before, behind⟩

/-! ## Monitors -/

section Monitors

variable {Monitor : Type} (watch : Monitor → Input → Observation → Monitor)

/-- What an observer makes of the inputs of a run and of their answers. -/
def monitor (seen : Monitor) (initial : State) : List Input → Monitor
  | [] => seen
  | input :: inputs =>
      monitor (watch seen input (machine.observe initial input))
        (machine.next initial input) inputs

@[simp] theorem monitor_nil (seen : Monitor) (initial : State) :
    machine.monitor watch seen initial [] = seen := rfl

@[simp] theorem monitor_cons (seen : Monitor) (initial : State) (input : Input)
    (inputs : List Input) :
    machine.monitor watch seen initial (input :: inputs) =
      machine.monitor watch (watch seen input (machine.observe initial input))
        (machine.next initial input) inputs := rfl

theorem monitor_append (seen : Monitor) (initial : State) (first second : List Input) :
    machine.monitor watch seen initial (first ++ second) =
      machine.monitor watch (machine.monitor watch seen initial first)
        (machine.run initial first) second := by
  induction first generalizing seen initial with
  | nil => rfl
  | cons input first induction => exact induction _ _

/-- A relation between the state and the observer that every step keeps holds at
the end of every run. -/
theorem monitor_invariant (Related : State → Monitor → Prop)
    (preserved : ∀ state seen input, Related state seen →
      Related (machine.next state input) (watch seen input (machine.observe state input)))
    {initial : State} {seen : Monitor} (start : Related initial seen) (inputs : List Input) :
    Related (machine.run initial inputs) (machine.monitor watch seen initial inputs) := by
  induction inputs generalizing initial seen with
  | nil => exact start
  | cons input inputs induction => exact induction (preserved initial seen input start)

end Monitors

/-! ## Admitted runs -/

/-- Every step of the run meets a condition. -/
def Admits (Allowed : State → Input → Prop) (initial : State) (inputs : List Input) : Prop :=
  ∀ state input, (state, input) ∈ machine.trace initial inputs → Allowed state input

variable {Allowed : State → Input → Prop}

theorem admits_nil (initial : State) : machine.Admits Allowed initial [] := by
  intro state input member
  simp at member

theorem admits_cons {initial : State} {input : Input} {inputs : List Input} :
    machine.Admits Allowed initial (input :: inputs) ↔
      Allowed initial input ∧ machine.Admits Allowed (machine.next initial input) inputs := by
  simp only [Admits, trace_cons, List.mem_cons, Prod.mk.injEq]
  constructor
  · intro admitted
    refine ⟨admitted initial input (.inl ⟨rfl, rfl⟩), ?_⟩
    intro state later member
    exact admitted state later (.inr member)
  · intro ⟨first, others⟩ state later member
    rcases member with equal | member
    · rw [equal.1, equal.2]
      exact first
    · exact others state later member

theorem admits_append {initial : State} {first second : List Input} :
    machine.Admits Allowed initial (first ++ second) ↔
      machine.Admits Allowed initial first ∧
        machine.Admits Allowed (machine.run initial first) second := by
  induction first generalizing initial with
  | nil => simp [admits_nil]
  | cons input first induction =>
      rw [List.cons_append, admits_cons, admits_cons, induction, run_cons, and_assoc]

/-- A property of states that every admitted step keeps holds at the end of every
admitted run. -/
theorem Admits.invariant {initial : State} {inputs : List Input}
    (admitted : machine.Admits Allowed initial inputs) (Invariant : State → Prop)
    (preserved : ∀ state input, Allowed state input → Invariant state →
      Invariant (machine.next state input))
    (start : Invariant initial) : Invariant (machine.run initial inputs) :=
  machine.run_invariant_of_trace Invariant Allowed preserved start inputs admitted

theorem Admits.monitor_invariant {Monitor : Type} {initial : State} {inputs : List Input}
    (admitted : machine.Admits Allowed initial inputs)
    (watch : Monitor → Input → Observation → Monitor) (Related : State → Monitor → Prop)
    (preserved : ∀ state seen input, Allowed state input → Related state seen →
      Related (machine.next state input) (watch seen input (machine.observe state input)))
    {seen : Monitor} (start : Related initial seen) :
    Related (machine.run initial inputs) (machine.monitor watch seen initial inputs) := by
  induction inputs generalizing initial seen with
  | nil => exact start
  | cons input inputs induction =>
      obtain ⟨allowed, others⟩ := machine.admits_cons.mp admitted
      exact induction others (preserved initial seen input allowed start)

/-! ## Actions that happen once -/

/-- An action that only an unspent state performs, and that leaves the state
spent for good, happens at most once in a run. -/
theorem countP_trace_le_one (Invariant Spent : State → Prop) (acts : State × Input → Bool)
    (preserved : ∀ state input, Invariant state → Invariant (machine.next state input))
    (stays : ∀ state input, Invariant state → Spent state →
      Spent (machine.next state input))
    (unspent : ∀ state input, Invariant state → acts (state, input) = true → ¬ Spent state)
    (spends : ∀ state input, Invariant state → acts (state, input) = true →
      Spent (machine.next state input))
    {initial : State} (start : Invariant initial) (inputs : List Input) :
    (machine.trace initial inputs).countP acts ≤ 1 := by
  have none_of_spent : ∀ (inputs : List Input) (state : State), Invariant state →
      Spent state → (machine.trace state inputs).countP acts = 0 := by
    intro inputs
    induction inputs with
    | nil => simp
    | cons input inputs induction =>
        intro state holds spent
        rw [trace_cons, List.countP_cons_of_neg]
        · exact induction _ (preserved state input holds) (stays state input holds spent)
        · exact fun act => unspent state input holds act spent
  induction inputs generalizing initial with
  | nil => simp
  | cons input inputs induction =>
      rw [trace_cons]
      by_cases act : acts (initial, input) = true
      · have afterwards := none_of_spent inputs _ (preserved initial input start)
          (spends initial input start act)
        rw [List.countP_cons_of_pos act]
        omega
      · rw [List.countP_cons_of_neg act]
        exact induction (preserved initial input start)

end Machine

end TerminalCanvas.Execution
