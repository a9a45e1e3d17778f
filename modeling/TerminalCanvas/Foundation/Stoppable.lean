/-! # Programs that may be stopped

A program replaces a durable state one write at a time, beside a volatile state
that is lost when the process stops. It may stop after any of its writes, so a
program is judged by every durable state it passes, not only by the last. -/

namespace TerminalCanvas.Stoppable

/-- What a whole run of a program comes to. -/
structure Outcome (Durable Volatile Label Result : Type) where
  result : Result
  volatile : Volatile
  /-- The writes in order, each with the state it left. -/
  writes : List (Label × Durable)

def Program (Durable Volatile Label Result : Type) : Type :=
  Durable → Volatile → Outcome Durable Volatile Label Result

variable {Durable Volatile Label Result First : Type}

def lastState (durable : Durable) : List (Label × Durable) → Durable
  | [] => durable
  | (_, next) :: later => lastState next later

@[simp] theorem lastState_append (durable : Durable) (first second : List (Label × Durable)) :
    lastState durable (first ++ second) = lastState (lastState durable first) second := by
  induction first generalizing durable with
  | nil => rfl
  | cons write writes induction => exact induction _

namespace Program

def pure (result : Result) : Program Durable Volatile Label Result :=
  fun _ volatile => ⟨result, volatile, []⟩

def bind (first : Program Durable Volatile Label First)
    (rest : First → Program Durable Volatile Label Result) :
    Program Durable Volatile Label Result :=
  fun durable volatile =>
    let done := first durable volatile
    let following := rest done.result (lastState durable done.writes) done.volatile
    ⟨following.result, following.volatile, done.writes ++ following.writes⟩

instance : Monad (Program Durable Volatile Label) where
  pure := pure
  bind := bind

def read : Program Durable Volatile Label Durable :=
  fun durable volatile => ⟨durable, volatile, []⟩

def recollect : Program Durable Volatile Label Volatile :=
  fun _ volatile => ⟨volatile, volatile, []⟩

def remember (change : Volatile → Volatile) : Program Durable Volatile Label Unit :=
  fun _ volatile => ⟨(), change volatile, []⟩

def write (change : Durable → Result × Durable) (label : Result → Label) :
    Program Durable Volatile Label Result :=
  fun durable volatile =>
    let (result, next) := change durable
    ⟨result, volatile, [(label result, next)]⟩

def collect {Item : Type} (body : Item → Program Durable Volatile Label (List Result)) :
    List Item → Program Durable Volatile Label (List Result)
  | [] => Pure.pure []
  | item :: items => do
      let done ← body item
      let following ← collect body items
      return done ++ following

end Program

/-! ## Steps -/

section Steps

variable (Step : Durable → Label → Durable → Prop)

/-- Each write does what its label says. -/
def Chain (durable : Durable) : List (Label × Durable) → Prop
  | [] => True
  | (label, next) :: later => Step durable label next ∧ Chain next later

variable {Step} {durable : Durable}

theorem chain_append {first second : List (Label × Durable)} :
    Chain Step durable (first ++ second) ↔
      Chain Step durable first ∧ Chain Step (lastState durable first) second := by
  induction first generalizing durable with
  | nil => simp [Chain, lastState]
  | cons write writes induction => simp [Chain, lastState, induction, and_assoc]

theorem Chain.take {writes : List (Label × Durable)} (chain : Chain Step durable writes)
    (count : Nat) : Chain Step durable (writes.take count) := by
  rw [← List.take_append_drop count writes] at chain
  exact (chain_append.mp chain).1

/-- What an observer makes of the labels is what it sees in the last state. -/
theorem Chain.observed {Seen : Type} {record : Seen → Label → Seen} {observe : Durable → Seen}
    (shows : ∀ before label after, Step before label after →
      observe after = record (observe before) label)
    {writes : List (Label × Durable)} (chain : Chain Step durable writes) :
    observe (lastState durable writes) = (writes.map Prod.fst).foldl record (observe durable) := by
  induction writes generalizing durable with
  | nil => rfl
  | cons write writes induction =>
      rw [List.map_cons, List.foldl_cons, ← shows _ _ _ chain.1]
      exact induction chain.2

theorem Chain.invariant (Invariant : Durable → Prop) (Allowed : Label → Prop)
    (keeps : ∀ before label after, Step before label after → Allowed label →
      Invariant before → Invariant after)
    {writes : List (Label × Durable)} (chain : Chain Step durable writes)
    (allowed : ∀ label ∈ writes.map Prod.fst, Allowed label) (start : Invariant durable) :
    Invariant (lastState durable writes) := by
  induction writes generalizing durable with
  | nil => exact start
  | cons write writes induction =>
      rw [List.map_cons, List.forall_mem_cons] at allowed
      exact induction chain.2 allowed.2 (keeps _ _ _ chain.1 allowed.1 start)

/-! ## What a program ensures -/

variable (Step) in
/-- From some states a program makes steps only, and ends as described: with a
result, a durable state, a volatile state and the labels of its writes. -/
structure Ensures (program : Program Durable Volatile Label Result) (durable : Durable)
    (volatile : Volatile) (ends : Result → Durable → Volatile → List Label → Prop) : Prop where
  chain : Chain Step durable (program durable volatile).writes
  ends : ends (program durable volatile).result
    (lastState durable (program durable volatile).writes) (program durable volatile).volatile
    ((program durable volatile).writes.map Prod.fst)

namespace Ensures

variable {volatile : Volatile} {ends : Result → Durable → Volatile → List Label → Prop}

theorem mono {program : Program Durable Volatile Label Result}
    {weaker : Result → Durable → Volatile → List Label → Prop}
    (ensures : Ensures Step program durable volatile ends)
    (implies : ∀ result durable volatile labels, ends result durable volatile labels →
      weaker result durable volatile labels) : Ensures Step program durable volatile weaker :=
  ⟨ensures.chain, implies _ _ _ _ ensures.ends⟩

theorem pure {result : Result} (holds : ends result durable volatile []) :
    Ensures Step (Pure.pure result) durable volatile ends :=
  ⟨trivial, holds⟩

theorem seq {first : Program Durable Volatile Label First}
    {rest : First → Program Durable Volatile Label Result}
    {done : First → Durable → Volatile → List Label → Prop}
    (begins : Ensures Step first durable volatile done)
    (continues : ∀ value durable volatile labels, done value durable volatile labels →
      Ensures Step (rest value) durable volatile fun result durable volatile later =>
        ends result durable volatile (labels ++ later)) :
    Ensures Step (first >>= rest) durable volatile ends := by
  have following := continues _ _ _ _ begins.ends
  constructor
  · exact chain_append.mpr ⟨begins.chain, following.chain⟩
  · have last := lastState_append durable (first durable volatile).writes
      (rest (first durable volatile).result
        (lastState durable (first durable volatile).writes)
        (first durable volatile).volatile).writes
    have finished := following.ends
    rw [← last, ← List.map_append] at finished
    exact finished

theorem pure_bind {value : First} {rest : First → Program Durable Volatile Label Result}
    (ensures : Ensures Step (rest value) durable volatile ends) :
    Ensures Step (Pure.pure value >>= rest) durable volatile ends :=
  ⟨ensures.chain, ensures.ends⟩

theorem read_bind {rest : Durable → Program Durable Volatile Label Result}
    (ensures : Ensures Step (rest durable) durable volatile ends) :
    Ensures Step (Program.read >>= rest) durable volatile ends :=
  ⟨ensures.chain, ensures.ends⟩

theorem recollect_bind {rest : Volatile → Program Durable Volatile Label Result}
    (ensures : Ensures Step (rest volatile) durable volatile ends) :
    Ensures Step (Program.recollect >>= rest) durable volatile ends :=
  ⟨ensures.chain, ensures.ends⟩

theorem remember_bind {change : Volatile → Volatile}
    {rest : Unit → Program Durable Volatile Label Result}
    (ensures : Ensures Step (rest ()) durable (change volatile) ends) :
    Ensures Step (Program.remember change >>= rest) durable volatile ends :=
  ⟨ensures.chain, ensures.ends⟩

theorem write_bind {change : Durable → First × Durable} {label : First → Label}
    {rest : First → Program Durable Volatile Label Result}
    (step : Step durable (label (change durable).1) (change durable).2)
    (ensures : Ensures Step (rest (change durable).1) (change durable).2 volatile
      fun result next volatile later =>
        ends result next volatile (label (change durable).1 :: later)) :
    Ensures Step (Program.write change label >>= rest) durable volatile ends :=
  ⟨⟨step, ensures.chain⟩, ensures.ends⟩

theorem collect {Item : Type} {body : Item → Program Durable Volatile Label (List Result)}
    {done : Item → List Result → List Label → Prop}
    (iterates : ∀ item durable volatile, Ensures Step (body item) durable volatile
      fun results _ _ labels => done item results labels)
    {items : List Item} :
    Ensures Step (Program.collect body items) durable volatile fun results _ _ labels =>
      ∀ result ∈ results, ∃ item ∈ items, ∃ own ownLabels, done item own ownLabels ∧
        result ∈ own ∧ ∀ label ∈ ownLabels, label ∈ labels := by
  induction items generalizing durable volatile with
  | nil => exact .pure (by simp)
  | cons item items induction =>
      refine seq (iterates item durable volatile) fun own durable volatile labels finished => ?_
      refine seq induction fun results durable volatile later others => .pure ?_
      intro result member
      rcases List.mem_append.mp member with member | member
      · exact ⟨item, by simp, own, labels, finished, member, fun label held => by simp [held]⟩
      · rcases others result member with ⟨other, among, parts, partLabels, finished, held, kept⟩
        exact ⟨other, by simp [among], parts, partLabels, finished, held,
          fun label inside => by simp [kept label inside]⟩

end Ensures

end Steps

end TerminalCanvas.Stoppable
