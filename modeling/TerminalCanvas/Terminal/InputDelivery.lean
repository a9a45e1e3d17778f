import TerminalCanvas.Foundation.Delivery
import TerminalCanvas.Terminal.InputWriter

/-! # What the input writer delivers

An observer of the calls and of their answers keeps the accepted inputs as a
delivery in order. The writer follows it through every interleaving. -/

namespace TerminalCanvas.Terminal.InputWriter

open LittleEndian Execution

/-- An input that was accepted by `enqueue` or, as the final one, by `enqueue_final`. -/
structure Accepted where
  bytes : Bytes
  isFinal : Bool
deriving DecidableEq

abbrev Deliveries := Delivery Accepted UInt8

/-- The observer. An empty input is accepted without being queued. -/
def watch (seen : Deliveries) : Input → Observation → Deliveries
  | .enqueue bytes, .answered (.ok ()) =>
      if bytes.isEmpty then seen else seen.accept ⟨bytes, false⟩
  | .enqueueFinal bytes, .answered (.ok ()) => seen.supersede ⟨bytes, true⟩
  | .work _, .took => seen.begin
  | .work _, .wrote chunk => seen.write chunk
  | .work _, .settled => seen.settle
  | _, _ => seen

def deliveries (inputs : List Input) : Deliveries :=
  machine.monitor watch .empty new inputs

def ordinaryBytes (items : List Accepted) : Nat :=
  totalBytes ((items.filter (!·.isFinal)).map Accepted.bytes)

theorem totalBytes_cons (bytes : Bytes) (inputs : List Bytes) :
    totalBytes (bytes :: inputs) = bytes.length + totalBytes inputs := by
  simp [totalBytes]

theorem totalBytes_append (first second : List Bytes) :
    totalBytes (first ++ second) = totalBytes first + totalBytes second := by
  simp [totalBytes]

theorem ordinaryBytes_append (first second : List Accepted) :
    ordinaryBytes (first ++ second) = ordinaryBytes first + ordinaryBytes second := by
  simp [ordinaryBytes, totalBytes_append]

theorem ordinaryBytes_eq {items : List Accepted}
    (ordinary : ∀ item ∈ items, item.isFinal = false) :
    ordinaryBytes items = totalBytes (items.map Accepted.bytes) := by
  rw [ordinaryBytes, List.filter_eq_self.mpr]
  intro item member
  simp [ordinary item member]

/-! ## The invariant -/

/-- How far the worker has come with what it has begun. -/
def Written (seen : Deliveries) : Worker → Prop
  | .waiting | .flushing _ _ | .settling _ (.ok true) => seen.Whole Accepted.bytes
  | .writing _ offset _ => ∃ item, seen.inFlight = some item ∧
      seen.Reaches Accepted.bytes item offset
  | _ => seen.InOrder Accepted.bytes

/-- While the writer is open its queue and its budget are those of the deliveries. -/
structure Accounts (state : State) (seen : Deliveries) : Prop where
  pending : state.pending = seen.queued.map Accepted.bytes
  buffered : state.buffered = totalBytes (seen.outstanding.map Accepted.bytes)
  ordinary : state.finishing = false → ∀ item ∈ seen.outstanding, item.isFinal = false
  budget : ordinaryBytes seen.outstanding ≤ maxInputBytes

structure Follows (writer : InputWriter) (seen : Deliveries) : Prop where
  inFlight : writer.worker.inFlight = seen.inFlight.map Accepted.bytes
  written : Written seen writer.worker
  opened : writer.state.closed = false → Accounts writer.state seen
  closed : writer.state.closed = true → writer.state.pending = []

theorem Written.inOrder {seen : Deliveries} {worker : Worker} (written : Written seen worker) :
    seen.InOrder Accepted.bytes := by
  cases worker with
  | waiting => exact Delivery.Whole.inOrder written
  | writing bytes offset attempt =>
      obtain ⟨item, _, reaches⟩ := written
      exact reaches.inOrder
  | flushing bytes attempt => exact Delivery.Whole.inOrder written
  | settling bytes result =>
      match result, written with
      | .ok true, whole => exact Delivery.Whole.inOrder whole
      | .ok false, inOrder => exact inOrder
      | .error _, inOrder => exact inOrder
  | returned => exact written
  | gone => exact written

theorem new_follows : Follows new .empty where
  inFlight := rfl
  written := rfl
  opened _ := ⟨rfl, rfl, fun _ _ member => by simp [Delivery.outstanding, Delivery.empty] at member,
    by decide⟩
  closed _ := rfl

variable {writer : InputWriter} {seen : Deliveries}

/-! ## Callers -/

theorem Accounts.accept {state : State} (accounts : Accounts state seen) {bytes : Bytes}
    (fits : state.refusal bytes = none) :
    Accounts (state.enqueue bytes).2 (seen.accept ⟨bytes, false⟩) := by
  have room : bytes.length ≤ maxInputBytes - state.buffered := by
    by_contra full
    rw [State.refusal] at fits
    split at fits
    · cases fits
    · split at fits
      · cases fits
      · rw [if_pos (by omega)] at fits
        cases fits
  have unfinished : state.finishing = false := by
    rw [State.refusal] at fits
    split at fits
    · cases fits
    · split at fits
      · cases fits
      · next running =>
          simp only [Bool.or_eq_true, not_or, Bool.not_eq_true] at running
          exact running.2
  have outstanding : (seen.accept ⟨bytes, false⟩).outstanding =
      seen.outstanding ++ [⟨bytes, false⟩] := by
    rw [Delivery.outstanding, Delivery.outstanding, List.append_assoc]
    rfl
  have ordinary := accounts.ordinary unfinished
  have all : ordinaryBytes seen.outstanding = state.buffered := by
    rw [ordinaryBytes_eq ordinary, accounts.buffered]
  rw [State.enqueue, fits]
  constructor
  · simp only [Delivery.accept, List.map_append, List.map_cons, List.map_nil, accounts.pending]
  · rw [outstanding, List.map_append, totalBytes_append, ← accounts.buffered]
    simp [totalBytes]
  · intro _ item member
    rw [outstanding, List.mem_append] at member
    rcases member with member | member
    · exact ordinary item member
    · rw [List.mem_singleton.mp member]
  · have single : ordinaryBytes [⟨bytes, false⟩] = bytes.length := by
      simp [ordinaryBytes, totalBytes]
    have within := accounts.budget
    rw [outstanding, ordinaryBytes_append, single]
    omega

theorem Accounts.supersede {state : State} (accounts : Accounts state seen) (bytes : Bytes)
    (running : state.closed = false) :
    Accounts (state.enqueueFinal bytes).2 (seen.supersede ⟨bytes, true⟩) := by
  have split : (seen.supersede ⟨bytes, true⟩).outstanding =
      seen.inFlight.toList ++ [⟨bytes, true⟩] := rfl
  have buffered := accounts.buffered
  rw [Delivery.outstanding, List.map_append, totalBytes_append, ← accounts.pending] at buffered
  rw [State.enqueueFinal, running]
  constructor
  · rfl
  · rw [split, List.map_append, totalBytes_append]
    simp only [Bool.false_eq_true, if_false]
    rw [buffered]
    simp [totalBytes]
  · intro unfinished
    cases unfinished
  · have single : ordinaryBytes [⟨bytes, true⟩] = 0 := rfl
    have within := accounts.budget
    rw [Delivery.outstanding, ordinaryBytes_append] at within
    rw [split, ordinaryBytes_append, single]
    omega

theorem Follows.ofState (follows : Follows writer seen) (state : State) (poisoned : Bool)
    (after : Deliveries) (begun : after.begun = seen.begun)
    (inFlight : after.inFlight = seen.inFlight) (output : after.output = seen.output)
    (opened : state.closed = false → Accounts state after)
    (closed : state.closed = true → state.pending = []) :
    Follows { writer with state := state, poisoned := poisoned } after where
  inFlight := by rw [inFlight]; exact follows.inFlight
  written := by
    have written := follows.written
    cases writer with
    | mk state poisoned worker finished =>
        obtain ⟨begun', inFlight', queued', output'⟩ := after
        obtain ⟨begunBefore, inFlightBefore, queuedBefore, outputBefore⟩ := seen
        cases begun
        cases inFlight
        cases output
        cases worker with
        | settling bytes result =>
            match result, written with
            | .ok true, whole => exact whole
            | .ok false, inOrder => exact ⟨inOrder.earlier, inOrder.begun⟩
            | .error _, inOrder => exact ⟨inOrder.earlier, inOrder.begun⟩
        | waiting => exact written
        | writing bytes offset attempt => exact written
        | flushing bytes attempt => exact written
        | returned => exact ⟨written.earlier, written.begun⟩
        | gone => exact ⟨written.earlier, written.begun⟩
  opened := opened
  closed := closed

theorem locked_poisoned (operation : State → Except InputError Unit × State)
    (poisoned : writer.poisoned = true) :
    writer.locked operation = ⟨writer, .answered (.error queuePoisoned)⟩ := by
  rw [InputWriter.locked, poisoned]
  rfl

theorem locked_healthy (operation : State → Except InputError Unit × State)
    (healthy : writer.poisoned = false) :
    writer.locked operation = ⟨{ writer with state := (operation writer.state).2 },
      .answered (operation writer.state).1⟩ := by
  rw [InputWriter.locked, healthy]
  rfl

theorem enqueue_refused {state : State} {bytes : Bytes} {failure : InputError}
    (refused : state.refusal bytes = some failure) :
    state.enqueue bytes = (.error failure, { state with error := some failure.message }) := by
  rw [State.enqueue, refused]

theorem enqueue_accepted {state : State} {bytes : Bytes}
    (fits : state.refusal bytes = none) : (state.enqueue bytes).1 = .ok () := by
  rw [State.enqueue, fits]

theorem refusal_closed {state : State} {bytes : Bytes} (fits : state.refusal bytes = none) :
    state.closed = false := by
  rw [State.refusal] at fits
  split at fits
  · cases fits
  · split at fits
    · cases fits
    · next running =>
        simp only [Bool.or_eq_true, not_or, Bool.not_eq_true] at running
        exact running.1

theorem Follows.enqueue (follows : Follows writer seen) (bytes : Bytes) :
    Follows (writer.enqueue bytes).nextState
      (watch seen (.enqueue bytes) (writer.enqueue bytes).observation) := by
  rw [InputWriter.enqueue]
  by_cases empty : bytes.isEmpty = true
  · rw [if_pos empty]
    simp only [watch, empty, if_true]
    exact follows
  rw [if_neg empty]
  cases poisoned : writer.poisoned with
  | true =>
      rw [locked_poisoned _ poisoned]
      exact follows
  | false =>
      rw [locked_healthy _ poisoned]
      cases refused : writer.state.refusal bytes with
      | some failure =>
          simp only [enqueue_refused refused]
          refine follows.ofState _ _ seen rfl rfl rfl ?_ follows.closed
          intro running
          have accounts := follows.opened running
          exact ⟨accounts.pending, accounts.buffered, accounts.ordinary, accounts.budget⟩
      | none =>
          simp only [enqueue_accepted refused, watch, if_neg empty]
          refine follows.ofState _ _ _ rfl rfl rfl ?_ ?_
          · intro _
            exact (follows.opened (refusal_closed refused)).accept refused
          · intro closed
            rw [State.enqueue, refused] at closed
            rw [refusal_closed refused] at closed
            cases closed

theorem Follows.enqueueFinal (follows : Follows writer seen) (bytes : Bytes) :
    Follows (writer.enqueueFinal bytes).nextState
      (watch seen (.enqueueFinal bytes) (writer.enqueueFinal bytes).observation) := by
  rw [InputWriter.enqueueFinal]
  cases poisoned : writer.poisoned with
  | true =>
      rw [locked_poisoned _ poisoned]
      exact follows
  | false =>
      rw [locked_healthy _ poisoned]
      cases closed : writer.state.closed with
      | true =>
          simp only [State.enqueueFinal, closed, if_true]
          exact follows.ofState _ _ seen rfl rfl rfl follows.opened follows.closed
      | false =>
          have answer : (writer.state.enqueueFinal bytes).1 = .ok () := by
            simp [State.enqueueFinal, closed]
          simp only [answer, watch]
          refine follows.ofState _ _ _ rfl rfl rfl ?_ ?_
          · intro _
            exact (follows.opened closed).supersede bytes closed
          · intro finished
            simp [State.enqueueFinal, closed] at finished

theorem Follows.close (follows : Follows writer seen) : Follows writer.close seen := by
  rw [InputWriter.close, lockedOrSkip]
  split
  · exact follows
  · refine follows.ofState _ _ seen rfl rfl rfl ?_ ?_
    · intro running
      cases running
    · intro _
      rfl

theorem Follows.checkOpen (follows : Follows writer seen) :
    Follows writer.checkOpen.nextState seen := by
  rw [InputWriter.checkOpen]
  cases poisoned : writer.poisoned with
  | true =>
      rw [locked_poisoned _ poisoned]
      exact follows
  | false =>
      rw [locked_healthy _ poisoned]
      exact follows.ofState _ _ seen rfl rfl rfl follows.opened follows.closed

theorem Follows.recordError (follows : Follows writer seen) (message : String) :
    Follows (writer.recordError message) seen := by
  rw [InputWriter.recordError, lockedOrSkip]
  split
  · exact follows
  · refine follows.ofState _ _ seen rfl rfl rfl ?_ follows.closed
    intro running
    have accounts := follows.opened running
    exact ⟨accounts.pending, accounts.buffered, accounts.ordinary, accounts.budget⟩

theorem Follows.drop (follows : Follows writer seen) (lastOwner : Bool) :
    Follows (writer.drop lastOwner) seen := by
  have either : writer.drop lastOwner = writer.close ∨ writer.drop lastOwner = writer := by
    rw [InputWriter.drop]
    exact ite_eq_or_eq _ _ _
  rcases either with closes | stays
  · rw [closes]
    exact follows.close
  · rw [stays]
    exact follows

/-! ## The worker -/

theorem Follows.moves (follows : Follows writer seen) {worker : Worker}
    (inFlight : worker.inFlight = writer.worker.inFlight) (written : Written seen worker) :
    Follows { writer with worker := worker } seen :=
  ⟨inFlight.trans follows.inFlight, written, follows.opened, follows.closed⟩

theorem Follows.unlessClosed (follows : Follows writer seen) {bytes : Bytes} {next : Worker}
    (busy : writer.worker.inFlight = some bytes) (inFlight : next.inFlight = some bytes)
    (written : Written seen next) :
    Follows (writer.unlessClosed bytes next).nextState seen ∧
      (writer.unlessClosed bytes next).observation = .silent := by
  rw [InputWriter.unlessClosed]
  split
  · exact ⟨follows.moves busy.symm follows.written.inOrder, rfl⟩
  · exact ⟨follows.moves (inFlight.trans busy.symm) written, rfl⟩

theorem Follows.callFailed (follows : Follows writer seen) {bytes : Bytes}
    (error : InputError) {retry : Worker}
    (busy : writer.worker.inFlight = some bytes) (inFlight : retry.inFlight = some bytes)
    (written : Written seen retry) :
    Follows (writer.callFailed bytes error retry).nextState seen ∧
      (writer.callFailed bytes error retry).observation = .silent := by
  rw [InputWriter.callFailed]
  split
  · exact ⟨follows.moves (inFlight.trans busy.symm) written, rfl⟩
  · exact ⟨follows.moves busy.symm follows.written.inOrder, rfl⟩

theorem writeLoop_inFlight (bytes : Bytes) (offset : Nat) :
    (writeLoop bytes offset).inFlight = some bytes := by
  rw [writeLoop]
  split <;> rfl

theorem written_writeLoop {item : Accepted} {offset : Nat}
    (inFlight : seen.inFlight = some item)
    (reaches : seen.Reaches Accepted.bytes item offset) :
    Written seen (writeLoop item.bytes offset) := by
  rw [writeLoop]
  split
  · exact ⟨item, inFlight, reaches⟩
  · next covered => exact reaches.whole (Nat.le_of_not_lt covered)

theorem Follows.takeInput (follows : Follows writer seen) (idle : writer.worker = .waiting)
    (answer : Except InputError Nat) :
    Follows writer.takeInput.nextState
      (watch seen (.work answer) writer.takeInput.observation) := by
  have inFlight := follows.inFlight
  have written := follows.written
  rw [idle] at inFlight written
  have free : seen.inFlight = none := by
    cases busy : seen.inFlight with
    | none => rfl
    | some item => simp [busy, Worker.inFlight] at inFlight
  rw [InputWriter.takeInput]
  split
  · exact follows.moves (by rw [idle]; rfl) written.inOrder
  next stays =>
    cases pending : writer.state.pending with
    | nil => exact follows
    | cons bytes rest =>
        have running : writer.state.closed = false := by
          simp only [Bool.or_eq_true, not_or, Bool.not_eq_true] at stays
          exact stays.1
        have accounts := follows.opened running
        have queue := accounts.pending
        rw [pending] at queue
        cases queued : seen.queued with
        | nil => simp [queued] at queue
        | cons item others =>
            simp only [queued, List.map_cons, List.cons.injEq] at queue
            obtain ⟨rfl, rest⟩ := queue
            have begun : seen.begin = ⟨seen.begun ++ [item], some item, others, seen.output⟩ := by
              rw [Delivery.begin, queued]
            have same : seen.begin.outstanding = seen.outstanding := by
              rw [begun, Delivery.outstanding, Delivery.outstanding, free, queued]
              rfl
            constructor
            · simp only [writeLoop_inFlight, watch, begun, Option.map_some]
            · apply @written_writeLoop _ item
              · simp only [watch, begun]
              · exact Delivery.Whole.begin written queued
            · intro _
              simp only [watch]
              constructor
              · simp only [begun, rest]
              · rw [same]
                exact accounts.buffered
              · rw [same]
                exact accounts.ordinary
              · rw [same]
                exact accounts.budget
            · intro closed
              simp only [running] at closed
              cases closed

theorem Follows.wrote (follows : Follows writer seen) {bytes : Bytes} {offset : Nat}
    (calling : writer.worker = .writing bytes offset .call) (count : Nat) :
    Follows { writer with worker := writeLoop bytes (offset + count) }
      (seen.write ((bytes.drop offset).take count)) := by
  have inFlight := follows.inFlight
  have written := follows.written
  rw [calling] at inFlight written
  obtain ⟨item, begun, reaches⟩ := written
  simp only [begun, Worker.inFlight, Option.map_some, Option.some.injEq] at inFlight
  subst inFlight
  constructor
  · rw [writeLoop_inFlight]
    simp only [Delivery.write, begun, Option.map_some]
  · exact written_writeLoop (by simpa only [Delivery.write] using begun) (reaches.write count)
  · intro running
    have accounts := follows.opened running
    exact ⟨accounts.pending, accounts.buffered, accounts.ordinary, accounts.budget⟩
  · exact follows.closed

theorem outstanding_settle {item : Accepted} (busy : seen.inFlight = some item) :
    seen.outstanding = item :: seen.settle.outstanding := by
  rw [Delivery.outstanding, busy]
  rfl

theorem Accounts.settle {state : State} (accounts : Accounts state seen) {item : Accepted}
    (busy : seen.inFlight = some item) :
    Accounts { state with buffered := state.buffered - item.bytes.length } seen.settle := by
  have split := outstanding_settle busy
  have buffered := accounts.buffered
  have ordinary := accounts.ordinary
  have budget := accounts.budget
  rw [split] at buffered ordinary budget
  rw [List.map_cons, totalBytes_cons] at buffered
  constructor
  · exact accounts.pending
  · simp only
    omega
  · intro unfinished other member
    exact ordinary unfinished other (List.mem_cons_of_mem _ member)
  · rw [← List.singleton_append, ordinaryBytes_append] at budget
    omega

theorem Follows.settle (follows : Follows writer seen) {bytes : Bytes}
    {result : Except InputError Bool} (settling : writer.worker = .settling bytes result) :
    Follows (writer.settle bytes result).nextState seen.settle ∧
      (writer.settle bytes result).observation = .settled := by
  have inFlight := follows.inFlight
  have written := follows.written
  rw [settling] at inFlight written
  obtain ⟨item, busy, equal⟩ : ∃ item, seen.inFlight = some item ∧ item.bytes = bytes := by
    cases busy : seen.inFlight with
    | none => simp [busy, Worker.inFlight] at inFlight
    | some item => exact ⟨item, rfl, by simpa [busy, Worker.inFlight] using inFlight.symm⟩
  subst equal
  have inOrder : seen.settle.InOrder Accepted.bytes :=
    ⟨written.inOrder.earlier, written.inOrder.begun⟩
  have opened : writer.state.closed = false → Accounts
      { writer.state with buffered := writer.state.buffered - item.bytes.length }
      seen.settle :=
    fun running => (follows.opened running).settle busy
  match result, written with
  | .error error, _ => exact ⟨⟨rfl, inOrder, nofun, fun _ => rfl⟩, rfl⟩
  | .ok false, _ => exact ⟨⟨rfl, inOrder, opened, follows.closed⟩, rfl⟩
  | .ok true, whole => exact ⟨⟨rfl, whole, opened, follows.closed⟩, rfl⟩

theorem Follows.work (follows : Follows writer seen) (answer : Except InputError Nat) :
    Follows (writer.work answer).nextState
      (watch seen (.work answer) (writer.work answer).observation) := by
  have silent : ∀ {result : StepResult InputWriter Observation},
      Follows result.nextState seen ∧ result.observation = .silent →
        Follows result.nextState (watch seen (.work answer) result.observation) := by
    intro result ⟨kept, quiet⟩
    rw [quiet]
    exact kept
  have written := follows.written
  cases worker : writer.worker with
  | waiting =>
      simp only [InputWriter.work, worker]
      exact follows.takeInput worker answer
  | writing bytes offset attempt =>
      have busy : writer.worker.inFlight = some bytes := by rw [worker]; rfl
      rw [worker] at written
      have stays : ∀ attempt, Written seen (.writing bytes offset attempt) := fun _ => written
      cases attempt with
      | check =>
          simp only [InputWriter.work, worker]
          exact silent (follows.unlessClosed busy rfl (stays .call))
      | call =>
          match answer with
          | .ok 0 =>
              simp only [InputWriter.work, worker]
              exact follows.moves (by rw [busy]; rfl) (stays .call).inOrder
          | .ok (count + 1) =>
              simp only [InputWriter.work, worker]
              exact follows.wrote worker (count + 1)
          | .error error =>
              simp only [InputWriter.work, worker]
              exact silent (follows.callFailed error busy rfl (stays .retry))
      | retry =>
          simp only [InputWriter.work, worker]
          exact silent (follows.unlessClosed busy rfl (stays .wait))
      | wait =>
          simp only [InputWriter.work, worker]
          exact silent (follows.unlessClosed busy rfl (stays .check))
  | flushing bytes attempt =>
      have busy : writer.worker.inFlight = some bytes := by rw [worker]; rfl
      rw [worker] at written
      have stays : ∀ attempt, Written seen (.flushing bytes attempt) := fun _ => written
      cases attempt with
      | check =>
          simp only [InputWriter.work, worker]
          exact silent (follows.unlessClosed busy rfl (stays .call))
      | call =>
          match answer with
          | .ok count =>
              simp only [InputWriter.work, worker]
              exact follows.moves (by rw [busy]; rfl) written
          | .error error =>
              simp only [InputWriter.work, worker]
              exact silent (follows.callFailed error busy rfl (stays .retry))
      | retry =>
          simp only [InputWriter.work, worker]
          exact silent (follows.unlessClosed busy rfl (stays .wait))
      | wait =>
          simp only [InputWriter.work, worker]
          exact silent (follows.unlessClosed busy rfl (stays .check))
  | settling bytes result =>
      obtain ⟨settled, observed⟩ := follows.settle worker
      simp only [InputWriter.work, worker]
      rw [observed]
      exact settled
  | returned =>
      have inFlight := follows.inFlight
      rw [worker] at written inFlight
      simp only [InputWriter.work, worker]
      exact ⟨inFlight, written, follows.opened, follows.closed⟩
  | gone =>
      simp only [InputWriter.work, worker]
      exact follows

theorem Follows.step (follows : Follows writer seen) (input : Input) :
    Follows (machine.next writer input) (watch seen input (machine.observe writer input)) := by
  cases input with
  | enqueue bytes => exact follows.enqueue bytes
  | enqueueFinal bytes => exact follows.enqueueFinal bytes
  | checkOpen => exact follows.checkOpen
  | recordError message => exact follows.recordError message
  | close => exact follows.close
  | drop lastOwner => exact follows.drop lastOwner
  | poison =>
      exact follows.ofState _ true seen rfl rfl rfl follows.opened follows.closed
  | work answer => exact follows.work answer

theorem run_follows (inputs : List Input) :
    Follows (machine.run new inputs) (deliveries inputs) :=
  machine.monitor_invariant watch Follows (fun _ _ input follows => follows.step input)
    new_follows inputs

/-! ## Rejections -/

def withError (writer : InputWriter) (error : Option String) : InputWriter :=
  { writer with state := { writer.state with error := error } }

theorem locked_error {operation : State → Except InputError Unit × State} {failure : InputError}
    (keeps : ∀ failure, (operation writer.state).1 = .error failure →
      ∃ error, (operation writer.state).2 = { writer.state with error := error })
    (rejected : (writer.locked operation).observation = .answered (.error failure)) :
    ∃ error, (writer.locked operation).nextState = writer.withError error := by
  cases poisoned : writer.poisoned with
  | true =>
      rw [locked_poisoned _ poisoned]
      exact ⟨writer.state.error, rfl⟩
  | false =>
      rw [locked_healthy _ poisoned] at rejected ⊢
      obtain ⟨error, kept⟩ := keeps failure (by simpa using rejected)
      exact ⟨error, by simp only [kept]; rfl⟩

theorem enqueue_keeps {state : State} {bytes : Bytes} {failure : InputError}
    (rejected : (state.enqueue bytes).1 = .error failure) :
    ∃ error, (state.enqueue bytes).2 = { state with error := error } := by
  cases refused : state.refusal bytes with
  | some failure => exact ⟨some failure.message, by rw [enqueue_refused refused]⟩
  | none =>
      rw [enqueue_accepted refused] at rejected
      cases rejected

theorem enqueueFinal_keeps {state : State} {bytes : Bytes} {failure : InputError}
    (rejected : (state.enqueueFinal bytes).1 = .error failure) :
    ∃ error, (state.enqueueFinal bytes).2 = { state with error := error } := by
  by_cases closed : state.closed = true
  · have kept : (state.enqueueFinal bytes).2 = state := by
      rw [State.enqueueFinal, if_pos closed]
    exact ⟨state.error, kept⟩
  · rw [State.enqueueFinal, if_neg closed] at rejected
    cases rejected

theorem work_observation (answer : Except InputError Nat) (result : Except InputError Unit) :
    (writer.work answer).observation ≠ .answered result := by
  intro answered
  cases worker : writer.worker with
  | waiting =>
      simp only [InputWriter.work, worker, InputWriter.takeInput] at answered
      split at answered
      · cases answered
      · split at answered <;> cases answered
  | writing bytes offset attempt =>
      cases attempt <;> simp only [InputWriter.work, worker, InputWriter.unlessClosed] at answered
      case call =>
        split at answered
        · cases answered
        · cases answered
        · rw [InputWriter.callFailed] at answered
          split at answered <;> cases answered
      all_goals split at answered <;> cases answered
  | flushing bytes attempt =>
      cases attempt <;> simp only [InputWriter.work, worker, InputWriter.unlessClosed] at answered
      case call =>
        split at answered
        · cases answered
        · rw [InputWriter.callFailed] at answered
          split at answered <;> cases answered
      all_goals split at answered <;> cases answered
  | settling bytes result =>
      simp only [InputWriter.work, worker, InputWriter.settle] at answered
      split at answered <;> cases answered
  | returned => simp [InputWriter.work, worker] at answered
  | gone => simp [InputWriter.work, worker] at answered

theorem rejected_step (seen : Deliveries) {input : Input} {failure : InputError}
    (rejected : machine.observe writer input = .answered (.error failure)) :
    watch seen input (machine.observe writer input) = seen ∧
      ∃ error, machine.next writer input = writer.withError error := by
  have unseen : ∀ input, watch seen input (.answered (.error failure)) = seen := by
    intro input
    cases input <;> rfl
  refine ⟨by rw [rejected]; exact unseen input, ?_⟩
  cases input with
  | enqueue bytes =>
      simp only [Machine.observe, Machine.next, machine, InputWriter.step,
        InputWriter.enqueue] at rejected ⊢
      split at rejected
      · cases rejected
      · next filled =>
          rw [if_neg filled]
          exact locked_error (fun failure => enqueue_keeps) rejected
  | enqueueFinal bytes => exact locked_error (fun failure => enqueueFinal_keeps) rejected
  | checkOpen => exact locked_error (fun _ _ => ⟨writer.state.error, rfl⟩) rejected
  | recordError message => cases rejected
  | close => cases rejected
  | drop lastOwner => cases rejected
  | poison => cases rejected
  | work answer => exact absurd rejected (work_observation answer _)

/-! ## Every run -/

/-- What the OS has accepted is the beginning of the accepted inputs in their order,
each of them once; a rejected call contributes nothing; and while the writer is open
the budget is what is pending and in flight, within the limit but for final messages. -/
theorem input_delivered_in_order (inputs : List Input) :
    ((deliveries inputs).output <+: (deliveries inputs).accepted.flatMap Accepted.bytes ∧
      (deliveries inputs).InOrder Accepted.bytes) ∧
    (∀ input failure,
      machine.observe (machine.run new inputs) input = .answered (.error failure) →
        deliveries (inputs ++ [input]) = deliveries inputs ∧
        ∃ error, machine.run new (inputs ++ [input]) =
          (machine.run new inputs).withError error) ∧
    (machine.run new inputs).worker.inFlight =
      (deliveries inputs).inFlight.map Accepted.bytes ∧
    ((machine.run new inputs).state.closed = false →
      (machine.run new inputs).state.pending =
        (deliveries inputs).queued.map Accepted.bytes ∧
      (machine.run new inputs).state.buffered =
        totalBytes ((machine.run new inputs).worker.inFlight.toList ++
          (machine.run new inputs).state.pending) ∧
      ordinaryBytes (deliveries inputs).outstanding ≤ maxInputBytes ∧
      ((machine.run new inputs).state.finishing = false →
        (machine.run new inputs).state.buffered ≤ maxInputBytes)) := by
  have follows := run_follows inputs
  refine ⟨⟨follows.written.inOrder.accepted, follows.written.inOrder⟩, ?_,
    follows.inFlight, ?_⟩
  · intro input failure rejected
    obtain ⟨unseen, error, kept⟩ := rejected_step (deliveries inputs) rejected
    refine ⟨?_, error, ?_⟩
    · rw [deliveries, machine.monitor_append]
      exact unseen
    · rw [machine.run_append]
      exact kept
  · intro running
    have accounts := follows.opened running
    refine ⟨accounts.pending, ?_, accounts.budget, ?_⟩
    · rw [accounts.buffered, Delivery.outstanding, List.map_append, follows.inFlight,
        accounts.pending]
      cases (deliveries inputs).inFlight <;> rfl
    · intro unfinished
      have budget := accounts.budget
      rw [ordinaryBytes_eq (accounts.ordinary unfinished), ← accounts.buffered] at budget
      exact budget

end TerminalCanvas.Terminal.InputWriter
