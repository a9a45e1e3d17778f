import TerminalCanvas.Collab.Manager

/-! # Messages are applied once

The counter of a sender is the number of its last message that was applied. Numbers
below the next one are refused, but the next one saturates: behind the last number of
`u64` comes the same number again. -/

namespace TerminalCanvas.Collab.Sharing

open Execution

namespace CollabManager

variable (foreign : Foreign)

/-! ## The counters of the senders -/

@[simp] theorem receivedMessageSeq_withHost (manager : CollabManager)
    (operation : Sending → Sending) :
    (manager.withHost operation).receivedMessageSeq = manager.receivedMessageSeq := by
  unfold withHost
  split <;> rfl

@[simp] theorem receivedMessageSeq_updateHost (manager : CollabManager)
    (change : HostSessionContext → HostSessionContext) :
    (manager.updateHost change).receivedMessageSeq = manager.receivedMessageSeq := rfl

@[simp] theorem receivedMessageSeq_facing (manager : CollabManager) (attempts : List Attempt) :
    (manager.facing attempts).receivedMessageSeq = manager.receivedMessageSeq := rfl

theorem receivedMessageSeq_applyPayload (manager : CollabManager) (sender : ParticipantId)
    (payload : SessionPayload) :
    (manager.applyPayload foreign sender payload).receivedMessageSeq =
      manager.receivedMessageSeq := by
  cases payload with
  | workspaceSnapshot snapshot => rfl
  | controlRequest request => rfl
  | controlGrant grant => rfl
  | controlRevoke revoke =>
      simp only [applyPayload]
      split
      · exact receivedMessageSeq_withHost manager _
      · rfl
  | guestInput input => cases sender <;> rfl
  | sessionRekeyed newSessionSecret => rfl

theorem receivedMessageSeq_handleConnected (manager : CollabManager) :
    manager.handleConnected.receivedMessageSeq = manager.receivedMessageSeq := by
  unfold handleConnected
  split
  · rfl
  · split <;> rfl

theorem receivedMessageSeq_handleBrokerMessage (manager : CollabManager)
    (message : BrokerControlMessage) :
    (manager.handleBrokerMessage foreign message).receivedMessageSeq =
      manager.receivedMessageSeq := by
  cases message with
  | connected role => exact receivedMessageSeq_handleConnected manager
  | joinRequested request => rfl
  | presence guests => exact receivedMessageSeq_withHost manager _
  | sessionEnded => rfl
  | error message => rfl
  | joinApproved decision | joinDenied decision | hostDisconnected | hostReconnected =>
      simp only [handleBrokerMessage]
      split <;> rfl

theorem receivedMessageSeq_jobDone (manager : CollabManager) (index : Nat)
    (result : HttpResult) (now : Instant) :
    (manager.jobDone foreign index result now).receivedMessageSeq =
      if manager.completesJoin index result then ∅ else manager.receivedMessageSeq := by
  unfold jobDone completesJoin
  cases manager.jobs[index]? with
  | none => rfl
  | some job =>
      obtain ⟨generation, op⟩ := job
      by_cases current : generation = manager.httpGeneration
      · cases op with
        | approveJoin guestId removed | denyJoin guestId removed =>
            cases result <;> simp [current, applyHttpOutcome, restorePendingJoin]
        | rotateInvite inviteSecret inviteExpiresAt newSessionSecret =>
            cases result <;> simp [current, applyHttpOutcome, rotated]
        | joinSession invite displayName =>
            cases result with
            | ok => simp [current, applyHttpOutcome, completeJoin]
            | error message => simp [current, applyHttpOutcome, completeJoin]
            | joined answer =>
                cases connects : answer.connects <;>
                  simp [current, applyHttpOutcome, completeJoin, connects]
      · cases op <;> cases result <;> simp [current]

inductive Counting (manager : CollabManager) (call : Call)
    (result : StepResult CollabManager Observation) : Prop where
  | cleared (began : result.observation = .began)
      (empty : result.nextState.receivedMessageSeq = ∅)
  | kept (proceeds : result.observation ≠ .began)
      (nothing : ∀ applied, result.observation ≠ .applied (some applied))
      (same : result.nextState.receivedMessageSeq = manager.receivedMessageSeq)
  | advanced (binary : Bytes) (envelope : CollabEnvelope) (payload : SessionPayload)
      (received : call = .binaryMessage binary)
      (opened : manager.openMessage foreign binary = .ok (envelope, payload))
      (inOrder : ¬ envelope.messageSeq < manager.expectedSeq envelope.senderId)
      (observed : result.observation =
        .applied (some ⟨envelope.senderId, envelope.messageSeq⟩))
      (counted : result.nextState.receivedMessageSeq =
        manager.receivedMessageSeq.put envelope.senderId envelope.messageSeq)

variable {foreign}

theorem counting_quiet {manager next : CollabManager} {call : Call}
    (same : next.receivedMessageSeq = manager.receivedMessageSeq) :
    Counting foreign manager call (quiet next) :=
  .kept (by simp [quiet]) (by simp [quiet]) same

theorem counting_guestSends {manager next : CollabManager} {call : Call}
    (sends : manager.GuestSends next) : Counting foreign manager call (quiet next) :=
  counting_quiet (by rw [sends.frame])

theorem counting_binaryMessage (manager : CollabManager) (binary : Bytes) :
    Counting foreign manager (.binaryMessage binary)
      (manager.perform foreign (.binaryMessage binary)) := by
  cases opened : manager.openMessage foreign binary with
  | error error =>
      refine .kept ?_ ?_ ?_ <;> simp [perform, handleBinaryMessage, opened, reject]
  | ok message =>
      obtain ⟨envelope, payload⟩ := message
      by_cases early : envelope.messageSeq < manager.expectedSeq envelope.senderId
      · refine .kept ?_ ?_ ?_ <;>
          simp [perform, handleBinaryMessage, opened, validateMessageSequence, early, reject]
      · refine .advanced binary envelope payload rfl opened early ?_ ?_
        · simp [perform, handleBinaryMessage, opened, validateMessageSequence, early]
        · simp [perform, handleBinaryMessage, opened, validateMessageSequence, early,
            receivedMessageSeq_applyPayload]

theorem counting_perform (manager : CollabManager) (call : Call) :
    Counting foreign manager call (manager.perform foreign call) := by
  cases call with
  | startHostSession start => exact .cleared rfl (by cases start <;> rfl)
  | joinSession invite displayName => exact .cleared rfl (by cases invite <;> rfl)
  | stopSession => exact .cleared rfl rfl
  | sendJoinDecision guestId approve =>
      apply counting_quiet
      unfold sendJoinDecision
      split <;> rfl
  | rotateInvite inviteSecret newSessionSecret inviteExpiresAt =>
      apply counting_quiet
      unfold rotateInvite
      split <;> rfl
  | publishSnapshot snapshot recoveryNow now =>
      exact counting_quiet (receivedMessageSeq_withHost manager _)
  | grantControl terminalId guestId utcNow =>
      exact counting_quiet (receivedMessageSeq_withHost manager _)
  | revokeControl terminalId reason =>
      exact counting_quiet (receivedMessageSeq_withHost manager _)
  | noteControlRequest request => exact counting_quiet rfl
  | releaseControlsForGuest guestId =>
      exact counting_quiet (receivedMessageSeq_withHost manager _)
  | requestControl terminalId utcNow =>
      exact counting_guestSends (manager.guestSends_requestControl foreign terminalId utcNow)
  | sendGuestInput terminalId events =>
      exact counting_guestSends (manager.guestSends_sendGuestInput foreign terminalId events)
  | releaseControl terminalId =>
      exact counting_guestSends (manager.guestSends_releaseControl foreign terminalId)
  | focusRemotePanel panelId => exact counting_quiet rfl
  | scrollRemotePanel panelId deltaLines => exact counting_quiet rfl
  | takeInputs => exact .kept (by simp [perform]) (by simp [perform]) rfl
  | jobDone index result now =>
      have counters := receivedMessageSeq_jobDone foreign manager index result now
      cases completes : manager.completesJoin index result with
      | true =>
          rw [completes] at counters
          exact .cleared (by simp [perform, completes]) counters
      | false =>
          rw [completes] at counters
          exact .kept (by simp [perform, completes]) (by simp [perform, completes]) counters
  | connected => exact counting_quiet (receivedMessageSeq_handleConnected manager)
  | disconnected =>
      apply counting_quiet
      split <;> rfl
  | transportError message => exact counting_quiet rfl
  | brokerMessage message =>
      exact counting_quiet (receivedMessageSeq_handleBrokerMessage foreign manager message)
  | binaryMessage binary => exact counting_binaryMessage manager binary

/-! ## The log of applied messages -/

/-- The messages of the session so far whose payload was applied. -/
def observeApplied (log : List Applied) (_ : Input) : Observation → List Applied
  | .began => []
  | .applied (some applied) => log ++ [applied]
  | .applied none | .quiet | .inputs _ => log

def StrictlyIncreasing (log : List Applied) : Prop :=
  log.Pairwise fun earlier later =>
    earlier.sender = later.sender → earlier.messageSeq < later.messageSeq

theorem StrictlyIncreasing.nodup {log : List Applied} (increasing : StrictlyIncreasing log) :
    log.Nodup := by
  apply increasing.imp
  rintro earlier later order rfl
  exact UInt64.lt_irrefl _ (order rfl)

/-- The counters are the last numbers of the log, and the greatest. -/
structure Logged (manager : CollabManager) (log : List Applied) : Prop where
  unheard : ∀ sender, manager.receivedMessageSeq.find sender = none →
    ∀ applied ∈ log, applied.sender ≠ sender
  heard : ∀ sender last, manager.receivedMessageSeq.find sender = some last →
    ⟨sender, last⟩ ∈ log ∧
      ∀ applied ∈ log, applied.sender = sender → applied.messageSeq ≤ last

/-- The message passes every check in front of the sequence check, and repeats the last
number there is. -/
def RepeatsLast (foreign : Foreign) (manager : CollabManager) (input : Input) : Prop :=
  ∃ binary envelope payload, input.call = .binaryMessage binary ∧
    (manager.facing input.attempts).openMessage foreign binary = .ok (envelope, payload) ∧
    envelope.messageSeq.toNat = u64Max ∧
    manager.receivedMessageSeq.find envelope.senderId = some envelope.messageSeq

theorem not_lt_expectedSeq {manager : CollabManager} {sender : ParticipantId}
    {last messageSeq : UInt64} (found : manager.receivedMessageSeq.find sender = some last)
    (inOrder : ¬ messageSeq < manager.expectedSeq sender) :
    last < messageSeq ∨ last = messageSeq ∧ messageSeq.toNat = u64Max := by
  have bound := last.toNat_lt
  have bound' := messageSeq.toNat_lt
  rw [expectedSeq, found, Option.getD_some, UInt64.lt_iff_toNat_lt, toNat_saturatingSucc]
    at inOrder
  by_cases room : last.toNat < messageSeq.toNat
  · exact .inl (UInt64.lt_iff_toNat_lt.mpr room)
  · have equal : last.toNat = messageSeq.toNat := by
      unfold u64Max at inOrder
      omega
    refine .inr ⟨UInt64.toNat_inj.mp equal, ?_⟩
    unfold u64Max at *
    omega

theorem le_of_not_lt_expectedSeq {manager : CollabManager} {sender : ParticipantId}
    {last messageSeq : UInt64} (found : manager.receivedMessageSeq.find sender = some last)
    (inOrder : ¬ messageSeq < manager.expectedSeq sender) : last ≤ messageSeq := by
  rcases not_lt_expectedSeq found inOrder with less | ⟨equal, -⟩
  · exact UInt64.le_of_lt less
  · exact UInt64.le_of_eq equal

/-! ## One message -/

variable {manager : CollabManager} {log : List Applied}

theorem Logged.cleared (next : CollabManager) (empty : next.receivedMessageSeq = ∅) :
    Logged next [] := by
  constructor
  · intro sender _ applied member
    cases member
  · intro sender last found
    rw [empty, Table.find_empty] at found
    cases found

theorem Logged.append {next : CollabManager} (logged : Logged manager log)
    {sender : ParticipantId} {messageSeq : UInt64}
    (inOrder : ¬ messageSeq < manager.expectedSeq sender)
    (counted : next.receivedMessageSeq = manager.receivedMessageSeq.put sender messageSeq) :
    Logged next (log ++ [⟨sender, messageSeq⟩]) := by
  constructor
  · intro other absent applied member
    rw [counted, Table.find_put] at absent
    split at absent
    · cases absent
    · next different =>
        rcases List.mem_append.mp member with known | added
        · exact logged.unheard other absent applied known
        · rw [List.mem_singleton.mp added]
          exact fun equal => different equal.symm
  · intro other last found
    rw [counted, Table.find_put] at found
    split at found
    · next equal =>
        cases found
        subst equal
        refine ⟨by simp, ?_⟩
        intro applied member ofSender
        rcases List.mem_append.mp member with known | added
        · cases before : manager.receivedMessageSeq.find other with
          | none => exact absurd ofSender (logged.unheard other before applied known)
          | some last =>
              exact UInt64.le_trans ((logged.heard other last before).2 applied known ofSender)
                (le_of_not_lt_expectedSeq before inOrder)
        · rw [List.mem_singleton.mp added]
          exact UInt64.le_refl _
    · next different =>
        obtain ⟨member, greatest⟩ := logged.heard other last found
        refine ⟨List.mem_append_left _ member, ?_⟩
        intro applied member ofSender
        rcases List.mem_append.mp member with known | added
        · exact greatest applied known ofSender
        · rw [List.mem_singleton.mp added] at ofSender
          exact absurd ofSender.symm different

theorem observeApplied_of_nothing {input : Input} {observation : Observation}
    (proceeds : observation ≠ .began)
    (nothing : ∀ applied, observation ≠ .applied (some applied)) :
    observeApplied log input observation = log := by
  cases observation with
  | quiet => rfl
  | began => exact absurd rfl proceeds
  | inputs inputs => rfl
  | applied applied =>
      cases applied with
      | none => rfl
      | some applied => exact absurd rfl (nothing applied)

theorem Logged.observe {call : Call} {result : StepResult CollabManager Observation}
    (logged : Logged manager log) (counting : Counting foreign manager call result)
    (input : Input) :
    Logged result.nextState (observeApplied log input result.observation) := by
  cases counting with
  | cleared began empty =>
      rw [began]
      exact .cleared _ empty
  | kept proceeds nothing same =>
      rw [observeApplied_of_nothing proceeds nothing]
      exact ⟨by rw [same]; exact logged.unheard, by rw [same]; exact logged.heard⟩
  | advanced binary envelope payload received opened inOrder observed counted =>
      rw [observed]
      exact logged.append inOrder counted

theorem Logged.step (logged : Logged manager log) (input : Input) :
    Logged ((machine foreign).next manager input)
      (observeApplied log input ((machine foreign).observe manager input)) := by
  have facing : Logged (manager.facing input.attempts) log := ⟨logged.unheard, logged.heard⟩
  exact facing.observe (counting_perform _ _) input

theorem StrictlyIncreasing.append (increasing : StrictlyIncreasing log) {last : Applied}
    (greater : ∀ applied ∈ log, applied.sender = last.sender →
      applied.messageSeq < last.messageSeq) : StrictlyIncreasing (log ++ [last]) := by
  apply List.pairwise_append.mpr
  refine ⟨increasing, List.pairwise_singleton _ _, ?_⟩
  intro applied member later added
  rw [List.mem_singleton.mp added]
  exact greater applied member

theorem StrictlyIncreasing.step (increasing : StrictlyIncreasing log) (input : Input)
    (logged : Logged manager log) (allowed : ¬ RepeatsLast foreign manager input) :
    StrictlyIncreasing
      (observeApplied log input ((machine foreign).observe manager input)) := by
  have counting : Counting foreign (manager.facing input.attempts) input.call
    ((machine foreign).step manager input) := counting_perform _ _
  rw [Machine.observe]
  cases counting with
  | cleared began empty =>
      rw [began]
      exact .nil
  | kept proceeds nothing same =>
      rw [observeApplied_of_nothing proceeds nothing]
      exact increasing
  | advanced binary envelope payload received opened inOrder observed counted =>
      rw [observed]
      apply increasing.append
      intro applied member ofSender
      cases found : manager.receivedMessageSeq.find envelope.senderId with
      | none => exact absurd ofSender (logged.unheard _ found applied member)
      | some last =>
          have known := (logged.heard _ last found).2 applied member ofSender
          rcases not_lt_expectedSeq found inOrder with less | ⟨rfl, greatest⟩
          · exact UInt64.lt_of_le_of_lt known less
          · exact absurd ⟨binary, envelope, payload, received, opened, greatest, found⟩ allowed

theorem not_lt_expectedSeq_of_greatest {messageSeq : UInt64} (sender : ParticipantId)
    (greatest : messageSeq.toNat = u64Max) : ¬ messageSeq < manager.expectedSeq sender := by
  rw [UInt64.lt_iff_toNat_lt, expectedSeq, toNat_saturatingSucc, greatest]
  omega

theorem RepeatsLast.not_increasing {input : Input} (repeats : RepeatsLast foreign manager input)
    (logged : Logged manager log) :
    ¬ StrictlyIncreasing
      (observeApplied log input ((machine foreign).observe manager input)) := by
  obtain ⟨binary, envelope, payload, received, opened, greatest, found⟩ := repeats
  have inOrder : ¬ envelope.messageSeq <
      (manager.facing input.attempts).expectedSeq envelope.senderId :=
    not_lt_expectedSeq_of_greatest envelope.senderId greatest
  have observed : (machine foreign).observe manager input =
      .applied (some ⟨envelope.senderId, envelope.messageSeq⟩) := by
    simp [Machine.observe, machine, received, perform, handleBinaryMessage, opened,
      validateMessageSequence, inOrder]
  rw [observed]
  intro increasing
  have order := (List.pairwise_append.mp increasing).2.2 _ (logged.heard _ _ found).1
    _ (List.mem_singleton_self _) rfl
  exact UInt64.lt_irrefl _ order

theorem rejected_unchanged (manager : CollabManager) (binary : Bytes)
    (rejected : (manager.handleBinaryMessage foreign binary).2 = none) :
    ∃ error, (manager.handleBinaryMessage foreign binary).1 =
      { manager with lastError := error } := by
  unfold handleBinaryMessage at rejected ⊢
  split
  · exact ⟨_, rfl⟩
  · next opened =>
      split
      · exact ⟨_, rfl⟩
      · next counted =>
          rw [opened] at rejected
          simp only [counted] at rejected
          cases rejected

/-! ## Runs -/

def appliedLog (foreign : Foreign) (brokerUrl : String) (inputs : List Input) : List Applied :=
  (machine foreign).monitor observeApplied [] (.new brokerUrl) inputs

theorem logged_run (brokerUrl : String) (inputs : List Input) :
    Logged ((machine foreign).run (.new brokerUrl) inputs)
      (appliedLog foreign brokerUrl inputs) := by
  apply (machine foreign).monitor_invariant observeApplied Logged
  · intro manager log input logged
    exact logged.step input
  · exact .cleared _ rfl

theorem appliedLog_append_singleton (brokerUrl : String) (inputs : List Input) (input : Input) :
    appliedLog foreign brokerUrl (inputs ++ [input]) =
      observeApplied (appliedLog foreign brokerUrl inputs) input
        ((machine foreign).observe ((machine foreign).run (.new brokerUrl) inputs) input) := by
  rw [appliedLog, Machine.monitor_append]
  rfl

theorem increasing_of_admits {brokerUrl : String} {inputs : List Input}
    (admitted : (machine foreign).Admits (fun manager input => ¬ RepeatsLast foreign manager input)
      (.new brokerUrl) inputs) : StrictlyIncreasing (appliedLog foreign brokerUrl inputs) := by
  have start : Logged (.new brokerUrl) [] ∧ StrictlyIncreasing [] := ⟨.cleared _ rfl, .nil⟩
  have related := admitted.monitor_invariant _ observeApplied
    (fun manager log => Logged manager log ∧ StrictlyIncreasing log)
    (fun manager log input allowed holds =>
      ⟨holds.1.step input, holds.2.step input holds.1 allowed⟩) start
  exact related.2

/-- The applied messages of every sender have increasing numbers, as long as no message
repeats the last number of `u64`. A message that is not applied changes nothing. -/
theorem applied_in_order (foreign : Foreign) (brokerUrl : String) (inputs : List Input) :
    ((∀ before after, inputs = before ++ after →
        StrictlyIncreasing (appliedLog foreign brokerUrl before) ∧
          (appliedLog foreign brokerUrl before).Nodup) ↔
      (machine foreign).Admits (fun manager input => ¬ RepeatsLast foreign manager input)
        (.new brokerUrl) inputs) ∧
      ∀ (manager : CollabManager) (binary : Bytes),
        (manager.handleBinaryMessage foreign binary).2 = none →
          ∃ error, (manager.handleBinaryMessage foreign binary).1 =
            { manager with lastError := error } := by
  refine ⟨⟨?_, ?_⟩, rejected_unchanged⟩
  · intro ordered state input member repeats
    obtain ⟨before, after, split, reached⟩ := (machine foreign).mem_trace_iff.mp member
    subst reached
    have increasing := (ordered (before ++ [input]) after (by simp [split])).1
    rw [appliedLog_append_singleton] at increasing
    exact repeats.not_increasing (logged_run brokerUrl before) increasing
  · rintro admitted before after rfl
    have increasing := increasing_of_admits ((machine foreign).admits_append.mp admitted).1
    exact ⟨increasing, increasing.nodup⟩

/-! ## A repeated message -/

/-- Third parties that have met one envelope with one payload. -/
def oneMessage (envelope : CollabEnvelope) (payload : SessionPayload) : Foreign where
  encodeBase64 bytes := String.ofList (bytes.map fun byte => Char.ofNat byte.toNat)
  decodeBase64 text := some (text.toList.map fun char => UInt8.ofNat char.toNat)
  encrypt _ _ message _ := some message
  decrypt _ _ ciphertext _ := some ciphertext
  packPayload message := if message = payload then some [] else none
  unpackPayload message := if message = [] then some payload else none
  packAad _ _ _ := some []
  packEnvelope message := if message = envelope then some [1] else none
  unpackEnvelope binary := if binary = [1] then .ok envelope else .error "invalid envelope"

/-- The last message a guest can number. -/
def lastEnvelope : CollabEnvelope :=
  ⟨⟨.fromU128 2⟩, .guest ⟨.fromU128 3⟩, 18446744073709551615, "000000000000000000000000", ""⟩

def typedInput : SessionPayload := .guestInput ⟨none, .fromU128 4, [.text "make deploy"]⟩

def deliveredTwice : List Input :=
  [⟨.startHostSession (some sampleStart), []⟩, ⟨.binaryMessage [1], []⟩,
    ⟨.binaryMessage [1], []⟩]

/-- The number behind the last one is the last one, and what a guest typed is typed twice. -/
theorem last_number_applied_twice :
    ¬ StrictlyIncreasing
        (appliedLog (oneMessage lastEnvelope typedInput) "https://broker" deliveredTwice) ∧
      ¬ (appliedLog (oneMessage lastEnvelope typedInput) "https://broker"
        deliveredTwice).Nodup ∧
      ((machine (oneMessage lastEnvelope typedInput)).run (.new "https://broker")
        deliveredTwice).remoteInputs.length = 2 := by
  have log : appliedLog (oneMessage lastEnvelope typedInput) "https://broker" deliveredTwice =
      [⟨lastEnvelope.senderId, lastEnvelope.messageSeq⟩,
        ⟨lastEnvelope.senderId, lastEnvelope.messageSeq⟩] := by
    decide +kernel
  have repeated : ¬ (appliedLog (oneMessage lastEnvelope typedInput) "https://broker"
      deliveredTwice).Nodup := by
    rw [log]
    decide
  exact ⟨fun increasing => repeated increasing.nodup, repeated, by decide +kernel⟩

end CollabManager

end TerminalCanvas.Collab.Sharing
