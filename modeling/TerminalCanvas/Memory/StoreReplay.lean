import TerminalCanvas.Memory.StoreRuns

/-! # Requests are replayed

The receipt of a request commits with its effect and is never written again. A request
that finds its receipt is answered from it, and one that finds none is executed. -/

namespace TerminalCanvas.Memory.Store

open TerminalCanvas.Transaction TerminalCanvas.Execution

/-! ## One request -/

/-- A stored receipt says what a request was answered. -/
def Answered (policy : Policy) (request : RememberRequest) (result : WriteResult)
    (tables : Tables) : Prop :=
  ∃ fingerprint committedAt, admitRequest policy request = .ok fingerprint ∧
    tables.receipts.find (.of request) = some ⟨fingerprint, result, committedAt⟩

/-- The execution of a request, whatever receipts there are. -/
def execute (policy : Policy) (request : RememberRequest) (location : ResolvedLocation)
    (world : World) (tables : Tables) : Except StoreError WriteResult × Tables :=
  match admitRequest policy request with
  | .error error => (.error error, tables)
  | .ok fingerprint => transact world (rememberAnew policy request location fingerprint) tables

section Requests

variable {policy : Policy} {request : RememberRequest} {location : ResolvedLocation}
variable {world : World} {tables : Tables} {fingerprint : String}

theorem read_then {Answer Result : Type} {question : Tables → Answer} {rest : Answer → Tx Result}
    {work : Work} : (Store.read question >>= rest) work = rest (question work.tables) work := rfl

theorem loadReceipt_absent {work : Work} {key : ReceiptKey}
    (absent : work.tables.receipts.find key = none) :
    loadReceipt key fingerprint work = .ok none work := by
  rw [loadReceipt, read_then, absent]
  rfl

theorem loadReceipt_present {work : Work} {key : ReceiptKey} {receipt : ReceiptRow}
    (present : work.tables.receipts.find key = some receipt) :
    loadReceipt key fingerprint work =
      if receipt.requestFingerprint = fingerprint then .ok (some receipt.result) work
      else .error receiptMismatch work := by
  rw [loadReceipt, read_then, present]
  by_cases same : receipt.requestFingerprint = fingerprint
  · simp only [ensure, same, if_true]
    rfl
  · simp only [ensure, same, if_false]
    rfl

theorem rememberOnce_run {work : Work} :
    rememberOnce policy request location fingerprint work =
      match loadReceipt (.of request) fingerprint work with
      | .ok (some result) next => .ok result next
      | .ok none next => rememberAnew policy request location fingerprint next
      | .error error next => .error error next := by
  rw [rememberOnce]
  change EStateM.bind _ _ work = _
  rw [EStateM.bind]
  cases loadReceipt (.of request) fingerprint work with
  | error error next => rfl
  | ok cached next => cases cached <;> rfl

theorem remember_absent (absent : tables.receipts.find (.of request) = none) :
    remember policy request location world tables =
      execute policy request location world tables := by
  rw [remember, execute]
  cases admitRequest policy request with
  | error error => rfl
  | ok fingerprint =>
      have same : rememberOnce policy request location fingerprint
          ⟨tables, world.environment, 0, 0⟩ =
          rememberAnew policy request location fingerprint
            ⟨tables, world.environment, 0, 0⟩ := by
        rw [rememberOnce_run, loadReceipt_absent absent]
      simp only [transact, immediate, same]

/-- A request with a receipt changes nothing; it is answered from the receipt if its
fingerprint is the same. -/
theorem remember_present {receipt : ReceiptRow}
    (present : tables.receipts.find (.of request) = some receipt)
    (admitted : admitRequest policy request = .ok fingerprint) :
    remember policy request location world tables =
      (if receipt.requestFingerprint = fingerprint then
        if world.commits then .ok receipt.result else .error .busy
      else .error receiptMismatch, tables) := by
  have run : rememberOnce policy request location fingerprint ⟨tables, world.environment, 0, 0⟩ =
      if receipt.requestFingerprint = fingerprint then
        .ok receipt.result ⟨tables, world.environment, 0, 0⟩
      else .error receiptMismatch ⟨tables, world.environment, 0, 0⟩ := by
    rw [rememberOnce_run, loadReceipt_present present]
    by_cases same : receipt.requestFingerprint = fingerprint
    · simp only [same, if_true]
    · simp only [same, if_false]
  rw [remember, admitted]
  simp only [transact, immediate, run]
  by_cases same : receipt.requestFingerprint = fingerprint
  · simp only [same, if_true]
    cases world.commits <;> rfl
  · simp only [same, if_false]

theorem receipts_stable (receipts : Table ReceiptKey ReceiptRow) :
    Stable fun tables => tables.receipts = receipts where
  projects _ same := same
  tasks _ same := same
  memories same := same
  revisions same := same
  fts same := same
  handoffs same := same

theorem rememberAnew_ensures {work : Work}
    (absent : work.tables.receipts.find (.of request) = none) :
    Ensures (rememberAnew policy request location fingerprint) work
      (fun result next => ∃ now, next.tables.receipts =
        work.tables.receipts.put (.of request) ⟨fingerprint, result, now⟩) fun _ => True := by
  rw [rememberAnew]
  have keeps := (receipts_stable work.tables.receipts).rememberInner policy request location
  refine .seq (keeps work rfl) ?_
  intro result first same
  refine .seq ((saveReceipt_ensures (.of request) fingerprint result).mono
    (fun _ _ saved => saved) fun _ _ => trivial) ?_
  rintro _ second ⟨now, saved, _⟩
  refine .pure ⟨now, ?_⟩
  rw [saved]
  simp only [same, absent]
  rfl

theorem execute_receipts (absent : tables.receipts.find (.of request) = none) :
    (∃ result, (execute policy request location world tables).1 = .ok result ∧
      Answered policy request result (execute policy request location world tables).2 ∧
      ∀ key, key ≠ ReceiptKey.of request →
        (execute policy request location world tables).2.receipts.find key =
          tables.receipts.find key) ∨
    ∃ error, execute policy request location world tables = (.error error, tables) := by
  rw [execute]
  cases admitted : admitRequest policy request with
  | error error => exact .inr ⟨error, rfl⟩
  | ok fingerprint =>
      have ensures := @rememberAnew_ensures policy request location fingerprint
        ⟨tables, world.environment, 0, 0⟩ absent
      rcases @Ensures.immediate _ _ _ _ _ _ _
        (if world.commits then .ok () else .error .busy) ensures with
        ⟨result, succeeds, now, receipts⟩ | ⟨error, fails, unchanged, _⟩
      · have put : (transact world (rememberAnew policy request location fingerprint)
            tables).2.receipts =
            tables.receipts.put (.of request) ⟨fingerprint, result, now⟩ := receipts
        refine .inl ⟨result, succeeds, ⟨fingerprint, now, admitted, ?_⟩, ?_⟩
        · simp only [put, Table.find_put_self]
        · intro key different
          simp only [put]
          exact Table.find_put_of_ne _ _ different
      · refine .inr ⟨error, Prod.ext fails ?_⟩
        change (immediate _ (rememberAnew policy request location fingerprint)
          ⟨tables, world.environment, 0, 0⟩).2.tables = tables
        rw [unchanged]

theorem remember_unchanged {receipt : ReceiptRow}
    (present : tables.receipts.find (.of request) = some receipt) :
    (remember policy request location world tables).2 = tables := by
  cases admitted : admitRequest policy request with
  | error error => rw [remember, admitted]
  | ok fingerprint => rw [remember_present present admitted]

/-- A request that succeeds has its receipt behind it, and one that fails changes
nothing at all. -/
theorem remember_outcome :
    (∃ result, (remember policy request location world tables).1 = .ok result ∧
      Answered policy request result (remember policy request location world tables).2) ∨
    ∃ error, remember policy request location world tables = (.error error, tables) := by
  cases stored : tables.receipts.find (.of request) with
  | none =>
      rw [remember_absent stored]
      rcases @execute_receipts policy request location world tables stored with
        ⟨result, succeeds, answered, _⟩ | failed
      · exact .inl ⟨result, succeeds, answered⟩
      · exact .inr failed
  | some receipt =>
      cases admitted : admitRequest policy request with
      | error error =>
          rw [remember, admitted]
          exact .inr ⟨error, rfl⟩
      | ok fingerprint =>
          rw [remember_present stored admitted]
          by_cases same : receipt.requestFingerprint = fingerprint
          · rw [if_pos same]
            cases world.commits with
            | true =>
                exact .inl ⟨receipt.result, rfl, fingerprint, receipt.committedAt, admitted,
                  by rw [← same, stored]⟩
            | false => exact .inr ⟨.busy, rfl⟩
          · rw [if_neg same]
            exact .inr ⟨receiptMismatch, rfl⟩

theorem remember_others {key : ReceiptKey} (different : key ≠ .of request) :
    (remember policy request location world tables).2.receipts.find key =
      tables.receipts.find key := by
  cases stored : tables.receipts.find (.of request) with
  | none =>
      rw [remember_absent stored]
      rcases @execute_receipts policy request location world tables stored with
        ⟨_, _, _, others⟩ | ⟨error, failed⟩
      · exact others key different
      · rw [failed]
  | some receipt => rw [remember_unchanged stored]

theorem remember_again {result : WriteResult} (answered : Answered policy request result tables) :
    remember policy request location world tables =
      (if world.commits then .ok result else .error .busy, tables) := by
  obtain ⟨fingerprint, committedAt, admitted, stored⟩ := answered
  rw [remember_present stored admitted, if_pos rfl]

theorem remember_reused {other : RememberRequest} {result : WriteResult}
    (answered : Answered policy request result tables)
    (sameIds : ReceiptKey.of other = .of request)
    (differs : ∀ first second, policy.fingerprintRequest request = .ok first →
      policy.fingerprintRequest other = .ok second → first ≠ second) :
    ∃ error, remember policy other location world tables = (.error error, tables) := by
  obtain ⟨fingerprint, committedAt, admitted, stored⟩ := answered
  have fingerprints : ∀ (request : RememberRequest) fingerprint,
      admitRequest policy request = .ok fingerprint →
      policy.fingerprintRequest request = .ok fingerprint := by
    intro request fingerprint admitted
    rw [admitRequest] at admitted
    split at admitted
    · cases admitted
    · split at admitted
      · cases admitted
      · split at admitted
        · cases admitted
        · next found =>
            cases admitted
            exact found
  cases again : admitRequest policy other with
  | error error => exact ⟨error, by rw [remember, again]⟩
  | ok second =>
      have apart := differs fingerprint second (fingerprints _ _ admitted)
        (fingerprints _ _ again)
      rw [← sameIds] at stored
      refine ⟨receiptMismatch, ?_⟩
      rw [remember_present stored again, if_neg apart]

end Requests

/-! ## Runs -/

def Input.asked : Input → Option RememberRequest
  | .remember request _ _ => some request
  | .propose request _ _ => some (proposed request)
  | _ => none

def Observation.success : Observation → Option WriteResult
  | .remembered (.ok result) => some result
  | _ => none

section Runs

variable {policy : Policy} {tables : Tables} {input : Input} {request : RememberRequest}

theorem step_asked (asked : input.asked = some request) :
    ∃ location, (machine policy).step tables input =
      answer .remembered (remember policy request location input.world tables) := by
  cases input with
  | remember other location world =>
      cases asked
      exact ⟨location, rfl⟩
  | propose other location world =>
      rw [Input.asked, Option.some.injEq] at asked
      exact ⟨location, by rw [← asked]; rfl⟩
  | _ => cases asked

theorem next_unasked (unasked : input.asked = none) :
    ((machine policy).next tables input).receipts = tables.receipts := by
  refine step_keeps (receipts_stable tables.receipts) ?_ ?_ ?_ rfl
  · rintro request location world rfl
    cases unasked
  · rintro request location world rfl
    cases unasked
  · intro left right world _
    exact transact_keeps ((receipts_stable tables.receipts).linkInner (fun same => same)
      (fun same => same) left right) rfl world

theorem next_answered {result : WriteResult} (answered : Answered policy request result tables) :
    Answered policy request result ((machine policy).next tables input) := by
  obtain ⟨fingerprint, committedAt, admitted, stored⟩ := answered
  refine ⟨fingerprint, committedAt, admitted, ?_⟩
  cases asked : input.asked with
  | none => rw [next_unasked asked, stored]
  | some other =>
      obtain ⟨location, stepped⟩ := @step_asked policy tables input other asked
      rw [Machine.next, stepped]
      by_cases same : ReceiptKey.of request = .of other
      · rw [same] at stored ⊢
        simp only [answer, remember_unchanged stored, stored]
      · simp only [answer, remember_others same, stored]

theorem run_answered {result : WriteResult} (inputs : List Input)
    (answered : Answered policy request result tables) :
    Answered policy request result ((machine policy).run tables inputs) :=
  (machine policy).run_invariant _ (fun _ _ => next_answered) answered inputs

theorem answered_of_success {result : WriteResult} (asked : input.asked = some request)
    (success : ((machine policy).observe tables input).success = some result) :
    Answered policy request result ((machine policy).next tables input) := by
  obtain ⟨location, stepped⟩ := @step_asked policy tables input request asked
  rw [Machine.observe, stepped] at success
  rw [Machine.next, stepped]
  simp only [answer] at success ⊢
  rcases @remember_outcome policy request location input.world tables with
    ⟨other, succeeds, answered⟩ | ⟨error, failed⟩
  · rw [succeeds] at success
    cases success
    exact answered
  · rw [failed] at success
    cases success

/-- No request under some identifiers has succeeded yet. -/
def Unanswered (policy : Policy) (key : ReceiptKey) (tables : Tables) (input : Input) : Prop :=
  ∀ request, input.asked = some request → ReceiptKey.of request = key →
    ((machine policy).observe tables input).success = none

theorem next_absent {key : ReceiptKey} (unanswered : Unanswered policy key tables input)
    (absent : tables.receipts.find key = none) :
    ((machine policy).next tables input).receipts.find key = none := by
  cases asked : input.asked with
  | none => rw [next_unasked asked, absent]
  | some request =>
      have success := unanswered request asked
      obtain ⟨location, stepped⟩ := @step_asked policy tables input request asked
      rw [Machine.observe, stepped] at success
      rw [Machine.next, stepped]
      simp only [answer] at success ⊢
      by_cases same : ReceiptKey.of request = key
      · rcases @remember_outcome policy request location input.world tables with
          ⟨result, succeeds, _⟩ | ⟨error, failed⟩
        · have never := success same
          rw [succeeds] at never
          cases never
        · rw [failed]
          exact absent
      · rw [remember_others (Ne.symm same), absent]

end Runs

/-- What is promised about a request that was answered: it is answered the same again,
and another payload under its identifiers is refused. -/
structure Replays (policy : Policy) (request : RememberRequest) (result : WriteResult)
    (tables : Tables) : Prop where
  again : ∀ input, input.asked = some request →
    (machine policy).next tables input = tables ∧
      (input.world.commits = true →
        (machine policy).observe tables input = .remembered (.ok result))
  reused : ∀ input other, input.asked = some other →
    other.clientId = request.clientId → other.requestId = request.requestId → other ≠ request →
    -- the encoding is faithful, and the digest has no collision here
    (∀ text, policy.encode request = .ok text → policy.encode other = .ok text →
      request = other) →
    (∀ first second, policy.encode request = .ok first → policy.encode other = .ok second →
      policy.digest first = policy.digest second → first = second) →
    (machine policy).next tables input = tables ∧
      ∃ error, (machine policy).observe tables input = .remembered (.error error)

theorem fingerprintRequest_eq_ok {policy : Policy} {request : RememberRequest}
    {fingerprint : String} : policy.fingerprintRequest request = .ok fingerprint ↔
      ∃ text, policy.encode request = .ok text ∧ policy.digest text = fingerprint := by
  rw [Policy.fingerprintRequest]
  cases policy.encode request with
  | error reason => simp [Except.map]
  | ok text => simp [Except.map]

theorem Answered.replays {policy : Policy} {request : RememberRequest} {result : WriteResult}
    {tables : Tables} (answered : Answered policy request result tables) :
    Replays policy request result tables where
  again := by
    intro input asked
    obtain ⟨location, stepped⟩ := @step_asked policy tables input request asked
    rw [Machine.next, Machine.observe, stepped, answer, remember_again answered]
    refine ⟨rfl, fun commits => ?_⟩
    rw [commits]
    rfl
  reused := by
    intro input other asked sameClient sameRequest different faithful collisionFree
    obtain ⟨location, stepped⟩ := @step_asked policy tables input other asked
    have sameIds : ReceiptKey.of other = .of request := by
      rw [ReceiptKey.of, ReceiptKey.of, sameClient, sameRequest]
    have apart : ∀ first second, policy.fingerprintRequest request = .ok first →
        policy.fingerprintRequest other = .ok second → first ≠ second := by
      rintro first second encodes encodesOther rfl
      obtain ⟨text, encoded, digest⟩ := fingerprintRequest_eq_ok.mp encodes
      obtain ⟨otherText, encodedOther, sameDigest⟩ := fingerprintRequest_eq_ok.mp encodesOther
      have sameText := collisionFree text otherText encoded encodedOther
        (digest.trans sameDigest.symm)
      exact different (faithful text encoded (sameText ▸ encodedOther)).symm
    obtain ⟨error, refused⟩ := @remember_reused policy request location input.world tables other
      result answered sameIds apart
    rw [Machine.next, Machine.observe, stepped, answer, refused]
    exact ⟨rfl, error, rfl⟩

/-- In every run, a request that succeeded is answered the same again, whatever has
happened since, and other payloads under its identifiers are refused. A request that
fails changes nothing, and one that has not succeeded yet is executed. -/
theorem requests_replay (policy : Policy) :
    (∀ before between input request result, input.asked = some request →
      ((machine policy).observe ((machine policy).run .empty before) input).success =
        some result →
      Replays policy request result
        ((machine policy).run .empty (before ++ input :: between))) ∧
    (∀ before input request error, input.asked = some request →
      (machine policy).observe ((machine policy).run .empty before) input =
        .remembered (.error error) →
      (machine policy).next ((machine policy).run .empty before) input =
        (machine policy).run .empty before) ∧
    ∀ before key, (machine policy).Admits (Unanswered policy key) .empty before →
      ∀ input request, input.asked = some request → ReceiptKey.of request = key →
        ∃ location, (machine policy).step ((machine policy).run .empty before) input =
          answer .remembered (execute policy request location input.world
            ((machine policy).run .empty before)) := by
  refine ⟨?_, ?_, ?_⟩
  · intro before between input request result asked success
    rw [(machine policy).run_append, (machine policy).run_cons]
    exact (run_answered between (answered_of_success asked success)).replays
  · intro before input request error asked failed
    generalize (machine policy).run .empty before = tables at failed ⊢
    obtain ⟨location, stepped⟩ := @step_asked policy tables input request asked
    rw [Machine.observe, stepped] at failed
    rw [Machine.next, stepped]
    rcases @remember_outcome policy request location input.world tables with
      ⟨result, succeeds, _⟩ | ⟨other, same⟩
    · simp only [answer, succeeds] at failed
      cases failed
    · rw [answer, same]
  · intro before key unanswered input request asked own
    have absent : ((machine policy).run .empty before).receipts.find key = none :=
      unanswered.invariant _ (fun tables => tables.receipts.find key = none)
        (fun _ _ allowed absent => next_absent allowed absent) (Table.find_empty key)
    generalize (machine policy).run .empty before = tables at absent ⊢
    obtain ⟨location, stepped⟩ := @step_asked policy tables input request asked
    refine ⟨location, ?_⟩
    rw [stepped, remember_absent (own ▸ absent)]

/-- An approval does not change what its proposal is answered. -/
theorem requests_replay_approved :
    ∃ result, Replays Sample.policy Sample.rustfmt result
      ((machine Sample.policy).run .empty Sample.approval) := by
  have succeeds : ((machine Sample.policy).observe .empty
      (.propose Sample.rustfmt Sample.location (Sample.world 1))).success.isSome = true := by
    decide +kernel
  obtain ⟨result, success⟩ := Option.isSome_iff_exists.mp succeeds
  exact ⟨result, (requests_replay Sample.policy).1 [] _ _ Sample.rustfmt result rfl success⟩

end TerminalCanvas.Memory.Store
