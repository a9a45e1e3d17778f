import Mathlib.Data.List.TakeWhile
import TerminalCanvas.Daemon.Recovery

/-! # When a recovery may create a session

The answers of the daemon side are read off the bytes it sends, without the
client. A recovery requests a Spawn only behind a complete denial of the session. -/

namespace TerminalCanvas.Daemon

open HookAuthority

/-! ## What the daemon side answers -/

/-- The first line of an incoming stream: within the limit, and ended by a line feed
or by the end of the stream. -/
structure CompleteLine (ending : Ending) (line rest : Bytes) : Prop where
  nonempty : line ≠ []
  bounded : line.length ≤ maxProtocolLineBytes
  ended : (∃ body, lineFeed ∉ body ∧ line = body ++ [lineFeed]) ∨
    (lineFeed ∉ line ∧ rest = [] ∧ ending = .eof)

/-- A complete line that carries a response. -/
structure Carries (parsers : Parsers) (ending : Ending) (line rest : Bytes)
    (response : Response) : Prop where
  complete : CompleteLine ending line rest
  decodes : ∃ text, String.fromUTF8? ⟨line.toArray⟩ = some text ∧
    decodeLine parsers text = some response

/-- The stream goes on with a response, pushed events before it left aside. -/
inductive Replies (parsers : Parsers) (ending : Ending) : Bytes → Response → Bytes → Prop
  | response {line rest response} (carries : Carries parsers ending line rest response)
      (ordinary : isPushedEvent response = false) :
      Replies parsers ending (line ++ rest) response rest
  | event {line rest event response final} (carries : Carries parsers ending line rest event)
      (pushed : isPushedEvent event = true) (behind : Replies parsers ending rest response final) :
      Replies parsers ending (line ++ rest) response final

/-- Attach is answered with an Error that is no structured snapshot failure, and List
with Sessions that lack the session. -/
def Denies (parsers : Parsers) (ending : Ending) (id : Uuid) (incoming rest : Bytes) : Prop :=
  ∃ message middle ids, Replies parsers ending incoming (.error message) middle ∧
    snapshotFailureFromResponse parsers (.error message) = none ∧
    Replies parsers ending middle (.sessions ids) rest ∧ id ∉ ids

/-! ## Reading a line -/

theorem takeWhile_append_feed {body : Bytes} (rest : Bytes) (clean : lineFeed ∉ body) :
    (body ++ lineFeed :: rest).takeWhile (· ≠ lineFeed) = body := by
  rw [List.takeWhile_append_of_pos]
  · simp
  · intro symbol member
    have unequal : symbol ≠ lineFeed := fun equal => clean (equal ▸ member)
    simpa using unequal

theorem takeWhile_clean {symbols : Bytes} (clean : lineFeed ∉ symbols) :
    symbols.takeWhile (· ≠ lineFeed) = symbols := by
  rw [List.takeWhile_eq_self_iff]
  intro symbol member
  have unequal : symbol ≠ lineFeed := fun equal => clean (equal ▸ member)
  simpa using unequal

theorem readUntil_complete {incoming line rest : Bytes} {ending : Ending}
    (read : readUntil (maxProtocolLineBytes + 1) incoming ending = .ok (line, rest))
    (nonempty : line ≠ []) (bounded : line.length ≤ maxProtocolLineBytes) :
    incoming = line ++ rest ∧ CompleteLine ending line rest := by
  have whole : incoming.take (maxProtocolLineBytes + 1) ++
      incoming.drop (maxProtocolLineBytes + 1) = incoming := List.take_append_drop _ _
  simp only [readUntil] at read
  by_cases feed : lineFeed ∈ incoming.take (maxProtocolLineBytes + 1)
  · obtain ⟨body, tail, split, clean⟩ := List.eq_append_cons_of_mem feed
    rw [split, takeWhile_append_feed tail clean, if_pos (by simp)] at read
    rw [split, List.append_assoc, List.cons_append, List.append_cons] at whole
    rw [← whole] at read ⊢
    have cut : (body ++ [lineFeed]).length = body.length + 1 := by simp
    rw [List.splitAt_eq, ← cut, List.take_left, List.drop_left] at read
    simp only [Except.ok.injEq, Prod.mk.injEq] at read
    obtain ⟨rfl, rfl⟩ := read
    exact ⟨rfl, nonempty, bounded, .inl ⟨body, clean, rfl⟩⟩
  · rw [takeWhile_clean feed, if_neg (Nat.lt_irrefl _)] at read
    split at read
    · next full =>
        simp only [List.splitAt_eq, Except.ok.injEq, Prod.mk.injEq] at read
        have long := congrArg List.length read.1
        omega
    · next short =>
        have all : incoming.take (maxProtocolLineBytes + 1) = incoming := by
          apply List.take_of_length_le
          rw [List.length_take] at short
          omega
        rw [all] at feed
        cases ending with
        | failed message => cases read
        | eof =>
            simp only [Except.ok.injEq, Prod.mk.injEq] at read
            obtain ⟨rfl, rfl⟩ := read
            exact ⟨(List.append_nil _).symm, nonempty, bounded, .inr ⟨feed, rfl, rfl⟩⟩

theorem CompleteLine.readUntil {ending : Ending} {line rest : Bytes}
    (complete : CompleteLine ending line rest) :
    Daemon.readUntil (maxProtocolLineBytes + 1) (line ++ rest) ending = .ok (line, rest) := by
  have bounded := complete.bounded
  simp only [Daemon.readUntil]
  rcases complete.ended with ⟨body, clean, rfl⟩ | ⟨clean, rfl, rfl⟩
  · have cut : (body ++ [lineFeed]).length = body.length + 1 := by simp
    have window : (body ++ [lineFeed] ++ rest).take (maxProtocolLineBytes + 1) =
        body ++ lineFeed :: rest.take (maxProtocolLineBytes + 1 - (body.length + 1)) := by
      rw [List.take_append, cut, List.take_of_length_le (by omega), List.append_assoc,
        List.singleton_append]
    rw [window, takeWhile_append_feed _ clean, if_pos (by simp), List.splitAt_eq, ← cut,
      List.take_left, List.drop_left]
  · have window : (line ++ []).take (maxProtocolLineBytes + 1) = line := by
      rw [List.append_nil, List.take_of_length_le (by omega)]
    rw [window, takeWhile_clean clean, if_neg (Nat.lt_irrefl _), if_neg (by omega),
      List.append_nil]

theorem readProtocolLine_eq_some {incoming rest : Bytes} {ending : Ending} {text : String} :
    readProtocolLine incoming ending = .ok (some (text, rest)) ↔
      ∃ line, incoming = line ++ rest ∧ CompleteLine ending line rest ∧
        String.fromUTF8? ⟨line.toArray⟩ = some text := by
  rw [readProtocolLine, readProtocolLineWithLimit, if_neg (by decide)]
  constructor
  · intro read
    cases taken : readUntil (maxProtocolLineBytes + 1) incoming ending with
    | error message =>
        rw [taken] at read
        cases read
    | ok pair =>
        obtain ⟨line, remaining⟩ := pair
        simp only [taken] at read
        split at read
        · cases read
        next nonempty =>
          split at read
          · cases read
          next bounded =>
            cases decoded : String.fromUTF8? ⟨line.toArray⟩ with
            | none => simp [decoded] at read
            | some decodedText =>
                simp only [decoded, Except.ok.injEq, Option.some.injEq, Prod.mk.injEq] at read
                obtain ⟨rfl, rfl⟩ := read
                obtain ⟨split, complete⟩ := readUntil_complete taken
                  (by simpa using nonempty) (Nat.le_of_not_lt bounded)
                exact ⟨line, split, complete, decoded⟩
  · rintro ⟨line, rfl, complete, decoded⟩
    have nonempty : line.isEmpty = false := by simpa using complete.nonempty
    simp [complete.readUntil, nonempty, decoded, Nat.not_lt.mpr complete.bounded]

/-! ## Requests -/

variable {parsers : Parsers}

theorem awaitResponse_eq_ok {ending : Ending} {fuel : Nat} {incoming rest : Bytes}
    {response : Response} (enough : incoming.length < fuel) :
    awaitResponse parsers ending fuel incoming = (.ok response, rest) ↔
      Replies parsers ending incoming response rest := by
  induction fuel generalizing incoming with
  | zero => omega
  | succ fuel induction =>
      rw [awaitResponse]
      constructor
      · intro awaited
        split at awaited
        · cases awaited
        · cases awaited
        next text remaining read =>
          obtain ⟨line, rfl, complete, decoded⟩ := readProtocolLine_eq_some.mp read
          split at awaited
          · cases awaited
          next decodedResponse decodes =>
            have carries : Carries parsers ending line remaining decodedResponse :=
              ⟨complete, text, decoded, decodes⟩
            split at awaited
            · next pushed =>
                have shorter : remaining.length < fuel := by
                  have some := List.length_pos_of_ne_nil complete.nonempty
                  rw [List.length_append] at enough
                  omega
                exact .event carries pushed ((induction shorter).mp awaited)
            · next ordinary =>
                simp only [Prod.mk.injEq, Except.ok.injEq] at awaited
                obtain ⟨rfl, rfl⟩ := awaited
                exact .response carries (by simpa using ordinary)
      · intro answers
        cases answers with
        | response carries ordinary =>
            obtain ⟨complete, text, decoded, decodes⟩ := carries
            simp [readProtocolLine_eq_some.mpr ⟨_, rfl, complete, decoded⟩, decodes, ordinary]
        | event carries pushed behind =>
            obtain ⟨complete, text, decoded, decodes⟩ := carries
            have shorter : _ := List.length_pos_of_ne_nil complete.nonempty
            rw [List.length_append] at enough
            simp only [readProtocolLine_eq_some.mpr ⟨_, rfl, complete, decoded⟩, decodes, pushed,
              if_true]
            exact (induction (by omega)).mpr behind

/-- What a request leaves of its connection: one more request handed to the writer. -/
structure Requested (before after : Connection) (request : Request) : Prop where
  requested : after.requested = before.requested ++ [request]
  ending : after.ending = before.ending
  writes : after.writes = before.writes.tail

theorem request_requested (parsers : Parsers) (connection : Connection) (request : Request) :
    Requested connection (connection.request parsers request).2 request := by
  rw [Connection.request, Connection.write]
  split
  · next failed =>
      split at failed
      · cases failed
        exact ⟨rfl, rfl, rfl⟩
      · cases failed
  · next sent =>
      split at sent
      · cases sent
      · cases sent
        exact ⟨rfl, rfl, rfl⟩

/-- A request is answered when its write succeeds and the stream goes on with a
response. -/
theorem request_eq_ok {connection after : Connection} {request : Request}
    {response : Response} :
    connection.request parsers request = (.ok response, after) ↔
      (∀ failure, connection.writes.head? ≠ some (some failure)) ∧
        Replies parsers connection.ending connection.incoming response after.incoming ∧
        Requested connection after request := by
  have fuel : connection.incoming.length < connection.incoming.length + 1 := Nat.lt_succ_self _
  rw [Connection.request, Connection.write]
  constructor
  · intro answered
    split at answered
    · cases answered
    next sent =>
      split at sent
      · cases sent
      next succeeds =>
        cases sent
        cases awaited : awaitResponse parsers connection.ending
            (connection.incoming.length + 1) connection.incoming with
        | mk answer remaining =>
            simp only [awaited, Prod.mk.injEq] at answered
            obtain ⟨rfl, rfl⟩ := answered
            refine ⟨?_, (awaitResponse_eq_ok fuel).mp awaited, ⟨rfl, rfl, rfl⟩⟩
            intro failure fails
            exact succeeds failure fails
  · rintro ⟨succeeds, replies, requested⟩
    split
    · next failed =>
        split at failed
        · next failure fails => exact absurd fails (succeeds failure)
        · cases failed
    next sent =>
      split at sent
      · cases sent
      · cases sent
        simp only [(awaitResponse_eq_ok fuel).mpr replies]
        obtain ⟨incoming, ending, writes, requests⟩ := after
        obtain ⟨rfl, rfl, rfl⟩ := requested
        rfl

def Connection.served (connection : Connection) (request : Request) (rest : Bytes) :
    Connection :=
  ⟨rest, connection.ending, connection.writes.tail, connection.requested ++ [request]⟩

theorem request_of_replies (connection : Connection) (request : Request) {response : Response}
    {rest : Bytes} (succeeds : ∀ failure, connection.writes.head? ≠ some (some failure))
    (replies : Replies parsers connection.ending connection.incoming response rest) :
    connection.request parsers request = (.ok response, connection.served request rest) :=
  request_eq_ok.mpr ⟨succeeds, replies, rfl, rfl, rfl⟩

/-! ## The licence -/

def TwoWritesSucceed (connection : Connection) : Prop :=
  (∀ failure, connection.writes.head? ≠ some (some failure)) ∧
    ∀ failure, connection.writes.tail.head? ≠ some (some failure)

theorem refuseAs_eq_ok {Value : Type} {refusal : String → RemoteRecoveryError}
    {result : Except AnyError Value} {value : Value} :
    refuseAs refusal result = .ok value ↔ result = .ok value := by
  cases result with
  | ok found => rfl
  | error error => cases error <;> simp [refuseAs]

theorem refuseAs_eq_error {Value : Type} {refusal : String → RemoteRecoveryError}
    {result : Except AnyError Value} {error : AnyError}
    (untyped : ∀ typed, result ≠ .error (.recovery typed))
    (refused : refuseAs refusal result = .error error) :
    ∃ message, error = .recovery (refusal message) := by
  match result with
  | .ok value => cases refused
  | .error (.recovery typed) => exact absurd rfl (untyped typed)
  | .error (.other message) =>
      cases refused
      exact ⟨message, rfl⟩

theorem existingFromAnswer_licence {id : Uuid} {connection after : Connection}
    {answer : Response} :
    existingFromAnswer parsers id connection answer = (.ok none, after) ↔
      ∃ message ids, answer = .error message ∧
        snapshotFailureFromResponse parsers answer = none ∧
        connection.request parsers .list = (.ok (.sessions ids), after) ∧ id ∉ ids := by
  constructor
  · intro licensed
    cases answer
    case attached actual snapshot seq alive outputReady hookGeneration hookTarget =>
      rw [existingFromAnswer] at licensed
      split at licensed <;> cases licensed
    case error message =>
      rw [existingFromAnswer] at licensed
      split at licensed
      · split at licensed <;> cases licensed
      next unstructured =>
        split at licensed
        · cases licensed
        · next ids listed answered =>
            split at licensed
            · cases licensed
            next absent =>
              cases licensed
              exact ⟨message, ids, rfl, unstructured, answered, by simpa using absent⟩
        · cases licensed
    all_goals cases licensed
  · rintro ⟨message, ids, rfl, unstructured, answered, absent⟩
    simp [existingFromAnswer, unstructured, answered, absent]

theorem existingFromAnswer_untyped {id : Uuid} {connection : Connection} (answer : Response)
    (typed : RemoteRecoveryError) :
    (existingFromAnswer parsers id connection answer).1 ≠ .error (.recovery typed) := by
  intro failed
  cases answer
  case attached actual snapshot seq alive outputReady hookGeneration hookTarget =>
    rw [existingFromAnswer] at failed
    split at failed <;> cases failed
  case error message =>
    rw [existingFromAnswer] at failed
    split at failed
    · split at failed <;> cases failed
    · split at failed
      · cases failed
      · split at failed <;> cases failed
      · cases failed
  all_goals cases failed

theorem existingFromAnswer_requested (id : Uuid) (connection : Connection) (answer : Response) :
    (existingFromAnswer parsers id connection answer).2.requested = connection.requested ∨
      (existingFromAnswer parsers id connection answer).2.requested =
        connection.requested ++ [.list] := by
  have listed := (request_requested parsers connection .list).requested
  cases answer
  case attached actual snapshot seq alive outputReady hookGeneration hookTarget =>
    left
    rw [existingFromAnswer]
    split <;> rfl
  case error message =>
    rw [existingFromAnswer]
    split
    · left
      split <;> rfl
    · right
      split
      · next failed =>
          rw [failed] at listed
          exact listed
      · next answered =>
          rw [answered] at listed
          split <;> exact listed
      · next answered =>
          rw [answered] at listed
          exact listed
  all_goals exact .inl rfl

theorem existingSnapshot_licence {id : Uuid} {connection : Connection} :
    (existingSnapshot parsers id connection).1 = .ok none ↔
      TwoWritesSucceed connection ∧
        ∃ rest, Denies parsers connection.ending id connection.incoming rest := by
  constructor
  · intro licensed
    rw [existingSnapshot] at licensed
    split at licensed
    · cases licensed
    next answer middle attached =>
      obtain ⟨first, replies, requested⟩ := request_eq_ok.mp attached
      cases found : existingFromAnswer parsers id middle answer with
      | mk result after =>
          simp only [found] at licensed
          rw [refuseAs_eq_ok.mp licensed] at found
          obtain ⟨message, ids, rfl, unstructured, listed, absent⟩ :=
            existingFromAnswer_licence.mp found
          obtain ⟨second, listing, _⟩ := request_eq_ok.mp listed
          rw [requested.writes] at second
          rw [requested.ending] at listing
          exact ⟨⟨first, second⟩, _, message, _, ids, replies, unstructured, listing, absent⟩
  · rintro ⟨⟨first, second⟩, rest, message, middle, ids, replies, unstructured, listing, absent⟩
    have attached := request_of_replies connection (.attach id) first replies
    have listed := request_of_replies (connection.served (.attach id) middle) .list second listing
    have found := existingFromAnswer_licence.mpr
      ⟨message, ids, rfl, unstructured, listed, absent⟩
    rw [existingSnapshot, attached]
    simp only [found]
    rfl

theorem existingSnapshot_protected {id : Uuid} {connection : Connection} {error : AnyError}
    (failed : (existingSnapshot parsers id connection).1 = .error error) :
    ∃ message, error = .recovery (RemoteRecoveryError.isProtected id message) := by
  rw [existingSnapshot] at failed
  split at failed
  · simp only [refuseAs, Except.error.injEq] at failed
    exact ⟨_, failed.symm⟩
  · exact refuseAs_eq_error (existingFromAnswer_untyped _) failed

theorem existingSnapshot_requested (id : Uuid) (connection : Connection) :
    (existingSnapshot parsers id connection).2.requested =
        connection.requested ++ [.attach id] ∨
      (existingSnapshot parsers id connection).2.requested =
        connection.requested ++ [.attach id, .list] := by
  have attached := request_requested parsers connection (.attach id)
  rw [existingSnapshot]
  split
  · next message after failed =>
      rw [failed] at attached
      exact .inl attached.requested
  next answer middle answered =>
    rw [answered] at attached
    rcases existingFromAnswer_requested id middle answer with kept | listed
    · left
      simp only
      rw [kept]
      exact attached.requested
    · right
      simp only
      rw [listed, attached.requested, List.append_assoc]
      rfl

/-! ## Whole recoveries -/

def Request.isSpawn : Request → Bool
  | .spawn .. => true
  | _ => false

def Connection.spawnRequests (connection : Connection) : List Request :=
  connection.requested.filter Request.isSpawn

/-- The daemon answers the recovery's first request, and denies the session. -/
def Licensed (parsers : Parsers) (id : Uuid) (connection : Connection) : Prop :=
  ∃ answer middle rest,
    Replies parsers connection.ending connection.incoming answer middle ∧
      Denies parsers connection.ending id middle rest

theorem existingSnapshot_spawnRequests (id : Uuid) (connection : Connection) :
    (existingSnapshot parsers id connection).2.spawnRequests = connection.spawnRequests := by
  rw [Connection.spawnRequests]
  rcases @existingSnapshot_requested parsers id connection with attach | list
  · rw [attach, List.filter_append]
    exact List.append_nil _
  · rw [list, List.filter_append]
    exact List.append_nil _

theorem resize_spawnRequests {id : Uuid} {cols rows : Nat} {before after : Connection}
    (requested : Requested before after (.resize id cols rows)) :
    after.spawnRequests = before.spawnRequests := by
  rw [Connection.spawnRequests, requested.requested, List.filter_append]
  exact List.append_nil _

theorem findExisting_spec (cols rows : Nat) (id : Uuid) (connection : Connection) :
    ((findExisting parsers cols rows id false connection).1 = .ok none →
      Licensed parsers id connection) ∧
    (∀ typed, (findExisting parsers cols rows id false connection).1 = .error (.recovery typed) →
      ∃ message, typed = RemoteRecoveryError.isProtected id message) ∧
    (findExisting parsers cols rows id false connection).2.spawnRequests =
      connection.spawnRequests := by
  have asked := request_requested parsers connection (.resize id (max cols 1) (max rows 1))
  have found : ∀ {answer after},
      connection.request parsers (.resize id (max cols 1) (max rows 1)) = (.ok answer, after) →
      ((existingSnapshot parsers id after).1 = .ok none → Licensed parsers id connection) ∧
      (∀ typed, (existingSnapshot parsers id after).1 = .error (.recovery typed) →
        ∃ message, typed = RemoteRecoveryError.isProtected id message) ∧
      (existingSnapshot parsers id after).2.spawnRequests = connection.spawnRequests := by
    intro answer after answered
    obtain ⟨_, replies, requested⟩ := request_eq_ok.mp answered
    refine ⟨?_, ?_, ?_⟩
    · intro missing
      obtain ⟨_, rest, denies⟩ := existingSnapshot_licence.mp missing
      rw [requested.ending] at denies
      exact ⟨answer, after.incoming, rest, replies, denies⟩
    · intro typed failed
      obtain ⟨message, equal⟩ := existingSnapshot_protected failed
      exact ⟨message, by simpa using equal⟩
    · rw [existingSnapshot_spawnRequests, resize_spawnRequests requested]
  rw [findExisting, if_neg (by simp)]
  split
  · next failed =>
      rw [failed] at asked
      exact ⟨by simp, by simp, resize_spawnRequests asked⟩
  · next answered => exact found answered
  · next answered => exact found answered
  · next answered =>
      rw [answered] at asked
      exact ⟨by simp, by simp, resize_spawnRequests asked⟩

theorem adoptSnapshot_untyped {process : Process} {spec : SessionSpec} {key : Option LeafKey}
    {id : Uuid} {birth : Bool} {snapshot : ExistingSnapshot} (typed : RemoteRecoveryError) :
    adoptSnapshot process spec key id birth snapshot ≠ .error (.recovery typed) := by
  intro failed
  simp only [adoptSnapshot] at failed
  split at failed
  · next unbound =>
      cases failed
      split at unbound
      · split at unbound
        · cases unbound
        · split at unbound <;> cases unbound
      · split at unbound <;> cases unbound
  · split at failed
    · cases failed
    · split at failed <;> cases failed

/-- An operation that finds no licence neither requests a Spawn nor fails with anything
but a protected or an untyped error. -/
theorem recoverOperation_unlicensed (process : Process) (spec : SessionSpec) (cols rows : Nat)
    (capabilities : BirthCapabilities) (key : Option LeafKey) {id : Uuid}
    {connection : Connection} (unlicensed : ¬ Licensed parsers id connection) :
    ∃ result after,
      recoverOperation parsers process spec cols rows capabilities key id false connection =
        (result, false, after) ∧
      after.spawnRequests = connection.spawnRequests ∧
      ∀ typed, result = .error (.recovery typed) →
        ∃ message, typed = RemoteRecoveryError.isProtected id message := by
  obtain ⟨licensed, refused, kept⟩ :=
    @findExisting_spec parsers cols rows id connection
  rw [recoverOperation]
  split
  · exact ⟨_, _, rfl, rfl, by simp⟩
  · exact ⟨_, _, rfl, rfl, by simp⟩
  · cases found : findExisting parsers cols rows id false connection with
    | mk answer after =>
        rw [found] at licensed refused kept
        match answer with
        | .error error => exact ⟨_, _, rfl, kept, by simpa using refused⟩
        | .ok (some snapshot) =>
            exact ⟨_, _, rfl, kept, fun typed failed => absurd failed (adoptSnapshot_untyped typed)⟩
        | .ok none => exact absurd (licensed rfl) unlicensed

/-- A recovery of a session that may exist requests a Spawn only behind a complete
denial of that session; in every other failing case its error is protected under the
identity of the session, and no Spawn was requested. -/
theorem spawn_needs_denial (parsers : Parsers) (id : Uuid) :
    (∀ connection, (existingSnapshot parsers id connection).1 = .ok none ↔
      TwoWritesSucceed connection ∧
        ∃ rest, Denies parsers connection.ending id connection.incoming rest) ∧
    (∀ connection, (existingSnapshot parsers id connection).2.spawnRequests =
      connection.spawnRequests) ∧
    (∀ connection error, (existingSnapshot parsers id connection).1 = .error error →
      ∃ message, error = .recovery (RemoteRecoveryError.isProtected id message)) ∧
    ∀ process spec cols rows connected,
      (∀ capabilities connection, connected = some (capabilities, connection) →
        ¬ Licensed parsers id connection) →
      (recoverRemote parsers process spec cols rows id .adoptExisting connected).2.map
          Connection.spawnRequests =
        connected.map (fun pair => pair.2.spawnRequests) ∧
      ∀ error,
        (recoverRemote parsers process spec cols rows id .adoptExisting connected).1 =
          .error error →
        ∃ message, error = (RemoteRecoveryError.isProtected id message).withCloser := by
  refine ⟨fun _ => existingSnapshot_licence, existingSnapshot_spawnRequests id,
    fun _ _ => existingSnapshot_protected, ?_⟩
  intro process spec cols rows connected unlicensed
  match connected with
  | none => exact ⟨rfl, fun error failed => ⟨_, by cases failed; rfl⟩⟩
  | some (capabilities, connection) =>
      rw [recoverRemote]
      split
      · exact ⟨rfl, fun error failed => ⟨_, by cases failed; rfl⟩⟩
      next key bound =>
        obtain ⟨result, after, operated, kept, refused⟩ :=
          recoverOperation_unlicensed process spec cols rows capabilities key
            (unlicensed capabilities connection rfl)
        have adopting : decide (RemoteSpawnIntent.adoptExisting = .newBirth) = false := rfl
        rw [adopting, operated]
        match result with
        | .ok value => exact ⟨by simp [kept], fun error failed => by cases failed⟩
        | .error (.other message) =>
            refine ⟨by simp [kept], fun error failed => ⟨message, ?_⟩⟩
            simpa using failed.symm
        | .error (.recovery typed) =>
            obtain ⟨message, rfl⟩ := refused typed rfl
            refine ⟨by simp [kept], fun error failed => ⟨message, ?_⟩⟩
            simpa using failed.symm

end TerminalCanvas.Daemon
