import Mathlib.Data.UInt
import TerminalCanvas.Foundation.Execution

/-! # The reader of the file viewer

One worker loads one file at a time. It shares a pending slot, a completed slot and
the latest token with the owner. Every input is one critical section, or one read of
the latest token. What the loader returns, and when it panics, is part of the input. -/

namespace TerminalCanvas.App

open Execution

namespace FileViewerReader

/-- A read that was asked for. What it notifies is left out. -/
structure FileReadJob (Path : Type) where
  token : UInt64
  path : Path
deriving DecidableEq, Repr

structure FileReadResult (Path Contents : Type) where
  token : UInt64
  path : Path
  contents : Contents
deriving DecidableEq, Repr

inductive Worker (Path Contents : Type) where
  | waiting
  | taken (job : FileReadJob Path)
  | loading (job : FileReadJob Path)
  | loaded (job : FileReadJob Path) (contents : Contents)
  | notifying
  | exited
deriving DecidableEq, Repr

def Worker.job {Path Contents : Type} : Worker Path Contents → Option (FileReadJob Path)
  | .taken job | .loading job | .loaded job _ => some job
  | .waiting | .notifying | .exited => none

/-- The reader, the state it shares with the worker, and the worker. -/
structure Reader (Path Contents : Type) where
  pending : Option (FileReadJob Path)
  completed : Option (FileReadResult Path Contents)
  latestToken : UInt64
  closed : Bool
  nextToken : UInt64
  worker : Worker Path Contents

inductive Input (Path Contents : Type) where
  | request (path : Path)
  | cancel
  | poll
  /-- The worker looks at the pending slot. -/
  | wake
  /-- The worker looks for a cancellation before it loads. -/
  | check
  | loads (outcome : Option Contents)
  /-- The worker stores a result, unless it was cancelled. -/
  | store
  | notify
  | panic

inductive Event (Path Contents : Type) where
  | requested (job : FileReadJob Path)
  | cancelled
  | polled (result : Option (FileReadResult Path Contents))
  | loaded (job : FileReadJob Path) (outcome : Option Contents)
  | silent

variable {Path Contents : Type}

namespace Reader

/-- The reader in front of everything, with a worker if one could be spawned. -/
def withLoader (spawned : Bool) : Reader Path Contents where
  pending := none
  completed := none
  latestToken := 0
  closed := !spawned
  nextToken := 0
  worker := if spawned then .waiting else .exited

def cancelled (reader : Reader Path Contents) (token : UInt64) : Bool :=
  reader.closed || reader.latestToken != token

/-- `ReaderExitGuard::drop`, when the worker returns or panics. -/
def exit (reader : Reader Path Contents) : Reader Path Contents :=
  { reader with closed := true, pending := none, worker := .exited }

def request (reader : Reader Path Contents) (path : Path) :
    Reader Path Contents × Event Path Contents :=
  let token := reader.nextToken + 1
  ({ reader with
      nextToken := token
      latestToken := token
      pending := if reader.closed then none else some ⟨token, path⟩
      completed := none },
    .requested ⟨token, path⟩)

def isCurrent (reader : Reader Path Contents) (token : UInt64) : Bool :=
  reader.latestToken == token

def poll (reader : Reader Path Contents) : Reader Path Contents × Event Path Contents :=
  ({ reader with completed := none },
    .polled (reader.completed.filter fun result => reader.isCurrent result.token))

def cancel (reader : Reader Path Contents) : Reader Path Contents × Event Path Contents :=
  let token := reader.nextToken + 1
  ({ reader with
      nextToken := token, latestToken := token, pending := none, completed := none },
    .cancelled)

/-- The loop of the worker up to the job it takes. -/
def wake (reader : Reader Path Contents) : Reader Path Contents :=
  if reader.closed then
    reader.exit
  else
    match reader.pending with
    | none => reader
    | some job => { reader with pending := none, worker := .taken job }

def check (reader : Reader Path Contents) (job : FileReadJob Path) : Reader Path Contents :=
  if reader.cancelled job.token then
    { reader with worker := .waiting }
  else
    { reader with worker := .loading job }

def loads (reader : Reader Path Contents) (job : FileReadJob Path) :
    Option Contents → Reader Path Contents
  | none => { reader with worker := .waiting }
  | some contents => { reader with worker := .loaded job contents }

def store (reader : Reader Path Contents) (job : FileReadJob Path) (contents : Contents) :
    Reader Path Contents :=
  if reader.cancelled job.token then
    { reader with worker := .waiting }
  else
    { reader with
      completed := some ⟨job.token, job.path, contents⟩
      worker := .notifying }

/-- One input. A step that the worker is not at does nothing. -/
def step (reader : Reader Path Contents) :
    Input Path Contents → Reader Path Contents × Event Path Contents
  | .request path => reader.request path
  | .cancel => reader.cancel
  | .poll => reader.poll
  | .wake =>
      match reader.worker with
      | .waiting => (reader.wake, .silent)
      | _ => (reader, .silent)
  | .check =>
      match reader.worker with
      | .taken job => (reader.check job, .silent)
      | _ => (reader, .silent)
  | .loads outcome =>
      match reader.worker with
      | .loading job => (reader.loads job outcome, .loaded job outcome)
      | _ => (reader, .silent)
  | .store =>
      match reader.worker with
      | .loaded job contents => (reader.store job contents, .silent)
      | _ => (reader, .silent)
  | .notify =>
      match reader.worker with
      | .notifying => ({ reader with worker := .waiting }, .silent)
      | _ => (reader, .silent)
  | .panic =>
      match reader.worker with
      | .waiting | .exited => (reader, .silent)
      | _ => (reader.exit, .silent)

end Reader

def machine : Machine (Reader Path Contents) (Input Path Contents) (Event Path Contents) where
  step reader input := ⟨(reader.step input).1, (reader.step input).2⟩

def events (reader : Reader Path Contents) (inputs : List (Input Path Contents)) :
    List (Event Path Contents) :=
  machine.monitor (fun seen _ event => seen ++ [event]) [] reader inputs

/-! ## What the owner is promised -/

/-- A request or a cancellation; either takes a token. -/
def Event.starts : Event Path Contents → Bool
  | .requested _ | .cancelled => true
  | _ => false

def Event.answers : Event Path Contents → Bool
  | .polled (some _) => true
  | _ => false

/-- A result is that of the latest request: nothing was asked for, cancelled or
answered since, and the worker has loaded it since. -/
def AnswersLatest (before : List (Event Path Contents)) (result : FileReadResult Path Contents) :
    Prop :=
  ∃ earlier later, before = earlier ++ .requested ⟨result.token, result.path⟩ :: later ∧
    (∀ event ∈ later, event.starts = false ∧ event.answers = false) ∧
    .loaded ⟨result.token, result.path⟩ (some result.contents) ∈ later

/-- What has become of a request that was not superseded or cancelled, with the events
behind it. -/
inductive Accounted (reader : Reader Path Contents) (job : FileReadJob Path)
    (later : List (Event Path Contents)) : Prop where
  | exited (closed : reader.worker = .exited)
  | abandoned (loaded : .loaded job none ∈ later)
  | pending (waits : reader.pending = some job)
  | loading (works : reader.worker.job = some job)
  | completed (result : FileReadResult Path Contents) (stored : reader.completed = some result)
      (same : job = ⟨result.token, result.path⟩)
  | polled (result : FileReadResult Path Contents) (answered : .polled (some result) ∈ later)
      (same : job = ⟨result.token, result.path⟩)

/-! ## The standing request -/

def starts (events : List (Event Path Contents)) : Nat := events.countP Event.starts

/-- The last request and what came after it, unless it was cancelled. -/
def record (seen : Option (FileReadJob Path × List (Event Path Contents))) :
    Event Path Contents → Option (FileReadJob Path × List (Event Path Contents))
  | .requested job => some (job, [])
  | .cancelled => none
  | event => seen.map fun standing => (standing.1, standing.2 ++ [event])

def standing (events : List (Event Path Contents)) :
    Option (FileReadJob Path × List (Event Path Contents)) :=
  events.foldl record none

section Standing

variable {events : List (Event Path Contents)} {event : Event Path Contents}
  {job : FileReadJob Path} {later : List (Event Path Contents)}

theorem starts_append (events : List (Event Path Contents)) (event : Event Path Contents) :
    starts (events ++ [event]) = starts events + if event.starts then 1 else 0 := by
  rw [starts, List.countP_append, List.countP_singleton]
  rfl

theorem standing_append (events : List (Event Path Contents)) (event : Event Path Contents) :
    standing (events ++ [event]) = record (standing events) event := by
  rw [standing, List.foldl_append]
  rfl

theorem record_quiet (quiet : event.starts = false)
    (seen : Option (FileReadJob Path × List (Event Path Contents))) :
    record seen event = seen.map fun standing => (standing.1, standing.2 ++ [event]) := by
  cases event with
  | requested job => cases quiet
  | cancelled => cases quiet
  | polled result => rfl
  | loaded job outcome => rfl
  | silent => rfl

theorem standing_quiet (quiet : event.starts = false) :
    standing (events ++ [event]) = some (job, later) ↔
      ∃ earlier, standing events = some (job, earlier) ∧ later = earlier ++ [event] := by
  rw [standing_append, record_quiet quiet, Option.map_eq_some_iff]
  constructor
  · rintro ⟨⟨known, earlier⟩, stands, equal⟩
    simp only [Prod.mk.injEq] at equal
    obtain ⟨rfl, rfl⟩ := equal
    exact ⟨earlier, stands, rfl⟩
  · rintro ⟨earlier, stands, rfl⟩
    exact ⟨(job, earlier), stands, rfl⟩

theorem standing_eq_some : standing events = some (job, later) ↔
    ∃ earlier, events = earlier ++ .requested job :: later ∧
      ∀ event ∈ later, event.starts = false := by
  induction events using List.reverseRecOn generalizing job later with
  | nil => simp [standing]
  | append_singleton events event induction =>
      cases start : event.starts with
      | false =>
          rw [standing_quiet start]
          constructor
          · rintro ⟨earlier, stands, rfl⟩
            obtain ⟨first, rfl, quiet⟩ := induction.mp stands
            refine ⟨first, by simp, ?_⟩
            intro other member
            rcases List.mem_append.mp member with member | member
            · exact quiet other member
            · rw [List.mem_singleton.mp member, start]
          · rintro ⟨first, split, quiet⟩
            rcases List.eq_nil_or_concat later with rfl | ⟨earlier, last, rfl⟩
            · obtain ⟨-, rfl⟩ := List.append_inj' split rfl |>.imp_right List.singleton_inj.mp
              cases start
            · rw [List.concat_eq_append] at split quiet ⊢
              rw [← List.cons_append, ← List.append_assoc] at split
              obtain ⟨front, same⟩ := List.append_inj' split rfl
              rw [List.singleton_inj] at same
              refine ⟨earlier, induction.mpr ⟨first, front, ?_⟩, by rw [same]⟩
              exact fun other member => quiet other (List.mem_append_left _ member)
      | true =>
          have ends : ∀ first : List (Event Path Contents),
              events ++ [event] = first ++ .requested job :: later →
              (∀ event ∈ later, event.starts = false) → event = .requested job ∧ later = [] := by
            intro first split quiet
            rcases List.eq_nil_or_concat later with rfl | ⟨earlier, last, rfl⟩
            · exact ⟨List.singleton_inj.mp (List.append_inj' split rfl).2, rfl⟩
            · rw [List.concat_eq_append] at split quiet
              rw [← List.cons_append, ← List.append_assoc] at split
              have same := List.singleton_inj.mp (List.append_inj' split rfl).2
              have silent := quiet last (by simp)
              rw [← same, start] at silent
              cases silent
          rw [standing_append]
          constructor
          · intro stands
            cases event with
            | requested known =>
                simp only [record, Option.some.injEq, Prod.mk.injEq] at stands
                obtain ⟨rfl, rfl⟩ := stands
                exact ⟨events, rfl, List.forall_mem_nil _⟩
            | cancelled => cases stands
            | polled result => cases start
            | loaded known outcome => cases start
            | silent => cases start
          · rintro ⟨first, split, quiet⟩
            obtain ⟨rfl, rfl⟩ := ends first split quiet
            rfl

end Standing

/-! ## One place for the standing request -/

/-- The standing request is in one place, and nothing else may become a result. -/
structure Served (reader : Reader Path Contents) (events : List (Event Path Contents)) :
    Prop where
  next : reader.nextToken = UInt64.ofNat (starts events)
  latest : reader.latestToken = reader.nextToken
  closed : reader.closed = true ↔ reader.worker = .exited
  pending : ∀ job, reader.pending = some job → reader.completed = none ∧
    ∃ later, standing events = some (job, later) ∧ ∀ event ∈ later, event.answers = false
  working : ∀ job, reader.worker.job = some job → job.token.toNat ≤ starts events ∧
    (job.token = reader.latestToken → reader.pending = none ∧ reader.completed = none ∧
      ∃ later, standing events = some (job, later) ∧ (∀ event ∈ later, event.answers = false) ∧
        ∀ contents, reader.worker = .loaded job contents → .loaded job (some contents) ∈ later)
  completed : ∀ result, reader.completed = some result →
    ∃ later, standing events = some (⟨result.token, result.path⟩, later) ∧
      (∀ event ∈ later, event.answers = false) ∧
      .loaded ⟨result.token, result.path⟩ (some result.contents) ∈ later
  standing : ∀ job later, standing events = some (job, later) →
    job.token = reader.latestToken ∧ Accounted reader job later
  answered : ∀ before result after, events = before ++ .polled (some result) :: after →
    AnswersLatest before result

section Served

variable {reader next : Reader Path Contents} {events : List (Event Path Contents)}
  {event : Event Path Contents} {job : FileReadJob Path} {later : List (Event Path Contents)}

theorem served_withLoader (spawned : Bool) :
    Served (Reader.withLoader spawned : Reader Path Contents) [] where
  next := rfl
  latest := rfl
  closed := by cases spawned <;> simp [Reader.withLoader]
  pending := nofun
  working := by
    intro job works
    cases spawned <;> cases works
  completed := nofun
  standing := nofun
  answered := by
    intro before result after split
    simp at split

theorem answered_append
    (answered : ∀ before result after, events = before ++ .polled (some result) :: after →
      AnswersLatest before result)
    (last : ∀ result, event = .polled (some result) → AnswersLatest events result) :
    ∀ before result after, events ++ [event] = before ++ .polled (some result) :: after →
      AnswersLatest before result := by
  intro before result after split
  rcases List.eq_nil_or_concat after with rfl | ⟨after, final, rfl⟩
  · obtain ⟨rfl, same⟩ := List.append_inj' split rfl
    exact last result (List.singleton_inj.mp same)
  · rw [List.concat_eq_append, ← List.cons_append, ← List.append_assoc] at split
    exact answered before result after (List.append_inj' split rfl).1

theorem token_ne (served : Served reader events) (fresh : starts events + 1 < 2 ^ 64)
    (works : reader.worker.job = some job) : job.token ≠ reader.nextToken + 1 := by
  intro same
  have older := (served.working job works).1
  have value : (reader.nextToken + 1).toNat = starts events + 1 := by
    rw [served.next, UInt64.toNat_add, UInt64.toNat_ofNat']
    simp only [UInt64.toNat_one]
    omega
  rw [same, value] at older
  omega

theorem next_append (served : Served reader events) (start : event.starts = true) :
    reader.nextToken + 1 = UInt64.ofNat (starts (events ++ [event])) := by
  rw [served.next, starts_append, start, if_pos rfl, UInt64.ofNat_add]
  rfl

theorem served_request (served : Served reader events) (path : Path)
    (fresh : starts events + 1 < 2 ^ 64) :
    Served (reader.request path).1 (events ++ [(reader.request path).2]) where
  next := next_append served rfl
  latest := rfl
  closed := served.closed
  pending := by
    intro job waits
    refine ⟨rfl, [], ?_, List.forall_mem_nil _⟩
    rw [standing_append]
    cases closed : reader.closed with
    | true => simp [Reader.request, closed] at waits
    | false =>
        simp only [Reader.request, closed, Bool.false_eq_true, if_false, Option.some.injEq] at waits
        rw [← waits]
        rfl
  working := by
    intro job works
    have older := (served.working job works).1
    refine ⟨?_, fun same => absurd same (token_ne served fresh works)⟩
    rw [starts_append]
    omega
  completed := nofun
  standing := by
    intro job later stands
    rw [standing_append] at stands
    simp only [Reader.request, record, Option.some.injEq, Prod.mk.injEq] at stands
    obtain ⟨rfl, rfl⟩ := stands
    refine ⟨rfl, ?_⟩
    cases closed : reader.closed with
    | true => exact .exited (served.closed.mp closed)
    | false => exact .pending (by simp [Reader.request, closed])
  answered := answered_append served.answered nofun

theorem served_cancel (served : Served reader events) (fresh : starts events + 1 < 2 ^ 64) :
    Served reader.cancel.1 (events ++ [reader.cancel.2]) where
  next := next_append served rfl
  latest := rfl
  closed := served.closed
  pending := nofun
  working := by
    intro job works
    have older := (served.working job works).1
    refine ⟨?_, fun same => absurd same (token_ne served fresh works)⟩
    rw [starts_append]
    omega
  completed := nofun
  standing := by
    intro job later stands
    rw [standing_append] at stands
    cases stands
  answered := answered_append served.answered nofun

theorem Served.work (served : Served reader events) (quiet : event.starts = false)
    (mute : event.answers = false) (sameNext : next.nextToken = reader.nextToken)
    (sameLatest : next.latestToken = reader.latestToken)
    (closed : next.closed = true ↔ next.worker = .exited)
    (pending : ∀ job, next.pending = some job →
      reader.pending = some job ∧ next.completed = reader.completed)
    (working : ∀ job, next.worker.job = some job → job.token.toNat ≤ starts events ∧
      (job.token = reader.latestToken → next.pending = none ∧ next.completed = none ∧
        ∃ later, FileViewerReader.standing events = some (job, later) ∧
          (∀ event ∈ later, event.answers = false) ∧
          ∀ contents, next.worker = .loaded job contents →
            .loaded job (some contents) ∈ later ++ [event]))
    (completed : ∀ result, next.completed = some result →
      ∃ later, FileViewerReader.standing events = some (⟨result.token, result.path⟩, later) ∧
        (∀ event ∈ later, event.answers = false) ∧
        .loaded ⟨result.token, result.path⟩ (some result.contents) ∈ later)
    (accounted : ∀ job later, job.token = reader.latestToken → Accounted reader job later →
      Accounted next job (later ++ [event])) :
    Served next (events ++ [event]) := by
  have extended : ∀ later : List (Event Path Contents), (∀ event ∈ later, event.answers = false) →
      ∀ other ∈ later ++ [event], other.answers = false := by
    intro later none
    rw [List.forall_mem_append]
    exact ⟨none, List.forall_mem_singleton.mpr mute⟩
  have count : starts (events ++ [event]) = starts events := by
    rw [starts_append, quiet]
    rfl
  refine ⟨by rw [sameNext, served.next, count], by rw [sameLatest, sameNext, served.latest], closed,
    ?_, ?_, ?_, ?_, ?_⟩
  · intro job waits
    obtain ⟨waited, same⟩ := pending job waits
    obtain ⟨empty, later, stands, none⟩ := served.pending job waited
    exact ⟨same.trans empty, _, (standing_quiet quiet).mpr ⟨later, stands, rfl⟩,
      extended later none⟩
  · intro job works
    obtain ⟨older, current⟩ := working job works
    refine ⟨by rw [count]; exact older, ?_⟩
    intro isLatest
    obtain ⟨idle, empty, later, stands, none, loaded⟩ := current (isLatest.trans sameLatest)
    exact ⟨idle, empty, _, (standing_quiet quiet).mpr ⟨later, stands, rfl⟩, extended later none,
      loaded⟩
  · intro result stored
    obtain ⟨later, stands, none, loaded⟩ := completed result stored
    exact ⟨_, (standing_quiet quiet).mpr ⟨later, stands, rfl⟩, extended later none,
      List.mem_append_left _ loaded⟩
  · intro job later stands
    obtain ⟨earlier, stood, rfl⟩ := (standing_quiet quiet).mp stands
    obtain ⟨isLatest, account⟩ := served.standing job earlier stood
    exact ⟨isLatest.trans sameLatest.symm, accounted job earlier isLatest account⟩
  · apply answered_append served.answered
    rintro result rfl
    cases mute

theorem Accounted.mono (accounted : Accounted reader job later)
    (event : Event Path Contents) : Accounted reader job (later ++ [event]) := by
  cases accounted with
  | exited closed => exact .exited closed
  | abandoned loaded => exact .abandoned (List.mem_append_left _ loaded)
  | pending waits => exact .pending waits
  | loading works => exact .loading works
  | completed result stored same => exact .completed result stored same
  | polled result answered same => exact .polled result (List.mem_append_left _ answered) same

theorem Served.unchanged (served : Served reader events) (quiet : event.starts = false)
    (mute : event.answers = false) : Served reader (events ++ [event]) := by
  apply served.work quiet mute rfl rfl served.closed (fun _ waits => ⟨waits, rfl⟩) ?_
    served.completed (fun _ _ _ accounted => accounted.mono _)
  intro job works
  obtain ⟨older, current⟩ := served.working job works
  refine ⟨older, fun isLatest => ?_⟩
  obtain ⟨idle, empty, later, stands, none, loaded⟩ := current isLatest
  exact ⟨idle, empty, later, stands, none, fun contents isLoaded =>
    List.mem_append_left _ (loaded contents isLoaded)⟩

theorem served_poll (served : Served reader events) :
    Served reader.poll.1 (events ++ [reader.poll.2]) := by
  cases stored : reader.completed with
  | none =>
      have same : reader.poll.1 = reader := by
        rw [Reader.poll, ← stored]
      have polled : reader.poll.2 = .polled none := by
        simp [Reader.poll, stored]
      rw [same, polled]
      exact served.unchanged rfl rfl
  | some result =>
      obtain ⟨later, stands, none, loaded⟩ := served.completed result stored
      have isLatest := (served.standing _ _ stands).1
      have polled : reader.poll.2 = .polled (some result) := by
        simp only at isLatest
        simp [Reader.poll, stored, Reader.isCurrent, isLatest]
      have count : starts (events ++ [reader.poll.2]) = starts events := by
        rw [starts_append, polled]
        rfl
      refine ⟨by rw [count]; exact served.next, served.latest, served.closed, ?_, ?_, nofun, ?_, ?_⟩
      · intro job waits
        rw [(served.pending job waits).1] at stored
        cases stored
      · intro job works
        obtain ⟨older, current⟩ := served.working job works
        refine ⟨by rw [count]; exact older, ?_⟩
        intro same
        rw [(current same).2.1] at stored
        cases stored
      · intro job behind stands'
        rw [polled] at stands'
        obtain ⟨earlier, stood, rfl⟩ := (standing_quiet rfl).mp stands'
        rw [stands] at stood
        cases stood
        exact ⟨isLatest, .polled result (by simp) rfl⟩
      · rw [polled]
        apply answered_append served.answered
        intro other same
        cases same
        obtain ⟨earlier, split, quiet⟩ := standing_eq_some.mp stands
        exact ⟨earlier, later, split, fun event member => ⟨quiet event member, none event member⟩,
          loaded⟩

theorem served_exit (served : Served reader events) :
    Served reader.exit (events ++ [.silent]) := by
  refine served.work rfl rfl rfl rfl ?_ ?_ ?_ served.completed ?_
  · exact ⟨fun _ => rfl, fun _ => rfl⟩
  · nofun
  · nofun
  · exact fun _ _ _ _ => .exited rfl

theorem served_leave (served : Served reader events) (quiet : event.starts = false)
    (mute : event.answers = false) (alive : reader.worker ≠ .exited)
    (gone : ∀ job, reader.worker.job = some job → job.token = reader.latestToken →
      event = .loaded job none) :
    Served { reader with worker := .waiting } (events ++ [event]) := by
  refine served.work quiet mute rfl rfl ?_ (fun _ waits => ⟨waits, rfl⟩) ?_ served.completed ?_
  · have open' : reader.closed ≠ true := fun closed => alive (served.closed.mp closed)
    simp [open']
  · nofun
  · intro job later isLatest accounted
    cases accounted with
    | exited closed => exact absurd closed alive
    | abandoned loaded => exact .abandoned (List.mem_append_left _ loaded)
    | pending waits => exact .pending waits
    | loading works => exact .abandoned (by simp [gone job works isLatest])
    | completed result stored same => exact .completed result stored same
    | polled result answered same => exact .polled result (List.mem_append_left _ answered) same

theorem served_proceed (served : Served reader events) (quiet : event.starts = false)
    (mute : event.answers = false) (works : reader.worker.job = some job)
    {worker : Worker Path Contents} (same : worker.job = some job)
    (loaded : ∀ contents, worker = .loaded job contents → event = .loaded job (some contents)) :
    Served { reader with worker := worker } (events ++ [event]) := by
  have alive : reader.worker ≠ .exited := by
    intro exited
    rw [exited] at works
    cases works
  have still : worker ≠ .exited := by
    rintro rfl
    cases same
  refine served.work quiet mute rfl rfl ?_ (fun _ waits => ⟨waits, rfl⟩) ?_ served.completed ?_
  · have open' : reader.closed ≠ true := fun closed => alive (served.closed.mp closed)
    simp [open', still]
  · intro other isWork
    have equal : job = other := Option.some.inj (same.symm.trans isWork)
    subst equal
    obtain ⟨older, current⟩ := served.working job works
    refine ⟨older, fun isLatest => ?_⟩
    obtain ⟨idle, empty, later, stands, none, -⟩ := current isLatest
    refine ⟨idle, empty, later, stands, none, ?_⟩
    intro contents isLoaded
    rw [loaded contents isLoaded]
    simp
  · intro other later isLatest accounted
    cases accounted with
    | exited closed => exact absurd closed alive
    | abandoned loaded => exact .abandoned (List.mem_append_left _ loaded)
    | pending waits => exact .pending waits
    | loading isWork => exact .loading (same.trans (works.symm.trans isWork))
    | completed result stored same => exact .completed result stored same
    | polled result answered same => exact .polled result (List.mem_append_left _ answered) same

theorem served_wake (served : Served reader events) (idle : reader.worker = .waiting) :
    Served reader.wake (events ++ [.silent]) := by
  unfold Reader.wake
  split
  · exact served_exit served
  · next open' =>
      split
      · exact served.unchanged rfl rfl
      · next job waits =>
          obtain ⟨empty, later, stands, none⟩ := served.pending job waits
          have isLatest := (served.standing job later stands).1
          refine served.work rfl rfl rfl rfl ?_ ?_ ?_ served.completed ?_
          · simp [open']
          · nofun
          · rintro other ⟨⟩
            refine ⟨?_, fun _ => ⟨rfl, empty, later, stands, none, nofun⟩⟩
            rw [isLatest, served.latest, served.next, UInt64.toNat_ofNat']
            exact Nat.mod_le _ _
          · intro other behind _ accounted
            cases accounted with
            | exited closed =>
                rw [idle] at closed
                cases closed
            | abandoned loaded => exact .abandoned (List.mem_append_left _ loaded)
            | pending isPending => exact .loading (waits.symm.trans isPending)
            | loading works =>
                rw [idle] at works
                cases works
            | completed result stored same => exact .completed result stored same
            | polled result answered same =>
                exact .polled result (List.mem_append_left _ answered) same

theorem cancelled_iff (served : Served reader events) (alive : reader.worker ≠ .exited)
    {token : UInt64} : reader.cancelled token = true ↔ token ≠ reader.latestToken := by
  have open' : reader.closed = false := by
    cases closed : reader.closed with
    | false => rfl
    | true => exact absurd (served.closed.mp closed) alive
  simp only [Reader.cancelled, open', Bool.false_or, bne_iff_ne, ne_eq]
  exact not_congr eq_comm

theorem served_check (served : Served reader events) (taken : reader.worker = .taken job) :
    Served (reader.check job) (events ++ [.silent]) := by
  unfold Reader.check
  split
  · next cancelled =>
      have alive : reader.worker ≠ .exited := by simp [taken]
      apply served_leave served rfl rfl alive
      intro other works isLatest
      rw [taken] at works
      cases works
      exact absurd isLatest ((cancelled_iff served alive).mp cancelled)
  · exact served_proceed served rfl rfl (by rw [taken]; rfl) rfl nofun

theorem served_loads (served : Served reader events) (loading : reader.worker = .loading job)
    (outcome : Option Contents) :
    Served (reader.loads job outcome) (events ++ [.loaded job outcome]) := by
  cases outcome with
  | none =>
      apply served_leave served rfl rfl (by simp [loading])
      intro other works _
      rw [loading] at works
      cases works
      rfl
  | some contents =>
      apply served_proceed served rfl rfl (by rw [loading]; rfl) rfl
      intro other isLoaded
      cases isLoaded
      rfl

theorem served_store (served : Served reader events) {contents : Contents}
    (loaded : reader.worker = .loaded job contents) :
    Served (reader.store job contents) (events ++ [.silent]) := by
  have alive : reader.worker ≠ .exited := by simp [loaded]
  unfold Reader.store
  split
  · next cancelled =>
      apply served_leave served rfl rfl alive
      intro other works isLatest
      rw [loaded] at works
      cases works
      exact absurd isLatest ((cancelled_iff served alive).mp cancelled)
  · next current =>
      rw [cancelled_iff served alive, not_not] at current
      have works : reader.worker.job = some job := by rw [loaded]; rfl
      obtain ⟨idle, empty, later, stands, none, isLoaded⟩ := (served.working job works).2 current
      refine served.work rfl rfl rfl rfl ?_ ?_ ?_ ?_ ?_
      · have open' : reader.closed ≠ true := fun closed => alive (served.closed.mp closed)
        simp [open']
      · intro other waits
        rw [idle] at waits
        cases waits
      · nofun
      · rintro result ⟨⟩
        exact ⟨later, stands, none, isLoaded contents loaded⟩
      · intro other behind _ accounted
        cases accounted with
        | exited closed => exact absurd closed alive
        | abandoned loaded => exact .abandoned (List.mem_append_left _ loaded)
        | pending waits =>
            rw [idle] at waits
            cases waits
        | loading isWork =>
            rw [works] at isWork
            cases isWork
            exact .completed _ rfl rfl
        | completed result stored same =>
            rw [empty] at stored
            cases stored
        | polled result answered same =>
            exact .polled result (List.mem_append_left _ answered) same

theorem served_step (served : Served reader events) (input : Input Path Contents)
    (fresh : starts (events ++ [(reader.step input).2]) < 2 ^ 64) :
    Served (reader.step input).1 (events ++ [(reader.step input).2]) := by
  rw [starts_append] at fresh
  have silent := @Served.unchanged _ _ reader events .silent served rfl rfl
  cases input with
  | request path => exact served_request served path fresh
  | cancel => exact served_cancel served fresh
  | poll => exact served_poll served
  | wake =>
      simp only [Reader.step]
      split
      · next idle => exact served_wake served idle
      · exact silent
  | check =>
      simp only [Reader.step]
      split
      · next job taken => exact served_check served taken
      · exact silent
  | loads outcome =>
      simp only [Reader.step]
      split
      · next job loading => exact served_loads served loading outcome
      · exact silent
  | store =>
      simp only [Reader.step]
      split
      · next job contents loaded => exact served_store served loaded
      · exact silent
  | notify =>
      simp only [Reader.step]
      split
      · next notifying =>
          apply served_leave served rfl rfl (by simp [notifying])
          intro job works
          rw [notifying] at works
          cases works
      · exact silent
  | panic =>
      simp only [Reader.step]
      split
      · exact silent
      · exact silent
      · exact served_exit served

end Served

/-! ## Whole runs -/

theorem starts_le_append (first second : List (Event Path Contents)) :
    starts first ≤ starts (first ++ second) := by
  rw [starts, starts, List.countP_append]
  omega

theorem events_append (reader : Reader Path Contents) (inputs : List (Input Path Contents))
    (input : Input Path Contents) :
    events reader (inputs ++ [input]) =
      events reader inputs ++ [((machine.run reader inputs).step input).2] := by
  rw [events, Machine.monitor_append]
  rfl

theorem served_run (spawned : Bool) (inputs : List (Input Path Contents))
    (fresh : starts (events (Reader.withLoader spawned) inputs) < 2 ^ 64) :
    Served (machine.run (Reader.withLoader spawned) inputs)
      (events (Reader.withLoader spawned) inputs) := by
  induction inputs using List.reverseRecOn with
  | nil => exact served_withLoader spawned
  | append_singleton inputs input induction =>
      rw [events_append] at fresh ⊢
      rw [Machine.run_append]
      exact served_step (induction (Nat.lt_of_le_of_lt (starts_le_append _ _) fresh)) input fresh

/-- While fewer than `2 ^ 64` tokens are taken, only the latest request is answered, once,
and it is never lost. -/
theorem latest_request_wins (spawned : Bool) (inputs : List (Input Path Contents))
    (fresh : starts (events (Reader.withLoader spawned) inputs) < 2 ^ 64) :
    (∀ before result after,
      events (Reader.withLoader spawned) inputs = before ++ .polled (some result) :: after →
        AnswersLatest before result) ∧
    (∀ earlier job later,
      events (Reader.withLoader spawned) inputs = earlier ++ .requested job :: later →
        (∀ event ∈ later, event.starts = false) →
        Accounted (machine.run (Reader.withLoader spawned) inputs) job later) := by
  have served := served_run spawned inputs fresh
  refine ⟨served.answered, ?_⟩
  intro earlier job later split quiet
  exact (served.standing job later (standing_eq_some.mpr ⟨earlier, split, quiet⟩)).2

theorem latest_request_wins_first_file :
    @AnswersLatest String Nat
      [.requested ⟨1, "a"⟩, .requested ⟨2, "b"⟩, .silent, .silent, .loaded ⟨2, "b"⟩ (some 7),
        .silent] ⟨2, "b", 7⟩ :=
  (latest_request_wins true [.request "a", .request "b", .wake, .check, .loads (some 7), .store,
    .poll] (by decide)).1 _ _ [] rfl

/-! ## Tokens that wrap -/

theorem monitor_cancels (worker : Worker Path Contents) (closed : Bool) (token : UInt64)
    (count : Nat) (seen : List (Event Path Contents)) (inputs : List (Input Path Contents)) :
    machine.monitor (fun seen _ event => seen ++ [event]) seen
        ⟨none, none, token, closed, token, worker⟩ (List.replicate count .cancel ++ inputs) =
      machine.monitor (fun seen _ event => seen ++ [event])
        (seen ++ List.replicate count .cancelled)
        ⟨none, none, token + UInt64.ofNat count, closed, token + UInt64.ofNat count, worker⟩
        inputs := by
  induction count generalizing token seen with
  | zero => simp
  | succ count induction =>
      have next : token + 1 + UInt64.ofNat count = token + UInt64.ofNat (count + 1) := by
        rw [UInt64.ofNat_add, UInt64.add_comm (UInt64.ofNat count), ← UInt64.add_assoc]
        rfl
      rw [List.replicate_succ, List.cons_append, Machine.monitor_cons]
      have step := induction (token + 1) (seen ++ [.cancelled])
      rw [next, List.append_assoc, List.singleton_append, ← List.replicate_succ] at step
      exact step

/-- After `2 ^ 64` cancellations the token of a cancelled request is the latest again. -/
theorem cancelled_request_answered : ∃ inputs : List (Input Unit Unit),
    (events (Reader.withLoader true) inputs).countP (fun event => event matches .requested _) = 1 ∧
    ∃ before result after,
      events (Reader.withLoader true) inputs = before ++ .polled (some result) :: after ∧
        ¬ AnswersLatest before result := by
  obtain ⟨count, positive, wraps⟩ : ∃ count, 0 < count ∧ UInt64.ofNat count = 0 :=
    ⟨2 ^ 64, by decide, by decide⟩
  have seen : events (Reader.withLoader true : Reader Unit Unit)
      (.request () :: .wake :: .check ::
        (List.replicate count .cancel ++ [.loads (some ()), .store, .poll])) =
      (.requested ⟨1, ()⟩ :: .silent :: .silent :: (List.replicate count .cancelled ++
        [.loaded ⟨1, ()⟩ (some ()), .silent])) ++ [.polled (some ⟨1, (), ()⟩)] := by
    have cancels := monitor_cancels (.loading ⟨1, ()⟩) false 1 count
      [.requested ⟨1, ()⟩, .silent, .silent] [.loads (some ()), .store, .poll]
    rw [wraps] at cancels
    refine cancels.trans ?_
    simp [Machine.monitor_cons, machine, Machine.observe, Machine.next, Reader.step, Reader.loads,
      Reader.store, Reader.poll, Reader.cancelled, Reader.isCurrent]
  refine ⟨_, ?_, _, _, [], seen, ?_⟩
  · rw [seen]
    simp [List.countP_append, List.countP_replicate]
  · rintro ⟨earlier, later, split, quiet, -⟩
    cases earlier with
    | nil =>
        have behind := (List.cons.inj split).2
        have cancelled : (.cancelled : Event Unit Unit) ∈ later := by
          rw [← behind]
          simp [List.mem_replicate, Nat.ne_of_gt positive]
        cases (quiet _ cancelled).1
    | cons first earlier =>
        rw [List.cons_append] at split
        have behind := (List.cons.inj split).2
        have again : (.requested ⟨1, ()⟩ : Event Unit Unit) ∈
            earlier ++ .requested ⟨1, ()⟩ :: later := by simp
        rw [← behind] at again
        simp [List.mem_replicate] at again

end FileViewerReader

end TerminalCanvas.App
