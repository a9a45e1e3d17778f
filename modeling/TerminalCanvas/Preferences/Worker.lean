import TerminalCanvas.Foundation.Execution
import TerminalCanvas.Foundation.Primitives
import TerminalCanvas.Foundation.SortedMap

/-! # The preferences worker

Notes and settings are written by one thread, one job after another. A job that was not
confirmed is kept ahead of the queue, and a save that failed is kept until a newer one of
its destination is written. -/

namespace TerminalCanvas.Preferences

/-! ## Jobs -/

section Jobs

variable (Root Notes Config : Type)

inductive Job where
  | saveNotes (root : Root) (notes : Notes)
  | loadNotes (key request : Uuid) (root : Root)
  | importNotes (key request : Uuid) (root : Root)
  | saveSettings (config : Config)

/-- A job that was accepted, and how many were before it. -/
structure Ticket where
  stamp : Nat
  job : Job Root Notes Config

inductive Completion where
  | notesSaved (result : Except String Unit)
  | notesLoaded (key request : Uuid) (repoRoot : Root) (result : Except String (Notes × Bool))
  | notesImported (key request : Uuid) (repoRoot : Root) (result : Except String Notes)
  | settingsSaved (result : Except String Unit)

inductive Destination where
  | notes (root : Root)
  | settings
deriving DecidableEq

structure FailedSave where
  ticket : Ticket Root Notes Config
  reason : String

structure Thread where
  jobs : Option (Ticket Root Notes Config)
  running : Option (Ticket Root Notes Config)
  results : List (Completion Root Notes)
  alive : Bool

/-- The worker as the UI holds it. Behind its fields stand the jobs that were accepted and
the saves that reached the disk, each with whether it was reported as done. -/
structure PreferencesWorker [LinearOrder Root] where
  worker : Option (Thread Root Notes Config)
  retired : List (Thread Root Notes Config)
  pending : List (Ticket Root Notes Config)
  active : Option (Ticket Root Notes Config)
  failedActive : Option (Ticket Root Notes Config)
  completions : List (Completion Root Notes)
  unavailable : Option String
  notesWriteErrors : SortedMap Root (FailedSave Root Notes Config)
  settingsWriteError : Option (FailedSave Root Notes Config)
  accepted : List (Ticket Root Notes Config)
  writes : List (Ticket Root Notes Config × Bool)

end Jobs

section Worker

variable {Root Notes Config : Type} [LinearOrder Root] (display : Root → String)

namespace Job

def destination : Job Root Notes Config → Option (Destination Root)
  | saveNotes root _ => some (.notes root)
  | saveSettings _ => some .settings
  | loadNotes _ _ _ | importNotes _ _ _ => none

def sameWriteDestination (job other : Job Root Notes Config) : Bool :=
  job.destination.isSome && decide (job.destination = other.destination)

def loads : Job Root Notes Config → Option Root
  | loadNotes _ _ root => some root
  | saveNotes _ _ | importNotes _ _ _ | saveSettings _ => none

def interrupted (reason : String) : Job Root Notes Config → Completion Root Notes
  | saveNotes root _ =>
      .notesSaved (.error ("No se guardaron las notas de " ++ display root ++ ": " ++ reason))
  | saveSettings _ => .settingsSaved (.error reason)
  | loadNotes key request root =>
      .notesLoaded key request root
        (.error ("No se cargaron las notas de " ++ display root ++ ": " ++ reason))
  | importNotes key request root =>
      .notesImported key request root
        (.error ("No se importaron las notas de " ++ display root ++ ": " ++ reason))

end Job

/-- What the disk answers to a job: an error, or what it read. -/
structure Outcome (Notes : Type) where
  error : Option String
  notes : Notes
  legacy : Bool

def Outcome.result {α : Type} (outcome : Outcome Notes) (value : α) : Except String α :=
  match outcome.error with
  | none => .ok value
  | some error => .error error

def runJob (outcome : Outcome Notes) : Job Root Notes Config → Completion Root Notes
  | .saveNotes _ _ => .notesSaved (outcome.result ())
  | .loadNotes key request root =>
      .notesLoaded key request root (outcome.result (outcome.notes, outcome.legacy))
  | .importNotes key request root => .notesImported key request root (outcome.result outcome.notes)
  | .saveSettings _ => .settingsSaved (outcome.result ())

namespace PreferencesWorker

variable (Root Notes Config) in
def new : PreferencesWorker Root Notes Config where
  worker := none
  retired := []
  pending := []
  active := none
  failedActive := none
  completions := []
  unavailable := none
  notesWriteErrors := .empty
  settingsWriteError := none
  accepted := []
  writes := []

variable (worker : PreferencesWorker Root Notes Config)

/-- `spawn` is the error of the system when no thread can be started. -/
def start (spawn : Option String) : Except String (PreferencesWorker Root Notes Config) :=
  match worker.worker, spawn with
  | some _, _ => .ok worker
  | none, some error => .error error
  | none, none => .ok { worker with worker := some ⟨none, none, [], true⟩ }

/-- A save takes the place of a pending one with its destination. -/
def coalesce (ticket : Ticket Root Notes Config) :
    List (Ticket Root Notes Config) → Option (List (Ticket Root Notes Config))
  | [] => none
  | other :: rest =>
      if ticket.job.sameWriteDestination other.job then some (ticket :: rest)
      else (coalesce ticket rest).map (other :: ·)

def queue (ticket : Ticket Root Notes Config) : PreferencesWorker Root Notes Config :=
  match coalesce ticket worker.pending with
  | some pending => { worker with pending := pending }
  | none =>
      let pending :=
        if ticket.job.loads.isSome then worker.pending.filter (·.job.loads.isNone)
        else worker.pending
      { worker with pending := pending ++ [ticket] }

def retireWorker : PreferencesWorker Root Notes Config :=
  { worker with
    worker := none
    retired := (worker.retired ++ worker.worker.toList).filter (·.alive) }

/-- Active, unconfirmed or pending. -/
def line : List (Ticket Root Notes Config) :=
  worker.active.toList ++ worker.failedActive.toList ++ worker.pending

def writeWaiting (job : Job Root Notes Config) : Bool :=
  worker.line.any fun other => job.sameWriteDestination other.job

def noteWriteResult (ticket : Ticket Root Notes Config) (completion : Completion Root Notes) :
    PreferencesWorker Root Notes Config :=
  match ticket.job, completion with
  | .saveNotes root _, .notesSaved (.error error) =>
      { worker with notesWriteErrors := worker.notesWriteErrors.insert root ⟨ticket, error⟩ }
  | .saveNotes root _, .notesSaved (.ok ()) =>
      if worker.writeWaiting ticket.job then worker
      else { worker with notesWriteErrors := worker.notesWriteErrors.remove root }
  | .saveSettings _, .settingsSaved (.error error) =>
      { worker with settingsWriteError := some ⟨ticket, error⟩ }
  | .saveSettings _, .settingsSaved (.ok ()) =>
      if worker.writeWaiting ticket.job then worker
      else { worker with settingsWriteError := none }
  | _, _ => worker

/-- One turn of the loop of `mark_unavailable`. -/
def interruptJob (reason : String) (worker : PreferencesWorker Root Notes Config)
    (ticket : Ticket Root Notes Config) : PreferencesWorker Root Notes Config :=
  let completion := ticket.job.interrupted display reason
  let noted := worker.noteWriteResult ticket completion
  { noted with completions := noted.completions ++ [completion] }

def markUnavailable (reason : String) : PreferencesWorker Root Notes Config :=
  if worker.unavailable.isSome then
    worker
  else
    let worker := retireWorker { worker with unavailable := some reason }
    let worker := match worker.active with
      | some active => { worker with active := none, failedActive := some active }
      | none => worker
    (worker.failedActive.toList ++ worker.pending).foldl (interruptJob display reason) worker

/-- A load waits for the saves of its repository that failed. -/
def blocks (ticket : Ticket Root Notes Config) : Option (FailedSave Root Notes Config) :=
  ticket.job.loads.bind worker.notesWriteErrors.get?

def interruptLoad (ticket : Ticket Root Notes Config) (failure : FailedSave Root Notes Config) :
    PreferencesWorker Root Notes Config :=
  { worker with completions := worker.completions ++
      [ticket.job.interrupted display ("Hay notas pendientes de guardar: " ++ failure.reason)] }

/-- The end of the loop of `schedule`, for a job that was taken from `failed_active` or from
the front of the queue. -/
def send (ticket : Ticket Root Notes Config) (wasActive : Bool) :
    PreferencesWorker Root Notes Config :=
  let kept : PreferencesWorker Root Notes Config :=
    if wasActive then { worker with failedActive := some ticket }
    else { worker with pending := ticket :: worker.pending }
  match worker.worker with
  | some thread =>
      if thread.alive then
        if thread.jobs.isNone then
          { worker with
            active := some ticket
            worker := some { thread with jobs := some ticket } }
        else
          kept
      else
        kept.markUnavailable display "El guardado se interrumpió antes de aceptar el trabajo"
  | none => kept.markUnavailable display "El guardado se interrumpió antes de aceptar el trabajo"

/-- The loop of `schedule` over the queue. -/
def sendNext (worker : PreferencesWorker Root Notes Config) :
    List (Ticket Root Notes Config) → PreferencesWorker Root Notes Config
  | [] => { worker with pending := [] }
  | ticket :: pending =>
      match worker.blocks ticket with
      | some failure => sendNext (worker.interruptLoad display ticket failure) pending
      | none => send display { worker with pending := pending } ticket false

def schedule (spawn : Option String) : PreferencesWorker Root Notes Config :=
  if worker.active.isSome ∨ worker.unavailable.isSome ∨
      (worker.failedActive.isNone ∧ worker.pending = []) then
    worker
  else
    match worker.start spawn with
    | .error error => worker.markUnavailable display ("No se pudo iniciar el guardado: " ++ error)
    | .ok worker =>
        match worker.failedActive with
        | none => sendNext display worker worker.pending
        | some ticket =>
            let worker := { worker with failedActive := none }
            match worker.blocks ticket with
            | some failure =>
                sendNext display (worker.interruptLoad display ticket failure) worker.pending
            | none => worker.send display ticket true

def retry (spawn : Option String) : PreferencesWorker Root Notes Config :=
  let failures := worker.notesWriteErrors.values ++ worker.settingsWriteError.toList
  let retries := failures.filter fun failure => !worker.writeWaiting failure.ticket.job
  schedule display { worker with
    unavailable := none
    pending := retries.map (·.ticket) ++ worker.pending } spawn

def submit (job : Job Root Notes Config) (spawn : Option String) :
    PreferencesWorker Root Notes Config :=
  let ticket : Ticket Root Notes Config := ⟨worker.accepted.length, job⟩
  let queued := queue { worker with accepted := worker.accepted ++ [ticket] } ticket
  if queued.unavailable.isSome then queued.retry display spawn else queued.schedule display spawn

def finish (completion : Completion Root Notes) : PreferencesWorker Root Notes Config :=
  match worker.active with
  | some ticket =>
      let noted := noteWriteResult { worker with active := none } ticket completion
      { noted with completions := noted.completions ++ [completion] }
  | none =>
      worker.markUnavailable display "El guardado devolvió una respuesta sin un trabajo aceptado"

def saveNotes (root : Root) (notes : Notes) (spawn : Option String) :
    PreferencesWorker Root Notes Config :=
  worker.submit display (.saveNotes root notes) spawn

/-- `permitted` is what the status of the configuration says. -/
def saveSettings (config : Config) (permitted : Bool) (spawn : Option String) :
    PreferencesWorker Root Notes Config :=
  if permitted then worker.submit display (.saveSettings config) spawn else worker

/-- The failed save of the repository is queued ahead of the load. -/
def requeueFailure (root : Root) : PreferencesWorker Root Notes Config :=
  match worker.notesWriteErrors.get? root with
  | some failure =>
      if worker.writeWaiting failure.ticket.job then worker else worker.queue failure.ticket
  | none => worker

def loadNotes (key request : Uuid) (root : Root) (spawn : Option String) :
    PreferencesWorker Root Notes Config :=
  (worker.requeueFailure root).submit display (.loadNotes key request root) spawn

def importNotes (key request : Uuid) (root : Root) (spawn : Option String) :
    PreferencesWorker Root Notes Config :=
  worker.submit display (.importNotes key request root) spawn

/-- The loop of `poll` over the results that are there. -/
def receiveAll (worker : PreferencesWorker Root Notes Config) :
    List (Completion Root Notes) → PreferencesWorker Root Notes Config
  | [] =>
      match worker.worker with
      | some thread =>
          if thread.alive then worker
          else worker.markUnavailable display
            "El hilo de guardado se detuvo antes de confirmar el trabajo"
      | none => worker
  | completion :: results =>
      match worker.worker with
      | some thread =>
          receiveAll (finish display
            { worker with worker := some { thread with results := results } } completion) results
      | none => worker

def poll (spawn : Option String) :
    PreferencesWorker Root Notes Config × List (Completion Root Notes) :=
  let reaped := { worker with retired := worker.retired.filter (·.alive) }
  let results := match reaped.worker with
    | some thread => thread.results
    | none => []
  let polled := schedule display (receiveAll display reaped results) spawn
  ({ polled with completions := [] }, polled.completions)

/-- One turn of the loop of `drain`. While the thread has not answered the turn is not
over, and the thread works on. -/
def drainTurn (spawn : Option String) : PreferencesWorker Root Notes Config :=
  let worker := worker.schedule display spawn
  if worker.unavailable.isNone ∧ worker.active.isSome then
    match worker.worker with
    | some thread =>
        match thread.results with
        | completion :: results =>
            finish display { worker with worker := some { thread with results := results } }
              completion
        | [] =>
            if thread.alive then worker
            else worker.markUnavailable display
              "El hilo de guardado se detuvo sin confirmar el trabajo"
    | none =>
        worker.markUnavailable display "El hilo de guardado se detuvo sin confirmar el trabajo"
  else
    worker

end PreferencesWorker

/-! ## The thread -/

/-- How the processing of a job ends. A save may have reached the disk in any case. -/
inductive Work (Notes : Type) where
  | returns (outcome : Outcome Notes) (wrote : Bool)
  | panics (wrote : Bool)

/-- What the thread does next: take a job, process it, or end while it has none. -/
inductive ThreadStep (Notes : Type) where
  | receive
  | work (work : Work Notes)
  | ends

/-- The save as it goes into the record of writes. -/
def written (ticket : Ticket Root Notes Config) (work : Work Notes) :
    List (Ticket Root Notes Config × Bool) :=
  if ticket.job.destination.isNone then
    []
  else
    match work with
    | .returns outcome wrote =>
        if outcome.error.isNone then [(ticket, true)] else if wrote then [(ticket, false)] else []
    | .panics wrote => if wrote then [(ticket, false)] else []

def Thread.step (thread : Thread Root Notes Config) :
    ThreadStep Notes → Thread Root Notes Config × List (Ticket Root Notes Config × Bool)
  | .receive =>
      match thread.alive, thread.running, thread.jobs with
      | true, none, some ticket => ({ thread with jobs := none, running := some ticket }, [])
      | _, _, _ => (thread, [])
  | .work work =>
      match thread.alive, thread.running with
      | true, some ticket =>
          let thread := match work with
            | .returns outcome _ =>
                { thread with
                  running := none
                  results := thread.results ++ [runJob outcome ticket.job] }
            | .panics _ => { thread with running := none, jobs := none, alive := false }
          (thread, written ticket work)
      | _, _ => (thread, [])
  | .ends =>
      match thread.running with
      | none => ({ thread with jobs := none, alive := false }, [])
      | some _ => (thread, [])

variable (Root Notes Config) in
inductive Event where
  | saveNotes (root : Root) (notes : Notes) (spawn : Option String)
  | saveSettings (config : Config) (permitted : Bool) (spawn : Option String)
  | loadNotes (key request : Uuid) (root : Root) (spawn : Option String)
  | importNotes (key request : Uuid) (root : Root) (spawn : Option String)
  | retry (spawn : Option String)
  | poll (spawn : Option String)
  | drainTurn (spawn : Option String)
  | thread (step : ThreadStep Notes)
  | retiredThread (index : Nat) (step : ThreadStep Notes)

def step (worker : PreferencesWorker Root Notes Config) :
    Event Root Notes Config → PreferencesWorker Root Notes Config
  | .saveNotes root notes spawn => worker.saveNotes display root notes spawn
  | .saveSettings config permitted spawn => worker.saveSettings display config permitted spawn
  | .loadNotes key request root spawn => worker.loadNotes display key request root spawn
  | .importNotes key request root spawn => worker.importNotes display key request root spawn
  | .retry spawn => worker.retry display spawn
  | .poll spawn => (worker.poll display spawn).1
  | .drainTurn spawn => worker.drainTurn display spawn
  | .thread step =>
      match worker.worker with
      | none => worker
      | some thread =>
          { worker with
            worker := some (thread.step step).1
            writes := worker.writes ++ (thread.step step).2 }
  | .retiredThread index step =>
      match worker.retired[index]? with
      | none => worker
      | some thread =>
          { worker with
            retired := worker.retired.set index (thread.step step).1
            writes := worker.writes ++ (thread.step step).2 }

open Execution in
def preferences : Machine (PreferencesWorker Root Notes Config) (Event Root Notes Config) Unit where
  step worker event := ⟨step display worker event, ()⟩

end Worker

end TerminalCanvas.Preferences
