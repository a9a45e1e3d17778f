import TerminalCanvas.Conversation.Transfers
import TerminalCanvas.Foundation.Execution

/-! # The journal as a machine

Any number of processes work on one journal. A transaction is one step; an operation
without a transaction is one step for each of its statements, and what it read waits
between them. Conversations are never removed and never change their workspace, so
the reads in front of a link or a credential are one statement. -/

namespace TerminalCanvas.Conversations

open Fallible Execution

/-- Run a transaction. An error, also of the commit, changes no table. -/
def transact {Answer : Type} (world : World)
    (body : Tables → Except StoreError (Answer × Tables)) (tables : Tables) :
    Except StoreError Answer × Tables :=
  match body tables with
  | .error error => (.error error, tables)
  | .ok (answer, next) => if world.commits then (.ok answer, next) else (.error .busy, tables)

def transactUnit (world : World) (body : Tables → Except StoreError Tables) (tables : Tables) :
    Except StoreError Unit × Tables :=
  transact world (fun tables => (body tables).map fun next => ((), next)) tables

/-- An operation between two of its statements. -/
inductive Pending where
  | approving (transfer : Transfer)
  | approved (transfer : Transfer)
  | linking (source target : Uuid) (automatic : Bool)
  | activating (id : Uuid) (digest : Bytes)
  | renewing (lease id : Uuid) (digest : Bytes)
  | expiring

structure State where
  tables : Tables
  pending : List Pending

def State.empty : State := ⟨.empty, []⟩

inductive Input where
  | register (conversation : Conversation) (world : World)
  | link (source target : Uuid) (automatic : Bool)
  | linkPair (source target : Uuid) (automatic : Bool) (world : World)
  | unlink (source target : Uuid) (world : World)
  | activate (id : Uuid) (token : String)
  | revoke (id : Uuid) (world : World)
  | renewBridge (lease id : Uuid) (token : String)
  | removeBridge (lease : Uuid) (world : World)
  | setAvailable (caller : Caller) (available : Bool) (world : World)
  | record (caller : Caller) (id thread : Uuid) (role : MessageRole) (text source : String)
      (world : World)
  /-- `prepared` is what a reviewed request froze. -/
  | send (caller : Caller) (request : SendRequest) (prepared : Option PreparedSend)
      (world : World)
  | approve (id : Uuid)
  | cancel (caller : Caller) (id : Uuid) (world : World)
  | claim (id binding : Uuid) (world : World)
  | deliveryResult (id : Uuid) (result : Except String Unit) (world : World)
  | reply (caller : Caller) (id : Uuid) (text : String) (world : World)
  /-- The next statement of an operation that waits between two. -/
  | resume (index : Nat) (world : World)

inductive Observation where
  | done (result : Except StoreError Unit)
  | recorded (result : Except StoreError ConversationMessage)
  | sent (result : Except StoreError Transfer)
  | approved (result : Except StoreError Transfer)
  | claimed (result : Except StoreError (Option Transfer))
  | replied (result : Except StoreError Transfer)
  /-- A statement was done, and others follow. -/
  | waits

/-- What a statement in the middle of an operation leaves. -/
structure Resumed where
  observation : Observation
  tables : Tables
  waits : Option Pending

/-- The write at the end of an operation. -/
def Resumed.wrote (world : World) (tables next : Tables) (waits : Option Pending) : Resumed :=
  if world.commits then ⟨match waits with
    | some _ => .waits
    | none => .done (.ok ()), next, waits⟩
  else ⟨.done (.error .busy), tables, none⟩

section Steps

variable (codec : Codec)

def resumePending (world : World) (tables : Tables) : Pending → Resumed
  | .approving transfer =>
      match bindApproval tables transfer with
      | .ok bound => ⟨.waits, tables, some (.approved bound)⟩
      | .error error => ⟨.approved (.error error), tables, none⟩
  | .approved transfer =>
      let (result, next) := transact world
        (fun tables => (storeApproval tables transfer).map fun next => (transfer, next)) tables
      ⟨.approved result, next, none⟩
  | .linking source target automatic =>
      .wrote world tables (insertLink tables source target automatic) none
  | .activating id digest => .wrote world tables (activateCredential tables id digest) none
  | .renewing lease id digest =>
      .wrote world tables (insertBridge tables lease id digest world.now) (some .expiring)
  | .expiring => .wrote world tables (expireBridges tables world.now) none

/-- The first statement of an operation of several. -/
def begin (state : State) (loaded : Except StoreError Pending) : StepResult State Observation :=
  match loaded with
  | .ok operation => ⟨{ state with pending := state.pending ++ [operation] }, .waits⟩
  | .error error => ⟨state, .done (.error error)⟩

def startLink (tables : Tables) (source target : Uuid) (automatic : Bool) :
    Except StoreError Pending := do
  checkLink tables source target
  pure (.linking source target automatic)

def startActivation (tables : Tables) (id : Uuid) (token : String) :
    Except StoreError Pending := do
  let _ ← authorize tables .user id
  pure (.activating id (codec.sha256 token))

def startRenewal (tables : Tables) (lease id : Uuid) (token : String) :
    Except StoreError Pending := do
  let _ ← authenticate codec tables id token
  pure (.renewing lease id (codec.sha256 token))

def startApproval (tables : Tables) (id : Uuid) : Except StoreError Pending := do
  let transfer ← loadApproval tables id
  pure (.approving transfer)

def State.transacts {Answer : Type} (state : State)
    (observe : Except StoreError Answer → Observation)
    (outcome : Except StoreError Answer × Tables) : StepResult State Observation :=
  ⟨{ state with tables := outcome.2 }, observe outcome.1⟩

/-- One statement of an operation in flight, observed. -/
def State.resumes (state : State) (index : Nat) (resumed : Resumed) :
    StepResult State Observation :=
  ⟨⟨resumed.tables, match resumed.waits with
    | some waits => state.pending.set index waits
    | none => state.pending.eraseIdx index⟩, resumed.observation⟩

def step (state : State) : Input → StepResult State Observation
  | .register conversation world =>
      state.transacts .done (transactUnit world (register conversation) state.tables)
  | .link source target automatic =>
      begin state (startLink state.tables source target automatic)
  | .linkPair source target automatic world =>
      state.transacts .done (transactUnit world (linkPair source target automatic) state.tables)
  | .unlink source target world =>
      state.transacts .done
        (transactUnit world (fun tables => .ok (unlink source target tables)) state.tables)
  | .activate id token => begin state (startActivation codec state.tables id token)
  | .revoke id world =>
      state.transacts .done
        (transactUnit world (fun tables => .ok (revoke id tables)) state.tables)
  | .renewBridge lease id token => begin state (startRenewal codec state.tables lease id token)
  | .removeBridge lease world =>
      state.transacts .done
        (transactUnit world (fun tables => .ok (removeBridge tables lease)) state.tables)
  | .setAvailable caller available world =>
      state.transacts .done (transactUnit world (setAvailable caller available) state.tables)
  | .record caller id thread role text source world =>
      state.transacts .recorded
        (transact world (record caller id thread role text source world) state.tables)
  | .send caller request prepared world =>
      state.transacts .sent
        (transact world (sendInner codec caller request prepared world) state.tables)
  | .approve id => begin state (startApproval state.tables id)
  | .cancel caller id world =>
      state.transacts .done (transactUnit world (cancel caller id) state.tables)
  | .claim id binding world =>
      state.transacts .claimed (transact world (claim id binding world) state.tables)
  | .deliveryResult id result world =>
      state.transacts .done
        (transactUnit world (deliveryResult codec id result world) state.tables)
  | .reply caller id text world =>
      state.transacts .replied (transact world (reply caller id text world) state.tables)
  | .resume index world =>
      match state.pending[index]? with
      | none => ⟨state, .done (.error .noRows)⟩
      | some operation => state.resumes index (resumePending world state.tables operation)

/-- The journal under every interleaving of its callers. -/
def machine : Machine State Input Observation where
  step := step codec

end Steps

end TerminalCanvas.Conversations
