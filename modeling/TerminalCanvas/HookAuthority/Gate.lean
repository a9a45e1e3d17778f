import TerminalCanvas.Foundation.Execution
import TerminalCanvas.Foundation.Table
import TerminalCanvas.HookAuthority.Claim

/-! # The endpoint-local hook authority

A registry of gates, one for each leaf, behind one lock; each gate has a lock of
its own around its state. A gate lives as long as a ticket, a permit or a fence
points to it, so gates are addressed by their place in an append-only heap. No
critical section can panic, so that a lock is never poisoned. -/

namespace TerminalCanvas

open Execution

namespace HookAuthority

inductive Denial where
  | bindingInvalid
  | targetInvalid
  | unknownTarget
  | quarantined
  | staleClaim
  | retiring
  | pendingBirth
  | poisoned
deriving DecidableEq, Repr

abbrev GateId := Nat

structure Gate where
  claim : Claim
  isOpen : Bool
  inFlight : Nat
  installed : Bool
deriving DecidableEq, Repr

structure AdmissionTicket where
  gate : GateId
  context : OwnedHookContext
deriving DecidableEq, Repr

structure EffectsPermit where
  gate : GateId
  context : OwnedHookContext
deriving DecidableEq, Repr

structure RetireFence where
  gate : GateId
deriving DecidableEq, Repr

end HookAuthority

open HookAuthority in
structure HookAuthority where
  gates : List Gate
  registry : Table LeafKey GateId

namespace HookAuthority

section Authority

variable (authority : HookAuthority)

def empty : HookAuthority := ⟨[], ∅⟩

/-- The gate registered for a leaf, with its address. -/
def registered (key : LeafKey) : Option (GateId × Gate) := do
  let id ← authority.registry.find key
  let gate ← authority.gates[id]?
  return (id, gate)

def setGate (id : GateId) (gate : Gate) : HookAuthority :=
  { authority with gates := authority.gates.set id gate }

/-- The checks of `install`, the last of them under the locks of the registry
and of the previous gate. -/
def installChecks (context : OwnedHookContext) : Except Denial Unit :=
  let claim := context.claim
  if claim.owner.isNone || !claim.phase.authorized then .error .staleClaim
  else if claim.generation.isNone && claim.requireBinding then .error .quarantined
  else if claim.generation.isSome && context.legacyAliasEpoch.isSome then .error .targetInvalid
  else
    match authority.registered claim.key with
    | none => .ok ()
    | some (_, previous) =>
        if previous.isOpen || previous.inFlight ≠ 0 then .error .retiring
        else if previous.claim.epoch ≥ claim.epoch then .error .staleClaim
        else .ok ()

def insertGate (context : OwnedHookContext) : HookAuthority where
  gates := authority.gates ++
    [{ claim := context.claim
       isOpen := true
       inFlight := 0
       installed := context.claim.phase = .active }]
  registry := authority.registry.put context.claim.key authority.gates.length

def ticket (context : OwnedHookContext) : Except Denial AdmissionTicket :=
  match authority.registered context.claim.key with
  | none => .error .unknownTarget
  | some (id, gate) =>
      if !sameAuthority gate.claim context.claim then .error .staleClaim
      else if !gate.isOpen then .error .retiring
      else .ok ⟨id, context⟩

def beginRetire (expected : Claim) : Except Denial (RetireFence × HookAuthority) :=
  match authority.registered expected.key with
  | none => .error .unknownTarget
  | some (id, gate) =>
      if !sameAuthority gate.claim expected then .error .staleClaim
      else .ok (⟨id⟩, authority.setGate id { gate with isOpen := false })

def validateUi (ticket : AdmissionTicket) : Except Denial Claim :=
  match authority.registered ticket.context.claim.key with
  | none => .error .unknownTarget
  | some (id, current) =>
      if id ≠ ticket.gate || !sameAuthority current.claim ticket.context.claim then
        .error .staleClaim
      else if !current.isOpen then .error .retiring
      else if !current.installed then .error .pendingBirth
      else .ok { current.claim with phase := .active }

def markInstalled (active : Claim) : Except Denial HookAuthority :=
  if active.phase ≠ .active then .error .staleClaim
  else
    match authority.registered active.key with
    | none => .error .unknownTarget
    | some (id, gate) =>
        if !sameAuthority gate.claim active then .error .staleClaim
        else if !gate.isOpen then .error .retiring
        else .ok (authority.setGate id { gate with installed := true })

/-- A ticket always points to a gate, so that the first branch is never taken. -/
def beginEffects (ticket : AdmissionTicket) :
    Except Denial (EffectsPermit × HookAuthority) :=
  match authority.gates[ticket.gate]? with
  | none => .error .unknownTarget
  | some gate =>
      if !gate.isOpen then .error .retiring
      else
        match checkedAddU64 gate.inFlight 1 with
        | none => .error .poisoned
        | some inFlight =>
            .ok (⟨ticket.gate, ticket.context⟩,
              authority.setGate ticket.gate { gate with inFlight })

def dropPermit (permit : EffectsPermit) : HookAuthority :=
  match authority.gates[permit.gate]? with
  | none => authority
  | some gate => authority.setGate permit.gate { gate with inFlight := gate.inFlight - 1 }

def locallyDrained (fence : RetireFence) : Bool :=
  (authority.gates[fence.gate]?).any fun gate => !gate.isOpen && gate.inFlight == 0

end Authority

/-! ## The endpoint

Threads hold tickets, permits and fences for as long as they like. Tickets and
fences may be cloned, so that one issued once can be used at any later time. -/

structure Endpoint where
  authority : HookAuthority
  /-- The install that passed its checks and still holds the registry lock. -/
  installing : Option OwnedHookContext
  tickets : List AdmissionTicket
  permits : List EffectsPermit
  fences : List RetireFence

def Endpoint.empty : Endpoint := ⟨.empty, none, [], [], []⟩

inductive Operation where
  | install (context : OwnedHookContext)
  | finishInstall
  | ticket (context : OwnedHookContext)
  | beginEffects (ticket : Nat)
  | dropPermit (permit : Nat)
  | beginRetire (expected : Claim)
  | markInstalled (active : Claim)
  | validateUi (ticket : Nat)
  | invalidate (expected : Claim)
deriving DecidableEq, Repr

inductive Answer where
  | installed (result : Except Denial Unit)
  | ticket (result : Except Denial AdmissionTicket)
  | permit (result : Except Denial EffectsPermit)
  | fence (result : Except Denial RetireFence)
  | marked (result : Except Denial Unit)
  | claim (result : Except Denial Claim)
  | done
  /-- The registry lock is held, or no such value was ever issued. -/
  | waits
deriving DecidableEq

def Operation.locksRegistry : Operation → Bool
  | .finishInstall | .beginEffects _ | .dropPermit _ => false
  | _ => true

def Endpoint.beginRetire (endpoint : Endpoint) (expected : Claim) :
    StepResult Endpoint (Except Denial RetireFence) :=
  match endpoint.authority.beginRetire expected with
  | .error denial => ⟨endpoint, .error denial⟩
  | .ok (fence, authority) =>
      ⟨{ endpoint with authority, fences := fence :: endpoint.fences }, .ok fence⟩

/-- One operation, between the moments at which it takes and releases its locks. -/
def operate (endpoint : Endpoint) (operation : Operation) : StepResult Endpoint Answer :=
  if operation.locksRegistry && endpoint.installing.isSome then ⟨endpoint, .waits⟩
  else
    match operation with
    | .install context =>
        match endpoint.authority.installChecks context with
        | .error denial => ⟨endpoint, .installed (.error denial)⟩
        | .ok () => ⟨{ endpoint with installing := some context }, .done⟩
    | .finishInstall =>
        match endpoint.installing with
        | none => ⟨endpoint, .waits⟩
        | some context =>
            ⟨{ endpoint with
                authority := endpoint.authority.insertGate context, installing := none },
              .installed (.ok ())⟩
    | .ticket context =>
        match endpoint.authority.ticket context with
        | .error denial => ⟨endpoint, .ticket (.error denial)⟩
        | .ok ticket =>
            ⟨{ endpoint with tickets := endpoint.tickets ++ [ticket] }, .ticket (.ok ticket)⟩
    | .beginEffects index =>
        match endpoint.tickets[index]? with
        | none => ⟨endpoint, .waits⟩
        | some ticket =>
            match endpoint.authority.beginEffects ticket with
            | .error denial => ⟨endpoint, .permit (.error denial)⟩
            | .ok (permit, authority) =>
                ⟨{ endpoint with authority, permits := permit :: endpoint.permits },
                  .permit (.ok permit)⟩
    | .dropPermit index =>
        match endpoint.permits[index]? with
        | none => ⟨endpoint, .waits⟩
        | some permit =>
            ⟨{ endpoint with
                authority := endpoint.authority.dropPermit permit
                permits := endpoint.permits.eraseIdx index }, .done⟩
    | .beginRetire expected =>
        let result := endpoint.beginRetire expected
        ⟨result.nextState, .fence result.observation⟩
    | .markInstalled active =>
        match endpoint.authority.markInstalled active with
        | .error denial => ⟨endpoint, .marked (.error denial)⟩
        | .ok authority => ⟨{ endpoint with authority }, .marked (.ok ())⟩
    | .validateUi index =>
        match endpoint.tickets[index]? with
        | none => ⟨endpoint, .waits⟩
        | some ticket => ⟨endpoint, .claim (endpoint.authority.validateUi ticket)⟩
    | .invalidate expected => ⟨(endpoint.beginRetire expected).nextState, .done⟩

def endpoint : Machine Endpoint Operation Answer := ⟨operate⟩

end HookAuthority

end TerminalCanvas
