import TerminalCanvas.Foundation.Primitives

/-! # Claims on a leaf

The durable ownership claim of one terminal leaf, the evidence a PTY host gives
for it, and when two claims carry the same authority. -/

namespace TerminalCanvas.HookAuthority

structure LeafKey where
  workspace : Uuid
  panel : Uuid
  leaf : Uuid
deriving DecidableEq, Repr

structure BirthBinding where
  runtime : Uuid
  generation : Uuid
deriving DecidableEq, Repr

inductive ClaimPhase where
  | authorizedBirth
  | active
  | detached
  | retiring
  | retired
deriving DecidableEq, Repr

structure Claim where
  key : LeafKey
  runtime : Uuid
  generation : Option Uuid
  epoch : Int
  owner : Option Uuid
  phase : ClaimPhase
  requireBinding : Bool
deriving DecidableEq, Repr

structure HostHookTarget where
  workspaceId : Uuid
  panelId : Uuid
  leafId : Uuid
deriving DecidableEq, Repr

def HostHookTarget.from (key : LeafKey) : HostHookTarget where
  workspaceId := key.workspace
  panelId := key.panel
  leafId := key.leaf

structure HostEvidence where
  runtime : Uuid
  generation : Option Uuid
  target : Option HostHookTarget
deriving DecidableEq, Repr

def HostEvidence.proves (evidence : HostEvidence) (claim : Claim) : Bool :=
  claim.generation.isSome
    && evidence.runtime == claim.runtime
    && evidence.generation == claim.generation
    && evidence.target == some (HostHookTarget.from claim.key)

/-- The phases in which an owner may act on a leaf. -/
def ClaimPhase.authorized (phase : ClaimPhase) : Bool :=
  phase matches .authorizedBirth | .active

structure OwnedHookContext where
  claim : Claim
  legacyAliasEpoch : Option Int
deriving DecidableEq, Repr

/-- The claims may differ only between `AuthorizedBirth` and `Active`. -/
def sameAuthority (a b : Claim) : Bool :=
  a.key == b.key
    && a.runtime == b.runtime
    && a.generation == b.generation
    && a.epoch == b.epoch
    && a.owner == b.owner
    && a.requireBinding == b.requireBinding
    && a.phase.authorized
    && b.phase.authorized

theorem sameAuthority_iff {a b : Claim} :
    sameAuthority a b = true ↔
      a.phase.authorized ∧ b.phase.authorized ∧ a = { b with phase := a.phase } := by
  cases a
  cases b
  simp only [sameAuthority, Bool.and_eq_true, beq_iff_eq, Claim.mk.injEq, true_and]
  constructor
  · rintro ⟨⟨⟨⟨⟨⟨⟨rfl, rfl⟩, rfl⟩, rfl⟩, rfl⟩, rfl⟩, left⟩, right⟩
    exact ⟨left, right, rfl, rfl, rfl, rfl, rfl, rfl⟩
  · rintro ⟨left, right, rfl, rfl, rfl, rfl, rfl, rfl⟩
    exact ⟨⟨⟨⟨⟨⟨⟨rfl, rfl⟩, rfl⟩, rfl⟩, rfl⟩, rfl⟩, left⟩, right⟩

end TerminalCanvas.HookAuthority
