import TerminalCanvas.Memory.HookLedgerRun

/-! # Epochs of a leaf

The claims a leaf holds one after another grow: their epochs never decrease, and
two claims of one epoch carry the same authority. A context validated once is
therefore lost for good as soon as the leaf moves past its epoch. -/

namespace TerminalCanvas.Memory.HookLedger

open TerminalCanvas.HookAuthority TerminalCanvas.Execution

def LedgerIntent.leaf : LedgerIntent → Option LeafKey
  | .reserve _ key _ _ | .observeExisting key _ _ | .importLegacy key _ _ _ => some key
  | .install expected _ | .retire expected | .fenceRetire expected | .release expected
  | .adopt expected _ _ | .adoptLegacy expected _ => some expected.key
  | .closeLegacyAlias .. => none

def LedgerIntent.installs (intent : LedgerIntent) (claim : Claim) : Prop :=
  ∃ expected host, intent = .install expected host ∧ sameAuthority expected claim

/-! ## The order of claims -/

/-- One claim of a leaf is replaced by a later one. Within an epoch only the
installation of an authorized birth does that. -/
structure Grows (old next : Claim) : Prop where
  epoch : old.epoch ≤ next.epoch
  binding : old.requireBinding → next.requireBinding
  within : next.epoch = old.epoch →
    next = old ∨ old.phase = .authorizedBirth ∧ next = installedClaim old

namespace Grows

variable {first second third old next claim : Claim}

theorem refl (claim : Claim) : Grows claim claim := ⟨Int.le_refl _, id, fun _ => .inl rfl⟩

theorem trans (left : Grows first second) (right : Grows second third) :
    Grows first third where
  epoch := Int.le_trans left.epoch right.epoch
  binding := right.binding ∘ left.binding
  within same := by
    have leftEpoch := left.epoch
    have rightEpoch := right.epoch
    rcases left.within (by omega) with rfl | ⟨leftPhase, rfl⟩
    · exact right.within (by omega)
    · rcases right.within (by omega) with rfl | ⟨rightPhase, -⟩
      · exact .inr ⟨leftPhase, rfl⟩
      · cases rightPhase

theorem of_epoch (epoch : next.epoch = old.epoch + 1)
    (binding : old.requireBinding → next.requireBinding) : Grows old next :=
  ⟨by omega, binding, fun same => by omega⟩

theorem install (phase : old.phase = .authorizedBirth) : Grows old (installedClaim old) :=
  ⟨Int.le_refl _, id, fun _ => .inr ⟨phase, rfl⟩⟩

theorem sameAuthority (grows : Grows old next) (epoch : next.epoch = old.epoch)
    (same : HookAuthority.sameAuthority old claim) :
    HookAuthority.sameAuthority next claim := by
  rcases grows.within epoch with rfl | ⟨-, rfl⟩
  · exact same
  · rcases sameAuthority_iff.mp same with ⟨-, phase, equal⟩
    rw [sameAuthority_iff]
    exact ⟨rfl, phase, by rw [equal]; rfl⟩

end Grows

theorem sameAuthority_epoch {left right : Claim} (same : sameAuthority left right) :
    left.epoch = right.epoch := by
  rw [(sameAuthority_iff.mp same).2.2]

/-! ## What a transition does to the claims -/

/-- The claim a transition on a leaf puts in the place of the current one. -/
inductive Advances (intent : LedgerIntent) (old next : Claim) : Prop
  | install {host} (named : intent = .install old host) (phase : old.phase = .authorizedBirth)
      (installed : next = installedClaim old)
  | epoch (grows : next.epoch = old.epoch + 1)
      (binding : old.requireBinding → next.requireBinding)

theorem Advances.grows {intent : LedgerIntent} {old next : Claim}
    (advances : Advances intent old next) : Grows old next := by
  cases advances with
  | install named phase installed =>
      rw [installed]
      exact .install phase
  | epoch grows binding => exact .of_epoch grows binding

section Transitions

variable {tables final : Tables} {intent : LedgerIntent} {receipt : LedgerReceipt}

private theorem advances_of_current {expected next : Claim}
    (current : tables.claimAt expected.key = some expected) (sameKey : next.key = expected.key)
    (advances : Advances intent expected next) :
    ∀ old, tables.claimAt next.key = some old → Advances intent old next := by
  intro old found
  rw [sameKey, current] at found
  cases found
  exact advances

theorem Transition.claims (moved : Transition tables intent receipt final) :
    (intent.leaf = none ∧ final.claimAt = tables.claimAt) ∨
    ∃ next, intent.leaf = some next.key ∧
      (∀ key, final.claimAt key =
        if key = next.key then some next else tables.claimAt key) ∧
      ∀ old, tables.claimAt next.key = some old → Advances intent old next := by
  cases moved with
  | closeAlias | closeAliasUnset => exact .inl ⟨rfl, rfl⟩
  | @reserveFirst key birth owner absent fresh =>
      exact .inr ⟨reservedClaim key birth owner 1, rfl, by simp, by simp [reservedClaim, absent]⟩
  | @observeExisting key host newOwner generation absent named fresh =>
      exact .inr ⟨firstClaim key host.runtime host.generation newOwner true, rfl, by simp,
        by simp [firstClaim, absent]⟩
  | @importLegacy key runtime owner root absent kept =>
      exact .inr ⟨firstClaim key runtime none owner false, rfl, by simp,
        by simp [firstClaim, absent]⟩
  | @importLegacyRoot key runtime owner absent unset =>
      exact .inr ⟨firstClaim key runtime none owner false, rfl, by simp,
        by simp [firstClaim, absent]⟩
  | @reserveAgain old key birth owner current retired fresh =>
      have oldKey := Tables.claimAt_key current
      rw [← oldKey] at current
      refine .inr ⟨reservedClaim key birth owner (old.epoch + 1), rfl, by simp, ?_⟩
      exact advances_of_current current oldKey.symm (.epoch rfl fun _ => rfl)
  | @install expected host generation row current phase =>
      refine .inr ⟨installedClaim expected, rfl, by simp, ?_⟩
      exact advances_of_current current rfl (.install rfl phase rfl)
  | @fenceRetire expected current =>
      refine .inr ⟨fencedClaim expected, rfl, by simp, ?_⟩
      exact advances_of_current current rfl (.epoch rfl fun _ => rfl)
  | @retireLegacy expected current | @retireBound expected generation row current =>
      refine .inr ⟨retiredClaim expected, rfl, by simp, ?_⟩
      exact advances_of_current current rfl (.epoch rfl fun _ => rfl)
  | @release expected current =>
      refine .inr ⟨releasedClaim expected, rfl, by simp, ?_⟩
      exact advances_of_current current rfl (.epoch rfl id)
  | @adopt expected host newOwner generation row current =>
      refine .inr ⟨adoptedClaim expected newOwner, rfl, by simp, ?_⟩
      exact advances_of_current current rfl (.epoch rfl id)
  | @adoptLegacy expected newOwner current =>
      refine .inr ⟨adoptedClaim expected newOwner, rfl, by simp, ?_⟩
      exact advances_of_current current rfl (.epoch rfl id)

theorem Transition.advances {key : LeafKey} {old : Claim}
    (moved : Transition tables intent receipt final)
    (found : tables.claimAt key = some old) :
    ∃ next, final.claimAt key = some next ∧
      (next = old ∧ intent.leaf ≠ some key ∨
        Advances intent old next ∧ intent.leaf = some key) := by
  rcases moved.claims with ⟨noLeaf, same⟩ | ⟨next, leaf, claims, advances⟩
  · exact ⟨old, by rw [same, found], .inl ⟨rfl, by simp [noLeaf]⟩⟩
  · by_cases here : key = next.key
    · subst here
      exact ⟨next, by simp [claims], .inr ⟨advances old found, leaf⟩⟩
    · refine ⟨old, by simp [claims, here, found], .inl ⟨rfl, ?_⟩⟩
      rw [leaf]
      exact fun same => here (Option.some.inj same).symm

private theorem policy_kept {panel other : PanelKey} {policy row : LegacyPolicyRow}
    (found : tables.legacyPolicyAt panel = some policy)
    (different : tables.legacyPolicyAt other ≠ some policy) :
    (tables.putLegacyPolicy other row).legacyPolicyAt panel = some policy := by
  have elsewhere : panel ≠ other := by
    rintro rfl
    exact different found
  rw [Tables.legacyPolicyAt_putLegacyPolicy, if_neg elsewhere]
  exact found

theorem Transition.aliasClosed {panel : PanelKey} {policy : LegacyPolicyRow}
    (moved : Transition tables intent receipt final)
    (found : tables.legacyPolicyAt panel = some policy)
    (closed : policy.legacyRootAliasClosed = true) :
    final.legacyPolicyAt panel = some policy := by
  cases moved with
  | importLegacyRoot absent unset => exact policy_kept found (by simp [unset])
  | closeAliasUnset unset => exact policy_kept found (by simp [unset])
  | closeAlias opened =>
      apply policy_kept found
      rw [opened]
      rintro ⟨⟩
      cases closed
  | install | adopt => simpa using found
  | _ => exact found

end Transitions

/-! ## Runs -/

theorem claimAt_next {tables : Tables} {key : LeafKey} {old : Claim}
    (found : tables.claimAt key = some old) (input : LedgerInput) :
    ∃ next, (ledger.next tables input).claimAt key = some next ∧ Grows old next := by
  rcases next_cases tables input with same | change
  · exact ⟨old, by rw [same, found], .refl old⟩
  · generalize ledger.next tables input = final at change
    cases change with
    | consume consumable => exact ⟨old, found, .refl old⟩
    | intent commits fresh moved =>
        rcases moved.advances found with ⟨next, held, ⟨rfl, -⟩ | ⟨advances, -⟩⟩
        · exact ⟨next, held, .refl next⟩
        · exact ⟨next, held, advances.grows⟩

theorem claimAt_run {tables : Tables} {key : LeafKey} {old : Claim}
    (found : tables.claimAt key = some old) (inputs : List LedgerInput) :
    ∃ next, (ledger.run tables inputs).claimAt key = some next ∧ Grows old next := by
  apply ledger.run_invariant
    (fun tables => ∃ next, tables.claimAt key = some next ∧ Grows old next)
  · rintro state input ⟨middle, held, grows⟩
    rcases claimAt_next held input with ⟨next, held, grown⟩
    exact ⟨next, held, grows.trans grown⟩
  · exact ⟨old, found, .refl old⟩

theorem aliasClosed_run {tables : Tables} {panel : PanelKey} {policy : LegacyPolicyRow}
    (found : tables.legacyPolicyAt panel = some policy)
    (closed : policy.legacyRootAliasClosed = true) (inputs : List LedgerInput) :
    (ledger.run tables inputs).legacyPolicyAt panel = some policy := by
  apply ledger.run_invariant (fun tables => tables.legacyPolicyAt panel = some policy)
  · intro state input held
    rcases next_cases state input with same | change
    · rw [same, held]
    · generalize ledger.next state input = final at change
      cases change with
      | consume consumable => exact held
      | intent commits fresh moved => exact moved.aliasClosed held closed
  · exact found

theorem Commits.advances {tables : Tables} {input : LedgerInput} {intent : LedgerIntent}
    {receipt : LedgerReceipt} {key : LeafKey} {old : Claim}
    (commits : Commits tables input intent receipt) (leaf : intent.leaf = some key)
    (found : tables.claimAt key = some old) :
    ∃ next, (ledger.next tables input).claimAt key = some next ∧
      Advances intent old next := by
  rcases commits.transition with ⟨middle, operation, moved, equal⟩
  rcases moved.advances found with ⟨next, held, ⟨-, elsewhere⟩ | ⟨advances, -⟩⟩
  · exact absurd leaf elsewhere
  · exact ⟨next, by rw [equal]; exact held, advances⟩

theorem not_validates_of_epoch {tables : Tables} {context : OwnedHookContext} {current : Claim}
    (found : tables.claimAt context.claim.key = some current)
    (later : context.claim.epoch < current.epoch) : ¬ Validates tables context := by
  intro validated
  rcases (validateOwned_ok validated).1 with ⟨claim, held, same⟩
  cases found.symm.trans held
  exact absurd (sameAuthority_epoch same) (by omega)

/-- A committed transition other than the installation of the validated claim
moves the leaf past its epoch. -/
theorem Commits.epoch_lt {tables : Tables} {input : LedgerInput} {intent : LedgerIntent}
    {receipt : LedgerReceipt} {claim validated current : Claim}
    (commits : Commits tables input intent receipt) (leaf : intent.leaf = some claim.key)
    (notInstalled : ¬ intent.installs claim)
    (same : sameAuthority validated claim) (grows : Grows validated current)
    (found : tables.claimAt claim.key = some current) :
    ∃ next, (ledger.next tables input).claimAt claim.key = some next ∧
      claim.epoch < next.epoch := by
  have start := sameAuthority_epoch same
  have reached := grows.epoch
  rcases commits.advances leaf found with ⟨next, held, advances⟩
  refine ⟨next, held, ?_⟩
  cases advances with
  | epoch forward => omega
  | install named phase installed =>
      -- The installed claim is not the validated one, so the leaf had moved before.
      have moved : current.epoch ≠ validated.epoch := by
        intro within
        exact notInstalled ⟨current, _, named, grows.sameAuthority within same⟩
      rw [installed]
      change claim.epoch < current.epoch
      omega

/-- In every run from empty tables. A context that validated fails in every state
after a later committed transition on its leaf, the installation of that claim
apart. Epochs never decrease and bindings are never lifted. A committed
transition of an existing claim other than an installation raises the epoch. A
closed alias never validates a context of its panel again. -/
theorem superseded_authority_never_revalidates :
    (∀ before between after input intent receipt context,
      Validates (ledger.run .empty before) context →
      Commits (ledger.run .empty (before ++ between)) input intent receipt →
      intent.leaf = some context.claim.key → ¬ intent.installs context.claim →
      ¬ Validates (ledger.run .empty (before ++ between ++ input :: after)) context) ∧
    (∀ inputs more key old, (ledger.run .empty inputs).claimAt key = some old →
      ∃ next, (ledger.run .empty (inputs ++ more)).claimAt key = some next ∧
        old.epoch ≤ next.epoch ∧ (old.requireBinding → next.requireBinding)) ∧
    (∀ inputs input intent receipt key old,
      Commits (ledger.run .empty inputs) input intent receipt → intent.leaf = some key →
      (ledger.run .empty inputs).claimAt key = some old →
      (∀ expected host, intent ≠ .install expected host) →
      ∃ next, (ledger.run .empty (inputs ++ [input])).claimAt key = some next ∧
        old.epoch < next.epoch) ∧
    (∀ inputs more context policy,
      (ledger.run .empty inputs).legacyPolicyAt (.of context.claim.key) = some policy →
      policy.legacyRootAliasClosed = true → context.legacyAliasEpoch ≠ none →
      ¬ Validates (ledger.run .empty (inputs ++ more)) context) := by
  refine ⟨?_, ?_, ?_, ?_⟩
  · intro before between after input intent receipt context validated commits leaf notInstalled
    rcases (validateOwned_ok validated).1 with ⟨first, held, same⟩
    rcases claimAt_run held between with ⟨current, found, grows⟩
    rw [Machine.run_append] at commits
    rcases commits.epoch_lt leaf notInstalled same grows found with ⟨next, moved, later⟩
    rcases claimAt_run moved after with ⟨last, reached, grown⟩
    rw [Machine.run_append, Machine.run_append, Machine.run_cons]
    exact not_validates_of_epoch reached (Int.lt_of_lt_of_le later grown.epoch)
  · intro inputs more key old found
    rw [Machine.run_append]
    rcases claimAt_run found more with ⟨next, held, grows⟩
    exact ⟨next, held, grows.epoch, grows.binding⟩
  · intro inputs input intent receipt key old commits leaf found notInstall
    rw [Machine.run_append]
    rcases commits.advances leaf found with ⟨next, held, advances⟩
    refine ⟨next, held, ?_⟩
    cases advances with
    | install named => exact absurd named (notInstall old _)
    | epoch grows => omega
  · intro inputs more context policy found closed aliased validated
    rw [Machine.run_append] at validated
    have kept := aliasClosed_run found closed more
    rcases Option.ne_none_iff_exists'.mp aliased with ⟨epoch, named⟩
    have opened := (validateOwned_ok validated).2.1 epoch named
    rw [kept] at opened
    cases opened
    cases closed

/-- A legacy leaf adopted by another owner. -/
theorem superseded_authority_never_revalidates_adopted :
    let key : LeafKey := ⟨.fromU128 1, .fromU128 2, .fromU128 3⟩
    let claim := firstClaim key (.fromU128 4) none (.fromU128 5) false
    let imported : LedgerInput :=
      ⟨.applyIntent (.fromU128 5) (.fromU128 6)
        (.importLegacy key (.fromU128 4) (.fromU128 5) true), .ok ()⟩
    let adopted : LedgerInput :=
      ⟨.applyIntent (.fromU128 7) (.fromU128 8) (.adoptLegacy claim (.fromU128 7)), .ok ()⟩
    Validates (ledger.run .empty [imported]) ⟨claim, some 1⟩ ∧
      ¬ Validates (ledger.run .empty [imported, adopted]) ⟨claim, some 1⟩ := by
  intro key claim imported adopted
  have validated : Validates (ledger.run .empty [imported]) ⟨claim, some 1⟩ := rfl
  refine ⟨validated, ?_⟩
  exact superseded_authority_never_revalidates.1 [imported] [] [] adopted
    (.adoptLegacy claim (.fromU128 7)) (committed (adoptedClaim claim (.fromU128 7)))
    ⟨claim, some 1⟩ validated ⟨.fromU128 7, .fromU128 8, rfl, rfl, rfl⟩ rfl
    (by rintro ⟨_, _, ⟨⟩, _⟩)

end TerminalCanvas.Memory.HookLedger
