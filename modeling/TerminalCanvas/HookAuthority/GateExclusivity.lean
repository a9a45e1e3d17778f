import TerminalCanvas.HookAuthority.Gate

/-! # Gate exclusivity

`operate_cases` says once what an operation can change. A gate is open, or busy,
only while it is the registered gate of its leaf; its counter counts its permits;
and a gate that was closed stays closed. -/

namespace TerminalCanvas.HookAuthority

open Execution

/-! ## What one operation can change -/

/-- Every way an operation can change the endpoint. -/
inductive Change (before : Endpoint) : Endpoint → Prop
  | checked {context} (checks : before.authority.installChecks context = .ok ()) :
      Change before { before with installing := some context }
  | inserted {context} (installing : before.installing = some context) :
      Change before { before with
        authority := before.authority.insertGate context, installing := none }
  | ticket {context ticket} (issued : before.authority.ticket context = .ok ticket) :
      Change before { before with tickets := before.tickets ++ [ticket] }
  | effects {ticket gate} (held : ticket ∈ before.tickets)
      (found : before.authority.gates[ticket.gate]? = some gate) (isOpen : gate.isOpen = true) :
      Change before { before with
        authority := before.authority.setGate ticket.gate
          { gate with inFlight := gate.inFlight + 1 }
        permits := ⟨ticket.gate, ticket.context⟩ :: before.permits }
  | dropped {index permit} (held : before.permits[index]? = some permit) :
      Change before { before with
        authority := before.authority.dropPermit permit
        permits := before.permits.eraseIdx index }
  | retired {id gate} (found : before.authority.gates[id]? = some gate) :
      Change before { before with
        authority := before.authority.setGate id { gate with isOpen := false }
        fences := ⟨id⟩ :: before.fences }
  | marked {id gate} (found : before.authority.gates[id]? = some gate) :
      Change before { before with
        authority := before.authority.setGate id { gate with installed := true } }

section Operations

variable {authority : HookAuthority}

theorem registered_eq_some {key : LeafKey} {id : GateId} {gate : Gate} :
    authority.registered key = some (id, gate) ↔
      authority.registry.find key = some id ∧ authority.gates[id]? = some gate := by
  simp only [registered, Option.bind_eq_bind, Option.bind_eq_some_iff, Option.pure_def,
    Option.some.injEq, Prod.mk.injEq]
  constructor
  · rintro ⟨_, found, _, held, rfl, rfl⟩
    exact ⟨found, held⟩
  · rintro ⟨found, held⟩
    exact ⟨id, found, gate, held, rfl, rfl⟩

theorem ticket_ok {context : OwnedHookContext} {ticket : AdmissionTicket}
    (issued : authority.ticket context = .ok ticket) :
    ∃ gate, authority.registry.find context.claim.key = some ticket.gate ∧
      authority.gates[ticket.gate]? = some gate ∧ ticket.context = context ∧
      sameAuthority gate.claim context.claim := by
  unfold HookAuthority.ticket at issued
  split at issued
  · cases issued
  · next id gate found =>
      rcases registered_eq_some.mp found with ⟨named, held⟩
      split at issued
      · cases issued
      · next same =>
          split at issued
          · cases issued
          · cases issued
            exact ⟨gate, named, held, rfl, by simpa using same⟩

theorem beginRetire_ok {expected : Claim} {fence : RetireFence} {final : HookAuthority}
    (retired : authority.beginRetire expected = .ok (fence, final)) :
    ∃ gate, authority.gates[fence.gate]? = some gate ∧
      final = authority.setGate fence.gate { gate with isOpen := false } := by
  unfold HookAuthority.beginRetire at retired
  split at retired
  · cases retired
  · next id gate found =>
      rcases registered_eq_some.mp found with ⟨-, held⟩
      split at retired
      · cases retired
      · cases retired
        exact ⟨gate, held, rfl⟩

theorem markInstalled_ok {active : Claim} {final : HookAuthority}
    (marked : authority.markInstalled active = .ok final) :
    ∃ id gate, authority.gates[id]? = some gate ∧
      final = authority.setGate id { gate with installed := true } := by
  unfold HookAuthority.markInstalled at marked
  split at marked
  · cases marked
  · split at marked
    · cases marked
    · next id gate found =>
        rcases registered_eq_some.mp found with ⟨-, held⟩
        split at marked
        · cases marked
        · split at marked
          · cases marked
          · cases marked
            exact ⟨id, gate, held, rfl⟩

theorem beginEffects_ok {ticket : AdmissionTicket} {permit : EffectsPermit}
    {final : HookAuthority} (began : authority.beginEffects ticket = .ok (permit, final)) :
    ∃ gate, authority.gates[ticket.gate]? = some gate ∧ gate.isOpen = true ∧
      permit = ⟨ticket.gate, ticket.context⟩ ∧
      final = authority.setGate ticket.gate { gate with inFlight := gate.inFlight + 1 } := by
  unfold HookAuthority.beginEffects at began
  split at began
  · cases began
  · next gate held =>
      split at began
      · cases began
      · next isOpen =>
          split at began
          · cases began
          · next counted =>
              rcases checkedAddU64_eq_some.mp counted with ⟨-, rfl⟩
              cases began
              exact ⟨gate, held, by simpa using isOpen, rfl, rfl⟩

theorem validateUi_ok {ticket : AdmissionTicket} {claim : Claim}
    (validated : authority.validateUi ticket = .ok claim) :
    ∃ gate, authority.gates[ticket.gate]? = some gate ∧ gate.isOpen = true := by
  unfold HookAuthority.validateUi at validated
  split at validated
  · cases validated
  · next id gate found =>
      rcases registered_eq_some.mp found with ⟨-, held⟩
      split at validated
      · cases validated
      · next same =>
          split at validated
          · cases validated
          · next isOpen =>
              have here : id = ticket.gate := by
                by_contra other
                simp [other] at same
              exact ⟨gate, here ▸ held, by simpa using isOpen⟩

theorem installChecks_ok {context : OwnedHookContext}
    (checks : authority.installChecks context = .ok ()) {id : GateId} {gate : Gate}
    (named : authority.registry.find context.claim.key = some id)
    (found : authority.gates[id]? = some gate) :
    gate.isOpen = false ∧ gate.inFlight = 0 ∧ gate.claim.epoch < context.claim.epoch := by
  have previous := registered_eq_some.mpr ⟨named, found⟩
  simp only [installChecks, previous] at checks
  split at checks
  · cases checks
  · split at checks
    · cases checks
    · split at checks
      · cases checks
      · split at checks
        · cases checks
        · next idle =>
            split at checks
            · cases checks
            · next newer =>
                simp only [Bool.or_eq_true, decide_eq_true_eq, not_or, not_not,
                  Bool.not_eq_true] at idle
                exact ⟨idle.1, idle.2, by omega⟩

theorem beginRetire_cases (before : Endpoint) (expected : Claim) :
    (before.beginRetire expected).nextState = before ∨
      Change before (before.beginRetire expected).nextState := by
  unfold Endpoint.beginRetire
  split
  · exact .inl rfl
  · next fence authority retired =>
      rcases beginRetire_ok retired with ⟨gate, held, rfl⟩
      exact .inr (.retired held)

end Operations

theorem operate_cases (before : Endpoint) (operation : Operation) :
    endpoint.next before operation = before ∨
      Change before (endpoint.next before operation) := by
  simp only [Machine.next, endpoint, operate]
  split
  · exact .inl rfl
  · cases operation with
    | install context =>
        simp only
        split
        · exact .inl rfl
        · next checks => exact .inr (.checked checks)
    | finishInstall =>
        simp only
        split
        · exact .inl rfl
        · next context installing => exact .inr (.inserted installing)
    | ticket context =>
        simp only
        split
        · exact .inl rfl
        · next ticket issued => exact .inr (.ticket issued)
    | beginEffects index =>
        simp only
        split
        · exact .inl rfl
        · next ticket held =>
            split
            · exact .inl rfl
            · next permit authority began =>
                rcases beginEffects_ok began with ⟨gate, found, isOpen, rfl, rfl⟩
                exact .inr (.effects (List.mem_of_getElem? held) found isOpen)
    | dropPermit index =>
        simp only
        split
        · exact .inl rfl
        · next permit held => exact .inr (.dropped held)
    | beginRetire expected => exact beginRetire_cases before expected
    | markInstalled active =>
        simp only
        split
        · exact .inl rfl
        · next authority marked =>
            rcases markInstalled_ok marked with ⟨id, gate, held, rfl⟩
            exact .inr (.marked held)
    | validateUi index =>
        left
        simp only
        split <;> rfl
    | invalidate expected => exact beginRetire_cases before expected

private theorem countP_of_getElem? {Item : Type} (counts : Item → Bool) {items : List Item}
    {index : Nat} {item : Item} (found : items[index]? = some item) :
    items.countP counts = (items.eraseIdx index).countP counts + if counts item then 1 else 0 := by
  induction items generalizing index with
  | nil => simp at found
  | cons head tail induction =>
      cases index with
      | zero =>
          simp only [List.getElem?_cons_zero, Option.some.injEq] at found
          rw [found, List.countP_cons, List.eraseIdx_cons_zero]
      | succ index =>
          simp only [List.getElem?_cons_succ] at found
          rw [List.eraseIdx_cons_succ, List.countP_cons, List.countP_cons, induction found]
          omega

/-! ## The invariant -/

/-- An open or busy gate is the registered gate of its leaf and counts its permits;
tickets and permits point to a gate of the same authority; an install that passed
its checks will replace an idle gate of an older epoch. -/
structure Exclusive (state : Endpoint) : Prop where
  addressed : ∀ key id, state.authority.registry.find key = some id →
    ∃ gate, state.authority.gates[id]? = some gate ∧ gate.claim.key = key
  current : ∀ id gate, state.authority.gates[id]? = some gate →
    gate.isOpen = true ∨ gate.inFlight ≠ 0 →
    state.authority.registry.find gate.claim.key = some id
  counted : ∀ id gate, state.authority.gates[id]? = some gate →
    gate.inFlight = state.permits.countP (·.gate == id)
  ticketed : ∀ ticket ∈ state.tickets, ∃ gate,
    state.authority.gates[ticket.gate]? = some gate ∧
      sameAuthority gate.claim ticket.context.claim
  permitted : ∀ permit ∈ state.permits, ∃ gate,
    state.authority.gates[permit.gate]? = some gate ∧
      sameAuthority gate.claim permit.context.claim
  installing : ∀ context, state.installing = some context →
    ∀ id gate, state.authority.registry.find context.claim.key = some id →
      state.authority.gates[id]? = some gate →
      gate.isOpen = false ∧ gate.inFlight = 0 ∧ gate.claim.epoch < context.claim.epoch

theorem sameAuthority_key {left right : Claim} (same : sameAuthority left right) :
    left.key = right.key := by
  rw [(sameAuthority_iff.mp same).2.2]

section Gates

variable {authority : HookAuthority} {id : GateId} {old : Gate}

theorem gates_setGate (found : authority.gates[id]? = some old) (new : Gate) (other : GateId) :
    (authority.setGate id new).gates[other]? =
      if other = id then some new else authority.gates[other]? := by
  have bound := (List.getElem?_eq_some_iff.mp found).1
  unfold HookAuthority.setGate
  by_cases here : other = id
  · rw [here, if_pos rfl, List.getElem?_set_self bound]
  · rw [if_neg here, List.getElem?_set_ne (Ne.symm here)]

theorem dropPermit_eq {permit : EffectsPermit}
    (found : authority.gates[permit.gate]? = some old) :
    authority.dropPermit permit =
      authority.setGate permit.gate { old with inFlight := old.inFlight - 1 } := by
  simp [HookAuthority.dropPermit, found]

theorem gates_insertGate_of_lt {context : OwnedHookContext} (bound : id < authority.gates.length) :
    (authority.insertGate context).gates[id]? = authority.gates[id]? :=
  List.getElem?_append_left bound

theorem registry_insertGate (context : OwnedHookContext) :
    (authority.insertGate context).registry =
      authority.registry.put context.claim.key authority.gates.length := rfl

theorem gates_insertGate_self (context : OwnedHookContext) :
    (authority.insertGate context).gates[authority.gates.length]? =
      some ⟨context.claim, true, 0, context.claim.phase = .active⟩ := by
  simp [HookAuthority.insertGate]

theorem gates_insertGate_cases {context : OwnedHookContext} {gate : Gate}
    (found : (authority.insertGate context).gates[id]? = some gate) :
    authority.gates[id]? = some gate ∨ id = authority.gates.length ∧
      gate = ⟨context.claim, true, 0, context.claim.phase = .active⟩ := by
  rcases Nat.lt_trichotomy id authority.gates.length with bound | here | beyond
  · left
    rwa [gates_insertGate_of_lt bound] at found
  · right
    rw [here, gates_insertGate_self] at found
    exact ⟨here, (Option.some.inj found).symm⟩
  · have absent := (List.getElem?_eq_some_iff.mp found).1
    simp [HookAuthority.insertGate] at absent
    omega

end Gates

namespace Exclusive

theorem empty : Exclusive .empty := by
  constructor <;> simp [Endpoint.empty, HookAuthority.empty]

variable {state : Endpoint} (exclusive : Exclusive state)
include exclusive

theorem registered_of_permit {permit : EffectsPermit} (live : permit ∈ state.permits) :
    state.authority.registry.find permit.context.claim.key = some permit.gate := by
  rcases exclusive.permitted permit live with ⟨gate, found, same⟩
  have busy : gate.inFlight ≠ 0 := by
    rw [exclusive.counted permit.gate gate found]
    exact Nat.ne_of_gt (List.countP_pos_iff.mpr ⟨permit, live, by simp⟩)
  rw [← sameAuthority_key same]
  exact exclusive.current permit.gate gate found (.inr busy)

theorem no_permit {id : GateId} {gate : Gate} (found : state.authority.gates[id]? = some gate)
    (idle : gate.inFlight = 0) : ∀ permit ∈ state.permits, permit.gate ≠ id := by
  intro permit live here
  have counted := exclusive.counted id gate found
  rw [idle] at counted
  simpa [here] using List.countP_eq_zero.mp counted.symm permit live

/-- One gate changed its state: it did not wake up if it was idle and closed, and
it counts the permits that are live now. -/
theorem updated {id : GateId} {old new : Gate} {permits : List EffectsPermit}
    {fences : List RetireFence} (found : state.authority.gates[id]? = some old)
    (sameClaim : new.claim = old.claim)
    (quiet : old.isOpen = false → old.inFlight = 0 → new.isOpen = false ∧ new.inFlight = 0)
    (counted : ∀ other, permits.countP (·.gate == other) =
      if other = id then new.inFlight else state.permits.countP (·.gate == other))
    (permitted : ∀ permit ∈ permits, permit ∈ state.permits ∨
      ∃ ticket ∈ state.tickets, permit = ⟨ticket.gate, ticket.context⟩) :
    Exclusive { state with
      authority := state.authority.setGate id new, permits := permits, fences := fences } := by
  have claims {other : GateId} {gate : Gate}
      (held : state.authority.gates[other]? = some gate) :
      ∃ later, (state.authority.setGate id new).gates[other]? = some later ∧
        later.claim = gate.claim ∧
        (gate.isOpen = false → gate.inFlight = 0 → later.isOpen = false ∧ later.inFlight = 0) := by
    rw [gates_setGate found]
    split
    · next here =>
        rw [here] at held
        cases found.symm.trans held
        exact ⟨new, rfl, sameClaim, quiet⟩
    · exact ⟨gate, held, rfl, fun closed idle => ⟨closed, idle⟩⟩
  have reached {gateId : GateId} {claim : Claim}
      (held : ∃ gate, state.authority.gates[gateId]? = some gate ∧ sameAuthority gate.claim claim) :
      ∃ gate, (state.authority.setGate id new).gates[gateId]? = some gate ∧
        sameAuthority gate.claim claim := by
    rcases held with ⟨gate, held, same⟩
    rcases claims held with ⟨later, there, sameClaim, -⟩
    exact ⟨later, there, by rw [sameClaim]; exact same⟩
  constructor
  · intro key other named
    rcases exclusive.addressed key other named with ⟨gate, held, leaf⟩
    rcases claims held with ⟨later, there, sameClaim, -⟩
    exact ⟨later, there, by rw [sameClaim, leaf]⟩
  · intro other gate held awake
    simp only [gates_setGate found] at held
    split at held
    · next here =>
        cases held
        rw [here, sameClaim]
        apply exclusive.current id old found
        by_contra asleep
        simp only [not_or, Bool.not_eq_true, not_not] at asleep
        rcases quiet asleep.1 asleep.2 with ⟨closed, idle⟩
        simp [closed, idle] at awake
    · exact exclusive.current other gate held awake
  · intro other gate held
    simp only [gates_setGate found] at held
    rw [counted other]
    split at held
    · next here =>
        cases held
        rw [if_pos here]
    · next elsewhere =>
        rw [if_neg elsewhere]
        exact exclusive.counted other gate held
  · intro ticket held
    exact reached (exclusive.ticketed ticket held)
  · intro permit live
    rcases permitted permit live with before | ⟨ticket, held, rfl⟩
    · exact reached (exclusive.permitted permit before)
    · exact reached (exclusive.ticketed ticket held)
  · intro context waiting other gate named held
    simp only [gates_setGate found] at held
    split at held
    · next here =>
        cases held
        rcases exclusive.installing context waiting id old (here ▸ named) found with
          ⟨closed, idle, older⟩
        rw [sameClaim]
        exact ⟨(quiet closed idle).1, (quiet closed idle).2, older⟩
    · exact exclusive.installing context waiting other gate named held

theorem inserted {context : OwnedHookContext} (waiting : state.installing = some context) :
    Exclusive { state with
      authority := state.authority.insertGate context, installing := none } := by
  have kept {other : GateId} {gate : Gate}
      (held : state.authority.gates[other]? = some gate) :
      (state.authority.insertGate context).gates[other]? = some gate := by
    rw [gates_insertGate_of_lt (List.getElem?_eq_some_iff.mp held).1]
    exact held
  constructor
  · intro key id named
    rw [registry_insertGate, Table.find_put] at named
    split at named
    · next here =>
        cases named
        exact ⟨_, gates_insertGate_self context, here.symm⟩
    · rcases exclusive.addressed key id named with ⟨gate, held, leaf⟩
      exact ⟨gate, kept held, leaf⟩
  · intro id gate held awake
    rw [registry_insertGate, Table.find_put]
    rcases gates_insertGate_cases held with before | ⟨rfl, rfl⟩
    · have named := exclusive.current id gate before awake
      split
      · next here =>
          rcases exclusive.installing context waiting id gate (here ▸ named) before with
            ⟨closed, idle, -⟩
          simp [closed, idle] at awake
      · exact named
    · exact if_pos rfl
  · intro id gate held
    rcases gates_insertGate_cases held with before | ⟨rfl, rfl⟩
    · exact exclusive.counted id gate before
    · symm
      rw [List.countP_eq_zero]
      intro permit live
      rcases exclusive.permitted permit live with ⟨gate, found, -⟩
      have bound := (List.getElem?_eq_some_iff.mp found).1
      simpa using Nat.ne_of_lt bound
  · intro ticket issued
    rcases exclusive.ticketed ticket issued with ⟨gate, held, same⟩
    exact ⟨gate, kept held, same⟩
  · intro permit live
    rcases exclusive.permitted permit live with ⟨gate, held, same⟩
    exact ⟨gate, kept held, same⟩
  · intro other impossible
    cases impossible

theorem change {after : Endpoint} (changed : Change state after) : Exclusive after := by
  cases changed with
  | checked checks =>
      refine { exclusive with installing := ?_ }
      rintro _ ⟨⟩ id gate named found
      exact installChecks_ok checks named found
  | inserted waiting => exact exclusive.inserted waiting
  | ticket issued =>
      rcases ticket_ok issued with ⟨gate, named, found, same, authority⟩
      refine { exclusive with ticketed := ?_ }
      intro ticket held
      rcases List.mem_append.mp held with before | new
      · exact exclusive.ticketed ticket before
      · rw [List.mem_singleton.mp new, same]
        exact ⟨gate, found, authority⟩
  | @effects ticket gate held found isOpen =>
      apply exclusive.updated found
      · rfl
      · intro closed
        simp [isOpen] at closed
      · intro other
        rw [List.countP_cons, exclusive.counted _ _ found]
        by_cases here : other = ticket.gate
        · simp [here]
        · simp [here, Ne.symm here]
      · intro permit live
        rcases List.mem_cons.mp live with rfl | before
        · exact .inr ⟨ticket, held, rfl⟩
        · exact .inl before
  | @dropped index permit held =>
      rcases exclusive.permitted permit (List.mem_of_getElem? held) with ⟨gate, found, -⟩
      rw [dropPermit_eq found]
      apply exclusive.updated found
      · rfl
      · intro closed idle
        exact ⟨closed, by simp [idle]⟩
      · intro other
        have erased := countP_of_getElem? (fun permit => permit.gate == other) held
        rw [exclusive.counted _ _ found]
        by_cases here : other = permit.gate
        · subst here
          simp at erased ⊢
          omega
        · simp [here, Ne.symm here] at erased ⊢
          omega
      · intro live member
        exact .inl (List.mem_of_mem_eraseIdx member)
  | retired found =>
      apply exclusive.updated found
      · rfl
      · exact fun _ idle => ⟨rfl, idle⟩
      · intro other
        split
        · next here => rw [here, exclusive.counted _ _ found]
        · rfl
      · exact fun permit live => .inl live
  | marked found =>
      apply exclusive.updated found
      · rfl
      · exact fun closed idle => ⟨closed, idle⟩
      · intro other
        split
        · next here => rw [here, exclusive.counted _ _ found]
        · rfl
      · exact fun permit live => .inl live

theorem next (operation : Operation) : Exclusive (endpoint.next state operation) := by
  rcases operate_cases state operation with same | changed
  · rw [same]
    exact exclusive
  · exact exclusive.change changed

omit exclusive

theorem run (operations : List Operation) : Exclusive (endpoint.run .empty operations) :=
  endpoint.run_invariant Exclusive (fun _ operation held => held.next operation) empty operations

end Exclusive

/-! ## Closing a gate is final -/

/-- What happens to a gate over time: it keeps its claim, it never opens again, and
a closed gate takes no further work. -/
structure Settles (old new : Gate) : Prop where
  claim : new.claim = old.claim
  closed : old.isOpen = false → new.isOpen = false
  drains : old.isOpen = false → new.inFlight ≤ old.inFlight

theorem Settles.refl (gate : Gate) : Settles gate gate :=
  ⟨rfl, id, fun _ => Nat.le_refl _⟩

theorem Settles.trans {first second third : Gate} (left : Settles first second)
    (right : Settles second third) : Settles first third where
  claim := right.claim.trans left.claim
  closed := right.closed ∘ left.closed
  drains closed := Nat.le_trans (right.drains (left.closed closed)) (left.drains closed)

section Settling

variable {state : Endpoint} {id : GateId} {old : Gate}

private theorem settles_setGate {other : GateId} {before after : Gate}
    {authority : HookAuthority} (found : authority.gates[id]? = some old)
    (held : authority.gates[other]? = some before) (settles : Settles before after) :
    ∃ new, (authority.setGate other after).gates[id]? = some new ∧ Settles old new := by
  rw [gates_setGate held]
  split
  · next here =>
      rw [here] at found
      cases found.symm.trans held
      exact ⟨after, rfl, settles⟩
  · exact ⟨old, found, .refl old⟩

theorem gate_next (found : state.authority.gates[id]? = some old) (operation : Operation) :
    ∃ new, (endpoint.next state operation).authority.gates[id]? = some new ∧
      Settles old new := by
  rcases operate_cases state operation with same | changed
  · exact ⟨old, by rw [same, found], .refl old⟩
  · generalize endpoint.next state operation = after at changed
    cases changed with
    | checked | ticket => exact ⟨old, found, .refl old⟩
    | inserted =>
        have bound := (List.getElem?_eq_some_iff.mp found).1
        exact ⟨old, (gates_insertGate_of_lt bound).trans found, .refl old⟩
    | effects held before isOpen =>
        apply settles_setGate found before
        exact ⟨rfl, fun closed => closed, fun closed => absurd isOpen (by simp [closed])⟩
    | @dropped index permit held =>
        cases before : state.authority.gates[permit.gate]? with
        | none => exact ⟨old, by simp [HookAuthority.dropPermit, before, found], .refl old⟩
        | some gate =>
            rw [dropPermit_eq before]
            exact settles_setGate found before
              ⟨rfl, fun closed => closed, fun _ => Nat.sub_le _ _⟩
    | retired before =>
        exact settles_setGate found before ⟨rfl, fun _ => rfl, fun _ => Nat.le_refl _⟩
    | marked before =>
        exact settles_setGate found before ⟨rfl, fun closed => closed, fun _ => Nat.le_refl _⟩

theorem gate_run (found : state.authority.gates[id]? = some old)
    (operations : List Operation) :
    ∃ new, (endpoint.run state operations).authority.gates[id]? = some new ∧
      Settles old new := by
  apply endpoint.run_invariant
    (fun state => ∃ new, state.authority.gates[id]? = some new ∧ Settles old new)
  · rintro state operation ⟨middle, held, settled⟩
    rcases gate_next held operation with ⟨new, there, settles⟩
    exact ⟨new, there, settled.trans settles⟩
  · exact ⟨old, found, .refl old⟩

theorem locallyDrained_iff {authority : HookAuthority} {fence : RetireFence} :
    authority.locallyDrained fence = true ↔
      ∃ gate, authority.gates[fence.gate]? = some gate ∧ gate.isOpen = false ∧
        gate.inFlight = 0 := by
  simp [HookAuthority.locallyDrained, Option.any_eq_true]

theorem locallyDrained_run {fence : RetireFence}
    (drained : state.authority.locallyDrained fence = true) (operations : List Operation) :
    (endpoint.run state operations).authority.locallyDrained fence = true := by
  rcases locallyDrained_iff.mp drained with ⟨gate, found, closed, idle⟩
  rcases gate_run found operations with ⟨later, held, settles⟩
  have bound := settles.drains closed
  exact locallyDrained_iff.mpr ⟨later, held, settles.closed closed, by omega⟩

theorem ticket_refused_run {ticket : AdmissionTicket}
    (found : state.authority.gates[ticket.gate]? = some old) (closed : old.isOpen = false)
    (operations : List Operation) :
    (∀ result, (endpoint.run state operations).authority.beginEffects ticket ≠ .ok result) ∧
      ∀ claim, (endpoint.run state operations).authority.validateUi ticket ≠ .ok claim := by
  rcases gate_run found operations with ⟨later, held, settles⟩
  have refused := settles.closed closed
  constructor
  · rintro ⟨permit, authority⟩ began
    rcases beginEffects_ok began with ⟨gate, there, isOpen, -⟩
    cases held.symm.trans there
    simp [refused] at isOpen
  · intro claim validated
    rcases validateUi_ok validated with ⟨gate, there, isOpen⟩
    cases held.symm.trans there
    simp [refused] at isOpen

end Settling

/-- The registry keeps the gate of a leaf until an idle one is replaced by a gate of
a later epoch. -/
theorem Exclusive.replaced {state : Endpoint} (exclusive : Exclusive state)
    (operation : Operation) {key : LeafKey} {id : GateId}
    (named : state.authority.registry.find key = some id) :
    (endpoint.next state operation).authority.registry.find key = some id ∨
      ∃ old newId new, state.authority.gates[id]? = some old ∧ old.isOpen = false ∧
        (∀ permit ∈ state.permits, permit.gate ≠ id) ∧
        (endpoint.next state operation).authority.registry.find key = some newId ∧
        (endpoint.next state operation).authority.gates[newId]? = some new ∧
        old.claim.key = key ∧ new.claim.key = key ∧ old.claim.epoch < new.claim.epoch := by
  rcases operate_cases state operation with same | changed
  · exact .inl (by rw [same, named])
  · generalize endpoint.next state operation = after at changed
    cases changed with
    | checked | ticket | effects | retired | marked => exact .inl named
    | @dropped index permit held =>
        left
        rcases exclusive.permitted permit (List.mem_of_getElem? held) with ⟨gate, found, -⟩
        rw [dropPermit_eq found]
        exact named
    | @inserted context waiting =>
        rw [registry_insertGate, Table.find_put]
        split
        · next here =>
            right
            subst here
            rcases exclusive.addressed _ id named with ⟨old, found, leaf⟩
            rcases exclusive.installing context waiting id old named found with
              ⟨closed, idle, older⟩
            exact ⟨old, _, _, found, closed, exclusive.no_permit found idle, rfl,
              gates_insertGate_self context, leaf, rfl, older⟩
        · exact .inl named

/-- In every interleaving from an empty authority: each permit belongs to the gate
registered for its leaf, each counter counts the live permits of its gate, a gate
is replaced only when it is closed and idle and by a claim of the same leaf with a
later epoch, a closed gate stays closed, a drained fence stays drained, and a
ticket whose gate was closed or replaced is refused for ever. -/
theorem gates_are_exclusive (operations : List Operation) :
    (∀ permit ∈ (endpoint.run .empty operations).permits,
      (endpoint.run .empty operations).authority.registry.find permit.context.claim.key =
        some permit.gate) ∧
    (∀ (id : GateId) gate, (endpoint.run .empty operations).authority.gates[id]? = some gate →
      gate.inFlight = (endpoint.run .empty operations).permits.countP (·.gate == id)) ∧
    (∀ operation key id,
      (endpoint.run .empty operations).authority.registry.find key = some id →
      (endpoint.run .empty (operations ++ [operation])).authority.registry.find key = some id ∨
      ∃ old newId new,
        (endpoint.run .empty operations).authority.gates[id]? = some old ∧
        old.isOpen = false ∧
        (∀ permit ∈ (endpoint.run .empty operations).permits, permit.gate ≠ id) ∧
        (endpoint.run .empty (operations ++ [operation])).authority.registry.find key =
          some newId ∧
        (endpoint.run .empty (operations ++ [operation])).authority.gates[newId]? = some new ∧
        old.claim.key = key ∧ new.claim.key = key ∧ old.claim.epoch < new.claim.epoch) ∧
    (∀ more (id : GateId) gate, (endpoint.run .empty operations).authority.gates[id]? = some gate →
      gate.isOpen = false →
      ∃ later, (endpoint.run .empty (operations ++ more)).authority.gates[id]? = some later ∧
        later.isOpen = false) ∧
    (∀ more fence, (endpoint.run .empty operations).authority.locallyDrained fence = true →
      (endpoint.run .empty (operations ++ more)).authority.locallyDrained fence = true) ∧
    (∀ more ticket gate, ticket ∈ (endpoint.run .empty operations).tickets →
      (endpoint.run .empty operations).authority.gates[ticket.gate]? = some gate →
      gate.isOpen = false ∨ (endpoint.run .empty operations).authority.registry.find
        ticket.context.claim.key ≠ some ticket.gate →
      (∀ result, (endpoint.run .empty (operations ++ more)).authority.beginEffects ticket ≠
        .ok result) ∧
      ∀ claim, (endpoint.run .empty (operations ++ more)).authority.validateUi ticket ≠
        .ok claim) := by
  have exclusive := Exclusive.run operations
  refine ⟨fun _ => exclusive.registered_of_permit, exclusive.counted, ?_, ?_, ?_, ?_⟩
  · intro operation key id named
    rw [Machine.run_append]
    exact exclusive.replaced operation named
  · intro more id gate found closed
    rw [Machine.run_append]
    rcases gate_run found more with ⟨later, held, settles⟩
    exact ⟨later, held, settles.closed closed⟩
  · intro more fence drained
    rw [Machine.run_append]
    exact locallyDrained_run drained more
  · intro more ticket gate issued found lost
    rw [Machine.run_append]
    apply ticket_refused_run found
    rcases lost with closed | replaced
    · exact closed
    · by_contra isOpen
      rcases exclusive.ticketed ticket issued with ⟨same, held, authority⟩
      cases found.symm.trans held
      rw [← sameAuthority_key authority] at replaced
      exact replaced (exclusive.current _ gate found (.inl (by simpa using isOpen)))

/-- A ticket of a retired gate after its leaf was installed anew. -/
theorem gates_are_exclusive_reinstalled :
    let claim : Claim :=
      ⟨⟨.fromU128 1, .fromU128 2, .fromU128 3⟩, .fromU128 4, some (.fromU128 5), 1,
        some (.fromU128 6), .active, true⟩
    let context : OwnedHookContext := ⟨claim, none⟩
    let later : OwnedHookContext := ⟨{ claim with epoch := 2 }, none⟩
    ∀ result, (endpoint.run .empty ([.install context, .finishInstall, .ticket context,
      .beginEffects 0, .beginRetire claim, .dropPermit 0] ++
        [.install later, .finishInstall])).authority.beginEffects ⟨0, context⟩ ≠ .ok result := by
  intro claim context later
  exact ((gates_are_exclusive [.install context, .finishInstall, .ticket context,
    .beginEffects 0, .beginRetire claim, .dropPermit 0]).2.2.2.2.2
      [.install later, .finishInstall] ⟨0, context⟩ ⟨claim, false, 0, true⟩
      (by decide +kernel) (by decide +kernel) (.inl rfl)).1

end TerminalCanvas.HookAuthority
