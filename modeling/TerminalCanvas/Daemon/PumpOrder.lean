import Mathlib.Data.List.Sort
import TerminalCanvas.Daemon.Registry

/-! # The order of the pump

The focused session is exchanged with the first one. The others keep their order only where
nothing stood between the two. -/

namespace TerminalCanvas.Daemon

namespace DaemonState

variable {state : DaemonState}

def focused (state : DaemonState) : Option Uuid :=
  state.prioritySession.filter fun priority => priority ∈ state.sessions

/-- Every session once, the focused one first and the rest in ascending order. -/
structure FairOrder (state : DaemonState) : Prop where
  once : state.pumpOrder.Nodup
  every : ∀ id, id ∈ state.pumpOrder ↔ id ∈ state.sessions
  order : ∃ rest, state.pumpOrder = state.focused.toList ++ rest ∧
    rest = state.sessionIds.filter fun id => state.focused ≠ some id

/-! ## The ascending order -/

theorem mem_sessionIds {id : Uuid} : id ∈ state.sessionIds ↔ id ∈ state.sessions := by
  rw [sessionIds, List.mem_insertionSort]
  exact Iff.rfl

theorem nodup_sessionIds : state.sessionIds.Nodup :=
  (List.perm_insertionSort _ _).nodup_iff.mpr state.sessions.keys_nodup

theorem sessionIds_ascending :
    state.sessionIds.Pairwise fun left right => left.asU128.toNat < right.asU128.toNat := by
  have sorted : state.sessionIds.Pairwise fun left right =>
      left.asU128.toNat ≤ right.asU128.toNat :=
    List.pairwise_insertionSort _ _
  apply (sorted.and nodup_sessionIds).imp
  rintro left right ⟨less, apart⟩
  apply lt_of_le_of_ne less
  intro same
  apply apart
  cases left
  cases right
  exact congrArg Uuid.mk (BitVec.eq_of_toNat_eq same)

/-- How many registered identifiers are smaller. -/
def smaller (state : DaemonState) (id : Uuid) : Nat :=
  state.sessions.keys.countP fun other => other.asU128.toNat < id.asU128.toNat

theorem smaller_eq {before after : List Uuid} {id : Uuid}
    (split : state.sessionIds = before ++ id :: after) : state.smaller id = before.length := by
  have ascending := state.sessionIds_ascending
  rw [split] at ascending
  obtain ⟨-, behind, ahead⟩ := List.pairwise_append.mp ascending
  have less : before.countP (fun other => other.asU128.toNat < id.asU128.toNat) =
      before.length :=
    List.countP_eq_length.mpr fun other member =>
      decide_eq_true (ahead other member id (List.mem_cons_self ..))
  have greater : after.countP (fun other => other.asU128.toNat < id.asU128.toNat) = 0 := by
    apply List.countP_eq_zero.mpr
    intro other member
    have order := (List.pairwise_cons.mp behind).1 other member
    rw [decide_eq_true_eq]
    omega
  have sorted : state.sessionIds.Perm state.sessions.keys := List.perm_insertionSort _ _
  rw [smaller, ← sorted.countP_eq, split, List.countP_append, List.countP_cons, less, greater]
  simp

/-! ## The exchange -/

theorem exchange_first {Element : Type} (head element default : Element)
    (middle after : List Element) :
    let whole := head :: (middle ++ element :: after)
    (whole.set (middle.length + 1) (whole.getD 0 default)).set 0
      (whole.getD (middle.length + 1) default) = element :: (middle ++ head :: after) := by
  simp

theorem pumpOrder_unfocused (unfocused : state.focused = none) :
    state.pumpOrder = state.sessionIds := by
  have absent : (state.prioritySession.bind fun priority =>
      state.sessionIds.idxOf? priority) = none := by
    rw [Option.bind_eq_none_iff]
    intro priority is
    have unknown := Option.filter_eq_none_iff.mp unfocused priority is
    rw [decide_eq_true_eq, ← mem_sessionIds] at unknown
    exact List.idxOf?_eq_none_iff.mpr unknown
  rw [pumpOrder, absent]

theorem pumpOrder_focused {priority : Uuid} (focused : state.focused = some priority) :
    ∃ before after, state.sessionIds = before ++ priority :: after ∧ priority ∉ before ∧
      state.pumpOrder = match before with
        | [] => priority :: after
        | head :: middle => priority :: (middle ++ head :: after) := by
  obtain ⟨is, registered⟩ := Option.filter_eq_some_iff.mp focused
  have member := mem_sessionIds.mpr (of_decide_eq_true registered)
  obtain ⟨before, after, split, absent⟩ := List.eq_append_cons_of_mem member
  have position : (state.prioritySession.bind fun priority =>
      state.sessionIds.idxOf? priority) = some before.length := by
    have bound : before.length < (before ++ priority :: after).length := by simp
    rw [Option.mem_def.mp is, Option.bind_some, split, List.idxOf?_eq_some_iff]
    refine ⟨bound, by simp, fun earlier less same => absent ?_⟩
    rw [List.getElem_append_left less] at same
    exact same ▸ List.getElem_mem _
  refine ⟨before, after, split, absent, ?_⟩
  rw [pumpOrder, position, split]
  cases before with
  | nil => simp
  | cons head middle => exact exchange_first head priority .nil middle after

theorem pumpOrder_perm : state.pumpOrder.Perm state.sessionIds := by
  cases focused : state.focused with
  | none => rw [pumpOrder_unfocused focused]
  | some priority =>
      obtain ⟨before, after, split, -, order⟩ := pumpOrder_focused focused
      rw [order, split]
      cases before with
      | nil => exact .refl _
      | cons head middle =>
          have first : (middle ++ head :: after).Perm (head :: (middle ++ after)) :=
            List.perm_middle
          have second : (middle ++ priority :: after).Perm (priority :: (middle ++ after)) :=
            List.perm_middle
          exact (first.cons priority).trans ((List.Perm.swap ..).trans (second.symm.cons head))

/-- The order is fair where at most one registered identifier is smaller than that of the
focused session. -/
theorem fairOrder_iff (state : DaemonState) :
    state.FairOrder ↔ ∀ priority, state.focused = some priority → state.smaller priority ≤ 1 := by
  have once : state.pumpOrder.Nodup := pumpOrder_perm.nodup_iff.mpr nodup_sessionIds
  have every : ∀ id, id ∈ state.pumpOrder ↔ id ∈ state.sessions :=
    fun id => pumpOrder_perm.mem_iff.trans mem_sessionIds
  cases focused : state.focused with
  | none =>
      refine ⟨fun _ _ none => (nomatch none), fun _ => ⟨once, every, state.sessionIds, ?_, ?_⟩⟩
      · rw [pumpOrder_unfocused focused, focused]
        rfl
      · simp [focused]
  | some priority =>
      obtain ⟨before, after, split, absent, order⟩ := pumpOrder_focused focused
      have rest : state.sessionIds.filter (fun id => state.focused ≠ some id) =
          before ++ after := by
        have nodup := state.nodup_sessionIds
        rw [split] at nodup ⊢
        have behind := (List.nodup_cons.mp (List.nodup_append.mp nodup).2.1).1
        rw [List.filter_append, List.filter_cons_of_neg (by simp [focused]),
          List.filter_eq_self.mpr, List.filter_eq_self.mpr]
        · intro id member
          rw [focused, decide_eq_true_eq]
          rintro ⟨⟩
          exact behind member
        · intro id member
          rw [focused, decide_eq_true_eq]
          rintro ⟨⟩
          exact absent member
      have fair : state.FairOrder ↔ state.pumpOrder = priority :: (before ++ after) := by
        constructor
        · rintro ⟨-, -, others, whole, is⟩
          rw [whole, is, rest, focused]
          rfl
        · intro whole
          refine ⟨once, every, before ++ after, ?_, rest.symm⟩
          rw [whole, focused]
          rfl
      have condition : (∀ other, some priority = some other → state.smaller other ≤ 1) ↔
          before.length ≤ 1 := by
        rw [← smaller_eq split]
        exact ⟨fun all => all priority rfl, fun few other same => Option.some.inj same ▸ few⟩
      rw [fair, condition, order]
      cases before with
      | nil => simp
      | cons head middle =>
          have apart : head ∉ middle := by
            have nodup := state.nodup_sessionIds
            rw [split] at nodup
            exact fun member => (List.nodup_cons.mp nodup).1 (List.mem_append_left _ member)
          cases middle with
          | nil => simp
          | cons second others =>
              refine ⟨fun same => ?_, fun few => by simp at few⟩
              have heads := (List.cons.inj (List.cons.inj same).2).1
              exact absurd (heads ▸ List.mem_cons_self ..) apart

def threeSessions : DaemonState :=
  [1, 2, 3].foldl (fun state id => state.setSession (.fromU128 id) (.new .default))
    { new 0 with prioritySession := some (.fromU128 3) }

/-- The first of the others is behind the second. -/
theorem three_sessions_unfair :
    threeSessions.pumpOrder = [3, 2, 1].map Uuid.fromU128 ∧ ¬ threeSessions.FairOrder := by
  have order : threeSessions.pumpOrder = [3, 2, 1].map Uuid.fromU128 := by decide +kernel
  refine ⟨order, ?_⟩
  rintro ⟨-, -, rest, whole, rfl⟩
  rw [order] at whole
  exact absurd whole (by decide +kernel)

end DaemonState

end TerminalCanvas.Daemon
