import Mathlib.Data.List.Basic
import Mathlib.Logic.Function.Basic
import Mathlib.Logic.Relation

/-! # Forests of parent links

Every node has at most one parent. In a forest every node has a root, and linking one
root to another joins their two classes and no others. -/

namespace TerminalCanvas.Forest

open Relation

variable {Node : Type} {parent : Node → Option Node} {node above root other : Node}

/-! ## Roots -/

def Links (parent : Node → Option Node) (node above : Node) : Prop := parent node = some above

def RootOf (parent : Node → Option Node) (node root : Node) : Prop :=
  ReflTransGen (Links parent) node root ∧ parent root = none

def Grounded (parent : Node → Option Node) : Prop := ∀ node, ∃ root, RootOf parent node root

theorem links_rightUnique : Relator.RightUnique (Links parent) := by
  intro node first second left right
  exact Option.some.inj (left.symm.trans right)

theorem rootOf_self (top : parent node = none) : RootOf parent node node := ⟨.refl, top⟩

theorem rootOf_link (link : parent node = some above) :
    RootOf parent node root ↔ RootOf parent above root := by
  constructor
  · rintro ⟨reaches, top⟩
    rcases reaches.cases_head with rfl | ⟨next, first, rest⟩
    · rw [link] at top
      cases top
    · cases Option.some.inj (link.symm.trans first)
      exact ⟨rest, top⟩
  · rintro ⟨reaches, top⟩
    exact ⟨.head link reaches, top⟩

theorem rootOf_top (top : parent node = none) : RootOf parent node root ↔ root = node := by
  constructor
  · rintro ⟨reaches, _⟩
    rcases reaches.cases_head with rfl | ⟨next, first, _⟩
    · rfl
    · exact absurd (top.symm.trans first) nofun
  · rintro rfl
    exact rootOf_self top

theorem RootOf.unique (first : RootOf parent node root) (second : RootOf parent node other) :
    root = other := by
  rcases ReflTransGen.total_of_right_unique links_rightUnique first.1 second.1 with up | down
  · exact ((rootOf_top first.2).mp ⟨up, second.2⟩).symm
  · exact (rootOf_top second.2).mp ⟨down, first.2⟩

theorem RootOf.top (isRoot : RootOf parent node root) : RootOf parent root root :=
  rootOf_self isRoot.2

theorem Grounded.acyclic (grounded : Grounded parent) (node : Node) :
    ¬ TransGen (Links parent) node node := by
  intro cycle
  obtain ⟨root, reaches, top⟩ := grounded node
  have onCycle : ∀ {later}, ReflTransGen (Links parent) node later →
      TransGen (Links parent) later node := by
    intro later path
    induction path with
    | refl => exact cycle
    | tail _ link induction =>
        obtain ⟨next, first, rest⟩ := TransGen.head'_iff.mp induction
        cases links_rightUnique link first
        rcases reflTransGen_iff_eq_or_transGen.mp rest with same | further
        · exact same ▸ cycle
        · exact further
  obtain ⟨next, first, _⟩ := TransGen.head'_iff.mp (onCycle reaches)
  exact absurd (top.symm.trans first) nofun

/-! ## Following the links -/

def follow (parent : Node → Option Node) : Nat → Node → Node
  | 0, node => node
  | fuel + 1, node =>
      match parent node with
      | some above => follow parent fuel above
      | none => node

theorem rootOf_follow [DecidableEq Node] (acyclic : ∀ node, ¬ TransGen (Links parent) node node)
    {fuel : Nat} {linked : List Node} (enough : linked.length ≤ fuel)
    (listed : ∀ later, ReflTransGen (Links parent) node later → parent later ≠ none →
      later ∈ linked) : RootOf parent node (follow parent fuel node) := by
  induction fuel generalizing node linked with
  | zero =>
      have nothing : linked = [] := List.length_eq_zero_iff.mp (Nat.le_zero.mp enough)
      apply rootOf_self
      by_contra link
      have member := listed node .refl link
      rw [nothing] at member
      cases member
  | succ fuel induction =>
      rw [follow]
      split
      · next above link =>
          have member : node ∈ linked := listed node .refl (by rw [link]; nofun)
          have shorter : (linked.erase node).length ≤ fuel := by
            rw [List.length_erase_of_mem member]
            omega
          refine (rootOf_link link).mpr (induction shorter ?_)
          intro later path linkedLater
          apply (List.mem_erase_of_ne ?_).mpr (listed later (.head link path) linkedLater)
          rintro rfl
          exact acyclic later (TransGen.head' link path)
      · next top => exact rootOf_self top

/-! ## Classes -/

def SameRoot (parent : Node → Option Node) (left right : Node) : Prop :=
  ∃ root, RootOf parent left root ∧ RootOf parent right root

theorem Grounded.sameRoot_equivalence (grounded : Grounded parent) :
    Equivalence (SameRoot parent) where
  refl node := by
    obtain ⟨root, isRoot⟩ := grounded node
    exact ⟨root, isRoot, isRoot⟩
  symm := by
    rintro left right ⟨root, first, second⟩
    exact ⟨root, second, first⟩
  trans := by
    rintro left middle right ⟨root, first, second⟩ ⟨other, third, fourth⟩
    cases second.unique third
    exact ⟨root, first, fourth⟩

/-! ## Generated classes -/

variable {Related : Node → Node → Prop} {left right : Node}

def Joined (Related : Node → Node → Prop) (left right : Node) (first second : Node) : Prop :=
  Related first second ∨ first = left ∧ second = right

theorem eqvGen_joined {first second : Node} (related : EqvGen Related first second) :
    EqvGen (Joined Related left right) first second :=
  EqvGen.mono (fun _ _ holds => .inl holds) _ _ related

theorem eqvGen_joined_iff (already : EqvGen Related left right) {first second : Node} :
    EqvGen (Joined Related left right) first second ↔ EqvGen Related first second := by
  refine ⟨fun related => ?_, eqvGen_joined⟩
  induction related with
  | rel first second pair =>
      rcases pair with related | ⟨rfl, rfl⟩
      · exact .rel _ _ related
      · exact already
  | refl node => exact .refl node
  | symm first second _ induction => exact .symm _ _ induction
  | trans first middle second _ _ before behind => exact .trans _ _ _ before behind

/-! ## Uniting two trees -/

section Unite

variable [DecidableEq Node] {source target : Node}

def unite (parent : Node → Option Node) (source target : Node) : Node → Option Node :=
  Function.update parent source (some target)

theorem unite_of_ne (different : node ≠ source) :
    unite parent source target node = parent node :=
  Function.update_of_ne different _ _

theorem unite_self : unite parent source target source = some target :=
  Function.update_self _ _ _

theorem links_unite (isRoot : parent source = none) :
    Links parent ≤ Links (unite parent source target) := by
  intro node above link
  have different : node ≠ source := by
    rintro rfl
    exact absurd (isRoot.symm.trans link) nofun
  exact (unite_of_ne different).trans link

theorem RootOf.unite_other (rootOf : RootOf parent node root) (isRoot : parent source = none)
    (different : root ≠ source) : RootOf (unite parent source target) node root :=
  ⟨ReflTransGen.mono (links_unite isRoot) _ _ rootOf.1, (unite_of_ne different).trans rootOf.2⟩

theorem RootOf.unite_source (rootOf : RootOf parent node source) (top : parent target = none)
    (distinct : source ≠ target) : RootOf (unite parent source target) node target :=
  ⟨.tail (ReflTransGen.mono (links_unite rootOf.2) _ _ rootOf.1) unite_self,
    (unite_of_ne (Ne.symm distinct)).trans top⟩

theorem Grounded.unite (grounded : Grounded parent) (isRoot : parent source = none)
    (top : parent target = none) (distinct : source ≠ target) :
    Grounded (unite parent source target) := by
  intro node
  obtain ⟨root, rootOf⟩ := grounded node
  by_cases own : root = source
  · exact ⟨target, (own ▸ rootOf).unite_source top distinct⟩
  · exact ⟨root, rootOf.unite_other isRoot own⟩

theorem SameRoot.unite {left right : Node} (same : SameRoot parent left right)
    (isRoot : parent source = none) (top : parent target = none) (distinct : source ≠ target) :
    SameRoot (unite parent source target) left right := by
  obtain ⟨root, first, second⟩ := same
  by_cases own : root = source
  · subst own
    exact ⟨target, first.unite_source top distinct, second.unite_source top distinct⟩
  · exact ⟨root, first.unite_other isRoot own, second.unite_other isRoot own⟩

/-- Where classes are what some pairs generate, uniting two trees is one pair more. -/
theorem sameRoot_unite_iff (grounded : Grounded parent)
    (classes : ∀ first second, SameRoot parent first second ↔ EqvGen Related first second)
    (leftRoot : RootOf parent left target) (rightRoot : RootOf parent right source)
    (distinct : source ≠ target) (first second : Node) :
    SameRoot (unite parent source target) first second ↔
      EqvGen (Joined Related left right) first second := by
  have isRoot := rightRoot.2
  have top := leftRoot.2
  constructor
  · -- a class behind the union comes from one class, or from both
    have generated : ∀ {node root}, RootOf parent node root →
        RootOf (unite parent source target) node (if root = source then target else root) ∧
          EqvGen (Joined Related left right) node (if root = source then target else root) := by
      intro node root rootOf
      have own : EqvGen Related node root := (classes _ _).mp ⟨root, rootOf, rootOf.top⟩
      split
      · next same =>
          subst same
          refine ⟨rootOf.unite_source top distinct, ?_⟩
          have joined : EqvGen Related right node :=
            (classes _ _).mp ⟨root, rightRoot, rootOf⟩
          have target' : EqvGen Related left target :=
            (classes _ _).mp ⟨target, leftRoot, leftRoot.top⟩
          exact .trans _ _ _ (.symm _ _ (eqvGen_joined joined))
            (.trans _ _ _ (.symm _ _ (.rel _ _ (.inr ⟨rfl, rfl⟩))) (eqvGen_joined target'))
      · next different => exact ⟨rootOf.unite_other isRoot different, eqvGen_joined own⟩
    rintro ⟨root, firstRoot, secondRoot⟩
    obtain ⟨oldFirst, rootFirst⟩ := grounded first
    obtain ⟨oldSecond, rootSecond⟩ := grounded second
    obtain ⟨newFirst, toFirst⟩ := generated rootFirst
    obtain ⟨newSecond, toSecond⟩ := generated rootSecond
    rw [newFirst.unique firstRoot] at toFirst
    rw [newSecond.unique secondRoot] at toSecond
    exact .trans _ _ _ toFirst (.symm _ _ toSecond)
  · intro related
    have equivalence := (grounded.unite isRoot top distinct).sameRoot_equivalence
    induction related with
    | rel first second pair =>
        rcases pair with related | ⟨rfl, rfl⟩
        · exact ((classes _ _).mpr (.rel _ _ related)).unite isRoot top distinct
        · exact ⟨target, leftRoot.unite_other isRoot (Ne.symm distinct),
            rightRoot.unite_source top distinct⟩
    | refl node => exact equivalence.refl node
    | symm first second _ induction => exact equivalence.symm induction
    | trans first middle second _ _ before behind => exact equivalence.trans before behind

end Unite

end TerminalCanvas.Forest
