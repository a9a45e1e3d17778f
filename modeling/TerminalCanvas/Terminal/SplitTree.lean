import Mathlib.Data.List.Rotate
import Mathlib.Data.List.Nodup
import TerminalCanvas.Foundation.Primitives

/-! # The split tree of a terminal panel

A panel is a binary tree of splits with one session in each leaf. Splitting
puts a new leaf beside its target, closing promotes the sibling subtree. -/

namespace TerminalCanvas

/-- `Uuid::new_v4`: random bits under the version and variant of a random id. -/
def Uuid.newV4 (random : BitVec 128) : Uuid :=
  ⟨(random &&& 0xffffffffffff0fff3fffffffffffffff#128) ||| 0x40008000000000000000#128⟩

theorem Uuid.newV4_ne_nil (random : BitVec 128) : Uuid.newV4 random ≠ Uuid.nil := by
  intro equal
  have versionBit := congrArg (fun id => id.asU128.getLsbD 78) equal
  simp [Uuid.newV4, Uuid.nil, Uuid.fromU128] at versionBit

namespace SplitTree

abbrev LeafId := Uuid

/-- The bits of a single-precision ratio; the tree operations only carry it. -/
abbrev Ratio := BitVec 32

/-- The bits of `0.5`. -/
def half : Ratio := 0x3f000000#32

inductive Axis
  | horizontal
  | vertical
deriving DecidableEq, Repr

inductive SplitNode
  | leaf (id : LeafId)
  | split (axis : Axis) (ratio : Ratio) (first second : SplitNode)
deriving DecidableEq, Repr

inductive CloseResult
  | closed (nextFocus : Option LeafId)
  | emptied
  | notFound
deriving DecidableEq, Repr

/-- What `close_inner` leaves behind: the node it worked on in place, whether
the leaf was closed, and the node that has to replace it. -/
structure Closing where
  node : SplitNode
  closed : Bool
  replacement : Option SplitNode
deriving DecidableEq, Repr

/-- The node a parent sees once a replacement has been put in place. -/
def Closing.replaced (closing : Closing) : SplitNode :=
  closing.replacement.getD closing.node

namespace SplitNode

/-- The leaves in depth-first order, the order of focus. -/
def leaves : SplitNode → List LeafId
  | leaf id => [id]
  | split _ _ first second => first.leaves ++ second.leaves

def leafCount (node : SplitNode) : Nat := node.leaves.length

/-- The rewritten node when `target` is one of its leaves. -/
def replaceLeafWith (target : LeafId) (f : SplitNode → SplitNode) :
    SplitNode → Option SplitNode
  | leaf id => if id = target then some (f (leaf target)) else none
  | split axis ratio first second =>
      match first.replaceLeafWith target f with
      | some replacement => some (split axis ratio replacement second)
      | none =>
          match second.replaceLeafWith target f with
          | some replacement => some (split axis ratio first replacement)
          | none => none

/-- The tree after dividing `target`, and the id of the new leaf. -/
def splitLeaf (tree : SplitNode) (target : LeafId) (axis : Axis) (random : BitVec 128) :
    SplitNode × Option LeafId :=
  let newId := Uuid.newV4 random
  match tree.replaceLeafWith target (fun old => split axis half old (leaf newId)) with
  | some node => (node, some newId)
  | none => (tree, none)

def isTombstone : SplitNode → Bool
  | leaf id => id = Uuid.nil
  | split .. => false

/-- A leaf marks itself with a tombstone, which its parent collapses. -/
def closeInner (target : LeafId) : SplitNode → Bool → Closing
  | leaf id, closed =>
      if id = target then ⟨leaf id, true, some (leaf Uuid.nil)⟩ else ⟨leaf id, closed, none⟩
  | split axis ratio first second, closed =>
      let one := first.closeInner target closed
      if one.replacement.any isTombstone then
        ⟨split axis ratio one.node second, one.closed, some second⟩
      else
        let two := second.closeInner target one.closed
        if two.replacement.any isTombstone then
          ⟨split axis ratio one.replaced two.node, two.closed, some one.replaced⟩
        else
          ⟨split axis ratio one.replaced two.replaced, two.closed, none⟩

def close (tree : SplitNode) (target : LeafId) : SplitNode × CloseResult :=
  let closing := tree.closeInner target false
  let node := closing.replaced
  if !closing.closed then
    (node, .notFound)
  else if node.isTombstone then
    (node, .emptied)
  else if node.leaves.isEmpty then
    (node, .emptied)
  else
    (node, .closed node.leaves.head?)

/-- The leaf after `current` in depth-first order, the first one after the last. -/
def focusNext (tree : SplitNode) (current : LeafId) : Option LeafId :=
  let leaves := tree.leaves
  if leaves.isEmpty then
    none
  else
    let next := match leaves.findIdx? (· = current) with
      | some position => (position + 1) % leaves.length
      | none => 0
    leaves[next]?

end SplitNode

/-! ## Surroundings of a subtree -/

/-- One split with one of its children taken out. -/
inductive Frame
  | first (axis : Axis) (ratio : Ratio) (second : SplitNode)
  | second (axis : Axis) (ratio : Ratio) (first : SplitNode)

/-- The splits around a subtree, the outermost one first. -/
abbrev Context := List Frame

namespace Context

def plug : Context → SplitNode → SplitNode
  | [], node => node
  | .first axis ratio second :: rest, node => .split axis ratio (plug rest node) second
  | .second axis ratio first :: rest, node => .split axis ratio first (plug rest node)

def before : Context → List LeafId
  | [] => []
  | .first _ _ _ :: rest => before rest
  | .second _ _ first :: rest => first.leaves ++ before rest

def after : Context → List LeafId
  | [] => []
  | .first _ _ second :: rest => after rest ++ second.leaves
  | .second _ _ _ :: rest => after rest

theorem leaves_plug (context : Context) (node : SplitNode) :
    (context.plug node).leaves = context.before ++ node.leaves ++ context.after := by
  induction context with
  | nil => simp [plug, before, after]
  | cons frame rest induction =>
      cases frame with
      | first => simp [plug, before, after, SplitNode.leaves, induction]
      | second => simp [plug, before, after, SplitNode.leaves, induction]

end Context

namespace SplitNode

theorem leaves_ne_nil (tree : SplitNode) : tree.leaves ≠ [] := by
  induction tree with
  | leaf id => simp [leaves]
  | split axis ratio first second firstLeaves _ => simp [leaves, firstLeaves]

theorem eq_leaf_of_leaves {tree : SplitNode} {target : LeafId}
    (alone : tree.leaves = [target]) : tree = leaf target := by
  cases tree with
  | leaf id => rw [List.singleton_inj.mp alone]
  | split axis ratio first second =>
      have one := congrArg List.length alone
      have someFirst := List.length_pos_iff.mpr first.leaves_ne_nil
      have someSecond := List.length_pos_iff.mpr second.leaves_ne_nil
      simp only [leaves, List.length_append, List.length_singleton] at one
      omega

theorem not_isTombstone {tree : SplitNode} (named : Uuid.nil ∉ tree.leaves) :
    tree.isTombstone = false := by
  cases tree with
  | leaf id => simpa [leaves, isTombstone, eq_comm] using named
  | split => rfl

/-- A split with `target` and `sibling` for its children, in either order. -/
def Parent (target : LeafId) (sibling node : SplitNode) : Prop :=
  ∃ (axis : Axis) (ratio : Ratio),
    node = split axis ratio (leaf target) sibling ∨ node = split axis ratio sibling (leaf target)

theorem exists_parent {tree : SplitNode} {target : LeafId} (present : target ∈ tree.leaves) :
    tree = leaf target ∨ ∃ (context : Context) (sibling node : SplitNode),
      Parent target sibling node ∧ tree = context.plug node := by
  induction tree with
  | leaf id =>
      rw [leaves, List.mem_singleton] at present
      exact .inl (congrArg leaf present.symm)
  | split axis ratio first second inFirst inSecond =>
      right
      rw [leaves, List.mem_append] at present
      rcases present with present | present
      · rcases inFirst present with rfl | ⟨context, sibling, node, parent, rfl⟩
        · exact ⟨[], second, _, ⟨axis, ratio, .inl rfl⟩, rfl⟩
        · exact ⟨.first axis ratio second :: context, sibling, node, parent, rfl⟩
      · rcases inSecond present with rfl | ⟨context, sibling, node, parent, rfl⟩
        · exact ⟨[], first, _, ⟨axis, ratio, .inr rfl⟩, rfl⟩
        · exact ⟨.second axis ratio first :: context, sibling, node, parent, rfl⟩

/-! ## Splitting -/

theorem replaceLeafWith_absent {tree : SplitNode} {target : LeafId}
    (f : SplitNode → SplitNode) (absent : target ∉ tree.leaves) :
    tree.replaceLeafWith target f = none := by
  induction tree with
  | leaf id =>
      rw [leaves, List.mem_singleton] at absent
      rw [replaceLeafWith, if_neg (Ne.symm absent)]
  | split axis ratio first second inFirst inSecond =>
      rw [leaves, List.mem_append, not_or] at absent
      rw [replaceLeafWith, inFirst absent.1, inSecond absent.2]

theorem replaceLeafWith_present {tree : SplitNode} {target : LeafId}
    (f : SplitNode → SplitNode) (present : target ∈ tree.leaves) :
    ∃ context : Context, tree = context.plug (leaf target) ∧
      tree.replaceLeafWith target f = some (context.plug (f (leaf target))) := by
  induction tree with
  | leaf id =>
      rw [leaves, List.mem_singleton] at present
      subst present
      exact ⟨[], rfl, by rw [replaceLeafWith, if_pos rfl]; rfl⟩
  | split axis ratio first second inFirst inSecond =>
      by_cases early : target ∈ first.leaves
      · obtain ⟨context, place, rewritten⟩ := inFirst early
        refine ⟨.first axis ratio second :: context, by rw [place]; rfl, ?_⟩
        rw [replaceLeafWith, rewritten]
        rfl
      · rw [leaves, List.mem_append, or_iff_right early] at present
        obtain ⟨context, place, rewritten⟩ := inSecond present
        refine ⟨.second axis ratio first :: context, by rw [place]; rfl, ?_⟩
        rw [replaceLeafWith, replaceLeafWith_absent f early, rewritten]
        rfl

theorem splitLeaf_absent {tree : SplitNode} {target : LeafId} (axis : Axis)
    (random : BitVec 128) (absent : target ∉ tree.leaves) :
    tree.splitLeaf target axis random = (tree, none) := by
  rw [splitLeaf, replaceLeafWith_absent _ absent]

theorem splitLeaf_present {tree : SplitNode} {target : LeafId} (axis : Axis)
    (random : BitVec 128) (present : target ∈ tree.leaves) :
    ∃ context : Context, tree = context.plug (leaf target) ∧
      tree.splitLeaf target axis random =
        (context.plug (split axis half (leaf target) (leaf (Uuid.newV4 random))),
          some (Uuid.newV4 random)) := by
  obtain ⟨context, place, rewritten⟩ := replaceLeafWith_present
    (fun old => split axis half old (leaf (Uuid.newV4 random))) present
  exact ⟨context, place, by rw [splitLeaf, rewritten]⟩

theorem leaves_splitLeaf (context : Context) (target : LeafId) (axis : Axis) (newId : LeafId) :
    ∃ earlier later, (context.plug (leaf target)).leaves = earlier ++ target :: later ∧
      (context.plug (split axis half (leaf target) (leaf newId))).leaves =
        earlier ++ target :: newId :: later :=
  ⟨context.before, context.after, by simp [Context.leaves_plug, leaves],
    by simp [Context.leaves_plug, leaves]⟩

theorem perm_splitLeaf {tree : SplitNode} {target : LeafId} (axis : Axis)
    (random : BitVec 128) (present : target ∈ tree.leaves) :
    (tree.splitLeaf target axis random).1.leaves.Perm (Uuid.newV4 random :: tree.leaves) := by
  obtain ⟨context, rfl, result⟩ := splitLeaf_present axis random present
  obtain ⟨earlier, later, old, new⟩ :=
    leaves_splitLeaf context target axis (Uuid.newV4 random)
  rw [result, old, new]
  have moved : ((earlier ++ [target]) ++ Uuid.newV4 random :: later).Perm
      (Uuid.newV4 random :: ((earlier ++ [target]) ++ later)) := List.perm_middle
  simpa using moved

/-! ## Closing -/

theorem closeInner_absent {tree : SplitNode} {target : LeafId} (closed : Bool)
    (absent : target ∉ tree.leaves) :
    tree.closeInner target closed = ⟨tree, closed, none⟩ := by
  induction tree generalizing closed with
  | leaf id =>
      rw [leaves, List.mem_singleton] at absent
      rw [closeInner, if_neg (Ne.symm absent)]
  | split axis ratio first second inFirst inSecond =>
      rw [leaves, List.mem_append, not_or] at absent
      simp [closeInner, inFirst closed absent.1, inSecond closed absent.2, Closing.replaced]

theorem closeInner_first_child (axis : Axis) (ratio : Ratio) (target : LeafId)
    (sibling : SplitNode) (closed : Bool) :
    (split axis ratio (leaf target) sibling).closeInner target closed =
      ⟨split axis ratio (leaf target) sibling, true, some sibling⟩ := by
  simp [closeInner, isTombstone]

theorem closeInner_second_child (axis : Axis) (ratio : Ratio) {target : LeafId}
    {sibling : SplitNode} (closed : Bool) (absent : target ∉ sibling.leaves) :
    (split axis ratio sibling (leaf target)).closeInner target closed =
      ⟨split axis ratio sibling (leaf target), true, some sibling⟩ := by
  simp [closeInner, closeInner_absent closed absent, isTombstone, Closing.replaced]

theorem closeInner_plug {context : Context} {node : SplitNode} {target : LeafId} {closed : Bool}
    (absentBefore : target ∉ context.before) (absentAfter : target ∉ context.after)
    (kept : (node.closeInner target closed).replacement.any isTombstone = false) :
    let inner := node.closeInner target closed
    let outer := (context.plug node).closeInner target closed
    outer.replaced = context.plug inner.replaced ∧ outer.closed = inner.closed ∧
      outer.replacement.any isTombstone = false := by
  induction context with
  | nil => exact ⟨rfl, rfl, kept⟩
  | cons frame rest induction =>
      cases frame with
      | first axis ratio second =>
          rw [Context.before] at absentBefore
          rw [Context.after, List.mem_append, not_or] at absentAfter
          obtain ⟨replaced, marked, stays⟩ := induction absentBefore absentAfter.1
          simp [Context.plug, closeInner, stays, closeInner_absent _ absentAfter.2,
            Closing.replaced, ← marked]
          exact replaced
      | second axis ratio first =>
          rw [Context.before, List.mem_append, not_or] at absentBefore
          rw [Context.after] at absentAfter
          obtain ⟨replaced, marked, stays⟩ := induction absentBefore.2 absentAfter
          simp [Context.plug, closeInner, stays, closeInner_absent _ absentBefore.1,
            Closing.replaced, ← marked]
          exact replaced

theorem Parent.leaves {target : LeafId} {sibling node : SplitNode}
    (parent : Parent target sibling node) :
    node.leaves = target :: sibling.leaves ∨ node.leaves = sibling.leaves ++ [target] := by
  obtain ⟨axis, ratio, rfl | rfl⟩ := parent
  · exact .inl rfl
  · exact .inr rfl

theorem Parent.closeInner {target : LeafId} {sibling node : SplitNode}
    (parent : Parent target sibling node) (closed : Bool) (absent : target ∉ sibling.leaves) :
    node.closeInner target closed = ⟨node, true, some sibling⟩ := by
  obtain ⟨axis, ratio, rfl | rfl⟩ := parent
  · exact closeInner_first_child axis ratio target sibling closed
  · exact closeInner_second_child axis ratio closed absent

/-- The ids of a tree are distinct, and only the emptied tree has the tombstone's. -/
structure WellFormed (tree : SplitNode) : Prop where
  distinct : tree.leaves.Nodup
  named : tree.isTombstone = true ∨ Uuid.nil ∉ tree.leaves

theorem mem_leaves_of_parent {context : Context} {target : LeafId} {sibling node : SplitNode}
    (parent : Parent target sibling node) (id : LeafId) (inside : id ∈ sibling.leaves) :
    id ∈ (context.plug node).leaves := by
  rw [Context.leaves_plug]
  rcases parent.leaves with equal | equal <;> simp [equal, inside]

theorem closeInner_parent {context : Context} {target : LeafId} {sibling node : SplitNode}
    (parent : Parent target sibling node) (distinct : (context.plug node).leaves.Nodup)
    (kept : context = [] ∨ sibling.isTombstone = false) (closed : Bool) :
    ((context.plug node).closeInner target closed).replaced = context.plug sibling ∧
      ((context.plug node).closeInner target closed).closed = true := by
  rw [Context.leaves_plug] at distinct
  have inside : target ∈ node.leaves := by
    rcases parent.leaves with equal | equal <;> simp [equal]
  have absent : target ∉ sibling.leaves := by
    have unique : node.leaves.Nodup := distinct.of_append_left.of_append_right
    rcases parent.leaves with equal | equal
    · rw [equal] at unique
      exact (List.nodup_cons.mp unique).1
    · rw [equal, List.nodup_append] at unique
      exact fun member => unique.2.2 target member target List.mem_cons_self rfl
  have result := parent.closeInner closed absent
  rcases kept with rfl | kept
  · rw [Context.plug, result]
    exact ⟨rfl, rfl⟩
  · have absentBefore : target ∉ context.before := fun member =>
      (List.nodup_append.mp distinct.of_append_left).2.2 target member target inside rfl
    have absentAfter : target ∉ context.after := fun member =>
      (List.nodup_append.mp distinct).2.2 target (by simp [inside]) target member rfl
    have stays : (node.closeInner target closed).replacement.any isTombstone = false := by
      simp [result, kept]
    obtain ⟨replaced, marked, -⟩ := closeInner_plug absentBefore absentAfter stays
    rw [replaced, marked, result]
    exact ⟨rfl, rfl⟩

theorem close_absent {tree : SplitNode} {target : LeafId} (absent : target ∉ tree.leaves) :
    tree.close target = (tree, .notFound) := by
  simp [close, closeInner_absent false absent, Closing.replaced]

theorem close_only (target : LeafId) :
    (leaf target).close target = (leaf Uuid.nil, .emptied) := by
  simp [close, closeInner, Closing.replaced, isTombstone]

theorem isTombstone_plug {context : Context} {node : SplitNode}
    (standing : node.isTombstone = false) : (context.plug node).isTombstone = false := by
  rcases context with _ | ⟨⟨⟩ | ⟨⟩, rest⟩
  · exact standing
  · rfl
  · rfl

theorem Parent.named {context : Context} {target : LeafId} {sibling node : SplitNode}
    (parent : Parent target sibling node) (wellFormed : (context.plug node).WellFormed) :
    Uuid.nil ∉ (context.plug node).leaves := by
  have standing : node.isTombstone = false := by
    obtain ⟨axis, ratio, rfl | rfl⟩ := parent <;> rfl
  exact wellFormed.named.resolve_left (by simp [isTombstone_plug standing])

theorem close_parent {context : Context} {target : LeafId} {sibling node : SplitNode}
    (parent : Parent target sibling node) (wellFormed : (context.plug node).WellFormed) :
    (context.plug node).close target =
      (context.plug sibling, .closed (context.plug sibling).leaves.head?) := by
  have kept : sibling.isTombstone = false :=
    not_isTombstone fun member =>
      parent.named wellFormed (mem_leaves_of_parent parent _ member)
  obtain ⟨replaced, marked⟩ := closeInner_parent parent wellFormed.distinct (.inr kept) false
  simp [close, replaced, marked, isTombstone_plug kept, leaves_ne_nil]

theorem leaves_parent (context : Context) {target : LeafId} {sibling node : SplitNode}
    (parent : Parent target sibling node) :
    ∃ earlier later, (context.plug node).leaves = earlier ++ target :: later ∧
      (context.plug sibling).leaves = earlier ++ later := by
  rcases parent.leaves with equal | equal
  · refine ⟨context.before, sibling.leaves ++ context.after, ?_, ?_⟩ <;>
      simp [Context.leaves_plug, equal]
  · refine ⟨context.before ++ sibling.leaves, context.after, ?_, ?_⟩ <;>
      simp [Context.leaves_plug, equal]

theorem close_present {tree : SplitNode} (wellFormed : tree.WellFormed) {target : LeafId}
    (present : target ∈ tree.leaves) (shared : 2 ≤ tree.leafCount) :
    ∃ (context : Context) (sibling node : SplitNode),
      Parent target sibling node ∧ tree = context.plug node ∧
      tree.close target =
        (context.plug sibling, .closed (context.plug sibling).leaves.head?) := by
  rcases exists_parent present with rfl | ⟨context, sibling, node, parent, rfl⟩
  · simp [leafCount, leaves] at shared
  · exact ⟨context, sibling, node, parent, rfl, close_parent parent wellFormed⟩

theorem close_splitLeaf {tree : SplitNode} (wellFormed : tree.WellFormed) {target : LeafId}
    (axis : Axis) {random : BitVec 128} (fresh : Uuid.newV4 random ∉ tree.leaves)
    (present : target ∈ tree.leaves) :
    ((tree.splitLeaf target axis random).1.close (Uuid.newV4 random)).1 = tree := by
  have distinct : (tree.splitLeaf target axis random).1.leaves.Nodup :=
    (perm_splitLeaf axis random present).nodup_iff.mpr
      (List.nodup_cons.mpr ⟨fresh, wellFormed.distinct⟩)
  obtain ⟨context, rfl, result⟩ := splitLeaf_present axis random present
  rw [result] at distinct ⊢
  have parent : Parent (Uuid.newV4 random) (leaf target)
      (split axis half (leaf target) (leaf (Uuid.newV4 random))) := ⟨axis, half, .inr rfl⟩
  -- a target with the tombstone's id is the whole tree
  have kept : context = [] ∨ (leaf target).isTombstone = false := by
    rcases wellFormed.named with emptied | named
    · rcases context with _ | ⟨⟨⟩ | ⟨⟩, rest⟩
      · exact .inl rfl
      · simp [Context.plug, isTombstone] at emptied
      · simp [Context.plug, isTombstone] at emptied
    · exact .inr (not_isTombstone fun member =>
        named (by rw [Context.leaves_plug]; simp [member]))
  obtain ⟨replaced, marked⟩ := closeInner_parent parent distinct kept false
  rw [close, marked, replaced]
  simp only [Bool.not_true, Bool.false_eq_true, if_false]
  split
  · rfl
  · split <;> rfl

/-! ## Well-formed trees -/

theorem WellFormed.leaf {root : LeafId} (named : root ≠ Uuid.nil) :
    (SplitNode.leaf root).WellFormed where
  distinct := by simp [leaves]
  named := .inr (by simpa [leaves, eq_comm] using named)

theorem WellFormed.splitLeaf {tree : SplitNode} (wellFormed : tree.WellFormed)
    (standing : tree.isTombstone = false) (target : LeafId) (axis : Axis)
    {random : BitVec 128} (fresh : Uuid.newV4 random ∉ tree.leaves) :
    (tree.splitLeaf target axis random).1.WellFormed := by
  by_cases present : target ∈ tree.leaves
  · have named : Uuid.nil ∉ tree.leaves :=
      wellFormed.named.resolve_left (by simp [standing])
    have added := perm_splitLeaf axis random present
    refine ⟨added.nodup_iff.mpr (List.nodup_cons.mpr ⟨fresh, wellFormed.distinct⟩), .inr ?_⟩
    rw [added.mem_iff, List.mem_cons, not_or]
    exact ⟨(Uuid.newV4_ne_nil random).symm, named⟩
  · rw [splitLeaf_absent axis random present]
    exact wellFormed

theorem WellFormed.close {tree : SplitNode} (wellFormed : tree.WellFormed) (target : LeafId) :
    (tree.close target).1.WellFormed := by
  by_cases present : target ∈ tree.leaves
  · rcases exists_parent present with rfl | ⟨context, sibling, node, parent, rfl⟩
    · rw [close_only]
      exact ⟨by simp [leaves], .inl (by simp [isTombstone])⟩
    · rw [close_parent parent wellFormed]
      obtain ⟨earlier, later, old, new⟩ := leaves_parent context parent
      have shrunk : List.Sublist (context.plug sibling).leaves (context.plug node).leaves := by
        rw [old, new]
        exact (List.sublist_cons_self _ _).append_left _
      exact ⟨wellFormed.distinct.sublist shrunk,
        .inr fun member => parent.named wellFormed (shrunk.subset member)⟩
  · rw [close_absent present]
    exact wellFormed

/-- The trees of a panel whose first leaf is `root`. A panel gives up its tree
once it is emptied, so the tombstone itself is never split. -/
inductive Reachable (root : LeafId) : SplitNode → Prop
  | single : Reachable root (.leaf root)
  | split {tree : SplitNode} (reached : Reachable root tree)
      (standing : tree.isTombstone = false) (target : LeafId) (axis : Axis)
      (random : BitVec 128) (fresh : Uuid.newV4 random ∉ tree.leaves) :
      Reachable root (tree.splitLeaf target axis random).1
  | close {tree : SplitNode} (reached : Reachable root tree) (target : LeafId) :
      Reachable root (tree.close target).1

theorem Reachable.wellFormed {root : LeafId} {tree : SplitNode}
    (reached : Reachable root tree) (named : root ≠ Uuid.nil) : tree.WellFormed := by
  induction reached with
  | single => exact .leaf named
  | split _ standing target axis random fresh wellFormed =>
      exact wellFormed.splitLeaf standing target axis fresh
  | close _ target wellFormed => exact wellFormed.close target

/-! ## Focus -/

/-- The leaf in focus after `count` calls of `focus_next` from `start`. -/
def visit (tree : SplitNode) (start : LeafId) : Nat → Option LeafId
  | 0 => some start
  | count + 1 => (tree.visit start count).bind tree.focusNext

theorem focusNext_getElem {tree : SplitNode} (distinct : tree.leaves.Nodup) {position : Nat}
    (inside : position < tree.leaves.length) :
    tree.focusNext tree.leaves[position] =
      tree.leaves[(position + 1) % tree.leaves.length]? := by
  have found : tree.leaves.findIdx? (· = tree.leaves[position]) = some position := by
    rw [List.findIdx?_eq_some_iff_getElem]
    refine ⟨inside, by simp, fun earlier before => ?_⟩
    have different : tree.leaves[earlier] ≠ tree.leaves[position] := fun equal =>
      absurd ((distinct.getElem_inj_iff).mp equal) (by omega)
    simpa using different
  simp [focusNext, found, leaves_ne_nil]

theorem visit_getElem {tree : SplitNode} (distinct : tree.leaves.Nodup) {position : Nat}
    (inside : position < tree.leaves.length) (count : Nat) :
    tree.visit tree.leaves[position] count =
      tree.leaves[(position + count) % tree.leaves.length]? := by
  have nonempty : 0 < tree.leaves.length := by omega
  induction count with
  | zero => simp [visit, Nat.mod_eq_of_lt inside, inside]
  | succ count induction =>
      have here : (position + count) % tree.leaves.length < tree.leaves.length :=
        Nat.mod_lt _ nonempty
      rw [visit, induction, List.getElem?_eq_getElem here, Option.bind_some,
        focusNext_getElem distinct here, Nat.mod_add_mod, Nat.add_assoc]

theorem visits_eq_rotate {tree : SplitNode} (distinct : tree.leaves.Nodup) {position : Nat}
    (inside : position < tree.leaves.length) :
    (List.range tree.leafCount).map (tree.visit tree.leaves[position]) =
      (tree.leaves.rotate position).map some := by
  apply List.ext_getElem
  · simp [leafCount]
  · intro count _ here
    simp only [List.length_map, List.length_rotate] at here
    have wrapped : (count + position) % tree.leaves.length < tree.leaves.length :=
      Nat.mod_lt _ (by omega)
    simp [visit_getElem distinct inside, List.getElem_rotate, Nat.add_comm position count,
      wrapped]

theorem focus_cycle {tree : SplitNode} (distinct : tree.leaves.Nodup) {start : LeafId}
    (present : start ∈ tree.leaves) :
    ((List.range tree.leafCount).map (tree.visit start)).Perm (tree.leaves.map some) ∧
      tree.visit start tree.leafCount = some start := by
  obtain ⟨position, inside, rfl⟩ := List.getElem_of_mem present
  constructor
  · rw [visits_eq_rotate distinct inside]
    exact (List.rotate_perm _ _).map some
  · rw [visit_getElem distinct inside, leafCount, Nat.add_mod_right, Nat.mod_eq_of_lt inside,
      List.getElem?_eq_getElem inside]

end SplitNode

open SplitNode in
/-- What every tree of a panel keeps under splitting, closing and rotating the focus. -/
theorem layout_preserved {root : LeafId} (named : root ≠ Uuid.nil) {tree : SplitNode}
    (reached : Reachable root tree) :
    tree.leaves.Nodup ∧
    (∀ target axis random, target ∈ tree.leaves → Uuid.newV4 random ∉ tree.leaves →
      ∃ context : Context, tree = context.plug (.leaf target) ∧
        tree.splitLeaf target axis random =
          (context.plug (.split axis half (.leaf target) (.leaf (Uuid.newV4 random))),
            some (Uuid.newV4 random)) ∧
        ∃ earlier later, tree.leaves = earlier ++ target :: later ∧
          (tree.splitLeaf target axis random).1.leaves =
            earlier ++ target :: Uuid.newV4 random :: later) ∧
    (∀ target axis random, target ∉ tree.leaves →
      tree.splitLeaf target axis random = (tree, none)) ∧
    (∀ target, target ∈ tree.leaves → 2 ≤ tree.leafCount →
      ∃ (context : Context) (axis : Axis) (ratio : Ratio) (sibling : SplitNode),
        (tree = context.plug (.split axis ratio (.leaf target) sibling) ∨
          tree = context.plug (.split axis ratio sibling (.leaf target))) ∧
        tree.close target =
          (context.plug sibling, .closed (context.plug sibling).leaves.head?) ∧
        ∃ earlier later, tree.leaves = earlier ++ target :: later ∧
          (context.plug sibling).leaves = earlier ++ later) ∧
    (∀ target, target ∉ tree.leaves → tree.close target = (tree, .notFound)) ∧
    (∀ target, tree.leaves = [target] → (tree.close target).2 = .emptied) ∧
    (∀ target axis random, target ∈ tree.leaves → Uuid.newV4 random ∉ tree.leaves →
      ((tree.splitLeaf target axis random).1.close (Uuid.newV4 random)).1 = tree) ∧
    (∀ start, start ∈ tree.leaves →
      ((List.range tree.leafCount).map (tree.visit start)).Perm (tree.leaves.map some) ∧
        tree.visit start tree.leafCount = some start) := by
  have wellFormed := reached.wellFormed named
  refine ⟨wellFormed.distinct, ?split, ?absent, ?close, fun _ => close_absent, ?only, ?restore,
    fun _ => focus_cycle wellFormed.distinct⟩
  case split =>
    intro target axis random present _
    obtain ⟨context, rfl, result⟩ := splitLeaf_present axis random present
    refine ⟨context, rfl, result, ?_⟩
    rw [result]
    exact leaves_splitLeaf context target axis _
  case absent => exact fun _ axis random => splitLeaf_absent axis random
  case close =>
    intro target present shared
    obtain ⟨context, sibling, node, parent, rfl, result⟩ :=
      close_present wellFormed present shared
    have removed := leaves_parent context parent
    obtain ⟨axis, ratio, place⟩ := parent
    refine ⟨context, axis, ratio, sibling, ?_, result, removed⟩
    exact place.imp (congrArg context.plug) (congrArg context.plug)
  case only =>
    intro target alone
    rw [eq_leaf_of_leaves alone, close_only]
  case restore =>
    exact fun _ axis _ present fresh => close_splitLeaf wellFormed axis fresh present

open SplitNode in
/-- The layout laws at a panel split once. -/
theorem layout_preserved_divided :
    let root := Uuid.newV4 1
    let tree := ((SplitNode.leaf root).splitLeaf root .horizontal 2).1
    tree.leaves = [Uuid.newV4 1, Uuid.newV4 2] ∧ tree.leaves.Nodup ∧
      ∀ start, start ∈ tree.leaves → tree.visit start tree.leafCount = some start := by
  have laws := layout_preserved (Uuid.newV4_ne_nil 1)
    (.split .single (by decide) (Uuid.newV4 1) .horizontal 2 (by decide))
  exact ⟨by decide, laws.1, fun start present => (laws.2.2.2.2.2.2.2 start present).2⟩

end SplitTree

end TerminalCanvas
