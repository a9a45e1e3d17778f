import Mathlib.Data.List.Sort

/-! # Selecting the least items

A priority queue that never holds more than a number of items, and gives its greatest item
away for every one too many, ends up with the least items of all that it has seen. -/

namespace TerminalCanvas.Selection

variable {Item Key : Type} [LinearOrder Key] {key : Item → Key}

/-- A queue that gives away an item with a greatest key. It keeps its items in an order of
its own. -/
structure PriorityQueue (Item : Type) {Key : Type} [LinearOrder Key] (key : Item → Key) where
  Heap : Type
  empty : Heap
  items : Heap → List Item
  push : Heap → Item → Heap
  pop : Heap → Option (Item × Heap)
  items_empty : items empty = []
  items_push : ∀ heap item, (items (push heap item)).Perm (item :: items heap)
  pop_none : ∀ heap, pop heap = none → items heap = []
  pop_some : ∀ heap item rest, pop heap = some (item, rest) →
    (items heap).Perm (item :: items rest) ∧ ∀ other ∈ items heap, key other ≤ key item

/-- The items in the order of their keys. -/
def sorted (key : Item → Key) (items : List Item) : List Item :=
  items.mergeSort fun left right => key left ≤ key right

/-- Some items of a list whose keys are not above those of the others. -/
structure Least (key : Item → Key) (count : Nat) (kept all : List Item) : Prop where
  number : kept.length = min count all.length
  below : ∃ others, all.Perm (kept ++ others) ∧
    ∀ item ∈ kept, ∀ other ∈ others, key item ≤ key other

theorem sorted_perm (items : List Item) : (sorted key items).Perm items :=
  List.mergeSort_perm _ _

theorem sorted_pairwise (items : List Item) :
    (sorted key items).Pairwise fun left right => key left ≤ key right := by
  have ordered : (sorted key items).Pairwise fun left right =>
      decide (key left ≤ key right) = true := by
    apply List.pairwise_mergeSort
    · intro first second third before behind
      exact decide_eq_true (le_trans (of_decide_eq_true before) (of_decide_eq_true behind))
    · intro first second
      rw [Bool.or_eq_true, decide_eq_true_eq, decide_eq_true_eq]
      exact le_total _ _
  exact ordered.imp of_decide_eq_true

/-- Two lists in the order of their keys have the same keys if one is a permutation of the
other. -/
theorem keys_eq_of_perm {first second : List Item} (same : first.Perm second)
    (firstOrdered : first.Pairwise fun left right => key left ≤ key right)
    (secondOrdered : second.Pairwise fun left right => key left ≤ key right) :
    first.map key = second.map key :=
  (same.map key).eq_of_pairwise (fun _ _ _ _ => le_antisymm)
    (List.pairwise_map.mpr firstOrdered) (List.pairwise_map.mpr secondOrdered)

/-- The least items are the first ones of the sorted list, but for items with equal keys. -/
theorem Least.keys {count : Nat} {kept all : List Item} (least : Least key count kept all) :
    (sorted key kept).map key = ((sorted key all).map key).take count := by
  obtain ⟨others, whole, below⟩ := least.below
  have ordered : (sorted key kept ++ sorted key others).Pairwise fun left right =>
      key left ≤ key right := by
    refine List.pairwise_append.mpr ⟨sorted_pairwise _, sorted_pairwise _, ?_⟩
    intro item member other otherMember
    exact below item ((sorted_perm kept).mem_iff.mp member) other
      ((sorted_perm others).mem_iff.mp otherMember)
  have same : (sorted key all).Perm (sorted key kept ++ sorted key others) :=
    (sorted_perm all).trans
      (whole.trans ((sorted_perm kept).symm.append (sorted_perm others).symm))
  have keys := keys_eq_of_perm same (sorted_pairwise all) ordered
  have number := least.number
  have total := whole.length_eq
  have length := (@sorted_perm _ _ _ key kept).length_eq
  have rest := (@sorted_perm _ _ _ key others).length_eq
  rw [List.length_append] at total
  rw [keys, List.map_append]
  rcases Nat.le_total count all.length with fewer | more
  · rw [List.take_left']
    rw [List.length_map]
    omega
  · have nothing : sorted key others = [] := List.eq_nil_of_length_eq_zero (by omega)
    rw [nothing, List.map_nil, List.append_nil, List.take_of_length_le]
    rw [List.length_map]
    omega

theorem sorted_keys_of_perm {first second : List Item} (same : first.Perm second) :
    (sorted key first).map key = (sorted key second).map key :=
  keys_eq_of_perm ((sorted_perm first).trans (same.trans (sorted_perm second).symm))
    (sorted_pairwise first) (sorted_pairwise second)

theorem sorted_subperm {count : Nat} {kept all : List Item} (least : Least key count kept all) :
    (sorted key kept).Subperm all := by
  obtain ⟨others, whole, -⟩ := least.below
  refine (sorted_perm kept).subperm.trans ?_
  exact (List.sublist_append_left kept others).subperm.trans whole.symm.subperm

section Bounded

variable (queue : PriorityQueue Item key)

/-- One more item, and one away where that is one too many. -/
def offer (count : Nat) (heap : queue.Heap) (item : Item) : queue.Heap :=
  let pushed := queue.push heap item
  if count < (queue.items pushed).length then
    match queue.pop pushed with
    | some (_, rest) => rest
    | none => pushed
  else
    pushed

def select (count : Nat) (items : List Item) : queue.Heap :=
  items.foldl (offer queue count) queue.empty

variable {queue} {count : Nat} {heap : queue.Heap} {seen : List Item}

theorem offer_least (least : Least key count (queue.items heap) seen) (item : Item) :
    Least key count (queue.items (offer queue count heap item)) (seen ++ [item]) := by
  obtain ⟨others, whole, below⟩ := least.below
  have number := least.number
  have total := whole.length_eq
  have pushed := queue.items_push heap item
  have length := pushed.length_eq
  rw [List.length_append] at total
  rw [List.length_cons] at length
  have seenAll : (seen ++ [item]).Perm (queue.items (queue.push heap item) ++ others) :=
    List.perm_append_singleton item seen |>.trans
      ((whole.cons item).trans ((pushed.append_right others).symm))
  unfold offer
  dsimp only
  split
  · next full =>
      -- the heap was full before the item came
      cases popped : queue.pop (queue.push heap item) with
      | none =>
          have nothing := queue.pop_none _ popped
          rw [nothing, List.length_nil] at full
          omega
      | some pair =>
          obtain ⟨worst, rest⟩ := pair
          obtain ⟨taken, greatest⟩ := queue.pop_some _ worst rest popped
          have left := taken.length_eq
          rw [List.length_cons] at left
          refine ⟨?_, worst :: others, ?_, ?_⟩
          · rw [List.length_append, List.length_singleton]
            dsimp only
            omega
          · refine seenAll.trans ((taken.append_right others).trans ?_)
            exact List.perm_middle.symm
          · intro kept keptMember other otherMember
            have keptPushed : kept ∈ queue.items (queue.push heap item) :=
              taken.symm.subset (List.mem_cons_of_mem _ keptMember)
            have keptBelow : key kept ≤ key worst := greatest kept keptPushed
            rcases List.mem_cons.mp otherMember with rfl | outside
            · exact keptBelow
            · have exchanged := pushed.symm.trans taken
              rcases List.mem_cons.mp (exchanged.symm.subset (List.mem_cons_self ..)) with
                rfl | old
              · exact below kept (exchanged.cons_inv.symm.subset keptMember) other outside
              · exact le_trans keptBelow (below worst old other outside)
  · next room =>
      have nothing : others = [] := List.eq_nil_of_length_eq_zero (by omega)
      refine ⟨?_, others, seenAll, ?_⟩
      · rw [List.length_append, List.length_singleton]
        omega
      · rw [nothing]
        exact fun _ _ => List.forall_mem_nil _

theorem select_least (count : Nat) (items : List Item) :
    Least key count (queue.items (select queue count items)) items := by
  suffices general : ∀ (heap : queue.Heap) (seen : List Item),
      Least key count (queue.items heap) seen →
      Least key count (queue.items (items.foldl (offer queue count) heap)) (seen ++ items) by
    refine general queue.empty [] ⟨?_, [], ?_, fun _ _ => List.forall_mem_nil _⟩
    · rw [queue.items_empty]
      simp
    · rw [queue.items_empty]
      exact .refl _
  induction items with
  | nil =>
      intro heap seen least
      rw [List.append_nil]
      exact least
  | cons item items induction =>
      intro heap seen least
      have next := induction _ _ (offer_least least item)
      rw [List.append_assoc] at next
      exact next

end Bounded

/-! ## A queue -/

/-- A queue that keeps its items in order, the greatest first. -/
def sortedQueue (key : Item → Key) : PriorityQueue Item key where
  Heap := List Item
  empty := []
  items := id
  push heap item := item :: heap
  pop heap := match (sorted key heap).reverse with
    | [] => none
    | greatest :: rest => some (greatest, rest)
  items_empty := rfl
  items_push := fun _ _ => .refl _
  pop_none := by
    intro heap popped
    split at popped
    · next nothing =>
        have empty := List.reverse_eq_nil_iff.mp nothing
        exact List.Perm.eq_nil (empty ▸ (@sorted_perm _ _ _ key heap).symm)
    · cases popped
  pop_some := by
    intro heap item rest popped
    split at popped
    · cases popped
    · next greatest others reversed =>
        cases popped
        have order := List.pairwise_reverse.mpr (@sorted_pairwise _ _ _ key heap)
        have perm := (List.reverse_perm (sorted key heap)).trans (sorted_perm heap)
        rw [reversed] at order perm
        refine ⟨perm.symm, ?_⟩
        intro other member
        rcases List.mem_cons.mp (perm.symm.subset member) with rfl | behind
        · exact le_refl _
        · exact (List.pairwise_cons.mp order).1 other behind

end TerminalCanvas.Selection
