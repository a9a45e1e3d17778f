import TerminalCanvas.Conversation.ContextText

/-! # The budget of a context

What `context` gives for the references that fit: the messages that fit too and the
references to the others. -/

namespace TerminalCanvas.Conversations

open Fallible Settling

section Phases

variable (codec : Codec) (tables : Tables) (caller : Caller) (thread : Uuid) (ids : List Uuid)
  (budget : Nat)

/-- The part of `context` in front of the messages. -/
def referencesOf : Except StoreError ContextSnapshot := do
  ensure (1024 ≤ budget ∧ budget ≤ maxContextBytes)
    (.message "Presupuesto de contexto fuera de 1–64 KiB")
  ensure (ids.length ≤ 100) (.message "Elegí como máximo 100 mensajes por transferencia")
  let source ← authorize tables caller thread
  let omitted ← ids.foldlM (omitMessage tables thread) ⟨1, source, [], [], budget, 0⟩
  let start := measured codec omitted
  ensure (start.usedBytes ≤ budget)
    (.message "Ni las referencias al historial omitido caben en el presupuesto")
  pure start

def inThreadOrder (context : ContextSnapshot) : ContextSnapshot :=
  { context with
    messages := context.messages.mergeSort (·.sequence ≤ ·.sequence)
    omitted := context.omitted.mergeSort (·.sequence ≤ ·.sequence) }

/-- The part of `context` from the first message on. -/
def quoteMessages (start : ContextSnapshot) : Except StoreError ContextSnapshot := do
  let filled ← ids.foldlM (quoteMessage codec tables caller thread budget) start
  let context := measured codec (inThreadOrder filled)
  ensure (context.usedBytes ≤ budget)
    (.message "Ni las referencias al historial omitido caben en el presupuesto")
  pure context

theorem contextOf_eq : contextOf codec tables caller thread ids budget =
    referencesOf codec tables caller thread ids budget >>=
      quoteMessages codec tables caller thread ids budget := by
  unfold contextOf referencesOf quoteMessages
  simp only [bind_assoc, pure_bind]
  rfl

end Phases

/-! ## The references -/

section References

variable {tables : Tables} {caller : Caller} {thread : Uuid} {ids : List Uuid} {budget : Nat}

/-- The ids are different messages of the thread. -/
structure Selected (tables : Tables) (thread : Uuid) (ids : List Uuid) : Prop where
  distinct : ids.Nodup
  found : ∀ id ∈ ids, ∃ message, tables.messages.find id = some message ∧
    message.conversationId = thread

/-- The snapshot that quotes some of the messages. -/
def snapshotOf (tables : Tables) (source : Conversation) (ids : List Uuid) (budget : Nat)
    (kept : List Uuid) (used : Nat) : ContextSnapshot :=
  { protocolVersion := 1
    source := source
    messages := kept.filterMap tables.messages.find
    omitted := (ids.filter (· ∉ kept)).filterMap fun id =>
      (tables.messages.find id).map (referenceOf id)
    budgetBytes := budget
    usedBytes := used }

theorem foldlM_omitMessage {context result : ContextSnapshot}
    (folds : ids.foldlM (omitMessage tables thread) context = .ok result) :
    Selected tables thread ids ∧ (∀ id ∈ ids, ∀ reference ∈ context.omitted, reference.id ≠ id) ∧
      result = { context with omitted := context.omitted ++ ids.filterMap fun id =>
        (tables.messages.find id).map (referenceOf id) } := by
  induction ids generalizing context with
  | nil =>
      have equal : context = result := pure_eq_ok.mp folds
      refine ⟨⟨List.nodup_nil, by simp⟩, by simp, ?_⟩
      rw [← equal]
      simp
  | cons id ids induction =>
      rw [List.foldlM_cons, bind_eq_ok] at folds
      obtain ⟨middle, omits, rest⟩ := folds
      obtain ⟨selected, fresh, equal⟩ := induction rest
      unfold omitMessage at omits
      rw [ensure_bind_eq_ok, bind_eq_ok] at omits
      obtain ⟨absent, message, lookup, build⟩ := omits
      rw [require_eq_ok, Option.filter_eq_some_iff, decide_eq_true_eq] at lookup
      have built := pure_eq_ok.mp build
      have collected : middle.omitted = context.omitted ++ [referenceOf id message] := by
        rw [← built]
        rfl
      refine ⟨⟨?_, ?_⟩, ?_, ?_⟩
      · refine List.nodup_cons.mpr ⟨?_, selected.distinct⟩
        intro again
        refine fresh id again (referenceOf id message) ?_ rfl
        rw [collected]
        exact List.mem_append_right _ (List.mem_singleton_self _)
      · intro other member
        rcases List.mem_cons.mp member with rfl | member
        · exact ⟨message, lookup⟩
        · exact selected.found other member
      · intro other member reference present
        rcases List.mem_cons.mp member with rfl | member
        · simp only [List.any_eq_false, decide_eq_true_eq] at absent
          exact absent reference present
        · refine fresh other member reference ?_
          rw [collected]
          exact List.mem_append_left _ present
      · rw [equal, collected, ← built, List.filterMap_cons, lookup.1, Option.map_some]
        simp

theorem snapshotOf_nil (source : Conversation) (used : Nat) :
    snapshotOf tables source ids budget [] used = ⟨1, source, [], ids.filterMap fun id =>
      (tables.messages.find id).map (referenceOf id), budget, used⟩ := by
  simp [snapshotOf]

theorem referencesOf_eq_ok {codec : Codec} {start : ContextSnapshot}
    (fit : referencesOf codec.json tables caller thread ids budget = .ok start) :
    (1024 ≤ budget ∧ budget ≤ 65536) ∧ Selected tables thread ids ∧
      ∃ source, authorize tables caller thread = .ok source ∧
        start = measured codec.json (snapshotOf tables source ids budget [] 0) ∧
        start.usedBytes ≤ budget := by
  unfold referencesOf at fit
  rw [ensure_bind_eq_ok, ensure_bind_eq_ok, bind_eq_ok] at fit
  obtain ⟨range, -, source, authorized, collects⟩ := fit
  obtain ⟨omitted, folds, checks⟩ := bind_eq_ok.mp collects
  rw [ensure_bind_eq_ok, pure_eq_ok] at checks
  obtain ⟨selected, -, equal⟩ := foldlM_omitMessage folds
  refine ⟨range, selected, source, authorized, ?_, checks.2 ▸ checks.1⟩
  rw [← checks.2, equal, snapshotOf_nil]
  simp

theorem eraseIdx_reference {left : List Uuid} (distinct : left.Nodup)
    (found : ∀ id ∈ left, ∃ message, tables.messages.find id = some message) {id : Uuid}
    (member : id ∈ left) :
    let references := fun ids : List Uuid => ids.filterMap fun id =>
      (tables.messages.find id).map (referenceOf id)
    ∃ position, (references left).findIdx? (·.id = id) = some position ∧
      (references left).eraseIdx position = references (left.filter (· ≠ id)) := by
  intro references
  induction left with
  | nil => cases member
  | cons head left induction =>
      obtain ⟨message, lookup⟩ := found head (List.mem_cons_self ..)
      rw [List.nodup_cons] at distinct
      have first : references (head :: left) = referenceOf head message :: references left := by
        simp [references, lookup]
      rw [first]
      by_cases own : head = id
      · refine ⟨0, ?_, ?_⟩
        · rw [List.findIdx?_cons, if_pos]
          exact decide_eq_true own
        · have untouched : left.filter (· ≠ id) = left := by
            rw [List.filter_eq_self]
            intro other inside
            refine decide_eq_true ?_
            rintro rfl
            exact distinct.1 (own ▸ inside)
          rw [List.eraseIdx_cons_zero, List.filter_cons_of_neg, untouched]
          simp [own]
      · have inLeft : id ∈ left := List.mem_of_ne_of_mem (Ne.symm own) member
        obtain ⟨position, at', erased⟩ := induction distinct.2
          (fun other inside => found other (List.mem_cons_of_mem _ inside)) inLeft
        refine ⟨position + 1, ?_, ?_⟩
        · rw [List.findIdx?_cons, if_neg, at']
          · rfl
          · simp [referenceOf, own]
        · have stays : (head :: left).filter (· ≠ id) = head :: left.filter (· ≠ id) :=
            List.filter_cons_of_pos (by simp [own])
          rw [List.eraseIdx_cons_succ, erased, stays]
          simp [references, lookup]

theorem quoteMessage_snapshotOf (codec : Codec) {source : Conversation}
    (authorized : authorize tables caller thread = .ok source)
    (selected : Selected tables thread ids) {kept : List Uuid} {used : Nat} {id : Uuid}
    (member : id ∈ ids) (notKept : id ∉ kept) :
    let result := (measured codec.json
      (snapshotOf tables source ids budget (kept ++ [id]) used)).usedBytes
    quoteMessage codec.json tables caller thread budget
      (snapshotOf tables source ids budget kept used) id =
        .ok (if budget < result then snapshotOf tables source ids budget kept result
          else snapshotOf tables source ids budget (kept ++ [id]) result) := by
  intro result
  obtain ⟨message, lookup, inThread⟩ := selected.found id member
  have reads : readMessage tables caller id = .ok (some message) := by
    unfold readMessage
    rw [lookup]
    dsimp only
    rw [inThread, authorized]
  have left : id ∈ ids.filter (· ∉ kept) := List.mem_filter.mpr ⟨member, decide_eq_true notKept⟩
  obtain ⟨position, at', erased⟩ := @eraseIdx_reference tables _
    (selected.distinct.filter _) (fun other inside => by
      obtain ⟨message, lookup, -⟩ := selected.found other (List.mem_filter.mp inside).1
      exact ⟨message, lookup⟩) id left
  have remaining : (ids.filter (· ∉ kept)).filter (· ≠ id) = ids.filter (· ∉ kept ++ [id]) := by
    rw [List.filter_filter]
    refine List.filter_congr fun other _ => ?_
    simp only [List.mem_append, List.mem_singleton, not_or, Bool.decide_and]
    rw [Bool.and_comm]
  have quoted : { snapshotOf tables source ids budget kept used with
      omitted := (snapshotOf tables source ids budget kept used).omitted.eraseIdx position
      messages := (snapshotOf tables source ids budget kept used).messages ++ [message] } =
        snapshotOf tables source ids budget (kept ++ [id]) used := by
    unfold snapshotOf
    dsimp only
    rw [erased, remaining, List.filterMap_append]
    simp [lookup]
  have settled : measured codec.json (snapshotOf tables source ids budget (kept ++ [id]) used) =
      snapshotOf tables source ids budget (kept ++ [id]) result := measured_eq codec _
  unfold quoteMessage
  rw [bind_eq_ok]
  refine ⟨some message, reads, ?_⟩
  rw [bind_eq_ok]
  refine ⟨message, rfl, ?_⟩
  rw [ensure_bind_eq_ok, bind_eq_ok]
  refine ⟨inThread, position, require_eq_ok.mpr at', ?_⟩
  rw [quoted, settled, pure_eq_ok]
  rfl

/-! ## Filling up -/

/-- The length of a snapshot without the digits of its own length. -/
def sizeOf (tables : Tables) (source : Conversation) (ids : List Uuid) (budget : Nat)
    (kept : List Uuid) : Nat :=
  baseBytes (snapshotOf tables source ids budget kept 0)

theorem baseBytes_snapshotOf (tables : Tables) (source : Conversation) (ids : List Uuid)
    (budget : Nat) (kept : List Uuid) (used : Nat) :
    baseBytes (snapshotOf tables source ids budget kept used) =
      sizeOf tables source ids budget kept := by
  unfold sizeOf baseBytes snapshotOf
  rfl

theorem settlesAt_snapshotOf (codec : Codec) (tables : Tables) (source : Conversation)
    (ids : List Uuid) (budget : Nat) (kept : List Uuid) (used : Nat) :
    SettlesAt (lengthWith (sizeOf tables source ids budget kept)) used
      (measured codec.json (snapshotOf tables source ids budget kept used)).usedBytes := by
  have settles := settlesAt_measured codec (snapshotOf tables source ids budget kept used)
  rwa [baseBytes_snapshotOf] at settles

/-- A snapshot of 9995 bytes has two lengths with its digits, 9999 and 10000. Behind a
message that did not fit the longer one is found. -/
def takeMessage (size : List Uuid → Nat) (state : List Uuid × Bool) (id : Uuid) :
    List Uuid × Bool :=
  if size (state.1 ++ [id]) ≤ if state.2 then 9994 else 9995 then
    (state.1 ++ [id], false)
  else
    (state.1, true)

/-- What is kept fits, and its length is known unless a message was left out last. -/
structure Filling (size : List Uuid → Nat) (budget : Nat) (kept : List Uuid) (used : Nat) :
    Prop where
  fits : ∃ length ≤ budget, lengthWith (size kept) length = length
  exact : used ≤ budget → lengthWith (size kept) used = used

theorem digits_eq_four {value : Nat} (low : 1000 ≤ value) (high : value < 10000) :
    digits value = 4 := by
  have upper := (@digits_le_iff value 4 (by decide)).mpr high
  have lower : ¬ digits value ≤ 3 := by
    rw [digits_le_iff (by decide)]
    omega
  omega

theorem digits_eq_five {value : Nat} (low : 10000 ≤ value) (high : value < 100000) :
    digits value = 5 := by
  have upper := (@digits_le_iff value 5 (by decide)).mpr high
  have lower : ¬ digits value ≤ 4 := by
    rw [digits_le_iff (by decide)]
    omega
  omega

theorem fits_iff {base used result : Nat} (settles : SettlesAt (lengthWith base) used result) :
    result ≤ 9999 ↔ base ≤ if 9999 < used then 9994 else 9995 := by
  have fixed : base + digits result = result := settles.fixed
  have half := digits_le_half result
  have below : base < 9996 → lengthWith base 9999 ≤ 9999 := by
    intro small
    have four := @digits_eq_four 9999 (by decide) (by decide)
    unfold lengthWith
    omega
  constructor
  · intro fits
    have small : base ≤ 9995 := by
      by_contra large
      have four := @digits_eq_four result (by omega) (by omega)
      omega
    split
    · next behind =>
        by_contra exactly
        have five := @digits_eq_five 10000 (by decide) (by decide)
        have raises : 10000 ≤ lengthWith base 10000 := by
          unfold lengthWith
          omega
        have found := settles.greatest 10000 raises (by omega)
        omega
    · exact small
  · split
    · intro small
      by_contra large
      by_cases five : result < 100000
      · have digitsFive := @digits_eq_five result (by omega) five
        omega
      · omega
    · intro small
      exact settles.least 9999 (below (by omega)) (by omega)

variable {size : List Uuid → Nat}

theorem Filling.step {kept : List Uuid} {used result : Nat} {id : Uuid}
    (filling : Filling size budget kept used)
    (settles : SettlesAt (lengthWith (size (kept ++ [id]))) used result) :
    if budget < result then Filling size budget kept result
      else Filling size budget (kept ++ [id]) result := by
  split
  · next large => exact ⟨filling.fits, fun small => absurd small (Nat.not_le_of_lt large)⟩
  · next small => exact ⟨⟨result, Nat.le_of_not_lt small, settles.fixed⟩, fun _ => settles.fixed⟩

theorem takeMessage_eq {kept : List Uuid} {used result : Nat} {id : Uuid}
    (settles : SettlesAt (lengthWith (size (kept ++ [id]))) used result) :
    takeMessage size (kept, decide (9999 < used)) id =
      (if 9999 < result then kept else kept ++ [id], decide (9999 < result)) := by
  have fits := fits_iff settles
  unfold takeMessage
  simp only [decide_eq_true_eq]
  by_cases large : 9999 < result
  · rw [if_neg (fun small => Nat.not_le_of_lt large (fits.mpr small)), if_pos large,
      decide_eq_true large]
  · rw [if_pos (fits.mp (Nat.le_of_not_lt large)), if_neg large, decide_eq_false large]

theorem foldlM_quoteMessage (codec : Codec) {source : Conversation}
    (authorized : authorize tables caller thread = .ok source)
    (selected : Selected tables thread ids) {todo kept : List Uuid} {used : Nat}
    (distinct : todo.Nodup) (within : ∀ id ∈ todo, id ∈ ids) (apart : ∀ id ∈ todo, id ∉ kept)
    (filling : Filling (sizeOf tables source ids budget) budget kept used) :
    ∃ more used', todo.foldlM (quoteMessage codec.json tables caller thread budget)
        (snapshotOf tables source ids budget kept used) =
          .ok (snapshotOf tables source ids budget (kept ++ more) used') ∧
      more.Sublist todo ∧ Filling (sizeOf tables source ids budget) budget (kept ++ more) used' ∧
      (budget = 9999 → (kept ++ more, decide (9999 < used')) =
        todo.foldl (takeMessage (sizeOf tables source ids budget))
          (kept, decide (9999 < used))) := by
  induction todo generalizing kept used with
  | nil =>
      refine ⟨[], used, ?_, .slnil, ?_, ?_⟩
      · rw [List.append_nil]
        rfl
      · rw [List.append_nil]
        exact filling
      · intro _
        rw [List.append_nil]
        rfl
  | cons id todo induction =>
      rw [List.nodup_cons] at distinct
      have quotes := @quoteMessage_snapshotOf _ _ _ _ budget codec _ authorized selected _ used _
        (within id (List.mem_cons_self ..)) (apart id (List.mem_cons_self ..))
      have settles := settlesAt_snapshotOf codec tables source ids budget (kept ++ [id]) used
      have next := filling.step settles
      generalize (measured codec.json
        (snapshotOf tables source ids budget (kept ++ [id]) used)).usedBytes = result
        at quotes settles next
      have later : ∀ other ∈ todo, other ∈ ids := fun other member =>
        within other (List.mem_cons_of_mem _ member)
      by_cases large : budget < result
      · simp only [if_pos large] at quotes next
        obtain ⟨more, used', folds, sub, filled, greedy⟩ := induction distinct.2 later
          (fun other member => apart other (List.mem_cons_of_mem _ member)) next
        refine ⟨more, used', ?_, sub.cons _, filled, ?_⟩
        · rw [List.foldlM_cons, bind_eq_ok]
          exact ⟨_, quotes, folds⟩
        · intro special
          rw [special] at large
          rw [greedy special, List.foldl_cons, takeMessage_eq settles, if_pos large]
      · simp only [if_neg large] at quotes next
        have notTwice : ∀ other ∈ todo, other ∉ kept ++ [id] := by
          intro other member inside
          rcases List.mem_append.mp inside with inside | inside
          · exact apart other (List.mem_cons_of_mem _ member) inside
          · rw [List.mem_singleton.mp inside] at member
            exact distinct.1 member
        obtain ⟨more, used', folds, sub, filled, greedy⟩ :=
          induction distinct.2 later notTwice next
        rw [List.append_assoc, List.singleton_append] at folds filled greedy
        refine ⟨id :: more, used', ?_, sub.cons_cons _, filled, ?_⟩
        · rw [List.foldlM_cons, bind_eq_ok]
          exact ⟨_, quotes, folds⟩
        · intro special
          rw [special] at large
          rw [greedy special, List.foldl_cons, takeMessage_eq settles, if_neg large]

/-! ## Results -/

/-- A snapshot of the requested messages: the quoted ones and the references to the others
are theirs, each once, in the order of the thread, and its length is reported exactly. -/
structure Sound (tables : Tables) (thread : Uuid) (ids : List Uuid) (budget : Nat)
    (kept left : List Uuid) (result : ContextSnapshot) : Prop where
  partition : (kept ++ left).Perm ids
  distinct : ids.Nodup
  keptInOrder : kept.Sublist ids
  leftInOrder : left.Sublist ids
  found : ∀ id ∈ ids, ∃ message, tables.messages.find id = some message ∧
    message.conversationId = thread
  messages : result.messages.Perm (kept.filterMap tables.messages.find)
  omitted : result.omitted.Perm (left.filterMap fun id =>
    (tables.messages.find id).map (referenceOf id))
  messagesSorted : result.messages.Pairwise fun first second => first.sequence ≤ second.sequence
  omittedSorted : result.omitted.Pairwise fun first second => first.sequence ≤ second.sequence
  requestedOrder : ((ids.filterMap tables.messages.find).Pairwise fun first second =>
      first.sequence ≤ second.sequence) →
    result.messages = kept.filterMap tables.messages.find ∧
      result.omitted = left.filterMap fun id => (tables.messages.find id).map (referenceOf id)
  exact : result.usedBytes = Json.byteLength (contextValue result)
  fits : result.usedBytes ≤ budget

/-- The references fit exactly into 9999 bytes with the messages that are taken in turn, and
the last message is not among these. -/
def Stranded (tables : Tables) (caller : Caller) (thread : Uuid) (ids : List Uuid)
    (budget : Nat) : Prop :=
  budget = 9999 ∧ ∃ source, authorize tables caller thread = .ok source ∧
    ∃ kept, ids.foldl (takeMessage (sizeOf tables source ids budget)) ([], false) = (kept, true) ∧
      sizeOf tables source ids budget kept = 9995

theorem sorted_mergeSort {Item : Type} (sequence : Item → Nat) (items : List Item) :
    (items.mergeSort (sequence · ≤ sequence ·)).Pairwise fun first second =>
      sequence first ≤ sequence second := by
  have sorted := @List.pairwise_mergeSort _ (fun first second =>
    decide (sequence first ≤ sequence second)) (by
      intro first second third before after
      simp only [decide_eq_true_eq] at before after ⊢
      exact le_trans before after) (by
      intro first second
      simp only [Bool.or_eq_true, decide_eq_true_eq]
      exact Nat.le_total _ _) items
  exact sorted.imp fun before => of_decide_eq_true before

theorem mergeSort_sorted {Item : Type} {sequence : Item → Nat} {items : List Item}
    (sorted : items.Pairwise fun first second => sequence first ≤ sequence second) :
    items.mergeSort (sequence · ≤ sequence ·) = items :=
  List.mergeSort_of_pairwise (sorted.imp fun before => decide_eq_true before)

theorem sound_inThreadOrder {codec : Codec} {source : Conversation} {kept : List Uuid}
    {used : Nat} (selected : Selected tables thread ids) (keptInOrder : kept.Sublist ids)
    (fits : (measured codec.json (inThreadOrder
      (snapshotOf tables source ids budget kept used))).usedBytes ≤ budget) :
    Sound tables thread ids budget kept (ids.filter (· ∉ kept))
      (measured codec.json (inThreadOrder (snapshotOf tables source ids budget kept used))) := by
  let result := measured codec.json
    (inThreadOrder (snapshotOf tables source ids budget kept used))
  have messages : result.messages =
      (kept.filterMap tables.messages.find).mergeSort (·.sequence ≤ ·.sequence) := by
    unfold result
    rw [measured_eq]
    rfl
  have omitted : result.omitted = ((ids.filter (· ∉ kept)).filterMap fun id =>
      (tables.messages.find id).map (referenceOf id)).mergeSort (·.sequence ≤ ·.sequence) := by
    unfold result
    rw [measured_eq]
    rfl
  have leftInOrder : (ids.filter (· ∉ kept)).Sublist ids := List.filter_sublist
  refine ⟨?_, selected.distinct, keptInOrder, leftInOrder, selected.found, ?_, ?_, ?_, ?_, ?_,
    measured_exact codec _, fits⟩
  · have apart : (kept ++ ids.filter (· ∉ kept)).Nodup := by
      refine List.nodup_append.mpr
        ⟨selected.distinct.sublist keptInOrder, selected.distinct.filter _, ?_⟩
      rintro id keeps _ leaves rfl
      exact of_decide_eq_true (List.mem_filter.mp leaves).2 keeps
    refine (List.perm_ext_iff_of_nodup apart selected.distinct).mpr fun id => ?_
    rw [List.mem_append, List.mem_filter, decide_eq_true_eq]
    have keeps : id ∈ kept → id ∈ ids := fun member => keptInOrder.subset member
    by_cases inKept : id ∈ kept
    · simp [inKept, keeps inKept]
    · simp [inKept]
  · rw [messages]
    exact List.mergeSort_perm _ _
  · rw [omitted]
    exact List.mergeSort_perm _ _
  · rw [messages]
    exact sorted_mergeSort ConversationMessage.sequence _
  · rw [omitted]
    exact sorted_mergeSort MessageReference.sequence _
  · intro sorted
    constructor
    · rw [messages]
      exact @mergeSort_sorted _ ConversationMessage.sequence _
        (sorted.sublist (keptInOrder.filterMap _))
    · rw [omitted]
      refine @mergeSort_sorted _ MessageReference.sequence _ ?_
      rw [List.pairwise_filterMap] at sorted ⊢
      refine (sorted.sublist leftInOrder).imp ?_
      intro first second inOrder reference isFirst other isSecond
      obtain ⟨message, lookup, rfl⟩ := Option.map_eq_some_iff.mp isFirst
      obtain ⟨next, nextLookup, rfl⟩ := Option.map_eq_some_iff.mp isSecond
      exact inOrder message lookup next nextLookup

theorem settlesAt_inThreadOrder (codec : Codec) (tables : Tables) (source : Conversation)
    (ids : List Uuid) (budget : Nat) (kept : List Uuid) (used : Nat) :
    SettlesAt (lengthWith (sizeOf tables source ids budget kept)) used (measured codec.json
      (inThreadOrder (snapshotOf tables source ids budget kept used))).usedBytes := by
  have settles := settlesAt_measured codec
    (inThreadOrder (snapshotOf tables source ids budget kept used))
  have base : baseBytes (inThreadOrder (snapshotOf tables source ids budget kept used)) =
      sizeOf tables source ids budget kept := by
    rw [← baseBytes_snapshotOf tables source ids budget kept used]
    exact baseBytes_perm (List.mergeSort_perm _ _) (List.mergeSort_perm _ _)
  rwa [base] at settles

theorem final_fits_iff {kept : List Uuid} {used result : Nat} {size : List Uuid → Nat}
    (range : 1024 ≤ budget ∧ budget ≤ 65536) (filling : Filling size budget kept used)
    (settles : SettlesAt (lengthWith (size kept)) used result) :
    result ≤ budget ↔ ¬ (budget = 9999 ∧ 9999 < used ∧ size kept = 9995) := by
  have fixed : size kept + digits result = result := settles.fixed
  constructor
  · rintro fits ⟨special, behind, exactly⟩
    have five := @digits_eq_five 10000 (by decide) (by decide)
    have raises : 10000 ≤ lengthWith (size kept) 10000 := by
      unfold lengthWith
      omega
    have found := settles.greatest 10000 raises (by omega)
    omega
  · intro notStranded
    by_contra large
    have behind : budget < used := by
      by_contra known
      have same := settles.stays (filling.exact (by omega))
      omega
    obtain ⟨length, small, lengthFixed⟩ := filling.fits
    have lengthFixed : size kept + digits length = length := lengthFixed
    have positive := digits_pos length
    have half := digits_le_half result
    by_cases four : result < 10000
    · have resultFour := digits_eq_four (by omega) four
      have lengthFour := @digits_eq_four length (by omega) (by omega)
      omega
    by_cases five : result < 100000
    · have resultFive := digits_eq_five (by omega) five
      by_cases short : length < 10000
      · have lengthFour := digits_eq_four (by omega) short
        omega
      · have lengthFive := @digits_eq_five length (by omega) (by omega)
        omega
    · have lengthFive := @digits_eq_five length (by omega) (by omega)
      have resultSix := (@digits_le_iff result 6 (by decide)).mpr (by omega)
      omega

theorem contextOf_of_references {codec : Codec} {start : ContextSnapshot}
    (references : referencesOf codec.json tables caller thread ids budget = .ok start) :
    (¬ Stranded tables caller thread ids budget →
      ∃ result kept left, contextOf codec.json tables caller thread ids budget = .ok result ∧
        Sound tables thread ids budget kept left result) ∧
    (Stranded tables caller thread ids budget →
      ∀ result, contextOf codec.json tables caller thread ids budget ≠ .ok result) := by
  obtain ⟨range, selected, source, authorized, measuredStart, small⟩ :=
    referencesOf_eq_ok references
  have settles := settlesAt_snapshotOf codec tables source ids budget [] 0
  rw [measuredStart] at small
  have filling : Filling (sizeOf tables source ids budget) budget [] _ :=
    ⟨⟨_, small, settles.fixed⟩, fun _ => settles.fixed⟩
  obtain ⟨kept, used, folds, inOrder, filled, greedy⟩ := foldlM_quoteMessage codec authorized
    selected selected.distinct (fun _ member => member) (fun _ _ => List.not_mem_nil) filling
  rw [List.nil_append] at folds filled greedy
  have final := settlesAt_inThreadOrder codec tables source ids budget kept used
  have fits := final_fits_iff range filled final
  have stranded : Stranded tables caller thread ids budget ↔
      budget = 9999 ∧ 9999 < used ∧ sizeOf tables source ids budget kept = 9995 := by
    constructor
    · rintro ⟨special, other, otherAuthorized, last, taken, exactly⟩
      obtain rfl : source = other := Except.ok.inj (authorized.symm.trans otherAuthorized)
      have known : decide (9999 < (measured codec.json
          (snapshotOf tables source ids budget [] 0)).usedBytes) = false :=
        decide_eq_false (by omega)
      have chosen := greedy special
      rw [known, taken, Prod.mk.injEq, decide_eq_true_eq] at chosen
      exact ⟨special, chosen.2, chosen.1 ▸ exactly⟩
    · rintro ⟨special, behind, exactly⟩
      refine ⟨special, source, authorized, kept, ?_, exactly⟩
      have known : decide (9999 < (measured codec.json
          (snapshotOf tables source ids budget [] 0)).usedBytes) = false :=
        decide_eq_false (by omega)
      have chosen := greedy special
      rw [known, decide_eq_true behind] at chosen
      exact chosen.symm
  have begins : start = snapshotOf tables source ids budget []
      (measured codec.json (snapshotOf tables source ids budget [] 0)).usedBytes := by
    rw [measuredStart]
    exact measured_eq codec _
  have given : contextOf codec.json tables caller thread ids budget =
      quoteMessages codec.json tables caller thread ids budget start := by
    rw [contextOf_eq, references]
    rfl
  rw [begins] at given
  rw [stranded, given]
  unfold quoteMessages
  constructor
  · intro notStranded
    have small := fits.mpr notStranded
    refine ⟨_, kept, _, ?_, sound_inThreadOrder selected inOrder small⟩
    rw [bind_eq_ok]
    refine ⟨_, folds, ?_⟩
    rw [ensure_bind_eq_ok]
    exact ⟨small, rfl⟩
  · intro isStranded result succeeds
    rw [bind_eq_ok] at succeeds
    obtain ⟨filledUp, sameFolds, checks⟩ := succeeds
    rw [folds, Except.ok.injEq] at sameFolds
    rw [← sameFolds, ensure_bind_eq_ok] at checks
    exact fits.mp checks.1 isStranded

/-- Once the references fit, a sound snapshot is given, except for a stranded request. -/
theorem context_sound_iff (codec : Codec) (tables : Tables) (caller : Caller) (thread : Uuid)
    (ids : List Uuid) (budget : Nat) :
    (∀ context, ∃ result, Measures codec.json context result) ∧
      (((∃ start, referencesOf codec.json tables caller thread ids budget = .ok start) →
          ∃ result kept left, contextOf codec.json tables caller thread ids budget = .ok result ∧
            Sound tables thread ids budget kept left result) ↔
        ¬ ((∃ start, referencesOf codec.json tables caller thread ids budget = .ok start) ∧
          Stranded tables caller thread ids budget)) := by
  refine ⟨fun context => ⟨_, measures_measured codec context⟩, ?_, ?_⟩
  · rintro given ⟨⟨start, references⟩, stranded⟩
    obtain ⟨result, kept, left, succeeds, -⟩ := given ⟨start, references⟩
    exact (contextOf_of_references references).2 stranded result succeeds
  · rintro notStranded ⟨start, references⟩
    exact (contextOf_of_references references).1 fun stranded =>
      notStranded ⟨⟨start, references⟩, stranded⟩

/-! ## A stranded request -/

def wideThread (width : Nat) : Conversation :=
  ⟨Uuid.fromU128 1, Uuid.fromU128 2, Uuid.fromU128 3, "", none,
    some (String.ofList (List.replicate width 'a')), none, none, none, none⟩

def onlyMessage : ConversationMessage :=
  ⟨Uuid.fromU128 4, 1, Uuid.fromU128 1, .user, "hola", "app", ⟨none, none⟩, 0⟩

def wideTables (width : Nat) : Tables :=
  { Tables.empty with
    conversations := Tables.empty.conversations.put (Uuid.fromU128 1) (wideThread width)
    messages := Tables.empty.messages.put (Uuid.fromU128 4) onlyMessage
    lastSequence := 1 }

theorem byteLength_wideThread (width : Nat) :
    Json.byteLength (conversationValue (wideThread width)) =
      Json.byteLength (conversationValue (wideThread 0)) + width := by
  have cwd : ∀ width, Json.byteLength (Json.string
      (String.ofList (List.replicate width 'a')).toList) = width + 2 := by
    intro width
    rw [String.toList_ofList, Json.byteLength_string_of_plain, List.length_replicate]
    intro character member
    rw [List.eq_of_mem_replicate member]
    decide
  unfold conversationValue wideThread Json.optional textValue
  rw [Json.byteLength_object, Json.byteLength_object]
  simp only [List.map_cons, List.map_nil, List.sum_cons, List.sum_nil, List.length_cons,
    List.length_nil, Json.byteLength_member "cwd", cwd]
  omega

theorem sizeOf_wideTables (width : Nat) (kept : List Uuid) :
    sizeOf (wideTables width) (wideThread width) [Uuid.fromU128 4] 9999 kept =
      sizeOf (wideTables 0) (wideThread 0) [Uuid.fromU128 4] 9999 kept + width := by
  have wide := byteLength_wideThread width
  have messages : (wideTables width).messages = (wideTables 0).messages := rfl
  unfold sizeOf baseBytes snapshotOf
  rw [messages, Json.byteLength_member "source", Json.byteLength_member "source"]
  dsimp only
  rw [wide]
  omega

theorem sizeOf_wide :
    sizeOf (wideTables 9544) (wideThread 9544) [Uuid.fromU128 4] 9999 [] = 9995 ∧
      sizeOf (wideTables 9544) (wideThread 9544) [Uuid.fromU128 4] 9999 [Uuid.fromU128 4] =
        10138 := by
  have narrow : sizeOf (wideTables 0) (wideThread 0) [Uuid.fromU128 4] 9999 [] = 451 := by
    decide +kernel
  have quoted : sizeOf (wideTables 0) (wideThread 0) [Uuid.fromU128 4] 9999 [Uuid.fromU128 4] =
      594 := by
    decide +kernel
  rw [sizeOf_wideTables 9544 [], sizeOf_wideTables 9544 [Uuid.fromU128 4], narrow, quoted]
  decide

theorem authorize_wideThread (width : Nat) :
    authorize (wideTables width) .user (Uuid.fromU128 1) = .ok (wideThread width) := rfl

theorem stranded_wide :
    Stranded (wideTables 9544) .user (Uuid.fromU128 1) [Uuid.fromU128 4] 9999 := by
  refine ⟨rfl, wideThread 9544, authorize_wideThread 9544, [], ?_, sizeOf_wide.1⟩
  rw [List.foldl_cons, List.foldl_nil, takeMessage]
  dsimp only
  rw [List.nil_append, sizeOf_wide.2]
  decide

def anyCodec : Codec := ⟨fun _ => [], fun _ _ => "", fun _ => 0, fun _ => ""⟩

theorem references_wide : ∃ start, referencesOf anyCodec.json (wideTables 9544) .user
    (Uuid.fromU128 1) [Uuid.fromU128 4] 9999 = .ok start := by
  have settles := settlesAt_snapshotOf anyCodec (wideTables 9544) (wideThread 9544)
    [Uuid.fromU128 4] 9999 [] 0
  have fits := (fits_iff settles).mpr (by rw [sizeOf_wide.1]; decide)
  refine ⟨measured anyCodec.json
    (snapshotOf (wideTables 9544) (wideThread 9544) [Uuid.fromU128 4] 9999 [] 0), ?_⟩
  unfold referencesOf
  rw [ensure_bind_eq_ok, ensure_bind_eq_ok, bind_eq_ok]
  refine ⟨by decide, by decide, _, authorize_wideThread 9544, ?_⟩
  rw [bind_eq_ok]
  refine ⟨snapshotOf (wideTables 9544) (wideThread 9544) [Uuid.fromU128 4] 9999 [] 0, ?_, ?_⟩
  · rfl
  · rw [ensure_bind_eq_ok]
    exact ⟨fits, rfl⟩

/-- The references fit, and no context is given. -/
theorem references_fit_without_context :
    (∃ start, referencesOf anyCodec.json (wideTables 9544) .user (Uuid.fromU128 1)
      [Uuid.fromU128 4] 9999 = .ok start) ∧
    ¬ ∃ result, contextOf anyCodec.json (wideTables 9544) .user (Uuid.fromU128 1)
      [Uuid.fromU128 4] 9999 = .ok result := by
  obtain ⟨start, references⟩ := references_wide
  refine ⟨⟨start, references⟩, ?_⟩
  rintro ⟨result, succeeds⟩
  exact (contextOf_of_references references).2 stranded_wide result succeeds

end References

end TerminalCanvas.Conversations
