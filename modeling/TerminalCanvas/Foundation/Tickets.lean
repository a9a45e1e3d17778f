import Mathlib.Data.List.Basic

/-! # Tickets

Whoever hands an item over gets a ticket, and a channel on which at most one result of
the item arrives. The holder of a ticket may give it up. -/

namespace TerminalCanvas

/-- The channel of a ticket: its sender is alive, has sent, or is gone without a word;
a result that was taken leaves nothing behind. -/
inductive Channel (Failure : Type) where
  | waiting
  | sent (result : Except Failure Unit)
  | closed
  | taken (result : Except Failure Unit)

def Channel.Accepted {Failure : Type} : Channel Failure → Prop
  | .sent (.ok ()) | .taken (.ok ()) => True
  | _ => False

structure Receipt (Item Failure : Type) where
  item : Item
  channel : Channel Failure
  held : Bool
  cancelled : Bool

/-- A receipt whose result was taken has been given up. -/
def Receipt.Discarded {Item Failure : Type} (receipt : Receipt Item Failure) : Prop :=
  ∀ result, receipt.channel = .taken result → receipt.cancelled = true

/-- What a look at the channel finds; `lost` stands for a sender that is gone. -/
def Receipt.look {Item Failure : Type} (lost : Failure)
    (receipt : Receipt Item Failure) :
    Option (Except Failure Unit) :=
  if receipt.held then
    match receipt.channel with
    | .waiting | .taken _ => none
    | .sent result => some result
    | .closed => some (.error lost)
  else
    none

abbrev Receipts (Item Failure : Type) := List (Receipt Item Failure)

namespace Receipts

variable {Item Failure : Type}

def channel (receipts : Receipts Item Failure) (ticket : Nat) : Option (Channel Failure) :=
  receipts[ticket]?.map Receipt.channel

def cancelled (receipts : Receipts Item Failure) (ticket : Nat) : Bool :=
  receipts[ticket]?.any Receipt.cancelled

def item (receipts : Receipts Item Failure) (ticket : Nat) : Option Item :=
  receipts[ticket]?.map Receipt.item

def received (receipts : Receipts Item Failure) (ticket : Nat) (result : Except Failure Unit) :
    Prop :=
  receipts.channel ticket = some (.taken result)

def issue (receipts : Receipts Item Failure) (item : Item) : Receipts Item Failure :=
  receipts ++ [⟨item, .waiting, true, false⟩]

def resolve (receipts : Receipts Item Failure) (ticket : Nat) (result : Except Failure Unit) :
    Receipts Item Failure :=
  receipts.modify ticket fun receipt => { receipt with channel := .sent result }

def close (receipts : Receipts Item Failure) (ticket : Nat) : Receipts Item Failure :=
  receipts.modify ticket fun receipt => { receipt with channel := .closed }

def drop (receipts : Receipts Item Failure) (ticket : Nat) : Receipts Item Failure :=
  receipts.modify ticket fun receipt =>
    if receipt.held then { receipt with held := false, cancelled := true } else receipt

/-- The ticket is given up without cancelling the item. -/
def detach (receipts : Receipts Item Failure) (ticket : Nat) : Receipts Item Failure :=
  receipts.modify ticket fun receipt => { receipt with held := false }

/-- A result is taken once, and the ticket is given up with it. -/
def poll (lost : Failure) (receipts : Receipts Item Failure) (ticket : Nat) :
    Option (Except Failure Unit) × Receipts Item Failure :=
  match receipts[ticket]?.bind (Receipt.look lost) with
  | none => (none, receipts)
  | some result =>
      (some result, receipts.modify ticket fun receipt =>
        { receipt with channel := .taken result, held := false, cancelled := true })

/-! ## Accepted items -/

/-- The tickets of the accepted items, in the order of their acceptance. -/
structure Tracks (receipts : Receipts Item Failure) (accepted : List Nat) : Prop where
  once : accepted.Nodup
  settled : ∀ ticket, ticket ∈ accepted ↔
    ∃ channel, receipts.channel ticket = some channel ∧ channel.Accepted
  discarded : ∀ (ticket : Nat) receipt, receipts[ticket]? = some receipt → receipt.Discarded

variable {receipts : Receipts Item Failure} {accepted : List Nat} {ticket other : Nat}

theorem tracks_nil : Tracks ([] : Receipts Item Failure) [] where
  once := List.nodup_nil
  settled ticket := by simp [channel]
  discarded ticket receipt present := by simp at present

theorem channel_modify_of_ne (change : Receipt Item Failure → Receipt Item Failure)
    (different : ticket ≠ other) :
    channel (receipts.modify ticket change) other = receipts.channel other := by
  simp [channel, different]

theorem channel_modify (change : Receipt Item Failure → Receipt Item Failure) :
    channel (receipts.modify ticket change) ticket =
      receipts[ticket]?.map fun receipt => (change receipt).channel := by
  simp [channel, Option.map_map, Function.comp_def]

theorem discarded_modify {change : Receipt Item Failure → Receipt Item Failure}
    (discarded : ∀ (other : Nat) receipt, receipts[other]? = some receipt → receipt.Discarded)
    (discards : ∀ receipt, receipt.Discarded → (change receipt).Discarded) :
    ∀ (other : Nat) receipt, (receipts.modify ticket change)[other]? = some receipt →
      receipt.Discarded := by
  intro other receipt present
  rw [List.getElem?_modify] at present
  obtain ⟨old, found, rfl⟩ := Option.map_eq_some_iff.mp present
  split
  · exact discards old (discarded other old found)
  · exact discarded other old found

theorem Tracks.modify (tracks : Tracks receipts accepted)
    (change : Receipt Item Failure → Receipt Item Failure)
    (keeps : ∀ receipt, receipts[ticket]? = some receipt →
      ((change receipt).channel.Accepted ↔ receipt.channel.Accepted))
    (discards : ∀ receipt, receipt.Discarded → (change receipt).Discarded) :
    Tracks (receipts.modify ticket change) accepted where
  once := tracks.once
  discarded := discarded_modify tracks.discarded discards
  settled other := by
    rw [tracks.settled]
    by_cases same : ticket = other
    · subst same
      rw [channel_modify, channel]
      cases present : receipts[ticket]? with
      | none => simp
      | some receipt => simpa using (keeps receipt present).symm
    · rw [channel_modify_of_ne change same]

theorem channel_issue (receipts : Receipts Item Failure) (item : Item) :
    (receipts.issue item).channel receipts.length = some .waiting := by
  simp [issue, channel]

theorem channel_issue_of_ne (item : Item) (different : ticket ≠ receipts.length) :
    (receipts.issue item).channel ticket = receipts.channel ticket := by
  simp only [issue, channel]
  rcases Nat.lt_or_gt_of_ne different with issued | later
  · rw [List.getElem?_append_left issued]
  · rw [List.getElem?_eq_none (by simp; omega), List.getElem?_eq_none (by omega)]

theorem Tracks.issue (tracks : Tracks receipts accepted) (item : Item) :
    Tracks (receipts.issue item) accepted where
  once := tracks.once
  settled ticket := by
    rw [tracks.settled]
    by_cases fresh : ticket = receipts.length
    · subst fresh
      rw [channel_issue]
      simp [channel, Channel.Accepted]
    · rw [channel_issue_of_ne item fresh]
  discarded ticket receipt present := by
    rw [Receipts.issue, List.getElem?_append] at present
    split at present
    · exact tracks.discarded ticket receipt present
    · rw [List.getElem?_singleton] at present
      split at present
      · obtain rfl := Option.some.inj present
        intro result taken
        cases taken
      · cases present

theorem getElem?_channel {receipt : Receipt Item Failure}
    (present : receipts[ticket]? = some receipt) :
    receipts.channel ticket = some receipt.channel := by
  simp [channel, present]

theorem Tracks.not_mem_of_waiting (tracks : Tracks receipts accepted)
    (waiting : receipts.channel ticket = some .waiting) : ticket ∉ accepted := by
  rw [tracks.settled, waiting]
  rintro ⟨channel, equal, accepts⟩
  obtain rfl := Option.some.inj equal
  exact accepts

theorem discarded_resolve {result : Except Failure Unit} (receipt : Receipt Item Failure)
    (_ : receipt.Discarded) : ({ receipt with channel := .sent result }).Discarded := by
  intro taken equal
  cases equal

theorem Tracks.refuse (tracks : Tracks receipts accepted)
    (waiting : receipts.channel ticket = some .waiting) (failure : Failure) :
    Tracks (receipts.resolve ticket (.error failure)) accepted := by
  refine tracks.modify _ (fun receipt present => ?_) discarded_resolve
  rw [getElem?_channel present] at waiting
  simp [Option.some.inj waiting, Channel.Accepted]

theorem Tracks.close (tracks : Tracks receipts accepted)
    (waiting : receipts.channel ticket = some .waiting) :
    Tracks (receipts.close ticket) accepted := by
  refine tracks.modify _ (fun receipt present => ?_) fun receipt _ result equal => ?_
  · rw [getElem?_channel present] at waiting
    simp [Option.some.inj waiting, Channel.Accepted]
  · cases equal

theorem Tracks.accept (tracks : Tracks receipts accepted)
    (waiting : receipts.channel ticket = some .waiting) :
    Tracks (receipts.resolve ticket (.ok ())) (accepted ++ [ticket]) where
  once := by
    rw [List.nodup_append]
    refine ⟨tracks.once, by simp, fun old member new last equal => ?_⟩
    rw [List.mem_singleton] at last
    exact tracks.not_mem_of_waiting waiting (last ▸ equal ▸ member)
  discarded := discarded_modify tracks.discarded discarded_resolve
  settled other := by
    rw [List.mem_append, List.mem_singleton, tracks.settled, resolve]
    by_cases same : ticket = other
    · subst same
      rw [channel_modify]
      rw [channel, Option.map_eq_some_iff] at waiting
      obtain ⟨receipt, present, _⟩ := waiting
      simp [present, Channel.Accepted]
    · rw [channel_modify_of_ne _ same]
      simp [Ne.symm same]

theorem Tracks.drop (tracks : Tracks receipts accepted) (ticket : Nat) :
    Tracks (receipts.drop ticket) accepted := by
  refine tracks.modify _ (fun receipt _ => ?_) fun receipt discarded => ?_
  · split <;> rfl
  · split
    · exact fun _ _ => rfl
    · exact discarded

theorem Tracks.detach (tracks : Tracks receipts accepted) (ticket : Nat) :
    Tracks (receipts.detach ticket) accepted :=
  tracks.modify _ (fun _ _ => Iff.rfl) fun _ discarded => discarded

theorem look_accepted {lost : Failure} {receipt : Receipt Item Failure}
    {result : Except Failure Unit} (found : receipt.look lost = some result) :
    receipt.channel ≠ .waiting ∧
      (Channel.Accepted (.taken result : Channel Failure) ↔ receipt.channel.Accepted) := by
  unfold Receipt.look at found
  split at found
  case isFalse => cases found
  case isTrue =>
    cases status : receipt.channel with
    | waiting => simp [status] at found
    | taken earlier => simp [status] at found
    | sent earlier =>
        simp only [status, Option.some.injEq] at found
        subst found
        cases earlier <;> simp [Channel.Accepted]
    | closed =>
        simp only [status, Option.some.injEq] at found
        subst found
        simp [Channel.Accepted]

theorem Tracks.poll (tracks : Tracks receipts accepted) (lost : Failure) (ticket : Nat) :
    Tracks (receipts.poll lost ticket).2 accepted := by
  unfold Receipts.poll
  cases found : receipts[ticket]?.bind (Receipt.look lost) with
  | none => exact tracks
  | some result =>
      refine tracks.modify _ (fun receipt present => ?_) fun _ _ _ _ => rfl
      rw [present, Option.bind_some] at found
      exact (look_accepted found).2

theorem Tracks.of_received_ok (tracks : Tracks receipts accepted)
    (received : receipts.received ticket (.ok ())) : ticket ∈ accepted :=
  (tracks.settled ticket).mpr ⟨_, received, trivial⟩

theorem Tracks.of_received_error {failure : Failure} (tracks : Tracks receipts accepted)
    (received : receipts.received ticket (.error failure)) : ticket ∉ accepted := by
  rw [tracks.settled]
  rintro ⟨channel, equal, accepts⟩
  obtain rfl := Option.some.inj (received.symm.trans equal)
  exact accepts

theorem Tracks.cancelled_of_received {result : Except Failure Unit}
    (tracks : Tracks receipts accepted) (received : receipts.received ticket result) :
    receipts.cancelled ticket = true := by
  rw [Receipts.received, channel, Option.map_eq_some_iff] at received
  obtain ⟨receipt, present, taken⟩ := received
  rw [Receipts.cancelled, present, Option.any_some]
  exact tracks.discarded ticket receipt present result taken

/-! ## What stays -/

theorem waiting_modify (change : Receipt Item Failure → Receipt Item Failure)
    (keeps : ∀ receipt : Receipt Item Failure, receipt.channel = .waiting →
      (change receipt).channel = .waiting)
    (waiting : receipts.channel other = some .waiting) :
    channel (receipts.modify ticket change) other = some .waiting := by
  by_cases same : ticket = other
  · subst same
    rw [channel, Option.map_eq_some_iff] at waiting
    obtain ⟨receipt, present, status⟩ := waiting
    rw [channel_modify, present, Option.map_some, keeps receipt status]
  · rw [channel_modify_of_ne change same, waiting]

theorem waiting_poll (lost : Failure) (ticket : Nat)
    (waiting : receipts.channel other = some .waiting) :
    (receipts.poll lost ticket).2.channel other = some .waiting := by
  unfold Receipts.poll
  cases found : receipts[ticket]?.bind (Receipt.look lost) with
  | none => exact waiting
  | some result =>
      by_cases same : ticket = other
      · subst same
        rw [channel, Option.map_eq_some_iff] at waiting
        obtain ⟨receipt, present, status⟩ := waiting
        rw [present, Option.bind_some] at found
        exact absurd status (look_accepted found).1
      · simp only [channel_modify_of_ne _ same, waiting]

theorem cancelled_modify (change : Receipt Item Failure → Receipt Item Failure)
    (keeps : ∀ receipt : Receipt Item Failure, receipt.cancelled = true →
      (change receipt).cancelled = true)
    (cancelled : receipts.cancelled other = true) :
    Receipts.cancelled (receipts.modify ticket change) other = true := by
  unfold Receipts.cancelled at cancelled ⊢
  rw [Option.any_eq_true] at cancelled ⊢
  obtain ⟨receipt, present, set⟩ := cancelled
  by_cases same : ticket = other
  · subst same
    exact ⟨change receipt, by simp [present], keeps receipt set⟩
  · exact ⟨receipt, by simp [same, present], set⟩

theorem cancelled_issue (item : Item) (cancelled : receipts.cancelled ticket = true) :
    (receipts.issue item).cancelled ticket = true := by
  unfold Receipts.cancelled at cancelled ⊢
  rw [Option.any_eq_true] at cancelled ⊢
  obtain ⟨receipt, present, set⟩ := cancelled
  have inside := (List.getElem?_eq_some_iff.mp present).1
  exact ⟨receipt, by rw [issue, List.getElem?_append_left inside, present], set⟩

theorem item_modify (change : Receipt Item Failure → Receipt Item Failure)
    (keeps : ∀ receipt : Receipt Item Failure, (change receipt).item = receipt.item) :
    item (receipts.modify ticket change) other = receipts.item other := by
  unfold item
  by_cases same : ticket = other
  · subst same
    cases present : receipts[ticket]? with
    | none => simp [present]
    | some receipt => simp [present, keeps]
  · simp [same]

theorem item_poll (lost : Failure) (ticket : Nat) :
    (receipts.poll lost ticket).2.item other = receipts.item other := by
  unfold Receipts.poll
  cases receipts[ticket]?.bind (Receipt.look lost) with
  | none => rfl
  | some result => exact item_modify _ fun _ => rfl

theorem item_issue (receipts : Receipts Item Failure) (item : Item) :
    (receipts.issue item).item receipts.length = some item := by
  simp [issue, Receipts.item]

end Receipts

end TerminalCanvas
