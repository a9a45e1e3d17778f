import Mathlib.Data.List.Basic
import TerminalCanvas.Preferences.Worker

/-! # Loads behind saves

A load reads the notes that the saves accepted before it have written. -/

namespace TerminalCanvas.Preferences

section Loads

variable {Root Notes Config : Type}

def Newest (accepted : List (Ticket Root Notes Config)) (destination : Destination Root)
    (ticket : Ticket Root Notes Config) : Prop :=
  ticket ∈ accepted ∧ ticket.job.destination = some destination ∧
    ∀ other ∈ accepted, other.job.destination = some destination → other.stamp ≤ ticket.stamp

/-- No job of the line saves to the destination. -/
def Unwaited (line : List (Ticket Root Notes Config)) (destination : Destination Root) : Prop :=
  ∀ ticket ∈ line, ticket.job.destination ≠ some destination

/-- A write that was reported as done is as new as the save. -/
def Settled (writes : List (Ticket Root Notes Config × Bool)) (save : Ticket Root Notes Config) :
    Prop :=
  ∃ write, (write, true) ∈ writes ∧ write.job.destination = save.job.destination ∧
    save.stamp ≤ write.stamp

variable {line : List (Ticket Root Notes Config)}
  {record record' : Destination Root → Option (FailedSave Root Notes Config)}
  {accepted : List (Ticket Root Notes Config)}
  {writes : List (Ticket Root Notes Config × Bool)}
  {ticket : Ticket Root Notes Config} {destination : Destination Root}

theorem Unwaited.append {left right : List (Ticket Root Notes Config)} :
    Unwaited (left ++ right) destination ↔
      Unwaited left destination ∧ Unwaited right destination :=
  List.forall_mem_append

theorem Settled.mono {more : List (Ticket Root Notes Config × Bool)}
    (settled : Settled writes ticket) : Settled (writes ++ more) ticket := by
  obtain ⟨write, member, same, late⟩ := settled
  exact ⟨write, List.mem_append_left _ member, same, late⟩

theorem Settled.of_newer {newer : Ticket Root Notes Config} (settled : Settled writes newer)
    (same : newer.job.destination = ticket.job.destination) (late : ticket.stamp ≤ newer.stamp) :
    Settled writes ticket := by
  obtain ⟨write, member, writeIs, writeLate⟩ := settled
  exact ⟨write, member, writeIs.trans same, le_trans late writeLate⟩

theorem destination_of_loads {job : Job Root Notes Config} {root : Root}
    (loads : job.loads = some root) : job.destination = none := by
  cases job with
  | loadNotes => rfl
  | saveNotes | importNotes | saveSettings => cases loads

/-! ## Loads -/

/-- A load of a repository without a failed save: no older save of its notes is behind it,
and each is settled or has a save as new as itself ahead of the load. -/
structure Served (line : List (Ticket Root Notes Config))
    (record : Destination Root → Option (FailedSave Root Notes Config))
    (accepted : List (Ticket Root Notes Config))
    (writes : List (Ticket Root Notes Config × Bool)) : Prop where
  behind : ∀ before load after root, line = before ++ load :: after →
    load.job.loads = some root → record (.notes root) = none →
    ∀ save ∈ after, save.job.destination = some (.notes root) → load.stamp ≤ save.stamp
  settled : ∀ before load after root, line = before ++ load :: after →
    load.job.loads = some root → record (.notes root) = none →
    ∀ save ∈ accepted, save.job.destination = some (.notes root) → save.stamp < load.stamp →
      Settled writes save ∨
        ∃ waiting ∈ before, waiting.job.destination = some (.notes root) ∧
          save.stamp ≤ waiting.stamp

namespace Served

/-- A line is served where each of its loads was in a line that was, with the saves that
matter to it. -/
theorem transfer {line' : List (Ticket Root Notes Config)}
    {accepted' : List (Ticket Root Notes Config)}
    {writes' : List (Ticket Root Notes Config × Bool)}
    (served : Served line record accepted writes)
    (split : ∀ before load after root, line' = before ++ load :: after →
      load.job.loads = some root → record' (.notes root) = none →
      ∃ ahead behind, line = ahead ++ load :: behind ∧ record (.notes root) = none ∧
        (∀ save ∈ after, save.job.destination = some (.notes root) →
          save ∈ behind ∨ load.stamp ≤ save.stamp) ∧
        ∀ waiting ∈ ahead, waiting.job.destination = some (.notes root) →
          Settled writes' waiting ∨
            ∃ other ∈ before, other.job.destination = some (.notes root) ∧
              waiting.stamp ≤ other.stamp)
    (older : ∀ load ∈ line, ∀ save ∈ accepted', save.stamp < load.stamp → save ∈ accepted)
    (more : ∀ save, Settled writes save → Settled writes' save) :
    Served line' record' accepted' writes' := by
  constructor
  · intro before load after root whole loads clear save member saves
    obtain ⟨ahead, behind, wholeOld, clearOld, moved, -⟩ := split before load after root whole
      loads clear
    rcases moved save member saves with stayed | late
    · exact served.behind ahead load behind root wholeOld loads clearOld save stayed saves
    · exact late
  · intro before load after root whole loads clear save member saves early
    obtain ⟨ahead, behind, wholeOld, clearOld, -, waits⟩ := split before load after root whole
      loads clear
    have loadIn : load ∈ line := by rw [wholeOld]; simp
    rcases served.settled ahead load behind root wholeOld loads clearOld save
      (older load loadIn save member early) saves early with settled | ⟨waiting, ahead, is, late⟩
    · exact .inl (more save settled)
    · rcases waits waiting ahead is with settled | ⟨other, ahead, otherIs, later⟩
      · exact .inl (settled.of_newer (is.trans saves.symm) late)
      · exact .inr ⟨other, ahead, otherIs, le_trans late later⟩

theorem mono {more : List (Ticket Root Notes Config × Bool)}
    (served : Served line record accepted writes)
    (clear : ∀ destination, record' destination = none → record destination = none) :
    Served line record' accepted (writes ++ more) := by
  apply served.transfer (fun before load after root whole loads none => ?_)
    (fun _ _ _ member _ => member) (fun _ settled => settled.mono)
  exact ⟨before, after, whole, clear _ none, fun _ member _ => .inl member,
    fun waiting member is => .inr ⟨waiting, member, is, le_rfl⟩⟩

theorem drop {left right : List (Ticket Root Notes Config)}
    (served : Served (left ++ ticket :: right) record accepted writes)
    (reads : ticket.job.destination = none) : Served (left ++ right) record accepted writes := by
  apply served.transfer (fun before load after root whole loads clear => ?_)
    (fun _ _ _ member _ => member) (fun _ settled => settled)
  rcases List.append_eq_append_iff.mp whole with ⟨between, rfl, rightIs⟩ | ⟨between, rfl, rest⟩
  · refine ⟨left ++ ticket :: between, after, by rw [rightIs]; simp, clear,
      fun _ member _ => .inl member, fun waiting member is => ?_⟩
    rcases List.mem_append.mp member with member | member
    · exact .inr ⟨waiting, List.mem_append_left _ member, is, le_rfl⟩
    · rcases List.mem_cons.mp member with rfl | member
      · cases reads.symm.trans is
      · exact .inr ⟨waiting, List.mem_append_right _ member, is, le_rfl⟩
  · cases between with
    | nil =>
        rw [List.nil_append] at rest
        refine ⟨before ++ [ticket], after, by rw [List.append_nil, ← rest]; simp, clear,
          fun _ member _ => .inl member, fun waiting member is => ?_⟩
        rcases List.mem_append.mp member with member | member
        · exact .inr ⟨waiting, member, is, le_rfl⟩
        · rw [List.mem_singleton.mp member] at is
          cases reads.symm.trans is
    | cons other others =>
        obtain ⟨rfl, rfl⟩ := List.cons.inj rest
        refine ⟨before, others ++ ticket :: right, by simp, clear, fun save member saves => ?_,
          fun waiting member is => .inr ⟨waiting, member, is, le_rfl⟩⟩
        rcases List.mem_append.mp member with member | member
        · exact .inl (List.mem_append_left _ member)
        · exact .inl (List.mem_append_right _ (List.mem_cons_of_mem _ member))

/-- A save enters the line, in the place of an older one of its destination if there was
one. -/
theorem place {left right : List (Ticket Root Notes Config)}
    {old : Option (Ticket Root Notes Config)} {accepted' : List (Ticket Root Notes Config)}
    (served : Served (left ++ (old.toList ++ right)) record accepted writes)
    (saves : ticket.job.destination = some destination)
    (replaced : ∀ other ∈ old, other.job.destination = some destination ∧
      other.stamp ≤ ticket.stamp)
    (late : record destination = none → ∀ load ∈ left ++ right, load.stamp ≤ ticket.stamp)
    (older : ∀ load ∈ left ++ (old.toList ++ right), ∀ save ∈ accepted',
      save.stamp < load.stamp → save ∈ accepted) :
    Served (left ++ ticket :: right) record accepted' writes := by
  apply served.transfer (fun before load after root whole loads clear => ?_) older
    (fun _ settled => settled)
  have apart : load ≠ ticket := by
    rintro rfl
    cases (destination_of_loads loads).symm.trans saves
  rcases List.append_eq_append_iff.mp whole with ⟨between, rfl, rest⟩ | ⟨between, rfl, rest⟩
  · cases between with
    | nil => exact absurd (List.cons.inj rest).1.symm apart
    | cons other others =>
        obtain ⟨rfl, rfl⟩ := List.cons.inj rest
        refine ⟨left ++ (old.toList ++ others), after, by simp, clear,
          fun _ member _ => .inl member, fun waiting member is => .inr ?_⟩
        rcases List.mem_append.mp member with member | member
        · exact ⟨waiting, List.mem_append_left _ member, is, le_rfl⟩
        · rcases List.mem_append.mp member with member | member
          · obtain ⟨same, before⟩ := replaced waiting (Option.mem_toList.mp member)
            exact ⟨ticket, by simp, saves.trans (same.symm.trans is), before⟩
          · exact ⟨waiting, List.mem_append_right _ (List.mem_cons_of_mem _ member), is, le_rfl⟩
  · cases between with
    | nil => exact absurd (List.cons.inj rest).1 apart
    | cons other others =>
        obtain ⟨rfl, rfl⟩ := List.cons.inj rest
        refine ⟨before, others ++ (old.toList ++ right), by simp, clear, fun save member is => ?_,
          fun waiting member is => .inr ⟨waiting, member, is, le_rfl⟩⟩
        rcases List.mem_append.mp member with member | member
        · exact .inl (List.mem_append_left _ member)
        · rcases List.mem_cons.mp member with rfl | member
          · obtain rfl := Option.some.inj (saves.symm.trans is)
            exact .inr (late clear load (by simp))
          · exact .inl (List.mem_append_right _ (List.mem_append_right _ member))

theorem push {accepted' : List (Ticket Root Notes Config)}
    (served : Served line record accepted writes)
    (settled : ∀ root, ticket.job.loads = some root → record (.notes root) = none →
      ∀ save ∈ accepted', save.job.destination = some (.notes root) →
        save.stamp < ticket.stamp → Settled writes save ∨
          ∃ waiting ∈ line, waiting.job.destination = some (.notes root) ∧
            save.stamp ≤ waiting.stamp)
    (reads : ticket.job.destination = none)
    (older : ∀ load ∈ line, ∀ save ∈ accepted', save.stamp < load.stamp → save ∈ accepted) :
    Served (line ++ [ticket]) record accepted' writes := by
  constructor
  · intro before load after root whole loads clear save member is
    rcases after.eq_nil_or_concat with rfl | ⟨others, last, rfl⟩
    · cases member
    · rw [List.concat_eq_append, ← List.cons_append, ← List.append_assoc] at whole
      obtain ⟨lineIs, lastIs⟩ := List.append_inj' whole rfl
      obtain rfl := List.singleton_inj.mp lastIs
      rw [List.concat_eq_append] at member
      rcases List.mem_append.mp member with member | member
      · exact served.behind before load others root lineIs loads clear save member is
      · rw [List.mem_singleton.mp member] at is
        cases reads.symm.trans is
  · intro before load after root whole loads clear save member is early
    rcases after.eq_nil_or_concat with rfl | ⟨others, last, rfl⟩
    · obtain ⟨rfl, lastIs⟩ := List.append_inj' whole rfl
      obtain rfl := List.singleton_inj.mp lastIs
      exact settled root loads clear save member is early
    · rw [List.concat_eq_append, ← List.cons_append, ← List.append_assoc] at whole
      obtain ⟨lineIs, -⟩ := List.append_inj' whole rfl
      have loadIn : load ∈ line := by rw [lineIs]; simp
      exact served.settled before load others root lineIs loads clear save
        (older load loadIn save member early) is early

theorem finish (served : Served (ticket :: line) record accepted writes)
    (others : ∀ other, other ≠ destination → record' other = record other)
    (done : record' destination = none → Settled writes ticket ∧
      (record destination = none ∨ Unwaited line destination ∧
        ∀ save ∈ accepted, save.job.destination = some destination →
          save.stamp ≤ ticket.stamp))
    (saves : ticket.job.destination = some destination) :
    Served line record' accepted writes := by
  constructor
  · intro before load after root whole loads clear save member is
    have same : ticket :: line = (ticket :: before) ++ load :: after := by rw [whole]; rfl
    by_cases here : .notes root = destination
    · subst here
      rcases (done clear).2 with old | ⟨unwaited, -⟩
      · exact served.behind _ load after root same loads old save member is
      · exact absurd is (unwaited save (by rw [whole]; simp [member]))
    · rw [others _ here] at clear
      exact served.behind _ load after root same loads clear save member is
  · intro before load after root whole loads clear save member is early
    have same : ticket :: line = (ticket :: before) ++ load :: after := by rw [whole]; rfl
    have ahead : record (.notes root) = none → Settled writes save ∨
        (.notes root = destination ∧ save.stamp ≤ ticket.stamp) ∨
        ∃ waiting ∈ before, waiting.job.destination = some (.notes root) ∧
          save.stamp ≤ waiting.stamp := by
      intro clear
      rcases served.settled _ load after root same loads clear save member is early with
        settled | ⟨waiting, waitingIn, waitingIs, late⟩
      · exact .inl settled
      · rcases List.mem_cons.mp waitingIn with rfl | waitingIn
        · exact .inr (.inl ⟨Option.some.inj (waitingIs.symm.trans saves), late⟩)
        · exact .inr (.inr ⟨waiting, waitingIn, waitingIs, late⟩)
    by_cases here : .notes root = destination
    · subst here
      obtain ⟨settled, old | ⟨-, newest⟩⟩ := done clear
      · rcases ahead old with settled | ⟨-, late⟩ | waiting
        · exact .inl settled
        · exact .inl (settled.of_newer (saves.trans is.symm) late)
        · exact .inr waiting
      · exact .inl (settled.of_newer (saves.trans is.symm) (newest save member is))
    · rcases ahead (others _ here ▸ clear) with settled | ⟨same, -⟩ | waiting
      · exact .inl settled
      · exact absurd same here
      · exact .inr waiting

end Served

end Loads

end TerminalCanvas.Preferences
