import Mathlib.Data.List.MinMax
import TerminalCanvas.Preferences.Served

/-! # What is retained

The line of jobs, the records of failed saves and the writes on the disk, apart from who
holds which job. Every operation of the worker and of its thread is one of a few changes
to these. -/

namespace TerminalCanvas.Preferences

section Retention

variable {Root Notes Config : Type} [DecidableEq Root]

/-- The last write of a destination, and whether it was reported as done. -/
def lastWrite (writes : List (Ticket Root Notes Config × Bool)) (destination : Destination Root) :
    Option (Ticket Root Notes Config × Bool) :=
  (writes.filter fun write => write.1.job.destination = some destination).getLast?

/-- A job stands where its stamp says. -/
def Stamped (accepted : List (Ticket Root Notes Config)) : Prop :=
  ∀ ticket ∈ accepted, accepted[ticket.stamp]? = some ticket

/-- The jobs that were sent or are about to be (`front`) and those behind them, with the
records of failed saves, what was accepted and what was written. -/
structure Retains (front pending : List (Ticket Root Notes Config))
    (record : Destination Root → Option (FailedSave Root Notes Config))
    (accepted : List (Ticket Root Notes Config))
    (writes : List (Ticket Root Notes Config × Bool)) : Prop where
  stamped : Stamped accepted
  line : ∀ ticket ∈ front ++ pending, ticket ∈ accepted
  recorded : ∀ destination failure, record destination = some failure →
    failure.ticket ∈ accepted ∧ failure.ticket.job.destination = some destination
  written : ∀ write ∈ writes, write.1 ∈ accepted
  distinct : pending.Pairwise fun first second =>
    ∀ destination, first.job.destination = some destination →
      second.job.destination ≠ some destination
  pendingNewest : ∀ destination newest, Newest accepted destination newest →
    ∀ ticket ∈ pending, ticket.job.destination = some destination → ticket = newest
  frontNewest : ∀ destination newest, Newest accepted destination newest →
    Unwaited pending destination →
    ∀ ticket ∈ front, ticket.job.destination = some destination → ticket = newest
  kept : ∀ destination newest, Newest accepted destination newest →
    Unwaited (front ++ pending) destination →
    (∃ failure, record destination = some failure ∧ failure.ticket = newest) ∨
      record destination = none ∧ lastWrite writes destination = some (newest, true)
  ordered : ∀ write ∈ writes, ∀ ticket ∈ front ++ pending, ∀ destination,
    write.1.job.destination = some destination → ticket.job.destination = some destination →
    write.1.stamp ≤ ticket.stamp
  sorted : writes.Pairwise fun first second => ∀ destination,
    first.1.job.destination = some destination → second.1.job.destination = some destination →
    first.1.stamp ≤ second.1.stamp
  served : Served (front ++ pending) record accepted writes

variable {front pending : List (Ticket Root Notes Config)}
  {record record' : Destination Root → Option (FailedSave Root Notes Config)}
  {accepted : List (Ticket Root Notes Config)}
  {writes : List (Ticket Root Notes Config × Bool)}
  {ticket newest : Ticket Root Notes Config} {destination : Destination Root}

/-! ## Newest saves -/

theorem exists_newest (member : ticket ∈ accepted)
    (is : ticket.job.destination = some destination) :
    ∃ newest, Newest accepted destination newest := by
  have saves : ticket ∈ accepted.filter (·.job.destination = some destination) :=
    List.mem_filter.mpr ⟨member, decide_eq_true is⟩
  cases greatest : (accepted.filter (·.job.destination = some destination)).argmax Ticket.stamp with
  | none => exact absurd (List.argmax_eq_none.mp greatest ▸ saves) List.not_mem_nil
  | some newest =>
      obtain ⟨newestIn, newestIs⟩ := List.mem_filter.mp (List.argmax_mem greatest)
      refine ⟨newest, newestIn, of_decide_eq_true newestIs, fun other otherIn otherIs => ?_⟩
      exact List.le_of_mem_argmax (List.mem_filter.mpr ⟨otherIn, decide_eq_true otherIs⟩) greatest

omit [DecidableEq Root] in
theorem Newest.of_push (is : Newest (accepted ++ [ticket]) destination newest)
    (apart : ticket.job.destination ≠ some destination) : Newest accepted destination newest := by
  obtain ⟨member, saves, greatest⟩ := is
  refine ⟨?_, saves, fun other otherIn => greatest other (List.mem_append_left _ otherIn)⟩
  rcases List.mem_append.mp member with member | member
  · exact member
  · rw [List.mem_singleton.mp member] at saves
    exact absurd saves apart

theorem lastWrite_push_self {result : Bool} (saves : ticket.job.destination = some destination) :
    lastWrite (writes ++ [(ticket, result)]) destination = some (ticket, result) := by
  simp [lastWrite, saves]

theorem lastWrite_push_other {result : Bool} (apart : ticket.job.destination ≠ some destination) :
    lastWrite (writes ++ [(ticket, result)]) destination = lastWrite writes destination := by
  simp [lastWrite, apart]

theorem Settled.of_lastWrite {other : Ticket Root Notes Config}
    (last : lastWrite writes destination = some (other, true))
    (saves : ticket.job.destination = some destination) (late : ticket.stamp ≤ other.stamp) :
    Settled writes ticket := by
  have member := List.mem_filter.mp (List.mem_of_getLast? last)
  exact ⟨other, member.1, (of_decide_eq_true member.2).trans saves.symm, late⟩

omit [DecidableEq Root]

theorem Stamped.stamp_lt (stamped : Stamped accepted) (member : ticket ∈ accepted) :
    ticket.stamp < accepted.length :=
  (List.getElem?_eq_some_iff.mp (stamped ticket member)).1

theorem Stamped.eq_of_stamp (stamped : Stamped accepted)
    {first second : Ticket Root Notes Config} (firstIn : first ∈ accepted)
    (secondIn : second ∈ accepted) (same : first.stamp = second.stamp) : first = second := by
  have left := stamped first firstIn
  rw [same, stamped second secondIn] at left
  exact (Option.some.inj left).symm

theorem Stamped.newest_unique (stamped : Stamped accepted)
    {first second : Ticket Root Notes Config} (left : Newest accepted destination first)
    (right : Newest accepted destination second) : first = second :=
  stamped.eq_of_stamp left.1 right.1
    (le_antisymm (right.2.2 first left.1 left.2.1) (left.2.2 second right.1 right.2.1))

theorem Stamped.push (stamped : Stamped accepted) (next : ticket.stamp = accepted.length) :
    Stamped (accepted ++ [ticket]) := by
  intro other member
  rcases List.mem_append.mp member with member | member
  · rw [List.getElem?_append_left (stamped.stamp_lt member)]
    exact stamped other member
  · rw [List.mem_singleton.mp member, next, List.getElem?_concat_length]

theorem Stamped.newest_push (stamped : Stamped accepted) (next : ticket.stamp = accepted.length)
    (saves : ticket.job.destination = some destination) :
    Newest (accepted ++ [ticket]) destination ticket := by
  refine ⟨List.mem_append_right _ (List.mem_singleton_self _), saves, fun other member _ => ?_⟩
  rcases List.mem_append.mp member with member | member
  · have early := stamped.stamp_lt member
    omega
  · rw [List.mem_singleton.mp member]

theorem Stamped.mem_of_lt {load : Ticket Root Notes Config} (stamped : Stamped accepted)
    (next : ticket.stamp = accepted.length) (loadIn : load ∈ accepted)
    {save : Ticket Root Notes Config} (member : save ∈ accepted ++ [ticket])
    (early : save.stamp < load.stamp) : save ∈ accepted := by
  rcases List.mem_append.mp member with member | member
  · exact member
  · have late := stamped.stamp_lt loadIn
    rw [List.mem_singleton.mp member] at early
    omega

variable [DecidableEq Root]

namespace Retains

theorem newest_waits (retains : Retains front pending record accepted writes)
    (greatest : Newest accepted destination newest)
    (waited : ¬ Unwaited (front ++ pending) destination) : newest ∈ front ++ pending := by
  by_cases clear : Unwaited pending destination
  · rw [Unwaited.append] at waited
    obtain ⟨other, member, is⟩ : ∃ other ∈ front, other.job.destination = some destination := by
      by_contra none
      exact waited ⟨fun other member is => none ⟨other, member, is⟩, clear⟩
    have same := retains.frontNewest destination newest greatest clear other member is
    exact List.mem_append_left _ (same ▸ member)
  · obtain ⟨other, member, is⟩ : ∃ other ∈ pending, other.job.destination = some destination := by
      by_contra none
      exact clear fun other member is => none ⟨other, member, is⟩
    have same := retains.pendingNewest destination newest greatest other member is
    exact List.mem_append_right _ (same ▸ member)

/-- The newest save of a destination enters the queue, in the place of the pending one of
its destination if there was one. -/
theorem place {before after : List (Ticket Root Notes Config)}
    {old : Option (Ticket Root Notes Config)} {accepted' : List (Ticket Root Notes Config)}
    (retains : Retains front (before ++ (old.toList ++ after)) record accepted writes)
    (stamped : Stamped accepted') (grown : ∀ other ∈ accepted, other ∈ accepted')
    (newest : Newest accepted' destination ticket)
    (older : ∀ other greatest, other ≠ destination → Newest accepted' other greatest →
      Newest accepted other greatest)
    (replaced : ∀ other ∈ old, other.job.destination = some destination)
    (clearBefore : Unwaited before destination) (clearAfter : Unwaited after destination)
    (late : record destination = none → ∀ load ∈ accepted, load.stamp ≤ ticket.stamp)
    (young : ∀ load ∈ accepted, ∀ save ∈ accepted', save.stamp < load.stamp → save ∈ accepted) :
    Retains front (before ++ ticket :: after) record accepted' writes := by
  obtain ⟨ticketIn, saves, greatest⟩ := id newest
  have others : ∀ other ∈ front ++ (before ++ ticket :: after),
      other = ticket ∨ other ∈ front ++ (before ++ (old.toList ++ after)) := by
    intro other member
    simp only [List.mem_append, List.mem_cons] at member ⊢
    tauto
  have unwaited : ∀ line other, other ≠ destination →
      Unwaited (line ++ (before ++ ticket :: after)) other →
      Unwaited (line ++ (before ++ (old.toList ++ after))) other := by
    intro line other apart clear waiting member is
    simp only [List.mem_append] at member
    rcases member with member | member | member | member
    · exact clear waiting (List.mem_append_left _ member) is
    · exact clear waiting (by simp [member]) is
    · have same := replaced waiting (Option.mem_toList.mp member)
      exact apart (Option.some.inj (is.symm.trans same))
    · exact clear waiting (by simp [member]) is
  have waits : ∀ line, ¬ Unwaited (line ++ (before ++ ticket :: after)) destination :=
    fun line clear => clear ticket (by simp) saves
  refine ⟨stamped, ?_, ?_, ?_, ?_, ?_, ?_, ?_, ?_, retains.sorted, ?_⟩
  · intro other member
    rcases others other member with rfl | member
    · exact ticketIn
    · exact grown other (retains.line other member)
  · intro other failure found
    obtain ⟨member, is⟩ := retains.recorded other failure found
    exact ⟨grown _ member, is⟩
  · exact fun write member => grown _ (retains.written write member)
  · have sub : (before ++ after).Sublist (before ++ (old.toList ++ after)) :=
      List.Sublist.append_left (List.sublist_append_right _ _) _
    obtain ⟨left, right, apart⟩ := List.pairwise_append.mp (retains.distinct.sublist sub)
    refine List.pairwise_append.mpr ⟨left, List.pairwise_cons.mpr ⟨?_, right⟩, ?_⟩
    · intro other member target is
      obtain rfl := Option.some.inj (is.symm.trans saves)
      exact clearAfter other member
    · intro first firstIn second secondIn target is
      rcases List.mem_cons.mp secondIn with rfl | secondIn
      · intro same
        obtain rfl := Option.some.inj (same.symm.trans saves)
        exact clearBefore first firstIn is
      · exact apart first firstIn second secondIn target is
  · intro target other otherNewest waiting member is
    by_cases same : target = destination
    · subst same
      rw [stamped.newest_unique otherNewest newest]
      rcases List.mem_append.mp member with member | member
      · exact absurd is (clearBefore waiting member)
      · rcases List.mem_cons.mp member with rfl | member
        · rfl
        · exact absurd is (clearAfter waiting member)
    · apply retains.pendingNewest target other (older target other same otherNewest) waiting _ is
      rcases List.mem_append.mp member with member | member
      · exact List.mem_append_left _ member
      · rcases List.mem_cons.mp member with rfl | member
        · exact absurd (Option.some.inj (is.symm.trans saves)) same
        · exact List.mem_append_right _ (List.mem_append_right _ member)
  · intro target other otherNewest clear waiting member is
    by_cases same : target = destination
    · exact absurd (same ▸ clear) (waits [])
    · exact retains.frontNewest target other (older target other same otherNewest)
        (unwaited [] target same clear) waiting member is
  · intro target other otherNewest clear
    by_cases same : target = destination
    · exact absurd (same ▸ clear) (waits front)
    · exact retains.kept target other (older target other same otherNewest)
        (unwaited front target same clear)
  · intro write writeIn other member target writeIs is
    rcases others other member with rfl | member
    · obtain rfl := Option.some.inj (is.symm.trans saves)
      exact greatest _ (grown _ (retains.written write writeIn)) writeIs
    · exact retains.ordered write writeIn other member target writeIs is
  · have whole : Served ((front ++ before) ++ (old.toList ++ after)) record accepted writes := by
      rw [List.append_assoc]
      exact retains.served
    have inLine : ∀ other ∈ (front ++ before) ++ (old.toList ++ after), other ∈ accepted := by
      rw [List.append_assoc]
      exact retains.line
    rw [← List.append_assoc]
    refine whole.place saves (fun other member => ?_) (fun clear load member => ?_)
      (fun load loadIn => young load (inLine load loadIn))
    · have is := replaced other member
      have otherIn := inLine other (by simp [Option.mem_def.mp member])
      exact ⟨is, greatest other (grown other otherIn) is⟩
    · apply late clear load (inLine load _)
      simp only [List.mem_append] at member ⊢
      tauto

theorem acceptSave {before after : List (Ticket Root Notes Config)}
    {old : Option (Ticket Root Notes Config)}
    (retains : Retains front (before ++ (old.toList ++ after)) record accepted writes)
    (next : ticket.stamp = accepted.length)
    (saves : ticket.job.destination = some destination)
    (replaced : ∀ other ∈ old, other.job.destination = some destination)
    (clearBefore : Unwaited before destination) (clearAfter : Unwaited after destination) :
    Retains front (before ++ ticket :: after) record (accepted ++ [ticket]) writes := by
  refine retains.place (retains.stamped.push next) (fun _ => List.mem_append_left _)
    (retains.stamped.newest_push next saves) (fun other greatest apart is => ?_) replaced
    clearBefore clearAfter (fun _ load member => ?_)
    (fun load loadIn save => retains.stamped.mem_of_lt next loadIn)
  · exact is.of_push fun same => apart (Option.some.inj (same.symm.trans saves))
  · have early := retains.stamped.stamp_lt member
    omega

theorem requeue {before after : List (Ticket Root Notes Config)}
    {failure : FailedSave Root Notes Config}
    (retains : Retains front (before ++ after) record accepted writes)
    (failed : record destination = some failure)
    (clear : Unwaited (front ++ (before ++ after)) destination) :
    Retains front (before ++ failure.ticket :: after) record accepted writes := by
  obtain ⟨member, saves⟩ := retains.recorded destination failure failed
  obtain ⟨newest, greatest⟩ := exists_newest member saves
  have is : failure.ticket = newest := by
    rcases retains.kept destination newest greatest clear with ⟨other, same, is⟩ | ⟨none, -⟩
    · rw [failed] at same
      rw [Option.some.inj same]
      exact is
    · cases failed.symm.trans none
  subst is
  have clearPending := (Unwaited.append.mp clear).2
  obtain ⟨clearBefore, clearAfter⟩ := Unwaited.append.mp clearPending
  have whole : Retains front
    (before ++ ((none : Option (Ticket Root Notes Config)).toList ++ after))
    record accepted writes := retains
  refine whole.place retains.stamped (fun _ => id) greatest (fun _ _ _ => id)
    (fun _ none => nomatch none) clearBefore clearAfter (fun none => ?_)
    (fun _ _ _ member _ => member)
  cases failed.symm.trans none

theorem acceptRead (retains : Retains front pending record accepted writes)
    (next : ticket.stamp = accepted.length) (reads : ticket.job.destination = none) :
    Retains front (pending ++ [ticket]) record (accepted ++ [ticket]) writes := by
  have older : ∀ {target newest}, Newest (accepted ++ [ticket]) target newest →
      Newest accepted target newest := by
    intro target newest is
    exact is.of_push (by rw [reads]; exact fun same => nomatch same)
  have others : ∀ other ∈ pending ++ [ticket], ∀ target,
      other.job.destination = some target → other ∈ pending := by
    intro other member target is
    rcases List.mem_append.mp member with member | member
    · exact member
    · rw [List.mem_singleton.mp member] at is
      cases reads.symm.trans is
  have unwaited : ∀ {line target}, Unwaited (line ++ (pending ++ [ticket])) target →
      Unwaited (line ++ pending) target := by
    intro line target clear
    rw [← List.append_assoc] at clear
    exact (Unwaited.append.mp clear).1
  refine ⟨retains.stamped.push next, ?_, ?_, ?_, ?_, ?_, ?_, ?_, ?_, retains.sorted, ?_⟩
  · intro other member
    rw [← List.append_assoc] at member
    rcases List.mem_append.mp member with member | member
    · exact List.mem_append_left _ (retains.line other member)
    · exact List.mem_append_right _ member
  · intro other failure found
    obtain ⟨member, is⟩ := retains.recorded other failure found
    exact ⟨List.mem_append_left _ member, is⟩
  · exact fun write member => List.mem_append_left _ (retains.written write member)
  · refine List.pairwise_append.mpr ⟨retains.distinct, List.pairwise_singleton _ _, ?_⟩
    intro first _ second secondIn target _ is
    rw [List.mem_singleton.mp secondIn] at is
    cases reads.symm.trans is
  · exact fun target newest greatest other member is =>
      retains.pendingNewest target newest (older greatest) other (others other member target is) is
  · exact fun target newest greatest clear other member is =>
      retains.frontNewest target newest (older greatest) (@unwaited [] target clear) other member is
  · exact fun target newest greatest clear =>
      retains.kept target newest (older greatest) (unwaited clear)
  · intro write writeIn other member target writeIs is
    rcases List.mem_append.mp member with member | member
    · exact retains.ordered write writeIn other (List.mem_append_left _ member) target writeIs is
    · exact retains.ordered write writeIn other
        (List.mem_append_right _ (others other member target is)) target writeIs is
  · rw [← List.append_assoc]
    refine retains.served.push (fun root _ clear save member is early => ?_) reads
      (fun load loadIn save => retains.stamped.mem_of_lt next (retains.line load loadIn))
    have saveIn : save ∈ accepted := by
      rcases List.mem_append.mp member with member | member
      · exact member
      · rw [List.mem_singleton.mp member] at is
        cases reads.symm.trans is
    obtain ⟨newest, greatest⟩ := exists_newest saveIn is
    have late := greatest.2.2 save saveIn is
    by_cases waited : Unwaited (front ++ pending) (.notes root)
    · rcases retains.kept _ newest greatest waited with ⟨_, failed, _⟩ | ⟨-, last⟩
      · cases clear.symm.trans failed
      · exact .inl (.of_lastWrite last is late)
    · exact .inr ⟨newest, retains.newest_waits greatest waited, greatest.2.1, late⟩

theorem drop {front' pending' left right : List (Ticket Root Notes Config)}
    (retains : Retains front pending record accepted writes)
    (reads : ticket.job.destination = none) (whole : front ++ pending = left ++ ticket :: right)
    (rest : front' ++ pending' = left ++ right) (fronts : ∀ other ∈ front', other ∈ front)
    (pendings : pending'.Sublist pending)
    (others : ∀ other ∈ pending, other ∈ pending' ∨ other = ticket) :
    Retains front' pending' record accepted writes := by
  have stays : ∀ other ∈ front' ++ pending', other ∈ front ++ pending := by
    intro other member
    rw [rest] at member
    rw [whole]
    simp only [List.mem_append, List.mem_cons] at member ⊢
    tauto
  have unwaited : ∀ target, Unwaited pending' target → Unwaited pending target := by
    intro target clear other member is
    rcases others other member with member | rfl
    · exact clear other member is
    · cases reads.symm.trans is
  refine ⟨retains.stamped, fun other member => retains.line other (stays other member),
    retains.recorded, retains.written, retains.distinct.sublist pendings,
    fun target newest greatest other member => retains.pendingNewest target newest greatest other
      (pendings.subset member), ?_, ?_, ?_, retains.sorted, ?_⟩
  · exact fun target newest greatest clear other member =>
      retains.frontNewest target newest greatest (unwaited target clear) other (fronts other member)
  · intro target newest greatest clear
    apply retains.kept target newest greatest
    intro other member is
    rw [whole] at member
    rw [rest] at clear
    rcases List.mem_append.mp member with member | member
    · exact clear other (List.mem_append_left _ member) is
    · rcases List.mem_cons.mp member with rfl | member
      · cases reads.symm.trans is
      · exact clear other (List.mem_append_right _ member) is
  · exact fun write writeIn other member =>
      retains.ordered write writeIn other (stays other member)
  · rw [rest]
    have served := retains.served
    rw [whole] at served
    exact served.drop reads

theorem dropHead (retains : Retains [] (ticket :: pending) record accepted writes)
    (reads : ticket.job.destination = none) : Retains [] pending record accepted writes := by
  have whole : [] ++ ticket :: pending = [] ++ ticket :: pending := rfl
  refine retains.drop reads whole rfl (fun _ => id) (List.sublist_cons_self ..) ?_
  intro other member
  rcases List.mem_cons.mp member with same | member
  · exact .inr same
  · exact .inl member

theorem dropSent (retains : Retains [ticket] pending record accepted writes)
    (reads : ticket.job.destination = none) : Retains [] pending record accepted writes := by
  have whole : [ticket] ++ pending = [] ++ ticket :: pending := rfl
  exact retains.drop reads whole rfl (fun _ member => absurd member List.not_mem_nil) (.refl _)
    fun _ => .inl

theorem note {failure : FailedSave Root Notes Config}
    (retains : Retains front pending record accepted writes)
    (member : failure.ticket ∈ front ++ pending)
    (saves : failure.ticket.job.destination = some destination)
    (noted : record' destination = some failure)
    (others : ∀ other, other ≠ destination → record' other = record other) :
    Retains front pending record' accepted writes := by
  refine ⟨retains.stamped, retains.line, ?_, retains.written, retains.distinct,
    retains.pendingNewest, retains.frontNewest, ?_, retains.ordered, retains.sorted, ?_⟩
  · intro target other found
    by_cases same : target = destination
    · subst same
      rw [noted] at found
      obtain rfl := Option.some.inj found
      exact ⟨retains.line _ member, saves⟩
    · rw [others target same] at found
      exact retains.recorded target other found
  · intro target newest greatest clear
    have apart : target ≠ destination := by
      rintro rfl
      exact clear _ member saves
    rw [others target apart]
    exact retains.kept target newest greatest clear
  · have served : Served (front ++ pending) record' accepted (writes ++ []) := by
      apply retains.served.mono
      intro target none
      by_cases same : target = destination
      · rw [same, noted] at none
        cases none
      · rw [← others target same]
        exact none
    rw [List.append_nil] at served
    exact served

theorem send (retains : Retains [] (ticket :: pending) record accepted writes) :
    Retains [ticket] pending record accepted writes := by
  refine ⟨retains.stamped, retains.line, retains.recorded, retains.written,
    (List.pairwise_cons.mp retains.distinct).2, fun target newest greatest other member =>
      retains.pendingNewest target newest greatest other (List.mem_cons_of_mem _ member),
    fun target newest greatest _ other member => ?_, retains.kept, retains.ordered,
    retains.sorted, retains.served⟩
  rw [List.mem_singleton.mp member]
  exact retains.pendingNewest target newest greatest ticket (List.mem_cons_self ..)

theorem wrote {result : Bool} (retains : Retains [ticket] pending record accepted writes)
    (saves : ticket.job.destination = some destination) :
    Retains [ticket] pending record accepted (writes ++ [(ticket, result)]) := by
  have ticketIn : ticket ∈ accepted := retains.line ticket (List.mem_cons_self ..)
  refine ⟨retains.stamped, retains.line, retains.recorded, ?_, retains.distinct,
    retains.pendingNewest, retains.frontNewest, ?_, ?_, ?_, retains.served.mono fun _ => id⟩
  · intro write member
    rcases List.mem_append.mp member with member | member
    · exact retains.written write member
    · rw [List.mem_singleton.mp member]
      exact ticketIn
  · intro target newest greatest clear
    rw [lastWrite_push_other (clear ticket (List.mem_cons_self ..))]
    exact retains.kept target newest greatest clear
  · intro write writeIn other member target writeIs is
    rcases List.mem_append.mp writeIn with writeIn | writeIn
    · exact retains.ordered write writeIn other member target writeIs is
    · rw [List.mem_singleton.mp writeIn] at writeIs ⊢
      rcases List.mem_cons.mp member with rfl | member
      · exact le_rfl
      · obtain ⟨newest, greatest⟩ := exists_newest ticketIn writeIs
        rw [retains.pendingNewest target newest greatest other member is]
        exact greatest.2.2 ticket ticketIn writeIs
  · refine List.pairwise_append.mpr ⟨retains.sorted, List.pairwise_singleton _ _, ?_⟩
    intro first firstIn second secondIn target firstIs is
    rw [List.mem_singleton.mp secondIn] at is ⊢
    exact retains.ordered first firstIn ticket (List.mem_cons_self ..) target firstIs is

/-- The save that was sent ends. It failed and is noted, or it was written and the note of
its destination goes unless a newer save waits. -/
theorem finish (retains : Retains [ticket] pending record accepted writes)
    (saves : ticket.job.destination = some destination)
    (others : ∀ other, other ≠ destination → record' other = record other)
    (done : (∃ reason, record' destination = some ⟨ticket, reason⟩) ∨
      lastWrite writes destination = some (ticket, true) ∧
        (Unwaited pending destination ∧ record' destination = none ∨
          ¬ Unwaited pending destination ∧ record' destination = record destination)) :
    Retains [] pending record' accepted writes := by
  have ticketIn : ticket ∈ accepted := retains.line ticket (List.mem_cons_self ..)
  refine ⟨retains.stamped, fun other member => retains.line other (List.mem_cons_of_mem _ member),
    ?_, retains.written, retains.distinct, retains.pendingNewest, ?_, ?_,
    fun write writeIn other member => retains.ordered write writeIn other
      (List.mem_cons_of_mem _ member), retains.sorted, ?_⟩
  · intro target failure found
    by_cases same : target = destination
    · subst same
      rcases done with ⟨reason, failed⟩ | ⟨-, ⟨-, cleared⟩ | ⟨-, stays⟩⟩
      · rw [failed] at found
        obtain rfl := Option.some.inj found
        exact ⟨ticketIn, saves⟩
      · cases found.symm.trans cleared
      · rw [stays] at found
        exact retains.recorded target failure found
    · rw [others target same] at found
      exact retains.recorded target failure found
  · exact fun _ _ _ _ _ member => absurd member List.not_mem_nil
  · intro target newest greatest clear
    by_cases same : target = destination
    · subst same
      have is := retains.frontNewest target newest greatest clear ticket
        (List.mem_cons_self ..) saves
      subst is
      rcases done with ⟨reason, failed⟩ | ⟨last, ⟨-, cleared⟩ | ⟨waited, -⟩⟩
      · exact .inl ⟨_, failed, rfl⟩
      · exact .inr ⟨cleared, last⟩
      · exact absurd clear waited
    · rw [others target same]
      apply retains.kept target newest greatest
      intro other member is
      rcases List.mem_cons.mp member with rfl | member
      · exact same (Option.some.inj (is.symm.trans saves))
      · exact clear other member is
  · apply retains.served.finish others _ saves
    intro none
    rcases done with ⟨reason, failed⟩ | ⟨last, ⟨clear, -⟩ | ⟨-, stays⟩⟩
    · cases none.symm.trans failed
    · refine ⟨.of_lastWrite last saves le_rfl, .inr ⟨clear, fun save member is => ?_⟩⟩
      obtain ⟨newest, greatest⟩ := exists_newest ticketIn saves
      rw [retains.frontNewest _ newest greatest clear ticket (List.mem_cons_self ..) saves]
      exact greatest.2.2 save member is
    · exact ⟨.of_lastWrite last saves le_rfl, .inl (stays ▸ none)⟩

end Retains

end Retention

end TerminalCanvas.Preferences
