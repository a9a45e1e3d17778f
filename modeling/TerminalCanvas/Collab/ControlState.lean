import Mathlib.Data.List.Induction
import TerminalCanvas.Collab.ControlSteps

/-! # The control state of a host

The queue of every terminal mirrors the pending requests, every controller is a guest
that is present, and nothing guests do keeps the host from publishing its workspace. -/

namespace TerminalCanvas.Collab.Sharing

open Execution

namespace HostSessionContext

variable {host next : HostSessionContext}

/-- The guests that wait for a terminal, in the order of their requests. -/
def queueFor (host : HostSessionContext) (terminalId : Uuid) : List GuestId :=
  (host.pendingControlRequests.filter (·.terminalId = terminalId)).map (·.guestId)

structure Consistent (host : HostSessionContext) : Prop where
  queue : ∀ id, ((host.terminalControls.find id).map (·.queue)).getD [] = host.queueFor id
  once : host.pendingControlRequests.Pairwise fun earlier later =>
    ¬ (earlier.terminalId = later.terminalId ∧ earlier.guestId = later.guestId)
  keyed : ∀ id control, host.terminalControls.find id = some control → control.terminalId = id
  bounded : host.pendingControlRequests.length ≤ maxPendingControlRequests
  sized : host.terminalControls.size ≤ maxSharedControls

theorem consistent_new (start : HostStart) : (HostSessionContext.new start).Consistent := by
  refine ⟨fun id => rfl, .nil, ?_, Nat.zero_le _, Nat.zero_le _⟩
  intro id control found
  cases found

theorem Consistent.queue_eq (consistent : host.Consistent) {id : Uuid}
    {control : TerminalControlState} (found : host.terminalControls.find id = some control) :
    control.queue = host.queueFor id := by
  rw [← consistent.queue id, found]
  rfl

theorem Consistent.entry (consistent : host.Consistent) {request : ControlRequest}
    (pending : request ∈ host.pendingControlRequests) :
    ∃ control, host.terminalControls.find request.terminalId = some control := by
  cases found : host.terminalControls.find request.terminalId with
  | some control => exact ⟨control, rfl⟩
  | none =>
      have empty := consistent.queue request.terminalId
      rw [found] at empty
      have queued : request.guestId ∈ host.queueFor request.terminalId :=
        List.mem_map_of_mem (List.mem_filter.mpr ⟨pending, decide_eq_true rfl⟩)
      rw [← empty] at queued
      cases queued

theorem Consistent.nodup_queueFor (consistent : host.Consistent) (id : Uuid) :
    (host.queueFor id).Nodup := by
  apply List.pairwise_map.mpr
  apply (consistent.once.filter (·.terminalId = id)).imp_of_mem
  intro earlier later earlierIn laterIn different same
  have first := of_decide_eq_true (List.mem_filter.mp earlierIn).2
  have second := of_decide_eq_true (List.mem_filter.mp laterIn).2
  exact different ⟨first.trans second.symm, same⟩

theorem Consistent.length_queue (consistent : host.Consistent) {id : Uuid}
    {control : TerminalControlState} (found : host.terminalControls.find id = some control) :
    control.queue.length ≤ maxControlQueue := by
  rw [consistent.queue_eq found, queueFor, List.length_map]
  exact (List.length_filter_le _ _).trans consistent.bounded

theorem queueFor_filter (requests : List ControlRequest) {keep : ControlRequest → Bool}
    (kept : GuestId → Bool) {id : Uuid}
    (agree : ∀ request, request.terminalId = id → keep request = kept request.guestId) :
    ((requests.filter keep).filter (·.terminalId = id)).map (·.guestId) =
      ((requests.filter (·.terminalId = id)).map (·.guestId)).filter kept := by
  rw [List.filter_map, List.filter_filter, List.filter_filter]
  congr 1
  apply List.filter_congr
  intro request _
  by_cases ofTerminal : request.terminalId = id
  · simp [ofTerminal, agree request ofTerminal]
  · simp [ofTerminal]

/-! ## Elementary changes -/

theorem find_giveControl (host : HostSessionContext) (terminalId : Uuid) (guestId : GuestId)
    (id : Uuid) :
    (host.giveControl terminalId guestId).terminalControls.find id =
      if id = terminalId then
        some
          { terminalId := terminalId
            controller := some guestId
            controllerName := (host.guests.find guestId).map (·.displayName)
            queue := ((host.terminalControls.find terminalId).map
              fun control => control.queue.filter (· ≠ guestId)).getD [] }
      else
        host.terminalControls.find id := by
  rw [giveControl, Table.find_put]

theorem find_takeControl (host : HostSessionContext) (terminalId id : Uuid) :
    (host.takeControl terminalId).terminalControls.find id =
      (host.terminalControls.find id).map fun control =>
        if id = terminalId then { control with controller := none, controllerName := none }
        else control := by
  unfold takeControl
  split
  · next absent =>
      by_cases same : id = terminalId
      · rw [same, absent]
        rfl
      · simp [same]
  · next control found =>
      rw [Table.find_put]
      by_cases same : id = terminalId
      · simp [same, found]
      · simp [same]

theorem find_forgetRequests (host : HostSessionContext) (guestId : GuestId) (id : Uuid) :
    (host.forgetRequests guestId).terminalControls.find id =
      ((host.terminalControls.find id).map fun control =>
        { control with queue := control.queue.filter (· ≠ guestId) }).filter
          fun control => control.controller.isSome || !control.queue.isEmpty := by
  rw [forgetRequests, Table.find_keepRows, Table.find_mapRows]

theorem find_reconcile (host : HostSessionContext) (panels : List SharedPanelSnapshot)
    (id : Uuid) :
    (host.reconcile panels).terminalControls.find id =
      if id ∈ (panels.filter sharesControl).map (·.panelId) then host.terminalControls.find id
      else none := by
  simp only [reconcile, Table.find_keepKeys, decide_eq_true_eq]

@[simp] theorem guests_takeControl (host : HostSessionContext) (terminalId : Uuid) :
    (host.takeControl terminalId).guests = host.guests := by
  unfold takeControl
  split <;> rfl

@[simp] theorem pendingControlRequests_takeControl (host : HostSessionContext)
    (terminalId : Uuid) :
    (host.takeControl terminalId).pendingControlRequests = host.pendingControlRequests := by
  unfold takeControl
  split <;> rfl

theorem Consistent.giveControl (consistent : host.Consistent) {terminalId : Uuid}
    {guestId : GuestId} (requested : host.isRequested terminalId guestId = true) :
    (host.giveControl terminalId guestId).Consistent := by
  have entry : ∃ control, host.terminalControls.find terminalId = some control := by
    obtain ⟨request, pending, named⟩ := List.any_eq_true.mp requested
    obtain ⟨ofTerminal, -⟩ := Bool.and_eq_true_iff.mp named
    exact of_decide_eq_true ofTerminal ▸ consistent.entry pending
  obtain ⟨control, found⟩ := entry
  refine ⟨?_, consistent.once.filter _, ?_, ?_, ?_⟩
  · intro id
    rw [find_giveControl, queueFor, HostSessionContext.giveControl]
    split
    · next same =>
        subst same
        rw [queueFor_filter _ (· ≠ guestId) fun request ofTerminal => by
          simp [ofTerminal]]
        rw [found, ← queueFor, ← consistent.queue_eq found]
        rfl
    · next different =>
        rw [queueFor_filter _ (fun _ => true) fun request ofTerminal => by
          simp [ofTerminal, different]]
        rw [List.filter_true, consistent.queue id, queueFor]
  · intro id stored at_id
    rw [find_giveControl] at at_id
    split at at_id
    · next same =>
        cases at_id
        exact same.symm
    · exact consistent.keyed id stored at_id
  · exact (List.length_filter_le _ _).trans consistent.bounded
  · rw [HostSessionContext.giveControl, Table.size_put_of_find_some _ found]
    exact consistent.sized

theorem Consistent.takeControl (consistent : host.Consistent) (terminalId : Uuid) :
    (host.takeControl terminalId).Consistent := by
  refine ⟨?_, ?_, ?_, ?_, ?_⟩
  · intro id
    rw [find_takeControl, queueFor, pendingControlRequests_takeControl, ← queueFor,
      ← consistent.queue id]
    cases host.terminalControls.find id with
    | none => rfl
    | some control =>
        by_cases same : id = terminalId
        · simp [same]
        · simp [same]
  · rw [pendingControlRequests_takeControl]
    exact consistent.once
  · intro id control found
    rw [find_takeControl] at found
    obtain ⟨before, stored, rfl⟩ := Option.map_eq_some_iff.mp found
    have keyed := consistent.keyed id before stored
    split <;> exact keyed
  · rw [pendingControlRequests_takeControl]
    exact consistent.bounded
  · unfold HostSessionContext.takeControl
    split
    · exact consistent.sized
    · next control found =>
        rw [Table.size_put_of_find_some _ found]
        exact consistent.sized

theorem Consistent.noteControlRequest (consistent : host.Consistent)
    (request : ControlRequest) : (host.noteControlRequest request).Consistent := by
  unfold HostSessionContext.noteControlRequest
  split
  · exact consistent
  · next admitted =>
      rw [Bool.not_eq_true, Bool.or_eq_false_iff] at admitted
      obtain ⟨notRefused, notRequested⟩ := admitted
      simp only [refusesRequest, Bool.or_eq_false_iff, decide_eq_false_iff_not,
        Bool.and_eq_false_iff] at notRefused
      obtain ⟨⟨⟨⟨-, room⟩, -⟩, place⟩, -⟩ := notRefused
      refine ⟨?_, ?_, ?_, ?_, ?_⟩
      · intro id
        rw [Table.find_put, queueFor, List.filter_append, List.map_append, ← queueFor,
          ← consistent.queue id]
        split
        · next same =>
            subst same
            cases host.terminalControls.find request.terminalId with
            | none => simp
            | some control => simp
        · next different =>
            have other : request.terminalId ≠ id := fun same => different same.symm
            simp [other]
      · apply List.pairwise_append.mpr
        refine ⟨consistent.once, List.pairwise_singleton _ _, ?_⟩
        rintro earlier pending later added ⟨sameTerminal, sameGuest⟩
        rw [List.mem_singleton.mp added] at sameTerminal sameGuest
        have absent := List.any_eq_false.mp notRequested earlier pending
        simp [sameTerminal, sameGuest] at absent
      · intro id control found
        rw [Table.find_put] at found
        split at found
        · next same =>
            cases found
            cases before : host.terminalControls.find request.terminalId with
            | none => exact same.symm
            | some control => exact (consistent.keyed _ control before).trans same.symm
        · exact consistent.keyed id control found
      · rw [List.length_append, List.length_singleton]
        omega
      · cases before : host.terminalControls.find request.terminalId with
        | none =>
            rw [Table.size_put_of_find_none _ before]
            rw [before] at place
            rcases place with absent | place
            · cases absent
            · omega
        | some control =>
            rw [Table.size_put_of_find_some _ before]
            exact consistent.sized

theorem Consistent.forgetRequests (consistent : host.Consistent) (guestId : GuestId) :
    (host.forgetRequests guestId).Consistent := by
  refine ⟨?_, consistent.once.filter _, ?_, ?_, ?_⟩
  · intro id
    rw [find_forgetRequests, queueFor, HostSessionContext.forgetRequests,
      queueFor_filter _ (· ≠ guestId) fun request _ => rfl, ← queueFor, ← consistent.queue id]
    cases host.terminalControls.find id with
    | none => rfl
    | some control =>
        simp only [Option.map_some, Option.getD_some, Option.filter_some]
        split
        · rfl
        · next dropped =>
            rw [Bool.not_eq_true, Bool.or_eq_false_iff, Bool.not_eq_false'] at dropped
            exact (List.isEmpty_iff.mp dropped.2).symm
  · intro id control found
    rw [find_forgetRequests] at found
    obtain ⟨kept, -⟩ := Option.filter_eq_some_iff.mp found
    obtain ⟨before, stored, rfl⟩ := Option.map_eq_some_iff.mp kept
    exact consistent.keyed id before stored
  · exact (List.length_filter_le _ _).trans consistent.bounded
  · refine (Table.size_keepRows_le _ _).trans ?_
    rw [Table.size_mapRows]
    exact consistent.sized

theorem Consistent.reconcile (consistent : host.Consistent)
    (panels : List SharedPanelSnapshot) : (host.reconcile panels).Consistent := by
  refine ⟨?_, consistent.once.filter _, ?_, ?_, ?_⟩
  · intro id
    rw [find_reconcile, queueFor, HostSessionContext.reconcile]
    split
    · next controllable =>
        rw [queueFor_filter _ (fun _ => true) fun request ofTerminal => by
          rw [ofTerminal]
          exact decide_eq_true controllable]
        rw [List.filter_true, consistent.queue id, queueFor]
    · next closed =>
        rw [queueFor_filter _ (fun _ => false) fun request ofTerminal => by
          rw [ofTerminal]
          exact decide_eq_false closed]
        simp
  · intro id control found
    rw [find_reconcile] at found
    split at found
    · exact consistent.keyed id control found
    · cases found
  · exact (List.length_filter_le _ _).trans consistent.bounded
  · exact (Table.size_keepKeys_le _ _).trans consistent.sized

theorem Consistent.step (step : ControlStep host next) (consistent : host.Consistent) :
    next.Consistent := by
  cases step with
  | frame next guests pending controls =>
      refine ⟨?_, ?_, ?_, ?_, ?_⟩
      · intro id
        rw [controls, queueFor, pending]
        exact consistent.queue id
      · exact pending ▸ consistent.once
      · exact controls ▸ consistent.keyed
      · exact pending ▸ consistent.bounded
      · exact controls ▸ consistent.sized
  | give terminalId guestId allowed requested => exact consistent.giveControl requested
  | take terminalId => exact consistent.takeControl terminalId
  | note request => exact consistent.noteControlRequest request
  | forget guestId => exact consistent.forgetRequests guestId
  | reconcile panels => exact consistent.reconcile panels

/-! ## Controllers -/

/-- Where the controller of a terminal comes from: nobody has the control, it was there
before, or a guest was given it. -/
def Inherits (host : HostSessionContext) (id : Uuid) (control : TerminalControlState) : Prop :=
  (control.controller = none ∧ control.controllerName = none) ∨
    (∃ before, host.terminalControls.find id = some before ∧
      control.controller = before.controller ∧
      control.controllerName = before.controllerName) ∨
    ∃ guestId, host.allowsControlTarget id guestId = true ∧
      control.controller = some guestId ∧
      control.controllerName = (host.guests.find guestId).map (·.displayName)

theorem Inherits.of_found {id : Uuid} {control : TerminalControlState}
    (found : host.terminalControls.find id = some control) : host.Inherits id control :=
  .inr (.inl ⟨control, found, rfl, rfl⟩)

theorem inherits_step (step : ControlStep host next) {id : Uuid} {control : TerminalControlState}
    (found : next.terminalControls.find id = some control) : host.Inherits id control := by
  cases step with
  | frame next guests pending controls => exact .of_found (controls ▸ found)
  | give terminalId guestId allowed requested =>
      rw [find_giveControl] at found
      split at found
      · next same =>
          cases found
          exact .inr (.inr ⟨guestId, same ▸ allowed, rfl, rfl⟩)
      · exact .of_found found
  | take terminalId =>
      rw [find_takeControl] at found
      obtain ⟨before, stored, rfl⟩ := Option.map_eq_some_iff.mp found
      split
      · exact .inl ⟨rfl, rfl⟩
      · exact .of_found stored
  | note request =>
      unfold HostSessionContext.noteControlRequest at found
      split at found
      · exact .of_found found
      · rw [Table.find_put] at found
        split at found
        · next same =>
            subst same
            cases found
            cases before : host.terminalControls.find request.terminalId with
            | none => exact .inl ⟨rfl, rfl⟩
            | some control => exact .inr (.inl ⟨control, before, rfl, rfl⟩)
        · exact .of_found found
  | forget guestId =>
      rw [find_forgetRequests] at found
      obtain ⟨kept, -⟩ := Option.filter_eq_some_iff.mp found
      obtain ⟨before, stored, rfl⟩ := Option.map_eq_some_iff.mp kept
      exact .inr (.inl ⟨before, stored, rfl, rfl⟩)
  | reconcile panels =>
      rw [find_reconcile] at found
      split at found
      · exact .of_found found
      · cases found

theorem guests_step (step : ControlStep host next) : next.guests = host.guests := by
  cases step with
  | frame next guests pending controls => exact guests
  | give terminalId guestId allowed requested => rfl
  | take terminalId => exact guests_takeControl host terminalId
  | note request =>
      unfold HostSessionContext.noteControlRequest
      split <;> rfl
  | forget guestId => rfl
  | reconcile panels => rfl

/-- Every controller is a guest that is approved or connected. -/
def ControllersPresent (host : HostSessionContext) : Prop :=
  ∀ id control guestId, host.terminalControls.find id = some control →
    control.controller = some guestId → (host.guests.find guestId).any isPresent = true

theorem ControllersPresent.step (step : ControlStep host next)
    (present : host.ControllersPresent) : next.ControllersPresent := by
  intro id control guestId found controls
  rw [guests_step step]
  rcases inherits_step step found with ⟨nobody, -⟩ | ⟨before, stored, same, -⟩ |
    ⟨given, allowed, same, -⟩
  · rw [nobody] at controls
    cases controls
  · exact present id before guestId stored (same ▸ controls)
  · rw [same] at controls
    cases controls
    exact (Bool.and_eq_true_iff.mp allowed).1

/-- The names that a snapshot of the host would carry fit its labels. -/
structure NamesFit (host : HostSessionContext) : Prop where
  guests : ∀ id guest, host.guests.find id = some guest → labelFits guest.displayName = true
  controllers : ∀ id control, host.terminalControls.find id = some control →
    control.controllerName.all labelFits = true

theorem NamesFit.step (step : ControlStep host next) (fit : host.NamesFit) : next.NamesFit := by
  refine ⟨guests_step step ▸ fit.guests, ?_⟩
  intro id control found
  rcases inherits_step step found with ⟨-, nobody⟩ | ⟨before, stored, -, same⟩ |
    ⟨given, -, -, same⟩
  · rw [nobody]
    rfl
  · rw [same]
    exact fit.controllers id before stored
  · rw [same]
    cases known : host.guests.find given with
    | none => rfl
    | some guest => exact fit.guests given guest known

/-! ## Guests that leave -/

/-- The guests stay, and control is at most taken away. -/
structure Takes (host next : HostSessionContext) : Prop where
  guests : next.guests = host.guests
  controls : ∀ id control, next.terminalControls.find id = some control →
    ∃ before, host.terminalControls.find id = some before ∧
      control.terminalId = before.terminalId ∧
      (control.controller = none ∨ control.controller = before.controller)

theorem Takes.refl (host : HostSessionContext) : host.Takes host :=
  ⟨rfl, fun _ control found => ⟨control, found, rfl, .inr rfl⟩⟩

theorem Takes.trans {middle : HostSessionContext} (first : host.Takes middle)
    (second : middle.Takes next) : host.Takes next := by
  refine ⟨second.guests.trans first.guests, ?_⟩
  intro id control found
  obtain ⟨between, stored, sameId, controller⟩ := second.controls id control found
  obtain ⟨before, storedBefore, sameIdBefore, earlier⟩ := first.controls id between stored
  refine ⟨before, storedBefore, sameId.trans sameIdBefore, ?_⟩
  rcases controller with nobody | same
  · exact .inl nobody
  · rw [same]
    exact earlier

theorem takes_takeControl (host : HostSessionContext) (terminalId : Uuid) :
    host.Takes (host.takeControl terminalId) := by
  refine ⟨guests_takeControl host terminalId, ?_⟩
  intro id control found
  rw [find_takeControl] at found
  obtain ⟨before, stored, rfl⟩ := Option.map_eq_some_iff.mp found
  refine ⟨before, stored, ?_⟩
  split
  · exact ⟨rfl, .inl rfl⟩
  · exact ⟨rfl, .inr rfl⟩

theorem takes_forgetRequests (host : HostSessionContext) (guestId : GuestId) :
    host.Takes (host.forgetRequests guestId) := by
  refine ⟨rfl, ?_⟩
  intro id control found
  rw [find_forgetRequests] at found
  obtain ⟨kept, -⟩ := Option.filter_eq_some_iff.mp found
  obtain ⟨before, stored, rfl⟩ := Option.map_eq_some_iff.mp kept
  exact ⟨before, stored, rfl, .inr rfl⟩

/-- The entries are stored under their terminals. -/
def Keyed (host : HostSessionContext) : Prop :=
  ∀ id control, host.terminalControls.find id = some control → control.terminalId = id

theorem Takes.keyed (takes : host.Takes next) (keyed : host.Keyed) : next.Keyed := by
  intro id control found
  obtain ⟨before, stored, same, -⟩ := takes.controls id control found
  exact same.trans (keyed id before stored)

def Uncontrolled (host : HostSessionContext) (guestId : GuestId) : Prop :=
  ∀ id control, host.terminalControls.find id = some control →
    control.controller ≠ some guestId

theorem Takes.uncontrolled (takes : host.Takes next) {guestId : GuestId}
    (free : host.Uncontrolled guestId) : next.Uncontrolled guestId := by
  intro id control found controls
  obtain ⟨before, stored, -, nobody | same⟩ := takes.controls id control found
  · rw [nobody] at controls
    cases controls
  · exact free id before stored (same ▸ controls)

section Release

variable (foreign : Foreign)

theorem takes_revokeControl (sending : Sending) (terminalId : Uuid) (reason : String) :
    sending.host.Takes (revokeControl foreign sending terminalId reason).host := by
  obtain ⟨guests, controls⟩ := takes_takeControl sending.host terminalId
  exact ⟨guests, controls⟩

theorem find_revokeControl (sending : Sending) (terminalId : Uuid) (reason : String)
    {control : TerminalControlState}
    (found : (revokeControl foreign sending terminalId reason).host.terminalControls.find
      terminalId = some control) : control.controller = none := by
  have taken : (sending.host.takeControl terminalId).terminalControls.find terminalId =
    some control := found
  rw [find_takeControl] at taken
  obtain ⟨before, -, rfl⟩ := Option.map_eq_some_iff.mp taken
  rw [if_pos rfl]

theorem takes_foldl {Item : Type} {operation : Sending → Item → Sending}
    (takes : ∀ (sending : Sending) (item : Item),
      sending.host.Takes (operation sending item).host)
    (items : List Item) (sending : Sending) :
    sending.host.Takes (items.foldl operation sending).host := by
  induction items generalizing sending with
  | nil => exact .refl _
  | cons item items induction => exact (takes sending item).trans (induction _)

theorem foldl_revokeControl (terminals : List Uuid) (sending : Sending) {id : Uuid}
    (revoked : id ∈ terminals) {control : TerminalControlState}
    (found : (terminals.foldl (fun sending terminalId =>
      revokeControl foreign sending terminalId "Guest disconnected")
        sending).host.terminalControls.find id = some control) :
    control.controller = none := by
  induction terminals generalizing sending with
  | nil => cases revoked
  | cons terminalId terminals induction =>
      rcases List.mem_cons.mp revoked with rfl | later
      · have takes := takes_foldl (fun sending terminalId =>
          takes_revokeControl foreign sending terminalId "Guest disconnected") terminals
          (revokeControl foreign sending id "Guest disconnected")
        obtain ⟨before, stored, -, nobody | same⟩ := takes.controls id control found
        · exact nobody
        · exact same.trans (find_revokeControl foreign sending id _ stored)
      · exact induction _ later found

theorem takes_releaseControlsForGuest (sending : Sending) (guestId : GuestId) :
    sending.host.Takes (releaseControlsForGuest foreign sending guestId).host := by
  have revoked := takes_foldl (fun sending terminalId =>
      takes_revokeControl foreign sending terminalId "Guest disconnected")
    ((sending.host.terminalControls.rows.filter (·.controller = some guestId)).map
      (·.terminalId)) sending
  exact revoked.trans (takes_forgetRequests _ guestId)

theorem uncontrolled_releaseControlsForGuest (sending : Sending) (keyed : sending.host.Keyed)
    (guestId : GuestId) :
    (releaseControlsForGuest foreign sending guestId).host.Uncontrolled guestId := by
  apply (takes_forgetRequests _ guestId).uncontrolled
  intro id control found controls
  have takes := takes_foldl (fun sending terminalId =>
      takes_revokeControl foreign sending terminalId "Guest disconnected")
    ((sending.host.terminalControls.rows.filter (·.controller = some guestId)).map
      (·.terminalId)) sending
  obtain ⟨before, stored, -, nobody | same⟩ := takes.controls id control found
  · rw [nobody] at controls
    cases controls
  · have controlled : id ∈ (sending.host.terminalControls.rows.filter
        (·.controller = some guestId)).map (·.terminalId) := by
      rw [← keyed id before stored]
      apply List.mem_map_of_mem
      exact List.mem_filter.mpr ⟨Table.mem_rows_iff.mpr ⟨id, stored⟩,
        decide_eq_true (same ▸ controls)⟩
    rw [foldl_revokeControl foreign _ sending controlled found] at controls
    cases controls

theorem uncontrolled_foldl (guests : List GuestId) (sending : Sending)
    (keyed : sending.host.Keyed) {guestId : GuestId} (released : guestId ∈ guests) :
    (guests.foldl (releaseControlsForGuest foreign) sending).host.Uncontrolled guestId := by
  induction guests generalizing sending with
  | nil => cases released
  | cons first guests induction =>
      have takes := takes_releaseControlsForGuest foreign sending first
      rcases List.mem_cons.mp released with rfl | later
      · have others := takes_foldl (takes_releaseControlsForGuest foreign) guests
          (releaseControlsForGuest foreign sending guestId)
        exact others.uncontrolled
          (uncontrolled_releaseControlsForGuest foreign sending keyed guestId)
      · exact induction _ (takes.keyed keyed) later

end Release

/-! ## Reports -/

theorem guestTable_append_singleton (guests : List GuestPresence) (guest : GuestPresence) :
    CollabManager.guestTable (guests ++ [guest]) =
      (CollabManager.guestTable guests).put guest.id guest := by
  rw [CollabManager.guestTable, List.foldl_append]
  rfl

theorem mem_of_find_guestTable {guests : List GuestPresence} {id : GuestId}
    {guest : GuestPresence} (found : (CollabManager.guestTable guests).find id = some guest) :
    guest ∈ guests ∧ guest.id = id := by
  induction guests using List.reverseRecOn with
  | nil => cases found
  | append_singleton guests last induction =>
      rw [guestTable_append_singleton, Table.find_put] at found
      split at found
      · next same =>
          cases found
          exact ⟨List.mem_append_right _ (List.mem_singleton_self _), same.symm⟩
      · obtain ⟨member, named⟩ := induction found
        exact ⟨List.mem_append_left _ member, named⟩

theorem find_guestTable_of_mem {guests : List GuestPresence} {guest : GuestPresence}
    (member : guest ∈ guests) :
    ∃ last, (CollabManager.guestTable guests).find guest.id = some last := by
  induction guests using List.reverseRecOn with
  | nil => cases member
  | append_singleton guests last induction =>
      rw [guestTable_append_singleton, Table.find_put]
      split
      · exact ⟨last, rfl⟩
      · next different =>
          rcases List.mem_append.mp member with before | added
          · exact induction before
          · rw [List.mem_singleton.mp added] at different
            exact absurd rfl different

/-- The report does not send a guest that was present back to the door. -/
def KeepsApproved (host : HostSessionContext) (guests : List GuestPresence) : Prop :=
  ∀ id before after, host.guests.find id = some before → isPresent before = true →
    (CollabManager.guestTable guests).find id = some after → after.connectionState ≠ .pending

theorem present_of_not_gone {host : HostSessionContext} {guests : List GuestPresence}
    {guestId : GuestId} (keeps : host.KeepsApproved guests)
    (present : (host.guests.find guestId).any isPresent = true)
    (stays : guestId ∉ CollabManager.goneGuests host.guests
      (CollabManager.recordGuests guests host) guests) :
    ((CollabManager.guestTable guests).find guestId).any isPresent = true := by
  obtain ⟨before, known, wasPresent⟩ := (Option.any_eq_true _ _).mp present
  rw [CollabManager.goneGuests, List.mem_append, not_or] at stays
  obtain ⟨notReportedGone, notDeparted⟩ := stays
  have named : ∃ guest ∈ guests, guest.id = guestId := by
    by_contra unnamed
    apply notDeparted
    refine List.mem_filter.mpr ⟨Table.mem_keys_iff.mpr ⟨before, known⟩, ?_⟩
    refine List.all_eq_true.mpr fun guest member => decide_eq_true fun same => ?_
    exact unnamed ⟨guest, member, same⟩
  obtain ⟨guest, member, rfl⟩ := named
  obtain ⟨after, reported⟩ := find_guestTable_of_mem member
  have waiting := keeps guest.id before after known wasPresent reported
  rw [reported]
  have gone : ¬ (after.connectionState = .disconnected ∨ after.connectionState = .denied) := by
    intro isGone
    apply notReportedGone
    rw [← (mem_of_find_guestTable reported).2]
    apply List.mem_map_of_mem
    refine List.mem_filter.mpr ⟨Table.mem_rows_iff.mpr ⟨guest.id, reported⟩, ?_⟩
    rcases isGone with state | state
    · rw [state]
    · rw [state]
  simp only [Option.any_some, isPresent]
  cases state : after.connectionState with
  | pending => exact absurd state waiting
  | approved | connected => rfl
  | disconnected => exact absurd (.inl state) gone
  | denied => exact absurd (.inr state) gone

theorem controllersPresent_hostPresence (foreign : Foreign) {sending : Sending}
    {guests : List GuestPresence} (keyed : sending.host.Keyed)
    (present : sending.host.ControllersPresent) (keeps : sending.host.KeepsApproved guests) :
    (CollabManager.hostPresence foreign guests sending).host.ControllersPresent := by
  have takes := takes_foldl (takes_releaseControlsForGuest foreign)
    (CollabManager.goneGuests sending.host.guests
      (CollabManager.recordGuests guests sending.host) guests)
    { sending with host := CollabManager.recordGuests guests sending.host }
  intro id control guestId found controls
  have guestsSame : (CollabManager.hostPresence foreign guests sending).host.guests =
    CollabManager.guestTable guests := takes.guests
  rw [guestsSame]
  obtain ⟨before, stored, -, nobody | same⟩ := takes.controls id control found
  · rw [nobody] at controls
    cases controls
  · apply present_of_not_gone keeps (present id before guestId stored (same ▸ controls))
    intro gone
    have free := uncontrolled_foldl foreign _
      { sending with host := CollabManager.recordGuests guests sending.host } keyed gone
    exact free id control found controls

theorem consistent_hostPresence (foreign : Foreign) {sending : Sending}
    (guests : List GuestPresence) (consistent : sending.host.Consistent) :
    (CollabManager.hostPresence foreign guests sending).host.Consistent := by
  have recorded : (CollabManager.recordGuests guests sending.host).Consistent :=
    ⟨consistent.queue, consistent.once, consistent.keyed, consistent.bounded, consistent.sized⟩
  exact (controlSteps_hostPresence foreign sending guests).preserves Consistent.step recorded

theorem namesFit_hostPresence (foreign : Foreign) {sending : Sending}
    {guests : List GuestPresence} (fit : sending.host.NamesFit)
    (named : ∀ guest ∈ guests, labelFits guest.displayName = true) :
    (CollabManager.hostPresence foreign guests sending).host.NamesFit := by
  have recorded : (CollabManager.recordGuests guests sending.host).NamesFit := by
    refine ⟨?_, fit.controllers⟩
    intro id guest found
    exact named guest (mem_of_find_guestTable found).1
  exact (controlSteps_hostPresence foreign sending guests).preserves NamesFit.step recorded

end HostSessionContext

end TerminalCanvas.Collab.Sharing
