import TerminalCanvas.Collab.ControlState

/-! # Control in every run

From the start of a host session on the control state stays consistent, and a snapshot
that is fit to be published stays so when the control state is merged into it. -/

namespace TerminalCanvas.Collab.Sharing

open Execution

/-! ## Merging -/

structure WithinLimits (snapshot : SharedWorkspaceSnapshot) : Prop where
  name : labelFits snapshot.workspaceName = true
  panels : snapshot.panels.length ≤ maxSharedPanels
  guests : snapshot.guests.length ≤ maxSharedGuests
  controls : snapshot.terminalControls.length ≤ maxSharedControls
  texts : ∃ textBytes ≤ maxSharedTextBytes, validatePanels [] 0 snapshot.panels = .ok textBytes
  guestsFit : snapshot.guests.all guestFits = true
  controlsFit : snapshot.terminalControls.all controlFits = true

theorem validateSnapshotLimits_ok_iff (snapshot : SharedWorkspaceSnapshot) :
    validateSnapshotLimits snapshot = .ok () ↔ WithinLimits snapshot := by
  unfold validateSnapshotLimits
  constructor
  · intro valid
    split at valid
    · cases valid
    · next structural =>
        simp only [not_or, Bool.not_eq_false, Nat.not_lt] at structural
        obtain ⟨name, panels, guests, controls⟩ := structural
        split at valid
        · cases valid
        · next textBytes texts =>
            split at valid
            · cases valid
            · next content =>
                simp only [not_or, Bool.not_eq_false, Nat.not_lt] at content
                exact ⟨name, panels, guests, controls, ⟨textBytes, content.1, texts⟩,
                  content.2.1, content.2.2⟩
  · rintro ⟨name, panels, guests, controls, ⟨textBytes, bound, texts⟩, guestsFit, controlsFit⟩
    rw [if_neg (by simp only [not_or, Bool.not_eq_false, Nat.not_lt]
                   exact ⟨name, panels, guests, controls⟩), texts]
    dsimp only
    rw [if_neg (by simp only [not_or, Bool.not_eq_false, Nat.not_lt]
                   exact ⟨bound, guestsFit, controlsFit⟩)]

theorem panelFits_withControl {controls : Table Uuid TerminalControlState}
    (named : ∀ id control, controls.find id = some control →
      control.controllerName.all labelFits = true)
    {panel : SharedPanelSnapshot} (fits : panelFits panel = true) :
    panelFits (panel.withControl controls) = true := by
  unfold SharedPanelSnapshot.withControl
  split
  · exact fits
  · next control found =>
      simp only [panelFits, Bool.and_eq_true] at fits ⊢
      rw [named _ control found]
      simp only [fits, and_self]

theorem validatePanels_withControl {controls : Table Uuid TerminalControlState}
    (named : ∀ id control, controls.find id = some control →
      control.controllerName.all labelFits = true)
    (panels : List SharedPanelSnapshot) (seen : List Uuid) (before textBytes : Nat)
    (valid : validatePanels seen before panels = .ok textBytes) :
    validatePanels seen before (panels.map (·.withControl controls)) = .ok textBytes := by
  induction panels generalizing seen before with
  | nil => exact valid
  | cons panel panels induction =>
      have sameId : (panel.withControl controls).panelId = panel.panelId := by
        unfold SharedPanelSnapshot.withControl
        split <;> rfl
      have sameVisible : (panel.withControl controls).visibleText = panel.visibleText := by
        unfold SharedPanelSnapshot.withControl
        split <;> rfl
      have sameHistory : (panel.withControl controls).historyText = panel.historyText := by
        unfold SharedPanelSnapshot.withControl
        split <;> rfl
      simp only [validatePanels, List.map_cons] at valid ⊢
      rw [sameId, sameVisible, sameHistory]
      split at valid
      · cases valid
      · next admitted =>
          rw [not_or, Bool.not_eq_false] at admitted
          rw [if_neg (by rw [not_or, Bool.not_eq_false]
                         exact ⟨admitted.1, panelFits_withControl named admitted.2⟩)]
          split at valid
          · cases valid
          · exact induction _ _ valid

theorem withinLimits_merged {host : HostSessionContext} (consistent : host.Consistent)
    (fit : host.NamesFit) {snapshot : SharedWorkspaceSnapshot}
    (within : WithinLimits { snapshot with guests := host.guests.rows, terminalControls := [] }) :
    WithinLimits (snapshot.merged host.guests host.terminalControls) := by
  obtain ⟨name, panels, guests, -, ⟨textBytes, bound, texts⟩, guestsFit, -⟩ := within
  refine ⟨name, ?_, guests, ?_, ⟨textBytes, bound, ?_⟩, guestsFit, ?_⟩
  · rw [SharedWorkspaceSnapshot.merged, List.length_map]
    exact panels
  · rw [SharedWorkspaceSnapshot.merged, Table.length_rows]
    exact consistent.sized
  · exact validatePanels_withControl fit.controllers snapshot.panels [] 0 textBytes texts
  · apply List.all_eq_true.mpr
    intro control member
    obtain ⟨id, found⟩ := Table.mem_rows_iff.mp member
    rw [controlFits, Bool.and_eq_true, decide_eq_true_iff]
    exact ⟨consistent.length_queue found, fit.controllers id control found⟩

/-! ## Runs -/

namespace CollabManager

variable {foreign : Foreign}

/-- What the host keeps holds of it in every run, when the start of a session has it and
the reports of the broker keep it. -/
theorem host_invariant (Invariant : HostSessionContext → Prop)
    (Allowed : HostSessionContext → List GuestPresence → Prop)
    (begun : ∀ start, Invariant (.new start))
    (step : ∀ {host next}, ControlStep host next → Invariant host → Invariant next)
    (report : ∀ (sending : Sending) (guests : List GuestPresence), Allowed sending.host guests →
      Invariant sending.host → Invariant (hostPresence foreign guests sending).host)
    {brokerUrl : String} {inputs : List Input}
    (admitted : (machine foreign).Admits (fun manager input => ∀ guests host,
      input.call = .brokerMessage (.presence guests) → manager.host = some host →
      Allowed host guests) (.new brokerUrl) inputs)
    {host : HostSessionContext} (hosting : (reached foreign brokerUrl inputs).host = some host) :
    Invariant host := by
  have holds := admitted.invariant _
    (fun manager => ∀ host, manager.host = some host → Invariant host) ?_ ?_
  · exact holds host hosting
  · intro manager input allowed holds after hosting
    have change : ControlChange foreign (manager.facing input.attempts) input.call
      ((machine foreign).next manager input) := controlChange_perform _ _
    cases change with
    | steps related unreported continues =>
        obtain ⟨before, hosted, steps⟩ := related after hosting
        exact steps.preserves step (holds before hosted)
    | started start called begins =>
        rw [begins] at hosting
        obtain ⟨start, -, rfl⟩ := Option.map_eq_some_iff.mp hosting
        exact begun start
    | reported guests called recorded =>
        rw [recorded] at hosting
        obtain ⟨before, hosted, rfl⟩ := Option.map_eq_some_iff.mp hosting
        exact report _ guests (allowed guests before called hosted) (holds before hosted)
  · intro host hosting
    cases hosting

theorem consistent_reached {brokerUrl : String} {inputs : List Input}
    {host : HostSessionContext} (hosting : (reached foreign brokerUrl inputs).host = some host) :
    host.Consistent := by
  apply host_invariant HostSessionContext.Consistent (fun _ _ => True)
    HostSessionContext.consistent_new HostSessionContext.Consistent.step
    (fun sending guests _ => HostSessionContext.consistent_hostPresence foreign guests) _ hosting
  intro manager input _ guests host _ _
  trivial

/-- The reports of a run never send a guest that was present back to the door. -/
def ReportsKeepApproved (manager : CollabManager) (input : Input) : Prop :=
  ∀ guests host, input.call = .brokerMessage (.presence guests) → manager.host = some host →
    host.KeepsApproved guests

theorem controllersPresent_reached {brokerUrl : String} {inputs : List Input}
    (approved : (machine foreign).Admits ReportsKeepApproved (.new brokerUrl) inputs)
    {host : HostSessionContext} (hosting : (reached foreign brokerUrl inputs).host = some host) :
    host.ControllersPresent := by
  have holds := host_invariant
    (fun host => host.Consistent ∧ host.ControllersPresent) HostSessionContext.KeepsApproved
    (fun start => ⟨HostSessionContext.consistent_new start, fun id control guestId found => by
      cases found⟩)
    (fun step holds => ⟨holds.1.step step, holds.2.step step⟩)
    (fun sending guests keeps holds =>
      ⟨HostSessionContext.consistent_hostPresence foreign guests holds.1,
        HostSessionContext.controllersPresent_hostPresence foreign holds.1.keyed holds.2 keeps⟩)
    approved hosting
  exact holds.2

/-- Every name a report carries fits the labels of a snapshot. -/
def ReportsFitNames (input : Input) : Prop :=
  ∀ guests, input.call = .brokerMessage (.presence guests) →
    ∀ guest ∈ guests, labelFits guest.displayName = true

theorem namesFit_reached {brokerUrl : String} {inputs : List Input}
    (named : ∀ input ∈ inputs, ReportsFitNames input)
    {host : HostSessionContext} (hosting : (reached foreign brokerUrl inputs).host = some host) :
    host.NamesFit := by
  apply host_invariant HostSessionContext.NamesFit
    (fun _ guests => ∀ guest ∈ guests, labelFits guest.displayName = true)
    _ HostSessionContext.NamesFit.step
    (fun sending guests fits fit => HostSessionContext.namesFit_hostPresence foreign fit fits)
    _ hosting
  · intro start
    refine ⟨?_, ?_⟩ <;> intro id row found <;> cases found
  · intro manager input member guests host called _
    obtain ⟨before, after, rfl, -⟩ := (machine foreign).mem_trace_iff.mp member
    exact named input (by simp) guests called

/-! ## The last report -/

/-- The guests the broker reported last in the session. -/
def noteReport (last : List GuestPresence) (input : Input) : List GuestPresence :=
  match input.call with
  | .brokerMessage (.presence guests) => guests
  | .startHostSession _ => []
  | _ => last

def lastReport (inputs : List Input) : List GuestPresence := inputs.foldl noteReport []

theorem guests_reached {brokerUrl : String} {inputs : List Input} {host : HostSessionContext}
    (hosting : (reached foreign brokerUrl inputs).host = some host) :
    host.guests = guestTable (lastReport inputs) := by
  induction inputs using List.reverseRecOn generalizing host with
  | nil => cases hosting
  | append_singleton inputs input induction =>
      have change := @controlChange_perform foreign
        ((reached foreign brokerUrl inputs).facing input.attempts) input.call
      rw [← reached_append_singleton] at change
      have noted : lastReport (inputs ++ [input]) = noteReport (lastReport inputs) input := by
        simp [lastReport]
      rw [noted]
      cases change with
      | steps related unreported continues =>
          obtain ⟨before, hosted, steps⟩ := related host hosting
          have unchanged : noteReport (lastReport inputs) input = lastReport inputs := by
            unfold noteReport
            split
            · next guests called => exact absurd called (unreported guests)
            · next start called => exact absurd called (continues start)
            · rfl
          rw [unchanged, ← induction hosted]
          exact @ControlSteps.preserves (fun next => next.guests = before.guests)
            (fun step same => (HostSessionContext.guests_step step).trans same) _ _ steps rfl
      | started start called begins =>
          rw [begins] at hosting
          obtain ⟨start, -, rfl⟩ := Option.map_eq_some_iff.mp hosting
          rw [noteReport, called]
          rfl
      | reported guests called recorded =>
          rw [recorded] at hosting
          obtain ⟨before, -, rfl⟩ := Option.map_eq_some_iff.mp hosting
          rw [noteReport, called]
          exact (HostSessionContext.takes_foldl
            (HostSessionContext.takes_releaseControlsForGuest foreign) _ _).guests

theorem lastReport_origin (inputs : List Input) :
    lastReport inputs = [] ∨
      ∃ input ∈ inputs, input.call = .brokerMessage (.presence (lastReport inputs)) := by
  induction inputs using List.reverseRecOn with
  | nil => exact .inl rfl
  | append_singleton inputs input induction =>
      have noted : lastReport (inputs ++ [input]) = noteReport (lastReport inputs) input := by
        simp [lastReport]
      rw [noted]
      unfold noteReport
      split
      · next guests called => exact .inr ⟨input, by simp, called⟩
      · exact .inl rfl
      · rcases induction with empty | ⟨earlier, member, called⟩
        · exact .inl empty
        · exact .inr ⟨earlier, List.mem_append_left _ member, called⟩

theorem size_guestTable_le (guests : List GuestPresence) :
    (guestTable guests).size ≤ guests.length := by
  induction guests using List.reverseRecOn with
  | nil => exact Nat.le_refl _
  | append_singleton guests guest induction =>
      rw [HostSessionContext.guestTable_append_singleton, List.length_append]
      cases known : (guestTable guests).find guest.id with
      | none =>
          rw [Table.size_put_of_find_none _ known]
          exact Nat.succ_le_succ induction
      | some earlier =>
          rw [Table.size_put_of_find_some _ known]
          exact Nat.le_succ_of_le induction

/-- Every report keeps the limits a snapshot has for its guests. -/
def ReportsFit (input : Input) : Prop :=
  ∀ guests, input.call = .brokerMessage (.presence guests) →
    guests.length ≤ maxSharedGuests ∧ guests.all guestFits = true

theorem ReportsFit.names {input : Input} (fit : ReportsFit input) : ReportsFitNames input := by
  intro guests called guest member
  have fits := List.all_eq_true.mp (fit guests called).2 guest member
  rw [guestFits, Bool.and_eq_true] at fits
  exact fits.1

theorem guestsFit_reached {brokerUrl : String} {inputs : List Input}
    (fit : ∀ input ∈ inputs, ReportsFit input) {host : HostSessionContext}
    (hosting : (reached foreign brokerUrl inputs).host = some host) :
    host.guests.rows.length ≤ maxSharedGuests ∧ host.guests.rows.all guestFits = true := by
  have reported : (lastReport inputs).length ≤ maxSharedGuests ∧
      (lastReport inputs).all guestFits = true := by
    rcases lastReport_origin inputs with empty | ⟨input, member, called⟩
    · rw [empty]
      decide
    · exact fit input member _ called
  rw [guests_reached hosting, Table.length_rows]
  refine ⟨(size_guestTable_le _).trans reported.1, ?_⟩
  apply List.all_eq_true.mpr
  intro guest member
  obtain ⟨id, found⟩ := Table.mem_rows_iff.mp member
  exact List.all_eq_true.mp reported.2 guest (HostSessionContext.mem_of_find_guestTable found).1

/-! ## The control state in every run -/

/-- Queues, pending requests and controllers agree after every run. A snapshot that keeps
its limits without controls also keeps them with the controls of the host, as far as the
names of the reports fit; with reports that fit altogether the guests do no harm either. -/
theorem control_state_consistent (foreign : Foreign) (brokerUrl : String)
    (inputs : List Input) (host : HostSessionContext)
    (hosting : (reached foreign brokerUrl inputs).host = some host)
    (approved : (machine foreign).Admits ReportsKeepApproved (.new brokerUrl) inputs) :
    (∀ id, ((host.terminalControls.find id).map (·.queue)).getD [] = host.queueFor id ∧
        (host.queueFor id).Nodup) ∧
      (∀ request ∈ host.pendingControlRequests,
        ∃ control, host.terminalControls.find request.terminalId = some control) ∧
      (∀ id control guestId, host.terminalControls.find id = some control →
        control.controller = some guestId → ∃ guest ∈ lastReport inputs, guest.id = guestId ∧
          HostSessionContext.isPresent guest = true) ∧
      ((∀ input ∈ inputs, ReportsFitNames input) → ∀ snapshot : SharedWorkspaceSnapshot,
        validateSnapshotLimits { snapshot with
          guests := host.guests.rows, terminalControls := [] } = .ok () →
        validateSnapshotLimits (snapshot.merged (host.reconcile snapshot.panels).guests
          (host.reconcile snapshot.panels).terminalControls) = .ok ()) ∧
      ((∀ input ∈ inputs, ReportsFit input) → ∀ snapshot : SharedWorkspaceSnapshot,
        validateSnapshotLimits { snapshot with terminalControls := [] } = .ok () →
        validateSnapshotLimits (snapshot.merged (host.reconcile snapshot.panels).guests
          (host.reconcile snapshot.panels).terminalControls) = .ok ()) := by
  have consistent := consistent_reached hosting
  have present := controllersPresent_reached approved hosting
  have merges : (∀ input ∈ inputs, ReportsFitNames input) →
      ∀ snapshot : SharedWorkspaceSnapshot,
        WithinLimits { snapshot with guests := host.guests.rows, terminalControls := [] } →
        WithinLimits (snapshot.merged (host.reconcile snapshot.panels).guests
          (host.reconcile snapshot.panels).terminalControls) := by
    intro named snapshot within
    have fit := namesFit_reached named hosting
    exact withinLimits_merged (consistent.reconcile snapshot.panels)
      (fit.step (.reconcile snapshot.panels)) within
  refine ⟨fun id => ⟨consistent.queue id, consistent.nodup_queueFor id⟩,
    fun request pending => consistent.entry pending, ?_, ?_, ?_⟩
  · intro id control guestId found controls
    have known := present id control guestId found controls
    rw [guests_reached hosting, Option.any_eq_true] at known
    obtain ⟨guest, reported, isPresent⟩ := known
    obtain ⟨member, named⟩ := HostSessionContext.mem_of_find_guestTable reported
    exact ⟨guest, member, named, isPresent⟩
  · intro named snapshot valid
    rw [validateSnapshotLimits_ok_iff] at valid ⊢
    exact merges named snapshot valid
  · intro fit snapshot valid
    rw [validateSnapshotLimits_ok_iff] at valid ⊢
    apply merges (fun input member => (fit input member).names)
    obtain ⟨few, fits⟩ := guestsFit_reached fit hosting
    exact ⟨valid.name, valid.panels, few, valid.controls, valid.texts, fits, valid.controlsFit⟩

theorem admits_of_no_pending {brokerUrl : String} {inputs : List Input}
    (waiting : ∀ input ∈ inputs, ∀ guests, input.call = .brokerMessage (.presence guests) →
      ∀ guest ∈ guests, guest.connectionState ≠ .pending) :
    (machine foreign).Admits ReportsKeepApproved (.new brokerUrl) inputs := by
  intro manager input member guests before called hosted id earlier later _ _ reported
  obtain ⟨past, future, split, -⟩ := (machine foreign).mem_trace_iff.mp member
  exact waiting input (by simp [split]) guests called later
    (HostSessionContext.mem_of_find_guestTable reported).1

/-! ## Samples -/

def sampleGuest : GuestId := ⟨.fromU128 3⟩

def samplePanel : SharedPanelSnapshot where
  inputTarget := none
  panelId := .fromU128 4
  title := "shell"
  position := (.finite 0, .finite 0)
  size := (.finite 1, .finite 1)
  color := (0, 0, 0)
  zIndex := 0
  focused := false
  minimized := false
  alive := true
  previewLabel := "shell"
  shareScope := .controllable
  visibleText := ""
  historyText := ""
  controller := none
  controllerName := none
  queueLen := 0

def sampleSnapshot : SharedWorkspaceSnapshot := ⟨.fromU128 1, "work", 0, [], [], [samplePanel]⟩

def reportNamed (name : String) : Input :=
  ⟨.brokerMessage (.presence [⟨sampleGuest, name, 0, .connected⟩]), []⟩

def givenControl : List Input :=
  [⟨.startHostSession (some sampleStart), []⟩,
    reportNamed "ana",
    ⟨.publishSnapshot sampleSnapshot 0 0, [⟨List.replicate 24 0, true⟩]⟩,
    ⟨.noteControlRequest ⟨samplePanel.panelId, sampleGuest, "ana", 0⟩, []⟩,
    ⟨.grantControl samplePanel.panelId sampleGuest 0, []⟩]

theorem givenControl_consistent :
    ∃ host control, (reached plainForeign "https://broker" givenControl).host = some host ∧
      host.terminalControls.find samplePanel.panelId = some control ∧
      control.controller = some sampleGuest ∧
      ∃ guest ∈ lastReport givenControl, guest.id = sampleGuest ∧
        HostSessionContext.isPresent guest = true := by
  have evaluated : (reached plainForeign "https://broker" givenControl).host.any
      (fun host => (host.terminalControls.find samplePanel.panelId).any
        (·.controller = some sampleGuest)) = true := by
    decide +kernel
  obtain ⟨host, hosting, controlled⟩ := (Option.any_eq_true _ _).mp evaluated
  obtain ⟨control, found, given⟩ := (Option.any_eq_true _ _).mp controlled
  have given := of_decide_eq_true given
  have approved : (machine plainForeign).Admits ReportsKeepApproved (.new "https://broker")
      givenControl := by
    apply admits_of_no_pending
    intro input member guests called
    simp only [givenControl, List.mem_cons, List.not_mem_nil, or_false] at member
    rcases member with rfl | rfl | rfl | rfl | rfl <;> cases called
    simp
  have consistent := control_state_consistent plainForeign "https://broker" givenControl host
    hosting approved
  exact ⟨host, control, hosting, found, given,
    consistent.2.2.1 samplePanel.panelId control sampleGuest found given⟩

def longName : String := String.ofList (List.replicate 513 'a')

/-- A guest asks for control, is renamed, is given control, and gets its name back. -/
def renamedMeanwhile : List Input :=
  [⟨.startHostSession (some sampleStart), []⟩,
    reportNamed "ana",
    ⟨.publishSnapshot sampleSnapshot 0 0, [⟨List.replicate 24 0, true⟩]⟩,
    ⟨.noteControlRequest ⟨samplePanel.panelId, sampleGuest, "ana", 0⟩, []⟩,
    reportNamed longName,
    ⟨.grantControl samplePanel.panelId sampleGuest 0, []⟩,
    reportNamed "ana"]

/-- The name the guest had when it was given control keeps the host from publishing. -/
theorem long_name_stops_publishing :
    ∃ host, (reached plainForeign "https://broker" renamedMeanwhile).host = some host ∧
      (machine plainForeign).Admits ReportsKeepApproved (.new "https://broker")
        renamedMeanwhile ∧
      validateSnapshotLimits { sampleSnapshot with
        guests := host.guests.rows, terminalControls := [] } = .ok () ∧
      validateSnapshotLimits (sampleSnapshot.merged
        (host.reconcile sampleSnapshot.panels).guests
        (host.reconcile sampleSnapshot.panels).terminalControls) ≠ .ok () := by
  have evaluated : (reached plainForeign "https://broker" renamedMeanwhile).host.any
      (fun host => decide (validateSnapshotLimits { sampleSnapshot with
          guests := host.guests.rows, terminalControls := [] } = .ok () ∧
        validateSnapshotLimits (sampleSnapshot.merged
          (host.reconcile sampleSnapshot.panels).guests
          (host.reconcile sampleSnapshot.panels).terminalControls) ≠ .ok ())) = true := by
    decide +kernel
  obtain ⟨host, hosting, limits⟩ := (Option.any_eq_true _ _).mp evaluated
  refine ⟨host, hosting, admits_of_no_pending ?_, of_decide_eq_true limits⟩
  intro input member guests called
  simp only [renamedMeanwhile, List.mem_cons, List.not_mem_nil, or_false] at member
  rcases member with rfl | rfl | rfl | rfl | rfl | rfl | rfl <;> cases called <;> simp

end CollabManager

end TerminalCanvas.Collab.Sharing
