import TerminalCanvas.State.WorkspaceOrder

/-! # Runs of a workspace

What every state that a restored workspace reaches keeps of focus and stacking, and how
many panels it takes to break it. -/

namespace TerminalCanvas.State.Workspace

/-! ## Calls -/

/-- The workspaces on which an action calls `advance_z_index`. -/
def bringCalls (workspace : Workspace) (id : Uuid) : List Workspace :=
  if (workspace.panels.find? (·.id = id)).any (·.minimized) then [] else [workspace]

def showCalls (workspace : Workspace) (id : Uuid) : List Workspace :=
  if workspace.panels.any (·.id = id) then (workspace.showPanel id).bringCalls id else []

def advanceCalls (workspace : Workspace) : Action → List Workspace
  | .spawn id => workspace.pushPanel id :: (workspace.pushPanel id).advanceZIndex.bringCalls id
  | .bringToFront id => workspace.bringCalls id
  | .restorePanel id | .maximizePanel id => workspace.showCalls id
  | .toggleMinimizePanel id =>
      if (workspace.panels.find? (·.id = id)).any (·.minimized) then workspace.showCalls id else []
  | .closePanel _ | .unfocusAll => []

def Action.panel : Action → Option Uuid
  | .spawn id | .closePanel id | .toggleMinimizePanel id | .restorePanel id
  | .maximizePanel id | .bringToFront id => some id
  | .unfocusAll => none

/-- An action raises its panel where it advances the counter. -/
def raisedBy (workspace : Workspace) (action : Action) : Option Uuid :=
  if (workspace.advanceCalls action).isEmpty then none else action.panel

def Saturates (call : Workspace) : Prop := call.compactWhenFull.nextZ = maxZ

/-- A new panel has an id of its own, and there are fewer than 2^32 panels with it. -/
def Allowed (workspace : Workspace) : Action → Prop
  | .spawn id => workspace.Fresh id ∧ (workspace.pushPanel id).HasRoom
  | _ => True

theorem keepsOrder_refl {workspace : Workspace} (ordered : workspace.Ordered)
    (raised : Option Uuid) : KeepsOrder raised workspace.panels workspace.panels :=
  .of_sameZ ordered.focused.distinct fun panel member => .inr ⟨panel, member, rfl, rfl⟩

theorem keepsOrder_raisedBy {workspace : Workspace} {action : Action} {after : List Panel}
    (quiet : workspace.advanceCalls action = [] → KeepsOrder none workspace.panels after)
    (raises : KeepsOrder action.panel workspace.panels after) :
    KeepsOrder (workspace.raisedBy action) workspace.panels after := by
  unfold raisedBy
  split
  · next empty => exact quiet (List.isEmpty_iff.mp empty)
  · exact raises

theorem bringToFront_of_no_calls {workspace : Workspace} {id : Uuid}
    (quiet : workspace.bringCalls id = []) : workspace.bringToFront id = workspace := by
  unfold bringCalls at quiet
  split at quiet
  · next hidden => rw [bringToFront, if_pos hidden]
  · cases quiet

theorem keepsOrder_quiet_restore {workspace : Workspace} (ordered : workspace.Ordered) {id : Uuid}
    (quiet : workspace.showCalls id = []) :
    KeepsOrder none workspace.panels (workspace.restorePanel id).panels := by
  unfold restorePanel
  unfold showCalls at quiet
  split
  · next present =>
      rw [if_pos present] at quiet
      rw [bringToFront_of_no_calls quiet]
      exact keepsOrder_setMinimized ordered none id false
  · exact keepsOrder_refl ordered none

theorem ordered_act {workspace : Workspace} (ordered : workspace.Ordered)
    (room : workspace.HasRoom) {action : Action} (allowed : workspace.Allowed action) :
    (workspace.act action).Ordered ∧
      KeepsOrder (workspace.raisedBy action) workspace.panels (workspace.act action).panels := by
  cases action with
  | spawn id =>
      obtain ⟨after, order⟩ := ordered_spawnTerminal ordered allowed.1 allowed.2
      refine ⟨after, keepsOrder_raisedBy ?_ order⟩
      exact fun quiet => absurd quiet (List.cons_ne_nil _ _)
  | closePanel id => exact ordered_closePanel ordered id
  | unfocusAll => exact ordered_unfocusAll ordered
  | bringToFront id =>
      refine ⟨ordered_bringToFront ordered room, keepsOrder_raisedBy ?_
        (keepsOrder_bringToFront ordered room)⟩
      intro quiet
      change KeepsOrder none workspace.panels (workspace.bringToFront id).panels
      rw [bringToFront_of_no_calls quiet]
      exact keepsOrder_refl ordered none
  | restorePanel id =>
      obtain ⟨after, order⟩ := ordered_restorePanel ordered room id
      exact ⟨after, keepsOrder_raisedBy (keepsOrder_quiet_restore ordered) order⟩
  | maximizePanel id =>
      obtain ⟨after, order⟩ := ordered_restorePanel ordered room id
      exact ⟨after, keepsOrder_raisedBy (keepsOrder_quiet_restore ordered) order⟩
  | toggleMinimizePanel id =>
      obtain ⟨after, order⟩ := ordered_toggleMinimizePanel ordered room id
      refine ⟨after, keepsOrder_raisedBy ?_ order⟩
      intro quiet
      change (if _ then workspace.showCalls id else []) = [] at quiet
      change KeepsOrder none workspace.panels (workspace.toggleMinimizePanel id).panels
      unfold toggleMinimizePanel
      cases found : workspace.panels.find? (·.id = id) with
      | none => exact keepsOrder_refl ordered none
      | some panel =>
          rw [found, Option.any_some] at quiet
          dsimp only
          split
          · next hidden =>
              rw [if_pos hidden] at quiet
              exact keepsOrder_quiet_restore ordered quiet
          · exact keepsOrder_hide ordered none id panel.focused

theorem length_of_ids {panels others : List Panel}
    (same : panels.map Panel.id = others.map Panel.id) : panels.length = others.length := by
  have lengths := congrArg List.length same
  simpa only [List.length_map] using lengths

theorem length_bringToFront (workspace : Workspace) (id : Uuid) :
    (workspace.bringToFront id).panels.length = workspace.panels.length :=
  length_of_ids (ids_bringToFront id)

theorem length_restorePanel (workspace : Workspace) (id : Uuid) :
    (workspace.restorePanel id).panels.length = workspace.panels.length := by
  unfold restorePanel
  split
  · rw [length_bringToFront]
    exact length_updateFirst ..
  · rfl

theorem length_focusTopmostVisiblePanel (workspace : Workspace) :
    workspace.focusTopmostVisiblePanel.panels.length = workspace.panels.length :=
  List.length_mapIdx ..

theorem length_toggleMinimizePanel (workspace : Workspace) (id : Uuid) :
    (workspace.toggleMinimizePanel id).panels.length = workspace.panels.length := by
  unfold toggleMinimizePanel
  split
  · rfl
  · split
    · exact length_restorePanel workspace id
    · dsimp only
      split
      · rw [length_focusTopmostVisiblePanel]
        exact length_updateFirst ..
      · exact length_updateFirst ..

theorem length_advanceZIndex (workspace : Workspace) :
    workspace.advanceZIndex.panels.length = workspace.panels.length :=
  length_of_ids (ids_of_flags (flags_advanceZIndex workspace))

theorem length_spawnTerminal (workspace : Workspace) (id : Uuid) :
    (workspace.spawnTerminal id).panels.length = workspace.panels.length + 1 := by
  rw [spawnTerminal, length_bringToFront, length_advanceZIndex]
  exact List.length_append

theorem hasRoom_act {workspace : Workspace} (room : workspace.HasRoom) {action : Action}
    (allowed : workspace.Allowed action) : (workspace.act action).HasRoom := by
  unfold HasRoom at room ⊢
  cases action with
  | spawn id =>
      have pushed : (workspace.panels ++ [_]).length < 2 ^ 32 := allowed.2
      rw [List.length_append, List.length_singleton] at pushed
      exact lt_of_eq_of_lt (length_spawnTerminal workspace id) pushed
  | closePanel id =>
      refine lt_of_le_of_lt ?_ room
      refine le_of_eq_of_le (length_focusTopmostVisiblePanel _) ?_
      exact List.length_filter_le ..
  | toggleMinimizePanel id => exact lt_of_eq_of_lt (length_toggleMinimizePanel workspace id) room
  | restorePanel id => exact lt_of_eq_of_lt (length_restorePanel workspace id) room
  | maximizePanel id => exact lt_of_eq_of_lt (length_restorePanel workspace id) room
  | unfocusAll => exact lt_of_eq_of_lt (List.length_map ..) room
  | bringToFront id => exact lt_of_eq_of_lt (length_bringToFront workspace id) room

theorem hasRoom_advanceCalls {workspace : Workspace} (room : workspace.HasRoom) {action : Action}
    (allowed : workspace.Allowed action) :
    ∀ call ∈ workspace.advanceCalls action, call.HasRoom := by
  have bring : ∀ (other : Workspace) (id : Uuid), other.HasRoom →
      ∀ call ∈ other.bringCalls id, call.HasRoom := by
    intro other id otherRoom call member
    unfold bringCalls at member
    split at member
    · cases member
    · rw [List.mem_singleton.mp member]
      exact otherRoom
  have shows : ∀ id : Uuid, ∀ call ∈ workspace.showCalls id, call.HasRoom := by
    intro id call member
    unfold showCalls at member
    split at member
    · exact bring _ id (hasRoom_showPanel room id) call member
    · cases member
  intro call member
  cases action with
  | spawn id =>
      rcases List.mem_cons.mp member with rfl | member
      · exact allowed.2
      · exact bring _ id (hasRoom_advanceZIndex allowed.2) call member
  | closePanel id => cases member
  | unfocusAll => cases member
  | bringToFront id => exact bring workspace id room call member
  | restorePanel id => exact shows id call member
  | maximizePanel id => exact shows id call member
  | toggleMinimizePanel id =>
      simp only [advanceCalls] at member
      split at member
      · exact shows id call member
      · cases member

/-! ## Reached states -/

structure Sound (workspace : Workspace) : Prop where
  ordered : workspace.Ordered
  hasRoom : workspace.HasRoom

theorem sound_next {workspace : Workspace} (action : Action) (allowed : workspace.Allowed action)
    (sound : workspace.Sound) : (machine.next workspace action).Sound :=
  ⟨(ordered_act sound.ordered sound.hasRoom allowed).1, hasRoom_act sound.hasRoom allowed⟩

theorem sound_fromSaved {saved : List Panel} (nextZ : UInt32) (nextColor : Nat)
    (distinct : (saved.map Panel.id).Nodup) (room : saved.length < 2 ^ 32 - 2) :
    (fromSaved saved nextZ nextColor).Sound := by
  obtain ⟨ordered, -, length⟩ := ordered_fromSaved nextZ nextColor distinct (by omega)
  refine ⟨ordered, ?_⟩
  unfold HasRoom
  omega

/-- Focus and stacking, in every run of a restored workspace that has fewer than 2^32
panels at every moment. -/
theorem focus_and_stacking (saved : List Panel) (nextZ : UInt32) (nextColor : Nat)
    (distinct : (saved.map Panel.id).Nodup) (room : saved.length < 2 ^ 32 - 2)
    (actions : List Action)
    (allowed : machine.Admits Allowed (fromSaved saved nextZ nextColor) actions) :
    let restored := fromSaved saved nextZ nextColor
    let reached := machine.run restored actions
    KeepsOrder none saved restored.panels ∧
      reached.panels.Pairwise (fun first second => ¬ (first.focused ∧ second.focused)) ∧
      (∀ panel ∈ reached.panels, panel.focused → panel.minimized = false) ∧
      (∀ id, reached.Visible id → ∀ panel ∈ (reached.bringToFront id).panels,
        (panel.focused = true ↔ panel.id = id) ∧
          (panel.id = id → ∀ other ∈ (reached.bringToFront id).panels, other.id ≠ id →
            other.zIndex < panel.zIndex)) ∧
      ∀ state action, (state, action) ∈ machine.trace restored actions →
        KeepsOrder (state.raisedBy action) state.panels (state.act action).panels ∧
          ∀ call ∈ state.advanceCalls action, ¬ call.Saturates := by
  intro restored reached
  have start := sound_fromSaved nextZ nextColor distinct room
  have sound : reached.Sound :=
    Execution.Machine.Admits.invariant machine allowed Sound
      (fun _ action permitted => sound_next action permitted) start
  have restoring := ordered_fromSaved nextZ nextColor distinct (by omega)
  refine ⟨restoring.2.1, sound.ordered.focused.oneFocused, sound.ordered.focused.focusedVisible,
    fun id => bringToFront_top sound.ordered sound.hasRoom, ?_⟩
  intro state action member
  obtain ⟨before, after, split, rfl⟩ := machine.mem_trace_iff.mp member
  have onTheWay : (machine.run restored before).Sound := by
    rw [split] at allowed
    exact Execution.Machine.Admits.invariant machine (machine.admits_append.mp allowed).1 Sound
      (fun _ action permitted => sound_next action permitted) start
  have permitted := allowed _ _ member
  refine ⟨(ordered_act onTheWay.ordered onTheWay.hasRoom permitted).2, ?_⟩
  intro call isCall saturates
  exact nextZ_compactWhenFull (hasRoom_advanceCalls onTheWay.hasRoom permitted call isCall)
    saturates

def shell : Uuid := Uuid.fromU128 1

def editor : Uuid := Uuid.fromU128 2

theorem focus_and_stacking_two :
    let restored := fromSaved [⟨shell, maxZ, true, false⟩, ⟨editor, 7, true, true⟩] 0 9
    let reached := machine.run restored [.toggleMinimizePanel editor]
    reached.panels.Pairwise fun first second => ¬ (first.focused ∧ second.focused) :=
  (focus_and_stacking [⟨shell, maxZ, true, false⟩, ⟨editor, 7, true, true⟩] 0 9 (by decide)
    (by decide) [.toggleMinimizePanel editor]
    (machine.admits_cons.mpr ⟨trivial, machine.admits_nil _⟩)).2.1

/-! ## Too many panels -/

/-- The counter behind a step on a number of panels. -/
def stepZ (z : UInt32) (count : Nat) : UInt32 :=
  saturatingNext (if z = maxZ then compactZ (count - 1) else z)

theorem nextZ_advanceZIndex (workspace : Workspace) :
    workspace.advanceZIndex.nextZ = stepZ workspace.nextZ workspace.panels.length := by
  change saturatingNext workspace.compactWhenFull.nextZ = _
  unfold compactWhenFull stepZ
  split <;> rfl

theorem nextZ_spawnTerminal {workspace : Workspace} (ordered : workspace.Ordered) {id : Uuid}
    (fresh : workspace.Fresh id) :
    (workspace.spawnTerminal id).nextZ = stepZ (stepZ workspace.nextZ
      (workspace.panels.length + 1)) (workspace.panels.length + 1) := by
  have pushed := ordered_pushPanel ordered fresh
  have length : (workspace.pushPanel id).panels.length = workspace.panels.length + 1 :=
    List.length_append
  have visible : (workspace.pushPanel id).Visible id := by
    intro panel member own
    rcases List.mem_append.mp member with member | member
    · exact absurd own (fresh panel member)
    · rw [List.mem_singleton.mp member]
  have advanced := focused_congr (flags_advanceZIndex _) pushed.focused
  have shown := visible_congr (flags_advanceZIndex _) visible
  rw [spawnTerminal, bringToFront_eq advanced.distinct shown]
  change (workspace.pushPanel id).advanceZIndex.advanceZIndex.nextZ = _
  rw [nextZ_advanceZIndex, nextZ_advanceZIndex, length_advanceZIndex, length]
  rfl

theorem ids_focusTopmostVisiblePanel (workspace : Workspace) :
    workspace.focusTopmostVisiblePanel.panels.map Panel.id = workspace.panels.map Panel.id := by
  unfold focusTopmostVisiblePanel
  dsimp only
  rw [map_mapIdx_same]
  exact fun position panel => rfl

theorem ids_fromSaved (saved : List Panel) (nextZ : UInt32) (nextColor : Nat) :
    (fromSaved saved nextZ nextColor).panels.map Panel.id = saved.map Panel.id := by
  have reconciled : ∀ workspace : Workspace,
      workspace.reconcileOrderCounters.panels.map Panel.id = workspace.panels.map Panel.id := by
    intro workspace
    unfold reconcileOrderCounters
    dsimp only
    split
    · exact ids_of_flags (flags_compactZIndices _)
    · rfl
  have seeded : ∀ panels : List Panel, (panels.map fun panel =>
      { panel with focused := panel.focused && !panel.minimized }).map Panel.id =
        panels.map Panel.id := by
    intro panels
    rw [List.map_map]
    rfl
  unfold fromSaved
  dsimp only
  split
  · rw [ids_focusTopmostVisiblePanel, reconciled, seeded]
  · rw [reconciled, seeded]

theorem ids_spawnTerminal (workspace : Workspace) (id : Uuid) :
    (workspace.spawnTerminal id).panels.map Panel.id = workspace.panels.map Panel.id ++ [id] := by
  rw [spawnTerminal, ids_bringToFront, ids_of_flags (flags_advanceZIndex _)]
  exact List.map_append

theorem nextZ_fromSaved_full (saved : List Panel) (nextColor : Nat) :
    (fromSaved saved maxZ nextColor).nextZ = compactZ (saved.length - 1) := by
  have reconciled : ∀ workspace : Workspace, workspace.nextZ = maxZ →
      workspace.reconcileOrderCounters.nextZ = compactZ (workspace.panels.length - 1) := by
    intro workspace full
    unfold reconcileOrderCounters
    rw [if_pos (.inl full)]
    rfl
  have restored : (fromSaved saved maxZ nextColor).nextZ = (reconcileOrderCounters
      ⟨saved.map fun panel => { panel with focused := panel.focused && !panel.minimized },
        maxZ, nextColor⟩).nextZ := by
    unfold fromSaved
    dsimp only
    split <;> rfl
  rw [restored, reconciled _ rfl, List.length_map]

/-- Three panels fewer than the counter has values. -/
def crowd : List Panel :=
  (List.range (2 ^ 32 - 3)).map fun number => ⟨Uuid.fromU128 number, 0, false, false⟩

def newcomer (number : Nat) : Uuid := Uuid.fromU128 (2 ^ 32 + number)

theorem fromU128_inj {left right : Nat} (leftFits : left < 2 ^ 128) (rightFits : right < 2 ^ 128)
    (same : Uuid.fromU128 left = Uuid.fromU128 right) : left = right := by
  have values := congrArg (fun id : Uuid => id.asU128.toNat) same
  simp only [Uuid.fromU128, BitVec.toNat_ofNat] at values
  rwa [Nat.mod_eq_of_lt leftFits, Nat.mod_eq_of_lt rightFits] at values

theorem ids_crowd : crowd.map Panel.id = (List.range (2 ^ 32 - 3)).map Uuid.fromU128 := by
  rw [crowd, List.map_map]
  rfl

theorem distinct_crowd : (crowd.map Panel.id).Nodup := by
  rw [ids_crowd]
  refine List.nodup_range.map_on ?_
  intro left leftMember right rightMember same
  rw [List.mem_range] at leftMember rightMember
  exact fromU128_inj (by omega) (by omega) same

theorem length_crowd : crowd.length = 2 ^ 32 - 3 := by
  rw [crowd, List.length_map, List.length_range]

theorem newcomer_notin_crowd {number : Nat} (small : number < 2 ^ 32) :
    newcomer number ∉ crowd.map Panel.id := by
  rw [ids_crowd, List.mem_map]
  rintro ⟨old, member, same⟩
  rw [List.mem_range] at member
  have equal := fromU128_inj (by omega) (by omega) same
  omega

theorem fresh_iff {workspace : Workspace} {id : Uuid} :
    workspace.Fresh id ↔ id ∉ workspace.panels.map Panel.id := by
  simp [Fresh, eq_comm]

theorem third_spawn_saturates {start : Workspace} (ordered : start.Ordered)
    (length : start.panels.length = 2 ^ 32 - 3) (nextZ : start.nextZ = compactZ (2 ^ 32 - 4))
    {one two three : Uuid} (freshOne : start.Fresh one)
    (freshTwo : (start.spawnTerminal one).Fresh two) :
    ∃ state action, (state, action) ∈ machine.trace start [.spawn one, .spawn two, .spawn three] ∧
      ∃ call ∈ state.advanceCalls action, call.Saturates := by
  have firstRoom : (start.pushPanel one).HasRoom := by
    change (start.panels ++ [_]).length < _
    rw [List.length_append, List.length_singleton, length]
    decide
  have orderedOne := (ordered_spawnTerminal ordered freshOne firstRoom).1
  have lengthOne := length_spawnTerminal start one
  have lengthTwo := length_spawnTerminal (start.spawnTerminal one) two
  have counter : ((start.spawnTerminal one).spawnTerminal two).nextZ = maxZ := by
    rw [nextZ_spawnTerminal orderedOne freshTwo, nextZ_spawnTerminal ordered freshOne, lengthOne,
      length, nextZ]
    decide
  refine ⟨(start.spawnTerminal one).spawnTerminal two, .spawn three, ?_, _, .head _, ?_⟩
  · rw [Execution.Machine.trace_cons, Execution.Machine.trace_cons, Execution.Machine.trace_cons]
    exact .tail _ (.tail _ (.head _))
  · have full : (((start.spawnTerminal one).spawnTerminal two).pushPanel three).nextZ = maxZ :=
      counter
    unfold Saturates compactWhenFull
    rw [if_pos full]
    change compactZ ((_ ++ [_]).length - 1) = maxZ
    rw [List.length_append, List.length_singleton, lengthTwo, lengthOne, length]
    decide

/-- Without a bound on the panels of the run the counter saturates, and panels that share
an id share the focus. -/
theorem crowd_saturates_and_twins_share :
    (crowd.length < 2 ^ 32 - 2 ∧ (crowd.map Panel.id).Nodup ∧
      ∃ state action, (state, action) ∈ machine.trace (fromSaved crowd maxZ 0)
        [.spawn (newcomer 0), .spawn (newcomer 1), .spawn (newcomer 2)] ∧
        ∃ call ∈ state.advanceCalls action, call.Saturates) ∧
    ¬ ((fromSaved [⟨shell, 0, false, false⟩, ⟨shell, 1, false, false⟩] 1 0).bringToFront
        shell).panels.Pairwise fun first second => ¬ (first.focused ∧ second.focused) := by
  have room : crowd.length < 2 ^ 32 - 2 := by
    rw [length_crowd]
    decide
  refine ⟨⟨room, distinct_crowd, ?_⟩, by decide⟩
  have start := sound_fromSaved maxZ 0 distinct_crowd room
  have ids := ids_fromSaved crowd maxZ 0
  refine third_spawn_saturates start.ordered ((length_of_ids ids).trans length_crowd) ?_ ?_ ?_
  · have last : 2 ^ 32 - 3 - 1 = 2 ^ 32 - 4 := rfl
    rw [nextZ_fromSaved_full, length_crowd, last]
  · rw [fresh_iff, ids]
    exact newcomer_notin_crowd (by decide)
  · rw [fresh_iff, ids_spawnTerminal, ids]
    simp only [List.mem_append, List.mem_singleton, not_or]
    exact ⟨newcomer_notin_crowd (by decide), by decide⟩

end TerminalCanvas.State.Workspace
