import TerminalCanvas.Foundation.SortedMap
import TerminalCanvas.Orchestration.ProviderBootstrap
import TerminalCanvas.State.LayoutLoad

/-! # Hooks in the settings of Claude

Groups of hooks with a mark are put into the settings of the user and taken out again. -/

namespace TerminalCanvas.ClaudeHooks

open Layout (JsonValue)

/-! ## Objects -/

abbrev Members := List (String × JsonValue)

def lookup (key : String) (members : Members) : Option JsonValue :=
  (members.find? (·.1 = key)).map (·.2)

/-- `entry(key).or_insert_with`. -/
def orInsert (key : String) (value : JsonValue) (members : Members) : Members :=
  if key ∈ members.map (·.1) then members else SortedMap.insertEntry key value members

def modify (key : String) (change : JsonValue → JsonValue) (members : Members) : Members :=
  members.map fun entry => if entry.1 = key then (entry.1, change entry.2) else entry

def remove (key : String) (members : Members) : Members := members.filter (·.1 ≠ key)

def SortedKeys (members : Members) : Prop :=
  members.Pairwise fun left right => left.1 < right.1

/-! ## The hooks -/

def managedMarker : String := "terminalcanvas"

def managedEvents : List String :=
  ["SessionStart", "Stop", "UserPromptSubmit", "PermissionRequest", "PreToolUse"]

def hookCommand (endpointFile : String) : String :=
  ". " ++ String.ofList (ShellWords.quotePath endpointFile.toList) ++
    " 2>/dev/null || exit 0\n[ -n \"$TC_HOOK_URL\" ] || exit 0\n" ++
    "curl -fsS -m 1.5 --connect-timeout 0.5 -H \"X-TC-Token: $TC_HOOK_TOKEN\" " ++
    "-H 'Content-Type: application/json' -d @- " ++
    "\"$TC_HOOK_URL/hook/claude?panel=$TC_PANEL_ID&workspace=$TC_WORKSPACE_ID" ++
    "&leaf=$TC_LEAF_ID$\x7bTC_RUNTIME_ID+&runtime=$TC_RUNTIME_ID\x7d" ++
    "$\x7bTC_HOOK_GENERATION+&generation=$TC_HOOK_GENERATION\x7d\" 2>/dev/null || true\n"

def managedGroup (command : String) : JsonValue :=
  .object [("_managed_by", .string managedMarker),
    ("hooks", .array [.object [("command", .string command), ("type", .string "command")]]),
    ("matcher", .string "")]

def isManaged (group : JsonValue) : Bool :=
  match group.get "_managed_by" with
  | some (.string marker) => marker = managedMarker
  | _ => false

def ownGroups (groups : List JsonValue) : List JsonValue :=
  groups.filter fun group => !isManaged group

def renewGroups (command : String) : JsonValue → JsonValue
  | .array groups => .array (ownGroups groups ++ [managedGroup command])
  | value => value

def installEvent (command : String) (hooks : Members) (event : String) : Members :=
  modify event (renewGroups command) (orInsert event (.array []) hooks)

def installEvents (command : String) : JsonValue → JsonValue
  | .object hooks => .object (managedEvents.foldl (installEvent command) hooks)
  | value => value

def installHooks (endpointFile : String) : JsonValue → JsonValue
  | .object root => .object (modify "hooks" (installEvents (hookCommand endpointFile))
      (orInsert "hooks" (.object []) root))
  | settings => settings

def uninstallEvent (hooks : Members) (event : String) : Members :=
  match lookup event hooks with
  | some (.array groups) =>
      if (ownGroups groups).isEmpty then remove event hooks
      else modify event (fun _ => .array (ownGroups groups)) hooks
  | _ => hooks

def uninstallHooks : JsonValue → JsonValue
  | .object root =>
      match lookup "hooks" root with
      | some (.object hooks) =>
          let left := (hooks.map (·.1)).foldl uninstallEvent hooks
          if left.isEmpty then .object (remove "hooks" root)
          else .object (modify "hooks" (fun _ => .object left) root)
      | _ => .object root
  | settings => settings

/-! ## Members -/

section Lookups

variable {key : String} {members : Members}

theorem lookup_append (before after : Members) : lookup key (before ++ after) =
    (lookup key before).or (lookup key after) := by
  rw [lookup, List.find?_append, Option.map_or]
  rfl

theorem lookup_cons (entry : String × JsonValue) : lookup key (entry :: members) =
    if entry.1 = key then some entry.2 else lookup key members := by
  rw [lookup, List.find?_cons]
  split
  · next same => rw [if_pos (of_decide_eq_true same)]; rfl
  · next other => rw [if_neg (of_decide_eq_false other)]; rfl

theorem lookup_eq_none : lookup key members = none ↔ key ∉ members.map (·.1) := by
  rw [lookup, Option.map_eq_none_iff, List.find?_eq_none]
  simp only [decide_eq_true_eq, List.mem_map, not_exists, not_and]

theorem SortedKeys.nodup (sorted : SortedKeys members) : (members.map (·.1)).Nodup := by
  rw [List.nodup_iff_pairwise_ne, List.pairwise_map]
  exact sorted.imp fun less => ne_of_lt less

theorem lookup_split {value : JsonValue} (sorted : SortedKeys members)
    (found : lookup key members = some value) :
    ∃ before after, members = before ++ (key, value) :: after ∧
      key ∉ before.map (·.1) ∧ key ∉ after.map (·.1) := by
  obtain ⟨entry, first, rfl⟩ := Option.map_eq_some_iff.mp found
  have same : entry.1 = key := by simpa using List.find?_some first
  obtain ⟨before, after, rfl⟩ := List.append_of_mem (List.mem_of_find?_eq_some first)
  have distinct := sorted.nodup
  rw [List.map_append, List.map_cons, List.nodup_append, List.nodup_cons] at distinct
  refine ⟨before, after, by rw [← same], ?_, same ▸ distinct.2.1.1⟩
  intro member
  exact distinct.2.2 key member entry.1 (List.mem_cons_self ..) same.symm

theorem modify_of_not_mem {change : JsonValue → JsonValue} (new : key ∉ members.map (·.1)) :
    modify key change members = members := by
  refine (List.map_congr_left fun entry member => ?_).trans (List.map_id _)
  exact if_neg fun same => new (List.mem_map.mpr ⟨entry, member, same⟩)

theorem remove_of_not_mem (new : key ∉ members.map (·.1)) : remove key members = members := by
  refine List.filter_eq_self.mpr fun entry member => decide_eq_true ?_
  exact fun same => new (List.mem_map.mpr ⟨entry, member, same⟩)

theorem modify_of_fixed {change : JsonValue → JsonValue} {value : JsonValue}
    (sorted : SortedKeys members) (found : lookup key members = some value)
    (fixed : change value = value) : modify key change members = members := by
  obtain ⟨before, after, rfl, newBefore, newAfter⟩ := lookup_split sorted found
  have parts : modify key change (before ++ (key, value) :: after) =
      modify key change before ++ (key, change value) :: modify key change after := by
    simp [modify]
  rw [parts, modify_of_not_mem newBefore, modify_of_not_mem newAfter, fixed]

theorem orInsert_of_found {value other : JsonValue} (found : lookup key members = some value) :
    orInsert key other members = members := by
  refine if_pos (by_contra fun new => ?_)
  rw [lookup_eq_none.mpr new] at found
  cases found

theorem modify_modify (first second : JsonValue → JsonValue) :
    modify key second (modify key first members) =
      modify key (fun value => second (first value)) members := by
  rw [modify, modify, List.map_map]
  refine List.map_congr_left fun entry _ => ?_
  dsimp only [Function.comp_apply]
  by_cases same : entry.1 = key
  · rw [if_pos same, if_pos same, if_pos same]
  · rw [if_neg same, if_neg same, if_neg same]

theorem remove_modify (change : JsonValue → JsonValue) :
    remove key (modify key change members) = remove key members := by
  induction members with
  | nil => rfl
  | cons entry rest induction =>
      have unfolded : modify key change (entry :: rest) =
          (if entry.1 = key then (entry.1, change entry.2) else entry) :: modify key change rest :=
        rfl
      rw [remove, remove] at induction
      rw [unfolded, remove, remove, List.filter_cons, List.filter_cons, induction]
      by_cases same : entry.1 = key <;> simp [same]

theorem keys_modify (change : JsonValue → JsonValue) :
    (modify key change members).map (·.1) = members.map (·.1) := by
  rw [modify, List.map_map]
  refine List.map_congr_left fun entry _ => ?_
  dsimp only [Function.comp_apply]
  split <;> rfl

theorem SortedKeys.modify (sorted : SortedKeys members) (change : JsonValue → JsonValue) :
    SortedKeys (modify key change members) := by
  have keys : (members.map (·.1)).Pairwise (· < ·) := List.pairwise_map.mpr sorted
  rw [← keys_modify change] at keys
  exact List.pairwise_map.mp keys

theorem SortedKeys.orInsert (sorted : SortedKeys members) (value : JsonValue) :
    SortedKeys (orInsert key value members) := by
  rw [ClaudeHooks.orInsert]
  split
  · exact sorted
  · exact SortedMap.sorted_insertEntry sorted

theorem insertEntry_split {value : JsonValue} (new : key ∉ members.map (·.1)) :
    ∃ before after, members = before ++ after ∧
      SortedMap.insertEntry key value members = before ++ (key, value) :: after := by
  induction members with
  | nil => exact ⟨[], [], rfl, rfl⟩
  | cons first rest induction =>
      rw [List.map_cons, List.mem_cons, not_or] at new
      rw [SortedMap.insertEntry]
      split
      · exact ⟨[], first :: rest, rfl, rfl⟩
      · rw [if_neg new.1]
        obtain ⟨before, after, rfl, inserted⟩ := induction new.2
        exact ⟨first :: before, after, rfl, by rw [inserted]; rfl⟩

theorem orInsert_split (value : JsonValue) : ∃ before after,
    members = before ++ after ∧ key ∉ members.map (·.1) ∧
      orInsert key value members = before ++ (key, value) :: after ∨
    key ∈ members.map (·.1) ∧ orInsert key value members = members := by
  by_cases present : key ∈ members.map (·.1)
  · exact ⟨[], [], .inr ⟨present, if_pos present⟩⟩
  · obtain ⟨before, after, split, inserted⟩ := @insertEntry_split key members value present
    refine ⟨before, after, .inl ⟨split, present, ?_⟩⟩
    rw [orInsert, if_neg present, inserted]

theorem lookup_modify (other : String) (change : JsonValue → JsonValue) :
    lookup other (modify key change members) =
      if other = key then (lookup key members).map change else lookup other members := by
  induction members with
  | nil => split <;> rfl
  | cons entry rest induction =>
      have unfolded : modify key change (entry :: rest) =
          (if entry.1 = key then (entry.1, change entry.2) else entry) :: modify key change rest :=
        rfl
      rw [unfolded, lookup_cons, lookup_cons, lookup_cons, induction]
      by_cases here : entry.1 = key
      · by_cases same : other = key
        · simp [here, same]
        · simp [here, same, Ne.symm same]
      · by_cases same : other = key
        · simp [here, same]
        · simp [here, same]

theorem lookup_orInsert (other : String) (value : JsonValue) :
    lookup other (orInsert key value members) =
      if other = key then some ((lookup key members).getD value) else lookup other members := by
  obtain ⟨before, after, ⟨rfl, new, inserted⟩ | ⟨present, same⟩⟩ :=
    @orInsert_split key members value
  · rw [inserted, lookup_append, lookup_cons]
    have absent := lookup_eq_none.mpr new
    have parts := absent
    rw [lookup_append, Option.or_eq_none_iff] at parts
    by_cases same : other = key
    · rw [same, if_pos rfl, if_pos rfl, absent, parts.1]
      rfl
    · rw [if_neg (Ne.symm same), if_neg same, lookup_append]
  · rw [same]
    split
    · next equal =>
        obtain ⟨found, is⟩ := Option.ne_none_iff_exists'.mp fun none =>
          lookup_eq_none.mp none present
        rw [equal, is]
        rfl
    · rfl

theorem remove_orInsert (value : JsonValue) :
    remove key (orInsert key value members) = remove key members := by
  obtain ⟨before, after, ⟨rfl, -, inserted⟩ | ⟨-, same⟩⟩ := @orInsert_split key members value
  · rw [inserted]
    simp [remove]
  · rw [same]

end Lookups

/-! ## Installing -/

section Installing

variable (command : String)

/-- What becomes of the groups of an event. -/
def installed : Option JsonValue → Option JsonValue
  | none => some (.array [managedGroup command])
  | some value => some (renewGroups command value)

theorem isManaged_managedGroup : isManaged (managedGroup command) = true := by
  simp [isManaged, managedGroup, JsonValue.get]

theorem ownGroups_renewed (groups : List JsonValue) :
    ownGroups (ownGroups groups ++ [managedGroup command]) = ownGroups groups := by
  rw [ownGroups, ownGroups, List.filter_append, List.filter_filter,
    List.filter_singleton, isManaged_managedGroup]
  simp

theorem renewGroups_renewGroups (value : JsonValue) :
    renewGroups command (renewGroups command value) = renewGroups command value := by
  cases value with
  | array groups =>
      rw [renewGroups, renewGroups, ownGroups_renewed]
  | null | bool | number | string | object => rfl

theorem installed_eq (value : Option JsonValue) :
    installed command value = some (renewGroups command (value.getD (.array []))) := by
  cases value <;> rfl

theorem lookup_installEvent (hooks : Members) (event other : String) :
    lookup other (installEvent command hooks event) =
      if other = event then installed command (lookup event hooks) else lookup other hooks := by
  rw [installEvent, lookup_modify, lookup_orInsert, lookup_orInsert, if_pos rfl, Option.map_some,
    installed_eq]
  split <;> rfl

theorem SortedKeys.installEvent {hooks : Members} (sorted : SortedKeys hooks) (event : String) :
    SortedKeys (installEvent command hooks event) :=
  (sorted.orInsert _).modify _

theorem SortedKeys.installEvents {hooks : Members} (sorted : SortedKeys hooks)
    (events : List String) :
    SortedKeys (events.foldl (ClaudeHooks.installEvent command) hooks) := by
  induction events generalizing hooks with
  | nil => exact sorted
  | cons event events induction => exact induction (sorted.installEvent command event)

theorem lookup_installEvents {events : List String} (distinct : events.Nodup) (hooks : Members)
    (other : String) : lookup other (events.foldl (installEvent command) hooks) =
      if other ∈ events then installed command (lookup other hooks) else lookup other hooks := by
  induction events generalizing hooks with
  | nil => rfl
  | cons event events induction =>
      obtain ⟨new, distinct⟩ := List.nodup_cons.mp distinct
      rw [List.foldl_cons, induction distinct, lookup_installEvent]
      by_cases same : other = event
      · rw [same, if_neg new, if_pos rfl, if_pos (List.mem_cons_self ..)]
      · rw [if_neg same]
        simp only [List.mem_cons, same, false_or]

theorem managedEvents_nodup : managedEvents.Nodup := by
  decide

theorem installEvent_of_renewed {hooks : Members} {event : String} {value : JsonValue}
    (sorted : SortedKeys hooks) (found : lookup event hooks = some value)
    (renewed : renewGroups command value = value) : installEvent command hooks event = hooks := by
  rw [installEvent, orInsert_of_found found, modify_of_fixed sorted found renewed]

theorem installEvents_again {hooks : Members} (sorted : SortedKeys hooks) {events : List String}
    (there : ∀ event ∈ events, ∃ value, lookup event hooks = some value ∧
      renewGroups command value = value) :
    events.foldl (installEvent command) hooks = hooks := by
  induction events with
  | nil => rfl
  | cons event events induction =>
      obtain ⟨value, found, renewed⟩ := there event (List.mem_cons_self ..)
      rw [List.foldl_cons, installEvent_of_renewed command sorted found renewed]
      exact induction fun other member => there other (List.mem_cons_of_mem _ member)

theorem installEvents_idempotent {hooks : Members} (sorted : SortedKeys hooks) :
    managedEvents.foldl (installEvent command) (managedEvents.foldl (installEvent command) hooks) =
      managedEvents.foldl (installEvent command) hooks := by
  apply installEvents_again command (sorted.installEvents command managedEvents)
  intro event member
  rw [lookup_installEvents command managedEvents_nodup, if_pos member, installed_eq]
  exact ⟨_, rfl, renewGroups_renewGroups command _⟩

end Installing

/-! ## Uninstalling -/

/-- The entry of an event without groups of ours, unless nothing else is there. -/
def cleaned (entry : String × JsonValue) : Option (String × JsonValue) :=
  match entry.2 with
  | .array groups =>
      if (ownGroups groups).isEmpty then none else some (entry.1, .array (ownGroups groups))
  | _ => some entry

section Uninstalling

theorem uninstallEvent_split {before after : Members} {event : String} (value : JsonValue)
    (newBefore : event ∉ before.map (·.1)) (newAfter : event ∉ after.map (·.1)) :
    uninstallEvent (before ++ (event, value) :: after) event =
      before ++ ((cleaned (event, value)).toList ++ after) := by
  have found : lookup event (before ++ (event, value) :: after) = some value := by
    rw [lookup_append, lookup_eq_none.mpr newBefore, lookup_cons, if_pos rfl]
    rfl
  rw [uninstallEvent, found, cleaned]
  cases value with
  | array groups =>
      dsimp only
      split
      · have parts : remove event (before ++ (event, .array groups) :: after) =
            remove event before ++ remove event after := by
          simp [remove]
        rw [parts, remove_of_not_mem newBefore, remove_of_not_mem newAfter]
        rfl
      · have parts : modify event (fun _ => .array (ownGroups groups))
              (before ++ (event, .array groups) :: after) =
            modify event (fun _ => .array (ownGroups groups)) before ++
              (event, .array (ownGroups groups)) ::
                modify event (fun _ => .array (ownGroups groups)) after := by
          simp [modify]
        rw [parts, modify_of_not_mem newBefore, modify_of_not_mem newAfter]
        rfl
  | null | bool | number | string | object => rfl

theorem cleaned_key {entry result : String × JsonValue} (kept : cleaned entry = some result) :
    result.1 = entry.1 := by
  unfold cleaned at kept
  split at kept
  · split at kept
    · cases kept
    · cases kept
      rfl
  · cases kept
    rfl

theorem keys_cleaned {hooks : Members} {event : String}
    (member : event ∈ (hooks.filterMap cleaned).map (·.1)) : event ∈ hooks.map (·.1) := by
  obtain ⟨result, among, rfl⟩ := List.mem_map.mp member
  obtain ⟨entry, present, kept⟩ := List.mem_filterMap.mp among
  rw [cleaned_key kept]
  exact List.mem_map.mpr ⟨entry, present, rfl⟩

theorem foldl_uninstallEvent (past hooks : Members)
    (distinct : ((past ++ hooks).map (·.1)).Nodup) :
    (hooks.map (·.1)).foldl uninstallEvent (past.filterMap cleaned ++ hooks) =
      (past ++ hooks).filterMap cleaned := by
  induction hooks generalizing past with
  | nil => simp
  | cons entry hooks induction =>
      have apart := distinct
      rw [List.map_append, List.map_cons, List.nodup_append, List.nodup_cons] at apart
      have newPast : entry.1 ∉ (past.filterMap cleaned).map (·.1) := fun member =>
        apart.2.2 entry.1 (keys_cleaned member) entry.1 (List.mem_cons_self ..) rfl
      have rest : past ++ entry :: hooks = (past ++ [entry]) ++ hooks := by simp
      have next := induction (past ++ [entry]) (by rw [← rest]; exact distinct)
      have single : [entry].filterMap cleaned = (cleaned entry).toList := by
        rw [List.filterMap_cons]
        cases cleaned entry <;> rfl
      rw [List.map_cons, List.foldl_cons, uninstallEvent_split entry.2 newPast apart.2.1.1, rest,
        ← next, List.filterMap_append, single, List.append_assoc]

theorem uninstall_all {hooks : Members} (sorted : SortedKeys hooks) :
    (hooks.map (·.1)).foldl uninstallEvent hooks = hooks.filterMap cleaned :=
  foldl_uninstallEvent [] hooks sorted.nodup

theorem cleaned_renewGroups (command event : String) (value : JsonValue) :
    cleaned (event, renewGroups command value) = cleaned (event, value) := by
  cases value with
  | array groups =>
      dsimp only [renewGroups, cleaned]
      rw [ownGroups_renewed]
  | null | bool | number | string | object => rfl

theorem cleaned_installEvent (command : String) (hooks : Members) (event : String) :
    (installEvent command hooks event).filterMap cleaned = hooks.filterMap cleaned := by
  have modified : ∀ members : Members,
      (modify event (renewGroups command) members).filterMap cleaned =
        members.filterMap cleaned := by
    intro members
    rw [modify, List.filterMap_map]
    refine List.filterMap_congr fun entry _ => ?_
    rw [Function.comp_apply]
    split
    · exact cleaned_renewGroups command entry.1 entry.2
    · rfl
  rw [installEvent, modified]
  obtain ⟨before, after, ⟨rfl, -, inserted⟩ | ⟨-, same⟩⟩ :=
    @orInsert_split event hooks (.array [])
  · rw [inserted, List.filterMap_append, List.filterMap_append, List.filterMap_cons]
    rfl
  · rw [same]

theorem cleaned_installEvents (command : String) (hooks : Members) (events : List String) :
    (events.foldl (installEvent command) hooks).filterMap cleaned = hooks.filterMap cleaned := by
  induction events generalizing hooks with
  | nil => rfl
  | cons event events induction =>
      rw [List.foldl_cons, induction, cleaned_installEvent]

/-- The groups of an event, none of which is ours. -/
def Foreign (value : JsonValue) : Prop :=
  ∀ groups, value = .array groups → ∀ group ∈ groups, isManaged group = false

theorem cleaned_eq_self_iff {hooks : Members} (foreign : ∀ entry ∈ hooks, Foreign entry.2) :
    hooks.filterMap cleaned = hooks ↔ ∀ entry ∈ hooks, entry.2 ≠ .array [] := by
  constructor
  · intro same entry member empty
    rw [← same] at member
    obtain ⟨other, -, kept⟩ := List.mem_filterMap.mp member
    unfold cleaned at kept
    split at kept
    · next groups is =>
        split at kept
        · cases kept
        · next some =>
            cases kept
            rw [JsonValue.array.injEq] at empty
            exact some (List.isEmpty_iff.mpr empty)
    · next other' =>
        cases kept
        exact other' _ empty
  · intro nonempty
    refine (List.filterMap_congr fun entry member => ?_).trans List.filterMap_some
    unfold cleaned
    split
    · next groups is =>
        have all : ownGroups groups = groups := List.filter_eq_self.mpr fun group among => by
          rw [foreign entry member groups is group among]
          rfl
        rw [all, if_neg, ← is]
        intro empty
        exact nonempty entry member (is.trans (congrArg _ (List.isEmpty_iff.mp empty)))
    · rfl

end Uninstalling

/-! ## Settings -/

/-- Objects are kept in the order of their keys. -/
structure Ordered (settings : JsonValue) : Prop where
  root : ∀ members, settings = .object members → SortedKeys members
  hooks : ∀ members, settings.get "hooks" = some (.object members) → SortedKeys members

def NoManagedGroups (settings : JsonValue) : Prop :=
  ∀ hooks, settings.get "hooks" = some (.object hooks) → ∀ entry ∈ hooks, Foreign entry.2

/-- No hooks at all in the object for them, or an event without groups. -/
def EmptyContainers (settings : JsonValue) : Prop :=
  ∃ hooks, settings.get "hooks" = some (.object hooks) ∧
    (hooks = [] ∨ ∃ event, (event, .array []) ∈ hooks)

section Settings

variable (command : String) {root : Members}

/-- The members of settings with the hooks in them. -/
def installRoot (root : Members) : Members :=
  modify "hooks" (installEvents command) (orInsert "hooks" (.object []) root)

theorem lookup_installRoot (key : String) : lookup key (installRoot command root) =
    if key = "hooks" then some (installEvents command ((lookup "hooks" root).getD (.object [])))
    else lookup key root := by
  rw [installRoot, lookup_modify, lookup_orInsert, lookup_orInsert, if_pos rfl, Option.map_some]
  split <;> rfl

theorem SortedKeys.installRoot (sorted : SortedKeys root) :
    SortedKeys (installRoot command root) :=
  (sorted.orInsert _).modify _

theorem installRoot_again {hooks : Members} (sorted : SortedKeys root)
    (there : (lookup "hooks" root).getD (.object []) = .object hooks)
    (sortedHooks : SortedKeys hooks) :
    installRoot command (installRoot command root) = installRoot command root := by
  have found := @lookup_installRoot command root "hooks"
  rw [if_pos rfl, there] at found
  rw [installRoot, orInsert_of_found found]
  refine modify_of_fixed (sorted.installRoot command) found ?_
  rw [installEvents, installEvents, installEvents_idempotent command sortedHooks]

theorem installRoot_odd {value : JsonValue} (sorted : SortedKeys root)
    (found : lookup "hooks" root = some value) (odd : ∀ hooks, value ≠ .object hooks) :
    installRoot command root = root := by
  rw [installRoot, orInsert_of_found found]
  refine modify_of_fixed sorted found ?_
  cases value with
  | object hooks => exact absurd rfl (odd hooks)
  | null | bool | number | string | array => rfl

theorem sortedHooks_of_ordered {hooks : Members} (ordered : Ordered (.object root))
    (there : (lookup "hooks" root).getD (.object []) = .object hooks) : SortedKeys hooks := by
  cases found : lookup "hooks" root with
  | none =>
      rw [found, Option.getD_none, JsonValue.object.injEq] at there
      rw [← there]
      exact .nil
  | some value =>
      rw [found, Option.getD_some] at there
      exact ordered.hooks hooks (found.trans (congrArg some there))

theorem ordered_installRoot (ordered : Ordered (.object root)) :
    Ordered (.object (installRoot command root)) := by
  constructor
  · intro members same
    rw [JsonValue.object.injEq] at same
    rw [← same]
    exact (ordered.root root rfl).installRoot command
  · intro members found
    have now := (@lookup_installRoot command root "hooks").symm.trans found
    rw [if_pos rfl, Option.some.injEq] at now
    cases there : (lookup "hooks" root).getD (.object []) with
    | object hooks =>
        rw [there, installEvents, JsonValue.object.injEq] at now
        rw [← now]
        exact (sortedHooks_of_ordered ordered there).installEvents command managedEvents
    | null | bool | number | string | array =>
        rw [there] at now
        cases now

theorem installRoot_idempotent (ordered : Ordered (.object root)) :
    installRoot command (installRoot command root) = installRoot command root := by
  have sorted := ordered.root root rfl
  cases there : (lookup "hooks" root).getD (.object []) with
  | object hooks =>
      exact installRoot_again command sorted there (sortedHooks_of_ordered ordered there)
  | null | bool | number | string | array =>
      cases found : lookup "hooks" root with
      | none =>
          rw [found] at there
          cases there
      | some value =>
          rw [found, Option.getD_some] at there
          have same := installRoot_odd command sorted found (by rw [there]; exact nofun)
          rw [same, same]

theorem uninstallHooks_installRoot {hooks : Members} (sortedHooks : SortedKeys hooks)
    (there : (lookup "hooks" root).getD (.object []) = .object hooks) :
    uninstallHooks (.object (installRoot command root)) =
      if (hooks.filterMap cleaned).isEmpty then .object (remove "hooks" root)
      else .object (modify "hooks" (fun _ => .object (hooks.filterMap cleaned))
        (orInsert "hooks" (.object []) root)) := by
  have found := @lookup_installRoot command root "hooks"
  rw [if_pos rfl, there, installEvents] at found
  rw [uninstallHooks, found]
  dsimp only
  rw [uninstall_all (sortedHooks.installEvents command managedEvents), cleaned_installEvents,
    installRoot, remove_modify, remove_orInsert, modify_modify]

theorem restored_iff {hooks : Members} (sorted : SortedKeys root) (sortedHooks : SortedKeys hooks)
    (found : lookup "hooks" root = some (.object hooks))
    (foreign : ∀ entry ∈ hooks, Foreign entry.2) :
    uninstallHooks (.object (installRoot command root)) = .object root ↔
      hooks ≠ [] ∧ ∀ entry ∈ hooks, entry.2 ≠ .array [] := by
  have there : (lookup "hooks" root).getD (.object []) = .object hooks := by rw [found]; rfl
  rw [uninstallHooks_installRoot command sortedHooks there, ← cleaned_eq_self_iff foreign,
    orInsert_of_found found]
  constructor
  · intro same
    split at same
    · next empty =>
        rw [JsonValue.object.injEq] at same
        have gone : lookup "hooks" (remove "hooks" root) = none := by
          rw [lookup_eq_none]
          intro member
          obtain ⟨entry, among, is⟩ := List.mem_map.mp member
          exact of_decide_eq_true (List.mem_filter.mp among).2 is
        rw [same, found] at gone
        cases gone
    · next some =>
        rw [JsonValue.object.injEq] at same
        have now := @lookup_modify "hooks" root "hooks"
          (fun _ => .object (hooks.filterMap cleaned))
        rw [same, if_pos rfl, found, Option.map_some, Option.some.injEq,
          JsonValue.object.injEq] at now
        refine ⟨fun empty => some ?_, now.symm⟩
        rw [← now, empty]
        rfl
  · rintro ⟨nonempty, same⟩
    rw [same, if_neg fun empty => nonempty (List.isEmpty_iff.mp empty),
      modify_of_fixed sorted found rfl]

end Settings

/-- What installing does to settings, and that uninstalling then restores them. -/
structure LeavesUserAlone (endpointFile : String) (settings : JsonValue) : Prop where
  ordered : Ordered (installHooks endpointFile settings)
  again : installHooks endpointFile (installHooks endpointFile settings) =
    installHooks endpointFile settings
  others : ∀ key, key ≠ "hooks" → (installHooks endpointFile settings).get key = settings.get key
  odd : (∀ root, settings ≠ .object root) ∨
    (∃ value, settings.get "hooks" = some value ∧ ∀ hooks, value ≠ .object hooks) →
      installHooks endpointFile settings = settings
  events : ∀ root hooks, settings = .object root →
    (settings.get "hooks").getD (.object []) = .object hooks →
      ∃ after, (installHooks endpointFile settings).get "hooks" = some (.object after) ∧
        ∀ event, if event ∈ managedEvents then
            lookup event after = installed (hookCommand endpointFile) (lookup event hooks) ∧
            ∀ groups, lookup event after = some (.array groups) →
              groups.filter isManaged = [managedGroup (hookCommand endpointFile)]
          else lookup event after = lookup event hooks
  restored : NoManagedGroups settings →
    uninstallHooks (installHooks endpointFile settings) = settings

section Claude

variable {settings : JsonValue}

theorem managed_once {command : String} {value : Option JsonValue} {groups : List JsonValue}
    (renewed : installed command value = some (.array groups)) :
    groups.filter isManaged = [managedGroup command] := by
  have once : ∀ own : List JsonValue, (ownGroups own ++ [managedGroup command]).filter isManaged =
      [managedGroup command] := by
    intro own
    rw [List.filter_append, ownGroups, List.filter_filter, List.filter_singleton,
      isManaged_managedGroup]
    simp
  rw [installed_eq, Option.some.injEq] at renewed
  cases there : value.getD (.array []) with
  | array own =>
      rw [there, renewGroups, JsonValue.array.injEq] at renewed
      rw [← renewed]
      exact once own
  | null | bool | number | string | object =>
      rw [there] at renewed
      cases renewed

theorem not_emptyContainers_iff {root hooks : Members}
    (found : lookup "hooks" root = some (.object hooks)) :
    ¬ EmptyContainers (.object root) ↔ hooks ≠ [] ∧ ∀ entry ∈ hooks, entry.2 ≠ .array [] := by
  constructor
  · intro none
    refine ⟨fun empty => none ⟨hooks, found, .inl empty⟩, fun entry member empty => ?_⟩
    exact none ⟨hooks, found, .inr ⟨entry.1, empty ▸ member⟩⟩
  · rintro ⟨nonempty, full⟩ ⟨others, also, empty | ⟨event, member⟩⟩
    · cases Option.some.inj (found.symm.trans also)
      exact nonempty empty
    · cases Option.some.inj (found.symm.trans also)
      exact full _ member rfl

theorem restored_iff_not_empty (endpointFile : String) (ordered : Ordered settings)
    (foreign : NoManagedGroups settings) :
    uninstallHooks (installHooks endpointFile settings) = settings ↔
      ¬ EmptyContainers settings := by
  cases settings with
  | object root =>
      have sorted := ordered.root root rfl
      cases found : lookup "hooks" root with
      | none =>
          have gone : ¬ EmptyContainers (.object root) := by
            rintro ⟨hooks, there, -⟩
            cases found.symm.trans there
          have restored : uninstallHooks (installHooks endpointFile (.object root)) =
              .object root := by
            refine (uninstallHooks_installRoot _ .nil (by rw [found]; rfl)).trans ?_
            rw [List.filterMap_nil, List.isEmpty_nil, if_pos rfl,
              remove_of_not_mem (lookup_eq_none.mp found)]
          exact iff_of_true restored gone
      | some value =>
          by_cases object : ∃ hooks, value = .object hooks
          · obtain ⟨hooks, rfl⟩ := object
            exact (restored_iff _ sorted (ordered.hooks hooks found) found
              (foreign hooks found)).trans (not_emptyContainers_iff found).symm
          · have odd : ∀ hooks, value ≠ .object hooks := fun hooks is => object ⟨hooks, is⟩
            have gone : ¬ EmptyContainers (.object root) := by
              rintro ⟨hooks, there, -⟩
              exact odd hooks (Option.some.inj (found.symm.trans there))
            have restored : uninstallHooks (installHooks endpointFile (.object root)) =
                .object root := by
              have same := installRoot_odd (hookCommand endpointFile) sorted found odd
              rw [installHooks]
              change uninstallHooks (.object (installRoot _ root)) = _
              rw [same, uninstallHooks, found]
              cases value with
              | object hooks => exact absurd rfl (odd hooks)
              | null | bool | number | string | array => rfl
            exact iff_of_true restored gone
  | null | bool | number | string | array =>
      refine iff_of_true rfl ?_
      rintro ⟨hooks, there, -⟩
      cases there

/-- Installing leaves everything of the user alone, and uninstalling restores it unless an
array of groups or the object of the hooks was empty. -/
theorem leaves_user_alone_iff (endpointFile : String) (ordered : Ordered settings) :
    LeavesUserAlone endpointFile settings ↔
      (NoManagedGroups settings → ¬ EmptyContainers settings) := by
  constructor
  · intro alone foreign
    exact (restored_iff_not_empty endpointFile ordered foreign).mp (alone.restored foreign)
  · intro full
    have restored : NoManagedGroups settings →
        uninstallHooks (installHooks endpointFile settings) = settings := fun foreign =>
      (restored_iff_not_empty endpointFile ordered foreign).mpr (full foreign)
    cases settings with
    | object root =>
        have sorted := ordered.root root rfl
        have install : installHooks endpointFile (.object root) =
            .object (installRoot (hookCommand endpointFile) root) := rfl
        have get : ∀ key,
            JsonValue.get key (.object (installRoot (hookCommand endpointFile) root)) =
            if key = "hooks" then some (installEvents (hookCommand endpointFile)
              ((lookup "hooks" root).getD (.object [])))
            else lookup key root := lookup_installRoot (hookCommand endpointFile)
        have odd : ∀ value, (lookup "hooks" root) = some value → (∀ hooks, value ≠ .object hooks) →
            installRoot (hookCommand endpointFile) root = root := fun value found =>
          installRoot_odd (hookCommand endpointFile) sorted found
        refine ⟨ordered_installRoot _ ordered, ?_, ?_, ?_, ?_, restored⟩
        · exact congrArg JsonValue.object (installRoot_idempotent _ ordered)
        · intro key other
          rw [install, get, if_neg other]
          rfl
        · rintro (nothing | ⟨value, found, unlike⟩)
          · exact absurd rfl (nothing root)
          · rw [install, odd value found unlike]
        · intro members hooks same there
          refine ⟨managedEvents.foldl (installEvent (hookCommand endpointFile)) hooks, ?_, ?_⟩
          · rw [install, get, if_pos rfl]
            exact congrArg some (congrArg (installEvents _) there)
          · intro event
            rw [lookup_installEvents _ managedEvents_nodup]
            split
            · exact ⟨rfl, fun groups renewed => managed_once renewed⟩
            · rfl
    | null | bool | number | string | array =>
        refine ⟨⟨nofun, nofun⟩, rfl, fun _ _ => rfl, fun _ => rfl, nofun, restored⟩

/-! Settings with a group of the user, and settings that are not restored. -/

def userSettings : JsonValue :=
  .object [("hooks", .object [("Stop", .array [.object [("matcher", .string "")]])])]

theorem leaves_user_settings_alone :
    LeavesUserAlone "/tmp/endpoint.sh" userSettings ↔
      (NoManagedGroups userSettings → ¬ EmptyContainers userSettings) := by
  apply leaves_user_alone_iff
  constructor
  · intro members same
    cases same
    exact List.pairwise_singleton _ _
  · intro members found
    cases found
    exact List.pairwise_singleton _ _

def emptyArray : JsonValue := .object [("hooks", .object [("Stop", .array [])])]

def emptyHooks : JsonValue := .object [("hooks", .object [])]

/-- The empty array and the empty object are lost. -/
theorem empty_containers_are_lost :
    (NoManagedGroups emptyArray ∧
      uninstallHooks (installHooks "/tmp/endpoint.sh" emptyArray) ≠ emptyArray) ∧
    (NoManagedGroups emptyHooks ∧
      uninstallHooks (installHooks "/tmp/endpoint.sh" emptyHooks) ≠ emptyHooks) := by
  have array : NoManagedGroups emptyArray := by
    intro hooks found entry member groups is group among
    cases found
    cases List.mem_singleton.mp member
    cases is
    cases among
  have object : NoManagedGroups emptyHooks := by
    intro hooks found
    cases found
    exact List.forall_mem_nil _
  refine ⟨⟨array, fun same => ?_⟩, object, fun same => ?_⟩
  · refine (restored_iff_not_empty "/tmp/endpoint.sh" ⟨?_, ?_⟩ array).mp same
      ⟨_, rfl, .inr ⟨"Stop", List.mem_cons_self ..⟩⟩
    · rintro members ⟨⟩
      exact List.pairwise_singleton _ _
    · rintro members ⟨⟩
      exact List.pairwise_singleton _ _
  · refine (restored_iff_not_empty "/tmp/endpoint.sh" ⟨?_, ?_⟩ object).mp same
      ⟨[], rfl, .inl rfl⟩
    · rintro members ⟨⟩
      exact List.pairwise_singleton _ _
    · rintro members ⟨⟩
      exact .nil

end Claude

end TerminalCanvas.ClaudeHooks
