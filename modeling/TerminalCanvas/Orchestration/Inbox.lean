import Mathlib.Data.List.Dedup
import Mathlib.Data.List.Find
import Mathlib.Data.List.Pairwise
import TerminalCanvas.Orchestration.Observations

/-! # Episodes of the inbox

An event of the inbox stands for an episode: polls in a row that find a session in one
condition. A poll builds the inbox anew, and tells by their identifiers which of the events
go on. -/

namespace TerminalCanvas.Orchestration

/-! ## Identifiers -/

/-- No event of one session has the identifier of an event of the other. -/
def Apart (one other : Uuid) : Prop :=
  ∀ kind kind', deterministicEventId kind one ≠ deterministicEventId kind' other

instance : Std.Symm Apart where
  symm _ _ apart kind kind' same := apart kind' kind same.symm

theorem Apart.ne {one other : Uuid} (apart : Apart one other) : one ≠ other := by
  rintro rfl
  exact apart .conflictRisk .conflictRisk rfl

theorem kindMask_injective : Function.Injective kindMask := by
  intro one other
  cases one <;> cases other <;> decide

theorem deterministicEventId_inj {kind kind' : InboxEventKind} {id : Uuid} :
    deterministicEventId kind id = deterministicEventId kind' id ↔ kind = kind' := by
  rw [deterministicEventId, deterministicEventId, Uuid.mk.injEq, BitVec.xor_right_inj]
  exact kindMask_injective.eq_iff

theorem deterministicEventId_injective (kind : InboxEventKind) :
    Function.Injective (deterministicEventId kind) := by
  rintro ⟨one⟩ ⟨other⟩ same
  have equal := Uuid.mk.inj same
  exact congrArg Uuid.mk ((BitVec.xor_left_inj _).mp equal)

/-! ## Episodes -/

structure Episode where
  createdAt : Int
  resolved : Bool
  archived : Bool
deriving DecidableEq, Repr

def InboxEvent.episode (event : InboxEvent) : Episode :=
  ⟨event.createdAt, event.resolved, event.archived⟩

def isOf (kind : InboxEventKind) (sessionId : Uuid) (event : InboxEvent) : Bool :=
  event.kind = kind && event.sessionId = some sessionId

theorem isOf_iff {kind : InboxEventKind} {sessionId : Uuid} {event : InboxEvent} :
    isOf kind sessionId event = true ↔ event.kind = kind ∧ event.sessionId = some sessionId := by
  rw [isOf, Bool.and_eq_true, decide_eq_true_iff, decide_eq_true_iff]

def episodeOf (inbox : List InboxEvent) (kind : InboxEventKind) (sessionId : Uuid) :
    Option Episode :=
  (inbox.find? (isOf kind sessionId)).map InboxEvent.episode

theorem episodeOf_eq_none_iff {inbox : List InboxEvent} {kind : InboxEventKind}
    {sessionId : Uuid} :
    episodeOf inbox kind sessionId = none ↔ ∀ event ∈ inbox, ¬ isOf kind sessionId event := by
  rw [episodeOf, Option.map_eq_none_iff, List.find?_eq_none]

theorem exists_of_episodeOf {inbox : List InboxEvent} {kind : InboxEventKind}
    {sessionId : Uuid} {episode : Episode}
    (found : episodeOf inbox kind sessionId = some episode) :
    ∃ event ∈ inbox, event.kind = kind ∧ event.sessionId = some sessionId ∧
      event.episode = episode := by
  obtain ⟨event, first, same⟩ := Option.map_eq_some_iff.mp found
  have own := isOf_iff.mp (List.find?_some first)
  exact ⟨event, List.mem_of_find?_eq_some first, own.1, own.2, same⟩

/-- The events are such as polls make them for the sessions. Some may be of sessions that
are gone. -/
structure Made (ids : List Uuid) (inbox : List InboxEvent) : Prop where
  apart : ids.Pairwise Apart
  named : ∀ event ∈ inbox, ∃ id, event.sessionId = some id ∧
    event.id = deterministicEventId event.kind id ∧ ∀ other ∈ ids, other ≠ id → Apart other id
  distinct : (inbox.map (·.id)).Nodup

namespace Made

variable {ids : List Uuid} {inbox : List InboxEvent} (made : Made ids inbox)

include made

theorem nodup : ids.Nodup := made.apart.imp Apart.ne

theorem apart_of_ne {one other : Uuid} (member : one ∈ ids) (otherMember : other ∈ ids)
    (different : one ≠ other) : Apart one other :=
  made.apart.forall member otherMember different

theorem id_eq_iff {event : InboxEvent} (member : event ∈ inbox) {kind : InboxEventKind}
    {sessionId : Uuid} (known : sessionId ∈ ids) :
    event.id = deterministicEventId kind sessionId ↔
      event.kind = kind ∧ event.sessionId = some sessionId := by
  obtain ⟨id, own, named, apart⟩ := made.named event member
  constructor
  · intro same
    rcases eq_or_ne sessionId id with rfl | different
    · exact ⟨deterministicEventId_inj.mp (named.symm.trans same), own⟩
    · exact absurd (same.symm.trans named) (apart sessionId known different _ _)
  · rintro ⟨rfl, same⟩
    rw [named, Option.some.inj (own.symm.trans same)]

theorem unique {one other : InboxEvent} (member : one ∈ inbox) (otherMember : other ∈ inbox)
    (sameKind : one.kind = other.kind) (sameSession : one.sessionId = other.sessionId) :
    one = other := by
  obtain ⟨id, own, named, _⟩ := made.named one member
  obtain ⟨otherId, otherOwn, otherNamed, _⟩ := made.named other otherMember
  have same : id = otherId :=
    Option.some.inj (own.symm.trans (sameSession.trans otherOwn))
  refine List.inj_on_of_nodup_map made.distinct member otherMember ?_
  rw [named, otherNamed, sameKind, same]

theorem episodeOf_eq {event : InboxEvent} (member : event ∈ inbox) {kind : InboxEventKind}
    {sessionId : Uuid} (sameKind : event.kind = kind)
    (own : event.sessionId = some sessionId) :
    episodeOf inbox kind sessionId = some event.episode := by
  cases found : episodeOf inbox kind sessionId with
  | none =>
      exact absurd (isOf_iff.mpr ⟨sameKind, own⟩) (episodeOf_eq_none_iff.mp found event member)
  | some episode =>
      obtain ⟨other, otherMember, otherKind, otherOwn, same⟩ := exists_of_episodeOf found
      have equal := made.unique member otherMember (sameKind.trans otherKind.symm)
        (own.trans otherOwn.symm)
      rw [equal, same]

theorem find_id {kind : InboxEventKind} {sessionId : Uuid} (known : sessionId ∈ ids) :
    (inbox.find? (·.id = deterministicEventId kind sessionId)).map InboxEvent.episode =
      episodeOf inbox kind sessionId := by
  rw [episodeOf]
  refine congrArg _ (List.find?_congr fun event member => ?_)
  rw [Bool.eq_iff_iff, decide_eq_true_iff, isOf_iff]
  exact made.id_eq_iff member known

end Made

theorem episode_carryOver (previous : Option InboxEvent) (event : InboxEvent) :
    (carryOver previous event).episode =
      (previous.map InboxEvent.episode).getD event.episode := by
  cases previous <;> rfl

@[simp] theorem id_carryOver (previous : Option InboxEvent) (event : InboxEvent) :
    (carryOver previous event).id = event.id := by cases previous <;> rfl

@[simp] theorem kind_carryOver (previous : Option InboxEvent) (event : InboxEvent) :
    (carryOver previous event).kind = event.kind := by cases previous <;> rfl

@[simp] theorem sessionId_carryOver (previous : Option InboxEvent) (event : InboxEvent) :
    (carryOver previous event).sessionId = event.sessionId := by cases previous <;> rfl

theorem find_own {inbox : List InboxEvent} (distinct : (inbox.map (·.id)).Nodup)
    {event : InboxEvent} (member : event ∈ inbox) :
    inbox.find? (·.id = event.id) = some event := by
  cases found : inbox.find? (·.id = event.id) with
  | none => exact absurd (decide_eq_true rfl) (List.find?_eq_none.mp found event member)
  | some other =>
      have sameId : other.id = event.id := by simpa using List.find?_some found
      rw [List.inj_on_of_nodup_map distinct (List.mem_of_find?_eq_some found) member sameId]

theorem find_byId {inbox : List InboxEvent} (distinct : (inbox.map (·.id)).Nodup) (id : Uuid) :
    (byId inbox).find id = inbox.find? (·.id = id) := by
  have entries : byId inbox = (inbox.map fun event => (event.id, event)).foldl
      (fun table entry => table.put entry.1 entry.2) ∅ := by
    rw [byId, List.foldl_map]
  have keys : ((inbox.map fun event => (event.id, event)).map (·.1)).Nodup := by
    rw [List.map_map]
    exact distinct
  apply Option.ext
  intro event
  rw [entries, Table.find_foldl_put_iff keys fun _ _ => Table.find_empty _, Table.find_empty]
  constructor
  · rintro (member | impossible)
    · obtain ⟨stored, storedMember, same⟩ := List.mem_map.mp member
      obtain ⟨rfl, rfl⟩ := Prod.mk.inj same
      exact find_own distinct storedMember
    · cases impossible
  · intro found
    have own : event.id = id := by simpa using List.find?_some found
    exact .inl (List.mem_map.mpr ⟨event, List.mem_of_find?_eq_some found, by rw [own]⟩)

/-! ## Conditions -/

/-- A session is in a status that sends events of a kind. -/
def Notifies (sessions : List AgentSessionMeta) (kind : InboxEventKind) (sessionId : Uuid) :
    Prop :=
  ∃ session ∈ sessions, session.sessionId = sessionId ∧
    (notification session).map (·.1) = some kind

/-- A session shares a changed file with another one of its workspace. -/
def SharesFile (sessions : List AgentSessionMeta) (sessionId : Uuid) : Prop :=
  ∃ session ∈ sessions, ∃ other ∈ sessions, session.sessionId = sessionId ∧
    other.sessionId ≠ sessionId ∧ session.workspaceId = other.workspaceId ∧
    ∃ file ∈ session.review.changedFiles, file ∈ other.review.changedFiles

/-- The condition that an event stands for. -/
def Holds (sessions : List AgentSessionMeta) (kind : InboxEventKind) (sessionId : Uuid) : Prop :=
  match kind with
  | .conflictRisk => SharesFile sessions sessionId
  | kind => Notifies sessions kind sessionId

theorem notification_ne_conflict (session : AgentSessionMeta) :
    (notification session).map (·.1) ≠ some .conflictRisk := by
  rw [notification]
  split <;> simp

theorem holds_iff_notifies {sessions : List AgentSessionMeta} {kind : InboxEventKind}
    {sessionId : Uuid} (other : kind ≠ .conflictRisk) :
    Holds sessions kind sessionId ↔ Notifies sessions kind sessionId := by
  cases kind <;> first | exact absurd rfl other | exact Iff.rfl

section Refreshing

variable (clock : InboxEventKind → Uuid → Int)

/-- What a session puts into the inbox. -/
def desiredEvent (session : AgentSessionMeta) :
    Option ((InboxEventKind × Uuid) × InboxEvent) :=
  (notification session).map fun (kind, title, summary) =>
    ((kind, session.sessionId),
      { id := deterministicEventId kind session.sessionId
        sessionId := some session.sessionId
        taskId := session.taskId
        kind, title, summary
        createdAt := clock kind session.sessionId
        resolved := false
        archived := false })

variable {clock}

theorem desiredEvent_facts {session : AgentSessionMeta} {key : InboxEventKind × Uuid}
    {fresh : InboxEvent} (desired : desiredEvent clock session = some (key, fresh)) :
    key = (fresh.kind, session.sessionId) ∧
      (notification session).map (·.1) = some fresh.kind ∧
      fresh.sessionId = some session.sessionId ∧
      fresh.id = deterministicEventId fresh.kind session.sessionId ∧
      fresh.episode = ⟨clock fresh.kind session.sessionId, false, false⟩ := by
  obtain ⟨⟨kind, title, summary⟩, sent, same⟩ := Option.map_eq_some_iff.mp desired
  obtain ⟨rfl, rfl⟩ := Prod.mk.inj same
  rw [sent]
  exact ⟨rfl, rfl, rfl, rfl, rfl⟩

theorem exists_desiredEvent {session : AgentSessionMeta} {kind : InboxEventKind}
    (notifies : (notification session).map (·.1) = some kind) :
    ∃ key fresh, desiredEvent clock session = some (key, fresh) ∧ fresh.kind = kind := by
  obtain ⟨⟨_, title, summary⟩, sent, rfl⟩ := Option.map_eq_some_iff.mp notifies
  exact ⟨_, _, by rw [desiredEvent, sent]; rfl, rfl⟩

theorem find_desiredEvents {sessions : List AgentSessionMeta}
    (distinct : (sessions.map (·.sessionId)).Nodup) {key : InboxEventKind × Uuid}
    {event : InboxEvent} :
    (desiredEvents clock sessions).find key = some event ↔
      ∃ session ∈ sessions, desiredEvent clock session = some (key, event) := by
  have entries : desiredEvents clock sessions =
      (sessions.filterMap (desiredEvent clock)).foldl
        (fun table entry => table.put entry.1 entry.2) ∅ := by
    rw [desiredEvents, List.foldl_filterMap]
    congr
    funext table session
    rw [desiredEvent]
    cases notification session <;> rfl
  have owners : (((sessions.filterMap (desiredEvent clock)).map (·.1)).map (·.2)).Sublist
      (sessions.map (·.sessionId)) := by
    clear distinct entries
    induction sessions with
    | nil => exact .slnil
    | cons session sessions induction =>
        rw [List.filterMap_cons]
        cases desired : desiredEvent clock session with
        | none => exact induction.cons _
        | some entry =>
            have owner : entry.1.2 = session.sessionId := by
              obtain ⟨key, fresh⟩ := entry
              rw [(desiredEvent_facts desired).1]
            rw [List.map_cons, List.map_cons, List.map_cons, owner]
            exact induction.cons_cons _
  have keys : ((sessions.filterMap (desiredEvent clock)).map (·.1)).Nodup :=
    (distinct.sublist owners).of_map _
  rw [entries, Table.find_foldl_put_iff keys fun _ _ => Table.find_empty _, Table.find_empty,
    List.mem_filterMap]
  simp

theorem mem_refreshInbox {sessions : List AgentSessionMeta} {inbox : List InboxEvent}
    (made : Made (sessions.map (·.sessionId)) inbox) {event : InboxEvent} :
    event ∈ refreshInbox clock sessions inbox ↔
      (∃ session ∈ sessions, ∃ key fresh, desiredEvent clock session = some (key, fresh) ∧
        event = carryOver (inbox.find? (·.id = fresh.id)) fresh) ∨
      event ∈ inbox ∧ event.kind = .conflictRisk := by
  rw [refreshInbox, List.mem_append, List.mem_map, List.mem_filter, decide_eq_true_iff]
  refine or_congr ?_ Iff.rfl
  constructor
  · rintro ⟨fresh, stored, rfl⟩
    obtain ⟨key, found⟩ := Table.mem_rows_iff.mp stored
    obtain ⟨session, member, desired⟩ := (find_desiredEvents made.nodup).mp found
    exact ⟨session, member, key, fresh, desired, by rw [find_byId made.distinct]⟩
  · rintro ⟨session, member, key, fresh, desired, rfl⟩
    refine ⟨fresh, Table.mem_rows_iff.mpr ⟨key, ?_⟩, by rw [find_byId made.distinct]⟩
    exact (find_desiredEvents made.nodup).mpr ⟨session, member, desired⟩

theorem made_refreshInbox {sessions : List AgentSessionMeta} {inbox : List InboxEvent}
    (made : Made (sessions.map (·.sessionId)) inbox) :
    Made (sessions.map (·.sessionId)) (refreshInbox clock sessions inbox) := by
  have known {session : AgentSessionMeta} (member : session ∈ sessions) :
      session.sessionId ∈ sessions.map (·.sessionId) := List.mem_map_of_mem member
  refine ⟨made.apart, fun event member => ?_, ?_⟩
  · rcases (mem_refreshInbox made).mp member with
      ⟨session, owner, key, fresh, desired, rfl⟩ | ⟨stored, _⟩
    · obtain ⟨_, _, own, named, _⟩ := desiredEvent_facts desired
      refine ⟨session.sessionId, ?_, ?_, fun other otherKnown different =>
        made.apart_of_ne otherKnown (known owner) different⟩
      · rw [sessionId_carryOver, own]
      · rw [id_carryOver, kind_carryOver, named]
    · exact made.named event stored
  · rw [refreshInbox, List.map_append, List.map_map]
    have sameIds : (desiredEvents clock sessions).rows.map
        ((·.id) ∘ fun event => carryOver ((byId inbox).find event.id) event) =
          (desiredEvents clock sessions).rows.map (·.id) :=
      List.map_congr_left fun event _ => id_carryOver _ event
    rw [sameIds, List.nodup_append']
    refine ⟨Table.nodup_map_rows ?_, made.distinct.sublist (List.filter_sublist.map _), ?_⟩
    · intro key event key' event' found found' same
      obtain ⟨session, owner, desired⟩ := (find_desiredEvents made.nodup).mp found
      obtain ⟨session', owner', desired'⟩ := (find_desiredEvents made.nodup).mp found'
      obtain ⟨keyIs, _, _, named, _⟩ := desiredEvent_facts desired
      obtain ⟨keyIs', _, _, named', _⟩ := desiredEvent_facts desired'
      rw [named, named'] at same
      rcases eq_or_ne session.sessionId session'.sessionId with sameSession | different
      · rw [sameSession] at same
        rw [keyIs, keyIs', sameSession, deterministicEventId_inj.mp same]
      · exact absurd same
          (made.apart_of_ne (known owner) (known owner') different _ _)
    · intro id isDesired isConflict
      obtain ⟨fresh, stored, rfl⟩ := List.mem_map.mp isDesired
      obtain ⟨event, kept, same⟩ := List.mem_map.mp isConflict
      obtain ⟨member, conflict⟩ := List.mem_filter.mp kept
      obtain ⟨key, found⟩ := Table.mem_rows_iff.mp stored
      obtain ⟨session, owner, desired⟩ := (find_desiredEvents made.nodup).mp found
      obtain ⟨_, sent, _, named, _⟩ := desiredEvent_facts desired
      have sameKind := ((made.id_eq_iff member (known owner)).mp (same.trans named)).1
      rw [← sameKind, of_decide_eq_true conflict] at sent
      exact notification_ne_conflict session sent

/-! ### Conflicts -/

theorem sharesFile_iff {left right : AgentSessionMeta} :
    sharesFile left right = true ↔ left.workspaceId = right.workspaceId ∧
      ∃ file ∈ left.review.changedFiles, file ∈ right.review.changedFiles := by
  simp [sharesFile, and_comm]

theorem sharesFile_symm {left right : AgentSessionMeta} (shares : sharesFile left right = true) :
    sharesFile right left = true := by
  obtain ⟨sameWorkspace, file, inLeft, inRight⟩ := sharesFile_iff.mp shares
  exact sharesFile_iff.mpr ⟨sameWorkspace.symm, file, inRight, inLeft⟩

theorem mem_conflictsOf_cons {left : AgentSessionMeta} {rest : List AgentSessionMeta}
    {id : Uuid} :
    id ∈ conflictsOf (left :: rest) ↔
      (∃ right ∈ rest, sharesFile left right = true ∧
        (id = left.sessionId ∨ id = right.sessionId)) ∨ id ∈ conflictsOf rest := by
  simp [conflictsOf, and_assoc]

theorem mem_conflictsOf_iff {sessions : List AgentSessionMeta}
    (distinct : (sessions.map (·.sessionId)).Nodup) {id : Uuid} :
    id ∈ conflictsOf sessions ↔ ∃ session ∈ sessions, ∃ other ∈ sessions,
      session.sessionId = id ∧ other.sessionId ≠ id ∧ sharesFile session other = true := by
  induction sessions with
  | nil => simp [conflictsOf]
  | cons left rest induction =>
      obtain ⟨absent, distinct⟩ := List.nodup_cons.mp distinct
      have different {other : AgentSessionMeta} (member : other ∈ rest) :
          other.sessionId ≠ left.sessionId :=
        fun same => absent (List.mem_map.mpr ⟨other, member, same⟩)
      rw [mem_conflictsOf_cons, induction distinct]
      constructor
      · rintro (⟨right, member, shares, rfl | rfl⟩ | ⟨one, member, other, otherMember, found⟩)
        · exact ⟨left, List.mem_cons_self, right, List.mem_cons_of_mem _ member, rfl,
            different member, shares⟩
        · exact ⟨right, List.mem_cons_of_mem _ member, left, List.mem_cons_self, rfl,
            (different member).symm, sharesFile_symm shares⟩
        · exact ⟨one, List.mem_cons_of_mem _ member, other, List.mem_cons_of_mem _ otherMember,
            found⟩
      · rintro ⟨one, member, other, otherMember, own, unlike, shares⟩
        rcases List.mem_cons.mp member with rfl | inRest
        · rcases List.mem_cons.mp otherMember with rfl | otherInRest
          · exact absurd own unlike
          · exact .inl ⟨other, otherInRest, shares, .inl own.symm⟩
        · rcases List.mem_cons.mp otherMember with rfl | otherInRest
          · exact .inl ⟨one, inRest, sharesFile_symm shares, .inr own.symm⟩
          · exact .inr ⟨one, inRest, other, otherInRest, own, unlike, shares⟩

theorem conflicts_iff {sessions : List AgentSessionMeta}
    (distinct : (sessions.map (·.sessionId)).Nodup) {id : Uuid} :
    id ∈ conflictsOf sessions ↔ Holds sessions .conflictRisk id := by
  rw [mem_conflictsOf_iff distinct]
  simp only [sharesFile_iff, Holds, SharesFile]

theorem find_foldl_putConflict {sessions : List AgentSessionMeta} {conflicts : List Uuid}
    (distinct : conflicts.Nodup) {table : Table Uuid InboxEvent} {key : Uuid}
    {event : InboxEvent} :
    (conflicts.foldl (putConflict clock sessions) table).find key = some event ↔
      (∃ id ∈ conflicts, key = deterministicEventId .conflictRisk id ∧
        event = carryOver (table.find key) (conflictEvent clock sessions id)) ∨
      (∀ id ∈ conflicts, key ≠ deterministicEventId .conflictRisk id) ∧
        table.find key = some event := by
  induction conflicts generalizing table with
  | nil => simp
  | cons id conflicts induction =>
      obtain ⟨absent, distinct⟩ := List.nodup_cons.mp distinct
      have put : (putConflict clock sessions table id).find key =
          if key = deterministicEventId .conflictRisk id then
            some (carryOver (table.find (deterministicEventId .conflictRisk id))
              (conflictEvent clock sessions id))
          else table.find key := Table.find_put _ _ _ _
      rw [List.foldl_cons, induction distinct, put]
      simp only [List.exists_mem_cons_iff, List.forall_mem_cons]
      split
      · next same =>
          subst same
          have others : ∀ other ∈ conflicts, deterministicEventId .conflictRisk id ≠
              deterministicEventId .conflictRisk other := by
            rintro other member same
            rw [deterministicEventId_injective _ same] at absent
            exact absent member
          constructor
          · rintro (⟨other, member, same, _⟩ | ⟨_, same⟩)
            · exact absurd same (others other member)
            · exact .inl (.inl ⟨rfl, (Option.some.inj same).symm⟩)
          · rintro ((⟨_, rfl⟩ | ⟨other, member, same, _⟩) | ⟨⟨unlike, _⟩, _⟩)
            · exact .inr ⟨others, rfl⟩
            · exact absurd same (others other member)
            · exact absurd rfl unlike
      · next unlike =>
          simp only [unlike, false_and, false_or, ne_eq, not_false_eq_true, true_and]

/-- The events that stand until the conflicts are put among them. -/
def keptEvents (sessions : List AgentSessionMeta) (inbox : List InboxEvent) :
    List InboxEvent :=
  inbox.filter fun event =>
    event.kind ≠ .conflictRisk || event.sessionId.any (· ∈ (conflictsOf sessions).dedup)

theorem mem_keptEvents {sessions : List AgentSessionMeta} {inbox : List InboxEvent}
    {event : InboxEvent} :
    event ∈ keptEvents sessions inbox ↔ event ∈ inbox ∧
      (event.kind = .conflictRisk → ∃ id ∈ conflictsOf sessions, event.sessionId = some id) := by
  rw [keptEvents, List.mem_filter]
  refine and_congr_right fun _ => ?_
  cases event.sessionId with
  | none => simp
  | some id => simp [imp_iff_not_or, List.mem_dedup]

theorem distinct_keptEvents {inbox : List InboxEvent} (sessions : List AgentSessionMeta)
    (distinct : (inbox.map (·.id)).Nodup) :
    ((keptEvents sessions inbox).map (·.id)).Nodup :=
  distinct.sublist (List.filter_sublist.map _)

theorem find_conflictTable {sessions : List AgentSessionMeta} {inbox : List InboxEvent}
    (distinct : (inbox.map (·.id)).Nodup) {key : Uuid} {event : InboxEvent} :
    ((conflictsOf sessions).dedup.foldl (putConflict clock sessions)
        (byId (keptEvents sessions inbox))).find key = some event ↔
      (∃ id ∈ conflictsOf sessions, key = deterministicEventId .conflictRisk id ∧
        event = carryOver ((keptEvents sessions inbox).find? (·.id = key))
          (conflictEvent clock sessions id)) ∨
      (∀ id ∈ conflictsOf sessions, key ≠ deterministicEventId .conflictRisk id) ∧
        (keptEvents sessions inbox).find? (·.id = key) = some event := by
  rw [find_foldl_putConflict (List.nodup_dedup _),
    find_byId (distinct_keptEvents sessions distinct)]
  simp only [List.mem_dedup]

theorem mem_refreshConflictInbox {sessions : List AgentSessionMeta} {inbox : List InboxEvent}
    (made : Made (sessions.map (·.sessionId)) inbox) {event : InboxEvent} :
    event ∈ refreshConflictInbox clock sessions inbox ↔
      event ∈ inbox ∧ event.kind ≠ .conflictRisk ∨
      ∃ id ∈ conflictsOf sessions, event = carryOver
        (inbox.find? (·.id = deterministicEventId .conflictRisk id))
        (conflictEvent clock sessions id) := by
  have known {id : Uuid} (conflict : id ∈ conflictsOf sessions) :
      id ∈ sessions.map (·.sessionId) := by
    obtain ⟨session, member, _, _, own, _⟩ := (mem_conflictsOf_iff made.nodup).mp conflict
    exact List.mem_map.mpr ⟨session, member, own⟩
  -- the event of a session in conflict is among the kept ones if it is there at all
  have keptFind {id : Uuid} (conflict : id ∈ conflictsOf sessions) :
      (keptEvents sessions inbox).find? (·.id = deterministicEventId .conflictRisk id) =
        inbox.find? (·.id = deterministicEventId .conflictRisk id) := by
    rw [keptEvents, List.find?_filter]
    refine List.find?_congr fun event member => ?_
    by_cases named : event.id = deterministicEventId .conflictRisk id
    · have own := ((made.id_eq_iff member (known conflict)).mp named).2
      simp [named, own, conflict, List.mem_dedup]
    · simp [named]
  rw [refreshConflictInbox, List.mem_mergeSort, Table.mem_rows_iff]
  constructor
  · rintro ⟨key, found⟩
    rcases (find_conflictTable made.distinct).mp found with
      ⟨id, conflict, rfl, same⟩ | ⟨unlike, found⟩
    · exact .inr ⟨id, conflict, by rw [same, keptFind conflict]⟩
    · obtain ⟨member, ofConflict⟩ := mem_keptEvents.mp (List.mem_of_find?_eq_some found)
      have named : event.id = key := by simpa using List.find?_some found
      refine .inl ⟨member, fun conflict => ?_⟩
      obtain ⟨id, inConflict, own⟩ := ofConflict conflict
      exact unlike id inConflict (named.symm.trans
        ((made.id_eq_iff member (known inConflict)).mpr ⟨conflict, own⟩))
  · rintro (⟨member, other⟩ | ⟨id, conflict, rfl⟩)
    · refine ⟨event.id, (find_conflictTable made.distinct).mpr
        (.inr ⟨fun id conflict same => ?_, ?_⟩)⟩
      · exact other ((made.id_eq_iff member (known conflict)).mp same).1
      · exact find_own (distinct_keptEvents sessions made.distinct)
          (mem_keptEvents.mpr ⟨member, fun conflict => absurd conflict other⟩)
    · exact ⟨_, (find_conflictTable made.distinct).mpr
        (.inl ⟨id, conflict, rfl, by rw [keptFind conflict]⟩)⟩

theorem episodeOf_refreshInbox_conflict {sessions : List AgentSessionMeta}
    {inbox : List InboxEvent} (made : Made (sessions.map (·.sessionId)) inbox) (id : Uuid) :
    episodeOf (refreshInbox clock sessions inbox) .conflictRisk id =
      episodeOf inbox .conflictRisk id := by
  cases before : episodeOf inbox .conflictRisk id with
  | none =>
      refine episodeOf_eq_none_iff.mpr fun event member isConflict => ?_
      obtain ⟨conflict, own⟩ := isOf_iff.mp isConflict
      rcases (mem_refreshInbox made).mp member with ⟨session, _, key, fresh, desired, rfl⟩ | stored
      · obtain ⟨_, sent, _⟩ := desiredEvent_facts desired
        rw [kind_carryOver] at conflict
        exact notification_ne_conflict session (conflict ▸ sent)
      · exact episodeOf_eq_none_iff.mp before event stored.1 isConflict
  | some episode =>
      obtain ⟨event, member, conflict, own, rfl⟩ := exists_of_episodeOf before
      exact (made_refreshInbox made).episodeOf_eq
        ((mem_refreshInbox made).mpr (.inr ⟨member, conflict⟩)) conflict own

theorem distinct_refreshConflictInbox {sessions : List AgentSessionMeta}
    {inbox : List InboxEvent} (distinct : (inbox.map (·.id)).Nodup) :
    ((refreshConflictInbox clock sessions inbox).map (·.id)).Nodup := by
  have own {key : Uuid} {event : InboxEvent}
      (found : ((conflictsOf sessions).dedup.foldl (putConflict clock sessions)
        (byId (keptEvents sessions inbox))).find key = some event) : event.id = key := by
    rcases (find_conflictTable distinct).mp found with ⟨id, _, rfl, rfl⟩ | ⟨_, found⟩
    · exact id_carryOver _ _
    · simpa using List.find?_some found
  refine (((List.mergeSort_perm _ _).map _).nodup_iff).mpr (Table.nodup_map_rows ?_)
  intro key event other otherEvent found otherFound same
  rw [← own found, ← own otherFound, same]

/-! ### A poll -/

/-- The inbox behind a poll: an event for each condition that holds, in the episode that it
had before or else a new one. -/
structure Refreshed (clock : InboxEventKind → Uuid → Int) (sessions : List AgentSessionMeta)
    (before after : List InboxEvent) : Prop where
  standing : ∀ event ∈ after, ∃ id ∈ sessions.map (·.sessionId),
    event.sessionId = some id ∧ event.id = deterministicEventId event.kind id ∧
      Holds sessions event.kind id ∧
      event.episode =
        (episodeOf before event.kind id).getD ⟨clock event.kind id, false, false⟩
  complete : ∀ kind id, Holds sessions kind id →
    ∃ event ∈ after, event.kind = kind ∧ event.sessionId = some id
  distinct : (after.map (·.id)).Nodup

theorem refreshed {sessions : List AgentSessionMeta} {inbox : List InboxEvent}
    (made : Made (sessions.map (·.sessionId)) inbox) :
    Refreshed clock sessions inbox
      (refreshConflictInbox clock sessions (refreshInbox clock sessions inbox)) := by
  have rebuilt : Made (sessions.map (·.sessionId)) (refreshInbox clock sessions inbox) :=
    made_refreshInbox made
  refine ⟨fun event member => ?_, fun kind id holds => ?_,
    distinct_refreshConflictInbox rebuilt.distinct⟩
  · rcases (mem_refreshConflictInbox rebuilt).mp member with ⟨stored, other⟩ | ⟨id, conflict, rfl⟩
    · rcases (mem_refreshInbox made).mp stored with
        ⟨session, owner, key, fresh, desired, rfl⟩ | ⟨_, conflict⟩
      · obtain ⟨_, sent, own, named, started⟩ := desiredEvent_facts desired
        have known : session.sessionId ∈ sessions.map (·.sessionId) := List.mem_map_of_mem owner
        rw [kind_carryOver] at other
        rw [kind_carryOver, id_carryOver, sessionId_carryOver, episode_carryOver, started]
        refine ⟨session.sessionId, known, own, named,
          (holds_iff_notifies other).mpr ⟨session, owner, rfl, sent⟩, ?_⟩
        rw [named, made.find_id known]
      · exact absurd conflict other
    · obtain ⟨session, owner, _, _, own, _⟩ := (mem_conflictsOf_iff made.nodup).mp conflict
      have known : id ∈ sessions.map (·.sessionId) := List.mem_map.mpr ⟨session, owner, own⟩
      refine ⟨id, known, sessionId_carryOver _ _, ?_, ?_, ?_⟩
      · rw [id_carryOver, kind_carryOver]
        rfl
      · rw [kind_carryOver]
        exact (conflicts_iff made.nodup).mp conflict
      · rw [episode_carryOver, rebuilt.find_id known, episodeOf_refreshInbox_conflict made,
          kind_carryOver]
        rfl
  · by_cases conflict : kind = .conflictRisk
    · subst conflict
      have found := (conflicts_iff made.nodup).mpr holds
      exact ⟨_, (mem_refreshConflictInbox rebuilt).mpr (.inr ⟨id, found, rfl⟩),
        kind_carryOver _ _, sessionId_carryOver _ _⟩
    · obtain ⟨session, owner, rfl, sent⟩ := (holds_iff_notifies conflict).mp holds
      obtain ⟨key, fresh, desired, rfl⟩ := exists_desiredEvent sent
      have stored := (mem_refreshInbox made).mpr
        (.inl ⟨session, owner, key, fresh, desired, rfl⟩)
      refine ⟨_, (mem_refreshConflictInbox rebuilt).mpr (.inl ⟨stored, ?_⟩),
        kind_carryOver _ _, ?_⟩
      · rwa [kind_carryOver]
      · rw [sessionId_carryOver, (desiredEvent_facts desired).2.2.1]

end Refreshing

/-! ## Actions -/

inductive Action where
  | poll (poll : Poll)
  | resolve (id : Uuid)
  | archive (id : Uuid)

def act (orchestrator : Orchestrator) : Action → Orchestrator
  | .poll poll => applyObservations orchestrator poll
  | .resolve id => markInboxResolved id orchestrator
  | .archive id => archiveInboxEvent id orchestrator

namespace Action

def resolves (id : Uuid) : Action → Bool
  | .resolve other => other = id
  | _ => false

def archives (id : Uuid) : Action → Bool
  | .archive other => other = id
  | _ => false

end Action

/-- The state holds events as polls make them. -/
def MadeByPolls (state : OrchestrationState) : Prop :=
  Made (state.sessions.map (·.sessionId)) state.inbox

theorem sessionIds_applyObservations (orchestrator : Orchestrator) (poll : Poll) :
    (applyObservations orchestrator poll).state.sessions.map (·.sessionId) =
      orchestrator.state.sessions.map (·.sessionId) := by
  simp only [applyObservations, List.map_map]
  exact map_observedSessions orchestrator poll (fun _ _ => rfl) (fun _ _ _ => rfl)
    fun _ _ => rfl

theorem holds_flagged {sessions : List AgentSessionMeta} {flag : AgentSessionMeta → Bool}
    {kind : InboxEventKind} {id : Uuid} :
    Holds (sessions.map fun session => { session with conflictRisk := flag session }) kind id ↔
      Holds sessions kind id := by
  have notifies : Notifies (sessions.map fun session =>
      { session with conflictRisk := flag session }) kind id ↔ Notifies sessions kind id := by
    simp only [Notifies, List.mem_map, exists_exists_and_eq_and]
    rfl
  have shares : SharesFile (sessions.map fun session =>
      { session with conflictRisk := flag session }) id ↔ SharesFile sessions id := by
    simp only [SharesFile, List.mem_map, exists_exists_and_eq_and]
  by_cases conflict : kind = .conflictRisk
  · subst conflict
    exact shares
  · rw [holds_iff_notifies conflict, holds_iff_notifies conflict]
    exact notifies

theorem refreshed_applyObservations {orchestrator : Orchestrator}
    (made : MadeByPolls orchestrator.state) (poll : Poll) :
    Refreshed poll.clock (applyObservations orchestrator poll).state.sessions
      orchestrator.state.inbox (applyObservations orchestrator poll).state.inbox := by
  have sameIds : ((observedSessions orchestrator poll).map (·.1)).map (·.sessionId) =
      orchestrator.state.sessions.map (·.sessionId) := by
    rw [List.map_map]
    exact map_observedSessions orchestrator poll (fun _ _ => rfl) (fun _ _ _ => rfl)
      fun _ _ => rfl
  have polled : Refreshed poll.clock ((observedSessions orchestrator poll).map (·.1))
      orchestrator.state.inbox _ := refreshed (by rw [sameIds]; exact made)
  refine ⟨fun event member => ?_, fun kind id holds => ?_, polled.distinct⟩
  · obtain ⟨id, known, own, named, holds, episode⟩ := polled.standing event member
    rw [sameIds] at known
    rw [sessionIds_applyObservations]
    exact ⟨id, known, own, named, holds_flagged.mpr holds, episode⟩
  · exact polled.complete kind id (holds_flagged.mp holds)

theorem Refreshed.made {clock : InboxEventKind → Uuid → Int}
    {sessions : List AgentSessionMeta} {before after : List InboxEvent}
    (refreshed : Refreshed clock sessions before after)
    (apart : (sessions.map (·.sessionId)).Pairwise Apart) :
    Made (sessions.map (·.sessionId)) after := by
  refine ⟨apart, fun event member => ?_, refreshed.distinct⟩
  obtain ⟨id, known, own, named, _⟩ := refreshed.standing event member
  exact ⟨id, own, named, fun other otherKnown different =>
    apart.forall otherKnown known different⟩

/-! ### Resolving and archiving -/

theorem changeEvent_eq_map {inbox : List InboxEvent} (distinct : (inbox.map (·.id)).Nodup)
    (id : Uuid) (change : InboxEvent → InboxEvent) :
    changeEvent id change inbox =
      inbox.map fun event => if event.id = id then change event else event := by
  induction inbox with
  | nil => rfl
  | cons event events induction =>
      obtain ⟨absent, distinct⟩ := List.nodup_cons.mp distinct
      rw [changeEvent, List.map_cons]
      split
      · next found =>
          have others : events.map (fun event => if event.id = id then change event else event) =
              events.map fun event => event := by
            refine List.map_congr_left fun other member => if_neg fun same => ?_
            exact absent (List.mem_map.mpr ⟨other, member, same.trans found.symm⟩)
          rw [others, List.map_id']
      · rw [induction distinct]

structure SameEvent (change : InboxEvent → InboxEvent) : Prop where
  id : ∀ event, (change event).id = event.id
  kind : ∀ event, (change event).kind = event.kind
  sessionId : ∀ event, (change event).sessionId = event.sessionId

theorem sameEvent_resolved : SameEvent fun event => { event with resolved := true } :=
  ⟨fun _ => rfl, fun _ => rfl, fun _ => rfl⟩

theorem sameEvent_archived : SameEvent fun event => { event with archived := true } :=
  ⟨fun _ => rfl, fun _ => rfl, fun _ => rfl⟩

section Changing

variable {change : InboxEvent → InboxEvent} (same : SameEvent change)

include same

theorem made_changeEvent {ids : List Uuid} {inbox : List InboxEvent} (made : Made ids inbox)
    (id : Uuid) : Made ids (changeEvent id change inbox) := by
  rw [changeEvent_eq_map made.distinct]
  refine ⟨made.apart, fun event member => ?_, ?_⟩
  · obtain ⟨stored, storedMember, rfl⟩ := List.mem_map.mp member
    obtain ⟨owner, named⟩ := made.named stored storedMember
    refine ⟨owner, ?_⟩
    split
    · rwa [same.id, same.kind, same.sessionId]
    · exact named
  · have ids : (inbox.map fun event => if event.id = id then change event else event).map (·.id) =
        inbox.map (·.id) := by
      rw [List.map_map]
      refine List.map_congr_left fun event _ => ?_
      rw [Function.comp_apply]
      split
      · exact same.id event
      · rfl
    rw [ids]
    exact made.distinct

theorem episodeOf_changeEvent {ids : List Uuid} {inbox : List InboxEvent}
    (made : Made ids inbox) {step : Episode → Episode}
    (steps : ∀ event, (change event).episode = step event.episode) (id : Uuid)
    (kind : InboxEventKind) (sessionId : Uuid) :
    episodeOf (changeEvent id change inbox) kind sessionId =
      (episodeOf inbox kind sessionId).map fun episode =>
        if deterministicEventId kind sessionId = id then step episode else episode := by
  have changed := made_changeEvent same made id
  cases before : episodeOf inbox kind sessionId with
  | none =>
      refine episodeOf_eq_none_iff.mpr fun event member isEvent => ?_
      rw [changeEvent_eq_map made.distinct] at member
      obtain ⟨stored, storedMember, rfl⟩ := List.mem_map.mp member
      refine episodeOf_eq_none_iff.mp before stored storedMember ?_
      rw [isOf_iff] at isEvent ⊢
      split at isEvent
      · rwa [same.kind, same.sessionId] at isEvent
      · exact isEvent
  | some episode =>
      obtain ⟨event, member, rfl, own, rfl⟩ := exists_of_episodeOf before
      obtain ⟨owner, ownerIs, named, _⟩ := made.named event member
      obtain rfl : sessionId = owner := Option.some.inj (own.symm.trans ownerIs)
      have stays : (if event.id = id then change event else event) ∈
          changeEvent id change inbox := by
        rw [changeEvent_eq_map made.distinct]
        exact List.mem_map_of_mem (f := fun event => if event.id = id then change event else event)
          member
      rw [← named, Option.map_some]
      split at stays
      · next found =>
          rw [if_pos found, ← steps]
          exact changed.episodeOf_eq stays (same.kind event) ((same.sessionId event).trans own)
      · next other =>
          rw [if_neg other]
          exact changed.episodeOf_eq stays rfl own

end Changing

/-! ## Runs -/

/-- Every poll of a run leaves the sessions in a condition. -/
def Throughout (condition : List AgentSessionMeta → Prop) : Orchestrator → List Action → Prop
  | _, [] => True
  | orchestrator, action :: actions =>
      (match action with
        | .poll poll => condition (applyObservations orchestrator poll).state.sessions
        | .resolve _ | .archive _ => True) ∧
      Throughout condition (act orchestrator action) actions

theorem madeByPolls_act {orchestrator : Orchestrator} (made : MadeByPolls orchestrator.state)
    (action : Action) : MadeByPolls (act orchestrator action).state := by
  cases action with
  | poll poll =>
      have apart := made.apart
      rw [← sessionIds_applyObservations orchestrator poll] at apart
      exact (refreshed_applyObservations made poll).made apart
  | resolve id => exact made_changeEvent sameEvent_resolved made id
  | archive id => exact made_changeEvent sameEvent_archived made id

theorem madeByPolls_run {orchestrator : Orchestrator} (made : MadeByPolls orchestrator.state)
    (actions : List Action) : MadeByPolls (actions.foldl act orchestrator).state := by
  induction actions generalizing orchestrator with
  | nil => exact made
  | cons action actions induction => exact induction (madeByPolls_act made action)

theorem episodeOf_poll_of_holds {orchestrator : Orchestrator}
    (made : MadeByPolls orchestrator.state) {poll : Poll} {kind : InboxEventKind} {id : Uuid}
    (holds : Holds (applyObservations orchestrator poll).state.sessions kind id) :
    episodeOf (applyObservations orchestrator poll).state.inbox kind id =
      some ((episodeOf orchestrator.state.inbox kind id).getD
        ⟨poll.clock kind id, false, false⟩) := by
  have polled := refreshed_applyObservations made poll
  obtain ⟨event, member, rfl, own⟩ := polled.complete kind id holds
  obtain ⟨owner, _, ownerIs, _, _, episode⟩ := polled.standing event member
  obtain rfl : id = owner := Option.some.inj (own.symm.trans ownerIs)
  have reached : MadeByPolls (applyObservations orchestrator poll).state :=
    madeByPolls_act made (.poll poll)
  rw [Made.episodeOf_eq reached member rfl own, episode]

theorem episodeOf_poll_of_not_holds {orchestrator : Orchestrator}
    (made : MadeByPolls orchestrator.state) {poll : Poll} {kind : InboxEventKind} {id : Uuid}
    (ended : ¬ Holds (applyObservations orchestrator poll).state.sessions kind id) :
    episodeOf (applyObservations orchestrator poll).state.inbox kind id = none := by
  refine episodeOf_eq_none_iff.mpr fun event member isEvent => ended ?_
  obtain ⟨rfl, own⟩ := isOf_iff.mp isEvent
  obtain ⟨owner, _, ownerIs, _, holds, _⟩ :=
    (refreshed_applyObservations made poll).standing event member
  obtain rfl : id = owner := Option.some.inj (own.symm.trans ownerIs)
  exact holds

theorem episodeOf_resolve {orchestrator : Orchestrator} (made : MadeByPolls orchestrator.state)
    (eventId : Uuid) (kind : InboxEventKind) (id : Uuid) :
    episodeOf (act orchestrator (.resolve eventId)).state.inbox kind id =
      (episodeOf orchestrator.state.inbox kind id).map fun episode =>
        if deterministicEventId kind id = eventId then { episode with resolved := true }
        else episode :=
  episodeOf_changeEvent sameEvent_resolved made (fun _ => rfl) _ _ _

theorem episodeOf_archive {orchestrator : Orchestrator} (made : MadeByPolls orchestrator.state)
    (eventId : Uuid) (kind : InboxEventKind) (id : Uuid) :
    episodeOf (act orchestrator (.archive eventId)).state.inbox kind id =
      (episodeOf orchestrator.state.inbox kind id).map fun episode =>
        if deterministicEventId kind id = eventId then { episode with archived := true }
        else episode :=
  episodeOf_changeEvent sameEvent_archived made (fun _ => rfl) _ _ _

theorem episodeOf_run {kind : InboxEventKind} {id : Uuid} {orchestrator : Orchestrator}
    (made : MadeByPolls orchestrator.state) {actions : List Action}
    (throughout : Throughout (Holds · kind id) orchestrator actions) {episode : Episode}
    (present : episodeOf orchestrator.state.inbox kind id = some episode) :
    episodeOf (actions.foldl act orchestrator).state.inbox kind id = some
      { createdAt := episode.createdAt
        resolved := episode.resolved ||
          actions.any (·.resolves (deterministicEventId kind id))
        archived := episode.archived ||
          actions.any (·.archives (deterministicEventId kind id)) } := by
  induction actions generalizing orchestrator episode with
  | nil => simp [present]
  | cons action actions induction =>
      obtain ⟨first, rest⟩ := throughout
      have reached := madeByPolls_act made action
      rw [List.foldl_cons]
      cases action with
      | poll poll =>
          have polled := episodeOf_poll_of_holds made first
          rw [present] at polled
          rw [induction reached rest polled]
          simp [Action.resolves, Action.archives]
      | resolve eventId =>
          have resolved := episodeOf_resolve made eventId kind id
          rw [present, Option.map_some] at resolved
          rw [induction reached rest resolved]
          by_cases own : deterministicEventId kind id = eventId
          · simp [Action.resolves, Action.archives, own]
          · simp [Action.resolves, Action.archives, own, Ne.symm own]
      | archive eventId =>
          have archived := episodeOf_archive made eventId kind id
          rw [present, Option.map_some] at archived
          rw [induction reached rest archived]
          by_cases own : deterministicEventId kind id = eventId
          · simp [Action.resolves, Action.archives, own]
          · simp [Action.resolves, Action.archives, own, Ne.symm own]

theorem episodeOf_run_eq_none {kind : InboxEventKind} {id : Uuid} {orchestrator : Orchestrator}
    (made : MadeByPolls orchestrator.state) {actions : List Action}
    (throughout : Throughout (¬ Holds · kind id) orchestrator actions)
    (absent : episodeOf orchestrator.state.inbox kind id = none) :
    episodeOf (actions.foldl act orchestrator).state.inbox kind id = none := by
  induction actions generalizing orchestrator with
  | nil => exact absent
  | cons action actions induction =>
      obtain ⟨first, rest⟩ := throughout
      refine induction (madeByPolls_act made action) rest ?_
      cases action with
      | poll poll => exact episodeOf_poll_of_not_holds made first
      | resolve eventId =>
          rw [episodeOf_resolve made, absent]
          rfl
      | archive eventId =>
          rw [episodeOf_archive made, absent]
          rfl

/-- What holds of the inbox, whatever follows on a state. -/
structure EventsAreEpisodes (reached : Orchestrator) : Prop where
  none_other : ∀ poll, ∀ event ∈ (applyObservations reached poll).state.inbox,
    ∃ id, event.sessionId = some id ∧
      Holds (applyObservations reached poll).state.sessions event.kind id
  exactly_one : ∀ poll kind id,
    Holds (applyObservations reached poll).state.sessions kind id →
      (applyObservations reached poll).state.inbox.countP (isOf kind id) = 1
  /-- An event goes on with its condition. -/
  keeps : ∀ event ∈ reached.state.inbox, ∀ id, event.sessionId = some id →
    ∀ actions, Throughout (Holds · event.kind id) reached actions →
      ∃ later ∈ (actions.foldl act reached).state.inbox,
        later.kind = event.kind ∧ later.sessionId = some id ∧
        later.createdAt = event.createdAt ∧
        later.resolved = (event.resolved || actions.any (·.resolves event.id)) ∧
        later.archived = (event.archived || actions.any (·.archives event.id))
  /-- A condition that ended and returns starts anew. -/
  fresh : ∀ kind id ended actions returned,
    ¬ Holds (applyObservations reached ended).state.sessions kind id →
    Throughout (¬ Holds · kind id) (applyObservations reached ended) actions →
    Holds (applyObservations (actions.foldl act (applyObservations reached ended))
      returned).state.sessions kind id →
      ∃ event ∈ (applyObservations (actions.foldl act (applyObservations reached ended))
          returned).state.inbox,
        event.kind = kind ∧ event.sessionId = some id ∧
        event.createdAt = returned.clock kind id ∧
        event.resolved = false ∧ event.archived = false

theorem countP_isOf {ids : List Uuid} {inbox : List InboxEvent} (made : Made ids inbox)
    {event : InboxEvent} (member : event ∈ inbox) {id : Uuid}
    (own : event.sessionId = some id) : inbox.countP (isOf event.kind id) = 1 := by
  have same : ∀ other ∈ inbox, isOf event.kind id other = true ↔ (other == event) = true := by
    intro other otherMember
    rw [isOf_iff, beq_iff_eq]
    constructor
    · rintro ⟨sameKind, sameSession⟩
      exact made.unique otherMember member sameKind (sameSession.trans own.symm)
    · rintro rfl
      exact ⟨rfl, own⟩
  rw [List.countP_congr same]
  exact List.count_eq_one_of_mem (made.distinct.of_map _) member

/-- From a state with events as polls make them, the inbox holds the current episodes. -/
theorem events_are_episodes (orchestrator : Orchestrator)
    (made : MadeByPolls orchestrator.state) (actions : List Action) :
    EventsAreEpisodes (actions.foldl act orchestrator) := by
  have reached := madeByPolls_run made actions
  refine ⟨fun poll event member => ?_, fun poll kind id holds => ?_,
    fun event member id own later throughout => ?_,
    fun kind id ended later returned notHeld throughout holds => ?_⟩
  · obtain ⟨id, _, own, _, holds, _⟩ :=
      (refreshed_applyObservations reached poll).standing event member
    exact ⟨id, own, holds⟩
  · obtain ⟨event, member, rfl, own⟩ :=
      (refreshed_applyObservations reached poll).complete kind id holds
    exact countP_isOf (madeByPolls_act reached (.poll poll)) member own
  · have goesOn := episodeOf_run reached throughout (Made.episodeOf_eq reached member rfl own)
    obtain ⟨stays, stored, sameKind, sameSession, episode⟩ := exists_of_episodeOf goesOn
    obtain ⟨owner, ownerIs, named, _⟩ := reached.named event member
    obtain rfl : id = owner := Option.some.inj (own.symm.trans ownerIs)
    rw [← named] at episode
    obtain ⟨created, resolved, archived⟩ := Episode.mk.inj episode
    exact ⟨stays, stored, sameKind, sameSession, created, resolved, archived⟩
  · have after := madeByPolls_act reached (.poll ended)
    have absent := episodeOf_run_eq_none after throughout
      (episodeOf_poll_of_not_holds reached notHeld)
    have starts := episodeOf_poll_of_holds (madeByPolls_run after later) holds
    rw [absent] at starts
    obtain ⟨event, member, sameKind, own, episode⟩ := exists_of_episodeOf starts
    obtain ⟨created, resolved, archived⟩ := Episode.mk.inj episode
    exact ⟨event, member, sameKind, own, created, resolved, archived⟩

/-- Two sessions of a workspace share a file, and the inbox holds a resolved event about the
first of them. -/
def sharedFile (eventId : Uuid) : Orchestrator :=
  { state :=
      { tasks := []
        sessions :=
          [⟨⟨0x100⟩, none, ⟨7⟩, "Codex", none, .idle, none, ⟨["src/main.rs"], none, none⟩, false⟩,
            ⟨⟨0x200⟩, none, ⟨7⟩, "Claude", none, .idle, none, ⟨["src/main.rs"], none, none⟩, false⟩]
        inbox := [⟨eventId, some ⟨0x100⟩, none, .conflictRisk, "", "", 5, true, false⟩]
        dependencies := [] }
    hookStatus := ∅
    sessionHookClaims := ∅ }

def nothingObserved : Poll :=
  { now := 0
    ptyNowMs := 0
    git := []
    observations := []
    clock := fun _ _ => 9 }

theorem shared_file_events_are_episodes :
    EventsAreEpisodes ([.poll nothingObserved, .archive ⟨0x155⟩].foldl act
      (sharedFile ⟨0x155⟩)) :=
  events_are_episodes (sharedFile ⟨0x155⟩)
    { apart := List.pairwise_pair.mpr fun kind kind' => by
        cases kind <;> cases kind' <;> decide
      named := List.forall_mem_singleton.mpr ⟨⟨0x100⟩, rfl, rfl, by
        intro other member different kind kind'
        obtain rfl | rfl : other = ⟨0x100⟩ ∨ other = ⟨0x200⟩ := by
          simpa [sharedFile] using member
        · exact absurd rfl different
        · cases kind <;> cases kind' <;> decide⟩
      distinct := List.nodup_singleton _ } _

/-- An event with an identifier of its own stays beside the one that the poll makes. -/
theorem stray_event_stays_beside :
    ((sharedFile ⟨1⟩).state.sessions.map (·.sessionId)).Pairwise Apart ∧
      ¬ EventsAreEpisodes (sharedFile ⟨1⟩) := by
  constructor
  · refine List.pairwise_pair.mpr fun kind kind' => ?_
    cases kind <;> cases kind' <;> decide
  · intro follow
    have one := follow.exactly_one nothingObserved .conflictRisk ⟨0x100⟩
      ⟨_, List.mem_cons_self, _, List.mem_cons_of_mem _ List.mem_cons_self, rfl, by decide, rfl,
        "src/main.rs", List.mem_cons_self, List.mem_cons_self⟩
    simp only [applyObservations, refreshConflictInbox] at one
    rw [(List.mergeSort_perm _ _).countP_eq] at one
    revert one
    decide +kernel

end TerminalCanvas.Orchestration
