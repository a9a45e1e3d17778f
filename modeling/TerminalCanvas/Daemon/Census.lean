import Mathlib.Data.Finset.Insert
import TerminalCanvas.Foundation.Execution
import TerminalCanvas.HookAuthority.Claim

/-! # The census of a daemon

What the registry is for, without terminals and sockets: every identity is born
once, is adopted, retires, is removed, and stays fenced for ever. -/

namespace TerminalCanvas.Daemon

open Execution HookAuthority

/-- What closing a session depends on. -/
structure Standing where
  /-- The client that created the session. -/
  birthClient : Option Uuid
  adopters : Finset Uuid
  retiring : Bool
  /-- The leaf a managed session belongs to, and its generation. -/
  target : Option HostHookTarget
  hookGeneration : Option Uuid

namespace Standing

def adopt (standing : Standing) (client : Uuid) : Standing :=
  { standing with adopters := insert client standing.adopters }

def retire (standing : Standing) : Standing := { standing with retiring := true }

end Standing

structure Census where
  standing : Uuid → Option Standing
  tombstone : Uuid → Option Uuid
  /-- Residents and tombstones together. -/
  identities : Nat
  /-- The open connections of each client, as counted. -/
  connected : Uuid → Option Nat

inductive CensusEvent where
  | born (id : Uuid) (standing : Standing)
  | adopted (id client : Uuid)
  | retired (id : Uuid)
  /-- The creator becomes the tombstone. -/
  | removed (id creator : Uuid)
  /-- An identity that was never born is fenced. -/
  | fenced (id client : Uuid)
  | counted (client : Uuid) (connections : Option Nat)

namespace Census

def empty : Census := ⟨fun _ => none, fun _ => none, 0, fun _ => none⟩

def setStanding (census : Census) (id : Uuid) (standing : Option Standing) : Census :=
  { census with standing := Function.update census.standing id standing }

def setTombstone (census : Census) (id creator : Uuid) : Census :=
  { census with tombstone := Function.update census.tombstone id (some creator) }

def apply (census : Census) : CensusEvent → Census
  | .born id standing =>
      { census.setStanding id (some standing) with identities := census.identities + 1 }
  | .adopted id client =>
      census.setStanding id ((census.standing id).map fun standing => standing.adopt client)
  | .retired id => census.setStanding id ((census.standing id).map Standing.retire)
  | .removed id creator => (census.setStanding id none).setTombstone id creator
  | .fenced id client =>
      { census.setTombstone id client with identities := census.identities + 1 }
  | .counted client connections =>
      { census with connected := Function.update census.connected client connections }

/-- Neither a resident nor fenced. -/
def Unborn (census : Census) (id : Uuid) : Prop :=
  census.standing id = none ∧ census.tombstone id = none

/-! ## Rules and invariant -/

section Rules

variable (capacity : Nat)

/-- What a registry of bounded capacity may do. -/
def Permits (census : Census) : CensusEvent → Prop
  | .born id standing =>
      census.Unborn id ∧ census.identities < capacity ∧
        standing.birthClient.isSome ∧ standing.adopters = ∅ ∧ standing.retiring = false
  | .adopted id _ =>
      ∃ standing, census.standing id = some standing ∧ standing.retiring = false
  | .retired id => (census.standing id).isSome
  | .removed id creator =>
      ∃ standing, census.standing id = some standing ∧ standing.retiring = true ∧
        standing.birthClient = some creator
  | .fenced id _ => census.Unborn id ∧ census.identities < capacity
  | .counted .. => True

/-- Residents are not fenced and have a creator; the capacity is kept. -/
structure Sound (census : Census) : Prop where
  disjoint : ∀ id, (census.standing id).isSome → census.tombstone id = none
  owned : ∀ id standing, census.standing id = some standing → standing.birthClient.isSome
  bounded : census.identities ≤ capacity

theorem empty_sound : Sound capacity empty where
  disjoint _ _ := rfl
  owned _ _ resident := by cases resident
  bounded := Nat.zero_le _

end Rules

variable {capacity : Nat} {census : Census} {event : CensusEvent}

theorem Sound.setStanding_map (sound : Sound capacity census) (id : Uuid)
    (change : Standing → Standing)
    (keeps : ∀ standing, (change standing).birthClient = standing.birthClient) :
    Sound capacity (census.setStanding id ((census.standing id).map change)) where
  disjoint := by
    intro other resident
    apply sound.disjoint
    by_cases same : other = id
    · simpa [setStanding, same] using resident
    · simpa [setStanding, same] using resident
  owned := by
    intro other found resident
    by_cases same : other = id
    · obtain ⟨standing, present, equal⟩ :
          ∃ standing, census.standing id = some standing ∧ change standing = found := by
        simpa [setStanding, same] using resident
      rw [← equal, keeps]
      exact sound.owned id standing present
    · apply sound.owned other
      simpa [setStanding, same] using resident
  bounded := sound.bounded

theorem Permits.sound (permitted : Permits capacity census event)
    (sound : Sound capacity census) : Sound capacity (census.apply event) := by
  cases event with
  | born id standing =>
      obtain ⟨⟨-, unfenced⟩, room, owned, -, -⟩ := permitted
      refine ⟨?_, ?_, room⟩
      · intro other resident
        by_cases same : other = id
        · rw [same]
          exact unfenced
        · apply sound.disjoint
          simpa [apply, setStanding, same] using resident
      · intro other found resident
        by_cases same : other = id
        · have equal : standing = found := by
            simpa [apply, setStanding, same] using resident
          exact equal ▸ owned
        · apply sound.owned other
          simpa [apply, setStanding, same] using resident
  | adopted id client => exact sound.setStanding_map id _ (fun _ => rfl)
  | retired id => exact sound.setStanding_map id _ (fun _ => rfl)
  | removed id creator =>
      refine ⟨?_, ?_, sound.bounded⟩
      · intro other resident
        by_cases same : other = id
        · simp [apply, setStanding, setTombstone, same] at resident
        · simp only [apply, setStanding, setTombstone, same, ne_eq, not_false_eq_true,
            Function.update_of_ne] at resident ⊢
          exact sound.disjoint other resident
      · intro other found resident
        by_cases same : other = id
        · simp [apply, setStanding, setTombstone, same] at resident
        · apply sound.owned other
          simpa [apply, setStanding, setTombstone, same] using resident
  | fenced id client =>
      obtain ⟨⟨vacant, -⟩, room⟩ := permitted
      refine ⟨?_, sound.owned, room⟩
      intro other resident
      have different : other ≠ id := by
        intro same
        simp [apply, setTombstone, same, vacant] at resident
      simp only [apply, setTombstone, ne_eq, different, not_false_eq_true,
        Function.update_of_ne]
      exact sound.disjoint other resident
  | counted client connections => exact ⟨sound.disjoint, sound.owned, sound.bounded⟩

/-! ## The abstract machine -/

def machine : Machine Census CensusEvent Unit where
  step census event := ⟨census.apply event, ()⟩

/-- A list of events that the rules admit one after the other. -/
abbrev Admits (capacity : Nat) : Census → List CensusEvent → Prop :=
  machine.Admits (Permits capacity)

variable {events : List CensusEvent}

theorem Admits.sound (admitted : Admits capacity census events)
    (sound : Sound capacity census) : Sound capacity (machine.run census events) :=
  Machine.Admits.invariant machine admitted (Sound capacity)
    (fun _ _ permitted holds => permitted.sound holds) sound

theorem Permits.tombstone_kept (permitted : Permits capacity census event)
    (sound : Sound capacity census) {id creator : Uuid}
    (fenced : census.tombstone id = some creator) :
    (census.apply event).tombstone id = some creator := by
  cases event with
  | born other standing => exact fenced
  | adopted other client => exact fenced
  | retired other => exact fenced
  | removed other heir =>
      obtain ⟨standing, resident, -, -⟩ := permitted
      have different : id ≠ other := by
        intro same
        rw [same, sound.disjoint other (by simp [resident])] at fenced
        cases fenced
      simpa [apply, setStanding, setTombstone, different] using fenced
  | fenced other client =>
      have different : id ≠ other := by
        intro same
        rw [same, permitted.1.2] at fenced
        cases fenced
      simpa [apply, setTombstone, different] using fenced
  | counted client connections => exact fenced

theorem Admits.tombstone_kept (admitted : Admits capacity census events)
    (sound : Sound capacity census) {id creator : Uuid}
    (fenced : census.tombstone id = some creator) :
    (machine.run census events).tombstone id = some creator :=
  (Machine.Admits.invariant machine admitted
    (fun census => Sound capacity census ∧ census.tombstone id = some creator)
    (fun _ _ permitted holds =>
      ⟨permitted.sound holds.1, permitted.tombstone_kept holds.1 holds.2⟩)
    ⟨sound, fenced⟩).2

/-! ## Moves -/

/-- One census becomes another by permitted events of a kind. -/
def Moves (capacity : Nat) (Kind : CensusEvent → Prop) (census next : Census) : Prop :=
  ∃ events, Admits capacity census events ∧ machine.run census events = next ∧
    ∀ event ∈ events, Kind event

namespace Moves

variable {Kind Wider : CensusEvent → Prop} {next later : Census}

theorem refl : Moves capacity Kind census census :=
  ⟨[], machine.admits_nil census, rfl, by simp⟩

theorem of_eq (equal : next = census) : Moves capacity Kind census next := by
  rw [equal]
  exact refl

theorem single (permitted : Permits capacity census event) (kind : Kind event) :
    Moves capacity Kind census (census.apply event) :=
  ⟨[event], machine.admits_cons.mpr ⟨permitted, machine.admits_nil _⟩, rfl, by simpa using kind⟩

theorem trans (first : Moves capacity Kind census next) (second : Moves capacity Kind next later) :
    Moves capacity Kind census later := by
  obtain ⟨events, admitted, reached, kinds⟩ := first
  obtain ⟨more, admittedMore, reachedLater, kindsMore⟩ := second
  refine ⟨events ++ more, ?_, ?_, ?_⟩
  · exact machine.admits_append.mpr ⟨admitted, reached ▸ admittedMore⟩
  · rw [Machine.run_append, reached, reachedLater]
  · intro event member
    rcases List.mem_append.mp member with member | member
    · exact kinds event member
    · exact kindsMore event member

theorem mono (moves : Moves capacity Kind census next) (wider : ∀ event, Kind event → Wider event) :
    Moves capacity Wider census next := by
  obtain ⟨events, admitted, reached, kinds⟩ := moves
  exact ⟨events, admitted, reached, fun event member => wider event (kinds event member)⟩

theorem sound (moves : Moves capacity Kind census next) (sound : Sound capacity census) :
    Sound capacity next := by
  obtain ⟨events, admitted, reached, -⟩ := moves
  exact reached ▸ admitted.sound sound

theorem tombstone_kept (moves : Moves capacity Kind census next) (sound : Sound capacity census)
    {id creator : Uuid} (fenced : census.tombstone id = some creator) :
    next.tombstone id = some creator := by
  obtain ⟨events, admitted, reached, -⟩ := moves
  exact reached ▸ admitted.tombstone_kept sound fenced

/-- What no event of a kind does, no move of that kind does: the step at which a
property is acquired names its event. -/
theorem acquired (moves : Moves capacity Kind census next) (Property : Census → Prop)
    (absent : ¬ Property census) (present : Property next) :
    ∃ between event, Permits capacity between event ∧ ¬ Property between ∧
      Property (between.apply event) ∧ Kind event := by
  obtain ⟨events, admitted, reached, kinds⟩ := moves
  rw [← reached] at present
  obtain ⟨between, event, member, before, behind⟩ :=
    machine.run_origin Property absent present
  obtain ⟨first, second, split, -⟩ := machine.mem_trace_iff.mp member
  exact ⟨between, event, admitted between event member, before, behind,
    kinds event (by simp [split])⟩

theorem adopted (moves : Moves capacity Kind census next) {id client : Uuid}
    (before : ∀ standing, census.standing id = some standing → client ∉ standing.adopters)
    (behind : ∃ standing, next.standing id = some standing ∧ client ∈ standing.adopters) :
    Kind (.adopted id client) := by
  obtain ⟨between, event, permitted, stranger, ⟨standing, resident, member⟩, kind⟩ :=
    moves.acquired (fun census =>
      ∃ standing, census.standing id = some standing ∧ client ∈ standing.adopters)
      (fun ⟨standing, resident, member⟩ => before standing resident member) behind
  have unchanged : between.standing id ≠ some standing :=
    fun same => stranger ⟨standing, same, member⟩
  cases event with
  | born other newborn =>
      by_cases same : id = other
      · have equal : newborn = standing := by
          simpa [apply, setStanding, same] using resident
        rw [← equal, permitted.2.2.2.1] at member
        simp at member
      · exact absurd (by simpa [apply, setStanding, same] using resident) unchanged
  | adopted other adopter =>
      by_cases same : id = other
      · obtain ⟨old, present, equal⟩ : ∃ old, between.standing other = some old ∧
            old.adopt adopter = standing := by
          simpa [apply, setStanding, same] using resident
        rw [← equal, Standing.adopt, Finset.mem_insert] at member
        rcases member with rfl | member
        · rw [same]
          exact kind
        · exact absurd ⟨old, same ▸ present, member⟩ stranger
      · exact absurd (by simpa [apply, setStanding, same] using resident) unchanged
  | retired other =>
      by_cases same : id = other
      · obtain ⟨old, present, equal⟩ : ∃ old, between.standing other = some old ∧
            old.retire = standing := by
          simpa [apply, setStanding, same] using resident
        rw [← equal] at member
        exact absurd ⟨old, same ▸ present, member⟩ stranger
      · exact absurd (by simpa [apply, setStanding, same] using resident) unchanged
  | removed other creator =>
      by_cases same : id = other
      · simp [apply, setStanding, setTombstone, same] at resident
      · exact absurd (by simpa [apply, setStanding, setTombstone, same] using resident) unchanged
  | fenced other creator => exact absurd resident unchanged
  | counted other connections => exact absurd resident unchanged

theorem retired (moves : Moves capacity Kind census next) {id : Uuid} {standing : Standing}
    (resident : census.standing id = some standing) (lasting : standing.retiring = false)
    (ended : ∀ later, next.standing id = some later → later.retiring = true) :
    Kind (.retired id) := by
  obtain ⟨between, event, permitted, lasts, ends, kind⟩ :=
    moves.acquired (fun census =>
      ∀ later, census.standing id = some later → later.retiring = true)
      (fun every => by simp [every standing resident] at lasting) ended
  obtain ⟨old, present, unretired⟩ :
      ∃ old, between.standing id = some old ∧ old.retiring = false := by
    simpa using lasts
  have kept : (between.apply event).standing id ≠ some old := by
    intro same
    rw [ends old same] at unretired
    cases unretired
  cases event with
  | born other newborn =>
      by_cases same : id = other
      · rw [same, permitted.1.1] at present
        cases present
      · exact absurd (by simpa [apply, setStanding, same] using present) kept
  | adopted other adopter =>
      by_cases same : id = other
      · rw [same] at present
        have adopted : (between.apply (.adopted other adopter)).standing id =
            some (old.adopt adopter) := by simp [apply, setStanding, same, present]
        have retiring := ends (old.adopt adopter) adopted
        rw [Standing.adopt, unretired] at retiring
        cases retiring
      · exact absurd (by simpa [apply, setStanding, same] using present) kept
  | retired other =>
      by_cases same : id = other
      · rw [same]
        exact kind
      · exact absurd (by simpa [apply, setStanding, same] using present) kept
  | removed other creator =>
      by_cases same : id = other
      · obtain ⟨found, again, retiring, -⟩ := permitted
        rw [← same, present] at again
        rw [← Option.some.inj again, unretired] at retiring
        cases retiring
      · exact absurd (by simpa [apply, setStanding, setTombstone, same] using present) kept
  | fenced other creator => exact absurd present kept
  | counted other connections => exact absurd present kept

theorem removed (moves : Moves capacity Kind census next) {id : Uuid}
    (resident : census.standing id ≠ none) (vacant : next.standing id = none) :
    ∃ creator, Kind (.removed id creator) := by
  obtain ⟨between, event, -, present, absent, kind⟩ :=
    moves.acquired (fun census => census.standing id = none) resident vacant
  cases event with
  | born other newborn =>
      by_cases same : id = other
      · simp [apply, setStanding, same] at absent
      · exact absurd (by simpa [apply, setStanding, same] using absent) present
  | adopted other adopter =>
      by_cases same : id = other
      · exact absurd (by simpa [apply, setStanding, same] using absent) (same ▸ present)
      · exact absurd (by simpa [apply, setStanding, same] using absent) present
  | retired other =>
      by_cases same : id = other
      · exact absurd (by simpa [apply, setStanding, same] using absent) (same ▸ present)
      · exact absurd (by simpa [apply, setStanding, same] using absent) present
  | removed other creator =>
      by_cases same : id = other
      · rw [same]
        exact ⟨creator, kind⟩
      · exact absurd (by simpa [apply, setStanding, setTombstone, same] using absent) present
  | fenced other creator => exact absurd absent present
  | counted other connections => exact absurd absent present

theorem connected_kept (moves : Moves capacity Kind census next)
    (uncounted : ∀ client connections, ¬ Kind (.counted client connections)) :
    next.connected = census.connected := by
  by_contra changed
  obtain ⟨between, event, -, same, differs, kind⟩ :=
    moves.acquired (fun later => later.connected ≠ census.connected) (by simp) changed
  cases event with
  | counted client connections => exact uncounted client connections kind
  | born other newborn => exact same differs
  | adopted other adopter => exact same differs
  | retired other => exact same differs
  | removed other creator => exact same differs
  | fenced other creator => exact same differs

end Moves

end Census

end TerminalCanvas.Daemon
