import TerminalCanvas.Foundation.Forest
import TerminalCanvas.Memory.StoreRuns

/-! # The forest of linked projects

Linked projects are the trees of a forest. Two projects are in one tree exactly when
the successful requests to link connect them. -/

namespace TerminalCanvas.Memory.Store

open Relation
open TerminalCanvas.Transaction TerminalCanvas.Execution TerminalCanvas.Forest

abbrev Identity := IdentityKind × String

def ProjectRow.identity (row : ProjectRow) : Identity := (row.identityKind, row.identityValue)

def identityAt (location : ResolvedLocation) : Identity :=
  (location.identityKind, location.identityValue)

theorem isAt_iff {row : ProjectRow} {location : ResolvedLocation} :
    row.IsAt location ↔ row.identity = identityAt location := by
  rw [ProjectRow.IsAt, ProjectRow.identity, identityAt, Prod.mk.injEq]

def linkOf (projects : Table String ProjectRow) (id : String) : Option String :=
  (projects.find id).bind (·.linkedProjectId)

def identityOf (projects : Table String ProjectRow) (id : String) : Option Identity :=
  (projects.find id).map ProjectRow.identity

/-- Two projects whose identities were requested to be linked. -/
def Requested (requests : List (Identity × Identity)) (projects : Table String ProjectRow)
    (left right : String) : Prop :=
  ∃ first second, identityOf projects left = some first ∧
    identityOf projects right = some second ∧ (first, second) ∈ requests

structure Charted (requests : List (Identity × Identity)) (projects : Table String ProjectRow) :
    Prop where
  named : ∀ id row, projects.find id = some row → id ≠ ""
  unique : ∀ id other identity, identityOf projects id = some identity →
    identityOf projects other = some identity → id = other
  linked : ∀ id next, linkOf projects id = some next → ∃ row, projects.find next = some row
  grounded : Grounded (linkOf projects)
  known : ∀ pair ∈ requests, (∃ id, identityOf projects id = some pair.1) ∧
    ∃ id, identityOf projects id = some pair.2
  classes : ∀ left right, SameRoot (linkOf projects) left right ↔
    EqvGen (Requested requests projects) left right

variable {requests : List (Identity × Identity)} {projects after : Table String ProjectRow}

theorem Charted.empty : Charted [] ∅ where
  named := by
    intro id row found
    simp at found
  unique := by
    intro id other identity found
    simp [identityOf] at found
  linked := by
    intro id next link
    simp [linkOf] at link
  grounded := fun id => ⟨id, rootOf_self (by simp [linkOf])⟩
  known := nofun
  classes := by
    intro left right
    have tops : ∀ id, linkOf ∅ id = none := by simp [linkOf]
    constructor
    · rintro ⟨root, first, second⟩
      rw [(rootOf_top (tops left)).mp first] at second
      rw [(rootOf_top (tops right)).mp second]
      exact .refl right
    · intro related
      induction related with
      | rel first second pair =>
          obtain ⟨_, _, found, _⟩ := pair
          simp [identityOf] at found
      | refl id => exact ⟨id, rootOf_self (tops id), rootOf_self (tops id)⟩
      | symm first second _ induction =>
          obtain ⟨root, one, other⟩ := induction
          exact ⟨root, other, one⟩
      | trans first middle second _ _ before behind =>
          obtain ⟨root, one, two⟩ := before
          obtain ⟨other, three, four⟩ := behind
          cases two.unique three
          exact ⟨root, one, four⟩

/-! ## The canonical project -/

section Canonical

variable (charted : Charted requests projects)

include charted

theorem followFrom_eq (fuel : Nat) (seen : List String) (current : String)
    (behind : ∀ earlier ∈ seen, TransGen (Links (linkOf projects)) earlier current) :
    followFrom projects fuel seen current = follow (linkOf projects) fuel current := by
  induction fuel generalizing seen current with
  | zero => rfl
  | succ fuel induction =>
      rw [followFrom, follow, if_neg fun again => charted.grounded.acyclic _ (behind _ again)]
      have linked : (projects.find current).bind (·.linkedProjectId) = linkOf projects current := rfl
      rw [linked]
      cases link : linkOf projects current with
      | none => rfl
      | some next =>
          obtain ⟨row, found⟩ := charted.linked current next link
          have named := charted.named next row found
          simp only [String.isEmpty_iff, named, if_false]
          apply induction
          intro earlier member
          rcases List.mem_cons.mp member with rfl | before
          · exact .single link
          · exact (behind earlier before).tail link

theorem canonical_rootOf {id : String} {project : ResolvedProject}
    (loaded : loadProject projects id = some project) :
    RootOf (linkOf projects) id project.canonicalId := by
  obtain ⟨row, found, rfl⟩ := Option.map_eq_some_iff.mp loaded
  simp only
  cases linked : row.linkedProjectId with
  | none =>
      have top : linkOf projects id = none := by
        rw [linkOf, found]
        exact linked
      rw [Option.getD_none, followLinks, followFrom, if_pos (List.mem_singleton_self id)]
      exact rootOf_self top
  | some next =>
      have link : linkOf projects id = some next := by
        rw [linkOf, found]
        exact linked
      rw [Option.getD_some, followLinks, rootOf_link link, followFrom_eq charted]
      · have listed : ∀ later, ReflTransGen (Links (linkOf projects)) next later →
            linkOf projects later ≠ none → later ∈ projects.keys := by
          intro later _ isLinked
          rw [Table.mem_keys_iff]
          by_contra absent
          push Not at absent
          apply isLinked
          rw [linkOf, Option.eq_none_iff_forall_ne_some.mpr absent]
          rfl
        exact rootOf_follow charted.grounded.acyclic (Nat.le_succ projects.keys.length) listed
      · intro earlier member
        rw [List.mem_singleton.mp member]
        exact .single link

end Canonical

/-! ## Projects that are seen -/

theorem ProjectSeen.linkOf {location : ResolvedLocation} {id : String}
    (seen : ProjectSeen location projects id after) : linkOf after = linkOf projects := by
  funext other
  cases seen with
  | again found _ =>
      rw [Store.linkOf, Store.linkOf, Table.find_put]
      split
      · next own => rw [own, found]; rfl
      · rfl
  | first _ absent _ =>
      rw [Store.linkOf, Store.linkOf, Table.find_put]
      split
      · next own => rw [own, absent]; rfl
      · rfl

theorem ProjectSeen.identityOf_self {location : ResolvedLocation} {id : String}
    (seen : ProjectSeen location projects id after) :
    identityOf after id = some (identityAt location) := by
  cases seen with
  | again found isAt =>
      rw [identityOf, Table.find_put_self]
      exact congrArg some (isAt_iff.mp isAt)
  | first _ _ _ =>
      rw [identityOf, Table.find_put_self]
      rfl

theorem ProjectSeen.identityOf_other {location : ResolvedLocation} {id : String}
    (seen : ProjectSeen location projects id after) (other : String) :
    identityOf after other = identityOf projects other ∨
      other = id ∧ identityOf projects id = none ∧
        ∀ known, identityOf projects known ≠ some (identityAt location) := by
  cases seen with
  | again found _ =>
      refine .inl ?_
      rw [identityOf, identityOf, Table.find_put]
      split
      · next own => rw [own, found]; rfl
      · rfl
  | first _ absent unknown =>
      by_cases own : other = id
      · refine .inr ⟨own, by rw [identityOf, absent]; rfl, ?_⟩
        intro known found
        obtain ⟨row, present, identity⟩ := Option.map_eq_some_iff.mp found
        exact unknown known row present (isAt_iff.mpr identity)
      · refine .inl ?_
        rw [identityOf, identityOf, Table.find_put_of_ne _ _ own]

theorem ProjectSeen.grows {location : ResolvedLocation} {id other : String} {identity : Identity}
    (seen : ProjectSeen location projects id after)
    (found : identityOf projects other = some identity) :
    identityOf after other = some identity := by
  rcases seen.identityOf_other other with same | ⟨rfl, absent, _⟩
  · rw [same, found]
  · rw [absent] at found
    cases found

theorem ProjectSeen.charted {location : ResolvedLocation} {id : String}
    (seen : ProjectSeen location projects id after) (charted : Charted requests projects) :
    Charted requests after where
  named := by
    cases seen with
    | again found _ =>
        intro other row present
        rw [Table.find_put] at present
        split at present
        · next own => exact own ▸ charted.named id _ found
        · exact charted.named other row present
    | first named _ _ =>
        intro other row present
        rw [Table.find_put] at present
        split at present
        · next own => exact own ▸ named
        · exact charted.named other row present
  unique := by
    intro first second identity one two
    have own := seen.identityOf_self
    rcases seen.identityOf_other first with same | ⟨rfl, _, unknown⟩
    · rcases seen.identityOf_other second with same' | ⟨rfl, _, unknown⟩
      · exact charted.unique first second identity (same ▸ one) (same' ▸ two)
      · rw [own] at two
        cases two
        exact absurd (same ▸ one) (unknown first)
    · rcases seen.identityOf_other second with same' | ⟨rfl, _, _⟩
      · rw [own] at one
        cases one
        exact absurd (same' ▸ two) (unknown second)
      · rfl
  linked := by
    intro other next link
    rw [seen.linkOf] at link
    obtain ⟨row, found⟩ := charted.linked other next link
    have known : identityOf projects next = some row.identity := by
      rw [identityOf, found]
      rfl
    obtain ⟨later, present, _⟩ := Option.map_eq_some_iff.mp (seen.grows known)
    exact ⟨later, present⟩
  grounded := by
    rw [seen.linkOf]
    exact charted.grounded
  known := by
    intro pair member
    obtain ⟨⟨first, one⟩, second, two⟩ := charted.known pair member
    exact ⟨⟨first, seen.grows one⟩, second, seen.grows two⟩
  classes := by
    have same : Requested requests after = Requested requests projects := by
      funext left right
      apply propext
      constructor
      · rintro ⟨first, second, one, two, member⟩
        obtain ⟨⟨left', found⟩, right', found'⟩ := charted.known _ member
        refine ⟨first, second, ?_, ?_, member⟩
        · rcases seen.identityOf_other left with same | ⟨rfl, _, unknown⟩
          · exact same ▸ one
          · rw [seen.identityOf_self] at one
            cases one
            exact absurd found (unknown left')
        · rcases seen.identityOf_other right with same | ⟨rfl, _, unknown⟩
          · exact same ▸ two
          · rw [seen.identityOf_self] at two
            cases two
            exact absurd found' (unknown right')
      · rintro ⟨first, second, one, two, member⟩
        exact ⟨first, second, seen.grows one, seen.grows two, member⟩
    rw [seen.linkOf, same]
    exact charted.classes

/-! ## Projects that are linked -/

theorem Charted.root_found (charted : Charted requests projects) {id root : String}
    (rootOf : RootOf (linkOf projects) id root) (found : ∃ row, projects.find id = some row) :
    ∃ row, projects.find root = some row := by
  rcases rootOf.1.cases_tail with rfl | ⟨before, _, link⟩
  · exact found
  · exact charted.linked before root link

section Links

variable {source target : String} {now : Int}

theorem identityOf_linkTo (id : String) :
    identityOf (projects.mapRows (linkTo source target now)) id = identityOf projects id := by
  rw [identityOf, identityOf, Table.find_mapRows, Option.map_map]
  congr 1
  funext row
  rw [Function.comp_apply, linkTo]
  split <;> rfl

theorem linkOf_linkTo (found : ∃ row, projects.find source = some row) :
    linkOf (projects.mapRows (linkTo source target now)) =
      unite (linkOf projects) source target := by
  funext id
  rw [linkOf, Table.find_mapRows]
  by_cases own : id = source
  · obtain ⟨row, found⟩ := found
    rw [own, found, unite_self]
    simp [linkTo]
  · rw [unite_of_ne own, linkOf]
    cases projects.find id with
    | none => rfl
    | some row => simp [linkTo, own]

theorem requested_cons (charted : Charted requests projects) {left right : String}
    {first second : Identity} (one : identityOf projects left = some first)
    (two : identityOf projects right = some second) :
    Requested ((first, second) :: requests) projects =
      Joined (Requested requests projects) left right := by
  funext id other
  apply propext
  constructor
  · rintro ⟨known, known', found, found', member⟩
    rcases List.mem_cons.mp member with equal | earlier
    · cases equal
      exact .inr ⟨charted.unique id left first found one,
        charted.unique other right second found' two⟩
    · exact .inl ⟨known, known', found, found', earlier⟩
  · rintro (⟨known, known', found, found', earlier⟩ | ⟨rfl, rfl⟩)
    · exact ⟨known, known', found, found', List.mem_cons_of_mem _ earlier⟩
    · exact ⟨first, second, one, two, List.mem_cons_self⟩

theorem identityOf_eq_some {id : String} {identity : Identity} :
    identityOf projects id = some identity ↔
      ∃ row, projects.find id = some row ∧ row.identity = identity :=
  Option.map_eq_some_iff

theorem requested_linkTo :
    Requested requests (projects.mapRows (linkTo source target now)) =
      Requested requests projects := by
  funext left right
  simp only [Requested, identityOf_linkTo]

theorem Charted.link (charted : Charted requests projects) {left right : String}
    {first second : Identity} (leftIs : identityOf projects left = some first)
    (rightIs : identityOf projects right = some second)
    (leftRoot : RootOf (linkOf projects) left target)
    (rightRoot : RootOf (linkOf projects) right source) (distinct : source ≠ target) :
    Charted ((first, second) :: requests) (projects.mapRows (linkTo source target now)) := by
  have sourceFound := charted.root_found rightRoot
    ((identityOf_eq_some.mp rightIs).imp fun _ found => found.1)
  have targetFound := charted.root_found leftRoot
    ((identityOf_eq_some.mp leftIs).imp fun _ found => found.1)
  have stays : ∀ {id : String}, (∃ row, projects.find id = some row) →
      ∃ row, (projects.mapRows (linkTo source target now)).find id = some row := by
    rintro id ⟨row, found⟩
    exact ⟨linkTo source target now id row, by rw [Table.find_mapRows, found]; rfl⟩
  refine ⟨?_, ?_, ?_, ?_, ?_, ?_⟩
  · intro id row found
    rw [Table.find_mapRows] at found
    obtain ⟨old, present, _⟩ := Option.map_eq_some_iff.mp found
    exact charted.named id old present
  · intro id other identity one two
    rw [identityOf_linkTo] at one two
    exact charted.unique id other identity one two
  · intro id next link
    rw [linkOf_linkTo sourceFound] at link
    by_cases own : id = source
    · rw [own, unite_self] at link
      cases link
      exact stays targetFound
    · rw [unite_of_ne own] at link
      exact stays (charted.linked id next link)
  · rw [linkOf_linkTo sourceFound]
    exact charted.grounded.unite rightRoot.2 leftRoot.2 distinct
  · intro pair member
    simp only [identityOf_linkTo]
    rcases List.mem_cons.mp member with rfl | earlier
    · exact ⟨⟨left, leftIs⟩, right, rightIs⟩
    · exact charted.known pair earlier
  · rw [linkOf_linkTo sourceFound, requested_linkTo, requested_cons charted leftIs rightIs]
    exact sameRoot_unite_iff charted.grounded charted.classes leftRoot rightRoot distinct

theorem Charted.linkedAlready (charted : Charted requests projects) {left right : String}
    {first second : Identity} (leftIs : identityOf projects left = some first)
    (rightIs : identityOf projects right = some second)
    (same : SameRoot (linkOf projects) left right) :
    Charted ((first, second) :: requests) projects where
  named := charted.named
  unique := charted.unique
  linked := charted.linked
  grounded := charted.grounded
  known := by
    intro pair member
    rcases List.mem_cons.mp member with rfl | earlier
    · exact ⟨⟨left, leftIs⟩, right, rightIs⟩
    · exact charted.known pair earlier
  classes := by
    intro one other
    rw [requested_cons charted leftIs rightIs,
      eqvGen_joined_iff ((charted.classes left right).mp same)]
    exact charted.classes one other

theorem Linked.charted {left right : ResolvedLocation} {before after : Tables}
    {project : ResolvedProject} (linked : Linked left right before after project)
    (charted : Charted requests before.projects) :
    Charted ((identityAt left, identityAt right) :: requests) after.projects := by
  obtain ⟨a, b, first, second, seenLeft, loadedLeft, seenRight, loadedRight, united, _⟩ :=
    linked.unites
  have chartedLeft := seenLeft.charted charted
  have chartedRight := seenRight.charted chartedLeft
  have leftIs := seenRight.grows seenLeft.identityOf_self
  have rightIs := seenRight.identityOf_self
  have leftRoot : RootOf (linkOf second) a.id a.canonicalId := by
    rw [seenRight.linkOf]
    exact canonical_rootOf chartedLeft loadedLeft
  have rightRoot := canonical_rootOf chartedRight loadedRight
  cases united with
  | already same unchanged =>
      rw [unchanged]
      exact chartedRight.linkedAlready leftIs rightIs ⟨a.canonicalId, leftRoot, same ▸ rightRoot⟩
  | absorbed distinct _ projects =>
      rw [projects]
      exact chartedRight.link leftIs rightIs leftRoot rightRoot distinct

end Links

end TerminalCanvas.Memory.Store
