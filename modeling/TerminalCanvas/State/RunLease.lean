import TerminalCanvas.State.LayoutSessions
import TerminalCanvas.State.DurableWrite
import TerminalCanvas.State.RunMarker

/-! # One writer at a time

Whoever writes under the guard owns the marker, and nobody owns it again once a later
claim is complete. -/

namespace TerminalCanvas.RunMarker

/-! ## The words of a marker -/

theorem mem_display {id : Uuid} {character : Char} (member : character ∈ id.display.toList) :
    character = '-' ∨ ∃ digit < 16, character = Nat.digitChar digit := by
  have digits : ∀ width value, character ∈ Uuid.hexDigits width value →
      ∃ digit < 16, character = Nat.digitChar digit := by
    intro width
    induction width with
    | zero => exact fun value member => nomatch member
    | succ width induction =>
        intro value member
        rw [Uuid.hexDigits, List.mem_append, List.mem_singleton] at member
        rcases member with member | rfl
        · exact induction _ member
        · exact ⟨value % 16, Nat.mod_lt _ (by decide), rfl⟩
  rw [Uuid.display, String.toList_ofList] at member
  simp only [List.mem_append, List.mem_singleton] at member
  rcases member with ((((((((part | hyphen) | part) | hyphen) | part) | hyphen) | part) |
    hyphen) | part)
  · exact .inr (digits _ _ (List.mem_of_mem_take part))
  · exact .inl hyphen
  · exact .inr (digits _ _ (List.mem_of_mem_drop (List.mem_of_mem_take part)))
  · exact .inl hyphen
  · exact .inr (digits _ _ (List.mem_of_mem_drop (List.mem_of_mem_take part)))
  · exact .inl hyphen
  · exact .inr (digits _ _ (List.mem_of_mem_drop (List.mem_of_mem_take part)))
  · exact .inl hyphen
  · exact .inr (digits _ _ (List.mem_of_mem_drop part))

theorem display_no_whiteSpace {id : Uuid} :
    ∀ character ∈ id.display.toList, isWhiteSpace character = false := by
  have digits : ∀ digit < 16, isWhiteSpace (Nat.digitChar digit) = false := by decide
  intro character member
  rcases mem_display member with rfl | ⟨digit, bound, rfl⟩
  · rfl
  · exact digits digit bound

theorem display_ne_nil {id : Uuid} : id.display.toList ≠ [] := by
  intro empty
  have length := Layout.length_display id
  rw [← String.length_toList, empty] at length
  cases length

theorem pid_no_whiteSpace {pid : Nat} :
    ∀ character ∈ (toString pid).toList, isWhiteSpace character = false := by
  intro character member
  have isDigit := Nat.isDigit_of_mem_toDigits (by decide) (by decide)
    (Nat.toList_repr (n := pid) ▸ member)
  simp only [Char.isDigit, Bool.and_eq_true, decide_eq_true_eq] at isDigit
  have lower : 48 ≤ character.toNat := UInt32.le_iff_toNat_le.mp isDigit.1
  have upper : character.toNat ≤ 57 := UInt32.le_iff_toNat_le.mp isDigit.2
  simp only [isWhiteSpace, Bool.or_eq_false_iff, Bool.and_eq_false_iff, decide_eq_false_iff_not]
  omega

theorem toList_markerText (pid : Nat) (token : Uuid) (timestamp : String) :
    (markerText pid token timestamp).toList = (toString pid).toList ++ ' ' ::
      (token.display.toList ++ ' ' :: (timestamp.toList ++ ['\n'])) := by
  simp [markerText, String.toList_append]

theorem token_of_part {pid : Nat} {token other : Uuid} {timestamp : String} {written : Nat}
    (named : markerHasToken other (.text (String.ofList
      ((markerText pid token timestamp).toList.take written))) = true) : other = token := by
  have second := of_decide_eq_true named
  rw [splitWhitespace, String.toList_ofList, toList_markerText, List.getElem?_map,
    Option.map_eq_some_iff] at second
  obtain ⟨word, at', is⟩ := second
  obtain ⟨kept, wordIs⟩ := second_words_take pid_no_whiteSpace display_no_whiteSpace rfl
    (fun empty => Nat.toDigits_ne_nil (Nat.toList_repr (n := pid) ▸ empty)) display_ne_nil at'
  have length := congrArg String.length is
  rw [String.length_ofList, Layout.length_display, wordIs, List.length_take,
    String.length_toList, Layout.length_display] at length
  have whole : word = token.display.toList := by
    rw [wordIs, List.take_of_length_le]
    rw [String.length_toList, Layout.length_display]
    omega
  rw [whole, String.ofList_toList] at is
  exact (Uuid.display_injective is).symm

theorem markerHasToken_markerText (pid : Nat) (token : Uuid) (timestamp : String) :
    markerHasToken token (.text (markerText pid token timestamp)) = true := by
  rw [markerHasToken, decide_eq_true_eq, splitWhitespace, toList_markerText,
    words_append_cons pid_no_whiteSpace rfl
      (fun empty => Nat.toDigits_ne_nil (Nat.toList_repr (n := pid) ▸ empty)),
    words_append_cons display_no_whiteSpace rfl display_ne_nil]
  simp

/-! ## What has happened -/

/-- The claim of the instance was over when a later one was completed. -/
def Superseded (history : List Entry) (token : Uuid) : Prop :=
  ∃ before owner seen replaced dirty after,
    history = before ++ .claimed owner seen replaced dirty :: after ∧ token ∈ endedClaims before

section Histories

variable {history : List Entry} {entry : Entry} {token : Uuid}

theorem endedClaims_append (first second : List Entry) :
    endedClaims (first ++ second) = endedClaims first ++ endedClaims second :=
  List.filterMap_append

theorem superseded_append (superseded : Superseded (history ++ [entry]) token) :
    Superseded history token ∨ token ∈ endedClaims history ∧
      ∃ owner seen replaced dirty, entry = .claimed owner seen replaced dirty := by
  obtain ⟨before, owner, seen, replaced, dirty, after, split, ended⟩ := superseded
  rcases List.eq_nil_or_concat after with rfl | ⟨front, last, rfl⟩
  · obtain ⟨rfl, same⟩ := List.append_inj' split rfl
    exact .inr ⟨ended, owner, seen, replaced, dirty, (List.cons.inj same).1⟩
  · rw [List.concat_eq_append, ← List.cons_append, ← List.append_assoc] at split
    obtain ⟨rfl, -⟩ := List.append_inj' split rfl
    exact .inl ⟨before, owner, seen, replaced, dirty, front, rfl, ended⟩

theorem Superseded.ended (superseded : Superseded history token) :
    token ∈ endedClaims history := by
  obtain ⟨before, owner, seen, replaced, dirty, after, rfl, ended⟩ := superseded
  rw [endedClaims_append]
  exact List.mem_append_left _ ended

end Histories

/-! ## The invariant -/

def Relies (dir : RunDir) (token : Uuid) : Work → Prop
  | .readMarker _ _ => token ∈ dir.begun ∧ token ∉ endedClaims dir.history
  | .truncateMarker _ _ seen =>
      token ∈ dir.begun ∧ token ∉ endedClaims dir.history ∧
        seen.found = if seen.read then dir.marker.contents else none
  | .writeMarker _ _ seen replaced _ =>
      token ∈ dir.begun ∧ token ∉ endedClaims dir.history ∧
        seen.found = if seen.read then replaced.contents else none
  | .checkWrite | .checkEnd => token ∈ endedClaims dir.history
  | .write | .recheckEnd | .removeMarker =>
      token ∈ endedClaims dir.history ∧ markerHasToken token dir.marker = true

/-- Where the marker comes from: from before the run, from a claim, or it was removed. -/
def Authored (initial : Marker) (dir : RunDir) : Prop :=
  dir.author = none ∧ (dir.marker = initial ∨ dir.marker = .absent) ∨
    ∃ token pid timestamp written, dir.author = some token ∧ token ∈ dir.begun ∧
      dir.marker = .text (String.ofList ((markerText pid token timestamp).toList.take written))

/-- A claim reports on the marker it replaced, and what it reports is what the marker
says. -/
def Reports (seen : Seen) (replaced : Marker) (dirty : Option DirtyRun) : Prop :=
  seen.found = (if seen.read then replaced.contents else none) ∧
    dirty = dirtyRun seen.answers seen.found

structure Lease (initial : Marker) (dir : RunDir) : Prop where
  authored : Authored initial dir
  fresh : ∀ token ∈ dir.begun, markerHasToken token initial = false
  begun : ∀ token ∈ endedClaims dir.history, token ∈ dir.begun
  relies : ∀ token work, dir.holder = some (token, work) → Relies dir token work
  superseded : ∀ token, Superseded dir.history token → dir.author ≠ some token
  wrote : ∀ before token marker after, dir.history = before ++ .wrote token marker :: after →
    markerHasToken token marker = true ∧ ¬ Superseded before token
  removed : ∀ token author, .removed token author ∈ dir.history → author = some token
  claimed : ∀ token seen replaced dirty, .claimed token seen replaced dirty ∈ dir.history →
    Reports seen replaced dirty

section Steps

variable {initial : Marker} {dir : RunDir} {token : Uuid}

theorem Lease.author_of_hasToken (lease : Lease initial dir) (begun : token ∈ dir.begun)
    (named : markerHasToken token dir.marker = true) : dir.author = some token := by
  rcases lease.authored with ⟨-, before | removed⟩ | ⟨owner, pid, timestamp, written, is, -, text⟩
  · rw [before, lease.fresh token begun] at named
    cases named
  · rw [removed] at named
    cases named
  · rw [text] at named
    rw [is, token_of_part named]

theorem Lease.enter {work : Work} (lease : Lease initial dir) (relies : Relies dir token work) :
    Lease initial (dir.enter token work) where
  authored := lease.authored
  fresh := lease.fresh
  begun := lease.begun
  relies := by
    intro other otherWork same
    cases same
    cases work <;> exact relies
  superseded := lease.superseded
  wrote := lease.wrote
  removed := lease.removed
  claimed := lease.claimed

theorem Lease.release (lease : Lease initial dir) : Lease initial dir.release where
  authored := lease.authored
  fresh := lease.fresh
  begun := lease.begun
  relies := nofun
  superseded := lease.superseded
  wrote := lease.wrote
  removed := lease.removed
  claimed := lease.claimed

theorem split_append_singleton {α : Type} {items before after : List α} {last item : α}
    (split : items ++ [last] = before ++ item :: after) :
    (before = items ∧ item = last) ∨ ∃ front, items = before ++ item :: front := by
  rcases List.eq_nil_or_concat after with rfl | ⟨front, other, rfl⟩
  · obtain ⟨rfl, same⟩ := List.append_inj' split rfl
    exact .inl ⟨rfl, (List.cons.inj same).1.symm⟩
  · rw [List.concat_eq_append, ← List.cons_append, ← List.append_assoc] at split
    obtain ⟨rfl, -⟩ := List.append_inj' split rfl
    exact .inr ⟨front, rfl⟩

theorem Lease.note {entry : Entry} (lease : Lease initial dir)
    (begun : ∀ token ∈ endedClaims [entry], token ∈ dir.begun)
    (superseded : ∀ token, Superseded (dir.history ++ [entry]) token →
      ¬ Superseded dir.history token → dir.author ≠ some token)
    (wrote : ∀ token marker, entry = .wrote token marker →
      markerHasToken token marker = true ∧ ¬ Superseded dir.history token)
    (removed : ∀ token author, entry = .removed token author → author = some token)
    (claimed : ∀ token seen replaced dirty, entry = .claimed token seen replaced dirty →
      Reports seen replaced dirty) : Lease initial (dir.note entry).release where
  authored := lease.authored
  fresh := lease.fresh
  begun := by
    intro token member
    rw [RunDir.release, RunDir.note, endedClaims_append, List.mem_append] at member
    exact member.elim (lease.begun token) (begun token)
  relies := nofun
  superseded := by
    intro token later
    by_cases earlier : Superseded dir.history token
    · exact lease.superseded token earlier
    · exact superseded token later earlier
  wrote := by
    intro before token marker after split
    rcases split_append_singleton split with ⟨rfl, same⟩ | ⟨front, inside⟩
    · exact wrote token marker same.symm
    · exact lease.wrote before token marker front inside
  removed := by
    intro token author member
    rcases List.mem_append.mp member with earlier | last
    · exact lease.removed token author earlier
    · exact removed token author (List.mem_singleton.mp last).symm
  claimed := by
    intro token seen replaced dirty member
    rcases List.mem_append.mp member with earlier | last
    · exact lease.claimed token seen replaced dirty earlier
    · exact claimed token seen replaced dirty (List.mem_singleton.mp last).symm

theorem superseded_of_note {entry : Entry} {token : Uuid}
    (later : Superseded (dir.history ++ [entry]) token)
    (other : ∀ owner seen replaced dirty, entry ≠ .claimed owner seen replaced dirty) :
    Superseded dir.history token := by
  rcases superseded_append later with earlier | ⟨-, owner, seen, replaced, dirty, same⟩
  · exact earlier
  · exact absurd same (other owner seen replaced dirty)

theorem Lease.claimFailed (lease : Lease initial dir) (begun : token ∈ dir.begun) :
    Lease initial (dir.note (.claimFailed token)).release := by
  apply lease.note
  · intro other member
    rw [List.mem_singleton.mp member]
    exact begun
  · intro other later earlier
    exact absurd (superseded_of_note later fun _ _ _ _ same => nomatch same) earlier
  · exact fun _ _ same => nomatch same
  · exact fun _ _ same => nomatch same
  · exact fun _ _ _ _ same => nomatch same

theorem Lease.setMarker (lease : Lease initial dir) (begun : token ∈ dir.begun)
    (running : token ∉ endedClaims dir.history) (pid written : Nat) (timestamp : String) :
    Lease initial (dir.setMarker token
      (String.ofList ((markerText pid token timestamp).toList.take written))).release where
  authored := .inr ⟨token, pid, timestamp, written, rfl, begun, rfl⟩
  fresh := lease.fresh
  begun := lease.begun
  relies := nofun
  superseded := by
    intro other superseded same
    cases same
    exact running superseded.ended
  wrote := lease.wrote
  removed := lease.removed
  claimed := lease.claimed

theorem Lease.setMarker_empty (lease : Lease initial dir) (begun : token ∈ dir.begun)
    (running : token ∉ endedClaims dir.history) :
    Lease initial (dir.setMarker token "").release :=
  lease.setMarker begun running 0 0 ""

theorem Lease.completed {seen : Seen} {replaced : Marker} (lease : Lease initial dir)
    (begun : token ∈ dir.begun) (running : token ∉ endedClaims dir.history)
    (author : dir.author = some token)
    (found : seen.found = if seen.read then replaced.contents else none) :
    Lease initial
      (dir.note (.claimed token seen replaced (dirtyRun seen.answers seen.found))).release := by
  apply lease.note
  · intro other member
    rw [List.mem_singleton.mp member]
    exact begun
  · intro other later earlier same
    rcases superseded_append later with before | ⟨ended, -⟩
    · exact earlier before
    · rw [author] at same
      cases same
      exact running ended
  · exact fun _ _ same => nomatch same
  · exact fun _ _ same => nomatch same
  · intro other otherSeen otherReplaced dirty same
    cases same
    exact ⟨found, rfl⟩

theorem Lease.write (lease : Lease initial dir) (ended : token ∈ endedClaims dir.history)
    (named : markerHasToken token dir.marker = true) :
    Lease initial (dir.note (.wrote token dir.marker)).release := by
  apply lease.note
  · exact fun other member => nomatch member
  · intro other later earlier
    exact absurd (superseded_of_note later fun _ _ _ _ same => nomatch same) earlier
  · intro other marker same
    cases same
    refine ⟨named, ?_⟩
    intro superseded
    exact lease.superseded token superseded
      (lease.author_of_hasToken (lease.begun token ended) named)
  · exact fun _ _ same => nomatch same
  · exact fun _ _ _ _ same => nomatch same

theorem Lease.remove (lease : Lease initial dir) (ended : token ∈ endedClaims dir.history)
    (named : markerHasToken token dir.marker = true) :
    Lease initial (({ dir with marker := .absent, author := none } : RunDir).note
      (.removed token dir.author)).release := by
  have author := lease.author_of_hasToken (lease.begun token ended) named
  have gone : Lease initial ({ dir with marker := .absent, author := none } : RunDir).release :=
    { authored := .inl ⟨rfl, .inr rfl⟩
      fresh := lease.fresh
      begun := lease.begun
      relies := nofun
      superseded := fun other superseded same => nomatch same
      wrote := lease.wrote
      removed := lease.removed
      claimed := lease.claimed }
  apply gone.note
  · exact fun other member => nomatch member
  · intro other later earlier same
    cases same
  · exact fun _ _ same => nomatch same
  · intro other otherAuthor same
    cases same
    exact author
  · exact fun _ _ _ _ same => nomatch same

theorem Lease.of_release (lease : Lease initial dir.release)
    (relies : ∀ token work, dir.holder = some (token, work) → Relies dir token work) :
    Lease initial dir :=
  ⟨lease.authored, lease.fresh, lease.begun, relies, lease.superseded, lease.wrote,
    lease.removed, lease.claimed⟩

theorem proceed_lease {work : Work} {answer : Answer} (lease : Lease initial dir)
    (holder : dir.holder = some (token, work)) :
    Lease initial (proceed dir token answer work) := by
  have relies := lease.relies token work holder
  cases work with
  | readMarker pid timestamp =>
      obtain ⟨begun, running⟩ := relies
      exact lease.enter ⟨begun, running, rfl⟩
  | truncateMarker pid timestamp seen =>
      obtain ⟨begun, running, found⟩ := relies
      rw [proceed]
      split
      · exact (lease.setMarker_empty begun running).enter ⟨begun, running, found⟩
      · exact lease.claimFailed begun
  | writeMarker pid timestamp seen replaced written =>
      obtain ⟨begun, running, found⟩ := relies
      rw [proceed]
      dsimp only
      split
      · have part := lease.setMarker begun running pid (written + answer.count) timestamp
        split
        · exact part.completed begun running rfl found
        · exact part.enter ⟨begun, running, found⟩
      · exact lease.claimFailed begun
  | checkWrite =>
      rw [proceed]
      split
      · next named => exact lease.enter ⟨relies, named.2⟩
      · exact lease.release
  | write =>
      obtain ⟨ended, named⟩ := relies
      rw [proceed]
      split
      · apply (lease.write ended named).of_release
        intro other work same
        cases holder.symm.trans same
        refine ⟨?_, named⟩
        rw [RunDir.note, endedClaims_append]
        exact List.mem_append_left _ ended
      · exact lease.release
  | checkEnd =>
      rw [proceed]
      split
      · next named => exact lease.enter ⟨relies, named.2⟩
      · exact lease.release
  | recheckEnd =>
      rw [proceed]
      split
      · next named => exact lease.enter ⟨relies.1, named.2⟩
      · exact lease.release
  | removeMarker =>
      obtain ⟨ended, named⟩ := relies
      rw [proceed]
      split
      · exact lease.remove ended named
      · exact lease.release

def Event.claimant : Event → Option Uuid
  | .claim token _ _ | .claimTimesOut token => some token
  | .acquireWriteGuard _ | .endRunClean _ | .proceed _ | .crash _ => none

theorem Lease.begin (lease : Lease initial dir) (unclaimed : markerHasToken token initial = false)
    (new : token ∉ dir.begun) :
    Lease initial ({ dir with begun := token :: dir.begun } : RunDir).release ∧
      token ∉ endedClaims dir.history := by
  refine ⟨?_, fun ended => new (lease.begun token ended)⟩
  exact
    { authored := by
        rcases lease.authored with nobody | ⟨owner, pid, timestamp, written, is, begun, text⟩
        · exact .inl nobody
        · exact .inr ⟨owner, pid, timestamp, written, is, List.mem_cons_of_mem _ begun, text⟩
      fresh := by
        intro other member
        rcases List.mem_cons.mp member with rfl | member
        · exact unclaimed
        · exact lease.fresh other member
      begun := fun other ended => List.mem_cons_of_mem _ (lease.begun other ended)
      relies := nofun
      superseded := lease.superseded
      wrote := lease.wrote
      removed := lease.removed
      claimed := lease.claimed }

theorem step_lease {event : Event} (lease : Lease initial dir)
    (unclaimed : ∀ token, event.claimant = some token → markerHasToken token initial = false) :
    Lease initial (step dir event) := by
  cases event with
  | claim token pid timestamp =>
      rw [step]
      split
      · next free =>
          obtain ⟨-, new, -⟩ := free
          obtain ⟨begun, running⟩ := lease.begin (unclaimed token rfl) new
          exact begun.enter ⟨List.mem_cons_self .., running⟩
      · exact lease
  | claimTimesOut token =>
      rw [step]
      split
      · next free =>
          obtain ⟨new, -⟩ := free
          obtain ⟨begun, running⟩ := lease.begin (unclaimed token rfl) new
          have failed : Lease initial (({ dir with begun := token :: dir.begun } : RunDir).note
              (.claimFailed token)).release := begun.claimFailed (List.mem_cons_self ..)
          apply failed.of_release
          intro owner work holder
          have theirs := lease.relies owner work holder
          have notEnded : owner ∈ dir.begun → owner ∉ endedClaims dir.history →
              owner ∉ endedClaims (dir.history ++ [.claimFailed token]) := by
            intro begun running ended
            rw [endedClaims_append, List.mem_append] at ended
            rcases ended with earlier | last
            · exact running earlier
            · exact new (List.mem_singleton.mp last ▸ begun)
          have ended : owner ∈ endedClaims dir.history →
              owner ∈ endedClaims (dir.history ++ [.claimFailed token]) := by
            rw [endedClaims_append]
            exact List.mem_append_left _
          cases work with
          | readMarker => exact ⟨List.mem_cons_of_mem _ theirs.1, notEnded theirs.1 theirs.2⟩
          | truncateMarker | writeMarker =>
              exact ⟨List.mem_cons_of_mem _ theirs.1, notEnded theirs.1 theirs.2.1, theirs.2.2⟩
          | checkWrite | checkEnd => exact ended theirs
          | write | recheckEnd | removeMarker => exact ⟨ended theirs.1, theirs.2⟩
      · exact lease
  | acquireWriteGuard token =>
      rw [step]
      split
      · next free => exact lease.enter free.2.1
      · exact lease
  | endRunClean token =>
      rw [step]
      split
      · next free => exact lease.enter free.2.1
      · exact lease
  | proceed answer =>
      rw [step]
      split
      · exact lease
      · next token work holder => exact proceed_lease lease holder
  | crash token =>
      have dead : Lease initial { dir with dead := token :: dir.dead } :=
        ⟨lease.authored, lease.fresh, lease.begun, lease.relies, lease.superseded, lease.wrote,
          lease.removed, lease.claimed⟩
      rw [step]
      dsimp only
      split
      · exact dead.release
      · exact dead

end Steps

/-- What no interleaving of claims, guarded writes, clean ends and crashes breaks. -/
structure SingleWriter (history : List Entry) : Prop where
  owned : ∀ token marker, .wrote token marker ∈ history → markerHasToken token marker = true
  superseded : ∀ before owner seen replaced dirty after,
    history = before ++ .claimed owner seen replaced dirty :: after →
      ∀ token ∈ endedClaims before, ∀ marker, .wrote token marker ∉ after
  removed : ∀ token author, .removed token author ∈ history → author = some token
  reported : ∀ token seen replaced dirty, .claimed token seen replaced dirty ∈ history →
    seen.found = (if seen.read then replaced.contents else none) ∧
      (dirty.isSome = true ↔ ∃ contents, seen.found = some contents ∧ trim contents ≠ "" ∧
        ∀ pid, markerPid (trim contents) = some pid → processIsAlive seen.answers pid = false)

theorem isSome_dirtyRun {answers : Nat → Bool} {found : Option String} :
    (dirtyRun answers found).isSome = true ↔ ∃ contents, found = some contents ∧
      trim contents ≠ "" ∧
      ∀ pid, markerPid (trim contents) = some pid → processIsAlive answers pid = false := by
  cases found with
  | none => simp [dirtyRun, previousMarker]
  | some contents =>
      by_cases empty : trim contents = ""
      · have previous : previousMarker (some contents) = none := by
          rw [previousMarker, Option.map_some, empty]
          rfl
        simp [dirtyRun, previous, empty]
      · have previous : previousMarker (some contents) = some (trim contents) := by
          rw [previousMarker, Option.map_some]
          exact Option.filter_some_pos (decide_eq_true empty)
        rw [dirtyRun, previous]
        cases named : markerPid (trim contents) with
        | none => simp [empty, named]
        | some pid =>
            cases lives : processIsAlive answers pid <;> simp [empty, named, lives]

/-- However the instances interleave, one of them writes: the one whose token the marker
holds, and none whose claim was over when a later one was completed. -/
theorem single_writer (initial : Marker) (events : List Event)
    (fresh : ∀ event ∈ events, ∀ token, event.claimant = some token →
      markerHasToken token initial = false) :
    SingleWriter (instances.run (start initial) events).history := by
  have lease : Lease initial (instances.run (start initial) events) := by
    apply instances.run_invariant_of_trace (Lease initial) fun _ event =>
      ∀ token, event.claimant = some token → markerHasToken token initial = false
    · exact fun dir event unclaimed lease => step_lease lease unclaimed
    · exact
        { authored := .inl ⟨rfl, .inl rfl⟩
          fresh := nofun
          begun := nofun
          relies := nofun
          superseded := nofun
          wrote := by
            intro before token marker after split
            exact absurd split (by cases before <;> exact nofun)
          removed := nofun
          claimed := nofun }
    · intro dir event member
      obtain ⟨before, after, split, -⟩ := instances.mem_trace_iff.mp member
      apply fresh event
      rw [split]
      exact List.mem_append_right _ (List.mem_cons_self ..)
  refine ⟨?_, ?_, lease.removed, ?_⟩
  · intro token marker member
    obtain ⟨before, after, split⟩ := List.append_of_mem member
    exact (lease.wrote before token marker after split).1
  · intro before owner seen replaced dirty after split token ended marker member
    obtain ⟨front, rest, rfl⟩ := List.append_of_mem member
    rw [← List.cons_append, ← List.append_assoc] at split
    apply (lease.wrote _ token marker rest split).2
    exact ⟨before, owner, seen, replaced, dirty, front, rfl, ended⟩
  · intro token seen replaced dirty member
    obtain ⟨found, rfl⟩ := lease.claimed token seen replaced dirty member
    exact ⟨found, isSome_dirtyRun⟩

/-! Two instances, the first of which stops being the writer. -/

def liveAnswer : Answer := ⟨true, 1000, fun _ => true⟩

def takeover : List Event :=
  [.claim (.fromU128 1) 100 "2026-08-05T00:00:00Z", .proceed liveAnswer, .proceed liveAnswer,
    .proceed liveAnswer, .acquireWriteGuard (.fromU128 1), .proceed liveAnswer,
    .proceed liveAnswer, .proceed ⟨false, 0, fun _ => true⟩,
    .claim (.fromU128 2) 200 "2026-08-05T00:05:00Z", .proceed liveAnswer, .proceed liveAnswer,
    .proceed liveAnswer, .acquireWriteGuard (.fromU128 1), .proceed liveAnswer,
    .endRunClean (.fromU128 2), .proceed liveAnswer, .proceed liveAnswer, .proceed liveAnswer]

theorem takeover_single_writer :
    SingleWriter (instances.run (start .absent) takeover).history :=
  single_writer .absent takeover fun _ _ _ _ => rfl

/-- The first instance writes once, and the second removes the marker. -/
example : (instances.run (start .absent) takeover).history.length = 4 ∧
    (instances.run (start .absent) takeover).marker = .absent := by
  decide +kernel

end TerminalCanvas.RunMarker
