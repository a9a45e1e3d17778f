import Mathlib.Data.Finset.Card
import Mathlib.Logic.Function.Basic
import TerminalCanvas.State.LayoutLoad

/-! # The ring of backups in time

A changed save first rotates the backups, unless the newest is less than an hour
old. Renames and the copy of the main file may fail, and a save goes on without
them. -/

namespace TerminalCanvas.Layout.Ring

def backupMinSpacing : Nat := 60 * 60 * 10 ^ 9

/-- A backup, with the place of its content among those of the main file and the
number of the copy that made it. -/
structure Backup where
  content : Bytes
  mtime : Nat
  version : Nat
  serial : Nat
deriving DecidableEq, Repr

abbrev Slots := Nat → Option Backup

/-- The contents the main file has had, the current one last, its backups and how many
copies were begun. -/
structure Directory where
  mains : List Bytes
  slots : Slots
  copies : Nat

def Directory.main (dir : Directory) : Option Bytes := dir.mains.getLast?

/-- What becomes of the copy of the main file: a failing one leaves the slot alone, or
stops with a part of the file in it. -/
inductive CopyOutcome
  | copied
  | refused
  | cut (written : Nat)
deriving DecidableEq, Repr

/-- A call of `write_durable`, when it samples the clock and when it copies, and which of
its operations succeed: the rename into each slot, the copy, the write itself. -/
structure Save where
  bytes : Bytes
  now : Nat
  stamp : Nat
  shifts : Nat → Bool
  copy : CopyOutcome
  saved : Bool

/-- Rename the backup in front of `slot` into it. -/
def shiftSlot (slots : Slots) (shifts : Nat → Bool) (slot : Nat) : Slots :=
  if (slots (slot - 1)).isSome ∧ shifts slot then
    Function.update (Function.update slots slot (slots (slot - 1))) (slot - 1) none
  else
    slots

/-- The renames, from the oldest slot on. -/
def shiftDown (slots : Slots) (shifts : Nat → Bool) : Nat → Slots
  | 0 => slots
  | slot + 1 => shiftDown (shiftSlot slots shifts (slot + 1)) shifts slot

/-- The newest backup is too young to rotate, or from a clock ahead of ours. -/
def recent (dir : Directory) (now : Nat) : Bool :=
  (dir.slots 0).any fun newest => now < newest.mtime + backupMinSpacing

def copyMain (dir : Directory) (save : Save) (main : Bytes) (slots : Slots) : Slots :=
  match save.copy with
  | .copied =>
      Function.update slots 0 (some ⟨main, save.stamp, dir.mains.length - 1, dir.copies⟩)
  | .refused => slots
  | .cut written =>
      Function.update slots 0
        (some ⟨main.take written, save.stamp, dir.mains.length - 1, dir.copies⟩)

def rotateBackupRing (dir : Directory) (save : Save) : Directory :=
  match dir.main with
  | none => dir
  | some main =>
      if recent dir save.now then
        dir
      else
        { dir with
          slots := copyMain dir save main (shiftDown dir.slots save.shifts (backupSlots - 1))
          copies := dir.copies + 1 }

def writeDurable (dir : Directory) (save : Save) : Directory :=
  if dir.main = some save.bytes then
    dir
  else
    let rotated := rotateBackupRing dir save
    if save.saved then { rotated with mains := rotated.mains ++ [save.bytes] } else rotated

/-- A directory with a main file or none, and no backups yet. -/
def startDirectory (initial : Option Bytes) : Directory := ⟨initial.toList, fun _ => none, 0⟩

def run (dir : Directory) (saves : List Save) : Directory := saves.foldl writeDurable dir

/-- The clock does not go back, and a copy is stamped when it is made. -/
def Timed : Nat → List Save → Prop
  | _, [] => True
  | clock, save :: rest => clock ≤ save.now ∧ save.now ≤ save.stamp ∧ Timed save.stamp rest

/-! ## What is lost -/

/-- The backups there are, by the copies that made them. -/
def held (dir : Directory) : Finset Nat :=
  ((List.range backupSlots).filterMap fun slot => (dir.slots slot).map Backup.serial).toFinset

/-- How many backups a save overwrites or loses. -/
def lost (before after : Directory) : Nat := (held before \ held after).card

def losses (dir : Directory) : List Save → Nat
  | [] => 0
  | save :: rest => lost dir (writeDurable dir save) + losses (writeDurable dir save) rest

/-- A backup that is the oldest, or that its own rename leaves in its slot, and onto which
the next one is renamed or the main file is copied. -/
structure Overwritten (dir : Directory) (save : Save) (slot : Nat) : Prop where
  present : (dir.slots slot).isSome
  stays : slot + 1 < backupSlots → save.shifts (slot + 1) = false
  landed : if slot = 0 then save.copy ≠ .refused else
    (dir.slots (slot - 1)).isSome ∧ save.shifts slot = true

def Rotates (dir : Directory) (save : Save) : Prop :=
  dir.main ≠ some save.bytes ∧ dir.main.isSome ∧ recent dir save.now = false

/-- A rotation writes over one backup at most, only with a copy that succeeds, and no
copy stops half-way. -/
structure Careful (dir : Directory) (save : Save) : Prop where
  one : Rotates dir save → ∀ slot < backupSlots, ∀ other < backupSlots,
    Overwritten dir save slot → Overwritten dir save other → slot = other
  replaced : Rotates dir save → ∀ slot < backupSlots, Overwritten dir save slot →
    save.copy = .copied
  whole : Rotates dir save → ∀ written, save.copy ≠ .cut written

def CarefulRun (dir : Directory) : List Save → Prop
  | [] => True
  | save :: rest => Careful dir save ∧ CarefulRun (writeDurable dir save) rest

/-! ## The renames -/

theorem shiftDown_above {slots : Slots} {shifts : Nat → Bool} {count slot : Nat}
    (above : count < slot) : shiftDown slots shifts count slot = slots slot := by
  induction count generalizing slots with
  | zero => rfl
  | succ count induction =>
      rw [shiftDown, induction (by omega), shiftSlot]
      split
      · rw [Function.update_of_ne (by omega), Function.update_of_ne (by omega)]
      · rfl

theorem shiftDown_keeps {slots : Slots} {shifts : Nat → Bool} {count slot : Nat} {backup : Backup}
    (present : slots slot = some backup) (inside : slot ≤ count) :
    (slot < count ∧ shifts (slot + 1) = true ∧
        shiftDown slots shifts count (slot + 1) = some backup) ∨
      ((slot < count → shifts (slot + 1) = false) ∧
        ((0 < slot ∧ (slots (slot - 1)).isSome ∧ shifts slot = true) ∨
          shiftDown slots shifts count slot = some backup)) := by
  induction count generalizing slots with
  | zero =>
      right
      refine ⟨fun below => absurd below (by omega), .inr ?_⟩
      exact present
  | succ count induction =>
      rw [shiftDown]
      have low : ∀ other < count, shiftSlot slots shifts (count + 1) other = slots other := by
        intro other below
        rw [shiftSlot]
        split
        · rw [Function.update_of_ne (by simp; omega), Function.update_of_ne (by omega)]
        · rfl
      rcases Nat.lt_trichotomy slot count with below | rfl | top
      · -- the first rename does not reach this slot
        have same : shiftSlot slots shifts (count + 1) slot = some backup := by
          rw [low slot below, present]
        have behind : shiftSlot slots shifts (count + 1) (slot - 1) = slots (slot - 1) :=
          low (slot - 1) (by omega)
        rcases induction same (by omega) with ⟨-, moves, found⟩ | ⟨stays, rest⟩
        · exact .inl ⟨by omega, moves, found⟩
        · rw [behind] at rest
          exact .inr ⟨fun _ => stays below, rest⟩
      · by_cases moves : shifts (slot + 1) = true
        · left
          refine ⟨by omega, moves, ?_⟩
          rw [shiftDown_above (by omega), shiftSlot, if_pos (by simp [present, moves]),
            Function.update_of_ne (by simp), Function.update_self]
          exact present
        · right
          have still : shiftSlot slots shifts (slot + 1) = slots := by
            rw [shiftSlot, if_neg (by simp [moves])]
          rw [still]
          refine ⟨fun _ => by simpa using moves, ?_⟩
          rcases induction present (Nat.le_refl _) with ⟨below, -⟩ | ⟨-, rest⟩
          · omega
          · exact rest
      · obtain rfl : slot = count + 1 := by omega
        right
        refine ⟨fun below => absurd below (by omega), ?_⟩
        by_cases landed : (slots count).isSome ∧ shifts (count + 1) = true
        · exact .inl ⟨by omega, landed⟩
        · right
          rw [shiftDown_above (by omega), shiftSlot, if_neg (by simpa using landed)]
          exact present

/-! ## One save -/

section Save

variable {dir : Directory} {save : Save}

theorem slots_of_quiet (quiet : ¬ Rotates dir save) :
    (writeDurable dir save).slots = dir.slots := by
  have unrotated : dir.main ≠ some save.bytes → (rotateBackupRing dir save).slots = dir.slots := by
    intro changed
    rw [rotateBackupRing]
    split
    · rfl
    · next main present =>
        split
        · rfl
        · next old =>
            exact absurd ⟨changed, by simp [present], by simpa using old⟩ quiet
  rw [writeDurable]
  split
  · rfl
  · next changed =>
      dsimp only
      split <;> exact unrotated changed

theorem writeDurable_of_rotates (rotates : Rotates dir save) :
    ∃ main, dir.main = some main ∧ (writeDurable dir save).slots =
        copyMain dir save main (shiftDown dir.slots save.shifts (backupSlots - 1)) ∧
      (writeDurable dir save).copies = dir.copies + 1 := by
  obtain ⟨changed, present, old⟩ := rotates
  obtain ⟨main, present⟩ := Option.isSome_iff_exists.mp present
  refine ⟨main, present, ?_⟩
  rw [writeDurable, if_neg changed, rotateBackupRing, present]
  simp only [old, Bool.false_eq_true, if_false]
  split <;> exact ⟨rfl, rfl⟩

theorem copyMain_of_ne (main : Bytes) (slots : Slots) {slot : Nat} (other : slot ≠ 0) :
    copyMain dir save main slots slot = slots slot := by
  rw [copyMain]
  cases save.copy with
  | copied => exact Function.update_of_ne other _ _
  | refused => rfl
  | cut written => exact Function.update_of_ne other _ _

theorem keeps_backup (rotates : Rotates dir save) {slot : Nat} (inside : slot < backupSlots)
    {backup : Backup} (present : dir.slots slot = some backup) :
    Overwritten dir save slot ∨
      ∃ place < backupSlots, (writeDurable dir save).slots place = some backup := by
  have slots : backupSlots = 5 := rfl
  obtain ⟨main, -, after, -⟩ := writeDurable_of_rotates rotates
  rw [after]
  rcases shiftDown_keeps present (show slot ≤ backupSlots - 1 by omega) with
    ⟨below, -, moved⟩ | ⟨stays, rest⟩
  · exact .inr ⟨slot + 1, by omega, by rw [copyMain_of_ne _ _ (by omega), moved]⟩
  · have still : slot + 1 < backupSlots → save.shifts (slot + 1) = false :=
      fun below => stays (by omega)
    rcases rest with ⟨behind, landed⟩ | remains
    · exact .inl ⟨by simp [present], still, by rw [if_neg (by omega)]; exact landed⟩
    · by_cases newest : slot = 0
      · by_cases refused : save.copy = .refused
        · refine .inr ⟨slot, inside, ?_⟩
          rw [copyMain, refused]
          exact remains
        · exact .inl ⟨by simp [present], still, by rwa [if_pos newest]⟩
      · exact .inr ⟨slot, inside, by rw [copyMain_of_ne _ _ newest, remains]⟩

theorem mem_held {number : Nat} :
    number ∈ held dir ↔ ∃ slot < backupSlots, ∃ backup, dir.slots slot = some backup ∧
      backup.serial = number := by
  simp [held]

theorem overwritten_of_lost {number : Nat}
    (gone : number ∈ held dir \ held (writeDurable dir save)) :
    Rotates dir save ∧ ∃ slot < backupSlots, Overwritten dir save slot ∧
      ∃ backup, dir.slots slot = some backup ∧ backup.serial = number := by
  rw [Finset.mem_sdiff] at gone
  obtain ⟨slot, inside, backup, present, same⟩ := mem_held.mp gone.1
  have rotates : Rotates dir save := by
    by_contra quiet
    refine gone.2 (mem_held.mpr ⟨slot, inside, backup, ?_, same⟩)
    rw [slots_of_quiet quiet, present]
  refine ⟨rotates, slot, inside, ?_, backup, present, same⟩
  rcases keeps_backup rotates inside present with overwritten | ⟨place, within, found⟩
  · exact overwritten
  · exact absurd (mem_held.mpr ⟨place, within, backup, found, same⟩) gone.2

theorem lost_le_one (careful : Careful dir save) : lost dir (writeDurable dir save) ≤ 1 := by
  rw [lost, Finset.card_le_one]
  intro one gone other alsoGone
  obtain ⟨rotates, slot, inside, overwritten, backup, present, rfl⟩ := overwritten_of_lost gone
  obtain ⟨-, place, within, alsoOverwritten, second, found, rfl⟩ := overwritten_of_lost alsoGone
  obtain rfl := careful.one rotates slot inside place within overwritten alsoOverwritten
  rw [present, Option.some.injEq] at found
  rw [found]

theorem fresh_of_lost (careful : Careful dir save)
    (loses : lost dir (writeDurable dir save) ≠ 0) :
    ∃ newest, (writeDurable dir save).slots 0 = some newest ∧ newest.mtime = save.stamp := by
  obtain ⟨number, gone⟩ := Finset.card_ne_zero.mp loses
  obtain ⟨rotates, slot, inside, overwritten, -⟩ := overwritten_of_lost gone
  obtain ⟨main, -, after, -⟩ := writeDurable_of_rotates rotates
  rw [after, copyMain, careful.replaced rotates slot inside overwritten]
  exact ⟨_, Function.update_self .., rfl⟩

theorem quiet_of_recent {newest : Backup} (present : dir.slots 0 = some newest)
    (young : save.now < newest.mtime + backupMinSpacing) : ¬ Rotates dir save := by
  rintro ⟨-, -, old⟩
  rw [recent, present, Option.any_some] at old
  exact absurd young (of_decide_eq_false old)

end Save

/-! ## Runs -/

theorem losses_of_fresh {dir : Directory} {newest : Backup} (present : dir.slots 0 = some newest)
    {saves : List Save} (young : ∀ save ∈ saves, save.now < newest.mtime + backupMinSpacing) :
    losses dir saves = 0 := by
  induction saves generalizing dir with
  | nil => rfl
  | cons save rest induction =>
      have quiet := quiet_of_recent present (young save List.mem_cons_self)
      have same := slots_of_quiet quiet
      have none : lost dir (writeDurable dir save) = 0 := by
        rw [lost, Finset.card_eq_zero, Finset.sdiff_eq_empty_iff_subset, held, held, same]
      rw [losses, none, induction (by rw [same, present]) fun other member =>
        young other (List.mem_cons_of_mem _ member)]

theorem losses_le_one {clock : Nat} {dir : Directory} {saves : List Save}
    (timed : Timed clock saves) (careful : CarefulRun dir saves)
    (short : ∀ first ∈ saves, ∀ last ∈ saves, last.now < first.now + backupMinSpacing) :
    losses dir saves ≤ 1 := by
  induction saves generalizing clock dir with
  | nil => exact Nat.zero_le _
  | cons save rest induction =>
      obtain ⟨-, stamped, timedRest⟩ := timed
      by_cases loses : lost dir (writeDurable dir save) = 0
      · rw [losses, loses, Nat.zero_add]
        exact induction timedRest careful.2 fun first memberFirst last memberLast =>
          short first (List.mem_cons_of_mem _ memberFirst) last
            (List.mem_cons_of_mem _ memberLast)
      · obtain ⟨newest, present, time⟩ := fresh_of_lost careful.1 loses
        have quiet : losses (writeDurable dir save) rest = 0 := by
          apply losses_of_fresh present
          intro other member
          have near := short save List.mem_cons_self other (List.mem_cons_of_mem _ member)
          omega
        rw [losses, quiet]
        exact lost_le_one careful.1

/-- The first backup was made after the second, of a main file no older. -/
structure Newer (near far : Backup) : Prop where
  serial : far.serial < near.serial
  version : far.version ≤ near.version
  mtime : far.mtime ≤ near.mtime

/-- The backups are contents the main file had, from newest to oldest. -/
structure Past (clock : Nat) (dir : Directory) : Prop where
  contents : ∀ slot backup, dir.slots slot = some backup →
    dir.mains[backup.version]? = some backup.content ∧ backup.serial < dir.copies ∧
      backup.mtime ≤ clock
  order : ∀ near far newer older, near < far → dir.slots near = some newer →
    dir.slots far = some older → Newer newer older

theorem past_start (initial : Option Bytes) : Past 0 (startDirectory initial) where
  contents := fun _ _ present => nomatch present
  order := fun _ _ _ _ _ present => nomatch present

/-- The backups of some slots, in some order of ages. -/
structure Shifted (before after : Slots) : Prop where
  among : ∀ slot backup, after slot = some backup → ∃ place, before place = some backup
  order : (∀ near far newer older, near < far → before near = some newer →
      before far = some older → Newer newer older) →
    ∀ near far newer older, near < far → after near = some newer →
      after far = some older → Newer newer older

theorem Shifted.refl (slots : Slots) : Shifted slots slots :=
  ⟨fun slot _ present => ⟨slot, present⟩, id⟩

theorem Shifted.trans {first second third : Slots} (former : Shifted first second)
    (latter : Shifted second third) : Shifted first third := by
  refine ⟨fun slot backup present => ?_, fun order => latter.order (former.order order)⟩
  obtain ⟨place, found⟩ := latter.among slot backup present
  exact former.among place backup found

theorem shifted_shiftSlot (slots : Slots) (shifts : Nat → Bool) {slot : Nat} (older : 0 < slot) :
    Shifted slots (shiftSlot slots shifts slot) := by
  rw [shiftSlot]
  split
  · have after : ∀ other backup,
        Function.update (Function.update slots slot (slots (slot - 1))) (slot - 1) none other =
          some backup →
        other ≠ slot - 1 ∧ slots (if other = slot then slot - 1 else other) = some backup := by
      intro other backup present
      by_cases vacated : other = slot - 1
      · rw [vacated, Function.update_self] at present
        exact nomatch present
      · rw [Function.update_of_ne vacated] at present
        refine ⟨vacated, ?_⟩
        by_cases target : other = slot
        · rw [target, Function.update_self] at present
          rw [if_pos target]
          exact present
        · rw [Function.update_of_ne target] at present
          rw [if_neg target]
          exact present
    refine ⟨fun other backup present => ⟨_, (after other backup present).2⟩, ?_⟩
    intro order near far newer other below first second
    obtain ⟨apart, first⟩ := after near newer first
    obtain ⟨alsoApart, second⟩ := after far other second
    refine order _ _ newer other ?_ first second
    split <;> split <;> omega
  · exact .refl slots

theorem shifted_shiftDown (slots : Slots) (shifts : Nat → Bool) (count : Nat) :
    Shifted slots (shiftDown slots shifts count) := by
  induction count generalizing slots with
  | zero => exact .refl slots
  | succ count induction =>
      exact (shifted_shiftSlot slots shifts (Nat.succ_pos count)).trans (induction _)

theorem Past.later {clock time : Nat} {dir : Directory} (past : Past clock dir)
    (later : clock ≤ time) : Past time dir where
  contents := fun slot backup present =>
    have held := past.contents slot backup present
    ⟨held.1, held.2.1, Nat.le_trans held.2.2 later⟩
  order := past.order

theorem Past.saved {clock : Nat} {dir : Directory} (past : Past clock dir) (bytes : Bytes) :
    Past clock { dir with mains := dir.mains ++ [bytes] } where
  contents := fun slot backup present => by
    obtain ⟨content, rest⟩ := past.contents slot backup present
    refine ⟨?_, rest⟩
    have inside := (List.getElem?_eq_some_iff.mp content).1
    rw [List.getElem?_append_left inside]
    exact content
  order := past.order

theorem Past.rotated {dir : Directory} {save : Save} (past : Past save.stamp dir)
    (whole : ∀ main, dir.main = some main → recent dir save.now = false →
      ∀ written, save.copy ≠ .cut written) :
    Past save.stamp (rotateBackupRing dir save) := by
  rw [rotateBackupRing]
  split
  · exact past
  · next main present =>
      split
      · exact past
      · next old =>
          have shifted := shifted_shiftDown dir.slots save.shifts (backupSlots - 1)
          have order := shifted.order past.order
          have contents : ∀ slot backup,
              shiftDown dir.slots save.shifts (backupSlots - 1) slot = some backup →
              dir.mains[backup.version]? = some backup.content ∧ backup.serial < dir.copies ∧
                backup.mtime ≤ save.stamp := by
            intro slot backup found
            obtain ⟨place, before⟩ := shifted.among slot backup found
            exact past.contents place backup before
          cases outcome : save.copy with
          | cut written => exact absurd outcome (whole main present (by simpa using old) written)
          | refused =>
              simp only [copyMain, outcome]
              refine ⟨fun slot backup found => ?_, order⟩
              obtain ⟨content, serial, time⟩ := contents slot backup found
              exact ⟨content, Nat.lt_succ_of_lt serial, time⟩
          | copied =>
              have current : dir.mains[dir.mains.length - 1]? = some main := by
                rw [← List.getLast?_eq_getElem?]
                exact present
              refine ⟨fun slot backup found => ?_,
                fun near far newer older below first second => ?_⟩
              · simp only [copyMain, outcome] at found
                by_cases newest : slot = 0
                · rw [newest, Function.update_self, Option.some.injEq] at found
                  subst found
                  exact ⟨current, Nat.lt_succ_self _, Nat.le_refl _⟩
                · rw [Function.update_of_ne newest] at found
                  obtain ⟨content, serial, time⟩ := contents slot backup found
                  exact ⟨content, Nat.lt_succ_of_lt serial, time⟩
              · simp only [copyMain, outcome] at first second
                rw [Function.update_of_ne (by omega)] at second
                by_cases newest : near = 0
                · rw [newest, Function.update_self, Option.some.injEq] at first
                  subst first
                  obtain ⟨content, serial, time⟩ := contents far older second
                  have known := (List.getElem?_eq_some_iff.mp content).1
                  exact ⟨serial, by simp only; omega, time⟩
                · rw [Function.update_of_ne newest] at first
                  exact order near far newer older below first second

theorem Past.writeDurable {clock : Nat} {dir : Directory} {save : Save} (past : Past clock dir)
    (later : clock ≤ save.now) (stamped : save.now ≤ save.stamp) (careful : Careful dir save) :
    Past save.stamp (writeDurable dir save) := by
  have now := past.later (Nat.le_trans later stamped)
  rw [Ring.writeDurable]
  split
  · exact now
  · next changed =>
      have rotated := now.rotated fun main present old =>
        careful.whole ⟨changed, by simp [present], old⟩
      dsimp only
      split
      · exact rotated.saved save.bytes
      · exact rotated

theorem past_run {clock : Nat} {dir : Directory} {saves : List Save} (past : Past clock dir)
    (timed : Timed clock saves) (careful : CarefulRun dir saves) :
    ∃ time, Past time (run dir saves) := by
  induction saves generalizing clock dir with
  | nil => exact ⟨clock, past⟩
  | cons save rest induction =>
      obtain ⟨later, stamped, timedRest⟩ := timed
      exact induction (past.writeDurable later stamped careful.1) timedRest careful.2

theorem timed_append {clock : Nat} {earlier later : List Save}
    (timed : Timed clock (earlier ++ later)) :
    Timed clock earlier ∧ ∃ time, Timed time later := by
  induction earlier generalizing clock with
  | nil => exact ⟨trivial, clock, timed⟩
  | cons save earlier induction =>
      obtain ⟨after, stamped, rest⟩ := timed
      obtain ⟨timedEarlier, timedLater⟩ := induction rest
      exact ⟨⟨after, stamped, timedEarlier⟩, timedLater⟩

theorem carefulRun_append {dir : Directory} {earlier later : List Save}
    (careful : CarefulRun dir (earlier ++ later)) :
    CarefulRun dir earlier ∧ CarefulRun (run dir earlier) later := by
  induction earlier generalizing dir with
  | nil => exact ⟨trivial, careful⟩
  | cons save earlier induction =>
      obtain ⟨carefulEarlier, carefulLater⟩ := induction careful.2
      exact ⟨⟨careful.1, carefulEarlier⟩, carefulLater⟩

/-- A save of its own content at the `hour`, all of whose operations succeed. -/
def hourly (hour : Nat) : Save :=
  ⟨[UInt8.ofNat hour], hour * backupMinSpacing, hour * backupMinSpacing,
    fun _ => true, .copied, true⟩

/-- A save on a disk without room for the copy, some nanoseconds after the sixth hour. -/
def cramped (later : Nat) : Save :=
  ⟨[100, UInt8.ofNat later], 6 * backupMinSpacing + later, 6 * backupMinSpacing + later,
    fun _ => true, .refused, true⟩

end TerminalCanvas.Layout.Ring
