import TerminalCanvas.State.DurableWrite

/-! # What a durable write leaves

The main file is whole at every moment, and every backup is a part of what a main file
was, newer slots of newer ones. -/

namespace TerminalCanvas.Layout

variable {path : String}

/-- The main file holds its last content, and the ring parts of earlier ones in order. -/
structure Intact (path : String) (disk : Disk) (mains : List Bytes) (origins : Nat → Nat) :
    Prop where
  main : (mains = [] ∧ disk.entries path = .absent) ∨
    ∃ content, mains.getLast? = some content ∧ disk.entries path = .file content ∧
      disk.dirty path = false
  slots : ∀ slot < backupSlots, disk.entries (backupPath path slot) = .absent ∨
    ∃ bytes content, disk.entries (backupPath path slot) = .file bytes ∧
      mains[origins slot]? = some content ∧ bytes <+: content
  order : ∀ near far, near < far → far < backupSlots →
    disk.entries (backupPath path near) ≠ .absent →
    disk.entries (backupPath path far) ≠ .absent → origins far ≤ origins near

namespace Intact

variable {disk : Disk} {mains : List Bytes} {origins : Nat → Nat}

theorem main_file {content : Bytes} (intact : Intact path disk mains origins)
    (main : disk.entries path = .file content) :
    mains.getLast? = some content ∧ disk.dirty path = false := by
  rcases intact.main with ⟨-, absent⟩ | ⟨last, isLast, file, synced⟩
  · cases absent.symm.trans main
  · cases file.symm.trans main
    exact ⟨isLast, synced⟩

theorem origin_lt (intact : Intact path disk mains origins) {slot : Nat}
    (bound : slot < backupSlots) (present : disk.entries (backupPath path slot) ≠ .absent) :
    origins slot < mains.length := by
  obtain ⟨bytes, content, -, origin, -⟩ := (intact.slots slot bound).resolve_left present
  exact (List.getElem?_eq_some_iff.mp origin).1

theorem set_temp (intact : Intact path disk mains origins) (id : Uuid) (entry : Entry)
    (dirty : Bool) : Intact path (disk.set (tempPath path id) entry dirty) mains origins := by
  have main : (disk.set (tempPath path id) entry dirty).entries path = disk.entries path :=
    Function.update_of_ne (tempPath_ne_path id).symm _ _
  have mainDirty : (disk.set (tempPath path id) entry dirty).dirty path = disk.dirty path :=
    Function.update_of_ne (tempPath_ne_path id).symm _ _
  have ring : ∀ slot < backupSlots, (disk.set (tempPath path id) entry dirty).entries
      (backupPath path slot) = disk.entries (backupPath path slot) :=
    fun slot bound => Function.update_of_ne (backupPath_ne_tempPath bound id) _ _
  refine ⟨?_, ?_, ?_⟩
  · rw [main, mainDirty]
    exact intact.main
  · intro slot bound
    rw [ring slot bound]
    exact intact.slots slot bound
  · intro near far less bound
    rw [ring near (Nat.lt_trans less bound), ring far bound]
    exact intact.order near far less bound

theorem shift (intact : Intact path disk mains origins) {slot : Nat} (positive : 1 ≤ slot)
    (bound : slot < backupSlots) :
    Intact path (disk.rename (backupPath path (slot - 1)) (backupPath path slot)) mains
      (Function.update origins slot (origins (slot - 1))) := by
  have sourceBound : slot - 1 < backupSlots := by omega
  have apart : backupPath path slot ≠ backupPath path (slot - 1) := by
    intro same
    have equal := backupPath_injective bound sourceBound same
    omega
  -- the entries of the ring behind the move
  have source : (disk.rename (backupPath path (slot - 1)) (backupPath path slot)).entries
      (backupPath path (slot - 1)) = .absent := Function.update_self ..
  have target : (disk.rename (backupPath path (slot - 1)) (backupPath path slot)).entries
      (backupPath path slot) = disk.entries (backupPath path (slot - 1)) :=
    (Function.update_of_ne apart _ _).trans (Function.update_self ..)
  have others : ∀ name, name ≠ backupPath path (slot - 1) → name ≠ backupPath path slot →
      (disk.rename (backupPath path (slot - 1)) (backupPath path slot)).entries name =
        disk.entries name :=
    fun name notSource notTarget =>
      (Function.update_of_ne notSource _ _).trans (Function.update_of_ne notTarget _ _)
  have main := others path (backupPath_ne_path sourceBound).symm (backupPath_ne_path bound).symm
  have mainDirty : (disk.rename (backupPath path (slot - 1)) (backupPath path slot)).dirty path =
      disk.dirty path :=
    (Function.update_of_ne (backupPath_ne_path sourceBound).symm _ _).trans
      (Function.update_of_ne (backupPath_ne_path bound).symm _ _)
  have kept : ∀ other < backupSlots, other ≠ slot - 1 → other ≠ slot →
      (disk.rename (backupPath path (slot - 1)) (backupPath path slot)).entries
        (backupPath path other) = disk.entries (backupPath path other) := by
    intro other otherBound notSource notTarget
    exact others _ (fun same => notSource (backupPath_injective otherBound sourceBound same))
      fun same => notTarget (backupPath_injective otherBound bound same)
  refine ⟨?_, ?_, ?_⟩
  · rw [main, mainDirty]
    exact intact.main
  · intro other otherBound
    by_cases isTarget : other = slot
    · subst isTarget
      rw [target, Function.update_self]
      exact intact.slots _ sourceBound
    · rw [Function.update_of_ne isTarget]
      by_cases isSource : other = slot - 1
      · subst isSource
        exact .inl source
      · rw [kept other otherBound isSource isTarget]
        exact intact.slots other otherBound
  · intro near far less farBound nearPresent farPresent
    have nearSource : near ≠ slot - 1 := fun same => nearPresent (same ▸ source)
    have farSource : far ≠ slot - 1 := fun same => farPresent (same ▸ source)
    by_cases nearTarget : near = slot
    · subst nearTarget
      have farTarget : far ≠ near := by omega
      rw [target] at nearPresent
      rw [kept far farBound farSource farTarget] at farPresent
      rw [Function.update_self, Function.update_of_ne farTarget]
      exact intact.order (near - 1) far (by omega) farBound nearPresent farPresent
    · rw [kept near (Nat.lt_trans less farBound) nearSource nearTarget] at nearPresent
      rw [Function.update_of_ne nearTarget]
      by_cases farTarget : far = slot
      · subst farTarget
        rw [target] at farPresent
        rw [Function.update_self]
        exact intact.order near (far - 1) (by omega) sourceBound nearPresent farPresent
      · rw [kept far farBound farSource farTarget] at farPresent
        rw [Function.update_of_ne farTarget]
        exact intact.order near far less farBound nearPresent farPresent

theorem copy (intact : Intact path disk mains origins) {bytes content : Bytes}
    (last : mains.getLast? = some content) (part : bytes <+: content) :
    Intact path (disk.write (newest path) bytes) mains
      (Function.update origins 0 (mains.length - 1)) := by
  have positive : 0 < backupSlots := by decide
  have main : (disk.write (newest path) bytes).entries path = disk.entries path :=
    Function.update_of_ne (backupPath_ne_path positive).symm _ _
  have mainDirty : (disk.write (newest path) bytes).dirty path = disk.dirty path :=
    Function.update_of_ne (backupPath_ne_path positive).symm _ _
  have kept : ∀ slot < backupSlots, slot ≠ 0 → (disk.write (newest path) bytes).entries
      (backupPath path slot) = disk.entries (backupPath path slot) := by
    intro slot bound other
    exact Function.update_of_ne (fun same => other (backupPath_injective bound positive same)) _ _
  refine ⟨?_, ?_, ?_⟩
  · rw [main, mainDirty]
    exact intact.main
  · intro slot bound
    by_cases first : slot = 0
    · subst first
      refine .inr ⟨bytes, content, Function.update_self .., ?_, part⟩
      rw [Function.update_self, ← List.getLast?_eq_getElem?]
      exact last
    · rw [kept slot bound first, Function.update_of_ne first]
      exact intact.slots slot bound
  · intro near far less bound nearPresent farPresent
    have farOther : far ≠ 0 := by omega
    rw [kept far bound farOther] at farPresent
    rw [Function.update_of_ne farOther]
    by_cases first : near = 0
    · subst first
      have origin := intact.origin_lt bound farPresent
      rw [Function.update_self]
      omega
    · rw [kept near (Nat.lt_trans less bound) first] at nearPresent
      rw [Function.update_of_ne first]
      exact intact.order near far less bound nearPresent farPresent

theorem replace (intact : Intact path disk mains origins) {id : Uuid} {bytes : Bytes}
    (file : disk.entries (tempPath path id) = .file bytes)
    (synced : disk.dirty (tempPath path id) = false) :
    Intact path (disk.rename (tempPath path id) path) (mains ++ [bytes]) origins := by
  have main : (disk.rename (tempPath path id) path).entries path = .file bytes :=
    ((Function.update_of_ne (tempPath_ne_path id).symm _ _).trans (Function.update_self ..)).trans
      file
  have mainDirty : (disk.rename (tempPath path id) path).dirty path = false :=
    ((Function.update_of_ne (tempPath_ne_path id).symm _ _).trans (Function.update_self ..)).trans
      synced
  have ring : ∀ slot < backupSlots, (disk.rename (tempPath path id) path).entries
      (backupPath path slot) = disk.entries (backupPath path slot) := by
    intro slot bound
    exact (Function.update_of_ne (backupPath_ne_tempPath bound id) _ _).trans
      (Function.update_of_ne (backupPath_ne_path bound) _ _)
  refine ⟨.inr ⟨bytes, List.getLast?_concat .., main, mainDirty⟩, ?_, ?_⟩
  · intro slot bound
    rw [ring slot bound]
    rcases intact.slots slot bound with absent | ⟨held, content, is, origin, part⟩
    · exact .inl absent
    · refine .inr ⟨held, content, is, ?_, part⟩
      rw [List.getElem?_append_left (List.getElem?_eq_some_iff.mp origin).1, origin]
  · intro near far less bound
    rw [ring near (Nat.lt_trans less bound), ring far bound]
    exact intact.order near far less bound

theorem lose (intact : Intact path disk mains origins) (kept : String → Nat) :
    Intact path (disk.lose kept) mains origins := by
  have absent_iff : ∀ name, (disk.lose kept).entries name = .absent ↔
      disk.entries name = .absent := by
    intro name
    rw [Disk.lose]
    dsimp only
    generalize disk.entries name = entry
    cases entry <;> simp
  have file : ∀ {name : String} {bytes : Bytes}, disk.entries name = .file bytes →
      (disk.lose kept).entries name =
        .file (if disk.dirty name then bytes.take (kept name) else bytes) := by
    intro name bytes is
    rw [Disk.lose]
    dsimp only
    rw [is]
  refine ⟨?_, ?_, ?_⟩
  · rcases intact.main with ⟨none, absent⟩ | ⟨content, last, is, synced⟩
    · exact .inl ⟨none, (absent_iff _).mpr absent⟩
    · refine .inr ⟨content, last, ?_, synced⟩
      rw [file is, synced]
      rfl
  · intro slot bound
    rcases intact.slots slot bound with absent | ⟨bytes, content, is, origin, part⟩
    · exact .inl ((absent_iff _).mpr absent)
    · refine .inr ⟨_, content, file is, origin, ?_⟩
      split
      · exact (List.take_prefix _ _).trans part
      · exact part
  · intro near far less bound nearPresent farPresent
    exact intact.order near far less bound (mt (absent_iff _).mpr nearPresent)
      (mt (absent_iff _).mpr farPresent)

end Intact

theorem intact_start (initial : Option Bytes) :
    Intact path (startWriter path initial).disk (startWriter path initial).mains
      (startWriter path initial).origins := by
  have ring : ∀ slot < backupSlots,
      (startWriter path initial).disk.entries (backupPath path slot) = .absent :=
    fun slot bound => if_neg (backupPath_ne_path bound)
  refine ⟨?_, fun slot bound => .inl (ring slot bound), ?_⟩
  · cases initial with
    | none => exact .inl ⟨rfl, if_pos rfl⟩
    | some content => exact .inr ⟨content, rfl, if_pos rfl, rfl⟩
  · intro near far less bound nearPresent
    exact absurd (ring near (Nat.lt_trans less bound)) nearPresent

/-! ## Runs -/

/-- What the main file may be after these calls: what the last one that was done wrote, or
one that was stopped behind it. -/
def standing (initial : Entry) (ended : List (Bytes × Ending)) : List Entry :=
  ended.foldl (fun allowed call =>
    match call.2 with
    | .done _ => [.file call.1]
    | .failed => allowed
    | .stopped => .file call.1 :: allowed) [initial]

/-- What a call has done by the time of an operation. -/
def Underway (path : String) (initial : Entry) (writer : Writer) (call : Call) : Phase → Prop
  | .syncDirectory => writer.disk.entries path = .file call.bytes
  | .shift slot =>
      writer.disk.entries path ∈ standing initial writer.ended ∧
        (∃ content, writer.disk.entries path = .file content) ∧ 1 ≤ slot ∧ slot < backupSlots
  | .age | .openCopy =>
      writer.disk.entries path ∈ standing initial writer.ended ∧
        ∃ content, writer.disk.entries path = .file content
  | .write written =>
      writer.disk.entries path ∈ standing initial writer.ended ∧
        writer.disk.entries (tempPath path call.temp) = .file (call.bytes.take written)
  | .sync =>
      writer.disk.entries path ∈ standing initial writer.ended ∧
        writer.disk.entries (tempPath path call.temp) = .file call.bytes
  | .rename =>
      writer.disk.entries path ∈ standing initial writer.ended ∧
        writer.disk.entries (tempPath path call.temp) = .file call.bytes ∧
        writer.disk.dirty (tempPath path call.temp) = false
  | .copy _ =>
      writer.disk.entries path ∈ standing initial writer.ended ∧
        writer.origins 0 = writer.mains.length - 1
  | _ => writer.disk.entries path ∈ standing initial writer.ended

structure Sound (path : String) (initial : Entry) (writer : Writer) : Prop where
  intact : Intact path writer.disk writer.mains writer.origins
  idle : writer.running = none → writer.disk.entries path ∈ standing initial writer.ended
  underway : ∀ call phase, writer.running = some (call, phase) →
    Underway path initial writer call phase

section Steps

variable {initial : Entry} {writer : Writer} {call : Call} {outcome : Outcome}

theorem standing_append (ended : List (Bytes × Ending)) (bytes : Bytes) (ending : Ending) :
    standing initial (ended ++ [(bytes, ending)]) =
      match ending with
      | .done _ => [.file bytes]
      | .failed => standing initial ended
      | .stopped => .file bytes :: standing initial ended := by
  rw [standing, List.foldl_append, ← standing]
  rfl

theorem Sound.enter {phase : Phase} (intact : Intact path writer.disk writer.mains writer.origins)
    (underway : Underway path initial writer call phase) :
    Sound path initial (writer.enter call phase) := by
  refine ⟨intact, nofun, ?_⟩
  intro other otherPhase same
  cases same
  cases phase <;> exact underway

theorem Sound.finish {ending : Ending}
    (intact : Intact path writer.disk writer.mains writer.origins)
    (stands : writer.disk.entries path ∈ standing initial
      (writer.ended ++ [(call.bytes, ending)])) :
    Sound path initial (writer.finish call ending) :=
  ⟨intact, fun _ => stands, nofun⟩

theorem Sound.fail (intact : Intact path writer.disk writer.mains writer.origins)
    (stands : writer.disk.entries path ∈ standing initial writer.ended) :
    Sound path initial (writer.finish call .failed) :=
  .finish intact (by rw [standing_append]; exact stands)

theorem Underway.stands {phase : Phase} (underway : Underway path initial writer call phase)
    (before : phase ≠ .syncDirectory) :
    writer.disk.entries path ∈ standing initial writer.ended := by
  cases phase with
  | syncDirectory => exact absurd rfl before
  | age | openCopy | write | sync | rename | copy | shift => exact underway.1
  | _ => exact underway

theorem file_of_ne_absent (intact : Intact path writer.disk writer.mains writer.origins)
    (present : writer.disk.entries path ≠ .absent) :
    ∃ content, writer.disk.entries path = .file content := by
  rcases intact.main with ⟨-, absent⟩ | ⟨content, -, file, -⟩
  · exact absurd absent present
  · exact ⟨content, file⟩

theorem shiftSlot_sound {slot : Nat} (ok : Bool)
    (intact : Intact path writer.disk writer.mains writer.origins) (positive : 1 ≤ slot)
    (bound : slot < backupSlots) :
    Intact path (shiftSlot path writer slot ok).disk (shiftSlot path writer slot ok).mains
        (shiftSlot path writer slot ok).origins ∧
      (shiftSlot path writer slot ok).disk.entries path = writer.disk.entries path ∧
      (shiftSlot path writer slot ok).ended = writer.ended := by
  rw [shiftSlot]
  split
  · refine ⟨intact.shift positive bound, ?_, rfl⟩
    have sourceBound : slot - 1 < backupSlots := by omega
    exact (Function.update_of_ne (backupPath_ne_path sourceBound).symm _ _).trans
      (Function.update_of_ne (backupPath_ne_path bound).symm _ _)
  · exact ⟨intact, rfl, rfl⟩

theorem entries_set_temp {disk : Disk} (id : Uuid) (entry : Entry) (dirty : Bool) :
    (disk.set (tempPath path id) entry dirty).entries path = disk.entries path :=
  Function.update_of_ne (tempPath_ne_path id).symm _ _

theorem advance_sound {phase : Phase}
    (intact : Intact path writer.disk writer.mains writer.origins)
    (underway : Underway path initial writer call phase) :
    Sound path initial (advance path writer call outcome phase) := by
  cases phase with
  | validate =>
      rw [advance]
      split
      · exact .enter intact underway
      · exact .fail intact underway
  | compare =>
      rw [advance]
      split
      · next same =>
          refine .finish intact ?_
          rw [standing_append, same.2]
          exact List.mem_singleton.mpr rfl
      · exact .enter intact underway
  | validateRing =>
      rw [advance]
      split
      · exact .enter intact underway
      · exact .fail intact underway
  | present =>
      rw [advance]
      split
      · next present => exact .enter intact ⟨underway, file_of_ne_absent intact present.2⟩
      · exact .enter intact underway
  | age =>
      obtain ⟨stands, file⟩ := underway
      rw [advance]
      split
      · exact .enter intact ⟨stands, file, by decide, by decide⟩
      · exact .enter intact stands
  | shift slot =>
      obtain ⟨stands, file, positive, bound⟩ := underway
      obtain ⟨shifted, main, ended⟩ := shiftSlot_sound outcome.ok intact positive bound
      rw [advance]
      rw [← main, ← ended] at stands
      rw [← main] at file
      split
      · exact .enter shifted ⟨stands, file⟩
      · exact .enter shifted ⟨stands, file, by omega, by omega⟩
  | openCopy =>
      obtain ⟨stands, content, file⟩ := underway
      rw [advance]
      split
      · have last := (intact.main_file file).1
        refine ⟨intact.copy last (List.nil_prefix), nofun, ?_⟩
        intro other phase same
        cases same
        have main : (writer.disk.write (newest path) []).entries path = writer.disk.entries path :=
          Function.update_of_ne (backupPath_ne_path (by decide)).symm _ _
        rw [← main] at stands
        refine ⟨stands, ?_⟩
        dsimp only
        rw [Function.update_self]
      · exact .enter intact stands
  | copy copied =>
      obtain ⟨stands, origin⟩ := underway
      rw [advance]
      split
      · next content file =>
          split
          · have last := (intact.main_file file).1
            have copy := intact.copy last (List.take_prefix (copied + outcome.count) content)
            rw [← origin, Function.update_eq_self] at copy
            have main : (writer.disk.write (newest path)
                (content.take (copied + outcome.count))).entries path = writer.disk.entries path :=
              Function.update_of_ne (backupPath_ne_path (by decide)).symm _ _
            refine ⟨copy, nofun, ?_⟩
            intro other phase same
            cases same
            rw [← main] at stands
            split
            · exact stands
            · exact ⟨stands, origin⟩
          · exact .enter intact stands
      · exact .enter intact stands
  | directory =>
      rw [advance]
      split
      · exact .enter intact underway
      · exact .fail intact underway
  | create =>
      rw [advance]
      split
      · refine ⟨intact.set_temp call.temp (.file []) true, nofun, ?_⟩
        intro other phase same
        cases same
        refine ⟨?_, Function.update_self ..⟩
        rw [Disk.write, entries_set_temp]
        exact underway
      · exact .enter intact underway
  | write written =>
      obtain ⟨stands, -⟩ := underway
      rw [advance]
      split
      · refine ⟨intact.set_temp call.temp _ true, nofun, ?_⟩
        intro other phase same
        cases same
        rw [← @entries_set_temp path writer.disk call.temp
          (.file (call.bytes.take (written + outcome.count))) true] at stands
        split
        · next whole =>
            refine ⟨stands, (Function.update_self ..).trans ?_⟩
            rw [List.take_of_length_le whole]
        · exact ⟨stands, Function.update_self ..⟩
      · exact .enter intact stands
  | sync =>
      obtain ⟨stands, file⟩ := underway
      rw [advance]
      split
      · refine ⟨intact.set_temp call.temp _ false, nofun, ?_⟩
        intro other phase same
        cases same
        refine ⟨?_, (Function.update_self ..).trans file, Function.update_self ..⟩
        rw [Disk.sync, entries_set_temp]
        exact stands
      · exact .enter intact stands
  | rename =>
      obtain ⟨stands, file, synced⟩ := underway
      rw [advance]
      split
      · refine ⟨intact.replace file synced, nofun, ?_⟩
        intro other phase same
        cases same
        exact ((Function.update_of_ne (tempPath_ne_path call.temp).symm _ _).trans
          (Function.update_self ..)).trans file
      · exact .enter intact stands
  | syncDirectory =>
      rw [advance]
      refine .finish intact ?_
      rw [standing_append, underway]
      exact List.mem_singleton.mpr rfl
  | cleanUp =>
      rw [advance]
      split
      · apply Sound.fail (intact.set_temp call.temp .absent false)
        dsimp only
        rw [Disk.remove, entries_set_temp]
        exact underway
      · exact .fail intact underway

theorem lose_main (intact : Intact path writer.disk writer.mains writer.origins)
    (kept : String → Nat) : (writer.disk.lose kept).entries path = writer.disk.entries path := by
  rcases intact.main with ⟨-, absent⟩ | ⟨content, -, file, synced⟩
  · rw [Disk.lose]
    dsimp only
    rw [absent]
  · rw [Disk.lose]
    dsimp only
    rw [file, synced]
    rfl

theorem stepWriter_sound (sound : Sound path initial writer) (event : Event) :
    Sound path initial (stepWriter path writer event) := by
  cases event with
  | call call =>
      rw [stepWriter]
      split
      · next idle => exact .enter sound.intact (sound.idle idle)
      · exact sound
  | proceed outcome =>
      rw [stepWriter]
      split
      · exact sound
      · next call phase running => exact advance_sound sound.intact (sound.underway _ _ running)
  | stop kept =>
      have intact := sound.intact.lose kept
      have main := lose_main sound.intact kept
      rw [stepWriter]
      dsimp only
      split
      · next idle =>
          refine ⟨intact, fun _ => ?_, ?_⟩
          · dsimp only
            rw [main]
            exact sound.idle idle
          · intro call phase running
            cases idle.symm.trans running
      · next call phase running =>
          refine .finish intact ?_
          dsimp only
          rw [standing_append, main]
          by_cases replaced : phase = .syncDirectory
          · have file := sound.underway call phase running
            rw [replaced] at file
            rw [show writer.disk.entries path = .file call.bytes from file]
            exact List.mem_cons_self ..
          · exact List.mem_cons_of_mem _ ((sound.underway call phase running).stands replaced)

theorem sound_run (initial : Option Bytes) (events : List Event) :
    Sound path (initial.elim .absent .file)
      ((writes path).run (startWriter path initial) events) := by
  apply (writes path).run_invariant (Sound path (initial.elim .absent .file))
  · exact fun writer event sound => stepWriter_sound sound event
  · refine ⟨intact_start initial, fun _ => ?_, nofun⟩
    exact List.mem_singleton.mpr (if_pos rfl)

end Steps

end TerminalCanvas.Layout
