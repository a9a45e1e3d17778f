import TerminalCanvas.Runtime.PromptDelivery

/-! # What was accepted of a session's input

The accepted inputs and the receipts agree in every reachable world, and the slots hold
what was neither accepted nor refused. -/

namespace TerminalCanvas.Runtime.PromptDelivery

open Terminal

def Source.ticket? : Source → Option Nat
  | .prompt ticket => some ticket
  | _ => none

def tickets (written : List Written) : List Nat :=
  written.filterMap (·.source.ticket?)

/-- The receipts and the accepted inputs agree. -/
structure Ledger (receipts : Receipts String PromptError) (written : List Written)
    (submitted : Nat) : Prop where
  tracks : receipts.Tracks (tickets written)
  once : (written.map Written.source).Nodup
  numbered : ∀ number, .direct number ∈ written.map Written.source → number < submitted
  first : ∀ entry ∈ written.tail, entry.source ≠ .startup
  quiet : ∀ entry ∈ written, entry.source ≠ .startup → entry.startupPending = false
  texts : ∀ entry ∈ written, ∀ ticket, entry.source = .prompt ticket →
    ∃ text mode, receipts.item ticket = some text ∧ entry.bytes = agentPromptBytes text mode

namespace Ledger

variable {receipts : Receipts String PromptError} {written : List Written} {submitted : Nat}
  {ticket : Nat}

theorem empty : Ledger [] [] 0 where
  tracks := Receipts.tracks_nil
  once := List.nodup_nil
  numbered _ member := by cases member
  first _ member := by cases member
  quiet _ member := by cases member
  texts _ member := by cases member

theorem mem_tickets_iff :
    ticket ∈ tickets written ↔ .prompt ticket ∈ written.map Written.source := by
  simp only [tickets, List.mem_filterMap, List.mem_map]
  constructor
  · rintro ⟨entry, member, issued⟩
    refine ⟨entry, member, ?_⟩
    cases source : entry.source with
    | prompt other => rw [source] at issued; rw [Option.some.inj issued]
    | startup => rw [source] at issued; cases issued
    | direct number => rw [source] at issued; cases issued
  · rintro ⟨entry, member, source⟩
    exact ⟨entry, member, by rw [source]; rfl⟩

theorem withReceipts (ledger : Ledger receipts written submitted)
    {changed : Receipts String PromptError} (tracks : changed.Tracks (tickets written))
    (items : ∀ ticket text, receipts.item ticket = some text → changed.item ticket = some text) :
    Ledger changed written submitted where
  tracks := tracks
  once := ledger.once
  numbered := ledger.numbered
  first := ledger.first
  quiet := ledger.quiet
  texts entry member ticket source := by
    obtain ⟨text, mode, item, bytes⟩ := ledger.texts entry member ticket source
    exact ⟨text, mode, items ticket text item, bytes⟩

theorem append (ledger : Ledger receipts written submitted) {entry : Written}
    (fresh : entry.source ∉ written.map Written.source) (notStartup : entry.source ≠ .startup)
    (quiet : entry.startupPending = false) {changed : Receipts String PromptError} {count : Nat}
    (tracks : changed.Tracks (tickets (written ++ [entry])))
    (items : ∀ ticket text, receipts.item ticket = some text → changed.item ticket = some text)
    (numbered : submitted ≤ count ∧ ∀ number, entry.source = .direct number → number < count)
    (texts : ∀ ticket, entry.source = .prompt ticket →
      ∃ text mode, changed.item ticket = some text ∧ entry.bytes = agentPromptBytes text mode) :
    Ledger changed (written ++ [entry]) count where
  tracks := tracks
  once := by
    rw [List.map_append, List.nodup_append]
    refine ⟨ledger.once, by simp, fun source member last isLast equal => fresh ?_⟩
    rw [List.map_singleton, List.mem_singleton] at isLast
    exact isLast ▸ equal ▸ member
  numbered number member := by
    rw [List.map_append, List.mem_append, List.map_singleton, List.mem_singleton] at member
    rcases member with earlier | last
    · exact Nat.lt_of_lt_of_le (ledger.numbered number earlier) numbered.1
    · exact numbered.2 number last.symm
  first other member := by
    cases written with
    | nil => cases member
    | cons head rest =>
        rw [List.cons_append, List.tail_cons, List.mem_append, List.mem_singleton] at member
        rcases member with earlier | rfl
        · exact ledger.first other earlier
        · exact notStartup
  quiet other member source := by
    rw [List.mem_append, List.mem_singleton] at member
    rcases member with earlier | rfl
    · exact ledger.quiet other earlier source
    · exact quiet
  texts other member ticket source := by
    rw [List.mem_append, List.mem_singleton] at member
    rcases member with earlier | rfl
    · obtain ⟨text, mode, item, bytes⟩ := ledger.texts other earlier ticket source
      exact ⟨text, mode, items ticket text item, bytes⟩
    · exact texts ticket source

theorem acceptStartup (ledger : Ledger receipts [] submitted) (bytes : Bytes) (pending : Bool) :
    Ledger receipts [⟨.startup, bytes, pending⟩] submitted where
  tracks := ledger.tracks
  once := by simp
  numbered number member := by simp at member
  first _ member := by cases member
  quiet entry member source := by
    rw [List.mem_singleton.mp member] at source
    exact absurd rfl source
  texts entry member ticket source := by
    rw [List.mem_singleton.mp member] at source
    cases source

theorem acceptDirect (ledger : Ledger receipts written submitted) (bytes : Bytes) :
    Ledger receipts (written ++ [⟨.direct submitted, bytes, false⟩]) (submitted + 1) := by
  have fresh : .direct submitted ∉ written.map Written.source :=
    fun member => Nat.lt_irrefl _ (ledger.numbered submitted member)
  refine ledger.append fresh (by simp) rfl ?_ (fun _ _ item => item)
    ⟨Nat.le_succ _, fun number source => ?_⟩ (fun ticket source => by cases source)
  · simpa [tickets, Source.ticket?] using ledger.tracks
  · obtain rfl := Source.direct.inj source
    exact Nat.lt_succ_self _

theorem acceptPrompt (ledger : Ledger receipts written submitted) {text : String}
    (waiting : receipts.channel ticket = some .waiting)
    (item : receipts.item ticket = some text) (mode : InputMode) :
    Ledger (receipts.resolve ticket (.ok ()))
      (written ++ [⟨.prompt ticket, agentPromptBytes text mode, false⟩]) submitted := by
  have items : ∀ other, (receipts.resolve ticket (.ok ())).item other = receipts.item other :=
    fun other => Receipts.item_modify _ fun _ => rfl
  have fresh : .prompt ticket ∉ written.map Written.source := by
    rw [← mem_tickets_iff]
    exact ledger.tracks.not_mem_of_waiting waiting
  refine ledger.append fresh (by simp) rfl ?_ (fun other _ found => (items other).trans found)
    ⟨Nat.le_refl _, fun number source => by cases source⟩ fun other source => ?_
  · simpa [tickets, Source.ticket?] using ledger.tracks.accept waiting
  · obtain rfl := Source.prompt.inj source
    exact ⟨text, mode, (items ticket).trans item, rfl⟩

theorem moreSubmitted (ledger : Ledger receipts written submitted) :
    Ledger receipts written (submitted + 1) :=
  { ledger with numbered := fun number member => Nat.lt_succ_of_lt (ledger.numbered number member) }

theorem modify (ledger : Ledger receipts written submitted)
    {change : Receipt String PromptError → Receipt String PromptError}
    (items : ∀ receipt, (change receipt).item = receipt.item)
    (tracks : Receipts.Tracks (receipts.modify ticket change) (tickets written)) :
    Ledger (receipts.modify ticket change) written submitted :=
  ledger.withReceipts tracks fun _ _ item => (Receipts.item_modify change items).trans item

theorem refuse (ledger : Ledger receipts written submitted)
    (waiting : receipts.channel ticket = some .waiting) (error : PromptError) :
    Ledger (receipts.resolve ticket (.error error)) written submitted :=
  ledger.modify (fun _ => rfl) (ledger.tracks.refuse waiting error)

theorem close (ledger : Ledger receipts written submitted)
    (waiting : receipts.channel ticket = some .waiting) :
    Ledger (receipts.close ticket) written submitted :=
  ledger.modify (fun _ => rfl) (ledger.tracks.close waiting)

theorem item_issue {text : String} (found : receipts.item ticket = some text) (other : String) :
    (receipts.issue other).item ticket = some text := by
  rw [Receipts.item, Option.map_eq_some_iff] at found ⊢
  obtain ⟨receipt, present, item⟩ := found
  have inside := (List.getElem?_eq_some_iff.mp present).1
  exact ⟨receipt, by rw [Receipts.issue, List.getElem?_append_left inside, present], item⟩

theorem issue (ledger : Ledger receipts written submitted) (text : String) :
    Ledger (receipts.issue text) written submitted :=
  ledger.withReceipts (ledger.tracks.issue text) fun _ _ found => item_issue found text

end Ledger

end TerminalCanvas.Runtime.PromptDelivery
