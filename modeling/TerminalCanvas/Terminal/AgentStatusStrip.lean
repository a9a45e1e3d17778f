import TerminalCanvas.Terminal.AgentStatus

/-! # What the interceptor cuts out

Only whole sequences leave the stream, and where it was cut into chunks does not
matter. -/

namespace TerminalCanvas.Terminal

/-! ## Sequences -/

structure Introducer (code : Nat) (digits : Bytes) : Prop where
  known : code = oscCodeAgentStatus ∨ code = oscCodeCwd
  decimal : ∀ digit ∈ digits, isAsciiDigit digit = true
  short : digits.length ≤ maxCodeDigits
  denotes : parseCode digits = some code

def Segment (bytes : Bytes) : Prop :=
  ∃ code digits payload, Introducer code digits ∧ bel ∉ payload ∧ esc ∉ payload ∧
    bytes = esc :: bracket :: (digits ++ semicolon :: payload)

/-- Another escape sequence follows, or the input ends. -/
def Aborts (bytes : Bytes) : Prop :=
  bytes = [] ∨ ∃ later, bytes = esc :: later ∧ later.head? ≠ some backslash

/-- In front of `following`, the second string is the first with some sequences cut
out and nothing else changed. -/
inductive Strips (following : Bytes) : Bytes → Bytes → Prop
  | nil : Strips following [] []
  | keep (byte : UInt8) {input rest : Bytes} (strips : Strips following input rest) :
      Strips following (byte :: input) (byte :: rest)
  | bell {segment input rest : Bytes} (cut : Segment segment)
      (strips : Strips following input rest) :
      Strips following (segment ++ bel :: input) rest
  | terminator {segment input rest : Bytes} (cut : Segment segment)
      (strips : Strips following input rest) :
      Strips following (segment ++ esc :: backslash :: input) rest
  | abort {segment input rest : Bytes} (cut : Segment segment)
      (aborts : Aborts (input ++ following)) (strips : Strips following input rest) :
      Strips following (segment ++ input) rest

namespace Strips

theorem keepAll (following bytes : Bytes) : Strips following bytes bytes := by
  induction bytes with
  | nil => exact .nil
  | cons byte bytes induction => exact .keep byte induction

theorem append {following first second restFirst restSecond : Bytes}
    (former : Strips (second ++ following) first restFirst)
    (latter : Strips following second restSecond) :
    Strips following (first ++ second) (restFirst ++ restSecond) := by
  induction former with
  | nil => exact latter
  | keep byte _ induction => exact .keep byte induction
  | bell cut _ induction =>
      rw [List.append_assoc]
      exact .bell cut induction
  | terminator cut _ induction =>
      rw [List.append_assoc]
      exact .terminator cut induction
  | abort cut aborts _ induction =>
      rw [List.append_assoc]
      rw [← List.append_assoc] at aborts
      exact .abort cut aborts induction

end Strips

/-! ## What the interceptor holds -/

/-- The last bytes of the input that are neither let through nor cut out yet. -/
inductive Holds (stream : AgentStatusStream) : Bytes → Prop
  | plain (seq : stream.seq = []) (code : stream.oscCode = none)
      (expects : stream.expectSt = false) : Holds stream []
  | escape (seq : stream.seq = [esc]) (code : stream.oscCode = none)
      (expects : stream.expectSt = false) : Holds stream [esc]
  | introducer (digits : Bytes) (seq : stream.seq = esc :: bracket :: digits)
      (decimal : ∀ digit ∈ digits, isAsciiDigit digit = true)
      (short : digits.length ≤ maxCodeDigits) (code : stream.oscCode = none)
      (expects : stream.expectSt = false) : Holds stream (esc :: bracket :: digits)
  | payload (code : Nat) (known : code = oscCodeAgentStatus ∨ code = oscCodeCwd)
      (segment : Bytes) (cut : Segment segment) (seq : stream.seq = [])
      (captures : stream.oscCode = some code) (expects : stream.expectSt = false) :
      Holds stream segment
  | ending (segment : Bytes) (cut : Segment segment) (seq : stream.seq = [])
      (code : stream.oscCode = none) (expects : stream.expectSt = true) :
      Holds stream (segment ++ [esc])

/-- The bytes still to be let through if the input ends here. -/
def AgentStatusStream.pending (stream : AgentStatusStream) : Bytes :=
  stream.seq ++ if stream.expectSt then [esc] else []

theorem Holds.strips {stream : AgentStatusStream} {held : Bytes} (holds : Holds stream held) :
    Strips [] held stream.pending := by
  unfold AgentStatusStream.pending
  cases holds with
  | plain seq code expects => simpa [seq, expects] using Strips.nil
  | escape seq code expects => simpa [seq, expects] using Strips.keepAll [] [esc]
  | introducer digits seq decimal short code expects =>
      simpa [seq, expects] using Strips.keepAll [] (esc :: bracket :: digits)
  | payload code known _ cut seq captures expects =>
      have ends : Strips [] (held ++ []) [] := .abort cut (.inl rfl) .nil
      simpa [seq, expects] using ends
  | ending segment cut seq code expects =>
      have ends : Strips [] (segment ++ [esc]) [esc] :=
        .abort cut (.inr ⟨[], rfl, by simp⟩) (.keepAll [] [esc])
      simpa [seq, expects] using ends

/-! ## One byte -/

namespace Turn

/-- Some of the held bytes are settled: let through or cut out. -/
def Settles (turn next : Turn) (held : Bytes) : Prop :=
  ∃ settled out held', held = settled ++ held' ∧ next.clean = turn.clean ++ out ∧
    (∀ later, Strips (held' ++ later) settled out) ∧ Holds next.stream held'

variable {turn : Turn}

theorem settles_none {next : Turn} {held : Bytes} (clean : next.clean = turn.clean)
    (holds : Holds next.stream held) : turn.Settles next held :=
  ⟨[], [], held, rfl, by rw [clean, List.append_nil], fun _ => .nil, holds⟩

theorem Settles.of_clean {earlier next : Turn} {held : Bytes}
    (settles : earlier.Settles next held) (clean : earlier.clean = turn.clean) :
    turn.Settles next held := by
  rw [Settles, clean] at settles
  exact settles

theorem settles_plain {next : Turn} {held : Bytes} (out : Bytes)
    (clean : next.clean = turn.clean ++ out)
    (strips : ∀ later, Strips later held out) (holds : Holds next.stream []) :
    turn.Settles next held :=
  ⟨held, out, [], (List.append_nil held).symm, clean, strips, holds⟩

theorem settles_discharge (code : turn.stream.oscCode = none)
    (expects : turn.stream.expectSt = false) : turn.Settles turn.discharge turn.stream.seq :=
  settles_plain _ rfl (fun _ => .keepAll _ _) (.plain rfl code expects)

theorem segment_nil {digits : Bytes} {code : Nat}
    (known : code = oscCodeAgentStatus ∨ code = oscCodeCwd)
    (decimal : ∀ digit ∈ digits, isAsciiDigit digit = true)
    (short : digits.length ≤ maxCodeDigits) (parsed : parseCode digits = some code) :
    Segment (esc :: bracket :: (digits ++ [semicolon])) :=
  ⟨code, digits, [], ⟨known, decimal, short, parsed⟩, by simp, by simp, rfl⟩

theorem classifySeq_introducer {digits : Bytes} {byte : UInt8}
    (seq : turn.stream.seq = esc :: bracket :: (digits ++ [byte]))
    (decimal : ∀ digit ∈ digits, isAsciiDigit digit = true)
    (short : digits.length ≤ maxCodeDigits) (code : turn.stream.oscCode = none)
    (expects : turn.stream.expectSt = false) :
    turn.Settles turn.classifySeq turn.stream.seq := by
  have noneOther : digits.find? (fun digit => !isAsciiDigit digit) = none := by
    rw [List.find?_eq_none]
    intro digit member
    simp [decimal digit member]
  have body : turn.stream.seq.drop 2 = digits ++ [byte] := by rw [seq]; rfl
  have second : turn.stream.seq.getD 1 0 = bracket := by rw [seq]; rfl
  have long : turn.stream.seq.length ≠ 1 := by rw [seq]; simp
  unfold classifySeq
  simp only [if_neg long, body, second, ne_eq, not_true_eq_false, if_false, List.isEmpty_iff,
    List.append_eq_nil_iff, List.cons_ne_self, and_false, List.find?_append, noneOther,
    Option.none_or, List.dropLast_concat]
  by_cases digit : isAsciiDigit byte = true
  · have none : [byte].find? (fun byte => !isAsciiDigit byte) = none := by simp [digit]
    simp only [none]
    split
    · exact settles_discharge code expects
    · next fits =>
        refine settles_none rfl ?_
        rw [seq]
        refine .introducer (digits ++ [byte]) seq ?_ (by omega) code expects
        intro other member
        rcases List.mem_append.mp member with earlier | last
        · exact decimal other earlier
        · rw [List.mem_singleton.mp last]
          exact digit
  · have found : [byte].find? (fun byte => !isAsciiDigit byte) = some byte := by simp [digit]
    simp only [found]
    split
    · next separator =>
        split
        · next value parsed =>
            split
            · next known =>
                refine settles_none rfl ?_
                rw [seq, separator]
                exact .payload value known _ (segment_nil known decimal short parsed) rfl rfl
                  expects
            · exact settles_discharge code expects
        · exact settles_discharge code expects
    · exact settles_discharge code expects

theorem classifySeq_escape {byte : UInt8} (seq : turn.stream.seq = [esc, byte])
    (code : turn.stream.oscCode = none) (expects : turn.stream.expectSt = false) :
    turn.Settles turn.classifySeq turn.stream.seq := by
  by_cases introduces : byte = bracket
  · have unchanged : turn.classifySeq = turn := by simp [classifySeq, seq, introduces]
    rw [unchanged]
    refine settles_none rfl ?_
    rw [seq, introduces]
    exact .introducer [] (by rw [seq, introduces]) (fun _ member => nomatch member)
      (Nat.zero_le _) code expects
  · by_cases again : byte = esc
    · have moved : turn.classifySeq =
          { turn with stream.seq := [esc], clean := turn.clean ++ [esc] } := by
        simp [classifySeq, seq, again, esc, bracket]
      rw [moved, seq, again]
      exact ⟨[esc], [esc], [esc], rfl, rfl, fun _ => .keepAll _ _, .escape rfl code expects⟩
    · have discharged : turn.classifySeq = turn.discharge := by
        simp [classifySeq, seq, introduces, again]
      rw [discharged]
      exact settles_discharge code expects

theorem Settles.behind {next : Turn} {segment : Bytes} {byte : UInt8} (cut : Segment segment)
    (other : byte ≠ backslash) (settles : turn.Settles next [esc, byte]) :
    turn.Settles next (segment ++ [esc, byte]) := by
  obtain ⟨settled, out, held, split, clean, strips, holds⟩ := settles
  refine ⟨segment ++ settled, out, held, by rw [split, List.append_assoc], clean, ?_, holds⟩
  intro later
  refine .abort cut (.inr ⟨byte :: later, ?_, by simpa using other⟩) (strips later)
  rw [← List.append_assoc, ← split]
  rfl

variable (fromSlice : FromSlice) (nowMs : Int)

theorem finishPayload_frame (turn : Turn) (code : Nat) :
    (turn.finishPayload fromSlice nowMs code).clean = turn.clean ∧
      (turn.finishPayload fromSlice nowMs code).stream =
        { turn.stream with oscCode := none, truncated := false, payload := [] } := by
  unfold finishPayload
  dsimp only
  split
  · split
    · exact ⟨rfl, rfl⟩
    · split <;> exact ⟨rfl, rfl⟩
  · exact ⟨rfl, rfl⟩

theorem payloadByte_settles {segment : Bytes} (cut : Segment segment) (byte : UInt8) {code : Nat}
    (known : code = oscCodeAgentStatus ∨ code = oscCodeCwd) (seq : turn.stream.seq = [])
    (captures : turn.stream.oscCode = some code) (expects : turn.stream.expectSt = false) :
    turn.Settles (turn.payloadByte fromSlice nowMs byte code) (segment ++ [byte]) := by
  obtain ⟨clean, stream⟩ := finishPayload_frame fromSlice nowMs turn code
  unfold payloadByte
  split
  · next bell =>
      refine settles_plain [] (by rw [clean, List.append_nil]) ?_ ?_
      · rw [bell]
        exact fun _ => .bell cut .nil
      · rw [stream]
        exact .plain seq rfl expects
  · next noBell =>
      split
      · next escapes =>
          rw [escapes]
          refine settles_none clean ?_
          refine .ending segment cut ?_ ?_ rfl
          · simp only [stream, seq]
          · simp only [stream]
      · next noEscape =>
          have longer : Segment (segment ++ [byte]) := by
            obtain ⟨value, digits, payload, introducer, withoutBell, withoutEscape, rfl⟩ := cut
            refine ⟨value, digits, payload ++ [byte], introducer, ?_, ?_, by simp⟩
            · simpa [withoutBell] using Ne.symm noBell
            · simpa [withoutEscape] using Ne.symm noEscape
          split
          · exact settles_none rfl (.payload code known _ longer seq captures expects)
          · exact settles_none rfl (.payload code known _ longer seq captures expects)

theorem processByte_settles {held : Bytes} (holds : Holds turn.stream held) (byte : UInt8) :
    turn.Settles (turn.processByte fromSlice nowMs byte) (held ++ [byte]) := by
  unfold processByte
  cases holds with
  | plain seq code expects =>
      simp only [expects, Bool.false_eq_true, if_false, code, seq, ne_eq, not_true_eq_false]
      split
      · next escapes =>
          rw [escapes]
          exact settles_none rfl (.escape rfl rfl rfl)
      · exact settles_plain _ rfl (fun _ => .keepAll _ _) (.plain seq code expects)
  | escape seq code expects =>
      simp only [expects, Bool.false_eq_true, if_false, code, seq, ne_eq, List.cons_ne_self,
        not_false_eq_true, if_true]
      exact (classifySeq_escape rfl rfl rfl).of_clean rfl
  | introducer digits seq decimal short code expects =>
      simp only [expects, Bool.false_eq_true, if_false, code, seq, ne_eq, reduceCtorEq,
        not_false_eq_true, if_true]
      exact (classifySeq_introducer rfl decimal short rfl rfl).of_clean rfl
  | payload code known _ cut seq captures expects =>
      simp only [expects, Bool.false_eq_true, if_false, captures]
      exact payloadByte_settles fromSlice nowMs cut byte known seq captures expects
  | ending segment cut seq code expects =>
      simp only [expects, if_true]
      split
      · next closes =>
          refine settles_plain [] (List.append_nil _).symm ?_ (.plain seq code rfl)
          rw [closes, List.append_assoc]
          exact fun _ => .terminator cut .nil
      · next other =>
          simp only [seq, code, List.nil_append, List.cons_append, List.append_assoc]
          refine Settles.behind cut other ?_
          exact (classifySeq_escape rfl rfl rfl).of_clean rfl

/-- The input so far is what was let through or cut out, and what is held. -/
def Tracks (input : Bytes) (turn : Turn) : Prop :=
  ∃ settled held, input = settled ++ held ∧ Holds turn.stream held ∧
    ∀ later, Strips (held ++ later) settled turn.clean

theorem tracks_processByte {input : Bytes} (tracks : Tracks input turn) (byte : UInt8) :
    Tracks (input ++ [byte]) (turn.processByte fromSlice nowMs byte) := by
  obtain ⟨settled, held, rfl, holds, strips⟩ := tracks
  obtain ⟨moved, out, held', split, clean, moves, holds'⟩ :=
    processByte_settles fromSlice nowMs holds byte
  refine ⟨settled ++ moved, held', ?_, holds', fun later => ?_⟩
  · rw [List.append_assoc, split, List.append_assoc]
  · rw [clean]
    refine Strips.append ?_ (moves later)
    rw [← List.append_assoc, ← split, List.append_assoc]
    exact strips _

theorem tracks_foldl {input : Bytes} (tracks : Tracks input turn) (bytes : Bytes) :
    Tracks (input ++ bytes) (bytes.foldl (processByte fromSlice nowMs) turn) := by
  induction bytes generalizing input turn with
  | nil => simpa using tracks
  | cons byte bytes induction =>
      rw [List.foldl_cons, List.append_cons]
      exact induction (tracks_processByte fromSlice nowMs tracks byte)

/-! ## Chunks -/

/-- A turn that goes on from the output of an earlier one. -/
def onto (earlier turn : Turn) : Turn :=
  ⟨turn.stream, earlier.clean ++ turn.clean, earlier.reports ++ turn.reports,
    earlier.cwds ++ turn.cwds⟩

@[simp] theorem stream_onto (earlier turn : Turn) : (earlier.onto turn).stream = turn.stream := rfl

theorem onto_start (turn : Turn) : turn.onto (.start turn.stream) = turn := by
  simp [onto, start]

theorem classifySeq_onto (earlier turn : Turn) :
    (earlier.onto turn).classifySeq = earlier.onto turn.classifySeq := by
  unfold classifySeq discharge
  dsimp only [stream_onto]
  repeat' split
  all_goals simp [onto]

theorem classifySeq_stream (earlier turn : Turn) (stream : AgentStatusStream) :
    classifySeq { earlier.onto turn with stream := stream } =
      earlier.onto (classifySeq { turn with stream := stream }) :=
  classifySeq_onto earlier { turn with stream := stream }

theorem finishPayload_onto (earlier turn : Turn) (code : Nat) :
    (earlier.onto turn).finishPayload fromSlice nowMs code =
      earlier.onto (turn.finishPayload fromSlice nowMs code) := by
  unfold finishPayload
  dsimp only [stream_onto]
  repeat' split
  all_goals simp [onto]

theorem payloadByte_onto (earlier turn : Turn) (byte : UInt8) (code : Nat) :
    (earlier.onto turn).payloadByte fromSlice nowMs byte code =
      earlier.onto (turn.payloadByte fromSlice nowMs byte code) := by
  unfold payloadByte
  rw [finishPayload_onto]
  split
  · rfl
  · split
    · rfl
    · rw [stream_onto]
      split <;> rfl

theorem processByte_onto (earlier turn : Turn) (byte : UInt8) :
    (earlier.onto turn).processByte fromSlice nowMs byte =
      earlier.onto (turn.processByte fromSlice nowMs byte) := by
  unfold processByte
  rw [stream_onto]
  split
  · split
    · rfl
    · exact classifySeq_stream earlier turn _
  · split
    · exact payloadByte_onto fromSlice nowMs earlier turn byte _
    · split
      · exact classifySeq_stream earlier turn _
      · split
        · rfl
        · simp [onto]

theorem foldl_plain {bytes : Bytes} (seq : turn.stream.seq = [])
    (code : turn.stream.oscCode = none) (expects : turn.stream.expectSt = false)
    (noEscape : esc ∉ bytes) :
    bytes.foldl (processByte fromSlice nowMs) turn =
      { turn with clean := turn.clean ++ bytes } := by
  induction bytes generalizing turn with
  | nil => simp
  | cons byte bytes induction =>
      rw [List.mem_cons, not_or] at noEscape
      have passed : turn.processByte fromSlice nowMs byte =
          { turn with clean := turn.clean ++ [byte] } := by
        simp [processByte, seq, code, expects, Ne.symm noEscape.1]
      rw [List.foldl_cons, passed]
      refine (induction ?_ ?_ ?_ noEscape.2).trans (by simp)
      · exact seq
      · exact code
      · exact expects

theorem foldl_onto (bytes : Bytes) (earlier turn : Turn) :
    bytes.foldl (processByte fromSlice nowMs) (earlier.onto turn) =
      earlier.onto (bytes.foldl (processByte fromSlice nowMs) turn) := by
  induction bytes generalizing turn with
  | nil => rfl
  | cons byte bytes induction =>
      rw [List.foldl_cons, processByte_onto, induction, List.foldl_cons]

end Turn

open Turn

variable (fromSlice : FromSlice) (nowMs : Int)

theorem process_eq_foldl (stream : AgentStatusStream) (chunk : Bytes) :
    stream.process fromSlice nowMs chunk =
      chunk.foldl (processByte fromSlice nowMs) (start stream) := by
  unfold AgentStatusStream.process
  split
  · next plain =>
      obtain ⟨seq, code, expects, noEscape⟩ := plain
      have passed : chunk.foldl (processByte fromSlice nowMs) (start stream) =
          { start stream with clean := [] ++ chunk } :=
        foldl_plain fromSlice nowMs seq code expects noEscape
      rw [passed]
      rfl
  · rfl

def AgentStatusStream.feed (stream : AgentStatusStream) (fromSlice : FromSlice) (nowMs : Int)
    (chunks : List Bytes) : Turn :=
  chunks.foldl (fun turn chunk => turn.onto (turn.stream.process fromSlice nowMs chunk))
    (start stream)

theorem feed_eq_process (stream : AgentStatusStream) (chunks : List Bytes) :
    stream.feed fromSlice nowMs chunks = stream.process fromSlice nowMs chunks.flatten := by
  rw [process_eq_foldl, AgentStatusStream.feed]
  generalize start stream = turn
  induction chunks generalizing turn with
  | nil => rfl
  | cons chunk chunks induction =>
      rw [List.foldl_cons, induction, List.flatten_cons, List.foldl_append, process_eq_foldl,
        ← foldl_onto, onto_start]

theorem tracks_new : Tracks [] (start .new) :=
  ⟨[], [], rfl, .plain rfl rfl rfl, fun _ => .nil⟩

theorem tracks_process (input : Bytes) :
    Tracks input (AgentStatusStream.new.process fromSlice nowMs input) := by
  rw [process_eq_foldl]
  exact tracks_foldl fromSlice nowMs tracks_new input

/-- The interceptor is transparent: chunks make no difference, and only status and
directory sequences leave the stream. -/
theorem interceptor_transparent (chunks : List Bytes) :
    AgentStatusStream.new.feed fromSlice nowMs chunks =
        AgentStatusStream.new.process fromSlice nowMs chunks.flatten ∧
      Strips [] chunks.flatten
        ((AgentStatusStream.new.feed fromSlice nowMs chunks).clean ++
          (AgentStatusStream.new.feed fromSlice nowMs chunks).stream.pending) := by
  rw [feed_eq_process]
  refine ⟨rfl, ?_⟩
  obtain ⟨settled, held, same, holds, strips⟩ := tracks_process fromSlice nowMs chunks.flatten
  generalize AgentStatusStream.new.process fromSlice nowMs chunks.flatten = turn at holds strips ⊢
  rw [same]
  exact (strips []).append holds.strips

end TerminalCanvas.Terminal
