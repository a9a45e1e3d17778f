import TerminalCanvas.Terminal.AgentStatusStrip

/-! # When a status sequence is intercepted

A whole sequence is cut out and parsed unless the stream broke off inside the
introducer of another one: the escape of the new sequence is then let through with
the broken introducer. -/

namespace TerminalCanvas.Terminal

inductive Terminator
  | bell
  | string
deriving DecidableEq, Repr

def Terminator.bytes : Terminator → Bytes
  | .bell => [bel]
  | .string => [esc, backslash]

def statusSequence (digits payload : Bytes) (terminator : Terminator) : Bytes :=
  [esc, bracket] ++ digits ++ [semicolon] ++ payload ++ terminator.bytes

variable (fromSlice : FromSlice) (nowMs : Int)

def captured (code : Nat) (payload : Bytes) : List AgentStatusReport × List String :=
  if code = oscCodeAgentStatus then
    ((parseAgentStatusPayload fromSlice payload nowMs).toList, [])
  else
    ([], (parseOsc7Cwd payload).toList)

/-- What an unfinished payload is parsed to when an escape ends it. -/
def AgentStatusStream.aborted (stream : AgentStatusStream) :
    List AgentStatusReport × List String :=
  match stream.oscCode with
  | some code =>
      if !stream.truncated && !stream.payload.isEmpty then
        captured fromSlice nowMs code stream.payload
      else
        ([], [])
  | none => ([], [])

/-- The sequence leaves nothing in the output, and its payload is parsed after what
the stream was still capturing. -/
def Intercepts (stream : AgentStatusStream) (code : Nat) (digits payload : Bytes)
    (terminator : Terminator) : Prop :=
  let turn := stream.process fromSlice nowMs (statusSequence digits payload terminator)
  turn.clean ++ turn.stream.pending = stream.pending ∧
    turn.reports = (stream.aborted fromSlice nowMs).1 ++ (captured fromSlice nowMs code payload).1 ∧
    turn.cwds = (stream.aborted fromSlice nowMs).2 ++ (captured fromSlice nowMs code payload).2

/-- The states after any input, whatever the parser and the clock answered. -/
inductive Reachable : AgentStatusStream → Prop
  | new : Reachable .new
  | process {stream : AgentStatusStream} (reached : Reachable stream) (fromSlice : FromSlice)
      (nowMs : Int) (chunk : Bytes) : Reachable (stream.process fromSlice nowMs chunk).stream

theorem Reachable.holds {stream : AgentStatusStream} (reached : Reachable stream) :
    ∃ held, Holds stream held := by
  induction reached with
  | new => exact ⟨[], .plain rfl rfl rfl⟩
  | @process stream _ fromSlice nowMs chunk induction =>
      obtain ⟨held, holds⟩ := induction
      have tracks : Turn.Tracks held (.start stream) :=
        ⟨[], held, rfl, holds, fun _ => .nil⟩
      obtain ⟨_, later, _, holds, _⟩ := Turn.tracks_foldl fromSlice nowMs tracks chunk
      rw [process_eq_foldl]
      exact ⟨later, holds⟩

namespace Turn

variable {turn : Turn}

theorem finishPayload_eq {turn : Turn} {code : Nat}
    (known : code = oscCodeAgentStatus ∨ code = oscCodeCwd)
    (captures : turn.stream.oscCode = some code) :
    turn.finishPayload fromSlice nowMs code =
      ⟨{ turn.stream with oscCode := none, truncated := false, payload := [] }, turn.clean,
        turn.reports ++ (turn.stream.aborted fromSlice nowMs).1,
        turn.cwds ++ (turn.stream.aborted fromSlice nowMs).2⟩ := by
  unfold finishPayload AgentStatusStream.aborted captured
  simp only [captures]
  rcases known with rfl | rfl
  · split <;> simp
  · split <;> simp [oscCodeAgentStatus, oscCodeCwd]

theorem opens {stream : AgentStatusStream} {held : Bytes} (holds : Holds stream held)
    (short : stream.seq.length ≤ 1) :
    ∃ next, [esc, bracket].foldl (processByte fromSlice nowMs) (start stream) = next ∧
      next.stream.seq = [esc, bracket] ∧ next.stream.oscCode = none ∧
      next.stream.expectSt = false ∧ next.clean = stream.pending ∧
      next.reports = (stream.aborted fromSlice nowMs).1 ∧
      next.cwds = (stream.aborted fromSlice nowMs).2 := by
  refine ⟨_, rfl, ?_⟩
  cases holds with
  | plain seq code expects =>
      simp [processByte, classifySeq, start, seq, code, expects, AgentStatusStream.pending,
        AgentStatusStream.aborted]
  | escape seq code expects =>
      simp [processByte, classifySeq, start, seq, code, expects, AgentStatusStream.pending,
        AgentStatusStream.aborted, esc, bracket]
  | introducer digits seq decimal short' code expects =>
      rw [seq] at short
      simp at short
  | payload code known _ cut seq captures expects =>
      have escaped : (start stream).processByte fromSlice nowMs esc =
          ⟨⟨[], none, true, [], false⟩, [], (stream.aborted fromSlice nowMs).1,
            (stream.aborted fromSlice nowMs).2⟩ := by
        simp [processByte, payloadByte, start, seq, captures, expects,
          finishPayload_eq fromSlice nowMs known, esc, bel]
      rw [List.foldl_cons, escaped]
      simp [processByte, classifySeq, AgentStatusStream.pending, seq, expects, bracket, backslash]
  | ending segment cut seq code expects =>
      simp [processByte, classifySeq, start, seq, code, expects, AgentStatusStream.pending,
        AgentStatusStream.aborted, esc, bracket, backslash]

theorem foldl_digits {turn : Turn} {earlier digits : Bytes}
    (seq : turn.stream.seq = esc :: bracket :: earlier) (code : turn.stream.oscCode = none)
    (expects : turn.stream.expectSt = false)
    (decimal : ∀ digit ∈ earlier ++ digits, isAsciiDigit digit = true)
    (short : (earlier ++ digits).length ≤ maxCodeDigits) :
    digits.foldl (processByte fromSlice nowMs) turn =
      { turn with stream.seq := esc :: bracket :: (earlier ++ digits) } := by
  induction digits generalizing turn earlier with
  | nil =>
      rw [List.append_nil, ← seq]
      rfl
  | cons digit digits induction =>
      have held : turn.processByte fromSlice nowMs digit =
          { turn with stream.seq := esc :: bracket :: (earlier ++ [digit]) } := by
        have noneOther : (earlier ++ [digit]).find? (fun byte => !isAsciiDigit byte) = none := by
          rw [List.find?_eq_none]
          intro byte member
          have known := decimal byte (by
            rcases List.mem_append.mp member with before | last
            · simp [before]
            · simp [List.mem_singleton.mp last])
          simp [known]
        have fits : ¬ maxCodeDigits < earlier.length + 1 := by
          simp only [List.length_append, List.length_cons] at short
          omega
        simp only [processByte, expects, Bool.false_eq_true, if_false, code, seq, ne_eq,
          reduceCtorEq, not_false_eq_true, if_true]
        simp [classifySeq, noneOther, fits]
      rw [List.foldl_cons, held]
      have more : earlier ++ digit :: digits = (earlier ++ [digit]) ++ digits := by simp
      rw [more] at decimal short ⊢
      refine (induction ?_ ?_ ?_ decimal short).trans rfl
      · rfl
      · exact code
      · exact expects

theorem processByte_separator {turn : Turn} {digits : Bytes} {code : Nat}
    (introducer : Introducer code digits)
    (seq : turn.stream.seq = esc :: bracket :: digits) (none : turn.stream.oscCode = none)
    (expects : turn.stream.expectSt = false) :
    turn.processByte fromSlice nowMs semicolon =
      { turn with stream := ⟨[], some code, false, [], false⟩ } := by
  have noneOther : digits.find? (fun byte => !isAsciiDigit byte) = .none := by
    rw [List.find?_eq_none]
    intro byte member
    simp [introducer.decimal byte member]
  have notDigit : isAsciiDigit semicolon = false := by decide
  simp only [processByte, expects, Bool.false_eq_true, if_false, none, seq, ne_eq, reduceCtorEq,
    not_false_eq_true, if_true]
  simp [classifySeq, noneOther, notDigit, introducer.denotes, introducer.known,
    List.find?_append]

theorem foldl_payload {turn : Turn} {code : Nat} {bytes : Bytes}
    (captures : turn.stream.oscCode = some code) (expects : turn.stream.expectSt = false)
    (fits : turn.stream.payload.length + bytes.length ≤ maxPayloadBytes)
    (noBell : bel ∉ bytes) (noEscape : esc ∉ bytes) :
    bytes.foldl (processByte fromSlice nowMs) turn =
      { turn with stream.payload := turn.stream.payload ++ bytes } := by
  induction bytes generalizing turn with
  | nil => simp
  | cons byte bytes induction =>
      rw [List.mem_cons, not_or] at noBell noEscape
      rw [List.length_cons] at fits
      have captured : turn.processByte fromSlice nowMs byte =
          { turn with stream.payload := turn.stream.payload ++ [byte] } := by
        have room : turn.stream.payload.length < maxPayloadBytes := by omega
        simp [processByte, payloadByte, expects, captures, Ne.symm noBell.1,
          Ne.symm noEscape.1, room]
      rw [List.foldl_cons, captured]
      refine (induction ?_ ?_ ?_ noBell.2 noEscape.2).trans (by simp)
      · exact captures
      · exact expects
      · simp only [List.length_append, List.length_singleton]
        omega

theorem foldl_terminator {turn : Turn} {code : Nat}
    (known : code = oscCodeAgentStatus ∨ code = oscCodeCwd) (seq : turn.stream.seq = [])
    (captures : turn.stream.oscCode = some code) (expects : turn.stream.expectSt = false)
    (whole : turn.stream.truncated = false) (filled : turn.stream.payload ≠ [])
    (terminator : Terminator) :
    terminator.bytes.foldl (processByte fromSlice nowMs) turn =
      ⟨⟨[], none, false, [], false⟩, turn.clean,
        turn.reports ++ (captured fromSlice nowMs code turn.stream.payload).1,
        turn.cwds ++ (captured fromSlice nowMs code turn.stream.payload).2⟩ := by
  have parsed : turn.stream.aborted fromSlice nowMs =
      captured fromSlice nowMs code turn.stream.payload := by
    simp [AgentStatusStream.aborted, captures, whole, filled]
  have finished := finishPayload_eq fromSlice nowMs known captures
  rw [parsed] at finished
  cases terminator with
  | bell =>
      simp [Terminator.bytes, processByte, payloadByte, expects, captures, finished, seq]
  | string =>
      simp [Terminator.bytes, processByte, payloadByte, expects, captures, finished, seq, esc,
        bel]

theorem escape_discharged {stream : AgentStatusStream} {digits : Bytes}
    (seq : stream.seq = esc :: bracket :: digits) (code : stream.oscCode = none)
    (expects : stream.expectSt = false)
    (decimal : ∀ digit ∈ digits, isAsciiDigit digit = true) :
    ((start stream).processByte fromSlice nowMs esc).clean = stream.seq ++ [esc] := by
  have noneOther : digits.find? (fun byte => !isAsciiDigit byte) = none := by
    rw [List.find?_eq_none]
    intro byte member
    simp [decimal byte member]
  have notDigit : isAsciiDigit esc = false := by decide
  have notSeparator : esc ≠ semicolon := by decide
  simp [processByte, classifySeq, discharge, start, seq, code, expects, noneOther, notDigit,
    notSeparator, List.find?_append]

theorem clean_foldl (turn : Turn) (bytes : Bytes) :
    ∃ more, (bytes.foldl (processByte fromSlice nowMs) turn).clean = turn.clean ++ more := by
  have from_start := foldl_onto fromSlice nowMs bytes turn (start turn.stream)
  rw [onto_start] at from_start
  exact ⟨_, congrArg Turn.clean from_start⟩

end Turn

open Turn

theorem intercepts_of_short {stream : AgentStatusStream} {held : Bytes}
    (holds : Holds stream held) (short : stream.seq.length ≤ 1) {code : Nat}
    {digits payload : Bytes} (introducer : Introducer code digits) (filled : payload ≠ [])
    (fits : payload.length ≤ maxPayloadBytes) (noBell : bel ∉ payload)
    (noEscape : esc ∉ payload) (terminator : Terminator) :
    Intercepts fromSlice nowMs stream code digits payload terminator := by
  obtain ⟨opened, opens, seq, none, expects, clean, reports, cwds⟩ :=
    Turn.opens fromSlice nowMs holds short
  have coded : digits.foldl (processByte fromSlice nowMs) opened =
      { opened with stream.seq := esc :: bracket :: digits } :=
    foldl_digits fromSlice nowMs seq none expects introducer.decimal introducer.short
  have separated : processByte fromSlice nowMs
      { opened with stream.seq := esc :: bracket :: digits } semicolon =
        { opened with stream := ⟨[], some code, false, [], false⟩ } :=
    processByte_separator fromSlice nowMs introducer rfl none expects
  have captures : payload.foldl (processByte fromSlice nowMs)
      { opened with stream := ⟨[], some code, false, [], false⟩ } =
        { opened with stream := ⟨[], some code, false, payload, false⟩ } :=
    foldl_payload fromSlice nowMs rfl rfl (by simpa using fits) noBell noEscape
  have ended : stream.process fromSlice nowMs (statusSequence digits payload terminator) =
      ⟨⟨[], .none, false, [], false⟩, opened.clean,
        opened.reports ++ (captured fromSlice nowMs code payload).1,
        opened.cwds ++ (captured fromSlice nowMs code payload).2⟩ := by
    rw [process_eq_foldl, statusSequence, List.foldl_append, List.foldl_append, List.foldl_append,
      List.foldl_append, opens, coded, List.foldl_cons, List.foldl_nil, separated, captures]
    exact foldl_terminator fromSlice nowMs introducer.known rfl rfl rfl rfl filled terminator
  rw [Intercepts, ended]
  exact ⟨by rw [clean]; simp [AgentStatusStream.pending], by rw [reports], by rw [cwds]⟩

theorem not_intercepts_of_broken {stream : AgentStatusStream} {held : Bytes}
    (holds : Holds stream held) (long : 1 < stream.seq.length) (code : Nat)
    (digits payload : Bytes) (terminator : Terminator) :
    ¬ Intercepts fromSlice nowMs stream code digits payload terminator := by
  rintro ⟨removed, -⟩
  cases holds with
  | introducer earlier seq decimal _ none expects =>
      have first := escape_discharged fromSlice nowMs seq none expects decimal
      obtain ⟨more, clean⟩ := clean_foldl fromSlice nowMs
        ((start stream).processByte fromSlice nowMs esc)
        ([bracket] ++ digits ++ [semicolon] ++ payload ++ terminator.bytes)
      rw [first] at clean
      have whole : (stream.process fromSlice nowMs
          (statusSequence digits payload terminator)).clean = stream.seq ++ [esc] ++ more := by
        rw [process_eq_foldl, ← clean]
        rfl
      rw [whole, AgentStatusStream.pending, AgentStatusStream.pending, expects] at removed
      have lengths := congrArg List.length removed
      simp at lengths
  | plain seq => simp [seq] at long
  | escape seq => simp [seq] at long
  | payload _ _ _ _ seq => simp [seq] at long
  | ending _ _ seq => simp [seq] at long

/-- A status sequence is intercepted exactly when no introducer was broken off. -/
theorem intercepts_iff {stream : AgentStatusStream} (reached : Reachable stream) {code : Nat}
    {digits payload : Bytes} (introducer : Introducer code digits) (filled : payload ≠ [])
    (fits : payload.length ≤ maxPayloadBytes) (noBell : bel ∉ payload)
    (noEscape : esc ∉ payload) (terminator : Terminator) :
    Intercepts fromSlice nowMs stream code digits payload terminator ↔ stream.seq.length ≤ 1 := by
  obtain ⟨held, holds⟩ := reached.holds
  constructor
  · intro intercepts
    by_contra long
    exact not_intercepts_of_broken fromSlice nowMs holds (by omega) code digits payload
      terminator intercepts
  · intro short
    exact intercepts_of_short fromSlice nowMs holds short introducer filled fits noBell noEscape
      terminator

/-- The stream after `ESC ] 9`: a status behind it passes through. -/
theorem intercepts_broken_introducer :
    Reachable ⟨[esc, bracket, 0x39], none, false, [], false⟩ ∧
      ¬ Intercepts (fun _ => none) 0 ⟨[esc, bracket, 0x39], none, false, [], false⟩ 9999
        [0x39, 0x39, 0x39, 0x39] [0x7b, 0x7d] .bell := by
  refine ⟨.process .new (fun _ => none) 0 [esc, bracket, 0x39], ?_⟩
  rintro ⟨removed, -⟩
  exact absurd removed (by decide +kernel)

/-- A status at the start of the stream is intercepted. -/
theorem intercepts_new :
    Intercepts (fun _ => none) 0 .new 9999 [0x39, 0x39, 0x39, 0x39] [0x7b, 0x7d] .string :=
  (intercepts_iff (fun _ => none) 0 .new
    ⟨.inl rfl, by decide +kernel, by decide +kernel, by decide +kernel⟩ (by decide +kernel)
    (by decide +kernel) (by decide +kernel) (by decide +kernel) .string).mpr (by decide)

end TerminalCanvas.Terminal
