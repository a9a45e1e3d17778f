import TerminalCanvas.Daemon.RecoveryLicence
import TerminalCanvas.Daemon.WireBudget

/-! # Reading the lines of the wire

A buffered reader whose source arrives in chunks reads what it would read from the bytes
in one piece, and from accepted lines exactly these lines. -/

namespace TerminalCanvas.Daemon

open HookAuthority

/-- What a read puts into an empty buffer. An empty one would be the end. -/
structure Chunk where
  bytes : Bytes
  nonempty : bytes ≠ []
deriving DecidableEq, Repr

/-- A `BufRead` over a source that delivers chunks. -/
structure ChunkReader where
  buffered : Bytes
  pending : List Chunk
  ending : Ending
deriving DecidableEq, Repr

namespace ChunkReader

def incoming (reader : ChunkReader) : Bytes :=
  reader.buffered ++ reader.pending.flatMap Chunk.bytes

def fillBuf (reader : ChunkReader) : Except String ChunkReader :=
  if reader.buffered.isEmpty then
    match reader.pending with
    | chunk :: pending => .ok { reader with buffered := chunk.bytes, pending }
    | [] =>
        match reader.ending with
        | .eof => .ok reader
        | .failed message => .error message
  else
    .ok reader

def consume (reader : ChunkReader) (count : Nat) : ChunkReader :=
  { reader with buffered := reader.buffered.drop count }

/-- `take(limit).read_until(LF, &mut bytes)`, one buffer at a time. -/
def takeReadUntil (limit : Nat) (reader : ChunkReader) (bytes : Bytes) :
    Except String (Bytes × ChunkReader) :=
  if limit = 0 then
    .ok (bytes, reader)
  else
    match reader.fillBuf with
    | .error message => .error message
    | .ok filled =>
        let available := filled.buffered.take limit
        let body := available.takeWhile (· ≠ lineFeed)
        if body.length < available.length then
          .ok (bytes ++ available.take (body.length + 1), filled.consume (body.length + 1))
        else if available.length = 0 then
          .ok (bytes, filled)
        else
          takeReadUntil (limit - available.length) (filled.consume available.length)
            (bytes ++ available)
termination_by limit
decreasing_by
  change limit - available.length < limit
  omega

def readProtocolLineWithLimit (reader : ChunkReader) (maxBytes : Nat) :
    Except String (Option String × ChunkReader) :=
  if u64Max < maxBytes + 1 then
    .error "límite inválido"
  else
    match takeReadUntil (maxBytes + 1) reader [] with
    | .error message => .error message
    | .ok (bytes, left) =>
        if bytes.isEmpty then
          .ok (none, left)
        else if maxBytes < bytes.length then
          .error "línea del protocolo demasiado grande"
        else
          match String.fromUTF8? ⟨bytes.toArray⟩ with
          | some line => .ok (some line, left)
          | none => .error "línea del protocolo no es UTF-8"

/-- The lines of so many calls. They stop at the end of the source. -/
def readLines (maxBytes : Nat) : (calls : Nat) → ChunkReader →
    Except String (List String × ChunkReader)
  | 0, reader => .ok ([], reader)
  | calls + 1, reader =>
      match reader.readProtocolLineWithLimit maxBytes with
      | .error message => .error message
      | .ok (none, left) => .ok ([], left)
      | .ok (some line, left) =>
          match readLines maxBytes calls left with
          | .error message => .error message
          | .ok (lines, last) => .ok (line :: lines, last)

end ChunkReader

/-! ## Chunks do not matter -/

theorem readUntil_zero (incoming : Bytes) (ending : Ending) :
    readUntil 0 incoming ending = .ok ([], incoming) := by
  simp [readUntil]

theorem readUntil_nil {limit : Nat} (positive : limit ≠ 0) (ending : Ending) :
    readUntil limit [] ending =
      match ending with
      | .eof => .ok ([], [])
      | .failed message => .error message := by
  have full : ¬ 0 = limit := fun equal => positive equal.symm
  cases ending <;> simp [readUntil, full]

theorem readUntil_feed {limit : Nat} {body : Bytes} (clean : lineFeed ∉ body)
    (within : body.length < limit) (rest : Bytes) (ending : Ending) :
    readUntil limit (body ++ lineFeed :: rest) ending = .ok (body ++ [lineFeed], rest) := by
  have cut : (body ++ [lineFeed]).length = body.length + 1 := by simp
  have whole : body ++ lineFeed :: rest = (body ++ [lineFeed]) ++ rest := by simp
  have window : (body ++ lineFeed :: rest).take limit =
      body ++ lineFeed :: rest.take (limit - (body.length + 1)) := by
    rw [whole, List.take_append, cut, List.take_of_length_le (by omega), List.append_assoc,
      List.singleton_append]
  simp only [readUntil, window, takeWhile_append_feed _ clean]
  rw [if_pos (by simp), List.splitAt_eq, whole, ← cut, List.take_left, List.drop_left]

theorem readUntil_append {limit : Nat} {piece : Bytes} (clean : lineFeed ∉ piece)
    (within : piece.length ≤ limit) (rest : Bytes) (ending : Ending) :
    readUntil limit (piece ++ rest) ending =
      (readUntil (limit - piece.length) rest ending).map fun read => (piece ++ read.1, read.2) := by
  have window : (piece ++ rest).take limit = piece ++ rest.take (limit - piece.length) := by
    rw [List.take_append, List.take_of_length_le within]
  have body : (piece ++ rest.take (limit - piece.length)).takeWhile (· ≠ lineFeed) =
      piece ++ (rest.take (limit - piece.length)).takeWhile (· ≠ lineFeed) := by
    apply List.takeWhile_append_of_pos
    intro symbol member
    have unequal : symbol ≠ lineFeed := fun equal => clean (equal ▸ member)
    simpa using unequal
  simp only [readUntil, window, body, List.length_append, Nat.add_lt_add_iff_left]
  by_cases feed : ((rest.take (limit - piece.length)).takeWhile (· ≠ lineFeed)).length <
      (rest.take (limit - piece.length)).length
  · rw [if_pos feed, if_pos feed]
    simp only [List.splitAt_eq, Nat.add_assoc, List.take_length_add_append,
      List.drop_length_add_append, Except.map]
  · rw [if_neg feed, if_neg feed]
    by_cases full : (rest.take (limit - piece.length)).length = limit - piece.length
    · have filled : limit = piece.length + (limit - piece.length) := by omega
      rw [if_pos full, if_pos (by omega), List.splitAt_eq, List.splitAt_eq]
      nth_rewrite 1 [filled]
      nth_rewrite 2 [filled]
      rw [List.take_length_add_append, List.drop_length_add_append]
      rfl
    · rw [if_neg full, if_neg (by omega)]
      cases ending with
      | eof => rfl
      | failed message => rfl

namespace ChunkReader

theorem fillBuf_eq_ok {reader filled : ChunkReader} (fill : reader.fillBuf = .ok filled) :
    filled.incoming = reader.incoming ∧ filled.ending = reader.ending ∧
      (filled.buffered = [] → reader.incoming = [] ∧ reader.ending = .eof) := by
  obtain ⟨buffered, pending, ending⟩ := reader
  unfold fillBuf at fill
  cases buffered with
  | cons byte rest =>
      cases fill
      exact ⟨rfl, rfl, fun empty => nomatch empty⟩
  | nil =>
      cases pending with
      | cons chunk pending =>
          cases fill
          exact ⟨rfl, rfl, fun empty => absurd empty chunk.nonempty⟩
      | nil =>
          cases ending with
          | failed message => cases fill
          | eof =>
              cases fill
              exact ⟨rfl, rfl, fun _ => ⟨rfl, rfl⟩⟩

theorem fillBuf_eq_error {reader : ChunkReader} {message : String}
    (fill : reader.fillBuf = .error message) :
    reader.incoming = [] ∧ reader.ending = .failed message := by
  obtain ⟨buffered, pending, ending⟩ := reader
  unfold fillBuf at fill
  cases buffered with
  | cons byte rest => cases fill
  | nil =>
      cases pending with
      | cons chunk pending => cases fill
      | nil =>
          cases ending with
          | failed message => cases fill; exact ⟨rfl, rfl⟩
          | eof => cases fill

theorem incoming_consume (reader : ChunkReader) (count : Nat) :
    reader.incoming = reader.buffered.take count ++ (reader.consume count).incoming := by
  rw [incoming, incoming, consume, ← List.append_assoc, List.take_append_drop]

theorem not_mem_of_takeWhile {available : Bytes}
    (whole : ¬ (available.takeWhile (· ≠ lineFeed)).length < available.length) :
    lineFeed ∉ available := by
  intro feed
  obtain ⟨body, tail, split, clean⟩ := List.eq_append_cons_of_mem feed
  apply whole
  rw [split, takeWhile_append_feed tail clean, List.length_append, List.length_cons]
  omega

theorem split_of_takeWhile {available : Bytes}
    (feed : (available.takeWhile (· ≠ lineFeed)).length < available.length) :
    ∃ body tail, available = body ++ lineFeed :: tail ∧ lineFeed ∉ body ∧
      available.takeWhile (· ≠ lineFeed) = body := by
  have member : lineFeed ∈ available := by
    by_contra clean
    rw [takeWhile_clean clean] at feed
    exact Nat.lt_irrefl _ feed
  obtain ⟨body, tail, split, clean⟩ := List.eq_append_cons_of_mem member
  refine ⟨body, tail, split, clean, ?_⟩
  rw [split, takeWhile_append_feed tail clean]

theorem takeReadUntil_eq (limit : Nat) (reader : ChunkReader) (bytes : Bytes) :
    (takeReadUntil limit reader bytes).map (fun read => (read.1, read.2.incoming, read.2.ending)) =
      (readUntil limit reader.incoming reader.ending).map fun read =>
        (bytes ++ read.1, read.2, reader.ending) := by
  induction limit, reader, bytes using takeReadUntil.induct with
  | case1 reader bytes =>
      rw [takeReadUntil, if_pos rfl, readUntil_zero]
      simp [Except.map]
  | case2 limit reader bytes positive message fill =>
      obtain ⟨empty, failed⟩ := fillBuf_eq_error fill
      rw [takeReadUntil, if_neg positive, fill, empty, failed, readUntil_nil positive]
      rfl
  | case3 limit reader bytes positive filled fill available body feed =>
      obtain ⟨same, ending, -⟩ := fillBuf_eq_ok fill
      obtain ⟨line, tail, split, clean, lineIs⟩ := split_of_takeWhile feed
      have bodyIs : body = line := lineIs
      have bound : available.length ≤ limit := List.length_take_le _ _
      have long : available.length = line.length + (tail.length + 1) := by
        rw [split, List.length_append, List.length_cons]
      have taken : available.take (line.length + 1) = line ++ [lineFeed] := by
        rw [split, List.take_length_add_append]
        rfl
      have buffered : filled.buffered.take (line.length + 1) = line ++ [lineFeed] := by
        rw [← taken, List.take_take, Nat.min_eq_left (by omega)]
      have whole : reader.incoming =
          line ++ lineFeed :: (filled.consume (line.length + 1)).incoming := by
        rw [← same, incoming_consume filled (line.length + 1), buffered, List.append_assoc]
        rfl
      rw [takeReadUntil, if_neg positive, fill, whole, readUntil_feed clean (by omega)]
      dsimp only
      rw [if_pos feed]
      change Except.ok (bytes ++ available.take (body.length + 1),
        (filled.consume (body.length + 1)).incoming, filled.ending) = _
      rw [bodyIs, taken, ending]
      rfl
  | case4 limit reader bytes positive filled fill available body noFeed empty =>
      obtain ⟨same, ending, atEnd⟩ := fillBuf_eq_ok fill
      have noBytes : filled.buffered = [] := by
        have none : available = [] := List.eq_nil_of_length_eq_zero empty
        exact (List.take_eq_nil_iff.mp none).resolve_left positive
      obtain ⟨nothing, eof⟩ := atEnd noBytes
      rw [takeReadUntil, if_neg positive, fill, nothing, eof, readUntil_nil positive]
      dsimp only
      rw [if_neg noFeed, if_pos empty]
      change Except.ok (bytes, filled.incoming, filled.ending) = _
      rw [same, nothing, ending, eof]
      simp [Except.map]
  | case5 limit reader bytes positive filled fill available body noFeed nonempty induction =>
      obtain ⟨same, ending, -⟩ := fillBuf_eq_ok fill
      have clean : lineFeed ∉ available := not_mem_of_takeWhile noFeed
      have bound : available.length ≤ limit := List.length_take_le _ _
      have buffered : filled.buffered.take available.length = available := by
        rw [List.length_take, ← List.take_take, List.take_of_length_le (Nat.le_refl _)]
      have whole : reader.incoming =
          available ++ (filled.consume available.length).incoming := by
        rw [← same, incoming_consume filled available.length, buffered]
      have sameEnding : (filled.consume available.length).ending = reader.ending := ending
      rw [takeReadUntil, if_neg positive, fill, whole, readUntil_append clean bound]
      dsimp only
      rw [if_neg noFeed, if_neg nonempty, induction, sameEnding]
      cases readUntil (limit - available.length) (filled.consume available.length).incoming
        reader.ending with
      | error message => rfl
      | ok read => simp [Except.map]

/-- The chunks a line arrives in make no difference to the reader. -/
theorem readProtocolLineWithLimit_eq (reader : ChunkReader) (maxBytes : Nat) :
    (reader.readProtocolLineWithLimit maxBytes).map
        (fun read => read.1.map fun line => (line, read.2.incoming)) =
      Daemon.readProtocolLineWithLimit maxBytes reader.incoming reader.ending := by
  have chunks := takeReadUntil_eq (maxBytes + 1) reader []
  unfold readProtocolLineWithLimit Daemon.readProtocolLineWithLimit
  by_cases invalid : u64Max < maxBytes + 1
  · rw [if_pos invalid, if_pos invalid]
    rfl
  · rw [if_neg invalid, if_neg invalid]
    cases read : takeReadUntil (maxBytes + 1) reader [] with
    | error message =>
        rw [read] at chunks
        cases whole : readUntil (maxBytes + 1) reader.incoming reader.ending with
        | error other =>
            rw [whole] at chunks
            cases chunks
            rfl
        | ok pair =>
            rw [whole] at chunks
            cases chunks
    | ok pair =>
        obtain ⟨bytes, left⟩ := pair
        rw [read] at chunks
        cases whole : readUntil (maxBytes + 1) reader.incoming reader.ending with
        | error other =>
            rw [whole] at chunks
            cases chunks
        | ok pair =>
            obtain ⟨others, rest⟩ := pair
            rw [whole] at chunks
            simp only [Except.map, Except.ok.injEq, Prod.mk.injEq, List.nil_append] at chunks
            obtain ⟨rfl, rfl, -⟩ := chunks
            dsimp only
            split
            · rfl
            · split
              · rfl
              · cases String.fromUTF8? ⟨bytes.toArray⟩ <;> rfl

theorem readProtocolLineWithLimit_line {reader : ChunkReader} {maxBytes : Nat} {line rest : Bytes}
    {text : String} (small : maxBytes < u64Max) (bounded : line.length ≤ maxBytes)
    (complete : ∃ body, lineFeed ∉ body ∧ line = body ++ [lineFeed])
    (decoded : utf8Bytes text = line) (coming : reader.incoming = line ++ rest) :
    ∃ left, reader.readProtocolLineWithLimit maxBytes = .ok (some text, left) ∧
      left.incoming = rest ∧ left.ending = reader.ending := by
  obtain ⟨body, clean, rfl⟩ := complete
  have chunks := takeReadUntil_eq (maxBytes + 1) reader []
  have size : (body ++ [lineFeed]).length = body.length + 1 := by simp
  rw [coming, List.append_assoc, List.singleton_append, readUntil_feed clean (by omega)] at chunks
  cases read : takeReadUntil (maxBytes + 1) reader [] with
  | error message =>
      rw [read] at chunks
      cases chunks
  | ok pair =>
      obtain ⟨bytes, left⟩ := pair
      rw [read] at chunks
      simp only [Except.map, Except.ok.injEq, Prod.mk.injEq, List.nil_append] at chunks
      obtain ⟨rfl, remaining, ending⟩ := chunks
      refine ⟨left, ?_, remaining, ending⟩
      rw [readProtocolLineWithLimit, if_neg (by omega), read]
      dsimp only
      rw [if_neg (by simp), if_neg (by omega), ← decoded, fromUTF8_utf8Bytes]

theorem readProtocolLineWithLimit_end {reader : ChunkReader} {maxBytes : Nat}
    (small : maxBytes < u64Max) (coming : reader.incoming = []) (ended : reader.ending = .eof) :
    ∃ left, reader.readProtocolLineWithLimit maxBytes = .ok (none, left) ∧ left.incoming = [] := by
  have chunks := takeReadUntil_eq (maxBytes + 1) reader []
  rw [coming, ended, readUntil_nil (by omega)] at chunks
  cases read : takeReadUntil (maxBytes + 1) reader [] with
  | error message =>
      rw [read] at chunks
      cases chunks
  | ok pair =>
      obtain ⟨bytes, left⟩ := pair
      rw [read] at chunks
      simp only [Except.map, Except.ok.injEq, Prod.mk.injEq, List.nil_append] at chunks
      obtain ⟨rfl, remaining, -⟩ := chunks
      refine ⟨left, ?_, remaining⟩
      rw [readProtocolLineWithLimit, if_neg (by omega), read]
      rfl

end ChunkReader

/-! ## The contract of a connection -/

section

variable {serializer : Serializer}

def IsEncodedLine (serializer : Serializer) (limit : Nat) (line : Bytes) : Prop :=
  ∃ response, encodeResponseLineWithLimit serializer response limit = .ok line

theorem isEncodedLine_shape {limit : Nat} {line : Bytes}
    (encoded : IsEncodedLine serializer limit line) :
    line.length ≤ limit ∧ (∃ body, lineFeed ∉ body ∧ line = body ++ [lineFeed]) ∧
      ∃ text, utf8Bytes text = line := by
  obtain ⟨response, encoded⟩ := encoded
  obtain ⟨within, rfl⟩ := (encodeResponseLineWithLimit_eq_ok serializer).mp encoded
  rw [encodesWithin, Bool.and_eq_true, Bool.and_eq_true, decide_eq_true_eq,
    decide_eq_true_eq] at within
  obtain ⟨-, positive, size⟩ := within
  refine ⟨?_, ⟨_, lineFeed_not_mem_bytes response, rfl⟩, _, utf8Bytes_encodeLine response⟩
  have bytes : response.bytes.length ≤ limit - 1 := size
  rw [List.length_append, List.length_singleton]
  omega

theorem readLines_encoded {limit : Nat} (small : limit < u64Max) {lines : List Bytes}
    (encoded : ∀ line ∈ lines, IsEncodedLine serializer limit line) :
    ∀ (calls : Nat) (reader : ChunkReader), lines.length ≤ calls → reader.ending = .eof →
      reader.incoming = lines.flatten →
      ∃ texts left, reader.readLines limit calls = .ok (texts, left) ∧
        texts.map utf8Bytes = lines ∧ left.incoming = [] := by
  induction lines with
  | nil =>
      intro calls reader _ ended coming
      cases calls with
      | zero => exact ⟨[], reader, rfl, rfl, coming⟩
      | succ calls =>
          obtain ⟨left, read, empty⟩ :=
            ChunkReader.readProtocolLineWithLimit_end small coming ended
          refine ⟨[], left, ?_, rfl, empty⟩
          rw [ChunkReader.readLines, read]
  | cons line lines induction =>
      intro calls reader enough ended coming
      obtain ⟨bounded, complete, text, decoded⟩ :=
        isEncodedLine_shape (encoded line (List.mem_cons_self ..))
      cases calls with
      | zero => cases enough
      | succ calls =>
          obtain ⟨left, read, remaining, sameEnding⟩ :=
            ChunkReader.readProtocolLineWithLimit_line small bounded complete decoded coming
          obtain ⟨texts, last, rest, same, empty⟩ :=
            induction (fun line member => encoded line (List.mem_cons_of_mem _ member)) calls left
              (Nat.le_of_succ_le_succ enough) (sameEnding.trans ended) remaining
          refine ⟨text :: texts, last, ?_, ?_, empty⟩
          · rw [ChunkReader.readLines, read]
            dsimp only
            rw [rest]
          · rw [List.map_cons, decoded, same]

theorem encodeResponseLineWithLimit_of_encodesWithin {response : Response} {limit : Nat}
    (accepted : encodesWithin jsonLength response limit = true) :
    encodeResponseLineWithLimit serializer response limit =
      .ok (response.bytes ++ [lineFeed]) :=
  (encodeResponseLineWithLimit_eq_ok serializer).mpr ⟨accepted, rfl⟩

end

/-- The wire budget: what is accepted is one line within the limit, lines are read back
whatever the chunks, a payload within its budget is accepted, and what is over the limit
never reaches the writer. -/
theorem wire_budget (serializer : Serializer) (limit : Nat) :
    (∀ response line, encodeResponseLineWithLimit serializer response limit = .ok line →
      line.length ≤ limit ∧ ∃ body, lineFeed ∉ body ∧ line = body ++ [lineFeed]) ∧
    (limit < u64Max → ∀ lines : List Bytes,
      (∀ line ∈ lines, ∃ response,
        encodeResponseLineWithLimit serializer response limit = .ok line) →
      ∀ reader : ChunkReader, reader.incoming = lines.flatten → reader.ending = .eof →
      ∀ calls ≥ lines.length, ∃ texts left,
        reader.readLines limit calls = .ok (texts, left) ∧ texts.map utf8Bytes = lines) ∧
    (∀ id budget, snapshotPayloadBudget jsonLength id limit = some budget →
      (∀ (snapshot : Bytes) (seq : UInt64) (alive outputReady : Bool)
        (hookGeneration : Option Uuid) (hookTarget : Option HostHookTarget),
        snapshot.length ≤ budget →
        ∃ line, encodeResponseLineWithLimit serializer
          (.attached id snapshot seq.toNat alive outputReady hookGeneration hookTarget) limit =
          .ok line) ∧
      (∀ (data : Bytes) (seq : UInt64), data.length ≤ budget →
        ∃ line, encodeResponseLineWithLimit serializer (.output id seq.toNat data) limit =
          .ok line)) ∧
    (∀ response, limit < (utf8Bytes (encodeLine response)).length → ∀ writer, ∃ message,
      encodeResponseLineWithLimit serializer response limit = .error message ∧
      withEncodedResponse serializer response limit writer = (.error message, writer)) := by
  refine ⟨?_, ?_, ?_, ?_⟩
  · intro response line encoded
    obtain ⟨bounded, complete, -⟩ := isEncodedLine_shape ⟨response, encoded⟩
    exact ⟨bounded, complete⟩
  · intro small lines encoded reader coming ended calls enough
    obtain ⟨texts, left, read, same, -⟩ :=
      readLines_encoded small encoded calls reader enough ended coming
    exact ⟨texts, left, read, same⟩
  · intro id budget budgeted
    constructor
    · intro snapshot seq alive outputReady hookGeneration hookTarget within
      exact ⟨_, encodeResponseLineWithLimit_of_encodesWithin
        (encodesWithin_attached budgeted within seq alive outputReady hookGeneration hookTarget)⟩
    · intro data seq within
      exact ⟨_, encodeResponseLineWithLimit_of_encodesWithin
        (encodesWithin_output budgeted within seq)⟩
  · intro response oversized writer
    rw [utf8Bytes_encodeLine, List.length_append] at oversized
    obtain ⟨message, refused⟩ := encodeResponseLineWithLimit_eq_error_of_over serializer oversized
    exact ⟨message, refused, by rw [withEncodedResponse, refused]⟩

/-! The one limit that the encoder takes and the reader does not. -/

def wholeSerializer : Serializer := ⟨fun response => [response.bytes], fun _ => List.append_nil _⟩

theorem largest_limit_encodes_but_never_reads :
    encodeResponseLineWithLimit wholeSerializer .shuttingDown u64Max =
        .ok (utf8Bytes (encodeLine .shuttingDown)) ∧
      ChunkReader.readLines u64Max 1 ⟨utf8Bytes (encodeLine .shuttingDown), [], .eof⟩ =
        .error "límite inválido" := by
  constructor
  · rw [utf8Bytes_encodeLine]
    apply encodeResponseLineWithLimit_of_encodesWithin
    decide
  · rfl

end TerminalCanvas.Daemon
