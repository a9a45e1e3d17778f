import Mathlib.Tactic.NormNum
import TerminalCanvas.Scrollback.Log

/-! # What the log format means

`readFramesWithValidLen_eq_some` characterizes the reader: a readable log is a
header, the encoding of contiguous frames and a tail that holds no further frame.
Appends, torn writes and renumbering are then facts about lists of frames. -/

namespace TerminalCanvas.Scrollback

open LittleEndian Scan Scanner

/-! ## One frame -/

def Frame.encode (frame : Frame) : Bytes := encodeFrame frame.seq frame.kind frame.payload

/-- What a frame says, without its place in the log. -/
def Frame.content (frame : Frame) : FrameKind × Bytes := (frame.kind, frame.payload)

/-- The numbers of a frame fit their fields. -/
structure Frame.Encodable (frame : Frame) : Prop where
  seq : frame.seq ≤ u64Max
  payload : frame.payload.length < 2 ^ 32

@[simp] theorem FrameKind.fromU8_toU8 (kind : FrameKind) : fromU8 kind.toU8 = some kind := by
  cases kind <;> rfl

theorem FrameKind.fromU8_eq_some {value : UInt8} {kind : FrameKind} :
    fromU8 value = some kind ↔ value = kind.toU8 := by
  constructor
  · intro known
    unfold fromU8 at known
    split at known
    · next isOutput => cases known; exact isOutput
    · split at known
      · next isResize => cases known; exact isResize
      · split at known
        · next isClear => cases known; exact isClear
        · cases known
  · intro equal
    rw [equal, fromU8_toU8]

section Encoding

variable (seq : Nat) (kind : FrameKind) (payload rest : Bytes)

@[simp] theorem length_encodeFrame :
    (encodeFrame seq kind payload).length = frameHeaderBytes + payload.length := by
  simp [encodeFrame, frameHeaderBytes]
  omega

theorem frameSeq_encodeFrame : frameSeq (encodeFrame seq kind payload ++ rest) =
    seq % 2 ^ 64 := by
  have front : (encodeFrame seq kind payload ++ rest).take 8 = leBytes 8 seq := by
    simp only [encodeFrame, List.append_assoc]
    exact List.take_left' (length_leBytes 8 seq)
  rw [frameSeq, front, ofLeBytes_leBytes]
  norm_num

theorem kind_encodeFrame : (encodeFrame seq kind payload ++ rest).getD 8 0 = kind.toU8 := by
  simp [encodeFrame, List.getD_eq_getElem?_getD]

theorem frameLength_encodeFrame : frameLength (encodeFrame seq kind payload ++ rest) =
    payload.length % 2 ^ 32 := by
  have front : ((encodeFrame seq kind payload ++ rest).drop 9).take 4 =
      leBytes 4 payload.length := by
    have dropped : (encodeFrame seq kind payload ++ rest).drop 9 =
        leBytes 4 payload.length ++ (payload ++ rest) := by
      simp only [encodeFrame, List.append_assoc]
      rw [← List.append_assoc (leBytes 8 seq)]
      exact List.drop_left' (by simp)
    rw [dropped]
    exact List.take_left' (length_leBytes 4 _)
  rw [frameLength, front, ofLeBytes_leBytes]
  norm_num

theorem payload_encodeFrame : (encodeFrame seq kind payload ++ rest).drop frameHeaderBytes =
    payload ++ rest := by
  simp only [encodeFrame, List.append_assoc]
  rw [← List.append_assoc (leBytes 8 seq), ← List.append_assoc]
  exact List.drop_left' (by simp [frameHeaderBytes])

end Encoding

theorem length_encode (frame : Frame) :
    frame.encode.length = frameHeaderBytes + frame.payload.length :=
  length_encodeFrame ..

theorem readFrame_encode {previousSeq : Option Nat} {frame : Frame} (rest : Bytes)
    (encodable : frame.Encodable) (continues : breaksSequence previousSeq frame.seq = false) :
    readFrame previousSeq (frame.encode ++ rest) =
      .item frame (some frame.seq) frame.encode.length := by
  have seq : frameSeq (frame.encode ++ rest) = frame.seq := by
    rw [Frame.encode, frameSeq_encodeFrame, Nat.mod_eq_of_lt]
    have := encodable.seq
    simp only [u64Max] at this
    omega
  have length : frameLength (frame.encode ++ rest) = frame.payload.length := by
    rw [Frame.encode, frameLength_encodeFrame, Nat.mod_eq_of_lt encodable.payload]
  apply readFrame_eq_item.mpr
  refine ⟨?_, by rw [seq, continues], ?_, seq.symm, ?_, rfl, ?_⟩
  · rw [length, List.length_append, length_encode]
    omega
  · rw [Frame.encode, kind_encodeFrame, FrameKind.fromU8_toU8]
  · rw [length, Frame.encode, payload_encodeFrame, List.take_left]
  · rw [length, length_encode]

private theorem take_drop_append {α : Type} (list : List α) (start first second : Nat) :
    (list.drop start).take first ++ (list.drop (start + first)).take second =
      (list.drop start).take (first + second) := by
  rw [← List.drop_drop, ← List.take_add]

theorem readFrame_item {previousSeq next : Option Nat} {rest : Bytes} {frame : Frame}
    {size : Nat} (read : readFrame previousSeq rest = .item frame next size) :
    frame.Encodable ∧ breaksSequence previousSeq frame.seq = false ∧
      next = some frame.seq ∧ size = frame.encode.length ∧
      rest = frame.encode ++ rest.drop size := by
  rcases readFrame_eq_item.mp read with
    ⟨fits, continues, known, seq, payload, rfl, equal⟩
  simp only [frameHeaderBytes] at fits payload equal
  have seqBytes : (rest.take 8).length = 8 := by
    rw [List.length_take]
    omega
  have lengthBytes : ((rest.drop 9).take 4).length = 4 := by
    rw [List.length_take, List.length_drop]
    omega
  have payloadLength : frame.payload.length = frameLength rest := by
    rw [payload, List.length_take, List.length_drop]
    omega
  have seqFits : frameSeq rest < 2 ^ 64 := by
    have := ofLeBytes_lt (rest.take 8)
    rw [seqBytes] at this
    exact this
  have lengthFits : frameLength rest < 2 ^ 32 := by
    have := ofLeBytes_lt ((rest.drop 9).take 4)
    rw [lengthBytes] at this
    exact this
  have encodedSeq : leBytes 8 frame.seq = rest.take 8 := by
    have back := leBytes_ofLeBytes (rest.take 8)
    rw [seqBytes] at back
    rw [seq]
    exact back
  have encodedKind : [frame.kind.toU8] = (rest.drop 8).take 1 := by
    rw [← FrameKind.fromU8_eq_some.mp known]
    have inside : 8 < rest.length := by omega
    rw [List.drop_eq_getElem_cons inside, List.take_succ_cons, List.take_zero]
    simp [List.getD_eq_getElem?_getD, inside]
  have encodedLength : leBytes 4 frame.payload.length = (rest.drop 9).take 4 := by
    have back := leBytes_ofLeBytes ((rest.drop 9).take 4)
    rw [lengthBytes] at back
    rw [payloadLength]
    exact back
  have encoded : frame.encode = rest.take size := by
    rw [Frame.encode, encodeFrame, encodedSeq, encodedKind, encodedLength, payload, equal]
    rw [List.append_assoc, List.append_assoc]
    have lengthAndPayload := take_drop_append rest 9 4 (frameLength rest)
    have kindAndMore := take_drop_append rest 8 1 (4 + frameLength rest)
    have whole := take_drop_append rest 0 8 (1 + (4 + frameLength rest))
    rw [List.drop_zero, Nat.zero_add] at whole
    rw [lengthAndPayload, kindAndMore, whole]
    congr 1
    omega
  refine ⟨⟨?_, ?_⟩, by rw [seq]; exact continues, rfl, ?_, ?_⟩
  · rw [seq]
    simp only [u64Max]
    omega
  · omega
  · rw [encoded, List.length_take]
    omega
  · rw [encoded, List.take_append_drop]

theorem readFrame_take {previousSeq : Option Nat} {frame : Frame} {length : Nat}
    (encodable : frame.Encodable) (continues : breaksSequence previousSeq frame.seq = false)
    (cut : length < frame.encode.length) :
    readFrame previousSeq (frame.encode.take length) = .stop := by
  by_cases short : length < frameHeaderBytes
  · rw [readFrame, if_pos]
    rw [List.length_take]
    omega
  · have seqFits : frame.seq < 2 ^ 64 := by
      have := encodable.seq
      simp only [u64Max] at this
      omega
    have seq : frameSeq (frame.encode.take length) = frame.seq := by
      have whole := frameSeq_encodeFrame frame.seq frame.kind frame.payload []
      rw [List.append_nil, Nat.mod_eq_of_lt seqFits] at whole
      rw [frameSeq, List.take_take, min_eq_left (by simp [frameHeaderBytes] at short; omega)]
      exact whole
    have kind : (frame.encode.take length).getD 8 0 = frame.kind.toU8 := by
      have whole := kind_encodeFrame frame.seq frame.kind frame.payload []
      rw [List.append_nil, List.getD_eq_getElem?_getD] at whole
      rw [List.getD_eq_getElem?_getD, List.getElem?_take_of_lt
        (by simp [frameHeaderBytes] at short; omega)]
      exact whole
    have payload : frameLength (frame.encode.take length) = frame.payload.length := by
      have whole := frameLength_encodeFrame frame.seq frame.kind frame.payload []
      rw [List.append_nil, Nat.mod_eq_of_lt encodable.payload] at whole
      rw [frameLength, List.drop_take, List.take_take,
        min_eq_left (by simp [frameHeaderBytes] at short; omega)]
      exact whole
    rw [length_encode] at cut
    rw [readFrame, seq, continues, kind, FrameKind.fromU8_toU8, payload, if_neg]
    · simp only [Bool.false_eq_true, if_false]
      rw [if_pos]
      rw [List.length_take]
      omega
    · rw [List.length_take, length_encode]
      omega

@[simp] theorem readFrame_nil (previousSeq : Option Nat) : readFrame previousSeq [] = .stop :=
  rfl

/-! ## Contiguous frames -/

def encodeFrames (frames : List Frame) : Bytes := frames.flatMap Frame.encode

@[simp] theorem encodeFrames_nil : encodeFrames [] = [] := rfl

@[simp] theorem encodeFrames_cons (frame : Frame) (frames : List Frame) :
    encodeFrames (frame :: frames) = frame.encode ++ encodeFrames frames := rfl

@[simp] theorem encodeFrames_append (first second : List Frame) :
    encodeFrames (first ++ second) = encodeFrames first ++ encodeFrames second :=
  List.flatMap_append

/-- Encodable frames that continue a sequence without a gap. -/
def Follows (previousSeq : Option Nat) : List Frame → Prop
  | [] => True
  | frame :: frames => frame.Encodable ∧ breaksSequence previousSeq frame.seq = false ∧
      Follows (some frame.seq) frames

/-- The last sequence number behind a list of frames. -/
def lastSeq (previousSeq : Option Nat) : List Frame → Option Nat
  | [] => previousSeq
  | frame :: frames => lastSeq (some frame.seq) frames

theorem follows_append {previousSeq : Option Nat} {first second : List Frame} :
    Follows previousSeq (first ++ second) ↔
      Follows previousSeq first ∧ Follows (lastSeq previousSeq first) second := by
  induction first generalizing previousSeq with
  | nil => simp [Follows, lastSeq]
  | cons frame frames induction => simp [Follows, lastSeq, induction, and_assoc]

theorem lastSeq_append (previousSeq : Option Nat) (first second : List Frame) :
    lastSeq previousSeq (first ++ second) = lastSeq (lastSeq previousSeq first) second := by
  induction first generalizing previousSeq with
  | nil => rfl
  | cons frame frames induction => exact induction _

theorem lastSeq_eq_getLast (previousSeq : Option Nat) (frames : List Frame) :
    lastSeq previousSeq frames = (frames.getLast?.map Frame.seq).or previousSeq := by
  induction frames generalizing previousSeq with
  | nil => rfl
  | cons frame frames induction =>
      rw [lastSeq, induction, List.getLast?_cons]
      cases frames.getLast? <;> rfl

theorem scan_encodeFrames {previousSeq : Option Nat} {frames : List Frame} (rest : Bytes)
    (follows : Follows previousSeq frames) :
    frameScanner.scan previousSeq (encodeFrames frames ++ rest) =
      (frameScanner.scan (lastSeq previousSeq frames) rest).map fun (later, length) =>
        (frames ++ later, (encodeFrames frames).length + length) := by
  induction frames generalizing previousSeq with
  | nil => simp [lastSeq]
  | cons frame frames induction =>
      rcases follows with ⟨encodable, continues, follows⟩
      have read : frameScanner.step previousSeq
          (frame.encode ++ (encodeFrames frames ++ rest)) =
            .item frame (some frame.seq) frame.encode.length :=
        readFrame_encode _ encodable continues
      rw [encodeFrames_cons, List.append_assoc, scan_of_item read, List.drop_left,
        induction follows, Option.map_map]
      simp only [lastSeq, Function.comp_def, List.cons_append, List.length_append,
        Nat.add_assoc]

theorem scan_frames {previousSeq : Option Nat} {rest : Bytes} {frames : List Frame}
    {length : Nat} (scanned : frameScanner.scan previousSeq rest = some (frames, length)) :
    Follows previousSeq frames ∧ length = (encodeFrames frames).length ∧
      rest = encodeFrames frames ++ rest.drop length ∧
      readFrame (lastSeq previousSeq frames) (rest.drop length) = .stop := by
  induction frames generalizing previousSeq rest length with
  | nil =>
      rcases scan_cases scanned with ⟨stopped, -, rfl⟩ | ⟨_, _, _, _, _, _, _, absent, _⟩
      · exact ⟨trivial, rfl, rfl, stopped⟩
      · cases absent
  | cons frame frames induction =>
      rcases scan_cases scanned with
        ⟨_, absent, _⟩ | ⟨value, next, size, later, remaining, read, scanned, equal, rfl⟩
      · cases absent
      · cases equal
        rcases readFrame_item read with ⟨encodable, continues, rfl, rfl, front⟩
        rcases induction scanned with ⟨follows, rfl, behind, stopped⟩
        rw [List.drop_drop] at behind stopped
        refine ⟨⟨encodable, continues, follows⟩, by simp, ?_, stopped⟩
        calc rest = frame.encode ++ rest.drop frame.encode.length := front
          _ = frame.encode ++ (encodeFrames frames ++
                rest.drop (frame.encode.length + (encodeFrames frames).length)) := by
              rw [← behind]
          _ = _ := by rw [encodeFrames_cons, List.append_assoc]

/-! ## The bytes of a torn write -/

/-- The number of frames that are complete in the first bytes of an encoding. -/
def completeFrames : Nat → List Frame → Nat
  | _, [] => 0
  | written, frame :: frames =>
      if written < frame.encode.length then 0
      else completeFrames (written - frame.encode.length) frames + 1

theorem take_encodeFrames {previousSeq : Option Nat} {frames : List Frame} (written : Nat)
    (follows : Follows previousSeq frames) :
    ∃ tail, (encodeFrames frames).take written =
        encodeFrames (frames.take (completeFrames written frames)) ++ tail ∧
      readFrame (lastSeq previousSeq (frames.take (completeFrames written frames))) tail =
        .stop := by
  induction frames generalizing previousSeq written with
  | nil => exact ⟨[], by simp, rfl⟩
  | cons frame frames induction =>
      rcases follows with ⟨encodable, continues, follows⟩
      rw [completeFrames]
      split
      · next cut =>
          refine ⟨frame.encode.take written, ?_, readFrame_take encodable continues cut⟩
          rw [encodeFrames_cons, List.take_append_of_le_length (Nat.le_of_lt cut)]
          rfl
      · next complete =>
          rcases induction (written - frame.encode.length) follows with ⟨tail, front, stopped⟩
          refine ⟨tail, ?_, stopped⟩
          rw [encodeFrames_cons, List.take_append, front, List.take_succ_cons,
            encodeFrames_cons, List.append_assoc,
            List.take_of_length_le (Nat.le_of_not_lt complete)]

theorem completeFrames_eq_zero {written : Nat} {frames : List Frame} :
    completeFrames written frames = 0 ↔
      ∀ first, frames.head? = some first →
        written < frameHeaderBytes + first.payload.length := by
  cases frames with
  | nil => simp [completeFrames]
  | cons frame frames =>
      rw [completeFrames]
      split
      · next cut => simpa [length_encode] using cut
      · next complete => simpa [length_encode] using complete

theorem completeFrames_le (written : Nat) (frames : List Frame) :
    completeFrames written frames ≤ frames.length := by
  induction frames generalizing written with
  | nil => simp [completeFrames]
  | cons frame frames induction =>
      rw [completeFrames]
      split
      · omega
      · exact Nat.succ_le_succ (induction _)

/-! ## Whole logs -/

@[simp] theorem length_encodeHeader (generation : UInt32) :
    (encodeHeader generation).length = headerBytes := by
  simp [encodeHeader, magic, headerBytes]

theorem header_fields (generation : UInt32) (rest : Bytes) :
    (encodeHeader generation ++ rest).take 4 = magic ∧
      (encodeHeader generation ++ rest).getD 4 0 = version ∧
      UInt32.ofNat (ofLeBytes (((encodeHeader generation ++ rest).drop 5).take 4)) =
        generation ∧
      (encodeHeader generation ++ rest).drop headerBytes = rest := by
  refine ⟨by simp [encodeHeader, magic], by simp [encodeHeader, magic], ?_, ?_⟩
  · have front : ((encodeHeader generation ++ rest).drop 5).take 4 =
        leBytes 4 generation.toNat := by
      simp only [encodeHeader, List.append_assoc]
      rw [← List.append_assoc, List.drop_left' (by simp [magic])]
      exact List.take_left' (length_leBytes 4 _)
    rw [front, ofLeBytes_leBytes_of_lt generation.toNat_lt, UInt32.ofNat_toNat]
  · exact List.drop_left' (length_encodeHeader generation)

theorem header_of_fields {bytes : Bytes} (long : headerBytes ≤ bytes.length)
    (isMagic : bytes.take 4 = magic) (isVersion : bytes.getD 4 0 = version) :
    bytes = encodeHeader (UInt32.ofNat (ofLeBytes ((bytes.drop 5).take 4))) ++
      bytes.drop headerBytes := by
  simp only [headerBytes] at long ⊢
  have generationBytes : ((bytes.drop 5).take 4).length = 4 := by
    rw [List.length_take, List.length_drop]
    omega
  have versionByte : [version] = (bytes.drop 4).take 1 := by
    have inside : 4 < bytes.length := by omega
    rw [← isVersion, List.drop_eq_getElem_cons inside, List.take_succ_cons, List.take_zero]
    simp [List.getD_eq_getElem?_getD, inside]
  have fits : ofLeBytes ((bytes.drop 5).take 4) < UInt32.size := by
    have bound := ofLeBytes_lt ((bytes.drop 5).take 4)
    rw [generationBytes] at bound
    exact bound
  have generation : leBytes 4 (UInt32.ofNat (ofLeBytes ((bytes.drop 5).take 4))).toNat =
      (bytes.drop 5).take 4 := by
    have back := leBytes_ofLeBytes ((bytes.drop 5).take 4)
    rw [generationBytes] at back
    rw [UInt32.toNat_ofNat', Nat.mod_eq_of_lt fits]
    exact back
  have versionAndGeneration := take_drop_append bytes 4 1 4
  have whole := take_drop_append bytes 0 4 5
  rw [List.drop_zero, Nat.zero_add] at whole
  calc bytes = bytes.take 9 ++ bytes.drop 9 := (List.take_append_drop 9 bytes).symm
    _ = bytes.take 4 ++ ((bytes.drop 4).take 1 ++ (bytes.drop 5).take 4) ++ bytes.drop 9 := by
        rw [versionAndGeneration, whole]
    _ = _ := by
        rw [encodeHeader, generation, ← isMagic, versionByte]
        simp only [List.append_assoc]

theorem readFramesWithValidLen_eq_some {bytes : Bytes} {generation : UInt32}
    {frames : List Frame} {validLen : Nat} :
    readFramesWithValidLen bytes = some (generation, frames, validLen) ↔
      Follows none frames ∧
      validLen = headerBytes + (encodeFrames frames).length ∧
      ∃ tail, bytes = encodeHeader generation ++ encodeFrames frames ++ tail ∧
        readFrame (lastSeq none frames) tail = .stop := by
  constructor
  · intro read
    unfold readFramesWithValidLen at read
    split at read
    · cases read
    · next header =>
        simp only [not_or, not_lt, ne_eq, not_not] at header
        rcases header with ⟨long, isMagic, isVersion⟩
        rw [Option.map_eq_some_iff] at read
        rcases read with ⟨⟨scannedFrames, length⟩, scanned, equal⟩
        cases equal
        rcases scan_frames scanned with ⟨follows, rfl, front, stopped⟩
        refine ⟨follows, rfl, _, ?_, stopped⟩
        rw [List.append_assoc, ← front]
        exact header_of_fields long isMagic isVersion
  · rintro ⟨follows, rfl, tail, rfl, stopped⟩
    rw [List.append_assoc]
    rcases header_fields generation (encodeFrames frames ++ tail) with
      ⟨isMagic, isVersion, isGeneration, rest⟩
    have stop : frameScanner.step (lastSeq none frames) tail = .stop := stopped
    unfold readFramesWithValidLen
    rw [if_neg, isGeneration, rest, scan_encodeFrames tail follows, scan_of_stop stop]
    · simp
    · simp only [isMagic, isVersion, List.length_append, length_encodeHeader]
      simp

theorem take_validLen {bytes : Bytes} {generation : UInt32} {validLen : Nat}
    {frames : List Frame}
    (read : readFramesWithValidLen bytes = some (generation, frames, validLen)) :
    bytes.take validLen = encodeHeader generation ++ encodeFrames frames := by
  rcases readFramesWithValidLen_eq_some.mp read with ⟨-, rfl, tail, rfl, -⟩
  exact List.take_left' (by simp)

theorem readFrames_eq_some {bytes : Bytes} {generation : UInt32} {frames : List Frame} :
    readFrames bytes = some (generation, frames) ↔
      ∃ validLen, readFramesWithValidLen bytes = some (generation, frames, validLen) := by
  simp [readFrames]

theorem readFramesWithValidLen_encode (generation : UInt32) {frames : List Frame}
    (follows : Follows none frames) :
    readFramesWithValidLen (encodeHeader generation ++ encodeFrames frames) =
      some (generation, frames, headerBytes + (encodeFrames frames).length) :=
  readFramesWithValidLen_eq_some.mpr ⟨follows, rfl, [], by simp, rfl⟩

/-! ## Renumbering -/

/-- The same frames numbered from `first`. -/
def renumbered (first : Nat) : List Frame → List Frame
  | [] => []
  | frame :: frames => ⟨first, frame.kind, frame.payload⟩ :: renumbered (first + 1) frames

@[simp] theorem renumbered_content (first : Nat) (frames : List Frame) :
    (renumbered first frames).map Frame.content = frames.map Frame.content := by
  induction frames generalizing first with
  | nil => rfl
  | cons frame frames induction => simp [renumbered, induction, Frame.content]

@[simp] theorem length_renumbered (first : Nat) (frames : List Frame) :
    (renumbered first frames).length = frames.length := by
  have lengths := congrArg List.length (renumbered_content first frames)
  rwa [List.length_map, List.length_map] at lengths

theorem completeFrames_renumbered (written first : Nat) (frames : List Frame) :
    completeFrames written (renumbered first frames) = completeFrames written frames := by
  induction frames generalizing written first with
  | nil => rfl
  | cons frame frames induction =>
      simp only [renumbered, completeFrames, length_encode, induction]

theorem follows_renumbered {previousSeq start : Option Nat} {first : Nat} {frames : List Frame}
    (follows : Follows start frames) (continues : breaksSequence previousSeq first = false)
    (fits : first + frames.length ≤ u64Max) :
    Follows previousSeq (renumbered first frames) := by
  induction frames generalizing previousSeq start first with
  | nil => trivial
  | cons frame frames induction =>
      rw [List.length_cons] at fits
      have inRange : first ≤ u64Max := by omega
      refine ⟨⟨inRange, follows.1.payload⟩, continues, ?_⟩
      apply induction follows.2.2
      · simp [breaksSequence, checkedAddU64]
        omega
      · omega

theorem renumberLoop_eq_some {nextSeq last : Nat} {frames : List Frame} {bytes : Bytes} :
    renumberLoop nextSeq frames = some (bytes, last) ↔
      bytes = encodeFrames (renumbered nextSeq frames) ∧ last = nextSeq + frames.length ∧
        (frames = [] ∨ last ≤ u64Max) := by
  induction frames generalizing nextSeq bytes last with
  | nil => simp [renumberLoop, renumbered, eq_comm]
  | cons frame frames induction =>
      simp only [renumberLoop, Option.bind_eq_bind, Option.bind_eq_some_iff, Prod.exists,
        checkedAddU64_eq_some, Option.pure_def, Option.some.injEq, Prod.mk.injEq, induction,
        List.length_cons, renumbered, encodeFrames_cons]
      constructor
      · rintro ⟨_, ⟨bound, rfl⟩, _, _, ⟨rfl, rfl, room⟩, rfl, rfl⟩
        refine ⟨rfl, by omega, .inr ?_⟩
        rcases room with rfl | room
        · simpa using bound
        · exact room
      · rintro ⟨rfl, rfl, room⟩
        have bound : nextSeq + (frames.length + 1) ≤ u64Max := by
          rcases room with absent | room
          · cases absent
          · exact room
        exact ⟨_, ⟨by omega, rfl⟩, _, _, ⟨rfl, rfl, .inr (by omega)⟩, rfl, by omega⟩

end TerminalCanvas.Scrollback
