import Picoquic.H3zero.Qpack

/-!
# Frames on a stream

The parser of the frames on a request stream, and the loop by which its callers give it what is
received. What is received can be cut anywhere.

* **`DataStreamState`** — `h3zero_data_stream_state_t`; `current_frame` is `NULL`, or the bytes of
  it that were received, one after another;
* **`parseDataStream`** — one call of the parser, which takes a frame header or some of it, or some
  of the content of a frame;
* **`receiveChunk`** — the calls for a chunk, and what is collected;
* **`TakesByte`** — what a call does with one byte, and with more bytes behind it;
* **`receiveChunk_eq_feed`** — a chunk is received as one byte after another;
* **`receive_chunks_eq`** — any chunks are received as one.

Whether there is memory for a frame is given by `malloc`. After an error the callers close the
connection, and nothing more is received.
-/

namespace Picoquic

namespace H3zero

/-! ### Frame headers -/

/-- `h3zero_varint_skip`. -/
def varintSkip (bytes : List UInt8) : ℕ := 1 <<< ((bytes.headD 0 &&& 0xC0) >>> 6).toNat

/-- `h3zero_varint_decode`, of `max_bytes` bytes: the length and the value. -/
def varintDecode (bytes : List UInt8) : ℕ × ℕ :=
  let length := varintSkip bytes
  if bytes.length < length then (0, 0)
  else
    (length, ((bytes.take length).drop 1).foldl (fun v b => (v <<< 8) + b.toNat)
      (bytes.headD 0 &&& 0x3F).toNat)

/-- `h3zero_frame_data`. -/
def frameData : ℕ := 0
/-- `h3zero_frame_header`. -/
def frameHeaderType : ℕ := 1
/-- `h3zero_frame_cancel_push`. -/
def frameCancelPush : ℕ := 3
/-- `h3zero_frame_settings`. -/
def frameSettings : ℕ := 4
/-- `h3zero_frame_goaway`. -/
def frameGoaway : ℕ := 7
/-- `h3zero_frame_max_push_id`. -/
def frameMaxPushId : ℕ := 0xD

/-- `H3ZERO_GENERAL_PROTOCOL_ERROR`. -/
def generalProtocolError : ℕ := 0x101
/-- `H3ZERO_INTERNAL_ERROR`. -/
def internalError : ℕ := 0x102
/-- `H3ZERO_FRAME_UNEXPECTED`. -/
def frameUnexpected : ℕ := 0x105
/-- `H3ZERO_FRAME_ERROR`. -/
def frameError : ℕ := 0x106

/-- `h3zero_data_stream_state_t`. -/
structure DataStreamState where
  header : HeaderParts := {}
  trailer : HeaderParts := {}
  currentFrame : Option (List UInt8) := none
  currentFrameType : ℕ := 0
  currentFrameLength : ℕ := 0
  currentFrameRead : ℕ := 0
  frameHeader : List UInt8 := List.replicate 16 0
  frameHeaderRead : ℕ := 0
  frameHeaderParsed : Bool := false
  headerFound : Bool := false
  dataFound : Bool := false
  trailerFound : Bool := false

/-- What a call returns: the pointer, and the two results next to it. -/
structure ParseResult where
  bytes : Option (List UInt8)
  state : DataStreamState
  availableData : ℕ := 0
  errorFound : ℕ := 0

namespace DataStreamState

/-- A byte is put into the frame header. -/
def putHeader (s : DataStreamState) (b : UInt8) : DataStreamState :=
  { s with
    frameHeader := s.frameHeader.set s.frameHeaderRead b
    frameHeaderRead := s.frameHeaderRead + 1 }

/-- Bytes are put into the frame header as long as there are less than `n` in it. -/
def fillHeader (n : ℕ) : List UInt8 → DataStreamState → List UInt8 × DataStreamState
  | [], s => ([], s)
  | b :: bytes, s =>
    if s.frameHeaderRead < n then fillHeader n bytes (s.putHeader b) else (b :: bytes, s)

/-- The length of the type of a frame. -/
def frameTypeLength (s : DataStreamState) : ℕ := varintSkip s.frameHeader

/-- The length of a frame header. -/
def frameHeaderLength (s : DataStreamState) : ℕ :=
  varintSkip (s.frameHeader.drop s.frameTypeLength) + s.frameTypeLength

/-- The type of a frame is read. -/
def readType (s : DataStreamState) : DataStreamState :=
  { s with currentFrameType := (varintDecode (s.frameHeader.take s.frameTypeLength)).2 }

/-- The length of a frame is read, and its content begins. -/
def readLength (s : DataStreamState) : DataStreamState :=
  { s with
    currentFrameLength := (varintDecode ((s.frameHeader.drop s.frameTypeLength).take
      (s.frameHeaderLength - s.frameTypeLength))).2
    currentFrameRead := 0
    frameHeaderParsed := true }

end DataStreamState

/-- Which frames are accepted, when their header was read. -/
def frameHeaderDone (malloc : ℕ → Bool) (bytes : List UInt8) (s : DataStreamState) : ParseResult :=
  if s.currentFrameType = frameData then
    if !s.headerFound || s.trailerFound then
      { bytes := none, state := s, errorFound := frameUnexpected }
    else { bytes := some bytes, state := s }
  else if s.currentFrameType = frameHeaderType then
    if s.headerFound && (!s.dataFound || s.trailerFound) then
      { bytes := none, state := s, errorFound := frameUnexpected }
    else if 0x10000 < s.currentFrameLength then
      { bytes := none, state := s, errorFound := internalError }
    else if malloc s.currentFrameLength then
      { bytes := some bytes, state := { s with currentFrame := some [] } }
    else
      { bytes := none, state := { s with currentFrame := none }, errorFound := internalError }
  else if s.currentFrameType = frameCancelPush ∨ s.currentFrameType = frameGoaway ∨
      s.currentFrameType = frameMaxPushId then
    { bytes := none, state := s, errorFound := generalProtocolError }
  else if s.currentFrameType = frameSettings then
    { bytes := none, state := s, errorFound := frameUnexpected }
  else { bytes := some bytes, state := s }

/-- The rest of a frame header, when its type was read. The bytes of its length that are not there
yet are left from a header before. -/
def parseFrameLength (malloc : ℕ → Bool) (bytes : List UInt8) (s : DataStreamState) : ParseResult :=
  let (bytes, s) := s.fillHeader (s.frameTypeLength + 1) bytes
  if 16 < s.frameHeaderLength then { bytes := none, state := s, errorFound := internalError }
  else
    let (bytes, s) := s.fillHeader s.frameHeaderLength bytes
    if s.frameHeaderLength ≤ s.frameHeaderRead then frameHeaderDone malloc bytes s.readLength
    else { bytes := some bytes, state := s }

/-- A frame header, whose first byte is there. -/
def parseFrameType (malloc : ℕ → Bool) (bytes : List UInt8) (s : DataStreamState) : ParseResult :=
  let (bytes, s) := s.fillHeader s.frameTypeLength bytes
  if s.frameHeaderRead < s.frameTypeLength then { bytes := some bytes, state := s }
  else parseFrameLength malloc bytes s.readType

/-- The part of `h3zero_parse_data_stream` for a frame header. -/
def parseFrameHeader (malloc : ℕ → Bool) (bytes : List UInt8) (s : DataStreamState) : ParseResult :=
  let (bytes, s) := s.fillHeader 1 bytes
  parseFrameType malloc bytes s

/-! ### Content -/

namespace DataStreamState

/-- The next frame header is awaited. -/
def nextFrame (s : DataStreamState) : DataStreamState :=
  { s with frameHeaderParsed := false, frameHeaderRead := 0 }

/-- A header block is parsed, to the header or to the trailer. -/
def setParts (s : DataStreamState) (parts : HeaderParts) : DataStreamState :=
  let s := if s.headerFound then { s with trailer := parts } else { s with header := parts }
  { s with trailerFound := s.headerFound, headerFound := true }

/-- Some content is read. -/
def readContent (s : DataStreamState) (available : ℕ) : DataStreamState :=
  { s with currentFrameRead := s.currentFrameRead + available }

/-- The bytes of a header frame are there. -/
def setFrame (s : DataStreamState) (frame : Option (List UInt8)) : DataStreamState :=
  { s with currentFrame := frame }

end DataStreamState

/-- A header frame that is complete is parsed, and its memory is given back. -/
def headerFrameDone (frame bytes : List UInt8) (s : DataStreamState) : Except Fault ParseResult :=
  match parseQpackHeaderFrame frame with
  | .error e => .error e
  | .ok (parsed, parts) =>
    let s := (s.setParts parts).nextFrame.setFrame none
    if parsed = some [] then .ok { bytes := some bytes, state := s }
    else .ok { bytes := none, state := s, errorFound := frameError }

/-- The content of a header frame, which is copied until it is complete. -/
def parseHeaderContent (available : ℕ) (bytes : List UInt8) (s : DataStreamState) :
    Except Fault ParseResult :=
  match s.currentFrame with
  | none => .error .beyondEnd
  | some frame =>
    let frame := frame ++ bytes.take available
    let s := (s.readContent available).setFrame (some frame)
    if s.currentFrameLength ≤ s.currentFrameRead then
      headerFrameDone frame (bytes.drop available) s
    else .ok { bytes := some (bytes.drop available), state := s }

/-- The content of a data frame, which is left to the caller. -/
def parseDataContent (available : ℕ) (bytes : List UInt8) (s : DataStreamState) : ParseResult :=
  let s := s.readContent available
  if s.currentFrameLength ≤ s.currentFrameRead then
    { bytes := some bytes, state := { s.nextFrame with dataFound := true },
      availableData := available }
  else { bytes := some bytes, state := s, availableData := available }

/-- The content of another frame, which is ignored. -/
def parseUnknownContent (available : ℕ) (bytes : List UInt8) (s : DataStreamState) : ParseResult :=
  let s := s.readContent available
  if s.currentFrameLength ≤ s.currentFrameRead then
    { bytes := some (bytes.drop available), state := s.nextFrame }
  else { bytes := some (bytes.drop available), state := s }

/-- The part of `h3zero_parse_data_stream` for the content of a frame. -/
def parseContent (available : ℕ) (bytes : List UInt8) (s : DataStreamState) :
    Except Fault ParseResult :=
  if s.currentFrameType = frameHeaderType then parseHeaderContent available bytes s
  else if s.currentFrameType = frameData then .ok (parseDataContent available bytes s)
  else .ok (parseUnknownContent available bytes s)

/-- The bytes that are there of the content of a frame. -/
def availableContent (bytes : List UInt8) (s : DataStreamState) : ℕ :=
  if s.currentFrameLength < s.currentFrameRead + bytes.length then
    s.currentFrameLength - s.currentFrameRead
  else bytes.length

/-- `h3zero_parse_data_stream`. -/
def parseDataStream (malloc : ℕ → Bool) (bytes : List UInt8) (s : DataStreamState) :
    Except Fault ParseResult :=
  if bytes = [] then .ok { bytes := none, state := s, errorFound := internalError }
  else if !s.frameHeaderParsed then .ok (parseFrameHeader malloc bytes s)
  else parseContent (availableContent bytes s) bytes s

/-! ### Chunks -/

/-- What has become of what was received. -/
inductive Outcome
  /-- The state, and the payload that was collected. -/
  | running (state : DataStreamState) (payload : List UInt8)
  /-- The parser found an error. -/
  | closed (state : DataStreamState) (payload : List UInt8) (errorFound : ℕ)
  /-- The parser did what it must not do. -/
  | fault (f : Fault)

/-- The loop of the callers of `h3zero_parse_data_stream`, in at most `fuel` rounds. -/
def receiveLoop (malloc : ℕ → Bool) : ℕ → List UInt8 → DataStreamState → List UInt8 →
    Option Outcome
  | _, [], s, payload => some (.running s payload)
  | 0, _ :: _, _, _ => none
  | fuel + 1, b :: bytes, s, payload =>
    match parseDataStream malloc (b :: bytes) s with
    | .error f => some (.fault f)
    | .ok r =>
      match r.bytes with
      | none => some (.closed r.state payload r.errorFound)
      | some rest =>
        receiveLoop malloc fuel (rest.drop r.availableData) r.state
          (payload ++ rest.take r.availableData)

/-- The calls for a chunk. There are at most two for a byte: a frame without content takes one of
its own. -/
def receiveChunk (malloc : ℕ → Bool) (outcome : Outcome) (chunk : List UInt8) : Option Outcome :=
  match outcome with
  | .running s payload => receiveLoop malloc (2 * chunk.length + 1) chunk s payload
  | outcome => some outcome

/-- One chunk after another. -/
def receiveChunks (malloc : ℕ → Bool) (outcome : Outcome) (chunks : List (List UInt8)) :
    Option Outcome :=
  chunks.foldlM (receiveChunk malloc) outcome

/-! ### One byte of a frame header -/

theorem varintSkip_pos (bytes : List UInt8) : 1 ≤ varintSkip bytes := by
  rw [varintSkip, Nat.one_shiftLeft]
  exact Nat.two_pow_pos _

theorem varintSkip_le (bytes : List UInt8) : varintSkip bytes ≤ 8 := by
  have hand : (bytes.headD 0 &&& 0xC0).toNat ≤ 192 := by
    rw [UInt8.toNat_and]
    exact Nat.and_le_right
  have hshift : ((bytes.headD 0 &&& 0xC0) >>> 6).toNat ≤ 3 := by
    rw [UInt8.toNat_shiftRight, Nat.shiftRight_eq_div_pow]
    change (bytes.headD 0 &&& 0xC0).toNat / 64 ≤ 3
    omega
  rw [varintSkip, Nat.one_shiftLeft]
  exact Nat.pow_le_pow_right (by decide) hshift

section FrameHeader

variable {malloc : ℕ → Bool} {s : DataStreamState} {b : UInt8} {bytes : List UInt8} {n : ℕ}

namespace DataStreamState

/-- A frame header that is not complete. -/
def Incomplete (s : DataStreamState) : Prop := s.frameHeaderRead < s.frameHeaderLength

theorem frameTypeLength_pos : 1 ≤ s.frameTypeLength := varintSkip_pos _

theorem frameHeaderLength_le : s.frameHeaderLength ≤ 16 :=
  Nat.add_le_add (varintSkip_le _) (varintSkip_le _)

theorem frameTypeLength_lt : s.frameTypeLength < s.frameHeaderLength := by
  have hpos := varintSkip_pos (s.frameHeader.drop s.frameTypeLength)
  rw [frameHeaderLength]
  omega

theorem varintSkip_set {l : List UInt8} (h : 1 ≤ n) : varintSkip (l.set n b) = varintSkip l := by
  obtain ⟨k, rfl⟩ : ∃ k, n = k + 1 := ⟨n - 1, by omega⟩
  rcases l with _ | ⟨c, l⟩
  · rfl
  · rfl

/-- A byte behind the first one does not change the length of the type. -/
theorem frameTypeLength_putHeader (h : 1 ≤ s.frameHeaderRead) :
    (s.putHeader b).frameTypeLength = s.frameTypeLength :=
  varintSkip_set h

/-- A byte behind the type does not change the type. -/
theorem readType_putHeader (h : s.frameTypeLength ≤ s.frameHeaderRead) :
    (s.putHeader b).readType = s.readType.putHeader b := by
  have hlength : (s.putHeader b).frameTypeLength = s.frameTypeLength :=
    frameTypeLength_putHeader (Nat.le_trans frameTypeLength_pos h)
  rw [readType, hlength]
  simp only [putHeader, readType, List.take_set_of_le h]

/-- A byte behind the first one of the length does not change the length of the header. -/
theorem frameHeaderLength_putHeader (h : s.frameTypeLength < s.frameHeaderRead) :
    (s.putHeader b).frameHeaderLength = s.frameHeaderLength := by
  have hpos := @frameTypeLength_pos s
  have hlength : (s.putHeader b).frameTypeLength = s.frameTypeLength :=
    frameTypeLength_putHeader (by omega)
  rw [frameHeaderLength, frameHeaderLength, hlength]
  simp only [putHeader]
  rw [List.drop_set, if_neg (by omega), varintSkip_set (by omega)]

theorem fillHeader_of_le (h : n ≤ s.frameHeaderRead) : s.fillHeader n bytes = (bytes, s) := by
  rcases bytes with _ | ⟨b, bytes⟩
  · rfl
  · rw [fillHeader, if_neg (by omega)]

theorem fillHeader_cons (h : s.frameHeaderRead < n) :
    s.fillHeader n (b :: bytes) = (s.putHeader b).fillHeader n bytes := by
  rw [fillHeader, if_pos h]

end DataStreamState

open DataStreamState

/-- A byte of the length of a frame is read with the bytes behind it. -/
theorem parseFrameLength_cons (htype : s.frameTypeLength ≤ s.frameHeaderRead) (h : s.Incomplete) :
    parseFrameLength malloc (b :: bytes) s = parseFrameLength malloc bytes (s.putHeader b) := by
  have hpos := @frameTypeLength_pos s
  have hsame : (s.putHeader b).frameTypeLength = s.frameTypeLength :=
    frameTypeLength_putHeader (by omega)
  have hread : (s.putHeader b).frameHeaderRead = s.frameHeaderRead + 1 := rfl
  rw [parseFrameLength, parseFrameLength, hsame]
  rcases Nat.lt_or_ge s.frameTypeLength s.frameHeaderRead with hlt | hge
  · have hlength := @frameHeaderLength_putHeader s b hlt
    rw [fillHeader_of_le (Nat.succ_le_of_lt hlt), fillHeader_of_le (by omega)]
    dsimp only
    rw [hlength, fillHeader_cons h, if_neg (Nat.not_lt.mpr frameHeaderLength_le),
      if_neg (Nat.not_lt.mpr frameHeaderLength_le)]
  · rw [fillHeader_cons (by omega)]

/-- A byte of the header of a frame is read with the bytes behind it. -/
theorem parseFrameType_cons (hfirst : 1 ≤ s.frameHeaderRead) (h : s.Incomplete) :
    parseFrameType malloc (b :: bytes) s = parseFrameType malloc bytes (s.putHeader b) := by
  have hsame : (s.putHeader b).frameTypeLength = s.frameTypeLength :=
    frameTypeLength_putHeader hfirst
  rw [parseFrameType, parseFrameType, hsame]
  rcases Nat.lt_or_ge s.frameHeaderRead s.frameTypeLength with hlt | hge
  · rw [fillHeader_cons hlt]
  · rw [fillHeader_of_le hge, fillHeader_of_le (Nat.le_succ_of_le hge)]
    have hnot : ¬ (s.putHeader b).frameHeaderRead < s.frameTypeLength :=
      Nat.not_lt.mpr (Nat.le_succ_of_le hge)
    dsimp only
    rw [if_neg (Nat.not_lt.mpr hge), hsame, if_neg hnot, readType_putHeader hge]
    exact parseFrameLength_cons hge h

theorem parseFrameHeader_cons (h : s.Incomplete) :
    parseFrameHeader malloc (b :: bytes) s = parseFrameType malloc bytes (s.putHeader b) := by
  rw [parseFrameHeader]
  rcases Nat.lt_or_ge s.frameHeaderRead 1 with hlt | hge
  · rw [fillHeader_cons hlt, fillHeader_of_le (Nat.le_add_left 1 _)]
  · rw [fillHeader_of_le hge]
    exact parseFrameType_cons hge h

/-- A frame header that is complete is dealt with, whatever is behind it. -/
theorem parseFrameType_of_complete (h : ¬ s.Incomplete) :
    parseFrameType malloc bytes s = frameHeaderDone malloc bytes s.readType.readLength := by
  have hle : s.frameHeaderLength ≤ s.frameHeaderRead := Nat.not_lt.mp h
  have htype := Nat.lt_of_lt_of_le (@frameTypeLength_lt s) hle
  rw [parseFrameType, fillHeader_of_le (Nat.le_of_lt htype)]
  dsimp only
  rw [if_neg (Nat.not_lt_of_lt htype), parseFrameLength,
    fillHeader_of_le (show s.readType.frameTypeLength + 1 ≤ s.readType.frameHeaderRead from htype)]
  dsimp only
  rw [if_neg (Nat.not_lt.mpr frameHeaderLength_le),
    fillHeader_of_le (show s.readType.frameHeaderLength ≤ s.readType.frameHeaderRead from hle)]
  exact if_pos hle

/-- The state in which a frame header that is not complete is left. -/
def DataStreamState.awaiting (s : DataStreamState) : DataStreamState :=
  if s.frameHeaderRead < s.frameTypeLength then s else s.readType

/-- Without more bytes, a frame header that is not complete is left as it is. -/
theorem parseFrameType_nil (h : s.Incomplete) :
    parseFrameType malloc [] s = { bytes := some [], state := s.awaiting } := by
  rw [parseFrameType, awaiting]
  dsimp only [fillHeader]
  split
  · rfl
  · rw [parseFrameLength]
    dsimp only [fillHeader]
    rw [if_neg (Nat.not_lt.mpr frameHeaderLength_le)]
    exact if_neg (Nat.not_le_of_lt h)

/-- More bytes are read as if the frame header had not been left. -/
theorem parseFrameType_awaiting :
    parseFrameType malloc bytes s.awaiting = parseFrameType malloc bytes s := by
  rw [awaiting]
  split
  · rfl
  · rename_i hge
    have hle := Nat.not_lt.mp hge
    rw [parseFrameType, parseFrameType, fillHeader_of_le hle,
      fillHeader_of_le (show s.readType.frameTypeLength ≤ s.readType.frameHeaderRead from hle)]
    dsimp only
    rw [if_neg hge]
    exact if_neg hge

end FrameHeader

/-! ### Calls -/

/-- What a call does, for its caller. -/
inductive Call
  /-- The parser did what it must not do. -/
  | fault (f : Fault)
  /-- The parser found an error. -/
  | closed (state : DataStreamState) (errorFound : ℕ)
  /-- There is some payload, and the rest of the bytes is left for the next call. -/
  | next (payload rest : List UInt8) (state : DataStreamState)

namespace Call

/-- What the result of a call is for its caller. -/
def ofResult (r : ParseResult) : Call :=
  match r.bytes with
  | none => closed r.state r.errorFound
  | some bytes => next (bytes.take r.availableData) (bytes.drop r.availableData) r.state

/-- A call of the parser. -/
def parse (malloc : ℕ → Bool) (bytes : List UInt8) (s : DataStreamState) : Call :=
  match parseDataStream malloc bytes s with
  | .error f => fault f
  | .ok r => ofResult r

/-- There was some payload before. -/
def after (data : List UInt8) : Call → Call
  | next payload rest s => next (data ++ payload) rest s
  | c => c

end Call

/-- The loop of the callers in terms of the calls. -/
theorem receiveLoop_cons {malloc : ℕ → Bool} {fuel : ℕ} {b : UInt8} {bytes payload : List UInt8}
    {s : DataStreamState} :
    receiveLoop malloc (fuel + 1) (b :: bytes) s payload =
      match Call.parse malloc (b :: bytes) s with
      | .fault f => some (.fault f)
      | .closed s errorFound => some (.closed s payload errorFound)
      | .next data rest s => receiveLoop malloc fuel rest s (payload ++ data) := by
  rw [receiveLoop, Call.parse]
  rcases parseDataStream malloc (b :: bytes) s with f | r
  · rfl
  · dsimp only
    rw [Call.ofResult]
    rcases r.bytes with _ | rest
    · rfl
    · rfl

/-- A state between two calls: a frame header that is awaited is not complete. -/
def DataStreamState.Ready (s : DataStreamState) : Prop :=
  s.frameHeaderParsed = false → s.Incomplete

theorem DataStreamState.ready_nextFrame {s : DataStreamState} (h : s.frameHeaderRead = 0) :
    s.Ready := by
  intro _
  rw [Incomplete, h]
  exact Nat.lt_of_le_of_lt (Nat.zero_le _) frameTypeLength_lt

/-- **What a call does with a byte**, and with more bytes behind it. -/
inductive TakesByte (malloc : ℕ → Bool) (s : DataStreamState) (b : UInt8) : Prop
  /-- It is the end, whatever is behind the byte. -/
  | fault (f : Fault) (h : ∀ bytes, Call.parse malloc (b :: bytes) s = .fault f)
  | closed (s' : DataStreamState) (errorFound : ℕ)
    (h : ∀ bytes, Call.parse malloc (b :: bytes) s = .closed s' errorFound)
  /-- A frame without content is left behind, and the byte is not taken. -/
  | leaves (s' : DataStreamState) (ready : s'.Ready) (parsed : s.frameHeaderParsed = true)
    (awaits : s'.frameHeaderParsed = false)
    (h : ∀ bytes, Call.parse malloc (b :: bytes) s = .next [] (b :: bytes) s')
  /-- The byte is the last one that the call takes. -/
  | ends (data : List UInt8) (s' : DataStreamState) (ready : s'.Ready)
    (h : ∀ bytes, Call.parse malloc (b :: bytes) s = .next data bytes s')
  /-- More bytes are taken as if there were another call for them, and payload is not lost by an
  error in them. -/
  | continues (data : List UInt8) (s' : DataStreamState) (ready : s'.Ready)
    (one : Call.parse malloc [b] s = .next data [] s')
    (more : ∀ bytes, bytes ≠ [] →
      Call.parse malloc (b :: bytes) s = (Call.parse malloc bytes s').after data)
    (keeps : data = [] ∨ ∀ bytes, bytes ≠ [] →
      ∃ payload rest s'', Call.parse malloc bytes s' = .next payload rest s'')

section Calls

variable {malloc : ℕ → Bool} {s : DataStreamState} {b : UInt8} {bytes : List UInt8} {a : ℕ}

open DataStreamState

theorem Call.after_nil (c : Call) : c.after [] = c := by
  rcases c with _ | _ | _ <;> rfl

theorem parse_frameHeader (hawaits : s.frameHeaderParsed = false) (h : s.Incomplete) :
    Call.parse malloc (b :: bytes) s =
      .ofResult (parseFrameType malloc bytes (s.putHeader b)) := by
  rw [Call.parse, parseDataStream, if_neg (List.cons_ne_nil _ _), hawaits,
    ← parseFrameHeader_cons h]
  rfl

/-- A frame is refused or accepted, whatever is behind its header. -/
theorem frameHeaderDone_cases (malloc : ℕ → Bool) (s : DataStreamState) :
    (∃ s' errorFound, ∀ bytes, Call.ofResult (frameHeaderDone malloc bytes s) =
      .closed s' errorFound) ∨
    ∃ s' : DataStreamState, s'.frameHeaderParsed = s.frameHeaderParsed ∧
      ∀ bytes, Call.ofResult (frameHeaderDone malloc bytes s) = .next [] bytes s' := by
  simp only [frameHeaderDone]
  split_ifs
  · exact .inl ⟨_, _, fun _ => rfl⟩
  · exact .inr ⟨s, rfl, fun _ => rfl⟩
  · exact .inl ⟨_, _, fun _ => rfl⟩
  · exact .inl ⟨_, _, fun _ => rfl⟩
  · exact .inr ⟨s.setFrame (some []), rfl, fun _ => rfl⟩
  · exact .inl ⟨_, _, fun _ => rfl⟩
  · exact .inl ⟨_, _, fun _ => rfl⟩
  · exact .inl ⟨_, _, fun _ => rfl⟩
  · exact .inr ⟨s, rfl, fun _ => rfl⟩

/-- A byte of a frame header. -/
theorem takesByte_frameHeader (hawaits : s.frameHeaderParsed = false) (h : s.Incomplete) :
    TakesByte malloc s b := by
  have hparse : ∀ bytes, Call.parse malloc (b :: bytes) s =
      .ofResult (parseFrameType malloc bytes (s.putHeader b)) := fun bytes =>
    parse_frameHeader hawaits h
  by_cases hcomplete : (s.putHeader b).Incomplete
  · have hone : Call.parse malloc [b] s = .next [] [] (s.putHeader b).awaiting := by
      rw [hparse, parseFrameType_nil hcomplete]
      rfl
    have hstill : (s.putHeader b).awaiting.Incomplete ∧
        (s.putHeader b).awaiting.frameHeaderParsed = false ∧
        1 ≤ (s.putHeader b).awaiting.frameHeaderRead := by
      rw [awaiting]
      split
      · exact ⟨hcomplete, hawaits, Nat.le_add_left 1 _⟩
      · exact ⟨hcomplete, hawaits, Nat.le_add_left 1 _⟩
    refine .continues [] _ (fun _ => hstill.1) hone (fun bytes hne => ?_) (.inl rfl)
    have hheader : parseFrameHeader malloc bytes (s.putHeader b).awaiting =
        parseFrameType malloc bytes (s.putHeader b) := by
      rw [parseFrameHeader, fillHeader_of_le hstill.2.2]
      exact parseFrameType_awaiting
    rw [hparse, Call.after_nil, Call.parse, parseDataStream, if_neg hne, hstill.2.1, ← hheader]
    rfl
  · have hdone : ∀ bytes, Call.parse malloc (b :: bytes) s =
        .ofResult (frameHeaderDone malloc bytes (s.putHeader b).readType.readLength) := by
      intro bytes
      rw [hparse, parseFrameType_of_complete hcomplete]
    obtain ⟨s', errorFound, hs'⟩ | ⟨s', hparsed, hs'⟩ :=
      frameHeaderDone_cases malloc (s.putHeader b).readType.readLength
    · exact .closed s' errorFound fun bytes => (hdone bytes).trans (hs' bytes)
    · refine .ends [] s' (fun hfalse => ?_) fun bytes => (hdone bytes).trans (hs' bytes)
      cases hfalse.symm.trans hparsed

/-! ### One byte of the content of a frame -/

/-- A call for content. -/
def Call.content (available : ℕ) (bytes : List UInt8) (s : DataStreamState) : Call :=
  match parseContent available bytes s with
  | .error f => fault f
  | .ok r => ofResult r

theorem parse_content (hparsed : s.frameHeaderParsed = true) (hne : bytes ≠ []) :
    Call.parse malloc bytes s = Call.content (availableContent bytes s) bytes s := by
  rw [Call.parse, parseDataStream, if_neg hne, hparsed]
  rfl

/-- A header frame that is complete is parsed, whatever is behind it. -/
theorem headerFrameDone_cases (frame : List UInt8) (s : DataStreamState) :
    (∃ f, ∀ bytes, headerFrameDone frame bytes s = .error f) ∨
    (∃ s', ∀ bytes, headerFrameDone frame bytes s =
      .ok { bytes := none, state := s', errorFound := frameError }) ∨
    ∃ s' : DataStreamState, s'.frameHeaderParsed = false ∧ s'.frameHeaderRead = 0 ∧
      ∀ bytes, headerFrameDone frame bytes s = .ok { bytes := some bytes, state := s' } := by
  simp only [headerFrameDone]
  rcases parseQpackHeaderFrame frame with e | ⟨parsed, parts⟩
  · exact .inl ⟨e, fun _ => rfl⟩
  · by_cases hparsed : parsed = some []
    · exact .inr (.inr ⟨(s.setParts parts).nextFrame.setFrame none, rfl, rfl, fun _ =>
        if_pos hparsed⟩)
    · exact .inr (.inl ⟨_, fun _ => if_neg hparsed⟩)

/-- The end of a frame is an end of the stream, or the next frame header is awaited. -/
theorem content_of_complete (front : List UInt8)
    (h : s.currentFrameLength ≤ s.currentFrameRead + front.length) :
    (∃ f, ∀ bytes, Call.content front.length (front ++ bytes) s = .fault f) ∨
    (∃ s' errorFound, ∀ bytes, Call.content front.length (front ++ bytes) s =
      .closed s' errorFound) ∨
    ∃ data s', s'.frameHeaderParsed = false ∧ s'.frameHeaderRead = 0 ∧ (front = [] → data = []) ∧
      ∀ bytes, Call.content front.length (front ++ bytes) s = .next data bytes s' := by
  have hread : (s.readContent front.length).currentFrameLength ≤
      (s.readContent front.length).currentFrameRead := h
  by_cases hheader : s.currentFrameType = frameHeaderType
  · rcases hframe : s.currentFrame with _ | frame
    · refine .inl ⟨.beyondEnd, fun bytes => ?_⟩
      rw [Call.content, parseContent, if_pos hheader, parseHeaderContent, hframe]
    · have hcontent : ∀ bytes, Call.content front.length (front ++ bytes) s =
          match headerFrameDone (frame ++ front) bytes
            ((s.readContent front.length).setFrame (some (frame ++ front))) with
          | .error f => .fault f
          | .ok r => .ofResult r := by
        intro bytes
        rw [Call.content, parseContent, if_pos hheader, parseHeaderContent, hframe]
        dsimp only
        rw [List.take_left, List.drop_left, if_pos]
        exact hread
      obtain ⟨f, hf⟩ | ⟨s', hs'⟩ | ⟨s', hparsed, hzero, hs'⟩ :=
        headerFrameDone_cases (frame ++ front)
          ((s.readContent front.length).setFrame (some (frame ++ front)))
      · exact .inl ⟨f, fun bytes => by rw [hcontent, hf]⟩
      · exact .inr (.inl ⟨s', frameError, fun bytes => by rw [hcontent, hs']; rfl⟩)
      · refine .inr (.inr ⟨[], s', hparsed, hzero, fun _ => rfl, fun bytes => ?_⟩)
        rw [hcontent, hs']
        rfl
  · by_cases hdata : s.currentFrameType = frameData
    · have hcontent : ∀ bytes, parseContent front.length (front ++ bytes) s =
          .ok (parseDataContent front.length (front ++ bytes) s) := by
        intro bytes
        rw [parseContent, if_neg hheader, if_pos hdata]
      refine .inr (.inr ⟨front, { (s.readContent front.length).nextFrame with dataFound := true },
        rfl, rfl, fun hnil => hnil, fun bytes => ?_⟩)
      rw [Call.content, hcontent, parseDataContent, if_pos hread]
      dsimp only [Call.ofResult]
      rw [List.take_left, List.drop_left]
    · have hcontent : ∀ bytes, parseContent front.length (front ++ bytes) s =
          .ok (parseUnknownContent front.length (front ++ bytes) s) := by
        intro bytes
        rw [parseContent, if_neg hheader, if_neg hdata]
      refine .inr (.inr ⟨[], (s.readContent front.length).nextFrame, rfl, rfl, fun _ => rfl,
        fun bytes => ?_⟩)
      rw [Call.content, hcontent, parseUnknownContent, if_pos hread]
      dsimp only [Call.ofResult]
      rw [List.drop_left]
      rfl

/-- The state after a byte of a frame that is not complete. -/
def DataStreamState.takeContent (s : DataStreamState) (b : UInt8) : DataStreamState :=
  if s.currentFrameType = frameHeaderType then
    (s.readContent 1).setFrame (s.currentFrame.map (· ++ [b]))
  else s.readContent 1

/-- What of such a byte is payload. -/
def DataStreamState.payload (s : DataStreamState) (b : UInt8) : List UInt8 :=
  if s.currentFrameType = frameHeaderType then []
  else if s.currentFrameType = frameData then [b]
  else []

theorem DataStreamState.readContent_add :
    (s.readContent 1).readContent a = s.readContent (a + 1) := by
  rw [readContent, readContent, readContent, Nat.add_comm a, ← Nat.add_assoc]

/-- More content is read as if there were another call for it. -/
theorem content_cons (h : s.currentFrameType = frameHeaderType → s.currentFrame.isSome) :
    Call.content (a + 1) (b :: bytes) s =
      (Call.content a bytes (s.takeContent b)).after (s.payload b) := by
  rw [Call.content, Call.content, takeContent, payload]
  by_cases hheader : s.currentFrameType = frameHeaderType
  · obtain ⟨frame, hframe⟩ := Option.isSome_iff_exists.mp (h hheader)
    have hsame : parseContent (a + 1) (b :: bytes) s =
        parseContent a bytes ((s.readContent 1).setFrame (some (frame ++ [b]))) := by
      have hagain : ((s.readContent 1).setFrame (some (frame ++ [b]))).currentFrameType =
        frameHeaderType := hheader
      rw [parseContent, if_pos hheader, parseContent, if_pos hagain, parseHeaderContent, hframe,
        parseHeaderContent]
      dsimp only
      rw [List.take_succ_cons, List.drop_succ_cons, ← readContent_add, List.append_cons]
      rfl
    rw [if_pos hheader, if_pos hheader, Call.after_nil, hframe, hsame]
    rfl
  · have hagain : ¬ (s.readContent 1).currentFrameType = frameHeaderType := hheader
    rw [if_neg hheader, if_neg hheader]
    by_cases hdata : s.currentFrameType = frameData
    · have hagain' : (s.readContent 1).currentFrameType = frameData := hdata
      rw [if_pos hdata, parseContent, if_neg hheader, if_pos hdata, parseContent, if_neg hagain,
        if_pos hagain', parseDataContent, parseDataContent, readContent_add]
      dsimp only
      split
      · rfl
      · rfl
    · have hagain' : ¬ (s.readContent 1).currentFrameType = frameData := hdata
      rw [if_neg hdata, parseContent, if_neg hheader, if_neg hdata, parseContent, if_neg hagain,
        if_neg hagain', parseUnknownContent, parseUnknownContent, readContent_add, Call.after_nil,
        List.drop_succ_cons]

/-- Without more content, a frame that is not complete is left as it is. -/
theorem content_nil (hmem : s.currentFrameType = frameHeaderType → s.currentFrame.isSome)
    (h : s.currentFrameRead < s.currentFrameLength) :
    Call.content 0 [] s = .next [] [] s := by
  have hnot : ¬ (s.readContent 0).currentFrameLength ≤ (s.readContent 0).currentFrameRead :=
    Nat.not_le_of_lt h
  rw [Call.content, parseContent]
  by_cases hheader : s.currentFrameType = frameHeaderType
  · obtain ⟨frame, hframe⟩ := Option.isSome_iff_exists.mp (hmem hheader)
    have hsame : (s.readContent 0).setFrame (some frame) = s := by
      rw [← hframe]
      rfl
    rw [if_pos hheader, parseHeaderContent, hframe]
    dsimp only
    rw [List.take_nil, List.append_nil, hsame, if_neg (Nat.not_le_of_lt h)]
    rfl
  · rw [if_neg hheader]
    by_cases hdata : s.currentFrameType = frameData
    · rw [if_pos hdata, parseDataContent, if_neg hnot]
      rfl
    · rw [if_neg hdata, parseUnknownContent, if_neg hnot]
      rfl

theorem availableContent_takeContent (h : s.currentFrameRead + 1 < s.currentFrameLength) :
    availableContent (b :: bytes) s = availableContent bytes (s.takeContent b) + 1 := by
  have hfields : (s.takeContent b).currentFrameLength = s.currentFrameLength ∧
      (s.takeContent b).currentFrameRead = s.currentFrameRead + 1 := by
    rw [takeContent]
    split
    · exact ⟨rfl, rfl⟩
    · exact ⟨rfl, rfl⟩
  rw [availableContent, availableContent, hfields.1, hfields.2, List.length_cons]
  split
  · rw [if_pos (by omega)]
    omega
  · rw [if_neg (by omega)]

/-- There is no error in the content of a data frame. -/
theorem content_data (hdata : s.currentFrameType = frameData) :
    ∃ payload rest s', Call.content a bytes s = .next payload rest s' := by
  have hheader : ¬ s.currentFrameType = frameHeaderType := by
    rw [hdata]
    decide
  rw [Call.content, parseContent, if_neg hheader, if_pos hdata, parseDataContent]
  dsimp only
  split
  · exact ⟨_, _, _, rfl⟩
  · exact ⟨_, _, _, rfl⟩

/-- A byte of the content of a frame. -/
theorem takesByte_content (hparsed : s.frameHeaderParsed = true) : TakesByte malloc s b := by
  have hparse : ∀ bytes, Call.parse malloc (b :: bytes) s =
      Call.content (availableContent (b :: bytes) s) (b :: bytes) s := fun bytes =>
    parse_content hparsed (List.cons_ne_nil _ _)
  rcases Nat.lt_or_ge s.currentFrameRead s.currentFrameLength with hmore | hdone
  · rcases Nat.lt_or_ge (s.currentFrameRead + 1) s.currentFrameLength with hlong | hlast
    · by_cases hmem : s.currentFrameType = frameHeaderType → s.currentFrame.isSome
      · -- The frame is not complete after the byte, so that more bytes are taken with it.
        have hstate : (s.takeContent b).frameHeaderParsed = true ∧
            (s.takeContent b).currentFrameRead < (s.takeContent b).currentFrameLength ∧
            ((s.takeContent b).currentFrameType = frameHeaderType →
              (s.takeContent b).currentFrame.isSome) := by
          rw [takeContent]
          split
          · refine ⟨hparsed, hlong, fun htype => ?_⟩
            rw [← hmem htype]
            exact Option.isSome_map
          · exact ⟨hparsed, hlong, hmem⟩
        refine .continues (s.payload b) (s.takeContent b) (fun hfalse => ?_) ?_
          (fun bytes hne => ?_) ?_
        · cases hfalse.symm.trans hstate.1
        · rw [hparse, availableContent_takeContent hlong, content_cons hmem]
          have hnone : availableContent [] (s.takeContent b) = 0 := by
            rw [availableContent, if_neg]
            · rfl
            · rw [List.length_nil]
              omega
          rw [hnone, content_nil hstate.2.2 hstate.2.1, Call.after, List.append_nil]
        · rw [hparse, availableContent_takeContent hlong, content_cons hmem,
            parse_content hstate.1 hne]
        · rw [payload]
          split
          · exact .inl rfl
          · rename_i hheader
            split
            · rename_i hdata
              refine .inr fun bytes hne => ?_
              rw [parse_content hstate.1 hne, takeContent, if_neg hheader]
              exact content_data hdata
            · exact .inl rfl
      · -- There is no memory for the header.
        obtain ⟨hheader, hnone⟩ := Classical.not_imp.mp hmem
        refine .fault .beyondEnd fun bytes => ?_
        rw [hparse, Call.content, parseContent, if_pos hheader, parseHeaderContent,
          Option.not_isSome_iff_eq_none.mp hnone]
    · -- The byte completes the frame.
      have hone : ∀ bytes, availableContent (b :: bytes) s = [b].length := by
        intro bytes
        rw [availableContent, List.length_cons, List.length_singleton]
        split
        · omega
        · omega
      obtain ⟨f, hf⟩ | ⟨s', errorFound, hs'⟩ | ⟨data, s', hawaits, hzero, -, hs'⟩ :=
        content_of_complete [b] hlast
      · exact .fault f fun bytes => by rw [hparse, hone]; exact hf bytes
      · exact .closed s' errorFound fun bytes => by rw [hparse, hone]; exact hs' bytes
      · exact .ends data s' (ready_nextFrame hzero) fun bytes => by
          rw [hparse, hone]
          exact hs' bytes
  · -- An empty frame is complete without the byte.
    have hnone : ∀ bytes, availableContent (b :: bytes) s = 0 := by
      intro bytes
      rw [availableContent, List.length_cons, if_pos (by omega)]
      omega
    obtain ⟨f, hf⟩ | ⟨s', errorFound, hs'⟩ | ⟨data, s', hawaits, hzero, hdata, hs'⟩ :=
      @content_of_complete s [] hdone
    · exact .fault f fun bytes => by rw [hparse, hnone]; exact hf (b :: bytes)
    · exact .closed s' errorFound fun bytes => by rw [hparse, hnone]; exact hs' (b :: bytes)
    · obtain rfl := hdata rfl
      exact .leaves s' (ready_nextFrame hzero) hparsed hawaits fun bytes => by
        rw [hparse, hnone]
        exact hs' (b :: bytes)

theorem takesByte (hs : s.Ready) (b : UInt8) : TakesByte malloc s b := by
  rcases hparsed : s.frameHeaderParsed with _ | _
  · exact takesByte_frameHeader hparsed (hs hparsed)
  · exact takesByte_content hparsed

end Calls

/-! ### Byte by byte -/

section Feed

variable {malloc : ℕ → Bool} {s s' : DataStreamState} {b : UInt8} {fuel : ℕ}
  {bytes payload data : List UInt8} {outcome : Outcome}

open DataStreamState

/-- A byte is received on its own. -/
def feed (malloc : ℕ → Bool) (outcome : Outcome) (b : UInt8) : Option Outcome :=
  receiveChunk malloc outcome [b]

/-- The parser is between two calls, or nothing more is received. -/
def Outcome.Ready : Outcome → Prop
  | running s _ => s.Ready
  | _ => True

theorem foldlM_feed_fault (f : Fault) :
    bytes.foldlM (feed malloc) (.fault f) = some (.fault f) := by
  induction bytes with
  | nil => rfl
  | cons b bytes ih => rwa [List.foldlM_cons]

theorem foldlM_feed_closed (errorFound : ℕ) :
    bytes.foldlM (feed malloc) (.closed s payload errorFound) =
      some (.closed s payload errorFound) := by
  induction bytes with
  | nil => rfl
  | cons b bytes ih => rwa [List.foldlM_cons]

theorem receiveLoop_one (h : Call.parse malloc [b] s = .next data [] s') :
    receiveLoop malloc (fuel + 1) [b] s payload = some (.running s' (payload ++ data)) := by
  rw [receiveLoop_cons, h]
  dsimp only
  rw [receiveLoop]

/-- The byte behind a frame without content is received in the state after the frame. -/
theorem feed_leaves (hs' : s'.Ready) (hawaits : s'.frameHeaderParsed = false)
    (h : Call.parse malloc [b] s = .next [] [b] s') :
    feed malloc (.running s payload) b = feed malloc (.running s' payload) b := by
  change receiveLoop malloc 3 [b] s payload = receiveLoop malloc 3 [b] s' payload
  rw [receiveLoop_cons, h]
  dsimp only
  rw [List.append_nil]
  cases @takesByte malloc s' hs' b with
  | fault f hf => rw [receiveLoop_cons, receiveLoop_cons, hf]
  | closed s'' errorFound hs'' => rw [receiveLoop_cons, receiveLoop_cons, hs'']
  | leaves s'' _ hparsed _ _ => cases hawaits.symm.trans hparsed
  | ends data s'' _ hs'' => rw [receiveLoop_one (hs'' []), receiveLoop_one (hs'' [])]
  | continues data s'' _ hone _ _ => rw [receiveLoop_one hone, receiveLoop_one hone]

/-- More bytes are received as if there were another call for them. -/
theorem receiveLoop_after (hne : bytes ≠ [])
    (hmore : Call.parse malloc (b :: bytes) s = (Call.parse malloc bytes s').after data)
    (hkeeps : data = [] ∨ ∃ payload rest s'', Call.parse malloc bytes s' = .next payload rest s'') :
    receiveLoop malloc (fuel + 1) (b :: bytes) s payload =
      receiveLoop malloc (fuel + 1) bytes s' (payload ++ data) := by
  obtain ⟨c, bytes, rfl⟩ := List.exists_cons_of_ne_nil hne
  rw [receiveLoop_cons, receiveLoop_cons, hmore]
  obtain rfl | ⟨data', rest, s'', hnext⟩ := hkeeps
  · rw [Call.after_nil, List.append_nil]
  · rw [hnext, Call.after]
    dsimp only
    rw [List.append_assoc]

/-- The calls that are still to come, at most: two for a byte, and one for a frame header that was
read. -/
def callsLeft (bytes : List UInt8) (s : DataStreamState) : ℕ :=
  2 * bytes.length + if s.frameHeaderParsed then 1 else 0

theorem callsLeft_le : callsLeft bytes s ≤ 2 * bytes.length + 1 := by
  rw [callsLeft]
  split <;> omega

/-- **The calls for a chunk do what calls for its bytes do**, one after another. The induction is on
the calls that are still to come. -/
theorem receiveLoop_eq_feed (hs : s.Ready) (hfuel : callsLeft bytes s ≤ fuel) :
    receiveLoop malloc fuel bytes s payload = bytes.foldlM (feed malloc) (.running s payload) := by
  induction hcalls : callsLeft bytes s using Nat.strongRecOn
    generalizing bytes s payload fuel with
  | ind calls ih =>
    subst hcalls
    rcases bytes with _ | ⟨b, bytes⟩
    · rcases fuel with _ | fuel <;> rfl
    · have hcalls : 2 * bytes.length + 2 ≤ callsLeft (b :: bytes) s := by
        rw [callsLeft, List.length_cons]
        omega
      obtain ⟨fuel, rfl⟩ : ∃ k, fuel = k + 1 := ⟨fuel - 1, by omega⟩
      rw [List.foldlM_cons]
      cases @takesByte malloc s hs b with
      | fault f h =>
        have hfeed : feed malloc (.running s payload) b = some (.fault f) := by
          change receiveLoop malloc 3 [b] s payload = _
          rw [receiveLoop_cons, h]
        rw [receiveLoop_cons, h, hfeed]
        exact (foldlM_feed_fault f).symm
      | closed s' errorFound h =>
        have hfeed : feed malloc (.running s payload) b =
            some (.closed s' payload errorFound) := by
          change receiveLoop malloc 3 [b] s payload = _
          rw [receiveLoop_cons, h]
        rw [receiveLoop_cons, h, hfeed]
        exact (foldlM_feed_closed errorFound).symm
      | leaves s' hs' hparsed hawaits h =>
        have hlt : callsLeft (b :: bytes) s' < callsLeft (b :: bytes) s := by
          rw [callsLeft, callsLeft, hparsed, hawaits]
          exact Nat.lt_succ_self _
        rw [receiveLoop_cons, h, feed_leaves hs' hawaits (h [])]
        dsimp only
        rw [List.append_nil, ih _ hlt hs' (by omega) rfl, List.foldlM_cons]
      | ends data s' hs' h =>
        have hle := @callsLeft_le s' bytes
        have hfeed : feed malloc (.running s payload) b = some (.running s' (payload ++ data)) :=
          receiveLoop_one (h [])
        rw [receiveLoop_cons, h, hfeed]
        exact ih _ (by omega) hs' (by omega) rfl
      | continues data s' hs' hone hmore hkeeps =>
        have hle := @callsLeft_le s' bytes
        have hfeed : feed malloc (.running s payload) b = some (.running s' (payload ++ data)) :=
          receiveLoop_one hone
        rw [hfeed]
        by_cases hne : bytes = []
        · subst hne
          exact receiveLoop_one hone
        · rw [receiveLoop_after hne (hmore bytes hne) (hkeeps.imp_right fun h => h bytes hne)]
          exact ih _ (by omega) hs' (by omega) rfl

/-- **A chunk is received as one byte after another.** -/
theorem receiveChunk_eq_feed (h : outcome.Ready) :
    receiveChunk malloc outcome bytes = bytes.foldlM (feed malloc) outcome := by
  rcases outcome with ⟨s, payload⟩ | ⟨s, payload, errorFound⟩ | f
  · exact receiveLoop_eq_feed h callsLeft_le
  · exact (foldlM_feed_closed errorFound).symm
  · exact (foldlM_feed_fault f).symm

/-- A byte leaves the parser between two calls, if it does so behind a frame without content. -/
theorem feed_ready_of_leaves (hs : s.Ready)
    (hleaves : s.frameHeaderParsed = true → ∀ s' : DataStreamState, s'.Ready →
      s'.frameHeaderParsed = false →
      ∃ outcome, feed malloc (.running s' payload) b = some outcome ∧ outcome.Ready) :
    ∃ outcome, feed malloc (.running s payload) b = some outcome ∧ outcome.Ready := by
  cases @takesByte malloc s hs b with
  | fault f h =>
    refine ⟨.fault f, ?_, trivial⟩
    change receiveLoop malloc 3 [b] s payload = _
    rw [receiveLoop_cons, h]
  | closed s' errorFound h =>
    refine ⟨.closed s' payload errorFound, ?_, trivial⟩
    change receiveLoop malloc 3 [b] s payload = _
    rw [receiveLoop_cons, h]
  | leaves s' hs' hparsed hawaits h =>
    rw [feed_leaves hs' hawaits (h [])]
    exact hleaves hparsed s' hs' hawaits
  | ends data s' hs' h => exact ⟨_, receiveLoop_one (h []), hs'⟩
  | continues data s' hs' hone _ _ => exact ⟨_, receiveLoop_one hone, hs'⟩

theorem feed_ready (h : outcome.Ready) (b : UInt8) :
    ∃ outcome', feed malloc outcome b = some outcome' ∧ outcome'.Ready := by
  rcases outcome with ⟨s, payload⟩ | ⟨s, payload, errorFound⟩ | f
  · refine feed_ready_of_leaves h fun _ s' hs' hawaits => feed_ready_of_leaves hs' fun hparsed => ?_
    cases hawaits.symm.trans hparsed
  · exact ⟨_, rfl, trivial⟩
  · exact ⟨_, rfl, trivial⟩

theorem foldlM_feed_ready (h : outcome.Ready) (bytes : List UInt8) :
    ∃ outcome', bytes.foldlM (feed malloc) outcome = some outcome' ∧ outcome'.Ready := by
  induction bytes generalizing outcome with
  | nil => exact ⟨outcome, rfl, h⟩
  | cons b bytes ih =>
    obtain ⟨outcome', hfeed, hready⟩ := @feed_ready malloc outcome h b
    rw [List.foldlM_cons, hfeed]
    exact ih hready

/-- Chunks are received as one byte after another. -/
theorem receiveChunks_eq_feed (h : outcome.Ready) (chunks : List (List UInt8)) :
    receiveChunks malloc outcome chunks = chunks.flatten.foldlM (feed malloc) outcome := by
  induction chunks generalizing outcome with
  | nil => rfl
  | cons chunk chunks ih =>
    obtain ⟨outcome', hchunk, hready⟩ := @foldlM_feed_ready malloc outcome h chunk
    rw [receiveChunks, List.foldlM_cons, receiveChunk_eq_feed h, List.flatten_cons,
      List.foldlM_append, hchunk]
    exact ih hready

end Feed

/-- **Segments.** However a string is cut into chunks, the callers receive from it what they receive
from one chunk: the same payload, header and trailer, the same flags, and the same error, if there
is one; even the same state. The calls for each chunk come to an end. -/
theorem receive_chunks_eq (malloc : ℕ → Bool) (chunks : List (List UInt8)) :
    ∃ outcome, receiveChunks malloc (.running {} []) chunks = some outcome ∧
      receiveChunks malloc (.running {} []) [chunks.flatten] = some outcome := by
  have hready : (Outcome.running {} []).Ready := DataStreamState.ready_nextFrame rfl
  obtain ⟨outcome, houtcome, -⟩ := @foldlM_feed_ready malloc _ hready chunks.flatten
  refine ⟨outcome, ?_, ?_⟩
  · rw [receiveChunks_eq_feed hready, houtcome]
  · rw [receiveChunks_eq_feed hready, List.flatten_singleton, houtcome]

/-- A header frame with the status 200, and a data frame, cut inside the length of the one and
before the length of the other. -/
example : ∃ s, receiveChunks (fun _ => true) (.running {} [])
    [[0x01, 0x40], [0x04, 0x00, 0x00, 0xD9, 0xF5, 0x00], [0x03, 1], [2, 3]] =
      some (.running s [1, 2, 3]) :=
  ⟨_, rfl⟩

end H3zero

end Picoquic
