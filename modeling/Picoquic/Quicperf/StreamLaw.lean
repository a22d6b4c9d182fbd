import Picoquic.Quicperf.Stream

/-!
# What both ends of a stream know

The bytes of the post are a function of the description and their number, so what the server makes
of any pieces is too. `PerfStream.Valid` says so at each point of an exchange; every callback keeps
it, whatever the sizes of the pieces.

* **`dataLeft_spec`**, **`writeLengthHeader_spec`**, **`accumulateHeader_spec`** — the loops;
* **`headerValue_postBytes`** — the header announces the response;
* **`PerfStream.Valid.preparePost`** and the like — the callbacks.
-/

namespace Picoquic

open QuicperfStreamDesc

/-! ### The bytes of the post -/

/-- The byte of the post at a position. -/
def postByte (header : List ℕ) (i : ℕ) : ℕ := if i < 8 then header.getD i 0 else 0x30

/-- The first `n` bytes of the post. -/
def postBytes (header : List ℕ) (n : ℕ) : List ℕ := (List.range' 0 n).map (postByte header)

variable (header : List ℕ)

@[simp]
theorem length_postBytes (n : ℕ) : (postBytes header n).length = n := by
  rw [postBytes, List.length_map, List.length_range']

theorem postBytes_add (m n : ℕ) :
    postBytes header (m + n) = postBytes header m ++ (List.range' m n).map (postByte header) := by
  have h := List.range'_append_1 (s := 0) (m := m) (n := n)
  rw [Nat.zero_add] at h
  rw [postBytes, ← h, List.map_append]
  rfl

theorem map_postByte_of_le {m : ℕ} (h : 8 ≤ m) (n : ℕ) :
    (List.range' m n).map (postByte header) = List.replicate n 0x30 := by
  refine List.eq_replicate_of_mem ?_ |>.trans (by rw [List.length_map, List.length_range'])
  intro b hb
  obtain ⟨i, hi, rfl⟩ := List.mem_map.mp hb
  have hle := (List.mem_range'_1.mp hi).1
  rw [postByte, if_neg (by omega)]

/-- **The loop that writes the header**, and the fill behind it. -/
theorem writeLengthHeader_spec (available nbPostBytes : ℕ) (buffer : List ℕ) :
    let r := writeLengthHeader header available nbPostBytes buffer
    r.1 ++ List.replicate r.2.2 0x30 =
        buffer ++ (List.range' nbPostBytes available).map (postByte header) ∧
      r.2.1 + r.2.2 = nbPostBytes + available := by
  induction available generalizing nbPostBytes buffer with
  | zero => exact ⟨rfl, rfl⟩
  | succ available ih =>
    rw [writeLengthHeader]
    split_ifs with h
    · obtain ⟨hbytes, hcount⟩ := ih (nbPostBytes + 1) (buffer ++ [header.getD nbPostBytes 0])
      have hbyte : postByte header nbPostBytes = header.getD nbPostBytes 0 := if_pos h
      refine ⟨?_, by omega⟩
      rw [hbytes, List.range'_succ, List.map_cons, hbyte, List.append_assoc, List.singleton_append]
    · refine ⟨?_, rfl⟩
      rw [map_postByte_of_le header (Nat.le_of_not_lt h)]

/-- What a reader makes of the first eight bytes. -/
def headerValue (bytes : List ℕ) : ℕ :=
  (bytes.take 8).foldl (fun value byte => u64 (u64 (value * 2 ^ 8) + byte)) 0

variable {bytes : List ℕ} {n : ℕ} {c : QuicperfStreamCtx} {length : ℕ} {isFin : Bool}

theorem headerValue_append_of_le (h : 8 ≤ bytes.length) (more : List ℕ) :
    headerValue (bytes ++ more) = headerValue bytes := by
  rw [headerValue, headerValue, List.take_append_of_le_length h]

theorem headerValue_concat (h : bytes.length < 8) (byte : ℕ) :
    headerValue (bytes ++ [byte]) = u64 (u64 (headerValue bytes * 2 ^ 8) + byte) := by
  have htake : (bytes ++ [byte]).take 8 = bytes ++ [byte] :=
    List.take_of_length_le (by rw [List.length_append, List.length_singleton]; omega)
  rw [headerValue, headerValue, htake, List.take_of_length_le (Nat.le_of_lt h), List.foldl_append]
  rfl

/-- **The loop that reads the header.** It does not matter where the header is cut. -/
theorem accumulateHeader_spec (before bytes : List ℕ) :
    let r := accumulateHeader bytes (headerValue before) before.length
    r.1 = headerValue (before ++ bytes) ∧ r.2.1 + r.2.2.length = (before ++ bytes).length := by
  induction bytes generalizing before with
  | nil =>
    rw [List.append_nil]
    exact ⟨rfl, rfl⟩
  | cons byte bytes ih =>
    rw [accumulateHeader]
    split_ifs with h
    · have hih := ih (before ++ [byte])
      rw [headerValue_concat h, List.length_append, List.length_singleton, List.append_assoc] at hih
      exact hih
    · refine ⟨(headerValue_append_of_le (Nat.le_of_not_lt h) _).symm, ?_⟩
      rw [List.length_append]

/-- The number that the header of a description announces. -/
def QuicperfStreamDesc.announced (d : QuicperfStreamDesc) : ℕ :=
  if d.isInfinite then 2 ^ 64 - 1 else d.responseSize

theorem u64_add_byte (h : n < 2 ^ 64) (m : ℕ) :
    u64 (u64 (n / 2 ^ (m + 8) * 2 ^ 8) + n / 2 ^ m % 2 ^ 8) = n / 2 ^ m := by
  have hsplit : n / 2 ^ (m + 8) = n / 2 ^ m / 2 ^ 8 := by rw [Nat.pow_add, Nat.div_div_eq_div_mul]
  have hlt : n / 2 ^ m < 2 ^ 64 := Nat.lt_of_le_of_lt (Nat.div_le_self _ _) h
  rw [hsplit, u64, u64]
  omega

theorem headerValue_lengthHeader {d : QuicperfStreamDesc} (h : d.responseSize < 2 ^ 64) :
    headerValue d.lengthHeader = d.announced := by
  rw [lengthHeader, announced]
  cases d.isInfinite with
  | true =>
    simp only [if_true]
    decide
  | false =>
    have hzero : (0 : ℕ) = d.responseSize / 2 ^ 64 := (Nat.div_eq_of_lt h).symm
    have hone : d.responseSize / 2 ^ 0 = d.responseSize := Nat.div_one _
    simp only [headerValue, List.range, List.range.loop, List.map_cons, List.map_nil,
      List.take_succ_cons, List.take_nil, List.foldl_cons, List.foldl_nil,
      Bool.false_eq_true, if_false, Nat.reduceSub, Nat.reduceMul]
    have hlast := u64_add_byte h 0
    rw [hone, Nat.zero_add] at hlast
    rw [hone, hzero, u64_add_byte h 56, u64_add_byte h 48, u64_add_byte h 40, u64_add_byte h 32,
      u64_add_byte h 24, u64_add_byte h 16, u64_add_byte h 8, hlast]

theorem length_lengthHeader (d : QuicperfStreamDesc) : d.lengthHeader.length = 8 := by
  rw [lengthHeader, List.length_map, List.length_range]

theorem postBytes_eight (d : QuicperfStreamDesc) : postBytes d.lengthHeader 8 = d.lengthHeader := by
  have hlen := length_lengthHeader d
  refine List.ext_getElem (by rw [length_postBytes, hlen]) fun i hi hi' => ?_
  have hlt : i < 8 := hlen ▸ hi'
  simp only [postBytes, List.getElem_map, List.getElem_range', Nat.zero_add, Nat.one_mul]
  rw [postByte, if_pos hlt, List.getD_eq_getElem?_getD, List.getElem?_eq_getElem hi',
    Option.getD_some]

/-- **The announcement.** Who reads a whole post knows the size of the response. -/
theorem headerValue_postBytes {d : QuicperfStreamDesc} (h : d.responseSize < 2 ^ 64) (hn : 8 ≤ n) :
    headerValue (postBytes d.lengthHeader n) = d.announced := by
  obtain ⟨k, rfl⟩ := Nat.exists_eq_add_of_le hn
  rw [postBytes_add, headerValue_append_of_le (by rw [length_postBytes]), postBytes_eight,
    headerValue_lengthHeader h]

/-! ### Sending -/

/-- What is left of a limit, at most `length` bytes, and whether it is used up. -/
def dataLeft (limit sent length : ℕ) : ℕ × Bool :=
  if limit < sent + length then (limit - sent, true) else (length, false)

theorem dataLeft_spec {limit sent : ℕ} (h : sent ≤ limit) (length : ℕ) :
    (dataLeft limit sent length).1 ≤ length ∧ sent + (dataLeft limit sent length).1 ≤ limit ∧
      ((dataLeft limit sent length).2 = true → sent + (dataLeft limit sent length).1 = limit) := by
  rw [dataLeft]
  split_ifs with hlt
  · exact ⟨by omega, by omega, fun _ => by omega⟩
  · exact ⟨Nat.le_refl _, by omega, fun h => absurd h (by simp)⟩

theorem availableData_client (h : c.nbPostBytes ≤ c.postSize) (hsize : c.postSize < 2 ^ 64)
    (hlength : c.nbPostBytes + length < 2 ^ 64) :
    availableData true c length = dataLeft c.postSize c.nbPostBytes length := by
  simp only [availableData, dataLeft, u64_of_lt hlength, sub64_of_le h hsize, Bool.not_true,
    Bool.false_and, Bool.false_eq_true, if_true, if_false]

theorem availableData_server (hstop : c.isStopped = false) (h : c.nbResponseBytes ≤ c.responseSize)
    (hsize : c.responseSize < 2 ^ 64) (hlength : c.nbResponseBytes + length < 2 ^ 64) :
    availableData false c length = dataLeft c.responseSize c.nbResponseBytes length := by
  simp only [availableData, dataLeft, u64_of_lt hlength, sub64_of_le h hsize, hstop,
    Bool.and_false, Bool.false_eq_true, if_false]

/-- **The client sends.** -/
theorem prepareToSend_client (h : c.nbPostBytes ≤ c.postSize) (hsize : c.postSize < 2 ^ 64)
    (hlength : c.nbPostBytes + length < 2 ^ 64) :
    quicperfPrepareToSend true c length =
      some ⟨{ c with nbPostBytes := c.nbPostBytes + (dataLeft c.postSize c.nbPostBytes length).1 },
        (List.range' c.nbPostBytes (dataLeft c.postSize c.nbPostBytes length).1).map
          (postByte c.lengthHeader),
        (dataLeft c.postSize c.nbPostBytes length).2⟩ := by
  obtain ⟨hle, hlimit, -⟩ := dataLeft_spec h length
  obtain ⟨hbytes, hcount⟩ := writeLengthHeader_spec c.lengthHeader
    (dataLeft c.postSize c.nbPostBytes length).1 c.nbPostBytes []
  rw [List.nil_append] at hbytes
  rw [quicperfPrepareToSend, availableData_client h hsize hlength]
  dsimp only
  rw [if_neg (Nat.not_lt.mpr hle), if_pos rfl, hbytes, hcount,
    u64_of_lt (Nat.lt_of_le_of_lt hlimit hsize)]

/-- **The server sends**, until it is told to stop. -/
theorem prepareToSend_server (hstop : c.isStopped = false) (h : c.nbResponseBytes ≤ c.responseSize)
    (hsize : c.responseSize < 2 ^ 64) (hlength : c.nbResponseBytes + length < 2 ^ 64) :
    quicperfPrepareToSend false c length =
      some ⟨{ c with
          nbResponseBytes :=
            c.nbResponseBytes + (dataLeft c.responseSize c.nbResponseBytes length).1 },
        List.replicate (dataLeft c.responseSize c.nbResponseBytes length).1 0x30,
        (dataLeft c.responseSize c.nbResponseBytes length).2⟩ := by
  obtain ⟨hle, hlimit, -⟩ := dataLeft_spec h length
  rw [quicperfPrepareToSend, availableData_server hstop h hsize hlength]
  dsimp only
  rw [if_neg (Nat.not_lt.mpr hle), if_neg Bool.false_ne_true,
    u64_of_lt (Nat.lt_of_le_of_lt hlimit hsize)]

theorem prepareToSend_stopped (hstop : c.isStopped = true) (hlt : c.nbResponseBytes < 2 ^ 64)
    (length : ℕ) : quicperfPrepareToSend false c length = some ⟨c, [], true⟩ := by
  have havailable : availableData false c length = (0, true) := by
    rw [availableData, hstop]
    rfl
  rw [quicperfPrepareToSend, havailable]
  dsimp only
  rw [if_neg (Nat.not_lt_zero _), if_neg Bool.false_ne_true, Nat.add_zero, u64_of_lt hlt]
  rfl

/-! ### Receiving -/

/-- **The server reads.** Its context depends on the bytes that were read, not on the pieces. -/
theorem receivePost_spec {before bytes : List ℕ} (hsize : c.responseSize = headerValue before)
    (hcount : c.nbPostBytes = before.length) (hlt : (before ++ bytes).length < 2 ^ 64)
    (hfin : isFin = true → 8 ≤ (before ++ bytes).length) :
    receivePost c bytes isFin =
      { c with
        nbPostBytes := (before ++ bytes).length
        responseSize := headerValue (before ++ bytes) } := by
  obtain ⟨hvalue, hlength⟩ := accumulateHeader_spec before bytes
  have hshort : (isFin && decide ((before ++ bytes).length < 8)) = false := by
    cases isFin with
    | true =>
      have hle := hfin rfl
      rw [Bool.true_and]
      exact decide_eq_false (Nat.not_lt.mpr hle)
    | false => rfl
  rw [receivePost, hsize, hcount]
  dsimp only
  rw [hvalue, hlength, u64_of_lt hlt, hshort]
  rfl

/-! ### The exchange -/

theorem Flow.not_canDeliver_new : ¬Flow.CanDeliver {} n isFin := by
  rintro ⟨-, hle, hend, hmore⟩
  cases isFin with
  | true => exact Bool.false_ne_true (hend rfl).1
  | false =>
    have hpos := hmore rfl
    have hzero : 0 + n ≤ 0 := hle
    omega

/-- What the code asks of a description: the header fits the post, and the numbers are those of
64-bit fields. -/
structure QuicperfStreamDesc.Sized (d : QuicperfStreamDesc) : Prop where
  le_postSize : 8 ≤ d.postSize
  postSize_lt : d.postSize < 2 ^ 64
  responseSize_lt : d.responseSize < 2 ^ 64

namespace PerfStream

/-- The context of the client while it works on the stream. -/
def clientCtx (s : PerfStream) (d : QuicperfStreamDesc) (streamId : ℕ) : QuicperfStreamCtx :=
  { initStreamCtx d streamId with
    nbPostBytes := s.post.bytes.length
    nbResponseBytes := s.response.read }

/-- The context of the server while it works on the stream. -/
def serverCtx (s : PerfStream) (streamId : ℕ) (isStopped : Bool) : QuicperfStreamCtx :=
  { streamId := streamId
    nbPostBytes := s.post.read
    responseSize := headerValue (s.post.bytes.take s.post.read)
    nbResponseBytes := s.response.bytes.length
    isStopped := isStopped }

/-- **What holds of a stream** from when the client opens it. -/
structure Valid (d : QuicperfStreamDesc) (streamId : ℕ) (s : PerfStream) : Prop where
  post_bytes : s.post.bytes = postBytes d.lengthHeader s.post.bytes.length
  post_le : s.post.bytes.length ≤ d.postSize
  post_fin : s.post.isFin = true → s.post.bytes.length = d.postSize
  post_read : s.post.read ≤ s.post.bytes.length
  post_lt : s.post.bytes.length < 2 ^ 62
  post_finRead : s.post.isFinRead = true →
    s.post.isFin = true ∧ s.post.read = s.post.bytes.length
  client : s.isComplete = false → s.client = some (s.clientCtx d streamId)
  server_none : s.server = none → s.post.isFinRead = false →
    s.post.read = 0
  server_some : s.response.isFin = false → s.post.isFinRead = true → s.server ≠ none
  server : ∀ c, s.server = some c →
    ∃ isStopped, c = s.serverCtx streamId isStopped ∧ (isStopped = true → s.isStopRequested = true)
  waits : s.post.isFinRead = false → s.response = {}
  response_le : s.response.bytes.length ≤ d.announced
  response_lt : s.response.bytes.length < 2 ^ 62
  response_fin : s.response.isFin = true →
    s.isStopRequested = true ∨ s.response.bytes.length = d.announced
  response_read : s.response.read ≤ s.response.bytes.length
  response_finRead : s.response.isFinRead = true →
    s.response.isFin = true ∧ s.response.read = s.response.bytes.length
  stop : s.isStopRequested = true → d.isInfinite = true ∧ s.post.isFinRead = true

variable {d : QuicperfStreamDesc} {streamId : ℕ} {s : PerfStream}

theorem preparePost_eq {p : PreparedData} (hc : s.client = some c)
    (hp : quicperfPrepareToSend true c length = some p) :
    s.preparePost length =
      .ok { s with client := some p.ctx, post := s.post.write p.bytes p.isFin } := by
  rw [preparePost, hc]
  dsimp only
  rw [hp]

theorem prepareResponse_eq {p : PreparedData} (hc : s.server = some c)
    (hp : quicperfPrepareToSend false c length = some p) :
    s.prepareResponse length =
      .ok { s with
        server := if p.isFin then none else some p.ctx
        response := s.response.write p.bytes p.isFin } := by
  rw [prepareResponse, hc]
  dsimp only
  rw [hp]

theorem processPost_eq (hc : s.server.getD { streamId := streamId } = c)
    (hclosed : c.isClosed = false) (hfin : s.response.isFin = false) :
    s.processPost streamId n isFin =
      .ok { s with
        server := some (receivePost c (s.post.chunk n) isFin)
        post := s.post.deliver n isFin
        response := { s.response with isActive := isFin || s.response.isActive } } := by
  have hactive : s.response.markActive = some { s.response with isActive := true } := by
    rw [Flow.markActive, if_neg (by rw [hfin]; exact Bool.false_ne_true)]
  rw [processPost, hc, hclosed]
  cases isFin with
  | true =>
    dsimp only
    rw [hactive]
    rfl
  | false => rfl

/-- A stream that was just opened. -/
theorem valid_opened (d : QuicperfStreamDesc) (streamId : ℕ) :
    Valid d streamId
      { client := some (initStreamCtx d streamId), post := { isActive := true } } where
  post_bytes := rfl
  post_le := Nat.zero_le _
  post_fin h := absurd h Bool.false_ne_true
  post_read := Nat.le_refl _
  post_lt := Nat.two_pow_pos 62
  post_finRead h := absurd h Bool.false_ne_true
  client _ := rfl
  server_none _ _ := rfl
  server_some _ h := absurd h Bool.false_ne_true
  server _ h := absurd h (by simp)
  waits _ := rfl
  response_le := Nat.zero_le _
  response_lt := Nat.two_pow_pos 62
  response_fin h := absurd h Bool.false_ne_true
  response_read := Nat.le_refl _
  response_finRead h := absurd h Bool.false_ne_true
  stop h := absurd h Bool.false_ne_true

namespace Valid

variable (h : s.Valid d streamId)

include h

theorem isFinRead_of_isComplete (hcomplete : s.isComplete = true) : s.post.isFinRead = true := by
  by_contra hunread
  have hwaits := h.waits (Bool.eq_false_iff.mpr hunread)
  rw [isComplete, hwaits, Bool.false_or] at hcomplete
  exact hunread (h.stop hcomplete).2

theorem isComplete_of_not_isFin (hfin : s.post.isFin = false) : s.isComplete = false := by
  refine Bool.eq_false_iff.mpr fun hcomplete => ?_
  have hpost := (h.post_finRead (h.isFinRead_of_isComplete hcomplete)).1
  exact Bool.false_ne_true (hfin.symm.trans hpost)

/-- **The client is polled.** -/
theorem preparePost (hd : d.Sized) (hpoll : s.post.CanPoll length) :
    ∃ s', s.preparePost length = .ok s' ∧ s'.Valid d streamId ∧
      s'.isComplete = s.isComplete := by
  obtain ⟨-, hfin, hlt⟩ := hpoll
  have hclient := h.client (h.isComplete_of_not_isFin hfin)
  have hunread : s.post.isFinRead = false := by
    refine Bool.eq_false_iff.mpr fun hread => ?_
    exact Bool.false_ne_true (hfin.symm.trans (h.post_finRead hread).1)
  have hprepare := @prepareToSend_client (s.clientCtx d streamId) length h.post_le
    hd.postSize_lt (Nat.lt_trans hlt (by decide))
  obtain ⟨hn, hlimit, hlast⟩ := dataLeft_spec h.post_le length
  rw [show (s.clientCtx d streamId).postSize = d.postSize from rfl,
    show (s.clientCtx d streamId).nbPostBytes = s.post.bytes.length from rfl,
    show (s.clientCtx d streamId).lengthHeader = d.lengthHeader from rfl] at hprepare
  generalize dataLeft d.postSize s.post.bytes.length length = left at hprepare hn hlimit hlast
  obtain ⟨n, isFin⟩ := left
  dsimp only at hprepare hn hlimit hlast
  have hlength : (s.post.bytes ++
      (List.range' s.post.bytes.length n).map (postByte d.lengthHeader)).length =
        s.post.bytes.length + n := by
    rw [List.length_append, List.length_map, List.length_range']
  refine ⟨_, preparePost_eq hclient hprepare, ?_, rfl⟩
  constructor
  case post_bytes =>
    dsimp only [Flow.write]
    rw [hlength, postBytes_add, ← h.post_bytes]
  case post_le =>
    dsimp only [Flow.write]
    rw [hlength]
    exact hlimit
  case post_fin =>
    intro hend
    dsimp only [Flow.write]
    rw [hlength]
    exact hlast hend
  case post_read =>
    dsimp only [Flow.write]
    rw [hlength]
    exact Nat.le_trans h.post_read (Nat.le_add_right _ _)
  case post_lt =>
    dsimp only [Flow.write]
    rw [hlength]
    exact Nat.lt_of_le_of_lt (Nat.add_le_add_left hn _) hlt
  case post_finRead => exact fun hread => absurd (hunread.symm.trans hread) Bool.false_ne_true
  case client =>
    intro _
    dsimp only [clientCtx, Flow.write]
    rw [hlength]
    rfl
  case server =>
    intro c hc
    obtain ⟨isStopped, rfl, hstop⟩ := h.server c hc
    refine ⟨isStopped, ?_, hstop⟩
    dsimp only [serverCtx, Flow.write]
    rw [List.take_append_of_le_length h.post_read]
  all_goals first
    | exact h.server_none | exact h.server_some | exact h.waits | exact h.response_le
    | exact h.response_lt | exact h.response_fin | exact h.response_read
    | exact h.response_finRead | exact h.stop

/-- **The post arrives**, in a piece of any size. -/
theorem processPost (hd : d.Sized) (hdeliver : s.post.CanDeliver n isFin) :
    ∃ s', s.processPost streamId n isFin = .ok s' ∧ s'.Valid d streamId ∧
      s'.isComplete = s.isComplete := by
  obtain ⟨hunread, hle, hend, -⟩ := hdeliver
  have hwaits := h.waits hunread
  have hnotStopped : s.isStopRequested = false := by
    refine Bool.eq_false_iff.mpr fun hstop => ?_
    exact Bool.false_ne_true (hunread.symm.trans (h.stop hstop).2)
  -- before its first piece a stream has no context at the server
  have hserver : s.server.getD { streamId := streamId } = s.serverCtx streamId false := by
    cases hs : s.server with
    | none =>
      have hread := h.server_none hs hunread
      rw [Option.getD_none, serverCtx, hread, hwaits]
      rfl
    | some c =>
      obtain ⟨isStopped, rfl, hstop⟩ := h.server c hs
      cases isStopped with
      | true => exact absurd (hnotStopped.symm.trans (hstop rfl)) Bool.false_ne_true
      | false => rfl
  have hchunk : s.post.bytes.take s.post.read ++ s.post.chunk n =
      s.post.bytes.take (s.post.read + n) := List.take_add.symm
  have hlength : (s.post.bytes.take s.post.read ++ s.post.chunk n).length = s.post.read + n := by
    rw [hchunk, List.length_take, Nat.min_eq_left hle]
  have hreceive := @receivePost_spec (s.serverCtx streamId false) isFin
    (s.post.bytes.take s.post.read) (s.post.chunk n) rfl
    (by rw [List.length_take, Nat.min_eq_left h.post_read]; rfl)
    (by rw [hlength]; exact Nat.lt_of_le_of_lt hle (Nat.lt_trans h.post_lt (by decide)))
    (fun hlast => by rw [hlength, (hend hlast).2, h.post_fin (hend hlast).1]; exact hd.le_postSize)
  rw [hchunk, List.length_take, Nat.min_eq_left hle] at hreceive
  have hfinal : s.response.isFin = false := by rw [hwaits]
  refine ⟨_, processPost_eq hserver rfl hfinal, ?_, rfl⟩
  rw [hreceive, hwaits, Bool.or_false]
  constructor
  case post_read => exact hle
  case post_finRead => exact hend
  case client =>
    intro hopen
    have hclient := h.client (by rw [isComplete, hwaits]; exact hopen)
    rw [clientCtx, hwaits] at hclient
    exact hclient
  case server_none => exact fun hnone => absurd hnone (by simp)
  case server_some => exact fun _ _ => by simp
  case server =>
    intro c hc
    obtain rfl := Option.some.inj hc
    refine ⟨false, ?_, fun hstop => absurd hstop Bool.false_ne_true⟩
    rw [serverCtx, serverCtx, hwaits]
    rfl
  case waits =>
    intro hmore
    rw [show isFin = false from hmore]
  case response_le => exact Nat.zero_le _
  case response_lt => exact Nat.two_pow_pos 62
  case response_fin => exact fun hlast => absurd hlast Bool.false_ne_true
  case response_read => exact Nat.le_refl _
  case response_finRead => exact fun hlast => absurd hlast Bool.false_ne_true
  case stop => exact fun hstop => absurd (hnotStopped.symm.trans hstop) Bool.false_ne_true
  all_goals first
    | exact h.post_bytes | exact h.post_le | exact h.post_fin | exact h.post_lt

/-- The server has written more of the response. -/
theorem write_response (hread : s.post.isFinRead = true) (hfin : s.response.isFin = false)
    {server : Option QuicperfStreamCtx} (hle : (s.response.bytes ++ bytes).length ≤ d.announced)
    (hlt : (s.response.bytes ++ bytes).length < 2 ^ 62) (hend : isFin = true →
      s.isStopRequested = true ∨ (s.response.bytes ++ bytes).length = d.announced)
    (hsome : isFin = false → server ≠ none) (hserver : ∀ c, server = some c →
      c = { s with response := s.response.write bytes isFin }.serverCtx streamId false) :
    Valid d streamId { s with server := server, response := s.response.write bytes isFin } := by
  have hunread : s.response.isFinRead = false := by
    refine Bool.eq_false_iff.mpr fun hresponse => ?_
    exact Bool.false_ne_true (hfin.symm.trans (h.response_finRead hresponse).1)
  constructor
  case client => exact h.client
  case server_none => exact fun _ hpost => absurd (hpost.symm.trans hread) Bool.false_ne_true
  case server_some => exact fun hmore _ => hsome hmore
  case server =>
    exact fun c hc => ⟨false, hserver c hc, fun hstop => absurd hstop Bool.false_ne_true⟩
  case waits => exact fun hpost => absurd (hpost.symm.trans hread) Bool.false_ne_true
  case response_le => exact hle
  case response_lt => exact hlt
  case response_fin => exact hend
  case response_read =>
    dsimp only [Flow.write]
    rw [List.length_append]
    exact Nat.le_trans h.response_read (Nat.le_add_right _ _)
  case response_finRead =>
    exact fun hresponse => absurd (hunread.symm.trans hresponse) Bool.false_ne_true
  all_goals first
    | exact h.post_bytes | exact h.post_le | exact h.post_fin | exact h.post_read
    | exact h.post_lt | exact h.post_finRead | exact h.stop

/-- **The server is polled.** -/
theorem prepareResponse (hd : d.Sized) (hpoll : s.response.CanPoll length) :
    ∃ s', s.prepareResponse length = .ok s' ∧ s'.Valid d streamId ∧
      s'.isComplete = s.isComplete := by
  obtain ⟨hactive, hfin, hlt⟩ := hpoll
  have hread : s.post.isFinRead = true := by
    by_contra hunread
    have hwaits := h.waits (Bool.eq_false_iff.mpr hunread)
    rw [hwaits] at hactive
    exact Bool.false_ne_true hactive
  obtain ⟨c, hc⟩ := Option.ne_none_iff_exists'.mp (h.server_some hfin hread)
  obtain ⟨isStopped, rfl, hstop⟩ := h.server c hc
  obtain ⟨hpost, hall⟩ := h.post_finRead hread
  have hsize : (s.serverCtx streamId isStopped).responseSize = d.announced := by
    have hle : 8 ≤ s.post.bytes.length := by
      rw [h.post_fin hpost]
      exact hd.le_postSize
    dsimp only [serverCtx]
    rw [hall, List.take_length, h.post_bytes, headerValue_postBytes hd.responseSize_lt hle]
  have hannounced : d.announced < 2 ^ 64 := by
    rw [announced]
    split_ifs
    · decide
    · exact hd.responseSize_lt
  cases isStopped with
  | true =>
    have hcount : (s.serverCtx streamId true).nbResponseBytes < 2 ^ 64 :=
      Nat.lt_trans h.response_lt (by decide)
    refine ⟨_, prepareResponse_eq hc (prepareToSend_stopped rfl hcount length), ?_, rfl⟩
    refine h.write_response hread hfin ?_ ?_ (fun _ => .inl (hstop rfl)) ?_ ?_
    · rw [List.append_nil]
      exact h.response_le
    · rw [List.append_nil]
      exact h.response_lt
    · exact fun hmore => absurd hmore.symm Bool.false_ne_true
    · exact fun c hc => absurd hc (by simp)
  | false =>
    have hle : (s.serverCtx streamId false).nbResponseBytes ≤
        (s.serverCtx streamId false).responseSize := by
      rw [hsize]
      exact h.response_le
    have hprepare := @prepareToSend_server (s.serverCtx streamId false) length rfl hle
      (hsize ▸ hannounced) (Nat.lt_trans hlt (by decide))
    obtain ⟨hn, hlimit, hlast⟩ := dataLeft_spec hle length
    rw [hsize] at hprepare hn hlimit hlast
    generalize dataLeft d.announced (s.serverCtx streamId false).nbResponseBytes length = left
      at hprepare hn hlimit hlast
    obtain ⟨n, isFin⟩ := left
    dsimp only at hprepare hn hlimit hlast
    have hlength : (s.response.bytes ++ List.replicate n 0x30).length =
        (s.serverCtx streamId false).nbResponseBytes + n := by
      rw [List.length_append, List.length_replicate]
      rfl
    refine ⟨_, prepareResponse_eq hc hprepare, ?_, rfl⟩
    refine h.write_response hread hfin ?_ ?_ (fun hend => .inr ?_) ?_ ?_
    · rw [hlength]
      exact hlimit
    · rw [hlength]
      exact Nat.lt_of_le_of_lt (Nat.add_le_add_left hn _) hlt
    · rw [hlength]
      exact hlast hend
    · intro hmore
      rw [show isFin = false from hmore]
      simp
    · intro c hc
      cases isFin with
      | true => exact absurd hc (by simp)
      | false =>
        obtain rfl := Option.some.inj hc
        dsimp only [serverCtx, Flow.write] at hlength hsize ⊢
        rw [hlength, hsize]

/-- **The server is asked to stop.** -/
theorem processStopSending (hstop : s.isStopRequested = true) :
    s.processStopSending.Valid d streamId := by
  constructor
  case server_none =>
    intro hnone
    exact h.server_none (Option.map_eq_none_iff.mp hnone)
  case server_some =>
    intro hfin hread hnone
    exact h.server_some hfin hread (Option.map_eq_none_iff.mp hnone)
  case server =>
    intro c hc
    obtain ⟨c', hc', rfl⟩ := Option.map_eq_some_iff.mp hc
    obtain ⟨isStopped, rfl, -⟩ := h.server c' hc'
    exact ⟨true, rfl, fun _ => hstop⟩
  all_goals first
    | exact h.post_bytes | exact h.post_le | exact h.post_fin | exact h.post_read
    | exact h.post_lt | exact h.post_finRead | exact h.client | exact h.waits
    | exact h.response_le | exact h.response_lt | exact h.response_fin
    | exact h.response_read | exact h.response_finRead | exact h.stop

/-- The client has read more of the response. -/
theorem deliver_response (hread : s.post.isFinRead = true)
    (hdeliver : s.response.CanDeliver n isFin) {client : Option QuicperfStreamCtx} {isStop : Bool}
    (hclient : isFin = false → isStop = false →
      client = some ({ s with response := s.response.deliver n isFin }.clientCtx d streamId))
    (hstop : isStop = true → d.isInfinite = true) :
    Valid d streamId { s with
      client := client
      response := s.response.deliver n isFin
      isStopRequested := s.isStopRequested || isStop } := by
  obtain ⟨-, hle, hend, -⟩ := hdeliver
  constructor
  case client =>
    intro hopen
    rw [isComplete, Bool.or_eq_false_iff, Bool.or_eq_false_iff] at hopen
    exact hclient hopen.1 hopen.2.2
  case server =>
    intro c hc
    obtain ⟨isStopped, heq, hstopped⟩ := h.server c hc
    exact ⟨isStopped, heq, fun htrue => Bool.or_eq_true_iff.mpr (.inl (hstopped htrue))⟩
  case waits => exact fun hpost => absurd (hpost.symm.trans hread) Bool.false_ne_true
  case response_fin =>
    intro hresponse
    rw [Bool.or_eq_true_iff]
    exact (h.response_fin hresponse).imp_left .inl
  case response_read => exact hle
  case response_finRead => exact hend
  case stop =>
    intro hrequested
    rcases Bool.or_eq_true_iff.mp hrequested with hbefore | hnow
    · exact h.stop hbefore
    · exact ⟨hstop hnow, hread⟩
  all_goals first
    | exact h.post_bytes | exact h.post_le | exact h.post_fin | exact h.post_read
    | exact h.post_lt | exact h.post_finRead | exact h.server_none | exact h.server_some
    | exact h.response_le | exact h.response_lt

/-- **The response arrives**, in a piece of any size. The client finds no error; it closes its
context exactly if it is done with the stream. -/
theorem receive (hdeliver : s.response.CanDeliver n isFin)
    (hnotStopped : s.isStopRequested = false) :
    ∃ c r, s.client = some c ∧ c.isClosed = false ∧ c.streamId = streamId ∧
      receiveResponse c n isFin = r ∧ r.close = none ∧ (s.receive n isFin r).Valid d streamId ∧
      (s.receive n isFin r).isComplete = r.ctx.isClosed ∧
      (isFin = true → r.ctx.isClosed = true) := by
  have ⟨hunread, hle, hend, _⟩ := hdeliver
  have hread : s.post.isFinRead = true := by
    by_contra hpost
    have hwaits := h.waits (Bool.eq_false_iff.mpr hpost)
    rw [hwaits] at hdeliver
    exact Flow.not_canDeliver_new hdeliver
  have hopen : s.isComplete = false := by rw [isComplete, hunread, hnotStopped]; rfl
  have hlt : s.response.read + n < 2 ^ 64 :=
    Nat.lt_of_le_of_lt hle (Nat.lt_trans h.response_lt (by decide))
  have hlast (hfin : isFin = true) : s.response.read + n = d.announced := by
    obtain ⟨hresponse, hall⟩ := hend hfin
    rw [hall]
    refine (h.response_fin hresponse).resolve_left fun hstop => ?_
    exact Bool.false_ne_true (hnotStopped.symm.trans hstop)
  obtain ⟨r, hr⟩ : ∃ r, receiveResponse (s.clientCtx d streamId) n isFin = r := ⟨_, rfl⟩
  refine ⟨_, r, h.client hopen, rfl, rfl, hr, ?_⟩
  have hread' : (s.clientCtx d streamId).nbResponseBytes = s.response.read := rfl
  have hsize : (s.clientCtx d streamId).responseSize = d.responseSize := rfl
  have hinfinite : (s.clientCtx d streamId).stopForFin = d.isInfinite := rfl
  have hstopped : (s.clientCtx d streamId).isStopped = false := rfl
  rw [receiveResponse] at hr
  dsimp only at hr
  rw [hread', hsize, hinfinite, hstopped, u64_of_lt hlt, if_neg Bool.false_ne_true] at hr
  cases hinf : d.isInfinite with
  | true =>
    rw [hinf, if_pos rfl] at hr
    have hannounced : d.announced = 2 ^ 64 - 1 := by rw [announced, hinf]; rfl
    -- an infinite response does not end before it is stopped
    have hnotFin : isFin = false := by
      refine Bool.eq_false_iff.mpr fun hfin => ?_
      have hall := hlast hfin
      have hbound := h.response_lt
      rw [hannounced] at hall
      omega
    subst hnotFin
    by_cases henough : d.responseSize ≤ s.response.read + n
    · rw [if_pos henough] at hr
      subst hr
      refine ⟨rfl, ?_, ?_, fun hfin => absurd hfin Bool.false_ne_true⟩
      · exact h.deliver_response hread hdeliver (fun _ hmore => absurd hmore.symm
          Bool.false_ne_true) fun _ => hinf
      · rw [isComplete, PerfStream.receive, Bool.or_true, Bool.or_true]
    · rw [if_neg henough, if_neg Bool.false_ne_true] at hr
      subst hr
      refine ⟨rfl, ?_, ?_, fun hfin => absurd hfin Bool.false_ne_true⟩
      · refine h.deliver_response hread hdeliver (fun _ _ => ?_) fun hstop => absurd hstop
          Bool.false_ne_true
        simp [clientCtx, initStreamCtx, Flow.deliver, hinf]
      · rw [isComplete, PerfStream.receive, hnotStopped]
        rfl
  | false =>
    rw [hinf, if_neg Bool.false_ne_true] at hr
    have hannounced : d.announced = d.responseSize := by
      rw [announced, hinf]
      rfl
    have hle' : s.response.read + n ≤ d.responseSize :=
      Nat.le_trans hle (hannounced ▸ h.response_le)
    cases isFin with
    | true =>
      rw [if_pos rfl, if_pos (hannounced ▸ hlast rfl)] at hr
      subst hr
      refine ⟨rfl, ?_, rfl, fun _ => rfl⟩
      exact h.deliver_response hread hdeliver (fun hfin => absurd hfin.symm Bool.false_ne_true)
        fun hstop => absurd hstop Bool.false_ne_true
    | false =>
      rw [if_neg Bool.false_ne_true, if_neg (Nat.not_lt.mpr hle')] at hr
      subst hr
      refine ⟨rfl, ?_, ?_, fun hfin => absurd hfin Bool.false_ne_true⟩
      · refine h.deliver_response hread hdeliver (fun _ _ => ?_) fun hstop => absurd hstop
          Bool.false_ne_true
        simp [clientCtx, initStreamCtx, Flow.deliver, hinf]
      · rw [isComplete, PerfStream.receive, hnotStopped]
        rfl

end Valid

end PerfStream

end Picoquic
