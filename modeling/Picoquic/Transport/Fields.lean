import Picoquic.Transport.Format

/-!
# The fields of the transport parameters

Each field of the parameters has its own place in the extension, where it is written unless it has
the value that the reader starts with. A reader that comes to this place with that value has the
value of the writer behind it, and every other field is as before.

* **`Tp.InRange`** — the values that the protocol allows;
* **`setParams_paramIf`** — a parameter that is there on a condition;
* **`set_idleTimeout`** and its like — one field each;
* **`PreferedAddress.sent`** — the address that arrives: the second port is the first one;
* **`setParams_of_notMem`** — any other parameter;
* **`setParams_transportParams`** — all parameters together.
-/

namespace Picoquic

/-! ### Ranges -/

/-- A limit of streams: no stream at all, or the identifier of a stream. -/
def StreamIdInRange (id : ℕ) : Prop := id = 2 ^ 64 - 1 ∨ id < 2 ^ 62

/-- The parameters have values that the protocol allows. Only a server has a preferred address,
with an identifier that is not empty. -/
structure Tp.InRange (clientMode : Bool) (l : Tp) : Prop where
  initialMaxStreamDataBidiLocal : l.initialMaxStreamDataBidiLocal < 2 ^ 62
  initialMaxStreamDataBidiRemote : l.initialMaxStreamDataBidiRemote < 2 ^ 62
  initialMaxStreamDataUni : l.initialMaxStreamDataUni < 2 ^ 62
  initialMaxData : l.initialMaxData < 2 ^ 62
  initialMaxStreamIdBidir : StreamIdInRange l.initialMaxStreamIdBidir
  initialMaxStreamIdUnidir : StreamIdInRange l.initialMaxStreamIdUnidir
  idleTimeout : l.idleTimeout < 2 ^ 32
  maxPacketSize : 1200 ≤ l.maxPacketSize ∧ l.maxPacketSize ≤ 65527
  maxAckDelay : l.maxAckDelay ≤ (2 ^ 14 - 1) * 1000
  activeConnectionIdLimit : 2 ≤ l.activeConnectionIdLimit ∧ l.activeConnectionIdLimit < 2 ^ 32
  ackDelayExponent : l.ackDelayExponent ≤ 20
  preferedAddress : ∀ a ∈ l.preferedAddress, clientMode = false ∧ a.connectionId.val ≠ []
  maxDatagramFrameSize : l.maxDatagramFrameSize < 2 ^ 32
  enableLossBit : l.enableLossBit ≤ 2
  enableTimeStamp : l.enableTimeStamp ≤ 3
  minAckDelay : l.minAckDelay ≤ ackDelayMinMaxValue
  enableMultipath : l.enableMultipath ≤ 3
  enableBdpFrame : l.enableBdpFrame ≤ 1

/-! ### Some parameters one after the other -/

/-- What some parameters do to the parameters of the peer. -/
def setParams (extensionMode : Bool) (r : Tp) (ps : List TpParam) : Except TpError Tp :=
  ps.foldlM (fun r p => setTransportParam extensionMode r p.tpType p.value) r

variable {ps : List TpParam} {p : TpParam} {b : Bool}

variable (c : TpCnx)

section

variable {extensionMode : Bool} {l r r' : Tp}

theorem setParams_append_of_eq (h : setParams extensionMode r ps = .ok r') (qs : List TpParam) :
    setParams extensionMode r (ps ++ qs) = setParams extensionMode r' qs := by
  rw [setParams, List.foldlM_append]
  rw [setParams] at h
  rw [h]
  rfl

theorem setParams_singleton (h : setTransportParam extensionMode r p.tpType p.value = .ok r') :
    setParams extensionMode r [p] = .ok r' := by
  rw [setParams, List.foldlM_cons, h]
  rfl

theorem setParams_paramIf
    (hset : b = true → setTransportParam extensionMode r p.tpType p.value = .ok r')
    (hskip : b = false → r = r') : setParams extensionMode r (paramIf b p) = .ok r' := by
  cases b with
  | true => exact setParams_singleton (hset rfl)
  | false => exact congrArg Except.ok (hskip rfl)

theorem tpVarint_varintBytes {α : Type} {n64 : ℕ} (h : n64 < 2 ^ 62)
    (use : ℕ → Except TpError α) : tpVarint (varintBytes n64) use = use n64 := by
  have hdecode := framesVarintDecode_varintBytes n64 []
  rw [List.append_nil, Nat.mod_eq_of_lt h] at hdecode
  rw [tpVarint, hdecode]

theorem setParams_varint {tpType n64 : ℕ} {f : ℕ → Tp} (hzero : f 0 = r)
    (hset : 0 < n64 → setTransportParam extensionMode r tpType (varintBytes n64) = .ok (f n64)) :
    setParams extensionMode r (paramIf (0 < n64) (.varint tpType n64)) = .ok (f n64) := by
  refine setParams_paramIf (fun hb => hset (of_decide_eq_true hb)) fun hb => ?_
  have hn : n64 = 0 := Nat.eq_zero_of_not_pos (of_decide_eq_false hb)
  rw [hn, hzero]

/-- An integer that is kept in 32 bits. -/
theorem setParams_uint32 {tpType n64 : ℕ} {f : ℕ → Tp} (hzero : f 0 = r) (h : n64 < 2 ^ 32)
    (hset : ∀ n < 2 ^ 62,
      setTransportParam extensionMode r tpType (varintBytes n) = .ok (f (n % 2 ^ 32))) :
    setParams extensionMode r (paramIf (0 < n64) (.varint tpType n64)) = .ok (f n64) :=
  setParams_varint hzero fun _ => (hset n64 (by omega)).trans (by rw [Nat.mod_eq_of_lt h])

theorem setParams_flag {tpType : ℕ} {f : Bool → Tp} (hfalse : f false = r)
    (hset : setTransportParam extensionMode r tpType [] = .ok (f true)) :
    setParams extensionMode r (paramIf b (.flag tpType)) = .ok (f b) := by
  cases b with
  | true => exact setParams_singleton hset
  | false => exact congrArg Except.ok hfalse.symm

/-! ### The limits -/

theorem set_initialMaxStreamDataBidiLocal (h : l.initialMaxStreamDataBidiLocal < 2 ^ 62) :
    setParams extensionMode r
      [.varint tpInitialMaxStreamDataBidiLocal l.initialMaxStreamDataBidiLocal] =
      .ok { r with initialMaxStreamDataBidiLocal := l.initialMaxStreamDataBidiLocal } :=
  setParams_singleton (tpVarint_varintBytes h _)

theorem set_initialMaxData (h : l.initialMaxData < 2 ^ 62) :
    setParams extensionMode r [.varint tpInitialMaxData l.initialMaxData] =
      .ok { r with initialMaxData := l.initialMaxData } :=
  setParams_singleton (tpVarint_varintBytes h _)

theorem set_initialMaxStreamDataBidiRemote (hr : r.initialMaxStreamDataBidiRemote = 0)
    (h : l.initialMaxStreamDataBidiRemote < 2 ^ 62) :
    setParams extensionMode r (paramIf (0 < l.initialMaxStreamDataBidiRemote)
      (.varint tpInitialMaxStreamDataBidiRemote l.initialMaxStreamDataBidiRemote)) =
      .ok { r with initialMaxStreamDataBidiRemote := l.initialMaxStreamDataBidiRemote } :=
  setParams_varint (f := fun n => { r with initialMaxStreamDataBidiRemote := n })
    (by rw [← hr]) fun _ => tpVarint_varintBytes h _

theorem set_initialMaxStreamDataUni (hr : r.initialMaxStreamDataUni = 0)
    (h : l.initialMaxStreamDataUni < 2 ^ 62) :
    setParams extensionMode r (paramIf (0 < l.initialMaxStreamDataUni)
      (.varint tpInitialMaxStreamDataUni l.initialMaxStreamDataUni)) =
      .ok { r with initialMaxStreamDataUni := l.initialMaxStreamDataUni } :=
  setParams_varint (f := fun n => { r with initialMaxStreamDataUni := n })
    (by rw [← hr]) fun _ => tpVarint_varintBytes h _

/-- The limit that arrives: a number of streams is sent, and gives the last stream of its type. -/
def streamLimit (streamType id : ℕ) : ℕ :=
  if id = 0 ∨ id = 2 ^ 64 - 1 then id else streamType + 4 * (id / 4)

theorem prepareTransportParamStreamId_lt {id : ℕ} (h : StreamIdInRange id) :
    prepareTransportParamStreamId id < 2 ^ 62 := by
  rw [prepareTransportParamStreamId]
  split_ifs
  · obtain rfl | h := h <;> omega
  · omega

theorem decode_prepareTransportParamStreamId {streamType id : ℕ} (htype : streamType < 4)
    (h : StreamIdInRange id) (hpos : 0 < id) :
    decodeTransportParamStreamId (prepareTransportParamStreamId id) extensionMode streamType =
      streamLimit (streamType + (!extensionMode).toNat) id := by
  obtain rfl | hlt := h
  · have hrank : prepareTransportParamStreamId (2 ^ 64 - 1) = 0 := if_neg (not_not.mpr rfl)
    rw [hrank, decodeTransportParamStreamId, if_neg (lt_irrefl 0), streamLimit,
      if_pos (Or.inr rfl)]
  · have hrank : prepareTransportParamStreamId id = 1 + id / 4 := if_pos (by omega)
    have hmode := Bool.toNat_le (!extensionMode)
    rw [hrank, decodeTransportParamStreamId, if_pos (by omega), u64_of_lt (by omega), streamLimit,
      if_neg (by omega)]
    omega

/-- A limit of streams, which is written unless it is zero. -/
theorem setParams_streamId {tpType id streamType : ℕ} {f : ℕ → Tp} (hzero : f 0 = r)
    (hset : ∀ rank < 2 ^ 62, setTransportParam extensionMode r tpType (varintBytes rank) =
      .ok (f (decodeTransportParamStreamId rank extensionMode streamType)))
    (htype : streamType < 4) (hid : StreamIdInRange id) :
    setParams extensionMode r
      (paramIf (0 < id) (.varint tpType (prepareTransportParamStreamId id))) =
      .ok (f (streamLimit (streamType + (!extensionMode).toNat) id)) := by
  refine setParams_paramIf (fun hb => ?_) fun hb => ?_
  · refine (hset _ (prepareTransportParamStreamId_lt hid)).trans ?_
    rw [decode_prepareTransportParamStreamId htype hid (of_decide_eq_true hb)]
  · have hn : id = 0 := Nat.eq_zero_of_not_pos (of_decide_eq_false hb)
    rw [hn, ← hzero]
    rfl

theorem set_initialMaxStreamIdBidir (hr : r.initialMaxStreamIdBidir = 0)
    (h : StreamIdInRange l.initialMaxStreamIdBidir) :
    setParams extensionMode r (paramIf (0 < l.initialMaxStreamIdBidir)
      (.varint tpInitialMaxStreamsBidi
        (prepareTransportParamStreamId l.initialMaxStreamIdBidir))) =
      .ok { r with
        initialMaxStreamIdBidir :=
          streamLimit (streamIdBidir + (!extensionMode).toNat) l.initialMaxStreamIdBidir } :=
  setParams_streamId (f := fun id => { r with initialMaxStreamIdBidir := id })
    (by rw [← hr]) (fun _ hrank => tpVarint_varintBytes hrank _) (by decide) h

theorem set_initialMaxStreamIdUnidir (hr : r.initialMaxStreamIdUnidir = 0)
    (h : StreamIdInRange l.initialMaxStreamIdUnidir) :
    setParams extensionMode r (paramIf (0 < l.initialMaxStreamIdUnidir)
      (.varint tpInitialMaxStreamsUni
        (prepareTransportParamStreamId l.initialMaxStreamIdUnidir))) =
      .ok { r with
        initialMaxStreamIdUnidir :=
          streamLimit (streamIdUnidir + (!extensionMode).toNat) l.initialMaxStreamIdUnidir } :=
  setParams_streamId (f := fun id => { r with initialMaxStreamIdUnidir := id })
    (by rw [← hr]) (fun _ hrank => tpVarint_varintBytes hrank _) (by decide) h

theorem set_activeConnectionIdLimit (hr : r.activeConnectionIdLimit = 0)
    (h : l.activeConnectionIdLimit < 2 ^ 32) :
    setParams extensionMode r (paramIf (0 < l.activeConnectionIdLimit)
      (.varint tpActiveConnectionIdLimit l.activeConnectionIdLimit)) =
      .ok { r with activeConnectionIdLimit := l.activeConnectionIdLimit } :=
  setParams_uint32 (f := fun n => { r with activeConnectionIdLimit := n }) (by rw [← hr]) h
    fun _ hn => tpVarint_varintBytes hn _

/-! ### Sizes and delays -/

theorem set_idleTimeout (hr : r.idleTimeout = 0) (h : l.idleTimeout < 2 ^ 32) :
    setParams extensionMode r
      (paramIf (0 < l.idleTimeout) (.varint tpIdleTimeout l.idleTimeout)) =
      .ok { r with idleTimeout := l.idleTimeout } :=
  setParams_uint32 (f := fun n => { r with idleTimeout := n }) (by rw [← hr]) h
    fun _ hn => tpVarint_varintBytes hn _

theorem set_maxPacketSize (h : 1200 ≤ l.maxPacketSize ∧ l.maxPacketSize ≤ 65527) :
    setParams extensionMode r [.varint tpMaxPacketSize l.maxPacketSize] =
      .ok { r with maxPacketSize := l.maxPacketSize } := by
  refine setParams_singleton ((tpVarint_varintBytes (by omega) _).trans ?_)
  rw [if_neg (by omega)]

theorem set_ackDelayExponent (hr : r.ackDelayExponent = 3) (h : l.ackDelayExponent ≤ 20) :
    setParams extensionMode r
      (paramIf (l.ackDelayExponent ≠ 3) (.varint tpAckDelayExponent l.ackDelayExponent)) =
      .ok { r with ackDelayExponent := l.ackDelayExponent } := by
  refine setParams_paramIf (fun _ => ?_) fun hb => ?_
  · refine (tpVarint_varintBytes (by omega) _).trans ?_
    rw [Nat.mod_eq_of_lt (by omega)]
  · have hthree : l.ackDelayExponent = 3 := not_not.mp (of_decide_eq_false hb)
    rw [hthree, ← hr]

/-- The delay that is sent, a number of milliseconds. -/
def Tp.sentAckDelay (l : Tp) : ℕ := (l.maxAckDelay + 999) / 1000 * 1000

/-- The delay that is read before the default is put in: none in place of the default. -/
def Tp.readAckDelay (l : Tp) : ℕ :=
  if l.maxAckDelay = ackDelayMaxDefault then 0 else l.sentAckDelay

theorem set_maxAckDelay (hr : r.maxAckDelay = 0) (h : l.maxAckDelay ≤ (2 ^ 14 - 1) * 1000) :
    setParams extensionMode r (paramIf (l.maxAckDelay ≠ ackDelayMaxDefault)
      (.varint tpMaxAckDelay ((l.maxAckDelay + 999) % 2 ^ 32 / 1000))) =
      .ok { r with maxAckDelay := l.readAckDelay } := by
  refine setParams_paramIf (fun hb => ?_) fun hb => ?_
  · refine (tpVarint_varintBytes (by omega) _).trans ?_
    have hdelay : (l.maxAckDelay + 999) % 2 ^ 32 / 1000 % 2 ^ 32 * 1000 % 2 ^ 32 =
        l.sentAckDelay := by
      rw [Tp.sentAckDelay]
      omega
    have hmax : ¬maxAckDelayMaxMs * 1000 < l.sentAckDelay := by
      rw [Tp.sentAckDelay, maxAckDelayMaxMs]
      omega
    have hread : l.readAckDelay = l.sentAckDelay := if_neg (of_decide_eq_true hb)
    rw [hdelay, hread, if_neg hmax]
  · have hread : l.readAckDelay = 0 := if_pos (not_not.mp (of_decide_eq_false hb))
    rw [hread, ← hr]

theorem set_maxDatagramFrameSize (hr : r.maxDatagramFrameSize = 0)
    (h : l.maxDatagramFrameSize < 2 ^ 32) :
    setParams extensionMode r (paramIf (0 < l.maxDatagramFrameSize)
      (.varint tpMaxDatagramFrameSize l.maxDatagramFrameSize)) =
      .ok { r with maxDatagramFrameSize := l.maxDatagramFrameSize } :=
  setParams_uint32 (f := fun n => { r with maxDatagramFrameSize := n }) (by rw [← hr]) h
    fun _ hn => tpVarint_varintBytes hn _

theorem set_minAckDelay (hr : r.minAckDelay = 0) (h : l.minAckDelay ≤ ackDelayMinMaxValue) :
    setParams extensionMode r
      (paramIf (0 < l.minAckDelay) (.varint tpMinAckDelay l.minAckDelay)) =
      .ok { r with minAckDelay := l.minAckDelay } := by
  refine setParams_varint (f := fun n => { r with minAckDelay := n }) (by rw [← hr]) fun hpos => ?_
  have hmax : ackDelayMinMaxValue < 2 ^ 62 := by decide
  refine (tpVarint_varintBytes (h.trans_lt hmax) _).trans ?_
  rw [if_neg (by omega)]

/-! ### Options -/

theorem set_migrationDisabled (hr : r.migrationDisabled = false) :
    setParams extensionMode r (paramIf l.migrationDisabled (.flag tpDisableMigration)) =
      .ok { r with migrationDisabled := l.migrationDisabled } :=
  setParams_flag (f := fun b => { r with migrationDisabled := b }) (by rw [← hr]) rfl

theorem set_doGreaseQuicBit (hr : r.doGreaseQuicBit = false) :
    setParams extensionMode r (paramIf l.doGreaseQuicBit (.flag tpGreaseQuicBit)) =
      .ok { r with doGreaseQuicBit := l.doGreaseQuicBit } :=
  setParams_flag (f := fun b => { r with doGreaseQuicBit := b }) (by rw [← hr]) rfl

theorem set_enableLossBit (hr : r.enableLossBit = 0) (h : l.enableLossBit ≤ 2) :
    setParams extensionMode r (paramIf (0 < l.enableLossBit)
      (.varint tpEnableLossBit (if 1 < l.enableLossBit then 1 else 0))) =
      .ok { r with enableLossBit := l.enableLossBit } := by
  refine setParams_paramIf (fun hb => ?_) fun hb => ?_
  · have hpos : 0 < l.enableLossBit := of_decide_eq_true hb
    refine (tpVarint_varintBytes (by split_ifs <;> decide) _).trans ?_
    obtain htwo | hone : l.enableLossBit = 2 ∨ l.enableLossBit = 1 := by omega
    · rw [htwo]
      rfl
    · rw [hone]
      rfl
  · have hzero : l.enableLossBit = 0 := Nat.eq_zero_of_not_pos (of_decide_eq_false hb)
    rw [hzero, ← hr]

theorem set_enableTimeStamp (hr : r.enableTimeStamp = 0) (h : l.enableTimeStamp ≤ 3) :
    setParams extensionMode r
      (paramIf (0 < l.enableTimeStamp) (.varint tpEnableTimeStamp l.enableTimeStamp)) =
      .ok { r with enableTimeStamp := l.enableTimeStamp } := by
  refine setParams_varint (f := fun n => { r with enableTimeStamp := n })
    (by rw [← hr]) fun hpos => ?_
  refine (tpVarint_varintBytes (by omega) _).trans ?_
  rw [if_neg (by omega)]

theorem set_enableMultipath (hr : r.enableMultipath = 0) (h : l.enableMultipath ≤ 3) :
    setParams extensionMode r
      (paramIf (0 < l.enableMultipath) (.varint tpEnableMultipath l.enableMultipath)) =
      .ok { r with enableMultipath := l.enableMultipath } := by
  refine setParams_varint (f := fun n => { r with enableMultipath := n })
    (by rw [← hr]) fun _ => ?_
  refine (tpVarint_varintBytes (by omega) _).trans ?_
  rw [if_neg (by omega)]

theorem set_enableBdpFrame (hr : r.enableBdpFrame = 0) (h : l.enableBdpFrame ≤ 1) :
    setParams extensionMode r
      (paramIf (0 < l.enableBdpFrame) (.varint tpEnableBdpFrame l.enableBdpFrame)) =
      .ok { r with enableBdpFrame := l.enableBdpFrame } := by
  refine setParams_varint (f := fun n => { r with enableBdpFrame := n })
    (by rw [← hr]) fun _ => ?_
  refine (tpVarint_varintBytes (by omega) _).trans ?_
  rw [if_neg (by omega)]

/-! ### The preferred address -/

/-- The address that arrives: the port of the second address is that of the first. -/
def PreferedAddress.sent (a : PreferedAddress) : PreferedAddress :=
  { a with ipv6Port := a.ipv4Port }

/-- Two bytes give a port back. -/
theorem parse16_uint16Bytes (port : Port) (rest : List UInt8) :
    parse16 (uint16Bytes port ++ rest) = port := by
  have hport := port.isLt
  have hhigh : (UInt8.ofNat ((port : ℕ) >>> 8)).toNat = port / 256 := by
    rw [UInt8.toNat_ofNat', Nat.shiftRight_eq_div_pow]
    omega
  have hlow : (UInt8.ofNat (port : ℕ)).toNat = port % 256 := UInt8.toNat_ofNat'
  refine Fin.ext ?_
  simp only [parse16, uint16Bytes, List.cons_append, List.nil_append, List.getD_cons_zero,
    List.getD_cons_succ, hhigh, hlow, Fin.ofNat, Fin.val_mk]
  omega

theorem parse32_uint32Bytes {v : ℕ} (hv : v < 2 ^ 32) :
    parse32 (UInt8.ofNat (v >>> 24)) (UInt8.ofNat (v >>> 16)) (UInt8.ofNat (v >>> 8))
      (UInt8.ofNat v) = v := by
  simp only [parse32, UInt8.toNat_ofNat', Nat.shiftRight_eq_div_pow]
  omega

/-- **The preferred address.** The reader finds the address, but for the second port. -/
theorem decodePreferedAddress_bytes {a : PreferedAddress} (ha : a.connectionId.val ≠ []) :
    decodePreferedAddress a.bytes = (a.bytes.length, some a.sent) := by
  have hpos : 0 < a.connectionId.val.length := List.length_pos_of_ne_nil ha
  have hle : a.connectionId.val.length ≤ 20 := a.connectionId.property
  have hbytes := TpParam.preferedAddress_bytes_length a
  have h4 := List.Vector.toList_length a.ipv4Address
  have h16 := List.Vector.toList_length a.ipv6Address
  have htoken := List.Vector.toList_length a.statelessResetToken
  -- what the reader finds behind each field
  let id := a.connectionId.val ++ a.statelessResetToken.toList
  let port := uint16Bytes a.ipv4Port ++ (UInt8.ofNat a.connectionId.val.length :: id)
  have hdrop0 : a.bytes = a.ipv4Address.toList ++
      (uint16Bytes a.ipv4Port ++ (a.ipv6Address.toList ++ port)) := by
    simp only [PreferedAddress.bytes, port, id, List.append_assoc, List.cons_append,
      List.nil_append]
  have hdrop4 : a.bytes.drop 4 = uint16Bytes a.ipv4Port ++ (a.ipv6Address.toList ++ port) := by
    rw [hdrop0, List.drop_left' h4]
  have hdrop6 : a.bytes.drop 6 = a.ipv6Address.toList ++ port := by
    rw [show 6 = 4 + 2 from rfl, ← List.drop_drop, hdrop4]
    rfl
  have hdrop22 : a.bytes.drop 22 = port := by
    rw [show 22 = 6 + 16 from rfl, ← List.drop_drop, hdrop6, List.drop_left' h16]
  have hdrop24 : a.bytes.drop 24 = UInt8.ofNat a.connectionId.val.length :: id := by
    rw [show 24 = 22 + 2 from rfl, ← List.drop_drop, hdrop22]
    rfl
  have hdrop25 : a.bytes.drop 25 = id := by
    rw [show 25 = 24 + 1 from rfl, ← List.drop_drop, hdrop24]
    rfl
  have hlength : (a.bytes.getD 24 0).toNat = a.connectionId.val.length := by
    have h24 : a.bytes[24]? = some (UInt8.ofNat a.connectionId.val.length) := by
      rw [← Nat.add_zero 24, ← List.getElem?_drop, hdrop24]
      rfl
    rw [List.getD_eq_getElem?_getD, h24, Option.getD_some, UInt8.toNat_ofNat']
    omega
  have hcond : 41 ≤ a.bytes.length ∧ 0 < (a.bytes.getD 24 0).toNat ∧
      (a.bytes.getD 24 0).toNat ≤ 20 ∧ 25 + (a.bytes.getD 24 0).toNat + 16 ≤ a.bytes.length := by
    rw [hlength]
    omega
  have hdropId : a.bytes.drop (25 + a.connectionId.val.length) = a.statelessResetToken.toList := by
    rw [← List.drop_drop, hdrop25, List.drop_left' rfl]
  rw [decodePreferedAddress, dif_pos hcond]
  refine Prod.ext (by simp only [hlength]; omega) (congrArg some ?_)
  refine PreferedAddress.ext ?_ ?_ ?_ ?_ ?_ ?_
  · refine List.Vector.eq _ _ ?_
    change a.bytes.take 4 = _
    rw [hdrop0, List.take_left' h4]
    rfl
  · change parse16 (a.bytes.drop 4) = _
    rw [hdrop4, parse16_uint16Bytes]
    rfl
  · refine List.Vector.eq _ _ ?_
    change (a.bytes.drop 6).take 16 = _
    rw [hdrop6, List.take_left' h16]
    rfl
  · change parse16 (a.bytes.drop 22) = _
    rw [hdrop22, parse16_uint16Bytes]
    rfl
  · refine Subtype.ext ?_
    change (a.bytes.drop 25).take (a.bytes.getD 24 0).toNat = _
    rw [hlength, hdrop25, List.take_left' rfl]
    rfl
  · refine List.Vector.eq _ _ ?_
    change (a.bytes.drop (25 + (a.bytes.getD 24 0).toNat)).take 16 = _
    rw [hlength, hdropId, List.take_of_length_le htoken.le]
    rfl

theorem set_preferedAddress (hr : r.preferedAddress = none)
    (h : ∀ a ∈ l.preferedAddress, a.connectionId.val ≠ []) :
    setParams extensionMode r (l.preferedAddress.elim [] fun a => [.preferedAddress a]) =
      .ok { r with preferedAddress := l.preferedAddress.map PreferedAddress.sent } := by
  cases hl : l.preferedAddress with
  | none => exact congrArg Except.ok (by rw [Option.map_none, ← hr])
  | some a =>
    have hdecode := decodePreferedAddress_bytes (h a hl)
    refine setParams_singleton ?_
    change (if (decodePreferedAddress a.bytes).1 ≠ a.bytes.length then
        Except.error (parameterError "Preferred address TP")
      else .ok { r with
        preferedAddress := (decodePreferedAddress a.bytes).2.or r.preferedAddress }) = _
    rw [hdecode, if_neg (not_not.mpr rfl)]
    rfl

/-! ### All fields -/

/-- The types of the parameters that have a field. -/
def tpFields : List ℕ :=
  [tpInitialMaxStreamDataBidiLocal, tpInitialMaxStreamDataBidiRemote, tpInitialMaxStreamDataUni,
    tpInitialMaxData, tpInitialMaxStreamsBidi, tpIdleTimeout, tpMaxPacketSize, tpAckDelayExponent,
    tpInitialMaxStreamsUni, tpServerPreferredAddress, tpDisableMigration, tpMaxAckDelay,
    tpActiveConnectionIdLimit, tpMaxDatagramFrameSize, tpEnableLossBit, tpMinAckDelay,
    tpEnableTimeStamp, tpGreaseQuicBit, tpEnableMultipath, tpEnableBdpFrame]

theorem setTransportParam_of_notMem {tpType : ℕ} (h : tpType ∉ tpFields) (value : List UInt8) :
    setTransportParam extensionMode r tpType value = .ok r := by
  unfold setTransportParam
  split
  all_goals first | rfl | exact absurd (by decide) h

theorem setParams_of_notMem (h : ∀ p ∈ ps, p.tpType ∉ tpFields) :
    setParams extensionMode r ps = .ok r := by
  induction ps with
  | nil => rfl
  | cons p ps ih =>
    have hp : setParams extensionMode r [p] = .ok r :=
      setParams_singleton (setTransportParam_of_notMem (h p List.mem_cons_self) p.value)
    exact (setParams_append_of_eq hp ps).trans (ih fun q hq => h q (List.mem_cons_of_mem p hq))

/-- What some parameters do to the parameters of the peer, if these are as `pre` says. -/
def Sets (extensionMode : Bool) (pre : Tp → Prop) (ps : List TpParam) (f : Tp → Tp) : Prop :=
  ∀ r, pre r → setParams extensionMode r ps = .ok (f r)

theorem Sets.append {pre pre' : Tp → Prop} {ps qs : List TpParam} {f g : Tp → Tp}
    (hps : Sets extensionMode pre ps f) (hqs : Sets extensionMode pre' qs g) :
    Sets extensionMode (fun r => pre' (f r) ∧ pre r) (ps ++ qs) (g ∘ f) := fun r hr =>
  (setParams_append_of_eq (hps r hr.2) qs).trans (hqs (f r) hr.1)

theorem Sets.skip {pre : Tp → Prop} {ps qs : List TpParam} {f : Tp → Tp}
    (hps : Sets extensionMode pre ps f) (hqs : ∀ p ∈ qs, p.tpType ∉ tpFields) :
    Sets extensionMode pre (ps ++ qs) f := fun r hr =>
  (setParams_append_of_eq (hps r hr) qs).trans (setParams_of_notMem hqs)

theorem mem_paramIf {p q : TpParam} : p ∈ paramIf b q ↔ b = true ∧ p = q := by
  cases b with
  | true => exact List.mem_singleton.trans (and_iff_right rfl).symm
  | false => exact iff_of_false List.not_mem_nil fun h => absurd h.1 Bool.false_ne_true

theorem paramIf_notMem {q : TpParam} (h : q.tpType ∉ tpFields) :
    ∀ p ∈ paramIf b q, p.tpType ∉ tpFields := by
  intro p hp
  rw [(mem_paramIf.mp hp).2]
  exact h

theorem greaseType_mod : greaseType c % 31 = 27 := by
  simp only [greaseType]
  split_ifs <;> omega

theorem greaseType_lt : greaseType c < 8000 := by
  have hbyte := (c.initialCnxid.val.getD 0 0).toNat_lt
  have hmode := Bool.toNat_le c.clientMode
  simp only [greaseType]
  split_ifs <;> omega

theorem greaseType_ne : greaseType c ≠ tpTestLargeChello := by
  simp only [greaseType]
  split_ifs with h
  · obtain h | h := h <;> rw [h] <;> decide
  · exact fun heq => h (Or.inl heq)

theorem greaseType_notMem {ts : List ℕ}
    (hts : ∀ t ∈ ts, t % 31 = 27 → t = tpTestLargeChello ∨ 8000 ≤ t) : greaseType c ∉ ts := by
  intro h
  obtain h | h := hts _ h (greaseType_mod c)
  · exact greaseType_ne c h
  · exact absurd (greaseType_lt c) (not_lt.mpr h)

theorem repeatedCnxids_tpType {c : TpCnx} (hp : p ∈ c.repeatedCnxids) :
    p.tpType = tpOriginalConnectionId ∨ p.tpType = tpRetryConnectionId := by
  rw [TpCnx.repeatedCnxids] at hp
  split_ifs at hp
  · obtain rfl | rfl := List.mem_pair.mp hp
    · exact Or.inl rfl
    · exact Or.inr rfl
  · exact Or.inl (congrArg TpParam.tpType (List.mem_singleton.mp hp))
  · exact absurd hp List.not_mem_nil

/-- The parameters of the peer after the last parameter. -/
def Tp.read (extensionMode : Bool) (l : Tp) : Tp :=
  { l with
    initialMaxStreamIdBidir :=
      streamLimit (streamIdBidir + (!extensionMode).toNat) l.initialMaxStreamIdBidir
    initialMaxStreamIdUnidir :=
      streamLimit (streamIdUnidir + (!extensionMode).toNat) l.initialMaxStreamIdUnidir
    maxAckDelay := l.readAckDelay
    preferedAddress := l.preferedAddress.map PreferedAddress.sent }

/-- **The fields.** The parameters that are written set every field. -/
theorem setParams_transportParams {c : TpCnx} (h : c.localParameters.InRange (!extensionMode)) :
    setParams extensionMode Tp.unset (c.transportParams extensionMode) =
      .ok (c.localParameters.read extensionMode) := by
  -- the parameters without a field
  have hid : ∀ p ∈ [TpParam.cid tpHandshakeConnectionId c.localCnxid], p.tpType ∉ tpFields := by
    intro p hp
    rw [List.mem_singleton.mp hp]
    exact (by decide : tpHandshakeConnectionId ∉ tpFields)
  have hrepeated : ∀ p ∈ (if extensionMode then c.repeatedCnxids else []), p.tpType ∉ tpFields := by
    intro p hp
    split_ifs at hp
    · obtain htype | htype := repeatedCnxids_tpType hp <;> rw [htype] <;> decide
    · exact absurd hp List.not_mem_nil
  have htoken := paramIf_notMem (b := extensionMode) (q := .statelessResetToken c.localResetSecret)
    (by decide : tpStatelessResetToken ∉ tpFields)
  have hgrease := paramIf_notMem (b := c.greaseTransportParameters)
    (q := .varint (greaseType c) (greaseValue c)) (greaseType_notMem c (by decide))
  have hlarge := paramIf_notMem (b := c.testLargeChello) (q := .testLargeChello 1200)
    (by decide : tpTestLargeChello ∉ tpFields)
  have hversions := paramIf_notMem (b := c.doVersionNegotiation)
    (q := .versionNegotiation c.version (c.otherVersions extensionMode))
    (by decide : tpVersionNegotiation ∉ tpFields)
  -- the parameters that are always there
  have hlocal : Sets extensionMode (fun _ => True) _ _ := fun r _ =>
    set_initialMaxStreamDataBidiLocal (r := r) h.initialMaxStreamDataBidiLocal
  have hdata : Sets extensionMode (fun _ => True) _ _ := fun r _ =>
    set_initialMaxData (r := r) h.initialMaxData
  have hsize : Sets extensionMode (fun _ => True) _ _ := fun r _ =>
    set_maxPacketSize (r := r) h.maxPacketSize
  -- field by field, in the order of the extension
  have hall := (hlocal.append hdata).append fun r hr =>
    set_initialMaxStreamIdBidir (r := r) hr h.initialMaxStreamIdBidir
  have hall := (hall.append fun r hr => set_idleTimeout (r := r) hr h.idleTimeout).append hsize
  have hall := hall.append fun r hr => set_ackDelayExponent (r := r) hr h.ackDelayExponent
  have hall := hall.append fun r hr =>
    set_initialMaxStreamIdUnidir (r := r) hr h.initialMaxStreamIdUnidir
  have hall := hall.append fun r hr =>
    set_preferedAddress (r := r) hr fun a ha => (h.preferedAddress a ha).2
  have hall := hall.append fun r hr => set_migrationDisabled (l := c.localParameters) (r := r) hr
  have hall := hall.append fun r hr =>
    set_initialMaxStreamDataBidiRemote (r := r) hr h.initialMaxStreamDataBidiRemote
  have hall := hall.append fun r hr =>
    set_initialMaxStreamDataUni (r := r) hr h.initialMaxStreamDataUni
  have hall := hall.append fun r hr =>
    set_activeConnectionIdLimit (r := r) hr h.activeConnectionIdLimit.2
  have hall := hall.append fun r hr => set_maxAckDelay (r := r) hr h.maxAckDelay
  have hall := (((hall.skip hid).skip hrepeated).skip htoken).append fun r hr =>
    set_maxDatagramFrameSize (r := r) hr h.maxDatagramFrameSize
  have hall := ((hall.skip hgrease).skip hlarge).append fun r hr =>
    set_enableLossBit (r := r) hr h.enableLossBit
  have hall := hall.append fun r hr => set_minAckDelay (r := r) hr h.minAckDelay
  have hall := hall.append fun r hr => set_enableTimeStamp (r := r) hr h.enableTimeStamp
  have hall := hall.append fun r hr => set_doGreaseQuicBit (l := c.localParameters) (r := r) hr
  have hall := hall.append fun r hr => set_enableMultipath (r := r) hr h.enableMultipath
  have hall := (hall.skip hversions).append fun r hr =>
    set_enableBdpFrame (r := r) hr h.enableBdpFrame
  -- a field that is set here was as the reader starts with it
  refine (hall Tp.unset ⟨rfl, rfl, rfl, rfl, rfl, rfl, rfl, rfl, rfl, rfl, rfl, rfl, rfl, rfl, rfl,
    trivial, rfl, rfl, trivial, trivial⟩).trans ?_
  simp only [Function.comp_apply, Tp.unset, Tp.read]

end

end Picoquic
