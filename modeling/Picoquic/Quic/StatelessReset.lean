import Mathlib.Data.Vector.Basic
import Picoquic.Packet.Sooner
import Picoquic.Quic.CnxidRouting
import Picoquic.Quic.NetRouting

/-!
# Stateless resets

A peer that does not know the connection of a packet answers with a stateless reset: random bytes,
and at their end the secret of the connection ID. The receiver looks for a connection as for any
packet with a short header. If it finds none, it looks for the secret among those that its
connections have registered; if it finds one that cannot decrypt the packet, it compares the
secret of the default path.

* **`ResetPeer.processUnexpectedCnxid`** — the reset that is built;
* **`ResetCtx.parseHeaderAndDecrypt`** — how a packet with a short header is received;
* **`ResetCtx.Sound`** — the secrets that connections have registered are those in the table;
* **`statelessReset_iff`** — exactly when a reset is recognised;
* **`reset_rejected`** — the QUIC bit of a reset is zero: where the connection is found by its
  address, the packet is dropped.

Whether a packet is decrypted is a parameter. Memory for keys and for packets is available.
-/

namespace Picoquic

open Runs

/-! ### Building a reset -/

/-- `PICOQUIC_RESET_PACKET_PAD_SIZE`. -/
def resetPacketPadSize : ℕ := 23

/-- The secret that goes with a connection ID. -/
abbrev ResetSecret : Type := List.Vector UInt8 resetSecretSize

/-- `picoquic_quic_t`, the part of the peer. -/
structure ResetPeer where
  statelessResetNextTime : ℕ
  statelessResetMinInterval : ℕ
  /-- `picoquic_create_cnxid_reset_secret`. -/
  createCnxidResetSecret : ConnectionId → ResetSecret

/-- The random numbers in a reset. -/
structure ResetDraws where
  firstByte : UInt8
  padSize : ℕ
  bytes : ℕ → UInt8

/-- The number of random bytes in the answer to a packet of `length` bytes. -/
def resetPadSize (length padDraw : ℕ) : ℕ :=
  let padSize := length - resetSecretSize - 1
  if resetPacketPadSize < padSize then
    padDraw % (padSize - resetPacketPadSize) + resetPacketPadSize
  else resetPacketPadSize

/-- `picoquic_process_unexpected_cnxid`: the peer, and the reset that it sends. -/
def ResetPeer.processUnexpectedCnxid (p : ResetPeer) (length : ℕ) (isProtected : Bool)
    (destCnxId : ConnectionId) (currentTime : ℕ) (x : ResetDraws) :
    ResetPeer × Option (List UInt8) :=
  if resetPacketMinSize < length ∧ isProtected = true ∧ p.statelessResetNextTime ≤ currentTime then
    ({ p with statelessResetNextTime := u64 (currentTime + p.statelessResetMinInterval) },
      some ((0x30 ||| (x.firstByte &&& 0x1F)) ::
        ((List.range (resetPadSize length x.padSize)).map x.bytes ++
          (p.createCnxidResetSecret destCnxId).toList)))
  else (p, none)

/-! ### Registered secrets -/

/-- `picoquic_net_secret_key_t`. -/
structure NetSecretKey where
  saddr : PeerAddr
  resetSecret : ResetSecret
  cnx : ℕ
  deriving DecidableEq

/-- What a secret is registered under. -/
def NetSecretKey.ident (k : NetSecretKey) : PeerAddr × ResetSecret := (k.saddr, k.resetSecret)

/-- `picohash_hash_mix`. -/
def picohashHashMix (hash h2 : ℕ) : ℕ :=
  let h2 := h2 ^^^ (u64 (hash <<< 17) ^^^ (hash >>> 37))
  hash ^^^ (u64 (h2 <<< 31) ^^^ (h2 >>> 17))

/-- `picoquic_net_secret_hash`. -/
def netSecretHash (k : NetSecretKey) : ℕ :=
  picohashHashMix (hashAddr k.saddr) (picohashBytes k.resetSecret.toList)

/-- `picoquic_net_secret_compare`. -/
def netSecretCompare (k k' : NetSecretKey) : ℤ :=
  let ret := compareAddr k.saddr k'.saddr
  if ret = 0 then memcmp k.resetSecret.toList k'.resetSecret.toList else ret

theorem netSecretCompare_eq_zero (k k' : NetSecretKey) :
    netSecretCompare k k' = 0 ↔ k.ident = k'.ident := by
  have hsecret : memcmp k.resetSecret.toList k'.resetSecret.toList = 0 ↔
      k.resetSecret = k'.resetSecret := by
    rw [memcmp_eq_zero (by simp)]
    exact ⟨fun h => Subtype.ext h, fun h => congrArg _ h⟩
  rw [netSecretCompare, NetSecretKey.ident, NetSecretKey.ident, Prod.mk.injEq,
    ← compareAddr_eq_zero, ← hsecret]
  split
  next h => exact (and_iff_right h).symm
  next h => exact iff_of_false h fun hand => h hand.1

/-- `picoquic_cnx_t`, the part that concerns resets. The address and the secret are those of the
default path and of its remote connection ID. -/
structure ResetCnx where
  peerAddr : PeerAddr
  resetSecret : ResetSecret
  doGreaseQuicBit : Bool
  resetSecretKey : Option NetSecretKey
  deriving DecidableEq

/-- `picoquic_quic_t`, the part of the receiver, with the connections that exist. -/
structure ResetCtx where
  localCnxidLength : Fin 21
  tableCnxById : PicohashTable CnxIdKey
  tableCnxByNet : PicohashTable NetIdKey
  tableCnxBySecret : PicohashTable NetSecretKey
  cnxs : ℕ → Option ResetCnx

/-- What happens to the connections of the receiver. -/
inductive ResetEvent
  /-- A connection is created. -/
  | create (cnx : ℕ) (peerAddr : PeerAddr) (resetSecret : ResetSecret)
  /-- The default path, its connection ID or the secret of that changes. -/
  | setDefault (cnx : ℕ) (peerAddr : PeerAddr) (resetSecret : ResetSecret)
  /-- The transport parameters are negotiated. -/
  | setGrease (cnx : ℕ) (doGreaseQuicBit : Bool)
  /-- `picoquic_register_net_secret`. -/
  | register (cnx : ℕ)
  /-- `picoquic_delete_cnx`. -/
  | delete (cnx : ℕ)

namespace ResetCtx

/-- A context without connections, with tables of connection IDs and of addresses that are kept by
others. -/
def init (localCnxidLength : Fin 21) (tableCnxById : PicohashTable CnxIdKey)
    (tableCnxByNet : PicohashTable NetIdKey) (nbBin : ℕ) (nbBin_pos : 0 < nbBin) : ResetCtx :=
  ⟨localCnxidLength, tableCnxById, tableCnxByNet,
    PicohashTable.create nbBin nbBin_pos netSecretHash netSecretCompare, fun _ => none⟩

/-- A connection changes. -/
def setCnx (q : ResetCtx) (cnx : ℕ) (r : Option ResetCnx) : ResetCtx :=
  { q with cnxs := Function.update q.cnxs cnx r }

/-- `picoquic_register_net_secret`. -/
def registerNetSecret (q : ResetCtx) (cnx : ℕ) (r : ResetCnx) : ResetCtx :=
  let key : NetSecretKey := ⟨r.peerAddr, r.resetSecret, cnx⟩
  if (q.tableCnxBySecret.retrieve key).isSome then q
  else
    let t := q.tableCnxBySecret.insert key
    { q with tableCnxBySecret := r.resetSecretKey.elim t t.deleteKey }.setCnx cnx
      (some { r with resetSecretKey := some key })

/-- One event. A connection is allocated at a free address; the others concern connections that
exist. -/
def step (q : ResetCtx) : ResetEvent → ResetCtx
  | .create cnx peerAddr resetSecret =>
    if (q.cnxs cnx).isSome then q else q.setCnx cnx (some ⟨peerAddr, resetSecret, false, none⟩)
  | .setDefault cnx peerAddr resetSecret =>
    q.setCnx cnx ((q.cnxs cnx).map fun r =>
      { r with peerAddr := peerAddr, resetSecret := resetSecret })
  | .setGrease cnx doGreaseQuicBit =>
    q.setCnx cnx ((q.cnxs cnx).map fun r => { r with doGreaseQuicBit := doGreaseQuicBit })
  | .register cnx =>
    match q.cnxs cnx with
    | none => q
    | some r => q.registerNetSecret cnx r
  | .delete cnx =>
    match q.cnxs cnx with
    | none => q
    | some r =>
      { q with
        tableCnxBySecret := r.resetSecretKey.elim q.tableCnxBySecret
          q.tableCnxBySecret.deleteKey }.setCnx cnx none

/-! ### Receiving -/

/-- `picoquic_cnx_by_secret`. -/
def cnxBySecret (q : ResetCtx) (resetSecret : ResetSecret) (addr : PeerAddr) : Option ℕ :=
  (q.tableCnxBySecret.retrieve ⟨addr, resetSecret, 0⟩).map fun item => item.key.cnx

/-- The connection that a short header is for: by connection ID, or by address if connection IDs
have no length. -/
def findCnx (q : ResetCtx) (bytes : List UInt8) (addrFrom : PeerAddr) : Option ℕ :=
  if 0 < (q.localCnxidLength : ℕ) then
    (q.tableCnxById.retrieve ⟨(bytes.drop 1).take q.localCnxidLength, 0, 0⟩).map
      fun item => item.key.cnx
  else (q.tableCnxByNet.retrieve ⟨addrFrom, 0⟩).map fun item => item.key.cnx

/-- What is read of a short header. A packet for which `ret` is zero has the type
`picoquic_packet_1rtt_protected`. -/
structure ShortHeader where
  ret : ℤ
  offset : ℕ
  payloadLength : ℕ
  cnx : Option (ℕ × ResetCnx)

/-- `picoquic_parse_short_packet_header`, for a packet that is received. `none` if a connection is
found that does not exist. -/
def parseShortPacketHeader (q : ResetCtx) (bytes : List UInt8) (addrFrom : PeerAddr) :
    Option ShortHeader :=
  let length := bytes.length
  let isLong := 1 + (q.localCnxidLength : ℕ) ≤ length
  let offset := if isLong then 1 + (q.localCnxidLength : ℕ) else length
  match if isLong then q.findCnx bytes addrFrom else none with
  | none => some ⟨0, offset, (length - offset) % 2 ^ 16, none⟩
  | some cnx =>
    (q.cnxs cnx).map fun r =>
      if bytes.headD 0 &&& 0x40 = 0 ∧ r.doGreaseQuicBit = false then
        ⟨-1, offset, 0, some (cnx, r)⟩
      else ⟨0, offset, (length - offset) % 2 ^ 16, some (cnx, r)⟩

/-- What comes of the removal of protection. -/
inductive Decryption
  /-- The header or the packet does not decrypt. -/
  | failed (isReady : Bool)
  | decrypted (alreadyReceived : Bool)

/-- The outcomes of `picoquic_parse_header_and_decrypt`. -/
inductive ParseResult
  | ok
  | parseError
  /-- `PICOQUIC_ERROR_PACKET_TOO_LONG`. -/
  | packetTooLong
  /-- `PICOQUIC_ERROR_STATELESS_RESET`. -/
  | statelessReset
  /-- `PICOQUIC_ERROR_AEAD_NOT_READY`. -/
  | aeadNotReady
  /-- `PICOQUIC_ERROR_AEAD_CHECK`. -/
  | aeadCheck
  /-- `PICOQUIC_ERROR_DUPLICATE`. -/
  | duplicate
  /-- The packet has a long header. -/
  | longHeader
  /-- A connection is read that does not exist. -/
  | fault
  deriving DecidableEq

/-- The last 16 bytes of a packet of `length` bytes. -/
def lastSecret (bytes : List UInt8) (length : ℕ) : ResetSecret :=
  List.Vector.ofFn fun i => bytes.getD (length - resetSecretSize + i) 0

/-- `picoquic_parse_header_and_decrypt`, for a packet with a short header that is the first one of
its datagram. -/
def parseHeaderAndDecrypt (q : ResetCtx) (bytes : List UInt8) (addrFrom : PeerAddr)
    (protection : ℕ → Decryption) : ParseResult × Option ℕ :=
  if bytes.headD 0 &&& 0x80 = 0x80 then (.longHeader, none)
  else
    match q.parseShortPacketHeader bytes addrFrom with
    | none => (.fault, none)
    | some ph =>
      let length := ph.offset + ph.payloadLength
      if ph.ret ≠ 0 then (.parseError, ph.cnx.map Prod.fst)
      else if maxPacketSize < length then (.packetTooLong, ph.cnx.map Prod.fst)
      else
        match ph.cnx with
        | some (cnx, r) =>
          match protection cnx with
          | .failed isReady =>
            if resetPacketMinSize ≤ length ∧
                memcmp (lastSecret bytes length).toList r.resetSecret.toList = 0 then
              (.statelessReset, some cnx)
            else (if isReady then .aeadCheck else .aeadNotReady, some cnx)
          | .decrypted alreadyReceived => (if alreadyReceived then .duplicate else .ok, some cnx)
        | none =>
          if resetPacketMinSize ≤ length then
            match q.cnxBySecret (lastSecret bytes length) addrFrom with
            | some cnx => (.statelessReset, some cnx)
            | none => (.ok, none)
          else (.ok, none)

/-! ### The table of secrets -/

/-- The table is sound, and its keys are those that the connections remember. -/
structure Sound (q : ResetCtx) : Prop where
  table : q.tableCnxBySecret.Sound NetSecretKey.ident
  keySet : ∀ k, k ∈ q.tableCnxBySecret.keySet ↔
    ∃ r, q.cnxs k.cnx = some r ∧ r.resetSecretKey = some k
  cnx : ∀ cnx r k, q.cnxs cnx = some r → r.resetSecretKey = some k → k.cnx = cnx

variable {q : ResetCtx}

theorem cnxs_setCnx (q : ResetCtx) (cnx other : ℕ) (r : Option ResetCnx) :
    (q.setCnx cnx r).cnxs other = if other = cnx then r else q.cnxs other := by
  split
  next h =>
    subst h
    exact Function.update_self ..
  next h => exact Function.update_of_ne h ..

variable {cnx : ℕ} {r : ResetCnx} {secret : ResetSecret} {bytes : List UInt8}

/-- **A secret that is registered** is found with its connection. -/
theorem Sound.cnxBySecret (h : q.Sound) (hr : q.cnxs cnx = some r) {addr : PeerAddr}
    (hkey : r.resetSecretKey = some ⟨addr, secret, cnx⟩) :
    q.cnxBySecret secret addr = some cnx := by
  have hmem : (⟨addr, secret, cnx⟩ : NetSecretKey) ∈ q.tableCnxBySecret.keySet :=
    (h.keySet _).mpr ⟨r, hr, hkey⟩
  have hfound : (q.tableCnxBySecret.retrieve ⟨addr, secret, 0⟩).map PicohashItem.key =
      some ⟨addr, secret, cnx⟩ := h.table.retrieve_eq_some.mpr ⟨hmem, rfl⟩
  obtain ⟨x, hx, hxkey⟩ := Option.map_eq_some_iff.mp hfound
  rw [ResetCtx.cnxBySecret, hx, Option.map_some, hxkey]

theorem Sound.init (localCnxidLength : Fin 21) (tableCnxById : PicohashTable CnxIdKey)
    (tableCnxByNet : PicohashTable NetIdKey) (nbBin : ℕ) (nbBin_pos : 0 < nbBin) :
    (init localCnxidLength tableCnxById tableCnxByNet nbBin nbBin_pos).Sound where
  table := PicohashTable.Sound.create netSecretCompare_eq_zero fun k k' hident => by
    obtain ⟨haddr, hsecret⟩ := Prod.mk.inj hident
    rw [netSecretHash, netSecretHash, haddr, hsecret]
  keySet k := by
    have hempty : (ResetCtx.init localCnxidLength tableCnxById tableCnxByNet nbBin
        nbBin_pos).tableCnxBySecret.keySet = ∅ := PicohashTable.keySet_create ..
    rw [hempty]
    exact iff_of_false (Set.notMem_empty k) fun ⟨r, hr, _⟩ => by cases hr
  cnx cnx r k hr := by cases hr

/-- A connection changes, and its key does not. -/
theorem Sound.setCnx (h : q.Sound) {r : Option ResetCnx}
    (hkey : r.bind ResetCnx.resetSecretKey = (q.cnxs cnx).bind ResetCnx.resetSecretKey) :
    (q.setCnx cnx r).Sound := by
  have hsame (other : ℕ) : ((q.setCnx cnx r).cnxs other).bind ResetCnx.resetSecretKey =
      (q.cnxs other).bind ResetCnx.resetSecretKey := by
    rw [cnxs_setCnx]
    split
    next hother => rw [hkey, hother]
    · rfl
  refine ⟨h.table, fun k => ?_, fun other r k hr hk => ?_⟩
  · rw [← Option.bind_eq_some_iff, hsame, Option.bind_eq_some_iff]
    exact h.keySet k
  · have hbind := hsame other
    rw [hr, Option.bind_some, hk] at hbind
    obtain ⟨r', hr', hk'⟩ := Option.bind_eq_some_iff.mp hbind.symm
    exact h.cnx other r' k hr' hk'

/-- The old key of a connection is deleted, and the connection has another one, or none. -/
theorem Sound.replace (h : q.Sound) (hr : q.cnxs cnx = some r) {t : PicohashTable NetSecretKey}
    (ht : t.Sound NetSecretKey.ident) {r' : Option ResetCnx}
    (hnew : ∀ k, r'.bind ResetCnx.resetSecretKey = some k → k.cnx = cnx)
    (hkeySet : ∀ k, k ∈ t.keySet ↔
      k ∈ q.tableCnxBySecret.keySet ∨ r'.bind ResetCnx.resetSecretKey = some k)
    (hother : ∀ k, r'.bind ResetCnx.resetSecretKey = some k →
      ∀ k' ∈ q.tableCnxBySecret.keySet, k'.ident ≠ k.ident) :
    ({ q with tableCnxBySecret := r.resetSecretKey.elim t t.deleteKey }.setCnx cnx r').Sound := by
  have hold {k : NetSecretKey} (hk : r.resetSecretKey = some k) :
      k ∈ q.tableCnxBySecret.keySet ∧ k.cnx = cnx := by
    have hcnx := h.cnx cnx r k hr hk
    exact ⟨(h.keySet k).mpr ⟨r, by rw [hcnx, hr], hk⟩, hcnx⟩
  have hafter : (r.resetSecretKey.elim t t.deleteKey).Sound NetSecretKey.ident ∧
      ∀ k, k ∈ (r.resetSecretKey.elim t t.deleteKey).keySet ↔
        k ∈ t.keySet ∧ ∀ k' ∈ r.resetSecretKey, k.ident ≠ k'.ident := by
    cases hkey : r.resetSecretKey with
    | none => exact ⟨ht, fun k => by simp⟩
    | some old => exact ⟨ht.deleteKey old, fun k => by simp [ht.keySet_deleteKey]⟩
  have hcnxs (other : ℕ) := cnxs_setCnx
    { q with tableCnxBySecret := r.resetSecretKey.elim t t.deleteKey } cnx other r'
  refine ⟨hafter.1, fun k => ?_, fun other r'' k hr'' hk => ?_⟩
  · refine (hafter.2 k).trans ?_
    rw [hkeySet, hcnxs, ← Option.bind_eq_some_iff]
    split
    next hk =>
      constructor
      · rintro ⟨hmem | hmem, hne⟩
        · obtain ⟨r'', hr'', hk''⟩ := (h.keySet k).mp hmem
          rw [hk, hr] at hr''
          obtain rfl := Option.some.inj hr''
          exact absurd rfl (hne k hk'')
        · exact hmem
      · intro hmem
        exact ⟨Or.inr hmem, fun k' hk' heq => hother k hmem k' (hold hk').1 heq.symm⟩
    next hk =>
      have hiff : (q.cnxs k.cnx).bind ResetCnx.resetSecretKey = some k ↔
          k ∈ q.tableCnxBySecret.keySet := by
        rw [Option.bind_eq_some_iff]
        exact (h.keySet k).symm
      refine Iff.trans ?_ hiff.symm
      constructor
      · rintro ⟨hmem | hmem, -⟩
        · exact hmem
        · exact absurd (hnew k hmem) hk
      · intro hmem
        refine ⟨Or.inl hmem, fun k' hk' heq => hk ?_⟩
        rw [h.table.eq_of_ident hmem (hold hk').1 heq]
        exact (hold hk').2
  · rw [hcnxs] at hr''
    split at hr''
    next hcnx =>
      rw [hcnx]
      exact hnew k (by rw [hr'', Option.bind_some, hk])
    · exact h.cnx other r'' k hr'' hk

/-- **Registration** of the secret of the default path. -/
theorem Sound.registerNetSecret (h : q.Sound) (hr : q.cnxs cnx = some r) :
    (q.registerNetSecret cnx r).Sound := by
  rw [ResetCtx.registerNetSecret]
  split
  · exact h
  next hsome =>
  have hnone : q.tableCnxBySecret.retrieve ⟨r.peerAddr, r.resetSecret, cnx⟩ = none := by
    simpa using hsome
  refine h.replace hr (h.table.insert hnone) (fun k hk => ?_) (fun k => ?_) fun k hk => ?_
  · rw [← Option.some.inj hk]
  · rw [PicohashTable.keySet_insert, Set.mem_insert_iff, or_comm]
    refine or_congr_right ?_
    rw [Option.bind_some, Option.some.injEq, eq_comm]
  · rw [← Option.some.inj hk]
    exact h.table.retrieve_eq_none.mp hnone

/-- **One event.** -/
theorem Sound.step (h : q.Sound) (e : ResetEvent) : (q.step e).Sound := by
  cases e with
  | create cnx peerAddr resetSecret =>
    rw [ResetCtx.step]
    cases hr : q.cnxs cnx with
    | some r => exact h
    | none => exact h.setCnx (by rw [hr]; rfl)
  | setDefault cnx peerAddr resetSecret =>
    refine h.setCnx ?_
    cases q.cnxs cnx with
    | none => rfl
    | some r => rfl
  | setGrease cnx doGreaseQuicBit =>
    refine h.setCnx ?_
    cases q.cnxs cnx with
    | none => rfl
    | some r => rfl
  | register cnx =>
    rw [ResetCtx.step]
    cases hr : q.cnxs cnx with
    | none => exact h
    | some r => exact h.registerNetSecret hr
  | delete cnx =>
    rw [ResetCtx.step]
    cases hr : q.cnxs cnx with
    | none => exact h
    | some r =>
      refine h.replace hr h.table (fun k hk => ?_) (fun k => ?_) fun k hk => ?_
      · cases hk
      · simp
      · cases hk

/-! ### Recognition -/

/-- Whether a packet is recognised as a reset for a connection. -/
def Recognised (q : ResetCtx) (bytes : List UInt8) (addrFrom : PeerAddr)
    (protection : ℕ → Decryption) (cnx : ℕ) : Prop :=
  q.parseHeaderAndDecrypt bytes addrFrom protection = (.statelessReset, some cnx)

/-- The form of a reset: its first byte, random bytes, and the secret. -/
structure IsReset (bytes : List UInt8) (secret : ResetSecret) : Prop where
  first : bytes.headD 0 &&& 0x80 = 0 ∧ bytes.headD 0 &&& 0x40 = 0
  length : resetPacketMinSize < bytes.length ∧ bytes.length ≤ maxPacketSize
  last : lastSecret bytes bytes.length = secret

theorem lastSecret_append (front : List UInt8) (secret : ResetSecret) :
    lastSecret (front ++ secret.toList) (front ++ secret.toList).length = secret := by
  refine List.Vector.ext fun i => ?_
  have hsub : (front ++ secret.toList).length - resetSecretSize + i = front.length + i := by
    rw [List.length_append, List.Vector.toList_length]
    omega
  rw [lastSecret, List.Vector.get_ofFn, hsub, List.getD_append_right _ _ _ _ (by omega)]
  simp [List.Vector.get_eq_get_toList]

/-- **What the peer builds is a reset**, when it answers to a packet of any length that it reads. -/
theorem isReset_of_processUnexpectedCnxid {p : ResetPeer} {length : ℕ} {isProtected : Bool}
    {destCnxId : ConnectionId} {currentTime : ℕ} {x : ResetDraws} (hlength : length ≤ maxPacketSize)
    (h : (p.processUnexpectedCnxid length isProtected destCnxId currentTime x).2 = some bytes) :
    IsReset bytes (p.createCnxidResetSecret destCnxId) := by
  rw [ResetPeer.processUnexpectedCnxid] at h
  split at h
  swap
  · cases h
  next hsend =>
  obtain rfl := Option.some.inj h
  have hpad : resetPacketPadSize ≤ resetPadSize length x.padSize ∧
      resetPadSize length x.padSize ≤ length - resetSecretSize - 1 := by
    have hmin := hsend.1
    have hpadSize : resetPacketPadSize = 23 := rfl
    have hsecret : resetSecretSize = 16 := rfl
    rw [resetPacketMinSize] at hmin
    rw [resetPadSize]
    split
    next hlt =>
      have hmod := Nat.mod_lt x.padSize (Nat.sub_pos_of_lt hlt)
      omega
    · omega
  have hbits : ∀ b : BitVec 8, (0x30 ||| (b &&& 0x1F)) &&& 0x80 = 0 ∧
      (0x30 ||| (b &&& 0x1F)) &&& 0x40 = 0 := by decide
  obtain ⟨h80, h40⟩ := hbits x.firstByte.toBitVec
  refine ⟨⟨?_, ?_⟩, ?_, ?_⟩
  · exact UInt8.toBitVec_inj.mp h80
  · exact UInt8.toBitVec_inj.mp h40
  · have hsecret : resetSecretSize = 16 := rfl
    have hmin : resetPacketMinSize = resetPacketPadSize + resetSecretSize := rfl
    simp only [List.length_cons, List.length_append, List.length_map, List.length_range,
      List.Vector.toList_length]
    omega
  · rw [← List.cons_append]
    exact lastSecret_append _ _

/-- How a short header of a reset is read. -/
theorem parseShortPacketHeader_reset (q : ResetCtx) (h : IsReset bytes secret)
    (addrFrom : PeerAddr) :
    q.parseShortPacketHeader bytes addrFrom =
      match q.findCnx bytes addrFrom with
      | none => some ⟨0, 1 + q.localCnxidLength, bytes.length - (1 + q.localCnxidLength), none⟩
      | some cnx =>
        (q.cnxs cnx).map fun r =>
          if r.doGreaseQuicBit = false then ⟨-1, 1 + q.localCnxidLength, 0, some (cnx, r)⟩
          else ⟨0, 1 + q.localCnxidLength, bytes.length - (1 + q.localCnxidLength),
            some (cnx, r)⟩ := by
  have hmin : 39 < bytes.length := h.length.1
  have hmax : bytes.length ≤ 1536 := h.length.2
  have hid := q.localCnxidLength.isLt
  have hlong : 1 + (q.localCnxidLength : ℕ) ≤ bytes.length := by omega
  have hmod : (bytes.length - (1 + q.localCnxidLength)) % 2 ^ 16 =
      bytes.length - (1 + q.localCnxidLength) := Nat.mod_eq_of_lt (by omega)
  simp only [parseShortPacketHeader, hlong, if_true, hmod, h.first.2, true_and]

/-- **How a reset is received** by a receiver that does not decrypt it. -/
theorem parseHeaderAndDecrypt_reset (q : ResetCtx) (h : IsReset bytes secret) (addrFrom : PeerAddr)
    {protection : ℕ → Decryption} (hfails : ∀ cnx, ∃ isReady, protection cnx = .failed isReady)
    (cnx : ℕ) :
    q.Recognised bytes addrFrom protection cnx ↔
      (q.findCnx bytes addrFrom = none ∧ q.cnxBySecret secret addrFrom = some cnx) ∨
        q.findCnx bytes addrFrom = some cnx ∧ ∃ r, q.cnxs cnx = some r ∧
          r.doGreaseQuicBit = true ∧ r.resetSecret = secret := by
  have hmin : resetPacketMinSize ≤ bytes.length := h.length.1.le
  have hmax : ¬ maxPacketSize < bytes.length := not_lt.mpr h.length.2
  have hlong : 1 + (q.localCnxidLength : ℕ) + (bytes.length - (1 + q.localCnxidLength)) =
      bytes.length := by
    have hmin39 : 39 < bytes.length := h.length.1
    have hid := q.localCnxidLength.isLt
    omega
  have hshort : ¬ (bytes.headD 0 &&& 0x80 = 0x80) := by
    rw [h.first.1]
    decide
  rw [Recognised, parseHeaderAndDecrypt, if_neg hshort, parseShortPacketHeader_reset q h]
  cases hfind : q.findCnx bytes addrFrom with
  | none =>
    simp only [ne_eq, not_true_eq_false, if_false, hlong, hmax, hmin, if_true, h.last]
    cases hsecret : q.cnxBySecret secret addrFrom with
    | none => simp
    | some found => simp
  | some found =>
    cases hr : q.cnxs found with
    | none =>
      refine iff_of_false (by simp [hr]) ?_
      rintro (⟨hnone, -⟩ | ⟨hsome, r, hr', -⟩)
      · cases hnone
      · obtain rfl := Option.some.inj hsome
        rw [hr] at hr'
        cases hr'
    | some r =>
      obtain ⟨isReady, hfailed⟩ := hfails found
      have hcompare : memcmp (lastSecret bytes bytes.length).toList r.resetSecret.toList = 0 ↔
          r.resetSecret = secret := by
        rw [memcmp_eq_zero (by simp), h.last, eq_comm]
        exact ⟨fun heq => Subtype.ext heq, fun heq => congrArg _ heq⟩
      simp only [hr, Option.map_some, reduceCtorEq, false_and, false_or, Option.some.injEq]
      cases hgrease : r.doGreaseQuicBit with
      | false =>
        -- the QUIC bit is zero, and the packet is dropped
        refine iff_of_false (by simp) ?_
        rintro ⟨rfl, r', hr', hgrease', -⟩
        obtain rfl := Option.some.inj (hr.symm.trans hr')
        rw [hgrease] at hgrease'
        cases hgrease'
      | true =>
        simp only [Bool.true_eq_false, if_false, ne_eq, not_true_eq_false, hlong, hmax, hfailed,
          hmin, true_and, hcompare]
        constructor
        · intro hresult
          split at hresult
          next hsecret =>
            obtain rfl : found = cnx := by simpa using hresult
            exact ⟨rfl, r, hr, hgrease, hsecret⟩
          · cases isReady <;> simp at hresult
        · rintro ⟨rfl, r', hr', -, hsecret⟩
          obtain rfl := Option.some.inj (hr.symm.trans hr')
          rw [if_pos hsecret]

end ResetCtx

open ResetCtx

/-- **Stateless resets**: in every state of the receiver, a reset with a secret that a connection
has registered is recognised for that connection exactly when no connection is found for its
header, or it is found, ignores the QUIC bit, and has the secret at its default path. -/
theorem statelessReset_iff (localCnxidLength : Fin 21) (tableCnxById : PicohashTable CnxIdKey)
    (tableCnxByNet : PicohashTable NetIdKey) {nbBin : ℕ} (hbin : 0 < nbBin)
    (evs : List ResetEvent) {p : ResetPeer} {length : ℕ} {isProtected : Bool}
    {destCnxId : ConnectionId} {currentTime : ℕ} {x : ResetDraws} {bytes : List UInt8}
    (hlength : length ≤ maxPacketSize)
    (hbuilt : (p.processUnexpectedCnxid length isProtected destCnxId currentTime x).2 = some bytes)
    {q : ResetCtx}
    (hq : run ResetCtx.step (.init localCnxidLength tableCnxById tableCnxByNet nbBin hbin) evs = q)
    {cnx : ℕ} {r : ResetCnx} (hcnx : q.cnxs cnx = some r) {addrFrom : PeerAddr}
    (hkey : r.resetSecretKey = some ⟨addrFrom, p.createCnxidResetSecret destCnxId, cnx⟩)
    {protection : ℕ → Decryption}
    (hfails : ∀ cnx, ∃ isReady, protection cnx = .failed isReady) :
    q.Recognised bytes addrFrom protection cnx ↔
      q.findCnx bytes addrFrom = none ∨ q.findCnx bytes addrFrom = some cnx ∧
        r.doGreaseQuicBit = true ∧ r.resetSecret = p.createCnxidResetSecret destCnxId := by
  have hreset := isReset_of_processUnexpectedCnxid hlength hbuilt
  have hsound : (run step (.init localCnxidLength tableCnxById tableCnxByNet nbBin hbin)
      evs).Sound :=
    run_invariant (fun _ e h => h.step e)
      (ResetCtx.Sound.init localCnxidLength tableCnxById tableCnxByNet nbBin hbin) evs
  rw [hq] at hsound
  have hsecret := hsound.cnxBySecret hcnx hkey
  rw [parseHeaderAndDecrypt_reset q hreset addrFrom hfails cnx]
  refine or_congr (and_iff_left hsecret) (and_congr_right fun _ => ?_)
  constructor
  · rintro ⟨r', hr', hgrease, hsame⟩
    obtain rfl := Option.some.inj (hcnx.symm.trans hr')
    exact ⟨hgrease, hsame⟩
  · rintro ⟨hgrease, hsame⟩
    exact ⟨r, hcnx, hgrease, hsame⟩

/-- A peer with one secret for all connection IDs. -/
def constantPeer : ResetPeer := ⟨0, 0, fun _ => List.Vector.replicate resetSecretSize 7⟩

/-- The reset of that peer in answer to a packet of 60 bytes. -/
def constantReset : List UInt8 :=
  0x35 :: (List.replicate 26 9 ++ List.replicate 16 7)

/-- Connection 1, whose address is mapped, has registered the secret of the peer. -/
def registeredCtx (localCnxidLength : Fin 21) : ResetCtx :=
  run ResetCtx.step
    (.init localCnxidLength (CnxidRoutes.init 8 (by decide) 4 (by decide)).tableCnxById
      (run NetRoutes.step (.init 4 (by decide)) [.create 1 (some (localHost 1)) true]).tableCnxByNet
      4 (by decide))
    [.create 1 (localHost 1) (List.Vector.replicate resetSecretSize 7), .register 1]

theorem statelessReset_iff_sample :
    (registeredCtx 8).Recognised constantReset (localHost 1) (fun _ => .failed true) 1 := by
  have hbuilt : (constantPeer.processUnexpectedCnxid 60 true [1, 2, 3, 4, 5, 6, 7, 8] 0
      ⟨0x15, 3, fun _ => 9⟩).2 = some constantReset := by decide +kernel
  have hcnx : (registeredCtx 8).cnxs 1 = some ⟨localHost 1,
      List.Vector.replicate resetSecretSize 7, false,
      some ⟨localHost 1, List.Vector.replicate resetSecretSize 7, 1⟩⟩ := by decide +kernel
  have hnone : (registeredCtx 8).findCnx constantReset (localHost 1) = none := by decide +kernel
  exact (statelessReset_iff 8 _ _ (by decide) _ (by decide) hbuilt rfl hcnx rfl
    fun _ => ⟨true, rfl⟩).mpr (Or.inl hnone)

/-- The same reset is dropped by a receiver without connection IDs, which finds the connection by
its address. -/
theorem reset_rejected :
    (constantPeer.processUnexpectedCnxid 60 true [1, 2, 3, 4, 5, 6, 7, 8] 0
        ⟨0x15, 3, fun _ => 9⟩).2 = some constantReset ∧
      (registeredCtx 0).cnxBySecret (List.Vector.replicate resetSecretSize 7) (localHost 1) =
        some 1 ∧
      (registeredCtx 0).parseHeaderAndDecrypt constantReset (localHost 1) (fun _ => .failed true) =
        (.parseError, some 1) :=
  ⟨by decide +kernel, by decide +kernel, by decide +kernel⟩

end Picoquic
