import Mathlib.Data.Vector.Basic
import Picoquic.ForMathlib.CheckedArray

/-!
# Connection IDs for a load balancer

A server that stands behind a load balancer writes its identifier into the connection IDs that it
chooses: in clear, masked by a stream cipher, or in a block that is encrypted. The load balancer
reads it back.

* **`lbCompatCidConfig`** — the configuration is checked, and its context is made;
* **`lbCompatCidGenerate`**, **`lbCompatCidVerify`** — writing and reading the identifier;
* **`Made.verifies`** — what was written is read back;
* **`codec_iff`** — exactly which configurations, among those that are accepted, do so within the
  arrays;
* **`long_server_id_accepted`** — an identifier of 17 bytes is accepted, and its array has 16.

AES on one block is a parameter. Memory for the context is available.
-/

namespace Picoquic

namespace LoadBalancer

/-! ### Data -/

/-- `picoquic_load_balancer_cid_method_enum`. -/
inductive CidMethod
  | clear
  | streamCipher
  | blockCipher
  deriving DecidableEq

/-- A block of the cipher. -/
abbrev Block : Type := List.Vector UInt8 16

/-- AES-128 on single blocks. A context is made for a key and a direction, or is not available. -/
structure Aes128Ecb where
  /-- `picoquic_aes128_ecb_create`, to encrypt or to decrypt. -/
  create : Bool → Block → Option (Block → Block)
  decrypt_encrypt : ∀ key enc dec, create true key = some enc → create false key = some dec →
    ∀ x, dec (enc x) = x

/-- `picoquic_load_balancer_config_t`. -/
structure CidConfig where
  method : CidMethod
  rotationBits : Fin 4
  firstByteEncodesLength : Bool
  serverIdLength : ℕ
  nonceLength : ℕ
  connectionIdLength : ℕ
  serverId64 : UInt64
  cidEncryptionKey : Block

/-- `picoquic_load_balancer_cid_context_t`. -/
structure CidContext where
  method : CidMethod
  rotationBits : Fin 4
  firstByteEncodesLength : Bool
  serverIdLength : ℕ
  nonceLength : ℕ
  connectionIdLength : ℕ
  serverId64 : UInt64
  serverId : List UInt8
  cidEncryptionContext : Option (Block → Block)
  cidDecryptionContext : Option (Block → Block)

/-- The functions that may be registered for the choice of connection IDs. -/
inductive CnxIdCallbackFn
  | lbCompatCidGenerate
  | other

/-- What such a function may be registered with. -/
inductive CnxIdCallbackCtx
  | lb (lbCtx : CidContext)
  | other

/-- The fields of the QUIC context. The list of the connections matters only by whether there are
any. -/
structure Quic where
  hasConnections : Bool
  localCnxidLength : ℕ
  cnxIdCallbackFn : Option CnxIdCallbackFn
  cnxIdCallbackCtx : Option CnxIdCallbackCtx

/-- Why a configuration does not go through. -/
inductive ConfigError
  /-- It is not accepted, and the QUIC context is unchanged. -/
  | refused
  /-- A write goes outside the array for the server identifier. -/
  | outside

/-- `PICOQUIC_CONNECTION_ID_MAX_SIZE`. -/
def connectionIdMaxSize : ℕ := 20

/-- The size of the array for the server identifier. -/
def serverIdSize : ℕ := 16

/-! ### Configuration -/

/-- The parameters that are compatible with their method. -/
def CidConfig.Compatible (c : CidConfig) : Prop :=
  c.connectionIdLength ≤ connectionIdMaxSize ∧
    match c.method with
    | .clear => c.serverIdLength + 1 ≤ c.connectionIdLength
    | .streamCipher => 8 ≤ c.nonceLength ∧ c.nonceLength ≤ 16 ∧
        c.nonceLength + c.serverIdLength + 1 ≤ c.connectionIdLength
    | .blockCipher => 17 ≤ c.connectionIdLength ∧ c.serverIdLength ≤ 15

instance (c : CidConfig) : Decidable c.Compatible := by
  unfold CidConfig.Compatible
  cases c.method <;> infer_instance

/-- The loop that writes the `n` bytes of a server identifier, the last one first. The result is
the array and what is left of the identifier. -/
def storeServerId : ℕ → UInt64 → List UInt8 → Option (List UInt8 × UInt64)
  | 0, sId64, a => some (a, sId64)
  | n + 1, sId64, a => (writeCells a n [sId64.toUInt8]).bind (storeServerId n (sId64 >>> 8))

/-- The contexts for encryption and for decryption, as far as the method needs them. -/
def cipherContexts (aes : Aes128Ecb) (c : CidConfig) :
    Option (Option (Block → Block) × Option (Block → Block)) :=
  match c.method with
  | .clear => some (none, none)
  | .streamCipher => (aes.create true c.cidEncryptionKey).map fun enc => (some enc, none)
  | .blockCipher => do
    let enc ← aes.create true c.cidEncryptionKey
    let dec ← aes.create false c.cidEncryptionKey
    some (some enc, some dec)

/-- The context that is made for a configuration. -/
def makeContext (aes : Aes128Ecb) (c : CidConfig) : Except ConfigError CidContext :=
  match storeServerId c.serverIdLength c.serverId64 (List.replicate serverIdSize 0) with
  | none => .error .outside
  | some (serverId, sId64) =>
    if sId64 ≠ 0 then .error .refused
    else
      match cipherContexts aes c with
      | none => .error .refused
      | some (enc, dec) =>
        .ok { method := c.method
              rotationBits := c.rotationBits
              firstByteEncodesLength := c.firstByteEncodesLength
              serverIdLength := c.serverIdLength
              nonceLength := c.nonceLength
              connectionIdLength := c.connectionIdLength
              serverId64 := c.serverId64
              serverId := serverId
              cidEncryptionContext := enc
              cidDecryptionContext := dec }

/-- `picoquic_lb_compat_cid_config`. -/
def lbCompatCidConfig (aes : Aes128Ecb) (quic : Quic) (c : CidConfig) : Except ConfigError Quic :=
  if quic.hasConnections ∧ quic.localCnxidLength ≠ c.connectionIdLength then .error .refused
  else if quic.cnxIdCallbackFn.isSome ∧ quic.cnxIdCallbackCtx.isSome then .error .refused
  else if ¬ c.Compatible then .error .refused
  else
    match makeContext aes c with
    | .error e => .error e
    | .ok lbCtx =>
      .ok { quic with
        localCnxidLength := lbCtx.connectionIdLength
        cnxIdCallbackFn := some .lbCompatCidGenerate
        cnxIdCallbackCtx := some (.lb lbCtx) }

/-! ### Writing the identifier -/

/-- `picoquic_lb_compat_cid_generate_first_byte`. -/
def generateFirstByte (quic : Quic) (lbCtx : CidContext) (cnxId : List UInt8) :
    Option (List UInt8) := do
  let rotation := UInt8.ofNat lbCtx.rotationBits.val <<< 6
  if lbCtx.firstByteEncodesLength then
    writeCells cnxId 0 [rotation ||| (UInt8.ofNat quic.localCnxidLength - 1)]
  else
    let first ← readCells cnxId 0 1
    writeCells cnxId 0 (first.map fun x => (x &&& 0x3F) ||| rotation)

/-- `picoquic_aes128_ecb_encrypt`, on one block. -/
def ecbEncrypt (encCtx : Block → Block) (input : List UInt8) : Option (List UInt8) :=
  if h : input.length = 16 then some (encCtx ⟨input, h⟩).toList else none

/-- `picoquic_lb_compat_cid_one_pass_stream`: the cells from `target` on are masked, and the mask
is made of the cells from `nonce` on. -/
def onePassStream (encCtx : Option (Block → Block)) (cnxId : List UInt8)
    (nonce nonceLength target targetLength : ℕ) : Option (List UInt8) := do
  let encCtx ← encCtx
  let mask ← writeCells (List.replicate 16 0) 0 (← readCells cnxId nonce nonceLength)
  let mask ← readCells (← ecbEncrypt encCtx mask) 0 targetLength
  writeCells cnxId target (List.zipWith (· ^^^ ·) (← readCells cnxId target targetLength) mask)

/-- The three passes: a server identifier, the nonce before it, and the server identifier again. -/
def threePassStream (lbCtx : CidContext) (cnxId : List UInt8) : Option (List UInt8) := do
  let idOffset := 1 + lbCtx.nonceLength
  let pass := onePassStream lbCtx.cidEncryptionContext
  let cnxId ← pass cnxId 1 lbCtx.nonceLength idOffset lbCtx.serverIdLength
  let cnxId ← pass cnxId idOffset lbCtx.serverIdLength 1 lbCtx.nonceLength
  pass cnxId 1 lbCtx.nonceLength idOffset lbCtx.serverIdLength

/-- `picoquic_lb_compat_cid_generate_clear`. -/
def generateClear (quic : Quic) (lbCtx : CidContext) (cnxId : List UInt8) :
    Option (List UInt8) := do
  let cnxId ← generateFirstByte quic lbCtx cnxId
  writeCells cnxId 1 (← readCells lbCtx.serverId 0 lbCtx.serverIdLength)

/-- `picoquic_lb_compat_cid_generate_stream_cipher`. -/
def generateStreamCipher (quic : Quic) (lbCtx : CidContext) (cnxId : List UInt8) :
    Option (List UInt8) := do
  let cnxId ← generateFirstByte quic lbCtx cnxId
  let cnxId ← writeCells cnxId (1 + lbCtx.nonceLength)
    (← readCells lbCtx.serverId 0 lbCtx.serverIdLength)
  threePassStream lbCtx cnxId

/-- `picoquic_lb_compat_cid_generate_block_cipher`. -/
def generateBlockCipher (quic : Quic) (lbCtx : CidContext) (cnxId : List UInt8) :
    Option (List UInt8) := do
  let cnxId ← generateFirstByte quic lbCtx cnxId
  let cnxId ← writeCells cnxId 1 (← readCells lbCtx.serverId 0 lbCtx.serverIdLength)
  let encCtx ← lbCtx.cidEncryptionContext
  writeCells cnxId 1 (← ecbEncrypt encCtx (← readCells cnxId 1 16))

/-- `picoquic_lb_compat_cid_generate`, on a connection ID that was filled before. There is no
result if an access goes outside an array. -/
def lbCompatCidGenerate (quic : Quic) (lbCtx : CidContext) (cnxId : List UInt8) :
    Option (List UInt8) :=
  match lbCtx.method with
  | .clear => generateClear quic lbCtx cnxId
  | .streamCipher => generateStreamCipher quic lbCtx cnxId
  | .blockCipher => generateBlockCipher quic lbCtx cnxId

/-! ### Reading the identifier -/

/-- The number that bytes make, the most significant one first. -/
def serverIdValue (bytes : List UInt8) : UInt64 :=
  bytes.foldl (fun sId64 b => (sId64 <<< 8) + b.toUInt64) 0

/-- `picoquic_lb_compat_cid_verify_clear`. -/
def verifyClear (lbCtx : CidContext) (cnxId : List UInt8) : Option UInt64 :=
  (readCells cnxId 1 lbCtx.serverIdLength).map serverIdValue

/-- `picoquic_lb_compat_cid_verify_stream_cipher`. -/
def verifyStreamCipher (lbCtx : CidContext) (cnxId : List UInt8) : Option UInt64 := do
  let target ← threePassStream lbCtx cnxId
  (readCells target (1 + lbCtx.nonceLength) lbCtx.serverIdLength).map serverIdValue

/-- `picoquic_lb_compat_cid_verify_block_cipher`. -/
def verifyBlockCipher (lbCtx : CidContext) (cnxId : List UInt8) : Option UInt64 := do
  let decCtx ← lbCtx.cidDecryptionContext
  let decoded ← ecbEncrypt decCtx (← readCells cnxId 1 16)
  (readCells decoded 0 lbCtx.serverIdLength).map serverIdValue

/-- `picoquic_lb_compat_cid_verify`. There is no result if an access goes outside an array. -/
def lbCompatCidVerify (lbCtx : CidContext) (cnxId : List UInt8) : Option UInt64 :=
  if cnxId.length ≠ lbCtx.connectionIdLength then some (UInt64.ofNat (2 ^ 64 - 1))
  else
    match lbCtx.method with
    | .clear => verifyClear lbCtx cnxId
    | .streamCipher => verifyStreamCipher lbCtx cnxId
    | .blockCipher => verifyBlockCipher lbCtx cnxId

/-! ### The bytes of the identifier -/

/-- The `n` last bytes of a number, the most significant one first. -/
def bigEndian : ℕ → UInt64 → List UInt8
  | 0, _ => []
  | n + 1, sId64 => bigEndian n (sId64 >>> 8) ++ [sId64.toUInt8]

/-- What is left of a number without its `n` last bytes. -/
def withoutBytes : ℕ → UInt64 → UInt64
  | 0, sId64 => sId64
  | n + 1, sId64 => withoutBytes n (sId64 >>> 8)

section Bytes

variable {n : ℕ} {sId64 : UInt64} {a : List UInt8}

@[simp] theorem length_bigEndian : ∀ (n : ℕ) (sId64 : UInt64), (bigEndian n sId64).length = n
  | 0, _ => rfl
  | n + 1, sId64 => by rw [bigEndian, List.length_append, length_bigEndian n, List.length_singleton]

/-- The loop writes the bytes of the identifier. -/
theorem storeServerId_of_le (sId64 : UInt64) (h : n ≤ a.length) :
    storeServerId n sId64 a = some (bigEndian n sId64 ++ a.drop n, withoutBytes n sId64) := by
  induction n generalizing sId64 a with
  | zero => rfl
  | succ n ih =>
    have hwrite : writeCells a n [sId64.toUInt8] =
        some (a.take n ++ ([sId64.toUInt8] ++ a.drop (n + 1))) := by
      rw [writeCells, List.length_singleton, if_pos h]
    have htake : (a.take n).length = n := List.length_take_of_le (by omega)
    have hle : n ≤ (a.take n ++ ([sId64.toUInt8] ++ a.drop (n + 1))).length := by
      rw [List.length_append, htake]
      omega
    have hdrop : (a.take n ++ ([sId64.toUInt8] ++ a.drop (n + 1))).drop n =
        [sId64.toUInt8] ++ a.drop (n + 1) := List.drop_left' htake
    rw [storeServerId, hwrite, Option.bind_some, ih _ hle, hdrop, bigEndian, withoutBytes,
      List.append_assoc]

theorem storeServerId_of_lt (sId64 : UInt64) (h : a.length < n) :
    storeServerId n sId64 a = none := by
  obtain ⟨k, rfl⟩ : ∃ k, n = k + 1 := ⟨n - 1, by omega⟩
  have hwrite : writeCells a k [sId64.toUInt8] = none := by
    rw [writeCells, List.length_singleton, if_neg (by omega)]
  rw [storeServerId, hwrite, Option.bind_none]

theorem shiftLeft_shiftRight_add (s : UInt64) : ((s >>> 8) <<< 8) + s.toUInt8.toUInt64 = s := by
  refine UInt64.toNat_inj.mp ?_
  have hs := s.toNat_lt
  simp only [UInt64.toNat_add, UInt64.toNat_shiftLeft, UInt64.toNat_shiftRight,
    UInt8.toNat_toUInt64, UInt64.toNat_toUInt8, UInt64.reduceToNat, Nat.shiftLeft_eq,
    Nat.shiftRight_eq_div_pow, Nat.reduceMod, Nat.reducePow]
  omega

/-- The bytes of a number make the number again, if nothing of it is left out. -/
theorem serverIdValue_bigEndian (h : withoutBytes n sId64 = 0) :
    serverIdValue (bigEndian n sId64) = sId64 := by
  induction n generalizing sId64 with
  | zero => exact h.symm
  | succ n ih =>
    have hhead : serverIdValue (bigEndian n (sId64 >>> 8)) = sId64 >>> 8 := ih h
    rw [serverIdValue] at hhead
    rw [serverIdValue, bigEndian, List.foldl_append, hhead]
    exact shiftLeft_shiftRight_add sId64

end Bytes

/-! ### The passes -/

/-- The block that is made of a nonce. -/
def streamMask (enc : Block → Block) (nonce : List UInt8) : List UInt8 :=
  (ecbEncrypt enc (nonce ++ (List.replicate 16 0).drop nonce.length)).getD []

/-- A text with the mask that is made of a nonce. -/
def masked (enc : Block → Block) (nonce target : List UInt8) : List UInt8 :=
  List.zipWith (· ^^^ ·) target ((streamMask enc nonce).take target.length)

section Passes

variable {enc : Block → Block} {nonce target server rest x : List UInt8} {b : UInt8}
  {off tOff : ℕ}

theorem exists_ecbEncrypt (enc : Block → Block) (h : x.length = 16) :
    ∃ y, ecbEncrypt enc x = some y ∧ y.length = 16 :=
  ⟨(enc ⟨x, h⟩).toList, dif_pos h, (enc ⟨x, h⟩).toList_length⟩

theorem length_padded (h : nonce.length ≤ 16) :
    (nonce ++ (List.replicate 16 (0 : UInt8)).drop nonce.length).length = 16 := by
  rw [List.length_append, List.length_drop, List.length_replicate]
  omega

theorem streamMask_spec (enc : Block → Block) (h : nonce.length ≤ 16) :
    ecbEncrypt enc (nonce ++ (List.replicate 16 0).drop nonce.length) =
      some (streamMask enc nonce) ∧ (streamMask enc nonce).length = 16 := by
  obtain ⟨y, hy, hlen⟩ := exists_ecbEncrypt enc (length_padded h)
  have hmask : streamMask enc nonce = y := by rw [streamMask, hy, Option.getD_some]
  rw [hmask]
  exact ⟨hy, hlen⟩

theorem length_take_streamMask (hn : nonce.length ≤ 16) (ht : target.length ≤ 16) :
    ((streamMask enc nonce).take target.length).length = target.length := by
  obtain ⟨-, hlen⟩ := streamMask_spec enc hn
  exact List.length_take_of_le (by omega)

theorem length_masked (hn : nonce.length ≤ 16) (ht : target.length ≤ 16) :
    (masked enc nonce target).length = target.length := by
  rw [masked, List.length_zipWith, length_take_streamMask hn ht, Nat.min_self]

/-- The same mask is taken off again. -/
theorem masked_masked (hn : nonce.length ≤ 16) (ht : target.length ≤ 16) :
    masked enc nonce (masked enc nonce target) = target := by
  have hxor : ∀ y k : UInt8, (y ^^^ k) ^^^ k = y := fun y k => by
    rw [UInt8.xor_assoc, UInt8.xor_self, UInt8.xor_zero]
  rw [masked, length_masked hn ht, masked]
  exact zipWith_zipWith hxor (length_take_streamMask hn ht).ge

/-- One pass masks its target. -/
theorem onePassStream_eq (hnonce : readCells x off nonce.length = some nonce)
    (htarget : readCells x tOff target.length = some target) (hn : nonce.length ≤ 16)
    (ht : target.length ≤ 16) :
    onePassStream (some enc) x off nonce.length tOff target.length =
      writeCells x tOff (masked enc nonce target) := by
  obtain ⟨henc, hlen⟩ := streamMask_spec enc hn
  have hpad : writeCells (List.replicate 16 0) 0 nonce =
      some (nonce ++ (List.replicate 16 0).drop nonce.length) :=
    writeCells_zero (by rw [List.length_replicate]; exact hn)
  have hmask : readCells (streamMask enc nonce) 0 target.length =
      some ((streamMask enc nonce).take target.length) := readCells_zero (by omega)
  simp only [onePassStream, Option.bind_eq_bind, Option.bind_some, hnonce, hpad, henc, hmask,
    htarget, masked]

/-- The pass over the server identifier. -/
theorem onePassStream_server (hn : nonce.length ≤ 16) (ht : server.length ≤ 16) :
    onePassStream (some enc) (b :: (nonce ++ (server ++ rest))) 1 nonce.length
        (1 + nonce.length) server.length =
      some (b :: (nonce ++ (masked enc nonce server ++ rest))) := by
  have hoff : (b :: nonce).length = 1 + nonce.length := Nat.add_comm _ _
  have hread : readCells (b :: (nonce ++ (server ++ rest))) (1 + nonce.length) server.length =
      some server := readCells_append (l := b :: nonce) hoff rfl
  have hnonce : readCells (b :: (nonce ++ (server ++ rest))) 1 nonce.length = some nonce :=
    readCells_append (l := [b]) rfl rfl
  rw [onePassStream_eq hnonce hread hn ht]
  exact writeCells_append (l := b :: nonce) hoff (length_masked hn ht).symm

/-- The pass over the nonce. -/
theorem onePassStream_nonce (hn : nonce.length ≤ 16) (ht : server.length ≤ 16) :
    onePassStream (some enc) (b :: (nonce ++ (server ++ rest))) (1 + nonce.length) server.length
        1 nonce.length =
      some (b :: (masked enc server nonce ++ (server ++ rest))) := by
  have hoff : (b :: nonce).length = 1 + nonce.length := Nat.add_comm _ _
  have hread : readCells (b :: (nonce ++ (server ++ rest))) (1 + nonce.length) server.length =
      some server := readCells_append (l := b :: nonce) hoff rfl
  have hnonce : readCells (b :: (nonce ++ (server ++ rest))) 1 nonce.length = some nonce :=
    readCells_append (l := [b]) rfl rfl
  rw [onePassStream_eq hread hnonce ht hn]
  exact writeCells_append (l := [b]) rfl (length_masked ht hn).symm

/-- **The passes undo themselves.** They are the same in both directions, and in the opposite
order as well: each one takes its mask off, which is made of what the pass before has left. -/
theorem threePassStream_twice {lbCtx : CidContext} (b : UInt8) (rest : List UInt8)
    (henc : lbCtx.cidEncryptionContext = some enc)
    (hnonce : nonce.length = lbCtx.nonceLength) (hserver : server.length = lbCtx.serverIdLength)
    (hn : nonce.length ≤ 16) (ht : server.length ≤ 16) :
    ∃ y, threePassStream lbCtx (b :: (nonce ++ (server ++ rest))) = some y ∧
      y.length = (b :: (nonce ++ (server ++ rest))).length ∧
      threePassStream lbCtx y = some (b :: (nonce ++ (server ++ rest))) := by
  -- the intermediate identifier, the masked nonce, and the masked identifier
  let s1 := masked enc nonce server
  let n1 := masked enc s1 nonce
  let s2 := masked enc n1 s1
  have hs1 : s1.length = server.length := length_masked hn ht
  have hs1' : s1.length ≤ 16 := by omega
  have hn1 : n1.length = nonce.length := length_masked hs1' hn
  have hn1' : n1.length ≤ 16 := by omega
  have hs2 : s2.length = s1.length := length_masked hn1' hs1'
  have hs2' : s2.length ≤ 16 := by omega
  have hforth : threePassStream lbCtx (b :: (nonce ++ (server ++ rest))) =
      some (b :: (n1 ++ (s2 ++ rest))) := by
    simp only [threePassStream, henc, ← hnonce, ← hserver, Option.bind_eq_bind]
    rw [onePassStream_server hn ht, Option.bind_some]
    have h2 : onePassStream (some enc) (b :: (nonce ++ (s1 ++ rest))) (1 + nonce.length) s1.length
        1 nonce.length = some (b :: (n1 ++ (s1 ++ rest))) := onePassStream_nonce hn hs1'
    rw [hs1] at h2
    rw [h2, Option.bind_some]
    have h3 : onePassStream (some enc) (b :: (n1 ++ (s1 ++ rest))) 1 n1.length (1 + n1.length)
        s1.length = some (b :: (n1 ++ (s2 ++ rest))) := onePassStream_server hn1' hs1'
    rw [hs1, hn1] at h3
    exact h3
  have hback : threePassStream lbCtx (b :: (n1 ++ (s2 ++ rest))) =
      some (b :: (nonce ++ (server ++ rest))) := by
    simp only [threePassStream, henc, ← hnonce, ← hserver, Option.bind_eq_bind]
    have h1 : onePassStream (some enc) (b :: (n1 ++ (s2 ++ rest))) 1 n1.length (1 + n1.length)
        s2.length = some (b :: (n1 ++ (masked enc n1 s2 ++ rest))) := onePassStream_server hn1' hs2'
    rw [hs2, hs1, hn1, masked_masked hn1' hs1'] at h1
    rw [h1, Option.bind_some]
    have h2 : onePassStream (some enc) (b :: (n1 ++ (s1 ++ rest))) (1 + n1.length) s1.length
        1 n1.length = some (b :: (masked enc s1 n1 ++ (s1 ++ rest))) :=
      onePassStream_nonce hn1' hs1'
    rw [hs1, hn1, masked_masked hs1' hn] at h2
    rw [h2, Option.bind_some]
    have h3 : onePassStream (some enc) (b :: (nonce ++ (s1 ++ rest))) 1 nonce.length
        (1 + nonce.length) s1.length = some (b :: (nonce ++ (masked enc nonce s1 ++ rest))) :=
      onePassStream_server hn hs1'
    rw [hs1, masked_masked hn ht] at h3
    exact h3
  refine ⟨b :: (n1 ++ (s2 ++ rest)), hforth, ?_, hback⟩
  simp only [List.length_cons, List.length_append, hn1, hs2, hs1]

end Passes

/-! ### The contexts that are made -/

/-- What a context has from its configuration. -/
structure Made (aes : Aes128Ecb) (c : CidConfig) (lbCtx : CidContext) : Prop where
  method : lbCtx.method = c.method
  serverIdLength : lbCtx.serverIdLength = c.serverIdLength
  nonceLength : lbCtx.nonceLength = c.nonceLength
  connectionIdLength : lbCtx.connectionIdLength = c.connectionIdLength
  serverId : readCells lbCtx.serverId 0 c.serverIdLength =
    some (bigEndian c.serverIdLength c.serverId64)
  complete : withoutBytes c.serverIdLength c.serverId64 = 0
  contexts : cipherContexts aes c = some (lbCtx.cidEncryptionContext, lbCtx.cidDecryptionContext)

section Contexts

variable {aes : Aes128Ecb} {quic quic' : Quic} {c : CidConfig} {lbCtx : CidContext}

theorem made_of_makeContext (hle : c.serverIdLength ≤ serverIdSize)
    (h : makeContext aes c = .ok lbCtx) : Made aes c lbCtx := by
  have hlen : (List.replicate serverIdSize (0 : UInt8)).length = serverIdSize :=
    List.length_replicate
  have hstore := storeServerId_of_le c.serverId64 (hle.trans hlen.ge)
  rw [makeContext, hstore] at h
  dsimp only at h
  split at h
  · cases h
  · rename_i hrest
    split at h
    · cases h
    · rename_i enc dec hctx
      obtain rfl := Except.ok.inj h
      refine ⟨rfl, rfl, rfl, rfl, ?_, not_not.mp hrest, hctx⟩
      exact readCells_append (l := []) rfl (length_bigEndian _ _)

theorem makeContext_outside (h : serverIdSize < c.serverIdLength) :
    makeContext aes c = .error .outside := by
  have hlen : (List.replicate serverIdSize (0 : UInt8)).length = serverIdSize :=
    List.length_replicate
  have hstore := storeServerId_of_lt c.serverId64 (hlen.trans_lt h)
  rw [makeContext, hstore]

/-- A context is made for a shorter one, unless the configuration is refused. -/
theorem exists_makeContext (hle : c.serverIdLength ≤ serverIdSize)
    (h : makeContext aes c ≠ .error .refused) : ∃ lbCtx, makeContext aes c = .ok lbCtx := by
  have hlen : (List.replicate serverIdSize (0 : UInt8)).length = serverIdSize :=
    List.length_replicate
  have hstore := storeServerId_of_le c.serverId64 (hle.trans hlen.ge)
  rw [makeContext, hstore] at h ⊢
  dsimp only at h ⊢
  split at h
  · exact absurd rfl h
  · rename_i hrest
    rw [if_neg hrest]
    split at h
    · exact absurd rfl h
    · exact ⟨_, rfl⟩

/-- Only identifiers in clear can be longer than their array. -/
theorem CidConfig.Compatible.serverIdLength_le (h : c.Compatible) (hm : c.method ≠ .clear) :
    c.serverIdLength ≤ serverIdSize := by
  obtain ⟨hmax, h⟩ := h
  rw [connectionIdMaxSize] at hmax
  rw [serverIdSize]
  split at h
  · exact absurd ‹c.method = .clear› hm
  · omega
  · omega

/-- A configuration that is not refused is compatible, and its context decides. -/
theorem lbCompatCidConfig_eq (h : lbCompatCidConfig aes quic c ≠ .error .refused) :
    c.Compatible ∧ makeContext aes c ≠ .error .refused ∧
      lbCompatCidConfig aes quic c = (makeContext aes c).map fun lbCtx =>
        { quic with
          localCnxidLength := lbCtx.connectionIdLength
          cnxIdCallbackFn := some .lbCompatCidGenerate
          cnxIdCallbackCtx := some (.lb lbCtx) } := by
  rw [lbCompatCidConfig] at h ⊢
  split at h
  · exact absurd rfl h
  · split at h
    · exact absurd rfl h
    · split at h
      · exact absurd rfl h
      · rename_i h1 h2 h3
        rw [if_neg h1, if_neg h2, if_neg h3]
        refine ⟨not_not.mp h3, ?_, ?_⟩
        · rintro hmake
          rw [hmake] at h
          exact h rfl
        · cases makeContext aes c <;> rfl

end Contexts

/-! ### What was written is read back -/

section RoundTrip

variable {aes : Aes128Ecb} {quic : Quic} {c : CidConfig} {lbCtx : CidContext}
  {cnxId t x y : List UInt8} {b : UInt8} {n : ℕ}

/-- Only the first byte of the connection ID is changed. -/
theorem exists_generateFirstByte (quic : Quic) (lbCtx : CidContext) (b : UInt8) (t : List UInt8) :
    ∃ b', generateFirstByte quic lbCtx (b :: t) = some (b' :: t) := by
  have hread : readCells (b :: t) 0 1 = some [b] := readCells_append (l := []) (m := [b]) rfl rfl
  have hwrite : ∀ b' : UInt8, writeCells (b :: t) 0 [b'] = some (b' :: t) := fun b' =>
    writeCells_append (l := []) (m := [b]) rfl rfl
  rw [generateFirstByte]
  split
  · exact ⟨_, hwrite _⟩
  · rw [hread]
    exact ⟨_, hwrite _⟩

theorem exists_eq_append (h : n ≤ x.length) : ∃ l r, x = l ++ r ∧ l.length = n :=
  ⟨x.take n, x.drop n, (List.take_append_drop n x).symm, List.length_take_of_le h⟩

theorem exists_eq_cons_append (h : n + 1 ≤ x.length) :
    ∃ b l r, x = b :: (l ++ r) ∧ l.length = n ∧ x.length = 1 + n + r.length := by
  cases x with
  | nil => cases h
  | cons b t =>
    obtain ⟨l, r, rfl, hl⟩ := exists_eq_append (Nat.le_of_succ_le_succ h)
    refine ⟨b, l, r, rfl, hl, ?_⟩
    rw [List.length_cons, List.length_append]
    omega

/-- A block that was encrypted is decrypted. -/
theorem ecbEncrypt_decrypt {enc dec : Block → Block} (hinv : ∀ z, dec (enc z) = z)
    (h : ecbEncrypt enc x = some y) : ecbEncrypt dec y = some x := by
  rw [ecbEncrypt] at h
  split at h
  · rename_i hx
    obtain rfl := Option.some.inj h
    have hy : (enc ⟨x, hx⟩).toList.length = 16 := (enc ⟨x, hx⟩).toList_length
    have hval : (⟨(enc ⟨x, hx⟩).toList, hy⟩ : Block) = enc ⟨x, hx⟩ := rfl
    rw [ecbEncrypt, dif_pos hy, hval]
    exact congrArg (fun z : Block => some z.toList) (hinv ⟨x, hx⟩)
  · cases h

theorem Made.lbCompatCidVerify_eq (hmade : Made aes c lbCtx)
    (h : y.length = c.connectionIdLength) :
    lbCompatCidVerify lbCtx y =
      match c.method with
      | .clear => verifyClear lbCtx y
      | .streamCipher => verifyStreamCipher lbCtx y
      | .blockCipher => verifyBlockCipher lbCtx y := by
  rw [lbCompatCidVerify, hmade.connectionIdLength, if_neg (not_not.mpr h), hmade.method]

/-- What has to hold of a connection ID that was generated. -/
def Verifies (quic : Quic) (c : CidConfig) (lbCtx : CidContext) (cnxId : List UInt8) : Prop :=
  ∃ y, lbCompatCidGenerate quic lbCtx cnxId = some y ∧ y.length = c.connectionIdLength ∧
    lbCompatCidVerify lbCtx y = some c.serverId64

section

variable (hmade : Made aes c lbCtx)

include hmade

theorem Made.verifies_clear (hm : c.method = .clear)
    (hc : c.serverIdLength + 1 ≤ c.connectionIdLength)
    (hlen : cnxId.length = c.connectionIdLength) : Verifies quic c lbCtx cnxId := by
  obtain ⟨b, server, rest, rfl, hserver, -⟩ := exists_eq_cons_append (hc.trans hlen.ge)
  obtain ⟨b', hfirst⟩ := exists_generateFirstByte quic lbCtx b (server ++ rest)
  have hbytes := length_bigEndian c.serverIdLength c.serverId64
  have hwrite : writeCells (b' :: (server ++ rest)) 1 (bigEndian c.serverIdLength c.serverId64) =
      some (b' :: (bigEndian c.serverIdLength c.serverId64 ++ rest)) :=
    writeCells_append (l := [b']) rfl (hserver.trans hbytes.symm)
  have hread : readCells (b' :: (bigEndian c.serverIdLength c.serverId64 ++ rest)) 1
      c.serverIdLength = some (bigEndian c.serverIdLength c.serverId64) :=
    readCells_append (l := [b']) rfl hbytes
  have hy : (b' :: (bigEndian c.serverIdLength c.serverId64 ++ rest)).length =
      c.connectionIdLength := by
    rw [← hlen, List.length_cons, List.length_cons, List.length_append, List.length_append, hbytes,
      hserver]
  refine ⟨_, ?_, hy, ?_⟩
  · simp only [lbCompatCidGenerate, hmade.method, hm, generateClear, hmade.serverIdLength,
      Option.bind_eq_bind, hfirst, Option.bind_some, hmade.serverId, hwrite]
  · rw [hmade.lbCompatCidVerify_eq hy, hm]
    simp only [verifyClear, hmade.serverIdLength, hread, Option.map_some,
      serverIdValue_bigEndian hmade.complete]

theorem Made.verifies_streamCipher (hm : c.method = .streamCipher)
    (hn : c.nonceLength ≤ 16) (hs : c.serverIdLength ≤ 16)
    (hc : c.nonceLength + c.serverIdLength + 1 ≤ c.connectionIdLength)
    (hlen : cnxId.length = c.connectionIdLength) : Verifies quic c lbCtx cnxId := by
  obtain ⟨b, both, rest, rfl, hboth, -⟩ := exists_eq_cons_append (hc.trans hlen.ge)
  obtain ⟨nonce, server, rfl, hnonce⟩ : ∃ l r, both = l ++ r ∧ l.length = c.nonceLength :=
    exists_eq_append (by omega)
  rw [List.length_append] at hboth
  have hbytes := length_bigEndian c.serverIdLength c.serverId64
  have hserver : server.length = (bigEndian c.serverIdLength c.serverId64).length := by omega
  obtain ⟨b', hfirst⟩ := exists_generateFirstByte quic lbCtx b ((nonce ++ server) ++ rest)
  have hoff : (b' :: nonce).length = 1 + c.nonceLength := by rw [List.length_cons]; omega
  have hwrite : writeCells (b' :: ((nonce ++ server) ++ rest)) (1 + c.nonceLength)
      (bigEndian c.serverIdLength c.serverId64) =
        some (b' :: (nonce ++ (bigEndian c.serverIdLength c.serverId64 ++ rest))) := by
    rw [List.append_assoc]
    exact writeCells_append (l := b' :: nonce) hoff hserver
  have hread : readCells (b' :: (nonce ++ (bigEndian c.serverIdLength c.serverId64 ++ rest)))
      (1 + c.nonceLength) c.serverIdLength = some (bigEndian c.serverIdLength c.serverId64) :=
    readCells_append (l := b' :: nonce) hoff hbytes
  -- the cipher is available, and the three passes undo themselves
  have hctx := hmade.contexts
  rw [cipherContexts, hm] at hctx
  obtain ⟨enc, -, hpair⟩ := Option.map_eq_some_iff.mp hctx
  have henc : lbCtx.cidEncryptionContext = some enc := (Prod.mk.inj hpair).1.symm
  obtain ⟨y, hforth, hylen, hback⟩ := threePassStream_twice b' rest henc
    (hnonce.trans hmade.nonceLength.symm) (hbytes.trans hmade.serverIdLength.symm) (by omega)
    (by omega)
  have hy : y.length = c.connectionIdLength := by
    rw [hylen, ← hlen]
    simp only [List.length_cons, List.length_append]
    omega
  refine ⟨y, ?_, hy, ?_⟩
  · simp only [lbCompatCidGenerate, hmade.method, hm, generateStreamCipher, hmade.serverIdLength,
      hmade.nonceLength, Option.bind_eq_bind, hfirst, Option.bind_some, hmade.serverId, hwrite,
      hforth]
  · rw [hmade.lbCompatCidVerify_eq hy, hm]
    simp only [verifyStreamCipher, hback, Option.bind_eq_bind, Option.bind_some,
      hmade.serverIdLength, hmade.nonceLength, hread, Option.map_some,
      serverIdValue_bigEndian hmade.complete]

theorem Made.verifies_blockCipher (hm : c.method = .blockCipher)
    (hc : 17 ≤ c.connectionIdLength) (hs : c.serverIdLength ≤ 15)
    (hlen : cnxId.length = c.connectionIdLength) : Verifies quic c lbCtx cnxId := by
  obtain ⟨b, block, rest, rfl, hblock, -⟩ := exists_eq_cons_append (n := 16) (hc.trans hlen.ge)
  obtain ⟨server, more, rfl, hserver⟩ :
      ∃ l r, block = l ++ r ∧ l.length = c.serverIdLength := exists_eq_append (by omega)
  have hbytes := length_bigEndian c.serverIdLength c.serverId64
  rw [List.length_append] at hblock
  have htext : (bigEndian c.serverIdLength c.serverId64 ++ more).length = 16 := by
    rw [List.length_append]
    omega
  obtain ⟨b', hfirst⟩ := exists_generateFirstByte quic lbCtx b ((server ++ more) ++ rest)
  have hwrite : writeCells (b' :: ((server ++ more) ++ rest)) 1
      (bigEndian c.serverIdLength c.serverId64) =
        some (b' :: ((bigEndian c.serverIdLength c.serverId64 ++ more) ++ rest)) := by
    rw [List.append_assoc, List.append_assoc]
    exact writeCells_append (l := [b']) rfl (hserver.trans hbytes.symm)
  -- both contexts are available
  have hctx := hmade.contexts
  rw [cipherContexts, hm] at hctx
  obtain ⟨enc, henc, hctx⟩ := Option.bind_eq_some_iff.mp hctx
  obtain ⟨dec, hdec, hctx⟩ := Option.bind_eq_some_iff.mp hctx
  obtain ⟨hencCtx, hdecCtx⟩ := Prod.mk.inj (Option.some.inj hctx)
  obtain ⟨e, he, helen⟩ := exists_ecbEncrypt enc htext
  have hd := ecbEncrypt_decrypt (aes.decrypt_encrypt _ enc dec henc hdec) he
  have hreadText : readCells (b' :: ((bigEndian c.serverIdLength c.serverId64 ++ more) ++ rest)) 1
      16 = some (bigEndian c.serverIdLength c.serverId64 ++ more) :=
    readCells_append (l := [b']) rfl htext
  have hwriteBlock : writeCells (b' :: ((bigEndian c.serverIdLength c.serverId64 ++ more) ++ rest))
      1 e = some (b' :: (e ++ rest)) := writeCells_append (l := [b']) rfl (htext.trans helen.symm)
  have hreadBlock : readCells (b' :: (e ++ rest)) 1 16 = some e :=
    readCells_append (l := [b']) rfl helen
  have hread : readCells (bigEndian c.serverIdLength c.serverId64 ++ more) 0 c.serverIdLength =
      some (bigEndian c.serverIdLength c.serverId64) := readCells_append (l := []) rfl hbytes
  have hy : (b' :: (e ++ rest)).length = c.connectionIdLength := by
    rw [← hlen]
    simp only [List.length_cons, List.length_append]
    omega
  refine ⟨b' :: (e ++ rest), ?_, hy, ?_⟩
  · simp only [lbCompatCidGenerate, hmade.method, hm, generateBlockCipher, hmade.serverIdLength,
      Option.bind_eq_bind, hfirst, Option.bind_some, hmade.serverId, hwrite, ← hencCtx, hreadText,
      he, hwriteBlock]
  · rw [hmade.lbCompatCidVerify_eq hy, hm]
    simp only [verifyBlockCipher, ← hdecCtx, Option.bind_eq_bind, Option.bind_some, hreadBlock,
      hd, hmade.serverIdLength, hread, Option.map_some, serverIdValue_bigEndian hmade.complete]

/-- **What was written is read back**, by each of the methods. -/
theorem Made.verifies (hc : c.Compatible)
    (hs : c.serverIdLength ≤ serverIdSize) (hlen : cnxId.length = c.connectionIdLength) :
    Verifies quic c lbCtx cnxId := by
  obtain ⟨-, hc⟩ := hc
  split at hc
  · rename_i hm
    exact hmade.verifies_clear hm hc hlen
  · rename_i hm
    exact hmade.verifies_streamCipher hm hc.2.1 hs hc.2.2 hlen
  · rename_i hm
    exact hmade.verifies_blockCipher hm hc.1 hc.2 hlen

end

end RoundTrip

/-! ### The codec -/

/-- No access goes outside an array, from the configuration to the verification, and each
connection ID that is generated has the configured length and carries the configured identifier. -/
def RoundTrips (aes : Aes128Ecb) (quic : Quic) (c : CidConfig) : Prop :=
  ∃ quic' lbCtx, lbCompatCidConfig aes quic c = .ok quic' ∧
    quic'.cnxIdCallbackCtx = some (.lb lbCtx) ∧
    ∀ cnxId : List UInt8, cnxId.length = quic'.localCnxidLength → Verifies quic' c lbCtx cnxId

/-- **The codec.** Among the configurations that are accepted, those round trip within the arrays
whose identifier is written by a cipher or has at most 16 bytes. -/
theorem codec_iff {aes : Aes128Ecb} {quic : Quic} {c : CidConfig}
    (h : lbCompatCidConfig aes quic c ≠ .error .refused) :
    RoundTrips aes quic c ↔ (c.method = .clear → c.serverIdLength ≤ serverIdSize) := by
  obtain ⟨hc, hmake, heq⟩ := lbCompatCidConfig_eq h
  constructor
  · rintro ⟨quic', lbCtx, hok, -, -⟩ -
    by_contra hlong
    rw [heq, makeContext_outside (Nat.lt_of_not_le hlong)] at hok
    cases hok
  · intro hclear
    have hs : c.serverIdLength ≤ serverIdSize := by
      by_cases hm : c.method = .clear
      · exact hclear hm
      · exact hc.serverIdLength_le hm
    obtain ⟨lbCtx, hlb⟩ := exists_makeContext hs hmake
    have hmade := made_of_makeContext hs hlb
    rw [hlb] at heq
    refine ⟨_, lbCtx, heq, rfl, fun cnxId hlen => ?_⟩
    exact hmade.verifies hc hs (hlen.trans hmade.connectionIdLength)

/-! ### Configurations in clear -/

/-- A cipher for configurations in clear, which use none. -/
def unusedAes : Aes128Ecb where
  create := fun _ _ => some id
  decrypt_encrypt := by
    rintro key enc dec henc hdec x
    obtain rfl := Option.some.inj henc
    obtain rfl := Option.some.inj hdec
    rfl

/-- A server without connections. -/
def idleServer : Quic where
  hasConnections := false
  localCnxidLength := 8
  cnxIdCallbackFn := none
  cnxIdCallbackCtx := none

/-- An identifier in clear, in connection IDs of 20 bytes. -/
def clearConfig (serverIdLength : ℕ) (serverId64 : UInt64) : CidConfig where
  method := .clear
  rotationBits := 1
  firstByteEncodesLength := true
  serverIdLength := serverIdLength
  nonceLength := 0
  connectionIdLength := 20
  serverId64 := serverId64
  cidEncryptionKey := List.Vector.replicate 16 0

/-- A cipher that masks each byte with the first one of the key. -/
def maskingAes : Aes128Ecb where
  create := fun _ key => some (List.Vector.map (key.head ^^^ ·))
  decrypt_encrypt := by
    rintro key enc dec henc hdec x
    obtain rfl := Option.some.inj henc
    obtain rfl := Option.some.inj hdec
    refine List.Vector.ext fun i => ?_
    rw [List.Vector.get_map, List.Vector.get_map, ← UInt8.xor_assoc, UInt8.xor_self,
      UInt8.zero_xor]

/-- An identifier of eight bytes, and a nonce of eight, with the key that masks with `0x5A`. -/
def maskedConfig (method : CidMethod) : CidConfig :=
  { clearConfig 8 0x0102030405060708 with
    method := method, nonceLength := 8, cidEncryptionKey := List.Vector.replicate 16 0x5A }

theorem codec_eight_bytes :
    RoundTrips unusedAes idleServer (clearConfig 8 0x0102030405060708) ∧
      RoundTrips maskingAes idleServer (maskedConfig .streamCipher) ∧
      RoundTrips maskingAes idleServer (maskedConfig .blockCipher) := by
  have hok : ∀ {aes : Aes128Ecb} {c}, (lbCompatCidConfig aes idleServer c).toBool = true →
      lbCompatCidConfig aes idleServer c ≠ .error .refused := by
    intro aes c hok h
    rw [h] at hok
    cases hok
  exact ⟨(codec_iff (hok (by decide))).mpr (by decide),
    (codec_iff (hok (by decide))).mpr (by decide), (codec_iff (hok (by decide))).mpr (by decide)⟩

/-- **A long identifier is accepted.** It has 17 bytes, which is compatible with its method, and its
array has 16. -/
theorem long_server_id_accepted :
    (clearConfig 17 1).Compatible ∧
      lbCompatCidConfig unusedAes idleServer (clearConfig 17 1) = .error .outside ∧
      ¬ RoundTrips unusedAes idleServer (clearConfig 17 1) := by
  have hout : lbCompatCidConfig unusedAes idleServer (clearConfig 17 1) = .error .outside := rfl
  refine ⟨by decide, hout, ?_⟩
  rintro ⟨quic', lbCtx, hok, -, -⟩
  rw [hout] at hok
  cases hok

end LoadBalancer

end Picoquic
