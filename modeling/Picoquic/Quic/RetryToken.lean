import Picoquic.Frames.Decode
import Picoquic.Quic.Connections

/-!
# Retry tokens

A server that asks for a token seals what it has to remember, and checks it when the token comes
back: the time until which the token is valid, the connection ID that the client tried first, the
one that it was told to use, and the number of the packet it sent.

* **`prepareRetryToken`**, **`verifyRetryToken`** — making and checking a token;
* **`verify_prepared`** — a token that was made is accepted where it should be;
* **`retryToken_iff`** — exactly when a token takes the space it is given, and exactly when what is
  accepted is well formed;
* **`malformed_accepted`** — a text that is sealed, and is none of a token, is accepted.

The protection of tokens is a parameter. Memory for the registration of a token is available.
-/

namespace Picoquic

/-! ### Data -/

/-- The address of a peer. Its port plays no role. -/
inductive TokenAddress
  | inet (sinAddr : List.Vector UInt8 4)
  | inet6 (sin6Addr : List.Vector UInt8 16)

/-- What is authenticated with a token. -/
def TokenAddress.authData : TokenAddress → List UInt8
  | inet sinAddr => sinAddr.toList
  | inet6 sin6Addr => sin6Addr.toList

/-- An ideal protection of tokens under one key: a text is read back for the sequence number and
the authenticated data with which it was sealed, and nothing else is. -/
structure TokenAead where
  /-- `picoquic_aead_encrypt_generic`. -/
  encrypt : (sequence : ℕ) → (authData text : List UInt8) → List UInt8
  /-- `picoquic_aead_decrypt_generic`. -/
  decrypt : (sequence : ℕ) → (authData input : List UInt8) → Option (List UInt8)
  decrypt_encrypt : ∀ s d t, decrypt s d (encrypt s d t) = some t
  eq_encrypt : ∀ s d c t, decrypt s d c = some t → c = encrypt s d t
  length_encrypt : ∀ s d t, (encrypt s d t).length = t.length + 16

/-- A connection ID of a packet: it has 20 bytes at most. -/
abbrev Cnxid : Type := { id : ConnectionId // id.length ≤ DecodeCnx.cnxIdMaxSize }

/-- What `picoquic_prepare_retry_token` writes into a token. -/
structure TokenFields where
  tokenTime : ℕ
  odcid : ConnectionId
  rcid : ConnectionId
  tokenPn : ℕ

/-- What the text of a token decodes to. -/
inductive TokenText
  | fields (x : TokenFields)
  | malformed
  /-- The text ends before the second connection ID, and bytes are copied from `NULL`. -/
  | nullRead

/-- The outcome of a verification, with the registered tokens. -/
structure VerifiedToken where
  ret : ℤ
  isNewToken : Bool
  odcid : ConnectionId
  tokens : TokenContext

/-! ### Making a token -/

/-- `PICOQUIC_RETRY_TOKEN_PAD_SIZE`. -/
def retryTokenPadSize : ℕ := 26

/-- The size of the buffer for the text. -/
def tokenTextSize : ℕ := 128

/-- How long a token is valid: for 24 hours, or four seconds. -/
def retryTokenLifetime (odcid : Cnxid) : ℕ :=
  if odcid.1.length = 0 then 24 * 3600 * 1000000 else 4000000

/-- Until when a token is valid that is made now. -/
def retryTokenTime (currentTime : ℕ) (odcid : Cnxid) : ℕ :=
  u64 (currentTime + retryTokenLifetime odcid)

/-- The text of a token, if its components can be encoded. -/
def retryTokenText (tokenTime : ℕ) (odcid rcid : Cnxid) (initialPn : ℕ) : Option (List UInt8) := do
  let bytes ← framesUint64Encode [] tokenTextSize tokenTime
  let bytes ← framesLengthDataEncode bytes tokenTextSize odcid.1
  let bytes ← framesLengthDataEncode bytes tokenTextSize rcid.1
  let bytes ← framesVarintEncode bytes tokenTextSize initialPn
  some (bytes ++ List.replicate (retryTokenPadSize - bytes.length) 0)

/-- The random number at the head of a token tells whether it is a new token. -/
def tokenHead (isNewToken : Bool) (random : List.Vector UInt8 8) : List UInt8 :=
  (if isNewToken then random.head ||| 0x80 else random.head &&& 0x7F) :: random.tail.toList

/-- `picoquic_server_encrypt_retry_token`. -/
def serverEncryptRetryToken (aead : TokenAead) (addrPeer : TokenAddress) (isNewToken : Bool)
    (random : List.Vector UInt8 8) (tokenMax : ℕ) (text : List UInt8) : Option (List UInt8) :=
  if tokenMax < text.length + 1 + 16 then none
  else
    let head := tokenHead isNewToken random
    some (head ++ aead.encrypt (parse64 head) addrPeer.authData text)

/-- `picoquic_prepare_retry_token`: the token, unless it fails. -/
def prepareRetryToken (aead : TokenAead) (addrPeer : TokenAddress) (currentTime : ℕ)
    (odcid rcid : Cnxid) (initialPn : ℕ) (random : List.Vector UInt8 8) (tokenMax : ℕ) :
    Option (List UInt8) :=
  (retryTokenText (retryTokenTime currentTime odcid) odcid rcid initialPn).bind fun text =>
    serverEncryptRetryToken aead addrPeer (odcid.1.length = 0) random tokenMax text

/-! ### Checking a token -/

/-- `picoquic_server_decrypt_retry_token`: whether it is a new token, and its text. -/
def serverDecryptRetryToken (aead : TokenAead) (addrPeer : TokenAddress) (token : List UInt8) :
    Bool × Option (List UInt8) :=
  if token.length < 8 then (false, none)
  else
    (token.headD 0 &&& 0x80 ≠ 0,
      (aead.decrypt (parse64 token) addrPeer.authData (token.drop 8)).filter fun text =>
        text.length < token.length - 8)

/-- `picoquic_frames_cid_decode`, for a field whose length was `idLen` before. -/
def framesCidDecode (idLen : ℕ) (bytes : List UInt8) :
    Option (Option (ConnectionId × List UInt8)) :=
  match framesUint8Decode bytes with
  | none => if idLen = 0 ∨ DecodeCnx.cnxIdMaxSize < idLen then some none else none
  | some (idLen, bytes) =>
    if DecodeCnx.cnxIdMaxSize < idLen.toNat ∨ bytes.length < idLen.toNat then some none
    else some (some (bytes.take idLen.toNat, bytes.drop idLen.toNat))

/-- The components of a text. The second connection ID had length `idLen` before, which was not
set. -/
def decodeTokenText (idLen : ℕ) (text : List UInt8) : TokenText :=
  match framesUint64Decode text with
  | none => .malformed
  | some (tokenTime, bytes) =>
    match framesCidDecode 0 bytes with
    | none => .nullRead
    | some none => .malformed
    | some (some (odcid, bytes)) =>
      match framesCidDecode idLen bytes with
      | none => .nullRead
      | some none => .malformed
      | some (some (rcid, bytes)) =>
        match framesVarintDecode bytes with
        | none => .malformed
        | some (tokenPn, _) => .fields ⟨tokenTime, odcid, rcid, tokenPn⟩

/-- The tests that follow when a token is neither too old nor from a later packet. -/
def checkRegistered (c : TokenContext) (x : TokenFields) (rcid : ConnectionId) (token : List UInt8)
    (newContextCreated : Bool) : ℤ × TokenContext :=
  let (c, ret) := if newContextCreated then c.checkReuse token x.tokenTime else (c, 0)
  if ret ≠ 0 then (ret, c)
  else if 0 < x.odcid.length ∧ rcid ≠ x.rcid then (-1, c)
  else (0, c)

/-- `picoquic_verify_retry_token`, where `idLen` is what the memory of a connection ID held before.
`none` if the text is written beyond its buffer, or bytes are copied from `NULL`. -/
def verifyRetryToken (aead : TokenAead) (c : TokenContext) (addrPeer : TokenAddress)
    (currentTime : ℕ) (rcid : ConnectionId) (initialPn : ℕ) (token : List UInt8)
    (newContextCreated : Bool) (idLen : ℕ) : Option VerifiedToken :=
  match serverDecryptRetryToken aead addrPeer token with
  | (isNewToken, none) => some ⟨-1, isNewToken, [], c⟩
  | (isNewToken, some text) =>
    if tokenTextSize < text.length then none
    else match decodeTokenText idLen text with
    | .nullRead => none
    | .malformed => some ⟨0, isNewToken, [], c⟩
    | .fields x =>
      if x.tokenTime < currentTime then some ⟨-1, isNewToken, x.odcid, c⟩
      else if 0 < x.odcid.length ∧ initialPn ≤ x.tokenPn then some ⟨-1, isNewToken, x.odcid, c⟩
      else
        let (ret, c) := checkRegistered (c.clear currentTime) x rcid token newContextCreated
        some ⟨ret, isNewToken, x.odcid, c⟩

/-! ### The text of a token -/

theorem parse64_uint64Bytes {n : ℕ} (hn : n < 2 ^ 64) (rest : List UInt8) :
    parse64 (uint64Bytes n ++ rest) = n := by
  simp only [parse64, uint64Bytes, List.cons_append, List.nil_append, List.take_succ_cons,
    List.take_zero, List.foldl_cons, List.foldl_nil, UInt8.toNat_ofNat', Nat.shiftRight_eq_div_pow]
  omega

/-- The components of a text, before it is padded. -/
def tokenBytes (tokenTime : ℕ) (odcid rcid : Cnxid) (initialPn : ℕ) : List UInt8 :=
  uint64Bytes tokenTime ++ (varintBytes odcid.1.length ++ (odcid.1 ++
    (varintBytes rcid.1.length ++ (rcid.1 ++ varintBytes initialPn))))

theorem encodeVarintLength_cnxid (id : Cnxid) : encodeVarintLength id.1.length = 1 := by
  have h : id.1.length ≤ 20 := id.2
  rw [encodeVarintLength, if_pos (by omega), if_pos (by omega)]

variable (tokenTime : ℕ)

theorem tokenBytes_length (odcid rcid : Cnxid) (initialPn : ℕ) :
    (tokenBytes tokenTime odcid rcid initialPn).length =
      10 + odcid.1.length + rcid.1.length + encodeVarintLength initialPn := by
  have htime : (uint64Bytes tokenTime).length = 8 := rfl
  simp only [tokenBytes, List.length_append, varintBytes_length, encodeVarintLength_cnxid, htime]
  omega

theorem tokenBytes_length_le (odcid rcid : Cnxid) (initialPn : ℕ) :
    (tokenBytes tokenTime odcid rcid initialPn).length ≤ 58 := by
  have hodcid : odcid.1.length ≤ 20 := odcid.2
  have hrcid : rcid.1.length ≤ 20 := rcid.2
  have hpn := encodeVarintLength_le_eight initialPn
  rw [tokenBytes_length]
  omega

/-- The components of a token always fit. -/
theorem retryTokenText_eq (odcid rcid : Cnxid) (initialPn : ℕ) :
    retryTokenText tokenTime odcid rcid initialPn =
      some (tokenBytes tokenTime odcid rcid initialPn ++ List.replicate
        (retryTokenPadSize - (tokenBytes tokenTime odcid rcid initialPn).length) 0) := by
  have hfits : (tokenBytes tokenTime odcid rcid initialPn).length ≤ tokenTextSize :=
    (tokenBytes_length_le ..).trans (by decide)
  have hdata (out v : List UInt8) : framesLengthDataEncode out tokenTextSize v =
      appendWithin tokenTextSize out (varintBytes v.length ++ v) := by
    rw [framesLengthDataEncode, framesVarintEncode_eq, appendWithin_bind]
  have hall : ((((framesUint64Encode [] tokenTextSize tokenTime).bind fun out =>
      framesLengthDataEncode out tokenTextSize odcid.1).bind fun out =>
      framesLengthDataEncode out tokenTextSize rcid.1).bind fun out =>
      framesVarintEncode out tokenTextSize initialPn) =
      appendWithin tokenTextSize [] (tokenBytes tokenTime odcid rcid initialPn) := by
    simp only [hdata, framesVarintEncode_eq, framesUint64Encode, appendWithin_bind, tokenBytes,
      List.append_assoc]
  rw [appendWithin, List.length_nil, Nat.zero_add, if_pos hfits, List.nil_append] at hall
  have hbind : retryTokenText tokenTime odcid rcid initialPn =
      ((((framesUint64Encode [] tokenTextSize tokenTime).bind fun out =>
      framesLengthDataEncode out tokenTextSize odcid.1).bind fun out =>
      framesLengthDataEncode out tokenTextSize rcid.1).bind fun out =>
      framesVarintEncode out tokenTextSize initialPn).map fun bytes =>
        bytes ++ List.replicate (retryTokenPadSize - bytes.length) 0 := by
    simp only [retryTokenText, Option.bind_eq_bind, Option.bind_assoc, Option.map_eq_bind]
    rfl
  rw [hbind, hall, Option.map_some]

/-- A connection ID is read back. -/
theorem framesCidDecode_append (idLen : ℕ) (id : Cnxid) (rest : List UInt8) :
    framesCidDecode idLen (varintBytes id.1.length ++ (id.1 ++ rest)) =
      some (some (id.1, rest)) := by
  have h : id.1.length ≤ 20 := id.2
  have hbytes : varintBytes id.1.length = [UInt8.ofNat id.1.length] := by
    rw [varintBytes, if_pos (by omega), if_pos (by omega)]
  have hbyte : (UInt8.ofNat id.1.length).toNat = id.1.length := by
    rw [UInt8.toNat_ofNat']
    omega
  rw [framesCidDecode, hbytes, List.singleton_append, framesUint8Decode]
  dsimp only
  rw [hbyte, if_neg, List.take_left, List.drop_left]
  rw [List.length_append, not_or]
  exact ⟨not_lt.mpr id.2, by omega⟩

/-- **Round trip.** -/
theorem decodeTokenText_append (idLen : ℕ) {tokenTime initialPn : ℕ} (htime : tokenTime < 2 ^ 64)
    (hpn : initialPn < 2 ^ 62) (odcid rcid : Cnxid) (rest : List UInt8) :
    decodeTokenText idLen (tokenBytes tokenTime odcid rcid initialPn ++ rest) =
      .fields ⟨tokenTime, odcid.1, rcid.1, initialPn⟩ := by
  have hlen : ¬ (uint64Bytes tokenTime ++ (varintBytes odcid.1.length ++ (odcid.1 ++
      (varintBytes rcid.1.length ++ (rcid.1 ++ (varintBytes initialPn ++ rest)))))).length < 8 := by
    rw [List.length_append]
    exact not_lt.mpr (Nat.le_add_right 8 _)
  have hdrop (l : List UInt8) : (uint64Bytes tokenTime ++ l).drop 8 = l := rfl
  simp only [tokenBytes, List.append_assoc]
  rw [decodeTokenText, framesUint64Decode, if_neg hlen, parse64_uint64Bytes htime, hdrop]
  dsimp only
  rw [framesCidDecode_append]
  dsimp only
  rw [framesCidDecode_append]
  dsimp only
  rw [framesVarintDecode_varintBytes, Nat.mod_eq_of_lt hpn]

variable {x : TokenFields} {c : TokenContext} {token : List UInt8} {aead : TokenAead}
  {addrPeer : TokenAddress} {newContextCreated : Bool} {initialPn : ℕ}

variable {idLen : ℕ} {isNewToken : Bool} {rcid : ConnectionId} {random : List.Vector UInt8 8}

/-- What decodes does not depend on the memory of the connection ID. -/
theorem decodeTokenText_fields {text : List UInt8} (h : decodeTokenText idLen text = .fields x)
    (idLen' : ℕ) : decodeTokenText idLen' text = .fields x := by
  have hcid (bytes : List UInt8) {y : ConnectionId × List UInt8}
      (hy : framesCidDecode idLen bytes = some (some y)) :
      framesCidDecode idLen' bytes = some (some y) := by
    rw [framesCidDecode] at hy ⊢
    split at hy
    · split at hy <;> cases hy
    · exact hy
  rw [decodeTokenText] at h ⊢
  split at h
  · cases h
  split at h
  · cases h
  · cases h
  split at h
  · cases h
  · cases h
  next hrcid =>
    rw [hcid _ hrcid]
    exact h

/-! ### Acceptance -/

/-- No token that is registered has the same expiry time and the same last eight bytes. -/
def FirstPresented (c : TokenContext) (token : List UInt8) (expiryTime : ℕ) : Prop :=
  ∀ rt ∈ c.tokenReuseTree.toList, registeredTokenCompare (c.newToken token expiryTime) rt ≠ 0

/-- A token that is presented first is not refused, once the expired ones are cleared. -/
theorem FirstPresented.checkReuse {expiryTime : ℕ} (h : FirstPresented c token expiryTime)
    (hlen : 8 ≤ token.length) (currentTime : ℕ) :
    ((c.clear currentTime).checkReuse token expiryTime).2 = 0 := by
  have hsub : (c.clear currentTime).tokenReuseTree.toList.Sublist c.tokenReuseTree.toList :=
    (clearLoop_spec currentTime _ _).1
  have hfind := SplayTree.find_of_ne fun rt hrt => h rt (hsub.mem hrt)
  have hnew : (c.clear currentTime).newToken token expiryTime = c.newToken token expiryTime := rfl
  rw [TokenContext.checkReuse, if_pos hlen]
  dsimp only
  rw [hnew, hfind]

/-- A text that decodes is judged by its components. -/
theorem verifyRetryToken_of_fields {token text : List UInt8}
    (hdecrypt : serverDecryptRetryToken aead addrPeer token = (isNewToken, some text))
    (hlen : text.length ≤ tokenTextSize) (hx : decodeTokenText idLen text = .fields x)
    (c : TokenContext) (currentTime : ℕ) (rcid : ConnectionId) (initialPn : ℕ)
    (newContextCreated : Bool) :
    verifyRetryToken aead c addrPeer currentTime rcid initialPn token newContextCreated idLen =
      if x.tokenTime < currentTime then some ⟨-1, isNewToken, x.odcid, c⟩
      else if 0 < x.odcid.length ∧ initialPn ≤ x.tokenPn then some ⟨-1, isNewToken, x.odcid, c⟩
      else
        let (ret, c) := checkRegistered (c.clear currentTime) x rcid token newContextCreated
        some ⟨ret, isNewToken, x.odcid, c⟩ := by
  rw [verifyRetryToken, hdecrypt]
  dsimp only
  rw [if_neg (not_lt.mpr hlen), hx]

theorem checkRegistered_first (hlen : 8 ≤ token.length) (currentTime : ℕ)
    (hfirst : newContextCreated = true → FirstPresented c token x.tokenTime)
    (hrcid : 0 < x.odcid.length → rcid = x.rcid) :
    (checkRegistered (c.clear currentTime) x rcid token newContextCreated).1 = 0 := by
  have hbad : ¬ (0 < x.odcid.length ∧ rcid ≠ x.rcid) := fun h => h.2 (hrcid h.1)
  rw [checkRegistered]
  cases hnew : newContextCreated with
  | false => simp [hbad]
  | true =>
    have hreuse := (hfirst hnew).checkReuse hlen currentTime
    generalize (c.clear currentTime).checkReuse token x.tokenTime = r at hreuse
    obtain ⟨c', ret⟩ := r
    dsimp only at hreuse
    simp [hreuse, hbad]

/-- What passes the last tests names the connection ID. -/
theorem checkRegistered_rcid (h : (checkRegistered c x rcid token newContextCreated).1 = 0)
    (hodcid : 0 < x.odcid.length) : x.rcid = rcid := by
  by_contra hne
  have hbad : 0 < x.odcid.length ∧ rcid ≠ x.rcid := ⟨hodcid, fun heq => hne heq.symm⟩
  rw [checkRegistered] at h
  generalize (if newContextCreated then c.checkReuse token x.tokenTime else (c, 0)) = r at h
  obtain ⟨c', ret⟩ := r
  dsimp only at h
  split at h
  next hret => exact hret h
  · exact absurd h (by simp)

/-! ### Tokens that are made -/

theorem tokenHead_flag (isNewToken : Bool) (random : List.Vector UInt8 8) (rest : List UInt8) :
    decide ((tokenHead isNewToken random ++ rest).headD 0 &&& 0x80 ≠ 0) = isNewToken := by
  cases isNewToken with
  | true =>
    have hbits : ∀ x : BitVec 8, (x ||| 0x80) &&& 0x80 ≠ 0 := by decide
    have h : (random.head ||| 0x80) &&& 0x80 ≠ 0 := fun h0 =>
      hbits random.head.toBitVec (congrArg UInt8.toBitVec h0)
    simpa [tokenHead] using h
  | false =>
    have h : (random.head &&& 0x7F) &&& 0x80 = 0 := by
      rw [UInt8.and_assoc]
      exact UInt8.and_zero
    simpa [tokenHead] using h

theorem parse64_tokenHead (isNewToken : Bool) (random : List.Vector UInt8 8) (rest : List UInt8) :
    parse64 (tokenHead isNewToken random ++ rest) = parse64 (tokenHead isNewToken random) := by
  rw [parse64, parse64, List.take_append_of_le_length]
  simp [tokenHead]

/-- **A token that is made decrypts** to its text, and has 24 bytes more. -/
theorem serverDecrypt_of_encrypt {tokenMax : ℕ} {text token : List UInt8}
    (h : serverEncryptRetryToken aead addrPeer isNewToken random tokenMax text = some token) :
    serverDecryptRetryToken aead addrPeer token = (isNewToken, some text) ∧
      token.length = text.length + 24 ∧ text.length + 17 ≤ tokenMax := by
  rw [serverEncryptRetryToken] at h
  split at h
  · cases h
  next hmax =>
  have hhead : (tokenHead isNewToken random).length = 8 := by simp [tokenHead]
  obtain rfl := Option.some.inj h
  have hdrop (rest : List UInt8) : (tokenHead isNewToken random ++ rest).drop 8 = rest :=
    List.drop_left' hhead
  have hlen := aead.length_encrypt (parse64 (tokenHead isNewToken random)) addrPeer.authData text
  refine ⟨?_, ?_, by omega⟩
  · rw [serverDecryptRetryToken, if_neg, tokenHead_flag, parse64_tokenHead, hdrop,
      aead.decrypt_encrypt, Option.filter_some, if_pos]
    · simp only [List.length_append, hhead, hlen, decide_eq_true_eq]
      omega
    · rw [List.length_append, hhead]
      omega
  · rw [List.length_append, hhead, hlen]
    omega

/-- The length of the text of a token. -/
def retryTokenTextLength (odcid rcid : Cnxid) (initialPn : ℕ) : ℕ :=
  max retryTokenPadSize
    (10 + odcid.1.length + rcid.1.length + encodeVarintLength initialPn)

theorem retryTokenTime_lt (currentTime : ℕ) (odcid : Cnxid) :
    retryTokenTime currentTime odcid < 2 ^ 64 :=
  u64_lt _

/-- The text of a token decodes to what was put in. -/
theorem retryTokenText_spec (idLen currentTime : ℕ) (odcid rcid : Cnxid)
    (hpn : initialPn < 2 ^ 62) :
    ∃ text, retryTokenText (retryTokenTime currentTime odcid) odcid rcid initialPn = some text ∧
      text.length = retryTokenTextLength odcid rcid initialPn ∧ text.length ≤ tokenTextSize ∧
      decodeTokenText idLen text =
        .fields ⟨retryTokenTime currentTime odcid, odcid.1, rcid.1, initialPn⟩ := by
  have hle := tokenBytes_length_le (retryTokenTime currentTime odcid) odcid rcid initialPn
  have hlen := tokenBytes_length (retryTokenTime currentTime odcid) odcid rcid initialPn
  have hpad : retryTokenPadSize = 26 := rfl
  have hsize : tokenTextSize = 128 := rfl
  refine ⟨_, retryTokenText_eq _ _ _ _, ?_, ?_, ?_⟩
  · rw [List.length_append, List.length_replicate, retryTokenTextLength]
    omega
  · rw [List.length_append, List.length_replicate]
    omega
  · exact decodeTokenText_append idLen (retryTokenTime_lt _ _) hpn _ _ _

/-- What is made has the text of a token in it. -/
theorem prepareRetryToken_spec (aead : TokenAead) (addrPeer : TokenAddress) (currentTime : ℕ)
    (odcid rcid : Cnxid) (hpn : initialPn < 2 ^ 62) (random : List.Vector UInt8 8)
    (tokenMax idLen : ℕ) :
    (∀ token, prepareRetryToken aead addrPeer currentTime odcid rcid initialPn random tokenMax =
        some token →
      ∃ text, serverDecryptRetryToken aead addrPeer token =
          (decide (odcid.1.length = 0), some text) ∧
        token.length = retryTokenTextLength odcid rcid initialPn + 24 ∧
        text.length ≤ tokenTextSize ∧ decodeTokenText idLen text =
          .fields ⟨retryTokenTime currentTime odcid, odcid.1, rcid.1, initialPn⟩) ∧
      ((prepareRetryToken aead addrPeer currentTime odcid rcid initialPn random tokenMax).isSome ↔
        retryTokenTextLength odcid rcid initialPn + 17 ≤ tokenMax) := by
  obtain ⟨text, htext, hlen, hsize, hdecode⟩ :=
    retryTokenText_spec idLen currentTime odcid rcid hpn
  rw [prepareRetryToken, htext, Option.bind_some]
  refine ⟨fun token htoken => ?_, ?_⟩
  · obtain ⟨hdecrypt, hlength, -⟩ := serverDecrypt_of_encrypt htoken
    exact ⟨text, hdecrypt, hlen ▸ hlength, hsize, hdecode⟩
  · rw [serverEncryptRetryToken, hlen]
    split
    · simp only [Option.isSome_none, Bool.false_eq_true, false_iff]
      omega
    · simp only [Option.isSome_some, true_iff]
      omega

/-! ### Exactly when tokens are sound -/

/-- The token is accepted, with the original connection ID and the flag that were sealed. -/
def AcceptedAs (r : Option VerifiedToken) (odcid : Cnxid) : Prop :=
  ∃ v, r = some v ∧ v.ret = 0 ∧ v.odcid = odcid.1 ∧ v.isNewToken = decide (odcid.1.length = 0)

/-- The token decrypts, for this address, to a text that decodes to these components. -/
def SealedFields (aead : TokenAead) (addrPeer : TokenAddress) (token : List UInt8)
    (x : TokenFields) : Prop :=
  ∃ text, (serverDecryptRetryToken aead addrPeer token).2 = some text ∧
    decodeTokenText 0 text = .fields x

/-- The verification ends, and what it accepts is not expired and, when it carries an original
connection ID, names the connection ID presented and a smaller packet number. -/
def AcceptedRightly (aead : TokenAead) (addrPeer : TokenAddress) (currentTime : ℕ)
    (rcid : ConnectionId) (initialPn : ℕ) (token : List UInt8) (r : Option VerifiedToken) : Prop :=
  ∃ v, r = some v ∧ (v.ret = 0 → ∃ x, SealedFields aead addrPeer token x ∧
    currentTime ≤ x.tokenTime ∧ (0 < x.odcid.length → x.rcid = rcid ∧ x.tokenPn < initialPn))

/-- **Completeness.** A token that was made is accepted when it is presented first, by the time
that is written into it. -/
theorem verify_prepared {issueTime : ℕ} {odcid rcid : Cnxid} {tokenPn : ℕ} {tokenMax : ℕ}
    (hpn : tokenPn < 2 ^ 62)
    (htoken : prepareRetryToken aead addrPeer issueTime odcid rcid tokenPn random tokenMax =
      some token) {currentTime : ℕ} {rcid' : ConnectionId}
    (hfirst : newContextCreated = true → FirstPresented c token (retryTokenTime issueTime odcid))
    (hretry : 0 < odcid.1.length → rcid' = rcid.1 ∧ tokenPn < initialPn) :
    AcceptedAs (verifyRetryToken aead c addrPeer currentTime rcid' initialPn token
        newContextCreated idLen) odcid ↔
      currentTime ≤ retryTokenTime issueTime odcid := by
  obtain ⟨text, hdecrypt, hlength, hsize, hdecode⟩ :=
    (prepareRetryToken_spec aead addrPeer issueTime odcid rcid hpn random tokenMax idLen).1 token
      htoken
  rw [verifyRetryToken_of_fields hdecrypt hsize hdecode]
  dsimp only
  split
  next hold =>
    refine ⟨?_, fun h => absurd hold (not_lt.mpr h)⟩
    rintro ⟨v, hv, hret, -⟩
    obtain rfl := Option.some.inj hv
    exact absurd hret (by simp)
  next hold =>
    refine ⟨fun _ => not_lt.mp hold, fun _ => ?_⟩
    have hlate : ¬ (0 < odcid.1.length ∧ initialPn ≤ tokenPn) := by
      rintro ⟨hodcid, hle⟩
      have := (hretry hodcid).2
      omega
    rw [if_neg hlate]
    refine ⟨_, rfl, ?_, rfl, rfl⟩
    exact checkRegistered_first (by omega) currentTime hfirst fun h => (hretry h).1

/-- **Soundness** fails exactly for what decrypts to a text that does not fit or does not
decode. -/
theorem verify_rightly (aead : TokenAead) (c : TokenContext) (addrPeer : TokenAddress)
    (currentTime : ℕ) (rcid : ConnectionId) (initialPn : ℕ) (token : List UInt8)
    (newContextCreated : Bool) (idLen : ℕ) :
    AcceptedRightly aead addrPeer currentTime rcid initialPn token
        (verifyRetryToken aead c addrPeer currentTime rcid initialPn token newContextCreated
          idLen) ↔
      ∀ text, (serverDecryptRetryToken aead addrPeer token).2 = some text →
        text.length ≤ tokenTextSize ∧ ∃ x, decodeTokenText 0 text = .fields x := by
  constructor
  · intro h text htext
    obtain ⟨v, hv, hright⟩ := h
    generalize hdecrypt : serverDecryptRetryToken aead addrPeer token = r at htext
    obtain ⟨isNewToken, found⟩ := r
    dsimp only at htext
    subst htext
    rw [verifyRetryToken, hdecrypt] at hv
    dsimp only at hv
    split at hv
    · cases hv
    next hsize =>
    refine ⟨not_lt.mp hsize, ?_⟩
    split at hv
    · cases hv
    · -- a text that does not decode leaves the return value at zero
      obtain rfl := Option.some.inj hv
      obtain ⟨x, ⟨text', htext', hx⟩, -⟩ := hright rfl
      rw [hdecrypt] at htext'
      obtain rfl := Option.some.inj htext'
      exact ⟨x, hx⟩
    next hx => exact ⟨_, decodeTokenText_fields hx 0⟩
  · intro h
    generalize hdecrypt : serverDecryptRetryToken aead addrPeer token = r at h
    obtain ⟨isNewToken, found⟩ := r
    cases found with
    | none =>
      refine ⟨⟨-1, isNewToken, [], c⟩, ?_, fun hret => absurd hret (by simp)⟩
      rw [verifyRetryToken, hdecrypt]
    | some text =>
      obtain ⟨hsize, x, hx⟩ := h text rfl
      have hsealed : SealedFields aead addrPeer token x := ⟨text, by rw [hdecrypt], hx⟩
      rw [verifyRetryToken_of_fields hdecrypt hsize (decodeTokenText_fields hx idLen)]
      split
      · exact ⟨_, rfl, fun hret => absurd hret (by simp)⟩
      next htime =>
      split
      · exact ⟨_, rfl, fun hret => absurd hret (by simp)⟩
      next hpn =>
      refine ⟨_, rfl, fun hret => ⟨x, hsealed, not_lt.mp htime, fun hodcid => ?_⟩⟩
      exact ⟨checkRegistered_rcid hret hodcid, not_le.mp fun hle => hpn ⟨hodcid, hle⟩⟩

/-- **Retry tokens**: for a token that was made, exactly when it is accepted where it should be;
exactly when a token that is made takes no more than the space for it; and exactly when what is
presented is accepted rightly. -/
theorem retryToken_iff (aead : TokenAead) (addrPeer : TokenAddress) :
    (∀ (issueTime : Fin (2 ^ 64)) (odcid rcid : Cnxid) (tokenPn : Fin (2 ^ 32))
        (random : List.Vector UInt8 8) (tokenMax : ℕ) (token : List UInt8),
      prepareRetryToken aead addrPeer issueTime odcid rcid tokenPn random tokenMax = some token →
      ∀ (c : TokenContext) (currentTime : Fin (2 ^ 64)) (rcid' : ConnectionId)
        (initialPn : Fin (2 ^ 32)) (newContextCreated : Bool) (idLen : ℕ),
      (currentTime : ℕ) ≤ issueTime.val + retryTokenLifetime odcid →
      (newContextCreated = true → FirstPresented c token (retryTokenTime issueTime odcid)) →
      (0 < odcid.1.length → rcid' = rcid.1 ∧ tokenPn < initialPn) →
      (AcceptedAs (verifyRetryToken aead c addrPeer currentTime rcid' initialPn token
          newContextCreated idLen) odcid ↔
        (currentTime : ℕ) ≤ (issueTime.val + retryTokenLifetime odcid) % 2 ^ 64)) ∧
    (∀ (issueTime : Fin (2 ^ 64)) (odcid rcid : Cnxid) (tokenPn : Fin (2 ^ 32))
        (random : List.Vector UInt8 8) (tokenMax : ℕ),
      (∀ token, prepareRetryToken aead addrPeer issueTime odcid rcid tokenPn random tokenMax =
          some token → token.length ≤ tokenMax) ↔
        ¬ (retryTokenTextLength odcid rcid tokenPn + 17 ≤ tokenMax ∧
          tokenMax < retryTokenTextLength odcid rcid tokenPn + 24)) ∧
    ∀ (c : TokenContext) (currentTime : Fin (2 ^ 64)) (rcid : ConnectionId)
        (initialPn : Fin (2 ^ 32)) (token : List UInt8) (newContextCreated : Bool) (idLen : ℕ),
      AcceptedRightly aead addrPeer currentTime rcid initialPn token
          (verifyRetryToken aead c addrPeer currentTime rcid initialPn token newContextCreated
            idLen) ↔
        ∀ text, (serverDecryptRetryToken aead addrPeer token).2 = some text →
          text.length ≤ tokenTextSize ∧ ∃ x, decodeTokenText 0 text = .fields x := by
  have hpn62 (n : Fin (2 ^ 32)) : (n : ℕ) < 2 ^ 62 := n.isLt.trans (by decide)
  refine ⟨?_, ?_, ?_⟩
  · intro issueTime odcid rcid tokenPn random tokenMax token htoken c currentTime rcid' initialPn
      newContextCreated idLen _ hfirst hretry
    exact verify_prepared (hpn62 tokenPn) htoken hfirst hretry
  · intro issueTime odcid rcid tokenPn random tokenMax
    obtain ⟨hmade, hsome⟩ := prepareRetryToken_spec aead addrPeer issueTime odcid rcid
      (hpn62 tokenPn) random tokenMax 0
    constructor
    · intro hfits hbetween
      obtain ⟨token, htoken⟩ := Option.isSome_iff_exists.mp (hsome.mpr hbetween.1)
      obtain ⟨-, -, hlength, -⟩ := hmade token htoken
      have hmax := hfits token htoken
      omega
    · intro hbetween token htoken
      obtain ⟨-, -, hlength, -⟩ := hmade token htoken
      have hroom := hsome.mp (by rw [htoken]; rfl)
      omega
  · intro c currentTime rcid initialPn token newContextCreated idLen
    exact verify_rightly aead c addrPeer currentTime rcid initialPn token newContextCreated idLen

/-- A protection that appends the sequence number and eight bytes of the authenticated data. -/
def plainTag (sequence : ℕ) (authData : List UInt8) : List UInt8 :=
  uint64Bytes sequence ++ (authData ++ List.replicate 8 0).take 8

theorem plainTag_length (sequence : ℕ) (authData : List UInt8) :
    (plainTag sequence authData).length = 16 := by
  have h : (uint64Bytes sequence).length = 8 := rfl
  rw [plainTag, List.length_append, h, List.length_take, List.length_append,
    List.length_replicate]
  omega

/-- Texts are sealed in the clear. -/
def plainAead : TokenAead where
  encrypt s d t := t ++ plainTag s d
  decrypt s d c :=
    if c.drop (c.length - 16) = plainTag s d then some (c.take (c.length - 16)) else none
  decrypt_encrypt s d t := by
    have h : (t ++ plainTag s d).length - 16 = t.length := by
      rw [List.length_append, plainTag_length]
      omega
    rw [h, List.drop_left, List.take_left, if_pos rfl]
  eq_encrypt s d c t h := by
    split at h
    next htag =>
      rw [← Option.some.inj h, ← htag, List.take_append_drop]
    · cases h
  length_encrypt s d t := by
    rw [List.length_append, plainTag_length]

/-- A new token is made and presented a second later. -/
theorem retryToken_presented :
    ∃ token, prepareRetryToken plainAead (.inet ⟨[192, 0, 2, 1], rfl⟩) 1000 ⟨[], by decide⟩
        ⟨[1, 2, 3, 4], by decide⟩ 1 ⟨List.replicate 8 0, rfl⟩ 64 = some token ∧
      AcceptedAs (verifyRetryToken plainAead .init (.inet ⟨[192, 0, 2, 1], rfl⟩) 1001000
        [1, 2, 3, 4] 1 token true 0) ⟨[], by decide⟩ :=
  ⟨_, rfl, ((retryToken_iff plainAead _).1 1000 ⟨[], by decide⟩ ⟨[1, 2, 3, 4], by decide⟩ 1 _ 64 _
    rfl .init 1001000 [1, 2, 3, 4] 1 true 0 (by decide) (fun _ _ hrt => nomatch hrt)
    fun h => absurd h (by decide)).mpr (by decide)⟩

/-- A text of ten zeros, which ends before the packet number. -/
def zerosText : List UInt8 := List.replicate 10 0

/-- The text, sealed for the sequence number zero and the address 192.0.2.1. -/
def zerosToken : List UInt8 := List.replicate 8 0 ++ plainAead.encrypt 0 [192, 0, 2, 1] zerosText

/-- **A text that does not decode is accepted**, and a token takes more than the space for it. -/
theorem malformed_accepted :
    (serverDecryptRetryToken plainAead (.inet ⟨[192, 0, 2, 1], rfl⟩) zerosToken).2 =
        some zerosText ∧
      (∀ x, decodeTokenText 0 zerosText ≠ .fields x) ∧
      (∃ v, verifyRetryToken plainAead .init (.inet ⟨[192, 0, 2, 1], rfl⟩) 1000 [1, 2, 3, 4] 1
        zerosToken true 0 = some v ∧ v.ret = 0) ∧
      ∃ token, prepareRetryToken plainAead (.inet ⟨[192, 0, 2, 1], rfl⟩) 1000 ⟨[], by decide⟩
        ⟨[1, 2, 3, 4], by decide⟩ 1 ⟨List.replicate 8 0, rfl⟩ 43 = some token ∧
        43 < token.length := by
  have hmalformed : decodeTokenText 0 zerosText = .malformed := rfl
  refine ⟨by decide +kernel, fun x h => ?_, ⟨⟨0, false, [], .init⟩, by rfl, rfl⟩, _, rfl, ?_⟩
  · rw [hmalformed] at h
    cases h
  · decide +kernel

end Picoquic
