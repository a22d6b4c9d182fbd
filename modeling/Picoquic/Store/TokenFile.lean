import Picoquic.Store.Record

/-!
# The token store

A client keeps the address tokens that servers gave it, and saves those that may still be used in a
file, from which it loads them when it starts again.

* **`storeToken`** — a token is stored, and older ones for the same name and address are removed;
* **`serializeToken`**, **`deserializeToken`** — the record of a token;
* **`saveTokens`**, **`loadTokens`** — the file;
* **`storeToken_nonempty`** — no token of the store is empty;
* **`deserializeToken_iff`** — a token is restored from its record, unless the record is empty;
* **`tokens_load_iff`** — the file is loaded as it was saved exactly if no record is larger than
  what loading accepts, which is less than saving does.

The file can be written and read, and pointers have eight bytes.
-/

namespace Picoquic

open RecordFile

/-- `picoquic_stored_token_t`. The lengths are those of the bytes. -/
structure StoredToken where
  timeValidUntil : ℕ
  sni : List UInt8
  ipAddr : List UInt8
  token : List UInt8
  wasUsed : Bool

/-- `picoquic_format_token`. -/
def formatToken (timeValidUntil : ℕ) (sni ipAddr token : List UInt8) : StoredToken :=
  ⟨timeValidUntil, sni, ipAddr, token, false⟩

/-- `picoquic_store_token`. -/
def storeToken (firstToken : List StoredToken) (currentTime : ℕ) (sni ipAddr token : List UInt8) :
    Except StoreError (List StoredToken) :=
  if token.length < 1 ∨ sni.length = 0 then .error .invalidToken
  else
    let stored := formatToken (u64 (currentTime + 24 * 3600 * 1000000)) sni ipAddr token
    .ok (storeFirst (fun next => next.timeValidUntil ≤ stored.timeValidUntil &&
      next.sni = sni && next.ipAddr = ipAddr) stored firstToken)

/-- `picoquic_serialize_token`, into a buffer of `bytesMax` bytes. -/
def serializeToken (token : StoredToken) (bytesMax : ℕ) : Except StoreError (List UInt8) :=
  let requiredLength :=
    8 + 2 + 2 + 2 + token.sni.length + token.ipAddr.length + token.token.length
  if bytesMax < requiredLength then .error .frameBufferTooSmall
  else .ok (uint64Bytes token.timeValidUntil ++
    (uint16Bytes token.sni.length ++ (token.sni ++
      (uint16Bytes token.ipAddr.length ++ (token.ipAddr ++
        (uint16Bytes token.token.length ++ token.token))))))

/-- `picoquic_deserialize_token`, with the number of bytes consumed. -/
def deserializeToken (bytes : List UInt8) : Except StoreError (StoredToken × ℕ) :=
  let bytesMax := bytes.length
  let c : RecordCursor := ⟨8 + 2 + 2 + 2, bytes⟩
  let timeValidUntil := if c.requiredLength < bytesMax then parse64 c.rest else 0
  let c := c.skip bytesMax 8
  let (sni, c) := c.field bytesMax 2 fun rest => parse16 rest
  let (ipAddr, c) := c.field bytesMax 2 fun rest => parse16 rest % 256
  let (token, c) := c.field bytesMax 2 fun rest => parse16 rest
  if bytesMax < c.requiredLength then .error .invalidToken
  else .ok (formatToken timeValidUntil sni ipAddr token, c.requiredLength)

/-- The offset of the expiry time in a token, after four pointers. -/
def tokenRecordOffset : ℕ := 32

/-- The records of tokens. -/
def tokenFormat : Format StoredToken StoreError :=
  recordFormat serializeToken deserializeToken tokenRecordOffset

/-- The tokens that are saved. -/
def StoredToken.isKept (currentTime : ℕ) (token : StoredToken) : Bool :=
  currentTime < token.timeValidUntil && !token.wasUsed

/-- The tokens that are loaded and freed again. -/
def StoredToken.isExpired (currentTime : ℕ) (token : StoredToken) : Bool :=
  token.timeValidUntil < currentTime

/-- `picoquic_save_tokens`: the error, if there is one, and the file. -/
def saveTokens (firstToken : List StoredToken) (currentTime : ℕ) :
    Option StoreError × List UInt8 :=
  tokenFormat.save (StoredToken.isKept currentTime) firstToken

/-- `picoquic_load_tokens`: the error, if there is one, and the tokens. -/
def loadTokens (currentTime : ℕ) (F : List UInt8) : Option StoreError × List StoredToken :=
  tokenFormat.load (StoredToken.isExpired currentTime) F

/-! ### Records -/

namespace StoredToken

/-- The values that the fields can hold. -/
structure InRange (token : StoredToken) : Prop where
  timeValidUntil : token.timeValidUntil < 2 ^ 64
  sni : token.sni.length < 2 ^ 16
  ipAddr : token.ipAddr.length < 256
  token : token.token.length < 2 ^ 16

/-- The number of bytes of a record. -/
def recordSize (token : StoredToken) : ℕ :=
  14 + token.sni.length + token.ipAddr.length + token.token.length

/-- All fields whose length varies are empty. -/
def IsEmpty (token : StoredToken) : Prop :=
  token.sni = [] ∧ token.ipAddr = [] ∧ token.token = []

instance (token : StoredToken) : Decidable token.IsEmpty := inferInstanceAs (Decidable (_ ∧ _))

/-- The bytes of a record. -/
def record (token : StoredToken) : List UInt8 :=
  uint64Bytes token.timeValidUntil ++
    (uint16Bytes token.sni.length ++ (token.sni ++
      (uint16Bytes token.ipAddr.length ++ (token.ipAddr ++
        (uint16Bytes token.token.length ++ token.token)))))

theorem record_length (token : StoredToken) : token.record.length = token.recordSize := by
  simp only [record, recordSize, uint64Bytes, uint16Bytes, List.length_append, List.length_cons,
    List.length_nil]
  omega

theorem isEmpty_iff_recordSize {token : StoredToken} : token.IsEmpty ↔ token.recordSize ≤ 14 := by
  rw [IsEmpty, recordSize, ← List.length_eq_zero_iff, ← List.length_eq_zero_iff,
    ← List.length_eq_zero_iff]
  omega

end StoredToken

variable {token : StoredToken} {bytes : List UInt8} {n : ℕ}

/-- **Writing a record.** -/
theorem serializeToken_eq_ok :
    serializeToken token n = .ok bytes ↔ token.recordSize ≤ n ∧ bytes = token.record := by
  have hsize : 8 + 2 + 2 + 2 + token.sni.length + token.ipAddr.length + token.token.length =
      token.recordSize := rfl
  rw [serializeToken]
  simp only [hsize]
  split_ifs with hn
  · exact iff_of_false (fun h => by cases h) fun h => Nat.not_lt.mpr h.1 hn
  · rw [and_iff_right (Nat.le_of_not_lt hn), Except.ok.injEq, eq_comm, StoredToken.record]

/-- **Reading a record** gives all fields back, but the time only if another field is there. -/
theorem deserializeToken_record (h : token.InRange) :
    deserializeToken token.record =
      .ok (formatToken (if token.IsEmpty then 0 else token.timeValidUntil) token.sni token.ipAddr
        token.token, token.recordSize) := by
  have hsize : token.recordSize =
      14 + token.sni.length + token.ipAddr.length + token.token.length := rfl
  have hlen := token.record_length
  -- The cursor goes through the fields; `hᵢ` is what it requires after each of them.
  obtain ⟨c₀, hc₀, (h₀ : c₀.requiredLength = 14), hrest₀⟩ :=
    RecordCursor.skip_spec (c := ⟨8 + 2 + 2 + 2, token.record⟩) token.recordSize
      (n := 8) rfl fun _ => rfl
  obtain ⟨c₁, hc₁, h₁, hrest₁⟩ := RecordCursor.field_spec 2 (fun rest => parse16 rest) rfl
    (parse16_bytes h.sni _) (by omega) hrest₀
  obtain ⟨c₂, hc₂, h₂, hrest₂⟩ := RecordCursor.field_spec 2 (fun rest => parse16 rest % 256) rfl
    (by rw [parse16_bytes (h.ipAddr.trans (by decide)), Nat.mod_eq_of_lt h.ipAddr]) (by omega)
    hrest₁
  replace hrest₂ : c₂.requiredLength < token.recordSize →
      c₂.rest = uint16Bytes token.token.length ++ (token.token ++ []) :=
    fun hlt => (hrest₂ hlt).trans (by rw [List.append_nil])
  obtain ⟨c₃, hc₃, h₃, -⟩ := RecordCursor.field_spec 2 (fun rest => parse16 rest) rfl
    (parse16_bytes h.token _) (by omega) hrest₂
  have hrequired : c₃.requiredLength = token.recordSize := by omega
  have htime : (if 8 + 2 + 2 + 2 < token.recordSize then parse64 token.record else 0) =
      if token.IsEmpty then 0 else token.timeValidUntil := by
    by_cases hempty : token.IsEmpty
    · rw [if_pos hempty, if_neg (Nat.not_lt.mpr (StoredToken.isEmpty_iff_recordSize.mp hempty))]
    · rw [if_neg hempty, if_pos (Nat.not_le.mp fun hle =>
        hempty (StoredToken.isEmpty_iff_recordSize.mpr hle))]
      exact parse64_uint64Bytes h.timeValidUntil _
  simp only [deserializeToken, hlen, hc₀, hc₁, hc₂, hc₃, hrequired, htime, lt_irrefl, if_false]

/-- **Restoring.** A token is restored from its record exactly if it has a field besides the
time. -/
theorem deserializeToken_iff (h : token.InRange) (htime : 0 < token.timeValidUntil)
    (hused : token.wasUsed = false) :
    deserializeToken token.record = .ok (token, token.record.length) ↔ ¬ token.IsEmpty := by
  rw [deserializeToken_record h, token.record_length]
  constructor
  · intro heq hempty
    rw [if_pos hempty] at heq
    have hzero := congrArg StoredToken.timeValidUntil (Prod.ext_iff.mp (Except.ok.inj heq)).1
    exact absurd hzero.symm htime.ne'
  · intro hempty
    obtain ⟨timeValidUntil, sni, ipAddr, token, wasUsed⟩ := token
    cases hused
    rw [if_neg hempty, formatToken]

/-! ### The file -/

theorem serializeToken_eq_record (token : StoredToken) (n : ℕ) (bytes : List UInt8) :
    serializeToken token n = .ok bytes ↔ token.record.length ≤ n ∧ bytes = token.record := by
  rw [token.record_length]
  exact serializeToken_eq_ok

variable {currentTime : ℕ}

/-- A token that is kept is restored from the file exactly if the file may hold its record. -/
theorem tokenFormat_restores (h : token.InRange) (hkept : token.isKept currentTime = true) :
    tokenFormat.Restores token ↔
      token.recordSize + tokenRecordOffset ≤ 2048 ∧ ¬ token.IsEmpty := by
  rw [StoredToken.isKept, Bool.and_eq_true, decide_eq_true_eq, Bool.not_eq_true'] at hkept
  have hiff := deserializeToken_iff h (Nat.zero_lt_of_lt hkept.1) hkept.2
  rw [tokenFormat, recordFormat_restores (by decide) serializeToken_eq_record, hiff,
    token.record_length]

/-- **Saving and loading** a list of tokens. -/
theorem loadTokens_saveTokens_iff {l : List StoredToken} (hl : ∀ token ∈ l, token.InRange)
    (currentTime : ℕ) :
    ((saveTokens l currentTime).1 = none ∧
        loadTokens currentTime (saveTokens l currentTime).2 =
          (none, l.filter (StoredToken.isKept currentTime))) ↔
      ∀ token ∈ l, token.isKept currentTime = true →
        token.recordSize + tokenRecordOffset ≤ 2048 ∧ ¬ token.IsEmpty := by
  have hexpired : ∀ token : StoredToken, token.isKept currentTime = true →
      token.isExpired currentTime = false := by
    intro token h
    rw [StoredToken.isKept, Bool.and_eq_true, decide_eq_true_eq] at h
    exact decide_eq_false (Nat.lt_asymm h.1)
  refine (Format.roundTrips_iff_values (recordFormat_size serializeToken_eq_record) hexpired
    l).trans ?_
  refine forall_congr' fun token => ⟨fun h hmem hkept => ?_, fun h hmem hkept => ?_⟩
  · exact (tokenFormat_restores (hl token hmem) hkept).mp (h hmem hkept)
  · exact (tokenFormat_restores (hl token hmem) hkept).mpr (h hmem hkept)

/-! ### The store -/

/-- What is stored is never empty. -/
theorem storeToken_nonempty {l l' : List StoredToken} {sni ipAddr token : List UInt8}
    (hl : ∀ token ∈ l, token.InRange ∧ ¬ token.IsEmpty) (hsni : sni.length < 2 ^ 16)
    (hip : ipAddr.length < 256) (htoken : token.length < 2 ^ 16)
    (h : storeToken l currentTime sni ipAddr token = .ok l') :
    ∀ token ∈ l', token.InRange ∧ ¬ token.IsEmpty := by
  rw [storeToken] at h
  split_ifs at h with hinvalid
  obtain rfl := Except.ok.inj h
  rw [storeFirst, List.forall_mem_cons]
  refine ⟨⟨⟨u64_lt _, hsni, hip, htoken⟩, ?_⟩, fun next hnext => ?_⟩
  · rintro ⟨hempty, -⟩
    exact hinvalid (Or.inr (List.length_eq_zero_iff.mpr hempty))
  · exact hl next (List.mem_of_mem_filter hnext)

/-- **The token file.** Any list of tokens that is saved is loaded at the same time without those
that were used or have expired, and otherwise as it was, exactly if no record that is saved has
more than 2016 bytes, and none is empty, as none of the store is. Each token that is not empty is
restored from its record, which is consumed. -/
theorem tokens_load_iff {l : List StoredToken} (hl : ∀ token ∈ l, token.InRange)
    (currentTime : ℕ) :
    (((saveTokens l currentTime).1 = none ∧
        loadTokens currentTime (saveTokens l currentTime).2 =
          (none, l.filter (StoredToken.isKept currentTime))) ↔
      ∀ token ∈ l, token.isKept currentTime = true →
        token.recordSize ≤ 2016 ∧ ¬ token.IsEmpty) ∧
    ∀ token ∈ l, ¬ token.IsEmpty → ∀ n bytes, serializeToken token n = .ok bytes →
      deserializeToken bytes = .ok ({ token with wasUsed := false }, bytes.length) := by
  constructor
  · rw [loadTokens_saveTokens_iff hl]
    have hbound (token : StoredToken) :
        token.recordSize + tokenRecordOffset ≤ 2048 ↔ token.recordSize ≤ 2016 := by
      rw [tokenRecordOffset]
      omega
    simp only [hbound]
  · rintro token hmem hempty n bytes hbytes
    obtain ⟨-, rfl⟩ := serializeToken_eq_ok.mp hbytes
    rw [deserializeToken_record (hl token hmem), if_neg hempty, token.record_length, formatToken]

/-- Of three tokens, the one that was used and the one that has expired are not loaded. -/
theorem tokens_load_three :
    (saveTokens [⟨10, [97], [10, 0, 0, 1], [1, 2, 3], false⟩, ⟨10, [98], [], [4], true⟩,
        ⟨5, [97], [], [5], false⟩] 5).1 = none ∧
      loadTokens 5 (saveTokens [⟨10, [97], [10, 0, 0, 1], [1, 2, 3], false⟩,
        ⟨10, [98], [], [4], true⟩, ⟨5, [97], [], [5], false⟩] 5).2 =
      (none, [⟨10, [97], [10, 0, 0, 1], [1, 2, 3], false⟩]) := by
  refine (tokens_load_iff (fun token hmem => ?_) 5).1.mpr (by decide)
  obtain rfl | rfl | rfl : token = _ ∨ token = _ ∨ token = _ := by simpa using hmem
  · exact ⟨by decide, by decide, by decide, by decide⟩
  · exact ⟨by decide, by decide, by decide, by decide⟩
  · exact ⟨by decide, by decide, by decide, by decide⟩

/-- A token of 2002 bytes, for a name of one byte. -/
def largeToken : StoredToken := ⟨10, [97], [], List.replicate 2002 0, false⟩

/-- The large token is saved, but not loaded. -/
theorem large_token_lost :
    ¬ ((saveTokens [largeToken] 5).1 = none ∧
      loadTokens 5 (saveTokens [largeToken] 5).2 =
        (none, [largeToken].filter (StoredToken.isKept 5))) := by
  intro h
  have hlen : largeToken.token.length = 2002 := List.length_replicate
  have hrange : ∀ token ∈ [largeToken], token.InRange := by
    intro token hmem
    rw [List.mem_singleton.mp hmem]
    exact ⟨by decide, by decide, by decide, by rw [hlen]; decide⟩
  have hsize := ((loadTokens_saveTokens_iff hrange 5).mp h _ List.mem_cons_self rfl).1
  rw [StoredToken.recordSize, hlen] at hsize
  exact absurd hsize (by decide)

end Picoquic
