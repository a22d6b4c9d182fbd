import Picoquic.ForMathlib.CheckedArray
import Picoquic.Quic.RetryToken

/-!
# Field codecs

The functions that read one field are called with a position and the end of the buffer. Here a
buffer is a list of bytes, and each access names the position it goes to, so that one beyond the
end, or one through `NULL`, does not go through.

* **`FieldResult`** — no access outside and a position, or `NULL`; or an access outside;
* **`framesVarintDecodeAt_eq`**, **`varintDecodeWithin_eq`** — the two decoders, at a position;
* **`framesVarintEncodeAt_eq`**, **`varintEncodeWithin_eq`** — the two encoders;
* **`Bounded`** — a decoder that stays within the bytes given, whatever follows them;
* **`fieldCodecsLaw_iff`** — exactly when all of that holds.
-/

namespace Picoquic

/-! ### Decoders -/

/-- What a decoder returns: `none` if it reads outside of the bytes given or through `NULL`,
otherwise `NULL`, or what it finds and the position after it. -/
abbrev FieldResult (α : Type) : Type := Option (Option (α × ℕ))

/-- A decoder that is called if the one before it did not return `NULL`. -/
def FieldResult.next {α β : Type} : FieldResult α → (α → ℕ → FieldResult β) → FieldResult β
  | none, _ => none
  | some none, _ => some none
  | some (some (x, p)), f => f x p

/-- A test for `size` bytes, and then the reads of `parse`. -/
def fixedField {α : Type} (size : ℕ) (parse : List UInt8 → ℕ → Option α) (buf : List UInt8)
    (p : ℕ) : FieldResult α :=
  if p + size ≤ buf.length then (parse buf p).map fun x => some (x, p + size) else some none

/-- `picoquic_frames_fixed_skip`. -/
def framesFixedSkipAt (size : ℕ) (buf : List UInt8) (p : ℕ) : FieldResult Unit :=
  some (if size ≤ buf.length - p then some ((), p + size) else none)

/-- `picoquic_frames_varint_skip`. -/
def framesVarintSkipAt (buf : List UInt8) (p : ℕ) : FieldResult Unit :=
  if p < buf.length then
    buf[p]?.bind fun byte => framesFixedSkipAt (decodeVarintLength byte) buf p
  else some none

/-- The loop over the `n` bytes after the first one. -/
def varintLoop : ℕ → ℕ → List UInt8 → ℕ → Option ℕ
  | 0, v, _, _ => some v
  | n + 1, v, buf, p =>
    buf[p]?.bind fun b => varintLoop n (u64 (u64 (v <<< 8) + b.toNat)) buf (p + 1)

/-- The value of an encoding of `length` bytes: `v = *bytes++ & 0x3F`, and the loop. -/
def varintParse (length : ℕ) (buf : List UInt8) (p : ℕ) : Option ℕ :=
  buf[p]?.bind fun byte => varintLoop (length - 1) (byte.toNat &&& 0x3F) buf (p + 1)

/-- `picoquic_frames_varint_decode`. -/
def framesVarintDecodeAt (buf : List UInt8) (p : ℕ) : FieldResult ℕ :=
  if p < buf.length then
    buf[p]?.bind fun byte =>
      fixedField (decodeVarintLength byte) (varintParse (decodeVarintLength byte)) buf p
  else some none

/-- `picoquic_frames_varlen_decode`: a value that is not a `size_t` is an error. -/
def framesVarlenDecodeAt (buf : List UInt8) (p : ℕ) : FieldResult ℕ :=
  (framesVarintDecodeAt buf p).map fun r => r.filter fun x => u64 x.1 = x.1

/-- `picoquic_frames_uint8_decode`. -/
def framesUint8DecodeAt (buf : List UInt8) (p : ℕ) : FieldResult UInt8 :=
  if p < buf.length then buf[p]?.map fun b => some (b, p + 1) else some none

/-- `PICOPARSE_16`. -/
def picoparse16 (buf : List UInt8) (p : ℕ) : Option ℕ :=
  buf[p]?.bind fun a => buf[p + 1]?.map fun b => (a.toNat <<< 8) ||| b.toNat

/-- `PICOPARSE_32`. -/
def picoparse32 (buf : List UInt8) (p : ℕ) : Option ℕ :=
  (picoparse16 buf p).bind fun a => (picoparse16 buf (p + 2)).map fun b => (a <<< 16) ||| b

/-- `PICOPARSE_64`. -/
def picoparse64 (buf : List UInt8) (p : ℕ) : Option ℕ :=
  (picoparse32 buf p).bind fun a => (picoparse32 buf (p + 4)).map fun b => (a <<< 32) ||| b

/-- `picoquic_frames_uint16_decode`. -/
def framesUint16DecodeAt : List UInt8 → ℕ → FieldResult ℕ := fixedField 2 picoparse16

/-- `picoquic_frames_uint32_decode`. -/
def framesUint32DecodeAt : List UInt8 → ℕ → FieldResult ℕ := fixedField 4 picoparse32

/-- `picoquic_frames_uint64_decode`. -/
def framesUint64DecodeAt : List UInt8 → ℕ → FieldResult ℕ := fixedField 8 picoparse64

/-- `picoquic_frames_length_data_skip`. -/
def framesLengthDataSkipAt (buf : List UInt8) (p : ℕ) : FieldResult Unit :=
  (framesVarintDecodeAt buf p).next fun length p => framesFixedSkipAt length buf p

/-- The connection ID of `idLen` bytes at a position. -/
def cidBytesAt (idLen : UInt8) (buf : List UInt8) (p : ℕ) : FieldResult ConnectionId :=
  if DecodeCnx.cnxIdMaxSize < idLen.toNat then some none
  else fixedField idLen.toNat (fun buf p => readCells buf p idLen.toNat) buf p

/-- `picoquic_frames_cid_decode`, for a field whose length was `idLen` before. The position is not
compared with `NULL` before the connection ID is copied from it. -/
def framesCidDecodeAt (idLen : UInt8) (buf : List UInt8) (p : ℕ) : FieldResult ConnectionId :=
  match framesUint8DecodeAt buf p with
  | none => none
  -- `id_len` is the old one, and `memcpy` copies that many bytes from `NULL`
  | some none => if DecodeCnx.cnxIdMaxSize < idLen.toNat ∨ idLen = 0 then some none else none
  | some (some (idLen, p)) => cidBytesAt idLen buf p

/-- `picoquic_varint_decode`: the length, `0` on error, and the value. -/
def varintDecodeWithin (buf : List UInt8) (p maxBytes : ℕ) : Option (ℕ × ℕ) :=
  if maxBytes < 1 then some (0, 0)
  else
    buf[p]?.bind fun byte =>
      let length := 1 <<< ((byte.toNat &&& 0xC0) >>> 6)
      if maxBytes < length then some (0, 0)
      else (varintParse length buf p).map fun v => (length, v)

/-- `picoquic_varint_skip`: the position after the field. It is not told where the buffer ends. -/
def varintSkipAt (buf : List UInt8) (p : ℕ) : FieldResult Unit :=
  buf[p]?.map fun byte => some ((), p + decodeVarintLength byte)

/-! ### Encoders -/

/-- A test for `size` bytes of space, and then the bytes that are written. The position after them,
or `NULL`. -/
def putField (buf : List UInt8) (p size : ℕ) (bytes : List UInt8) :
    Option (List UInt8 × Option ℕ) :=
  if p + size ≤ buf.length then (writeCells buf p bytes).map (·, some (p + bytes.length))
  else some (buf, none)

/-- `picoquic_frames_varint_encode`. -/
def framesVarintEncodeAt (buf : List UInt8) (p n64 : ℕ) : Option (List UInt8 × Option ℕ) :=
  if n64 < 16384 then
    if n64 < 64 then putField buf p 1 [UInt8.ofNat n64]
    else putField buf p 2 [UInt8.ofNat ((n64 >>> 8) ||| 0x40), UInt8.ofNat n64]
  else if n64 < 1073741824 then
    putField buf p 4 [UInt8.ofNat ((n64 >>> 24) ||| 0x80), UInt8.ofNat (n64 >>> 16),
      UInt8.ofNat (n64 >>> 8), UInt8.ofNat n64]
  else
    putField buf p 8 [UInt8.ofNat ((n64 >>> 56) ||| 0xC0), UInt8.ofNat (n64 >>> 48),
      UInt8.ofNat (n64 >>> 40), UInt8.ofNat (n64 >>> 32), UInt8.ofNat (n64 >>> 24),
      UInt8.ofNat (n64 >>> 16), UInt8.ofNat (n64 >>> 8), UInt8.ofNat n64]

/-- The bytes that are written if there is room for `size` of them, and how many these are. -/
def putBytes (buf : List UInt8) (p maxBytes size : ℕ) (bytes : List UInt8) :
    Option (List UInt8 × ℕ) :=
  if size ≤ maxBytes then (writeCells buf p bytes).map (·, bytes.length) else some (buf, 0)

/-- `picoquic_varint_encode`. -/
def varintEncodeWithin (buf : List UInt8) (p maxBytes n64 : ℕ) : Option (List UInt8 × ℕ) :=
  if n64 < 16384 then
    if n64 < 64 then putBytes buf p maxBytes 1 [UInt8.ofNat n64]
    else putBytes buf p maxBytes 2 [UInt8.ofNat ((n64 >>> 8) ||| 0x40), UInt8.ofNat n64]
  else if n64 < 1073741824 then
    putBytes buf p maxBytes 4 [UInt8.ofNat ((n64 >>> 24) ||| 0x80), UInt8.ofNat (n64 >>> 16),
      UInt8.ofNat (n64 >>> 8), UInt8.ofNat n64]
  else
    putBytes buf p maxBytes 8 [UInt8.ofNat ((n64 >>> 56) ||| 0xC0), UInt8.ofNat (n64 >>> 48),
      UInt8.ofNat (n64 >>> 40), UInt8.ofNat (n64 >>> 32), UInt8.ofNat (n64 >>> 24),
      UInt8.ofNat (n64 >>> 16), UInt8.ofNat (n64 >>> 8), UInt8.ofNat n64]

/-- `picoquic_frames_length_data_encode`. -/
def framesLengthDataEncodeAt (buf : List UInt8) (p : ℕ) (v : List UInt8) :
    Option (List UInt8 × Option ℕ) :=
  match framesVarintEncodeAt buf p v.length with
  | none => none
  | some (buf, none) => some (buf, none)
  | some (buf, some p) => putField buf p v.length v

/-- `picoquic_frames_cid_encode`. -/
def framesCidEncodeAt (buf : List UInt8) (p : ℕ) (cid : ConnectionId) :
    Option (List UInt8 × Option ℕ) :=
  framesLengthDataEncodeAt buf p cid

/-! ### Reads that do not depend on what follows -/

/-- With `n` bytes given, `parse` reads inside of them and finds the same whatever follows. -/
def LocalRead {α : Type} (n : ℕ) (parse : List UInt8 → ℕ → Option α) : Prop :=
  ∀ buf p, p + n ≤ buf.length → ∃ x, ∀ ext, parse (buf ++ ext) p = some x

namespace LocalRead

variable {α β γ : Type} {m n : ℕ}

theorem cell : LocalRead 1 fun buf p => buf[p]? := by
  intro buf p h
  have hp : p < buf.length := h
  refine ⟨buf[p], fun ext => ?_⟩
  simp only [List.getElem?_append_left hp, List.getElem?_eq_getElem hp]

theorem cells (n : ℕ) : LocalRead n fun buf p => readCells buf p n := by
  intro buf p h
  refine ⟨(buf.drop p).take n, fun ext => ?_⟩
  have hlen : p + n ≤ (buf ++ ext).length := by
    rw [List.length_append]
    omega
  have hdrop : n ≤ (buf.drop p).length := by
    rw [List.length_drop]
    omega
  simp only [readCells, if_pos hlen, List.drop_append_of_le_length (show p ≤ buf.length by omega),
    List.take_append_of_le_length hdrop]

theorem bind {f : List UInt8 → ℕ → Option α} {g : α → List UInt8 → ℕ → Option β}
    (hf : LocalRead m f) (hg : ∀ x, LocalRead n (g x)) :
    LocalRead (m + n) fun buf p => (f buf p).bind fun x => g x buf (p + m) := by
  intro buf p h
  obtain ⟨x, hx⟩ := hf buf p (by omega)
  obtain ⟨y, hy⟩ := hg x buf (p + m) (by omega)
  exact ⟨y, fun ext => by simp only [hx, Option.bind_some, hy]⟩

theorem map {f : List UInt8 → ℕ → Option α} (hf : LocalRead n f) (g : α → β) :
    LocalRead n fun buf p => (f buf p).map g := by
  intro buf p h
  obtain ⟨x, hx⟩ := hf buf p h
  exact ⟨g x, fun ext => by simp only [hx, Option.map_some]⟩

end LocalRead

theorem localRead_varintLoop (n : ℕ) : ∀ v, LocalRead n (varintLoop n v) := by
  induction n with
  | zero => exact fun v buf p _ => ⟨v, fun _ => rfl⟩
  | succ n ih =>
    intro v
    have h := LocalRead.cell.bind fun b => ih (u64 (u64 (v <<< 8) + b.toNat))
    rw [Nat.add_comm 1 n] at h
    exact h

theorem localRead_varintParse {length : ℕ} (h : 0 < length) :
    LocalRead length (varintParse length) := by
  have hread := LocalRead.cell.bind fun byte : UInt8 =>
    localRead_varintLoop (length - 1) (byte.toNat &&& 0x3F)
  rw [Nat.add_sub_cancel' h] at hread
  exact hread

theorem localRead_picoparse16 : LocalRead 2 picoparse16 :=
  LocalRead.cell.bind fun _ => LocalRead.cell.map _

theorem localRead_picoparse32 : LocalRead 4 picoparse32 :=
  localRead_picoparse16.bind fun _ => localRead_picoparse16.map _

theorem localRead_picoparse64 : LocalRead 8 picoparse64 :=
  localRead_picoparse32.bind fun _ => localRead_picoparse32.map _

/-! ### Decoders that stay within the bytes given -/

/-- What is asked of a decoder at a position: no access outside, a position inside, and `NULL` for a
field that goes on in the bytes that would follow. -/
structure ReadsWithin {α : Type} (f : List UInt8 → ℕ → FieldResult α) (buf : List UInt8) (p : ℕ) :
    Prop where
  total : ∃ r, f buf p = some r
  within : ∀ x q, f buf p = some (some (x, q)) → p ≤ q ∧ q ≤ buf.length
  truncated : ∀ ext x q, f (buf ++ ext) p = some (some (x, q)) → buf.length < q →
    f buf p = some none

/-- A decoder that stays within the bytes given, and finds the same whatever follows them. -/
structure Bounded {α : Type} (f : List UInt8 → ℕ → FieldResult α) (buf : List UInt8) (p : ℕ) :
    Prop where
  total : ∃ r, f buf p = some r
  within : ∀ x q, f buf p = some (some (x, q)) → p ≤ q ∧ q ≤ buf.length
  kept : ∀ ext x q, f buf p = some (some (x, q)) → f (buf ++ ext) p = some (some (x, q))

namespace Bounded

variable {α β : Type} {buf : List UInt8} {p : ℕ} {f : List UInt8 → ℕ → FieldResult α}

theorem readsWithin (h : Bounded f buf p) : ReadsWithin f buf p where
  total := h.total
  within := h.within
  truncated ext x q hext hq := by
    obtain ⟨_ | ⟨y, r⟩, hr⟩ := h.total
    · exact hr
    · -- the position that is found stays the same
      have hkept := h.kept ext y r hr
      rw [hext] at hkept
      obtain ⟨rfl, rfl⟩ := Prod.mk.inj (Option.some.inj (Option.some.inj hkept))
      exact absurd (h.within _ _ hr).2 (Nat.not_le_of_lt hq)

theorem failure : Bounded (fun _ _ => (some none : FieldResult α)) buf p :=
  ⟨⟨none, rfl⟩, fun _ _ h => (nomatch h), fun _ _ _ h => nomatch h⟩

theorem field {size : ℕ} {parse : List UInt8 → ℕ → Option α} (h : LocalRead size parse) :
    Bounded (fixedField size parse) buf p := by
  by_cases hp : p + size ≤ buf.length
  · obtain ⟨y, hy⟩ := h buf p hp
    have hfield (ext : List UInt8) :
        fixedField size parse (buf ++ ext) p = some (some (y, p + size)) := by
      rw [fixedField, if_pos (by rw [List.length_append]; omega), hy, Option.map_some]
    have hbuf := hfield []
    rw [List.append_nil] at hbuf
    refine ⟨⟨_, hbuf⟩, fun x q hx => ?_, fun ext x q hx => ?_⟩
    · rw [hbuf] at hx
      obtain ⟨-, rfl⟩ := Prod.mk.inj (Option.some.inj (Option.some.inj hx))
      exact ⟨Nat.le_add_right p size, hp⟩
    · rw [hfield ext, ← hbuf, hx]
  · have hbuf : fixedField size parse buf p = some none := if_neg hp
    refine ⟨⟨_, hbuf⟩, fun x q hx => ?_, fun ext x q hx => ?_⟩ <;>
    · rw [hbuf] at hx
      exact nomatch hx

theorem fixedSkip (size : ℕ) (hp : p ≤ buf.length) : Bounded (framesFixedSkipAt size) buf p := by
  refine ⟨⟨_, rfl⟩, fun x q hx => ?_, fun ext x q hx => ?_⟩
  all_goals
    rw [framesFixedSkipAt] at hx
    split_ifs at hx with hsize
    · obtain ⟨-, rfl⟩ := Prod.mk.inj (Option.some.inj (Option.some.inj hx))
      first
      | exact ⟨Nat.le_add_right p size, by omega⟩
      | rw [framesFixedSkipAt, if_pos (by rw [List.length_append]; omega)]
    · exact nomatch Option.some.inj hx

/-- A decoder that looks at the first byte. -/
theorem peek {f : UInt8 → List UInt8 → ℕ → FieldResult α} (h : ∀ byte, Bounded (f byte) buf p) :
    Bounded
      (fun buf p => if p < buf.length then buf[p]?.bind fun byte => f byte buf p else some none)
      buf p := by
  by_cases hp : p < buf.length
  · have hext (ext : List UInt8) : (if p < (buf ++ ext).length then
        (buf ++ ext)[p]?.bind fun byte => f byte (buf ++ ext) p else some none) =
          f buf[p] (buf ++ ext) p := by
      rw [if_pos (by rw [List.length_append]; omega), List.getElem?_append_left hp,
        List.getElem?_eq_getElem hp, Option.bind_some]
    have hbuf := hext []
    rw [List.append_nil] at hbuf
    refine ⟨?_, fun x q hx => ?_, fun ext x q hx => ?_⟩
    · exact (h buf[p]).total.imp fun r hr => hbuf.trans hr
    · exact (h buf[p]).within x q (hbuf.symm.trans hx)
    · exact (hext ext).trans ((h buf[p]).kept ext x q (hbuf.symm.trans hx))
  · refine ⟨⟨none, if_neg hp⟩, fun x q hx => ?_, fun ext x q hx => ?_⟩ <;>
    · rw [if_neg hp] at hx
      exact nomatch hx

/-- One field after the other. -/
theorem next {g : α → List UInt8 → ℕ → FieldResult β} (hf : Bounded f buf p)
    (hg : ∀ x q, q ≤ buf.length → Bounded (g x) buf q) :
    Bounded (fun buf p => (f buf p).next fun x q => g x buf q) buf p := by
  obtain ⟨_ | ⟨x, q⟩, hr⟩ := hf.total
  · refine ⟨⟨none, by rw [hr]; rfl⟩, fun y q hy => ?_, fun ext y q hy => ?_⟩ <;>
    · rw [hr] at hy
      exact nomatch hy
  · have hq := hf.within x q hr
    have hnext := hg x q hq.2
    refine ⟨?_, fun y r hy => ?_, fun ext y r hy => ?_⟩
    · rw [hr]
      exact hnext.total
    · rw [hr] at hy
      exact (hnext.within y r hy).imp_left hq.1.trans
    · rw [hr] at hy
      rw [hf.kept ext x q hr]
      exact hnext.kept ext y r hy

theorem filter (hf : Bounded f buf p) (keep : α × ℕ → Bool) :
    Bounded (fun buf p => (f buf p).map (Option.filter keep)) buf p := by
  have hsome {r : FieldResult α} {x : α × ℕ} :
      r.map (Option.filter keep) = some (some x) ↔ r = some (some x) ∧ keep x = true := by
    simp only [Option.map_eq_some_iff, Option.filter_eq_some_iff, ↓existsAndEq, true_and]
  refine ⟨?_, fun x q hx => ?_, fun ext x q hx => ?_⟩
  · obtain ⟨r, hr⟩ := hf.total
    exact ⟨_, by rw [hr, Option.map_some]⟩
  · exact hf.within x q (hsome.mp hx).1
  · obtain ⟨hx, hkeep⟩ := hsome.mp hx
    exact hsome.mpr ⟨hf.kept ext x q hx, hkeep⟩

end Bounded

section

variable (buf : List UInt8) (p : ℕ)

theorem bounded_framesVarintSkipAt (hp : p ≤ buf.length) : Bounded framesVarintSkipAt buf p :=
  Bounded.peek fun _ => Bounded.fixedSkip _ hp

theorem bounded_framesVarintDecodeAt : Bounded framesVarintDecodeAt buf p :=
  Bounded.peek fun byte => Bounded.field (localRead_varintParse (decodeVarintLength_pos byte))

theorem bounded_framesVarlenDecodeAt : Bounded framesVarlenDecodeAt buf p :=
  (bounded_framesVarintDecodeAt buf p).filter _

theorem bounded_framesUint8DecodeAt : Bounded framesUint8DecodeAt buf p :=
  Bounded.field LocalRead.cell

theorem bounded_framesLengthDataSkipAt : Bounded framesLengthDataSkipAt buf p :=
  (bounded_framesVarintDecodeAt buf p).next fun length _ hq => Bounded.fixedSkip length hq

theorem bounded_cidBytesAt (idLen : UInt8) : Bounded (cidBytesAt idLen) buf p := by
  by_cases h : DecodeCnx.cnxIdMaxSize < idLen.toNat
  · have hcid : cidBytesAt idLen = fun _ _ => some none := by
      funext buf p
      exact if_pos h
    rw [hcid]
    exact Bounded.failure
  · have hcid : cidBytesAt idLen =
        fixedField idLen.toNat fun buf p => readCells buf p idLen.toNat := by
      funext buf p
      exact if_neg h
    rw [hcid]
    exact Bounded.field (LocalRead.cells _)

end

/-- The decoder of a connection ID stays within the bytes given if there is a byte for the length.
-/
theorem bounded_framesCidDecodeAt (idLen : UInt8) {buf : List UInt8} {p : ℕ} (hp : p < buf.length) :
    Bounded (framesCidDecodeAt idLen) buf p := by
  have hext (ext : List UInt8) : framesCidDecodeAt idLen (buf ++ ext) p =
      (framesUint8DecodeAt (buf ++ ext) p).next fun idLen q => cidBytesAt idLen (buf ++ ext) q := by
    have hbyte : framesUint8DecodeAt (buf ++ ext) p = some (some (buf[p], p + 1)) := by
      rw [framesUint8DecodeAt, if_pos (by rw [List.length_append]; omega),
        List.getElem?_append_left hp, List.getElem?_eq_getElem hp, Option.map_some]
    rw [framesCidDecodeAt, hbyte]
    rfl
  have hbuf := hext []
  rw [List.append_nil] at hbuf
  have hnext := (bounded_framesUint8DecodeAt buf p).next fun idLen q _ =>
    bounded_cidBytesAt buf q idLen
  refine ⟨?_, fun x q hx => ?_, fun ext x q hx => ?_⟩
  · exact hnext.total.imp fun r hr => hbuf.trans hr
  · exact hnext.within x q (hbuf.symm.trans hx)
  · exact (hext ext).trans (hnext.kept ext x q (hbuf.symm.trans hx))

/-- Where the bytes end before the length, it depends on what the length was before. -/
theorem readsWithin_framesCidDecodeAt (idLen : UInt8) {buf : List UInt8} {p : ℕ} :
    ReadsWithin (framesCidDecodeAt idLen) buf p ↔
      p < buf.length ∨ idLen = 0 ∨ DecodeCnx.cnxIdMaxSize < idLen.toNat := by
  by_cases hp : p < buf.length
  · exact ⟨fun _ => .inl hp, fun _ => (bounded_framesCidDecodeAt idLen hp).readsWithin⟩
  · have hnull : framesCidDecodeAt idLen buf p =
        if DecodeCnx.cnxIdMaxSize < idLen.toNat ∨ idLen = 0 then some none else none := by
      rw [framesCidDecodeAt, framesUint8DecodeAt, if_neg hp]
    constructor
    · rintro ⟨⟨r, hr⟩, -, -⟩
      rw [hnull] at hr
      split_ifs at hr with h
      exact .inr h.symm
    · rintro (h | h)
      · exact absurd h hp
      · rw [if_pos h.symm] at hnull
        refine ⟨⟨none, hnull⟩, fun x q hx => ?_, fun _ _ _ _ _ => hnull⟩
        rw [hnull] at hx
        exact nomatch hx

/-- All bytes of an encoding are there. -/
def WholeVarint (buf : List UInt8) (p : ℕ) : Prop :=
  ∃ byte, buf[p]? = some byte ∧ p + decodeVarintLength byte ≤ buf.length

/-- The skip function that has no end to compare with needs a whole encoding. -/
theorem readsWithin_varintSkipAt {buf : List UInt8} {p : ℕ} :
    ReadsWithin varintSkipAt buf p ↔ WholeVarint buf p := by
  constructor
  · rintro ⟨⟨r, hr⟩, hwithin, -⟩
    obtain ⟨byte, hbyte, rfl⟩ := Option.map_eq_some_iff.mp hr
    exact ⟨byte, hbyte, (hwithin () _ hr).2⟩
  · rintro ⟨byte, hbyte, hlen⟩
    have hskip : varintSkipAt buf p = some (some ((), p + decodeVarintLength byte)) := by
      rw [varintSkipAt, hbyte, Option.map_some]
    refine ⟨⟨_, hskip⟩, fun x q hx => ?_, fun ext x q hx hq => ?_⟩
    · rw [hskip] at hx
      obtain ⟨-, rfl⟩ := Prod.mk.inj (Option.some.inj (Option.some.inj hx))
      exact ⟨Nat.le_add_right _ _, hlen⟩
    · have hp : p < buf.length := (List.getElem?_eq_some_iff.mp hbyte).1
      rw [varintSkipAt, List.getElem?_append_left hp, hbyte, Option.map_some] at hx
      obtain ⟨-, rfl⟩ := Prod.mk.inj (Option.some.inj (Option.some.inj hx))
      exact absurd hlen (Nat.not_le_of_lt hq)

/-! ### Two decoders -/

/-- The loop takes up one byte after the other, as long as the value stays inside 64 bits. -/
theorem varintLoop_eq (buf : List UInt8) (n : ℕ) : ∀ {v p : ℕ}, p + n ≤ buf.length →
    (v + 1) * 256 ^ n ≤ 2 ^ 64 →
    varintLoop n v buf p =
      some (((buf.drop p).take n).foldl (fun v b => (v <<< 8) + b.toNat) v) := by
  induction n with
  | zero => exact fun _ _ => rfl
  | succ n ih =>
    intro v p hp hv
    have hlt : p < buf.length := by omega
    have hb := buf[p].toNat_lt
    have hstep : ((v <<< 8) + buf[p].toNat + 1) * 256 ^ n ≤ 2 ^ 64 := by
      refine le_trans ?_ hv
      rw [Nat.pow_succ', ← Nat.mul_assoc, Nat.shiftLeft_eq]
      exact Nat.mul_le_mul_right _ (by omega)
    have hpos : 0 < 256 ^ n := Nat.pow_pos (by decide)
    have hfit : (v <<< 8) + buf[p].toNat < 2 ^ 64 :=
      Nat.lt_of_succ_le (le_trans (Nat.le_mul_of_pos_right _ hpos) hstep)
    rw [varintLoop, List.getElem?_eq_getElem hlt, Option.bind_some,
      u64_of_lt (n := v <<< 8) (by omega), u64_of_lt hfit, ih (by omega) hstep,
      List.drop_eq_getElem_cons hlt, List.take_succ_cons, List.foldl_cons]

theorem varintParse_eq {buf : List UInt8} {p : ℕ} (hp : p < buf.length)
    (hlen : p + decodeVarintLength buf[p] ≤ buf.length) :
    varintParse (decodeVarintLength buf[p]) buf p =
      some (varintValue buf[p] ((buf.drop (p + 1)).take (decodeVarintLength buf[p] - 1))) := by
  have hpos := decodeVarintLength_pos buf[p]
  have hle := decodeVarintLength_le buf[p]
  have hmod : buf[p].toNat &&& 0x3F = buf[p].toNat % 64 := Nat.and_two_pow_sub_one_eq_mod _ 6
  have hfit : (buf[p].toNat % 64 + 1) * 256 ^ (decodeVarintLength buf[p] - 1) ≤ 2 ^ 64 :=
    calc (buf[p].toNat % 64 + 1) * 256 ^ (decodeVarintLength buf[p] - 1)
        ≤ 64 * 256 ^ 7 := Nat.mul_le_mul (Nat.mod_lt _ (by decide))
          (Nat.pow_le_pow_right (by decide) (by omega))
      _ ≤ 2 ^ 64 := by decide
  rw [varintParse, List.getElem?_eq_getElem hp, Option.bind_some, hmod,
    varintLoop_eq buf _ (by omega) hfit, varintValue]

/-- What a reader of the bytes from a position on finds, with the position after it. -/
def positionAfter {α : Type} (buf : List UInt8) (r : Option (α × List UInt8)) : Option (α × ℕ) :=
  r.map fun x => (x.1, buf.length - x.2.length)

/-- The first decoder reads the bytes from its position on. -/
theorem framesVarintDecodeAt_eq (buf : List UInt8) (p : ℕ) :
    framesVarintDecodeAt buf p =
      some (positionAfter buf (framesVarintDecode (buf.drop p))) := by
  by_cases hp : p < buf.length
  · have hpos := decodeVarintLength_pos buf[p]
    rw [framesVarintDecodeAt, if_pos hp, List.getElem?_eq_getElem hp, Option.bind_some,
      List.drop_eq_getElem_cons hp, framesVarintDecode, fixedField]
    by_cases hlen : p + decodeVarintLength buf[p] ≤ buf.length
    · have hfits : decodeVarintLength buf[p] ≤ (buf.drop (p + 1)).length + 1 := by
        rw [List.length_drop]
        omega
      rw [if_pos hlen, if_pos hfits, varintParse_eq hp hlen, Option.map_some, positionAfter,
        Option.map_some, List.drop_drop, List.length_drop]
      have hq : buf.length - (buf.length - (p + 1 + (decodeVarintLength buf[p] - 1))) =
          p + decodeVarintLength buf[p] := by omega
      rw [hq]
    · have hshort : ¬ decodeVarintLength buf[p] ≤ (buf.drop (p + 1)).length + 1 := by
        rw [List.length_drop]
        omega
      rw [if_neg hlen, if_neg hshort]
      rfl
  · rw [framesVarintDecodeAt, if_neg hp, List.drop_eq_nil_of_le (Nat.le_of_not_lt hp)]
    rfl

theorem lengthBits_eq (byte : UInt8) :
    1 <<< ((byte.toNat &&& 0xC0) >>> 6) = decodeVarintLength byte := by
  have hbyte := byte.toNat_lt
  have hmask : 0xC0 >>> 6 = 2 ^ 2 - 1 := rfl
  rw [decodeVarintLength, Nat.shiftRight_and_distrib, hmask, Nat.and_two_pow_sub_one_eq_mod,
    Nat.mod_eq_of_lt]
  rw [Nat.shiftRight_eq_div_pow]
  omega

/-- What the second decoder returns for a result of the first one. -/
def lengthAndValue (p : ℕ) (r : Option (ℕ × ℕ)) : ℕ × ℕ := r.elim (0, 0) fun x => (x.2 - p, x.1)

/-- The second decoder agrees with the first one. -/
theorem varintDecodeWithin_eq (buf : List UInt8) (p : ℕ) :
    varintDecodeWithin buf p (buf.length - p) =
      (framesVarintDecodeAt buf p).map (lengthAndValue p) := by
  by_cases hp : p < buf.length
  · rw [varintDecodeWithin, if_neg (by omega), framesVarintDecodeAt, if_pos hp,
      List.getElem?_eq_getElem hp, Option.bind_some, Option.bind_some, lengthBits_eq, fixedField]
    by_cases hlen : p + decodeVarintLength buf[p] ≤ buf.length
    · dsimp only
      rw [if_neg (by omega), if_pos hlen, varintParse_eq hp hlen, Option.map_some, Option.map_some,
        Option.map_some, lengthAndValue, Option.elim_some, Nat.add_sub_cancel_left]
    · dsimp only
      rw [if_pos (by omega), if_neg hlen]
      rfl
  · rw [varintDecodeWithin, if_pos (by omega), framesVarintDecodeAt, if_neg hp]
    rfl

theorem framesVarintDecodeAt_lt {buf : List UInt8} {p v q : ℕ}
    (h : framesVarintDecodeAt buf p = some (some (v, q))) : p < q := by
  rw [framesVarintDecodeAt_eq, positionAfter] at h
  obtain ⟨⟨v', rest⟩, hdecode, heq⟩ := Option.map_eq_some_iff.mp (Option.some.inj h)
  obtain ⟨-, rfl⟩ := Prod.mk.inj heq
  have hlt := (varintDecode_eq hdecode).2.2
  rw [List.length_drop] at hlt
  dsimp only
  omega

/-- The second decoder, with its length turned into a position. -/
def varintDecodeField (buf : List UInt8) (p : ℕ) : FieldResult ℕ :=
  (varintDecodeWithin buf p (buf.length - p)).map fun x =>
    if x.1 = 0 then none else some (x.2, p + x.1)

theorem varintDecodeField_eq : varintDecodeField = framesVarintDecodeAt := by
  funext buf p
  obtain ⟨_ | ⟨v, q⟩, hr⟩ := (bounded_framesVarintDecodeAt buf p).total
  · rw [varintDecodeField, varintDecodeWithin_eq, hr]
    rfl
  · have hlt := framesVarintDecodeAt_lt hr
    rw [varintDecodeField, varintDecodeWithin_eq, hr, Option.map_some, Option.map_some,
      lengthAndValue, Option.elim_some, if_neg (by omega), Nat.add_sub_cancel' hlt.le]

/-- The skip function accepts what the decoder accepts. -/
theorem framesVarintSkipAt_eq (buf : List UInt8) (p : ℕ) :
    framesVarintSkipAt buf p =
      (framesVarintDecodeAt buf p).map (Option.map fun x => ((), x.2)) := by
  by_cases hp : p < buf.length
  · rw [framesVarintSkipAt, if_pos hp, framesVarintDecodeAt, if_pos hp, List.getElem?_eq_getElem hp,
      Option.bind_some, Option.bind_some, framesFixedSkipAt, fixedField]
    by_cases hlen : p + decodeVarintLength buf[p] ≤ buf.length
    · rw [if_pos (by omega), if_pos hlen, varintParse_eq hp hlen]
      rfl
    · rw [if_neg (by omega), if_neg hlen]
      rfl
  · rw [framesVarintSkipAt, if_neg hp, framesVarintDecodeAt, if_neg hp]
    rfl

/-- The other one finds the same end. -/
theorem varintSkipAt_of_decode {buf : List UInt8} {p v q : ℕ}
    (h : framesVarintDecodeAt buf p = some (some (v, q))) :
    varintSkipAt buf p = some (some ((), q)) := by
  have hskip := framesVarintSkipAt_eq buf p
  rw [h, framesVarintSkipAt] at hskip
  have hp : p < buf.length := by
    by_contra hp
    rw [if_neg hp] at hskip
    exact nomatch Option.some.inj hskip
  rw [if_pos hp] at hskip
  rw [List.getElem?_eq_getElem hp, Option.bind_some, framesFixedSkipAt] at hskip
  rw [varintSkipAt, List.getElem?_eq_getElem hp, Option.map_some]
  split_ifs at hskip
  · exact hskip
  · exact nomatch Option.some.inj hskip

/-! ### Two encoders -/

theorem putField_eq {buf bytes : List UInt8} {size : ℕ} (p : ℕ) (h : bytes.length = size) :
    putField buf p size bytes =
      some (if p + size ≤ buf.length then
        (buf.take p ++ (bytes ++ buf.drop (p + size)), some (p + size))
        else (buf, none)) := by
  subst h
  by_cases hp : p + bytes.length ≤ buf.length
  · rw [putField, if_pos hp, if_pos hp, writeCells, if_pos hp, Option.map_some]
  · rw [putField, if_neg hp, if_neg hp]

/-- The first encoder writes the bytes of the value. -/
theorem framesVarintEncodeAt_eq (buf : List UInt8) (p n64 : ℕ) :
    framesVarintEncodeAt buf p n64 = putField buf p (encodeVarintLength n64) (varintBytes n64) := by
  rw [framesVarintEncodeAt, varintBytes, encodeVarintLength]
  split_ifs <;> rfl

/-- So does the second one. -/
theorem varintEncodeWithin_eq (buf : List UInt8) (p maxBytes n64 : ℕ) :
    varintEncodeWithin buf p maxBytes n64 =
      putBytes buf p maxBytes (encodeVarintLength n64) (varintBytes n64) := by
  rw [varintEncodeWithin, varintBytes, encodeVarintLength]
  split_ifs <;> rfl

/-- What the second encoder returns for a result of the first one. -/
def bytesAndLength (p : ℕ) (r : List UInt8 × Option ℕ) : List UInt8 × ℕ := (r.1, r.2.elim 0 (· - p))

theorem putBytes_eq {buf bytes : List UInt8} {p size : ℕ} (h : bytes.length = size)
    (hp : p ≤ buf.length) :
    putBytes buf p (buf.length - p) size bytes =
      (putField buf p size bytes).map (bytesAndLength p) := by
  subst h
  by_cases hlen : p + bytes.length ≤ buf.length
  · rw [putBytes, if_pos (by omega), putField, if_pos hlen, writeCells, if_pos hlen,
      Option.map_some, Option.map_some, Option.map_some, bytesAndLength, Option.elim_some,
      Nat.add_sub_cancel_left]
  · have hsize : ¬ bytes.length ≤ buf.length - p := by omega
    rw [putBytes, if_neg hsize, putField, if_neg hlen]
    rfl

/-! ### Decoding what was encoded -/

/-- What is written up to a position `q` inside the buffer is read back, and nothing is written
outside. -/
def Undone {α : Type} (encode : Option (List UInt8 × Option ℕ))
    (decode : List UInt8 → FieldResult α) (buf : List UInt8) (x : α) (q : ℕ) : Prop :=
  ∃ buf', encode = some (buf', if q ≤ buf.length then some q else none) ∧
    (q ≤ buf.length → decode buf' = some (some (x, q)))

theorem drop_field {buf bytes : List UInt8} {p : ℕ} (hp : p ≤ buf.length) (rest : List UInt8) :
    (buf.take p ++ (bytes ++ rest)).drop p = bytes ++ rest := by
  rw [List.drop_left' (by rw [List.length_take, Nat.min_eq_left hp])]

theorem length_field {buf bytes : List UInt8} {p : ℕ} (h : p + bytes.length ≤ buf.length) :
    (buf.take p ++ (bytes ++ buf.drop (p + bytes.length))).length -
      (buf.drop (p + bytes.length)).length = p + bytes.length := by
  rw [List.length_append, List.length_append, List.length_take, List.length_drop]
  omega

theorem varint_undone {n64 : ℕ} (hn : n64 < 2 ^ 62) (buf : List UInt8) (p : ℕ) :
    Undone (framesVarintEncodeAt buf p n64) (framesVarintDecodeAt · p) buf n64
      (p + encodeVarintLength n64) := by
  rw [framesVarintEncodeAt_eq, putField_eq p (varintBytes_length n64)]
  by_cases hq : p + encodeVarintLength n64 ≤ buf.length
  · rw [if_pos hq, ← varintBytes_length n64] at *
    refine ⟨_, by rw [if_pos hq], fun _ => ?_⟩
    dsimp only
    rw [framesVarintDecodeAt_eq, drop_field (Nat.le_of_add_right_le hq),
      framesVarintDecode_varintBytes, Nat.mod_eq_of_lt hn, positionAfter, Option.map_some,
      length_field hq]
  · rw [if_neg hq]
    exact ⟨buf, by rw [if_neg hq], fun h => absurd h hq⟩

/-- Where there is a byte, the decoder of a connection ID reads the bytes from its position on. -/
theorem framesCidDecodeAt_eq (idLen : UInt8) {buf : List UInt8} {p : ℕ} (hp : p < buf.length) :
    framesCidDecodeAt idLen buf p =
      (framesCidDecode idLen.toNat (buf.drop p)).map (positionAfter buf) := by
  rw [framesCidDecodeAt, framesUint8DecodeAt, if_pos hp, List.getElem?_eq_getElem hp,
    Option.map_some, List.drop_eq_getElem_cons hp, framesCidDecode, framesUint8Decode]
  dsimp only
  rw [cidBytesAt, fixedField, readCells]
  by_cases hmax : DecodeCnx.cnxIdMaxSize < buf[p].toNat
  · rw [if_pos hmax, if_pos (.inl hmax)]
    rfl
  · by_cases hlen : p + 1 + buf[p].toNat ≤ buf.length
    · have hfits : ¬ (DecodeCnx.cnxIdMaxSize < buf[p].toNat ∨
          (buf.drop (p + 1)).length < buf[p].toNat) := by
        rw [List.length_drop]
        omega
      have hq : buf.length - (buf.length - (p + 1 + buf[p].toNat)) = p + 1 + buf[p].toNat := by
        omega
      rw [if_neg hmax, if_pos hlen, if_pos hlen, if_neg hfits, Option.map_some, Option.map_some,
        positionAfter, Option.map_some, List.drop_drop, List.length_drop, hq]
    · rw [if_neg hmax, if_neg hlen, if_pos (.inr (by rw [List.length_drop]; omega))]
      rfl

theorem cid_undone (cid : Cnxid) (idLen : UInt8) (buf : List UInt8) (p : ℕ) :
    Undone (framesCidEncodeAt buf p cid.1) (framesCidDecodeAt idLen · p) buf cid.1
      (p + 1 + cid.1.length) := by
  have hone : (varintBytes cid.1.length).length = 1 := by
    rw [varintBytes_length, encodeVarintLength_cnxid]
  rw [framesCidEncodeAt, framesLengthDataEncodeAt, framesVarintEncodeAt_eq,
    encodeVarintLength_cnxid, putField_eq p hone]
  by_cases hp : p + 1 ≤ buf.length
  · rw [if_pos hp]
    dsimp only
    set buf₁ := buf.take p ++ (varintBytes cid.1.length ++ buf.drop (p + 1)) with hbuf₁
    have htake : (buf.take p ++ varintBytes cid.1.length).length = p + 1 := by
      rw [List.length_append, List.length_take, hone]
      omega
    have hlen : buf₁.length = buf.length := by
      rw [hbuf₁, ← List.append_assoc, List.length_append, htake, List.length_drop]
      omega
    rw [putField_eq (p + 1) rfl, hlen]
    by_cases hq : p + 1 + cid.1.length ≤ buf.length
    · refine ⟨_, by rw [if_pos hq, if_pos hq], fun _ => ?_⟩
      have hbuf₂ : buf₁.take (p + 1) = buf.take p ++ varintBytes cid.1.length := by
        rw [hbuf₁, ← List.append_assoc, List.take_left' htake]
      dsimp only
      rw [hbuf₂, List.append_assoc, framesCidDecodeAt_eq, drop_field (by omega),
        framesCidDecode_append, Option.map_some, positionAfter, Option.map_some]
      · have hend : (buf.take p ++ (varintBytes cid.1.length ++ (cid.1 ++
            buf₁.drop (p + 1 + cid.1.length)))).length -
              (buf₁.drop (p + 1 + cid.1.length)).length = p + 1 + cid.1.length := by
          rw [← List.append_assoc, List.length_append, htake, List.length_append]
          omega
        rw [hend]
      · rw [← List.append_assoc, List.length_append, htake]
        omega
    · exact ⟨buf₁, by rw [if_neg hq, if_neg hq], fun h => absurd h hq⟩
  · have hq : ¬ p + 1 + cid.1.length ≤ buf.length := by omega
    rw [if_neg hp]
    exact ⟨buf, by rw [if_neg hq], fun h => absurd h hq⟩

/-! ### The codecs together -/

/-- The decoders. That of a connection ID overwrites a length, which is `idLen` before. -/
inductive FieldDecoder
  | framesFixedSkip (size : ℕ)
  | framesVarintSkip
  | framesVarintDecode
  | framesVarlenDecode
  | framesUint8Decode
  | framesUint16Decode
  | framesUint32Decode
  | framesUint64Decode
  | framesLengthDataSkip
  | framesCidDecode (idLen : UInt8)
  | varintDecode
  | varintSkip

namespace FieldDecoder

/-- What is asked of each decoder. -/
def Reads (buf : List UInt8) (p : ℕ) : FieldDecoder → Prop
  | framesFixedSkip size => ReadsWithin (framesFixedSkipAt size) buf p
  | framesVarintSkip => ReadsWithin framesVarintSkipAt buf p
  | framesVarintDecode => ReadsWithin framesVarintDecodeAt buf p
  | framesVarlenDecode => ReadsWithin framesVarlenDecodeAt buf p
  | framesUint8Decode => ReadsWithin framesUint8DecodeAt buf p
  | framesUint16Decode => ReadsWithin framesUint16DecodeAt buf p
  | framesUint32Decode => ReadsWithin framesUint32DecodeAt buf p
  | framesUint64Decode => ReadsWithin framesUint64DecodeAt buf p
  | framesLengthDataSkip => ReadsWithin framesLengthDataSkipAt buf p
  | framesCidDecode idLen => ReadsWithin (framesCidDecodeAt idLen) buf p
  | varintDecode => ReadsWithin varintDecodeField buf p
  | varintSkip => ReadsWithin varintSkipAt buf p

/-- The inputs on which a decoder does that: all, but for the two that do not compare with the end.
-/
def Guarded (buf : List UInt8) (p : ℕ) : FieldDecoder → Prop
  | framesCidDecode idLen =>
    p < buf.length ∨ idLen = 0 ∨ DecodeCnx.cnxIdMaxSize < idLen.toNat
  | varintSkip => WholeVarint buf p
  | _ => True

theorem reads_iff {buf : List UInt8} {p : ℕ} (hp : p ≤ buf.length) (d : FieldDecoder) :
    d.Reads buf p ↔ d.Guarded buf p :=
  match d with
  | framesFixedSkip size => iff_true_intro (Bounded.fixedSkip size hp).readsWithin
  | framesVarintSkip => iff_true_intro (bounded_framesVarintSkipAt buf p hp).readsWithin
  | framesVarintDecode => iff_true_intro (bounded_framesVarintDecodeAt buf p).readsWithin
  | framesVarlenDecode => iff_true_intro (bounded_framesVarlenDecodeAt buf p).readsWithin
  | framesUint8Decode => iff_true_intro (bounded_framesUint8DecodeAt buf p).readsWithin
  | framesUint16Decode => iff_true_intro (Bounded.field localRead_picoparse16).readsWithin
  | framesUint32Decode => iff_true_intro (Bounded.field localRead_picoparse32).readsWithin
  | framesUint64Decode => iff_true_intro (Bounded.field localRead_picoparse64).readsWithin
  | framesLengthDataSkip => iff_true_intro (bounded_framesLengthDataSkipAt buf p).readsWithin
  | framesCidDecode idLen => readsWithin_framesCidDecodeAt idLen
  | varintDecode =>
    iff_true_intro (varintDecodeField_eq ▸ bounded_framesVarintDecodeAt buf p).readsWithin
  | varintSkip => readsWithin_varintSkipAt

end FieldDecoder

/-- The codecs on a value, a connection ID and a position of a buffer: the two encoders write the
same bytes, the two decoders and the skip functions find the same, what is written is read back, and
a decoder reads within the bytes given. -/
structure FieldCodecsLaw (n64 : ℕ) (cid : Cnxid) (d : FieldDecoder) (buf : List UInt8) (p : ℕ) :
    Prop where
  encoders : ∃ r, framesVarintEncodeAt buf p n64 = some r ∧
    varintEncodeWithin buf p (buf.length - p) n64 = some (bytesAndLength p r)
  decoders : ∃ r, framesVarintDecodeAt buf p = some r ∧
    varintDecodeWithin buf p (buf.length - p) = some (lengthAndValue p r) ∧
    framesVarintSkipAt buf p = some (r.map fun x => ((), x.2)) ∧
    ∀ v q, r = some (v, q) → varintSkipAt buf p = some (some ((), q))
  varint : Undone (framesVarintEncodeAt buf p n64) (framesVarintDecodeAt · p) buf n64
    (p + encodeVarintLength n64)
  cnxid : ∀ idLen, Undone (framesCidEncodeAt buf p cid.1) (framesCidDecodeAt idLen · p) buf cid.1
    (p + 1 + cid.1.length)
  reads : d.Reads buf p

/-- **Field codecs.** The codecs agree and undo each other. Every decoder reads within the bytes
given and fails on a field that is truncated, on every input, but for that of a connection ID, which
needs a byte for the length, or a length that was `0` or more than 20 before, and
`picoquic_varint_skip`, which needs a whole integer. -/
theorem fieldCodecsLaw_iff {n64 : ℕ} (hn : n64 < 2 ^ 62) (cid : Cnxid) (d : FieldDecoder)
    {buf : List UInt8} {p : ℕ} (hp : p ≤ buf.length) :
    FieldCodecsLaw n64 cid d buf p ↔ d.Guarded buf p := by
  refine ⟨fun h => (d.reads_iff hp).mp h.reads, fun hd => ?_⟩
  obtain ⟨r, hr⟩ := (bounded_framesVarintDecodeAt buf p).total
  refine ⟨?_, ⟨r, hr, ?_, ?_, ?_⟩, varint_undone hn buf p, fun idLen => cid_undone cid idLen buf p,
    (d.reads_iff hp).mpr hd⟩
  · rw [framesVarintEncodeAt_eq, varintEncodeWithin_eq, putBytes_eq (varintBytes_length n64) hp,
      putField_eq p (varintBytes_length n64)]
    exact ⟨_, rfl, rfl⟩
  · rw [varintDecodeWithin_eq, hr, Option.map_some]
  · rw [framesVarintSkipAt_eq, hr, Option.map_some]
  · rintro v q rfl
    exact varintSkipAt_of_decode hr

theorem fieldCodecsLaw_iff_sample :
    FieldCodecsLaw 16384 ⟨[1, 2, 3], by decide⟩ (.framesCidDecode 8) [3, 1, 2, 3, 0x40] 4 :=
  (fieldCodecsLaw_iff (by decide) ⟨[1, 2, 3], by decide⟩ (.framesCidDecode 8) (by decide)).mpr
    (.inl (by decide))

/-- **A copy from `NULL`.** At the end of the bytes, the decoder of a connection ID goes on with the
length that was there before; the skip function reads behind the end. -/
theorem cid_decode_empty_remainder :
    framesCidDecodeAt 8 [] 0 = none ∧ varintSkipAt [] 0 = none ∧
      ¬ FieldCodecsLaw 0 ⟨[], by decide⟩ (.framesCidDecode 8) [] 0 := by
  refine ⟨rfl, rfl, fun h => ?_⟩
  obtain ⟨r, hr⟩ := h.reads.total
  exact nomatch hr

end Picoquic
