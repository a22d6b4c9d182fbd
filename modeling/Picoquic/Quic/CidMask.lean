import Mathlib.Data.List.OfFn
import Picoquic.ForMathlib.CheckedArray

/-!
# Connection IDs encrypted under a mask

The bits of a connection ID that a mask selects stay in clear. From them a stream cipher makes the
bits that the others are combined with, so that the same computation takes them off again. The
computation uses two working arrays of 18 bytes, and a connection ID has up to 20.

* **`cidEncryptUnderMask`**, **`cidDecryptUnderMask`** — the two directions, with every access to a
  working array checked;
* **`cidEncryptUnderMask_of_le`** — what comes out if all accesses are inside;
* **`undoneUnderMask_iff`** — exactly which connection IDs are encrypted and decrypted again.

The cipher is a parameter: the byte that each position of the text is combined with, as a function
of the initialization vector.
-/

namespace Picoquic

/-! ### Data -/

/-- `picoquic_connection_id_t`: `PICOQUIC_CONNECTION_ID_MAX_SIZE` bytes, of which the first `id_len`
are in use. -/
structure CnxidArray where
  id : Fin 20 → UInt8
  idLen : Fin 21

/-- The size of the arrays `unmasked` and `val`. -/
def maskWorkSize : ℕ := 18

/-- The size of the initialization vector: `iv_size` of AES in counter mode. -/
def cidIvSize : ℕ := 16

/-- A stream cipher under its key: `ptls_cipher_init` with an initialization vector, and then
`ptls_cipher_encrypt`, which combines the text with these bytes. -/
abbrev CidCipher : Type := List UInt8 → ℕ → UInt8

/-! ### The two directions -/

/-- The bits that stay in clear, in the bytes that are in use. -/
def randomBits (cid mask : CnxidArray) : List UInt8 :=
  (List.ofFn fun i => cid.id i &&& mask.id i).take cid.idLen

/-- `picoquic_cid_encrypt_under_mask`, unless it goes outside of a working array. The bytes of
`cidOut` that are not written keep their values. -/
def cidEncryptUnderMask (cidEnc : CidCipher) (cidIn mask cidOut : CnxidArray) :
    Option CnxidArray := do
  let unmasked ← writeCells (List.replicate maskWorkSize 0) 0 (randomBits cidIn mask)
  let iv ← readCells unmasked 0 cidIvSize
  let val : List UInt8 := List.replicate maskWorkSize 0
  let text ← readCells val 0 cidIn.idLen
  let val ← writeCells val 0 (text.mapIdx fun i b => b ^^^ cidEnc iv i)
  let stream ← readCells val 0 cidIn.idLen
  return {
    id := fun i =>
      if (i : ℕ) < cidIn.idLen then cidIn.id i ^^^ (stream.getD i 0 &&& ~~~mask.id i)
      else if (i : ℕ) < maskWorkSize then 0
      else cidOut.id i
    idLen := cidIn.idLen }

/-- `picoquic_cid_decrypt_under_mask`. -/
def cidDecryptUnderMask (cidEnc : CidCipher) (cidIn mask cidOut : CnxidArray) :
    Option CnxidArray :=
  cidEncryptUnderMask cidEnc cidIn mask cidOut

/-- The two directions undo each other, and the bits under the mask stay as they are. -/
def UndoneUnderMask (cidEnc : CidCipher) (cid mask : CnxidArray) : Prop :=
  ∀ out, ∃ enc, cidEncryptUnderMask cidEnc cid mask out = some enc ∧ enc.idLen = cid.idLen ∧
    (∀ i : Fin 20, (i : ℕ) < cid.idLen → enc.id i &&& mask.id i = cid.id i &&& mask.id i) ∧
    ∀ out', ∃ dec, cidDecryptUnderMask cidEnc enc mask out' = some dec ∧
      dec.idLen = cid.idLen ∧ ∀ i : Fin 20, (i : ℕ) < cid.idLen → dec.id i = cid.id i

/-! ### What comes out -/

section Masks

variable (x k m : UInt8)

theorem xor_and_not_and : (x ^^^ (k &&& ~~~m)) &&& m = x &&& m := by
  refine UInt8.toBitVec_inj.mp (BitVec.eq_of_getLsbD_eq fun i hi => ?_)
  simp only [UInt8.toBitVec_and, UInt8.toBitVec_xor, UInt8.toBitVec_not, BitVec.getLsbD_and,
    BitVec.getLsbD_xor, BitVec.getLsbD_not]
  cases m.toBitVec.getLsbD i <;> simp

end Masks

variable (cidEnc : CidCipher) (cid mask out : CnxidArray)

@[simp]
theorem randomBits_length : (randomBits cid mask).length = cid.idLen := by
  rw [randomBits, List.length_take, List.length_ofFn, Nat.min_eq_left (by omega)]

/-- The initialization vector: the bits in clear, with zeros behind them. -/
def maskIv : List UInt8 :=
  (randomBits cid mask ++ List.replicate (maskWorkSize - cid.idLen) 0).take cidIvSize

/-- What is left if no access goes outside: a connection ID that is combined with the stream,
outside of the mask. -/
def maskedCnxid : CnxidArray where
  id := fun i =>
    if (i : ℕ) < cid.idLen then cid.id i ^^^ (cidEnc (maskIv cid mask) i &&& ~~~mask.id i)
    else if (i : ℕ) < maskWorkSize then 0
    else out.id i
  idLen := cid.idLen

theorem maskedCnxid_id {i : Fin 20} (hi : (i : ℕ) < cid.idLen) :
    (maskedCnxid cidEnc cid mask out).id i =
      cid.id i ^^^ (cidEnc (maskIv cid mask) i &&& ~~~mask.id i) := if_pos hi

theorem getD_mapIdx_replicate (stream : ℕ → UInt8) {n i : ℕ} (h : i < n) :
    ((List.replicate n (0 : UInt8)).mapIdx fun i b => b ^^^ stream i).getD i 0 = stream i := by
  simp [List.getD_eq_getElem?_getD, h]

/-- For a connection ID that fits the working arrays, that is what the computation leaves. -/
theorem cidEncryptUnderMask_of_le (h : (cid.idLen : ℕ) ≤ maskWorkSize) :
    cidEncryptUnderMask cidEnc cid mask out = some (maskedCnxid cidEnc cid mask out) := by
  have hbits : (randomBits cid mask).length ≤ (List.replicate maskWorkSize (0 : UInt8)).length := by
    simpa using h
  have hiv : readCells (randomBits cid mask ++ List.replicate (maskWorkSize - cid.idLen) 0) 0
      cidIvSize = some (maskIv cid mask) := readCells_zero (by
    simp only [List.length_append, randomBits_length, List.length_replicate, maskWorkSize,
      cidIvSize]
    omega)
  have htext : readCells (List.replicate maskWorkSize (0 : UInt8)) 0 cid.idLen =
      some (List.replicate cid.idLen 0) := by
    rw [readCells_zero (by simpa using h), List.take_replicate, Nat.min_eq_left h]
  set stream := (List.replicate (cid.idLen : ℕ) (0 : UInt8)).mapIdx
    fun i b => b ^^^ cidEnc (maskIv cid mask) i with hstream
  have hlen : stream.length = cid.idLen := by
    rw [hstream, List.length_mapIdx, List.length_replicate]
  have hval : writeCells (List.replicate maskWorkSize (0 : UInt8)) 0 stream =
      some (stream ++ (List.replicate maskWorkSize 0).drop cid.idLen) := by
    rw [writeCells_zero (by simpa [hlen] using h), hlen]
  have hread : readCells (stream ++ (List.replicate maskWorkSize 0).drop cid.idLen) 0 cid.idLen =
      some stream := by
    rw [readCells_zero (by simp [hlen]), List.take_left' hlen]
  simp only [cidEncryptUnderMask, Option.bind_eq_bind, Option.pure_def]
  rw [writeCells_zero hbits, Option.bind_some, randomBits_length, List.drop_replicate, hiv,
    Option.bind_some, htext, Option.bind_some, ← hstream, hval, Option.bind_some, hread,
    Option.bind_some]
  refine congrArg some (congrArg (CnxidArray.mk · cid.idLen) (funext fun i => ?_))
  split_ifs with hi
  · rw [hstream, getD_mapIdx_replicate _ hi]
  · rfl
  · rfl

theorem cidEncryptUnderMask_of_lt (h : maskWorkSize < (cid.idLen : ℕ)) :
    cidEncryptUnderMask cidEnc cid mask out = none := by
  have hwrite : writeCells (List.replicate maskWorkSize 0) 0 (randomBits cid mask) = none := by
    rw [writeCells, if_neg (by simpa using h)]
  rw [cidEncryptUnderMask, hwrite]
  rfl

/-- The initialization vector depends on the bits in clear only. -/
theorem maskIv_congr {cid cid' mask : CnxidArray} (hlen : cid'.idLen = cid.idLen)
    (h : ∀ i : Fin 20, (i : ℕ) < cid.idLen → cid'.id i &&& mask.id i = cid.id i &&& mask.id i) :
    maskIv cid' mask = maskIv cid mask := by
  have hbits : randomBits cid' mask = randomBits cid mask := by
    refine List.ext_getElem (by simp [hlen]) fun i hi _ => ?_
    have hi' : i < (cid.idLen : ℕ) := by simpa [hlen] using hi
    simp only [randomBits, List.getElem_take, List.getElem_ofFn]
    exact h ⟨i, by omega⟩ hi'
  rw [maskIv, hbits, hlen, maskIv]

/-- **Encryption under a mask.** A connection ID is encrypted and decrypted again, with its length
and the bits under the mask unchanged and all accesses inside the working arrays, exactly if it has
at most 18 bytes. -/
theorem undoneUnderMask_iff : UndoneUnderMask cidEnc cid mask ↔ (cid.idLen : ℕ) ≤ maskWorkSize := by
  constructor
  · intro h
    by_contra hlt
    obtain ⟨enc, henc, -⟩ := h cid
    rw [cidEncryptUnderMask_of_lt cidEnc cid mask cid (Nat.lt_of_not_le hlt)] at henc
    exact nomatch henc
  · intro h out
    have hclear : ∀ i : Fin 20, (i : ℕ) < cid.idLen →
        (maskedCnxid cidEnc cid mask out).id i &&& mask.id i = cid.id i &&& mask.id i := by
      intro i hi
      rw [maskedCnxid_id cidEnc cid mask out hi, xor_and_not_and]
    refine ⟨_, cidEncryptUnderMask_of_le cidEnc cid mask out h, rfl, hclear, fun out' => ?_⟩
    refine ⟨_, cidEncryptUnderMask_of_le cidEnc _ mask out' h, rfl, fun i hi => ?_⟩
    -- both directions are fed by the same bits
    have hiv : maskIv (maskedCnxid cidEnc cid mask out) mask = maskIv cid mask :=
      maskIv_congr rfl hclear
    have htwice := maskedCnxid_id cidEnc (maskedCnxid cidEnc cid mask out) mask out' hi
    rw [htwice, hiv, maskedCnxid_id cidEnc cid mask out hi, UInt8.xor_assoc, UInt8.xor_self,
      UInt8.xor_zero]

/-- **Out of the working arrays.** A connection ID of 19 bytes is not encrypted. -/
theorem cid_beyond_working_arrays :
    let cid : CnxidArray := ⟨fun i => UInt8.ofNat i, ⟨19, by decide⟩⟩
    let mask : CnxidArray := ⟨fun _ => 0xF0, ⟨19, by decide⟩⟩
    let cidEnc : CidCipher := fun _ i => UInt8.ofNat (i + 1)
    cidEncryptUnderMask cidEnc cid mask cid = none ∧ ¬ UndoneUnderMask cidEnc cid mask := by
  intro cid mask cidEnc
  have hnone : cidEncryptUnderMask cidEnc cid mask cid = none :=
    cidEncryptUnderMask_of_lt cidEnc cid mask cid (Nat.lt_add_one 18)
  refine ⟨hnone, fun h => ?_⟩
  obtain ⟨enc, henc, -⟩ := h cid
  exact nomatch hnone.symm.trans henc

end Picoquic
