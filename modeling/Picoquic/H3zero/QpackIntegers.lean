import Mathlib.Algebra.GroupWithZero.Nat
import Picoquic.H3zero.Qpack

/-!
# Integers with a prefix

An integer is decoded from the bytes that it is encoded as.

* **`qpackIntDecodeLoop_encodeLoop`** — the groups of seven bits after the first byte;
* **`qpackIntDecode_encode`** — the whole integer, when the first byte has no bits in the prefix;
* **`qpackIntEncode_keeps`** — the bits of the first byte above the prefix stay;
* **`qpackIntEncode_isSome`** — ten bytes are enough for an integer of 62 bits.
-/

namespace Picoquic

namespace H3zero

variable {space val n v : ℕ} {first mask : UInt8} {out rest : List UInt8}

/-- The mask of a prefix of `bits` bits. -/
def prefixMask (bits : ℕ) : UInt8 := UInt8.ofNat (2 ^ bits - 1)

variable {bits : ℕ}

theorem toNat_prefixMask (h : bits ≤ 8) : (prefixMask bits).toNat = 2 ^ bits - 1 := by
  have hpow : 2 ^ bits ≤ 2 ^ 8 := Nat.pow_le_pow_right (by decide) h
  rw [prefixMask, UInt8.toNat_ofNat', Nat.mod_eq_of_lt]
  omega

theorem group_bits :
    ∀ m < 128, ((0x80 ||| UInt8.ofNat m) &&& 0x7F).toNat = m ∧
      (0x80 ||| UInt8.ofNat m) &&& 0x80 ≠ 0 := by
  decide +kernel

theorem last_group_bits :
    ∀ m < 128, (UInt8.ofNat m &&& 0x7F).toNat = m ∧ UInt8.ofNat m &&& 0x80 = 0 := by
  decide +kernel

theorem or_shiftLeft (h : v < 2 ^ n) (m : ℕ) : v ||| m <<< n = v + m * 2 ^ n := by
  rw [Nat.or_comm, ← Nat.shiftLeft_add_eq_or_of_lt h, Nat.shiftLeft_eq, Nat.add_comm]

/-- **The groups after the first byte**, of which there are at most `n`, are read as they were
written. There is an end to what is read: the tenth group is not. -/
theorem qpackIntDecodeLoop_encodeLoop (hout : qpackIntEncodeLoop space val = some out)
    (hn : n < 9) (hval : val < 128 ^ (9 - n)) (hv : v < 2 ^ (7 * n)) :
    qpackIntDecodeLoop (out ++ rest) (7 * n) v = some (rest, v + val * 2 ^ (7 * n)) := by
  induction space generalizing val n v out with
  | zero => cases hout
  | succ space ih =>
    rw [qpackIntEncodeLoop] at hout
    split at hout
    · rename_i hge
      obtain ⟨out, htail, rfl⟩ := Option.map_eq_some_iff.mp hout
      obtain ⟨hlow, hmore⟩ := group_bits (val % 0x80) (Nat.mod_lt _ (by decide))
      -- The value has a second group, so this one is not the last that is read.
      have hn8 : n < 8 := by
        by_contra hge8
        obtain rfl : n = 8 := by omega
        simp at hval
        omega
      have hnext : val / 0x80 < 128 ^ (9 - (n + 1)) := by
        refine Nat.div_lt_of_lt_mul ?_
        rw [← Nat.pow_succ', show (9 - (n + 1)).succ = 9 - n by omega]
        exact hval
      have hbound : v + val % 0x80 * 2 ^ (7 * n) < 2 ^ (7 * (n + 1)) := by
        have hpow : 2 ^ (7 * (n + 1)) = 128 * 2 ^ (7 * n) := by
          rw [Nat.mul_succ, Nat.pow_add, Nat.mul_comm]
        have hle : val % 0x80 * 2 ^ (7 * n) ≤ 127 * 2 ^ (7 * n) := Nat.mul_le_mul_right _ (by omega)
        omega
      have hsum : v + val % 0x80 * 2 ^ (7 * n) + val / 0x80 * 2 ^ (7 * (n + 1)) =
          v + val * 2 ^ (7 * n) := by
        have hdiv := Nat.mod_add_div val 0x80
        rw [Nat.mul_succ, Nat.pow_add, Nat.add_assoc]
        congr 1
        calc val % 0x80 * 2 ^ (7 * n) + val / 0x80 * (2 ^ (7 * n) * 2 ^ 7)
            = (val % 0x80 + 0x80 * (val / 0x80)) * 2 ^ (7 * n) := by
              rw [Nat.add_mul]
              congr 1
              rw [Nat.mul_comm (2 ^ (7 * n)), ← Nat.mul_assoc, Nat.mul_comm 0x80]
              rfl
          _ = val * 2 ^ (7 * n) := by rw [hdiv]
      rw [List.cons_append, qpackIntDecodeLoop, if_neg (by omega)]
      dsimp only
      rw [if_neg hmore, hlow, or_shiftLeft hv, ← Nat.mul_succ,
        ih htail (by omega) hnext hbound, hsum]
    · rename_i hlt
      obtain rfl := Option.some.inj hout
      obtain ⟨hlow, hlast⟩ := last_group_bits val (by omega)
      rw [List.cons_append, qpackIntDecodeLoop, if_neg (by omega)]
      dsimp only
      rw [if_pos hlast, hlow, or_shiftLeft hv]
      rfl

/-! ### The first byte -/

theorem or_and_distrib (a b c : UInt8) : (a ||| b) &&& c = a &&& c ||| b &&& c := by
  refine UInt8.toNat_inj.mp ?_
  simp only [UInt8.toNat_and, UInt8.toNat_or]
  exact Nat.and_or_distrib_right ..

theorem and_not_of_and_eq_zero (h : first &&& mask = 0) : first &&& ~~~mask = first := by
  have hall : (mask ||| ~~~mask) &&& first = first := by
    rw [UInt8.or_not_self, UInt8.neg_one_and]
  rwa [or_and_distrib, UInt8.and_comm mask, h, UInt8.zero_or, UInt8.and_comm] at hall

theorem ofNat_and_prefixMask (hbits : bits ≤ 8) (h : val < 2 ^ bits) :
    UInt8.ofNat val &&& prefixMask bits = UInt8.ofNat val := by
  have hpow : 2 ^ bits ≤ 2 ^ 8 := Nat.pow_le_pow_right (by decide) hbits
  have hval : (UInt8.ofNat val).toNat = val := by
    rw [UInt8.toNat_ofNat', Nat.mod_eq_of_lt (by omega)]
  refine UInt8.toNat_inj.mp ?_
  rw [UInt8.toNat_and, hval, toNat_prefixMask hbits, Nat.and_two_pow_sub_one_eq_mod,
    Nat.mod_eq_of_lt h]

/-- **An integer is decoded from the bytes that it is encoded as**, if the first byte has no bits in
the prefix. -/
theorem qpackIntDecode_encode (hbits : bits ≤ 8) (hfirst : first &&& prefixMask bits = 0)
    (hval : val < 2 ^ 63) (hout : qpackIntEncode space first (prefixMask bits) val = some out) :
    qpackIntDecode (out ++ rest) (prefixMask bits) = (some rest, val) := by
  have hmask := toNat_prefixMask hbits
  cases space with
  | zero => cases hout
  | succ space =>
    rw [qpackIntEncode] at hout
    split at hout
    · rename_i hlt
      obtain rfl := Option.some.inj hout
      have hpow : 2 ^ bits ≤ 2 ^ 8 := Nat.pow_le_pow_right (by decide) hbits
      have hlow : ((first ||| UInt8.ofNat val) &&& prefixMask bits).toNat = val := by
        rw [or_and_distrib, hfirst, UInt8.zero_or, ofNat_and_prefixMask hbits (by omega),
          UInt8.toNat_ofNat', Nat.mod_eq_of_lt (by omega)]
      rw [List.cons_append, qpackIntDecode, hlow, if_neg (by omega)]
      rfl
    · rename_i hge
      obtain ⟨tail, htail, rfl⟩ := Option.map_eq_some_iff.mp hout
      have hlow : (first ||| prefixMask bits) &&& prefixMask bits = prefixMask bits := by
        rw [or_and_distrib, hfirst, UInt8.zero_or, UInt8.and_self]
      have hloop := @qpackIntDecodeLoop_encodeLoop space (val - (prefixMask bits).toNat) 0 0 tail
        rest htail (by decide) (by omega) (by decide)
      rw [List.cons_append, qpackIntDecode, hlow, if_pos rfl, hloop]
      dsimp only
      rw [show 0 + (val - (prefixMask bits).toNat) * 2 ^ (7 * 0) + (prefixMask bits).toNat = val by
        omega]

/-- **The bits above the prefix stay** as they were in the first byte. -/
theorem qpackIntEncode_keeps (hbits : bits ≤ 8)
    (hout : qpackIntEncode space first (prefixMask bits) val = some out) :
    ∃ b tail, out = b :: tail ∧ b &&& ~~~prefixMask bits = first &&& ~~~prefixMask bits := by
  have hkeep : ∀ x, x &&& prefixMask bits = x →
      (first ||| x) &&& ~~~prefixMask bits = first &&& ~~~prefixMask bits := by
    intro x hx
    rw [or_and_distrib, ← hx, UInt8.and_assoc, UInt8.and_not_self, UInt8.and_zero, UInt8.or_zero]
  cases space with
  | zero => cases hout
  | succ space =>
    rw [qpackIntEncode] at hout
    split at hout
    · rename_i hlt
      obtain rfl := Option.some.inj hout
      rw [toNat_prefixMask hbits] at hlt
      exact ⟨_, [], rfl, hkeep _ (ofNat_and_prefixMask hbits (by omega))⟩
    · obtain ⟨tail, -, rfl⟩ := Option.map_eq_some_iff.mp hout
      exact ⟨_, tail, rfl, hkeep _ UInt8.and_self⟩

/-! ### The space -/

theorem length_qpackIntEncodeLoop (hout : qpackIntEncodeLoop space val = some out) :
    out.length ≤ space := by
  induction space generalizing val out with
  | zero => cases hout
  | succ space ih =>
    rw [qpackIntEncodeLoop] at hout
    split at hout
    · obtain ⟨out, htail, rfl⟩ := Option.map_eq_some_iff.mp hout
      exact Nat.succ_le_succ (ih htail)
    · obtain rfl := Option.some.inj hout
      exact Nat.succ_le_succ (Nat.zero_le _)

/-- An integer is written in the space that there is. -/
theorem length_qpackIntEncode (hout : qpackIntEncode space first mask val = some out) :
    out.length ≤ space := by
  cases space with
  | zero => cases hout
  | succ space =>
    rw [qpackIntEncode] at hout
    split at hout
    · obtain rfl := Option.some.inj hout
      exact Nat.succ_le_succ (Nat.zero_le _)
    · obtain ⟨tail, htail, rfl⟩ := Option.map_eq_some_iff.mp hout
      exact Nat.succ_le_succ (length_qpackIntEncodeLoop htail)

theorem qpackIntEncodeLoop_isSome (h : val < 128 ^ space) :
    (qpackIntEncodeLoop space val).isSome ∨ space = 0 := by
  induction space generalizing val with
  | zero => exact .inr rfl
  | succ space ih =>
    refine .inl ?_
    rw [qpackIntEncodeLoop]
    split
    · rename_i hge
      have hnext : val / 0x80 < 128 ^ space := Nat.div_lt_of_lt_mul (by rwa [← Nat.pow_succ'])
      rcases ih hnext with hsome | rfl
      · rw [Option.isSome_map]
        exact hsome
      · simp at h
        omega
    · rfl

/-- **Ten bytes are enough** for an integer of 62 bits. -/
theorem qpackIntEncode_isSome (hspace : 10 ≤ space) (hval : val < 2 ^ 62) :
    (qpackIntEncode space first mask val).isSome := by
  obtain ⟨space, rfl⟩ : ∃ k, space = k + 1 := ⟨space - 1, by omega⟩
  rw [qpackIntEncode]
  split
  · rfl
  · rw [Option.isSome_map]
    have hpow : 128 ^ 9 ≤ 128 ^ space := Nat.pow_le_pow_right (by decide) (by omega)
    have hlt : val - mask.toNat < 128 ^ space := by
      refine Nat.lt_of_lt_of_le ?_ hpow
      omega
    rcases qpackIntEncodeLoop_isSome hlt with hsome | rfl
    · exact hsome
    · omega

end H3zero

end Picoquic
