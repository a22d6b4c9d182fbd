import Mathlib.Data.Nat.Dist
import Mathlib.Data.Nat.ModEq
import Picoquic.Packet.Number

/-!
# The closest packet number

The low bytes of a packet number stand for all numbers that are congruent to them modulo the window
of as many bytes. The receiver takes the one that is closest to the number it expects. Its
computation is in unsigned integers of 64 bits; as long as packet numbers have 62 bits, none of its
sums and differences leaves their range.

* **`getPacketNumber64Checked`** — the computation with each sum and difference checked;
* **`getPacketNumber64_of_checked`** — a computation that goes through is the one of the code;
* **`IsClosest`** — what the receiver is to find;
* **`closest_packet_number`** — it finds that, and nothing wraps around.
-/

namespace Picoquic

/-! ### Checked arithmetic -/

/-- A sum in `uint64_t`, unless it wraps around. -/
def addChecked (a b : ℕ) : Option ℕ := if a + b < 2 ^ 64 then some (a + b) else none

/-- A difference in `uint64_t`, unless it wraps around. -/
def subChecked (a b : ℕ) : Option ℕ := if b ≤ a then some (a - b) else none

theorem addChecked_eq_some {a b c : ℕ} : addChecked a b = some c ↔ a + b < 2 ^ 64 ∧ a + b = c := by
  rw [addChecked, Option.ite_none_right_eq_some, Option.some.injEq]

theorem subChecked_eq_some {a b c : ℕ} : subChecked a b = some c ↔ b ≤ a ∧ a - b = c := by
  rw [subChecked, Option.ite_none_right_eq_some, Option.some.injEq]

/-- `picoquic_get_packet_number64`, as far as nothing wraps around. -/
def getPacketNumber64Checked (highest mask pn : ℕ) : Option ℕ := do
  let expected ← addChecked highest 1
  let notMaskPlusOne ← addChecked (2 ^ 64 - 1 - mask) 1
  let pn64 := (expected &&& mask) ||| pn
  if pn64 < expected then
    let delta1 ← subChecked expected pn64
    let delta2 ← subChecked notMaskPlusOne delta1
    if delta2 < delta1 then addChecked pn64 notMaskPlusOne else some pn64
  else
    let delta1 ← subChecked pn64 expected
    let delta2 ← subChecked notMaskPlusOne delta1
    if delta2 ≤ delta1 ∧ 0 < pn64 &&& mask then subChecked pn64 notMaskPlusOne else some pn64

/-- Where nothing wraps around, the reductions to 64 bits do nothing. -/
theorem getPacketNumber64_of_checked {highest mask pn n : ℕ} (hpn : pn < 2 ^ 64)
    (h : getPacketNumber64Checked highest mask pn = some n) :
    getPacketNumber64 highest mask pn = n := by
  simp only [getPacketNumber64Checked, Option.bind_eq_bind, Option.bind_eq_some_iff,
    addChecked_eq_some] at h
  obtain ⟨expected, ⟨hexpected, rfl⟩, window, ⟨hwindow, rfl⟩, h⟩ := h
  have hand : (highest + 1) &&& mask < 2 ^ 64 := Nat.lt_of_le_of_lt Nat.and_le_left hexpected
  have hor := Nat.or_lt_two_pow hand hpn
  simp only [getPacketNumber64, u64_of_lt hexpected, u64_of_lt hwindow]
  generalize ((highest + 1) &&& mask) ||| pn = pn64 at h hor ⊢
  by_cases hlt : pn64 < highest + 1
  · rw [if_pos hlt] at h ⊢
    simp only [Option.bind_eq_some_iff, subChecked_eq_some] at h
    obtain ⟨delta1, ⟨-, rfl⟩, delta2, ⟨hle, rfl⟩, h⟩ := h
    rw [sub64_of_le hle hwindow]
    split_ifs at h ⊢
    · obtain ⟨hsum, rfl⟩ := addChecked_eq_some.mp h
      exact u64_of_lt hsum
    · exact Option.some.inj h
  · rw [if_neg hlt] at h ⊢
    simp only [Option.bind_eq_some_iff, subChecked_eq_some] at h
    obtain ⟨delta1, ⟨-, rfl⟩, delta2, ⟨hle, rfl⟩, h⟩ := h
    rw [sub64_of_le hle hwindow]
    split_ifs at h ⊢
    · obtain ⟨hdiff, rfl⟩ := subChecked_eq_some.mp h
      exact sub64_of_le hdiff hor
    · exact Option.some.inj h

/-! ### The closest number -/

/-- Among the numbers congruent to `pn` modulo `window`, none is closer to `expected` than `n`. -/
structure IsClosest (window pn expected n : ℕ) : Prop where
  modEq : n ≡ pn [MOD window]
  dist_le : ∀ m, m ≡ pn [MOD window] → Nat.dist n expected ≤ Nat.dist m expected

/-- Two congruent numbers are equal or a window apart. -/
theorem eq_or_window_le_dist {window m n : ℕ} (h : m ≡ n [MOD window]) :
    m = n ∨ window ≤ Nat.dist m n := by
  rcases le_total m n with hle | hle
  · rw [Nat.dist_eq_sub_of_le hle]
    rcases Nat.eq_zero_or_pos (n - m) with h0 | hpos
    · exact Or.inl (by omega)
    · exact Or.inr (Nat.le_of_dvd hpos ((Nat.modEq_iff_dvd' hle).mp h))
  · rw [Nat.dist_eq_sub_of_le_right hle]
    rcases Nat.eq_zero_or_pos (m - n) with h0 | hpos
    · exact Or.inl (by omega)
    · exact Or.inr (Nat.le_of_dvd hpos ((Nat.modEq_iff_dvd' hle).mp h.symm))

theorem IsClosest.of_near {window pn expected n : ℕ} (h : n ≡ pn [MOD window])
    (hnear : 2 * Nat.dist n expected ≤ window) : IsClosest window pn expected n := by
  refine ⟨h, fun m hm => ?_⟩
  rcases eq_or_window_le_dist (hm.trans h.symm) with rfl | hfar
  · exact le_rfl
  · have htriangle := Nat.dist.triangle_inequality m expected n
    rw [Nat.dist_comm expected n] at htriangle
    omega

theorem IsClosest.of_least {window pn expected : ℕ} (hpn : pn < window) (hle : expected ≤ pn) :
    IsClosest window pn expected pn := by
  refine ⟨Nat.ModEq.refl _, fun m hm => ?_⟩
  have hpm : pn ≤ m := by
    rw [← Nat.mod_eq_of_lt hpn, ← (show m % window = pn % window from hm)]
    exact Nat.mod_le _ _
  rw [Nat.dist_eq_sub_of_le_right hle, Nat.dist_eq_sub_of_le_right (hle.trans hpm)]
  omega

/-- The candidate with the leading part of the expected number is less than a window away from it,
and its own leading part is that one. -/
private theorem candidate_spec {l highest pn : ℕ} (h1 : 1 ≤ l) (h4 : l ≤ 4)
    (hhighest : highest < 2 ^ 62 - 2 ^ 32) (hpn : pn < 2 ^ (8 * l)) :
    ∃ k, ((highest + 1) &&& pnMask l) ||| pn = k * 2 ^ (8 * l) + pn ∧
      (k * 2 ^ (8 * l) + pn) &&& pnMask l = k * 2 ^ (8 * l) ∧
      k * 2 ^ (8 * l) + pn < highest + 1 + 2 ^ (8 * l) ∧
      highest + 1 < k * 2 ^ (8 * l) + pn + 2 ^ (8 * l) := by
  have hwindow : 2 ^ (8 * l) ≤ 2 ^ 32 := Nat.pow_le_pow_right (by norm_num) (by omega)
  have hdiv := Nat.div_add_mod' (highest + 1) (2 ^ (8 * l))
  have hmod := Nat.mod_lt (highest + 1) (Nat.two_pow_pos (8 * l))
  refine ⟨(highest + 1) / 2 ^ (8 * l), and_pnMask_or h1 h4 (by omega) hpn, ?_, ?_, ?_⟩
  · generalize (highest + 1) / 2 ^ (8 * l) = k at hdiv ⊢
    have hk : (k * 2 ^ (8 * l) + pn) / 2 ^ (8 * l) = k := by
      rw [Nat.mul_comm, Nat.mul_add_div (Nat.two_pow_pos _), Nat.div_eq_of_lt hpn, Nat.add_zero]
    rw [and_pnMask h1 h4 (by omega), hk]
  · omega
  · omega

/-- **The closest packet number.** From one to four low bytes of a packet number, the receiver
makes the closest number to the one it expects, and nothing wraps around. -/
theorem closest_packet_number {l highest pn : ℕ} (h1 : 1 ≤ l) (h4 : l ≤ 4)
    (hhighest : highest < 2 ^ 62 - 2 ^ 32) (hpn : pn < 2 ^ (8 * l)) :
    getPacketNumber64Checked highest (pnMask l) pn =
        some (getPacketNumber64 highest (pnMask l) pn) ∧
      IsClosest (2 ^ (8 * l)) pn (highest + 1) (getPacketNumber64 highest (pnMask l) pn) := by
  suffices h : ∃ n, getPacketNumber64Checked highest (pnMask l) pn = some n ∧
      IsClosest (2 ^ (8 * l)) pn (highest + 1) n by
    obtain ⟨n, hn, hclosest⟩ := h
    have hpn64 : pn < 2 ^ 64 := hpn.trans (Nat.pow_lt_pow_right (by norm_num) (by omega))
    rw [getPacketNumber64_of_checked hpn64 hn]
    exact ⟨hn, hclosest⟩
  obtain ⟨k, hcand, hlead, habove, hbelow⟩ := candidate_spec h1 h4 hhighest hpn
  have hmask : addChecked (2 ^ 64 - 1 - pnMask l) 1 = some (2 ^ (8 * l)) := by
    interval_cases l <;> rfl
  have hwindow : 2 ^ (8 * l) ≤ 2 ^ 32 := Nat.pow_le_pow_right (by norm_num) (by omega)
  have hcongr : k * 2 ^ (8 * l) + pn ≡ pn [MOD 2 ^ (8 * l)] := Nat.mul_add_mod' ..
  have hsum : ∀ {a b : ℕ}, a + b < 2 ^ 64 → addChecked a b = some (a + b) := fun h =>
    addChecked_eq_some.mpr ⟨h, rfl⟩
  have hdiff : ∀ {a b : ℕ}, b ≤ a → subChecked a b = some (a - b) := fun h =>
    subChecked_eq_some.mpr ⟨h, rfl⟩
  simp only [getPacketNumber64Checked, Option.bind_eq_bind]
  rw [hsum (by omega : highest + 1 < 2 ^ 64), Option.bind_some, hmask, Option.bind_some, hcand,
    hlead]
  generalize 2 ^ (8 * l) = window at *
  generalize hc : k * window + pn = c at *
  by_cases hlt : c < highest + 1
  · -- the candidate is behind
    rw [if_pos hlt, hdiff hlt.le, Option.bind_some, hdiff (by omega), Option.bind_some]
    split_ifs with hfar
    · refine ⟨c + window, hsum (by omega), .of_near ?_ ?_⟩
      · exact (Nat.add_mod_right ..).trans hcongr
      · rw [Nat.dist_eq_sub_of_le_right (by omega)]
        omega
    · refine ⟨c, rfl, .of_near hcongr ?_⟩
      rw [Nat.dist_eq_sub_of_le hlt.le]
      omega
  · -- the candidate is the expected number or ahead of it
    rw [if_neg hlt, hdiff (by omega), Option.bind_some, hdiff (by omega), Option.bind_some]
    split_ifs with hfar
    · have hk : window ≤ k * window :=
        Nat.le_mul_of_pos_left _ (Nat.pos_of_mul_pos_right hfar.2)
      refine ⟨c - window, hdiff (by omega), .of_near ?_ ?_⟩
      · have hsplit : c - window + window ≡ pn [MOD window] := by
          rwa [Nat.sub_add_cancel (by omega)]
        exact (Nat.add_mod_right ..).symm.trans hsplit
      · rw [Nat.dist_eq_sub_of_le (by omega)]
        omega
    · refine ⟨c, rfl, ?_⟩
      rcases Nat.eq_zero_or_pos (k * window) with hzero | hpos
      · -- there is no number a window before it
        obtain rfl : c = pn := by omega
        exact .of_least hpn (by omega)
      · refine .of_near hcongr ?_
        rw [Nat.dist_eq_sub_of_le_right (by omega)]
        omega

/-- A receiver that has packet 250 takes a byte 3 for the low byte of packet 259. -/
theorem closest_packet_number_sample :
    getPacketNumber64 250 (pnMask 1) 3 = 259 ∧ IsClosest (2 ^ (8 * 1)) 3 (250 + 1) 259 :=
  ⟨by decide, (@closest_packet_number 1 250 3 (by decide) (by decide) (by decide) (by decide)).2⟩

end Picoquic
