import Mathlib.Data.Int.Log
import Mathlib.Data.Rat.Floor
import Mathlib.Tactic.Positivity

/-!
# Binary64 rounding of rational numbers

The result of a double precision operation is the exact rational result rounded to a 53-bit
significand, to nearest, ties to even. `rnd` is that rounding, with an unbounded exponent: it
agrees with the hardware wherever no result is subnormal or overflows.

* **`roundHalfEven`** — the nearest integer, ties to even: monotone, the identity on integers,
  off by a half at most.
* **`rnd`** — the same on the grid of spacing `ulp x`: monotone on nonnegative numbers
  (`rnd_mono`), the identity on integers below `2 ^ 53` (`rnd_natCast`), with relative error
  `2 ^ (-53)` at most (`abs_rnd_sub_le`).
-/

namespace Binary64

/-! ### Rounding to an integer -/

/-- The integer nearest to `x`, ties to even. -/
def roundHalfEven (x : ℚ) : ℤ :=
  if 1 < 2 * (x - ⌊x⌋) ∨ (2 * (x - ⌊x⌋) = 1 ∧ ⌊x⌋ % 2 = 1) then ⌊x⌋ + 1 else ⌊x⌋

@[simp]
theorem roundHalfEven_intCast (n : ℤ) : roundHalfEven (n : ℚ) = n := by
  simp [roundHalfEven]

/-- Rounding moves a number by a half at most. -/
theorem abs_roundHalfEven_sub_le (x : ℚ) : |(roundHalfEven x : ℚ) - x| ≤ 1 / 2 := by
  have hlo : (⌊x⌋ : ℚ) ≤ x := Int.floor_le x
  have hhi : x < (⌊x⌋ : ℚ) + 1 := Int.lt_floor_add_one x
  rw [roundHalfEven, abs_le]
  split_ifs with h
  · push_cast
    rcases h with h | ⟨h, -⟩ <;> constructor <;> linarith
  · have h' : 2 * (x - ⌊x⌋) ≤ 1 := not_lt.mp fun h' => h (Or.inl h')
    constructor <;> linarith

/-- Rounding to an integer is monotone. -/
theorem roundHalfEven_mono {x y : ℚ} (h : x ≤ y) : roundHalfEven x ≤ roundHalfEven y := by
  have hfl : ⌊x⌋ ≤ ⌊y⌋ := Int.floor_le_floor h
  rcases hfl.lt_or_eq with hlt | heq
  · have h1 : roundHalfEven x ≤ ⌊x⌋ + 1 := by
      rw [roundHalfEven]
      split_ifs <;> omega
    have h2 : ⌊y⌋ ≤ roundHalfEven y := by
      rw [roundHalfEven]
      split_ifs <;> omega
    omega
  · -- the same integer part: only the fractional parts decide
    rw [roundHalfEven, roundHalfEven, heq]
    split_ifs with hx hy hy
    · exact le_refl _
    · refine absurd ?_ hy
      rcases hx with hx | ⟨hx, hodd⟩
      · exact Or.inl (by linarith)
      · rcases (show 1 ≤ 2 * (y - ⌊y⌋) by linarith).lt_or_eq with hy' | hy'
        · exact Or.inl hy'
        · exact Or.inr ⟨hy'.symm, hodd⟩
    · omega
    · exact le_refl _

/-! ### Rounding to 53 significant bits -/

/-- The spacing of the binary64 numbers around `x`. -/
def ulp (x : ℚ) : ℚ := 2 ^ (Int.log 2 |x| - 52)

/-- The binary64 number nearest to `x`, ties to even. -/
def rnd (x : ℚ) : ℚ := roundHalfEven (x / ulp x) * ulp x

theorem ulp_pos (x : ℚ) : 0 < ulp x := zpow_pos (by norm_num) _

@[simp]
theorem rnd_zero : rnd 0 = 0 := by
  have h : roundHalfEven 0 = 0 := by simpa using roundHalfEven_intCast 0
  rw [rnd, zero_div, h, Int.cast_zero, zero_mul]

theorem two_pow_mul_ulp (x : ℚ) : (2 : ℚ) ^ (52 : ℕ) * ulp x = 2 ^ Int.log 2 |x| := by
  rw [ulp, ← zpow_natCast, ← zpow_add₀ (by norm_num)]
  norm_num

/-- A rounded positive number stays in its binade. -/
theorem rnd_mem_binade {x : ℚ} (hx : 0 < x) :
    (2 : ℚ) ^ Int.log 2 x ≤ rnd x ∧ rnd x ≤ 2 ^ (Int.log 2 x + 1) := by
  have hu := ulp_pos x
  have hs := two_pow_mul_ulp x
  rw [abs_of_pos hx] at hs
  have hlo : ((2 ^ 52 : ℤ) : ℚ) ≤ x / ulp x := by
    rw [le_div_iff₀ hu, Int.cast_pow, Int.cast_ofNat, hs]
    exact_mod_cast Int.zpow_log_le_self (b := 2) (by norm_num) hx
  have hhi : x / ulp x ≤ ((2 ^ 53 : ℤ) : ℚ) := by
    rw [div_le_iff₀ hu]
    have h := Int.lt_zpow_succ_log_self (b := 2) (by norm_num) x
    rw [Nat.cast_two, zpow_add_one₀ (by norm_num), ← hs] at h
    push_cast
    linarith
  have h1 := roundHalfEven_mono hlo
  have h2 := roundHalfEven_mono hhi
  rw [roundHalfEven_intCast] at h1 h2
  have h1' : ((2 : ℚ) ^ 52) ≤ roundHalfEven (x / ulp x) := by exact_mod_cast h1
  have h2' : (roundHalfEven (x / ulp x) : ℚ) ≤ 2 ^ 53 := by exact_mod_cast h2
  constructor
  · calc (2 : ℚ) ^ Int.log 2 x = 2 ^ 52 * ulp x := hs.symm
      _ ≤ rnd x := mul_le_mul_of_nonneg_right h1' hu.le
  · calc rnd x ≤ 2 ^ 53 * ulp x := mul_le_mul_of_nonneg_right h2' hu.le
      _ = 2 ^ 52 * ulp x * 2 := by ring
      _ = 2 ^ (Int.log 2 x + 1) := by rw [hs, zpow_add_one₀ (by norm_num)]

theorem rnd_pos {x : ℚ} (hx : 0 < x) : 0 < rnd x :=
  (zpow_pos (by norm_num) _).trans_le (rnd_mem_binade hx).1

theorem rnd_nonneg {x : ℚ} (hx : 0 ≤ x) : 0 ≤ rnd x := by
  rcases hx.eq_or_lt with rfl | hx
  · rw [rnd_zero]
  · exact (rnd_pos hx).le

/-- Rounding is monotone on nonnegative numbers. -/
theorem rnd_mono {x y : ℚ} (hx : 0 ≤ x) (h : x ≤ y) : rnd x ≤ rnd y := by
  rcases hx.eq_or_lt with rfl | hx
  · rw [rnd_zero]
    exact rnd_nonneg h
  have hy : 0 < y := hx.trans_le h
  rcases (Int.log_mono_right (b := 2) hx h).lt_or_eq with hlt | heq
  · -- a lower binade: the bound between the binades separates the results
    calc rnd x ≤ 2 ^ (Int.log 2 x + 1) := (rnd_mem_binade hx).2
      _ ≤ 2 ^ Int.log 2 y := zpow_le_zpow_right₀ (by norm_num) (by omega)
      _ ≤ rnd y := (rnd_mem_binade hy).1
  · have hulp : ulp x = ulp y := by rw [ulp, ulp, abs_of_pos hx, abs_of_pos hy, heq]
    rw [rnd, rnd, hulp]
    have hdiv : x / ulp y ≤ y / ulp y := div_le_div_of_nonneg_right h (ulp_pos y).le
    exact mul_le_mul_of_nonneg_right (by exact_mod_cast roundHalfEven_mono hdiv) (ulp_pos y).le

/-- Rounding is exact on the multiples of the spacing. -/
theorem rnd_eq_of_mul {x : ℚ} {n : ℤ} (h : x = n * ulp x) : rnd x = x := by
  have hdiv : x / ulp x = n := by
    rw [div_eq_iff (ulp_pos x).ne']
    exact h
  rw [rnd, hdiv, roundHalfEven_intCast, ← h]

/-- Rounding is exact on the integers below `2 ^ 53`. -/
theorem rnd_natCast {n : ℕ} (hn : n < 2 ^ 53) : rnd (n : ℚ) = n := by
  have hlog : Nat.log 2 n ≤ 52 := by
    have := Nat.log_lt_of_lt_pow' (b := 2) (x := 53) (by omega) hn
    omega
  obtain ⟨k, hk⟩ := Nat.exists_eq_add_of_le hlog
  refine rnd_eq_of_mul (n := n * 2 ^ k) ?_
  have hulp : ulp (n : ℚ) = (2 ^ k)⁻¹ := by
    rw [ulp, abs_of_nonneg (Nat.cast_nonneg n), Int.log_natCast, ← zpow_natCast, ← zpow_neg]
    congr 1
    omega
  rw [hulp]
  push_cast
  field_simp

/-- The relative rounding error is at most `2 ^ (-53)`. -/
theorem abs_rnd_sub_le (x : ℚ) : |rnd x - x| ≤ |x| / 2 ^ 53 := by
  by_cases hx : x = 0
  · simp [hx]
  have hu := ulp_pos x
  have hsub : rnd x - x = (roundHalfEven (x / ulp x) - x / ulp x) * ulp x := by
    rw [rnd, sub_mul, div_mul_cancel₀ _ hu.ne']
  have hulp : ulp x * 2 ^ 52 ≤ |x| := by
    rw [mul_comm, two_pow_mul_ulp]
    exact_mod_cast Int.zpow_log_le_self (b := 2) (by norm_num) (abs_pos.mpr hx)
  rw [hsub, abs_mul, abs_of_pos hu, le_div_iff₀ (by positivity)]
  calc |(roundHalfEven (x / ulp x) : ℚ) - x / ulp x| * ulp x * 2 ^ 53
      ≤ 1 / 2 * ulp x * 2 ^ 53 := by
        gcongr
        exact abs_roundHalfEven_sub_le _
    _ = ulp x * 2 ^ 52 := by ring
    _ ≤ |x| := hulp

/-- Upper half of the error bound, for nonnegative numbers. -/
theorem rnd_le {x : ℚ} (hx : 0 ≤ x) : rnd x ≤ x * (1 + 1 / 2 ^ 53) := by
  have h := (abs_le.mp (abs_rnd_sub_le x)).2
  rw [abs_of_nonneg hx] at h
  linarith

end Binary64
