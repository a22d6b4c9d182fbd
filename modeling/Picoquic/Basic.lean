import Mathlib.Algebra.GroupWithZero.Nat
import Mathlib.Algebra.Ring.Int.Defs

/-!
# Machine integers and protocol constants

Counters, offsets, packet numbers and times of the code are `uint64_t`. They are natural
numbers here; where a computation can leave the 64-bit range the reduction is written out with
`u64`, and a subtraction that can go below zero is `sub64`. Times compared as signed values go
through `int64`.
-/

namespace Picoquic

/-! ### Numerals of bounded types -/

instance neZero_two : NeZero 2 := ⟨by decide⟩

instance neZero_three : NeZero 3 := ⟨by decide⟩

instance neZero_twentyOne : NeZero 21 := ⟨by decide⟩

instance neZero_two_pow_16 : NeZero (2 ^ 16) := ⟨by decide⟩

instance neZero_two_pow_62 : NeZero (2 ^ 62) := ⟨by decide⟩

instance neZero_two_pow_64 : NeZero (2 ^ 64) := ⟨by decide⟩

/-! ### Machine integers -/

/-- Reduction to `uint64_t`. -/
def u64 (n : ℕ) : ℕ := n % 2 ^ 64

/-- `uint64_t` subtraction. -/
def sub64 (a b : ℕ) : ℕ := u64 (a + (2 ^ 64 - u64 b))

/-- Conversion of a `uint64_t` to `int64_t`. -/
def int64 (n : ℕ) : ℤ := if u64 n < 2 ^ 63 then (u64 n : ℤ) else (u64 n : ℤ) - 2 ^ 64

theorem u64_lt (n : ℕ) : u64 n < 2 ^ 64 := Nat.mod_lt _ (Nat.two_pow_pos 64)

theorem u64_of_lt {n : ℕ} (h : n < 2 ^ 64) : u64 n = n := Nat.mod_eq_of_lt h

theorem u64_le (n : ℕ) : u64 n ≤ n := Nat.mod_le _ _

theorem sub64_of_le {a b : ℕ} (h : b ≤ a) (ha : a < 2 ^ 64) : sub64 a b = a - b := by
  have hb : b < 2 ^ 64 := by omega
  rw [sub64, u64_of_lt hb, u64, show a + (2 ^ 64 - b) = a - b + 2 ^ 64 by omega,
    Nat.add_mod_right, Nat.mod_eq_of_lt (by omega)]

theorem sub64_le_sub {a b : ℕ} (h : b ≤ a) : sub64 a b ≤ a - b := by
  rw [sub64, u64, u64]
  omega

/-- `PICOQUIC_MAX_PACKET_SIZE`. -/
def maxPacketSize : ℕ := 1536

/-- `PICOQUIC_RESET_SECRET_SIZE`. -/
def resetSecretSize : ℕ := 16

/-- `PICOQUIC_STORED_IP_MAX`. -/
def storedIpMax : ℕ := 16

/-- `PICOQUIC_MAX_ACK_RANGE_REPEAT`. -/
abbrev maxAckRangeRepeat : ℕ := 4

end Picoquic
