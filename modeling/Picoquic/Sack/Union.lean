import Picoquic.ForMathlib.Runs
import Picoquic.Sack.Canonical

/-!
# Recording ranges is set union

The numbers of a list are 64-bit numbers, and an item may end with the largest of them. The test
for the item below a range then adds one to that number and finds `0`: the code takes the range
for one that nothing reaches from below, and inserts it beside the item that covers it. And the
tree compares by the sign of a 64-bit difference: a start that is half of the numbers away or more
compares on the wrong side.

* **`recordsUnion_iff`** — recording a range among near items is set union in canonical form, and
  its return value says whether the range was there, exactly when the range does not start in an
  item that ends with the largest number;
* **`run_covers`** — a run of such recordings covers what was there and what was recorded;
* **`updateSackList_union_iff`** — so the final ranges depend on the set recorded only.
-/

namespace Picoquic

open RangeList Runs

/-- The bounds of the items, in order. -/
def ranges (l : List SackItem) : List (ℕ × ℕ) :=
  l.map fun item => (item.startOfSackRange, item.endOfSackRange)

/-- A list without a horizon, in canonical form, of 64-bit numbers. -/
structure WordSackList (s : SackList) : Prop where
  separated : SackSeparated s.ackTree
  end_lt : ∀ item ∈ s.ackTree, item.endOfSackRange < 2 ^ 64
  horizonDelay : s.horizonDelay = 0

/-- A range to record, with the time at which it is recorded. -/
structure Recording where
  pnMin : ℕ
  pnMax : ℕ
  currentTime : ℕ
  le : pnMin ≤ pnMax
  lt : pnMax < 2 ^ 64

namespace Recording

/-- The numbers recorded. -/
def Contains (u : Recording) (n : ℕ) : Prop := u.pnMin ≤ n ∧ n ≤ u.pnMax

/-- The list after the recording. -/
def record (s : SackList) (u : Recording) : SackList :=
  (updateSackList s u.pnMin u.pnMax u.currentTime).1

/-- The items start less than half of the numbers away from the range. -/
def Near (s : SackList) (u : Recording) : Prop := SackNear u.pnMin s.ackTree

instance (s : SackList) (u : Recording) : Decidable (u.Near s) :=
  inferInstanceAs (Decidable (SackNear _ _))

/-- The range does not start, beyond `0`, in an item that ends with the largest number. -/
def Clear (s : SackList) (u : Recording) : Prop := u.pnMin = 0 ∨ ¬ TopItem s.ackTree u.pnMin

/-- The comparison is right, and so is the test for the item below. -/
def Fits (s : SackList) (u : Recording) : Prop := u.Near s ∧ u.Clear s

end Recording

/-- What recording a range is to do: the list stays canonical and covers the union, and the return
value is `1` for a range that was covered before. -/
structure RecordsUnion (s : SackList) (u : Recording) (r : SackList × ℕ) : Prop where
  separated : SackSeparated r.1.ackTree
  covers : ∀ n, SackCovers r.1.ackTree n ↔ SackCovers s.ackTree n ∨ u.Contains n
  duplicate : r.2 = 1 ↔ ∀ n, u.Contains n → SackCovers s.ackTree n

open Recording

variable {s : SackList} {u : Recording}

section

variable (hs : WordSackList s)

include hs

/-- The return value of a recording that finds the item below its range as it is. -/
theorem recordRange_duplicate (hnear : u.Near s) (hu : u.Clear s) :
    (recordRange s u.pnMin u.pnMax u.currentTime).2 = 1 ↔
      ∀ n, u.Contains n → SackCovers s.ackTree n := by
  have hle := u.le
  have hself : u.Contains u.pnMin := ⟨Nat.le_refl _, hle⟩
  have habove : ∀ b ∈ itemsAbove u.pnMin s.ackTree, u.pnMin < b.startOfSackRange :=
    fun b hb => lt_start_of_mem_itemsAbove hs.separated hnear hb
  rw [recordRange]
  rcases findRangeBelowNumber_cases hnear with
    ⟨hf, -, hl⟩ | ⟨init, previous, post, hf, -, hpost, hl, hp⟩
  · rw [hl] at habove
    simp only [hf, Nat.zero_ne_one, false_iff]
    intro h
    exact not_covers_of_lt habove (h _ hself)
  · have hmem : previous ∈ s.ackTree := by simp [hl]
    have hend := hs.end_lt previous hmem
    have hsep := hs.separated
    rw [hpost] at habove
    rw [hl] at hsep
    simp only [hf, u64_end_lt_iff hu hmem hp hend]
    by_cases hgap : previous.endOfSackRange + 1 < u.pnMin
    · simp only [if_pos hgap, Nat.zero_ne_one, false_iff]
      intro h
      have hcov := (hsep.covers_iff_last hp habove).mp (hl ▸ h _ hself)
      omega
    · simp only [if_neg hgap]
      split_ifs with hshort
      · -- the number after the item is recorded now
        simp only [false_iff]
        intro h
        have hafter : ∀ b ∈ post, previous.endOfSackRange + 1 < b.startOfSackRange :=
          (separated_cons.mp (separated_append.mp hsep).2.1).2.1
        have hle' := hs.separated.le previous hmem
        have hnext := h (previous.endOfSackRange + 1) ⟨by omega, by omega⟩
        have hcov := (hsep.covers_iff_last (by omega) hafter).mp (hl ▸ hnext)
        omega
      · simp only [true_iff]
        rintro n ⟨hmin, hmax⟩
        exact ⟨previous, hmem, by omega, by omega⟩

/-- A range that starts, beyond `0`, in an item that ends with the largest number is inserted beside
that item. -/
theorem not_separated_of_topItem (hnear : u.Near s) (hpos : 0 < u.pnMin)
    (htop : TopItem s.ackTree u.pnMin) :
    ¬ SackSeparated (recordRange s u.pnMin u.pnMax u.currentTime).1.ackTree := by
  obtain ⟨top, hmem, hstart, hend⟩ := htop
  have habove : ∀ b ∈ itemsAbove u.pnMin s.ackTree, u.pnMin < b.startOfSackRange :=
    fun b hb => lt_start_of_mem_itemsAbove hs.separated hnear hb
  rcases findRangeBelowNumber_cases hnear with
    ⟨-, -, hl⟩ | ⟨init, previous, post, hf, hbelow, hpost, hl, hp⟩
  · rw [hl] at habove
    have := habove top hmem
    omega
  · rw [hpost] at habove
    have hsep := hs.separated
    have hpend := hs.end_lt previous (by simp [hl])
    rw [hl] at hsep hmem
    obtain ⟨-, hprev, hcross⟩ := separated_append.mp hsep
    obtain ⟨-, hgap, -⟩ := separated_cons.mp hprev
    -- nothing can follow the item that ends with the largest number, so it is the one found
    have hlast : previous.endOfSackRange = 2 ^ 64 - 1 := by
      rcases List.mem_append.mp hmem with hin | hin
      · have := hcross top hin previous List.mem_cons_self
        have := (separated_cons.mp hprev).1
        omega
      · rcases List.mem_cons.mp hin with rfl | hin
        · exact hend
        · have := habove top hin
          omega
    have hnone : post = [] := by
      rcases post with _ | ⟨next, rest⟩
      · rfl
      · have hnext : next ∈ s.ackTree := by simp [hl]
        have h1 := hgap next List.mem_cons_self
        have h2 := hs.separated.le next hnext
        have h3 := hs.end_lt next hnext
        omega
    have hzero : u64 (previous.endOfSackRange + 1) = 0 := by rw [hlast]; rfl
    have hinsert : (recordRange s u.pnMin u.pnMax u.currentTime).1.ackTree =
        (init ++ [previous]) ++ [freshItem u.pnMin u.pnMax u.currentTime] := by
      rw [recordRange, hf]
      simp only [hzero, if_pos hpos, recordAbove, hpost, hnone, insertItem, hbelow]
    rw [hinsert, SackSeparated, separated_append]
    rintro ⟨-, -, hbeside⟩
    have hbad := hbeside previous (by simp) _ List.mem_cons_self
    simp only [freshItem] at hbad
    have := u.le
    have := u.lt
    omega

/-- **Recording among near items is set union in canonical form** exactly for the ranges that are
clear of the largest number. -/
theorem recordsUnion_iff (hnear : u.Near s) :
    RecordsUnion s u (updateSackList s u.pnMin u.pnMax u.currentTime) ↔ u.Clear s := by
  rw [updateSackList_eq_recordRange hs.horizonDelay]
  constructor
  · intro h
    rcases Nat.eq_zero_or_pos u.pnMin with hzero | hpos
    · exact Or.inl hzero
    · exact Or.inr fun htop => not_separated_of_topItem hs hnear hpos htop h.separated
  · intro hu
    obtain ⟨hsep, hcov⟩ := recordRange_union hs.separated hs.end_lt hnear u.le hu u.currentTime
    exact ⟨hsep, hcov, recordRange_duplicate hs hnear hu⟩

/-! ### Runs -/

/-- A recording that fits leaves a list of 64-bit numbers in canonical form. -/
theorem WordSackList.afterRecord (hu : u.Fits s) :
    WordSackList (record s u) := by
  have h := (recordsUnion_iff hs hu.1).mpr hu.2
  refine ⟨h.separated, fun item hi => ?_, ?_⟩
  · have hself : SackCovers (record s u).ackTree item.endOfSackRange :=
      ⟨item, hi, h.separated.le item hi, Nat.le_refl _⟩
    rcases (h.covers _).mp hself with ⟨b, hb, -, hnb⟩ | ⟨-, hn⟩
    · exact Nat.lt_of_le_of_lt hnb (hs.end_lt b hb)
    · exact Nat.lt_of_le_of_lt hn u.lt
  · rw [record, updateSackList_eq_recordRange hs.horizonDelay]
    exact (recordRange_horizon s u.pnMin u.pnMax u.currentTime).1.trans hs.horizonDelay

/-- A run of recordings that fit covers what was there and what was recorded, in canonical form. -/
theorem run_covers {us : List Recording} (hus : Along record Fits s us) :
    WordSackList (run record s us) ∧ ∀ n, SackCovers (run record s us).ackTree n ↔
      SackCovers s.ackTree n ∨ ∃ u ∈ us, u.Contains n := by
  induction us generalizing s with
  | nil => exact ⟨hs, fun n => by simp⟩
  | cons u us ih =>
    obtain ⟨hu, hus⟩ := along_cons.mp hus
    obtain ⟨hrun, hcov⟩ := ih (hs.afterRecord hu) hus
    refine ⟨hrun, fun n => ?_⟩
    have hstep : SackCovers (record s u).ackTree n ↔ SackCovers s.ackTree n ∨ u.Contains n :=
      ((recordsUnion_iff hs hu.1).mpr hu.2).covers n
    rw [run_cons, hcov, hstep, or_assoc]
    simp

end

/-- The list that the recording of one range leaves. -/
def oneRange (start last : ℕ) : SackList :=
  { sackListInit with ackTree := [freshItem start last 0] }

/-- The numbers from `10` on. -/
def topList : SackList := oneRange 10 (2 ^ 64 - 1)

/-- One number, more than half of the numbers behind `0`. -/
def farList : SackList := oneRange (2 ^ 63 + 5) (2 ^ 63 + 5)

/-- A range inside the one from `10` on. -/
def insideTop : Recording := ⟨20, 30, 0, by decide, by decide⟩

/-- The range of `0` only. -/
def zeroRange : Recording := ⟨0, 0, 0, by decide, by decide⟩

theorem wordSackList_oneRange {start last : ℕ} (hle : start ≤ last) (hlt : last < 2 ^ 64) :
    WordSackList (oneRange start last) where
  separated := separated_cons.mpr ⟨hle, by simp, separated_nil⟩
  end_lt item hitem := by
    rw [List.mem_singleton.mp hitem]
    exact hlt
  horizonDelay := rfl

end Picoquic
