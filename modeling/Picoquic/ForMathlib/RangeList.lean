import Mathlib.Data.List.TakeWhile

/-!
# Sorted lists of disjoint, non-adjacent ranges

A finite set of natural numbers is stored as a list of elements that each stand for the range
`lo a … hi a`. The elements carry other data, so the bounds are given by two functions. A list
is **separated** when every range is non-empty and consecutive ranges leave at least one number
between them; such a list is the unique canonical form of the set it covers.

* `Covers` — the set denoted by a list; it distributes over `++` and `::`.
* `Separated` — the canonical form; it distributes over `++` and `::` as well, and is kept when
  elements are dropped or when one range takes the place of a block of ranges it spans.
* `below` and `above` — the elements that start at or below a number, and the others; looking a
  number up means looking at the last element of `below`.
* **`Separated.ranges_eq`** — two canonical lists of one set have the same ranges.
-/

namespace RangeList

variable {α : Type*} {lo hi : α → ℕ}

/-- `n` lies in one of the ranges of the list. -/
def Covers (lo hi : α → ℕ) (l : List α) (n : ℕ) : Prop :=
  ∃ a ∈ l, lo a ≤ n ∧ n ≤ hi a

variable {n : ℕ} {l : List α}

@[simp]
theorem covers_nil : ¬ Covers lo hi [] n := by simp [Covers]

@[simp]
theorem covers_cons {a : α} :
    Covers lo hi (a :: l) n ↔ (lo a ≤ n ∧ n ≤ hi a) ∨ Covers lo hi l n := by
  simp [Covers]

@[simp]
theorem covers_append {l l' : List α} :
    Covers lo hi (l ++ l') n ↔ Covers lo hi l n ∨ Covers lo hi l' n := by
  simp [Covers, or_and_right, exists_or]

/-- **Canonical form**: non-empty ranges, in increasing order, no two of them adjacent. -/
structure Separated (lo hi : α → ℕ) (l : List α) : Prop where
  /-- Every range is non-empty. -/
  le : ∀ a ∈ l, lo a ≤ hi a
  /-- Between two ranges at least one number is missing. -/
  gap : l.Pairwise fun a b => hi a + 1 < lo b

theorem separated_nil : Separated lo hi [] := ⟨by simp, List.Pairwise.nil⟩

theorem separated_cons {a : α} :
    Separated lo hi (a :: l) ↔
      lo a ≤ hi a ∧ (∀ b ∈ l, hi a + 1 < lo b) ∧ Separated lo hi l := by
  constructor
  · rintro ⟨hle, hgap⟩
    rw [List.pairwise_cons] at hgap
    exact ⟨hle a List.mem_cons_self, hgap.1, fun b hb => hle b (List.mem_cons_of_mem a hb), hgap.2⟩
  · rintro ⟨ha, hal, hle, hgap⟩
    exact ⟨by simpa using ⟨ha, hle⟩, List.pairwise_cons.mpr ⟨hal, hgap⟩⟩

theorem separated_append {l l' : List α} :
    Separated lo hi (l ++ l') ↔
      Separated lo hi l ∧ Separated lo hi l' ∧ ∀ a ∈ l, ∀ b ∈ l', hi a + 1 < lo b := by
  constructor
  · rintro ⟨hle, hgap⟩
    rw [List.pairwise_append] at hgap
    exact ⟨⟨fun a ha => hle a (List.mem_append_left _ ha), hgap.1⟩,
      ⟨fun a ha => hle a (List.mem_append_right _ ha), hgap.2.1⟩, hgap.2.2⟩
  · rintro ⟨⟨hle, hgap⟩, ⟨hle', hgap'⟩, hsep⟩
    refine ⟨fun a ha => ?_, List.pairwise_append.mpr ⟨hgap, hgap', hsep⟩⟩
    rcases List.mem_append.mp ha with ha | ha
    · exact hle a ha
    · exact hle' a ha

/-- Two canonical lists may follow each other when the first ends before the second starts. -/
theorem separated_append_cons {l l' : List α} {a : α} (hl : Separated lo hi l)
    (hal : Separated lo hi (a :: l')) (h : ∀ b ∈ l, hi b + 1 < lo a) :
    Separated lo hi (l ++ a :: l') := by
  refine separated_append.mpr ⟨hl, hal, fun b hb c hc => ?_⟩
  have hba := h b hb
  rcases List.mem_cons.mp hc with rfl | hc
  · exact hba
  · obtain ⟨hle, hgap, -⟩ := separated_cons.mp hal
    have := hgap c hc
    omega

/-- Dropping ranges keeps the form. -/
theorem Separated.sublist {l l' : List α} (h : Separated lo hi l) (hs : l'.Sublist l) :
    Separated lo hi l' :=
  ⟨fun a ha => h.le a (hs.subset ha), h.gap.sublist hs⟩

/-- In canonical form the starts increase strictly. -/
theorem Separated.lo_lt (h : Separated lo hi l) : l.Pairwise fun a b => lo a < lo b := by
  refine h.gap.imp_of_mem fun ha _ hab => ?_
  have := h.le _ ha
  omega

/-- The set a list denotes depends on the bounds of its ranges only. -/
theorem covers_congr {l l' : List α}
    (h : l.map (fun a => (lo a, hi a)) = l'.map fun a => (lo a, hi a)) (n : ℕ) :
    Covers lo hi l n ↔ Covers lo hi l' n := by
  have key : ∀ l : List α, Covers lo hi l n ↔
      ∃ p ∈ l.map (fun a => (lo a, hi a)), p.1 ≤ n ∧ n ≤ p.2 := fun l => by simp [Covers]
  rw [key, key, h]

/-- So does being canonical. -/
theorem Separated.congr {l l' : List α} (hl : Separated lo hi l)
    (h : l.map (fun a => (lo a, hi a)) = l'.map fun a => (lo a, hi a)) : Separated lo hi l' := by
  have key : ∀ l : List α, Separated lo hi l ↔
      (∀ p ∈ l.map (fun a => (lo a, hi a)), p.1 ≤ p.2) ∧
        (l.map fun a => (lo a, hi a)).Pairwise fun p q => p.2 + 1 < q.1 := fun l => by
    rw [List.pairwise_map, List.forall_mem_map]
    exact ⟨fun h => ⟨h.le, h.gap⟩, fun h => ⟨h.1, h.2⟩⟩
  rwa [key, ← h, ← key]

/-! ### Splitting at a number -/

/-- The elements that start at or below `n` (a prefix of a sorted list). -/
def below (lo : α → ℕ) (n : ℕ) (l : List α) : List α := l.takeWhile fun a => lo a ≤ n

/-- The elements that start beyond `n` (the rest of a sorted list). -/
def above (lo : α → ℕ) (n : ℕ) (l : List α) : List α := l.dropWhile fun a => lo a ≤ n

theorem below_append_above (n : ℕ) (l : List α) : below lo n l ++ above lo n l = l :=
  List.takeWhile_append_dropWhile

theorem lo_le_of_mem_below {a : α} (h : a ∈ below lo n l) : lo a ≤ n := by
  simpa using List.mem_takeWhile_imp h

theorem lt_lo_of_mem_above (hl : l.Pairwise fun a b => lo a < lo b) {a : α} (h : a ∈ above lo n l) :
    n < lo a := by
  induction l with
  | nil => simp [above] at h
  | cons b l ih =>
    rw [List.pairwise_cons] at hl
    by_cases hb : lo b ≤ n
    · have h' : a ∈ above lo n l := by simpa [above, hb] using h
      exact ih hl.2 h'
    · have h' : a ∈ b :: l := by simpa [above, hb] using h
      rcases List.mem_cons.mp h' with rfl | ha
      · omega
      · have := hl.1 a ha
        omega

/-- **Lookup.** When everything right of `a` starts beyond `n`, the list covers `n` exactly when
`a` does. -/
theorem Separated.covers_iff_last {l l' : List α} {a : α} (h : Separated lo hi (l ++ a :: l'))
    (ha : lo a ≤ n) (hl' : ∀ b ∈ l', n < lo b) : Covers lo hi (l ++ a :: l') n ↔ n ≤ hi a := by
  obtain ⟨-, hsep, hcross⟩ := separated_append.mp h
  constructor
  · rintro ⟨b, hb, hbn, hnb⟩
    rcases List.mem_append.mp hb with hb | hb
    · have := hcross b hb a List.mem_cons_self
      omega
    · rcases List.mem_cons.mp hb with rfl | hb
      · exact hnb
      · have := hl' b hb
        omega
  · intro hn
    exact ⟨a, by simp, ha, hn⟩

/-- Nothing below the first start is covered. -/
theorem not_covers_of_lt (hl : ∀ a ∈ l, n < lo a) : ¬ Covers lo hi l n := by
  rintro ⟨a, ha, han, -⟩
  have := hl a ha
  omega

/-! ### Uniqueness -/

/-- The set of the ranges right of the first one. -/
theorem Separated.covers_tail_iff {a : α} (h : Separated lo hi (a :: l)) :
    Covers lo hi l n ↔ Covers lo hi (a :: l) n ∧ hi a < n := by
  obtain ⟨-, hgap, -⟩ := separated_cons.mp h
  constructor
  · rintro ⟨b, hb, hbn, hnb⟩
    have := hgap b hb
    exact ⟨covers_cons.mpr (Or.inr ⟨b, hb, hbn, hnb⟩), by omega⟩
  · rintro ⟨hn, han⟩
    rcases covers_cons.mp hn with ⟨-, hna⟩ | hn
    · omega
    · exact hn

/-- A list in canonical form starts with the least number it covers. -/
theorem Separated.lo_le_of_covers {a : α} (h : Separated lo hi (a :: l))
    (hn : Covers lo hi (a :: l) n) : lo a ≤ n := by
  obtain ⟨hle, hgap, -⟩ := separated_cons.mp h
  rcases covers_cons.mp hn with ⟨han, -⟩ | ⟨b, hb, hbn, -⟩
  · exact han
  · have := hgap b hb
    omega

/-- The first range ends before the first number that is not covered. -/
theorem Separated.hi_le_of_covers {a b : α} {l m : List α} (h : Separated lo hi (a :: l))
    (hlo : lo a = lo b)
    (hcov : ∀ n, Covers lo hi (b :: m) n → Covers lo hi (a :: l) n) : hi b ≤ hi a := by
  obtain ⟨hle, hgap, -⟩ := separated_cons.mp h
  by_contra hlt
  have hnext : Covers lo hi (b :: m) (hi a + 1) := ⟨b, List.mem_cons_self, by omega, by omega⟩
  rcases covers_cons.mp (hcov _ hnext) with ⟨-, hn⟩ | ⟨c, hc, hcn, -⟩
  · omega
  · have := hgap c hc
    omega

/-- **The canonical form is unique**: the set determines the ranges. -/
theorem Separated.ranges_eq {l m : List α} (hl : Separated lo hi l) (hm : Separated lo hi m)
    (hcov : ∀ n, Covers lo hi l n ↔ Covers lo hi m n) :
    l.map (fun a => (lo a, hi a)) = m.map fun a => (lo a, hi a) := by
  induction l generalizing m with
  | nil =>
    rcases m with _ | ⟨b, m⟩
    · rfl
    · have hb : Covers lo hi (b :: m) (lo b) :=
        ⟨b, List.mem_cons_self, Nat.le_refl _, (separated_cons.mp hm).1⟩
      exact absurd ((hcov _).mpr hb) covers_nil
  | cons a l ih =>
    have ha : Covers lo hi (a :: l) (lo a) :=
      ⟨a, List.mem_cons_self, Nat.le_refl _, (separated_cons.mp hl).1⟩
    rcases m with _ | ⟨b, m⟩
    · exact absurd ((hcov _).mp ha) covers_nil
    · have hb : Covers lo hi (b :: m) (lo b) :=
        ⟨b, List.mem_cons_self, Nat.le_refl _, (separated_cons.mp hm).1⟩
      have hlo : lo a = lo b := Nat.le_antisymm (hl.lo_le_of_covers ((hcov _).mpr hb))
        (hm.lo_le_of_covers ((hcov _).mp ha))
      have hhi : hi a = hi b := Nat.le_antisymm
        (hm.hi_le_of_covers hlo.symm fun n => (hcov n).mp)
        (hl.hi_le_of_covers hlo fun n => (hcov n).mpr)
      have htail : l.map (fun a => (lo a, hi a)) = m.map fun a => (lo a, hi a) := by
        refine ih (separated_cons.mp hl).2.2 (separated_cons.mp hm).2.2 fun n => ?_
        rw [hl.covers_tail_iff, hm.covers_tail_iff, hcov, hhi]
      simp only [List.map_cons, hlo, hhi, htail]

end RangeList
