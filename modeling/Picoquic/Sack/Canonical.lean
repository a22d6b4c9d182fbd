import Picoquic.Sack.List

/-!
# Acknowledgement lists stay canonical

Each operation of `Sack/List.lean` is specified by the set of numbers its list covers, on lists
in canonical form (in order, disjoint, not adjacent, below `2 ^ 62`):

* **`recordRange_union`**, **`recordRange_spec`** — recording a range is set union;
* **`ackHorizonLoop_spec`** — what leaves the list at the bottom is below the new horizon;
* **`processAckOfAckRange_spec`** — an acknowledged acknowledgement removes exactly the numbers it
  prunes.
-/

namespace Picoquic

open RangeList

/-- The items are in canonical form, and their numbers are 62-bit numbers. -/
structure SackCanonical (l : List SackItem) : Prop where
  separated : SackSeparated l
  lt : ∀ n, SackCovers l n → n < 2 ^ 62

theorem sackCanonical_nil : SackCanonical [] := ⟨separated_nil, fun _ h => absurd h covers_nil⟩

variable {l : List SackItem} {item : SackItem} {n : ℕ} {s : SackList} {pnMin pnMax : ℕ}
  {rest : List SackItem} {previous : SackItem}

theorem SackCanonical.start_le (h : SackCanonical l) (hi : item ∈ l) :
    item.startOfSackRange ≤ item.endOfSackRange :=
  h.separated.le item hi

theorem SackCanonical.end_lt (h : SackCanonical l) (hi : item ∈ l) : item.endOfSackRange < 2 ^ 62 :=
  h.lt _ ⟨item, hi, h.start_le hi, le_rfl⟩

theorem SackCanonical.sublist {l l' : List SackItem} (h : SackCanonical l)
    (hs : l'.Sublist l) : SackCanonical l' :=
  ⟨h.separated.sublist hs, fun n ⟨item, hi, hn⟩ => h.lt n ⟨item, hs.subset hi, hn⟩⟩

/-! ### The predecessor search -/

/-- The items start less than half of the 64-bit numbers away from a number, so that the comparison
of the tree is that of the numbers. -/
def SackNear (n : ℕ) (l : List SackItem) : Prop :=
  ∀ item ∈ l, n < item.startOfSackRange + 2 ^ 63 ∧ item.startOfSackRange ≤ n + 2 ^ 63

instance (n : ℕ) (l : List SackItem) : Decidable (SackNear n l) :=
  inferInstanceAs (Decidable (∀ item ∈ l, _ ∧ _))

private theorem sackItemCompare_nonneg_iff
    (h : n < item.startOfSackRange + 2 ^ 63 ∧ item.startOfSackRange ≤ n + 2 ^ 63) :
    0 ≤ sackItemCompare n item ↔ item.startOfSackRange ≤ n := by
  rw [sackItemCompare, int64, sub64]
  simp only [u64]
  split_ifs <;> omega

/-- Below are the items that start at or below the number. -/
theorem SackNear.itemsBelow_eq (h : SackNear n l) :
    itemsBelow n l = below SackItem.startOfSackRange n l ∧
      itemsAbove n l = above SackItem.startOfSackRange n l := by
  induction l with
  | nil => exact ⟨rfl, rfl⟩
  | cons item l ih =>
    have hitem := sackItemCompare_nonneg_iff (h item List.mem_cons_self)
    have hrest := ih fun item' hitem' => h item' (List.mem_cons_of_mem _ hitem')
    by_cases hle : item.startOfSackRange ≤ n
    · have hcompare := hitem.mpr hle
      exact ⟨by simpa [itemsBelow, below, hle, hcompare] using hrest.1,
        by simpa [itemsAbove, above, hle, hcompare] using hrest.2⟩
    · have hcompare := hitem.not.mpr hle
      exact ⟨by simp [itemsBelow, below, hle, hcompare],
        by simp [itemsAbove, above, hle, hcompare]⟩

theorem SackCanonical.near (h : SackCanonical l) (hn : n < 2 ^ 63) :
    SackNear n l := fun item hi => by
  have hle := h.start_le hi
  have hlt := h.end_lt hi
  omega

/-- The predecessor search splits a list: it finds nothing when every item starts beyond the
number, and otherwise the item before those. -/
theorem findRangeBelowNumber_cases (hnear : SackNear n l) :
    (findRangeBelowNumber l n = none ∧ itemsBelow n l = [] ∧ itemsAbove n l = l) ∨
      ∃ init previous post, findRangeBelowNumber l n = some previous ∧
        itemsBelow n l = init ++ [previous] ∧ itemsAbove n l = post ∧
        l = init ++ previous :: post ∧ previous.startOfSackRange ≤ n := by
  have hl := itemsBelow_append_itemsAbove n l
  rcases List.eq_nil_or_concat (itemsBelow n l) with h | ⟨init, previous, h⟩
  · left
    refine ⟨by rw [findRangeBelowNumber, h, List.getLast?_nil], h, ?_⟩
    rwa [h, List.nil_append] at hl
  · right
    rw [List.concat_eq_append] at h
    refine ⟨init, previous, _, by rw [findRangeBelowNumber, h, List.getLast?_concat], h, rfl,
      ?_, ?_⟩
    · calc l = itemsBelow n l ++ itemsAbove n l := hl.symm
        _ = init ++ previous :: itemsAbove n l := by rw [h]; simp
    · have hmem : previous ∈ below SackItem.startOfSackRange n l := by
        simp [← hnear.itemsBelow_eq.1, h]
      exact lo_le_of_mem_below hmem

theorem lt_start_of_mem_itemsAbove (hl : SackSeparated l) (hnear : SackNear n l)
    (h : item ∈ itemsAbove n l) : n < item.startOfSackRange :=
  lt_lo_of_mem_above hl.lo_lt (hnear.itemsBelow_eq.2 ▸ h)

/-- **Lookup.** On a canonical list the query of the code is membership in the set. -/
theorem isPnAlreadyReceived_iff (hs : SackSeparated s.ackTree) {pn : ℕ}
    (hnear : SackNear pn s.ackTree) :
    isPnAlreadyReceived s pn = true ↔
      (0 < s.horizonDelay ∧ pn < s.ackHorizon) ∨ SackCovers s.ackTree pn := by
  rw [isPnAlreadyReceived]
  by_cases hh : 0 < s.horizonDelay ∧ pn < s.ackHorizon
  · simp [hh]
  · rw [if_neg hh, or_iff_right hh]
    have habove : ∀ b ∈ itemsAbove pn s.ackTree, pn < b.startOfSackRange :=
      fun b hb => lt_start_of_mem_itemsAbove hs hnear hb
    rcases findRangeBelowNumber_cases hnear with
      ⟨hf, -, hl⟩ | ⟨init, previous, post, hf, -, hpost, hl, hp⟩
    · rw [hl] at habove
      simpa [hf] using not_covers_of_lt habove
    · rw [hpost] at habove
      rw [hf, hl]
      rw [hl] at hs
      simpa using (hs.covers_iff_last hp habove).symm

/-- A range that the query of the code finds is covered. -/
theorem covers_of_checkSackList (hs : SackCanonical s.ackTree) (hlt : pnMin < 2 ^ 63)
    (h : checkSackList s pnMin pnMax = true) (hmin : pnMin ≤ n) (hmax : n ≤ pnMax) :
    SackCovers s.ackTree n := by
  rw [checkSackList] at h
  rcases findRangeBelowNumber_cases (hs.near hlt) with
    ⟨hf, -, -⟩ | ⟨init, previous, post, hf, -, -, hl, hp⟩
  · simp [hf] at h
  · rw [hf] at h
    have hend : pnMax ≤ previous.endOfSackRange := of_decide_eq_true h
    exact ⟨previous, by simp [hl], hp.trans hmin, hmax.trans hend⟩

/-! ### Recording a range -/

/-- What the extension of `previous` up to `pnMax` leaves: an item with the same start, followed
by a suffix of the items that followed. -/
structure Extends (pnMax : ℕ) (previous : SackItem) (rest : List SackItem) (item : SackItem)
    (rest' : List SackItem) : Prop where
  start_eq : item.startOfSackRange = previous.startOfSackRange
  suffix : rest'.Sublist rest
  separated : SackSeparated (item :: rest')
  covers : ∀ n, SackCovers (item :: rest') n ↔
    SackCovers (previous :: rest) n ∨ (previous.startOfSackRange ≤ n ∧ n ≤ pnMax)

/-- Extending the last item, or an item whose successor lies beyond `pnMax + 1`, absorbs
nothing. -/
private theorem Extends.of_gap {pnMax : ℕ} {previous item : SackItem}
    (hsep : SackSeparated (previous :: rest)) (hlt : previous.endOfSackRange < pnMax)
    (hgap : ∀ b ∈ rest, pnMax + 1 < b.startOfSackRange)
    (hstart : item.startOfSackRange = previous.startOfSackRange)
    (hend : item.endOfSackRange = pnMax) : Extends pnMax previous rest item rest := by
  obtain ⟨hle, -, hrest⟩ := separated_cons.mp hsep
  refine ⟨hstart, List.Sublist.refl _, separated_cons.mpr ⟨by omega, ?_, hrest⟩, fun n => ?_⟩
  · intro b hb
    rw [hend]
    exact hgap b hb
  · simp only [covers_cons, hstart, hend]
    constructor
    · rintro (h | h)
      · exact Or.inr h
      · exact Or.inl (Or.inr h)
    · rintro ((⟨h, h'⟩ | h) | h)
      · exact Or.inl ⟨h, by omega⟩
      · exact Or.inr h
      · exact Or.inl h

private theorem Extends.refl {pnMax : ℕ} (hsep : SackSeparated (previous :: rest))
    (hle : pnMax ≤ previous.endOfSackRange) : Extends pnMax previous rest previous rest := by
  refine ⟨rfl, List.Sublist.refl _, hsep, fun n => ⟨Or.inl, ?_⟩⟩
  rintro (h | ⟨h, h'⟩)
  · exact h
  · exact covers_cons.mpr (Or.inl ⟨h, by omega⟩)

/-- The loop of `picoquic_update_sack_list` extends its item. -/
theorem extendLoop_spec (pnMax currentTime : ℕ) (rc : RangeCounts)
    (hsep : SackSeparated (previous :: rest)) (hlt : ∀ b ∈ rest, b.startOfSackRange < 2 ^ 64) :
    Extends pnMax previous rest (extendLoop pnMax currentTime rc previous rest).2.1
      (extendLoop pnMax currentTime rc previous rest).2.2 := by
  induction rest generalizing rc previous with
  | nil =>
    rw [extendLoop]
    split_ifs with hend
    · exact Extends.of_gap hsep hend (by simp) rfl rfl
    · exact Extends.refl hsep (by omega)
  | cons next rest ih =>
    obtain ⟨hle, hgap, hrest⟩ := separated_cons.mp hsep
    have hnext := hgap next List.mem_cons_self
    have hsub : sub64 next.startOfSackRange 1 = next.startOfSackRange - 1 :=
      sub64_of_le (by omega) (hlt next List.mem_cons_self)
    rw [extendLoop]
    split_ifs with hend hover
    · refine Extends.of_gap hsep hend (fun b hb => ?_) rfl rfl
      have hnb : next.startOfSackRange ≤ b.startOfSackRange := by
        rcases List.mem_cons.mp hb with rfl | hb
        · exact le_rfl
        · exact le_of_lt ((List.pairwise_cons.mp hrest.lo_lt).1 b hb)
      omega
    · -- the range of `next` joins that of `previous`, and the loop goes on
      obtain ⟨hnle, hngap, hnrest⟩ := separated_cons.mp hrest
      have hm : SackSeparated (freshItem previous.startOfSackRange next.endOfSackRange
          (max previous.timeCreated next.timeCreated) :: rest) :=
        separated_cons.mpr ⟨show previous.startOfSackRange ≤ next.endOfSackRange by omega, hngap,
          hnrest⟩
      have h := ih (uncountItem (recordReset rc previous) next) hm
        fun b hb => hlt b (List.mem_cons_of_mem _ hb)
      refine ⟨h.start_eq, h.suffix.trans (List.sublist_cons_self _ _), h.separated, fun n => ?_⟩
      refine (h.covers n).trans ?_
      simp only [covers_cons, freshItem]
      constructor
      · rintro ((⟨h1, h2⟩ | h1) | h1)
        · by_cases hn : n ≤ pnMax
          · exact Or.inr ⟨h1, hn⟩
          · exact Or.inl (Or.inr (Or.inl ⟨by omega, h2⟩))
        · exact Or.inl (Or.inr (Or.inr h1))
        · exact Or.inr h1
      · rintro ((⟨h1, h2⟩ | ⟨h1, h2⟩ | h1) | h1)
        · exact Or.inl (Or.inl ⟨h1, by omega⟩)
        · exact Or.inl (Or.inl ⟨by omega, h2⟩)
        · exact Or.inl (Or.inr h1)
        · exact Or.inr h1
    · exact Extends.refl hsep (by omega)

/-- Inserting between items that stay away from the new range. -/
private theorem insertItem_spec {pnMin pnMax currentTime : ℕ} (hs : SackSeparated s.ackTree)
    (hle : pnMin ≤ pnMax) (hbelow : ∀ b ∈ itemsBelow pnMin s.ackTree, b.endOfSackRange + 1 < pnMin)
    (habove : ∀ b ∈ itemsAbove pnMin s.ackTree, pnMax + 1 < b.startOfSackRange) :
    SackSeparated (insertItem s pnMin pnMax currentTime).ackTree ∧
      ∀ n, SackCovers (insertItem s pnMin pnMax currentTime).ackTree n ↔
        SackCovers s.ackTree n ∨ (pnMin ≤ n ∧ n ≤ pnMax) := by
  have hl := itemsBelow_append_itemsAbove pnMin s.ackTree
  obtain ⟨hsb, hsa, -⟩ := separated_append.mp (hl.symm ▸ hs)
  constructor
  · exact separated_append_cons hsb (separated_cons.mpr ⟨hle, habove, hsa⟩) hbelow
  · intro n
    conv_rhs => rw [← hl]
    simp only [insertItem, covers_append, covers_cons]
    constructor
    · rintro (h | h | h)
      · exact Or.inl (Or.inl h)
      · exact Or.inr h
      · exact Or.inl (Or.inr h)
    · rintro ((h | h) | h)
      · exact Or.inl h
      · exact Or.inr (Or.inr h)
      · exact Or.inr (Or.inl h)

/-- Extending an item in the middle of a canonical list. -/
private theorem extendFrom_spec (s : SackList) (pnMax currentTime : ℕ) {init rest : List SackItem}
    (rc : RangeCounts) (hinit : SackSeparated init) (hsep : SackSeparated (previous :: rest))
    (hlt : ∀ b ∈ rest, b.startOfSackRange < 2 ^ 64)
    (hcross : ∀ a ∈ init, a.endOfSackRange + 1 < previous.startOfSackRange) :
    SackSeparated (extendFrom s pnMax currentTime init rc previous rest).ackTree ∧
      ∀ n, SackCovers (extendFrom s pnMax currentTime init rc previous rest).ackTree n ↔
        SackCovers (init ++ previous :: rest) n ∨
          (previous.startOfSackRange ≤ n ∧ n ≤ pnMax) := by
  have h := extendLoop_spec pnMax currentTime rc hsep hlt
  constructor
  · exact separated_append_cons hinit h.separated fun a ha => by
      rw [h.start_eq]
      exact hcross a ha
  · intro n
    rw [extendFrom, SackCovers, SackCovers, covers_append, covers_append, or_assoc]
    exact or_congr_right (h.covers n)

/-- The case in which no item reaches the range from below. -/
private theorem recordAbove_spec {pnMin pnMax currentTime : ℕ} (hsep : SackSeparated s.ackTree)
    (hlt : ∀ b ∈ s.ackTree, b.startOfSackRange < 2 ^ 64) (hnear : SackNear pnMin s.ackTree)
    (hle : pnMin ≤ pnMax)
    (hbelow : ∀ b ∈ itemsBelow pnMin s.ackTree, b.endOfSackRange + 1 < pnMin) :
    SackSeparated (recordAbove s pnMin pnMax currentTime).ackTree ∧
      ∀ n, SackCovers (recordAbove s pnMin pnMax currentTime).ackTree n ↔
        SackCovers s.ackTree n ∨ (pnMin ≤ n ∧ n ≤ pnMax) := by
  have hl := itemsBelow_append_itemsAbove pnMin s.ackTree
  have habove : ∀ b ∈ itemsAbove pnMin s.ackTree, pnMin < b.startOfSackRange :=
    fun b hb => lt_start_of_mem_itemsAbove hsep hnear hb
  rw [recordAbove]
  cases hab : itemsAbove pnMin s.ackTree with
  | nil => exact insertItem_spec hsep hle hbelow (by simp [hab])
  | cons next rest =>
    rw [hab] at hl habove
    obtain ⟨hsb, hsa, -⟩ := separated_append.mp (hl.symm ▸ hsep)
    obtain ⟨hnle, hngap, hnrest⟩ := separated_cons.mp hsa
    have hnext := habove next List.mem_cons_self
    have hlt' : ∀ b ∈ next :: rest, b.startOfSackRange < 2 ^ 64 := fun b hb =>
      hlt b (hl ▸ List.mem_append_right _ hb)
    have hsub : sub64 next.startOfSackRange 1 = next.startOfSackRange - 1 :=
      sub64_of_le (by omega) (hlt' next List.mem_cons_self)
    simp only
    split_ifs with hover
    · refine insertItem_spec hsep hle hbelow fun b hb => ?_
      rw [hab] at hb
      rcases List.mem_cons.mp hb with rfl | hb
      · omega
      · have := hngap b hb
        omega
    · -- `next` is extended to `pnMin`, which closes the numbers in between
      have hgap : SackSeparated (freshItem pnMin next.endOfSackRange currentTime :: rest) :=
        separated_cons.mpr ⟨show pnMin ≤ next.endOfSackRange by omega, hngap, hnrest⟩
      have h := extendFrom_spec s pnMax currentTime (recordReset s.rangeCounts next) hsb hgap
        (fun b hb => hlt' b (List.mem_cons_of_mem _ hb)) hbelow
      refine ⟨h.1, fun n => (h.2 n).trans ?_⟩
      conv_rhs => rw [← hl]
      simp only [covers_append, covers_cons, freshItem]
      constructor
      · rintro ((h | ⟨h1, h2⟩ | h) | h)
        · exact Or.inl (Or.inl h)
        · by_cases hn : n ≤ pnMax
          · exact Or.inr ⟨h1, hn⟩
          · exact Or.inl (Or.inr (Or.inl ⟨by omega, h2⟩))
        · exact Or.inl (Or.inr (Or.inr h))
        · exact Or.inr h
      · rintro ((h | ⟨h1, h2⟩ | h) | h)
        · exact Or.inl (Or.inl h)
        · exact Or.inl (Or.inr (Or.inl ⟨by omega, h2⟩))
        · exact Or.inl (Or.inr (Or.inr h))
        · exact Or.inr h

/-- The item that the range of a search starts in ends with the largest 64-bit number: the number
beyond it, at which the code stops looking, is then `0`. -/
def TopItem (l : List SackItem) (pnMin : ℕ) : Prop :=
  ∃ item ∈ l, item.startOfSackRange ≤ pnMin ∧ item.endOfSackRange = 2 ^ 64 - 1

theorem u64_end_lt_iff {pnMin : ℕ} (hclear : pnMin = 0 ∨ ¬ TopItem l pnMin) (hmem : previous ∈ l)
    (hstart : previous.startOfSackRange ≤ pnMin) (hend : previous.endOfSackRange < 2 ^ 64) :
    u64 (previous.endOfSackRange + 1) < pnMin ↔ previous.endOfSackRange + 1 < pnMin := by
  by_cases hmax : previous.endOfSackRange = 2 ^ 64 - 1
  · have hzero := hclear.resolve_right fun h => h ⟨previous, hmem, hstart, hmax⟩
    omega
  · rw [u64_of_lt (by omega)]

/-- **Recording a range is set union**, and keeps the items separated, unless the range starts
beyond `0` in an item that ends with the largest 64-bit number. -/
theorem recordRange_union (hs : SackSeparated s.ackTree)
    (hlt : ∀ b ∈ s.ackTree, b.endOfSackRange < 2 ^ 64) (hnear : SackNear pnMin s.ackTree)
    (hle : pnMin ≤ pnMax) (hclear : pnMin = 0 ∨ ¬ TopItem s.ackTree pnMin) (currentTime : ℕ) :
    SackSeparated (recordRange s pnMin pnMax currentTime).1.ackTree ∧
      ∀ n, SackCovers (recordRange s pnMin pnMax currentTime).1.ackTree n ↔
        SackCovers s.ackTree n ∨ (pnMin ≤ n ∧ n ≤ pnMax) := by
  have hstart : ∀ b ∈ s.ackTree, b.startOfSackRange < 2 ^ 64 := fun b hb => by
    have := hs.le b hb
    have := hlt b hb
    omega
  rw [recordRange]
  rcases findRangeBelowNumber_cases hnear with
    ⟨hf, hbelow, -⟩ | ⟨init, previous, post, hf, hbelow, hpost, hl, hp⟩
  · rw [hf]
    exact recordAbove_spec hs hstart hnear hle (by simp [hbelow])
  · have hsep := hs
    rw [hl] at hsep
    obtain ⟨hinit, hprev, hcross⟩ := separated_append.mp hsep
    have hmem : previous ∈ s.ackTree := by simp [hl]
    have hend := hlt previous hmem
    rw [hf]
    simp only [u64_end_lt_iff hclear hmem hp hend]
    by_cases hover : previous.endOfSackRange + 1 < pnMin
    · rw [if_pos hover]
      refine recordAbove_spec hs hstart hnear hle fun b hb => ?_
      rw [hbelow] at hb
      rcases List.mem_append.mp hb with hb | hb
      · have := hcross b hb previous List.mem_cons_self
        omega
      · rw [List.mem_singleton.mp hb]
        exact hover
    · rw [if_neg hover]
      have h := extendFrom_spec s pnMax currentTime s.rangeCounts hinit hprev
        (fun b hb => hstart b (hl ▸ List.mem_append_right _ (List.mem_cons_of_mem _ hb)))
        fun a ha => hcross a ha previous List.mem_cons_self
      simp only [hbelow, List.dropLast_concat, hpost]
      refine ⟨h.1, fun n => (h.2 n).trans ?_⟩
      rw [← hl]
      constructor
      · rintro (hn | ⟨h1, h2⟩)
        · exact Or.inl hn
        · by_cases hn : n ≤ previous.endOfSackRange
          · exact Or.inl ⟨previous, hmem, h1, hn⟩
          · exact Or.inr ⟨by omega, h2⟩
      · rintro (hn | ⟨h1, h2⟩)
        · exact Or.inl hn
        · exact Or.inr ⟨by omega, h2⟩

/-- On a canonical list nothing reaches the largest 64-bit number. -/
theorem recordRange_spec (hs : SackCanonical s.ackTree) (hmin : pnMin < 2 ^ 63)
    (hle : pnMin ≤ pnMax) (currentTime : ℕ) :
    SackSeparated (recordRange s pnMin pnMax currentTime).1.ackTree ∧
      ∀ n, SackCovers (recordRange s pnMin pnMax currentTime).1.ackTree n ↔
        SackCovers s.ackTree n ∨ (pnMin ≤ n ∧ n ≤ pnMax) := by
  refine recordRange_union hs.separated (fun b hb => ?_) (hs.near hmin) hle (Or.inr ?_) currentTime
  · have := hs.end_lt hb
    omega
  · rintro ⟨item, hi, -, hend⟩
    have := hs.end_lt hi
    omega

@[simp]
private theorem recordAbove_horizonDelay (s : SackList) (pnMin pnMax currentTime : ℕ) :
    (recordAbove s pnMin pnMax currentTime).horizonDelay = s.horizonDelay := by
  rw [recordAbove]
  split
  · rfl
  · split_ifs <;> rfl

@[simp]
private theorem recordAbove_ackHorizon (s : SackList) (pnMin pnMax currentTime : ℕ) :
    (recordAbove s pnMin pnMax currentTime).ackHorizon = s.ackHorizon := by
  rw [recordAbove]
  split
  · rfl
  · split_ifs <;> rfl

/-- Recording a range does not touch the horizon. -/
theorem recordRange_horizon (s : SackList) (pnMin pnMax currentTime : ℕ) :
    (recordRange s pnMin pnMax currentTime).1.horizonDelay = s.horizonDelay ∧
      (recordRange s pnMin pnMax currentTime).1.ackHorizon = s.ackHorizon := by
  rw [recordRange]
  cases findRangeBelowNumber s.ackTree pnMin with
  | none => simp
  | some previous =>
    by_cases h : u64 (previous.endOfSackRange + 1) < pnMin
    · simp [h]
    · simp [h, extendFrom]

theorem updateSackList_eq_recordRange (hdelay : s.horizonDelay = 0) (pnMin pnMax currentTime : ℕ) :
    updateSackList s pnMin pnMax currentTime = recordRange s pnMin pnMax currentTime := by
  have hkept := (recordRange_horizon s pnMin pnMax currentTime).1
  rw [hdelay] at hkept
  rw [updateSackList]
  simp [hkept]

theorem updateSackList_spec (hs : SackCanonical s.ackTree) (hdelay : s.horizonDelay = 0)
    (hmin : pnMin < 2 ^ 63) (hle : pnMin ≤ pnMax) (currentTime : ℕ) :
    (updateSackList s pnMin pnMax currentTime).1.horizonDelay = 0 ∧
      SackSeparated (updateSackList s pnMin pnMax currentTime).1.ackTree ∧
        ∀ n, SackCovers (updateSackList s pnMin pnMax currentTime).1.ackTree n ↔
          SackCovers s.ackTree n ∨ (pnMin ≤ n ∧ n ≤ pnMax) := by
  obtain ⟨hsep, hcov⟩ := recordRange_spec hs hmin hle currentTime
  have hkept := (recordRange_horizon s pnMin pnMax currentTime).1
  rw [hdelay] at hkept
  rw [updateSackList_eq_recordRange hdelay]
  exact ⟨hkept, hsep, hcov⟩

/-! ### The horizon -/

/-- What `picoquic_update_ack_horizon` does: a suffix of the items stays, the horizon does not
move back, and the numbers that left are below it while those that stay are not. -/
structure HorizonMoves (l : List SackItem) (horizon : ℕ) (l' : List SackItem) (horizon' : ℕ) :
    Prop where
  suffix : l'.Sublist l
  le : horizon ≤ horizon'
  kept : ∀ n, SackCovers l n → SackCovers l' n ∨ n < horizon'
  above : ∀ n, SackCovers l' n → horizon' ≤ n

theorem ackHorizonLoop_spec (horizonDelay : ℤ) (currentTime : ℕ) (rc : RangeCounts) {horizon : ℕ}
    (hl : SackCanonical l) (hh : ∀ n, SackCovers l n → horizon ≤ n) :
    HorizonMoves l horizon (ackHorizonLoop horizonDelay currentTime rc horizon l).2.2
      (ackHorizonLoop horizonDelay currentTime rc horizon l).2.1 := by
  have hstay : HorizonMoves l horizon l horizon :=
    ⟨List.Sublist.refl _, le_rfl, fun _ => Or.inl, hh⟩
  induction l generalizing rc horizon with
  | nil => exact hstay
  | cons first rest ih =>
    cases rest with
    | nil => exact hstay
    | cons next rest =>
      rw [ackHorizonLoop]
      split_ifs with hdrop
      · -- `first` leaves the list, and every other item starts beyond its end
        have hend := hl.end_lt (List.mem_cons_self (a := first))
        have hfirst := hl.start_le (List.mem_cons_self (a := first))
        have hgap := (separated_cons.mp hl.separated).2.1
        have hge : horizon ≤ first.startOfSackRange :=
          hh _ ⟨first, List.mem_cons_self, le_rfl, hfirst⟩
        have hrest : ∀ n, SackCovers (next :: rest) n → first.endOfSackRange + 1 ≤ n := by
          rintro n ⟨item, hi, hin, -⟩
          have := hgap item hi
          omega
        rw [u64_of_lt (by omega)]
        have h := ih (uncountItem rc first) (hl.sublist (List.sublist_cons_self _ _)) hrest
          ⟨List.Sublist.refl _, le_rfl, fun _ => Or.inl, hrest⟩
        refine ⟨h.suffix.trans (List.sublist_cons_self _ _), ?_, fun n hn => ?_, h.above⟩
        · have := h.le
          omega
        · rcases covers_cons.mp hn with ⟨-, hn⟩ | hn
          · have := h.le
            exact Or.inr (by omega)
          · exact h.kept n hn
      · exact hstay

/-! ### Acknowledged acknowledgements -/

/-- The numbers an acknowledged range prunes, read off the list before: they are in the item
that starts where the range starts. Of the highest item the numbers of the range go, its last
number excepted; another item goes as a whole if the range ends with it and there is no horizon
delay. -/
def PrunedByAckOfAck (s : SackList) (startOfRange endOfRange pn : ℕ) : Prop :=
  match findRangeBelowNumber s.ackTree startOfRange with
  | none => False
  | some item =>
    item.startOfSackRange = startOfRange ∧ startOfRange ≤ pn ∧ pn ≤ item.endOfSackRange ∧
      if itemsAbove startOfRange s.ackTree = [] then pn ≤ endOfRange ∧ pn < item.endOfSackRange
      else item.endOfSackRange = endOfRange ∧ s.horizonDelay ≤ 0

/-- Pruning is decided by the items. -/
instance (s : SackList) (startOfRange endOfRange pn : ℕ) :
    Decidable (PrunedByAckOfAck s startOfRange endOfRange pn) :=
  match h : findRangeBelowNumber s.ackTree startOfRange with
  | none => isFalse (by simp [PrunedByAckOfAck, h])
  | some item =>
    decidable_of_iff
      (item.startOfSackRange = startOfRange ∧ startOfRange ≤ pn ∧ pn ≤ item.endOfSackRange ∧
        if (itemsAbove startOfRange s.ackTree).isEmpty then
          pn ≤ endOfRange ∧ pn < item.endOfSackRange
        else item.endOfSackRange = endOfRange ∧ s.horizonDelay ≤ 0)
      (by simp [PrunedByAckOfAck, h, List.isEmpty_iff])

/-- Pruning does not touch the horizon. -/
theorem processAckOfAckRange_horizon (s : SackList) (startOfRange endOfRange : ℕ) :
    (processAckOfAckRange s startOfRange endOfRange).horizonDelay = s.horizonDelay ∧
      (processAckOfAckRange s startOfRange endOfRange).ackHorizon = s.ackHorizon := by
  rw [processAckOfAckRange]
  cases findRangeBelowNumber s.ackTree startOfRange with
  | none => simp
  | some previous =>
    cases itemsAbove startOfRange s.ackTree with
    | nil =>
      dsimp only
      split_ifs <;> simp
    | cons next rest =>
      dsimp only
      split_ifs <;> simp

/-- No item starts where a range starts that is not of 62-bit numbers. -/
theorem processAckOfAckRange_of_far (hs : SackCanonical s.ackTree) {startOfRange : ℕ}
    (hfar : 2 ^ 63 ≤ startOfRange) (endOfRange : ℕ) :
    processAckOfAckRange s startOfRange endOfRange = s ∧
      ∀ n, ¬ PrunedByAckOfAck s startOfRange endOfRange n := by
  simp only [processAckOfAckRange, PrunedByAckOfAck]
  cases hf : findRangeBelowNumber s.ackTree startOfRange with
  | none => exact ⟨rfl, fun _ => id⟩
  | some previous =>
    have hmem : previous ∈ s.ackTree := (List.takeWhile_sublist _).subset (List.mem_of_getLast? hf)
    have hle := hs.start_le hmem
    have hlt := hs.end_lt hmem
    have hne : previous.startOfSackRange ≠ startOfRange := by omega
    exact ⟨if_neg hne, fun _ h => hne h.1⟩

/-- **An acknowledged acknowledgement removes exactly the numbers it prunes**, and keeps the
list canonical. -/
theorem processAckOfAckRange_spec {startOfRange endOfRange : ℕ} (hs : SackCanonical s.ackTree)
    (hle : startOfRange ≤ endOfRange) :
    SackSeparated (processAckOfAckRange s startOfRange endOfRange).ackTree ∧
      ∀ n, SackCovers (processAckOfAckRange s startOfRange endOfRange).ackTree n ↔
        SackCovers s.ackTree n ∧ ¬ PrunedByAckOfAck s startOfRange endOfRange n := by
  have hsep := hs.separated
  by_cases hfar : 2 ^ 63 ≤ startOfRange
  · obtain ⟨heq, hnone⟩ := processAckOfAckRange_of_far hs hfar endOfRange
    exact heq.symm ▸ ⟨hsep, fun n => (and_iff_left (hnone n)).symm⟩
  rw [processAckOfAckRange]
  rcases findRangeBelowNumber_cases (hs.near (not_le.mp hfar)) with
    ⟨hf, -, -⟩ | ⟨init, previous, post, hf, hbelow, hpost, hl, -⟩
  · exact ⟨by rw [hf]; exact hsep, fun n => by rw [hf]; simp [PrunedByAckOfAck, hf]⟩
  · have hend := hs.end_lt (show previous ∈ s.ackTree by simp [hl])
    simp only [hf, PrunedByAckOfAck, hbelow, hpost, List.dropLast_concat]
    by_cases hstart : previous.startOfSackRange = startOfRange
    swap
    · simp only [if_neg hstart]
      exact ⟨hsep, fun n => by simp [hstart]⟩
    rw [hl] at hsep
    obtain ⟨hinit, hprev, hcross⟩ := separated_append.mp hsep
    obtain ⟨hple, hpgap, hpost'⟩ := separated_cons.mp hprev
    have hbefore : ∀ a ∈ init, a.endOfSackRange + 1 < startOfRange := fun a ha =>
      hstart ▸ hcross a ha previous List.mem_cons_self
    have hinitlt : ∀ n, SackCovers init n → n < startOfRange := by
      rintro n ⟨a, ha, -, han⟩
      have := hbefore a ha
      omega
    simp only [if_pos hstart]
    cases post with
    | nil =>
      -- the highest item is cut down
      have hnew : startOfRange ≤ (if endOfRange < previous.endOfSackRange then
          u64 (endOfRange + 1) else previous.endOfSackRange) ∧
          (if endOfRange < previous.endOfSackRange then u64 (endOfRange + 1)
            else previous.endOfSackRange) ≤ previous.endOfSackRange := by
        split_ifs with h
        · rw [u64_of_lt (by omega)]
          omega
        · omega
      constructor
      · refine separated_append_cons hinit (separated_cons.mpr ⟨hnew.2, by simp, separated_nil⟩)
          fun a ha => ?_
        have := hbefore a ha
        exact lt_of_lt_of_le this hnew.1
      · intro n
        have hn := hinitlt n
        simp only [hl, covers_append, covers_cons, covers_nil, or_false, hstart, true_and, if_true]
        split_ifs with h
        on_goal 1 => rw [u64_of_lt (by omega)]
        all_goals
          constructor
          · rintro (h1 | ⟨h1, h2⟩)
            · exact ⟨Or.inl h1, by have := hn h1; omega⟩
            · exact ⟨Or.inr ⟨by omega, h2⟩, by omega⟩
          · rintro ⟨h1 | ⟨h1, h2⟩, h3⟩
            · exact Or.inl h1
            · exact Or.inr ⟨by omega, h2⟩
    | cons next rest =>
      by_cases hmatch : previous.endOfSackRange = endOfRange
      swap
      · simp only [if_neg hmatch]
        exact ⟨hl ▸ hsep, fun n => by simp [hmatch]⟩
      by_cases hdelay : 0 < s.horizonDelay
      · -- the item stays, and is not sent any more
        simp only [if_pos hmatch, if_pos hdelay]
        refine ⟨separated_append_cons hinit (separated_cons.mpr ⟨hple, hpgap, hpost'⟩) fun a ha =>
          hcross a ha previous List.mem_cons_self, fun n => ?_⟩
        rw [hl]
        simp [retireItem, not_le.mpr hdelay]
      · -- the item leaves the list
        simp only [if_pos hmatch, if_neg hdelay]
        have hsub : (init ++ next :: rest).Sublist (init ++ previous :: next :: rest) :=
          List.Sublist.append_left (List.sublist_cons_self _ _) init
        refine ⟨hsep.sublist hsub, fun n => ?_⟩
        have hn := hinitlt n
        have hrest : SackCovers (next :: rest) n → previous.endOfSackRange + 1 < n := by
          rintro ⟨b, hb, hbn, -⟩
          have := hpgap b hb
          omega
        rw [hl]
        simp only [covers_append, covers_cons (a := previous), hstart, hmatch, true_and,
          reduceCtorEq, if_false, not_lt.mp hdelay, and_true]
        constructor
        · rintro (h1 | h1)
          · exact ⟨Or.inl h1, by have := hn h1; omega⟩
          · exact ⟨Or.inr (Or.inr h1), by have := hrest h1; omega⟩
        · rintro ⟨h1 | h1 | h1, h2⟩
          · exact Or.inl h1
          · exact absurd h1 h2
          · exact Or.inr h1

end Picoquic
