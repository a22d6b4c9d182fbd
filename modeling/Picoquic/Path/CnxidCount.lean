import Picoquic.Path.LocalCnxids
import Picoquic.Wire.ControlSound

/-!
# Counting local connection identifiers

* **`cnxids_counted`** — in a run in which time does not go back and every identifier that is
  created can be announced in the packet at hand, the counters agree with the list, and there are
  no more identifiers than the peer allows;
* **`cnxid_lost_in_rollback`** — an announcement that does not fit is undone, and the identifier is
  subtracted twice. Later there is one more than the peer allows.
-/

namespace Picoquic

open Runs

namespace CidCnx

/-! ### Counters that agree -/

/-- The number of identifiers that have not expired. -/
def unexpired (c : CidCnx) : ℕ := c.localCnxids.countP (c.localCnxidRetireBefore ≤ ·.sequence)

/-- The counters agree with the list, and the list keeps to the limit. -/
structure Counted (c : CidCnx) : Prop where
  number : c.nbLocalCnxid = c.localCnxids.length
  distinct : (c.localCnxids.map (·.sequence)).Nodup
  below : ∀ cid ∈ c.localCnxids, cid.sequence < c.localCnxidSequenceNext
  expired : c.nbLocalCnxidExpired =
    (c.localCnxids.countP (·.sequence < c.localCnxidRetireBefore) : ℕ)
  limited : c.unexpired ≤ max c.activeConnectionIdLimit 2

/-! ### Expiry -/

/-- The identifiers are looked through for expired ones. -/
def Due (c : CidCnx) (currentTime : ℕ) : Prop :=
  c.localCnxidTtl ≤ currentTime - c.localCnxidOldestCreated

/-- This identifier is too old. -/
def Expires (c : CidCnx) (currentTime : ℕ) (cid : LocalCnxid) : Prop :=
  c.localCnxidTtl ≤ currentTime - cid.createTime

instance (c : CidCnx) (currentTime : ℕ) : Decidable (c.Due currentTime) :=
  inferInstanceAs (Decidable (_ ≤ _))

instance (c : CidCnx) (currentTime : ℕ) : DecidablePred (c.Expires currentTime) :=
  fun _ => inferInstanceAs (Decidable (_ ≤ _))

/-- `local_cnxid_retire_before`, when these identifiers have been looked through. -/
def raised (c : CidCnx) (currentTime : ℕ) (l : List LocalCnxid) : ℕ :=
  l.foldl (fun r cid => if c.Expires currentTime cid then max r (cid.sequence + 1) else r)
    c.localCnxidRetireBefore

/-- `local_cnxid_retire_before` at this time. -/
def retireBeforeAt (c : CidCnx) (currentTime : ℕ) : ℕ :=
  if c.Due currentTime then c.raised currentTime c.localCnxids else c.localCnxidRetireBefore

/-- The number of identifiers that are not expired at this time. -/
def unexpiredAt (c : CidCnx) (currentTime : ℕ) : ℕ :=
  if c.Due currentTime then c.localCnxids.countP (¬ c.Expires currentTime ·) else c.unexpired

/-- How many identifiers are missing, if so many are not expired. -/
def missing (c : CidCnx) (unexpired : ℕ) : ℕ := min c.intLimit.toNat (nbPathTarget + 1) - unexpired

/-- The length of a NEW_CONNECTION_ID frame. -/
def announcementLength (length retireBefore sequence : ℕ) : ℕ :=
  1 + encodeVarintLength sequence + encodeVarintLength retireBefore + 1 + length + resetSecretSize

/-- The identifiers that `n` successive creations find, up to the first one that finds none. -/
def foundCnxids (c : CidCnx) : ℕ → List CnxidSearch → List ConnectionId
  | n + 1, x :: drawn => (c.found x).elim [] fun cnxId => cnxId.take 20 :: c.foundCnxids n drawn
  | _, _ => []

/-- The length of the frames of these identifiers, for successive sequence numbers. -/
def announcementsLength (retireBefore : ℕ) : ℕ → List ConnectionId → ℕ
  | _, [] => 0
  | sequence, cnxId :: cnxIds =>
    announcementLength cnxId.length retireBefore sequence +
      announcementsLength retireBefore (sequence + 1) cnxIds

/-- The announcements of these identifiers fit. Identifiers without length are not announced. -/
def Room (c : CidCnx) (retireBefore : ℕ) (space : Space) (cnxIds : List ConnectionId) : Prop :=
  (∀ cnxId ∈ cnxIds, cnxId ≠ []) ∧
    announcementsLength retireBefore c.localCnxidSequenceNext cnxIds ≤ space

instance (c : CidCnx) (retireBefore : ℕ) (space : Space) (cnxIds : List ConnectionId) :
    Decidable (c.Room retireBefore space cnxIds) :=
  inferInstanceAs (Decidable (_ ∧ _))

/-- Time has not gone back since these identifiers were created. -/
def NotBefore (c : CidCnx) (currentTime : ℕ) : Prop :=
  c.localCnxidOldestCreated ≤ currentTime ∧ ∀ cid ∈ c.localCnxids, cid.createTime ≤ currentTime

instance (c : CidCnx) (currentTime : ℕ) : Decidable (c.NotBefore currentTime) :=
  inferInstanceAs (Decidable (_ ∧ _))

/-- Time does not go back, and there is room to announce the identifiers that are missing, as far
as they can be created. -/
def Announces (c : CidCnx) : Event → Prop
  | .format a => c.isAlmostReady = true → c.NotBefore a.currentTime ∧
      c.Room (c.retireBeforeAt a.currentTime) a.space
        (c.foundCnxids (c.missing (c.unexpiredAt a.currentTime)) a.drawn)
  | .transportParameters _ | .almostReady | .retire _ _ | .usePaths _
  | .setDefaultConnectionIdTtl _ => True

instance : ∀ (c : CidCnx) (e : Event), Decidable (c.Announces e)
  | c, .format a => inferInstanceAs (Decidable (c.isAlmostReady = true →
      c.NotBefore a.currentTime ∧ c.Room (c.retireBeforeAt a.currentTime) a.space
        (c.foundCnxids (c.missing (c.unexpiredAt a.currentTime)) a.drawn)))
  | _, .transportParameters _ | _, .almostReady | _, .retire _ _ | _, .usePaths _
  | _, .setDefaultConnectionIdTtl _ => inferInstanceAs (Decidable True)

/-! ### The invariant -/

/-- The counters agree with the list, which is in order of creation. The identifiers that have
expired are older than `local_cnxid_oldest_created`. -/
structure Listed (c : CidCnx) : Prop where
  number : c.nbLocalCnxid = c.localCnxids.length
  distinct : (c.localCnxids.map (·.sequence)).Nodup
  below : ∀ cid ∈ c.localCnxids, cid.sequence < c.localCnxidSequenceNext
  expired : c.nbLocalCnxidExpired =
    (c.localCnxids.countP (·.sequence < c.localCnxidRetireBefore) : ℕ)
  ordered : ∀ cid ∈ c.localCnxids, ∀ cid' ∈ c.localCnxids, cid.sequence ≤ cid'.sequence →
    cid.createTime ≤ cid'.createTime
  old : ∀ cid ∈ c.localCnxids, cid.sequence < c.localCnxidRetireBefore →
    cid.createTime ≤ c.localCnxidOldestCreated
  retireBefore_le : c.localCnxidRetireBefore ≤ c.localCnxidSequenceNext

/-- There are not more identifiers than allowed, and at most two before the limit is settled. -/
structure Sound (c : CidCnx) : Prop extends c.Listed where
  limited : c.unexpired ≤ max c.activeConnectionIdLimit 2
  handshake : c.isAlmostReady = false → c.unexpired ≤ 2
  next_pos : 0 < c.localCnxidSequenceNext

/-- What the list of identifiers depends on. -/
def listing (c : CidCnx) : ℤ × List LocalCnxid × ℕ × ℤ × ℕ × ℕ :=
  (c.nbLocalCnxid, c.localCnxids, c.localCnxidSequenceNext, c.nbLocalCnxidExpired,
    c.localCnxidRetireBefore, c.localCnxidOldestCreated)

private theorem Listed.of_listing {c c' : CidCnx} (h : c.Listed) (heq : c'.listing = c.listing) :
    c'.Listed := by
  simp only [listing, Prod.mk.injEq] at heq
  obtain ⟨hnb, hcnxids, hnext, hexpired, hbefore, holdest⟩ := heq
  constructor
  · rw [hnb, hcnxids]
    exact h.number
  · rw [hcnxids]
    exact h.distinct
  · rw [hcnxids, hnext]
    exact h.below
  · rw [hexpired, hcnxids, hbefore]
    exact h.expired
  · rw [hcnxids]
    exact h.ordered
  · rw [hcnxids, hbefore, holdest]
    exact h.old
  · rw [hbefore, hnext]
    exact h.retireBefore_le

variable {c : CidCnx} {currentTime : ℕ}

private theorem Sound.counted (h : c.Sound) : c.Counted :=
  ⟨h.number, h.distinct, h.below, h.expired, h.limited⟩

/-- The two counters tell how many identifiers have not expired. -/
theorem Listed.unexpired_eq (h : c.Listed) :
    (c.unexpired : ℤ) = c.nbLocalCnxid - c.nbLocalCnxidExpired := by
  have hsplit := List.length_eq_countP_add_countP
    (fun cid : LocalCnxid => decide (cid.sequence < c.localCnxidRetireBefore)) (l := c.localCnxids)
  have hnot : c.unexpired = c.localCnxids.countP
      (fun cid => decide ¬ decide (cid.sequence < c.localCnxidRetireBefore) = true) := by
    rw [unexpired]
    refine List.countP_congr fun cid _ => ?_
    simp
  have hnumber := h.number
  have hexpired := h.expired
  omega

/-! ### Creation and deletion -/

/-- A new identifier is last in the list, and has not expired. -/
theorem Listed.createLocalCnxid (h : c.Listed) (cnxId : ConnectionId) (currentTime : ℕ)
    (htime : ∀ cid ∈ c.localCnxids, cid.createTime ≤ currentTime) :
    (c.createLocalCnxid cnxId currentTime).Listed where
  number := by
    have := h.number
    simp only [CidCnx.createLocalCnxid, List.length_append, List.length_singleton]
    omega
  distinct := by
    simp only [CidCnx.createLocalCnxid, List.map_append, List.map_singleton]
    refine List.nodup_append.mpr ⟨h.distinct, List.nodup_singleton _, ?_⟩
    intro s hs t ht heq
    obtain ⟨cid, hcid, rfl⟩ := List.mem_map.mp hs
    have hlt := h.below cid hcid
    rw [heq, List.mem_singleton.mp ht] at hlt
    exact lt_irrefl _ hlt
  below := by
    intro cid hcid
    simp only [CidCnx.createLocalCnxid, List.mem_append, List.mem_singleton] at hcid ⊢
    rcases hcid with hcid | rfl
    · exact Nat.lt_succ_of_lt (h.below cid hcid)
    · exact Nat.lt_succ_self _
  expired := by
    have hle := h.retireBefore_le
    have hnew : ¬ (c.newLocalCnxid cnxId currentTime).sequence < c.localCnxidRetireBefore :=
      not_lt.mpr hle
    change c.nbLocalCnxidExpired =
      ((c.localCnxids ++ [c.newLocalCnxid cnxId currentTime]).countP
        (·.sequence < c.localCnxidRetireBefore) : ℕ)
    rw [List.countP_append, List.countP_singleton, if_neg (by simpa using hnew)]
    exact h.expired
  ordered := by
    intro cid hcid cid' hcid' hle
    simp only [CidCnx.createLocalCnxid, List.mem_append, List.mem_singleton] at hcid hcid'
    rcases hcid with hcid | rfl
    · rcases hcid' with hcid' | rfl
      · exact h.ordered cid hcid cid' hcid' hle
      · exact htime cid hcid
    · rcases hcid' with hcid' | rfl
      · exact absurd (h.below cid' hcid') (not_lt.mpr hle)
      · exact le_rfl
  old := by
    intro cid hcid hlt
    simp only [CidCnx.createLocalCnxid, List.mem_append, List.mem_singleton] at hcid
    rcases hcid with hcid | rfl
    · exact h.old cid hcid hlt
    · exact absurd hlt (not_lt.mpr h.retireBefore_le)
  retireBefore_le := Nat.le_succ_of_le h.retireBefore_le

private theorem Listed.unexpired_createLocalCnxid (h : c.Listed) (cnxId : ConnectionId)
    (currentTime : ℕ) :
    (c.createLocalCnxid cnxId currentTime).unexpired = c.unexpired + 1 := by
  have hnew : c.localCnxidRetireBefore ≤ (c.newLocalCnxid cnxId currentTime).sequence :=
    h.retireBefore_le
  change (c.localCnxids ++ [c.newLocalCnxid cnxId currentTime]).countP
    (c.localCnxidRetireBefore ≤ ·.sequence) = _
  rw [List.countP_append, List.countP_singleton, if_pos (by simpa using hnew), unexpired]

/-- A listed identifier is deleted: one place of the list, and its counters. -/
theorem Listed.deleteLocalCnxid (h : c.Listed) {cid : LocalCnxid} (hcid : cid ∈ c.localCnxids) :
    (c.deleteLocalCnxid cid).Listed ∧ (c.deleteLocalCnxid cid).unexpired ≤ c.unexpired := by
  obtain ⟨a, l₁, l₂, -, ha, hl, herase⟩ :=
    List.exists_of_eraseP (p := (·.sequence == cid.sequence)) hcid (beq_self_eq_true _)
  have hseq : a.sequence = cid.sequence := beq_iff_eq.mp ha
  have hany : c.localCnxids.any (·.sequence == cid.sequence) = true :=
    List.any_eq_true.mpr ⟨cid, hcid, beq_self_eq_true _⟩
  have hsub : List.Sublist (l₁ ++ l₂) c.localCnxids :=
    hl ▸ List.Sublist.append_left (List.sublist_cons_self a l₂) l₁
  have hlen : c.localCnxids.length = (l₁ ++ l₂).length + 1 := by
    rw [hl]
    simp [add_assoc]
  have hcount (p : LocalCnxid → Bool) :
      c.localCnxids.countP p = (l₁ ++ l₂).countP p + if p a then 1 else 0 := by
    rw [hl]
    simp only [List.countP_append, List.countP_cons]
    omega
  have hnumber := h.number
  have hexpired := h.expired
  rw [hcount] at hexpired
  -- The expired identifiers are counted, so the counter is positive where it has to go down.
  have heq : c.deleteLocalCnxid cid =
      { c with
        localCnxids := l₁ ++ l₂
        nbLocalCnxid := (l₁ ++ l₂).length
        nbLocalCnxidExpired := ((l₁ ++ l₂).countP (·.sequence < c.localCnxidRetireBefore) : ℕ)
        paths := c.paths.map fun sequence =>
          if sequence = some cid.sequence then none else sequence } := by
    have hnb : c.nbLocalCnxid - 1 = ((l₁ ++ l₂).length : ℕ) := by omega
    rw [CidCnx.deleteLocalCnxid, unlinkLocalCnxid, if_pos hany]
    dsimp only
    rw [herase, hnb]
    simp only [hseq, decide_eq_true_eq] at hexpired
    split_ifs with hif
    · rw [if_pos hif.1] at hexpired
      rw [hexpired]
      simp
    · have hzero : ¬ cid.sequence < c.localCnxidRetireBefore := by
        intro hlt
        rw [if_pos hlt] at hexpired
        exact hif ⟨hlt, by omega⟩
      rw [if_neg hzero] at hexpired
      rw [hexpired]
      simp
  rw [heq]
  refine ⟨⟨rfl, ?_, ?_, rfl, ?_, ?_, h.retireBefore_le⟩, ?_⟩
  · exact h.distinct.sublist (hsub.map _)
  · exact fun cid hcid => h.below cid (hsub.subset hcid)
  · exact fun cid hcid cid' hcid' => h.ordered cid (hsub.subset hcid) cid' (hsub.subset hcid')
  · exact fun cid hcid => h.old cid (hsub.subset hcid)
  · exact hsub.countP_le

/-! ### Expiry -/

private theorem lt_foldl_max (p : LocalCnxid → Prop) [DecidablePred p] (l : List LocalCnxid)
    (r s : ℕ) :
    s < l.foldl (fun r cid => if p cid then max r (cid.sequence + 1) else r) r ↔
      s < r ∨ ∃ cid ∈ l, p cid ∧ s ≤ cid.sequence := by
  induction l generalizing r with
  | nil => simp
  | cons cid l ih =>
    rw [List.foldl_cons, ih]
    by_cases hp : p cid
    · rw [if_pos hp, lt_max_iff, Nat.lt_succ_iff, or_assoc]
      simp [hp]
    · rw [if_neg hp]
      simp [hp]

private theorem le_foldl_min (p : LocalCnxid → Prop) [DecidablePred p] (l : List LocalCnxid)
    (t s : ℕ) :
    s ≤ l.foldl (fun t cid => if p cid then t else min t cid.createTime) t ↔
      s ≤ t ∧ ∀ cid ∈ l, ¬ p cid → s ≤ cid.createTime := by
  induction l generalizing t with
  | nil => simp
  | cons cid l ih =>
    rw [List.foldl_cons, ih]
    by_cases hp : p cid
    · simp [hp]
    · simp [hp, and_assoc]

/-- `local_cnxid_oldest_created`, when these identifiers have been looked through. -/
def oldestOf (c : CidCnx) (currentTime : ℕ) (l : List LocalCnxid) : ℕ :=
  l.foldl (fun t cid => if c.Expires currentTime cid then t else min t cid.createTime)
    c.localCnxidOldestCreated

private theorem foldl_checkOne (hnow : currentTime < 2 ^ 64) (c : CidCnx) {l : List LocalCnxid}
    (htime : ∀ cid ∈ l, cid.createTime ≤ currentTime) :
    l.foldl (checkOne currentTime) c =
      { c with
        nbLocalCnxidExpired := c.nbLocalCnxidExpired + (l.countP (c.Expires currentTime ·) : ℕ)
        localCnxidRetireBefore := c.raised currentTime l
        localCnxidOldestCreated := c.oldestOf currentTime l } := by
  induction l generalizing c with
  | nil => simp [raised, oldestOf]
  | cons cid l ih =>
    have hsub := sub64_of_le (htime cid List.mem_cons_self) hnow
    rw [List.foldl_cons, ih _ fun cid' hcid' => htime cid' (List.mem_cons_of_mem _ hcid')]
    by_cases hexp : c.Expires currentTime cid
    · have hone : checkOne currentTime c cid =
          { c with
            nbLocalCnxidExpired := c.nbLocalCnxidExpired + 1
            localCnxidRetireBefore := max c.localCnxidRetireBefore (cid.sequence + 1) } := by
        rw [checkOne, hsub, if_pos (show c.localCnxidTtl ≤ _ from hexp)]
        congr 2
        split_ifs <;> omega
      have hcount : c.nbLocalCnxidExpired +
            ((cid :: l).countP (c.Expires currentTime ·) : ℕ) =
          c.nbLocalCnxidExpired + 1 + (l.countP (c.Expires currentTime ·) : ℕ) := by
        rw [List.countP_cons_of_pos (by simpa using hexp)]
        omega
      rw [hone, hcount, raised, raised, oldestOf, oldestOf, List.foldl_cons, List.foldl_cons,
        if_pos hexp, if_pos hexp]
      rfl
    · have hone : checkOne currentTime c cid =
          { c with
            localCnxidOldestCreated := min c.localCnxidOldestCreated cid.createTime } := by
        rw [checkOne, hsub, if_neg (show ¬ c.localCnxidTtl ≤ _ from hexp)]
        split_ifs with hlt
        · rw [min_eq_right hlt.le]
        · rw [min_eq_left (not_lt.mp hlt)]
      rw [hone, raised, raised, oldestOf, oldestOf, List.foldl_cons, List.foldl_cons, if_neg hexp,
        if_neg hexp, List.countP_cons_of_neg (by simpa using hexp)]
      rfl

/-- The connection when its identifiers have been looked through. -/
def expire (c : CidCnx) (currentTime : ℕ) : CidCnx :=
  { c with
    nbLocalCnxidExpired := (c.localCnxids.countP (c.Expires currentTime ·) : ℕ)
    localCnxidRetireBefore := c.raised currentTime c.localCnxids
    localCnxidOldestCreated :=
      { c with localCnxidOldestCreated := currentTime }.oldestOf currentTime c.localCnxids
    nextWakeTime := currentTime }

private theorem checkLocalCnxidTtl_eq (hnow : currentTime < 2 ^ 64) (h : c.NotBefore currentTime)
    (nextWakeTime : ℕ) :
    (c.checkLocalCnxidTtl currentTime nextWakeTime).1 =
      if c.Due currentTime then c.expire currentTime else c := by
  rw [checkLocalCnxidTtl, sub64_of_le h.1 hnow]
  by_cases hdue : c.Due currentTime
  · rw [if_pos hdue, if_pos (show c.localCnxidTtl ≤ _ from hdue)]
    dsimp only
    rw [foldl_checkOne hnow _ h.2, expire]
    congr 1
    exact zero_add _
  · rw [if_neg hdue, if_neg (show ¬ c.localCnxidTtl ≤ _ from hdue)]
    split_ifs <;> rfl

/-- What expires is what `local_cnxid_retire_before` says: identifiers that had expired are still
old enough, and so are those created before one that expires. -/
theorem Listed.lt_raised_iff (h : c.Listed) (hdue : c.Due currentTime) {cid : LocalCnxid}
    (hcid : cid ∈ c.localCnxids) :
    cid.sequence < c.raised currentTime c.localCnxids ↔ c.Expires currentTime cid := by
  rw [raised, lt_foldl_max]
  constructor
  · rintro (hlt | ⟨cid', hcid', hexp, hle⟩)
    · exact hdue.trans (Nat.sub_le_sub_left (h.old cid hcid hlt) _)
    · exact hexp.trans (Nat.sub_le_sub_left (h.ordered cid hcid cid' hcid' hle) _)
  · intro hexp
    exact Or.inr ⟨cid, hcid, hexp, le_rfl⟩

private theorem Listed.expire (h : c.Listed) (htime : c.NotBefore currentTime)
    (hdue : c.Due currentTime) :
    (c.expire currentTime).Listed where
  number := h.number
  distinct := h.distinct
  below := h.below
  expired := by
    change ((c.localCnxids.countP (c.Expires currentTime ·) : ℕ) : ℤ) =
      (c.localCnxids.countP (·.sequence < c.raised currentTime c.localCnxids) : ℕ)
    refine congrArg _ (List.countP_congr fun cid hcid => ?_)
    rw [decide_eq_true_eq, decide_eq_true_eq, h.lt_raised_iff hdue hcid]
  ordered := h.ordered
  old := by
    intro cid hcid hlt
    have hexp : c.localCnxidTtl ≤ currentTime - cid.createTime := (h.lt_raised_iff hdue hcid).mp hlt
    refine (le_foldl_min _ _ _ _).mpr ⟨htime.2 cid hcid, fun cid' hcid' hnot => ?_⟩
    have hlt' : currentTime - cid'.createTime < c.localCnxidTtl := not_le.mp hnot
    have hle := htime.2 cid hcid
    omega
  retireBefore_le := by
    refine not_lt.mp fun hlt => ?_
    rcases (lt_foldl_max _ _ _ _).mp hlt with hlt | ⟨cid, hcid, -, hle⟩
    · exact absurd h.retireBefore_le (not_le.mpr hlt)
    · exact absurd (h.below cid hcid) (not_lt.mpr hle)

private theorem Listed.unexpired_expire (h : c.Listed) (hdue : c.Due currentTime) :
    (c.expire currentTime).unexpired = c.unexpiredAt currentTime := by
  rw [unexpiredAt, if_pos hdue]
  refine List.countP_congr fun cid hcid => ?_
  rw [decide_eq_true_eq, decide_eq_true_eq, ← h.lt_raised_iff hdue hcid, not_lt]
  rfl

private theorem Listed.unexpiredAt_le (h : c.Listed) (currentTime : ℕ) :
    c.unexpiredAt currentTime ≤ c.unexpired := by
  rw [unexpiredAt]
  split_ifs with hdue
  · refine List.countP_mono_left fun cid hcid hnot => ?_
    rw [decide_eq_true_eq] at hnot ⊢
    refine not_lt.mp fun hlt => hnot ?_
    exact hdue.trans (Nat.sub_le_sub_left (h.old cid hcid hlt) _)
  · exact le_rfl

private theorem Sound.checkLocalCnxidTtl (h : c.Sound) (hnow : currentTime < 2 ^ 64)
    (htime : c.NotBefore currentTime) (nextWakeTime : ℕ) :
    let c' := (c.checkLocalCnxidTtl currentTime nextWakeTime).1
    c'.Sound ∧ c'.unexpired = c.unexpiredAt currentTime ∧
      c'.localCnxidRetireBefore = c.retireBeforeAt currentTime ∧
      c'.localCnxids = c.localCnxids ∧ c'.isAlmostReady = c.isAlmostReady ∧
      c'.localCnxidLength = c.localCnxidLength ∧
      c'.localCnxidSequenceNext = c.localCnxidSequenceNext ∧ c'.intLimit = c.intLimit := by
  have hle := h.unexpiredAt_le currentTime
  rw [checkLocalCnxidTtl_eq hnow htime, retireBeforeAt]
  by_cases hdue : c.Due currentTime
  · rw [if_pos hdue, if_pos hdue]
    have hunexpired := h.unexpired_expire hdue
    refine ⟨⟨h.toListed.expire htime hdue, ?_, fun hready => ?_, h.next_pos⟩, hunexpired, rfl, rfl,
      rfl, rfl, rfl, rfl⟩
    · exact (hunexpired.trans_le hle).trans h.limited
    · exact (hunexpired.trans_le hle).trans (h.handshake hready)
  · rw [if_neg hdue, if_neg hdue, unexpiredAt, if_neg hdue]
    exact ⟨h, rfl, rfl, rfl, rfl, rfl, rfl, rfl⟩

/-! ### Announcements -/

private theorem newConnectionIdBytes_length (retireBefore : ℕ) {resetSecret : List UInt8}
    (hsecret : resetSecret.length = resetSecretSize) (cid : LocalCnxid) :
    (newConnectionIdBytes retireBefore resetSecret cid).length =
      announcementLength cid.cnxId.length retireBefore cid.sequence := by
  simp only [newConnectionIdBytes, announcementLength, List.length_cons, List.length_append,
    varintBytes_length, hsecret]
  omega

/-- An announcement that fits is written. -/
theorem formatNewConnectionIdFrame_of_fits (c : ControlCnx) (space : Space) (flags : PacketFlags)
    (createResetSecret : List UInt8 → List.Vector UInt8 resetSecretSize) (cid : LocalCnxid)
    (hseq : cid.sequence ≠ 0) (hlen : 0 < cid.cnxId.length)
    (hfit : announcementLength cid.cnxId.length c.localCnxidRetireBefore cid.sequence ≤ space) :
    formatNewConnectionIdFrame c space flags createResetSecret (some cid) =
      ⟨some (newConnectionIdBytes c.localCnxidRetireBefore
        (createResetSecret cid.cnxId).toList cid), { flags with isPureAck := false }, c⟩ := by
  have hbytes := newConnectionIdBytes_length c.localCnxidRetireBefore
    (List.Vector.toList_length (createResetSecret cid.cnxId)) cid
  rw [formatNewConnectionIdFrame, if_pos ⟨hseq, hlen⟩, newConnectionIdFrame_eq, appendWithin,
    hbytes, if_pos (by simpa using hfit), List.nil_append, attempt]
  simp

private theorem Listed.needsLocalId_iff (h : c.Listed) :
    c.NeedsLocalId ↔ 0 < c.missing c.unexpired := by
  have heq := h.unexpired_eq
  rw [NeedsLocalId, missing, nbPathTarget]
  omega

private theorem intLimit_toNat_le (c : CidCnx) : c.intLimit.toNat ≤ c.activeConnectionIdLimit := by
  rw [intLimit]
  split_ifs <;> omega

/-- What the creations find depends on the length of the identifiers only. -/
theorem foundCnxids_congr {c c' : CidCnx} (h : c'.localCnxidLength = c.localCnxidLength) (n : ℕ)
    (drawn : List CnxidSearch) : c'.foundCnxids n drawn = c.foundCnxids n drawn := by
  induction drawn generalizing n with
  | nil => cases n <;> rfl
  | cons x drawn ih =>
    cases n with
    | zero => rfl
    | succ n => simp only [foundCnxids, found, h, ih]

/-- The loop announces what it creates. -/
theorem Sound.formatLocalIds (createResetSecret : List UInt8 → List.Vector UInt8 resetSecretSize)
    {drawn : List CnxidSearch} (h : c.Sound) (hready : c.isAlmostReady = true)
    (htime : ∀ cid ∈ c.localCnxids, cid.createTime ≤ currentTime) {space : Space}
    (hroom : c.Room c.localCnxidRetireBefore space (c.foundCnxids (c.missing c.unexpired) drawn))
    (flags : PacketFlags) (out : List UInt8) :
    (formatLocalIds createResetSecret currentTime drawn c space flags out).cnx.Sound := by
  induction drawn generalizing c space flags out with
  | nil => exact h
  | cons x drawn ih =>
    rw [CidCnx.formatLocalIds]
    split_ifs with hneeds
    swap
    · exact h
    -- one identifier is missing at least, so the room is for its frame and those that follow
    have hpos := h.needsLocalId_iff.mp hneeds
    have hmissing : c.missing c.unexpired = c.missing (c.unexpired + 1) + 1 := by
      rw [missing, missing] at *
      omega
    rw [hmissing, foundCnxids] at hroom
    cases hfound : c.found x with
    | none => exact h
    | some cnxId =>
      rw [hfound, Option.elim_some] at hroom
      obtain ⟨hbytes, hsum⟩ := hroom
      rw [announcementsLength] at hsum
      have hlen : 0 < (c.newLocalCnxid cnxId currentTime).cnxId.length :=
        List.length_pos_of_ne_nil (hbytes _ List.mem_cons_self)
      have hformat := formatNewConnectionIdFrame_of_fits
        (c.createLocalCnxid cnxId currentTime).toControlCnx space flags createResetSecret
        (c.newLocalCnxid cnxId currentTime) h.next_pos.ne' hlen
        ((Nat.le_add_right _ _).trans hsum)
      have hlength := newConnectionIdBytes_length
        (c.createLocalCnxid cnxId currentTime).localCnxidRetireBefore
        (List.Vector.toList_length
          (createResetSecret (c.newLocalCnxid cnxId currentTime).cnxId))
        (c.newLocalCnxid cnxId currentTime)
      have hunexpired := h.unexpired_createLocalCnxid cnxId currentTime
      have hsound : (c.createLocalCnxid cnxId currentTime).Sound := by
        refine ⟨h.createLocalCnxid cnxId currentTime htime, ?_, ?_, Nat.succ_pos _⟩
        · have hle := c.intLimit_toNat_le
          rw [missing] at hpos
          change _ ≤ max c.activeConnectionIdLimit 2
          omega
        · intro hnot
          change c.isAlmostReady = false at hnot
          rw [hready] at hnot
          cases hnot
      have htime' : ∀ cid ∈ (c.createLocalCnxid cnxId currentTime).localCnxids,
          cid.createTime ≤ currentTime := by
        intro cid hcid
        rcases List.mem_append.mp hcid with hcid | hcid
        · exact htime cid hcid
        · rw [List.mem_singleton.mp hcid]
          exact le_rfl
      have hne : newConnectionIdBytes (c.createLocalCnxid cnxId currentTime).localCnxidRetireBefore
          (createResetSecret (c.newLocalCnxid cnxId currentTime).cnxId).toList
          (c.newLocalCnxid cnxId currentTime) ≠ [] := List.cons_ne_nil _ _
      dsimp only
      rw [hformat, Option.getD_some, if_neg hne]
      refine ih hsound hready htime' ?_ _ _
      change (c.createLocalCnxid cnxId currentTime).Room c.localCnxidRetireBefore _
        (foundCnxids _ (c.missing (c.createLocalCnxid cnxId currentTime).unexpired) drawn)
      have hsame : (c.createLocalCnxid cnxId currentTime).foundCnxids
          (c.missing (c.unexpired + 1)) drawn = c.foundCnxids (c.missing (c.unexpired + 1)) drawn :=
        foundCnxids_congr (by rfl) _ _
      rw [hunexpired, hsame]
      refine ⟨fun cnxId' hcnxId' => hbytes cnxId' (List.mem_cons_of_mem _ hcnxId'), ?_⟩
      change _ ≤ space.val - (newConnectionIdBytes _ _ _).length
      rw [hlength]
      exact Nat.le_sub_of_add_le' hsum

/-! ### Runs -/

private theorem Sound.format (h : c.Sound) (hready : c.isAlmostReady = true) {a : FormatArgs}
    (htime : c.NotBefore a.currentTime) (hroom : c.Room (c.retireBeforeAt a.currentTime) a.space
      (c.foundCnxids (c.missing (c.unexpiredAt a.currentTime)) a.drawn)) :
    (c.formatNewLocalIdAsNeeded a).1.cnx.Sound := by
  obtain ⟨hsound, hunexpired, hretire, hlist, hready', hlength, hnext, hlimit⟩ :=
    h.checkLocalCnxidTtl a.currentTime.isLt htime a.nextWakeTime
  refine hsound.formatLocalIds a.createResetSecret (hready'.trans hready) ?_ ?_ a.flags []
  · rw [hlist]
    exact htime.2
  · rw [Room, missing, hunexpired, hretire, hnext, hlimit, foundCnxids_congr hlength]
    exact hroom

private theorem Sound.retire (h : c.Sound) (sequence : ℕ) :
    (c.retireLocalCnxid sequence).Sound := by
  rw [retireLocalCnxid]
  cases hfind : c.localCnxids.find? (·.sequence == sequence) with
  | none => exact h
  | some cid =>
    obtain ⟨hlisted, hle⟩ := h.deleteLocalCnxid (List.mem_of_find?_eq_some hfind)
    have hsame : (c.deleteLocalCnxid cid).activeConnectionIdLimit = c.activeConnectionIdLimit ∧
        (c.deleteLocalCnxid cid).isAlmostReady = c.isAlmostReady ∧
        (c.deleteLocalCnxid cid).localCnxidSequenceNext = c.localCnxidSequenceNext := by
      rw [CidCnx.deleteLocalCnxid, unlinkLocalCnxid]
      split_ifs <;> exact ⟨rfl, rfl, rfl⟩
    obtain ⟨hlimit, hready, hnext⟩ := hsame
    dsimp only
    refine ⟨hlisted, ?_, fun hnot => ?_, hnext ▸ h.next_pos⟩
    · exact hlimit ▸ hle.trans h.limited
    · exact hle.trans (h.handshake (hready ▸ hnot))

/-- One event. -/
theorem Sound.step (h : c.Sound) {e : Event} (he : c.Announces e) : (c.step e).Sound := by
  cases e with
  | transportParameters limit =>
    rw [CidCnx.step]
    split_ifs with hready
    · exact h
    · have htwo := h.handshake (eq_false_of_ne_true hready)
      exact ⟨h.toListed.of_listing rfl, htwo.trans (le_max_right _ _), h.handshake, h.next_pos⟩
  | almostReady =>
    refine ⟨h.toListed.of_listing rfl, h.limited, ?_, h.next_pos⟩
    intro hnot
    cases hnot
  | format a =>
    rw [CidCnx.step]
    split_ifs with hready
    · exact h.format hready (he hready).1 (he hready).2
    · exact h
  | retire sequence pathIndex =>
    rw [CidCnx.step]
    cases sequence with
    | none => exact h
    | some sequence =>
      dsimp only [decodeRetireConnectionIdFrame]
      split_ifs
      · exact h
      · exact h
      · exact h.retire sequence
  | usePaths paths =>
    exact ⟨h.toListed.of_listing rfl, h.limited, h.handshake, h.next_pos⟩
  | setDefaultConnectionIdTtl ttl =>
    exact ⟨h.toListed.of_listing rfl, h.limited, h.handshake, h.next_pos⟩

/-- A connection starts with one identifier, or two. -/
theorem create_sound (control : ControlCnx) (localCnxidLength : Fin 21) (localCnxidTtl : ℕ)
    (startTime : Fin (2 ^ 64)) (cnxid0 : ConnectionId) (cnxid1 : Option ConnectionId) :
    (create control localCnxidLength localCnxidTtl startTime cnxid0 cnxid1).Sound := by
  have hcleared : (cleared control localCnxidLength localCnxidTtl).Listed :=
    ⟨rfl, List.nodup_nil, by simp [cleared], rfl, by simp [cleared], by simp [cleared], le_rfl⟩
  have hone : (create control localCnxidLength localCnxidTtl startTime cnxid0 none).unexpired = 1 :=
    hcleared.unexpired_createLocalCnxid cnxid0 startTime
  have h := hcleared.createLocalCnxid cnxid0 startTime (by simp [cleared])
  have hfirst : (create control localCnxidLength localCnxidTtl startTime cnxid0 none).Listed :=
    ⟨h.number, h.distinct, h.below, h.expired, h.ordered,
      fun _ _ hlt => absurd hlt (Nat.not_lt_zero _), h.retireBefore_le⟩
  have htime : ∀ cid ∈ (create control localCnxidLength localCnxidTtl startTime cnxid0
      none).localCnxids, cid.createTime ≤ startTime.val := by
    intro cid hcid
    rw [List.mem_singleton.mp hcid]
    exact le_rfl
  cases cnxid1 with
  | none =>
    have hle := hone.le.trans one_le_two
    exact ⟨hfirst, le_max_of_le_right hle, fun _ => hle, Nat.one_pos⟩
  | some cnxid1 =>
    have hle : (create control localCnxidLength localCnxidTtl startTime cnxid0
        (some cnxid1)).unexpired ≤ 2 := by
      have htwo := hfirst.unexpired_createLocalCnxid cnxid1 startTime
      rw [hone] at htwo
      exact htwo.le
    exact ⟨hfirst.createLocalCnxid cnxid1 startTime htime, le_max_of_le_right hle, fun _ => hle,
      Nat.two_pos⟩

end CidCnx

open CidCnx

/-- **The counters agree with the list**, in every run in which time does not go back and the
identifiers that are created are announced. -/
theorem cnxids_counted (control : ControlCnx) (localCnxidLength : Fin 21) (localCnxidTtl : ℕ)
    (startTime : Fin (2 ^ 64)) (cnxid0 : ConnectionId) (cnxid1 : Option ConnectionId)
    {evs : List CidCnx.Event}
    (h : Along step Announces
      (create control localCnxidLength localCnxidTtl startTime cnxid0 cnxid1) evs) :
    (run step (create control localCnxidLength localCnxidTtl startTime cnxid0 cnxid1)
      evs).Counted :=
  (run_invariant_of_along (I := Sound) (fun _ _ hs he => hs.step he)
    (create_sound control localCnxidLength localCnxidTtl startTime cnxid0 cnxid1) h).counted

/-- A connection with identifiers of eight bytes, which live for a second. -/
def eightByteCnx : CidCnx :=
  create ticketedServer 8 1000000 5000000 (List.replicate 8 1) none

/-- The preparation of a packet with this space left, while `n` identifiers can be created. -/
def preparation (space : Space) (currentTime : Fin (2 ^ 64)) (n : ℕ) : FormatArgs where
  space := space
  flags := ⟨false, true⟩
  currentTime := currentTime
  nextWakeTime := currentTime
  drawn := (List.range n).map fun i => ⟨.plain (UInt8.ofNat i), fun _ => false⟩
  createResetSecret := fun _ => List.Vector.replicate resetSecretSize 0

/-- The peer allows three identifiers. Two are announced, one is retired and replaced, all expire,
and three new ones are announced. -/
theorem cnxids_counted_after_expiry :
    (run step eightByteCnx [.transportParameters (some 3), .almostReady,
      .format (preparation 1000 5100000 9), .retire (some 1) 0, .format (preparation 200 5200000 1),
      .format (preparation 1200 6300000 9)]).Counted :=
  cnxids_counted ticketedServer 8 1000000 5000000 (List.replicate 8 1) none (by decide +kernel)

/-- The peer allows two identifiers. The announcement of the second one does not fit into the packet
at hand, and the count is zero although there is one. The next packet announces two, so there are
three. -/
theorem cnxid_lost_in_rollback :
    let full := run step eightByteCnx [.transportParameters (some 2), .almostReady,
      .format (preparation 20 5100000 9)]
    let next := full.step (.format (preparation 1200 5200000 9))
    (full.nbLocalCnxid = 0 ∧ full.localCnxids.length = 1 ∧ ¬ full.Counted) ∧
      next.unexpired = 3 ∧ next.activeConnectionIdLimit = 2 ∧ ¬ next.Counted := by
  have hnumber : (run step eightByteCnx [.transportParameters (some 2), .almostReady,
      .format (preparation 20 5100000 9)]).nbLocalCnxid = 0 := by decide +kernel
  have hlength : (run step eightByteCnx [.transportParameters (some 2), .almostReady,
      .format (preparation 20 5100000 9)]).localCnxids.length = 1 := by decide +kernel
  have hunexpired : ((run step eightByteCnx [.transportParameters (some 2), .almostReady,
      .format (preparation 20 5100000 9)]).step
        (.format (preparation 1200 5200000 9))).unexpired = 3 := by decide +kernel
  have hlimit : ((run step eightByteCnx [.transportParameters (some 2), .almostReady,
      .format (preparation 20 5100000 9)]).step
        (.format (preparation 1200 5200000 9))).activeConnectionIdLimit = 2 := by decide +kernel
  refine ⟨⟨hnumber, hlength, fun hcounted => ?_⟩, hunexpired, hlimit, fun hcounted => ?_⟩
  · have heq := hcounted.number
    rw [hnumber, hlength] at heq
    cases heq
  · have hle := hcounted.limited
    rw [hunexpired, hlimit] at hle
    exact absurd hle (by decide)

end Picoquic
