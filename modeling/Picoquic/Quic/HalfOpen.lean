import Mathlib.Data.Set.Card
import Picoquic.Quic.ConnectionsKept

/-!
# Half open connections

A server asks its clients for a token, with a Retry packet, while too many connections are half
open, or if it was told to.

* **`RetryCtx.step`** — a connection is created, gets ready or is deleted, or the cookie mode is
  changed;
* **`policy_iff`** — the counter is the number of connections that are half open, and tokens are
  asked for when they should be, in every state; they are asked for only then in exactly the runs
  in which the last half open connection does not leave the flag behind;
* **`flag_left_behind`** — a deletion does.

The limit is set before the first connection.
-/

namespace Picoquic

open Runs

/-! ### Data -/

/-- A context, with its cookie mode. -/
structure RetryCtx where
  quic : QuicCtx
  forceCheckToken : Bool
  provideToken : Bool

/-- A context without connections. -/
def RetryCtx.init (quic : QuicCtx) : RetryCtx := ⟨quic, false, false⟩

/-! ### The steps -/

namespace RetryCtx

/-- `picoquic_set_cookie_mode`. -/
def setCookieMode (q : RetryCtx) (cookieMode : UInt32) : RetryCtx :=
  let forceCheckToken := cookieMode &&& 1 ≠ 0
  { forceCheckToken := forceCheckToken
    provideToken := cookieMode &&& 2 ≠ 0
    quic := { q.quic with
      checkToken := forceCheckToken ||
        decide (q.quic.maxHalfOpenBeforeRetry ≤ q.quic.currentNumberHalfOpen) } }

/-- What `picoquic_ready_state_transition` does to a connection that is half open. -/
def leaveHalfOpen (q : RetryCtx) (cnx : ℕ) (r : Registration) : RetryCtx :=
  let quic := { q.quic with
    currentNumberHalfOpen := q.quic.currentNumberHalfOpen - 1
    cnxs := Function.update q.quic.cnxs cnx (some { r with isHalfOpen := false }) }
  if quic.currentNumberHalfOpen < quic.maxHalfOpenBeforeRetry then
    { q with quic := { quic with checkToken := q.forceCheckToken } }
  else { q with quic := quic }

/-- `picoquic_ready_state_transition`, the part about half open connections. -/
def readyStateTransition (q : RetryCtx) (cnx : ℕ) : RetryCtx :=
  match q.quic.cnxs cnx with
  | some r => if r.isHalfOpen then q.leaveHalfOpen cnx r else q
  | none => q

/-- A call. -/
inductive Event
  /-- `picoquic_create_cnx`. -/
  | create (x : CreateArgs)
  /-- `picoquic_ready_state_transition`. -/
  | ready (cnx : ℕ)
  /-- `picoquic_delete_cnx`. -/
  | delete (cnx : ℕ)
  /-- `picoquic_set_cookie_mode`. -/
  | setCookieMode (cookieMode : UInt32)

/-- One call. -/
def step (q : Option RetryCtx) (event : Event) : Option RetryCtx :=
  match q with
  | none => none
  | some q =>
    match event with
    | .create x => (QuicCtx.step (some q.quic) (.create x)).map fun quic => { q with quic := quic }
    | .ready cnx => some (q.readyStateTransition cnx)
    | .delete cnx =>
      (QuicCtx.step (some q.quic) (.delete cnx)).map fun quic => { q with quic := quic }
    | .setCookieMode cookieMode => some (q.setCookieMode cookieMode)

end RetryCtx

/-! ### The policy for tokens -/

/-- The connections that are half open. -/
def halfOpenCnxs (cnxs : ℕ → Option Registration) : Set ℕ :=
  {cnx | ∃ r ∈ cnxs cnx, r.isHalfOpen = true}

/-- The counter is right, and tokens are asked for when and only when they should be. Between the
limit and no half open connection at all, they may be. -/
structure RetryCtx.Policy (q : RetryCtx) : Prop where
  counted : q.quic.currentNumberHalfOpen = (halfOpenCnxs q.quic.cnxs).ncard
  asked : q.forceCheckToken = true ∨
    q.quic.maxHalfOpenBeforeRetry < q.quic.currentNumberHalfOpen → q.quic.checkToken = true
  notAsked : q.forceCheckToken = false → halfOpenCnxs q.quic.cnxs = ∅ → q.quic.checkToken = false

/-! ### What a creation does -/

namespace QuicCtx

variable {q q' : QuicCtx} {x : CreateArgs}

/-- A server counts the connection as half open. -/
def countsToken (q : QuicCtx) (counts : Bool) : Bool :=
  q.checkToken || (counts && decide (q.maxHalfOpenBeforeRetry < q.currentNumberHalfOpen + 1))

/-- A connection was linked, with registration `r`. -/
structure Counts (q : QuicCtx) (x : CreateArgs) (q' : QuicCtx) (r : Registration) : Prop where
  max : q'.maxHalfOpenBeforeRetry = q.maxHalfOpenBeforeRetry
  current : q'.currentNumberHalfOpen = q.currentNumberHalfOpen + r.isHalfOpen.toNat
  token : q'.checkToken = q.countsToken (!x.clientMode)
  cnxs : q'.cnxs = q.cnxs
  halfOpen : r.isHalfOpen = !x.clientMode

/-- A creation that fails, and whether it fails after the connection was counted. -/
structure Fails (q : QuicCtx) (late : Bool) (q' : QuicCtx) : Prop where
  max : q'.maxHalfOpenBeforeRetry = q.maxHalfOpenBeforeRetry
  current : q'.currentNumberHalfOpen = q.currentNumberHalfOpen
  token : q'.checkToken = q.countsToken late
  cnxs : q'.cnxs = q.cnxs

theorem linkCnx_counts (q : QuicCtx) (x : CreateArgs) (cnxid0 : ConnectionId) :
    q.Counts x (q.linkCnx x cnxid0).1 (q.linkCnx x cnxid0).2 := by
  obtain ⟨t, hpath, -⟩ := registerPath_spec
    ((q.insertCnxInList x.cnx).insertCnxByWakeTime x.cnx x.startTime) x.cnx x.addrTo
  rw [linkCnx]
  generalize registerPath
    ((q.insertCnxInList x.cnx).insertCnxByWakeTime x.cnx x.startTime) x.cnx x.addrTo = path
    at hpath ⊢
  obtain ⟨q₁, netIds⟩ := path
  dsimp only at hpath ⊢
  have hprefered : ∃ t', (q₁.createPreferedCnxid x).1 = { q₁ with tableCnxById := t' } := by
    rw [createPreferedCnxid]
    split
    · exact ⟨_, rfl⟩
    · exact ⟨_, rfl⟩
  obtain ⟨t', hprefered⟩ := hprefered
  generalize q₁.createPreferedCnxid x = prefered at hprefered ⊢
  obtain ⟨q₂, cnxid'⟩ := prefered
  dsimp only at hprefered ⊢
  subst hprefered hpath
  rcases hmode : x.clientMode with _ | _
  · exact ⟨rfl, rfl, by rw [hmode]; rfl, rfl, by rw [hmode]⟩
  · refine ⟨rfl, rfl, ?_, rfl, by rw [hmode]⟩
    rw [countsToken, hmode, Bool.not_true, Bool.false_and, Bool.or_false]
    rfl

/-- What is read when the initial connection ID is registered. -/
theorem linkCnx_icid (q : QuicCtx) (x : CreateArgs) (cnxid0 : ConnectionId) :
    (q.linkCnx x cnxid0).1.tableCnxByIcid = q.tableCnxByIcid ∧
      (q.linkCnx x cnxid0).1.localCnxidLength = q.localCnxidLength := by
  obtain ⟨t, hpath, -⟩ := registerPath_spec
    ((q.insertCnxInList x.cnx).insertCnxByWakeTime x.cnx x.startTime) x.cnx x.addrTo
  have hprefered (q : QuicCtx) : (q.createPreferedCnxid x).1.tableCnxByIcid = q.tableCnxByIcid ∧
      (q.createPreferedCnxid x).1.localCnxidLength = q.localCnxidLength := by
    rw [createPreferedCnxid]
    split
    · exact ⟨rfl, rfl⟩
    · exact ⟨rfl, rfl⟩
  have hcount (q : QuicCtx) : (q.countHalfOpen x.clientMode).tableCnxByIcid = q.tableCnxByIcid ∧
      (q.countHalfOpen x.clientMode).localCnxidLength = q.localCnxidLength := by
    rw [countHalfOpen]
    split
    · exact ⟨rfl, rfl⟩
    · exact ⟨rfl, rfl⟩
  rw [linkCnx]
  dsimp only
  rw [(hcount _).1, (hcount _).2, (hprefered _).1, (hprefered _).2, hpath]
  exact ⟨rfl, rfl⟩

/-- The initial connection ID is registered last. -/
theorem Counts.registerNetIcid {r r₂ : Registration} {q₂ : QuicCtx} (h : q.Counts x q' r)
    (hr : q'.registerNetIcid x r = some (q₂, r₂)) : q.Counts x q₂ r₂ := by
  rw [QuicCtx.registerNetIcid] at hr
  dsimp only at hr
  split_ifs at hr
  · simp only [Option.some.injEq, Prod.mk.injEq] at hr
    obtain ⟨rfl, rfl⟩ := hr
    exact ⟨h.max, h.current, h.token, h.cnxs, h.halfOpen⟩
  · simp only [Option.some.injEq, Prod.mk.injEq] at hr
    obtain ⟨rfl, rfl⟩ := hr
    exact h

/-- A connection that is deleted right after it was counted. -/
theorem Counts.deleteCnx {r : Registration} (h : q.Counts x q' r) (hfree : q.cnxs x.cnx = none) :
    q.Fails (!x.clientMode) (q'.deleteCnx x.cnx r) := by
  rw [deleteCnx_eq]
  refine ⟨h.max, ?_, h.token, ?_⟩
  · dsimp only
    rw [h.current]
    exact Nat.add_sub_cancel ..
  · dsimp only
    rw [h.cnxs]
    exact Function.update_eq_self_iff.mpr hfree.symm

theorem abandonCnx_fails (q : QuicCtx) (x : CreateArgs) (cnxid0 : Option ConnectionId)
    (hfree : q.cnxs x.cnx = none) : q.Fails false (q.abandonCnx x cnxid0) := by
  rw [abandonCnx, deleteCnx_eq]
  refine ⟨rfl, rfl, ?_, Function.update_eq_self_iff.mpr hfree.symm⟩
  rw [countsToken, Bool.false_and, Bool.or_false]

/-- The last part of a creation fails. -/
def failsToRegister (q : QuicCtx) (x : CreateArgs) : Bool :=
  !x.isTlsCreated || !x.areKeysCreated || (!x.clientMode && decide (0 < q.localCnxidLength) &&
    (q.tableCnxByIcid.retrieve (x.addrTo.getD [], x.initialCnxid)).isSome)

theorem registerNetIcid_eq_none_iff {r : Registration} :
    q.registerNetIcid x r = none ↔ q.failsToRegister x = true := by
  rw [registerNetIcid, failsToRegister]
  dsimp only
  by_cases hearly : (!x.isTlsCreated || !x.areKeysCreated) = true
  · rw [if_pos hearly, hearly, Bool.true_or]
    exact iff_of_true rfl rfl
  · rw [if_neg hearly, Bool.eq_false_of_not_eq_true hearly, Bool.false_or]
    by_cases hserver : (!x.clientMode && decide (0 < q.localCnxidLength)) = true
    · rw [if_pos hserver, hserver, Bool.true_and]
      split_ifs with hused
      · exact iff_of_true rfl hused
      · exact iff_of_false (by simp) hused
    · rw [if_neg hserver, Bool.eq_false_of_not_eq_true hserver, Bool.false_and]
      exact iff_of_false (by simp) Bool.false_ne_true

/-- The connection is counted as half open, and the creation fails afterwards. -/
def failsLate (q : QuicCtx) (x : CreateArgs) : Bool :=
  x.isCnxAllocated && x.isCnxidAllocated && (q.createLocalCnxid x.cnx x.draws).1.isSome &&
    x.isPathCreated && x.isStashCreated && !x.clientMode && q.failsToRegister x

/-- **A creation** succeeds, or fails. -/
theorem buildCnx_cases (hfree : q.cnxs x.cnx = none) :
    (∃ q₁ r, q.Counts x q₁ r ∧ q.failsLate x = false ∧
      q.buildCnx x = ({ q₁ with cnxs := Function.update q₁.cnxs x.cnx (some r) }, true)) ∨
    (q.buildCnx x).2 = false ∧ q.Fails (q.failsLate x) (q.buildCnx x).1 := by
  rw [buildCnx, failsLate]
  rcases halloc : x.isCnxAllocated with _ | _
  · refine Or.inr ⟨rfl, rfl, rfl, ?_, rfl⟩
    simp [countsToken]
  rcases hcnxid : x.isCnxidAllocated with _ | _
  · exact Or.inr ⟨rfl, abandonCnx_fails q x none hfree⟩
  rcases hcreate : q.createLocalCnxid x.cnx x.draws with ⟨cnxid0, t⟩
  have habandon (cnxid0 : Option ConnectionId) :
      q.Fails false (abandonCnx { q with tableCnxById := t } x cnxid0) := by
    have h := abandonCnx_fails { q with tableCnxById := t } x cnxid0 hfree
    exact ⟨h.max, h.current, h.token, h.cnxs⟩
  simp only [Bool.not_true, Bool.false_eq_true, if_false, if_true, Bool.true_and]
  rcases cnxid0 with _ | cnxid0
  · exact Or.inr ⟨rfl, habandon none⟩
  dsimp only [Option.isSome_some]
  simp only [Bool.true_and]
  by_cases hbuilt : (!x.isPathCreated || !x.isStashCreated) = true
  · rw [if_pos hbuilt]
    refine Or.inr ⟨rfl, ?_⟩
    have hfalse : (x.isPathCreated && x.isStashCreated) = false := by
      rw [← Bool.not_and, Bool.not_eq_true'] at hbuilt
      exact hbuilt
    simp only [hfalse, Bool.false_and]
    exact habandon (some cnxid0)
  have htrue : (x.isPathCreated && x.isStashCreated) = true := by
    rw [← Bool.not_and] at hbuilt
    simpa using hbuilt
  rw [if_neg hbuilt]
  simp only [htrue, Bool.true_and]
  have hlink := linkCnx_counts { q with tableCnxById := t } x cnxid0
  have hicid := linkCnx_icid { q with tableCnxById := t } x cnxid0
  generalize linkCnx { q with tableCnxById := t } x cnxid0 = linked at hlink hicid ⊢
  obtain ⟨q₁, r₁⟩ := linked
  dsimp only at hlink hicid ⊢
  have hcounts : q.Counts x q₁ r₁ :=
    ⟨hlink.max, hlink.current, hlink.token, hlink.cnxs, hlink.halfOpen⟩
  have hfails : q₁.failsToRegister x = q.failsToRegister x := by
    rw [failsToRegister, failsToRegister, hicid.1, hicid.2]
  rcases hregister : q₁.registerNetIcid x r₁ with _ | ⟨q₂, r₂⟩
  · rw [registerNetIcid_eq_none_iff, hfails] at hregister
    refine Or.inr ⟨rfl, ?_⟩
    rw [hregister, Bool.and_true]
    exact hcounts.deleteCnx hfree
  · have hsome : q.failsToRegister x = false := by
      refine Bool.eq_false_of_not_eq_true fun hfail => ?_
      rw [← hfails, ← registerNetIcid_eq_none_iff (r := r₁), hregister] at hfail
      exact absurd hfail (by simp)
    rw [hsome, Bool.and_false]
    exact Or.inl ⟨q₂, r₂, hcounts.registerNetIcid hregister, rfl, rfl⟩

end QuicCtx

/-! ### The connections that are half open -/

section HalfOpenCnxs

variable {cnxs : ℕ → Option Registration} {cnx : ℕ} {r : Registration}

theorem mem_halfOpenCnxs (h : cnxs cnx = some r) :
    cnx ∈ halfOpenCnxs cnxs ↔ r.isHalfOpen = true := by
  constructor
  · rintro ⟨r', hr', hopen⟩
    obtain rfl : r = r' := Option.some.inj (h.symm.trans hr')
    exact hopen
  · intro hopen
    exact ⟨r, h, hopen⟩

theorem halfOpenCnxs_update (o : Option Registration) :
    halfOpenCnxs (Function.update cnxs cnx o) =
      if ∃ r ∈ o, r.isHalfOpen = true then insert cnx (halfOpenCnxs cnxs)
      else halfOpenCnxs cnxs \ {cnx} := by
  ext other
  by_cases hother : other = cnx
  · subst hother
    have hmem : other ∈ halfOpenCnxs (Function.update cnxs other o) ↔
        ∃ r ∈ o, r.isHalfOpen = true := by
      rw [halfOpenCnxs, Set.mem_ofPred_eq, Function.update_self]
    rw [hmem]
    split_ifs with h
    · exact iff_of_true h (Set.mem_insert ..)
    · exact iff_of_false h fun hdiff => hdiff.2 rfl
  · have hmem : other ∈ halfOpenCnxs (Function.update cnxs cnx o) ↔
        other ∈ halfOpenCnxs cnxs := by
      rw [halfOpenCnxs, Set.mem_ofPred_eq, Function.update_of_ne hother]
      rfl
    rw [hmem]
    split_ifs with h
    · rw [Set.mem_insert_iff, or_iff_right hother]
    · rw [Set.mem_sdiff, Set.mem_singleton_iff, and_iff_left hother]

end HalfOpenCnxs

/-! ### Steps -/

namespace RetryCtx

variable {q : RetryCtx}

/-- **Invariant.** -/
structure Sound (q : RetryCtx) : Prop where
  finite : (halfOpenCnxs q.quic.cnxs).Finite
  counted : q.quic.currentNumberHalfOpen = (halfOpenCnxs q.quic.cnxs).ncard
  asked : q.forceCheckToken = true ∨
    q.quic.maxHalfOpenBeforeRetry < q.quic.currentNumberHalfOpen → q.quic.checkToken = true

/-- No token is asked for without a reason. -/
def NotAsked (q : RetryCtx) : Prop :=
  q.forceCheckToken = false → q.quic.currentNumberHalfOpen = 0 → q.quic.checkToken = false

theorem Sound.eq_empty_iff (h : q.Sound) :
    halfOpenCnxs q.quic.cnxs = ∅ ↔ q.quic.currentNumberHalfOpen = 0 := by
  rw [h.counted, Set.ncard_eq_zero h.finite]

theorem Sound.policy_iff_notAsked (h : q.Sound) : q.Policy ↔ q.NotAsked := by
  constructor
  · intro hpolicy hforce hzero
    exact hpolicy.notAsked hforce (h.eq_empty_iff.mpr hzero)
  · intro hnot
    exact ⟨h.counted, h.asked, fun hforce hempty => hnot hforce (h.eq_empty_iff.mp hempty)⟩

/-- A call does not leave the flag behind: it does not set the flag without a half open connection,
and it does not take the last half open connection from a flag that stays. -/
def LeavesNoFlag : Option RetryCtx → Event → Prop
  | some q, .create x =>
    q.quic.cnxs x.cnx = none → q.quic.failsLate x = true → q.quic.useUniqueLogNames = false →
      q.quic.currentNumberHalfOpen = 0 → q.forceCheckToken = false →
        0 < q.quic.maxHalfOpenBeforeRetry
  | some q, .ready cnx =>
    (∃ r ∈ q.quic.cnxs cnx, r.isHalfOpen = true) → q.quic.currentNumberHalfOpen = 1 →
      q.forceCheckToken = false → q.quic.checkToken = true → 0 < q.quic.maxHalfOpenBeforeRetry
  | some q, .delete cnx =>
    (∃ r ∈ q.quic.cnxs cnx, r.isHalfOpen = true) → q.quic.currentNumberHalfOpen = 1 →
      q.forceCheckToken = false → q.quic.checkToken = false
  | some q, .setCookieMode cookieMode =>
    cookieMode &&& 1 = 0 → q.quic.currentNumberHalfOpen = 0 → 0 < q.quic.maxHalfOpenBeforeRetry
  | none, _ => True

/-- The cookie mode is changed. -/
theorem Sound.setCookieMode (h : q.Sound) (cookieMode : UInt32) :
    (q.setCookieMode cookieMode).Sound ∧ ((q.setCookieMode cookieMode).NotAsked ↔
      LeavesNoFlag (some q) (.setCookieMode cookieMode)) := by
  refine ⟨⟨h.finite, h.counted, ?_⟩, ?_⟩
  · rintro (hforce | hmax)
    · rw [RetryCtx.setCookieMode] at hforce ⊢
      dsimp only at hforce ⊢
      rw [hforce, Bool.true_or]
    · rw [RetryCtx.setCookieMode] at hmax ⊢
      dsimp only at hmax ⊢
      rw [decide_eq_true hmax.le, Bool.or_true]
  · rw [NotAsked, LeavesNoFlag, RetryCtx.setCookieMode]
    dsimp only
    constructor
    · intro hnot hmode hzero
      have hforce : decide (cookieMode &&& 1 ≠ 0) = false := decide_eq_false fun hne => hne hmode
      have htoken := hnot hforce hzero
      rw [hforce, Bool.false_or, decide_eq_false_iff_not, hzero] at htoken
      exact not_le.mp htoken
    · intro hleaves hforce hzero
      have hmode : cookieMode &&& 1 = 0 := not_not.mp (of_decide_eq_false hforce)
      rw [hforce, Bool.false_or, decide_eq_false_iff_not, hzero]
      exact not_le.mpr (hleaves hmode hzero)

variable {o : Option Registration}

/-- A connection leaves the half open ones: the counter goes down. -/
theorem Sound.leave (h : q.Sound) {cnx : ℕ} {r : Registration} (hr : q.quic.cnxs cnx = some r)
    (hopen : r.isHalfOpen = true) (ho : ¬ ∃ r ∈ o, r.isHalfOpen = true) :
    (halfOpenCnxs (Function.update q.quic.cnxs cnx o)).Finite ∧
      q.quic.currentNumberHalfOpen - 1 =
        (halfOpenCnxs (Function.update q.quic.cnxs cnx o)).ncard ∧
      0 < q.quic.currentNumberHalfOpen := by
  have hmem : cnx ∈ halfOpenCnxs q.quic.cnxs := (mem_halfOpenCnxs hr).mpr hopen
  rw [halfOpenCnxs_update, if_neg ho, Set.ncard_sdiff_singleton_of_mem hmem, h.counted]
  exact ⟨h.finite.sdiff, rfl, (Set.ncard_pos h.finite).mpr ⟨cnx, hmem⟩⟩

theorem halfOpenCnxs_stay {cnxs : ℕ → Option Registration} {cnx : ℕ}
    (hcnx : ¬ ∃ r ∈ cnxs cnx, r.isHalfOpen = true) (ho : ¬ ∃ r ∈ o, r.isHalfOpen = true) :
    halfOpenCnxs (Function.update cnxs cnx o) = halfOpenCnxs cnxs := by
  rw [halfOpenCnxs_update, if_neg ho]
  exact Set.sdiff_singleton_eq_self hcnx

section

variable (h : q.Sound)

include h

/-- A connection gets ready. -/
theorem Sound.readyStateTransition (cnx : ℕ) :
    (q.readyStateTransition cnx).Sound ∧ (q.NotAsked →
      ((q.readyStateTransition cnx).NotAsked ↔ LeavesNoFlag (some q) (.ready cnx))) := by
  rw [RetryCtx.readyStateTransition, LeavesNoFlag]
  rcases hr : q.quic.cnxs cnx with _ | r
  · exact ⟨h, fun hnot => iff_of_true hnot fun ⟨_, hmem, _⟩ => absurd hmem (by simp)⟩
  dsimp only
  split_ifs with hopen
  swap
  · refine ⟨h, fun hnot => iff_of_true hnot ?_⟩
    rintro ⟨r', hmem, hopen'⟩
    obtain rfl : r = r' := Option.some.inj hmem
    exact absurd hopen' hopen
  obtain ⟨hfinite, hcounted, hpos⟩ := h.leave hr hopen
    (o := some { r with isHalfOpen := false }) (by simp)
  rw [leaveHalfOpen]
  dsimp only
  split_ifs with hbelow
  · -- below the limit the flag is reset
    refine ⟨⟨hfinite, hcounted, ?_⟩, fun _ => iff_of_true (fun hforce _ => hforce) ?_⟩
    · rintro (hforce | hmax)
      · exact hforce
      · exact absurd hmax (lt_asymm hbelow)
    · intro _ hone _ _
      rw [hone] at hbelow
      exact hbelow
  · refine ⟨⟨hfinite, hcounted, ?_⟩, fun _ => ?_⟩
    · rintro (hforce | hmax)
      · exact h.asked (Or.inl hforce)
      · exact h.asked (Or.inr (hmax.trans (Nat.pred_lt hpos.ne')))
    · constructor
      · intro hflag _ hone hforce htoken
        rw [hflag hforce (by dsimp only; rw [hone])] at htoken
        exact absurd htoken Bool.false_ne_true
      · intro hleaves hforce hzero
        have hone : q.quic.currentNumberHalfOpen = 1 := by
          dsimp only at hzero
          omega
        rw [hone] at hbelow
        refine Bool.eq_false_of_not_eq_true fun htoken => hbelow ?_
        exact hleaves ⟨r, rfl, hopen⟩ hone hforce htoken

/-- A connection is deleted. -/
theorem Sound.deleteCnx {cnx : ℕ} {r : Registration}
    (hr : q.quic.cnxs cnx = some r) :
    RetryCtx.Sound { q with quic := q.quic.deleteCnx cnx r } ∧ (q.NotAsked →
      (RetryCtx.NotAsked { q with quic := q.quic.deleteCnx cnx r } ↔
        LeavesNoFlag (some q) (.delete cnx))) := by
  have hnone : ¬ ∃ r ∈ (none : Option Registration), r.isHalfOpen = true := by simp
  rw [QuicCtx.deleteCnx_eq, LeavesNoFlag, hr]
  by_cases hopen : r.isHalfOpen = true
  · obtain ⟨hfinite, hcounted, hpos⟩ := h.leave hr hopen hnone
    rw [hopen]
    refine ⟨⟨hfinite, hcounted, ?_⟩, fun _ => ?_⟩
    · rintro (hforce | hmax)
      · exact h.asked (Or.inl hforce)
      · exact h.asked (Or.inr (hmax.trans (Nat.pred_lt hpos.ne')))
    · constructor
      · intro hflag _ hone hforce
        exact hflag hforce (by dsimp only; rw [hone]; rfl)
      · intro hleaves hforce hzero
        refine hleaves ⟨r, rfl, hopen⟩ ?_ hforce
        dsimp only [Bool.toNat_true] at hzero
        omega
  · have hcnx : ¬ ∃ r ∈ q.quic.cnxs cnx, r.isHalfOpen = true := by
      rintro ⟨r', hmem, hopen'⟩
      obtain rfl : r = r' := Option.some.inj (hr.symm.trans hmem)
      exact hopen hopen'
    have hstay := halfOpenCnxs_stay hcnx hnone
    rw [Bool.eq_false_of_not_eq_true hopen]
    refine ⟨⟨?_, ?_, h.asked⟩, fun hnot => iff_of_true hnot ?_⟩
    · dsimp only
      rw [hstay]
      exact h.finite
    · dsimp only
      rw [hstay]
      exact h.counted
    · rintro ⟨r', hmem, hopen'⟩
      obtain rfl : r = r' := Option.some.inj hmem
      exact absurd hopen' hopen

/-- A creation succeeds. -/
theorem Sound.counts {x : CreateArgs} {q₁ : QuicCtx}
    {r : Registration} (hfree : q.quic.cnxs x.cnx = none) (hcounts : q.quic.Counts x q₁ r) :
    RetryCtx.Sound { q with quic := { q₁ with cnxs := Function.update q₁.cnxs x.cnx (some r) } } ∧
      (q.NotAsked → RetryCtx.NotAsked
        { q with quic := { q₁ with cnxs := Function.update q₁.cnxs x.cnx (some r) } }) := by
  have hmem : x.cnx ∉ halfOpenCnxs q.quic.cnxs := by
    rintro ⟨r', hr', -⟩
    exact absurd (hfree.symm.trans hr') (by simp)
  have hcurrent := hcounts.current
  have htoken := hcounts.token
  by_cases hopen : r.isHalfOpen = true
  · have hset : halfOpenCnxs (Function.update q₁.cnxs x.cnx (some r)) =
        insert x.cnx (halfOpenCnxs q.quic.cnxs) := by
      rw [halfOpenCnxs_update, if_pos ⟨r, rfl, hopen⟩, hcounts.cnxs]
    rw [hopen, Bool.toNat_true] at hcurrent
    rw [QuicCtx.countsToken, ← hcounts.halfOpen, hopen, Bool.true_and] at htoken
    refine ⟨⟨?_, ?_, ?_⟩, ?_⟩
    · rw [hset]
      exact h.finite.insert x.cnx
    · dsimp only
      rw [hset, Set.ncard_insert_of_notMem hmem h.finite, hcurrent, h.counted]
    · dsimp only
      rw [htoken, hcurrent, hcounts.max]
      rintro (hforce | hmax)
      · rw [h.asked (Or.inl hforce), Bool.true_or]
      · rw [decide_eq_true hmax, Bool.or_true]
    · intro _ _ hzero
      dsimp only at hzero
      rw [hcurrent] at hzero
      exact absurd hzero (Nat.succ_ne_zero _)
  · have hset : halfOpenCnxs (Function.update q₁.cnxs x.cnx (some r)) =
        halfOpenCnxs q.quic.cnxs := by
      rw [halfOpenCnxs_stay, hcounts.cnxs]
      · rintro ⟨r', hr', -⟩
        rw [hcounts.cnxs, hfree] at hr'
        exact absurd hr' (by simp)
      · rintro ⟨r', hr', hopen'⟩
        obtain rfl : r = r' := Option.some.inj hr'
        exact hopen hopen'
    rw [Bool.eq_false_of_not_eq_true hopen, Bool.toNat_false, Nat.add_zero] at hcurrent
    rw [QuicCtx.countsToken, ← hcounts.halfOpen, Bool.eq_false_of_not_eq_true hopen,
      Bool.false_and, Bool.or_false] at htoken
    refine ⟨⟨?_, ?_, ?_⟩, ?_⟩
    · rw [hset]
      exact h.finite
    · dsimp only
      rw [hset, hcurrent, h.counted]
    · dsimp only
      rw [htoken, hcurrent, hcounts.max]
      exact h.asked
    · intro hnot
      rw [NotAsked]
      dsimp only
      rw [htoken, hcurrent]
      exact hnot

/-- A creation fails. -/
theorem Sound.fails {q₁ : QuicCtx} {late : Bool}
    (hfails : q.quic.Fails late q₁) :
    RetryCtx.Sound { q with quic := q₁ } ∧ (q.NotAsked →
      (RetryCtx.NotAsked { q with quic := q₁ } ↔
        (late = true → q.quic.currentNumberHalfOpen = 0 → q.forceCheckToken = false →
          0 < q.quic.maxHalfOpenBeforeRetry))) := by
  refine ⟨⟨?_, ?_, ?_⟩, ?_⟩
  · dsimp only
    rw [hfails.cnxs]
    exact h.finite
  · dsimp only
    rw [hfails.cnxs, hfails.current]
    exact h.counted
  · dsimp only
    rw [hfails.current, hfails.max, hfails.token]
    intro hasked
    rw [QuicCtx.countsToken, h.asked hasked, Bool.true_or]
  · intro hnot
    rw [NotAsked]
    dsimp only
    rw [hfails.current, hfails.token, QuicCtx.countsToken]
    constructor
    · intro hflag hlate hzero hforce
      have htoken := hflag hforce hzero
      rw [hlate, hzero, hnot hforce hzero, Bool.true_and, Bool.false_or,
        decide_eq_false_iff_not] at htoken
      omega
    · intro hleaves hforce hzero
      rw [hnot hforce hzero, Bool.false_or, hzero]
      rcases hlate : late with _ | _
      · rfl
      · rw [Bool.true_and, decide_eq_false_iff_not]
        have := hleaves hlate hzero hforce
        omega

/-- A creation. -/
theorem Sound.create (x : CreateArgs) :
    (∀ q' ∈ step (some q) (.create x),
      q'.Sound ∧ (q.NotAsked → (q'.NotAsked ↔ LeavesNoFlag (some q) (.create x)))) ∧
    (step (some q) (.create x) = none → LeavesNoFlag (some q) (.create x)) := by
  rw [RetryCtx.step, QuicCtx.step, LeavesNoFlag]
  by_cases hused : (q.quic.cnxs x.cnx).isSome = true
  · rw [if_pos hused, Option.map_some]
    have hvacuous : q.quic.cnxs x.cnx ≠ none := Option.isSome_iff_ne_none.mp hused
    refine ⟨?_, fun _ hfree => absurd hfree hvacuous⟩
    rintro q' hq'
    obtain rfl := Option.some.inj hq'
    exact ⟨h, fun hnot => iff_of_true hnot fun hfree => absurd hfree hvacuous⟩
  have hfree : q.quic.cnxs x.cnx = none := Option.not_isSome_iff_eq_none.mp hused
  rw [if_neg hused, QuicCtx.createCnx]
  rcases QuicCtx.buildCnx_cases hfree with ⟨q₁, r, hcounts, hlate, hbuild⟩ | ⟨hfailed, hfails⟩
  · rw [hbuild]
    dsimp only
    rw [Bool.not_true, Bool.and_false, if_neg Bool.false_ne_true, Option.map_some, Option.map_some]
    refine ⟨?_, fun hnone => absurd hnone (by simp)⟩
    rintro q' hq'
    obtain rfl := Option.some.inj hq'
    obtain ⟨hsound, hflag⟩ := h.counts hfree hcounts
    refine ⟨hsound, fun hnot => iff_of_true (hflag hnot) ?_⟩
    rw [hlate]
    exact fun _ hfalse => absurd hfalse Bool.false_ne_true
  · rw [hfailed, Bool.not_false, Bool.and_true]
    by_cases hunique : q.quic.useUniqueLogNames = true
    · -- the name is written through a null pointer
      rw [if_pos hunique, Option.map_none, Option.map_none]
      refine ⟨fun q' hq' => absurd hq' (by simp), ?_⟩
      intro _ _ _ hnames
      exact absurd (hunique.symm.trans hnames) (by simp)
    · rw [if_neg hunique, Option.map_some, Option.map_some]
      refine ⟨?_, fun hnone => absurd hnone (by simp)⟩
      rintro q' hq'
      obtain rfl := Option.some.inj hq'
      obtain ⟨hsound, hflag⟩ := h.fails hfails
      refine ⟨hsound, fun hnot => (hflag hnot).trans ?_⟩
      constructor
      · intro hleaves _ hlate _
        exact hleaves hlate
      · intro hleaves hlate
        exact hleaves hfree hlate (Bool.eq_false_of_not_eq_true hunique)

/-- **Step lemma.** -/
theorem Sound.step (event : Event) :
    (∀ q' ∈ step (some q) event,
      q'.Sound ∧ (q.NotAsked → (q'.NotAsked ↔ LeavesNoFlag (some q) event))) ∧
      (step (some q) event = none → LeavesNoFlag (some q) event) := by
  rcases event with x | cnx | cnx | cookieMode
  · exact h.create x
  · refine ⟨?_, fun hnone => absurd hnone (by simp [RetryCtx.step])⟩
    intro q' hq'
    obtain rfl := Option.some.inj hq'
    exact h.readyStateTransition cnx
  · rw [RetryCtx.step, QuicCtx.step]
    rcases hr : q.quic.cnxs cnx with _ | r
    · dsimp only
      rw [Option.map_some]
      refine ⟨?_, fun hnone => absurd hnone (by simp)⟩
      intro q' hq'
      obtain rfl := Option.some.inj hq'
      refine ⟨h, fun hnot => iff_of_true hnot ?_⟩
      rintro ⟨r', hmem, -⟩
      exact absurd (hr.symm.trans hmem) (by simp)
    · dsimp only
      rw [Option.map_some]
      refine ⟨?_, fun hnone => absurd hnone (by simp)⟩
      intro q' hq'
      obtain rfl := Option.some.inj hq'
      exact h.deleteCnx hr
  · refine ⟨?_, fun hnone => absurd hnone (by simp [RetryCtx.step])⟩
    intro q' hq'
    obtain rfl := Option.some.inj hq'
    obtain ⟨hsound, hflag⟩ := h.setCookieMode cookieMode
    exact ⟨hsound, fun _ => hflag⟩

end

/-! ### Runs -/

/-- The context of a run, unless it has ended. -/
def Keeps (q : Option RetryCtx) : Prop := ∀ q' ∈ q, q'.Sound ∧ q'.NotAsked

/-- A call keeps the policy exactly if it does not leave the flag behind. -/
theorem keeps_step (q : Option RetryCtx) (event : Event) (h : Keeps q) :
    ((∀ q' ∈ step q event, q'.Policy) ↔ LeavesNoFlag q event) ∧
      (LeavesNoFlag q event → Keeps (step q event)) := by
  rcases q with _ | q
  · refine ⟨iff_of_true (fun q' hq' => absurd hq' (by simp [step])) trivial, fun _ => ?_⟩
    exact fun q' hq' => absurd hq' (by simp [step])
  obtain ⟨hsound, hnot⟩ := h q rfl
  obtain ⟨hsome, hnone⟩ := hsound.step event
  refine ⟨?_, ?_⟩
  · constructor
    · intro hpolicy
      rcases hstep : step (some q) event with _ | q'
      · exact hnone hstep
      · obtain ⟨hsound', hiff⟩ := hsome q' hstep
        exact (hiff hnot).mp (hsound'.policy_iff_notAsked.mp (hpolicy q' hstep))
    · intro hleaves q' hq'
      obtain ⟨hsound', hiff⟩ := hsome q' hq'
      exact hsound'.policy_iff_notAsked.mpr ((hiff hnot).mpr hleaves)
  · intro hleaves q' hq'
    obtain ⟨hsound', hiff⟩ := hsome q' hq'
    exact ⟨hsound', (hiff hnot).mpr hleaves⟩

variable (localCnxidLength maxHalfOpenBeforeRetry : ℕ) (useUniqueLogNames : Bool)

/-- A context in its first state. -/
theorem keeps_init :
    Keeps (some (RetryCtx.init
      (QuicCtx.init localCnxidLength maxHalfOpenBeforeRetry useUniqueLogNames))) := by
  have hempty : halfOpenCnxs (fun _ => none) = ∅ := by
    refine Set.eq_empty_of_forall_notMem ?_
    rintro cnx ⟨r, hr, -⟩
    exact absurd hr (by simp)
  rintro q hq
  obtain rfl := Option.some.inj hq
  refine ⟨⟨?_, ?_, ?_⟩, fun _ _ => rfl⟩
  · rw [init, QuicCtx.init, hempty]
    exact Set.finite_empty
  · rw [init, QuicCtx.init, hempty]
    exact (Set.ncard_empty ℕ).symm
  · rintro (hforce | hmax)
    · exact absurd hforce Bool.false_ne_true
    · exact absurd hmax (Nat.not_lt_zero _)

/-- **Run lemma.** -/
theorem run_sound (events : List Event) :
    ∀ q ∈ run step (some (RetryCtx.init
      (QuicCtx.init localCnxidLength maxHalfOpenBeforeRetry useUniqueLogNames))) events,
      q.Sound := by
  refine run_invariant (I := fun q : Option RetryCtx => ∀ q' ∈ q, q'.Sound) ?_ ?_ events
  · intro q event h q' hq'
    rcases q with _ | q
    · exact absurd hq' (by simp [step])
    · exact ((h q rfl).step event).1 q' hq' |>.1
  · intro q hq
    exact (keeps_init _ _ _ q hq).1

/-- The counter is the number of half open connections, and tokens are asked for when they should
be, in every state. They are asked for only then in all states of a run if and only if no call
leaves the flag behind. -/
theorem policy_iff (localCnxidLength maxHalfOpenBeforeRetry : ℕ) (useUniqueLogNames : Bool)
    (events : List Event) :
    let init := some (init
      (QuicCtx.init localCnxidLength maxHalfOpenBeforeRetry useUniqueLogNames))
    (∀ q ∈ run step init events,
      q.quic.currentNumberHalfOpen = (halfOpenCnxs q.quic.cnxs).ncard ∧
      (q.forceCheckToken = true ∨ q.quic.maxHalfOpenBeforeRetry < q.quic.currentNumberHalfOpen →
        q.quic.checkToken = true)) ∧
    ((∀ events', events' <+: events → ∀ q ∈ run step init events', q.Policy) ↔
      Along step LeavesNoFlag init events) := by
  refine ⟨?_, ?_⟩
  · intro q hq
    have hsound := run_sound _ _ _ events q hq
    exact ⟨hsound.counted, hsound.asked⟩
  · exact forall_prefix_iff_along (fun _ h q hq => (h q hq).1.policy_iff_notAsked.mpr (h q hq).2)
      (fun q event h => (keeps_step q event h).1) (fun q event h => (keeps_step q event h).2)
      (keeps_init _ _ _) events

/-- A connection of a server. -/
def serverCnx (cnx : ℕ) : Event :=
  .create
    { cnx := cnx
      initialCnxid := [cnx.toUInt8]
      addrTo := none
      startTime := 0
      clientMode := false
      isCnxAllocated := true
      isCnxidAllocated := true
      draws := .plain cnx.toUInt8
      isPathCreated := true
      isStashCreated := true
      preferedAddressDraws := none
      isTlsCreated := true
      areKeysCreated := true }

/-- Two connections are half open, where the limit is one, and are deleted. Tokens are still asked
for. -/
theorem flag_left_behind :
    ∃ q, run step (some (RetryCtx.init (QuicCtx.init 8 1 false)))
        [serverCnx 1, serverCnx 2, .delete 1, .delete 2] = some q ∧
      q.forceCheckToken = false ∧ halfOpenCnxs q.quic.cnxs = ∅ ∧ q.quic.checkToken = true ∧
      ¬ q.Policy := by
  have hrun : (run step (some (init (QuicCtx.init 8 1 false)))
      [serverCnx 1, serverCnx 2, .delete 1, .delete 2]).map
        (fun q => (q.forceCheckToken, q.quic.currentNumberHalfOpen, q.quic.checkToken)) =
      some (false, 0, true) := by decide +kernel
  obtain ⟨q, hq, hfields⟩ := Option.map_eq_some_iff.mp hrun
  simp only [Prod.mk.injEq] at hfields
  obtain ⟨hforce, hzero, htoken⟩ := hfields
  have hempty := (run_sound 8 1 false _ q hq).eq_empty_iff.mpr hzero
  refine ⟨q, hq, hforce, hempty, htoken, ?_⟩
  intro hpolicy
  exact absurd ((hpolicy.notAsked hforce hempty).symm.trans htoken) (by decide)

end RetryCtx

end Picoquic
