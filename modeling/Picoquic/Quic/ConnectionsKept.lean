import Picoquic.Quic.Connections

/-!
# Failed creations

* **`connections_kept`** — in a run in which every creation finds a connection ID and its first
  allocations succeed, the list and the wake list have exactly the connections that exist, the
  counter is their number, and a creation that fails later leaves everything as it was, unless a
  connection ID without bytes was registered;
* **`connections_lost`** — a creation that does not find a connection ID unlinks a connection that
  was never linked: all other connections leave the list and the wake list.
-/

namespace Picoquic

open Runs

/-! ### Connections that are kept -/

/-- The list and the wake list have the connections `l`, which are those that exist, and the counter
is their number. -/
structure QuicCtx.Sound (q : QuicCtx) (l : List ℕ) : Prop where
  links : q.cnxList.Is l
  wake : q.wakeList.root.toList.Perm l
  number : q.currentNumberConnections = l.length
  live : ∀ cnx, (q.cnxs cnx).isSome ↔ cnx ∈ l

/-- Everything that keeps track of connections is as it was: the ends of the list and the pointers
of the connections that exist, the order of the wake list, the counters and the tables. -/
structure QuicCtx.Restored (q q' : QuicCtx) : Prop where
  first : q'.cnxList.first = q.cnxList.first
  last : q'.cnxList.last = q.cnxList.last
  links : ∀ cnx, (q.cnxs cnx).isSome → q'.cnxList.next cnx = q.cnxList.next cnx ∧
    q'.cnxList.previous cnx = q.cnxList.previous cnx
  wake : q'.wakeList.root.toList = q.wakeList.root.toList
  number : q'.currentNumberConnections = q.currentNumberConnections
  halfOpen : q'.currentNumberHalfOpen = q.currentNumberHalfOpen
  byId : q'.tableCnxById = q.tableCnxById
  byNet : q'.tableCnxByNet = q.tableCnxByNet
  byIcid : q'.tableCnxByIcid = q.tableCnxByIcid
  bySecret : q'.tableCnxBySecret = q.tableCnxBySecret
  cnxs : q'.cnxs = q.cnxs

private theorem QuicCtx.Restored.refl (q : QuicCtx) : q.Restored q :=
  ⟨rfl, rfl, fun _ _ => ⟨rfl, rfl⟩, rfl, rfl, rfl, rfl, rfl, rfl, rfl, rfl⟩

private theorem QuicCtx.Sound.init (localCnxidLength maxHalfOpenBeforeRetry : ℕ)
    (useUniqueLogNames : Bool) :
    (QuicCtx.init localCnxidLength maxHalfOpenBeforeRetry useUniqueLogNames).Sound [] :=
  ⟨LinkedList.is_empty, List.Perm.refl [], rfl, by simp [QuicCtx.init]⟩

/-! ### Deletion -/

/-- What deletion does to each part of the context. -/
theorem QuicCtx.deleteCnx_eq (q : QuicCtx) (cnx : ℕ) (r : Registration) :
    q.deleteCnx cnx r =
      { q with
        cnxList := q.cnxList.remove cnx
        wakeList := q.wakeList.remove cnx
        currentNumberConnections := decrement32 q.currentNumberConnections
        currentNumberHalfOpen := q.currentNumberHalfOpen - r.isHalfOpen.toNat
        tableCnxById := unregisterCnxids r.localCnxids q.tableCnxById
        tableCnxByNet := unregisterNetIds r.netIds q.tableCnxByNet
        tableCnxByIcid := r.netIcidKey.elim q.tableCnxByIcid q.tableCnxByIcid.delete
        tableCnxBySecret := r.resetSecretKey.elim q.tableCnxBySecret q.tableCnxBySecret.delete
        cnxs := Function.update q.cnxs cnx none } := by
  have hhalf : (if r.isHalfOpen = true ∧ 0 < q.currentNumberHalfOpen then
      { q with currentNumberHalfOpen := q.currentNumberHalfOpen - 1 } else q) =
      { q with currentNumberHalfOpen := q.currentNumberHalfOpen - r.isHalfOpen.toNat } := by
    cases r.isHalfOpen with
    | false => simp
    | true =>
      by_cases hpos : 0 < q.currentNumberHalfOpen
      · simp [hpos]
      · have hzero : q.currentNumberHalfOpen = 0 := by omega
        rw [if_neg (by simp [hpos])]
        cases q
        simp_all
  rw [deleteCnx, hhalf]
  rfl

private theorem decrement32_succ (n : ℕ) : decrement32 (n + 1) = n := rfl

variable {q : QuicCtx} {l : List ℕ} {t : CnxTable ConnectionId} {cnxid : ConnectionId}
  {x : CreateArgs}

variable {cnx : ℕ} {κ : Type} {cnxid0 : ConnectionId}

/-- **Deletion** of a connection that exists. -/
theorem QuicCtx.Sound.deleteCnx (h : q.Sound l) (hcnx : cnx ∈ l) (r : Registration) :
    (q.deleteCnx cnx r).Sound (l.erase cnx) := by
  obtain ⟨l₁, l₂, -, hl, herase⟩ := List.exists_erase_eq hcnx
  have hlinks := h.links
  have hnodup := h.links.nodup
  have hnumber := h.number
  rw [hl] at hlinks
  rw [deleteCnx_eq]
  refine ⟨herase ▸ hlinks.remove, ?_, ?_, fun other => ?_⟩
  · obtain ⟨w₁, w₂, hw, hremove⟩ := WakeList.toList_remove (h.wake.mem_iff.mpr hcnx)
    have hwake := h.wake
    rw [hw] at hwake
    change (q.wakeList.remove cnx).root.toList.Perm _
    rw [hremove]
    exact ((List.perm_middle.symm.trans hwake).trans (List.perm_cons_erase hcnx)).cons_inv
  · have hpos : 0 < l.length := List.length_pos_of_mem hcnx
    rw [List.length_erase_of_mem hcnx]
    dsimp only
    rw [hnumber, decrement32, if_neg (by omega)]
  · by_cases hother : other = cnx
    · subst hother
      simp [hnodup.not_mem_erase]
    · dsimp only
      rw [Function.update_of_ne hother, List.mem_erase_of_ne hother]
      exact h.live other

/-! ### Registration -/

@[simp]
private theorem CnxTable.delete_cons_self [DecidableEq κ] (t : CnxTable κ) (key : κ) (cnx : ℕ) :
    CnxTable.delete ((key, cnx) :: t) key = t := by
  simp [delete]

private theorem CnxTable.delete_cons_of_ne [DecidableEq κ] (t : CnxTable κ) {key key' : κ}
    (h : key' ≠ key)
    (cnx : ℕ) : CnxTable.delete ((key', cnx) :: t) key = (key', cnx) :: t.delete key := by
  simp [delete, h]

private theorem CnxTable.ne_of_retrieve [DecidableEq κ] {t : CnxTable κ} {key key' : κ}
    (h : CnxTable.retrieve ((key', cnx) :: t) key = none) : key' ≠ key := by
  intro heq
  simp [retrieve, heq] at h

private theorem unregisterCnxids_cons (cnxid : ConnectionId) (cnxids : List ConnectionId)
    (t : CnxTable ConnectionId) :
    unregisterCnxids (cnxid :: cnxids) t =
      unregisterCnxids cnxids (if cnxid.length = 0 then t else t.delete cnxid) := rfl

private theorem unregisterCnxids_nil (t : CnxTable ConnectionId) : unregisterCnxids [] t = t := rfl

/-- A connection ID that is created is in the table if those of the context have a length, and is
not in use. -/
theorem QuicCtx.createLocalCnxid_spec (q : QuicCtx) (cnx : ℕ) (draws : CnxidDraws) :
    match q.createLocalCnxid cnx draws with
    | (none, t) => t = q.tableCnxById
    | (some cnxid, t) =>
      if q.localCnxidLength = 0 then cnxid = [] ∧ t = q.tableCnxById
      else t = (cnxid, cnx) :: q.tableCnxById ∧ q.tableCnxById.retrieve cnxid = none := by
  rw [createLocalCnxid]
  cases hfind : q.findCnxid draws with
  | none => rfl
  | some cnxid =>
    dsimp only
    rw [findCnxid] at hfind
    by_cases hzero : q.localCnxidLength = 0
    · rw [if_pos hzero, if_pos hzero]
      rw [CnxidDraws.findUnique, if_pos hzero] at hfind
      exact ⟨(Option.some.inj hfind).symm, rfl⟩
    · rw [if_neg hzero, if_neg hzero]
      exact ⟨rfl, by simpa using CnxidDraws.isInUse_of_findUnique hzero hfind⟩

/-- Connection IDs whose deletion unregisters them, if they were registered. -/
def QuicCtx.Unregisters (q : QuicCtx) (cnxids : List ConnectionId) : Prop :=
  q.localCnxidLength = 0 ∨ ∀ cnxid ∈ cnxids, cnxid ≠ []

/-- A connection ID that is created and deleted leaves the table as it was. -/
theorem QuicCtx.unregister_createLocalCnxid {draws : CnxidDraws}
    (h : q.createLocalCnxid cnx draws = (some cnxid, t)) (hbytes : q.Unregisters [cnxid]) :
    unregisterCnxids [cnxid] t = q.tableCnxById := by
  have hspec := q.createLocalCnxid_spec cnx draws
  rw [h] at hspec
  rw [unregisterCnxids_cons, unregisterCnxids_nil]
  dsimp only at hspec
  split_ifs at hspec with hzero
  · rw [hspec.1, hspec.2]
    rfl
  · have hne := hbytes.resolve_left hzero cnxid List.mem_cons_self
    rw [if_neg (List.length_eq_zero_iff.not.mpr hne), hspec.1, CnxTable.delete_cons_self]

/-- So do two of them. -/
theorem QuicCtx.unregister_createLocalCnxid₂ {q q' : QuicCtx} {cnx cnx' : ℕ}
    {draws draws' : CnxidDraws} {cnxid' : Option ConnectionId} {t' : CnxTable ConnectionId}
    (h : q.createLocalCnxid cnx draws = (some cnxid, q'.tableCnxById))
    (hlength : q'.localCnxidLength = q.localCnxidLength)
    (h' : q'.createLocalCnxid cnx' draws' = (cnxid', t'))
    (hbytes : q.Unregisters (cnxid :: cnxid'.toList)) :
    unregisterCnxids (cnxid :: cnxid'.toList) t' = q.tableCnxById := by
  have hone : unregisterCnxids [cnxid] q'.tableCnxById = q.tableCnxById :=
    unregister_createLocalCnxid h
      (hbytes.imp_right fun hall => by simpa using hall cnxid List.mem_cons_self)
  have hspec' := q'.createLocalCnxid_spec cnx' draws'
  rw [h', hlength] at hspec'
  cases cnxid' with
  | none =>
    dsimp only at hspec'
    rw [hspec']
    exact hone
  | some cnxid' =>
    rw [unregisterCnxids_cons, unregisterCnxids_nil] at hone
    rw [Option.toList_some, unregisterCnxids_cons, unregisterCnxids_cons, unregisterCnxids_nil]
    dsimp only at hspec'
    split_ifs at hspec' with hzero
    · obtain ⟨rfl, rfl⟩ := hspec'
      exact hone
    · -- the second one is in front of the first one, and differs from it
      obtain ⟨rfl, hfree⟩ := hspec'
      have hall := hbytes.resolve_left hzero
      have hne : cnxid.length ≠ 0 := List.length_eq_zero_iff.not.mpr (hall cnxid List.mem_cons_self)
      have hne' : cnxid'.length ≠ 0 := List.length_eq_zero_iff.not.mpr (hall cnxid' (by simp))
      have hspec := q.createLocalCnxid_spec cnx draws
      rw [h] at hspec
      dsimp only at hspec
      rw [if_neg hzero] at hspec
      rw [hspec.1] at hfree ⊢
      rw [if_neg hne, if_neg hne', CnxTable.delete_cons_of_ne _
        (CnxTable.ne_of_retrieve hfree).symm, CnxTable.delete_cons_self,
        CnxTable.delete_cons_self]

/-- A connection with registration `r` was linked in `q`, where the connection IDs had the table
`t`. -/
structure QuicCtx.Linked (q : QuicCtx) (t : CnxTable ConnectionId) (x : CreateArgs)
    (q' : QuicCtx) (r : Registration) : Prop where
  list : q'.cnxList = q.cnxList.insertFront x.cnx
  wake : q'.wakeList = (q.wakeList.setTime x.cnx x.startTime).insert x.cnx
  number : q'.currentNumberConnections = q.currentNumberConnections + 1
  halfOpen : q'.currentNumberHalfOpen = q.currentNumberHalfOpen + r.isHalfOpen.toNat
  byId : q.Unregisters r.localCnxids → unregisterCnxids r.localCnxids q'.tableCnxById = t
  byNet : unregisterNetIds r.netIds q'.tableCnxByNet = q.tableCnxByNet
  byIcid : r.netIcidKey.elim q'.tableCnxByIcid q'.tableCnxByIcid.delete = q.tableCnxByIcid
  bySecret : r.resetSecretKey.elim q'.tableCnxBySecret q'.tableCnxBySecret.delete =
    q.tableCnxBySecret
  cnxs : q'.cnxs = q.cnxs
  length : q'.localCnxidLength = q.localCnxidLength

theorem QuicCtx.registerPath_spec (q : QuicCtx) (cnx : ℕ) (addr : Option SockAddr) :
    ∃ t, (q.registerPath cnx addr).1 = { q with tableCnxByNet := t } ∧
      unregisterNetIds (q.registerPath cnx addr).2 t = q.tableCnxByNet := by
  cases addr with
  | none => exact ⟨q.tableCnxByNet, rfl, rfl⟩
  | some addr =>
    rw [registerPath]
    split_ifs
    · exact ⟨q.tableCnxByNet, rfl, rfl⟩
    · exact ⟨(addr, cnx) :: q.tableCnxByNet, rfl, CnxTable.delete_cons_self ..⟩

private theorem QuicCtx.createPreferedCnxid_spec {q q₀ : QuicCtx}
    (h : q₀.createLocalCnxid x.cnx x.draws = (some cnxid0, q.tableCnxById))
    (hlength : q.localCnxidLength = q₀.localCnxidLength) :
    ∃ t, (q.createPreferedCnxid x).1 = { q with tableCnxById := t } ∧
      (q₀.Unregisters (cnxid0 :: (q.createPreferedCnxid x).2.toList) →
        unregisterCnxids (cnxid0 :: (q.createPreferedCnxid x).2.toList) t = q₀.tableCnxById) := by
  rw [createPreferedCnxid]
  cases x.preferedAddressDraws with
  | none => exact ⟨q.tableCnxById, rfl, unregister_createLocalCnxid h⟩
  | some draws =>
    cases hcid : q.createLocalCnxid x.cnx draws with
    | mk cnxid' t' =>
      refine ⟨t', by dsimp only; rw [hcid], ?_⟩
      dsimp only
      rw [hcid]
      exact unregister_createLocalCnxid₂ h hlength hcid

/-- **Linking.** -/
theorem QuicCtx.linkCnx_linked {q q₀ : QuicCtx}
    (h : q₀.createLocalCnxid x.cnx x.draws = (some cnxid0, q.tableCnxById))
    (hlength : q.localCnxidLength = q₀.localCnxidLength) :
    q.Linked q₀.tableCnxById x (q.linkCnx x cnxid0).1 (q.linkCnx x cnxid0).2 := by
  obtain ⟨t, hpath, hnet⟩ := registerPath_spec
    ((q.insertCnxInList x.cnx).insertCnxByWakeTime x.cnx x.startTime) x.cnx x.addrTo
  rw [linkCnx]
  generalize registerPath
    ((q.insertCnxInList x.cnx).insertCnxByWakeTime x.cnx x.startTime) x.cnx x.addrTo = path
    at hpath hnet ⊢
  obtain ⟨q₁, netIds⟩ := path
  dsimp only at hpath hnet ⊢
  have h₁ : q₀.createLocalCnxid x.cnx x.draws = (some cnxid0, q₁.tableCnxById) := by
    rw [h, hpath]
    rfl
  obtain ⟨t', hcnxid, hid⟩ := createPreferedCnxid_spec h₁ (by rw [hpath]; exact hlength)
  generalize q₁.createPreferedCnxid x = prefered at hcnxid hid ⊢
  obtain ⟨q₂, cnxid'⟩ := prefered
  dsimp only at hcnxid hid ⊢
  subst hcnxid hpath
  have hid' : q.Unregisters (cnxid0 :: cnxid'.toList) →
      unregisterCnxids (cnxid0 :: cnxid'.toList) t' = q₀.tableCnxById := fun hbytes =>
    hid (hbytes.imp_left hlength.symm.trans)
  cases hmode : x.clientMode with
  | false => exact ⟨rfl, rfl, rfl, rfl, hid', hnet, rfl, rfl, rfl, rfl⟩
  | true => exact ⟨rfl, rfl, rfl, rfl, hid', hnet, rfl, rfl, rfl, rfl⟩

/-- The initial connection ID is registered last. -/
theorem QuicCtx.Linked.registerNetIcid {q q₁ q₂ : QuicCtx} {r r₂ : Registration}
    (h : q.Linked t x q₁ r) (hr : q₁.registerNetIcid x r = some (q₂, r₂))
    (hnone : r.netIcidKey = none) : q.Linked t x q₂ r₂ := by
  rw [QuicCtx.registerNetIcid] at hr
  have hicid := h.byIcid
  rw [hnone] at hicid
  dsimp only at hr
  split_ifs at hr
  · simp only [Option.some.injEq, Prod.mk.injEq] at hr
    obtain ⟨rfl, rfl⟩ := hr
    refine ⟨h.list, h.wake, h.number, h.halfOpen, h.byId, h.byNet, ?_, h.bySecret, h.cnxs, h.length⟩
    exact (CnxTable.delete_cons_self ..).trans hicid
  · simp only [Option.some.injEq, Prod.mk.injEq] at hr
    obtain ⟨rfl, rfl⟩ := hr
    exact h

/-! ### Creation -/

/-- The connection is in the list and in the wake list. -/
theorem QuicCtx.Linked.sound {q q' : QuicCtx} {r : Registration} (h : q.Linked t x q' r)
    (hq : q.Sound l) (hx : x.cnx ∉ l) :
    QuicCtx.Sound { q' with cnxs := Function.update q'.cnxs x.cnx (some r) } (x.cnx :: l) where
  links := by
    rw [h.list]
    exact hq.links.insertFront hx
  wake := by
    change q'.wakeList.root.toList.Perm _
    rw [h.wake]
    exact (SplayTree.toList_insert_perm _ _ _).trans (hq.wake.cons x.cnx)
  number := by
    change q'.currentNumberConnections = _
    rw [h.number, hq.number, List.length_cons]
  live cnx := by
    dsimp only
    rw [h.cnxs]
    by_cases hc : cnx = x.cnx
    · subst hc
      simp
    · rw [Function.update_of_ne hc, List.mem_cons, hq.live]
      simp [hc]

/-- A connection that is deleted right after it was linked leaves everything as it was. -/
theorem QuicCtx.Linked.restored {q q' : QuicCtx} {r : Registration}
    (h : QuicCtx.Linked { q with tableCnxById := t } q.tableCnxById x q' r) (hq : q.Sound l)
    (hx : x.cnx ∉ l) (hbytes : q.Unregisters r.localCnxids) :
    q.Restored (q'.deleteCnx x.cnx r) := by
  have hlinks := hq.links.insertFront hx
  have hremoved : ((q.cnxList.insertFront x.cnx).remove x.cnx).Is l := hlinks.remove (l := [])
  have hwake : x.cnx ∉ (q.wakeList.setTime x.cnx x.startTime).root.toList := fun hmem =>
    hx (hq.wake.mem_iff.mp hmem)
  rw [deleteCnx_eq]
  refine ⟨?_, ?_, fun cnx hcnx => ?_, ?_, ?_, ?_, h.byId hbytes, h.byNet, h.byIcid, h.bySecret,
    ?_⟩
  · dsimp only
    rw [h.list]
    exact hremoved.first_eq.trans hq.links.first_eq.symm
  · dsimp only
    rw [h.list]
    exact hremoved.last_eq.trans hq.links.last_eq.symm
  · dsimp only
    rw [h.list]
    exact hremoved.segment.unique hq.links.segment cnx ((hq.live cnx).mp hcnx)
  · dsimp only
    rw [h.wake]
    exact WakeList.toList_remove_insert hwake
  · dsimp only
    rw [h.number]
    exact decrement32_succ _
  · dsimp only
    rw [h.halfOpen]
    exact Nat.add_sub_cancel ..
  · dsimp only
    rw [h.cnxs]
    refine Function.update_eq_self_iff.mpr ?_
    have hnone := (hq.live x.cnx).not.mpr hx
    exact (Option.not_isSome_iff_eq_none.mp hnone).symm

/-- A restored context keeps track of the same connections. -/
theorem QuicCtx.Sound.restored {q q' : QuicCtx} (h : q.Sound l) (hr : q.Restored q') :
    q'.Sound l := by
  have hlive : ∀ cnx ∈ l, (q.cnxs cnx).isSome := fun cnx hcnx => (h.live cnx).mpr hcnx
  refine ⟨⟨h.links.nodup, hr.first.trans h.links.first_eq, hr.last.trans h.links.last_eq, ?_⟩,
    ?_, ?_, ?_⟩
  · exact h.links.segment.congr (fun cnx hcnx => (hr.links cnx (hlive cnx hcnx)).1)
      fun cnx hcnx => (hr.links cnx (hlive cnx hcnx)).2
  · rw [hr.wake]
    exact h.wake
  · rw [hr.number]
    exact h.number
  · rw [hr.cnxs]
    exact h.live

/-! ### Creations that can go on -/

/-- One of the 32 connection IDs that are drawn is not in use, or connection IDs have no length. -/
def QuicCtx.FindsCnxid (q : QuicCtx) (x : CreateArgs) : Prop :=
  q.localCnxidLength = 0 ∨
    ∃ i < 32, q.tableCnxById.retrieve (x.draws.candidate q.localCnxidLength i) = none

/-- A connection for which memory is allocated gets as far as the list of connections. -/
def QuicCtx.GetsLinked (q : QuicCtx) (x : CreateArgs) : Prop :=
  x.isCnxAllocated = true → x.isCnxidAllocated = true ∧ q.FindsCnxid x ∧ x.isPathCreated = true ∧
    x.isStashCreated = true

/-- Nothing fails behind that point: TLS and the keys are set up, and the server has no other
connection with the initial connection ID. -/
def QuicCtx.GetsReady (q : QuicCtx) (x : CreateArgs) : Prop :=
  x.isCnxAllocated = true ∧ x.isTlsCreated = true ∧ x.areKeysCreated = true ∧
    (x.clientMode = true ∨ q.localCnxidLength = 0 ∨
      q.tableCnxByIcid.retrieve (x.addrTo.getD [], x.initialCnxid) = none)

private theorem QuicCtx.FindsCnxid.createLocalCnxid (h : q.FindsCnxid x) :
    ∃ cnxid t, q.createLocalCnxid x.cnx x.draws = (some cnxid, t) := by
  suffices hfind : ∃ cnxid, q.findCnxid x.draws = some cnxid by
    obtain ⟨cnxid, hfind⟩ := hfind
    rw [QuicCtx.createLocalCnxid, hfind]
    exact ⟨_, _, rfl⟩
  rw [findCnxid, CnxidDraws.findUnique]
  split_ifs with hzero
  · exact ⟨[], rfl⟩
  obtain ⟨i, hi, hfree⟩ := h.resolve_left hzero
  exact Option.isSome_iff_exists.mp (List.find?_isSome.mpr
    ⟨_, List.mem_map_of_mem (List.mem_range.mpr hi), by simp [hfree]⟩)

private theorem QuicCtx.registerNetIcid_ne_none (htls : x.isTlsCreated = true)
    (hkeys : x.areKeysCreated = true) (hfree : x.clientMode = true ∨ q.localCnxidLength = 0 ∨
      q.tableCnxByIcid.retrieve (x.addrTo.getD [], x.initialCnxid) = none) (r : Registration) :
    q.registerNetIcid x r ≠ none := by
  rw [registerNetIcid, if_neg (by simp [htls, hkeys])]
  by_cases hserver : (!x.clientMode && decide (0 < q.localCnxidLength)) = true
  · rw [if_pos hserver]
    simp only [Bool.and_eq_true, Bool.not_eq_true', decide_eq_true_eq] at hserver
    have hnone := (hfree.resolve_left (by simp [hserver.1])).resolve_left (by omega)
    simp [hnone]
  · rw [if_neg hserver]
    simp

/-- A creation that fails behind that point deletes no connection ID without bytes, which would
stay registered. -/
def QuicCtx.Undoes (q : QuicCtx) (x : CreateArgs) : Prop :=
  q.GetsReady x ∨ q.Unregisters (q.createdCnxids x)

/-- What the second connection ID depends on. -/
theorem QuicCtx.createPreferedCnxid_congr {q q' : QuicCtx}
    (hlength : q'.localCnxidLength = q.localCnxidLength)
    (htable : q'.tableCnxById = q.tableCnxById) (x : CreateArgs) :
    (q'.createPreferedCnxid x).2 = (q.createPreferedCnxid x).2 := by
  rw [createPreferedCnxid, createPreferedCnxid]
  cases x.preferedAddressDraws with
  | none => rfl
  | some draws =>
    simp only [createLocalCnxid, findCnxid, hlength, htable]

/-- The connection IDs of a connection that is linked. -/
theorem QuicCtx.localCnxids_linkCnx (h : q.createLocalCnxid x.cnx x.draws = (some cnxid, t)) :
    (QuicCtx.linkCnx { q with tableCnxById := t } x cnxid).2.localCnxids = q.createdCnxids x := by
  obtain ⟨t', hpath, -⟩ := registerPath_spec
    ((insertCnxInList { q with tableCnxById := t } x.cnx).insertCnxByWakeTime x.cnx
      x.startTime) x.cnx x.addrTo
  rw [createdCnxids, h, linkCnx]
  generalize registerPath ((insertCnxInList { q with tableCnxById := t }
    x.cnx).insertCnxByWakeTime x.cnx x.startTime) x.cnx x.addrTo = path at hpath ⊢
  obtain ⟨q₁, netIds⟩ := path
  dsimp only at hpath ⊢
  subst hpath
  exact congrArg (cnxid :: Option.toList ·)
    (createPreferedCnxid_congr (by rfl) (by rfl) x)

/-- **A creation** that gets as far as the list either succeeds or leaves everything as it was. -/
theorem QuicCtx.Sound.buildCnx (hq : q.Sound l) (hx : x.cnx ∉ l) (h : q.GetsLinked x)
    (hundoes : x.isCnxAllocated = true → q.Undoes x) :
    if (q.buildCnx x).2 then (q.buildCnx x).1.Sound (x.cnx :: l)
    else q.Restored (q.buildCnx x).1 ∧ ¬ q.GetsReady x := by
  rw [QuicCtx.buildCnx]
  by_cases halloc : x.isCnxAllocated = true
  swap
  · simp only [halloc, Bool.not_false, if_true]
    exact ⟨QuicCtx.Restored.refl q, fun hready => halloc hready.1⟩
  obtain ⟨hcnxid, hfinds, hpath, hstash⟩ := h halloc
  obtain ⟨cnxid, t, hcreate⟩ := hfinds.createLocalCnxid
  simp only [halloc, hcnxid, hpath, hstash, hcreate, Bool.not_true, Bool.false_eq_true, if_false,
    if_true, Bool.or_false]
  have hlinked := linkCnx_linked (q := { q with tableCnxById := t }) hcreate rfl
  have hnone : (linkCnx { q with tableCnxById := t } x cnxid).2.netIcidKey = none := rfl
  have hcreated := localCnxids_linkCnx hcreate
  generalize linkCnx { q with tableCnxById := t } x cnxid = linked
    at hlinked hnone hcreated ⊢
  obtain ⟨q₁, r₁⟩ := linked
  dsimp only at hlinked hnone hcreated ⊢
  cases hicid : q₁.registerNetIcid x r₁ with
  | some registered =>
    obtain ⟨q₂, r₂⟩ := registered
    have hsound : QuicCtx.Sound { q with tableCnxById := t } l :=
      ⟨hq.links, hq.wake, hq.number, hq.live⟩
    exact (hlinked.registerNetIcid hicid hnone).sound hsound hx
  | none =>
    have hnot : ¬ q.GetsReady x := by
      rintro ⟨-, htls, hkeys, hfree⟩
      have htable : q₁.tableCnxByIcid = q.tableCnxByIcid := by
        have hicid := hlinked.byIcid
        rwa [hnone] at hicid
      rw [← htable, ← show q₁.localCnxidLength = q.localCnxidLength from hlinked.length] at hfree
      exact registerNetIcid_ne_none htls hkeys hfree r₁ hicid
    have hbytes := (hundoes halloc).resolve_left hnot
    rw [← hcreated] at hbytes
    exact ⟨hlinked.restored hq hx hbytes, hnot⟩

/-! ### Runs -/

/-- A creation that gets as far as the list, and does not fail behind that point when log names are
drawn or a connection ID without bytes was registered. -/
def QuicEvent.Proceeds : Option QuicCtx → QuicEvent → Prop
  | some q, .create x =>
    (q.cnxs x.cnx).isNone → q.GetsLinked x ∧ (x.isCnxAllocated = true → q.Undoes x) ∧
      (q.useUniqueLogNames = true → q.GetsReady x)
  | _, _ => True

instance (q : QuicCtx) (x : CreateArgs) : Decidable (q.GetsLinked x) := by
  unfold QuicCtx.GetsLinked QuicCtx.FindsCnxid
  infer_instance

instance (q : QuicCtx) (x : CreateArgs) : Decidable (q.GetsReady x) := by
  unfold QuicCtx.GetsReady
  infer_instance

instance (q : QuicCtx) (x : CreateArgs) : Decidable (q.Undoes x) := by
  unfold QuicCtx.Undoes QuicCtx.Unregisters
  infer_instance

instance (q : Option QuicCtx) (e : QuicEvent) : Decidable (e.Proceeds q) := by
  cases q <;> cases e <;> unfold QuicEvent.Proceeds <;> infer_instance

/-- The context exists, and keeps track of its connections. -/
def KeepsTrack (q : Option QuicCtx) : Prop := ∃ q' l, q = some q' ∧ q'.Sound l

/-- **One call.** -/
theorem QuicCtx.Sound.createCnx (hq : q.Sound l) (hx : q.cnxs x.cnx = none) (h : q.GetsLinked x)
    (hundoes : x.isCnxAllocated = true → q.Undoes x)
    (hready : q.useUniqueLogNames = true → q.GetsReady x) :
    ∃ q' created, q.createCnx x = some (q', created) ∧
      if created then q'.Sound (x.cnx :: l) else q.Restored q' := by
  have hfree : x.cnx ∉ l := fun hmem => by
    have := (hq.live x.cnx).mpr hmem
    simp [hx] at this
  have hbuild := hq.buildCnx hfree h hundoes
  refine ⟨(q.buildCnx x).1, (q.buildCnx x).2, ?_, ?_⟩
  · rw [QuicCtx.createCnx, if_neg]
    intro hfault
    simp only [Bool.and_eq_true, Bool.not_eq_true'] at hfault
    rw [hfault.2] at hbuild
    exact hbuild.2 (hready hfault.1)
  · split_ifs at hbuild ⊢
    · exact hbuild
    · exact hbuild.1

private theorem KeepsTrack.step {q : Option QuicCtx} (h : KeepsTrack q) (e : QuicEvent)
    (he : e.Proceeds q) : KeepsTrack (QuicCtx.step q e) := by
  obtain ⟨q, l, rfl, hq⟩ := h
  cases e with
  | create x =>
    rw [QuicCtx.step]
    cases hx : q.cnxs x.cnx with
    | some r => exact ⟨q, l, by simp, hq⟩
    | none =>
      obtain ⟨hlinked, hundoes, hready⟩ := he (by simp [hx])
      obtain ⟨q', created, hcreate, hq'⟩ := hq.createCnx hx hlinked hundoes hready
      rw [hcreate]
      split_ifs at hq'
      · exact ⟨q', x.cnx :: l, by simp, hq'⟩
      · exact ⟨q', l, by simp, hq.restored hq'⟩
  | delete cnx =>
    rw [QuicCtx.step]
    cases hr : q.cnxs cnx with
    | none => exact ⟨q, l, rfl, hq⟩
    | some r => exact ⟨_, l.erase cnx, rfl, hq.deleteCnx ((hq.live cnx).mp (by simp [hr])) r⟩

/-- **Connections are kept** in a run in which every creation gets as far as the list: in each state
the list and the wake list have the connections that exist, and a creation that fails leaves
everything as it was. -/
theorem connections_kept (localCnxidLength maxHalfOpenBeforeRetry : ℕ) (useUniqueLogNames : Bool)
    (evs : List QuicEvent)
    (h : Along QuicCtx.step (fun q e => e.Proceeds q)
      (some (QuicCtx.init localCnxidLength maxHalfOpenBeforeRetry useUniqueLogNames)) evs) :
    ∃ q l, run QuicCtx.step
        (some (QuicCtx.init localCnxidLength maxHalfOpenBeforeRetry useUniqueLogNames)) evs =
          some q ∧
      q.Sound l ∧ ∀ x, q.cnxs x.cnx = none → QuicEvent.Proceeds (some q) (.create x) →
        ∃ q' created, q.createCnx x = some (q', created) ∧ (created = false → q.Restored q') := by
  have hinit : KeepsTrack
      (some (QuicCtx.init localCnxidLength maxHalfOpenBeforeRetry useUniqueLogNames)) :=
    ⟨_, [], rfl, QuicCtx.Sound.init ..⟩
  obtain ⟨q, l, hrun, hq⟩ := run_invariant_of_along (I := KeepsTrack)
    (P := fun q e => e.Proceeds q) (fun _ e hq he => hq.step e he) hinit h
  refine ⟨q, l, hrun, hq, fun x hx hproceeds => ?_⟩
  obtain ⟨hlinked, hundoes, hready⟩ := hproceeds (by simp [hx])
  obtain ⟨q', created, hcreate, hq'⟩ := hq.createCnx hx hlinked hundoes hready
  refine ⟨q', created, hcreate, fun hfailed => ?_⟩
  rwa [hfailed, if_neg (by simp)] at hq'

/-- A client connection that draws its connection ID. -/
def clientCnx (cnx : ℕ) (draws : CnxidDraws) (isTlsCreated : Bool) : QuicEvent :=
  .create
    { cnx := cnx
      initialCnxid := [cnx.toUInt8]
      addrTo := none
      startTime := 0
      clientMode := true
      isCnxAllocated := true
      isCnxidAllocated := true
      draws := draws
      isPathCreated := true
      isStashCreated := true
      preferedAddressDraws := none
      isTlsCreated := isTlsCreated
      areKeysCreated := true }

theorem connections_kept_sample :
    let evs := [clientCnx 1 (.plain 7) true, clientCnx 2 (.plain 8) false, clientCnx 3 .empty true]
    Along QuicCtx.step (fun q e => e.Proceeds q) (some (QuicCtx.init 8 10 false)) evs ∧
      ∃ q l, run QuicCtx.step (some (QuicCtx.init 8 10 false)) evs = some q ∧ q.Sound l ∧
        ∀ x, q.cnxs x.cnx = none → QuicEvent.Proceeds (some q) (.create x) →
          ∃ q' created, q.createCnx x = some (q', created) ∧ (created = false → q.Restored q') := by
  intro evs
  have h : Along QuicCtx.step (fun q e => e.Proceeds q) (some (QuicCtx.init 8 10 false)) evs := by
    decide +kernel
  exact ⟨h, connections_kept 8 10 false evs h⟩

/-- The third connection draws the connection ID of the first one 32 times. Both connections that
exist leave the list and the wake list. And the key of a connection ID without bytes stays in the
table when the creation of its connection fails. -/
theorem connections_lost :
    (∃ q, run QuicCtx.step (some (QuicCtx.init 8 10 false))
        [clientCnx 1 (.plain 7) true, clientCnx 2 (.plain 8) true, clientCnx 3 (.plain 7) true] =
          some q ∧
      (q.cnxs 1).isSome ∧ (q.cnxs 2).isSome ∧ q.cnxList.first = none ∧
      q.wakeList.root.toList = [] ∧ q.currentNumberConnections = 1 ∧ ∀ l, ¬ q.Sound l) ∧
    (run QuicCtx.step (some (QuicCtx.init 8 10 false)) [clientCnx 1 .empty false]).map
      (fun q => (q.cnxList.first, q.tableCnxById)) = some (none, [([], 1)]) := by
  refine ⟨?_, by decide +kernel⟩
  have hrun : (run QuicCtx.step (some (QuicCtx.init 8 10 false))
      [clientCnx 1 (.plain 7) true, clientCnx 2 (.plain 8) true, clientCnx 3 (.plain 7) true]).map
        (fun q => ((q.cnxs 1).isSome, (q.cnxs 2).isSome, q.cnxList.first, q.wakeList.root.toList,
          q.currentNumberConnections)) = some (true, true, none, [], 1) := by decide +kernel
  obtain ⟨q, hq, hfields⟩ := Option.map_eq_some_iff.mp hrun
  simp only [Prod.mk.injEq] at hfields
  obtain ⟨h1, h2, hfirst, hwake, hnumber⟩ := hfields
  refine ⟨q, hq, h1, h2, hfirst, hwake, hnumber, fun l hl => ?_⟩
  have hmem := (hl.live 1).mp h1
  rw [List.head?_eq_none_iff.mp (hl.links.first_eq.symm.trans hfirst)] at hmem
  cases hmem

end Picoquic
