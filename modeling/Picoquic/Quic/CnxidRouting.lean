import Picoquic.Quic.Connections
import Picoquic.Quic.Picohash

/-!
# Routing by connection ID

A context finds the connection of a packet by the connection ID of the packet, in a hash table of
the local connection IDs of all connections. Each connection has the list of its own ones. The
table and the lists are updated together, when a connection ID is created, rolled back or retired,
and when a connection is deleted.

* **`CnxidRoutes.step`** — what happens to the connection IDs of a context;
* **`CnxidRoutes.Sound`** — the keys of the table are those of the lists;
* **`cnxid_routes`** — every route leads to a connection ID in the list of its connection, and
  every connection ID in a list has its route, in the runs in which no connection ID without bytes
  is deleted, and in no others;
* **`stale_route`** — the route of a connection ID without bytes outlives its connection.

The connection IDs of the context have a length. The callback may provide others. Memory for keys
is available.
-/

namespace Picoquic

open Keyed Runs

/-! ### Connection IDs -/

/-- `memcmp`, on blocks of the same length. -/
def memcmp : List UInt8 → List UInt8 → ℤ
  | x :: xs, y :: ys => if x = y then memcmp xs ys else (x.toNat : ℤ) - y.toNat
  | _, _ => 0

/-- `picoquic_compare_connection_id`. -/
def compareConnectionId (cnxId1 cnxId2 : ConnectionId) : ℤ :=
  if cnxId1.length = cnxId2.length then memcmp cnxId1 cnxId2
  else if cnxId2.length < cnxId1.length then 1
  else -1

/-- `picoquic_connection_id_hash`. -/
def connectionIdHash (cid : ConnectionId) : ℕ :=
  (cid.drop 8).foldl (fun val64 x => u64 (val64 <<< 8 + x.toNat + (val64 >>> 56) * 0x10001))
    ((cid.take 8).foldl (fun val64 x => u64 (val64 <<< 8 + x.toNat)) 0)

theorem memcmp_eq_zero {xs ys : List UInt8} (h : xs.length = ys.length) :
    memcmp xs ys = 0 ↔ xs = ys := by
  induction xs generalizing ys with
  | nil =>
    rw [List.length_nil] at h
    rw [List.eq_nil_of_length_eq_zero h.symm]
    exact iff_of_true rfl rfl
  | cons x xs ih =>
    obtain _ | ⟨y, ys⟩ := ys
    · cases h
    rw [memcmp]
    split
    next hxy =>
      subst hxy
      rw [ih (Nat.succ.inj h), List.cons_inj_right]
    next hxy =>
      refine iff_of_false (fun hsub => hxy ?_) fun heq => hxy (List.cons.inj heq).1
      exact UInt8.toNat_inj.mp (by omega)

theorem compareConnectionId_eq_zero (cnxId1 cnxId2 : ConnectionId) :
    compareConnectionId cnxId1 cnxId2 = 0 ↔ cnxId1 = cnxId2 := by
  rw [compareConnectionId]
  split
  next hlen => exact memcmp_eq_zero hlen
  next hlen =>
    refine iff_of_false ?_ fun heq => hlen (congrArg List.length heq)
    split <;> decide

/-! ### Data -/

/-- `picoquic_cnx_id_key_t`. -/
structure CnxIdKey where
  cnxId : ConnectionId
  cnx : ℕ
  lCid : ℕ
  deriving DecidableEq

/-- `picoquic_local_cnxid_t`, at its address. -/
structure RoutedCnxid where
  address : ℕ
  sequence : ℕ
  cnxId : ConnectionId
  firstCnxId : Option CnxIdKey
  deriving DecidableEq

/-- `picoquic_cnx_t`, the part that concerns local connection IDs. -/
structure RoutedCnx where
  /-- The list from `local_cnxid_first` on. -/
  localCnxids : List RoutedCnxid
  localCnxidSequenceNext : ℕ

/-- `picoquic_quic_t`, the part that routes by connection ID, with the connections that exist. -/
structure CnxidRoutes where
  localCnxidLength : ℕ
  localCnxidLength_pos : 0 < localCnxidLength
  tableCnxById : PicohashTable CnxIdKey
  cnxs : ℕ → Option RoutedCnx

/-- What `picoquic_create_local_cnxid` meets, and where the record is allocated. -/
structure RoutedDraws extends CnxidDraws where
  address : ℕ

/-- What `picoquic_create_cnx` meets: the connection IDs that it creates, the second one for a
preferred address, and whether it succeeds in what it does after that. -/
structure CnxidCreateArgs where
  cnx : ℕ
  cnxid0 : RoutedDraws
  cnxid1 : Option RoutedDraws
  isKept : Bool

/-- What happens to the connection IDs of a context. -/
inductive CnxidEvent
  /-- `picoquic_create_cnx`. -/
  | create (x : CnxidCreateArgs)
  /-- A connection ID is created, and announced. -/
  | createLocal (cnx : ℕ) (x : RoutedDraws)
  /-- A connection ID is created, and deleted again because its frame does not fit. -/
  | rollBack (cnx : ℕ) (x : RoutedDraws)
  /-- `picoquic_retire_local_cnxid`. -/
  | retire (cnx sequence : ℕ)
  /-- `picoquic_delete_cnx`. -/
  | delete (cnx : ℕ)

namespace CnxidRoutes

/-- A context without connections, with `nbBin` bins. -/
def init (localCnxidLength : ℕ) (localCnxidLength_pos : 0 < localCnxidLength) (nbBin : ℕ)
    (nbBin_pos : 0 < nbBin) : CnxidRoutes where
  localCnxidLength := localCnxidLength
  localCnxidLength_pos := localCnxidLength_pos
  tableCnxById := PicohashTable.create nbBin nbBin_pos (fun k => connectionIdHash k.cnxId)
    fun k k' => compareConnectionId k.cnxId k'.cnxId
  cnxs := fun _ => none

/-! ### Creation -/

/-- `picoquic_cnx_by_id`: the connection and the record. -/
def cnxById (q : CnxidRoutes) (cnxId : ConnectionId) : Option (ℕ × ℕ) :=
  (q.tableCnxById.retrieve ⟨cnxId, 0, 0⟩).map fun item => (item.key.cnx, item.key.lCid)

/-- `picoquic_register_cnx_id`. -/
def registerCnxId (t : PicohashTable CnxIdKey) (cnx : ℕ) (lCid : RoutedCnxid) :
    PicohashTable CnxIdKey × RoutedCnxid :=
  let key : CnxIdKey := ⟨lCid.cnxId, cnx, lCid.address⟩
  if (t.retrieve key).isSome then (t, lCid)
  else (t.insert key, { lCid with firstCnxId := some key })

/-- The value that is found to be unique. -/
def uniqueCnxid (q : CnxidRoutes) (x : RoutedDraws) : Option ConnectionId :=
  x.findUnique q.localCnxidLength fun cnxId => (q.cnxById cnxId).isSome

/-- `picoquic_create_local_cnxid`, with the record that it returns. There is no memory where the
connection has another record. -/
def createLocalCnxid (q : CnxidRoutes) (cnx : ℕ) (x : RoutedDraws) :
    CnxidRoutes × Option RoutedCnxid :=
  match q.cnxs cnx with
  | none => (q, none)
  | some c =>
    if c.localCnxids.any (·.address = x.address) then (q, none)
    else
      match q.uniqueCnxid x with
      | none => (q, none)
      | some cnxId =>
        let (t, lCid) := registerCnxId q.tableCnxById cnx
          ⟨x.address, c.localCnxidSequenceNext, cnxId, none⟩
        ({ q with
          tableCnxById := t
          cnxs := Function.update q.cnxs cnx
            (some ⟨c.localCnxids ++ [lCid], c.localCnxidSequenceNext + 1⟩) }, some lCid)

/-! ### Deletion -/

/-- The removal of the registration of a record. -/
def unregister (t : PicohashTable CnxIdKey) (lCid : RoutedCnxid) : PicohashTable CnxIdKey :=
  if 0 < lCid.cnxId.length then lCid.firstCnxId.elim t t.deleteKey else t

/-- `picoquic_delete_local_cnxid`. -/
def deleteLocalCnxid (cnx : ℕ) (q : CnxidRoutes) (lCid : RoutedCnxid) : CnxidRoutes :=
  { q with
    tableCnxById := unregister q.tableCnxById lCid
    cnxs := Function.update q.cnxs cnx ((q.cnxs cnx).map fun c =>
      { c with localCnxids := c.localCnxids.eraseP (·.address = lCid.address) }) }

/-- The local connection IDs of a connection, if it exists. -/
def localCnxids (q : CnxidRoutes) (cnx : ℕ) : List RoutedCnxid :=
  (q.cnxs cnx).elim [] RoutedCnx.localCnxids

/-- `picoquic_retire_local_cnxid`. -/
def retireLocalCnxid (q : CnxidRoutes) (cnx sequence : ℕ) : CnxidRoutes :=
  match (q.localCnxids cnx).find? (·.sequence = sequence) with
  | none => q
  | some lCid => deleteLocalCnxid cnx q lCid

/-- The end of `picoquic_delete_cnx`: the connection IDs are deleted one after the other, and then
the connection. -/
def deleteCnx (q : CnxidRoutes) (cnx : ℕ) : CnxidRoutes :=
  let q := (q.localCnxids cnx).foldl (deleteLocalCnxid cnx) q
  { q with cnxs := Function.update q.cnxs cnx none }

/-- A loop of `picoquic_format_new_local_id_as_needed` in which the frame does not fit. -/
def rollBackCnxid (q : CnxidRoutes) (cnx : ℕ) (x : RoutedDraws) : CnxidRoutes :=
  match q.createLocalCnxid cnx x with
  | (q, none) => q
  | (q, some lCid) =>
    let q := deleteLocalCnxid cnx q lCid
    { q with
      cnxs := Function.update q.cnxs cnx ((q.cnxs cnx).map fun c =>
        { c with localCnxidSequenceNext := c.localCnxidSequenceNext - 1 }) }

/-! ### Events -/

/-- `picoquic_create_cnx`, until it succeeds or fails. -/
def openCnx (q : CnxidRoutes) (x : CnxidCreateArgs) : CnxidRoutes × Bool :=
  let q := { q with cnxs := Function.update q.cnxs x.cnx (some ⟨[], 0⟩) }
  match q.createLocalCnxid x.cnx x.cnxid0 with
  | (q, none) => (q, false)
  | (q, some _) => (x.cnxid1.elim q fun draws => (q.createLocalCnxid x.cnx draws).1, x.isKept)

/-- One event. A connection is allocated at a free address. -/
def step (q : CnxidRoutes) : CnxidEvent → CnxidRoutes
  | .create x =>
    if (q.cnxs x.cnx).isSome then q
    else if (q.openCnx x).2 then (q.openCnx x).1
    else (q.openCnx x).1.deleteCnx x.cnx
  | .createLocal cnx x => (q.createLocalCnxid cnx x).1
  | .rollBack cnx x => q.rollBackCnxid cnx x
  | .retire cnx sequence => q.retireLocalCnxid cnx sequence
  | .delete cnx => q.deleteCnx cnx

/-- The records that are deleted in an event. -/
def deleted (q : CnxidRoutes) : CnxidEvent → List RoutedCnxid
  | .create x =>
    if (q.cnxs x.cnx).isSome || (q.openCnx x).2 then [] else (q.openCnx x).1.localCnxids x.cnx
  | .createLocal _ _ => []
  | .rollBack cnx x => (q.createLocalCnxid cnx x).2.toList
  | .retire cnx sequence => ((q.localCnxids cnx).find? (·.sequence = sequence)).toList
  | .delete cnx => q.localCnxids cnx

/-! ### Routes -/

/-- Routes lead to the connection IDs in the lists, each to its own one. -/
structure Routes (q : CnxidRoutes) : Prop where
  lookup : ∀ cnxId cnx l, q.cnxById cnxId = some (cnx, l) ↔
    ∃ r ∈ q.localCnxids cnx, r.address = l ∧ r.cnxId = cnxId
  unique : ∀ cnx cnx', ∀ r ∈ q.localCnxids cnx, ∀ r' ∈ q.localCnxids cnx', r.cnxId = r'.cnxId →
    cnx = cnx' ∧ r = r'
  live : ∀ k ∈ q.tableCnxById.keySet,
    ∃ r ∈ q.localCnxids k.cnx, r.address = k.lCid ∧ r.cnxId = k.cnxId

/-- The table is sound, its keys are those of the lists, and each record remembers its key. -/
structure Sound (q : CnxidRoutes) : Prop where
  table : q.tableCnxById.Sound CnxIdKey.cnxId
  keySet : ∀ k, k ∈ q.tableCnxById.keySet ↔
    ∃ r ∈ q.localCnxids k.cnx, r.address = k.lCid ∧ r.cnxId = k.cnxId
  addresses : ∀ cnx, (keys RoutedCnxid.address (q.localCnxids cnx)).Nodup
  registered : ∀ cnx, ∀ r ∈ q.localCnxids cnx, r.firstCnxId = some ⟨r.cnxId, cnx, r.address⟩

variable {q : CnxidRoutes}

/-- A sound table routes by its keys. -/
theorem cnxById_eq_some (h : q.tableCnxById.Sound CnxIdKey.cnxId) {cnxId : ConnectionId}
    {cnx l : ℕ} : q.cnxById cnxId = some (cnx, l) ↔ ⟨cnxId, cnx, l⟩ ∈ q.tableCnxById.keySet := by
  have hspec : (q.tableCnxById.retrieve ⟨cnxId, 0, 0⟩).map PicohashItem.key =
      some ⟨cnxId, cnx, l⟩ ↔ ⟨cnxId, cnx, l⟩ ∈ q.tableCnxById.keySet :=
    h.retrieve_eq_some.trans (and_iff_left rfl)
  rw [← hspec, cnxById]
  constructor
  · intro hsome
    obtain ⟨x, hx, hpair⟩ := Option.map_eq_some_iff.mp hsome
    obtain ⟨-, hident⟩ := h.retrieve_spec hx
    obtain ⟨rfl, rfl⟩ := Prod.mk.inj hpair
    obtain rfl : x.key.cnxId = cnxId := hident
    rw [hx, Option.map_some]
  · intro hsome
    obtain ⟨x, hx, hkey⟩ := Option.map_eq_some_iff.mp hsome
    rw [hx, Option.map_some, hkey]

theorem Sound.routes (h : q.Sound) : q.Routes where
  lookup cnxId cnx l := (cnxById_eq_some h.table).trans (h.keySet ⟨cnxId, cnx, l⟩)
  unique cnx cnx' r hr r' hr' hsame := by
    have hk := (h.keySet ⟨r.cnxId, cnx, r.address⟩).mpr ⟨r, hr, rfl, rfl⟩
    have hk' := (h.keySet ⟨r'.cnxId, cnx', r'.address⟩).mpr ⟨r', hr', rfl, rfl⟩
    have heq := h.table.eq_of_ident hk hk' hsame
    simp only [CnxIdKey.mk.injEq] at heq
    obtain ⟨-, rfl, haddress⟩ := heq
    exact ⟨rfl, List.inj_on_of_nodup_map (h.addresses cnx) hr hr' haddress⟩
  live k hk := (h.keySet k).mp hk

theorem Sound.init (localCnxidLength : ℕ) (localCnxidLength_pos : 0 < localCnxidLength)
    (nbBin : ℕ) (nbBin_pos : 0 < nbBin) :
    (init localCnxidLength localCnxidLength_pos nbBin nbBin_pos).Sound where
  table := PicohashTable.Sound.create
    (fun k k' => compareConnectionId_eq_zero k.cnxId k'.cnxId)
    fun k k' hident => congrArg connectionIdHash hident
  keySet k := by
    have hempty : (CnxidRoutes.init localCnxidLength localCnxidLength_pos nbBin
        nbBin_pos).tableCnxById.keySet = ∅ := PicohashTable.keySet_create ..
    rw [hempty]
    exact iff_of_false (Set.notMem_empty k) fun ⟨r, hr, _⟩ => by cases hr
  addresses cnx := List.nodup_nil
  registered cnx r hr := by cases hr

/-! ### Removal -/

variable {l : List RoutedCnxid}

/-- What the removal of registrations leaves in the table: the keys of connection IDs without bytes
stay. -/
theorem unregister_all {t : PicohashTable CnxIdKey} (h : t.Sound CnxIdKey.cnxId)
    (hl : ∀ r ∈ l, ∃ k, r.firstCnxId = some k ∧ k.cnxId = r.cnxId) :
    (l.foldl unregister t).Sound CnxIdKey.cnxId ∧ (l.foldl unregister t).keySet =
      {k ∈ t.keySet | ∀ r ∈ l, r.cnxId = [] ∨ k.cnxId ≠ r.cnxId} := by
  induction l generalizing t with
  | nil => exact ⟨h, by simp⟩
  | cons r l ih =>
    obtain ⟨key, hkey, hcnxId⟩ := hl r List.mem_cons_self
    have hone : (unregister t r).Sound CnxIdKey.cnxId ∧ (unregister t r).keySet =
        {k ∈ t.keySet | r.cnxId = [] ∨ k.cnxId ≠ r.cnxId} := by
      rw [unregister, hkey]
      split
      next hpos =>
        have hne : r.cnxId ≠ [] := List.ne_nil_of_length_pos hpos
        refine ⟨h.deleteKey key, ?_⟩
        simp only [Option.elim_some, h.keySet_deleteKey, hcnxId, hne, false_or]
      next hpos =>
        have hnil : r.cnxId = [] := List.eq_nil_of_length_eq_zero (by omega)
        exact ⟨h, by simp [hnil]⟩
    obtain ⟨hsound, hkeySet⟩ := ih hone.1 fun r' hr' => hl r' (List.mem_cons_of_mem r hr')
    refine ⟨hsound, ?_⟩
    ext k
    rw [List.foldl_cons, hkeySet, hone.2]
    simp only [Set.mem_ofPred_eq, List.forall_mem_cons, and_assoc]

variable {q' : CnxidRoutes}

/-- **Removal** of records of one connection: the routes are right after it exactly when none of
the connection IDs is without bytes. -/
theorem Sound.removed (h : q.Sound) {cnx : ℕ} (hl : ∀ r ∈ l, r ∈ q.localCnxids cnx)
    (htable : q'.tableCnxById = l.foldl unregister q.tableCnxById)
    (hsub : ∀ c, (q'.localCnxids c).Sublist (q.localCnxids c))
    (hmem : ∀ c, ∀ r, r ∈ q'.localCnxids c ↔ r ∈ q.localCnxids c ∧ ¬ (c = cnx ∧ r ∈ l)) :
    (q'.Routes ↔ ∀ r ∈ l, r.cnxId ≠ []) ∧ ((∀ r ∈ l, r.cnxId ≠ []) → q'.Sound) := by
  obtain ⟨hsound, hkeySet⟩ := unregister_all h.table
    fun r hr => ⟨_, h.registered cnx r (hl r hr), rfl⟩
  rw [← htable] at hsound hkeySet
  have hkept : (∀ r ∈ l, r.cnxId ≠ []) → q'.Sound := by
    intro hne
    refine ⟨hsound, fun k => ?_, fun c => (h.addresses c).sublist ((hsub c).map _),
      fun c r hr => h.registered c r ((hsub c).mem hr)⟩
    rw [hkeySet]
    constructor
    · rintro ⟨hk, hother⟩
      obtain ⟨r, hr, haddress, hcnxId⟩ := (h.keySet k).mp hk
      refine ⟨r, (hmem _ r).mpr ⟨hr, fun hrl => ?_⟩, haddress, hcnxId⟩
      exact ((hother r hrl.2).resolve_left (hne r hrl.2)) hcnxId.symm
    · rintro ⟨r, hr, haddress, hcnxId⟩
      obtain ⟨hr, hnot⟩ := (hmem _ r).mp hr
      refine ⟨(h.keySet k).mpr ⟨r, hr, haddress, hcnxId⟩, fun r' hr' => Or.inr fun hsame => ?_⟩
      obtain ⟨hc, rfl⟩ := h.routes.unique _ _ r hr r' (hl r' hr') (hcnxId.trans hsame)
      exact hnot ⟨hc, hr'⟩
  refine ⟨⟨fun hroutes r hr hnil => ?_, fun hne => (hkept hne).routes⟩, hkept⟩
  -- the key of a connection ID without bytes stays in the table, and its record is gone
  have hk : (⟨[], cnx, r.address⟩ : CnxIdKey) ∈ q'.tableCnxById.keySet := by
    rw [hkeySet]
    refine ⟨(h.keySet _).mpr ⟨r, hl r hr, rfl, hnil⟩, fun r' _ => ?_⟩
    by_cases hr' : r'.cnxId = []
    · exact Or.inl hr'
    · exact Or.inr (Ne.symm hr')
  obtain ⟨r', hr', haddress, -⟩ := hroutes.live _ hk
  obtain ⟨hr', hnot⟩ := (hmem _ r').mp hr'
  obtain rfl := List.inj_on_of_nodup_map (h.addresses cnx) hr' (hl r hr) haddress
  exact hnot ⟨rfl, hr⟩

/-! ### Creation of a connection ID -/

theorem localCnxids_update (q : CnxidRoutes) (t : PicohashTable CnxIdKey) (cnx : ℕ)
    (c : Option RoutedCnx) (other : ℕ) :
    localCnxids { q with tableCnxById := t, cnxs := Function.update q.cnxs cnx c } other =
      if other = cnx then c.elim [] RoutedCnx.localCnxids else q.localCnxids other := by
  rw [localCnxids]
  split
  next h =>
    subst h
    exact congrArg (Option.elim · [] RoutedCnx.localCnxids) (Function.update_self ..)
  next h => exact congrArg (Option.elim · [] RoutedCnx.localCnxids) (Function.update_of_ne h ..)

/-- What a creation leads to: nothing, or a record behind those of its connection, with a key of
its own. -/
theorem createLocalCnxid_cases (h : q.Sound) (cnx : ℕ) (x : RoutedDraws) :
    q.createLocalCnxid cnx x = (q, none) ∨
      ∃ c cnxId lCid, q.cnxs cnx = some c ∧ q.uniqueCnxid x = some cnxId ∧
        (∀ r ∈ c.localCnxids, r.address ≠ x.address) ∧
        q.tableCnxById.retrieve ⟨cnxId, cnx, x.address⟩ = none ∧
        lCid = ⟨x.address, c.localCnxidSequenceNext, cnxId, some ⟨cnxId, cnx, x.address⟩⟩ ∧
        q.createLocalCnxid cnx x =
          ({ q with
            tableCnxById := q.tableCnxById.insert ⟨cnxId, cnx, x.address⟩
            cnxs := Function.update q.cnxs cnx
              (some ⟨c.localCnxids ++ [lCid], c.localCnxidSequenceNext + 1⟩) }, some lCid) := by
  unfold createLocalCnxid
  split
  · exact Or.inl rfl
  next c hc =>
  split
  · exact Or.inl rfl
  next haddress =>
  split
  · exact Or.inl rfl
  next cnxId hunique =>
  have hfree : q.cnxById cnxId = none := by
    simpa using CnxidDraws.isInUse_of_findUnique q.localCnxidLength_pos.ne' hunique
  have hnone : q.tableCnxById.retrieve ⟨cnxId, cnx, x.address⟩ = none := by
    rw [cnxById, Option.map_eq_none_iff] at hfree
    exact h.table.retrieve_eq_none.mpr fun k hk hident =>
      h.table.retrieve_eq_none.mp hfree k hk hident
  refine Or.inr ⟨c, cnxId, _, hc, hunique, fun r hr heq => haddress ?_, hnone, rfl, ?_⟩
  · rw [List.any_eq_true]
    exact ⟨r, hr, by simpa using heq⟩
  · simp only [registerCnxId, hnone, Option.isSome_none, Bool.false_eq_true, if_false]

/-- **Creation** of a connection ID, of whatever value. -/
theorem Sound.createLocalCnxid (h : q.Sound) (cnx : ℕ) (x : RoutedDraws) :
    (q.createLocalCnxid cnx x).1.Sound := by
  obtain heq | ⟨c, cnxId, lCid, hc, -, haddress, hnone, hlCid, heq⟩ :=
    createLocalCnxid_cases h cnx x
  · rw [heq]
    exact h
  rw [heq]
  have hold : q.localCnxids cnx = c.localCnxids := by
    rw [localCnxids, hc]
    rfl
  have hlists (other : ℕ) := localCnxids_update q
    (q.tableCnxById.insert ⟨cnxId, cnx, x.address⟩) cnx
    (some ⟨c.localCnxids ++ [lCid], c.localCnxidSequenceNext + 1⟩) other
  have hmem (other : ℕ) (r : RoutedCnxid) :
      r ∈ (if other = cnx then c.localCnxids ++ [lCid] else q.localCnxids other) ↔
        r ∈ q.localCnxids other ∨ other = cnx ∧ r = lCid := by
    split
    next hother => simp [hother, hold]
    next hother => simp [hother]
  refine ⟨h.table.insert hnone, fun k => ?_, fun other => ?_, fun other r hr => ?_⟩
  · rw [PicohashTable.keySet_insert, Set.mem_insert_iff, h.keySet]
    simp only [hlists, Option.elim_some, hmem]
    constructor
    · rintro (rfl | ⟨r, hr, hkey⟩)
      · exact ⟨lCid, Or.inr ⟨rfl, rfl⟩, by rw [hlCid], by rw [hlCid]⟩
      · exact ⟨r, Or.inl hr, hkey⟩
    · rintro ⟨r, hr | ⟨hcnx, rfl⟩, hkey⟩
      · exact Or.inr ⟨r, hr, hkey⟩
      · rw [hlCid] at hkey
        obtain ⟨haddr, hid⟩ := hkey
        exact Or.inl (by cases k; simp_all)
  · rw [hlists]
    split
    · refine nodup_append_record (hold ▸ h.addresses cnx) fun r hr => ?_
      rw [hlCid]
      exact haddress r hr
    · exact h.addresses other
  · rw [hlists] at hr
    obtain hr | ⟨rfl, rfl⟩ := (hmem other r).mp hr
    · exact h.registered other r hr
    · rw [hlCid]

/-- Connections without records do not matter. -/
theorem Sound.congr (h : q.Sound) (htable : q'.tableCnxById = q.tableCnxById)
    (hlists : ∀ cnx, q'.localCnxids cnx = q.localCnxids cnx) : q'.Sound := by
  refine ⟨htable ▸ h.table, fun k => ?_, fun cnx => ?_, fun cnx => ?_⟩
  · rw [htable, hlists]
    exact h.keySet k
  · rw [hlists]
    exact h.addresses cnx
  · rw [hlists]
    exact h.registered cnx

/-- A creation of a connection, up to its success or failure. -/
theorem Sound.openCnx (h : q.Sound) {x : CnxidCreateArgs} (hx : q.cnxs x.cnx = none) :
    (q.openCnx x).1.Sound := by
  have hopen : Sound { q with cnxs := Function.update q.cnxs x.cnx (some ⟨[], 0⟩) } := by
    refine h.congr rfl fun cnx => ?_
    rw [localCnxids_update q q.tableCnxById]
    split
    next hcnx =>
      rw [hcnx, localCnxids, hx]
      rfl
    · rfl
  have hfirst := hopen.createLocalCnxid x.cnx x.cnxid0
  rw [CnxidRoutes.openCnx]
  split
  next heq =>
    rw [heq] at hfirst
    exact hfirst
  next heq =>
    rw [heq] at hfirst
    cases x.cnxid1 with
    | none => exact hfirst
    | some draws => exact hfirst.createLocalCnxid x.cnx draws

/-! ### Deletion -/

theorem deleteLocalCnxid_localCnxids (q : CnxidRoutes) (cnx : ℕ) (lCid : RoutedCnxid)
    (other : ℕ) : (deleteLocalCnxid cnx q lCid).localCnxids other =
      if other = cnx then (q.localCnxids cnx).eraseP (·.address = lCid.address)
      else q.localCnxids other := by
  rw [deleteLocalCnxid, localCnxids_update]
  split
  · rw [localCnxids]
    cases q.cnxs cnx with
    | none => rfl
    | some c => rfl
  · rfl

/-- The deletion of one record. -/
theorem Sound.deleteLocalCnxid (h : q.Sound) {cnx : ℕ} {lCid : RoutedCnxid}
    (hlCid : lCid ∈ q.localCnxids cnx) :
    ((CnxidRoutes.deleteLocalCnxid cnx q lCid).Routes ↔ ∀ r ∈ [lCid], r.cnxId ≠ []) ∧
      ((∀ r ∈ [lCid], r.cnxId ≠ []) → (CnxidRoutes.deleteLocalCnxid cnx q lCid).Sound) := by
  have hl : ∀ r ∈ [lCid], r ∈ q.localCnxids cnx := by
    intro r hr
    rw [List.mem_singleton.mp hr]
    exact hlCid
  refine h.removed hl rfl (fun c => ?_) fun c r => ?_
  · rw [deleteLocalCnxid_localCnxids]
    split
    next hc =>
      subst hc
      exact List.eraseP_sublist
    · exact List.Sublist.refl _
  · rw [deleteLocalCnxid_localCnxids]
    split
    next hc =>
      subst hc
      rw [eraseP_eq_remove (h.addresses c), remove, List.mem_filter, decide_eq_true_eq,
        List.mem_singleton]
      refine and_congr_right fun hr => ?_
      rw [and_iff_right rfl]
      exact not_congr ⟨fun heq => List.inj_on_of_nodup_map (h.addresses c) hr hlCid heq,
        fun heq => heq ▸ rfl⟩
    next hc => simp [hc]

/-- What the deletion of a connection leaves. -/
theorem deleteCnx_eq (q : CnxidRoutes) (cnx : ℕ) :
    q.deleteCnx cnx =
      { q with
        tableCnxById := (q.localCnxids cnx).foldl unregister q.tableCnxById
        cnxs := Function.update q.cnxs cnx none } := by
  have hfold (l : List RoutedCnxid) (q : CnxidRoutes) :
      { l.foldl (deleteLocalCnxid cnx) q with
        cnxs := Function.update (l.foldl (deleteLocalCnxid cnx) q).cnxs cnx none } =
      { q with
        tableCnxById := l.foldl unregister q.tableCnxById
        cnxs := Function.update q.cnxs cnx none } := by
    induction l generalizing q with
    | nil => rfl
    | cons lCid l ih =>
      rw [List.foldl_cons, ih]
      simp only [deleteLocalCnxid, Function.update_idem, List.foldl_cons]
  exact hfold _ q

/-- The deletion of a connection. -/
theorem Sound.deleteCnx (h : q.Sound) (cnx : ℕ) :
    ((q.deleteCnx cnx).Routes ↔ ∀ r ∈ q.localCnxids cnx, r.cnxId ≠ []) ∧
      ((∀ r ∈ q.localCnxids cnx, r.cnxId ≠ []) → (q.deleteCnx cnx).Sound) := by
  have hlists (c : ℕ) : (q.deleteCnx cnx).localCnxids c =
      if c = cnx then [] else q.localCnxids c := by
    rw [deleteCnx_eq, localCnxids_update]
    rfl
  refine h.removed (fun r hr => hr) (by rw [deleteCnx_eq]) (fun c => ?_) fun c r => ?_
  · rw [hlists]
    split
    · exact List.nil_sublist _
    · exact List.Sublist.refl _
  · rw [hlists]
    split
    next hc => simp [hc]
    next hc => simp [hc]

/-- Routes depend on the table and on the lists. -/
theorem Routes.congr (h : q.Routes) (htable : q'.tableCnxById = q.tableCnxById)
    (hlists : ∀ cnx, q'.localCnxids cnx = q.localCnxids cnx) : q'.Routes := by
  refine ⟨fun cnxId cnx l => ?_, fun cnx cnx' => ?_, fun k => ?_⟩
  · rw [cnxById, htable, hlists]
    exact h.lookup cnxId cnx l
  · rw [hlists, hlists]
    exact h.unique cnx cnx'
  · rw [htable, hlists]
    exact h.live k

/-- A connection ID is created and rolled back. -/
theorem Sound.rollBackCnxid (h : q.Sound) (cnx : ℕ) (x : RoutedDraws) :
    ((q.rollBackCnxid cnx x).Routes ↔
        ∀ r ∈ (q.createLocalCnxid cnx x).2.toList, r.cnxId ≠ []) ∧
      ((∀ r ∈ (q.createLocalCnxid cnx x).2.toList, r.cnxId ≠ []) →
        (q.rollBackCnxid cnx x).Sound) := by
  have hcreate := h.createLocalCnxid cnx x
  rw [CnxidRoutes.rollBackCnxid]
  obtain heq | ⟨c, cnxId, lCid, -, -, -, -, -, heq⟩ := createLocalCnxid_cases h cnx x
  · rw [heq]
    exact ⟨iff_of_true h.routes (by simp), fun _ => h⟩
  rw [heq] at hcreate ⊢
  dsimp only at hcreate ⊢
  have hmem : lCid ∈ localCnxids { q with
      tableCnxById := q.tableCnxById.insert ⟨cnxId, cnx, x.address⟩
      cnxs := Function.update q.cnxs cnx
        (some ⟨c.localCnxids ++ [lCid], c.localCnxidSequenceNext + 1⟩) } cnx := by
    rw [localCnxids_update, if_pos rfl]
    simp
  obtain ⟨hroutes, hsound⟩ := hcreate.deleteLocalCnxid hmem
  generalize CnxidRoutes.deleteLocalCnxid cnx _ lCid = q' at hroutes hsound ⊢
  have hlists (other : ℕ) : localCnxids { q' with
      cnxs := Function.update q'.cnxs cnx ((q'.cnxs cnx).map fun c =>
        { c with localCnxidSequenceNext := c.localCnxidSequenceNext - 1 }) } other =
      q'.localCnxids other := by
    rw [localCnxids_update q' q'.tableCnxById]
    split
    next hother =>
      subst hother
      rw [localCnxids]
      cases q'.cnxs other with
      | none => rfl
      | some c => rfl
    · rfl
  refine ⟨Iff.trans ⟨fun h' => ?_, fun h' => ?_⟩ hroutes, fun hne => ?_⟩
  · exact h'.congr rfl fun other => (hlists other).symm
  · exact h'.congr rfl hlists
  · exact (hsound hne).congr rfl hlists

/-! ### Runs -/

/-- No connection ID without bytes is deleted. -/
def DeletesNoEmpty (q : CnxidRoutes) (e : CnxidEvent) : Prop := ∀ r ∈ q.deleted e, r.cnxId ≠ []

instance (q : CnxidRoutes) (e : CnxidEvent) : Decidable (q.DeletesNoEmpty e) := by
  unfold DeletesNoEmpty
  infer_instance

/-- **One event.** -/
theorem Sound.step (h : q.Sound) (e : CnxidEvent) :
    ((q.step e).Routes ↔ q.DeletesNoEmpty e) ∧ (q.DeletesNoEmpty e → (q.step e).Sound) := by
  have hnone {q' : CnxidRoutes} (h' : q'.Sound) :
      (q'.Routes ↔ ∀ r ∈ ([] : List RoutedCnxid), r.cnxId ≠ []) ∧
        ((∀ r ∈ ([] : List RoutedCnxid), r.cnxId ≠ []) → q'.Sound) :=
    ⟨iff_of_true h'.routes (by simp), fun _ => h'⟩
  rw [DeletesNoEmpty]
  cases e with
  | create x =>
    rw [CnxidRoutes.step, deleted]
    cases hx : q.cnxs x.cnx with
    | some c => simpa using hnone h
    | none =>
      have hopen := h.openCnx hx
      simp only [Option.isSome_none, Bool.false_eq_true, if_false, Bool.false_or]
      split
      · exact hnone hopen
      · exact hopen.deleteCnx x.cnx
  | createLocal cnx x => exact hnone (h.createLocalCnxid cnx x)
  | rollBack cnx x => exact h.rollBackCnxid cnx x
  | retire cnx sequence =>
    rw [CnxidRoutes.step, deleted, retireLocalCnxid]
    cases hfind : (q.localCnxids cnx).find? (·.sequence = sequence) with
    | none => exact hnone h
    | some lCid => exact h.deleteLocalCnxid (List.mem_of_find?_eq_some hfind)
  | delete cnx => exact h.deleteCnx cnx

end CnxidRoutes

open CnxidRoutes

/-- **Routing by connection ID**: the routes are right in every state of a run exactly when the run
deletes no connection ID without bytes. -/
theorem cnxid_routes {localCnxidLength nbBin : ℕ} (hlength : 0 < localCnxidLength)
    (hbin : 0 < nbBin) (evs : List CnxidEvent) :
    (∀ evs', evs' <+: evs →
        (run CnxidRoutes.step (.init localCnxidLength hlength nbBin hbin) evs').Routes) ↔
      Along CnxidRoutes.step DeletesNoEmpty (.init localCnxidLength hlength nbBin hbin) evs :=
  forall_prefix_iff_along (I := CnxidRoutes.Sound) (J := Routes) (fun _ h => h.routes)
    (fun _ e h => (h.step e).1) (fun _ e h => (h.step e).2)
    (CnxidRoutes.Sound.init localCnxidLength hlength nbBin hbin) evs

theorem cnxid_routes_sample :
    (run CnxidRoutes.step (.init 8 (by decide) 4 (by decide))
      [.create ⟨1, ⟨.plain 7, 100⟩, none, true⟩, .rollBack 1 ⟨.plain 8, 101⟩,
        .createLocal 1 ⟨.plain 9, 102⟩, .retire 1 0]).Routes :=
  (cnxid_routes (by decide) (by decide) _).mpr (by decide +kernel) _ List.prefix_rfl

/-- The connection is deleted, and is still found for a connection ID without bytes. -/
theorem stale_route :
    let q := run step (.init 8 (by decide) 4 (by decide))
      [.create ⟨1, ⟨.empty, 100⟩, none, true⟩, .delete 1]
    (q.cnxs 1).isNone ∧ q.cnxById [] = some (1, 100) ∧ ¬ q.Routes := by
  intro q
  have hfound : q.cnxById [] = some (1, 100) := by decide +kernel
  have hgone : q.localCnxids 1 = [] := by decide +kernel
  refine ⟨by decide +kernel, hfound, fun hroutes => ?_⟩
  obtain ⟨r, hr, -⟩ := (hroutes.lookup [] 1 100).mp hfound
  rw [hgone] at hr
  cases hr

end Picoquic
