import Picoquic.Path.LocalCnxids
import Picoquic.Quic.Picohash

/-!
# Routing by address

A context without connection IDs finds the connection of a packet by the address of the peer, in a
hash table of the addresses of the paths. The key of an address is attached to the path that is
the default one when the address is registered, and is deleted with that path.

* **`NetRoutes.step`** — what happens to the paths of a context;
* **`NetRoutes.Sound`** — the keys of the table are those that are attached to the paths, in every
  state;
* **`cnxByNet_live`** — no key leads to a connection that does not exist;
* **`net_routes`** — in every state the registered paths are reachable, and only addresses of
  paths are mapped, in the runs in which each path that is deleted takes its own key with it and
  no key that another one needs, and in no others;
* **`routes_lost`** — a path that is promoted loses its key with the path that was the default one
  before; one that is deleted leaves its key behind.

Memory for keys is available. An address is one of IPv4 or IPv6.
-/

namespace Picoquic

open Runs

/-! ### Addresses -/

/-- `struct sockaddr_storage`, where it is set. -/
inductive PeerAddr
  | inet (sinPort : Fin (2 ^ 16)) (sinAddr : List.Vector UInt8 4)
  | inet6 (sin6Port : Fin (2 ^ 16)) (sin6Addr : List.Vector UInt8 16)
  deriving DecidableEq

/-- `picohash_bytes`. -/
def picohashBytes (key : List UInt8) : ℕ :=
  key.foldl (fun hash x =>
    let hash := hash ^^^ x.toNat
    hash ^^^ (u64 (hash <<< 31) ^^^ (hash >>> 17))) 0xDEADBEEF

/-- `picoquic_hash_addr`. -/
def hashAddr : PeerAddr → ℕ
  | .inet sinPort sinAddr => u64 (picohashBytes sinAddr.toList + 128 * sinPort)
  | .inet6 sin6Port sin6Addr => u64 (picohashBytes sin6Addr.toList + 128 * sin6Port)

/-- `picoquic_compare_addr`. -/
def compareAddr (expected actual : PeerAddr) : ℤ :=
  match expected, actual with
  | .inet exPort exAddr, .inet acPort acAddr =>
    if exPort = acPort ∧ exAddr = acAddr then 0 else -1
  | .inet6 exPort exAddr, .inet6 acPort acAddr =>
    if exPort = acPort ∧ exAddr = acAddr then 0 else -1
  | _, _ => -1

theorem compareAddr_eq_zero (expected actual : PeerAddr) :
    compareAddr expected actual = 0 ↔ expected = actual := by
  cases expected <;> cases actual <;> simp [compareAddr]

/-! ### Data -/

/-- `picoquic_net_id_key_t`. The path in it is read by nothing. -/
structure NetIdKey where
  saddr : PeerAddr
  cnx : ℕ
  deriving DecidableEq

/-- `picoquic_path_t`, with a trace: whether the registration of its address has succeeded. -/
structure NetPath where
  peerAddr : Option PeerAddr
  /-- The list from `first_net_id` on. -/
  netIds : List NetIdKey
  isRegistered : Bool
  deriving DecidableEq

/-- `picoquic_quic_t`, the part that routes by address, with the paths of the connections that
exist. -/
structure NetRoutes where
  tableCnxByNet : PicohashTable NetIdKey
  cnxs : ℕ → Option (List NetPath)

/-- What happens to the paths of a context. -/
inductive NetEvent
  /-- `picoquic_create_cnx`, which may fail once the first path is registered. -/
  | create (cnx : ℕ) (peerAddr : Option PeerAddr) (isKept : Bool)
  /-- A path is created for a new address, as in `picoquic_probe_new_path_ex` and in
  `picoquic_find_incoming_path`. The former deletes it if there is no connection ID for it. -/
  | probe (cnx : ℕ) (peerAddr : Option PeerAddr) (isAssigned : Bool)
  /-- `picoquic_promote_path_to_default`. -/
  | promote (cnx pathIndex : ℕ)
  /-- The swap in `picoquic_delete_abandoned_paths`. -/
  | swap (cnx pathIndexGood pathIndexCurrent : ℕ)
  /-- `picoquic_delete_path`. -/
  | deletePath (cnx pathIndex : ℕ)
  /-- `picoquic_delete_cnx`. -/
  | delete (cnx : ℕ)

namespace NetRoutes

/-- A context without connections, with `nbBin` bins. -/
def init (nbBin : ℕ) (nbBin_pos : 0 < nbBin) : NetRoutes where
  tableCnxByNet := PicohashTable.create nbBin nbBin_pos (fun k => hashAddr k.saddr)
    fun k k' => compareAddr k.saddr k'.saddr
  cnxs := fun _ => none

/-- The paths of a connection, if it exists. -/
def paths (q : NetRoutes) (cnx : ℕ) : List NetPath := (q.cnxs cnx).getD []

/-- Other paths for a connection. -/
def setPaths (q : NetRoutes) (cnx : ℕ) (l : List NetPath) : NetRoutes :=
  { q with cnxs := Function.update q.cnxs cnx (some l) }

/-! ### Registration -/

/-- `picoquic_cnx_by_net`. -/
def cnxByNet (q : NetRoutes) (addr : PeerAddr) : Option ℕ :=
  (q.tableCnxByNet.retrieve ⟨addr, 0⟩).map fun item => item.key.cnx

/-- A key is put in front of those of the path. -/
def addNetId (key : NetIdKey) (pathX : NetPath) : NetPath :=
  { pathX with netIds := key :: pathX.netIds }

/-- The registration of the path has succeeded. -/
def markRegistered (pathX : NetPath) : NetPath := { pathX with isRegistered := true }

/-- `picoquic_register_path`: the key is attached to the default path. -/
def registerPath (q : NetRoutes) (cnx pathIndex : ℕ) : NetRoutes :=
  match (q.paths cnx)[pathIndex]?.bind NetPath.peerAddr with
  | none => q
  | some addr =>
    if (q.tableCnxByNet.retrieve ⟨addr, cnx⟩).isSome then q
    else
      { q with tableCnxByNet := q.tableCnxByNet.insert ⟨addr, cnx⟩ }.setPaths cnx
        (((q.paths cnx).modify 0 (addNetId ⟨addr, cnx⟩)).modify pathIndex markRegistered)

/-! ### Deletion -/

/-- `picoquic_delete_path`, with the loop of `picoquic_clear_path_data`. -/
def deletePath (q : NetRoutes) (cnx pathIndex : ℕ) : NetRoutes :=
  match (q.paths cnx)[pathIndex]? with
  | none => q
  | some pathX =>
    { q with
      tableCnxByNet := pathX.netIds.foldl PicohashTable.deleteKey q.tableCnxByNet }.setPaths cnx
      ((q.paths cnx).eraseIdx pathIndex)

/-- The paths of a connection are deleted, the last one first. -/
def deletePaths (q : NetRoutes) (cnx : ℕ) : ℕ → NetRoutes
  | 0 => q
  | nbPaths + 1 => (q.deletePath cnx nbPaths).deletePaths cnx nbPaths

/-- `picoquic_delete_cnx`. -/
def deleteCnx (q : NetRoutes) (cnx : ℕ) : NetRoutes :=
  let q := q.deletePaths cnx (q.paths cnx).length
  { q with cnxs := Function.update q.cnxs cnx none }

/-! ### Events -/

/-- Two paths of the table are exchanged. -/
def swapPaths (q : NetRoutes) (cnx i j : ℕ) : NetRoutes :=
  if h : i < (q.paths cnx).length ∧ j < (q.paths cnx).length then
    q.setPaths cnx (((q.paths cnx).set i (q.paths cnx)[j]).set j (q.paths cnx)[i])
  else q

/-- `picoquic_create_path`. -/
def createPath (q : NetRoutes) (cnx : ℕ) (peerAddr : Option PeerAddr) : NetRoutes :=
  q.setPaths cnx (q.paths cnx ++ [⟨peerAddr, [], false⟩])

/-- A path for a new address, unless there are too many. One that is the only path is not
registered. -/
def probePath (q : NetRoutes) (cnx : ℕ) (peerAddr : Option PeerAddr) (isAssigned : Bool) :
    NetRoutes :=
  let nbPaths := (q.paths cnx).length
  if nbPathTarget ≤ nbPaths then q
  else
    let q := q.createPath cnx peerAddr
    if nbPaths = 0 then q
    else if isAssigned then q.registerPath cnx nbPaths
    else q.deletePath cnx nbPaths

/-- One event. A connection is allocated at a free address; the others concern connections that
exist. -/
def step (q : NetRoutes) : NetEvent → NetRoutes
  | .create cnx peerAddr isKept =>
    if (q.cnxs cnx).isSome then q
    else
      let q := (q.createPath cnx peerAddr).registerPath cnx 0
      if isKept then q else q.deleteCnx cnx
  | .probe cnx peerAddr isAssigned =>
    if (q.cnxs cnx).isSome then q.probePath cnx peerAddr isAssigned else q
  | .promote cnx pathIndex =>
    if 0 < pathIndex then q.swapPaths cnx pathIndex 0 else q
  | .swap cnx pathIndexGood pathIndexCurrent => q.swapPaths cnx pathIndexGood pathIndexCurrent
  | .deletePath cnx pathIndex => q.deletePath cnx pathIndex
  | .delete cnx => q.deleteCnx cnx

/-! ### Paths and their keys -/

/-- The keys that are attached to some paths. -/
def attached (l : List NetPath) : List NetIdKey := l.flatMap NetPath.netIds

/-- The paths that are registered have a key, and every key has a path with its address. -/
structure PathsRouted (l : List NetPath) : Prop where
  reachable : ∀ p ∈ l, p.isRegistered = true → ∃ k ∈ attached l, p.peerAddr = some k.saddr
  used : ∀ k ∈ attached l, ∃ p ∈ l, p.peerAddr = some k.saddr

theorem mem_attached {l : List NetPath} {k : NetIdKey} :
    k ∈ attached l ↔ ∃ p ∈ l, k ∈ p.netIds := List.mem_flatMap

variable {l l' : List NetPath} {i : ℕ} {pathX : NetPath}

/-- The order of the paths does not matter. -/
theorem PathsRouted.perm (h : PathsRouted l) (hperm : l.Perm l') : PathsRouted l' := by
  have hattached (k : NetIdKey) : k ∈ attached l ↔ k ∈ attached l' := by
    rw [mem_attached, mem_attached]
    simp only [hperm.mem_iff]
  refine ⟨fun p hp hregistered => ?_, fun k hk => ?_⟩
  · obtain ⟨k, hk, haddr⟩ := h.reachable p (hperm.mem_iff.mpr hp) hregistered
    exact ⟨k, (hattached k).mp hk, haddr⟩
  · obtain ⟨p, hp, haddr⟩ := h.used k ((hattached k).mpr hk)
    exact ⟨p, hperm.mem_iff.mp hp, haddr⟩

theorem PathsRouted.nil : PathsRouted [] where
  reachable p hp := by cases hp
  used k hk := by cases hk

theorem attached_append (l : List NetPath) (peerAddr : Option PeerAddr) :
    attached (l ++ [⟨peerAddr, [], false⟩]) = attached l := by
  rw [attached, List.flatMap_append]
  exact List.append_nil _

/-- A new path has no key. -/
theorem PathsRouted.append (h : PathsRouted l) (peerAddr : Option PeerAddr) :
    PathsRouted (l ++ [⟨peerAddr, [], false⟩]) := by
  refine ⟨fun p hp hregistered => ?_, fun k hk => ?_⟩
  · rw [attached_append]
    obtain hp | hp := List.mem_append.mp hp
    · exact h.reachable p hp hregistered
    · rw [List.mem_singleton.mp hp] at hregistered
      cases hregistered
  · rw [attached_append] at hk
    obtain ⟨p, hp, haddr⟩ := h.used k hk
    exact ⟨p, List.mem_append_left _ hp, haddr⟩

/-! ### A registration -/

theorem map_modify {α : Type} (g : NetPath → α) (f : NetPath → NetPath) (hfg : ∀ p, g (f p) = g p)
    (l : List NetPath) (i : ℕ) : (l.modify i f).map g = l.map g := by
  refine List.ext_getElem? fun j => ?_
  rw [List.getElem?_map, List.getElem?_map, List.getElem?_modify]
  cases l[j]? with
  | none => rfl
  | some p =>
    dsimp only [Option.map_eq_map, Option.map_some]
    split
    · rw [hfg]
    · rfl

/-- The paths after a registration. -/
def registered (l : List NetPath) (i : ℕ) (key : NetIdKey) : List NetPath :=
  (l.modify 0 (addNetId key)).modify i markRegistered

theorem attached_registered (hl : l ≠ []) (i : ℕ) (key : NetIdKey) :
    attached (registered l i key) = key :: attached l := by
  have hmark : (registered l i key).map NetPath.netIds =
      (l.modify 0 (addNetId key)).map NetPath.netIds :=
    map_modify NetPath.netIds markRegistered (fun _ => rfl) _ i
  rw [attached, List.flatMap_def, hmark]
  obtain ⟨p, rest, rfl⟩ := List.exists_cons_of_ne_nil hl
  simp [attached, List.flatMap_def, addNetId]

theorem peerAddr_registered (l : List NetPath) (i : ℕ) (key : NetIdKey) :
    (registered l i key).map NetPath.peerAddr = l.map NetPath.peerAddr :=
  (map_modify NetPath.peerAddr markRegistered (fun _ => rfl) _ i).trans
    (map_modify NetPath.peerAddr (addNetId key) (fun _ => rfl) l 0)

/-- The paths that are registered are those that were, and the new one. -/
theorem mem_registered {key : NetIdKey} {p : NetPath} (hp : p ∈ registered l i key)
    (hregistered : p.isRegistered = true) :
    (∃ p' ∈ l, p'.isRegistered = true ∧ p'.peerAddr = p.peerAddr) ∨
      l[i]?.bind NetPath.peerAddr = p.peerAddr := by
  obtain ⟨j, hj⟩ := List.mem_iff_getElem?.mp hp
  rw [registered, List.getElem?_modify, List.getElem?_modify] at hj
  cases hl : l[j]? with
  | none =>
    rw [hl] at hj
    cases hj
  | some p' =>
    rw [hl] at hj
    obtain rfl := Option.some.inj hj
    have hmem : p' ∈ l := List.mem_of_getElem? hl
    by_cases hij : i = j
    · refine Or.inr ?_
      rw [hij, hl, Option.bind_some]
      dsimp only
      split <;> split <;> rfl
    · refine Or.inl ⟨p', hmem, ?_⟩
      dsimp only at hregistered ⊢
      rw [if_neg hij] at hregistered ⊢
      split at hregistered
      next h0 => exact ⟨hregistered, by rw [if_pos h0]; rfl⟩
      next h0 => exact ⟨hregistered, by rw [if_neg h0]⟩

variable {cnx : ℕ}

/-- **Registration** of an address. -/
theorem PathsRouted.registered (h : PathsRouted l) {addr : PeerAddr}
    (haddr : l[i]?.bind NetPath.peerAddr = some addr) :
    PathsRouted (NetRoutes.registered l i ⟨addr, cnx⟩) := by
  obtain ⟨pathX, hpathX, hpeer⟩ := Option.bind_eq_some_iff.mp haddr
  have hmem : pathX ∈ l := List.mem_of_getElem? hpathX
  have hattached := attached_registered (List.ne_nil_of_mem hmem) i ⟨addr, cnx⟩
  have hpeers {a : PeerAddr} (hp : ∃ p ∈ l, p.peerAddr = some a) :
      ∃ p ∈ NetRoutes.registered l i ⟨addr, cnx⟩, p.peerAddr = some a := by
    obtain ⟨p, hp, hpa⟩ := hp
    have hin : some a ∈ (NetRoutes.registered l i ⟨addr, cnx⟩).map NetPath.peerAddr := by
      rw [peerAddr_registered]
      exact List.mem_map.mpr ⟨p, hp, hpa⟩
    exact List.mem_map.mp hin
  refine ⟨fun p hp hregistered => ?_, fun k hk => ?_⟩
  · rw [hattached]
    obtain ⟨p', hp', hregistered', hsame⟩ | hnew := mem_registered hp hregistered
    · obtain ⟨k, hk, hka⟩ := h.reachable p' hp' hregistered'
      exact ⟨k, List.mem_cons_of_mem _ hk, hsame.symm.trans hka⟩
    · exact ⟨_, List.mem_cons_self, hnew.symm.trans haddr⟩
  · rw [hattached] at hk
    obtain rfl | hk := List.mem_cons.mp hk
    · exact hpeers ⟨pathX, hmem, hpeer⟩
    · exact hpeers (h.used k hk)

/-! ### A deletion -/

theorem perm_eraseIdx (h : l[i]? = some pathX) : l.Perm (pathX :: l.eraseIdx i) := by
  obtain ⟨hlt, rfl⟩ := List.getElem?_eq_some_iff.mp h
  exact (List.getElem_cons_eraseIdx_perm hlt).symm

theorem attached_eraseIdx (h : l[i]? = some pathX) :
    (attached l).Perm (pathX.netIds ++ attached (l.eraseIdx i)) :=
  (perm_eraseIdx h).flatMap_right _

/-- The path takes no key with it that another path needs, and leaves none of its own address
behind that no other path needs. -/
structure TakesItsKeys (pathX : NetPath) (rest : List NetPath) : Prop where
  takes : ∀ k ∈ pathX.netIds, ∀ p ∈ rest, p.isRegistered = true → p.peerAddr ≠ some k.saddr
  leaves : ∀ k ∈ attached rest, pathX.peerAddr = some k.saddr →
    ∃ p ∈ rest, p.peerAddr = some k.saddr

/-- **Deletion** of a path, where no address has two keys. -/
theorem PathsRouted.eraseIdx_iff (h : PathsRouted l) (hpathX : l[i]? = some pathX)
    (hnodup : (attached l).Nodup)
    (hident : ∀ k ∈ attached l, ∀ k' ∈ attached l, k.saddr = k'.saddr → k = k') :
    PathsRouted (l.eraseIdx i) ↔ TakesItsKeys pathX (l.eraseIdx i) := by
  have hperm := perm_eraseIdx hpathX
  have hkeys := attached_eraseIdx hpathX
  have hdisjoint := (List.nodup_append.mp (hkeys.nodup_iff.mp hnodup)).2.2
  constructor
  · intro hrest
    refine ⟨fun k hk p hp hregistered haddr => ?_, fun k hk _ => hrest.used k hk⟩
    obtain ⟨k', hk', haddr'⟩ := hrest.reachable p hp hregistered
    have hsame : k.saddr = k'.saddr := Option.some.inj (haddr.symm.trans haddr')
    have heq := hident k (hkeys.mem_iff.mpr (List.mem_append_left _ hk)) k'
      (hkeys.mem_iff.mpr (List.mem_append_right _ hk')) hsame
    exact hdisjoint k hk k' hk' heq
  · intro htakes
    refine ⟨fun p hp hregistered => ?_, fun k hk => ?_⟩
    · obtain ⟨k, hk, haddr⟩ := h.reachable p (hperm.mem_iff.mpr (List.mem_cons_of_mem _ hp))
        hregistered
      obtain hk | hk := List.mem_append.mp (hkeys.mem_iff.mp hk)
      · exact absurd haddr (htakes.takes k hk p hp hregistered)
      · exact ⟨k, hk, haddr⟩
    · obtain ⟨p, hp, haddr⟩ := h.used k (hkeys.mem_iff.mpr (List.mem_append_right _ hk))
      obtain rfl | hp := List.mem_cons.mp (hperm.mem_iff.mp hp)
      · exact htakes.leaves k hk haddr
      · exact ⟨p, hp, haddr⟩

/-! ### The table -/

/-- The table is sound, its keys are those that are attached to the paths of their connections, and
no key is attached twice. -/
structure Sound (q : NetRoutes) : Prop where
  table : q.tableCnxByNet.Sound NetIdKey.saddr
  keySet : ∀ k, k ∈ q.tableCnxByNet.keySet ↔ k ∈ attached (q.paths k.cnx)
  nodup : ∀ cnx, (attached (q.paths cnx)).Nodup
  cnx : ∀ cnx, ∀ k ∈ attached (q.paths cnx), k.cnx = cnx

/-- The routes of all connections. -/
structure Routes (q : NetRoutes) : Prop where
  /-- A path that is registered is reachable. -/
  reachable : ∀ cnx, ∀ p ∈ q.paths cnx, p.isRegistered = true →
    ∃ addr, p.peerAddr = some addr ∧ q.cnxByNet addr = some cnx
  /-- What is mapped is the address of a path. -/
  used : ∀ addr cnx, q.cnxByNet addr = some cnx → ∃ p ∈ q.paths cnx, p.peerAddr = some addr
  /-- No entry points to a connection that does not exist. -/
  live : ∀ addr cnx, q.cnxByNet addr = some cnx → (q.cnxs cnx).isSome

variable {q : NetRoutes}

theorem paths_setPaths (q : NetRoutes) (cnx other : ℕ) (l : List NetPath) :
    (q.setPaths cnx l).paths other = if other = cnx then l else q.paths other := by
  rw [setPaths, paths, paths]
  dsimp only
  split
  next h =>
    subst h
    rw [Function.update_self]
    rfl
  next h => rw [Function.update_of_ne h]

/-- A sound table maps the addresses of its keys. -/
theorem Sound.cnxByNet_eq_some (h : q.Sound) {addr : PeerAddr} :
    q.cnxByNet addr = some cnx ↔ ∃ k ∈ attached (q.paths cnx), k.saddr = addr := by
  constructor
  · intro hsome
    obtain ⟨x, hx, rfl⟩ := Option.map_eq_some_iff.mp hsome
    have hkey : x.key ∈ q.tableCnxByNet.keySet ∧ x.key.saddr = addr :=
      h.table.retrieve_eq_some.mp (congrArg (Option.map PicohashItem.key) hx)
    exact ⟨x.key, (h.keySet x.key).mp hkey.1, hkey.2⟩
  · rintro ⟨k, hk, rfl⟩
    obtain rfl := h.cnx cnx k hk
    have hfound : (q.tableCnxByNet.retrieve ⟨k.saddr, 0⟩).map PicohashItem.key = some k :=
      h.table.retrieve_eq_some.mpr ⟨(h.keySet k).mpr hk, rfl⟩
    obtain ⟨x, hx, hkey⟩ := Option.map_eq_some_iff.mp hfound
    rw [cnxByNet, hx, Option.map_some, hkey]

theorem Sound.eq_of_saddr (h : q.Sound) (cnx : ℕ) : ∀ k ∈ attached (q.paths cnx),
    ∀ k' ∈ attached (q.paths cnx), k.saddr = k'.saddr → k = k' := by
  intro k hk k' hk' hsame
  have hkey {k : NetIdKey} (hk : k ∈ attached (q.paths cnx)) : k ∈ q.tableCnxByNet.keySet := by
    rw [h.keySet, h.cnx cnx k hk]
    exact hk
  exact h.table.eq_of_ident (hkey hk) (hkey hk') hsame

/-- **Routes** are a matter of the paths of each connection. -/
theorem Sound.routes_iff (h : q.Sound) : q.Routes ↔ ∀ cnx, PathsRouted (q.paths cnx) := by
  constructor
  · intro hroutes cnx
    refine ⟨fun p hp hregistered => ?_, fun k hk => ?_⟩
    · obtain ⟨addr, haddr, hfound⟩ := hroutes.reachable cnx p hp hregistered
      obtain ⟨k, hk, rfl⟩ := h.cnxByNet_eq_some.mp hfound
      exact ⟨k, hk, haddr⟩
    · exact hroutes.used k.saddr cnx (h.cnxByNet_eq_some.mpr ⟨k, hk, rfl⟩)
  · intro hpaths
    refine ⟨fun cnx p hp hregistered => ?_, fun addr cnx hfound => ?_, fun addr cnx hfound => ?_⟩
    · obtain ⟨k, hk, haddr⟩ := (hpaths cnx).reachable p hp hregistered
      exact ⟨k.saddr, haddr, h.cnxByNet_eq_some.mpr ⟨k, hk, rfl⟩⟩
    · obtain ⟨k, hk, rfl⟩ := h.cnxByNet_eq_some.mp hfound
      exact (hpaths cnx).used k hk
    · obtain ⟨k, hk, -⟩ := h.cnxByNet_eq_some.mp hfound
      cases hcnx : q.cnxs cnx with
      | some l => rfl
      | none =>
        rw [paths, hcnx] at hk
        cases hk

theorem Sound.init (nbBin : ℕ) (nbBin_pos : 0 < nbBin) : (init nbBin nbBin_pos).Sound where
  table := PicohashTable.Sound.create (fun k k' => compareAddr_eq_zero k.saddr k'.saddr)
    fun k k' hident => congrArg hashAddr hident
  keySet k := by
    have hempty : (NetRoutes.init nbBin nbBin_pos).tableCnxByNet.keySet = ∅ :=
      PicohashTable.keySet_create ..
    rw [hempty]
    exact iff_of_false (Set.notMem_empty k) (by simp [NetRoutes.init, paths, attached])
  nodup cnx := List.nodup_nil
  cnx cnx k hk := by cases hk

/-- Paths with the same keys, in another order or among paths without keys. -/
theorem Sound.setPaths (h : q.Sound) {l : List NetPath}
    (hl : (attached l).Perm (attached (q.paths cnx))) : (q.setPaths cnx l).Sound := by
  have hperm (other : ℕ) :
      (attached ((q.setPaths cnx l).paths other)).Perm (attached (q.paths other)) := by
    rw [paths_setPaths]
    split
    next hother =>
      subst hother
      exact hl
    · exact List.Perm.refl _
  refine ⟨h.table, fun k => ?_, fun other => ?_, fun other k hk => ?_⟩
  · rw [(hperm k.cnx).mem_iff]
    exact h.keySet k
  · exact (hperm other).nodup_iff.mpr (h.nodup other)
  · exact h.cnx other k ((hperm other).mem_iff.mp hk)

/-- **Registration** of a path. -/
theorem Sound.registerPath (h : q.Sound) (cnx i : ℕ) : (q.registerPath cnx i).Sound := by
  unfold NetRoutes.registerPath
  split
  · exact h
  next addr haddr =>
  split
  · exact h
  next hsome =>
  have hnone : q.tableCnxByNet.retrieve ⟨addr, cnx⟩ = none := by simpa using hsome
  have hne : q.paths cnx ≠ [] := by
    intro hnil
    rw [hnil] at haddr
    cases haddr
  have hattached := attached_registered hne i ⟨addr, cnx⟩
  have hfree : (⟨addr, cnx⟩ : NetIdKey) ∉ attached (q.paths cnx) := fun hmem =>
    h.table.retrieve_eq_none.mp hnone _ ((h.keySet ⟨addr, cnx⟩).mpr hmem) rfl
  have hlists (other : ℕ) : attached ((NetRoutes.setPaths
      { q with tableCnxByNet := q.tableCnxByNet.insert ⟨addr, cnx⟩ } cnx
      (registered (q.paths cnx) i ⟨addr, cnx⟩)).paths other) =
      if other = cnx then ⟨addr, cnx⟩ :: attached (q.paths cnx) else attached (q.paths other) := by
    rw [paths_setPaths]
    split
    · exact hattached
    · rfl
  refine ⟨h.table.insert hnone, fun k => ?_, fun other => ?_, fun other k hk => ?_⟩
  · have hset : k ∈ (q.tableCnxByNet.insert ⟨addr, cnx⟩).keySet ↔
        k = ⟨addr, cnx⟩ ∨ k ∈ attached (q.paths k.cnx) := by
      rw [PicohashTable.keySet_insert, Set.mem_insert_iff, h.keySet]
    refine hset.trans ?_
    refine Iff.trans ?_ (iff_of_eq (congrArg (k ∈ ·) (hlists k.cnx).symm))
    split
    next hk => rw [List.mem_cons, hk]
    next hk =>
      refine or_iff_right_of_imp ?_
      rintro rfl
      exact absurd rfl hk
  · refine (congrArg List.Nodup (hlists other)).mpr ?_
    split
    · exact List.nodup_cons.mpr ⟨hfree, h.nodup cnx⟩
    · exact h.nodup other
  · have hk' := (congrArg (k ∈ ·) (hlists other)).mp hk
    split at hk'
    next hother =>
      obtain rfl | hk' := List.mem_cons.mp hk'
      · exact hother.symm
      · exact hother ▸ h.cnx cnx k hk'
    · exact h.cnx other k hk'

/-- What the deletion of some keys leaves in the table. -/
theorem deleteKeys_spec {t : PicohashTable NetIdKey} (h : t.Sound NetIdKey.saddr)
    (ks : List NetIdKey) :
    (ks.foldl PicohashTable.deleteKey t).Sound NetIdKey.saddr ∧
      (ks.foldl PicohashTable.deleteKey t).keySet =
        {k ∈ t.keySet | ∀ k' ∈ ks, k.saddr ≠ k'.saddr} := by
  induction ks generalizing t with
  | nil => exact ⟨h, by simp⟩
  | cons k' ks ih =>
    obtain ⟨hsound, hkeySet⟩ := ih (h.deleteKey k')
    refine ⟨hsound, ?_⟩
    ext k
    rw [List.foldl_cons, hkeySet, h.keySet_deleteKey]
    simp only [Set.mem_ofPred_eq, List.forall_mem_cons, and_assoc]

/-- **Deletion** of a path. -/
theorem Sound.deletePath (h : q.Sound) (cnx i : ℕ) : (q.deletePath cnx i).Sound := by
  unfold NetRoutes.deletePath
  split
  · exact h
  next pathX hpathX =>
  have hkeys := attached_eraseIdx hpathX
  have hnodup := List.nodup_append.mp (hkeys.nodup_iff.mp (h.nodup cnx))
  obtain ⟨hsound, hkeySet⟩ := deleteKeys_spec h.table pathX.netIds
  have hlists (other : ℕ) := paths_setPaths
    { q with tableCnxByNet := pathX.netIds.foldl PicohashTable.deleteKey q.tableCnxByNet } cnx other
    ((q.paths cnx).eraseIdx i)
  have hrest {k : NetIdKey} (hk : k ∈ attached ((q.paths cnx).eraseIdx i)) :
      k ∈ attached (q.paths cnx) := hkeys.mem_iff.mpr (List.mem_append_right _ hk)
  have hown {k : NetIdKey} (hk : k ∈ pathX.netIds) : k ∈ attached (q.paths cnx) :=
    hkeys.mem_iff.mpr (List.mem_append_left _ hk)
  refine ⟨hsound, fun k => ?_, fun other => ?_, fun other k hk => ?_⟩
  · rw [hlists]
    refine (iff_of_eq (congrArg (k ∈ ·) hkeySet)).trans ?_
    split
    next hk =>
      constructor
      · rintro ⟨hmem, hne⟩
        have hmem' := (h.keySet k).mp hmem
        rw [hk] at hmem'
        obtain hmine | hother := List.mem_append.mp (hkeys.mem_iff.mp hmem')
        · exact absurd rfl (hne k hmine)
        · exact hother
      · intro hmem
        refine ⟨(h.keySet k).mpr (hk ▸ hrest hmem), fun k' hk' hsame => ?_⟩
        have heq := h.eq_of_saddr cnx k' (hown hk') k (hrest hmem) hsame.symm
        exact hnodup.2.2 k' hk' k hmem heq
    next hk =>
      refine (and_iff_left_of_imp fun hmem k' hk' hsame => hk ?_).trans (h.keySet k)
      have hk'cnx := h.cnx cnx k' (hown hk')
      have hmem' : k' ∈ q.tableCnxByNet.keySet := by
        rw [h.keySet, hk'cnx]
        exact hown hk'
      rw [h.table.eq_of_ident hmem hmem' hsame]
      exact hk'cnx
  · rw [hlists]
    split
    · exact hnodup.2.1
    · exact h.nodup other
  · rw [hlists] at hk
    split at hk
    next hother => exact hother ▸ h.cnx cnx k (hrest hk)
    · exact h.cnx other k hk

theorem paths_deletePath (q : NetRoutes) (cnx i other : ℕ) :
    (q.deletePath cnx i).paths other =
      if other = cnx then (q.paths cnx).eraseIdx i else q.paths other := by
  unfold deletePath
  split
  next hnone =>
    rw [List.eraseIdx_of_length_le (List.getElem?_eq_none_iff.mp hnone)]
    split
    next h => rw [h]
    · rfl
  · exact paths_setPaths ..

/-- When all paths of a connection are deleted, the others are left. -/
theorem Sound.deletePaths (h : q.Sound) {cnx n : ℕ} (hn : (q.paths cnx).length = n) :
    (q.deletePaths cnx n).Sound ∧
      ∀ other, (q.deletePaths cnx n).paths other = if other = cnx then [] else q.paths other := by
  induction n generalizing q with
  | zero =>
    refine ⟨h, fun other => ?_⟩
    rw [NetRoutes.deletePaths]
    split
    next hother => rw [hother, List.eq_nil_of_length_eq_zero hn]
    · rfl
  | succ n ih =>
    have hlen : ((q.deletePath cnx n).paths cnx).length = n := by
      rw [paths_deletePath, if_pos rfl, List.length_eraseIdx, hn, if_pos (Nat.lt_succ_self n)]
      rfl
    obtain ⟨hsound, hpaths⟩ := ih (h.deletePath cnx n) hlen
    refine ⟨hsound, fun other => ?_⟩
    rw [NetRoutes.deletePaths, hpaths, paths_deletePath]
    split
    · rfl
    · rfl

/-- The deletion of a connection. -/
theorem Sound.deleteCnx (h : q.Sound) (cnx : ℕ) :
    (q.deleteCnx cnx).Sound ∧
      ∀ other, (q.deleteCnx cnx).paths other = if other = cnx then [] else q.paths other := by
  obtain ⟨hsound, hpaths⟩ := h.deletePaths rfl
  rw [NetRoutes.deleteCnx]
  generalize q.deletePaths cnx (q.paths cnx).length = q' at hsound hpaths
  have hlists (other : ℕ) : ({ q' with cnxs := Function.update q'.cnxs cnx none } :
      NetRoutes).paths other = q'.paths other := by
    rw [paths]
    by_cases hother : other = cnx
    · rw [hpaths, if_pos hother, hother]
      dsimp only
      rw [Function.update_self]
      rfl
    · dsimp only
      rw [Function.update_of_ne hother]
      rfl
  refine ⟨⟨hsound.table, fun k => ?_, fun other => ?_, fun other => ?_⟩, fun other => ?_⟩
  · rw [hlists]
    exact hsound.keySet k
  · rw [hlists]
    exact hsound.nodup other
  · rw [hlists]
    exact hsound.cnx other
  · rw [hlists, hpaths]

/-! ### Events -/

/-- The paths of all connections are routed. -/
def Routed (q : NetRoutes) : Prop := ∀ cnx, PathsRouted (q.paths cnx)

/-- What is routed for one connection is routed for all, if it was for the others. -/
theorem Routed.of_paths (h : q.Routed) {q' : NetRoutes} {l : List NetPath}
    (hpaths : ∀ other, q'.paths other = if other = cnx then l else q.paths other) :
    q'.Routed ↔ PathsRouted l := by
  constructor
  · intro h'
    have hcnx := h' cnx
    rwa [hpaths, if_pos rfl] at hcnx
  · intro hl other
    rw [hpaths]
    split
    · exact hl
    · exact h other

theorem swap_perm {i j : ℕ} (hi : i < l.length) (hj : j < l.length) :
    ((l.set i l[j]).set j l[i]).Perm l := List.set_set_perm hi hj

theorem Sound.swapPaths (h : q.Sound) (cnx i j : ℕ) : (q.swapPaths cnx i j).Sound := by
  rw [NetRoutes.swapPaths]
  split
  next hlt => exact h.setPaths ((swap_perm hlt.1 hlt.2).flatMap_right _)
  · exact h

theorem Routed.swapPaths (h : q.Routed) (cnx i j : ℕ) : (q.swapPaths cnx i j).Routed := by
  rw [NetRoutes.swapPaths]
  split
  next hlt =>
    refine (h.of_paths fun other => paths_setPaths ..).mpr ?_
    exact (h cnx).perm (swap_perm hlt.1 hlt.2).symm
  · exact h

theorem Sound.createPath (h : q.Sound) (cnx : ℕ) (peerAddr : Option PeerAddr) :
    (q.createPath cnx peerAddr).Sound :=
  h.setPaths (List.Perm.of_eq (attached_append _ _))

theorem Routed.createPath (h : q.Routed) (cnx : ℕ) (peerAddr : Option PeerAddr) :
    (q.createPath cnx peerAddr).Routed :=
  (h.of_paths fun _ => paths_setPaths ..).mpr ((h cnx).append peerAddr)

theorem Routed.registerPath (h : q.Routed) (cnx i : ℕ) : (q.registerPath cnx i).Routed := by
  unfold NetRoutes.registerPath
  split
  · exact h
  next addr haddr =>
  split
  · exact h
  exact (h.of_paths fun other => paths_setPaths ..).mpr ((h cnx).registered haddr)

theorem Sound.probePath (h : q.Sound) (cnx : ℕ) (peerAddr : Option PeerAddr)
    (isAssigned : Bool) : (q.probePath cnx peerAddr isAssigned).Sound := by
  have hcreate := h.createPath cnx peerAddr
  rw [NetRoutes.probePath]
  split
  · exact h
  split
  · exact hcreate
  split
  · exact hcreate.registerPath ..
  · exact hcreate.deletePath ..

theorem Routed.probePath (h : q.Routed) (cnx : ℕ) (peerAddr : Option PeerAddr)
    (isAssigned : Bool) : (q.probePath cnx peerAddr isAssigned).Routed := by
  have hcreate := h.createPath cnx peerAddr
  rw [NetRoutes.probePath]
  split
  · exact h
  split
  · exact hcreate
  split
  · exact hcreate.registerPath cnx _
  · -- the path that was just created is deleted
    refine (hcreate.of_paths fun other => paths_deletePath ..).mpr ?_
    have hback : ((q.createPath cnx peerAddr).paths cnx).eraseIdx (q.paths cnx).length =
        q.paths cnx := by
      rw [NetRoutes.createPath, paths_setPaths, if_pos rfl]
      simp [List.eraseIdx_append_of_length_le]
    rw [hback]
    exact h cnx

theorem Routed.deleteCnx (h : q.Routed) (hq : q.Sound) (cnx : ℕ) : (q.deleteCnx cnx).Routed :=
  (h.of_paths (hq.deleteCnx cnx).2).mpr PathsRouted.nil

/-- A path that is deleted takes the right keys with it. -/
def KeepsKeys (q : NetRoutes) : NetEvent → Prop
  | .deletePath cnx i =>
    ∀ pathX ∈ (q.paths cnx)[i]?, TakesItsKeys pathX ((q.paths cnx).eraseIdx i)
  | _ => True

instance (pathX : NetPath) (rest : List NetPath) : Decidable (TakesItsKeys pathX rest) :=
  decidable_of_iff ((∀ k ∈ pathX.netIds, ∀ p ∈ rest, p.isRegistered = true →
      p.peerAddr ≠ some k.saddr) ∧
    ∀ k ∈ attached rest, pathX.peerAddr = some k.saddr → ∃ p ∈ rest, p.peerAddr = some k.saddr)
    ⟨fun h => ⟨h.1, h.2⟩, fun h => ⟨h.takes, h.leaves⟩⟩

instance (q : NetRoutes) (e : NetEvent) : Decidable (q.KeepsKeys e) := by
  cases e <;> unfold KeepsKeys <;> infer_instance

/-- **One event**: the keys of the table stay those of the paths. -/
theorem Sound.step (h : q.Sound) (e : NetEvent) : (q.step e).Sound := by
  cases e with
  | create cnx peerAddr isKept =>
    have hregister := (h.createPath cnx peerAddr).registerPath cnx 0
    rw [NetRoutes.step]
    split
    · exact h
    split
    · exact hregister
    · exact (hregister.deleteCnx cnx).1
  | probe cnx peerAddr isAssigned =>
    rw [NetRoutes.step]
    split
    · exact h.probePath ..
    · exact h
  | promote cnx pathIndex =>
    rw [NetRoutes.step]
    split
    · exact h.swapPaths ..
    · exact h
  | swap cnx i j => exact h.swapPaths ..
  | deletePath cnx i => exact h.deletePath ..
  | delete cnx => exact (h.deleteCnx cnx).1

/-- **One event**: the paths stay routed exactly if the right keys are deleted. -/
theorem Routed.step_iff (h : q.Routed) (hq : q.Sound) (e : NetEvent) :
    (q.step e).Routed ↔ q.KeepsKeys e := by
  cases e with
  | create cnx peerAddr isKept =>
    have hregister := (h.createPath cnx peerAddr).registerPath cnx 0
    refine iff_of_true ?_ trivial
    rw [step]
    split
    · exact h
    split
    · exact hregister
    · exact hregister.deleteCnx ((hq.createPath cnx peerAddr).registerPath cnx 0) cnx
  | probe cnx peerAddr isAssigned =>
    refine iff_of_true ?_ trivial
    rw [step]
    split
    · exact h.probePath cnx peerAddr isAssigned
    · exact h
  | promote cnx pathIndex =>
    refine iff_of_true ?_ trivial
    rw [step]
    split
    · exact h.swapPaths cnx pathIndex 0
    · exact h
  | swap cnx i j => exact iff_of_true (h.swapPaths cnx i j) trivial
  | deletePath cnx i =>
    rw [step, KeepsKeys]
    refine (h.of_paths fun other => paths_deletePath ..).trans ?_
    cases hpathX : (q.paths cnx)[i]? with
    | none =>
      rw [List.eraseIdx_of_length_le (List.getElem?_eq_none_iff.mp hpathX)]
      exact iff_of_true (h cnx) (by simp)
    | some pathX =>
      refine ((h cnx).eraseIdx_iff hpathX (hq.nodup cnx) (hq.eq_of_saddr cnx)).trans ?_
      simp
  | delete cnx => exact iff_of_true (h.deleteCnx hq cnx) trivial

end NetRoutes

open NetRoutes

/-- **Routing by address**: the routes are right in every state of a run exactly when each path that
the run deletes takes the right keys with it. -/
theorem net_routes {nbBin : ℕ} (hbin : 0 < nbBin) (evs : List NetEvent) :
    (∀ evs', evs' <+: evs → (run NetRoutes.step (.init nbBin hbin) evs').Routes) ↔
      Along NetRoutes.step KeepsKeys (.init nbBin hbin) evs := by
  refine forall_prefix_iff_along (I := fun q : NetRoutes => q.Sound ∧ q.Routed)
    (J := NetRoutes.Routes) (fun q h => h.1.routes_iff.mpr h.2) (fun q e h => ?_)
    (fun q e h he => ⟨h.1.step e, (h.2.step_iff h.1 e).mpr he⟩) ⟨.init nbBin hbin, ?_⟩ evs
  · exact (h.1.step e).routes_iff.trans (h.2.step_iff h.1 e)
  · exact fun cnx => PathsRouted.nil

/-- **No entry points to a connection that does not exist**, in any run. -/
theorem cnxByNet_live {nbBin : ℕ} (hbin : 0 < nbBin) (evs : List NetEvent) (addr : PeerAddr)
    (cnx : ℕ) (h : (run NetRoutes.step (.init nbBin hbin) evs).cnxByNet addr = some cnx) :
    ((run NetRoutes.step (.init nbBin hbin) evs).cnxs cnx).isSome := by
  have hsound : (run step (.init nbBin hbin) evs).Sound :=
    run_invariant (fun _ e hq => hq.step e) (NetRoutes.Sound.init nbBin hbin) evs
  obtain ⟨k, hk, -⟩ := hsound.cnxByNet_eq_some.mp h
  generalize run step (.init nbBin hbin) evs = q at hk ⊢
  cases hcnx : q.cnxs cnx with
  | some l => rfl
  | none =>
    rw [paths, hcnx] at hk
    cases hk

/-- An address of IPv4 on port 4433. -/
def localHost (x : UInt8) : PeerAddr := .inet 4433 ⟨[192, 0, 2, x], rfl⟩

theorem net_routes_sample :
    (run NetRoutes.step (.init 4 (by decide))
      [.create 1 (some (localHost 1)) true, .probe 1 (some (localHost 1)) true,
        .create 2 (some (localHost 2)) true, .deletePath 1 1, .delete 1]).Routes :=
  (net_routes (by decide) _).mpr (by decide +kernel) _ List.prefix_rfl

/-- A path is promoted, and the one that was the default path is deleted: the new default path is
not reachable. A path that was only probed is deleted: its address is still mapped. -/
theorem routes_lost :
    let q := run step (.init 4 (by decide))
      [.create 1 (some (localHost 1)) true, .probe 1 (some (localHost 2)) true]
    ((q.step (.promote 1 1)).step (.deletePath 1 1)).paths 1 = [⟨some (localHost 2), [], true⟩] ∧
      ((q.step (.promote 1 1)).step (.deletePath 1 1)).cnxByNet (localHost 2) = none ∧
      ¬ ((q.step (.promote 1 1)).step (.deletePath 1 1)).Routes ∧
      (q.step (.deletePath 1 1)).cnxByNet (localHost 2) = some 1 ∧
      ¬ (q.step (.deletePath 1 1)).Routes := by
  intro q
  have hpaths : ((q.step (.promote 1 1)).step (.deletePath 1 1)).paths 1 =
      [⟨some (localHost 2), [], true⟩] := by decide +kernel
  have hlost : ((q.step (.promote 1 1)).step (.deletePath 1 1)).cnxByNet (localHost 2) =
      none := by decide +kernel
  have hstale : (q.step (.deletePath 1 1)).cnxByNet (localHost 2) = some 1 := by decide +kernel
  have hleft : ∀ p ∈ (q.step (.deletePath 1 1)).paths 1, p.peerAddr ≠ some (localHost 2) := by
    decide +kernel
  refine ⟨hpaths, hlost, fun hroutes => ?_, hstale, fun hroutes => ?_⟩
  · obtain ⟨addr, haddr, hfound⟩ := hroutes.reachable 1 _ (hpaths ▸ List.mem_singleton_self _) rfl
    obtain rfl := Option.some.inj haddr
    rw [hlost] at hfound
    cases hfound
  · obtain ⟨p, hp, haddr⟩ := hroutes.used (localHost 2) 1 hstale
    exact hleft p hp haddr

end Picoquic
