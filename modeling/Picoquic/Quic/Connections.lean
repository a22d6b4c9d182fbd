import Picoquic.ForMathlib.LinkedList
import Picoquic.Quic.CnxidDraws
import Picoquic.Quic.WakeList

/-!
# The connections of a context

How connections are created and deleted, with the places where a context keeps track of them: the
linked list, the wake list, the counters and the hash tables.

* **`QuicCtx.createCnx`** — a creation that fails half way deletes what it has built, with the
  function that deletes any connection;
* **`QuicCtx.deleteCnx`** — deletion unlinks the connection from everything;
* **`QuicCtx.step`** — one call.

A hash table is the list of its keys, newest first, each with its connection. Memory for keys is
available; that for the connection, its first path, its first connection ID and its stash may not
be. There are fewer than 2^32 connections. A write through a null pointer ends the run: `none`.
-/

namespace Picoquic

/-! ### Hash tables -/

/-- A hash table from keys to connections. -/
abbrev CnxTable (κ : Type) : Type := List (κ × ℕ)

/-- `picohash_retrieve`. -/
def CnxTable.retrieve {κ : Type} [DecidableEq κ] (t : CnxTable κ) (key : κ) : Option (κ × ℕ) :=
  t.find? fun item => item.1 = key

/-- `picohash_delete_key`, or the deletion of what `picohash_retrieve` finds. -/
def CnxTable.delete {κ : Type} [DecidableEq κ] (t : CnxTable κ) (key : κ) : CnxTable κ :=
  t.eraseP fun item => item.1 = key

/-! ### Connections -/

/-- `struct sockaddr_storage`. -/
abbrev SockAddr : Type := List UInt8

/-- What a connection has registered: whether it counts as half open, its local connection IDs,
the addresses of its paths, and its keys in the tables of initial connection IDs and of reset
secrets. -/
structure Registration where
  isHalfOpen : Bool
  localCnxids : List ConnectionId
  netIds : List SockAddr
  netIcidKey : Option (SockAddr × ConnectionId)
  resetSecretKey : Option (SockAddr × List UInt8)

/-- `picoquic_quic_t`, the part that keeps track of connections, and the connections that exist. -/
structure QuicCtx where
  localCnxidLength : ℕ
  maxHalfOpenBeforeRetry : ℕ
  useUniqueLogNames : Bool
  checkToken : Bool
  cnxList : LinkedList ℕ
  currentNumberConnections : ℕ
  currentNumberHalfOpen : ℕ
  wakeList : WakeList
  tableCnxById : CnxTable ConnectionId
  tableCnxByNet : CnxTable SockAddr
  tableCnxByIcid : CnxTable (SockAddr × ConnectionId)
  tableCnxBySecret : CnxTable (SockAddr × List UInt8)
  cnxs : ℕ → Option Registration

/-- A context without connections. -/
def QuicCtx.init (localCnxidLength maxHalfOpenBeforeRetry : ℕ) (useUniqueLogNames : Bool) :
    QuicCtx :=
  { localCnxidLength := localCnxidLength
    maxHalfOpenBeforeRetry := maxHalfOpenBeforeRetry
    useUniqueLogNames := useUniqueLogNames
    checkToken := false
    cnxList := LinkedList.empty
    currentNumberConnections := 0
    currentNumberHalfOpen := 0
    wakeList := WakeList.init
    tableCnxById := []
    tableCnxByNet := []
    tableCnxByIcid := []
    tableCnxBySecret := []
    cnxs := fun _ => none }

/-- A `uint32_t` counter goes down. -/
def decrement32 (n : ℕ) : ℕ := if n = 0 then 2 ^ 32 - 1 else n - 1

/-! ### Deletion -/

/-- `picoquic_remove_cnx_from_list`. -/
def QuicCtx.removeCnxFromList (q : QuicCtx) (cnx : ℕ) (r : Registration) : QuicCtx :=
  { q with
    cnxList := q.cnxList.remove cnx
    tableCnxByIcid := r.netIcidKey.elim q.tableCnxByIcid q.tableCnxByIcid.delete
    tableCnxBySecret := r.resetSecretKey.elim q.tableCnxBySecret q.tableCnxBySecret.delete
    currentNumberConnections := decrement32 q.currentNumberConnections }

/-- The deletion of the local connection IDs of a connection. Those without length were not
registered. -/
def unregisterCnxids (cnxids : List ConnectionId) (t : CnxTable ConnectionId) :
    CnxTable ConnectionId :=
  cnxids.foldl (fun t cnxid => if cnxid.length = 0 then t else t.delete cnxid) t

/-- The deletion of the addresses of the paths of a connection. -/
def unregisterNetIds (netIds : List SockAddr) (t : CnxTable SockAddr) : CnxTable SockAddr :=
  netIds.foldl CnxTable.delete t

/-- `picoquic_delete_cnx`, for a connection with registration `r`. -/
def QuicCtx.deleteCnx (q : QuicCtx) (cnx : ℕ) (r : Registration) : QuicCtx :=
  let q :=
    if r.isHalfOpen ∧ 0 < q.currentNumberHalfOpen then
      { q with currentNumberHalfOpen := q.currentNumberHalfOpen - 1 }
    else q
  let q := q.removeCnxFromList cnx r
  { q with
    wakeList := q.wakeList.remove cnx
    tableCnxByNet := unregisterNetIds r.netIds q.tableCnxByNet
    tableCnxById := unregisterCnxids r.localCnxids q.tableCnxById
    cnxs := Function.update q.cnxs cnx none }

/-! ### Creation -/

/-- The arguments of `picoquic_create_cnx`, and what it meets: the allocations that may fail, the
values that are drawn for connection IDs, a second one of which is needed for a preferred address,
and the results of setting up TLS and the initial keys. -/
structure CreateArgs where
  /-- Where the connection is allocated. -/
  cnx : ℕ
  initialCnxid : ConnectionId
  addrTo : Option SockAddr
  startTime : Fin (2 ^ 64)
  clientMode : Bool
  isCnxAllocated : Bool
  isCnxidAllocated : Bool
  draws : CnxidDraws
  isPathCreated : Bool
  isStashCreated : Bool
  preferedAddressDraws : Option CnxidDraws
  isTlsCreated : Bool
  areKeysCreated : Bool

/-- The search of `picoquic_create_local_cnxid` in the table of the context. -/
def QuicCtx.findCnxid (q : QuicCtx) (draws : CnxidDraws) : Option ConnectionId :=
  draws.findUnique q.localCnxidLength fun cnxid => (q.tableCnxById.retrieve cnxid).isSome

/-- `picoquic_create_local_cnxid`: the connection ID, if one is found that is not in use, and the
table in which it is registered if the connection IDs of the context have a length. -/
def QuicCtx.createLocalCnxid (q : QuicCtx) (cnx : ℕ) (draws : CnxidDraws) :
    Option ConnectionId × CnxTable ConnectionId :=
  match q.findCnxid draws with
  | none => (none, q.tableCnxById)
  | some cnxid =>
    (some cnxid,
      if q.localCnxidLength = 0 then q.tableCnxById else (cnxid, cnx) :: q.tableCnxById)

/-- `picoquic_insert_cnx_in_list`. -/
def QuicCtx.insertCnxInList (q : QuicCtx) (cnx : ℕ) : QuicCtx :=
  { q with
    cnxList := q.cnxList.insertFront cnx
    currentNumberConnections := q.currentNumberConnections + 1 }

/-- `picoquic_insert_cnx_by_wake_time`, for a connection with wake time `time`. -/
def QuicCtx.insertCnxByWakeTime (q : QuicCtx) (cnx : ℕ) (time : Fin (2 ^ 64)) : QuicCtx :=
  { q with wakeList := (q.wakeList.setTime cnx time).insert cnx }

/-- `picoquic_register_path` for the first path: an address that is in use is not registered. -/
def QuicCtx.registerPath (q : QuicCtx) (cnx : ℕ) (addr : Option SockAddr) :
    QuicCtx × List SockAddr :=
  match addr with
  | none => (q, [])
  | some addr =>
    if (q.tableCnxByNet.retrieve addr).isSome then (q, [])
    else ({ q with tableCnxByNet := (addr, cnx) :: q.tableCnxByNet }, [addr])

/-- The second connection ID, for a preferred address. -/
def QuicCtx.createPreferedCnxid (q : QuicCtx) (x : CreateArgs) : QuicCtx × Option ConnectionId :=
  match x.preferedAddressDraws with
  | none => (q, none)
  | some draws =>
    let (cnxid1, t) := q.createLocalCnxid x.cnx draws
    ({ q with tableCnxById := t }, cnxid1)

/-- The connection IDs that `picoquic_create_cnx` creates. -/
def QuicCtx.createdCnxids (q : QuicCtx) (x : CreateArgs) : List ConnectionId :=
  let (cnxid0, t) := q.createLocalCnxid x.cnx x.draws
  cnxid0.toList ++ (QuicCtx.createPreferedCnxid { q with tableCnxById := t } x).2.toList

/-- A connection of a server is half open. -/
def QuicCtx.countHalfOpen (q : QuicCtx) (clientMode : Bool) : QuicCtx :=
  if clientMode then q
  else
    { q with
      currentNumberHalfOpen := q.currentNumberHalfOpen + 1
      checkToken := q.checkToken ||
        decide (q.maxHalfOpenBeforeRetry < q.currentNumberHalfOpen + 1) }

/-- The middle part of `picoquic_create_cnx`: the connection is linked, and registered except for
its initial connection ID. -/
def QuicCtx.linkCnx (q : QuicCtx) (x : CreateArgs) (cnxid0 : ConnectionId) :
    QuicCtx × Registration :=
  let q := (q.insertCnxInList x.cnx).insertCnxByWakeTime x.cnx x.startTime
  let (q, netIds) := q.registerPath x.cnx x.addrTo
  let (q, cnxid1) := q.createPreferedCnxid x
  (q.countHalfOpen x.clientMode, ⟨!x.clientMode, cnxid0 :: cnxid1.toList, netIds, none, none⟩)

/-- The last part of `picoquic_create_cnx`: `none` if TLS, the keys, or the registration of the
initial connection ID fail. -/
def QuicCtx.registerNetIcid (q : QuicCtx) (x : CreateArgs) (r : Registration) :
    Option (QuicCtx × Registration) :=
  if !x.isTlsCreated || !x.areKeysCreated then none
  else if !x.clientMode && decide (0 < q.localCnxidLength) then
    let key := (x.addrTo.getD [], x.initialCnxid)
    if (q.tableCnxByIcid.retrieve key).isSome then none
    else
      some ({ q with tableCnxByIcid := (key, x.cnx) :: q.tableCnxByIcid },
        { r with netIcidKey := some key })
  else some (q, r)

/-- What `picoquic_create_cnx` leaves behind when it fails before the connection is linked. The
pointers of the connection were cleared when it was allocated. -/
def QuicCtx.abandonCnx (q : QuicCtx) (x : CreateArgs) (cnxid0 : Option ConnectionId) : QuicCtx :=
  { q with cnxList := q.cnxList.clear x.cnx }.deleteCnx x.cnx
    ⟨false, cnxid0.toList, [], none, none⟩

/-- `picoquic_create_cnx` up to the draw for the log name: the context, and whether the connection
was created. -/
def QuicCtx.buildCnx (q : QuicCtx) (x : CreateArgs) : QuicCtx × Bool :=
  if !x.isCnxAllocated then (q, false)
  else
    let (cnxid0, t) :=
      if x.isCnxidAllocated then q.createLocalCnxid x.cnx x.draws else (none, q.tableCnxById)
    let q := { q with tableCnxById := t }
    match cnxid0 with
    | none => (q.abandonCnx x none, false)
    | some cnxid =>
      if !x.isPathCreated || !x.isStashCreated then (q.abandonCnx x (some cnxid), false)
      else
        let (q, r) := q.linkCnx x cnxid
        match q.registerNetIcid x r with
        | none => (q.deleteCnx x.cnx r, false)
        | some (q, r) => ({ q with cnxs := Function.update q.cnxs x.cnx (some r) }, true)

/-- `picoquic_create_cnx`. A number for the log name is written to the connection, whether it was
created or not. -/
def QuicCtx.createCnx (q : QuicCtx) (x : CreateArgs) : Option (QuicCtx × Bool) :=
  let r := q.buildCnx x
  if q.useUniqueLogNames && !r.2 then none else some r

/-! ### Calls -/

/-- A call. -/
inductive QuicEvent
  /-- `picoquic_create_cnx`. -/
  | create (x : CreateArgs)
  /-- `picoquic_delete_cnx`. -/
  | delete (cnx : ℕ)

/-- One call. A connection is allocated at a free address; one that is deleted has to exist. -/
def QuicCtx.step (q : Option QuicCtx) (e : QuicEvent) : Option QuicCtx :=
  match q with
  | none => none
  | some q =>
    match e with
    | .create x =>
      if (q.cnxs x.cnx).isSome then some q else (q.createCnx x).map Prod.fst
    | .delete cnx =>
      match q.cnxs cnx with
      | none => some q
      | some r => some (q.deleteCnx cnx r)

end Picoquic
