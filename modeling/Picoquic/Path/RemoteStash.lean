import Picoquic.Packet.Number
import Picoquic.Path.LocalCnxids

/-!
# The stash of remote connection identifiers

The peer gives out identifiers, in the handshake and in NEW_CONNECTION_ID frames. They wait in a
stash until a path needs one, and stay there until the peer acknowledged that they are retired.

* **`StashCnx.enqueueCnxidStash`** — an identifier arrives;
* **`StashCnx.obtainStashedCnxid`**, **`StashCnx.dereferenceStashedCnxid`** — a path gets one, and
  lets it go;
* **`StashCnx.removeNotBeforeCid`** — the peer asks for the retirement of old ones;
* **`StashCnx.step`** — what happens to a connection.

A path points to its identifier by the `key` of the record, which stands for its address. Memory is
always available.
-/

namespace Picoquic

/-! ### Connections -/

/-- `picoquic_remote_cnxid_t`. -/
structure StashedCnxid where
  /-- The address of the record. -/
  key : ℕ
  sequence : ℕ
  cnxId : RemoteCnxid
  resetSecret : List UInt8
  nbPathReferences : ℕ
  needsRemoval : Bool
  retireSent : Bool
  retireAcked : Bool
  /-- History: the identifier arrived after a `retire_prior_to` above its sequence number. -/
  isLate : Bool
  /-- History: the identifier arrived again after it was retired, when its record was gone. -/
  isRepeated : Bool

/-- `picoquic_path_t`, the part that concerns the remote identifier. -/
structure StashPath where
  remoteCnxid : Option ℕ
  isDemoted : Bool
  isPreferredPath : Bool

/-- The transport errors that end the connection. -/
inductive StashError
  | frameFormatError
  | connectionIdLimitError
  | protocolViolation

/-- `picoquic_cnx_t`, the part that concerns remote identifiers. -/
structure StashCnx where
  clientMode : Bool
  /-- `is_multipath_enabled` or `is_simple_multipath_enabled`. -/
  isMultipath : Bool
  /-- The limit in the local transport parameters. -/
  activeConnectionIdLimit : Fin (2 ^ 32)
  /-- `migration_disabled` in the parameters of the peer, and in the local ones. -/
  remoteMigrationDisabled : Bool
  localMigrationDisabled : Bool
  retireCnxidBefore : ℕ
  stash : List StashedCnxid
  paths : List StashPath
  localError : Option StashError
  /-- The next address. -/
  nextKey : ℕ
  /-- History: the RETIRE_CONNECTION_ID frames that were queued, by sequence number. -/
  retired : List ℕ
  /-- History: the records that were taken from the stash for a path, as they were found, with the
  value of `retire_cnxid_before` and the sequence numbers that had been retired. -/
  assigned : List (StashedCnxid × ℕ × List ℕ)

namespace StashCnx

/-- A connection after `picoquic_init_cnxid_stash`, when the handshake has brought the first
identifier. Its reset secret is drawn, or is in the parameters of the server. -/
def initial (clientMode isMultipath : Bool) (activeConnectionIdLimit : Fin (2 ^ 32))
    (remoteMigrationDisabled localMigrationDisabled : Bool) (cnxId : RemoteCnxid)
    (resetSecret : List UInt8) : StashCnx where
  clientMode := clientMode
  isMultipath := isMultipath
  activeConnectionIdLimit := activeConnectionIdLimit
  remoteMigrationDisabled := remoteMigrationDisabled
  localMigrationDisabled := localMigrationDisabled
  retireCnxidBefore := 0
  stash := [⟨0, 0, cnxId, resetSecret, 1, false, false, false, false, false⟩]
  paths := [⟨some 0, false, false⟩]
  localError := none
  nextKey := 1
  retired := []
  assigned := []

/-- The record at an address. -/
def find (c : StashCnx) (key : ℕ) : Option StashedCnxid := c.stash.find? (·.key = key)

/-- The identifier of a path. -/
def remoteCnxid (c : StashCnx) (i : ℕ) : Option StashedCnxid :=
  (c.paths[i]?.bind (·.remoteCnxid)).bind c.find

/-- `picoquic_connection_error`. The first error stays. -/
def connectionError (c : StashCnx) (e : StashError) : StashCnx :=
  { c with localError := c.localError.orElse fun _ => e }

/-! ### The stash -/

/-- `picoquic_enqueue_cnxid_stash`. The records are compared in order until one has the value, the
sequence number or the secret of the new identifier. -/
def enqueueCnxidStash (c : StashCnx) (retireBeforeNext sequence : ℕ) (cnxId : RemoteCnxid)
    (resetSecret : List UInt8) : Except StashError StashCnx :=
  let retireBeforeNext := max retireBeforeNext c.retireCnxidBefore
  if cnxId.idLen = 0 then .error .frameFormatError
  -- the peer is using null length cnx_id
  else if (c.remoteCnxid 0).any fun e => decide (e.cnxId.idLen = 0) then .error .protocolViolation
  else
    match c.stash.find? fun e =>
        decide (e.cnxId = cnxId ∨ e.sequence = sequence ∨ e.resetSecret = resetSecret) with
    | some e =>
      if e.cnxId = cnxId ∧ e.sequence = sequence ∧ e.resetSecret = resetSecret then .ok c
      else .error .protocolViolation
    | none =>
      let nbCidRetiredBefore :=
        c.stash.countP fun e => decide (e.sequence < retireBeforeNext) || e.retireSent
      if (c.activeConnectionIdLimit + nbCidRetiredBefore) % 2 ^ 32 ≤ c.stash.length then
        .error .connectionIdLimitError
      else
        .ok { c with
          stash := c.stash ++ [⟨c.nextKey, sequence, cnxId, resetSecret, 0, false, false, false,
            decide (sequence < c.retireCnxidBefore), decide (sequence ∈ c.retired)⟩]
          nextKey := c.nextKey + 1 }

/-- The test of the loop in `picoquic_obtain_stashed_cnxid`. -/
def isAvailable (e : StashedCnxid) : Bool :=
  decide (e.cnxId.idLen = 0) || (decide (e.nbPathReferences = 0) && !e.needsRemoval)

/-- `picoquic_obtain_stashed_cnxid`. -/
def obtainStashedCnxid (c : StashCnx) : Option StashedCnxid := c.stash.find? isAvailable

/-- What `picoquic_dereference_stashed_cnxid` does to the record. The last path that lets it go
retires it, and does not take its reference away. -/
def release (e : StashedCnxid) : Option StashedCnxid :=
  if e.nbPathReferences ≤ 1 then
    if e.retireAcked then none else some { e with retireSent := true }
  else some { e with nbPathReferences := e.nbPathReferences - 1 }

/-- The record at an address is changed, or deleted. -/
def updateCnxid (c : StashCnx) (key : ℕ) (f : StashedCnxid → Option StashedCnxid) : StashCnx :=
  { c with stash := c.stash.filterMap fun e => if e.key = key then f e else some e }

/-- The path at position `i` points to a record, or to none. -/
def point (c : StashCnx) (i : ℕ) (key : Option ℕ) : StashCnx :=
  { c with paths := c.paths.modify i fun p => { p with remoteCnxid := key } }

/-- `picoquic_dereference_stashed_cnxid`. -/
def dereferenceStashedCnxid (c : StashCnx) (i : ℕ) : StashCnx :=
  match c.paths[i]?.bind (·.remoteCnxid) with
  | none => c
  | some key =>
    let lastReference := (c.stash.filter fun e => decide (e.key = key) &&
      decide (e.nbPathReferences ≤ 1) && !e.retireSent).map (·.sequence)
    ({ c with retired := c.retired ++ lastReference }.updateCnxid key release).point i none

/-- A path gets the record at an address. -/
def reference (c : StashCnx) (i key : ℕ) : StashCnx :=
  (c.updateCnxid key fun e => some { e with nbPathReferences := e.nbPathReferences + 1 }).point i
    (some key)

/-- A path gets a record that was obtained from the stash. -/
def install (c : StashCnx) (i : ℕ) (e : StashedCnxid) : StashCnx :=
  { c with assigned := c.assigned ++ [(e, c.retireCnxidBefore, c.retired)] }.reference i e.key

/-- `picoquic_renew_path_connection_id` for the path at position `i`, with its success. -/
def renewConnectionId (c : StashCnx) (i : ℕ) : StashCnx × Bool :=
  let current := c.remoteCnxid i
  if (c.remoteMigrationDisabled &&
      current.any fun e => decide (c.retireCnxidBefore ≤ e.sequence)) ||
      c.localMigrationDisabled || decide (c.paths.length ≤ i) then (c, false)
  else
    match c.obtainStashedCnxid with
    | none => (c, false)
    | some stashed =>
      -- if the available cnx_id is same as old one, we do nothing
      if current.any fun e => decide (stashed.sequence = e.sequence) then (c, false)
      else ((c.dereferenceStashedCnxid i).install i stashed, true)

/-- `picoquic_demote_path`, of which only the mark plays a part here
(`Demotion.isDemoted_demote`). -/
def demotePath (c : StashCnx) (i : ℕ) : StashCnx :=
  { c with paths := c.paths.modify i fun p => { p with isDemoted := true } }

/-! ### Retirement -/

/-- What the first loop of `picoquic_remove_not_before_cid` does to a record. -/
def expire (notBefore : ℕ) (e : StashedCnxid) : Option StashedCnxid :=
  let needsRemoval := e.needsRemoval || decide (e.sequence < notBefore)
  if needsRemoval && decide (e.nbPathReferences = 0) then
    if e.retireAcked then none
    else some { e with needsRemoval := needsRemoval, retireSent := true }
  else some { e with needsRemoval := needsRemoval }

/-- The first loop of `picoquic_remove_not_before_cid`. -/
def expireStash (c : StashCnx) (notBefore : ℕ) : StashCnx :=
  { c with
    stash := c.stash.filterMap (expire notBefore)
    retired := c.retired ++ (c.stash.filter fun e =>
      (e.needsRemoval || decide (e.sequence < notBefore)) &&
        decide (e.nbPathReferences = 0) && !e.retireSent).map (·.sequence) }

/-- One round of the second loop of `picoquic_remove_not_before_cid`, which stops when the default
path gets no other identifier. -/
def renewOld (notBefore : ℕ) (r : StashCnx × Bool) (i : ℕ) : StashCnx × Bool :=
  let (c, failed) := r
  let isOld := (c.remoteCnxid i).any fun e =>
    decide (e.sequence < notBefore) && decide (0 < e.cnxId.idLen)
  if failed || !isOld || c.paths[i]?.any (·.isDemoted) then r
  else
    let (c', renewed) := c.renewConnectionId i
    if renewed then (c', false) else if i = 0 then (c', true) else (c'.demotePath i, false)

/-- `picoquic_remove_not_before_cid`, with its failure. -/
def removeNotBeforeCid (c : StashCnx) (notBefore : ℕ) : StashCnx × Bool :=
  (List.range c.paths.length).foldl (renewOld notBefore) (c.expireStash notBefore, false)

/-- `picoquic_decode_new_connection_id_frame`, for a frame that can be parsed. -/
def decodeNewConnectionIdFrame (c : StashCnx) (sequence retireBefore : ℕ) (cnxId : List UInt8)
    (resetSecret : List UInt8) : StashCnx :=
  if h : cnxId.length ≤ 20 ∧ retireBefore ≤ sequence then
    match c.enqueueCnxidStash retireBefore sequence ⟨cnxId, h.1⟩ resetSecret with
    | .error e => c.connectionError e
    | .ok c =>
      if c.retireCnxidBefore < retireBefore then
        -- retire the now deprecated CID
        let (c, failed) :=
          { c with retireCnxidBefore := retireBefore }.removeNotBeforeCid retireBefore
        if failed then c.connectionError .protocolViolation else c
      else c
  else c.connectionError .protocolViolation

/-- `picoquic_process_ack_of_retire_connection_id_frame`. -/
def processAckOfRetire (c : StashCnx) (sequence : ℕ) : StashCnx :=
  { c with stash := c.stash.eraseP (·.sequence = sequence) }

/-! ### Paths -/

/-- `picoquic_create_path`. -/
def createPath (c : StashCnx) (isPreferredPath : Bool) : StashCnx :=
  { c with paths := c.paths ++ [⟨none, false, isPreferredPath⟩] }

/-- `picoquic_probe_new_path_ex` for addresses that no path has. A path without identifier is
deleted at once. -/
def probeNewPath (c : StashCnx) (toPreferredAddress : Bool) : StashCnx :=
  if (c.remoteMigrationDisabled && !toPreferredAddress) || c.localMigrationDisabled ||
      c.stash.isEmpty || decide (nbPathTarget ≤ c.paths.length) then c
  -- the position of the only path is zero, which is taken for a failure
  else if c.paths.isEmpty then c.createPath false
  else
    match c.obtainStashedCnxid with
    | none => c
    | some e => (c.createPath toPreferredAddress).install c.paths.length e

/-- The part of `picoquic_find_incoming_path` for addresses that no path has. Without an available
identifier the new path uses that of the path with the same local identifier, or of the default
path. -/
def incomingPath (c : StashCnx) (natRebindingPath : Option ℕ) (isPreferredPath : Bool) : StashCnx :=
  if nbPathTarget ≤ c.paths.length then c
  else if c.paths.isEmpty then c.createPath false
  else
    match c.obtainStashedCnxid with
    | some e => (c.createPath isPreferredPath).install c.paths.length e
    | none =>
      let altPath := natRebindingPath.getD 0
      match c.paths[altPath]?.bind (·.remoteCnxid) with
      | none => c.createPath isPreferredPath
      | some key => (c.createPath isPreferredPath).reference c.paths.length key

/-- `picoquic_promote_path_to_default`. -/
def promotePathToDefault (c : StashCnx) (i : ℕ) : StashCnx :=
  match (c.demotePath 0).paths[0]?, c.paths[i]? with
  | some path0, some pathI =>
    if i = 0 then c
    else
      { c with
        paths := (c.paths.set i path0).set 0 pathI
        remoteMigrationDisabled :=
          c.remoteMigrationDisabled && !(pathI.isPreferredPath && c.clientMode)
        localMigrationDisabled :=
          c.localMigrationDisabled && !(pathI.isPreferredPath && !c.clientMode) }
  | _, _ => c

/-- A demoted path is deleted in `picoquic_delete_abandoned_paths`. Without multipath the default
path stays. -/
def deletePath (c : StashCnx) (i : ℕ) : StashCnx :=
  if c.paths[i]?.any (·.isDemoted) && (c.isMultipath || decide (0 < i)) then
    let c := c.dereferenceStashedCnxid i
    { c with paths := c.paths.eraseIdx i }
  else c

/-! ### Events -/

end StashCnx

/-- What happens to the remote identifiers of a connection. -/
inductive StashEvent
  /-- A NEW_CONNECTION_ID frame. -/
  | newConnectionId (sequence retireBefore : ℕ) (cnxId resetSecret : List UInt8)
  /-- The identifier in the transport parameters of the server. -/
  | preferredAddress (cnxId : RemoteCnxid) (resetSecret : List UInt8)
  /-- The peer acknowledges a RETIRE_CONNECTION_ID frame. -/
  | retireAcked (sequence : ℕ)
  /-- `picoquic_renew_connection_id`. -/
  | renew (i : ℕ)
  /-- A path is probed. -/
  | probeNewPath (toPreferredAddress : Bool)
  /-- A packet arrives on a new path. -/
  | incomingPath (natRebindingPath : Option ℕ) (isPreferredPath : Bool)
  /-- A path is abandoned, or failed. -/
  | demote (i : ℕ)
  /-- A path becomes the default one. -/
  | promote (i : ℕ)
  /-- A path that was demoted long enough ago is deleted. -/
  | deletePath (i : ℕ)

/-- One event. After an error no frames are processed. -/
def StashCnx.step (c : StashCnx) : StashEvent → StashCnx
  | .newConnectionId sequence retireBefore cnxId resetSecret =>
    if c.localError.isSome then c
    else c.decodeNewConnectionIdFrame sequence retireBefore cnxId resetSecret
  | .preferredAddress cnxId resetSecret =>
    match c.enqueueCnxidStash 0 1 cnxId resetSecret with
    | .error e => c.connectionError e
    | .ok c => c
  | .retireAcked sequence => if sequence ∈ c.retired then c.processAckOfRetire sequence else c
  | .renew i => (c.renewConnectionId i).1
  | .probeNewPath toPreferredAddress => c.probeNewPath toPreferredAddress
  | .incomingPath natRebindingPath isPreferredPath =>
    c.incomingPath natRebindingPath isPreferredPath
  | .demote i => c.demotePath i
  | .promote i => c.promotePathToDefault i
  | .deletePath i => c.deletePath i

end Picoquic
