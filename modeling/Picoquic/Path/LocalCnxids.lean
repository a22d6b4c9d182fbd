import Picoquic.ForMathlib.Runs
import Picoquic.Quic.CnxidDraws
import Picoquic.Wire.Control

/-!
# Local connection identifiers

A connection issues identifiers to its peer, up to the limit that the peer announced. Each has a
sequence number. An identifier expires some time after its creation; a NEW_CONNECTION_ID frame
asks the peer to retire all identifiers with sequence numbers below `local_cnxid_retire_before`.

* **`CidCnx.checkLocalCnxidTtl`** — expiry;
* **`CidCnx.formatNewLocalIdAsNeeded`** — expiry, then the creation and the announcement of
  identifiers until there are enough;
* **`CidCnx.decodeRetireConnectionIdFrame`** — the peer retires an identifier;
* **`CidCnx.step`** — what happens to a connection.
-/

namespace Picoquic

/-- `PICOQUIC_NB_PATH_TARGET`. -/
def nbPathTarget : ℕ := 8

/-- `PICOQUIC_NB_PATH_DEFAULT`. -/
def nbPathDefault : ℕ := 2

/-- `picoquic_cnx_t`, the part that concerns local connection identifiers, with what it reads of
`picoquic_quic_t`. -/
structure CidCnx extends ControlCnx where
  /-- The list from `local_cnxid_first` on. -/
  localCnxids : List LocalCnxid
  nbLocalCnxid : ℤ
  nbLocalCnxidExpired : ℤ
  localCnxidSequenceNext : ℕ
  localCnxidOldestCreated : ℕ
  nextWakeTime : ℕ
  /-- The limit in the transport parameters of the peer, a `uint32_t`. -/
  activeConnectionIdLimit : ℕ
  /-- The sequence numbers of the identifiers that the paths use. -/
  paths : List (Option ℕ)
  /-- The state is almost ready, or ready: packets are prepared with identifiers for the peer. -/
  isAlmostReady : Bool
  /-- At most `PICOQUIC_CONNECTION_ID_MAX_SIZE`. -/
  localCnxidLength : Fin 21
  localCnxidTtl : ℕ

namespace CidCnx

/-! ### Creation and deletion -/

/-- The record that `picoquic_create_local_cnxid` makes of the value it has found, of which it has
room for 20 bytes. -/
def newLocalCnxid (c : CidCnx) (cnxId : ConnectionId) (currentTime : ℕ) : LocalCnxid where
  sequence := c.localCnxidSequenceNext
  cnxId := cnxId.take 20
  createTime := currentTime
  length_le := List.length_take_le 20 cnxId

/-- `picoquic_create_local_cnxid`, where it finds an identifier that is not in use. -/
def createLocalCnxid (c : CidCnx) (cnxId : ConnectionId) (currentTime : ℕ) : CidCnx :=
  { c with
    localCnxids := c.localCnxids ++ [c.newLocalCnxid cnxId currentTime]
    localCnxidSequenceNext := c.localCnxidSequenceNext + 1
    nbLocalCnxid := c.nbLocalCnxid + 1 }

/-- Removal from the list, with the count of its elements. -/
def unlinkLocalCnxid (c : CidCnx) (cid : LocalCnxid) : CidCnx :=
  if c.localCnxids.any (·.sequence == cid.sequence) then
    { c with
      localCnxids := c.localCnxids.eraseP (·.sequence == cid.sequence)
      nbLocalCnxid := c.nbLocalCnxid - 1 }
  else c

/-- `picoquic_delete_local_cnxid`. -/
def deleteLocalCnxid (c : CidCnx) (cid : LocalCnxid) : CidCnx :=
  let c := { c with
    paths := c.paths.map fun sequence =>
      if sequence = some cid.sequence then none else sequence }
  let c := c.unlinkLocalCnxid cid
  if cid.sequence < c.localCnxidRetireBefore ∧ 0 < c.nbLocalCnxidExpired then
    { c with nbLocalCnxidExpired := c.nbLocalCnxidExpired - 1 }
  else c

/-- `picoquic_retire_local_cnxid`. -/
def retireLocalCnxid (c : CidCnx) (sequence : ℕ) : CidCnx :=
  match c.localCnxids.find? (·.sequence == sequence) with
  | none => c
  | some cid => c.deleteLocalCnxid cid

/-- The errors of `picoquic_decode_retire_connection_id_frame`. -/
inductive RetireError
  /-- `PICOQUIC_TRANSPORT_FRAME_FORMAT_ERROR`. -/
  | frameFormatError
  /-- `PICOQUIC_TRANSPORT_PROTOCOL_VIOLATION`. -/
  | protocolViolation

/-- `picoquic_decode_retire_connection_id_frame`, for a frame that arrives on the path at this place
in the table. The sequence number is missing where the frame is not complete. -/
def decodeRetireConnectionIdFrame (c : CidCnx) (sequence : Option ℕ) (pathIndex : ℕ) :
    Except RetireError CidCnx :=
  match sequence with
  | none => .error .frameFormatError
  | some sequence =>
    if c.localCnxidSequenceNext ≤ sequence then .error .protocolViolation
    else if c.paths[pathIndex]? = some (some sequence) then .error .protocolViolation
    else .ok (c.retireLocalCnxid sequence)

/-! ### Expiry -/

/-- One identifier in the loop of `picoquic_check_local_cnxid_ttl`. -/
def checkOne (currentTime : ℕ) (c : CidCnx) (cid : LocalCnxid) : CidCnx :=
  if c.localCnxidTtl ≤ sub64 currentTime cid.createTime then
    { c with
      nbLocalCnxidExpired := c.nbLocalCnxidExpired + 1
      localCnxidRetireBefore :=
        if c.localCnxidRetireBefore ≤ cid.sequence then cid.sequence + 1
        else c.localCnxidRetireBefore }
  else if cid.createTime < c.localCnxidOldestCreated then
    { c with localCnxidOldestCreated := cid.createTime }
  else c

/-- `picoquic_check_local_cnxid_ttl`, with the wake time of the caller. -/
def checkLocalCnxidTtl (c : CidCnx) (currentTime nextWakeTime : ℕ) : CidCnx × ℕ :=
  if c.localCnxidTtl ≤ sub64 currentTime c.localCnxidOldestCreated then
    let checked := c.localCnxids.foldl (checkOne currentTime)
      { c with localCnxidOldestCreated := currentTime, nbLocalCnxidExpired := 0 }
    ({ checked with nextWakeTime := currentTime }, nextWakeTime)
  else if c.localCnxidTtl < sub64 nextWakeTime c.localCnxidOldestCreated then
    (c, u64 (c.localCnxidOldestCreated + c.localCnxidTtl))
  else (c, nextWakeTime)

/-! ### Announcements -/

/-- The limit of the peer as an `int`. -/
def intLimit (c : CidCnx) : ℤ :=
  if c.activeConnectionIdLimit < 2 ^ 31 then c.activeConnectionIdLimit
  else (c.activeConnectionIdLimit : ℤ) - 2 ^ 32

/-- The condition of the loop of `picoquic_format_new_local_id_as_needed`. -/
def NeedsLocalId (c : CidCnx) : Prop :=
  c.nbLocalCnxid < c.intLimit + c.nbLocalCnxidExpired ∧
    c.nbLocalCnxid ≤ nbPathTarget + c.nbLocalCnxidExpired

instance (c : CidCnx) : Decidable c.NeedsLocalId := inferInstanceAs (Decidable (_ ∧ _))

/-- What is left of a buffer after `written`. -/
def spaceAfter (space : Space) (written : List UInt8) : Space :=
  ⟨space - written.length, by omega⟩

/-- What is undone when the frame of an identifier that was just created does not fit. -/
def rollBack (c : CidCnx) (cid : LocalCnxid) : CidCnx :=
  let c := c.deleteLocalCnxid cid
  { c with
    localCnxidSequenceNext := c.localCnxidSequenceNext - 1
    nbLocalCnxid := c.nbLocalCnxid - 1 }

/-- A search of `picoquic_create_local_cnxid`, with the identifiers that are registered in the
context at that time. -/
structure CnxidSearch extends CnxidDraws where
  isInUse : ConnectionId → Bool

/-- What is found. -/
def found (c : CidCnx) (x : CnxidSearch) : Option ConnectionId :=
  x.findUnique c.localCnxidLength x.isInUse

/-- The bytes that were written, and the flags and the connection after that. -/
structure IdsFormatted where
  bytes : List UInt8
  flags : PacketFlags
  cnx : CidCnx

/-- The loop of `picoquic_format_new_local_id_as_needed`, after `out`. `drawn` has the searches of
successive creations, as far as there is memory. -/
def formatLocalIds (createResetSecret : List UInt8 → List.Vector UInt8 resetSecretSize)
    (currentTime : ℕ) :
    List CnxidSearch → CidCnx → Space → PacketFlags → List UInt8 → IdsFormatted
  | [], c, _, flags, out => ⟨out, flags, c⟩
  | x :: drawn, c, space, flags, out =>
    if c.NeedsLocalId then
      match c.found x with
      | none => ⟨out, flags, c⟩
      | some cnxId =>
        let cid := c.newLocalCnxid cnxId currentTime
        let c := c.createLocalCnxid cnxId currentTime
        let r := formatNewConnectionIdFrame c.toControlCnx space flags createResetSecret (some cid)
        let written := r.bytes.getD []
        if written = [] then ⟨out, r.flags, c.rollBack cid⟩
        else
          formatLocalIds createResetSecret currentTime drawn { c with toControlCnx := r.cnx }
            (spaceAfter space written) r.flags (out ++ written)
    else ⟨out, flags, c⟩

/-- The arguments of `picoquic_format_new_local_id_as_needed`, with what the creations draw. -/
structure FormatArgs where
  space : Space
  flags : PacketFlags
  currentTime : Fin (2 ^ 64)
  nextWakeTime : Fin (2 ^ 64)
  drawn : List CnxidSearch
  createResetSecret : List UInt8 → List.Vector UInt8 resetSecretSize

/-- `picoquic_format_new_local_id_as_needed`, with the wake time of the caller. -/
def formatNewLocalIdAsNeeded (c : CidCnx) (a : FormatArgs) : IdsFormatted × ℕ :=
  let (c, nextWakeTime) := c.checkLocalCnxidTtl a.currentTime a.nextWakeTime
  (formatLocalIds a.createResetSecret a.currentTime a.drawn c a.space a.flags [], nextWakeTime)

/-! ### Runs -/

/-- A connection without identifiers, as `picoquic_create_cnx` clears it. -/
def cleared (control : ControlCnx) (localCnxidLength : Fin 21) (localCnxidTtl : ℕ) : CidCnx where
  toControlCnx := { control with localCnxidRetireBefore := 0 }
  localCnxids := []
  nbLocalCnxid := 0
  nbLocalCnxidExpired := 0
  localCnxidSequenceNext := 0
  localCnxidOldestCreated := 0
  nextWakeTime := 0
  activeConnectionIdLimit := 0
  paths := []
  isAlmostReady := false
  localCnxidLength := localCnxidLength
  localCnxidTtl := localCnxidTtl

/-- `picoquic_create_cnx`, with the identifiers that it finds. The second one is for a preferred
address. -/
def create (control : ControlCnx) (localCnxidLength : Fin 21) (localCnxidTtl : ℕ)
    (startTime : Fin (2 ^ 64)) (cnxid0 : ConnectionId) (cnxid1 : Option ConnectionId) : CidCnx :=
  let c := (cleared control localCnxidLength localCnxidTtl).createLocalCnxid cnxid0 startTime
  let c := { c with
    localCnxidOldestCreated := startTime
    nextWakeTime := startTime
    paths := [some 0] }
  match cnxid1 with
  | none => c
  | some cnxid1 => c.createLocalCnxid cnxid1 startTime

/-- What `picoquic_receive_transport_extensions` takes as the limit of the peer. -/
def receivedLimit (c : CidCnx) : Option (Fin (2 ^ 62)) → ℕ
  | some limit => limit % 2 ^ 32
  | none => if c.localCnxidLength = 0 then 0 else nbPathDefault

/-- What happens to the identifiers of a connection. -/
inductive Event
  /-- The transport parameters of the peer, with its limit, if it has one. They are part of the
  handshake. -/
  | transportParameters (limit : Option (Fin (2 ^ 62)))
  /-- The handshake is far enough for identifiers to be announced. -/
  | almostReady
  /-- `picoquic_format_new_local_id_as_needed`, while a packet is prepared. -/
  | format (a : FormatArgs)
  /-- `picoquic_decode_retire_connection_id_frame`. -/
  | retire (sequence : Option ℕ) (pathIndex : ℕ)
  /-- The paths change, and the identifiers they use. -/
  | usePaths (paths : List (Option ℕ))
  /-- `picoquic_set_default_connection_id_ttl`. -/
  | setDefaultConnectionIdTtl (ttl : Fin (2 ^ 64))

/-- One event. -/
def step (c : CidCnx) : Event → CidCnx
  | .transportParameters limit =>
    if c.isAlmostReady then c else { c with activeConnectionIdLimit := c.receivedLimit limit }
  | .almostReady => { c with isAlmostReady := true }
  | .format a => if c.isAlmostReady then (c.formatNewLocalIdAsNeeded a).1.cnx else c
  | .retire sequence pathIndex =>
    match c.decodeRetireConnectionIdFrame sequence pathIndex with
    | .error _ => c
    | .ok c => c
  | .usePaths paths => { c with paths := paths }
  | .setDefaultConnectionIdTtl ttl => { c with localCnxidTtl := ttl }

end CidCnx

end Picoquic
