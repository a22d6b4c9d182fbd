import Picoquic.Wire.Control

/-!
# Abandoning paths

A connection with several paths gives one up by demoting it, and tells the peer with a
PATH_ABANDON frame. The frame names the path by a connection identifier, seen from the receiver:
type 0 is the one that the receiver issued, type 1 the one that the sender issued, and type 2 is
the path that the frame itself arrives on.

* **`findPathById`** — from the name to the path;
* **`MultipathCnx.decodePathAbandonFrame`**, **`MultipathCnx.abandonPath`** — the two ends;
* **`MultipathCnx.retireLocalCnxid`** — the peer retires an identifier, and paths lose it.

A path refers to its two identifiers by pointers, which may be missing. Reading a missing one is
an outcome of its own, `none`.
-/

namespace Picoquic

/-- A connection identifier of a path. Sequence numbers are sent as integers of 62 bits. -/
structure PathCnxid where
  sequence : Fin (2 ^ 62)
  cnxId : List UInt8
  deriving DecidableEq

/-- `PICOQUIC_INITIAL_MAX_RETRANSMIT_TIMER`. -/
def initialMaxRetransmitTimer : ℕ := 1000000

/-- `picoquic_path_t`, the part that demotion touches. -/
structure Demotion where
  isDemoted : Bool
  demotionTime : ℕ
  retransmitTimer : ℕ
  deriving DecidableEq

/-- `picoquic_demote_path`, for the path itself. -/
def Demotion.demote (d : Demotion) (currentTime : ℕ) : Demotion :=
  if d.isDemoted then d
  else
    { d with
      isDemoted := true
      demotionTime :=
        u64 (currentTime + u64 (3 * max d.retransmitTimer initialMaxRetransmitTimer)) }

@[simp]
theorem Demotion.isDemoted_demote (d : Demotion) (currentTime : ℕ) :
    (d.demote currentTime).isDemoted = true := by
  rw [demote]
  split_ifs with h
  exacts [h, rfl]

/-- `picoquic_path_t`, with the identifiers that name the path in a frame. -/
structure Path extends Demotion where
  /-- The identifier that we issued. -/
  localCnxid : Option PathCnxid
  /-- The identifier that the peer issued. -/
  remoteCnxid : Option PathCnxid
  wasLocalCnxidRetired : Bool
  deriving DecidableEq

/-- `picoquic_cnx_t`, the part that concerns paths. A path is known by its place in the table. -/
structure MultipathCnx where
  paths : List Path
  isMultipathEnabled : Bool
  isSimpleMultipathEnabled : Bool
  pathDemotionNeeded : Bool
  /-- Frames that wait to be sent. -/
  miscFrames : List (List UInt8)
  error : Option String

namespace MultipathCnx

/-- Several paths were negotiated. -/
def isMultipath (c : MultipathCnx) : Bool := c.isMultipathEnabled || c.isSimpleMultipathEnabled

/-- `picoquic_demote_path`. -/
def demotePath (c : MultipathCnx) (pathIndex currentTime : ℕ) : MultipathCnx :=
  match c.paths[pathIndex]? with
  | none => c
  | some x =>
    { c with
      paths := c.paths.set pathIndex { x with toDemotion := x.demote currentTime }
      pathDemotionNeeded := c.pathDemotionNeeded || !x.isDemoted }

end MultipathCnx

/-! ### Finding a path -/

/-- The loops of `picoquic_find_path_by_id` over the paths. Each reads the sequence number of an
identifier of the path, which may be missing. -/
def findBySequence (cnxid : Path → Option PathCnxid) (pathIdValue : ℕ) :
    List Path → Option (Option ℕ)
  | [] => some none
  | x :: rest =>
    match cnxid x with
    | none => none
    | some id =>
      if (id.sequence : ℕ) = pathIdValue then some (some 0)
      else (findBySequence cnxid pathIdValue rest).map (Option.map (· + 1))

/-- `picoquic_find_path_by_id`. The test of the type stands before the whole switch. -/
def findPathById (paths : List Path) (pathX : ℕ) (isIncoming : Bool)
    (pathIdType pathIdValue : ℕ) : Option (Option ℕ) :=
  let pathIdType := if isIncoming then pathIdType else pathIdType ^^^ 1
  if pathIdType = 0 then
    match pathIdType with
    | 0 => findBySequence Path.localCnxid pathIdValue paths
    | 1 => findBySequence Path.remoteCnxid pathIdValue paths
    | 2 => some (if pathX < paths.length then some pathX else none)
    | _ => some none
  else some none

/-! ### The frame -/

/-- `picoquic_parse_path_abandon_frame`: type, value, reason, and what follows. -/
def parsePathAbandonFrame (bytes : List UInt8) : Option (ℕ × ℕ × ℕ × List UInt8) := do
  let (pathIdType, pathIdValue, bytes) ← parsePathIdentifier bytes
  let (reason, bytes) ← framesVarintDecode bytes
  let bytes ← framesLengthDataSkip bytes
  return (pathIdType, pathIdValue, reason, bytes)

namespace MultipathCnx

/-- `picoquic_decode_path_abandon_frame` on path `pathX`, after the type: the connection, and what
follows the frame if it is well formed. -/
def decodePathAbandonFrame (c : MultipathCnx) (pathX : ℕ) (bytes : List UInt8)
    (currentTime : ℕ) : Option (MultipathCnx × Option (List UInt8)) :=
  match parsePathAbandonFrame bytes with
  | none => some (c, none)
  | some (pathIdType, pathIdValue, _, rest) =>
    if !c.isMultipath then
      some ({ c with error := some "multipath not negotiated" }, some rest)
    else
      (findPathById c.paths pathX true pathIdType pathIdValue).map fun pathId =>
        (pathId.elim c fun pathId => c.demotePath pathId currentTime, some rest)

/-- The name of a path in the frame that gives it up. Type 2 would mean the path of the frame
itself, which cannot be chosen, so then no frame is sent. -/
def abandonIdentifier (x : Path) : Option (ℕ × ℕ) :=
  x.remoteCnxid.bind fun remote =>
    if 0 < remote.cnxId.length then some (0, remote.sequence)
    else
      x.localCnxid.map fun localId =>
        if 0 < localId.cnxId.length then (1, localId.sequence) else (2, 0)

/-- `picoquic_abandon_path`. A frame that does not fit into the buffer is queued empty. -/
def abandonPath (c : MultipathCnx) (pathId reason : ℕ) (phrase : Option (List UInt8))
    (currentTime : ℕ) : Option MultipathCnx :=
  match c.paths[pathId]? with
  | none => some c
  | some x =>
    if c.paths.length = 1 ∨ !c.isMultipath then some c
    else if x.isDemoted then some c
    else
      (abandonIdentifier x).map fun (pathIdType, pathIdValue) =>
        let c := c.demotePath pathId currentTime
        if pathIdType < 2 then
          { c with
            miscFrames := c.miscFrames ++
              [(pathAbandonFrame 512 pathIdType pathIdValue reason phrase).getD []] }
        else c

/-- `picoquic_delete_local_cnxid`, what it does to the paths when the peer retires an
identifier. -/
def retireLocalCnxid (c : MultipathCnx) (sequence : ℕ) : MultipathCnx :=
  { c with
    paths := c.paths.map fun x =>
      if x.localCnxid.any fun id => (id.sequence : ℕ) == sequence then
        { x with localCnxid := none, wasLocalCnxidRetired := true }
      else x }

end MultipathCnx

end Picoquic
