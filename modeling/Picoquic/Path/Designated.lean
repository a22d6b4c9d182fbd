import Picoquic.Path.Abandon
import Picoquic.Wire.ControlSound

/-!
# Which path a PATH_ABANDON frame means

The receiver of a PATH_ABANDON frame should demote the path that the frame names, and the sender
should name a path so that a peer with the same assignment of identifiers finds the right one.

* **`Names`** — the paths that a type and a value stand for;
* **`DemotesNamed`** — one named path is demoted, or there is none, and no missing identifier is
  read;
* **`path_abandon_iff`** — when the receiver does that, and when the frame of a sender leads to
  the path with the same identifiers. Only type 0 is resolved.
-/

namespace Picoquic

namespace MultipathCnx

variable {c : MultipathCnx} {pathX pathIdType pathIdValue : ℕ}

/-! ### What a frame means -/

/-- Path `i` is one that the receiver of a frame on path `pathX` should take it for. -/
def Names (c : MultipathCnx) (pathX pathIdType pathIdValue i : ℕ) : Prop :=
  ∃ x, c.paths[i]? = some x ∧
    match pathIdType with
    | 0 => ∃ id, x.localCnxid = some id ∧ (id.sequence : ℕ) = pathIdValue
    | 1 => ∃ id, x.remoteCnxid = some id ∧ (id.sequence : ℕ) = pathIdValue
    | _ => i = pathX

/-- **The effect of a frame**: a named path is demoted and nothing else changes, or no path is
named and nothing changes. -/
def DemotesNamed (c : MultipathCnx) (pathX pathIdType pathIdValue currentTime : ℕ)
    (result : Option MultipathCnx) : Prop :=
  (∃ i, c.Names pathX pathIdType pathIdValue i ∧ result = some (c.demotePath i currentTime)) ∨
    (∀ i, ¬ c.Names pathX pathIdType pathIdValue i) ∧ result = some c

/-- The local identifier of a path is missing, or it is the one that is looked for. -/
def stopsSearch (pathIdValue : ℕ) (x : Path) : Bool :=
  x.localCnxid.all fun id => (id.sequence : ℕ) == pathIdValue

/-- When the frame has its effect. A local identifier has to be found before a missing one is
read. A path named by a remote identifier, and the path of the frame, are demoted only if they
were before. -/
def Resolves (c : MultipathCnx) (pathX pathIdType pathIdValue : ℕ) : Prop :=
  match pathIdType with
  | 0 => ∀ x, c.paths.find? (stopsSearch pathIdValue) = some x → x.localCnxid ≠ none
  | _ =>
    (∃ i, c.Names pathX pathIdType pathIdValue i) →
      ∃ i, c.Names pathX pathIdType pathIdValue i ∧ ∀ x, c.paths[i]? = some x → x.isDemoted = true

/-! ### The search -/

/-- **The search** by local identifier ends at the first path whose identifier is missing or is
the one that is looked for. -/
theorem findBySequence_local (pathIdValue : ℕ) (l : List Path) :
    (∃ x, l.find? (stopsSearch pathIdValue) = some x ∧ x.localCnxid = none ∧
      findBySequence Path.localCnxid pathIdValue l = none) ∨
    (l.find? (stopsSearch pathIdValue) = none ∧
      findBySequence Path.localCnxid pathIdValue l = some none) ∨
    ∃ i x id, l.find? (stopsSearch pathIdValue) = some x ∧ l[i]? = some x ∧
      x.localCnxid = some id ∧ (id.sequence : ℕ) = pathIdValue ∧
      findBySequence Path.localCnxid pathIdValue l = some (some i) := by
  induction l with
  | nil => exact Or.inr (Or.inl ⟨rfl, rfl⟩)
  | cons x rest ih =>
    rw [findBySequence]
    cases hx : x.localCnxid with
    | none =>
      refine Or.inl ⟨x, ?_, hx, rfl⟩
      rw [List.find?_cons_of_pos]
      rw [stopsSearch, hx]
      rfl
    | some id =>
      by_cases hid : (id.sequence : ℕ) = pathIdValue
      · refine Or.inr (Or.inr ⟨0, x, id, ?_, rfl, hx, hid, by simp [hid]⟩)
        rw [List.find?_cons_of_pos]
        rw [stopsSearch, hx]
        simpa using hid
      · have hskip : (x :: rest).find? (stopsSearch pathIdValue) =
            rest.find? (stopsSearch pathIdValue) := by
          refine List.find?_cons_of_neg ?_
          rw [stopsSearch, hx]
          simpa using hid
        dsimp only
        rw [hskip, if_neg hid]
        rcases ih with ⟨y, h1, h2, h3⟩ | ⟨h1, h2⟩ | ⟨i, y, id', h1, h2, h3, h4, h5⟩
        · exact Or.inl ⟨y, h1, h2, by rw [h3]; rfl⟩
        · exact Or.inr (Or.inl ⟨h1, by rw [h2]; rfl⟩)
        · exact Or.inr (Or.inr ⟨i + 1, y, id', h1, h2, h3, h4, by rw [h5]; rfl⟩)

theorem findPathById_zero (paths : List Path) (pathX pathIdValue : ℕ) :
    findPathById paths pathX true 0 pathIdValue =
      findBySequence Path.localCnxid pathIdValue paths := rfl

theorem findPathById_of_ne_zero {paths : List Path} (h : pathIdType ≠ 0) :
    findPathById paths pathX true pathIdType pathIdValue = some none :=
  if_neg h

/-- Demoting changes nothing exactly if the path is demoted. -/
theorem demotePath_eq_self_iff {i : ℕ} (currentTime : ℕ) :
    c.demotePath i currentTime = c ↔ ∀ x, c.paths[i]? = some x → x.isDemoted = true := by
  rw [demotePath]
  cases hx : c.paths[i]? with
  | none => simp
  | some x =>
    obtain ⟨hlt, hget⟩ := List.getElem?_eq_some_iff.mp hx
    dsimp only
    constructor
    · intro h y hy
      have hpaths := congrArg (fun c => c.paths[i]?) h
      dsimp only at hpaths
      rw [List.getElem?_set_self hlt, hx] at hpaths
      rw [← Option.some.inj hy, ← Option.some.inj hpaths]
      exact x.isDemoted_demote currentTime
    · intro h
      have hd := h x rfl
      rw [Demotion.demote, if_pos hd, hd, Bool.not_true, Bool.or_false]
      subst hget
      rw [List.set_getElem_self]

/-! ### The receiver -/

/-- **The receiver.** A frame that names its path by type 0, 1 or 2 has its effect exactly if
`Resolves` holds. -/
theorem demotesNamed_iff {currentTime : ℕ} :
    c.DemotesNamed pathX pathIdType pathIdValue currentTime
      ((findPathById c.paths pathX true pathIdType pathIdValue).map fun pathId =>
        pathId.elim c fun pathId => c.demotePath pathId currentTime) ↔
      c.Resolves pathX pathIdType pathIdValue := by
  by_cases htype : pathIdType = 0
  · subst htype
    rw [findPathById_zero]
    rcases findBySequence_local pathIdValue c.paths with
      ⟨x, hfind, hmissing, hnone⟩ | ⟨hfind, hnone⟩ | ⟨i, x, id, hfind, hi, hx, hid, hsome⟩
    · -- a missing identifier is read
      rw [hnone]
      refine iff_of_false ?_ fun h => h x hfind hmissing
      rintro (⟨i, -, h⟩ | ⟨-, h⟩) <;> cases h
    · rw [hnone]
      refine iff_of_true (Or.inr ⟨?_, rfl⟩) fun x hx => ?_
      · rintro i ⟨x, hi, id, hx, hid⟩
        have := List.find?_eq_none.mp hfind x (List.mem_of_getElem? hi)
        rw [stopsSearch, hx] at this
        exact this (by simpa using hid)
      · rw [hfind] at hx
        cases hx
    · rw [hsome]
      refine iff_of_true (Or.inl ⟨i, ⟨x, hi, id, hx, hid⟩, rfl⟩) fun y hy => ?_
      rw [hfind] at hy
      rw [← Option.some.inj hy, hx]
      exact Option.some_ne_none id
  · rw [findPathById_of_ne_zero htype]
    have hresolves : c.Resolves pathX pathIdType pathIdValue ↔
        ((∃ i, c.Names pathX pathIdType pathIdValue i) →
          ∃ i, c.Names pathX pathIdType pathIdValue i ∧
            ∀ x, c.paths[i]? = some x → x.isDemoted = true) := by
      rw [Resolves]
      exact htype
    rw [hresolves]
    constructor
    · rintro (⟨i, hi, h⟩ | ⟨hno, -⟩) hex
      · exact ⟨i, hi, (demotePath_eq_self_iff currentTime).mp (Option.some.inj h).symm⟩
      · obtain ⟨i, hi⟩ := hex
        exact absurd hi (hno i)
    · intro h
      by_cases hex : ∃ i, c.Names pathX pathIdType pathIdValue i
      · obtain ⟨i, hi, hdem⟩ := h hex
        exact Or.inl ⟨i, hi, congrArg some ((demotePath_eq_self_iff currentTime).mpr hdem).symm⟩
      · exact Or.inr ⟨fun i hi => hex ⟨i, hi⟩, rfl⟩

/-! ### The sender -/

/-- The path that a frame received on path `pathX` leads to. -/
def designatedBy (c : MultipathCnx) (pathX : ℕ) (bytes : List UInt8) : Option ℕ :=
  (parsePathAbandonFrame bytes).bind fun frame =>
    (findPathById c.paths pathX true frame.1 frame.2.1).join

/-- Path `y` of the peer uses the identifiers of path `x`. -/
def SameIdentifiers (x y : Path) : Prop :=
  y.localCnxid = x.remoteCnxid ∧ y.remoteCnxid = x.localCnxid

/-- When the frame about path `x` leads a peer to the same path: the identifier that the peer
issued is not empty, and the first path of the peer that has lost its local identifier, or uses
this one, is the path with the same identifiers. -/
def Designates (x : Path) (peer : MultipathCnx) : Prop :=
  ∃ remote, x.remoteCnxid = some remote ∧ 0 < remote.cnxId.length ∧
    ∃ y, peer.paths.find? (stopsSearch remote.sequence) = some y ∧ SameIdentifiers x y

/-- A frame is read back. -/
theorem parsePathAbandonFrame_bytes {t : ℕ} (ht : t < 2) (v : Fin (2 ^ 62)) (reason : ℕ)
    {phrase : List UInt8} (hphrase : phrase.length < 2 ^ 62) (rest : List UInt8) :
    parsePathAbandonFrame (pathAbandonBytes t v reason phrase ++ rest) =
      some (t, (v : ℕ), reason % 2 ^ 62, rest) := by
  have hv : (v : ℕ) % 2 ^ 62 = v := Nat.mod_eq_of_lt v.isLt
  simp only [pathAbandonBytes, List.append_assoc]
  rw [parsePathAbandonFrame, parsePathIdentifier_bytes (by omega), if_neg (by omega), hv]
  simp only [Option.bind_eq_bind, Option.bind_some, framesVarintDecode_varintBytes]
  rw [← List.append_assoc, framesLengthDataSkip_append hphrase]
  rfl

variable {x : Path} {i reason currentTime : ℕ} {c' : MultipathCnx} {body : List UInt8}

/-- A frame that was queued names the path by one of its identifiers. -/
theorem abandonPath_frame {phrase : Option (List UInt8)} (hx : c.paths[i]? = some x)
    (h : c.abandonPath i reason phrase currentTime = some c')
    (hframe : c'.miscFrames = c.miscFrames ++ [varintBytes frameTypePathAbandon ++ body]) :
    ∃ t v, abandonIdentifier x = some (t, v) ∧ t < 2 ∧
      body = pathAbandonBytes t v reason (phrase.getD []) ∧ (phrase.getD []).length ≤ 512 := by
  have hsame : ∀ {l : List (List UInt8)} {f : List UInt8}, l ≠ l ++ [f] := fun h => by
    have := congrArg List.length h
    simp at this
  have hdemote : (c.demotePath i currentTime).miscFrames = c.miscFrames := by
    rw [demotePath, hx]
  rw [abandonPath, hx] at h
  dsimp only at h
  split_ifs at h with h1 h2
  · rw [← Option.some.inj h] at hframe
    exact absurd hframe hsame
  · rw [← Option.some.inj h] at hframe
    exact absurd hframe hsame
  · obtain ⟨⟨t, v⟩, hid, hc'⟩ := Option.map_eq_some_iff.mp h
    dsimp only at hc'
    by_cases ht : t < 2
    · rw [if_pos ht] at hc'
      rw [← hc'] at hframe
      dsimp only at hframe
      rw [hdemote, List.append_cancel_left_eq, List.singleton_inj,
        pathAbandonFrame_eq (by omega), appendWithin] at hframe
      by_cases hfit : ([] : List UInt8).length + (varintBytes frameTypePathAbandon ++
          pathAbandonBytes t v reason (phrase.getD [])).length ≤ 512
      · rw [if_pos hfit, Option.getD_some, List.nil_append, List.append_right_inj] at hframe
        refine ⟨t, v, hid, ht, hframe.symm, ?_⟩
        simp only [List.length_append, pathAbandonBytes] at hfit
        omega
      · rw [if_neg hfit] at hframe
        simp [varintBytes, frameTypePathAbandon] at hframe
    · rw [if_neg ht] at hc'
      rw [← hc', hdemote] at hframe
      exact absurd hframe hsame

/-- The value in the frame is a sequence number. -/
theorem abandonIdentifier_eq {t v : ℕ} (h : abandonIdentifier x = some (t, v)) (ht : t < 2) :
    (∃ remote, x.remoteCnxid = some remote ∧ 0 < remote.cnxId.length ∧ t = 0 ∧
      v = remote.sequence) ∨
    ∃ remote localId, x.remoteCnxid = some remote ∧ remote.cnxId.length = 0 ∧
      x.localCnxid = some localId ∧ t = 1 ∧ v = localId.sequence := by
  rw [abandonIdentifier] at h
  obtain ⟨remote, hremote, h⟩ := Option.bind_eq_some_iff.mp h
  split_ifs at h with hlen
  · obtain ⟨rfl, rfl⟩ := Prod.mk.inj (Option.some.inj h)
    exact Or.inl ⟨remote, hremote, hlen, rfl, rfl⟩
  · obtain ⟨localId, hlocal, h⟩ := Option.map_eq_some_iff.mp h
    split_ifs at h
    · obtain ⟨rfl, rfl⟩ := Prod.mk.inj h
      exact Or.inr ⟨remote, localId, hremote, by omega, hlocal, rfl, rfl⟩
    · obtain ⟨rfl, rfl⟩ := Prod.mk.inj h
      omega

/-- **The sender.** The frame that a connection queues about path `x` leads a peer to the path
with the same identifiers exactly if `Designates` holds. -/
theorem designatedBy_iff {phrase : Option (List UInt8)} (hx : c.paths[i]? = some x)
    (h : c.abandonPath i reason phrase currentTime = some c')
    (hframe : c'.miscFrames = c.miscFrames ++ [varintBytes frameTypePathAbandon ++ body])
    (peer : MultipathCnx) (pathX : ℕ) (rest : List UInt8) :
    (∃ j y, peer.designatedBy pathX (body ++ rest) = some j ∧ peer.paths[j]? = some y ∧
      SameIdentifiers x y) ↔ Designates x peer := by
  obtain ⟨t, v, hid, ht, rfl, hlen⟩ := abandonPath_frame hx h hframe
  have hphrase : (phrase.getD []).length < 2 ^ 62 := by omega
  rcases abandonIdentifier_eq hid ht with
    ⟨remote, hremote, hpos, rfl, rfl⟩ | ⟨remote, localId, hremote, hzero, -, rfl, rfl⟩
  · have hdesignates : Designates x peer ↔
        ∃ y, peer.paths.find? (stopsSearch remote.sequence) = some y ∧ SameIdentifiers x y := by
      constructor
      · rintro ⟨remote', hremote', -, hy⟩
        rw [hremote] at hremote'
        rwa [← Option.some.inj hremote'] at hy
      · intro hy
        exact ⟨remote, hremote, hpos, hy⟩
    rw [hdesignates, designatedBy, parsePathAbandonFrame_bytes (by omega) _ _ hphrase]
    rw [Option.bind_some, findPathById_zero]
    rcases findBySequence_local remote.sequence peer.paths with
      ⟨y, hfind, hmissing, hnone⟩ | ⟨hfind, hnone⟩ | ⟨j, y, id, hfind, hj, hy, -, hsome⟩
    · rw [hnone]
      refine iff_of_false ?_ ?_
      · rintro ⟨j, y, hj, -⟩
        cases hj
      · -- the path at which the search stops has no local identifier
        rintro ⟨y', hy', hsame, -⟩
        rw [hfind] at hy'
        rw [← Option.some.inj hy', hmissing, hremote] at hsame
        cases hsame
    · rw [hnone]
      refine iff_of_false ?_ ?_
      · rintro ⟨j, y, hj, -⟩
        cases hj
      · rintro ⟨y, hy, -⟩
        rw [hfind] at hy
        cases hy
    · rw [hsome]
      constructor
      · rintro ⟨j', y', hj', hy', hsame⟩
        have heq : j = j' := Option.some.inj hj'
        rw [← heq, hj] at hy'
        exact ⟨y, hfind, Option.some.inj hy' ▸ hsame⟩
      · rintro ⟨y', hy', hsame⟩
        rw [hfind] at hy'
        exact ⟨j, y, rfl, hj, Option.some.inj hy' ▸ hsame⟩
  · -- type 1 is never resolved
    rw [designatedBy, parsePathAbandonFrame_bytes (by omega) _ _ hphrase, Option.bind_some,
      findPathById_of_ne_zero Nat.one_ne_zero]
    refine iff_of_false ?_ ?_
    · rintro ⟨j, y, hj, -⟩
      cases hj
    · rintro ⟨remote', hremote', hpos, -⟩
      rw [hremote] at hremote'
      rw [← Option.some.inj hremote'] at hpos
      omega

/-! ### Both directions -/

/-- **Paths named in PATH_ABANDON frames.** A frame received by a connection with several paths has
its effect exactly if `Resolves` holds, and a frame queued about a path leads a peer to the path
with the same identifiers exactly if `Designates` holds. -/
theorem path_abandon_iff (c : MultipathCnx) :
    (∀ (pathX t v reason currentTime : ℕ) (bytes rest : List UInt8),
      c.isMultipath = true → parsePathAbandonFrame bytes = some (t, v, reason, rest) →
      (c.DemotesNamed pathX t v currentTime
          ((c.decodePathAbandonFrame pathX bytes currentTime).map Prod.fst) ↔
        c.Resolves pathX t v)) ∧
    ∀ (c' : MultipathCnx) (i reason currentTime : ℕ) (phrase : Option (List UInt8)) (x : Path)
      (body : List UInt8), c.paths[i]? = some x →
      c.abandonPath i reason phrase currentTime = some c' →
      c'.miscFrames = c.miscFrames ++ [varintBytes frameTypePathAbandon ++ body] →
      ∀ (peer : MultipathCnx) (pathX : ℕ) (rest : List UInt8),
        (∃ j y, peer.designatedBy pathX (body ++ rest) = some j ∧ peer.paths[j]? = some y ∧
          SameIdentifiers x y) ↔ Designates x peer := by
  refine ⟨fun pathX t v reason currentTime bytes rest hmulti hparse => ?_,
    fun c' i reason currentTime phrase x body hx h hframe => designatedBy_iff hx h hframe⟩
  rw [decodePathAbandonFrame, hparse]
  dsimp only
  rw [if_neg (by rw [hmulti]; decide), Option.map_map]
  exact demotesNamed_iff

/-- Two paths, on which the peer uses the identifiers `r₀` and `r₁`. -/
def twoPaths (r₀ r₁ : PathCnxid) : MultipathCnx where
  paths :=
    [⟨⟨false, 0, 0⟩, some ⟨0, [10]⟩, some r₀, false⟩,
      ⟨⟨false, 0, 0⟩, some ⟨1, [11]⟩, some r₁, false⟩]
  isMultipathEnabled := true
  isSimpleMultipathEnabled := false
  pathDemotionNeeded := false
  miscFrames := []
  error := none

/-- The peer of such a connection. -/
def twoPathsPeer (r₀ r₁ : PathCnxid) : MultipathCnx where
  paths :=
    [⟨⟨false, 0, 0⟩, some r₀, some ⟨0, [10]⟩, false⟩,
      ⟨⟨false, 0, 0⟩, some r₁, some ⟨1, [11]⟩, false⟩]
  isMultipathEnabled := true
  isSimpleMultipathEnabled := false
  pathDemotionNeeded := false
  miscFrames := []
  error := none

theorem path_abandon_twoPaths :
    (twoPaths ⟨0, [20]⟩ ⟨1, [21]⟩).DemotesNamed 0 0 1 5
        (((twoPaths ⟨0, [20]⟩ ⟨1, [21]⟩).decodePathAbandonFrame 0 [0, 1, 0, 0] 5).map Prod.fst) ∧
      ∃ j y, (twoPathsPeer ⟨0, [20]⟩ ⟨1, [21]⟩).designatedBy 0 [0, 1, 0, 0] = some j ∧
        (twoPathsPeer ⟨0, [20]⟩ ⟨1, [21]⟩).paths[j]? = some y ∧
        SameIdentifiers ⟨⟨false, 0, 0⟩, some ⟨1, [11]⟩, some ⟨1, [21]⟩, false⟩ y := by
  obtain ⟨h1, h2⟩ := path_abandon_iff (twoPaths ⟨0, [20]⟩ ⟨1, [21]⟩)
  constructor
  · refine (h1 0 0 1 0 5 [0, 1, 0, 0] [] rfl (by decide)).mpr ?_
    change ∀ x, (twoPaths ⟨0, [20]⟩ ⟨1, [21]⟩).paths.find? (stopsSearch 1) = some x →
      x.localCnxid ≠ none
    decide
  · have hsent : ∃ c', (twoPaths ⟨0, [20]⟩ ⟨1, [21]⟩).abandonPath 1 0 none 5 = some c' ∧
        c'.miscFrames = [] ++ [varintBytes frameTypePathAbandon ++ [0, 1, 0, 0]] := by
      refine ⟨_, rfl, ?_⟩
      decide +kernel
    obtain ⟨c', hc', hframe⟩ := hsent
    refine (h2 c' 1 0 5 none _ [0, 1, 0, 0] rfl hc' hframe
      (twoPathsPeer ⟨0, [20]⟩ ⟨1, [21]⟩) 0 []).mpr ?_
    exact ⟨⟨1, [21]⟩, rfl, by decide, _, rfl, rfl, rfl⟩

/-- Frames with type 1 and 2 do not demote the path that they name. Type 0 reads the identifier
that a path has lost. And a sender whose peer issued empty identifiers sends a frame of type 1,
which leads nowhere. -/
theorem path_abandon_misses :
    ¬ (twoPaths ⟨0, [20]⟩ ⟨1, [21]⟩).DemotesNamed 0 1 1 5
        (((twoPaths ⟨0, [20]⟩ ⟨1, [21]⟩).decodePathAbandonFrame 0 [1, 1, 0, 0] 5).map Prod.fst) ∧
      ¬ (twoPaths ⟨0, [20]⟩ ⟨1, [21]⟩).DemotesNamed 0 2 0 5
        (((twoPaths ⟨0, [20]⟩ ⟨1, [21]⟩).decodePathAbandonFrame 0 [2, 0, 0] 5).map Prod.fst) ∧
      ((twoPaths ⟨0, [20]⟩ ⟨1, [21]⟩).retireLocalCnxid 0).decodePathAbandonFrame 1 [0, 1, 0, 0] 5 =
        none ∧
      ((twoPaths ⟨0, []⟩ ⟨0, []⟩).abandonPath 1 0 none 5).map (fun c => c.miscFrames) =
        some [varintBytes frameTypePathAbandon ++ [1, 1, 0, 0]] ∧
      (twoPathsPeer ⟨0, []⟩ ⟨0, []⟩).designatedBy 0 [1, 1, 0, 0] = none := by
  have hunchanged : ∀ t v i, i < 2 → (twoPaths ⟨0, [20]⟩ ⟨1, [21]⟩).Names 0 t v i →
      ¬ (twoPaths ⟨0, [20]⟩ ⟨1, [21]⟩).DemotesNamed 0 t v 5
        (some (twoPaths ⟨0, [20]⟩ ⟨1, [21]⟩)) := by
    rintro t v i hi hnames (⟨j, ⟨x, hx, -⟩, h⟩ | ⟨hno, -⟩)
    · have hj := (demotePath_eq_self_iff 5).mp (Option.some.inj h).symm x hx
      have hactive : ∀ x ∈ (twoPaths ⟨0, [20]⟩ ⟨1, [21]⟩).paths, x.isDemoted = false := by decide
      rw [hactive x (List.mem_of_getElem? hx)] at hj
      cases hj
    · exact hno i hnames
  refine ⟨?_, ?_, ?_, ?_, ?_⟩
  · exact hunchanged 1 1 1 (by decide) ⟨_, rfl, ⟨1, [21]⟩, rfl, rfl⟩
  · exact hunchanged 2 0 0 (by decide) ⟨_, rfl, rfl⟩
  · decide +kernel
  · decide +kernel
  · decide +kernel

end MultipathCnx

end Picoquic
