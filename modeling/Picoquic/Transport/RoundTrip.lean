import Picoquic.Path.Mtu
import Picoquic.Transport.Loop

/-!
# Transport parameters reach the peer

One side of a handshake writes its parameters, and the other side reads them. The values arrive in
the units of the protocol: a limit of streams is a number of streams, and the acknowledgement delay
is a number of milliseconds. The port of the second preferred address is lost, since the first one
is written in its place. A server also refuses the extension of a client that would like a version
which the server knows but cannot change to, although the client could go on with the present one.

* **`Tp.received`** — the parameters that arrive;
* **`receiveTransportExtensions_bytes`** — the extension is read;
* **`roundTrips_iff`** — the parameters that arrive are those that were written, exactly when both
  ports are the same, the units fit, and no other version gets in the way.
-/

namespace Picoquic

open TpParam TpCnx TpReceive

/-! ### Which parameter has a type -/

/-- What the type of a parameter in an extension says about it. -/
structure TpParam.InExtension (c : TpCnx) (extensionMode : Bool) (p : TpParam) : Prop where
  token : p.tpType = tpStatelessResetToken →
    extensionMode = true ∧ p = .statelessResetToken c.localResetSecret
  repeated : p.tpType = tpOriginalConnectionId ∨ p.tpType = tpRetryConnectionId →
    extensionMode = true ∧ p ∈ c.repeatedCnxids
  handshake : p.tpType = tpHandshakeConnectionId → p = .cid tpHandshakeConnectionId c.localCnxid
  address : p.tpType = tpServerPreferredAddress → c.localParameters.preferedAddress ≠ none
  versions : p.tpType = tpVersionNegotiation → c.doVersionNegotiation = true ∧
    p = .versionNegotiation c.version (c.otherVersions extensionMode)
  ackDelay : p.tpType = tpMaxAckDelay → c.localParameters.maxAckDelay ≠ ackDelayMaxDefault

/-- The types that say something. -/
def tpTold : List ℕ :=
  [tpStatelessResetToken, tpOriginalConnectionId, tpRetryConnectionId, tpHandshakeConnectionId,
    tpServerPreferredAddress, tpVersionNegotiation, tpMaxAckDelay]

theorem TpParam.InExtension.of_notMem {c : TpCnx} {extensionMode : Bool} {p : TpParam}
    (h : p.tpType ∉ tpTold) : p.InExtension c extensionMode := by
  simp only [tpTold, List.mem_cons, List.not_mem_nil, or_false, not_or] at h
  obtain ⟨htoken, horiginal, hretry, hhandshake, haddress, hversions, hdelay⟩ := h
  exact ⟨fun ht => absurd ht htoken, fun ht => absurd ht (not_or.mpr ⟨horiginal, hretry⟩),
    fun ht => absurd ht hhandshake, fun ht => absurd ht haddress, fun ht => absurd ht hversions,
    fun ht => absurd ht hdelay⟩

theorem inExtension_token (c : TpCnx) :
    (TpParam.statelessResetToken c.localResetSecret).InExtension c true := by
  have htype : (statelessResetToken c.localResetSecret).tpType =
    tpStatelessResetToken := rfl
  refine ⟨fun _ => ⟨rfl, rfl⟩, ?_, ?_, ?_, ?_, ?_⟩ <;> rw [htype] <;>
    exact fun h => absurd h (by decide)

theorem inExtension_repeated {c : TpCnx} {p : TpParam} (hp : p ∈ c.repeatedCnxids) :
    p.InExtension c true := by
  refine ⟨?_, fun _ => ⟨rfl, hp⟩, ?_, ?_, ?_, ?_⟩ <;>
    obtain htype | htype := repeatedCnxids_tpType hp <;> rw [htype] <;>
    exact fun h => absurd h (by decide)

theorem inExtension_handshake (c : TpCnx) (extensionMode : Bool) :
    (TpParam.cid tpHandshakeConnectionId c.localCnxid).InExtension c extensionMode := by
  have htype : (cid tpHandshakeConnectionId c.localCnxid).tpType =
    tpHandshakeConnectionId := rfl
  refine ⟨?_, ?_, fun _ => rfl, ?_, ?_, ?_⟩ <;> rw [htype] <;>
    exact fun h => absurd h (by decide)

variable {a : PreferedAddress} {s : TpReceive}

theorem inExtension_address {c : TpCnx} (extensionMode : Bool)
    (h : c.localParameters.preferedAddress ≠ none) :
    (TpParam.preferedAddress a).InExtension c extensionMode := by
  have htype : (preferedAddress a).tpType = tpServerPreferredAddress := rfl
  refine ⟨?_, ?_, ?_, fun _ => h, ?_, ?_⟩ <;> rw [htype] <;>
    exact fun h => absurd h (by decide)

theorem inExtension_versions {c : TpCnx} (extensionMode : Bool)
    (h : c.doVersionNegotiation = true) :
    (TpParam.versionNegotiation c.version (c.otherVersions extensionMode)).InExtension c
      extensionMode := by
  have htype : (versionNegotiation c.version (c.otherVersions extensionMode)).tpType =
    tpVersionNegotiation := rfl
  refine ⟨?_, ?_, ?_, ?_, fun _ => ⟨h, rfl⟩, ?_⟩ <;> rw [htype] <;>
    exact fun h => absurd h (by decide)

theorem inExtension_ackDelay {c : TpCnx} {n64 : ℕ} (extensionMode : Bool)
    (h : c.localParameters.maxAckDelay ≠ ackDelayMaxDefault) :
    (TpParam.varint tpMaxAckDelay n64).InExtension c extensionMode := by
  have htype : (varint tpMaxAckDelay n64).tpType = tpMaxAckDelay := rfl
  refine ⟨?_, ?_, ?_, ?_, ?_, fun _ => h⟩ <;> rw [htype] <;>
    exact fun h => absurd h (by decide)

theorem inExtension_of_mem {c : TpCnx} {extensionMode : Bool} {p : TpParam}
    (hp : p ∈ c.transportParams extensionMode) : p.InExtension c extensionMode := by
  suffices hall : ∀ p ∈ c.transportParams extensionMode, p.InExtension c extensionMode from
    hall p hp
  have haddress : ∀ p ∈ (c.localParameters.preferedAddress.elim [] fun a =>
      [preferedAddress a]), p.InExtension c extensionMode := by
    intro p hp
    cases h : c.localParameters.preferedAddress with
    | none =>
      rw [h] at hp
      exact absurd hp List.not_mem_nil
    | some a =>
      rw [h] at hp
      rw [List.mem_singleton.mp hp]
      exact inExtension_address extensionMode (by rw [h]; exact Option.some_ne_none a)
  have hrepeated : ∀ p ∈ (if extensionMode then c.repeatedCnxids else []),
      p.InExtension c extensionMode := by
    intro p hp
    split_ifs at hp with hmode
    · rw [hmode]
      exact inExtension_repeated hp
    · exact absurd hp List.not_mem_nil
  have htoken (h : extensionMode = true) :
      (statelessResetToken c.localResetSecret).InExtension c extensionMode := by
    rw [h]
    exact inExtension_token c
  have hdelay (h : decide (c.localParameters.maxAckDelay ≠ ackDelayMaxDefault) = true) :
      (varint tpMaxAckDelay
        ((c.localParameters.maxAckDelay + 999) % 2 ^ 32 / 1000)).InExtension c extensionMode :=
    inExtension_ackDelay extensionMode (of_decide_eq_true h)
  unfold transportParams
  simp only [List.forall_mem_append, forall_mem_paramIf, List.forall_mem_singleton]
  and_intros
  all_goals first
    | exact haddress
    | exact hrepeated
    | exact htoken
    | exact hdelay
    | exact inExtension_versions extensionMode
    | exact inExtension_handshake c extensionMode
    | exact .of_notMem (by simp only [tpType]; decide)
    | exact fun _ => .of_notMem (by simp only [tpType]; decide)
    | exact fun _ => .of_notMem (greaseType_notMem c (by decide))

section

variable {c peer : TpCnx} {extensionMode : Bool} {space : ℕ} {p : TpParam}

theorem inExtension_of_mem_extensionParams (hp : p ∈ c.extensionParams extensionMode space) :
    p.InExtension c extensionMode := by
  obtain hp | hp := List.mem_append.mp hp
  · exact inExtension_of_mem hp
  · obtain ⟨-, rfl⟩ := mem_fillFlight hp
    exact .of_notMem (by rw [tpType]; decide)

theorem mem_extensionParams (hp : p ∈ c.transportParams extensionMode) :
    p ∈ c.extensionParams extensionMode space :=
  List.mem_append_left _ hp

theorem handshake_mem (c : TpCnx) (extensionMode : Bool) :
    .cid tpHandshakeConnectionId c.localCnxid ∈ c.transportParams extensionMode := by
  unfold transportParams
  iterate 12 refine List.mem_append_left _ ?_
  exact List.mem_append_right _ (List.mem_singleton_self _)

theorem repeated_mem (hmode : extensionMode = true) (hp : p ∈ c.repeatedCnxids) :
    p ∈ c.transportParams extensionMode := by
  unfold transportParams
  iterate 11 refine List.mem_append_left _ ?_
  refine List.mem_append_right _ ?_
  rwa [if_pos hmode]

theorem ackDelay_mem (h : c.localParameters.maxAckDelay ≠ ackDelayMaxDefault) :
    .varint tpMaxAckDelay ((c.localParameters.maxAckDelay + 999) % 2 ^ 32 / 1000) ∈
      c.transportParams extensionMode := by
  unfold transportParams
  iterate 13 refine List.mem_append_left _ ?_
  exact List.mem_append_right _ (mem_paramIf.mpr ⟨decide_eq_true h, rfl⟩)

theorem activeConnectionIdLimit_mem (h : 0 < c.localParameters.activeConnectionIdLimit) :
    .varint tpActiveConnectionIdLimit c.localParameters.activeConnectionIdLimit ∈
      c.transportParams extensionMode := by
  unfold transportParams
  iterate 14 refine List.mem_append_left _ ?_
  exact List.mem_append_right _ (mem_paramIf.mpr ⟨decide_eq_true h, rfl⟩)

theorem versions_mem (h : c.doVersionNegotiation = true) :
    .versionNegotiation c.version (c.otherVersions extensionMode) ∈
      c.transportParams extensionMode := by
  unfold transportParams
  refine List.mem_append_left _ (List.mem_append_right _ ?_)
  exact mem_paramIf.mpr ⟨h, rfl⟩

theorem extensionParams_distinct (c : TpCnx) (extensionMode : Bool) (space : ℕ) :
    TpReceive.Distinct (c.extensionParams extensionMode space) := by
  have hparams : (c.transportParams extensionMode).Pairwise fun p q => p.tpType ≠ q.tpType :=
    List.pairwise_map.mp (types_nodup c extensionMode)
  refine List.pairwise_append.mpr ⟨hparams.imp fun hne heq => absurd heq hne, ?_, ?_⟩
  · rw [fillFlight, paramIf]
    cases extensionMode && !c.testLargeChello && c.testLargeServerFlight with
    | true => exact List.pairwise_singleton _ _
    | false => exact List.Pairwise.nil
  · intro p _ q hq heq
    obtain ⟨-, rfl⟩ := mem_fillFlight hq
    exact heq

end

/-! ### Versions -/

theorem selectVersion_bytes {vs : List ℕ} (hvs : ∀ v ∈ vs, v < 2 ^ 32) :
    selectVersion (vs.flatMap uint32Bytes) = .ok (vs.findSome? getVersionIndex) := by
  induction vs with
  | nil => rfl
  | cons v vs ih =>
    have hrest := ih fun w hw => hvs w (List.mem_cons_of_mem v hw)
    have hv := parse32_uint32Bytes (hvs v List.mem_cons_self)
    simp only [List.flatMap_cons, uint32Bytes, List.cons_append, List.nil_append, selectVersion, hv,
      List.findSome?_cons]
    cases getVersionIndex v with
    | none => exact hrest
    | some index => rfl

theorem checkVersions_bytes (vs : List ℕ) : checkVersions (vs.flatMap uint32Bytes) = .ok none := by
  induction vs with
  | nil => rfl
  | cons v vs ih => exact ih

theorem supportedVersions_lt : ∀ v ∈ supportedVersions, v < 2 ^ 32 := by decide

theorem version_lt (c : TpCnx) : c.version < 2 ^ 32 :=
  supportedVersions_lt _ (List.get_mem _ _)

theorem getVersionIndex_get :
    ∀ index : Fin supportedVersions.length,
      getVersionIndex (supportedVersions.get index) = some index := by
  decide

/-- A list of versions, read by a peer with the version in front of it. -/
theorem processTpVersionNegotiation_bytes {v : ℕ} (hv : v < 2 ^ 32) {vs : List ℕ}
    (hvs : ∀ w ∈ vs, w < 2 ^ 32) (extensionMode : Bool) :
    processTpVersionNegotiation ((v :: vs).flatMap uint32Bytes) extensionMode v =
      .ok (if extensionMode then none else vs.findSome? getVersionIndex) := by
  simp only [List.flatMap_cons, uint32Bytes, List.cons_append, List.nil_append,
    processTpVersionNegotiation, parse32_uint32Bytes hv]
  rw [if_neg (not_not.mpr rfl)]
  cases extensionMode with
  | true => exact checkVersions_bytes vs
  | false => exact selectVersion_bytes hvs

/-- No other version gets in the way: the version that a client would like is one that the server
does not know, or can change to. -/
def TpCnx.DesiredUpgrades (c : TpCnx) : Prop :=
  ∀ index, getVersionIndex c.desiredVersion = some index →
    versionUpgradeSupported c.versionIndex index = true

theorem findSome_otherVersions (c : TpCnx) :
    (c.otherVersions false).findSome? getVersionIndex =
      some ((getVersionIndex c.desiredVersion).getD c.versionIndex) := by
  have hversion : getVersionIndex c.version = some c.versionIndex := getVersionIndex_get _
  have hzero : getVersionIndex 0 = none := by decide
  rw [otherVersions, if_neg Bool.false_ne_true]
  split_ifs with h
  · rw [List.singleton_append, List.findSome?_cons, List.findSome?_cons, hversion]
    cases getVersionIndex c.desiredVersion with
    | none => rfl
    | some index => rfl
  · rw [List.nil_append, List.findSome?_cons, hversion]
    obtain h | h : c.desiredVersion = 0 ∨ c.desiredVersion = c.version := by omega
    · rw [h, hzero]
      rfl
    · rw [h, hversion]
      rfl

theorem upgrades_iff {c peer : TpCnx} {extensionMode : Bool}
    (hversion : peer.versionIndex = c.versionIndex) (hdesired : c.desiredVersion < 2 ^ 32) :
    TpReceive.Upgrades extensionMode peer
        (TpParam.versionNegotiation c.version (c.otherVersions extensionMode)).value ↔
      (extensionMode = false → c.DesiredUpgrades) := by
  have hothers : ∀ v ∈ c.otherVersions extensionMode, v < 2 ^ 32 := by
    intro v hv
    rw [otherVersions] at hv
    split_ifs at hv with hmode hd
    · exact supportedVersions_lt v hv
    · obtain rfl | rfl := List.mem_pair.mp hv
      · exact hdesired
      · exact version_lt c
    · rw [List.mem_singleton.mp hv]
      exact version_lt c
  have hsame : peer.version = c.version := congrArg supportedVersions.get hversion
  rw [TpReceive.Upgrades, hsame, hversion, value,
    processTpVersionNegotiation_bytes (version_lt c) hothers]
  cases extensionMode with
  | true =>
    refine iff_of_true ⟨none, rfl, ?_⟩ fun h => absurd h.symm Bool.false_ne_true
    rw [Option.getD_none, versionUpgradeSupported, if_pos rfl]
  | false =>
    rw [if_neg Bool.false_ne_true, findSome_otherVersions]
    constructor
    · rintro ⟨negotiated, hok, hupgrade⟩ - index hindex
      rw [← Except.ok.inj hok, hindex] at hupgrade
      exact hupgrade
    · intro h
      refine ⟨_, rfl, ?_⟩
      cases hindex : getVersionIndex c.desiredVersion with
      | none =>
        rw [Option.getD_some, Option.getD_none, versionUpgradeSupported, if_pos rfl]
      | some index => exact h rfl index hindex

/-! ### After the last parameter -/

theorem TpCnx.remoteParameters_negotiateIdleTimeout (c : TpCnx) :
    c.negotiateIdleTimeout.remoteParameters = c.remoteParameters := by
  rw [negotiateIdleTimeout]
  split_ifs <;> rfl

theorem TpCnx.remoteParameters_negotiateOptions (c : TpCnx) :
    c.negotiateOptions.remoteParameters = c.remoteParameters := by
  simp only [negotiateOptions]
  split_ifs <;> rfl

theorem TpCnx.negotiateMultipath_ok {c : TpCnx} (h : c.remoteParameters.enableMultipath ≤ 3) :
    ∃ c', c.negotiateMultipath = .ok c' ∧ c'.remoteParameters = c.remoteParameters := by
  have hle : c.remoteParameters.enableMultipath &&& c.localParameters.enableMultipath ≤ 3 :=
    Nat.and_le_left.trans h
  unfold negotiateMultipath
  generalize c.remoteParameters.enableMultipath &&& c.localParameters.enableMultipath = n at hle ⊢
  obtain rfl | rfl | rfl | rfl : n = 0 ∨ n = 1 ∨ n = 2 ∨ n = 3 := by omega
  · exact ⟨c, rfl, rfl⟩
  · exact ⟨_, rfl, rfl⟩
  · exact ⟨_, rfl, rfl⟩
  · by_cases hsimple : (!c.clientMode) = true ∧ c.remoteCnxid.val.length = 0
    · exact ⟨_, if_pos hsimple, rfl⟩
    · exact ⟨_, if_neg hsimple, rfl⟩

namespace TpReceive

theorem finish_ok {extensionMode : Bool} (hhandshake : tpHandshakeConnectionId ∈ s.present)
    (hclient : extensionMode = false → ∀ t ∈ serverOnly, t ∉ s.present)
    (hserver : extensionMode = true → s.verifyCnxids = .ok ())
    (hmultipath : s.cnx.remoteParameters.enableMultipath ≤ 3) :
    ∃ c', finish extensionMode s = .ok c' ∧
      c'.remoteParameters = s.setDefaults.remoteParameters := by
  have hverify : (if extensionMode then s.verifyCnxids else .ok ()) = .ok () := by
    split_ifs with hmode
    · exact hserver hmode
    · rfl
  obtain ⟨c', hc', hremote⟩ :=
    negotiateMultipath_ok (c := s.setDefaults.negotiateIdleTimeout)
      (s.setDefaults.remoteParameters_negotiateIdleTimeout ▸ hmultipath)
  refine ⟨c'.negotiateOptions, ?_, ?_⟩
  · rw [finish, if_neg fun h => ?_, if_neg fun h => h.2 hhandshake, hverify]
    · exact congrArg (Except.map negotiateOptions) hc'
    · obtain ⟨hmode, t, ht, hpresent⟩ := h
      exact hclient hmode t ht hpresent
  · rw [c'.remoteParameters_negotiateOptions, hremote,
      s.setDefaults.remoteParameters_negotiateIdleTimeout]

end TpReceive

/-! ### The two sides -/

/-- The two sides of a handshake, where the first one writes its parameters: they have the same
version, and each knows the identifiers of the other. A client also knows those that the server
repeats, and a server has verified the identifier of the client before. -/
structure Peers (c peer : TpCnx) : Prop where
  clientMode : peer.clientMode = !c.clientMode
  versionIndex : peer.versionIndex = c.versionIndex
  remoteCnxid : peer.remoteCnxid = c.localCnxid
  originalCnxid : c.clientMode = false → peer.originalCnxid = c.originalCnxid
  initialCnxid : c.clientMode = false → peer.initialCnxid = c.initialCnxid
  verified : c.clientMode = false → c.originalCnxid.val.length = 0 → c.isHcidVerified = true

/-- The parameters that arrive. -/
def Tp.received (clientMode : Bool) (l : Tp) : Tp :=
  { l with
    initialMaxStreamIdBidir :=
      streamLimit (streamIdBidir + clientMode.toNat) l.initialMaxStreamIdBidir
    initialMaxStreamIdUnidir :=
      streamLimit (streamIdUnidir + clientMode.toNat) l.initialMaxStreamIdUnidir
    maxAckDelay := l.sentAckDelay
    preferedAddress := l.preferedAddress.map PreferedAddress.sent }

section

variable {c peer : TpCnx}

theorem repeatedCnxids_length_le {p : TpParam} (hp : p ∈ c.repeatedCnxids) :
    p.value.length ≤ 20 := by
  rw [repeatedCnxids] at hp
  split_ifs at hp
  · obtain rfl | rfl := List.mem_pair.mp hp
    · exact c.originalCnxid.property
    · exact c.initialCnxid.property
  · rw [List.mem_singleton.mp hp]
    exact c.initialCnxid.property
  · exact absurd hp List.not_mem_nil

/-- The parameters that are written are accepted, if the versions are. -/
theorem accepts_of_mem (hpeers : Peers c peer) {p : TpParam} {space : ℕ}
    (hp : p ∈ c.extensionParams (!c.clientMode) space)
    (hversions : c.doVersionNegotiation = true → TpReceive.Upgrades (!c.clientMode) peer
      (TpParam.versionNegotiation c.version (c.otherVersions (!c.clientMode))).value) :
    TpReceive.Accepts (!c.clientMode) peer.clearTransportExtensions p.tpType p.value := by
  have h := inExtension_of_mem_extensionParams hp
  refine ⟨fun ht => ?_, fun ht => ?_, fun ht => ?_, fun ht => ?_⟩
  · obtain ⟨hmode, rfl⟩ := h.token ht
    exact ⟨hmode, List.Vector.toList_length _⟩
  · obtain ht | ht | ht : p.tpType = tpOriginalConnectionId ∨ p.tpType = tpRetryConnectionId ∨
        p.tpType = tpHandshakeConnectionId := by
      simpa only [cidTypes, List.mem_cons, List.not_mem_nil, or_false] using ht
    · exact repeatedCnxids_length_le (h.repeated (Or.inl ht)).2
    · exact repeatedCnxids_length_le (h.repeated (Or.inr ht)).2
    · rw [h.handshake ht]
      exact c.localCnxid.property
  · rw [h.handshake ht]
    exact congrArg Subtype.val hpeers.remoteCnxid.symm
  · obtain ⟨hdo, rfl⟩ := h.versions ht
    exact hversions hdo

/-- A client does not send what only a server may send. -/
theorem serverOnly_notMem {space : ℕ} (hclient : c.clientMode = true)
    (hl : c.localParameters.InRange c.clientMode)
    (hpresent : ∀ t ∈ s.present, ∃ p ∈ c.extensionParams (!c.clientMode) space, p.tpType = t)
    {t : ℕ} (ht : t ∈ TpReceive.serverOnly) : t ∉ s.present := by
  intro hmem
  obtain ⟨p, hp, rfl⟩ := hpresent t hmem
  have h := inExtension_of_mem_extensionParams hp
  have hmode : ¬(!c.clientMode) = true := by rw [hclient]; exact Bool.false_ne_true
  obtain ht | ht | ht | ht : p.tpType = tpStatelessResetToken ∨
      p.tpType = tpServerPreferredAddress ∨ p.tpType = tpOriginalConnectionId ∨
      p.tpType = tpRetryConnectionId := by
    simpa only [serverOnly, List.mem_cons, List.not_mem_nil, or_false] using ht
  · exact hmode (h.token ht).1
  · obtain ⟨a, ha⟩ := Option.ne_none_iff_exists'.mp (h.address ht)
    exact absurd ((hl.preferedAddress a ha).1.symm.trans hclient) Bool.false_ne_true
  · exact hmode (h.repeated (Or.inl ht)).1
  · exact hmode (h.repeated (Or.inr ht)).1

/-- The state of the loop before the first parameter. -/
def startReceive (peer : TpCnx) : TpReceive := ⟨peer.clearTransportExtensions, [], [], []⟩

theorem mem_present {ps : List TpParam} (h : TpReceive.Noted ps (startReceive peer) s) {t : ℕ} :
    t ∈ s.present ↔ t < 64 ∧ ∃ p ∈ ps, p.tpType = t :=
  (h.present t).trans (or_iff_right List.not_mem_nil)

/-- The identifiers that a server repeats are those that its client knows. -/
theorem verifyCnxids_ok {space : ℕ} (hserver : c.clientMode = false) (hpeers : Peers c peer)
    (h : TpReceive.Noted (c.extensionParams (!c.clientMode) space) (startReceive peer) s) :
    s.verifyCnxids = .ok () := by
  have hmode : (!c.clientMode) = true := by rw [hserver]; rfl
  have horiginal : s.cnx.originalCnxid = c.originalCnxid :=
    h.cnxids.original.trans (hpeers.originalCnxid hserver)
  have hinitial : s.cnx.initialCnxid = c.initialCnxid :=
    h.cnxids.initial.trans (hpeers.initialCnxid hserver)
  have hrepeated {p : TpParam} (hp : p ∈ c.repeatedCnxids) :
      p ∈ c.extensionParams (!c.clientMode) space :=
    mem_extensionParams (repeated_mem hmode hp)
  have hhandshake : tpHandshakeConnectionId ∈ s.present :=
    (mem_present h).mpr ⟨by decide, _, mem_extensionParams (handshake_mem c _), rfl⟩
  simp only [verifyCnxids, if_pos hhandshake, horiginal, hinitial]
  by_cases hretry : 0 < c.originalCnxid.val.length
  · -- with a Retry packet before, both identifiers are repeated
    have hlist : c.repeatedCnxids =
        [.cid tpOriginalConnectionId c.originalCnxid, .cid tpRetryConnectionId c.initialCnxid] :=
      if_pos hretry
    have hfirst : cid tpOriginalConnectionId c.originalCnxid ∈ c.repeatedCnxids := by
      rw [hlist]
      exact List.mem_cons_self
    have hsecond : cid tpRetryConnectionId c.initialCnxid ∈ c.repeatedCnxids := by
      rw [hlist]
      exact List.mem_cons_of_mem _ List.mem_cons_self
    have hoid : s.originalConnectionId = c.originalCnxid.val := by
      refine h.original _ (fun p hp ht => ?_) (Or.inr ⟨_, hrepeated hfirst, rfl⟩)
      have hmem := ((inExtension_of_mem_extensionParams hp).repeated (Or.inl ht)).2
      rw [hlist] at hmem
      obtain rfl | rfl := List.mem_pair.mp hmem
      · rfl
      · exact absurd ht (by rw [tpType]; decide)
    have hrid : s.retryConnectionId = c.initialCnxid.val := by
      refine h.retry _ (fun p hp ht => ?_) (Or.inr ⟨_, hrepeated hsecond, rfl⟩)
      have hmem := ((inExtension_of_mem_extensionParams hp).repeated (Or.inr ht)).2
      rw [hlist] at hmem
      obtain rfl | rfl := List.mem_pair.mp hmem
      · exact absurd ht (by rw [tpType]; decide)
      · rfl
    rw [if_pos hretry.ne', if_neg]
    rintro (hno | hno | hno | hno)
    · exact hno ((mem_present h).mpr ⟨by decide, _, hrepeated hsecond, rfl⟩)
    · exact hno ((mem_present h).mpr ⟨by decide, _, hrepeated hfirst, rfl⟩)
    · exact hno hoid.symm
    · exact hno hrid.symm
  · -- without one, the server repeats the identifier that the client chose first
    have hzero : c.originalCnxid.val.length = 0 := by omega
    have hlist : c.repeatedCnxids = [.cid tpOriginalConnectionId c.initialCnxid] := by
      rw [repeatedCnxids, if_neg hretry, if_pos (hpeers.verified hserver hzero)]
    have hfirst : cid tpOriginalConnectionId c.initialCnxid ∈ c.repeatedCnxids := by
      rw [hlist]
      exact List.mem_cons_self
    have hoid : s.originalConnectionId = c.initialCnxid.val := by
      refine h.original _ (fun p hp ht => ?_) (Or.inr ⟨_, hrepeated hfirst, rfl⟩)
      have hmem := ((inExtension_of_mem_extensionParams hp).repeated (Or.inl ht)).2
      rw [hlist] at hmem
      rw [List.mem_singleton.mp hmem]
      rfl
    rw [if_neg (not_not.mpr hzero), if_neg]
    rintro (hno | hno | hno)
    · obtain ⟨-, p, hp, ht⟩ := (mem_present h).mp hno
      have hmem := ((inExtension_of_mem_extensionParams hp).repeated (Or.inr ht)).2
      rw [hlist] at hmem
      rw [List.mem_singleton.mp hmem] at ht
      exact absurd ht (by rw [tpType]; decide)
    · exact hno ((mem_present h).mpr ⟨by decide, _, hrepeated hfirst, rfl⟩)
    · exact hno hoid.symm

theorem setParams_extensionParams (hl : c.localParameters.InRange c.clientMode) (space : ℕ) :
    setParams (!c.clientMode) Tp.unset (c.extensionParams (!c.clientMode) space) =
      .ok (c.localParameters.read (!c.clientMode)) := by
  rw [← Bool.not_not c.clientMode] at hl
  refine (setParams_append_of_eq (setParams_transportParams hl) _).trans ?_
  exact setParams_of_notMem (paramIf_notMem (by rw [tpType]; decide))

/-- The defaults that are put in after the last parameter give the parameters that arrive. -/
theorem remoteParameters_setDefaults {space : ℕ} (hl : c.localParameters.InRange c.clientMode)
    (h : TpReceive.Noted (c.extensionParams (!c.clientMode) space) (startReceive peer) s)
    (hremote : s.cnx.remoteParameters = c.localParameters.read (!c.clientMode)) :
    s.setDefaults.remoteParameters = c.localParameters.received c.clientMode := by
  have hlimit : tpActiveConnectionIdLimit ∈ s.present := by
    have hpos : 0 < c.localParameters.activeConnectionIdLimit := by
      have := hl.activeConnectionIdLimit.1
      omega
    exact (mem_present h).mpr
      ⟨by decide, _, mem_extensionParams (activeConnectionIdLimit_mem hpos), rfl⟩
  have hdelay : (if tpMaxAckDelay ∈ s.present then c.localParameters.readAckDelay
      else ackDelayMaxDefault) = c.localParameters.sentAckDelay := by
    by_cases hdefault : c.localParameters.maxAckDelay = ackDelayMaxDefault
    · rw [if_neg, Tp.sentAckDelay, hdefault]
      · rfl
      · intro hmem
        obtain ⟨-, p, hp, ht⟩ := (mem_present h).mp hmem
        exact (inExtension_of_mem_extensionParams hp).ackDelay ht hdefault
    · have hmem : tpMaxAckDelay ∈ s.present :=
        (mem_present h).mpr ⟨by decide, _, mem_extensionParams (ackDelay_mem hdefault), rfl⟩
      rw [if_pos hmem, Tp.readAckDelay, if_neg hdefault]
  simp only [setDefaults, hremote, Tp.read, if_pos hlimit, hdelay, Tp.received,
    Bool.not_not]

/-- **Reading.** The peer takes the extension, and has the parameters that arrive. -/
theorem receiveTransportExtensions_bytes (hpeers : Peers c peer)
    (hl : c.localParameters.InRange c.clientMode) {space : ℕ}
    (hencodable : ∀ p ∈ c.extensionParams (!c.clientMode) space, p.Encodable)
    (hversions : c.doVersionNegotiation = true → TpReceive.Upgrades (!c.clientMode) peer
      (TpParam.versionNegotiation c.version (c.otherVersions (!c.clientMode))).value) :
    ∃ peer', peer.receiveTransportExtensions (!c.clientMode)
        ((c.extensionParams (!c.clientMode) space).flatMap TpParam.bytes) = .ok peer' ∧
      peer'.remoteParameters = c.localParameters.received c.clientMode := by
  have hset : setParams (!c.clientMode) (startReceive peer).cnx.remoteParameters
      (c.extensionParams (!c.clientMode) space) = .ok (c.localParameters.read (!c.clientMode)) :=
    setParams_extensionParams hl space
  obtain ⟨s, hs, hremote, hnoted⟩ := receiveAll_ok (s := startReceive peer)
    (extensionParams_distinct c _ space) (fun _ _ => List.not_mem_nil)
    (fun p hp => accepts_of_mem hpeers hp hversions) hset
  have hmultipath : s.cnx.remoteParameters.enableMultipath ≤ 3 := by
    rw [hremote]
    exact hl.enableMultipath
  have hhandshake : tpHandshakeConnectionId ∈ s.present :=
    (mem_present hnoted).mpr ⟨by decide, _, mem_extensionParams (handshake_mem c _), rfl⟩
  have hclient (hmode : (!c.clientMode) = false) (t : ℕ) (ht : t ∈ serverOnly) : t ∉ s.present :=
    serverOnly_notMem (by simpa using hmode) hl (fun t ht => ((mem_present hnoted).mp ht).2) ht
  have hserver (hmode : (!c.clientMode) = true) : s.verifyCnxids = .ok () :=
    verifyCnxids_ok (by simpa using hmode) hpeers hnoted
  obtain ⟨peer', hpeer', hparameters⟩ :=
    finish_ok hhandshake hclient hserver hmultipath
  refine ⟨peer', ?_, hparameters.trans (remoteParameters_setDefaults hl hnoted hremote)⟩
  rw [receiveTransportExtensions, receiveParams_bytes _ _ hencodable,
    ← startReceive, hs]
  exact hpeer'

/-- A peer that takes the extension accepts the versions. -/
theorem upgrades_of_receive {space : ℕ} {peer' : TpCnx} (hdo : c.doVersionNegotiation = true)
    (hencodable : ∀ p ∈ c.extensionParams (!c.clientMode) space, p.Encodable)
    (h : peer.receiveTransportExtensions (!c.clientMode)
      ((c.extensionParams (!c.clientMode) space).flatMap TpParam.bytes) = .ok peer') :
    TpReceive.Upgrades (!c.clientMode) peer
      (TpParam.versionNegotiation c.version (c.otherVersions (!c.clientMode))).value := by
  obtain ⟨s, hs, -⟩ := bind_eq_ok_iff.mp h
  rw [receiveParams_bytes _ _ hencodable] at hs
  exact upgrades_of_receiveAll (extensionParams_distinct c _ space) hs
    (mem_extensionParams (versions_mem hdo)) rfl

/-! ### The round trip -/

/-- The units of the protocol can express the parameters: a limit of streams is the identifier of
a stream that the peer may open, and the delay is a number of milliseconds. -/
structure Tp.Expressible (clientMode : Bool) (l : Tp) : Prop where
  initialMaxStreamIdBidir : l.initialMaxStreamIdBidir = 0 ∨ l.initialMaxStreamIdBidir = 2 ^ 64 - 1 ∨
    l.initialMaxStreamIdBidir % 4 = streamIdBidir + clientMode.toNat
  initialMaxStreamIdUnidir :
    l.initialMaxStreamIdUnidir = 0 ∨ l.initialMaxStreamIdUnidir = 2 ^ 64 - 1 ∨
      l.initialMaxStreamIdUnidir % 4 = streamIdUnidir + clientMode.toNat
  maxAckDelay : 1000 ∣ l.maxAckDelay

/-- Both ports of the preferred address are the same. -/
def Tp.SamePorts (l : Tp) : Prop := ∀ a ∈ l.preferedAddress, a.ipv6Port = a.ipv4Port

theorem streamLimit_eq_self {streamType id : ℕ} (htype : streamType < 4) :
    streamLimit streamType id = id ↔ id = 0 ∨ id = 2 ^ 64 - 1 ∨ id % 4 = streamType := by
  rw [streamLimit]
  split_ifs with h <;> omega

theorem PreferedAddress.sent_eq_self : a.sent = a ↔ a.ipv6Port = a.ipv4Port := by
  constructor
  · intro h
    exact (congrArg PreferedAddress.ipv6Port h).symm
  · intro h
    exact PreferedAddress.ext rfl rfl rfl h.symm rfl rfl

/-- The parameters arrive as they are. -/
theorem Tp.received_eq_self {clientMode : Bool} {l : Tp} :
    l.received clientMode = l ↔ l.Expressible clientMode ∧ l.SamePorts := by
  have hmode := Bool.toNat_le clientMode
  have hbidir : streamIdBidir + clientMode.toNat < 4 := by rw [streamIdBidir]; omega
  have hunidir : streamIdUnidir + clientMode.toNat < 4 := by rw [streamIdUnidir]; omega
  have hdelay : l.sentAckDelay = l.maxAckDelay ↔ 1000 ∣ l.maxAckDelay := by
    rw [Tp.sentAckDelay]
    omega
  have haddress : l.preferedAddress.map PreferedAddress.sent = l.preferedAddress ↔
      l.SamePorts := by
    rw [Tp.SamePorts]
    cases l.preferedAddress with
    | none => exact iff_of_true rfl fun a h => absurd h (Option.not_mem_none a)
    | some a =>
      rw [Option.map_some, Option.some_inj, PreferedAddress.sent_eq_self]
      exact ⟨fun h b hb => Option.mem_some_iff.mp hb ▸ h, fun h => h a rfl⟩
  constructor
  · intro h
    exact ⟨⟨(streamLimit_eq_self hbidir).mp (congrArg Tp.initialMaxStreamIdBidir h),
      (streamLimit_eq_self hunidir).mp (congrArg Tp.initialMaxStreamIdUnidir h),
      hdelay.mp (congrArg Tp.maxAckDelay h)⟩, haddress.mp (congrArg Tp.preferedAddress h)⟩
  · rintro ⟨h, hports⟩
    simp only [Tp.received, (streamLimit_eq_self hbidir).mpr h.initialMaxStreamIdBidir,
      (streamLimit_eq_self hunidir).mpr h.initialMaxStreamIdUnidir, hdelay.mpr h.maxAckDelay,
      haddress.mpr hports]

/-- Writing the parameters and reading them succeeds, and the peer has them. -/
def RoundTrips (c peer : TpCnx) : Prop :=
  ∃ c' bytes peer', c.prepareTransportExtensions (!c.clientMode) c.extDataSize = (c', some bytes) ∧
    peer.receiveTransportExtensions peer.clientMode bytes = .ok peer' ∧
    peer'.remoteParameters = c'.localParameters

theorem announceDatagrams_eq (c : TpCnx) (h : c.localParameters.maxDatagramFrameSize < 2 ^ 32) :
    ∃ n < 2 ^ 32, c.announceDatagrams =
      { c with localParameters := { c.localParameters with maxDatagramFrameSize := n } } := by
  rw [announceDatagrams]
  split_ifs
  · exact ⟨maxPacketSize, by decide, rfl⟩
  · exact ⟨_, h, rfl⟩

/-- What is written and read again, when nothing is announced any more. -/
theorem receive_iff {space : ℕ} (hpeers : Peers c peer)
    (hl : c.localParameters.InRange c.clientMode) (hdesired : c.desiredVersion < 2 ^ 32)
    (hencodable : ∀ p ∈ c.extensionParams (!c.clientMode) space, p.Encodable) :
    (∃ peer', peer.receiveTransportExtensions (!c.clientMode)
        ((c.extensionParams (!c.clientMode) space).flatMap TpParam.bytes) = .ok peer' ∧
      peer'.remoteParameters = c.localParameters) ↔
      c.localParameters.Expressible c.clientMode ∧ c.localParameters.SamePorts ∧
        (c.clientMode = true → c.doVersionNegotiation = true → c.DesiredUpgrades) := by
  have hupgrades : TpReceive.Upgrades (!c.clientMode) peer
        (versionNegotiation c.version (c.otherVersions (!c.clientMode))).value ↔
      ((!c.clientMode) = false → c.DesiredUpgrades) :=
    upgrades_iff hpeers.versionIndex hdesired
  constructor
  · rintro ⟨peer', hpeer', heq⟩
    have hversions (hdo : c.doVersionNegotiation = true) :=
      upgrades_of_receive hdo hencodable hpeer'
    obtain ⟨peer'', hpeer'', hremote⟩ :=
      receiveTransportExtensions_bytes hpeers hl hencodable hversions
    have hsame : peer' = peer'' := Except.ok.inj (hpeer'.symm.trans hpeer'')
    obtain ⟨hexpressible, hports⟩ :=
      Tp.received_eq_self.mp (hremote.symm.trans (hsame ▸ heq))
    refine ⟨hexpressible, hports, fun hclient hdo => ?_⟩
    exact hupgrades.mp (hversions hdo) (by rw [hclient]; rfl)
  · rintro ⟨hexpressible, hports, hclient⟩
    have hversions (hdo : c.doVersionNegotiation = true) :=
      hupgrades.mpr fun hmode => hclient (by simpa using hmode) hdo
    obtain ⟨peer', hpeer', hremote⟩ :=
      receiveTransportExtensions_bytes hpeers hl hencodable hversions
    exact ⟨peer', hpeer', hremote.trans (Tp.received_eq_self.mpr ⟨hexpressible, hports⟩)⟩

/-- The parameters that are written are those after the announcement. -/
theorem roundTrips_iff_receive (hpeer : peer.clientMode = !c.clientMode) :
    RoundTrips c peer ↔
      ∃ peer', peer.receiveTransportExtensions (!c.clientMode)
        ((c.announceDatagrams.extensionParams (!c.clientMode) c.extDataSize).flatMap
          TpParam.bytes) = .ok peer' ∧
        peer'.remoteParameters = c.announceDatagrams.localParameters := by
  rw [RoundTrips, c.prepareTransportExtensions_eq (Eq.refl (!c.clientMode)), hpeer]
  constructor
  · rintro ⟨c', bytes, peer', heq, hreceive, hremote⟩
    obtain ⟨rfl, hbytes⟩ := Prod.mk.inj heq
    rw [← Option.some.inj hbytes] at hreceive
    exact ⟨peer', hreceive, hremote⟩
  · rintro ⟨peer', hreceive, hremote⟩
    exact ⟨_, _, peer', rfl, hreceive, hremote⟩

/-- **The transport parameters reach the peer** as they are written, exactly when the units of the
protocol can express them, both ports of the preferred address are the same, and the version that a
client would like, when it says so, is not one that the server knows but cannot change to. -/
theorem roundTrips_iff (hpeers : Peers c peer) (hl : c.localParameters.InRange c.clientMode)
    (hdesired : c.desiredVersion < 2 ^ 32) :
    RoundTrips c peer ↔ c.localParameters.Expressible c.clientMode ∧ c.localParameters.SamePorts ∧
      (c.clientMode = true → c.doVersionNegotiation = true → c.DesiredUpgrades) := by
  rw [roundTrips_iff_receive hpeers.clientMode, ← c.extDataSize_announceDatagrams]
  obtain ⟨n, hn, ha⟩ := announceDatagrams_eq c hl.maxDatagramFrameSize
  generalize c.announceDatagrams = a at ha ⊢
  -- the announcement changes one parameter, which all conditions leave out
  have hmode : a.clientMode = c.clientMode := by rw [ha]
  have hpeersA : Peers a peer := by
    rw [ha]
    exact ⟨hpeers.clientMode, hpeers.versionIndex, hpeers.remoteCnxid, hpeers.originalCnxid,
      hpeers.initialCnxid, hpeers.verified⟩
  have hlA : a.localParameters.InRange a.clientMode := by
    rw [ha]
    exact { hl with maxDatagramFrameSize := hn }
  have hexpressible : a.localParameters.Expressible c.clientMode ↔
      c.localParameters.Expressible c.clientMode := by
    rw [ha]
    exact ⟨fun h => ⟨h.1, h.2, h.3⟩, fun h => ⟨h.1, h.2, h.3⟩⟩
  have hports : a.localParameters.SamePorts ↔ c.localParameters.SamePorts := by
    rw [ha]
    rfl
  have hversions : a.doVersionNegotiation = c.doVersionNegotiation := by rw [ha]
  have hupgrades : a.DesiredUpgrades ↔ c.DesiredUpgrades := by
    rw [ha]
    rfl
  have hiff := receive_iff hpeersA hlA (by rw [ha]; exact hdesired) fun p hp =>
    encodable_extensionParams (c := a) rfl hp
  rwa [hmode, hexpressible, hports, hversions, hupgrades] at hiff

end

/-! ### The defaults -/

/-- `picoquic_init_transport_parameters`. -/
def initTransportParameters (clientMode : Bool) : Tp where
  initialMaxStreamDataBidiLocal := 0x200000
  initialMaxStreamDataBidiRemote := 65635
  initialMaxStreamDataUni := 65535
  initialMaxData := 0x100000
  initialMaxStreamIdBidir := if clientMode then 2049 else 2048
  initialMaxStreamIdUnidir := if clientMode then 2051 else 2050
  idleTimeout := 30000000 / 1000
  maxPacketSize := practicalMaxMtu
  maxAckDelay := 10000
  activeConnectionIdLimit := nbPathTarget
  ackDelayExponent := 3
  migrationDisabled := false
  preferedAddress := none
  maxDatagramFrameSize := 0
  enableLossBit := 2
  enableTimeStamp := 0
  minAckDelay := 1000
  doGreaseQuicBit := false
  enableMultipath := 0
  enableBdpFrame := 0

variable (clientMode : Bool)

theorem initTransportParameters_inRange :
    (initTransportParameters clientMode).InRange clientMode := by
  cases clientMode <;>
    exact ⟨by decide, by decide, by decide, by decide, Or.inr (by decide), Or.inr (by decide),
      by decide, by decide, by decide, by decide, by decide, nofun, by decide, by decide, by decide,
      by decide, by decide, by decide⟩

/-- The defaults arrive as they are. -/
theorem initTransportParameters_received :
    (initTransportParameters clientMode).received clientMode =
      initTransportParameters clientMode := by
  cases clientMode <;> decide

/-! ### A handshake -/

/-- One side of a handshake, with parameters `l`. -/
def handshakeCnx (clientMode : Bool) (l : Tp) : TpCnx where
  clientMode := clientMode
  localParameters := l
  remoteParameters := Tp.unset
  remoteParametersReceived := false
  localCnxid := if clientMode then ⟨[1], by decide⟩ else ⟨[2], by decide⟩
  remoteCnxid := if clientMode then ⟨[2], by decide⟩ else ⟨[1], by decide⟩
  localResetSecret := List.Vector.replicate 16 0
  remoteResetSecret := []
  initialCnxid := ⟨[3, 3, 3, 3, 3, 3, 3, 3], by decide⟩
  originalCnxid := ⟨[], by decide⟩
  isHcidVerified := !clientMode
  versionIndex := ⟨0, by decide⟩
  desiredVersion := 0
  doVersionNegotiation := false
  greaseTransportParameters := false
  testLargeChello := false
  testLargeServerFlight := false
  oneWayGreaseQuicBit := false
  maxdataRemote := 0
  maxStreamIdBidirRemote := 0
  maxStreamIdUnidirRemote := 0
  maxMaxStreamDataRemote := 0
  idleTimeout := 0
  keepAliveInterval := 0
  isAckFrequencyNegotiated := false
  isSimpleMultipathEnabled := false
  isMultipathEnabled := false
  isLossBitEnabledOutgoing := false
  isLossBitEnabledIncoming := false
  sendReceiveBdpFrame := false
  isTimeStampEnabled := false
  isTimeStampSent := false
  doGreaseQuicBit := false

theorem handshakeCnx_peers (l l' : Tp) :
    Peers (handshakeCnx clientMode l) (handshakeCnx (!clientMode) l') := by
  refine ⟨rfl, rfl, ?_, fun _ => rfl, fun _ => rfl, fun h _ => congrArg (!·) h⟩
  cases clientMode <;> rfl

/-- The parameters of a server that prefers one port for each kind of address. -/
def twoPorts : Tp :=
  { initTransportParameters false with
    preferedAddress := some
      { ipv4Address := ⟨[10, 0, 0, 1], rfl⟩
        ipv4Port := 443
        ipv6Address := List.Vector.replicate 16 1
        ipv6Port := 444
        connectionId := ⟨[4, 4, 4, 4], by decide⟩
        statelessResetToken := List.Vector.replicate 16 2 } }

/-- The client does not learn the second port. -/
theorem port_lost :
    Peers (handshakeCnx false twoPorts) (handshakeCnx true (initTransportParameters true)) ∧
      twoPorts.InRange false ∧
      ¬RoundTrips (handshakeCnx false twoPorts)
        (handshakeCnx true (initTransportParameters true)) := by
  have hpeers := handshakeCnx_peers false twoPorts (initTransportParameters true)
  have hl : twoPorts.InRange false :=
    { initTransportParameters_inRange false with
      preferedAddress := fun a ha => ⟨rfl, by rw [← Option.some.inj ha]; decide⟩ }
  refine ⟨hpeers, hl, fun h => ?_⟩
  have hreceive := (roundTrips_iff_receive hpeers.clientMode).mp h
  have hsame := ((receive_iff (c := handshakeCnx false twoPorts) hpeers hl (by decide) fun p hp =>
    encodable_extensionParams rfl hp).mp hreceive).2.1
  exact absurd (hsame _ rfl) (by decide)

/-- The defaults of a client reach a server. -/
theorem defaults_arrive : RoundTrips (handshakeCnx true (initTransportParameters true))
    (handshakeCnx false (initTransportParameters false)) := by
  obtain ⟨hexpressible, hports⟩ :=
    Tp.received_eq_self.mp (initTransportParameters_received true)
  exact (roundTrips_iff (handshakeCnx_peers true _ _) (initTransportParameters_inRange true)
    (by decide)).mpr ⟨hexpressible, hports, nofun⟩

end Picoquic
