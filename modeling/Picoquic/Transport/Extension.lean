import Picoquic.Transport.Fields

/-!
# The extension with the transport parameters

The parameters of an extension have different types, so the reader takes none of them for one that
is there twice, and there is always space for them in the buffer.

* **`types_sublist`** — the types that are written, in their order;
* **`bytes_length_le_tpCost`** — how long a parameter of a type can be;
* **`TpCnx.prepareTransportExtensions_eq`** — the extension is written, with all parameters.
-/

namespace Picoquic

open TpParam

/-! ### The types -/

/-- The types of an extension, in their order, where `grease_transport_parameters` adds one. -/
def tpTypes (grease : ℕ) : List ℕ :=
  [tpInitialMaxStreamDataBidiLocal] ++ [tpInitialMaxData] ++ [tpInitialMaxStreamsBidi] ++
  [tpIdleTimeout] ++ [tpMaxPacketSize] ++ [tpAckDelayExponent] ++ [tpInitialMaxStreamsUni] ++
  [tpServerPreferredAddress] ++ [tpDisableMigration] ++ [tpInitialMaxStreamDataBidiRemote] ++
  [tpInitialMaxStreamDataUni] ++ [tpActiveConnectionIdLimit] ++ [tpMaxAckDelay] ++
  [tpHandshakeConnectionId] ++ [tpOriginalConnectionId, tpRetryConnectionId] ++
  [tpStatelessResetToken] ++ [tpMaxDatagramFrameSize] ++ [grease] ++ [tpTestLargeChello] ++
  [tpEnableLossBit] ++ [tpMinAckDelay] ++ [tpEnableTimeStamp] ++ [tpGreaseQuicBit] ++
  [tpEnableMultipath] ++ [tpVersionNegotiation] ++ [tpEnableBdpFrame]

theorem map_paramIf_sublist (b : Bool) (p : TpParam) :
    ((paramIf b p).map TpParam.tpType).Sublist [p.tpType] := by
  cases b with
  | true => exact List.Sublist.refl _
  | false => exact List.nil_sublist _

theorem paramIf_length_le (b : Bool) (p : TpParam) : (paramIf b p).length ≤ 1 := by
  cases b with
  | true => exact le_rfl
  | false => exact Nat.zero_le 1

theorem preferedAddress_sublist (a : Option PreferedAddress) :
    ((a.elim [] fun a => [TpParam.preferedAddress a]).map TpParam.tpType).Sublist
      [tpServerPreferredAddress] := by
  cases a with
  | some a => exact List.Sublist.refl _
  | none => exact List.nil_sublist _

theorem repeatedCnxids_sublist (c : TpCnx) (b : Bool) :
    ((if b then c.repeatedCnxids else []).map TpParam.tpType).Sublist
      [tpOriginalConnectionId, tpRetryConnectionId] := by
  rw [TpCnx.repeatedCnxids]
  split_ifs
  · exact List.Sublist.refl _
  · exact (List.nil_sublist _).cons_cons _
  · exact List.nil_sublist _
  · exact List.nil_sublist _

/-- **The types of an extension**, in their order. -/
theorem types_sublist (c : TpCnx) (extensionMode : Bool) :
    ((c.transportParams extensionMode).map TpParam.tpType).Sublist (tpTypes (greaseType c)) := by
  unfold TpCnx.transportParams tpTypes
  simp only [List.map_append]
  -- part by part: a part that is there on a condition, the address, the identifiers
  iterate 25 refine List.Sublist.append ?_ ?_
  all_goals first
    | exact map_paramIf_sublist _ _
    | exact preferedAddress_sublist _
    | exact repeatedCnxids_sublist c _
    | exact List.Sublist.refl _

theorem tpTypes_split (c : TpCnx) :
    tpTypes (greaseType c) = (tpTypes 0).take 18 ++ greaseType c :: (tpTypes 0).drop 19 :=
  rfl

theorem greaseType_notMem_tpTypes (c : TpCnx) :
    greaseType c ∉ (tpTypes 0).take 18 ++ (tpTypes 0).drop 19 :=
  greaseType_notMem c (by decide)

theorem tpTypes_nodup (c : TpCnx) : (tpTypes (greaseType c)).Nodup := by
  rw [tpTypes_split, List.nodup_middle, List.nodup_cons]
  exact ⟨greaseType_notMem_tpTypes c, by decide⟩

theorem types_nodup (c : TpCnx) (extensionMode : Bool) :
    ((c.transportParams extensionMode).map TpParam.tpType).Nodup :=
  (types_sublist c extensionMode).nodup (tpTypes_nodup c)

variable {extensionMode : Bool} {c : TpCnx} {p : TpParam} {out : List UInt8}

theorem tpType_lt (hp : p ∈ c.transportParams extensionMode) : p.tpType < 2 ^ 62 := by
  have hmem : p.tpType ∈ tpTypes (greaseType c) :=
    (types_sublist c extensionMode).subset (List.mem_map_of_mem hp)
  rw [tpTypes_split, List.mem_append, List.mem_cons] at hmem
  have hbefore : ∀ t ∈ (tpTypes 0).take 18, t < 2 ^ 62 := by decide
  have hbehind : ∀ t ∈ (tpTypes 0).drop 19, t < 2 ^ 62 := by decide
  obtain h | h | h := hmem
  · exact hbefore _ h
  · exact h ▸ (greaseType_lt c).trans (by norm_num)
  · exact hbehind _ h

/-! ### The length -/

/-- The length that a parameter of a type has at most. -/
def tpCost (tpType : ℕ) : ℕ :=
  if tpType ∈ TpReceive.cidTypes then 16 + 20
  else if tpType = tpServerPreferredAddress then 16 + 61
  else if tpType = tpStatelessResetToken then 16 + 16
  else if tpType = tpTestLargeChello then 16 + 1200
  else if tpType = tpVersionNegotiation then 16 + 4 * 13
  else 16 + 8

theorem le_tpCost (tpType : ℕ) : 16 + 8 ≤ tpCost tpType := by
  rw [tpCost]
  split_ifs <;> omega

/-- The types that are not for an integer. -/
def notVarint : List ℕ :=
  TpReceive.cidTypes ++
    [tpServerPreferredAddress, tpStatelessResetToken, tpTestLargeChello, tpVersionNegotiation]

theorem tpCost_of_notMem {tpType : ℕ} (h : tpType ∉ notVarint) : tpCost tpType = 16 + 8 := by
  rw [notVarint, List.mem_append, not_or] at h
  simp only [List.mem_cons, List.not_mem_nil, or_false, not_or] at h
  rw [tpCost, if_neg h.1, if_neg h.2.1, if_neg h.2.2.1, if_neg h.2.2.2.1, if_neg h.2.2.2.2]

theorem sum_tpCost (c : TpCnx) : ((tpTypes (greaseType c)).map tpCost).sum = 1981 := by
  have hgrease : tpCost (greaseType c) = 24 := tpCost_of_notMem (greaseType_notMem c (by decide))
  have hbefore : (((tpTypes 0).take 18).map tpCost).sum = 529 := by decide
  have hbehind : (((tpTypes 0).drop 19).map tpCost).sum = 1428 := by decide
  rw [tpTypes_split, List.map_append, List.map_cons, List.sum_append, List.sum_cons, hgrease,
    hbefore, hbehind]

theorem otherVersions_length_le (c : TpCnx) (extensionMode : Bool) :
    (c.otherVersions extensionMode).length ≤ 12 := by
  rw [TpCnx.otherVersions]
  split_ifs <;> simp [supportedVersions]

theorem varint_length_le (tpType n64 : ℕ) :
    16 + (TpParam.varint tpType n64).value.length ≤ tpCost (TpParam.varint tpType n64).tpType := by
  have hvalue : (varint tpType n64).value.length ≤ 8 :=
    (varintBytes_length n64).trans_le (encodeVarintLength_le_eight n64)
  exact (Nat.add_le_add_left hvalue 16).trans (le_tpCost tpType)

theorem flag_length_le (tpType : ℕ) :
    16 + (TpParam.flag tpType).value.length ≤ tpCost (TpParam.flag tpType).tpType :=
  le_self_add.trans (le_tpCost tpType)

theorem cid_length_le {tpType : ℕ} (h : tpType ∈ TpReceive.cidTypes) (id : RemoteCnxid) :
    16 + (TpParam.cid tpType id).value.length ≤ tpCost (TpParam.cid tpType id).tpType := by
  have hcost : tpCost tpType = 16 + 20 := if_pos h
  exact (Nat.add_le_add_left id.property 16).trans hcost.ge

theorem forall_mem_paramIf {P : TpParam → Prop} {b : Bool} :
    (∀ q ∈ paramIf b p, P q) ↔ (b = true → P p) := by
  constructor
  · intro h hb
    exact h p (mem_paramIf.mpr ⟨hb, rfl⟩)
  · intro h q hq
    obtain ⟨hb, rfl⟩ := mem_paramIf.mp hq
    exact h hb

/-- **The length of a parameter.** -/
theorem bytes_length_le_tpCost (hp : p ∈ c.transportParams extensionMode) :
    p.bytes.length ≤ tpCost p.tpType := by
  suffices hall : ∀ p ∈ c.transportParams extensionMode, 16 + p.value.length ≤ tpCost p.tpType from
    p.bytes_length_le.trans (hall p hp)
  have hversions (_ : c.doVersionNegotiation = true) :
      16 + (versionNegotiation c.version (c.otherVersions extensionMode)).value.length ≤
        tpCost tpVersionNegotiation := by
    have hlength := otherVersions_length_le c extensionMode
    have hcost : tpCost tpVersionNegotiation = 68 := by decide
    rw [hcost, value, flatMap_uint32Bytes_length, List.length_cons]
    omega
  have haddress : ∀ p ∈ (c.localParameters.preferedAddress.elim [] fun a =>
      [preferedAddress a]), 16 + p.value.length ≤ tpCost p.tpType := by
    cases c.localParameters.preferedAddress with
    | none => exact fun p hp => absurd hp List.not_mem_nil
    | some a =>
      intro p hp
      obtain rfl := List.mem_singleton.mp hp
      have hid : a.connectionId.val.length ≤ 20 := a.connectionId.property
      have hcost : tpCost tpServerPreferredAddress = 77 := by decide
      rw [tpType, hcost, value, preferedAddress_bytes_length]
      omega
  have hrepeated : ∀ p ∈ (if extensionMode then c.repeatedCnxids else []),
      16 + p.value.length ≤ tpCost p.tpType := by
    rw [TpCnx.repeatedCnxids]
    split_ifs
    · intro p hp
      obtain rfl | rfl := List.mem_pair.mp hp
      · exact cid_length_le (by decide) _
      · exact cid_length_le (by decide) _
    · intro p hp
      obtain rfl := List.mem_singleton.mp hp
      exact cid_length_le (by decide) _
    · exact fun p hp => absurd hp List.not_mem_nil
    · exact fun p hp => absurd hp List.not_mem_nil
  have htoken (_ : extensionMode = true) :
      16 + (statelessResetToken c.localResetSecret).value.length ≤
        tpCost tpStatelessResetToken := by
    have hcost : tpCost tpStatelessResetToken = 16 + 16 := by decide
    rw [value, List.Vector.toList_length, hcost]
  have hlarge (_ : c.testLargeChello = true) :
      16 + (testLargeChello 1200).value.length ≤ tpCost tpTestLargeChello := by
    have hcost : tpCost tpTestLargeChello = 16 + 1200 := by decide
    rw [value, List.length_replicate, hcost]
  unfold TpCnx.transportParams
  simp only [List.forall_mem_append, forall_mem_paramIf, List.forall_mem_singleton]
  and_intros
  all_goals first
    | exact haddress
    | exact hrepeated
    | exact htoken
    | exact hlarge
    | exact hversions
    | exact cid_length_le (by decide) _
    | exact varint_length_le _ _
    | exact fun _ => varint_length_le _ _
    | exact fun _ => flag_length_le _

theorem encodable (hp : p ∈ c.transportParams extensionMode) : p.Encodable := by
  refine ⟨tpType_lt hp, ?_⟩
  have hvalue : p.value.length ≤ p.bytes.length := by
    rw [bytes, List.length_append]
    exact Nat.le_add_left _ _
  have hmem : tpCost p.tpType ∈ (tpTypes (greaseType c)).map tpCost :=
    List.mem_map_of_mem ((types_sublist c extensionMode).subset (List.mem_map_of_mem hp))
  have hcost : tpCost p.tpType ≤ 1981 :=
    (List.single_le_sum (fun _ _ => Nat.zero_le _) _ hmem).trans_eq (sum_tpCost c)
  have hlength := bytes_length_le_tpCost hp
  omega

/-- **The length of the parameters**, but for the last one. -/
theorem transportParams_length_le (c : TpCnx) (extensionMode : Bool) :
    ((c.transportParams extensionMode).flatMap TpParam.bytes).length ≤ 1981 := by
  calc ((c.transportParams extensionMode).flatMap bytes).length
      = ((c.transportParams extensionMode).map fun p => p.bytes.length).sum := List.length_flatMap
    _ ≤ ((c.transportParams extensionMode).map fun p => tpCost p.tpType).sum :=
        List.sum_le_sum fun p hp => bytes_length_le_tpCost hp
    _ = (((c.transportParams extensionMode).map tpType).map tpCost).sum := by
        rw [List.map_map]
        rfl
    _ ≤ ((tpTypes (greaseType c)).map tpCost).sum :=
        ((types_sublist c extensionMode).map tpCost).sum_le_sum fun _ _ => Nat.zero_le _
    _ = 1981 := sum_tpCost c

/-! ### Writing -/

namespace TpCnx

/-- All parameters of an extension, in a buffer of `space` bytes. -/
def extensionParams (c : TpCnx) (extensionMode : Bool) (space : ℕ) : List TpParam :=
  c.transportParams extensionMode ++
    c.fillFlight extensionMode space ((c.transportParams extensionMode).flatMap TpParam.bytes)

theorem mem_fillFlight {space : ℕ} (hp : p ∈ c.fillFlight extensionMode space out) :
    (extensionMode && !c.testLargeChello && c.testLargeServerFlight) = true ∧
      p = .testLargeChello (if 24 < space - out.length then space - out.length - 24 else 1) :=
  mem_paramIf.mp hp

/-- The parameter that fills the buffer leaves eight bytes. -/
theorem fillFlight_fits (hmode : extensionMode = !c.clientMode) (hout : out.length ≤ 1981)
    (hp : p ∈ c.fillFlight extensionMode c.extDataSize out) :
    p.Encodable ∧ out.length + p.bytes.length < c.extDataSize := by
  obtain ⟨hfill, rfl⟩ := mem_fillFlight hp
  have hserver : (!c.clientMode && c.testLargeServerFlight) = true := by
    rw [← hmode]
    simp only [Bool.and_eq_true] at hfill ⊢
    exact ⟨hfill.1.1, hfill.2⟩
  have hsize : c.extDataSize = 2048 + 4096 := by rw [extDataSize, if_pos hserver]; rfl
  rw [hsize, if_pos (by omega)]
  have hlength := (TpParam.testLargeChello (2048 + 4096 - out.length - 24)).bytes_length_le
  rw [value, List.length_replicate] at hlength
  refine ⟨⟨(by decide : tpTestLargeChello < 2 ^ 62), ?_⟩, by omega⟩
  rw [value, List.length_replicate]
  omega

theorem le_extDataSize (c : TpCnx) : 2048 ≤ c.extDataSize := by
  rw [extDataSize, transportParametersMaxSize]
  exact Nat.le_add_right _ _

theorem extDataSize_announceDatagrams (c : TpCnx) :
    c.announceDatagrams.extDataSize = c.extDataSize := by
  rw [announceDatagrams]
  split_ifs <;> rfl

theorem clientMode_announceDatagrams (c : TpCnx) :
    c.announceDatagrams.clientMode = c.clientMode := by
  rw [announceDatagrams]
  split_ifs <;> rfl

theorem encodable_extensionParams (hmode : extensionMode = !c.clientMode)
    (hp : p ∈ c.extensionParams extensionMode c.extDataSize) : p.Encodable := by
  obtain hp | hp := List.mem_append.mp hp
  · exact encodable hp
  · exact (fillFlight_fits hmode (transportParams_length_le c extensionMode) hp).1

theorem foldlM_encode {space : ℕ} {ps : List TpParam} (hps : ∀ p ∈ ps, p.Encodable)
    (hspace : out.length + (ps.flatMap TpParam.bytes).length < space) :
    ps.foldlM (TpParam.encode space) out = some (out ++ ps.flatMap TpParam.bytes) := by
  have hroom : out.length + (ps.flatMap bytes).length ≤ space - 1 := by omega
  refine foldlM_of_fits ps out (fun p hp out hout => ?_) hroom
  have hfits : out.length + p.bytes.length < space := by omega
  exact encode_eq (hps p hp) hfits

theorem foldlM_encode_fillFlight (hmode : extensionMode = !c.clientMode)
    (hout : out.length ≤ 1981) :
    (c.fillFlight extensionMode c.extDataSize out).foldlM (TpParam.encode c.extDataSize) out =
      some (out ++ (c.fillFlight extensionMode c.extDataSize out).flatMap TpParam.bytes) := by
  refine foldlM_encode (fun p hp => (fillFlight_fits hmode hout hp).1) ?_
  have hspace := c.le_extDataSize
  cases hfill : c.fillFlight extensionMode c.extDataSize out with
  | nil =>
    rw [List.flatMap_nil, List.length_nil]
    omega
  | cons p ps =>
    have hps : ps = [] := by
      have hlength : (c.fillFlight extensionMode c.extDataSize out).length ≤ 1 :=
        paramIf_length_le _ _
      rw [hfill, List.length_cons] at hlength
      exact List.eq_nil_of_length_eq_zero (by omega)
    have hp : p ∈ c.fillFlight extensionMode c.extDataSize out := hfill ▸ List.mem_cons_self
    rw [hps, List.flatMap_cons, List.flatMap_nil, List.append_nil]
    exact (fillFlight_fits hmode hout hp).2

/-- **Writing.** There is space for all parameters. -/
theorem prepareTransportExtensions_eq (c : TpCnx) (hmode : extensionMode = !c.clientMode) :
    c.prepareTransportExtensions extensionMode c.extDataSize =
      (c.announceDatagrams,
        some ((c.announceDatagrams.extensionParams extensionMode c.extDataSize).flatMap
          TpParam.bytes)) := by
  rw [← extDataSize_announceDatagrams, prepareTransportExtensions]
  rw [← clientMode_announceDatagrams] at hmode
  generalize c.announceDatagrams = a at hmode ⊢
  have hlength := transportParams_length_le a extensionMode
  have hspace := a.le_extDataSize
  have hparams : (a.transportParams extensionMode).foldlM (encode a.extDataSize) [] =
      some ([] ++ (a.transportParams extensionMode).flatMap bytes) :=
    foldlM_encode (fun p hp => encodable hp) (by rw [List.length_nil]; omega)
  rw [List.nil_append] at hparams
  simp only [hparams, Option.bind_eq_bind, Option.bind_some, foldlM_encode_fillFlight hmode hlength,
    extensionParams, List.flatMap_append]

end TpCnx

end Picoquic
