import Picoquic.Transport.Extension

/-!
# The loop over the transport parameters

What the loop does to the parameters of the peer is known from the fields. Here is what it does to
the rest of the connection, when the types of the parameters are different: each parameter is
accepted or not by itself, since none that came before it changes what it is checked against.

* **`TpReceive.Accepts`** — what a parameter has to be like;
* **`TpReceive.Noted`** — what some parameters do to the state of the loop;
* **`TpReceive.receiveAll_ok`** — parameters that are accepted are received;
* **`TpReceive.upgrades_of_receiveAll`** — a version negotiation that is received is accepted.
-/

namespace Picoquic

theorem bind_eq_ok_iff {ε α β : Type} {x : Except ε α} {f : α → Except ε β} {b : β} :
    x.bind f = .ok b ↔ ∃ a, x = .ok a ∧ f a = .ok b := by
  cases x with
  | error e => exact iff_of_false nofun fun ⟨_, h, _⟩ => nomatch h
  | ok a => exact ⟨fun h => ⟨a, rfl, h⟩, fun ⟨_, h, hf⟩ => by rwa [Except.ok.inj h]⟩

theorem map_eq_ok_iff {ε α β : Type} {x : Except ε α} {f : α → β} {b : β} :
    x.map f = .ok b ↔ ∃ a, x = .ok a ∧ f a = b := by
  cases x with
  | error e => exact iff_of_false nofun fun ⟨_, h, _⟩ => nomatch h
  | ok a => exact ⟨fun h => ⟨a, rfl, Except.ok.inj h⟩, fun ⟨_, h, hf⟩ => by rw [h, ← hf]; rfl⟩

namespace TpReceive

variable {extensionMode : Bool} {s s' s'' : TpReceive} {tpType : ℕ} {value : List UInt8}

/-! ### One parameter -/

/-- The versions of the peer are acceptable to a connection. -/
def Upgrades (extensionMode : Bool) (c : TpCnx) (value : List UInt8) : Prop :=
  ∃ negotiated, processTpVersionNegotiation value extensionMode c.version = .ok negotiated ∧
    versionUpgradeSupported c.versionIndex (negotiated.getD c.versionIndex) = true

/-- A parameter is acceptable to a connection, apart from the parameters of the peer. -/
structure Accepts (extensionMode : Bool) (c : TpCnx) (tpType : ℕ) (value : List UInt8) : Prop where
  token : tpType = tpStatelessResetToken → extensionMode = true ∧ value.length = resetSecretSize
  cid : tpType ∈ cidTypes → value.length ≤ 20
  handshake : tpType = tpHandshakeConnectionId → value = c.remoteCnxid.val
  versions : tpType = tpVersionNegotiation → Upgrades extensionMode c value

/-- The identifiers that a connection compares with those of the peer. -/
structure SameCnxids (c c' : TpCnx) : Prop where
  remote : c'.remoteCnxid = c.remoteCnxid
  initial : c'.initialCnxid = c.initialCnxid
  original : c'.originalCnxid = c.originalCnxid

/-- What a parameter does to the state of the loop, in `noteParam`. -/
structure NotedOne (tpType : ℕ) (value : List UInt8) (s s' : TpReceive) : Prop where
  remoteParameters : s'.cnx.remoteParameters = s.cnx.remoteParameters
  present : s'.present = s.present
  original : s'.originalConnectionId =
    if tpType = tpOriginalConnectionId then value else s.originalConnectionId
  retry : s'.retryConnectionId =
    if tpType = tpRetryConnectionId then value else s.retryConnectionId
  cnxids : SameCnxids s.cnx s'.cnx
  versionIndex : tpType ≠ tpVersionNegotiation → s'.cnx.versionIndex = s.cnx.versionIndex

theorem tpCid_of_le (h : value.length ≤ 20) : tpCid value = .ok value := by
  have hlen : value.length % 2 ^ 8 = value.length := Nat.mod_eq_of_lt (by omega)
  have hid : (if value.length ≤ 20 then value.take value.length else []) = value := by
    rw [if_pos h, List.take_length]
  simp only [tpCid, hlen, hid]
  exact if_neg (not_not.mpr rfl)

theorem noteParam_ok (h : Accepts extensionMode s.cnx tpType value) :
    ∃ s', noteParam extensionMode s tpType value = .ok s' ∧ NotedOne tpType value s s' := by
  have hsame : SameCnxids s.cnx s.cnx := ⟨rfl, rfl, rfl⟩
  unfold noteParam
  split
  · exact ⟨_, rfl, rfl, rfl, rfl, rfl, ⟨rfl, rfl, rfl⟩, fun _ => rfl⟩
  · exact ⟨_, rfl, rfl, rfl, rfl, rfl, ⟨rfl, rfl, rfl⟩, fun _ => rfl⟩
  · exact ⟨_, rfl, rfl, rfl, rfl, rfl, ⟨rfl, rfl, rfl⟩, fun _ => rfl⟩
  · obtain ⟨hmode, hlength⟩ := h.token rfl
    rw [hmode, if_neg (by decide), if_neg (not_not.mpr hlength)]
    exact ⟨_, rfl, rfl, rfl, rfl, rfl, ⟨rfl, rfl, rfl⟩, fun _ => rfl⟩
  · rw [tpCid_of_le (h.cid (by decide))]
    exact ⟨_, rfl, rfl, rfl, rfl, rfl, ⟨rfl, rfl, rfl⟩, fun _ => rfl⟩
  · rw [tpCid_of_le (h.cid (by decide))]
    exact ⟨_, rfl, rfl, rfl, rfl, rfl, ⟨rfl, rfl, rfl⟩, fun _ => rfl⟩
  · refine ⟨{ s with cnx := { s.cnx with isHcidVerified := true } }, ?_, rfl, rfl, rfl, rfl,
      ⟨rfl, rfl, rfl⟩, fun _ => rfl⟩
    rw [tpCid_of_le (h.cid (by decide))]
    exact if_neg (not_not.mpr (h.handshake rfl).symm)
  · by_cases hlocal : 0 < s.cnx.localParameters.minAckDelay
    · exact ⟨_, if_pos hlocal, rfl, rfl, rfl, rfl, ⟨rfl, rfl, rfl⟩, fun _ => rfl⟩
    · exact ⟨s, if_neg hlocal, rfl, rfl, rfl, rfl, hsame, fun _ => rfl⟩
  · obtain ⟨negotiated, hprocess, hupgrade⟩ := h.versions rfl
    refine ⟨{ s with cnx := { s.cnx with
        doVersionNegotiation := true
        versionIndex := negotiated.getD s.cnx.versionIndex } }, ?_, rfl, rfl, rfl, rfl,
      ⟨rfl, rfl, rfl⟩, fun hne => absurd rfl hne⟩
    change (processTpVersionNegotiation value extensionMode s.cnx.version).bind _ = _
    rw [hprocess]
    exact if_pos hupgrade
  next _ _ _ _ horiginal hretry _ _ _ =>
    exact ⟨s, rfl, rfl, rfl, (if_neg horiginal).symm, (if_neg hretry).symm, hsame, fun _ => rfl⟩

/-- Only version negotiation changes the version. -/
theorem versionIndex_of_noteParam (h : noteParam extensionMode s tpType value = .ok s')
    (htype : tpType ≠ tpVersionNegotiation) : s'.cnx.versionIndex = s.cnx.versionIndex := by
  unfold noteParam at h
  split at h
  · exact Except.ok.inj h ▸ rfl
  · exact Except.ok.inj h ▸ rfl
  · exact Except.ok.inj h ▸ rfl
  · dsimp only at h
    split_ifs at h
    exact Except.ok.inj h ▸ rfl
  · obtain ⟨id, -, rfl⟩ := map_eq_ok_iff.mp h
    rfl
  · obtain ⟨id, -, rfl⟩ := map_eq_ok_iff.mp h
    rfl
  · obtain ⟨id, -, h⟩ := bind_eq_ok_iff.mp h
    split_ifs at h
    exact Except.ok.inj h ▸ rfl
  · dsimp only at h
    split_ifs at h
    · exact Except.ok.inj h ▸ rfl
    · exact Except.ok.inj h ▸ rfl
  · exact absurd rfl htype
  · exact Except.ok.inj h ▸ rfl

theorem upgrades_of_noteParam
    (h : noteParam extensionMode s tpVersionNegotiation value = .ok s') :
    Upgrades extensionMode s.cnx value := by
  obtain ⟨negotiated, hprocess, h⟩ := bind_eq_ok_iff.mp h
  refine ⟨negotiated, hprocess, ?_⟩
  dsimp only at h
  split_ifs at h with hupgrade
  exact hupgrade

theorem Accepts.congr {c c' : TpCnx} (h : Accepts extensionMode c tpType value)
    (hremote : c'.remoteCnxid = c.remoteCnxid)
    (hversion : tpType = tpVersionNegotiation → c'.versionIndex = c.versionIndex) :
    Accepts extensionMode c' tpType value := by
  refine ⟨h.token, h.cid, fun htype => hremote ▸ h.handshake htype, fun htype => ?_⟩
  have hupgrades := h.versions htype
  rwa [Upgrades, TpCnx.version, ← hversion htype] at hupgrades

/-- The state after `setTransportParam`, with the type among those that were found. -/
def stored (s : TpReceive) (tpType : ℕ) (r : Tp) : TpReceive :=
  { s with
    cnx := { s.cnx with remoteParameters := r }
    present := if tpType < 64 then tpType :: s.present else s.present }

/-- What a parameter does to the state of the loop. -/
theorem receiveParam_ok {r : Tp} (hpresent : tpType ∉ s.present)
    (haccepts : Accepts extensionMode s.cnx tpType value)
    (hset : setTransportParam extensionMode s.cnx.remoteParameters tpType value = .ok r) :
    ∃ s', receiveParam extensionMode s tpType value = .ok s' ∧
      s'.cnx.remoteParameters = r ∧ NotedOne tpType value (s.stored tpType r) s' := by
  obtain ⟨s', hs', hnoted⟩ := noteParam_ok (s := s.stored tpType r)
    (haccepts.congr rfl fun _ => rfl)
  refine ⟨s', ?_, hnoted.remoteParameters, hnoted⟩
  rw [receiveParam, if_neg fun h => hpresent h.2.1, hset]
  exact hs'

theorem noteParam_of_receiveParam (h : receiveParam extensionMode s tpType value = .ok s') :
    ∃ s₁ : TpReceive, s₁.cnx.versionIndex = s.cnx.versionIndex ∧
      noteParam extensionMode s₁ tpType value = .ok s' := by
  rw [receiveParam] at h
  by_cases htwice : tpType < 64 ∧ tpType ∈ s.present ∧ tpType ∉ cidTypes
  · rw [if_pos htwice] at h
    exact nomatch h
  · rw [if_neg htwice] at h
    obtain ⟨r, -, h⟩ := bind_eq_ok_iff.mp h
    exact ⟨s.stored tpType r, rfl, h⟩

/-! ### All parameters -/

/-- What some parameters do to the state of the loop. -/
structure Noted (ps : List TpParam) (s s' : TpReceive) : Prop where
  present : ∀ t, t ∈ s'.present ↔ t ∈ s.present ∨ t < 64 ∧ ∃ p ∈ ps, p.tpType = t
  original : ∀ v, (∀ p ∈ ps, p.tpType = tpOriginalConnectionId → p.value = v) →
    (s.originalConnectionId = v ∨ ∃ p ∈ ps, p.tpType = tpOriginalConnectionId) →
    s'.originalConnectionId = v
  retry : ∀ v, (∀ p ∈ ps, p.tpType = tpRetryConnectionId → p.value = v) →
    (s.retryConnectionId = v ∨ ∃ p ∈ ps, p.tpType = tpRetryConnectionId) →
    s'.retryConnectionId = v
  cnxids : SameCnxids s.cnx s'.cnx

theorem SameCnxids.trans {c c' c'' : TpCnx} (h : SameCnxids c c') (h' : SameCnxids c' c'') :
    SameCnxids c c'' :=
  ⟨h'.remote.trans h.remote, h'.initial.trans h.initial, h'.original.trans h.original⟩

theorem Noted.nil (s : TpReceive) : Noted [] s s := by
  refine ⟨fun t => ?_, fun v _ h => ?_, fun v _ h => ?_, ⟨rfl, rfl, rfl⟩⟩
  · exact (or_iff_left fun h => absurd h.2 (by rintro ⟨p, hp, -⟩; exact List.not_mem_nil hp)).symm
  · exact h.resolve_right fun ⟨p, hp, _⟩ => List.not_mem_nil hp
  · exact h.resolve_right fun ⟨p, hp, _⟩ => List.not_mem_nil hp

variable {ps : List TpParam}

variable {p : TpParam}

/-- The last value with a type, after one more parameter. -/
theorem last_value_cons {t : ℕ} {v id id' : List UInt8}
    (hid : id' = if p.tpType = t then p.value else id)
    (hall : ∀ q ∈ p :: ps, q.tpType = t → q.value = v)
    (hex : id = v ∨ ∃ q ∈ p :: ps, q.tpType = t) : id' = v ∨ ∃ q ∈ ps, q.tpType = t := by
  by_cases hp : p.tpType = t
  · exact Or.inl (by rw [hid, if_pos hp, hall p List.mem_cons_self hp])
  · rw [if_neg hp] at hid
    obtain h | ⟨q, hq, ht⟩ := hex
    · exact Or.inl (hid.trans h)
    · obtain rfl | hq := List.mem_cons.mp hq
      · exact absurd ht hp
      · exact Or.inr ⟨q, hq, ht⟩

theorem Noted.cons {r : Tp} (hone : NotedOne p.tpType p.value (s.stored p.tpType r) s')
    (hps : Noted ps s' s'') : Noted (p :: ps) s s'' := by
  refine ⟨fun t => ?_, fun v hall hex => ?_, fun v hall hex => ?_, ?_⟩
  · rw [hps.present, hone.present, stored]
    simp only [List.exists_mem_cons_iff]
    split_ifs with h64
    · rw [List.mem_cons]
      constructor
      · rintro ((rfl | h) | ⟨hlt, h⟩)
        · exact Or.inr ⟨h64, Or.inl rfl⟩
        · exact Or.inl h
        · exact Or.inr ⟨hlt, Or.inr h⟩
      · rintro (h | ⟨hlt, rfl | h⟩)
        · exact Or.inl (Or.inr h)
        · exact Or.inl (Or.inl rfl)
        · exact Or.inr ⟨hlt, h⟩
    · constructor
      · rintro (h | ⟨hlt, h⟩)
        · exact Or.inl h
        · exact Or.inr ⟨hlt, Or.inr h⟩
      · rintro (h | ⟨hlt, rfl | h⟩)
        · exact Or.inl h
        · exact absurd hlt h64
        · exact Or.inr ⟨hlt, h⟩
  · exact hps.original v (fun q hq => hall q (List.mem_cons_of_mem p hq))
      (last_value_cons hone.original hall hex)
  · exact hps.retry v (fun q hq => hall q (List.mem_cons_of_mem p hq))
      (last_value_cons hone.retry hall hex)
  · exact SameCnxids.trans ⟨hone.cnxids.remote, hone.cnxids.initial, hone.cnxids.original⟩
      hps.cnxids

/-- The types are different, but for the one that is for tests. -/
def Distinct (ps : List TpParam) : Prop :=
  ps.Pairwise fun p q => p.tpType = q.tpType → p.tpType = tpTestLargeChello

/-- **Receiving.** Parameters that are accepted are received, and set the parameters of the
peer. -/
theorem receiveAll_ok {r : Tp} (hdistinct : Distinct ps) (hpresent : ∀ p ∈ ps, p.tpType ∉ s.present)
    (haccepts : ∀ p ∈ ps, Accepts extensionMode s.cnx p.tpType p.value)
    (hset : setParams extensionMode s.cnx.remoteParameters ps = .ok r) :
    ∃ s', receiveAll extensionMode s ps = .ok s' ∧ s'.cnx.remoteParameters = r ∧
      Noted ps s s' := by
  induction ps generalizing s with
  | nil => exact ⟨s, rfl, Except.ok.inj hset, Noted.nil s⟩
  | cons p ps ih =>
    obtain ⟨hp, hps⟩ := List.pairwise_cons.mp hdistinct
    obtain ⟨r₁, hr₁, hset⟩ := bind_eq_ok_iff.mp hset
    obtain ⟨s₁, hs₁, hremote, hone⟩ := receiveParam_ok (hpresent p List.mem_cons_self)
      (haccepts p List.mem_cons_self) hr₁
    -- what comes later is accepted as before
    have haccepts₁ (q : TpParam) (hq : q ∈ ps) : Accepts extensionMode s₁.cnx q.tpType q.value := by
      refine (haccepts q (List.mem_cons_of_mem p hq)).congr hone.cnxids.remote fun hversion => ?_
      refine hone.versionIndex fun hp' => ?_
      exact absurd ((hp q hq (hp'.trans hversion.symm)).symm.trans hp') (by decide)
    have hpresent₁ (q : TpParam) (hq : q ∈ ps) : q.tpType ∉ s₁.present := by
      rw [hone.present, stored]
      have hq' := hpresent q (List.mem_cons_of_mem p hq)
      split_ifs with h64
      · rw [List.mem_cons, not_or]
        refine ⟨fun heq => ?_, hq'⟩
        rw [hp q hq heq.symm] at h64
        exact absurd h64 (by decide)
      · exact hq'
    obtain ⟨s', hs', hr, hnoted⟩ := ih hps hpresent₁ haccepts₁ (hremote ▸ hset)
    refine ⟨s', ?_, hr, Noted.cons hone hnoted⟩
    rw [receiveAll, List.foldlM_cons, hs₁]
    exact hs'

/-- A version negotiation that is received is accepted. -/
theorem upgrades_of_receiveAll (hdistinct : Distinct ps)
    (h : receiveAll extensionMode s ps = .ok s') (hp : p ∈ ps)
    (htype : p.tpType = tpVersionNegotiation) : Upgrades extensionMode s.cnx p.value := by
  induction ps generalizing s with
  | nil => exact absurd hp List.not_mem_nil
  | cons q ps ih =>
    obtain ⟨hq, hps⟩ := List.pairwise_cons.mp hdistinct
    obtain ⟨s₁, hs₁, h⟩ := bind_eq_ok_iff.mp h
    obtain ⟨s₀, hversion, hnote⟩ := noteParam_of_receiveParam hs₁
    obtain rfl | hp := List.mem_cons.mp hp
    · rw [htype] at hnote
      have hupgrades := upgrades_of_noteParam hnote
      rwa [Upgrades, TpCnx.version, hversion] at hupgrades
    · have hne : q.tpType ≠ tpVersionNegotiation := by
        intro heq
        exact absurd ((hq p hp (heq.trans htype.symm)).symm.trans heq) (by decide)
      have hsame := (versionIndex_of_noteParam hnote hne).trans hversion
      have hupgrades := ih hps h hp
      rwa [Upgrades, TpCnx.version, hsame] at hupgrades

end TpReceive

end Picoquic
