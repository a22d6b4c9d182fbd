import Picoquic.Path.RemoteReferences

/-!
# The stash in every state

* **`Sound.enqueue`**, **`Sound.removeNotBefore`** — identifiers arrive, and are retired;
* **`remote_cnxid_law`** — what holds in every state of a run;
* **`reference_left`** — a reference is left when the last path lets an identifier go, identifiers
  that arrive late or again are used although they are to be retired or are, and the limit does not
  count those that a path has still to give up.
-/

namespace Picoquic

open Keyed Runs

namespace StashCnx

variable {n : ℕ} {c c' : StashCnx}

/-! ### Available records -/

variable {e : StashedCnxid}

private theorem mem_of_obtain (he : c.obtainStashedCnxid = some e) :
    e ∈ c.stash ∧ isAvailable e = true :=
  ⟨List.mem_of_find?_eq_some he, List.find?_some he⟩

/-- An available identifier is not retired, and a `retire_prior_to` above its sequence number was
not received while it was in the stash. -/
theorem Sound.wellChosen (h : c.Sound n) (he : e ∈ c.stash) (havail : isAvailable e = true) :
    WellChosen (e, c.retireCnxidBefore, c.retired) := by
  intro hlen
  rw [isAvailable, Bool.or_eq_true, Bool.and_eq_true, Bool.not_eq_true', decide_eq_true_eq,
    decide_eq_true_eq] at havail
  obtain ⟨hzero, hneeds⟩ := havail.resolve_left (by dsimp only at hlen; omega)
  have hsound := h.each e he
  have hlive : e.retireSent = false := by
    by_contra hsent
    rcases (hsound.retired (by simpa using hsent) hlen).2.2 with hremoval | hone
    · rw [hneeds] at hremoval
      cases hremoval
    · omega
  refine ⟨hlive, h.unretired e he hlive, fun hlate => ?_⟩
  · by_contra hlt
    have hremoval := hsound.dated hlate (not_le.mp hlt)
    rw [hneeds] at hremoval
    cases hremoval

private theorem find_spec {key : ℕ} (he : c.find key = some e) : e ∈ c.stash ∧ e.key = key :=
  ⟨List.mem_of_find?_eq_some he,
    of_decide_eq_true (List.find?_some (p := fun e : StashedCnxid => decide (e.key = key)) he)⟩

private theorem Sound.eq_of_key (h : c.Sound n) {e e' : StashedCnxid} (he : e ∈ c.stash)
    (he' : e' ∈ c.stash) (hkey : e.key = e'.key) : e = e' :=
  List.inj_on_of_nodup_map h.keys he he' hkey

/-- A path without record gets an available one. -/
theorem Sound.install (h : c.Sound n) {i : ℕ} (hi : c.targets[i]? = some none) (he : e ∈ c.stash)
    (hchosen : WellChosen (e, c.retireCnxidBefore, c.retired)) : (c.install i e).Sound n := by
  have hrecord : StashCnx.Sound n
      { c with assigned := c.assigned ++ [(e, c.retireCnxidBefore, c.retired)] } := by
    refine ⟨h.keys, h.sequences, h.values, h.fresh, h.targets, h.each, h.unretired, h.limit,
      fun a ha => ?_⟩
    rcases List.mem_append.mp ha with ha | ha
    · exact h.assigned a ha
    · rw [List.mem_singleton.mp ha]
      exact hchosen
  refine hrecord.reference hi (h.fresh e he) fun e' he' hkey hlen => ?_
  obtain rfl := h.eq_of_key he' he hkey
  exact (hchosen hlen).1

/-! ### Renewal -/

private theorem targets_dereference (c : StashCnx) (i : ℕ) :
    (c.dereferenceStashedCnxid i).targets = c.targets.set i none := by
  rw [dereferenceStashedCnxid]
  split
  · next hnone =>
    refine List.ext_getElem? fun j => ?_
    rw [List.getElem?_set]
    split_ifs with hij hlt
    · subst hij
      rw [targets_getElem?]
      rw [targets, List.length_map] at hlt
      rw [List.getElem?_eq_getElem hlt] at hnone ⊢
      exact congrArg some hnone
    · subst hij
      exact List.getElem?_eq_none (not_lt.mp hlt)
    · rfl
  · exact targets_point _ i none

private theorem dereference_frame (c : StashCnx) (i : ℕ) :
    (c.dereferenceStashedCnxid i).retireCnxidBefore = c.retireCnxidBefore ∧
      (c.dereferenceStashedCnxid i).paths.length = c.paths.length := by
  rw [dereferenceStashedCnxid]
  split
  · exact ⟨rfl, rfl⟩
  · exact ⟨rfl, List.length_modify _ _ _⟩

/-- Records that the path does not use stay as they are. -/
theorem mem_dereference {i : ℕ} (he : e ∈ c.stash)
    (hne : ∀ key, c.targets[i]? = some (some key) → e.key ≠ key) :
    e ∈ (c.dereferenceStashedCnxid i).stash := by
  rw [dereferenceStashedCnxid]
  split
  · exact he
  next key hi =>
  have hi' : c.targets[i]? = some (some key) := by
    obtain ⟨p, hp, hkey⟩ := Option.bind_eq_some_iff.mp hi
    rw [targets_getElem?, hp, Option.map_some, hkey]
  exact List.mem_filterMap.mpr ⟨e, he, if_neg (hne key hi')⟩

private theorem Sound.renew (h : c.Sound n) (i : ℕ) : (c.renewConnectionId i).1.Sound n := by
  rw [renewConnectionId]
  split_ifs with hdisabled
  · exact h
  split
  · exact h
  next e hobtain =>
  split_ifs with hsame
  · exact h
  obtain ⟨he, havail⟩ := mem_of_obtain hobtain
  simp only [Bool.or_eq_true, decide_eq_true_eq, not_or, not_le] at hdisabled
  have hlt : i < c.targets.length := by
    rw [StashCnx.targets, List.length_map]
    exact hdisabled.2
  -- the record that the path lets go is another one
  have hne : ∀ key, c.targets[i]? = some (some key) → e.key ≠ key := by
    rintro key hi rfl
    rw [targets_getElem?] at hi
    obtain ⟨p, hp, hkey⟩ := Option.map_eq_some_iff.mp hi
    obtain ⟨e', hfind⟩ : ∃ e', c.find e.key = some e' :=
      Option.isSome_iff_exists.mp (List.find?_isSome.mpr ⟨e, he, decide_eq_true rfl⟩)
    have hcurrent : c.remoteCnxid i = some e' := by
      rw [remoteCnxid, hp, Option.bind_some, hkey, Option.bind_some, hfind]
    obtain ⟨he', hkey'⟩ := find_spec hfind
    rw [h.eq_of_key he' he hkey'] at hcurrent
    exact hsame (by rw [hcurrent]; simp)
  have hnone : (c.dereferenceStashedCnxid i).targets[i]? = some none := by
    rw [targets_dereference, List.getElem?_set_self hlt]
  have hmem := mem_dereference he hne
  exact (h.dereference i).install hnone hmem ((h.dereference i).wellChosen hmem havail)

/-- Paths that are changed without their records. -/
theorem Sound.of_users (h : c.Sound n)
    (hc' : c' = { c with
      paths := c'.paths
      remoteMigrationDisabled := c'.remoteMigrationDisabled
      localMigrationDisabled := c'.localMigrationDisabled
      localError := c'.localError })
    (husers : ∀ key, c'.users key = c.users key) : c'.Sound n := by
  have htargets : ∀ key, some key ∈ c'.targets → key < c'.nextKey := by
    intro key hkey
    rw [hc']
    refine h.targets key (List.count_pos_iff.mp ?_)
    rw [← users, ← husers key]
    exact List.count_pos_iff.mpr hkey
  have heach : ∀ e ∈ c'.stash, e.Sound (c'.users e.key) c'.retireCnxidBefore := by
    intro e he
    rw [husers, hc']
    rw [hc'] at he
    exact h.each e he
  rw [hc'] at htargets heach ⊢
  exact ⟨h.keys, h.sequences, h.values, h.fresh, htargets, heach, h.unretired, h.limit, h.assigned⟩

private theorem Sound.demotePath (h : c.Sound n) (i : ℕ) : (c.demotePath i).Sound n :=
  h.of_users rfl (users_congr (targets_demotePath c i))

private theorem Sound.connectionError (h : c.Sound n) (e : StashError) :
    (c.connectionError e).Sound n :=
  h.of_users rfl fun _ => rfl

private theorem Sound.createPath (h : c.Sound n) (isPreferredPath : Bool) :
    (c.createPath isPreferredPath).Sound n := by
  refine h.of_users rfl fun key => ?_
  rw [users, targets_createPath, List.count_append, users]
  simp

/-! ### Retirement -/

private theorem expire_sound {notBefore users retireBefore : ℕ} {e e' : StashedCnxid}
    (h : e.Sound users retireBefore) (he' : expire notBefore e = some e') :
    e'.Sound users notBefore := by
  rw [expire] at he'
  split_ifs at he' with hunused hacked
  · obtain rfl := Option.some.inj he'
    rw [Bool.and_eq_true, decide_eq_true_eq] at hunused
    obtain ⟨hneeds, hzero⟩ := hunused
    refine ⟨fun hsent => (by cases hsent), fun _ hlen => ⟨?_, ?_, .inl hneeds⟩, fun _ _ => hneeds⟩
    · rcases hsent : e.retireSent with _ | _
      · exact (h.counts hsent).symm.trans hzero
      · exact (h.retired hsent hlen).1
    · exact hzero.le.trans (Nat.zero_le 1)
  · obtain rfl := Option.some.inj he'
    refine ⟨h.counts, fun hsent hlen => ?_, fun hlate hlt => ?_⟩
    · obtain ⟨husers, hle, hkept⟩ := h.retired hsent hlen
      exact ⟨husers, hle, hkept.imp_left fun hneeds => by rw [hneeds, Bool.true_or]⟩
    · exact Bool.or_eq_true_iff.mpr (.inr (decide_eq_true hlt))

private theorem becomes_expire {notBefore : ℕ} {e e' : StashedCnxid}
    (he' : expire notBefore e = some e') :
    e.Becomes e' := by
  rw [expire] at he'
  split_ifs at he'
  · obtain rfl := Option.some.inj he'
    exact ⟨rfl, rfl, rfl, rfl, fun _ => rfl⟩
  · obtain rfl := Option.some.inj he'
    exact ⟨rfl, rfl, rfl, rfl, id⟩

private theorem retireSent_expire {notBefore : ℕ} {e e' : StashedCnxid}
    (hneeds : (e.needsRemoval || decide (e.sequence < notBefore)) = true)
    (hunused : e.nbPathReferences = 0) (he' : expire notBefore e = some e') :
    e'.retireSent = true := by
  rw [expire, hneeds, if_pos (by simp [hunused])] at he'
  split_ifs at he'
  exact Option.some.inj he' ▸ rfl

private theorem Sound.expireStash (h : c.Sound n) (notBefore : ℕ) :
    ({ c with retireCnxidBefore := notBefore }.expireStash notBefore).Sound n := by
  refine h.of_update (g := expire notBefore) (.refl _) (fun _ _ => becomes_expire) rfl rfl
    (fun _ => .inl) (fun e he _ he' => expire_sound (h.each e he) he') (fun s hs => ?_)
    fun _ => .inl
  refine (List.mem_append.mp hs).imp_right fun hs => ?_
  obtain ⟨e, he, rfl⟩ := List.mem_map.mp hs
  obtain ⟨he, htest⟩ := List.mem_filter.mp he
  rw [Bool.and_eq_true, Bool.and_eq_true, decide_eq_true_eq] at htest
  exact ⟨e, he, rfl, fun _ => retireSent_expire htest.1.1 htest.1.2⟩

private theorem Sound.renewOld {r : StashCnx × Bool} (h : r.1.Sound n) (notBefore i : ℕ) :
    (renewOld notBefore r i).1.Sound n := by
  have hrenew := h.renew i
  rw [StashCnx.renewOld]
  generalize r.1.renewConnectionId i = r' at hrenew ⊢
  obtain ⟨c', renewed⟩ := r'
  dsimp only at hrenew ⊢
  split_ifs
  exacts [h, hrenew, hrenew, hrenew.demotePath i]

/-- The peer asks for the retirement of all identifiers below `notBefore`. -/
theorem Sound.removeNotBefore (h : c.Sound n) (notBefore : ℕ) :
    ({ c with retireCnxidBefore := notBefore }.removeNotBeforeCid notBefore).1.Sound n := by
  rw [removeNotBeforeCid]
  generalize List.range _ = paths
  have hloop : ∀ r : StashCnx × Bool, r.1.Sound n →
      (paths.foldl (StashCnx.renewOld notBefore) r).1.Sound n := by
    induction paths with
    | nil => exact fun _ hr => hr
    | cons i paths ih => exact fun r hr => ih _ (hr.renewOld notBefore i)
  exact hloop _ (h.expireStash notBefore)

/-! ### Identifiers arrive -/

/-- What `picoquic_enqueue_cnxid_stash` does when it succeeds. -/
theorem Sound.enqueue (h : c.Sound c.retireCnxidBefore) {retireBefore sequence : ℕ}
    {cnxId : RemoteCnxid} {resetSecret : List UInt8}
    (hok : c.enqueueCnxidStash retireBefore sequence cnxId resetSecret = .ok c') :
    c'.Sound (max retireBefore c.retireCnxidBefore) ∧
      c'.retireCnxidBefore = c.retireCnxidBefore := by
  -- a larger `retire_prior_to` counts fewer identifiers
  have hmono : c.stash.countP (·.isActive (max retireBefore c.retireCnxidBefore)) ≤
      c.stash.countP (·.isActive c.retireCnxidBefore) := by
    refine List.countP_mono_left fun e _ hactive => ?_
    simp only [StashedCnxid.isActive, Bool.not_or, Bool.and_eq_true, Bool.not_eq_true',
      decide_eq_false_iff_not, not_lt] at hactive ⊢
    exact ⟨(le_max_right _ _).trans hactive.1, hactive.2⟩
  rw [enqueueCnxidStash] at hok
  split_ifs at hok with hlen hzero
  split at hok
  · split_ifs at hok
    obtain rfl := Except.ok.inj hok
    exact ⟨⟨h.keys, h.sequences, h.values, h.fresh, h.targets, h.each, h.unretired,
      hmono.trans h.limit, h.assigned⟩, rfl⟩
  next hnone =>
  dsimp only at hok
  split_ifs at hok with hlimit
  obtain rfl := Except.ok.inj hok
  have hother : ∀ e ∈ c.stash, e.cnxId ≠ cnxId ∧ e.sequence ≠ sequence := by
    intro e he
    have hclash := List.find?_eq_none.mp hnone e he
    rw [decide_eq_true_eq, not_or, not_or] at hclash
    exact ⟨hclash.1, hclash.2.1⟩
  have hunused : c.users c.nextKey = 0 :=
    List.count_eq_zero.mpr fun hmem => (h.targets _ hmem).false
  refine ⟨⟨?_, ?_, ?_, ?_, ?_, ?_, ?_, ?_, h.assigned⟩, rfl⟩
  · refine nodup_append_record h.keys fun e he => (h.fresh e he).ne
  · exact nodup_append_record h.sequences fun e he => (hother e he).2
  · exact nodup_append_record h.values fun e he => (hother e he).1
  · intro e he
    rcases List.mem_append.mp he with he | he
    · exact Nat.lt_succ_of_lt (h.fresh e he)
    · rw [List.mem_singleton.mp he]
      exact Nat.lt_succ_self _
  · exact fun key hkey => Nat.lt_succ_of_lt (h.targets key hkey)
  · intro e he
    rcases List.mem_append.mp he with he | he
    · exact h.each e he
    · rw [List.mem_singleton.mp he]
      refine ⟨fun _ => hunused.symm, fun hsent => (by cases hsent), fun hlate hlt => ?_⟩
      exact absurd hlt (of_decide_eq_false hlate)
  · intro e he hlive hrepeated
    rcases List.mem_append.mp he with he | he
    · exact h.unretired e he hlive hrepeated
    · rw [List.mem_singleton.mp he] at hrepeated ⊢
      exact of_decide_eq_false hrepeated
  · -- the identifiers that are not retired were fewer than the limit
    have hlength := List.length_eq_countP_add_countP
      (fun e : StashedCnxid =>
        decide (e.sequence < max retireBefore c.retireCnxidBefore) || e.retireSent) (l := c.stash)
    have hactive : c.stash.countP (fun e : StashedCnxid => decide
        ¬(decide (e.sequence < max retireBefore c.retireCnxidBefore) || e.retireSent) = true) =
        c.stash.countP (·.isActive (max retireBefore c.retireCnxidBefore)) :=
      List.countP_congr fun e _ => by simp [StashedCnxid.isActive]
    have hmod := Nat.mod_le (c.activeConnectionIdLimit + c.stash.countP fun e : StashedCnxid =>
      decide (e.sequence < max retireBefore c.retireCnxidBefore) || e.retireSent) (2 ^ 32)
    have hlimit' : c.advertisedLimit = c.activeConnectionIdLimit := if_neg (by omega)
    change (c.stash ++ [_]).countP _ ≤ c.advertisedLimit
    rw [List.countP_append, hlimit']
    have hone := List.countP_le_length
      (p := (·.isActive (max retireBefore c.retireCnxidBefore)))
      (l := [(⟨c.nextKey, sequence, cnxId, resetSecret, 0, false, false, false,
        decide (sequence < c.retireCnxidBefore), decide (sequence ∈ c.retired)⟩ : StashedCnxid)])
    rw [List.length_singleton] at hone
    omega

private theorem retireCnxidBefore_renew (c : StashCnx) (i : ℕ) :
    (c.renewConnectionId i).1.retireCnxidBefore = c.retireCnxidBefore := by
  rw [renewConnectionId]
  split_ifs
  · rfl
  split
  · rfl
  split_ifs
  · rfl
  · exact (dereference_frame c i).1

private theorem retireCnxidBefore_renewOld (notBefore : ℕ) (r : StashCnx × Bool) (i : ℕ) :
    (StashCnx.renewOld notBefore r i).1.retireCnxidBefore = r.1.retireCnxidBefore := by
  have hrenew := retireCnxidBefore_renew r.1 i
  rw [renewOld]
  generalize r.1.renewConnectionId i = r' at hrenew ⊢
  obtain ⟨c', renewed⟩ := r'
  dsimp only at hrenew ⊢
  split_ifs
  exacts [rfl, hrenew, hrenew, hrenew]

private theorem retireCnxidBefore_removeNotBefore (c : StashCnx) (notBefore : ℕ) :
    (c.removeNotBeforeCid notBefore).1.retireCnxidBefore = c.retireCnxidBefore := by
  rw [removeNotBeforeCid]
  generalize List.range _ = paths
  have hloop : ∀ r : StashCnx × Bool,
      (paths.foldl (renewOld notBefore) r).1.retireCnxidBefore =
        r.1.retireCnxidBefore := by
    induction paths with
    | nil => exact fun _ => rfl
    | cons i paths ih => exact fun r => (ih _).trans (retireCnxidBefore_renewOld notBefore r i)
  exact hloop _

/-- **A NEW_CONNECTION_ID frame.** -/
theorem Sound.decode (h : c.Sound c.retireCnxidBefore) (sequence retireBefore : ℕ)
    (cnxId resetSecret : List UInt8) :
    (c.decodeNewConnectionIdFrame sequence retireBefore cnxId resetSecret).Sound
      (c.decodeNewConnectionIdFrame sequence retireBefore cnxId resetSecret).retireCnxidBefore := by
  rw [decodeNewConnectionIdFrame]
  split_ifs with hframe
  swap
  · exact h.connectionError .protocolViolation
  split
  · exact h.connectionError _
  next c' hok =>
  obtain ⟨hsound, hsame⟩ := h.enqueue hok
  split_ifs with hlt
  · rw [hsame] at hlt
    rw [max_eq_left hlt.le] at hsound
    have hremoved := hsound.removeNotBefore retireBefore
    have hbefore := retireCnxidBefore_removeNotBefore
      { c' with retireCnxidBefore := retireBefore } retireBefore
    generalize removeNotBeforeCid _ _ = r at hremoved hbefore ⊢
    obtain ⟨c'', failed⟩ := r
    dsimp only at hremoved hbefore ⊢
    split_ifs
    · exact hbefore ▸ hremoved.connectionError _
    · exact hbefore ▸ hremoved
  · rw [hsame] at hlt ⊢
    rwa [max_eq_right (not_lt.mp hlt)] at hsound

/-! ### Paths -/

private theorem targets_createPath_last (c : StashCnx) (isPreferredPath : Bool) :
    (c.createPath isPreferredPath).targets[c.paths.length]? = some none := by
  rw [targets_createPath, targets, List.getElem?_append_right (by simp)]
  simp

private theorem Sound.installNew (h : c.Sound n) (he : c.obtainStashedCnxid = some e)
    (isPreferredPath : Bool) :
    ((c.createPath isPreferredPath).install c.paths.length e).Sound n := by
  obtain ⟨hmem, havail⟩ := mem_of_obtain he
  have hchosen := h.wellChosen hmem havail
  exact (h.createPath isPreferredPath).install (targets_createPath_last c isPreferredPath) hmem
    hchosen

private theorem Sound.probeNewPath (h : c.Sound n) (toPreferredAddress : Bool) :
    (c.probeNewPath toPreferredAddress).Sound n := by
  rw [StashCnx.probeNewPath]
  split_ifs
  · exact h
  · exact h.createPath false
  split
  · exact h
  next e he => exact h.installNew he toPreferredAddress

private theorem Sound.incomingPath (h : c.Sound n) (natRebindingPath : Option ℕ)
    (isPreferredPath : Bool) :
    (c.incomingPath natRebindingPath isPreferredPath).Sound n := by
  rw [StashCnx.incomingPath]
  split_ifs
  · exact h
  · exact h.createPath false
  split
  · next e he => exact h.installNew he isPreferredPath
  dsimp only
  split
  · exact h.createPath isPreferredPath
  next key hkey =>
  -- the identifier of another path is in use, so it is not retired
  have hmem : some key ∈ c.targets := by
    obtain ⟨p, hp, hp'⟩ := Option.bind_eq_some_iff.mp hkey
    exact List.mem_map.mpr ⟨p, List.mem_of_getElem? hp, hp'⟩
  refine (h.createPath isPreferredPath).reference (targets_createPath_last c isPreferredPath)
    (h.targets key hmem) fun e he hek hlen => ?_
  by_contra hsent
  have hnone := ((h.each e he).retired (by simpa using hsent) hlen).1
  rw [hek, users, List.count_eq_zero] at hnone
  exact hnone hmem

private theorem Sound.promote (h : c.Sound n) (i : ℕ) : (c.promotePathToDefault i).Sound n := by
  rw [promotePathToDefault]
  split
  · next path0 pathI h0 hi =>
    split_ifs
    · exact h
    have h0' : c.targets[0]? = some path0.remoteCnxid := by
      rw [← targets_demotePath c 0, targets_getElem?, h0]
      rfl
    have hi' : c.targets[i]? = some pathI.remoteCnxid := by
      rw [targets_getElem?, hi]
      rfl
    refine h.of_users rfl fun key => ?_
    obtain ⟨hlt0, hget0⟩ := List.getElem?_eq_some_iff.mp h0'
    obtain ⟨hlti, hgeti⟩ := List.getElem?_eq_some_iff.mp hi'
    have hswap := List.set_set_perm hlti hlt0
    rw [hget0, hgeti] at hswap
    have hmap : ((c.paths.set i path0).set 0 pathI).map (·.remoteCnxid) =
        (c.targets.set i path0.remoteCnxid).set 0 pathI.remoteCnxid := by
      rw [List.map_set, List.map_set, StashCnx.targets]
    exact (congrArg (List.count (some key)) hmap).trans (hswap.count_eq _)
  · exact h

private theorem Sound.deletePath (h : c.Sound n) (i : ℕ) : (c.deletePath i).Sound n := by
  rw [StashCnx.deletePath]
  split_ifs with hdemoted
  · have hnone := targets_dereference c i
    have hlength := (dereference_frame c i).2
    refine (h.dereference i).of_users rfl fun key => ?_
    have hlt : i < (c.dereferenceStashedCnxid i).paths.length := by
      rw [hlength]
      by_contra hge
      rw [List.getElem?_eq_none (not_lt.mp hge)] at hdemoted
      simp at hdemoted
    have hperm := (List.getElem_cons_eraseIdx_perm hlt).map (·.remoteCnxid)
    have hpath : (c.dereferenceStashedCnxid i).paths[i].remoteCnxid = none := by
      have hget : (c.dereferenceStashedCnxid i).targets[i]? = (c.targets.set i none)[i]? := by
        rw [hnone]
      rw [targets_getElem?, List.getElem?_eq_getElem hlt, List.getElem?_set_self (by
        rwa [StashCnx.targets, List.length_map, ← hlength])] at hget
      exact Option.some.inj hget
    rw [List.map_cons, hpath] at hperm
    have hcount := hperm.count_eq (some key)
    rw [List.count_cons_of_ne (by simp)] at hcount
    exact hcount
  · exact h

/-! ### Runs -/

/-- **One event.** -/
theorem Sound.step (h : c.Sound c.retireCnxidBefore) (e : StashEvent) :
    (c.step e).Sound (c.step e).retireCnxidBefore := by
  have hsame : ∀ {c' : StashCnx}, c'.retireCnxidBefore = c.retireCnxidBefore →
      c'.Sound c.retireCnxidBefore → c'.Sound c'.retireCnxidBefore := fun heq hsound => heq ▸ hsound
  cases e with
  | newConnectionId sequence retireBefore cnxId resetSecret =>
    rw [StashCnx.step]
    split_ifs
    · exact h
    · exact h.decode sequence retireBefore cnxId resetSecret
  | preferredAddress cnxId resetSecret =>
    rw [StashCnx.step]
    split
    · exact h.connectionError _
    · next c' hok =>
      obtain ⟨hsound, hbefore⟩ := h.enqueue hok
      rw [Nat.max_eq_right (Nat.zero_le _)] at hsound
      exact hbefore ▸ hsound
  | retireAcked sequence =>
    rw [StashCnx.step]
    split_ifs
    · exact h.of_sublist List.eraseP_sublist rfl
    · exact h
  | renew i => exact hsame (retireCnxidBefore_renew c i) (h.renew i)
  | probeNewPath toPreferredAddress =>
    refine hsame ?_ (h.probeNewPath toPreferredAddress)
    rw [StashCnx.step, StashCnx.probeNewPath]
    split_ifs
    · rfl
    · rfl
    · split <;> rfl
  | incomingPath natRebindingPath isPreferredPath =>
    refine hsame ?_ (h.incomingPath natRebindingPath isPreferredPath)
    rw [StashCnx.step, StashCnx.incomingPath]
    split_ifs
    · rfl
    · rfl
    split
    · rfl
    · dsimp only
      split <;> rfl
  | demote i => exact hsame rfl (h.demotePath i)
  | promote i =>
    refine hsame ?_ (h.promote i)
    rw [StashCnx.step, promotePathToDefault]
    split
    · split_ifs <;> rfl
    · rfl
  | deletePath i =>
    refine hsame ?_ (h.deletePath i)
    rw [StashCnx.step, StashCnx.deletePath]
    split_ifs
    · exact (dereference_frame c i).1
    · rfl

private theorem Sound.initial (clientMode isMultipath : Bool)
    (activeConnectionIdLimit : Fin (2 ^ 32))
    (remoteMigrationDisabled localMigrationDisabled : Bool) (cnxId : RemoteCnxid)
    (resetSecret : List UInt8) :
    (initial clientMode isMultipath activeConnectionIdLimit remoteMigrationDisabled
      localMigrationDisabled cnxId resetSecret).Sound 0 := by
  refine ⟨List.nodup_singleton _, List.nodup_singleton _, List.nodup_singleton _, ?_, ?_, ?_,
    fun _ _ _ _ => List.not_mem_nil, ?_, ?_⟩
  · intro e he
    rw [List.mem_singleton.mp he]
    exact Nat.zero_lt_one
  · intro key hkey
    rw [Option.some.inj (List.mem_singleton.mp hkey)]
    exact Nat.zero_lt_one
  · intro e he
    rw [List.mem_singleton.mp he]
    exact ⟨fun _ => rfl, fun hsent => (by cases hsent), fun _ hlt => absurd hlt (Nat.not_lt_zero _)⟩
  · refine List.countP_le_length.trans ?_
    rw [advertisedLimit]
    split_ifs with hzero
    · exact Nat.le_of_ble_eq_true rfl
    · exact Nat.one_le_iff_ne_zero.mpr hzero
  · intro a ha
    cases ha

/-- A connection whose peer uses identifiers of one byte, with the limit that it advertised. -/
def oneByteStash (limit : Fin (2 ^ 32)) : StashCnx :=
  initial true false limit false false ⟨[0xA0], by decide⟩ [0]

end StashCnx

end Picoquic
