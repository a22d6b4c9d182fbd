import Picoquic.ForMathlib.Keyed
import Picoquic.Path.RemoteStash

/-!
# References to remote connection identifiers

The last path that lets an identifier go does not take its reference away: the identifier is
retired, and the reference that is left keeps it from being used again.

* **`StashedCnxid.Sound`** — what holds of one record, by the number of paths that use it;
* **`StashCnx.Sound`** — the invariant of a connection;
* **`Sound.of_update`** — the rule for operations that change or delete records;
* **`Sound.dereference`**, **`Sound.reference`** — a path lets an identifier go, and gets one.
-/

namespace Picoquic

open Keyed

/-! ### Users -/

namespace StashCnx

/-- Where the paths point. -/
def targets (c : StashCnx) : List (Option ℕ) := c.paths.map (·.remoteCnxid)

/-- The number of paths that use the record at an address. -/
def users (c : StashCnx) (key : ℕ) : ℕ := c.targets.count (some key)

theorem targets_getElem? (c : StashCnx) (i : ℕ) :
    c.targets[i]? = c.paths[i]?.map (·.remoteCnxid) := List.getElem?_map

theorem targets_point (c : StashCnx) (i : ℕ) (key : Option ℕ) :
    (c.point i key).targets = c.targets.set i key := by
  refine List.ext_getElem? fun j => ?_
  rw [targets_getElem?, point, List.getElem?_modify, List.getElem?_set, targets_getElem?, targets,
    List.length_map]
  split_ifs with hij hlt
  · subst hij
    rw [List.getElem?_eq_getElem hlt]
    rfl
  · subst hij
    rw [List.getElem?_eq_none (not_lt.mp hlt)]
    rfl
  · rcases c.paths[j]? with _ | p <;> rfl

theorem targets_demotePath (c : StashCnx) (i : ℕ) : (c.demotePath i).targets = c.targets := by
  refine List.ext_getElem? fun j => ?_
  rw [targets_getElem?, demotePath, List.getElem?_modify, targets_getElem?]
  split_ifs
  · rcases c.paths[j]? with _ | p <;> rfl
  · rcases c.paths[j]? with _ | p <;> rfl

theorem targets_createPath (c : StashCnx) (isPreferredPath : Bool) :
    (c.createPath isPreferredPath).targets = c.targets ++ [none] := List.map_append

theorem users_congr {c c' : StashCnx} (h : c'.targets = c.targets) (key : ℕ) :
    c'.users key = c.users key := by
  rw [users, users, h]

variable {i key : ℕ}

private theorem users_pos {c : StashCnx} (hi : c.targets[i]? = some (some key)) :
    0 < c.users key := List.count_pos_iff.mpr (List.mem_of_getElem? hi)

private theorem users_point_none {c : StashCnx} (hi : c.targets[i]? = some (some key)) (key' : ℕ) :
    (c.point i none).users key' = c.users key' - if key = key' then 1 else 0 := by
  obtain ⟨hlt, hget⟩ := List.getElem?_eq_some_iff.mp hi
  rw [users, targets_point, List.count_set hlt, hget, users]
  simp

private theorem users_point_some {c : StashCnx} {i : ℕ} (hi : c.targets[i]? = some none)
    (key key' : ℕ) :
    (c.point i (some key)).users key' = c.users key' + if key = key' then 1 else 0 := by
  obtain ⟨hlt, hget⟩ := List.getElem?_eq_some_iff.mp hi
  rw [users, targets_point, List.count_set hlt, hget, users]
  simp

end StashCnx

/-! ### The invariant -/

/-- What holds of a record that `users` paths use, when `retireBefore` is the largest
`retire_prior_to`. -/
structure StashedCnxid.Sound (users retireBefore : ℕ) (e : StashedCnxid) : Prop where
  counts : e.retireSent = false → e.nbPathReferences = users
  /-- A retired identifier is not used, and not available. -/
  retired : e.retireSent = true → 0 < e.cnxId.idLen →
    users = 0 ∧ e.nbPathReferences ≤ 1 ∧ (e.needsRemoval = true ∨ e.nbPathReferences = 1)
  dated : e.isLate = false → e.sequence < retireBefore → e.needsRemoval = true

/-- A record that is changed keeps its identity, and stays retired. -/
structure StashedCnxid.Becomes (e e' : StashedCnxid) : Prop where
  key : e'.key = e.key
  sequence : e'.sequence = e.sequence
  cnxId : e'.cnxId = e.cnxId
  isRepeated : e'.isRepeated = e.isRepeated
  retireSent : e.retireSent = true → e'.retireSent = true

private theorem StashedCnxid.Becomes.refl (e : StashedCnxid) :
    e.Becomes e := ⟨rfl, rfl, rfl, rfl, id⟩

/-- Neither retired nor below `retire_prior_to`. -/
def StashedCnxid.isActive (retireBefore : ℕ) (e : StashedCnxid) : Bool :=
  !(decide (e.sequence < retireBefore) || e.retireSent)

/-- The limit that the peer learns. A limit of zero is not sent, and the peer takes the default. -/
def StashCnx.advertisedLimit (c : StashCnx) : ℕ :=
  if c.activeConnectionIdLimit.val = 0 then nbPathDefault else c.activeConnectionIdLimit

/-- What holds of a record when it is taken for a path: it is not retired, nor was an identifier
with its sequence number, and no `retire_prior_to` is above it. -/
def StashCnx.WellChosen (a : StashedCnxid × ℕ × List ℕ) : Prop :=
  0 < a.1.cnxId.idLen → a.1.retireSent = false ∧ (a.1.isRepeated = false → a.1.sequence ∉ a.2.2) ∧
    (a.1.isLate = false → a.2.1 ≤ a.1.sequence)

/-- **The invariant.** The identifiers are counted for the `retire_prior_to` value `n`, which is the
largest one except while a frame is processed. -/
structure StashCnx.Sound (n : ℕ) (c : StashCnx) : Prop where
  keys : (keys (·.key) c.stash).Nodup
  sequences : (Keyed.keys (·.sequence) c.stash).Nodup
  values : (Keyed.keys (·.cnxId) c.stash).Nodup
  fresh : ∀ e ∈ c.stash, e.key < c.nextKey
  targets : ∀ key, some key ∈ c.targets → key < c.nextKey
  each : ∀ e ∈ c.stash, e.Sound (c.users e.key) c.retireCnxidBefore
  /-- A retired sequence number comes back only with a repeated frame. -/
  unretired : ∀ e ∈ c.stash, e.retireSent = false → e.isRepeated = false → e.sequence ∉ c.retired
  limit : c.stash.countP (·.isActive n) ≤ c.advertisedLimit
  assigned : ∀ a ∈ c.assigned, StashCnx.WellChosen a

namespace StashCnx

variable {n : ℕ} {c c' : StashCnx}

/-- **The rule** for operations that change or delete records. -/
theorem Sound.of_update (h : c.Sound n) {g : StashedCnxid → Option StashedCnxid}
    (hstash : c'.stash.Sublist (c.stash.filterMap g))
    (hbecomes : ∀ e e', g e = some e' → e.Becomes e')
    (hnext : c'.nextKey = c.nextKey)
    (hlimit : c'.activeConnectionIdLimit = c.activeConnectionIdLimit)
    (htargets : ∀ key, some key ∈ c'.targets → some key ∈ c.targets ∨ key < c.nextKey)
    (heach : ∀ e ∈ c.stash, ∀ e', g e = some e' →
      e'.Sound (c'.users e.key) c'.retireCnxidBefore)
    (hretired : ∀ s ∈ c'.retired, s ∈ c.retired ∨
      ∃ e ∈ c.stash, e.sequence = s ∧ ∀ e', g e = some e' → e'.retireSent = true)
    (hassigned : ∀ a ∈ c'.assigned, a ∈ c.assigned ∨ WellChosen a) : c'.Sound n where
  keys := h.keys.sublist ((hstash.map _).trans
    (sublist_keys_filterMap (fun a b hab => (hbecomes a b hab).key) c.stash))
  sequences := h.sequences.sublist ((hstash.map _).trans
    (sublist_keys_filterMap (fun a b hab => (hbecomes a b hab).sequence) c.stash))
  values := h.values.sublist ((hstash.map _).trans
    (sublist_keys_filterMap (fun a b hab => (hbecomes a b hab).cnxId) c.stash))
  fresh e' he' := by
    obtain ⟨e, he, hg⟩ := List.mem_filterMap.mp (hstash.subset he')
    rw [hnext, (hbecomes e e' hg).key]
    exact h.fresh e he
  targets key hkey := by
    rw [hnext]
    exact (htargets key hkey).elim (h.targets key) id
  each e' he' := by
    obtain ⟨e, he, hg⟩ := List.mem_filterMap.mp (hstash.subset he')
    rw [(hbecomes e e' hg).key]
    exact heach e he e' hg
  unretired e' he' hlive hrepeated hmem := by
    obtain ⟨e, he, hg⟩ := List.mem_filterMap.mp (hstash.subset he')
    have hb := hbecomes e e' hg
    rcases hretired _ hmem with hold | ⟨e₀, he₀, hsequence, hsent⟩
    · have hlive' : e.retireSent = false :=
        Bool.eq_false_iff.mpr fun hsent => by simp [hb.retireSent hsent] at hlive
      exact h.unretired e he hlive' (hb.isRepeated ▸ hrepeated) (hb.sequence ▸ hold)
    · -- the sequence number says which record was retired
      obtain rfl := List.inj_on_of_nodup_map h.sequences he₀ he (hsequence.trans hb.sequence)
      simp [hsent e' hg] at hlive
  limit := by
    have hle : (c.stash.filterMap g).countP (·.isActive n) ≤ c.stash.countP (·.isActive n) := by
      refine countP_filterMap_le (fun e e' hg hactive => ?_) c.stash
      have hb := hbecomes e e' hg
      simp only [StashedCnxid.isActive, Bool.not_or, Bool.and_eq_true, Bool.not_eq_true']
        at hactive ⊢
      refine ⟨hb.sequence ▸ hactive.1, ?_⟩
      by_contra hsent
      rw [hb.retireSent (by simpa using hsent)] at hactive
      exact absurd hactive.2 (by simp)
    rw [advertisedLimit, hlimit, ← advertisedLimit]
    exact (hstash.countP_le.trans hle).trans h.limit
  assigned a ha := (hassigned a ha).elim (h.assigned a) id

/-- Records that are deleted. -/
theorem Sound.of_sublist (h : c.Sound n) (hstash : c'.stash.Sublist c.stash)
    (hframe : c' = { c with stash := c'.stash }) : c'.Sound n := by
  rw [hframe]
  refine h.of_update (g := some) ?_ (fun e e' he => ?_) rfl rfl (fun _ => .inl)
    (fun e he e' hg => ?_) (fun _ => .inl) fun _ => .inl
  · rwa [List.filterMap_some]
  · obtain rfl := Option.some.inj he
    exact .refl e
  · obtain rfl := Option.some.inj hg
    exact h.each e he

/-! ### Paths let records go, and get them -/

variable {e e' : StashedCnxid}

/-- The last path retires the record, and its reference stays. -/
theorem release_sound {users retireBefore : ℕ} (h : e.Sound users retireBefore) (husers : 0 < users)
    (he' : release e = some e') : e'.Sound (users - 1) retireBefore := by
  rw [release] at he'
  split_ifs at he' with hlast hacked
  · obtain rfl := Option.some.inj he'
    refine ⟨fun hsent => (by cases hsent), fun _ hlen => ?_, h.dated⟩
    have hlive : e.retireSent = false := by
      by_contra hsent
      have := (h.retired (by simpa using hsent) hlen).1
      omega
    have hcounts := h.counts hlive
    exact ⟨by omega, hlast, .inr (show e.nbPathReferences = 1 by omega)⟩
  · obtain rfl := Option.some.inj he'
    refine ⟨fun hsent => ?_, fun hsent hlen => ?_, h.dated⟩
    · rw [← h.counts hsent]
    · have := (h.retired hsent hlen).1
      omega

private theorem becomes_release (he' : release e = some e') : e.Becomes e' := by
  rw [release] at he'
  split_ifs at he'
  · obtain rfl := Option.some.inj he'
    exact ⟨rfl, rfl, rfl, rfl, fun _ => rfl⟩
  · obtain rfl := Option.some.inj he'
    exact ⟨rfl, rfl, rfl, rfl, id⟩

/-- One record is changed, and one path points elsewhere. -/
theorem Sound.of_updateCnxid (h : c.Sound n) (key : ℕ) (f : StashedCnxid → Option StashedCnxid)
    (hc' : c' = { c with
      stash := (c.updateCnxid key f).stash
      paths := c'.paths
      retired := c'.retired
      assigned := c'.assigned })
    (hbecomes : ∀ e e', f e = some e' → e.Becomes e')
    (htargets : ∀ k, some k ∈ c'.targets → some k ∈ c.targets ∨ k < c.nextKey)
    (husers : ∀ k, k ≠ key → c'.users k = c.users k)
    (heach : ∀ e ∈ c.stash, e.key = key → ∀ e', f e = some e' →
      e'.Sound (c'.users key) c.retireCnxidBefore)
    (hretired : ∀ s ∈ c'.retired, s ∈ c.retired ∨
      ∃ e ∈ c.stash, e.key = key ∧ e.sequence = s ∧ ∀ e', f e = some e' → e'.retireSent = true)
    (hassigned : ∀ a ∈ c'.assigned, a ∈ c.assigned ∨ WellChosen a) : c'.Sound n := by
  have hbefore : c'.retireCnxidBefore = c.retireCnxidBefore := by rw [hc']
  refine h.of_update (g := fun e => if e.key = key then f e else some e)
    (by rw [hc']; exact .refl _) (fun e e' hg => ?_) (by rw [hc']) (by rw [hc']) htargets
    (fun e he e' hg => ?_) (fun s hs => (hretired s hs).imp_right ?_) hassigned
  · split_ifs at hg
    · exact hbecomes e e' hg
    · exact Option.some.inj hg ▸ .refl e
  · rw [hbefore]
    split_ifs at hg with hkey
    · exact hkey ▸ heach e he hkey e' hg
    · obtain rfl := Option.some.inj hg
      rw [husers e.key hkey]
      exact h.each e he
  · rintro ⟨e, he, hkey, hsequence, hsent⟩
    exact ⟨e, he, hsequence, fun e' hg => hsent e' (by rwa [if_pos hkey] at hg)⟩

/-- The last path that lets a record go retires it. -/
theorem retireSent_release (hlast : e.nbPathReferences ≤ 1) (he' : release e = some e') :
    e'.retireSent = true := by
  rw [release, if_pos hlast] at he'
  split_ifs at he'
  exact Option.some.inj he' ▸ rfl

/-- **A path lets its record go.** -/
theorem Sound.dereference (h : c.Sound n) (i : ℕ) : (c.dereferenceStashedCnxid i).Sound n := by
  rw [dereferenceStashedCnxid]
  split
  · exact h
  next key hi =>
  have hi' : c.targets[i]? = some (some key) := by
    obtain ⟨p, hp, hkey⟩ := Option.bind_eq_some_iff.mp hi
    rw [targets_getElem?, hp, Option.map_some, hkey]
  have husers := users_point_none hi'
  refine h.of_updateCnxid key release rfl (fun _ _ => becomes_release)
    (fun k hk => .inl ?_) (fun k hk => ?_) (fun e he hkey e' he' => ?_) (fun s hs => ?_)
    fun _ => .inl
  · rw [targets_point] at hk
    exact (List.mem_or_eq_of_mem_set hk).resolve_right (by simp)
  · exact (husers k).trans (by rw [if_neg hk.symm]; rfl)
  · have hsound := release_sound (hkey ▸ h.each e he) (users_pos hi') he'
    have heq := husers key
    rw [if_pos rfl] at heq
    exact heq ▸ hsound
  · refine (List.mem_append.mp hs).imp_right fun hs => ?_
    obtain ⟨e, he, rfl⟩ := List.mem_map.mp hs
    simp only [List.mem_filter, Bool.and_eq_true, decide_eq_true_eq] at he
    exact ⟨e, he.1, he.2.1.1, rfl, fun _ => retireSent_release he.2.1.2⟩

/-- **A path without record gets one** that is not retired. -/
theorem Sound.reference (h : c.Sound n) (hi : c.targets[i]? = some none) (hkey : key < c.nextKey)
    (hlive : ∀ e ∈ c.stash, e.key = key → 0 < e.cnxId.idLen → e.retireSent = false) :
    (c.reference i key).Sound n := by
  have husers := users_point_some hi key
  refine h.of_updateCnxid key
    (fun e => some { e with nbPathReferences := e.nbPathReferences + 1 }) rfl
    (fun e e' he' => Option.some.inj he' ▸ ⟨rfl, rfl, rfl, rfl, id⟩) (fun k hk => ?_)
    (fun k hk => ?_) (fun e he hek e' he' => ?_) (fun _ => .inl) fun _ => .inl
  · rw [StashCnx.reference, targets_point] at hk
    rcases List.mem_or_eq_of_mem_set hk with hk | hk
    exacts [.inl hk, .inr (Option.some.inj hk ▸ hkey)]
  · exact (husers k).trans (by rw [if_neg hk.symm]; rfl)
  · obtain rfl := Option.some.inj he'
    have hsound := hek ▸ h.each e he
    have heq : (c.reference i key).users key = c.users key + 1 := by
      have := husers key
      rw [if_pos rfl] at this
      exact this
    rw [heq]
    refine ⟨fun hsent => ?_, fun hsent hlen => ?_, hsound.dated⟩
    · rw [← hsound.counts hsent]
    · rw [hlive e he hek hlen] at hsent
      cases hsent

end StashCnx

end Picoquic
