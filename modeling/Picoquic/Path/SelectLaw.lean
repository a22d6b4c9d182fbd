import Picoquic.Path.SelectNext

/-!
# Which paths are selected

The selection should return a path that exists, no path that is demoted or failed as long as another
one is neither, and leave at most one path for acknowledgements.

* **`ScanInv`** — what the variables of the loop have to do with the paths that it has seen;
* **`scanLoop_spec`** — what the loop leaves;
* **`selectLaw_iff`** — exactly when the selection does what it should.

The path to fall back on is returned without a look at its state, and the loop that clears the marks
behind the first one supposes that the first one went upwards.
-/

namespace Picoquic

open SelectCnx

/-! ### What a path is like -/

/-- A path that is demoted or failed. -/
def MpPath.Bad (p : MpPath) : Prop := p.isDemoted = true ∨ p.challengeFailed = true

/-- A path that data may go on. -/
def MpPath.Eligible (p : MpPath) : Prop := ¬ p.Bad ∧ p.challengeVerified = true

/-- A path that has to send a response, a challenge or a probe. -/
def MpPath.Urgent (p : MpPath) (isReady : Bool) (currentTime : ℕ) : Prop :=
  ¬ p.Bad ∧ (p.responseRequired = true ∨
    if p.challengeRequired = true ∧ ¬ p.challengeVerified = true then
      p.challengeRepeatCount = 0 ∨ p.nextChallengeTime ≤ currentTime
    else p.challengeVerified = true ∧ 0 < (p.nbRetransmit : ℕ) ∧ isReady = true ∧
      p.bytesInTransit = 0)

/-- Pacing authorizes the path, and it was used before the end of time; that does not matter with
Tonopah. -/
def MpPath.MaySend (p : MpPath) (isTonopah : Bool) (currentTime : ℕ) : Prop :=
  (p.pacing.updateBucket currentTime).holdsPacket = true ∧
    (isTonopah = true ∨ (p.lastSentTime : ℕ) < uint64Max)

/-- A path of a higher priority, or with fewer retransmissions. -/
def MpPath.Precedes (q p : MpPath) : Prop :=
  p.pathPriority < q.pathPriority ∨
    q.pathPriority = p.pathPriority ∧ (q.nbRetransmit : ℕ) < p.nbRetransmit

instance (p : MpPath) : Decidable p.Bad := inferInstanceAs (Decidable (_ ∨ _))

instance (p : MpPath) : Decidable p.Eligible := inferInstanceAs (Decidable (_ ∧ _))

instance (p : MpPath) (isReady : Bool) (currentTime : ℕ) :
    Decidable (p.Urgent isReady currentTime) := inferInstanceAs (Decidable (_ ∧ _))

/-! ### One path -/

section SetPath

variable (c : SelectCnx) {i j : ℕ} (f : MpPath → MpPath)

@[simp]
private theorem paths_setPath_self :
    (c.setPath i f).paths i = f (c.paths i) := Function.update_self ..

private theorem paths_setPath_of_ne (h : j ≠ i) : (c.setPath i f).paths j = c.paths j :=
  Function.update_of_ne h ..

end SetPath

/-- A change of one path, which keeps its mark. -/
structure OnlyPath (i : ℕ) (c c' : SelectCnx) : Prop where
  nbPaths : c'.nbPaths = c.nbPaths
  isTonopah : c'.isTonopah = c.isTonopah
  isReady : c'.isReady = c.isReady
  others : ∀ j, j ≠ i → c'.paths j = c.paths j
  mark : (c'.paths i).isNominalAckPath = (c.paths i).isNominalAckPath

namespace OnlyPath

variable {i : ℕ} {c c' c'' : SelectCnx}

private theorem refl : OnlyPath i c c := ⟨rfl, rfl, rfl, fun _ _ => rfl, rfl⟩

private theorem trans (h : OnlyPath i c c') (h' : OnlyPath i c' c'') : OnlyPath i c c'' where
  nbPaths := h'.nbPaths.trans h.nbPaths
  isTonopah := h'.isTonopah.trans h.isTonopah
  isReady := h'.isReady.trans h.isReady
  others j hj := (h'.others j hj).trans (h.others j hj)
  mark := h'.mark.trans h.mark

private theorem setPath {f : MpPath → MpPath}
    (hf : ∀ p, (f p).isNominalAckPath = p.isNominalAckPath) :
    OnlyPath i c (c.setPath i f) where
  nbPaths := rfl
  isTonopah := rfl
  isReady := rfl
  others _ hj := paths_setPath_of_ne c f hj
  mark := by rw [paths_setPath_self, hf]

private theorem demotePath (currentTime : ℕ) : OnlyPath i c (c.demotePath i currentTime) := by
  obtain ⟨hnb, htonopah, hready, hothers, hmark⟩ :=
    setPath (c := c) (i := i) (f := fun p => { p with toDemotion := p.demote currentTime })
      fun _ => rfl
  exact ⟨hnb, htonopah, hready, hothers, hmark⟩

private theorem pollPath (currentTime : ℕ) (s : SelectScan) :
    OnlyPath i c (c.pollPath currentTime s i).1 :=
  setPath (f := fun p => p.poll _ _ _) fun _ => rfl

private theorem scanVerified (currentTime : ℕ) (s : SelectScan) :
    OnlyPath i c (c.scanVerified currentTime s i).1 := by
  have hinit : OnlyPath i c (c.setPath i MpPath.algInit) := setPath fun p => by
    rw [MpPath.algInit]
    split_ifs <;> rfl
  simp only [SelectCnx.scanVerified]
  split_ifs with hnew hsame
  · exact hinit.trans (pollPath _ _)
  · exact hinit.trans (pollPath _ _)
  · exact hinit

end OnlyPath

private theorem onlyPath_scanPath (c : SelectCnx) (currentTime : ℕ) (s : SelectScan) (i : ℕ) :
    OnlyPath i (c.setPath i (·.mark false)) (c.scanPath currentTime s i).1 := by
  rw [SelectCnx.scanPath]
  dsimp only
  split
  · exact .refl
  · exact .demotePath currentTime
  · dsimp only
    exact .setPath fun _ => rfl
  · dsimp only
    exact .setPath fun _ => rfl
  · exact .refl
  · dsimp only
    exact .setPath fun _ => rfl
  · exact .scanVerified currentTime s

/-- The branches, by what the path is like. -/
theorem scanAction_cases (p : MpPath) (isReady : Bool) (currentTime : ℕ) :
    p.Urgent isReady currentTime ∧ (p.scanAction isReady currentTime = .respond ∨
      p.scanAction isReady currentTime = .challenge ∨ p.scanAction isReady currentTime = .probe) ∨
    ¬ p.Urgent isReady currentTime ∧ ¬ p.Eligible ∧ (p.scanAction isReady currentTime = .skip ∨
      p.scanAction isReady currentTime = .demote ∨
      ∃ t, p.scanAction isReady currentTime = .wait t) ∨
    ¬ p.Urgent isReady currentTime ∧ p.Eligible ∧ p.scanAction isReady currentTime = .poll := by
  simp only [MpPath.scanAction, MpPath.Urgent, MpPath.Eligible, MpPath.Bad]
  split_ifs <;> simp_all

/-- The loop ends at a path that has to send something, passes over one that data may not go on, and
weighs the others. -/
theorem snd_scanPath (c : SelectCnx) (currentTime : ℕ) (s : SelectScan) (i : ℕ) :
    (c.paths i).Urgent c.isReady currentTime ∧ (c.scanPath currentTime s i).2 = none ∨
    ¬ (c.paths i).Urgent c.isReady currentTime ∧ ¬ (c.paths i).Eligible ∧
      (∃ t, (c.scanPath currentTime s i).2 = some { s with challengeTimeNext := t }) ∨
    ¬ (c.paths i).Urgent c.isReady currentTime ∧ (c.paths i).Eligible ∧
      (c.scanPath currentTime s i).2 =
        some ((c.setPath i (·.mark false)).scanVerified currentTime s i).2 := by
  have haction : ((c.setPath i (·.mark false)).paths i).scanAction c.isReady currentTime =
      (c.paths i).scanAction c.isReady currentTime := by
    rw [paths_setPath_self]
    rfl
  have hready : (c.setPath i (·.mark false)).isReady = c.isReady := rfl
  rw [SelectCnx.scanPath]
  dsimp only
  rw [hready, haction]
  rcases scanAction_cases (c.paths i) c.isReady currentTime with
    ⟨hurgent, h | h | h⟩ | ⟨hcalm, hineligible, h | h | ⟨t, h⟩⟩ | ⟨hcalm, heligible, h⟩ <;> rw [h]
  · exact .inl ⟨hurgent, rfl⟩
  · exact .inl ⟨hurgent, rfl⟩
  · exact .inl ⟨hurgent, rfl⟩
  · exact .inr (.inl ⟨hcalm, hineligible, _, rfl⟩)
  · exact .inr (.inl ⟨hcalm, hineligible, _, rfl⟩)
  · exact .inr (.inl ⟨hcalm, hineligible, _, rfl⟩)
  · exact .inr (.inr ⟨hcalm, heligible, rfl⟩)

/-! ### The variables -/

/-- What the variables say about the paths `done` that the loop has passed over, except that the
priority is one of theirs. -/
structure ScanCore (c : SelectCnx) (currentTime : ℕ) (done : List ℕ) (s : SelectScan) : Prop where
  priority : -1 ≤ s.highestPriority
  notNew : ∀ j ∈ done, (c.paths j).Eligible → ¬ s.IsNewPriority (c.paths j)
  minRtt : ∀ m, s.iMinRtt = some m →
    m ∈ done ∧ (c.paths m).Eligible ∧ s.IsSamePriority (c.paths m)
  minRtt_isSome : ∀ j ∈ done, (c.paths j).Eligible → s.IsSamePriority (c.paths j) → s.iMinRtt ≠ none
  pacing : ∀ m, s.dataPathPacing = some m →
    m ∈ done ∧ (c.paths m).Eligible ∧ s.IsSamePriority (c.paths m) ∧
      (c.paths m).MaySend c.isTonopah currentTime
  pacing_isSome : ∀ j ∈ done, (c.paths j).Eligible → s.IsSamePriority (c.paths j) →
    (c.paths j).MaySend c.isTonopah currentTime → s.dataPathPacing ≠ none
  cwin : ∀ m, s.dataPathCwin = some m → m ∈ done ∧ (c.paths m).Eligible
  cwin_none : s.dataPathPacing = none → s.dataPathCwin = none
  minOk : s.isMinRttPacingOk = true → s.dataPathPacing ≠ none ∧ s.iMinRtt ≠ none
  lastSent_none : s.dataPathPacing = none → s.lastSentPacing = uint64Max
  lastSentPacing_le : s.lastSentPacing ≤ uint64Max
  lastSentCwin_le : s.lastSentCwin ≤ uint64Max

/-- What the variables say. -/
structure ScanInv (c : SelectCnx) (currentTime : ℕ) (done : List ℕ) (s : SelectScan) : Prop
    extends ScanCore c currentTime done s where
  attained : s.highestPriority = -1 ∧ s.highestRetransmit = uint64Max ∨
    ∃ j ∈ done, (c.paths j).Eligible ∧ s.IsSamePriority (c.paths j)

private theorem scanInv_init (c : SelectCnx) (currentTime : ℕ) :
    ScanInv c currentTime [] .init where
  priority := le_rfl
  notNew _ h := absurd h List.not_mem_nil
  minRtt _ h := nomatch h
  minRtt_isSome _ h := absurd h List.not_mem_nil
  pacing _ h := nomatch h
  pacing_isSome _ h := absurd h List.not_mem_nil
  cwin _ h := nomatch h
  cwin_none _ := rfl
  minOk h := nomatch h
  lastSent_none _ := rfl
  lastSentPacing_le := le_rfl
  lastSentCwin_le := le_rfl
  attained := .inl ⟨rfl, rfl⟩

/-- What a path that is polled does to the variables. -/
structure PolledScan (i : ℕ) (p : Pacing) (lastSentTime : ℕ) (isTonopah : Bool) (currentTime : ℕ)
    (s s' : SelectScan) : Prop where
  highestPriority : s'.highestPriority = s.highestPriority
  highestRetransmit : s'.highestRetransmit = s.highestRetransmit
  minRtt : s'.iMinRtt = some i ∨ s'.iMinRtt = s.iMinRtt ∧ s.iMinRtt ≠ none
  pacing : (p.updateBucket currentTime).holdsPacket = true ∧
      (isTonopah = true ∨ lastSentTime < s.lastSentPacing) ∧
      s'.dataPathPacing = some i ∧ s'.lastSentPacing = lastSentTime ∨
    ¬ ((p.updateBucket currentTime).holdsPacket = true ∧
      (isTonopah = true ∨ lastSentTime < s.lastSentPacing)) ∧
      s'.dataPathPacing = s.dataPathPacing ∧ s'.lastSentPacing = s.lastSentPacing
  cwin : (p.updateBucket currentTime).holdsPacket = true ∧
      (isTonopah = true ∨ lastSentTime < s.lastSentCwin) ∧
      s'.dataPathCwin = some i ∧ s'.lastSentCwin = lastSentTime ∨
    s'.dataPathCwin = s.dataPathCwin ∧ s'.lastSentCwin = s.lastSentCwin
  minOk : s'.isMinRttPacingOk = true → s'.dataPathPacing = some i ∨ s.isMinRttPacingOk = true

private theorem polledScan_pollPath (c : SelectCnx) (currentTime : ℕ) (s : SelectScan) (i : ℕ) :
    PolledScan i (c.paths i).pacing (c.paths i).lastSentTime c.isTonopah currentTime s
      (c.pollPath currentTime s i).2 := by
  simp only [pollPath, authorized_isSendingAuthorized]
  generalize (c.paths i).pacing.isSendingAuthorized _ _ _ = r
  generalize Option.any _ _ = b
  have hmin : ((s.offerMinRtt i b).iMinRtt = some i ∨
        (s.offerMinRtt i b).iMinRtt = s.iMinRtt ∧ s.iMinRtt ≠ none) ∧
      ((s.offerMinRtt i b).isMinRttPacingOk = true → s.isMinRttPacingOk = true) := by
    rw [SelectScan.offerMinRtt]
    split_ifs with h
    · exact ⟨.inl rfl, nofun⟩
    · exact ⟨.inr ⟨rfl, fun hnone => h (.inl hnone)⟩, id⟩
  have hrest : s.offerMinRtt i b = { s with
      iMinRtt := (s.offerMinRtt i b).iMinRtt
      isMinRttPacingOk := (s.offerMinRtt i b).isMinRttPacingOk } := by
    rw [SelectScan.offerMinRtt]
    split_ifs <;> rfl
  generalize s.offerMinRtt i b = t at hmin hrest
  split_ifs with hauth
  · simp only [SelectScan.offerData]
    constructor <;> grind
  · constructor <;> grind

section Step

variable {c : SelectCnx} {currentTime : ℕ} {done : List ℕ} {s : SelectScan} {i : ℕ}

/-- A path that data may not go on, or that is worse than the ones so far, changes nothing. -/
theorem ScanInv.pass (h : ScanInv c currentTime done s) (hi : (c.paths i).Eligible →
      ¬ s.IsNewPriority (c.paths i) ∧ ¬ s.IsSamePriority (c.paths i)) (t : ℕ) :
    ScanInv c currentTime (i :: done) { s with challengeTimeNext := t } where
  priority := h.priority
  notNew := List.forall_mem_cons.2 ⟨fun hel => (hi hel).1, h.notNew⟩
  minRtt m hm := (h.minRtt m hm).imp_left (List.mem_cons_of_mem i)
  minRtt_isSome :=
    List.forall_mem_cons.2 ⟨fun hel hsame => absurd hsame (hi hel).2, h.minRtt_isSome⟩
  pacing m hm := (h.pacing m hm).imp_left (List.mem_cons_of_mem i)
  pacing_isSome :=
    List.forall_mem_cons.2 ⟨fun hel hsame => absurd hsame (hi hel).2, h.pacing_isSome⟩
  cwin m hm := (h.cwin m hm).imp_left (List.mem_cons_of_mem i)
  cwin_none := h.cwin_none
  minOk := h.minOk
  lastSent_none := h.lastSent_none
  lastSentPacing_le := h.lastSentPacing_le
  lastSentCwin_le := h.lastSentCwin_le
  attained := h.attained.imp_right fun ⟨j, hj, hjel⟩ => ⟨j, List.mem_cons_of_mem i hj, hjel⟩

/-- After a new priority, no path before it is of the same one. -/
theorem ScanInv.restart (h : ScanInv c currentTime done s) (hi : s.IsNewPriority (c.paths i)) :
    ScanCore c currentTime done (s.restart (c.paths i)) := by
  have hworse : ∀ j ∈ done, (c.paths j).Eligible →
      ¬ (s.restart (c.paths i)).IsNewPriority (c.paths j) ∧
        ¬ (s.restart (c.paths i)).IsSamePriority (c.paths j) := by
    intro j hj hjel
    have hnew := h.notNew j hj hjel
    simp only [SelectScan.IsNewPriority, SelectScan.IsSamePriority, SelectScan.restart] at hi hnew ⊢
    omega
  exact {
    priority := by
      have := h.priority
      simp only [SelectScan.IsNewPriority, SelectScan.restart] at hi ⊢
      omega
    notNew := fun j hj hjel => (hworse j hj hjel).1
    minRtt := nofun
    minRtt_isSome := fun j hj hjel hsame => absurd hsame (hworse j hj hjel).2
    pacing := nofun
    pacing_isSome := fun j hj hjel hsame => absurd hsame (hworse j hj hjel).2
    cwin := nofun
    cwin_none := fun _ => rfl
    minOk := nofun
    lastSent_none := fun _ => rfl
    lastSentPacing_le := le_rfl
    lastSentCwin_le := le_rfl }

/-- A path of the same priority is weighed. -/
theorem ScanCore.poll (h : ScanCore c currentTime done s) {s' : SelectScan}
    (hi : (c.paths i).Eligible) (hsame : s.IsSamePriority (c.paths i))
    (hs : PolledScan i (c.paths i).pacing (c.paths i).lastSentTime c.isTonopah currentTime s s') :
    ScanInv c currentTime (i :: done) s' := by
  have hpri := hs.highestPriority
  have hret := hs.highestRetransmit
  have hiff : ∀ p, s'.IsSamePriority p ↔ s.IsSamePriority p := fun p => by
    rw [SelectScan.IsSamePriority, hpri, hret, SelectScan.IsSamePriority]
  have hiff' : ∀ p, s'.IsNewPriority p ↔ s.IsNewPriority p := fun p => by
    rw [SelectScan.IsNewPriority, hpri, hret, SelectScan.IsNewPriority]
  have hmax : ((c.paths i).lastSentTime : ℕ) ≤ uint64Max := by
    have := (c.paths i).lastSentTime.isLt
    rw [uint64Max]
    omega
  have hnotNew : ¬ s.IsNewPriority (c.paths i) := by
    simp only [SelectScan.IsNewPriority, SelectScan.IsSamePriority] at hsame ⊢
    omega
  exact {
    priority := hpri ▸ h.priority
    notNew := by
      simp only [hiff']
      exact List.forall_mem_cons.2 ⟨fun _ => hnotNew, h.notNew⟩
    minRtt := by
      simp only [hiff]
      rcases hs.minRtt with hmin | ⟨hmin, -⟩ <;> rw [hmin]
      · rintro m ⟨rfl⟩
        exact ⟨List.mem_cons_self, hi, hsame⟩
      · exact fun m hm => (h.minRtt m hm).imp_left (List.mem_cons_of_mem i)
    minRtt_isSome := by
      rcases hs.minRtt with hmin | ⟨hmin, hne⟩ <;> rw [hmin]
      · exact fun _ _ _ _ => Option.some_ne_none i
      · exact fun _ _ _ _ => hne
    pacing := by
      simp only [hiff]
      rcases hs.pacing with ⟨hauth, hlast, hsome, -⟩ | ⟨-, hkeep, -⟩
      · rintro m hm
        obtain rfl := Option.some.inj (hsome.symm.trans hm)
        exact ⟨List.mem_cons_self, hi, hsame, hauth,
          hlast.imp_right (lt_of_lt_of_le · h.lastSentPacing_le)⟩
      · rw [hkeep]
        exact fun m hm => (h.pacing m hm).imp_left (List.mem_cons_of_mem i)
    pacing_isSome := by
      simp only [hiff]
      rcases hs.pacing with ⟨-, -, hsome, -⟩ | ⟨hno, hkeep, -⟩
      · rw [hsome]
        exact fun _ _ _ _ _ => Option.some_ne_none i
      · rw [hkeep]
        refine List.forall_mem_cons.2 ⟨fun _ _ hmay hnone => hno ?_, h.pacing_isSome⟩
        rw [h.lastSent_none hnone]
        exact hmay
    cwin := by
      rcases hs.cwin with ⟨-, -, hsome, -⟩ | ⟨hkeep, -⟩
      · rintro m hm
        obtain rfl := Option.some.inj (hsome.symm.trans hm)
        exact ⟨List.mem_cons_self, hi⟩
      · rw [hkeep]
        exact fun m hm => (h.cwin m hm).imp_left (List.mem_cons_of_mem i)
    cwin_none := by
      -- A path that fits its window and may send is noted in `dataPathPacing` as well.
      intro hnone
      rcases hs.pacing with ⟨-, -, hsome, -⟩ | ⟨hno, hkeep, -⟩
      · exact absurd (hsome.symm.trans hnone) (Option.some_ne_none i)
      · rw [hkeep] at hnone
        rcases hs.cwin with ⟨hauth, hlast, -⟩ | ⟨hkeep', -⟩
        · refine absurd ⟨hauth, hlast.imp_right fun hlt => ?_⟩ hno
          rw [h.lastSent_none hnone]
          exact lt_of_lt_of_le hlt h.lastSentCwin_le
        · exact hkeep'.trans (h.cwin_none hnone)
    minOk := by
      intro hok
      refine ⟨?_, ?_⟩
      · rcases hs.pacing with ⟨-, -, hsome, -⟩ | ⟨hno, hkeep, -⟩
        · exact hsome ▸ Option.some_ne_none i
        · rcases hs.minOk hok with hsome | hok
          · exact hsome ▸ Option.some_ne_none i
          · exact hkeep ▸ (h.minOk hok).1
      · rcases hs.minRtt with hmin | ⟨hmin, hne⟩
        · exact hmin ▸ Option.some_ne_none i
        · exact hmin ▸ hne
    lastSent_none := by
      intro hnone
      rcases hs.pacing with ⟨-, -, hsome, -⟩ | ⟨-, hkeep, hlast⟩
      · exact absurd (hsome.symm.trans hnone) (Option.some_ne_none i)
      · exact hlast.trans (h.lastSent_none (hkeep ▸ hnone))
    lastSentPacing_le := by
      rcases hs.pacing with ⟨-, -, -, hlast⟩ | ⟨-, -, hlast⟩ <;> rw [hlast]
      · exact hmax
      · exact h.lastSentPacing_le
    lastSentCwin_le := by
      rcases hs.cwin with ⟨-, -, -, hlast⟩ | ⟨-, hlast⟩ <;> rw [hlast]
      · exact hmax
      · exact h.lastSentCwin_le
    attained := .inr ⟨i, List.mem_cons_self, hi, (hiff _).2 hsame⟩ }

private theorem MpPath.algInit_eq (p : MpPath) :
    ∃ b w, p.algInit = { p with hasCongestionAlgState := b, cwin := w } := by
  rw [MpPath.algInit]
  split_ifs
  · exact ⟨_, _, rfl⟩
  · exact ⟨_, _, rfl⟩

section

variable (h : ScanInv c currentTime done s)

include h

private theorem ScanInv.scanVerified (hi : (c.paths i).Eligible)
    {c' : SelectCnx} (hc' : c'.paths i = c.paths i) (htonopah : c'.isTonopah = c.isTonopah) :
    ScanInv c currentTime (i :: done)
      ((c'.setPath i (·.mark false)).scanVerified currentTime s i).2 := by
  obtain ⟨b, w, hinit⟩ := ((c.paths i).mark false).algInit_eq
  set c'' := (c'.setPath i (·.mark false)).setPath i MpPath.algInit with hc''
  have hpath : c''.paths i =
      { (c.paths i).mark false with hasCongestionAlgState := b, cwin := w } := by
    rw [hc'', paths_setPath_self, paths_setPath_self, hc', hinit]
  have hpoll : ∀ s, PolledScan i (c.paths i).pacing (c.paths i).lastSentTime c.isTonopah currentTime
      s (c''.pollPath currentTime s i).2 := fun s => by
    have := polledScan_pollPath c'' currentTime s i
    rw [hpath] at this
    exact htonopah ▸ this
  simp only [SelectCnx.scanVerified]
  rw [← hc'', hpath]
  split_ifs with hnew hsame
  · exact (h.restart hnew).poll hi ⟨rfl, rfl⟩ (hpoll _)
  · exact h.toScanCore.poll hi hsame (hpoll s)
  · exact h.pass (fun _ => ⟨hnew, hsame⟩) s.challengeTimeNext

/-- A path as good as the best one is of its priority. -/
theorem ScanInv.isSamePriority {j : ℕ} (hj : j ∈ done)
    (hel : (c.paths j).Eligible) (hpri : -1 ≤ (c.paths j).pathPriority)
    (hbest : ∀ k ∈ done, (c.paths k).Eligible → ¬ (c.paths k).Precedes (c.paths j)) :
    s.IsSamePriority (c.paths j) := by
  have hnew := h.notNew j hj hel
  have hlt := (c.paths j).nbRetransmit.isLt
  rcases h.attained with ⟨hp, hr⟩ | ⟨k, hk, hkel, hp, hr⟩
  · -- the initial values are those of the worst path
    simp only [SelectScan.IsNewPriority, SelectScan.IsSamePriority, uint64Max] at *
    omega
  · have hle := hbest k hk hkel
    simp only [SelectScan.IsNewPriority, SelectScan.IsSamePriority, MpPath.Precedes] at *
    omega

private theorem ScanInv.iMinRtt_ne_none_iff :
    s.iMinRtt ≠ none ↔ ∃ j ∈ done, (c.paths j).Eligible ∧ -1 ≤ (c.paths j).pathPriority := by
  constructor
  · intro hne
    obtain ⟨m, hm⟩ := Option.ne_none_iff_exists'.1 hne
    obtain ⟨hmem, hel, hsame⟩ := h.minRtt m hm
    exact ⟨m, hmem, hel, hsame.1 ▸ h.priority⟩
  · rintro ⟨j, hj, hel, hpri⟩
    rcases h.attained with ⟨hp, hr⟩ | ⟨k, hk, hkel, hsame⟩
    · have hnew := h.notNew j hj hel
      have hlt := (c.paths j).nbRetransmit.isLt
      refine h.minRtt_isSome j hj hel ?_
      simp only [SelectScan.IsNewPriority, SelectScan.IsSamePriority, uint64Max] at *
      omega
    · exact h.minRtt_isSome k hk hkel hsame

private theorem ScanInv.dataPathPacing_ne_none_iff :
    s.dataPathPacing ≠ none ↔ ∃ j ∈ done, (c.paths j).Eligible ∧ -1 ≤ (c.paths j).pathPriority ∧
      (c.paths j).MaySend c.isTonopah currentTime ∧
      ∀ k ∈ done, (c.paths k).Eligible → ¬ (c.paths k).Precedes (c.paths j) := by
  constructor
  · intro hne
    obtain ⟨m, hm⟩ := Option.ne_none_iff_exists'.1 hne
    obtain ⟨hmem, hel, hsame, hmay⟩ := h.pacing m hm
    refine ⟨m, hmem, hel, hsame.1 ▸ h.priority, hmay, fun k hk hkel hprec => ?_⟩
    refine h.notNew k hk hkel ?_
    simp only [SelectScan.IsNewPriority, SelectScan.IsSamePriority, MpPath.Precedes] at *
    omega
  · rintro ⟨j, hj, hel, hpri, hmay, hbest⟩
    exact h.pacing_isSome j hj hel (h.isSamePriority hj hel hpri hbest) hmay

private theorem ScanInv.scanPath {c' : SelectCnx}
    (hc' : c'.paths i = c.paths i) (htonopah : c'.isTonopah = c.isTonopah)
    (hready : c'.isReady = c.isReady) :
    (c.paths i).Urgent c.isReady currentTime ∧ (c'.scanPath currentTime s i).2 = none ∨
    ¬ (c.paths i).Urgent c.isReady currentTime ∧
      ∃ s', (c'.scanPath currentTime s i).2 = some s' ∧ ScanInv c currentTime (i :: done) s' := by
  rcases hc' ▸ hready ▸ snd_scanPath c' currentTime s i with
    ⟨hurgent, hnone⟩ | ⟨hcalm, hineligible, t, hsome⟩ | ⟨hcalm, heligible, hsome⟩
  · exact .inl ⟨hurgent, hnone⟩
  · exact .inr ⟨hcalm, _, hsome, h.pass (fun hel => absurd hel hineligible) t⟩
  · exact .inr ⟨hcalm, _, hsome, h.scanVerified heligible hc' htonopah⟩

end

end Step

/-! ### The loop -/

/-- The path that ends the loop. -/
def SelectCnx.firstUrgent (c : SelectCnx) (currentTime : ℕ) (l : List ℕ) : Option ℕ :=
  l.find? fun i => (c.paths i).Urgent c.isReady currentTime

/-- The paths before it. -/
def SelectCnx.passed (c : SelectCnx) (currentTime : ℕ) (l : List ℕ) : List ℕ :=
  l.takeWhile fun i => ¬ (c.paths i).Urgent c.isReady currentTime

/-- What the loop leaves: it ends at the first path that has to send something, the variables are
about the paths before that one, and their marks and its own are cleared. -/
structure ScanSpec (c : SelectCnx) (currentTime : ℕ) (done l : List ℕ) (c' : SelectCnx)
    (r : ScanResult) : Prop where
  nbPaths : r.cnx.nbPaths = c'.nbPaths
  stop : r.stop = c.firstUrgent currentTime l
  scan : ScanInv c currentTime ((c.passed currentTime l).reverse ++ done) r.scan
  cleared : ∀ j, j ∈ c.passed currentTime l ∨ r.stop = some j →
    (r.cnx.paths j).isNominalAckPath = false
  kept : ∀ j, ¬ (j ∈ c.passed currentTime l ∨ r.stop = some j) →
    (r.cnx.paths j).isNominalAckPath = (c'.paths j).isNominalAckPath

private theorem OnlyPath.marks {c c' : SelectCnx} {i : ℕ}
    (h : OnlyPath i (c.setPath i (·.mark false)) c') :
    (c'.paths i).isNominalAckPath = false ∧ ∀ j, j ≠ i → c'.paths j = c.paths j := by
  refine ⟨?_, fun j hj => ?_⟩
  · rw [h.mark, paths_setPath_self]
    rfl
  · rw [h.others j hj, paths_setPath_of_ne c _ hj]

variable {l : List ℕ}

private theorem scanLoop_spec (c : SelectCnx) (currentTime : ℕ) (hl : l.Nodup) {done : List ℕ}
    {c' : SelectCnx} {s : SelectScan} (hpaths : ∀ j ∈ l, c'.paths j = c.paths j)
    (htonopah : c'.isTonopah = c.isTonopah) (hready : c'.isReady = c.isReady)
    (h : ScanInv c currentTime done s) :
    ScanSpec c currentTime done l c' (SelectCnx.scanLoop currentTime l c' s) := by
  induction l generalizing done c' s with
  | nil => exact ⟨rfl, rfl, h, fun _ hj => by simp [passed, scanLoop] at hj,
      fun _ _ => rfl⟩
  | cons i l ih =>
    have honly := onlyPath_scanPath c' currentTime s i
    have hscan := h.scanPath (hpaths i List.mem_cons_self) htonopah hready
    rw [scanLoop]
    generalize c'.scanPath currentTime s i = r at honly hscan
    obtain ⟨c'', s'⟩ := r
    obtain ⟨hmark, hothers⟩ := honly.marks
    rcases hscan with ⟨hurgent, rfl⟩ | ⟨hcalm, s', rfl, hinv⟩
    · -- the loop ends here, and the paths behind are as they were
      have hpassed : c.passed currentTime (i :: l) = [] := by
        simp [passed, hurgent]
      have hstop : c.firstUrgent currentTime (i :: l) = some i := by
        simp [firstUrgent, hurgent]
      refine ⟨honly.nbPaths, hstop.symm, hpassed ▸ h, ?_, ?_⟩ <;> rw [hpassed]
      · rintro j (hj | hj)
        · exact absurd hj List.not_mem_nil
        · exact Option.some.inj hj ▸ hmark
      · intro j hj
        rw [hothers j (by rintro rfl; exact hj (.inr rfl))]
    · have hpassed : c.passed currentTime (i :: l) = i :: c.passed currentTime l := by
        simp [passed, hcalm]
      have hstop : c.firstUrgent currentTime (i :: l) = c.firstUrgent currentTime l := by
        simp [firstUrgent, hcalm]
      obtain ⟨hi, hl⟩ := List.nodup_cons.1 hl
      -- no path comes twice, so that the others are as they were before this one
      have hspec := ih hl (fun j hj => by
        rw [hothers j (by rintro rfl; exact hi hj), hpaths j (List.mem_cons_of_mem i hj)])
        (honly.isTonopah.trans htonopah) (honly.isReady.trans hready) hinv
      have hunvisited : ¬ (i ∈ c.passed currentTime l ∨ c.firstUrgent currentTime l = some i) := by
        rintro (hmem | hsome)
        · exact hi (List.takeWhile_subset _ hmem)
        · exact hi (List.mem_of_find?_eq_some hsome)
      refine ⟨hspec.nbPaths.trans honly.nbPaths, hspec.stop.trans hstop.symm, ?_, ?_, ?_⟩ <;>
        rw [hpassed]
      · rw [List.reverse_cons, List.append_assoc]
        exact hspec.scan
      · intro j hj
        rcases hj with hj | hj
        · rcases List.mem_cons.1 hj with rfl | hj
          · rw [hspec.kept j (hspec.stop ▸ hunvisited), hmark]
          · exact hspec.cleared j (.inl hj)
        · exact hspec.cleared j (.inr hj)
      · intro j hj
        rw [hspec.kept j (fun h => hj (h.imp_left (List.mem_cons_of_mem i))), hothers j
          (by rintro rfl; exact hj (.inl List.mem_cons_self))]

/-! ### The order -/

/-- In an ordered list, the paths before the one that ends the loop come first in the order. -/
theorem mem_passed_iff (c : SelectCnx) (currentTime : ℕ) {R : ℕ → ℕ → Prop} [Std.Asymm R]
    (hl : l.Pairwise R) {k : ℕ} (hk : c.firstUrgent currentTime l = some k) (j : ℕ) :
    j ∈ c.passed currentTime l ↔ j ∈ l ∧ R j k := by
  obtain ⟨hurgent, before, after, rfl, hcalm⟩ := List.find?_eq_some_iff_append.1 hk
  have hpassed : c.passed currentTime (before ++ k :: after) = before := by
    rw [passed, List.takeWhile_append_of_pos, List.takeWhile_cons_of_neg, List.append_nil]
    · simpa using hurgent
    · simpa using hcalm
  obtain ⟨-, hafter, hbefore⟩ := List.pairwise_append.1 hl
  rw [hpassed]
  constructor
  · exact fun hj => ⟨List.mem_append_left _ hj, hbefore j hj k List.mem_cons_self⟩
  · rintro ⟨hj, hR⟩
    rcases List.mem_append.1 hj with hj | hj
    · exact hj
    · rcases List.mem_cons.1 hj with rfl | hj
      · exact absurd hR (Std.Asymm.asymm _ _ hR)
      · exact absurd hR (Std.Asymm.asymm _ _ ((List.pairwise_cons.1 hafter).1 j hj))

private theorem passed_of_firstUrgent_eq_none (c : SelectCnx) (currentTime : ℕ)
    (h : c.firstUrgent currentTime l = none) : c.passed currentTime l = l := by
  rw [passed, List.takeWhile_eq_self_iff]
  simpa using List.find?_eq_none.1 h

private theorem pairwise_scanOrder_reverse (c : SelectCnx) {rand : ℕ}
    (h : c.nextPath rand ≠ some 0) :
    (c.scanOrder rand).Pairwise (· > ·) := by
  rw [scanOrder, if_neg h]
  exact List.pairwise_reverse.2 List.pairwise_lt_range

private theorem mem_scanOrder (c : SelectCnx) (rand j : ℕ) :
    j ∈ c.scanOrder rand ↔ j < c.nbPaths := by
  rw [scanOrder]
  split_ifs <;> simp

private theorem nodup_scanOrder (c : SelectCnx) (rand : ℕ) : (c.scanOrder rand).Nodup := by
  rw [scanOrder]
  split_ifs
  · exact List.nodup_range
  · exact List.nodup_reverse.2 List.nodup_range

/-! ### The selection -/

/-- At most one of the first paths is marked. -/
def SelectCnx.OneMarkBelow (c : SelectCnx) (n : ℕ) : Prop :=
  ∀ i < n, ∀ j < n, (c.paths i).isNominalAckPath = true → (c.paths j).isNominalAckPath = true →
    i = j

/-- What the selection should do. -/
structure SelectLaw (c : SelectCnx) (r : SelectResult) : Prop where
  pathId_lt : r.pathId < c.nbPaths
  sound : (c.paths r.pathId).Bad → ∀ j < c.nbPaths, (c.paths j).Bad
  marks : r.cnx.OneMarkBelow c.nbPaths

/-- A path has to send something, or one of the best paths may send; otherwise the path to fall back
on must do. -/
def SelectCnx.FindsPath (c : SelectCnx) (rand currentTime : ℕ) : Prop :=
  (∃ j < c.nbPaths, (c.paths j).Urgent c.isReady currentTime) ∨
  (∃ j < c.nbPaths, (c.paths j).Eligible ∧ -1 ≤ (c.paths j).pathPriority ∧
    (c.paths j).MaySend c.isTonopah currentTime ∧
    ∀ k < c.nbPaths, (c.paths k).Eligible → ¬ (c.paths k).Precedes (c.paths j)) ∨
  ¬ (c.paths (c.defaultPath rand)).Bad ∨ ∀ j < c.nbPaths, (c.paths j).Bad

/-- The loop ends where the second loop leaves one mark at most. -/
def SelectCnx.KeepsMark (c : SelectCnx) (rand currentTime : ℕ) : Prop :=
  let stop := c.firstUrgent currentTime (c.scanOrder rand)
  if c.isTonopah then
    if c.nextPath rand = some 0 then stop ≠ some 0
    else stop = some 0 ∨ stop = some 1 ∧ (c.paths 0).isNominalAckPath = false
  else
    ∀ k, stop = some k →
      c.OneMarkBelow k ∧
      ((∃ i < k, (c.paths i).isNominalAckPath = true) →
        ∀ j < c.nbPaths, k < j → (c.paths j).Eligible → (c.paths j).pathPriority < -1)

section Select

variable (c : SelectCnx) (isAckNeeded : ℕ → Bool × ℕ) (rand currentTime nextWakeTime : ℕ)

/-- What the loop leaves in the selection. -/
def SelectCnx.scanned : SelectCnx.ScanResult :=
  SelectCnx.scanLoop currentTime (c.scanOrder rand) c .init

private theorem scanned_spec :
    ScanSpec c currentTime [] (c.scanOrder rand) c (c.scanned rand currentTime) :=
  scanLoop_spec c currentTime (nodup_scanOrder c rand) (fun _ _ => rfl) rfl rfl
    (scanInv_init c currentTime)

private theorem mark_selectNextPathMp (j : ℕ) :
    ((selectNextPathMp c isAckNeeded rand currentTime nextWakeTime).cnx.paths j).isNominalAckPath =
      if c.ackPath rand (c.scanned rand currentTime).scan = some j then true
      else if c.afterStop rand (c.scanned rand currentTime).stop ≤ j ∧ j < c.nbPaths then
        c.isTonopah
      else ((c.scanned rand currentTime).cnx.paths j).isNominalAckPath := by
  have hn : (c.scanned rand currentTime).cnx.nbPaths = c.nbPaths :=
    (scanned_spec c rand currentTime).nbPaths
  simp only [selectNextPathMp, ← scanned.eq_def]
  generalize c.scanned rand currentTime = r at hn
  have hselected : ∀ (c' : SelectCnx) i,
      ((c'.setPath i fun p => { p with selected := p.selected + 1 }).paths j).isNominalAckPath =
        (c'.paths j).isNominalAckPath := fun c' i => by
    rcases eq_or_ne j i with rfl | hji
    · rw [paths_setPath_self]
    · rw [paths_setPath_of_ne c' _ hji]
  have hmarked : ((r.cnx.markFrom (c.afterStop rand r.stop) c.isTonopah).paths j).isNominalAckPath =
      if c.afterStop rand r.stop ≤ j ∧ j < c.nbPaths then c.isTonopah
      else (r.cnx.paths j).isNominalAckPath := by
    rw [markFrom]
    dsimp only
    rw [hn]
    split_ifs <;> rfl
  rw [hselected]
  cases hack : c.ackPath rand r.scan with
  | none => rw [if_neg (by simp), ← hmarked]; rfl
  | some i =>
    rcases eq_or_ne j i with rfl | hji
    · rw [if_pos rfl, Option.elim_some, paths_setPath_self]
      rfl
    · rw [if_neg (by simpa using hji.symm), ← hmarked, Option.elim_some,
        paths_setPath_of_ne _ _ hji]

/-- The path that is returned: the one that ended the loop, one that data may go on, or the one to
fall back on, if no path may send. -/
theorem pathId_selectNextPathMp :
    let r := selectNextPathMp c isAckNeeded rand currentTime nextWakeTime
    let s := c.scanned rand currentTime
    s.stop = some r.pathId ∨
    s.stop = none ∧ s.scan.dataPathPacing ≠ none ∧
      (s.scan.iMinRtt = some r.pathId ∨ s.scan.dataPathCwin = some r.pathId ∨
        s.scan.dataPathPacing = some r.pathId) ∨
    s.stop = none ∧ s.scan.dataPathPacing = none ∧ r.pathId = c.defaultPath rand := by
  have hscan := (scanned_spec c rand currentTime).scan
  simp only [selectNextPathMp, ← scanned.eq_def]
  generalize c.scanned rand currentTime = r at hscan
  cases hstop : r.stop with
  | some i => exact .inl rfl
  | none =>
    refine .inr ?_
    dsimp only
    split_ifs with hack
    · obtain ⟨-, hok, -⟩ := hack
      obtain ⟨hpacing, hmin⟩ := hscan.minOk hok
      obtain ⟨m, hm⟩ := Option.ne_none_iff_exists'.1 hmin
      exact .inl ⟨rfl, hpacing, .inl (by rw [hm]; rfl)⟩
    · cases hcwin : r.scan.dataPathCwin with
      | some i =>
        have hpacing : r.scan.dataPathPacing ≠ none := fun hnone =>
          nomatch hcwin.symm.trans (hscan.cwin_none hnone)
        exact .inl ⟨rfl, hpacing, .inr (.inl rfl)⟩
      | none =>
        cases hpacing : r.scan.dataPathPacing with
        | some i => exact .inl ⟨rfl, Option.some_ne_none i, .inr (.inr rfl)⟩
        | none => exact .inr ⟨rfl, rfl, rfl⟩

private theorem defaultPath_lt : c.defaultPath rand < c.nbPaths := by
  have hpos := c.nbPaths_pos
  rw [defaultPath, nextPath]
  split_ifs with h
  · simp only [isTonopah, decide_eq_true_eq] at h
    rw [h.2]
    exact Nat.mod_lt _ two_pos
  · exact hpos

private theorem firstUrgent_eq_none_iff (l : List ℕ) :
    c.firstUrgent currentTime l = none ↔ ∀ j ∈ l, ¬ (c.paths j).Urgent c.isReady currentTime := by
  simp [firstUrgent]

private theorem mem_done_iff (h : (c.scanned rand currentTime).stop = none) (j : ℕ) :
    j ∈ (c.passed currentTime (c.scanOrder rand)).reverse ++ [] ↔ j < c.nbPaths := by
  rw [List.append_nil, List.mem_reverse, passed_of_firstUrgent_eq_none, mem_scanOrder]
  rw [← (scanned_spec c rand currentTime).stop, h]

private theorem pathId_lt_iff_findsPath :
    (selectNextPathMp c isAckNeeded rand currentTime nextWakeTime).pathId < c.nbPaths ∧
      (((c.paths (selectNextPathMp c isAckNeeded rand currentTime nextWakeTime).pathId).Bad →
        ∀ j < c.nbPaths, (c.paths j).Bad) ↔ c.FindsPath rand currentTime) := by
  have hspec := scanned_spec c rand currentTime
  have hpath := pathId_selectNextPathMp c isAckNeeded rand currentTime nextWakeTime
  have hdone := mem_done_iff c rand currentTime
  dsimp only at hpath
  generalize (selectNextPathMp c isAckNeeded rand currentTime nextWakeTime).pathId = i at hpath
  rcases hpath with hstop | ⟨hstop, hpacing, hdata⟩ | ⟨hstop, hpacing, rfl⟩
  · -- a path that has to send something is not demoted
    have hfind := List.find?_eq_some_iff_append.1 (hspec.stop.symm.trans hstop)
    have hurgent : (c.paths i).Urgent c.isReady currentTime := by simpa using hfind.1
    have hi := (mem_scanOrder c rand i).1 (List.mem_of_find?_eq_some (hspec.stop.symm.trans hstop))
    exact ⟨hi, iff_of_true (fun hbad => absurd hbad hurgent.1) (.inl ⟨i, hi, hurgent⟩)⟩
  · -- nor is one that was polled
    have hel : i < c.nbPaths ∧ (c.paths i).Eligible := by
      rw [← hdone hstop]
      rcases hdata with h | h | h
      · exact (hspec.scan.minRtt i h).imp_right And.left
      · exact hspec.scan.cwin i h
      · exact (hspec.scan.pacing i h).imp_right And.left
    refine ⟨hel.1, iff_of_true (fun hbad => absurd hbad hel.2.1) (.inr (.inl ?_))⟩
    simpa only [hdone hstop] using hspec.scan.dataPathPacing_ne_none_iff.1 hpacing
  · -- nothing is known of the path to fall back on
    refine ⟨defaultPath_lt c rand, ?_⟩
    have hcalm : ¬ ∃ j < c.nbPaths, (c.paths j).Urgent c.isReady currentTime := by
      have hnone := (firstUrgent_eq_none_iff c currentTime _).1 (hspec.stop.symm.trans hstop)
      rintro ⟨j, hj, hurgent⟩
      exact hnone j ((mem_scanOrder c rand j).2 hj) hurgent
    have hpaced := mt hspec.scan.dataPathPacing_ne_none_iff.2 (not_not.2 hpacing)
    simp only [hdone hstop] at hpaced
    rw [SelectCnx.FindsPath, or_iff_right hcalm, or_iff_right hpaced]
    exact imp_iff_not_or

private theorem oneMarkBelow_two (c : SelectCnx) : c.OneMarkBelow 2 ↔
    ¬ ((c.paths 0).isNominalAckPath = true ∧ (c.paths 1).isNominalAckPath = true) := by
  constructor
  · exact fun h ⟨h0, h1⟩ => absurd (h 0 two_pos 1 one_lt_two h0 h1) zero_ne_one
  · intro h i hi j hj hmi hmj
    obtain rfl | rfl : i = 0 ∨ i = 1 := by omega
    all_goals obtain rfl | rfl : j = 0 ∨ j = 1 := by omega
    · rfl
    · exact absurd ⟨hmi, hmj⟩ h
    · exact absurd ⟨hmj, hmi⟩ h
    · rfl

/-- The marks that are left with Tonopah on two paths. -/
theorem oneMarkBelow_of_isTonopah (h : c.isTonopah = true) :
    (selectNextPathMp c isAckNeeded rand currentTime nextWakeTime).cnx.OneMarkBelow c.nbPaths ↔
      c.KeepsMark rand currentTime := by
  have hn : c.nbPaths = 2 := by
    simp only [isTonopah, decide_eq_true_eq] at h
    exact h.2
  have hspec := scanned_spec c rand currentTime
  have hmark := mark_selectNextPathMp c isAckNeeded rand currentTime nextWakeTime
  have hstop : ∀ k, (c.scanned rand currentTime).stop = some k → k = 0 ∨ k = 1 := by
    intro k hk
    have hlt := (mem_scanOrder c rand k).1 (List.mem_of_find?_eq_some (hspec.stop.symm.trans hk))
    omega
  have hcleared : ∀ k, (c.scanned rand currentTime).stop = some k →
      ((c.scanned rand currentTime).cnx.paths k).isNominalAckPath = false :=
    fun k hk => hspec.cleared k (.inr hk)
  rw [SelectCnx.KeepsMark, if_pos h, hn, oneMarkBelow_two, hmark 0, hmark 1, ← hspec.stop,
    ackPath, if_pos h, h, hn]
  rcases Nat.mod_two_eq_zero_or_one rand with hr | hr
  · -- upwards, path 0 is marked at the end, and path 1 if the loop ended before it
    have hnext : c.nextPath rand = some 0 := by rw [nextPath, if_pos h, hr]
    rw [hnext, if_pos rfl]
    cases hk : (c.scanned rand currentTime).stop with
    | none =>
      have hmark1 := hspec.cleared 1 (.inl (by
        have := (mem_done_iff c rand currentTime hk 1).2 (by omega)
        simpa using this))
      simp [afterStop, hnext, hn, hmark1]
    | some k =>
      rcases hstop k hk with rfl | rfl
      · simp [afterStop]
      · simp [afterStop, hcleared 1 hk]
  · -- downwards, path 1 is marked at the end, and path 0 if no path ended the loop
    have hnext : c.nextPath rand = some 1 := by rw [nextPath, if_pos h, hr]
    have hne : c.nextPath rand ≠ some 0 := by simp [hnext]
    cases hk : (c.scanned rand currentTime).stop with
    | none => simp [afterStop, hnext]
    | some k =>
      rcases hstop k hk with rfl | rfl
      · simp [afterStop, hnext, hcleared 0 hk]
      · have hkept := hspec.kept 0 (by
          rw [mem_passed_iff c currentTime (pairwise_scanOrder_reverse c hne)
            (hspec.stop.symm.trans hk), hk]
          simp)
        simp [afterStop, hnext, hkept]

/-- The marks that are left otherwise: that of the path with the shortest round trip time, and those
below the path that ended the loop. -/
theorem mark_iff_of_not_isTonopah (h : ¬ c.isTonopah = true) {j : ℕ} (hj : j < c.nbPaths) :
    ((selectNextPathMp c isAckNeeded rand currentTime nextWakeTime).cnx.paths j).isNominalAckPath =
        true ↔
      (c.scanned rand currentTime).scan.iMinRtt = some j ∨
        ∃ k, (c.scanned rand currentTime).stop = some k ∧ j < k ∧
          (c.paths j).isNominalAckPath = true := by
  have hspec := scanned_spec c rand currentTime
  have hnext : c.nextPath rand = none := by rw [nextPath, if_neg h]
  have hne : c.nextPath rand ≠ some 0 := by simp [hnext]
  rw [mark_selectNextPathMp, ackPath, if_neg h, Bool.eq_false_of_not_eq_true h]
  by_cases hmin : (c.scanned rand currentTime).scan.iMinRtt = some j
  · simp [hmin]
  · rw [if_neg hmin, or_iff_right hmin]
    cases hk : (c.scanned rand currentTime).stop with
    | none => simp [afterStop, hnext, hj]
    | some k =>
      have hstop := hspec.stop.symm.trans hk
      rcases lt_trichotomy j k with hlt | rfl | hgt
      · have hkept := hspec.kept j (by
          rw [mem_passed_iff c currentTime (pairwise_scanOrder_reverse c hne) hstop, hk]
          rintro (⟨-, hgt⟩ | heq)
          · exact absurd hgt hlt.not_gt
          · exact absurd (Option.some.inj heq) hlt.ne')
        rw [afterStop, if_neg (by omega), hkept]
        simp [hlt]
      · simp [afterStop, hspec.cleared j (.inr hk)]
      · rw [afterStop, if_pos ⟨hgt, hj⟩]
        simp [hgt.le]

private theorem oneMarkBelow_of_not_isTonopah (h : ¬ c.isTonopah = true) :
    (selectNextPathMp c isAckNeeded rand currentTime nextWakeTime).cnx.OneMarkBelow c.nbPaths ↔
      c.KeepsMark rand currentTime := by
  have hspec := scanned_spec c rand currentTime
  have hne : c.nextPath rand ≠ some 0 := by simp [nextPath, h]
  have hmark := fun j => mark_iff_of_not_isTonopah c isAckNeeded rand currentTime nextWakeTime h
    (j := j)
  rw [SelectCnx.KeepsMark, if_neg h, ← hspec.stop]
  cases hk : (c.scanned rand currentTime).stop with
  | none =>
    refine iff_of_true (fun i hi j hj hmi hmj => ?_) nofun
    rw [hmark i hi, hk] at hmi
    rw [hmark j hj, hk] at hmj
    simp only [reduceCtorEq, false_and, exists_false, or_false] at hmi hmj
    exact Option.some.inj (hmi.symm.trans hmj)
  | some k =>
    have hstop := hspec.stop.symm.trans hk
    have hkn : k < c.nbPaths := (mem_scanOrder c rand k).1 (List.mem_of_find?_eq_some hstop)
    -- The shortest round trip time is that of a path above the one that ended the loop.
    have hdone : ∀ j, j ∈ (c.passed currentTime (c.scanOrder rand)).reverse ++ [] ↔
        j < c.nbPaths ∧ k < j := fun j => by
      rw [List.append_nil, List.mem_reverse, mem_passed_iff c currentTime
        (pairwise_scanOrder_reverse c hne) hstop, mem_scanOrder]
    have hmin := hspec.scan.iMinRtt_ne_none_iff
    have habove := fun m hm => (hdone m).1 (hspec.scan.minRtt m hm).1
    simp only [hdone] at hmin
    simp only [hk, Option.some.injEq, exists_eq_left', forall_eq'] at hmark ⊢
    constructor
    · intro hone
      refine ⟨fun i hi j hj hmi hmj => hone i (by omega) j (by omega)
        ((hmark i (by omega)).2 (.inr ⟨hi, hmi⟩)) ((hmark j (by omega)).2 (.inr ⟨hj, hmj⟩)), ?_⟩
      rintro ⟨i, hi, hmi⟩ j hj hkj hel
      by_contra hpri
      obtain ⟨m, hm⟩ := Option.ne_none_iff_exists'.1 (hmin.2 ⟨j, ⟨hj, hkj⟩, hel, by omega⟩)
      obtain ⟨hmn, hkm⟩ := habove m hm
      have := hone i (by omega) m hmn ((hmark i (by omega)).2 (.inr ⟨hi, hmi⟩))
        ((hmark m hmn).2 (.inl hm))
      omega
    · rintro ⟨hbelow, hclash⟩ i hi j hj hmi hmj
      -- a new mark above and an old one below would make two
      have hno : ∀ m l, (c.scanned rand currentTime).scan.iMinRtt = some m → l < k →
          ¬ (c.paths l).isNominalAckPath = true := by
        intro m l hm hl hml
        obtain ⟨j, ⟨hj, hkj⟩, hel, hpri⟩ := hmin.1 (by rw [hm]; exact Option.some_ne_none m)
        have := hclash ⟨l, hl, hml⟩ j hj hkj hel
        omega
      rcases (hmark i hi).1 hmi with hmi | ⟨hik, hmi⟩ <;>
        rcases (hmark j hj).1 hmj with hmj | ⟨hjk, hmj⟩
      · exact Option.some.inj (hmi.symm.trans hmj)
      · exact absurd hmj (hno i j hmi hjk)
      · exact absurd hmi (hno j i hmj hik)
      · exact hbelow i hik j hjk hmi hmj

/-- Exactly when the selection does what it should. -/
theorem selectLaw_iff :
    SelectLaw c (selectNextPathMp c isAckNeeded rand currentTime nextWakeTime) ↔
      c.FindsPath rand currentTime ∧ c.KeepsMark rand currentTime := by
  obtain ⟨hlt, hfinds⟩ := pathId_lt_iff_findsPath c isAckNeeded rand currentTime nextWakeTime
  have hmarks : (selectNextPathMp c isAckNeeded rand currentTime nextWakeTime).cnx.OneMarkBelow
      c.nbPaths ↔ c.KeepsMark rand currentTime := by
    by_cases h : c.isTonopah = true
    · exact oneMarkBelow_of_isTonopah c isAckNeeded rand currentTime nextWakeTime h
    · exact oneMarkBelow_of_not_isTonopah c isAckNeeded rand currentTime nextWakeTime h
  rw [← hfinds, ← hmarks]
  exact ⟨fun h => ⟨h.sound, h.marks⟩, fun h => ⟨hlt, h.1, h.2⟩⟩

end Select

/-- A path that was verified and is idle. -/
def MpPath.sample : MpPath where
  isDemoted := false
  demotionTime := 0
  challengeRequired := true
  challengeVerified := true
  challengeFailed := false
  responseRequired := false
  challengeTime := 0
  challengeRepeatCount := 1
  retransmitTimer := 250000
  nbRetransmit := 0
  bytesInTransit := 0
  cwin := 15360
  pathPriority := 0
  rttMin := 10000
  lastSentTime := 0
  pacing := ⟨1000, 16, 16, 1⟩
  hasCongestionAlgState := true
  isNominalAckPath := false
  isMultipathProbeNeeded := false
  responder := 0
  challenger := 0
  polled := 0
  paced := 0
  congested := 0
  selected := 0

/-- Two paths with New Reno: the first one is demoted, and the second one has to wait for its
pacing. -/
def SelectCnx.sampleDemoted : SelectCnx where
  nbPaths := 2
  nbPaths_pos := two_pos
  paths i :=
    if i = 0 then { MpPath.sample with isDemoted := true }
    else { MpPath.sample with pacing := ⟨1000, 0, 16000000, 100000⟩ }
  congestionAlgorithmNumber := 1
  isReady := true
  packetTrainMode := false
  pathDemotionNeeded := true

/-- Two paths with Tonopah. -/
def SelectCnx.sampleTonopah : SelectCnx where
  nbPaths := 2
  nbPaths_pos := two_pos
  paths _ := MpPath.sample
  congestionAlgorithmNumber := ccAlgoNumberTonopah
  isReady := true
  packetTrainMode := false
  pathDemotionNeeded := false

/-- The demoted path is selected although the other one is not; and where the path of the number one
is drawn, both paths are marked. -/
theorem demoted_path_selected :
    (let r := selectNextPathMp .sampleDemoted (fun t => (false, t)) 0 1000 (2 ^ 64 - 1);
      ¬ SelectLaw .sampleDemoted r ∧ (sampleDemoted.paths r.pathId).Bad ∧
        ¬ (sampleDemoted.paths 1).Bad) ∧
    (let r := selectNextPathMp .sampleTonopah (fun t => (false, t)) 1 1000 (2 ^ 64 - 1);
      ¬ SelectLaw .sampleTonopah r ∧ (r.cnx.paths 0).isNominalAckPath = true ∧
        (r.cnx.paths 1).isNominalAckPath = true) := by
  have hbad : (sampleDemoted.paths
      (selectNextPathMp .sampleDemoted (fun t => (false, t)) 0 1000 (2 ^ 64 - 1)).pathId).Bad := by
    decide
  have hgood : ¬ (sampleDemoted.paths 1).Bad := by decide
  have hmarks : ∀ i < 2, ((selectNextPathMp .sampleTonopah (fun t => (false, t)) 1 1000
      (2 ^ 64 - 1)).cnx.paths i).isNominalAckPath = true := by
    decide
  refine ⟨⟨fun h => hgood (h.sound hbad 1 one_lt_two), hbad, hgood⟩, fun h => ?_,
    hmarks 0 two_pos, hmarks 1 one_lt_two⟩
  exact absurd (h.marks 0 two_pos 1 one_lt_two (hmarks 0 two_pos) (hmarks 1 one_lt_two)) zero_ne_one

end Picoquic
