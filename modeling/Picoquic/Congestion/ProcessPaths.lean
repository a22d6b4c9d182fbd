import Picoquic.Congestion.ProcessIntervals

/-!
# The paths of a process

The global variables know two paths by their addresses, the window is split by the places in
`cnx->path`. The two name the same paths as long as a path stands where it was when it got known.

* **`labels_match`** — the path that gets the share of the dominant path is the dominant one, and
  the newest interval names it, in a run in which the paths stand in place;
* **`labels_swapped`** — the shares are exchanged when the second path is notified first, or gets
  the default path;
* **`notify_outcome`** — no assertion fails, and `abort` is reached when a third path is notified;
  as long as one connection notifies, and keeps its paths, no path of another one is known;
* **`third_path_aborts`** — two connections end the process.
-/

namespace Picoquic

open Runs TonopahGlobals

/-! ### The places of the paths -/

namespace TonopahGlobals

variable {ι : Type} {v : TonopahVariant ι} {g : TonopahGlobals ι} {paths : List ℕ}

/-- What `set_path` presumes of the dominant path: the path that got known first is `cnx->path[0]`,
the other one `cnx->path[1]`. Where the dominant path alternates, this is about both. -/
structure InPlace (v : TonopahVariant ι) (g : TonopahGlobals ι) (paths : List ℕ) : Prop where
  dominant : g.dominantPath = g.path1 ∧ g.path1 = paths[0]? ∨
    g.dominantPath = g.path2 ∧ g.path2 = paths[1]?
  alternate : v.alternates = true → g.path1 = paths[0]? ∧ g.path2 = paths[1]?

/-- The shares of the window are those of the labels. -/
structure LabelsMatch (v : TonopahVariant ι) (g : TonopahGlobals ι) : Prop where
  splits : ∀ s ∈ g.splits, s.1.isSome ∧ s.2 = s.1
  newest : ∀ e ∈ g.infos.head?, g.pathOf (v.dominantPathId e) = g.dominantPath

theorem InPlace.pathOf (h : g.InPlace v paths) :
    g.pathOf (if g.dominantPath = g.path1 then .path1 else .path2) = g.dominantPath := by
  split_ifs with h1
  · exact h1.symm
  · rcases h.dominant with ⟨hd, -⟩ | ⟨hd, -⟩
    · exact absurd hd h1
    · exact hd.symm

theorem InPlace.of_alternate (h : g.InPlace v paths) : (g.alternate v).InPlace v paths := by
  rw [TonopahGlobals.alternate]
  split_ifs with halt hd
  · obtain ⟨h1, h2⟩ := h.alternate halt
    exact ⟨Or.inr ⟨rfl, h2⟩, fun _ => ⟨h1, h2⟩⟩
  · obtain ⟨h1, h2⟩ := h.alternate halt
    exact ⟨Or.inl ⟨rfl, h1⟩, fun _ => ⟨h1, h2⟩⟩
  · exact h

/-- The share goes to the dominant path. -/
theorem InPlace.share_eq (h : g.InPlace v paths) (differ : ∀ p, g.path1 = some p → g.path2 ≠ some p)
    (h1 : g.path1.isSome) (h2 : g.path2.isSome) (behind : ℕ) :
    g.dominantPath.isSome ∧
      g.share (paths.getD 0 behind) (paths.getD 1 behind) = g.dominantPath := by
  obtain ⟨p1, hp1⟩ := Option.isSome_iff_exists.mp h1
  obtain ⟨p2, hp2⟩ := Option.isSome_iff_exists.mp h2
  rw [share]
  rcases h.dominant with ⟨hd, hplace⟩ | ⟨hd, hplace⟩
  · rw [if_pos hd, hd, hplace, List.getD_eq_getElem?_getD, ← hplace, hp1]
    exact ⟨rfl, rfl⟩
  · have hne : g.dominantPath ≠ g.path1 := by
      rw [hd, hp1]
      exact differ p1 hp1
    rw [if_neg hne, if_pos hd, hd, List.getD_eq_getElem?_getD, ← hplace, hp2]
    exact ⟨rfl, rfl⟩

/-- **Invariant** of a notification, for a connection with these paths. -/
structure Placed (v : TonopahVariant ι) (paths : List ℕ) (g : TonopahGlobals ι) : Prop extends
    Labelled v g where
  splits : ∀ s ∈ g.splits, s.1.isSome ∧ s.2 = s.1
  place : paths.length ≠ 1 → g.path1.isSome → g.path2.isSome → g.InPlace v paths

/-- The change of intervals, when the paths stand in place. -/
theorem Placed.change (hv : v.Lawful) (h : g.Placed v paths) (hlength : paths.length ≠ 1)
    (h1 : g.path1.isSome) (h2 : g.path2.isSome) (reset : Bool) (numbers : ℕ → ℕ) (now : ℕ) :
    (g.change v reset numbers now).Placed v paths := by
  have hplace := (h.place hlength h1 h2).of_alternate
  have hframe : (g.alternate v).path1 = g.path1 ∧ (g.alternate v).path2 = g.path2 ∧
      (g.alternate v).splits = g.splits := by
    rw [alternate]
    split
    · exact ⟨rfl, rfl, rfl⟩
    · exact ⟨rfl, rfl, rfl⟩
  rw [TonopahGlobals.change]
  generalize g.alternate v = b at hplace hframe
  obtain ⟨path1, path2, dominantPath, lastChange, intervals, judged, splits, notified, fault⟩ := b
  obtain ⟨rfl, rfl, rfl⟩ := hframe
  -- what is shared by the two ways to begin an interval
  have happend (b : TonopahGlobals ι) (hb1 : b.path1 = g.path1) (hb2 : b.path2 = g.path2)
      (hsplits : b.splits = g.splits) (hb : b.InPlace v paths) :
      (b.append v numbers now).Placed v paths := by
    obtain ⟨ha1, ha2, hdominant, -, ha⟩ := b.append_frame v numbers now
    refine ⟨.append hv (hb1 ▸ h1) (hb2 ▸ h2) ?_ hb.pathOf, ?_, fun _ _ _ => ?_⟩
    · rw [hb1, hb2]
      exact h.differ
    · rw [ha, hsplits]
      exact h.splits
    · refine ⟨?_, ?_⟩
      · rw [ha1, ha2, hdominant]
        exact hb.dominant
      · rw [ha1, ha2]
        exact hb.alternate
  rcases reset with _ | _
  · exact happend _ rfl rfl rfl ⟨hplace.dominant, hplace.alternate⟩
  · exact happend _ rfl rfl rfl ⟨hplace.dominant, hplace.alternate⟩

/-- The split of the window, when the paths stand in place. -/
theorem Placed.logSplit (h : g.Placed v paths) (hlength : paths.length ≠ 1) (h1 : g.path1.isSome)
    (h2 : g.path2.isSome) (behind : ℕ) :
    (g.logSplit (g.share (paths.getD 0 behind) (paths.getD 1 behind))).Placed v paths := by
  have hplace := h.place hlength h1 h2
  refine ⟨⟨h.order, h.differ, h.known, h.head⟩, ?_,
    fun _ _ _ => ⟨hplace.dominant, hplace.alternate⟩⟩
  intro s hs
  rcases List.mem_cons.mp hs with rfl | hs
  · exact hplace.share_eq h.differ h1 h2 behind
  · exact h.splits s hs

/-- What the bookkeeping of an acknowledgement leaves. -/
theorem recordAck_frame (g : TonopahGlobals ι) (v : TonopahVariant ι) (n : Notification)
    (path : ℕ) :
    (g.recordAck v n path).path1 = g.path1 ∧ (g.recordAck v n path).path2 = g.path2 ∧
      (g.recordAck v n path).dominantPath = g.dominantPath ∧
      (g.recordAck v n path).splits = g.splits ∧ (g.recordAck v n path).notified = g.notified ∧
      (g.isKnown path = true → (g.recordAck v n path).fault = g.fault) := by
  rw [recordAck, check]
  split_ifs with hknown
  · exact ⟨rfl, rfl, rfl, rfl, rfl, fun _ => rfl⟩
  · exact ⟨rfl, rfl, rfl, rfl, rfl, fun h => absurd h hknown⟩

theorem learnPath_of_known (h1 : g.path1.isSome) (h2 : g.path2.isSome) (path : ℕ) :
    g.learnPath path = g := by
  rw [learnPath, if_neg (Option.isSome_iff_ne_none.mp h1),
    if_neg fun h => Option.isSome_iff_ne_none.mp h2 h.2]

end TonopahGlobals

namespace TonopahProcess

variable {ι : Type} {v : TonopahVariant ι} {p : TonopahProcess ι}

/-- An event finds the paths in place. -/
def PathsInPlace (v : TonopahVariant ι) (p : TonopahProcess ι) : Event → Prop
  | .notify call =>
    let paths := p.paths call.cnx
    ∀ path ∈ paths[(call.position : ℕ)]?,
      let g := p.globals.learnPath path
      paths.length ≠ 1 → g.path1.isSome → g.path2.isSome → g.InPlace v paths
  | _ => True

/-- When the paths stand in place, the registration of a path leaves the dominant path. -/
theorem register_inPlace {g : TonopahGlobals ι} {paths : List ℕ} {path path0 now : ℕ}
    (h1 : (g.learnPath path).path1.isSome) (h2 : (g.learnPath path).path2.isSome)
    (h : (g.learnPath path).InPlace v paths) :
    (register g paths path path0 now).InPlace v paths := by
  obtain ⟨-, -, -, hpath1, hpath2, hdominant⟩ := register_frame g paths path path0 now
  have hlearn : (g.learnPath path).dominantPath = g.dominantPath := by
    rw [learnPath]
    split_ifs
    · rfl
    · rfl
    · rfl
  have hsome : g.dominantPath ≠ none := by
    rw [← hlearn]
    rcases h.dominant with ⟨hd, -⟩ | ⟨hd, -⟩
    · rw [hd]
      exact Option.isSome_iff_ne_none.mp h1
    · rw [hd]
      exact Option.isSome_iff_ne_none.mp h2
  rw [if_neg fun hnone => hsome hnone.1, ← hlearn] at hdominant
  refine ⟨?_, ?_⟩
  · rw [hdominant, hpath1, hpath2]
    exact h.dominant
  · rw [hpath1, hpath2]
    exact h.alternate

variable {event : Event}

/-- **Step lemma.** -/
theorem step_placed (hv : v.Lawful)
    (h : p.globals.Labelled v ∧ ∀ s ∈ p.globals.splits, s.1.isSome ∧ s.2 = s.1)
    (hplace : PathsInPlace v p event) :
    (p.step v event).globals.Labelled v ∧
      ∀ s ∈ (p.step v event).globals.splits, s.1.isSome ∧ s.2 = s.1 := by
  refine step_kept (I := fun g => g.Labelled v ∧ ∀ s ∈ g.splits, s.1.isSome ∧ s.2 = s.1) h event ?_
  rintro _ call rfl
  rcases hpath : (p.paths call.cnx)[(call.position : ℕ)]? with _ | path
  · rw [notify, hpath]
    exact h
  have hbefore : p.globals.Placed v (p.paths call.cnx) := by
    refine ⟨h.1, h.2, ?_⟩
    intro hlength h1 h2
    have hlearn := p.globals.learnPath_of_known h1 h2 path
    have hin := hplace path hpath
    dsimp only at hin
    rw [hlearn] at hin
    exact hin hlength h1 h2
  have hafter : (p.notify v call).globals.Placed v (p.paths call.cnx) := by
    refine notify_kept hbefore ?_
    intro path' path0 hpath' _
    obtain rfl : path = path' := Option.some.inj (hpath.symm.trans hpath')
    obtain ⟨-, -, hsplits, h1, h2, -⟩ :=
      register_frame p.globals (p.paths call.cnx) path path0 (call.clock 0)
    have hregister : (register p.globals (p.paths call.cnx) path path0 (call.clock 0)).Placed v
        (p.paths call.cnx) := by
      refine ⟨register_labelled h.1 _ _ _ _, ?_, ?_⟩
      · rw [hsplits]
        exact h.2
      · intro hlength hs1 hs2
        rw [h1] at hs1
        rw [h2] at hs2
        exact register_inPlace hs1 hs2 (hplace path hpath hlength hs1 hs2)
    refine ⟨hregister, fun _ => ⟨hregister, ?_, ?_, ?_, ?_⟩⟩
    · intro g hg
      exact ⟨hg.toLabelled.deleteInfoList, hg.splits,
        fun hlength h1 h2 =>
          ⟨(hg.place hlength h1 h2).dominant, (hg.place hlength h1 h2).alternate⟩⟩
    · intro _ _
      obtain ⟨ha1, ha2, hdominant, hsplits', -⟩ := recordAck_frame
        (register p.globals (p.paths call.cnx) path path0 (call.clock 0)) v
        (call.toNotification (p.paths call.cnx)) path
      refine ⟨hregister.toLabelled.recordAck hv _ path, ?_, ?_⟩
      · rw [hsplits']
        exact hregister.splits
      · rw [ha1, ha2]
        intro hlength hs1 hs2
        have hin := hregister.place hlength hs1 hs2
        refine ⟨?_, ?_⟩
        · rw [ha1, ha2, hdominant]
          exact hin.dominant
        · rw [ha1, ha2]
          exact hin.alternate
    · intro g hg hlength h1 h2 reset now
      exact hg.change hv hlength h1 h2 reset _ now
    · intro g hg hlength h1 h2
      exact hg.logSplit hlength h1 h2 call.behind
  exact ⟨hafter.toLabelled, hafter.splits⟩

/-- **Run lemma.** -/
theorem run_labels (hv : v.Lawful) {events : List Event}
    (h : Along (step v) (PathsInPlace v) initial events) :
    (run (step v) initial events).globals.LabelsMatch v := by
  have hrun := run_invariant_of_along (I := fun p : TonopahProcess ι => p.globals.Labelled v ∧
      ∀ s ∈ p.globals.splits, s.1.isSome ∧ s.2 = s.1)
    (fun p event hp hplace => step_placed hv hp hplace)
    ⟨initial_labelled, by simp [initial]⟩ h
  exact ⟨hrun.2, hrun.1.head⟩

/-- Whenever one of the algorithms has split the window, the path that got the share of the dominant
path is the dominant one; and the newest interval names the dominant path. This is so in a run in
which the paths stand in place. -/
theorem labels_match (events : List Event) :
    (Along (step newTonopah) (PathsInPlace newTonopah) initial events →
      (run (step newTonopah) initial events).globals.LabelsMatch newTonopah) ∧
    (Along (step tonopah) (PathsInPlace tonopah) initial events →
      (run (step tonopah) initial events).globals.LabelsMatch tonopah) :=
  ⟨run_labels newTonopah_lawful, run_labels tonopah_lawful⟩

instance (v : TonopahVariant ι) (g : TonopahGlobals ι) (paths : List ℕ) :
    Decidable (g.InPlace v paths) :=
  decidable_of_iff ((g.dominantPath = g.path1 ∧ g.path1 = paths[0]? ∨
      g.dominantPath = g.path2 ∧ g.path2 = paths[1]?) ∧
    (v.alternates = true → g.path1 = paths[0]? ∧ g.path2 = paths[1]?))
    ⟨fun h => ⟨h.1, h.2⟩, fun h => ⟨h.1, h.2⟩⟩

instance (v : TonopahVariant ι) (p : TonopahProcess ι) :
    ∀ event, Decidable (PathsInPlace v p event)
  | .notify call =>
    inferInstanceAs (Decidable (∀ path ∈ (p.paths call.cnx)[(call.position : ℕ)]?,
      (p.paths call.cnx).length ≠ 1 → (p.globals.learnPath path).path1.isSome →
        (p.globals.learnPath path).path2.isSome →
          (p.globals.learnPath path).InPlace v (p.paths call.cnx)))
  | .create .. | .init .. | .promote .. | .delete .. => inferInstanceAs (Decidable True)

/-- A run in which the default path is notified first. -/
theorem labels_match_sample :
    (run (step newTonopah) initial acknowledgedInOrder).globals.splits.length = 6 ∧
      (run (step newTonopah) initial acknowledgedInOrder).globals.LabelsMatch newTonopah ∧
      (run (step tonopah) initial acknowledgedInOrder).globals.splits.length = 6 ∧
      (run (step tonopah) initial acknowledgedInOrder).globals.LabelsMatch tonopah :=
  ⟨by decide +kernel, (labels_match acknowledgedInOrder).1 (by decide +kernel),
    by decide +kernel, (labels_match acknowledgedInOrder).2 (by decide +kernel)⟩

/-- The second path is notified first. -/
def secondNotifiedFirst : List Event :=
  [.create 0 1 true, .create 0 2 true, .notify (call 0 1 .repeated 0 0 100000),
    .notify (call 0 0 .seedCwin 1 0 200000)]

/-- The second path gets the default path. -/
def promotedPath : List Event :=
  twoPaths ++ [.promote 0 true, .notify (call 0 0 .seedCwin 2 0 210000)]

/-- The shares are exchanged when the second path is notified first, or gets the default path. -/
theorem labels_swapped :
    ¬ (run (step newTonopah) initial secondNotifiedFirst).globals.LabelsMatch newTonopah ∧
      ¬ (run (step newTonopah) initial promotedPath).globals.LabelsMatch newTonopah ∧
      ¬ (run (step tonopah) initial promotedPath).globals.LabelsMatch tonopah := by
  refine ⟨?_, ?_, ?_⟩
  · intro h
    exact absurd h.splits (by decide +kernel)
  · intro h
    exact absurd h.splits (by decide +kernel)
  · intro h
    exact absurd h.splits (by decide +kernel)

end TonopahProcess

/-! ### The end of a process -/

namespace TonopahGlobals

variable {ι : Type} {v : TonopahVariant ι} {g : TonopahGlobals ι} {path : ℕ}

/-- The paths that are known. -/
def knownPaths (g : TonopahGlobals ι) : Finset ℕ := g.path1.toFinset ∪ g.path2.toFinset

theorem mem_knownPaths : path ∈ g.knownPaths ↔ g.isKnown path = true := by
  rw [knownPaths, Finset.mem_union, Option.mem_toFinset, Option.mem_toFinset, isKnown,
    decide_eq_true_iff]
  rfl

theorem card_knownPaths_le (g : TonopahGlobals ι) : g.knownPaths.card ≤ 2 := by
  refine (Finset.card_union_le _ _).trans ?_
  have h (o : Option ℕ) : o.toFinset.card ≤ 1 := by
    rcases o with _ | _
    · exact Nat.zero_le 1
    · exact le_rfl
  exact Nat.add_le_add (h g.path1) (h g.path2)

/-- **Invariant** of a process that goes on: the paths that were notified are those that are known,
and the list has as many intervals as it may have. -/
structure GoesOn (v : TonopahVariant ι) (g : TonopahGlobals ι) : Prop where
  order : g.path1 = none → g.path2 = none
  differ : ∀ path, g.path1 = some path → g.path2 ≠ some path
  fault : g.fault = none
  notified : g.notified.toFinset = g.knownPaths
  length : g.intervals.length ≤ v.kept

theorem length_recordIn (v : TonopahVariant ι) (n : Notification) (id : IntervalPathId)
    (ackNum : ℕ) (l : List (TrackedInterval ι)) :
    (recordIn v n id ackNum l).length = l.length := by
  rcases recordIn_cases v n id ackNum l with heq | ⟨newer, e, older, rfl, -, -, heq⟩
  · rw [heq]
  · rw [heq, List.length_append, List.length_append, List.length_cons, List.length_cons,
      List.length_modifyHead]

theorem GoesOn.recordAck (h : g.GoesOn v) (hknown : g.isKnown path = true) (n : Notification) :
    (g.recordAck v n path).GoesOn v := by
  rw [TonopahGlobals.recordAck, check, if_pos hknown]
  refine ⟨h.order, h.differ, h.fault, h.notified, ?_⟩
  exact (length_recordIn v n _ _ _).trans_le h.length

/-- The begin of an interval: the assertion holds, and the list is shortened. -/
theorem GoesOn.append (h : g.GoesOn v) (numbers : ℕ → ℕ) (now : ℕ) :
    (g.append v numbers now).GoesOn v := by
  have hlength : (g.newInterval v numbers :: g.intervals).length ≤ v.kept + 1 := by
    rw [List.length_cons]
    exact Nat.succ_le_succ h.length
  rw [TonopahGlobals.append, check, if_pos (decide_eq_true hlength)]
  refine ⟨h.order, h.differ, h.fault, h.notified, ?_⟩
  dsimp only
  split_ifs with hlong
  · rw [List.length_dropLast]
    exact Nat.sub_le_of_le_add hlength
  · exact not_lt.mp hlong

/-- The change of intervals. -/
theorem GoesOn.change (h : g.GoesOn v) (reset : Bool) (numbers : ℕ → ℕ) (now : ℕ) :
    (g.change v reset numbers now).GoesOn v := by
  have halternate : (g.alternate v).GoesOn v := by
    rw [alternate]
    split
    · exact ⟨h.order, h.differ, h.fault, h.notified, h.length⟩
    · exact h
  have hjudge : (g.alternate v).judge.GoesOn v :=
    ⟨halternate.order, halternate.differ, halternate.fault, halternate.notified, halternate.length⟩
  have hdelete : (g.alternate v).judge.deleteInfoList.GoesOn v :=
    ⟨halternate.order, halternate.differ, halternate.fault, halternate.notified, Nat.zero_le _⟩
  rw [TonopahGlobals.change]
  rcases reset with _ | _
  · exact hjudge.append numbers now
  · exact hdelete.append numbers now

/-- The change of intervals leaves a process that has ended as it is. -/
theorem change_ended (h : g.fault.isSome) (v : TonopahVariant ι) (reset : Bool) (numbers : ℕ → ℕ)
    (now : ℕ) : (g.change v reset numbers now).fault = g.fault ∧
      (g.change v reset numbers now).notified = g.notified := by
  obtain ⟨fault, hfault⟩ := Option.isSome_iff_exists.mp h
  have halternate : (g.alternate v).fault = g.fault ∧ (g.alternate v).notified = g.notified := by
    rw [alternate]
    split
    · exact ⟨rfl, rfl⟩
    · exact ⟨rfl, rfl⟩
  have hcheck (b : TonopahGlobals ι) (holds : Bool) (hb : b.fault = g.fault) :
      (b.check holds).fault = g.fault ∧ (b.check holds).notified = b.notified := by
    rcases holds with _ | _
    · refine ⟨?_, rfl⟩
      rw [check, if_neg Bool.false_ne_true, hb, hfault]
      rfl
    · exact ⟨hb, rfl⟩
  rw [change]
  rcases reset with _ | _
  · obtain ⟨hf, hn⟩ := hcheck (g.alternate v).judge _ halternate.1
    exact ⟨hf, hn.trans halternate.2⟩
  · obtain ⟨hf, hn⟩ := hcheck (g.alternate v).judge.deleteInfoList _ halternate.1
    exact ⟨hf, hn.trans halternate.2⟩

/-- A path is notified: it gets known, or two others are known. -/
theorem GoesOn.learnPath (h : g.GoesOn v) (path : ℕ) :
    let g' := (g.logPath path).learnPath path
    if g'.isKnown path then g'.GoesOn v else g'.fault = none ∧ 2 < g'.notified.toFinset.card := by
  have hlog : (path :: g.notified).toFinset = insert path g.knownPaths := by
    rw [List.toFinset_cons, h.notified]
  have hcases : (g.logPath path).learnPath path =
      if g.path1 = none then { g.logPath path with path1 := some path }
      else if g.path1 ≠ some path ∧ g.path2 = none then { g.logPath path with path2 := some path }
      else g.logPath path := rfl
  rw [hcases]
  split_ifs with h1 h2
  · have h2 : g.path2 = none := h.order h1
    have hknown : isKnown { g.logPath path with path1 := some path } path = true := by
      simp [isKnown]
    rw [if_pos hknown]
    refine ⟨by simp, ?_, h.fault, ?_, h.length⟩
    · intro p _ hp
      exact absurd (h2.symm.trans hp) (by simp)
    · refine hlog.trans ?_
      rw [knownPaths, knownPaths, h1]
      dsimp only [logPath]
      rw [h2]
      simp
  · have hknown : isKnown { g.logPath path with path2 := some path } path = true := by
      simp [isKnown]
    rw [if_pos hknown]
    refine ⟨fun hnone => absurd hnone h1, ?_, h.fault, ?_, h.length⟩
    · intro p hp hp2
      obtain rfl : path = p := Option.some.inj hp2
      exact h2.1 hp
    · refine hlog.trans ?_
      rw [knownPaths, knownPaths, h2.2]
      dsimp only [logPath]
      simp [Finset.union_comm]
  · have hsame : (g.logPath path).isKnown path = g.isKnown path := rfl
    dsimp only
    rw [hsame]
    by_cases hknown : g.isKnown path = true
    · rw [if_pos hknown]
      refine ⟨h.order, h.differ, h.fault, hlog.trans ?_, h.length⟩
      exact Finset.insert_eq_of_mem (mem_knownPaths.mpr hknown)
    · rw [if_neg hknown]
      refine ⟨h.fault, ?_⟩
      -- both paths are known, and neither is this one
      have hnew : path ∉ g.knownPaths := fun hmem => hknown (mem_knownPaths.mp hmem)
      have hother : ¬ (g.path1 = some path ∨ g.path2 = some path) := by
        rw [← decide_eq_true_iff (p := g.path1 = some path ∨ g.path2 = some path)]
        exact hknown
      obtain ⟨p1, hp1⟩ := Option.ne_none_iff_exists'.mp h1
      obtain ⟨p2, hp2⟩ := Option.ne_none_iff_exists'.mp
        fun hnone => h2 ⟨fun h1 => hother (Or.inl h1), hnone⟩
      have hne : p1 ≠ p2 := by
        rintro rfl
        exact h.differ p1 hp1 hp2
      have htwo : g.knownPaths.card = 2 := by
        rw [knownPaths, hp1, hp2]
        exact Finset.card_pair hne
      have hnotified : (g.logPath path).notified = path :: g.notified := rfl
      rw [hnotified, hlog, Finset.card_insert_of_notMem hnew, htwo]
      exact Nat.lt_succ_self 2

end TonopahGlobals

namespace TonopahProcess

variable {ι : Type} {v : TonopahVariant ι} {p : TonopahProcess ι}

/-- **Invariant.** The process goes on, or a third path was notified. -/
def Outcome (v : TonopahVariant ι) (g : TonopahGlobals ι) : Prop :=
  g.GoesOn v ∨ g.fault = some .unknownPath ∧ 2 < g.notified.toFinset.card

/-- A notification begins with the registration of its path: the process goes on if the path is
known then, and ends else. -/
theorem register_outcome {g : TonopahGlobals ι} (h : g.GoesOn v) {paths : List ℕ}
    (hlength : paths.length ≤ 2) (path path0 now : ℕ) :
    let g' := register g paths path path0 now
    g'.GoesOn v ∧ g'.isKnown path = true ∨
      g'.fault = some .unknownPath ∧ 2 < g'.notified.toFinset.card := by
  have hlearn := h.learnPath path
  dsimp only at hlearn
  rw [register, check, if_pos (decide_eq_true hlength)]
  generalize (g.logPath path).learnPath path = b at hlearn
  by_cases hknown : b.isKnown path = true
  · rw [if_pos hknown] at hlearn
    have hdominant : (b.makeDominant path0 now).GoesOn v ∧
        (b.makeDominant path0 now).isKnown path = b.isKnown path := by
      rw [makeDominant]
      split
      · exact ⟨⟨hlearn.order, hlearn.differ, hlearn.fault, hlearn.notified, hlearn.length⟩, rfl⟩
      · exact ⟨hlearn, rfl⟩
    dsimp only
    rw [if_pos hknown]
    exact Or.inl ⟨hdominant.1, hdominant.2.trans hknown⟩
  · rw [if_neg hknown] at hlearn
    dsimp only
    rw [if_neg hknown]
    refine Or.inr ⟨?_, hlearn.2⟩
    rw [hlearn.1]
    rfl

/-- **Step lemma.** -/
theorem step_outcome (hlength : ∀ cnx, (p.paths cnx).length ≤ 2) (h : Outcome v p.globals)
    (event : Event) : Outcome v (p.step v event).globals := by
  refine step_kept h event ?_
  rintro hnone call rfl
  have hgoes : p.globals.GoesOn v := by
    rcases h with h | ⟨hfault, -⟩
    · exact h
    · rw [hnone] at hfault
      exact absurd hfault (by simp)
  refine notify_kept h ?_
  intro path path0 _ _
  have hregister := register_outcome hgoes (hlength call.cnx) path path0 (call.clock 0)
  dsimp only at hregister ⊢
  generalize register p.globals (p.paths call.cnx) path path0 (call.clock 0) = g₀ at hregister ⊢
  rcases hregister with ⟨hon, hknown⟩ | hend
  · refine ⟨Or.inl hon, fun _ => ⟨Or.inl hon, ?_, ?_, ?_, ?_⟩⟩
    · intro g hg
      rcases hg with hg | hg
      · exact Or.inl ⟨hg.order, hg.differ, hg.fault, hg.notified, Nat.zero_le _⟩
      · exact Or.inr hg
    · intro _ _
      exact Or.inl (hon.recordAck hknown _)
    · intro g hg _ _ _ reset now
      rcases hg with hg | hg
      · exact Or.inl (hg.change reset _ now)
      · obtain ⟨hfault, hnotified⟩ := change_ended (by rw [hg.1]; rfl) v reset
          (fun path => (call.view path).pathPacketNumber) now
        exact Or.inr ⟨hfault.trans hg.1, hnotified ▸ hg.2⟩
    · intro g hg _ _ _
      rcases hg with hg | hg
      · exact Or.inl ⟨hg.order, hg.differ, hg.fault, hg.notified, hg.length⟩
      · exact Or.inr hg
  · refine ⟨Or.inr hend, fun hfault => ?_⟩
    rw [hend.1] at hfault
    exact absurd hfault (by simp)

/-- **Invariant.** The paths of a connection are its own; it has two at most. -/
structure Owned (p : TonopahProcess ι) : Prop where
  length : ∀ cnx, (p.paths cnx).length ≤ 2
  nodup : ∀ cnx, (p.paths cnx).Nodup
  owner : ∀ cnx, ∀ path ∈ p.paths cnx, p.owner path = some cnx

theorem Owned.of_frame {q : TonopahProcess ι} (h : p.Owned) (hpaths : q.paths = p.paths)
    (howner : q.owner = p.owner) : q.Owned := by
  refine ⟨?_, ?_, ?_⟩
  · rw [hpaths]
    exact h.length
  · rw [hpaths]
    exact h.nodup
  · rw [hpaths, howner]
    exact h.owner

/-- Other paths for one connection, and other owners for paths that no other connection has. -/
theorem Owned.setPaths {q : TonopahProcess ι} (h : p.Owned) {cnx : ℕ} {paths : List ℕ}
    (hpaths : q.paths = Function.update p.paths cnx paths) (hlength : paths.length ≤ 2)
    (hnodup : paths.Nodup) (hown : ∀ path ∈ paths, q.owner path = some cnx)
    (hother : ∀ path, q.owner path ≠ p.owner path →
      p.owner path = none ∨ p.owner path = some cnx) : q.Owned := by
  have hself : q.paths cnx = paths := by
    rw [hpaths]
    exact Function.update_self ..
  have hne (cnx' : ℕ) (hne : cnx' ≠ cnx) : q.paths cnx' = p.paths cnx' := by
    rw [hpaths]
    exact Function.update_of_ne hne ..
  refine ⟨?_, ?_, ?_⟩
  · intro cnx'
    by_cases hcnx : cnx' = cnx
    · rw [hcnx, hself]
      exact hlength
    · rw [hne cnx' hcnx]
      exact h.length cnx'
  · intro cnx'
    by_cases hcnx : cnx' = cnx
    · rw [hcnx, hself]
      exact hnodup
    · rw [hne cnx' hcnx]
      exact h.nodup cnx'
  · intro cnx' path hpath
    by_cases hcnx : cnx' = cnx
    · rw [hcnx, hself] at hpath
      rw [hcnx]
      exact hown path hpath
    · rw [hne cnx' hcnx] at hpath
      have hold := h.owner cnx' path hpath
      by_contra hnew
      rcases hother path fun heq => hnew (heq.trans hold) with hnone | hsome
      · exact absurd (hold.symm.trans hnone) (by simp)
      · exact hcnx (Option.some.inj (hold.symm.trans hsome))

/-- **Step lemma.** -/
theorem step_owned (h : p.Owned) (event : Event) : (p.step v event).Owned := by
  rw [step]
  split
  · exact h
  rcases event with ⟨cnx, path, isAllocated⟩ | ⟨cnx, position, isAllocated⟩ | ⟨cnx, isAllocated⟩ |
    ⟨cnx, position⟩ | call
  · rw [advance]
    split_ifs with hfree
    · obtain ⟨hlength, hnone⟩ := hfree
      refine Owned.of_frame ?_ (init_frame _ _).2.1 (init_frame _ _).2.2
      refine h.setPaths rfl ?_ ?_ ?_ ?_
      · rw [List.length_append, List.length_singleton]
        exact hlength
      · refine (h.nodup cnx).append (List.nodup_singleton path) ?_
        intro p' hp' hpath
        obtain rfl := List.mem_singleton.mp hpath
        exact absurd ((h.owner cnx p' hp').symm.trans hnone) (by simp)
      · intro p' hp'
        rcases List.mem_append.mp hp' with hp' | hpath
        · rcases eq_or_ne p' path with rfl | hne
          · exact Function.update_self ..
          · exact (Function.update_of_ne hne ..).trans (h.owner cnx p' hp')
        · obtain rfl := List.mem_singleton.mp hpath
          exact Function.update_self ..
      · intro p' hne
        rcases eq_or_ne p' path with rfl | hother
        · exact Or.inl hnone
        · exact absurd (Function.update_of_ne hother ..) hne
    · exact h
  · rw [advance]
    split
    · exact h.of_frame (init_frame _ _).2.1 (init_frame _ _).2.2
    · exact h
  · rw [advance]
    split
    next path0 path1 hpaths =>
      refine Owned.of_frame ?_ (init_frame _ _).2.1 (init_frame _ _).2.2
      have hswap : [path1, path0].Perm (p.paths cnx) := by
        rw [hpaths]
        exact List.Perm.swap path0 path1 []
      refine h.setPaths rfl
        (hswap.length_eq.trans_le (h.length cnx)) (hswap.nodup_iff.mpr (h.nodup cnx)) ?_
        fun _ hne => absurd rfl hne
      intro path hpath
      exact h.owner cnx path (hswap.subset hpath)
    next => exact h
  · rw [advance]
    split
    next path hpath =>
      have hsub := (p.paths cnx).eraseIdx_sublist position
      refine h.setPaths rfl
        (hsub.length_le.trans (h.length cnx)) (hsub.nodup (h.nodup cnx)) ?_ ?_
      · intro p' hp'
        -- the deleted path was there only once
        have hne : p' ≠ path := by
          rintro rfl
          obtain ⟨i, hi, hget⟩ := List.mem_eraseIdx_iff_getElem?.mp hp'
          have hlt : i < (p.paths cnx).length := (List.getElem?_eq_some_iff.mp hget).1
          exact hi ((List.getElem?_inj hlt (h.nodup cnx)).mp (hget.trans hpath.symm))
        exact (Function.update_of_ne hne ..).trans (h.owner cnx p' (hsub.subset hp'))
      · intro p' hne
        rcases eq_or_ne p' path with rfl | hother
        · exact Or.inr (h.owner cnx p' (List.mem_of_getElem? hpath))
        · exact absurd (Function.update_of_ne hother ..) hne
    next => exact h
  · exact h.of_frame notify_frame.1 notify_frame.2

/-- **Run lemma.** -/
theorem run_outcome (v : TonopahVariant ι) (events : List Event) :
    (run (step v) initial events).Owned ∧ Outcome v (run (step v) initial events).globals := by
  refine run_invariant (I := fun p : TonopahProcess ι => p.Owned ∧ Outcome v p.globals)
    (fun p event h => ⟨step_owned h.1 event, step_outcome h.1.length h.2 event⟩) ?_ events
  refine ⟨⟨fun _ => Nat.zero_le 2, fun _ => List.nodup_nil, fun _ _ h => ?_⟩, Or.inl ?_⟩
  · exact absurd h List.not_mem_nil
  · exact ⟨fun _ => rfl, fun _ h => absurd h (by simp [initial]), rfl, rfl, Nat.zero_le _⟩

end TonopahProcess

/-! ### Whose paths are known -/

namespace TonopahGlobals

variable {ι : Type} {v : TonopahVariant ι} {g : TonopahGlobals ι} {path : ℕ}

/-- The algorithm compares or measures this path. -/
def RefersTo (g : TonopahGlobals ι) (path : ℕ) : Prop :=
  g.path1 = some path ∨ g.path2 = some path ∨ g.dominantPath = some path

instance (g : TonopahGlobals ι) (path : ℕ) : Decidable (g.RefersTo path) :=
  inferInstanceAs (Decidable (_ ∨ _))

/-- The change of intervals takes no other path. -/
theorem refersTo_of_change {reset : Bool} {numbers : ℕ → ℕ} {now : ℕ}
    (h : (g.change v reset numbers now).RefersTo path) : g.RefersTo path := by
  have halternate : (g.alternate v).RefersTo path → g.RefersTo path := by
    rw [alternate]
    split_ifs
    · rintro (h1 | h2 | h2)
      · exact Or.inl h1
      · exact Or.inr (Or.inl h2)
      · exact Or.inr (Or.inl h2)
    · rintro (h1 | h2 | h1)
      · exact Or.inl h1
      · exact Or.inr (Or.inl h2)
      · exact Or.inl h1
    · exact id
  have happend (b : TonopahGlobals ι) (h : (b.append v numbers now).RefersTo path) :
      b.RefersTo path := by
    obtain ⟨h1, h2, hdominant, -⟩ := b.append_frame v numbers now
    rw [RefersTo, h1, h2, hdominant] at h
    exact h
  rw [change] at h
  rcases reset with _ | _
  · have hjudge := happend _ h
    exact halternate hjudge
  · have hdelete := happend _ h
    exact halternate hdelete

end TonopahGlobals

namespace TonopahProcess

variable {ι : Type} {v : TonopahVariant ι} {p : TonopahProcess ι} {cnx : ℕ}

/-- Only this connection notifies, and no path is deleted that the algorithm refers to. -/
def KeepsPaths (cnx : ℕ) (p : TonopahProcess ι) : Event → Prop
  | .notify call => call.cnx = cnx
  | .delete cnx' position => ∀ path ∈ (p.paths cnx')[(position : ℕ)]?, ¬ p.globals.RefersTo path
  | _ => True

instance (cnx : ℕ) (p : TonopahProcess ι) : ∀ event, Decidable (KeepsPaths cnx p event)
  | .notify call => inferInstanceAs (Decidable (call.cnx = cnx))
  | .delete cnx' position => inferInstanceAs (Decidable
      (∀ path ∈ (p.paths cnx')[(position : ℕ)]?, ¬ p.globals.RefersTo path))
  | .create .. | .init .. | .promote .. => inferInstanceAs (Decidable True)

/-- The algorithm refers to paths of this connection only. -/
def RefersToOwn (cnx : ℕ) (p : TonopahProcess ι) : Prop :=
  ∀ path, p.globals.RefersTo path → p.owner path = some cnx

/-- A notification refers to what it finds, and to paths of its connection. -/
theorem register_refersTo {g : TonopahGlobals ι} {paths : List ℕ} {path path0 now q : ℕ}
    (h : (register g paths path path0 now).RefersTo q) : g.RefersTo q ∨ q = path ∨ q = path0 := by
  obtain ⟨-, -, -, hpath1, hpath2, hdominant⟩ := register_frame g paths path path0 now
  have hlearn : ((g.learnPath path).path1 = some q → g.path1 = some q ∨ q = path) ∧
      ((g.learnPath path).path2 = some q → g.path2 = some q ∨ q = path) := by
    rw [learnPath]
    split_ifs
    · exact ⟨fun hq => Or.inr (Option.some.inj hq).symm, Or.inl⟩
    · exact ⟨Or.inl, fun hq => Or.inr (Option.some.inj hq).symm⟩
    · exact ⟨Or.inl, Or.inl⟩
  rcases h with h | h | h
  · rw [hpath1] at h
    rcases hlearn.1 h with hq | hq
    · exact Or.inl (Or.inl hq)
    · exact Or.inr (Or.inl hq)
  · rw [hpath2] at h
    rcases hlearn.2 h with hq | hq
    · exact Or.inl (Or.inr (Or.inl hq))
    · exact Or.inr (Or.inl hq)
  · rw [hdominant] at h
    split_ifs at h
    · exact Or.inr (Or.inr (Option.some.inj h).symm)
    · exact Or.inl (Or.inr (Or.inr h))

/-- A notification of this connection. -/
theorem notify_refersToOwn (hown : p.Owned) (h : RefersToOwn cnx p) {call : TonopahCall}
    (hcnx : call.cnx = cnx) : RefersToOwn cnx (p.notify v call) := by
  have hkept : ∀ path, (p.notify v call).globals.RefersTo path → p.owner path = some cnx := by
    refine notify_kept (I := fun g => ∀ path, g.RefersTo path → p.owner path = some cnx) h ?_
    intro path path0 hpath hpath0
    have hregister : ∀ q, (register p.globals (p.paths call.cnx) path path0
        (call.clock 0)).RefersTo q → p.owner q = some cnx := by
      intro q hq
      rcases register_refersTo hq with hq | rfl | rfl
      · exact h q hq
      · exact hcnx ▸ hown.owner _ _ (List.mem_of_getElem? hpath)
      · exact hcnx ▸ hown.owner _ _ (List.mem_of_getElem? hpath0)
    refine ⟨hregister, fun _ => ⟨hregister, ?_, ?_, ?_, ?_⟩⟩
    · intro g hg
      exact hg
    · intro _ _ q hq
      obtain ⟨h1, h2, hdominant, -⟩ := recordAck_frame
        (register p.globals (p.paths call.cnx) path path0 (call.clock 0)) v
        (call.toNotification (p.paths call.cnx)) path
      rw [TonopahGlobals.RefersTo, h1, h2, hdominant] at hq
      exact hregister q hq
    · intro g hg _ _ _ reset now q hq
      exact hg q (refersTo_of_change hq)
    · intro g hg _ _ _
      exact hg
  intro path hpath
  rw [notify_frame.2]
  exact hkept path hpath

/-- An event that is not a notification takes no path from this connection but a deleted one. -/
theorem advance_owner (hnotify : ∀ call, event ≠ .notify call) (h : RefersToOwn cnx p)
    (hkeeps : KeepsPaths cnx p event) :
    ∀ path, p.globals.RefersTo path → (p.advance v event).owner path = some cnx := by
  intro path hpath
  have hold := h path hpath
  rcases event with ⟨cnx', path', isAllocated⟩ | ⟨cnx', position, isAllocated⟩ |
    ⟨cnx', isAllocated⟩ | ⟨cnx', position⟩ | call
  · rw [advance]
    split_ifs with hfree
    · have hne : path ≠ path' := by
        rintro rfl
        exact absurd (hold.symm.trans hfree.2) (by simp)
      rw [(init_frame _ _).2.2]
      exact (Function.update_of_ne hne ..).trans hold
    · exact hold
  · rw [advance]
    split
    · rw [(init_frame _ _).2.2]
      exact hold
    · exact hold
  · rw [advance]
    split
    · rw [(init_frame _ _).2.2]
      exact hold
    · exact hold
  · rw [advance]
    split
    next path' hpath' =>
      have hne : path ≠ path' := by
        rintro rfl
        exact hkeeps path hpath' hpath
      exact (Function.update_of_ne hne ..).trans hold
    next => exact hold
  · exact absurd rfl (hnotify call)

/-- **Step lemma.** -/
theorem step_refersToOwn (hown : p.Owned) (h : RefersToOwn cnx p)
    (hkeeps : KeepsPaths cnx p event) : RefersToOwn cnx (p.step v event) := by
  rw [step]
  split
  · exact h
  by_cases hnotify : ∃ call, event = .notify call
  · obtain ⟨call, rfl⟩ := hnotify
    exact notify_refersToOwn hown h hkeeps
  · have hother : ∀ call, event ≠ .notify call := fun call hcall => hnotify ⟨call, hcall⟩
    intro path hpath
    rw [advance_globals hother] at hpath
    exact advance_owner hother h hkeeps path hpath

/-- The outcome of a run: no assertion fails, and `abort` is reached when a third path is notified.
As long as one connection notifies, and keeps the paths that are known, the algorithm refers to its
paths only. -/
theorem notify_outcome (events : List Event) :
    let p := run (step newTonopah) initial events
    p.globals.fault ≠ some .assertion ∧
      (p.globals.fault = some .unknownPath ↔ 2 < p.globals.notified.toFinset.card) ∧
      ∀ cnx, Along (step newTonopah) (KeepsPaths cnx) initial events →
        ∀ path, p.globals.RefersTo path → p.owner path = some cnx := by
  obtain ⟨-, houtcome⟩ := run_outcome newTonopah events
  refine ⟨?_, ?_, ?_⟩
  · rcases houtcome with hon | ⟨hfault, -⟩
    · rw [hon.fault]
      exact Option.some_ne_none _ |>.symm
    · rw [hfault]
      decide
  · rcases houtcome with hon | ⟨hfault, hthree⟩
    · have hcard := (run (step newTonopah) initial events).globals.card_knownPaths_le
      rw [hon.fault, hon.notified]
      exact iff_of_false (by simp) (not_lt.mpr hcard)
    · exact iff_of_true hfault hthree
  · intro cnx hkeeps
    have hrun := run_invariant_of_along
      (I := fun p : TonopahProcess IntervalInfo => p.Owned ∧ RefersToOwn cnx p)
      (fun p event hp hevent => ⟨step_owned hp.1 event, step_refersToOwn hp.1 hp.2 hevent⟩) ?_
      hkeeps
    · exact hrun.2
    · refine ⟨(run_outcome newTonopah []).1, ?_⟩
      rintro path (h | h | h)
      · exact absurd h (by simp [initial])
      · exact absurd h (by simp [initial])
      · exact absurd h (by simp [initial])

/-- One connection, which keeps its paths. -/
theorem notify_outcome_sample :
    let p := run (step newTonopah) initial acknowledgedInOrder
    p.globals.RefersTo 1 ∧ p.globals.RefersTo 2 ∧
      (∀ path, p.globals.RefersTo path → p.owner path = some 0) ∧
      (p.globals.fault = some .unknownPath ↔ 2 < p.globals.notified.toFinset.card) :=
  ⟨by decide +kernel, by decide +kernel,
    (notify_outcome acknowledgedInOrder).2.2 0 (by decide +kernel),
    (notify_outcome acknowledgedInOrder).2.1⟩

/-- Two connections with a path each, and a third one. -/
def thirdConnection : List Event :=
  [.create 0 1 true, .create 1 2 true, .create 2 3 true, .notify (call 0 0 .seedCwin 0 0 100000),
    .notify (call 1 0 .seedCwin 1 0 200000), .notify (call 2 0 .seedCwin 1 0 300000)]

/-- The paths of two connections are compared, and the third connection ends the process. -/
theorem third_path_aborts :
    (run (step newTonopah) initial thirdConnection).globals.fault = some .unknownPath ∧
      (run (step newTonopah) initial thirdConnection).globals.path1 = some 1 ∧
      (run (step newTonopah) initial thirdConnection).owner 1 = some 0 ∧
      (run (step newTonopah) initial thirdConnection).globals.path2 = some 2 ∧
      (run (step newTonopah) initial thirdConnection).owner 2 = some 1 := by
  decide +kernel

end TonopahProcess

end Picoquic
