import Mathlib.Data.Bool.Count
import Picoquic.Congestion.Process

/-!
# The intervals of a process

What holds of the intervals in every state of a process, whichever connections it has and whatever
becomes of their paths.

* **`verdicts_fair`** — the dominant paths of `tonopah.c` alternate from interval to interval, and a
  verdict is drawn from four intervals in a row that are finished for both paths, two for each
  dominant path;
* **`intervals_close_in_order`** — once an acknowledgement belongs to an interval, all older
  intervals are finished for its path, in a run in which no acknowledgement passes over an interval
  that is not finished;
* **`interval_passed_over`** — an acknowledgement that does leaves this interval open.
-/

namespace Picoquic

open Runs TonopahGlobals BandwidthInterval

/-! ### What the algorithms have in common -/

/-- How the operations on an interval act on what is known of it. -/
structure TonopahVariant.Lawful {ι : Type} (v : TonopahVariant ι) : Prop where
  dominantPathId_fresh : ∀ first d, v.dominantPathId (v.fresh first d) = d
  dominantPathId_count : ∀ n id e, v.dominantPathId (v.count n id e) = v.dominantPathId e
  dominantPathId_finish : ∀ id e, v.dominantPathId (v.finish id e) = v.dominantPathId e
  finished_fresh : ∀ first d id, v.finished (v.fresh first d) id = false
  finished_count : ∀ n id e id', v.finished (v.count n id e) id' = v.finished e id'
  finished_finish : ∀ id e id', v.finished e id' = true → v.finished (v.finish id e) id' = true
  finished_finish_of_ne : ∀ id e id', id' ≠ id → v.finished (v.finish id e) id' = v.finished e id'

theorem newTonopah_lawful : newTonopah.Lawful where
  dominantPathId_fresh _ _ := rfl
  dominantPathId_count _ _ _ := rfl
  dominantPathId_finish _ _ := rfl
  finished_fresh _ _ _ := rfl
  finished_count n id e id' := by
    rcases eq_or_ne id' id with rfl | hne
    · simp [newTonopah, IntervalInfo.modifySide, Notification.count]
    · simp [newTonopah, IntervalInfo.modifySide, hne]
  finished_finish id e id' h := by
    rcases eq_or_ne id' id with rfl | hne
    · simp [newTonopah, IntervalInfo.finish, IntervalInfo.modifySide]
    · simpa [newTonopah, IntervalInfo.finish, IntervalInfo.modifySide, hne] using h
  finished_finish_of_ne id e id' hne := by
    simp [newTonopah, IntervalInfo.finish, IntervalInfo.modifySide, hne]

theorem tonopah_lawful : tonopah.Lawful where
  dominantPathId_fresh _ _ := rfl
  dominantPathId_count _ _ _ := rfl
  dominantPathId_finish _ _ := rfl
  finished_fresh _ _ _ := rfl
  finished_count n id e id' := by
    rcases eq_or_ne id' id with rfl | hne
    · simp [tonopah, modifySide, BandwidthSide.count]
    · simp [tonopah, modifySide, hne]
  finished_finish id e id' h := by
    rcases eq_or_ne id' id with rfl | hne
    · have hside : (e.side id').finished = true := h
      simp [tonopah, modifySide, BandwidthSide.finish, hside]
    · simpa [tonopah, modifySide, hne] using h
  finished_finish_of_ne id e id' hne := by
    simp [tonopah, modifySide, hne]

namespace TonopahGlobals

variable {ι : Type} {v : TonopahVariant ι} {g : TonopahGlobals ι}

/-- What an acknowledgement does to the intervals: nothing, or it is counted and finishes an
interval. -/
theorem recordIn_cases (v : TonopahVariant ι) (n : Notification) (id : IntervalPathId) (ackNum : ℕ)
    (l : List (TrackedInterval ι)) :
    recordIn v n id ackNum l = l ∨ ∃ newer e older, l = newer ++ e :: older ∧
      (∀ e' ∈ newer, ackNum < v.firstSeqNum e'.info id) ∧ v.firstSeqNum e.info id ≤ ackNum ∧
      recordIn v n id ackNum l = newer ++
        ⟨v.count n id e.info, Function.update e.acknowledged id true⟩ ::
          older.modifyHead fun e => { e with info := v.finish id e.info } := by
  induction l with
  | nil => exact Or.inl rfl
  | cons x l ih =>
    rw [recordIn]
    split_ifs with hx
    · exact Or.inr ⟨[], x, l, rfl, by simp, hx, rfl⟩
    · rcases ih with heq | ⟨newer, e, older, rfl, hnewer, he, heq⟩
      · exact Or.inl (by rw [heq])
      · refine Or.inr ⟨x :: newer, e, older, rfl, ?_, he, by rw [heq]; rfl⟩
        intro e' he'
        rcases List.mem_cons.mp he' with rfl | he'
        · exact not_le.mp hx
        · exact hnewer e' he'

/-- The dominant paths of the intervals stay when an acknowledgement is recorded. -/
theorem map_dominant_recordIn (hv : v.Lawful) (n : Notification) (id : IntervalPathId)
    (ackNum : ℕ) (l : List (TrackedInterval ι)) :
    (recordIn v n id ackNum l).map (fun e => v.dominantPathId e.info) =
      l.map fun e => v.dominantPathId e.info := by
  rcases recordIn_cases v n id ackNum l with heq | ⟨newer, e, older, rfl, -, -, heq⟩
  · rw [heq]
  · have holder : (older.modifyHead fun e => { e with info := v.finish id e.info }).map
        (fun e => v.dominantPathId e.info) = older.map fun e => v.dominantPathId e.info := by
      rcases older with _ | ⟨e', older⟩
      · rfl
      · simp [hv.dominantPathId_finish]
    rw [heq, List.map_append, List.map_append, List.map_cons, List.map_cons, holder,
      hv.dominantPathId_count]

variable {id' : IntervalPathId}

/-- The newest interval is not finished by an acknowledgement. -/
theorem recordIn_newest (hv : v.Lawful) (n : Notification) (id : IntervalPathId) (ackNum : ℕ)
    {l : List (TrackedInterval ι)} (h : ∀ e ∈ l.head?, v.finished e.info id' = false) :
    ∀ e ∈ (recordIn v n id ackNum l).head?, v.finished e.info id' = false := by
  rcases l with _ | ⟨x, l⟩
  · exact h
  · intro e he
    have hx : v.finished x.info id' = false := h x rfl
    rw [recordIn] at he
    split_ifs at he
    · obtain rfl : _ = e := Option.some.inj he
      rw [hv.finished_count]
      exact hx
    · obtain rfl : x = e := Option.some.inj he
      exact hx

/-! ### The newest interval -/

/-- The path that the intervals name so. -/
def pathOf (g : TonopahGlobals ι) : IntervalPathId → Option ℕ
  | .path1 => g.path1
  | .path2 => g.path2

/-- **Invariant.** The newest interval names the dominant path of today. While there are intervals,
both paths are known. -/
structure Labelled (v : TonopahVariant ι) (g : TonopahGlobals ι) : Prop where
  order : g.path1 = none → g.path2 = none
  differ : ∀ path, g.path1 = some path → g.path2 ≠ some path
  known : g.intervals ≠ [] → g.path1.isSome ∧ g.path2.isSome
  head : ∀ e ∈ g.infos.head?, g.pathOf (v.dominantPathId e) = g.dominantPath

section

variable (h : g.Labelled v)

include h

theorem Labelled.check (holds : Bool) : (g.check holds).Labelled v := by
  rw [TonopahGlobals.check]
  split
  · exact h
  · exact ⟨h.order, h.differ, h.known, h.head⟩

theorem Labelled.deleteInfoList : g.deleteInfoList.Labelled v where
  order := h.order
  differ := h.differ
  known hne := absurd rfl hne
  head _ he := by simp [TonopahGlobals.deleteInfoList, infos] at he

theorem Labelled.intervals_eq_nil (hunknown : g.path1 = none ∨ g.path2 = none) :
    g.intervals = [] := by
  by_contra hne
  have hknown := h.known hne
  rcases hunknown with hnone | hnone
  · simp [hnone] at hknown
  · simp [hnone] at hknown

theorem Labelled.learnPath (path : ℕ) : (g.learnPath path).Labelled v := by
  rw [TonopahGlobals.learnPath]
  split_ifs with h1 h2
  · have hempty := h.intervals_eq_nil (Or.inl h1)
    refine ⟨fun hnone => absurd hnone (by simp), ?_, fun hne => absurd hempty hne, ?_⟩
    · intro p _ hp
      exact absurd ((h.order h1).symm.trans hp) (by simp)
    · intro e he
      simp [infos, hempty] at he
  · have hempty := h.intervals_eq_nil (Or.inr h2.2)
    refine ⟨fun hnone => absurd hnone h1, ?_, fun hne => absurd hempty hne, ?_⟩
    · intro p hp hp2
      obtain rfl : path = p := Option.some.inj hp2
      exact h2.1 hp
    · intro e he
      simp [infos, hempty] at he
  · exact h

theorem Labelled.makeDominant (path0 now : ℕ) :
    (g.makeDominant path0 now).Labelled v := by
  rw [TonopahGlobals.makeDominant]
  split_ifs with hnone
  · refine ⟨h.order, h.differ, h.known, ?_⟩
    intro e he
    -- the newest interval names a path that is known
    have hne : g.intervals ≠ [] := by
      intro hnil
      simp [infos, hnil] at he
    have hknown := h.known hne
    have hpath := h.head e he
    rw [hnone] at hpath
    generalize v.dominantPathId e = id at hpath
    rcases id with _ | _
    · exact absurd hpath (Option.isSome_iff_ne_none.mp hknown.1)
    · exact absurd hpath (Option.isSome_iff_ne_none.mp hknown.2)
  · exact h

end

/-- The dominant paths of the intervals stay when an acknowledgement is recorded. -/
theorem map_dominant_recordAck (hv : v.Lawful) (g : TonopahGlobals ι) (n : Notification)
    (path : ℕ) :
    (g.recordAck v n path).infos.map v.dominantPathId = g.infos.map v.dominantPathId := by
  have hcheck : (g.check (g.isKnown path)).intervals = g.intervals := by
    rw [check]
    split
    · rfl
    · rfl
  rw [infos, infos, List.map_map, List.map_map, ← hcheck]
  exact map_dominant_recordIn hv n _ _ _

theorem Labelled.recordAck (hv : v.Lawful) (h : g.Labelled v) (n : Notification) (path : ℕ) :
    (g.recordAck v n path).Labelled v := by
  have hcheck := h.check (g.isKnown path)
  have hmap := map_dominant_recordAck hv g n path
  have hinfos : (g.check (g.isKnown path)).infos = g.infos := by
    rw [TonopahGlobals.check]
    split
    · rfl
    · rfl
  rw [← hinfos] at hmap
  refine ⟨hcheck.order, hcheck.differ, ?_, ?_⟩
  · intro hne
    refine hcheck.known fun hnil => hne ?_
    rw [TonopahGlobals.recordAck]
    dsimp only
    rw [hnil, recordIn]
  · intro e he
    have hhead := congrArg List.head? hmap
    rw [List.head?_map, List.head?_map, Option.mem_def.mp he] at hhead
    obtain ⟨e', he', hid⟩ := Option.map_eq_some_iff.mp hhead.symm
    exact hid ▸ hcheck.head e' he'

/-- What the begin of an interval leaves. -/
theorem append_frame (g : TonopahGlobals ι) (v : TonopahVariant ι) (numbers : ℕ → ℕ) (now : ℕ) :
    (g.append v numbers now).path1 = g.path1 ∧ (g.append v numbers now).path2 = g.path2 ∧
      (g.append v numbers now).dominantPath = g.dominantPath ∧
      (g.append v numbers now).judged = g.judged ∧ (g.append v numbers now).splits = g.splits := by
  rw [append]
  dsimp only
  rw [check]
  split
  · exact ⟨rfl, rfl, rfl, rfl, rfl⟩
  · exact ⟨rfl, rfl, rfl, rfl, rfl⟩

theorem append_intervals (g : TonopahGlobals ι) (v : TonopahVariant ι) (numbers : ℕ → ℕ)
    (now : ℕ) :
    (g.append v numbers now).intervals <+: g.newInterval v numbers :: g.intervals := by
  rw [append]
  dsimp only
  split_ifs
  · exact List.dropLast_prefix _
  · exact List.prefix_rfl

theorem head_append (numbers : ℕ → ℕ) (now : ℕ) :
    ∀ e ∈ (g.append v numbers now).intervals.head?, e = g.newInterval v numbers := by
  intro e he
  obtain ⟨t, ht⟩ := g.append_intervals v numbers now
  obtain ⟨l, hl⟩ := List.head?_eq_some_iff.mp he
  rw [hl] at ht
  exact (List.cons.inj ht).1

/-- The begin of an interval, for a dominant path that is known. -/
theorem Labelled.append (hv : v.Lawful) {numbers : ℕ → ℕ} {now : ℕ} (h1 : g.path1.isSome)
    (h2 : g.path2.isSome) (differ : ∀ path, g.path1 = some path → g.path2 ≠ some path)
    (head : g.pathOf (if g.dominantPath = g.path1 then .path1 else .path2) = g.dominantPath) :
    (g.append v numbers now).Labelled v := by
  obtain ⟨hpath1, hpath2, hdominant, -, -⟩ := g.append_frame v numbers now
  refine ⟨?_, ?_, ?_, ?_⟩
  · intro hnone
    rw [hpath1] at hnone
    exact absurd hnone (Option.isSome_iff_ne_none.mp h1)
  · rw [hpath1, hpath2]
    exact differ
  · rw [hpath1, hpath2]
    exact fun _ => ⟨h1, h2⟩
  · intro e he
    rw [infos, List.head?_map] at he
    obtain ⟨e', he', rfl⟩ := Option.map_eq_some_iff.mp he
    have hid : v.dominantPathId (g.newInterval v numbers).info =
        if g.dominantPath = g.path1 then .path1 else .path2 := hv.dominantPathId_fresh _ _
    have hnames (id : IntervalPathId) : (g.append v numbers now).pathOf id = g.pathOf id := by
      rcases id with _ | _
      · exact hpath1
      · exact hpath2
    rw [head_append _ _ e' he', hid, hdominant, hnames]
    exact head

/-! ### The dominant paths alternate -/

/-- **Invariant.** The dominant paths of the intervals alternate; the newest interval is not
finished. What was judged was such a list. -/
structure Alternates (v : TonopahVariant ι) (g : TonopahGlobals ι) : Prop extends
    Labelled v g where
  chain : (g.infos.map v.dominantPathId).IsChain (· ≠ ·)
  newest : ∀ e ∈ g.intervals.head?, v.finished e.info .path1 = false
  judged : ∀ l ∈ g.judged, (l.map v.dominantPathId).IsChain (· ≠ ·) ∧
    ∀ e ∈ l.head?, v.finished e .path1 = false

/-- Other global variables, with the intervals and what was judged of them. -/
theorem Alternates.of_labelled {g' : TonopahGlobals ι} (h : g.Alternates v) (h' : g'.Labelled v)
    (hintervals : g'.intervals = g.intervals) (hjudged : g'.judged = g.judged) :
    g'.Alternates v := by
  refine ⟨h', ?_, ?_, ?_⟩
  · rw [infos, hintervals]
    exact h.chain
  · rw [hintervals]
    exact h.newest
  · rw [hjudged]
    exact h.judged

theorem Alternates.deleteInfoList (h : g.Alternates v) : g.deleteInfoList.Alternates v where
  toLabelled := h.toLabelled.deleteInfoList
  chain := List.isChain_nil
  newest _ he := by simp [TonopahGlobals.deleteInfoList] at he
  judged := h.judged

theorem Alternates.recordAck (hv : v.Lawful) (h : g.Alternates v) (n : Notification) (path : ℕ) :
    (g.recordAck v n path).Alternates v := by
  have hcheck : (g.check (g.isKnown path)).intervals = g.intervals ∧
      (g.check (g.isKnown path)).judged = g.judged := by
    rw [check]
    split
    · exact ⟨rfl, rfl⟩
    · exact ⟨rfl, rfl⟩
  refine ⟨h.toLabelled.recordAck hv n path, ?_, ?_, ?_⟩
  · rw [map_dominant_recordAck hv]
    exact h.chain
  · refine recordIn_newest hv n _ _ ?_
    rw [hcheck.1]
    exact h.newest
  · intro l hl
    exact h.judged l (hcheck.2 ▸ hl)

/-- The begin of an interval, for a dominant path that is not that of the newest interval. -/
theorem Alternates.append (hv : v.Lawful) {numbers : ℕ → ℕ} {now : ℕ} (h1 : g.path1.isSome)
    (h2 : g.path2.isSome) (differ : ∀ path, g.path1 = some path → g.path2 ≠ some path)
    (head : g.pathOf (if g.dominantPath = g.path1 then .path1 else .path2) = g.dominantPath)
    (other : ∀ e ∈ g.infos.head?, g.pathOf (v.dominantPathId e) ≠ g.dominantPath)
    (chain : (g.infos.map v.dominantPathId).IsChain (· ≠ ·))
    (judged : ∀ l ∈ g.judged, (l.map v.dominantPathId).IsChain (· ≠ ·) ∧
      ∀ e ∈ l.head?, v.finished e .path1 = false) :
    (g.append v numbers now).Alternates v := by
  have hid : v.dominantPathId (g.newInterval v numbers).info =
      if g.dominantPath = g.path1 then .path1 else .path2 := hv.dominantPathId_fresh _ _
  refine ⟨.append hv h1 h2 differ head, ?_, ?_, ?_⟩
  · -- the new interval has another dominant path than the newest of the old ones
    have hlist : ((g.newInterval v numbers :: g.intervals).map
        (v.dominantPathId ∘ TrackedInterval.info)).IsChain (· ≠ ·) := by
      rw [infos, List.map_map] at chain
      rw [List.map_cons, List.isChain_cons]
      refine ⟨?_, chain⟩
      intro id hidmem heq
      rw [List.head?_map] at hidmem
      obtain ⟨e, he, rfl⟩ := Option.map_eq_some_iff.mp hidmem
      refine other e.info ?_ ?_
      · rw [infos, List.head?_map, he]
        rfl
      · rw [← head, ← hid]
        exact congrArg g.pathOf heq.symm
    have hbegin := g.append_intervals v numbers now
    rw [infos, List.map_map]
    exact hlist.prefix (hbegin.map _)
  · intro e he
    rw [head_append _ _ e he]
    exact hv.finished_fresh _ _ _
  · rw [(g.append_frame v numbers now).2.2.2.1]
    exact judged

/-- Where the dominant path alternates, the next one is known, and not the last one. -/
theorem alternate_spec (halt : v.alternates = true) (h : g.Alternates v) (h1 : g.path1.isSome) :
    (g.alternate v).dominantPath ≠ g.dominantPath ∧
      g.pathOf (if (g.alternate v).dominantPath = g.path1 then .path1 else .path2) =
        (g.alternate v).dominantPath := by
  obtain ⟨path, hpath⟩ := Option.isSome_iff_exists.mp h1
  have hdiffer : g.path2 ≠ g.path1 := by
    rw [hpath]
    exact h.differ path hpath
  rw [alternate, if_pos halt]
  by_cases hd : g.dominantPath = g.path1
  · simp [hd, hdiffer, pathOf]
  · simp [hd, pathOf, Ne.symm hd]

/-- The change of intervals, where the dominant path changes with every interval. -/
theorem Alternates.change (hv : v.Lawful) (halt : v.alternates = true) (h : g.Alternates v)
    (h1 : g.path1.isSome) (h2 : g.path2.isSome) (reset : Bool) (numbers : ℕ → ℕ) (now : ℕ) :
    (g.change v reset numbers now).Alternates v := by
  obtain ⟨hother, hnamed⟩ := alternate_spec halt h h1
  have hframe : (g.alternate v).path1 = g.path1 ∧ (g.alternate v).path2 = g.path2 ∧
      (g.alternate v).intervals = g.intervals ∧ (g.alternate v).judged = g.judged := by
    rw [alternate, if_pos halt]
    exact ⟨rfl, rfl, rfl, rfl⟩
  rw [TonopahGlobals.change]
  generalize g.alternate v = b at hother hnamed hframe
  obtain ⟨path1, path2, dominantPath, lastChange, intervals, judged, splits, notified, fault⟩ := b
  obtain ⟨rfl, rfl, rfl, rfl⟩ := hframe
  have hjudged : ∀ l ∈ g.infos :: g.judged, (l.map v.dominantPathId).IsChain (· ≠ ·) ∧
      ∀ e ∈ l.head?, v.finished e .path1 = false := by
    intro l hl
    rcases List.mem_cons.mp hl with rfl | hl
    · refine ⟨h.chain, ?_⟩
      intro e he
      rw [infos, List.head?_map] at he
      obtain ⟨e', he', rfl⟩ := Option.map_eq_some_iff.mp he
      exact h.newest e' he'
    · exact h.judged l hl
  rcases reset with _ | _
  · refine .append hv h1 h2 h.differ hnamed ?_ h.chain hjudged
    intro e he heq
    exact hother (heq.symm.trans (h.head e he))
  · refine .append hv h1 h2 h.differ hnamed ?_ List.isChain_nil hjudged
    intro e he
    simp [infos, TonopahGlobals.deleteInfoList] at he

end TonopahGlobals

/-! ### The window of a verdict -/

/-- The sums over a window, from its newest interval on, that follow `a`; `newer` is the interval
after the window. -/
def BandwidthSums.ofWindow (newer : BandwidthInterval) :
    List BandwidthInterval → BandwidthSums → BandwidthSums
  | [], a => a
  | e :: older, a => ofWindow e older (a.add newer e)

variable {l : List BandwidthInterval} {verdict : BandwidthVerdict}

/-- What the walk finds: the window that was begun goes on, or there is one further down. -/
theorem aggregateBandwidth_cases {newer : BandwidthInterval} {a : BandwidthSums}
    (ha : a.len < bandwidthIntervalsRequired)
    (h : aggregateBandwidth (some newer) l a = some verdict) :
    (∃ window older, l = window ++ older ∧ (∀ e ∈ window, e.isFinished = true) ∧
      a.len + window.length = bandwidthIntervalsRequired ∧
      verdict = .sums (.ofWindow newer window a)) ∨
    ∃ before newer window older, l = before ++ newer :: (window ++ older) ∧
      (∀ e ∈ window, e.isFinished = true) ∧ window.length = bandwidthIntervalsRequired ∧
      verdict = .sums (.ofWindow newer window .zero) := by
  induction l generalizing newer a with
  | nil => exact absurd h (by simp [aggregateBandwidth])
  | cons e l ih =>
    rw [aggregateBandwidth] at h
    by_cases hfinished : e.isFinished = true
    · rw [if_pos hfinished, Option.map_some] at h
      dsimp only at h
      have hlen : (a.add newer e).len = a.len + 1 := rfl
      split_ifs at h with hfull
      · refine Or.inl ⟨[e], l, rfl, by simpa using hfinished, ?_, (Option.some.inj h).symm⟩
        rw [← hfull, hlen, List.length_singleton]
      · rcases ih (by omega) h with ⟨window, older, rfl, hw, hn, hv⟩ | hlater
        · refine Or.inl ⟨e :: window, older, rfl, ?_, ?_, hv⟩
          · exact List.forall_mem_cons.mpr ⟨hfinished, hw⟩
          · rw [List.length_cons]
            omega
        · obtain ⟨before, newer', window, older, rfl, hw, hn, hv⟩ := hlater
          exact Or.inr ⟨e :: before, newer', window, older, rfl, hw, hn, hv⟩
    · -- the sums begin again behind an interval that is not finished
      rw [if_neg hfinished] at h
      dsimp only at h
      rw [if_neg (by decide)] at h
      rcases ih (by decide) h with ⟨window, older, rfl, hw, hn, hv⟩ | hlater
      · refine Or.inr ⟨[], e, window, older, rfl, hw, ?_, hv⟩
        have hzero : BandwidthSums.zero.len = 0 := rfl
        omega
      · obtain ⟨before, newer', window, older, rfl, hw, hn, hv⟩ := hlater
        exact Or.inr ⟨e :: before, newer', window, older, rfl, hw, hn, hv⟩

/-- Of four dominant paths that alternate, two are the first path, and two the second. -/
theorem count_dominant_of_isChain {l : List IntervalPathId} (h : l.IsChain (· ≠ ·))
    (hlength : l.length = bandwidthIntervalsRequired) (id : IntervalPathId) : l.count id = 2 := by
  have hinjective : Function.Injective fun d : IntervalPathId => decide (d = id) := by
    intro d d' hdd'
    rcases d with _ | _ <;> rcases d' with _ | _ <;> rcases id with _ | _ <;> simp_all
  have hcount : (l.map fun d => decide (d = id)).count true = l.count id := by
    have hid : decide (id = id) = true := decide_eq_true rfl
    rw [← hid]
    exact List.count_map_of_injective l _ hinjective id
  have hchain : (l.map fun d => decide (d = id)).IsChain (· ≠ ·) :=
    (List.isChain_map _).mpr (h.imp fun d d' hne => hinjective.ne hne)
  have htwo := hchain.two_mul_count_bool_of_even (by rw [List.length_map, hlength]; decide) true
  rw [hcount, List.length_map, hlength] at htwo
  exact Nat.eq_of_mul_eq_mul_left two_pos htwo

/-- A verdict on intervals whose dominant paths alternate, and the newest of which is not
finished. -/
theorem aggregateBandwidth_fair (hchain : (l.map BandwidthInterval.dominantPathId).IsChain (· ≠ ·))
    (hnewest : ∀ e ∈ l.head?, (e.side .path1).finished = false)
    (h : aggregateBandwidth none l .zero = some verdict) :
    ∃ before newer window older, l = before ++ newer :: (window ++ older) ∧
      (∀ e ∈ window, e.isFinished = true) ∧ window.length = bandwidthIntervalsRequired ∧
      verdict = .sums (.ofWindow newer window .zero) ∧
      ∀ id, (window.map BandwidthInterval.dominantPathId).count id = 2 := by
  rcases l with _ | ⟨e, l⟩
  · exact absurd h (by simp [aggregateBandwidth])
  have hopen : ¬ e.isFinished = true := by
    rw [isFinished, hnewest e rfl, Bool.false_and]
    exact Bool.false_ne_true
  rw [aggregateBandwidth, if_neg hopen] at h
  dsimp only at h
  rw [if_neg (by decide)] at h
  have hwindow : ∃ before newer window older, e :: l = before ++ newer :: (window ++ older) ∧
      (∀ e ∈ window, e.isFinished = true) ∧ window.length = bandwidthIntervalsRequired ∧
      verdict = .sums (.ofWindow newer window .zero) := by
    rcases aggregateBandwidth_cases (by decide) h with ⟨window, older, rfl, hw, hn, hv⟩ | hlater
    · refine ⟨[], e, window, older, rfl, hw, ?_, hv⟩
      have hzero : BandwidthSums.zero.len = 0 := rfl
      omega
    · obtain ⟨before, newer, window, older, rfl, hw, hn, hv⟩ := hlater
      exact ⟨e :: before, newer, window, older, rfl, hw, hn, hv⟩
  obtain ⟨before, newer, window, older, hl, hw, hn, hv⟩ := hwindow
  refine ⟨before, newer, window, older, hl, hw, hn, hv, ?_⟩
  intro id
  refine count_dominant_of_isChain ?_ (by rw [List.length_map, hn]) id
  rw [hl] at hchain
  have hpart : window <:+: before ++ newer :: (window ++ older) :=
    ⟨before ++ [newer], older, by simp⟩
  exact hchain.infix (hpart.map _)

namespace TonopahProcess

variable {ι : Type} {v : TonopahVariant ι} {p : TonopahProcess ι}

/-- What a notification begins with leaves the intervals, and what was logged of them. -/
theorem register_frame (g : TonopahGlobals ι) (paths : List ℕ) (path path0 now : ℕ) :
    let g' := register g paths path path0 now
    g'.intervals = g.intervals ∧ g'.judged = g.judged ∧ g'.splits = g.splits ∧
      g'.path1 = (g.learnPath path).path1 ∧ g'.path2 = (g.learnPath path).path2 ∧
      g'.dominantPath = if g.dominantPath = none ∧ (g.learnPath path).isKnown path then some path0
        else g.dominantPath := by
  have hlearn (notified : List ℕ) (fault : Option TonopahFault) :
      learnPath { g with notified := notified, fault := fault } path =
        { g.learnPath path with notified := notified, fault := fault } := by
    rw [learnPath, learnPath]
    by_cases h1 : g.path1 = none
    · rw [if_pos h1, if_pos h1]
    · rw [if_neg h1, if_neg h1]
      by_cases h2 : g.path1 ≠ some path ∧ g.path2 = none
      · rw [if_pos h2, if_pos h2]
      · rw [if_neg h2, if_neg h2]
  have hcheck : ∃ fault, ((g.logPath path).check (decide (paths.length ≤ 2))) =
      { g with notified := path :: g.notified, fault := fault } := by
    rcases decide (paths.length ≤ 2) with _ | _
    · exact ⟨_, rfl⟩
    · exact ⟨_, rfl⟩
  have hframe : (g.learnPath path).intervals = g.intervals ∧
      (g.learnPath path).judged = g.judged ∧ (g.learnPath path).splits = g.splits ∧
      (g.learnPath path).dominantPath = g.dominantPath := by
    rw [learnPath]
    split_ifs
    · exact ⟨rfl, rfl, rfl, rfl⟩
    · exact ⟨rfl, rfl, rfl, rfl⟩
    · exact ⟨rfl, rfl, rfl, rfl⟩
  obtain ⟨hintervals, hjudged, hsplits, hdominant⟩ := hframe
  obtain ⟨fault, heq⟩ := hcheck
  rw [register, heq, hlearn]
  generalize g.learnPath path = b at hintervals hjudged hsplits hdominant
  have hknown :
      isKnown { b with notified := path :: g.notified, fault := fault } path =
        b.isKnown path := rfl
  dsimp only
  rw [hknown, makeDominant, ← hdominant]
  by_cases hk : b.isKnown path = true
  · simp only [hk, if_true, and_true]
    split
    · exact ⟨hintervals, hjudged, hsplits, rfl, rfl, rfl⟩
    · exact ⟨hintervals, hjudged, hsplits, rfl, rfl, rfl⟩
  · rw [if_neg hk, if_neg fun h => hk h.2]
    exact ⟨hintervals, hjudged, hsplits, rfl, rfl, rfl⟩

/-- A notification begins with the registration of its path. -/
theorem register_labelled {g : TonopahGlobals ι} (h : g.Labelled v) (paths : List ℕ)
    (path path0 now : ℕ) : (register g paths path path0 now).Labelled v := by
  have hlog : (g.logPath path).Labelled v := ⟨h.order, h.differ, h.known, h.head⟩
  have hlearn := (hlog.check (decide (paths.length ≤ 2))).learnPath path
  rw [register]
  generalize ((g.logPath path).check (decide (paths.length ≤ 2))).learnPath path = g at hlearn
  split_ifs
  · exact hlearn.makeDominant path0 now
  · exact ⟨hlearn.order, hlearn.differ, hlearn.known, hlearn.head⟩

/-- **Step lemma.** -/
theorem step_alternates (hv : v.Lawful) (halt : v.alternates = true)
    (h : p.globals.Alternates v) (event : Event) : (p.step v event).globals.Alternates v := by
  refine step_kept h event ?_
  intro _ call _
  refine notify_kept h ?_
  intro path path0 _ _
  obtain ⟨hintervals, hjudged, -⟩ :=
    register_frame p.globals (p.paths call.cnx) path path0 (call.clock 0)
  have hregister := h.of_labelled
    (register_labelled h.toLabelled (p.paths call.cnx) path path0 (call.clock 0)) hintervals hjudged
  refine ⟨hregister, fun _ => ⟨hregister, ?_, ?_, ?_, ?_⟩⟩
  · intro g hg
    exact hg.deleteInfoList
  · intro _ _
    exact hregister.recordAck hv _ path
  · intro g hg _ h1 h2 reset now
    exact hg.change hv halt h1 h2 reset _ now
  · intro g hg _ _ _
    exact hg.of_labelled ⟨hg.order, hg.differ, hg.known, hg.head⟩ rfl rfl

theorem initial_labelled : (initial : TonopahProcess ι).globals.Labelled v where
  order _ := rfl
  differ _ _ := by simp [initial]
  known hne := absurd rfl hne
  head _ he := by simp [initial, infos] at he

/-- **Run lemma.** -/
theorem run_alternates (hv : v.Lawful) (halt : v.alternates = true) (events : List Event) :
    (run (step v) initial events).globals.Alternates v := by
  refine run_invariant (I := fun p : TonopahProcess ι => p.globals.Alternates v)
    (fun p event h => step_alternates hv halt h event) ?_ events
  exact ⟨initial_labelled, List.isChain_nil, by simp [initial], by simp [initial]⟩

/-- In every state of `tonopah.c`, the dominant paths of the intervals alternate; and where a
verdict was drawn, it is that of a window of the intervals there were: of four intervals in a row
that are finished for both paths, two for each dominant path. -/
theorem verdicts_fair (events : List Event) :
    let g := (run (step tonopah) initial events).globals
    (g.infos.map dominantPathId).IsChain (· ≠ ·) ∧
      ∀ l ∈ g.judged, ∀ verdict, aggregateBandwidth none l .zero = some verdict →
        ∃ before newer window older, l = before ++ newer :: (window ++ older) ∧
          (∀ e ∈ window, e.isFinished = true) ∧ window.length = bandwidthIntervalsRequired ∧
          verdict = .sums (.ofWindow newer window .zero) ∧
          ∀ id, (window.map dominantPathId).count id = 2 := by
  have h := run_alternates tonopah_lawful rfl events
  refine ⟨h.chain, ?_⟩
  intro l hl verdict hverdict
  obtain ⟨hchain, hnewest⟩ := h.judged l hl
  exact aggregateBandwidth_fair hchain hnewest hverdict

end TonopahProcess

/-! ### The intervals close in order -/

namespace TonopahGlobals

variable {ι : Type} {v : TonopahVariant ι} {g : TonopahGlobals ι}

/-- Once an acknowledgement of a path belongs to an interval, the older ones are finished for the
path. -/
def ClosedInOrder (v : TonopahVariant ι) (g : TonopahGlobals ι) : Prop :=
  ∀ id, g.intervals.Pairwise fun e older =>
    e.acknowledged id = true → v.finished older.info id = true

/-- An acknowledgement that `recordIn` would record passes over no interval: the interval it belongs
to is not new to the path, or the interval before can be finished, and is the oldest or not new to
the path. -/
def PassesOverNone (v : TonopahVariant ι) (id : IntervalPathId) (ackNum : ℕ) :
    List (TrackedInterval ι) → Prop
  | [] => True
  | e :: older =>
    if v.firstSeqNum e.info id ≤ ackNum then
      e.acknowledged id = true ∨ ∀ e' ∈ older.head?,
        v.finished (v.finish id e'.info) id = true ∧ (older.tail = [] ∨ e'.acknowledged id = true)
    else PassesOverNone v id ackNum older

instance PassesOverNone.decidable (v : TonopahVariant ι) (id : IntervalPathId) (ackNum : ℕ) :
    ∀ l : List (TrackedInterval ι), Decidable (PassesOverNone v id ackNum l)
  | [] => inferInstanceAs (Decidable True)
  | _ :: older =>
    have := PassesOverNone.decidable v id ackNum older
    have : Decidable (older.tail = []) :=
      decidable_of_iff (older.tail.isEmpty = true) List.isEmpty_iff
    inferInstanceAs (Decidable (ite _ _ _))

/-- What is finished stays finished when the newest interval of a list is finished. -/
theorem finished_modifyHead (hv : v.Lawful) (id : IntervalPathId) {l : List (TrackedInterval ι)}
    (h : ∀ e ∈ l, v.finished e.info id' = true) :
    ∀ e ∈ l.modifyHead fun e => { e with info := v.finish id e.info },
      v.finished e.info id' = true := by
  rcases l with _ | ⟨x, l⟩
  · exact h
  · intro e he
    rw [List.modifyHead_cons] at he
    rcases List.mem_cons.mp he with rfl | he
    · exact hv.finished_finish _ _ _ (h x List.mem_cons_self)
    · exact h e (List.mem_cons_of_mem _ he)

theorem finished_recordIn (hv : v.Lawful) (n : Notification) (id : IntervalPathId) (ackNum : ℕ)
    {l : List (TrackedInterval ι)} (h : ∀ e ∈ l, v.finished e.info id' = true) :
    ∀ e ∈ recordIn v n id ackNum l, v.finished e.info id' = true := by
  rcases recordIn_cases v n id ackNum l with heq | ⟨newer, x, older, rfl, -, -, heq⟩
  · rw [heq]
    exact h
  · intro e he
    rw [heq, List.mem_append, List.mem_cons] at he
    rcases he with he | rfl | he
    · exact h e (List.mem_append_left _ he)
    · rw [hv.finished_count]
      exact h x (by simp)
    · refine finished_modifyHead hv id ?_ e he
      intro e' he'
      exact h e' (by simp [he'])

/-- An acknowledgement that passes over no interval. -/
theorem recordIn_closed (hv : v.Lawful) (n : Notification) (id : IntervalPathId) (ackNum : ℕ)
    {l : List (TrackedInterval ι)} (hpass : PassesOverNone v id ackNum l)
    (h : ∀ id, l.Pairwise fun e older =>
      e.acknowledged id = true → v.finished older.info id = true) (id' : IntervalPathId) :
    (recordIn v n id ackNum l).Pairwise fun e older =>
      e.acknowledged id' = true → v.finished older.info id' = true := by
  induction l with
  | nil => exact List.Pairwise.nil
  | cons e older ih =>
    have hhead (id : IntervalPathId) := (List.pairwise_cons.mp (h id)).1
    have htail (id : IntervalPathId) := (List.pairwise_cons.mp (h id)).2
    rw [recordIn]
    rw [PassesOverNone] at hpass
    split_ifs at hpass ⊢
    · refine List.pairwise_cons.mpr ⟨?_, ?_⟩
      · intro x hx hack
        rcases eq_or_ne id' id with rfl | hne
        · -- the path of the acknowledgement
          rcases hpass with hold | hlast
          · exact finished_modifyHead hv id' (fun y hy => hhead id' y hy hold) x hx
          · rcases older with _ | ⟨last, rest⟩
            · simp at hx
            obtain ⟨hfinish, hrest⟩ := hlast last rfl
            rw [List.modifyHead_cons] at hx
            rcases List.mem_cons.mp hx with rfl | hx
            · exact hfinish
            · rcases hrest with rfl | hlastack
              · simp at hx
              · exact (List.pairwise_cons.mp (htail id')).1 x hx hlastack
        · have hold : e.acknowledged id' = true := (Function.update_of_ne hne _ _).symm.trans hack
          exact finished_modifyHead hv id (fun y hy => hhead id' y hy hold) x hx
      · rcases older with _ | ⟨last, rest⟩
        · exact List.Pairwise.nil
        · exact List.pairwise_cons.mpr (List.pairwise_cons.mp (htail id'))
    · refine List.pairwise_cons.mpr ⟨?_, ih hpass htail⟩
      intro x hx hack
      exact finished_recordIn hv n id ackNum (fun y hy => hhead id' y hy hack) x hx

/-- The begin of an interval: no acknowledgement belongs to it. -/
theorem ClosedInOrder.append (h : g.ClosedInOrder v) (numbers : ℕ → ℕ) (now : ℕ) :
    (g.append v numbers now).ClosedInOrder v := by
  intro id
  have hall : (g.newInterval v numbers :: g.intervals).Pairwise fun e older =>
      e.acknowledged id = true → v.finished older.info id = true := by
    refine List.pairwise_cons.mpr ⟨?_, h id⟩
    intro _ _ hack
    exact absurd hack Bool.false_ne_true
  exact hall.sublist (g.append_intervals v numbers now).sublist

/-- The change of intervals. -/
theorem ClosedInOrder.change (h : g.ClosedInOrder v) (reset : Bool) (numbers : ℕ → ℕ) (now : ℕ) :
    (g.change v reset numbers now).ClosedInOrder v := by
  have halternate : (g.alternate v).ClosedInOrder v := by
    rw [alternate]
    split
    · exact h
    · exact h
  rw [TonopahGlobals.change]
  rcases reset with _ | _
  · exact ClosedInOrder.append halternate numbers now
  · exact ClosedInOrder.append (fun _ => List.Pairwise.nil) numbers now

end TonopahGlobals

namespace TonopahProcess

variable {ι : Type} {v : TonopahVariant ι} {p : TonopahProcess ι}

/-- An event passes over no interval. -/
def PassesOverNone (v : TonopahVariant ι) (p : TonopahProcess ι) : Event → Prop
  | .notify call =>
    let n := call.toNotification (p.paths call.cnx)
    call.notification = .acknowledgement → n.isCwinLimited = true →
      ∀ path ∈ (p.paths call.cnx)[(call.position : ℕ)]?,
        TonopahGlobals.PassesOverNone v ((p.globals.learnPath path).idOf path)
          (n.cnxPath n.path).pathPacketAckedNumber p.globals.intervals
  | _ => True

instance (v : TonopahVariant ι) (p : TonopahProcess ι) :
    ∀ event, Decidable (PassesOverNone v p event)
  | .notify call =>
    inferInstanceAs (Decidable (call.notification = .acknowledgement →
      (call.toNotification (p.paths call.cnx)).isCwinLimited = true → ∀ _ ∈ _, _))
  | .create .. | .init .. | .promote .. | .delete .. => inferInstanceAs (Decidable True)

/-- **Step lemma.** -/
theorem step_closed (hv : v.Lawful) (h : p.globals.ClosedInOrder v) {event : Event}
    (hpass : PassesOverNone v p event) : (p.step v event).globals.ClosedInOrder v := by
  refine step_kept h event ?_
  rintro _ call rfl
  refine notify_kept h ?_
  intro path path0 hpath _
  obtain ⟨hintervals, -, -, h1, -⟩ :=
    register_frame p.globals (p.paths call.cnx) path path0 (call.clock 0)
  generalize register p.globals (p.paths call.cnx) path path0 (call.clock 0) = g at hintervals h1
  have hclosed : g.ClosedInOrder v := by
    rw [TonopahGlobals.ClosedInOrder, hintervals]
    exact h
  refine ⟨hclosed, fun _ => ⟨hclosed, ?_, ?_, ?_, ?_⟩⟩
  · intro g _ _
    exact List.Pairwise.nil
  · intro hack hlimited id
    have hcheck : (g.check (g.isKnown path)).intervals = p.globals.intervals ∧
        (g.check (g.isKnown path)).idOf path = (p.globals.learnPath path).idOf path := by
      rw [check, idOf, idOf, ← h1, ← hintervals]
      split
      · exact ⟨rfl, rfl⟩
      · exact ⟨rfl, rfl⟩
    rw [recordAck]
    dsimp only
    rw [hcheck.1, hcheck.2]
    exact recordIn_closed hv _ _ _ (hpass hack hlimited path hpath) h id
  · intro g hg _ _ _ reset now
    exact TonopahGlobals.ClosedInOrder.change hg reset _ now
  · intro g hg _ _ _
    exact hg

/-- **Run lemma.** -/
theorem run_closed (hv : v.Lawful) {events : List Event}
    (h : Along (step v) (PassesOverNone v) initial events) :
    (run (step v) initial events).globals.ClosedInOrder v := by
  refine run_invariant_of_along (I := fun p : TonopahProcess ι => p.globals.ClosedInOrder v)
    (fun p event hp hpass => step_closed hv hp hpass) ?_ h
  exact fun _ => List.Pairwise.nil

/-- The intervals of both algorithms close in order, in a run in which no acknowledgement passes
over an interval. -/
theorem intervals_close_in_order (events : List Event) :
    (Along (step newTonopah) (PassesOverNone newTonopah) initial events →
      (run (step newTonopah) initial events).globals.ClosedInOrder newTonopah) ∧
    (Along (step tonopah) (PassesOverNone tonopah) initial events →
      (run (step tonopah) initial events).globals.ClosedInOrder tonopah) :=
  ⟨run_closed newTonopah_lawful, run_closed tonopah_lawful⟩

/-- A notification at time `now`, when `number` is the next packet number of both paths and `acked`
the highest that was acknowledged. -/
def call (cnx : ℕ) (position : PathIndex) (notification : CongestionNotification)
    (number acked now : Uint64) : TonopahCall where
  cnx := cnx
  position := position
  notification := notification
  rttMeasurement := 10000
  oneWayDelay := 0
  nbBytesAcknowledged := 100
  currentTime := now
  isMultipathEnabled := true
  isTimeStampEnabled := false
  view _ := ⟨10000, 10000, 1500, 0, number, acked, now, 1, 0⟩
  behind := 0
  clock _ := now

/-- A loss on one path, and a notification of the other one, which opens an interval. -/
def twoPaths : List Event :=
  [.create 0 1 true, .create 0 2 true, .notify (call 0 0 .repeated 0 0 100000),
    .notify (call 0 1 .seedCwin 1 0 200000)]

/-- Two more intervals, with an acknowledgement in each. -/
def acknowledgedInOrder : List Event :=
  twoPaths ++ [.notify (call 0 0 .acknowledgement 2 1 210000),
    .notify (call 0 0 .seedCwin 3 1 400000), .notify (call 0 0 .acknowledgement 4 3 410000),
    .notify (call 0 0 .seedCwin 5 3 600000), .notify (call 0 0 .acknowledgement 6 5 610000)]

/-- Two more intervals, with acknowledgements in the first and in the third one. -/
def passesOver : List Event :=
  twoPaths ++ [.notify (call 0 0 .acknowledgement 2 1 210000),
    .notify (call 0 0 .seedCwin 3 1 400000), .notify (call 0 0 .seedCwin 5 1 600000),
    .notify (call 0 0 .acknowledgement 6 5 610000)]

/-- A run with three intervals. -/
theorem intervals_close_in_order_sample :
    (run (step newTonopah) initial acknowledgedInOrder).globals.intervals.length = 3 ∧
      (run (step newTonopah) initial acknowledgedInOrder).globals.ClosedInOrder newTonopah ∧
      (run (step tonopah) initial acknowledgedInOrder).globals.intervals.length = 3 ∧
      (run (step tonopah) initial acknowledgedInOrder).globals.ClosedInOrder tonopah :=
  ⟨by decide +kernel, (intervals_close_in_order acknowledgedInOrder).1 (by decide +kernel),
    by decide +kernel, (intervals_close_in_order acknowledgedInOrder).2 (by decide +kernel)⟩

/-- An acknowledgement belongs to the newest of three intervals, the one before to the oldest, which
stays open. -/
theorem interval_passed_over :
    ¬ (run (step newTonopah) initial passesOver).globals.ClosedInOrder newTonopah ∧
      ¬ (run (step tonopah) initial passesOver).globals.ClosedInOrder tonopah := by
  constructor
  · intro h
    exact absurd (h .path1) (by decide +kernel)
  · intro h
    exact absurd (h .path1) (by decide +kernel)

end TonopahProcess

end Picoquic
