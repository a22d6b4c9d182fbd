import Picoquic.Path.Abandon

/-!
# Deleting abandoned paths

A path that was demoted is deleted some time later. The table of the paths is compacted while it is
read: `path_index_good` is the place of the next path that is kept, `path_index_current` that of the
next path that is looked at. A path that is kept is swapped with the first one that is not, so what
is left at the end of the table is deleted.

* **`AbandonCnx.deleteAbandonedPaths`** — the function;
* **`scanPaths_spec`** — the table after the loop: the paths that are kept, in their order, and
  behind them the others;
* **`deletesAbandoned_iff`** — exactly when all is as it should be.

Without multipath the first path is not looked at. With multipath no path may be left.
-/

namespace Picoquic

/-- `picoquic_path_t`, the part that abandoning it depends on. -/
structure WatchedPath extends Path where
  challengeFailed : Bool
  challengeVerified : Bool
  latestSentTime : ℕ
  deriving DecidableEq

namespace WatchedPath

/-- The first part of the loop of `picoquic_delete_abandoned_paths`: the path at a place of the
table is demoted if its challenge has failed, or if nothing was sent on it for long. -/
def demoteIfUnused (idleTimeout currentTime pathIndex : ℕ) (p : WatchedPath) : WatchedPath :=
  if !p.isDemoted then
    if p.challengeFailed ∨
        0 < pathIndex ∧ p.challengeVerified ∧ idleTimeout ≤ sub64 currentTime p.latestSentTime then
      { p with toDemotion := p.demote currentTime }
    else p
  else p

/-- The path is demoted, and its time has passed. -/
def isAbandoned (currentTime : ℕ) (p : WatchedPath) : Bool :=
  p.isDemoted && decide (p.demotionTime ≤ currentTime)

end WatchedPath

/-- `picoquic_cnx_t`, the part that `picoquic_delete_abandoned_paths` works with. -/
structure AbandonCnx where
  paths : List WatchedPath
  isMultipathEnabled : Bool
  isSimpleMultipathEnabled : Bool
  idleTimeout : ℕ
  pathDemotionNeeded : Bool

/-- The variables of `picoquic_delete_abandoned_paths`. -/
structure PathScan where
  paths : List WatchedPath
  pathIndexGood : ℕ
  nextWakeTime : ℕ
  isDemotionInProgress : Bool

/-- Two entries of a table are swapped. -/
def swapPaths {α : Type*} (l : List α) (i j : ℕ) : List α :=
  match l[i]?, l[j]? with
  | some x, some y => (l.set i y).set j x
  | _, _ => l

/-- The loop of `picoquic_delete_abandoned_paths`, at one path. -/
def scanPath (idleTimeout currentTime : ℕ) (s : PathScan) (pathIndexCurrent : ℕ) : PathScan :=
  match s.paths[pathIndexCurrent]? with
  | none => s
  | some p =>
    let p := p.demoteIfUnused idleTimeout currentTime pathIndexCurrent
    let s := { s with paths := s.paths.set pathIndexCurrent p }
    if p.isDemoted ∧ p.demotionTime ≤ currentTime then { s with isDemotionInProgress := true }
    else
      let s :=
        if p.isDemoted ∧ currentTime < p.demotionTime then
          { s with
            isDemotionInProgress := true
            nextWakeTime :=
              if p.demotionTime < s.nextWakeTime then p.demotionTime else s.nextWakeTime }
        else s
      { s with
        paths :=
          if s.pathIndexGood < pathIndexCurrent then
            swapPaths s.paths s.pathIndexGood pathIndexCurrent
          else s.paths
        pathIndexGood := s.pathIndexGood + 1 }

/-- `picoquic_delete_path`: the table is compacted. -/
def deletePath {α : Type*} (l : List α) (pathIndex : ℕ) : List α := l.eraseIdx pathIndex

/-- The loop that deletes paths from the end of the table. -/
def deleteLastPaths {α : Type*} : ℕ → List α → List α
  | 0, l => l
  | n + 1, l => deleteLastPaths n (deletePath l (l.length - 1))

namespace AbandonCnx

/-- The first path that is looked at: without multipath, the default path is not. -/
def pathIndexFirst (c : AbandonCnx) : ℕ :=
  if c.isMultipathEnabled || c.isSimpleMultipathEnabled then 0 else 1

/-- `picoquic_delete_abandoned_paths`: the connection and `next_wake_time`. -/
def deleteAbandonedPaths (c : AbandonCnx) (currentTime nextWakeTime : ℕ) : AbandonCnx × ℕ :=
  let s := (List.range' c.pathIndexFirst (c.paths.length - c.pathIndexFirst)).foldl
    (scanPath c.idleTimeout currentTime) ⟨c.paths, c.pathIndexFirst, nextWakeTime, false⟩
  ({ c with
      paths := deleteLastPaths (s.paths.length - s.pathIndexGood) s.paths
      pathDemotionNeeded := s.isDemotionInProgress },
    s.nextWakeTime)

end AbandonCnx

/-! ### The table -/

section

variable {α : Type*}

/-- An entry is swapped with the first one of those before it that are not kept. -/
theorem swapPaths_append (kept lost rest : List α) (x y : α) :
    swapPaths (kept ++ x :: lost ++ y :: rest) kept.length (kept ++ x :: lost).length =
      kept ++ [y] ++ (lost ++ [x]) ++ rest := by
  have hx : (kept ++ x :: lost ++ y :: rest)[kept.length]? = some x := by simp
  have hy : (kept ++ x :: lost ++ y :: rest)[(kept ++ x :: lost).length]? = some y := by
    rw [List.getElem?_append_right (Nat.le_refl _), Nat.sub_self]
    rfl
  have hset : (kept ++ x :: lost ++ y :: rest).set kept.length y =
      kept ++ y :: lost ++ y :: rest := by
    simp
  have hlen : (kept ++ x :: lost).length = (kept ++ y :: lost).length := by simp
  rw [swapPaths, hx, hy]
  dsimp only
  rw [hset, hlen, List.set_append_right _ _ (Nat.le_refl _), Nat.sub_self]
  simp

theorem deleteLastPaths_eq (n : ℕ) (l : List α) : deleteLastPaths n l = l.take (l.length - n) := by
  induction n generalizing l with
  | zero => exact (List.take_length).symm
  | succ n ih =>
    have hlast : deletePath l (l.length - 1) = l.take (l.length - 1) := by
      rw [deletePath, List.eraseIdx_eq_take_drop_succ]
      rw [List.drop_eq_nil_of_le (by omega), List.append_nil]
    rw [deleteLastPaths, hlast, ih, List.length_take, List.take_take]
    congr 1
    omega

end

/-! ### The loop -/

variable {q : WatchedPath}

section

variable {idleTimeout currentTime : ℕ} {s : PathScan} {kept lost rest : List WatchedPath}
  {p : WatchedPath}

/-- A path that is kept has its time later. -/
theorem lt_demotionTime (h : p.isAbandoned currentTime = false) (hdemoted : p.isDemoted = true) :
    currentTime < p.demotionTime := by
  rw [WatchedPath.isAbandoned, hdemoted, Bool.true_and, decide_eq_false_iff_not] at h
  exact not_le.mp h

theorem scanPath_of_abandoned {i : ℕ} (hget : s.paths[i]? = some p)
    (hq : p.demoteIfUnused idleTimeout currentTime i = q)
    (habandoned : q.isAbandoned currentTime = true) :
    scanPath idleTimeout currentTime s i =
      { s with paths := s.paths.set i q, isDemotionInProgress := true } := by
  have htest : q.isDemoted = true ∧ q.demotionTime ≤ currentTime := by
    simpa [WatchedPath.isAbandoned] using habandoned
  rw [scanPath, hget]
  dsimp only
  rw [hq, if_pos htest]

theorem scanPath_of_kept {i : ℕ} (hget : s.paths[i]? = some p)
    (hq : p.demoteIfUnused idleTimeout currentTime i = q)
    (hkeep : q.isAbandoned currentTime = false) :
    ∃ wake inProgress, scanPath idleTimeout currentTime s i =
        { paths :=
            if s.pathIndexGood < i then swapPaths (s.paths.set i q) s.pathIndexGood i
            else s.paths.set i q
          pathIndexGood := s.pathIndexGood + 1
          nextWakeTime := wake
          isDemotionInProgress := inProgress } ∧
      ∀ t, wake ≤ t ↔ s.nextWakeTime ≤ t ∨ q.isDemoted = true ∧ q.demotionTime ≤ t := by
  have htest : ¬ (q.isDemoted = true ∧ q.demotionTime ≤ currentTime) := by
    simpa [WatchedPath.isAbandoned] using hkeep
  rw [scanPath, hget]
  dsimp only
  rw [hq, if_neg htest]
  by_cases hwaits : q.isDemoted = true ∧ currentTime < q.demotionTime
  · rw [if_pos hwaits]
    refine ⟨_, _, rfl, fun t => ?_⟩
    simp only [hwaits.1, true_and]
    split_ifs <;> omega
  · rw [if_neg hwaits]
    refine ⟨_, _, rfl, fun t => (or_iff_left fun h => hwaits ⟨h.1, ?_⟩).symm⟩
    exact lt_demotionTime hkeep h.1

/-- One path: it is put behind those that are kept, or stays among those that are lost. -/
theorem scanPath_spec (hpaths : s.paths = kept ++ lost ++ p :: rest)
    (hgood : s.pathIndexGood = kept.length)
    (hq : p.demoteIfUnused idleTimeout currentTime (kept ++ lost).length = q) :
    ∃ kept' lost' wake inProgress,
      scanPath idleTimeout currentTime s (kept ++ lost).length =
        ⟨kept' ++ lost' ++ rest, kept'.length, wake, inProgress⟩ ∧
      (kept' ++ lost').length = (kept ++ lost).length + 1 ∧
      kept' = kept ++ [q].filter (fun p => !p.isAbandoned currentTime) ∧
      ∀ t, wake ≤ t ↔ s.nextWakeTime ≤ t ∨
        ∃ x ∈ [q].filter (fun p => !p.isAbandoned currentTime),
          x.isDemoted = true ∧ x.demotionTime ≤ t := by
  have hget : s.paths[(kept ++ lost).length]? = some p := by
    rw [hpaths, List.getElem?_append_right (Nat.le_refl _), Nat.sub_self]
    rfl
  have hset : s.paths.set (kept ++ lost).length q = kept ++ lost ++ q :: rest := by
    rw [hpaths, List.set_append_right _ _ (Nat.le_refl _), Nat.sub_self]
    rfl
  cases habandoned : q.isAbandoned currentTime with
  | true =>
    refine ⟨kept, lost ++ [q], s.nextWakeTime, true, ?_, ?_, ?_, fun t => ?_⟩
    · rw [scanPath_of_abandoned hget hq habandoned, hset, hgood, List.append_assoc kept,
        List.append_assoc kept, List.append_assoc lost]
      rfl
    · simp only [List.length_append, List.length_singleton]
      omega
    · simp [habandoned]
    · simp [habandoned]
  | false =>
    obtain ⟨wake, inProgress, heq, hwake⟩ := scanPath_of_kept hget hq habandoned
    have hfilter : [q].filter (fun p => !p.isAbandoned currentTime) = [q] := by simp [habandoned]
    rw [heq, hset, hgood, hfilter]
    cases lost with
    | nil =>
      refine ⟨kept ++ [q], [], wake, inProgress, ?_, by simp, rfl, fun t => by simp [hwake]⟩
      rw [List.append_nil, if_neg (Nat.lt_irrefl _)]
      simp
    | cons x lost =>
      refine ⟨kept ++ [q], lost ++ [x], wake, inProgress, ?_, ?_, rfl, fun t => by simp [hwake]⟩
      · rw [if_pos (by simp), swapPaths_append]
        simp
      · simp only [List.length_append, List.length_cons, List.length_nil]
        omega

/-- The paths behind a place, demoted if they are unused. -/
def watchFrom (idleTimeout currentTime i : ℕ) (l : List WatchedPath) : List WatchedPath :=
  l.mapIdx fun j p => p.demoteIfUnused idleTimeout currentTime (i + j)

theorem watchFrom_cons (i : ℕ) (p : WatchedPath) (l : List WatchedPath) :
    watchFrom idleTimeout currentTime i (p :: l) =
      p.demoteIfUnused idleTimeout currentTime i ::
        watchFrom idleTimeout currentTime (i + 1) l := by
  rw [watchFrom, List.mapIdx_cons, watchFrom]
  refine congrArg (_ :: ·) (List.mapIdx_eq_mapIdx_iff.mpr fun j hj => ?_)
  rw [Nat.add_assoc, Nat.add_comm 1 j]

/-- **The loop.** -/
theorem scanPaths_spec (rest : List WatchedPath) {s : PathScan} {kept lost : List WatchedPath}
    (hpaths : s.paths = kept ++ lost ++ rest) (hgood : s.pathIndexGood = kept.length) :
    ∃ kept' lost' wake inProgress,
      (List.range' (kept ++ lost).length rest.length).foldl (scanPath idleTimeout currentTime) s =
        ⟨kept' ++ lost', kept'.length, wake, inProgress⟩ ∧
      kept' = kept ++ (watchFrom idleTimeout currentTime (kept ++ lost).length rest).filter
        (fun p => !p.isAbandoned currentTime) ∧
      ∀ t, wake ≤ t ↔ s.nextWakeTime ≤ t ∨
        ∃ x ∈ (watchFrom idleTimeout currentTime (kept ++ lost).length rest).filter
          (fun p => !p.isAbandoned currentTime), x.isDemoted = true ∧ x.demotionTime ≤ t := by
  induction rest generalizing s kept lost with
  | nil =>
    refine ⟨kept, lost, s.nextWakeTime, s.isDemotionInProgress, ?_, ?_, fun t => ?_⟩
    · rw [List.append_nil] at hpaths
      rw [← hpaths, ← hgood]
      rfl
    · simp [watchFrom]
    · simp [watchFrom]
  | cons p rest ih =>
    obtain ⟨kept₁, lost₁, wake₁, inProgress₁, hstep, hlen, hkept₁, hwake₁⟩ :=
      scanPath_spec hpaths hgood rfl
    obtain ⟨kept', lost', wake, inProgress, hrun, hkept', hwake⟩ :=
      @ih (scanPath idleTimeout currentTime s (kept ++ lost).length) kept₁ lost₁
        (by rw [hstep]) (by rw [hstep])
    rw [hlen] at hrun hkept' hwake
    refine ⟨kept', lost', wake, inProgress, ?_, ?_, fun t => ?_⟩
    · rw [List.length_cons, List.range'_succ, List.foldl_cons, hrun]
    · rw [hkept', hkept₁, watchFrom_cons, List.append_assoc, ← List.filter_append]
      rfl
    · rw [hwake t, hstep, hwake₁ t, watchFrom_cons, or_assoc]
      refine or_congr_right ?_
      rw [← exists_or]
      refine exists_congr fun x => ?_
      rw [← or_and_right, ← List.mem_append, ← List.filter_append]
      rfl

end

/-! ### What is to happen -/

namespace AbandonCnx

variable {c : AbandonCnx} {currentTime nextWakeTime : ℕ}

/-- The paths, when those that are unused have been demoted. -/
def watched (c : AbandonCnx) (currentTime : ℕ) : List WatchedPath :=
  c.paths.take c.pathIndexFirst ++
    watchFrom c.idleTimeout currentTime c.pathIndexFirst (c.paths.drop c.pathIndexFirst)

/-- The demoted paths whose time has passed are deleted and no others, in particular not all paths;
the connection wakes up in time for those that were demoted. -/
structure DeletesAbandoned (c : AbandonCnx) (currentTime : ℕ) (r : AbandonCnx × ℕ) : Prop where
  paths_eq : r.1.paths = (c.watched currentTime).filter fun p => !p.isAbandoned currentTime
  paths_ne_nil : r.1.paths ≠ []
  wake_le : ∀ p ∈ r.1.paths, p.isDemoted = true → r.2 ≤ p.demotionTime

/-- When this is so. With multipath, a path has to be left. Without, the default path must not be
demoted, unless its time is still to come and the connection wakes up before it for other
reasons. -/
def CanDelete (c : AbandonCnx) (currentTime nextWakeTime : ℕ) : Prop :=
  if c.isMultipathEnabled || c.isSimpleMultipathEnabled then
    ∃ p ∈ c.watched currentTime, p.isAbandoned currentTime = false
  else
    ∃ p ∈ c.paths.head?, p.isDemoted = true → currentTime < p.demotionTime ∧
      (nextWakeTime ≤ p.demotionTime ∨
        ∃ x ∈ (c.watched currentTime).tail, x.isAbandoned currentTime = false ∧
          x.isDemoted = true ∧ x.demotionTime ≤ p.demotionTime)

theorem pathIndexFirst_le (hpaths : c.paths ≠ []) : c.pathIndexFirst ≤ c.paths.length := by
  have hpos := List.length_pos_iff.mpr hpaths
  rw [pathIndexFirst]
  split_ifs <;> omega

/-- The paths and the time afterwards. -/
theorem deleteAbandonedPaths_spec (hpaths : c.paths ≠ []) (currentTime nextWakeTime : ℕ) :
    (c.deleteAbandonedPaths currentTime nextWakeTime).1.paths =
        c.paths.take c.pathIndexFirst ++
          (watchFrom c.idleTimeout currentTime c.pathIndexFirst
            (c.paths.drop c.pathIndexFirst)).filter (fun p => !p.isAbandoned currentTime) ∧
      ∀ t, (c.deleteAbandonedPaths currentTime nextWakeTime).2 ≤ t ↔ nextWakeTime ≤ t ∨
        ∃ x ∈ (watchFrom c.idleTimeout currentTime c.pathIndexFirst
            (c.paths.drop c.pathIndexFirst)).filter (fun p => !p.isAbandoned currentTime),
          x.isDemoted = true ∧ x.demotionTime ≤ t := by
  have hlen : (c.paths.take c.pathIndexFirst).length = c.pathIndexFirst := by
    rw [List.length_take, Nat.min_eq_left (pathIndexFirst_le hpaths)]
  obtain ⟨kept, lost, wake, inProgress, hrun, hkept, hwake⟩ :=
    @scanPaths_spec c.idleTimeout currentTime (c.paths.drop c.pathIndexFirst)
      ⟨c.paths, c.pathIndexFirst, nextWakeTime, false⟩ (c.paths.take c.pathIndexFirst) []
      (by rw [List.append_nil, List.take_append_drop]) hlen.symm
  rw [List.append_nil, hlen, List.length_drop] at hrun
  rw [List.append_nil, hlen] at hkept hwake
  rw [deleteAbandonedPaths, hrun]
  refine ⟨?_, hwake⟩
  rw [← hkept, deleteLastPaths_eq]
  have htake : (kept ++ lost).length - ((kept ++ lost).length - kept.length) = kept.length := by
    rw [List.length_append]
    omega
  rw [htake, List.take_left']
  rfl

theorem deleteAbandonedPaths_nil (hpaths : c.paths = []) (currentTime nextWakeTime : ℕ) :
    (c.deleteAbandonedPaths currentTime nextWakeTime).1.paths = [] := by
  rw [deleteAbandonedPaths, hpaths, List.length_nil, Nat.zero_sub]
  exact (deleteLastPaths_eq _ _).trans List.take_nil

/-- With multipath, every path is looked at. -/
theorem deletesAbandoned_multipath (hpaths : c.paths ≠ [])
    (hmulti : (c.isMultipathEnabled || c.isSimpleMultipathEnabled) = true) :
    c.DeletesAbandoned currentTime (c.deleteAbandonedPaths currentTime nextWakeTime) ↔
      ∃ p ∈ c.watched currentTime, p.isAbandoned currentTime = false := by
  obtain ⟨hafter, hwake⟩ := deleteAbandonedPaths_spec hpaths currentTime nextWakeTime
  have hfirst : c.pathIndexFirst = 0 := if_pos hmulti
  have hwatched : c.watched currentTime =
      watchFrom c.idleTimeout currentTime c.pathIndexFirst (c.paths.drop c.pathIndexFirst) := by
    rw [watched, hfirst, List.take_zero, List.nil_append]
  rw [hfirst, List.take_zero, List.nil_append, ← hfirst, ← hwatched] at hafter
  rw [← hwatched] at hwake
  constructor
  · intro h
    obtain ⟨p, hp⟩ := List.exists_mem_of_ne_nil _ h.paths_ne_nil
    rw [hafter, List.mem_filter, Bool.not_eq_true'] at hp
    exact ⟨p, hp⟩
  · rintro ⟨p, hp, hkeep⟩
    refine ⟨hafter, ?_, fun x hx hdemoted => ?_⟩
    · rw [hafter]
      exact List.ne_nil_of_mem (List.mem_filter.mpr ⟨hp, by rw [hkeep]; rfl⟩)
    · rw [hafter] at hx
      exact (hwake _).mpr (.inr ⟨x, hx, hdemoted, Nat.le_refl _⟩)

/-- Without multipath, the default path is kept. -/
theorem deletesAbandoned_singlePath {p : WatchedPath} {rest : List WatchedPath}
    (hpaths : c.paths = p :: rest)
    (hsingle : (c.isMultipathEnabled || c.isSimpleMultipathEnabled) = false) :
    c.DeletesAbandoned currentTime (c.deleteAbandonedPaths currentTime nextWakeTime) ↔
      (p.isDemoted = true → currentTime < p.demotionTime ∧
        (nextWakeTime ≤ p.demotionTime ∨
          ∃ x ∈ watchFrom c.idleTimeout currentTime 1 rest, x.isAbandoned currentTime = false ∧
            x.isDemoted = true ∧ x.demotionTime ≤ p.demotionTime)) := by
  have hne : c.paths ≠ [] := by rw [hpaths]; exact List.cons_ne_nil _ _
  obtain ⟨hafter, hwake⟩ := deleteAbandonedPaths_spec hne currentTime nextWakeTime
  have hfirst : c.pathIndexFirst = 1 := if_neg (by rw [hsingle]; exact Bool.false_ne_true)
  rw [hfirst, hpaths] at hafter hwake
  have hwatched : c.watched currentTime = p :: watchFrom c.idleTimeout currentTime 1 rest := by
    rw [watched, hfirst, hpaths]
    rfl
  have hwake' : ∀ t, (c.deleteAbandonedPaths currentTime nextWakeTime).2 ≤ t ↔ nextWakeTime ≤ t ∨
      ∃ x ∈ watchFrom c.idleTimeout currentTime 1 rest, x.isAbandoned currentTime = false ∧
        x.isDemoted = true ∧ x.demotionTime ≤ t := by
    intro t
    refine (hwake t).trans (or_congr_right (exists_congr fun x => ?_))
    rw [List.mem_filter, Bool.not_eq_true', and_assoc]
    rfl
  constructor
  · intro h hdemoted
    have hkeep : p.isAbandoned currentTime = false := by
      by_contra habandoned
      have hlen := congrArg List.length (hafter.symm.trans h.paths_eq)
      rw [hwatched, List.filter_cons_of_neg (by simpa using habandoned)] at hlen
      simp at hlen
    refine ⟨lt_demotionTime hkeep hdemoted, (hwake' _).mp (h.wake_le p ?_ hdemoted)⟩
    rw [hafter]
    exact List.mem_cons_self
  · intro h
    have hkeep : p.isAbandoned currentTime = false := by
      by_contra habandoned
      have htest : p.isDemoted = true ∧ p.demotionTime ≤ currentTime := by
        simpa [WatchedPath.isAbandoned] using habandoned
      exact absurd (h htest.1).1 (not_lt.mpr htest.2)
    refine ⟨?_, ?_, fun x hx hdemoted => ?_⟩
    · rw [hafter, hwatched, List.filter_cons_of_pos (by rw [hkeep]; rfl)]
      rfl
    · rw [hafter]
      exact List.cons_ne_nil _ _
    · rw [hafter] at hx
      rcases List.mem_cons.mp hx with rfl | hx
      · exact (hwake' _).mpr (h hdemoted).2
      · exact (hwake _).mpr (.inr ⟨x, hx, hdemoted, Nat.le_refl _⟩)

/-- **Abandoned paths.** For all paths of a connection, with and without multipath. -/
theorem deletesAbandoned_iff (c : AbandonCnx) (currentTime nextWakeTime : ℕ) :
    c.DeletesAbandoned currentTime (c.deleteAbandonedPaths currentTime nextWakeTime) ↔
      c.CanDelete currentTime nextWakeTime := by
  cases hpaths : c.paths with
  | nil =>
    refine iff_of_false (fun h => h.paths_ne_nil ?_) ?_
    · exact deleteAbandonedPaths_nil hpaths currentTime nextWakeTime
    · have hwatched : c.watched currentTime = [] := by
        rw [watched, hpaths, List.take_nil, List.drop_nil]
        rfl
      rw [CanDelete, hpaths, hwatched]
      split_ifs <;> simp
  | cons p rest =>
    have hne : c.paths ≠ [] := by rw [hpaths]; exact List.cons_ne_nil _ _
    cases hmulti : c.isMultipathEnabled || c.isSimpleMultipathEnabled with
    | true =>
      rw [deletesAbandoned_multipath hne hmulti, CanDelete, if_pos hmulti]
    | false =>
      have hfirst : c.pathIndexFirst = 1 := if_neg (by rw [hmulti]; exact Bool.false_ne_true)
      have hwatched : c.watched currentTime = p :: watchFrom c.idleTimeout currentTime 1 rest := by
        rw [watched, hfirst, hpaths]
        rfl
      rw [deletesAbandoned_singlePath hpaths hmulti, CanDelete,
        if_neg (by rw [hmulti]; exact Bool.false_ne_true), hpaths, hwatched]
      simp

/-- A path that was demoted at time `0`. -/
def demotedPath : WatchedPath where
  localCnxid := none
  remoteCnxid := none
  wasLocalCnxidRetired := false
  isDemoted := true
  demotionTime := 0
  retransmitTimer := 0
  challengeFailed := false
  challengeVerified := true
  latestSentTime := 0

/-- A connection with such paths. -/
def demotedPaths (isMultipathEnabled : Bool) (n : ℕ) : AbandonCnx where
  paths := List.replicate n demotedPath
  isMultipathEnabled := isMultipathEnabled
  isSimpleMultipathEnabled := false
  idleTimeout := 1000000
  pathDemotionNeeded := true

/-- With multipath, the only path is deleted. Without, the default path is not deleted, though it is
demoted and its time has passed. -/
theorem last_path_deleted :
    ((demotedPaths true 1).deleteAbandonedPaths 5 1000).1.paths = [] ∧
      ¬ (demotedPaths true 1).DeletesAbandoned 5
        ((demotedPaths true 1).deleteAbandonedPaths 5 1000) ∧
      ¬ (demotedPaths false 2).DeletesAbandoned 5
        ((demotedPaths false 2).deleteAbandonedPaths 5 1000) := by
  refine ⟨by decide, fun h => h.paths_ne_nil (by decide), fun h => ?_⟩
  exact absurd h.paths_eq (by decide)

end AbandonCnx

end Picoquic
