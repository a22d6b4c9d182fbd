import Picoquic.Congestion.TonopahList
import Picoquic.Congestion.TonopahLoss

/-!
# Tonopah on its interval list in memory

`MemTonopah` runs the algorithm with the interval list in memory: each function that touches the
list does it through pointers, and fails where the process would. It refines `Tonopah`, whose
intervals are a plain list: no run fails, and the memory holds that list.

* **`Keeps`** — a property of interval lists that a notification keeps, and what it says of the
  verdicts; the three moves are deletion, the record of an acknowledgement, and a new interval;
* **`Models.notify`** — the step lemma: a notification does in memory what it does to the list, and
  keeps such a property;
* **`packetNumbersGrow_calls`** — the packet numbers that a sender shows to the algorithm;
* **`intervals_well_formed`** — the list in memory in every reachable state.
-/

namespace Picoquic

open Runs IntervalInfo

/-- What an acknowledgement adds to the interval of its packet. -/
def Notification.count (n : Notification) (d : IntervalSide) : IntervalSide :=
  { d with
    rttSum := Binary64.rnd (d.rttSum + Binary64.rnd ((n.cnxPath n.path).smoothedRtt : ℕ))
    numAcks := u64 (d.numAcks + 1) }

/-- Which path of the intervals an acknowledgement is about. -/
def Tonopah.ackedSide (s : Tonopah) (n : Notification) : IntervalPathId :=
  if some n.path = s.path1 then .path1 else .path2

/-- Tonopah with its interval list in memory. The intervals of `core` are not used. -/
structure MemTonopah where
  core : Tonopah
  list : IntervalMemory
  /-- The sums from which verdicts were computed so far, the last one first. -/
  verdicts : List RttSums

namespace MemTonopah

/-- `new_tonopah_delete_info_list`. -/
def deleteInfoList (p : MemTonopah) : Option MemTonopah := do
  let list ← p.list.deleteInfoList
  return { p with list := list }

/-- The test of `picoquic_new_tonopah_sim_enter_recovery` whether there is an interval. -/
def ignoresLoss (p : MemTonopah) : Option Bool :=
  if p.core.nrss.algState = .congestionAvoidance then
    p.list.length.map fun len => decide (len = 0)
  else some false

/-- The list is deleted when both paths are known. -/
def deleteIfKnown (p : MemTonopah) : Option MemTonopah :=
  if p.core.path1.isSome ∧ p.core.path2.isSome then p.deleteInfoList else some p

/-- `picoquic_new_tonopah_sim_enter_recovery`. -/
def simEnterRecovery (p : MemTonopah) (n : Notification) : Option MemTonopah := do
  if ← p.ignoresLoss then return p
  else
    let p ← p.deleteIfKnown
    return { p with core := { p.core with nrss := p.core.nrss.enterRecovery n } }

/-- `picoquic_new_tonopah_sim_notify`. -/
def simNotify (p : MemTonopah) (n : Notification) : Option MemTonopah :=
  match n.notification with
  | .ecnEc | .repeated | .timeout =>
    if n.passesRecoveryGate p.core.nrss then p.simEnterRecovery n else some p
  | _ => some { p with core := p.core.simNotify n }

/-- The bookkeeping of an acknowledgement in the interval of its packet. -/
def recordAck (p : MemTonopah) (n : Notification) : Option MemTonopah := do
  let id := p.core.ackedSide n
  let (list, found) ←
    p.list.findRightInterval id (n.cnxPath n.path).pathPacketAckedNumber
  match found with
  | none => return { p with list := list }
  | some a =>
    let list ← list.modifyNode a fun c => { c with info := c.info.modifySide id n.count }
    return { p with list := list }

/-- The end of an interval: the verdict is drawn. -/
def reactToFq (p : MemTonopah) : Option MemTonopah := do
  let sums ← p.list.aggregateIntervals
  let p := { p with verdicts := sums.toList ++ p.verdicts }
  if sums.elim false RttSums.detectedFq ∧ p.core.nrss.algState = .congestionAvoidance then
    let cwin := fqReducedWindow p.core.nrss.cwin
    deleteInfoList
      { p with core := { p.core with nrss := { p.core.nrss with ssthresh := cwin, cwin := cwin } } }
  else return p

/-- Outside of congestion avoidance there is no interval but the new one. -/
def deleteUnlessAvoiding (p : MemTonopah) : Option MemTonopah :=
  if p.core.nrss.algState = .congestionAvoidance then some p else p.deleteInfoList

/-- The change of intervals in `new_tonopah_set_path`. -/
def changeInterval (p : MemTonopah) (n : Notification) (currentTime : ℕ) : Option MemTonopah := do
  let p ← p.reactToFq
  let p ← p.deleteUnlessAvoiding
  let list ← p.list.append (p.core.newInterval n)
  return { p with core := { p.core with lastChange := currentTime }, list := list }

/-- The intervals change once the newest one has lasted long enough. -/
def changeIfElapsed (p : MemTonopah) (n : Notification) (currentTime : ℕ) : Option MemTonopah :=
  if p.core.intervalElapsed n currentTime then p.changeInterval n currentTime else some p

/-- `new_tonopah_set_path`. -/
def setPath (p : MemTonopah) (n : Notification) (cwin currentTime : ℕ) : Option MemTonopah :=
  if n.nbPaths = 2 ∧ p.core.path1.isSome ∧ p.core.path2.isSome then do
    let p ← p.changeIfElapsed n currentTime
    return { p with core := p.core.splitWindow cwin }
  else some p

/-- A long round trip time raises the window. -/
def raiseForLongDelay (p : MemTonopah) (n : Notification) : Option MemTonopah :=
  let rttMin := (n.cnxPath 0).rttMin
  if targetRenoRtt < (rttMin : ℕ) ∧ p.core.nrss.cwin < longDelayWindow rttMin then
    setPath { p with core := { p.core with
      nrss := { p.core.nrss with cwin := longDelayWindow rttMin } } }
      n (longDelayWindow rttMin) (n.clock 1)
  else some p

/-- `picoquic_new_tonopah_notify`. -/
def notify (p : MemTonopah) (n : Notification) : Option MemTonopah :=
  let p := { p with core := p.core.registerPaths n }
  match n.notification with
  | .acknowledgement =>
    if n.isCwinLimited then do
      let p ← p.simNotify n
      let p ← p.recordAck n
      p.setPath n p.core.nrss.cwin (n.clock 1)
    else some p
  | .ecnEc =>
    if p.core.dominantPath = some n.path then some p
    else do
      let p ← p.simNotify n
      p.setPath n p.core.nrss.cwin (n.clock 1)
  | .seedCwin | .repeated | .timeout | .spuriousRepeat => do
    let p ← p.simNotify n
    p.setPath n p.core.nrss.cwin (n.clock 1)
  | .rttMeasurement =>
    if p.core.nrss.inInitialSlowStart then do
      let p ← p.raiseForLongDelay n
      let (core, exit) := p.core.hystart n
      let p := { p with core := core }
      if exit then p.setPath n p.core.nrss.cwin (n.clock 2) else some p
    else some p
  | .bwMeasurement =>
    if p.core.nrss.inInitialSlowStart ∧ p.core.nrss.cwin < n.bandwidthWindow then
      setPath
        { p with core := { p.core with nrss := { p.core.nrss with cwin := n.bandwidthWindow } } }
        n n.bandwidthWindow (n.clock 1)
    else some p
  | .reset =>
    some { p with core := { p.core with
      nrss := simReset
      rttFilter := .zero
      pathCwin := Function.update p.core.pathCwin n.path simReset.cwin } }
  | .cwinBlocked => some p

/-- One event. -/
def step (p : MemTonopah) : TonopahEvent → Option MemTonopah
  | .init path => some { p with core := p.core.step (.init path) }
  | .notify n => p.notify n

/-- The state of a new connection. -/
def initial : MemTonopah := ⟨Tonopah.initial, .empty, []⟩

/-- A run, unless it fails. -/
def run (evs : List TonopahEvent) : Option MemTonopah := evs.foldlM step initial

end MemTonopah

/-! ### Properties of the interval list -/

/-- The record of an acknowledgement in a list. -/
def recordInIntervals (l : List IntervalInfo) (id : IntervalPathId) (ackNum : ℕ)
    (count : IntervalSide → IntervalSide) : List IntervalInfo :=
  let (l, i) := findRightInterval l id ackNum
  i.elim l fun i => l.modify i (·.modifySide id count)

theorem Tonopah.recordAck_eq (s : Tonopah) (n : Notification) :
    s.recordAck n = { s with
      intervals := recordInIntervals s.intervals (s.ackedSide n)
        (n.cnxPath n.path).pathPacketAckedNumber n.count } := rfl

variable {id : IntervalPathId}

theorem recordInIntervals_of_forall {l : List IntervalInfo} {ackNum : ℕ}
    (hl : ∀ e ∈ l, ackNum < (e.side id).firstSeqNum) (count : IntervalSide → IntervalSide) :
    recordInIntervals l id ackNum count = l := by
  rw [recordInIntervals, findRightInterval_of_forall hl]
  rfl

theorem recordInIntervals_append {l r : List IntervalInfo} {e : IntervalInfo} {ackNum : ℕ}
    (hl : ∀ e ∈ l, ackNum < (e.side id).firstSeqNum) (he : (e.side id).firstSeqNum ≤ ackNum)
    (count : IntervalSide → IntervalSide) :
    recordInIntervals (l ++ e :: r) id ackNum count =
      l ++ e.modifySide id count :: r.modifyHead (·.finish id) := by
  rw [recordInIntervals, findRightInterval_append hl he]
  exact modify_length_append _ _ _ _

/-- A new interval in a list that keeps four. -/
def pushInterval (e : IntervalInfo) (l : List IntervalInfo) : List IntervalInfo :=
  if 4 * intervalsRequired < (e :: l).length then (e :: l).dropLast else e :: l

/-- What an acknowledgement does to a list: nothing, or it is counted and finishes an interval. -/
theorem recordInIntervals_cases (l : List IntervalInfo) (id : IntervalPathId) (ackNum : ℕ)
    (count : IntervalSide → IntervalSide) :
    recordInIntervals l id ackNum count = l ∨ ∃ l' e r, l = l' ++ e :: r ∧
      (∀ e' ∈ l', ackNum < (e'.side id).firstSeqNum) ∧ (e.side id).firstSeqNum ≤ ackNum ∧
      recordInIntervals l id ackNum count =
        l' ++ e.modifySide id count :: r.modifyHead (·.finish id) := by
  rcases hfind : l.find? fun e => decide ((e.side id).firstSeqNum ≤ ackNum) with _ | e
  · have hnone : ∀ e ∈ l, ackNum < (e.side id).firstSeqNum := fun e he => by
      simpa using List.find?_eq_none.mp hfind e he
    exact Or.inl (recordInIntervals_of_forall hnone count)
  · obtain ⟨he, l', r, rfl, hl⟩ := List.find?_eq_some_iff_append.mp hfind
    have he' : (e.side id).firstSeqNum ≤ ackNum := by simpa using he
    have hl' : ∀ e' ∈ l', ackNum < (e'.side id).firstSeqNum := fun e' h => by simpa using hl e' h
    exact Or.inr ⟨l', e, r, rfl, hl', he', recordInIntervals_append hl' he' count⟩

/-- A property `I` of interval lists that holds of the list `l₀` and is kept by the moves of a
notification, once its paths are registered as in `r`; it bounds the list, leaves the newest
interval unfinished, and gives the property `V` of the sums that verdicts are computed from. -/
structure KeepsIntervals (r : Tonopah) (n : Notification) (l₀ : List IntervalInfo)
    (I : List IntervalInfo → Prop) (V : RttSums → Prop) : Prop where
  holds : I l₀
  delete : I []
  record : n.notification = .acknowledgement → n.isCwinLimited = true →
    I (recordInIntervals l₀ (r.ackedSide n) (n.cnxPath n.path).pathPacketAckedNumber n.count)
  push : n.nbPaths = 2 → r.path1.isSome → r.path2.isSome → ∀ l, I l →
    I (pushInterval (r.newInterval n) l)
  length_le : ∀ l, I l → l.length ≤ 4 * intervalsRequired
  newest : ∀ l, I l → ∀ e ∈ l.head?, e.isFinished = false
  verdict : ∀ l, I l → ∀ v ∈ aggregateSums l ⟨0, 0, 0, 0, 0⟩, V v

namespace MemTonopah

/-- The memory holds the intervals of `s`, whose paths are those of `r`; the list has property `I`
and the verdicts have property `V`. -/
structure Models (p : MemTonopah) (s r : Tonopah) (I : List IntervalInfo → Prop)
    (V : RttSums → Prop) : Prop where
  represents : ∃ nodes, p.list.Represents nodes ∧
    s = { p.core with intervals := nodes.map Prod.snd }
  path1_eq : s.path1 = r.path1
  path2_eq : s.path2 = r.path2
  dominantPath_eq : s.dominantPath = r.dominantPath
  intervals : I s.intervals
  verdicts : ∀ v ∈ p.verdicts, V v

/-! ### The step lemma -/

namespace Models

variable {p : MemTonopah} {s r : Tonopah} {n : Notification} {l₀ : List IntervalInfo}
  {I I₀ : List IntervalInfo → Prop} {V : RttSums → Prop}

section

variable (h : p.Models s r I V)

include h

/-- A change of the state that leaves paths and intervals alone. -/
theorem mapCore {f : Tonopah → Tonopah}
    (hf : ∀ t l, f { t with intervals := l } = { f t with intervals := l })
    (h1 : (f s).path1 = s.path1) (h2 : (f s).path2 = s.path2)
    (hd : (f s).dominantPath = s.dominantPath) :
    MemTonopah.Models { p with core := f p.core } (f s) r I V := by
  obtain ⟨⟨nodes, hrep, rfl⟩, hp1, hp2, hpd, hI, hV⟩ := h
  have hs := hf p.core (nodes.map Prod.snd)
  refine ⟨⟨nodes, hrep, hs⟩, h1.trans hp1, h2.trans hp2, hd.trans hpd, ?_, hV⟩
  rw [hs]
  exact hI

theorem deleteInfoList (hI : I []) :
    ∃ p', p.deleteInfoList = some p' ∧ p'.Models s.deleteInfoList r I V := by
  obtain ⟨⟨nodes, hrep, rfl⟩, hp1, hp2, hpd, -, hV⟩ := h
  obtain ⟨m, hm, hrep'⟩ := hrep.deleteInfoList
  refine ⟨{ p with list := m }, ?_, ⟨[], hrep', rfl⟩, hp1, hp2, hpd, hI, hV⟩
  rw [MemTonopah.deleteInfoList, hm]
  rfl

theorem nrss_eq : p.core.nrss = s.nrss := by
  obtain ⟨nodes, -, rfl⟩ := h.represents
  rfl

theorem setNrss (nrss : SimState) : MemTonopah.Models
    { p with core := { p.core with nrss := nrss } } { s with nrss := nrss } r I V :=
  h.mapCore (f := fun t => { t with nrss := nrss }) (fun _ _ => rfl) rfl rfl rfl

theorem deleteIfKnown (hI : I []) :
    ∃ p', p.deleteIfKnown = some p' ∧ p'.Models
      (if s.path1.isSome ∧ s.path2.isSome then s.deleteInfoList else s) r I V := by
  obtain ⟨nodes, -, rfl⟩ := h.represents
  rw [MemTonopah.deleteIfKnown]
  split_ifs
  · exact h.deleteInfoList hI
  · exact ⟨p, rfl, h⟩

theorem deleteUnlessAvoiding (hI : I []) :
    ∃ p', p.deleteUnlessAvoiding = some p' ∧ p'.Models
      (if s.nrss.algState = .congestionAvoidance then s else s.deleteInfoList) r I V := by
  obtain ⟨nodes, -, rfl⟩ := h.represents
  rw [MemTonopah.deleteUnlessAvoiding]
  split_ifs
  · exact ⟨p, rfl, h⟩
  · exact h.deleteInfoList hI

theorem ignoresLoss : p.ignoresLoss =
    some (decide (s.nrss.algState = .congestionAvoidance ∧ s.intervals.length = 0)) := by
  obtain ⟨nodes, hrep, rfl⟩ := h.represents
  rw [MemTonopah.ignoresLoss, hrep.length_eq]
  split_ifs with hstate <;> simp [hstate]

/-- The reaction to a loss. -/
theorem simEnterRecovery (hI : I []) (n : Notification) :
    ∃ p', p.simEnterRecovery n = some p' ∧ p'.Models (s.simEnterRecovery n) r I V := by
  obtain ⟨p', hp', hmod⟩ := h.deleteIfKnown hI
  simp only [MemTonopah.simEnterRecovery, Tonopah.simEnterRecovery, h.ignoresLoss, hp',
    Option.bind_eq_bind, Option.bind_some]
  by_cases hignored : s.nrss.algState = .congestionAvoidance ∧ s.intervals.length = 0
  · rw [decide_eq_true hignored, if_pos hignored]
    exact ⟨p, rfl, h⟩
  · rw [decide_eq_false hignored, if_neg hignored]
    refine ⟨_, rfl, ?_⟩
    rw [hmod.nrss_eq]
    exact hmod.setNrss _

/-- The window update. -/
theorem simNotify (hI : I []) (n : Notification) :
    ∃ p', p.simNotify n = some p' ∧ p'.Models (s.simNotify n) r I V := by
  obtain ⟨nodes, hrep, rfl⟩ := h.represents
  rw [MemTonopah.simNotify, Tonopah.simNotify]
  rcases hn : n.notification <;> simp only [Tonopah.simNotify, hn]
  case ecnEc | repeated | timeout =>
    split_ifs
    · exact h.simEnterRecovery hI n
    · exact ⟨p, rfl, h⟩
  -- what is left changes the window at most
  case bwMeasurement | rttMeasurement | cwinBlocked => exact ⟨_, rfl, h⟩
  all_goals exact ⟨_, rfl, h.setNrss _⟩

/-- The bookkeeping of an acknowledgement. -/
theorem recordAck
    (hI : I (recordInIntervals s.intervals (r.ackedSide n)
      (n.cnxPath n.path).pathPacketAckedNumber n.count)) :
    ∃ p', p.recordAck n = some p' ∧ p'.Models (s.recordAck n) r I V := by
  have hside : s.ackedSide n = r.ackedSide n := by rw [Tonopah.ackedSide, h.path1_eq]; rfl
  obtain ⟨⟨nodes, hrep, rfl⟩, hp1, hp2, hpd, -, hV⟩ := h
  have hcore : p.core.ackedSide n = r.ackedSide n := hside
  rw [Tonopah.recordAck_eq, hside, MemTonopah.recordAck, hcore]
  generalize r.ackedSide n = id at hI ⊢
  generalize ((n.cnxPath n.path).pathPacketAckedNumber : ℕ) = ackNum at hI ⊢
  rcases hfind : nodes.find? fun x => decide ((x.2.side id).firstSeqNum ≤ ackNum) with _ | ⟨a, e⟩
  · have hnone : ∀ x ∈ nodes, ackNum < (x.2.side id).firstSeqNum := fun x hx => by
      simpa using List.find?_eq_none.mp hfind x hx
    rw [recordInIntervals_of_forall (by simpa using fun e a h => hnone _ h)] at hI ⊢
    rw [hrep.findRightInterval_of_forall hnone]
    exact ⟨p, rfl, ⟨nodes, hrep, rfl⟩, hp1, hp2, hpd, hI, hV⟩
  · -- the interval is found, and the one before it is finished
    obtain ⟨he, l, r', rfl, hl⟩ := List.find?_eq_some_iff_append.mp hfind
    have he' : (e.side id).firstSeqNum ≤ ackNum := by simpa using he
    have hl' : ∀ x ∈ l, ackNum < (x.2.side id).firstSeqNum := fun x hx => by simpa using hl x hx
    obtain ⟨m₁, hm₁, hrep₁⟩ := hrep.findRightInterval rfl hl' he'
    obtain ⟨m₂, hm₂, hrep₂⟩ := hrep₁.modifyInfo rfl (·.modifySide id n.count)
    have hmap : (l ++ (a, e.modifySide id n.count) ::
          r'.modifyHead (Prod.map (fun b => b) (·.finish id))).map Prod.snd =
        recordInIntervals ((l ++ (a, e) :: r').map Prod.snd) id ackNum n.count := by
      have hlist := recordInIntervals_append (l := l.map Prod.snd) (r := r'.map Prod.snd)
        (by simpa using fun e a h => hl' (a, e) h) he' n.count
      rw [List.map_append, List.map_append, List.map_cons, List.map_cons, hlist]
      cases r' <;> simp
    simp only [hm₁, hm₂, Option.bind_eq_bind, Option.bind_some]
    exact ⟨_, rfl, ⟨_, hrep₂, by rw [hmap]⟩, hp1, hp2, hpd, hI, hV⟩

/-- The end of an interval. -/
theorem reactToFq (hk : KeepsIntervals r n l₀ I V) :
    ∃ p', p.reactToFq = some p' ∧ p'.Models s.reactToFq r I V := by
  obtain ⟨⟨nodes, hrep, rfl⟩, hp1, hp2, hpd, hI, hV⟩ := h
  have hnewest : ∀ x ∈ nodes.head?, x.2.isFinished = false := fun x hx =>
    hk.newest _ hI x.2 (by rw [List.head?_map]; exact Option.mem_map_of_mem _ hx)
  have hverdict := hk.verdict _ hI
  rw [MemTonopah.reactToFq, Tonopah.reactToFq, hrep.aggregateIntervals_eq hnewest,
    Picoquic.aggregateIntervals, aggregateLoop_eq]
  generalize aggregateSums (nodes.map Prod.snd) ⟨0, 0, 0, 0, 0⟩ = sums at hverdict ⊢
  have hmod : MemTonopah.Models { p with verdicts := sums.toList ++ p.verdicts }
      { p.core with intervals := nodes.map Prod.snd } r I V := by
    refine ⟨⟨nodes, hrep, rfl⟩, hp1, hp2, hpd, hI, ?_⟩
    intro v hv
    rcases List.mem_append.mp hv with hv | hv
    · exact hverdict v (by simpa using hv)
    · exact hV v hv
  simp only [Option.bind_eq_bind, Option.bind_some]
  split_ifs with hfq
  · exact (hmod.setNrss _).deleteInfoList hk.delete
  · exact ⟨_, rfl, hmod⟩

/-- A new interval. -/
theorem changeInterval (hk : KeepsIntervals r n l₀ I V)
    (hnb : n.nbPaths = 2) (h1 : s.path1.isSome) (h2 : s.path2.isSome) (currentTime : ℕ) :
    ∃ p', p.changeInterval n currentTime = some p' ∧
      p'.Models (s.changeInterval n currentTime) r I V := by
  have hr1 : r.path1.isSome := h.path1_eq ▸ h1
  have hr2 : r.path2.isSome := h.path2_eq ▸ h2
  obtain ⟨p₁, hp₁, hmod₁⟩ := h.reactToFq hk
  obtain ⟨p₂, hp₂, hmod₂⟩ := hmod₁.deleteUnlessAvoiding hk.delete
  rw [MemTonopah.changeInterval, Tonopah.changeInterval]
  simp only [hp₁, hp₂, Option.bind_eq_bind, Option.bind_some]
  generalize (if s.reactToFq.nrss.algState = .congestionAvoidance then s.reactToFq
    else s.reactToFq.deleteInfoList) = t at hmod₂ ⊢
  obtain ⟨⟨nodes, hrep, rfl⟩, hp1, hp2, hpd, hI, hV⟩ := hmod₂
  obtain ⟨m, hm, hrep'⟩ := hrep.append (by simpa using hk.length_le _ hI) (p₂.core.newInterval n)
  have hnew : p₂.core.newInterval n = r.newInterval n := by
    simp only at hp1 hp2 hpd
    simp only [Tonopah.newInterval, hp1, hp2, hpd]
  have hpush := hk.push hnb hr1 hr2 _ hI
  have hmap : (if 4 * intervalsRequired < nodes.length + 1 then
        ((p₂.list.size, p₂.core.newInterval n) :: nodes).dropLast
      else (p₂.list.size, p₂.core.newInterval n) :: nodes).map Prod.snd =
      pushInterval (r.newInterval n) (nodes.map Prod.snd) := by
    rw [pushInterval, hnew, List.length_cons, List.length_map]
    split_ifs
    · rw [List.map_dropLast, List.map_cons]
    · rw [List.map_cons]
  rw [hm]
  refine ⟨_, rfl, ⟨_, hrep', ?_⟩, hp1, hp2, hpd, ?_, hV⟩
  · rw [hmap, ← hnew]
    rfl
  · rw [← hnew] at hpush
    exact hpush

theorem splitWindow (cwin : ℕ) :
    MemTonopah.Models { p with core := p.core.splitWindow cwin } (s.splitWindow cwin) r I V := by
  have hframe : ∀ t : Tonopah, (t.splitWindow cwin).path1 = t.path1 ∧
      (t.splitWindow cwin).path2 = t.path2 ∧
      (t.splitWindow cwin).dominantPath = t.dominantPath := by
    intro t
    rw [Tonopah.splitWindow]
    split_ifs <;> exact ⟨rfl, rfl, rfl⟩
  obtain ⟨h1, h2, hd⟩ := hframe s
  refine h.mapCore (f := fun t => t.splitWindow cwin) ?_ h1 h2 hd
  intro t l
  simp only [Tonopah.splitWindow]
  split_ifs <;> rfl

/-- The split of the window, and a new interval before it. -/
theorem setPath (hk : KeepsIntervals r n l₀ I V) (cwin currentTime : ℕ) :
    ∃ p', p.setPath n cwin currentTime = some p' ∧
      p'.Models (s.setPath n cwin currentTime) r I V := by
  obtain ⟨nodes, -, rfl⟩ := h.represents
  rw [MemTonopah.setPath, Tonopah.setPath]
  split_ifs with hknown helapsed
  · obtain ⟨hnb, h1, h2⟩ := hknown
    obtain ⟨p', hp', hmod⟩ := h.changeInterval hk hnb h1 h2 currentTime
    have helapsed' : p.core.intervalElapsed n currentTime = true := helapsed
    rw [changeIfElapsed, if_pos helapsed', hp']
    exact ⟨_, rfl, hmod.splitWindow cwin⟩
  · have helapsed' : ¬ p.core.intervalElapsed n currentTime = true := helapsed
    rw [changeIfElapsed, if_neg helapsed']
    exact ⟨_, rfl, h.splitWindow cwin⟩
  · exact ⟨p, rfl, h⟩

theorem raiseForLongDelay (hk : KeepsIntervals r n l₀ I V) :
    ∃ p', p.raiseForLongDelay n = some p' ∧ p'.Models (s.raiseForLongDelay n) r I V := by
  rw [MemTonopah.raiseForLongDelay, Tonopah.raiseForLongDelay, h.nrss_eq]
  simp only
  split_ifs
  · exact (h.setNrss _).setPath hk _ _
  · exact ⟨p, rfl, h⟩

theorem hystart (n : Notification) :
    MemTonopah.Models { p with core := (p.core.hystart n).1 } (s.hystart n).1 r I V ∧
      (p.core.hystart n).2 = (s.hystart n).2 := by
  obtain ⟨nodes, -, rfl⟩ := h.represents
  exact ⟨h.mapCore (f := fun t => (t.hystart n).1) (fun _ _ => rfl) rfl rfl rfl, rfl⟩

theorem simNotify_setPath (hk : KeepsIntervals r n l₀ I V)
    (currentTime : ℕ) : ∃ p',
      ((p.simNotify n).bind fun p => p.setPath n p.core.nrss.cwin currentTime) = some p' ∧
      p'.Models ((s.simNotify n).setPath n (s.simNotify n).nrss.cwin currentTime) r I V := by
  obtain ⟨p', hp', hmod⟩ := h.simNotify hk.delete n
  rw [hp', Option.bind_some, hmod.nrss_eq]
  exact hmod.setPath hk _ _

end

/-- What a notification begins with leaves the intervals alone. -/
theorem registerPaths {s : Tonopah} (h : p.Models s s I₀ V)
    (hk : KeepsIntervals (s.registerPaths n) n s.intervals I V) :
    MemTonopah.Models { p with core := p.core.registerPaths n } (s.registerPaths n)
      (s.registerPaths n) I V := by
  obtain ⟨⟨nodes, hrep, rfl⟩, -, -, -, -, hV⟩ := h
  refine ⟨⟨nodes, hrep, ?_⟩, rfl, rfl, rfl, ?_, hV⟩
  · simp only [Tonopah.registerPaths, Tonopah.learnPath]
    split_ifs <;> rfl
  · rw [Tonopah.registerPaths_intervals]
    exact hk.holds

/-- The reaction to an acknowledgement: its interval is found among those before it. -/
theorem acknowledgement (h : p.Models s r I V) (hk : KeepsIntervals r n s.intervals I V)
    (hn : n.notification = .acknowledgement) (hlim : n.isCwinLimited = true) :
    ∃ p', ((p.simNotify n).bind fun p => (p.recordAck n).bind fun p =>
        p.setPath n p.core.nrss.cwin (n.clock 1)) = some p' ∧
      p'.Models (((s.simNotify n).recordAck n).setPath n ((s.simNotify n).recordAck n).nrss.cwin
        (n.clock 1)) r I V := by
  obtain ⟨p₁, hp₁, hmod₁⟩ := h.simNotify hk.delete n
  have hsame : (s.simNotify n).intervals = s.intervals := by rw [Tonopah.simNotify, hn]
  obtain ⟨p₂, hp₂, hmod₂⟩ := hmod₁.recordAck (by rw [hsame]; exact hk.record hn hlim)
  rw [hp₁, Option.bind_some, hp₂, Option.bind_some, hmod₂.nrss_eq]
  exact hmod₂.setPath hk _ _

/-- The reaction to a round trip time in the initial slow start. -/
theorem rttMeasurement (h : p.Models s r I V) (hk : KeepsIntervals r n l₀ I V) :
    ∃ p', ((p.raiseForLongDelay n).bind fun p =>
        if (p.core.hystart n).2 then
          MemTonopah.setPath { p with core := (p.core.hystart n).1 } n
            (p.core.hystart n).1.nrss.cwin (n.clock 2)
        else some { p with core := (p.core.hystart n).1 }) = some p' ∧
      p'.Models (if ((s.raiseForLongDelay n).hystart n).2 then
          ((s.raiseForLongDelay n).hystart n).1.setPath n
            ((s.raiseForLongDelay n).hystart n).1.nrss.cwin (n.clock 2)
        else ((s.raiseForLongDelay n).hystart n).1) r I V := by
  obtain ⟨p₁, hp₁, hmod₁⟩ := h.raiseForLongDelay hk
  obtain ⟨hmod₂, hexit⟩ := hmod₁.hystart n
  have hcwin : (p₁.core.hystart n).1.nrss.cwin = ((s.raiseForLongDelay n).hystart n).1.nrss.cwin :=
    congrArg SimState.cwin hmod₂.nrss_eq
  rw [hp₁, Option.bind_some, hexit, hcwin]
  split_ifs
  · exact hmod₂.setPath hk _ _
  · exact ⟨_, rfl, hmod₂⟩

/-- **Step lemma.** A notification does in memory what it does to the list of intervals, and keeps
what the moves of that list keep. -/
theorem notify {s : Tonopah} (h : p.Models s s I₀ V)
    (hk : KeepsIntervals (s.registerPaths n) n s.intervals I V) :
    ∃ p', p.notify n = some p' ∧ p'.Models (s.notify n) (s.registerPaths n) I V := by
  have hreg := h.registerPaths hk
  have hsame := s.registerPaths_intervals n
  rw [MemTonopah.notify, Tonopah.notify]
  generalize s.registerPaths n = r at hk hreg hsame ⊢
  generalize ({ p with core := p.core.registerPaths n } : MemTonopah) = p' at hreg ⊢
  rcases hn : n.notification <;> simp only
  case acknowledgement =>
    split_ifs with hlim
    · exact hreg.acknowledgement (hsame ▸ hk) hn hlim
    · exact ⟨p', rfl, hreg⟩
  case ecnEc =>
    have hd : p'.core.dominantPath = r.dominantPath := by
      obtain ⟨nodes, -, rfl⟩ := hreg.represents
      rfl
    rw [hd]
    split_ifs
    · exact ⟨p', rfl, hreg⟩
    · exact hreg.simNotify_setPath hk _
  case rttMeasurement =>
    rw [hreg.nrss_eq]
    by_cases hslow : r.nrss.inInitialSlowStart = true
    · rw [if_pos hslow, if_pos hslow]
      exact hreg.rttMeasurement hk
    · rw [if_neg hslow, if_neg hslow]
      exact ⟨p', rfl, hreg⟩
  case bwMeasurement =>
    rw [hreg.nrss_eq]
    split_ifs
    · exact (hreg.setNrss _).setPath hk _ _
    · exact ⟨p', rfl, hreg⟩
  case reset =>
    refine ⟨_, rfl, hreg.mapCore (f := fun t => { t with
      nrss := simReset
      rttFilter := .zero
      pathCwin := Function.update t.pathCwin n.path simReset.cwin }) (fun _ _ => rfl) rfl rfl rfl⟩
  case cwinBlocked => exact ⟨p', rfl, hreg⟩
  all_goals exact hreg.simNotify_setPath hk _

theorem init (h : p.Models s s I₀ V) (path : PathIndex) :
    ∃ p', p.step (.init path) = some p' ∧
      p'.Models (s.step (.init path)) (s.step (.init path)) I₀ V := by
  obtain ⟨⟨nodes, hrep, rfl⟩, -, -, -, hI, hV⟩ := h
  exact ⟨_, rfl, ⟨nodes, hrep, rfl⟩, rfl, rfl, rfl, hI, hV⟩

end Models

end MemTonopah

/-! ### The list in every reachable state -/

/-- The numbers that an interval begins with. -/
def IntervalInfo.firstSeqNums (e : IntervalInfo) (id : IntervalPathId) : ℕ :=
  (e.side id).firstSeqNum

/-- The next packet numbers of the paths. -/
def Notification.packetNumbers (n : Notification) (path : PathIndex) : ℕ :=
  (n.cnxPath path).pathPacketNumber

/-- The next packet numbers, when a notification comes with both paths. -/
def TonopahEvent.packetNumbers : TonopahEvent → Option (PathIndex → ℕ)
  | .init _ => none
  | .notify n => if n.nbPaths = 2 then some n.packetNumbers else none

/-- **The packet numbers of a path never go back.** -/
def PacketNumbersGrow (evs : List TonopahEvent) : Prop :=
  (evs.filterMap TonopahEvent.packetNumbers).Pairwise (· ≤ ·)

instance (evs : List TonopahEvent) : Decidable (PacketNumbersGrow evs) :=
  have : DecidableRel fun c c' : PathIndex → ℕ => c ≤ c' := fun c c' =>
    inferInstanceAs (Decidable (∀ path, c path ≤ c' path))
  inferInstanceAs (Decidable ((evs.filterMap TonopahEvent.packetNumbers).Pairwise (· ≤ ·)))

/-- What happens at a sender: a packet leaves on a path, or the algorithm is called. -/
inductive SenderEvent
  | send (path : PathIndex)
  | call (ev : TonopahEvent)

/-- A call that reads `path_packet_number` of the paths. -/
def TonopahEvent.reading (sent : PathIndex → Uint64) : TonopahEvent → TonopahEvent
  | .init path => .init path
  | .notify n => .notify
      { n with cnxPath := fun path => { n.cnxPath path with pathPacketNumber := sent path } }

/-- The calls of the algorithm. Each packet increments `path_packet_number` of its path. -/
def calls (sent : PathIndex → Uint64) : List SenderEvent → List TonopahEvent
  | [] => []
  | .send path :: evs => calls (Function.update sent path (sent path + 1)) evs
  | .call ev :: evs => ev.reading sent :: calls sent evs

/-- The packet numbers of a sender never go back, up to `2 ^ 64` packets. -/
theorem packetNumbersGrow_calls {sent : PathIndex → Uint64} {evs : List SenderEvent}
    (h : ∀ path, (sent path : ℕ) + evs.length < 2 ^ 64) :
    (∀ c ∈ (calls sent evs).filterMap TonopahEvent.packetNumbers,
        (fun path => (sent path : ℕ)) ≤ c) ∧
      PacketNumbersGrow (calls sent evs) := by
  induction evs generalizing sent with
  | nil => exact ⟨fun _ hc => absurd hc List.not_mem_nil, List.Pairwise.nil⟩
  | cons ev evs ih =>
    rw [List.length_cons] at h
    cases ev with
    | send path =>
      have hnext : ∀ p, (sent p : ℕ) ≤ (Function.update sent path (sent path + 1) p : Uint64) ∧
          ((Function.update sent path (sent path + 1) p : Uint64) : ℕ) ≤ sent p + 1 := by
        intro p
        have hp := h p
        by_cases hpath : p = path
        · subst hpath
          rw [Function.update_self, Fin.val_add_one_of_lt' (by omega)]
          omega
        · rw [Function.update_of_ne hpath]
          omega
      have hrest : ∀ p, (Function.update sent path (sent path + 1) p : ℕ) + evs.length < 2 ^ 64 :=
        fun p => by have := h p; have := hnext p; omega
      obtain ⟨hbelow, hgrow⟩ := ih hrest
      exact ⟨fun c hc p => (hnext p).1.trans (hbelow c hc p), hgrow⟩
    | call ev =>
      have hrest : ∀ p, (sent p : ℕ) + evs.length < 2 ^ 64 := fun p => by have := h p; omega
      obtain ⟨hbelow, hgrow⟩ := ih hrest
      have hread : ∀ c ∈ (ev.reading sent).packetNumbers, c = fun path => (sent path : ℕ) := by
        intro c hc
        cases ev with
        | init path => cases hc
        | notify n =>
          simp only [TonopahEvent.reading, TonopahEvent.packetNumbers] at hc
          split_ifs at hc
          · exact (Option.some.inj hc).symm
          · cases hc
      rw [calls, PacketNumbersGrow, List.filterMap_cons]
      cases hev : (ev.reading sent).packetNumbers with
      | none => exact ⟨hbelow, hgrow⟩
      | some c =>
        obtain rfl := hread c hev
        exact ⟨List.forall_mem_cons.mpr ⟨le_rfl, hbelow⟩, List.pairwise_cons.mpr ⟨hbelow, hgrow⟩⟩

/-- The packet numbers by the names that the intervals have for the paths. -/
def Tonopah.sideNumbers (s : Tonopah) (b : PathIndex → ℕ) : IntervalPathId → ℕ
  | .path1 => s.path1.elim 0 b
  | .path2 => s.path2.elim 0 b

/-- The list is short and its newest interval is not finished. When packet numbers grow, it is
sorted, and no interval began with a number above `b`. -/
structure IntervalsSound (grow : Prop) (b : IntervalPathId → ℕ) (l : List IntervalInfo) : Prop where
  length_le : l.length ≤ 4 * intervalsRequired
  newest : ∀ e ∈ l.head?, ∀ id, (e.side id).finished = false
  sorted : grow → (l.map IntervalInfo.firstSeqNums).Pairwise (· ≥ ·)
  below : grow → ∀ f ∈ l.map IntervalInfo.firstSeqNums, f ≤ b

namespace IntervalsSound

variable {grow : Prop} {b b' : IntervalPathId → ℕ} {l : List IntervalInfo}

theorem nil : IntervalsSound grow b [] :=
  ⟨Nat.zero_le _, by simp, fun _ => List.Pairwise.nil, by simp⟩

theorem mono (h : IntervalsSound grow b l) (hb : grow → b ≤ b') : IntervalsSound grow b' l :=
  ⟨h.length_le, h.newest, h.sorted, fun hg f hf => (h.below hg f hf).trans (hb hg)⟩

/-- Only an interval before the newest one is finished, and where intervals begin stays. -/
theorem record (h : IntervalsSound grow b l) (id : IntervalPathId) (ackNum : ℕ)
    {count : IntervalSide → IntervalSide} (hfirst : ∀ d, (count d).firstSeqNum = d.firstSeqNum)
    (hfinished : ∀ d, (count d).finished = d.finished) :
    IntervalsSound grow b (recordInIntervals l id ackNum count) := by
  rcases recordInIntervals_cases l id ackNum count with heq | ⟨l', e, r, rfl, -, -, heq⟩
  · rwa [heq]
  · have hside : ∀ e : IntervalInfo, ∀ f : IntervalSide → IntervalSide,
        (∀ d, (f d).firstSeqNum = d.firstSeqNum) →
        (e.modifySide id f).firstSeqNums = e.firstSeqNums := by
      intro e f hf
      funext id'
      rcases eq_or_ne id' id with rfl | hne
      · simp [firstSeqNums, modifySide, hf]
      · simp [firstSeqNums, modifySide, hne]
    have hmap : (recordInIntervals (l' ++ e :: r) id ackNum count).map firstSeqNums =
        (l' ++ e :: r).map firstSeqNums := by
      rw [heq]
      simp only [List.map_append, List.map_cons, hside e count hfirst]
      rcases r with _ | ⟨e', r⟩
      · rfl
      · simp only [List.modifyHead_cons, List.map_cons, finish]
        rw [hside e' (fun d => { d with finished := true }) fun _ => rfl]
    have hlen : (recordInIntervals (l' ++ e :: r) id ackNum count).length =
        (l' ++ e :: r).length := by
      rw [← List.length_map, hmap, List.length_map]
    refine ⟨hlen ▸ h.length_le, ?_, by rw [hmap]; exact h.sorted, by rw [hmap]; exact h.below⟩
    rw [heq]
    intro e' he' id'
    rcases l' with _ | ⟨e'', l'⟩
    · -- the newest interval counts the acknowledgement, which does not finish it
      obtain rfl : e.modifySide id count = e' := by simpa using he'
      have hnew := h.newest e rfl
      rcases eq_or_ne id' id with rfl | hne
      · simpa [modifySide, hfinished] using hnew id'
      · simpa [modifySide, hne] using hnew id'
    · obtain rfl : e'' = e' := by simpa using he'
      exact h.newest e'' rfl id'

/-- A new interval is unfinished, and begins with the latest numbers. -/
theorem push (h : IntervalsSound grow b l) {e : IntervalInfo}
    (hnew : ∀ id, (e.side id).finished = false) (he : e.firstSeqNums = b) :
    IntervalsSound grow b (pushInterval e l) := by
  have hsub : (pushInterval e l).Sublist (e :: l) := by
    rw [pushInterval]
    split_ifs
    · exact List.dropLast_sublist _
    · exact List.Sublist.refl _
  refine ⟨?_, ?_, ?_, ?_⟩
  · have hle := h.length_le
    rw [pushInterval]
    split_ifs with hfull
    · simpa using hle
    · omega
  · have hhead : (pushInterval e l).head? = some e := by
      rw [pushInterval]
      split_ifs with hfull
      · rcases l with _ | ⟨e', l⟩
        · exact absurd hfull (by rw [List.length_singleton]; decide)
        · rfl
      · rfl
    intro e' he' id
    obtain rfl : e = e' := by simpa [hhead] using he'
    exact hnew id
  · intro hg
    refine List.Pairwise.sublist (hsub.map _) ?_
    rw [List.map_cons, List.pairwise_cons, he]
    exact ⟨h.below hg, h.sorted hg⟩
  · intro hg f hf
    rcases List.mem_cons.mp ((hsub.map _).subset hf) with rfl | hf
    · exact he.le
    · exact h.below hg f hf

/-- The moves of a notification keep the list sound, up to the packet numbers it comes with. -/
theorem keepsIntervals {r : Tonopah} {n : Notification} {c c' : PathIndex → ℕ}
    (h : IntervalsSound grow (r.sideNumbers c) l) (hc : grow → c ≤ c')
    (hn : n.nbPaths = 2 → c' = n.packetNumbers) :
    KeepsIntervals r n l (IntervalsSound grow (r.sideNumbers c')) (fun _ => True) := by
  have hmono : grow → r.sideNumbers c ≤ r.sideNumbers c' := by
    intro hg id
    rcases id <;> simp only [Tonopah.sideNumbers]
    · rcases r.path1 with _ | path
      · exact le_rfl
      · exact hc hg path
    · rcases r.path2 with _ | path
      · exact le_rfl
      · exact hc hg path
  refine ⟨h.mono hmono, nil, ?_, ?_, fun _ hl => hl.length_le, ?_, fun _ _ _ _ => trivial⟩
  · intro _ _
    exact (h.mono hmono).record _ _ (fun _ => rfl) fun _ => rfl
  · intro hnb _ _ l hl
    rw [hn hnb] at hl ⊢
    exact hl.push (fun id => by rcases id <;> rfl) (by funext id; rcases id <;> rfl)
  · intro l hl e he
    rw [isFinished, hl.newest e he]
    rfl

end IntervalsSound

/-- What is known of the paths only grows. -/
theorem Tonopah.sideNumbers_registerPaths (s : Tonopah) (n : Notification) (c : PathIndex → ℕ) :
    s.sideNumbers c ≤ (s.registerPaths n).sideNumbers c := by
  have hpaths : ∀ t : Tonopah, t.path1 = (s.learnPath n.path).path1 →
      t.path2 = (s.learnPath n.path).path2 → s.sideNumbers c ≤ t.sideNumbers c := by
    intro t h1 h2 id
    rcases id <;> simp only [Tonopah.sideNumbers, h1, h2, Tonopah.learnPath]
    · rcases hp : s.path1 with _ | path
      · exact Nat.zero_le _
      · simp only [reduceCtorEq, if_false]
        split_ifs <;> simp [hp]
    · rcases hp : s.path2 with _ | path
      · exact Nat.zero_le _
      · split_ifs <;> simp_all
  rw [Tonopah.registerPaths]
  split_ifs
  · exact hpaths _ rfl rfl
  · exact hpaths _ rfl rfl

namespace MemTonopah

/-- **Run lemma.** No run fails, and the memory holds the list of the intervals, which is sound. -/
theorem Models.run {grow : Prop} {c : PathIndex → ℕ} {p : MemTonopah} {s : Tonopah}
    (h : p.Models s s (IntervalsSound grow (s.sideNumbers c)) fun _ => True)
    {evs : List TonopahEvent}
    (hevs : grow → (∀ c' ∈ evs.filterMap TonopahEvent.packetNumbers, c ≤ c') ∧
      PacketNumbersGrow evs) :
    ∃ p' b, evs.foldlM step p = some p' ∧
      p'.Models (Runs.run Tonopah.step s evs) (Runs.run Tonopah.step s evs) (IntervalsSound grow b)
        fun _ => True := by
  induction evs generalizing c p s with
  | nil => exact ⟨p, _, rfl, h⟩
  | cons ev evs ih =>
    rcases ev with path | n
    · obtain ⟨p', hp', hmod⟩ := h.init path
      obtain ⟨p'', b, hp'', hmod'⟩ := ih (c := c) hmod hevs
      exact ⟨p'', b, by rw [List.foldlM_cons, hp']; exact hp'', hmod'⟩
    · -- the numbers up to which the list is sound are those of the last notification with two paths
      have hnext : ∃ c', (grow → c ≤ c') ∧ (n.nbPaths = 2 → c' = n.packetNumbers) ∧
          (grow → (∀ d ∈ evs.filterMap TonopahEvent.packetNumbers, c' ≤ d) ∧
            PacketNumbersGrow evs) := by
        by_cases hnb : n.nbPaths = 2
        · refine ⟨n.packetNumbers, fun hg => ?_, fun _ => rfl, fun hg => ?_⟩
          · exact (hevs hg).1 _ (by simp [TonopahEvent.packetNumbers, hnb])
          · have hsorted := (hevs hg).2
            rw [PacketNumbersGrow, List.filterMap_cons, TonopahEvent.packetNumbers, if_pos hnb]
              at hsorted
            exact List.pairwise_cons.mp hsorted
        · refine ⟨c, fun _ => le_rfl, fun h => absurd h hnb, fun hg => ?_⟩
          have hall := hevs hg
          rwa [PacketNumbersGrow, List.filterMap_cons, TonopahEvent.packetNumbers, if_neg hnb]
            at hall
      obtain ⟨c', hc, hn, hrest⟩ := hnext
      have hsound := h.intervals.mono fun _ => s.sideNumbers_registerPaths n c
      obtain ⟨p', hp', hmod⟩ := h.notify (hsound.keepsIntervals hc hn)
      have hpaths : (s.registerPaths n).sideNumbers c' = (s.notify n).sideNumbers c' := by
        funext id
        rcases id <;> simp only [Tonopah.sideNumbers, hmod.path1_eq, hmod.path2_eq]
      obtain ⟨p'', b, hp'', hmod'⟩ := ih (c := c') (p := p') (s := s.notify n)
        ⟨hmod.represents, rfl, rfl, rfl, hpaths ▸ hmod.intervals, hmod.verdicts⟩ hrest
      exact ⟨p'', b, by rw [List.foldlM_cons, step, hp']; exact hp'', hmod'⟩

theorem initial_models (grow : Prop) (c : PathIndex → ℕ) :
    initial.Models Tonopah.initial Tonopah.initial
      (IntervalsSound grow (Tonopah.initial.sideNumbers c)) fun _ => True :=
  ⟨⟨[], IntervalMemory.represents_empty, rfl⟩, rfl, rfl, rfl, .nil, by simp [initial]⟩

end MemTonopah

/-- **The interval list.** Every run goes through: no assertion fails, and no pointer is followed to
where there is no interval. The memory then holds the intervals linked both ways between its two
ends, four of them at most; the newest one is finished for neither path, and along `prev` the
numbers that intervals begin with do not grow. -/
theorem intervals_well_formed (evs : List TonopahEvent) :
    ∃ p nodes, MemTonopah.run evs = some p ∧ p.list.Represents nodes ∧
      run Tonopah.step Tonopah.initial evs = { p.core with intervals := nodes.map Prod.snd } ∧
      nodes.length ≤ 4 * intervalsRequired ∧
      (∀ x ∈ nodes.head?, ∀ id, (x.2.side id).finished = false) ∧
      (PacketNumbersGrow evs →
        nodes.Pairwise fun newer older => older.2.firstSeqNums ≤ newer.2.firstSeqNums) := by
  have hgrow : PacketNumbersGrow evs →
      (∀ c' ∈ evs.filterMap TonopahEvent.packetNumbers, (fun _ => 0) ≤ c') ∧
        PacketNumbersGrow evs :=
    fun hg => ⟨fun _ _ _ => Nat.zero_le _, hg⟩
  obtain ⟨p, b, hp, hmod⟩ := (MemTonopah.initial_models (PacketNumbersGrow evs) _).run hgrow
  obtain ⟨nodes, hrep, heq⟩ := hmod.represents
  have hsound := hmod.intervals
  rw [heq] at hsound
  refine ⟨p, nodes, hp, hrep, heq, by simpa using hsound.length_le, fun x hx => ?_, fun hg => ?_⟩
  · exact hsound.newest x.2 (by rw [List.head?_map]; exact Option.mem_map_of_mem _ hx)
  · have hsorted := hsound.sorted hg
    rwa [List.map_map, List.pairwise_map] at hsorted

/-- A run that leaves two intervals. -/
theorem intervals_well_formed_sample :
    ∃ p nodes, MemTonopah.run timeoutsThenAcks = some p ∧ p.list.Represents nodes ∧
      nodes.length = 2 ∧
      nodes.Pairwise fun newer older => older.2.firstSeqNums ≤ newer.2.firstSeqNums := by
  have hgrow : PacketNumbersGrow timeoutsThenAcks := by decide +kernel
  have hlen : (run Tonopah.step Tonopah.initial timeoutsThenAcks).intervals.length = 2 := by
    decide +kernel
  obtain ⟨p, nodes, hp, hrep, heq, -, -, hsorted⟩ := intervals_well_formed timeoutsThenAcks
  rw [heq, List.length_map] at hlen
  exact ⟨p, nodes, hp, hrep, hlen, hsorted hgrow⟩

end Picoquic
