import Mathlib.Order.Fin.Basic
import Picoquic.Basic
import Picoquic.ForMathlib.Runs
import Picoquic.ForMathlib.SplayTree

/-!
# The wake list

The connections of a context are kept in a splay tree, sorted by the time at which they want to
be called. Times are compared by the sign of their 64-bit difference.

* **`WakeList`** — the tree, with the wake times; connections are named by their addresses;
* **`earliest_is_due`** — the first connection of the tree is the one with the lowest wake time in
  a run in which no wake time is more than half the range away from another one;
* **`due_is_hidden`** — a closed client connection, whose wake time is the highest one there is,
  sorts first and hides a connection that is due.
-/

namespace Picoquic

open Runs

/-- `picoquic_wake_list_compare`, on the wake times. -/
def wakeListCompare (l r : ℕ) : ℤ := int64 (sub64 l r)

/-- `cnx_wake_tree`, and `next_wake_time` of the connections. Nodes that are cut off from the root
still point to each other: they are the trees `detached`. -/
structure WakeList where
  root : SplayTree ℕ
  detached : List (SplayTree ℕ)
  nextWakeTime : ℕ → Fin (2 ^ 64)

/-- The empty wake list. -/
def WakeList.init : WakeList := ⟨.nil, [], fun _ => 0⟩

/-- `picoquic_remove_cnx_from_wake_list`. The node is splayed where it is, and becomes the root
before it is deleted; a node that is in no tree is its own tree. -/
def WakeList.remove (w : WakeList) (cnx : ℕ) : WakeList :=
  if cnx ∈ w.root.toList then { w with root := w.root.deleteHint cnx }
  else
    match w.detached.find? (fun t => decide (cnx ∈ t.toList)) with
    | some t =>
      { w with
        root := t.deleteHint cnx
        detached := w.root :: w.detached.eraseP fun t => decide (cnx ∈ t.toList) }
    | none => { w with root := .nil, detached := w.root :: w.detached }

/-- The wake time of a connection is changed. -/
def WakeList.setTime (w : WakeList) (cnx : ℕ) (time : Fin (2 ^ 64)) : WakeList :=
  { w with nextWakeTime := Function.update w.nextWakeTime cnx time }

variable (w : WakeList)

theorem WakeList.setTime_self (cnx : ℕ) (time : Fin (2 ^ 64)) :
    (w.setTime cnx time).nextWakeTime cnx = time := Function.update_self ..

theorem WakeList.setTime_of_ne {cnx other : ℕ} (h : other ≠ cnx) (time : Fin (2 ^ 64)) :
    (w.setTime cnx time).nextWakeTime other = w.nextWakeTime other :=
  Function.update_of_ne h ..

/-- The comparison of two connections. -/
def WakeList.compare (w : WakeList) (l r : ℕ) : ℤ :=
  wakeListCompare (w.nextWakeTime l) (w.nextWakeTime r)

/-- `picoquic_insert_cnx_by_wake_time`. -/
def WakeList.insert (w : WakeList) (cnx : ℕ) : WakeList :=
  { w with root := w.root.insert w.compare cnx }

/-- `picoquic_reinsert_by_wake_time`. -/
def WakeList.reinsert (w : WakeList) (cnx : ℕ) (nextTime : Fin (2 ^ 64)) : WakeList :=
  ((w.remove cnx).setTime cnx nextTime).insert cnx

/-- `picoquic_get_earliest_cnx_to_wake`. -/
def WakeList.getEarliestCnxToWake (w : WakeList) (maxWakeTime : ℕ) : Option ℕ :=
  match w.root.first with
  | none => none
  | some cnx =>
    if maxWakeTime ≠ 0 ∧ maxWakeTime < w.nextWakeTime cnx then none else some cnx

/-! ### Events -/

/-- A wake list, with the connections that exist. -/
structure WakeContext where
  wakeList : WakeList
  connections : List ℕ

/-- No connection exists. -/
def WakeContext.init : WakeContext := ⟨.init, []⟩

/-- What happens to a wake list. -/
inductive WakeEvent
  /-- A connection is created. -/
  | insert (cnx : ℕ) (time : Fin (2 ^ 64))
  /-- `picoquic_reinsert_by_wake_time`. -/
  | reinsert (cnx : ℕ) (nextTime : Fin (2 ^ 64))
  /-- A connection is deleted. -/
  | delete (cnx : ℕ)

/-- One event. A connection is created at a free address, and has to exist otherwise. -/
def WakeContext.step (c : WakeContext) : WakeEvent → WakeContext
  | .insert cnx time =>
    if cnx ∈ c.connections then c
    else ⟨(c.wakeList.setTime cnx time).insert cnx, cnx :: c.connections⟩
  | .reinsert cnx nextTime =>
    if cnx ∈ c.connections then { c with wakeList := c.wakeList.reinsert cnx nextTime } else c
  | .delete cnx =>
    if cnx ∈ c.connections then ⟨c.wakeList.remove cnx, c.connections.erase cnx⟩ else c

/-- If a connection with the lowest wake time is due, then such a connection is returned. -/
def WakeContext.EarliestIsDue (c : WakeContext) : Prop :=
  ∀ maxWakeTime : Fin (2 ^ 64), ∀ cnx ∈ c.connections,
    (∀ other ∈ c.connections, c.wakeList.nextWakeTime cnx ≤ c.wakeList.nextWakeTime other) →
    c.wakeList.nextWakeTime cnx ≤ maxWakeTime →
    ∃ first ∈ c.connections, c.wakeList.getEarliestCnxToWake maxWakeTime = some first ∧
      c.wakeList.nextWakeTime first = c.wakeList.nextWakeTime cnx

/-! ### Times that compare -/

/-- The sign of the difference says which time is the earlier one. -/
def Comparable (time other : ℕ) : Prop := time < other + 2 ^ 63 ∧ other ≤ time + 2 ^ 63

instance (time other : ℕ) : Decidable (Comparable time other) :=
  inferInstanceAs (Decidable (_ ∧ _))

theorem wakeListCompare_neg_iff {time other : ℕ} (ht : time < 2 ^ 64) (ho : other < 2 ^ 64)
    (h : Comparable time other) : wakeListCompare time other < 0 ↔ time < other := by
  obtain ⟨h1, h2⟩ := h
  rw [wakeListCompare, int64, u64_of_lt (by exact u64_lt _)]
  by_cases hle : other ≤ time
  · rw [sub64_of_le hle ht, if_pos (by omega)]
    omega
  · have hsub : sub64 time other = time + 2 ^ 64 - other := by
      rw [sub64, u64_of_lt ho, u64_of_lt (by omega)]
      omega
    rw [hsub]
    split_ifs <;> omega

/-- A wake time is set that compares with those of all other connections. -/
def WakeEvent.SetsComparable (c : WakeContext) : WakeEvent → Prop
  | .insert cnx time | .reinsert cnx time =>
    ∀ other ∈ c.connections, other ≠ cnx → Comparable time (c.wakeList.nextWakeTime other)
  | .delete _ => True

instance (c : WakeContext) (e : WakeEvent) : Decidable (e.SetsComparable c) := by
  cases e <;> unfold WakeEvent.SetsComparable <;> infer_instance

/-! ### The invariant -/

/-- **The invariant**: the tree has the connections, sorted by wake time. -/
structure WakeContext.Sorted (c : WakeContext) : Prop where
  nodup : c.connections.Nodup
  perm : c.wakeList.root.toList.Perm c.connections
  sorted : c.wakeList.root.toList.Pairwise fun a b =>
    c.wakeList.nextWakeTime a ≤ c.wakeList.nextWakeTime b

variable {cnx : ℕ} {c : WakeContext}

theorem WakeList.toList_remove {w : WakeList} (h : cnx ∈ w.root.toList) :
    ∃ l r, w.root.toList = l ++ cnx :: r ∧ (w.remove cnx).root.toList = l ++ r := by
  rw [WakeList.remove, if_pos h]
  exact SplayTree.toList_deleteHint h

theorem WakeList.toList_remove_insert {w : WakeList} (h : cnx ∉ w.root.toList) :
    ((w.insert cnx).remove cnx).root.toList = w.root.toList := by
  have hmem : cnx ∈ (w.insert cnx).root.toList :=
    (SplayTree.toList_insert_perm _ _ _).mem_iff.mpr List.mem_cons_self
  rw [WakeList.remove, if_pos hmem]
  exact SplayTree.toList_deleteHint_insert _ h

theorem WakeList.nextWakeTime_remove (cnx : ℕ) : (w.remove cnx).nextWakeTime = w.nextWakeTime := by
  rw [WakeList.remove]
  split_ifs
  · rfl
  · split <;> rfl

/-- A connection is removed. -/
theorem WakeContext.Sorted.remove (h : c.Sorted) (hc : cnx ∈ c.connections) :
    WakeContext.Sorted ⟨c.wakeList.remove cnx, c.connections.erase cnx⟩ := by
  obtain ⟨l, r, heq, hremove⟩ := WakeList.toList_remove (h.perm.mem_iff.mpr hc)
  refine ⟨h.nodup.erase cnx, ?_, ?_⟩
  · have hperm := h.perm
    rw [heq] at hperm
    rw [hremove]
    exact ((List.perm_middle.symm.trans hperm).trans (List.perm_cons_erase hc)).cons_inv
  · rw [hremove, WakeList.nextWakeTime_remove]
    have hsorted := h.sorted
    rw [heq] at hsorted
    exact hsorted.sublist (List.Sublist.append_left (List.sublist_cons_self cnx r) l)

/-- A connection is inserted that is not in the tree. -/
theorem WakeContext.Sorted.insert (h : c.Sorted) (hc : cnx ∉ c.connections) {time : Fin (2 ^ 64)}
    (hcomp : ∀ other ∈ c.connections, Comparable time (c.wakeList.nextWakeTime other)) :
    WakeContext.Sorted ⟨(c.wakeList.setTime cnx time).insert cnx, cnx :: c.connections⟩ := by
  have hnew := c.wakeList.setTime_self cnx time
  have hother : ∀ a ∈ c.wakeList.root.toList,
      (c.wakeList.setTime cnx time).nextWakeTime a = c.wakeList.nextWakeTime a := by
    intro a ha
    have hne : a ≠ cnx := by
      rintro rfl
      exact hc (h.perm.mem_iff.mp ha)
    exact c.wakeList.setTime_of_ne hne time
  -- the new connection compares below those that are woken later
  have hlt : ∀ a ∈ c.wakeList.root.toList,
      (c.wakeList.setTime cnx time).compare cnx a < 0 ↔ time < c.wakeList.nextWakeTime a := by
    intro a ha
    rw [WakeList.compare, hnew, hother a ha]
    exact wakeListCompare_neg_iff time.isLt (c.wakeList.nextWakeTime a).isLt
      (hcomp a (h.perm.mem_iff.mp ha))
  have hmono : c.wakeList.root.toList.Pairwise fun a b =>
      (c.wakeList.setTime cnx time).compare cnx a < 0 →
        (c.wakeList.setTime cnx time).compare cnx b < 0 :=
    h.sorted.imp_of_mem fun ha hb hab hlta => (hlt _ hb).mpr (((hlt _ ha).mp hlta).trans_le hab)
  obtain ⟨l, r, heq, hinsert, hl, hr⟩ := SplayTree.toList_insert hmono
  have hperm := h.perm
  have hsorted : (l ++ r).Pairwise fun a b =>
      (c.wakeList.setTime cnx time).nextWakeTime a ≤
        (c.wakeList.setTime cnx time).nextWakeTime b := by
    rw [← heq]
    refine h.sorted.imp_of_mem fun ha hb hab => ?_
    rwa [hother _ ha, hother _ hb]
  rw [heq] at hperm hlt hother
  obtain ⟨hsl, hsr, hcross⟩ := List.pairwise_append.mp hsorted
  refine ⟨List.nodup_cons.mpr ⟨hc, h.nodup⟩, ?_, ?_⟩
  · exact (hinsert ▸ List.perm_middle).trans (hperm.cons cnx)
  · change ((c.wakeList.setTime cnx time).root.insert _ cnx).toList.Pairwise _
    rw [show (c.wakeList.setTime cnx time).root = c.wakeList.root from rfl, hinsert]
    refine List.pairwise_append.mpr ⟨hsl, List.pairwise_cons.mpr ⟨fun b hb => ?_, hsr⟩, ?_⟩
    · have hmem : b ∈ l ++ r := List.mem_append_right l hb
      change (c.wakeList.setTime cnx time).nextWakeTime cnx ≤ _
      rw [hnew]
      change time ≤ (c.wakeList.setTime cnx time).nextWakeTime b
      rw [hother b hmem]
      exact ((hlt b hmem).mp (hr b hb)).le
    · intro a ha b hb
      rcases List.mem_cons.mp hb with rfl | hb
      · have hmem : a ∈ l ++ r := List.mem_append_left r ha
        change (c.wakeList.setTime b time).nextWakeTime a ≤
          (c.wakeList.setTime b time).nextWakeTime b
        rw [hnew, hother a hmem]
        exact not_lt.mp fun hta => hl a ha ((hlt a hmem).mpr hta)
      · exact hcross a ha b hb

/-- The first connection of a sorted tree has the lowest wake time. -/
theorem WakeContext.Sorted.earliestIsDue (h : c.Sorted) : c.EarliestIsDue := by
  intro maxWakeTime cnx hcnx hmin hdue
  have hmem := h.perm.mem_iff.mpr hcnx
  have hsorted := h.sorted
  have hperm := h.perm
  rw [WakeList.getEarliestCnxToWake, SplayTree.first_eq_head?]
  generalize c.wakeList.root.toList = l at hmem hsorted hperm ⊢
  cases l with
  | nil => cases hmem
  | cons first l =>
    have hfirst : first ∈ c.connections := hperm.mem_iff.mp List.mem_cons_self
    have hle : c.wakeList.nextWakeTime first ≤ c.wakeList.nextWakeTime cnx := by
      rcases List.mem_cons.mp hmem with rfl | hmem
      · exact le_rfl
      · exact (List.pairwise_cons.mp hsorted).1 cnx hmem
    have heq := le_antisymm hle (hmin first hfirst)
    refine ⟨first, hfirst, ?_, heq⟩
    rw [List.head?_cons]
    dsimp only
    rw [heq, if_neg fun hlate => absurd hdue (not_le.mpr hlate.2)]

/-! ### Runs -/

theorem WakeContext.Sorted.init : WakeContext.init.Sorted :=
  ⟨List.nodup_nil, List.Perm.refl [], List.Pairwise.nil⟩

/-- **One event.** -/
theorem WakeContext.Sorted.step (h : c.Sorted) (e : WakeEvent) (he : e.SetsComparable c) :
    (c.step e).Sorted := by
  cases e with
  | insert cnx time =>
    rw [WakeContext.step]
    split_ifs with hc
    · exact h
    · exact h.insert hc fun other ho => he other ho fun heq => hc (heq ▸ ho)
  | reinsert cnx nextTime =>
    rw [WakeContext.step]
    split_ifs with hc
    swap
    · exact h
    have hremoved := h.remove hc
    have hfree : cnx ∉ c.connections.erase cnx := h.nodup.not_mem_erase
    have hcomp : ∀ other ∈ c.connections.erase cnx,
        Comparable nextTime ((c.wakeList.remove cnx).nextWakeTime other) := by
      intro other ho
      rw [WakeList.nextWakeTime_remove]
      exact he other (List.mem_of_mem_erase ho) fun heq => hfree (heq ▸ ho)
    have hsorted := hremoved.insert hfree hcomp
    -- the connections are the same ones in another order
    exact ⟨h.nodup, hsorted.perm.trans (List.perm_cons_erase hc).symm, hsorted.sorted⟩
  | delete cnx =>
    rw [WakeContext.step]
    split_ifs with hc
    · exact h.remove hc
    · exact h

/-- **A connection that is due is never hidden** in a run that only sets wake times which compare
with those of the other connections. -/
theorem earliest_is_due (evs : List WakeEvent)
    (h : Along WakeContext.step (fun c e => e.SetsComparable c) WakeContext.init evs) :
    (run WakeContext.step WakeContext.init evs).EarliestIsDue :=
  (run_invariant_of_along (I := WakeContext.Sorted) (P := fun c e => e.SetsComparable c)
    (fun _ e hc he => hc.step e he) WakeContext.Sorted.init h).earliestIsDue

/-- A connection that wants to be called at time 1000, and another one. -/
def twoConnections (time : Fin (2 ^ 64)) : List WakeEvent :=
  [.insert 1 1000, .insert 2 500, .reinsert 2 time]

theorem earliest_is_due_sample :
    Along WakeContext.step (fun c e => e.SetsComparable c) WakeContext.init (twoConnections 2000) ∧
      (run WakeContext.step WakeContext.init (twoConnections 2000)).EarliestIsDue := by
  have h : Along WakeContext.step (fun c e => e.SetsComparable c) WakeContext.init
      (twoConnections 2000) := by decide +kernel
  exact ⟨h, earliest_is_due _ h⟩

/-- The wake time of a closed client connection sorts before all others. -/
theorem due_is_hidden :
    (run WakeContext.step WakeContext.init
        (twoConnections (Fin.last _))).wakeList.getEarliestCnxToWake 1500 = none ∧
      ¬ (run WakeContext.step WakeContext.init (twoConnections (Fin.last _))).EarliestIsDue := by
  have hnone : (run WakeContext.step WakeContext.init
      (twoConnections (Fin.last _))).wakeList.getEarliestCnxToWake 1500 = none := by decide +kernel
  refine ⟨hnone, fun h => ?_⟩
  obtain ⟨first, -, hfirst, -⟩ := h 1500 1 (by decide +kernel) (by decide +kernel)
    (by decide +kernel)
  exact absurd (hnone.symm.trans hfirst) (by simp)

end Picoquic
