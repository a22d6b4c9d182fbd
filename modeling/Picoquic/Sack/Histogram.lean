import Mathlib.Algebra.BigOperators.Group.List.Basic
import Mathlib.Tactic.Abel
import Picoquic.ForMathlib.Runs
import Picoquic.Sack.Canonical

/-!
# The send counts of an acknowledgement list

`picoquic_sack_select_ack_ranges` does not look at the items: it reads from `range_counts` how many
of them were sent how often. Every operation on the list keeps these numbers up to date by steps of
one, for plain and for opportunistic acknowledgements.

* `itemCounts`, `sendCounts` — the contribution of an item, and the counts of a list of items.
  Counts form a group, in which `countItem` and `uncountItem` add and subtract the contribution of
  an item;
* `SackList.drift` — what `range_counts` is off. No operation changes it;
* **`rangeCounts_run`** — after any operations the counts are those of the items.
-/

namespace Picoquic

open Runs SackList

/-! ### Operations that other lists use -/

/-- `picoquic_sack_item_record_reset`, for the item at position `i`. -/
def recordResetAt (s : SackList) (i : ℕ) : SackList :=
  match s.ackTree[i]? with
  | none => s
  | some item =>
    { s with
      ackTree := s.ackTree.set i { item with nbTimesSent := fun _ => 0 }
      rangeCounts := recordReset s.rangeCounts item }

/-- `picoquic_sack_list_free`: the horizon stays. -/
def sackListFree (s : SackList) : SackList :=
  { s with ackTree := [], rangeCounts := fun _ _ => 0 }

/-- `picoquic_sack_list_reset`. -/
def sackListReset (s : SackList) (rangeMin rangeMax currentTime : ℕ) : SackList :=
  insertItem (sackListFree s) rangeMin rangeMax currentTime

/-- What happens to a list. -/
inductive SackOp
  | init
  | setHorizonDelay (horizonDelay : ℤ)
  | update (pnMin pnMax currentTime : ℕ)
  | ackOfAck (startOfRange endOfRange : ℕ)
  | updateHorizon (currentTime : ℕ)
  | recordSent (i : ℕ) (isOpportunistic : Fin 2)
  | recordReset (i : ℕ)
  | reset (rangeMin rangeMax currentTime : ℕ)
  | free

/-- One operation. -/
def SackList.step (s : SackList) : SackOp → SackList
  | .init => sackListInit
  | .setHorizonDelay horizonDelay => { s with horizonDelay := horizonDelay }
  | .update pnMin pnMax currentTime => (updateSackList s pnMin pnMax currentTime).1
  | .ackOfAck startOfRange endOfRange => processAckOfAckRange s startOfRange endOfRange
  | .updateHorizon currentTime => updateAckHorizon s currentTime
  | .recordSent i isOpportunistic => Picoquic.recordSent s i isOpportunistic
  | .recordReset i => recordResetAt s i
  | .reset rangeMin rangeMax currentTime => sackListReset s rangeMin rangeMax currentTime
  | .free => sackListFree s

/-! ### Counts -/

/-- What an item contributes to the counts. -/
def itemCounts (item : SackItem) : RangeCounts := fun r k => if item.nbTimesSent r = k then 1 else 0

/-- The counts of a list of items. -/
def sendCounts (l : List SackItem) : RangeCounts := (l.map itemCounts).sum

@[simp]
private theorem sendCounts_nil : sendCounts [] = 0 := rfl

variable (s : SackList) (rc : RangeCounts) (item : SackItem) (pnMin pnMax currentTime : ℕ)

@[simp]
private theorem sendCounts_cons (l : List SackItem) :
    sendCounts (item :: l) = itemCounts item + sendCounts l := by
  simp [sendCounts]

@[simp]
private theorem sendCounts_append (l l' : List SackItem) :
    sendCounts (l ++ l') = sendCounts l + sendCounts l' := by
  simp [sendCounts]

/-- How many items were sent `k` times. -/
def itemsSent (l : List SackItem) (r : Fin 2) (k : ℕ) : ℕ :=
  l.countP fun item => item.nbTimesSent r == k

/-- The counts say how many items were sent how often. -/
theorem sendCounts_apply (l : List SackItem) (r : Fin 2) (k : Fin maxAckRangeRepeat) :
    sendCounts l r k = itemsSent l r k := by
  induction l with
  | nil => rfl
  | cons item l ih =>
    have happly : (itemCounts item + sendCounts l) r k = itemCounts item r k + sendCounts l r k :=
      rfl
    rw [sendCounts_cons, happly, ih, itemCounts, itemsSent, itemsSent, List.countP_cons]
    simp only [beq_iff_eq]
    split_ifs <;> omega

private theorem countItem_eq : countItem rc item = rc + itemCounts item := by
  funext r k
  have happly : (rc + itemCounts item) r k = rc r k + itemCounts item r k := rfl
  rw [happly, countItem, itemCounts]
  split_ifs <;> omega

private theorem uncountItem_eq : uncountItem rc item = rc - itemCounts item := by
  funext r k
  have happly : (rc - itemCounts item) r k = rc r k - itemCounts item r k := rfl
  rw [happly, uncountItem, itemCounts]
  split_ifs <;> omega

private theorem itemCounts_retireItem : itemCounts (retireItem item) = 0 := by
  funext r k
  have hk : max (item.nbTimesSent r) maxAckRangeRepeat ≠ k :=
    Nat.ne_of_gt (Nat.lt_of_lt_of_le k.isLt (Nat.le_max_right _ _))
  exact if_neg hk

private theorem recordReset_eq (rangeMin rangeMax currentTime : ℕ) :
    recordReset rc item =
      rc - itemCounts item + itemCounts (freshItem rangeMin rangeMax currentTime) := by
  rw [recordReset, countItem_eq, uncountItem_eq]
  rfl

/-! ### The drift -/

/-- What the counts are off. -/
def SackList.drift (s : SackList) : RangeCounts := s.rangeCounts - sendCounts s.ackTree

/-- The items at or below a number and those beyond it are all items. -/
theorem sendCounts_split (l : List SackItem) (n : ℕ) :
    sendCounts (itemsBelow n l) + sendCounts (itemsAbove n l) = sendCounts l := by
  rw [← sendCounts_append]
  exact congrArg sendCounts (itemsBelow_append_itemsAbove n l)

private theorem drift_insertItem (rangeMin rangeMax currentTime : ℕ) :
    (insertItem s rangeMin rangeMax currentTime).drift = s.drift := by
  have hsplit := sendCounts_split s.ackTree rangeMin
  rw [drift, drift, insertItem, ← hsplit]
  simp only [sendCounts_append, sendCounts_cons, countItem_eq]
  abel

variable {l : List SackItem}

/-- One item takes the place of another. -/
theorem sendCounts_set {i : ℕ} {item : SackItem} (h : l[i]? = some item) (item' : SackItem) :
    sendCounts (l.set i item') = sendCounts l - itemCounts item + itemCounts item' := by
  induction l generalizing i with
  | nil => exact absurd h (by simp)
  | cons first l ih =>
    cases i with
    | zero =>
      obtain rfl : first = item := by simpa using h
      simp only [List.set_cons_zero, sendCounts_cons]
      abel
    | succ i =>
      have h' : l[i]? = some item := by simpa using h
      simp only [List.set_cons_succ, sendCounts_cons, ih h']
      abel

private theorem drift_recordSent (i : ℕ) (isOpportunistic : Fin 2) :
    (recordSent s i isOpportunistic).drift = s.drift := by
  rw [recordSent]
  cases hitem : s.ackTree[i]? with
  | none => rfl
  | some item =>
    rw [drift, drift]
    simp only [countItem_eq, uncountItem_eq, sendCounts_set hitem]
    abel

private theorem drift_recordResetAt (i : ℕ) : (recordResetAt s i).drift = s.drift := by
  rw [recordResetAt]
  cases hitem : s.ackTree[i]? with
  | none => rfl
  | some item =>
    rw [drift, drift]
    simp only [recordReset, countItem_eq, uncountItem_eq, sendCounts_set hitem]
    abel

private theorem drift_sackListFree : (sackListFree s).drift = 0 := sub_self _

/-- The items that the horizon passes leave the counts. -/
theorem drift_ackHorizonLoop (horizonDelay : ℤ) (currentTime : ℕ) (rc : RangeCounts) (horizon : ℕ)
    (l : List SackItem) :
    (ackHorizonLoop horizonDelay currentTime rc horizon l).1 -
        sendCounts (ackHorizonLoop horizonDelay currentTime rc horizon l).2.2 =
      rc - sendCounts l := by
  induction l generalizing rc horizon with
  | nil => rfl
  | cons first l ih =>
    cases l with
    | nil => rfl
    | cons next rest =>
      rw [ackHorizonLoop]
      split_ifs
      · rw [ih, uncountItem_eq, sendCounts_cons first]
        abel
      · rfl

private theorem drift_updateAckHorizon (currentTime : ℕ) :
    (updateAckHorizon s currentTime).drift = s.drift :=
  drift_ackHorizonLoop s.horizonDelay currentTime s.rangeCounts s.ackHorizon s.ackTree

/-- Each item that is absorbed leaves the counts, and the extended one counts as never sent. -/
theorem drift_extendLoop (pnMax currentTime : ℕ) (rc : RangeCounts) (previous : SackItem)
    (rest : List SackItem) :
    (extendLoop pnMax currentTime rc previous rest).1 -
        sendCounts ((extendLoop pnMax currentTime rc previous rest).2.1 ::
          (extendLoop pnMax currentTime rc previous rest).2.2) =
      rc - sendCounts (previous :: rest) := by
  induction rest generalizing rc previous with
  | nil =>
    rw [extendLoop]
    split_ifs
    · simp only [sendCounts_cons, recordReset_eq rc previous previous.startOfSackRange pnMax
        currentTime]
      abel
    · rfl
  | cons next rest ih =>
    rw [extendLoop]
    split_ifs
    · simp only [sendCounts_cons, recordReset_eq rc previous previous.startOfSackRange pnMax
        currentTime]
      abel
    · rw [ih, uncountItem_eq, recordReset_eq rc previous previous.startOfSackRange
        next.endOfSackRange (max previous.timeCreated next.timeCreated)]
      simp only [sendCounts_cons]
      abel
    · rfl

private theorem drift_extendFrom (pnMax currentTime : ℕ) (init : List SackItem) (rc : RangeCounts)
    (previous : SackItem) (rest : List SackItem) :
    (extendFrom s pnMax currentTime init rc previous rest).drift =
      rc - sendCounts (init ++ previous :: rest) := by
  have hloop := drift_extendLoop pnMax currentTime rc previous rest
  calc (extendFrom s pnMax currentTime init rc previous rest).drift
      = (extendLoop pnMax currentTime rc previous rest).1 -
          sendCounts ((extendLoop pnMax currentTime rc previous rest).2.1 ::
            (extendLoop pnMax currentTime rc previous rest).2.2) - sendCounts init := by
        rw [drift, extendFrom, sendCounts_append]
        abel
    _ = rc - sendCounts (init ++ previous :: rest) := by
        rw [hloop, sendCounts_append]
        abel

private theorem drift_recordAbove : (recordAbove s pnMin pnMax currentTime).drift = s.drift := by
  have hsplit := sendCounts_split s.ackTree pnMin
  rw [recordAbove]
  cases habove : itemsAbove pnMin s.ackTree with
  | nil => exact drift_insertItem s pnMin pnMax currentTime
  | cons next rest =>
    dsimp only
    split_ifs
    · exact drift_insertItem s pnMin pnMax currentTime
    · rw [habove] at hsplit
      rw [drift_extendFrom, drift, ← hsplit,
        recordReset_eq s.rangeCounts next pnMin next.endOfSackRange currentTime]
      simp only [sendCounts_append, sendCounts_cons]
      abel

private theorem sendCounts_found {n : ℕ} {item : SackItem}
    (h : findRangeBelowNumber l n = some item) :
    sendCounts (itemsBelow n l).dropLast + itemCounts item + sendCounts (itemsAbove n l) =
      sendCounts l := by
  have hsplit := sendCounts_split l n
  rw [← List.dropLast_append_getLast? item h, sendCounts_append, sendCounts_cons, sendCounts_nil,
    add_zero] at hsplit
  exact hsplit

private theorem drift_recordRange : (recordRange s pnMin pnMax currentTime).1.drift = s.drift := by
  rw [recordRange]
  cases hfound : findRangeBelowNumber s.ackTree pnMin with
  | none => exact drift_recordAbove s pnMin pnMax currentTime
  | some previous =>
    dsimp only
    split_ifs
    · exact drift_recordAbove s pnMin pnMax currentTime
    all_goals
      rw [drift_extendFrom, drift, ← sendCounts_found hfound, sendCounts_append,
        sendCounts_cons, add_assoc]

private theorem drift_updateSackList :
    (updateSackList s pnMin pnMax currentTime).1.drift = s.drift := by
  rw [updateSackList]
  split_ifs
  · exact (drift_updateAckHorizon _ currentTime).trans (drift_recordRange s pnMin pnMax currentTime)
  · exact drift_recordRange s pnMin pnMax currentTime

/-- What the peer knows to be acknowledged leaves the counts; a range that is cut down keeps its
place in them. -/
theorem drift_processAckOfAckRange (startOfRange endOfRange : ℕ) :
    (processAckOfAckRange s startOfRange endOfRange).drift = s.drift := by
  rw [processAckOfAckRange]
  cases hfound : findRangeBelowNumber s.ackTree startOfRange with
  | none => rfl
  | some previous =>
    have hsplit := sendCounts_found hfound
    dsimp only
    by_cases hstart : previous.startOfSackRange = startOfRange
    · rw [if_pos hstart]
      cases habove : itemsAbove startOfRange s.ackTree with
      | nil =>
        -- only the bounds of the highest item change
        rw [habove, sendCounts_nil, add_zero] at hsplit
        rw [drift, drift, ← hsplit, sendCounts_append, sendCounts_cons,
          sendCounts_nil, add_zero]
        rfl
      | cons next rest =>
        rw [habove] at hsplit
        dsimp only
        split_ifs
        · rw [drift, drift, ← hsplit]
          simp only [sendCounts_append, sendCounts_cons, itemCounts_retireItem, uncountItem_eq]
          abel
        · rw [drift, drift, ← hsplit]
          simp only [sendCounts_append, sendCounts_cons, uncountItem_eq]
          abel
        · rfl
    · rw [if_neg hstart]

/-! ### Runs -/

/-- **One operation keeps the counts in step** with the items. -/
theorem drift_step {s : SackList} (h : s.drift = 0) (op : SackOp) : (s.step op).drift = 0 := by
  cases op with
  | init => rfl
  | setHorizonDelay horizonDelay => exact h
  | update pnMin pnMax currentTime => exact (drift_updateSackList s pnMin pnMax currentTime).trans h
  | ackOfAck startOfRange endOfRange =>
    exact (drift_processAckOfAckRange s startOfRange endOfRange).trans h
  | updateHorizon currentTime => exact (drift_updateAckHorizon s currentTime).trans h
  | recordSent i isOpportunistic => exact (drift_recordSent s i isOpportunistic).trans h
  | recordReset i => exact (drift_recordResetAt s i).trans h
  | reset rangeMin rangeMax currentTime =>
    exact (drift_insertItem _ rangeMin rangeMax currentTime).trans (drift_sackListFree s)
  | free => exact drift_sackListFree s

/-- **The send counts are those of the items**, after any operations on a new list, for plain and
for opportunistic acknowledgements and every number below the limit. -/
theorem rangeCounts_run (ops : List SackOp) (r : Fin 2) (k : Fin maxAckRangeRepeat) :
    (run SackList.step sackListInit ops).rangeCounts r k =
      itemsSent (run SackList.step sackListInit ops).ackTree r k := by
  have hdrift : (run step sackListInit ops).drift = 0 :=
    run_invariant (I := fun s : SackList => s.drift = 0) (fun _ op h => drift_step h op) rfl ops
  rw [← sendCounts_apply, ← sub_eq_zero.mp hdrift]

/-- A range is sent twice, grows, and is sent once more: one item counts as sent once. -/
example :
    (run SackList.step sackListInit [.update 1 3 10, .recordSent 0 0, .recordSent 0 0,
      .update 7 7 20, .update 4 6 30, .recordSent 0 0]).rangeCounts 0 1 = 1 := by
  decide

end Picoquic
