import Mathlib.Data.Fin.Basic
import Picoquic.Basic
import Picoquic.ForMathlib.RangeList

/-!
# Acknowledgement lists

The received packet numbers of a context, and the acknowledged bytes of a stream, are kept as a
splay tree of ranges ordered by their start. The tree is represented by its in-order list of
items, so that the predecessor search is the last item of the part below a number, and inserting
puts the new item after every item that does not start later. The tree compares by the sign of a
64-bit difference, and searches as the list does wherever the items that compare below a number
come before the others.

Beside the ranges a list counts, for plain and for opportunistic acknowledgements, how many
items were sent 0, 1, 2, 3 times; an item that was changed counts as never sent.

* `updateSackList` — record a range, merging it with the items it touches; with a horizon delay
  the horizon is updated as well;
* `processAckOfAckRange` — forget what the peer knows to be acknowledged;
* `updateAckHorizon` — drop the lowest items once they were sent often enough and are old, and
  move the horizon past them;
* `isPnAlreadyReceived`, `checkSackList` — the two queries;
* `selectAckRanges` — the send-count bound under which items go into the next frame.
-/

namespace Picoquic

open RangeList

/-- `picoquic_sack_item_t`: one range. The index of `nbTimesSent` is `is_opportunistic`. -/
structure SackItem where
  startOfSackRange : ℕ
  endOfSackRange : ℕ
  nbTimesSent : Fin 2 → ℕ
  timeCreated : ℕ

/-- `rc[r].range_counts[k]`: the number of items sent `k` times. -/
abbrev RangeCounts : Type := Fin 2 → Fin maxAckRangeRepeat → ℤ

/-- `picoquic_sack_list_t`, the tree given by its in-order list. -/
structure SackList where
  ackTree : List SackItem
  ackHorizon : ℕ
  horizonDelay : ℤ
  rangeCounts : RangeCounts

/-- `picoquic_sack_list_init`. -/
def sackListInit : SackList := ⟨[], 0, 0, fun _ _ => 0⟩

/-- The numbers that the items of a list cover. -/
abbrev SackCovers (l : List SackItem) (n : ℕ) : Prop :=
  Covers SackItem.startOfSackRange SackItem.endOfSackRange l n

/-- The items are in order, disjoint and not adjacent. -/
abbrev SackSeparated (l : List SackItem) : Prop :=
  Separated SackItem.startOfSackRange SackItem.endOfSackRange l

/-- `picoquic_sack_item_compare`, for an item that starts at a number and an item of the tree. -/
def sackItemCompare (n : ℕ) (item : SackItem) : ℤ := int64 (sub64 n item.startOfSackRange)

/-- The items that do not compare above a number, in order; the last of them is the item that
`picoquic_sack_find_range_below_number` returns. -/
def itemsBelow (n : ℕ) (l : List SackItem) : List SackItem :=
  l.takeWhile fun item => 0 ≤ sackItemCompare n item

/-- The items that compare above a number, and those behind them. -/
def itemsAbove (n : ℕ) (l : List SackItem) : List SackItem :=
  l.dropWhile fun item => 0 ≤ sackItemCompare n item

theorem itemsBelow_append_itemsAbove (n : ℕ) (l : List SackItem) :
    itemsBelow n l ++ itemsAbove n l = l := List.takeWhile_append_dropWhile

/-- `picoquic_sack_find_range_below_number`. -/
def findRangeBelowNumber (l : List SackItem) (n : ℕ) : Option SackItem :=
  (itemsBelow n l).getLast?

/-! ### Send counts -/

/-- The accounting of an item that leaves its send counts. -/
def uncountItem (rc : RangeCounts) (item : SackItem) : RangeCounts :=
  fun r k => if item.nbTimesSent r = k then rc r k - 1 else rc r k

/-- The accounting of an item that enters its send counts. -/
def countItem (rc : RangeCounts) (item : SackItem) : RangeCounts :=
  fun r k => if item.nbTimesSent r = k then rc r k + 1 else rc r k

/-- An item as it is when created and after each change of its range: not sent yet. -/
def freshItem (rangeMin rangeMax currentTime : ℕ) : SackItem :=
  ⟨rangeMin, rangeMax, fun _ => 0, currentTime⟩

/-- `picoquic_sack_item_record_reset`: a changed item counts as never sent. -/
def recordReset (rc : RangeCounts) (item : SackItem) : RangeCounts :=
  countItem (uncountItem rc item) { item with nbTimesSent := fun _ => 0 }

/-- `picoquic_sack_item_record_sent`, for the item at position `i`. -/
def recordSent (s : SackList) (i : ℕ) (isOpportunistic : Fin 2) : SackList :=
  match s.ackTree[i]? with
  | none => s
  | some item =>
    let nb := item.nbTimesSent isOpportunistic
    let item' :=
      { item with nbTimesSent := Function.update item.nbTimesSent isOpportunistic (nb + 1) }
    { s with
      ackTree := s.ackTree.set i item'
      rangeCounts := countItem (uncountItem s.rangeCounts item) item' }

/-- `picoquic_sack_insert_item`. -/
def insertItem (s : SackList) (rangeMin rangeMax currentTime : ℕ) : SackList :=
  let item := freshItem rangeMin rangeMax currentTime
  { s with
    ackTree := itemsBelow rangeMin s.ackTree ++ item :: itemsAbove rangeMin s.ackTree
    rangeCounts := countItem s.rangeCounts item }

/-! ### The horizon -/

/-- The loop of `picoquic_update_ack_horizon` over the counts, the horizon and the items from
the first one on. The last item always stays. -/
def ackHorizonLoop (horizonDelay : ℤ) (currentTime : ℕ) :
    RangeCounts → ℕ → List SackItem → RangeCounts × ℕ × List SackItem
  | rc, horizon, [] => (rc, horizon, [])
  | rc, horizon, [first] => (rc, horizon, [first])
  | rc, horizon, first :: next :: rest =>
    if maxAckRangeRepeat ≤ first.nbTimesSent 0 ∧
        horizonDelay < int64 (sub64 currentTime first.timeCreated) then
      ackHorizonLoop horizonDelay currentTime (uncountItem rc first)
        (u64 (first.endOfSackRange + 1)) (next :: rest)
    else (rc, horizon, first :: next :: rest)

/-- `picoquic_update_ack_horizon`. -/
def updateAckHorizon (s : SackList) (currentTime : ℕ) : SackList :=
  let r := ackHorizonLoop s.horizonDelay currentTime s.rangeCounts s.ackHorizon s.ackTree
  { s with rangeCounts := r.1, ackHorizon := r.2.1, ackTree := r.2.2 }

/-! ### Recording a range -/

/-- The loop of `picoquic_update_sack_list` that extends `previous` up to `pnMax`, absorbing the
items it reaches. -/
def extendLoop (pnMax currentTime : ℕ) :
    RangeCounts → SackItem → List SackItem → RangeCounts × SackItem × List SackItem
  | rc, previous, [] =>
    if previous.endOfSackRange < pnMax then
      (recordReset rc previous, freshItem previous.startOfSackRange pnMax currentTime, [])
    else (rc, previous, [])
  | rc, previous, next :: rest =>
    if previous.endOfSackRange < pnMax then
      if pnMax < sub64 next.startOfSackRange 1 then
        (recordReset rc previous, freshItem previous.startOfSackRange pnMax currentTime,
          next :: rest)
      else
        extendLoop pnMax currentTime (uncountItem (recordReset rc previous) next)
          (freshItem previous.startOfSackRange next.endOfSackRange
            (max previous.timeCreated next.timeCreated)) rest
    else (rc, previous, next :: rest)

/-- The list in which the items `init`, the extended `previous` and what the extension leaves of
`rest` follow each other. -/
def extendFrom (s : SackList) (pnMax currentTime : ℕ) (init : List SackItem) (rc : RangeCounts)
    (previous : SackItem) (rest : List SackItem) : SackList :=
  let r := extendLoop pnMax currentTime rc previous rest
  { s with ackTree := init ++ r.2.1 :: r.2.2, rangeCounts := r.1 }

/-- The case of `picoquic_update_sack_list` in which no item reaches the range from below: the
next item is extended towards the minimum if the range reaches it, and otherwise a new item is
created. -/
def recordAbove (s : SackList) (pnMin pnMax currentTime : ℕ) : SackList :=
  match itemsAbove pnMin s.ackTree with
  | [] => insertItem s pnMin pnMax currentTime
  | next :: rest =>
    if pnMax < sub64 next.startOfSackRange 1 then insertItem s pnMin pnMax currentTime
    else
      extendFrom s pnMax currentTime (itemsBelow pnMin s.ackTree) (recordReset s.rangeCounts next)
        (freshItem pnMin next.endOfSackRange currentTime) rest

/-- The part of `picoquic_update_sack_list` before the horizon update. The second component is
the return value: `1` when the range was already there, `0` when something was recorded. -/
def recordRange (s : SackList) (pnMin pnMax currentTime : ℕ) : SackList × ℕ :=
  match findRangeBelowNumber s.ackTree pnMin with
  | none => (recordAbove s pnMin pnMax currentTime, 0)
  | some previous =>
    if u64 (previous.endOfSackRange + 1) < pnMin then (recordAbove s pnMin pnMax currentTime, 0)
    else
      (extendFrom s pnMax currentTime (itemsBelow pnMin s.ackTree).dropLast s.rangeCounts previous
        (itemsAbove pnMin s.ackTree), if previous.endOfSackRange < pnMax then 0 else 1)

/-- `picoquic_update_sack_list`. -/
def updateSackList (s : SackList) (pnMin pnMax currentTime : ℕ) : SackList × ℕ :=
  let r := recordRange s pnMin pnMax currentTime
  if 0 < r.1.horizonDelay then (updateAckHorizon r.1 currentTime, r.2) else r

/-! ### Acknowledged acknowledgements -/

/-- An item that needs not be sent any more. -/
def retireItem (item : SackItem) : SackItem :=
  { item with nbTimesSent := fun r => max (item.nbTimesSent r) maxAckRangeRepeat }

/-- `picoquic_process_ack_of_ack_range`: only an item that starts where the range starts is
touched. The highest item is cut down to what the range leaves of it, and at least to its last
number; another item must match the range as a whole, and is then deleted or, with a horizon
delay, no longer sent. -/
def processAckOfAckRange (s : SackList) (startOfRange endOfRange : ℕ) : SackList :=
  match findRangeBelowNumber s.ackTree startOfRange with
  | none => s
  | some previous =>
    if previous.startOfSackRange = startOfRange then
      let init := (itemsBelow startOfRange s.ackTree).dropLast
      match itemsAbove startOfRange s.ackTree with
      | [] =>
        let start := if endOfRange < previous.endOfSackRange then u64 (endOfRange + 1)
          else previous.endOfSackRange
        { s with ackTree := init ++ [{ previous with startOfSackRange := start }] }
      | next :: rest =>
        if previous.endOfSackRange = endOfRange then
          if 0 < s.horizonDelay then
            { s with
              ackTree := init ++ retireItem previous :: next :: rest
              rangeCounts := uncountItem s.rangeCounts previous }
          else
            { s with
              ackTree := init ++ next :: rest
              rangeCounts := uncountItem s.rangeCounts previous }
        else s
    else s

/-! ### Selection for a frame -/

/-- The loop of `picoquic_sack_select_ack_ranges` over the counts that are left, the `i`-th
first. The result is the highest send count under which items are selected, and how many items
of that count are to be skipped. -/
def selectLoop (firstSackCount : ℕ) (maxRanges : ℤ) : ℕ → ℤ → List ℤ → ℕ × ℤ
  | _, _, [] => (maxAckRangeRepeat, 0)
  | i, cumulSent, count :: counts =>
    let cumulSent := if i = firstSackCount then cumulSent + count - 1 else cumulSent + count
    if maxRanges ≤ cumulSent then (i, cumulSent - maxRanges)
    else selectLoop firstSackCount maxRanges (i + 1) cumulSent counts

/-- `picoquic_sack_select_ack_ranges`, the first item being the highest one. -/
def selectAckRanges (s : SackList) (firstSack : Option SackItem) (maxRanges : ℤ)
    (isOpportunistic : Fin 2) : ℕ × ℤ :=
  selectLoop (firstSack.elim maxAckRangeRepeat (·.nbTimesSent isOpportunistic)) maxRanges 0 0
    (List.ofFn (s.rangeCounts isOpportunistic))

/-! ### Queries -/

/-- `picoquic_is_pn_already_received`, on the list of the context. -/
def isPnAlreadyReceived (s : SackList) (pn : ℕ) : Bool :=
  if 0 < s.horizonDelay ∧ pn < s.ackHorizon then true
  else
    match findRangeBelowNumber s.ackTree pn with
    | none => false
    | some item => decide (pn ≤ item.endOfSackRange)

/-- `picoquic_check_sack_list`: whether the range is entirely covered (the code returns `-1`
then and `0` otherwise). -/
def checkSackList (s : SackList) (pnMin pnMax : ℕ) : Bool :=
  match findRangeBelowNumber s.ackTree pnMin with
  | none => false
  | some item => decide (pnMax ≤ item.endOfSackRange)

/-- `picoquic_sack_list_is_empty`. -/
def sackListIsEmpty (s : SackList) : Bool := s.ackTree.isEmpty

/-- `picoquic_sack_list_last`. -/
def sackListLast (s : SackList) : ℕ :=
  match s.ackTree.getLast? with
  | none => 0
  | some item => item.endOfSackRange

/-- `picoquic_sack_list_first`. -/
def sackListFirst (s : SackList) : ℕ :=
  match s.ackTree.head? with
  | none => 2 ^ 64 - 1
  | some item => item.startOfSackRange

end Picoquic
