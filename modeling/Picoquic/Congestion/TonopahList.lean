import Picoquic.Congestion.Tonopah
import Picoquic.ForMathlib.LinkedList

/-!
# The interval list of Tonopah in memory

The intervals are allocated one by one and linked both ways. `IntervalMemory` is the part of the
memory that holds them, with the two ends of the list; the operations of the code read and write it
through pointers. A read or write through `NULL` or through a pointer to an interval that is freed
gives `none`, and so does a failed assertion and a walk that does not end.

* **`Represents`** — the list that a memory holds, from the newest interval on;
* **`Represents.append`**, **`Represents.trim`**, **`Represents.deleteInfoList`**,
  **`Represents.findRightInterval`**, **`Represents.modifyInfo`**,
  **`Represents.aggregateIntervals_eq`** — what each operation does to that list.

`malloc` returns addresses that were never used before, so that a stale pointer is always seen.
-/

namespace Picoquic

/-- `picoquic_new_tonopah_interval_info_t` with its two pointers. -/
structure IntervalNode where
  info : IntervalInfo
  next : Option ℕ
  prev : Option ℕ

/-- The memory of the intervals. -/
structure IntervalMemory where
  cells : ℕ → Option IntervalNode
  /-- `new_tonopah_interval_list_first`, the oldest interval. -/
  first : Option ℕ
  /-- `new_tonopah_interval_list_last`, the newest interval. -/
  last : Option ℕ
  /-- The address of the next allocation. -/
  size : ℕ

/-- The interval is finished for both paths. -/
def IntervalInfo.isFinished (e : IntervalInfo) : Bool :=
  (e.side .path1).finished && (e.side .path2).finished

/-- The sums from which `new_tonopah_aggregate_intervals` computes its verdict, if it does. -/
def aggregateSums : List IntervalInfo → RttSums → Option RttSums
  | [], _ => none
  | e :: older, a =>
    let a := if e.isFinished then a.add e else ⟨0, 0, 0, 0, 0⟩
    if a.len = intervalsRequired then some a else aggregateSums older a

theorem aggregateLoop_eq (l : List IntervalInfo) (a : RttSums) :
    aggregateLoop l a = (aggregateSums l a).elim false RttSums.detectedFq := by
  induction l generalizing a with
  | nil => rfl
  | cons e older ih =>
    rw [aggregateLoop, aggregateSums, IntervalInfo.isFinished]
    simp only [ih]
    split_ifs <;> rfl

theorem modify_length_append {α : Type*} (l r : List α) (x : α) (f : α → α) :
    (l ++ x :: r).modify l.length f = l ++ f x :: r := by
  induction l with
  | nil => rfl
  | cons y l ih => rw [List.cons_append, List.length_cons, List.modify_succ_cons, ih]; rfl

/-- The interval is finished for a path. -/
def IntervalInfo.finish (id : IntervalPathId) (e : IntervalInfo) : IntervalInfo :=
  e.modifySide id fun d => { d with finished := true }

variable {id : IntervalPathId} {ackNum : ℕ} {e : IntervalInfo} {fuel : ℕ}

theorem findRightInterval_of_forall {l : List IntervalInfo}
    (h : ∀ e ∈ l, ackNum < (e.side id).firstSeqNum) :
    Picoquic.findRightInterval l id ackNum = (l, none) := by
  have hidx : l.findIdx? (fun e => decide ((e.side id).firstSeqNum ≤ ackNum)) = none := by
    rw [List.findIdx?_eq_none_iff]
    exact fun e he => decide_eq_false (not_le.mpr (h e he))
  rw [Picoquic.findRightInterval, hidx]

/-- The newest interval that began early enough is found, and the one before it is finished. -/
theorem findRightInterval_append {l r : List IntervalInfo}
    (hl : ∀ e ∈ l, ackNum < (e.side id).firstSeqNum) (he : (e.side id).firstSeqNum ≤ ackNum) :
    Picoquic.findRightInterval (l ++ e :: r) id ackNum =
      (l ++ e :: r.modifyHead (·.finish id), some l.length) := by
  have hidx : (l ++ e :: r).findIdx? (fun e => decide ((e.side id).firstSeqNum ≤ ackNum)) =
      some l.length := by
    have hnone : l.findIdx? (fun e => decide ((e.side id).firstSeqNum ≤ ackNum)) = none := by
      rw [List.findIdx?_eq_none_iff]
      exact fun e he => decide_eq_false (not_le.mpr (hl e he))
    rw [List.findIdx?_append, hnone]
    simp [List.findIdx?_cons, he]
  rw [Picoquic.findRightInterval, hidx]
  cases r with
  | nil =>
    simp only
    rw [List.modify_eq_self (by simp)]
    rfl
  | cons e' r =>
    have hmodify := modify_length_append (l ++ [e]) r e' (·.finish id)
    rw [List.length_append, List.length_singleton] at hmodify
    simp only [List.append_assoc, List.singleton_append] at hmodify
    rw [List.modifyHead_cons, ← hmodify]
    rfl

namespace IntervalMemory

/-- No interval is allocated. -/
def empty : IntervalMemory := ⟨fun _ => none, none, none, 0⟩

/-- A write through a pointer. -/
def modifyNode (m : IntervalMemory) (a : ℕ) (f : IntervalNode → IntervalNode) :
    Option IntervalMemory :=
  (m.cells a).map fun c => { m with cells := Function.update m.cells a (some (f c)) }

/-- The loop of `new_tonopah_get_interval_info_list_len`. -/
def lengthFrom (m : IntervalMemory) : ℕ → Option ℕ → Option ℕ
  | _, none => some 0
  | 0, some _ => none
  | fuel + 1, some a => do
    let c ← m.cells a
    let len ← m.lengthFrom fuel c.next
    return len + 1

/-- `new_tonopah_get_interval_info_list_len`. -/
def length (m : IntervalMemory) : Option ℕ := m.lengthFrom m.size m.first

/-- The loop of `new_tonopah_delete_info_list`. -/
def freeFrom : ℕ → (ℕ → Option IntervalNode) → Option ℕ → Option (ℕ → Option IntervalNode)
  | _, cells, none => some cells
  | 0, _, some _ => none
  | fuel + 1, cells, some a => do
    let c ← cells a
    freeFrom fuel (Function.update cells a none) c.next

/-- `new_tonopah_delete_info_list`. -/
def deleteInfoList (m : IntervalMemory) : Option IntervalMemory := do
  let cells ← freeFrom m.size m.cells m.first
  return { m with cells := cells, first := none, last := none }

/-- A new interval is allocated and linked behind the last one, in `new_tonopah_set_path`. -/
def link (m : IntervalMemory) (e : IntervalInfo) : Option IntervalMemory :=
  let newInterval := m.size
  let prevElement := m.last
  let m' : IntervalMemory :=
    { cells := Function.update m.cells newInterval (some ⟨e, none, prevElement⟩)
      first := m.first.or (some newInterval)
      last := some newInterval
      size := m.size + 1 }
  match prevElement with
  | none => some m'
  | some b => m'.modifyNode b fun c => { c with next := some newInterval }

/-- The oldest interval is unlinked and freed, in `new_tonopah_set_path`. -/
def trim (m : IntervalMemory) : Option IntervalMemory := do
  let toDelete ← m.first
  let c ← m.cells toDelete
  let first ← c.next
  let m ← { m with first := some first }.modifyNode first fun c => { c with prev := none }
  return { m with cells := Function.update m.cells toDelete none }

/-- The new interval of `new_tonopah_set_path`, with the assertion on the length of the list. -/
def append (m : IntervalMemory) (e : IntervalInfo) : Option IntervalMemory := do
  let m ← m.link e
  let len ← m.length
  if len ≤ 4 * intervalsRequired + 1 then
    if 4 * intervalsRequired < len then m.trim else some m
  else none

/-- The loop of `new_tonopah_find_right_interval`. -/
def findFrom (m : IntervalMemory) (id : IntervalPathId) (ackNum : ℕ) :
    ℕ → Option ℕ → Option (Option ℕ)
  | _, none => some none
  | 0, some _ => none
  | fuel + 1, some a => do
    let c ← m.cells a
    if (c.info.side id).firstSeqNum ≤ ackNum then some (some a)
    else m.findFrom id ackNum fuel c.prev

/-- `new_tonopah_find_right_interval`: the interval, with the one before it finished. -/
def findRightInterval (m : IntervalMemory) (id : IntervalPathId) (ackNum : ℕ) :
    Option (IntervalMemory × Option ℕ) := do
  match ← m.findFrom id ackNum m.size m.last with
  | none => return (m, none)
  | some a =>
    let c ← m.cells a
    match c.prev with
    | none => return (m, some a)
    | some b =>
      let m ← m.modifyNode b fun c => { c with info := c.info.finish id }
      return (m, some a)

/-- The loop of `new_tonopah_aggregate_intervals`, with the sums the verdict is computed from, if
there is one. A finished interval is left by `next`, to see where the next one begins. -/
def aggregateFrom (m : IntervalMemory) : ℕ → Option ℕ → RttSums → Option (Option RttSums)
  | _, none, _ => some none
  | 0, some _, _ => none
  | fuel + 1, some a, sums => do
    let c ← m.cells a
    let sums ←
      if c.info.isFinished then do
        let newer ← c.next
        let _ ← m.cells newer
        some (sums.add c.info)
      else some ⟨0, 0, 0, 0, 0⟩
    if sums.len = intervalsRequired then some (some sums) else m.aggregateFrom fuel c.prev sums

/-- `new_tonopah_aggregate_intervals`, as the sums of its verdict. -/
def aggregateIntervals (m : IntervalMemory) : Option (Option RttSums) :=
  m.aggregateFrom m.size m.last ⟨0, 0, 0, 0, 0⟩

/-! ### The list that the memory holds -/

/-- The pointers, read from the newest interval on: `prev` leads to the next element. -/
def links (m : IntervalMemory) : LinkedList ℕ :=
  ⟨m.last, m.first, fun a => (m.cells a).bind (·.prev), fun a => (m.cells a).bind (·.next)⟩

/-- The memory holds exactly the intervals of a list, each with its address, linked in this order
from the newest on. -/
structure Represents (m : IntervalMemory) (nodes : List (ℕ × IntervalInfo)) : Prop where
  links : m.links.Is (nodes.map Prod.fst)
  info : ∀ x ∈ nodes, (m.cells x.1).map (·.info) = some x.2
  /-- Nothing else is allocated. -/
  alive : ∀ a, (m.cells a).isSome → a ∈ nodes.map Prod.fst
  lt_size : ∀ a ∈ nodes.map Prod.fst, a < m.size

variable {m : IntervalMemory} {nodes : List (ℕ × IntervalInfo)}

theorem represents_empty : empty.Represents [] :=
  ⟨LinkedList.is_empty, by simp, by simp [empty], by simp⟩

namespace Represents

variable {a : ℕ}

section

variable (h : m.Represents nodes)

include h

/-- What an element holds. -/
theorem cells_eq {l r : List (ℕ × IntervalInfo)}
    (hnodes : nodes = l ++ (a, e) :: r) :
    m.cells a = some ⟨e, (l.map Prod.fst).getLast?, (r.map Prod.fst).head?⟩ := by
  subst hnodes
  have hinfo := h.info (a, e) (by simp)
  have hlinks := h.links
  rw [List.map_append, List.map_cons] at hlinks
  obtain ⟨hprev, hnext⟩ := hlinks.neighbours
  simp only [IntervalMemory.links] at hprev hnext
  cases hc : m.cells a with
  | none => simp [hc] at hinfo
  | some c =>
    simp only [hc, Option.map_some, Option.some.injEq, Option.bind_some] at hinfo hprev hnext
    obtain ⟨i, n, p⟩ := c
    simp only at hinfo hprev hnext
    rw [hinfo, hprev, hnext]

theorem length_le_size : nodes.length ≤ m.size := by
  have hsub : nodes.map Prod.fst ⊆ List.range m.size := fun a ha =>
    List.mem_range.mpr (h.lt_size a ha)
  have hle := (List.subperm_of_subset h.links.nodup hsub).length_le
  rwa [List.length_map, List.length_range] at hle

theorem last_eq : m.last = (nodes.map Prod.fst).head? :=
  h.links.first_eq

theorem first_eq : m.first = (nodes.map Prod.fst).getLast? :=
  h.links.last_eq

/-! ### Walking along the list -/

theorem lengthFrom_eq {l r : List (ℕ × IntervalInfo)}
    (hnodes : nodes = l ++ r) (hfuel : l.length ≤ fuel) :
    m.lengthFrom fuel (l.map Prod.fst).getLast? = some l.length := by
  induction l using List.reverseRecOn generalizing r fuel with
  | nil => cases fuel <;> rfl
  | append_singleton l x ih =>
    obtain ⟨a, e⟩ := x
    rw [List.length_append, List.length_singleton] at hfuel
    obtain ⟨fuel, rfl⟩ : ∃ n, fuel = n + 1 := ⟨fuel - 1, by omega⟩
    have hcell := h.cells_eq (l := l) (r := r) (a := a) (e := e) (by simpa using hnodes)
    have hrest := ih (r := (a, e) :: r) (by simpa using hnodes) (show l.length ≤ fuel by omega)
    rw [List.map_append, List.map_singleton, List.getLast?_concat, lengthFrom, hcell]
    simp only [Option.bind_eq_bind, Option.bind_some, hrest, List.length_append,
      List.length_singleton]
    rfl

theorem length_eq : m.length = some nodes.length := by
  rw [length, h.first_eq]
  exact h.lengthFrom_eq (List.append_nil nodes).symm h.length_le_size

end

/-- What is freed when the list is freed from its oldest element on. -/
theorem freeFrom_eq {cells : ℕ → Option IntervalNode} {l : List ℕ} (hnodup : l.Nodup)
    (hcells : ∀ l' a r, l = l' ++ a :: r → ∃ c, cells a = some c ∧ c.next = l'.getLast?)
    (hfuel : l.length ≤ fuel) :
    freeFrom fuel cells l.getLast? = some fun a => if a ∈ l then none else cells a := by
  induction l using List.reverseRecOn generalizing cells fuel with
  | nil => cases fuel <;> simp [freeFrom]
  | append_singleton l a ih =>
    rw [List.length_append, List.length_singleton] at hfuel
    obtain ⟨fuel, rfl⟩ : ∃ n, fuel = n + 1 := ⟨fuel - 1, by omega⟩
    obtain ⟨c, hc, hnext⟩ := hcells l a [] rfl
    obtain ⟨hl, -, hdisj⟩ := List.nodup_append.mp hnodup
    have hne : ∀ b ∈ l, b ≠ a := fun b hb => hdisj b hb a (List.mem_singleton_self a)
    have hcells' : ∀ l' b r, l = l' ++ b :: r →
        ∃ c, Function.update cells a none b = some c ∧ c.next = l'.getLast? := by
      intro l' b r hl'
      obtain ⟨c', hc', hnext'⟩ := hcells l' b (r ++ [a]) (by simp [hl'])
      exact ⟨c', by rwa [Function.update_of_ne (hne b (by simp [hl']))], hnext'⟩
    have hrest := ih hl hcells' (show l.length ≤ fuel by omega)
    rw [List.getLast?_concat, freeFrom, hc]
    simp only [Option.bind_eq_bind, Option.bind_some, hnext, hrest]
    congr 1
    funext b
    by_cases hb : b = a
    · subst hb
      simp
    · simp [hb]

section

variable (h : m.Represents nodes)

include h

/-- Deleting the list leaves nothing. -/
theorem deleteInfoList :
    ∃ m', m.deleteInfoList = some m' ∧ m'.Represents [] := by
  have hcells : ∀ l' a r, nodes.map Prod.fst = l' ++ a :: r →
      ∃ c, m.cells a = some c ∧ c.next = l'.getLast? := by
    -- the addresses before `a` are those of the newer intervals
    intro l' a r hl'
    obtain ⟨l₁, l₂, hnodes, rfl, hmap⟩ := List.map_eq_append_iff.mp hl'
    obtain ⟨⟨a', e⟩, l₃, rfl, rfl, rfl⟩ := List.map_eq_cons_iff.mp hmap
    exact ⟨_, h.cells_eq hnodes, rfl⟩
  have hlen : (nodes.map Prod.fst).length ≤ m.size := by simpa using h.length_le_size
  rw [IntervalMemory.deleteInfoList, h.first_eq, freeFrom_eq h.links.nodup hcells hlen]
  refine ⟨_, rfl, ⟨List.nodup_nil, rfl, rfl, trivial⟩, by simp, fun a ha => ?_, by simp⟩
  simp only at ha
  split_ifs at ha with hmem
  · exact absurd ha (by simp)
  · exact absurd (h.alive a ha) hmem

/-- The interval of an acknowledged packet is found. -/
theorem findFrom_eq (id : IntervalPathId) (ackNum : ℕ)
    {l r : List (ℕ × IntervalInfo)} (hnodes : nodes = l ++ r) (hfuel : r.length ≤ fuel) :
    m.findFrom id ackNum fuel (r.map Prod.fst).head? =
      some ((r.find? fun x => decide ((x.2.side id).firstSeqNum ≤ ackNum)).map Prod.fst) := by
  induction r generalizing l fuel with
  | nil => cases fuel <;> rfl
  | cons x r ih =>
    obtain ⟨a, e⟩ := x
    rw [List.length_cons] at hfuel
    obtain ⟨fuel, rfl⟩ : ∃ n, fuel = n + 1 := ⟨fuel - 1, by omega⟩
    have hcell := h.cells_eq hnodes
    rw [List.map_cons, List.head?_cons, findFrom, hcell]
    simp only [Option.bind_eq_bind, Option.bind_some]
    by_cases hfound : (e.side id).firstSeqNum ≤ ackNum
    · simp [hfound]
    · rw [if_neg hfound, ih (l := l ++ [(a, e)]) (by simpa using hnodes) (by omega)]
      simp [hfound]

/-- The sums of the verdict are those of the list. Only the newest interval has no `next`. -/
theorem aggregateFrom_eq {l r : List (ℕ × IntervalInfo)}
    (hnodes : nodes = l ++ r) (hnewest : l = [] → ∀ x ∈ r.head?, x.2.isFinished = false)
    (hfuel : r.length ≤ fuel) (sums : RttSums) :
    m.aggregateFrom fuel (r.map Prod.fst).head? sums =
      some (aggregateSums (r.map Prod.snd) sums) := by
  induction r generalizing l fuel sums with
  | nil => cases fuel <;> rfl
  | cons x r ih =>
    obtain ⟨a, e⟩ := x
    rw [List.length_cons] at hfuel
    obtain ⟨fuel, rfl⟩ : ∃ n, fuel = n + 1 := ⟨fuel - 1, by omega⟩
    have hcell := h.cells_eq hnodes
    have hrest := ih (l := l ++ [(a, e)]) (by simpa using hnodes) (by simp)
      (show r.length ≤ fuel by omega)
    rw [List.map_cons, List.head?_cons, aggregateFrom, hcell, List.map_cons, aggregateSums]
    simp only [Option.bind_eq_bind, Option.bind_some, hrest]
    by_cases hfin : e.isFinished = true
    · rcases List.eq_nil_or_concat' l with rfl | ⟨l', ⟨b, e'⟩, rfl⟩
      · simp [hnewest rfl (a, e) (by simp)] at hfin
      · -- `next` leads to the newer interval, which is there
        have hnewer := h.cells_eq (l := l') (a := b) (e := e') (r := (a, e) :: r)
          (by simpa using hnodes)
        rw [List.map_append, List.map_singleton, List.getLast?_concat]
        simp only [hfin, if_true, Option.bind_some, hnewer]
        split_ifs <;> rfl
    · simp only [hfin, Bool.false_eq_true, if_false]
      split_ifs <;> rfl

theorem aggregateIntervals_eq
    (hnewest : ∀ x ∈ nodes.head?, x.2.isFinished = false) :
    m.aggregateIntervals = some (aggregateSums (nodes.map Prod.snd) ⟨0, 0, 0, 0, 0⟩) := by
  rw [aggregateIntervals, h.last_eq]
  exact h.aggregateFrom_eq (List.nil_append nodes).symm (fun _ => hnewest) h.length_le_size _

/-! ### Changing an interval -/

/-- What an interval holds is changed. -/
theorem modifyInfo {l r : List (ℕ × IntervalInfo)}
    (hnodes : nodes = l ++ (a, e) :: r) (f : IntervalInfo → IntervalInfo) :
    ∃ m', m.modifyNode a (fun c => { c with info := f c.info }) = some m' ∧
      m'.Represents (l ++ (a, f e) :: r) := by
  have hcell := h.cells_eq hnodes
  rw [modifyNode, hcell]
  refine ⟨_, rfl, ?_⟩
  have haddr : nodes.map Prod.fst = (l ++ (a, f e) :: r).map Prod.fst := by simp [hnodes]
  have hnotMem : ∀ x ∈ l ++ r, x.1 ≠ a := by
    have hnodup := h.links.nodup
    rw [hnodes, List.map_append, List.map_cons] at hnodup
    rintro x hx rfl
    refine (List.nodup_middle.mp hnodup).notMem ?_
    rw [← List.map_append]
    exact List.mem_map.mpr ⟨x, hx, rfl⟩
  have hother : ∀ b, b ≠ a → Function.update m.cells a
      (some ⟨f e, (l.map Prod.fst).getLast?, (r.map Prod.fst).head?⟩) b = m.cells b :=
    fun b hb => Function.update_of_ne hb _ _
  refine ⟨?_, ?_, ?_, ?_⟩
  · rw [← haddr]
    refine h.links.congr rfl rfl (fun b _ => ?_) fun b _ => ?_ <;>
      simp only [IntervalMemory.links] <;> by_cases hb : b = a
    · simp [hb, hcell]
    · rw [hother b hb]
    · simp [hb, hcell]
    · rw [hother b hb]
  · intro x hx
    rw [List.mem_append, List.mem_cons] at hx
    rcases hx with hx | rfl | hx
    · show (Function.update m.cells a _ x.1).map _ = _
      rw [hother _ (hnotMem x (List.mem_append_left r hx))]
      exact h.info x (by simp [hnodes, hx])
    · simp
    · show (Function.update m.cells a _ x.1).map _ = _
      rw [hother _ (hnotMem x (List.mem_append_right l hx))]
      exact h.info x (by simp [hnodes, hx])
  · intro b hb
    rw [← haddr]
    by_cases hba : b = a
    · simp [hnodes, hba]
    · refine h.alive b ?_
      simpa only [hother b hba] using hb
  · rw [← haddr]
    exact h.lt_size

/-! ### A new interval -/

/-- The new interval is linked behind the newest one. -/
theorem link (e : IntervalInfo) :
    ∃ m', m.link e = some m' ∧ m'.Represents ((m.size, e) :: nodes) := by
  -- the new element gets an address that is not in use
  have hsize : m.size ∉ nodes.map Prod.fst := fun hmem => lt_irrefl _ (h.lt_size _ hmem)
  have hfresh : ∀ x ∈ nodes, x.1 ≠ m.size := fun x hx heq =>
    hsize (heq ▸ List.mem_map_of_mem hx)
  have hlinks := h.links.insertFront hsize
  rw [IntervalMemory.link]
  cases nodes with
  | nil =>
    have hlast : m.last = none := h.last_eq
    have hfirst : m.first = none := h.first_eq
    simp only [hlast, hfirst]
    refine ⟨_, rfl, ⟨by simp, rfl, rfl, ?_⟩, by simp, fun b hb => ?_, by simp⟩
    · simp [LinkedList.Segment, IntervalMemory.links]
    · by_cases hbs : b = m.size
      · simp [hbs]
      · simp only [Function.update_of_ne hbs] at hb
        exact absurd (h.alive b hb) (by simp)
  | cons x nodes =>
    obtain ⟨b, e'⟩ := x
    have hlast : m.last = some b := h.last_eq
    obtain ⟨n, hcell⟩ : ∃ n, m.cells b = some n := ⟨_, h.cells_eq (l := []) rfl⟩
    have hb : b ≠ m.size := hfresh (b, e') List.mem_cons_self
    obtain ⟨c, hfirst⟩ : ∃ c, m.first = some c := ⟨_, h.first_eq.trans List.getLast?_cons⟩
    simp only [hlast, hfirst, modifyNode, Function.update_of_ne hb, hcell]
    refine ⟨_, rfl, ?_, ?_, ?_, ?_⟩
    · -- the pointers are those that linking an element in front leaves
      have heq : ∀ f : IntervalNode → Option ℕ, ∀ y,
          (Function.update (Function.update m.cells m.size (some ⟨e, none, some b⟩)) b
            (some { n with next := some m.size }) y).bind f =
          if y = b then f { n with next := some m.size }
          else if y = m.size then f ⟨e, none, some b⟩ else (m.cells y).bind f := by
        intro f y
        rw [Function.update_apply, Function.update_apply]
        split_ifs <;> rfl
      refine hlinks.congr ?_ ?_ (fun y _ => ?_) fun y _ => ?_ <;>
        simp only [LinkedList.insertFront, IntervalMemory.links, hlast, hfirst,
          LinkedList.setNext, LinkedList.setPrevious]
      · rfl
      · rw [heq, Function.update_apply]
        by_cases hyb : y = b
        · rw [if_pos hyb, if_neg (hyb ▸ hb), hyb, hcell]
          rfl
        · rw [if_neg hyb]
      · rw [heq, Function.update_apply, Function.update_apply]
        by_cases hyb : y = b
        · rw [if_pos hyb, if_neg (hyb ▸ hb), if_pos hyb]
        · rw [if_neg hyb, if_neg hyb]
    · intro y hy
      rcases List.mem_cons.mp hy with rfl | hy
      · simp [Ne.symm hb]
      · by_cases hyb : y.1 = b
        · have hinfo := h.info y hy
          rw [hyb, hcell] at hinfo
          simpa [hyb] using hinfo
        · simp only [Function.update_of_ne hyb, Function.update_of_ne (hfresh y hy)]
          exact h.info y hy
    · intro y hy
      by_cases hys : y = m.size
      · simp [hys]
      · by_cases hyb : y = b
        · simp [hyb]
        · simp only [Function.update_of_ne hyb, Function.update_of_ne hys] at hy
          exact List.mem_cons_of_mem _ (h.alive y hy)
    · intro y hy
      rcases List.mem_cons.mp hy with rfl | hy
      · exact Nat.lt_succ_self _
      · exact Nat.lt_succ_of_lt (h.lt_size y hy)

end

/-- The oldest interval is unlinked and freed. -/
theorem trim {l : List (ℕ × IntervalInfo)} {x : ℕ × IntervalInfo} (h : m.Represents (l ++ [x]))
    (hl : l ≠ []) : ∃ m', m.trim = some m' ∧ m'.Represents l := by
  obtain ⟨l, ⟨b, e'⟩, rfl⟩ := (List.eq_nil_or_concat' l).resolve_left hl
  obtain ⟨a, e⟩ := x
  have hfirst : m.first = some a := by simp [h.first_eq]
  have ha := h.cells_eq (l := l ++ [(b, e')]) rfl
  have hb := h.cells_eq (l := l) (a := b) (e := e') (r := [(a, e)]) (by simp)
  have hremove := h.links
  rw [List.map_append, List.map_singleton] at hremove
  have hnotMem : a ∉ (l ++ [(b, e')]).map Prod.fst := fun hmem =>
    (List.nodup_append.mp hremove.nodup).2.2 a hmem a (List.mem_singleton_self a) rfl
  have hne : ∀ y ∈ (l ++ [(b, e')]).map Prod.fst, y ≠ a := fun y hy heq => hnotMem (heq ▸ hy)
  have hba : b ≠ a := hne b (by simp)
  rw [List.map_append, List.map_singleton, List.getLast?_concat] at ha
  rw [IntervalMemory.trim, hfirst]
  simp only [Option.bind_eq_bind, Option.bind_some, ha, modifyNode, hb, Option.map_some]
  refine ⟨_, rfl, ?_, ?_, ?_, ?_⟩
  · -- the pointers are those that unlinking an element leaves
    have hlinks := hremove.remove
    have hnext : m.links.next a = none := by simp [IntervalMemory.links, ha]
    have hprev : m.links.previous a = some b := by simp [IntervalMemory.links, ha]
    rw [List.append_nil, LinkedList.remove_eq (by simp [hnext]), hnext, hprev] at hlinks
    refine hlinks.congr rfl rfl (fun y hy => ?_) fun y hy => ?_ <;>
      simp only [IntervalMemory.links, Function.update_of_ne (hne y hy)] <;>
      by_cases hyb : y = b
    · simp [hyb]
    · simp [hyb, Ne.symm hyb]
    · simp [hyb, hb]
    · simp [hyb]
  · intro y hy
    have hya : y.1 ≠ a := hne y.1 (List.mem_map_of_mem hy)
    have hinfo := h.info y (List.mem_append_left _ hy)
    simp only [Function.update_of_ne hya]
    by_cases hyb : y.1 = b
    · rw [hyb, hb] at hinfo
      simpa [hyb] using hinfo
    · rwa [Function.update_of_ne hyb]
  · intro y hy
    by_cases hya : y = a
    · simp [hya] at hy
    · simp only [Function.update_of_ne hya] at hy
      by_cases hyb : y = b
      · simp [hyb]
      · rw [Function.update_of_ne hyb] at hy
        have hmem := h.alive y hy
        rw [List.map_append, List.mem_append] at hmem
        exact hmem.resolve_right fun hmem' => hya (by simpa using hmem')
  · exact fun y hy => h.lt_size y (by rw [List.map_append]; exact List.mem_append_left _ hy)

/-- **A new interval.** The assertion on the length holds, and four intervals are kept. -/
theorem append (h : m.Represents nodes) (hlen : nodes.length ≤ 4 * intervalsRequired)
    (e : IntervalInfo) :
    ∃ m', m.append e = some m' ∧ m'.Represents
      (if 4 * intervalsRequired < nodes.length + 1 then ((m.size, e) :: nodes).dropLast
        else (m.size, e) :: nodes) := by
  obtain ⟨m₁, hlink, hm₁⟩ := h.link e
  rw [IntervalMemory.append, hlink]
  simp only [Option.bind_eq_bind, Option.bind_some, hm₁.length_eq, List.length_cons]
  rw [if_pos (by omega)]
  split_ifs with hfull
  · have hne : nodes ≠ [] := by
      rintro rfl
      exact absurd hfull (by decide)
    obtain ⟨l, x, rfl⟩ := (List.eq_nil_or_concat' nodes).resolve_left hne
    rw [← List.cons_append] at hm₁
    obtain ⟨m₂, htrim, hm₂⟩ := hm₁.trim (List.cons_ne_nil _ _)
    refine ⟨m₂, htrim, ?_⟩
    rwa [← List.cons_append, List.dropLast_concat]
  · exact ⟨m₁, rfl, hm₁⟩

/-! ### The interval of an acknowledged packet -/

/-- Without an interval that began early enough, none is found in memory either. -/
theorem findRightInterval_of_forall (h : m.Represents nodes)
    (hnone : ∀ x ∈ nodes, ackNum < (x.2.side id).firstSeqNum) :
    m.findRightInterval id ackNum = some (m, none) := by
  have hfind := h.findFrom_eq id ackNum (List.nil_append nodes).symm h.length_le_size
  have hnone' : nodes.find? (fun x => decide ((x.2.side id).firstSeqNum ≤ ackNum)) = none :=
    List.find?_eq_none.mpr fun x hx => by simpa using hnone x hx
  rw [hnone'] at hfind
  rw [IntervalMemory.findRightInterval, h.last_eq, hfind]
  rfl

/-- The newest interval that began early enough is found, and the one before it is finished. -/
theorem findRightInterval (h : m.Represents nodes) {l r : List (ℕ × IntervalInfo)}
    (hnodes : nodes = l ++ (a, e) :: r) (hl : ∀ x ∈ l, ackNum < (x.2.side id).firstSeqNum)
    (he : (e.side id).firstSeqNum ≤ ackNum) :
    ∃ m', m.findRightInterval id ackNum = some (m', some a) ∧
      m'.Represents (l ++ (a, e) :: r.modifyHead (Prod.map (fun b => b) (·.finish id))) := by
  have hfind := h.findFrom_eq id ackNum (List.nil_append nodes).symm h.length_le_size
  have hfound : nodes.find? (fun x => decide ((x.2.side id).firstSeqNum ≤ ackNum)) =
      some (a, e) := by
    rw [hnodes, List.find?_append, List.find?_eq_none.mpr fun x hx => by simpa using hl x hx]
    simp [he]
  rw [hfound] at hfind
  rw [IntervalMemory.findRightInterval, h.last_eq, hfind]
  simp only [Option.bind_eq_bind, Option.bind_some, Option.map_some, h.cells_eq hnodes]
  cases r with
  | nil => exact ⟨m, rfl, hnodes ▸ h⟩
  | cons y r =>
    obtain ⟨b, e'⟩ := y
    obtain ⟨m', hm', hrep⟩ := h.modifyInfo (l := l ++ [(a, e)]) (a := b) (e := e') (r := r)
      (by simpa using hnodes) (·.finish id)
    rw [List.append_assoc, List.singleton_append] at hrep
    refine ⟨m', ?_, hrep⟩
    simp only [List.map_cons, List.head?_cons, hm', Option.bind_some]
    rfl

end Represents

end IntervalMemory

end Picoquic
