import Mathlib.Data.List.Nodup

/-!
# Doubly linked lists

A list that is kept by two pointers in each element and two pointers to its ends.

* **`Is`** — the pointers are those of a given list;
* **`Is.insertFront`**, **`Is.insertBack`** — an element is linked in front of the list, or behind
  it;
* **`Is.remove`**, **`Is.erase`** — an element of the list is unlinked;
* **`Is.reverse`** — read from its other end, the list is reversed;
* **`Is.congr`** — a list depends on its ends and on the pointers of its elements only. Linking and
  unlinking touch no pointers of other elements.
* **`Lists.reaches_iff`** — what a reader who starts at the first element comes to, whatever the
  backward pointers and the end are.
Unlinking an element that was never linked is possible, and empties the list.
-/

/-- The pointers of a doubly linked list. -/
structure LinkedList (α : Type*) where
  first : Option α
  last : Option α
  next : α → Option α
  previous : α → Option α

namespace LinkedList

variable {α : Type*}

/-- No element is linked. -/
def empty : LinkedList α := ⟨none, none, fun _ => none, fun _ => none⟩

/-- The elements of `l` point to each other; the first one points back to `p`, and the last one
points to `n`. -/
def Segment (L : LinkedList α) (p : Option α) : List α → Option α → Prop
  | [], _ => True
  | x :: l, n => L.previous x = p ∧ L.next x = l.head?.or n ∧ L.Segment (some x) l n

/-- The pointers are those of the list `l`. -/
structure Is (L : LinkedList α) (l : List α) : Prop where
  nodup : l.Nodup
  first_eq : L.first = l.head?
  last_eq : L.last = l.getLast?
  segment : L.Segment none l none

theorem is_empty : (empty : LinkedList α).Is [] := ⟨List.nodup_nil, rfl, rfl, trivial⟩

/-- A segment consists of the segments of its parts. -/
theorem segment_append {L : LinkedList α} {p n : Option α} {l l' : List α} :
    L.Segment p (l ++ l') n ↔
      L.Segment p l (l'.head?.or n) ∧ L.Segment (l.getLast?.or p) l' n := by
  induction l generalizing p with
  | nil => simp [Segment]
  | cons x l ih =>
    rw [List.cons_append, Segment, Segment, ih]
    cases l with
    | nil => simp [and_assoc]
    | cons y l =>
      obtain ⟨z, hz⟩ : ∃ z, (y :: l).getLast? = some z := ⟨_, List.getLast?_cons⟩
      rw [List.getLast?_cons_cons, hz]
      simp [and_assoc]

variable {l : List α}

/-- A segment depends on the pointers of its elements only. -/
theorem Segment.congr {L L' : LinkedList α} {p n : Option α} (h : L.Segment p l n)
    (hnext : ∀ x ∈ l, L'.next x = L.next x) (hprev : ∀ x ∈ l, L'.previous x = L.previous x) :
    L'.Segment p l n := by
  induction l generalizing p with
  | nil => trivial
  | cons x l ih =>
    obtain ⟨h1, h2, h3⟩ := h
    exact ⟨(hprev x List.mem_cons_self).trans h1, (hnext x List.mem_cons_self).trans h2,
      ih h3 (fun y hy => hnext y (List.mem_cons_of_mem x hy))
        fun y hy => hprev y (List.mem_cons_of_mem x hy)⟩

/-- A list depends on its ends and the pointers of its elements only. -/
theorem Is.congr {L L' : LinkedList α} (h : L.Is l) (hfirst : L'.first = L.first)
    (hlast : L'.last = L.last) (hnext : ∀ x ∈ l, L'.next x = L.next x)
    (hprev : ∀ x ∈ l, L'.previous x = L.previous x) : L'.Is l :=
  ⟨h.nodup, hfirst.trans h.first_eq, hlast.trans h.last_eq, h.segment.congr hnext hprev⟩

/-- The list read from its other end. -/
def reverse (L : LinkedList α) : LinkedList α := ⟨L.last, L.first, L.previous, L.next⟩

theorem Segment.reverse {L : LinkedList α} {p n : Option α} (h : L.Segment p l n) :
    L.reverse.Segment n l.reverse p := by
  induction l generalizing p with
  | nil => trivial
  | cons x l ih =>
    obtain ⟨h1, h2, h3⟩ := h
    rw [List.reverse_cons, segment_append]
    refine ⟨ih h3, ?_, h1, trivial⟩
    rw [List.getLast?_reverse]
    exact h2

theorem Is.reverse {L : LinkedList α} (h : L.Is l) : L.reverse.Is l.reverse where
  nodup := List.nodup_reverse.mpr h.nodup
  first_eq := h.last_eq.trans List.head?_reverse.symm
  last_eq := h.first_eq.trans List.getLast?_reverse.symm
  segment := h.segment.reverse

/-- An empty list has no ends. -/
theorem Is.eq_nil {L : LinkedList α} (h : L.Is l) (hfirst : L.first = none) : l = [] := by
  rw [h.first_eq] at hfirst
  exact List.head?_eq_none_iff.mp hfirst

theorem Is.mem_of_first {L : LinkedList α} (h : L.Is l) {x : α} (hfirst : L.first = some x) :
    x ∈ l :=
  List.mem_of_head? (h.first_eq.symm.trans hfirst)

theorem Is.mem_of_last {L : LinkedList α} (h : L.Is l) {x : α} (hlast : L.last = some x) : x ∈ l :=
  List.mem_of_getLast? (h.last_eq.symm.trans hlast)

/-- What an element of the list points to. -/
theorem Is.neighbours {L : LinkedList α} {l r : List α} {x : α} (h : L.Is (l ++ x :: r)) :
    L.next x = r.head? ∧ L.previous x = l.getLast? := by
  obtain ⟨-, h1, h2, -⟩ := segment_append.mp h.segment
  rw [Option.or_none] at h1 h2
  exact ⟨h2, h1⟩

/-- The pointers lead to elements of the list. -/
theorem Is.mem_of_next {L : LinkedList α} (h : L.Is l) {x y : α} (hx : x ∈ l)
    (hnext : L.next x = some y) : y ∈ l ∧ y ≠ x := by
  obtain ⟨l, r, rfl⟩ := List.append_of_mem hx
  have hy : y ∈ r := List.mem_of_head? (h.neighbours.1.symm.trans hnext)
  refine ⟨List.mem_append_right l (List.mem_cons_of_mem x hy), fun heq => ?_⟩
  exact (List.nodup_cons.mp (List.nodup_append.mp h.nodup).2.1).1 (heq ▸ hy)

theorem Is.mem_of_previous {L : LinkedList α} (h : L.Is l) {x y : α} (hx : x ∈ l)
    (hprev : L.previous x = some y) : y ∈ l ∧ y ≠ x := by
  have hmem := h.reverse.mem_of_next (List.mem_reverse.mpr hx) hprev
  exact ⟨List.mem_reverse.mp hmem.1, hmem.2⟩

/-- The pointers of the elements are determined by the list. -/
theorem Segment.unique {L L' : LinkedList α} {p n : Option α} (h : L.Segment p l n)
    (h' : L'.Segment p l n) : ∀ x ∈ l, L.next x = L'.next x ∧ L.previous x = L'.previous x := by
  induction l generalizing p with
  | nil => simp
  | cons x l ih =>
    obtain ⟨h1, h2, h3⟩ := h
    obtain ⟨h1', h2', h3'⟩ := h'
    intro y hy
    rcases List.mem_cons.mp hy with rfl | hy
    · exact ⟨h2.trans h2'.symm, h1.trans h1'.symm⟩
    · exact ih h3 h3' y hy

/-- Two lists with the same pointers are the same. -/
theorem Segment.eq_of_head {L : LinkedList α} {p p' : Option α} {l l' : List α}
    (h : L.Segment p l none) (h' : L.Segment p' l' none) (hhead : l.head? = l'.head?) : l = l' := by
  induction l generalizing p p' l' with
  | nil => exact (List.head?_eq_none_iff.mp hhead.symm).symm
  | cons x l ih =>
    obtain ⟨t, rfl⟩ := List.head?_eq_some_iff.mp hhead.symm
    obtain ⟨-, hnext, htail⟩ := h
    obtain ⟨-, hnext', htail'⟩ := h'
    rw [Option.or_none] at hnext hnext'
    rw [ih htail htail' (hnext.symm.trans hnext')]

theorem Is.unique {L : LinkedList α} {l l' : List α} (h : L.Is l) (h' : L.Is l') : l = l' :=
  h.segment.eq_of_head h'.segment (h.first_eq.symm.trans h'.first_eq)

/-! ### Reading from the front -/

/-- The elements of `l` follow each other, and nothing follows the last one. -/
def Follows (L : LinkedList α) : List α → Prop
  | [] => True
  | x :: l => L.next x = l.head? ∧ L.Follows l

/-- Read from its first element, the list is `l`. -/
structure Lists (L : LinkedList α) (l : List α) : Prop where
  first_eq : L.first = l.head?
  follows : L.Follows l

/-- What `n` steps forward lead to. -/
def walkFrom (L : LinkedList α) : Option α → ℕ → Option α
  | o, 0 => o
  | none, _ + 1 => none
  | some x, n + 1 => L.walkFrom (L.next x) n

/-- A reader who starts at the first element comes to `x`. -/
def Reaches (L : LinkedList α) (x : α) : Prop := ∃ n, L.walkFrom L.first n = some x

theorem Follows.congr {L L' : LinkedList α} (h : L.Follows l)
    (hnext : ∀ x ∈ l, L'.next x = L.next x) : L'.Follows l := by
  induction l with
  | nil => trivial
  | cons x l ih =>
    obtain ⟨hx, hl⟩ := h
    exact ⟨(hnext x List.mem_cons_self).trans hx,
      ih hl fun y hy => hnext y (List.mem_cons_of_mem x hy)⟩

/-- An element is put behind the last one. -/
theorem Follows.concat {L L' : LinkedList α} {x : α} (hl : l.Nodup) (h : L.Follows l)
    (hlast : ∀ y, l.getLast? = some y → L'.next y = some x)
    (hnext : ∀ y ∈ l, l.getLast? ≠ some y → L'.next y = L.next y) (hx : L'.next x = none) :
    L'.Follows (l ++ [x]) := by
  induction l with
  | nil => exact ⟨hx, trivial⟩
  | cons y l ih =>
    obtain ⟨hy, hrest⟩ := h
    obtain ⟨hyl, hl⟩ := List.nodup_cons.mp hl
    cases l with
    | nil => exact ⟨hlast y rfl, hx, trivial⟩
    | cons z l =>
      rw [List.getLast?_cons_cons] at hlast hnext
      refine ⟨?_, ih hl hrest hlast fun w hw => hnext w (List.mem_cons_of_mem y hw)⟩
      exact (hnext y List.mem_cons_self fun h => hyl (List.mem_of_getLast? h)).trans hy

theorem Segment.follows {L : LinkedList α} {p : Option α} (h : L.Segment p l none) :
    L.Follows l := by
  induction l generalizing p with
  | nil => trivial
  | cons x l ih =>
    obtain ⟨-, hnext, htail⟩ := h
    rw [Option.or_none] at hnext
    exact ⟨hnext, ih htail⟩

theorem Is.lists {L : LinkedList α} (h : L.Is l) : L.Lists l :=
  ⟨h.first_eq, h.segment.follows⟩

theorem Follows.walkFrom_head {L : LinkedList α} (h : L.Follows l) (n : ℕ) :
    L.walkFrom l.head? n = l[n]? := by
  induction l generalizing n with
  | nil => cases n <;> rfl
  | cons x l ih =>
    obtain ⟨hx, hl⟩ := h
    cases n with
    | zero => rfl
    | succ n =>
      rw [List.head?_cons, walkFrom, hx, ih hl, List.getElem?_cons_succ]

theorem Lists.reaches_iff {L : LinkedList α} (h : L.Lists l) {x : α} : L.Reaches x ↔ x ∈ l := by
  rw [Reaches, h.first_eq, List.mem_iff_getElem?]
  exact exists_congr fun n => by rw [h.follows.walkFrom_head]

variable [DecidableEq α]

/-- The pointer `next` of `x`, if there is such an element, is changed. -/
def setNext (L : LinkedList α) (x : Option α) (n : Option α) : LinkedList α :=
  match x with
  | none => L
  | some x => { L with next := Function.update L.next x n }

/-- The pointer `previous` of `x`, if there is such an element, is changed. -/
def setPrevious (L : LinkedList α) (x : Option α) (p : Option α) : LinkedList α :=
  match x with
  | none => L
  | some x => { L with previous := Function.update L.previous x p }

/-- The pointers of `x` are cleared. -/
def clear (L : LinkedList α) (x : α) : LinkedList α :=
  (L.setNext (some x) none).setPrevious (some x) none

/-- `x` is linked in front of the list. -/
def insertFront (L : LinkedList α) (x : α) : LinkedList α :=
  let L :=
    match L.first with
    | some y => (L.setPrevious (some y) (some x)).setNext (some x) (some y)
    | none => { L with last := some x }.setNext (some x) none
  { L with first := some x }.setPrevious (some x) none

/-- `x` is unlinked. -/
def remove (L : LinkedList α) (x : α) : LinkedList α :=
  let L :=
    match L.next x with
    | none => { L with last := L.previous x }
    | some y => L.setPrevious (some y) (L.previous x)
  match L.previous x with
  | none => { L with first := L.next x }
  | some y => L.setNext (some y) (L.next x)

/-- **Linking.** -/
theorem Is.insertFront {L : LinkedList α} (h : L.Is l) {x : α} (hx : x ∉ l) :
    (L.insertFront x).Is (x :: l) := by
  have hne : ∀ y ∈ l, y ≠ x := fun y hy heq => hx (heq ▸ hy)
  rw [LinkedList.insertFront, h.first_eq]
  cases l with
  | nil =>
    refine ⟨by simp, rfl, rfl, ?_⟩
    simp [Segment, setNext, setPrevious]
  | cons y l =>
    have hnodup := List.nodup_cons.mp h.nodup
    obtain ⟨h1, h2, h3⟩ := h.segment
    refine ⟨List.nodup_cons.mpr ⟨hx, h.nodup⟩, rfl, ?_, ?_, ?_, ?_, ?_, ?_⟩
    · rw [List.getLast?_cons_cons]
      exact h.last_eq
    · simp [setNext, setPrevious]
    · simp [setNext, setPrevious]
    · simp [setNext, setPrevious, hne y List.mem_cons_self]
    · simp only [List.head?_cons, setNext, setPrevious]
      rw [Function.update_of_ne (hne y List.mem_cons_self)]
      exact h2
    · refine h3.congr (fun z hz => ?_) fun z hz => ?_
      · simp [setNext, setPrevious, hne z (List.mem_cons_of_mem y hz)]
      · have hzy : z ≠ y := fun heq => hnodup.1 (heq ▸ hz)
        simp [setNext, setPrevious, hne z (List.mem_cons_of_mem y hz), hzy]

/-- `x` is linked behind the list. -/
def insertBack (L : LinkedList α) (x : α) : LinkedList α := (L.reverse.insertFront x).reverse

theorem Is.insertBack {L : LinkedList α} (h : L.Is l) {x : α} (hx : x ∉ l) :
    (L.insertBack x).Is (l ++ [x]) := by
  have hback := (h.reverse.insertFront (mt List.mem_reverse.mp hx)).reverse
  rwa [List.reverse_cons, List.reverse_reverse] at hback

/-- All pointers after an element was unlinked that does not point to itself. -/
theorem remove_eq {L : LinkedList α} {x : α} (hx : L.next x ≠ some x) :
    L.remove x =
      { first := (L.previous x).elim (L.next x) fun _ => L.first
        last := (L.next x).elim (L.previous x) fun _ => L.last
        next := fun z => if L.previous x = some z then L.next x else L.next z
        previous := fun z => if L.next x = some z then L.previous x else L.previous z } := by
  have hupdate : ∀ (f : α → Option α) (y : α) (v : Option α),
      Function.update f y v = fun z => if some y = some z then v else f z := by
    intro f y v
    funext z
    simp [Function.update_apply, eq_comm]
  rw [remove]
  cases hn : L.next x with
  | none =>
    cases hp : L.previous x with
    | none => simp [hn]
    | some y => simp [hn, setNext, hupdate]
  | some w =>
    have hwx : x ≠ w := fun heq => hx (hn.trans (congrArg some heq.symm))
    cases hp : L.previous x with
    | none => simp [hn, hp, setPrevious, hupdate, Ne.symm hwx]
    | some y => simp [hn, hp, setNext, setPrevious, hupdate, Ne.symm hwx]

/-- The end of a segment is linked to another element. -/
theorem Segment.setEnd {L L' : LinkedList α} {p n n' : Option α} (hl : l.Nodup)
    (h : L.Segment p l n) (hprev : ∀ z ∈ l, L'.previous z = L.previous z)
    (hnext : ∀ z ∈ l, L'.next z = if l.getLast? = some z then n' else L.next z) :
    L'.Segment p l n' := by
  induction l generalizing p with
  | nil => trivial
  | cons x l ih =>
    obtain ⟨h1, h2, h3⟩ := h
    have hx := List.nodup_cons.mp hl
    refine ⟨(hprev x List.mem_cons_self).trans h1, ?_, ?_⟩
    · rw [hnext x List.mem_cons_self]
      cases l with
      | nil => simp
      | cons y l =>
        rw [List.getLast?_cons_cons, if_neg, h2]
        · rfl
        · exact fun hlast => hx.1 (List.mem_of_getLast? hlast)
    · refine ih hx.2 h3 (fun z hz => hprev z (List.mem_cons_of_mem x hz)) fun z hz => ?_
      rw [hnext z (List.mem_cons_of_mem x hz)]
      cases l with
      | nil => cases hz
      | cons y l => rw [List.getLast?_cons_cons]

/-- The start of a segment is linked to another element. -/
theorem Segment.setStart {L L' : LinkedList α} {p p' n : Option α} (hl : l.Nodup)
    (h : L.Segment p l n) (hnext : ∀ z ∈ l, L'.next z = L.next z)
    (hprev : ∀ z ∈ l, L'.previous z = if l.head? = some z then p' else L.previous z) :
    L'.Segment p' l n := by
  cases l with
  | nil => trivial
  | cons x l =>
    obtain ⟨-, h2, h3⟩ := h
    have hx := List.nodup_cons.mp hl
    refine ⟨by simpa using hprev x List.mem_cons_self, (hnext x List.mem_cons_self).trans h2, ?_⟩
    refine h3.congr (fun z hz => hnext z (List.mem_cons_of_mem x hz)) fun z hz => ?_
    have hne : x ≠ z := fun heq => hx.1 (heq ▸ hz)
    rw [hprev z (List.mem_cons_of_mem x hz), List.head?_cons, if_neg (by simpa using hne)]

/-- **Unlinking.** -/
theorem Is.remove {L : LinkedList α} {l r : List α} {x : α} (h : L.Is (l ++ x :: r)) :
    (L.remove x).Is (l ++ r) := by
  obtain ⟨hnext, hprev⟩ := h.neighbours
  obtain ⟨hl, hxr, hdisj⟩ := List.nodup_append.mp h.nodup
  obtain ⟨hx, hr⟩ := List.nodup_cons.mp hxr
  obtain ⟨h1, -, -, h3⟩ := segment_append.mp h.segment
  have hdisj' : ∀ z ∈ l, ∀ w ∈ r, z ≠ w := fun z hz w hw => hdisj z hz w (List.mem_cons_of_mem x hw)
  rw [remove_eq (by rw [hnext]; exact fun hhead => hx (List.mem_of_head? hhead)), hnext, hprev]
  refine ⟨List.nodup_append.mpr ⟨hl, hr, hdisj'⟩, ?_, ?_, segment_append.mpr ⟨?_, ?_⟩⟩
  · rw [h.first_eq]
    cases l with
    | nil => rfl
    | cons y l => simp [List.getLast?_cons]
  · rw [h.last_eq]
    cases r with
    | nil => simp
    | cons y r => simp [List.getLast?_append, List.getLast?_cons]
  · refine Segment.setEnd hl h1 (fun z hz => if_neg fun hhead => ?_) fun z _ => ?_
    · exact hdisj' z hz z (List.mem_of_head? hhead) rfl
    · simp only [Option.or_none]
  · rw [Option.or_none]
    refine Segment.setStart hr h3 (fun z hz => if_neg fun hlast => ?_) fun z _ => rfl
    exact hdisj' z (List.mem_of_getLast? hlast) z hz rfl

/-- Unlinking an element, whatever its place. -/
theorem Is.erase {L : LinkedList α} (h : L.Is l) {x : α} (hx : x ∈ l) :
    (L.remove x).Is (l.erase x) := by
  obtain ⟨l, r, rfl⟩ := List.append_of_mem hx
  have hl : x ∉ l := fun hmem =>
    (List.nodup_append.mp h.nodup).2.2 x hmem x List.mem_cons_self rfl
  rw [List.erase_append_right _ hl, List.erase_cons_head]
  exact h.remove

/-! ### What linking and unlinking leave alone -/

theorem insertFront_next {L : LinkedList α} {x z : α} (hz : z ≠ x) :
    (L.insertFront x).next z = L.next z := by
  rw [insertFront]
  cases L.first <;> exact Function.update_of_ne hz _ _

theorem insertFront_previous {L : LinkedList α} {x z : α} (hz : z ≠ x) (hfirst : L.first ≠ some z) :
    (L.insertFront x).previous z = L.previous z := by
  rw [insertFront]
  cases hL : L.first with
  | none => exact Function.update_of_ne hz _ _
  | some y =>
    have hy : z ≠ y := fun heq => hfirst (hL.trans (congrArg some heq.symm))
    exact (Function.update_of_ne hz _ _).trans (Function.update_of_ne hy _ _)

/-- Unlinking an element of a list touches no pointers of elements outside it. -/
theorem Is.remove_frame {L : LinkedList α} (h : L.Is l) {x z : α} (hx : x ∈ l) (hz : z ∉ l) :
    (L.remove x).next z = L.next z ∧ (L.remove x).previous z = L.previous z := by
  have hself : L.next x ≠ some x := fun heq => (h.mem_of_next hx heq).2 rfl
  rw [remove_eq hself]
  refine ⟨if_neg fun heq => hz (h.mem_of_previous hx heq).1,
    if_neg fun heq => hz (h.mem_of_next hx heq).1⟩

end LinkedList
