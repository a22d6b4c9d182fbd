import Mathlib.Data.Int.Notation
import Mathlib.Data.List.Pairwise
import Mathlib.Data.List.Perm.Basic

/-!
# Splay trees

Binary search trees that are restructured bottom-up: a node that was found or inserted moves to
the root, two edges at a time. The comparison is a function to the integers that need not be an
order; what is known about it on the values of a tree is an assumption of each rule. All rules are
about the values from left to right:

* **`toList_splay`** — splaying keeps them;
* **`toList_insert`** — an inserted value stands before the values that it compares below;
* **`find_eq_none`** — a search that fails shows that there is no such value;
* **`findPrevious_spec`** — the last value that is not above another one;
* **`toList_deleteHint`** — deletion of a node takes out its value alone;
* **`toList_deleteHint_insert`** — it undoes an insertion;
* **`first_eq_head?`** — the leftmost node has the first value.
-/

/-- A binary tree with a value at each node. -/
inductive SplayTree (α : Type*)
  | nil
  | node (left : SplayTree α) (value : α) (right : SplayTree α)

namespace SplayTree

variable {α : Type*}

/-- The values of a tree from left to right. -/
def toList : SplayTree α → List α
  | nil => []
  | node left value right => left.toList ++ value :: right.toList

@[simp]
theorem toList_nil : (nil : SplayTree α).toList = [] := rfl

@[simp]
theorem toList_node (left right : SplayTree α) (value : α) :
    (node left value right).toList = left.toList ++ value :: right.toList := rfl

/-! ### The way to the root -/

/-- One edge on the way from a node to the root: the parent, and what is on its other side. -/
inductive Edge (α : Type*)
  | leftOf (parent : α) (right : SplayTree α)
  | rightOf (left : SplayTree α) (parent : α)

/-- The values on the left of the way to the root. -/
def before : List (Edge α) → List α
  | [] => []
  | .leftOf _ _ :: path => before path
  | .rightOf left parent :: path => before path ++ (left.toList ++ [parent])

/-- The values on the right of the way to the root. -/
def after : List (Edge α) → List α
  | [] => []
  | .leftOf parent right :: path => parent :: right.toList ++ after path
  | .rightOf _ _ :: path => after path

/-- The node with value `x` moves to the root: a single rotation below the root, and otherwise the
cases zig-zig and zig-zag. -/
def splay (l : SplayTree α) (x : α) (r : SplayTree α) : List (Edge α) → SplayTree α
  | [] => node l x r
  | [.leftOf p c] => node l x (node r p c)
  | [.rightOf b p] => node (node b p l) x r
  | .leftOf p c :: .leftOf g d :: path => splay l x (node r p (node c g d)) path
  | .rightOf b p :: .rightOf a g :: path => splay (node (node a g b) p l) x r path
  | .leftOf p c :: .rightOf a g :: path => splay (node a g l) x (node r p c) path
  | .rightOf b p :: .leftOf g d :: path => splay (node b p l) x (node r g d) path

/-- The node is the root afterwards, and every other value stays on its side. -/
theorem splay_eq_node (l : SplayTree α) (x : α) (r : SplayTree α) (path : List (Edge α)) :
    ∃ l' r', splay l x r path = node l' x r' ∧ l'.toList = before path ++ l.toList ∧
      r'.toList = r.toList ++ after path := by
  fun_induction splay with
  | case1 l r => exact ⟨l, r, rfl, by simp [before], by simp [after]⟩
  | case2 l r p c => exact ⟨l, node r p c, rfl, by simp [before], by simp [after]⟩
  | case3 l r b p => exact ⟨node b p l, r, rfl, by simp [before], by simp [after]⟩
  | case4 l r p c g d path ih | case5 l r b p a g path ih | case6 l r p c a g path ih
  | case7 l r b p g d path ih =>
    obtain ⟨l', r', heq, hl, hr⟩ := ih
    exact ⟨l', r', heq, by simp [hl, before], by simp [hr, after]⟩

/-- Splaying keeps the order of the values. -/
@[simp]
theorem toList_splay (l : SplayTree α) (x : α) (r : SplayTree α) (path : List (Edge α)) :
    (splay l x r path).toList = before path ++ (l.toList ++ x :: r.toList) ++ after path := by
  obtain ⟨l', r', heq, hl, hr⟩ := splay_eq_node l x r path
  simp [heq, hl, hr]

/-! ### Insertion -/

section Insert

variable (comp : α → α → ℤ) (x : α)

/-- The way from the new leaf to the root. -/
def insertPath : SplayTree α → List (Edge α) → List (Edge α)
  | nil, path => path
  | node left value right, path =>
    if comp x value < 0 then insertPath left (.leftOf value right :: path)
    else insertPath right (.rightOf left value :: path)

/-- A new leaf is added and splayed. -/
def insert (t : SplayTree α) : SplayTree α := splay nil x nil (insertPath comp x t [])

/-- The new leaf lies between the values of the tree. -/
theorem before_append_after_insertPath (t : SplayTree α) (path : List (Edge α)) :
    before (insertPath comp x t path) ++ after (insertPath comp x t path) =
      before path ++ t.toList ++ after path := by
  induction t generalizing path with
  | nil => simp [insertPath]
  | node left value right ihl ihr =>
    rw [insertPath]
    split_ifs
    · simp [ihl, before, after]
    · simp [ihr, before, after]

/-- Insertion adds one value. -/
theorem toList_insert_perm (t : SplayTree α) : (insert comp x t).toList.Perm (x :: t.toList) := by
  have h := before_append_after_insertPath comp x t []
  simp only [before, after, List.nil_append, List.append_nil] at h
  rw [insert, toList_splay, ← h]
  simp [List.perm_middle]

variable {comp x}

/-- Where the leaf lies, when the values that `x` compares below are together at the end. -/
theorem insertPath_spec {t : SplayTree α} (path : List (Edge α))
    (ht : t.toList.Pairwise fun a b => comp x a < 0 → comp x b < 0)
    (hbefore : ∀ a ∈ before path, ¬ comp x a < 0) (hafter : ∀ a ∈ after path, comp x a < 0) :
    (∀ a ∈ before (insertPath comp x t path), ¬ comp x a < 0) ∧
      ∀ a ∈ after (insertPath comp x t path), comp x a < 0 := by
  induction t generalizing path with
  | nil => exact ⟨hbefore, hafter⟩
  | node left value right ihl ihr =>
    rw [toList_node, List.pairwise_append, List.pairwise_cons] at ht
    obtain ⟨hl, ⟨hvalue, hr⟩, hcross⟩ := ht
    rw [insertPath]
    split_ifs with hlt
    · refine ihl _ hl hbefore fun a ha => ?_
      rcases List.mem_append.mp ha with ha | ha
      · rcases List.mem_cons.mp ha with rfl | ha
        · exact hlt
        · exact hvalue a ha hlt
      · exact hafter a ha
    · refine ihr _ hr (fun a ha => ?_) hafter
      rcases List.mem_append.mp ha with ha | ha
      · exact hbefore a ha
      · rcases List.mem_append.mp ha with ha | ha
        · intro hlt'
          exact hlt (hcross a ha value List.mem_cons_self hlt')
        · rw [List.mem_singleton.mp ha]
          exact hlt

/-- **Insertion.** When the values that `x` compares below are together at the end of the tree,
`x` is inserted before them. -/
theorem toList_insert {t : SplayTree α}
    (ht : t.toList.Pairwise fun a b => comp x a < 0 → comp x b < 0) :
    ∃ l r, t.toList = l ++ r ∧ (insert comp x t).toList = l ++ x :: r ∧
      (∀ a ∈ l, ¬ comp x a < 0) ∧ ∀ a ∈ r, comp x a < 0 := by
  have h := before_append_after_insertPath comp x t []
  simp only [before, after, List.nil_append, List.append_nil] at h
  obtain ⟨hbefore, hafter⟩ := insertPath_spec [] ht (by simp [before]) (by simp [after])
  refine ⟨_, _, h.symm, ?_, hbefore, hafter⟩
  rw [insert, toList_splay]
  simp

end Insert

/-! ### Search -/

section Find

variable {β : Type*} (comp : β → α → ℤ) (x : β)

/-- The search for a node that compares equal to `x`, with the way back to the root. -/
def search : SplayTree α → List (Edge α) →
    Option (SplayTree α × α × SplayTree α × List (Edge α))
  | nil, _ => none
  | node left value right, path =>
    if comp x value = 0 then some (left, value, right, path)
    else if comp x value < 0 then search left (.leftOf value right :: path)
    else search right (.rightOf left value :: path)

/-- The node that compares equal to `x` is found and splayed. -/
def find (t : SplayTree α) : Option α × SplayTree α :=
  match search comp x t [] with
  | none => (none, t)
  | some (left, value, right, path) => (some value, splay left value right path)

variable {comp x}

theorem search_eq_some {t : SplayTree α} {path path' : List (Edge α)} {left right : SplayTree α}
    {value : α} (h : search comp x t path = some (left, value, right, path')) :
    comp x value = 0 ∧ before path' ++ (left.toList ++ value :: right.toList) ++ after path' =
      before path ++ t.toList ++ after path := by
  induction t generalizing path with
  | nil => cases h
  | node l v r ihl ihr =>
    rw [search] at h
    split_ifs at h with hzero hlt
    · simp only [Option.some.injEq, Prod.mk.injEq] at h
      obtain ⟨rfl, rfl, rfl, rfl⟩ := h
      exact ⟨hzero, rfl⟩
    · obtain ⟨h1, h2⟩ := ihl h
      exact ⟨h1, h2.trans (by simp [before, after])⟩
    · obtain ⟨h1, h2⟩ := ihr h
      exact ⟨h1, h2.trans (by simp [before, after])⟩

/-- Searching keeps the order of the values. -/
@[simp]
theorem toList_find (t : SplayTree α) : (find comp x t).2.toList = t.toList := by
  rw [find]
  cases h : search comp x t [] with
  | none => rfl
  | some found =>
    obtain ⟨left, value, right, path⟩ := found
    obtain ⟨-, hlist⟩ := search_eq_some h
    simpa [before, after] using hlist

/-- What is found is a value of the tree that compares equal. -/
theorem find_eq_some {t : SplayTree α} {value : α} (h : (find comp x t).1 = some value) :
    comp x value = 0 ∧ value ∈ t.toList := by
  rw [find] at h
  cases hs : search comp x t [] with
  | none =>
    rw [hs] at h
    cases h
  | some found =>
    obtain ⟨left, value', right, path⟩ := found
    rw [hs] at h
    obtain rfl := Option.some.inj h
    obtain ⟨hzero, hlist⟩ := search_eq_some hs
    have hlist' : t.toList = before path ++ (left.toList ++ value' :: right.toList) ++
        after path := by
      simpa [before, after] using hlist.symm
    exact ⟨hzero, by simp [hlist']⟩

/-- Nothing is found where no value compares equal. -/
theorem find_of_ne {t : SplayTree α} (h : ∀ a ∈ t.toList, comp x a ≠ 0) :
    find comp x t = (none, t) := by
  cases hfound : (find comp x t).1 with
  | none =>
    rw [find] at hfound ⊢
    cases hs : search comp x t [] with
    | none => rfl
    | some found =>
      rw [hs] at hfound
      cases hfound
  | some value =>
    obtain ⟨hzero, hmem⟩ := find_eq_some hfound
    exact absurd hzero (h value hmem)

theorem search_eq_none {t : SplayTree α} {path : List (Edge α)}
    (ht : t.toList.Pairwise fun a b =>
      (comp x a < 0 → comp x b ≠ 0) ∧ (0 < comp x b → comp x a ≠ 0))
    (h : search comp x t path = none) : ∀ a ∈ t.toList, comp x a ≠ 0 := by
  induction t generalizing path with
  | nil => simp
  | node left value right ihl ihr =>
    rw [toList_node, List.pairwise_append, List.pairwise_cons] at ht
    obtain ⟨hl, ⟨hvalue, hr⟩, hcross⟩ := ht
    rw [search] at h
    split_ifs at h with hzero hlt
    · intro a ha
      rcases List.mem_append.mp ha with ha | ha
      · exact ihl hl h a ha
      · rcases List.mem_cons.mp ha with rfl | ha
        · exact hzero
        · exact (hvalue a ha).1 hlt
    · intro a ha
      rcases List.mem_append.mp ha with ha | ha
      · exact (hcross a ha value List.mem_cons_self).2 (by omega)
      · rcases List.mem_cons.mp ha with rfl | ha
        · exact hzero
        · exact ihr hr h a ha

/-- **Search.** A search that fails shows that no value compares equal, when no value that
compares equal is hidden behind one that sends the search the other way. -/
theorem find_eq_none {t : SplayTree α}
    (ht : t.toList.Pairwise fun a b =>
      (comp x a < 0 → comp x b ≠ 0) ∧ (0 < comp x b → comp x a ≠ 0))
    (h : (find comp x t).1 = none) : ∀ a ∈ t.toList, comp x a ≠ 0 := by
  have hs : search comp x t [] = none := by
    rw [find] at h
    cases hs : search comp x t [] with
    | none => rfl
    | some found =>
      rw [hs] at h
      cases h
  exact search_eq_none ht hs

/-- The last value on the way to `x` that `x` does not compare below, or `previous`. -/
def findPrevious (comp : β → α → ℤ) (x : β) : SplayTree α → (previous : Option α) → Option α
  | nil, previous => previous
  | node left value right, previous =>
    if comp x value = 0 then some value
    else if comp x value < 0 then findPrevious comp x left previous
    else findPrevious comp x right (some value)

/-- **The previous value.** When the values that `x` compares below are together at the end, what
is found is the last one before them, unless it compares equal. -/
theorem findPrevious_spec {t : SplayTree α} {previous : Option α}
    (ht : t.toList.Pairwise fun a b => comp x a < 0 → comp x b < 0) :
    (findPrevious comp x t previous = previous ∧ ∀ a ∈ t.toList, comp x a < 0) ∨
      ∃ l a r, t.toList = l ++ a :: r ∧ findPrevious comp x t previous = some a ∧
        0 ≤ comp x a ∧ (comp x a = 0 ∨ ∀ b ∈ r, comp x b < 0) := by
  induction t generalizing previous with
  | nil => exact Or.inl ⟨rfl, by simp⟩
  | node left value right ihl ihr =>
    rw [toList_node, List.pairwise_append, List.pairwise_cons] at ht
    obtain ⟨hl, ⟨hvalue, hr⟩, -⟩ := ht
    rw [findPrevious]
    split_ifs with hzero hlt
    · exact Or.inr ⟨left.toList, value, right.toList, rfl, rfl, by omega, Or.inl hzero⟩
    · have hafter : ∀ b ∈ value :: right.toList, comp x b < 0 := by
        intro b hb
        rcases List.mem_cons.mp hb with rfl | hb
        · exact hlt
        · exact hvalue b hb hlt
      rcases ihl hl with ⟨hnone, hall⟩ | ⟨l, a, r, hlist, hsome, h0, hlast⟩
      · refine Or.inl ⟨hnone, fun b hb => ?_⟩
        rcases List.mem_append.mp hb with hb | hb
        · exact hall b hb
        · exact hafter b hb
      · refine Or.inr ⟨l, a, r ++ value :: right.toList, by simp [hlist], hsome, h0, ?_⟩
        refine hlast.imp_right fun hlast b hb => ?_
        rcases List.mem_append.mp hb with hb | hb
        · exact hlast b hb
        · exact hafter b hb
    · refine Or.inr ?_
      rcases ihr hr with ⟨hnone, hall⟩ | ⟨l, a, r, hlist, hsome, h⟩
      · exact ⟨left.toList, value, right.toList, rfl, hnone, by omega, Or.inr hall⟩
      · exact ⟨left.toList ++ value :: l, a, r, by simp [hlist], hsome, h⟩

end Find

/-! ### Deletion -/

section Delete

/-- The leftmost value, and the tree in which the right child has taken the place of its node. -/
def popLeftmost : SplayTree α → Option (α × SplayTree α)
  | nil => none
  | node left value right =>
    match popLeftmost left with
    | none => some (value, right)
    | some (x, left') => some (x, node left' value right)

theorem popLeftmost_eq_none {t : SplayTree α} (h : popLeftmost t = none) : t = nil := by
  cases t with
  | nil => rfl
  | node left value right =>
    rw [popLeftmost] at h
    split at h <;> cases h

/-- Where the leftmost value comes from. -/
theorem popLeftmost_cases {left right t' : SplayTree α} {value x : α}
    (h : popLeftmost (node left value right) = some (x, t')) :
    (left = nil ∧ value = x ∧ right = t') ∨
      ∃ left', popLeftmost left = some (x, left') ∧ t' = node left' value right := by
  rw [popLeftmost] at h
  cases hl : popLeftmost left with
  | none =>
    rw [hl] at h
    simp only [Option.some.injEq, Prod.mk.injEq] at h
    exact Or.inl ⟨popLeftmost_eq_none hl, h.1, h.2⟩
  | some found =>
    obtain ⟨y, left'⟩ := found
    rw [hl] at h
    simp only [Option.some.injEq, Prod.mk.injEq] at h
    obtain ⟨rfl, rfl⟩ := h
    exact Or.inr ⟨left', rfl, rfl⟩

theorem popLeftmost_eq_some {t t' : SplayTree α} {x : α} (h : popLeftmost t = some (x, t')) :
    t.toList = x :: t'.toList := by
  induction t generalizing x t' with
  | nil => cases h
  | node left value right ihl _ =>
    obtain ⟨rfl, rfl, rfl⟩ | ⟨left', hl, rfl⟩ := popLeftmost_cases h
    · rfl
    · simp [ihl hl]

/-- The two sides of a root that was deleted: the leftmost node on the right is the new root. -/
def join (left right : SplayTree α) : SplayTree α :=
  match left, popLeftmost right with
  | nil, _ => right
  | left, none => left
  | left, some (x, right') => node left x right'

@[simp]
theorem toList_join (left right : SplayTree α) :
    (join left right).toList = left.toList ++ right.toList := by
  cases left with
  | nil => rfl
  | node l x r =>
    cases h : popLeftmost right with
    | none =>
      obtain rfl := popLeftmost_eq_none h
      simp [join, popLeftmost]
    | some found => simp [join, h, popLeftmost_eq_some h]

variable [DecidableEq α]

/-- The node with value `x`, wherever it is. -/
def locate (x : α) : SplayTree α → List (Edge α) →
    Option (SplayTree α × SplayTree α × List (Edge α))
  | nil, _ => none
  | node left value right, path =>
    if value = x then some (left, right, path)
    else
      match locate x left (.leftOf value right :: path) with
      | some found => some found
      | none => locate x right (.rightOf left value :: path)

/-- The node with value `x` is splayed, and deleted. -/
def deleteHint (x : α) (t : SplayTree α) : SplayTree α :=
  match locate x t [] with
  | none => t
  | some (left, right, path) =>
    match splay left x right path with
    | nil => nil
    | node l _ r => join l r

theorem locate_eq_none {x : α} {t : SplayTree α} {path : List (Edge α)}
    (h : locate x t path = none) : x ∉ t.toList := by
  induction t generalizing path with
  | nil => simp
  | node left value right ihl ihr =>
    rw [locate] at h
    split_ifs at h with hx
    cases hl : locate x left (.leftOf value right :: path) with
    | some found =>
      rw [hl] at h
      cases h
    | none =>
      rw [hl] at h
      simp [ihl hl, ihr h, Ne.symm hx]

theorem locate_eq_some {x : α} {t : SplayTree α} {path path' : List (Edge α)}
    {left right : SplayTree α} (h : locate x t path = some (left, right, path')) :
    before path' ++ (left.toList ++ x :: right.toList) ++ after path' =
      before path ++ t.toList ++ after path := by
  induction t generalizing path with
  | nil => cases h
  | node l value r ihl ihr =>
    rw [locate] at h
    split_ifs at h with hx
    · simp only [Option.some.injEq, Prod.mk.injEq] at h
      obtain ⟨rfl, rfl, rfl⟩ := h
      rw [hx]
      rfl
    · cases hl : locate x l (.leftOf value r :: path) with
      | some found =>
        rw [hl] at h
        rw [Option.some.inj h] at hl
        exact (ihl hl).trans (by simp [before, after])
      | none =>
        rw [hl] at h
        exact (ihr h).trans (by simp [before, after])

/-- **Deletion.** The value of the node is taken out. -/
theorem toList_deleteHint {x : α} {t : SplayTree α} (hx : x ∈ t.toList) :
    ∃ l r, t.toList = l ++ x :: r ∧ (deleteHint x t).toList = l ++ r := by
  rw [deleteHint]
  cases h : locate x t [] with
  | none => exact absurd hx (locate_eq_none h)
  | some found =>
    obtain ⟨left, right, path⟩ := found
    obtain ⟨l', r', heq, hl, hr⟩ := splay_eq_node left x right path
    have hlist := locate_eq_some h
    simp only [before, after, List.nil_append, List.append_nil] at hlist
    refine ⟨l'.toList, r'.toList, ?_, ?_⟩
    · rw [← hlist, hl, hr]
      simp
    · simp only [heq, toList_join]

/-- A value that is inserted and deleted again leaves the order of the values as it was. -/
theorem toList_deleteHint_insert (comp : α → α → ℤ) {x : α} {t : SplayTree α} (hx : x ∉ t.toList) :
    (deleteHint x (insert comp x t)).toList = t.toList := by
  have hperm := toList_insert_perm comp x t
  obtain ⟨l, r, heq, hdelete⟩ := toList_deleteHint (hperm.mem_iff.mpr List.mem_cons_self)
  have hlist := before_append_after_insertPath comp x t []
  simp only [before, after, List.nil_append, List.append_nil] at hlist
  have hinsert : (insert comp x t).toList =
      before (insertPath comp x t []) ++ x :: after (insertPath comp x t []) := by
    rw [insert, toList_splay]
    simp
  -- the value occurs once, so the two ways to cut the list are the same
  have hcount : x ∉ l := by
    intro hl
    have h2 : 2 ≤ (insert comp x t).toList.count x := by
      rw [heq, List.count_append, List.count_cons_self]
      have := List.count_pos_iff.mpr hl
      omega
    rw [hperm.count_eq, List.count_cons_self, List.count_eq_zero_of_not_mem hx] at h2
    omega
  have hbefore : x ∉ before (insertPath comp x t []) := fun h =>
    hx (hlist ▸ List.mem_append_left _ h)
  rw [hdelete, ← hlist]
  have herase := congrArg (fun l => l.erase x) (heq.symm.trans hinsert)
  simpa [List.erase_append_right _ hcount, List.erase_append_right _ hbefore] using herase

end Delete

/-! ### The first node -/

/-- The leftmost value. -/
def first : SplayTree α → Option α
  | nil => none
  | node nil value _ => some value
  | node left _ _ => first left

/-- **The first node** has the first value. -/
theorem first_eq_head? (t : SplayTree α) : t.first = t.toList.head? := by
  fun_induction first with
  | case1 => rfl
  | case2 value right => rfl
  | case3 left value right hne ih =>
    cases left with
    | nil => exact absurd rfl hne
    | node l v r => simpa using ih

end SplayTree
