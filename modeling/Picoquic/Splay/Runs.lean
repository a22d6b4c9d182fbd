import Picoquic.Splay.Operations

/-!
# Histories of a splay tree

What holds of a splay tree after any sequence of its operations, for any comparator that is a total
preorder. Memory outside of the tree may be used for anything in the meantime: a node that was
deleted may come back with other pointers and another value.

* **`Reached`** — the trees that the operations lead to, and the nodes that should be stored;
* **`WellFormed`** — the order of the nodes, their pointers, and their number;
* **`splay_tree_law`** — each tree is well formed, and each operation goes through and answers
  from the nodes that are stored.
-/

namespace Picoquic

namespace Picosplay

open SplayTree PointerTree

variable {α V : Type*}

/-- The comparator is a total preorder. -/
structure IsComparator (comp : V → V → ℤ) : Prop where
  neg_iff : ∀ a b, comp a b < 0 ↔ 0 < comp b a
  trans : ∀ a b c, comp a b ≤ 0 → comp b c ≤ 0 → comp a c ≤ 0

namespace IsComparator

variable {comp : V → V → ℤ} {a b c : V}

section

variable (h : IsComparator comp)

include h

theorem nonpos_iff : comp a b ≤ 0 ↔ 0 ≤ comp b a := by
  have hneg := h.neg_iff b a
  omega

theorem refl_nonneg (a : V) : 0 ≤ comp a a := by
  have hneg := h.neg_iff a a
  omega

theorem lt_of_lt_of_le (hab : comp a b < 0) (hbc : comp b c ≤ 0) :
    comp a c < 0 := by
  by_contra hac
  have hca : comp c a ≤ 0 := h.nonpos_iff.mpr (by omega)
  have hba := h.nonpos_iff.mp (h.trans b c a hbc hca)
  omega

theorem lt_of_le_of_lt (hab : comp a b ≤ 0) (hbc : comp b c < 0) :
    comp a c < 0 := by
  by_contra hac
  have hca : comp c a ≤ 0 := h.nonpos_iff.mpr (by omega)
  have hcb := h.nonpos_iff.mp (h.trans c a b hca hab)
  omega

end

end IsComparator

/-! ### Operations and their answers -/

/-- The operations. A node that is inserted is the one that `create` returns, which may be `NULL`,
as the node of `picosplay_delete_hint` may be. -/
inductive Operation (α V : Type*)
  | insert (new : Option α)
  | find (value : V)
  | findPrevious (value : V)
  | delete (value : V)
  | deleteHint (hint : Option α)

/-- A node is new when it is inserted, and stored when it is deleted. -/
def Operation.Allowed (stored : List α) : Operation α V → Prop
  | insert (some a) => a ∉ stored
  | deleteHint (some a) => a ∈ stored
  | _ => True

/-- The nodes that are stored after an operation, from the node that it is about. -/
def Operation.after [DecidableEq α] (stored : List α) : Operation α V → Option α → List α
  | insert _, some a => a :: stored
  | delete _, some a => stored.erase a
  | deleteHint _, some a => stored.erase a
  | _, _ => stored

/-- A node with an equal value is found exactly if there is one. -/
def Found (comp : V → V → ℤ) (nodeValue : α → V) (stored : List α) (value : V)
    (out : Option α) : Prop :=
  (∃ a ∈ stored, out = some a ∧ comp value (nodeValue a) = 0) ∨
    out = none ∧ ∀ a ∈ stored, comp value (nodeValue a) ≠ 0

/-- The greatest value that is not above is found, if there is one. -/
def FoundPrevious (comp : V → V → ℤ) (nodeValue : α → V) (stored : List α) (value : V)
    (out : Option α) : Prop :=
  (∃ a ∈ stored, out = some a ∧ comp (nodeValue a) value ≤ 0 ∧
      ∀ b ∈ stored, comp (nodeValue b) value ≤ 0 → comp (nodeValue b) (nodeValue a) ≤ 0) ∨
    out = none ∧ ∀ b ∈ stored, 0 < comp (nodeValue b) value

/-- The node that an operation should be about. -/
def Operation.Answers (comp : V → V → ℤ) (nodeValue : α → V) (stored : List α) (out : Option α) :
    Operation α V → Prop
  | insert new => out = new
  | find value => Found comp nodeValue stored value out
  | findPrevious value => FoundPrevious comp nodeValue stored value out
  | delete value => Found comp nodeValue stored value out
  | deleteHint hint => out = hint

/-- An operation of the source, with the node that it returns or deletes. -/
def step [DecidableEq α] (comp : V → V → ℤ) (nodeValue : α → V) (fuel : ℕ) (tree : Picosplay α) :
    Operation α V → Option (Picosplay α × Option α)
  | .insert new => insert comp nodeValue fuel tree new
  | .find value => find comp nodeValue fuel tree value
  | .findPrevious value => (findPrevious comp nodeValue fuel tree value).map fun out => (tree, out)
  | .delete value => delete comp nodeValue fuel tree value
  | .deleteHint hint => (deleteHint fuel tree hint).map fun tree => (tree, hint)

/-- The trees that a sequence of operations leads to, with the values of the nodes and the nodes
that should be stored. The loops have a round for each node and one to end. -/
inductive Reached [DecidableEq α] (comp : V → V → ℤ) :
    Picosplay α → (α → V) → List α → Prop
  /-- `picosplay_init_tree`. -/
  | init (nodes : PointerTree α) (nodeValue : α → V) :
    Reached comp { nodes := nodes, root := none, size := 0 } nodeValue []
  | step {tree tree' : Picosplay α} {nodeValue : α → V} {stored : List α} {op : Operation α V}
      {out : Option α} {fuel : ℕ} (h : Reached comp tree nodeValue stored)
      (hallowed : op.Allowed stored) (hfuel : stored.length < fuel)
      (hstep : Picosplay.step comp nodeValue fuel tree op = some (tree', out)) :
    Reached comp tree' nodeValue (op.after stored out)
  /-- Nodes that are not stored have any pointers and values. -/
  | other {tree : Picosplay α} {nodeValue nodeValue' : α → V} {stored : List α}
      {nodes : PointerTree α} (h : Reached comp tree nodeValue stored)
      (hnodes : ∀ a ∈ stored, SameAt tree.nodes nodes a)
      (hvalue : ∀ a ∈ stored, nodeValue' a = nodeValue a) :
    Reached comp { tree with nodes := nodes } nodeValue' stored

/-! ### Well-formed trees -/

/-- What is on the left of a node is not above it, and what is on the right is not below it. -/
def IsSearchTree (comp : V → V → ℤ) (nodeValue : α → V) : SplayTree α → Prop
  | nil => True
  | node l a r =>
    (∀ b ∈ l.toList, comp (nodeValue b) (nodeValue a) ≤ 0) ∧
      (∀ b ∈ r.toList, comp (nodeValue a) (nodeValue b) ≤ 0) ∧
      IsSearchTree comp nodeValue l ∧ IsSearchTree comp nodeValue r

/-- The invariant: the tree is a search tree of the stored nodes. -/
structure Holds (comp : V → V → ℤ) (nodeValue : α → V) (tree : Picosplay α) (stored : List α)
    (t : SplayTree α) : Prop where
  is : tree.Is t
  perm : t.toList.Perm stored
  sorted : t.toList.Pairwise fun a b => comp (nodeValue a) (nodeValue b) ≤ 0

/-- What is said of a tree: it is a search tree; its traversal is the sorted sequence of the stored
nodes; the pointers to parents are inverse to the pointers to children; the size is right. -/
structure WellFormed (comp : V → V → ℤ) (nodeValue : α → V) (tree : Picosplay α)
    (stored : List α) [DecidableEq α] : Prop where
  searchTree : ∃ t, tree.Is t ∧ IsSearchTree comp nodeValue t
  traversal : ∃ nodes : List α, nodes.Perm stored ∧
    (nodes.Pairwise fun a b => comp (nodeValue a) (nodeValue b) ≤ 0) ∧
    ∀ fuel, stored.length < fuel → traverse fuel tree = some nodes
  parents : ∀ a ∈ stored, ∀ b, tree.nodes.left a = some b ∨ tree.nodes.right a = some b ↔
    b ∈ stored ∧ tree.nodes.parent b = some a
  root : ∀ a, tree.root = some a ↔ a ∈ stored ∧ tree.nodes.parent a = none
  size : tree.size = stored.length

section Order

variable {comp : V → V → ℤ} {nodeValue nodeValue' : α → V} {tree : Picosplay α}
  {stored : List α} {t : SplayTree α}

theorem Holds.length_eq (h : Holds comp nodeValue tree stored t) :
    t.toList.length = stored.length :=
  h.perm.length_eq

theorem Holds.pairwise_lt (hcomp : IsComparator comp) (h : Holds comp nodeValue tree stored t)
    (key : V) :
    t.toList.Pairwise fun a b => comp key (nodeValue a) < 0 → comp key (nodeValue b) < 0 :=
  h.sorted.imp fun hab hlt => hcomp.lt_of_lt_of_le hlt hab

/-- No equal value is hidden behind one that sends the search the other way. -/
theorem Holds.pairwise_ne (hcomp : IsComparator comp) (h : Holds comp nodeValue tree stored t)
    (key : V) :
    t.toList.Pairwise fun a b =>
      (comp key (nodeValue a) < 0 → comp key (nodeValue b) ≠ 0) ∧
        (0 < comp key (nodeValue b) → comp key (nodeValue a) ≠ 0) := by
  refine h.sorted.imp fun {a b} hab => ⟨fun hlt => ?_, fun hlt => ?_⟩
  · have := hcomp.lt_of_lt_of_le hlt hab
    omega
  · have hbk := (hcomp.neg_iff _ _).mpr hlt
    have := (hcomp.neg_iff _ _).mp (hcomp.lt_of_le_of_lt hab hbk)
    omega

/-- What is found below a value is the last node before those that are above it. -/
theorem Holds.findPrevious (hcomp : IsComparator comp) (h : Holds comp nodeValue tree stored t)
    (value : V) {fuel : ℕ} (hfuel : stored.length < fuel) :
    ∃ out, Picosplay.findPrevious comp nodeValue fuel tree value = some out ∧
      FoundPrevious comp nodeValue stored value out := by
  refine ⟨_, findPrevious_eq comp nodeValue value h.is (h.length_eq ▸ hfuel), ?_⟩
  obtain ⟨hnone, hall⟩ | ⟨l, a, r, hlist, hsome, hle, hlast⟩ :=
    @findPrevious_spec α V (fun k a => comp k (nodeValue a)) value t none
      (h.pairwise_lt hcomp value)
  · refine Or.inr ⟨hnone, fun b hb => ?_⟩
    exact (hcomp.neg_iff _ _).mp (hall b (h.perm.mem_iff.mpr hb))
  · have hmem : a ∈ stored := h.perm.mem_iff.mp (by simp [hlist])
    refine Or.inl ⟨a, hmem, hsome, hcomp.nonpos_iff.mpr hle, fun b hb hbv => ?_⟩
    rcases hlast with hzero | hlast
    · exact hcomp.trans _ value _ hbv (Int.le_of_eq hzero)
    · -- the node is before the one that was found, as it is not above the value
      have hb' : b ∈ l ++ a :: r := hlist ▸ h.perm.mem_iff.mpr hb
      have hsorted := h.sorted
      rw [hlist, List.pairwise_append] at hsorted
      rcases List.mem_append.mp hb' with hb' | hb'
      · exact hsorted.2.2 b hb' a List.mem_cons_self
      · rcases List.mem_cons.mp hb' with rfl | hb'
        · exact hcomp.nonpos_iff.mpr (hcomp.refl_nonneg _)
        · have := hcomp.nonpos_iff.mp hbv
          have := hlast b hb'
          omega

/-- The invariant is about the stored nodes only. -/
theorem Holds.congr (h : Holds comp nodeValue tree stored t) {nodes : PointerTree α}
    (hnodes : ∀ a ∈ stored, SameAt tree.nodes nodes a)
    (hvalue : ∀ a ∈ stored, nodeValue' a = nodeValue a) :
    Holds comp nodeValue' { tree with nodes := nodes } stored t := by
  have hmem : ∀ a ∈ t.toList, a ∈ stored := fun a ha => h.perm.mem_iff.mp ha
  obtain ⟨⟨htree, -, hnodup⟩, hroot, hsize⟩ := h.is
  refine ⟨⟨⟨htree.congr fun a ha => hnodes a (hmem a ha), trivial, hnodup⟩, hroot, hsize⟩, h.perm,
    List.Pairwise.imp_of_mem ?_ h.sorted⟩
  intro a b ha hb hab
  rw [hvalue a (hmem a ha), hvalue b (hmem b hb)]
  exact hab

theorem isSearchTree_of_pairwise {t : SplayTree α}
    (h : t.toList.Pairwise fun a b => comp (nodeValue a) (nodeValue b) ≤ 0) :
    IsSearchTree comp nodeValue t := by
  induction t with
  | nil => trivial
  | node l a r ihl ihr =>
    rw [toList_node, List.pairwise_append, List.pairwise_cons] at h
    obtain ⟨hl, ⟨ha, hr⟩, hcross⟩ := h
    exact ⟨fun b hb => hcross b hb a List.mem_cons_self, ha, ihl hl, ihr hr⟩

end Order

section Step

variable [DecidableEq α] {comp : V → V → ℤ} {nodeValue : α → V} {tree : Picosplay α}
  {stored : List α} {t : SplayTree α} {fuel : ℕ}

/-- A new node is inserted into the order. -/
theorem Holds.insert (hcomp : IsComparator comp) (h : Holds comp nodeValue tree stored t) {new : α}
    (hnew : new ∉ stored) (hfuel : stored.length < fuel) :
    ∃ tree' t', Picosplay.insert comp nodeValue fuel tree (some new) = some (tree', some new) ∧
      Holds comp nodeValue tree' (new :: stored) t' := by
  have hnew' : new ∉ t.toList := fun hmem => hnew (h.perm.mem_iff.mp hmem)
  obtain ⟨tree', hinsert, his⟩ := exists_insert comp nodeValue h.is hnew' (h.length_eq ▸ hfuel)
  obtain ⟨l, r, hlist, hlist', hl, hr⟩ :=
    @toList_insert α (fun a b => comp (nodeValue a) (nodeValue b)) new t
      (h.pairwise_lt hcomp (nodeValue new))
  refine ⟨tree', _, hinsert, his, (toList_insert_perm _ _ _).trans (h.perm.cons new), ?_⟩
  have hsorted := h.sorted
  rw [hlist, List.pairwise_append] at hsorted
  rw [hlist', List.pairwise_append, List.pairwise_cons]
  obtain ⟨hsl, hsr, hslr⟩ := hsorted
  refine ⟨hsl, ⟨fun b hb => Int.le_of_lt (hr b hb), hsr⟩, fun a ha b hb => ?_⟩
  rcases List.mem_cons.mp hb with rfl | hb
  · exact hcomp.nonpos_iff.mpr (Int.not_lt.mp (hl a ha))
  · exact hslr a ha b hb

/-- A search finds an equal value, and keeps the order. -/
theorem Holds.find (hcomp : IsComparator comp) (h : Holds comp nodeValue tree stored t) (value : V)
    (hfuel : stored.length < fuel) :
    ∃ tree' out t', Picosplay.find comp nodeValue fuel tree value = some (tree', out) ∧
      Found comp nodeValue stored value out ∧ Holds comp nodeValue tree' stored t' := by
  obtain ⟨tree', hfind, his⟩ := exists_find comp nodeValue value h.is (h.length_eq ▸ hfuel)
  have hlist : (SplayTree.find (fun k a => comp k (nodeValue a)) value t).2.toList = t.toList :=
    toList_find t
  refine ⟨tree', _, _, hfind, ?_, his, hlist ▸ h.perm, hlist ▸ h.sorted⟩
  cases hout : (SplayTree.find (fun k a => comp k (nodeValue a)) value t).1 with
  | none =>
    refine Or.inr ⟨rfl, fun a ha => ?_⟩
    exact find_eq_none (h.pairwise_ne hcomp value) hout a (h.perm.mem_iff.mpr ha)
  | some a =>
    obtain ⟨hzero, hmem⟩ := find_eq_some hout
    exact Or.inl ⟨a, h.perm.mem_iff.mp hmem, rfl, hzero⟩

/-- A stored node is taken out of the order. -/
theorem Holds.deleteHint (h : Holds comp nodeValue tree stored t) {a : α} (ha : a ∈ stored)
    (hfuel : stored.length < fuel) :
    ∃ tree' t', Picosplay.deleteHint fuel tree (some a) = some tree' ∧
      Holds comp nodeValue tree' (stored.erase a) t' := by
  have ha' := h.perm.mem_iff.mpr ha
  obtain ⟨tree', hdelete, his⟩ := exists_deleteHint h.is ha' (h.length_eq ▸ hfuel)
  obtain ⟨l, r, hlist, hlist'⟩ := toList_deleteHint ha'
  have hperm : (l ++ a :: r).Perm (a :: (l ++ r)) := List.perm_middle
  refine ⟨tree', _, hdelete, his, ?_, ?_⟩
  · have herase := (hperm.erase a).symm.trans ((hlist ▸ h.perm).erase a)
    rw [List.erase_cons_head] at herase
    exact hlist' ▸ herase
  · rw [hlist']
    refine h.sorted.sublist ?_
    rw [hlist]
    exact (List.Sublist.refl l).append (List.sublist_cons_self a r)

end Step

/-! ### Runs -/

section Law

variable [DecidableEq α] {comp : V → V → ℤ} {nodeValue : α → V} {tree : Picosplay α}
  {stored : List α} {t : SplayTree α} {fuel : ℕ}

/-- Each operation goes through, answers, and keeps the invariant. -/
theorem Holds.step (hcomp : IsComparator comp) (h : Holds comp nodeValue tree stored t)
    (op : Operation α V) (hallowed : op.Allowed stored) (hfuel : stored.length < fuel) :
    ∃ tree' out t', Picosplay.step comp nodeValue fuel tree op = some (tree', out) ∧
      op.Answers comp nodeValue stored out ∧
        Holds comp nodeValue tree' (op.after stored out) t' := by
  cases op with
  | insert new =>
    cases new with
    | none => exact ⟨tree, none, t, rfl, rfl, h⟩
    | some new =>
      obtain ⟨tree', t', hinsert, h'⟩ := h.insert hcomp hallowed hfuel
      exact ⟨tree', some new, t', hinsert, rfl, h'⟩
  | find value =>
    obtain ⟨tree', out, t', hfind, hfound, h'⟩ := h.find hcomp value hfuel
    exact ⟨tree', out, t', hfind, hfound, h'⟩
  | findPrevious value =>
    obtain ⟨out, hfind, hfound⟩ := h.findPrevious hcomp value hfuel
    refine ⟨tree, out, t, ?_, hfound, h⟩
    simp only [Picosplay.step, hfind, Option.map_some]
  | delete value =>
    obtain ⟨tree1, out, t1, hfind, hfound, h1⟩ := h.find hcomp value hfuel
    rcases hfound with ⟨a, ha, rfl, hzero⟩ | ⟨rfl, hne⟩
    · obtain ⟨tree', t', hdelete, h'⟩ := h1.deleteHint ha hfuel
      refine ⟨tree', some a, t', ?_, Or.inl ⟨a, ha, rfl, hzero⟩, h'⟩
      simp only [Picosplay.step, delete, hfind, Option.bind_some, hdelete, Option.map_some]
    · refine ⟨tree1, none, t1, ?_, Or.inr ⟨rfl, hne⟩, h1⟩
      simp only [Picosplay.step, delete, hfind, Option.bind_some, Picosplay.deleteHint,
        Option.map_some]
  | deleteHint hint =>
    cases hint with
    | none => exact ⟨tree, none, t, rfl, rfl, h⟩
    | some a =>
      obtain ⟨tree', t', hdelete, h'⟩ := h.deleteHint hallowed hfuel
      refine ⟨tree', some a, t', ?_, rfl, h'⟩
      simp only [Picosplay.step, hdelete, Option.map_some]

/-- The invariant holds of every tree that is reached. -/
theorem Reached.holds (hcomp : IsComparator comp) (h : Reached comp tree nodeValue stored) :
    ∃ t, Holds comp nodeValue tree stored t := by
  induction h with
  | init nodes nodeValue =>
    exact ⟨nil, ⟨⟨trivial, trivial, List.nodup_nil⟩, rfl, rfl⟩, List.Perm.refl _, List.Pairwise.nil⟩
  | step h hallowed hfuel hstep ih =>
    obtain ⟨t, ht⟩ := ih
    obtain ⟨tree', out, t', hstep', -, ht'⟩ := ht.step hcomp _ hallowed hfuel
    obtain ⟨rfl, rfl⟩ := Prod.mk.inj (Option.some.inj (hstep.symm.trans hstep'))
    exact ⟨t', ht'⟩
  | other h hnodes hvalue ih =>
    obtain ⟨t, ht⟩ := ih
    exact ⟨t, ht.congr hnodes hvalue⟩

/-- What the invariant says of the pointers. -/
theorem Holds.wellFormed (h : Holds comp nodeValue tree stored t) :
    WellFormed comp nodeValue tree stored := by
  have hrep := h.is.nodes.tree
  refine ⟨⟨t, h.is, isSearchTree_of_pairwise h.sorted⟩, ⟨t.toList, h.perm, h.sorted, ?_⟩, ?_, ?_,
    ?_⟩
  · intro fuel hfuel
    exact traverse_eq h.is.nodes h.is.root (h.length_eq ▸ hfuel)
  · intro a ha b
    constructor
    · intro hb
      obtain ⟨hmem, hparent⟩ := hrep.parent_of_child (h.perm.mem_iff.mpr ha) hb
      exact ⟨h.perm.mem_iff.mp hmem, hparent⟩
    · rintro ⟨hb, hparent⟩
      obtain ⟨-, hnone⟩ | ⟨a', -, hparent', hchild⟩ :=
        hrep.child_of_parent (h.perm.mem_iff.mpr hb)
      · cases hparent.symm.trans hnone
      · obtain rfl := Option.some.inj (hparent.symm.trans hparent')
        exact hchild
  · intro a
    rw [h.is.root]
    constructor
    · intro hroot
      obtain ⟨l, r, rfl⟩ := exists_eq_node hroot
      exact ⟨h.perm.mem_iff.mp (mem_of_root hroot), hrep.1⟩
    · rintro ⟨ha, hparent⟩
      obtain ⟨hroot, -⟩ | ⟨b, -, hparent', -⟩ := hrep.child_of_parent (h.perm.mem_iff.mpr ha)
      · exact hroot
      · cases hparent.symm.trans hparent'
  · rw [h.is.size, h.length_eq]

/-- **Splay trees.** After every sequence of operations, the tree is well formed: it is a search
tree of the stored nodes, its traversal is sorted, and its pointers and its size are right. And
each operation that follows goes through, and answers from the stored nodes. -/
theorem splay_tree_law (hcomp : IsComparator comp) (h : Reached comp tree nodeValue stored) :
    WellFormed comp nodeValue tree stored ∧
      ∀ (op : Operation α V) (fuel : ℕ), op.Allowed stored → stored.length < fuel →
        ∃ tree' out, step comp nodeValue fuel tree op = some (tree', out) ∧
          op.Answers comp nodeValue stored out ∧
          Reached comp tree' nodeValue (op.after stored out) := by
  obtain ⟨t, ht⟩ := h.holds hcomp
  refine ⟨ht.wellFormed, fun op fuel hallowed hfuel => ?_⟩
  obtain ⟨tree', out, -, hstep, hanswers, -⟩ := ht.step hcomp op hallowed hfuel
  exact ⟨tree', out, hstep, hanswers, h.step hallowed hfuel hstep⟩

/-- The tree after the insertion of 2, 1 and 3 and the deletion of 1. -/
theorem splay_tree_sample :
    ∃ tree : Picosplay ℕ, WellFormed (fun a b : ℤ => a - b) (fun a : ℕ => (a : ℤ)) tree [3, 2] := by
  have hcomp : IsComparator fun a b : ℤ => a - b :=
    ⟨fun a b => by omega, fun a b c hab hbc => by omega⟩
  have h0 : Reached (fun a b : ℤ => a - b)
      ⟨⟨fun _ => none, fun _ => none, fun _ => none⟩, none, 0⟩ (fun a : ℕ => (a : ℤ)) [] :=
    Reached.init _ _
  obtain ⟨tree1, out, -, (rfl : out = some 2), h1⟩ :=
    (splay_tree_law hcomp h0).2 (.insert (some 2)) 4 (by simp [Operation.Allowed]) (by decide)
  obtain ⟨tree2, out, -, (rfl : out = some 1), h2⟩ :=
    (splay_tree_law hcomp h1).2 (.insert (some 1)) 4 (by simp [Operation.Allowed, Operation.after])
      (by decide)
  obtain ⟨tree3, out, -, (rfl : out = some 3), h3⟩ :=
    (splay_tree_law hcomp h2).2 (.insert (some 3)) 4 (by simp [Operation.Allowed, Operation.after])
      (by decide)
  obtain ⟨tree4, out, -, (rfl : out = some 1), h4⟩ :=
    (splay_tree_law hcomp h3).2 (.deleteHint (some 1)) 4
      (by simp [Operation.Allowed, Operation.after]) (by decide)
  exact ⟨tree4, (splay_tree_law hcomp h4).1⟩

end Law

end Picosplay

end Picoquic
