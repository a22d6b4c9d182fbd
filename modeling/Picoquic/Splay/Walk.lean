import Picoquic.Splay.Picosplay

/-!
# Ways through the pointers

Where the loops of the source lead that go down from the root, or up from a node: to the same nodes
as in the tree that the pointers represent. A loop needs no more rounds than there are nodes, and
one to end.

* **`leftmost_eq`**, **`next_eq`**, **`traverse_eq`** — the nodes from left to right;
* **`findLoop_eq`**, **`findPreviousLoop_eq`** — searching;
* **`insertLoop_eq`** — where a new node belongs.
-/

namespace Picoquic

namespace Picosplay

open SplayTree PointerTree

variable {α V : Type*} {T : PointerTree α} {t l r : SplayTree α} {path : List (Edge α)} {x : α}
  {o parent : Option α} {fuel : ℕ}

/-! ### From left to right -/

theorem leftmostLoop_eq (h : T.Rep o t) (hfuel : t.toList.length < fuel) :
    leftmostLoop T fuel t.root parent = some (t.toList.head?.or parent) := by
  induction t generalizing o parent fuel with
  | nil =>
    obtain ⟨k, rfl⟩ : ∃ k, fuel = k + 1 := ⟨fuel - 1, by omega⟩
    rfl
  | node l a r ihl _ =>
    obtain ⟨k, rfl⟩ : ∃ k, fuel = k + 1 := ⟨fuel - 1, by omega⟩
    obtain ⟨-, hl, -, hrl, -⟩ := h
    rw [toList_node, List.length_append, List.length_cons] at hfuel
    have hstep : leftmostLoop T (k + 1) (node l a r).root parent =
        leftmostLoop T k (T.left a) (some a) := rfl
    rw [hstep, hl, ihl hrl (by omega), toList_node, List.head?_append, List.head?_cons]
    cases l.toList.head? <;> rfl

theorem leftmost_eq (h : T.Rep o t) (hfuel : t.toList.length < fuel) :
    leftmost T fuel t.root = some t.toList.head? := by
  rw [leftmost, leftmostLoop_eq h hfuel, Option.or_none]

section Next

variable [DecidableEq α]

/-- Up from a node, and from the right: the first node on the right of the way. -/
theorem nextLoop_eq (h : T.At t path) (hx : t.root = some x) (hfuel : path.length < fuel) :
    nextLoop T fuel x = some (after path).head? := by
  induction path generalizing t x fuel with
  | nil =>
    obtain ⟨k, rfl⟩ : ∃ k, fuel = k + 1 := ⟨fuel - 1, by omega⟩
    obtain ⟨l, r, rfl⟩ := exists_eq_node hx
    have hparent : T.parent x = none := h.tree.1
    rw [nextLoop, hparent]
    rfl
  | cons e path ih =>
    obtain ⟨k, rfl⟩ : ∃ k, fuel = k + 1 := ⟨fuel - 1, by omega⟩
    obtain ⟨l, r, rfl⟩ := exists_eq_node hx
    rcases e with ⟨g, d⟩ | ⟨b, g⟩
    · have hparent : T.parent x = some g := h.tree.1
      have hright : ¬ T.right g = some x := by
        intro hg
        have hxd : x ∈ d.toList := mem_of_root (h.way.2.2.1.symm.trans hg)
        have hnodup := h.nodup
        simp [before, after, List.nodup_append, hxd] at hnodup
      rw [nextLoop, hparent]
      exact if_neg hright
    · have hparent : T.parent x = some g := h.tree.1
      have hright : T.right g = some x := h.way.2.2.1
      have hloop := ih (At.down_right.mpr h) rfl (Nat.lt_of_succ_lt_succ hfuel)
      rw [nextLoop, hparent]
      exact (if_pos hright).trans hloop

/-- **The next node** is the first one on the right of a node. -/
theorem next_eq (h : T.At (node l x r) path) (hr : r.toList.length < fuel)
    (hpath : path.length < fuel) :
    next T fuel x = some (r.toList ++ after path).head? := by
  obtain ⟨-, -, hxr, -, hrep⟩ := h.tree
  cases r with
  | nil =>
    rw [next, hxr]
    exact nextLoop_eq h rfl hpath
  | node r1 y r2 =>
    have hmost := leftmost_eq hrep hr
    rw [next, hxr]
    refine hmost.trans ?_
    rw [List.head?_append, toList_node, List.head?_append, List.head?_cons]
    cases r1.toList.head? <;> rfl

theorem traverseFrom_eq {u v : List α} {n : ℕ} (h : T.At t []) (ht : t.toList = u ++ v)
    (hfuel : t.toList.length < fuel) (hn : v.length ≤ n) :
    traverseFrom T fuel n v.head? = some v := by
  induction v generalizing u n with
  | nil => cases n <;> rfl
  | cons x v ih =>
    obtain ⟨k, rfl⟩ : ∃ k, n = k + 1 := ⟨n - 1, by rw [List.length_cons] at hn; omega⟩
    obtain ⟨l, r, path, hat, hu, hv⟩ := exists_focus h ht
    have hpath := length_path_le path
    have hlen : t.toList.length = (before path).length + l.toList.length +
        (r.toList.length + (after path).length + 1) := by
      rw [ht, ← hu, ← hv]
      simp only [List.length_append, List.length_cons]
    have hnext : next T fuel x = some v.head? := by
      rw [next_eq hat (by omega) (by omega), hv]
    have hrest := ih (u := u ++ [x]) (n := k) (by rw [ht, List.append_cons])
      (Nat.le_of_succ_le_succ hn)
    simp only [List.head?_cons, traverseFrom, hnext, Option.bind_some, hrest, Option.map_some]

/-- **Traversal.** From the first node on, each next one: these are the nodes of the tree from left
to right. -/
theorem traverse_eq {tree : Picosplay α} (h : tree.nodes.At t []) (hroot : tree.root = t.root)
    (hfuel : t.toList.length < fuel) : traverse fuel tree = some t.toList := by
  rw [traverse, first, hroot, leftmost_eq h.tree hfuel, Option.bind_some]
  exact traverseFrom_eq (u := []) h rfl hfuel (Nat.le_of_lt hfuel)

end Next

/-! ### Searching -/

section Search

variable (comp : V → V → ℤ) (nodeValue : α → V) (key : V)

/-- The loop finds what a search in the tree finds. -/
theorem findLoop_eq (path : List (Edge α)) (h : T.Rep o t) (hfuel : t.toList.length < fuel) :
    findLoop comp nodeValue T key fuel t.root =
      some ((search (fun k a => comp k (nodeValue a)) key t path).map fun found => found.2.1) := by
  induction t generalizing o fuel path with
  | nil =>
    obtain ⟨k, rfl⟩ : ∃ k, fuel = k + 1 := ⟨fuel - 1, by omega⟩
    rfl
  | node l a r ihl ihr =>
    obtain ⟨k, rfl⟩ : ∃ k, fuel = k + 1 := ⟨fuel - 1, by omega⟩
    obtain ⟨-, hl, hr, hrl, hrr⟩ := h
    rw [toList_node, List.length_append, List.length_cons] at hfuel
    rw [SplayTree.root, findLoop, search]
    split_ifs
    · rfl
    · rw [hl]
      exact ihl _ hrl (by omega)
    · rw [hr]
      exact ihr _ hrr (by omega)

theorem findPreviousLoop_eq {previous : Option α} (h : T.Rep o t)
    (hfuel : t.toList.length < fuel) :
    findPreviousLoop comp nodeValue T key fuel t.root previous =
      some (SplayTree.findPrevious (fun k a => comp k (nodeValue a)) key t previous) := by
  induction t generalizing o previous fuel with
  | nil =>
    obtain ⟨k, rfl⟩ : ∃ k, fuel = k + 1 := ⟨fuel - 1, by omega⟩
    rfl
  | node l a r ihl ihr =>
    obtain ⟨k, rfl⟩ : ∃ k, fuel = k + 1 := ⟨fuel - 1, by omega⟩
    obtain ⟨-, hl, hr, hrl, hrr⟩ := h
    rw [toList_node, List.length_append, List.length_cons] at hfuel
    rw [SplayTree.root, findPreviousLoop, SplayTree.findPrevious]
    split_ifs
    · rfl
    · rw [hl]
      exact ihl hrl (by omega)
    · rw [hr]
      exact ihr hrr (by omega)

/-- Whether a path begins at a left child. -/
def isLeft : List (Edge α) → Bool
  | .leftOf _ _ :: _ => true
  | _ => false

/-- The loop goes to the parent of a new leaf, and knows its side. -/
theorem insertLoop_eq (h : T.Rep (parentOf path) t) (hfuel : t.toList.length < fuel) :
    insertLoop comp nodeValue T x fuel t.root (parentOf path) (isLeft path) =
      some (parentOf (insertPath (fun a b => comp (nodeValue a) (nodeValue b)) x t path),
        isLeft (insertPath (fun a b => comp (nodeValue a) (nodeValue b)) x t path)) := by
  induction t generalizing path fuel with
  | nil =>
    obtain ⟨k, rfl⟩ : ∃ k, fuel = k + 1 := ⟨fuel - 1, by omega⟩
    rfl
  | node l a r ihl ihr =>
    obtain ⟨k, rfl⟩ : ∃ k, fuel = k + 1 := ⟨fuel - 1, by omega⟩
    obtain ⟨-, hl, hr, hrl, hrr⟩ := h
    rw [toList_node, List.length_append, List.length_cons] at hfuel
    rw [SplayTree.root, insertLoop, insertPath]
    split_ifs
    · have hrep : T.Rep (parentOf (.leftOf a r :: path)) l := hrl
      rw [hl]
      exact ihl hrep (by omega)
    · have hrep : T.Rep (parentOf (.rightOf l a :: path)) r := hrr
      rw [hr]
      exact ihr hrep (by omega)

end Search

end Picosplay

end Picoquic
