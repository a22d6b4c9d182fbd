import Mathlib.Data.List.Nodup
import Picoquic.ForMathlib.SplayTree

/-!
# Trees of pointers

A binary tree that is kept by three pointers in each node: to its parent and to its children.

* **`Rep`** — the pointers below a node are those of a given tree;
* **`RepPath`** — the pointers on the way from a hole to the root are those of a given path;
* **`At`** — both together: the tree with a subtree in focus;
* **`At.down_left`**, **`At.down_right`** — the focus moves to a child, and back;
* **`At.search`**, **`At.insertPath`**, **`At.locate`** — it moves to a node;
* **`Rep.parent_of_child`**, **`Rep.child_of_parent`** — parents and children belong together;
* **`Rep.congr`**, **`RepPath.congr`** — they depend on the pointers of their nodes only;
* **`Rep.setParentOf`**, **`RepPath.setChild`** — a subtree is attached to another parent, and a
  hole gets another child.
-/

/-- The pointers of a tree. -/
structure PointerTree (α : Type*) where
  parent : α → Option α
  left : α → Option α
  right : α → Option α

namespace SplayTree

variable {α : Type*}

/-- The node at the root. -/
def root : SplayTree α → Option α
  | nil => none
  | node _ a _ => some a

/-- The node at which a path begins. -/
def parentOf : List (Edge α) → Option α
  | [] => none
  | .leftOf g _ :: _ => some g
  | .rightOf _ g :: _ => some g

theorem mem_of_root {t : SplayTree α} {a : α} (h : t.root = some a) : a ∈ t.toList := by
  cases t with
  | nil => cases h
  | node l b r =>
    obtain rfl := Option.some.inj h
    simp

theorem exists_eq_node {t : SplayTree α} {a : α} (h : t.root = some a) : ∃ l r, t = node l a r := by
  cases t with
  | nil => cases h
  | node l b r =>
    obtain rfl := Option.some.inj h
    exact ⟨l, r, rfl⟩

end SplayTree

namespace PointerTree

open SplayTree

variable {α β : Type*} {T T' : PointerTree α} {t l r c d b : SplayTree α}
  {path path' : List (Edge α)} {a x p g : α} {o o' : Option α}

/-! ### What the pointers represent -/

/-- The pointers of the nodes of `t` are those of this tree, and its root has the parent `o`. -/
def Rep (T : PointerTree α) (o : Option α) : SplayTree α → Prop
  | nil => True
  | node l a r =>
    T.parent a = o ∧ T.left a = l.root ∧ T.right a = r.root ∧ T.Rep (some a) l ∧ T.Rep (some a) r

/-- The pointers on the way to the root are those of this path, which begins at a hole with the
child `o`. -/
def RepPath (T : PointerTree α) (o : Option α) : List (Edge α) → Prop
  | [] => True
  | .leftOf g d :: path =>
    T.parent g = parentOf path ∧ T.left g = o ∧ T.right g = d.root ∧ T.Rep (some g) d ∧
      T.RepPath (some g) path
  | .rightOf b g :: path =>
    T.parent g = parentOf path ∧ T.left g = b.root ∧ T.right g = o ∧ T.Rep (some g) b ∧
      T.RepPath (some g) path

/-- The tree, with the subtree `t` in focus. No node occurs twice. -/
structure At (T : PointerTree α) (t : SplayTree α) (path : List (Edge α)) : Prop where
  tree : T.Rep (parentOf path) t
  way : T.RepPath t.root path
  nodup : (before path ++ (t.toList ++ after path)).Nodup

/-- A node has the same pointers. -/
def SameAt (T T' : PointerTree α) (a : α) : Prop :=
  T'.parent a = T.parent a ∧ T'.left a = T.left a ∧ T'.right a = T.right a

theorem SameAt.trans {T'' : PointerTree α} (h : SameAt T T' a) (h' : SameAt T' T'' a) :
    SameAt T T'' a :=
  ⟨h'.1.trans h.1, h'.2.1.trans h.2.1, h'.2.2.trans h.2.2⟩

theorem Rep.congr (h : T.Rep o t) (hsame : ∀ a ∈ t.toList, SameAt T T' a) : T'.Rep o t := by
  induction t generalizing o with
  | nil => trivial
  | node l a r ihl ihr =>
    obtain ⟨hp, hl, hr, hrl, hrr⟩ := h
    obtain ⟨sp, sl, sr⟩ := hsame a (by simp)
    refine ⟨sp.trans hp, sl.trans hl, sr.trans hr, ihl hrl ?_, ihr hrr ?_⟩
    · exact fun b hb => hsame b (by simp [hb])
    · exact fun b hb => hsame b (by simp [hb])

/-- A child points back to its parent. -/
theorem Rep.parent_of_child (h : T.Rep o t) (ha : a ∈ t.toList)
    (hx : T.left a = some x ∨ T.right a = some x) : x ∈ t.toList ∧ T.parent x = some a := by
  induction t generalizing o with
  | nil => cases ha
  | node l b r ihl ihr =>
    obtain ⟨-, hbl, hbr, hl, hr⟩ := h
    rcases List.mem_append.mp ha with ha | ha
    · obtain ⟨hmem, hparent⟩ := ihl hl ha
      exact ⟨by simp [hmem], hparent⟩
    · rcases List.mem_cons.mp ha with rfl | ha
      · rcases hx with hx | hx
        · obtain ⟨l1, l2, rfl⟩ := exists_eq_node (hbl.symm.trans hx)
          exact ⟨by simp, hl.1⟩
        · obtain ⟨r1, r2, rfl⟩ := exists_eq_node (hbr.symm.trans hx)
          exact ⟨by simp, hr.1⟩
      · obtain ⟨hmem, hparent⟩ := ihr hr ha
        exact ⟨by simp [hmem], hparent⟩

/-- A node is the root, or a child of its parent. -/
theorem Rep.child_of_parent (h : T.Rep o t) (hx : x ∈ t.toList) :
    (t.root = some x ∧ T.parent x = o) ∨
      ∃ a ∈ t.toList, T.parent x = some a ∧ (T.left a = some x ∨ T.right a = some x) := by
  induction t generalizing o with
  | nil => cases hx
  | node l b r ihl ihr =>
    obtain ⟨hb, hbl, hbr, hl, hr⟩ := h
    rcases List.mem_append.mp hx with hx | hx
    · obtain ⟨hroot, hparent⟩ | ⟨a, ha, hparent⟩ := ihl hl hx
      · exact Or.inr ⟨b, by simp, hparent, Or.inl (hbl.trans hroot)⟩
      · exact Or.inr ⟨a, by simp [ha], hparent⟩
    · rcases List.mem_cons.mp hx with rfl | hx
      · exact Or.inl ⟨rfl, hb⟩
      · obtain ⟨hroot, hparent⟩ | ⟨a, ha, hparent⟩ := ihr hr hx
        · exact Or.inr ⟨b, by simp, hparent, Or.inr (hbr.trans hroot)⟩
        · exact Or.inr ⟨a, by simp [ha], hparent⟩

theorem RepPath.congr (h : T.RepPath o path)
    (hsame : ∀ a ∈ before path ++ after path, SameAt T T' a) : T'.RepPath o path := by
  induction path generalizing o with
  | nil => trivial
  | cons e path ih =>
    cases e with
    | leftOf g d =>
      obtain ⟨hp, hl, hr, hd, hpath⟩ := h
      obtain ⟨sp, sl, sr⟩ := hsame g (by simp [after])
      refine ⟨sp.trans hp, sl.trans hl, sr.trans hr, hd.congr ?_, ih hpath ?_⟩
      · exact fun b hb => hsame b (by simp [after, hb])
      · intro b hb
        rcases List.mem_append.mp hb with hb | hb
        · exact hsame b (by simp [before, hb])
        · exact hsame b (by simp [after, hb])
    | rightOf b g =>
      obtain ⟨hp, hl, hr, hd, hpath⟩ := h
      obtain ⟨sp, sl, sr⟩ := hsame g (by simp [before])
      refine ⟨sp.trans hp, sl.trans hl, sr.trans hr, hd.congr ?_, ih hpath ?_⟩
      · exact fun b hb => hsame b (by simp [before, hb])
      · intro b hb
        rcases List.mem_append.mp hb with hb | hb
        · exact hsame b (by simp [before, hb])
        · exact hsame b (by simp [after, hb])

/-- The focus on the left child. -/
theorem At.down_left : T.At (node l x r) path ↔ T.At l (.leftOf x r :: path) := by
  have hlist : before path ++ ((node l x r).toList ++ after path) =
      before (.leftOf x r :: path) ++ (l.toList ++ after (.leftOf x r :: path)) := by
    simp [before, after]
  constructor
  · rintro ⟨⟨hp, hl, hr, hrl, hrr⟩, hpath, hnodup⟩
    exact ⟨hrl, ⟨hp, hl, hr, hrr, hpath⟩, hlist ▸ hnodup⟩
  · rintro ⟨hrl, ⟨hp, hl, hr, hrr, hpath⟩, hnodup⟩
    exact ⟨⟨hp, hl, hr, hrl, hrr⟩, hpath, hlist ▸ hnodup⟩

/-- The focus on the right child. -/
theorem At.down_right : T.At (node l x r) path ↔ T.At r (.rightOf l x :: path) := by
  have hlist : before path ++ ((node l x r).toList ++ after path) =
      before (.rightOf l x :: path) ++ (r.toList ++ after (.rightOf l x :: path)) := by
    simp [before, after]
  constructor
  · rintro ⟨⟨hp, hl, hr, hrl, hrr⟩, hpath, hnodup⟩
    exact ⟨hrr, ⟨hp, hl, hr, hrl, hpath⟩, hlist ▸ hnodup⟩
  · rintro ⟨hrr, ⟨hp, hl, hr, hrl, hpath⟩, hnodup⟩
    exact ⟨⟨hp, hl, hr, hrl, hrr⟩, hpath, hlist ▸ hnodup⟩

/-! ### The focus -/

/-- A path has at most as many edges as there are nodes outside the focus. -/
theorem length_path_le (path : List (Edge α)) :
    path.length ≤ (before path).length + (after path).length := by
  induction path with
  | nil => exact Nat.zero_le _
  | cons e path ih =>
    cases e with
    | leftOf g d =>
      simp only [before, after, List.length_cons, List.length_append]
      omega
    | rightOf b g =>
      simp only [before, after, List.length_cons, List.length_append, List.length_nil]
      omega

/-- The focus goes where a search leads. -/
theorem At.search {comp : β → α → ℤ} {key : β} {value : α} (h : T.At t path)
    (hs : search comp key t path = some (l, value, r, path')) :
    T.At (node l value r) path' := by
  induction t generalizing path with
  | nil => cases hs
  | node left a right ihl ihr =>
    rw [SplayTree.search] at hs
    split_ifs at hs
    · simp only [Option.some.injEq, Prod.mk.injEq] at hs
      obtain ⟨rfl, rfl, rfl, rfl⟩ := hs
      exact h
    · exact ihl (At.down_left.mp h) hs
    · exact ihr (At.down_right.mp h) hs

/-- The focus goes where a new leaf belongs. -/
theorem At.insertPath (h : T.At t path) (comp : α → α → ℤ) (x : α) :
    T.At nil (insertPath comp x t path) := by
  induction t generalizing path with
  | nil => exact h
  | node left a right ihl ihr =>
    rw [SplayTree.insertPath]
    split_ifs
    · exact ihl (At.down_left.mp h)
    · exact ihr (At.down_right.mp h)

/-- The focus goes to a node. -/
theorem At.locate [DecidableEq α] (h : T.At t path) (hs : locate x t path = some (l, r, path')) :
    T.At (node l x r) path' := by
  induction t generalizing path with
  | nil => cases hs
  | node left a right ihl ihr =>
    rw [SplayTree.locate] at hs
    split_ifs at hs with hx
    · simp only [Option.some.injEq, Prod.mk.injEq] at hs
      obtain ⟨rfl, rfl, rfl⟩ := hs
      exact hx ▸ h
    · cases hl : SplayTree.locate x left (.leftOf a right :: path) with
      | some found =>
        rw [hl] at hs
        exact ihl (At.down_left.mp h) (hl.trans hs)
      | none =>
        rw [hl] at hs
        exact ihr (At.down_right.mp h) hs

/-- There is a focus on each node, and the nodes before and after it are those of the tree. -/
theorem exists_focus (h : T.At t []) {u v : List α} (hx : t.toList = u ++ x :: v) :
    ∃ l r path, T.At (node l x r) path ∧ before path ++ l.toList = u ∧
      r.toList ++ after path = v := by
  classical
  have hmem : x ∈ t.toList := by simp [hx]
  cases hs : SplayTree.locate x t [] with
  | none => exact absurd hmem (locate_eq_none hs)
  | some found =>
    obtain ⟨l, r, path⟩ := found
    have hat := h.locate hs
    have hlist := locate_eq_some hs
    simp only [before, after, List.nil_append, List.append_nil] at hlist
    have hcut : u ++ x :: v = (before path ++ l.toList) ++ x :: (r.toList ++ after path) := by
      rw [← hx, ← hlist]
      simp
    -- the node occurs once, so there is one way to cut the list at it
    have hnodup : (u ++ x :: v).Nodup := by
      rw [hcut]
      simpa using hat.nodup
    have hu : x ∉ u ∧ x ∉ v := by
      rw [List.nodup_middle, List.nodup_cons, List.mem_append, not_or] at hnodup
      exact hnodup.1
    obtain ⟨hleft, -, hright⟩ := (List.append_cons_inj_of_notMem hu.1 hu.2).mp hcut
    exact ⟨l, r, path, hat, hleft.symm, hright.symm⟩

/-! ### Writing pointers -/

section Write

variable [DecidableEq α]

/-- The pointer of `a` to its parent is written. -/
def setParent (T : PointerTree α) (a : α) (o : Option α) : PointerTree α :=
  { T with parent := Function.update T.parent a o }

/-- The pointer of `a` to its left child is written. -/
def setLeft (T : PointerTree α) (a : α) (o : Option α) : PointerTree α :=
  { T with left := Function.update T.left a o }

/-- The pointer of `a` to its right child is written. -/
def setRight (T : PointerTree α) (a : α) (o : Option α) : PointerTree α :=
  { T with right := Function.update T.right a o }

/-- The pointer to the parent is written, if there is a node. -/
def setParentOf (T : PointerTree α) (o o' : Option α) : PointerTree α :=
  match o with
  | none => T
  | some a => T.setParent a o'

/-- The pointer at a hole is written. -/
def setChild (T : PointerTree α) (path : List (Edge α)) (o : Option α) : PointerTree α :=
  match path with
  | [] => T
  | .leftOf g _ :: _ => T.setLeft g o
  | .rightOf _ g :: _ => T.setRight g o

@[simp] theorem setParent_left : (T.setParent a o).left = T.left := rfl

@[simp] theorem setParent_right : (T.setParent a o).right = T.right := rfl

@[simp] theorem setLeft_parent : (T.setLeft a o).parent = T.parent := rfl

@[simp] theorem setLeft_right : (T.setLeft a o).right = T.right := rfl

@[simp] theorem setRight_parent : (T.setRight a o).parent = T.parent := rfl

@[simp] theorem setRight_left : (T.setRight a o).left = T.left := rfl

@[simp] theorem setParentOf_left : (T.setParentOf o o').left = T.left := by
  cases o <;> rfl

@[simp] theorem setParentOf_right : (T.setParentOf o o').right = T.right := by
  cases o <;> rfl

@[simp] theorem setChild_parent : (T.setChild path o).parent = T.parent := by
  rcases path with _ | ⟨⟨g, d⟩ | ⟨b, g⟩, path⟩ <;> rfl

theorem setParent_parent_self : (T.setParent a o).parent a = o := Function.update_self _ _ _

theorem setLeft_left_self : (T.setLeft a o).left a = o := Function.update_self _ _ _

theorem setRight_right_self : (T.setRight a o).right a = o := Function.update_self _ _ _

theorem sameAt_setParent (h : a ≠ x) : SameAt T (T.setParent x o) a :=
  ⟨Function.update_of_ne h _ _, rfl, rfl⟩

theorem sameAt_setLeft (h : a ≠ x) : SameAt T (T.setLeft x o) a :=
  ⟨rfl, Function.update_of_ne h _ _, rfl⟩

theorem sameAt_setRight (h : a ≠ x) : SameAt T (T.setRight x o) a :=
  ⟨rfl, rfl, Function.update_of_ne h _ _⟩

theorem sameAt_setParentOf (h : a ∉ t.toList) : SameAt T (T.setParentOf t.root o) a := by
  cases t with
  | nil => exact ⟨rfl, rfl, rfl⟩
  | node l x r => exact sameAt_setParent fun hx => h (by simp [hx])

theorem sameAt_setChild (h : a ∉ before path ++ after path) : SameAt T (T.setChild path o) a := by
  rcases path with _ | ⟨⟨g, d⟩ | ⟨b, g⟩, path⟩
  · exact ⟨rfl, rfl, rfl⟩
  · exact sameAt_setLeft fun hg => h (by simp [after, hg])
  · exact sameAt_setRight fun hg => h (by simp [before, hg])

/-- A subtree is attached to another parent. -/
theorem Rep.setParentOf (h : T.Rep o t) (hnodup : t.toList.Nodup) :
    (T.setParentOf t.root o').Rep o' t := by
  cases t with
  | nil => trivial
  | node l x r =>
    obtain ⟨hp, hl, hr, hrl, hrr⟩ := h
    rw [toList_node, List.nodup_middle, List.nodup_cons, List.mem_append, not_or] at hnodup
    obtain ⟨⟨hxl, hxr⟩, -⟩ := hnodup
    refine ⟨Function.update_self _ _ _, hl, hr, hrl.congr fun a ha => ?_, hrr.congr fun a ha => ?_⟩
    · exact sameAt_setParent fun hax => hxl (hax ▸ ha)
    · exact sameAt_setParent fun hax => hxr (hax ▸ ha)

/-- A hole gets another child. -/
theorem RepPath.setChild (h : T.RepPath o path) (hnodup : (before path ++ after path).Nodup) :
    (T.setChild path o').RepPath o' path := by
  rcases path with _ | ⟨⟨g, d⟩ | ⟨b, g⟩, path⟩
  · trivial
  · obtain ⟨hp, hl, hr, hd, hpath⟩ := h
    rw [before, after, List.cons_append, List.nodup_middle, List.nodup_cons] at hnodup
    obtain ⟨hg, -⟩ := hnodup
    simp only [List.mem_append, not_or] at hg
    obtain ⟨hgb, hgd, hga⟩ := hg
    refine ⟨hp, Function.update_self _ _ _, hr, hd.congr fun a ha => ?_,
      hpath.congr fun a ha => ?_⟩
    · exact sameAt_setLeft fun hag => hgd (hag ▸ ha)
    · refine sameAt_setLeft fun hag => ?_
      rcases List.mem_append.mp ha with ha | ha
      · exact hgb (hag ▸ ha)
      · exact hga (hag ▸ ha)
  · obtain ⟨hp, hl, hr, hd, hpath⟩ := h
    have hlist : before (.rightOf b g :: path) ++ after (.rightOf b g :: path) =
        (before path ++ b.toList) ++ g :: after path := by simp [before, after]
    rw [hlist, List.nodup_middle, List.nodup_cons] at hnodup
    obtain ⟨hg, -⟩ := hnodup
    simp only [List.mem_append, not_or] at hg
    obtain ⟨⟨hgb, hgd⟩, hga⟩ := hg
    refine ⟨hp, hl, Function.update_self _ _ _, hd.congr fun a ha => ?_,
      hpath.congr fun a ha => ?_⟩
    · exact sameAt_setRight fun hag => hgd (hag ▸ ha)
    · refine sameAt_setRight fun hag => ?_
      rcases List.mem_append.mp ha with ha | ha
      · exact hgb (hag ▸ ha)
      · exact hga (hag ▸ ha)

end Write

end PointerTree
