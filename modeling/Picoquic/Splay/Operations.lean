import Picoquic.Splay.Rotate
import Picoquic.Splay.Walk

/-!
# The operations on the pointers

Each operation of the source does to the pointers what the operation of the same name does to the
tree that they represent, with enough rounds for its loops.

* **`Is`** — a splay tree in memory, and the tree it represents;
* **`exists_insert`**, **`exists_find`**, **`findPrevious_eq`**, **`exists_deleteHint`** — the
  operations.
-/

namespace Picoquic

namespace Picosplay

open SplayTree PointerTree

variable {α V : Type*}

/-- The tree in memory represents `t`. -/
structure Is (tree : Picosplay α) (t : SplayTree α) : Prop where
  nodes : tree.nodes.At t []
  root : tree.root = t.root
  size : tree.size = t.toList.length

theorem root_splay (l : SplayTree α) (x : α) (r : SplayTree α) (path : List (Edge α)) :
    (SplayTree.splay l x r path).root = some x := by
  obtain ⟨l', r', heq, -, -⟩ := splay_eq_node l x r path
  rw [heq]
  rfl

theorem before_append_after (cmp : α → α → ℤ) (x : α) (t : SplayTree α) :
    before (insertPath cmp x t []) ++ after (insertPath cmp x t []) = t.toList := by
  have hlist := before_append_after_insertPath cmp x t []
  simpa only [before, after, List.nil_append, List.append_nil] using hlist

theorem length_insertPath_le (cmp : α → α → ℤ) (x : α) (t : SplayTree α) :
    (insertPath cmp x t []).length ≤ t.toList.length := by
  have hpath := length_path_le (insertPath cmp x t [])
  rw [← before_append_after cmp x t, List.length_append]
  exact hpath

section Previous

variable (comp : V → V → ℤ) (nodeValue : α → V) {tree : Picosplay α} {t : SplayTree α} {fuel : ℕ}

theorem findPrevious_eq (key : V) (h : tree.Is t) (hfuel : t.toList.length < fuel) :
    findPrevious comp nodeValue fuel tree key =
      some (SplayTree.findPrevious (fun k a => comp k (nodeValue a)) key t none) := by
  rw [findPrevious, h.root]
  exact findPreviousLoop_eq comp nodeValue key h.nodes.tree hfuel

end Previous

variable [DecidableEq α] (comp : V → V → ℤ) (nodeValue : α → V) {tree : Picosplay α}
  {T : PointerTree α} {t l r : SplayTree α} {path : List (Edge α)} {x y : α} {fuel : ℕ}

/-! ### Insertion -/

/-- A new node at a hole. -/
theorem at_setChild (h : T.At nil path) (hx : x ∉ before path ++ after path)
    (hleft : T.left x = none) (hright : T.right x = none) :
    ((T.setParent x (parentOf path)).setChild path (some x)).At (node nil x nil) path := by
  have hnodup : (before path ++ after path).Nodup := by simpa using h.nodup
  have hway : (T.setParent x (parentOf path)).RepPath none path :=
    h.way.congr fun a ha => sameAt_setParent fun hax => hx (hax ▸ ha)
  have hsame := sameAt_setChild (T := T.setParent x (parentOf path)) (o := some x) hx
  refine ⟨⟨?_, ?_, ?_, trivial, trivial⟩, hway.setChild hnodup, ?_⟩
  · rw [setChild_parent, setParent_parent_self]
  · rw [hsame.2.1, setParent_left, hleft]
    rfl
  · rw [hsame.2.2, setParent_right, hright]
    rfl
  · rw [toList_node, toList_nil, List.nil_append, List.singleton_append, List.nodup_middle,
      List.nodup_cons]
    exact ⟨hx, hnodup⟩

/-- The new node becomes a leaf. -/
theorem exists_attach (h : tree.Is t) (hx : x ∉ t.toList) (hfuel : t.toList.length < fuel) :
    ∃ tree', attach comp nodeValue fuel tree x = some tree' ∧ tree'.size = tree.size ∧
      tree'.nodes.At (node nil x nil)
        (insertPath (fun a b => comp (nodeValue a) (nodeValue b)) x t []) := by
  let T := (tree.nodes.setLeft x none).setRight x none
  have hat : T.At t [] := by
    have hsame : ∀ a ∈ t.toList, SameAt tree.nodes T a := fun a ha => by
      have hax : a ≠ x := fun hax => hx (hax ▸ ha)
      exact (sameAt_setLeft hax).trans (sameAt_setRight hax)
    exact ⟨h.nodes.tree.congr hsame, trivial, h.nodes.nodup⟩
  have hleft : T.left x = none := setLeft_left_self
  have hright : T.right x = none := setRight_right_self
  cases t with
  | nil =>
    have hroot : tree.root = none := h.root
    refine ⟨{ tree with nodes := T.setParent x none, root := some x }, ?_, rfl, ?_⟩
    · rw [attach, hroot]
    · exact at_setChild hat (by simp [before, after]) hleft hright
  | node l a r =>
    have hroot : tree.root = some a := h.root
    have hloop : insertLoop comp nodeValue T x fuel (some a) none false = some (_, _) :=
      insertLoop_eq comp nodeValue hat.tree hfuel
    have hleaf := hat.insertPath (fun a b => comp (nodeValue a) (nodeValue b)) x
    have hlist := before_append_after (fun a b => comp (nodeValue a) (nodeValue b)) x (node l a r)
    generalize insertPath (fun a b => comp (nodeValue a) (nodeValue b)) x (node l a r) [] = path
      at hloop hleaf hlist ⊢
    refine ⟨{ tree with nodes := (T.setParent x (parentOf path)).setChild path (some x) }, ?_, rfl,
      at_setChild hleaf (hlist ▸ hx) hleft hright⟩
    rw [attach, hroot]
    simp only [T, hloop, Option.bind_some]
    rcases path with _ | ⟨⟨g, d⟩ | ⟨b, g⟩, path⟩
    · simp [before, after] at hlist
    · rfl
    · rfl

/-- **Insertion.** -/
theorem exists_insert (h : tree.Is t) (hx : x ∉ t.toList) (hfuel : t.toList.length < fuel) :
    ∃ tree', insert comp nodeValue fuel tree (some x) = some (tree', some x) ∧
      tree'.Is (SplayTree.insert (fun a b => comp (nodeValue a) (nodeValue b)) x t) := by
  obtain ⟨tree1, hattach, hsize, hat⟩ := exists_attach comp nodeValue h hx hfuel
  have hpath := length_insertPath_le (fun a b => comp (nodeValue a) (nodeValue b)) x t
  obtain ⟨T', hsplay, hat'⟩ := exists_splay hat (Nat.lt_of_le_of_lt hpath hfuel)
  refine ⟨{ nodes := T', root := some x, size := tree1.size + 1 }, ?_, hat', ?_, ?_⟩
  · simp only [insert, hattach, hsplay, Option.bind_some, Option.map_some]
  · exact (root_splay _ _ _ _).symm
  · have hperm := toList_insert_perm (fun a b => comp (nodeValue a) (nodeValue b)) x t
    rw [hperm.length_eq, List.length_cons, hsize, h.size]
    rfl

/-! ### Search -/

/-- What is found is splayed. -/
theorem exists_splay_of_at (h : tree.Is t) (hat : tree.nodes.At (node l x r) path)
    (hlist : before path ++ (l.toList ++ x :: r.toList) ++ after path = t.toList)
    (hfuel : t.toList.length < fuel) :
    ∃ tree', splay fuel tree x = some tree' ∧ tree'.Is (SplayTree.splay l x r path) := by
  have hpath := length_path_le path
  have hlen := congrArg List.length hlist
  simp only [List.length_append, List.length_cons] at hlen
  have hlt : path.length < fuel := by omega
  obtain ⟨T', hsplay, hat'⟩ := exists_splay hat hlt
  refine ⟨_, hsplay, hat', (root_splay _ _ _ _).symm, ?_⟩
  rw [toList_splay, hlist]
  exact h.size

/-- **Search.** -/
theorem exists_find (key : V) (h : tree.Is t) (hfuel : t.toList.length < fuel) :
    ∃ tree', find comp nodeValue fuel tree key =
        some (tree', (SplayTree.find (fun k a => comp k (nodeValue a)) key t).1) ∧
      tree'.Is (SplayTree.find (fun k a => comp k (nodeValue a)) key t).2 := by
  have hloop := findLoop_eq comp nodeValue key [] h.nodes.tree hfuel
  rw [← h.root] at hloop
  rw [find, hloop, Option.bind_some, SplayTree.find]
  cases hs : search (fun k a => comp k (nodeValue a)) key t [] with
  | none => exact ⟨tree, rfl, h⟩
  | some found =>
    obtain ⟨l, value, r, path⟩ := found
    obtain ⟨-, hlist⟩ := search_eq_some hs
    simp only [before, after, List.nil_append, List.append_nil] at hlist
    obtain ⟨tree', hsplay, his⟩ := exists_splay_of_at h (h.nodes.search hs) hlist hfuel
    refine ⟨tree', ?_, his⟩
    simp only [Option.map_some, hsplay]

/-! ### Deletion -/

/-- The leftmost node, at a hole, is replaced by the subtree on its right. -/
theorem at_unlink (h : T.At (node nil y r) path) :
    ((T.setChild path r.root).setParentOf r.root (parentOf path)).At r path := by
  have hnodup : (before path ++ (y :: (r.toList ++ after path))).Nodup := by simpa using h.nodup
  rw [List.nodup_middle, List.nodup_cons] at hnodup
  obtain ⟨hy, hnodup⟩ := hnodup
  have hpath : (before path ++ after path).Nodup :=
    hnodup.sublist ((List.Sublist.refl _).append (List.sublist_append_right _ _))
  have hr : ∀ a ∈ r.toList, a ∉ before path ++ after path := by
    grind [List.nodup_append]
  have hrn : r.toList.Nodup := (List.nodup_append.mp (List.nodup_append.mp hnodup).2.1).1
  obtain ⟨-, -, -, -, hrep⟩ := h.tree
  have hrep' : (T.setChild path r.root).Rep (some y) r :=
    hrep.congr fun a ha => sameAt_setChild (hr a ha)
  refine ⟨hrep'.setParentOf hrn, (h.way.setChild hpath).congr fun a ha => ?_, hnodup⟩
  exact sameAt_setParentOf fun har => hr a har ha

/-- The leftmost node is unlinked, if it is below the root. -/
theorem exists_unlink {t' : SplayTree α} (h : T.At t path) (hpop : popLeftmost t = some (y, t'))
    (hne : t.root ≠ some y) :
    ∃ (p : α) (c : SplayTree α), p ∈ t.toList ∧ T.parent y = some p ∧ T.right y = c.root ∧
      t'.root = t.root ∧ ((T.setLeft p c.root).setParentOf c.root (some p)).At t' path := by
  induction t generalizing t' path with
  | nil => cases hpop
  | node l a r ihl _ =>
    obtain ⟨-, rfl, -⟩ | ⟨l', hl, rfl⟩ := popLeftmost_cases hpop
    · exact absurd rfl hne
    · by_cases hroot : l.root = some y
      · -- the leftmost node is the left child of this one
        obtain ⟨l1, l2, rfl⟩ := exists_eq_node hroot
        have hat := At.down_left.mp h
        have hl1 : l1 = nil ∧ l2 = l' := by
          obtain ⟨hnil, -, heq⟩ | ⟨l3, h3, -⟩ := popLeftmost_cases hl
          · exact ⟨hnil, heq⟩
          · -- it would occur twice
            have hmem : y ∈ l1.toList := by simp [popLeftmost_eq_some h3]
            have hnodup := hat.nodup
            simp only [toList_node, List.nodup_append] at hnodup
            exact absurd rfl (hnodup.2.1.1.2.2 y hmem y List.mem_cons_self)
        obtain ⟨rfl, rfl⟩ := hl1
        exact ⟨a, l2, by simp, hat.tree.1, hat.tree.2.2.1, rfl, At.down_left.mpr (at_unlink hat)⟩
      · obtain ⟨p, c, hp, hparent, hright, -, hat⟩ := ihl (At.down_left.mp h) hl hroot
        exact ⟨p, c, by simp [hp], hparent, hright, rfl, At.down_left.mpr hat⟩

/-- The leftmost node on the right of the root `x` is taken out of its place, and gets the subtree
on the right of `x` without itself. -/
theorem exists_lift {r' : SplayTree α} (h : T.At (node l x r) [])
    (hpop : popLeftmost r = some (y, r')) :
    ∃ T', liftLeftmost T y x = some T' ∧ T'.right y = r'.root ∧ T'.Rep (some y) r' ∧
      T'.left x = l.root ∧ T'.Rep (some x) l := by
  obtain ⟨-, hxl, hxr, hl, hr⟩ := h.tree
  have hlist := popLeftmost_eq_some hpop
  have hnodup : (l.toList ++ x :: y :: r'.toList).Nodup := by
    have := h.nodup
    rw [toList_node, hlist] at this
    simpa [before, after] using this
  by_cases hroot : r.root = some y
  · obtain ⟨r1, r2, rfl⟩ := exists_eq_node hroot
    obtain ⟨rfl, -, rfl⟩ | ⟨r3, h3, rfl⟩ := popLeftmost_cases hpop
    · obtain ⟨hparent, -, hright, -, hrep⟩ := hr
      refine ⟨T, ?_, hright, hrep, hxl, hl⟩
      rw [liftLeftmost, if_pos hparent]
    · -- it would occur twice
      simp [List.nodup_append] at hnodup
  · obtain ⟨p, c, hp, hparent, hright, hsame, hat⟩ := exists_unlink (At.down_right.mp h) hpop hroot
    have hpx : p ≠ x := by
      rintro rfl
      rw [hlist] at hp
      simp [List.nodup_append, hp] at hnodup
    obtain ⟨q, hq⟩ : ∃ q, r'.root = some q := by
      cases r with
      | nil => cases hp
      | node r1 a r2 => exact ⟨a, hsame⟩
    obtain ⟨-, hl1, hr1, hrepl, -⟩ := hat.way
    have hyr : y ∉ r'.toList := by
      simp [List.nodup_append] at hnodup
      grind
    have hyl : ∀ a ∈ l.toList, a ≠ y := by grind [List.nodup_append]
    have hlr : ∀ a ∈ l.toList, a ∉ r'.toList := by grind [List.nodup_append]
    have hrn : r'.toList.Nodup := by grind [List.nodup_append]
    let T1 := (T.setLeft p c.root).setParentOf c.root (some p)
    refine ⟨(T1.setRight y r'.root).setParentOf r'.root (some y), ?_, ?_, ?_, ?_, ?_⟩
    · rw [liftLeftmost, if_neg (by rw [hparent]; simpa using hpx)]
      simp only [hparent, Option.bind_some, hright, setLeft_right, hr1, setRight_right_self]
      rw [hq]
      rfl
    · rw [setParentOf_right, setRight_right_self]
    · have hrep : (T1.setRight y r'.root).Rep (some x) r' :=
        hat.tree.congr fun a ha => sameAt_setRight fun hay => hyr (hay ▸ ha)
      exact hrep.setParentOf hrn
    · rw [setParentOf_left, setRight_left]
      exact hl1
    · refine hrepl.congr fun a ha => ?_
      exact (sameAt_setRight (hyl a ha)).trans (sameAt_setParentOf (hlr a ha))

/-- The root is taken out: the two sides are joined. -/
theorem exists_removeRoot (h : tree.nodes.At (node l x r) []) (hfuel : r.toList.length < fuel) :
    ∃ T', removeRoot fuel tree x = some { tree with nodes := T', root := (join l r).root } ∧
      T'.At (join l r) [] := by
  obtain ⟨-, hxl, hxr, hl, hr⟩ := h.tree
  have hnodup : (l.toList ++ x :: r.toList).Nodup := by simpa [before, after] using h.nodup
  have hln : l.toList.Nodup := (List.nodup_append.mp hnodup).1
  have hrn : r.toList.Nodup := (List.nodup_cons.mp (List.nodup_append.mp hnodup).2.1).2
  rw [removeRoot]
  dsimp only
  cases l with
  | nil =>
    rw [hxl, hxr]
    refine ⟨_, rfl, ?_⟩
    exact ⟨hr.setParentOf hrn, trivial, by simpa [before, after] using hrn⟩
  | node l1 a l2 =>
    rw [hxl, hxr]
    cases hpop : popLeftmost r with
    | none =>
      obtain rfl := popLeftmost_eq_none hpop
      refine ⟨_, rfl, ?_⟩
      exact ⟨hl.setParentOf hln, trivial, by simpa [before, after] using hln⟩
    | some found =>
      obtain ⟨y, r'⟩ := found
      have hlist := popLeftmost_eq_some hpop
      obtain ⟨T', hlift, hyr, hrep, hxl', hrepl⟩ := exists_lift h hpop
      obtain ⟨b, hb⟩ : ∃ b, r.root = some b := by
        cases r with
        | nil => cases hpop
        | node r1 b r2 => exact ⟨b, rfl⟩
      have hmost : leftmost tree.nodes fuel (some b) = some (some y) := by
        rw [← hb, leftmost_eq hr hfuel, hlist, List.head?_cons]
      have hjoin : join (node l1 a l2) r = node (node l1 a l2) y r' := by simp only [join, hpop]
      rw [hlist] at hnodup
      have hyl : y ∉ (node l1 a l2).toList := by grind [List.nodup_append]
      have hyr' : y ∉ r'.toList := by
        simp only [List.nodup_append, List.nodup_cons] at hnodup
        exact hnodup.2.1.2.1
      have hxy : x ≠ y := by
        simp only [List.nodup_append, List.nodup_cons] at hnodup
        exact fun hxy => hnodup.2.1.1 (by simp [hxy])
      have hlr : ∀ c ∈ r'.toList, c ∉ (node l1 a l2).toList := by grind [List.nodup_append]
      let T1 := (T'.setParent y none).setLeft y (node l1 a l2).root
      have hsame1 : ∀ c, c ≠ y → SameAt T' T1 c := fun c hc =>
        (sameAt_setParent hc).trans (sameAt_setLeft hc)
      refine ⟨T1.setParentOf (node l1 a l2).root (some y), ?_, ?_⟩
      · rw [hb, hjoin]
        have hleft : (T'.setParent y none).left x = (node l1 a l2).root := hxl'
        simp only [SplayTree.root, hmost, Option.bind_some, hlift]
        rw [hleft, setLeft_left_self]
        rfl
      · rw [hjoin]
        refine ⟨⟨?_, ?_, ?_, ?_, ?_⟩, trivial, ?_⟩
        · exact ((sameAt_setParentOf hyl).1).trans setParent_parent_self
        · exact ((sameAt_setParentOf hyl).2.1).trans setLeft_left_self
        · exact ((sameAt_setParentOf hyl).2.2).trans hyr
        · have hrep1 : T1.Rep (some x) (node l1 a l2) :=
            hrepl.congr fun c hc => hsame1 c fun hcy => hyl (hcy ▸ hc)
          exact hrep1.setParentOf hln
        · refine hrep.congr fun c hc => ?_
          exact (hsame1 c fun hcy => hyr' (hcy ▸ hc)).trans (sameAt_setParentOf (hlr c hc))
        · have hlist' : before [] ++ ((node (node l1 a l2) y r').toList ++ after []) =
              (node l1 a l2).toList ++ y :: r'.toList := by simp [before, after]
          rw [hlist']
          refine hnodup.sublist ?_
          exact (List.Sublist.refl _).append (List.sublist_cons_self _ _)

/-- **Deletion.** -/
theorem exists_deleteHint (h : tree.Is t) (hx : x ∈ t.toList) (hfuel : t.toList.length < fuel) :
    ∃ tree', deleteHint fuel tree (some x) = some tree' ∧ tree'.Is (SplayTree.deleteHint x t) := by
  obtain ⟨u, v, hlist, hdelete⟩ := toList_deleteHint hx
  rw [SplayTree.deleteHint] at hdelete ⊢
  cases hs : SplayTree.locate x t [] with
  | none => exact absurd hx (locate_eq_none hs)
  | some found =>
    obtain ⟨l, r, path⟩ := found
    have hcut := locate_eq_some hs
    simp only [before, after, List.nil_append, List.append_nil] at hcut
    obtain ⟨tree1, hsplay, his⟩ := exists_splay_of_at h (h.nodes.locate hs) hcut hfuel
    obtain ⟨l', r', heq, -, -⟩ := splay_eq_node l x r path
    rw [heq] at his
    rw [hs] at hdelete
    dsimp only at hdelete ⊢
    rw [heq] at hdelete ⊢
    dsimp only at hdelete ⊢
    have hsize : tree1.size = t.toList.length := by
      rw [his.size, ← heq, toList_splay, hcut]
    have hfuel' : r'.toList.length < fuel := by
      have hlen := his.size
      rw [hsize, toList_node, List.length_append, List.length_cons] at hlen
      omega
    obtain ⟨T', hremove, hat⟩ := exists_removeRoot his.nodes hfuel'
    refine ⟨{ nodes := T', root := (join l' r').root, size := tree1.size - 1 }, ?_, hat, rfl, ?_⟩
    · simp only [deleteHint, hsplay, Option.bind_some, hremove, Option.map_some]
    · rw [hdelete, hsize, hlist, List.length_append, List.length_append, List.length_cons]
      push_cast
      omega

end Picosplay

end Picoquic
