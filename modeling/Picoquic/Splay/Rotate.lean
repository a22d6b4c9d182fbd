import Picoquic.Splay.Picosplay

/-!
# Rotations of the pointers

`rotate` does to the pointers what it is meant to do to the tree, and `splay` moves a node to the
root by single and double rotations.

* **`exists_rotate_left`**, **`exists_rotate_right`** — a rotation, with the node in focus;
* **`exists_splay`** — the loop of `splay`.
-/

namespace Picoquic

namespace Picosplay

open SplayTree PointerTree

variable {α : Type*}

/-- Two nodes, and the lists before, between and after them, occur once only, and not in `P`. -/
structure Separate (P L M R : List α) (y z : α) : Prop where
  ne : y ≠ z
  nodup_path : P.Nodup
  nodup_middle : M.Nodup
  first : y ∉ P ∧ y ∉ L ∧ y ∉ M ∧ y ∉ R
  second : z ∉ P ∧ z ∉ L ∧ z ∉ M ∧ z ∉ R
  left : ∀ a ∈ L, a ∉ P ∧ a ∉ M
  middle : ∀ a ∈ M, a ∉ P
  right : ∀ a ∈ R, a ∉ P ∧ a ∉ M

theorem separate_of_nodup {B A L M R : List α} {y z : α}
    (h : (B ++ ((L ++ y :: (M ++ z :: R)) ++ A)).Nodup) : Separate (B ++ A) L M R y z := by
  simp only [List.nodup_append, List.nodup_cons, List.mem_append, List.mem_cons, not_or] at h
  obtain ⟨hB, ⟨⟨hL, ⟨⟨hyM, hyz, hyR⟩, hM, ⟨hzR, hR⟩, hMR⟩, hLR⟩, hA, hTA⟩, hBT⟩ := h
  constructor <;> grind

variable [DecidableEq α] {T : PointerTree α} {l r c b : SplayTree α} {path : List (Edge α)}
  {x p : α}

/-- The pointers that `mark_gp` writes. -/
theorem markGp_eq (hx : T.parent x = some p) (hp : T.parent p = parentOf path)
    (hway : T.RepPath (some p) path) (hmem : p ∉ before path) :
    markGp T x =
      some (((T.setParent x (parentOf path)).setParent p (some x)).setChild path (some x)) := by
  rcases path with _ | ⟨⟨g, d⟩ | ⟨b, g⟩, path⟩
  · simp only [markGp, hx, hp, parentOf, PointerTree.setChild]
  · have hleft : T.left g = some p := hway.2.1
    simp only [markGp, hx, hp, parentOf, PointerTree.setChild]
    exact if_pos hleft
  · have hleft : T.left g ≠ some p := by
      intro h
      have hroot : b.root = some p := hway.2.1.symm.trans h
      exact hmem (by simp [before, mem_of_root hroot])
    simp only [markGp, hx, hp, parentOf, PointerTree.setChild]
    exact if_neg hleft

/-- The pointers after `mark_gp`. -/
def marked (T : PointerTree α) (path : List (Edge α)) (x p : α) : PointerTree α :=
  ((T.setParent x (parentOf path)).setParent p (some x)).setChild path (some x)

theorem sameAt_marked {a : α} (hx : a ≠ x) (hp : a ≠ p) (hpath : a ∉ before path ++ after path) :
    SameAt T (marked T path x p) a :=
  ((sameAt_setParent hx).trans (sameAt_setParent hp)).trans (sameAt_setChild hpath)

theorem marked_parent_child (hne : x ≠ p) : (marked T path x p).parent x = parentOf path := by
  rw [marked, setChild_parent, (sameAt_setParent hne).1, setParent_parent_self]

theorem marked_parent_parent : (marked T path x p).parent p = some x := by
  rw [marked, setChild_parent, setParent_parent_self]

theorem marked_left {a : α} (hpath : a ∉ before path ++ after path) :
    (marked T path x p).left a = T.left a :=
  (sameAt_setChild hpath).2.1

theorem marked_right {a : α} (hpath : a ∉ before path ++ after path) :
    (marked T path x p).right a = T.right a :=
  (sameAt_setChild hpath).2.2

theorem RepPath.marked (h : T.RepPath (some p) path) (hx : x ∉ before path ++ after path)
    (hp : p ∉ before path ++ after path) (hpath : (before path ++ after path).Nodup) :
    (marked T path x p).RepPath (some x) path := by
  refine PointerTree.RepPath.setChild (h.congr fun a ha => ?_) hpath
  have hax : a ≠ x := fun hax => hx (hax ▸ ha)
  have hap : a ≠ p := fun hap => hp (hap ▸ ha)
  exact (sameAt_setParent hax).trans (sameAt_setParent hap)

/-- The subtree `m` is attached to `p`, and everything else below and above stays as it is. -/
structure Moves (T T' : PointerTree α) (path : List (Edge α)) (m : SplayTree α) (x p : α) :
    Prop where
  below : ∀ {o t}, T.Rep o t → x ∉ t.toList → p ∉ t.toList →
    (∀ a ∈ t.toList, a ∉ before path ++ after path ∧ a ∉ m.toList) → T'.Rep o t
  moved : T.Rep (some x) m → T'.Rep (some p) m
  above : T.RepPath (some p) path → T'.RepPath (some x) path

/-- What a rotation does after `mark_gp`: it writes the children of `p` and of `x`. -/
theorem moves_of_marked {T1 T' : PointerTree α} {m : SplayTree α} {L R : List α} {y z : α}
    (hsep : Separate (before path ++ after path) L m.toList R y z)
    (hxp : x = y ∧ p = z ∨ x = z ∧ p = y)
    (hp : ∀ a, a ≠ p → SameAt (marked T path x p) T1 a)
    (hx : ∀ a, a ≠ x → SameAt (T1.setParentOf m.root (some p)) T' a) :
    Moves T T' path m x p := by
  obtain ⟨hxpath, hxm⟩ : x ∉ before path ++ after path ∧ x ∉ m.toList := by
    rcases hxp with ⟨rfl, rfl⟩ | ⟨rfl, rfl⟩
    · exact ⟨hsep.first.1, hsep.first.2.2.1⟩
    · exact ⟨hsep.second.1, hsep.second.2.2.1⟩
  obtain ⟨hppath, hpm⟩ : p ∉ before path ++ after path ∧ p ∉ m.toList := by
    rcases hxp with ⟨rfl, rfl⟩ | ⟨rfl, rfl⟩
    · exact ⟨hsep.second.1, hsep.second.2.2.1⟩
    · exact ⟨hsep.first.1, hsep.first.2.2.1⟩
  have hafter : ∀ a, a ≠ x → a ≠ p → a ∉ m.toList → SameAt (marked T path x p) T' a :=
    fun a hax hap ham => ((hp a hap).trans (sameAt_setParentOf ham)).trans (hx a hax)
  refine ⟨fun h hxt hpt hout => h.congr fun a ha => ?_, fun h => ?_, fun h => ?_⟩
  · have hax : a ≠ x := fun e => hxt (e ▸ ha)
    have hap : a ≠ p := fun e => hpt (e ▸ ha)
    exact (sameAt_marked hax hap (hout a ha).1).trans (hafter a hax hap (hout a ha).2)
  · have hm1 : T1.Rep (some x) m := h.congr fun a ha => by
      have hax : a ≠ x := fun e => hxm (e ▸ ha)
      have hap : a ≠ p := fun e => hpm (e ▸ ha)
      exact (sameAt_marked hax hap (hsep.middle a ha)).trans (hp a hap)
    exact (hm1.setParentOf hsep.nodup_middle).congr fun a ha => hx a fun e => hxm (e ▸ ha)
  · refine (RepPath.marked h hxpath hppath hsep.nodup_path).congr fun a ha => ?_
    have hax : a ≠ x := fun e => hxpath (e ▸ ha)
    have hap : a ≠ p := fun e => hppath (e ▸ ha)
    exact hafter a hax hap fun ham => hsep.middle a ham ha

/-- A left child takes the place of its parent. -/
theorem exists_rotate_left (h : T.At (node l x r) (.leftOf p c :: path)) :
    ∃ T', rotate T x = some T' ∧ T'.At (node l x (node r p c)) path := by
  obtain ⟨⟨hxp, hxl, hxr, hl, hr⟩, ⟨hpp, (hpl : T.left p = some x), hpr, hc, hway⟩, hnodup⟩ := h
  have hlist : before path ++ ((node l x (node r p c)).toList ++ after path) =
      before (.leftOf p c :: path) ++ ((node l x r).toList ++ after (.leftOf p c :: path)) := by
    simp [before, after]
  rw [← hlist] at hnodup
  have hsep : Separate (before path ++ after path) l.toList r.toList c.toList x p :=
    separate_of_nodup hnodup
  obtain ⟨hxpath, hxl', hxr', hxc⟩ := hsep.first
  obtain ⟨hppath, hpl', hpr', hpc⟩ := hsep.second
  have hmark : markGp T x = some (marked T path x p) :=
    markGp_eq hxp hpp hway fun h => hppath (List.mem_append_left _ h)
  have hroot : (marked T path x p).right x = r.root := (marked_right hxpath).trans hxr
  have hrotate : rotate T x = some
      ((((marked T path x p).setLeft p r.root).setParentOf r.root (some p)).setRight x
        (some p)) := by
    simp only [rotate, hxp, parentOf, hpl, if_true, hmark, Option.map_some, hroot, setLeft_right]
  obtain ⟨hbelow, hmoved, habove⟩ := moves_of_marked (T := T) (m := r) hsep (Or.inl ⟨rfl, rfl⟩)
    (fun a => sameAt_setLeft) (fun a => sameAt_setRight)
  refine ⟨_, hrotate, ⟨?_, ?_, setRight_right_self, hbelow hl hxl' hpl' hsep.left, ?_, ?_, ?_,
    hmoved hr, hbelow hc hxc hpc hsep.right⟩, habove hway, hnodup⟩
  · rw [setRight_parent, (sameAt_setParentOf hxr').1, setLeft_parent]
    exact marked_parent_child hsep.ne
  · rw [setRight_left, setParentOf_left, (sameAt_setLeft hsep.ne).2.1, marked_left hxpath, hxl]
  · rw [setRight_parent, (sameAt_setParentOf hpr').1, setLeft_parent]
    exact marked_parent_parent
  · rw [setRight_left, setParentOf_left]
    exact setLeft_left_self
  · rw [(sameAt_setRight hsep.ne.symm).2.2, setParentOf_right, setLeft_right,
      marked_right hppath, hpr]

/-- A right child takes the place of its parent. -/
theorem exists_rotate_right (h : T.At (node l x r) (.rightOf b p :: path)) :
    ∃ T', rotate T x = some T' ∧ T'.At (node (node b p l) x r) path := by
  obtain ⟨⟨hxp, hxl, hxr, hl, hr⟩, ⟨hpp, hpl, (hpr : T.right p = some x), hb, hway⟩, hnodup⟩ := h
  have hlist : before path ++ ((node (node b p l) x r).toList ++ after path) =
      before (.rightOf b p :: path) ++ ((node l x r).toList ++ after (.rightOf b p :: path)) := by
    simp [before, after]
  rw [← hlist] at hnodup
  have hsep : Separate (before path ++ after path) b.toList l.toList r.toList p x := by
    refine separate_of_nodup ?_
    simpa using hnodup
  obtain ⟨hppath, hpb, hpl', hpr'⟩ := hsep.first
  obtain ⟨hxpath, hxb, hxl', hxr'⟩ := hsep.second
  -- the node is no left child
  have hside : ¬ T.left p = some x := fun h => hxb (mem_of_root (hpl.symm.trans h))
  have hmark : markGp T x = some (marked T path x p) :=
    markGp_eq hxp hpp hway fun h => hppath (List.mem_append_left _ h)
  have hroot : (marked T path x p).left x = l.root := (marked_left hxpath).trans hxl
  have hrotate : rotate T x = some
      ((((marked T path x p).setRight p l.root).setParentOf l.root (some p)).setLeft x
        (some p)) := by
    simp only [rotate, hxp, parentOf, if_neg hside, hmark, Option.map_some, hroot, setRight_left]
  obtain ⟨hbelow, hmoved, habove⟩ := moves_of_marked (T := T) (m := l) hsep (Or.inr ⟨rfl, rfl⟩)
    (fun a => sameAt_setRight) (fun a => sameAt_setLeft)
  refine ⟨_, hrotate, ⟨?_, setLeft_left_self, ?_, ⟨?_, ?_, ?_, hbelow hb hxb hpb hsep.left,
    hmoved hl⟩, hbelow hr hxr' hpr' hsep.right⟩, habove hway, hnodup⟩
  · rw [setLeft_parent, (sameAt_setParentOf hxl').1, setRight_parent]
    exact marked_parent_child hsep.ne.symm
  · rw [setLeft_right, setParentOf_right, (sameAt_setRight hsep.ne.symm).2.2,
      marked_right hxpath, hxr]
  · rw [setLeft_parent, (sameAt_setParentOf hpl').1, setRight_parent]
    exact marked_parent_parent
  · rw [(sameAt_setLeft hsep.ne).2.1, setParentOf_left, setRight_left, marked_left hppath, hpl]
  · rw [setLeft_right, setParentOf_right]
    exact setRight_right_self

/-! ### The loop -/

theorem splayRound_zigzig {g : α} (hp : T.parent p = some g)
    (hside : (T.left p = some x ∧ T.left g = some p) ∨ (T.right p = some x ∧ T.right g = some p)) :
    splayRound T x p = zigzig T x p := by
  rw [splayRound, hp]
  exact if_pos hside

theorem splayRound_zigzag {g : α} (hp : T.parent p = some g)
    (hside : ¬ ((T.left p = some x ∧ T.left g = some p) ∨
      (T.right p = some x ∧ T.right g = some p))) :
    splayRound T x p = zigzag T x := by
  rw [splayRound, hp]
  exact if_neg hside

theorem exists_round_left_left {g : α} {d : SplayTree α}
    (h : T.At (node l x r) (.leftOf p c :: .leftOf g d :: path)) :
    ∃ T', splayRound T x p = some T' ∧ T'.At (node l x (node r p (node c g d))) path := by
  obtain ⟨T1, hp, h1⟩ := exists_rotate_left (At.down_left.mpr h)
  obtain ⟨T2, hx, h2⟩ := exists_rotate_left (At.down_left.mp h1)
  obtain ⟨hpp, hpl, -, -, -, hgl, -⟩ := h.way
  refine ⟨T2, ?_, h2⟩
  rw [splayRound_zigzig hpp (Or.inl ⟨hpl, hgl⟩), zigzig, hp, Option.bind_some, hx]

theorem exists_round_right_right {g : α} {a : SplayTree α}
    (h : T.At (node l x r) (.rightOf b p :: .rightOf a g :: path)) :
    ∃ T', splayRound T x p = some T' ∧ T'.At (node (node (node a g b) p l) x r) path := by
  obtain ⟨T1, hp, h1⟩ := exists_rotate_right (At.down_right.mpr h)
  obtain ⟨T2, hx, h2⟩ := exists_rotate_right (At.down_right.mp h1)
  obtain ⟨hpp, -, hpr, -, -, -, hgr, -⟩ := h.way
  refine ⟨T2, ?_, h2⟩
  rw [splayRound_zigzig hpp (Or.inr ⟨hpr, hgr⟩), zigzig, hp, Option.bind_some, hx]

theorem exists_round_left_right {g : α} {a : SplayTree α}
    (h : T.At (node l x r) (.leftOf p c :: .rightOf a g :: path)) :
    ∃ T', splayRound T x p = some T' ∧ T'.At (node (node a g l) x (node r p c)) path := by
  obtain ⟨T1, hx, h1⟩ := exists_rotate_left h
  obtain ⟨T2, hx', h2⟩ := exists_rotate_right h1
  obtain ⟨hpp, -, hpr, -, -, hgl, -⟩ := h.way
  have hnodup : (before path ++ ((a.toList ++ g :: l.toList) ++ x :: (r.toList ++ p :: c.toList) ++
      after path)).Nodup := by simpa using h2.nodup
  have hpa : p ∉ a.toList := by grind [List.nodup_append]
  have hxc : x ∉ c.toList := by grind [List.nodup_append]
  refine ⟨T2, ?_, h2⟩
  rw [splayRound_zigzag hpp, zigzag, hx, Option.bind_some, hx']
  rintro (⟨-, h⟩ | ⟨h, -⟩)
  · exact hpa (mem_of_root (hgl.symm.trans h))
  · exact hxc (mem_of_root (hpr.symm.trans h))

theorem exists_round_right_left {g : α} {d : SplayTree α}
    (h : T.At (node l x r) (.rightOf b p :: .leftOf g d :: path)) :
    ∃ T', splayRound T x p = some T' ∧ T'.At (node (node b p l) x (node r g d)) path := by
  obtain ⟨T1, hx, h1⟩ := exists_rotate_right h
  obtain ⟨T2, hx', h2⟩ := exists_rotate_left h1
  obtain ⟨hpp, hpl, -, -, -, -, hgr, -⟩ := h.way
  have hnodup : (before path ++ ((b.toList ++ p :: l.toList) ++ x :: (r.toList ++ g :: d.toList) ++
      after path)).Nodup := by simpa using h2.nodup
  have hpd : p ∉ d.toList := by grind [List.nodup_append]
  have hxb : x ∉ b.toList := by grind [List.nodup_append]
  refine ⟨T2, ?_, h2⟩
  rw [splayRound_zigzag hpp, zigzag, hx, Option.bind_some, hx']
  rintro (⟨h, -⟩ | ⟨-, h⟩)
  · exact hxb (mem_of_root (hpl.symm.trans h))
  · exact hpd (mem_of_root (hgr.symm.trans h))

theorem splayRound_zig (hp : T.parent p = none) : splayRound T x p = rotate T x := by
  rw [splayRound, hp]
  rfl

variable {fuel : ℕ}

theorem splay_succ {tree : Picosplay α} {T' : PointerTree α} (hx : tree.nodes.parent x = some p)
    (h : splayRound tree.nodes x p = some T') :
    splay (fuel + 1) tree x = splay fuel { tree with nodes := T' } x := by
  rw [splay, hx]
  simp only [h, Option.bind_some]

theorem splay_root {tree : Picosplay α} (h : tree.nodes.At (node l x r) []) (hfuel : 0 < fuel) :
    splay fuel tree x = some { tree with root := some x } := by
  obtain ⟨k, rfl⟩ : ∃ k, fuel = k + 1 := ⟨fuel - 1, by omega⟩
  have hx : tree.nodes.parent x = none := h.tree.1
  rw [splay, hx]

/-- **Splaying.** The loop takes the node to the root, with the pointers of the tree that is splayed
at it. -/
theorem exists_splay {tree : Picosplay α} (h : tree.nodes.At (node l x r) path)
    (hfuel : path.length < fuel) :
    ∃ T', splay fuel tree x = some { tree with nodes := T', root := some x } ∧
      T'.At (SplayTree.splay l x r path) [] := by
  fun_induction SplayTree.splay l x r path generalizing tree fuel with
  | case1 l r => exact ⟨tree.nodes, splay_root h hfuel, h⟩
  | case2 l r p c =>
    obtain ⟨k, rfl⟩ : ∃ k, fuel = k + 1 := ⟨fuel - 1, by omega⟩
    obtain ⟨T', hT', hat⟩ := exists_rotate_left h
    have hround : splayRound tree.nodes x p = some T' := (splayRound_zig h.way.1).trans hT'
    rw [splay_succ h.tree.1 hround]
    exact ⟨T', splay_root hat (Nat.lt_of_succ_lt_succ hfuel), hat⟩
  | case3 l r b p =>
    obtain ⟨k, rfl⟩ : ∃ k, fuel = k + 1 := ⟨fuel - 1, by omega⟩
    obtain ⟨T', hT', hat⟩ := exists_rotate_right h
    have hround : splayRound tree.nodes x p = some T' := (splayRound_zig h.way.1).trans hT'
    rw [splay_succ h.tree.1 hround]
    exact ⟨T', splay_root hat (Nat.lt_of_succ_lt_succ hfuel), hat⟩
  | case4 l r p c g d path ih =>
    obtain ⟨k, rfl⟩ : ∃ k, fuel = k + 1 := ⟨fuel - 1, by omega⟩
    obtain ⟨T', hround, hat⟩ := exists_round_left_left h
    rw [splay_succ h.tree.1 hround]
    exact ih hat (by simp only [List.length_cons] at hfuel; omega)
  | case5 l r b p a g path ih =>
    obtain ⟨k, rfl⟩ : ∃ k, fuel = k + 1 := ⟨fuel - 1, by omega⟩
    obtain ⟨T', hround, hat⟩ := exists_round_right_right h
    rw [splay_succ h.tree.1 hround]
    exact ih hat (by simp only [List.length_cons] at hfuel; omega)
  | case6 l r p c a g path ih =>
    obtain ⟨k, rfl⟩ : ∃ k, fuel = k + 1 := ⟨fuel - 1, by omega⟩
    obtain ⟨T', hround, hat⟩ := exists_round_left_right h
    rw [splay_succ h.tree.1 hround]
    exact ih hat (by simp only [List.length_cons] at hfuel; omega)
  | case7 l r b p g d path ih =>
    obtain ⟨k, rfl⟩ : ∃ k, fuel = k + 1 := ⟨fuel - 1, by omega⟩
    obtain ⟨T', hround, hat⟩ := exists_round_right_left h
    rw [splay_succ h.tree.1 hround]
    exact ih hat (by simp only [List.length_cons] at hfuel; omega)

end Picosplay

end Picoquic
