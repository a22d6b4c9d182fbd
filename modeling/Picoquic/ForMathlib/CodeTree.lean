import Mathlib.Algebra.Group.Nat.Defs
import Mathlib.Data.List.Infix
import Mathlib.Data.List.Nodup

/-!
# Code trees

A code tree is a binary tree with symbols at its leaves; the code of a symbol is the path to its
leaf. No code is a prefix of another one, so that a list of bits is the concatenation of codes and
of a rest that no code begins in one way only.

* **`CodeTree.follow`** — the tree at the end of a path;
* **`CodeTree.codes`** — all codes, with their symbols;
* **`CodeTree.follow_eq_leaf_iff`** — the code of a symbol that no two leaves have;
* **`IsPrefixCode.prefix_of_split`**, **`IsPrefixCode.exists_split`** — the codes at the begin of a
  list of bits.
-/

/-- A binary tree with symbols at its leaves. -/
inductive CodeTree (α : Type*)
  | leaf (a : α)
  | node (zero one : CodeTree α)

namespace CodeTree

variable {α : Type*} {t t' : CodeTree α} {a b : α} {v w : List Bool}

/-- The subtree that a bit leads to. -/
def child : CodeTree α → Bool → Option (CodeTree α)
  | leaf _, _ => none
  | node zero _, false => some zero
  | node _ one, true => some one

/-- The subtree at the end of a path. -/
def follow : CodeTree α → List Bool → Option (CodeTree α)
  | t, [] => some t
  | t, bit :: w => (t.child bit).bind (follow · w)

@[simp]
theorem follow_nil (t : CodeTree α) : t.follow [] = some t := by rw [follow]

theorem follow_cons (t : CodeTree α) (bit : Bool) (w : List Bool) :
    t.follow (bit :: w) = (t.child bit).bind (follow · w) := by rw [follow]

theorem follow_append (t : CodeTree α) (v w : List Bool) :
    t.follow (v ++ w) = (t.follow v).bind (follow · w) := by
  induction v generalizing t with
  | nil => rw [List.nil_append, follow_nil, Option.bind_some]
  | cons bit v ih =>
    rw [List.cons_append, follow_cons, follow_cons]
    cases t.child bit with
    | none => rfl
    | some t' => exact ih t'

/-- No path goes on at a leaf. -/
theorem eq_nil_of_follow_leaf (h : (leaf a).follow w = some t) : w = [] := by
  cases w with
  | nil => rfl
  | cons bit w => rw [follow_cons, child, Option.bind_none] at h; exact nomatch h

/-- **Codes are no prefixes of each other.** -/
theorem eq_of_follow_leaf_of_prefix (hv : t.follow v = some (leaf a))
    (hw : t.follow w = some (leaf b)) (h : v <+: w) : v = w ∧ a = b := by
  obtain ⟨u, rfl⟩ := h
  rw [follow_append, hv, Option.bind_some] at hw
  obtain rfl := eq_nil_of_follow_leaf hw
  rw [follow_nil, Option.some.injEq, leaf.injEq] at hw
  exact ⟨(List.append_nil v).symm, hw⟩

/-- A path begins with a code, or ends within the tree. -/
theorem exists_leaf_or_node (t : CodeTree α) (w : List Bool) :
    (∃ v a, v <+: w ∧ t.follow v = some (leaf a)) ∨
      ∃ zero one, t.follow w = some (node zero one) := by
  induction w generalizing t with
  | nil =>
    cases t with
    | leaf a => exact .inl ⟨[], a, List.nil_prefix, rfl⟩
    | node zero one => exact .inr ⟨zero, one, rfl⟩
  | cons bit w ih =>
    cases t with
    | leaf a => exact .inl ⟨[], a, List.nil_prefix, rfl⟩
    | node zero one =>
      have hchild : ∃ t', (node zero one).child bit = some t' := by
        cases bit with
        | false => exact ⟨zero, rfl⟩
        | true => exact ⟨one, rfl⟩
      obtain ⟨t', ht'⟩ := hchild
      rcases ih t' with ⟨v, a, hv, hleaf⟩ | ⟨zero', one', hnode⟩
      · exact .inl ⟨bit :: v, a, List.cons_prefix_cons.2 ⟨rfl, hv⟩, by
          rw [follow_cons, ht', Option.bind_some, hleaf]⟩
      · exact .inr ⟨zero', one', by rw [follow_cons, ht', Option.bind_some, hnode]⟩

/-! ### All codes -/

/-- The codes of a tree with their symbols. -/
def codes : CodeTree α → List (List Bool × α)
  | leaf a => [([], a)]
  | node zero one =>
    zero.codes.map (Prod.map (false :: ·) id) ++ one.codes.map (Prod.map (true :: ·) id)

theorem mem_codes_iff : (w, a) ∈ t.codes ↔ t.follow w = some (leaf a) := by
  induction t generalizing w with
  | leaf b =>
    rw [codes, List.mem_singleton, Prod.mk.injEq]
    constructor
    · rintro ⟨rfl, rfl⟩
      rfl
    · intro h
      obtain rfl := eq_nil_of_follow_leaf h
      rw [follow_nil, Option.some.injEq, leaf.injEq] at h
      exact ⟨rfl, h.symm⟩
  | node zero one ihzero ihone =>
    cases w with
    | nil => simp [codes]
    | cons bit w =>
      rw [follow_cons]
      cases bit with
      | false => simp [codes, child, ← ihzero]
      | true => simp [codes, child, ← ihone]

/-- The code of a symbol. -/
def codeOf [DecidableEq α] (t : CodeTree α) (a : α) : Option (List Bool) :=
  (t.codes.find? fun c => c.2 = a).map Prod.fst

theorem follow_of_codeOf_eq_some [DecidableEq α] (h : t.codeOf a = some w) :
    t.follow w = some (leaf a) := by
  obtain ⟨⟨v, b⟩, hfind, rfl⟩ := Option.map_eq_some_iff.1 h
  have hb : b = a := by simpa using List.find?_some hfind
  exact mem_codes_iff.1 (hb ▸ List.mem_of_find?_eq_some hfind)

/-- A symbol that no two leaves have is at the end of its code only. -/
theorem follow_eq_leaf_iff [DecidableEq α] (ht : (t.codes.map Prod.snd).Nodup)
    (h : t.codeOf a = some w) : t.follow v = some (leaf a) ↔ v = w := by
  have hw := follow_of_codeOf_eq_some h
  refine ⟨fun hv => ?_, fun hv => hv ▸ hw⟩
  have hinj := List.inj_on_of_nodup_map ht (mem_codes_iff.2 hv) (mem_codes_iff.2 hw) rfl
  exact congrArg Prod.fst hinj

end CodeTree

/-- The numbers of a list are distinct and no bits of a mask. One look at each number is enough. -/
def List.distinctFrom (mask : ℕ) : List ℕ → Bool
  | [] => true
  | a :: l => !mask.testBit a && List.distinctFrom (mask ||| 2 ^ a) l

theorem List.nodup_of_distinctFrom {mask : ℕ} {l : List ℕ} (h : l.distinctFrom mask = true) :
    l.Nodup ∧ ∀ a ∈ l, mask.testBit a = false := by
  induction l generalizing mask with
  | nil => exact ⟨List.nodup_nil, fun _ ha => absurd ha List.not_mem_nil⟩
  | cons a l ih =>
    rw [List.distinctFrom, Bool.and_eq_true, Bool.not_eq_true'] at h
    obtain ⟨hnodup, hmask⟩ := ih h.2
    simp only [Nat.testBit_or, Nat.testBit_two_pow, Bool.or_eq_false_iff, decide_eq_false_iff_not]
      at hmask
    exact ⟨List.nodup_cons.2 ⟨fun ha => (hmask a ha).2 rfl, hnodup⟩,
      List.forall_mem_cons.2 ⟨h.1, fun b hb => (hmask b hb).1⟩⟩

/-! ### Prefix codes -/

/-- A code for which no code is a prefix of another one, and none is empty. -/
structure IsPrefixCode {β : Type*} (code : β → List Bool) : Prop where
  eq_of_prefix : ∀ a b, code a <+: code b → a = b
  ne_nil : ∀ a, code a ≠ []

namespace IsPrefixCode

variable {β : Type*} {code : β → List Bool}

/-- Codes that begin the same list are the same. -/
theorem eq_of_append_eq (h : IsPrefixCode code) {a b : β} {u v : List Bool}
    (huv : code a ++ u = code b ++ v) : a = b := by
  rcases List.prefix_or_prefix_of_prefix (List.prefix_append (code a) u)
    (huv ▸ List.prefix_append (code b) v) with hab | hba
  · exact h.eq_of_prefix a b hab
  · exact (h.eq_of_prefix b a hba).symm

/-- **Unique decoding.** A split whose rest no code begins has the most symbols. -/
theorem prefix_of_split (h : IsPrefixCode code) {s s' : List β} {tail tail' : List Bool}
    (hsplit : s.flatMap code ++ tail = s'.flatMap code ++ tail')
    (htail' : ∀ b, ¬ code b <+: tail') :
    ∃ u, s' = s ++ u ∧ tail = u.flatMap code ++ tail' := by
  induction s generalizing s' with
  | nil => exact ⟨s', rfl, by simpa using hsplit⟩
  | cons a s ih =>
    cases s' with
    | nil =>
      refine absurd ?_ (htail' a)
      rw [List.flatMap_nil, List.nil_append] at hsplit
      rw [← hsplit, List.flatMap_cons, List.append_assoc]
      exact List.prefix_append _ _
    | cons b s' =>
      rw [List.flatMap_cons, List.flatMap_cons, List.append_assoc, List.append_assoc] at hsplit
      obtain rfl := h.eq_of_append_eq hsplit
      obtain ⟨u, rfl, htail⟩ := ih (List.append_cancel_left hsplit)
      exact ⟨u, rfl, htail⟩

/-- Every list of bits begins with codes, up to a rest that no code begins. -/
theorem exists_split (h : IsPrefixCode code) (w : List Bool) :
    ∃ (s : List β) (tail : List Bool), w = s.flatMap code ++ tail ∧ ∀ b, ¬ code b <+: tail := by
  induction hn : w.length using Nat.strong_induction_on generalizing w with
  | _ n ih =>
    by_cases hcode : ∃ b, code b <+: w
    · obtain ⟨b, rest, rfl⟩ := hcode
      have hpos := List.length_pos_iff.2 (h.ne_nil b)
      obtain ⟨s, tail, rfl, htail⟩ := ih rest.length (by
        rw [List.length_append] at hn
        omega) rest rfl
      exact ⟨b :: s, tail, by rw [List.flatMap_cons, List.append_assoc], htail⟩
    · exact ⟨[], w, rfl, fun b hb => hcode ⟨b, hb⟩⟩

end IsPrefixCode
