import Mathlib.Algebra.BigOperators.Group.List.Basic
import Mathlib.Algebra.GroupWithZero.Nat
import Mathlib.Data.List.Sort

/-!
# Lists with keys

A table of records is a list whose members have different keys. A record is replaced by another
one with the same key, removed, or inserted in order; a total over the table changes by what that
record contributes.

* **`nodup_put`**, **`nodup_remove`**, **`nodup_insert`** — the keys stay different;
* **`sublist_keys_filterMap`**, **`countP_filterMap_le`** — all records are changed, or removed;
* **`sum_put`**, **`sum_remove`**, **`sum_insert`** — the total after each operation;
-/

namespace Keyed

variable {α κ : Type*} {key : α → κ} {a b : α} {l : List α}

/-- The keys of a table. -/
def keys (key : α → κ) (l : List α) : List κ := l.map key

/-- A record with the same key is the record itself. -/
theorem forall_ne_of_nodup (h : (keys key (b :: l)).Nodup) : ∀ c ∈ l, key c ≠ key b := by
  intro c hc hkey
  rw [keys, List.map_cons, List.nodup_cons] at h
  exact h.1 (hkey ▸ List.mem_map_of_mem hc)

/-- A record with a new key is put at the end. -/
theorem nodup_append_record (h : (keys key l).Nodup) (ha : ∀ b ∈ l, key b ≠ key a) :
    (keys key (l ++ [a])).Nodup := by
  rw [keys, List.map_append, List.nodup_append]
  refine ⟨h, List.nodup_singleton _, fun k hk k' hk' => ?_⟩
  obtain ⟨b, hb, rfl⟩ := List.mem_map.mp hk
  rw [List.mem_singleton.mp hk']
  exact ha b hb

theorem nodup_insert (r : α → α → Prop) [DecidableRel r] (h : (keys key l).Nodup)
    (ha : ∀ b ∈ l, key b ≠ key a) : (keys key (l.orderedInsert r a)).Nodup := by
  rw [keys, ((l.perm_orderedInsert r a).map key).nodup_iff, List.map_cons, List.nodup_cons]
  refine ⟨fun hmem => ?_, h⟩
  obtain ⟨b, hb, hkey⟩ := List.mem_map.mp hmem
  exact ha b hb hkey

/-- The total when a record is inserted. -/
theorem sum_insert (r : α → α → Prop) [DecidableRel r] (a : α) (l : List α) (f : α → ℕ) :
    ((l.orderedInsert r a).map f).sum = f a + (l.map f).sum := by
  rw [((l.perm_orderedInsert r a).map f).sum_eq, List.map_cons, List.sum_cons]

/-- Records that are changed or removed, while their keys stay. -/
theorem sublist_keys_filterMap {g : α → Option α} (hkey : ∀ a b, g a = some b → key b = key a)
    (l : List α) : (keys key (l.filterMap g)).Sublist (keys key l) := by
  induction l with
  | nil => exact List.Sublist.refl _
  | cons a l ih =>
    rcases hg : g a with _ | b
    · rw [List.filterMap_cons_none hg]
      exact ih.cons (key a)
    · rw [List.filterMap_cons_some hg, keys, List.map_cons, hkey a b hg]
      exact ih.cons_cons (key a)

/-- Of the changed records no more have a property, if it was there before the change. -/
theorem countP_filterMap_le {g : α → Option α} {p q : α → Bool}
    (hq : ∀ a b, g a = some b → q b = true → p a = true) (l : List α) :
    (l.filterMap g).countP q ≤ l.countP p := by
  induction l with
  | nil => exact le_rfl
  | cons a l ih =>
    rcases hg : g a with _ | b
    · rw [List.filterMap_cons_none hg, List.countP_cons]
      exact ih.trans (Nat.le_add_right _ _)
    · rw [List.filterMap_cons_some hg, List.countP_cons, List.countP_cons]
      refine Nat.add_le_add ih ?_
      rcases hqb : q b with _ | _
      · exact Nat.zero_le _
      · rw [hq a b hg hqb]

variable [DecidableEq κ]

/-- Replaces the record with the key of `a` by `a`. -/
def put (key : α → κ) (a : α) (l : List α) : List α :=
  l.map fun b => if key b = key a then a else b

/-- Removes the record with key `k`. -/
def remove (key : α → κ) (k : κ) (l : List α) : List α := l.filter fun b => key b ≠ k

theorem keys_put (key : α → κ) (a : α) (l : List α) : keys key (put key a l) = keys key l := by
  rw [keys, keys, put, List.map_map]
  refine List.map_congr_left fun b _ => ?_
  rw [Function.comp_apply]
  split_ifs with h
  · exact h.symm
  · rfl

theorem nodup_put (h : (keys key l).Nodup) (a : α) : (keys key (put key a l)).Nodup := by
  rwa [keys_put]

theorem nodup_remove (h : (keys key l).Nodup) (k : κ) : (keys key (remove key k l)).Nodup :=
  h.sublist (List.filter_sublist.map key)

/-- Records with other keys are kept. -/
theorem put_of_notMem (h : ∀ b ∈ l, key b ≠ key a) : put key a l = l := by
  rw [put]
  conv_rhs => rw [← l.map_id]
  exact List.map_congr_left fun b hb => if_neg (h b hb)

theorem remove_of_notMem {k : κ} (h : ∀ b ∈ l, key b ≠ k) : remove key k l = l :=
  List.filter_eq_self.mpr fun b hb => decide_eq_true (h b hb)

/-- In a table, the first record with a key is the only one. -/
theorem eraseP_eq_remove (h : (keys key l).Nodup) (k : κ) :
    l.eraseP (fun b => key b = k) = remove key k l := by
  induction l with
  | nil => rfl
  | cons b l ih =>
    rw [List.eraseP_cons, remove, List.filter_cons]
    by_cases hb : key b = k
    · have hne : ∀ c ∈ l, key c ≠ k := hb ▸ forall_ne_of_nodup h
      simp only [hb, decide_true, cond_true, ne_eq, not_true_eq_false, decide_false,
        Bool.false_eq_true, if_false]
      exact (remove_of_notMem hne).symm
    · have htail : (keys key l).Nodup := (List.nodup_cons.mp h).2
      simp only [hb, decide_false, cond_false, ne_eq, not_false_eq_true, decide_true, if_true]
      rw [ih htail, remove]

/-- The total when a record is replaced. -/
theorem sum_put (h : (keys key l).Nodup) (hb : b ∈ l) (hkey : key b = key a) (f : α → ℕ) :
    ((put key a l).map f).sum + f b = (l.map f).sum + f a := by
  induction l with
  | nil => cases hb
  | cons c l ih =>
    have hput : put key a (c :: l) = (if key c = key a then a else c) :: put key a l := rfl
    have hne := forall_ne_of_nodup h
    rw [hput, List.map_cons, List.map_cons, List.sum_cons, List.sum_cons]
    rcases List.mem_cons.mp hb with rfl | hb
    · rw [if_pos hkey, put_of_notMem fun c hc => hkey ▸ hne c hc]
      omega
    · have := ih (List.nodup_cons.mp h).2 hb
      rw [if_neg fun hc => hne b hb (hkey.trans hc.symm)]
      omega

/-- The total when a record is removed. -/
theorem sum_remove (h : (keys key l).Nodup) (hb : b ∈ l) (f : α → ℕ) :
    ((remove key (key b) l).map f).sum + f b = (l.map f).sum := by
  induction l with
  | nil => cases hb
  | cons c l ih =>
    have hne := forall_ne_of_nodup h
    rw [List.map_cons, List.sum_cons]
    rcases List.mem_cons.mp hb with rfl | hb
    · rw [remove, List.filter_cons_of_neg (by simp), ← remove, remove_of_notMem hne]
      omega
    · have := ih (List.nodup_cons.mp h).2 hb
      rw [remove, List.filter_cons_of_pos (by simpa using (hne b hb).symm), ← remove,
        List.map_cons, List.sum_cons]
      omega

end Keyed
