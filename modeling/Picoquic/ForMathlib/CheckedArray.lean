import Mathlib.Data.List.Basic
import Mathlib.Data.Nat.Basic

/-!
# Arrays with checked accesses

An array is a list of its cells. A range of cells is read or written only if all of them belong to
the array, so that a program that goes through has made no access outside its arrays.

* **`readCells`**, **`writeCells`** — the two accesses;
* **`readCells_append`**, **`writeCells_append`** — both on an array that is cut at the range;
* **`exists_writeCells`** — a write behind cells that are known;
* **`zipWith_zipWith`** — a mask that is applied twice is taken off again.
-/

variable {α : Type*}

/-- The `n` cells from `off` on. -/
def readCells (a : List α) (off n : ℕ) : Option (List α) :=
  if off + n ≤ a.length then some ((a.drop off).take n) else none

/-- The array with `b` in the cells from `off` on. -/
def writeCells (a : List α) (off : ℕ) (b : List α) : Option (List α) :=
  if off + b.length ≤ a.length then some (a.take off ++ (b ++ a.drop (off + b.length))) else none

section CheckedArray

variable {a b m l r : List α} {off n : ℕ}

theorem readCells_append (hl : l.length = off) (hm : m.length = n) :
    readCells (l ++ (m ++ r)) off n = some m := by
  have hlen : off + n ≤ (l ++ (m ++ r)).length := by
    rw [List.length_append, List.length_append]
    omega
  rw [readCells, if_pos hlen, ← hl, List.drop_left, ← hm, List.take_left]

theorem writeCells_append (hl : l.length = off) (hm : m.length = b.length) :
    writeCells (l ++ (m ++ r)) off b = some (l ++ (b ++ r)) := by
  have hlen : off + b.length ≤ (l ++ (m ++ r)).length := by
    rw [List.length_append, List.length_append]
    omega
  rw [writeCells, if_pos hlen, ← hl, List.take_left, ← hm, ← List.drop_drop, List.drop_left,
    List.drop_left]

/-- A write behind the cells that an array begins with: it begins with what is written as well. -/
theorem exists_writeCells (hl : l <+: a) (hb : l.length + b.length ≤ a.length) :
    ∃ a', writeCells a l.length b = some a' ∧ a'.length = a.length ∧ l ++ b <+: a' := by
  obtain ⟨r, rfl⟩ := hl
  refine ⟨_, if_pos hb, ?_, ?_⟩
  · simp only [List.length_append, List.length_take, List.length_drop] at hb ⊢
    omega
  · rw [List.take_left, ← List.append_assoc]
    exact List.prefix_append _ _

/-- A write at the begin of an array. -/
theorem writeCells_zero (h : b.length ≤ a.length) :
    writeCells a 0 b = some (b ++ a.drop b.length) := by
  rw [writeCells, if_pos (by omega), Nat.zero_add, List.take_zero, List.nil_append]

/-- A read at the begin of an array. -/
theorem readCells_zero (h : n ≤ a.length) : readCells a 0 n = some (a.take n) := by
  rw [readCells, if_pos (by omega), List.drop_zero]

/-- An operation that undoes itself undoes itself cell by cell, if there is a cell of the mask for
each cell. -/
theorem zipWith_zipWith {f : α → α → α} (hf : ∀ x k, f (f x k) k = x) :
    ∀ {t k : List α}, t.length ≤ k.length → List.zipWith f (List.zipWith f t k) k = t
  | [], _, _ => rfl
  | _ :: _, [], h => absurd h (Nat.not_succ_le_zero _)
  | x :: t, y :: k, h => by
    rw [List.zipWith_cons_cons, List.zipWith_cons_cons, hf,
      zipWith_zipWith hf (Nat.le_of_succ_le_succ h)]

end CheckedArray
