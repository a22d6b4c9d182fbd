import Mathlib.Data.List.Basic

/-!
# Slices of a list

A list `bytes` is the slice of a list `B` at position `off` when `B` continues from `off` on with
`bytes`. Fragments of a transmission are such slices; the rules below cut them and put them
together.

* **`IsSliceAt.drop`**, **`IsSliceAt.take`** — a part of a slice is a slice;
* **`IsSliceAt.take_append`** — a prefix and the slice that starts at its end make a prefix;
* **`IsSliceAt.extend`**, **`IsSliceAt.last`** — slices of a list that is continued.
-/

variable {α : Type*}

/-- `bytes` is what `B` holds from position `off` on. -/
structure IsSliceAt (B : List α) (off : ℕ) (bytes : List α) : Prop where
  le_length : off ≤ B.length
  isPrefix : bytes <+: B.drop off

namespace IsSliceAt

variable {B bytes : List α} {off k : ℕ}

theorem nil (h : off ≤ B.length) : IsSliceAt B off [] := ⟨h, List.nil_prefix⟩

section

variable (h : IsSliceAt B off bytes)

include h

/-- A slice ends within the list. -/
theorem end_le : off + bytes.length ≤ B.length := by
  have h1 := h.isPrefix.length_le
  have h2 := h.le_length
  rw [List.length_drop] at h1
  omega

/-- The end of a slice is a slice. -/
theorem drop (hk : k ≤ bytes.length) :
    IsSliceAt B (off + k) (bytes.drop k) := by
  have hend := h.end_le
  refine ⟨by omega, ?_⟩
  obtain ⟨rest, hrest⟩ := h.isPrefix
  rw [← List.drop_drop, ← hrest, List.drop_append_of_le_length hk]
  exact List.prefix_append _ _

/-- The begin of a slice is a slice. -/
theorem take (k : ℕ) : IsSliceAt B off (bytes.take k) :=
  ⟨h.le_length, (List.take_prefix k bytes).trans h.isPrefix⟩

/-- **Assembly.** A prefix followed by the slice at its end is a prefix. -/
theorem take_append :
    B.take off ++ bytes = B.take (off + bytes.length) := by
  rw [List.take_add, ← List.prefix_iff_eq_take.mp h.isPrefix]

/-- A slice stays one when the list is continued. -/
theorem extend (rest : List α) : IsSliceAt (B ++ rest) off bytes := by
  refine ⟨Nat.le_trans h.le_length (by simp), ?_⟩
  rw [List.drop_append_of_le_length h.le_length]
  exact h.isPrefix.trans (List.prefix_append _ _)

end

/-- What continues a list is the slice at its end. -/
theorem last (B bytes : List α) : IsSliceAt (B ++ bytes) B.length bytes :=
  ⟨by simp, by simp⟩

end IsSliceAt
