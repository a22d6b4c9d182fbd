import Mathlib.Algebra.GroupWithZero.Nat
import Mathlib.Data.List.Basic
import Mathlib.Data.Nat.Basic

/-!
# Files of records

A list of values is saved as a file of records, each after its length in four bytes, the least
significant one first. Values that need not be kept are not saved, and values that are out of date
are not loaded. Both loops stop at the first error.

* **`Format`** — how one value is written and read;
* **`Format.save`**, **`Format.load`** — the two loops;
* **`Format.load_record`** — what the second loop does with one record;
* **`Format.roundTrips_iff_values`** — what was saved is loaded exactly if each value that is kept
  is restored from its own record.
-/

namespace RecordFile

variable {α ε : Type*}

/-- The four bytes of a length. -/
def sizeBytes (n : ℕ) : List UInt8 :=
  [UInt8.ofNat n, UInt8.ofNat (n / 256), UInt8.ofNat (n / 65536), UInt8.ofNat (n / 16777216)]

/-- The length that is read, and what follows it. There is none at the end of the file. -/
def readSize : List UInt8 → Option (ℕ × List UInt8)
  | b0 :: b1 :: b2 :: b3 :: F =>
    some (b0.toNat + 256 * b1.toNat + 65536 * b2.toNat + 16777216 * b3.toNat, F)
  | _ => none

theorem readSize_sizeBytes {n : ℕ} (hn : n < 4294967296) (F : List UInt8) :
    readSize (sizeBytes n ++ F) = some (n, F) := by
  simp only [sizeBytes, readSize, List.cons_append, List.nil_append, UInt8.toNat_ofNat']
  refine congrArg some (Prod.ext ?_ rfl)
  change n % 2 ^ 8 + 256 * (n / 256 % 2 ^ 8) + 65536 * (n / 65536 % 2 ^ 8) +
    16777216 * (n / 16777216 % 2 ^ 8) = n
  omega

/-- How a value is written as a record and read from one, with the number of bytes that were
consumed; which lengths are accepted; and the error for a file that is not accepted. -/
structure Format (α ε : Type*) where
  encode : α → Except ε (List UInt8)
  decode : List UInt8 → Except ε (α × ℕ)
  accepts : ℕ → Bool
  badFile : ε

namespace Format

variable {f : Format α ε} {keep expired : α → Bool} {x : α} {l : List α} {b F : List UInt8} {n : ℕ}

/-- The values that are kept are saved. The result is the error, if there is one, and the file. -/
def save (f : Format α ε) (keep : α → Bool) : List α → Option ε × List UInt8
  | [] => (none, [])
  | x :: l =>
    if keep x then
      match f.encode x with
      | .error e => (some e, [])
      | .ok b =>
        let (e, F) := f.save keep l
        (e, sizeBytes b.length ++ (b ++ F))
    else f.save keep l

/-- The loop that loads records, in at most `n` rounds. The result is the error, if there is one,
and what was loaded before it. -/
def loadLoop (f : Format α ε) (expired : α → Bool) : ℕ → List UInt8 → Option ε × List α
  | 0, _ => (none, [])
  | n + 1, F =>
    match readSize F with
    | none => (none, [])
    | some (size, F) =>
      if !f.accepts size then (some f.badFile, [])
      else if F.length < size then (some f.badFile, [])
      else
        match f.decode (F.take size) with
        | .error e => (some e, [])
        | .ok (x, consumed) =>
          if consumed ≠ size then (some f.badFile, [])
          else
            let (e, l) := f.loadLoop expired n (F.drop size)
            (e, if expired x then l else x :: l)

/-- A file is loaded. Each round reads at least one byte. -/
def load (f : Format α ε) (expired : α → Bool) (F : List UInt8) : Option ε × List α :=
  f.loadLoop expired F.length F

/-- What is loaded from a file with this record in front, where `rest` is what is loaded from the
rest. -/
def loadCons (f : Format α ε) (expired : α → Bool) (b : List UInt8) (rest : Option ε × List α) :
    Option ε × List α :=
  if !f.accepts b.length then (some f.badFile, [])
  else
    match f.decode b with
    | .error e => (some e, [])
    | .ok (x, consumed) =>
      if consumed ≠ b.length then (some f.badFile, [])
      else (rest.1, if expired x then rest.2 else x :: rest.2)

/-- **One record** is read. -/
theorem load_record (hb : b.length < 4294967296) :
    f.loadLoop expired (n + 1) (sizeBytes b.length ++ (b ++ F)) =
      f.loadCons expired b (f.loadLoop expired n F) := by
  rw [loadLoop, readSize_sizeBytes hb, loadCons]
  have hlen : ¬ (b ++ F).length < b.length := by
    rw [List.length_append]
    exact Nat.not_lt.mpr (Nat.le_add_right _ _)
  simp only [hlen, if_false, List.take_left, List.drop_left]

/-- The value is restored from its own record. -/
def Restores (f : Format α ε) (x : α) : Prop :=
  ∃ b, f.encode x = .ok b ∧ f.accepts b.length = true ∧ f.decode b = .ok (x, b.length)

/-- What is saved without an error is loaded without an error, and is the same. -/
def RoundTrips (f : Format α ε) (keep expired : α → Bool) (l : List α) : Prop :=
  (f.save keep l).1 = none ∧ f.load expired (f.save keep l).2 = (none, l.filter keep)

/-- A value that is not expired is loaded before the rest exactly if it is restored. -/
theorem loadCons_eq (hx : expired x = false) (hb : f.encode x = .ok b) {rest : Option ε × List α}
    (hrest : rest.2.length ≤ l.length) :
    f.loadCons expired b rest = (none, x :: l) ↔ f.Restores x ∧ rest = (none, l) := by
  constructor
  · intro h
    rw [loadCons] at h
    split_ifs at h with haccepts
    · cases (Prod.ext_iff.mp h).1
    split at h
    next e he => cases (Prod.ext_iff.mp h).1
    next y consumed hy =>
      split_ifs at h with hconsumed hexpired
      · cases (Prod.ext_iff.mp h).1
      · -- If another value was loaded and dropped, there are too few.
        have hl := congrArg List.length (Prod.ext_iff.mp h).2
        rw [List.length_cons] at hl
        exact absurd hl (Nat.ne_of_lt (Nat.lt_succ_of_le hrest))
      · obtain ⟨he, hl⟩ := Prod.ext_iff.mp h
        obtain ⟨rfl, htail⟩ := List.cons.inj hl
        rw [not_not] at hconsumed
        rw [Bool.not_eq_true', Bool.not_eq_false] at haccepts
        exact ⟨⟨b, hb, haccepts, hconsumed ▸ hy⟩, Prod.ext he htail⟩
  · rintro ⟨⟨b', hb', haccepts, hdecode⟩, rfl⟩
    obtain rfl : b = b' := Except.ok.inj (hb.symm.trans hb')
    rw [loadCons, haccepts, hdecode]
    simp [hx]

/-- Loading one record adds at most one value. -/
theorem loadCons_length_le (rest : Option ε × List α) :
    (f.loadCons expired b rest).2.length ≤ rest.2.length + 1 := by
  rw [loadCons]
  split_ifs
  · exact Nat.zero_le _
  · split
    · exact Nat.zero_le _
    · split_ifs
      · exact Nat.zero_le _
      · exact Nat.le_succ _
      · exact le_rfl

section

variable (hsize : ∀ x b, f.encode x = .ok b → b.length < 4294967296)

include hsize

/-- No more values are loaded than were saved. -/
theorem length_load_save (n : ℕ)
    (l : List α) :
    (f.loadLoop expired n (f.save keep l).2).2.length ≤ (l.filter keep).length := by
  induction l generalizing n with
  | nil => cases n <;> exact le_rfl
  | cons x l ih =>
    rw [save]
    by_cases hx : keep x = true
    · rw [if_pos hx, List.filter_cons_of_pos hx, List.length_cons]
      cases hb : f.encode x with
      | error e => cases n <;> exact Nat.zero_le _
      | ok b =>
        cases n with
        | zero => exact Nat.zero_le _
        | succ n =>
          change (f.loadLoop expired (n + 1) (sizeBytes b.length ++ (b ++ _))).2.length ≤ _
          rw [load_record (hsize x b hb)]
          exact Nat.le_trans (loadCons_length_le _) (Nat.succ_le_succ (ih n))
    · rw [if_neg hx, List.filter_cons_of_neg hx]
      exact ih n

/-- The round trip of the loops, in any number of rounds that is large enough. -/
theorem roundTrips_loop
    (hkeep : ∀ x, keep x = true → expired x = false) (l : List α)
    (hn : (f.save keep l).2.length ≤ n) :
    ((f.save keep l).1 = none ∧
        f.loadLoop expired n (f.save keep l).2 = (none, l.filter keep)) ↔
      ∀ x ∈ l, keep x = true → f.Restores x := by
  induction l generalizing n with
  | nil =>
    refine iff_of_true ⟨rfl, ?_⟩ fun x hx => absurd hx List.not_mem_nil
    cases n <;> rfl
  | cons x l ih =>
    rw [List.forall_mem_cons]
    by_cases hx : keep x = true
    · rw [List.filter_cons_of_pos hx, forall_prop_of_true hx]
      cases hb : f.encode x with
      | error e =>
        rw [save, if_pos hx, hb]
        refine iff_of_false (fun h => by cases h.1) ?_
        rintro ⟨⟨b, hb', -⟩, -⟩
        cases hb.symm.trans hb'
      | ok b =>
        have hsave : f.save keep (x :: l) =
            ((f.save keep l).1, sizeBytes b.length ++ (b ++ (f.save keep l).2)) := by
          rw [save, if_pos hx, hb]
        rw [hsave] at hn ⊢
        simp only [sizeBytes, List.length_append, List.length_cons, List.length_nil] at hn
        obtain ⟨n, rfl⟩ : ∃ m, n = m + 1 := ⟨n - 1, by omega⟩
        rw [load_record (hsize x b hb), loadCons_eq (hkeep x hx) hb (length_load_save hsize n l),
          and_left_comm, ih (by omega)]
    · have hsave : f.save keep (x :: l) = f.save keep l := by rw [save, if_neg hx]
      rw [hsave] at hn ⊢
      rw [List.filter_cons_of_neg hx, ih hn]
      exact (and_iff_right fun h => absurd h hx).symm

/-- **The round trip of a list.** -/
theorem roundTrips_iff_values
    (hkeep : ∀ x, keep x = true → expired x = false) (l : List α) :
    f.RoundTrips keep expired l ↔ ∀ x ∈ l, keep x = true → f.Restores x :=
  roundTrips_loop hsize hkeep l le_rfl

end

end Format

end RecordFile
