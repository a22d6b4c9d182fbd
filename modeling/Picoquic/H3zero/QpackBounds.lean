import Picoquic.H3zero.Qpack

/-!
# Accesses of the header parser

Which header blocks are parsed without a fault.

* **`parseFieldLine_isOk_iff`** — a field line is, unless it refers to the entry after the last one
  of the static table, or the block ends where its value should begin;
* **`Comes`** — the field lines that the parser comes to;
* **`header_frame_isOk_iff`** — exactly the blocks are in which it comes to no other line;
* **`entry_99_accepted`** — a reference to the entry after the last one is accepted.
-/

namespace Picoquic

namespace H3zero

variable {bytes block rest : List UInt8} {parts : HeaderParts} {first : UInt8} {n : ℕ}

/-- No fault occurred. -/
def IsOk {α : Type*} (r : Except Fault α) : Prop := ∃ x, r = .ok x

theorem isOk_ok {α : Type*} (x : α) : IsOk (.ok x : Except Fault α) := ⟨x, rfl⟩

theorem not_isOk_error {α : Type*} (e : Fault) : ¬ IsOk (.error e : Except Fault α) := by
  rintro ⟨x, h⟩
  cases h

/-- A line refers to the entry after the last one. -/
def RefersPastEnd (first : UInt8) (rest : List UInt8) : Prop :=
  first &&& 0xC0 = 0xC0 ∧ (qpackIntDecode (first :: rest) 0x3F).2 = 99 ∨
    first &&& 0xD0 = 0x50 ∧ ∃ bytes, qpackIntDecode (first :: rest) 0x0F = (some bytes, 99)

/-- The block ends after the name of a literal. -/
def EndsAfterName (first : UInt8) (rest : List UInt8) : Prop :=
  first &&& 0xD0 = 0x50 ∧
      (∃ index, index < 99 ∧ qpackIntDecode (first :: rest) 0x0F = (some [], index)) ∨
    first &&& 0xE0 = 0x20 ∧
      ∃ name, qpackIntDecode (first :: rest) 0x07 = (some name, name.length)

variable {header : HttpHeader} {sIndex : ℕ} {parts' : HeaderParts}

/-- A value is read without a fault if there is anything to read. -/
theorem parseQpackHeaderValue_isOk_iff :
    IsOk (parseQpackHeaderValue bytes header parts) ↔ bytes ≠ [] := by
  cases bytes with
  | nil => exact iff_of_false (not_isOk_error _) (fun h => h rfl)
  | cons b bytes =>
    refine iff_of_true ?_ (List.cons_ne_nil _ _)
    rw [parseQpackHeaderValue]
    split
    · exact isOk_ok _
    · split
      · exact isOk_ok _
      · dsimp only
        split <;> exact isOk_ok _

/-- The entry with the number of the entries is not there. -/
theorem staticEntry_isOk_iff : IsOk (staticEntry sIndex) ↔ sIndex ≠ 99 := by
  rw [staticEntry, qpackNbStatic_eq]
  split
  · refine iff_of_true (isOk_ok _) ?_
    omega
  · rename_i hle
    split
    · rename_i hnone
      refine iff_of_false (not_isOk_error _) (not_not.mpr ?_)
      have hlen : 99 ≤ sIndex := List.getElem?_eq_none_iff.mp hnone
      omega
    · rename_i entry hentry
      refine iff_of_true (isOk_ok _) ?_
      have hlen : sIndex < 99 := (List.getElem?_eq_some_iff.mp hentry).1
      omega

/-- An entry that is found has an index of the table. -/
theorem lt_of_staticEntry {entry : QpackStatic} (h : staticEntry sIndex = .ok (some entry)) :
    sIndex < 99 := by
  rw [staticEntry] at h
  split at h
  · cases h
  · split at h
    · cases h
    · rename_i entry' hentry
      exact (List.getElem?_eq_some_iff.mp hentry).1

theorem exists_staticEntry (h : sIndex < 99) : ∃ entry, staticEntry sIndex = .ok (some entry) := by
  have hlt : sIndex < qpackStatic.length := h
  refine ⟨qpackStatic[sIndex], ?_⟩
  rw [staticEntry, qpackNbStatic_eq, if_neg (by omega), List.getElem?_eq_getElem hlt]

theorem parseIndexed_isOk_iff :
    IsOk (parseIndexed bytes parts) ↔ (qpackIntDecode bytes 0x3F).2 ≠ 99 := by
  rw [parseIndexed, ← staticEntry_isOk_iff]
  dsimp only
  split
  · rename_i e he
    rw [he]
    exact iff_of_false (not_isOk_error _) (not_isOk_error _)
  · rename_i he
    rw [he]
    exact iff_of_true (isOk_ok _) (isOk_ok _)
  · rename_i entry he
    rw [he]
    refine iff_of_true ?_ (isOk_ok _)
    split <;> exact isOk_ok _

theorem parseNameReference_isOk_iff :
    IsOk (parseNameReference bytes parts) ↔
      (¬ ∃ bytes', qpackIntDecode bytes 0x0F = (some bytes', 99)) ∧
        ¬ ∃ index, index < 99 ∧ qpackIntDecode bytes 0x0F = (some [], index) := by
  rw [parseNameReference]
  rcases hdecode : qpackIntDecode bytes 0x0F with ⟨_ | bytes', sIndex⟩
  · refine iff_of_true (isOk_ok _) ⟨?_, ?_⟩
    · rintro ⟨bytes', h⟩
      cases h
    · rintro ⟨index, -, h⟩
      cases h
  · dsimp only
    split
    · rename_i e he
      refine iff_of_false (not_isOk_error _) fun h => h.1 ⟨bytes', ?_⟩
      have h99 : ¬ sIndex ≠ 99 := fun hne => by
        obtain ⟨x, hx⟩ := staticEntry_isOk_iff.mpr hne
        cases he.symm.trans hx
      rw [not_not.mp h99]
    · rename_i he
      refine iff_of_true (isOk_ok _) ⟨?_, ?_⟩
      · rintro ⟨bytes'', h⟩
        obtain ⟨-, h99⟩ := Prod.mk.inj h
        exact staticEntry_isOk_iff.mp ⟨_, he⟩ h99
      · rintro ⟨index, hlt, h⟩
        obtain ⟨-, rfl⟩ := Prod.mk.inj h
        obtain ⟨entry, hentry⟩ := exists_staticEntry hlt
        cases he.symm.trans hentry
    · rename_i entry he
      rw [parseQpackHeaderValue_isOk_iff]
      have hlt := lt_of_staticEntry he
      constructor
      · intro hne
        refine ⟨?_, ?_⟩
        · rintro ⟨bytes'', h⟩
          obtain ⟨-, h99⟩ := Prod.mk.inj h
          omega
        · rintro ⟨index, -, h⟩
          exact hne (Option.some.inj (Prod.mk.inj h).1)
      · rintro ⟨-, h⟩ rfl
        exact h ⟨sIndex, hlt, rfl⟩

theorem parseLiteral_isOk_iff :
    IsOk (parseLiteral first bytes parts) ↔
      ¬ ∃ name, qpackIntDecode bytes 0x07 = (some name, name.length) := by
  rw [parseLiteral]
  rcases hdecode : qpackIntDecode bytes 0x07 with ⟨_ | bytes', nLength⟩
  · refine iff_of_true (isOk_ok _) ?_
    rintro ⟨name, h⟩
    cases h
  · dsimp only
    split
    · rename_i hlt
      refine iff_of_true (isOk_ok _) ?_
      rintro ⟨name, h⟩
      obtain ⟨h1, h2⟩ := Prod.mk.inj h
      rw [Option.some.inj h1] at hlt
      omega
    · rename_i hle
      rw [parseQpackHeaderValue_isOk_iff, ne_eq, not_iff_not, List.drop_eq_nil_iff]
      constructor
      · intro h
        exact ⟨bytes', by rw [show nLength = bytes'.length by omega]⟩
      · rintro ⟨name, h⟩
        obtain ⟨h1, h2⟩ := Prod.mk.inj h
        rw [Option.some.inj h1]
        exact Nat.le_of_eq h2.symm

theorem and_C0_of_D0 (h : first &&& 0xD0 = 0x50) : first &&& 0xC0 = 0x40 := by
  have hand : first &&& 0xC0 = (first &&& 0xD0) &&& 0xC0 := by rw [UInt8.and_assoc]; rfl
  rw [hand, h]
  rfl

theorem and_C0_of_E0 (h : first &&& 0xE0 = 0x20) : first &&& 0xC0 = 0 := by
  have hand : first &&& 0xC0 = (first &&& 0xE0) &&& 0xC0 := by rw [UInt8.and_assoc]; rfl
  rw [hand, h]
  rfl

/-- **A field line** is parsed without a fault, unless it refers to the entry after the last one, or
the block ends after its name. -/
theorem parseFieldLine_isOk_iff :
    IsOk (parseFieldLine first rest parts) ↔
      ¬ RefersPastEnd first rest ∧ ¬ EndsAfterName first rest := by
  rw [parseFieldLine, RefersPastEnd, EndsAfterName]
  by_cases h1 : first &&& 0xC0 = 0xC0
  · have h2 : ¬ first &&& 0xD0 = 0x50 := fun h => by
      cases h1.symm.trans (and_C0_of_D0 h)
    have h3 : ¬ first &&& 0xE0 = 0x20 := fun h => by
      cases h1.symm.trans (and_C0_of_E0 h)
    rw [if_pos h1, parseIndexed_isOk_iff]
    simp [h1, h2, h3]
  · by_cases h2 : first &&& 0xD0 = 0x50
    · have h3 : ¬ first &&& 0xE0 = 0x20 := fun h => by
        cases (and_C0_of_D0 h2).symm.trans (and_C0_of_E0 h)
      rw [if_neg h1, if_pos h2, parseNameReference_isOk_iff]
      simp [h1, h2, h3]
    · by_cases h3 : first &&& 0xE0 = 0x20
      · rw [if_neg h1, if_neg h2, if_pos h3, parseLiteral_isOk_iff]
        simp [h1, h2, h3]
      · rw [if_neg h1, if_neg h2, if_neg h3]
        refine iff_of_true (isOk_ok _) ?_
        simp [h1, h2, h3]

/-! ### The loop -/

variable {bytes' : List UInt8}

theorem length_qpackIntDecodeLoop {shift v v' : ℕ}
    (h : qpackIntDecodeLoop bytes shift v = some (bytes', v')) : bytes'.length < bytes.length := by
  induction bytes generalizing shift v with
  | nil => cases h
  | cons b bytes ih =>
    rw [qpackIntDecodeLoop] at h
    split at h
    · cases h
    · dsimp only at h
      split at h
      · obtain ⟨rfl, -⟩ := Prod.mk.inj (Option.some.inj h)
        exact Nat.lt_succ_self _
      · exact Nat.lt_succ_of_lt (ih h)

/-- An integer takes a byte. -/
theorem length_qpackIntDecode {mask : UInt8} {v : ℕ}
    (h : qpackIntDecode bytes mask = (some bytes', v)) : bytes'.length < bytes.length := by
  cases bytes with
  | nil => cases h
  | cons b bytes =>
    rw [qpackIntDecode] at h
    split at h
    · split at h
      · cases h
      · rename_i hloop
        obtain ⟨h1, -⟩ := Prod.mk.inj h
        obtain rfl := Option.some.inj h1
        exact Nat.lt_succ_of_lt (length_qpackIntDecodeLoop hloop)
    · obtain ⟨h1, -⟩ := Prod.mk.inj h
      obtain rfl := Option.some.inj h1
      exact Nat.lt_succ_self _

theorem length_parseQpackHeaderValue
    (h : parseQpackHeaderValue bytes header parts = .ok (some bytes', parts')) :
    bytes'.length < bytes.length := by
  cases bytes with
  | nil => cases h
  | cons b bytes =>
    rw [parseQpackHeaderValue] at h
    split at h
    · cases h
    · rename_i hdecode
      split at h
      · cases h
      · dsimp only at h
        split at h
        · cases h
        · obtain ⟨h1, -⟩ := Prod.mk.inj (Except.ok.inj h)
          obtain rfl := Option.some.inj h1
          have hlt := length_qpackIntDecode hdecode
          rw [List.length_drop]
          omega

/-- A field line takes a byte. -/
theorem length_parseFieldLine (h : parseFieldLine first rest parts = .ok (some bytes', parts')) :
    bytes'.length ≤ rest.length := by
  refine Nat.le_of_lt_succ ?_
  change bytes'.length < (first :: rest).length
  rw [parseFieldLine] at h
  split at h
  · rw [parseIndexed] at h
    dsimp only at h
    split at h
    · cases h
    · cases h
    · split at h
      · cases h
      · obtain ⟨h1, -⟩ := Prod.mk.inj (Except.ok.inj h)
        exact length_qpackIntDecode (Prod.ext h1 rfl)
  · split at h
    · rw [parseNameReference] at h
      split at h
      · cases h
      · rename_i hdecode
        split at h
        · cases h
        · cases h
        · exact Nat.lt_trans (length_parseQpackHeaderValue h) (length_qpackIntDecode hdecode)
    · split at h
      · rw [parseLiteral] at h
        split at h
        · cases h
        · rename_i hdecode
          split at h
          · cases h
          · have hvalue := length_parseQpackHeaderValue h
            have hlt := length_qpackIntDecode hdecode
            rw [List.length_drop] at hvalue
            omega
      · cases h

/-- There are enough rounds for all field lines. -/
theorem parseFieldLines_of_le {fuel : ℕ} (h : bytes.length ≤ fuel) :
    parseFieldLines fuel bytes parts = parseFieldLines bytes.length bytes parts := by
  induction fuel using Nat.strongRecOn generalizing bytes parts with
  | ind fuel ih =>
    cases bytes with
    | nil => cases fuel <;> rfl
    | cons first rest =>
      obtain ⟨k, rfl⟩ : ∃ k, fuel = k + 1 := ⟨fuel - 1, by rw [List.length_cons] at h; omega⟩
      rw [List.length_cons] at h ⊢
      rw [parseFieldLines, parseFieldLines]
      rcases hline : parseFieldLine first rest parts with e | ⟨_ | bytes', parts'⟩
      · rfl
      · rfl
      · have hle := length_parseFieldLine hline
        dsimp only
        rw [ih k (Nat.lt_succ_self k) (by omega)]
        rcases Nat.lt_or_ge rest.length (k + 1) with hlt | hge
        · exact (ih rest.length hlt hle).symm
        · omega

/-- The parser comes to a field line of the block, with what was found before it. -/
inductive Comes (block : List UInt8) : List UInt8 → HeaderParts → Prop
  | first {rest bytes : List UInt8} {base : ℕ} (hblock : block = 0 :: rest)
    (hbase : qpackIntDecode rest 0x7F = (some bytes, base)) : Comes block bytes {}
  | next {first : UInt8} {rest bytes : List UInt8} {parts parts' : HeaderParts}
    (h : Comes block (first :: rest) parts)
    (hline : parseFieldLine first rest parts = .ok (some bytes, parts')) : Comes block bytes parts'

/-- Where the parser comes to in a block that it parses, it parses the rest. -/
theorem Comes.isOk (h : Comes block bytes parts) (hok : IsOk (parseQpackHeaderFrame block)) :
    IsOk (parseFieldLines bytes.length bytes parts) := by
  induction h with
  | first hblock hbase =>
    rw [hblock, parseQpackHeaderFrame, if_neg (by simp), hbase] at hok
    exact hok
  | @next first rest bytes parts parts' h hline ih =>
    rw [List.length_cons, parseFieldLines, hline] at ih
    dsimp only at ih
    rwa [parseFieldLines_of_le (length_parseFieldLine hline)] at ih

/-- **The accesses of the header parser.** A block is parsed without a fault exactly if no field
line that the parser comes to refers to the entry after the last one, and none ends the block after
its name. -/
theorem header_frame_isOk_iff (block : List UInt8) :
    IsOk (parseQpackHeaderFrame block) ↔
      ∀ first rest parts, Comes block (first :: rest) parts →
        ¬ RefersPastEnd first rest ∧ ¬ EndsAfterName first rest := by
  constructor
  · intro hok first rest parts h
    have hlines := h.isOk hok
    rw [← @parseFieldLine_isOk_iff _ parts]
    rcases hline : parseFieldLine first rest parts with e | x
    · rw [List.length_cons, parseFieldLines, hline] at hlines
      exact absurd hlines (not_isOk_error e)
    · exact isOk_ok x
  · intro hall
    have hlines : ∀ fuel bytes parts, Comes block bytes parts →
        IsOk (parseFieldLines fuel bytes parts) := by
      intro fuel
      induction fuel with
      | zero =>
        intro bytes parts _
        cases bytes <;> exact isOk_ok _
      | succ fuel ih =>
        intro bytes parts h
        cases bytes with
        | nil => exact isOk_ok _
        | cons first rest =>
          obtain ⟨⟨_ | bytes', parts'⟩, hline⟩ :=
            parseFieldLine_isOk_iff.mpr (hall first rest parts h)
          · rw [parseFieldLines, hline]
            exact isOk_ok _
          · rw [parseFieldLines, hline]
            exact ih bytes' parts' (h.next hline)
    cases block with
    | nil => exact isOk_ok _
    | cons insertCount bytes =>
      rw [parseQpackHeaderFrame]
      split
      · exact isOk_ok _
      · rename_i hzero
        split
        · exact isOk_ok _
        · rename_i bytes' base hbase
          refine hlines _ _ _ (Comes.first ?_ hbase)
          rw [not_not.mp hzero]

/-- **The entry after the last one is accepted**, and read: the block refers to it. The second block
ends after the name of a literal, where the first byte of its value is read. -/
theorem entry_99_accepted :
    parseQpackHeaderFrame [0, 0, 0xFF, 36] = .error .staticTable ∧
      parseQpackHeaderFrame [0, 0, 0x51] = .error .beyondEnd :=
  ⟨rfl, rfl⟩

end H3zero

end Picoquic
