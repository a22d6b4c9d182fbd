import Picoquic.ForMathlib.RecordFile
import Picoquic.Quic.RetryToken
import Picoquic.Transport.Fields

/-!
# Records of the stores

Session tickets and address tokens are kept in lists, and saved in files, one record each. The
fields of a record whose length varies come after their lengths.

* **`RecordCursor.field`** — a field is read, if the record is long enough;
* **`storeFirst`** — what is stored replaces what it makes obsolete;
* **`recordFormat`** — the bounds for the size of a record, when it is saved and when it is loaded.
-/

namespace Picoquic

open RecordFile

/-- The errors of the stores. -/
inductive StoreError
  /-- `PICOQUIC_ERROR_FRAME_BUFFER_TOO_SMALL`. -/
  | frameBufferTooSmall
  /-- `PICOQUIC_ERROR_INVALID_TICKET`. -/
  | invalidTicket
  /-- `PICOQUIC_ERROR_INVALID_TOKEN`. -/
  | invalidToken
  /-- `PICOQUIC_ERROR_INVALID_FILE`. -/
  | invalidFile

/-! ### Fields -/

/-- A position in a record of `bytes_max` bytes: the length that is required so far, and what
follows the position. -/
structure RecordCursor where
  requiredLength : ℕ
  rest : List UInt8

namespace RecordCursor

/-- Bytes of a fixed length are skipped, if more bytes than required so far are there. -/
def skip (c : RecordCursor) (bytesMax n : ℕ) : RecordCursor :=
  if c.requiredLength < bytesMax then { c with rest := c.rest.drop n } else c

/-- A field is read after its length, which takes `width` bytes, if more bytes than required so far
are there. -/
def field (c : RecordCursor) (bytesMax width : ℕ) (parse : List UInt8 → ℕ) :
    List UInt8 × RecordCursor :=
  if c.requiredLength < bytesMax then
    let length := parse c.rest
    ((c.rest.drop width).take length,
      ⟨c.requiredLength + length, c.rest.drop (width + length)⟩)
  else ([], c)

variable {lead xs rest : List UInt8}

theorem skip_spec {c : RecordCursor} (bytesMax : ℕ) {n : ℕ} (hn : lead.length = n)
    (hrest : c.requiredLength < bytesMax → c.rest = lead ++ rest) :
    ∃ c', c.skip bytesMax n = c' ∧ c'.requiredLength = c.requiredLength ∧
      (c'.requiredLength < bytesMax → c'.rest = rest) := by
  by_cases h : c.requiredLength < bytesMax
  · refine ⟨_, if_pos h, rfl, fun _ => ?_⟩
    rw [hrest h, List.drop_left' hn]
  · exact ⟨_, if_neg h, rfl, fun h' => absurd h' h⟩

/-- **A field.** Where it is not read, because nothing more is there, it is empty. -/
theorem field_spec {c : RecordCursor} {bytesMax : ℕ} (width : ℕ) (parse : List UInt8 → ℕ)
    (hwidth : lead.length = width)
    (hparse : parse (lead ++ (xs ++ rest)) = xs.length)
    (hmax : c.requiredLength + xs.length ≤ bytesMax)
    (hrest : c.requiredLength < bytesMax → c.rest = lead ++ (xs ++ rest)) :
    ∃ c', c.field bytesMax width parse = (xs, c') ∧
      c'.requiredLength = c.requiredLength + xs.length ∧
      (c'.requiredLength < bytesMax → c'.rest = rest) := by
  by_cases h : c.requiredLength < bytesMax
  · refine ⟨⟨c.requiredLength + xs.length, rest⟩, ?_, rfl, fun _ => rfl⟩
    have hafter : (lead ++ (xs ++ rest)).drop (width + xs.length) = rest := by
      rw [← List.drop_drop, List.drop_left' hwidth, List.drop_left]
    simp only [field, if_pos h, hrest h, hparse, List.drop_left' hwidth, List.take_left, hafter]
  · have hxs : xs = [] := List.eq_nil_of_length_eq_zero (by omega)
    refine ⟨c, ?_, ?_, fun h' => absurd h' h⟩
    · rw [field, if_neg h, hxs]
    · rw [hxs, List.length_nil, Nat.add_zero]

end RecordCursor

theorem parse16_bytes {n : ℕ} (hn : n < 2 ^ 16) (rest : List UInt8) :
    (parse16 (uint16Bytes n ++ rest) : ℕ) = n :=
  congrArg Fin.val (parse16_uint16Bytes ⟨n, hn⟩ rest)

/-! ### Lists -/

/-- What is stored is the first one of the list, and what it makes obsolete is removed. -/
def storeFirst {α : Type} (obsolete : α → Bool) (stored : α) (first : List α) : List α :=
  stored :: first.filter fun next => !obsolete next

/-! ### Files -/

/-- The format of a file whose records are serialized into a buffer of 2048 bytes, and must leave
room for `offset` more bytes when they are loaded. -/
def recordFormat {α : Type} (serialize : α → ℕ → Except StoreError (List UInt8))
    (deserialize : List UInt8 → Except StoreError (α × ℕ)) (offset : ℕ) :
    Format α StoreError where
  encode x := serialize x 2048
  decode := deserialize
  accepts storageSize := !(2048 < storageSize || 2048 < (storageSize + offset) % 2 ^ 32)
  badFile := .invalidFile

section

variable {α : Type} {serialize : α → ℕ → Except StoreError (List UInt8)}
  {deserialize : List UInt8 → Except StoreError (α × ℕ)} {offset n : ℕ} {record : α → List UInt8}

theorem recordFormat_accepts (hoffset : offset < 2048) :
    (recordFormat serialize deserialize offset).accepts n = true ↔ n + offset ≤ 2048 := by
  rw [recordFormat, Bool.not_eq_true', Bool.or_eq_false_iff, decide_eq_false_iff_not,
    decide_eq_false_iff_not]
  omega

/-- A value is restored exactly if a file may hold its record, and the record is read back. -/
theorem recordFormat_restores {x : α} (hoffset : offset < 2048)
    (hserialize : ∀ x n bytes,
      serialize x n = .ok bytes ↔ (record x).length ≤ n ∧ bytes = record x) :
    (recordFormat serialize deserialize offset).Restores x ↔
      (record x).length + offset ≤ 2048 ∧ deserialize (record x) = .ok (x, (record x).length) := by
  constructor
  · rintro ⟨bytes, hbytes, haccepted, hdecode⟩
    obtain ⟨-, rfl⟩ := (hserialize _ _ _).mp hbytes
    exact ⟨(recordFormat_accepts hoffset).mp haccepted, hdecode⟩
  · rintro ⟨hsize, hdecode⟩
    exact ⟨record x, (hserialize _ _ _).mpr ⟨by omega, rfl⟩,
      (recordFormat_accepts hoffset).mpr hsize, hdecode⟩

/-- The size of a record fits its four bytes. -/
theorem recordFormat_size (hserialize : ∀ x n bytes,
      serialize x n = .ok bytes ↔ (record x).length ≤ n ∧ bytes = record x) (x : α)
    (bytes : List UInt8) (h : (recordFormat serialize deserialize offset).encode x = .ok bytes) :
    bytes.length < 4294967296 := by
  obtain ⟨hle, rfl⟩ := (hserialize _ _ _).mp h
  omega

end

end Picoquic
