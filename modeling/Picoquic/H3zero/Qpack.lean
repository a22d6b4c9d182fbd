import Mathlib.Algebra.Group.Nat.Defs
import Picoquic.H3zero.Tables

/-!
# Header blocks

The integers with a prefix and the field lines of QPACK, as far as they refer to the static table.
A pointer into a block is the list of the bytes from there to `bytes_max`, or `none` for `NULL`.
Reading at `bytes_max`, and reading the static table outside of its entries, are faults.

* **`qpackIntEncode`**, **`qpackIntDecode`** — integers;
* **`huffmanDecode`** — Huffman codes;
* **`parseFieldLine`** — one round of the loop over the field lines;
* **`parseQpackHeaderFrame`** — a whole block.

Lengths are below 2 ^ 64, and are added to pointers without wrapping around. Memory for a path is
available.
-/

namespace Picoquic

namespace H3zero

/-- What a program must not do. -/
inductive Fault
  /-- A byte at `bytes_max` is read or written. -/
  | beyondEnd
  /-- The static table is read outside of its entries. -/
  | staticTable
  deriving DecidableEq

/-! ### Integers -/

/-- The loop of `h3zero_qpack_int_encode`: the bytes of `val` after the first one, with space for
`space` bytes. -/
def qpackIntEncodeLoop (space val : ℕ) : Option (List UInt8) :=
  match space with
  | 0 => none
  | space + 1 =>
    if 0x80 ≤ val then
      (qpackIntEncodeLoop space (val / 0x80)).map
        fun bytes => (0x80 ||| UInt8.ofNat (val % 0x80)) :: bytes
    else some [UInt8.ofNat val]

/-- `h3zero_qpack_int_encode`: the bytes that are written, the first one over `first`. -/
def qpackIntEncode (space : ℕ) (first mask : UInt8) (val : ℕ) : Option (List UInt8) :=
  match space with
  | 0 => none
  | space + 1 =>
    if val < mask.toNat then some [first ||| UInt8.ofNat val]
    else (qpackIntEncodeLoop space (val - mask.toNat)).map fun bytes => (first ||| mask) :: bytes

/-- The loop of `h3zero_qpack_int_decode`. -/
def qpackIntDecodeLoop : List UInt8 → (shift v : ℕ) → Option (List UInt8 × ℕ)
  | [], _, _ => none
  | b :: bytes, shift, v =>
    if 62 ≤ shift then none
    else
      let v := v ||| (b &&& 0x7F).toNat <<< shift
      if b &&& 0x80 = 0 then some (bytes, v) else qpackIntDecodeLoop bytes (shift + 7) v

/-- `h3zero_qpack_int_decode`: the pointer and the value. -/
def qpackIntDecode (bytes : List UInt8) (mask : UInt8) : Option (List UInt8) × ℕ :=
  match bytes with
  | [] => (none, 0)
  | b :: bytes =>
    let val := (b &&& mask).toNat
    if val = mask.toNat then
      match qpackIntDecodeLoop bytes 0 0 with
      | none => (none, val)
      | some (bytes, v) => (some bytes, v + mask.toNat)
    else (some bytes, val)

/-! ### Huffman codes -/

/-- The bits of a byte, the most significant one first. -/
def bitsOf (b : UInt8) : List Bool := (List.range 8).map fun i => b.toNat.testBit (7 - i)

/-- Whether a position of the Huffman tables is that of an index. -/
def isIndexLocation (index : ℕ) : Bool :=
  (huffmanBit.getD (index / 8) 0).testBit (7 - index % 8)

/-- The size of the buffer for a text that is decoded. -/
def deHuffSize : ℕ := 256

/-- The loop of `hzero_qpack_huffman_decode`: the text, and whether it may end there. The bits are
those that are left of the input. After a value, position 0 is an index, and takes a bit. -/
def huffmanLoop : List Bool → (index : ℕ) → (decoded : List UInt8) → (wasAllOnes : Bool) →
    List UInt8 × Bool
  | [], index, decoded, wasAllOnes =>
    if isIndexLocation index then (decoded, wasAllOnes)
    else if decoded.length < deHuffSize then
      (decoded ++ [UInt8.ofNat (huffmanVal.getD index 0)], true)
    else (decoded, true)
  | bit :: bits, index, decoded, wasAllOnes =>
    if isIndexLocation index then
      let index' := if bit then index + huffmanVal.getD index 0 else index + 1
      let wasAllOnes := if bit then wasAllOnes else false
      if 512 ≤ index' then (decoded, wasAllOnes)
      else huffmanLoop bits index' decoded wasAllOnes
    else if decoded.length < deHuffSize then
      let decoded := decoded ++ [UInt8.ofNat (huffmanVal.getD index 0)]
      let index' := if bit then huffmanVal.getD 0 0 else 1
      if 512 ≤ index' then (decoded, bit) else huffmanLoop bits index' decoded bit
    else (decoded, true)

/-- `hzero_qpack_huffman_decode`, unless it fails. -/
def huffmanDecode (bytes : List UInt8) : Option (List UInt8) :=
  let (decoded, wasAllOnes) := huffmanLoop (bytes.flatMap bitsOf) 0 [] true
  if wasAllOnes then some decoded else none

/-! ### Values -/

/-- `h3zero_header_parts_t`. A path is `NULL` or its bytes. -/
structure HeaderParts where
  method : H3Method := .none
  path : Option (List UInt8) := none
  status : ℤ := 0
  contentType : H3ContentType := .none
  deriving DecidableEq

/-- The entry among those with the given indices that has a name as its content. -/
def entryByName (indices : List ℕ) (name : List UInt8) : Option QpackStatic :=
  (indices.filterMap fun i => qpackStatic[i]?).find? fun entry => entry.content = some name

/-- `h3zero_get_method_by_name`. -/
def getMethodByName (name : List UInt8) : H3Method :=
  match entryByName [15, 16, 17, 18, 19, 20, 21] name with
  | some entry => .ofCode entry.enumAsInt
  | none => .notSupported

/-- `h3zero_get_content_type_by_name`. -/
def getContentTypeByName (name : List UInt8) : H3ContentType :=
  match entryByName [44, 45, 46, 47, 48, 49, 50, 51, 52, 53, 54] name with
  | some entry => .ofCode entry.enumAsInt
  | none => .notSupported

/-- Reduction to `int`. -/
def int32 (n : ℤ) : ℤ := Int.bmod n (2 ^ 32)

/-- The loop of `h3zero_parse_status`. -/
def parseStatusLoop : List UInt8 → ℤ → ℤ
  | [], val => val
  | c :: content, val =>
    if 48 ≤ c ∧ c ≤ 57 then parseStatusLoop content (int32 (int32 (val * 10) + (c.toNat - 48)))
    else -1

/-- `h3zero_parse_status`. -/
def parseStatus (content : List UInt8) : ℤ := parseStatusLoop content 0

/-- What a field line with a value does to the header, unless the field is there already. -/
def setValue (header : HttpHeader) (decoded : List UInt8) (parts : HeaderParts) :
    Option HeaderParts :=
  match header with
  | .pseudoHeaderMethod =>
    if parts.method ≠ .none then none
    else some { parts with method := getMethodByName decoded }
  | .headerContentType =>
    if parts.contentType ≠ .none then none
    else some { parts with contentType := getContentTypeByName decoded }
  | .pseudoHeaderStatus =>
    if parts.status ≠ 0 then none
    else some { parts with status := parseStatus decoded }
  | .pseudoHeaderPath =>
    if parts.path.isSome then none else some { parts with path := some decoded }
  | _ => some parts

/-- `h3zero_parse_qpack_header_value`. Its first byte is read before there is a check that there is
one. -/
def parseQpackHeaderValue (bytes : List UInt8) (header : HttpHeader) (parts : HeaderParts) :
    Except Fault (Option (List UInt8) × HeaderParts) :=
  match bytes with
  | [] => .error .beyondEnd
  | first :: _ =>
    match qpackIntDecode bytes 0x7F with
    | (none, _) => .ok (none, parts)
    | (some bytes, vLength) =>
      if bytes.length < vLength then .ok (none, parts)
      else
        let value := bytes.take vLength
        let decoded :=
          if first &&& 0x80 ≠ 0 then (huffmanDecode value).getD value else value
        match setValue header decoded parts with
        | none => .ok (none, parts)
        | some parts => .ok (some (bytes.drop vLength), parts)

/-! ### Field lines -/

/-- `h3zero_get_interesting_header_type`. -/
def getInterestingHeaderType (name : List UInt8) (isHuffman : Bool) : HttpHeader :=
  let name := if isHuffman then (huffmanDecode name).getD name else name
  if name = ascii ":method" then .pseudoHeaderMethod
  else if name = ascii ":path" then .pseudoHeaderPath
  else if name = ascii ":status" then .pseudoHeaderStatus
  else if name = ascii "content-type" then .headerContentType
  else .headerUnknown

/-- What a reference to an entry of the static table does to the header, unless the field is there
already. -/
def setStatic (entry : QpackStatic) (parts : HeaderParts) : Option HeaderParts :=
  match entry.header with
  | .pseudoHeaderMethod =>
    if parts.method ≠ .none then none
    else some { parts with method := .ofCode entry.enumAsInt }
  | .headerContentType =>
    if parts.contentType ≠ .none then none
    else some { parts with contentType := .ofCode entry.enumAsInt }
  | .pseudoHeaderStatus =>
    if parts.status ≠ 0 then none else some { parts with status := entry.enumAsInt }
  | .pseudoHeaderPath =>
    if parts.path.isSome then none
    else some { parts with path := some (entry.content.getD []) }
  | _ => some parts

/-- An entry of the static table. The index is checked against the number of the entries, which is
not an index. -/
def staticEntry (sIndex : ℕ) : Except Fault (Option QpackStatic) :=
  if qpackNbStatic < sIndex then .ok none
  else
    match qpackStatic[sIndex]? with
    | none => .error .staticTable
    | some entry => .ok (some entry)

/-- A reference to the static table. Where the index cannot be read, it is that of the entry with
the number of the mask. -/
def parseIndexed (bytes : List UInt8) (parts : HeaderParts) :
    Except Fault (Option (List UInt8) × HeaderParts) :=
  let (bytes, sIndex) := qpackIntDecode bytes 0x3F
  match staticEntry sIndex with
  | .error e => .error e
  | .ok none => .ok (none, parts)
  | .ok (some entry) =>
    match setStatic entry parts with
    | none => .ok (none, parts)
    | some parts => .ok (bytes, parts)

/-- A literal whose name is in the static table. -/
def parseNameReference (bytes : List UInt8) (parts : HeaderParts) :
    Except Fault (Option (List UInt8) × HeaderParts) :=
  match qpackIntDecode bytes 0x0F with
  | (none, _) => .ok (none, parts)
  | (some bytes, sIndex) =>
    match staticEntry sIndex with
    | .error e => .error e
    | .ok none => .ok (none, parts)
    | .ok (some entry) => parseQpackHeaderValue bytes entry.header parts

/-- A literal with its name. -/
def parseLiteral (first : UInt8) (bytes : List UInt8) (parts : HeaderParts) :
    Except Fault (Option (List UInt8) × HeaderParts) :=
  match qpackIntDecode bytes 0x07 with
  | (none, _) => .ok (none, parts)
  | (some bytes, nLength) =>
    if bytes.length < nLength then .ok (none, parts)
    else
      let header := getInterestingHeaderType (bytes.take nLength) (first &&& 0x08 ≠ 0)
      parseQpackHeaderValue (bytes.drop nLength) header parts

/-- One round of the loop over the field lines, at a line that begins with `first`. -/
def parseFieldLine (first : UInt8) (rest : List UInt8) (parts : HeaderParts) :
    Except Fault (Option (List UInt8) × HeaderParts) :=
  if first &&& 0xC0 = 0xC0 then parseIndexed (first :: rest) parts
  else if first &&& 0xD0 = 0x50 then parseNameReference (first :: rest) parts
  else if first &&& 0xE0 = 0x20 then parseLiteral first (first :: rest) parts
  else .ok (none, parts)

/-- The loop over the field lines, in at most `fuel` rounds. -/
def parseFieldLines : ℕ → List UInt8 → HeaderParts →
    Except Fault (Option (List UInt8) × HeaderParts)
  | _, [], parts => .ok (some [], parts)
  | 0, _ :: _, parts => .ok (none, parts)
  | fuel + 1, first :: rest, parts =>
    match parseFieldLine first rest parts with
    | .error e => .error e
    | .ok (none, parts) => .ok (none, parts)
    | .ok (some bytes, parts) => parseFieldLines fuel bytes parts

/-- `h3zero_parse_qpack_header_frame`. Each round of its loop takes a byte. -/
def parseQpackHeaderFrame (bytes : List UInt8) :
    Except Fault (Option (List UInt8) × HeaderParts) :=
  match bytes with
  | [] => .ok (none, {})
  | insertCount :: bytes =>
    if insertCount ≠ 0 then .ok (none, {})
    else
      match qpackIntDecode bytes 0x7F with
      | (none, _) => .ok (none, {})
      | (some bytes, _) => parseFieldLines bytes.length bytes {}

end H3zero

end Picoquic
