import Picoquic.H3zero.QpackBounds
import Picoquic.H3zero.QpackIntegers

/-!
# Header frames

The header blocks that are made of requests and responses, and what is parsed of them. A pointer
into the output, which has space for `space` bytes, is the list of the bytes that are before it, or
`none` for `NULL`. Writing without space for it is a fault.

* **`createRequestHeaderFrameEx`**, **`createPostHeaderFrameEx`**,
  **`createResponseHeaderFrameEx`**, **`createNotFoundHeaderFrameEx`**,
  **`createBadMethodHeaderFrameEx`** — the header blocks;
* **`Writes`** — what is written so far is a block with certain parts;
* **`HeaderFrame.RoundTrips`** — a block is written within the space, and its parts are parsed;
* **`header_frames_round_trip`** — all blocks are, but for that of a bad method in four to seven
  bytes;
* **`bad_method_beyond_end`** — there, its status is written beyond the end.
-/

namespace Picoquic

namespace H3zero

/-! ### Writing -/

/-- Bytes are written at a pointer. -/
def put (space : ℕ) (out bytes : List UInt8) : Except Fault (List UInt8) :=
  if out.length + bytes.length ≤ space then .ok (out ++ bytes) else .error .beyondEnd

/-- `h3zero_qpack_code_encode`. -/
def qpackCodeEncode (space : ℕ) (first mask : UInt8) (code : ℕ) (bytes : Option (List UInt8)) :
    Except Fault (Option (List UInt8)) :=
  match bytes with
  | none => .ok none
  | some out =>
    if space < out.length + 1 then .ok none
    else do
      let _ ← put space out [first]
      return (qpackIntEncode (space - out.length) first mask code).map (out ++ ·)

/-- `h3zero_qpack_literal_plus_ref_encode`. -/
def qpackLiteralPlusRefEncode (space code : ℕ) (val : List UInt8) (bytes : Option (List UInt8)) :
    Except Fault (Option (List UInt8)) := do
  let bytes ← qpackCodeEncode space 0x50 0x0F code bytes
  let bytes ← qpackCodeEncode space 0x00 0x7F val.length bytes
  match bytes with
  | none => .ok none
  | some out =>
    if 0 < val.length then
      if space < out.length + val.length then .ok none
      else do
        let out ← put space out val
        return some out
    else .ok (some out)

/-- A literal that is left out if it is `NULL`. -/
def optionalEncode (space code : ℕ) (val : Option (List UInt8)) (bytes : Option (List UInt8)) :
    Except Fault (Option (List UInt8)) :=
  match val with
  | none => .ok bytes
  | some val => qpackLiteralPlusRefEncode space code val bytes

/-- The entry of the static table for a content type. -/
def contentTypeEntry (contentType : H3ContentType) : Option QpackStatic :=
  qpackStatic.find? fun entry =>
    entry.header = .headerContentType ∧ entry.enumAsInt = contentType.code

/-- `h3zero_encode_content_type`. -/
def encodeContentType (space : ℕ) (contentType : H3ContentType) (bytes : Option (List UInt8)) :
    Except Fault (Option (List UInt8)) :=
  match bytes with
  | none => .ok none
  | some out =>
    match contentTypeEntry contentType with
    | none => .ok none
    | some entry => qpackCodeEncode space 0xC0 0x3F entry.index (some out)

/-- `H3ZERO_QPACK_CODE_GET`. -/
def qpackCodeGet : ℕ := 17
/-- `H3ZERO_QPACK_CODE_POST`. -/
def qpackCodePost : ℕ := 20
/-- `H3ZERO_QPACK_CODE_PATH`. -/
def qpackCodePath : ℕ := 1
/-- `H3ZERO_QPACK_CODE_404`. -/
def qpackCode404 : ℕ := 27
/-- `H3ZERO_QPACK_CODE_200`. -/
def qpackCode200 : ℕ := 25
/-- `H3ZERO_QPACK_ALLOW_GET`. -/
def qpackAllowGet : ℕ := 76
/-- `H3ZERO_QPACK_AUTHORITY`. -/
def qpackAuthority : ℕ := 0
/-- `H3ZERO_QPACK_SCHEME_HTTPS`. -/
def qpackSchemeHttps : ℕ := 23
/-- `H3ZERO_QPACK_USER_AGENT`. -/
def qpackUserAgent : ℕ := 95
/-- `H3ZERO_QPACK_SERVER`. -/
def qpackServer : ℕ := 92
/-- `H3ZERO_USER_AGENT_STRING`. -/
def userAgentString : List UInt8 := ascii "H3Zero/1.0"

/-! ### Blocks -/

/-- `h3zero_create_post_header_frame_ex`. -/
def createPostHeaderFrameEx (space : ℕ) (path : List UInt8) (host : Option (List UInt8))
    (contentType : H3ContentType) (uaString : Option (List UInt8)) :
    Except Fault (Option (List UInt8)) :=
  if space < 2 then .ok none
  else do
    let out ← put space [] [0, 0]
    let bytes ← qpackCodeEncode space 0xC0 0x3F qpackCodePost (some out)
    let bytes ← qpackCodeEncode space 0xC0 0x3F qpackSchemeHttps bytes
    let bytes ← qpackLiteralPlusRefEncode space qpackCodePath path bytes
    let bytes ← optionalEncode space qpackAuthority host bytes
    let bytes ← optionalEncode space qpackUserAgent uaString bytes
    encodeContentType space contentType bytes

/-- `h3zero_create_post_header_frame`. -/
def createPostHeaderFrame (space : ℕ) (path : List UInt8) (host : Option (List UInt8))
    (contentType : H3ContentType) : Except Fault (Option (List UInt8)) :=
  createPostHeaderFrameEx space path host contentType (some userAgentString)

/-- `h3zero_create_request_header_frame_ex`. -/
def createRequestHeaderFrameEx (space : ℕ) (path : List UInt8) (host : Option (List UInt8))
    (uaString : Option (List UInt8)) : Except Fault (Option (List UInt8)) :=
  if space < 2 then .ok none
  else do
    let out ← put space [] [0, 0]
    let bytes ← qpackCodeEncode space 0xC0 0x3F qpackCodeGet (some out)
    let bytes ← qpackCodeEncode space 0xC0 0x3F qpackSchemeHttps bytes
    let bytes ← qpackLiteralPlusRefEncode space qpackCodePath path bytes
    let bytes ← optionalEncode space qpackAuthority host bytes
    optionalEncode space qpackUserAgent uaString bytes

/-- `h3zero_create_request_header_frame`. -/
def createRequestHeaderFrame (space : ℕ) (path : List UInt8) (host : Option (List UInt8)) :
    Except Fault (Option (List UInt8)) :=
  createRequestHeaderFrameEx space path host (some userAgentString)

/-- `h3zero_create_response_header_frame_ex`. -/
def createResponseHeaderFrameEx (space : ℕ) (docType : H3ContentType)
    (serverString : Option (List UInt8)) : Except Fault (Option (List UInt8)) :=
  if space < 2 then .ok none
  else do
    let out ← put space [] [0, 0]
    let bytes ← qpackCodeEncode space 0xC0 0x3F qpackCode200 (some out)
    let bytes ← optionalEncode space qpackServer serverString bytes
    encodeContentType space docType bytes

/-- `h3zero_create_response_header_frame`. -/
def createResponseHeaderFrame (space : ℕ) (docType : H3ContentType) :
    Except Fault (Option (List UInt8)) :=
  createResponseHeaderFrameEx space docType (some userAgentString)

/-- `h3zero_create_not_found_header_frame_ex`. -/
def createNotFoundHeaderFrameEx (space : ℕ) (serverString : Option (List UInt8)) :
    Except Fault (Option (List UInt8)) :=
  if space < 2 then .ok none
  else do
    let out ← put space [] [0, 0]
    let bytes ← qpackCodeEncode space 0xC0 0x3F qpackCode404 (some out)
    optionalEncode space qpackServer serverString bytes

/-- `h3zero_create_not_found_header_frame`. -/
def createNotFoundHeaderFrame (space : ℕ) : Except Fault (Option (List UInt8)) :=
  createNotFoundHeaderFrameEx space (some userAgentString)

/-- The value 405, with its length. There is no check that there is space for it. -/
def putStatus405 (space : ℕ) (bytes : Option (List UInt8)) : Except Fault (Option (List UInt8)) :=
  match bytes with
  | none => .ok none
  | some out => do
    let out ← put space out [3]
    let out ← put space out (ascii "4")
    let out ← put space out (ascii "0")
    let out ← put space out (ascii "5")
    return some out

/-- `h3zero_create_bad_method_header_frame_ex`. -/
def createBadMethodHeaderFrameEx (space : ℕ) (serverString : Option (List UInt8)) :
    Except Fault (Option (List UInt8)) :=
  if space < 2 then .ok none
  else do
    let out ← put space [] [0, 0]
    let bytes ← qpackCodeEncode space 0x50 0x0F qpackCode404 (some out)
    let bytes ← putStatus405 space bytes
    let bytes ← optionalEncode space qpackServer serverString bytes
    qpackLiteralPlusRefEncode space qpackAllowGet (ascii "GET, POST") bytes

/-- `h3zero_create_bad_method_header_frame`. -/
def createBadMethodHeaderFrame (space : ℕ) : Except Fault (Option (List UInt8)) :=
  createBadMethodHeaderFrameEx space (some userAgentString)

/-! ### What is read -/

section Reads

variable {space code : ℕ} {first : UInt8} {line lines line₁ line₂ val rest : List UInt8}
  {parts parts₁ parts₂ parts₃ : HeaderParts}

/-- Bytes at the beginning of the field lines are read, and change the parts. -/
def Reads (line : List UInt8) (parts parts' : HeaderParts) : Prop :=
  ∀ rest, parseFieldLines (line ++ rest).length (line ++ rest) parts =
    parseFieldLines rest.length rest parts'

theorem Reads.nil : Reads [] parts parts := fun _ => rfl

theorem Reads.append (h₁ : Reads line₁ parts₁ parts₂) (h₂ : Reads line₂ parts₂ parts₃) :
    Reads (line₁ ++ line₂) parts₁ parts₃ := by
  intro rest
  rw [List.append_assoc, h₁ (line₂ ++ rest), h₂ rest]

theorem Reads.of_line (h : ∀ rest, parseFieldLine first (line ++ rest) parts₁ =
    .ok (some rest, parts₂)) : Reads (first :: line) parts₁ parts₂ := by
  intro rest
  rw [List.cons_append, List.length_cons, parseFieldLines, h rest]
  dsimp only
  exact parseFieldLines_of_le (by rw [List.length_append]; omega)

theorem Reads.parse (h : Reads lines {} parts) :
    parseQpackHeaderFrame (0 :: 0 :: lines) = .ok (some [], parts) := by
  have hlines := h []
  rw [List.append_nil] at hlines
  exact hlines

/-- What an index does to the parts. -/
def SetsIndexed (code : ℕ) (parts parts' : HeaderParts) : Prop :=
  ∃ entry, staticEntry code = .ok (some entry) ∧ setStatic entry parts = some parts'

/-- What a literal with the name at an index does to the parts. -/
def SetsLiteral (code : ℕ) (val : List UInt8) (parts parts' : HeaderParts) : Prop :=
  ∃ entry, staticEntry code = .ok (some entry) ∧ setValue entry.header val parts = some parts'

/-- The index of an entry is read. -/
theorem Reads.indexed (hset : SetsIndexed code parts₁ parts₂)
    (hout : qpackIntEncode space 0xC0 0x3F code = some line) : Reads line parts₁ parts₂ := by
  obtain ⟨entry, hentry, hstatic⟩ := hset
  have hcode : code < 2 ^ 63 := Nat.lt_trans (lt_of_staticEntry hentry) (by decide)
  obtain ⟨b, tail, rfl, hbits⟩ := @qpackIntEncode_keeps space code 0xC0 line 6 (by decide) hout
  have hform : b &&& 0xC0 = 0xC0 := hbits
  refine Reads.of_line fun rest => ?_
  have hdecode : qpackIntDecode (b :: (tail ++ rest)) 0x3F = (some rest, code) :=
    @qpackIntDecode_encode space code 0xC0 (b :: tail) rest 6 (by decide) (by decide) hcode hout
  rw [parseFieldLine, if_pos hform, parseIndexed, hdecode]
  dsimp only
  rw [hentry]
  dsimp only
  rw [hstatic]

/-- A value is read behind its length. -/
theorem parseQpackHeaderValue_encode {header : HttpHeader}
    (hset : setValue header val parts₁ = some parts₂) (hval : val.length < 2 ^ 63)
    (hout : qpackIntEncode space 0x00 0x7F val.length = some line) :
    parseQpackHeaderValue (line ++ (val ++ rest)) header parts₁ = .ok (some rest, parts₂) := by
  obtain ⟨b, tail, rfl, hbits⟩ :=
    @qpackIntEncode_keeps space val.length 0x00 line 7 (by decide) hout
  have hplain : b &&& 0x80 = 0 := hbits
  have hdecode : qpackIntDecode (b :: (tail ++ (val ++ rest))) 0x7F =
      (some (val ++ rest), val.length) :=
    @qpackIntDecode_encode space val.length 0x00 (b :: tail) (val ++ rest) 7 (by decide)
      (by decide) hval hout
  rw [List.cons_append, parseQpackHeaderValue, hdecode]
  dsimp only
  rw [if_neg (by rw [List.length_append]; omega), if_neg (not_not.mpr hplain), List.take_left,
    hset, List.drop_left]

/-- A literal with a reference to its name is read. -/
theorem Reads.literal {space' : ℕ} (hset : SetsLiteral code val parts₁ parts₂)
    (hval : val.length < 2 ^ 63) (hout₁ : qpackIntEncode space 0x50 0x0F code = some line₁)
    (hout₂ : qpackIntEncode space' 0x00 0x7F val.length = some line₂) :
    Reads (line₁ ++ line₂ ++ val) parts₁ parts₂ := by
  obtain ⟨entry, hentry, hvalue⟩ := hset
  have hcode : code < 2 ^ 63 := Nat.lt_trans (lt_of_staticEntry hentry) (by decide)
  obtain ⟨b, tail, rfl, hbits⟩ := @qpackIntEncode_keeps space code 0x50 line₁ 4 (by decide) hout₁
  have hhigh : b &&& 0xF0 = 0x50 := hbits
  have hform : b &&& 0xD0 = 0x50 := by
    have hand : b &&& 0xD0 = (b &&& 0xF0) &&& 0xD0 := by rw [UInt8.and_assoc]; rfl
    rw [hand, hhigh]
    rfl
  have hindexed : ¬ b &&& 0xC0 = 0xC0 := by
    rw [and_C0_of_D0 hform]
    decide
  rw [List.cons_append, List.cons_append]
  refine Reads.of_line fun rest => ?_
  have hassoc : tail ++ line₂ ++ val ++ rest = tail ++ (line₂ ++ (val ++ rest)) := by
    rw [List.append_assoc, List.append_assoc]
  have hdecode : qpackIntDecode (b :: (tail ++ (line₂ ++ (val ++ rest)))) 0x0F =
      (some (line₂ ++ (val ++ rest)), code) :=
    @qpackIntDecode_encode space code 0x50 (b :: tail) (line₂ ++ (val ++ rest)) 4 (by decide)
      (by decide) hcode hout₁
  rw [hassoc, parseFieldLine, if_neg hindexed, if_pos hform, parseNameReference, hdecode]
  dsimp only
  rw [hentry]
  dsimp only
  exact parseQpackHeaderValue_encode hvalue hval hout₂

end Reads

/-! ### What is written -/

section Writes

variable {space code : ℕ} {bytes : Option (List UInt8)} {val : List UInt8}
  {parts parts₁ parts₂ : HeaderParts} {r : Except Fault (Option (List UInt8))}
  {f : Option (List UInt8) → Except Fault (Option (List UInt8))}

/-- Unless a pointer is `NULL`, there is a block with certain parts before it, in the space. -/
def IsBlock (space : ℕ) (parts : HeaderParts) (bytes : Option (List UInt8)) : Prop :=
  ∀ out, bytes = some out →
    out.length ≤ space ∧ ∃ lines, out = 0 :: 0 :: lines ∧ Reads lines {} parts

/-- Nothing is written beyond the end, and what is written is a block with certain parts. -/
def Writes (space : ℕ) (parts : HeaderParts) (r : Except Fault (Option (List UInt8))) : Prop :=
  ∃ bytes, r = .ok bytes ∧ IsBlock space parts bytes

theorem IsBlock.none : IsBlock space parts none := by
  rintro out ⟨⟩

theorem IsBlock.writes (h : IsBlock space parts bytes) : Writes space parts (.ok bytes) :=
  ⟨bytes, rfl, h⟩

theorem Writes.bind (h : Writes space parts₁ r)
    (hf : ∀ bytes, IsBlock space parts₁ bytes → Writes space parts₂ (f bytes)) :
    Writes space parts₂ (r >>= f) := by
  obtain ⟨bytes, rfl, hbytes⟩ := h
  exact hf bytes hbytes

theorem IsBlock.append {out line : List UInt8} (h : IsBlock space parts₁ (some out))
    (hline : Reads line parts₁ parts₂) (hspace : (out ++ line).length ≤ space) :
    IsBlock space parts₂ (some (out ++ line)) := by
  rintro _ ⟨rfl⟩
  obtain ⟨-, lines, rfl, hlines⟩ := h out rfl
  exact ⟨hspace, lines ++ line, rfl, hlines.append hline⟩

/-- What a code is written as. -/
theorem qpackCodeEncode_some {first mask : UInt8} {out : List UInt8} :
    qpackCodeEncode space first mask code (some out) =
      .ok ((qpackIntEncode (space - out.length) first mask code).map (out ++ ·)) := by
  rw [qpackCodeEncode]
  split
  · rename_i hlt
    rw [show space - out.length = 0 by omega]
    rfl
  · rename_i hle
    rw [put, if_pos (by rw [List.length_singleton]; omega)]
    rfl

/-- An index is written. -/
theorem IsBlock.indexed (h : IsBlock space parts₁ bytes) (hset : SetsIndexed code parts₁ parts₂) :
    Writes space parts₂ (qpackCodeEncode space 0xC0 0x3F code bytes) := by
  rcases bytes with _ | out
  · exact IsBlock.none.writes
  · rw [qpackCodeEncode_some]
    rcases hout : qpackIntEncode (space - out.length) 0xC0 0x3F code with _ | line
    · exact IsBlock.none.writes
    · have hlength := length_qpackIntEncode hout
      have hspace := (h out rfl).1
      refine (h.append (Reads.indexed hset hout) ?_).writes
      rw [List.length_append]
      omega

/-- A literal is written, if there is space for it. -/
theorem IsBlock.literal (hspace : space < 2 ^ 63) (h : IsBlock space parts₁ bytes)
    (hset : SetsLiteral code val parts₁ parts₂) :
    Writes space parts₂ (qpackLiteralPlusRefEncode space code val bytes) := by
  rw [qpackLiteralPlusRefEncode]
  rcases bytes with _ | out
  · exact IsBlock.none.writes
  · rw [qpackCodeEncode_some]
    rcases hout₁ : qpackIntEncode (space - out.length) 0x50 0x0F code with _ | line₁
    · exact IsBlock.none.writes
    · change Writes space parts₂
        (qpackCodeEncode space 0 0x7F val.length (some (out ++ line₁)) >>= _)
      rw [qpackCodeEncode_some]
      rcases hout₂ : qpackIntEncode (space - (out ++ line₁).length) 0 0x7F val.length with _ | line₂
      · exact IsBlock.none.writes
      · have hlength₁ := length_qpackIntEncode hout₁
        have hlength₂ := length_qpackIntEncode hout₂
        have hout := (h out rfl).1
        rw [List.length_append] at hlength₂
        have hblock : val.length < 2 ^ 63 → (out ++ (line₁ ++ line₂ ++ val)).length ≤ space →
            IsBlock space parts₂ (some (out ++ line₁ ++ line₂ ++ val)) := by
          intro hval hle
          have hreads := Reads.literal hset hval hout₁ hout₂
          have happend := h.append hreads hle
          rwa [← List.append_assoc, ← List.append_assoc] at happend
        change Writes space parts₂ (if 0 < val.length then _ else _)
        split
        · split
          · exact IsBlock.none.writes
          · rename_i hroom
            rw [put, if_pos (by omega)]
            refine (hblock ?_ ?_).writes
            all_goals simp only [List.length_append] at hroom ⊢
            all_goals omega
        · rename_i hempty
          obtain rfl : val = [] := List.eq_nil_of_length_eq_zero (by omega)
          have hnil := hblock (by decide) (by
            simp only [List.length_append, List.length_nil]
            omega)
          rw [List.append_nil] at hnil
          exact hnil.writes

theorem IsBlock.optional (hspace : space < 2 ^ 63) (h : IsBlock space parts bytes)
    (hset : ∀ val, SetsLiteral code val parts parts) (val : Option (List UInt8)) :
    Writes space parts (optionalEncode space code val bytes) := by
  rcases val with _ | val
  · exact h.writes
  · exact h.literal hspace (hset val)

theorem contentTypeEntry_staticEntry {contentType : H3ContentType} {entry : QpackStatic}
    (h : contentTypeEntry contentType = some entry) :
    staticEntry entry.index = .ok (some entry) := by
  cases contentType <;> cases h <;> rfl

/-- A content type is written, unless there is no entry for it. -/
theorem IsBlock.contentType (h : IsBlock space parts bytes) (hnone : parts.contentType = .none)
    (contentType : H3ContentType) :
    Writes space { parts with contentType } (encodeContentType space contentType bytes) := by
  rcases bytes with _ | out
  · exact IsBlock.none.writes
  · rw [encodeContentType]
    rcases hentry : contentTypeEntry contentType with _ | entry
    · exact IsBlock.none.writes
    · have hfound := List.find?_some hentry
      obtain ⟨hheader, hcode⟩ := of_decide_eq_true hfound
      refine h.indexed ⟨entry, contentTypeEntry_staticEntry hentry, ?_⟩
      rw [setStatic, hheader]
      dsimp only
      rw [if_neg (not_not.mpr hnone), hcode, H3ContentType.ofCode_code]

theorem IsBlock.begin (h : 2 ≤ space) : IsBlock space {} (some [0, 0]) := by
  rintro _ ⟨rfl⟩
  exact ⟨h, [], rfl, Reads.nil⟩

/-- A block begins with two bytes, if there is space for them. -/
theorem Writes.begin {g : List UInt8 → Except Fault (Option (List UInt8))}
    (hg : 2 ≤ space → Writes space parts (g [0, 0])) :
    Writes space parts (if space < 2 then .ok none else put space [] [0, 0] >>= g) := by
  split_ifs with hroom
  · exact IsBlock.none.writes
  · rw [put, if_pos (by simp; omega)]
    exact hg (by omega)

end Writes

/-! ### All header frames -/

/-- The string by which a frame names the program: that of the function without the argument, or an
argument, which may be `NULL`. -/
inductive UserAgent
  | standard
  | named (string : Option (List UInt8))

/-- What a header frame is made for. -/
inductive HeaderFrame
  | request (path : List UInt8) (host : Option (List UInt8)) (agent : UserAgent)
  | post (path : List UInt8) (host : Option (List UInt8)) (contentType : H3ContentType)
    (agent : UserAgent)
  | response (docType : H3ContentType) (agent : UserAgent)
  | notFound (agent : UserAgent)
  | badMethod (agent : UserAgent)

namespace HeaderFrame

/-- The header block of a frame. -/
def create (space : ℕ) : HeaderFrame → Except Fault (Option (List UInt8))
  | request path host .standard => createRequestHeaderFrame space path host
  | request path host (.named string) => createRequestHeaderFrameEx space path host string
  | post path host contentType .standard => createPostHeaderFrame space path host contentType
  | post path host contentType (.named string) =>
    createPostHeaderFrameEx space path host contentType string
  | response docType .standard => createResponseHeaderFrame space docType
  | response docType (.named string) => createResponseHeaderFrameEx space docType string
  | notFound .standard => createNotFoundHeaderFrame space
  | notFound (.named string) => createNotFoundHeaderFrameEx space string
  | badMethod .standard => createBadMethodHeaderFrame space
  | badMethod (.named string) => createBadMethodHeaderFrameEx space string

/-- What a frame says. -/
def parts : HeaderFrame → HeaderParts
  | request path _ _ => { method := .get, path := some path }
  | post path _ contentType _ => { method := .post, path := some path, contentType }
  | response docType _ => { status := 200, contentType := docType }
  | notFound _ => { status := 404 }
  | badMethod _ => { status := 405 }

/-- A frame is the answer to a bad method. -/
def IsBadMethod : HeaderFrame → Prop
  | badMethod _ => True
  | _ => False

/-- Nothing is written beyond the end, and if there is a block, then it is parsed to its end, and
its parts are what the frame says. -/
def RoundTrips (frame : HeaderFrame) (space : ℕ) : Prop :=
  ∃ bytes, frame.create space = .ok bytes ∧ ∀ out, bytes = some out →
    out.length ≤ space ∧ parseQpackHeaderFrame out = .ok (some [], frame.parts)

end HeaderFrame

section Frames

variable {space : ℕ} {path : List UInt8} {host string : Option (List UInt8)}
  {contentType : H3ContentType}

section

variable (hspace : space < 2 ^ 63)

include hspace

theorem writes_createRequestHeaderFrameEx :
    Writes space { method := .get, path := some path }
      (createRequestHeaderFrameEx space path host string) := by
  rw [createRequestHeaderFrameEx]
  refine Writes.begin fun hroom => ?_
  refine ((IsBlock.begin hroom).indexed ⟨_, rfl, rfl⟩).bind fun _ h => ?_
  refine (h.indexed ⟨_, rfl, rfl⟩).bind fun _ h => ?_
  refine (h.literal hspace ⟨_, rfl, rfl⟩).bind fun _ h => ?_
  refine (h.optional hspace (fun _ => ⟨_, rfl, rfl⟩) host).bind fun _ h => ?_
  exact h.optional hspace (fun _ => ⟨_, rfl, rfl⟩) string

theorem writes_createPostHeaderFrameEx :
    Writes space { method := .post, path := some path, contentType }
      (createPostHeaderFrameEx space path host contentType string) := by
  rw [createPostHeaderFrameEx]
  refine Writes.begin fun hroom => ?_
  refine ((IsBlock.begin hroom).indexed ⟨_, rfl, rfl⟩).bind fun _ h => ?_
  refine (h.indexed ⟨_, rfl, rfl⟩).bind fun _ h => ?_
  refine (h.literal hspace ⟨_, rfl, rfl⟩).bind fun _ h => ?_
  refine (h.optional hspace (fun _ => ⟨_, rfl, rfl⟩) host).bind fun _ h => ?_
  refine (h.optional hspace (fun _ => ⟨_, rfl, rfl⟩) string).bind fun _ h => ?_
  exact h.contentType rfl contentType

theorem writes_createResponseHeaderFrameEx :
    Writes space { status := 200, contentType }
      (createResponseHeaderFrameEx space contentType string) := by
  rw [createResponseHeaderFrameEx]
  refine Writes.begin fun hroom => ?_
  refine ((IsBlock.begin hroom).indexed ⟨_, rfl, rfl⟩).bind fun _ h => ?_
  refine (h.optional hspace (fun _ => ⟨_, rfl, rfl⟩) string).bind fun _ h => ?_
  exact h.contentType rfl contentType

theorem writes_createNotFoundHeaderFrameEx :
    Writes space { status := 404 } (createNotFoundHeaderFrameEx space string) := by
  rw [createNotFoundHeaderFrameEx]
  refine Writes.begin fun hroom => ?_
  refine ((IsBlock.begin hroom).indexed ⟨_, rfl, rfl⟩).bind fun _ h => ?_
  exact h.optional hspace (fun _ => ⟨_, rfl, rfl⟩) string

end

/-- The status 405 is written, as there is no index for it, as a literal. -/
theorem writes_status405 (h : space < 4 ∨ 8 ≤ space) (hroom : 2 ≤ space) :
    Writes space { status := 405 }
      (qpackCodeEncode space 0x50 0x0F qpackCode404 (some [0, 0]) >>= putStatus405 space) := by
  rw [qpackCodeEncode_some]
  rcases h with hlt | hge
  · obtain rfl | rfl : space = 2 ∨ space = 3 := by omega
    · exact IsBlock.none.writes
    · exact IsBlock.none.writes
  · have hsplit : space - [(0 : UInt8), 0].length = space - 4 + 2 := by
      rw [List.length_cons, List.length_singleton]
      omega
    rw [hsplit]
    have hcode : qpackIntEncode (space - 4 + 2) 0x50 0x0F qpackCode404 = some [0x5F, 12] := rfl
    rw [hcode]
    change Writes space _ (putStatus405 space (some [0, 0, 0x5F, 12]))
    have hreads : Reads ([0x5F, 12] ++ [3] ++ ascii "405") {} { status := 405 } :=
      Reads.literal ⟨_, rfl, rfl⟩ (by decide) hcode (rfl : qpackIntEncode 1 0 0x7F 3 = some [3])
    have hput : putStatus405 space (some [0, 0, 0x5F, 12]) =
        .ok (some ([0, 0] ++ ([0x5F, 12] ++ [3] ++ ascii "405"))) := by
      rw [putStatus405, put, if_pos (by simp; omega)]
      change (put space [0, 0, 0x5F, 12, 3] (ascii "4") >>= _) = _
      rw [put, if_pos (by simp [ascii]; omega)]
      change (put space [0, 0, 0x5F, 12, 3, 52] (ascii "0") >>= _) = _
      rw [put, if_pos (by simp [ascii]; omega)]
      change (put space [0, 0, 0x5F, 12, 3, 52, 48] (ascii "5") >>= _) = _
      rw [put, if_pos (by simp [ascii]; omega)]
      rfl
    rw [hput]
    exact ((IsBlock.begin hroom).append hreads (by simp [ascii]; omega)).writes

theorem writes_createBadMethodHeaderFrameEx (hspace : space < 2 ^ 63)
    (h : space < 4 ∨ 8 ≤ space) :
    Writes space { status := 405 } (createBadMethodHeaderFrameEx space string) := by
  rw [createBadMethodHeaderFrameEx]
  refine Writes.begin fun hroom => ?_
  rw [← bind_assoc]
  refine (writes_status405 h hroom).bind fun _ h => ?_
  refine (h.optional hspace (fun _ => ⟨_, rfl, rfl⟩) string).bind fun _ h => ?_
  exact h.literal hspace ⟨_, rfl, rfl⟩

theorem createBadMethodHeaderFrameEx_error (hge : 4 ≤ space) (hlt : space < 8) :
    createBadMethodHeaderFrameEx space string = .error .beyondEnd := by
  obtain rfl | rfl | rfl | rfl : space = 4 ∨ space = 5 ∨ space = 6 ∨ space = 7 := by omega
  all_goals rfl

end Frames

namespace HeaderFrame

variable {space : ℕ} {frame : HeaderFrame}

theorem roundTrips_of_writes (h : Writes space frame.parts (frame.create space)) :
    frame.RoundTrips space := by
  obtain ⟨bytes, hcreate, hblock⟩ := h
  refine ⟨bytes, hcreate, fun out hout => ?_⟩
  obtain ⟨hlength, lines, rfl, hreads⟩ := hblock out hout
  exact ⟨hlength, hreads.parse⟩

/-- The frames round trip, but for the answer to a bad method in four to seven bytes. -/
theorem roundTrips (hspace : space < 2 ^ 63)
    (h : ¬ (frame.IsBadMethod ∧ 4 ≤ space ∧ space < 8)) : frame.RoundTrips space := by
  refine roundTrips_of_writes ?_
  rcases frame with ⟨path, host, _ | string⟩ | ⟨path, host, contentType, _ | string⟩ |
    ⟨docType, _ | string⟩ | ⟨_ | string⟩ | ⟨_ | string⟩
  · exact writes_createRequestHeaderFrameEx hspace
  · exact writes_createRequestHeaderFrameEx hspace
  · exact writes_createPostHeaderFrameEx hspace
  · exact writes_createPostHeaderFrameEx hspace
  · exact writes_createResponseHeaderFrameEx hspace
  · exact writes_createResponseHeaderFrameEx hspace
  · exact writes_createNotFoundHeaderFrameEx hspace
  · exact writes_createNotFoundHeaderFrameEx hspace
  all_goals
    refine writes_createBadMethodHeaderFrameEx hspace ?_
    by_contra hbetween
    exact h ⟨trivial, by omega, by omega⟩

/-- There, the status is written beyond the end. -/
theorem create_badMethod (h : frame.IsBadMethod) (hge : 4 ≤ space) (hlt : space < 8) :
    frame.create space = .error .beyondEnd := by
  rcases frame with _ | _ | _ | _ | ⟨_ | string⟩
  · exact h.elim
  · exact h.elim
  · exact h.elim
  · exact h.elim
  · exact createBadMethodHeaderFrameEx_error hge hlt
  · exact createBadMethodHeaderFrameEx_error hge hlt

end HeaderFrame

/-- **Header frames round trip** exactly when they are not the answer to a bad method in four to
seven bytes: nothing is written beyond the end, and a block that is made is parsed to its end, with
the parts that it was made of. An output is an object, of less than 2 ^ 63 bytes. An integer below
2 ^ 62 is decoded from what it is encoded as, and the bits above its prefix stay, with any prefix of
a byte; ten bytes are enough for it. -/
theorem header_frames_round_trip (frame : HeaderFrame) (space : ℕ) (hspace : space < 2 ^ 63) :
    (frame.RoundTrips space ↔ ¬ (frame.IsBadMethod ∧ 4 ≤ space ∧ space < 8)) ∧
    ∀ (bits : ℕ) (first : UInt8) (val space : ℕ), 1 ≤ bits → bits ≤ 8 →
      first &&& prefixMask bits = 0 → val < 2 ^ 62 →
      (10 ≤ space → (qpackIntEncode space first (prefixMask bits) val).isSome) ∧
      ∀ out, qpackIntEncode space first (prefixMask bits) val = some out →
        out.length ≤ space ∧
        (∀ rest, qpackIntDecode (out ++ rest) (prefixMask bits) = (some rest, val)) ∧
        ∃ b tail, out = b :: tail ∧ b &&& ~~~prefixMask bits = first := by
  constructor
  · constructor
    · rintro ⟨bytes, hcreate, -⟩ ⟨hbad, hge, hlt⟩
      cases hcreate.symm.trans (HeaderFrame.create_badMethod hbad hge hlt)
    · exact HeaderFrame.roundTrips hspace
  · intro bits first val space _ hbits hfirst hval
    refine ⟨fun hspace => qpackIntEncode_isSome hspace hval, fun out hout => ⟨?_, ?_, ?_⟩⟩
    · exact length_qpackIntEncode hout
    · intro rest
      exact qpackIntDecode_encode hbits hfirst (Nat.lt_trans hval (by decide)) hout
    · obtain ⟨b, tail, rfl, hkeeps⟩ := qpackIntEncode_keeps hbits hout
      refine ⟨b, tail, rfl, ?_⟩
      rw [hkeeps, and_not_of_and_eq_zero hfirst]

theorem request_frame_round_trips :
    (HeaderFrame.request (ascii "/index.html") (some (ascii "test")) .standard).RoundTrips 64 :=
  (header_frames_round_trip _ 64 (by decide)).1.mpr fun h => h.1

/-- **The status of the answer to a bad method is written beyond the end** of four bytes. -/
theorem bad_method_beyond_end :
    (HeaderFrame.badMethod .standard).create 4 = .error .beyondEnd ∧
      ¬ (HeaderFrame.badMethod .standard).RoundTrips 4 := by
  have hcreate : (HeaderFrame.badMethod .standard).create 4 = .error .beyondEnd := rfl
  refine ⟨hcreate, ?_⟩
  rintro ⟨bytes, hbytes, -⟩
  cases hbytes.symm.trans hcreate

end H3zero

end Picoquic
