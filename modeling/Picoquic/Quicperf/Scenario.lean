import Mathlib.Data.List.Basic
import Picoquic.Basic

/-!
# Scenarios of the performance test

A scenario is a text: descriptions of streams with semicolons between them. A description has the
number of repetitions, which may be missing, the identifiers of the stream and of the one before,
and the numbers of bytes to send and to get, with colons between them. A sign in place of an
identifier stands for the default; in front of the last number it means an infinite response.

* **`quicperfParseNbStream`** — the number of entries that are allocated;
* **`quicperfParseStreamDesc`** — one description;
* **`quicperfParseScenarioDesc`** — the whole text.

A text is the list of its characters, without the one that ends it.
-/

namespace Picoquic

/-- `QUICPERF_STREAM_ID_INITIAL`. -/
def quicperfStreamIdInitial : ℕ := 2 ^ 64 - 1

/-- `quicperf_stream_desc_t`. -/
structure QuicperfStreamDesc where
  repeatCount : ℕ
  streamId : ℕ
  previousStreamId : ℕ
  postSize : ℕ
  responseSize : ℕ
  isInfinite : Bool
  deriving DecidableEq

/-- The loop of `quicperf_parse_nb_stream`. -/
def parseNbStreamLoop : List Char → ℕ → ℕ → ℕ
  | [], n, afterSemi => n + afterSemi
  | c :: text, n, _ =>
    if c = ';' then parseNbStreamLoop text (n + 1) 0 else parseNbStreamLoop text n 1

/-- `quicperf_parse_nb_stream`. -/
def quicperfParseNbStream (text : List Char) : ℕ := parseNbStreamLoop text 0 1

/-- The characters that `quicperf_parse_stream_spaces` skips. -/
def isStreamSpace (c : Char) : Bool := c == ' ' || c == '\t' || c == '\n' || c == '\r'

/-- `quicperf_parse_stream_spaces`. -/
def quicperfParseStreamSpaces (text : List Char) : List Char := text.dropWhile isStreamSpace

/-- The loop of `quicperf_parse_number`: what is left, whether there was a digit, and the number. -/
def parseDigits : List Char → Bool → ℕ → List Char × Bool × ℕ
  | [], isPresent, number => ([], isPresent, number)
  | c :: text, isPresent, number =>
    if c.isDigit then parseDigits text true (u64 (u64 (number * 10) + (c.toNat - 48)))
    else (c :: text, isPresent, number)

/-- The output of `quicperf_parse_number`. -/
structure ParsedNumber where
  text : List Char
  isPresent : Bool
  isSigned : Bool
  number : ℕ

/-- `quicperf_parse_number`; a sign is read if there is a place to report it. -/
def quicperfParseNumber (text : List Char) (maySign : Bool) : ParsedNumber :=
  let isSigned := maySign && text.head? == some '-'
  let text := if isSigned then text.tail else text
  let (text, isPresent, number) := parseDigits text isSigned 0
  ⟨quicperfParseStreamSpaces text, isPresent, isSigned, number⟩

/-- `quicperf_skip_colon_if_present`, where the number is present. -/
def quicperfSkipColon (text : List Char) : Option (List Char) :=
  match quicperfParseStreamSpaces text with
  | ':' :: text => some (quicperfParseStreamSpaces text)
  | _ => none

/-- `quicperf_parse_stream_repeat`. -/
def quicperfParseStreamRepeat (text : List Char) : Option (List Char × ℕ) :=
  match text with
  | '*' :: text =>
    let n := quicperfParseNumber text false
    if n.isPresent then (quicperfSkipColon n.text).map fun text => (text, n.number) else none
  | _ => some (text, 1)

/-- `quicperf_parse_stream_number` and `quicperf_parse_post_size`, which are the same. -/
def parseNumberOrDefault (text : List Char) (defaultNumber : ℕ) : Option (List Char × ℕ) :=
  let n := quicperfParseNumber text true
  if !n.isPresent then none
  else if n.isSigned then
    if n.number = 0 then (quicperfSkipColon n.text).map fun text => (text, defaultNumber) else none
  else (quicperfSkipColon n.text).map fun text => (text, n.number)

/-- `quicperf_parse_stream_number`. -/
def quicperfParseStreamNumber (text : List Char) (defaultNumber : ℕ) : Option (List Char × ℕ) :=
  parseNumberOrDefault text defaultNumber

/-- `quicperf_parse_post_size`. -/
def quicperfParsePostSize (text : List Char) (defaultNumber : ℕ) : Option (List Char × ℕ) :=
  parseNumberOrDefault text defaultNumber

/-- `quicperf_parse_response_size`: what is left, the number, and whether it is infinite. -/
def quicperfParseResponseSize (text : List Char) : Option (List Char × ℕ × Bool) :=
  let n := quicperfParseNumber text true
  if n.isPresent then some (n.text, n.number, n.isSigned) else none

/-- The end of `quicperf_parse_stream_desc`. -/
def skipSemicolon (text : List Char) : Option (List Char) :=
  match text with
  | [] => some []
  | ';' :: text => some text
  | _ => none

/-- `quicperf_parse_stream_desc`. -/
def quicperfParseStreamDesc (text : List Char) (defaultStream defaultPrevious : ℕ) :
    Option (List Char × QuicperfStreamDesc) := do
  let (text, repeatCount) ← quicperfParseStreamRepeat (quicperfParseStreamSpaces text)
  let (text, streamId) ← quicperfParseStreamNumber text defaultStream
  let (text, previousStreamId) ← quicperfParseStreamNumber text defaultPrevious
  let (text, postSize) ← quicperfParsePostSize (quicperfParseStreamSpaces text) 0
  let (text, responseSize, isInfinite) ← quicperfParseResponseSize (quicperfParseStreamSpaces text)
  let text ← skipSemicolon text
  return (text, ⟨repeatCount, streamId, previousStreamId, postSize, responseSize, isInfinite⟩)

/-! ### Progress -/

theorem length_parseStreamSpaces_le (text : List Char) :
    (quicperfParseStreamSpaces text).length ≤ text.length := (List.dropWhile_sublist _).length_le

theorem length_parseDigits (text : List Char) (isPresent : Bool) (number : ℕ) :
    (parseDigits text isPresent number).1.length ≤ text.length ∧
      ((parseDigits text isPresent number).2.1 = true →
        isPresent = true ∨ (parseDigits text isPresent number).1.length < text.length) := by
  induction text generalizing isPresent number with
  | nil => exact ⟨Nat.le_refl _, .inl⟩
  | cons c text ih =>
    rw [parseDigits]
    split_ifs with hc
    · obtain ⟨hle, -⟩ := ih true (u64 (u64 (number * 10) + (c.toNat - 48)))
      exact ⟨Nat.le_succ_of_le hle, fun _ => .inr (Nat.lt_succ_of_le hle)⟩
    · exact ⟨Nat.le_refl _, .inl⟩

/-- A number that is present takes up some of the text. -/
theorem length_parseNumber {text : List Char} {maySign : Bool}
    (h : (quicperfParseNumber text maySign).isPresent = true) :
    (quicperfParseNumber text maySign).text.length < text.length := by
  rw [quicperfParseNumber] at h ⊢
  dsimp only at h ⊢
  refine Nat.lt_of_le_of_lt (length_parseStreamSpaces_le _) ?_
  cases hsign : maySign && text.head? == some '-' with
  | true =>
    have hne : text ≠ [] := by
      rintro rfl
      simp at hsign
    obtain ⟨c, rest, rfl⟩ := List.exists_cons_of_ne_nil hne
    exact Nat.lt_succ_of_le (length_parseDigits rest true 0).1
  | false =>
    rw [hsign] at h
    exact ((length_parseDigits text false 0).2 h).resolve_left Bool.false_ne_true

variable {text rest : List Char}

theorem length_skipColon (h : quicperfSkipColon text = some rest) : rest.length < text.length := by
  have hle := length_parseStreamSpaces_le text
  unfold quicperfSkipColon at h
  split at h
  · next after heq =>
    rw [heq, List.length_cons] at hle
    rw [← Option.some.inj h]
    exact Nat.lt_of_lt_of_le (Nat.lt_succ_of_le (length_parseStreamSpaces_le after)) hle
  · exact absurd h (by simp)

theorem length_parseStreamRepeat {n : ℕ} (h : quicperfParseStreamRepeat text = some (rest, n)) :
    rest.length ≤ text.length := by
  unfold quicperfParseStreamRepeat at h
  split at h
  · next after =>
    dsimp only at h
    split_ifs at h with hpresent
    obtain ⟨rest', hcolon, heq⟩ := Option.map_eq_some_iff.mp h
    obtain ⟨rfl, -⟩ := Prod.mk.inj heq
    have h1 := length_skipColon hcolon
    have h2 := length_parseNumber hpresent
    rw [List.length_cons]
    omega
  · obtain ⟨rfl, -⟩ := Prod.mk.inj (Option.some.inj h)
    exact Nat.le_refl _

theorem length_parseNumberOrDefault {defaultNumber n : ℕ}
    (h : parseNumberOrDefault text defaultNumber = some (rest, n)) : rest.length < text.length := by
  rw [parseNumberOrDefault] at h
  have hpresent : (quicperfParseNumber text true).isPresent = true := by
    by_contra habsent
    rw [Bool.not_eq_true] at habsent
    rw [habsent] at h
    exact absurd h (by simp)
  have hcolon : ∃ after, quicperfSkipColon (quicperfParseNumber text true).text = some after ∧
      after = rest := by
    split_ifs at h
    all_goals
      obtain ⟨after, hcolon, heq⟩ := Option.map_eq_some_iff.mp h
      exact ⟨after, hcolon, (Prod.mk.inj heq).1⟩
  obtain ⟨after, hcolon, rfl⟩ := hcolon
  exact Nat.lt_trans (length_skipColon hcolon) (length_parseNumber hpresent)

/-- **Progress.** A description takes up some of the text. -/
theorem length_parseStreamDesc {defaultStream defaultPrevious : ℕ} {desc : QuicperfStreamDesc}
    (h : quicperfParseStreamDesc text defaultStream defaultPrevious = some (rest, desc)) :
    rest.length < text.length := by
  rw [quicperfParseStreamDesc] at h
  obtain ⟨⟨t1, repeatCount⟩, h1, h⟩ := Option.bind_eq_some_iff.mp h
  obtain ⟨⟨t2, streamId⟩, h2, h⟩ := Option.bind_eq_some_iff.mp h
  obtain ⟨⟨t3, previousStreamId⟩, h3, h⟩ := Option.bind_eq_some_iff.mp h
  obtain ⟨⟨t4, postSize⟩, h4, h⟩ := Option.bind_eq_some_iff.mp h
  obtain ⟨⟨t5, responseSize, isInfinite⟩, h5, h⟩ := Option.bind_eq_some_iff.mp h
  obtain ⟨t6, h6, h⟩ := Option.bind_eq_some_iff.mp h
  obtain ⟨rfl, -⟩ := Prod.mk.inj (Option.some.inj h)
  have l0 := length_parseStreamSpaces_le text
  have l1 := length_parseStreamRepeat h1
  have l2 := length_parseNumberOrDefault h2
  have l3 := length_parseNumberOrDefault h3
  have l4 := length_parseNumberOrDefault h4
  have l4' := length_parseStreamSpaces_le t3
  have l5 : t5.length ≤ (quicperfParseStreamSpaces t4).length := by
    rw [quicperfParseResponseSize] at h5
    split_ifs at h5 with hpresent
    rw [← (Prod.mk.inj (Option.some.inj h5)).1]
    exact Nat.le_of_lt (length_parseNumber hpresent)
  have l5' := length_parseStreamSpaces_le t4
  have l6 : t6.length ≤ t5.length := by
    unfold skipSemicolon at h6
    split at h6
    · rw [← Option.some.inj h6]
    · rw [← Option.some.inj h6]
      exact Nat.le_succ _
    · exact absurd h6 (by simp)
  omega

/-! ### The whole text -/

/-- The loop of `quicperf_parse_scenario_desc`: the entries, and whether the text was accepted. The
loop also ends, without an error, when all entries are used. -/
def parseScenarioLoop (nbDesc : ℕ) (text : List Char) (desc : List QuicperfStreamDesc)
    (streamId previous : ℕ) : List QuicperfStreamDesc × Bool :=
  let text := quicperfParseStreamSpaces text
  if text = [] then (desc, true)
  else if nbDesc ≤ desc.length then (desc, true)
  else
    match _h : quicperfParseStreamDesc text streamId previous with
    | none => (desc, false)
    | some (text, d) =>
      parseScenarioLoop nbDesc text (desc ++ [d]) (u64 (d.streamId + 4)) d.streamId
  termination_by text.length
  decreasing_by exact Nat.lt_of_lt_of_le (length_parseStreamDesc _h) (length_parseStreamSpaces_le _)

/-- What `quicperf_parse_scenario_desc` returns: the number of entries that are allocated, those
that are written, and whether it returns zero. -/
structure ParsedScenario where
  nbDesc : ℕ
  desc : List QuicperfStreamDesc
  isOk : Bool

/-- `quicperf_parse_scenario_desc`. -/
def quicperfParseScenarioDesc (text : List Char) : ParsedScenario :=
  let nbDesc := quicperfParseNbStream text
  let (desc, isOk) := parseScenarioLoop nbDesc text [] 0 quicperfStreamIdInitial
  ⟨nbDesc, desc, isOk⟩

end Picoquic
