import Mathlib.Data.List.TakeWhile
import Picoquic.Quicperf.Scenario

/-!
# The grammar of descriptions

A text is put together from pieces, each with a lemma that says how it is read and one that says
that what is read is such a piece.

* **`NumberText`**, **`ColonText`**, **`FieldText`**, **`RepeatText`** — the pieces;
* **`DescText`** — a description, with numbers of any size;
* **`parseStreamDesc_append`**, **`exists_descText`** — the parser takes descriptions, and only
  them.
-/

namespace Picoquic

/-! ### Pieces of text -/

/-- Characters that are skipped. -/
def Blank : Type := { s : List Char // ∀ c ∈ s, isStreamSpace c = true }

/-- Decimal digits. -/
def Digits : Type := { s : List Char // ∀ c ∈ s, c.isDigit = true }

/-- The number that some digits continue. -/
def digitsFrom (n : ℕ) (s : List Char) : ℕ := s.foldl (fun n c => n * 10 + (c.toNat - 48)) n

/-- The number that digits stand for. -/
def Digits.value (d : Digits) : ℕ := digitsFrom 0 d.val

/-- A number, which may have a sign; then there need not be digits. -/
structure NumberText where
  isSigned : Bool
  digits : Digits
  isPresent : isSigned = true ∨ digits.val ≠ []

def NumberText.text (n : NumberText) : List Char :=
  (if n.isSigned then ['-'] else []) ++ n.digits.val

/-- A colon between blanks. -/
structure ColonText where
  before : Blank
  after : Blank

def ColonText.text (c : ColonText) : List Char := c.before.val ++ ':' :: c.after.val

/-- The text does not start with a blank. -/
def NoBlank (text : List Char) : Prop := ∀ c ∈ text.head?, isStreamSpace c = false

/-- The text does not start with a digit. -/
def NoDigit (text : List Char) : Prop := ∀ c ∈ text.head?, c.isDigit = false

theorem not_isDigit_of_isStreamSpace {c : Char} (h : isStreamSpace c = true) :
    c.isDigit = false := by
  simp only [isStreamSpace, Bool.or_eq_true, beq_iff_eq] at h
  rcases h with ((rfl | rfl) | rfl) | rfl <;> decide

theorem not_isStreamSpace_of_isDigit {c : Char} (h : c.isDigit = true) :
    isStreamSpace c = false := by
  refine Bool.eq_false_iff.mpr fun hspace => ?_
  rw [not_isDigit_of_isStreamSpace hspace] at h
  exact Bool.false_ne_true h

/-! ### Blanks and digits -/

theorem parseStreamSpaces_append (b : Blank) {rest : List Char} (h : NoBlank rest) :
    quicperfParseStreamSpaces (b.val ++ rest) = rest := by
  rw [quicperfParseStreamSpaces, List.dropWhile_append_of_pos b.property]
  cases rest with
  | nil => rfl
  | cons c rest => exact List.dropWhile_cons_of_neg (by rw [h c rfl]; decide)

theorem parseStreamSpaces_of_noBlank {text : List Char} (h : NoBlank text) :
    quicperfParseStreamSpaces text = text := parseStreamSpaces_append ⟨[], by simp⟩ h

theorem head_dropWhile {p : Char → Bool} (text : List Char) :
    ∀ c ∈ (text.dropWhile p).head?, p c = false := by
  intro c hc
  have h := List.head?_dropWhile_not p text
  rw [Option.mem_def.mp hc] at h
  exact h

theorem noBlank_parseStreamSpaces (text : List Char) : NoBlank (quicperfParseStreamSpaces text) :=
  head_dropWhile text

theorem exists_blank (text : List Char) : ∃ b : Blank,
    text = b.val ++ quicperfParseStreamSpaces text :=
  ⟨⟨text.takeWhile isStreamSpace, fun _ => List.mem_takeWhile_imp⟩,
    List.takeWhile_append_dropWhile.symm⟩

/-- Digits are read from left to right, modulo `2 ^ 64`. -/
theorem parseDigits_append (s : List Char) (hs : ∀ c ∈ s, c.isDigit = true) {rest : List Char}
    (hrest : NoDigit rest) (isPresent : Bool) (m : ℕ) :
    parseDigits (s ++ rest) isPresent (u64 m) =
      (rest, isPresent || !s.isEmpty, u64 (digitsFrom m s)) := by
  induction s generalizing isPresent m with
  | nil =>
    rw [List.nil_append, List.isEmpty_nil, Bool.not_true, Bool.or_false]
    cases rest with
    | nil => rfl
    | cons c rest =>
      rw [parseDigits, if_neg (by rw [hrest c rfl]; decide)]
      rfl
  | cons c s ih =>
    obtain ⟨hc, hs⟩ := List.forall_mem_cons.mp hs
    have hstep : u64 (u64 (u64 m * 10) + (c.toNat - 48)) = u64 (m * 10 + (c.toNat - 48)) := by
      rw [u64, u64, u64, u64]
      omega
    rw [List.cons_append, parseDigits, if_pos hc, hstep, ih hs]
    simp [digitsFrom]

theorem Digits.parse_append (d : Digits) {rest : List Char} (hrest : NoDigit rest)
    (isPresent : Bool) :
    parseDigits (d.val ++ rest) isPresent 0 =
      (rest, isPresent || !d.val.isEmpty, u64 d.value) :=
  parseDigits_append d.val d.property hrest isPresent 0

theorem exists_digits (text : List Char) :
    ∃ (d : Digits) (rest : List Char), text = d.val ++ rest ∧ NoDigit rest :=
  ⟨⟨text.takeWhile Char.isDigit, fun _ => List.mem_takeWhile_imp⟩, text.dropWhile Char.isDigit,
    List.takeWhile_append_dropWhile.symm, head_dropWhile text⟩

/-! ### Numbers -/

/-- A blank or a colon ends the digits. -/
theorem ColonText.noDigit (c : ColonText) (rest : List Char) : NoDigit (c.text ++ rest) := by
  obtain ⟨⟨before, hbefore⟩, after⟩ := c
  intro x hx
  cases before with
  | nil =>
    obtain rfl := Option.some.inj hx
    decide
  | cons y before =>
    obtain rfl := Option.some.inj hx
    exact not_isDigit_of_isStreamSpace (hbefore _ List.mem_cons_self)

theorem skipColon_append (c : ColonText) {rest : List Char} (h : NoBlank rest) :
    quicperfSkipColon (c.text ++ rest) = some rest := by
  have hcolon : NoBlank (':' :: (c.after.val ++ rest)) := by
    intro x hx
    obtain rfl := Option.some.inj hx
    decide
  have hspaces : quicperfParseStreamSpaces (c.text ++ rest) = ':' :: (c.after.val ++ rest) := by
    rw [ColonText.text, List.append_assoc, List.cons_append, parseStreamSpaces_append _ hcolon]
  rw [quicperfSkipColon, hspaces]
  exact congrArg some (parseStreamSpaces_append c.after h)

theorem exists_colonText {text rest : List Char} (h : quicperfSkipColon text = some rest) :
    ∃ c : ColonText, text = c.text ++ rest ∧ NoBlank rest := by
  obtain ⟨b, hb⟩ := exists_blank text
  unfold quicperfSkipColon at h
  split at h
  · next after heq =>
    obtain ⟨b', hb'⟩ := exists_blank after
    obtain rfl := Option.some.inj h
    refine ⟨⟨b, b'⟩, ?_, noBlank_parseStreamSpaces after⟩
    rw [ColonText.text, List.append_assoc, List.cons_append, ← hb', ← heq]
    exact hb
  · exact absurd h (by simp)

theorem skipColon_parseStreamSpaces (text : List Char) :
    quicperfSkipColon (quicperfParseStreamSpaces text) = quicperfSkipColon text := by
  have h := parseStreamSpaces_of_noBlank (noBlank_parseStreamSpaces text)
  rw [quicperfSkipColon, quicperfSkipColon, h]

theorem NumberText.head (n : NumberText) (rest : List Char) :
    ∃ c tail, n.text ++ rest = c :: tail ∧ (c = '-' ∨ c.isDigit = true) := by
  obtain ⟨isSigned, ⟨digits, hdigits⟩, hpresent⟩ := n
  cases isSigned with
  | true => exact ⟨'-', digits ++ rest, rfl, .inl rfl⟩
  | false =>
    obtain ⟨c, tail, rfl⟩ := List.exists_cons_of_ne_nil (hpresent.resolve_left Bool.false_ne_true)
    exact ⟨c, tail ++ rest, rfl, .inr (hdigits c List.mem_cons_self)⟩

theorem NumberText.noBlank (n : NumberText) (rest : List Char) : NoBlank (n.text ++ rest) := by
  obtain ⟨c, tail, heq, hc⟩ := n.head rest
  rw [heq]
  intro x hx
  obtain rfl := Option.some.inj hx
  rcases hc with rfl | hdigit
  · decide
  · exact not_isStreamSpace_of_isDigit hdigit

theorem parseNumber_signed (text : List Char) :
    quicperfParseNumber ('-' :: text) true =
      ⟨quicperfParseStreamSpaces (parseDigits text true 0).1, (parseDigits text true 0).2.1, true,
        (parseDigits text true 0).2.2⟩ := rfl

theorem parseNumber_unsigned {text : List Char} {maySign : Bool}
    (h : maySign = true → text.head? ≠ some '-') :
    quicperfParseNumber text maySign =
      ⟨quicperfParseStreamSpaces (parseDigits text false 0).1, (parseDigits text false 0).2.1,
        false, (parseDigits text false 0).2.2⟩ := by
  have hsign : (maySign && text.head? == some '-') = false := by
    cases maySign with
    | true => exact beq_eq_false_iff_ne.mpr (h rfl)
    | false => rfl
  rw [quicperfParseNumber, hsign]
  rfl

/-- **A number is read.** Its value is taken modulo `2 ^ 64`. -/
theorem parseNumber_append (n : NumberText) {rest : List Char} (hrest : NoDigit rest) :
    quicperfParseNumber (n.text ++ rest) true =
      ⟨quicperfParseStreamSpaces rest, true, n.isSigned, u64 n.digits.value⟩ := by
  have hhead := n.head rest
  obtain ⟨isSigned, digits, hpresent⟩ := n
  cases isSigned with
  | true =>
    have hdigits := digits.parse_append hrest true
    rw [show NumberText.text ⟨true, digits, hpresent⟩ ++ rest =
        '-' :: (digits.val ++ rest) from rfl, parseNumber_signed, hdigits, Bool.true_or]
  | false =>
    have hne := hpresent.resolve_left Bool.false_ne_true
    have hdigits := digits.parse_append hrest false
    rw [show NumberText.text ⟨false, digits, hpresent⟩ ++ rest = digits.val ++ rest from rfl]
      at hhead ⊢
    have hunsigned : (digits.val ++ rest).head? ≠ some '-' := by
      obtain ⟨c, tail, hd⟩ := List.exists_cons_of_ne_nil hne
      rw [hd]
      intro hc
      obtain rfl := Option.some.inj hc
      have hminus := digits.property '-' (hd ▸ List.mem_cons_self)
      exact absurd hminus (by decide)
    have hisEmpty : digits.val.isEmpty = false := List.isEmpty_eq_false_iff.mpr hne
    rw [parseNumber_unsigned fun _ => hunsigned, hdigits, hisEmpty]
    rfl

/-- **Where a number is found, there is one.** -/
theorem exists_numberText {text : List Char}
    (h : (quicperfParseNumber text true).isPresent = true) :
    ∃ (n : NumberText) (rest : List Char), text = n.text ++ rest ∧ NoDigit rest := by
  by_cases hsign : text.head? = some '-'
  · obtain ⟨tail, rfl⟩ := List.head?_eq_some_iff.mp hsign
    obtain ⟨digits, rest, rfl, hrest⟩ := exists_digits tail
    exact ⟨⟨true, digits, .inl rfl⟩, rest, rfl, hrest⟩
  · obtain ⟨digits, rest, rfl, hrest⟩ := exists_digits text
    rw [parseNumber_unsigned fun _ => hsign, digits.parse_append hrest] at h
    have hne : digits.val ≠ [] := by
      intro hnil
      rw [hnil] at h
      exact Bool.false_ne_true h
    exact ⟨⟨false, digits, .inr hne⟩, rest, rfl, hrest⟩

/-! ### Fields -/

/-- A number that the parser of identifiers takes: behind a sign, one that is zero to it. -/
def NumberText.Accepted (n : NumberText) : Prop := n.isSigned = true → u64 n.digits.value = 0

instance (n : NumberText) : Decidable n.Accepted := inferInstanceAs (Decidable (_ → _))

/-- The number that stands in the text, or the default for a sign; `w` is the width of numbers. -/
def NumberText.orDefault (w : ℕ → ℕ) (n : NumberText) (defaultNumber : ℕ) : ℕ :=
  if n.isSigned then defaultNumber else w n.digits.value

/-- A field ends with a colon. -/
structure FieldText where
  number : NumberText
  colon : ColonText

def FieldText.text (f : FieldText) : List Char := f.number.text ++ f.colon.text

theorem FieldText.noBlank (f : FieldText) (rest : List Char) : NoBlank (f.text ++ rest) := by
  rw [FieldText.text, List.append_assoc]
  exact f.number.noBlank _

theorem parseNumberOrDefault_append (f : FieldText) {rest : List Char} (h : NoBlank rest)
    (defaultNumber : ℕ) :
    parseNumberOrDefault (f.text ++ rest) defaultNumber =
      if f.number.Accepted then some (rest, f.number.orDefault u64 defaultNumber) else none := by
  have hnumber := parseNumber_append f.number (f.colon.noDigit rest)
  have hcolon :
      quicperfSkipColon (quicperfParseStreamSpaces (f.colon.text ++ rest)) = some rest := by
    rw [skipColon_parseStreamSpaces, skipColon_append f.colon h]
  rw [FieldText.text, List.append_assoc, parseNumberOrDefault, hnumber]
  dsimp only
  rw [hcolon, Option.map_some, Option.map_some]
  by_cases hacc : f.number.Accepted
  · rw [if_pos hacc, NumberText.orDefault]
    cases hsign : f.number.isSigned with
    | true => simp [hacc hsign]
    | false => simp
  · obtain ⟨hsign, hne⟩ := Classical.not_imp.mp hacc
    rw [if_neg hacc, hsign]
    simp [hne]

theorem exists_fieldText {text rest : List Char} {defaultNumber m : ℕ}
    (h : parseNumberOrDefault text defaultNumber = some (rest, m)) :
    ∃ f : FieldText, text = f.text ++ rest ∧ NoBlank rest := by
  have hpresent : (quicperfParseNumber text true).isPresent = true := by
    by_contra habsent
    rw [parseNumberOrDefault, Bool.eq_false_iff.mpr habsent] at h
    exact absurd h (by simp)
  obtain ⟨n, tail, rfl, htail⟩ := exists_numberText hpresent
  have hcolon : quicperfSkipColon (quicperfParseStreamSpaces tail) = some rest := by
    rw [parseNumberOrDefault, parseNumber_append n htail] at h
    dsimp only at h
    split_ifs at h
    all_goals
      obtain ⟨after, hafter, heq⟩ := Option.map_eq_some_iff.mp h
      obtain ⟨rfl, -⟩ := Prod.mk.inj heq
      exact hafter
  rw [skipColon_parseStreamSpaces] at hcolon
  obtain ⟨c, rfl, hrest⟩ := exists_colonText hcolon
  refine ⟨⟨n, c⟩, ?_, hrest⟩
  rw [FieldText.text, List.append_assoc]

/-- The number of repetitions, behind a star. -/
structure RepeatText where
  digits : Digits
  isPresent : digits.val ≠ []
  colon : ColonText

def RepeatText.text (r : RepeatText) : List Char := '*' :: (r.digits.val ++ r.colon.text)

theorem RepeatText.noBlank (r : RepeatText) (rest : List Char) : NoBlank (r.text ++ rest) := by
  intro x hx
  obtain rfl := Option.some.inj hx
  decide

theorem parseStreamRepeat_append (r : RepeatText) {rest : List Char} (h : NoBlank rest) :
    quicperfParseStreamRepeat (r.text ++ rest) = some (rest, u64 r.digits.value) := by
  have hdigits := r.digits.parse_append (r.colon.noDigit rest) false
  have hcolon :
      quicperfSkipColon (quicperfParseStreamSpaces (r.colon.text ++ rest)) = some rest := by
    rw [skipColon_parseStreamSpaces, skipColon_append r.colon h]
  have hne : r.digits.val.isEmpty = false := List.isEmpty_eq_false_iff.mpr r.isPresent
  have hnumber : quicperfParseNumber (r.digits.val ++ (r.colon.text ++ rest)) false =
      ⟨quicperfParseStreamSpaces (r.colon.text ++ rest), true, false, u64 r.digits.value⟩ := by
    rw [parseNumber_unsigned (by simp), hdigits, hne]
    rfl
  rw [RepeatText.text, List.cons_append, List.append_assoc]
  simp only [quicperfParseStreamRepeat, hnumber, hcolon, if_true, Option.map_some]

theorem exists_repeatText {text rest : List Char} {m : ℕ}
    (h : quicperfParseStreamRepeat text = some (rest, m)) :
    (rest = text ∧ m = 1 ∧ text.head? ≠ some '*') ∨
      ∃ r : RepeatText, text = r.text ++ rest ∧ NoBlank rest := by
  unfold quicperfParseStreamRepeat at h
  split at h
  · next after =>
    dsimp only at h
    split_ifs at h with hpresent
    obtain ⟨digits, tail, rfl, htail⟩ := exists_digits after
    rw [parseNumber_unsigned (by simp), digits.parse_append htail] at h hpresent
    have hne : digits.val ≠ [] := by
      intro hnil
      rw [hnil] at hpresent
      exact Bool.false_ne_true hpresent
    obtain ⟨rest', hcolon, heq⟩ := Option.map_eq_some_iff.mp h
    obtain ⟨rfl, -⟩ := Prod.mk.inj heq
    dsimp only at hcolon
    rw [skipColon_parseStreamSpaces] at hcolon
    obtain ⟨c, rfl, hrest⟩ := exists_colonText hcolon
    refine .inr ⟨⟨digits, hne, c⟩, ?_, hrest⟩
    rw [RepeatText.text, List.cons_append, List.append_assoc]
  · next hstar =>
    obtain ⟨rfl, rfl⟩ := Prod.mk.inj (Option.some.inj h)
    refine .inl ⟨rfl, rfl, fun hhead => ?_⟩
    obtain ⟨tail, htail⟩ := List.head?_eq_some_iff.mp hhead
    exact hstar tail htail

/-! ### Descriptions -/

/-- The text of a description, without the semicolon. -/
structure DescText where
  before : Blank
  repeatCount : Option RepeatText
  streamId : FieldText
  previousStreamId : FieldText
  postSize : FieldText
  responseSize : NumberText
  after : Blank

namespace DescText

variable (y : DescText)

def repeatText : List Char := (y.repeatCount.map RepeatText.text).getD []

def text : List Char :=
  y.before.val ++ (y.repeatText ++ (y.streamId.text ++ (y.previousStreamId.text ++
    (y.postSize.text ++ (y.responseSize.text ++ y.after.val)))))

/-- What the description says, with numbers of width `w`. -/
def desc (w : ℕ → ℕ) (defaultStream defaultPrevious : ℕ) : QuicperfStreamDesc where
  repeatCount := (y.repeatCount.map fun r => w r.digits.value).getD 1
  streamId := y.streamId.number.orDefault w defaultStream
  previousStreamId := y.previousStreamId.number.orDefault w defaultPrevious
  postSize := y.postSize.number.orDefault w 0
  responseSize := w y.responseSize.digits.value
  isInfinite := y.responseSize.isSigned

/-- The parser takes the description. -/
def Accepted : Prop :=
  y.streamId.number.Accepted ∧ y.previousStreamId.number.Accepted ∧ y.postSize.number.Accepted

instance : Decidable y.Accepted := inferInstanceAs (Decidable (_ ∧ _))

/-- The numbers of the description. -/
def numbers : List ℕ :=
  (y.repeatCount.map fun r => r.digits.value).toList ++
    [y.streamId.number.digits.value, y.previousStreamId.number.digits.value,
      y.postSize.number.digits.value, y.responseSize.digits.value]

/-- All numbers fit 64 bits. -/
def Fits : Prop := ∀ n ∈ y.numbers, n < 2 ^ 64

instance : Decidable y.Fits := inferInstanceAs (Decidable (∀ n ∈ _, _))

end DescText

/-- What follows a description: nothing, or a semicolon and more text. -/
def afterDesc : Option (List Char) → List Char
  | none => []
  | some rest => ';' :: rest

theorem noBlank_afterDesc (more : Option (List Char)) : NoBlank (afterDesc more) := by
  intro x hx
  cases more with
  | none => exact absurd hx (by simp [afterDesc])
  | some rest =>
    obtain rfl := Option.some.inj hx
    decide

theorem skipSemicolon_afterDesc (more : Option (List Char)) :
    skipSemicolon (afterDesc more) = some (more.getD []) := by
  cases more <;> rfl

/-- A blank, a semicolon or the end of the text ends the digits. -/
theorem noDigit_afterDesc (b : Blank) (more : Option (List Char)) :
    NoDigit (b.val ++ afterDesc more) := by
  obtain ⟨b, hb⟩ := b
  intro x hx
  cases b with
  | nil =>
    cases more with
    | none => exact absurd hx (by simp [afterDesc])
    | some rest =>
      obtain rfl := Option.some.inj hx
      decide
  | cons c b =>
    obtain rfl := Option.some.inj hx
    exact not_isDigit_of_isStreamSpace (hb _ List.mem_cons_self)

theorem parseStreamRepeat_of_ne {text : List Char} (h : text.head? ≠ some '*') :
    quicperfParseStreamRepeat text = some (text, 1) := by
  unfold quicperfParseStreamRepeat
  split
  · exact absurd rfl h
  · rfl

theorem FieldText.head_ne_star (f : FieldText) (rest : List Char) :
    (f.text ++ rest).head? ≠ some '*' := by
  obtain ⟨c, tail, heq, hc⟩ := f.number.head (f.colon.text ++ rest)
  rw [FieldText.text, List.append_assoc, heq]
  intro hhead
  obtain rfl := Option.some.inj hhead
  revert hc
  decide

theorem DescText.parseRepeat_append (y : DescText) {rest : List Char} (h : NoBlank rest)
    (hstar : rest.head? ≠ some '*') :
    quicperfParseStreamRepeat (y.repeatText ++ rest) =
      some (rest, (y.repeatCount.map fun r => u64 r.digits.value).getD 1) := by
  rw [DescText.repeatText]
  cases y.repeatCount with
  | none => exact parseStreamRepeat_of_ne hstar
  | some r => exact parseStreamRepeat_append r h

theorem parseResponseSize_append (n : NumberText) {rest : List Char} (h : NoDigit rest) :
    quicperfParseResponseSize (n.text ++ rest) =
      some (quicperfParseStreamSpaces rest, u64 n.digits.value, n.isSigned) := by
  rw [quicperfParseResponseSize, parseNumber_append n h]
  rfl

/-- **A description is read as it stands**, modulo `2 ^ 64`, if its signs are accepted. -/
theorem parseStreamDesc_append (y : DescText) (more : Option (List Char))
    (defaultStream defaultPrevious : ℕ) :
    quicperfParseStreamDesc (y.text ++ afterDesc more) defaultStream defaultPrevious =
      if y.Accepted then some (more.getD [], y.desc u64 defaultStream defaultPrevious)
      else none := by
  -- what is left in front of each field
  obtain ⟨t4, ht4⟩ : ∃ t, t = y.responseSize.text ++ (y.after.val ++ afterDesc more) := ⟨_, rfl⟩
  obtain ⟨t3, ht3⟩ : ∃ t, t = y.postSize.text ++ t4 := ⟨_, rfl⟩
  obtain ⟨t2, ht2⟩ : ∃ t, t = y.previousStreamId.text ++ t3 := ⟨_, rfl⟩
  obtain ⟨t1, ht1⟩ : ∃ t, t = y.streamId.text ++ t2 := ⟨_, rfl⟩
  have htext : y.text ++ afterDesc more = y.before.val ++ (y.repeatText ++ t1) := by
    rw [DescText.text, ht1, ht2, ht3, ht4]
    simp only [List.append_assoc]
  have b4 : NoBlank t4 := ht4 ▸ y.responseSize.noBlank _
  have b3 : NoBlank t3 := ht3 ▸ y.postSize.noBlank _
  have b2 : NoBlank t2 := ht2 ▸ y.previousStreamId.noBlank _
  have b1 : NoBlank t1 := ht1 ▸ y.streamId.noBlank _
  have s1 : t1.head? ≠ some '*' := ht1 ▸ y.streamId.head_ne_star _
  have b0 : NoBlank (y.repeatText ++ t1) := by
    rw [DescText.repeatText]
    cases y.repeatCount with
    | none => exact b1
    | some r => exact r.noBlank _
  have hresponse : quicperfParseResponseSize t4 =
      some (afterDesc more, u64 y.responseSize.digits.value, y.responseSize.isSigned) := by
    rw [ht4, parseResponseSize_append _ (noDigit_afterDesc _ _),
      parseStreamSpaces_append _ (noBlank_afterDesc _)]
  have hstream := parseNumberOrDefault_append y.streamId b2 defaultStream
  have hprevious := parseNumberOrDefault_append y.previousStreamId b3 defaultPrevious
  have hpost := parseNumberOrDefault_append y.postSize b4 0
  rw [← ht1] at hstream
  rw [← ht2] at hprevious
  rw [← ht3] at hpost
  rw [quicperfParseStreamDesc, htext, parseStreamSpaces_append _ b0, y.parseRepeat_append b1 s1]
  simp only [Option.bind_eq_bind, Option.bind_some, quicperfParseStreamNumber, hstream]
  by_cases h1 : y.streamId.number.Accepted
  · rw [if_pos h1, Option.bind_some, hprevious]
    by_cases h2 : y.previousStreamId.number.Accepted
    · rw [if_pos h2, Option.bind_some, parseStreamSpaces_of_noBlank b3, quicperfParsePostSize,
        hpost]
      by_cases h3 : y.postSize.number.Accepted
      · rw [if_pos h3, if_pos ⟨h1, h2, h3⟩, Option.bind_some, parseStreamSpaces_of_noBlank b4,
          hresponse, Option.bind_some, skipSemicolon_afterDesc]
        rfl
      · rw [if_neg h3, if_neg fun h => h3 h.2.2]
        rfl
    · rw [if_neg h2, if_neg fun h => h2 h.2.1]
      rfl
  · rw [if_neg h1, if_neg fun h => h1 h.1]
    rfl

/-- **What is read as a description is one.** -/
theorem exists_descText {text rest : List Char} {defaultStream defaultPrevious : ℕ}
    {d : QuicperfStreamDesc}
    (h : quicperfParseStreamDesc text defaultStream defaultPrevious = some (rest, d)) :
    ∃ (y : DescText) (more : Option (List Char)), text = y.text ++ afterDesc more := by
  rw [quicperfParseStreamDesc] at h
  obtain ⟨⟨t1, repeatCount⟩, h1, h⟩ := Option.bind_eq_some_iff.mp h
  obtain ⟨⟨t2, streamId⟩, h2, h⟩ := Option.bind_eq_some_iff.mp h
  obtain ⟨⟨t3, previousStreamId⟩, h3, h⟩ := Option.bind_eq_some_iff.mp h
  obtain ⟨⟨t4, postSize⟩, h4, h⟩ := Option.bind_eq_some_iff.mp h
  obtain ⟨⟨t5, responseSize, isInfinite⟩, h5, h⟩ := Option.bind_eq_some_iff.mp h
  obtain ⟨t6, h6, -⟩ := Option.bind_eq_some_iff.mp h
  obtain ⟨b, hb⟩ := exists_blank text
  obtain ⟨f1, rfl, -⟩ := exists_fieldText h2
  obtain ⟨f2, rfl, b3⟩ := exists_fieldText h3
  rw [parseStreamSpaces_of_noBlank b3] at h4
  obtain ⟨f3, rfl, b4⟩ := exists_fieldText h4
  rw [parseStreamSpaces_of_noBlank b4] at h5
  rw [quicperfParseResponseSize] at h5
  split_ifs at h5 with hpresent
  obtain ⟨n, tail, rfl, htail⟩ := exists_numberText hpresent
  rw [parseNumber_append n htail] at h5
  obtain ⟨rfl, -⟩ := Prod.mk.inj (Option.some.inj h5)
  obtain ⟨b', hb'⟩ := exists_blank tail
  have hmore : ∃ more, quicperfParseStreamSpaces tail = afterDesc more := by
    unfold skipSemicolon at h6
    split at h6
    · next hnil => exact ⟨none, hnil⟩
    · next after hsemi => exact ⟨some after, hsemi⟩
    · exact absurd h6 (by simp)
  obtain ⟨more, hmore⟩ := hmore
  rw [hmore] at hb'
  rcases exists_repeatText h1 with ⟨hrest, -, -⟩ | ⟨r, hrest, -⟩
  · refine ⟨⟨b, none, f1, f2, f3, n, b'⟩, more, ?_⟩
    rw [hb, ← hrest, hb']
    simp [DescText.text, DescText.repeatText]
  · refine ⟨⟨b, some r, f1, f2, f3, n, b'⟩, more, ?_⟩
    rw [hb, hrest, hb']
    simp [DescText.text, DescText.repeatText]

end Picoquic
