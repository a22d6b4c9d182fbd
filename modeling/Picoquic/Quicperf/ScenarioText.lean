import Picoquic.Quicperf.DescText

/-!
# The grammar of scenarios

Two scans of the text have to agree: one counts semicolons to allocate entries, the other fills
them.

* **`ScenarioText`** — the texts, and the descriptions they have;
* **`ScenarioText.count`**, **`ScenarioText.count_of_endsBlank`** — the first scan;
* **`parseScenarioLoop_of_accepted`**, **`exists_scenarioText`** — the second;
* **`parsesScenario_iff`** — when a text is read as it says, or refused.

Numbers are reduced to 64 bits, and blanks behind the last semicolon are counted as a description.
-/

namespace Picoquic

/-! ### Semicolons -/

theorem Blank.semicolon_not_mem (b : Blank) : ';' ∉ b.val := fun h =>
  absurd (b.property _ h) (by decide)

theorem Digits.semicolon_not_mem (d : Digits) : ';' ∉ d.val := fun h =>
  absurd (d.property _ h) (by decide)

theorem ColonText.semicolon_not_mem (c : ColonText) : ';' ∉ c.text := by
  have h1 := c.before.semicolon_not_mem
  have h2 := c.after.semicolon_not_mem
  simp [text, h1, h2]

theorem NumberText.semicolon_not_mem (n : NumberText) : ';' ∉ n.text := by
  have h := n.digits.semicolon_not_mem
  rw [text]
  split_ifs
  · simp [h]
  · simpa using h

theorem FieldText.semicolon_not_mem (f : FieldText) : ';' ∉ f.text := by
  have h1 := f.number.semicolon_not_mem
  have h2 := f.colon.semicolon_not_mem
  simp [text, h1, h2]

theorem RepeatText.semicolon_not_mem (r : RepeatText) : ';' ∉ r.text := by
  have h1 := r.digits.semicolon_not_mem
  have h2 := r.colon.semicolon_not_mem
  simp [text, h1, h2]

/-- There is no semicolon in a description. -/
theorem DescText.semicolon_not_mem (y : DescText) : ';' ∉ y.text := by
  have h0 := y.before.semicolon_not_mem
  have h1 := y.streamId.semicolon_not_mem
  have h2 := y.previousStreamId.semicolon_not_mem
  have h3 := y.postSize.semicolon_not_mem
  have h4 := y.responseSize.semicolon_not_mem
  have h5 := y.after.semicolon_not_mem
  have hrepeat : ';' ∉ y.repeatText := by
    rw [repeatText]
    cases y.repeatCount with
    | none => exact List.not_mem_nil
    | some r => exact r.semicolon_not_mem
  simp [text, h0, h1, h2, h3, h4, h5, hrepeat]

theorem DescText.colon_mem (y : DescText) : ':' ∈ y.text := by
  simp [text, FieldText.text, ColonText.text]

theorem DescText.text_ne_nil (y : DescText) : y.text ≠ [] := List.ne_nil_of_mem y.colon_mem

/-! ### Counting -/

theorem parseNbStreamLoop_add (text : List Char) (n k afterSemi : ℕ) :
    parseNbStreamLoop text (n + k) afterSemi = parseNbStreamLoop text n afterSemi + k := by
  induction text generalizing n afterSemi with
  | nil => exact Nat.add_right_comm n k afterSemi
  | cons c text ih =>
    rw [parseNbStreamLoop, parseNbStreamLoop]
    split_ifs
    · rw [Nat.add_right_comm, ih]
    · rw [ih]

theorem le_parseNbStreamLoop (text : List Char) (n : ℕ) {afterSemi : ℕ} (h : afterSemi ≤ 1) :
    n + afterSemi ≤ parseNbStreamLoop text n afterSemi := by
  induction text generalizing n afterSemi with
  | nil => exact Nat.le_refl _
  | cons c text ih =>
    rw [parseNbStreamLoop]
    split_ifs
    · exact (Nat.add_le_add_left h n).trans (ih (n + 1) (Nat.zero_le 1))
    · exact (Nat.add_le_add_left h n).trans (ih n (Nat.le_refl 1))

theorem parseNbStreamLoop_pos {text : List Char} (h : text ≠ []) (n afterSemi : ℕ) :
    n < parseNbStreamLoop text n afterSemi := by
  obtain ⟨c, text, rfl⟩ := List.exists_cons_of_ne_nil h
  rw [parseNbStreamLoop]
  split_ifs
  · exact le_parseNbStreamLoop text (n + 1) (Nat.zero_le 1)
  · exact le_parseNbStreamLoop text n (Nat.le_refl 1)

theorem parseNbStreamLoop_append {s : List Char} (hs : ';' ∉ s) (hne : s ≠ []) (rest : List Char)
    (n afterSemi : ℕ) :
    parseNbStreamLoop (s ++ rest) n afterSemi = parseNbStreamLoop rest n 1 := by
  induction s generalizing afterSemi with
  | nil => exact absurd rfl hne
  | cons c s ih =>
    obtain ⟨hc, hs⟩ := List.ne_and_not_mem_of_not_mem_cons hs
    rw [List.cons_append, parseNbStreamLoop, if_neg (Ne.symm hc)]
    by_cases hnil : s = []
    · rw [hnil, List.nil_append]
    · exact ih hs hnil 1

theorem parseNbStreamLoop_of_semicolon_not_mem {s : List Char} (hs : ';' ∉ s) (hne : s ≠ [])
    (afterSemi : ℕ) : parseNbStreamLoop s 0 afterSemi = 1 := by
  have h := parseNbStreamLoop_append hs hne [] 0 afterSemi
  rwa [List.append_nil] at h

theorem DescText.parseNbStreamLoop_append (y : DescText) (rest : List Char) (afterSemi : ℕ) :
    parseNbStreamLoop (y.text ++ ';' :: rest) 0 afterSemi = parseNbStreamLoop rest 0 0 + 1 := by
  rw [Picoquic.parseNbStreamLoop_append y.semicolon_not_mem y.text_ne_nil, parseNbStreamLoop,
    if_pos rfl]
  exact parseNbStreamLoop_add rest 0 1 0

/-! ### Whole texts -/

/-- Descriptions with semicolons between them; behind the last one there may be a semicolon, and
blanks. -/
inductive ScenarioText : List Char → List DescText → Prop
  | blank (b : Blank) : ScenarioText b.val []
  | last (y : DescText) : ScenarioText y.text [y]
  | cons (y : DescText) {rest : List Char} {ys : List DescText} (h : ScenarioText rest ys) :
    ScenarioText (y.text ++ ';' :: rest) (y :: ys)

/-- The entries of the descriptions; each sets the defaults of the next. -/
def entries (w : ℕ → ℕ) : List DescText → ℕ → ℕ → List QuicperfStreamDesc
  | [], _, _ => []
  | y :: ys, defaultStream, defaultPrevious =>
    let d := y.desc w defaultStream defaultPrevious
    d :: entries w ys (u64 (d.streamId + 4)) d.streamId

/-- There are blanks at the end of the text, and no description since the last semicolon. -/
def EndsBlank (text : List Char) : Prop :=
  ∃ b : Blank, b.val ≠ [] ∧ (text = b.val ∨ ∃ front, text = front ++ ';' :: b.val)

theorem EndsBlank.of_append {s rest : List Char} (h : EndsBlank rest) :
    EndsBlank (s ++ ';' :: rest) := by
  obtain ⟨b, hb, rfl | ⟨front, rfl⟩⟩ := h
  · exact ⟨b, hb, .inr ⟨s, rfl⟩⟩
  · exact ⟨b, hb, .inr ⟨s ++ ';' :: front, by simp⟩⟩

theorem EndsBlank.of_desc {y : DescText} {rest : List Char}
    (h : EndsBlank (y.text ++ ';' :: rest)) : EndsBlank rest := by
  obtain ⟨b, hb, heq | ⟨front, heq⟩⟩ := h
  · have hmem : ';' ∈ b.val := heq ▸ List.mem_append_right _ List.mem_cons_self
    exact absurd hmem b.semicolon_not_mem
  · rcases List.append_eq_append_iff.mp heq with ⟨as, -, has⟩ | ⟨bs, hbs, heq⟩
    · rcases List.cons_eq_append_iff.mp has with ⟨-, has⟩ | ⟨as', -, hrest⟩
      · exact ⟨b, hb, .inl (List.cons.inj has).2.symm⟩
      · exact ⟨b, hb, .inr ⟨as', hrest⟩⟩
    · rcases List.cons_eq_append_iff.mp heq with ⟨-, heq⟩ | ⟨bs', rfl, -⟩
      · exact ⟨b, hb, .inl (List.cons.inj heq).2⟩
      · have hmem : ';' ∈ y.text := hbs ▸ List.mem_append_right _ List.mem_cons_self
        exact absurd hmem y.semicolon_not_mem

theorem DescText.not_endsBlank (y : DescText) : ¬EndsBlank y.text := by
  rintro ⟨b, -, heq | ⟨front, heq⟩⟩
  · exact absurd (b.property ':' (heq ▸ y.colon_mem)) (by decide)
  · exact y.semicolon_not_mem (heq ▸ List.mem_append_right _ List.mem_cons_self)

/-- The count is the number of descriptions. -/
theorem ScenarioText.count {text : List Char} {ys : List DescText} (h : ScenarioText text ys)
    (hend : ¬EndsBlank text) {afterSemi : ℕ} (hafter : text = [] → afterSemi = 0) :
    parseNbStreamLoop text 0 afterSemi = ys.length := by
  induction h generalizing afterSemi with
  | blank b =>
    have hnil : b.val = [] := by
      by_contra hne
      exact hend ⟨b, hne, .inl rfl⟩
    rw [hafter hnil, hnil]
    rfl
  | last y => exact parseNbStreamLoop_of_semicolon_not_mem y.semicolon_not_mem y.text_ne_nil _
  | cons y h ih =>
    rw [y.parseNbStreamLoop_append, ih (fun hrest => hend hrest.of_append) fun _ => rfl]
    rfl

/-- Blanks at the end are counted as a description. -/
theorem ScenarioText.count_of_endsBlank {text : List Char} {ys : List DescText}
    (h : ScenarioText text ys) (hend : EndsBlank text) (afterSemi : ℕ) :
    parseNbStreamLoop text 0 afterSemi = ys.length + 1 := by
  induction h generalizing afterSemi with
  | blank b =>
    have hne : b.val ≠ [] := by
      obtain ⟨b', hb', heq | ⟨front, heq⟩⟩ := hend
      · exact heq ▸ hb'
      · exact heq ▸ List.append_ne_nil_of_right_ne_nil _ (List.cons_ne_nil _ _)
    exact parseNbStreamLoop_of_semicolon_not_mem b.semicolon_not_mem hne _
  | last y => exact absurd hend y.not_endsBlank
  | cons y h ih =>
    rw [y.parseNbStreamLoop_append, ih hend.of_desc]
    rfl

/-! ### Reading -/

theorem parseStreamDesc_parseStreamSpaces (text : List Char) (defaultStream defaultPrevious : ℕ) :
    quicperfParseStreamDesc (quicperfParseStreamSpaces text) defaultStream defaultPrevious =
      quicperfParseStreamDesc text defaultStream defaultPrevious := by
  have h := parseStreamSpaces_of_noBlank (noBlank_parseStreamSpaces text)
  rw [quicperfParseStreamDesc, quicperfParseStreamDesc, h]

theorem parseStreamSpaces_ne_nil (y : DescText) (rest : List Char) :
    quicperfParseStreamSpaces (y.text ++ rest) ≠ [] := by
  intro hnil
  have hblank := List.dropWhile_eq_nil_iff.mp hnil ':' (List.mem_append_left _ y.colon_mem)
  exact absurd hblank (by decide)

theorem parseScenarioLoop_blank (nbDesc : ℕ) (b : Blank) (desc : List QuicperfStreamDesc)
    (streamId previous : ℕ) :
    parseScenarioLoop nbDesc b.val desc streamId previous = (desc, true) := by
  have hnil : quicperfParseStreamSpaces b.val = [] := List.dropWhile_eq_nil_iff.mpr b.property
  rw [parseScenarioLoop, if_pos hnil]

/-- **Loop step.** A description is read into an entry of its own, or ends the loop. -/
theorem parseScenarioLoop_desc {nbDesc : ℕ} (y : DescText) (more : Option (List Char))
    {desc : List QuicperfStreamDesc} (h : desc.length < nbDesc) (streamId previous : ℕ) :
    parseScenarioLoop nbDesc (y.text ++ afterDesc more) desc streamId previous =
      if y.Accepted then
        parseScenarioLoop nbDesc (more.getD []) (desc ++ [y.desc u64 streamId previous])
          (u64 ((y.desc u64 streamId previous).streamId + 4))
          (y.desc u64 streamId previous).streamId
      else (desc, false) := by
  have hparse := parseStreamDesc_append y more streamId previous
  rw [← parseStreamDesc_parseStreamSpaces] at hparse
  rw [parseScenarioLoop, if_neg (parseStreamSpaces_ne_nil y _), if_neg (Nat.not_le.mpr h)]
  by_cases hacc : y.Accepted
  · rw [if_pos hacc] at hparse ⊢
    split
    · next hnone => exact absurd (hnone.symm.trans hparse) (by simp)
    · next rest d hsome =>
      obtain ⟨rfl, rfl⟩ := Prod.mk.inj (Option.some.inj (hsome.symm.trans hparse))
      rfl
  · rw [if_neg hacc] at hparse ⊢
    split
    · rfl
    · next rest d hsome => exact absurd (hsome.symm.trans hparse) (by simp)

theorem lt_of_count {nbDesc afterSemi : ℕ} {text : List Char} {desc : List QuicperfStreamDesc}
    (h : nbDesc = desc.length + parseNbStreamLoop text 0 afterSemi) (hne : text ≠ []) :
    desc.length < nbDesc := by
  rw [h]
  exact Nat.lt_add_of_pos_right (parseNbStreamLoop_pos hne 0 afterSemi)

theorem desc_append_afterDesc_ne_nil (y : DescText) (more : Option (List Char)) :
    y.text ++ afterDesc more ≠ [] := List.append_ne_nil_of_left_ne_nil y.text_ne_nil _

theorem count_desc {nbDesc afterSemi : ℕ} {rest : List Char} {desc : List QuicperfStreamDesc}
    (y : DescText) (d : QuicperfStreamDesc)
    (h : nbDesc = desc.length + parseNbStreamLoop (y.text ++ ';' :: rest) 0 afterSemi) :
    nbDesc = (desc ++ [d]).length + parseNbStreamLoop rest 0 0 := by
  rw [h, y.parseNbStreamLoop_append, List.length_append, List.length_singleton]
  omega

/-- **Loop.** Descriptions that are accepted are read in order. -/
theorem parseScenarioLoop_of_accepted {text : List Char} {ys : List DescText}
    (h : ScenarioText text ys) {nbDesc afterSemi : ℕ} {desc : List QuicperfStreamDesc}
    (hcount : nbDesc = desc.length + parseNbStreamLoop text 0 afterSemi)
    (hacc : ∀ y ∈ ys, y.Accepted) (streamId previous : ℕ) :
    parseScenarioLoop nbDesc text desc streamId previous =
      (desc ++ entries u64 ys streamId previous, true) := by
  induction h generalizing afterSemi desc streamId previous with
  | blank b =>
    rw [parseScenarioLoop_blank, entries, List.append_nil]
  | last y =>
    have hlt := lt_of_count hcount y.text_ne_nil
    have hstep := parseScenarioLoop_desc y none hlt streamId previous
    have hnil (desc : List QuicperfStreamDesc) (i p : ℕ) :
        parseScenarioLoop nbDesc [] desc i p = (desc, true) :=
      parseScenarioLoop_blank nbDesc ⟨[], by simp⟩ desc i p
    rw [if_pos (hacc y List.mem_cons_self), Option.getD_none, hnil] at hstep
    rw [← List.append_nil y.text]
    exact hstep
  | @cons y rest ys h ih =>
    have hlt := lt_of_count hcount (desc_append_afterDesc_ne_nil y (some rest))
    have hstep := parseScenarioLoop_desc y (some rest) hlt streamId previous
    obtain ⟨hy, hys⟩ := List.forall_mem_cons.mp hacc
    rw [if_pos hy, Option.getD_some, ih (count_desc y _ hcount) hys, List.append_assoc] at hstep
    exact hstep

/-- A description that is not accepted is an error, wherever it stands. -/
theorem parseScenarioLoop_of_not_accepted {text : List Char} {ys : List DescText}
    (h : ScenarioText text ys) {nbDesc afterSemi : ℕ} {desc : List QuicperfStreamDesc}
    (hcount : nbDesc = desc.length + parseNbStreamLoop text 0 afterSemi)
    (hacc : ¬∀ y ∈ ys, y.Accepted) (streamId previous : ℕ) :
    (parseScenarioLoop nbDesc text desc streamId previous).2 = false := by
  induction h generalizing afterSemi desc streamId previous with
  | blank b => exact absurd (fun _ h => absurd h List.not_mem_nil) hacc
  | last y =>
    have hy : ¬y.Accepted := by simpa using hacc
    have hlt := lt_of_count hcount y.text_ne_nil
    have hstep := parseScenarioLoop_desc y none hlt streamId previous
    rw [if_neg hy] at hstep
    rw [← List.append_nil y.text]
    exact congrArg Prod.snd hstep
  | @cons y rest ys h ih =>
    have hlt := lt_of_count hcount (desc_append_afterDesc_ne_nil y (some rest))
    have hstep := parseScenarioLoop_desc y (some rest) hlt streamId previous
    by_cases hy : y.Accepted
    · have hys : ¬∀ y ∈ ys, y.Accepted := fun hys => hacc (List.forall_mem_cons.mpr ⟨hy, hys⟩)
      rw [if_pos hy] at hstep
      exact (congrArg Prod.snd hstep).trans (ih (count_desc y _ hcount) hys _ _)
    · rw [if_neg hy] at hstep
      exact congrArg Prod.snd hstep

/-- **What is read is a scenario.** No part of the text is left. -/
theorem exists_scenarioText {nbDesc : ℕ} (k : ℕ) {text : List Char} (hk : text.length < k)
    {afterSemi : ℕ} {desc : List QuicperfStreamDesc} {streamId previous : ℕ}
    (hcount : nbDesc = desc.length + parseNbStreamLoop text 0 afterSemi)
    (hok : (parseScenarioLoop nbDesc text desc streamId previous).2 = true) :
    ∃ ys, ScenarioText text ys := by
  -- the induction is on a bound of what is left, which a description with its semicolon takes from
  induction k generalizing text afterSemi desc streamId previous with
  | zero => exact absurd hk (Nat.not_lt_zero _)
  | succ k ih =>
    by_cases hnil : quicperfParseStreamSpaces text = []
    · obtain ⟨b, hb⟩ := exists_blank text
      rw [hnil, List.append_nil] at hb
      exact ⟨[], hb ▸ .blank b⟩
    have hne : text ≠ [] := by
      rintro rfl
      exact hnil rfl
    have hlt := lt_of_count hcount hne
    obtain ⟨y, more, rfl⟩ : ∃ y more, text = DescText.text y ++ afterDesc more := by
      rw [parseScenarioLoop, if_neg hnil, if_neg (Nat.not_le.mpr hlt)] at hok
      split at hok
      · exact absurd hok Bool.false_ne_true
      · next rest d hsome =>
        rw [parseStreamDesc_parseStreamSpaces] at hsome
        exact exists_descText hsome
    rw [parseScenarioLoop_desc y more hlt] at hok
    split_ifs at hok with hacc
    cases more with
    | none =>
      rw [afterDesc, List.append_nil]
      exact ⟨[y], .last y⟩
    | some rest =>
      have hrest : rest.length < k := by
        rw [afterDesc, List.length_append, List.length_cons] at hk
        omega
      obtain ⟨ys, hys⟩ := ih hrest (count_desc y _ hcount) hok
      exact ⟨y :: ys, .cons y hys⟩

/-- The loop stays within the entries that are allocated. -/
theorem length_parseScenarioLoop {nbDesc : ℕ} (text : List Char) {desc : List QuicperfStreamDesc}
    (h : desc.length ≤ nbDesc) (streamId previous : ℕ) :
    (parseScenarioLoop nbDesc text desc streamId previous).1.length ≤ nbDesc := by
  fun_induction parseScenarioLoop nbDesc text desc streamId previous with
  | case1 => exact h
  | case2 => exact h
  | case3 => exact h
  | case4 text desc streamId previous stripped hne hlt rest d hparse ih =>
    refine ih ?_
    rw [List.length_append, List.length_singleton]
    omega

/-! ### Texts that are read -/

/-- Behind a sign there is no number other than zero. -/
def NumberText.WellFormed (n : NumberText) : Prop := n.isSigned = true → n.digits.value = 0

instance (n : NumberText) : Decidable n.WellFormed := inferInstanceAs (Decidable (_ → _))

/-- The description is one of the grammar, and its numbers fit. -/
structure DescText.WellFormed (y : DescText) : Prop where
  fits : y.Fits
  streamId : y.streamId.number.WellFormed
  previousStreamId : y.previousStreamId.number.WellFormed
  postSize : y.postSize.number.WellFormed

/-- A text is read as it says: an entry for each description, with its numbers, in an array of that
size. Every other text is an error, and no entry is outside the array. -/
structure ParsesScenario (text : List Char) (r : ParsedScenario) : Prop where
  read : ∀ ys, ScenarioText text ys → (∀ y ∈ ys, y.WellFormed) →
    r = ⟨ys.length, entries id ys 0 quicperfStreamIdInitial, true⟩
  refused : ∀ ys, ScenarioText text ys → (¬∀ y ∈ ys, y.WellFormed) → r.isOk = false
  notScenario : (∀ ys, ¬ScenarioText text ys) → r.isOk = false
  inBounds : r.desc.length ≤ r.nbDesc

theorem DescText.WellFormed.accepted {y : DescText} (h : y.WellFormed) : y.Accepted := by
  refine ⟨fun hsign => ?_, fun hsign => ?_, fun hsign => ?_⟩
  · rw [h.streamId hsign, u64, Nat.zero_mod]
  · rw [h.previousStreamId hsign, u64, Nat.zero_mod]
  · rw [h.postSize hsign, u64, Nat.zero_mod]

theorem NumberText.Accepted.wellFormed {n : NumberText} (h : n.Accepted)
    (hfits : n.digits.value < 2 ^ 64) : n.WellFormed := fun hsign =>
  (Nat.mod_eq_of_lt hfits).symm.trans (h hsign)

namespace DescText.Fits

variable {y : DescText} (h : y.Fits)

include h

theorem streamId : y.streamId.number.digits.value < 2 ^ 64 := h _ (by simp [numbers])

theorem previousStreamId : y.previousStreamId.number.digits.value < 2 ^ 64 :=
  h _ (by simp [numbers])

theorem postSize : y.postSize.number.digits.value < 2 ^ 64 := h _ (by simp [numbers])

theorem responseSize : y.responseSize.digits.value < 2 ^ 64 := h _ (by simp [numbers])

theorem repeatCount {r : RepeatText} (hr : y.repeatCount = some r) : r.digits.value < 2 ^ 64 :=
  h _ (by simp [numbers, hr])

theorem wellFormed (hacc : y.Accepted) : y.WellFormed :=
  ⟨h, hacc.1.wellFormed h.streamId, hacc.2.1.wellFormed h.previousStreamId,
    hacc.2.2.wellFormed h.postSize⟩

/-- Numbers that fit are not changed. -/
theorem desc (defaultStream defaultPrevious : ℕ) :
    y.desc u64 defaultStream defaultPrevious = y.desc id defaultStream defaultPrevious := by
  have hkeep {n : ℕ} (hn : n < 2 ^ 64) : u64 n = id n := Nat.mod_eq_of_lt hn
  have hrepeat : (y.repeatCount.map fun r => u64 r.digits.value).getD 1 =
      (y.repeatCount.map fun r => id r.digits.value).getD 1 := by
    cases hr : y.repeatCount with
    | none => rfl
    | some r => exact hkeep (h.repeatCount hr)
  simp only [DescText.desc, NumberText.orDefault, hkeep h.streamId, hkeep h.previousStreamId,
    hkeep h.postSize, hkeep h.responseSize, hrepeat]

end DescText.Fits

theorem entries_of_fits {ys : List DescText} (h : ∀ y ∈ ys, y.Fits)
    (defaultStream defaultPrevious : ℕ) :
    entries u64 ys defaultStream defaultPrevious = entries id ys defaultStream defaultPrevious := by
  induction ys generalizing defaultStream defaultPrevious with
  | nil => rfl
  | cons y ys ih =>
    obtain ⟨hy, hys⟩ := List.forall_mem_cons.mp h
    rw [entries, entries, hy.desc, ih hys]

section Parse

variable {text : List Char} {ys : List DescText}

theorem parseScenarioDesc_isOk (text : List Char) :
    (quicperfParseScenarioDesc text).isOk =
      (parseScenarioLoop (quicperfParseNbStream text) text [] 0 quicperfStreamIdInitial).2 := rfl

theorem initial_count (text : List Char) :
    quicperfParseNbStream text =
      ([] : List QuicperfStreamDesc).length + parseNbStreamLoop text 0 1 :=
  (Nat.zero_add _).symm

theorem ScenarioText.parse_of_accepted (h : ScenarioText text ys) (hacc : ∀ y ∈ ys, y.Accepted) :
    quicperfParseScenarioDesc text =
      ⟨quicperfParseNbStream text, entries u64 ys 0 quicperfStreamIdInitial, true⟩ := by
  rw [quicperfParseScenarioDesc, parseScenarioLoop_of_accepted h (initial_count text) hacc]
  rfl

theorem ScenarioText.parse_of_not_accepted (h : ScenarioText text ys)
    (hacc : ¬∀ y ∈ ys, y.Accepted) : (quicperfParseScenarioDesc text).isOk = false := by
  rw [parseScenarioDesc_isOk, parseScenarioLoop_of_not_accepted h (initial_count text) hacc]

end Parse

/-- **Scenarios are read as they say if their numbers fit 64 bits, and the text is not empty and
does not end in blanks of its own.** Larger numbers are wrapped, and for such blanks an entry is
allocated that is not filled. -/
theorem parsesScenario_iff (text : List Char) :
    ParsesScenario text (quicperfParseScenarioDesc text) ↔
      ∀ ys, ScenarioText text ys → (∀ y ∈ ys, y.Accepted) →
        (∀ y ∈ ys, y.Fits) ∧ text ≠ [] ∧ ¬EndsBlank text := by
  constructor
  · intro law ys hys hacc
    have hparse := hys.parse_of_accepted hacc
    have hwell : ∀ y ∈ ys, y.WellFormed := by
      by_contra hill
      have hrefused := law.refused ys hys hill
      rw [hparse] at hrefused
      exact Bool.false_ne_true hrefused.symm
    have hcount : quicperfParseNbStream text = ys.length := by
      have hread := law.read ys hys hwell
      rw [hparse] at hread
      exact congrArg ParsedScenario.nbDesc hread
    refine ⟨fun y hy => (hwell y hy).fits, ?_, fun hend => ?_⟩
    · rintro rfl
      have hempty := law.read [] (.blank ⟨[], by simp⟩) (by simp)
      exact absurd (congrArg ParsedScenario.nbDesc hempty) (by decide)
    · have hmore := hys.count_of_endsBlank hend 1
      rw [← quicperfParseNbStream, hcount] at hmore
      omega
  · intro hcond
    constructor
    · intro ys hys hwell
      have hacc : ∀ y ∈ ys, y.Accepted := fun y hy => (hwell y hy).accepted
      obtain ⟨hfits, hne, hend⟩ := hcond ys hys hacc
      have hcount : quicperfParseNbStream text = ys.length :=
        hys.count hend fun hnil => absurd hnil hne
      rw [hys.parse_of_accepted hacc, hcount, entries_of_fits hfits]
    · intro ys hys hill
      refine hys.parse_of_not_accepted fun hacc => hill fun y hy => ?_
      exact ((hcond ys hys hacc).1 y hy).wellFormed (hacc y hy)
    · intro hnone
      refine Bool.eq_false_iff.mpr fun hok => ?_
      obtain ⟨ys, hys⟩ := exists_scenarioText (text.length + 1) (Nat.lt_succ_self _)
        (initial_count text) hok
      exact hnone ys hys
    · exact length_parseScenarioLoop text (Nat.zero_le _) 0 quicperfStreamIdInitial

def Digits.ofList (s : List Char) (h : s.all Char.isDigit = true) : Digits :=
  ⟨s, List.all_eq_true.mp h⟩

def Blank.ofList (s : List Char) (h : s.all isStreamSpace = true) : Blank :=
  ⟨s, List.all_eq_true.mp h⟩

/-- A colon without blanks. -/
def bareColon : ColonText := ⟨⟨[], by simp⟩, ⟨[], by simp⟩⟩

/-- A sign in place of a number. -/
def signField : FieldText := ⟨⟨true, ⟨[], by simp⟩, .inl rfl⟩, bareColon⟩

/-- A description that asks for one byte. -/
def postDesc (postSize : NumberText) : DescText where
  before := ⟨[], by simp⟩
  repeatCount := none
  streamId := signField
  previousStreamId := signField
  postSize := ⟨postSize, bareColon⟩
  responseSize := ⟨false, Digits.ofList ['1'] rfl, .inr (List.cons_ne_nil _ _)⟩
  after := ⟨[], by simp⟩

/-- The blank behind the semicolon is counted, so there are two entries, and one is filled; and
`2 ^ 64` bytes to send become none. -/
theorem scenario_misread :
    ¬ParsesScenario "-:-:8:1; ".toList (quicperfParseScenarioDesc "-:-:8:1; ".toList) ∧
      ¬ParsesScenario "-:-:18446744073709551616:1".toList
        (quicperfParseScenarioDesc "-:-:18446744073709551616:1".toList) := by
  constructor
  · intro law
    let y := postDesc ⟨false, Digits.ofList ['8'] rfl, .inr (List.cons_ne_nil _ _)⟩
    have hys : ScenarioText "-:-:8:1; ".toList [y] := .cons y (.blank (Blank.ofList [' '] rfl))
    have hwell : ∀ x ∈ [y], x.WellFormed := by
      intro x hx
      obtain rfl := List.mem_singleton.mp hx
      exact ⟨by decide, by decide, by decide, by decide⟩
    have hread := law.read _ hys hwell
    exact absurd (congrArg ParsedScenario.nbDesc hread) (by decide)
  · intro law
    let y := postDesc ⟨false, Digits.ofList "18446744073709551616".toList rfl, .inr (by decide)⟩
    have hys : ScenarioText "-:-:18446744073709551616:1".toList [y] := .last y
    have hill : ¬∀ x ∈ [y], x.WellFormed := fun hwell =>
      absurd (hwell y List.mem_cons_self).fits (by decide)
    have hacc : ∀ x ∈ [y], x.Accepted := by
      intro x hx
      obtain rfl := List.mem_singleton.mp hx
      decide
    have hrefused := law.refused _ hys hill
    rw [hys.parse_of_accepted hacc] at hrefused
    exact Bool.false_ne_true hrefused.symm

end Picoquic
