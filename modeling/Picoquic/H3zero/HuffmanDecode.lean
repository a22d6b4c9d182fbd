import Picoquic.H3zero.HuffmanTree

/-!
# Decoding a Huffman code

The decoder takes its bits from a registry of 64 of them, which is refilled byte by byte, and
follows them through the tables. It ends where the input ends, behind the code that ends a string,
or with a byte for which there is no space.

* **`HuffmanState.round`** — one round of its loop;
* **`hzeroQpackHuffmanDecode`** — the decoder;
* **`outcome_of_split`** — what it makes of codes and the rest behind them;
* **`huffman_decode_exact`** — which input is the code of which text;
* **`huffmanDecode_eq`** — the decoder of header values is this one, with space for 256 bytes.

The length of the padding is not looked at, nor what is behind the end of a string.
-/

namespace Picoquic

namespace H3zero

/-! ### The registry -/

/-- `val_in` and `bits_in`. Behind its bits the registry is 0. -/
structure Registry where
  valIn : BitVec 64
  bitsIn : ℕ
  bitsIn_le : bitsIn ≤ 64
  getMsbD_eq_false : ∀ k, bitsIn ≤ k → valIn.getMsbD k = false

namespace Registry

/-- The registry before the loop. -/
def empty : Registry := ⟨0, 0, Nat.zero_le 64, fun _ _ => BitVec.getMsbD_zero⟩

/-- The bits in the registry. -/
def bits (r : Registry) : List Bool := (List.range r.bitsIn).map r.valIn.getMsbD

/-- A byte as it is added behind `bitsIn` bits. -/
def added (bitsIn : ℕ) (b : UInt8) : BitVec 64 := b.toBitVec.setWidth 64 <<< (64 - bitsIn - 8)

theorem getMsbD_added {bitsIn : ℕ} (h : bitsIn < 57) (b : UInt8) (k : ℕ) :
    (added bitsIn b).getMsbD k = (decide (bitsIn ≤ k) && b.toBitVec.getMsbD (k - bitsIn)) := by
  rw [added, BitVec.getMsbD_shiftLeft, BitVec.getMsbD_setWidth]
  have hle : (64 - 8 ≤ k + (64 - bitsIn - 8)) = (bitsIn ≤ k) := by
    rw [eq_iff_iff]
    omega
  rw [show k + (64 - bitsIn - 8) + 8 - 64 = k - bitsIn by omega]
  simp only [hle]

/-- A byte is added. -/
def add (r : Registry) (b : UInt8) (h : r.bitsIn < 57) : Registry where
  valIn := r.valIn ||| added r.bitsIn b
  bitsIn := r.bitsIn + 8
  bitsIn_le := by omega
  getMsbD_eq_false k hk := by
    rw [BitVec.getMsbD_or, r.getMsbD_eq_false k (by omega), getMsbD_added h, Bool.false_or,
      BitVec.getMsbD_of_ge _ _ (by omega), Bool.and_false]

@[simp]
theorem bitsIn_add (r : Registry) (b : UInt8) (h : r.bitsIn < 57) :
    (r.add b h).bitsIn = r.bitsIn + 8 := rfl

theorem bits_add (r : Registry) (b : UInt8) (h : r.bitsIn < 57) :
    (r.add b h).bits = r.bits ++ bitsOf b := by
  have hold : ∀ k ∈ List.range r.bitsIn, (r.add b h).valIn.getMsbD k = r.valIn.getMsbD k := by
    intro k hk
    have := List.mem_range.1 hk
    rw [add, BitVec.getMsbD_or, getMsbD_added h, decide_eq_false (by omega), Bool.false_and,
      Bool.or_false]
  have hnew : ∀ k ∈ List.range 8,
      (r.add b h).valIn.getMsbD (r.bitsIn + k) = b.toNat.testBit (7 - k) := by
    intro k hk
    have := List.mem_range.1 hk
    rw [add, BitVec.getMsbD_or, r.getMsbD_eq_false _ (by omega), getMsbD_added h,
      decide_eq_true (by omega), Nat.add_sub_cancel_left, Bool.false_or, Bool.true_and,
      BitVec.getMsbD, decide_eq_true (by omega), Bool.true_and]
    rfl
  rw [bits, bitsIn_add, List.range_add, List.map_append,
    List.map_map, List.map_congr_left hold]
  exact congrArg _ (List.map_congr_left hnew)

/-- The first bit is taken out. -/
def shift (r : Registry) : Registry where
  valIn := r.valIn <<< 1
  bitsIn := r.bitsIn - 1
  bitsIn_le := by
    have := r.bitsIn_le
    omega
  getMsbD_eq_false k hk := by
    rw [BitVec.getMsbD_shiftLeft, r.getMsbD_eq_false _ (by omega)]

@[simp]
theorem bitsIn_shift (r : Registry) : r.shift.bitsIn = r.bitsIn - 1 := rfl

theorem bits_of_pos (r : Registry) (h : 0 < r.bitsIn) : r.bits = r.valIn.msb :: r.shift.bits := by
  obtain ⟨n, hn⟩ : ∃ n, r.bitsIn = n + 1 := ⟨r.bitsIn - 1, by omega⟩
  rw [bits, bits, bitsIn_shift, hn, List.range_succ_eq_map, List.map_cons, List.map_map,
    BitVec.msb_eq_getMsbD_zero, Nat.add_sub_cancel, shift]
  refine congrArg _ (List.map_congr_left fun k _ => ?_)
  rw [BitVec.getMsbD_shiftLeft]
  rfl

end Registry

/-- The registry is refilled: the rest of the input, and the registry. -/
def refill : List UInt8 → Registry → List UInt8 × Registry
  | [], r => ([], r)
  | b :: bytes, r => if h : r.bitsIn < 57 then refill bytes (r.add b h) else (b :: bytes, r)

/-- Refilling moves bits from the input to the registry. -/
theorem bits_refill (bytes : List UInt8) (r : Registry) :
    (refill bytes r).2.bits ++ (refill bytes r).1.flatMap bitsOf =
      r.bits ++ bytes.flatMap bitsOf := by
  induction bytes generalizing r with
  | nil => rfl
  | cons b bytes ih =>
    rw [refill]
    split_ifs with h
    · rw [ih, Registry.bits_add, List.append_assoc, List.flatMap_cons]
    · rfl

theorem bitsIn_refill (bytes : List UInt8) (r : Registry) :
    (refill bytes r).2.bitsIn + 8 * (refill bytes r).1.length = r.bitsIn + 8 * bytes.length := by
  induction bytes generalizing r with
  | nil => rfl
  | cons b bytes ih =>
    rw [refill]
    split_ifs with h
    · rw [ih, Registry.bitsIn_add, List.length_cons]
      omega
    · rfl

/-- An empty registry after the refill is the end of the input. -/
theorem refill_eq_nil {bytes : List UInt8} {r : Registry} (h : (refill bytes r).2.bitsIn = 0) :
    (refill bytes r).1 = [] := by
  induction bytes generalizing r with
  | nil => rfl
  | cons b bytes ih =>
    rw [refill] at h ⊢
    split_ifs at h ⊢ with hlt
    · exact ih h
    · dsimp only at h
      omega

/-! ### The loop -/

/-- The position that a bit leads to from an index. -/
def nextIndex (index : ℕ) (bit : Bool) : ℕ :=
  if bit then index + huffmanVal.getD index 0 else index + 1

/-- The variables of the loop. -/
structure HuffmanState where
  bytes : List UInt8
  registry : Registry
  decoded : List UInt8
  index : ℕ
  wasAllOnes : Bool

/-- What a round does: the loop goes on, or it is left. -/
inductive HuffmanRound
  | goOn (s : HuffmanState)
  | leave (s : HuffmanState)

namespace HuffmanState

/-- The variables before the loop. -/
def init (bytes : List UInt8) : HuffmanState := ⟨bytes, .empty, [], 0, true⟩

/-- A round of the loop. -/
def round (maxDecoded : ℕ) (s : HuffmanState) : HuffmanRound :=
  let (bytes, registry) := refill s.bytes s.registry
  if isIndexLocation s.index then
    -- the end of the input
    if registry.bitsIn = 0 then .leave { s with bytes := bytes, registry := registry }
    else
      let bit := registry.valIn.msb
      let index := nextIndex s.index bit
      let s := ⟨bytes, registry.shift, s.decoded, index, s.wasAllOnes && bit⟩
      if 512 ≤ index then .leave s else .goOn s
  else if s.decoded.length < maxDecoded then
    .goOn ⟨bytes, registry, s.decoded ++ [UInt8.ofNat (huffmanVal.getD s.index 0)], 0, true⟩
  -- the text is too long
  else .leave ⟨bytes, registry, s.decoded, s.index, true⟩

/-- The rounds that are possible: two for each bit, and one for a byte. -/
def rank (s : HuffmanState) : ℕ :=
  2 * (s.registry.bitsIn + 8 * s.bytes.length) + if isIndexLocation s.index then 0 else 1

theorem isIndexLocation_zero : isIndexLocation 0 = true := by decide

theorem rank_round {maxDecoded : ℕ} {s s' : HuffmanState} (h : s.round maxDecoded = .goOn s') :
    s'.rank < s.rank := by
  have hrefill := bitsIn_refill s.bytes s.registry
  rw [round] at h
  dsimp only at h
  split_ifs at h with hindex hempty hend hspace
  · -- a bit is used up
    obtain rfl := HuffmanRound.goOn.inj h
    simp only [rank, Registry.bitsIn_shift, hindex, if_true]
    split_ifs <;> omega
  · -- a byte is written, and position 0 is an index
    obtain rfl := HuffmanRound.goOn.inj h
    simp only [rank, isIndexLocation_zero, hindex, if_true, Bool.false_eq_true, if_false]
    omega

/-- The loop. -/
def run (maxDecoded : ℕ) (s : HuffmanState) : HuffmanState :=
  match _h : s.round maxDecoded with
  | .goOn s' => run maxDecoded s'
  | .leave s' => s'
termination_by s.rank
decreasing_by exact rank_round _h

theorem run_of_goOn {maxDecoded : ℕ} {s s' : HuffmanState} (h : s.round maxDecoded = .goOn s') :
    s.run maxDecoded = s'.run maxDecoded := by
  rw [run]
  split <;> grind

theorem run_of_leave {maxDecoded : ℕ} {s s' : HuffmanState} (h : s.round maxDecoded = .leave s') :
    s.run maxDecoded = s' := by
  rw [run]
  split <;> grind

end HuffmanState

/-- What is returned, and what was written: `nb_decoded` is its length. -/
structure HuffmanResult where
  ret : ℤ
  decoded : List UInt8

/-- `hzero_qpack_huffman_decode`. -/
def hzeroQpackHuffmanDecode (bytes : List UInt8) (maxDecoded : ℕ) : HuffmanResult :=
  let s := (HuffmanState.init bytes).run maxDecoded
  ⟨if s.wasAllOnes then 0 else -1, s.decoded⟩

/-! ### The loop on bits -/

/-- A state of the loop, with all bits that are left. -/
structure HuffmanState.At (s : HuffmanState) (bits : List Bool) (index : ℕ) (decoded : List UInt8)
    (wasAllOnes : Bool) : Prop where
  bits : s.registry.bits ++ s.bytes.flatMap bitsOf = bits
  index : s.index = index
  decoded : s.decoded = decoded
  wasAllOnes : s.wasAllOnes = wasAllOnes

namespace HuffmanState

theorem at_init (bytes : List UInt8) : (init bytes).At (bytes.flatMap bitsOf) 0 [] true :=
  ⟨rfl, rfl, rfl, rfl⟩

/-- What the loop is left with. -/
def outcome (maxDecoded : ℕ) (s : HuffmanState) : List UInt8 × Bool :=
  ((s.run maxDecoded).decoded, (s.run maxDecoded).wasAllOnes)

namespace At

variable {maxDecoded : ℕ} {s : HuffmanState} {bits : List Bool} {bit : Bool} {index : ℕ}
  {decoded : List UInt8} {wasAllOnes : Bool}

/-- The loop is left at the end of the input. -/
theorem outcome_nil (h : s.At [] index decoded wasAllOnes) (hindex : isIndexLocation index = true) :
    s.outcome maxDecoded = (decoded, wasAllOnes) := by
  have hbits := (bits_refill s.bytes s.registry).trans h.bits
  have hempty : (refill s.bytes s.registry).2.bitsIn = 0 := by
    have := congrArg List.length (List.append_eq_nil_iff.1 hbits).1
    simpa [Registry.bits] using this
  have hround : s.round maxDecoded =
      .leave { s with
        bytes := (refill s.bytes s.registry).1
        registry := (refill s.bytes s.registry).2 } := by
    simp only [round, h.index, hindex, hempty, if_true]
  rw [outcome, run_of_leave hround, ← h.decoded, ← h.wasAllOnes]

/-- A bit leads to the next position, unless it ends the string. -/
theorem outcome_cons (h : s.At (bit :: bits) index decoded wasAllOnes)
    (hindex : isIndexLocation index = true) :
    512 ≤ nextIndex index bit ∧ s.outcome maxDecoded = (decoded, wasAllOnes && bit) ∨
    ¬ 512 ≤ nextIndex index bit ∧
      ∃ s' : HuffmanState, s'.At bits (nextIndex index bit) decoded (wasAllOnes && bit) ∧
        s.outcome maxDecoded = s'.outcome maxDecoded := by
  have hbits := (bits_refill s.bytes s.registry).trans h.bits
  have hpos : (refill s.bytes s.registry).2.bitsIn ≠ 0 := by
    intro hempty
    rw [refill_eq_nil hempty, Registry.bits, hempty] at hbits
    exact nomatch hbits
  rw [Registry.bits_of_pos _ (Nat.pos_of_ne_zero hpos), List.cons_append, List.cons.injEq] at hbits
  obtain ⟨hbit, hbits⟩ := hbits
  let s' : HuffmanState := ⟨(refill s.bytes s.registry).1, (refill s.bytes s.registry).2.shift,
    s.decoded, nextIndex s.index bit, s.wasAllOnes && bit⟩
  have hs' : s'.At bits (nextIndex index bit) decoded (wasAllOnes && bit) :=
    ⟨hbits, by rw [← h.index], h.decoded, by rw [← h.wasAllOnes]⟩
  have hround : s.round maxDecoded =
      if 512 ≤ nextIndex index bit then .leave s' else .goOn s' := by
    simp only [round, h.index, hindex, hpos, hbit, if_true, if_false, s']
  by_cases hend : 512 ≤ nextIndex index bit
  · rw [if_pos hend] at hround
    exact .inl ⟨hend, by rw [outcome, run_of_leave hround, hs'.decoded, hs'.wasAllOnes]⟩
  · rw [if_neg hend] at hround
    exact .inr ⟨hend, s', hs', by rw [outcome, run_of_goOn hround, outcome]⟩

/-- A byte is written as long as there is space. -/
theorem outcome_value (h : s.At bits index decoded wasAllOnes)
    (hindex : isIndexLocation index = false) :
    decoded.length < maxDecoded ∧
      (∃ s' : HuffmanState,
        s'.At bits 0 (decoded ++ [UInt8.ofNat (huffmanVal.getD index 0)]) true ∧
        s.outcome maxDecoded = s'.outcome maxDecoded) ∨
    ¬ decoded.length < maxDecoded ∧ s.outcome maxDecoded = (decoded, true) := by
  have hbits := (bits_refill s.bytes s.registry).trans h.bits
  by_cases hspace : decoded.length < maxDecoded
  · let s' : HuffmanState := ⟨(refill s.bytes s.registry).1, (refill s.bytes s.registry).2,
      s.decoded ++ [UInt8.ofNat (huffmanVal.getD s.index 0)], 0, true⟩
    have hround : s.round maxDecoded = .goOn s' := by
      simp only [round, h.index, h.decoded, hindex, hspace, if_true, Bool.false_eq_true, if_false,
        s']
    exact .inl ⟨hspace, s', ⟨hbits, rfl, by rw [← h.decoded, ← h.index], rfl⟩, by
      rw [outcome, run_of_goOn hround, outcome]⟩
  · have hround : s.round maxDecoded = .leave ⟨(refill s.bytes s.registry).1,
        (refill s.bytes s.registry).2, s.decoded, s.index, true⟩ := by
      simp only [round, h.index, h.decoded, hindex, hspace, Bool.false_eq_true, if_false]
    exact .inr ⟨hspace, by rw [outcome, run_of_leave hround, h.decoded]⟩

/-- The loop follows a path through the tree, up to the end of the string. -/
theorem outcome_follow {t t' : CodeTree ℕ} {w : List Bool} (htree : IsTreeAt t index)
    (hindex : index < 512) (hfollow : t.follow w = some t')
    (h : s.At (w ++ bits) index decoded wasAllOnes) :
    t' = .leaf endOfString ∧ s.outcome maxDecoded = (decoded, wasAllOnes && w.all id) ∨
    ∃ (s' : HuffmanState) (index' : ℕ), s'.At bits index' decoded (wasAllOnes && w.all id) ∧
      IsTreeAt t' index' ∧ index' < 512 ∧ s.outcome maxDecoded = s'.outcome maxDecoded := by
  induction w generalizing s t index wasAllOnes with
  | nil =>
    obtain rfl := Option.some.inj hfollow
    exact .inr ⟨s, index, by simpa using h, htree, hindex, rfl⟩
  | cons bit w ih =>
    rw [CodeTree.follow_cons] at hfollow
    cases t with
    | leaf a => exact nomatch hfollow
    | node zero one =>
      obtain ⟨-, hloc, hzero, hone⟩ := htree
      -- The position that the bit leads to is that of the tree for it.
      obtain ⟨t, hchild, hnext⟩ : ∃ t, (CodeTree.node zero one).child bit = some t ∧
          IsTreeAt t (nextIndex index bit) := by
        cases bit with
        | false => exact ⟨zero, rfl, hzero⟩
        | true => exact ⟨one, rfl, hone⟩
      rw [hchild, Option.bind_some] at hfollow
      rw [List.all_cons, id, ← Bool.and_assoc]
      rcases h.outcome_cons hloc with ⟨hend, hout⟩ | ⟨hend, s', hs', hout⟩
      · -- behind the tables there is only the end of the string
        have hleaf : t = .leaf endOfString := by
          cases t with
          | leaf a =>
            rcases hnext with ⟨rfl, -⟩ | ⟨hlt, -⟩
            · rfl
            · exact absurd hlt hend.not_gt
          | node zero one => exact absurd hnext.1 hend.not_gt
        subst hleaf
        obtain rfl := CodeTree.eq_nil_of_follow_leaf hfollow
        obtain rfl := Option.some.inj hfollow
        exact .inl ⟨rfl, by rw [hout, List.all_nil, Bool.and_true]⟩
      · simpa only [hout] using ih hnext (not_le.1 hend) hfollow hs'

end At

end HuffmanState

/-- The padding that is accepted, and the end of a string with anything behind it. -/
def IsEnding (tail : List Bool) : Prop :=
  tail = List.replicate tail.length true ∨ endOfStringCode <+: tail

instance (tail : List Bool) : Decidable (IsEnding tail) := inferInstanceAs (Decidable (_ ∨ _))

/-- **The text that is decoded.** The bytes are written one by one as long as there is space. If all
of them are, the outcome is up to the rest. -/
theorem outcome_of_split {maxDecoded : ℕ} {s : HuffmanState} {text decoded : List UInt8}
    {tail : List Bool} (h : s.At (text.flatMap huffmanCode ++ tail) 0 decoded true)
    (hle : decoded.length ≤ maxDecoded) (htail : ∀ b, ¬ huffmanCode b <+: tail) :
    (decoded.length + text.length ≤ maxDecoded ∧ s.outcome maxDecoded = (decoded ++ text,
      decide (IsEnding tail))) ∨
    (maxDecoded < decoded.length + text.length ∧
      s.outcome maxDecoded = ((decoded ++ text).take maxDecoded, true)) := by
  induction text generalizing s decoded with
  | nil =>
    refine .inl ⟨hle, ?_⟩
    rw [List.append_nil]
    rcases huffmanTree.exists_leaf_or_node tail with ⟨v, a, ⟨rest, rfl⟩, hleaf⟩ | ⟨zero, one, hnode⟩
    · -- the rest begins with a code: not that of a byte
      rcases eq_huffmanCode_or_endOfString hleaf with ⟨b, -, rfl⟩ | ⟨rfl, rfl⟩
      · exact absurd (List.prefix_append _ _) (htail b)
      · rcases h.outcome_follow isTreeAt_huffmanTree (by decide) hleaf with
          ⟨-, hout⟩ | ⟨-, index, -, htree, hindex, -⟩
        · rw [hout, decide_eq_true (.inr (List.prefix_append _ _))]
          rfl
        · rcases htree with ⟨-, hge⟩ | ⟨-, -, hval⟩
          · exact absurd hindex hge.not_gt
          · exact absurd hval (getD_huffmanVal_ne_endOfString index)
    · -- the rest ends within the tree
      have h' : s.At (tail ++ []) 0 decoded true := by simpa using h
      rcases h'.outcome_follow isTreeAt_huffmanTree (by decide) hnode with
        ⟨hleaf, -⟩ | ⟨s', index, hs', htree, -, hout⟩
      · exact nomatch hleaf
      · have hend : ¬ endOfStringCode <+: tail := by
          rintro ⟨rest, rfl⟩
          rw [CodeTree.follow_append, (follow_eq_endOfString_iff _).2 rfl, Option.bind_some]
            at hnode
          obtain rfl := CodeTree.eq_nil_of_follow_leaf hnode
          exact nomatch hnode
        have hones : tail = List.replicate tail.length true ↔ tail.all id = true := by
          rw [List.eq_replicate_length, List.all_eq_true]
          rfl
        rw [hout, hs'.outcome_nil htree.2.1, Bool.true_and]
        simp only [IsEnding, hones, hend, or_false, Bool.decide_eq_true]
  | cons b text ih =>
    rw [List.flatMap_cons, List.append_assoc] at h
    have hb := b.toNat_lt
    rcases h.outcome_follow isTreeAt_huffmanTree (by decide) (follow_huffmanCode b) with
      ⟨hleaf, -⟩ | ⟨s', index, hs', htree, hindex, hout⟩
    · rw [CodeTree.leaf.injEq, endOfString] at hleaf
      omega
    · obtain ⟨-, hloc, hval⟩ := htree.resolve_left fun h => hindex.not_ge h.2
      rcases hs'.outcome_value hloc with ⟨hspace, s'', hs'', hout'⟩ | ⟨hfull, hout'⟩
      · rw [hval, UInt8.ofNat_toNat] at hs''
        have hrest := ih hs'' (by rw [List.length_append]; exact hspace)
        rw [List.length_append, List.length_singleton, List.append_assoc] at hrest
        rw [hout, hout', List.length_cons, Nat.add_comm text.length, ← Nat.add_assoc]
        exact hrest
      · refine .inr ⟨by rw [List.length_cons]; omega, ?_⟩
        rw [hout, hout', List.take_left' (by omega)]

theorem decode_of_split {bytes text : List UInt8} {tail : List Bool} (maxDecoded : ℕ)
    (hsplit : bytes.flatMap bitsOf = text.flatMap huffmanCode ++ tail)
    (htail : ∀ b, ¬ huffmanCode b <+: tail) :
    (text.length ≤ maxDecoded ∧ hzeroQpackHuffmanDecode bytes maxDecoded =
      ⟨if IsEnding tail then 0 else -1, text⟩) ∨
    (maxDecoded < text.length ∧
      hzeroQpackHuffmanDecode bytes maxDecoded = ⟨0, text.take maxDecoded⟩) := by
  have hinit := hsplit ▸ HuffmanState.at_init bytes
  have houtcome := outcome_of_split hinit (Nat.zero_le maxDecoded) htail
  rw [List.length_nil, Nat.zero_add, List.nil_append] at houtcome
  rcases houtcome with ⟨hfits, hout⟩ | ⟨hlong, hout⟩
  · obtain ⟨hdecoded, hones⟩ := Prod.mk.inj hout
    refine .inl ⟨hfits, ?_⟩
    rw [hzeroQpackHuffmanDecode, hdecoded, hones]
    simp only [decide_eq_true_eq]
  · obtain ⟨hdecoded, hones⟩ := Prod.mk.inj hout
    refine .inr ⟨hlong, ?_⟩
    rw [hzeroQpackHuffmanDecode, hdecoded, hones]
    rfl

/-- What decoding should be: the text is decoded whose codes the input is, up to less than a byte of
padding. -/
structure HuffmanExact (bytes : List UInt8) (maxDecoded : ℕ) : Prop where
  exact : ∀ text, hzeroQpackHuffmanDecode bytes maxDecoded = ⟨0, text⟩ ↔
    (∃ n < 8, bytes.flatMap bitsOf = text.flatMap huffmanCode ++ List.replicate n true) ∧
      text.length ≤ maxDecoded
  length_le : (hzeroQpackHuffmanDecode bytes maxDecoded).decoded.length ≤ maxDecoded

/-- What decoding is. -/
structure HuffmanDecodes (bytes : List UInt8) (maxDecoded : ℕ) : Prop where
  /-- If there is space for the text, it is decoded with an ending that is accepted. -/
  exact : (∀ (text : List UInt8) (tail : List Bool),
      bytes.flatMap bitsOf = text.flatMap huffmanCode ++ tail → text.length ≤ maxDecoded) →
    ∀ text, hzeroQpackHuffmanDecode bytes maxDecoded = ⟨0, text⟩ ↔
      ∃ tail, bytes.flatMap bitsOf = text.flatMap huffmanCode ++ tail ∧ IsEnding tail
  /-- What is written is a text whose codes the input begins with. -/
  isText : ∃ tail, bytes.flatMap bitsOf =
    (hzeroQpackHuffmanDecode bytes maxDecoded).decoded.flatMap huffmanCode ++ tail
  /-- It is the longest one for which there is space. -/
  longest : ∀ (text : List UInt8) (tail : List Bool),
    bytes.flatMap bitsOf = text.flatMap huffmanCode ++ tail → text.length ≤ maxDecoded →
      text <+: (hzeroQpackHuffmanDecode bytes maxDecoded).decoded
  length_le : (hzeroQpackHuffmanDecode bytes maxDecoded).decoded.length ≤ maxDecoded

/-- No code begins an ending. -/
theorem IsEnding.not_huffmanCode_prefix {tail : List Bool} (h : IsEnding tail) (b : UInt8) :
    ¬ huffmanCode b <+: tail := by
  intro hb
  rcases h with hones | hend
  · exact not_huffmanCode_prefix_replicate b _ (hones ▸ hb)
  · rcases List.prefix_or_prefix_of_prefix hb hend with hbegin | hbegin
    · exact not_huffmanCode_prefix_replicate b 30 hbegin
    · have hleaf := CodeTree.eq_of_follow_leaf_of_prefix ((follow_eq_endOfString_iff _).2 rfl)
        (follow_huffmanCode b) hbegin
      exact not_huffmanCode_prefix_replicate b 30 (hleaf.1 ▸ List.prefix_rfl)

/-- **Decoding.** -/
theorem huffman_decode_exact (bytes : List UInt8) (maxDecoded : ℕ) :
    HuffmanDecodes bytes maxDecoded := by
  obtain ⟨text, tail, hsplit, htail⟩ :=
    isPrefixCode_huffmanCode.exists_split (bytes.flatMap bitsOf)
  -- Every text that the input begins with is the begin of this one.
  have hbegin : ∀ (text' : List UInt8) (tail' : List Bool),
      bytes.flatMap bitsOf = text'.flatMap huffmanCode ++ tail' → text' <+: text := by
    intro text' tail' h
    obtain ⟨u, rfl, -⟩ := isPrefixCode_huffmanCode.prefix_of_split (h.symm.trans hsplit) htail
    exact List.prefix_append _ _
  rcases decode_of_split maxDecoded hsplit htail with ⟨hfits, hdecode⟩ | ⟨hlong, hdecode⟩
  · refine ⟨fun _ text' => ?_, ⟨tail, by rw [hdecode, hsplit]⟩, fun text' tail' h _ => ?_, ?_⟩
    · rw [hdecode, HuffmanResult.mk.injEq]
      constructor
      · rintro ⟨hret, rfl⟩
        refine ⟨tail, hsplit, ?_⟩
        by_contra hending
        rw [if_neg hending] at hret
        exact absurd hret (by decide)
      · rintro ⟨tail', h, hending⟩
        obtain ⟨u, hu, htails⟩ :=
          isPrefixCode_huffmanCode.prefix_of_split (h.symm.trans hsplit) htail
        obtain ⟨u', hu', -⟩ := isPrefixCode_huffmanCode.prefix_of_split (hsplit.symm.trans h)
          hending.not_huffmanCode_prefix
        obtain rfl : u = [] := by
          have := congrArg List.length (hu'.trans (congrArg (· ++ u') hu))
          simp only [List.length_append] at this
          exact List.length_eq_zero_iff.1 (by omega)
        rw [List.flatMap_nil, List.nil_append] at htails
        rw [if_pos (htails ▸ hending), hu, List.append_nil]
        exact ⟨rfl, rfl⟩
    · rw [hdecode]
      exact hbegin text' tail' h
    · rw [hdecode]
      exact hfits
  · refine ⟨fun hspace => ?_, ?_, fun text' tail' h hle => ?_, ?_⟩
    · exact absurd (hspace text tail hsplit) hlong.not_ge
    · refine ⟨(text.drop maxDecoded).flatMap huffmanCode ++ tail, ?_⟩
      rw [hdecode, hsplit, ← List.append_assoc, ← List.flatMap_append, List.take_append_drop]
    · rw [hdecode]
      exact List.prefix_take_iff.2 ⟨hbegin text' tail' h, hle⟩
    · rw [hdecode]
      exact List.length_take_le _ _

/-- Eight 1 bits are no padding, and are accepted. -/
theorem huffman_byte_of_ones : ¬ HuffmanExact [0xff] 256 := by
  intro h
  have hones : ([0xff] : List UInt8).flatMap bitsOf = List.replicate 8 true := by decide
  have hdecode : hzeroQpackHuffmanDecode [0xff] 256 = ⟨0, []⟩ := by
    rcases @decode_of_split [0xff] [] _ 256 hones fun b => not_huffmanCode_prefix_replicate b 8 with
      ⟨-, hdecode⟩ | ⟨hlong, -⟩
    · rw [hdecode, if_pos (.inl (by simp))]
    · exact absurd hlong (by decide)
  obtain ⟨⟨n, hn, hbits⟩, -⟩ := (h.exact []).1 hdecode
  have := congrArg List.length (hones.symm.trans hbits)
  simp only [List.length_replicate, List.flatMap_nil, List.nil_append] at this
  omega

/-! ### Header values -/

theorem huffmanLoop_eq_outcome {s : HuffmanState} {bits : List Bool} {index : ℕ}
    {decoded : List UInt8} {wasAllOnes : Bool} (h : s.At bits index decoded wasAllOnes) :
    huffmanLoop bits index decoded wasAllOnes = s.outcome deHuffSize := by
  induction bits generalizing s index decoded wasAllOnes with
  | nil =>
    rw [huffmanLoop]
    split_ifs with hindex hspace
    · exact h.outcome_nil hindex |>.symm
    all_goals
      rcases h.outcome_value (Bool.eq_false_iff.2 hindex) with ⟨hlt, s', hs', hout⟩ | ⟨hge, hout⟩
    · rw [hout, hs'.outcome_nil HuffmanState.isIndexLocation_zero]
    · exact absurd hspace hge
    · exact absurd hlt hspace
    · exact hout.symm
  | cons bit bits ih =>
    -- A bit at an index is followed in the same way behind a byte and elsewhere.
    have hfollow : ∀ {s : HuffmanState} {index decoded wasAllOnes},
        s.At (bit :: bits) index decoded wasAllOnes → isIndexLocation index = true →
        (if 512 ≤ nextIndex index bit then (decoded, wasAllOnes && bit)
          else huffmanLoop bits (nextIndex index bit) decoded (wasAllOnes && bit)) =
          s.outcome deHuffSize := by
      intro s index decoded wasAllOnes h hindex
      rcases h.outcome_cons hindex with ⟨hend, hout⟩ | ⟨hend, s', hs', hout⟩
      · rw [if_pos hend, hout]
      · rw [if_neg hend, ih hs', hout]
    rw [huffmanLoop]
    by_cases hindex : isIndexLocation index = true
    · rw [if_pos hindex, ← hfollow h hindex]
      cases bit <;> simp [nextIndex]
    · rw [if_neg hindex]
      rcases h.outcome_value (Bool.eq_false_iff.2 hindex) with
        ⟨hspace, s', hs', hout⟩ | ⟨hfull, hout⟩
      · rw [if_pos hspace, hout, ← hfollow hs' HuffmanState.isIndexLocation_zero]
        cases bit <;> simp [nextIndex]
      · rw [if_neg hfull, hout]

/-- The decoder of header values has space for 256 bytes. -/
theorem huffmanDecode_eq (bytes : List UInt8) :
    huffmanDecode bytes = if (hzeroQpackHuffmanDecode bytes deHuffSize).ret = 0 then
      some (hzeroQpackHuffmanDecode bytes deHuffSize).decoded else none := by
  rw [huffmanDecode, huffmanLoop_eq_outcome (HuffmanState.at_init bytes), hzeroQpackHuffmanDecode]
  dsimp only [HuffmanState.outcome]
  split_ifs with hones hret hret <;> simp_all

end H3zero

end Picoquic
