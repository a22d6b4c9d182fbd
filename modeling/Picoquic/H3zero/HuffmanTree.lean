import Mathlib.Data.List.Perm.Subperm
import Picoquic.ForMathlib.CodeTree
import Picoquic.H3zero.Qpack

/-!
# The Huffman code

The tables of the decoder are a tree in preorder: position 0 is the root, behind an index comes the
tree for a 0 bit, and its value is the distance to the tree for a 1 bit. Position 512, which is
behind the tables, is the end of a string.

* **`huffmanTree`** — the tree;
* **`huffmanCode`** — the code of a byte;
* **`follow_huffmanTree_iff`**, **`isPrefixCode_huffmanCode`** — each byte has one code, and no code
  is a prefix of another one;
* **`isTreeAt_huffmanTree`** — the tree is what the decoder finds in the tables.
-/

namespace Picoquic

namespace H3zero

/-- The symbol that ends a string. -/
def endOfString : ℕ := 256

/-- The tree at position `index`, where `vals` is the rest of `huffmanVal`. -/
def huffmanTreeFrom : (depth index : ℕ) → (vals : List ℕ) → CodeTree ℕ
  | 0, _, _ => .leaf endOfString
  | _ + 1, _, [] => .leaf endOfString
  | depth + 1, index, val :: vals =>
    if isIndexLocation index then
      .node (huffmanTreeFrom depth (index + 1) vals)
        (huffmanTreeFrom depth (index + val) ((val :: vals).drop val))
    else .leaf val

/-- The tree of the tables. -/
def huffmanTree : CodeTree ℕ := huffmanTreeFrom 31 0 huffmanVal

/-- The code of a byte. -/
def huffmanCode (b : UInt8) : List Bool := (huffmanTree.codeOf b.toNat).getD []

/-- The code that ends a string. -/
def endOfStringCode : List Bool := List.replicate 30 true

/-! ### The code -/

theorem codeOf_endOfString : huffmanTree.codeOf endOfString = some endOfStringCode := by
  decide +kernel

theorem perm_symbols : (huffmanTree.codes.map Prod.snd).Perm (List.range 257) := by
  have hdistinct : (huffmanTree.codes.map Prod.snd).distinctFrom 0 = true := by decide +kernel
  have hsymbols : (huffmanTree.codes.map Prod.snd).all (· < 257) = true := by decide +kernel
  have hlength : (huffmanTree.codes.map Prod.snd).length = 257 := by decide +kernel
  refine List.Subperm.perm_of_length_le (List.subperm_of_subset
    (List.nodup_of_distinctFrom hdistinct).1 fun a ha => ?_) ?_
  · simpa using List.all_eq_true.1 hsymbols a ha
  · rw [hlength, List.length_range]

theorem nodup_symbols : (huffmanTree.codes.map Prod.snd).Nodup :=
  perm_symbols.nodup_iff.2 List.nodup_range

variable (b : UInt8)

theorem codeOf_eq_some_huffmanCode : huffmanTree.codeOf b.toNat = some (huffmanCode b) := by
  have hmem : b.toNat ∈ huffmanTree.codes.map Prod.snd := by
    rw [perm_symbols.mem_iff, List.mem_range]
    have := b.toNat_lt
    omega
  obtain ⟨c, hc, hb⟩ := List.mem_map.1 hmem
  have hsome : (huffmanTree.codeOf b.toNat).isSome := by
    rw [CodeTree.codeOf, Option.isSome_map, List.find?_isSome]
    exact ⟨c, hc, by simpa using hb⟩
  obtain ⟨w, hw⟩ := Option.isSome_iff_exists.1 hsome
  rw [huffmanCode, hw, Option.getD_some]

theorem follow_huffmanTree_iff (w : List Bool) :
    huffmanTree.follow w = some (.leaf b.toNat) ↔ w = huffmanCode b :=
  CodeTree.follow_eq_leaf_iff nodup_symbols (codeOf_eq_some_huffmanCode b)

theorem follow_huffmanCode : huffmanTree.follow (huffmanCode b) = some (.leaf b.toNat) :=
  (follow_huffmanTree_iff b _).2 rfl

theorem follow_eq_endOfString_iff (w : List Bool) :
    huffmanTree.follow w = some (.leaf endOfString) ↔ w = endOfStringCode :=
  CodeTree.follow_eq_leaf_iff nodup_symbols codeOf_endOfString

theorem isPrefixCode_huffmanCode : IsPrefixCode huffmanCode where
  eq_of_prefix a b h := UInt8.toNat_inj.1
    (CodeTree.eq_of_follow_leaf_of_prefix (follow_huffmanCode a) (follow_huffmanCode b) h).2
  ne_nil a h := by
    have hroot := follow_huffmanCode a
    rw [h, CodeTree.follow_nil] at hroot
    exact nomatch hroot

/-- The symbol at the end of a path is a byte, or the end of a string. -/
theorem eq_huffmanCode_or_endOfString {w : List Bool} {a : ℕ}
    (h : huffmanTree.follow w = some (.leaf a)) :
    (∃ b : UInt8, a = b.toNat ∧ w = huffmanCode b) ∨ a = endOfString ∧ w = endOfStringCode := by
  have hmem : a ∈ huffmanTree.codes.map Prod.snd :=
    List.mem_map.2 ⟨(w, a), CodeTree.mem_codes_iff.2 h, rfl⟩
  rw [perm_symbols.mem_iff, List.mem_range] at hmem
  rcases Nat.lt_succ_iff_lt_or_eq.1 hmem with hlt | rfl
  · have ha : (UInt8.ofNat a).toNat = a := UInt8.toNat_ofNat_of_lt hlt
    exact .inl ⟨UInt8.ofNat a, ha.symm, (follow_huffmanTree_iff _ w).1 (by rw [ha]; exact h)⟩
  · exact .inr ⟨rfl, (follow_eq_endOfString_iff w).1 h⟩

/-- No code has 1 bits only. -/
theorem not_huffmanCode_prefix_replicate (n : ℕ) : ¬ huffmanCode b <+: List.replicate n true := by
  intro h
  have hend := (follow_eq_endOfString_iff _).2 rfl
  have hb := follow_huffmanCode b
  obtain ⟨m, hm⟩ : ∃ m, huffmanCode b = List.replicate m true := by
    obtain ⟨-, hm⟩ := List.prefix_replicate_iff.1 h
    exact ⟨_, hm⟩
  have hlt := b.toNat_lt
  rw [hm] at hb
  have hne : b.toNat ≠ endOfString := by
    rw [endOfString]
    omega
  rcases Nat.le_total m 30 with hle | hle
  · exact hne (CodeTree.eq_of_follow_leaf_of_prefix hb hend
      (List.prefix_replicate_iff.2 ⟨by simpa using hle, by simp⟩)).2
  · have hprefix : endOfStringCode <+: List.replicate m true :=
      List.prefix_replicate_iff.2 ⟨by simpa [endOfStringCode] using hle, by simp [endOfStringCode]⟩
    exact hne (CodeTree.eq_of_follow_leaf_of_prefix hend hb hprefix).2.symm

/-! ### The tables -/

/-- The tree that the decoder finds at a position of the tables. -/
def IsTreeAt : CodeTree ℕ → ℕ → Prop
  | .leaf a, index =>
    a = endOfString ∧ 512 ≤ index ∨
      index < 512 ∧ isIndexLocation index = false ∧ huffmanVal.getD index 0 = a
  | .node zero one, index =>
    index < 512 ∧ isIndexLocation index = true ∧ IsTreeAt zero (index + 1) ∧
      IsTreeAt one (index + huffmanVal.getD index 0)

theorem isTreeAt_huffmanTreeFrom {depth index : ℕ} {vals : List ℕ}
    (hvals : vals = huffmanVal.drop index)
    (hdepth : ∀ w, w.length = depth →
      (huffmanTreeFrom depth index vals).follow w ≠ some (.leaf endOfString)) :
    IsTreeAt (huffmanTreeFrom depth index vals) index := by
  induction depth generalizing index vals with
  | zero => exact absurd rfl (hdepth [] rfl)
  | succ depth ih =>
    cases vals with
    | nil =>
      have hle := List.drop_eq_nil_iff.1 hvals.symm
      rw [length_huffman.2] at hle
      exact .inl ⟨rfl, hle⟩
    | cons val vals =>
      have hlt : index < 512 := by
        by_contra hge
        rw [List.drop_eq_nil_of_le (by rw [length_huffman.2]; omega)] at hvals
        exact nomatch hvals
      have hval : huffmanVal.getD index 0 = val := by
        rw [List.getD_eq_getElem?_getD, ← List.head?_drop, ← hvals]
        rfl
      rw [huffmanTreeFrom] at hdepth ⊢
      split_ifs at hdepth ⊢ with hindex
      · refine ⟨hlt, hindex, ih ?_ fun w hw => ?_, ?_⟩
        · rw [← List.tail_drop, ← hvals, List.tail_cons]
        · exact hdepth (false :: w) (by rw [List.length_cons, hw])
        · rw [hval]
          refine ih ?_ fun w hw => hdepth (true :: w) (by rw [List.length_cons, hw])
          rw [hvals, List.drop_drop]
      · exact .inr ⟨hlt, Bool.eq_false_iff.2 hindex, hval⟩

theorem getD_huffmanVal_ne_endOfString (index : ℕ) : huffmanVal.getD index 0 ≠ endOfString := by
  have hall : huffmanVal.all (· < endOfString) = true := by decide +kernel
  rw [List.getD_eq_getElem?_getD]
  cases hval : huffmanVal[index]? with
  | none => exact Nat.zero_ne_add_one 255
  | some val =>
    have := List.all_eq_true.1 hall val (List.mem_of_getElem? hval)
    exact (by simpa using this : val < endOfString).ne

theorem isTreeAt_huffmanTree : IsTreeAt huffmanTree 0 :=
  isTreeAt_huffmanTreeFrom rfl fun w hw hleaf => by
    rw [(follow_eq_endOfString_iff w).1 hleaf] at hw
    exact absurd hw (by decide)

end H3zero

end Picoquic
