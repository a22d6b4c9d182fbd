import Picoquic.Basic
import Picoquic.ForMathlib.Runs
import Picoquic.ForMathlib.SplayTree

/-!
# Tokens are used once

The tokens that clients present are registered in a splay tree, sorted by expiry time and then by
the last eight bytes, until they expire. Both are compared by the sign of a 64-bit difference.

* **`TokenContext.checkReuse`**, **`TokenContext.clear`** — presentation and expiry;
* **`presented_once`** — a token that is accepted is not accepted again before it is cleared, in a
  run in which the comparison orders the registered tokens and the one presented;
* **`accepted_twice`** — three tokens with the same expiry time form a cycle, and the first one
  is accepted again.
-/

namespace Picoquic

open Runs

/-- `picoquic_registered_token_t`. -/
structure RegisteredToken where
  address : ℕ
  tokenTime : ℕ
  tokenHash : ℕ
  deriving DecidableEq

/-- `picoquic_registered_token_compare`. -/
def registeredTokenCompare (l r : RegisteredToken) : ℤ :=
  let ret := int64 (sub64 l.tokenTime r.tokenTime)
  if ret = 0 then int64 (sub64 l.tokenHash r.tokenHash) else ret

/-- `PICOPARSE_64`. -/
def parse64 (b : List UInt8) : ℕ := (b.take 8).foldl (fun n x => 256 * n + x.toNat) 0

/-- The registered tokens. Each one is allocated at a new address. -/
structure TokenContext where
  tokenReuseTree : SplayTree RegisteredToken
  nextAddress : ℕ

/-- No token is registered. -/
def TokenContext.init : TokenContext := ⟨.nil, 0⟩

/-- The token that is registered when `token` is presented. -/
def TokenContext.newToken (c : TokenContext) (token : List UInt8) (expiryTime : ℕ) :
    RegisteredToken :=
  ⟨c.nextAddress, expiryTime, parse64 (token.drop (token.length - 8))⟩

/-- `picoquic_registered_token_check_reuse`, with its return value. -/
def TokenContext.checkReuse (c : TokenContext) (token : List UInt8) (expiryTime : ℕ) :
    TokenContext × ℤ :=
  if 8 ≤ token.length then
    let rt := c.newToken token expiryTime
    match c.tokenReuseTree.find registeredTokenCompare rt with
    | (some _, t) => ({ c with tokenReuseTree := t }, -1)
    | (none, t) => (⟨t.insert registeredTokenCompare rt, c.nextAddress + 1⟩, 0)
  else (c, -1)

/-- The loop of `picoquic_registered_token_clear`, for at most `n` tokens. -/
def clearLoop (expiryTimeMax : ℕ) : ℕ → SplayTree RegisteredToken → SplayTree RegisteredToken
  | 0, t => t
  | n + 1, t =>
    match t.first with
    | none => t
    | some rt =>
      if expiryTimeMax ≤ rt.tokenTime then t else clearLoop expiryTimeMax n (t.deleteHint rt)

/-- `picoquic_registered_token_clear`. -/
def TokenContext.clear (c : TokenContext) (expiryTimeMax : ℕ) : TokenContext :=
  { c with
    tokenReuseTree :=
      clearLoop expiryTimeMax c.tokenReuseTree.toList.length c.tokenReuseTree }

/-- What happens to the registered tokens. -/
inductive TokenEvent
  /-- `picoquic_registered_token_check_reuse`. -/
  | present (token : List UInt8) (expiryTime : Fin (2 ^ 64))
  /-- `picoquic_registered_token_clear`. -/
  | clear (expiryTimeMax : Fin (2 ^ 64))

/-- One event. -/
def TokenContext.step (c : TokenContext) : TokenEvent → TokenContext
  | .present token expiryTime => (c.checkReuse token expiryTime).1
  | .clear expiryTimeMax => c.clear expiryTimeMax

/-- A token of this time and hash is registered. -/
def TokenContext.Registered (c : TokenContext) (time hash : ℕ) : Prop :=
  ∃ rt ∈ c.tokenReuseTree.toList, rt.tokenTime = time ∧ rt.tokenHash = hash

/-! ### What stays registered -/

/-- Only tokens that are expired are cleared. -/
theorem clearLoop_spec (expiryTimeMax n : ℕ) (t : SplayTree RegisteredToken) :
    (clearLoop expiryTimeMax n t).toList.Sublist t.toList ∧
      ∀ rt ∈ t.toList, expiryTimeMax ≤ rt.tokenTime →
        rt ∈ (clearLoop expiryTimeMax n t).toList := by
  induction n generalizing t with
  | zero => exact ⟨List.Sublist.refl _, fun rt hrt _ => hrt⟩
  | succ n ih =>
    rw [clearLoop]
    cases hf : t.first with
    | none => exact ⟨List.Sublist.refl _, fun rt hrt _ => hrt⟩
    | some first =>
      dsimp only
      split_ifs with hle
      · exact ⟨List.Sublist.refl _, fun rt hrt _ => hrt⟩
      rw [SplayTree.first_eq_head?] at hf
      obtain ⟨l, r, heq, hdelete⟩ := SplayTree.toList_deleteHint (List.mem_of_head? hf)
      obtain ⟨ihsub, ihmem⟩ := ih (t.deleteHint first)
      refine ⟨ihsub.trans ?_, fun rt hrt hkeep => ihmem rt ?_ hkeep⟩
      · rw [hdelete, heq]
        exact List.Sublist.append_left (List.sublist_cons_self first r) l
      · have hne : rt ≠ first := by
          rintro rfl
          exact hle hkeep
        rw [heq] at hrt
        rw [hdelete]
        simpa [hne] using hrt

variable {c : TokenContext}

/-- A token stays registered until it is cleared. -/
theorem TokenContext.Registered.step {time hash : ℕ} (h : c.Registered time hash) (e : TokenEvent)
    (he : ∀ expiryTimeMax : Fin (2 ^ 64), e = .clear expiryTimeMax → expiryTimeMax ≤ time) :
    (c.step e).Registered time hash := by
  obtain ⟨rt, hrt, htime, hhash⟩ := h
  cases e with
  | clear expiryTimeMax =>
    have hle := he expiryTimeMax rfl
    exact ⟨rt, (clearLoop_spec expiryTimeMax _ _).2 rt hrt (htime ▸ hle), htime, hhash⟩
  | present token expiryTime =>
    refine ⟨rt, ?_, htime, hhash⟩
    rw [TokenContext.step, checkReuse]
    split_ifs
    swap
    · exact hrt
    have hlist : (c.tokenReuseTree.find registeredTokenCompare
        (c.newToken token expiryTime)).2.toList = c.tokenReuseTree.toList :=
      SplayTree.toList_find c.tokenReuseTree
    dsimp only
    generalize c.tokenReuseTree.find registeredTokenCompare (c.newToken token expiryTime) = r
      at hlist ⊢
    obtain ⟨found, t⟩ := r
    dsimp only at hlist
    cases found with
    | some old => exact hlist ▸ hrt
    | none =>
      refine (SplayTree.toList_insert_perm registeredTokenCompare _ t).mem_iff.mpr ?_
      exact List.mem_cons_of_mem _ (hlist ▸ hrt)

/-! ### Tokens that are ordered -/

/-- The comparison strictly orders the tokens: it is asymmetric and transitive on them. -/
structure TokensOrdered (l : List RegisteredToken) : Prop where
  asymm : ∀ a ∈ l, ∀ b ∈ l, registeredTokenCompare a b < 0 ↔ 0 < registeredTokenCompare b a
  trans : ∀ a ∈ l, ∀ b ∈ l, ∀ c ∈ l, registeredTokenCompare a b < 0 →
    registeredTokenCompare b c < 0 → registeredTokenCompare a c < 0

instance (l : List RegisteredToken) : Decidable (TokensOrdered l) :=
  decidable_of_iff ((∀ a ∈ l, ∀ b ∈ l, registeredTokenCompare a b < 0 ↔
      0 < registeredTokenCompare b a) ∧
    ∀ a ∈ l, ∀ b ∈ l, ∀ c ∈ l, registeredTokenCompare a b < 0 →
      registeredTokenCompare b c < 0 → registeredTokenCompare a c < 0)
    ⟨fun h => ⟨h.1, h.2⟩, fun h => ⟨h.asymm, h.trans⟩⟩

/-- The comparison orders the registered tokens together with one that is presented. -/
def TokenEvent.Ordered (c : TokenContext) : TokenEvent → Prop
  | .present token expiryTime =>
    8 ≤ token.length → TokensOrdered (c.newToken token expiryTime :: c.tokenReuseTree.toList)
  | .clear _ => True

instance (c : TokenContext) (e : TokenEvent) : Decidable (e.Ordered c) := by
  cases e <;> unfold TokenEvent.Ordered <;> infer_instance

theorem registeredTokenCompare_eq_zero {a b : RegisteredToken} (htime : a.tokenTime = b.tokenTime)
    (hhash : a.tokenHash = b.tokenHash) : registeredTokenCompare a b = 0 := by
  have hsub : ∀ n, int64 (sub64 n n) = 0 := by
    intro n
    have hzero : sub64 n n = 0 := by
      rw [sub64, u64, u64]
      omega
    rw [hzero]
    decide
  rw [registeredTokenCompare, htime, hhash]
  simp [hsub]

/-- What compares above one token compares above the tokens before it, and what compares below one
token compares below those behind it. -/
theorem TokensOrdered.search {x a b : RegisteredToken} {l : List RegisteredToken}
    (hl : TokensOrdered (x :: l)) (ha : a ∈ l) (hb : b ∈ l)
    (hab : registeredTokenCompare a b < 0) :
    (registeredTokenCompare x a < 0 → registeredTokenCompare x b < 0) ∧
      (0 < registeredTokenCompare x b → 0 < registeredTokenCompare x a) := by
  have hx : x ∈ x :: l := List.mem_cons_self
  have ha' := List.mem_cons_of_mem x ha
  have hb' := List.mem_cons_of_mem x hb
  refine ⟨fun hxa => hl.trans x hx a ha' b hb' hxa hab, fun hxb => ?_⟩
  have hbx := (hl.asymm b hb' x hx).mpr hxb
  exact (hl.asymm a ha' x hx).mp (hl.trans a ha' b hb' x hx hab hbx)

/-- The tokens of a tree are in order. -/
def TokensSorted (t : SplayTree RegisteredToken) : Prop :=
  t.toList.Pairwise fun a b => registeredTokenCompare a b < 0

variable {t : SplayTree RegisteredToken} {x : RegisteredToken} {evs : List TokenEvent}

theorem TokensSorted.ne_zero (hs : TokensSorted t) (hx : TokensOrdered (x :: t.toList))
    (hnone : (t.find registeredTokenCompare x).1 = none) :
    ∀ a ∈ t.toList, registeredTokenCompare x a ≠ 0 := by
  refine SplayTree.find_eq_none (hs.imp_of_mem fun ha hb hab => ?_) hnone
  obtain ⟨h1, h2⟩ := hx.search ha hb hab
  omega

/-- A token that is not registered is inserted in order. -/
theorem TokensSorted.insert (hs : TokensSorted t) (hx : TokensOrdered (x :: t.toList))
    (hne : ∀ a ∈ t.toList, registeredTokenCompare x a ≠ 0) :
    TokensSorted (t.insert registeredTokenCompare x) := by
  obtain ⟨l, r, heq, hinsert, hl, hr⟩ := SplayTree.toList_insert
    (hs.imp_of_mem fun ha hb hab => (hx.search ha hb hab).1)
  rw [TokensSorted, heq] at hs
  rw [TokensSorted, hinsert]
  rw [heq] at hne hx
  obtain ⟨hsl, hsr, hcross⟩ := List.pairwise_append.mp hs
  refine List.pairwise_append.mpr ⟨hsl, List.pairwise_cons.mpr ⟨hr, hsr⟩, fun a ha b hb => ?_⟩
  rcases List.mem_cons.mp hb with rfl | hb
  · have hmem : a ∈ l ++ r := List.mem_append_left r ha
    have hpos : 0 < registeredTokenCompare b a := by
      have := hl a ha
      have := hne a hmem
      omega
    exact (hx.asymm a (List.mem_cons_of_mem b hmem) b List.mem_cons_self).mpr hpos
  · exact hcross a ha b hb

/-- **One presentation**: the order is kept, and a token that is registered is refused. -/
theorem TokenContext.checkReuse_spec (h : TokensSorted c.tokenReuseTree) {token : List UInt8}
    {expiryTime : ℕ} (hx : 8 ≤ token.length →
      TokensOrdered (c.newToken token expiryTime :: c.tokenReuseTree.toList)) :
    TokensSorted (c.checkReuse token expiryTime).1.tokenReuseTree ∧
      ((c.checkReuse token expiryTime).2 = 0 →
        ¬ c.Registered expiryTime (parse64 (token.drop (token.length - 8))) ∧
        (c.checkReuse token expiryTime).1.Registered expiryTime
          (parse64 (token.drop (token.length - 8)))) := by
  rw [checkReuse]
  split_ifs with hlen
  swap
  · exact ⟨h, by simp⟩
  have hlist : (c.tokenReuseTree.find registeredTokenCompare
      (c.newToken token expiryTime)).2.toList = c.tokenReuseTree.toList :=
    SplayTree.toList_find c.tokenReuseTree
  have hne := h.ne_zero (hx hlen)
  dsimp only
  generalize c.tokenReuseTree.find registeredTokenCompare (c.newToken token expiryTime) = r
    at hlist hne ⊢
  obtain ⟨found, t⟩ := r
  dsimp only at hlist hne ⊢
  have ht : TokensSorted t := by
    rw [TokensSorted, hlist]
    exact h
  cases found with
  | some old => exact ⟨ht, by simp⟩
  | none =>
    specialize hne rfl
    refine ⟨ht.insert (hlist ▸ hx hlen) (hlist ▸ hne), fun _ => ⟨?_, ?_⟩⟩
    · rintro ⟨rt, hrt, htime, hhash⟩
      exact hne rt hrt (registeredTokenCompare_eq_zero htime.symm hhash.symm)
    · refine ⟨c.newToken token expiryTime, ?_, rfl, rfl⟩
      exact (SplayTree.toList_insert_perm _ _ t).mem_iff.mpr List.mem_cons_self

/-! ### Runs -/

/-- **One event.** -/
theorem TokenContext.sorted_step (h : TokensSorted c.tokenReuseTree) (e : TokenEvent)
    (he : e.Ordered c) : TokensSorted (c.step e).tokenReuseTree := by
  cases e with
  | clear expiryTimeMax => exact h.sublist (clearLoop_spec expiryTimeMax _ _).1
  | present token expiryTime => exact (checkReuse_spec h he).1

theorem TokenContext.sorted_run
    (h : Along TokenContext.step (fun c e => e.Ordered c) TokenContext.init evs) :
    TokensSorted (run TokenContext.step TokenContext.init evs).tokenReuseTree := by
  have hinit : TokensSorted init.tokenReuseTree := List.Pairwise.nil
  exact run_invariant_of_along (I := fun c : TokenContext => TokensSorted c.tokenReuseTree)
    (P := fun c e => e.Ordered c) (fun _ e hc he => sorted_step hc e he) hinit h

/-- A token stays registered in a run that does not clear it. -/
theorem TokenContext.Registered.run {time hash : ℕ} (h : c.Registered time hash)
    (hevs : ∀ expiryTimeMax : Fin (2 ^ 64), .clear expiryTimeMax ∈ evs → expiryTimeMax ≤ time) :
    (Runs.run TokenContext.step c evs).Registered time hash := by
  induction evs generalizing c with
  | nil => exact h
  | cons e evs ih =>
    refine ih (h.step e fun expiryTimeMax heq => ?_) fun expiryTimeMax hmem => ?_
    · exact hevs expiryTimeMax (heq ▸ List.mem_cons_self)
    · exact hevs expiryTimeMax (List.mem_cons_of_mem e hmem)

/-- **A token is accepted once** until it is cleared, in a run in which the comparison orders the
registered tokens and each one that is presented. -/
theorem presented_once (evs mid : List TokenEvent) (token token' : List UInt8)
    (expiryTime : Fin (2 ^ 64))
    (h : Along TokenContext.step (fun c e => e.Ordered c) TokenContext.init
      (evs ++ [.present token expiryTime] ++ mid ++ [.present token' expiryTime]))
    (hend : token.drop (token.length - 8) = token'.drop (token'.length - 8))
    (hfirst : ((run TokenContext.step TokenContext.init evs).checkReuse token expiryTime).2 = 0)
    (hsecond : ((run TokenContext.step TokenContext.init
      (evs ++ [.present token expiryTime] ++ mid)).checkReuse token' expiryTime).2 = 0) :
    ∃ expiryTimeMax, .clear expiryTimeMax ∈ mid ∧ expiryTime < expiryTimeMax := by
  obtain ⟨hbefore, hlast, -⟩ := Along.append_iff.mp h
  obtain ⟨hboth, -⟩ := Along.append_iff.mp hbefore
  obtain ⟨hevs, hpresent, -⟩ := Along.append_iff.mp hboth
  obtain ⟨-, hspec⟩ := TokenContext.checkReuse_spec (TokenContext.sorted_run hevs) hpresent
  obtain ⟨-, hspec'⟩ := TokenContext.checkReuse_spec (TokenContext.sorted_run hbefore) hlast
  by_contra hclear
  -- without a clear, the token is still registered at its second presentation
  refine (hspec' hsecond).1 ?_
  rw [← hend, run_append, run_append]
  refine (hspec hfirst).2.run fun expiryTimeMax hmem => ?_
  exact Fin.not_lt.mp fun hlt => hclear ⟨expiryTimeMax, hmem, hlt⟩

theorem presented_once_sample :
    ∃ expiryTimeMax : Fin (2 ^ 64), .clear expiryTimeMax ∈ [TokenEvent.clear 2000] ∧
      1000 < expiryTimeMax :=
  presented_once [] [.clear 2000] [0, 0, 0, 0, 0, 0, 0, 1] [1, 0, 0, 0, 0, 0, 0, 0, 1] 1000
    (by decide +kernel) rfl (by decide +kernel) (by decide +kernel)

/-- Two tokens with the same expiry time as the token of eight zeros. -/
def cycleOfTokens : List TokenEvent :=
  [.present [0x60, 0, 0, 0, 0, 0, 0, 0] 1000, .present [0xc0, 0, 0, 0, 0, 0, 0, 0] 1000]

/-- The comparison puts the second token behind the first one, the third one behind the second
one, and the first one behind the third one. -/
theorem accepted_twice :
    (TokenContext.init.checkReuse (List.replicate 8 0) 1000).2 = 0 ∧
      ((run TokenContext.step TokenContext.init
        (.present (List.replicate 8 0) 1000 :: cycleOfTokens)).checkReuse
          (List.replicate 8 0) 1000).2 = 0 ∧
      ∀ expiryTimeMax, .clear expiryTimeMax ∉ cycleOfTokens := by
  refine ⟨by decide +kernel, by decide +kernel, fun expiryTimeMax h => ?_⟩
  simp [cycleOfTokens] at h

end Picoquic
