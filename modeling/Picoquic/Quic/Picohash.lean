import Picoquic.ForMathlib.Keyed

/-!
# Hash tables with chained bins

A table of keys, sorted into bins by the hash of the key. Each bin is a linked list of items, and
an item is deleted by its address, from the bin of the hash that was stored in it.

* **`PicohashTable`** — the operations of the table;
* **`PicohashTable.Sound`** — items are in their bins, and no two keys of the table are the same
  for the comparison;
* **`Sound.retrieve_eq_some`**, **`keySet_insert`**, **`Sound.keySet_deleteKey`** — a sound table
  is a set of keys with different identities, which are found by their identity.

Memory for items is available.
-/

namespace Picoquic

open Keyed

/-- `picohash_item`, with the address where it is allocated. -/
structure PicohashItem (κ : Type) where
  address : ℕ
  hash : ℕ
  key : κ

/-- `picohash_table`. Each item is allocated at a new address. -/
structure PicohashTable (κ : Type) where
  picohashHash : κ → ℕ
  picohashCompare : κ → κ → ℤ
  nbBin : ℕ
  nbBin_pos : 0 < nbBin
  hashBin : ℕ → List (PicohashItem κ)
  count : ℕ
  nextItem : ℕ

namespace PicohashTable

variable {κ ι : Type}

/-! ### Operations -/

/-- `picohash_create`. -/
def create (nbBin : ℕ) (nbBin_pos : 0 < nbBin) (picohashHash : κ → ℕ)
    (picohashCompare : κ → κ → ℤ) : PicohashTable κ :=
  ⟨picohashHash, picohashCompare, nbBin, nbBin_pos, fun _ => [], 0, 0⟩

/-- The number of a bin is a `uint32_t`. -/
def bin (t : PicohashTable κ) (hash : ℕ) : ℕ := hash % t.nbBin % 2 ^ 32

/-- `picohash_retrieve`. -/
def retrieve (t : PicohashTable κ) (key : κ) : Option (PicohashItem κ) :=
  (t.hashBin (t.bin (t.picohashHash key))).find? fun item => t.picohashCompare key item.key = 0

/-- `picohash_insert`. -/
def insert (t : PicohashTable κ) (key : κ) : PicohashTable κ :=
  let hash := t.picohashHash key
  { t with
    hashBin := Function.update t.hashBin (t.bin hash)
      (⟨t.nextItem, hash, key⟩ :: t.hashBin (t.bin hash))
    count := t.count + 1
    nextItem := t.nextItem + 1 }

/-- `picohash_delete_item`. -/
def deleteItem (t : PicohashTable κ) (item : PicohashItem κ) : PicohashTable κ :=
  let bin := t.bin item.hash
  if (t.hashBin bin).any (·.address = item.address) then
    { t with
      hashBin := Function.update t.hashBin bin
        ((t.hashBin bin).eraseP (·.address = item.address))
      count := t.count - 1 }
  else t

/-- `picohash_delete_key`, or the deletion of what `picohash_retrieve` finds. -/
def deleteKey (t : PicohashTable κ) (key : κ) : PicohashTable κ :=
  match t.retrieve key with
  | none => t
  | some item => t.deleteItem item

/-! ### Soundness -/

/-- The keys of a table. -/
def keySet (t : PicohashTable κ) : Set κ := {k | ∃ b, ∃ x ∈ t.hashBin b, x.key = k}

/-- Keys are compared and hashed by their identity, items are in the bins of their keys, and
neither identities nor addresses are repeated in a bin. -/
structure Sound (ident : κ → ι) (t : PicohashTable κ) : Prop where
  compare : ∀ k k', t.picohashCompare k k' = 0 ↔ ident k = ident k'
  hash : ∀ k k', ident k = ident k' → t.picohashHash k = t.picohashHash k'
  bins : ∀ b, ∀ x ∈ t.hashBin b, x.hash = t.picohashHash x.key ∧ t.bin x.hash = b
  idents : ∀ b, (keys (fun x => ident x.key) (t.hashBin b)).Nodup
  addresses : ∀ b, (keys PicohashItem.address (t.hashBin b)).Nodup
  fresh : ∀ b, ∀ x ∈ t.hashBin b, x.address < t.nextItem

variable {ident : κ → ι} {t : PicohashTable κ}

theorem Sound.create {nbBin : ℕ} {nbBin_pos : 0 < nbBin} {picohashHash : κ → ℕ}
    {picohashCompare : κ → κ → ℤ}
    (hcompare : ∀ k k', picohashCompare k k' = 0 ↔ ident k = ident k')
    (hhash : ∀ k k', ident k = ident k' → picohashHash k = picohashHash k') :
    Sound ident (create nbBin nbBin_pos picohashHash picohashCompare) where
  compare := hcompare
  hash := hhash
  bins b x hx := by cases hx
  idents b := List.nodup_nil
  addresses b := List.nodup_nil
  fresh b x hx := by cases hx

theorem keySet_create (nbBin : ℕ) (nbBin_pos : 0 < nbBin) (picohashHash : κ → ℕ)
    (picohashCompare : κ → κ → ℤ) :
    (create nbBin nbBin_pos picohashHash picohashCompare).keySet = ∅ := by
  refine Set.eq_empty_of_forall_notMem ?_
  rintro k ⟨b, x, hx, -⟩
  cases hx

/-- What is retrieved is an item in the bin of the key, with the identity of the key. -/
theorem Sound.retrieve_spec (h : t.Sound ident) {k : κ} {x : PicohashItem κ}
    (hx : t.retrieve k = some x) :
    x ∈ t.hashBin (t.bin x.hash) ∧ ident x.key = ident k := by
  have hmem := List.mem_of_find?_eq_some hx
  have hcompare : t.picohashCompare k x.key = 0 := by
    simpa using List.find?_some hx
  obtain ⟨-, hbin⟩ := h.bins _ x hmem
  refine ⟨?_, ((h.compare k x.key).mp hcompare).symm⟩
  rw [hbin]
  exact hmem

/-- **Nothing is retrieved** exactly when no key of the table has the identity of the key. -/
theorem Sound.retrieve_eq_none (h : t.Sound ident) {k : κ} :
    t.retrieve k = none ↔ ∀ k' ∈ t.keySet, ident k' ≠ ident k := by
  constructor
  · rintro hnone k' ⟨b, x, hx, rfl⟩ hident
    obtain ⟨hhash, hbin⟩ := h.bins b x hx
    rw [hhash, h.hash _ _ hident] at hbin
    rw [← hbin] at hx
    have hne := List.find?_eq_none.mp hnone x hx
    exact hne (by simpa using (h.compare k x.key).mpr hident.symm)
  · intro hne
    refine List.find?_eq_none.mpr fun x hx hzero => ?_
    have hident := (h.compare k x.key).mp (by simpa using hzero)
    exact hne x.key ⟨_, x, hx, rfl⟩ hident.symm

/-- Keys of the table with the same identity are the same. -/
theorem Sound.eq_of_ident (h : t.Sound ident) {k k' : κ} (hk : k ∈ t.keySet) (hk' : k' ∈ t.keySet)
    (hident : ident k = ident k') : k = k' := by
  obtain ⟨b, x, hx, rfl⟩ := hk
  obtain ⟨b', x', hx', rfl⟩ := hk'
  obtain ⟨hhash, hbin⟩ := h.bins b x hx
  obtain ⟨hhash', hbin'⟩ := h.bins b' x' hx'
  have hsame : b = b' := by
    rw [← hbin, ← hbin', hhash, hhash', h.hash _ _ hident]
  subst hsame
  exact congrArg PicohashItem.key (List.inj_on_of_nodup_map (h.idents b) hx hx' hident)

/-- **Retrieval**: the key that is found is the key of the table with that identity. -/
theorem Sound.retrieve_eq_some (h : t.Sound ident) {k k' : κ} :
    (t.retrieve k).map PicohashItem.key = some k' ↔ k' ∈ t.keySet ∧ ident k' = ident k := by
  constructor
  · intro hk'
    obtain ⟨x, hx, rfl⟩ := Option.map_eq_some_iff.mp hk'
    obtain ⟨hmem, hident⟩ := h.retrieve_spec hx
    exact ⟨⟨_, x, hmem, rfl⟩, hident⟩
  · rintro ⟨hmem, hident⟩
    cases hx : t.retrieve k with
    | none => exact absurd hident (h.retrieve_eq_none.mp hx k' hmem)
    | some x =>
      obtain ⟨hxmem, hxident⟩ := h.retrieve_spec hx
      have hkey := h.eq_of_ident ⟨_, x, hxmem, rfl⟩ hmem (hxident.trans hident.symm)
      rw [Option.map_some, hkey]

/-! ### Insertion -/

/-- The item that is allocated for a key. -/
def newItem (t : PicohashTable κ) (key : κ) : PicohashItem κ :=
  ⟨t.nextItem, t.picohashHash key, key⟩

theorem hashBin_insert (t : PicohashTable κ) (key : κ) (b : ℕ) :
    (t.insert key).hashBin b =
      if b = t.bin (t.picohashHash key) then t.newItem key :: t.hashBin b else t.hashBin b := by
  split
  next hb =>
    subst hb
    exact Function.update_self ..
  next hb => exact Function.update_of_ne hb ..

theorem mem_hashBin_insert {key : κ} {b : ℕ} {x : PicohashItem κ} :
    x ∈ (t.insert key).hashBin b ↔
      x ∈ t.hashBin b ∨ b = t.bin (t.picohashHash key) ∧ x = t.newItem key := by
  rw [hashBin_insert]
  split
  next hb => simp [hb, or_comm]
  next hb => simp [hb]

/-- A key that is inserted joins the keys. -/
theorem keySet_insert (t : PicohashTable κ) (key : κ) :
    (t.insert key).keySet = Insert.insert key t.keySet := by
  ext k
  constructor
  · rintro ⟨b, x, hx, rfl⟩
    rcases mem_hashBin_insert.mp hx with hx | ⟨-, rfl⟩
    · exact Set.mem_insert_of_mem _ ⟨b, x, hx, rfl⟩
    · exact Set.mem_insert _ _
  · intro hk
    rcases Set.mem_insert_iff.mp hk with rfl | ⟨b, x, hx, rfl⟩
    · exact ⟨_, _, mem_hashBin_insert.mpr (Or.inr ⟨rfl, rfl⟩), rfl⟩
    · exact ⟨b, x, mem_hashBin_insert.mpr (Or.inl hx), rfl⟩

section

variable (h : t.Sound ident)

include h

/-- **Insertion** of a key that is not found. -/
theorem Sound.insert {key : κ} (hnone : t.retrieve key = none) :
    (t.insert key).Sound ident where
  compare := h.compare
  hash := h.hash
  bins b x hx := by
    rcases mem_hashBin_insert.mp hx with hx | ⟨hb, rfl⟩
    · exact h.bins b x hx
    · exact ⟨rfl, hb.symm⟩
  idents b := by
    rw [hashBin_insert]
    split
    · rw [keys, List.map_cons, List.nodup_cons]
      refine ⟨fun hmem => ?_, h.idents b⟩
      obtain ⟨x, hx, hident⟩ := List.mem_map.mp hmem
      exact h.retrieve_eq_none.mp hnone x.key ⟨b, x, hx, rfl⟩ hident
    · exact h.idents b
  addresses b := by
    rw [hashBin_insert]
    split
    · rw [keys, List.map_cons, List.nodup_cons]
      refine ⟨fun hmem => ?_, h.addresses b⟩
      obtain ⟨x, hx, haddress⟩ := List.mem_map.mp hmem
      exact absurd haddress (h.fresh b x hx).ne
    · exact h.addresses b
  fresh b x hx := by
    rcases mem_hashBin_insert.mp hx with hx | ⟨-, rfl⟩
    · exact (h.fresh b x hx).trans (Nat.lt_succ_self _)
    · exact Nat.lt_succ_self _

/-! ### Deletion -/

/-- What deletion leaves in each bin: all items but the one at that address. -/
theorem Sound.hashBin_deleteItem {item : PicohashItem κ}
    (hitem : item ∈ t.hashBin (t.bin item.hash)) (b : ℕ) :
    (t.deleteItem item).hashBin b =
      if b = t.bin item.hash then remove PicohashItem.address item.address (t.hashBin b)
      else t.hashBin b := by
  have hany : (t.hashBin (t.bin item.hash)).any (·.address = item.address) = true := by
    rw [List.any_eq_true]
    exact ⟨item, hitem, by simp⟩
  rw [deleteItem, if_pos hany]
  split
  next hb =>
    subst hb
    rw [← eraseP_eq_remove (h.addresses _)]
    exact Function.update_self ..
  next hb => exact Function.update_of_ne hb ..

/-- The items that remain are those with other identities. -/
theorem Sound.mem_hashBin_deleteItem {item : PicohashItem κ}
    (hitem : item ∈ t.hashBin (t.bin item.hash)) {b : ℕ} {x : PicohashItem κ} :
    x ∈ (t.deleteItem item).hashBin b ↔ x ∈ t.hashBin b ∧ ident x.key ≠ ident item.key := by
  rw [h.hashBin_deleteItem hitem]
  split
  next hb =>
    subst hb
    rw [remove, List.mem_filter, decide_eq_true_eq]
    refine and_congr_right fun hx => not_congr ⟨fun haddress => ?_, fun hident => ?_⟩
    · rw [List.inj_on_of_nodup_map (h.addresses _) hx hitem haddress]
    · rw [List.inj_on_of_nodup_map (h.idents _) hx hitem hident]
  next hb =>
    refine (and_iff_left_of_imp fun hx hident => hb ?_).symm
    obtain ⟨hhash, hbin⟩ := h.bins b x hx
    obtain ⟨hhash', -⟩ := h.bins _ item hitem
    rw [← hbin, hhash, hhash', h.hash _ _ hident]

theorem Sound.deleteItem {item : PicohashItem κ}
    (hitem : item ∈ t.hashBin (t.bin item.hash)) : (t.deleteItem item).Sound ident := by
  have hsub (b : ℕ) : ((t.deleteItem item).hashBin b).Sublist (t.hashBin b) := by
    rw [h.hashBin_deleteItem hitem]
    split
    · exact List.filter_sublist
    · exact List.Sublist.refl _
  have hrest : (t.deleteItem item).picohashHash = t.picohashHash ∧
      (t.deleteItem item).picohashCompare = t.picohashCompare ∧
      (t.deleteItem item).nbBin = t.nbBin ∧ (t.deleteItem item).nextItem = t.nextItem := by
    rw [PicohashTable.deleteItem]
    split
    · exact ⟨rfl, rfl, rfl, rfl⟩
    · exact ⟨rfl, rfl, rfl, rfl⟩
  obtain ⟨hhash, hcompare, hnbBin, hnext⟩ := hrest
  refine ⟨?_, ?_, fun b x hx => ?_, fun b => ?_, fun b => ?_, fun b x hx => ?_⟩
  · rw [hcompare]
    exact h.compare
  · rw [hhash]
    exact h.hash
  · rw [bin, hhash, hnbBin]
    exact h.bins b x ((hsub b).mem hx)
  · exact (h.idents b).sublist ((hsub b).map _)
  · exact (h.addresses b).sublist ((hsub b).map _)
  · rw [hnext]
    exact h.fresh b x ((hsub b).mem hx)

/-- **Deletion** keeps the table sound. -/
theorem Sound.deleteKey (key : κ) : (t.deleteKey key).Sound ident := by
  rw [PicohashTable.deleteKey]
  cases hx : t.retrieve key with
  | none => exact h
  | some item => exact h.deleteItem (h.retrieve_spec hx).1

/-- **Deletion** removes the key with the identity of the key, if there is one. -/
theorem Sound.keySet_deleteKey (key : κ) :
    (t.deleteKey key).keySet = {k ∈ t.keySet | ident k ≠ ident key} := by
  ext k
  rw [PicohashTable.deleteKey]
  cases hx : t.retrieve key with
  | none => exact (and_iff_left_of_imp fun hk => h.retrieve_eq_none.mp hx k hk).symm
  | some item =>
    obtain ⟨hitem, hident⟩ := h.retrieve_spec hx
    constructor
    · rintro ⟨b, x, hmem, rfl⟩
      obtain ⟨hmem, hne⟩ := (h.mem_hashBin_deleteItem hitem).mp hmem
      exact ⟨⟨b, x, hmem, rfl⟩, hident ▸ hne⟩
    · rintro ⟨⟨b, x, hmem, rfl⟩, hne⟩
      exact ⟨b, x, (h.mem_hashBin_deleteItem hitem).mpr ⟨hmem, hident ▸ hne⟩, rfl⟩

end

end PicohashTable

end Picoquic
