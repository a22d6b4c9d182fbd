import Picoquic.Stream.OutputList

/-!
# Linking output streams

A stream that is linked behind the list, or in front of a list that is not empty, leaves a list. In
front of an empty list, the end stays unset, and the next stream that is linked behind replaces the
list.

* **`WellLinked.insertOutputStream`**, **`WellLinked.removeOutputStream`** — one stream;
* **`foldl_insert_wellLinked_iff`** — when linking some streams, one after another, leaves a list;
* **`WellLinked.foldl_addStream`** — streams that are new are not in the list.
-/

namespace Picoquic

open LinkedList

/-! ### Linking and unlinking -/

variable {L : LinkedList ℕ} {id : ℕ} {q : List ℕ}

variable {x : ℕ}

/-- Linking at the end is linking in front of the reversed list. -/
theorem linkAtEnd_eq (hx : L.last ≠ some x) : linkAtEnd L x = L.insertBack x := by
  have hfirst : L.reverse.first = L.last := rfl
  rw [linkAtEnd, insertBack, insertFront, hfirst]
  cases hlast : L.last with
  | none => rfl
  | some y =>
    have hyx : y ≠ x := fun heq => hx (hlast.trans (congrArg some heq))
    simp only [LinkedList.reverse, setNext, setPrevious]
    rw [Function.update_comm hyx]

theorem linkInFront_eq {x y : ℕ} (hfirst : L.first = some y) (hyx : y ≠ x) :
    linkInFront L x = L.insertFront x := by
  simp only [linkInFront, insertFront, hfirst, setNext, setPrevious]
  rw [Function.update_comm hyx]

/-- Unlinking an element that does not point to itself, in either order. -/
theorem unlink_eq (hnext : L.next x ≠ some x) (hprev : L.previous x ≠ some x) :
    unlink L x = L.remove x := by
  rw [unlink, remove]
  cases hn : L.next x with
  | none =>
    cases hp : L.previous x with
    | none => simp [hn, hp]
    | some y =>
      have hyx : x ≠ y := fun heq => hprev (hp.trans (congrArg some heq.symm))
      simp [hn, hp, setNext, hyx]
  | some w =>
    have hwx : x ≠ w := fun heq => hnext (hn.trans (congrArg some heq.symm))
    cases hp : L.previous x with
    | none => simp [hn, hp, setPrevious, hwx]
    | some y =>
      have hyx : x ≠ y := fun heq => hprev (hp.trans (congrArg some heq.symm))
      simp [hn, hp, setNext, setPrevious, hyx, hwx]

namespace OutputStreams

variable {s : OutputStreams}

theorem insertOutputStream_streams (s : OutputStreams) (id : ℕ) :
    (s.insertOutputStream id).streams = s.streams := by
  rw [insertOutputStream]
  split_ifs <;> rfl

theorem isOutputStream_insertOutputStream_iff {id x : ℕ} :
    (s.insertOutputStream id).isOutputStream x = true ↔ s.isOutputStream x = true ∨ x = id := by
  rcases eq_or_ne x id with rfl | hne
  · refine iff_of_true ?_ (.inr rfl)
    rw [insertOutputStream]
    split_ifs with h
    · exact h
    all_goals exact Function.update_self _ _ _
  · rw [isOutputStream_insertOutputStream hne, or_iff_left hne]

/-- Linking one stream leaves a list, unless it is linked in front of an empty list. -/
theorem WellLinked.insertOutputStream (h : s.WellLinked) (hid : id ∈ s.streams)
    (hunlinked : s.isOutputStream id = false)
    (hfirst : s.outputStreams.first = none → id ≠ s.highPriorityStreamId) :
    (s.insertOutputStream id).WellLinked := by
  obtain ⟨l, hl, hmem⟩ := h
  have hnot : id ∉ l := fun hin => by
    rw [((hmem id).mp hin).2] at hunlinked
    exact Bool.noConfusion hunlinked
  have hflags : ∀ x, (x ∈ l ∨ x = id) ↔ x ∈ (s.insertOutputStream id).streams ∧
      (s.insertOutputStream id).isOutputStream x = true := by
    intro x
    rw [insertOutputStream_streams, isOutputStream_insertOutputStream_iff, hmem]
    constructor
    · rintro (⟨hx, hflag⟩ | rfl)
      · exact ⟨hx, .inl hflag⟩
      · exact ⟨hid, .inr rfl⟩
    · rintro ⟨hx, hflag | rfl⟩
      · exact .inl ⟨hx, hflag⟩
      · exact .inr rfl
  by_cases hhigh : id = s.highPriorityStreamId
  · obtain ⟨y, hy⟩ := Option.ne_none_iff_exists'.mp fun hnone => hfirst hnone hhigh
    have hyid : y ≠ id := ne_of_mem_of_not_mem (hl.mem_of_first hy) hnot
    refine ⟨id :: l, ?_, fun x => ?_⟩
    · rw [insertOutputStream_front hunlinked hhigh, linkInFront_eq hy hyid]
      exact hl.insertFront hnot
    · rw [List.mem_cons, or_comm]
      exact hflags x
  · refine ⟨l ++ [id], ?_, fun x => ?_⟩
    · rw [insertOutputStream_end hunlinked hhigh,
        linkAtEnd_eq fun hlast => hnot (hl.mem_of_last hlast)]
      exact hl.insertBack hnot
    · rw [List.mem_append, List.mem_singleton]
      exact hflags x

theorem WellLinked.first_ne_none (h : s.WellLinked) (hid : id ∈ s.streams)
    (hlinked : s.isOutputStream id = true) : s.outputStreams.first ≠ none := by
  obtain ⟨l, hl, hmem⟩ := h
  intro hnone
  have hin := (hmem id).mpr ⟨hid, hlinked⟩
  rw [hl.eq_nil hnone] at hin
  exact List.not_mem_nil hin

theorem WellLinked.first_linked (h : s.WellLinked) (hfirst : s.outputStreams.first = some id) :
    id ∈ s.streams ∧ s.isOutputStream id = true := by
  obtain ⟨l, hl, hmem⟩ := h
  exact (hmem id).mp (hl.mem_of_first hfirst)

theorem foldl_insert_streams (q : List ℕ) :
    (q.foldl OutputStreams.insertOutputStream s).streams = s.streams := by
  induction q generalizing s with
  | nil => rfl
  | cons id q ih => exact ih.trans (insertOutputStream_streams s id)

theorem isOutputStream_foldl_iff :
    (q.foldl OutputStreams.insertOutputStream s).isOutputStream x = true ↔
      s.isOutputStream x = true ∨ x ∈ q := by
  induction q generalizing s with
  | nil => simp
  | cons id q ih =>
    rw [List.foldl_cons, ih, isOutputStream_insertOutputStream_iff, List.mem_cons, or_assoc]

/-- Some streams that exist and are not linked, without duplicates. -/
structure Linkable (s : OutputStreams) (q : List ℕ) : Prop where
  nodup : q.Nodup
  mem : ∀ id ∈ q, id ∈ s.streams
  unlinked : ∀ id ∈ q, s.isOutputStream id = false

theorem Linkable.tail (h : s.Linkable (id :: q)) : (s.insertOutputStream id).Linkable q := by
  obtain ⟨hid, hq⟩ := List.nodup_cons.mp h.nodup
  refine ⟨hq, fun x hx => ?_, fun x hx => ?_⟩
  · rw [insertOutputStream_streams]
    exact h.mem x (List.mem_cons_of_mem id hx)
  · rw [isOutputStream_insertOutputStream (ne_of_mem_of_not_mem hx hid)]
    exact h.unlinked x (List.mem_cons_of_mem id hx)

/-- Linking some streams leaves a list, unless the first is linked in front of an empty list. -/
theorem WellLinked.foldl_insert (h : s.WellLinked) (hq : s.Linkable q)
    (hfirst : s.outputStreams.first = none → q.head? ≠ some s.highPriorityStreamId) :
    (q.foldl OutputStreams.insertOutputStream s).WellLinked := by
  induction q generalizing s with
  | nil => exact h
  | cons id q ih =>
    have hid := hq.mem id List.mem_cons_self
    have hinsert := h.insertOutputStream hid (hq.unlinked id List.mem_cons_self)
      fun hnone heq => hfirst hnone (congrArg some heq)
    refine ih hinsert hq.tail fun hnone => absurd hnone ?_
    -- the list is not empty any more
    have hlinked := (@isOutputStream_insertOutputStream_iff s id id).mpr (.inr rfl)
    exact hinsert.first_ne_none (insertOutputStream_streams s id ▸ hid) hlinked

/-- **Linking streams.** For every sound list, and all streams that are not linked. -/
theorem foldl_insert_wellLinked_iff (h : s.WellLinked) (hq : s.Linkable q) :
    (q.foldl OutputStreams.insertOutputStream s).WellLinked ↔
      (s.outputStreams.first = none → q.head? ≠ some s.highPriorityStreamId) := by
  refine ⟨fun hafter hnone hhead => ?_, h.foldl_insert hq⟩
  obtain ⟨l, hl, hmem⟩ := h
  obtain rfl := hl.eq_nil hnone
  have hhigh : s.highPriorityStreamId ∈ q := List.mem_of_head? hhead
  obtain ⟨l', hl', hkeep, hlose⟩ := @foldl_insert_lists s q [] hl.lists hl.last_eq
    ⟨hq.nodup, hq.unlinked, fun _ _ => List.not_mem_nil⟩
  obtain ⟨l'', hl'', hmem''⟩ := hafter
  by_cases hall : ∀ x ∈ q, x = s.highPriorityStreamId
  · -- the list has a first stream, but no last one
    obtain ⟨t, rfl⟩ := List.head?_eq_some_iff.mp hhead
    obtain rfl : t = [] := by
      cases t with
      | nil => rfl
      | cons y t =>
        have hy := hall y (by simp)
        subst hy
        exact absurd List.mem_cons_self (List.nodup_cons.mp hq.nodup).1
    have hfront := insertOutputStream_front (hq.unlinked _ List.mem_cons_self) rfl
    have hlast := hl''.last_eq
    have hfirst := hl''.first_eq
    rw [List.foldl_cons, List.foldl_nil, hfront] at hlast hfirst
    rw [linkInFront_last, hl.last_eq, List.getLast?_nil] at hlast
    rw [List.getLast?_eq_none_iff.mp hlast.symm] at hfirst
    exact absurd hfirst (by simp [linkInFront])
  · -- the stream with priority is lost
    rw [not_forall] at hall
    obtain ⟨x, hx⟩ := hall
    have hlost := (hlose ⟨x, Classical.not_imp.mp hx⟩ s.highPriorityStreamId).mp
    have hin : s.highPriorityStreamId ∈ l'' := by
      rw [hmem'', foldl_insert_streams]
      exact ⟨hq.mem _ hhigh, isOutputStream_foldl_iff.mpr (.inr hhigh)⟩
    have hin' := hl'.reaches_iff.mp (hl''.lists.reaches_iff.mpr hin)
    exact (hlost hin').2 hhead rfl

theorem isOutputStream_removeOutputStream_self (s : OutputStreams) (id : ℕ) :
    (s.removeOutputStream id).isOutputStream id = false := by
  rw [removeOutputStream]
  split_ifs with h
  · exact Function.update_self ..
  · simpa using h

theorem isOutputStream_removeOutputStream_of_ne (s : OutputStreams) {id x : ℕ} (hne : x ≠ id) :
    (s.removeOutputStream id).isOutputStream x = s.isOutputStream x := by
  rw [removeOutputStream]
  split_ifs
  · exact Function.update_of_ne hne ..
  · rfl

theorem removeOutputStream_streams (s : OutputStreams) (id : ℕ) :
    (s.removeOutputStream id).streams = s.streams := by
  rw [removeOutputStream]
  split_ifs <;> rfl

/-- Unlinking a stream leaves a list. -/
theorem WellLinked.removeOutputStream (h : s.WellLinked) (hid : id ∈ s.streams) :
    (s.removeOutputStream id).WellLinked := by
  rw [OutputStreams.removeOutputStream]
  split_ifs with hlinked
  · obtain ⟨l, hl, hmem⟩ := h
    have hin : id ∈ l := (hmem id).mpr ⟨hid, hlinked⟩
    refine ⟨l.erase id, ?_, fun x => ?_⟩
    · dsimp only
      rw [unlink_eq (fun heq => (hl.mem_of_next hin heq).2 rfl)
        fun heq => (hl.mem_of_previous hin heq).2 rfl]
      exact hl.erase hin
    · rw [hl.nodup.mem_erase_iff, hmem]
      rcases eq_or_ne x id with rfl | hne
      · simp
      · simp [hne]
  · exact h

/-! ### The tree -/

theorem mem_addStream {id x : ℕ} : x ∈ (s.addStream id).streams ↔ x = id ∨ x ∈ s.streams := by
  rw [addStream]
  split_ifs with hmem
  · exact ⟨.inr, fun h => h.elim (fun heq => heq ▸ hmem) fun h => h⟩
  · exact List.mem_orderedInsert (· ≤ ·)

/-- A stream that is put into the tree is not linked. -/
theorem WellLinked.addStream (h : s.WellLinked) (hid : id ∉ s.streams) :
    (s.addStream id).WellLinked := by
  obtain ⟨l, hl, hmem⟩ := h
  have hlist : (s.addStream id).outputStreams = s.outputStreams := by
    rw [OutputStreams.addStream, dif_neg hid]
  refine ⟨l, hlist ▸ hl, fun x => ?_⟩
  rw [hmem, mem_addStream]
  rcases eq_or_ne x id with rfl | hne
  · simp [OutputStreams.addStream, hid]
  · simp [OutputStreams.addStream, hid, hne]

/-! ### New streams -/

theorem addStream_frame (s : OutputStreams) (id : ℕ) :
    (s.addStream id).outputStreams = s.outputStreams ∧
      (s.addStream id).clientMode = s.clientMode ∧
      (s.addStream id).maxStreamIdBidirRemote = s.maxStreamIdBidirRemote ∧
      (s.addStream id).maxStreamIdUnidirRemote = s.maxStreamIdUnidirRemote ∧
      (s.addStream id).highPriorityStreamId = s.highPriorityStreamId := by
  rw [addStream]
  split_ifs <;> exact ⟨rfl, rfl, rfl, rfl, rfl⟩

theorem isOutputStream_addStream_of_ne (s : OutputStreams) {id x : ℕ} (hne : x ≠ id) :
    (s.addStream id).isOutputStream x = s.isOutputStream x := by
  rw [addStream]
  split_ifs
  · rfl
  · exact Function.update_of_ne hne ..

theorem addStream_insertOutputStream {id x : ℕ} (hne : id ≠ x) :
    (s.insertOutputStream id).addStream x = (s.addStream x).insertOutputStream id := by
  by_cases hx : x ∈ s.streams <;> cases hlinked : s.isOutputStream id <;>
    simp [insertOutputStream, addStream, hx, hlinked, hne, Function.update_comm hne.symm]

theorem foldl_addStream_insertOutputStream (hid : id ∉ q) :
    q.foldl OutputStreams.addStream (s.insertOutputStream id) =
      (q.foldl OutputStreams.addStream s).insertOutputStream id := by
  induction q generalizing s with
  | nil => rfl
  | cons x q ih =>
    obtain ⟨hx, hq⟩ := not_or.mp (mt List.mem_cons.mpr hid)
    rw [List.foldl_cons, List.foldl_cons, addStream_insertOutputStream hx, ih hq]

/-- **New streams** are in the tree, and not in the list. -/
theorem WellLinked.foldl_addStream (h : s.WellLinked) (hq : q.Nodup)
    (hnew : ∀ id ∈ q, id ∉ s.streams) :
    (q.foldl OutputStreams.addStream s).WellLinked ∧
      (q.foldl OutputStreams.addStream s).outputStreams = s.outputStreams ∧
      (q.foldl OutputStreams.addStream s).highPriorityStreamId = s.highPriorityStreamId ∧
      (∀ id, id ∈ q ∨ id ∈ s.streams → id ∈ (q.foldl OutputStreams.addStream s).streams) ∧
      ∀ id, id ∈ q ∨ s.isOutputStream id = false →
        (q.foldl OutputStreams.addStream s).isOutputStream id = false := by
  induction q generalizing s with
  | nil => simpa using h
  | cons x q ih =>
    obtain ⟨hx, hq⟩ := List.nodup_cons.mp hq
    have hxs := hnew x List.mem_cons_self
    have hnew' : ∀ id ∈ q, id ∉ (s.addStream x).streams := by
      intro id hid hin
      rcases mem_addStream.mp hin with rfl | hin
      · exact hx hid
      · exact hnew id (List.mem_cons_of_mem x hid) hin
    obtain ⟨hlist, -, -, -, hhigh⟩ := s.addStream_frame x
    obtain ⟨hw, hlist', hhigh', hmem, hflag⟩ := ih (h.addStream hxs) hq hnew'
    refine ⟨hw, hlist'.trans hlist, hhigh'.trans hhigh, fun id hid => hmem id ?_,
      fun id hid => hflag id ?_⟩
    · rw [mem_addStream]
      rw [List.mem_cons] at hid
      tauto
    · rcases eq_or_ne id x with rfl | hne
      · right
        simp [OutputStreams.addStream, hxs]
      · rw [isOutputStream_addStream_of_ne _ hne]
        simpa [hne] using hid

end OutputStreams

end Picoquic
