import Picoquic.Stream.OutputStreams

/-!
# Unblocking streams

When the peer raises its limit, the local streams that waited are to be found in the list of the
output streams afterwards. The streams are looked for from the first new identifier on, which has
to exist, and the list of output streams has to have its end where the pointer says.

* **`addOutputStreams_eq`** — the streams that are linked, one after another;
* **`foldl_insert_lists`**, **`foldl_insert_lists_of_last`** — the list afterwards;
* **`unblocks_iff`** — exactly when all streams that waited are in the list.
-/

namespace Picoquic

namespace OutputStreams

open LinkedList

/-! ### The streams in question -/

variable {s : OutputStreams} {oldLimit newLimit : ℕ} {isBidir : Bool}

/-- An existing local stream of one direction between two limits. -/
structure Allowed (s : OutputStreams) (oldLimit newLimit : ℕ) (isBidir : Bool) (streamId : ℕ) :
    Prop where
  exists_stream : streamId ∈ s.streams
  above : oldLimit < streamId
  le_limit : streamId ≤ newLimit
  isLocal : isLocalStreamId streamId s.clientMode = true
  direction : isBidirStreamId streamId = isBidir

/-- Such a stream that was never linked. -/
def Waits (s : OutputStreams) (oldLimit newLimit : ℕ) (isBidir : Bool) (streamId : ℕ) : Prop :=
  s.Allowed oldLimit newLimit isBidir streamId ∧ s.isOutputStream streamId = false

/-- The test of the loop. -/
def isNew (s : OutputStreams) (oldLimit newLimit : ℕ) (isBidir : Bool) (streamId : ℕ) : Bool :=
  decide (oldLimit < streamId) && decide (streamId ≤ newLimit) &&
    (isLocalStreamId streamId s.clientMode && isBidirStreamId streamId == isBidir) &&
    !s.isOutputStream streamId

theorem waits_iff {streamId : ℕ} : s.Waits oldLimit newLimit isBidir streamId ↔
    streamId ∈ s.streams ∧ s.isNew oldLimit newLimit isBidir streamId = true := by
  simp only [Waits, isNew, Bool.and_eq_true, decide_eq_true_eq, beq_iff_eq, Bool.not_eq_true']
  constructor
  · rintro ⟨⟨h1, h2, h3, h4, h5⟩, h6⟩
    exact ⟨h1, ⟨⟨h2, h3⟩, h4, h5⟩, h6⟩
  · rintro ⟨h1, ⟨⟨h2, h3⟩, h4, h5⟩, h6⟩
    exact ⟨⟨h1, h2, h3, h4, h5⟩, h6⟩

/-! ### The loop -/

theorem insertOutputStream_of_linked {streamId : ℕ} (h : s.isOutputStream streamId = true) :
    s.insertOutputStream streamId = s := if_pos h

theorem isNew_insertOutputStream {streamId id : ℕ} (hne : id ≠ streamId) :
    (s.insertOutputStream streamId).isNew oldLimit newLimit isBidir id =
      s.isNew oldLimit newLimit isBidir id := by
  rw [insertOutputStream]
  split_ifs
  · rfl
  all_goals simp only [isNew, Function.update_of_ne hne]

variable {l : List ℕ} {id : ℕ} {L : LinkedList ℕ}

/-- The loop links the new streams, one after another. -/
theorem addLoop_eq (hl : l.Pairwise (· < ·)) :
    addLoop oldLimit newLimit isBidir s l =
      (l.filter (s.isNew oldLimit newLimit isBidir)).foldl insertOutputStream s := by
  induction l generalizing s with
  | nil => rfl
  | cons id next ih =>
    obtain ⟨hid, hnext⟩ := List.pairwise_cons.mp hl
    have hfilter : ∀ t : OutputStreams, t.isNew oldLimit newLimit isBidir id = false →
        (id :: next).filter (t.isNew oldLimit newLimit isBidir) =
          next.filter (t.isNew oldLimit newLimit isBidir) :=
      fun t h => List.filter_cons_of_neg (by rw [h]; decide)
    rw [addLoop]
    split_ifs with hold hnew hlocal
    · -- the loop stops at the new limit: no identifier behind it is allowed
      have hnone : (id :: next).filter (s.isNew oldLimit newLimit isBidir) = [] := by
        refine List.filter_eq_nil_iff.mpr fun y hy => ?_
        have hle : id ≤ y := by
          rcases List.mem_cons.mp hy with rfl | hy
          · exact Nat.le_refl _
          · exact (hid y hy).le
        simp [isNew, show ¬ y ≤ newLimit by omega]
      rw [hnone]
      rfl
    · by_cases hlinked : s.isOutputStream id = true
      · rw [insertOutputStream_of_linked hlinked, ih hnext,
          hfilter s (by simp [isNew, hlinked])]
      · have hpos : s.isNew oldLimit newLimit isBidir id = true := by
          simp only [isNew, hold, hlocal, decide_true, Bool.true_and, Bool.and_true]
          simpa using ⟨not_lt.mp hnew, Bool.eq_false_iff.mpr hlinked⟩
        rw [List.filter_cons_of_pos hpos, List.foldl_cons, ih hnext]
        refine congrArg (List.foldl _ _) (List.filter_congr fun y hy => ?_)
        exact isNew_insertOutputStream (hid y hy).ne'
    · rw [ih hnext, hfilter s (by simp [isNew, hlocal])]
    · rw [ih hnext, hfilter s (by simp [isNew, hold])]

/-- What is behind the first new identifier. -/
theorem mem_dropWhile_iff (hl : l.Pairwise (· < ·)) {f x : ℕ} :
    x ∈ l.dropWhile (· ≠ f) ↔ f ∈ l ∧ f ≤ x ∧ x ∈ l := by
  induction l with
  | nil => simp
  | cons y l ih =>
    obtain ⟨hy, hl⟩ := List.pairwise_cons.mp hl
    by_cases hyf : y = f
    · subst hyf
      rw [List.dropWhile_cons_of_neg (by simp)]
      refine ⟨fun hx => ⟨List.mem_cons_self, ?_, hx⟩, fun h => h.2.2⟩
      rcases List.mem_cons.mp hx with rfl | hx
      · exact Nat.le_refl _
      · exact (hy x hx).le
    · rw [List.dropWhile_cons_of_pos (by simpa using hyf), ih hl, List.mem_cons, List.mem_cons]
      constructor
      · rintro ⟨hf, hle, hx⟩
        exact ⟨.inr hf, hle, .inr hx⟩
      · rintro ⟨hf | hf, hle, hx | hx⟩
        · exact absurd hf.symm hyf
        · exact absurd hf.symm hyf
        · exact absurd (hy f hf) (by omega)
        · exact ⟨hf, hle, hx⟩

/-- The streams that are linked. -/
def newStreams (s : OutputStreams) (oldLimit newLimit : ℕ) (isBidir : Bool) : List ℕ :=
  (s.streams.dropWhile (· ≠ s.firstNewId oldLimit isBidir)).filter
    (s.isNew oldLimit newLimit isBidir)

theorem addOutputStreams_eq : s.addOutputStreams oldLimit newLimit isBidir =
    (s.newStreams oldLimit newLimit isBidir).foldl insertOutputStream s :=
  addLoop_eq (s.sorted.sublist (List.dropWhile_sublist _))

theorem mem_newStreams : id ∈ s.newStreams oldLimit newLimit isBidir ↔
    s.Waits oldLimit newLimit isBidir id ∧ s.firstNewId oldLimit isBidir ∈ s.streams ∧
      s.firstNewId oldLimit isBidir ≤ id := by
  rw [newStreams, List.mem_filter, mem_dropWhile_iff s.sorted, waits_iff]
  constructor
  · rintro ⟨⟨hf, hle, hid⟩, hnew⟩
    exact ⟨⟨hid, hnew⟩, hf, hle⟩
  · rintro ⟨⟨hid, hnew⟩, hf, hle⟩
    exact ⟨⟨hf, hle, hid⟩, hnew⟩

theorem newStreams_sorted : (s.newStreams oldLimit newLimit isBidir).Pairwise (· < ·) :=
  (s.sorted.sublist (List.dropWhile_sublist _)).sublist List.filter_sublist

/-! ### Linking -/

theorem linkInFront_last (L : LinkedList ℕ) (x : ℕ) : (linkInFront L x).last = L.last := by
  rw [linkInFront]
  cases L.first <;> rfl

theorem linkInFront_lists (h : L.Lists l) {x : ℕ} (hx : x ∉ l) :
    (linkInFront L x).Lists (x :: l) := by
  have hnext : (linkInFront L x).next = Function.update L.next x L.first := by
    rw [linkInFront]
    cases L.first <;> rfl
  refine ⟨rfl, ?_, h.follows.congr fun y hy => ?_⟩
  · rw [hnext, Function.update_self, h.first_eq]
  · rw [hnext, Function.update_of_ne (ne_of_mem_of_not_mem hy hx)]

theorem linkAtEnd_lists_none (hlast : L.last = none) (x : ℕ) :
    (linkAtEnd L x).Lists [x] ∧ (linkAtEnd L x).last = some x := by
  have heq : linkAtEnd L x =
      { (L.setPrevious (some x) none).setNext (some x) none with
        first := some x, last := some x } := by
    rw [linkAtEnd, hlast]
  rw [heq]
  exact ⟨⟨rfl, Function.update_self _ _ _, trivial⟩, rfl⟩

theorem linkAtEnd_lists (h : L.Lists l) (hl : l.Nodup) {x y : ℕ} (hx : x ∉ l)
    (hlast : L.last = some y) (hy : l.getLast? = some y) :
    (linkAtEnd L x).Lists (l ++ [x]) ∧ (linkAtEnd L x).last = some x := by
  have hyx : x ≠ y := fun heq => hx (heq ▸ List.mem_of_getLast? hy)
  have heq : linkAtEnd L x =
      { ((L.setPrevious (some x) (some y)).setNext (some x) none).setNext (some y) (some x) with
        last := some x } := by
    rw [linkAtEnd, hlast]
  have hnext : (linkAtEnd L x).next =
      Function.update (Function.update L.next x none) y (some x) := by
    rw [heq]
    rfl
  have hfirst : (linkAtEnd L x).first = L.first := by
    rw [heq]
    rfl
  refine ⟨⟨?_, h.follows.concat hl (fun z hz => ?_) (fun z hz hne => ?_) ?_⟩, by rw [heq]⟩
  · rw [hfirst, h.first_eq, List.head?_append]
    cases l with
    | nil => exact absurd hy (by simp)
    | cons => rfl
  · obtain rfl : y = z := Option.some.inj (hy.symm.trans hz)
    rw [hnext, Function.update_self]
  · have hzy : z ≠ y := fun heq => hne (heq ▸ hy)
    rw [hnext, Function.update_of_ne hzy, Function.update_of_ne (ne_of_mem_of_not_mem hz hx)]
  · rw [hnext, Function.update_of_ne hyx, Function.update_self]

theorem insertOutputStream_front (h : s.isOutputStream id = false)
    (hid : id = s.highPriorityStreamId) :
    (s.insertOutputStream id).outputStreams = linkInFront s.outputStreams id := by
  rw [insertOutputStream, if_neg (by rw [h]; decide)]
  exact if_pos hid

theorem insertOutputStream_end (h : s.isOutputStream id = false)
    (hid : id ≠ s.highPriorityStreamId) :
    (s.insertOutputStream id).outputStreams = linkAtEnd s.outputStreams id := by
  rw [insertOutputStream, if_neg (by rw [h]; decide)]
  exact if_neg hid

theorem isOutputStream_insertOutputStream {streamId id : ℕ} (hne : id ≠ streamId) :
    (s.insertOutputStream streamId).isOutputStream id = s.isOutputStream id := by
  rw [insertOutputStream]
  split_ifs
  · rfl
  all_goals exact Function.update_of_ne hne _ _

/-- The streams of `q` were not linked, and none of them is in the list `l`. -/
structure Fresh (s : OutputStreams) (l q : List ℕ) : Prop where
  nodup : q.Nodup
  unlinked : ∀ id ∈ q, s.isOutputStream id = false
  notMem : ∀ id ∈ q, id ∉ l

theorem Fresh.tail {l l' q : List ℕ} (h : s.Fresh l (id :: q)) (hl' : ∀ x ∈ l', x = id ∨ x ∈ l) :
    (s.insertOutputStream id).Fresh l' q := by
  obtain ⟨hid, hq⟩ := List.nodup_cons.mp h.nodup
  refine ⟨hq, fun x hx => ?_, fun x hx hmem => ?_⟩
  · rw [isOutputStream_insertOutputStream (ne_of_mem_of_not_mem hx hid)]
    exact h.unlinked x (List.mem_cons_of_mem id hx)
  · rcases hl' x hmem with rfl | hl
    · exact hid hx
    · exact h.notMem x (List.mem_cons_of_mem id hx) hl

/-- A list with a known end takes all streams. -/
theorem foldl_insert_lists_of_last {q l : List ℕ} {y : ℕ} (h : s.outputStreams.Lists l)
    (hl : l.Nodup) (hlast : s.outputStreams.last = some y) (hy : l.getLast? = some y)
    (hq : s.Fresh l q) :
    ∃ l', (q.foldl insertOutputStream s).outputStreams.Lists l' ∧
      ∀ x, x ∈ l' ↔ x ∈ l ∨ x ∈ q := by
  induction q generalizing s l y with
  | nil => exact ⟨l, h, fun x => by simp⟩
  | cons id q ih =>
    have hid := hq.notMem id List.mem_cons_self
    have hunlinked := hq.unlinked id List.mem_cons_self
    rw [List.foldl_cons]
    by_cases hhigh : id = s.highPriorityStreamId
    · have hlist := insertOutputStream_front hunlinked hhigh
      obtain ⟨l', hl', hmem⟩ := @ih (s.insertOutputStream id) (id :: l) y
        (hlist ▸ linkInFront_lists h hid) (List.nodup_cons.mpr ⟨hid, hl⟩)
        (hlist ▸ (linkInFront_last _ _).trans hlast)
        (by rw [List.getLast?_cons, hy]; rfl)
        (hq.tail fun x hx => List.mem_cons.mp hx)
      refine ⟨l', hl', fun x => ?_⟩
      rw [hmem, List.mem_cons, List.mem_cons]
      tauto
    · have hlist := insertOutputStream_end hunlinked hhigh
      obtain ⟨hlists, hend⟩ := linkAtEnd_lists h hl hid hlast hy
      obtain ⟨l', hl', hmem⟩ := @ih (s.insertOutputStream id) (l ++ [id]) id
        (hlist ▸ hlists) (List.nodup_append_comm.mp (List.nodup_cons.mpr ⟨hid, hl⟩)) (hlist ▸ hend)
        (by simp)
        (hq.tail fun x hx => by
          rw [List.mem_append, List.mem_singleton] at hx
          exact hx.symm)
      refine ⟨l', hl', fun x => ?_⟩
      rw [hmem, List.mem_append, List.mem_singleton, List.mem_cons]
      tauto

/-- A list without an end is replaced by the first stream that is put at its end. -/
theorem foldl_insert_lists_cons {q l : List ℕ} (hlast : s.outputStreams.last = none)
    (hid : id ≠ s.highPriorityStreamId) (hq : s.Fresh l (id :: q)) :
    ∃ l', ((id :: q).foldl insertOutputStream s).outputStreams.Lists l' ∧
      ∀ x, x ∈ l' ↔ x ∈ id :: q := by
  have hlist := insertOutputStream_end (hq.unlinked id List.mem_cons_self) hid
  obtain ⟨hlists, hend⟩ := linkAtEnd_lists_none hlast id
  obtain ⟨l', hl', hmem⟩ := @foldl_insert_lists_of_last (s.insertOutputStream id) q [id] id
    (hlist ▸ hlists) (List.nodup_singleton id) (hlist ▸ hend) rfl
    (hq.tail fun x hx => .inl (List.mem_singleton.mp hx))
  refine ⟨l', hl', fun x => ?_⟩
  rw [hmem, List.mem_singleton, List.mem_cons]

/-- A list without an end takes one stream in front; all that is in the list then is lost if another
stream follows. -/
theorem foldl_insert_lists {q l : List ℕ} (h : s.outputStreams.Lists l)
    (hlast : s.outputStreams.last = none) (hq : s.Fresh l q) :
    ∃ l', (q.foldl insertOutputStream s).outputStreams.Lists l' ∧
      ((∀ x ∈ q, x = s.highPriorityStreamId) → ∀ x, x ∈ l' ↔ x ∈ l ∨ x ∈ q) ∧
      ((∃ x ∈ q, x ≠ s.highPriorityStreamId) → ∀ x, x ∈ l' ↔
        x ∈ q ∧ (q.head? = some s.highPriorityStreamId → x ≠ s.highPriorityStreamId)) := by
  cases q with
  | nil => exact ⟨l, h, fun _ x => by simp, fun hx => absurd hx (by simp)⟩
  | cons id q =>
    by_cases hhigh : id = s.highPriorityStreamId
    · have hlist := insertOutputStream_front (hq.unlinked id List.mem_cons_self) hhigh
      have htail : (s.insertOutputStream id).Fresh (id :: l) q :=
        hq.tail fun x hx => List.mem_cons.mp hx
      obtain ⟨hidq, hqnodup⟩ := List.nodup_cons.mp hq.nodup
      cases q with
      | nil =>
        refine ⟨id :: l, hlist ▸ linkInFront_lists h (hq.notMem id List.mem_cons_self),
          fun _ x => ?_, fun hx => absurd hx (by simpa using hhigh)⟩
        rw [List.mem_cons, List.mem_singleton, or_comm]
      | cons y q =>
        -- the stream behind the one in front becomes the whole list
        have hy : y ≠ id := fun heq => hidq (heq ▸ List.mem_cons_self)
        obtain ⟨l', hl', hmem⟩ := @foldl_insert_lists_cons (s.insertOutputStream id) y q (id :: l)
          (hlist ▸ (linkInFront_last _ _).trans hlast)
          (by rwa [(s.insertOutputStream_frame id).2.2.2, ← hhigh]) htail
        refine ⟨l', hl', fun hall => ?_, fun _ x => ?_⟩
        · exact absurd ((hall y (by simp)).trans hhigh.symm) hy
        · rw [hmem, ← hhigh, List.mem_cons (a := x) (b := id)]
          constructor
          · intro hx
            exact ⟨.inr hx, fun _ => ne_of_mem_of_not_mem hx hidq⟩
          · rintro ⟨rfl | hx, hne⟩
            · exact absurd rfl (hne rfl)
            · exact hx
    · obtain ⟨l', hl', hmem⟩ := foldl_insert_lists_cons hlast hhigh hq
      refine ⟨l', hl', fun hall => absurd (hall id List.mem_cons_self) hhigh, fun _ x => ?_⟩
      rw [hmem, iff_self_and]
      exact fun _ hhead => absurd (Option.some.inj hhead) hhigh

/-! ### Unblocking -/

/-- The output list can be read, and has its end where the pointer says, if there is one. -/
structure Listed (s : OutputStreams) (l : List ℕ) : Prop where
  lists : s.outputStreams.Lists l
  nodup : l.Nodup
  linked : ∀ id ∈ l, s.isOutputStream id = true
  last_eq : s.outputStreams.last = l.getLast? ∨ s.outputStreams.last = none

/-- After the limit was raised, all streams that it allows now are in the list. -/
def Unblocks (s : OutputStreams) (oldLimit newLimit : ℕ) (isBidir : Bool) : Prop :=
  ∀ id, s.Allowed oldLimit newLimit isBidir id →
    (s.addOutputStreams oldLimit newLimit isBidir).outputStreams.Reaches id

/-- When this is so. -/
structure CanUnblock (s : OutputStreams) (oldLimit newLimit : ℕ) (isBidir : Bool) : Prop where
  /-- The streams that count as linked are in the list. -/
  linked : ∀ id, s.Allowed oldLimit newLimit isBidir id → s.isOutputStream id = true →
    s.outputStreams.Reaches id
  /-- The stream that is looked up exists, and no stream that waits is before it. -/
  found : ∀ id, s.Waits oldLimit newLimit isBidir id →
    s.firstNewId oldLimit isBidir ∈ s.streams ∧ s.firstNewId oldLimit isBidir ≤ id
  /-- If the list has no end and a stream is linked that has no priority, no other of these streams
  is in the list, and the one with priority does not come first. -/
  atEnd : s.outputStreams.last = none →
    (∃ id, s.Waits oldLimit newLimit isBidir id ∧ id ≠ s.highPriorityStreamId) →
      (∀ id, s.Allowed oldLimit newLimit isBidir id → s.isOutputStream id = false) ∧
        (s.Waits oldLimit newLimit isBidir s.highPriorityStreamId →
          ∃ id < s.highPriorityStreamId, s.Waits oldLimit newLimit isBidir id)

theorem Listed.fresh (h : s.Listed l) : s.Fresh l (s.newStreams oldLimit newLimit isBidir) where
  nodup := newStreams_sorted.imp Nat.ne_of_lt
  unlinked := fun _ hid => (mem_newStreams.mp hid).1.2
  notMem := fun id hid hl => by
    have hlinked := h.linked id hl
    rw [(mem_newStreams.mp hid).1.2] at hlinked
    exact Bool.false_ne_true hlinked

/-- The list after the limit was raised. -/
theorem Listed.addOutputStreams (h : s.Listed l) (oldLimit newLimit : ℕ) (isBidir : Bool) :
    ∃ l', (s.addOutputStreams oldLimit newLimit isBidir).outputStreams.Lists l' ∧
      (s.outputStreams.last ≠ none ∨
          (∀ x ∈ s.newStreams oldLimit newLimit isBidir, x = s.highPriorityStreamId) →
        ∀ x, x ∈ l' ↔ x ∈ l ∨ x ∈ s.newStreams oldLimit newLimit isBidir) ∧
      (s.outputStreams.last = none →
        (∃ x ∈ s.newStreams oldLimit newLimit isBidir, x ≠ s.highPriorityStreamId) →
        ∀ x, x ∈ l' ↔ x ∈ s.newStreams oldLimit newLimit isBidir ∧
          ((s.newStreams oldLimit newLimit isBidir).head? = some s.highPriorityStreamId →
            x ≠ s.highPriorityStreamId)) := by
  rw [addOutputStreams_eq]
  cases hlast : s.outputStreams.last with
  | none =>
    obtain ⟨l', hl', hkeep, hlose⟩ :=
      foldl_insert_lists h.lists hlast (@h.fresh s oldLimit newLimit isBidir l)
    exact ⟨l', hl', fun hall => hkeep (hall.resolve_left fun hne => hne rfl), fun _ => hlose⟩
  | some y =>
    have hy : l.getLast? = some y := by
      rcases h.last_eq with heq | heq
      · exact heq.symm.trans hlast
      · exact absurd (heq.symm.trans hlast) (by simp)
    obtain ⟨l', hl', hmem⟩ := foldl_insert_lists_of_last h.lists h.nodup hlast hy h.fresh
    exact ⟨l', hl', fun _ => hmem, fun hnone => absurd hnone (by simp)⟩

theorem exists_ne_of_lost {q : List ℕ}
    (h : ¬ (s.outputStreams.last ≠ none ∨ ∀ x ∈ q, x = s.highPriorityStreamId)) :
    s.outputStreams.last = none ∧ ∃ x ∈ q, x ≠ s.highPriorityStreamId := by
  rw [not_or, not_not, not_forall] at h
  obtain ⟨hlast, x, hx⟩ := h
  exact ⟨hlast, x, Classical.not_imp.mp hx⟩

/-- The condition is needed. -/
theorem Listed.canUnblock (h : s.Listed l) (hall : s.Unblocks oldLimit newLimit isBidir) :
    s.CanUnblock oldLimit newLimit isBidir := by
  obtain ⟨l', hl', hkeep, hlose⟩ := h.addOutputStreams oldLimit newLimit isBidir
  have hsorted := @newStreams_sorted s oldLimit newLimit isBidir
  have hnew := fun id => @mem_newStreams s oldLimit newLimit isBidir id
  set q := s.newStreams oldLimit newLimit isBidir
  have hafter : ∀ id, s.Allowed oldLimit newLimit isBidir id → id ∈ l' :=
    fun id hid => hl'.reaches_iff.mp (hall id hid)
  have hsub : ∀ id ∈ l', id ∈ l ∨ id ∈ q := by
    intro id hid
    by_cases hcase : s.outputStreams.last ≠ none ∨ ∀ x ∈ q, x = s.highPriorityStreamId
    · exact (hkeep hcase id).mp hid
    · obtain ⟨hlast, hother⟩ := exists_ne_of_lost hcase
      exact .inr ((hlose hlast hother id).mp hid).1
  have hwaits : ∀ id, s.Waits oldLimit newLimit isBidir id → id ∈ q := by
    intro id hid
    refine (hsub id (hafter id hid.1)).resolve_left fun hl => ?_
    exact Bool.false_ne_true (hid.2.symm.trans (h.linked id hl))
  refine ⟨fun id hid hflag => ?_, fun id hid => ((hnew id).mp (hwaits id hid)).2,
    fun hlast hother => ?_⟩
  · rcases hsub id (hafter id hid) with hl | hq
    · exact h.lists.reaches_iff.mpr hl
    · exact absurd (((hnew id).mp hq).1.2.symm.trans hflag) Bool.false_ne_true
  · obtain ⟨x, hx, hne⟩ := hother
    have hmem := hlose hlast ⟨x, hwaits x hx, hne⟩
    refine ⟨fun id hid => ((hnew id).mp ((hmem id).mp (hafter id hid)).1).1.2, fun hhigh => ?_⟩
    -- the stream with priority is linked behind another one
    obtain ⟨hq, hhead⟩ := (hmem _).mp (hafter _ hhigh.1)
    obtain ⟨y, q', hcons⟩ := List.exists_cons_of_ne_nil (List.ne_nil_of_mem hq)
    have hy : y ∈ q := by rw [hcons]; exact List.mem_cons_self
    rw [hcons] at hq hhead hsorted
    have hfirst : s.highPriorityStreamId ≠ y := fun heq => hhead (congrArg some heq.symm) rfl
    have htail := (List.mem_cons.mp hq).resolve_left hfirst
    exact ⟨y, (List.pairwise_cons.mp hsorted).1 _ htail, ((hnew y).mp hy).1⟩

/-- The condition is enough. -/
theorem Listed.unblocks (h : s.Listed l) (hcan : s.CanUnblock oldLimit newLimit isBidir) :
    s.Unblocks oldLimit newLimit isBidir := by
  obtain ⟨l', hl', hkeep, hlose⟩ := h.addOutputStreams oldLimit newLimit isBidir
  have hsorted := @newStreams_sorted s oldLimit newLimit isBidir
  have hnew := fun id => @mem_newStreams s oldLimit newLimit isBidir id
  set q := s.newStreams oldLimit newLimit isBidir
  have hwaits : ∀ id, s.Waits oldLimit newLimit isBidir id → id ∈ q :=
    fun id hid => (hnew id).mpr ⟨hid, hcan.found id hid⟩
  intro id hid
  refine hl'.reaches_iff.mpr ?_
  by_cases hcase : s.outputStreams.last ≠ none ∨ ∀ x ∈ q, x = s.highPriorityStreamId
  · refine (hkeep hcase id).mpr ?_
    cases hflag : s.isOutputStream id with
    | false => exact .inr (hwaits id ⟨hid, hflag⟩)
    | true => exact .inl (h.lists.reaches_iff.mp (hcan.linked id hid hflag))
  · obtain ⟨hlast, x, hxq, hne⟩ := exists_ne_of_lost hcase
    obtain ⟨hflags, hhigh⟩ := hcan.atEnd hlast ⟨x, ((hnew x).mp hxq).1, hne⟩
    refine (hlose hlast ⟨x, hxq, hne⟩ id).mpr
      ⟨hwaits id ⟨hid, hflags id hid⟩, fun hhead _ => ?_⟩
    -- the stream with priority would be the first one
    obtain ⟨y, hlt, hy⟩ := hhigh ((hnew _).mp (List.mem_of_head? hhead)).1
    have hyq := hwaits y hy
    obtain ⟨q', hcons⟩ := List.head?_eq_some_iff.mp hhead
    rw [hcons] at hyq hsorted
    rcases List.mem_cons.mp hyq with heq | htail
    · exact absurd heq hlt.ne
    · exact absurd ((List.pairwise_cons.mp hsorted).1 y htail) (by omega)

/-- **Unblocking.** For client and server, both directions, all streams and all limits. -/
theorem unblocks_iff {l : List ℕ} (h : s.Listed l) (oldLimit newLimit : ℕ) (isBidir : Bool) :
    s.Unblocks oldLimit newLimit isBidir ↔ s.CanUnblock oldLimit newLimit isBidir :=
  ⟨h.canUnblock, h.unblocks⟩

/-- A client with the streams `0`, `4` and `8`, of which the first is linked. -/
def waitingClient : OutputStreams where
  clientMode := true
  streams := [0, 4, 8]
  sorted := by decide
  isOutputStream := fun id => decide (id = 0)
  outputStreams := ⟨some 0, some 0, fun _ => none, fun _ => none⟩
  highPriorityStreamId := 2 ^ 64 - 1
  maxStreamIdBidirRemote := 0
  maxStreamIdUnidirRemote := 0
  streamBlockedBidirSent := false
  streamBlockedUnidirSent := false

theorem listed_waitingClient : waitingClient.Listed [0] where
  lists := ⟨rfl, rfl, trivial⟩
  nodup := List.nodup_singleton 0
  linked := fun _ hid => decide_eq_true (List.mem_singleton.mp hid)
  last_eq := .inl rfl

/-- Both streams of a client that wait are linked. -/
theorem unblocks_waitingClient : waitingClient.Unblocks 0 8 true :=
  (unblocks_iff listed_waitingClient 0 8 true).mpr
    { linked := fun _ hid hflag => absurd hid.above (by rw [of_decide_eq_true hflag]; decide)
      found := fun id hid => by
        have hmem : id ∈ [0, 4, 8] := hid.1.exists_stream
        have habove : 0 < id := hid.1.above
        refine ⟨by decide, show 4 ≤ id from ?_⟩
        simp only [List.mem_cons, List.not_mem_nil, or_false] at hmem
        omega
      atEnd := fun hlast => absurd hlast (by decide) }

/-- The stream of a server waits after the first stream was allowed: a later one is looked up. -/
theorem stream_one_stays_blocked : ¬ waitingServer.Unblocks 0 1 true := by
  intro h
  have hallowed : waitingServer.Allowed 0 1 true 1 :=
    ⟨List.mem_singleton_self 1, by decide, by decide, by decide, by decide⟩
  have hlists : (waitingServer.addOutputStreams 0 1 true).outputStreams.Lists [] := ⟨rfl, trivial⟩
  exact absurd (hlists.reaches_iff.mp (h 1 hallowed)) List.not_mem_nil

end OutputStreams

end Picoquic
