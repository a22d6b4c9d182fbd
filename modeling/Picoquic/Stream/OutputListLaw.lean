import Picoquic.Stream.OutputLinks

/-!
# The list of output streams over a run

What happens to a stream that exists leaves the list as it is, apart from the streams that the
sender unlinks. A stream that is linked is not closed, so that it is not deleted, unless it was
linked again after it was closed.

* **`Numbered.createStreams_output`** — creating streams is putting them into the tree, and linking
  them;
* **`findReadyLoop_keeps`** — the walk along the list;
* **`Numbered.step`** — what an event keeps;
* **`outputList_wellLinked`** — the runs in which the list is sound.
-/

namespace Picoquic

open LinkedList Runs OutputStreams

namespace OutputCnx

/-! ### What links and unlinks nothing -/

variable {c c' : OutputCnx} {id : ℕ}

theorem heads_setHead_self (c : OutputCnx) (id : ℕ) (s : OutputHead) :
    (c.setHead id s).heads id = s := Function.update_self ..

theorem heads_setHead_of_ne (c : OutputCnx) {id x : ℕ} (hne : x ≠ id) (s : OutputHead) :
    (c.setHead id s).heads x = c.heads x := Function.update_of_ne hne ..

/-- The streams that are linked are open, and the next identifiers are new. -/
structure Numbered (c : OutputCnx) : Prop where
  opened : ∀ id ∈ c.output.streams, c.output.isOutputStream id = true →
    (c.heads id).isClosed = false
  fresh : ∀ id ∈ c.output.streams, id < c.nextStreamId (streamTypeFromId id)
  type : ∀ t < 4, c.nextStreamId t % 4 = t

/-- Nothing is linked or unlinked, and only streams that are not linked are closed and deleted. -/
structure Quiet (c c' : OutputCnx) : Prop where
  outputStreams_eq : c'.output.outputStreams = c.output.outputStreams
  isOutputStream_eq : c'.output.isOutputStream = c.output.isOutputStream
  mem_of_mem : ∀ id ∈ c'.output.streams, id ∈ c.output.streams
  mem_of_linked : ∀ id ∈ c.output.streams, c.output.isOutputStream id = true →
    id ∈ c'.output.streams
  isClosed_eq : ∀ id, c.output.isOutputStream id = true →
    (c'.heads id).isClosed = (c.heads id).isClosed
  nextStreamId_eq : c'.nextStreamId = c.nextStreamId

namespace Quiet

theorem refl (c : OutputCnx) : c.Quiet c :=
  ⟨rfl, rfl, fun _ h => h, fun _ h _ => h, fun _ _ => rfl, rfl⟩

theorem numbered (h : c.Quiet c') (hc : c.Numbered) : c'.Numbered := by
  refine ⟨fun id hid hlinked => ?_, fun id hid => ?_, ?_⟩
  · rw [h.isOutputStream_eq] at hlinked
    rw [h.isClosed_eq id hlinked]
    exact hc.opened id (h.mem_of_mem id hid) hlinked
  · rw [h.nextStreamId_eq]
    exact hc.fresh id (h.mem_of_mem id hid)
  · rw [h.nextStreamId_eq]
    exact hc.type

theorem wellLinked_iff (h : c.Quiet c') : c'.output.WellLinked ↔ c.output.WellLinked := by
  have hmem (id : ℕ) : (id ∈ c'.output.streams ∧ c'.output.isOutputStream id = true) ↔
      id ∈ c.output.streams ∧ c.output.isOutputStream id = true := by
    rw [h.isOutputStream_eq]
    exact ⟨fun ⟨hid, hlinked⟩ => ⟨h.mem_of_mem id hid, hlinked⟩,
      fun ⟨hid, hlinked⟩ => ⟨h.mem_of_linked id hid hlinked, hlinked⟩⟩
  simp only [OutputStreams.WellLinked, h.outputStreams_eq, hmem]

variable {s : OutputHead} {isBidir : Bool}

theorem setHead (hs : s.isClosed = (c.heads id).isClosed) : c.Quiet (c.setHead id s) := by
  refine ⟨rfl, rfl, fun _ h => h, fun _ h _ => h, fun x _ => ?_, rfl⟩
  rcases eq_or_ne x id with rfl | hne
  · rw [heads_setHead_self, hs]
  · rw [heads_setHead_of_ne c hne]

/-- A stream is deleted that is not linked, or that is open. -/
theorem deleteStreamIfClosed
    (hopen : c.output.isOutputStream id = true → (c.heads id).isClosed = false) :
    c.Quiet (c.deleteStreamIfClosed id) := by
  cases hlinked : c.output.isOutputStream id with
  | true =>
    have hclosed : c.isStreamClosed id = false := by simp [isStreamClosed, hlinked]
    have hacked : c.isStreamAcked id = false := by simp [isStreamAcked, hopen hlinked]
    have heq : c.deleteStreamIfClosed id = c := by
      simp [OutputCnx.deleteStreamIfClosed, hclosed, hacked]
    rw [heq]
    exact refl c
  | false =>
    have hne {x : ℕ} (hx : c.output.isOutputStream x = true) : x ≠ id := by
      rintro rfl
      rw [hlinked] at hx
      exact Bool.noConfusion hx
    have hclose : ∀ d : OutputCnx, d.output = c.output → d.nextStreamId = c.nextStreamId →
        (∀ x, x ≠ id → d.heads x = c.heads x) →
        c.Quiet (if d.isStreamAcked id then { d with output := d.output.deleteStream id }
          else d) := by
      intro d houtput hnext hheads
      split_ifs
      · refine ⟨?_, ?_, fun x hx => ?_, fun x hx hxl => ?_, fun x hx => ?_, hnext⟩
        · rw [← houtput]
          rfl
        · rw [← houtput]
          rfl
        · rw [← houtput]
          exact List.mem_of_mem_filter hx
        · refine List.mem_filter.mpr ⟨houtput ▸ hx, ?_⟩
          simpa using hne hxl
        · rw [hheads x (hne hx)]
      · refine ⟨?_, ?_, fun x hx => ?_, fun x hx _ => ?_, fun x hx => ?_, hnext⟩
        · rw [houtput]
        · rw [houtput]
        · rwa [houtput] at hx
        · rwa [houtput]
        · rw [hheads x (hne hx)]
    refine hclose _ ?_ ?_ fun x hx => ?_
    · split_ifs <;> rfl
    · split_ifs <;> rfl
    · split_ifs
      · exact Function.update_of_ne hx _ _
      · rfl

theorem trans {c'' : OutputCnx} (h : c.Quiet c') (h' : c'.Quiet c'') : c.Quiet c'' where
  outputStreams_eq := h'.outputStreams_eq.trans h.outputStreams_eq
  isOutputStream_eq := h'.isOutputStream_eq.trans h.isOutputStream_eq
  mem_of_mem id hid := h.mem_of_mem id (h'.mem_of_mem id hid)
  mem_of_linked id hid hlinked :=
    h'.mem_of_linked id (h.mem_of_linked id hid hlinked) (h.isOutputStream_eq ▸ hlinked)
  isClosed_eq id hlinked :=
    (h'.isClosed_eq id (h.isOutputStream_eq ▸ hlinked)).trans (h.isClosed_eq id hlinked)
  nextStreamId_eq := h'.nextStreamId_eq.trans h.nextStreamId_eq

theorem setHead_delete (hs : s.isClosed = (c.heads id).isClosed)
    (hopen : c.output.isOutputStream id = true → (c.heads id).isClosed = false) :
    c.Quiet ((c.setHead id s).deleteStreamIfClosed id) := by
  refine (setHead hs).trans (deleteStreamIfClosed fun hlinked => ?_)
  rw [heads_setHead_self, hs]
  exact hopen hlinked

end Quiet

theorem quiet_receiveStopSending (c : OutputCnx) (id : ℕ) : c.Quiet (c.receiveStopSending id) := by
  rw [receiveStopSending]
  split_ifs
  · exact Quiet.refl c
  · exact Quiet.setHead rfl
  · exact Quiet.refl c

theorem quiet_receiveMaxStreamData (c : OutputCnx) (id maxdata : ℕ) :
    c.Quiet (c.receiveMaxStreamData id maxdata) := by
  rw [receiveMaxStreamData]
  split_ifs
  · exact Quiet.setHead rfl
  · exact Quiet.refl c

theorem quiet_markActiveStream (c : OutputCnx) (id : ℕ) (isActive : Bool) :
    c.Quiet (c.markActiveStream id isActive) := by
  rw [markActiveStream]
  split_ifs
  · exact Quiet.setHead rfl
  · exact Quiet.refl c
  · exact Quiet.setHead rfl

theorem quiet_addToStream (c : OutputCnx) (id length : ℕ) (setFin : Bool) :
    c.Quiet (c.addToStream id length setFin) := by
  rw [addToStream]
  dsimp only
  split_ifs
  · exact Quiet.refl c
  · exact Quiet.setHead rfl
  · exact Quiet.setHead rfl

theorem quiet_resetStream (c : OutputCnx) (id : ℕ) : c.Quiet (c.resetStream id) := by
  rw [resetStream]
  split_ifs
  · exact Quiet.refl c
  · exact Quiet.setHead rfl

section Acts

variable (hopen : c.output.isOutputStream id = true → (c.heads id).isClosed = false)

include hopen

theorem quiet_receiveStream (fin consumed : Bool) : c.Quiet (c.receiveStream id fin consumed) := by
  rw [receiveStream]
  dsimp only
  split_ifs
  · exact Quiet.setHead_delete rfl hopen
  · exact Quiet.setHead rfl

theorem quiet_receiveReset : c.Quiet (c.receiveReset id) := by
  rw [receiveReset]
  split_ifs
  · exact Quiet.refl c
  · exact Quiet.setHead rfl
  · exact Quiet.setHead_delete rfl hopen

theorem quiet_processAck (offset length : ℕ) (fin : Bool) :
    c.Quiet (c.processAck id offset length fin) :=
  Quiet.setHead_delete rfl hopen

theorem quiet_sendData (hs : s.isClosed = (c.heads id).isClosed) (length : ℕ) (fin : Bool) :
    c.Quiet (c.sendData id s length fin) := by
  have hsent : c.Quiet { c with dataSent := c.dataSent + length } :=
    ⟨rfl, rfl, fun _ h => h, fun _ h _ => h, fun _ _ => rfl, rfl⟩
  rw [sendData]
  split_ifs
  · refine hsent.trans (Quiet.setHead_delete ?_ ?_)
    · exact hs
    · exact hopen
  · refine hsent.trans (Quiet.setHead ?_)
    exact hs

theorem quiet_formatStreamResetFrame (fits : Bool) :
    c.Quiet (c.formatStreamResetFrame id fits) := by
  rw [formatStreamResetFrame]
  split_ifs
  · exact Quiet.setHead_delete rfl hopen
  · exact Quiet.refl c
  · exact Quiet.refl c

theorem quiet_formatStreamFrame (answer : SendAnswer) :
    c.Quiet (c.formatStreamFrame id answer) := by
  rw [formatStreamFrame]
  dsimp only
  split_ifs
  · exact Quiet.refl c
  · exact quiet_formatStreamResetFrame hopen answer.fits
  · rw [formatStopSendingFrame]
    split_ifs
    · exact Quiet.setHead rfl
    · exact Quiet.setHead rfl
    · exact Quiet.refl c
  · exact Quiet.refl c
  · exact Quiet.refl c
  · exact Quiet.refl c
  all_goals
    refine quiet_sendData hopen ?_ _ _
    rfl

end Acts

/-! ### Looking for a stream that is ready -/

/-- A stream that is exhausted is unlinked, and deleted if that closes it. -/
def unlinkStream (c : OutputCnx) (id : ℕ) : OutputCnx :=
  { c with output := c.output.removeOutputStream id }.deleteStreamIfClosed id

theorem quiet_unlinkStream (c : OutputCnx) (id : ℕ) :
    Quiet { c with output := c.output.removeOutputStream id } (c.unlinkStream id) := by
  refine Quiet.deleteStreamIfClosed fun hlinked => ?_
  rw [isOutputStream_removeOutputStream_self] at hlinked
  exact Bool.noConfusion hlinked

theorem Numbered.unlinkStream (h : c.Numbered) (id : ℕ) : (c.unlinkStream id).Numbered := by
  refine (quiet_unlinkStream c id).numbered ⟨fun x hx hlinked => ?_, fun x hx => ?_, h.type⟩
  · have hne : x ≠ id := by
      rintro rfl
      rw [isOutputStream_removeOutputStream_self] at hlinked
      exact Bool.noConfusion hlinked
    rw [isOutputStream_removeOutputStream_of_ne _ hne] at hlinked
    rw [removeOutputStream_streams] at hx
    exact h.opened x hx hlinked
  · rw [removeOutputStream_streams] at hx
    exact h.fresh x hx

/-- The other streams stay linked. -/
theorem linked_unlinkStream {x : ℕ} (hne : x ≠ id) (hx : x ∈ c.output.streams)
    (hlinked : c.output.isOutputStream x = true) :
    x ∈ (c.unlinkStream id).output.streams ∧
      (c.unlinkStream id).output.isOutputStream x = true := by
  have hquiet := quiet_unlinkStream c id
  have hx' : (c.output.removeOutputStream id).isOutputStream x = true := by
    rwa [isOutputStream_removeOutputStream_of_ne _ hne]
  rw [hquiet.isOutputStream_eq]
  refine ⟨hquiet.mem_of_linked x ?_ hx', hx'⟩
  rwa [removeOutputStream_streams]

/-- **The walk along the list** keeps it, and ends at a stream that exists. -/
theorem findReadyLoop_keeps (n : ℕ) {o : Option ℕ} (h : c.Numbered) (hw : c.output.WellLinked)
    (ho : ∀ id, o = some id → id ∈ c.output.streams ∧ c.output.isOutputStream id = true) :
    (findReadyLoop n c o).1.Numbered ∧ (findReadyLoop n c o).1.output.WellLinked ∧
      ∀ id, (findReadyLoop n c o).2 = some id → id ∈ (findReadyLoop n c o).1.output.streams := by
  induction n generalizing c o with
  | zero => exact ⟨h, hw, fun id hid => by simp [findReadyLoop] at hid⟩
  | succ n ih =>
    cases o with
    | none => exact ⟨h, hw, fun id hid => by simp [findReadyLoop] at hid⟩
    | some id =>
      obtain ⟨hid, hlinked⟩ := ho id rfl
      have hnext : ∀ x, c.output.outputStreams.next id = some x →
          (x ∈ c.output.streams ∧ c.output.isOutputStream x = true) ∧ x ≠ id := by
        intro x hx
        obtain ⟨l, hl, hmem⟩ := hw
        obtain ⟨hin, hne⟩ := hl.mem_of_next ((hmem id).mpr ⟨hid, hlinked⟩) hx
        exact ⟨(hmem x).mp hin, hne⟩
      rw [findReadyLoop]
      split_ifs
      · exact ⟨h, hw, fun x hx => Option.some.inj hx ▸ hid⟩
      · refine ih (h.unlinkStream id) ?_ fun x hx => ?_
        · exact (quiet_unlinkStream c id).wellLinked_iff.mpr (hw.removeOutputStream hid)
        · obtain ⟨⟨hx, hxl⟩, hne⟩ := hnext x hx
          exact linked_unlinkStream hne hx hxl
      · exact ih h hw fun x hx => (hnext x hx).1

/-! ### Creating streams -/

theorem Numbered.streamTypeFromId_next (h : c.Numbered) (id : ℕ) :
    streamTypeFromId (c.nextStreamId (streamTypeFromId id)) = streamTypeFromId id :=
  h.type _ (Nat.mod_lt _ (by omega))

variable {t : ℕ} {maxStreamId : ℕ}

theorem nextStreamId_createStream (ht : streamTypeFromId (c.nextStreamId t) = t) :
    (c.createStream (c.nextStreamId t)).nextStreamId =
      Function.update c.nextStreamId t (c.nextStreamId t + 4) := by
  rw [createStream]
  dsimp only
  rw [ht, if_pos le_rfl]

/-- Creating a stream changes no limit. -/
theorem isOutputAtFirst_createStream (c : OutputCnx) (id : ℕ) :
    (c.createStream id).isOutputAtFirst = c.isOutputAtFirst := by
  obtain ⟨-, hmode, hbidir, hunidir, -⟩ := c.output.addStream_frame id
  obtain ⟨hmode', hbidir', hunidir', -⟩ := (c.output.addStream id).insertOutputStream_frame id
  funext x
  rw [isOutputAtFirst, isOutputAtFirst, maxStreamIdRemote,
    maxStreamIdRemote, createStream]
  dsimp only
  split_ifs <;> simp_all

/-- A new stream is open. -/
theorem Numbered.createStream (h : c.Numbered) (ht : t < 4) :
    (c.createStream (c.nextStreamId t)).Numbered := by
  have htype : streamTypeFromId (c.nextStreamId t) = t := h.type t ht
  have hmem : ∀ x, x ∈ (c.createStream (c.nextStreamId t)).output.streams →
      x = c.nextStreamId t ∨ x ∈ c.output.streams := by
    intro x hx
    rw [OutputCnx.createStream] at hx
    dsimp only at hx
    split_ifs at hx
    · rw [insertOutputStream_streams] at hx
      exact mem_addStream.mp hx
    · exact mem_addStream.mp hx
  have hflag : ∀ x, x ≠ c.nextStreamId t →
      (c.createStream (c.nextStreamId t)).output.isOutputStream x = c.output.isOutputStream x := by
    intro x hne
    rw [OutputCnx.createStream]
    dsimp only
    split_ifs
    · rw [isOutputStream_insertOutputStream hne,
        isOutputStream_addStream_of_ne _ hne]
    · rw [isOutputStream_addStream_of_ne _ hne]
  refine ⟨fun x hx hlinked => ?_, fun x hx => ?_, fun u hu => ?_⟩
  · rcases eq_or_ne x (c.nextStreamId t) with rfl | hne
    · rw [OutputCnx.createStream]
      dsimp only
      rw [Function.update_self]
      rfl
    · rw [hflag x hne] at hlinked
      rw [OutputCnx.createStream]
      dsimp only
      rw [Function.update_of_ne hne]
      exact h.opened x ((hmem x hx).resolve_left hne) hlinked
  · rw [nextStreamId_createStream htype]
    rcases hmem x hx with rfl | hx
    · rw [htype, Function.update_self]
      omega
    · have hlt := h.fresh x hx
      rcases eq_or_ne (streamTypeFromId x) t with heq | hne
      · rw [heq] at hlt ⊢
        rw [Function.update_self]
        omega
      · rwa [Function.update_of_ne hne]
  · rw [nextStreamId_createStream htype]
    rcases eq_or_ne u t with rfl | hne
    · rw [Function.update_self, Nat.add_mod_right]
      exact h.type u hu
    · rw [Function.update_of_ne hne]
      exact h.type u hu

theorem Numbered.createStreams (h : c.Numbered) (ht : t < 4) (n : ℕ) :
    (c.createStreams t n).Numbered := by
  induction n generalizing c with
  | zero => exact h
  | succ n ih => exact ih (h.createStream ht)

/-- **Creating streams** is putting them into the tree, and then linking those that may send. -/
theorem Numbered.createStreams_output (h : c.Numbered) (ht : t < 4) (n : ℕ) :
    (c.createStreams t n).output =
      ((List.range' (c.nextStreamId t) n 4).filter c.isOutputAtFirst).foldl
        OutputStreams.insertOutputStream
        ((List.range' (c.nextStreamId t) n 4).foldl OutputStreams.addStream c.output) := by
  induction n generalizing c with
  | zero => rfl
  | succ n ih =>
    have hnext : (c.createStream (c.nextStreamId t)).nextStreamId t = c.nextStreamId t + 4 := by
      rw [nextStreamId_createStream (h.type t ht), Function.update_self]
    have hlater : c.nextStreamId t ∉ List.range' (c.nextStreamId t + 4) n 4 := by
      intro hin
      obtain ⟨i, -, hi⟩ := List.mem_range'.mp hin
      omega
    rw [OutputCnx.createStreams, ih (h.createStream ht), hnext, isOutputAtFirst_createStream,
      List.range'_succ, List.foldl_cons]
    cases hfirst : c.isOutputAtFirst (c.nextStreamId t) with
    | true =>
      have houtput : (c.createStream (c.nextStreamId t)).output =
          (c.output.addStream (c.nextStreamId t)).insertOutputStream (c.nextStreamId t) :=
        if_pos hfirst
      rw [houtput, List.filter_cons_of_pos hfirst, List.foldl_cons,
        foldl_addStream_insertOutputStream hlater]
    | false =>
      have houtput : (c.createStream (c.nextStreamId t)).output =
          c.output.addStream (c.nextStreamId t) := if_neg (by rw [hfirst]; exact Bool.noConfusion)
      rw [houtput, List.filter_cons_of_neg (by rw [hfirst]; exact Bool.noConfusion)]

/-- Finding a stream, or creating it, leaves a list unless a stream is linked in front of an empty
list. -/
theorem Numbered.findOrCreateStream (h : c.Numbered) (hw : c.output.WellLinked) (id : ℕ)
    (isRemote : Bool) :
    (c.findOrCreateStream id isRemote).Numbered ∧
      ((c.findOrCreateStream id isRemote).output.WellLinked ↔
        (c.output.outputStreams.first = none →
          (c.createdOutputs id isRemote).head? ≠ some c.output.highPriorityStreamId)) := by
  rw [OutputCnx.findOrCreateStream, createdOutputs]
  split_ifs with hid
  · exact ⟨h, iff_of_true hw fun _ => by simp⟩
  have ht : streamTypeFromId id < 4 := Nat.mod_lt _ (by omega)
  have hnew : ∀ x ∈ List.range' (c.nextStreamId (streamTypeFromId id))
      (c.missingStreams id isRemote) 4, x ∉ c.output.streams := by
    intro x hx hin
    obtain ⟨i, -, rfl⟩ := List.mem_range'.mp hx
    have hlt := h.fresh _ hin
    have htype : streamTypeFromId (c.nextStreamId (streamTypeFromId id) + 4 * i) =
        streamTypeFromId id := by
      rw [streamTypeFromId, Nat.add_mul_mod_self_left]
      exact h.streamTypeFromId_next id
    rw [htype] at hlt
    omega
  obtain ⟨hw', hlist, hhigh, hmem, hflag⟩ := hw.foldl_addStream (List.nodup_range' 4) hnew
  refine ⟨h.createStreams ht _, ?_⟩
  rw [createMissingStreams, h.createStreams_output ht, ← hlist, ← hhigh]
  refine foldl_insert_wellLinked_iff hw' ⟨(List.nodup_range' 4).filter _, ?_, ?_⟩
  · exact fun x hx => hmem x (.inl (List.mem_of_mem_filter hx))
  · exact fun x hx => hflag x (.inl (List.mem_of_mem_filter hx))

/-! ### Events -/

theorem quiet_onStream (id : ℕ) (f : OutputCnx → OutputCnx)
    (hf : id ∈ c.output.streams → c.Quiet (f c)) : c.Quiet (c.onStream id f) := by
  rw [onStream]
  split_ifs with hid
  · exact hf hid
  · exact Quiet.refl c

/-- A frame or the application names a stream, which is created if it does not exist; what happens
to it then links and unlinks nothing. -/
theorem Numbered.onFoundStream (h : c.Numbered) (hw : c.output.WellLinked) (id : ℕ)
    (isRemote : Bool) (f : OutputCnx → OutputCnx)
    (hf : ∀ d : OutputCnx, (d.output.isOutputStream id = true → (d.heads id).isClosed = false) →
      d.Quiet (f d)) :
    ((c.findOrCreateStream id isRemote).onStream id f).Numbered ∧
      (((c.findOrCreateStream id isRemote).onStream id f).output.WellLinked ↔
        (c.output.outputStreams.first = none →
          (c.createdOutputs id isRemote).head? ≠ some c.output.highPriorityStreamId)) := by
  obtain ⟨hd, hiff⟩ := h.findOrCreateStream hw id isRemote
  have hquiet : (c.findOrCreateStream id isRemote).Quiet
      ((c.findOrCreateStream id isRemote).onStream id f) :=
    quiet_onStream id f fun hid => hf _ (hd.opened id hid)
  exact ⟨hquiet.numbered hd, hquiet.wellLinked_iff.trans hiff⟩

/-- Streams are linked that are open. -/
theorem Numbered.link (h : c.Numbered) (hw : c.output.WellLinked) {output : OutputStreams}
    {q : List ℕ} (houtput : output.outputStreams = c.output.outputStreams ∧
      output.streams = c.output.streams ∧ output.isOutputStream = c.output.isOutputStream ∧
      output.highPriorityStreamId = c.output.highPriorityStreamId)
    (hq : c.output.Linkable q) (hopen : ∀ id ∈ q, (c.heads id).isClosed = false) :
    Numbered { c with output := q.foldl insertOutputStream output } ∧
      ((q.foldl insertOutputStream output).WellLinked ↔
        (c.output.outputStreams.first = none → q.head? ≠ some c.output.highPriorityStreamId)) := by
  obtain ⟨hlist, hstreams, hflags, hhigh⟩ := houtput
  refine ⟨⟨fun id hid hlinked => ?_, fun id hid => ?_, h.type⟩, ?_⟩
  · dsimp only at hid hlinked
    rw [foldl_insert_streams, hstreams] at hid
    rw [isOutputStream_foldl_iff, hflags] at hlinked
    exact hlinked.elim (h.opened id hid) (hopen id)
  · dsimp only at hid
    rw [foldl_insert_streams, hstreams] at hid
    exact h.fresh id hid
  · rw [← hlist, ← hhigh]
    refine foldl_insert_wellLinked_iff ?_ ⟨hq.nodup, ?_, ?_⟩
    · rwa [OutputStreams.WellLinked, hlist, hstreams, hflags]
    · rw [hstreams]
      exact hq.mem
    · rw [hflags]
      exact hq.unlinked

theorem linkable_newStreams (s : OutputStreams) (oldLimit newLimit : ℕ) (isBidir : Bool) :
    s.Linkable (s.newStreams oldLimit newLimit isBidir) where
  nodup := newStreams_sorted.imp Nat.ne_of_lt
  mem _ hid := (mem_newStreams.mp hid).1.1.exists_stream
  unlinked _ hid := (mem_newStreams.mp hid).1.2

/-- The peer raises its limit. -/
theorem Numbered.addOutputStreams (h : c.Numbered) (hw : c.output.WellLinked)
    {oldLimit newLimit : ℕ}
    (hopen : ∀ id ∈ c.output.newStreams oldLimit newLimit isBidir, (c.heads id).isClosed = false) :
    Numbered { c with output := c.output.addOutputStreams oldLimit newLimit isBidir } ∧
      ((c.output.addOutputStreams oldLimit newLimit isBidir).WellLinked ↔
        (c.output.outputStreams.first = none →
          (c.output.newStreams oldLimit newLimit isBidir).head? ≠
            some c.output.highPriorityStreamId)) := by
  rw [addOutputStreams_eq]
  exact h.link hw ⟨rfl, rfl, rfl, rfl⟩ (linkable_newStreams _ _ _ _) hopen

/-- Behind the new streams, only the limit changes. -/
theorem quiet_raiseMaxStreams (hlt : c.output.maxStreamIdRemote isBidir < maxStreamId) :
    Quiet
      { c with
        output :=
          c.output.addOutputStreams (c.output.maxStreamIdRemote isBidir) maxStreamId isBidir }
      { c with output := c.output.raiseMaxStreams isBidir maxStreamId } := by
  rw [raiseMaxStreams]
  cases isBidir with
  | true =>
    have hlt : c.output.maxStreamIdBidirRemote < maxStreamId := hlt
    rw [if_pos rfl, if_pos hlt]
    exact ⟨rfl, rfl, fun _ h => h, fun _ h _ => h, fun _ _ => rfl, rfl⟩
  | false =>
    have hlt : c.output.maxStreamIdUnidirRemote < maxStreamId := hlt
    rw [if_neg Bool.false_ne_true, if_pos hlt]
    exact ⟨rfl, rfl, fun _ h => h, fun _ h _ => h, fun _ _ => rfl, rfl⟩

theorem raiseMaxStreams_of_le {s : OutputStreams}
    (hle : maxStreamId ≤ s.maxStreamIdRemote isBidir) :
    s.raiseMaxStreams isBidir maxStreamId = s := by
  rw [raiseMaxStreams]
  cases isBidir with
  | true => exact (if_pos rfl).trans (if_neg (not_lt.mpr hle))
  | false => exact (if_neg Bool.false_ne_true).trans (if_neg (not_lt.mpr hle))

/-- The application asks the peer to stop sending, which links the stream. -/
theorem Numbered.stopSending (h : c.Numbered) (hw : c.output.WellLinked)
    (hopen : c.LinksOpen (.stopSending id)) :
    (c.step (.stopSending id)).Numbered ∧
      ((c.step (.stopSending id)).output.WellLinked ↔ c.StartsList (.stopSending id)) := by
  rw [LinksOpen, newlyLinked] at hopen
  rw [StartsList, newlyLinked, OutputCnx.step, onStream]
  by_cases hlink : id ∈ c.output.streams ∧ c.output.isOutputStream id = false ∧
      (c.heads id).receiveHalf.resetReceived = false ∧ (c.heads id).stopSendingRequested = false
  · rw [if_pos hlink] at hopen ⊢
    obtain ⟨hid, hunlinked, hreset, hasked⟩ := hlink
    rw [if_pos hid, OutputCnx.stopSending, if_neg (by simp [hreset]), if_neg (by simp [hasked])]
    have hquiet : c.Quiet (c.setHead id { c.heads id with stopSendingRequested := true }) :=
      Quiet.setHead rfl
    have hlink : c.output.Linkable [id] :=
      ⟨List.nodup_singleton id, by simpa using hid, by simpa using hunlinked⟩
    refine (hquiet.numbered h).link (hquiet.wellLinked_iff.mpr hw) ⟨rfl, rfl, rfl, rfl⟩ hlink ?_
    intro x hx
    obtain rfl := List.mem_singleton.mp hx
    rw [heads_setHead_self]
    exact hopen x hx hid
  · rw [if_neg hlink]
    have hquiet : c.Quiet (if id ∈ c.output.streams then c.stopSending id else c) := by
      split_ifs with hid
      · rw [OutputCnx.stopSending]
        split_ifs with hreset hasked
        · exact Quiet.refl c
        · exact Quiet.refl c
        · have hlinked : c.output.isOutputStream id = true := by
            by_contra hunlinked
            rw [Bool.not_eq_true] at hunlinked hreset hasked
            exact hlink ⟨hid, hunlinked, hreset, hasked⟩
          rw [insertOutputStream_of_linked hlinked]
          exact Quiet.setHead rfl
      · exact Quiet.refl c
    exact ⟨hquiet.numbered h, iff_of_true (hquiet.wellLinked_iff.mpr hw) fun _ => by simp⟩

/-- **One event.** It leaves a list exactly if no stream is linked in front of an empty one. -/
theorem Numbered.step (h : c.Numbered) (hw : c.output.WellLinked) {e : OutputEvent}
    (hopen : c.LinksOpen e) :
    (c.step e).Numbered ∧ ((c.step e).output.WellLinked ↔ c.StartsList e) := by
  -- most events link nothing
  have hidle : ∀ {d : OutputCnx}, c.Quiet d → c.newlyLinked e = [] →
      d.Numbered ∧ (d.output.WellLinked ↔ c.StartsList e) := by
    intro d hquiet hnone
    refine ⟨hquiet.numbered h, iff_of_true (hquiet.wellLinked_iff.mpr hw) fun _ => ?_⟩
    rw [hnone]
    simp
  cases e with
  | streamFrame id fin consumed =>
    exact h.onFoundStream hw id true _ fun d hd => quiet_receiveStream hd fin consumed
  | resetFrame id => exact h.onFoundStream hw id true _ fun d hd => quiet_receiveReset hd
  | stopSendingFrame id =>
    exact h.onFoundStream hw id true _ fun d _ => quiet_receiveStopSending d id
  | maxStreamDataFrame id maxdata =>
    exact h.onFoundStream hw id true _ fun d _ => quiet_receiveMaxStreamData d id maxdata
  | maxDataFrame maxdata =>
    exact hidle ⟨rfl, rfl, fun _ h => h, fun _ h _ => h, fun _ _ => rfl, rfl⟩ rfl
  | maxStreamsFrame isBidir maxStreamId =>
    rw [LinksOpen, newlyLinked] at hopen
    rw [StartsList, newlyLinked, OutputCnx.step]
    by_cases hlt : c.output.maxStreamIdRemote isBidir < maxStreamId
    · rw [if_pos hlt] at hopen ⊢
      obtain ⟨hnumbered, hiff⟩ := h.addOutputStreams hw fun id hid =>
        hopen id hid ((linkable_newStreams _ _ _ _).mem id hid)
      have hquiet := quiet_raiseMaxStreams hlt
      exact ⟨hquiet.numbered hnumbered, hquiet.wellLinked_iff.trans hiff⟩
    · rw [if_neg hlt, raiseMaxStreams_of_le (not_lt.mp hlt)]
      exact ⟨h, iff_of_true hw fun _ => by simp⟩
  | transportLimit isBidir maxStreamId =>
    have hlink := linkable_newStreams c.output (c.output.maxStreamIdRemote isBidir) maxStreamId
      isBidir
    have hopen : ∀ id ∈ c.output.newStreams (c.output.maxStreamIdRemote isBidir) maxStreamId
        isBidir, (c.heads id).isClosed = false := fun id hid => hopen id hid (hlink.mem id hid)
    rw [OutputCnx.step, setTransportLimit]
    dsimp only
    rw [addOutputStreams_eq]
    cases isBidir with
    | true => exact h.link hw ⟨rfl, rfl, rfl, rfl⟩ hlink hopen
    | false => exact h.link hw ⟨rfl, rfl, rfl, rfl⟩ hlink hopen
  | limits bidirRemote unidirRemote bidirLocal unidirLocal =>
    exact hidle ⟨rfl, rfl, fun _ h => h, fun _ h _ => h, fun _ _ => rfl, rfl⟩ rfl
  | acked id offset length fin =>
    refine hidle (quiet_onStream id (fun c => c.processAck id offset length fin) fun hid => ?_) rfl
    exact quiet_processAck (h.opened id hid) offset length fin
  | openStream id => exact h.findOrCreateStream hw id false
  | markActive id isActive =>
    exact h.onFoundStream hw id false _ fun d _ => quiet_markActiveStream d id isActive
  | markHighPriority id isHighPriority =>
    refine hidle ?_ rfl
    rw [OutputCnx.step, markHighPriorityStream]
    split_ifs <;> exact ⟨rfl, rfl, fun _ h => h, fun _ h _ => h, fun _ _ => rfl, rfl⟩
  | addToStream id length setFin =>
    exact h.onFoundStream hw id false _ fun d _ => quiet_addToStream d id length setFin
  | resetStream id =>
    exact hidle (quiet_onStream id (fun c => c.resetStream id) fun _ => quiet_resetStream c id) rfl
  | stopSending id => exact h.stopSending hw hopen
  | send answer =>
    -- first the search, and then one frame
    have hfound := findReadyLoop_keeps c.output.streams.length h hw fun _ => hw.first_linked
    rw [OutputCnx.step]
    cases hfind : c.findReadyStream with
    | mk d found =>
      rw [findReadyStream] at hfind
      rw [hfind] at hfound
      obtain ⟨hd, hdw, hmem⟩ := hfound
      cases found with
      | none => exact ⟨hd, iff_of_true hdw fun _ => by simp [newlyLinked]⟩
      | some id =>
        have hquiet := quiet_formatStreamFrame (hd.opened id (hmem id rfl)) answer
        exact ⟨hquiet.numbered hd,
          iff_of_true (hquiet.wellLinked_iff.mpr hdw) fun _ => by simp [newlyLinked]⟩

theorem numbered_initial (clientMode : Bool) (params : TransportParameters) (maxdataRemote : ℕ) :
    (initial clientMode params maxdataRemote).Numbered :=
  ⟨fun _ hid => absurd hid List.not_mem_nil, fun _ hid => absurd hid List.not_mem_nil,
    fun _ ht => Nat.mod_eq_of_lt ht⟩

theorem wellLinked_initial (clientMode : Bool) (params : TransportParameters)
    (maxdataRemote : ℕ) : (initial clientMode params maxdataRemote).output.WellLinked :=
  ⟨[], is_empty, fun _ => iff_of_false List.not_mem_nil fun h => List.not_mem_nil h.1⟩

end OutputCnx

open OutputCnx

/-- **The list of output streams.** In a run where no stream is linked again that was closed, and
the stream with priority is not linked in front of an empty list, the list is sound in every state.
If no closed stream is linked again, the other condition is needed as well. -/
theorem outputList_wellLinked (clientMode : Bool) (params : TransportParameters)
    (maxdataRemote : ℕ) (evs : List OutputEvent) :
    let c := initial clientMode params maxdataRemote
    (Along step (fun c e => c.LinksOpen e ∧ c.StartsList e) c evs →
        ∀ evs', evs' <+: evs → (run step c evs').output.WellLinked) ∧
      (Along step LinksOpen c evs →
        (∀ evs', evs' <+: evs → (run step c evs').output.WellLinked) →
          Along step StartsList c evs) := by
  intro c
  have hstart : c.Numbered ∧ c.output.WellLinked :=
    ⟨numbered_initial clientMode params maxdataRemote,
      wellLinked_initial clientMode params maxdataRemote⟩
  constructor
  · intro hevs evs' hpre
    refine (forall_prefix_of_along (I := fun c => c.Numbered ∧ c.output.WellLinked)
      (fun s e hs he => ?_) hstart hevs evs' hpre).2
    obtain ⟨hnumbered, hiff⟩ := hs.1.step hs.2 he.1
    exact ⟨hnumbered, hiff.mpr he.2⟩
  · intro hopen hall
    refine along_of_forall_prefix (I := fun c => c.Numbered ∧ c.output.WellLinked)
      (J := fun c => c.output.WellLinked) (fun s e hs he hafter => ?_) hstart hopen hall
    obtain ⟨hnumbered, hiff⟩ := hs.1.step hs.2 he
    exact ⟨hiff.mp hafter, hnumbered, hafter⟩

/-- A stream is opened, sent up to its end, and unlinked. -/
def sendingRun : List OutputEvent :=
  [.openStream 0, .addToStream 0 10 true, .send ⟨true, 10, false, false⟩, .streamFrame 0 true true,
    .send ⟨true, 10, false, false⟩]

theorem outputList_wellLinked_sample :
    (run OutputCnx.step (OutputCnx.initial true ⟨1000, 1000, 1000, 1000⟩ 1000)
      sendingRun).output.WellLinked :=
  (outputList_wellLinked true ⟨1000, 1000, 1000, 1000⟩ 1000 sendingRun).1 (by decide) _
    List.prefix_rfl

/-- The stream with priority is in a list that has no end. And a stream that was closed, and linked
again to ask the peer to stop sending, is deleted while it is in the list. -/
theorem list_without_end :
    ¬ (run OutputCnx.step (OutputCnx.initial true ⟨1000, 1000, 1000, 1000⟩ 1000)
        [.markHighPriority 0 true, .markActive 0 true]).output.WellLinked ∧
      ¬ (run OutputCnx.step (OutputCnx.initial true ⟨1000, 1000, 1000, 1000⟩ 1000)
        (sendingRun ++ [.stopSending 0, .acked 0 0 10 true])).output.WellLinked := by
  constructor
  · rintro ⟨l, hl, -⟩
    have hfirst : some 0 = l.head? := hl.first_eq
    have hlast : none = l.getLast? := hl.last_eq
    rw [List.getLast?_eq_none_iff.mp hlast.symm] at hfirst
    exact absurd hfirst (by decide)
  · rintro ⟨l, hl, hmem⟩
    have hin := (hmem 0).mp (hl.mem_of_first (by decide))
    exact absurd hin.1 (by decide)

end Picoquic
