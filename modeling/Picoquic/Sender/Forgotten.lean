import Picoquic.ForMathlib.Runs
import Picoquic.Sender.Format

/-!
# Nothing that was sent is forgotten, unless a preemptive repeat skips it

A packet that is repeated preemptively is marked, and is not repeated again when it is lost. But
the rule for preemptive repeats asks for fewer frames than the rule for lost packets: it leaves
out the STREAM frames of streams without FIN, and the RESET_STREAM and STOP_SENDING frames. And
when the callback fails for a DATAGRAM frame of a lost packet, the frames behind it are dropped.

* **`nothing_forgotten`** — in a run in which no packet with such a frame is repeated
  preemptively, and no such failure hides a frame, everything that was sent is retained in every
  state;
* **`data_forgotten`** — a packet with a frame of a finished stream and one of an open stream is
  repeated preemptively and then lost: the data of the open stream are nowhere. So are those of a
  lost packet in which they stand behind a DATAGRAM frame.
-/

namespace Picoquic

open Runs SendCnx

/-! ### Packets leave the queue -/

variable {i : ℕ} {p : SentPacket} {f : Frame} {c : SendCnx} {streamId : ℕ}

private theorem mem_eraseIdx_or_eq {α : Type} {l : List α} {p : α} (hp : l[i]? = some p) {q : α}
    (hq : q ∈ l) : q ∈ l.eraseIdx i ∨ q = p := by
  obtain ⟨j, hj⟩ := List.mem_iff_getElem?.mp hq
  by_cases hij : j = i
  · subst hij
    exact Or.inr (Option.some.inj (hj.symm.trans hp))
  · exact Or.inl (List.mem_eraseIdx_iff_getElem?.mpr ⟨j, hij, hj⟩)

variable {resend : List StreamFrame} {draft : List Frame}

/-- The packet at position `i` leaves the queue, and saved frames enter the other queues: the
frames of the packet must be kept by `draft` or without being held. -/
theorem SendCnx.Safe.dequeue {c c' : SendCnx} {misc draft new : List Frame} (h : c.Safe [])
    (hp : c.retransmitQueue[i]? = some p) (hc : c.Follows new c') (hnew : new = [])
    (hqueue : c'.retransmitQueue = c.retransmitQueue.eraseIdx i)
    (hlost : ∀ q ∈ c'.retransmitted, q ∈ c.retransmitted ∨ q = p)
    (hresend : c'.streamFrameRetransmitQueue = c.streamFrameRetransmitQueue ++ resend)
    (hmisc : c'.miscFrames = c.miscFrames ++ misc)
    (hsaved : ∀ f ∈ draft ++ resend.map Frame.stream ++ misc, f.Proper)
    (hkept : p.willRepeat = true → ∀ f ∈ p.frames, f.Kept c' (c'.held ++ draft)) :
    c'.Safe draft := by
  have hproper : ∀ f ∈ p.frames, f.Proper := fun f hf =>
    h.frames f (Or.inl ⟨p, List.mem_of_getElem? hp, hf⟩)
  refine h.of_follows hc (fun f hf => h.frames_of_queues hf ?_ ?_ ?_ ?_)
    (fun f hf => hsaved f (by simp [hf])) (by simp [hnew])
    fun f hf => kept_of_queues hf ?_ ?_ ?_ (by simp)
  · exact fun q hq => Or.inl (List.mem_of_mem_eraseIdx (hqueue ▸ hq))
  · intro q hq
    rcases hlost q hq with hq | rfl
    · exact Or.inl hq
    · exact Or.inr hproper
  · intro g hg
    rw [hresend] at hg
    exact (List.mem_append.mp hg).imp_right fun hg => hsaved _ (by simp [hg])
  · intro f hf
    rw [hmisc] at hf
    exact (List.mem_append.mp hf).imp_right fun hf => hsaved f (by simp [hf])
  · intro q hq hrep
    rcases mem_eraseIdx_or_eq hp hq with hq | rfl
    · exact Or.inl (hqueue ▸ hq)
    · exact Or.inr (hkept hrep)
  · exact fun g hg => Or.inl (hresend ▸ List.mem_append_left _ hg)
  · exact fun f hf => Or.inl (hmisc ▸ List.mem_append_left _ hf)

/-! ### Lost packets -/

/-- A frame other than STREAM, RESET_STREAM and STOP_SENDING. -/
def Frame.isControl : Frame → Bool
  | .control .. => true
  | _ => false

private theorem Frame.isControl_iff :
    f.isControl = true ↔ ∃ frame bytes, f = .control frame bytes := by
  cases f <;> simp [isControl]

/-- The repair of a lost packet misses no STREAM, RESET_STREAM or STOP_SENDING frame. -/
def SendCnx.MissesNone (c : SendCnx) (p : SentPacket) : Prop :=
  ∀ f ∈ c.missedFrames p, f.isControl = true

instance (c : SendCnx) (p : SentPacket) : Decidable (c.MissesNone p) := by
  unfold SendCnx.MissesNone
  infer_instance

/-- A special packet is dropped as it is. -/
theorem copyBeforeRetransmit_of_not_willRepeat (c : SendCnx) (hp : p.willRepeat = false) (limit : ℕ)
    (forceQueue : Bool) (repair : Repair) :
    (c.copyBeforeRetransmit p limit forceQueue repair).1 = c ∧
      (c.copyBeforeRetransmit p limit forceQueue repair).2.copied = repair.copied ∧
      (c.copyBeforeRetransmit p limit forceQueue repair).2.length = repair.length := by
  rw [SendCnx.copyBeforeRetransmit]
  split_ifs with h1 h2 h3 h4
  · simp
  · simp
  · simp
  · simp
  · simp [SentPacket.willRepeat, h1, h2, h3, h4] at hp

/-- The packet that is lost leaves the queue once its frames are saved. -/
theorem SendCnx.Safe.save (h : c.Safe []) (hp : c.retransmitQueue[i]? = some p)
    {copied : List Frame} {misc : List Frame} (hmissed : p.willRepeat = true → c.MissesNone p)
    (hall : if p.willRepeat then
      (copied ++ resend.map Frame.stream ++ misc).Perm (c.reachedNeeded p)
      else copied = [] ∧ resend = [] ∧ misc = []) (shouldFree : Bool) :
    ((c.queueFrames resend misc).dequeueRetransmitPacket i p shouldFree).Safe copied := by
  have hmem : p ∈ c.retransmitQueue := List.mem_of_getElem? hp
  have hproper : ∀ f ∈ p.frames, f.Proper := fun f hf => h.frames f (Or.inl ⟨p, hmem, hf⟩)
  have hfollows :
      c.Follows [] ((c.queueFrames resend misc).dequeueRetransmitPacket i p shouldFree) :=
    follows_of_eq rfl rfl rfl
  have hresend : ((c.queueFrames resend misc).dequeueRetransmitPacket i p
      shouldFree).streamFrameRetransmitQueue = c.streamFrameRetransmitQueue ++ resend := rfl
  have hmisc : ((c.queueFrames resend misc).dequeueRetransmitPacket i p shouldFree).miscFrames =
      c.miscFrames ++ misc := rfl
  refine h.dequeue hp hfollows rfl rfl ?_ hresend hmisc ?_ ?_
  · intro q hq
    change q ∈ (if shouldFree || p.isAckTrap then c.retransmitted else c.retransmitted ++ [p]) at hq
    split_ifs at hq
    · exact Or.inl hq
    · exact (List.mem_append.mp hq).imp_right List.mem_singleton.mp
  · intro f hf
    split_ifs at hall
    · exact hproper f (mem_of_mem_reachedNeeded (hall.subset hf))
    · obtain ⟨rfl, rfl, rfl⟩ := hall
      simp at hf
  · intro hrep f hf
    rw [if_pos hrep] at hall
    cases hn : c.needsRepeat p.ptype false f with
    | false =>
      exact (Frame.kept_of_not_needed h.streams (hproper f hf) hn []).mono hfollows (by simp)
    | true =>
      have hneeded : f ∈ c.neededFrames p := List.mem_filter.mpr ⟨hf, hn⟩
      rw [← c.reachedNeeded_append_missedFrames p] at hneeded
      rcases List.mem_append.mp hneeded with hreached | hmiss
      swap
      · obtain ⟨frame, bytes, rfl⟩ := Frame.isControl_iff.mp (hmissed hrep f hmiss)
        trivial
      -- the frame is in one of the three places
      have hf' := hall.symm.subset hreached
      refine Frame.kept_of_mem ?_
      rcases List.mem_append.mp hf' with hf' | hf'
      · rcases List.mem_append.mp hf' with hf' | hf'
        · exact List.mem_append_right _ hf'
        · obtain ⟨g, hg, rfl⟩ := List.mem_map.mp hf'
          exact List.mem_append_left _
            (mem_held.mpr (Or.inr (Or.inl ⟨g, List.mem_append_right _ hg, rfl⟩)))
      · exact List.mem_append_left _ (mem_held.mpr (Or.inr (Or.inr (List.mem_append_right _ hf'))))

/-- A packet that will not be repeated leaves the queue. -/
theorem SendCnx.Safe.discard (h : c.Safe []) (hp : c.retransmitQueue[i]? = some p)
    (hnone : p.willRepeat = false) (shouldFree : Bool) :
    (c.dequeueRetransmitPacket i p shouldFree).Safe [] := by
  have hall : if p.willRepeat then
      (([] : List Frame) ++ ([] : List StreamFrame).map Frame.stream ++ []).Perm (c.reachedNeeded p)
      else ([] : List Frame) = [] ∧ ([] : List StreamFrame) = [] ∧ ([] : List Frame) = [] := by
    rw [if_neg (by simp [hnone])]
    simp
  have hsave := h.save hp (by simp [hnone]) hall shouldFree
  rwa [queueFrames_nil] at hsave

private theorem SendCnx.Safe.drop (h : c.Safe draft)
    (hd : ∀ f ∈ draft, ∃ frame bytes, f = Frame.control frame bytes) : c.Safe [] := by
  refine h.of_follows (SendCnx.Follows.refl [] c) h.frames (by simp) (by simp) fun f hf => ?_
  rcases List.mem_append.mp hf with hf | hf
  · exact Frame.kept_of_mem (by simp [hf])
  · obtain ⟨frame, bytes, rfl⟩ := hd f hf
    trivial

/-- Only control frames can be empty. -/
theorem Frame.eq_control_of_length (hf : f.length = 0) :
    ∃ frame bytes, f = .control frame bytes := by
  cases f with
  | control frame bytes => exact ⟨frame, bytes, rfl⟩
  | stream f =>
    simp only [length, StreamFrame.length, StreamFrame.consumed, streamHeaderLength] at hf
    omega
  | resetStream =>
    simp only [length] at hf
    omega
  | stopSending =>
    simp only [length] at hf
    omega

/-- What `picoquic_copy_before_retransmit` does in `picoquic_retransmit_needed_packet`. -/
theorem SendCnx.repairPacket_spec (c : SendCnx) (p : SentPacket) (b : RetransmitBuffer) :
    ∃ resend misc, (c.repairPacket p b).1 = c.queueFrames resend misc ∧
      (if p.willRepeat then
        ((c.repairPacket p b).2.copied ++ resend.map Frame.stream ++ misc).Perm (c.reachedNeeded p)
      else (c.repairPacket p b).2.copied = [] ∧ resend = [] ∧ misc = []) ∧
      (c.repairPacket p b).2.length = b.headerLength + framesLength (c.repairPacket p b).2.copied ∧
      ((c.repairPacket p b).2.packetIsPureAck = true → (c.repairPacket p b).2.copied = []) := by
  cases hp : p.willRepeat with
  | true =>
    obtain ⟨copied, resend, misc, h, hall, -⟩ :=
      copyFrames_spec p.ptype b.limit false (c, b.start) (reachedFrames p.frames)
    have hlength := length_foldl_copyFrame c p b (reachedFrames p.frames)
    rw [repairPacket_eq c hp]
    generalize (reachedFrames p.frames).foldl (copyFrame p.ptype b.limit false) (c, b.start) = r
      at h hlength ⊢
    have hcopied : r.2.copied = copied := h.copied_eq
    refine ⟨resend, misc, h.cnx_eq, ?_, hlength, fun hpure => ?_⟩
    · rw [if_pos rfl]
      exact hcopied ▸ hall
    · have hempty := h.pureAck_eq
      rw [hpure] at hempty
      simp [RetransmitBuffer.start] at hempty
      rw [hcopied]
      exact hempty.1
  | false =>
    obtain ⟨h1, h2, h3⟩ := copyBeforeRetransmit_of_not_willRepeat c hp b.limit false
      ⟨[], b.headerLength, true, true⟩
    refine ⟨[], [], ?_, ?_, ?_, fun _ => h2⟩
    · rw [queueFrames_nil]
      exact h1
    · exact ⟨h2, rfl, rfl⟩
    · rw [repairPacket, h2, h3]
      rfl

/-- The frames that were copied are sent, with padding and possibly an ACK frame, unless the new
packet is empty. -/
theorem SendCnx.Safe.sendRepair {copied pad : List Frame} (h : c.Safe copied)
    {length headerLength : ℕ} (hlength : length = headerLength + framesLength copied)
    (hpad : ∀ f ∈ pad, f.Proper) (ptype : PacketType) (ackFrame : List UInt8) :
    (if length + framesLength pad ≤ headerLength then c
      else c.sendFrames ptype.repeatedAs headerLength
        (copied ++ pad ++ if ackFrame = [] then [] else [.control .ack ackFrame])).Safe [] := by
  by_cases hshort : length + framesLength pad ≤ headerLength
  · rw [if_pos hshort]
    -- nothing was copied but empty frames
    refine h.drop fun f hf => Frame.eq_control_of_length ?_
    have hle : f.length ≤ framesLength copied := List.le_sum_of_mem (List.mem_map_of_mem hf)
    omega
  · rw [if_neg hshort]
    refine h.sendFrames (fun f hf => by simp [hf]) (fun f hf => ?_) _ _
    rcases List.mem_append.mp hf with hf | hf
    · exact (List.mem_append.mp hf).elim (h.drafted f) (hpad f)
    · split_ifs at hf
      · cases hf
      · rw [List.mem_singleton.mp hf]
        trivial

/-- A packet is declared lost. -/
theorem SendCnx.Safe.retransmitNeededPacket (h : c.Safe []) (hp : c.retransmitQueue[i]? = some p)
    (b : RetransmitBuffer) (ackFrame : List UInt8)
    (hmissed : p.willRepeat = true → c.delaysRetransmit p b = false → c.MissesNone p) :
    (c.retransmitNeededPacket i p b ackFrame).Safe [] := by
  obtain ⟨resend, misc, hcnx, hall, hlength, hpure⟩ := c.repairPacket_spec p b
  rw [SendCnx.retransmitNeededPacket]
  by_cases htrap : p.isAckTrap = true
  · rw [if_pos htrap]
    have hnone : p.willRepeat = false := by simp [SentPacket.willRepeat, htrap]
    exact h.discard hp hnone true
  rw [if_neg htrap]
  by_cases hdelay : c.delaysRetransmit p b = true
  · rw [if_pos hdelay]
    exact h
  rw [if_neg hdelay]
  generalize c.repairPacket p b = r at hcnx hall hlength hpure ⊢
  obtain ⟨c', repair⟩ := r
  dsimp only at hcnx hall hlength hpure ⊢
  subst hcnx
  have hsave := h.save hp (fun hrep => hmissed hrep (by simpa using hdelay)) hall
    (repair.packetIsPureAck && repair.doNotDetectSpurious)
  by_cases hack : repair.packetIsPureAck = true
  · rw [if_pos hack]
    rw [hpure hack] at hsave
    exact hsave
  rw [if_neg hack]
  refine hsave.sendRepair (by omega) (fun f hf => ?_) p.ptype ackFrame
  split_ifs at hf
  · exact padding_isControl hf
  · cases hf

/-- A packet is recycled. -/
theorem SendCnx.Safe.recyclePacket (h : c.Safe []) (hp : c.retransmitQueue[i]? = some p)
    (hmissed : p.willRepeat = true → c.MissesNone p) : (c.recyclePacket i p).Safe [] := by
  rw [SendCnx.recyclePacket]
  by_cases ht : p.ptype = .oneRttProtected
  swap
  · rw [if_neg ht]
    exact h
  rw [if_pos ht]
  cases hrep : p.willRepeat with
  | true =>
    obtain ⟨resend, misc, hcnx, hall⟩ := c.recycled_saves hrep ht 0 ⟨[], 0, false, false⟩
    rw [hcnx]
    refine h.save hp hmissed ?_ true
    rwa [if_pos hrep]
  | false =>
    rw [(copyBeforeRetransmit_of_not_willRepeat c hrep 0 true ⟨[], 0, false, false⟩).1]
    exact h.discard hp hrep true

/-! ### Preemptive repeats -/

/-- What the loop of `picoquic_preemptive_retransmit_packet` did: when it could write all frames
that it was asked for, it did. -/
structure Preempted (room : ℕ) (asked : List Frame) (r : PreemptiveRepeat) : Prop where
  proper : ∀ f ∈ r.written, f.Proper
  fits : framesLength r.written ≤ room
  written : r.isRepeated = true → (∀ f ∈ asked, f ∈ r.written) ∧
    framesLength asked ≤ framesLength r.written
  hasData : r.hasData = true → asked ≠ []

private theorem framesLength_padding (n : ℕ) : framesLength (padding n) = n := by
  rw [padding]
  split_ifs with hn
  · exact hn.symm
  · simp [Frame.length]

private theorem SendCnx.preemptiveFrame_spec (c : SendCnx) (ptype : PacketType) {room : ℕ}
    {asked : List Frame} {r : PreemptiveRepeat} (h : Preempted room asked r) (hf : f.Proper) :
    Preempted room (asked ++ [f].filter (c.needsRepeat ptype true))
      (c.preemptiveFrame ptype room r f) := by
  rw [preemptiveFrame]
  cases hn : c.needsRepeat ptype true f with
  | false => simpa [hn] using h
  | true =>
    rw [if_pos rfl]
    have hpad : framesLength r.written +
        framesLength (if f.isUnlimited then padding (room - framesLength r.written - f.length)
          else []) ≤ room := by
      have hfits := h.fits
      split_ifs
      · rw [framesLength_padding]
        omega
      · rw [framesLength_nil]
        omega
    have hproper : ∀ g ∈ (if f.isUnlimited then padding (room - framesLength r.written - f.length)
        else []), g.Proper := by
      intro g hg
      split_ifs at hg
      · exact padding_isControl hg
      · cases hg
    generalize (if f.isUnlimited then padding (room - framesLength r.written - f.length)
      else []) = pad at hpad hproper ⊢
    have hwritten : ∀ g ∈ r.written ++ pad, g.Proper := fun g hg =>
      (List.mem_append.mp hg).elim (h.proper g) (hproper g)
    have hasked : asked ++ [f].filter (c.needsRepeat ptype true) = asked ++ [f] := by simp [hn]
    rw [hasked]
    dsimp only
    split_ifs with hroom
    · refine ⟨fun g hg => ?_, ?_, fun hr => ?_, fun _ => by simp⟩
      · rcases List.mem_append.mp hg with hg | hg
        · exact hwritten g hg
        · rw [List.mem_singleton.mp hg]
          exact hf
      · simpa only [framesLength_append, framesLength_singleton] using hroom
      · obtain ⟨hall, hlen⟩ := h.written hr
        refine ⟨fun g hg => ?_, ?_⟩
        · rcases List.mem_append.mp hg with hg | hg
          · simp [hall g hg]
          · simp [List.mem_singleton.mp hg]
        · simp only [framesLength_append, framesLength_singleton]
          omega
    · refine ⟨hwritten, ?_, fun hr => by simp at hr, fun _ => by simp⟩
      simpa only [framesLength_append] using hpad

/-- The whole packet. -/
theorem SendCnx.preemptiveRetransmitPacket_spec (c : SendCnx) (room : ℕ)
    (hp : ∀ f ∈ p.frames, f.Proper) :
    Preempted room (p.frames.filter (c.needsRepeat p.ptype true))
      (c.preemptiveRetransmitPacket p room) ∨
      (c.preemptiveRetransmitPacket p room).hasData = false := by
  rw [preemptiveRetransmitPacket]
  by_cases hs : (p.isMtuProbe || p.isAckTrap || p.isMultipathProbe) = true
  · exact Or.inr (by rw [if_pos hs])
  left
  rw [if_neg hs]
  have hloop : ∀ (frames asked : List Frame) (r : PreemptiveRepeat), (∀ f ∈ frames, f.Proper) →
      Preempted room asked r → Preempted room (asked ++ frames.filter (c.needsRepeat p.ptype true))
        (frames.foldl (c.preemptiveFrame p.ptype room) r) := by
    intro frames
    induction frames with
    | nil =>
      intro asked r _ hr
      simpa using hr
    | cons f frames ih =>
      intro asked r hall hr
      have hstep := c.preemptiveFrame_spec p.ptype hr (hall f List.mem_cons_self)
      have hrest := ih _ _ (fun g hg => hall g (List.mem_cons_of_mem _ hg)) hstep
      rw [List.append_assoc, ← List.filter_append, List.singleton_append] at hrest
      exact hrest
  have hstart : Preempted room [] ⟨[], false, true⟩ := ⟨by simp, by simp, by simp, by simp⟩
  simpa using hloop p.frames [] ⟨[], false, true⟩ hp hstart

/-- A packet is marked as repeated: of its frames, those that are needed must be in `draft`. -/
theorem SendCnx.Safe.mark (h : c.Safe []) (hp : c.retransmitQueue[i]? = some p)
    (hdraft : ∀ f ∈ draft, f.Proper)
    (hneeded : ∀ f ∈ p.frames, c.needsRepeat p.ptype false f = true →
      f ∈ draft ∨ ∃ frame bytes, f = .control frame bytes) :
    SendCnx.Safe { c with
      retransmitQueue := c.retransmitQueue.set i { p with wasPreemptivelyRepeated := true } }
      draft := by
  have hpmem : p ∈ c.retransmitQueue := List.mem_of_getElem? hp
  have hfollows : c.Follows [] { c with
      retransmitQueue := c.retransmitQueue.set i { p with wasPreemptivelyRepeated := true } } :=
    follows_of_eq rfl rfl rfl
  refine h.of_follows hfollows
    (fun f hf => h.frames_of_queues hf ?_ (fun _ => Or.inl) (fun _ => Or.inl) (fun _ => Or.inl))
    hdraft (by simp)
    fun f hf => kept_of_queues hf ?_ (fun _ => Or.inl) (fun _ => Or.inl) (by simp)
  · intro q hq
    rcases List.mem_or_eq_of_mem_set hq with hq | rfl
    · exact Or.inl hq
    · exact Or.inr fun f hf => h.frames f (Or.inl ⟨p, hpmem, hf⟩)
  · intro q hq hrep
    obtain ⟨j, hj⟩ := List.mem_iff_getElem?.mp hq
    by_cases hij : i = j
    · -- the packet that is marked
      obtain rfl : p = q := Option.some.inj (hp.symm.trans (hij ▸ hj))
      refine Or.inr fun f hfp => ?_
      cases hn : c.needsRepeat p.ptype false f with
      | false =>
        have hproper := h.frames f (Or.inl ⟨p, hpmem, hfp⟩)
        exact (Frame.kept_of_not_needed h.streams hproper hn []).mono hfollows (by simp)
      | true =>
        rcases hneeded f hfp hn with hmem | ⟨frame, bytes, rfl⟩
        · exact Frame.kept_of_mem (List.mem_append_right _ hmem)
        · trivial
    · exact Or.inl (List.mem_iff_getElem?.mpr ⟨j, by rwa [List.getElem?_set_ne hij]⟩)

/-- The frames of a packet that a preemptive repeat asks for. -/
def SendCnx.askedFrames (c : SendCnx) (p : SentPacket) : List Frame :=
  p.frames.filter (c.needsRepeat p.ptype true)

/-- A preemptive repeat that will mark the packet asks for all frames that have to be repeated when
the packet is lost, control frames apart. A packet is marked when there are frames that are asked
for, and room for them. -/
def SendCnx.AsksForAll (c : SendCnx) (p : SentPacket) (room : ℕ) : Prop :=
  p.willRepeat = true → c.askedFrames p ≠ [] → framesLength (c.askedFrames p) ≤ room →
    ∀ f ∈ p.frames, c.needsRepeat p.ptype false f = true →
      f.isControl = true ∨ c.needsRepeat p.ptype true f = true

instance (c : SendCnx) (p : SentPacket) (room : ℕ) : Decidable (c.AsksForAll p room) := by
  unfold SendCnx.AsksForAll
  infer_instance

/-- A packet is repeated early. -/
theorem SendCnx.Safe.preemptiveRetransmit (h : c.Safe []) (hp : c.retransmitQueue[i]? = some p)
    (offset room : ℕ) (hasks : c.isPreemptiveRepeatEnabled = true → c.AsksForAll p room) :
    (c.preemptiveRetransmit i p offset room).Safe [] := by
  have hproper : ∀ f ∈ p.frames, f.Proper := fun f hf =>
    h.frames f (Or.inl ⟨p, List.mem_of_getElem? hp, hf⟩)
  have hspec := c.preemptiveRetransmitPacket_spec room hproper
  have hspecial : p.willRepeat = false → p.wasPreemptivelyRepeated = false →
      (c.preemptiveRetransmitPacket p room).hasData = false := by
    intro hw hr
    rw [preemptiveRetransmitPacket, if_pos]
    simp only [SentPacket.willRepeat, hr, Bool.not_false, Bool.and_true, Bool.and_eq_false_iff,
      Bool.not_eq_eq_eq_not] at hw
    simpa only [Bool.or_eq_true] using hw
  rw [SendCnx.preemptiveRetransmit]
  by_cases hoff : (!c.isPreemptiveRepeatEnabled || p.wasPreemptivelyRepeated) = true
  · rw [if_pos hoff]
    exact h
  rw [if_neg hoff]
  simp only [Bool.or_eq_true, Bool.not_eq_true', not_or, Bool.not_eq_false,
    Bool.not_eq_true] at hoff
  generalize c.preemptiveRetransmitPacket p room = r at hspec hspecial ⊢
  dsimp only
  by_cases hdata : r.hasData = true
  swap
  · simp only [hdata, Bool.false_and, Bool.false_eq_true, if_false]
    exact h
  have hwritten := hspec.resolve_right (by simp [hdata])
  rw [if_pos hdata]
  refine sendFrames ?_ (fun _ hf => hf) hwritten.proper _ _
  by_cases hrepeated : r.isRepeated = true
  · rw [if_pos (by simp [hdata, hrepeated])]
    obtain ⟨hall, hlen⟩ := hwritten.written hrepeated
    have hwill : p.willRepeat = true := by
      by_contra hne
      rw [hspecial (by simpa using hne) hoff.2] at hdata
      cases hdata
    refine h.mark hp hwritten.proper fun f hf hn => ?_
    rcases hasks hoff.1 hwill (hwritten.hasData hdata) (hlen.trans hwritten.fits) f hf hn with
      hc | hn'
    · exact Or.inr (Frame.isControl_iff.mp hc)
    · exact Or.inl (hall f (List.mem_filter.mpr ⟨hf, hn'⟩))
  · rw [if_neg (by simp [hrepeated])]
    have hformats : c.Formats c r.written := ⟨SendCnx.Follows.refl _ c, rfl, hwritten.proper⟩
    exact h.formats hformats

/-! ### Acknowledgements -/

/-- What is acknowledged is recorded. -/
theorem SendStream.acked_follows {s : SendStream} (hs : s.Good) {f : StreamFrame} (hf : f.Proper) :
    s.Follows [] f.streamId
      { s with sackList := (updateSackList s.sackList f.offset f.last 0).1 } ∧
      ∀ item, f.Has item →
        SackCovers (updateSackList s.sackList f.offset f.last 0).1.ackTree item.position := by
  obtain ⟨hlast, hle⟩ := hf.last_eq
  have hlt := hf.lt
  obtain ⟨hdelay, hsep, hcov⟩ :=
    updateSackList_spec hs.canonical hs.horizonDelay hf.offset_lt hle 0
  have hitems : ∀ item, f.Has item →
      SackCovers (updateSackList s.sackList f.offset f.last 0).1.ackTree item.position :=
    fun item hitem => (hcov _).mpr (Or.inr (hitem.position_mem hf))
  refine ⟨⟨fun hs => ⟨⟨hsep, fun n hn => ?_⟩, hdelay, hs.sentOffset_le, hs.maxdataRemote_lt,
    hs.nodes⟩, id, fun n hn => (hcov n).mpr (Or.inl hn), fun _ => Or.inl, fun _ => Or.inl⟩, hitems⟩
  rcases (hcov n).mp hn with hn | ⟨-, hn⟩
  · exact hs.canonical.lt n hn
  · split_ifs at hlast <;> omega

private theorem sackList_of_deleteStreamIfClosed {s s' : SendStream}
    (h : (c.deleteStreamIfClosed streamId s).1.streams streamId = some s') :
    s'.sackList = s.sackList := by
  rw [SendCnx.deleteStreamIfClosed] at h
  split_ifs at h
  all_goals
    simp only [SendCnx.putStream, Function.update_self, Option.some.injEq, reduceCtorEq] at h
  all_goals rw [← h]

/-- An acknowledged frame need not be held. -/
theorem SendCnx.processAckOfFrame_spec (hgood : ∀ streamId s, c.streams streamId = some s → s.Good)
    (hf : f.Proper) :
    c.Follows [] (c.processAckOfFrame f) ∧ (c.processAckOfFrame f).queues = c.queues ∧
      f.Kept (c.processAckOfFrame f) [] := by
  have hrequest : c.Follows [] { c with ackedControl := c.ackedControl ++ [f] } :=
    ⟨(SendCnx.Follows.refl [] c).streams, fun _ => Or.inl, fun _ => List.mem_append_left _⟩
  cases f with
  | control => exact ⟨SendCnx.Follows.refl [] c, rfl, trivial⟩
  | resetStream => exact ⟨hrequest, rfl, Or.inl (by simp [processAckOfFrame])⟩
  | stopSending => exact ⟨hrequest, rfl, Or.inl (by simp [processAckOfFrame])⟩
  | stream f =>
    rw [processAckOfFrame]
    cases hs : c.streams f.streamId with
    | none =>
      refine ⟨SendCnx.Follows.refl [] c, rfl, fun s hs' => ?_⟩
      rw [hs] at hs'
      cases hs'
    | some s =>
      obtain ⟨hfollows, hcov⟩ := SendStream.acked_follows (hgood _ s hs) hf
      refine ⟨SendCnx.Follows.deleteStreamIfClosed hs hfollows,
        queues_deleteStreamIfClosed c f.streamId _, fun s' hs' hreset item hitem => Or.inl ?_⟩
      rw [sackList_of_deleteStreamIfClosed hs']
      exact hcov item hitem

/-- All frames of a packet are acknowledged. -/
theorem SendCnx.processAckOfFrames_spec (hgood : ∀ streamId s, c.streams streamId = some s → s.Good)
    (hp : ∀ f ∈ p.frames, f.Proper) :
    c.Follows [] (c.processAckOfFrames p) ∧ (c.processAckOfFrames p).queues = c.queues ∧
      ∀ f ∈ p.frames, f.Kept (c.processAckOfFrames p) [] := by
  rw [processAckOfFrames]
  generalize p.frames = frames at hp ⊢
  induction frames generalizing c with
  | nil => exact ⟨SendCnx.Follows.refl [] c, rfl, by simp⟩
  | cons f frames ih =>
    obtain ⟨hfollows, hqueues, hkept⟩ :=
      processAckOfFrame_spec hgood (hp f List.mem_cons_self)
    have hgood' : ∀ streamId s, (c.processAckOfFrame f).streams streamId = some s → s.Good := by
      intro streamId s' hs'
      obtain ⟨s, hs, hf⟩ := hfollows.streams streamId s' hs'
      exact hf.good (hgood streamId s hs)
    obtain ⟨ihfollows, ihqueues, ihkept⟩ :=
      ih hgood' fun g hg => hp g (List.mem_cons_of_mem _ hg)
    refine ⟨hfollows.trans ihfollows, ihqueues.trans hqueues, fun g hg => ?_⟩
    rcases List.mem_cons.mp hg with rfl | hg
    · exact hkept.mono ihfollows (by simp)
    · exact ihkept g hg

section

variable (h : c.Safe [])

include h

private theorem SendCnx.Safe.processAckOfFrames (hp : ∀ f ∈ p.frames, f.Proper) :
    (c.processAckOfFrames p).Safe [] := by
  obtain ⟨hfollows, hqueues, -⟩ := processAckOfFrames_spec h.streams hp
  have hformats : c.Formats (c.processAckOfFrames p) [] := ⟨hfollows, hqueues, by simp⟩
  exact h.formats hformats

/-- A packet is acknowledged. -/
theorem SendCnx.Safe.acknowledge (hp : c.retransmitQueue[i]? = some p) :
    ((c.processAckOfFrames p).dequeueRetransmitPacket i p true).Safe [] := by
  have hproper : ∀ f ∈ p.frames, f.Proper := fun f hf =>
    h.frames f (Or.inl ⟨p, List.mem_of_getElem? hp, hf⟩)
  obtain ⟨hfollows, hqueues, hkept⟩ := processAckOfFrames_spec h.streams hproper
  simp only [queues, Prod.mk.injEq] at hqueues
  obtain ⟨hq1, hq2, hq3, hq4⟩ := hqueues
  have hdequeue : c.Follows [] ((c.processAckOfFrames p).dequeueRetransmitPacket i p true) :=
    ⟨hfollows.streams, hfollows.control, hfollows.acked⟩
  have hqueue : ((c.processAckOfFrames p).dequeueRetransmitPacket i p true).retransmitQueue =
      c.retransmitQueue.eraseIdx i := by
    rw [dequeueRetransmitPacket, hq1]
  have hresend : ((c.processAckOfFrames p).dequeueRetransmitPacket i p
      true).streamFrameRetransmitQueue = c.streamFrameRetransmitQueue ++ [] := by
    rw [List.append_nil]
    exact hq3
  have hmisc : ((c.processAckOfFrames p).dequeueRetransmitPacket i p true).miscFrames =
      c.miscFrames ++ [] := by
    rw [List.append_nil]
    exact hq4
  refine h.dequeue hp hdequeue rfl hqueue (fun q hq => Or.inl (hq2 ▸ hq)) hresend hmisc (by simp)
    fun _ f hf => ?_
  have hsame : (c.processAckOfFrames p).Follows []
      ((c.processAckOfFrames p).dequeueRetransmitPacket i p true) :=
    follows_of_eq rfl rfl rfl
  exact (hkept f hf).mono hsame (by simp)

/-- Packets that were declared lost are not held. -/
theorem SendCnx.Safe.forget (i : ℕ) :
    SendCnx.Safe { c with retransmitted := c.retransmitted.eraseIdx i } [] := by
  have hfollows : c.Follows [] { c with retransmitted := c.retransmitted.eraseIdx i } :=
    follows_of_eq rfl rfl rfl
  have hlost : ∀ p ∈ c.retransmitted.eraseIdx i, p ∈ c.retransmitted := fun _ =>
    List.mem_of_mem_eraseIdx
  exact h.of_follows hfollows
    (fun f hf => h.frames_of_queues hf (fun _ => Or.inl) (fun p hp => Or.inl (hlost p hp))
      (fun _ => Or.inl) (fun _ => Or.inl))
    (by simp) (by simp) fun f hf => Frame.kept_of_mem hf

/-- A frame is queued. -/
theorem SendCnx.Safe.queueMiscFrame (frame : ControlFrame) (bytes : List UInt8) :
    SendCnx.Safe { c with miscFrames := c.miscFrames ++ [.control frame bytes] } [] := by
  have hfollows : c.Follows [] { c with miscFrames := c.miscFrames ++ [.control frame bytes] } :=
    follows_of_eq rfl rfl rfl
  refine h.of_follows hfollows
    (fun f hf => h.frames_of_queues hf (fun _ => Or.inl) (fun _ => Or.inl) (fun _ => Or.inl) ?_)
    (by simp) (by simp)
    fun f hf => kept_of_queues hf (fun _ hp _ => Or.inl hp) (fun _ => Or.inl) ?_ (by simp)
  · intro f hf
    refine (List.mem_append.mp hf).imp_right fun hf => ?_
    rw [List.mem_singleton.mp hf]
    trivial
  · exact fun f hf => Or.inl (List.mem_append_left _ hf)

/-- A packet with control frames is sent. -/
theorem SendCnx.Safe.sendProbe (isMtuProbe isAckTrap isMultipathProbe : Bool)
    (frames : List (ControlFrame × List UInt8)) :
    (c.step (.sendProbe isMtuProbe isAckTrap isMultipathProbe frames)).Safe [] := by
  have hfollows : c.Follows [] (c.step (.sendProbe isMtuProbe isAckTrap isMultipathProbe frames)) :=
    follows_of_eq rfl rfl rfl
  refine h.of_follows hfollows
    (fun f hf => h.frames_of_queues hf ?_ (fun _ => Or.inl) (fun _ => Or.inl) (fun _ => Or.inl))
    (by simp) (by simp)
    fun f hf => kept_of_queues hf ?_ (fun _ => Or.inl) (fun _ => Or.inl) (by simp)
  · intro q hq
    rcases List.mem_cons.mp hq with rfl | hq
    · refine Or.inr fun f hf => ?_
      obtain ⟨frame, -, rfl⟩ := List.mem_map.mp hf
      trivial
    · exact Or.inl hq
  · exact fun q hq _ => Or.inl (List.mem_cons_of_mem _ hq)

/-! ### Streams that are created or changed -/

/-- A new stream has sent nothing. -/
theorem SendCnx.Safe.createStream (streamId : ℕ) (maxdataRemote : Fin (2 ^ 62))
    (isOutputStream : Bool) :
    (c.putStream streamId (c.newStream streamId maxdataRemote isOutputStream)).Safe [] := by
  have hnew : (c.newStream streamId maxdataRemote isOutputStream).Good :=
    { canonical := sackCanonical_nil
      horizonDelay := rfl
      sentOffset_le := Nat.zero_le _
      maxdataRemote_lt := maxdataRemote.isLt
      nodes := by simp [newStream] }
  have hstreams : ∀ id s, (c.putStream streamId
      (c.newStream streamId maxdataRemote isOutputStream)).streams id = some s →
      s = c.newStream streamId maxdataRemote isOutputStream ∨ c.streams id = some s := by
    intro id s hs
    by_cases hid : id = streamId
    · subst hid
      simp only [putStream, Function.update_self, Option.some.injEq] at hs
      exact Or.inl hs.symm
    · simp only [putStream, Function.update_of_ne hid] at hs
      exact Or.inr hs
  refine ⟨fun id s hs => ?_, h.frames, h.drafted, h.history, ⟨?_, ?_, h.remembers.control⟩⟩
  · rcases hstreams id s hs with rfl | hs
    · exact hnew
    · exact h.streams id s hs
  · intro id s hs hreset n hn
    rcases hstreams id s hs with rfl | hs
    · exact absurd hn (Nat.not_lt_zero n)
    · exact h.remembers.data id s hs hreset n hn
  · intro id s hs hreset n hn
    rcases hstreams id s hs with rfl | hs
    · cases hn
    · exact h.remembers.fin id s hs hreset n hn

private theorem SendCnx.Safe.modifyStream {f : SendStream → SendStream}
    (hf : ∀ s : SendStream, s.Follows [] streamId (f s)) : (c.modifyStream streamId f).Safe [] := by
  have hformats : c.Formats (c.modifyStream streamId f) [] :=
    ⟨SendCnx.Follows.modifyStream c streamId hf, queues_modifyStream c streamId f, by simp⟩
  exact h.formats hformats

end

/-- Data and FIN are queued. -/
theorem SendStream.add_follows (s : SendStream) (streamId : ℕ) (data : List UInt8) (setFin : Bool) :
    s.Follows [] streamId (s.add data setFin) := by
  rw [add]
  by_cases hrefused : (setFin && s.finRequested && !data.isEmpty) = true
  · rw [if_pos hrefused]
    exact SendStream.Follows.refl [] streamId s
  rw [if_neg hrefused]
  dsimp only
  by_cases hdropped : (s.resetSent || s.stopSendingReceived) = true
  · rw [if_pos hdropped]
    exact follows_of_eq rfl rfl ⟨le_rfl, id⟩ (fun _ => Or.inl) id rfl
  rw [if_neg hdropped]
  refine follows_of_eq rfl rfl ⟨le_rfl, id⟩ (fun node hnode => ?_) id rfl
  cases data with
  | nil => exact Or.inl hnode
  | cons b data =>
    rcases List.mem_append.mp hnode with hnode | hnode
    · exact Or.inl hnode
    · rw [List.mem_singleton.mp hnode]
      exact Or.inr (List.cons_ne_nil b data)

/-! ### Runs -/

/-- Preemptive repeats are restricted, and so are the repairs of lost packets. -/
def SendEvent.Complete (c : SendCnx) : SendEvent → Prop
  | .lost i buffer _ =>
    match c.retransmitQueue[i]? with
    | none => True
    | some p => p.willRepeat = true → c.delaysRetransmit p buffer = false → c.MissesNone p
  | .recycled i =>
    match c.retransmitQueue[i]? with
    | none => True
    | some p => p.willRepeat = true → c.MissesNone p
  | .preemptiveRepeat i _ room =>
    match c.retransmitQueue[i]? with
    | none => True
    | some p => c.isPreemptiveRepeatEnabled = true → c.AsksForAll p room
  | _ => True

instance (c : SendCnx) (e : SendEvent) : Decidable (e.Complete c) := by
  unfold SendEvent.Complete
  split
  any_goals split
  all_goals infer_instance

/-- **One event.** -/
theorem SendCnx.Safe.step (h : c.Safe []) (e : SendEvent) (he : e.Complete c) :
    (c.step e).Safe [] := by
  cases e with
  | createStream streamId maxdataRemote isOutputStream =>
    rw [SendCnx.step]
    split_ifs
    · exact h
    · exact h.createStream streamId maxdataRemote isOutputStream
  | addToStream streamId data setFin =>
    exact h.modifyStream fun s => s.add_follows streamId data setFin
  | markActiveStream streamId isActive =>
    refine h.modifyStream fun s => ?_
    split_ifs
    · exact SendStream.Follows.refl [] streamId s
    · exact SendStream.follows_of_eq rfl rfl ⟨le_rfl, id⟩ (fun _ => Or.inl) id rfl
  | resetStream streamId localError =>
    refine h.modifyStream fun s => ?_
    split_ifs
    · exact SendStream.Follows.refl [] streamId s
    · exact SendStream.follows_of_eq rfl rfl ⟨le_rfl, id⟩ (fun _ => Or.inl) id rfl
  | stopSending streamId localError =>
    refine h.modifyStream fun s => ?_
    split_ifs
    · exact SendStream.Follows.refl [] streamId s
    · exact SendStream.follows_of_eq rfl rfl ⟨le_rfl, id⟩ (fun _ => Or.inl) id rfl
  | stopSendingReceived streamId =>
    refine h.modifyStream fun s => ?_
    split_ifs
    · exact SendStream.Follows.refl [] streamId s
    · exact SendStream.follows_of_eq rfl rfl ⟨le_rfl, id⟩ (fun _ => Or.inl) id rfl
  | receiving streamId =>
    rw [SendCnx.step]
    cases hs : c.streams streamId with
    | none => exact h
    | some s =>
      refine h.formats ⟨SendCnx.Follows.deleteStreamIfClosed hs ?_,
        queues_deleteStreamIfClosed c streamId _, by simp⟩
      exact SendStream.follows_of_eq rfl rfl ⟨le_rfl, id⟩ (fun _ => Or.inl) id rfl
  | maxStreamData streamId maxdata =>
    refine h.modifyStream fun s => SendStream.follows_of_eq rfl rfl ⟨le_max_left _ _, fun hs => ?_⟩
      (fun _ => Or.inl) id rfl
    exact max_lt hs maxdata.isLt
  | maxData maxdata =>
    exact h.formats ⟨follows_of_eq rfl rfl rfl, rfl, by simp⟩
  | controlState =>
    exact h.formats ⟨follows_of_eq rfl rfl rfl, rfl, by simp⟩
  | queueMiscFrame frame bytes => exact h.queueMiscFrame frame bytes
  | preparePacket ptype offset capacity fills => exact h.preparePacket ptype offset capacity fills
  | sendProbe isMtuProbe isAckTrap isMultipathProbe frames =>
    exact h.sendProbe isMtuProbe isAckTrap isMultipathProbe frames
  | lost i buffer ackFrame =>
    rw [SendCnx.step]
    cases hp : c.retransmitQueue[i]? with
    | none => exact h
    | some p =>
      rw [SendEvent.Complete, hp] at he
      exact h.retransmitNeededPacket hp buffer ackFrame he
  | recycled i =>
    rw [SendCnx.step]
    cases hp : c.retransmitQueue[i]? with
    | none => exact h
    | some p =>
      rw [SendEvent.Complete, hp] at he
      exact h.recyclePacket hp he
  | preemptiveRepeat i offset room =>
    rw [SendCnx.step]
    cases hp : c.retransmitQueue[i]? with
    | none => exact h
    | some p =>
      rw [SendEvent.Complete, hp] at he
      exact h.preemptiveRetransmit hp offset room he
  | acknowledged i =>
    rw [SendCnx.step]
    cases hp : c.retransmitQueue[i]? with
    | none => exact h
    | some p =>
      dsimp only
      split_ifs
      · exact h
      · exact h.acknowledge hp
  | spuriousLoss i =>
    rw [SendCnx.step]
    cases hp : c.retransmitted[i]? with
    | none => exact h
    | some p =>
      have hack := h.processAckOfFrames fun f hf =>
        h.frames f (Or.inr (Or.inl ⟨p, List.mem_of_getElem? hp, hf⟩))
      exact hack.forget i
  | forgotten i => exact h.forget i

/-- **The invariant of a run.** -/
theorem SendCnx.Safe.initial (clientMode isPreemptiveRepeatEnabled : Bool) (maxdataRemote : ℕ)
    (controlState : ControlState) :
    (SendCnx.initial clientMode isPreemptiveRepeatEnabled maxdataRemote controlState).Safe [] := by
  refine ⟨fun _ s hs => ?_, fun f hf => ?_, by simp, by simp [SendCnx.initial], ⟨?_, ?_, ?_⟩⟩
  · cases hs
  · simp [SendCnx.HasFrame, SendCnx.initial] at hf
  · intro _ s hs
    cases hs
  · intro _ s hs
    cases hs
  · intro f hf
    cases hf

/-- **Nothing is forgotten** in a run in which every preemptive repeat that marks a packet asks
for all frames that would be repeated if the packet were lost, and the callback does not hide a
STREAM, RESET_STREAM or STOP_SENDING frame of a lost packet. -/
theorem nothing_forgotten (clientMode isPreemptiveRepeatEnabled : Bool) (maxdataRemote : ℕ)
    (controlState : ControlState) (evs : List SendEvent)
    (h : Along SendCnx.step (fun c e => e.Complete c)
      (SendCnx.initial clientMode isPreemptiveRepeatEnabled maxdataRemote controlState) evs) :
    (run SendCnx.step (SendCnx.initial clientMode isPreemptiveRepeatEnabled maxdataRemote
      controlState) evs).Remembers (run SendCnx.step (SendCnx.initial clientMode
        isPreemptiveRepeatEnabled maxdataRemote controlState) evs).held := by
  have hsafe := run_invariant_of_along (I := fun c : SendCnx => c.Safe [])
    (P := fun c e => e.Complete c) (fun _ e hc he => SendCnx.Safe.step hc e he)
    (SendCnx.Safe.initial clientMode isPreemptiveRepeatEnabled maxdataRemote controlState) h
  have hremembers := hsafe.remembers
  rwa [List.append_nil] at hremembers

/-- A run in which a packet is repeated early and then lost: streams 0 and 1 share a packet, and
stream 0 is finished in it. -/
def forgettingRun (finishBoth : Bool) : List SendEvent :=
  [.createStream 0 100 true, .createStream 1 100 true,
    .addToStream 0 [1] true, .addToStream 1 [2] finishBoth,
    .preparePacket .oneRttProtected 20 100 [.stream 0 none, .stream 1 none],
    .preemptiveRepeat 0 20 100, .lost 1 ⟨20, 200, 16⟩ []]

theorem nothing_forgotten_sample :
    let c := SendCnx.initial true true 1000 freshControlState
    Along SendCnx.step (fun c e => e.Complete c) c (forgettingRun true) ∧
      (run SendCnx.step c (forgettingRun true)).Remembers
        (run SendCnx.step c (forgettingRun true)).held := by
  intro c
  have h : Along SendCnx.step (fun c e => e.Complete c) c (forgettingRun true) := by decide +kernel
  exact ⟨h, nothing_forgotten true true 1000 freshControlState (forgettingRun true) h⟩

/-- A run without preemptive repeats: the byte of stream 1 is sent behind a DATAGRAM frame, the
packet is lost, and the callback fails. -/
def failingCallbackRun : List SendEvent :=
  [.createStream 1 100 true, .addToStream 1 [2] false,
    .preparePacket .oneRttProtected 20 100
      [.control (.datagram (-1)) [0x31, 1, 7], .stream 1 none],
    .lost 0 ⟨20, 200, 16⟩ []]

/-- The first byte of a stream is not retained if nothing is acknowledged and no frame of the
stream is held. -/
theorem not_retained {held : List Frame} (hheld : c.held = held)
    (hother : ∀ f, Frame.stream f ∈ held → f.streamId ≠ streamId) (hmap : (c.streams streamId).map
      (fun s => (s.resetSent, s.sentOffset, s.sackList.ackTree.length)) = some (false, 1, 0)) :
    (∃ s, c.streams streamId = some s ∧ s.resetSent = false ∧ s.sentOffset = 1 ∧
      ¬ Retained c.held streamId s (.byte 0)) ∧ ¬ c.Remembers c.held := by
  obtain ⟨s, hs, hfields⟩ := Option.map_eq_some_iff.mp hmap
  simp only [Prod.mk.injEq, List.length_eq_zero_iff] at hfields
  obtain ⟨hreset, hoffset, hempty⟩ := hfields
  have hlost : ¬ Retained c.held streamId s (.byte 0) := by
    rintro (hcov | ⟨f, hf, hid, -⟩)
    · rw [hempty] at hcov
      exact RangeList.covers_nil hcov
    · exact hother f (hheld ▸ hf) hid
  exact ⟨⟨s, hs, hreset, hoffset, hlost⟩, fun h => hlost (h.data streamId s hs hreset 0 (by omega))⟩

/-- With stream 1 open, its byte is in no packet and in no queue any more. Nor is it after the
callback failed. -/
theorem data_forgotten :
    let c := run SendCnx.step (SendCnx.initial true true 1000 freshControlState)
      (forgettingRun false)
    let c' := run SendCnx.step (SendCnx.initial true false 1000 freshControlState)
      failingCallbackRun
    (c.held = [.stream ⟨0, 0, [1], true, true⟩] ∧
      (∃ s, c.streams 1 = some s ∧ s.resetSent = false ∧ s.sentOffset = 1 ∧
        ¬ Retained c.held 1 s (.byte 0)) ∧ ¬ c.Remembers c.held) ∧
    (c'.held = [] ∧
      (∃ s, c'.streams 1 = some s ∧ s.resetSent = false ∧ s.sentOffset = 1 ∧
        ¬ Retained c'.held 1 s (.byte 0)) ∧ ¬ c'.Remembers c'.held) := by
  intro c c'
  have hheld : c.held = [.stream ⟨0, 0, [1], true, true⟩] := by decide +kernel
  have hheld' : c'.held = [] := by decide +kernel
  have hother : ∀ f, Frame.stream f ∈ [Frame.stream ⟨0, 0, [1], true, true⟩] →
      f.streamId ≠ 1 := by
    intro f hf
    rw [List.mem_singleton, Frame.stream.injEq] at hf
    simp [hf]
  exact ⟨⟨hheld, not_retained hheld hother (by decide +kernel)⟩, hheld',
    not_retained hheld' (by simp) (by decide +kernel)⟩

end Picoquic
