import Picoquic.Sender.Repeat

/-!
# The repair of lost packets

`picoquic_copy_before_retransmit` saves the frames of a lost packet that have to be repeated.

* **`SendCnx.copyBeforeRetransmit_saves`** — each of them that is reached goes to exactly one
  place: the new packet, the queue of STREAM frames, or the queue of misc frames; nothing else
  goes there;
* **`lost_packet_repair`** — when all of them are saved, and the new packet fits its buffer. The
  loop ends at a DATAGRAM frame for which the callback returns an error, and what stands behind it
  goes nowhere. The frames of 0-RTT and 1-RTT packets are only copied where there is room. Those of
  Initial and Handshake packets are always copied: they came from a packet that is not longer than
  the buffer, but the new one needs room for its checksum as well, and its header may be longer.
-/

namespace Picoquic

open SendCnx

/-! ### Where the frames go -/

/-- The frames of a packet that have to be repeated when it is lost. -/
def SendCnx.neededFrames (c : SendCnx) (p : SentPacket) : List Frame :=
  p.frames.filter (c.needsRepeat p.ptype false)

/-- Those of them that the loop of `picoquic_copy_before_retransmit` comes to. -/
def SendCnx.reachedNeeded (c : SendCnx) (p : SentPacket) : List Frame :=
  (reachedFrames p.frames).filter (c.needsRepeat p.ptype false)

/-- The frames that the loop of `picoquic_copy_before_retransmit` does not come to. -/
def unreachedFrames : List Frame → List Frame
  | [] => []
  | f :: frames => if f.lostResult = 0 then unreachedFrames frames else frames

/-- The frames of a packet that have to be repeated and stand behind a DATAGRAM frame for which the
callback returns an error. -/
def SendCnx.missedFrames (c : SendCnx) (p : SentPacket) : List Frame :=
  (unreachedFrames p.frames).filter (c.needsRepeat p.ptype false)

/-- The connection after STREAM frames and misc frames were queued. -/
def SendCnx.queueFrames (c : SendCnx) (resend : List StreamFrame) (misc : List Frame) : SendCnx :=
  { c with
    streamFrameRetransmitQueue := c.streamFrameRetransmitQueue ++ resend
    miscFrames := c.miscFrames ++ misc }

/-- Between the two connections the frames `needed` were saved, each exactly once: those in
`copied` elsewhere, and the others at the ends of the two queues. -/
def SendCnx.Saves (c c' : SendCnx) (copied needed : List Frame) : Prop :=
  ∃ resend misc, c' = c.queueFrames resend misc ∧
    (copied ++ resend.map Frame.stream ++ misc).Perm needed

/-- What some rounds of the loop did, in terms of the frames they copied and queued. -/
structure Placed (r r' : SendCnx × Repair) (copied : List Frame) (resend : List StreamFrame)
    (misc : List Frame) : Prop where
  cnx_eq : r'.1 = r.1.queueFrames resend misc
  copied_eq : r'.2.copied = r.2.copied ++ copied
  length_eq : r'.2.length = r.2.length + framesLength copied
  pureAck_eq : r'.2.packetIsPureAck =
    (r.2.packetIsPureAck && (copied ++ resend.map Frame.stream ++ misc).isEmpty)

private theorem reachedFrames_append_unreachedFrames (frames : List Frame) :
    reachedFrames frames ++ unreachedFrames frames = frames := by
  induction frames with
  | nil => rfl
  | cons f frames ih =>
    rw [reachedFrames, unreachedFrames]
    split_ifs
    · rw [List.cons_append, ih]
    · rfl

/-- The frames that have to be repeated are those that are saved and those that are missed. -/
theorem SendCnx.reachedNeeded_append_missedFrames (c : SendCnx) (p : SentPacket) :
    c.reachedNeeded p ++ c.missedFrames p = c.neededFrames p := by
  rw [reachedNeeded, missedFrames, ← List.filter_append, reachedFrames_append_unreachedFrames]
  rfl

variable {p : SentPacket} {c : SendCnx} {f : Frame} {ptype : PacketType} {r : SendCnx × Repair}
  {b : RetransmitBuffer}

private theorem SendCnx.reachedNeeded_eq (h : c.missedFrames p = []) :
    c.reachedNeeded p = c.neededFrames p := by
  rw [← c.reachedNeeded_append_missedFrames p, h, List.append_nil]

theorem mem_of_mem_reachedNeeded (hf : f ∈ c.reachedNeeded p) : f ∈ p.frames := by
  have hneeded : f ∈ c.neededFrames p := by
    rw [← c.reachedNeeded_append_missedFrames p]
    exact List.mem_append_left _ hf
  exact (List.mem_filter.mp hneeded).1

theorem framesLength_append (l l' : List Frame) :
    framesLength (l ++ l') = framesLength l + framesLength l' := by
  simp [framesLength]

@[simp]
theorem framesLength_nil : framesLength [] = 0 := rfl

@[simp]
theorem framesLength_singleton (f : Frame) : framesLength [f] = f.length := by
  simp [framesLength]

theorem SendCnx.queueFrames_nil (c : SendCnx) : c.queueFrames [] [] = c := by
  simp [queueFrames]

private theorem SendCnx.queueFrames_queueFrames (c : SendCnx) (resend resend' : List StreamFrame)
    (misc misc' : List Frame) : (c.queueFrames resend misc).queueFrames resend' misc' =
      c.queueFrames (resend ++ resend') (misc ++ misc') := by
  simp [queueFrames]

private theorem SendCnx.needsRepeat_queueFrames (c : SendCnx) (resend : List StreamFrame)
    (misc : List Frame) (ptype : PacketType) (isPreemptive : Bool) :
    (c.queueFrames resend misc).needsRepeat ptype isPreemptive =
      c.needsRepeat ptype isPreemptive := by
  funext f
  cases f <;> rfl

private theorem Placed.refl (r : SendCnx × Repair) : Placed r r [] [] [] := by
  constructor <;> simp [queueFrames_nil]

private theorem Placed.trans {r r' r'' : SendCnx × Repair} {copied copied' : List Frame}
    {resend resend' : List StreamFrame} {misc misc' : List Frame}
    (h : Placed r r' copied resend misc) (h' : Placed r' r'' copied' resend' misc') :
    Placed r r'' (copied ++ copied') (resend ++ resend') (misc ++ misc') where
  cnx_eq := by rw [h'.cnx_eq, h.cnx_eq, queueFrames_queueFrames]
  copied_eq := by rw [h'.copied_eq, h.copied_eq, List.append_assoc]
  length_eq := by rw [h'.length_eq, h.length_eq, framesLength_append, Nat.add_assoc]
  pureAck_eq := by
    rw [h'.pureAck_eq, h.pureAck_eq, Bool.and_assoc, Bool.eq_iff_iff]
    simp only [Bool.and_eq_true, List.isEmpty_iff, List.append_eq_nil_iff, List.map_append,
      List.map_eq_nil_iff]
    tauto

/-- A STREAM frame. -/
def Frame.isStream : Frame → Bool
  | .stream _ => true
  | _ => false

/-- A frame that needs no repeat goes nowhere. -/
theorem copyFrame_of_not_needed (hn : r.1.needsRepeat ptype false f = false) (limit : ℕ)
    (forceQueue : Bool) : Placed r (copyFrame ptype limit forceQueue r f) [] [] [] := by
  obtain ⟨c, repair⟩ := r
  have h : copyFrame ptype limit forceQueue (c, repair) f =
      (c, { repair with doNotDetectSpurious := repair.doNotDetectSpurious && !f.isDatagram }) := by
    simp only [copyFrame, hn, Bool.false_eq_true, if_false]
  rw [h]
  constructor <;> simp [queueFrames_nil]

private theorem copyFrame_stream {g : StreamFrame}
    (hn : r.1.needsRepeat ptype false (.stream g) = true) (limit : ℕ) (forceQueue : Bool) :
    Placed r (copyFrame ptype limit forceQueue r (.stream g)) [] [g] [] := by
  constructor <;> simp [copyFrame, hn, queueFrames]

variable {limit : ℕ} {forceQueue : Bool}

/-- Another frame that has to be repeated is queued if there is no room, in a 0-RTT or 1-RTT
packet. -/
theorem copyFrame_misc (hn : r.1.needsRepeat ptype false f = true) (hf : f.isStream = false)
    (hq : ((forceQueue || decide (sub64 limit r.2.length < f.length)) && ptype.isApplication)
      = true) : Placed r (copyFrame ptype limit forceQueue r f) [] [] [f] := by
  cases f with
  | stream g => cases hf
  | _ => constructor <;> simp only [copyFrame, hn, hq, if_true] <;> simp [queueFrames]

/-- Another frame that has to be repeated is copied otherwise. -/
theorem copyFrame_copy (hn : r.1.needsRepeat ptype false f = true) (hf : f.isStream = false)
    (hq : ((forceQueue || decide (sub64 limit r.2.length < f.length)) && ptype.isApplication)
      = false) : Placed r (copyFrame ptype limit forceQueue r f) [f] [] [] := by
  cases f with
  | stream g => cases hf
  | _ =>
    constructor <;> simp only [copyFrame, hn, hq, if_true, Bool.false_eq_true, if_false] <;>
      simp [queueFrames_nil]

/-- One round, whatever the frame. -/
theorem copyFrame_spec (ptype : PacketType) (limit : ℕ) (forceQueue : Bool)
    (r : SendCnx × Repair) (f : Frame) :
    ∃ copied resend misc, Placed r (copyFrame ptype limit forceQueue r f) copied resend misc ∧
      copied ++ resend.map Frame.stream ++ misc = [f].filter (r.1.needsRepeat ptype false) ∧
      (∀ g ∈ copied, g.isStream = false ∧ (forceQueue && ptype.isApplication) = false) := by
  by_cases hn : r.1.needsRepeat ptype false f = true
  swap
  · rw [Bool.not_eq_true] at hn
    exact ⟨[], [], [], copyFrame_of_not_needed hn limit forceQueue, by simp [hn], by simp⟩
  by_cases hf : f.isStream = true
  · cases f with
    | stream g => exact ⟨[], [g], [], copyFrame_stream hn limit forceQueue, by simp [hn], by simp⟩
    | _ => cases hf
  rw [Bool.not_eq_true] at hf
  cases hq : (forceQueue || decide (sub64 limit r.2.length < f.length)) && ptype.isApplication with
  | true => exact ⟨[], [], [f], copyFrame_misc hn hf hq, by simp [hn], by simp⟩
  | false =>
    refine ⟨[f], [], [], copyFrame_copy hn hf hq, by simp [hn], ?_⟩
    intro g hg
    rw [List.mem_singleton.mp hg]
    exact ⟨hf, by cases forceQueue <;> simp_all⟩

/-- The whole loop. -/
theorem copyFrames_spec (ptype : PacketType) (limit : ℕ) (forceQueue : Bool)
    (r : SendCnx × Repair) (frames : List Frame) :
    ∃ copied resend misc,
      Placed r (frames.foldl (copyFrame ptype limit forceQueue) r) copied resend misc ∧
      (copied ++ resend.map Frame.stream ++ misc).Perm
        (frames.filter (r.1.needsRepeat ptype false)) ∧
      (∀ g ∈ copied, g.isStream = false ∧ (forceQueue && ptype.isApplication) = false) := by
  induction frames generalizing r with
  | nil => exact ⟨[], [], [], Placed.refl r, List.Perm.refl _, by simp⟩
  | cons f frames ih =>
    obtain ⟨copied, resend, misc, h, hall, hcopied⟩ := copyFrame_spec ptype limit forceQueue r f
    obtain ⟨copied', resend', misc', h', hall', hcopied'⟩ :=
      ih (copyFrame ptype limit forceQueue r f)
    refine ⟨copied ++ copied', resend ++ resend', misc ++ misc', h.trans h', ?_, ?_⟩
    · rw [h.cnx_eq, needsRepeat_queueFrames] at hall'
      have hsplit : (f :: frames).filter (r.1.needsRepeat ptype false) =
          (copied ++ resend.map Frame.stream ++ misc) ++
            frames.filter (r.1.needsRepeat ptype false) := by
        rw [hall, ← List.filter_append, List.singleton_append]
      rw [hsplit, List.perm_iff_count]
      intro a
      have hcount := List.perm_iff_count.mp hall' a
      simp only [List.map_append, List.count_append] at hcount ⊢
      omega
    · intro g hg
      rcases List.mem_append.mp hg with hg | hg
      · exact hcopied g hg
      · exact hcopied' g hg

private theorem copyBeforeRetransmit_of_willRepeat (c : SendCnx) (hp : p.willRepeat = true)
    (limit : ℕ) (forceQueue : Bool) (repair : Repair) :
    c.copyBeforeRetransmit p limit forceQueue repair =
      (reachedFrames p.frames).foldl (copyFrame p.ptype limit forceQueue) (c, repair) := by
  simp only [SentPacket.willRepeat, Bool.and_eq_true, Bool.not_eq_true'] at hp
  obtain ⟨⟨⟨hmtu, htrap⟩, hmultipath⟩, hmarked⟩ := hp
  simp only [copyBeforeRetransmit, hmtu, htrap, hmultipath, hmarked, Bool.false_eq_true, if_false]

/-- **The frames of a lost packet that are reached and have to be repeated are saved**, each in one
place, and no others are. -/
theorem SendCnx.copyBeforeRetransmit_saves (c : SendCnx) (hp : p.willRepeat = true) (limit : ℕ)
    (forceQueue : Bool) {repair : Repair} (hr : repair.copied = []) :
    c.Saves (c.copyBeforeRetransmit p limit forceQueue repair).1
      (c.copyBeforeRetransmit p limit forceQueue repair).2.copied (c.reachedNeeded p) := by
  rw [copyBeforeRetransmit_of_willRepeat c hp]
  obtain ⟨copied, resend, misc, h, hall, -⟩ :=
    copyFrames_spec p.ptype limit forceQueue (c, repair) (reachedFrames p.frames)
  refine ⟨resend, misc, h.cnx_eq, ?_⟩
  rw [h.copied_eq, hr, List.nil_append]
  exact hall

/-- A packet that is recycled is saved in the queues alone. -/
theorem SendCnx.recycled_saves (c : SendCnx) (hp : p.willRepeat = true)
    (ht : p.ptype = .oneRttProtected) (limit : ℕ) (repair : Repair) :
    c.Saves (c.copyBeforeRetransmit p limit true repair).1 [] (c.reachedNeeded p) := by
  rw [copyBeforeRetransmit_of_willRepeat c hp]
  obtain ⟨copied, resend, misc, h, hall, hcopied⟩ :=
    copyFrames_spec p.ptype limit true (c, repair) (reachedFrames p.frames)
  have hnil : copied = [] := by
    rw [List.eq_nil_iff_forall_not_mem]
    intro g hg
    have := (hcopied g hg).2
    simp [ht, PacketType.isApplication] at this
  rw [hnil] at hall
  exact ⟨resend, misc, h.cnx_eq, hall⟩

/-- What was saved is determined by the two connections: if one list of frames was saved, the
other was not unless it has as many frames. -/
theorem SendCnx.Saves.length_eq {c c' : SendCnx} {copied needed needed' : List Frame}
    (h : c.Saves c' copied needed) (h' : c.Saves c' copied needed') :
    needed.length = needed'.length := by
  obtain ⟨resend, misc, hc, hperm⟩ := h
  obtain ⟨resend', misc', hc', hperm'⟩ := h'
  rw [hc] at hc'
  have hresend : resend = resend' :=
    List.append_cancel_left (congrArg streamFrameRetransmitQueue hc')
  have hmisc : misc = misc' := List.append_cancel_left (congrArg miscFrames hc')
  rw [← hperm.length_eq, ← hperm'.length_eq, hresend, hmisc]

/-- All frames that have to be repeated are saved if and only if none is missed. -/
theorem SendCnx.Saves.neededFrames_iff {c c' : SendCnx} {copied : List Frame}
    (h : c.Saves c' copied (c.reachedNeeded p)) :
    c.Saves c' copied (c.neededFrames p) ↔ c.missedFrames p = [] := by
  constructor
  · intro hall
    have hlength := hall.length_eq h
    rw [← c.reachedNeeded_append_missedFrames p, List.length_append] at hlength
    exact List.eq_nil_of_length_eq_zero (by omega)
  · intro hnone
    rwa [← reachedNeeded_eq hnone]

/-! ### The length of the new packet -/

/-- The frames of a lost packet that have to be repeated and are no STREAM frames. -/
def SendCnx.neededControl (c : SendCnx) (p : SentPacket) : List Frame :=
  (c.neededFrames p).filter fun f => !f.isStream

private theorem le_length_foldl_copyFrame (ptype : PacketType) (limit : ℕ) (forceQueue : Bool)
    (r : SendCnx × Repair) (frames : List Frame) :
    r.2.length ≤ (frames.foldl (copyFrame ptype limit forceQueue) r).2.length := by
  obtain ⟨copied, resend, misc, h, -, -⟩ := copyFrames_spec ptype limit forceQueue r frames
  rw [h.length_eq]
  omega

/-- In a 0-RTT or 1-RTT packet only what fits is copied. -/
theorem length_le_of_isApplication (ht : ptype.isApplication = true) (hlimit : limit < 2 ^ 64)
    (hr : r.2.length ≤ limit) (frames : List Frame) :
    (frames.foldl (copyFrame ptype limit false) r).2.length ≤ limit := by
  induction frames generalizing r with
  | nil => exact hr
  | cons f frames ih =>
    refine ih ?_
    by_cases hn : r.1.needsRepeat ptype false f = true
    swap
    · rw [Bool.not_eq_true] at hn
      rw [(copyFrame_of_not_needed hn limit false).length_eq]
      exact hr
    by_cases hf : f.isStream = true
    · cases f with
      | stream g =>
        rw [(copyFrame_stream hn limit false).length_eq]
        exact hr
      | _ => cases hf
    rw [Bool.not_eq_true] at hf
    by_cases hroom : sub64 limit r.2.length < f.length
    · rw [(copyFrame_misc hn hf (by simp [hroom, ht])).length_eq]
      exact hr
    · rw [(copyFrame_copy hn hf (by simp [hroom])).length_eq, framesLength_singleton]
      rw [sub64_of_le hr hlimit] at hroom
      omega

/-- In another packet every frame that is no STREAM frame is copied. -/
theorem copied_of_not_isApplication (ht : ptype.isApplication = false) (limit : ℕ)
    (r : SendCnx × Repair) (frames : List Frame) :
    (frames.foldl (copyFrame ptype limit false) r).2.copied = r.2.copied ++
      (frames.filter (r.1.needsRepeat ptype false)).filter fun f => !f.isStream := by
  induction frames generalizing r with
  | nil => simp
  | cons f frames ih =>
    rw [List.foldl_cons, ih]
    by_cases hn : r.1.needsRepeat ptype false f = true
    swap
    · rw [Bool.not_eq_true] at hn
      have h := copyFrame_of_not_needed hn limit false
      simp [h.copied_eq, h.cnx_eq, needsRepeat_queueFrames, hn]
    by_cases hf : f.isStream = true
    · cases f with
      | stream g =>
        have h := copyFrame_stream hn limit false
        simp [h.copied_eq, h.cnx_eq, needsRepeat_queueFrames, hn, Frame.isStream]
      | _ => cases hf
    rw [Bool.not_eq_true] at hf
    have h := copyFrame_copy hn hf
      (show ((false || decide (sub64 limit r.2.length < f.length)) && ptype.isApplication) =
        false by simp [ht])
    simp [h.copied_eq, h.cnx_eq, needsRepeat_queueFrames, hn, hf]

/-- The call of `picoquic_copy_before_retransmit` starts behind the header. -/
def RetransmitBuffer.start (b : RetransmitBuffer) : Repair := ⟨[], b.headerLength, true, true⟩

/-- A sound repair: the frames that have to be repeated are saved, no subtraction of sizes goes
below zero, and a new packet leaves room for its checksum. -/
structure SendCnx.SoundRepair (c : SendCnx) (p : SentPacket) (b : RetransmitBuffer) : Prop where
  saves : c.Saves (c.repairPacket p b).1 (c.repairPacket p b).2.copied (c.neededFrames p)
  checksum : b.checksumLength ≤ b.sendBufferMax
  room : ∀ pre f post, reachedFrames p.frames = pre ++ f :: post → f ∈ c.neededControl p →
    (pre.foldl (copyFrame p.ptype b.limit false) (c, b.start)).2.length ≤ b.limit
  fits : (c.repairPacket p b).2.copied ≠ [] →
    (c.repairPacket p b).2.length + b.checksumLength ≤ b.sendBufferMax

/-- There is room for the header, the frames that are copied whether they fit or not, and the
checksum. -/
def SendCnx.HasRepairRoom (c : SendCnx) (p : SentPacket) (b : RetransmitBuffer) : Prop :=
  b.checksumLength ≤ b.sendBufferMax ∧
    (c.neededControl p = [] ∨
      b.headerLength + (if p.ptype.isApplication then 0 else framesLength (c.neededControl p)) +
        b.checksumLength ≤ b.sendBufferMax)

instance (c : SendCnx) (p : SentPacket) (b : RetransmitBuffer) : Decidable (c.HasRepairRoom p b) :=
  inferInstanceAs (Decidable (_ ∧ _))

theorem repairPacket_eq (c : SendCnx) (hp : p.willRepeat = true) (b : RetransmitBuffer) :
    c.repairPacket p b =
      (reachedFrames p.frames).foldl (copyFrame p.ptype b.limit false) (c, b.start) :=
  copyBeforeRetransmit_of_willRepeat c hp b.limit false b.start

private theorem RetransmitBuffer.limit_eq (h : b.checksumLength ≤ b.sendBufferMax) :
    b.limit = b.sendBufferMax - b.checksumLength :=
  sub64_of_le h b.sendBufferMax.isLt

theorem length_foldl_copyFrame (c : SendCnx) (p : SentPacket) (b : RetransmitBuffer)
    (frames : List Frame) :
    (frames.foldl (copyFrame p.ptype b.limit false) (c, b.start)).2.length = b.headerLength +
      framesLength (frames.foldl (copyFrame p.ptype b.limit false) (c, b.start)).2.copied := by
  obtain ⟨copied, resend, misc, h, -, -⟩ :=
    copyFrames_spec p.ptype b.limit false (c, b.start) frames
  rw [h.length_eq, h.copied_eq]
  simp [RetransmitBuffer.start]

/-- What is copied has to be repeated, and is no STREAM frame. -/
theorem mem_neededControl_of_copied (hp : p.willRepeat = true)
    (hf : f ∈ (c.repairPacket p b).2.copied) : f ∈ c.neededControl p := by
  rw [repairPacket_eq c hp] at hf
  obtain ⟨copied, resend, misc, h, hall, hcopied⟩ :=
    copyFrames_spec p.ptype b.limit false (c, b.start) (reachedFrames p.frames)
  rw [h.copied_eq] at hf
  have hf' : f ∈ copied := by simpa [RetransmitBuffer.start] using hf
  have hreached : f ∈ c.reachedNeeded p := hall.subset (by simp [hf'])
  refine List.mem_filter.mpr ⟨?_, by simp [(hcopied f hf').1]⟩
  rw [← c.reachedNeeded_append_missedFrames p]
  exact List.mem_append_left _ hreached

private theorem SendCnx.SoundRepair.missedFrames (hp : p.willRepeat = true)
    (h : c.SoundRepair p b) :
    c.missedFrames p = [] :=
  (c.copyBeforeRetransmit_saves hp b.limit false rfl).neededFrames_iff.mp h.saves

/-- If no frame is missed, those that are reached and have to be repeated are all. -/
theorem SendCnx.neededControl_eq (h : c.missedFrames p = []) :
    c.neededControl p =
      ((reachedFrames p.frames).filter (c.needsRepeat p.ptype false)).filter fun f =>
        !f.isStream := by
  rw [neededControl, ← reachedNeeded_eq h]
  rfl

private theorem SendCnx.SoundRepair.hasRepairRoom (hp : p.willRepeat = true)
    (h : c.SoundRepair p b) :
    c.HasRepairRoom p b := by
  have hmissed := h.missedFrames hp
  refine ⟨h.checksum, ?_⟩
  by_cases hnil : c.neededControl p = []
  · exact Or.inl hnil
  right
  obtain ⟨f, hf⟩ := List.exists_mem_of_ne_nil _ hnil
  have hfr : f ∈ reachedFrames p.frames := by
    rw [neededControl_eq hmissed] at hf
    exact (List.mem_filter.mp (List.mem_filter.mp hf).1).1
  obtain ⟨pre, post, hsplit⟩ := List.append_of_mem hfr
  have hroom := h.room pre f post hsplit hf
  have hle := le_length_foldl_copyFrame p.ptype b.limit false (c, b.start) pre
  rw [RetransmitBuffer.limit_eq h.checksum] at hroom hle
  change b.headerLength ≤ _ at hle
  have hchecksum := h.checksum
  cases ht : p.ptype.isApplication with
  | true =>
    simp only [if_true]
    omega
  | false =>
    -- everything is copied, so the new packet is as long as that
    have hcopied : (c.repairPacket p b).2.copied = c.neededControl p := by
      rw [repairPacket_eq c hp, neededControl_eq hmissed]
      exact copied_of_not_isApplication ht b.limit (c, b.start) (reachedFrames p.frames)
    have hfits := h.fits (hcopied ▸ hnil)
    have hlength : (c.repairPacket p b).2.length =
        b.headerLength + framesLength (c.repairPacket p b).2.copied := by
      rw [repairPacket_eq c hp]
      exact length_foldl_copyFrame c p b (reachedFrames p.frames)
    rw [hlength, hcopied] at hfits
    simpa using hfits

private theorem SendCnx.HasRepairRoom.soundRepair (hp : p.willRepeat = true)
    (h : c.HasRepairRoom p b) (hmissed : c.missedFrames p = []) : c.SoundRepair p b := by
  obtain ⟨hchecksum, hroom⟩ := h
  have hlimit := RetransmitBuffer.limit_eq hchecksum
  have hlt := b.sendBufferMax.isLt
  have hbound : c.neededControl p ≠ [] → ∀ pre post, reachedFrames p.frames = pre ++ post →
      (pre.foldl (copyFrame p.ptype b.limit false) (c, b.start)).2.length ≤ b.limit := by
    intro hne pre post hsplit
    replace hroom := hroom.resolve_left hne
    cases ht : p.ptype.isApplication with
    | true =>
      refine length_le_of_isApplication ht (by omega) ?_ pre
      change b.headerLength ≤ b.limit
      simp only [ht, if_true] at hroom
      omega
    | false =>
      simp only [ht, Bool.false_eq_true, if_false] at hroom
      have hcopied := copied_of_not_isApplication ht b.limit (c, b.start) pre
      rw [length_foldl_copyFrame, hcopied]
      change b.headerLength + framesLength ([] ++
        (pre.filter (c.needsRepeat p.ptype false)).filter fun f => !f.isStream) ≤ _
      have hneeded : c.neededControl p =
          ((pre.filter (c.needsRepeat p.ptype false)).filter fun f => !f.isStream) ++
            ((post.filter (c.needsRepeat p.ptype false)).filter fun f => !f.isStream) := by
        rw [neededControl_eq hmissed, hsplit, List.filter_append, List.filter_append]
      rw [hneeded, framesLength_append] at hroom
      rw [List.nil_append]
      omega
  have hsaves : c.Saves (c.repairPacket p b).1 (c.repairPacket p b).2.copied (c.reachedNeeded p) :=
    c.copyBeforeRetransmit_saves hp b.limit false rfl
  refine ⟨hsaves.neededFrames_iff.mpr hmissed, hchecksum, ?_, ?_⟩
  · intro pre f post hsplit hf
    exact hbound (List.ne_nil_of_mem hf) pre (f :: post) hsplit
  · intro hne
    obtain ⟨f, hf⟩ := List.exists_mem_of_ne_nil _ hne
    have hle := hbound (List.ne_nil_of_mem (mem_neededControl_of_copied hp hf))
      (reachedFrames p.frames) [] (List.append_nil _).symm
    rw [repairPacket_eq c hp]
    omega

/-- **When the repair of a lost packet is sound**: exactly when no frame is missed, and there is
room for what is copied without a look at the room. Where a connection ID is removed there is no
new packet, and the first is enough. -/
theorem lost_packet_repair (c : SendCnx) (p : SentPacket) (hp : p.willRepeat = true) :
    (∀ b, c.SoundRepair p b ↔ c.missedFrames p = [] ∧ c.HasRepairRoom p b) ∧
      (p.ptype = .oneRttProtected →
        (c.Saves (c.copyBeforeRetransmit p 0 true ⟨[], 0, false, false⟩).1 [] (c.neededFrames p) ↔
          c.missedFrames p = [])) :=
  ⟨fun _ => ⟨fun h => ⟨h.missedFrames hp, h.hasRepairRoom hp⟩, fun h => h.2.soundRepair hp h.1⟩,
    fun ht => (c.recycled_saves hp ht 0 _).neededFrames_iff⟩

/-- Nothing was acknowledged yet. -/
def freshControlState : ControlState :=
  ⟨0, 0, fun _ => 0, fun _ => 0, fun _ => 0, fun _ => false, false, false, false, 0,
    fun _ => some sackListInit, [], []⟩

/-- A Handshake packet of 1186 bytes. -/
def longHandshakePacket : SentPacket :=
  .plain .handshake 40 [.control (.cryptoHs 0 1141) (List.replicate 1146 0)]

/-- It was sent behind an Initial packet, and is repeated behind one that is ten bytes longer. -/
def tightBuffer : RetransmitBuffer := ⟨40, 1192, 16⟩

theorem lost_packet_repair_sample :
    let c := initial false false 0 freshControlState
    longHandshakePacket.willRepeat = true ∧
      (c.SoundRepair longHandshakePacket ⟨40, 1202, 16⟩ ↔
        c.missedFrames longHandshakePacket = [] ∧
          c.HasRepairRoom longHandshakePacket ⟨40, 1202, 16⟩) := by
  intro c
  have hp : longHandshakePacket.willRepeat = true := rfl
  exact ⟨hp, (lost_packet_repair c longHandshakePacket hp).1 ⟨40, 1202, 16⟩⟩

/-- A packet with a DATAGRAM and a HANDSHAKE_DONE frame. The callback fails for the former. -/
def reportedPacket : SentPacket :=
  .plain .oneRttProtected 20
    [.control (.datagram (-1)) [0x31, 1, 7], .control .handshakeDone [0x1e]]

/-- The retransmission accepts the buffer, and the new packet is ten bytes too long for it. Where
the callback fails, the frame behind the DATAGRAM frame is in no packet and in no queue. -/
theorem long_repair :
    let c := initial false false 0 freshControlState
    longHandshakePacket.willRepeat = true ∧
      c.delaysRetransmit longHandshakePacket tightBuffer = false ∧
      (c.repairPacket longHandshakePacket tightBuffer).2.length = 1186 ∧
      ¬ c.SoundRepair longHandshakePacket tightBuffer ∧
      reportedPacket.willRepeat = true ∧
      c.neededFrames reportedPacket = [.control .handshakeDone [0x1e]] ∧
      (c.repairPacket reportedPacket ⟨20, 1200, 16⟩).2.copied = [] ∧
      (c.repairPacket reportedPacket ⟨20, 1200, 16⟩).1.miscFrames = [] ∧
      ¬ c.SoundRepair reportedPacket ⟨20, 1200, 16⟩ := by
  refine ⟨rfl, by decide +kernel, by decide +kernel, fun h => ?_, rfl, by decide +kernel,
    by decide +kernel, by decide +kernel, fun h => ?_⟩
  · exact absurd (h.fits (by decide +kernel)) (by decide +kernel)
  · exact absurd (h.missedFrames rfl) (by decide +kernel)

end Picoquic
