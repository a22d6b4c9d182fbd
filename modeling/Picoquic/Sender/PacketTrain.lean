import Mathlib.Data.Nat.Find
import Mathlib.Order.Lattice
import Picoquic.Basic
import Picoquic.ForMathlib.Runs

/-!
# Packet trains

`picoquic_prepare_packet_ex` fills a send buffer with a train of packets of the same size, each made
of one or several segments. The two loops are a machine here: a step is a call of
`picoquic_prepare_segment`, with what the loops do until the next call.

* **`TrainCall.step`** — one segment, **`TrainCall.endPacket`** — what follows the last segment of
  a packet;
* **`TrainCall.Fits`** — what `picoquic_prepare_segment` promises;
* **`packet_train_iff`** — when the call returns with a train that fits the buffer.

Lengths are far below 2^64, so that sums do not wrap; the room that is left is a difference and may
wrap.
-/

namespace Picoquic

open Runs

/-- `PICOQUIC_ENFORCED_INITIAL_MTU`, the smallest send buffer. -/
def sendBufferMin : ℕ := 1200

/-- `PICOQUIC_MIN_SEGMENT_SIZE`, the room that another segment needs. -/
def coalescedSegmentMin : ℕ := 256

/-! ### The two loops -/

/-- What comes of a segment. -/
inductive PreparedSegment
  /-- `picoquic_create_packet` finds no memory. -/
  | noMemory
  /-- `picoquic_prepare_segment` returns an error. -/
  | failed
  /-- A segment of `length` bytes; whether `packet->length` is zero, and whether the packet is one
  of 1-RTT. -/
  | prepared (length : ℕ) (isEmpty isOneRtt : Bool)

/-- What comes of a segment, and the MTU of the path after it. -/
structure SegmentCall where
  result : PreparedSegment
  sendMtu : ℕ

/-- The arguments of the call that stay. -/
structure TrainCall where
  sendBufferMax : ℕ
  /-- The argument `send_msg_size` is not `NULL`. -/
  hasMsgSize : Bool
  dontCoalesceInit : Bool

/-- Where the call is: in the loops, back, or at an `abort()`. -/
inductive TrainStatus
  | running
  | returned
  | aborted
  deriving DecidableEq

/-- The variables of the loops. -/
structure PacketTrain where
  status : TrainStatus
  sendMtu : ℕ
  /-- `*send_length`. -/
  sendLength : ℕ
  /-- `*send_msg_size`. -/
  sendMsgSize : ℕ
  packetSize : ℕ
  packetMax : ℕ
  /-- The lengths of the packets so far, in the order of the buffer. -/
  packets : List ℕ

/-- The space offered to the next segment. -/
def PacketTrain.available (s : PacketTrain) : ℕ :=
  if 0 < s.packetSize then s.sendMtu - s.packetSize else s.packetMax

/-- The bytes of a packet are accounted for. -/
def PacketTrain.account (s : PacketTrain) : PacketTrain :=
  { s with
    sendLength := s.sendLength + s.packetSize
    packets := if 0 < s.packetSize then s.packets ++ [s.packetSize] else s.packets }

namespace TrainCall

variable (c : TrainCall)

/-- A new packet. Consecutive packets should not be larger than the first packet. -/
def startPacket (s : PacketTrain) : PacketTrain :=
  let room := sub64 c.sendBufferMax s.sendLength
  { s with
    packetSize := 0
    packetMax :=
      if c.hasMsgSize ∧ 0 < s.sendMsgSize ∧ 0 < s.sendLength ∧ s.sendMsgSize < room then
        s.sendMsgSize
      else room }

/-- The loop goes on with a new packet unless there was an error. -/
def goOn (s : PacketTrain) (isOk : Bool) : PacketTrain :=
  if isOk then c.startPacket s else { s with status := .returned }

/-- What follows the last segment of a packet. -/
def endPacket (s : PacketTrain) (isOk : Bool) : PacketTrain :=
  let s := s.account
  if c.hasMsgSize = false then { s with status := .returned }
  else if s.sendMsgSize < s.packetSize then c.goOn { s with sendMsgSize := s.packetSize } isOk
  else if s.packetSize ≠ s.sendMsgSize then
    if 0 < s.sendLength ∧ s.packetSize = 0 ∧ s.sendLength < 8 * s.sendMsgSize then
      { s with status := .aborted }
    else { s with status := .returned }
  else if c.sendBufferMax < s.sendLength + s.sendMsgSize then { s with status := .returned }
  else c.goOn s isOk

/-- One segment. -/
def step (s : PacketTrain) (e : SegmentCall) : PacketTrain :=
  if s.status ≠ .running then s
  else
    match e.result with
    | .noMemory => c.endPacket s false
    | .failed => c.endPacket { s with sendMtu := e.sendMtu } (decide (s.packetSize ≠ 0))
    | .prepared length isEmpty isOneRtt =>
      let s := { s with packetSize := s.packetSize + length, sendMtu := e.sendMtu }
      -- nothing more to send, nothing that may follow, or no room for another segment
      if isEmpty ∨ isOneRtt ∨ length = 0 ∨ c.dontCoalesceInit ∨
          s.sendMtu < s.packetSize + coalescedSegmentMin then c.endPacket s true
      else s

/-- The call until its first segment; `isOk` is false when the idle timer has expired. -/
def start (sendMtu : ℕ) (isOk : Bool) : PacketTrain :=
  let s : PacketTrain := ⟨.running, sendMtu, 0, if c.hasMsgSize then sendMtu else 0, 0, 0, []⟩
  if isOk ∧ sendBufferMin ≤ c.sendBufferMax then c.startPacket s
  else { s with status := .returned }

/-- The call after `n` segments. -/
def after (s : PacketTrain) (segments : ℕ → SegmentCall) (n : ℕ) : PacketTrain :=
  run c.step s ((List.range n).map segments)

/-! ### Segments that fit, and trains that are delivered -/

/-- What `picoquic_prepare_segment` promises: a segment fits the space it is offered, and the MTU
of the path may only be reset to a smaller one. -/
def Fits (s : PacketTrain) (e : SegmentCall) : Prop :=
  s.status = .running → (0 < e.sendMtu ∧ e.sendMtu ≤ s.sendMtu) ∧
    match e.result with
    | .prepared length _ _ => length ≤ s.available
    | _ => True

/-- The call is back with a train that fits the buffer, and all packets but the last have the
announced size. -/
def Delivered (s : PacketTrain) : Prop :=
  s.status = .returned ∧ s.sendLength ≤ c.sendBufferMax ∧
    ∀ p ∈ s.packets.dropLast, p = s.sendMsgSize

/-- A segment that is added to another one is not longer than what is left of the buffer, and
behind fewer than eight messages there is no empty packet. -/
def Safe (s : PacketTrain) (e : SegmentCall) : Prop :=
  s.status = .running →
    match e.result with
    | .prepared length _ _ =>
      (0 < s.packetSize → s.sendLength + s.packetSize + length ≤ c.sendBufferMax) ∧
        (0 < s.sendLength → s.packetSize = 0 → s.sendLength < 8 * s.sendMsgSize → length ≠ 0)
    | _ => 0 < s.sendLength → s.packetSize = 0 → ¬ s.sendLength < 8 * s.sendMsgSize

/-! ### A packet is finished -/

variable {c} {s : PacketTrain} {e : SegmentCall}

/-- **Invariant of the loops.** -/
structure Good (c : TrainCall) (s : PacketTrain) : Prop where
  sendMtu_pos : 0 < s.sendMtu
  sendMtu_le : c.hasMsgSize = true → s.sendMtu ≤ s.sendMsgSize
  fits : s.sendLength + s.packetSize ≤ c.sendBufferMax
  /-- A new packet is offered what is left of the buffer, but for the first one not more than the
  announced size. -/
  packetMax_le : s.packetSize = 0 → s.packetMax ≤ c.sendBufferMax - s.sendLength
  packetMax_le_msgSize : s.packetSize = 0 → 0 < s.sendLength → s.packetMax ≤ s.sendMsgSize
  coalesces : 0 < s.packetSize → s.packetSize + coalescedSegmentMin ≤ s.sendMtu
  packets_eq : ∀ p ∈ s.packets, p = s.sendMsgSize
  first : s.sendLength = 0 → s.packets = []
  hasMsgSize : 0 < s.sendLength → c.hasMsgSize = true

/-- A packet is filled, and the loops have kept their invariant. -/
structure Filled (c : TrainCall) (s : PacketTrain) : Prop where
  status_eq : s.status = .running
  sendMtu_pos : 0 < s.sendMtu
  sendMtu_le : c.hasMsgSize = true → s.sendMtu ≤ s.sendMsgSize
  fits : s.sendLength + s.packetSize ≤ c.sendBufferMax
  packetSize_le : 0 < s.sendLength → s.packetSize ≤ s.sendMsgSize
  nonempty : 0 < s.sendLength → s.packetSize = 0 → ¬ s.sendLength < 8 * s.sendMsgSize
  packets_eq : ∀ p ∈ s.packets, p = s.sendMsgSize
  first : s.sendLength = 0 → s.packets = []
  hasMsgSize : 0 < s.sendLength → c.hasMsgSize = true

theorem mem_dropLast_account {q : ℕ} (h : q ∈ s.account.packets.dropLast) : q ∈ s.packets := by
  rw [PacketTrain.account] at h
  dsimp only at h
  split_ifs at h
  · rwa [List.dropLast_concat] at h
  · exact (List.dropLast_sublist _).subset h

/-- A new packet behind packets of the announced size. -/
theorem good_startPacket {t : PacketTrain} (hpos : 0 < t.sendMtu)
    (hmsg : c.hasMsgSize = true) (hmtu : t.sendMtu ≤ t.sendMsgSize)
    (hfits : t.sendLength ≤ c.sendBufferMax) (hlen : 0 < t.sendLength)
    (hpackets : ∀ p ∈ t.packets, p = t.sendMsgSize) : c.Good (c.startPacket t) := by
  have hroom : sub64 c.sendBufferMax t.sendLength ≤ c.sendBufferMax - t.sendLength :=
    sub64_le_sub hfits
  refine ⟨hpos, fun _ => hmtu, by simpa [startPacket] using hfits, ?_, ?_, ?_, hpackets, ?_,
    fun _ => hmsg⟩
  · intro _
    simp only [startPacket]
    split_ifs with hclip
    · exact hclip.2.2.2.le.trans hroom
    · exact hroom
  · intro _ _
    simp only [startPacket]
    split_ifs with hclip
    · exact le_rfl
    · simp only [hmsg, hlen, hpos.trans_le hmtu, true_and, not_lt] at hclip
      exact hclip
  · intro h
    exact absurd h (lt_irrefl 0)
  · intro h
    exact absurd h hlen.ne'

/-- The loop goes on behind a packet of the announced size, or the call is back. -/
theorem goOn_cases {t : PacketTrain} (hstatus : t.status = .running) (hpos : 0 < t.sendMtu)
    (hmsg : c.hasMsgSize = true) (hmtu : t.sendMtu ≤ t.sendMsgSize)
    (hfits : t.sendLength ≤ c.sendBufferMax) (hlen : 0 < t.sendLength)
    (hpackets : ∀ p ∈ t.packets, p = t.sendMsgSize) (isOk : Bool) :
    c.Delivered (c.goOn t isOk) ∨
      ((c.goOn t isOk).status = .running ∧ c.Good (c.goOn t isOk) ∧
        (c.goOn t isOk).sendMtu = t.sendMtu ∧ (c.goOn t isOk).packetSize = 0 ∧
        (c.goOn t isOk).sendLength = t.sendLength) := by
  rcases isOk with _ | _
  · exact Or.inl ⟨rfl, hfits, fun p hp => hpackets p ((List.dropLast_sublist _).subset hp)⟩
  · exact Or.inr ⟨hstatus, good_startPacket hpos hmsg hmtu hfits hlen hpackets, rfl, rfl, rfl⟩

/-- The end of a packet: the call is back, or it goes on behind the packet. -/
theorem Filled.endPacket (h : c.Filled s) (isOk : Bool) :
    c.Delivered (c.endPacket s isOk) ∨
      ((c.endPacket s isOk).status = .running ∧ c.Good (c.endPacket s isOk) ∧
        (c.endPacket s isOk).sendMtu = s.sendMtu ∧ (c.endPacket s isOk).packetSize = 0 ∧
        s.sendLength < (c.endPacket s isOk).sendLength) := by
  have hback : c.Delivered { s.account with status := .returned } :=
    ⟨rfl, h.fits, fun q hq => h.packets_eq q (mem_dropLast_account hq)⟩
  rcases hmsg : c.hasMsgSize with _ | _
  · left
    rw [TrainCall.endPacket, if_pos hmsg]
    exact hback
  have hmtu := h.sendMtu_le hmsg
  have hpos := h.sendMtu_pos
  have hgrows : 0 < s.packetSize → s.sendLength < s.account.sendLength := fun hsize =>
    Nat.lt_add_of_pos_right hsize
  have hlen : 0 < s.packetSize → 0 < s.account.sendLength := fun hsize =>
    (Nat.zero_le _).trans_lt (hgrows hsize)
  rw [TrainCall.endPacket, if_neg (by simp [hmsg])]
  rcases lt_trichotomy s.account.sendMsgSize s.account.packetSize with hlt | heq | hgt
  · -- only the first packet is longer than announced
    have hlt' : s.sendMsgSize < s.packetSize := hlt
    have hsize : 0 < s.packetSize := by omega
    have hzero : s.sendLength = 0 := by
      by_contra hne
      exact absurd (h.packetSize_le (Nat.pos_of_ne_zero hne)) (not_le.mpr hlt')
    have hpackets : s.account.packets = [s.packetSize] := by
      rw [PacketTrain.account, h.first hzero, if_pos hsize]
      rfl
    rw [if_pos hlt]
    refine (goOn_cases (t := { s.account with sendMsgSize := s.packetSize }) h.status_eq hpos hmsg
      (hmtu.trans hlt'.le) h.fits (hlen hsize) ?_ isOk).imp_right fun hgo => ?_
    · intro q hq
      exact List.mem_singleton.mp (hpackets ▸ hq)
    · obtain ⟨h1, h2, h3, h4, h5⟩ := hgo
      exact ⟨h1, h2, h3, h4, (hgrows hsize).trans_eq h5.symm⟩
  · have heq' : s.sendMsgSize = s.packetSize := heq
    have hsize : 0 < s.packetSize := by omega
    rw [if_neg (not_lt.mpr heq.ge), if_neg (not_not.mpr heq.symm)]
    split_ifs with hfull
    · exact Or.inl hback
    · refine (goOn_cases (t := s.account) h.status_eq hpos hmsg hmtu h.fits (hlen hsize) ?_
        isOk).imp_right fun hgo => ?_
      · intro q hq
        rw [PacketTrain.account] at hq
        dsimp only at hq
        rw [if_pos hsize] at hq
        rcases List.mem_append.mp hq with hq | hq
        · exact h.packets_eq q hq
        · exact (List.mem_singleton.mp hq).trans heq'.symm
      · obtain ⟨h1, h2, h3, h4, h5⟩ := hgo
        exact ⟨h1, h2, h3, h4, (hgrows hsize).trans_eq h5.symm⟩
  · left
    rw [if_neg (not_lt.mpr hgt.le), if_pos hgt.ne]
    split_ifs with habort
    · obtain ⟨hlen, hempty, hfew⟩ := habort
      have hempty' : s.packetSize = 0 := hempty
      simp only [PacketTrain.account, hempty', Nat.add_zero] at hlen hfew
      exact absurd hfew (h.nonempty hlen hempty')
    · exact hback

/-! ### One segment -/

/-- A packet that is being filled may end here, also after another MTU. -/
theorem Good.filled (h : c.Good s) (hrun : s.status = .running) {mtu : ℕ} (hpos : 0 < mtu)
    (hmtu : mtu ≤ s.sendMtu)
    (hsafe : 0 < s.sendLength → s.packetSize = 0 → ¬ s.sendLength < 8 * s.sendMsgSize) :
    c.Filled { s with sendMtu := mtu } := by
  refine ⟨hrun, hpos, fun hmsg => hmtu.trans (h.sendMtu_le hmsg), h.fits, fun hlen => ?_, hsafe,
    h.packets_eq, h.first, h.hasMsgSize⟩
  have hle := h.sendMtu_le (h.hasMsgSize hlen)
  have hcoalesces := h.coalesces
  dsimp only
  omega

/-- **Step lemma.** A segment ends the call with a sound train, or the loops go on: with a longer
packet, or with a new one behind a longer train. -/
theorem Good.step (h : c.Good s) (hrun : s.status = .running) (hfits : Fits s e)
    (hsafe : c.Safe s e) :
    c.Delivered (c.step s e) ∨
      ((c.step s e).status = .running ∧ c.Good (c.step s e) ∧ (c.step s e).sendMtu ≤ s.sendMtu ∧
        (s.sendLength < (c.step s e).sendLength ∧ (c.step s e).packetSize = 0 ∨
          (c.step s e).sendLength = s.sendLength ∧ s.packetSize < (c.step s e).packetSize)) := by
  obtain ⟨⟨hpos, hmtu⟩, hlength⟩ := hfits hrun
  have hsafe := hsafe hrun
  rw [TrainCall.step, if_neg (not_not.mpr hrun)]
  have hend : ∀ {t : PacketTrain}, c.Filled t → t.sendMtu ≤ s.sendMtu →
      t.sendLength = s.sendLength → ∀ isOk, c.Delivered (c.endPacket t isOk) ∨
        ((c.endPacket t isOk).status = .running ∧ c.Good (c.endPacket t isOk) ∧
          (c.endPacket t isOk).sendMtu ≤ s.sendMtu ∧
          (s.sendLength < (c.endPacket t isOk).sendLength ∧ (c.endPacket t isOk).packetSize = 0 ∨
            (c.endPacket t isOk).sendLength = s.sendLength ∧
              s.packetSize < (c.endPacket t isOk).packetSize)) := by
    intro t ht hle hlen isOk
    refine (ht.endPacket isOk).imp_right ?_
    rintro ⟨h1, h2, h3, h4, h5⟩
    exact ⟨h1, h2, h3.trans_le hle, Or.inl ⟨hlen ▸ h5, h4⟩⟩
  rcases hresult : e.result with _ | _ | ⟨length, isEmpty, isOneRtt⟩ <;>
    simp only [hresult] at hlength hsafe ⊢
  · exact hend (h.filled hrun h.sendMtu_pos le_rfl hsafe) le_rfl rfl _
  · exact hend (h.filled hrun hpos hmtu hsafe) hmtu rfl _
  · obtain ⟨hroom, hnonempty⟩ := hsafe
    have hbuffer : s.sendLength + (s.packetSize + length) ≤ c.sendBufferMax := by
      rcases Nat.eq_zero_or_pos s.packetSize with hzero | hsize
      · have hmax := h.packetMax_le hzero
        have hsum := h.fits
        rw [PacketTrain.available, if_neg (by omega)] at hlength
        omega
      · rw [← Nat.add_assoc]
        exact hroom hsize
    have hmsgSize : 0 < s.sendLength → s.packetSize + length ≤ s.sendMsgSize := by
      intro hlen
      rcases Nat.eq_zero_or_pos s.packetSize with hzero | hsize
      · have hmax := h.packetMax_le_msgSize hzero hlen
        rw [PacketTrain.available, if_neg (by omega)] at hlength
        omega
      · have hle := h.sendMtu_le (h.hasMsgSize hlen)
        have hcoalesces := h.coalesces hsize
        rw [PacketTrain.available, if_pos hsize] at hlength
        omega
    split_ifs with hdone
    · refine hend (t := { s with packetSize := s.packetSize + length, sendMtu := e.sendMtu })
        ⟨hrun, hpos, fun hmsg => hmtu.trans (h.sendMtu_le hmsg), hbuffer, hmsgSize, ?_,
          h.packets_eq, h.first, h.hasMsgSize⟩ hmtu rfl true
      intro hlen hempty hfew
      dsimp only at hempty
      exact hnonempty hlen (by omega) hfew (by omega)
    · simp only [not_or, not_lt] at hdone
      obtain ⟨-, -, hne, -, hcoalesces⟩ := hdone
      refine Or.inr ⟨hrun, ⟨hpos, fun hmsg => hmtu.trans (h.sendMtu_le hmsg), hbuffer, ?_, ?_,
        fun _ => hcoalesces, h.packets_eq, h.first, h.hasMsgSize⟩, hmtu, Or.inr ⟨rfl, ?_⟩⟩
      · intro hzero
        dsimp only at hzero
        omega
      · intro hzero
        dsimp only at hzero
        omega
      · exact Nat.lt_add_of_pos_right (Nat.pos_of_ne_zero hne)

/-! ### The whole call -/

/-- The bytes of the train, with those of the packet that is being filled. -/
def trainLength (s : PacketTrain) : ℕ :=
  if s.status = .running then s.sendLength + s.packetSize else s.sendLength

/-- A finished packet counts. -/
theorem trainLength_endPacket (isOk : Bool) (hrun : s.status = .running) :
    trainLength (c.endPacket s isOk) = s.sendLength + s.packetSize := by
  have hgoOn : ∀ t : PacketTrain, t.status = .running →
      trainLength (c.goOn t isOk) = t.sendLength := by
    intro t ht
    rcases isOk with _ | _
    · rfl
    · simp [goOn, startPacket, trainLength, ht]
  rw [endPacket]
  split_ifs
  · rfl
  · exact hgoOn { s.account with sendMsgSize := s.account.packetSize } hrun
  · rfl
  · rfl
  · rfl
  · exact hgoOn s.account hrun

/-- Bytes are only added. -/
theorem trainLength_le_step (s : PacketTrain) (e : SegmentCall) :
    trainLength s ≤ trainLength (c.step s e) := by
  rw [step]
  split_ifs with hdone
  · exact le_rfl
  · have hrun : s.status = .running := not_not.mp hdone
    have hs : trainLength s = s.sendLength + s.packetSize := if_pos hrun
    rcases e.result with _ | _ | ⟨length, isEmpty, isOneRtt⟩ <;> simp only
    · rw [trainLength_endPacket _ hrun, hs]
    · rw [trainLength_endPacket (s := { s with sendMtu := e.sendMtu }) _ hrun, hs]
    · split_ifs
      · rw [trainLength_endPacket (s := { s with
          packetSize := s.packetSize + length, sendMtu := e.sendMtu }) _ hrun, hs]
        dsimp only
        omega
      · rw [hs, trainLength, if_pos hrun]
        dsimp only
        omega

theorem step_of_ne_running (hdone : s.status ≠ .running) (e : SegmentCall) : c.step s e = s := by
  rw [step, if_pos hdone]

/-- A segment that is not safe overruns the buffer or ends in `abort()`. -/
theorem Good.step_of_not_safe (h : c.Good s) (hrun : s.status = .running)
    (hsafe : ¬ c.Safe s e) :
    c.sendBufferMax < trainLength (c.step s e) ∨ (c.step s e).status = .aborted := by
  have habort : ∀ {t : PacketTrain}, t.sendLength = s.sendLength → t.packetSize = 0 →
      t.sendMsgSize = s.sendMsgSize → 0 < s.sendLength → s.sendLength < 8 * s.sendMsgSize →
      ∀ isOk, (c.endPacket t isOk).status = .aborted := by
    intro t hlen hempty hsize hpos hfew isOk
    have hmsg := h.hasMsgSize hpos
    rw [endPacket, if_neg (by simp [hmsg])]
    simp only [PacketTrain.account, hempty, hlen, hsize, Nat.add_zero]
    rw [if_neg (by omega), if_pos (by omega), if_pos ⟨hpos, trivial, hfew⟩]
  rw [TrainCall.step, if_neg (not_not.mpr hrun)]
  simp only [Safe, hrun, forall_true_left] at hsafe
  rcases hresult : e.result with _ | _ | ⟨length, isEmpty, isOneRtt⟩ <;>
    simp only [hresult] at hsafe ⊢
  · push Not at hsafe
    obtain ⟨hpos, hempty, hfew⟩ := hsafe
    exact Or.inr (habort rfl hempty rfl hpos hfew _)
  · push Not at hsafe
    obtain ⟨hpos, hempty, hfew⟩ := hsafe
    exact Or.inr (habort (t := { s with sendMtu := e.sendMtu }) rfl hempty rfl hpos hfew _)
  · rw [not_and_or] at hsafe
    rcases hsafe with hover | hempty
    · left
      push Not at hover
      split_ifs
      · rw [trainLength_endPacket (s := { s with
          packetSize := s.packetSize + length, sendMtu := e.sendMtu }) _ hrun]
        dsimp only
        omega
      · rw [trainLength, if_pos hrun]
        dsimp only
        omega
    · right
      push Not at hempty
      obtain ⟨hpos, hzero, hfew, hlength⟩ := hempty
      rw [if_pos (by simp [hlength])]
      have hsum : s.packetSize + length = 0 := by omega
      exact habort (t := { s with packetSize := s.packetSize + length, sendMtu := e.sendMtu })
        rfl hsum rfl hpos hfew _

/-- A state that the loops reach as long as every segment is safe. -/
def Sound (c : TrainCall) (s : PacketTrain) : Prop :=
  c.Delivered s ∨ s.status = .running ∧ c.Good s

theorem sound_start {mtu : ℕ} (hmtu : 0 < mtu)
    (isOk : Bool) : c.Sound (c.start mtu isOk) := by
  rw [start]
  dsimp only
  split_ifs with hok hmsg
  · refine Or.inr ⟨rfl, hmtu, fun _ => le_rfl, Nat.zero_le _, ?_, fun _ h => absurd h (lt_irrefl 0),
      fun h => absurd h (lt_irrefl 0), by simp [startPacket], fun _ => rfl,
      fun h => absurd h (lt_irrefl 0)⟩
    intro _
    simp only [startPacket, lt_irrefl, false_and, and_false, if_false]
    exact sub64_le_sub (Nat.zero_le _)
  · refine Or.inr ⟨rfl, hmtu, fun h => absurd h hmsg, Nat.zero_le _, ?_,
      fun _ h => absurd h (lt_irrefl 0), fun h => absurd h (lt_irrefl 0), by simp [startPacket],
      fun _ => rfl, fun h => absurd h (lt_irrefl 0)⟩
    intro _
    simp only [startPacket, lt_irrefl, false_and, and_false, if_false]
    exact sub64_le_sub (Nat.zero_le _)
  all_goals exact Or.inl ⟨rfl, Nat.zero_le _, by simp⟩

variable {segments : ℕ → SegmentCall}

theorem after_succ (n : ℕ) :
    c.after s segments (n + 1) = c.step (c.after s segments n) (segments n) := by
  rw [after, List.range_succ, List.map_append, run_append]
  rfl

theorem after_of_ne_running {n m : ℕ} (hdone : (c.after s segments n).status ≠ .running)
    (hle : n ≤ m) : c.after s segments m = c.after s segments n := by
  induction m, hle using Nat.le_induction with
  | base => rfl
  | succ m _ ih => rw [after_succ, ih, step_of_ne_running hdone]

theorem trainLength_mono {n m : ℕ} (hle : n ≤ m) :
    trainLength (c.after s segments n) ≤ trainLength (c.after s segments m) := by
  induction m, hle using Nat.le_induction with
  | base => exact le_rfl
  | succ m _ ih => exact ih.trans (after_succ (c := c) (s := s) m ▸ trainLength_le_step _ _)

/-- **Run lemma.** As long as segments are safe, the loops keep their invariant. -/
theorem Sound.after (h : c.Sound s) (hfits : ∀ n, Fits (c.after s segments n) (segments n)) {n : ℕ}
    (hsafe : ∀ m < n, c.Safe (c.after s segments m) (segments m)) :
    c.Sound (c.after s segments n) := by
  induction n with
  | zero => exact h
  | succ n ih =>
    rw [after_succ]
    rcases ih fun m hm => hsafe m (Nat.lt_succ_of_lt hm) with hdone | ⟨hrun, hgood⟩
    · rw [step_of_ne_running (by rw [hdone.1]; decide)]
      exact Or.inl hdone
    · refine (hgood.step hrun (hfits n) (hsafe n n.lt_succ_self)).imp_right ?_
      rintro ⟨h1, h2, -⟩
      exact ⟨h1, h2⟩

/-- The loops come to an end: every packet takes of the buffer what is left, every segment takes of
the MTU. -/
theorem Sound.returns (h : c.Sound s) (hfits : ∀ n, Fits (c.after s segments n) (segments n))
    (hsafe : ∀ n, c.Safe (c.after s segments n) (segments n)) :
    ∃ n, (c.after s segments n).status ≠ .running := by
  have hend : ∀ k n, (c.after s segments n).sendMtu ≤ s.sendMtu →
      (c.sendBufferMax - (c.after s segments n).sendLength) * (s.sendMtu + 2) +
        (s.sendMtu + 1 - (c.after s segments n).packetSize) ≤ k →
      ∃ n, (c.after s segments n).status ≠ .running := by
    intro k
    induction k with
    | zero =>
      intro n hmtu hk
      refine ⟨n, fun hrun => ?_⟩
      rcases h.after hfits fun m _ => hsafe m with hdone | ⟨-, hgood⟩
      · rw [hdone.1] at hrun
        exact absurd hrun (by decide)
      · have hcoalesces := hgood.coalesces
        omega
    | succ k ih =>
      intro n hmtu hk
      by_cases hrun : (c.after s segments n).status = .running
      · rcases h.after hfits fun m _ => hsafe m with hdone | ⟨-, hgood⟩
        · exact ⟨n, by rw [hdone.1]; decide⟩
        · rcases hgood.step hrun (hfits n) (hsafe n) with hdone | ⟨-, hgood', hle, hgrows⟩
          · exact ⟨n + 1, by rw [after_succ, hdone.1]; decide⟩
          · rw [← after_succ] at hgood' hle hgrows
            refine ih (n + 1) (hle.trans hmtu) ?_
            have hfits' := hgood'.fits
            have hcoalesces := hgood.coalesces
            rcases hgrows with ⟨hlt, hzero⟩ | ⟨heq, hlt⟩
            · have hmul := Nat.mul_le_mul_right (s.sendMtu + 2)
                (show c.sendBufferMax - (c.after s segments (n + 1)).sendLength + 1 ≤
                  c.sendBufferMax - (c.after s segments n).sendLength by omega)
              rw [Nat.add_mul] at hmul
              omega
            · rw [heq]
              have hcoalesces' := hgood'.coalesces
              omega
      · exact ⟨n, hrun⟩
  exact hend _ 0 le_rfl le_rfl

theorem fits_of_done {n : ℕ} (hdone : (c.after s segments n).status ≠ .running)
    (hfits : ∀ m < n, Fits (c.after s segments m) (segments m)) (m : ℕ) :
    Fits (c.after s segments m) (segments m) := by
  rcases lt_or_ge m n with hlt | hle
  · exact hfits m hlt
  · intro hrun
    rw [after_of_ne_running hdone hle] at hrun
    exact absurd hrun hdone

end TrainCall

open TrainCall in
/-- **Packet trains.** The call returns with a train that fits the buffer, and in which all packets
but the last have the announced size, if and only if no segment is longer than the buffer when it is
added to others, and no packet comes out empty behind fewer than eight messages. -/
theorem packet_train_iff (c : TrainCall) {mtu : ℕ} (hmtu : 0 < mtu) (isOk : Bool)
    (segments : ℕ → SegmentCall)
    (hfits : ∀ n, Fits (c.after (c.start mtu isOk) segments n) (segments n)) :
    (∃ n, c.Delivered (c.after (c.start mtu isOk) segments n)) ↔
      ∀ n, c.Safe (c.after (c.start mtu isOk) segments n) (segments n) := by
  classical
  have hstart : c.Sound (c.start mtu isOk) := sound_start hmtu isOk
  generalize c.start mtu isOk = s at hfits hstart ⊢
  constructor
  · rintro ⟨n, hdone⟩
    by_contra hunsafe
    push Not at hunsafe
    -- up to the first segment that is not safe, the loops have kept their invariant
    have hfirst := Nat.find_spec hunsafe
    have hbefore : ∀ m < Nat.find hunsafe, c.Safe (c.after s segments m) (segments m) :=
      fun m hm => not_not.mp (Nat.find_min hunsafe hm)
    generalize Nat.find hunsafe = j at hfirst hbefore
    have hrun : (c.after s segments j).status = .running := by
      by_contra hne
      exact hfirst fun h => absurd h hne
    have hj : j + 1 ≤ n := by
      by_contra hlt
      have hsame := after_of_ne_running (m := j) (by rw [hdone.1]; decide) (by omega)
      rw [hsame, hdone.1] at hrun
      exact absurd hrun (by decide)
    rcases hstart.after hfits hbefore with hback | ⟨-, hgood⟩
    · rw [hback.1] at hrun
      exact absurd hrun (by decide)
    rcases hgood.step_of_not_safe hrun hfirst with hover | habort
    · rw [← after_succ] at hover
      have hlength : trainLength (c.after s segments n) = (c.after s segments n).sendLength := by
        rw [trainLength, if_neg (by rw [hdone.1]; decide)]
      have hmono : trainLength (c.after s segments (j + 1)) ≤ trainLength (c.after s segments n) :=
        trainLength_mono hj
      have hle := hdone.2.1
      omega
    · rw [← after_succ] at habort
      have hsame := after_of_ne_running (by rw [habort]; decide) hj
      rw [← hsame, hdone.1] at habort
      exact absurd habort (by decide)
  · intro hsafe
    obtain ⟨n, hne⟩ := hstart.returns hfits hsafe
    rcases hstart.after hfits fun m _ => hsafe m with hback | ⟨hrun, -⟩
    · exact ⟨n, hback⟩
    · exact absurd hrun hne

open TrainCall in
/-- Two full packets in a buffer of 3000 bytes. -/
theorem packet_train_iff_sample :
    let c : TrainCall := ⟨3000, true, false⟩
    let segments : ℕ → SegmentCall := fun _ => ⟨.prepared 1440 false true, 1440⟩
    (c.after (c.start 1440 true) segments 2).sendLength = 2880 ∧
      ∀ n, c.Safe (c.after (c.start 1440 true) segments n) (segments n) := by
  intro c segments
  have hdone : (c.after (c.start 1440 true) segments 2).status ≠ .running := by decide
  have hfits : ∀ m < 2, Fits (c.after (c.start 1440 true) segments m) (segments m) := by
    intro m hm
    obtain rfl | rfl : m = 0 ∨ m = 1 := by omega
    · exact fun _ => ⟨by decide,
        show 1440 ≤ (c.after (c.start 1440 true) segments 0).available by decide⟩
    · exact fun _ => ⟨by decide,
        show 1440 ≤ (c.after (c.start 1440 true) segments 1).available by decide⟩
  refine ⟨by decide, (packet_train_iff c (by decide) true segments (fits_of_done hdone hfits)).mp
    ⟨2, by decide, by decide, ?_⟩⟩
  rw [show (c.after (c.start 1440 true) segments 2).packets = [1440, 1440] by decide]
  decide

open TrainCall in
/-- A single full packet with nothing to send behind it ends in `abort()`, whatever room there is in
the buffer. And two segments of a packet, which fit an MTU of 1440 bytes, overrun a buffer of 1200
bytes. -/
theorem train_goes_wrong :
    (let c : TrainCall := ⟨65535, true, false⟩
      let segments : ℕ → SegmentCall := fun n =>
        ⟨if n = 0 then .prepared 1440 false true else .prepared 0 true false, 1440⟩
      (∀ n, Fits (c.after (c.start 1440 true) segments n) (segments n)) ∧
        (c.after (c.start 1440 true) segments 2).status = .aborted ∧
        ∀ n, ¬ c.Delivered (c.after (c.start 1440 true) segments n)) ∧
    let c : TrainCall := ⟨1200, false, false⟩
    let segments : ℕ → SegmentCall := fun n =>
      ⟨.prepared (if n = 0 then 300 else 1140) false false, 1440⟩
    (∀ n, Fits (c.after (c.start 1440 true) segments n) (segments n)) ∧
      (c.after (c.start 1440 true) segments 2).status = .returned ∧
      (c.after (c.start 1440 true) segments 2).sendLength = 1440 := by
  constructor
  · intro c segments
    have habort : (c.after (c.start 1440 true) segments 2).status = .aborted := by decide
    refine ⟨fits_of_done (n := 2) (by rw [habort]; decide) fun m hm => ?_, habort, ?_⟩
    · obtain rfl | rfl : m = 0 ∨ m = 1 := by omega
      · exact fun _ => ⟨by decide,
        show 1440 ≤ (c.after (c.start 1440 true) segments 0).available by decide⟩
      · exact fun _ => ⟨by decide, Nat.zero_le _⟩
    · rintro n ⟨hback, -⟩
      rcases lt_or_ge n 2 with hlt | hle
      · obtain rfl | rfl : n = 0 ∨ n = 1 := by omega
        · exact absurd hback (by decide)
        · exact absurd hback (by decide)
      · rw [after_of_ne_running (by rw [habort]; decide) hle, habort] at hback
        exact absurd hback (by decide)
  · intro c segments
    have hback : (c.after (c.start 1440 true) segments 2).status = .returned := by decide
    refine ⟨fits_of_done (n := 2) (by rw [hback]; decide) fun m hm => ?_, hback, by decide⟩
    obtain rfl | rfl : m = 0 ∨ m = 1 := by omega
    · exact fun _ => ⟨by decide,
        show 300 ≤ (c.after (c.start 1440 true) segments 0).available by decide⟩
    · exact fun _ => ⟨by decide,
        show 1140 ≤ (c.after (c.start 1440 true) segments 1).available by decide⟩

end Picoquic
