import Picoquic.ForMathlib.Runs
import Picoquic.Sender.ControlLog
import Picoquic.Sender.Format

/-!
# Control frames that are not sent again

* **`Channel`** — a limit that only grows: the frames that carry it, and the largest acknowledged
  one. MAX_DATA, MAX_STREAM_DATA and MAX_STREAMS are channels;
* **`LoggedCnx.Inv`** — for each kind of frame, what the state that is compared says about the log;
* **`control_repeat_sound`** — a control frame that is not repeated was superseded, or is not
  needed by design.
-/

namespace Picoquic

open Runs SendCnx LogEntry ControlFrame

/-! ### Logs -/

theorem Superseded.append {log : List LogEntry} {f : ControlFrame} (h : Superseded log f)
    (l : List LogEntry) : Superseded (log ++ l) f := by
  obtain ⟨before, after, rfl, hsent, e, he, hsupersedes⟩ := h
  exact ⟨before, after ++ l, List.append_assoc .., hsent, e, List.mem_append_left l he,
    hsupersedes⟩

theorem superseded_of_entry {log l : List LogEntry} {f : ControlFrame} {e : LogEntry}
    (hf : .sent f ∈ log) (he : e ∈ l) (hsupersedes : e.Supersedes f) : Superseded (log ++ l) f :=
  ⟨log, l, rfl, hf, e, he, hsupersedes⟩

/-- Everything of a kind is superseded once the check drops it. -/
def DropsSuperseded (log : List LogEntry) (f : ControlFrame) (drops : Prop) : Prop :=
  .sent f ∈ log → drops → Superseded log f

/-- **The rule for one step**: a frame that is sent now is not dropped, and one that is dropped
from now on is superseded by the new entries. -/
theorem DropsSuperseded.step {log l : List LogEntry} {f : ControlFrame} {drops drops' : Prop}
    (h : DropsSuperseded log f drops) (hnew : .sent f ∈ l → drops' → .sent f ∈ log ∧ drops)
    (hold : drops' → drops ∨ ∃ e ∈ l, e.Supersedes f) : DropsSuperseded (log ++ l) f drops' := by
  intro hf hdrops
  rcases List.mem_append.mp hf with hf | hf
  · rcases hold hdrops with hd | ⟨e, he, hsupersedes⟩
    · exact (h hf hd).append l
    · exact superseded_of_entry hf he hsupersedes
  · obtain ⟨hf, hd⟩ := hnew hf hdrops
    exact (h hf hd).append l

/-! ### Channels -/

/-- Frames that carry a limit which only grows: each carries at most the current one, and the
larger of two supersedes the smaller. -/
structure Channel (frame : ℕ → ControlFrame) : Prop where
  supersedes : ∀ m n, m ≤ n → (LogEntry.sent (frame n)).Supersedes (frame m)
  supersedes_self : ∀ n, (LogEntry.acked (frame n)).Supersedes (frame n)
  injective : ∀ m n, frame m = frame n → m = n

/-- The log of a channel with a current limit and the largest acknowledged one. -/
structure Channel.Tracks (frame : ℕ → ControlFrame) (log : List LogEntry) (limit acked : ℕ) :
    Prop where
  le : ∀ n, .sent (frame n) ∈ log → n ≤ limit
  acked_mem : acked = 0 ∨ .sent (frame acked) ∈ log
  lower : ∀ n, .sent (frame n) ∈ log → n < limit → Superseded log (frame n)
  known : ∀ n, .sent (frame n) ∈ log → n ≤ acked → Superseded log (frame n)

section Channel

variable {frame : ℕ → ControlFrame} {log : List LogEntry} {limit acked : ℕ}

theorem Channel.Tracks.initial (limit : ℕ) : Channel.Tracks frame [] limit 0 :=
  ⟨fun _ h => absurd h List.not_mem_nil, Or.inl rfl, fun _ h => absurd h List.not_mem_nil,
    fun _ h => absurd h List.not_mem_nil⟩

theorem Channel.Tracks.append (h : Channel.Tracks frame log limit acked) {l : List LogEntry}
    (hl : ∀ n, .sent (frame n) ∉ l) : Channel.Tracks frame (log ++ l) limit acked := by
  have hold : ∀ n, .sent (frame n) ∈ log ++ l → .sent (frame n) ∈ log :=
    fun n hn => (List.mem_append.mp hn).resolve_right (hl n)
  refine ⟨fun n hn => h.le n (hold n hn), h.acked_mem.imp id fun hmem => ?_, ?_, ?_⟩
  · exact List.mem_append_left l hmem
  · exact fun n hn hlt => (h.lower n (hold n hn) hlt).append l
  · exact fun n hn hle => (h.known n (hold n hn) hle).append l

/-- The limit is raised. -/
theorem Channel.Tracks.raise (hframe : Channel frame) (h : Channel.Tracks frame log limit acked)
    {limit' : ℕ} (hle : limit ≤ limit') (hpos : 0 < limit') :
    Channel.Tracks frame (log ++ [.sent (frame limit')]) limit' acked := by
  have hcase : ∀ n, .sent (frame n) ∈ log ++ [.sent (frame limit')] →
      .sent (frame n) ∈ log ∨ n = limit' := by
    intro n hn
    refine (List.mem_append.mp hn).imp id fun hn => hframe.injective n limit' ?_
    exact sent.inj (List.mem_singleton.mp hn)
  have hacked : acked ≤ limit := h.acked_mem.elim (fun h0 => h0 ▸ Nat.zero_le _) (h.le acked)
  refine ⟨?_, h.acked_mem.imp id (List.mem_append_left _), ?_, ?_⟩
  · intro n hn
    rcases hcase n hn with hn | rfl
    · exact (h.le n hn).trans hle
    · exact le_rfl
  · intro n hn hlt
    rcases hcase n hn with hn | rfl
    · exact superseded_of_entry hn List.mem_cons_self (hframe.supersedes n limit' hlt.le)
    · exact absurd hlt (lt_irrefl n)
  · intro n hn hn'
    rcases hcase n hn with hn | rfl
    · exact (h.known n hn hn').append _
    -- the frame that is acknowledged is sent once more
    · obtain rfl : n = acked := hn'.antisymm (hacked.trans hle)
      exact (h.known n (h.acked_mem.resolve_left hpos.ne') le_rfl).append _

/-- A frame is acknowledged. -/
theorem Channel.Tracks.acknowledge (hframe : Channel frame)
    (h : Channel.Tracks frame log limit acked) {m : ℕ} (hm : .sent (frame m) ∈ log) :
    Channel.Tracks frame (log ++ [.acked (frame m)]) limit (max acked m) := by
  have hold : ∀ n, .sent (frame n) ∈ log ++ [.acked (frame m)] → .sent (frame n) ∈ log := by
    intro n hn
    refine (List.mem_append.mp hn).resolve_right fun hn => ?_
    cases List.mem_singleton.mp hn
  refine ⟨fun n hn => h.le n (hold n hn), ?_, ?_, ?_⟩
  · right
    rcases le_total acked m with hle | hle
    · rw [max_eq_right hle]
      exact List.mem_append_left _ hm
    · rw [max_eq_left hle]
      rcases h.acked_mem with h0 | hmem
      · have hm0 : m = acked := by omega
        exact hm0 ▸ List.mem_append_left _ hm
      · exact List.mem_append_left _ hmem
  · exact fun n hn hlt => (h.lower n (hold n hn) hlt).append _
  · intro n hn hle
    rcases le_max_iff.mp hle with hle | hle
    · exact (h.known n (hold n hn) hle).append _
    rcases hle.eq_or_lt with rfl | hlt
    -- that frame itself is acknowledged, or it is below the current limit
    · exact superseded_of_entry hm List.mem_cons_self (hframe.supersedes_self n)
    · exact (h.lower n (hold n hn) (hlt.trans_le (h.le m hm))).append _

end Channel

theorem channel_maxData : Channel ControlFrame.maxData :=
  ⟨fun _ _ h => h, fun _ => rfl, fun _ _ h => maxData.inj h⟩

theorem channel_maxStreamData (streamId : ℕ) : Channel (ControlFrame.maxStreamData streamId) :=
  ⟨fun _ _ h => ⟨rfl, h⟩, fun _ => rfl, fun _ _ h => (maxStreamData.inj h).2⟩

theorem channel_maxStreams (isUnidir : Bool) : Channel (ControlFrame.maxStreams isUnidir) :=
  ⟨fun _ _ h => ⟨rfl, h⟩, fun _ => rfl, fun _ _ h => (maxStreams.inj h).2⟩

/-! ### Events -/

section Fields

variable (c : SendCnx) (streamId : ℕ) (f : SendStream → SendStream) (s : ControlState)

@[simp]
theorem controlState_setControl : (c.setControl s).controlState = s := rfl

@[simp]
theorem streams_setControl : (c.setControl s).streams = c.streams := rfl

@[simp]
theorem maxdataRemote_setControl : (c.setControl s).maxdataRemote = c.maxdataRemote := rfl

@[simp]
theorem clientMode_setControl : (c.setControl s).clientMode = c.clientMode := rfl

@[simp]
theorem controlState_modifyStream : (c.modifyStream streamId f).controlState = c.controlState := by
  rw [modifyStream]
  cases c.streams streamId <;> rfl

@[simp]
theorem maxdataRemote_modifyStream :
    (c.modifyStream streamId f).maxdataRemote = c.maxdataRemote := by
  rw [modifyStream]
  cases c.streams streamId <;> rfl

@[simp]
theorem clientMode_modifyStream : (c.modifyStream streamId f).clientMode = c.clientMode := by
  rw [modifyStream]
  cases c.streams streamId <;> rfl

theorem control_plain (f : ControlFrame) : (c.control (.plain f)).1 = c := by
  rw [SendCnx.control]
  split_ifs <;> rfl

end Fields

/-- Only frames whose sending changes nothing are sent as plain ones. -/
theorem isPlain_of_sent {c : SendCnx} {f g : ControlFrame}
    (h : .sent g ∈ (c.control (.plain f)).2) : g.isPlain = true := by
  rw [SendCnx.control] at h
  split_ifs at h with hf
  · rwa [sent.inj (List.mem_singleton.mp h)]
  · cases h

variable {e : ControlEvent} {u : Bool} {a : LoggedCnx}

/-- The state of MAX_DATA frames is touched by their events only. -/
theorem tracks_maxData {c : SendCnx} {log : List LogEntry}
    (h : Channel.Tracks .maxData log c.controlState.maxdataLocal c.controlState.maxdataLocalAcked)
    (he : e.Raises c) (hacked : ∀ f, e = .acknowledged f → .sent f ∈ log) :
    Channel.Tracks .maxData (log ++ (c.control e).2) (c.control e).1.controlState.maxdataLocal
      (c.control e).1.controlState.maxdataLocalAcked := by
  cases e with
  | maxData increase =>
    have hu : u64 (c.controlState.maxdataLocal + increase) =
        c.controlState.maxdataLocal + increase := u64_of_lt (he.2.trans (by norm_num))
    simp only [SendCnx.control, controlState_setControl, hu]
    exact h.raise channel_maxData (Nat.le_add_right _ _) he.1
  | acknowledged f =>
    have hf := hacked f rfl
    cases f
    case maxData m => exact h.acknowledge channel_maxData hf
    all_goals
      simp only [SendCnx.control, processAckOfControlFrame, controlState_modifyStream]
      exact h.append (by simp)
  | plain f =>
    rw [control_plain]
    exact h.append fun n hn => absurd (isPlain_of_sent hn) Bool.false_ne_true
  | _ =>
    simp only [SendCnx.control, controlState_modifyStream, controlState_setControl]
    repeat' split
    all_goals exact h.append (by simp)

/-- A larger identifier has a larger rank. -/
theorem streamRankFromId_mono {id id' : ℕ} (hle : id ≤ id') (hid' : id' < 2 ^ 62) :
    streamRankFromId id ≤ streamRankFromId id' ∧ 0 < streamRankFromId id' := by
  rw [streamRankFromId_eq (by omega), streamRankFromId_eq (by omega)]
  exact ⟨Nat.succ_le_succ (Nat.div_le_div_right hle), Nat.succ_pos _⟩

/-- So is the state of MAX_STREAMS frames. -/
theorem tracks_maxStreams {c : SendCnx} {log : List LogEntry}
    (h : Channel.Tracks (.maxStreams u) log (streamRankFromId (c.controlState.maxStreamIdLocal u))
      (c.controlState.maxStreamIdRankAcked u)) (he : e.Raises c)
    (hacked : ∀ f, e = .acknowledged f → .sent f ∈ log) :
    Channel.Tracks (.maxStreams u) (log ++ (c.control e).2)
      (streamRankFromId ((c.control e).1.controlState.maxStreamIdLocal u))
      ((c.control e).1.controlState.maxStreamIdRankAcked u) := by
  cases e with
  | maxStreams isUnidir increase =>
    simp only [SendCnx.control, controlState_setControl]
    rcases eq_or_ne u isUnidir with rfl | hne
    · have hlt : c.controlState.maxStreamIdLocal u + increase < 2 ^ 62 := he
      rw [Function.update_self, u64_of_lt (hlt.trans (by norm_num))]
      obtain ⟨hle, hpos⟩ := streamRankFromId_mono (Nat.le_add_right _ increase) hlt
      exact h.raise (channel_maxStreams u) hle hpos
    · rw [Function.update_of_ne hne]
      exact h.append (by simp [hne])
  | acknowledged f =>
    have hf := hacked f rfl
    cases f
    case maxStreams isUnidir rank =>
      simp only [SendCnx.control, processAckOfControlFrame, controlState_setControl]
      rcases eq_or_ne u isUnidir with rfl | hne
      · rw [Function.update_self]
        exact h.acknowledge (channel_maxStreams u) hf
      · rw [Function.update_of_ne hne]
        exact h.append (by simp)
    all_goals
      simp only [SendCnx.control, processAckOfControlFrame, controlState_modifyStream]
      exact h.append (by simp)
  | plain f =>
    rw [control_plain]
    exact h.append fun n hn => absurd (isPlain_of_sent hn) Bool.false_ne_true
  | _ =>
    simp only [SendCnx.control, controlState_modifyStream, controlState_setControl]
    repeat' split
    all_goals exact h.append (by simp)

theorem maxStreamIdLocal_control (c : SendCnx) (e : ControlEvent) :
    (c.control e).1.controlState.maxStreamIdLocal =
      match e with
      | .maxStreams isUnidir increase =>
        Function.update c.controlState.maxStreamIdLocal isUnidir
          (u64 (c.controlState.maxStreamIdLocal isUnidir + increase))
      | _ => c.controlState.maxStreamIdLocal := by
  cases e with
  | maxStreams => rfl
  | acknowledged f =>
    cases f
    all_goals
      simp only [SendCnx.control, processAckOfControlFrame, controlState_modifyStream,
        controlState_setControl]
  | _ =>
    simp only [SendCnx.control, controlState_modifyStream, controlState_setControl]
    repeat' split
    all_goals rfl

variable {r : ℕ}

theorem sent_maxStreams_mem {c : SendCnx} (h : .sent (.maxStreams u r) ∈ (c.control e).2) :
    ∃ increase, e = .maxStreams u increase := by
  cases e with
  | maxStreams isUnidir increase =>
    simp only [SendCnx.control, List.mem_singleton, sent.injEq,
      maxStreams.injEq] at h
    exact ⟨increase, by rw [h.1]⟩
  | plain f => exact absurd (isPlain_of_sent h) Bool.false_ne_true
  | _ =>
    revert h
    simp only [SendCnx.control]
    repeat' split
    all_goals simp

/-- A limit on streams that was sent fits into a frame. -/
theorem maxStreamIdLocal_control_lt {c : SendCnx} {log : List LogEntry}
    (h : ∀ r, .sent (.maxStreams u r) ∈ log → c.controlState.maxStreamIdLocal u < 2 ^ 62)
    (he : e.Raises c) (r : ℕ) (hr : .sent (.maxStreams u r) ∈ log ++ (c.control e).2) :
    (c.control e).1.controlState.maxStreamIdLocal u < 2 ^ 62 := by
  rw [maxStreamIdLocal_control]
  rcases List.mem_append.mp hr with hr | hr
  · have hlt := h r hr
    cases e with
    | maxStreams isUnidir increase =>
      dsimp only
      rcases eq_or_ne u isUnidir with rfl | hne
      · rw [Function.update_self]
        exact (u64_le _).trans_lt he
      · rwa [Function.update_of_ne hne]
    | _ => exact hlt
  · obtain ⟨increase, rfl⟩ := sent_maxStreams_mem hr
    dsimp only
    rw [Function.update_self]
    exact (u64_le _).trans_lt he

/-! ### Blocked frames -/

/-- The peer was told that the connection is blocked: this is over when a limit is raised or data
are sent. -/
theorem drops_dataBlocked {c : SendCnx} {log : List LogEntry} {m : ℕ}
    (h : DropsSuperseded log (.dataBlocked m)
      (m < c.maxdataRemote ∨ c.controlState.sentBlockedFrame = false)) (e : ControlEvent) :
    DropsSuperseded (log ++ (c.control e).2) (.dataBlocked m)
      (m < (c.control e).1.maxdataRemote ∨
        (c.control e).1.controlState.sentBlockedFrame = false) := by
  cases e with
  | dataBlocked =>
    refine h.step ?_ ?_
    · intro hm hdrops
      obtain rfl : m = c.maxdataRemote := by simpa [SendCnx.control] using hm
      simp [SendCnx.control] at hdrops
    · intro hdrops
      exact Or.inl (Or.inl (by simpa [SendCnx.control] using hdrops))
  | maxDataReceived maxdata =>
    rw [SendCnx.control]
    split_ifs
    · exact h.step (by simp) fun _ => Or.inr ⟨.unblocked, List.mem_cons_self, trivial⟩
    · exact h.step (by simp) Or.inl
  | streamFrame =>
    exact h.step (by simp [SendCnx.control]) fun _ =>
      Or.inr ⟨.unblocked, List.mem_cons_self, trivial⟩
  | plain f =>
    rw [control_plain]
    exact h.step (fun hm => absurd (isPlain_of_sent hm) Bool.false_ne_true) Or.inl
  | acknowledged f =>
    cases f
    all_goals
      simp only [SendCnx.control, processAckOfControlFrame, controlState_modifyStream,
        maxdataRemote_modifyStream]
      exact h.step (by simp) Or.inl
  | _ =>
    simp only [SendCnx.control, controlState_modifyStream, controlState_setControl,
      maxdataRemote_modifyStream]
    repeat' split
    all_goals exact h.step (by simp) Or.inl

theorem streamIdFromRank_rank {id : ℕ} (hid : id < 2 ^ 62) (clientMode isUnidir : Bool) :
    streamIdFromRank (streamRankFromId id) clientMode isUnidir =
      4 * (id / 4) + 2 * isUnidir.toNat + (!clientMode).toNat := by
  rw [streamIdFromRank, streamRankFromId_eq (by omega), sub64_of_le (by omega) (by omega),
    Nat.add_sub_cancel, u64_of_lt (by omega)]

/-- Only the parity of an identifier is lost. -/
theorem le_typeBits (id : ℕ) (clientMode : Bool) :
    id ≤ 4 * (id / 4) + 2 * (!isBidirStreamId id).toNat + (!clientMode).toNat + 1 := by
  have hunidir : (!isBidirStreamId id).toNat = id / 2 % 2 := by
    rw [isBidirStreamId]
    rcases Nat.mod_two_eq_zero_or_one (id / 2) with h0 | h1
    · simp [h0]
    · simp [h1]
  have hdiv : id / 2 / 2 = id / 4 := Nat.div_div_eq_div_mul id 2 2
  omega

theorem clientMode_control (c : SendCnx) (e : ControlEvent) :
    (c.control e).1.clientMode = c.clientMode := by
  cases e with
  | acknowledged f =>
    cases f
    all_goals
      simp only [SendCnx.control, processAckOfControlFrame, clientMode_modifyStream,
        clientMode_setControl]
  | _ =>
    simp only [SendCnx.control, clientMode_modifyStream, clientMode_setControl]
    repeat' split
    all_goals rfl

/-- The peer was told that more streams are wanted: this is over when it allows more. -/
theorem drops_streamsBlocked {c : SendCnx} {log : List LogEntry}
    (h : DropsSuperseded log (.streamsBlocked u r)
      (streamIdFromRank r c.clientMode u < c.controlState.maxStreamIdRemote u ∨
      c.controlState.streamBlockedSent u = false)) (e : ControlEvent) :
    DropsSuperseded (log ++ (c.control e).2) (.streamsBlocked u r)
      (streamIdFromRank r (c.control e).1.clientMode u <
          (c.control e).1.controlState.maxStreamIdRemote u ∨
        (c.control e).1.controlState.streamBlockedSent u = false) := by
  rw [clientMode_control]
  -- only the first case has to know which identifier the rank stands for
  obtain ⟨id, hid⟩ : ∃ id, id = streamIdFromRank r c.clientMode u := ⟨_, rfl⟩
  rw [← hid] at h ⊢
  cases e with
  | streamsBlocked streamId =>
    simp only [SendCnx.control]
    split
    case isFalse => exact h.step (by simp) Or.inl
    rename_i hcond
    obtain ⟨hlocal, hlt, hflag⟩ := hcond
    simp only [controlState_setControl]
    refine h.step ?_ ?_
    · -- the frame names a stream that the limit does not allow
      intro hm hdrops
      simp only [List.mem_singleton, sent.injEq, streamsBlocked.injEq] at hm
      obtain ⟨rfl, rfl⟩ := hm
      rw [streamIdFromRank_rank streamId.isLt] at hid
      have hle := le_typeBits streamId c.clientMode
      rw [← hid] at hle
      rw [Function.update_self] at hdrops
      rcases hdrops with hdrops | hdrops
      · exact absurd ((Nat.succ_le_of_lt hdrops).trans_lt hlt) (Nat.not_lt.mpr hle)
      · cases hdrops
    · intro hdrops
      rcases eq_or_ne u (!isBidirStreamId streamId) with rfl | hne
      · rw [Function.update_self] at hdrops
        exact Or.inl (Or.inl (hdrops.resolve_right Bool.noConfusion))
      · rw [Function.update_of_ne hne] at hdrops
        exact Or.inl hdrops
  | maxStreamsReceived isUnidir rank =>
    simp only [SendCnx.control]
    split
    case isFalse => exact h.step (by simp) Or.inl
    simp only [controlState_setControl]
    refine h.step (by simp) fun hdrops => ?_
    rcases eq_or_ne u isUnidir with rfl | hne
    · exact Or.inr ⟨.streamsUnblocked u, List.mem_cons_self, rfl⟩
    · rw [Function.update_of_ne hne, Function.update_of_ne hne] at hdrops
      exact Or.inl hdrops
  | plain f =>
    rw [control_plain]
    exact h.step (fun hm => absurd (isPlain_of_sent hm) Bool.false_ne_true) Or.inl
  | acknowledged f =>
    cases f
    all_goals
      simp only [SendCnx.control, processAckOfControlFrame, controlState_modifyStream]
      exact h.step (by simp) Or.inl
  | _ =>
    simp only [SendCnx.control, controlState_modifyStream, controlState_setControl]
    repeat' split
    all_goals exact h.step (by simp) Or.inl

/-! ### Flags -/

/-- The two flags are set when their frame is acknowledged. -/
theorem ackedFlags_control (c : SendCnx) (e : ControlEvent) :
    ((c.control e).1.controlState.isHandshakeDoneAcked = true →
      c.controlState.isHandshakeDoneAcked = true ∨ e = .acknowledged .handshakeDone) ∧
    ((c.control e).1.controlState.isNewTokenAcked = true →
      c.controlState.isNewTokenAcked = true ∨ e = .acknowledged .newToken) := by
  cases e with
  | acknowledged f =>
    cases f
    case handshakeDone => exact ⟨fun _ => .inr rfl, .inl⟩
    case newToken => exact ⟨.inl, fun _ => .inr rfl⟩
    all_goals
      simp only [SendCnx.control, processAckOfControlFrame, controlState_modifyStream,
        controlState_setControl]
      exact ⟨.inl, .inl⟩
  | _ =>
    simp only [SendCnx.control, controlState_modifyStream, controlState_setControl]
    repeat' split
    all_goals exact ⟨.inl, .inl⟩

/-- A HANDSHAKE_DONE frame counts as acknowledged only if it was. -/
theorem superseded_handshakeDone {c : SendCnx} {log : List LogEntry}
    (h : c.controlState.isHandshakeDoneAcked = true → Superseded log .handshakeDone)
    (hacked : ∀ f, e = .acknowledged f → .sent f ∈ log)
    (hflag : (c.control e).1.controlState.isHandshakeDoneAcked = true) :
    Superseded (log ++ (c.control e).2) .handshakeDone := by
  rcases (ackedFlags_control c e).1 hflag with hc | rfl
  · exact (h hc).append _
  · exact superseded_of_entry (hacked _ rfl) List.mem_cons_self rfl

/-- So does a NEW_TOKEN frame. -/
theorem superseded_newToken {c : SendCnx} {log : List LogEntry}
    (h : c.controlState.isNewTokenAcked = true → Superseded log .newToken)
    (hacked : ∀ f, e = .acknowledged f → .sent f ∈ log)
    (hflag : (c.control e).1.controlState.isNewTokenAcked = true) :
    Superseded (log ++ (c.control e).2) .newToken := by
  rcases (ackedFlags_control c e).2 hflag with hc | rfl
  · exact (h hc).append _
  · exact superseded_of_entry (hacked _ rfl) List.mem_cons_self rfl

/-! ### Connection IDs -/

section ConnectionIds

variable {l : List (ℕ × Bool)} {n m : ℕ}

theorem cnxidNoNeed_cons (x : ℕ × Bool) (l : List (ℕ × Bool)) (m : ℕ) :
    cnxidNoNeed (x :: l) m = if x.1 = m then x.2 else cnxidNoNeed l m := by
  rw [cnxidNoNeed, List.find?_cons]
  by_cases hx : x.1 = m
  · simp [hx]
  · simp [hx, cnxidNoNeed]

/-- A connection ID that is known and not acknowledged is needed. -/
theorem cnxidNoNeed_eq_false (hl : ∀ x ∈ l, x.2 = false) (hn : n ∈ l.map Prod.fst) :
    cnxidNoNeed l n = false := by
  induction l with
  | nil => cases hn
  | cons x l ih =>
    rw [cnxidNoNeed_cons]
    split_ifs with hx
    · exact hl x List.mem_cons_self
    · refine ih (fun y hy => hl y (List.mem_cons_of_mem x hy)) ?_
      exact (List.mem_cons.mp hn).resolve_left (Ne.symm hx)

/-- A new connection ID is needed. -/
theorem cnxidNoNeed_of_append (hn : n ∉ l.map Prod.fst)
    (h : cnxidNoNeed (l ++ [(n, false)]) m = true) : m ≠ n ∧ cnxidNoNeed l m = true := by
  induction l with
  | nil =>
    rw [List.nil_append, cnxidNoNeed_cons] at h
    split_ifs at h with hm
    exact ⟨Ne.symm hm, h⟩
  | cons x l ih =>
    rw [List.map_cons, List.mem_cons, not_or] at hn
    rw [List.cons_append, cnxidNoNeed_cons] at h
    rw [cnxidNoNeed_cons]
    split_ifs at h ⊢ with hx
    · exact ⟨fun hmn => hn.1 (hmn ▸ hx.symm), h⟩
    · exact ih hn.2 h

theorem cnxidNoNeed_of_markAcked (h : cnxidNoNeed (markAcked n l) m = true) :
    m = n ∨ cnxidNoNeed l m = true := by
  induction l with
  | nil => exact Or.inr h
  | cons x l ih =>
    rw [markAcked] at h
    split_ifs at h with hx
    · rw [cnxidNoNeed_cons] at h ⊢
      split_ifs at h ⊢ with hm
      · exact Or.inl (hm.symm.trans hx)
      · exact Or.inr h
    · rw [cnxidNoNeed_cons] at h ⊢
      split_ifs at h ⊢
      · exact Or.inr h
      · exact ih h

theorem cnxidNoNeed_of_removeCnxid (h : cnxidNoNeed (removeCnxid n l) m = true) :
    m = n ∨ cnxidNoNeed l m = true := by
  induction l with
  | nil => exact Or.inr h
  | cons x l ih =>
    rw [removeCnxid, List.eraseP_cons] at h
    by_cases hx : x.1 = n
    · rw [decide_eq_true hx, cond_true] at h
      rw [cnxidNoNeed_cons]
      split_ifs with hm
      · exact Or.inl (hm.symm.trans hx)
      · exact Or.inr h
    · rw [decide_eq_false hx, cond_false, cnxidNoNeed_cons] at h
      rw [cnxidNoNeed_cons]
      split_ifs at h ⊢
      · exact Or.inr h
      · exact ih h

end ConnectionIds

/-- One of our connection IDs is not announced again once it is acknowledged or removed. -/
theorem drops_newConnectionId {c : SendCnx} {log : List LogEntry} {m : ℕ}
    (h : DropsSuperseded log (.newConnectionId m)
      (cnxidNoNeed c.controlState.localCnxids m = true)) (e : ControlEvent) :
    DropsSuperseded (log ++ (c.control e).2) (.newConnectionId m)
      (cnxidNoNeed (c.control e).1.controlState.localCnxids m = true) := by
  cases e with
  | newConnectionId sequence =>
    simp only [SendCnx.control]
    split
    case isTrue => exact h.step (by simp) Or.inl
    rename_i hmem
    simp only [controlState_setControl]
    refine h.step (fun hm hdrops => ?_) fun hdrops => ?_
    · obtain rfl : m = sequence := by simpa using hm
      exact absurd rfl (cnxidNoNeed_of_append hmem hdrops).1
    · exact Or.inl (cnxidNoNeed_of_append hmem hdrops).2
  | removeLocalCnxid sequence =>
    refine h.step (by simp [SendCnx.control]) fun hdrops => ?_
    rcases cnxidNoNeed_of_removeCnxid hdrops with rfl | hdrops
    · exact Or.inr ⟨.localCnxidRemoved m, List.mem_cons_self, rfl⟩
    · exact Or.inl hdrops
  | acknowledged f =>
    cases f
    case newConnectionId sequence =>
      refine h.step (by simp [SendCnx.control]) fun hdrops => ?_
      rcases cnxidNoNeed_of_markAcked hdrops with rfl | hdrops
      · exact Or.inr ⟨.acked (.newConnectionId m), List.mem_cons_self, rfl⟩
      · exact Or.inl hdrops
    all_goals
      simp only [SendCnx.control, processAckOfControlFrame, controlState_modifyStream,
        controlState_setControl]
      exact h.step (by simp) Or.inl
  | plain f =>
    rw [control_plain]
    exact h.step (fun hm => absurd (isPlain_of_sent hm) Bool.false_ne_true) Or.inl
  | _ =>
    simp only [SendCnx.control, controlState_modifyStream, controlState_setControl]
    repeat' split
    all_goals exact h.step (by simp) Or.inl

/-- The flags of the stash are never set: an acknowledgement removes the connection ID. -/
theorem stashedCnxids_control {c : SendCnx} (h : ∀ x ∈ c.controlState.stashedCnxids, x.2 = false)
    (e : ControlEvent) : ∀ x ∈ (c.control e).1.controlState.stashedCnxids, x.2 = false := by
  cases e with
  | stashCnxid sequence =>
    simp only [SendCnx.control]
    split
    case isTrue => exact h
    intro x hx
    rcases List.mem_append.mp hx with hx | hx
    · exact h x hx
    · rw [List.mem_singleton.mp hx]
  | removeStashedCnxid sequence => exact fun x hx => h x (List.eraseP_subset hx)
  | acknowledged f =>
    cases f
    case retireConnectionId sequence => exact fun x hx => h x (List.eraseP_subset hx)
    all_goals
      simpa only [SendCnx.control, processAckOfControlFrame, controlState_modifyStream,
        controlState_setControl] using h
  | _ =>
    simp only [SendCnx.control, controlState_modifyStream, controlState_setControl]
    repeat' split
    all_goals exact h

/-- A connection ID of the peer is not retired again once that is acknowledged or it is gone. -/
theorem drops_retireConnectionId {c : SendCnx} {log : List LogEntry} {m : ℕ}
    (hflags : ∀ x ∈ c.controlState.stashedCnxids, x.2 = false)
    (h : DropsSuperseded log (.retireConnectionId m)
      (cnxidNoNeed c.controlState.stashedCnxids m = true)) (e : ControlEvent) :
    DropsSuperseded (log ++ (c.control e).2) (.retireConnectionId m)
      (cnxidNoNeed (c.control e).1.controlState.stashedCnxids m = true) := by
  cases e with
  | retireConnectionId sequence =>
    simp only [SendCnx.control]
    split
    case isFalse => exact h.step (by simp) Or.inl
    rename_i hmem
    refine h.step (fun hm hdrops => ?_) Or.inl
    obtain rfl : m = sequence := by simpa using hm
    rw [cnxidNoNeed_eq_false hflags hmem] at hdrops
    cases hdrops
  | stashCnxid sequence =>
    simp only [SendCnx.control]
    split
    case isTrue => exact h.step (by simp) Or.inl
    rename_i hmem
    exact h.step (by simp) fun hdrops => Or.inl (cnxidNoNeed_of_append hmem hdrops).2
  | removeStashedCnxid sequence =>
    refine h.step (by simp [SendCnx.control]) fun hdrops => ?_
    rcases cnxidNoNeed_of_removeCnxid hdrops with rfl | hdrops
    · exact Or.inr ⟨.stashedCnxidRemoved m, List.mem_cons_self, rfl⟩
    · exact Or.inl hdrops
  | acknowledged f =>
    cases f
    case retireConnectionId sequence =>
      refine h.step (by simp [SendCnx.control]) fun hdrops => ?_
      rcases cnxidNoNeed_of_removeCnxid hdrops with rfl | hdrops
      · exact Or.inr ⟨.acked (.retireConnectionId m), List.mem_cons_self, rfl⟩
      · exact Or.inl hdrops
    all_goals
      simp only [SendCnx.control, processAckOfControlFrame, controlState_modifyStream,
        controlState_setControl]
      exact h.step (by simp) Or.inl
  | plain f =>
    rw [control_plain]
    exact h.step (fun hm => absurd (isPlain_of_sent hm) Bool.false_ne_true) Or.inl
  | _ =>
    simp only [SendCnx.control, controlState_modifyStream, controlState_setControl]
    repeat' split
    all_goals exact h.step (by simp) Or.inl

/-! ### Streams -/

/-- The stream that a frame about a limit names. -/
def ControlFrame.streamId? : ControlFrame → Option ℕ
  | .maxStreamData streamId _ | .streamDataBlocked streamId _ => some streamId
  | _ => none

/-- What the log says about the limits of a stream. Everything about a stream that is gone is
superseded. -/
def LimitsLogged (log : List LogEntry) (streamId : ℕ) : Option SendStream → Prop
  | none => ∀ f : ControlFrame, f.streamId? = some streamId → .sent f ∈ log → Superseded log f
  | some s =>
    Channel.Tracks (.maxStreamData streamId) log s.maxdataLocal s.maxdataLocalAcked ∧
      ∀ m, DropsSuperseded log (.streamDataBlocked streamId m)
        (m < s.maxdataRemote ∨ s.streamDataBlockedSent = false)

section LimitsLogged

variable {log l : List LogEntry} {streamId : ℕ} {o : Option SendStream}

/-- Entries about other streams change nothing. -/
theorem LimitsLogged.append (h : LimitsLogged log streamId o)
    (hl : ∀ f : ControlFrame, f.streamId? = some streamId → .sent f ∉ l) :
    LimitsLogged (log ++ l) streamId o := by
  cases o with
  | none =>
    intro f hf hmem
    exact (h f hf ((List.mem_append.mp hmem).resolve_right (hl f hf))).append l
  | some s =>
    refine ⟨h.1.append fun n => hl _ rfl, fun m => ?_⟩
    exact (h.2 m).step (fun hm => absurd hm (hl _ rfl)) Or.inl

theorem LimitsLogged.congr {s s' : SendStream} (h : LimitsLogged log streamId (some s))
    (hs : (s'.maxdataLocal, s'.maxdataLocalAcked, s'.maxdataRemote, s'.streamDataBlockedSent) =
      (s.maxdataLocal, s.maxdataLocalAcked, s.maxdataRemote, s.streamDataBlockedSent)) :
    LimitsLogged log streamId (some s') := by
  simp only [Prod.mk.injEq] at hs
  obtain ⟨h1, h2, h3, h4⟩ := hs
  rw [LimitsLogged, h1, h2, h3, h4]
  exact h

theorem LimitsLogged.new
    (hlog : ∀ f : ControlFrame, f.streamId? = some streamId → .sent f ∉ log) (s : SendStream)
    (hs : s.maxdataLocalAcked = 0) : LimitsLogged log streamId (some s) := by
  rw [← List.nil_append log]
  refine LimitsLogged.append ⟨?_, fun m hm => absurd hm List.not_mem_nil⟩ hlog
  rw [hs]
  exact Channel.Tracks.initial s.maxdataLocal

/-- A stream that is deleted. -/
theorem LimitsLogged.deleted : LimitsLogged (log ++ [.streamDeleted streamId]) streamId none := by
  intro f hf hmem
  have hmem : .sent f ∈ log := by simpa using hmem
  cases f with
  | maxStreamData id m =>
    exact superseded_of_entry hmem List.mem_cons_self (Option.some.inj hf).symm
  | streamDataBlocked id m =>
    exact superseded_of_entry hmem List.mem_cons_self (Option.some.inj hf).symm
  | _ => cases hf

/-- An event about one stream. -/
theorem LimitsLogged.update {streams : ℕ → Option SendStream} {i : ℕ}
    (h : LimitsLogged log streamId (streams streamId))
    (hself : streamId = i → LimitsLogged (log ++ l) streamId o)
    (hl : ∀ f : ControlFrame, .sent f ∈ l → f.streamId? = some i) :
    LimitsLogged (log ++ l) streamId (Function.update streams i o streamId) := by
  rcases eq_or_ne streamId i with rfl | hne
  · rw [Function.update_self]
    exact hself rfl
  · rw [Function.update_of_ne hne]
    refine h.append fun f hf hm => hne ?_
    exact Option.some.inj (hf.symm.trans (hl f hm))

end LimitsLogged

/-- **One event**, and one stream. -/
theorem limitsLogged_control {c : SendCnx} {log : List LogEntry} {streamId : ℕ}
    (h : LimitsLogged log streamId (c.streams streamId)) (he : e.Raises c)
    (hacked : ∀ f, e = .acknowledged f → .sent f ∈ log) (hcreate : streamId ∈ e.creates →
      ∀ f : ControlFrame, f.streamId? = some streamId → .sent f ∉ log) :
    LimitsLogged (log ++ (c.control e).2) streamId ((c.control e).1.streams streamId) := by
  -- a stream that an event changes, if it exists
  have hmodify : ∀ {l : List LogEntry} {i : ℕ} {g : SendStream → SendStream},
      (∀ s, streamId = i → LimitsLogged log streamId (some s) →
        LimitsLogged (log ++ l) streamId (some (g s))) →
      (∀ f : ControlFrame, .sent f ∉ l) →
      LimitsLogged (log ++ l) streamId ((c.modifyStream i g).streams streamId) := by
    intro l i g hg hl
    rw [modifyStream_streams]
    refine h.update (fun hi => ?_) fun f hm => absurd hm (hl f)
    subst hi
    cases hs : c.streams streamId with
    | none =>
      rw [hs] at h
      exact h.append fun f _ => hl f
    | some s =>
      rw [hs] at h
      exact hg s rfl h
  cases e with
  | maxStreamData i newMaxData =>
    simp only [SendCnx.control]
    cases hi : c.streams i with
    | none => exact h.append (by simp)
    | some s =>
      refine LimitsLogged.update h (fun hself => ?_) (by simp [ControlFrame.streamId?])
      subst hself
      rw [hi] at h
      have hlt : s.maxdataLocal < newMaxData := by simpa [ControlEvent.Raises, hi] using he.1
      exact ⟨h.1.raise (channel_maxStreamData streamId) hlt.le (Nat.zero_lt_of_lt hlt),
        fun m => (h.2 m).step (by simp) Or.inl⟩
  | streamDataBlocked i =>
    simp only [SendCnx.control]
    cases hi : c.streams i with
    | none => exact h.append (by simp)
    | some s =>
      refine LimitsLogged.update h (fun hself => ?_) (by simp [ControlFrame.streamId?])
      subst hself
      rw [hi] at h
      refine ⟨h.1.append (by simp), fun m => (h.2 m).step (fun hm hdrops => ?_) fun hdrops => ?_⟩
      · obtain rfl : m = s.maxdataRemote := by simpa using hm
        exact absurd hdrops (by simp)
      · exact Or.inl (Or.inl (hdrops.resolve_right Bool.noConfusion))
  | maxStreamDataReceived i maxdata =>
    simp only [SendCnx.control]
    cases hi : c.streams i with
    | none => exact h.append (by simp)
    | some s =>
      dsimp only
      split
      case isFalse => exact h.append (by simp)
      refine LimitsLogged.update h (fun hself => ?_) (by simp)
      subst hself
      rw [hi] at h
      refine ⟨h.1.append (by simp), fun m => (h.2 m).step (by simp) fun _ => Or.inr ?_⟩
      exact ⟨.streamUnblocked streamId, List.mem_cons_self, rfl⟩
  | streamFrame i =>
    simp only [SendCnx.control, streams_setControl]
    refine hmodify (fun s hself hs => ?_) (by simp)
    subst hself
    refine ⟨hs.1.append (by simp), fun m => (hs.2 m).step (by simp) fun _ => Or.inr ?_⟩
    exact ⟨.streamUnblocked streamId, List.mem_cons_of_mem _ List.mem_cons_self, rfl⟩
  | createStream i maxdataLocal maxdataRemote =>
    simp only [SendCnx.control]
    refine LimitsLogged.update h (fun hself => ?_) (by simp)
    rw [List.append_nil]
    exact LimitsLogged.new (hcreate (hself ▸ List.mem_cons_self)) _ rfl
  | receiving i | sending i =>
    simp only [SendCnx.control]
    refine hmodify (fun s _ hs => ?_) (by simp)
    rw [List.append_nil]
    exact hs.congr rfl
  | deleteStream i =>
    simp only [SendCnx.control]
    refine LimitsLogged.update h (fun hself => ?_) (by simp)
    exact hself ▸ LimitsLogged.deleted
  | acknowledged f =>
    have hf := hacked f rfl
    cases f
    case maxStreamData i m =>
      simp only [SendCnx.control, processAckOfControlFrame]
      refine hmodify (fun s hself hs => ?_) (by simp)
      subst hself
      exact ⟨hs.1.acknowledge (channel_maxStreamData streamId) hf,
        fun m => (hs.2 m).step (by simp) Or.inl⟩
    all_goals exact h.append (by simp [SendCnx.control])
  | plain f =>
    rw [control_plain]
    refine h.append fun g hg hm => ?_
    have hplain := isPlain_of_sent hm
    cases g <;> cases hg <;> cases hplain
  | _ =>
    simp only [SendCnx.control]
    repeat' split
    all_goals exact h.append fun f hf => by cases f <;> cases hf <;> simp

/-- A stream that a frame about a limit names exists, and so do all streams after an event. -/
theorem streams_control_isSome {c : SendCnx} {streamId : ℕ}
    (h : ((c.control e).1.streams streamId).isSome = true) :
    (c.streams streamId).isSome = true ∨ streamId ∈ e.creates := by
  have hupdate : ∀ {i : ℕ} {o : Option SendStream},
      (o.isSome = true → (c.streams i).isSome = true) →
      (Function.update c.streams i o streamId).isSome = true →
      (c.streams streamId).isSome = true := by
    intro i o hi ho
    rcases eq_or_ne streamId i with rfl | hne
    · rw [Function.update_self] at ho
      exact hi ho
    · rwa [Function.update_of_ne hne] at ho
  have hmodify : ∀ {i : ℕ} {g : SendStream → SendStream},
      ((c.modifyStream i g).streams streamId).isSome = true →
      (c.streams streamId).isSome = true := by
    intro i g hi
    rw [modifyStream_streams] at hi
    rcases eq_or_ne streamId i with rfl | hne
    · rwa [Function.update_self, Option.isSome_map] at hi
    · rwa [Function.update_of_ne hne] at hi
  cases e with
  | maxStreamData i | streamDataBlocked i | maxStreamDataReceived i =>
    left
    revert h
    simp only [SendCnx.control]
    cases hi : c.streams i with
    | none => exact id
    | some s =>
      dsimp only
      repeat' split
      all_goals first
        | exact id
        | exact hupdate fun _ => hi ▸ rfl
  | createStream i =>
    rcases eq_or_ne streamId i with rfl | hne
    · exact Or.inr List.mem_cons_self
    · simp only [SendCnx.control, putStream, Function.update_of_ne hne] at h
      exact Or.inl h
  | deleteStream i => exact Or.inl (hupdate (fun hnone => Bool.noConfusion hnone) h)
  | streamFrame | receiving | sending => exact Or.inl (hmodify h)
  | acknowledged f =>
    left
    cases f
    case maxStreamData => exact hmodify h
    all_goals exact h
  | _ =>
    left
    revert h
    simp only [SendCnx.control]
    repeat' split
    all_goals exact id

/-- A frame about a limit is sent for a stream that exists. -/
theorem isSome_of_sent {c : SendCnx} {f : ControlFrame} {streamId : ℕ}
    (hf : f.streamId? = some streamId) (h : .sent f ∈ (c.control e).2) :
    (c.streams streamId).isSome = true := by
  cases e with
  | maxStreamData i | streamDataBlocked i =>
    revert h
    simp only [SendCnx.control]
    cases hi : c.streams i with
    | none => exact fun h => absurd h List.not_mem_nil
    | some s =>
      intro h
      cases List.mem_singleton.mp h
      rw [← Option.some.inj hf, hi, Option.isSome_some]
  | maxStreamDataReceived i =>
    revert h
    simp only [SendCnx.control]
    repeat' split
    all_goals simp
  | plain g =>
    rw [SendCnx.control] at h
    split_ifs at h with hg
    · rw [← sent.inj (List.mem_singleton.mp h)] at hg
      cases f <;> cases hf <;> cases hg
    · cases h
  | _ =>
    revert h
    simp only [SendCnx.control]
    repeat' split
    all_goals cases f <;> cases hf <;> simp

/-! ### Runs -/

/-- What the log says about all that the check compares. -/
structure LoggedCnx.Inv (a : LoggedCnx) : Prop where
  maxData : Channel.Tracks .maxData a.log a.cnx.controlState.maxdataLocal
    a.cnx.controlState.maxdataLocalAcked
  maxStreams : ∀ u, Channel.Tracks (.maxStreams u) a.log
    (streamRankFromId (a.cnx.controlState.maxStreamIdLocal u))
    (a.cnx.controlState.maxStreamIdRankAcked u)
  maxStreamIdLocal_lt : ∀ u r, .sent (.maxStreams u r) ∈ a.log →
    a.cnx.controlState.maxStreamIdLocal u < 2 ^ 62
  dataBlocked : ∀ m, DropsSuperseded a.log (.dataBlocked m)
    (m < a.cnx.maxdataRemote ∨ a.cnx.controlState.sentBlockedFrame = false)
  streamsBlocked : ∀ u r, DropsSuperseded a.log (.streamsBlocked u r)
    (streamIdFromRank r a.cnx.clientMode u < a.cnx.controlState.maxStreamIdRemote u ∨
      a.cnx.controlState.streamBlockedSent u = false)
  handshakeDone : a.cnx.controlState.isHandshakeDoneAcked = true → Superseded a.log .handshakeDone
  newToken : a.cnx.controlState.isNewTokenAcked = true → Superseded a.log .newToken
  newConnectionId : ∀ n, DropsSuperseded a.log (.newConnectionId n)
    (cnxidNoNeed a.cnx.controlState.localCnxids n = true)
  stashed : ∀ x ∈ a.cnx.controlState.stashedCnxids, x.2 = false
  retireConnectionId : ∀ n, DropsSuperseded a.log (.retireConnectionId n)
    (cnxidNoNeed a.cnx.controlState.stashedCnxids n = true)
  exists_mem : ∀ id, (a.cnx.streams id).isSome = true → id ∈ a.created
  named_mem : ∀ (f : ControlFrame) id, f.streamId? = some id → .sent f ∈ a.log → id ∈ a.created
  limits : ∀ id, LimitsLogged a.log id (a.cnx.streams id)

theorem LoggedCnx.Inv.initial (clientMode : Bool) (maxdataLocal maxdataRemote : ℕ)
    (maxStreamIdLocal maxStreamIdRemote : Bool → ℕ) :
    (LoggedCnx.initial clientMode maxdataLocal maxdataRemote maxStreamIdLocal
      maxStreamIdRemote).Inv where
  maxData := Channel.Tracks.initial _
  maxStreams _ := Channel.Tracks.initial _
  maxStreamIdLocal_lt _ _ h := absurd h List.not_mem_nil
  dataBlocked _ h := absurd h List.not_mem_nil
  streamsBlocked _ _ h := absurd h List.not_mem_nil
  handshakeDone h := Bool.noConfusion h
  newToken h := Bool.noConfusion h
  newConnectionId _ h := absurd h List.not_mem_nil
  stashed _ h := absurd h List.not_mem_nil
  retireConnectionId _ h := absurd h List.not_mem_nil
  exists_mem _ h := Bool.noConfusion h
  named_mem _ _ _ h := absurd h List.not_mem_nil
  limits _ _ _ h := absurd h List.not_mem_nil

/-- **One step.** -/
theorem LoggedCnx.Inv.step (h : a.Inv) (he : e.Raises a.cnx) : (a.step e).Inv := by
  rw [LoggedCnx.step]
  split_ifs with hpossible
  swap
  · exact h
  have hacked : ∀ f, e = .acknowledged f → .sent f ∈ a.log := by
    rintro f rfl
    exact of_decide_eq_true hpossible
  have hfresh : ∀ id ∈ e.creates, id ∉ a.created := by
    intro id hid
    cases e with
    | createStream streamId =>
      rw [List.mem_singleton.mp hid]
      exact of_decide_eq_true hpossible
    | _ => cases hid
  exact
    { maxData := tracks_maxData h.maxData he hacked
      maxStreams := fun u => tracks_maxStreams (h.maxStreams u) he hacked
      maxStreamIdLocal_lt := fun u => maxStreamIdLocal_control_lt (h.maxStreamIdLocal_lt u) he
      dataBlocked := fun m => drops_dataBlocked (h.dataBlocked m) e
      streamsBlocked := fun u r => drops_streamsBlocked (h.streamsBlocked u r) e
      handshakeDone := superseded_handshakeDone h.handshakeDone hacked
      newToken := superseded_newToken h.newToken hacked
      newConnectionId := fun n => drops_newConnectionId (h.newConnectionId n) e
      stashed := stashedCnxids_control h.stashed e
      retireConnectionId := fun n => drops_retireConnectionId h.stashed (h.retireConnectionId n) e
      exists_mem := fun id hid =>
        List.mem_append.mpr ((streams_control_isSome hid).symm.imp_right (h.exists_mem id))
      named_mem := fun f id hf hsent => by
        refine List.mem_append_right _ ?_
        rcases List.mem_append.mp hsent with hsent | hsent
        · exact h.named_mem f id hf hsent
        · exact h.exists_mem id (isSome_of_sent hf hsent)
      limits := fun id => limitsLogged_control (h.limits id) he hacked fun hid f hf hsent =>
        hfresh id hid (h.named_mem f id hf hsent) }

/-- A control frame that the check does not repeat was superseded, unless it is of no use any
more or of a kind that is not repeated. -/
def LoggedCnx.SoundRepeat (a : LoggedCnx) : Prop :=
  ∀ (ptype : PacketType) (isPreemptive : Bool) (f : ControlFrame), .sent f ∈ a.log →
    a.cnx.ComparesRightly f → a.cnx.controlNoNeed ptype isPreemptive f = true →
    Superseded a.log f ∨ a.cnx.IsMoot f ∨ f.IsNeverRepeated isPreemptive

/-- A limit on streams is repeated while it is the current one, as far as the type bits allow. -/
theorem LoggedCnx.Inv.superseded_maxStreams (h : a.Inv) (hsent : .sent (.maxStreams u r) ∈ a.log)
    (hbits : a.cnx.controlState.maxStreamIdLocal u % 4 ≤ 2 * u.toNat + (!a.cnx.clientMode).toNat)
    (hno : r ≤ a.cnx.controlState.maxStreamIdRankAcked u ∨
      streamIdFromRank r a.cnx.clientMode u < a.cnx.controlState.maxStreamIdLocal u) :
    Superseded a.log (.maxStreams u r) := by
  rcases hno with hno | hno
  · exact (h.maxStreams u).known r hsent hno
  rcases ((h.maxStreams u).le r hsent).lt_or_eq with hlt | heq
  · exact (h.maxStreams u).lower r hsent hlt
  have hlt := h.maxStreamIdLocal_lt u r hsent
  have hid := streamIdFromRank_rank hlt a.cnx.clientMode u
  rw [← heq] at hid
  omega

/-- **The decision is sound**, kind by kind. -/
theorem LoggedCnx.Inv.sound (h : a.Inv) : a.SoundRepeat := by
  intro ptype isPreemptive f hsent hright hno
  cases f with
  | maxData m =>
    left
    rcases of_decide_eq_true hno with hlt | hle
    · exact h.maxData.lower m hsent hlt
    · exact h.maxData.known m hsent hle
  | maxStreamData id m =>
    have hlimits := h.limits id
    rw [controlNoNeed] at hno
    cases hs : a.cnx.streams id with
    | none =>
      rw [hs] at hlimits
      exact Or.inl (hlimits _ rfl hsent)
    | some s =>
      rw [hs] at hlimits hno
      dsimp only at hno
      rcases (Bool.or_eq_true _ _).mp hno with hmoot | hno
      · exact Or.inr (Or.inl ⟨s, hs, hmoot⟩)
      left
      rcases of_decide_eq_true hno with hlt | hle
      · exact hlimits.1.lower m hsent hlt
      · exact hlimits.1.known m hsent hle
  | maxStreams u r => exact Or.inl (h.superseded_maxStreams hsent hright (of_decide_eq_true hno))
  | dataBlocked m =>
    rw [controlNoNeed, Bool.or_eq_true, decide_eq_true_eq, Bool.not_eq_true'] at hno
    exact Or.inl (h.dataBlocked m hsent hno)
  | streamsBlocked u r =>
    rw [controlNoNeed, Bool.or_eq_true, decide_eq_true_eq, Bool.not_eq_true'] at hno
    exact Or.inl (h.streamsBlocked u r hsent hno)
  | streamDataBlocked id m =>
    have hlimits := h.limits id
    rw [controlNoNeed] at hno
    cases hs : a.cnx.streams id with
    | none =>
      rw [hs] at hlimits
      exact Or.inl (hlimits _ rfl hsent)
    | some s =>
      rw [hs] at hlimits hno
      dsimp only at hno
      rw [Bool.or_eq_true, Bool.or_eq_true, decide_eq_true_eq, Bool.not_eq_true', or_assoc] at hno
      rcases hno with hmoot | hno
      · exact Or.inr (Or.inl ⟨s, hs, hmoot⟩)
      · exact Or.inl (hlimits.2 m hsent hno)
  | handshakeDone => exact Or.inl (h.handshakeDone hno)
  | newToken => exact Or.inl (h.newToken hno)
  | newConnectionId n => exact Or.inl (h.newConnectionId n hsent hno)
  | retireConnectionId n => exact Or.inl (h.retireConnectionId n hsent hno)
  | cryptoHs | ackFrequency => exact hright.elim
  | pathChallenge | datagram | ackMp | timeStamp => exact Or.inr (Or.inr trivial)
  | _ => exact Or.inr (Or.inr hno)

/-- **Lost control frames are repeated while they are needed**, in every run in which limits are
raised to numbers that frames can carry. -/
theorem control_repeat_sound (clientMode : Bool) (maxdataLocal maxdataRemote : ℕ)
    (maxStreamIdLocal maxStreamIdRemote : Bool → ℕ) (evs : List ControlEvent)
    (h : Along LoggedCnx.step (fun a (e : ControlEvent) => e.Raises a.cnx)
      (LoggedCnx.initial clientMode maxdataLocal maxdataRemote maxStreamIdLocal
        maxStreamIdRemote) evs) :
    (run LoggedCnx.step (LoggedCnx.initial clientMode maxdataLocal maxdataRemote maxStreamIdLocal
      maxStreamIdRemote) evs).SoundRepeat := by
  have hinv := run_invariant_of_along (I := fun a : LoggedCnx => a.Inv)
    (P := fun a (e : ControlEvent) => e.Raises a.cnx) (fun _ _ ha he => ha.step he)
    (LoggedCnx.Inv.initial clientMode maxdataLocal maxdataRemote maxStreamIdLocal
      maxStreamIdRemote) h
  exact hinv.sound

/-- A stream gets a larger limit, and then the peer finishes it. -/
def controlRun : List ControlEvent :=
  [.maxData 1000, .acknowledged (.maxData 2000), .maxStreams false 400, .createStream 0 1000 1000,
    .maxStreamData 0 5000, .receiving 0 true false false]

theorem control_repeat_sound_run :
    Along LoggedCnx.step (fun a (e : ControlEvent) => e.Raises a.cnx)
      (LoggedCnx.initial false 1000 1000 (fun _ => 40) (fun _ => 40)) controlRun ∧
    (run LoggedCnx.step (LoggedCnx.initial false 1000 1000 (fun _ => 40) (fun _ => 40))
      controlRun).SoundRepeat := by
  have h : Along LoggedCnx.step (fun a (e : ControlEvent) => e.Raises a.cnx)
      (LoggedCnx.initial false 1000 1000 (fun _ => 40) (fun _ => 40)) controlRun := by
    decide +kernel
  exact ⟨h, control_repeat_sound false 1000 1000 (fun _ => 40) (fun _ => 40) controlRun h⟩

/-- The limit of the finished stream is not repeated: the frame was not acknowledged, none was
sent later, and the stream is still there. -/
theorem moot_limit_not_repeated :
    let a := run LoggedCnx.step (LoggedCnx.initial false 1000 1000 (fun _ => 40) (fun _ => 40))
      controlRun
    .sent (.maxStreamData 0 5000) ∈ a.log ∧
      a.cnx.controlNoNeed .oneRttProtected false (.maxStreamData 0 5000) = true ∧
      (a.cnx.streams 0).isSome = true ∧ ¬ Superseded a.log (.maxStreamData 0 5000) := by
  intro a
  have hlog : a.log =
      [.sent (.maxData 2000), .acked (.maxData 2000), .sent (.maxStreams false 111)] ++
        [.sent (.maxStreamData 0 5000)] := by
    decide +kernel
  refine ⟨by rw [hlog]; simp, by decide +kernel, by decide +kernel, ?_⟩
  rintro ⟨before, after, happ, hsent, e, he, -⟩
  -- the frame is the last entry, so nothing is behind it
  rcases List.eq_nil_or_concat after with rfl | ⟨after, x, rfl⟩
  · cases he
  rw [hlog, List.concat_eq_append, ← List.append_assoc] at happ
  have hbefore := List.append_inj_left' happ rfl
  have hmem := hbefore ▸ List.mem_append_left after hsent
  revert hmem
  decide

end Picoquic
