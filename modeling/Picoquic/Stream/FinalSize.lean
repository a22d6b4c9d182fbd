import Picoquic.Stream.Cases

/-!
# Final sizes

A FIN or a RESET_STREAM frame fixes the final size of a stream. What arrives before must end
within it, what arrives later must end within it and repeat it.

* **`ReceivedFrame.Agrees`** — an earlier and a later frame that fit together;
* **`StreamEvent.RespectsFinalSize`** — the frame does not contradict the final size where the
  decoder takes no notice: a FIN or a first RESET_STREAM below data received before, and data
  after a RESET_STREAM;
* **`final_size_consistent`** — in runs with such frames all accepted frames of a stream fit
  together, and a frame that contradicts the final size raises an error.
-/

namespace Picoquic

open Runs

/-! ### Frames that fit together -/

/-- Where a frame ends. -/
def ReceivedFrame.stop : ReceivedFrame → ℕ
  | .stream offset bytes _ => offset + bytes.length
  | .reset finalOffset => finalOffset

/-- The final size that a frame declares. -/
def ReceivedFrame.finalSize : ReceivedFrame → Option ℕ
  | .stream offset bytes fin => if fin then some (offset + bytes.length) else none
  | .reset finalOffset => some finalOffset

/-- Two frames, the earlier one first, fit together: the later one stays within the final size of
the earlier one and repeats it, and the earlier one is within the final size of the later one. -/
def ReceivedFrame.Agrees (a b : ReceivedFrame) : Prop :=
  (∀ F ∈ a.finalSize, b.stop ≤ F ∧ ∀ F' ∈ b.finalSize, F' = F) ∧ ∀ F ∈ b.finalSize, a.stop ≤ F

instance : DecidableRel ReceivedFrame.Agrees :=
  fun _ _ => inferInstanceAs (Decidable (_ ∧ _))

theorem ReceivedFrame.stop_eq_of_mem {a : ReceivedFrame} {F : ℕ} (h : F ∈ a.finalSize) :
    a.stop = F := by
  cases a with
  | stream offset bytes fin =>
    cases fin with
    | true => exact Option.some.inj h
    | false => cases h
  | reset finalOffset => exact Option.some.inj h

/-- The accepted frames of a stream fit together. -/
def StreamHead.Consistent (s : StreamHead) : Prop := s.arrived.Pairwise ReceivedFrame.Agrees

instance (s : StreamHead) : Decidable s.Consistent :=
  inferInstanceAs (Decidable (List.Pairwise _ _))

/-! ### The invariant -/

/-- **Invariant of a stream.** All frames end below the highest offset, which is the final size
once one is declared; the flags say whether it is. -/
structure StreamHead.Sized (s : StreamHead) : Prop where
  consistent : s.Consistent
  stop_le : ∀ a ∈ s.arrived, a.stop ≤ s.finOffset
  finalSize_eq : ∀ a ∈ s.arrived, ∀ F ∈ a.finalSize, F = s.finOffset
  received : ∀ a ∈ s.arrived, ∀ F ∈ a.finalSize, s.finReceived = true ∨ s.resetReceived = true

variable {f : ReceivedFrame}

section

variable {s : StreamHead}

theorem StreamHead.IsNew.sized (h : s.IsNew) : s.Sized := by
  obtain ⟨c, id, rfl⟩ := h
  have hnil : ∀ a ∈ (c.newStream id).arrived, False := fun a ha => List.not_mem_nil ha
  exact ⟨List.Pairwise.nil, fun a ha => (hnil a ha).elim, fun a ha => (hnil a ha).elim,
    fun a ha => (hnil a ha).elim⟩

/-- A frame that ends within the final size, if there is one, and declares no other one, fits
together with what arrived before. -/
theorem StreamHead.Sized.agrees (h : s.Sized)
    (hstop : s.finReceived = true ∨ s.resetReceived = true → f.stop ≤ s.finOffset)
    (hsize : ∀ F ∈ f.finalSize, s.finOffset ≤ F) : ∀ a ∈ s.arrived, a.Agrees f := by
  refine fun a ha => ⟨fun F hF => ?_, fun F hF => (h.stop_le a ha).trans (hsize F hF)⟩
  have hle := hstop (h.received a ha F hF)
  rw [h.finalSize_eq a ha F hF]
  refine ⟨hle, fun F' hF' => ?_⟩
  rw [ReceivedFrame.stop_eq_of_mem hF'] at hle
  exact le_antisymm hle (hsize F' hF')

/-- The invariant after such a frame. -/
theorem StreamHead.Sized.append (h : s.Sized) {s' : StreamHead}
    (hstop : s.finReceived = true ∨ s.resetReceived = true → f.stop ≤ s.finOffset)
    (hsize : ∀ F ∈ f.finalSize, s.finOffset ≤ F) (harr : s'.arrived = s.arrived ++ [f])
    (hfin : s'.finOffset = max s.finOffset f.stop)
    (hflag : (s.finReceived = true ∨ s.resetReceived = true) ∨ f.finalSize.isSome →
      s'.finReceived = true ∨ s'.resetReceived = true) : s'.Sized := by
  have hold : ∀ a ∈ s.arrived, ∀ F ∈ a.finalSize, s'.finOffset = s.finOffset := by
    intro a ha F hF
    rw [hfin, max_eq_left (hstop (h.received a ha F hF))]
  refine ⟨?_, fun a ha => ?_, fun a ha F hF => ?_, fun a ha F hF => ?_⟩
  · rw [Consistent, harr, List.pairwise_append]
    refine ⟨h.consistent, List.pairwise_singleton _ _, fun a ha b hb => ?_⟩
    rw [List.mem_singleton.mp hb]
    exact h.agrees hstop hsize a ha
  · rw [harr, List.mem_append, List.mem_singleton] at ha
    rw [hfin]
    rcases ha with ha | rfl
    · exact (h.stop_le a ha).trans (le_max_left _ _)
    · exact le_max_right _ _
  · rw [harr, List.mem_append, List.mem_singleton] at ha
    rcases ha with ha | rfl
    · rw [hold a ha F hF]
      exact h.finalSize_eq a ha F hF
    · rw [hfin, ReceivedFrame.stop_eq_of_mem hF]
      exact (max_eq_right (hsize F hF)).symm
  · rw [harr, List.mem_append, List.mem_singleton] at ha
    rcases ha with ha | rfl
    · exact hflag (Or.inl (h.received a ha F hF))
    · exact hflag (Or.inr (Option.isSome_iff_exists.mpr ⟨F, hF⟩))

end

/-! ### What the decoders do not check -/

/-- **The frame respects the final size** in the cases that the decoders do not check. A FIN, and
a first RESET_STREAM frame, is not below the highest offset received; data that follow a
RESET_STREAM frame, without a FIN, end within the final size. -/
def StreamEvent.RespectsFinalSize (c : Cnx) : StreamEvent → Prop
  | .streamFrame id offset fin bytes =>
    ∀ s ∈ (c.findOrCreateStream id true).2, s.finReceived = false →
      (fin = true → s.finOffset ≤ offset + bytes.length) ∧
      (s.resetReceived = true → offset + bytes.length ≤ s.finOffset)
  | .resetFrame id _ finalOffset =>
    ∀ s ∈ (c.findOrCreateStream id true).2, s.finReceived = false → s.resetReceived = false →
      s.finOffset ≤ finalOffset
  | _ => True

instance (c : Cnx) : ∀ e : StreamEvent, Decidable (e.RespectsFinalSize c)
  | .streamFrame id offset fin bytes =>
    inferInstanceAs (Decidable (∀ s ∈ (c.findOrCreateStream id true).2, s.finReceived = false →
      (fin = true → s.finOffset ≤ offset + bytes.length) ∧
      (s.resetReceived = true → offset + bytes.length ≤ s.finOffset)))
  | .resetFrame id _ finalOffset =>
    inferInstanceAs (Decidable (∀ s ∈ (c.findOrCreateStream id true).2, s.finReceived = false →
      s.resetReceived = false → s.finOffset ≤ finalOffset))
  | .openStream _ | .stopSending _ | .discard _ | .sending _ _ | .maxStreams _ _ _ _ | .mode _ _
  | .maxData _ _ | .maxStreamData _ _ | .openFlowControl _ _ => inferInstanceAs (Decidable True)

/-- Every event keeps the invariant, if it respects the final size. -/
theorem sized_invariant {c : Cnx} {e : StreamEvent} (he : e.RespectsFinalSize c) :
    StreamInvariant c e fun failed s => if failed then s.Consistent else s.Sized where
  fail _ h := h.consistent
  new _ h := h.sized
  closed _ h := ⟨h.1, h.2, h.3, h.4⟩
  sending _ _ h := ⟨h.1, h.2, h.3, h.4⟩
  limit _ _ h := ⟨h.1, h.2, h.3, h.4⟩
  stopSending _ _ h := ⟨h.1, h.2, h.3, h.4⟩
  discard _ _ h := ⟨h.1, h.2, h.3, h.4⟩
  stream s offset fin bytes h hfind hcon hs := by
    subst h
    obtain ⟨-, hfr, hrr, hfin, -, harr⟩ := s.accept_fields offset fin bytes
    have hsized : s.Sized := hs
    refine hsized.append (f := .stream offset bytes fin) (fun hfixed => ?_) (fun F hF => ?_) harr
      hfin (fun hfixed => ?_)
    · change offset + bytes.length ≤ s.finOffset
      cases hs' : s.finReceived with
      | true => exact not_lt.mp fun hlt => hcon ⟨hs', Or.inl hlt⟩
      | false =>
        rw [hs'] at hfixed
        exact (he s hfind hs').2 (hfixed.resolve_left Bool.false_ne_true)
    · cases fin with
      | false => cases hF
      | true =>
        rw [← ReceivedFrame.stop_eq_of_mem hF]
        change s.finOffset ≤ offset + bytes.length
        cases hs' : s.finReceived with
        | true => exact (not_not.mp fun hne => hcon ⟨hs', Or.inr ⟨rfl, hne⟩⟩).le
        | false => exact (he s hfind hs').1 rfl
    · rw [hfr, hrr]
      rcases hfixed with (hfixed | hfixed) | hfixed
      · rw [hfixed]
        exact Or.inl rfl
      · exact Or.inr hfixed
      · cases fin with
        | false => cases hfixed
        | true => exact Or.inl (Bool.or_true _)
  refuse _ _ _ _ _ _ h := h.consistent
  reset s errorCode finalOffset h hfind heq hs := by
    subst h
    obtain ⟨-, -, hrr, hfin, -, harr⟩ := s.acceptReset_fields errorCode finalOffset
    have hsized : s.Sized := hs
    refine hsized.append (f := .reset finalOffset) (fun hfixed => (heq hfixed).le)
      (fun F hF => ?_) harr hfin (fun _ => Or.inr hrr)
    rw [← ReceivedFrame.stop_eq_of_mem hF]
    change s.finOffset ≤ finalOffset
    by_cases hfixed : s.finReceived = true ∨ s.resetReceived = true
    · exact (heq hfixed).ge
    · rw [not_or, Bool.not_eq_true, Bool.not_eq_true] at hfixed
      exact he s hfind hfixed.1 hfixed.2

/-! ### Frames that contradict the final size -/

/-- The frame that an event brings, and its stream. -/
def StreamEvent.frame : StreamEvent → Option (ℕ × ReceivedFrame)
  | .streamFrame id offset fin bytes => some (id, .stream offset bytes fin)
  | .resetFrame id _ finalOffset => some (id, .reset finalOffset)
  | _ => none

/-- **Refusal.** A frame that respects the final size where the decoder does not check it, and
does not fit together with a frame of its stream that declared the final size, raises an error and
does nothing else. -/
theorem step_of_contradiction {c : Cnx} {s : StreamHead} {e : StreamEvent}
    {a f : ReceivedFrame} {F : ℕ} (hc : c.error = none) (he : e.RespectsFinalSize c)
    (hf : e.frame = some (s.streamId, f)) (hfind : c.findStream s.streamId = some s)
    (hs : s.Sized) (ha : a ∈ s.arrived) (hF : F ∈ a.finalSize)
    (hcon : F < f.stop ∨ ∃ F' ∈ f.finalSize, F' ≠ F) :
    c.step e = c.connectionError .finalOffset := by
  have hfound : c.findOrCreateStream s.streamId true = (c, some s) := by
    rw [Cnx.findOrCreateStream, hfind]
  have hsize := hs.finalSize_eq a ha F hF
  have hfixed := hs.received a ha F hF
  rw [Cnx.step.eq_def, hc]
  cases e with
  | streamFrame id offset fin bytes =>
    cases hf
    change c.decodeStreamFrame s.streamId offset fin bytes = _
    rw [Cnx.decodeStreamFrame]
    split_ifs
    · rfl
    have hcon' : s.Contradicts (offset + bytes.length) fin := by
      have hend : s.finOffset < offset + bytes.length ∨
          fin = true ∧ s.finOffset ≠ offset + bytes.length := by
        rcases hcon with hlt | ⟨F', hF', hne⟩
        · exact Or.inl (hsize ▸ hlt)
        · cases fin with
          | false => cases hF'
          | true =>
            rw [← ReceivedFrame.stop_eq_of_mem hF', hsize] at hne
            exact Or.inr ⟨rfl, hne.symm⟩
      cases hs' : s.finReceived with
      | true => exact ⟨hs', hend⟩
      | false =>
        -- a RESET_STREAM frame alone fixed the size, and the frame respects it
        rw [hs'] at hfixed
        obtain ⟨hge, hle⟩ := he s (by rw [hfound]; rfl) hs'
        have hle := hle (hfixed.resolve_left Bool.false_ne_true)
        rcases hend with hlt | ⟨hfin, hne⟩
        · omega
        · have := hge hfin
          omega
    rcases c.streamNetworkInput_cases s.streamId offset fin bytes with
      ⟨hnone, -⟩ | ⟨s', hs', ⟨-, h⟩ | ⟨hfr, -, -⟩ | ⟨hcon'', -, -⟩⟩
    · rw [hfound] at hnone
      cases hnone
    · rw [h, hfound]
    · rw [hfound] at hs'
      cases hs'
      exact absurd hcon'.1 (by rw [hfr]; exact Bool.false_ne_true)
    · rw [hfound] at hs'
      cases hs'
      exact absurd hcon' hcon''
  | resetFrame id errorCode finalOffset =>
    cases hf
    change c.decodeStreamResetFrame s.streamId errorCode finalOffset = _
    have hne : finalOffset ≠ s.finOffset := by
      rcases hcon with hlt | ⟨F', hF', hne⟩
      · exact (hsize ▸ hlt : s.finOffset < finalOffset).ne'
      · rw [← ReceivedFrame.stop_eq_of_mem hF', hsize] at hne
        exact hne
    rcases c.decodeStreamResetFrame_cases s.streamId errorCode finalOffset with
      ⟨hnone, -⟩ | ⟨s', hs', ⟨-, -, h⟩ | ⟨heq, -, -⟩ | ⟨heq, -, -⟩⟩
    · rw [hfound] at hnone
      cases hnone
    · rw [h, hfound]
    all_goals
      rw [hfound] at hs'
      cases hs'
      exact absurd (heq hfixed) hne
  | _ => cases hf

/-! ### Runs -/

/-- **Final size consistency.** In every run whose frames respect the final size where the
decoders do not check it, the accepted frames of every stream fit together: no declared final size
is below the end of an earlier frame, and no later frame ends beyond it or declares another one.
At its end, any such frame for a stream that exists raises an error and changes nothing. -/
theorem final_size_consistent {clientMode : Bool} {params : TransportParameters}
    {evs : List StreamEvent}
    (hevs : Along Cnx.step (fun c e => e.RespectsFinalSize c) (Cnx.initial clientMode params) evs) :
    let c := run Cnx.step (Cnx.initial clientMode params) evs
    (∀ s ∈ c.everyStream, s.arrived.Pairwise ReceivedFrame.Agrees) ∧
      ∀ e s a f F, c.error = none → e.RespectsFinalSize c → e.frame = some (s.streamId, f) →
        c.findStream s.streamId = some s → a ∈ s.arrived → F ∈ a.finalSize →
        (F < f.stop ∨ ∃ F' ∈ f.finalSize, F' ≠ F) →
        c.step e = c.connectionError .finalOffset := by
  intro c
  have hinv : Along Cnx.step (fun c e =>
      StreamInvariant c e fun failed s => if failed then s.Consistent else s.Sized)
      (Cnx.initial clientMode params) evs := hevs.imp fun c e he => sized_invariant he
  have h := Cnx.run_allStreams hinv
  refine ⟨fun s hs => ?_, fun e s a f F hc he hf hfind ha hF hcon => ?_⟩
  · have hs := h s hs
    dsimp only at hs
    split_ifs at hs
    · exact hs
    · exact hs.consistent
  · have hs := h s (List.mem_append_left _ (Cnx.mem_of_findStream hfind).1)
    rw [show (run Cnx.step (Cnx.initial clientMode params) evs).error = none from hc] at hs
    exact step_of_contradiction hc he hf hfind hs ha hF hcon

theorem final_size_consistent_sample :
    let c := run Cnx.step (Cnx.initial false ⟨100, 100, 100, 100⟩)
      [.streamFrame 0 2 false [3, 4], .resetFrame 0 7 4, .streamFrame 0 0 false [1, 2]]
    ∀ s ∈ c.everyStream, s.arrived.Pairwise ReceivedFrame.Agrees := by
  have hevs : Along Cnx.step (fun c e => e.RespectsFinalSize c)
      (Cnx.initial false ⟨100, 100, 100, 100⟩)
      [.streamFrame 0 2 false [3, 4], .resetFrame 0 7 4, .streamFrame 0 0 false [1, 2]] := by
    decide +kernel
  exact (final_size_consistent hevs).1

/-- A server accepts these frames, which do not fit together. -/
def AcceptsContradiction (evs : List StreamEvent) : Prop :=
  let c := run Cnx.step (Cnx.initial false ⟨100, 100, 100, 100⟩) evs
  c.error = none ∧ ∃ s ∈ c.everyStream, ¬ s.arrived.Pairwise ReceivedFrame.Agrees

instance (evs : List StreamEvent) : Decidable (AcceptsContradiction evs) :=
  inferInstanceAs (Decidable (_ ∧ ∃ s ∈ _, _))

/-- A FIN and a RESET_STREAM frame below data received before, and data beyond the final size of a
RESET_STREAM frame, are accepted. -/
theorem final_size_contradicted :
    AcceptsContradiction
        [.streamFrame 0 0 false (List.replicate 10 0), .streamFrame 0 3 true [1, 2]] ∧
      AcceptsContradiction [.streamFrame 0 0 false (List.replicate 10 0), .resetFrame 0 7 5] ∧
      AcceptsContradiction [.resetFrame 0 7 5, .streamFrame 0 8 true [1, 2]] := by
  decide +kernel

end Picoquic
