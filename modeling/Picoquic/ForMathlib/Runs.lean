import Mathlib.Data.List.Basic

/-!
# Runs of a labelled transition function

A component that reacts to events is a function `step : σ → ε → σ`. A *run* folds it over a
list of events. The rules below turn a statement about one step into a statement about every
run:

* **`run_invariant`** — what every step preserves holds at the end of every run;
* **`run_invariant_of_along`** — the guarded form, where only the steps that meet a condition
  on the state before the step preserve the invariant, and the run takes such steps only;
* **`along_of_invariant`** — what an invariant and the condition give at each step, they give along
  every run that takes such steps only;
* **`Along.append_iff`** — a guarded run splits into guarded parts;
* **`forall_prefix_iff_along`** — where a step keeps a property exactly if it meets the condition,
  the property holds all along exactly the runs that take such steps only;
* **`along_of_forall_prefix`**, **`forall_prefix_of_along`** — the two directions apart, where one
  of them needs a condition of its own;
* **`total_balance`** — what every step balances is balanced over a run;
* **`total_le`** — a step spends no more than it is given and has put aside, and so does a run.
-/

namespace Runs

variable {σ ε : Type*} {step : σ → ε → σ}

/-- The state a list of events leads to. -/
def run (step : σ → ε → σ) (s : σ) (evs : List ε) : σ := evs.foldl step s

@[simp]
theorem run_nil (s : σ) : run step s [] = s := rfl

@[simp]
theorem run_cons (s : σ) (e : ε) (evs : List ε) :
    run step s (e :: evs) = run step (step s e) evs := rfl

@[simp]
theorem run_append (s : σ) (evs evs' : List ε) :
    run step s (evs ++ evs') = run step (run step s evs) evs' :=
  List.foldl_append

/-- **Guarded runs**: `P` holds of every event and of the state the event finds. -/
def Along (step : σ → ε → σ) (P : σ → ε → Prop) : σ → List ε → Prop
  | _, [] => True
  | s, e :: evs => P s e ∧ Along step P (step s e) evs

/-- The guard of a run is decided event by event. -/
instance Along.decidable {P : σ → ε → Prop} [∀ s e, Decidable (P s e)] :
    ∀ (s : σ) (evs : List ε), Decidable (Along step P s evs)
  | _, [] => inferInstanceAs (Decidable True)
  | s, e :: evs =>
    have := Along.decidable (P := P) (step s e) evs
    inferInstanceAs (Decidable (P s e ∧ Along step P (step s e) evs))

@[simp]
theorem along_nil {P : σ → ε → Prop} (s : σ) : Along step P s [] := trivial

@[simp]
theorem along_cons {P : σ → ε → Prop} {s : σ} {e : ε} {evs : List ε} :
    Along step P s (e :: evs) ↔ P s e ∧ Along step P (step s e) evs := Iff.rfl

theorem along_of_forall {P : σ → ε → Prop} {evs : List ε} (h : ∀ e ∈ evs, ∀ s, P s e) (s : σ) :
    Along step P s evs := by
  induction evs generalizing s with
  | nil => trivial
  | cons e evs ih =>
    exact ⟨h e List.mem_cons_self s, ih (fun e' he' => h e' (List.mem_cons_of_mem e he')) _⟩

theorem Along.imp {P Q : σ → ε → Prop} (h : ∀ s e, P s e → Q s e) {s : σ} {evs : List ε}
    (hevs : Along step P s evs) : Along step Q s evs := by
  induction evs generalizing s with
  | nil => trivial
  | cons e evs ih => exact ⟨h s e hevs.1, ih hevs.2⟩

theorem Along.and {P Q : σ → ε → Prop} {s : σ} {evs : List ε} (h : Along step P s evs)
    (h' : Along step Q s evs) : Along step (fun s e => P s e ∧ Q s e) s evs := by
  induction evs generalizing s with
  | nil => trivial
  | cons e evs ih => exact ⟨⟨h.1, h'.1⟩, ih h.2 h'.2⟩

/-- A guarded run splits at any point. -/
theorem Along.append_iff {P : σ → ε → Prop} {s : σ} {evs evs' : List ε} :
    Along step P s (evs ++ evs') ↔ Along step P s evs ∧ Along step P (run step s evs) evs' := by
  induction evs generalizing s with
  | nil => simp
  | cons e evs ih => simp [ih, and_assoc]

/-- **Guarded invariant rule.** If every step that meets `P` preserves `I`, then a run that
meets `P` along the way preserves `I`. -/
theorem run_invariant_of_along {P : σ → ε → Prop} {I : σ → Prop}
    (hstep : ∀ s e, I s → P s e → I (step s e)) {s : σ} {evs : List ε}
    (hs : I s) (hevs : Along step P s evs) : I (run step s evs) := by
  induction evs generalizing s with
  | nil => exact hs
  | cons e evs ih => exact ih (hstep s e hs hevs.1) hevs.2

/-- **Invariant rule.** What every step preserves, every run preserves. -/
theorem run_invariant {I : σ → Prop} (hstep : ∀ s e, I s → I (step s e)) {s : σ}
    (hs : I s) (evs : List ε) : I (run step s evs) := by
  induction evs generalizing s with
  | nil => exact hs
  | cons e evs ih => exact ih (hstep s e hs)

/-- **Guarded runs with an invariant.** If every step that meets `P` preserves `I`, and `Q` follows
from both, then a run that meets `P` along the way meets `Q`. -/
theorem along_of_invariant {P Q : σ → ε → Prop} {I : σ → Prop}
    (hstep : ∀ s e, I s → P s e → I (step s e)) (hQ : ∀ s e, I s → P s e → Q s e)
    {s : σ} {evs : List ε} (hs : I s) (hevs : Along step P s evs) : Along step Q s evs := by
  induction evs generalizing s with
  | nil => trivial
  | cons e evs ih => exact ⟨hQ s e hs hevs.1, ih (hstep s e hs hevs.1) hevs.2⟩

/-- **Exact guards.** An invariant `I` gives `J`. If a step from `I` leads to `J` exactly when it
meets `P`, and then to `I` again, then `J` holds in every state of a run exactly when the run meets
`P` along the way. -/
theorem forall_prefix_iff_along {P : σ → ε → Prop} {I J : σ → Prop} (hJ : ∀ s, I s → J s)
    (hstep : ∀ s e, I s → (J (step s e) ↔ P s e)) (hkeep : ∀ s e, I s → P s e → I (step s e))
    {s : σ} (hs : I s) (evs : List ε) :
    (∀ evs', evs' <+: evs → J (run step s evs')) ↔ Along step P s evs := by
  induction evs generalizing s with
  | nil =>
    refine iff_of_true ?_ trivial
    intro evs' hpre
    rw [List.prefix_nil.mp hpre]
    exact hJ s hs
  | cons e evs ih =>
    constructor
    · intro h
      have hP : P s e := (hstep s e hs).mp (h [e] ⟨evs, rfl⟩)
      refine ⟨hP, (ih (hkeep s e hs hP)).mp ?_⟩
      intro evs' hpre
      exact h (e :: evs') (List.cons_prefix_cons.mpr ⟨rfl, hpre⟩)
    · rintro ⟨hP, halong⟩ evs' hpre
      rcases evs' with _ | ⟨e', evs'⟩
      · exact hJ s hs
      · obtain ⟨rfl, htail⟩ := List.cons_prefix_cons.mp hpre
        exact (ih (hkeep s e' hs hP)).mpr halong evs' htail

/-- **Necessary guards.** In a run whose steps meet `N`, the states all have `J`; if a step from `I`
that meets `N` and leads to `J` meets `P` and leads to `I` again, then the run meets `P`. -/
theorem along_of_forall_prefix {N P : σ → ε → Prop} {I J : σ → Prop}
    (hstep : ∀ s e, I s → N s e → J (step s e) → P s e ∧ I (step s e))
    {s : σ} (hs : I s) {evs : List ε} (hN : Along step N s evs)
    (hJ : ∀ evs', evs' <+: evs → J (run step s evs')) : Along step P s evs := by
  induction evs generalizing s with
  | nil => trivial
  | cons e evs ih =>
    obtain ⟨hP, hI⟩ := hstep s e hs hN.1 (hJ [e] ⟨evs, rfl⟩)
    refine ⟨hP, ih hI hN.2 ?_⟩
    intro evs' hpre
    exact hJ (e :: evs') (List.cons_prefix_cons.mpr ⟨rfl, hpre⟩)

/-- What every step that meets `P` keeps holds in every state of a run that meets `P`. -/
theorem forall_prefix_of_along {P : σ → ε → Prop} {I : σ → Prop}
    (hstep : ∀ s e, I s → P s e → I (step s e)) {s : σ} (hs : I s) {evs : List ε}
    (hevs : Along step P s evs) : ∀ evs', evs' <+: evs → I (run step s evs') := by
  rintro evs' ⟨rest, rfl⟩
  exact run_invariant_of_along hstep hs (Along.append_iff.mp hevs).1

/-! ### Totals -/

/-- A quantity of each step is added up along a run. -/
def total (step : σ → ε → σ) (f : σ → ε → ℕ) : σ → List ε → ℕ
  | _, [] => 0
  | s, e :: evs => f s e + total step f (step s e) evs

/-- **The balance of a run.** If every step that meets `P` moves the measure `m` by the difference
of two quantities, then so does a run, by the difference of their totals. -/
theorem total_balance {P : σ → ε → Prop} {I : σ → Prop} {m : σ → ℕ} {f g : σ → ε → ℕ}
    (hkeep : ∀ s e, I s → P s e → I (step s e))
    (hstep : ∀ s e, I s → P s e → m s + f s e = m (step s e) + g s e) {s : σ} {evs : List ε}
    (hs : I s) (hevs : Along step P s evs) :
    m s + total step f s evs = m (run step s evs) + total step g s evs := by
  induction evs generalizing s with
  | nil => rfl
  | cons e evs ih =>
    have hhead := hstep s e hs hevs.1
    have htail := ih (hkeep s e hs hevs.1) hevs.2
    rw [total, total, run_cons]
    omega

/-- **The budget of a run.** If every step spends no more than it is given and takes from the
measure `m`, then so does a run. -/
theorem total_le {m : σ → ℕ} {f g : σ → ε → ℕ}
    (hstep : ∀ s e, f s e + m (step s e) ≤ m s + g s e) (s : σ) (evs : List ε) :
    total step f s evs + m (run step s evs) ≤ m s + total step g s evs := by
  induction evs generalizing s with
  | nil =>
    rw [total, total, run_nil]
    omega
  | cons e evs ih =>
    have hhead := hstep s e
    have htail := ih (step s e)
    rw [total, total, run_cons]
    omega

end Runs
