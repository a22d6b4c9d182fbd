import Mathlib.Data.Option.Basic
import Mathlib.Logic.Relation

/-!
# Reading and skipping

A *reader* takes a value from the front of a list and returns it with what follows. A *skipper*
only returns what follows. Where both are written for one format, the skipper should find the end
of everything that the reader takes.

* **`Covers.bind`** — one field after another;
* **`Covers.map`**, **`Covers.skipped`** — what is made of a value, and a value of no interest;
* **`Covers.reach`** — a list read to some point is skipped to the same point;
* **`Trims`** — skippers that return the end of the list.
-/

namespace Readers

variable {α β γ σ ε : Type*}

/-- What `read` reads from the front of a list, `skip` skips. -/
def Covers (skip : List α → Option (List α)) (read : List α → Option (β × List α)) : Prop :=
  ∀ ⦃l b rest⦄, read l = some (b, rest) → skip l = some rest

namespace Covers

variable {s t : List α → Option (List α)} {p : List α → Option (β × List α)}

/-- Nothing is read. -/
theorem nothing (b : β) : Covers (some : List α → Option (List α)) fun l => some (b, l) := by
  intro l b' rest h
  rw [(Prod.mk.inj (Option.some.inj h)).2]

/-- A field, and then another that may depend on it. -/
theorem bind (hs : Covers s p) {q : β → List α → Option (γ × List α)} (ht : ∀ b, Covers t (q b)) :
    Covers (fun l => (s l).bind t) fun l => (p l).bind fun x => q x.1 x.2 := by
  intro l c rest h
  obtain ⟨⟨b, l'⟩, hp, hq⟩ := Option.bind_eq_some_iff.mp h
  have hskip : (s l).bind t = t l' := by rw [hs hp, Option.bind_some]
  exact hskip.trans (ht b hq)

/-- What is made of the value does not matter. -/
theorem map (hs : Covers s p) (f : β → γ) :
    Covers s fun l => (p l).bind fun x => some (f x.1, x.2) := by
  intro l c rest h
  obtain ⟨⟨b, l'⟩, hp, hq⟩ := Option.bind_eq_some_iff.mp h
  have hrest : l' = rest := (Prod.mk.inj (Option.some.inj hq)).2
  rw [hs hp, hrest]

/-- A field that both skip. -/
theorem skipped (b : β) : Covers s fun l => (s l).bind fun rest => some (b, rest) := by
  intro l c rest h
  obtain ⟨l', hs, hrest⟩ := Option.bind_eq_some_iff.mp h
  obtain ⟨-, rfl⟩ := Prod.mk.inj (Option.some.inj hrest)
  exact hs

/-- A whole list of items: `step` reads an item in a state, and what it takes is skipped. -/
theorem reach (step : σ → List α → Except ε (σ × List α))
    (h : ∀ ⦃c l c' rest⦄, step c l = .ok (c', rest) → s l = some rest) {x y : σ × List α}
    (hxy : Relation.ReflTransGen (fun x y => step x.1 x.2 = .ok y) x y) :
    Relation.ReflTransGen (fun l rest => s l = some rest) x.2 y.2 :=
  hxy.lift Prod.snd fun _ _ hstep => h hstep

end Covers

/-- What a skipper returns is the end of the list. -/
def Trims (skip : List α → Option (List α)) : Prop :=
  ∀ ⦃l rest⦄, skip l = some rest → rest <:+ l

namespace Trims

variable {s t : List α → Option (List α)}

theorem bind (hs : Trims s) (ht : Trims t) : Trims fun l => (s l).bind t := by
  intro l rest h
  obtain ⟨l', hl', hrest⟩ := Option.bind_eq_some_iff.mp h
  exact (ht hrest).trans (hs hl')

/-- A field that is read, and what is skipped depending on it. -/
theorem bindRead {p : List α → Option (β × List α)} (hp : Trims fun l => (p l).map Prod.snd)
    {q : β → List α → Option (List α)} (hq : ∀ b, Trims (q b)) :
    Trims fun l => (p l).bind fun x => q x.1 x.2 := by
  intro l rest h
  obtain ⟨x, hx, hrest⟩ := Option.bind_eq_some_iff.mp h
  exact (hq x.1 hrest).trans (hp (by simp [hx]))

/-- A skipper that is covered by one that returns the end of the list. -/
theorem of_covers (hs : Trims s) {p : List α → Option (β × List α)} (hp : Covers s p) :
    Trims fun l => (p l).map Prod.snd := by
  intro l rest h
  obtain ⟨x, hx, hrest⟩ := Option.map_eq_some_iff.mp h
  exact hrest ▸ hs (hp hx)

/-- The end of a list, by the number of items before it. -/
theorem eq_drop (hs : Trims s) {l rest : List α} (h : s l = some rest) :
    rest = l.drop (l.length - rest.length) :=
  List.suffix_iff_eq_drop.mp (hs h)

end Trims

end Readers
