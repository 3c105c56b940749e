import Mathlib.Data.List.Basic

namespace Montr.Confinement

/-!
# Writes that stay with their owner

A state that is changed by writes, each of which concerns some keys, and seen key by key.

* `Framed` — a write leaves the view of every key it does not concern as it was;
* `Touches` — some write of a list concerns a key;
* `Confined` — the writes of a list concern the keys of an owner only;
* `NonInterfering` — two lists of writes are confined, and after either the keys of the others
  look as they did before;
* `nonInterfering_iff` — for framed writes confinement is all there is to it.
-/

variable {σ ω κ ν : Type*}

/-- The frame law: what a write does not concern looks as before, and whom a write concerns does
    not depend on the writes before it. -/
structure Framed (apply : σ → ω → σ) (concerns : σ → ω → κ → Prop) (view : κ → σ → ν) :
    Prop where
  keeps : ∀ s w k, ¬ concerns s w k → view k (apply s w) = view k s
  steady : ∀ s w w' k, concerns (apply s w) w' k ↔ concerns s w' k

/-- Some of the writes concerns the key. -/
def Touches (concerns : σ → ω → κ → Prop) (s : σ) (ws : List ω) (k : κ) : Prop :=
  ∃ w ∈ ws, concerns s w k

/-- The writes concern the owner's keys only. -/
def Confined (concerns : σ → ω → κ → Prop) (s : σ) (own : κ → Prop) (ws : List ω) : Prop :=
  ∀ k, Touches concerns s ws k → own k

/-- **Non-interference** of two lists of writes on one state. -/
structure NonInterfering (apply : σ → ω → σ) (concerns : σ → ω → κ → Prop) (view : κ → σ → ν)
    (s : σ) (own : κ → Prop) (ws ws' : List ω) : Prop where
  confined : Confined concerns s own ws
  confined' : Confined concerns s own ws'
  keeps : ∀ k, ¬ own k → view k (ws.foldl apply s) = view k s
  agree : ∀ k, ¬ own k → view k (ws.foldl apply s) = view k (ws'.foldl apply s)

section

variable {apply : σ → ω → σ} {concerns : σ → ω → κ → Prop} {view : κ → σ → ν} {s : σ}
  {own : κ → Prop} {ws ws' : List ω} {w : ω} {k : κ}

@[simp] theorem not_touches_nil : ¬ Touches concerns s [] k := by
  rintro ⟨w, hw, -⟩
  exact List.not_mem_nil hw

@[simp] theorem touches_cons :
    Touches concerns s (w :: ws) k ↔ concerns s w k ∨ Touches concerns s ws k := by
  simp [Touches]

theorem touches_append :
    Touches concerns s (ws ++ ws') k ↔ Touches concerns s ws k ∨ Touches concerns s ws' k := by
  simp [Touches, or_and_right, exists_or]

/-- Writes that do not touch a key leave its view alone. -/
theorem Framed.view_foldl (h : Framed apply concerns view) (other : ¬ Touches concerns s ws k) :
    view k (ws.foldl apply s) = view k s := by
  induction ws generalizing s with
  | nil => rfl
  | cons w ws ih =>
    rw [touches_cons, not_or] at other
    have hrest : ¬ Touches concerns (apply s w) ws k := by
      rintro ⟨w', hw', hconcerns⟩
      exact other.2 ⟨w', hw', (h.steady s w w' k).mp hconcerns⟩
    calc view k (ws.foldl apply (apply s w))
        = view k (apply s w) := ih hrest
      _ = view k s := h.keeps s w k other.1

/-- **Confined writes do not interfere**, and only those. -/
theorem nonInterfering_iff (h : Framed apply concerns view) :
    NonInterfering apply concerns view s own ws ws' ↔
      Confined concerns s own ws ∧ Confined concerns s own ws' := by
  constructor
  · intro hfree
    exact ⟨hfree.confined, hfree.confined'⟩
  · rintro ⟨hws, hws'⟩
    have hview : ∀ k, ¬ own k → view k (ws.foldl apply s) = view k s :=
      fun k hk => h.view_foldl fun htouches => hk (hws k htouches)
    have hview' : ∀ k, ¬ own k → view k (ws'.foldl apply s) = view k s :=
      fun k hk => h.view_foldl fun htouches => hk (hws' k htouches)
    exact ⟨hws, hws', hview, fun k hk => (hview k hk).trans (hview' k hk).symm⟩

end

end Montr.Confinement
