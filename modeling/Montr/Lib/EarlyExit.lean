import Mathlib.Algebra.BigOperators.Group.List.Basic
import Mathlib.Algebra.GroupWithZero.Nat
import Mathlib.Data.List.Nodup

namespace Montr.EarlyExit

/-!
# Loops that are left early

A loop over a list that is left after the first element that stops it.

* `reached` — the elements whose turn comes;
* `mem_reached_iff` — an element is reached when nothing before it stops the loop;
* `forall_reached_iff` — when all the elements with some property are reached;
* `fitting` — the elements taken while their load stays within a budget: the longest initial
  part that does (`prefix_fitting`).
-/

variable {α : Type*} {stops : α → Bool} {as : List α} {a : α}

/-- The elements whose turn comes. -/
def reached (stops : α → Bool) : List α → List α
  | [] => []
  | a :: as => if stops a then [a] else a :: reached stops as

@[simp] theorem reached_nil (stops : α → Bool) : reached stops [] = [] := rfl

theorem reached_cons (stops : α → Bool) (a : α) (as : List α) :
    reached stops (a :: as) = if stops a then [a] else a :: reached stops as := rfl

theorem reached_initial (stops : α → Bool) (as : List α) : reached stops as <+: as := by
  induction as with
  | nil => exact List.nil_prefix
  | cons a as ih =>
    rw [reached_cons]
    split
    · exact List.cons_prefix_cons.mpr ⟨rfl, List.nil_prefix⟩
    · exact List.cons_prefix_cons.mpr ⟨rfl, ih⟩

theorem mem_of_mem_reached (h : a ∈ reached stops as) : a ∈ as :=
  (reached_initial stops as).subset h

theorem mem_reached_iff :
    a ∈ reached stops as ↔ ∃ pre post, as = pre ++ a :: post ∧ ∀ b ∈ pre, stops b = false := by
  induction as with
  | nil => simp
  | cons c as ih =>
    rw [reached_cons]
    constructor
    · intro h
      -- the head stops the loop, or the element is reached behind it
      by_cases hc : stops c = true
      · rw [if_pos hc] at h
        obtain rfl := List.mem_singleton.mp h
        exact ⟨[], as, rfl, fun b hb => absurd hb List.not_mem_nil⟩
      · rw [if_neg hc] at h
        rcases List.mem_cons.mp h with rfl | hrest
        · exact ⟨[], as, rfl, fun b hb => absurd hb List.not_mem_nil⟩
        · obtain ⟨pre, post, rfl, hpre⟩ := ih.mp hrest
          refine ⟨c :: pre, post, rfl, fun b hb => ?_⟩
          rcases List.mem_cons.mp hb with rfl | hb
          · simpa using hc
          · exact hpre b hb
    · rintro ⟨pre, post, heq, hpre⟩
      cases pre with
      | nil =>
        obtain ⟨rfl, rfl⟩ := List.cons.inj heq
        split <;> simp
      | cons d pre =>
        obtain ⟨rfl, rfl⟩ := List.cons.inj heq
        have hd : ¬ stops c = true := by simp [hpre c List.mem_cons_self]
        rw [if_neg hd]
        refine List.mem_cons_of_mem _ (ih.mpr ⟨pre, post, rfl, fun b hb => ?_⟩)
        exact hpre b (List.mem_cons_of_mem _ hb)

/-- In a list without repetition, what holds of the elements reached in the rest holds of those
    reached behind a head that does not stop the loop. -/
theorem forall_reached_cons {P : α → Prop} (fresh : a ∉ as) (going : stops a = false) :
    (∀ b ∈ a :: as, P b → b ∈ reached stops (a :: as)) ↔
      ∀ b ∈ as, P b → b ∈ reached stops as := by
  have hcons : reached stops (a :: as) = a :: reached stops as := by
    rw [reached_cons, if_neg (by simp [going])]
  rw [hcons]
  constructor
  · intro h b hb hP
    have hne : b ≠ a := fun heq => fresh (by rw [← heq]; exact hb)
    exact (List.mem_cons.mp (h b (List.mem_cons_of_mem a hb) hP)).resolve_left hne
  · intro h b hb hP
    rcases List.mem_cons.mp hb with rfl | hb
    · exact List.mem_cons_self
    · exact List.mem_cons_of_mem a (h b hb hP)

/-- Behind a head that stops the loop nothing is reached. -/
theorem forall_reached_stop {P : α → Prop} (fresh : a ∉ as) (stop : stops a = true) :
    (∀ b ∈ a :: as, P b → b ∈ reached stops (a :: as)) ↔ ∀ b ∈ as, ¬ P b := by
  have hstop : reached stops (a :: as) = [a] := by
    rw [reached_cons, if_pos stop]
  rw [hstop]
  constructor
  · intro h b hb hP
    obtain rfl := List.mem_singleton.mp (h b (List.mem_cons_of_mem a hb) hP)
    exact fresh hb
  · intro h b hb hP
    rcases List.mem_cons.mp hb with rfl | hb
    · exact List.mem_singleton.mpr rfl
    · exact absurd hP (h b hb)

/-- **The elements with `P` are all reached** exactly when none of them stands behind one that
    stops the loop. -/
theorem forall_reached_iff (P : α → Prop) (nodup : as.Nodup) :
    (∀ a ∈ as, P a → a ∈ reached stops as) ↔
      as.Pairwise fun a b => stops a = true → ¬ P b := by
  induction as with
  | nil => simp
  | cons a as ih =>
    obtain ⟨hfresh, hnodup⟩ := List.nodup_cons.mp nodup
    rw [List.pairwise_cons]
    -- behind a head that stops the loop nothing is reached
    cases hstop : stops a with
    | true =>
      rw [forall_reached_stop hfresh hstop]
      constructor
      · intro h
        refine ⟨fun b hb _ => h b hb, ?_⟩
        exact List.pairwise_of_forall_mem_list fun _ _ b hb _ => h b hb
      · rintro ⟨h, -⟩ b hb
        exact h b hb rfl
    | false =>
      rw [forall_reached_cons hfresh hstop, ih hnodup]
      constructor
      · intro h
        exact ⟨fun b _ hc => Bool.noConfusion hc, h⟩
      · rintro ⟨-, h⟩
        exact h

/-! ### Within a budget -/

section

variable {weight : α → Nat} {budget load : Nat} {l p : List α}

/-- The items of a list, one after the other, as long as the load stays within the budget. -/
def fitting (weight : α → Nat) (budget : Nat) : Nat → List α → List α
  | _, [] => []
  | load, a :: l =>
    if load + weight a ≤ budget then a :: fitting weight budget (load + weight a) l else []

@[simp] theorem fitting_nil (weight : α → Nat) (budget load : Nat) :
    fitting weight budget load [] = [] := rfl

theorem fitting_cons (weight : α → Nat) (budget load : Nat) (a : α) (l : List α) :
    fitting weight budget load (a :: l) =
      if load + weight a ≤ budget then a :: fitting weight budget (load + weight a) l else [] :=
  rfl

theorem fitting_initial (weight : α → Nat) (budget load : Nat) (l : List α) :
    fitting weight budget load l <+: l := by
  induction l generalizing load with
  | nil => exact List.prefix_rfl
  | cons a l ih =>
    rw [fitting_cons]
    split
    · exact List.cons_prefix_cons.mpr ⟨rfl, ih _⟩
    · exact List.nil_prefix

theorem sum_fitting_le (h : load ≤ budget) (weight : α → Nat) (l : List α) :
    load + ((fitting weight budget load l).map weight).sum ≤ budget := by
  induction l generalizing load with
  | nil => simpa using h
  | cons a l ih =>
    rw [fitting_cons]
    split
    · rename_i hfits
      have hrest := ih hfits
      rw [List.map_cons, List.sum_cons]
      omega
    · simpa using h

/-- It is the longest: every prefix within the budget is a prefix of it. -/
theorem prefix_fitting (hp : p <+: l) (h : load + (p.map weight).sum ≤ budget) :
    p <+: fitting weight budget load l := by
  induction p generalizing l load with
  | nil => exact List.nil_prefix
  | cons a p ih =>
    obtain ⟨rest, rfl⟩ := hp
    rw [List.map_cons, List.sum_cons] at h
    show a :: p <+: fitting weight budget load (a :: (p ++ rest))
    rw [fitting_cons, if_pos (by omega)]
    exact List.cons_prefix_cons.mpr ⟨rfl, ih (List.prefix_append p rest) (by omega)⟩

end

end Montr.EarlyExit
