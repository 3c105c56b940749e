import Mathlib.Data.Set.Card
import Mathlib.Data.Set.Finite.Lemmas
import Mathlib.Order.Interval.Finset.Defs

namespace Montr.Successors

/-!
# Going through a set in order

An iterator that answers the least element of a set above the one it is given (`IsNext`), asked
again with each answer, goes through the set in order.  What it has listed after `n` questions are
the elements above the start that fewer than `n` others precede (`mem_successors`).
-/

universe u

variable {α : Type u} [LinearOrder α] {p : α → Prop} {next : α → Option α} {a b x : α}

/-- The least element of a set above another element. -/
structure IsNext (p : α → Prop) (a b : α) : Prop where
  mem : p b
  lt : a < b
  least : ∀ c, p c → a < c → b ≤ c

/-- The answers to at most `n` questions, each asked with the answer before. -/
def successors (next : α → Option α) : Nat → α → List α
  | 0, _ => []
  | n + 1, a =>
    match next a with
    | none => []
    | some b => b :: successors next n b

/-- The elements of a set between two others. -/
def between (p : α → Prop) (a x : α) : Set α := {c | p c ∧ a < c ∧ c < x}

theorem between_of_isNext (h : IsNext p a b) : between p a b = ∅ := by
  ext c
  constructor
  · rintro ⟨hc, hac, hcb⟩
    exact absurd (h.least c hc hac) (not_le.mpr hcb)
  · exact fun hc => absurd hc (Set.notMem_empty c)

/-- The next element is one of those between. -/
theorem between_eq_insert (h : IsNext p a b) (hbx : b < x) :
    between p a x = insert b (between p b x) := by
  ext c
  constructor
  · rintro ⟨hc, hac, hcx⟩
    rcases eq_or_lt_of_le (h.least c hc hac) with rfl | hbc
    · exact Set.mem_insert b _
    · exact Set.mem_insert_of_mem b ⟨hc, hbc, hcx⟩
  · rintro (rfl | ⟨hc, hbc, hcx⟩)
    · exact ⟨h.mem, h.lt, hbx⟩
    · exact ⟨hc, h.lt.trans hbc, hcx⟩

section LocallyFinite

variable [LocallyFiniteOrder α]

theorem between_finite (p : α → Prop) (a x : α) : (between p a x).Finite :=
  (Set.finite_Ioo a x).subset fun _ hc => hc.2

/-- An element above has a least one below it. -/
theorem exists_isNext (hx : p x) (hax : a < x) : ∃ b, IsNext p a b := by
  have hfinite : {c | p c ∧ a < c ∧ c ≤ x}.Finite :=
    (Set.finite_Ioc a x).subset fun _ hc => hc.2
  obtain ⟨b, ⟨hb, hab, hbx⟩, hmin⟩ := Set.exists_min_image _ id hfinite ⟨x, hx, hax, le_rfl⟩
  refine ⟨b, hb, hab, fun c hc hac => ?_⟩
  rcases le_total c x with hcx | hxc
  · exact hmin c ⟨hc, hac, hcx⟩
  · exact hbx.trans hxc

/-- **What is listed**: the elements that fewer than `n` others precede. -/
theorem mem_successors (spec : ∀ a b, next a = some b ↔ IsNext p a b) (n : Nat) :
    x ∈ successors next n a ↔ p x ∧ a < x ∧ (between p a x).ncard < n := by
  induction n generalizing a with
  | zero => simp [successors]
  | succ n ih =>
    unfold successors
    cases hnext : next a with
    | none =>
      refine iff_of_false List.not_mem_nil ?_
      rintro ⟨hx, hax, -⟩
      obtain ⟨b, hb⟩ := exists_isNext hx hax
      rw [(spec a b).mpr hb] at hnext
      exact Option.some_ne_none b hnext
    | some b =>
      have hb := (spec a b).mp hnext
      -- one more than those after `b`
      have hcard : b < x → (between p a x).ncard = (between p b x).ncard + 1 := by
        intro hbx
        rw [between_eq_insert hb hbx]
        exact Set.ncard_insert_of_notMem (fun h => lt_irrefl b h.2.1) (between_finite p b x)
      show x ∈ b :: successors next n b ↔ _
      rw [List.mem_cons, ih]
      constructor
      · rintro (rfl | ⟨hx, hbx, hlt⟩)
        · rw [between_of_isNext hb, Set.ncard_empty]
          exact ⟨hb.mem, hb.lt, n.succ_pos⟩
        · refine ⟨hx, hb.lt.trans hbx, ?_⟩
          rw [hcard hbx]
          omega
      · rintro ⟨hx, hax, hlt⟩
        rcases eq_or_lt_of_le (hb.least x hx hax) with rfl | hbx
        · exact .inl rfl
        · rw [hcard hbx] at hlt
          exact .inr ⟨hx, hbx, by omega⟩

end LocallyFinite

end Montr.Successors
