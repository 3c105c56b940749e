import Mathlib.Data.List.Sort
import Mathlib.Data.List.Perm.Subperm
import Mathlib.Data.List.Nodup

namespace Montr.Numbering

/-!
# Lists of positions

Positions are integers, so that a renumbering may pass through negative ones.  `Gapless l` says
that the positions are `0 .. n-1`, each once, in any order.  This file supplies

* `gapless_iff` — for distinct positions: every position is in range;
* `Gapless.append`, `gapless_filter_iff` — appending the next position, and removing some;
* `insertionSort_concat` — a last element stays last under a stable sort;
* `length_filter_lt` — a place in order is the number of smaller elements;
* `length_eq_iff_subset` — distinct elements of a list are as many as there are when none is left
  out.
-/

universe u

/-- The positions are exactly `0 .. n-1`. -/
def Gapless (l : List Int) : Prop := l.Perm ((List.range l.length).map Int.ofNat)

/-- In range for `n` positions. -/
def InRange (n : Nat) (k : Int) : Prop := 0 ≤ k ∧ k < n

theorem mem_range_map {n : Nat} {k : Int} : k ∈ (List.range n).map Int.ofNat ↔ InRange n k := by
  rw [List.mem_map]
  constructor
  · rintro ⟨i, hi, rfl⟩
    have hlt := List.mem_range.mp hi
    exact ⟨Int.natCast_nonneg i, Int.ofNat_lt.mpr hlt⟩
  · rintro ⟨hnonneg, hlt⟩
    refine ⟨k.toNat, List.mem_range.mpr (by omega), ?_⟩
    show (k.toNat : Int) = k
    omega

theorem nodup_range_map (n : Nat) : ((List.range n).map Int.ofNat).Nodup :=
  List.nodup_range.map fun _ _ h => Int.ofNat.inj h

theorem Gapless.nodup {l : List Int} (h : Gapless l) : l.Nodup :=
  h.nodup_iff.mpr (nodup_range_map l.length)

theorem Gapless.inRange {l : List Int} (h : Gapless l) {k : Int} (hk : k ∈ l) :
    InRange l.length k := by
  rw [← mem_range_map]
  exact h.mem_iff.mp hk

theorem Gapless.mem_of_inRange {l : List Int} (h : Gapless l) {k : Int}
    (hk : InRange l.length k) : k ∈ l := by
  rw [← mem_range_map] at hk
  exact h.mem_iff.mpr hk

/-- As many distinct positions as there are places fill the places. -/
theorem gapless_iff {l : List Int} (distinct : l.Nodup) :
    Gapless l ↔ ∀ k ∈ l, InRange l.length k := by
  constructor
  · intro h k hk
    exact h.inRange hk
  · intro h
    have hsub : l ⊆ (List.range l.length).map Int.ofNat := by
      intro k hk
      rw [mem_range_map]
      exact h k hk
    apply (List.subperm_of_subset distinct hsub).perm_of_length_le
    rw [List.length_map, List.length_range]

/-- Distinct positions that include every place below `k` are more than `k`. -/
theorem lt_length_of_below {l : List Int} {k : Int} (below : ∀ i, 0 ≤ i → i ≤ k → i ∈ l) :
    k < l.length := by
  by_cases hk : 0 ≤ k
  · have hsub : (List.range (k.toNat + 1)).map Int.ofNat ⊆ l := by
      intro i hi
      rw [mem_range_map] at hi
      obtain ⟨hnonneg, hlt⟩ := hi
      apply below i hnonneg
      push_cast at hlt
      omega
    have hle := (List.subperm_of_subset (nodup_range_map _) hsub).length_le
    rw [List.length_map, List.length_range] at hle
    omega
  · omega

/-- **Appending** the next position. -/
theorem Gapless.append {l : List Int} (h : Gapless l) : Gapless (l ++ [(l.length : Int)]) := by
  unfold Gapless
  rw [List.length_append, List.length_singleton, List.range_succ, List.map_append]
  exact h.append_right _

/-- **Removing** positions leaves no gap exactly when the last ones are removed. -/
theorem gapless_filter_iff {l : List Int} (h : Gapless l) (p : Int → Bool) :
    Gapless (l.filter p) ↔ ∀ a ∈ l, ∀ b ∈ l, p a = true → p b = false → a < b := by
  have hdistinct : (l.filter p).Nodup := h.nodup.filter p
  constructor
  · intro hrest a ha b hb hkept hremoved
    have ha' := hrest.inRange (List.mem_filter.mpr ⟨ha, hkept⟩)
    by_contra hle
    -- `b` would be among the positions that are left
    have hb' : InRange (l.filter p).length b := ⟨(h.inRange hb).1, by have := ha'.2; omega⟩
    have hmem := (List.mem_filter.mp (hrest.mem_of_inRange hb')).2
    rw [hremoved] at hmem
    exact Bool.noConfusion hmem
  · intro hlast
    rw [gapless_iff hdistinct]
    intro k hk
    obtain ⟨hkl, hkept⟩ := List.mem_filter.mp hk
    have hk' := h.inRange hkl
    refine ⟨hk'.1, lt_length_of_below fun i hi hik => ?_⟩
    -- a place below `k` was taken, and what held it has not been removed
    have hil : i ∈ l := h.mem_of_inRange ⟨hi, by have := hk'.2; omega⟩
    refine List.mem_filter.mpr ⟨hil, ?_⟩
    by_contra hremoved
    have hlt := hlast k hkl i hil hkept (Bool.eq_false_iff.mpr hremoved)
    omega

section

variable {α : Type u} {r : α → α → Prop} [DecidableRel r]

theorem orderedInsert_concat {a x : α} {l : List α} (h : r a x) :
    (l ++ [x]).orderedInsert r a = l.orderedInsert r a ++ [x] := by
  induction l with
  | nil => simp [h]
  | cons b l ih =>
    by_cases hab : r a b
    · simp [hab]
    · simp [hab, ih]

/-- An element that no other comes after stays last. -/
theorem insertionSort_concat {x : α} {l : List α} (h : ∀ a ∈ l, r a x) :
    (l ++ [x]).insertionSort r = l.insertionSort r ++ [x] := by
  induction l with
  | nil => rfl
  | cons a l ih =>
    have hrest := ih fun b hb => h b (List.mem_cons_of_mem a hb)
    rw [List.cons_append, List.insertionSort_cons, hrest,
      orderedInsert_concat (h a List.mem_cons_self)]
    rfl

end

section

variable {α : Type u} {key : α → Nat} {l : List α} {a : α} {i : Nat}

/-- In strict order the place of an element is the number of smaller ones. -/
theorem length_filter_lt (sorted : l.Pairwise fun a b => key a < key b) (hi : l[i]? = some a) :
    (l.filter fun b => key b < key a).length = i := by
  induction l generalizing i with
  | nil => cases hi
  | cons b l ih =>
    obtain ⟨hb, hl⟩ := List.pairwise_cons.mp sorted
    cases i with
    | zero =>
      cases hi
      have hnil : (a :: l).filter (fun b => key b < key a) = [] := by
        rw [List.filter_eq_nil_iff]
        intro c hc
        rcases List.mem_cons.mp hc with rfl | hc
        · simp
        · have hlt := hb c hc
          simp only [decide_eq_true_eq]
          omega
      rw [hnil]
      rfl
    | succ i =>
      rw [List.getElem?_cons_succ] at hi
      have hlt := hb a (List.mem_of_getElem? hi)
      rw [List.filter_cons_of_pos (by simpa using hlt), List.length_cons, ih hl hi]

/-- Distinct elements of a list are all of them when they are as many. -/
theorem length_eq_iff_subset {l' : List α} (hl : l.Nodup) (hl' : l'.Nodup) (hsub : l ⊆ l') :
    l.length = l'.length ↔ l' ⊆ l := by
  have hperm := List.subperm_of_subset hl hsub
  constructor
  · intro hlength
    exact (hperm.perm_of_length_le (by omega)).symm.subset
  · intro hback
    exact Nat.le_antisymm hperm.length_le (List.subperm_of_subset hl' hback).length_le

end

end Montr.Numbering
