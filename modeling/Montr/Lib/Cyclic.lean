import Mathlib.Data.List.Nodup
import Mathlib.Data.List.Range
import Mathlib.Data.List.Perm.Subperm
import Mathlib.Data.Nat.ModEq
import Mathlib.Logic.Function.Iterate

namespace Montr.Cyclic

/-!
# Places on a ring

The places `0, …, n - 1` in a circle, each with a place after it and one before it.

* `succ`, `pred` — one step forth and one step back, inverse to each other;
* `iterate_succ` — the place after `k` steps;
* `turn_perm` — **a whole turn visits every place exactly once** and ends where it began.
-/

variable {n i k : Nat}

/-- One step forth. -/
def succ (n i : Nat) : Nat := if n ≤ i + 1 then 0 else i + 1

/-- One step back. -/
def pred (n i : Nat) : Nat := if i = 0 then n - 1 else i - 1

theorem succ_lt (h : 0 < n) : succ n i < n := by
  unfold succ
  split <;> omega

theorem pred_lt (h : i < n) : pred n i < n := by
  unfold pred
  split <;> omega

theorem pred_succ (h : i < n) : pred n (succ n i) = i := by
  unfold pred succ
  split <;> split <;> omega

theorem succ_pred (h : i < n) : succ n (pred n i) = i := by
  unfold pred succ
  split <;> split <;> omega

theorem succ_eq_mod (h : i < n) : succ n i = (i + 1) % n := by
  unfold succ
  by_cases hlast : n ≤ i + 1
  · have heq : i + 1 = n := by omega
    rw [if_pos hlast, heq, Nat.mod_self]
  · rw [if_neg hlast, Nat.mod_eq_of_lt (by omega)]

/-- The place after `k` steps. -/
theorem iterate_succ (h : i < n) (k : Nat) : (succ n)^[k] i = (i + k) % n := by
  induction k with
  | zero => rw [Function.iterate_zero, id, Nat.add_zero, Nat.mod_eq_of_lt h]
  | succ k ih =>
    have hpos : 0 < n := by omega
    rw [Function.iterate_succ_apply', ih, succ_eq_mod (Nat.mod_lt _ hpos), Nat.mod_add_mod,
      Nat.add_assoc]

/-- A whole turn ends where it began. -/
theorem iterate_succ_self (h : i < n) : (succ n)^[n] i = i := by
  rw [iterate_succ h, Nat.add_mod_right, Nat.mod_eq_of_lt h]

/-- The places of the first `k` steps. -/
def turn (n i k : Nat) : List Nat := (List.range k).map fun j => (succ n)^[j + 1] i

theorem turn_succ (n i k : Nat) : turn n i (k + 1) = succ n i :: turn n (succ n i) k := by
  unfold turn
  rw [List.range_succ_eq_map, List.map_cons, List.map_map]
  rfl

/-- **A whole turn visits every place exactly once.** -/
theorem turn_perm (h : i < n) : (turn n i n).Perm (List.range n) := by
  have hnodup : (turn n i n).Nodup := by
    refine List.Nodup.map_on ?_ List.nodup_range
    intro a ha b hb hab
    rw [List.mem_range] at ha hb
    rw [iterate_succ h, iterate_succ h] at hab
    -- two steps of one turn to the same place are the same
    have hmod : a % n = b % n := by
      have hcancel : (i + 1 + a) % n = (i + 1 + b) % n := by
        rw [Nat.add_right_comm i 1 a, Nat.add_right_comm i 1 b]
        exact hab
      exact Nat.ModEq.add_left_cancel' (i + 1) hcancel
    rwa [Nat.mod_eq_of_lt ha, Nat.mod_eq_of_lt hb] at hmod
  have hsubset : turn n i n ⊆ List.range n := by
    intro a ha
    obtain ⟨j, -, rfl⟩ := List.mem_map.mp ha
    rw [List.mem_range, iterate_succ h]
    exact Nat.mod_lt _ (by omega)
  refine (List.subperm_of_subset hnodup hsubset).perm_of_length_le ?_
  rw [turn, List.length_map, List.length_range]

end Montr.Cyclic
