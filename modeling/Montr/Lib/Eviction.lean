import Mathlib.Algebra.BigOperators.Group.List.Basic
import Mathlib.Algebra.GroupWithZero.Nat
import Mathlib.Data.List.Infix

namespace Montr.Eviction

/-!
# Evicting until a target is met

Candidates in the order in which they are to go, each with a weight, and a load that has to come
down to a target.  `ShortestReaching` says what is evicted, `victims` computes it one candidate
after the other, and each determines the other (`victims_shortest`, `ShortestReaching.unique`).
-/

variable {β : Type}

/-- The first part of the candidates that is shortest among those whose removal brings the load down
    to the target, and all of them where no part does. -/
structure ShortestReaching (weight : β → Nat) (load target : Nat) (candidates gone : List β) :
    Prop where
  first : gone <+: candidates
  reaches : load - (gone.map weight).sum ≤ target ∨ gone = candidates
  shortest : ∀ fewer, fewer <+: candidates → fewer.length < gone.length →
    target < load - (fewer.map weight).sum

/-- One candidate after the other, while the load is above the target. -/
def victims (weight : β → Nat) (target : Nat) : Nat → List β → List β
  | _, [] => []
  | load, e :: rest =>
    if load ≤ target then [] else e :: victims weight target (load - weight e) rest

section

variable {weight : β → Nat} {load target : Nat} {candidates : List β}

theorem victims_nil (weight : β → Nat) (target load : Nat) :
    victims weight target load [] = [] := rfl

theorem victims_cons (weight : β → Nat) (target load : Nat) (e : β) (rest : List β) :
    victims weight target load (e :: rest) =
      if load ≤ target then [] else e :: victims weight target (load - weight e) rest := rfl

theorem victims_of_le (h : load ≤ target) (candidates : List β) :
    victims weight target load candidates = [] := by
  cases candidates with
  | nil => rfl
  | cons e rest =>
    rw [victims_cons, if_pos h]

theorem victims_cons_of_lt (h : target < load) (e : β) (rest : List β) :
    victims weight target load (e :: rest) =
      e :: victims weight target (load - weight e) rest := by
  rw [victims_cons, if_neg (by omega)]

theorem victims_shortest (weight : β → Nat) (load target : Nat) (candidates : List β) :
    ShortestReaching weight load target candidates (victims weight target load candidates) := by
  induction candidates generalizing load with
  | nil =>
    refine ⟨List.prefix_rfl, .inr rfl, ?_⟩
    intro fewer _ hlt
    simp [victims_nil] at hlt
  | cons e rest ih =>
    rcases Nat.lt_or_ge target load with habove | hmet
    · rw [victims_cons_of_lt habove]
      have hrest := ih (load - weight e)
      refine ⟨(List.prefix_cons_inj e).mpr hrest.first, ?_, ?_⟩
      · rw [List.map_cons, List.sum_cons, ← Nat.sub_sub]
        exact hrest.reaches.imp_right (congrArg (List.cons e))
      · intro fewer hfewer hlt
        cases fewer with
        | nil => exact habove
        | cons e' fewer =>
          obtain ⟨rfl, hfirst⟩ := List.cons_prefix_cons.mp hfewer
          rw [List.length_cons, List.length_cons] at hlt
          rw [List.map_cons, List.sum_cons, ← Nat.sub_sub]
          exact hrest.shortest fewer hfirst (by omega)
    · rw [victims_of_le hmet]
      refine ⟨List.nil_prefix, .inl ?_, ?_⟩
      · rw [List.map_nil, List.sum_nil]
        exact hmet
      · intro fewer _ hlt
        simp at hlt

/-- There is one such part only. -/
theorem ShortestReaching.unique {gone gone' : List β}
    (h : ShortestReaching weight load target candidates gone)
    (h' : ShortestReaching weight load target candidates gone') : gone = gone' := by
  have hle : ∀ {p q : List β}, ShortestReaching weight load target candidates p →
      ShortestReaching weight load target candidates q → p.length ≤ q.length := by
    intro p q hp hq
    by_contra hlt
    rw [not_le] at hlt
    rcases hq.reaches with hmet | hall
    · have habove := hp.shortest q hq.first hlt
      omega
    · have hlength := hp.first.length_le
      rw [hall] at hlt
      omega
  have hlength : gone.length = gone'.length := Nat.le_antisymm (hle h h') (hle h' h)
  exact (List.prefix_of_prefix_length_le h.first h'.first hlength.le).eq_of_length hlength

end

end Montr.Eviction
