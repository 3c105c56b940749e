import Mathlib.Data.List.Chain
import Mathlib.Data.List.Count

namespace Montr.KeyedDedupe

/-!
# Suppressing repeats by a key

A process handles the elements of a list in order and skips one whose key is the key of the
element before it (`keep`).  The elements fall into classes (`cls`), and each class should be
handled once.  `countP_keep` says when it is: consecutive elements have the same key exactly
when they are of one class (`Separates`), and a class is not left and entered again
(`Contiguous`).
-/

universe u v w

variable {α : Type u} {κ : Type v} {δ : Type w} [DecidableEq κ]

/-- The elements whose key is not the one before; `last` is the key before the list. -/
def keep (key : α → κ) : Option κ → List α → List α
  | _, [] => []
  | last, a :: as =>
    if last = some (key a) then keep key last as else a :: keep key (some (key a)) as

/-- Neighbours have the same key exactly when they are of the same class. -/
def Separates (key : α → κ) (cls : α → δ) (xs : List α) : Prop :=
  xs.IsChain fun a b => key a = key b ↔ cls a = cls b

/-- What stands between two elements of a class is of that class. -/
def Contiguous (cls : α → δ) (xs : List α) : Prop :=
  ∀ a b c, [a, b, c].Sublist xs → cls a = cls c → cls b = cls a

variable {key : α → κ} {cls : α → δ} {a b : α} {xs : List α}

/-- When all keys are one, at most the first element is kept. -/
theorem length_keep_le_one {k : κ} (last : Option κ) (same : ∀ a ∈ xs, key a = k) :
    (keep key last xs).length ≤ 1 := by
  -- after the first kept element the last key is `k`, and nothing is kept any more
  have hnone : ∀ ys : List α, (∀ a ∈ ys, key a = k) → keep key (some k) ys = [] := by
    intro ys hys
    induction ys with
    | nil => rfl
    | cons a as ih =>
      have ha : key a = k := hys a (by simp)
      unfold keep
      rw [ha, if_pos rfl]
      exact ih fun x hx => hys x (by simp [hx])
  induction xs with
  | nil => simp [keep]
  | cons a as ih =>
    have ha : key a = k := same a (by simp)
    have has : ∀ x ∈ as, key x = k := fun x hx => same x (by simp [hx])
    unfold keep
    split
    · exact ih has
    · rw [ha, hnone as has]
      simp

theorem Contiguous.of_cons (h : Contiguous cls (a :: xs)) : Contiguous cls xs :=
  fun x y z hxyz heq => h x y z (hxyz.cons a) heq

/-- After a class has been left it does not come back. -/
theorem Contiguous.notMem (h : Contiguous cls (a :: b :: xs)) (hne : cls b ≠ cls a) :
    cls a ∉ xs.map cls := by
  intro hmem
  obtain ⟨c, hc, hcls⟩ := List.mem_map.mp hmem
  have hsub : [a, b, c].Sublist (a :: b :: xs) :=
    ((List.singleton_sublist.mpr hc).cons_cons b).cons_cons a
  exact hne (h a b c hsub hcls.symm)

variable [DecidableEq δ]

/-- Induction over the elements after one that has just been handled: every class but its own is
    handled once. -/
theorem countP_keep_after (sep : Separates key cls (a :: xs)) (cont : Contiguous cls (a :: xs))
    (m : δ) : (keep key (some (key a)) xs).countP (fun x => decide (cls x = m)) =
      if m ≠ cls a ∧ m ∈ xs.map cls then 1 else 0 := by
  induction xs generalizing a with
  | nil => simp [keep]
  | cons b rest ih =>
    obtain ⟨hab, hrest⟩ := List.isChain_cons_cons.mp sep
    have hih := ih hrest cont.of_cons
    unfold keep
    by_cases hkey : key a = key b
    · -- skipped: `b` is of the class of `a`
      have hcls : cls a = cls b := hab.mp hkey
      rw [if_pos (by rw [hkey]), hkey, hih, hcls]
      refine if_congr ?_ rfl rfl
      simp only [List.map_cons, List.mem_cons]
      constructor
      · rintro ⟨hne, hmem⟩
        exact ⟨hne, .inr hmem⟩
      · rintro ⟨hne, hmem | hmem⟩
        · exact absurd hmem hne
        · exact ⟨hne, hmem⟩
    · -- handled: a new class begins
      have hcls : cls a ≠ cls b := fun h => hkey (hab.mpr h)
      have hleft : cls a ∉ rest.map cls := cont.notMem hcls.symm
      rw [if_neg (by simpa using hkey), List.countP_cons, hih]
      by_cases hm : cls b = m
      · subst hm
        simp [hcls.symm]
      · have hm' : m ≠ cls b := fun h => hm h.symm
        have hiff : (m ≠ cls b ∧ m ∈ rest.map cls) ↔
            (m ≠ cls a ∧ m ∈ (b :: rest).map cls) := by
          simp only [List.map_cons, List.mem_cons]
          constructor
          · rintro ⟨-, hmem⟩
            exact ⟨fun h => hleft (h ▸ hmem), .inr hmem⟩
          · rintro ⟨-, hmem | hmem⟩
            · exact absurd hmem hm'
            · exact ⟨hm', hmem⟩
        rw [if_congr hiff rfl rfl]
        simp [hm]

/-- **Each class is handled exactly once.** -/
theorem countP_keep (sep : Separates key cls xs) (cont : Contiguous cls xs) (m : δ) :
    (keep key none xs).countP (fun x => decide (cls x = m)) = if m ∈ xs.map cls then 1 else 0 := by
  cases xs with
  | nil => simp [keep]
  | cons a rest =>
    unfold keep
    rw [if_neg nofun, List.countP_cons, countP_keep_after sep cont]
    by_cases hm : cls a = m
    · subst hm
      simp
    · have hm' : m ≠ cls a := fun h => hm h.symm
      simp [hm, hm']

end Montr.KeyedDedupe
