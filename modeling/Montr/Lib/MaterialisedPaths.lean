import Mathlib.Data.List.Infix
import Mathlib.Logic.Relation

namespace Montr.MaterialisedPaths

open Relation

/-!
# Forests with materialised paths

The nodes of a forest carry the path from their root, written as a word in which a separator stands
before every label.  When the words follow the parent links, a prefix test answers questions about
the links:

* `Materialised.path_injective` — a path names one node;
* `Materialised.prefix_iff` — the paths that begin with a node's path and a separator are those of
  its descendants;
* `Materialised.acyclic` — no node is its own descendant.
-/

universe u v

variable {ι : Type u} {α : Type v}

/-- The paths follow the parent links, and the label of a node is its own. -/
structure Materialised (member : ι → Prop) (IsParent : ι → ι → Prop) (path label : ι → List α)
    (sep : α) : Prop where
  parent_mem : ∀ p x, IsParent p x → member p ∧ member x
  root : ∀ x, member x → (∀ p, ¬ IsParent p x) → path x = sep :: label x
  child : ∀ p x, IsParent p x → path x = path p ++ sep :: label x
  sep_notMem : ∀ x, sep ∉ label x
  label_inj : ∀ x y, member x → member y → label x = label y → x = y

section

variable {member : ι → Prop} {IsParent : ι → ι → Prop} {path label : ι → List α} {sep : α}
  {a x y : ι}

/-- Where a separator ends a prefix of a word whose last label has none. -/
theorem eq_or_prefix_of_prefix {u q l : List α} (notMem : sep ∉ l)
    (h : u ++ [sep] <+: q ++ sep :: l) : u = q ∨ u ++ [sep] <+: q := by
  obtain ⟨t, ht⟩ := h
  rw [List.append_assoc, List.singleton_append] at ht
  obtain ⟨w, rfl, hw⟩ | ⟨w, rfl, hw⟩ := List.append_eq_append_iff.mp ht
  · cases w with
    | nil => exact .inl (List.append_nil u).symm
    | cons c w =>
      obtain ⟨rfl, -⟩ := List.cons.inj hw
      exact .inr ⟨w, by simp⟩
  · cases w with
    | nil => exact .inl (List.append_nil q)
    | cons c w =>
      obtain ⟨-, rfl⟩ := List.cons.inj hw
      exact absurd (List.mem_append_right w List.mem_cons_self) notMem

/-- The last label of a word. -/
theorem eq_of_append_eq {q q' l l' : List α} (notMem : sep ∉ l) (notMem' : sep ∉ l')
    (h : q ++ sep :: l = q' ++ sep :: l') : l = l' := by
  obtain ⟨w, rfl, hw⟩ | ⟨w, rfl, hw⟩ := List.append_eq_append_iff.mp h
  · cases w with
    | nil => exact (List.cons.inj hw).2
    | cons c w =>
      obtain ⟨-, rfl⟩ := List.cons.inj hw
      exact absurd (List.mem_append_right w List.mem_cons_self) notMem
  · cases w with
    | nil => exact (List.cons.inj hw).2.symm
    | cons c w =>
      obtain ⟨-, rfl⟩ := List.cons.inj hw
      exact absurd (List.mem_append_right w List.mem_cons_self) notMem'

namespace Materialised

/-- A path is the path of the parent, or nothing, and the node's own label. -/
theorem split (h : Materialised member IsParent path label sep) (hx : member x) :
    path x = sep :: label x ∨ ∃ p, IsParent p x ∧ path x = path p ++ sep :: label x := by
  by_cases hroot : ∃ p, IsParent p x
  · obtain ⟨p, hp⟩ := hroot
    exact .inr ⟨p, hp, h.child p x hp⟩
  · exact .inl (h.root x hx fun p hp => hroot ⟨p, hp⟩)

theorem exists_append (h : Materialised member IsParent path label sep) (hx : member x) :
    ∃ q, path x = q ++ sep :: label x := by
  obtain hroot | ⟨p, -, hchild⟩ := h.split hx
  · exact ⟨[], hroot⟩
  · exact ⟨path p, hchild⟩

theorem path_ne_nil (h : Materialised member IsParent path label sep) (hx : member x) :
    path x ≠ [] := by
  obtain ⟨q, hq⟩ := h.exists_append hx
  simp [hq]

theorem path_injective (h : Materialised member IsParent path label sep) (hx : member x)
    (hy : member y) (heq : path x = path y) : x = y := by
  obtain ⟨q, hq⟩ := h.exists_append hx
  obtain ⟨q', hq'⟩ := h.exists_append hy
  have hlabel := eq_of_append_eq (h.sep_notMem x) (h.sep_notMem y) (hq.symm.trans (heq.trans hq'))
  exact h.label_inj x y hx hy hlabel

theorem prefix_of_descends (h : Materialised member IsParent path label sep)
    (hdescends : TransGen IsParent a x) : path a ++ [sep] <+: path x := by
  induction hdescends with
  | @single x hparent =>
    rw [h.child _ _ hparent]
    exact (List.prefix_append_right_inj _).mpr ⟨label x, rfl⟩
  | tail _ hparent ih =>
    rw [h.child _ _ hparent]
    exact ih.trans (List.prefix_append _ _)

/-- **The prefix test finds the descendants.** -/
theorem prefix_iff (h : Materialised member IsParent path label sep) (ha : member a)
    (hx : member x) :
    path a ++ [sep] <+: path x ↔ TransGen IsParent a x := by
  refine ⟨fun hstarts => ?_, h.prefix_of_descends⟩
  -- the induction goes up the links, by the length of the path
  generalize hlen : (path x).length = n
  induction n using Nat.strongRecOn generalizing x with
  | _ n ih =>
    obtain hroot | ⟨p, hp, hchild⟩ := h.split hx
    · rw [hroot] at hstarts
      obtain heq | hshort := eq_or_prefix_of_prefix (q := []) (h.sep_notMem x) hstarts
      · exact absurd heq (h.path_ne_nil ha)
      · exact absurd (List.prefix_nil.mp hshort) (by simp)
    · rw [hchild] at hstarts
      obtain ⟨hpmem, -⟩ := h.parent_mem p x hp
      obtain heq | hshort := eq_or_prefix_of_prefix (h.sep_notMem x) hstarts
      · rw [h.path_injective ha hpmem heq]
        exact .single hp
      · have hlt : (path p).length < n := by
          rw [← hlen, hchild]
          simp
        exact (ih _ hlt hpmem hshort rfl).tail hp

/-- **No node is its own descendant.** -/
theorem acyclic (h : Materialised member IsParent path label sep) :
    ¬ TransGen IsParent x x := by
  intro hcycle
  have hlen := (h.prefix_of_descends hcycle).length_le
  rw [List.length_append, List.length_singleton] at hlen
  omega

end Materialised

end

end Montr.MaterialisedPaths
