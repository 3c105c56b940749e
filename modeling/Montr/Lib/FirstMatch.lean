import Mathlib.Data.List.MinMax

namespace Montr.FirstMatch

/-!
# Cascades of predicates

A list is searched with one predicate after the other, and the first hit counts.

* `firstMatch` — the search;
* `rank` — the position of the first predicate that accepts an element;
* `argmin_eq_some_iff_split` — a first minimum splits the list into larger elements before it and
  ones that are no smaller behind it;
* `firstMatch_eq_argmin` — the search finds the first element of least rank.
-/

section

variable {α β : Type*} [LinearOrder β] {f : α → β} {l pre post : List α} {a m : α}

theorem argmin_of_split (before : ∀ a ∈ pre, f m < f a) (after : ∀ a ∈ post, f m ≤ f a) :
    (pre ++ m :: post).argmin f = some m := by
  induction pre with
  | nil =>
    rw [List.nil_append, List.argmin_cons]
    cases hpost : post.argmin f with
    | none => rfl
    | some c => exact if_neg (not_lt.mpr (after c (List.argmin_mem hpost)))
  | cons a pre ih =>
    rw [List.cons_append, List.argmin_cons, ih fun b hb => before b (List.mem_cons_of_mem _ hb)]
    exact if_pos (before a List.mem_cons_self)

/-- **The first minimum.** -/
theorem argmin_eq_some_iff_split :
    l.argmin f = some m ↔
      ∃ pre post, l = pre ++ m :: post ∧ (∀ a ∈ pre, f m < f a) ∧ ∀ a ∈ post, f m ≤ f a := by
  constructor
  · intro h
    induction l with
    | nil => cases h
    | cons a l ih =>
      rw [List.argmin_cons] at h
      cases hl : l.argmin f with
      | none =>
        rw [hl] at h
        cases h
        rw [List.argmin_eq_none] at hl
        exact ⟨[], l, rfl, nofun, by rw [hl]; exact nofun⟩
      | some c =>
        rw [hl] at h
        change (if f c < f a then some c else some a) = some m at h
        by_cases hlt : f c < f a
        · rw [if_pos hlt] at h
          cases h
          obtain ⟨pre, post, rfl, hpre, hpost⟩ := ih hl
          exact ⟨a :: pre, post, rfl, List.forall_mem_cons.mpr ⟨hlt, hpre⟩, hpost⟩
        · rw [if_neg hlt] at h
          cases h
          refine ⟨[], l, rfl, nofun, fun b hb => ?_⟩
          have hcb : f c ≤ f b := List.le_of_mem_argmin hb hl
          exact (not_lt.mp hlt).trans hcb
  · rintro ⟨pre, post, rfl, hpre, hpost⟩
    exact argmin_of_split hpre hpost

/-- The first minimum among the elements with some property. -/
theorem argmin_filter_eq_some_iff {p : α → Bool} :
    (l.filter p).argmin f = some m ↔ p m = true ∧ ∃ pre post, l = pre ++ m :: post ∧
      (∀ a ∈ pre, p a = true → f m < f a) ∧ ∀ a ∈ post, p a = true → f m ≤ f a := by
  constructor
  · intro h
    have hm := (List.mem_filter.mp (List.argmin_mem h)).2
    rw [argmin_eq_some_iff_split] at h
    obtain ⟨pre, post, hsplit, hpre, hpost⟩ := h
    obtain ⟨front, back, rfl, rfl, hback⟩ := List.filter_eq_append_iff.mp hsplit
    obtain ⟨skipped, post', rfl, hskipped, -, rfl⟩ := List.filter_eq_cons_iff.mp hback
    refine ⟨hm, front ++ skipped, post', (List.append_assoc ..).symm, fun a ha hp => ?_,
      fun a ha hp => ?_⟩
    · rcases List.mem_append.mp ha with ha | ha
      · exact hpre a (List.mem_filter.mpr ⟨ha, hp⟩)
      · exact absurd hp (hskipped a ha)
    · exact hpost a (List.mem_filter.mpr ⟨ha, hp⟩)
  · rintro ⟨hm, pre, post, rfl, hpre, hpost⟩
    rw [List.filter_append, List.filter_cons_of_pos hm]
    apply argmin_of_split
    · intro a ha
      obtain ⟨ha, hp⟩ := List.mem_filter.mp ha
      exact hpre a ha hp
    · intro a ha
      obtain ⟨ha, hp⟩ := List.mem_filter.mp ha
      exact hpost a ha hp

/-- Functions that order the elements alike have the same first minimum. -/
theorem argmin_congr {γ : Type*} [LinearOrder γ] {g : α → γ}
    (h : ∀ a ∈ l, ∀ b ∈ l, f a < f b ↔ g a < g b) : l.argmin f = l.argmin g := by
  cases hf : l.argmin f with
  | none =>
    rw [List.argmin_eq_none] at hf
    rw [hf, List.argmin_nil]
  | some m =>
    rw [argmin_eq_some_iff_split] at hf
    obtain ⟨pre, post, rfl, hpre, hpost⟩ := hf
    symm
    apply argmin_of_split
    · intro a ha
      exact (h m (by simp) a (by simp [ha])).mp (hpre a ha)
    · intro a ha
      rw [← not_lt, ← h a (by simp [ha]) m (by simp), not_lt]
      exact hpost a ha

end

section

variable {α : Type*} {ps : List (α → Bool)} {l : List α} {a m : α}

/-- The first element that a predicate accepts, the predicates in their order. -/
def firstMatch (ps : List (α → Bool)) (l : List α) : Option α := ps.findSome? fun p => l.find? p

/-- The position of the first predicate that accepts the element. -/
def rank (ps : List (α → Bool)) (a : α) : Nat := ps.findIdx fun p => p a

/-- Some predicate accepts the element. -/
def accepted (ps : List (α → Bool)) (a : α) : Bool := ps.any fun p => p a

theorem firstMatch_eq_none_iff :
    firstMatch ps l = none ↔ ∀ a ∈ l, accepted ps a = false := by
  unfold firstMatch accepted
  rw [List.findSome?_eq_none_iff]
  simp only [List.find?_eq_none, List.any_eq_false]
  exact ⟨fun h a ha p hp => h p hp a ha, fun h p hp a ha => h a ha p hp⟩

theorem firstMatch_cons (p : α → Bool) (ps : List (α → Bool)) (l : List α) :
    firstMatch (p :: ps) l = (l.find? p).or (firstMatch ps l) := by
  unfold firstMatch
  rw [List.findSome?_cons]
  cases l.find? p <;> rfl

/-- Cascades one after the other. -/
theorem firstMatch_flatMap {γ : Type*} (cascade : γ → List (α → Bool)) (cs : List γ) (l : List α) :
    firstMatch (cs.flatMap cascade) l = cs.findSome? fun c => firstMatch (cascade c) l := by
  induction cs with
  | nil => rfl
  | cons c cs ih =>
    have hsplit : firstMatch (cascade c ++ cs.flatMap cascade) l =
        (firstMatch (cascade c) l).or (firstMatch (cs.flatMap cascade) l) := List.findSome?_append
    rw [List.flatMap_cons, hsplit, ih, List.findSome?_cons]
    cases firstMatch (cascade c) l <;> rfl

/-- Every hit converts. -/
theorem findSome?_bind {γ δ : Type*} {search : γ → Option α} {convert : α → Option δ}
    (h : ∀ c a, search c = some a → convert a ≠ none) (cs : List γ) :
    (cs.findSome? fun c => (search c).bind convert) = (cs.findSome? search).bind convert := by
  induction cs with
  | nil => rfl
  | cons c cs ih =>
    rw [List.findSome?_cons, List.findSome?_cons]
    cases hsearch : search c with
    | none => exact ih
    | some a =>
      show (match convert a with | some b => some b | none => _) = convert a
      cases hconvert : convert a with
      | none => exact absurd hconvert (h c a hsearch)
      | some b => rfl

theorem rank_append (qs : List (α → Bool)) (h : ∀ p ∈ ps, p a = false) :
    rank (ps ++ qs) a = ps.length + rank qs a := by
  have hidx : ps.findIdx (fun p => p a) = ps.length := List.findIdx_eq_length.mpr h
  unfold rank
  rw [List.findIdx_append, hidx, if_neg (Nat.lt_irrefl _), Nat.add_comm]

theorem rank_cons_of_true {p : α → Bool} (h : p a = true) : rank (p :: ps) a = 0 := by
  unfold rank
  rw [List.findIdx_cons, h]
  rfl

theorem rank_cons_of_false {p : α → Bool} (h : p a = false) :
    rank (p :: ps) a = rank ps a + 1 := by
  unfold rank
  rw [List.findIdx_cons, h]
  rfl

/-- **A cascade finds the first element of least rank.** -/
theorem firstMatch_eq_argmin (ps : List (α → Bool)) (l : List α) :
    firstMatch ps l = (l.filter (accepted ps)).argmin (rank ps) := by
  cases hmatch : firstMatch ps l with
  | none =>
    symm
    rw [List.argmin_eq_none, List.filter_eq_nil_iff]
    intro a ha
    rw [firstMatch_eq_none_iff.mp hmatch a ha]
    exact Bool.false_ne_true
  | some m =>
    symm
    unfold firstMatch at hmatch
    obtain ⟨ps, p, qs, rfl, hfind, hearlier⟩ := List.findSome?_eq_some_iff.mp hmatch
    obtain ⟨hm, pre, post, rfl, hpre⟩ := List.find?_eq_some_iff_append.mp hfind
    -- no earlier predicate accepts an element of the list
    have hnone : ∀ a ∈ pre ++ m :: post, ∀ q ∈ ps, q a = false := by
      intro a ha q hq
      have hq := List.find?_eq_none.mp (hearlier q hq) a ha
      rwa [Bool.not_eq_true] at hq
    have hrank : ∀ a ∈ pre ++ m :: post,
        rank (ps ++ p :: qs) a = ps.length + rank (p :: qs) a :=
      fun a ha => rank_append _ (hnone a ha)
    have hmem : m ∈ pre ++ m :: post := by simp
    have hleast : rank (ps ++ p :: qs) m = ps.length := by
      rw [hrank m hmem, rank_cons_of_true hm, Nat.add_zero]
    have haccepted : accepted (ps ++ p :: qs) m = true := by
      unfold accepted
      exact List.any_eq_true.mpr ⟨p, by simp, hm⟩
    rw [List.filter_append, List.filter_cons_of_pos haccepted]
    apply argmin_of_split
    · intro a ha
      have hapre := (List.mem_filter.mp ha).1
      have hp : p a = false := by simpa using hpre a hapre
      rw [hleast, hrank a (by simp [hapre]), rank_cons_of_false hp]
      omega
    · intro a ha
      have hapost := (List.mem_filter.mp ha).1
      rw [hleast, hrank a (by simp [hapost])]
      omega

end

end Montr.FirstMatch
