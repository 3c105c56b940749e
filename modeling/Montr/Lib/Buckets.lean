import Mathlib.Data.List.Basic
import Mathlib.Data.List.Induction
import Mathlib.Data.List.Nodup

namespace Montr.Buckets

/-!
# Grouping a list by a key

`collect key l` puts the elements of `l` into buckets, one for each key, in the order in which the
keys first occur; within a bucket the order of `l` is kept.  `groups_collect` says so:

* a bucket holds the elements with its key (`Groups.holds`) and is not empty (`Groups.inhabited`);
* every element is in a bucket (`Groups.covers`);
* the buckets stand in the order of first occurrences (`Groups.order`), so that no key has two;
* `filter_collect` — the bucket of one key.
-/

universe u v

variable {κ : Type u} {α : Type v} [DecidableEq κ]

/-- Append to the bucket of the key, or open one at the end. -/
def add (k : κ) (a : α) : List (κ × List α) → List (κ × List α)
  | [] => [(k, [a])]
  | (k', arr) :: rest =>
    if k' = k then (k', arr ++ [a]) :: rest else (k', arr) :: add k a rest

/-- The buckets of a list. -/
def collect (key : α → κ) (l : List α) : List (κ × List α) :=
  l.foldl (fun bs a => add (key a) a bs) []

/-- Where a key first occurs. -/
def firstIndex (key : α → κ) (l : List α) (k : κ) : Nat := l.findIdx fun a => key a = k

/-- The buckets of `l`. -/
structure Groups (key : α → κ) (l : List α) (bs : List (κ × List α)) : Prop where
  holds : ∀ b ∈ bs, b.2 = l.filter fun a => key a = b.1
  inhabited : ∀ b ∈ bs, ∃ a ∈ l, key a = b.1
  covers : ∀ a ∈ l, ∃ b ∈ bs, b.1 = key a
  order : bs.Pairwise fun b c => firstIndex key l b.1 < firstIndex key l c.1

section

variable {key : α → κ} {l : List α} {bs : List (κ × List α)} {k : κ} {a : α}

/-- A bucket after an element is added: an old one of another key, the one of the key with the
    element at its end, or a new one. -/
theorem mem_add (distinct : (bs.map Prod.fst).Nodup) {b : κ × List α} (h : b ∈ add k a bs) :
    b ∈ bs ∧ b.1 ≠ k ∨ (∃ arr, (k, arr) ∈ bs ∧ b = (k, arr ++ [a])) ∨
      k ∉ bs.map Prod.fst ∧ b = (k, [a]) := by
  induction bs with
  | nil => exact .inr (.inr ⟨List.not_mem_nil, List.mem_singleton.mp h⟩)
  | cons head rest ih =>
    obtain ⟨k', arr⟩ := head
    obtain ⟨hfresh, hrest⟩ := List.nodup_cons.mp distinct
    unfold add at h
    split at h
    next hk =>
      subst hk
      rcases List.mem_cons.mp h with rfl | hmem
      · exact .inr (.inl ⟨arr, List.mem_cons_self, rfl⟩)
      · refine .inl ⟨List.mem_cons_of_mem _ hmem, fun heq => hfresh ?_⟩
        exact List.mem_map.mpr ⟨b, hmem, heq⟩
    next hk =>
      rcases List.mem_cons.mp h with rfl | hmem
      · exact .inl ⟨List.mem_cons_self, hk⟩
      · rcases ih hrest hmem with ⟨hold, hne⟩ | ⟨arr', harr, rfl⟩ | ⟨hnew, rfl⟩
        · exact .inl ⟨List.mem_cons_of_mem _ hold, hne⟩
        · exact .inr (.inl ⟨arr', List.mem_cons_of_mem _ harr, rfl⟩)
        · refine .inr (.inr ⟨fun hmem => ?_, rfl⟩)
          rcases List.mem_cons.mp hmem with heq | hmem
          · exact hk heq.symm
          · exact hnew hmem

/-- The keys after an element is added. -/
theorem keys_add : (add k a bs).map Prod.fst =
    if k ∈ bs.map Prod.fst then bs.map Prod.fst else bs.map Prod.fst ++ [k] := by
  induction bs with
  | nil => rfl
  | cons head rest ih =>
    obtain ⟨k', arr⟩ := head
    unfold add
    by_cases hk : k' = k
    · simp [hk]
    · have hk' : k ≠ k' := fun heq => hk heq.symm
      rw [if_neg hk, List.map_cons, ih]
      by_cases hmem : k ∈ rest.map Prod.fst
      · have hmem' : k ∈ ((k', arr) :: rest).map Prod.fst := List.mem_cons_of_mem _ hmem
        rw [if_pos hmem, if_pos hmem']
        rfl
      · have hnot : k ∉ ((k', arr) :: rest).map Prod.fst := by
          intro h
          rcases List.mem_cons.mp h with heq | h
          · exact hk' heq
          · exact hmem h
        rw [if_neg hmem, if_neg hnot, List.map_cons, List.cons_append]

theorem firstIndex_lt (h : ∃ x ∈ l, key x = k) : firstIndex key l k < l.length := by
  obtain ⟨x, hx, heq⟩ := h
  exact List.findIdx_lt_length_of_exists ⟨x, hx, by simpa using heq⟩

/-- Keys that first occur at one place are one. -/
theorem eq_of_firstIndex {k' : κ} (h : ∃ x ∈ l, key x = k) (h' : ∃ x ∈ l, key x = k')
    (heq : firstIndex key l k = firstIndex key l k') : k = k' := by
  have hk := of_decide_eq_true (List.findIdx_getElem (w := firstIndex_lt h))
  have hk' := of_decide_eq_true (List.findIdx_getElem (w := firstIndex_lt h'))
  have hsame : l.get ⟨firstIndex key l k, firstIndex_lt h⟩ =
      l.get ⟨firstIndex key l k', firstIndex_lt h'⟩ := congrArg l.get (Fin.ext heq)
  exact hk.symm.trans ((congrArg key hsame).trans hk')

/-- A key that occurs keeps its first place when the list grows. -/
theorem firstIndex_append (h : ∃ x ∈ l, key x = k) (a : α) :
    firstIndex key (l ++ [a]) k = firstIndex key l k := by
  have hlt := firstIndex_lt h
  unfold firstIndex at hlt ⊢
  rw [List.findIdx_append, if_pos hlt]

theorem firstIndex_append_new (h : ¬ ∃ x ∈ l, key x = key a) :
    firstIndex key (l ++ [a]) (key a) = l.length := by
  have hnone : List.findIdx (fun x => decide (key x = key a)) l = l.length := by
    rw [List.findIdx_eq_length]
    intro x hx
    simpa using fun heq => h ⟨x, hx, heq⟩
  unfold firstIndex
  rw [List.findIdx_append, hnone, if_neg (by omega)]
  simp

/-- The order of the buckets, read on their keys. -/
theorem Groups.keyOrder (g : Groups key l bs) :
    (bs.map Prod.fst).Pairwise fun b c => firstIndex key l b < firstIndex key l c :=
  List.pairwise_map.mpr g.order

theorem Groups.distinct (g : Groups key l bs) : (bs.map Prod.fst).Nodup :=
  g.keyOrder.imp fun hlt heq => by simp [heq] at hlt

theorem Groups.keys_iff (g : Groups key l bs) :
    k ∈ bs.map Prod.fst ↔ ∃ x ∈ l, key x = k := by
  constructor
  · intro h
    obtain ⟨b, hb, rfl⟩ := List.mem_map.mp h
    exact g.inhabited b hb
  · rintro ⟨x, hx, rfl⟩
    obtain ⟨b, hb, heq⟩ := g.covers x hx
    exact List.mem_map.mpr ⟨b, hb, heq⟩

/-- One more element. -/
theorem Groups.add (g : Groups key l bs) (a : α) :
    Groups key (l ++ [a]) (Buckets.add (key a) a bs) where
  holds b hb := by
    rw [List.filter_append]
    rcases mem_add g.distinct hb with ⟨hold, hne⟩ | ⟨arr, harr, rfl⟩ | ⟨hnew, rfl⟩
    · rw [g.holds b hold]
      simp [Ne.symm hne]
    · rw [show arr = _ from g.holds (key a, arr) harr]
      simp
    · have hnone : l.filter (fun x => decide (key x = key a)) = [] := by
        rw [List.filter_eq_nil_iff]
        intro x hx
        simpa using fun heq => hnew (g.keys_iff.mpr ⟨x, hx, heq⟩)
      simp [hnone]
  inhabited b hb := by
    rcases mem_add g.distinct hb with ⟨hold, -⟩ | ⟨arr, -, rfl⟩ | ⟨-, rfl⟩
    · obtain ⟨x, hx, heq⟩ := g.inhabited b hold
      exact ⟨x, List.mem_append_left _ hx, heq⟩
    · exact ⟨a, by simp, rfl⟩
    · exact ⟨a, by simp, rfl⟩
  covers x hx := by
    suffices key x ∈ (Buckets.add (key a) a bs).map Prod.fst by
      obtain ⟨b, hb, heq⟩ := List.mem_map.mp this
      exact ⟨b, hb, heq⟩
    rw [keys_add]
    rcases List.mem_append.mp hx with hx | hx
    · have hold := g.keys_iff.mpr ⟨x, hx, rfl⟩
      split
      · exact hold
      · exact List.mem_append_left _ hold
    · obtain rfl := List.mem_singleton.mp hx
      split
      · assumption
      · simp
  order := by
    suffices ((Buckets.add (key a) a bs).map Prod.fst).Pairwise fun b c =>
        firstIndex key (l ++ [a]) b < firstIndex key (l ++ [a]) c by
      rw [List.pairwise_map] at this
      exact this
    have hold : (bs.map Prod.fst).Pairwise fun b c =>
        firstIndex key (l ++ [a]) b < firstIndex key (l ++ [a]) c := by
      refine g.keyOrder.imp_of_mem fun hb hc hlt => ?_
      rw [firstIndex_append (g.keys_iff.mp hb), firstIndex_append (g.keys_iff.mp hc)]
      exact hlt
    rw [keys_add]
    split
    · exact hold
    next hnew =>
      -- a new bucket stands behind all others
      refine List.pairwise_append.mpr ⟨hold, List.pairwise_singleton _ _, fun b hb c hc => ?_⟩
      obtain rfl := List.mem_singleton.mp hc
      have hb' := g.keys_iff.mp hb
      rw [firstIndex_append hb', firstIndex_append_new fun h => hnew (g.keys_iff.mpr h)]
      exact firstIndex_lt hb'

end

/-- **Grouping.** -/
theorem groups_collect (key : α → κ) (l : List α) : Groups key l (collect key l) := by
  induction l using List.reverseRecOn with
  | nil => exact ⟨by simp [collect], by simp [collect], by simp, List.Pairwise.nil⟩
  | append_singleton l a ih =>
    unfold collect at ih ⊢
    rw [List.foldl_append]
    exact ih.add a

section

variable {key : α → κ} {l : List α}

/-- The bucket of one key. -/
theorem filter_collect (key : α → κ) (l : List α) (k : κ) :
    ((collect key l).filter fun b => decide (b.1 = k)) =
      if ∃ a ∈ l, key a = k then [(k, l.filter fun a => decide (key a = k))] else [] := by
  have hgroups := groups_collect key l
  have hdistinct : ((collect key l).map Prod.fst).Nodup := hgroups.distinct
  split
  · next hsome =>
    obtain ⟨b, hb, rfl⟩ := List.mem_map.mp (hgroups.keys_iff.mpr hsome)
    have hbucket : b = (b.1, l.filter fun a => decide (key a = b.1)) :=
      Prod.ext rfl (hgroups.holds b hb)
    rw [← hbucket]
    obtain ⟨before, after, hsplit⟩ := List.append_of_mem hb
    rw [hsplit, List.map_append, List.map_cons, List.nodup_middle, List.nodup_cons,
      List.mem_append, not_or] at hdistinct
    have hother : ∀ part : List (κ × List α), b.1 ∉ part.map Prod.fst →
        (part.filter fun b' => decide (b'.1 = b.1)) = [] := by
      intro part hnot
      rw [List.filter_eq_nil_iff]
      intro b' hb' heq
      exact hnot (List.mem_map.mpr ⟨b', hb', of_decide_eq_true heq⟩)
    rw [hsplit, List.filter_append, List.filter_cons_of_pos (by simp), hother _ hdistinct.1.1,
      hother _ hdistinct.1.2, List.nil_append]
  · next hnone =>
    rw [List.filter_eq_nil_iff]
    intro b hb heq
    obtain ⟨a, ha, hkey⟩ := hgroups.inhabited b hb
    exact hnone ⟨a, ha, hkey.trans (of_decide_eq_true heq)⟩

end

/-- What comes of the elements that meet a condition, where it can be read off what comes of an
    element. -/
theorem filter_flatMap_of_agree {β : Type v} {f : α → List β} {p : α → Bool} {q : β → Bool}
    {l : List α} (agree : ∀ a ∈ l, ∀ b ∈ f a, q b = p a) :
    (l.flatMap f).filter q = (l.filter p).flatMap f := by
  induction l with
  | nil => rfl
  | cons a l ih =>
    have hrest := ih fun a' ha' => agree a' (List.mem_cons_of_mem _ ha')
    have hfirst := agree a List.mem_cons_self
    rw [List.flatMap_cons, List.filter_append, hrest]
    cases hp : p a with
    | true =>
      have hall : (f a).filter q = f a :=
        List.filter_eq_self.mpr fun b hb => (hfirst b hb).trans hp
      rw [hall, List.filter_cons_of_pos hp, List.flatMap_cons]
    | false =>
      have hnone : (f a).filter q = [] := by
        rw [List.filter_eq_nil_iff]
        intro b hb
        rw [hfirst b hb, hp]
        exact Bool.false_ne_true
      rw [hnone, List.filter_cons_of_neg (by simp [hp]), List.nil_append]

end Montr.Buckets
