import Mathlib

namespace Montr.Paging

/-!
# Reading a sorted table page by page

A table is read in pages, each page by a query of its own that sorts by a key, newest first, and
orders rows with one key as it likes.

* `Arranges key l s` — `s` is a legal answer: the rows of `l`, sorted by the key;
* `Split key l k` — the rows with one key lie on both sides of the cut after `k` rows;
* `mem_take_iff` — without a split the rows before the cut are the same in every answer;
* `exists_mem_page` — without a split at a page boundary every row is on some page;
* `exists_missed` — with one, some answers leave out a row.
-/

universe u v

variable {α : Type u} {κ : Type v} [LinearOrder κ]

/-- The rows in some order that is sorted by the key, largest first. -/
structure Arranges (key : α → κ) (l s : List α) : Prop where
  perm : s.Perm l
  sorted : s.Pairwise fun a b => key b ≤ key a

/-- Page `p`, counted from 1, of `n` rows a page. -/
def page (n p : Nat) (s : List α) : List α := (s.drop ((p - 1) * n)).take n

/-- A cut after `k` rows goes through the rows with some key. -/
def Split (key : α → κ) (l : List α) (k : Nat) : Prop :=
  ∃ x ∈ l, l.countP (fun y => decide (key x < key y)) < k ∧
    k < l.countP fun y => decide (key x ≤ key y)

section

variable {key : α → κ} {l s : List α} {x : α} {k n : Nat}

/-- A cut that splits a key is inside the list. -/
theorem Split.bounds (split : Split key l k) : 0 < k ∧ k < l.length := by
  obtain ⟨x, -, hbefore, hafter⟩ := split
  have hle : l.countP (fun y => decide (key x ≤ key y)) ≤ l.length := List.countP_le_length
  omega

/-- The rows that come before `x` have a larger key or the same. -/
theorem countP_lt_le {u v : List α} (h : Arranges key l (u ++ x :: v)) :
    l.countP (fun y => decide (key x < key y)) ≤ u.length := by
  have hafter : (x :: v).countP (fun y => decide (key x < key y)) = 0 := by
    rw [List.countP_eq_zero]
    intro y hy
    rw [decide_eq_true_eq, not_lt]
    obtain rfl | hy := List.mem_cons.mp hy
    · exact le_refl _
    · exact (List.pairwise_cons.mp (List.pairwise_append.mp h.sorted).2.1).1 y hy
  rw [← h.perm.countP_eq, List.countP_append, hafter]
  exact List.countP_le_length

theorem lt_countP_le {u v : List α} (h : Arranges key l (u ++ x :: v)) :
    u.length < l.countP fun y => decide (key x ≤ key y) := by
  have hbefore : u.countP (fun y => decide (key x ≤ key y)) = u.length := by
    rw [List.countP_eq_length]
    intro y hy
    exact decide_eq_true ((List.pairwise_append.mp h.sorted).2.2 y hy x List.mem_cons_self)
  rw [← h.perm.countP_eq, List.countP_append, List.countP_cons, hbefore, if_pos (by simp)]
  omega

/-- **Before a cut that splits no key** are the rows that fit there, in every answer. -/
theorem mem_take_iff (h : Arranges key l s) (whole : ¬ Split key l k) (hx : x ∈ l) :
    x ∈ s.take k ↔ l.countP (fun y => decide (key x ≤ key y)) ≤ k := by
  constructor
  · intro hmem
    obtain ⟨u, w, hsplit⟩ := List.append_of_mem hmem
    have hs : s = u ++ x :: (w ++ s.drop k) := by
      conv_lhs => rw [← List.take_append_drop k s, hsplit]
      simp
    have hlen : u.length < k := by
      have htake := congrArg List.length hsplit
      rw [List.length_take, List.length_append, List.length_cons] at htake
      omega
    by_contra hbig
    refine whole ⟨x, hx, ?_, Nat.lt_of_not_le hbig⟩
    exact Nat.lt_of_le_of_lt (countP_lt_le (hs ▸ h)) hlen
  · intro hfits
    obtain ⟨u, v, rfl⟩ := List.append_of_mem (h.perm.mem_iff.mpr hx)
    have hlen := lt_countP_le h
    rw [List.take_append, List.mem_append]
    refine .inr ?_
    obtain ⟨m, hm⟩ : ∃ m, k - u.length = m + 1 := ⟨k - u.length - 1, by omega⟩
    rw [hm, List.take_succ_cons]
    exact List.mem_cons_self

/-- **Every row is on a page**, when no page boundary splits a key. -/
theorem exists_mem_page {answers : Nat → List α} (hn : 0 < n)
    (legal : ∀ p, Arranges key l (answers p)) (whole : ∀ j, ¬ Split key l (j * n)) (hx : x ∈ l) :
    ∃ p, 1 ≤ p ∧ p ≤ (l.length + n - 1) / n ∧ x ∈ page n p (answers p) := by
  -- the last page that a row with this key needs
  have hpos : 0 < l.countP fun y => decide (key x ≤ key y) :=
    List.countP_pos_iff.mpr ⟨x, hx, by simp⟩
  have hle : l.countP (fun y => decide (key x ≤ key y)) ≤ l.length := List.countP_le_length
  generalize hm : l.countP (fun y => decide (key x ≤ key y)) = m at hpos hle
  have hdiv := Nat.div_add_mod (m - 1) n
  have hmod := Nat.mod_lt (m - 1) hn
  generalize hq : (m - 1) / n = q at hdiv
  have hcomm : n * q = q * n := Nat.mul_comm n q
  have hsucc : (q + 1) * n = q * n + n := Nat.succ_mul q n
  refine ⟨q + 1, Nat.succ_le_succ (Nat.zero_le q), ?_, ?_⟩
  · rw [Nat.le_div_iff_mul_le hn]
    omega
  · have hbefore : x ∉ (answers (q + 1)).take (q * n) := by
      rw [mem_take_iff (legal _) (whole q) hx, hm]
      omega
    have hwithin : x ∈ (answers (q + 1)).take ((q + 1) * n) := by
      rw [mem_take_iff (legal _) (whole (q + 1)) hx, hm]
      omega
    rw [hsucc, List.take_add, List.mem_append] at hwithin
    exact hwithin.resolve_left hbefore

/-- The two rows at a cut that splits a key. -/
theorem exists_tie (h : Arranges key l s) (split : Split key l k) :
    ∃ u a b v, s = u ++ a :: b :: v ∧ u.length + 1 = k ∧ key a = key b := by
  obtain ⟨x, -, hbefore, hafter⟩ := split
  rw [← h.perm.countP_eq] at hbefore hafter
  have hlen : s.countP (fun y => decide (key x ≤ key y)) ≤ s.length := List.countP_le_length
  have hfirst : k - 1 < s.length := by omega
  have hsecond : k - 1 + 1 < s.length := by omega
  have hsplit : s = s.take (k - 1) ++ s[k - 1] :: s[k - 1 + 1] :: s.drop (k - 1 + 1 + 1) := by
    rw [← List.drop_eq_getElem_cons hsecond, ← List.drop_eq_getElem_cons hfirst,
      List.take_append_drop]
  have hu : (s.take (k - 1)).length = k - 1 := List.length_take_of_le (Nat.le_of_lt hfirst)
  generalize s.take (k - 1) = u at hsplit hu
  generalize s[k - 1] = a at hsplit
  generalize s[k - 1 + 1] = b at hsplit
  generalize s.drop (k - 1 + 1 + 1) = v at hsplit
  have hsorted := h.sorted
  rw [hsplit, List.pairwise_append, List.pairwise_cons, List.pairwise_cons] at hsorted
  obtain ⟨-, ⟨ha, hb, -⟩, hcross⟩ := hsorted
  refine ⟨u, a, b, v, hsplit, by omega, ?_⟩
  rw [hsplit] at hbefore hafter
  -- both rows have the key that is split
  have hax : key a ≤ key x := by
    by_contra hlarge
    have hall : (u ++ [a]).countP (fun y => decide (key x < key y)) = (u ++ [a]).length := by
      rw [List.countP_eq_length]
      intro y hy
      obtain hy | hy := List.mem_append.mp hy
      · exact decide_eq_true
          (lt_of_lt_of_le (not_le.mp hlarge) (hcross y hy a List.mem_cons_self))
      · rw [List.mem_singleton.mp hy]
        exact decide_eq_true (not_le.mp hlarge)
    rw [show u ++ a :: b :: v = (u ++ [a]) ++ (b :: v) by simp, List.countP_append, hall,
      List.length_append, List.length_singleton] at hbefore
    omega
  have hxb : key x ≤ key b := by
    by_contra hsmall
    have hnone : (b :: v).countP (fun y => decide (key x ≤ key y)) = 0 := by
      rw [List.countP_eq_zero]
      intro y hy
      rw [decide_eq_true_eq, not_le]
      obtain rfl | hy := List.mem_cons.mp hy
      · exact not_le.mp hsmall
      · exact lt_of_le_of_lt (hb y hy) (not_le.mp hsmall)
    have hle : (u ++ [a]).countP (fun y => decide (key x ≤ key y)) ≤ (u ++ [a]).length :=
      List.countP_le_length
    rw [show u ++ a :: b :: v = (u ++ [a]) ++ (b :: v) by simp, List.countP_append, hnone] at hafter
    rw [List.length_append, List.length_singleton] at hle
    omega
  exact le_antisymm (le_trans hax hxb) (ha b List.mem_cons_self)

/-- **A row is missed**, when a page boundary splits a key and the two rows at it change places. -/
theorem exists_missed (h : Arranges key l s) (nodup : l.Nodup) {j : Nat}
    (split : Split key l (j * n)) :
    ∃ answers : Nat → List α, (∀ p, Arranges key l (answers p)) ∧
      ∃ x ∈ l, ∀ p, x ∉ page n p (answers p) := by
  obtain ⟨u, a, b, v, rfl, hlen, hkey⟩ := exists_tie h split
  have hswap : (u ++ b :: a :: v).Perm (u ++ a :: b :: v) :=
    (List.Perm.swap a b v).append_left u
  have hsorted : (u ++ b :: a :: v).Pairwise fun x y => key y ≤ key x := by
    have hs := h.sorted
    simp only [List.pairwise_append, List.pairwise_cons, List.mem_cons, forall_eq_or_imp] at hs ⊢
    obtain ⟨hu, ⟨⟨-, ha⟩, hb, hv⟩, hcross⟩ := hs
    exact ⟨hu, ⟨⟨le_of_eq hkey, hb⟩, ha, hv⟩, fun x hx =>
      ⟨(hcross x hx).2.1, (hcross x hx).1, (hcross x hx).2.2⟩⟩
  have hnodup : (u ++ a :: b :: v).Nodup := h.perm.nodup_iff.mpr nodup
  have hb : b ∉ u ++ [a] ∧ b ∉ a :: v := by
    simp only [List.nodup_append, List.nodup_cons, List.mem_cons, not_or] at hnodup
    obtain ⟨-, ⟨⟨hab, -⟩, hbv, -⟩, hcross⟩ := hnodup
    refine ⟨?_, by simpa using ⟨fun heq => hab heq.symm, hbv⟩⟩
    rw [List.mem_append, not_or]
    exact ⟨fun hmem => hcross b hmem b (.inr (.inl rfl)) rfl, by simpa using fun heq => hab heq.symm⟩
  refine ⟨fun p => if p ≤ j then u ++ a :: b :: v else u ++ b :: a :: v, fun p => ?_, b, ?_,
    fun p => ?_⟩
  · dsimp only
    split
    · exact h
    · exact ⟨hswap.trans h.perm, hsorted⟩
  · exact h.perm.mem_iff.mp (by simp)
  · dsimp only [page]
    split
    next hp =>
      -- up to the boundary: the rows before `b`
      intro hmem
      have hbound : (p - 1) * n + n ≤ j * n := by
        obtain rfl | hpos := Nat.eq_zero_or_pos p
        · have hj : 1 ≤ j := by
            by_contra hzero
            obtain rfl : j = 0 := by omega
            omega
          have := Nat.mul_le_mul_right n hj
          omega
        · have := Nat.mul_le_mul_right n (Nat.sub_add_cancel hpos ▸ hp)
          rwa [Nat.succ_mul] at this
      rw [show u ++ a :: b :: v = (u ++ [a]) ++ (b :: v) by simp, List.take_drop] at hmem
      have htake := List.mem_of_mem_drop hmem
      rw [List.take_append_of_le_length (by simp; omega)] at htake
      exact hb.1 (List.mem_of_mem_take htake)
    next hp =>
      -- behind it: the rows after `b`
      intro hmem
      have hbound : j * n ≤ (p - 1) * n := Nat.mul_le_mul_right n (by omega)
      rw [show u ++ b :: a :: v = (u ++ [b]) ++ (a :: v) by simp] at hmem
      have hdrop := List.mem_of_mem_take hmem
      rw [List.drop_append, List.drop_eq_nil_of_le (by simp; omega), List.nil_append] at hdrop
      exact hb.2 (List.mem_of_mem_drop hdrop)

end

end Montr.Paging
