import Mathlib.Data.List.Chain
import Mathlib.Algebra.Order.Ring.Int
import Mathlib.Tactic.Ring

namespace Montr.Series

/-!
# Time series read through a window

A series is a list of samples, latest last.  This file supplies

* `run p l` — how many of the latest samples in a row have `p`, with `run_eq_iff` in terms of
  the last `n` samples and the one before them;
* `run_of_append` — a long enough end of the series decides whether the run has length `n`;
* `since time t l` — the samples from `t` on, with `since_suffix`: in time order they are an
  end of the series;
* `le_length_since` — samples at most `gap` apart: a window of `k` gaps holds the latest `k`.
-/

universe u

variable {α : Type u}

/-! ### Runs -/

/-- The length of the run of `p` at the end of the series. -/
def run (p : α → Bool) (l : List α) : Nat := (l.reverse.takeWhile p).length

/-- The first `n` have `p` and the next one, if any, has not. -/
theorem length_takeWhile_eq_iff {p : α → Bool} {l : List α} {n : Nat} :
    (l.takeWhile p).length = n ↔
      (l.take n).length = n ∧ (∀ a ∈ l.take n, p a = true) ∧ ∀ a ∈ l[n]?, p a = false := by
  induction l generalizing n with
  | nil =>
    cases n with
    | zero => simp
    | succ n => simp
  | cons a l ih =>
    cases ha : p a with
    | false =>
      cases n with
      | zero => simp [ha]
      | succ n => simp [ha]
    | true =>
      cases n with
      | zero => simp [ha]
      | succ n =>
        have hih := @ih n
        simp only [List.takeWhile_cons, ha, if_true, List.length_cons, List.take_succ_cons,
          List.getElem?_cons_succ, List.forall_mem_cons, true_and, Nat.add_right_cancel_iff]
        exact hih

/-- A run of length `n`: the last `n` samples have `p` and the one before them, if any, has
    not. -/
theorem run_eq_iff {p : α → Bool} {l : List α} {n : Nat} :
    run p l = n ↔
      (l.drop (l.length - n)).length = n ∧ (∀ a ∈ l.drop (l.length - n), p a = true) ∧
        ∀ a ∈ if n + 1 ≤ l.length then l[l.length - (n + 1)]? else none, p a = false := by
  have hlast : l.reverse.take n = (l.drop (l.length - n)).reverse := List.take_reverse
  have hbefore : l.reverse[n]? = if n + 1 ≤ l.length then l[l.length - (n + 1)]? else none := by
    by_cases hn : n + 1 ≤ l.length
    · rw [if_pos hn, List.getElem?_reverse (by omega)]
      congr 1
      omega
    · rw [if_neg hn, List.getElem?_eq_none_iff, List.length_reverse]
      omega
  unfold run
  rw [length_takeWhile_eq_iff, hlast, hbefore, List.length_reverse]
  simp only [List.mem_reverse]

/-- More than `n` samples decide whether the run has length `n`, whatever came before. -/
theorem run_of_append {p : α → Bool} {old l : List α} {n : Nat} (h : n < l.length) :
    run p (old ++ l) = n ↔ run p l = n := by
  unfold run
  rw [List.reverse_append, List.takeWhile_append]
  split
  · -- the run fills the end of the series, and is longer than `n` on both sides
    rename_i hall
    rw [List.length_append, List.length_reverse]
    constructor
    · intro hlen
      omega
    · intro hlen
      rw [List.length_reverse] at hall
      omega
  · exact Iff.rfl

/-! ### Windows -/

variable {time : α → Int} {t now gap : Int} {l : List α}

/-- The samples from `t` on. -/
def since (time : α → Int) (t : Int) (l : List α) : List α := l.filter fun a => t ≤ time a

/-- In time order the samples from `t` on are an end of the series, and what is before them is
    older. -/
theorem since_suffix (ordered : (l.map time).Pairwise (· ≤ ·)) :
    ∃ old, l = old ++ since time t l ∧ ∀ a ∈ old, time a < t := by
  induction l with
  | nil => exact ⟨[], rfl, by simp⟩
  | cons a l ih =>
    rw [List.map_cons, List.pairwise_cons] at ordered
    obtain ⟨hfirst, hrest⟩ := ordered
    by_cases ha : t ≤ time a
    · -- everything after `a` is in the window as well
      have hall : since time t (a :: l) = a :: l := by
        apply List.filter_eq_self.mpr
        intro b hb
        rw [decide_eq_true_eq]
        rcases List.mem_cons.mp hb with rfl | hb
        · exact ha
        · exact le_trans ha (hfirst _ (List.mem_map_of_mem hb))
      exact ⟨[], by rw [hall]; simp, by simp⟩
    · obtain ⟨old, hl, hold⟩ := ih hrest
      have hskip : since time t (a :: l) = since time t l := by
        unfold since
        rw [List.filter_cons_of_neg (by simpa using ha)]
      refine ⟨a :: old, ?_, ?_⟩
      · rw [hskip, List.cons_append, ← hl]
      · intro b hb
        rcases List.mem_cons.mp hb with rfl | hb
        · omega
        · exact hold b hb

/-- `b` comes at most `gap` after `a`. -/
def Within (gap a b : Int) : Prop := a ≤ b ∧ b ≤ a + gap

/-- Times at most `gap` apart are in order. -/
theorem pairwise_of_within {times : List Int} (h : times.IsChain (Within gap)) :
    times.Pairwise (· ≤ ·) := by
  apply List.isChain_iff_pairwise.mp
  exact h.imp fun _ _ hab => hab.1

/-- As many steps of at most `gap` as there are times. -/
theorem le_add_of_within {a : Int} {times : List Int}
    (h : (a :: (times ++ [now])).IsChain (Within gap)) : now ≤ a + gap * (times.length + 1) := by
  induction times generalizing a with
  | nil =>
    have hstep : Within gap a now := by simpa using h
    have hle := hstep.2
    simpa using hle
  | cons b times ih =>
    rw [List.cons_append, List.isChain_cons_cons] at h
    have hrest := ih h.2
    have hstep := h.1.2
    rw [List.length_cons]
    push_cast
    have hexpand : gap * ((times.length : Int) + 1 + 1) = gap * (times.length + 1) + gap := by ring
    omega

/-- **A window of `k` gaps** holds the latest `k` samples of a series that goes on to `now` in
    steps of at most `gap`, or the whole series. -/
theorem le_length_since {k : Nat} (positive : 0 < gap)
    (spaced : (l.map time ++ [now]).IsChain (Within gap)) (window : t ≤ now - gap * k) :
    k ≤ (since time t l).length ∨ since time t l = l := by
  have hordered := (List.pairwise_append.mp (pairwise_of_within spaced)).1
  obtain ⟨old, hl, hold⟩ := @since_suffix _ time t l hordered
  rcases List.eq_nil_or_concat old with rfl | ⟨older, a, rfl⟩
  · exact .inr (by simpa using hl.symm)
  · left
    -- `a` is the last sample outside the window, and the steps from it lead to `now`
    have ha : time a < t := hold a (by simp)
    have hchain : (time a :: ((since time t l).map time ++ [now])).IsChain (Within gap) := by
      rw [hl] at spaced
      simp only [List.map_append, List.concat_eq_append, List.map_cons, List.map_nil,
        List.append_assoc] at spaced
      have htail := (List.isChain_append.mp spaced).2.1
      simpa using htail
    have hbound := le_add_of_within hchain
    rw [List.length_map] at hbound
    by_contra hk
    have hlen : ((since time t l).length : Int) + 1 ≤ k := by omega
    have hmul : gap * ((since time t l).length + 1) ≤ gap * k :=
      mul_le_mul_of_nonneg_left hlen positive.le
    omega

end Montr.Series
