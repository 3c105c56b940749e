import Mathlib.Data.List.Basic

namespace Montr.Answers

/-!
# A log whose entries answer earlier ones

A log with its newest entry first. An entry may concern a key, and some entries close what an
earlier one of their key opened.

* `latest key log k` — the newest entry of the key;
* `Answered` — every closing entry comes, among the entries of its key, right after one that it
  answers;
* `Answered.of_split` — read at any entry of the log;
* `countP_closes_le` — a key is not closed more often than it is opened.
-/

universe u v

variable {α : Type u} {κ : Type v} [DecidableEq κ]

/-- The newest entry of the key. -/
def latest (key : α → Option κ) (log : List α) (k : κ) : Option α :=
  log.find? fun e => decide (key e = some k)

/-- Every closing entry answers the newest one before it of its key. -/
def Answered (key : α → Option κ) (closes : α → Bool) (answers : α → α → Prop) : List α → Prop
  | [] => True
  | e :: log =>
    (closes e = true → ∃ k f, key e = some k ∧ latest key log k = some f ∧ answers e f) ∧
      Answered key closes answers log

section

variable {key : α → Option κ} {closes : α → Bool} {answers : α → α → Prop} {log : List α}
  {e f : α} {k : κ}

theorem latest_cons_of_key (h : key e = some k) : latest key (e :: log) k = some e :=
  List.find?_cons_of_pos (decide_eq_true h)

theorem latest_cons_of_ne (h : key e ≠ some k) : latest key (e :: log) k = latest key log k :=
  List.find?_cons_of_neg (by simpa using h)

/-- New entries that do not concern the key. -/
theorem latest_append {new : List α} (h : ∀ e ∈ new, key e ≠ some k) :
    latest key (new ++ log) k = latest key log k := by
  unfold latest
  have hnone : new.find? (fun e => decide (key e = some k)) = none := by
    rw [List.find?_eq_none]
    exact fun e he => by simpa using h e he
  rw [List.find?_append, hnone, Option.none_or]

/-- New entries one of which concerns the key. -/
theorem latest_append_of_mem {new : List α} (he : e ∈ new) (h : key e = some k)
    (only : ∀ f ∈ new, key f = some k → f = e) : latest key (new ++ log) k = some e := by
  unfold latest
  cases hfound : new.find? fun e => decide (key e = some k) with
  | none =>
    exact absurd (decide_eq_true h) (List.find?_eq_none.mp hfound e he)
  | some f =>
    have hkey : key f = some k := by simpa using List.find?_some hfound
    rw [List.find?_append, hfound, Option.some_or, only f (List.mem_of_find?_eq_some hfound) hkey]

theorem answered_append {new : List α} (opens : ∀ e ∈ new, closes e = false)
    (h : Answered key closes answers log) : Answered key closes answers (new ++ log) := by
  induction new with
  | nil => exact h
  | cons e new ih =>
    refine ⟨fun hcloses => ?_, ih fun f hf => opens f (List.mem_cons_of_mem e hf)⟩
    exact absurd hcloses (by simp [opens e List.mem_cons_self])

/-- **Any closing entry of the log** comes right after one that it answers. -/
theorem Answered.of_split {after before : List α} (h : Answered key closes answers log)
    (split : log = after ++ e :: before) (hcloses : closes e = true) :
    ∃ k f, key e = some k ∧ latest key before k = some f ∧ answers e f := by
  subst split
  induction after with
  | nil => exact h.1 hcloses
  | cons _ after ih => exact ih h.2

/-- **A key is not closed more often than it is opened**, where no closing entry is answered. -/
theorem countP_closes_le (h : Answered key closes answers log)
    (opened : ∀ e f, answers e f → closes f = false) (k : κ) :
    log.countP (fun e => closes e && decide (key e = some k)) ≤
      log.countP fun e => !closes e && decide (key e = some k) := by
  -- an open entry that is not answered yet is one more
  suffices hstrong : log.countP (fun e => closes e && decide (key e = some k)) +
      (if (latest key log k).any fun f => !closes f then 1 else 0) ≤
        log.countP fun e => !closes e && decide (key e = some k) by omega
  induction log with
  | nil => simp [latest]
  | cons e log ih =>
    obtain ⟨hanswers, hrest⟩ := h
    have ih := ih hrest
    rw [List.countP_cons, List.countP_cons]
    by_cases hkey : key e = some k
    · rw [latest_cons_of_key hkey]
      cases hcloses : closes e with
      | false =>
        simp only [hkey, Option.any_some, hcloses, decide_true, Bool.and_true, Bool.not_false,
          if_true, Bool.false_eq_true, if_false]
        omega
      | true =>
        obtain ⟨k', f, hk', hlatest, hf⟩ := hanswers hcloses
        obtain rfl := Option.some.inj (hk'.symm.trans hkey)
        rw [hlatest, Option.any_some, opened e f hf] at ih
        simp only [hkey, Option.any_some, hcloses, decide_true, Bool.and_true, Bool.not_true,
          Bool.not_false, if_true, Bool.false_eq_true, if_false] at ih ⊢
        omega
    · rw [latest_cons_of_ne hkey]
      simp only [hkey, decide_false, Bool.and_false, Bool.false_eq_true, if_false]
      omega

end

end Montr.Answers
