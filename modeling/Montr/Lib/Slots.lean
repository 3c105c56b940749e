import Mathlib.Data.List.TakeDrop
import Mathlib.Logic.Function.Basic

namespace Montr.Slots

/-!
# Rows of slots

A row of numbered slots, each of them empty or with one item, and the way to make room at its front
by moving one item at a time: the last slot is cleared, then every item moves one slot further,
beginning with the last.

* `occupied` — the items of a row in their order;
* `run`, `rotateSteps` — the moves one at a time;
* `shifted` — the row when everything from one slot on has moved;
* `run_rotateSteps_take` — a rotation that stops anywhere leaves such a row, or has not begun;
* `occupied_shifted` — wherever it stops, only the item of the last slot is gone, and the others
  keep their order.
-/

variable {α : Type*} {f g : Nat → Option α} {m n i j k : Nat}

/-- The items in the first `n` slots. -/
def occupied (f : Nat → Option α) (n : Nat) : List α := (List.range n).filterMap f

/-- One step on the slots. -/
inductive SlotStep
  | clear (i : Nat)
  /-- the item of a slot moves to the next one -/
  | move (i : Nat)
  deriving DecidableEq, Repr

def run (f : Nat → Option α) : SlotStep → Nat → Option α
  | .clear i => Function.update f i none
  | .move i => fun k => if k = i then none else if k = i + 1 then (f i).or (f k) else f k

def runAll (f : Nat → Option α) (steps : List SlotStep) : Nat → Option α := steps.foldl run f

/-- Clear slot `m`, then move the items of the slots before it, the last one first. -/
def rotateSteps (m : Nat) : List SlotStep := .clear m :: (List.range m).reverse.map .move

/-- The row with the slots from `j` on moved one further, up to slot `m`, whose item is gone. -/
def shifted (f : Nat → Option α) (m j k : Nat) : Option α :=
  if k < j then f k else if k = j then none else if k ≤ m then f (k - 1) else f k

/-! ### The items in their order -/

@[simp] theorem occupied_zero : occupied f 0 = [] := rfl

theorem occupied_succ : occupied f (n + 1) = occupied f n ++ (f n).toList := by
  unfold occupied
  rw [List.range_succ, List.filterMap_append]
  cases h : f n <;> simp [h]

theorem occupied_congr (h : ∀ k, k < n → f k = g k) : occupied f n = occupied g n := by
  induction n with
  | zero => rfl
  | succ n ih =>
    rw [occupied_succ, occupied_succ, ih fun k hk => h k (Nat.lt_succ_of_lt hk),
      h n (Nat.lt_succ_self n)]

/-- The item of the first slot, and those of the others. -/
theorem occupied_cons :
    occupied f (n + 1) = (f 0).toList ++ occupied (fun k => f (k + 1)) n := by
  induction n with
  | zero => simp [occupied_succ]
  | succ n ih => rw [occupied_succ, ih, occupied_succ, List.append_assoc]

/-- Only the last slot can be lost. -/
theorem occupied_prefix : occupied f n <+: occupied f (n + 1) := by
  rw [occupied_succ]
  exact List.prefix_append _ _

/-- A row filled from a list holds its first items. -/
theorem occupied_eq_take {l : List α} (h : ∀ k, k < n → f k = l[k]?) : occupied f n = l.take n := by
  induction n with
  | zero => rfl
  | succ n ih =>
    rw [occupied_succ, ih fun k hk => h k (Nat.lt_succ_of_lt hk), h n (Nat.lt_succ_self n),
      List.take_add_one]

/-! ### One move after another -/

theorem run_clear (f : Nat → Option α) (m : Nat) : run f (.clear m) = shifted f m m := by
  funext k
  show Function.update f m none k = _
  unfold shifted
  by_cases hk : k = m
  · subst hk
    rw [Function.update_self, if_neg (Nat.lt_irrefl k), if_pos rfl]
  · rw [Function.update_of_ne hk, if_neg hk]
    -- no slot beyond the last one is touched
    split
    · rfl
    · rw [if_neg (by omega)]

theorem run_move_shifted (h : j < m) : run (shifted f m (j + 1)) (.move j) = shifted f m j := by
  funext k
  show (if k = j then none else if k = j + 1 then _ else _) = _
  unfold shifted
  by_cases hself : k = j
  · rw [if_pos hself, if_neg (by omega), if_pos hself]
  · by_cases hnext : k = j + 1
    · subst hnext
      rw [if_neg hself, if_pos rfl, if_pos (Nat.lt_succ_self j), if_neg (Nat.lt_irrefl _),
        if_pos rfl, Option.or_none, if_neg (by omega), if_neg hself, if_pos (by omega),
        Nat.add_sub_cancel]
    · rw [if_neg hself, if_neg hnext, if_neg hself, if_neg hnext]
      -- before `j` nothing has moved, and behind it everything had
      by_cases hbefore : k < j
      · rw [if_pos hbefore, if_pos (by omega)]
      · rw [if_neg hbefore, if_neg (by omega)]

/-- The moves of the items before slot `j`, or the first `n` of them. -/
theorem runAll_moves_take (h : j ≤ m) :
    runAll (shifted f m j) (((List.range j).reverse.map .move).take n) = shifted f m (j - n) := by
  induction j generalizing n with
  | zero => simp [runAll]
  | succ j ih =>
    cases n with
    | zero => rfl
    | succ n =>
      rw [List.range_succ, List.reverse_append, List.reverse_singleton, List.singleton_append,
        List.map_cons, List.take_succ_cons]
      show runAll (run (shifted f m (j + 1)) (.move j)) _ = _
      rw [run_move_shifted h, ih (Nat.le_of_succ_le h), Nat.add_sub_add_right]

/-- A rotation stopped after some of its steps. -/
theorem run_rotateSteps_take :
    runAll f ((rotateSteps m).take (n + 1)) = shifted f m (m - n) := by
  show runAll (run f (.clear m)) (((List.range m).reverse.map .move).take n) = _
  rw [run_clear]
  exact runAll_moves_take (Nat.le_refl m)

/-- The whole rotation. -/
theorem runAll_rotateSteps : runAll f (rotateSteps m) = shifted f m 0 := by
  have hlength : (rotateSteps m).length = m + 1 := by simp [rotateSteps]
  rw [← List.take_of_length_le (Nat.le_of_eq hlength), run_rotateSteps_take, Nat.sub_self]

theorem shifted_zero_zero : shifted f m 0 0 = none := rfl

theorem shifted_zero_succ (h : k < m) : shifted f m 0 (k + 1) = f k := by
  unfold shifted
  rw [if_neg (Nat.not_lt_zero _), if_neg (Nat.succ_ne_zero k), if_pos (Nat.succ_le_of_lt h),
    Nat.add_sub_cancel]

/-- Wherever a rotation stops, the row holds the items that were before its last slot, in their
    order. -/
theorem occupied_shifted (h : j ≤ m) : occupied (shifted f m j) (m + 1) = occupied f m := by
  induction m with
  | zero =>
    obtain rfl := Nat.le_zero.mp h
    rfl
  | succ m ih =>
    have hlast : ∀ k, k < m + 1 → shifted f (m + 1) j k = shifted f m j k := by
      intro k hk
      unfold shifted
      by_cases hkm : k ≤ m
      · rw [if_pos hkm, if_pos (Nat.le_succ_of_le hkm)]
      · omega
    rw [occupied_succ, occupied_congr hlast]
    rcases Nat.lt_or_ge m j with hj | hj
    · -- the gap is at the end
      obtain rfl : j = m + 1 := by omega
      have hbefore : ∀ k, k < m + 1 → shifted f m (m + 1) k = f k := fun k hk => if_pos hk
      have hgap : shifted f (m + 1) (m + 1) (m + 1) = none := by
        unfold shifted
        rw [if_neg (Nat.lt_irrefl _), if_pos rfl]
      rw [occupied_congr hbefore, hgap, Option.toList_none, List.append_nil]
    · have hmoved : shifted f (m + 1) j (m + 1) = f m := by
        unfold shifted
        rw [if_neg (by omega), if_neg (by omega), if_pos (Nat.le_refl _), Nat.add_sub_cancel]
      rw [ih hj, hmoved, ← occupied_succ]

end Montr.Slots
