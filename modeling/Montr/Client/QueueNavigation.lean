import Montr.Client.AppState
import Montr.Lib.Cyclic
import Montr.Lib.Transition

namespace Montr.Client

open Transition

/-!
# Navigating the queue

The operations of `playback/queue.rs` in any order.

* `PlaylistQueue.advance`, `nexts` — `next` called again and again;
* `Navigates` — what navigation is for, on a looping queue and on one that ends;
* `navigates_iff` — a queue that ends starts over after its end, so it holds **of looping queues
  and of empty ones**;
* `navigates_iff_run` — the same over every sequence of operations.
-/

namespace PlaylistQueue

/-! ### The operations -/

/-- `from_items`. -/
def fromItems (items : List PlaylistItem) (loopEnabled : Bool) (playlistId : Nat) :
    PlaylistQueue where
  items := items
  currentIndex := if items.isEmpty then none else some 0
  loopEnabled := loopEnabled
  playlistId := some playlistId

/-- `jump_to`: an error leaves the queue alone. -/
def jumpTo (q : PlaylistQueue) (index : Nat) : PlaylistQueue × Except String PlaylistItem :=
  match q.items[index]? with
  | none => (q, .error s!"Index {index} out of bounds (len: {q.items.length})")
  | some item => ({ q with currentIndex := some index }, .ok item)

end PlaylistQueue

/-- An operation of the queue. -/
inductive QueueOp
  | next
  | previous
  | jumpTo (index : Nat)
  | reset
  | updateItems (items : List PlaylistItem) (playlistId : Nat)
  | clear
  deriving DecidableEq, Repr

/-- The operation gives the queue no item. -/
def QueueOp.GivesNothing (op : QueueOp) : Prop :=
  ∀ items playlistId, op = .updateItems items playlistId → items = []

namespace PlaylistQueue

def operate (q : PlaylistQueue) : QueueOp → PlaylistQueue
  | .next => q.next.1
  | .previous => q.previous.1
  | .jumpTo index => (q.jumpTo index).1
  | .reset => q.reset
  | .updateItems items playlistId => q.updateItems items playlistId
  | .clear => q.clear

/-- The queue at another position. -/
def placed (q : PlaylistQueue) (i : Option Nat) : PlaylistQueue := { q with currentIndex := i }

/-- The queue after some calls of `next`. -/
def advance (q : PlaylistQueue) (k : Nat) : PlaylistQueue := (fun q => q.next.1)^[k] q

/-- What the next calls of `next` return. -/
def nexts (q : PlaylistQueue) (k : Nat) : List (Option PlaylistItem) :=
  (List.range k).map fun j => (q.advance j).next.2

/-- The current index is that of an item. -/
def InRange (q : PlaylistQueue) : Prop := ∀ idx, q.currentIndex = some idx → idx < q.items.length

/-- **The contract of navigation.** -/
structure Navigates (q : PlaylistQueue) : Prop where
  inRange : q.InRange
  /-- a turn of a looping queue visits every item once -/
  visits : q.loopEnabled = true → ∀ idx, q.currentIndex = some idx →
    ∃ places : List Nat, places.Perm (List.range q.items.length) ∧
      q.nexts q.items.length = places.map fun i => q.items[i]?
  /-- and returns to the current one -/
  returns : q.loopEnabled = true → ∀ idx, q.currentIndex = some idx →
    q.advance q.items.length = q
  previous_next : q.loopEnabled = true → ∀ idx, q.currentIndex = some idx →
    q.next.1.previous = (q, q.current)
  next_previous : q.loopEnabled = true → ∀ idx, q.currentIndex = some idx →
    q.previous.1.next = (q, q.current)
  /-- a queue that ends goes through the remaining items in order -/
  remaining : q.loopEnabled = false → ∀ idx, q.currentIndex = some idx →
    q.nexts (q.items.length - (idx + 1)) = (q.items.drop (idx + 1)).map some
  /-- and has no next item from its end on -/
  ends : q.loopEnabled = false → ∀ k m, (q.advance k).next.2 = none →
    (q.advance (k + m)).next.2 = none
  jumpTo_error : ∀ index e, (q.jumpTo index).2 = .error e → (q.jumpTo index).1 = q

/-! ### One call of `next` or `previous` -/

section

variable {q : PlaylistQueue} {idx k : Nat} {item : PlaylistItem}

theorem next_of_nil (h : q.items = []) : q.next = (q, none) := by
  unfold next
  rw [h]
  rfl

theorem next_of_ne_nil (h : q.items ≠ []) :
    q.next = (q.placed q.nextIndex,
      q.nextIndex.bind fun idx => q.items[idx]?) := by
  unfold next
  rw [if_neg (by simpa using h)]
  rfl

theorem previous_of_ne_nil (h : q.items ≠ []) :
    q.previous = (q.placed q.previousIndex,
      q.previousIndex.bind fun idx => q.items[idx]?) := by
  unfold previous
  rw [if_neg (by simpa using h)]
  rfl

theorem ne_nil_of_lt (h : idx < q.items.length) : q.items ≠ [] :=
  List.ne_nil_of_length_pos (by omega)

/-- Before the end `next` moves on. -/
theorem next_of_lt (hcurrent : q.currentIndex = some idx) (h : idx + 1 < q.items.length) :
    q.next = (q.placed (some (idx + 1)), q.items[idx + 1]?) := by
  have hindex : q.nextIndex = some (idx + 1) := by
    unfold nextIndex
    rw [hcurrent]
    exact if_neg (by omega)
  rw [next_of_ne_nil (ne_nil_of_lt h), hindex]
  rfl

/-- At the end of a queue that does not loop there is no next item. -/
theorem next_of_last (hloop : q.loopEnabled = false) (hcurrent : q.currentIndex = some idx)
    (h : q.items.length ≤ idx + 1) : q.next.2 = none := by
  by_cases hnil : q.items = []
  · rw [next_of_nil hnil]
  · have hindex : q.nextIndex = none := by
      unfold nextIndex
      rw [hcurrent, hloop]
      exact if_pos h
    rw [next_of_ne_nil hnil, hindex]
    rfl

/-- Without a current item `next` starts from the first. -/
theorem next_of_before (hcurrent : q.currentIndex = none) (h : q.items ≠ []) :
    q.next = (q.placed (some 0), q.items[0]?) := by
  have hindex : q.nextIndex = some 0 := by
    unfold nextIndex
    rw [hcurrent]
  rw [next_of_ne_nil h, hindex]
  rfl

/-- On a looping queue `next` is a step on the ring. -/
theorem next_of_loop (hloop : q.loopEnabled = true) (hcurrent : q.currentIndex = some idx)
    (h : idx < q.items.length) :
    q.next = (q.placed (some (Cyclic.succ q.items.length idx)),
      q.items[Cyclic.succ q.items.length idx]?) := by
  have hindex : q.nextIndex = some (Cyclic.succ q.items.length idx) := by
    unfold nextIndex Cyclic.succ
    rw [hcurrent, hloop]
    show (if q.items.length ≤ idx + 1 then some 0 else some (idx + 1)) = _
    split <;> rfl
  rw [next_of_ne_nil (ne_nil_of_lt h), hindex]
  rfl

theorem next_placed (hloop : q.loopEnabled = true) (h : idx < q.items.length) :
    (q.placed (some idx)).next = (q.placed (some (Cyclic.succ q.items.length idx)),
      q.items[Cyclic.succ q.items.length idx]?) :=
  next_of_loop (q := q.placed (some idx)) hloop rfl h

theorem previous_of_loop (hloop : q.loopEnabled = true) (hcurrent : q.currentIndex = some idx)
    (h : idx < q.items.length) :
    q.previous = (q.placed (some (Cyclic.pred q.items.length idx)),
      q.items[Cyclic.pred q.items.length idx]?) := by
  have hindex : q.previousIndex = some (Cyclic.pred q.items.length idx) := by
    unfold previousIndex Cyclic.pred
    rw [hcurrent, hloop]
    cases idx <;> rfl
  rw [previous_of_ne_nil (ne_nil_of_lt h), hindex]
  rfl

theorem placed_currentIndex (hcurrent : q.currentIndex = some idx) : q.placed (some idx) = q := by
  rw [← hcurrent]
  rfl

theorem current_of_some (hcurrent : q.currentIndex = some idx) : q.current = q.items[idx]? := by
  unfold current
  rw [hcurrent]
  rfl

@[simp] theorem advance_zero (q : PlaylistQueue) : q.advance 0 = q := rfl

theorem advance_succ (q : PlaylistQueue) (k : Nat) : q.advance (k + 1) = (q.advance k).next.1 :=
  Function.iterate_succ_apply' _ _ _

theorem advance_add (q : PlaylistQueue) (j k : Nat) :
    q.advance (j + k) = (q.advance j).advance k := by
  unfold advance
  rw [Nat.add_comm, Function.iterate_add_apply]

theorem nexts_succ (q : PlaylistQueue) (k : Nat) :
    q.nexts (k + 1) = q.next.2 :: q.next.1.nexts k := by
  unfold nexts
  rw [List.range_succ_eq_map, List.map_cons, List.map_map]
  rfl

/-! ### Many calls -/

/-- Before the end every call moves on by one. -/
theorem advance_of_lt (hcurrent : q.currentIndex = some idx) (h : idx + k < q.items.length) :
    q.advance k = q.placed (some (idx + k)) := by
  induction k with
  | zero => exact (placed_currentIndex hcurrent).symm
  | succ k ih =>
    rw [advance_succ, ih (by omega)]
    have hlt : idx + k + 1 < q.items.length := by omega
    rw [next_of_lt (q := q.placed (some (idx + k))) rfl hlt]
    rfl

theorem nexts_of_le (hcurrent : q.currentIndex = some idx) (h : idx + k < q.items.length) :
    q.nexts k = ((q.items.drop (idx + 1)).take k).map some := by
  refine List.ext_getElem ?_ fun j hj hj' => ?_
  · simp only [nexts, List.length_map, List.length_range, List.length_take, List.length_drop]
    omega
  · have hjk : j < k := by simpa [nexts] using hj
    have hlt : idx + j + 1 < q.items.length := by omega
    simp only [nexts, List.getElem_map, List.getElem_range, List.getElem_take, List.getElem_drop]
    rw [advance_of_lt hcurrent (by omega),
      next_of_lt (q := q.placed (some (idx + j))) rfl hlt]
    show q.items[idx + j + 1]? = _
    rw [List.getElem?_eq_getElem hlt]
    congr 2
    omega

/-- On a looping queue the calls go round the ring. -/
theorem advance_of_loop (hloop : q.loopEnabled = true) (hcurrent : q.currentIndex = some idx)
    (h : idx < q.items.length) (k : Nat) :
    q.advance k = q.placed (some ((Cyclic.succ q.items.length)^[k] idx)) := by
  induction k with
  | zero => exact (placed_currentIndex hcurrent).symm
  | succ k ih =>
    have hpos : 0 < q.items.length := by omega
    have hlt : (Cyclic.succ q.items.length)^[k] idx < q.items.length := by
      rw [Cyclic.iterate_succ h]
      exact Nat.mod_lt _ hpos
    rw [advance_succ, ih, next_placed hloop hlt, Function.iterate_succ_apply']

theorem nexts_of_loop (hloop : q.loopEnabled = true) (hcurrent : q.currentIndex = some idx)
    (h : idx < q.items.length) (k : Nat) :
    q.nexts k = (Cyclic.turn q.items.length idx k).map fun i => q.items[i]? := by
  unfold nexts Cyclic.turn
  rw [List.map_map]
  refine List.map_congr_left fun j _ => ?_
  have hpos : 0 < q.items.length := by omega
  have hlt : (Cyclic.succ q.items.length)^[j] idx < q.items.length := by
    rw [Cyclic.iterate_succ h]
    exact Nat.mod_lt _ hpos
  rw [advance_of_loop hloop hcurrent h, next_placed hloop hlt]
  show _ = q.items[(Cyclic.succ q.items.length)^[j + 1] idx]?
  rw [Function.iterate_succ_apply']

/-- A call of `next` moves the position and nothing else. -/
theorem exists_next (q : PlaylistQueue) : ∃ i, q.next.1 = q.placed i := by
  by_cases h : q.items = []
  · exact ⟨q.currentIndex, by rw [next_of_nil h]; rfl⟩
  · exact ⟨q.nextIndex, by rw [next_of_ne_nil h]⟩

theorem exists_advance (q : PlaylistQueue) (k : Nat) :
    ∃ i, q.advance k = q.placed i := by
  induction k with
  | zero => exact ⟨q.currentIndex, rfl⟩
  | succ k ih =>
    obtain ⟨i, hi⟩ := ih
    obtain ⟨j, hj⟩ := (q.advance k).exists_next
    rw [advance_succ, hj, hi]
    exact ⟨j, rfl⟩

/-- A queue that does not loop comes to its end. -/
theorem exists_end (hloop : q.loopEnabled = false) : ∃ k, (q.advance k).next.2 = none := by
  have hfrom : ∀ (q : PlaylistQueue) (idx : Nat), q.loopEnabled = false →
      q.currentIndex = some idx → ∃ k, (q.advance k).next.2 = none := by
    intro q idx hloop hcurrent
    by_cases hlast : q.items.length ≤ idx + 1
    · exact ⟨0, next_of_last hloop hcurrent hlast⟩
    · refine ⟨q.items.length - 1 - idx, ?_⟩
      rw [advance_of_lt hcurrent (by omega)]
      refine next_of_last (q := q.placed _) hloop rfl ?_
      show q.items.length ≤ idx + (q.items.length - 1 - idx) + 1
      omega
  by_cases hnil : q.items = []
  · exact ⟨0, by rw [advance_zero, next_of_nil hnil]⟩
  · cases hcurrent : q.currentIndex with
    | some idx => exact hfrom q idx hloop hcurrent
    | none =>
      -- the first call goes to the first item
      obtain ⟨k, hk⟩ := hfrom (q.placed (some 0)) 0 hloop rfl
      refine ⟨1 + k, ?_⟩
      rw [advance_add]
      show ((q.next.1).advance k).next.2 = none
      rw [next_of_before hcurrent hnil]
      exact hk

/-- After the end of a queue that is not empty `next` starts over. -/
theorem next_after_end (hnil : q.items ≠ []) (hnone : q.next.2 = none) (hrange : q.InRange) :
    q.next.1.next.2 ≠ none := by
  have hpos := List.length_pos_iff.mpr hnil
  have hindex : q.nextIndex = none := by
    rw [next_of_ne_nil hnil] at hnone
    cases hnext : q.nextIndex with
    | none => rfl
    | some i =>
      rw [hnext] at hnone
      have hi : q.items.length ≤ i := List.getElem?_eq_none_iff.mp hnone
      unfold nextIndex at hnext
      split at hnext
      · cases hnext
        omega
      · rename_i idx hcurrent
        have hlt := hrange idx hcurrent
        split at hnext
        · split at hnext
          · cases hnext
            omega
          · cases hnext
        · cases hnext
          omega
  rw [next_of_ne_nil hnil]
  show (q.placed q.nextIndex).next.2 ≠ none
  rw [next_of_before (q := q.placed q.nextIndex) hindex hnil]
  show q.items[0]? ≠ none
  rw [List.getElem?_eq_getElem hpos]
  simp

/-! ### The range -/

theorem InRange.next (h : q.InRange) : q.next.1.InRange := by
  by_cases hnil : q.items = []
  · rw [next_of_nil hnil]
    exact h
  · have hpos := List.length_pos_iff.mpr hnil
    rw [next_of_ne_nil hnil]
    intro i hi
    change q.nextIndex = some i at hi
    show i < q.items.length
    unfold nextIndex at hi
    split at hi
    · cases hi
      exact hpos
    · split at hi
      · split at hi
        · cases hi
          exact hpos
        · cases hi
      · cases hi
        omega

theorem InRange.previous (h : q.InRange) : q.previous.1.InRange := by
  by_cases hnil : q.items = []
  · unfold PlaylistQueue.previous
    rw [hnil]
    exact h
  · have hpos := List.length_pos_iff.mpr hnil
    rw [previous_of_ne_nil hnil]
    intro i hi
    change q.previousIndex = some i at hi
    show i < q.items.length
    unfold previousIndex at hi
    split at hi
    · cases hi
      exact hpos
    · split at hi
      · cases hi
        omega
      · cases hi
        exact hpos
    · rename_i idx hcurrent
      have hlt := h _ hcurrent
      cases hi
      omega

theorem inRange_reset (q : PlaylistQueue) : q.reset.InRange := by
  intro i hi
  change (if q.items.isEmpty then none else some 0) = some i at hi
  show i < q.items.length
  split at hi
  · cases hi
  · rename_i hnil
    cases hi
    exact List.length_pos_iff.mpr (by simpa using hnil)

/-- **Step lemma.** -/
theorem InRange.operate (h : q.InRange) (op : QueueOp) : (q.operate op).InRange := by
  cases op with
  | next => exact h.next
  | previous => exact h.previous
  | reset => exact q.inRange_reset
  | updateItems items playlistId => exact nofun
  | clear => exact nofun
  | jumpTo index =>
    show (q.jumpTo index).1.InRange
    unfold PlaylistQueue.jumpTo
    split
    · exact h
    · rename_i item hitem
      rintro i hi
      cases hi
      exact (List.getElem?_eq_some_iff.mp hitem).1

theorem InRange.advance (h : q.InRange) (k : Nat) : (q.advance k).InRange := by
  induction k with
  | zero => exact h
  | succ k ih =>
    rw [advance_succ]
    exact ih.next

/-! ### Exactly -/

theorem jumpTo_of_error {index : Nat} {e : String} (h : (q.jumpTo index).2 = .error e) :
    (q.jumpTo index).1 = q := by
  unfold jumpTo at h ⊢
  split
  · rfl
  · rename_i item hitem
    rw [hitem] at h
    cases h

/-- Every queue goes through the remaining items in order. -/
theorem nexts_remaining (hcurrent : q.currentIndex = some idx) (h : idx < q.items.length) :
    q.nexts (q.items.length - (idx + 1)) = (q.items.drop (idx + 1)).map some := by
  rw [nexts_of_le hcurrent (by omega), List.take_of_length_le (by rw [List.length_drop])]

/-- A looping queue. -/
theorem navigates_of_loop (hrange : q.InRange) (hloop : q.loopEnabled = true) : q.Navigates where
  inRange := hrange
  visits _ idx hcurrent := by
    have hlt := hrange idx hcurrent
    exact ⟨_, Cyclic.turn_perm hlt, nexts_of_loop hloop hcurrent hlt _⟩
  returns _ idx hcurrent := by
    have hlt := hrange idx hcurrent
    rw [advance_of_loop hloop hcurrent hlt, Cyclic.iterate_succ_self hlt,
      placed_currentIndex hcurrent]
  previous_next _ idx hcurrent := by
    have hlt := hrange idx hcurrent
    rw [next_of_loop hloop hcurrent hlt]
    show (q.placed (some _)).previous = _
    have hsucc : Cyclic.succ q.items.length idx < q.items.length := Cyclic.succ_lt (by omega)
    rw [previous_of_loop (q := q.placed (some (Cyclic.succ q.items.length idx))) hloop rfl hsucc]
    show (q.placed (some (Cyclic.pred q.items.length (Cyclic.succ q.items.length idx))),
      q.items[Cyclic.pred q.items.length (Cyclic.succ q.items.length idx)]?) = _
    rw [Cyclic.pred_succ hlt, placed_currentIndex hcurrent, current_of_some hcurrent]
  next_previous _ idx hcurrent := by
    have hlt := hrange idx hcurrent
    rw [previous_of_loop hloop hcurrent hlt]
    show (q.placed (some _)).next = _
    rw [next_placed hloop (Cyclic.pred_lt hlt), Cyclic.succ_pred hlt,
      placed_currentIndex hcurrent, current_of_some hcurrent]
  remaining _ idx hcurrent := nexts_remaining hcurrent (hrange idx hcurrent)
  ends hends := by
    rw [hloop] at hends
    cases hends
  jumpTo_error _ _ h := jumpTo_of_error h

/-- A queue that is empty. -/
theorem navigates_of_nil (hrange : q.InRange) (hnil : q.items = []) : q.Navigates where
  inRange := hrange
  visits _ idx hcurrent := absurd hnil (ne_nil_of_lt (hrange idx hcurrent))
  returns _ idx hcurrent := absurd hnil (ne_nil_of_lt (hrange idx hcurrent))
  previous_next _ idx hcurrent := absurd hnil (ne_nil_of_lt (hrange idx hcurrent))
  next_previous _ idx hcurrent := absurd hnil (ne_nil_of_lt (hrange idx hcurrent))
  remaining _ idx hcurrent := nexts_remaining hcurrent (hrange idx hcurrent)
  ends _ k m _ := by
    obtain ⟨i, hi⟩ := q.exists_advance (k + m)
    rw [hi, next_of_nil (by exact hnil)]
  jumpTo_error _ _ h := jumpTo_of_error h

/-- **A queue navigates exactly if it loops or is empty**: any other starts over after its
    end. -/
theorem navigates_iff (hrange : q.InRange) :
    q.Navigates ↔ q.loopEnabled = true ∨ q.items = [] := by
  constructor
  · intro h
    by_contra hnot
    rw [not_or, Bool.not_eq_true] at hnot
    obtain ⟨hloop, hnil⟩ := hnot
    obtain ⟨k, hk⟩ := exists_end hloop
    have hagain := h.ends hloop k 1 hk
    rw [advance_succ] at hagain
    obtain ⟨i, hi⟩ := q.exists_advance k
    rw [hi] at hk hagain
    exact next_after_end (by exact hnil) hk (hi ▸ hrange.advance k) hagain
  · rintro (hloop | hnil)
    · exact navigates_of_loop hrange hloop
    · exact navigates_of_nil hrange hnil

/-! ### Runs -/

/-- Every operation but a replacement moves the position only. -/
theorem operate_cases (q : PlaylistQueue) (op : QueueOp) :
    (∃ i, q.operate op = q.placed i ∧ op.GivesNothing) ∨
      (∃ items playlistId, op = .updateItems items playlistId) ∨ op = .clear := by
  cases op with
  | next =>
    obtain ⟨i, hi⟩ := q.exists_next
    exact .inl ⟨i, hi, nofun⟩
  | previous =>
    by_cases h : q.items = []
    · refine .inl ⟨q.currentIndex, ?_, nofun⟩
      show q.previous.1 = q
      unfold previous
      rw [h]
      rfl
    · refine .inl ⟨q.previousIndex, ?_, nofun⟩
      show q.previous.1 = _
      rw [previous_of_ne_nil h]
  | jumpTo index =>
    show (∃ i, (q.jumpTo index).1 = q.placed i ∧ _) ∨ _
    unfold jumpTo
    split
    · exact .inl ⟨q.currentIndex, rfl, nofun⟩
    · exact .inl ⟨some index, rfl, nofun⟩
  | reset => exact .inl ⟨_, rfl, nofun⟩
  | updateItems items playlistId => exact .inr (.inl ⟨items, playlistId, rfl⟩)
  | clear => exact .inr (.inr rfl)

theorem loopEnabled_operate (q : PlaylistQueue) (op : QueueOp) :
    (q.operate op).loopEnabled = q.loopEnabled := by
  rcases q.operate_cases op with ⟨i, hi, -⟩ | ⟨items, playlistId, rfl⟩ | rfl
  · rw [hi]
    rfl
  · rfl
  · rfl

theorem items_operate (hnil : q.items = []) (op : QueueOp) :
    (q.operate op).items = [] ↔ op.GivesNothing := by
  rcases q.operate_cases op with ⟨i, hi, hop⟩ | ⟨items, playlistId, rfl⟩ | rfl
  · rw [hi]
    exact iff_of_true hnil hop
  · constructor
    · rintro hitems _ _ heq
      cases heq
      exact hitems
    · exact fun h => h items playlistId rfl
  · exact iff_of_true rfl nofun

def step (q : PlaylistQueue) (op : QueueOp) : Option PlaylistQueue := some (q.operate op)

/-- **In a run every state navigates exactly if the queue loops or is never given an item.** -/
theorem navigates_iff_run (start : q.InRange) (ops : List QueueOp) :
    Throughout step Navigates q ops ↔
      q.loopEnabled = true ∨ q.items = [] ∧ ∀ op ∈ ops, op.GivesNothing := by
  induction ops generalizing q with
  | nil =>
    rw [throughout_nil, navigates_iff start]
    simp
  | cons op ops ih =>
    rw [throughout_cons rfl, navigates_iff start, ih (start.operate op), loopEnabled_operate,
      List.forall_mem_cons]
    constructor
    · rintro ⟨hloop | hnil, hrest⟩
      · exact .inl hloop
      · refine hrest.imp_right fun ⟨hitems, hops⟩ => ?_
        exact ⟨hnil, (items_operate hnil op).mp hitems, hops⟩
    · rintro (hloop | ⟨hnil, hop, hops⟩)
      · exact ⟨.inl hloop, .inl hloop⟩
      · exact ⟨.inr hnil, .inr ⟨(items_operate hnil op).mpr hop, hops⟩⟩

end

/-- One item after the other, and none after the last. -/
theorem navigates_iff_run_lobby :
    Throughout step Navigates (fromItems [.image 1 "a.png", .image 2 "b.png"] true 1)
        [.next, .jumpTo 7, .previous] ↔
      (fromItems [.image 1 "a.png", .image 2 "b.png"] true 1).loopEnabled = true ∨
        (fromItems [.image 1 "a.png", .image 2 "b.png"] true 1).items = [] ∧
          ∀ op ∈ [QueueOp.next, .jumpTo 7, .previous], op.GivesNothing := by
  refine navigates_iff_run ?_ _
  intro idx h
  cases h
  exact Nat.two_pos

/-- The second call of `next` has come to the end, and the third starts over. -/
theorem not_navigates_end :
    ¬ Throughout step Navigates (fromItems [.image 1 "a.png", .image 2 "b.png"] false 1) [] := by
  intro h
  exact absurd (h.start.ends rfl 1 1 rfl) (by decide)

end PlaylistQueue

end Montr.Client
