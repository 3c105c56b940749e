import Montr.Lib.EarlyExit
import Montr.Client.QueueNavigation

namespace Montr.Client

open EarlyExit

/-!
# Preloading

`get_upcoming_items` of `state/app_state.rs` and `select_preload_items` of `state/coordinator.rs`:
which items `preload_upcoming` fetches ahead.

* `AppState.upcoming` — what the next calls of `next_item` return, up to the first that returns
  none;
* `getUpcomingItems_iff` — the look-ahead finds exactly these **unless the queue wraps around or
  has no current item**;
* `selectPreloadItems_iff` — the selection is the longest prefix within its limits **unless a
  budget of `u64::MAX` is exceeded**.
-/

/-! ### Looking ahead -/

namespace AppState

/-- `get_upcoming_items`. -/
def getUpcomingItems (s : AppState) (count : Nat) : List PlaylistItem :=
  match s.queue.currentIndex with
  | none => []
  | some currentIdx =>
    (List.range' 1 count).filterMap fun offset => s.queue.items[currentIdx + offset]?

/-- What the next calls of `next_item` return, up to the first that returns none. -/
def upcoming : AppState → Nat → List PlaylistItem
  | _, 0 => []
  | s, count + 1 =>
    match s.nextItem with
    | (_, none) => []
    | (s, some item) => item :: s.upcoming count

section

variable {s : AppState} {idx count : Nat}

theorem upcoming_succ (s : AppState) (count : Nat) :
    s.upcoming (count + 1) =
      s.nextItem.2.elim [] fun item => item :: s.nextItem.1.upcoming count := by
  rw [upcoming]
  rcases s.nextItem with ⟨next, _ | item⟩ <;> rfl

theorem upcoming_succ_of_some {item : PlaylistItem} (h : s.queue.next.2 = some item) (count : Nat) :
    s.upcoming (count + 1) = item :: s.nextItem.1.upcoming count := by
  rw [upcoming_succ, s.nextItem_snd, h]
  rfl

theorem upcoming_succ_of_none (h : s.queue.next.2 = none) (count : Nat) :
    s.upcoming (count + 1) = [] := by
  rw [upcoming_succ, s.nextItem_snd, h]
  rfl

/-- The look-ahead is a slice of the queue. -/
theorem getUpcomingItems_of_some (hcurrent : s.queue.currentIndex = some idx) (count : Nat) :
    s.getUpcomingItems count = (s.queue.items.drop (idx + 1)).take count := by
  have hslice : ∀ (l : List PlaylistItem) (i count : Nat),
      (List.range' i count).filterMap (fun offset => l[offset]?) = (l.drop i).take count := by
    intro l i count
    induction count generalizing i with
    | zero => simp
    | succ count ih =>
      rw [List.range'_succ]
      by_cases h : i < l.length
      · rw [List.filterMap_cons_some (List.getElem?_eq_getElem h), ih, List.drop_eq_getElem_cons h,
          List.take_succ_cons]
      · rw [List.filterMap_cons_none (List.getElem?_eq_none (by omega)), ih,
          List.drop_eq_nil_of_le (by omega), List.drop_eq_nil_of_le (by omega), List.take_nil,
          List.take_nil]
  have hshift : ∀ count : Nat, (List.range' 1 count).map (idx + ·) = List.range' (idx + 1) count :=
    fun count => List.map_add_range' ..
  unfold getUpcomingItems
  rw [hcurrent]
  show (List.range' 1 count).filterMap _ = _
  rw [← hslice, ← hshift, List.filterMap_map]
  rfl

/-- From a current item the calls go through the queue, where they do not wrap around. -/
theorem upcoming_of_some (hcurrent : s.queue.currentIndex = some idx)
    (h : s.queue.loopEnabled = false ∨ idx + count < s.queue.items.length) :
    s.upcoming count = (s.queue.items.drop (idx + 1)).take count := by
  induction count generalizing s idx with
  | zero => rfl
  | succ count ih =>
    by_cases hlt : idx + 1 < s.queue.items.length
    · have hnext := PlaylistQueue.next_of_lt hcurrent hlt
      have hitem : s.queue.next.2 = some s.queue.items[idx + 1] := by
        rw [hnext]
        exact List.getElem?_eq_getElem hlt
      have hqueue : s.nextItem.1.queue = s.queue.placed (some (idx + 1)) := by
        rw [nextItem_queue, hnext]
      have hcurrent' : s.nextItem.1.queue.currentIndex = some (idx + 1) := by
        rw [hqueue]
        rfl
      rw [upcoming_succ_of_some hitem, ih hcurrent']
      · rw [hqueue, List.drop_eq_getElem_cons hlt, List.take_succ_cons]
        rfl
      · rw [hqueue]
        exact h.imp_right fun hcount => by
          show idx + 1 + count < s.queue.items.length
          omega
    · have hends : s.queue.loopEnabled = false := h.resolve_right (by omega)
      rw [upcoming_succ_of_none (PlaylistQueue.next_of_last hends hcurrent (by omega)),
        List.drop_eq_nil_of_le (by omega), List.take_nil]

/-- A looping queue always has a next item. -/
theorem exists_next_of_loop {q : PlaylistQueue} (hloop : q.loopEnabled = true)
    (hnil : q.items ≠ []) : ∃ item, q.next.2 = some item := by
  have hpos := List.length_pos_iff.mpr hnil
  have hindex : ∃ i, q.nextIndex = some i ∧ i < q.items.length := by
    unfold PlaylistQueue.nextIndex
    rw [hloop]
    split
    · exact ⟨0, rfl, hpos⟩
    · rename_i idx _
      by_cases hlast : q.items.length ≤ idx + 1
      · exact ⟨0, if_pos hlast, hpos⟩
      · exact ⟨idx + 1, if_neg hlast, by omega⟩
  obtain ⟨i, hi, hlt⟩ := hindex
  rw [PlaylistQueue.next_of_ne_nil hnil, hi]
  exact ⟨q.items[i], List.getElem?_eq_getElem hlt⟩

theorem length_upcoming_of_loop (hloop : s.queue.loopEnabled = true) (hnil : s.queue.items ≠ [])
    (count : Nat) : (s.upcoming count).length = count := by
  induction count generalizing s with
  | zero => rfl
  | succ count ih =>
    obtain ⟨item, hitem⟩ := exists_next_of_loop hloop hnil
    obtain ⟨i, hi⟩ := s.queue.exists_next
    have hqueue : s.nextItem.1.queue = s.queue.placed i := by rw [nextItem_queue, hi]
    rw [upcoming_succ_of_some hitem, List.length_cons,
      ih (by rw [hqueue]; exact hloop) (by rw [hqueue]; exact hnil)]

/-- **The look-ahead agrees with advancing** exactly if nothing is asked for, the queue is empty,
    or it has a current item and does not wrap around within the count. -/
theorem getUpcomingItems_iff (s : AppState) (count : Nat) :
    s.getUpcomingItems count = s.upcoming count ↔
      count = 0 ∨ s.queue.items = [] ∨ ∃ idx, s.queue.currentIndex = some idx ∧
        (s.queue.loopEnabled = false ∨ idx + count < s.queue.items.length) := by
  constructor
  · intro hsame
    by_contra hnot
    simp only [not_or, not_exists, not_and] at hnot
    obtain ⟨hcount, hnil, hcurrent⟩ := hnot
    cases hindex : s.queue.currentIndex with
    | none =>
      -- the next item is the first, and the look-ahead finds none
      obtain ⟨count, rfl⟩ := Nat.exists_eq_succ_of_ne_zero hcount
      have hpos := List.length_pos_iff.mpr hnil
      have hitem : s.queue.next.2 = some s.queue.items[0] := by
        rw [PlaylistQueue.next_of_before hindex hnil]
        exact List.getElem?_eq_getElem hpos
      rw [upcoming_succ_of_some hitem, getUpcomingItems, hindex] at hsame
      cases hsame
    | some idx =>
      obtain ⟨hloop, hwraps⟩ := hcurrent idx hindex
      rw [Bool.not_eq_false] at hloop
      have hlength := congrArg List.length hsame
      rw [length_upcoming_of_loop hloop hnil, getUpcomingItems_of_some hindex, List.length_take,
        List.length_drop] at hlength
      omega
  · rintro (rfl | hnil | ⟨idx, hindex, h⟩)
    · rw [upcoming, getUpcomingItems]
      split <;> rfl
    · have hnone : s.upcoming count = [] := by
        cases count with
        | zero => rfl
        | succ count => exact upcoming_succ_of_none (by rw [PlaylistQueue.next_of_nil hnil]) count
      cases hindex : s.queue.currentIndex with
      | none => rw [hnone, getUpcomingItems, hindex]
      | some idx => rw [hnone, getUpcomingItems_of_some hindex, hnil, List.drop_nil, List.take_nil]
    · rw [getUpcomingItems_of_some hindex, upcoming_of_some hindex h]

end

end AppState

/-- The end of a looping queue. -/
def AppState.atLast : AppState :=
  { queue := { items := [.image 1 "a.png", .image 2 "b.png"], currentIndex := some 1,
               loopEnabled := true } }

/-- Nothing is fetched ahead at the end of a looping queue, where the first item is next. -/
theorem AppState.not_getUpcomingItems_atLast :
    ¬ ∀ (s : AppState) (count : Nat), s.getUpcomingItems count = s.upcoming count := by
  intro h
  exact absurd (h atLast 1) (by decide)

/-! ### Selecting -/

/-- `u64::MAX`. -/
def u64Max : Nat := 2 ^ 64 - 1

/-- `u64::saturating_add`. -/
def saturatingAdd (a b : Nat) : Nat := min (a + b) u64Max

/-- `file_size.unwrap_or(0)`. -/
def PlaylistItem.size (item : PlaylistItem) : Nat := item.fileSize.getD 0

/-- The loop of `select_preload_items`, from a running total on. -/
def selectLoop (budget : Nat) : Nat → List PlaylistItem → List PlaylistItem
  | _, [] => []
  | running, item :: rest =>
    let next := saturatingAdd running item.size
    if next > budget then [] else item :: selectLoop budget next rest

/-- `select_preload_items`. -/
def selectPreloadItems (upcoming : List PlaylistItem) (count : Nat) (bytesBudget : Option Nat) :
    List PlaylistItem :=
  let cap := min upcoming.length count
  match bytesBudget with
  | none => upcoming.take cap
  | some budget => selectLoop budget 0 (upcoming.take cap)

/-- The true total size. -/
def totalSize (items : List PlaylistItem) : Nat := (items.map PlaylistItem.size).sum

/-- Not more than `count` items, and not more than the budget. -/
def WithinLimits (count : Nat) (bytesBudget : Option Nat) (items : List PlaylistItem) : Prop :=
  items.length ≤ count ∧ ∀ budget, bytesBudget = some budget → totalSize items ≤ budget

/-- **The longest prefix within the limits.** -/
structure LongestWithin (upcoming : List PlaylistItem) (count : Nat) (bytesBudget : Option Nat)
    (picked : List PlaylistItem) : Prop where
  initial : picked <+: upcoming
  within : WithinLimits count bytesBudget picked
  longest : ∀ p, p <+: upcoming → WithinLimits count bytesBudget p → p <+: picked

section

variable {upcoming items : List PlaylistItem} {count budget running : Nat}

theorem take_cap (upcoming : List PlaylistItem) (count : Nat) :
    upcoming.take (min upcoming.length count) = upcoming.take count := by
  by_cases h : count ≤ upcoming.length
  · rw [Nat.min_eq_right h]
  · rw [Nat.min_eq_left (by omega), List.take_of_length_le (Nat.le_refl _),
      List.take_of_length_le (by omega)]

theorem selectPreloadItems_none (upcoming : List PlaylistItem) (count : Nat) :
    selectPreloadItems upcoming count none = upcoming.take count := by
  rw [selectPreloadItems]
  exact take_cap ..

theorem selectPreloadItems_some (upcoming : List PlaylistItem) (count budget : Nat) :
    selectPreloadItems upcoming count (some budget) =
      selectLoop budget 0 (upcoming.take count) := by
  rw [selectPreloadItems]
  exact congrArg _ (take_cap ..)

theorem prefix_take_iff {p : List PlaylistItem} :
    p <+: upcoming.take count ↔ p <+: upcoming ∧ p.length ≤ count := by
  constructor
  · intro h
    refine ⟨h.trans (List.take_prefix _ _), h.length_le.trans ?_⟩
    rw [List.length_take]
    exact Nat.min_le_left _ _
  · rintro ⟨h, hlength⟩
    rw [List.prefix_iff_eq_take.mp h]
    exact List.take_prefix_take_left hlength

/-- Below `u64::MAX` saturation is out of reach. -/
theorem selectLoop_of_lt (hbudget : budget < u64Max) (running : Nat) (items : List PlaylistItem) :
    selectLoop budget running items = fitting PlaylistItem.size budget running items := by
  induction items generalizing running with
  | nil => rfl
  | cons item rest ih =>
    rw [selectLoop, fitting]
    by_cases hfits : running + item.size ≤ budget
    · have hnext : saturatingAdd running item.size = running + item.size := by
        unfold saturatingAdd
        omega
      rw [hnext, if_neg (by omega), if_pos hfits, ih]
    · have hnext : saturatingAdd running item.size > budget := by
        unfold saturatingAdd
        omega
      rw [if_pos hnext, if_neg hfits]

/-- A budget of `u64::MAX` is never exceeded. -/
theorem selectLoop_of_max (hbudget : u64Max ≤ budget) (running : Nat) (items : List PlaylistItem) :
    selectLoop budget running items = items := by
  induction items generalizing running with
  | nil => rfl
  | cons item rest ih =>
    have hnext : ¬ saturatingAdd running item.size > budget := by
      unfold saturatingAdd
      omega
    rw [selectLoop]
    show (if saturatingAdd running item.size > budget then [] else _) = _
    rw [if_neg hnext, ih]

/-- **The selection is the longest prefix within the limits** exactly if a budget of `u64::MAX`
    is not exceeded by the first `count` items. -/
theorem selectPreloadItems_iff (upcoming : List PlaylistItem) (count : Nat)
    (bytesBudget : Option Nat) :
    LongestWithin upcoming count bytesBudget (selectPreloadItems upcoming count bytesBudget) ↔
      ∀ budget, bytesBudget = some budget → u64Max ≤ budget →
        totalSize (upcoming.take count) ≤ budget := by
  cases bytesBudget with
  | none =>
    rw [selectPreloadItems_none]
    refine iff_of_true ⟨List.take_prefix _ _, ⟨?_, nofun⟩, fun p hp hwithin => ?_⟩ nofun
    · exact List.length_take_le _ _
    · exact prefix_take_iff.mpr ⟨hp, hwithin.1⟩
  | some budget =>
    rw [selectPreloadItems_some]
    by_cases hbudget : u64Max ≤ budget
    · rw [selectLoop_of_max hbudget]
      constructor
      · rintro ⟨-, hwithin, -⟩ _ heq _
        cases heq
        exact hwithin.2 budget rfl
      · intro h
        refine ⟨List.take_prefix _ _, ⟨List.length_take_le _ _, ?_⟩, fun p hp hwithin => ?_⟩
        · rintro _ heq
          cases heq
          exact h budget rfl hbudget
        · exact prefix_take_iff.mpr ⟨hp, hwithin.1⟩
    · rw [selectLoop_of_lt (by omega)]
      refine iff_of_true ⟨?_, ⟨?_, ?_⟩, fun p hp hwithin => ?_⟩ ?_
      · exact (fitting_initial _ _ _ _).trans (List.take_prefix _ _)
      · exact (prefix_take_iff.mp (fitting_initial _ _ _ _)).2
      · rintro _ heq
        cases heq
        have hsum := sum_fitting_le (Nat.zero_le budget) PlaylistItem.size (upcoming.take count)
        rwa [Nat.zero_add] at hsum
      · have hsum := hwithin.2 budget rfl
        exact prefix_fitting (prefix_take_iff.mpr ⟨hp, hwithin.1⟩) (by rwa [Nat.zero_add])
      · rintro _ heq hmax
        cases heq
        exact absurd hmax hbudget

end

/-- Two items of `u64::MAX` bytes are selected for a budget of `u64::MAX`. -/
theorem not_longestWithin_max :
    ¬ LongestWithin
      [{ PlaylistItem.video 1 "a.mp4" with fileSize := some u64Max },
        { PlaylistItem.video 2 "b.mp4" with fileSize := some u64Max }] 2 (some u64Max)
      (selectPreloadItems
        [{ PlaylistItem.video 1 "a.mp4" with fileSize := some u64Max },
          { PlaylistItem.video 2 "b.mp4" with fileSize := some u64Max }] 2 (some u64Max)) := by
  intro h
  have htotal := h.within.2 u64Max rfl
  exact absurd htotal (by decide)

end Montr.Client
