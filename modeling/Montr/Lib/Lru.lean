import Mathlib.Algebra.BigOperators.Group.List.Basic
import Mathlib.Algebra.GroupWithZero.Nat
import Mathlib.Data.List.Nodup
import Mathlib.Data.PNat.Notation

namespace Montr.Lru

/-!
# Least-recently-used maps

A map of bounded capacity that keeps its entries in the order of their last use.  What an
implementation promises is stated by its list of entries, most recently used first
(`LawfulLruMap`); the rules below are about the *total* of a weight over the entries, which is what
a quota counts.

* `total_put` — a new key with room to spare adds its own weight;
* `total_pop` — a key taken out takes its weight away;
* `total_modify` — a use that keeps the weights keeps the total.
-/

/-- A bounded map that orders its entries by use. -/
class LruMap (M : Type) (κ α : outParam Type) where
  /-- The empty map of a capacity. -/
  new : ℕ+ → M
  cap : M → Nat
  /-- The entries, most recently used first. -/
  iter : M → List (κ × α)
  /-- Look a key up without using it. -/
  peek : M → κ → Option α
  put : M → κ → α → M
  pop : M → κ → Option α × M
  /-- Use a key and change its value in place. -/
  modify : M → κ → (α → α) → M

export LruMap (cap iter peek put pop modify)

section

variable {M κ α : Type} [LruMap M κ α] [DecidableEq κ]

/-- The list without the entry of a key. -/
def without (k : κ) (l : List (κ × α)) : List (κ × α) := l.filter fun e => decide (e.1 ≠ k)

def keys (m : M) : List κ := (iter m).map Prod.fst

/-- What the entries weigh together. -/
def total (weight : α → Nat) (m : M) : Nat := ((iter m).map fun e => weight e.2).sum

/-- The entries of the one map that the other does not have. -/
def displaced [DecidableEq α] (m m' : M) : List (κ × α) :=
  (iter m).filter fun e => decide (e ∉ iter m')

end

/-- What the operations do to the list of entries. -/
class LawfulLruMap (M : Type) {κ α : Type} [LruMap M κ α] [DecidableEq κ] : Prop where
  distinct (m : M) : (keys m).Nodup
  bounded (m : M) : (iter m).length ≤ cap m
  cap_new (n : ℕ+) : cap (LruMap.new n : M) = n
  iter_new (n : ℕ+) : iter (LruMap.new n : M) = []
  peek_eq (m : M) (k : κ) : peek m k = (iter m).lookup k
  cap_put (m : M) (k : κ) (v : α) : cap (put m k v) = cap m
  /-- a known key gets the new value and is the latest one -/
  iter_put_known (m : M) (k : κ) (v : α) :
    k ∈ keys m → iter (put m k v) = (k, v) :: without k (iter m)
  iter_put_room (m : M) (k : κ) (v : α) :
    k ∉ keys m → (iter m).length < cap m → iter (put m k v) = (k, v) :: iter m
  /-- at capacity the entry that was not used for longest is dropped -/
  iter_put_full (m : M) (k : κ) (v : α) :
    k ∉ keys m → (iter m).length = cap m → iter (put m k v) = (k, v) :: (iter m).dropLast
  pop_fst (m : M) (k : κ) : (pop m k).1 = (iter m).lookup k
  cap_pop (m : M) (k : κ) : cap (pop m k).2 = cap m
  iter_pop (m : M) (k : κ) : iter (pop m k).2 = without k (iter m)
  cap_modify (m : M) (k : κ) (f : α → α) : cap (modify m k f) = cap m
  iter_modify (m : M) (k : κ) (f : α → α) :
    iter (modify m k f) = match (iter m).lookup k with
      | some v => (k, f v) :: without k (iter m)
      | none => iter m

open LawfulLruMap

/-! ### Lists with distinct keys -/

section

variable {κ α : Type} [DecidableEq κ] {k : κ} {v : α} {l : List (κ × α)}

theorem mem_without {e : κ × α} : e ∈ without k l ↔ e ∈ l ∧ e.1 ≠ k := by
  simp [without, List.mem_filter]

theorem without_of_not_mem (h : k ∉ l.map Prod.fst) : without k l = l := by
  refine List.filter_eq_self.mpr fun e he => ?_
  rw [decide_eq_true_eq]
  rintro rfl
  exact h (List.mem_map_of_mem he)

theorem lookup_eq_none : l.lookup k = none ↔ k ∉ l.map Prod.fst := by
  induction l with
  | nil => simp
  | cons e l ih =>
    obtain ⟨k', v'⟩ := e
    by_cases h : k = k'
    · subst h
      simp
    · have hne : (k == k') = false := beq_false_of_ne h
      rw [List.lookup_cons, hne, List.map_cons, List.mem_cons]
      simp [ih, h]

theorem mem_of_lookup (h : l.lookup k = some v) : (k, v) ∈ l := by
  induction l with
  | nil => simp at h
  | cons e l ih =>
    obtain ⟨k', v'⟩ := e
    by_cases hk : k = k'
    · subst hk
      obtain rfl : v' = v := by simpa using h
      exact List.mem_cons_self
    · have hne : (k == k') = false := beq_false_of_ne hk
      rw [List.lookup_cons, hne] at h
      exact List.mem_cons_of_mem _ (ih h)

theorem lookup_of_mem (distinct : (l.map Prod.fst).Nodup) (h : (k, v) ∈ l) :
    l.lookup k = some v := by
  induction l with
  | nil => exact absurd h (List.not_mem_nil)
  | cons e l ih =>
    obtain ⟨k', v'⟩ := e
    rw [List.map_cons, List.nodup_cons] at distinct
    rcases List.mem_cons.mp h with heq | hmem
    · obtain ⟨rfl, rfl⟩ := Prod.mk.inj heq
      exact List.lookup_cons_self
    · have hk : k ≠ k' := by
        rintro rfl
        exact distinct.1 (List.mem_map.mpr ⟨_, hmem, rfl⟩)
      rw [List.lookup_cons, beq_false_of_ne hk]
      exact ih distinct.2 hmem

/-- With distinct keys the sum splits into the weight of a key and the rest. -/
theorem sum_without (weight : α → Nat) (distinct : (l.map Prod.fst).Nodup)
    (h : l.lookup k = some v) :
    ((without k l).map fun e => weight e.2).sum + weight v = (l.map fun e => weight e.2).sum := by
  induction l with
  | nil => simp at h
  | cons e l ih =>
    obtain ⟨k', v'⟩ := e
    rw [List.map_cons, List.nodup_cons] at distinct
    by_cases hk : k = k'
    · subst hk
      obtain rfl : v' = v := by simpa using h
      have hrest : without k ((k, v') :: l) = l := by
        show List.filter _ _ = l
        rw [List.filter_cons_of_neg (by simp)]
        exact without_of_not_mem distinct.1
      rw [hrest, List.map_cons, List.sum_cons, Nat.add_comm]
    · rw [List.lookup_cons, beq_false_of_ne hk] at h
      have hrest : without k ((k', v') :: l) = (k', v') :: without k l :=
        List.filter_cons_of_pos (by simpa using fun hkk => hk hkk.symm)
      have hsum := ih distinct.2 h
      rw [hrest, List.map_cons, List.map_cons, List.sum_cons, List.sum_cons]
      omega

end

/-! ### What the operations do to keys, entries and totals -/

section

variable {M κ α : Type} [LruMap M κ α] [DecidableEq κ] [LawfulLruMap M] {m : M} {k : κ} {v : α}
  {weight : α → Nat}

theorem peek_eq_none : peek m k = none ↔ k ∉ keys m := by
  rw [peek_eq, lookup_eq_none, keys]

theorem mem_iter_of_peek (h : peek m k = some v) : (k, v) ∈ iter m := by
  rw [peek_eq] at h
  exact mem_of_lookup h

theorem peek_of_mem_iter (h : (k, v) ∈ iter m) : peek m k = some v := by
  have hdistinct : (keys m).Nodup := distinct m
  rw [peek_eq]
  exact lookup_of_mem hdistinct h

theorem pop_eq_peek : (pop m k).1 = peek m k := (pop_fst m k).trans (peek_eq m k).symm

theorem mem_pop {e : κ × α} : e ∈ iter (pop m k).2 ↔ e ∈ iter m ∧ e.1 ≠ k := by
  rw [iter_pop, mem_without]

theorem not_mem_keys_pop : k ∉ keys (pop m k).2 := by
  intro h
  obtain ⟨e, he, rfl⟩ := List.mem_map.mp h
  exact (mem_pop.mp he).2 rfl

theorem length_pop_lt (h : k ∈ keys m) : (iter (pop m k).2).length < (iter m).length := by
  rw [iter_pop]
  obtain ⟨e, he, hk⟩ := List.mem_map.mp h
  exact List.length_filter_lt_length_iff_exists.mpr ⟨e, he, by simp [hk]⟩

theorem total_new (n : ℕ+) : total weight (LruMap.new n : M) = 0 := by
  have hempty : iter (LruMap.new n : M) = [] := iter_new n
  rw [total, hempty, List.map_nil, List.sum_nil]

theorem total_put (fresh : k ∉ keys m) (room : (iter m).length < cap m) :
    total weight (put m k v) = weight v + total weight m := by
  rw [total, iter_put_room m k v fresh room, List.map_cons, List.sum_cons, total]

theorem total_pop (h : peek m k = some v) :
    total weight (pop m k).2 + weight v = total weight m := by
  have hdistinct : (keys m).Nodup := distinct m
  rw [peek_eq] at h
  rw [total, iter_pop]
  exact sum_without weight hdistinct h

theorem total_modify {f : α → α} (same : ∀ v, weight (f v) = weight v) :
    total weight (modify m k f) = total weight m := by
  rw [total, iter_modify]
  cases h : (iter m).lookup k with
  | none => rfl
  | some v =>
    have hdistinct : (keys m).Nodup := distinct m
    have hsum := sum_without weight hdistinct h
    show ((_ :: without k (iter m)).map _).sum = _
    rw [List.map_cons, List.sum_cons, same, total]
    omega

/-- A new key with room to spare displaces nothing. -/
theorem displaced_put [DecidableEq α] (fresh : k ∉ keys m) (room : (iter m).length < cap m) :
    displaced m (put m k v) = [] := by
  have hput : iter (put m k v) = (k, v) :: iter m := iter_put_room m k v fresh room
  refine List.filter_eq_nil_iff.mpr fun e he => ?_
  rw [decide_eq_true_eq, not_not, hput]
  exact List.mem_cons_of_mem _ he

theorem mem_put (fresh : k ∉ keys m) (room : (iter m).length < cap m) {e : κ × α} :
    e ∈ iter (put m k v) ↔ e = (k, v) ∨ e ∈ iter m := by
  rw [iter_put_room m k v fresh room, List.mem_cons]

end

/-! ### The list of entries as an implementation -/

/-- Entries with distinct keys, most recently used first, at most `cap` of them. -/
structure RecencyList (κ α : Type) where
  cap : Nat
  entries : List (κ × α)
  pos : 0 < cap
  distinct : (entries.map Prod.fst).Nodup
  bounded : entries.length ≤ cap

namespace RecencyList

variable {κ α : Type} [DecidableEq κ] {k : κ} {v : α}

theorem nodup_without {l : List (κ × α)} (h : (l.map Prod.fst).Nodup) :
    ((without k l).map Prod.fst).Nodup :=
  h.sublist (List.filter_sublist.map _)

theorem nodup_cons_without {l : List (κ × α)} (h : (l.map Prod.fst).Nodup) :
    (((k, v) :: without k l).map Prod.fst).Nodup := by
  rw [List.map_cons, List.nodup_cons]
  refine ⟨fun hk => ?_, nodup_without h⟩
  obtain ⟨e, he, hek⟩ := List.mem_map.mp hk
  exact (mem_without.mp he).2 hek

/-- Putting a known key back costs no room. -/
theorem length_without_lt {l : List (κ × α)} (h : k ∈ l.map Prod.fst) :
    (without k l).length < l.length := by
  obtain ⟨e, he, hk⟩ := List.mem_map.mp h
  exact List.length_filter_lt_length_iff_exists.mpr ⟨e, he, by simp [hk]⟩

def new (n : ℕ+) : RecencyList κ α :=
  ⟨n, [], n.2, List.nodup_nil, Nat.zero_le _⟩

def put (m : RecencyList κ α) (k : κ) (v : α) : RecencyList κ α :=
  if known : k ∈ m.entries.map Prod.fst then
    { m with
      entries := (k, v) :: without k m.entries
      distinct := nodup_cons_without m.distinct
      bounded := Nat.lt_of_lt_of_le (length_without_lt known) m.bounded }
  else if room : m.entries.length < m.cap then
    { m with
      entries := (k, v) :: m.entries
      distinct := List.nodup_cons.mpr ⟨known, m.distinct⟩
      bounded := room }
  else
    { m with
      entries := (k, v) :: m.entries.dropLast
      distinct := by
        have hsub := m.entries.dropLast_sublist.map Prod.fst
        exact List.nodup_cons.mpr ⟨fun h => known (hsub.subset h), m.distinct.sublist hsub⟩
      bounded := by
        have hpos := m.pos
        have hle := m.bounded
        rw [List.length_cons, List.length_dropLast]
        omega }

def pop (m : RecencyList κ α) (k : κ) : Option α × RecencyList κ α :=
  (m.entries.lookup k,
    { m with
      entries := without k m.entries
      distinct := nodup_without m.distinct
      bounded := Nat.le_trans (List.length_filter_le _ _) m.bounded })

def modify (m : RecencyList κ α) (k : κ) (f : α → α) : RecencyList κ α :=
  match m.entries.lookup k with
  | some v => m.put k (f v)
  | none => m

instance : LruMap (RecencyList κ α) κ α where
  new := new
  cap := RecencyList.cap
  iter := entries
  peek m k := m.entries.lookup k
  put := put
  pop := pop
  modify := modify

theorem entries_put_known {m : RecencyList κ α} (h : k ∈ m.entries.map Prod.fst) :
    (m.put k v).entries = (k, v) :: without k m.entries := by
  rw [put, dif_pos h]

theorem cap_put (m : RecencyList κ α) (k : κ) (v : α) : (m.put k v).cap = m.cap := by
  unfold put
  split
  · rfl
  · split <;> rfl

instance : LawfulLruMap (RecencyList κ α) where
  distinct := RecencyList.distinct
  bounded := RecencyList.bounded
  cap_new _ := rfl
  iter_new _ := rfl
  peek_eq _ _ := rfl
  cap_put := cap_put
  iter_put_known _ _ _ := entries_put_known
  iter_put_room m k v fresh room := by
    have hroom : m.entries.length < m.cap := room
    have hfresh : k ∉ m.entries.map Prod.fst := fresh
    show (m.put k v).entries = (k, v) :: m.entries
    rw [put, dif_neg hfresh, dif_pos hroom]
  iter_put_full m k v fresh full := by
    have hfull : ¬ m.entries.length < m.cap := fun h => Nat.ne_of_lt h full
    have hfresh : k ∉ m.entries.map Prod.fst := fresh
    show (m.put k v).entries = (k, v) :: m.entries.dropLast
    rw [put, dif_neg hfresh, dif_neg hfull]
  pop_fst _ _ := rfl
  cap_pop _ _ := rfl
  iter_pop _ _ := rfl
  cap_modify m k f := by
    show (m.modify k f).cap = m.cap
    unfold modify
    split
    · exact cap_put _ _ _
    · rfl
  iter_modify m k f := by
    show (m.modify k f).entries = match m.entries.lookup k with
      | some v => (k, f v) :: without k m.entries
      | none => m.entries
    unfold modify
    cases h : m.entries.lookup k with
    | none => rfl
    | some v => exact entries_put_known (List.mem_map_of_mem (mem_of_lookup h))

end RecencyList

end Montr.Lru
