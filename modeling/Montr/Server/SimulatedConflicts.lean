import Montr.Server.EffectivePriority
import Montr.Server.ScheduleService
import Std.Data.String.ToInt

namespace Montr.Server

open Buckets

/-!
# Simulated conflicts

`simulateForTarget`: the occurrences of all schedules that a target takes into account, one for each
minute and target key, and the conflicts among them.  What a schedule's occurrences in the range are
(`simulateSchedule`) and how two ISO texts compare are parameters.

* `SimulationExact` — one occurrence and at most one conflict entry where schedules contend;
* `result_at` — what the result has at a minute and a target key;
* `simulateForTarget_exact_iff` — the result is exact iff no schedule occurs twice in a minute.
-/

/-! ### The simulation -/

structure SimulationOccurrence where
  scheduleId : Nat
  scheduleName : String
  playlistId : Nat
  target : String
  priority : Int
  /-- the instant of the ISO text -/
  firesAt : Int
  endsAt : Option Int
  interruptMode : ScheduleInterruptMode
  deriving DecidableEq, Repr

structure SimulationConflict where
  firesAt : Int
  target : String
  winnerId : Nat
  loserIds : List Nat
  deriving DecidableEq, Repr

structure SimulationResult where
  occurrences : List SimulationOccurrence
  conflicts : List SimulationConflict
  deriving DecidableEq, Repr

structure Tuple where
  fires : Int
  s : Schedule
  deriving DecidableEq, Repr

structure Bucket where
  fires : Int
  target : String
  entries : List Tuple
  deriving DecidableEq, Repr

/-- `Math.floor(getTime() / 60_000)`. -/
def minuteOf (fires : Int) : Int := fires / 60000

/-- The key of a bucket of `simulateForTarget`. -/
def bucketKey (minute : Int) (target : String) : String := s!"{minute}|{target}"

def Tuple.key (t : Tuple) : String := bucketKey (minuteOf t.fires) (targetKeyFor t.s)

/-- The occurrence that a winner stands for. -/
def Schedule.occurrence (winner : Schedule) (fires : Int) : SimulationOccurrence where
  scheduleId := winner.id
  scheduleName := winner.name
  playlistId := winner.playlistId
  target := targetKeyFor winner
  priority := winner.priority
  firesAt := fires
  endsAt := (truthyNat winner.durationSeconds).map fun seconds => fires + seconds * 1000
  interruptMode := winner.interruptMode

namespace Bucket

variable (b : Bucket)

def resolution : Resolution := resolveConflicts (b.entries.map Tuple.s)

/-- The occurrences that the loop over the buckets adds. -/
def occurrences : List SimulationOccurrence :=
  b.resolution.winners.map fun (_, winner) => winner.occurrence b.fires

/-- The conflicts that it adds. -/
def conflicts : List SimulationConflict :=
  if 0 < b.resolution.losers.length then
    b.resolution.winners.map fun (_, winner) =>
      { firesAt := b.fires
        target := targetKeyFor winner
        winnerId := winner.id
        loserIds := ((b.resolution.losers.lookup (targetKeyFor winner)).map
          fun losers => losers.map (·.id)).getD [] }
  else []

end Bucket

section

variable (simulate : Schedule → List Int) (isoLe : Int → Int → Bool) (candidates : List Schedule)

def simulatedTuples : List Tuple :=
  candidates.flatMap fun s => (simulate s).map fun fires => ⟨fires, s⟩

/-- The buckets, each with the time and the target of the tuple that opened it. -/
def simulatedBuckets : List Bucket :=
  (collect Tuple.key (simulatedTuples simulate candidates)).filterMap fun (_, entries) =>
    entries.head?.map fun t => ⟨t.fires, targetKeyFor t.s, entries⟩

def simulateCandidates : SimulationResult where
  occurrences := ((simulatedBuckets simulate candidates).flatMap Bucket.occurrences).mergeSort
    fun a b => isoLe a.firesAt b.firesAt
  conflicts := (simulatedBuckets simulate candidates).flatMap Bucket.conflicts

/-- `simulateForTarget`, `simulate` being `simulateSchedule` on the range. -/
def simulateForTarget (t : ScheduleTables) (target : Option ScheduleTables.Target) :
    SimulationResult :=
  simulateCandidates simulate isoLe (t.candidates target)

/-! ### The purpose -/

/-- The candidates that have an occurrence in a minute on a target. -/
def contenders (minute : Int) (target : String) : List Schedule :=
  candidates.filter fun s => decide (targetKeyFor s = target ∧ minute ∈ (simulate s).map minuteOf)

/-- At a minute and a target key. -/
def SimulationOccurrence.isAt (o : SimulationOccurrence) (minute : Int) (target : String) : Bool :=
  decide (minuteOf o.firesAt = minute ∧ o.target = target)

def SimulationConflict.isAt (c : SimulationConflict) (minute : Int) (target : String) : Bool :=
  decide (minuteOf c.firesAt = minute ∧ c.target = target)

/-- The schedule that wins against all of a list. -/
structure Best (among : List Schedule) (w : Schedule) : Prop where
  mem : w ∈ among
  outranks : ∀ v ∈ among, w.Outranks v

/-- One occurrence for each minute and target with a contender, the best one's, and one conflict
    entry for each with several, naming the best and all others, each once. -/
structure SimulationExact (result : SimulationResult) : Prop where
  silent : ∀ minute target, contenders simulate candidates minute target = [] →
    result.occurrences.filter (·.isAt minute target) = []
  occurrence : ∀ minute target w, Best (contenders simulate candidates minute target) w →
    ∃ fires, minuteOf fires = minute ∧
      result.occurrences.filter (·.isAt minute target) = [w.occurrence fires]
  peaceful : ∀ minute target, (contenders simulate candidates minute target).length ≤ 1 →
    result.conflicts.filter (·.isAt minute target) = []
  conflict : ∀ minute target w, 2 ≤ (contenders simulate candidates minute target).length →
    Best (contenders simulate candidates minute target) w →
    ∃ fires loserIds, minuteOf fires = minute ∧
      result.conflicts.filter (·.isAt minute target) = [⟨fires, target, w.id, loserIds⟩] ∧
      loserIds.Nodup ∧ ∀ id, id ∈ loserIds ↔
        id ≠ w.id ∧ ∃ v ∈ contenders simulate candidates minute target, v.id = id
  noSelf : ∀ c ∈ result.conflicts, c.winnerId ∉ c.loserIds

/-- No candidate has two occurrences in one minute. -/
def OncePerMinute : Prop := ∀ s ∈ candidates, ((simulate s).map minuteOf).Nodup

end

/-! ### Keys -/

theorem bucketKey_inj {minute minute' : Int} {target target' : String} :
    bucketKey minute target = bucketKey minute' target' ↔
      minute = minute' ∧ target = target' := by
  constructor
  · intro h
    have hchars : ∀ (m : Int) (t : String),
        (bucketKey m t).toList = (Int.repr m).toList ++ '|' :: t.toList := by
      intro m t
      simp [bucketKey, show toString m = Int.repr m from rfl,
        show ∀ s : String, toString s = s from fun _ => rfl]
    have hbar : ∀ m : Int, ∀ c ∈ (Int.repr m).toList, decide (c ≠ '|') = true := by
      intro m c hc
      apply decide_eq_true
      rintro rfl
      have hdigits : ∀ n : Nat, '|' ∉ (Nat.repr n).toList := by
        intro n hmem
        have hdigit : Char.isDigit '|' = true := by
          rw [Nat.toList_repr] at hmem
          exact Nat.isDigit_of_mem_toDigits (by omega) (by omega) hmem
        exact absurd hdigit (by decide)
      cases m with
      | ofNat n => exact hdigits n hc
      | negSucc n =>
        have hneg : (Int.repr (Int.negSucc n)).toList = '-' :: (Nat.repr (n + 1)).toList := by
          simp [Int.repr]
        rw [hneg] at hc
        rcases List.mem_cons.mp hc with heq | hmem
        · exact absurd heq (by decide)
        · exact hdigits _ hmem
    have hlists := congrArg String.toList h
    rw [hchars, hchars] at hlists
    have htake := congrArg (List.takeWhile fun c => decide (c ≠ '|')) hlists
    have hdrop := congrArg (List.dropWhile fun c => decide (c ≠ '|')) hlists
    rw [List.takeWhile_append_of_pos (hbar _), List.takeWhile_append_of_pos (hbar _),
      List.takeWhile_cons_of_neg (by simp), List.takeWhile_cons_of_neg (by simp),
      List.append_nil, List.append_nil] at htake
    rw [List.dropWhile_append_of_pos (hbar _), List.dropWhile_append_of_pos (hbar _),
      List.dropWhile_cons_of_neg (by simp), List.dropWhile_cons_of_neg (by simp)] at hdrop
    exact ⟨Int.repr_injective (String.toList_inj.mp htake),
      String.toList_inj.mp (List.cons.inj hdrop).2⟩
  · rintro ⟨rfl, rfl⟩
    rfl

/-! ### One bucket -/

/-- The schedules in the order of a bucket. -/
def ranked (l : List Schedule) : List Schedule := l.mergeSort bucketOrder

theorem ranked_perm (l : List Schedule) : (ranked l).Perm l := List.mergeSort_perm _ _

theorem best_of_ranked {l rest : List Schedule} {w : Schedule} (h : ranked l = w :: rest) :
    Best l w := by
  have hwinner : winnerOf ("", l) = some w := by
    show (ranked l).head? = some w
    rw [h]
    rfl
  obtain ⟨hmem, hbest⟩ := winnerOf_spec hwinner
  exact ⟨hmem, hbest⟩

theorem ranked_ne_nil {l : List Schedule} (h : l ≠ []) : ∃ w rest, ranked l = w :: rest := by
  cases hranked : ranked l with
  | nil =>
    have hperm := ranked_perm l
    rw [hranked] at hperm
    exact absurd (List.nil_perm.mp hperm) h
  | cons w rest => exact ⟨w, rest, rfl⟩

/-- Schedules of one target make one bucket. -/
theorem buckets_of_one_target {l : List Schedule} {target : String} (hne : l ≠ [])
    (h : ∀ s ∈ l, targetKeyFor s = target) : buckets l = [(target, ranked l)] := by
  have hfold : ∀ (rest : List Schedule) (arr : List Schedule),
      (∀ s ∈ rest, targetKeyFor s = target) →
        rest.foldl (fun bs s => addToBucket (targetKeyFor s) s bs) [(target, arr)] =
          [(target, arr ++ rest)] := by
    intro rest
    induction rest with
    | nil => simp
    | cons s rest ih =>
      intro arr hrest
      have hs := hrest s List.mem_cons_self
      rw [List.foldl_cons, addToBucket, if_pos hs.symm,
        ih _ fun s' hs' => hrest s' (List.mem_cons_of_mem _ hs')]
      simp
  unfold buckets
  cases l with
  | nil => exact absurd rfl hne
  | cons s rest =>
    have hs := h s List.mem_cons_self
    rw [List.foldl_cons, addToBucket, hs, hfold rest [s]
      fun s' hs' => h s' (List.mem_cons_of_mem _ hs')]
    rfl

/-- The entries of a bucket have its minute and its target. -/
structure Bucket.Uniform (b : Bucket) : Prop where
  inhabited : b.entries ≠ []
  target : ∀ e ∈ b.entries, targetKeyFor e.s = b.target

theorem Bucket.Uniform.buckets_eq {b : Bucket} (h : b.Uniform) :
    buckets (b.entries.map Tuple.s) = [(b.target, ranked (b.entries.map Tuple.s))] := by
  apply buckets_of_one_target
  · simpa using h.inhabited
  · intro s hs
    obtain ⟨e, he, rfl⟩ := List.mem_map.mp hs
    exact h.target e he

theorem Bucket.Uniform.targetKeyFor_eq {b : Bucket} (h : b.Uniform) {w : Schedule}
    {rest : List Schedule} (hranked : ranked (b.entries.map Tuple.s) = w :: rest) :
    targetKeyFor w = b.target := by
  obtain ⟨e, he, rfl⟩ := List.mem_map.mp (best_of_ranked hranked).mem
  exact h.target e he

/-- A bucket gives the occurrence of its first schedule. -/
theorem Bucket.Uniform.occurrences_eq {b : Bucket} (h : b.Uniform) {w : Schedule}
    {rest : List Schedule} (hranked : ranked (b.entries.map Tuple.s) = w :: rest) :
    b.occurrences = [w.occurrence b.fires] := by
  unfold Bucket.occurrences Bucket.resolution resolveConflicts
  rw [h.buckets_eq, hranked]
  rfl

/-- And a conflict where there are others, naming them all. -/
theorem Bucket.Uniform.conflicts_eq {b : Bucket} (h : b.Uniform) {w : Schedule}
    {rest : List Schedule} (hranked : ranked (b.entries.map Tuple.s) = w :: rest) :
    b.conflicts =
      if rest = [] then [] else [⟨b.fires, b.target, w.id, rest.map (·.id)⟩] := by
  have htarget := h.targetKeyFor_eq hranked
  unfold Bucket.conflicts Bucket.resolution resolveConflicts
  rw [h.buckets_eq, hranked]
  cases rest with
  | nil => rfl
  | cons v rest => simp [htarget]

/-! ### The buckets of a simulation -/

section

variable {simulate : Schedule → List Int} {isoLe : Int → Int → Bool} {candidates : List Schedule}
  {minute : Int} {target : String}

/-- The tuples of a minute and a target. -/
def tuplesAt (simulate : Schedule → List Int) (candidates : List Schedule) (minute : Int)
    (target : String) : List Tuple :=
  (simulatedTuples simulate candidates).filter fun t => decide (t.key = bucketKey minute target)

theorem mem_tuplesAt {t : Tuple} : t ∈ tuplesAt simulate candidates minute target ↔
    t ∈ simulatedTuples simulate candidates ∧ minuteOf t.fires = minute ∧
      targetKeyFor t.s = target := by
  rw [tuplesAt, List.mem_filter, decide_eq_true_eq, Tuple.key, bucketKey_inj]

theorem mem_simulatedTuples {t : Tuple} : t ∈ simulatedTuples simulate candidates ↔
    t.s ∈ candidates ∧ t.fires ∈ simulate t.s := by
  unfold simulatedTuples
  rw [List.mem_flatMap]
  constructor
  · rintro ⟨s, hs, ht⟩
    obtain ⟨fires, hfires, rfl⟩ := List.mem_map.mp ht
    exact ⟨hs, hfires⟩
  · rintro ⟨hs, hfires⟩
    exact ⟨t.s, hs, List.mem_map.mpr ⟨t.fires, hfires, rfl⟩⟩

/-- The schedules of the tuples are the contenders. -/
theorem mem_contenders {s : Schedule} : s ∈ contenders simulate candidates minute target ↔
    s ∈ (tuplesAt simulate candidates minute target).map Tuple.s := by
  rw [contenders, List.mem_filter, decide_eq_true_eq]
  constructor
  · rintro ⟨hs, htarget, hminute⟩
    obtain ⟨fires, hfires, hm⟩ := List.mem_map.mp hminute
    have hmem : (⟨fires, s⟩ : Tuple) ∈ tuplesAt simulate candidates minute target :=
      mem_tuplesAt.mpr ⟨mem_simulatedTuples.mpr ⟨hs, hfires⟩, hm, htarget⟩
    exact List.mem_map.mpr ⟨_, hmem, rfl⟩
  · intro h
    obtain ⟨t, ht, rfl⟩ := List.mem_map.mp h
    obtain ⟨hmem, hm, htarget⟩ := mem_tuplesAt.mp ht
    obtain ⟨hs, hfires⟩ := mem_simulatedTuples.mp hmem
    exact ⟨hs, htarget, List.mem_map.mpr ⟨t.fires, hfires, hm⟩⟩

theorem best_contenders {w : Schedule} :
    Best (contenders simulate candidates minute target) w ↔
      Best ((tuplesAt simulate candidates minute target).map Tuple.s) w := by
  constructor
  · intro h
    exact ⟨mem_contenders.mp h.mem, fun v hv => h.outranks v (mem_contenders.mpr hv)⟩
  · intro h
    exact ⟨mem_contenders.mpr h.mem, fun v hv => h.outranks v (mem_contenders.mp hv)⟩

/-- The bucket that a first tuple opens. -/
def bucketOf (t : Tuple) (rest : List Tuple) : Bucket := ⟨t.fires, targetKeyFor t.s, t :: rest⟩

theorem mem_simulatedBuckets {b : Bucket} (h : b ∈ simulatedBuckets simulate candidates) :
    b.Uniform ∧ b.entries = tuplesAt simulate candidates (minuteOf b.fires) b.target := by
  obtain ⟨⟨k, entries⟩, hbucket, hb⟩ := List.mem_filterMap.mp h
  obtain ⟨t, ht, rfl⟩ := Option.map_eq_some_iff.mp hb
  have hholds : entries =
      (simulatedTuples simulate candidates).filter fun a => decide (a.key = k) :=
    (groups_collect Tuple.key (simulatedTuples simulate candidates)).holds _ hbucket
  have hmem : t ∈ entries := List.mem_of_mem_head? ht
  have hkey : t.key = k := by
    rw [hholds, List.mem_filter] at hmem
    exact of_decide_eq_true hmem.2
  have hentries : entries =
      tuplesAt simulate candidates (minuteOf t.fires) (targetKeyFor t.s) := by
    rw [hholds, ← hkey]
    rfl
  refine ⟨⟨List.ne_nil_of_mem hmem, ?_⟩, hentries⟩
  intro e he
  rw [hentries] at he
  exact (mem_tuplesAt.mp he).2.2

/-- The buckets of a minute and a target: one where a tuple is. -/
theorem filter_simulatedBuckets (simulate : Schedule → List Int) (candidates : List Schedule)
    (minute : Int) (target : String) :
    ((simulatedBuckets simulate candidates).filter fun b =>
      decide (minuteOf b.fires = minute ∧ b.target = target)) =
      match tuplesAt simulate candidates minute target with
      | [] => []
      | t :: rest => [bucketOf t rest] := by
  have hopen : ∀ bucket ∈ collect Tuple.key (simulatedTuples simulate candidates),
      ((bucket.2.head?.map fun t => (⟨t.fires, targetKeyFor t.s, bucket.2⟩ : Bucket)).filter
        fun b => decide (minuteOf b.fires = minute ∧ b.target = target)) =
      if bucket.1 = bucketKey minute target then
        bucket.2.head?.map fun t => (⟨t.fires, targetKeyFor t.s, bucket.2⟩ : Bucket)
      else none := by
    intro bucket hbucket
    have hholds := (groups_collect Tuple.key (simulatedTuples simulate candidates)).holds _ hbucket
    cases hhead : bucket.2.head? with
    | none => simp
    | some t =>
      have hmem : t ∈ bucket.2 := List.mem_of_mem_head? hhead
      rw [hholds, List.mem_filter] at hmem
      have hkey : t.key = bucket.1 := of_decide_eq_true hmem.2
      have hiff : (minuteOf t.fires = minute ∧ targetKeyFor t.s = target) ↔
          bucket.1 = bucketKey minute target := by
        rw [← hkey, Tuple.key, bucketKey_inj]
      simp only [Option.map_some, Option.filter_some, hiff, decide_eq_true_eq]
  have hfirst : (simulatedBuckets simulate candidates).filter (fun b =>
      decide (minuteOf b.fires = minute ∧ b.target = target)) =
      ((collect Tuple.key (simulatedTuples simulate candidates)).filter fun bucket =>
        decide (bucket.1 = bucketKey minute target)).filterMap fun bucket =>
          bucket.2.head?.map fun t => ⟨t.fires, targetKeyFor t.s, bucket.2⟩ := by
    unfold simulatedBuckets
    rw [List.filter_filterMap, List.filterMap_filter]
    apply List.filterMap_congr
    intro bucket hbucket
    rw [hopen bucket hbucket]
    simp only [decide_eq_true_eq]
  rw [hfirst, filter_collect]
  cases hat : tuplesAt simulate candidates minute target with
  | nil =>
    rw [if_neg]
    · rfl
    · rintro ⟨t, ht, hkey⟩
      have hmem : t ∈ tuplesAt simulate candidates minute target :=
        List.mem_filter.mpr ⟨ht, decide_eq_true hkey⟩
      rw [hat] at hmem
      cases hmem
  | cons t rest =>
    have hmem : t ∈ tuplesAt simulate candidates minute target := by
      rw [hat]
      exact List.mem_cons_self
    obtain ⟨ht, hkey⟩ := List.mem_filter.mp hmem
    rw [if_pos ⟨t, ht, of_decide_eq_true hkey⟩]
    have hsame : (simulatedTuples simulate candidates).filter
        (fun a => decide (a.key = bucketKey minute target)) = t :: rest := hat
    rw [hsame]
    rfl

/-- What the result has at a minute and a target: nothing without a tuple, else the occurrence of
    the first in rank, and a conflict where others are behind it. -/
theorem result_at (simulate : Schedule → List Int) (isoLe : Int → Int → Bool)
    (candidates : List Schedule) (minute : Int) (target : String) :
    (tuplesAt simulate candidates minute target = [] ∧
      (simulateCandidates simulate isoLe candidates).occurrences.filter (·.isAt minute target) =
        [] ∧
      (simulateCandidates simulate isoLe candidates).conflicts.filter (·.isAt minute target) =
        []) ∨
    ∃ fires w rest, minuteOf fires = minute ∧
      ranked ((tuplesAt simulate candidates minute target).map Tuple.s) = w :: rest ∧
      (simulateCandidates simulate isoLe candidates).occurrences.filter (·.isAt minute target) =
        [w.occurrence fires] ∧
      (simulateCandidates simulate isoLe candidates).conflicts.filter (·.isAt minute target) =
        if rest = [] then [] else [⟨fires, target, w.id, rest.map (·.id)⟩] := by
  have hranked : ∀ b ∈ simulatedBuckets simulate candidates,
      ∃ w rest, ranked (b.entries.map Tuple.s) = w :: rest := by
    intro b hb
    apply ranked_ne_nil
    simpa using (mem_simulatedBuckets hb).1.inhabited
  have hoccurrences : ((simulatedBuckets simulate candidates).flatMap Bucket.occurrences).filter
      (·.isAt minute target) = ((simulatedBuckets simulate candidates).filter fun b =>
        decide (minuteOf b.fires = minute ∧ b.target = target)).flatMap Bucket.occurrences := by
    apply filter_flatMap_of_agree
    intro b hb o ho
    obtain ⟨w, rest, hw⟩ := hranked b hb
    have huniform := (mem_simulatedBuckets hb).1
    rw [huniform.occurrences_eq hw, List.mem_singleton] at ho
    subst ho
    show decide (minuteOf b.fires = minute ∧ targetKeyFor w = target) = _
    rw [huniform.targetKeyFor_eq hw]
  have hconflicts : ((simulatedBuckets simulate candidates).flatMap Bucket.conflicts).filter
      (·.isAt minute target) = ((simulatedBuckets simulate candidates).filter fun b =>
        decide (minuteOf b.fires = minute ∧ b.target = target)).flatMap Bucket.conflicts := by
    apply filter_flatMap_of_agree
    intro b hb c hc
    obtain ⟨w, rest, hw⟩ := hranked b hb
    rw [(mem_simulatedBuckets hb).1.conflicts_eq hw] at hc
    split at hc
    · cases hc
    · rw [List.mem_singleton.mp hc]
      rfl
  have hperm : ((simulateCandidates simulate isoLe candidates).occurrences.filter
      (·.isAt minute target)).Perm
      (((simulatedBuckets simulate candidates).flatMap Bucket.occurrences).filter
        (·.isAt minute target)) :=
    (List.mergeSort_perm _ _).filter _
  have hfilter := filter_simulatedBuckets simulate candidates minute target
  rw [hoccurrences, hfilter] at hperm
  have hlist : (simulateCandidates simulate isoLe candidates).conflicts.filter
      (·.isAt minute target) = _ := hconflicts
  rw [hfilter] at hlist
  cases hat : tuplesAt simulate candidates minute target with
  | nil =>
    rw [hat] at hperm hlist
    exact .inl ⟨rfl, List.perm_nil.mp hperm, hlist⟩
  | cons t rest =>
    have hmem : t ∈ tuplesAt simulate candidates minute target := by
      rw [hat]
      exact List.mem_cons_self
    obtain ⟨-, hminute, htarget⟩ := mem_tuplesAt.mp hmem
    have huniform : (bucketOf t rest).Uniform := by
      refine ⟨List.cons_ne_nil _ _, ?_⟩
      intro e he
      have he' : e ∈ tuplesAt simulate candidates minute target := by
        rw [hat]
        exact he
      exact (mem_tuplesAt.mp he').2.2.trans htarget.symm
    obtain ⟨w, others, hw⟩ := ranked_ne_nil (l := (t :: rest).map Tuple.s) (by simp)
    rw [hat] at hperm hlist
    have hone : [bucketOf t rest].flatMap Bucket.occurrences = [w.occurrence t.fires] := by
      rw [List.flatMap_singleton, huniform.occurrences_eq hw]
      rfl
    have hconflict : [bucketOf t rest].flatMap Bucket.conflicts =
        if others = [] then [] else [⟨t.fires, target, w.id, others.map (·.id)⟩] := by
      rw [List.flatMap_singleton, huniform.conflicts_eq hw, ← htarget]
      rfl
    refine .inr ⟨t.fires, w, others, hminute, hw, ?_, hlist.trans hconflict⟩
    apply List.perm_singleton.mp
    rw [← hone]
    exact hperm

/-! ### How often a schedule is in a bucket -/

/-- A candidate is in a bucket as often as it occurs in the minute. -/
theorem count_tuplesAt (candidates_nodup : candidates.Nodup) {s : Schedule}
    (hs : s ∈ candidates) :
    ((tuplesAt simulate candidates minute (targetKeyFor s)).map Tuple.s).count s =
      ((simulate s).map minuteOf).count minute := by
  have hown : ∀ v : Schedule, ∀ fires : List Int,
      (((fires.map fun t => (⟨t, v⟩ : Tuple)).filter fun t =>
        decide (t.key = bucketKey minute (targetKeyFor s))).map Tuple.s).count s =
      if v = s then (fires.map minuteOf).count minute else 0 := by
    intro v fires
    induction fires with
    | nil => simp
    | cons t fires ih =>
      rw [List.map_cons, List.map_cons]
      have hkey : (⟨t, v⟩ : Tuple).key = bucketKey minute (targetKeyFor s) ↔
          minuteOf t = minute ∧ targetKeyFor v = targetKeyFor s := bucketKey_inj
      by_cases hv : v = s
      · subst hv
        rw [if_pos rfl] at ih ⊢
        by_cases hm : minuteOf t = minute
        · rw [List.filter_cons_of_pos (by simpa using hkey.mpr ⟨hm, rfl⟩), List.map_cons,
            List.count_cons_self, ih, hm, List.count_cons_self]
        · rw [List.filter_cons_of_neg (by simpa using fun h => hm (hkey.mp h).1), ih,
            List.count_cons_of_ne hm]
      · rw [if_neg hv] at ih ⊢
        rw [List.filter_cons]
        split
        · rw [List.map_cons, List.count_cons_of_ne hv, ih]
        · exact ih
  unfold tuplesAt simulatedTuples
  induction candidates with
  | nil => cases hs
  | cons v rest ih =>
    rw [List.nodup_cons] at candidates_nodup
    rw [List.flatMap_cons, List.filter_append, List.map_append, List.count_append, hown]
    by_cases hv : v = s
    · subst hv
      have hnone : ((List.filter (fun t : Tuple => decide (t.key = bucketKey minute
          (targetKeyFor v))) (rest.flatMap fun s => (simulate s).map fun fires => ⟨fires, s⟩)).map
            Tuple.s).count v = 0 := by
        rw [List.count_eq_zero]
        intro hmem
        obtain ⟨t, ht, heq⟩ := List.mem_map.mp hmem
        have hrest : t ∈ simulatedTuples simulate rest := (List.mem_filter.mp ht).1
        exact candidates_nodup.1 (heq ▸ (mem_simulatedTuples.mp hrest).1)
      rw [if_pos rfl, hnone, Nat.add_zero]
    · have hmem : s ∈ rest := (List.mem_cons.mp hs).resolve_left fun heq => hv heq.symm
      rw [if_neg hv, Nat.zero_add]
      exact ih candidates_nodup.2 hmem

/-- Where nothing occurs twice in a minute, the bucket has each contender once. -/
theorem tuplesAt_perm_contenders (candidates_nodup : candidates.Nodup)
    (once : OncePerMinute simulate candidates) (minute : Int) (target : String) :
    ((tuplesAt simulate candidates minute target).map Tuple.s).Perm
      (contenders simulate candidates minute target) := by
  have hnodup : ((tuplesAt simulate candidates minute target).map Tuple.s).Nodup := by
    rw [List.nodup_iff_count_le_one]
    intro s
    by_cases hmem : s ∈ (tuplesAt simulate candidates minute target).map Tuple.s
    · obtain ⟨hs, htarget⟩ := List.mem_filter.mp (mem_contenders.mpr hmem)
      obtain ⟨rfl, -⟩ := of_decide_eq_true htarget
      rw [count_tuplesAt candidates_nodup hs]
      exact List.nodup_iff_count_le_one.mp (once s hs) minute
    · rw [List.count_eq_zero.mpr hmem]
      omega
  have hcontenders : (contenders simulate candidates minute target).Nodup :=
    candidates_nodup.filter _
  rw [List.perm_ext_iff_of_nodup hnodup hcontenders]
  intro s
  exact mem_contenders.symm

/-! ### Exactness -/

theorem best_unique (ids : (candidates.map (·.id)).Nodup) {v w : Schedule}
    (hv : Best (contenders simulate candidates minute target) v)
    (hw : Best (contenders simulate candidates minute target) w) : v = w := by
  have hid : v.id = w.id := (hv.outranks w hw.mem).antisymm (hw.outranks v hv.mem)
  exact List.inj_on_of_nodup_map ids (List.mem_filter.mp hv.mem).1 (List.mem_filter.mp hw.mem).1 hid

/-- With one occurrence a minute the others behind the first are the other contenders. -/
theorem losers_of_once (ids : (candidates.map (·.id)).Nodup)
    (once : OncePerMinute simulate candidates) {w : Schedule} {rest : List Schedule}
    (hranked : ranked ((tuplesAt simulate candidates minute target).map Tuple.s) = w :: rest) :
    (w :: rest).Perm (contenders simulate candidates minute target) ∧
      w.id ∉ rest.map (·.id) ∧ (rest.map (·.id)).Nodup := by
  have hperm : (w :: rest).Perm (contenders simulate candidates minute target) := by
    rw [← hranked]
    exact (ranked_perm _).trans (tuplesAt_perm_contenders ids.of_map once minute target)
  have hids : ((w :: rest).map (·.id)).Nodup :=
    ((hperm.map _).nodup_iff).mpr (ids.sublist (List.filter_sublist.map _))
  rw [List.map_cons, List.nodup_cons] at hids
  exact ⟨hperm, hids.1, hids.2⟩

/-- What is in a conflict entry is what the result has at its minute and target. -/
theorem conflict_at {c : SimulationConflict}
    (h : c ∈ (simulateCandidates simulate isoLe candidates).conflicts) :
    ∃ w rest, ranked ((tuplesAt simulate candidates (minuteOf c.firesAt) c.target).map Tuple.s) =
        w :: rest ∧ c.winnerId = w.id ∧ c.loserIds = rest.map (·.id) := by
  have hmem : c ∈ (simulateCandidates simulate isoLe candidates).conflicts.filter
      (·.isAt (minuteOf c.firesAt) c.target) :=
    List.mem_filter.mpr ⟨h, decide_eq_true ⟨rfl, rfl⟩⟩
  rcases result_at simulate isoLe candidates (minuteOf c.firesAt) c.target with
    ⟨-, -, hnone⟩ | ⟨fires, w, rest, -, hranked, -, hconflicts⟩
  · rw [hnone] at hmem
    cases hmem
  · rw [hconflicts] at hmem
    split at hmem
    · cases hmem
    · have heq := List.mem_singleton.mp hmem
      exact ⟨w, rest, hranked, congrArg SimulationConflict.winnerId heq,
        congrArg SimulationConflict.loserIds heq⟩

theorem exact_of_once (ids : (candidates.map (·.id)).Nodup)
    (once : OncePerMinute simulate candidates) :
    SimulationExact simulate candidates (simulateCandidates simulate isoLe candidates) := by
  refine ⟨?_, ?_, ?_, ?_, ?_⟩
  · intro minute target hnone
    rcases result_at simulate isoLe candidates minute target with
      ⟨-, hsilent, -⟩ | ⟨fires, w, rest, -, hranked, -, -⟩
    · exact hsilent
    · obtain ⟨hperm, -⟩ := losers_of_once ids once hranked
      rw [hnone] at hperm
      exact absurd (List.perm_nil.mp hperm) (List.cons_ne_nil _ _)
  · intro minute target v hbest
    rcases result_at simulate isoLe candidates minute target with
      ⟨hempty, -, -⟩ | ⟨fires, w, rest, hminute, hranked, hoccurrences, -⟩
    · have hmem := mem_contenders.mp hbest.mem
      rw [hempty] at hmem
      cases hmem
    · have hw := best_contenders.mpr (best_of_ranked hranked)
      rw [best_unique ids hbest hw]
      exact ⟨fires, hminute, hoccurrences⟩
  · intro minute target hfew
    rcases result_at simulate isoLe candidates minute target with
      ⟨-, -, hpeaceful⟩ | ⟨fires, w, rest, -, hranked, -, hconflicts⟩
    · exact hpeaceful
    · obtain ⟨hperm, -⟩ := losers_of_once ids once hranked
      have hlength := hperm.length_eq
      rw [List.length_cons] at hlength
      have hrest : rest = [] := List.eq_nil_of_length_eq_zero (by omega)
      rw [hconflicts, if_pos hrest]
  · intro minute target v hseveral hbest
    rcases result_at simulate isoLe candidates minute target with
      ⟨hempty, -, -⟩ | ⟨fires, w, rest, hminute, hranked, -, hconflicts⟩
    · have hmem := mem_contenders.mp hbest.mem
      rw [hempty] at hmem
      cases hmem
    · obtain ⟨hperm, hself, hnodup⟩ := losers_of_once ids once hranked
      have hw := best_contenders.mpr (best_of_ranked hranked)
      obtain rfl := best_unique ids hbest hw
      have hlength := hperm.length_eq
      rw [List.length_cons] at hlength
      have hne : rest ≠ [] := by
        rintro rfl
        rw [List.length_nil] at hlength
        omega
      rw [if_neg hne] at hconflicts
      refine ⟨fires, rest.map (·.id), hminute, hconflicts, hnodup, ?_⟩
      intro id
      constructor
      · intro hid
        refine ⟨fun heq => hself (heq ▸ hid), ?_⟩
        obtain ⟨u, hu, rfl⟩ := List.mem_map.mp hid
        exact ⟨u, hperm.mem_iff.mp (List.mem_cons_of_mem _ hu), rfl⟩
      · rintro ⟨hid, u, hu, rfl⟩
        rcases List.mem_cons.mp (hperm.mem_iff.mpr hu) with rfl | hrest
        · exact absurd rfl hid
        · exact List.mem_map_of_mem hrest
  · intro c hc
    obtain ⟨w, rest, hranked, hwinner, hlosers⟩ := conflict_at hc
    obtain ⟨-, hself, -⟩ := losers_of_once ids once hranked
    rw [hwinner, hlosers]
    exact hself

theorem once_of_exact (candidates_nodup : candidates.Nodup)
    (exact : SimulationExact simulate candidates
      (simulateCandidates simulate isoLe candidates)) : OncePerMinute simulate candidates := by
  intro s hs
  rw [List.nodup_iff_count_le_one]
  intro minute
  by_contra htwice
  rw [not_le, ← count_tuplesAt candidates_nodup hs] at htwice
  rcases result_at simulate isoLe candidates minute (targetKeyFor s) with
    ⟨hempty, -, -⟩ | ⟨fires, w, rest, hminute, hranked, -, hconflicts⟩
  · rw [hempty] at htwice
    simp at htwice
  · rw [← (ranked_perm _).count_eq s, hranked] at htwice
    have hbest := best_contenders.mpr (best_of_ranked hranked)
    by_cases hw : w = s
    · -- the winner is one of its own losers
      subst hw
      rw [List.count_cons_self] at htwice
      have hmem : w ∈ rest := List.count_pos_iff.mp (by omega)
      rw [if_neg (List.ne_nil_of_mem hmem)] at hconflicts
      have hc : (⟨fires, targetKeyFor w, w.id, rest.map (·.id)⟩ : SimulationConflict) ∈
          (simulateCandidates simulate isoLe candidates).conflicts := by
        apply List.mem_of_mem_filter
        rw [hconflicts]
        exact List.mem_singleton_self _
      exact exact.noSelf _ hc (List.mem_map_of_mem hmem)
    · -- a loser is named twice
      rw [List.count_cons_of_ne hw] at htwice
      have hmem : s ∈ rest := List.count_pos_iff.mp (by omega)
      rw [if_neg (List.ne_nil_of_mem hmem)] at hconflicts
      have hs' : s ∈ contenders simulate candidates minute (targetKeyFor s) := by
        rw [mem_contenders, ← (ranked_perm _).mem_iff, hranked]
        exact List.mem_cons_of_mem _ hmem
      have hseveral : 2 ≤ (contenders simulate candidates minute (targetKeyFor s)).length := by
        have hsub : [w, s] ⊆ contenders simulate candidates minute (targetKeyFor s) := by
          intro v hv
          rcases List.mem_pair.mp hv with rfl | rfl
          · exact hbest.mem
          · exact hs'
        have hpair : [w, s].Nodup := by simp [hw]
        exact (List.subperm_of_subset hpair hsub).length_le
      obtain ⟨fires', loserIds, -, hentry, hnodup, -⟩ := exact.conflict _ _ w hseveral hbest
      rw [hconflicts] at hentry
      have hids : rest.map (·.id) = loserIds :=
        congrArg SimulationConflict.loserIds (List.singleton_inj.mp hentry)
      rw [← hids] at hnodup
      have honce := List.nodup_iff_count_le_one.mp hnodup.of_map s
      omega

end

/-- For every table of schedules and every target: the simulated result is exact iff no candidate
    has two occurrences in one minute. -/
theorem simulateForTarget_exact_iff (simulate : Schedule → List Int) (isoLe : Int → Int → Bool)
    (t : ScheduleTables) (target : Option ScheduleTables.Target) :
    SimulationExact simulate (t.candidates target) (simulateForTarget simulate isoLe t target) ↔
      OncePerMinute simulate (t.candidates target) := by
  have hids : ((t.candidates target).map (·.id)).Nodup :=
    (nodup_getEnabledSchedules t.schedules.ids_nodup).sublist (List.filter_sublist.map _)
  exact ⟨once_of_exact hids.of_map, exact_of_once hids⟩

/-- A schedule for every player that fires every ten seconds. -/
def everyTenSeconds : Schedule where
  id := 1
  name := "Ticker"
  playlistId := 1
  clientId := none
  groupId := none
  startTime := none
  endTime := none
  daysOfWeek := "0,1,2,3,4,5,6"
  priority := 50
  enabled := true
  cronExpression := some "*/10 * * * * *"
  durationSeconds := none
  timezone := none
  conditions := none
  interruptMode := .assign

def tickerTables : ScheduleTables where
  schedules := ⟨[everyTenSeconds], 2, by decide, by decide⟩
  clients := []
  clientGroups := []
  clientGroupMembers := []
  playlists := [1]
  scheduleTemplates := []

theorem candidates_tickerTables : tickerTables.candidates none = [everyTenSeconds] := by
  have hsorted : getEnabledSchedules [everyTenSeconds] = [everyTenSeconds] :=
    List.mergeSort_singleton _
  show (getEnabledSchedules [everyTenSeconds]).filter (ScheduleTables.considers none) = _
  rw [hsorted]
  rfl

/-- The only schedule is in conflict with itself. -/
theorem not_simulationExact_ticker :
    (simulateForTarget (fun _ => [0, 10000]) (fun a b => decide (a ≤ b)) tickerTables
        none).conflicts = [⟨0, "global", 1, [1]⟩] ∧
      ¬ SimulationExact (fun _ => [0, 10000]) (tickerTables.candidates none)
        (simulateForTarget (fun _ => [0, 10000]) (fun a b => decide (a ≤ b)) tickerTables
          none) := by
  have hconflicts : (simulateForTarget (fun _ => [0, 10000]) (fun a b => decide (a ≤ b))
      tickerTables none).conflicts = [⟨0, "global", 1, [1]⟩] := by
    show (simulatedBuckets _ (tickerTables.candidates none)).flatMap Bucket.conflicts = _
    rw [candidates_tickerTables]
    have hbuckets : simulatedBuckets (fun _ => [0, 10000]) [everyTenSeconds] =
        [bucketOf ⟨0, everyTenSeconds⟩ [⟨10000, everyTenSeconds⟩]] := by decide
    have huniform : (bucketOf ⟨0, everyTenSeconds⟩ [⟨10000, everyTenSeconds⟩]).Uniform :=
      ⟨by decide, by decide⟩
    have hranked : ranked [everyTenSeconds, everyTenSeconds] =
        [everyTenSeconds, everyTenSeconds] := List.mergeSort_of_pairwise (by decide)
    rw [hbuckets, List.flatMap_singleton, huniform.conflicts_eq hranked]
    decide
  refine ⟨hconflicts, ?_⟩
  intro exact
  have hself := exact.noSelf ⟨0, "global", 1, [1]⟩ (hconflicts ▸ List.mem_singleton_self _)
  exact hself (List.mem_singleton_self _)

end Montr.Server
