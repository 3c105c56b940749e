import Mathlib.Data.List.Basic
import Mathlib.Data.List.Nodup

namespace Montr.Server

/-!
# Job tables

`thumbnail_jobs` and `upload_completion_jobs` with the statements of the SQL adapters on them. The
two differ in what a job is given and in what it ends as; `JobKind` says so.

* `enqueue`, `nextQueued`, `claim`, `mark`, `requeueRunning` — one statement each;
* `Keyed` — ids are distinct and older than the next one;
* `stateOf` — the state of a job, and what each statement makes of it.
-/

/-- The `state` of a job. -/
inductive QueueState
  | queued
  | running
  | done
  | duplicate
  | failed
  deriving DecidableEq, Repr

/-- A job with its input: `media_id`, or the columns that describe an upload. -/
structure Job (π : Type) where
  id : Nat
  input : π
  state : QueueState
  attempts : Nat
  createdAt : Nat
  deriving DecidableEq, Repr

structure JobTable (π : Type) where
  rows : List (Job π)
  nextId : Nat
  deriving DecidableEq, Repr

/-- What the tables differ in. -/
structure JobKind (π : Type) where
  /-- two inputs that a unique index keeps apart -/
  conflicts : π → π → Bool
  /-- what a job ends as when its processing ends well -/
  outcomes : List QueueState
  outcomes_ended : ∀ state ∈ outcomes, state ≠ .queued

/-- `thumbnail_jobs`: every insert is a new row. -/
def thumbnailJobs : JobKind Nat where
  conflicts _ _ := false
  outcomes := [.done]
  outcomes_ended := by decide

structure UploadCompletionJobInput where
  uploadId : String
  storageBackend : String
  storageKey : String
  originalFilename : String
  mimeType : String
  totalSize : Nat
  folderId : Option Nat
  deriving DecidableEq, Repr

/-- `upload_completion_jobs`: one row for an upload. -/
def uploadCompletionJobs : JobKind UploadCompletionJobInput where
  conflicts a b := a.uploadId == b.uploadId
  outcomes := [.done, .duplicate]
  outcomes_ended := by decide

variable {π : Type}

/-- `ORDER BY created_at ASC, id ASC`. -/
def Job.notAfter (a b : Job π) : Bool :=
  decide (a.createdAt < b.createdAt) || a.createdAt == b.createdAt && decide (a.id ≤ b.id)

/-- The row that the `WHERE` of a claim finds. -/
def Job.isClaimable (id : Nat) (j : Job π) : Bool := j.id == id && j.state == .queued

/-- `SET state = 'running', attempts = attempts + 1 WHERE id = .. AND state = 'queued'`. -/
def Job.claim (id : Nat) (j : Job π) : Job π :=
  if j.isClaimable id then { j with state := .running, attempts := j.attempts + 1 } else j

/-- `SET state = .. WHERE id = ..`. -/
def Job.mark (id : Nat) (state : QueueState) (j : Job π) : Job π :=
  if j.id = id then { j with state := state } else j

/-- `SET state = 'queued' WHERE state = 'running'`. -/
def Job.requeue (j : Job π) : Job π :=
  if j.state = .running then { j with state := .queued } else j

@[simp] theorem Job.id_claim (id : Nat) (j : Job π) : (j.claim id).id = j.id := by
  unfold Job.claim
  split <;> rfl

@[simp] theorem Job.id_mark (id : Nat) (state : QueueState) (j : Job π) :
    (j.mark id state).id = j.id := by
  unfold Job.mark
  split <;> rfl

@[simp] theorem Job.id_requeue (j : Job π) : j.requeue.id = j.id := by
  unfold Job.requeue
  split <;> rfl

namespace JobTable

variable (t : JobTable π)

/-- `INSERT`, ignored where a unique index forbids it. -/
def enqueue (kind : JobKind π) (input : π) (createdAt : Nat) : JobTable π :=
  if t.rows.any fun j => kind.conflicts j.input input then t
  else { rows := t.rows ++ [⟨t.nextId, input, .queued, 0, createdAt⟩], nextId := t.nextId + 1 }

/-- The candidate of a claim. -/
def nextQueued : Option Nat :=
  ((t.rows.filter (·.state == .queued)).mergeSort Job.notAfter).head?.map (·.id)

/-- The conditional `UPDATE` of a claim, and whether it affected one row. -/
def claim (id : Nat) : Bool × JobTable π :=
  (t.rows.countP (Job.isClaimable id) == 1, { t with rows := t.rows.map (Job.claim id) })

/-- `markThumbnailJobDone` and the others. -/
def mark (id : Nat) (state : QueueState) : JobTable π :=
  { t with rows := t.rows.map (Job.mark id state) }

def requeueRunning : JobTable π := { t with rows := t.rows.map Job.requeue }

/-- `SELECT * .. WHERE id = ..`. -/
def byId (id : Nat) : Option (Job π) := t.rows.find? (·.id == id)

def stateOf (id : Nat) : Option QueueState := (t.byId id).map (·.state)

/-- Ids are distinct, and no id is used again. -/
structure Keyed (t : JobTable π) : Prop where
  ids_nodup : (t.rows.map (·.id)).Nodup
  id_lt : ∀ j ∈ t.rows, j.id < t.nextId

section

variable {t} {kind : JobKind π} {id k : Nat} {j : Job π} {state : QueueState}

/-! ### Rows by their ids -/

theorem byId_some (h : t.byId id = some j) : j ∈ t.rows ∧ j.id = id :=
  ⟨List.mem_of_find?_eq_some h, by simpa using List.find?_some h⟩

theorem Keyed.byId (keyed : t.Keyed) (hj : j ∈ t.rows) : t.byId j.id = some j := by
  cases hfound : t.byId j.id with
  | none =>
    have hnone := List.find?_eq_none.mp hfound j hj
    exact absurd (beq_self_eq_true j.id) hnone
  | some other =>
    obtain ⟨hmem, hid⟩ := byId_some hfound
    rw [List.inj_on_of_nodup_map keyed.ids_nodup hmem hj hid]

theorem Keyed.lt_of_byId (keyed : t.Keyed) (h : t.byId id = some j) : id < t.nextId := by
  obtain ⟨hmem, rfl⟩ := byId_some h
  exact keyed.id_lt j hmem

theorem Keyed.lt_of_stateOf (keyed : t.Keyed) (h : t.stateOf id = some state) : id < t.nextId := by
  obtain ⟨j, hj, -⟩ := Option.map_eq_some_iff.mp h
  exact keyed.lt_of_byId hj

/-- An update of rows that keeps the ids. -/
theorem byId_map {f : Job π → Job π} (keeps : ∀ j, (f j).id = j.id) (id : Nat) :
    ({ t with rows := t.rows.map f } : JobTable π).byId id = (t.byId id).map f := by
  rw [JobTable.byId, JobTable.byId, List.find?_map]
  refine congrArg (Option.map f) (congrArg (List.find? · t.rows) (funext fun j => ?_))
  rw [Function.comp_apply, keeps]

theorem Keyed.map (keyed : t.Keyed) {f : Job π → Job π} (keeps : ∀ j, (f j).id = j.id) :
    ({ t with rows := t.rows.map f } : JobTable π).Keyed where
  ids_nodup := by
    have hids : (t.rows.map f).map (·.id) = t.rows.map (·.id) := by
      rw [List.map_map]
      exact List.map_congr_left fun j _ => keeps j
    exact hids ▸ keyed.ids_nodup
  id_lt j hj := by
    obtain ⟨j, hmem, rfl⟩ := List.mem_map.mp hj
    exact keeps j ▸ keyed.id_lt j hmem

/-! ### The statements -/

theorem byId_claim (t : JobTable π) (id k : Nat) :
    (t.claim id).2.byId k = (t.byId k).map (Job.claim id) :=
  byId_map (Job.id_claim id) k

theorem byId_mark (t : JobTable π) (id : Nat) (state : QueueState) (k : Nat) :
    (t.mark id state).byId k = (t.byId k).map (Job.mark id state) :=
  byId_map (Job.id_mark id state) k

theorem byId_requeueRunning (t : JobTable π) (k : Nat) :
    t.requeueRunning.byId k = (t.byId k).map Job.requeue :=
  byId_map Job.id_requeue k

/-- A row is added, or none is. -/
theorem byId_enqueue (keyed : t.Keyed) (kind : JobKind π) (input : π) (createdAt : Nat) :
    t.enqueue kind input createdAt = t ∨
      (t.enqueue kind input createdAt).nextId = t.nextId + 1 ∧
      ∀ k, (t.enqueue kind input createdAt).byId k =
        if k = t.nextId then some ⟨t.nextId, input, .queued, 0, createdAt⟩ else t.byId k := by
  unfold enqueue
  split
  · exact .inl rfl
  · refine .inr ⟨rfl, fun k => ?_⟩
    show List.find? _ (t.rows ++ [_]) = _
    rw [List.find?_append]
    by_cases hk : k = t.nextId
    · have hnone : t.rows.find? (·.id == k) = none := by
        rw [List.find?_eq_none]
        intro j hj
        have hlt := keyed.id_lt j hj
        simp only [beq_iff_eq]
        omega
      rw [hnone, if_pos hk]
      simp [hk]
    · rw [if_neg hk]
      have hother : (t.nextId == k) = false := by simpa using Ne.symm hk
      simp [hother, JobTable.byId]

theorem Keyed.enqueue (keyed : t.Keyed) (input : π) (createdAt : Nat) :
    (t.enqueue kind input createdAt).Keyed := by
  unfold JobTable.enqueue
  split
  · exact keyed
  · refine ⟨?_, fun j hj => ?_⟩
    · rw [List.map_append, List.map_singleton, List.nodup_append]
      refine ⟨keyed.ids_nodup, List.nodup_singleton _, fun a ha b hb => ?_⟩
      obtain ⟨j, hj, rfl⟩ := List.mem_map.mp ha
      obtain rfl := List.mem_singleton.mp hb
      exact Nat.ne_of_lt (keyed.id_lt j hj)
    · obtain hj | hj := List.mem_append.mp hj
      · exact Nat.lt_succ_of_lt (keyed.id_lt j hj)
      · obtain rfl := List.mem_singleton.mp hj
        exact Nat.lt_succ_self _

theorem Keyed.claim (keyed : t.Keyed) : (t.claim id).2.Keyed := keyed.map (Job.id_claim id)

theorem Keyed.mark (keyed : t.Keyed) : (t.mark id state).Keyed := keyed.map (Job.id_mark id state)

theorem Keyed.requeueRunning (keyed : t.Keyed) : t.requeueRunning.Keyed :=
  keyed.map Job.id_requeue

/-- A claim affects one row exactly when the job is queued. -/
theorem claim_affects_iff (keyed : t.Keyed) :
    (t.claim id).1 = true ↔ t.stateOf id = some .queued := by
  have hone : t.rows.countP (Job.isClaimable id) ≤ 1 := by
    have hids : t.rows.countP (Job.isClaimable id) ≤ t.rows.countP fun j => j.id == id := by
      refine List.countP_mono_left fun j _ h => ?_
      exact (Bool.and_eq_true .. ▸ h).1
    have hcount := List.nodup_iff_count_le_one.mp keyed.ids_nodup id
    rw [List.count, List.countP_map] at hcount
    exact Nat.le_trans hids hcount
  rw [claim, beq_iff_eq, stateOf, Option.map_eq_some_iff]
  constructor
  · intro h
    obtain ⟨j, hj, hclaimable⟩ := List.countP_pos_iff.mp (h ▸ Nat.one_pos)
    obtain ⟨hid, hstate⟩ := Bool.and_eq_true .. ▸ hclaimable
    exact ⟨j, beq_iff_eq.mp hid ▸ keyed.byId hj, beq_iff_eq.mp hstate⟩
  · rintro ⟨j, hj, hstate⟩
    obtain ⟨hmem, hid⟩ := byId_some hj
    have hpos : 0 < t.rows.countP (Job.isClaimable id) :=
      List.countP_pos_iff.mpr ⟨j, hmem, by simp [Job.isClaimable, hid, hstate]⟩
    omega

/-- A claim that affects no row changes none. -/
theorem claim_of_not_queued (keyed : t.Keyed) (h : t.stateOf id ≠ some .queued) :
    (t.claim id).2 = t := by
  have hall : t.rows.map (Job.claim id) = t.rows := by
    refine (List.map_congr_left fun j hj => if_neg fun hclaimable => h ?_).trans (List.map_id' _)
    obtain ⟨hid, hstate⟩ := Bool.and_eq_true .. ▸ hclaimable
    rw [stateOf, ← beq_iff_eq.mp hid, keyed.byId hj, Option.map_some, beq_iff_eq.mp hstate]
  rw [claim, hall]

/-- The job is running after a claim that affects it. -/
theorem stateOf_claim (h : t.stateOf id = some .queued) :
    (t.claim id).2.stateOf id = some .running := by
  obtain ⟨j, hj, hstate⟩ := Option.map_eq_some_iff.mp h
  obtain ⟨-, hid⟩ := byId_some hj
  rw [stateOf, byId_claim, hj, Option.map_some, Option.map_some, Job.claim,
    if_pos (by simp [Job.isClaimable, hid, hstate])]

/-- No mark of another state queues a job. -/
theorem stateOf_mark_ne (hstate : state ≠ .queued) :
    (t.mark id state).stateOf id ≠ some .queued := by
  intro hqueued
  rw [stateOf, byId_mark, Option.map_map] at hqueued
  obtain ⟨j, hj, hmarked⟩ := Option.map_eq_some_iff.mp hqueued
  obtain ⟨-, hid⟩ := byId_some hj
  rw [Function.comp_apply, Job.mark, if_pos hid] at hmarked
  exact hstate hmarked

theorem stateOf_mark_of_ne (h : k ≠ id) : (t.mark id state).stateOf k = t.stateOf k := by
  rw [stateOf, byId_mark, Option.map_map, stateOf]
  refine Option.map_congr fun j hj => ?_
  obtain ⟨-, rfl⟩ := byId_some hj
  rw [Function.comp_apply, Job.mark, if_neg h]

theorem stateOf_claim_of_ne (h : k ≠ id) : (t.claim id).2.stateOf k = t.stateOf k := by
  rw [stateOf, byId_claim, Option.map_map, stateOf]
  refine Option.map_congr fun j hj => ?_
  obtain ⟨-, rfl⟩ := byId_some hj
  rw [Function.comp_apply, Job.claim, if_neg (by simp [Job.isClaimable, h])]

/-- A job that is queued after a requeue was queued or running. -/
theorem stateOf_requeueRunning (h : t.requeueRunning.stateOf id = some .queued) :
    t.stateOf id = some .queued ∨ t.stateOf id = some .running := by
  rw [stateOf, byId_requeueRunning, Option.map_map] at h
  obtain ⟨j, hj, hstate⟩ := Option.map_eq_some_iff.mp h
  rw [Function.comp_apply, Job.requeue] at hstate
  split at hstate
  next hrunning => exact .inr (by rw [stateOf, hj, Option.map_some, hrunning])
  next => exact .inl (by rw [stateOf, hj, Option.map_some, hstate])

/-- A statement of another part of the server leaves the jobs that are there. -/
theorem stateOf_enqueue (keyed : t.Keyed) (kind : JobKind π) (input : π) (createdAt : Nat)
    (h : id < t.nextId) : (t.enqueue kind input createdAt).stateOf id = t.stateOf id := by
  obtain heq | ⟨-, hrows⟩ := byId_enqueue keyed kind input createdAt
  · rw [heq]
  · rw [stateOf, hrows, if_neg (Nat.ne_of_lt h), stateOf]

theorem nextId_le_enqueue (t : JobTable π) (kind : JobKind π) (input : π) (createdAt : Nat) :
    t.nextId ≤ (t.enqueue kind input createdAt).nextId := by
  unfold enqueue
  split
  · exact Nat.le_refl _
  · exact Nat.le_succ _

/-- The candidate is queued. -/
theorem stateOf_of_nextQueued (keyed : t.Keyed) (h : t.nextQueued = some id) :
    t.stateOf id = some .queued := by
  obtain ⟨j, hj, rfl⟩ := Option.map_eq_some_iff.mp h
  have hmem := List.mem_mergeSort.mp (List.mem_of_head? hj)
  obtain ⟨hrow, hstate⟩ := List.mem_filter.mp hmem
  rw [stateOf, keyed.byId hrow, Option.map_some, beq_iff_eq.mp hstate]

end

end JobTable

end Montr.Server
