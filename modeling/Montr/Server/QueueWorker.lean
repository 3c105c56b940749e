import Montr.Lib.Transition
import Montr.Server.JobTable

namespace Montr.Server

open Transition

/-!
# The worker of a queue

`ThumbnailQueueService` and `UploadCompletionQueueService`, which have one shape: two flags, callers
of `start` and `stop`, and a loop that drains the job table. Between two awaits nothing intervenes;
an awaited statement takes effect at some moment before its promise settles.

* `QueueService.step` — one segment of a call or of the loop, or one statement;
* `SingleWorker` — one loop, one job in flight, and the job is not put back into the queue;
* `Settled` — `start` is not called again before the last loop has ended;
* `singleWorker_of_settled` — every run of such calls.
-/

/-- Where a call of `start` waits. -/
inductive StartStage
  /-- for `getDatabase` -/
  | connecting
  /-- for the `UPDATE` that requeues, before it takes effect and after -/
  | requeueing
  | requeued
  deriving DecidableEq, Repr

/-- Where a loop waits. -/
inductive LoopStage
  /-- for `getDatabase` -/
  | connecting
  /-- for the candidate of a claim -/
  | selecting
  | selected (candidate : Option Nat)
  /-- for the compare-and-set -/
  | updating (candidate : Nat)
  | updated (candidate : Nat) (affected : Bool)
  /-- for the row that was claimed -/
  | fetching (job : Nat)
  | fetched (job : Nat)
  /-- for `mediaService` -/
  | processing (job : Nat)
  /-- for the `UPDATE` of the state -/
  | marking (job : Nat) (state : QueueState)
  | marked (job : Nat) (state : QueueState)
  /-- for the timer -/
  | sleeping
  deriving DecidableEq, Repr

/-- The job in flight: claimed, and not yet marked. -/
def LoopStage.job : LoopStage → Option Nat
  | .updated candidate true => some candidate
  | .fetching job | .fetched job | .processing job | .marking job _ => some job
  | _ => none

/-- The service, the calls under way and the table. -/
structure QueueService (π : Type) where
  running : Bool
  stopRequested : Bool
  starts : List StartStage
  loops : List LoopStage
  jobs : JobTable π
  deriving DecidableEq, Repr

inductive ServiceEvent (π : Type)
  /-- another part of the server queues a job -/
  | enqueue (input : π) (createdAt : Nat)
  | start
  | stop
  /-- `getDatabase` of a call of `start` settles -/
  | startConnected (i : Nat) (ok : Bool)
  /-- the jobs are requeued -/
  | requeue (i : Nat)
  /-- that call ends, well or not -/
  | startSettled (i : Nat)
  /-- the statement that a loop waits for takes effect -/
  | execute (i : Nat)
  /-- the promise that a loop waits for resolves -/
  | resume (i : Nat)
  /-- the processing ends well, with an outcome -/
  | processed (i : Nat) (outcome : QueueState)
  /-- the promise that a loop waits for rejects -/
  | reject (i : Nat)
  deriving DecidableEq, Repr

namespace QueueService

variable {π : Type} (kind : JobKind π) (s : QueueService π)

/-- `void this.runLoop()` as far as the first await. -/
def spawn : QueueService π :=
  if s.stopRequested then { s with running := false }
  else { s with loops := s.loops ++ [.connecting] }

def setLoop (i : Nat) (stage : LoopStage) : QueueService π :=
  { s with loops := s.loops.set i stage }

/-- The `while` of `runLoop`, as far as the next await. -/
def iterate (i : Nat) : QueueService π :=
  if s.stopRequested then { s with running := false, loops := s.loops.eraseIdx i }
  else s.setLoop i .connecting

/-- The statement takes effect. -/
def execute (i : Nat) : LoopStage → Option (QueueService π)
  | .selecting => some (s.setLoop i (.selected s.jobs.nextQueued))
  | .updating candidate =>
    let (affected, jobs) := s.jobs.claim candidate
    some ({ s with jobs := jobs }.setLoop i (.updated candidate affected))
  | .fetching job => some (s.setLoop i (.fetched job))
  | .marking job state =>
    some ({ s with jobs := s.jobs.mark job state }.setLoop i (.marked job state))
  | _ => none

/-- `runOne` and `runLoop` after a promise that resolved. -/
def resume (i : Nat) : LoopStage → Option (QueueService π)
  | .connecting => some (s.setLoop i .selecting)
  | .selected none => some (s.setLoop i .sleeping)
  | .selected (some candidate) => some (s.setLoop i (.updating candidate))
  | .updated candidate true => some (s.setLoop i (.fetching candidate))
  -- someone else claimed it
  | .updated _ false => some (s.setLoop i .selecting)
  | .fetched job => some (s.setLoop i (.processing job))
  | .marked _ _ | .sleeping => some (s.iterate i)
  | _ => none

/-- The same after one that rejected. -/
def reject (i : Nat) : LoopStage → Option (QueueService π)
  | .processing job => some (s.setLoop i (.marking job .failed))
  | .marking job state | .marked job state =>
    some (s.setLoop i (if state = .failed then .sleeping else .marking job .failed))
  | .sleeping => none
  | _ => some (s.setLoop i .sleeping)

def step (s : QueueService π) : ServiceEvent π → Option (QueueService π)
  | .enqueue input createdAt => some { s with jobs := s.jobs.enqueue kind input createdAt }
  | .start =>
    some (if s.running then s else
      { s with running := true, stopRequested := false, starts := s.starts ++ [.connecting] })
  | .stop => some { s with stopRequested := true, running := false }
  | .startConnected i ok =>
    match s.starts[i]? with
    | some .connecting =>
      some (if ok then { s with starts := s.starts.set i .requeueing }
        else { s with starts := s.starts.eraseIdx i }.spawn)
    | _ => none
  | .requeue i =>
    match s.starts[i]? with
    | some .requeueing =>
      some { s with starts := s.starts.set i .requeued, jobs := s.jobs.requeueRunning }
    | _ => none
  | .startSettled i =>
    match s.starts[i]? with
    | some .requeueing | some .requeued => some { s with starts := s.starts.eraseIdx i }.spawn
    | _ => none
  | .execute i => s.loops[i]?.bind (s.execute i)
  | .resume i => s.loops[i]?.bind (s.resume i)
  | .processed i outcome =>
    match s.loops[i]? with
    | some (.processing job) =>
      if outcome ∈ kind.outcomes then some (s.setLoop i (.marking job outcome)) else none
    | _ => none
  | .reject i => s.loops[i]?.bind (s.reject i)

/-- The service of a new process, over whatever is in the table. -/
def initial (jobs : JobTable π) : QueueService π := ⟨false, false, [], [], jobs⟩

/-- **One worker.** -/
structure SingleWorker (s : QueueService π) : Prop where
  one_loop : s.loops.length ≤ 1
  /-- no job is processed twice at once -/
  distinct : (s.loops.filterMap LoopStage.job).Nodup
  /-- a job in flight is not back in the queue -/
  not_requeued : ∀ job ∈ s.loops.filterMap LoopStage.job, s.jobs.stateOf job ≠ some .queued

/-- A call of `start` that does anything comes when the loop before has ended, and no other such
    call is under way. -/
def Settled (s : QueueService π) (event : ServiceEvent π) : Prop :=
  event = .start → s.running = false → s.loops = [] ∧ s.starts = []

instance [DecidableEq π] (event : ServiceEvent π) : Decidable (s.Settled event) :=
  inferInstanceAs (Decidable (_ → _ → _ ∧ _))

/-! ### One start or one loop at a time -/

/-- What a loop knows of the table where it waits: the candidate is a row, and a job that it
    claimed is not queued. -/
def Knows (jobs : JobTable π) : LoopStage → Prop
  | .selected (some candidate) | .updating candidate | .updated candidate false =>
    candidate < jobs.nextId
  | .updated job true | .fetching job | .fetched job | .processing job =>
    job < jobs.nextId ∧ jobs.stateOf job ≠ some .queued
  | .marking job state | .marked job state =>
    job < jobs.nextId ∧ jobs.stateOf job ≠ some .queued ∧ state ≠ .queued
  | _ => True

/-- **The invariant**: a call of `start` is under way, or a loop, or neither. -/
structure Sole (s : QueueService π) : Prop where
  few : s.starts.length + s.loops.length ≤ 1
  keyed : s.jobs.Keyed
  knows : ∀ stage ∈ s.loops, Knows s.jobs stage

section

variable {kind} {s} {t : QueueService π} {jobs : JobTable π} {stage : LoopStage} {i : Nat}
  {event : ServiceEvent π}

/-- What a loop knows stays true when no job that is there changes. -/
theorem Knows.mono {jobs' : JobTable π} (next : jobs.nextId ≤ jobs'.nextId)
    (same : ∀ id < jobs.nextId, jobs'.stateOf id = jobs.stateOf id) (h : Knows jobs stage) :
    Knows jobs' stage := by
  cases stage with
  | connecting | selecting | sleeping => trivial
  | selected candidate =>
    cases candidate with
    | none => trivial
    | some candidate => exact Nat.lt_of_lt_of_le h next
  | updating candidate => exact Nat.lt_of_lt_of_le h next
  | updated candidate affected =>
    cases affected with
    | false => exact Nat.lt_of_lt_of_le h next
    | true => exact ⟨Nat.lt_of_lt_of_le h.1 next, same _ h.1 ▸ h.2⟩
  | fetching job | fetched job | processing job =>
    exact ⟨Nat.lt_of_lt_of_le h.1 next, same _ h.1 ▸ h.2⟩
  | marking job state | marked job state =>
    exact ⟨Nat.lt_of_lt_of_le h.1 next, same _ h.1 ▸ h.2.1, h.2.2⟩

/-- A loop that waits is the only one, and no start is under way. -/
theorem Sole.only_loop (sole : s.Sole) (h : s.loops[i]? = some stage) :
    i = 0 ∧ s.loops = [stage] ∧ s.starts = [] ∧ Knows s.jobs stage := by
  obtain ⟨hlt, hget⟩ := List.getElem?_eq_some_iff.mp h
  have hfew := sole.few
  have hone : s.loops.length = 1 := by omega
  obtain ⟨only, honly⟩ := List.length_eq_one_iff.mp hone
  obtain rfl : i = 0 := by omega
  obtain rfl : only = stage := by simpa [honly] using h
  refine ⟨rfl, honly, List.length_eq_zero_iff.mp (by omega), sole.knows only ?_⟩
  rw [honly]
  exact List.mem_singleton.mpr rfl

/-- A start under way is the only one, and there is no loop. -/
theorem Sole.only_start {start : StartStage} (sole : s.Sole) (h : s.starts[i]? = some start) :
    i = 0 ∧ s.starts = [start] ∧ s.loops = [] := by
  obtain ⟨hlt, hget⟩ := List.getElem?_eq_some_iff.mp h
  have hfew := sole.few
  have hone : s.starts.length = 1 := by omega
  obtain ⟨only, honly⟩ := List.length_eq_one_iff.mp hone
  obtain rfl : i = 0 := by omega
  obtain rfl : only = start := by simpa [honly] using h
  exact ⟨rfl, honly, List.length_eq_zero_iff.mp (by omega)⟩

theorem sole_of_loop (stage : LoopStage) (keyed : t.jobs.Keyed) (starts : t.starts = [])
    (loops : t.loops = [stage]) (knows : Knows t.jobs stage) : t.Sole where
  few := by
    rw [starts, loops]
    exact Nat.le_refl 1
  keyed := keyed
  knows other hother := by
    rw [loops] at hother
    obtain rfl := List.mem_singleton.mp hother
    exact knows

theorem sole_of_no_loop (keyed : t.jobs.Keyed) (starts : t.starts.length ≤ 1)
    (loops : t.loops = []) : t.Sole where
  few := by
    rw [loops]
    exact starts
  keyed := keyed
  knows other hother := by
    rw [loops] at hother
    exact absurd hother List.not_mem_nil

/-! ### The segments -/

theorem sole_spawn (keyed : s.jobs.Keyed) (starts : s.starts = []) (loops : s.loops = []) :
    s.spawn.Sole := by
  unfold spawn
  split
  · exact sole_of_no_loop keyed (by simp [starts]) loops
  · exact sole_of_loop .connecting keyed starts (by simp [loops]) trivial

theorem sole_iterate (keyed : s.jobs.Keyed) (starts : s.starts = []) (loops : s.loops = [stage]) :
    (s.iterate 0).Sole := by
  unfold iterate
  split
  · exact sole_of_no_loop keyed (by simp [starts]) (by simp [loops])
  · exact sole_of_loop .connecting keyed starts (by simp [setLoop, loops]) trivial

/-- The loop waits elsewhere, for the same table or another. -/
theorem sole_setLoop {stage' : LoopStage} (keyed : jobs.Keyed) (starts : s.starts = [])
    (loops : s.loops = [stage]) (knows : Knows jobs stage') :
    ({ s with jobs := jobs }.setLoop 0 stage').Sole :=
  sole_of_loop stage' keyed starts (by simp [setLoop, loops]) knows

/-- The table after a statement of another part of the server. -/
theorem Knows.enqueue (keyed : jobs.Keyed) {input : π} {createdAt : Nat} (h : Knows jobs stage) :
    Knows (jobs.enqueue kind input createdAt) stage :=
  h.mono (jobs.nextId_le_enqueue kind input createdAt) fun _ hid =>
    JobTable.stateOf_enqueue keyed kind input createdAt hid

/-- A claim that affects the job leaves it running. -/
theorem knows_claim {candidate : Nat} (keyed : jobs.Keyed) (hlt : candidate < jobs.nextId) :
    Knows (jobs.claim candidate).2 (.updated candidate (jobs.claim candidate).1) := by
  cases haffected : (jobs.claim candidate).1 with
  | false => exact hlt
  | true =>
    have hrunning := JobTable.stateOf_claim ((JobTable.claim_affects_iff keyed).mp haffected)
    exact ⟨hlt, by simp [hrunning]⟩

theorem sole_execute (sole : s.Sole) (hstage : s.loops[i]? = some stage)
    (h : s.execute i stage = some t) : t.Sole := by
  obtain ⟨rfl, hloops, hstarts, hknows⟩ := sole.only_loop hstage
  cases stage with
  | selecting =>
    obtain rfl := Option.some.inj h
    refine sole_setLoop sole.keyed hstarts hloops ?_
    cases hnext : s.jobs.nextQueued with
    | none => trivial
    | some candidate =>
      exact sole.keyed.lt_of_stateOf (JobTable.stateOf_of_nextQueued sole.keyed hnext)
  | updating candidate =>
    obtain rfl := Option.some.inj h
    exact sole_setLoop sole.keyed.claim hstarts hloops (knows_claim sole.keyed hknows)
  | fetching job =>
    obtain rfl := Option.some.inj h
    exact sole_setLoop sole.keyed hstarts hloops hknows
  | marking job state =>
    obtain rfl := Option.some.inj h
    refine sole_setLoop sole.keyed.mark hstarts hloops ⟨hknows.1, ?_, hknows.2.2⟩
    exact JobTable.stateOf_mark_ne hknows.2.2
  | connecting | selected | updated | fetched | processing | marked | sleeping =>
    exact absurd h (by simp [execute])

theorem sole_resume (sole : s.Sole) (hstage : s.loops[i]? = some stage)
    (h : s.resume i stage = some t) : t.Sole := by
  obtain ⟨rfl, hloops, hstarts, hknows⟩ := sole.only_loop hstage
  cases stage with
  | connecting =>
    obtain rfl := Option.some.inj h
    exact sole_setLoop sole.keyed hstarts hloops trivial
  | selected candidate =>
    cases candidate with
    | none =>
      obtain rfl := Option.some.inj h
      exact sole_setLoop sole.keyed hstarts hloops trivial
    | some candidate =>
      obtain rfl := Option.some.inj h
      exact sole_setLoop sole.keyed hstarts hloops hknows
  | updated candidate affected =>
    cases affected with
    | false =>
      obtain rfl := Option.some.inj h
      exact sole_setLoop sole.keyed hstarts hloops trivial
    | true =>
      obtain rfl := Option.some.inj h
      exact sole_setLoop sole.keyed hstarts hloops hknows
  | fetched job =>
    obtain rfl := Option.some.inj h
    exact sole_setLoop sole.keyed hstarts hloops hknows
  | marked | sleeping =>
    obtain rfl := Option.some.inj h
    exact sole_iterate sole.keyed hstarts hloops
  | selecting | updating | fetching | processing | marking =>
    exact absurd h (by simp [resume])

theorem sole_reject (sole : s.Sole) (hstage : s.loops[i]? = some stage)
    (h : s.reject i stage = some t) : t.Sole := by
  obtain ⟨rfl, hloops, hstarts, hknows⟩ := sole.only_loop hstage
  cases stage with
  | processing job =>
    obtain rfl := Option.some.inj h
    exact sole_setLoop sole.keyed hstarts hloops ⟨hknows.1, hknows.2, by simp⟩
  | marking job state | marked job state =>
    obtain rfl := Option.some.inj h
    by_cases hfailed : state = .failed
    · rw [if_pos hfailed]
      exact sole_setLoop sole.keyed hstarts hloops trivial
    · rw [if_neg hfailed]
      exact sole_setLoop sole.keyed hstarts hloops ⟨hknows.1, hknows.2.1, by simp⟩
  | sleeping => exact absurd h (by simp [reject])
  | connecting | selecting | selected | updating | updated | fetching | fetched =>
    obtain rfl := Option.some.inj h
    exact sole_setLoop sole.keyed hstarts hloops trivial

/-- **One step** under the condition keeps the invariant. -/
theorem sole_step (sole : s.Sole) (settled : s.Settled event) (h : step kind s event = some t) :
    t.Sole := by
  cases event with
  | enqueue input createdAt =>
    obtain rfl := Option.some.inj h
    exact ⟨sole.few, sole.keyed.enqueue input createdAt, fun stage hstage =>
      (sole.knows stage hstage).enqueue sole.keyed⟩
  | start =>
    obtain rfl := Option.some.inj h
    by_cases hrunning : s.running = true
    · rw [if_pos hrunning]
      exact sole
    · rw [if_neg hrunning]
      obtain ⟨hloops, hstarts⟩ := settled rfl (by simpa using hrunning)
      exact sole_of_no_loop sole.keyed (by simp [hstarts]) hloops
  | stop =>
    obtain rfl := Option.some.inj h
    exact ⟨sole.few, sole.keyed, sole.knows⟩
  | startConnected i ok =>
    simp only [step] at h
    split at h
    next hstart =>
      obtain ⟨rfl, hstarts, hloops⟩ := sole.only_start hstart
      obtain rfl := Option.some.inj h
      cases ok with
      | true => exact sole_of_no_loop sole.keyed (by simp [hstarts]) hloops
      | false => exact sole_spawn sole.keyed (by simp [hstarts]) hloops
    next => exact absurd h (by simp)
  | requeue i =>
    simp only [step] at h
    split at h
    next hstart =>
      obtain ⟨rfl, hstarts, hloops⟩ := sole.only_start hstart
      obtain rfl := Option.some.inj h
      exact sole_of_no_loop sole.keyed.requeueRunning (by simp [hstarts]) hloops
    next => exact absurd h (by simp)
  | startSettled i =>
    simp only [step] at h
    split at h
    iterate 2
      next hstart =>
        obtain ⟨rfl, hstarts, hloops⟩ := sole.only_start hstart
        obtain rfl := Option.some.inj h
        exact sole_spawn sole.keyed (by simp [hstarts]) hloops
    next => exact absurd h (by simp)
  | execute i =>
    obtain ⟨stage, hstage, h⟩ := Option.bind_eq_some_iff.mp h
    exact sole_execute sole hstage h
  | resume i =>
    obtain ⟨stage, hstage, h⟩ := Option.bind_eq_some_iff.mp h
    exact sole_resume sole hstage h
  | processed i outcome =>
    simp only [step] at h
    split at h
    next job hstage =>
      obtain ⟨houtcome, h⟩ := Option.ite_none_right_eq_some.mp h
      obtain ⟨rfl, hloops, hstarts, hknows⟩ := sole.only_loop hstage
      obtain rfl := Option.some.inj h
      exact sole_setLoop sole.keyed hstarts hloops
        ⟨hknows.1, hknows.2, kind.outcomes_ended outcome houtcome⟩
    next => exact absurd h (by simp)
  | reject i =>
    obtain ⟨stage, hstage, h⟩ := Option.bind_eq_some_iff.mp h
    exact sole_reject sole hstage h

/-- A loop knows that its job is not queued. -/
theorem not_queued_of_knows {job : Nat} (h : Knows jobs stage) (hjob : stage.job = some job) :
    jobs.stateOf job ≠ some .queued := by
  cases stage with
  | updated candidate affected =>
    cases affected with
    | false => exact absurd hjob (by simp [LoopStage.job])
    | true => exact Option.some.inj hjob ▸ h.2
  | fetching other | fetched other | processing other => exact Option.some.inj hjob ▸ h.2
  | marking other state => exact Option.some.inj hjob ▸ h.2.1
  | connecting | selecting | selected | updating | marked | sleeping =>
    exact absurd hjob (by simp [LoopStage.job])

theorem Sole.singleWorker (sole : s.Sole) : s.SingleWorker where
  one_loop := Nat.le_trans (Nat.le_add_left _ _) sole.few
  distinct := by
    have hfew := sole.few
    have hone : (s.loops.filterMap LoopStage.job).length ≤ 1 :=
      Nat.le_trans (List.length_filterMap_le _ _) (by omega)
    match hjobs : s.loops.filterMap LoopStage.job with
    | [] => exact List.nodup_nil
    | [job] => exact List.nodup_singleton job
    | _ :: _ :: _ =>
      rw [hjobs] at hone
      simp at hone
  not_requeued job hjob := by
    obtain ⟨stage, hstage, hjob⟩ := List.mem_filterMap.mp hjob
    exact not_queued_of_knows (sole.knows stage hstage) hjob

/-- **One worker per queue**: in every run in which `start` is called only when the loop before
    has ended, at most one loop runs, no job is processed twice at once, and no job in flight is
    put back into the queue. -/
theorem singleWorker_of_settled {jobs : JobTable π} {events : List (ServiceEvent π)}
    (keyed : jobs.Keyed) (run : Guarded (step kind) Settled (initial jobs) events s) :
    s.SingleWorker :=
  (run.invariant (sole_of_no_loop (t := initial jobs) keyed (Nat.zero_le 1) rfl)
    fun _ _ _ sole settled h => sole_step sole settled h).singleWorker

/-- A call of `start` ends with a loop, unless `stop` came. -/
theorem exists_spawn (kind : JobKind π) {start : StartStage} (hstart : s.starts[i]? = some start)
    (hstop : s.stopRequested = false) :
    ∃ event, step kind s event =
      some { s with starts := s.starts.eraseIdx i, loops := s.loops ++ [.connecting] } := by
  cases start with
  | connecting =>
    refine ⟨.startConnected i false, ?_⟩
    simp [step, hstart, spawn, hstop]
  | requeueing | requeued =>
    refine ⟨.startSettled i, ?_⟩
    simp [step, hstart, spawn, hstop]

/-- By induction on the calls under way: each can end with a loop of its own. -/
theorem exists_loops (kind : JobKind π) (hstop : s.stopRequested = false) {n : Nat}
    (hstarts : s.starts.length = n) :
    ∃ events t, exec (step kind) s events = some t ∧ t.loops.length = s.loops.length + n := by
  induction n generalizing s with
  | zero => exact ⟨[], s, rfl, rfl⟩
  | succ n ih =>
    have hfirst := List.getElem?_eq_getElem (show 0 < s.starts.length by omega)
    obtain ⟨event, hevent⟩ := exists_spawn kind hfirst hstop
    obtain ⟨events, t, hrun, hloops⟩ := ih
      (s := { s with starts := s.starts.eraseIdx 0, loops := s.loops ++ [.connecting] }) hstop
      (by rw [List.length_eraseIdx_of_lt (by omega), hstarts, Nat.add_sub_cancel])
    refine ⟨event :: events, t, ?_, ?_⟩
    · rw [exec, hevent, Option.bind_some, hrun]
    · rw [hloops, List.length_append, List.length_singleton, Nat.add_right_comm, Nat.add_assoc]

/-- Any other call of `start` can lead to two loops. -/
theorem exists_two_loops (h : ¬ s.Settled event) :
    ∃ events t, exec (step kind) s (event :: events) = some t ∧ ¬ t.SingleWorker := by
  simp only [Settled, Classical.not_imp] at h
  obtain ⟨rfl, hrunning, hbusy⟩ := h
  have hstart : step kind s .start = some { s with
      running := true, stopRequested := false, starts := s.starts ++ [.connecting] } := by
    simp [step, hrunning]
  have hpositive : 0 < s.loops.length + s.starts.length := by
    by_contra hnone
    exact hbusy ⟨List.length_eq_zero_iff.mp (by omega), List.length_eq_zero_iff.mp (by omega)⟩
  let started : QueueService π :=
    { s with running := true, stopRequested := false, starts := s.starts ++ [.connecting] }
  have hstarts : started.starts.length = s.starts.length + 1 := List.length_append
  obtain ⟨events, t, hrun, hloops⟩ := exists_loops kind (s := started) rfl hstarts
  have hloops : t.loops.length = s.loops.length + (s.starts.length + 1) := hloops
  refine ⟨events, t, ?_, fun single => ?_⟩
  · rw [exec, hstart, Option.bind_some, hrun]
  · have hone := single.one_loop
    omega

end

end QueueService

/-! ### A restart while a thumbnail is made -/

namespace QueueService

/-- One queued job, 1, of medium 9. -/
def oneJob : JobTable Nat := ⟨[⟨1, 9, .queued, 0, 100⟩], 2⟩

theorem keyed_oneJob : oneJob.Keyed := ⟨by decide, by decide⟩

/-- The job is claimed by the first loop and handed to `mediaService`. -/
def claimJob : List (ServiceEvent Nat) :=
  [.start, .startConnected 0 true, .requeue 0, .startSettled 0, .resume 0, .execute 0, .resume 0,
    .execute 0, .resume 0, .execute 0, .resume 0]

/-- The job ends, the loop stops, and the service starts again. -/
def drainAndRestart : List (ServiceEvent Nat) :=
  claimJob ++ [.processed 0 .done, .execute 0, .stop, .resume 0, .start, .startConnected 0 true,
    .requeue 0, .startSettled 0]

theorem singleWorker_of_settled_restart :
    ∃ s, exec (step thumbnailJobs) (initial oneJob) drainAndRestart = some s ∧ s.SingleWorker := by
  have hguarded : exec (fun s event => if Settled s event then step thumbnailJobs s event else none)
      (initial oneJob) drainAndRestart =
        some ⟨true, false, [], [.connecting], ⟨[⟨1, 9, .done, 1, 100⟩], 2⟩⟩ := by decide +kernel
  exact ⟨_, by decide +kernel, singleWorker_of_settled keyed_oneJob (guarded_of_exec hguarded)⟩

/-- **Counterexample.** The service is stopped and started while the job is in flight: the job is
    queued again, a second loop runs, and both have the job. -/
theorem not_singleWorker_restart :
    (∃ s, exec (step thumbnailJobs) (initial oneJob) (claimJob ++ [.stop, .start,
        .startConnected 0 true, .requeue 0]) = some s ∧
      s.loops = [.processing 1] ∧ s.jobs.stateOf 1 = some .queued ∧ ¬ s.SingleWorker) ∧
    ∃ s, exec (step thumbnailJobs) (initial oneJob) (claimJob ++ [.stop, .start,
        .startConnected 0 true, .requeue 0, .startSettled 0, .resume 1, .execute 1, .resume 1,
        .execute 1, .resume 1, .execute 1, .resume 1]) = some s ∧
      s.loops = [.processing 1, .processing 1] ∧ ¬ s.SingleWorker := by
  refine ⟨⟨⟨true, false, [.requeued], [.processing 1], ⟨[⟨1, 9, .queued, 1, 100⟩], 2⟩⟩,
    by decide +kernel, rfl, by decide, fun single => ?_⟩,
    ⟨true, false, [], [.processing 1, .processing 1], ⟨[⟨1, 9, .running, 2, 100⟩], 2⟩⟩,
    by decide +kernel, rfl, fun single => ?_⟩
  · exact single.not_requeued 1 (by simp [LoopStage.job]) (by decide)
  · exact absurd single.one_loop (by simp)

end QueueService

end Montr.Server
