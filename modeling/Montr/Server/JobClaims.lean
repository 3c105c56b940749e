import Montr.Lib.Answers
import Montr.Lib.Transition
import Montr.Server.JobTable

namespace Montr.Server

open Answers Function Transition

/-!
# Claims of jobs

Any number of pollers claim jobs of one table: a `SELECT` of a candidate, an `UPDATE` of it if it is
still queued, and a `SELECT` of the row, with any statements of anyone in between.

* `ClaimSystem.step` — one statement;
* `ClaimSystem.log` — who queued, claimed and returned what, for statements only;
* `ClaimsSound` — a claim answers the queueing of its job, a return the claim of its poller, and
  `attempts` counts the claims;
* `claimsSound` — every run.
-/

/-- Where `claimNextThumbnailJob` and `claimNextUploadCompletionJob` are. -/
inductive PollerStage
  /-- not in the call, or before its `SELECT` -/
  | idle
  /-- with a candidate, before the `UPDATE` -/
  | selected (candidate : Nat)
  /-- the `UPDATE` affected the row; before the `SELECT` of it -/
  | claimed (job : Nat)
  deriving DecidableEq, Repr

/-- What the statements did. -/
inductive ClaimEntry (ι : Type)
  | queued (job : Nat)
  | claimed (poller : ι) (job : Nat)
  | returned (poller : ι) (job : Nat)
  deriving DecidableEq, Repr

structure ClaimSystem (ι π : Type) where
  jobs : JobTable π
  pollers : ι → PollerStage
  /-- the newest first; there for statements only -/
  log : List (ClaimEntry ι)

inductive ClaimEvent (ι π : Type)
  | enqueue (input : π) (createdAt : Nat)
  | select (poller : ι)
  | update (poller : ι)
  | fetch (poller : ι)
  /-- a job is marked done, duplicate or failed, by whom and whenever -/
  | mark (job : Nat) (state : QueueState)
  | requeueRunning
  /-- the process of a poller ends -/
  | abandon (poller : ι)
  deriving DecidableEq, Repr

namespace ClaimSystem

variable {ι π : Type} [DecidableEq ι] (kind : JobKind π)

/-- The job is queued, or there was a row for it. -/
def enqueue (s : ClaimSystem ι π) (input : π) (createdAt : Nat) : ClaimSystem ι π :=
  let jobs := s.jobs.enqueue kind input createdAt
  { s with
    jobs := jobs
    log := if jobs.nextId = s.jobs.nextId then s.log else .queued s.jobs.nextId :: s.log }

/-- The candidate, or the call returns `null`. -/
def select (s : ClaimSystem ι π) (poller : ι) : ClaimSystem ι π :=
  match s.jobs.nextQueued with
  | none => s
  | some candidate => { s with pollers := update s.pollers poller (.selected candidate) }

/-- The compare-and-set: the poller has the job, or goes back to its `SELECT`. -/
def compareAndSet (s : ClaimSystem ι π) (poller : ι) (candidate : Nat) : ClaimSystem ι π :=
  let (affected, jobs) := s.jobs.claim candidate
  if affected then
    { jobs := jobs
      pollers := update s.pollers poller (.claimed candidate)
      log := .claimed poller candidate :: s.log }
  else { s with jobs := jobs, pollers := update s.pollers poller .idle }

def step (s : ClaimSystem ι π) : ClaimEvent ι π → Option (ClaimSystem ι π)
  | .enqueue input createdAt => some (s.enqueue kind input createdAt)
  | .select poller => if s.pollers poller = .idle then some (s.select poller) else none
  | .update poller =>
    match s.pollers poller with
    | .selected candidate => some (s.compareAndSet poller candidate)
    | _ => none
  | .fetch poller =>
    match s.pollers poller with
    | .claimed job => some { s with
        pollers := update s.pollers poller .idle
        log := .returned poller job :: s.log }
    | _ => none
  | .mark job state =>
    if state ∈ .failed :: kind.outcomes then some { s with jobs := s.jobs.mark job state }
    else none
  | .requeueRunning => some { s with
      jobs := s.jobs.requeueRunning
      log := ((s.jobs.rows.filter (·.state == .running)).map (.queued ·.id)) ++ s.log }
  | .abandon poller => some { s with pollers := update s.pollers poller .idle }

/-- A new database. -/
def empty : ClaimSystem ι π := ⟨⟨[], 1⟩, fun _ => .idle, []⟩

end ClaimSystem

namespace ClaimEntry

variable {ι : Type}

/-- The job that is queued or claimed. -/
def queuedOrClaimed : ClaimEntry ι → Option Nat
  | .queued job | .claimed _ job => some job
  | .returned _ _ => none

/-- The poller that claims or returns. -/
def poller : ClaimEntry ι → Option ι
  | .claimed i _ | .returned i _ => some i
  | .queued _ => none

def isClaim : ClaimEntry ι → Bool
  | .claimed _ _ => true
  | _ => false

def isReturn : ClaimEntry ι → Bool
  | .returned _ _ => true
  | _ => false

/-- A claim of a job answers its queueing. -/
inductive ClaimsQueued : ClaimEntry ι → ClaimEntry ι → Prop
  | intro (i : ι) (job : Nat) : ClaimsQueued (.claimed i job) (.queued job)

/-- A poller returns what it claimed. -/
inductive ReturnsClaimed : ClaimEntry ι → ClaimEntry ι → Prop
  | intro (i : ι) (job : Nat) : ReturnsClaimed (.returned i job) (.claimed i job)

/-- A claim of the job. -/
def claims (job : Nat) (e : ClaimEntry ι) : Bool :=
  e.isClaim && decide (e.queuedOrClaimed = some job)

/-- A queueing of the job. -/
def queues (job : Nat) (e : ClaimEntry ι) : Bool :=
  !e.isClaim && decide (e.queuedOrClaimed = some job)

end ClaimEntry

namespace ClaimSystem

open ClaimEntry

variable {ι π : Type} [DecidableEq ι] (kind : JobKind π)

/-- **Claims are sound.** -/
structure ClaimsSound (s : ClaimSystem ι π) : Prop where
  /-- right before a claim of a job, of all its queueings and claims, it was queued -/
  claimed_once : ∀ after i job before, s.log = after ++ .claimed i job :: before →
    latest queuedOrClaimed before job = some (.queued job)
  claims_le : ∀ job, s.log.countP (claims job) ≤ s.log.countP (queues job)
  /-- the last thing a poller did before it returns a job was to claim it -/
  returned_by_claimer : ∀ after i job before, s.log = after ++ .returned i job :: before →
    latest poller before i = some (.claimed i job)
  attempts : ∀ j ∈ s.jobs.rows, j.attempts = s.log.countP (claims j.id)
  /-- a claim that comes too late changes nothing -/
  loser : ∀ i candidate, s.pollers i = .selected candidate →
    s.jobs.stateOf candidate ≠ some .queued →
    ∃ t, step kind s (.update i) = some t ∧ t.jobs = s.jobs ∧ t.log = s.log

/-- **The invariant** of the log. -/
structure Logged (s : ClaimSystem ι π) : Prop where
  keyed : s.jobs.Keyed
  claims : Answered queuedOrClaimed isClaim ClaimsQueued s.log
  returns : Answered poller isReturn ReturnsClaimed s.log
  /-- a queued job was queued last -/
  queued : ∀ job, s.jobs.stateOf job = some .queued →
    latest queuedOrClaimed s.log job = some (.queued job)
  known : ∀ e ∈ s.log, ∀ job, e.queuedOrClaimed = some job → job < s.jobs.nextId
  attempts : ∀ job j, s.jobs.byId job = some j → j.attempts = s.log.countP (ClaimEntry.claims job)
  claimed : ∀ i job, s.pollers i = .claimed job → latest poller s.log i = some (.claimed i job)

section

variable {kind} {s t : ClaimSystem ι π} {event : ClaimEvent ι π} {jobs : JobTable π}
  {pollers : ι → PollerStage} {i : ι} {job : Nat}

/-! ### One statement -/

/-- The pollers alone change: nobody claims. -/
theorem Logged.withPollers (logged : s.Logged)
    (claimed : ∀ i job, pollers i = .claimed job → s.pollers i = .claimed job) :
    ({ s with pollers := pollers } : ClaimSystem ι π).Logged :=
  { logged with claimed := fun i job h => logged.claimed i job (claimed i job h) }

/-- A poller goes to a stage that is no claim. -/
theorem claimed_of_update {stage : PollerStage} (hstage : ∀ job, stage ≠ .claimed job) :
    ∀ j job, update s.pollers i stage j = .claimed job → s.pollers j = .claimed job := by
  intro j job h
  by_cases hj : j = i
  · rw [hj, update_self] at h
    exact absurd h (hstage job)
  · rwa [update_of_ne hj] at h

theorem logged_enqueue (logged : s.Logged) (input : π) (createdAt : Nat) :
    (s.enqueue kind input createdAt).Logged := by
  unfold enqueue
  obtain heq | ⟨hnext, hrows⟩ := JobTable.byId_enqueue logged.keyed kind input createdAt
  · simp only [heq, if_true]
    exact logged
  · simp only [hnext, Nat.succ_ne_self, if_false]
    have hnew : ∀ e ∈ s.log, e.queuedOrClaimed ≠ some s.jobs.nextId := fun e he h =>
      Nat.lt_irrefl _ (logged.known e he _ h)
    refine ⟨logged.keyed.enqueue input createdAt, ⟨fun h => absurd h (by simp [isClaim]),
      logged.claims⟩, ⟨fun h => absurd h (by simp [isReturn]), logged.returns⟩, fun job hjob => ?_,
      fun e he job hjob => ?_, fun job j hj => ?_, fun i job h => ?_⟩
    · by_cases hself : job = s.jobs.nextId
      · rw [hself]
        exact latest_cons_of_key rfl
      · rw [latest_cons_of_ne (by simpa [queuedOrClaimed] using Ne.symm hself)]
        rw [JobTable.stateOf, hrows, if_neg hself] at hjob
        exact logged.queued job hjob
    · show job < (s.jobs.enqueue kind input createdAt).nextId
      rw [hnext]
      obtain rfl | he := List.mem_cons.mp he
      · obtain rfl := Option.some.inj hjob
        exact Nat.lt_succ_self _
      · exact Nat.lt_succ_of_lt (logged.known e he job hjob)
    · have hj : (s.jobs.enqueue kind input createdAt).byId job = some j := hj
      rw [hrows] at hj
      rw [List.countP_cons_of_neg (by simp [ClaimEntry.claims, isClaim])]
      by_cases hself : job = s.jobs.nextId
      · rw [if_pos hself] at hj
        obtain rfl := Option.some.inj hj
        symm
        rw [hself, List.countP_eq_zero]
        intro e he hclaims
        exact hnew e he (of_decide_eq_true (Bool.and_eq_true .. ▸ hclaims).2)
      · rw [if_neg hself] at hj
        exact logged.attempts job j hj
    · rw [latest_cons_of_ne (by simp [ClaimEntry.poller])]
      exact logged.claimed i job h

/-- What a row update that keeps ids and attempts leaves of the attempts. -/
theorem attempts_of_map (logged : s.Logged) {f : Job π → Job π}
    (hrows : ∀ k, jobs.byId k = (s.jobs.byId k).map f) (keeps : ∀ j, (f j).attempts = j.attempts) :
    ∀ job j, jobs.byId job = some j → j.attempts = s.log.countP (ClaimEntry.claims job) := by
  intro job j hj
  rw [hrows] at hj
  obtain ⟨old, hold, rfl⟩ := Option.map_eq_some_iff.mp hj
  rw [keeps]
  exact logged.attempts job old hold

theorem logged_mark (logged : s.Logged) {state : QueueState} (hstate : state ≠ .queued) :
    ({ s with jobs := s.jobs.mark job state } : ClaimSystem ι π).Logged := by
  have hattempts := attempts_of_map logged (s.jobs.byId_mark job state) fun j => by
    unfold Job.mark
    split <;> rfl
  refine ⟨logged.keyed.mark, logged.claims, logged.returns, fun k hk => ?_, logged.known,
    hattempts, logged.claimed⟩
  obtain rfl | hne := eq_or_ne k job
  · exact absurd hk (JobTable.stateOf_mark_ne hstate)
  · exact logged.queued k (JobTable.stateOf_mark_of_ne hne ▸ hk)

/-- Jobs that are running are queued, and the log says so. -/
theorem logged_requeueRunning (logged : s.Logged) :
    ({ s with
      jobs := s.jobs.requeueRunning
      log := ((s.jobs.rows.filter (·.state == .running)).map (.queued ·.id)) ++ s.log } :
        ClaimSystem ι π).Logged := by
  have hnew : ∀ e ∈ (s.jobs.rows.filter (·.state == .running)).map
      (fun j => (.queued j.id : ClaimEntry ι)), ∃ j ∈ s.jobs.rows, j.state = .running ∧
        e = .queued j.id := by
    intro e he
    obtain ⟨j, hj, rfl⟩ := List.mem_map.mp he
    obtain ⟨hmem, hrunning⟩ := List.mem_filter.mp hj
    exact ⟨j, hmem, beq_iff_eq.mp hrunning, rfl⟩
  refine ⟨logged.keyed.requeueRunning, answered_append (fun e he => ?_) logged.claims,
    answered_append (fun e he => ?_) logged.returns, fun job hjob => ?_, fun e he job hjob => ?_,
    fun job j hj => ?_, fun i job h => ?_⟩
  · obtain ⟨j, -, -, rfl⟩ := hnew e he
    rfl
  · obtain ⟨j, -, -, rfl⟩ := hnew e he
    rfl
  · have hcases := JobTable.stateOf_requeueRunning hjob
    obtain hqueued | hrunning := hcases
    · -- it was queued, and is not among the running ones
      refine (latest_append fun e he => ?_).trans (logged.queued job hqueued)
      obtain ⟨j, hj, hstate, rfl⟩ := hnew e he
      intro hsame
      obtain rfl : j.id = job := Option.some.inj hsame
      rw [JobTable.stateOf, logged.keyed.byId hj, Option.map_some, hstate] at hqueued
      exact absurd hqueued (by simp)
    · obtain ⟨j, hj, hstate⟩ := Option.map_eq_some_iff.mp hrunning
      obtain ⟨hmem, rfl⟩ := JobTable.byId_some hj
      refine latest_append_of_mem (List.mem_map_of_mem
        (List.mem_filter.mpr ⟨hmem, beq_iff_eq.mpr hstate⟩)) rfl fun e he hsame => ?_
      obtain ⟨other, -, -, rfl⟩ := hnew e he
      exact congrArg ClaimEntry.queued (Option.some.inj hsame)
  · obtain he | he := List.mem_append.mp he
    · obtain ⟨j, hj, -, rfl⟩ := hnew e he
      obtain rfl := Option.some.inj hjob
      exact logged.keyed.id_lt j hj
    · exact logged.known e he job hjob
  · have hnone : ((s.jobs.rows.filter (·.state == .running)).map
        (fun j => (.queued j.id : ClaimEntry ι))).countP (ClaimEntry.claims job) = 0 := by
      rw [List.countP_eq_zero]
      intro e he
      obtain ⟨other, -, -, rfl⟩ := hnew e he
      simp [ClaimEntry.claims, isClaim]
    rw [List.countP_append, hnone, Nat.zero_add]
    refine attempts_of_map logged s.jobs.byId_requeueRunning (fun j => ?_) job j hj
    unfold Job.requeue
    split <;> rfl
  · refine (latest_append fun e he => ?_).trans (logged.claimed i job h)
    obtain ⟨j, -, -, rfl⟩ := hnew e he
    simp [ClaimEntry.poller]

theorem logged_fetch (logged : s.Logged) (h : s.pollers i = .claimed job) :
    ({ s with pollers := update s.pollers i .idle, log := .returned i job :: s.log } :
      ClaimSystem ι π).Logged := by
  refine ⟨logged.keyed, ⟨fun hclaim => absurd hclaim (by simp [isClaim]), logged.claims⟩,
    ⟨fun _ => ⟨i, _, rfl, logged.claimed i job h, .intro i job⟩, logged.returns⟩,
    fun k hk => ?_, fun e he k hk => ?_, fun k j hj => ?_, fun j k hj => ?_⟩
  · exact (latest_cons_of_ne (by simp [queuedOrClaimed])).trans (logged.queued k hk)
  · obtain rfl | he := List.mem_cons.mp he
    · exact absurd hk (by simp [queuedOrClaimed])
    · exact logged.known e he k hk
  · rw [List.countP_cons_of_neg (by simp [ClaimEntry.claims, isClaim])]
    exact logged.attempts k j hj
  · have hclaimed : update s.pollers i .idle j = .claimed k := hj
    have hother : j ≠ i := by
      rintro rfl
      rw [update_self] at hclaimed
      exact absurd hclaimed (by simp)
    rw [update_of_ne hother] at hclaimed
    rw [latest_cons_of_ne (by simpa [ClaimEntry.poller] using Ne.symm hother)]
    exact logged.claimed j k hclaimed

/-- **The compare-and-set**: it claims a job that is queued, or changes nothing. -/
theorem compareAndSet_cases (keyed : s.jobs.Keyed) (i : ι) (candidate : Nat) :
    (s.jobs.stateOf candidate = some .queued ∧ s.compareAndSet i candidate =
      { jobs := (s.jobs.claim candidate).2
        pollers := update s.pollers i (.claimed candidate)
        log := .claimed i candidate :: s.log }) ∨
    s.jobs.stateOf candidate ≠ some .queued ∧
      s.compareAndSet i candidate = { s with pollers := update s.pollers i .idle } := by
  by_cases hqueued : s.jobs.stateOf candidate = some .queued
  · refine .inl ⟨hqueued, ?_⟩
    exact if_pos ((JobTable.claim_affects_iff keyed).mpr hqueued)
  · refine .inr ⟨hqueued, ?_⟩
    have hnone : ¬ (s.jobs.claim candidate).1 = true := fun h =>
      hqueued ((JobTable.claim_affects_iff keyed).mp h)
    calc s.compareAndSet i candidate
        = { s with jobs := (s.jobs.claim candidate).2, pollers := update s.pollers i .idle } :=
          if_neg hnone
      _ = { s with pollers := update s.pollers i .idle } := by
          rw [JobTable.claim_of_not_queued keyed hqueued]

theorem logged_compareAndSet (logged : s.Logged) (i : ι) (candidate : Nat) :
    (s.compareAndSet i candidate).Logged := by
  obtain ⟨hqueued, heq⟩ | ⟨-, heq⟩ := compareAndSet_cases logged.keyed i candidate
  · rw [heq]
    refine ⟨logged.keyed.claim,
      ⟨fun _ => ⟨candidate, _, rfl, logged.queued candidate hqueued, .intro i candidate⟩,
        logged.claims⟩,
      ⟨fun h => absurd h (by simp [isReturn]), logged.returns⟩, fun k hk => ?_,
      fun e he k hk => ?_, fun k j hj => ?_, fun j k hj => ?_⟩
    · obtain rfl | hne := eq_or_ne k candidate
      · rw [JobTable.stateOf_claim hqueued] at hk
        exact absurd hk (by simp)
      · rw [latest_cons_of_ne (by simpa [queuedOrClaimed] using Ne.symm hne)]
        exact logged.queued k (JobTable.stateOf_claim_of_ne hne ▸ hk)
    · obtain rfl | he := List.mem_cons.mp he
      · obtain rfl := Option.some.inj hk
        exact logged.keyed.lt_of_stateOf hqueued
      · exact logged.known e he k hk
    · obtain ⟨old, hold, rfl⟩ := Option.map_eq_some_iff.mp
        ((JobTable.byId_claim s.jobs candidate k).symm.trans hj)
      obtain ⟨-, hid⟩ := JobTable.byId_some hold
      have hattempts := logged.attempts k old hold
      by_cases hself : k = candidate
      · have hclaimable : old.isClaimable candidate = true := by
          rw [← hself, JobTable.stateOf, hold, Option.map_some] at hqueued
          simp [Job.isClaimable, hid, hself, Option.some.inj hqueued]
        rw [List.countP_cons_of_pos (by simp [ClaimEntry.claims, isClaim, queuedOrClaimed, hself]),
          Job.claim, if_pos hclaimable, hattempts]
      · have hother : ¬ old.isClaimable candidate = true := by
          simp [Job.isClaimable, hid, hself]
        rw [List.countP_cons_of_neg
          (by simpa [ClaimEntry.claims, isClaim, queuedOrClaimed] using Ne.symm hself),
          Job.claim, if_neg hother, hattempts]
    · have hclaimed : update s.pollers i (.claimed candidate) j = .claimed k := hj
      by_cases hself : j = i
      · rw [hself, update_self] at hclaimed
        obtain rfl : candidate = k := by simpa using hclaimed
        rw [hself]
        exact latest_cons_of_key rfl
      · rw [update_of_ne hself] at hclaimed
        rw [latest_cons_of_ne (by simpa [ClaimEntry.poller] using Ne.symm hself)]
        exact logged.claimed j k hclaimed
  · rw [heq]
    exact logged.withPollers (claimed_of_update fun _ => by simp)

/-- **One statement** keeps the invariant. -/
theorem logged_step (logged : s.Logged) (h : step kind s event = some t) : t.Logged := by
  cases event with
  | enqueue input createdAt =>
    obtain rfl := Option.some.inj h
    exact logged_enqueue logged input createdAt
  | select i =>
    obtain ⟨-, h⟩ := Option.ite_none_right_eq_some.mp h
    obtain rfl := Option.some.inj h
    unfold select
    split
    · exact logged
    · exact logged.withPollers (claimed_of_update fun _ => by simp)
  | update i =>
    simp only [step] at h
    split at h
    next candidate _ =>
      obtain rfl := Option.some.inj h
      exact logged_compareAndSet logged i candidate
    next => exact absurd h (by simp)
  | fetch i =>
    simp only [step] at h
    split at h
    next job hclaimed =>
      obtain rfl := Option.some.inj h
      exact logged_fetch logged hclaimed
    next => exact absurd h (by simp)
  | mark job state =>
    obtain ⟨hstate, h⟩ := Option.ite_none_right_eq_some.mp h
    obtain rfl := Option.some.inj h
    refine logged_mark logged ?_
    obtain rfl | hstate := List.mem_cons.mp hstate
    · simp
    · exact kind.outcomes_ended state hstate
  | requeueRunning =>
    obtain rfl := Option.some.inj h
    exact logged_requeueRunning logged
  | abandon i =>
    obtain rfl := Option.some.inj h
    exact logged.withPollers (claimed_of_update fun _ => by simp)

/-! ### Every run -/

theorem logged_empty : (empty : ClaimSystem ι π).Logged where
  keyed := ⟨List.nodup_nil, fun _ h => absurd h List.not_mem_nil⟩
  claims := trivial
  returns := trivial
  queued _ h := absurd h (by simp [empty, JobTable.stateOf, JobTable.byId])
  known _ h := absurd h List.not_mem_nil
  attempts _ _ h := absurd h (by simp [empty, JobTable.byId])
  claimed _ _ h := absurd h (by simp [empty])

theorem Logged.sound (logged : s.Logged) : s.ClaimsSound kind where
  claimed_once after i job before hlog := by
    obtain ⟨k, f, hk, hlatest, hf⟩ := logged.claims.of_split hlog rfl
    obtain rfl := Option.some.inj hk
    cases hf
    exact hlatest
  claims_le job := by
    refine countP_closes_le logged.claims (fun e f h => ?_) job
    cases h
    rfl
  returned_by_claimer after i job before hlog := by
    obtain ⟨k, f, hk, hlatest, hf⟩ := logged.returns.of_split hlog rfl
    obtain rfl := Option.some.inj hk
    cases hf
    exact hlatest
  attempts j hj := logged.attempts j.id j (logged.keyed.byId hj)
  loser i candidate hselected hlost := by
    obtain ⟨hqueued, -⟩ | ⟨-, heq⟩ := compareAndSet_cases logged.keyed i candidate
    · exact absurd hqueued hlost
    · refine ⟨{ s with pollers := update s.pollers i .idle }, ?_, rfl, rfl⟩
      simp only [step, hselected, heq]

/-- **Claims of jobs**: in every run of any pollers, whatever comes between their statements, a job
    is claimed once for each time it is queued, by the poller that returns it, `attempts` counts
    its claims, and a claim that comes too late changes nothing. -/
theorem claimsSound (kind : JobKind π) (events : List (ClaimEvent ι π)) :
    Throughout (step kind) (fun s => s.ClaimsSound kind) empty events := by
  intro pre _ s hrun
  have hlogged := (reaches_of_exec hrun).invariant logged_empty
    fun _ _ _ logged _ h => logged_step logged h
  exact hlogged.sound

end

end ClaimSystem

end Montr.Server
