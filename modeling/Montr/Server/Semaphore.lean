import Mathlib.Data.List.Basic
import Montr.Lib.Transition

namespace Montr.Server

open Transition

/-!
# The semaphore of the heavy steps

`release` resolves the promise of the task that has waited longest, and the task goes on, and
counts itself, only when its turn as a microtask comes.  Until then the counter is one short, and
an `acquire` that comes in between takes the place that the woken task was given.

* `Semaphore` — the class: the counter and the queue;
* `SemaphoreUse` — the tasks that use it: woken ones in the order of their microtasks, and those
  that run; `SemaphoreUse.step`, one call or microtask after the other, in any order;
* `waiting_task` — no wake-up is lost, and the tasks that wait are served in their order;
* `throughout_granted_le_iff` — no more than `max` tasks have a place, exactly as long as no task
  takes the place of a woken one.
-/

/-- The fields of the class; a waiting task stands for the `resolve` of its promise. -/
structure Semaphore where
  max : Nat
  active : Int
  queue : List Nat
  deriving DecidableEq, Repr

namespace Semaphore

def new (max : Nat) : Semaphore := ⟨max, 0, []⟩

/-- `acquire` up to its `await`, and whether it returns without one. -/
def acquire (s : Semaphore) (task : Nat) : Semaphore × Bool :=
  if s.active < s.max then ({ s with active := s.active + 1 }, true)
  else ({ s with queue := s.queue ++ [task] }, false)

/-- The rest of `acquire`, once the promise is resolved. -/
def resume (s : Semaphore) : Semaphore := { s with active := s.active + 1 }

/-- The semaphore after `release`, and the task whose promise it resolves. -/
def release (s : Semaphore) : Semaphore × Option Nat :=
  ({ s with active := s.active - 1, queue := s.queue.tail }, s.queue.head?)

end Semaphore

/-- The tasks in `run`: woken, or at work. -/
structure SemaphoreUse where
  sem : Semaphore
  /-- tasks whose promise is resolved, in the order of their microtasks -/
  woken : List Nat
  /-- tasks inside `fn` -/
  running : List Nat
  deriving DecidableEq, Repr

/-- `run` is called, the next woken task goes on, `fn` of a task ends in either way. -/
inductive SemaphoreEvent
  | acquire (task : Nat)
  | resume
  | release (task : Nat)
  deriving DecidableEq, Repr

namespace SemaphoreUse

/-- Nobody uses the semaphore. -/
def new (max : Nat) : SemaphoreUse := ⟨.new max, [], []⟩

def step (s : SemaphoreUse) : SemaphoreEvent → Option SemaphoreUse
  | .acquire task =>
    if task ∈ s.sem.queue ++ s.woken ++ s.running then none
    else match s.sem.acquire task with
      | (sem, true) => some { s with sem := sem, running := s.running ++ [task] }
      | (sem, false) => some { s with sem := sem }
  | .resume =>
    match s.woken with
    | [] => none
    | task :: woken =>
      some { sem := s.sem.resume, woken := woken, running := s.running ++ [task] }
  | .release task =>
    if task ∈ s.running then
      some { sem := s.sem.release.1, woken := s.woken ++ s.sem.release.2.toList
             running := s.running.erase task }
    else none

/-- The tasks that were given a place. -/
def granted (s : SemaphoreUse) : Nat := s.running.length + s.woken.length

/-- How often a place is given back. -/
def releases (events : List SemaphoreEvent) : Nat :=
  events.countP fun | .release _ => true | _ => false

/-- A call takes a place at once only where one is left beside those of the woken tasks. -/
def Fair (s : SemaphoreUse) : SemaphoreEvent → Prop
  | .acquire _ => s.sem.active < s.sem.max → s.granted < s.sem.max
  | _ => True

/-! ### What a step does -/

/-- What a step does to the fields. -/
inductive StepCase (s t : SemaphoreUse) : SemaphoreEvent → Prop
  | enter {task : Nat} (free : s.sem.active < s.sem.max)
      (sem : t.sem = { s.sem with active := s.sem.active + 1 }) (woken : t.woken = s.woken)
      (running : t.running = s.running ++ [task]) : StepCase s t (.acquire task)
  | wait {task : Nat} (full : (s.sem.max : Int) ≤ s.sem.active)
      (sem : t.sem = { s.sem with queue := s.sem.queue ++ [task] }) (woken : t.woken = s.woken)
      (running : t.running = s.running) : StepCase s t (.acquire task)
  | resume {task : Nat} (sem : t.sem = { s.sem with active := s.sem.active + 1 })
      (woken : s.woken = task :: t.woken) (running : t.running = s.running ++ [task]) :
      StepCase s t .resume
  | release {task : Nat} (mem : task ∈ s.running)
      (sem : t.sem = { s.sem with active := s.sem.active - 1, queue := s.sem.queue.tail })
      (woken : t.woken = s.woken ++ s.sem.queue.head?.toList)
      (running : t.running = s.running.erase task) : StepCase s t (.release task)

variable {s t : SemaphoreUse} {task : Nat} {e : SemaphoreEvent} {events : List SemaphoreEvent}

theorem step_cases (h : s.step e = some t) : StepCase s t e := by
  cases e with
  | acquire task =>
    obtain ⟨-, h⟩ := Option.ite_none_left_eq_some.mp h
    by_cases hfree : s.sem.active < s.sem.max
    · rw [Semaphore.acquire, if_pos hfree] at h
      obtain rfl := Option.some.inj h
      exact .enter hfree rfl rfl rfl
    · rw [Semaphore.acquire, if_neg hfree] at h
      obtain rfl := Option.some.inj h
      exact .wait (by omega) rfl rfl rfl
  | resume =>
    cases hwoken : s.woken with
    | nil => exact absurd h (by simp [step, hwoken])
    | cons task woken =>
      obtain rfl := Option.some.inj (by simpa only [step, hwoken] using h)
      exact .resume rfl hwoken rfl
  | release task =>
    obtain ⟨hmem, h⟩ := Option.ite_none_right_eq_some.mp h
    obtain rfl := Option.some.inj h
    exact .release hmem rfl rfl rfl

/-! ### No wake-up is lost -/

/-- The counter counts the tasks that run, and who waits does so behind enough of them. -/
structure Counted (s : SemaphoreUse) : Prop where
  active : s.sem.active = s.running.length
  full : s.sem.queue ≠ [] → s.sem.max ≤ s.granted

theorem counted_new (max : Nat) : (new max).Counted := ⟨rfl, fun h => absurd rfl h⟩

theorem length_erase_add_one (h : task ∈ s.running) :
    (s.running.erase task).length + 1 = s.running.length := by
  have hpos := List.length_pos_of_mem h
  rw [List.length_erase_of_mem h]
  omega

theorem Counted.step (h : s.Counted) (hstep : s.step e = some t) : t.Counted := by
  obtain ⟨hactive, hfull⟩ := h
  unfold granted at hfull
  cases step_cases hstep with
  | enter free sem woken running =>
    refine ⟨?_, fun hqueue => ?_⟩
    · rw [sem, running, List.length_append, List.length_singleton]
      show s.sem.active + 1 = _
      omega
    · rw [sem] at hqueue ⊢
      have hmax := hfull hqueue
      unfold granted
      rw [running, woken, List.length_append]
      show s.sem.max ≤ _
      omega
  | wait full sem woken running =>
    refine ⟨?_, fun _ => ?_⟩
    · rw [sem, running]
      exact hactive
    · -- the task waits because the counter is at `max`
      unfold granted
      rw [sem, running, woken]
      show s.sem.max ≤ _
      omega
  | resume sem woken running =>
    have hlength := congrArg List.length woken
    rw [List.length_cons] at hlength
    refine ⟨?_, fun hqueue => ?_⟩
    · rw [sem, running, List.length_append, List.length_singleton]
      show s.sem.active + 1 = _
      omega
    · rw [sem] at hqueue ⊢
      have hmax := hfull hqueue
      unfold granted
      rw [running, List.length_append, List.length_singleton]
      show s.sem.max ≤ _
      omega
  | release mem sem woken running =>
    have herase := length_erase_add_one mem
    refine ⟨?_, fun hqueue => ?_⟩
    · rw [sem, running]
      show s.sem.active - 1 = _
      omega
    · rw [sem] at hqueue ⊢
      obtain ⟨first, rest, hcons⟩ : ∃ first rest, s.sem.queue = first :: rest :=
        List.exists_cons_of_ne_nil fun hnil => hqueue (by simp [hnil])
      have hmax := hfull (by simp [hcons])
      -- the place given back goes to the first of the queue
      unfold granted
      rw [running, woken, hcons, List.head?_cons, Option.toList_some, List.length_append,
        List.length_singleton]
      show s.sem.max ≤ _
      omega

theorem max_step (h : s.step e = some t) : t.sem.max = s.sem.max := by
  cases step_cases h with
  | enter free sem woken running => rw [sem]
  | wait full sem woken running => rw [sem]
  | resume sem woken running => rw [sem]
  | release mem sem woken running => rw [sem]

theorem max_run (run : Reaches step s events t) : t.sem.max = s.sem.max := by
  induction run with
  | nil => rfl
  | snoc _ _ hstep ih => exact (max_step hstep).trans ih

/-- While a task has a place, a task can go on or give its place back. -/
theorem exists_step (h : 0 < s.granted) :
    (∃ t, s.step .resume = some t) ∨ ∃ j t, s.step (.release j) = some t := by
  cases hwoken : s.woken with
  | cons task woken => exact .inl ⟨_, by simp only [step, hwoken]; rfl⟩
  | nil =>
    right
    unfold granted at h
    rw [hwoken, List.length_nil, Nat.add_zero] at h
    obtain ⟨task, hmem⟩ := List.exists_mem_of_length_pos h
    exact ⟨task, _, if_pos hmem⟩

/-! ### Tasks are served in their order -/

theorem releases_append (events : List SemaphoreEvent) (e : SemaphoreEvent) :
    releases (events ++ [e]) = releases events + releases [e] := List.countP_append

/-- A step brings a waiting task as many places forward as it gives back. -/
theorem queue_step {k : Nat} (waits : s.sem.queue[k]? = some task) (h : s.step e = some t)
    (few : releases [e] ≤ k) : t.sem.queue[k - releases [e]]? = some task := by
  cases step_cases h with
  | enter free sem woken running =>
    rw [sem]
    exact waits
  | wait full sem woken running =>
    rw [sem]
    show (s.sem.queue ++ _)[k]? = some task
    rw [List.getElem?_append_left (List.getElem?_eq_some_iff.mp waits).1]
    exact waits
  | resume sem woken running =>
    rw [sem]
    exact waits
  | release mem sem woken running =>
    rw [sem]
    have hk : k = (k - 1) + 1 := by
      have hfew : 1 ≤ k := few
      omega
    show s.sem.queue.tail[k - 1]? = some task
    rw [List.getElem?_tail, ← hk]
    exact waits

theorem queue_run {k : Nat} (waits : s.sem.queue[k]? = some task) (run : Reaches step s events t)
    (few : releases events ≤ k) : t.sem.queue[k - releases events]? = some task := by
  induction run with
  | nil => exact waits
  | @snoc before u v e _ _ hstep ih =>
    rw [releases_append] at few ⊢
    have hprev := ih (by omega)
    rw [← Nat.sub_sub]
    exact queue_step hprev hstep (by omega)

theorem woken_release {j : Nat} (first : s.sem.queue.head? = some task)
    (h : s.step (.release j) = some t) : t.woken = s.woken ++ [task] := by
  cases step_cases h with
  | release mem sem woken running => rw [woken, first, Option.toList_some]

/-- **Nobody waits in vain, and in order.**  In every run from any use of the semaphore: a task
    with `k` tasks before it in the queue moves up by one with every place given back, whatever
    else happens; the release after the `k`-th resolves its promise; and until then all the
    places are taken, so that a task can go on or give its place back. -/
theorem waiting_task {max k : Nat} {before : List SemaphoreEvent} (pos : 1 ≤ max)
    (reached : Reaches step (new max) before s) (waits : s.sem.queue[k]? = some task)
    (run : Reaches step s events t) (few : releases events ≤ k) :
    t.sem.queue[k - releases events]? = some task ∧ max ≤ t.granted ∧
      ((∃ u, t.step .resume = some u) ∨ ∃ j u, t.step (.release j) = some u) ∧
      (releases events = k →
        ∀ j u, t.step (.release j) = some u → u.woken = t.woken ++ [task]) := by
  have hturn := queue_run waits run few
  have hmax : t.sem.max = max := max_run (reached.append run)
  have hcounted : t.Counted :=
    (reached.append run).invariant (counted_new max) fun _ _ _ h _ hstep => h.step hstep
  have hgranted : max ≤ t.granted := by
    rw [← hmax]
    apply hcounted.full
    rintro hnil
    rw [hnil, List.getElem?_nil] at hturn
    cases hturn
  refine ⟨hturn, hgranted, exists_step (by omega), fun hlast j u hstep => ?_⟩
  apply woken_release _ hstep
  rw [hlast, Nat.sub_self] at hturn
  rw [List.head?_eq_getElem?]
  exact hturn

/-- Not vacuous: the second of two tasks that wait for the only place. -/
theorem waiting_task_second :
    let s : SemaphoreUse := ⟨⟨1, 1, [7, 8]⟩, [], [5]⟩
    let t : SemaphoreUse := ⟨⟨1, 1, [8]⟩, [], [7]⟩
    s.sem.queue[1]? = some 8 ∧ Reaches step s [.release 5, .resume] t ∧
      ∀ j u, t.step (.release j) = some u → u.woken = t.woken ++ [8] := by
  intro s t
  have hreached : Reaches step (new 1) [.acquire 5, .acquire 7, .acquire 8] s :=
    reaches_of_exec (by decide)
  have hrun : Reaches step s [.release 5, .resume] t := reaches_of_exec (by decide)
  have hwaits : s.sem.queue[1]? = some 8 := rfl
  exact ⟨hwaits, hrun,
    (waiting_task (Nat.le_refl 1) hreached hwaits hrun (by decide)).2.2.2 (by decide)⟩

/-! ### The places -/

/-- A step keeps within the places exactly if it is no call that overtakes a woken task. -/
theorem granted_le_iff (counted : s.Counted) (h : s.granted ≤ s.sem.max)
    (hstep : s.step e = some t) : t.granted ≤ t.sem.max ↔ s.Fair e := by
  rw [max_step hstep]
  have hactive := counted.active
  have hfull := counted.full
  unfold granted at h hfull ⊢
  cases step_cases hstep with
  | enter free sem woken running =>
    rw [running, woken, List.length_append, List.length_singleton]
    show _ ↔ (s.sem.active < s.sem.max → s.running.length + s.woken.length < s.sem.max)
    omega
  | wait full sem woken running =>
    rw [running, woken]
    exact iff_of_true h fun hfree => absurd hfree (by omega)
  | resume sem woken running =>
    have hlength := congrArg List.length woken
    rw [List.length_cons] at hlength
    rw [running, List.length_append, List.length_singleton]
    exact iff_of_true (by omega) trivial
  | release mem sem woken running =>
    have herase := length_erase_add_one mem
    have hwoken : t.woken.length ≤ s.woken.length + 1 := by
      rw [woken, List.length_append]
      have hone : s.sem.queue.head?.toList.length ≤ 1 := by cases s.sem.queue.head? <;> simp
      omega
    rw [running]
    exact iff_of_true (by omega) trivial

/-- **The cap.**  In every run, no more than `max` tasks have a place (are at work, or woken) at
    any time, exactly if no call takes the place of a task that was woken and has not gone on. -/
theorem throughout_granted_le_iff (max : Nat) (run : exec step (new max) events = some t) :
    Throughout step (fun s => s.granted ≤ s.sem.max) (new max) events ↔
      Each step Fair (new max) events :=
  throughout_iff_each (fun _ _ _ h hstep => h.step hstep)
    (fun _ _ _ h hle hstep => granted_le_iff h hle hstep) (counted_new max) (Nat.zero_le max) run

/-- Not vacuous: a call between a release and the microtask of the woken task, and both run. -/
theorem throughout_granted_le_iff_overtaken :
    ¬ Throughout step (fun s => s.granted ≤ s.sem.max) (new 1)
      [.acquire 5, .acquire 7, .release 5, .acquire 9, .resume] := by
  have hrun : exec step (new 1) [.acquire 5, .acquire 7, .release 5, .acquire 9, .resume] =
      some ⟨⟨1, 2, []⟩, [], [9, 7]⟩ := by decide
  intro h
  have hfair := (throughout_granted_le_iff 1 hrun).mp h
  exact absurd ((hfair.2 _ rfl).2 _ rfl |>.2 _ rfl).1 (by unfold Fair; decide)

end SemaphoreUse

end Montr.Server
