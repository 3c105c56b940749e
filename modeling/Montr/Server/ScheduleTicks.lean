import Montr.Lib.KeyedDedupe
import Montr.Server.ScheduleActivation
import Mathlib.Data.Int.LeastGreatest
import Mathlib.Data.List.Range
import Mathlib.Logic.Function.Basic

namespace Montr.Server

open KeyedDedupe

/-!
# Evaluation ticks

A run of `evaluateSchedules` over ticks that are at most a minute apart.  `lastTriggered`
suppresses repeats by a key without a date, so which calendar minutes a schedule is selected for
is the question of `KeyedDedupe`: the ticks that see a schedule due, their keys, and the minutes
they are due for (`selections_eq_keep`).
-/

/-- `lastTriggered`, by schedule id. -/
abbrev LastTriggered := Nat → Option String

/-- The filter after `findTriggering`: it records the key while it tests it. -/
def dedupe (minuteKey : String) :
    LastTriggered → List Schedule → List Schedule × LastTriggered
  | last, [] => ([], last)
  | last, s :: rest =>
    if last s.id = some minuteKey then dedupe minuteKey last rest
    else
      let after := dedupe minuteKey (Function.update last s.id (some minuteKey)) rest
      (s :: after.1, after.2)

/-- `SELECT * FROM schedules WHERE enabled = 1 ORDER BY priority DESC`. -/
def getEnabledSchedules (rows : List Schedule) : List Schedule :=
  (rows.filter (·.enabled)).mergeSort fun a b => decide (b.priority ≤ a.priority)

/-- What one evaluation leaves and does: the schedules selected, and those of them dispatched after
    conflicts on a target are resolved. -/
structure Evaluation where
  lastTriggered : LastTriggered
  selected : List Schedule
  dispatched : List Schedule

section Run

variable (env : ScheduleEnv) (rows : List Schedule)

def evaluateSchedules (last : LastTriggered) (now : Int) : Evaluation :=
  let schedules := getEnabledSchedules rows
  let minuteKey := env.zone.minuteKey now
  let (triggering, last') := dedupe minuteKey last (findTriggering env schedules now)
  { lastTriggered := last'
    selected := triggering
    dispatched :=
      if triggering.isEmpty then [] else (resolveConflicts triggering).winners.map (·.2) }

/-- The ticks of a run that select a schedule. -/
def selections (s : Schedule) : LastTriggered → List Int → List Int
  | _, [] => []
  | last, now :: ticks =>
    let evaluation := evaluateSchedules env rows last now
    let later := selections s evaluation.lastTriggered ticks
    if s ∈ evaluation.selected then now :: later else later

end Run

/-! ### What a tick selects -/

variable {env : ScheduleEnv} {rows schedules : List Schedule} {s : Schedule}
  {last : LastTriggered} {minuteKey : String} {now : Int} {ticks : List Int}

theorem dedupe_sublist (minuteKey : String) (last : LastTriggered) (schedules : List Schedule) :
    (dedupe minuteKey last schedules).1.Sublist schedules := by
  induction schedules generalizing last with
  | nil => exact List.Sublist.slnil
  | cons a rest ih =>
    unfold dedupe
    split
    · exact (ih last).cons a
    · exact (ih _).cons_cons a

/-- A schedule that is not in the list keeps its key. -/
theorem dedupe_last_of_notMem (h : s.id ∉ schedules.map (·.id)) :
    (dedupe minuteKey last schedules).2 s.id = last s.id := by
  induction schedules generalizing last with
  | nil => rfl
  | cons a rest ih =>
    have hne : s.id ≠ a.id := fun heq => h (by simp [heq])
    have hrest : s.id ∉ rest.map (·.id) := fun hmem => h (by simp [hmem])
    unfold dedupe
    split
    · exact ih hrest
    · exact (ih hrest).trans (Function.update_of_ne hne _ _)

/-- A schedule of the list is kept when its last key is another, and has the key afterwards. -/
theorem dedupe_of_mem (last : LastTriggered) (hids : (schedules.map (·.id)).Nodup)
    (hs : s ∈ schedules) :
    (s ∈ (dedupe minuteKey last schedules).1 ↔ last s.id ≠ some minuteKey) ∧
      (dedupe minuteKey last schedules).2 s.id = some minuteKey := by
  induction schedules generalizing last with
  | nil => exact absurd hs List.not_mem_nil
  | cons a rest ih =>
    obtain ⟨hfresh, hnodup⟩ := List.nodup_cons.mp hids
    rcases List.mem_cons.mp hs with rfl | hmem
    · -- the head: the rest of the list does not touch its key
      have hnot : s ∉ rest := fun hmem => hfresh (List.mem_map_of_mem hmem)
      unfold dedupe
      split
      next heq =>
        have hdropped : s ∉ (dedupe minuteKey last rest).1 :=
          fun hmem => hnot ((dedupe_sublist _ _ _).subset hmem)
        refine ⟨by simp [hdropped, heq], ?_⟩
        rw [dedupe_last_of_notMem hfresh, heq]
      next hne =>
        refine ⟨by simp [hne], ?_⟩
        show (dedupe _ _ rest).2 s.id = _
        rw [dedupe_last_of_notMem hfresh, Function.update_self]
    · have hne : s.id ≠ a.id := by
        intro heq
        exact hfresh (List.mem_map.mpr ⟨s, hmem, heq⟩)
      unfold dedupe
      split
      · exact ih last hnodup hmem
      · have hsa : s ≠ a := fun heq => hne (by rw [heq])
        have hrec := ih (Function.update last a.id (some minuteKey)) hnodup hmem
        rw [Function.update_of_ne hne] at hrec
        simpa [hsa] using hrec

theorem mem_findTriggering (hs : s ∈ rows) (henabled : s.enabled = true) :
    s ∈ findTriggering env (getEnabledSchedules rows) now ↔ triggers env s now = true := by
  simp [findTriggering, getEnabledSchedules, hs, henabled]

/-- Sorting and filtering keep the ids apart. -/
theorem nodup_getEnabledSchedules (hids : (rows.map (·.id)).Nodup) :
    ((getEnabledSchedules rows).map (·.id)).Nodup := by
  have hperm : (getEnabledSchedules rows).Perm (rows.filter (·.enabled)) :=
    List.mergeSort_perm _ _
  exact (hperm.map _).nodup_iff.mpr (hids.sublist (List.filter_sublist.map _))

theorem nodup_findTriggering (hids : (rows.map (·.id)).Nodup) :
    ((findTriggering env (getEnabledSchedules rows) now).map (·.id)).Nodup :=
  (nodup_getEnabledSchedules hids).sublist (List.filter_sublist.map _)

/-- A tick at which a schedule triggers selects it unless the key is the last one, which it is
    from then on. -/
theorem evaluateSchedules_of_triggers (last : LastTriggered) (hids : (rows.map (·.id)).Nodup)
    (hs : s ∈ rows) (henabled : s.enabled = true) (htriggers : triggers env s now = true) :
    (s ∈ (evaluateSchedules env rows last now).selected ↔
        last s.id ≠ some (env.zone.minuteKey now)) ∧
      (evaluateSchedules env rows last now).lastTriggered s.id =
        some (env.zone.minuteKey now) :=
  dedupe_of_mem last (nodup_findTriggering hids) ((mem_findTriggering hs henabled).mpr htriggers)

/-- Any other tick leaves its key alone. -/
theorem evaluateSchedules_of_not_triggers (last : LastTriggered) (hids : (rows.map (·.id)).Nodup)
    (hs : s ∈ rows) (henabled : s.enabled = true) (htriggers : ¬ triggers env s now = true) :
    s ∉ (evaluateSchedules env rows last now).selected ∧
      (evaluateSchedules env rows last now).lastTriggered s.id = last s.id := by
  have hnot : s ∉ findTriggering env (getEnabledSchedules rows) now :=
    fun hmem => htriggers ((mem_findTriggering hs henabled).mp hmem)
  refine ⟨fun hmem => hnot ((dedupe_sublist _ _ _).subset hmem), dedupe_last_of_notMem ?_⟩
  intro hmem
  obtain ⟨a, ha, heq⟩ := List.mem_map.mp hmem
  have harows : a ∈ rows := by
    have hmem' := (List.mem_filter.mp ha).1
    rw [getEnabledSchedules, List.mem_mergeSort] at hmem'
    exact (List.mem_filter.mp hmem').1
  have hsame : a = s := List.inj_on_of_nodup_map hids harows hs heq
  exact hnot (hsame ▸ ha)

/-- **The ticks that select a schedule** are those at which it triggers, less the repeats of the
    key before. -/
theorem selections_eq_keep (hids : (rows.map (·.id)).Nodup) (hs : s ∈ rows)
    (henabled : s.enabled = true) (last : LastTriggered) (ticks : List Int) :
    selections env rows s last ticks =
      keep env.zone.minuteKey (last s.id) (ticks.filter fun t => triggers env s t) := by
  induction ticks generalizing last with
  | nil => rfl
  | cons now ticks ih =>
    unfold selections
    by_cases htriggers : triggers env s now = true
    · obtain ⟨hselected, hlast⟩ :=
        evaluateSchedules_of_triggers last hids hs henabled htriggers
      rw [List.filter_cons_of_pos htriggers]
      unfold keep
      by_cases hkey : last s.id = some (env.zone.minuteKey now)
      · -- a repeat of the key is dropped on both sides
        have hnot : s ∉ (evaluateSchedules env rows last now).selected :=
          fun hmem => hselected.mp hmem hkey
        rw [if_pos hkey, if_neg hnot, ih, hlast, hkey]
      · rw [if_neg hkey, if_pos (hselected.mpr hkey), ih, hlast]
    · obtain ⟨hnot, hlast⟩ :=
        evaluateSchedules_of_not_triggers last hids hs henabled htriggers
      rw [List.filter_cons_of_neg htriggers, if_neg hnot, ih, hlast]

/-! ### Due minutes -/

section Due

variable (env : ScheduleEnv) (fires : String → Option String → Int → Prop) (s : Schedule)

/-- What the code relies on of the cron parser: `next` enumerates the fire times, `currentDate`
    excluded and `endDate` included, and an expression fires at the same seconds of every minute
    in which it fires. -/
structure CronFires (env : ScheduleEnv) (fires : String → Option String → Int → Prop) : Prop where
  enumerates : ∀ expr tz currentDate endDate f,
    env.cronNext expr tz currentDate endDate = some f ↔
      fires expr tz f ∧ currentDate < f ∧ f ≤ endDate ∧
        ∀ g, fires expr tz g → currentDate < g → f ≤ g
  seconds : ∀ expr tz f g, fires expr tz f → fires expr tz g →
    fires expr tz (60000 * (f / 60000) + g % 60000)

/-- The minute of `x` is the start time on an allowed day. -/
def StartsAt (x : Int) : Prop :=
  s.startTime = some (env.zone.currentTime x) ∧ some (env.zone.getDay x) ∈ s.allowedDays

instance (x : Int) : Decidable (StartsAt env s x) := by
  unfold StartsAt
  infer_instance

/-- A schedule asks to start at `x`. -/
def Moment (x : Int) : Prop :=
  match truthy s.cronExpression with
  | some expr => fires expr (truthy s.timezone) x
  | none => StartsAt env s x

/-- A calendar minute in which the schedule is due. -/
def Due (m : Int) : Prop :=
  ∃ x, Moment env fires s x ∧ (evaluateConditions env s.conditions x).passed = true ∧
    env.zone.localMinute x = m

/-- The moment a tick sees: the first fire time of its window, or the tick itself. -/
def momentAt (now : Int) : Option Int :=
  match truthy s.cronExpression with
  | some expr => env.cronNext expr (truthy s.timezone) (now - 60000) now
  | none => if StartsAt env s now then some now else none

/-- The calendar minute a tick is due for. -/
def dueAt (now : Int) : Option Int := (momentAt env s now).map env.zone.localMinute

/-- The ticks that see a schedule due while its conditions hold. -/
def dueTicks (ticks : List Int) : List Int :=
  ticks.filter fun t => (dueAt env s t).isSome && (evaluateConditions env s.conditions t).passed

/-- Every instant of the minute is between the first and the last tick. -/
def Covered (ticks : List Int) (m : Int) : Prop :=
  ∀ x, env.zone.localMinute x = m →
    (∃ a, ticks.head? = some a ∧ a ≤ x) ∧ ∃ b ∈ ticks, x ≤ b

/-- **The contract of a run**: an enabled time-based schedule is selected once for every calendar
    minute in which it is due, and never twice. -/
def SelectedOnce (rows : List Schedule) (ticks : List Int) : Prop :=
  ∀ s ∈ rows, s.enabled = true → isEventTriggered s.conditions = false → ∀ m,
    Due env fires s m →
      let count := (selections env rows s (fun _ => none) ticks).countP
        fun t => decide (dueAt env s t = some m)
      count ≤ 1 ∧ (Covered env ticks m → count = 1)

/-- When a schedule is selected as it should be. -/
structure Separable (ticks : List Int) : Prop where
  /-- Of two ticks in a row that see it due, the keys are the same exactly when the minutes are. -/
  keys : Separates env.zone.minuteKey (dueAt env s) (dueTicks env s ticks)
  /-- A due minute does not come back after another. -/
  contiguous : Contiguous (dueAt env s) (dueTicks env s ticks)
  /-- A tick that sees a due minute finds the conditions holding too. -/
  conditions : ∀ t ∈ ticks, ∀ m, dueAt env s t = some m → Due env fires s m →
    (evaluateConditions env s.conditions t).passed = true
  /-- A window without cron ends after it starts. -/
  window : truthy s.cronExpression = none → ∀ startTime endTime,
    s.startTime = some startTime → truthy s.endTime = some endTime → startTime < endTime

end Due

variable {fires : String → Option String → Int → Prop} {m : Int}

/-- At the start time of an allowed day a window that ends later is open. -/
theorem isScheduleActive_of_startsAt (henabled : s.enabled = true)
    (hevent : isEventTriggered s.conditions = false)
    (hpassed : (evaluateConditions env s.conditions now).passed = true)
    (hexpr : truthy s.cronExpression = none) (hstarts : StartsAt env s now)
    (hend : ∀ endTime, truthy s.endTime = some endTime → env.zone.currentTime now < endTime) :
    isScheduleActive env s now = true := by
  obtain ⟨hstart, hday⟩ := hstarts
  have htruthy : truthy s.startTime = some (env.zone.currentTime now) := by
    rw [hstart]
    exact Option.filter_eq_some_iff.mpr ⟨rfl, by simpa using env.zone.currentTime_ne now⟩
  have hallowed : s.allowedDays.contains (some (env.zone.getDay now)) = true := by
    simpa using hday
  have hlt : ¬ env.zone.currentTime now < env.zone.currentTime now := lt_irrefl _
  unfold isScheduleActive
  simp only [henabled, hevent, hpassed, hexpr, htruthy, hallowed, Bool.not_true, Bool.false_eq_true,
    if_false]
  rw [if_neg hlt]
  cases hendTime : truthy s.endTime with
  | none => rfl
  | some endTime =>
    have hopen : ¬ endTime ≤ env.zone.currentTime now := not_le.mpr (hend endTime hendTime)
    show (!decide (endTime ≤ env.zone.currentTime now)) = true
    rw [decide_eq_false hopen]
    rfl

/-- `triggers` decides whether the tick sees the schedule due while its conditions hold. -/
theorem triggers_eq (cron : CronFires env fires) (henabled : s.enabled = true)
    (hevent : isEventTriggered s.conditions = false)
    (window : truthy s.cronExpression = none → ∀ startTime endTime,
      s.startTime = some startTime → truthy s.endTime = some endTime → startTime < endTime) :
    triggers env s now =
      ((dueAt env s now).isSome && (evaluateConditions env s.conditions now).passed) := by
  cases hpassed : (evaluateConditions env s.conditions now).passed with
  | false => simp [triggers, isScheduleActive, henabled, hevent, hpassed]
  | true =>
    cases hexpr : truthy s.cronExpression with
    | some expr =>
      cases hnext : env.cronNext expr (truthy s.timezone) (now - 60000) now with
      | none =>
        simp [triggers, isScheduleActive, henabled, hevent, hpassed, didCronFireInLastMinute, dueAt,
          momentAt, hexpr, hnext]
      | some f =>
        -- what `next` returns is in the window, so the second test of the code succeeds
        obtain ⟨-, hafter, hbefore, -⟩ := (cron.enumerates _ _ _ _ _).mp hnext
        have hle : now ≤ f + 60000 := by omega
        simp [triggers, isScheduleActive, henabled, hevent, hpassed, didCronFireInLastMinute, dueAt,
          momentAt, hexpr, hnext, hbefore, hle]
    | none =>
      unfold triggers
      by_cases hstarts : StartsAt env s now
      · have hactive := isScheduleActive_of_startsAt henabled hevent hpassed hexpr hstarts
          fun endTime hendTime => window hexpr _ _ hstarts.1 hendTime
        simp [hactive, dueAt, momentAt, hexpr, hstarts, hstarts.1]
      · -- active or not, another time of day does not trigger, and on another day it is not active
        have hdue : (dueAt env s now).isSome = false := by
          simp [dueAt, momentAt, hexpr, hstarts]
        rw [hdue]
        by_cases htime : s.startTime = some (env.zone.currentTime now)
        · have hday : s.allowedDays.contains (some (env.zone.getDay now)) = false := by
            simpa using fun h => hstarts ⟨htime, h⟩
          have hactive : isScheduleActive env s now = false := by
            unfold isScheduleActive
            simp only [henabled, hevent, hpassed, hexpr, hday]
            cases truthy s.startTime <;> rfl
          simp [hactive]
        · have hother : (s.startTime == some (env.zone.currentTime now)) = false := by
            simpa using htime
          simp [hexpr, hother]

/-! ### Every due minute is seen -/

/-- The ticks of a run: in order, and at most a minute apart. -/
def MinuteApart (ticks : List Int) : Prop :=
  ticks.IsChain fun a b => a ≤ b ∧ b ≤ a + 60000

/-- Between the first and the last tick no minute is without a tick. -/
theorem exists_tick {x : Int} (gaps : MinuteApart ticks)
    (hhead : ∃ a, ticks.head? = some a ∧ a ≤ x) (hlater : ∃ b ∈ ticks, x ≤ b) :
    ∃ t ∈ ticks, x ≤ t ∧ t < x + 60000 := by
  obtain ⟨b, hb, hxb⟩ := hlater
  induction ticks with
  | nil => exact absurd hb List.not_mem_nil
  | cons t rest ih =>
    have ht : t ≤ x := by
      obtain ⟨a, ha, hax⟩ := hhead
      cases ha
      exact hax
    by_cases hxt : x ≤ t
    · exact ⟨t, List.mem_cons_self, hxt, by omega⟩
    · rcases List.mem_cons.mp hb with rfl | hrest
      · exact absurd hxb hxt
      · cases rest with
        | nil => exact absurd hrest List.not_mem_nil
        | cons t' rest =>
          obtain ⟨⟨-, hgap⟩, hchain⟩ := List.isChain_cons_cons.mp gaps
          by_cases ht' : t' ≤ x
          · obtain ⟨u, hu, hfound⟩ := ih hchain ⟨t', rfl, ht'⟩ hrest
            exact ⟨u, List.mem_cons_of_mem t hu, hfound⟩
          · -- the first tick after `x`, and the one before it is before `x`
            exact ⟨t', by simp, by omega, by omega⟩

/-- A tick less than a minute after the last fire time of a minute sees a fire time of that minute
    first. -/
theorem dueAt_of_lastFire (cron : CronFires env fires) {expr : String} {f : Int}
    (hexpr : truthy s.cronExpression = some expr) (hfire : fires expr (truthy s.timezone) f)
    (hlast : ∀ g, fires expr (truthy s.timezone) g → g / 60000 = f / 60000 → g ≤ f)
    (hle : f ≤ now) (hlt : now < f + 60000) :
    dueAt env s now = some (env.zone.localMinute f) := by
  -- the first fire time of the window
  obtain ⟨first, ⟨hfirst, hafter⟩, hleast⟩ := Int.exists_least_of_bdd
    (P := fun g => fires expr (truthy s.timezone) g ∧ now - 60000 < g)
    ⟨now - 60000, fun g hg => le_of_lt hg.2⟩ ⟨f, hfire, by omega⟩
  have hfirstle : first ≤ f := hleast f ⟨hfire, by omega⟩
  have hnext : env.cronNext expr (truthy s.timezone) (now - 60000) now = some first :=
    (cron.enumerates _ _ _ _ _).mpr
      ⟨hfirst, hafter, by omega, fun g hg hgt => hleast g ⟨hg, hgt⟩⟩
  have hminute : first / 60000 = f / 60000 := by
    by_contra hne
    -- a fire time of the minute before would be repeated after `f`
    have hrepeat := cron.seconds _ _ f first hfire hfirst
    have hbound := hlast _ hrepeat (by omega)
    omega
  unfold dueAt momentAt
  rw [hexpr]
  simp only [hnext, Option.map_some, env.zone.localMinute_congr hminute]

/-- A start time is that of its whole minute. -/
theorem StartsAt.congr {a b : Int} (h : env.zone.localMinute a = env.zone.localMinute b)
    (ha : StartsAt env s a) : StartsAt env s b := by
  obtain ⟨hstart, hday⟩ := ha
  exact ⟨by rw [← env.zone.currentTime_congr h]; exact hstart,
    by rw [← env.zone.getDay_congr h]; exact hday⟩

/-- **A covered due minute has a tick** that is due for it. -/
theorem exists_dueAt (cron : CronFires env fires) (gaps : MinuteApart ticks)
    (hdue : Due env fires s m) (hcovered : Covered env ticks m) :
    ∃ t ∈ ticks, dueAt env s t = some m := by
  obtain ⟨x, hmoment, -, rfl⟩ := hdue
  have htick : ∀ y, y / 60000 = x / 60000 → ∃ t ∈ ticks, y ≤ t ∧ t < y + 60000 := by
    intro y hy
    have hminute := env.zone.localMinute_congr hy
    exact exists_tick gaps (hcovered y hminute).1 (hcovered y hminute).2
  unfold Moment at hmoment
  cases hexpr : truthy s.cronExpression with
  | some expr =>
    rw [hexpr] at hmoment
    -- the last fire time of the minute
    obtain ⟨f, ⟨hfire, hminute⟩, hlast⟩ := Int.exists_greatest_of_bdd
      (P := fun g => fires expr (truthy s.timezone) g ∧ g / 60000 = x / 60000)
      ⟨x + 60000, fun g hg => by omega⟩ ⟨x, hmoment, rfl⟩
    obtain ⟨t, ht, hle, hlt⟩ := htick f hminute
    have hseen := dueAt_of_lastFire cron hexpr hfire
      (fun g hg heq => hlast g ⟨hg, by omega⟩) hle hlt
    exact ⟨t, ht, by rw [hseen, env.zone.localMinute_congr hminute]⟩
  | none =>
    rw [hexpr] at hmoment
    -- the tick in the minute that starts there
    obtain ⟨t, ht, hle, hlt⟩ := htick (60000 * (x / 60000)) (by omega)
    have hminute : env.zone.localMinute t = env.zone.localMinute x :=
      env.zone.localMinute_congr (by omega)
    have hstarts : StartsAt env s t := StartsAt.congr hminute.symm hmoment
    refine ⟨t, ht, ?_⟩
    unfold dueAt momentAt
    rw [hexpr]
    simp only [if_pos hstarts, Option.map_some, hminute]

/-! ### Selected once -/

/-- **Every due minute selects its schedule exactly once** in the runs in which the schedules are
    separable. -/
theorem selectedOnce_of_separable (cron : CronFires env fires)
    (hids : (rows.map (·.id)).Nodup) (gaps : MinuteApart ticks)
    (separable : ∀ s ∈ rows, Separable env fires s ticks) :
    SelectedOnce env fires rows ticks := by
  intro s hs henabled hevent m hdue
  have hsep := separable s hs
  have hticks : (ticks.filter fun t => triggers env s t) = dueTicks env s ticks :=
    List.filter_congr fun t _ => triggers_eq cron henabled hevent hsep.window
  have hcount := countP_keep hsep.keys hsep.contiguous (some m)
  rw [← hticks, ← selections_eq_keep hids hs henabled (fun _ => none), hticks] at hcount
  show _ ∧ (_ → _)
  rw [hcount]
  refine ⟨by split <;> omega, fun hcovered => if_pos ?_⟩
  obtain ⟨t, ht, hat⟩ := exists_dueAt cron gaps hdue hcovered
  have hpassed := hsep.conditions t ht m hat hdue
  exact List.mem_map.mpr ⟨t, List.mem_filter.mpr ⟨ht, by simp [hat, hpassed]⟩, hat⟩

/-- A schedule for which only the cron expression and the times are given. -/
def Schedule.ofTimes (cronExpression startTime endTime : Option String) : Schedule where
  id := 1
  name := "s"
  playlistId := 1
  clientId := none
  groupId := none
  startTime := startTime
  endTime := endTime
  daysOfWeek := "0,1,2,3,4,5,6"
  priority := 50
  enabled := true
  cronExpression := cronExpression
  durationSeconds := none
  timezone := none
  conditions := none
  interruptMode := .assign

/-- A parser for `* * * * *`. -/
def everyMinuteEnv : ScheduleEnv where
  zone := Zone.utc
  cronNext := fun expr _ currentDate endDate =>
    if expr = "* * * * *" ∧ 60000 * (currentDate / 60000 + 1) ≤ endDate then
      some (60000 * (currentDate / 60000 + 1))
    else none
  isHoliday := fun _ _ _ => false

/-- Every minute, with ticks at half past the minute: the minute in the middle of the run. -/
theorem selectedOnce_of_separable_everyMinute :
    Due everyMinuteEnv (fun expr _ x => expr = "* * * * *" ∧ x % 60000 = 0)
        (.ofTimes (some "* * * * *") none none) 1 ∧
      SelectedOnce everyMinuteEnv (fun expr _ x => expr = "* * * * *" ∧ x % 60000 = 0)
        [.ofTimes (some "* * * * *") none none] [30000, 90000, 150000] := by
  refine ⟨⟨60000, ⟨rfl, rfl⟩, rfl, rfl⟩, selectedOnce_of_separable ?_ (by decide) ?_ ?_⟩
  · constructor
    · intro expr tz currentDate endDate f
      by_cases hexpr : expr = "* * * * *"
      · simp only [everyMinuteEnv, hexpr, true_and, Option.ite_none_right_eq_some,
          Option.some.injEq]
        constructor
        · rintro ⟨hle, rfl⟩
          exact ⟨by omega, by omega, hle, fun g hg hgt => by omega⟩
        · rintro ⟨hmod, hlt, hle, hleast⟩
          have hbound := hleast (60000 * (currentDate / 60000 + 1)) (by omega) (by omega)
          exact ⟨by omega, by omega⟩
      · simp [everyMinuteEnv, hexpr]
    · rintro expr tz f g ⟨hexpr, hf⟩ ⟨-, hg⟩
      exact ⟨hexpr, by omega⟩
  · exact .cons_cons (by decide) (.cons_cons (by decide) (.singleton _))
  · -- the three ticks are due for three minutes, and have three keys
    intro s hs
    rw [List.mem_singleton.mp hs]
    refine ⟨?_, ?_, fun t _ m _ _ => rfl, nofun⟩
    · exact .cons_cons (by decide) (.cons_cons (by decide) (.singleton _))
    · intro a b c hsub heq
      have hall : [a, b, c] = [30000, 90000, 150000] := hsub.eq_of_length rfl
      cases hall
      exact absurd heq (by decide)

/-- A schedule without cron is selected at most once in the whole life of the service: every
    tick at its start time has the same key. -/
theorem length_selections_le_one (hids : (rows.map (·.id)).Nodup) (hs : s ∈ rows)
    (henabled : s.enabled = true) (hexpr : truthy s.cronExpression = none) :
    (selections env rows s last ticks).length ≤ 1 := by
  rw [selections_eq_keep hids hs henabled]
  have hstart : ∀ t, triggers env s t = true → s.startTime = some (env.zone.currentTime t) := by
    intro t ht
    unfold triggers at ht
    rw [hexpr] at ht
    simp only [Bool.if_false_left, Bool.and_eq_true] at ht
    exact beq_iff_eq.mp ht.2
  cases hlist : ticks.filter fun t => triggers env s t with
  | nil => simp [keep]
  | cons t rest =>
    rw [← hlist]
    have ht : t ∈ ticks.filter fun t => triggers env s t := by rw [hlist]; simp
    refine length_keep_le_one (k := env.zone.minuteKey t) _ fun t' ht' => ?_
    have htime : env.zone.currentTime t' = env.zone.currentTime t := by
      have h := (hstart t' (List.mem_filter.mp ht').2).symm.trans
        (hstart t (List.mem_filter.mp ht).2)
      exact Option.some.inj h
    exact env.zone.minuteKey_congr (env.zone.minuteOfDay_of_currentTime htime)

/-- No cron expression fires. -/
def noCronEnv : ScheduleEnv where
  zone := Zone.utc
  cronNext := fun _ _ _ _ => none
  isHoliday := fun _ _ _ => false

/-- A tick at the start of each of the first minutes. -/
def minuteTicks (n : Nat) : List Int := (List.range n).map fun k : Nat => 60000 * (k : Int)

theorem minuteTicks_apart (n : Nat) : MinuteApart (minuteTicks n) := by
  unfold MinuteApart minuteTicks
  rw [List.isChain_map]
  exact (List.isChain_range _ _).mpr fun k _ => by omega

theorem covered_minuteTicks {n k : Nat} (h : k + 1 < n) : Covered noCronEnv (minuteTicks n) k := by
  intro x hx
  have hminute : x / 60000 + 0 = k := hx
  have hlast : 60000 * ((k + 1 : Nat) : Int) ∈ minuteTicks n :=
    List.mem_map_of_mem (List.mem_range.mpr h)
  refine ⟨⟨0, ?_, by omega⟩, _, hlast, by omega⟩
  cases n with
  | zero => omega
  | succ n => simp [minuteTicks, List.range_succ_eq_map]

/-- A daily schedule over two days, a tick every minute: only the first day is selected. -/
theorem not_selectedOnce_daily :
    CronFires noCronEnv (fun _ _ _ => False) ∧ MinuteApart (minuteTicks 2882) ∧
      ¬ SelectedOnce noCronEnv (fun _ _ _ => False) [.ofTimes none (some "00:00") none]
        (minuteTicks 2882) := by
  refine ⟨⟨by simp [noCronEnv], nofun⟩, minuteTicks_apart _, ?_⟩
  intro honce
  have hmidnight : StartsAt noCronEnv (.ofTimes none (some "00:00") none) 0 := by decide
  have hnext : StartsAt noCronEnv (.ofTimes none (some "00:00") none) 86400000 := by decide
  have hfirst := (honce _ List.mem_cons_self rfl rfl (0 : Nat) ⟨0, hmidnight, rfl, rfl⟩).2
    (covered_minuteTicks (by omega))
  have hsecond := (honce _ List.mem_cons_self rfl rfl (1440 : Nat) ⟨86400000, hnext, rfl, rfl⟩).2
    (covered_minuteTicks (by omega))
  have hlen : (selections noCronEnv [.ofTimes none (some "00:00") none]
      (.ofTimes none (some "00:00") none) (fun _ => none) (minuteTicks 2882)).length ≤ 1 :=
    length_selections_le_one (by simp) (by simp) rfl rfl
  -- the one selected tick would be due for both days
  generalize selections _ _ _ _ _ = selected at hfirst hsecond hlen
  match selected, hlen with
  | [], _ => simp at hfirst
  | [t], _ =>
    simp only [List.countP_singleton, decide_eq_true_eq, ite_eq_left_iff, zero_ne_one,
      imp_false, not_not] at hfirst hsecond
    rw [hfirst] at hsecond
    exact absurd hsecond (by decide)

end Montr.Server
