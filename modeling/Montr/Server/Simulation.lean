import Montr.Lib.Successors
import Montr.Server.ScheduleDefinitions
import Montr.Server.ScheduleTicks
import Mathlib.Data.Int.Interval

namespace Montr.Server

open KeyedDedupe Successors

/-!
# Simulated schedules

`simulateSchedule` lists when one schedule will fire in a range, with its own walk over the dates
or over the fire times of the expression.  `SimulationAgrees` compares the calendar minutes of that
list with the minutes of the range whose last tick triggers the schedule, and
`simulationAgrees_iff` says when they are the same.

When the range begins with a minute, it foresees every start of a window that opens
(`foreseen_of_opens`).

The zone has a fixed offset, so a local date and time is one instant and a day has 24 hours.
Instants are unbounded.
-/

/-- The scheduler in a zone with a fixed offset. -/
structure FixedEnv extends ScheduleEnv where
  offset : Int
  fixed : ∀ minute, zone.offset minute = offset

instance : Coe FixedEnv ScheduleEnv := ⟨FixedEnv.toScheduleEnv⟩

/-- The instant at which a calendar minute begins. -/
def FixedEnv.instant (env : FixedEnv) (minute : Int) : Int := 60000 * (minute - env.offset)

/-- The day number of a date; what is past the end of a month runs over. -/
def dayNumber (year : Int) (month day : Nat) : Int :=
  let shifted := if month ≤ 2 then year - 1 else year
  let era := shifted / 400
  let yearOfEra := shifted - era * 400
  let fromMarch : Int := if month ≤ 2 then month + 9 else month - 3
  let dayOfYear := (153 * fromMarch + 2) / 5 + day - 1
  era * 146097 + (yearOfEra * 365 + yearOfEra / 4 - yearOfEra / 100 + dayOfYear) - 719468

example : dayNumber 2024 2 29 = 1709208000 / 86400 := by decide

/-! ### The simulation -/

section Simulation

variable (env : FixedEnv) (s : Schedule) (from_ to_ : Int)

/-- The date of `new Date(year, month, date, ..)` for the local date of `from`; the constructor
    takes the years from 0 to 99 as 1900 to 1999. -/
def firstDate : Int :=
  let today := env.zone.localDay from_
  let (year, month, date) := Zone.civil today
  if 0 ≤ year ∧ year ≤ 99 then dayNumber (year + 1900) month date else today

/-- The loop of `simulateHhmm`; `setDate` moves the cursor by a day. -/
def hhmmLoop (allowedDays : List (Option Nat)) (cursor : Int) : List Int :=
  if cursor ≤ to_ then
    (if from_ ≤ cursor ∧ some (env.zone.getDay cursor) ∈ allowedDays then [cursor] else []) ++
      hhmmLoop allowedDays (cursor + 86400000)
  else []
termination_by (to_ - cursor + 1).toNat
decreasing_by omega

def simulateHhmm : List Int :=
  match truthy s.startTime with
  | none => []
  | some startTime =>
    match (startTime.toList.splitOn ':').map number with
    | some hh :: some mm :: _ =>
      hhmmLoop env from_ to_ s.allowedDays
        (env.instant (1440 * firstDate env from_ + 60 * hh + mm))
    -- an invalid date is before nothing
    | _ => []

/-- The iterator goes on from what it answered last; `catch` ends the loop. -/
def nextOccurrences (expr : String) (tz : Option String) (max : Nat) : List Int :=
  successors (fun currentDate => env.cronNext expr (truthy tz) currentDate to_) max from_

def simulateSchedule (max : Nat) : List Int :=
  if isEventTriggered s.conditions then []
  else
    let times :=
      match truthy s.cronExpression with
      | some expr => nextOccurrences env from_ to_ expr s.timezone max
      | none =>
        match truthy s.startTime with
        | some _ => simulateHhmm env s from_ to_
        | none => []
    times.filter fun t => (evaluateConditions env s.conditions t).passed

end Simulation

/-! ### The run to compare with -/

section Ticks

variable (env : ScheduleEnv) (rows : List Schedule) (s : Schedule)

/-- The last millisecond of each minute of the range. -/
def minuteEnds (from_ to_ : Int) : List Int :=
  if from_ ≤ to_ then
    (List.range (to_ / 60000 - from_ / 60000 + 1).toNat).map fun i : Nat =>
      60000 * (from_ / 60000 + i) + 59999
  else []

/-- The ticks of a run that select a schedule when no tick before suppresses it: the state is
    empty each time. -/
def unsuppressed (ticks : List Int) : List Int :=
  ticks.filter fun t => s ∈ (evaluateSchedules env rows (fun _ => none) t).selected

/-- **The simulation agrees with evaluation**: the minutes of the occurrences are the minutes of
    the range at whose end the schedule triggers. -/
def SimulationAgrees (env : FixedEnv) (rows : List Schedule) (s : Schedule) (from_ to_ : Int) :
    Prop :=
  ∀ m, m ∈ (simulateSchedule env s from_ to_ 500).map env.zone.localMinute ↔
    m ∈ (unsuppressed env rows s (minuteEnds from_ to_)).map env.zone.localMinute

end Ticks

/-! ### When they agree -/

/-- A holiday begins and ends on a whole minute. -/
def HolidayMinutes (env : ScheduleEnv) : Prop :=
  ∀ country regions a b, a / 60000 = b / 60000 →
    env.isHoliday country regions a = env.isHoliday country regions b

/-- The window does not end before it starts or as it starts. -/
def Schedule.Opens (s : Schedule) : Prop :=
  ∀ startTime endTime, s.startTime = some startTime → truthy s.endTime = some endTime →
    startTime < endTime

/-- An instant of the calendar minute is in the range. -/
def InRange (env : ScheduleEnv) (from_ to_ m : Int) : Prop :=
  ∃ x, from_ ≤ x ∧ x ≤ to_ ∧ env.zone.localMinute x = m

/-- The calendar minute begins in the range, and on or after the date the cursor starts at. -/
structure Reached (env : FixedEnv) (from_ to_ m : Int) : Prop where
  after : from_ ≤ env.instant m
  before : env.instant m ≤ to_
  date : firstDate env from_ ≤ m / 1440

/-- What the schedule and the range must be like for the simulation to foresee what triggers. -/
structure Foreseen (env : FixedEnv) (fires : String → Option String → Int → Prop) (s : Schedule)
    (from_ to_ : Int) : Prop where
  /-- A window that does not open has no start in the range. -/
  window : truthy s.cronExpression = none → ¬ s.Opens → ∀ m, Due env fires s m →
    ¬ Reached env from_ to_ m
  /-- A window that opens in the range has its whole first minute there. -/
  start : truthy s.cronExpression = none → s.Opens → ∀ m, Due env fires s m →
    InRange env from_ to_ m → Reached env from_ to_ m
  /-- A minute with a fire time has one after `from`, not after `to`, and among the first 500. -/
  fire : ∀ expr, truthy s.cronExpression = some expr → ∀ m, Due env fires s m →
    InRange env from_ to_ m → ∃ f, fires expr (truthy s.timezone) f ∧ env.zone.localMinute f = m ∧
      from_ < f ∧ f ≤ to_ ∧ (between (fires expr (truthy s.timezone)) from_ f).ncard < 500

variable {env : FixedEnv} {fires : String → Option String → Int → Prop} {rows : List Schedule}
  {s : Schedule} {from_ to_ m x now : Int}

/-! ### Calendar minutes -/

theorem localMinute_eq (env : FixedEnv) (x : Int) :
    env.zone.localMinute x = x / 60000 + env.offset := by
  rw [Zone.localMinute, env.fixed]

/-- Every instant of a calendar minute is in the minute that begins there. -/
theorem localMinute_eq_iff :
    env.zone.localMinute x = m ↔ env.instant m ≤ x ∧ x < env.instant m + 60000 := by
  rw [localMinute_eq, FixedEnv.instant]
  omega

theorem localMinute_instant (env : FixedEnv) (m : Int) :
    env.zone.localMinute (env.instant m) = m :=
  localMinute_eq_iff.mpr (by omega)

/-- With holidays that keep to minutes, the conditions are those of the minute. -/
theorem evaluateConditions_congr (holidays : HolidayMinutes env) {a b : Int}
    (h : env.zone.localMinute a = env.zone.localMinute b) (c : Option ScheduleConditions) :
    evaluateConditions env c a = evaluateConditions env c b := by
  have hutc : a / 60000 = b / 60000 := by
    rw [localMinute_eq, localMinute_eq] at h
    omega
  have hdate : env.zone.toIsoDate a = env.zone.toIsoDate b := by
    rw [Zone.toIsoDate, Zone.toIsoDate, Zone.localDay, Zone.localDay, h]
  unfold evaluateConditions
  cases c with
  | none => rfl
  | some c => simp only [hdate, holidays _ _ a b hutc]

theorem Due.congr (holidays : HolidayMinutes env) (hdue : Due env fires s m)
    (hx : env.zone.localMinute x = m) : (evaluateConditions env s.conditions x).passed = true := by
  obtain ⟨y, -, hpassed, hy⟩ := hdue
  rw [evaluateConditions_congr holidays (hx.trans hy.symm)]
  exact hpassed

/-! ### What is simulated -/

theorem exists_days_iff {cursor : Int} : (∃ n : Nat, x = cursor + 86400000 * n) ↔
    x = cursor ∨ ∃ n : Nat, x = cursor + 86400000 + 86400000 * n := by
  constructor
  · rintro ⟨n, rfl⟩
    cases n with
    | zero => exact .inl (by omega)
    | succ n => exact .inr ⟨n, by omega⟩
  · rintro (rfl | ⟨n, rfl⟩)
    · exact ⟨0, by omega⟩
    · exact ⟨n + 1, by omega⟩

/-- The loop visits the cursor's time of day on every later date. -/
theorem mem_hhmmLoop {allowedDays : List (Option Nat)} {cursor : Int} :
    x ∈ hhmmLoop env from_ to_ allowedDays cursor ↔
      (∃ n : Nat, x = cursor + 86400000 * n) ∧ from_ ≤ x ∧ x ≤ to_ ∧
        some (env.zone.getDay x) ∈ allowedDays := by
  induction cursor using hhmmLoop.induct to_ with
  | case1 cursor hle ih =>
    rw [exists_days_iff, hhmmLoop, if_pos hle, List.mem_append, List.mem_ite_nil_right,
      List.mem_singleton, ih]
    constructor
    · rintro (⟨⟨hafter, hday⟩, rfl⟩ | ⟨hlater, hrest⟩)
      · exact ⟨.inl rfl, hafter, hle, hday⟩
      · exact ⟨.inr hlater, hrest⟩
    · rintro ⟨rfl | hlater, hafter, hbefore, hday⟩
      · exact .inl ⟨⟨hafter, hday⟩, rfl⟩
      · exact .inr ⟨hlater, hafter, hbefore, hday⟩
  | case2 cursor hgt =>
    rw [hhmmLoop, if_neg hgt]
    refine iff_of_false List.not_mem_nil ?_
    rintro ⟨⟨n, rfl⟩, -, hbefore, -⟩
    omega

/-! ### Times of day -/

theorem number_pad2 : ∀ n < 60, number (pad2 n).toList = some n := by decide

theorem colon_notMem_pad2 : ∀ n < 60, ':' ∉ (pad2 n).toList := by decide

/-- The two numbers of `HH:MM`. -/
theorem split_time {hh mm : Nat} (hhour : hh < 60) (hminute : mm < 60) :
    (s!"{pad2 hh}:{pad2 mm}".toList.splitOn ':').map number = [some hh, some mm] := by
  have hlist : s!"{pad2 hh}:{pad2 mm}".toList = (pad2 hh).toList ++ ':' :: (pad2 mm).toList := by
    simp [toString, String.toList_append]
  -- no colon in two digits
  have hpiece : ∀ n < 60, (pad2 n).toList.splitOnP (· == ':') = [(pad2 n).toList] := by
    intro n hn
    refine List.splitOnP_eq_singleton fun c hc => beq_eq_false_iff_ne.mpr ?_
    rintro rfl
    exact colon_notMem_pad2 n hn hc
  have hsplit := List.splitOnP_append_cons (p := (· == ':')) (pad2 hh).toList (pad2 mm).toList
    (beq_self_eq_true ':')
  rw [hpiece hh hhour, hpiece mm hminute] at hsplit
  rw [hlist, List.splitOn, hsplit]
  simp [number_pad2 hh hhour, number_pad2 mm hminute]

/-- A time of day is read back from the clock. -/
theorem currentTime_eq_iff {hh mm : Nat} (hhour : hh < 24) (hminute : mm < 60) :
    env.zone.currentTime x = s!"{pad2 hh}:{pad2 mm}" ↔ env.zone.minuteOfDay x = 60 * hh + mm := by
  have hclock : ∀ y, env.zone.minuteOfDay y = 60 * hh + mm →
      env.zone.currentTime y = s!"{pad2 hh}:{pad2 mm}" := by
    intro y hy
    have hhours : env.zone.getHours y = hh := by
      unfold Zone.getHours
      omega
    have hminutes : env.zone.getMinutes y = mm := by
      unfold Zone.getMinutes
      omega
    rw [Zone.currentTime, hhours, hminutes]
  refine ⟨fun h => ?_, hclock x⟩
  -- an instant with that time of day
  have hwitness : env.zone.minuteOfDay (env.instant (60 * hh + mm : Nat)) = 60 * hh + mm := by
    rw [Zone.minuteOfDay, localMinute_instant]
    omega
  rw [← hwitness]
  exact env.zone.minuteOfDay_of_currentTime (h.trans (hclock _ hwitness).symm)

/-- The days on which the cursor stands, by the clock. -/
theorem exists_days_iff_clock {date : Int} {hh mm : Nat} (hhour : hh < 24) (hminute : mm < 60) :
    (∃ n : Nat, x = env.instant (1440 * date + 60 * hh + mm) + 86400000 * n) ↔
      x = env.instant (env.zone.localMinute x) ∧ env.zone.minuteOfDay x = 60 * hh + mm ∧
        date ≤ env.zone.localMinute x / 1440 := by
  unfold Zone.minuteOfDay
  rw [localMinute_eq, FixedEnv.instant, FixedEnv.instant]
  constructor
  · rintro ⟨n, rfl⟩
    omega
  · rintro ⟨hbegins, hclock, hdate⟩
    exact ⟨((x / 60000 + env.offset) / 1440 - date).toNat, by omega⟩

/-- **What `simulateHhmm` lists**: the beginnings of the start minutes that are in the range. -/
theorem mem_simulateHhmm (admitted : s.Admitted) :
    x ∈ simulateHhmm env s from_ to_ ↔
      x = env.instant (env.zone.localMinute x) ∧ StartsAt env s x ∧
        Reached env from_ to_ (env.zone.localMinute x) := by
  unfold simulateHhmm
  cases hstart : s.startTime with
  | none =>
    refine iff_of_false List.not_mem_nil ?_
    rintro ⟨-, ⟨htime, -⟩, -⟩
    rw [hstart] at htime
    exact Option.some_ne_none _ htime.symm
  | some time =>
    have htruthy : truthy (some time) = some time := by
      rw [← hstart]
      exact truthy_of_timeRegex admitted.startTime
    -- validation leaves two numbers to read
    obtain ⟨hh, hhour, mm, hminute, rfl⟩ := exists_of_timeRegex (admitted.startTime time hstart)
    simp only [htruthy, split_time (hhour.trans (by decide)) hminute]
    rw [mem_hhmmLoop, exists_days_iff_clock hhour hminute, ← currentTime_eq_iff hhour hminute,
      StartsAt, hstart, Option.some_inj]
    constructor
    · rintro ⟨⟨hbegins, hclock, hdate⟩, hafter, hbefore, hday⟩
      exact ⟨hbegins, ⟨hclock.symm, hday⟩, ⟨hbegins ▸ hafter, hbegins ▸ hbefore, hdate⟩⟩
    · rintro ⟨hbegins, ⟨hclock, hday⟩, hreached⟩
      exact ⟨⟨hbegins, hclock.symm, hreached.date⟩, hbegins ▸ hreached.after,
        hbegins ▸ hreached.before, hday⟩

/-- **What `nextOccurrences` lists**: the fire times after `from` that fewer than `max` precede. -/
theorem mem_nextOccurrences (cron : CronFires env fires) {expr : String} {tz : Option String}
    {max : Nat} :
    x ∈ nextOccurrences env from_ to_ expr tz max ↔
      fires expr (truthy tz) x ∧ from_ < x ∧ x ≤ to_ ∧
        (between (fires expr (truthy tz)) from_ x).ncard < max := by
  -- the bound `to` is part of the set the iterator goes through
  have hspec : ∀ a b, env.cronNext expr (truthy tz) a to_ = some b ↔
      IsNext (fun f => fires expr (truthy tz) f ∧ f ≤ to_) a b := by
    intro a b
    rw [cron.enumerates]
    constructor
    · rintro ⟨hb, hab, hbefore, hleast⟩
      exact ⟨⟨hb, hbefore⟩, hab, fun c hc hac => hleast c hc.1 hac⟩
    · rintro ⟨⟨hb, hbefore⟩, hab, hleast⟩
      refine ⟨hb, hab, hbefore, fun g hg hag => ?_⟩
      rcases le_total g to_ with hgto | htog
      · exact hleast g ⟨hg, hgto⟩ hag
      · exact hbefore.trans htog
  have hbetween : x ≤ to_ → between (fun f => fires expr (truthy tz) f ∧ f ≤ to_) from_ x =
      between (fires expr (truthy tz)) from_ x := by
    intro hx
    ext c
    exact ⟨fun ⟨hc, hrest⟩ => ⟨hc.1, hrest⟩,
      fun ⟨hc, hafter, hcx⟩ => ⟨⟨hc, (hcx.trans_le hx).le⟩, hafter, hcx⟩⟩
  rw [nextOccurrences, mem_successors hspec]
  constructor
  · rintro ⟨⟨hx, hbefore⟩, hafter, hfew⟩
    exact ⟨hx, hafter, hbefore, hbetween hbefore ▸ hfew⟩
  · rintro ⟨hx, hafter, hbefore, hfew⟩
    exact ⟨⟨hx, hbefore⟩, hafter, (hbetween hbefore).symm ▸ hfew⟩

/-- The minutes simulated for an expression. -/
theorem mem_simulated_of_cron (cron : CronFires env fires) (holidays : HolidayMinutes env)
    (hevent : isEventTriggered s.conditions = false) {expr : String}
    (hexpr : truthy s.cronExpression = some expr) {max : Nat} :
    m ∈ (simulateSchedule env s from_ to_ max).map env.zone.localMinute ↔
      Due env fires s m ∧ ∃ f, fires expr (truthy s.timezone) f ∧ env.zone.localMinute f = m ∧
        from_ < f ∧ f ≤ to_ ∧ (between (fires expr (truthy s.timezone)) from_ f).ncard < max := by
  have hmoment : ∀ f, Moment env fires s f ↔ fires expr (truthy s.timezone) f := by
    intro f
    rw [Moment, hexpr]
  simp only [simulateSchedule, hevent, hexpr, Bool.false_eq_true, if_false, List.mem_map,
    List.mem_filter, mem_nextOccurrences cron]
  constructor
  · rintro ⟨f, ⟨⟨hf, hreached⟩, hpassed⟩, rfl⟩
    exact ⟨⟨f, (hmoment f).mpr hf, hpassed, rfl⟩, f, hf, rfl, hreached⟩
  · rintro ⟨hdue, f, hf, hminute, hreached⟩
    exact ⟨f, ⟨⟨hf, hreached⟩, hdue.congr holidays hminute⟩, hminute⟩

/-- The minutes simulated for a start time. -/
theorem mem_simulated_of_start (admitted : s.Admitted) (holidays : HolidayMinutes env)
    (hevent : isEventTriggered s.conditions = false)
    (hexpr : truthy s.cronExpression = none) {max : Nat} :
    m ∈ (simulateSchedule env s from_ to_ max).map env.zone.localMinute ↔
      Due env fires s m ∧ Reached env from_ to_ m := by
  have hmoment : ∀ y, Moment env fires s y ↔ StartsAt env s y := by
    intro y
    rw [Moment, hexpr]
  have hlist : ∀ y, y ∈ simulateSchedule env s from_ to_ max ↔
      y ∈ simulateHhmm env s from_ to_ ∧
        (evaluateConditions env s.conditions y).passed = true := by
    intro y
    simp only [simulateSchedule, hevent, hexpr, Bool.false_eq_true, if_false, List.mem_filter]
    cases hstart : truthy s.startTime with
    | none => simp [simulateHhmm, hstart]
    | some time => exact Iff.rfl
  simp only [List.mem_map, hlist, mem_simulateHhmm admitted]
  constructor
  · rintro ⟨y, ⟨⟨-, hstarts, hreached⟩, hpassed⟩, rfl⟩
    exact ⟨⟨y, (hmoment y).mpr hstarts, hpassed, rfl⟩, hreached⟩
  · rintro ⟨hdue, hreached⟩
    -- a due minute has one start time, where it begins
    have hminute := localMinute_instant env m
    obtain ⟨y, hy, -, hym⟩ := id hdue
    have hstarts : StartsAt env s (env.instant m) :=
      ((hmoment y).mp hy).congr (hym.trans hminute.symm)
    exact ⟨env.instant m, ⟨⟨by rw [hminute], hstarts, by rwa [hminute]⟩,
      hdue.congr holidays hminute⟩, hminute⟩

/-! ### What the ticks trigger -/

/-- A minute is in the range when it is between those of the two ends. -/
theorem inRange_iff : InRange env from_ to_ m ↔
    from_ ≤ to_ ∧ env.zone.localMinute from_ ≤ m ∧ m ≤ env.zone.localMinute to_ := by
  constructor
  · rintro ⟨x, hafter, hbefore, rfl⟩
    simp only [localMinute_eq]
    omega
  · rintro ⟨hle, hfrom, hto⟩
    simp only [localMinute_eq] at hfrom hto
    by_cases hbegins : from_ ≤ env.instant m
    · refine ⟨env.instant m, hbegins, ?_, localMinute_instant env m⟩
      unfold FixedEnv.instant
      omega
    · -- the range begins within the minute
      refine ⟨from_, le_rfl, hle, ?_⟩
      unfold FixedEnv.instant at hbegins
      rw [localMinute_eq]
      omega

theorem mem_minuteEnds : x ∈ minuteEnds from_ to_ ↔
    InRange env from_ to_ (env.zone.localMinute x) ∧
      x = env.instant (env.zone.localMinute x) + 59999 := by
  rw [inRange_iff]
  simp only [localMinute_eq, FixedEnv.instant, minuteEnds]
  split
  next hle =>
    simp only [List.mem_map, List.mem_range]
    -- the `i`-th tick is in the `i`-th minute of the range
    constructor
    · rintro ⟨i, hi, rfl⟩
      omega
    · rintro ⟨hrange, hend⟩
      exact ⟨(x / 60000 - from_ / 60000).toNat, by omega, by omega⟩
  next hgt =>
    refine iff_of_false List.not_mem_nil ?_
    rintro ⟨⟨hle, -⟩, -⟩
    exact hgt hle

/-- The last tick of a minute sees a moment of exactly that minute. -/
theorem dueAt_isSome_iff (cron : CronFires env fires)
    (hend : now = env.instant (env.zone.localMinute now) + 59999) :
    (dueAt env s now).isSome = true ↔
      ∃ x, Moment env fires s x ∧ env.zone.localMinute x = env.zone.localMinute now := by
  -- the window of the tick is the minute
  have hminute : ∀ x, env.zone.localMinute x = env.zone.localMinute now ↔
      now - 60000 < x ∧ x ≤ now := by
    intro x
    rw [localMinute_eq_iff]
    omega
  simp only [hminute]
  unfold dueAt momentAt Moment
  rw [Option.isSome_map]
  cases hexpr : truthy s.cronExpression with
  | some expr =>
    simp only [Option.isSome_iff_exists, cron.enumerates]
    constructor
    · rintro ⟨f, hf, hafter, hbefore, -⟩
      exact ⟨f, hf, hafter, hbefore⟩
    · rintro ⟨x, hx, hafter, hbefore⟩
      obtain ⟨f, hfirst⟩ := exists_isNext hx hafter
      exact ⟨f, hfirst.mem, hfirst.lt, (hfirst.least x hx hafter).trans hbefore, hfirst.least⟩
  | none =>
    constructor
    · intro h
      by_cases hstarts : StartsAt env s now
      · exact ⟨now, hstarts, by omega, le_rfl⟩
      · simp [hstarts] at h
    · rintro ⟨x, hstarts, hx⟩
      have hnow : StartsAt env s now := StartsAt.congr ((hminute x).mpr hx) hstarts
      simp [hnow]

/-- A window that ends as it starts, or before, is not open at its start. -/
theorem opens_of_triggers (hexpr : truthy s.cronExpression = none)
    (h : triggers env s now = true) : s.Opens := by
  unfold triggers at h
  rw [hexpr] at h
  simp only [Bool.if_false_left, Bool.decide_eq_true, Bool.not_not, Bool.and_eq_true,
    beq_iff_eq] at h
  obtain ⟨hactive, hstart⟩ := h
  intro startTime endTime hstartTime hendTime
  have hclock : startTime = env.zone.currentTime now :=
    Option.some.inj (hstartTime.symm.trans hstart)
  have htruthy : truthy s.startTime = some (env.zone.currentTime now) := by
    rw [hstart]
    exact Option.filter_eq_some_iff.mpr ⟨rfl, by simpa using env.zone.currentTime_ne now⟩
  rw [hclock]
  -- with `end_time` not after the clock the schedule is not active
  by_contra hends
  have hclosed : endTime ≤ env.zone.currentTime now := not_lt.mp hends
  simp only [isScheduleActive, hexpr, htruthy, hendTime, decide_eq_true hclosed, Bool.not_true,
    ite_self, Bool.false_eq_true] at hactive

/-- **What the last tick of a minute triggers**: a schedule that is due in it and opens. -/
theorem triggers_minuteEnd_iff (cron : CronFires env fires) (holidays : HolidayMinutes env)
    (henabled : s.enabled = true) (hevent : isEventTriggered s.conditions = false)
    (hend : now = env.instant (env.zone.localMinute now) + 59999) :
    triggers env s now = true ↔
      Due env fires s (env.zone.localMinute now) ∧ (truthy s.cronExpression = none → s.Opens) := by
  -- where the window opens, the tick triggers what it sees due
  have hwith : (truthy s.cronExpression = none → s.Opens) →
      (triggers env s now = true ↔ Due env fires s (env.zone.localMinute now)) := by
    intro hopens
    rw [triggers_eq cron henabled hevent hopens, Bool.and_eq_true, dueAt_isSome_iff cron hend]
    constructor
    · rintro ⟨⟨x, hx, hminute⟩, hpassed⟩
      rw [← evaluateConditions_congr holidays hminute] at hpassed
      exact ⟨x, hx, hpassed, hminute⟩
    · intro hdue
      obtain ⟨x, hx, -, hminute⟩ := id hdue
      exact ⟨⟨x, hx, hminute⟩, hdue.congr holidays rfl⟩
  constructor
  · intro h
    have hopens : truthy s.cronExpression = none → s.Opens := fun hexpr => opens_of_triggers hexpr h
    exact ⟨(hwith hopens).mp h, hopens⟩
  · rintro ⟨hdue, hopens⟩
    exact (hwith hopens).mpr hdue

theorem unsuppressed_eq_filter (hids : (rows.map (·.id)).Nodup) (hs : s ∈ rows)
    (henabled : s.enabled = true) (ticks : List Int) :
    unsuppressed env rows s ticks = ticks.filter fun t => triggers env s t := by
  refine List.filter_congr fun t _ => ?_
  by_cases htriggers : triggers env s t = true
  · have hselected := (evaluateSchedules_of_triggers (fun _ => none) hids hs henabled htriggers).1
    rw [htriggers, decide_eq_true (hselected.mpr (Option.some_ne_none _).symm)]
  · have hnot := (evaluateSchedules_of_not_triggers (fun _ => none) hids hs henabled htriggers).1
    rw [Bool.eq_false_iff.mpr htriggers, decide_eq_false hnot]

/-- The run selects less: repeats of a key are dropped. -/
theorem selections_eq_keep_unsuppressed (hids : (rows.map (·.id)).Nodup) (hs : s ∈ rows)
    (henabled : s.enabled = true) (ticks : List Int) :
    selections env rows s (fun _ => none) ticks =
      keep env.zone.minuteKey none (unsuppressed env rows s ticks) := by
  rw [selections_eq_keep hids hs henabled, unsuppressed_eq_filter hids hs henabled]

/-- The minutes of the range that trigger a schedule. -/
theorem mem_triggered (cron : CronFires env fires) (holidays : HolidayMinutes env)
    (hids : (rows.map (·.id)).Nodup) (hs : s ∈ rows) (henabled : s.enabled = true)
    (hevent : isEventTriggered s.conditions = false) :
    m ∈ (unsuppressed env rows s (minuteEnds from_ to_)).map env.zone.localMinute ↔
      InRange env from_ to_ m ∧ Due env fires s m ∧
        (truthy s.cronExpression = none → s.Opens) := by
  simp only [List.mem_map, unsuppressed_eq_filter hids hs henabled, List.mem_filter,
    @mem_minuteEnds env]
  constructor
  · rintro ⟨t, ⟨⟨hrange, hend⟩, htriggers⟩, rfl⟩
    exact ⟨hrange, (triggers_minuteEnd_iff cron holidays henabled hevent hend).mp htriggers⟩
  · rintro ⟨hrange, hdue⟩
    -- the minute's own last tick
    have hminute : env.zone.localMinute (env.instant m + 59999) = m :=
      localMinute_eq_iff.mpr (by omega)
    have hend : env.instant m + 59999 =
        env.instant (env.zone.localMinute (env.instant m + 59999)) + 59999 := by rw [hminute]
    rw [← hminute] at hdue hrange
    exact ⟨_, ⟨⟨hrange, hend⟩,
      (triggers_minuteEnd_iff cron holidays henabled hevent hend).mpr hdue⟩, hminute⟩

/-! ### Agreement -/

/-- **The simulation agrees with evaluation** exactly when what triggers is foreseen. -/
theorem simulationAgrees_iff (cron : CronFires env fires) (holidays : HolidayMinutes env)
    (hids : (rows.map (·.id)).Nodup) (hs : s ∈ rows) (henabled : s.enabled = true)
    (hevent : isEventTriggered s.conditions = false) (admitted : s.Admitted) :
    SimulationAgrees env rows s from_ to_ ↔ Foreseen env fires s from_ to_ := by
  unfold SimulationAgrees
  simp only [mem_triggered cron holidays hids hs henabled hevent]
  cases hexpr : truthy s.cronExpression with
  | some expr =>
    have hcron : some expr ≠ none := Option.some_ne_none expr
    simp only [mem_simulated_of_cron cron holidays hevent hexpr]
    constructor
    · intro h
      refine ⟨fun hnone => absurd (hexpr.symm.trans hnone) hcron,
        fun hnone => absurd (hexpr.symm.trans hnone) hcron, fun expr' hexpr' m hdue hrange => ?_⟩
      obtain rfl : expr = expr' := Option.some.inj (hexpr.symm.trans hexpr')
      exact ((h m).mpr ⟨hrange, hdue, fun hnone => absurd hnone hcron⟩).2
    · intro h m
      constructor
      · rintro ⟨hdue, f, -, hminute, hafter, hbefore, -⟩
        exact ⟨⟨f, hafter.le, hbefore, hminute⟩, hdue, fun hnone => absurd hnone hcron⟩
      · rintro ⟨hrange, hdue, -⟩
        exact ⟨hdue, h.fire expr hexpr m hdue hrange⟩
  | none =>
    have hbegins : ∀ m, Reached env from_ to_ m → InRange env from_ to_ m := fun m h =>
      ⟨env.instant m, h.after, h.before, localMinute_instant env m⟩
    have hsimulated := fun m =>
      @mem_simulated_of_start env fires s from_ to_ m admitted holidays hevent hexpr 500
    simp only [hsimulated, forall_const]
    constructor
    · intro h
      refine ⟨fun _ hclosed m hdue hreached => ?_, fun _ hopens m hdue hrange => ?_, ?_⟩
      · -- what is simulated triggers, so the window opens
        exact hclosed ((h m).mp ⟨hdue, hreached⟩).2.2
      · exact ((h m).mpr ⟨hrange, hdue, hopens⟩).2
      · intro expr hsome
        exact absurd (hsome.symm.trans hexpr) (Option.some_ne_none expr)
    · intro h m
      constructor
      · rintro ⟨hdue, hreached⟩
        refine ⟨hbegins m hreached, hdue, ?_⟩
        by_contra hclosed
        exact h.window hexpr hclosed m hdue hreached
      · rintro ⟨hrange, hdue, hopens⟩
        exact ⟨hdue, h.start hexpr hopens m hdue hrange⟩

/-- A range that begins with a minute foresees the starts of a window that opens. -/
theorem foreseen_of_opens (hexpr : truthy s.cronExpression = none) (hopens : s.Opens)
    (hbegins : from_ = env.instant (env.zone.localMinute from_))
    (hdate : firstDate env from_ ≤ env.zone.localDay from_) :
    Foreseen env fires s from_ to_ := by
  refine ⟨fun _ hclosed => absurd hopens hclosed, fun _ _ m _ hrange => ?_,
    fun expr hsome => absurd (hsome.symm.trans hexpr) (Option.some_ne_none expr)⟩
  obtain ⟨x, hafter, hbefore, hminute⟩ := hrange
  have hfirst : env.zone.localMinute from_ ≤ m := by
    rw [← hminute, localMinute_eq, localMinute_eq]
    omega
  refine ⟨?_, (localMinute_eq_iff.mp hminute).1.trans hbefore, hdate.trans ?_⟩
  · rw [hbegins]
    unfold FixedEnv.instant
    omega
  · unfold Zone.localDay
    omega

/-- A zone without offset and without cron. -/
def noCronFixed : FixedEnv where
  toScheduleEnv := noCronEnv
  offset := 0
  fixed := fun _ => rfl

/-- A start time with an end, on every day. -/
theorem admitted_ofTimes {startTime endTime : String} (hstart : timeRegex startTime.toList = true)
    (hend : timeRegex endTime.toList = true) :
    (Schedule.ofTimes none (some startTime) (some endTime)).Admitted where
  startTime := by
    rintro time ⟨⟩
    exact hstart
  endTime := by
    rintro time ⟨⟩
    exact hend
  daysOfWeek := by
    show daysOfWeekRegex "0,1,2,3,4,5,6".toList = true
    decide
  cronExpression := by
    rintro expr ⟨⟩
  specialDates := by
    rintro dates ⟨⟩

theorem cronFires_noCron : CronFires noCronFixed (fun _ _ _ => False) :=
  ⟨by simp [noCronFixed, noCronEnv], fun _ _ _ _ h => h.elim⟩

/-- From ten to five, over the first day. -/
theorem simulationAgrees_iff_workday :
    SimulationAgrees noCronFixed [.ofTimes none (some "10:00") (some "17:00")]
      (.ofTimes none (some "10:00") (some "17:00")) 0 86399999 := by
  have hopens : (Schedule.ofTimes none (some "10:00") (some "17:00")).Opens := by
    rintro startTime endTime ⟨⟩ hend
    obtain rfl : "17:00" = endTime := Option.some.inj hend
    decide
  exact (simulationAgrees_iff cronFires_noCron (fun _ _ _ _ _ => rfl) (by decide)
    List.mem_cons_self rfl rfl (admitted_ofTimes (by decide) (by decide))).mpr
    (foreseen_of_opens rfl hopens (by decide) (by decide))

/-- From ten to nine: the start is simulated and never triggers. -/
theorem not_simulationAgrees_tenToNine :
    CronFires noCronFixed (fun _ _ _ => False) ∧ HolidayMinutes noCronFixed ∧
      (Schedule.ofTimes none (some "10:00") (some "09:00")).Admitted ∧
      simulateSchedule noCronFixed (.ofTimes none (some "10:00") (some "09:00")) 0 86399999 500 =
        [36000000] ∧
      ¬ SimulationAgrees noCronFixed [.ofTimes none (some "10:00") (some "09:00")]
        (.ofTimes none (some "10:00") (some "09:00")) 0 86399999 := by
  have hlist : simulateSchedule noCronFixed (.ofTimes none (some "10:00") (some "09:00")) 0
      86399999 500 = [36000000] := by
    decide +kernel
  refine ⟨cronFires_noCron, fun _ _ _ _ _ => rfl, admitted_ofTimes (by decide) (by decide), hlist,
    fun h => ?_⟩
  have hreported := h 600
  rw [hlist, mem_triggered cronFires_noCron (fun _ _ _ _ _ => rfl) (by decide) List.mem_cons_self
    rfl rfl] at hreported
  have hopens := (hreported.mp (by decide)).2.2 rfl "10:00" "09:00" rfl rfl
  exact absurd hopens (by decide)

end Montr.Server
