import Montr.Client.ScheduleEval
import Montr.Server.ScheduleTicks

namespace Montr.Client

open Server

/-!
# The player and the server on active schedules

`isActive` is written after `isScheduleActive`, with other libraries and in another order.  For
every schedule that the server lets in, `Agrees` says at which instants the two give one answer
(`isActive_eq_iff`): an empty list of dates, the days of a cron schedule, the first thousand years
and the cron expressions themselves are read differently.
-/

variable {env : ScheduleEnv} {crates : TimeCrates} {zone : Zone} {s : Schedule} {now : Int}

/-! ### Times of day -/

theorem parsesTime_of_timeRegex {time : String} (h : timeRegex time.toList = true) :
    crates.parsesTime time = true := by
  obtain ⟨hour, hhour, minute, hminute, rfl⟩ := exists_of_timeRegex h
  exact crates.parsesTime_hours hour hhour minute hminute

/-! ### Days -/

theorem splitOn_cons_cons {c sep : Char} (rest : List Char) (h : c ≠ sep) :
    (c :: sep :: rest).splitOn sep = [c] :: rest.splitOn sep := by
  have hfirst : [c].splitOnP (· == sep) = [[c]] := by
    refine List.splitOnP_eq_singleton fun x hx => ?_
    obtain rfl := List.mem_singleton.mp hx
    exact beq_eq_false_iff_ne.mpr h
  have hsplit := List.splitOnP_append_cons (p := (· == sep)) [c] rest (beq_self_eq_true sep)
  rw [hfirst] at hsplit
  exact hsplit

theorem isDayDigit_ne {c : Char} (h : isDayDigit c = true) : c ≠ ',' := by
  rintro rfl
  exact absurd h (by decide)

/-- The pieces of an admitted list of days are digits. -/
theorem exists_of_daysOfWeekRegex {days : List Char} (h : daysOfWeekRegex days = true) :
    ∀ piece ∈ days.splitOn ',', ∃ c, isDayDigit c = true ∧ piece = [c] := by
  induction days using daysOfWeekRegex.induct with
  | case1 c =>
    intro piece hpiece
    have hday : isDayDigit c = true := h
    have hsplit : [c].splitOn ',' = [[c]] := by
      refine List.splitOnP_eq_singleton fun x hx => ?_
      obtain rfl := List.mem_singleton.mp hx
      exact beq_eq_false_iff_ne.mpr (isDayDigit_ne hday)
    rw [hsplit] at hpiece
    exact ⟨c, hday, List.mem_singleton.mp hpiece⟩
  | case2 c rest ih =>
    obtain ⟨hday, hrest⟩ : isDayDigit c = true ∧ daysOfWeekRegex rest = true := by
      simpa [daysOfWeekRegex] using h
    intro piece hpiece
    rw [splitOn_cons_cons rest (isDayDigit_ne hday)] at hpiece
    obtain rfl | hpiece := List.mem_cons.mp hpiece
    · exact ⟨c, hday, rfl⟩
    · exact ih hrest piece hpiece
  | case3 => exact absurd h (by simp [daysOfWeekRegex])

theorem number_eq_parseU32 {c : Char} (h : isDayDigit c = true) :
    ∃ k, number [c] = some k ∧ parseU32 (trim [c]) = some k := by
  obtain ⟨hlow, hhigh⟩ := Bool.and_eq_true_iff.mp h
  obtain ⟨k, hk, rfl⟩ := exists_digit (n := 6) (of_decide_eq_true hlow) (of_decide_eq_true hhigh)
  have hall : ∀ k ≤ 6, number [Char.ofNat (48 + k)] = some k ∧
      parseU32 (trim [Char.ofNat (48 + k)]) = some k := by decide
  exact ⟨k, hall k hk⟩

theorem contains_days {pieces : List (List Char)} (day : Nat)
    (h : ∀ piece ∈ pieces, ∃ c, isDayDigit c = true ∧ piece = [c]) :
    (pieces.map number).contains (some day) =
      (pieces.filterMap fun text => parseU32 (trim text)).contains day := by
  induction pieces with
  | nil => rfl
  | cons piece pieces ih =>
    obtain ⟨c, hday, rfl⟩ := h piece List.mem_cons_self
    obtain ⟨k, hnumber, hparse⟩ := number_eq_parseU32 hday
    have hrest := ih fun piece hpiece => h piece (List.mem_cons_of_mem _ hpiece)
    rw [List.map_cons, List.filterMap_cons, hnumber, hparse, List.contains_cons,
      List.contains_cons, hrest]
    rfl

/-- Both sides read the same days. -/
theorem allowedDays_eq (h : daysOfWeekRegex s.daysOfWeek.toList = true) (day : Nat) :
    s.allowedDays.contains (some day) = (allowedDays s.definition).contains day :=
  contains_days day (exists_of_daysOfWeekRegex h)

/-! ### Dates -/

/-- The year of the local date. -/
def localYear (zone : Zone) (now : Int) : Int := (Zone.civil (zone.localDay now)).1

/-- An admitted date starts with four digits and a dash. -/
theorem exists_of_isoDateRegex {date : List Char} (h : isoDateRegex date = true) :
    ∃ a b c d rest, date = a :: b :: c :: d :: '-' :: rest ∧ a.isDigit = true ∧
      b.isDigit = true ∧ c.isDigit = true ∧ d.isDigit = true := by
  unfold isoDateRegex at h
  split at h
  · next a b c d e f g i =>
    simp only [List.all_cons, Bool.and_eq_true] at h
    obtain ⟨ha, hb, hc, hd, -⟩ := h
    exact ⟨a, b, c, d, _, rfl, ha, hb, hc, hd⟩
  · cases h

theorem length_of_isoDateRegex {year rest : List Char} (digits : ∀ c ∈ year, c.isDigit = true)
    (h : isoDateRegex (year ++ '-' :: rest) = true) : year.length = 4 := by
  obtain ⟨a, b, c, d, rest', hdate, ha, hb, hc, hd⟩ := exists_of_isoDateRegex h
  -- the digits before the first dash are the year on one side and four on the other
  have htake := congrArg (List.takeWhile Char.isDigit) hdate
  have hdash : Char.isDigit '-' = false := by decide
  rw [List.takeWhile_append_of_pos digits] at htake
  simp only [List.takeWhile_cons, ha, hb, hc, hd, hdash] at htake
  have hyear : year = [a, b, c, d] := by simpa using htake
  rw [hyear]
  rfl

theorem isDigit_of_isoDateRegex {c : Char} {rest : List Char}
    (h : isoDateRegex (c :: rest) = true) : c.isDigit = true := by
  obtain ⟨a, b, c', d, rest', hdate, ha, -⟩ := exists_of_isoDateRegex h
  rw [(List.cons.inj hdate).1]
  exact ha

theorem toIsoDate_toList (zone : Zone) (now : Int) :
    ∃ rest, (zone.toIsoDate now).toList =
      (toString (localYear zone now)).toList ++ '-' :: rest := by
  refine ⟨(pad2 (Zone.civil (zone.localDay now)).2.1 ++ "-" ++
    pad2 (Zone.civil (zone.localDay now)).2.2).toList, ?_⟩
  simp [Zone.toIsoDate, localYear, toString]

theorem today_toList (zone : Zone) (now : Int) :
    ∃ rest, (today zone now).toList = (formatYear (localYear zone now)).toList ++ '-' :: rest := by
  refine ⟨(pad2 (Zone.civil (zone.localDay now)).2.1 ++ "-" ++
    pad2 (Zone.civil (zone.localDay now)).2.2).toList, ?_⟩
  simp [today, localYear, toString]

theorem toList_toString_of_nonneg {year : Int} (h : 0 ≤ year) :
    (toString year).toList = Nat.toDigits 10 year.toNat := by
  rw [Int.toString_eq_repr, Int.repr_eq_if, if_pos h, Nat.toList_repr]

theorem head_toString_of_neg {year : Int} (h : year < 0) :
    ∃ rest, (toString year).toList = '-' :: rest := by
  rw [Int.toString_eq_repr, Int.repr_eq_if, if_neg (by omega)]
  exact ⟨(-year).toNat.repr.toList, by simp [String.toList_append]⟩

/-- How many digits a year has. -/
theorem length_year {year : Int} (h : 0 ≤ year) :
    (Nat.toDigits 10 year.toNat).length = 4 ↔ 1000 ≤ year ∧ year ≤ 9999 := by
  have hfour : (Nat.toDigits 10 year.toNat).length ≤ 4 ↔ year.toNat < 10 ^ 4 :=
    Nat.length_toDigits_le_iff (by omega) (by omega)
  have hthree : (Nat.toDigits 10 year.toNat).length ≤ 3 ↔ year.toNat < 10 ^ 3 :=
    Nat.length_toDigits_le_iff (by omega) (by omega)
  omega

/-- Years of four digits are written alike. -/
theorem formatYear_eq {year : Int} (low : 1000 ≤ year) (high : year ≤ 9999) :
    formatYear year = toString year := by
  have hlength := (length_year (by omega)).mpr ⟨low, high⟩
  have habs : year.natAbs = year.toNat := by omega
  unfold formatYear
  rw [if_neg (by omega), if_pos high, habs]
  apply String.toList_injective
  rw [toList_toString_of_nonneg (by omega), pad4, String.toList_ofList, List.leftpad, hlength]
  rfl

/-- The server writes a listed date in years of four digits only. -/
theorem year_of_isoDateRegex (h : isoDateRegex (zone.toIsoDate now).toList = true) :
    1000 ≤ localYear zone now ∧ localYear zone now ≤ 9999 := by
  obtain ⟨rest, hrest⟩ := toIsoDate_toList zone now
  rw [hrest] at h
  by_cases hneg : localYear zone now < 0
  · -- a date does not start with a sign
    obtain ⟨digits, hdigits⟩ := head_toString_of_neg hneg
    rw [hdigits] at h
    exact absurd (isDigit_of_isoDateRegex h) (by decide)
  · have hnonneg : 0 ≤ localYear zone now := by omega
    rw [toList_toString_of_nonneg hnonneg] at h
    refine (length_year hnonneg).mp (length_of_isoDateRegex (fun c hc => ?_) h)
    exact Nat.isDigit_of_mem_toDigits (by omega) (by omega) hc

/-- The player writes one in years from 0 to 9999. -/
theorem year_of_today (h : isoDateRegex (today zone now).toList = true) :
    0 ≤ localYear zone now ∧ localYear zone now ≤ 9999 := by
  obtain ⟨rest, hrest⟩ := today_toList zone now
  rw [hrest] at h
  unfold formatYear at h
  split at h
  · rw [String.toList_append] at h
    exact absurd (isDigit_of_isoDateRegex h) (by decide)
  · split at h
    · omega
    · rw [String.toList_append] at h
      exact absurd (isDigit_of_isoDateRegex h) (by decide)

theorem today_eq (low : 1000 ≤ localYear zone now) (high : localYear zone now ≤ 9999) :
    today zone now = zone.toIsoDate now := by
  have hyear := formatYear_eq low high
  unfold localYear at hyear
  simp only [today, Zone.toIsoDate]
  rw [hyear]
  rfl

/-- The server finds today among admitted dates when the player does, from the year 1000 on. -/
theorem mem_dates {dates : List String}
    (admitted : ∀ date ∈ dates, isoDateRegex date.toList = true) :
    zone.toIsoDate now ∈ dates ↔ today zone now ∈ dates ∧ 1000 ≤ localYear zone now := by
  constructor
  · intro hmem
    obtain ⟨hlow, hhigh⟩ := year_of_isoDateRegex (admitted _ hmem)
    rw [today_eq hlow hhigh]
    exact ⟨hmem, hlow⟩
  · rintro ⟨hmem, hlow⟩
    obtain ⟨-, hhigh⟩ := year_of_today (admitted _ hmem)
    rw [← today_eq hlow hhigh]
    exact hmem

/-! ### What the two sides compute -/

def serverDates (zone : Zone) (s : Schedule) (now : Int) : Bool :=
  s.specialDates.all fun dates => dates.isEmpty || dates.contains (zone.toIsoDate now)

def playerDates (zone : Zone) (s : Schedule) (now : Int) : Bool :=
  s.specialDates.all fun dates => dates.contains (today zone now)

def dayAllowed (zone : Zone) (s : Schedule) (now : Int) : Bool :=
  s.allowedDays.contains (some (zone.getDay now))

/-- The window of a schedule without cron. -/
def inWindow (zone : Zone) (s : Schedule) (now : Int) : Bool :=
  s.startTime.any fun startTime => dayAllowed zone s now &&
    decide (startTime ≤ zone.currentTime now) &&
    s.endTime.all fun endTime => decide (zone.currentTime now < endTime)

theorem missesDate_eq (c : ScheduleConditions) (today : String) :
    c.missesDate today =
      !c.specialDates.all fun dates => dates.isEmpty || dates.contains today := by
  obtain ⟨holidays, specialDates, eventTrigger⟩ := c
  cases specialDates with
  | none => rfl
  | some dates => simp [ScheduleConditions.missesDate]

theorem passed_of_plain (plain : s.Plain) :
    isEventTriggered s.conditions = false ∧
      (evaluateConditions env s.conditions now).passed = serverDates env.zone s now := by
  cases hconditions : s.conditions with
  | none =>
    refine ⟨rfl, ?_⟩
    simp [evaluateConditions, serverDates, Schedule.specialDates, hconditions]
  | some c =>
    obtain ⟨hholidays, hevent⟩ := plain c hconditions
    have hdates : s.specialDates = c.specialDates := by simp [Schedule.specialDates, hconditions]
    refine ⟨by simp [isEventTriggered, hevent], ?_⟩
    have hmisses := missesDate_eq c (env.zone.toIsoDate now)
    unfold serverDates
    rw [hdates]
    cases hall : c.specialDates.all fun dates =>
        dates.isEmpty || dates.contains (env.zone.toIsoDate now) with
    | false =>
      rw [hall] at hmisses
      simp [evaluateConditions, hevent, hmisses]
    | true =>
      rw [hall] at hmisses
      simp [evaluateConditions, hevent, hmisses, hholidays]

theorem passesConditions_of_plain (plain : s.Plain) :
    passesConditions zone now s.definition.conditions = playerDates zone s now := by
  cases hconditions : s.conditions with
  | none =>
    simp [Schedule.definition, passesConditions, playerDates, Schedule.specialDates, hconditions]
  | some c =>
    obtain ⟨hholidays, hevent⟩ := plain c hconditions
    have hdates : s.specialDates = c.specialDates := by simp [Schedule.specialDates, hconditions]
    unfold playerDates
    rw [hdates]
    simp only [Schedule.definition, hconditions, Option.map_some, toJson_of_plain hholidays hevent]
    cases c.specialDates with
    | none => rfl
    | some dates =>
      have hlisted : (dates.map Json.string).filterMap Json.asStr = dates := by
        rw [List.filterMap_map]
        exact List.filterMap_some
      have hany : (dates.any fun d => decide (d = today zone now)) =
          dates.contains (today zone now) := Bool.eq_iff_iff.mpr (by simp)
      simpa [passesConditions, Json.get, Json.asArray, hlisted] using hany

/-- The tests of a window one after another. -/
theorem window_eq (start time : String) (endTime : Option String) :
    (if time < start then false
      else if endTime.any fun endTime => decide (endTime ≤ time) then false else true) =
      (decide (start ≤ time) && endTime.all fun endTime => decide (time < endTime)) := by
  by_cases hstart : time < start
  · rw [if_pos hstart, decide_eq_false (not_le.mpr hstart), Bool.false_and]
  · rw [if_neg hstart, decide_eq_true (not_lt.mp hstart), Bool.true_and]
    cases endTime with
    | none => rfl
    | some endTime =>
      show (if decide (endTime ≤ time) = true then false else true) = decide (time < endTime)
      by_cases hend : endTime ≤ time
      · rw [decide_eq_true hend, decide_eq_false (not_lt.mpr hend)]
        rfl
      · rw [decide_eq_false hend, decide_eq_true (not_le.mp hend)]
        rfl

theorem parsesTimes_of_admitted (admitted : s.Admitted) :
    (s.endTime.any fun endTime => !crates.parsesTime endTime) = false := by
  cases hend : s.endTime with
  | none => rfl
  | some endTime =>
    show (!crates.parsesTime endTime) = false
    rw [parsesTime_of_timeRegex (admitted.endTime endTime hend)]
    rfl

/-- The server's answer. -/
theorem isScheduleActive_eq (admitted : s.Admitted) (plain : s.Plain) :
    isScheduleActive env s now = (s.enabled && serverDates env.zone s now &&
      (s.cronExpression.map fun expr => didCronFireInLastMinute env expr s.timezone now).getD
        (inWindow env.zone s now)) := by
  obtain ⟨hevent, hpassed⟩ := passed_of_plain plain
  have hstart := truthy_of_timeRegex admitted.startTime
  have hend := truthy_of_timeRegex admitted.endTime
  have hcron : truthy s.cronExpression = s.cronExpression := by
    cases hexpr : s.cronExpression with
    | none => rfl
    | some expr =>
      exact Option.filter_eq_some_iff.mpr ⟨rfl, decide_eq_true (admitted.cronExpression expr hexpr)⟩
  unfold isScheduleActive
  rw [hevent, hpassed, hcron, hstart, hend]
  cases s.enabled with
  | false => rfl
  | true =>
    cases serverDates env.zone s now with
    | false => rfl
    | true =>
      cases s.cronExpression with
      | some expr => rfl
      | none =>
        unfold inWindow dayAllowed
        cases s.startTime with
        | none => rfl
        | some start =>
          have hwindow := window_eq start (env.zone.currentTime now) s.endTime
          cases s.allowedDays.contains (some (env.zone.getDay now)) with
          | false => rfl
          | true =>
            -- the window is tested in two steps there and in one here
            show _ = (true && decide (start ≤ env.zone.currentTime now) && s.endTime.all _)
            rw [Bool.true_and, ← hwindow]
            cases s.endTime with
            | none => rfl
            | some endTime =>
              by_cases hclosed : endTime ≤ env.zone.currentTime now <;> simp [hclosed]

/-- The player's answer. -/
theorem isActive_eq (admitted : s.Admitted) (plain : s.Plain) :
    isActive crates zone s.definition now = (s.enabled && playerDates zone s now &&
      (s.cronExpression.map fun expr => dayAllowed zone s now &&
        cronFiredInLastMinute crates expr s.timezone now).getD (inWindow zone s now)) := by
  have hdays := allowedDays_eq admitted.daysOfWeek (zone.getDay now)
  have henabled : s.definition.enabled = s.enabled := rfl
  have hexpr : s.definition.cronExpression = s.cronExpression := rfl
  have htimes : s.definition.startTime = s.startTime ∧ s.definition.endTime = s.endTime :=
    ⟨rfl, rfl⟩
  unfold isActive
  rw [passesConditions_of_plain plain, ← hdays, henabled, hexpr, htimes.1, htimes.2]
  cases s.enabled with
  | false => rfl
  | true =>
    cases playerDates zone s now with
    | false => rfl
    | true =>
      unfold inWindow dayAllowed
      cases s.allowedDays.contains (some (zone.getDay now)) with
      | false =>
        -- the days come before the cron expression here
        show false = (true && true && _)
        cases s.cronExpression with
        | none => cases s.startTime <;> rfl
        | some expr => rfl
      | true =>
        cases s.cronExpression with
        | some expr => rfl
        | none =>
          cases hstart : s.startTime with
          | none => rfl
          | some start =>
            -- the times have passed `timeRegex`, so both parse
            have hwindow := window_eq start (zone.currentTime now) s.endTime
            have hopens : crates.parsesTime start = true :=
              parsesTime_of_timeRegex (admitted.startTime start hstart)
            have hcloses : (s.endTime.any fun endTime => !crates.parsesTime endTime) = false :=
              parsesTimes_of_admitted admitted
            show _ = (true && decide (start ≤ zone.currentTime now) && s.endTime.all _)
            rw [Bool.true_and, ← hwindow]
            show (if zone.currentTime now < start then false
              else if s.endTime.any fun endTime => decide (endTime ≤ zone.currentTime now) then
                false
              else if !crates.parsesTime start then false
              else if s.endTime.any fun endTime => !crates.parsesTime endTime then false
              else true) = _
            rw [hopens, hcloses]
            rfl

/-! ### Where they agree -/

/-- The dates are read alike: an empty list excludes every day for the player and none for the
    server, and the server writes the years before 1000 without leading zeros. -/
structure DatesAgree (zone : Zone) (s : Schedule) (now : Int) : Prop where
  nonempty : s.specialDates ≠ some []
  year : ∀ dates, s.specialDates = some dates → today zone now ∈ dates → 1000 ≤ localYear zone now

/-- A cron expression is read alike.  The days of the week are the player's condition only. -/
structure CronAgrees (env : ScheduleEnv) (crates : TimeCrates) (s : Schedule) (expr : String)
    (now : Int) : Prop where
  nonempty : didCronFireInLastMinute env expr s.timezone now = true → s.specialDates ≠ some []
  day : didCronFireInLastMinute env expr s.timezone now = true →
    serverDates env.zone s now = true → dayAllowed env.zone s now = true
  /-- The crate parses what the server's library fires, and has it fire. -/
  crate : didCronFireInLastMinute env expr s.timezone now = true →
    serverDates env.zone s now = true → cronFiredInLastMinute crates expr s.timezone now = true
  year : cronFiredInLastMinute crates expr s.timezone now = true →
    dayAllowed env.zone s now = true → ∀ dates, s.specialDates = some dates →
      today env.zone now ∈ dates → 1000 ≤ localYear env.zone now
  library : cronFiredInLastMinute crates expr s.timezone now = true →
    dayAllowed env.zone s now = true → playerDates env.zone s now = true →
      didCronFireInLastMinute env expr s.timezone now = true

/-- Where the player answers like the server. -/
def Agrees (env : ScheduleEnv) (crates : TimeCrates) (s : Schedule) (now : Int) : Prop :=
  s.enabled = true →
    match s.cronExpression with
    | some expr => CronAgrees env crates s expr now
    | none => inWindow env.zone s now = true → DatesAgree env.zone s now

theorem playerDates_of_serverDates (admitted : s.Admitted) (nonempty : s.specialDates ≠ some [])
    (h : serverDates zone s now = true) : playerDates zone s now = true := by
  unfold serverDates at h
  unfold playerDates
  cases hdates : s.specialDates with
  | none => rfl
  | some dates =>
    have hne : dates.isEmpty = false :=
      List.isEmpty_eq_false_iff.mpr fun hnil => nonempty (hdates.trans (congrArg some hnil))
    rw [hdates] at h
    have hlisted : dates.contains (zone.toIsoDate now) = true := by simpa [hne] using h
    have hmem := List.contains_iff_mem.mp hlisted
    have hboth := (mem_dates (admitted.specialDates dates hdates)).mp hmem
    exact List.contains_iff_mem.mpr hboth.1

theorem serverDates_of_playerDates (admitted : s.Admitted)
    (year : ∀ dates, s.specialDates = some dates → today zone now ∈ dates →
      1000 ≤ localYear zone now)
    (h : playerDates zone s now = true) : serverDates zone s now = true := by
  unfold playerDates at h
  unfold serverDates
  cases hdates : s.specialDates with
  | none => rfl
  | some dates =>
    rw [hdates] at h
    have hlisted : today zone now ∈ dates := List.contains_iff_mem.mp h
    have hmem := (mem_dates (admitted.specialDates dates hdates)).mpr
      ⟨hlisted, year dates hdates hlisted⟩
    show (dates.isEmpty || dates.contains (zone.toIsoDate now)) = true
    rw [List.contains_iff_mem.mpr hmem, Bool.or_true]

/-- An empty list lets the server activate on every day, and the player on none. -/
theorem dates_of_empty (zone : Zone) (now : Int) (h : s.specialDates = some []) :
    serverDates zone s now = true ∧ playerDates zone s now = false := by
  simp [serverDates, playerDates, h]

/-- The server finds a date that the player finds only from the year 1000 on. -/
theorem year_of_serverDates (admitted : s.Admitted) {dates : List String}
    (hdates : s.specialDates = some dates) (hlisted : today zone now ∈ dates)
    (h : serverDates zone s now = true) : 1000 ≤ localYear zone now := by
  unfold serverDates at h
  rw [hdates] at h
  have hne : dates.isEmpty = false := List.isEmpty_eq_false_iff.mpr (List.ne_nil_of_mem hlisted)
  have hmem : dates.contains (zone.toIsoDate now) = true := by simpa [hne] using h
  exact ((mem_dates (admitted.specialDates dates hdates)).mp (List.contains_iff_mem.mp hmem)).2

theorem playerDates_of_mem {dates : List String} (hdates : s.specialDates = some dates)
    (hlisted : today zone now ∈ dates) : playerDates zone s now = true := by
  unfold playerDates
  rw [hdates]
  exact List.contains_iff_mem.mpr hlisted

theorem serverDates_eq_iff (admitted : s.Admitted) :
    playerDates zone s now = serverDates zone s now ↔ DatesAgree zone s now := by
  constructor
  · intro heq
    refine ⟨fun hempty => ?_, fun dates hdates hlisted => ?_⟩
    · obtain ⟨hserver, hplayer⟩ := dates_of_empty zone now hempty
      rw [hserver, hplayer] at heq
      exact absurd heq (by decide)
    · have hplayer := playerDates_of_mem hdates hlisted
      rw [hplayer] at heq
      exact year_of_serverDates admitted hdates hlisted heq.symm
  · rintro ⟨hnonempty, hyear⟩
    exact Bool.eq_iff_iff.mpr ⟨serverDates_of_playerDates admitted hyear,
      playerDates_of_serverDates admitted hnonempty⟩

theorem cronAgrees_iff (admitted : s.Admitted) (expr : String) :
    ((playerDates env.zone s now = true ∧ dayAllowed env.zone s now = true ∧
        cronFiredInLastMinute crates expr s.timezone now = true) ↔
      (serverDates env.zone s now = true ∧
        didCronFireInLastMinute env expr s.timezone now = true)) ↔
      CronAgrees env crates s expr now := by
  constructor
  · rintro hiff
    refine ⟨fun hfired hempty => ?_, fun hfired hdates => ?_, fun hfired hdates => ?_,
      fun hfired hday dates hdates hlisted => ?_, fun hfired hday hdates => ?_⟩
    · -- the server fires on every day of an empty list
      obtain ⟨hserver, hplayer⟩ := dates_of_empty env.zone now hempty
      have hboth := (hiff.mpr ⟨hserver, hfired⟩).1
      rw [hplayer] at hboth
      exact absurd hboth (by decide)
    · exact (hiff.mpr ⟨hdates, hfired⟩).2.1
    · exact (hiff.mpr ⟨hdates, hfired⟩).2.2
    · have hserver := (hiff.mp ⟨playerDates_of_mem hdates hlisted, hday, hfired⟩).1
      exact year_of_serverDates admitted hdates hlisted hserver
    · exact (hiff.mp ⟨hdates, hday, hfired⟩).2
  · rintro ⟨hnonempty, hday, hcrate, hyear, hlibrary⟩
    constructor
    · rintro ⟨hdates, hallowed, hfired⟩
      exact ⟨serverDates_of_playerDates admitted (hyear hfired hallowed) hdates,
        hlibrary hfired hallowed hdates⟩
    · rintro ⟨hdates, hfired⟩
      exact ⟨playerDates_of_serverDates admitted (hnonempty hfired) hdates, hday hfired hdates,
        hcrate hfired hdates⟩

theorem timeRegex_hours : ∀ h < 24, ∀ m < 60,
    timeRegex (s!"{pad2 h}:{pad2 m}").toList = true := by
  intro h hh m hm
  have hhour : ∀ h < 24, timeRegex ((pad2 h).toList ++ [':', '0', '0']) = true := by decide
  have hminute : ∀ m < 60, timeRegex (['0', '0', ':'] ++ (pad2 m).toList) = true := by decide
  have hfirst := ofList_digits (h / 10) (by omega) (h % 10) (by omega)
  have hsecond := ofList_digits (m / 10) (by omega) (m % 10) (by omega)
  rw [Nat.div_add_mod] at hfirst hsecond
  have hh := hhour h hh
  have hm := hminute m hm
  rw [← hfirst] at hh
  rw [← hsecond] at hm
  simp only [toString, String.toList_append, ← hfirst, ← hsecond]
  obtain ⟨hhours, -⟩ := Bool.and_eq_true_iff.mp hh
  obtain ⟨hminutes, hlast⟩ := Bool.and_eq_true_iff.mp hm
  refine Bool.and_eq_true_iff.mpr ⟨?_, hlast⟩
  refine Bool.and_eq_true_iff.mpr ⟨?_, (Bool.and_eq_true_iff.mp hminutes).2⟩
  exact (Bool.and_eq_true_iff.mp hhours).1

/-- The cron crate for `0 * * * * *`. -/
def everyMinuteCrates : TimeCrates where
  parsesCron := fun expr => decide (6 ≤ (cronFields expr).length ∧ (cronFields expr).length ≤ 7)
  knowsZone := fun zone => decide (zone = "UTC")
  after := fun expr _ t =>
    if expr = "0 * * * * *" then [60000 * (t / 60000 + 1), 60000 * (t / 60000 + 2)] else []
  parsesTime := fun time => timeRegex time.toList
  parsesCron_seconds := by
    intro expr h
    rw [h]
    rfl
  parsesTime_hours := timeRegex_hours

/-- From nine to five on the listed dates. -/
def Schedule.onDates (dates : Option (List String)) : Schedule :=
  { Schedule.ofTimes none (some "09:00") (some "17:00") with
    conditions := some { holidays := none, specialDates := dates, eventTrigger := none } }

theorem Schedule.onDates_admitted {dates : Option (List String)}
    (h : ∀ list, dates = some list → ∀ date ∈ list, isoDateRegex date.toList = true) :
    (Schedule.onDates dates).Admitted where
  startTime := by
    rintro time ⟨rfl⟩
    decide
  endTime := by
    rintro time ⟨rfl⟩
    decide
  daysOfWeek := by
    show daysOfWeekRegex "0,1,2,3,4,5,6".toList = true
    decide
  cronExpression := nofun
  specialDates := h

theorem Schedule.onDates_plain (dates : Option (List String)) :
    (Schedule.onDates dates).Plain := by
  rintro c ⟨rfl⟩
  exact ⟨rfl, rfl⟩

end Montr.Client
