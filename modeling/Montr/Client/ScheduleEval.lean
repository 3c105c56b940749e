import Montr.Client.AppState
import Montr.Client.LruCache
import Montr.Server.ScheduleDefinitions

namespace Montr.Client

open Server

/-!
# Offline schedule evaluation

`is_active` (`state/schedule_eval.rs`), the player's own test on a pushed schedule.

The `chrono`, `chrono-tz` and `cron` crates are libraries: `TimeCrates` has what the code calls,
with what it relies on.  Local time is that of `Server.Zone`.
-/

/-- The fields of a cron expression. -/
def cronFields (expr : String) : List (List Char) :=
  (expr.toList.splitOnP isWhitespace).filter (· ≠ [])

/-- What the evaluation calls.  `after expr zone t` are the fire times after `t`, in a zone of
    `chrono-tz` or in local time. -/
structure TimeCrates where
  /-- `CronSchedule::from_str` succeeds -/
  parsesCron : String → Bool
  /-- `Tz::from_str` succeeds -/
  knowsZone : String → Bool
  after : String → Option String → Int → List Int
  /-- `NaiveTime::parse_from_str` with `%H:%M` succeeds -/
  parsesTime : String → Bool
  /-- the seconds are no optional field -/
  parsesCron_seconds : ∀ expr, (cronFields expr).length = 5 → parsesCron expr = false
  parsesTime_hours : ∀ h < 24, ∀ m < 60, parsesTime s!"{pad2 h}:{pad2 m}" = true

/-! ### Dates and days -/

/-- Four digits. -/
def pad4 (n : Nat) : String := String.ofList ((Nat.toDigits 10 n).leftpad 4 '0')

/-- `%Y`: a sign before years that have no four digits. -/
def formatYear (year : Int) : String :=
  if year < 0 then "-" ++ pad4 year.natAbs
  else if year ≤ 9999 then pad4 year.natAbs
  else "+" ++ pad4 year.natAbs

/-- `now.format("%Y-%m-%d")`. -/
def today (zone : Zone) (now : Int) : String :=
  let (year, month, day) := Zone.civil (zone.localDay now)
  s!"{formatYear year}-{pad2 month}-{pad2 day}"

/-- `str::trim`. -/
def trim (text : List Char) : List Char :=
  ((text.dropWhile isWhitespace).reverse.dropWhile isWhitespace).reverse

/-- The days that the schedule allows. -/
def allowedDays (schedule : ScheduleDefinition) : List Nat :=
  (schedule.daysOfWeek.toList.splitOn ',').filterMap fun text => parseU32 (trim text)

/-! ### Activation -/

/-- The tests on `conditions`. -/
def passesConditions (zone : Zone) (now : Int) : Option Json → Bool
  | none => true
  | some c =>
    if (c.get "holidays").isSome then false
    else if (c.get "event_trigger").isSome then false
    else
      match (c.get "special_dates").bind Json.asArray with
      | none => true
      | some special => (special.filterMap Json.asStr).any fun d => d = today zone now

section

variable (crates : TimeCrates)

def cronFiredInLastMinute (expr : String) (tz : Option String) (now : Int) : Bool :=
  if !crates.parsesCron expr then false
  else
    let lower := now - 60000
    ((crates.after expr (tz.filter crates.knowsZone) lower).take 2).any fun t => decide (t ≤ now)

def isActive (zone : Zone) (schedule : ScheduleDefinition) (now : Int) : Bool :=
  if !schedule.enabled then false
  else if !passesConditions zone now schedule.conditions then false
  else if !(allowedDays schedule).contains (zone.getDay now) then false
  else
    match schedule.cronExpression with
    | some expr => cronFiredInLastMinute crates expr schedule.timezone now
    | none =>
      match schedule.startTime with
      | none => false
      | some start =>
        let nowHm := zone.currentTime now
        if nowHm < start then false
        else if schedule.endTime.any fun endTime => decide (endTime ≤ nowHm) then false
        else if !crates.parsesTime start then false
        else if schedule.endTime.any fun endTime => !crates.parsesTime endTime then false
        else true

/-- An expression without seconds never fires. -/
theorem cronFiredInLastMinute_of_fiveFields {expr : String} (h : (cronFields expr).length = 5)
    (tz : Option String) (now : Int) : cronFiredInLastMinute crates expr tz now = false := by
  simp [cronFiredInLastMinute, crates.parsesCron_seconds expr h]

end

end Montr.Client
