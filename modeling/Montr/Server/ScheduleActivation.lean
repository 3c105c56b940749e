import Montr.Server.Clock
import Mathlib.Data.List.Sort
import Mathlib.Data.String.Basic

namespace Montr.Server

/-!
# Active schedules

When a schedule triggers: `isScheduleActive` and `findTriggering` with the condition evaluator and
the cron matcher they call, and the choice among schedules with one target (`resolveConflicts`).

The cron parser and the holiday calendar are libraries: `ScheduleEnv` has the functions the code
calls, and `CronFires` states what the code relies on of the former.
-/

inductive NotificationEventType
  | clientOffline | clientError | playlistEmpty | storageFull | mediaApprovalNeeded
  deriving DecidableEq, Repr

inductive HolidayMatch
  | on | notOn
  deriving DecidableEq, Repr

structure ScheduleHolidayCondition where
  country : String
  regions : Option (List String)
  onMatch : HolidayMatch
  deriving DecidableEq, Repr

structure ScheduleConditions where
  holidays : Option ScheduleHolidayCondition
  specialDates : Option (List String)
  eventTrigger : Option NotificationEventType
  deriving DecidableEq, Repr

inductive ScheduleInterruptMode
  | assign | interrupt
  deriving DecidableEq, Repr

structure Schedule where
  id : Nat
  name : String
  playlistId : Nat
  clientId : Option String
  groupId : Option Nat
  startTime : Option String
  endTime : Option String
  daysOfWeek : String
  priority : Int
  enabled : Bool
  cronExpression : Option String
  durationSeconds : Option Nat
  timezone : Option String
  conditions : Option ScheduleConditions
  interruptMode : ScheduleInterruptMode
  deriving DecidableEq, Repr

/-- What the scheduler calls outside its own code.  `cronNext expr tz currentDate endDate` is the
    first `next()` of a parsed expression, `none` when parsing or `next` throws. -/
structure ScheduleEnv where
  zone : Zone
  cronNext : String → Option String → Int → Int → Option Int
  isHoliday : String → List String → Int → Bool

/-- A string that is neither `null` nor empty. -/
def truthy (s : Option String) : Option String := s.filter (· ≠ "")

/-! ### Conditions -/

structure ConditionResult where
  passed : Bool
  reason : Option String := none
  deriving DecidableEq, Repr

/-- `conditions.special_dates && conditions.special_dates.length > 0` and today is not listed. -/
def ScheduleConditions.missesDate (c : ScheduleConditions) (today : String) : Bool :=
  match c.specialDates with
  | none => false
  | some dates => !dates.isEmpty && !dates.contains today

def evaluateConditions (env : ScheduleEnv) (conditions : Option ScheduleConditions) (now : Int) :
    ConditionResult :=
  match conditions with
  | none => { passed := true }
  | some c =>
    if c.eventTrigger.isSome then { passed := false, reason := some "event-triggered only" }
    else if c.missesDate (env.zone.toIsoDate now) then
      { passed := false, reason := some "date not in special_dates" }
    else
      match c.holidays with
      | none => { passed := true }
      | some h =>
        let isHoliday := env.isHoliday h.country (h.regions.getD []) now
        if h.onMatch = .on ∧ isHoliday = false then
          { passed := false, reason := some "not a holiday" }
        else if h.onMatch = .notOn ∧ isHoliday = true then
          { passed := false, reason := some "is a holiday" }
        else { passed := true }

def isEventTriggered (conditions : Option ScheduleConditions) : Bool :=
  match conditions with
  | none => false
  | some c => c.eventTrigger.isSome

/-! ### Cron and days -/

/-- The window is the minute that ends at `now`; `catch` gives `false`. -/
def didCronFireInLastMinute (env : ScheduleEnv) (expr : String) (tz : Option String) (now : Int) :
    Bool :=
  let windowStart := now - 60000
  match env.cronNext expr (truthy tz) windowStart now with
  | none => false
  | some next => decide (windowStart ≤ next) && decide (next ≤ now)

/-- `Number` of a string of digits; the empty string is 0 and anything else `NaN`. -/
def number (s : List Char) : Option Nat :=
  if s.all Char.isDigit then some (s.foldl (fun n c => 10 * n + (c.toNat - '0'.toNat)) 0) else none

/-- `days_of_week.split(',').map(Number)`. -/
def Schedule.allowedDays (s : Schedule) : List (Option Nat) :=
  (s.daysOfWeek.toList.splitOn ',').map number

/-! ### Activation -/

section Activation

variable (env : ScheduleEnv)

def isScheduleActive (s : Schedule) (now : Int) : Bool :=
  if !s.enabled then false
  else if isEventTriggered s.conditions then false
  else if !(evaluateConditions env s.conditions now).passed then false
  else
    match truthy s.cronExpression with
    | some expr => didCronFireInLastMinute env expr s.timezone now
    | none =>
      match truthy s.startTime with
      | none => false
      | some startTime =>
        if !s.allowedDays.contains (some (env.zone.getDay now)) then false
        else
          let currentTime := env.zone.currentTime now
          if currentTime < startTime then false
          else
            match truthy s.endTime with
            | some endTime => !decide (endTime ≤ currentTime)
            | none => true

/-- The test of `findTriggering` on one schedule. -/
def triggers (s : Schedule) (now : Int) : Bool :=
  if !isScheduleActive env s now then false
  else
    match truthy s.cronExpression with
    | some _ => true
    | none => s.startTime == some (env.zone.currentTime now)

def findTriggering (schedules : List Schedule) (now : Int) : List Schedule :=
  schedules.filter fun s => triggers env s now

end Activation

/-! ### Conflicts -/

def targetKeyFor (s : Schedule) : String :=
  match truthy s.clientId with
  | some clientId => s!"client:{clientId}"
  | none =>
    match s.groupId with
    -- a group with the id 0 is falsy
    | some (n + 1) =>
      let groupId := n + 1
      s!"group:{groupId}"
    | _ => "global"

/-- Add a schedule to the bucket of its target, the buckets in the order of their first member. -/
def addToBucket (key : String) (s : Schedule) :
    List (String × List Schedule) → List (String × List Schedule)
  | [] => [(key, [s])]
  | (k, arr) :: rest =>
    if k = key then (k, arr ++ [s]) :: rest else (k, arr) :: addToBucket key s rest

/-- `buckets` of `resolveConflicts`, each sorted by priority and then id. -/
def buckets (matching : List Schedule) : List (String × List Schedule) :=
  (matching.foldl (fun bs s => addToBucket (targetKeyFor s) s bs) []).map fun (key, arr) =>
    (key, arr.mergeSort fun a b =>
      if b.priority ≠ a.priority then decide (b.priority < a.priority) else decide (a.id ≤ b.id))

structure Resolution where
  winners : List (String × Schedule)
  losers : List (String × List Schedule)
  deriving DecidableEq, Repr

def resolveConflicts (matching : List Schedule) : Resolution where
  winners := (buckets matching).filterMap fun (key, arr) => arr.head?.map (key, ·)
  losers := (buckets matching).filterMap fun (key, arr) =>
    if 1 < arr.length then some (key, arr.tail) else none

end Montr.Server
