import Montr.Server.ScheduleActivation

namespace Montr.Server

/-!
# Schedules on their way to a player

The checks of `createScheduleSchema` and `updateScheduleSchema` (`validation.ts`) on the fields that
decide when a schedule is active, and the `schedule_definitions` message of `sendSchedulesToClient`
(`handlers.ts`).  An update checks the fields it has, so the checks are stated for each field of a
schedule; `validateCron` is left out, as nothing here depends on it.
-/

/-! ### Validation -/

/-- `timeRegex`. -/
def timeRegex : List Char → Bool
  | [a, b, ':', c, d] =>
    (('0' ≤ a && a ≤ '1' && b.isDigit) || (a == '2' && '0' ≤ b && b ≤ '3')) &&
      ('0' ≤ c && c ≤ '5') && d.isDigit
  | _ => false

def isDayDigit (c : Char) : Bool := '0' ≤ c && c ≤ '6'

/-- `daysOfWeekRegex`. -/
def daysOfWeekRegex : List Char → Bool
  | [c] => isDayDigit c
  | c :: ',' :: rest => isDayDigit c && daysOfWeekRegex rest
  | _ => false

/-- `isoDateRegex`. -/
def isoDateRegex : List Char → Bool
  | [a, b, c, d, '-', e, f, '-', g, h] => [a, b, c, d, e, f, g, h].all Char.isDigit
  | _ => false

theorem exists_digit {c : Char} (low : '0' ≤ c) {n : Nat} (high : c.toNat ≤ 48 + n) :
    ∃ k ≤ n, c = Char.ofNat (48 + k) := by
  have hlow : 48 ≤ c.toNat := low
  refine ⟨c.toNat - 48, by omega, ?_⟩
  rw [Nat.add_sub_cancel' hlow, Char.ofNat_toNat]

theorem exists_isDigit {c : Char} (h : c.isDigit = true) : ∃ k ≤ 9, c = Char.ofNat (48 + k) := by
  unfold Char.isDigit at h
  obtain ⟨hlow, hhigh⟩ := Bool.and_eq_true_iff.mp h
  exact exists_digit (of_decide_eq_true hlow) (of_decide_eq_true hhigh)

theorem ofList_digits : ∀ i < 10, ∀ j < 10,
    [Char.ofNat (48 + i), Char.ofNat (48 + j)] = (pad2 (10 * i + j)).toList := by decide

/-- What passes `timeRegex` is a time of day in two digits each. -/
theorem exists_of_timeRegex {time : String} (h : timeRegex time.toList = true) :
    ∃ hour < 24, ∃ minute < 60, time = s!"{pad2 hour}:{pad2 minute}" := by
  generalize htime : time.toList = chars at h
  unfold timeRegex at h
  split at h
  · next a b c d =>
    simp only [Bool.and_eq_true, Bool.or_eq_true, decide_eq_true_eq, beq_iff_eq] at h
    obtain ⟨⟨hhour, hc, hc'⟩, hd⟩ := h
    obtain ⟨k, hk, rfl⟩ := exists_digit hc (n := 5) hc'
    obtain ⟨l, hl, rfl⟩ := exists_isDigit hd
    -- the hour is below 20, or from 20 to 23
    have hab : ∃ i j, a = Char.ofNat (48 + i) ∧ b = Char.ofNat (48 + j) ∧ i < 10 ∧ j < 10 ∧
        10 * i + j < 24 := by
      obtain ⟨⟨ha, ha'⟩, hb⟩ | ⟨⟨rfl, hb⟩, hb'⟩ := hhour
      · obtain ⟨i, hi, rfl⟩ := exists_digit ha (n := 1) ha'
        obtain ⟨j, hj, rfl⟩ := exists_isDigit hb
        exact ⟨i, j, rfl, rfl, by omega, by omega, by omega⟩
      · obtain ⟨j, hj, rfl⟩ := exists_digit hb (n := 3) hb'
        exact ⟨2, j, rfl, rfl, by omega, by omega, by omega⟩
    obtain ⟨i, j, rfl, rfl, hi, hj, hhours⟩ := hab
    refine ⟨10 * i + j, hhours, 10 * k + l, by omega, String.toList_injective ?_⟩
    rw [htime]
    have hfirst := ofList_digits i hi j hj
    have hsecond := ofList_digits k (by omega) l (by omega)
    simp only [toString, String.toList_append, ← hfirst, ← hsecond]
    rfl
  · exact absurd h (by simp)

theorem truthy_of_timeRegex {time : Option String}
    (h : ∀ text, time = some text → timeRegex text.toList = true) : truthy time = time := by
  cases time with
  | none => rfl
  | some text =>
    refine Option.filter_eq_some_iff.mpr ⟨rfl, decide_eq_true ?_⟩
    rintro rfl
    exact absurd (h "" rfl) (by simp [timeRegex])

/-- The listed dates. -/
def Schedule.specialDates (s : Schedule) : Option (List String) :=
  s.conditions.bind ScheduleConditions.specialDates

/-- The fields of a schedule pass their checks. -/
structure Schedule.Admitted (s : Schedule) : Prop where
  startTime : ∀ time, s.startTime = some time → timeRegex time.toList = true
  endTime : ∀ time, s.endTime = some time → timeRegex time.toList = true
  daysOfWeek : daysOfWeekRegex s.daysOfWeek.toList = true
  cronExpression : ∀ expr, s.cronExpression = some expr → expr ≠ ""
  specialDates : ∀ dates, s.specialDates = some dates → ∀ date ∈ dates,
    isoDateRegex date.toList = true

/-- Neither a holiday nor an event-trigger condition. -/
def Schedule.Plain (s : Schedule) : Prop :=
  ∀ c, s.conditions = some c → c.holidays = none ∧ c.eventTrigger = none

/-! ### The message -/

/-- A JSON value, as far as schedules need it. -/
inductive Json
  | string (text : String)
  | array (values : List Json)
  | object (members : List (String × Json))

namespace Json

/-- `Value::get` with a key. -/
def get (key : String) : Json → Option Json
  | object members => (members.find? fun member => member.1 = key).map Prod.snd
  | _ => none

/-- `Value::as_array`. -/
def asArray : Json → Option (List Json)
  | array values => some values
  | _ => none

/-- `Value::as_str`. -/
def asStr : Json → Option String
  | string text => some text
  | _ => none

end Json

def NotificationEventType.name : NotificationEventType → String
  | clientOffline => "client_offline"
  | clientError => "client_error"
  | playlistEmpty => "playlist_empty"
  | storageFull => "storage_full"
  | mediaApprovalNeeded => "media_approval_needed"

def HolidayMatch.name : HolidayMatch → String
  | on => "on"
  | notOn => "not_on"

/-- `JSON.stringify` of the conditions: what is `undefined` is left out. -/
def ScheduleConditions.toJson (c : ScheduleConditions) : Json :=
  .object ((c.holidays.map fun h =>
      ("holidays", .object ([("country", .string h.country), ("match", .string h.onMatch.name)] ++
        (h.regions.map fun regions => ("regions", .array (regions.map .string))).toList))).toList ++
    (c.specialDates.map fun dates => ("special_dates", .array (dates.map .string))).toList ++
    (c.eventTrigger.map fun event =>
      ("event_trigger", .object [("event_type", .string event.name)])).toList)

/-- An entry of the message: the fields that decide when it is active. -/
structure ScheduleDefinition where
  enabled : Bool
  startTime : Option String
  endTime : Option String
  daysOfWeek : String
  cronExpression : Option String
  timezone : Option String
  conditions : Option Json

/-- The payload of `sendSchedulesToClient`. -/
def Schedule.definition (s : Schedule) : ScheduleDefinition where
  enabled := s.enabled
  startTime := s.startTime
  endTime := s.endTime
  daysOfWeek := s.daysOfWeek
  cronExpression := s.cronExpression
  timezone := s.timezone
  conditions := s.conditions.map ScheduleConditions.toJson

/-- The conditions of a plain schedule have at most one member. -/
theorem toJson_of_plain {c : ScheduleConditions} (holidays : c.holidays = none)
    (eventTrigger : c.eventTrigger = none) :
    c.toJson = .object (c.specialDates.map fun dates =>
      ("special_dates", .array (dates.map .string))).toList := by
  simp [ScheduleConditions.toJson, holidays, eventTrigger]

end Montr.Server
