import Mathlib.Data.Int.Basic

namespace Montr.Server

/-!
# Local time

The `Date` getters the scheduler uses, in the server's time zone.  An instant is a number of
milliseconds since the epoch; a zone gives the offset in minutes for each minute of UTC, so that
changes of the offset (daylight saving) fall on minutes.

A *calendar minute* is a date with hours and minutes.  It is `Zone.localMinute`, the number of
minutes between the epoch and the local date and time.
-/

/-- A time zone: the offset at each minute of UTC. -/
structure Zone where
  offset : Int → Int

/-- No offset. -/
def Zone.utc : Zone := ⟨fun _ => 0⟩

/-- Two digits. -/
def pad2 (n : Nat) : String := if n < 10 then "0" ++ toString n else toString n

namespace Zone

/-- The calendar minute of an instant. -/
def localMinute (z : Zone) (now : Int) : Int := now / 60000 + z.offset (now / 60000)

/-- Minutes since the local midnight. -/
def minuteOfDay (z : Zone) (now : Int) : Nat := (z.localMinute now % 1440).toNat

/-- `getHours()`. -/
def getHours (z : Zone) (now : Int) : Nat := z.minuteOfDay now / 60

/-- `getMinutes()`. -/
def getMinutes (z : Zone) (now : Int) : Nat := z.minuteOfDay now % 60

/-- Days between the epoch and the local date. -/
def localDay (z : Zone) (now : Int) : Int := z.localMinute now / 1440

/-- `getDay()`; the epoch was a Thursday. -/
def getDay (z : Zone) (now : Int) : Nat := ((z.localDay now + 4) % 7).toNat

/-- Year, month and day of a day number, in the Gregorian calendar; years run from March. -/
def civil (day : Int) : Int × Nat × Nat :=
  let shifted := day + 719468
  let era := shifted / 146097
  let dayOfEra := shifted % 146097
  let yearOfEra := (dayOfEra - dayOfEra / 1460 + dayOfEra / 36524 - dayOfEra / 146096) / 365
  let dayOfYear := dayOfEra - (365 * yearOfEra + yearOfEra / 4 - yearOfEra / 100)
  let month := (5 * dayOfYear + 2) / 153
  let day := dayOfYear - (153 * month + 2) / 5 + 1
  let calendarMonth := if month < 10 then month + 3 else month - 9
  let year := yearOfEra + era * 400 + (if calendarMonth ≤ 2 then 1 else 0)
  (year, calendarMonth.toNat, day.toNat)

/-- `toIsoDate`. -/
def toIsoDate (z : Zone) (now : Int) : String :=
  let (year, month, day) := civil (z.localDay now)
  s!"{year}-{pad2 month}-{pad2 day}"

/-- `HH:MM`. -/
def currentTime (z : Zone) (now : Int) : String :=
  s!"{pad2 (z.getHours now)}:{pad2 (z.getMinutes now)}"

/-- The key of a tick, without leading zeros and without a date. -/
def minuteKey (z : Zone) (now : Int) : String := s!"{z.getHours now}:{z.getMinutes now}"

example : utc.toIsoDate 1709208000000 = "2024-02-29" := by decide

example : utc.getDay 1709208000000 = 4 := by decide

/-- Instants of one minute of UTC are in one calendar minute. -/
theorem localMinute_congr (z : Zone) {a b : Int} (h : a / 60000 = b / 60000) :
    z.localMinute a = z.localMinute b := by
  rw [localMinute, localMinute, h]

/-- The key depends on the time of day only, whatever the date. -/
theorem minuteKey_congr (z : Zone) {a b : Int} (h : z.minuteOfDay a = z.minuteOfDay b) :
    z.minuteKey a = z.minuteKey b := by
  rw [minuteKey, minuteKey, getHours, getHours, getMinutes, getMinutes, h]

theorem minuteOfDay_congr (z : Zone) {a b : Int} (h : z.localMinute a = z.localMinute b) :
    z.minuteOfDay a = z.minuteOfDay b := by
  rw [minuteOfDay, minuteOfDay, h]

theorem currentTime_congr (z : Zone) {a b : Int} (h : z.localMinute a = z.localMinute b) :
    z.currentTime a = z.currentTime b := by
  have hday := z.minuteOfDay_congr h
  rw [currentTime, currentTime, getHours, getHours, getMinutes, getMinutes, hday]

theorem pad2_length : ∀ n < 60, (pad2 n).toList.length = 2 := by decide

theorem pad2_injOn : ∀ a < 60, ∀ b < 60, pad2 a = pad2 b → a = b := by
  -- the two digits are read back
  have hread : ∀ n < 60, (pad2 n).toList.foldl (fun v c => 10 * v + (c.toNat - 48)) 0 = n := by
    decide
  intro a ha b hb heq
  rw [← hread a ha, heq, hread b hb]

/-- `HH:MM` determines the time of day. -/
theorem minuteOfDay_of_currentTime (z : Zone) {a b : Int}
    (h : z.currentTime a = z.currentTime b) : z.minuteOfDay a = z.minuteOfDay b := by
  have hbound : ∀ x, z.minuteOfDay x < 1440 := by
    intro x
    unfold minuteOfDay
    omega
  have ha := hbound a
  have hb := hbound b
  have hhours : ∀ x, z.getHours x < 60 := fun x => by
    have := hbound x
    unfold getHours
    omega
  have hminutes : ∀ x, z.getMinutes x < 60 := fun x => Nat.mod_lt _ (by decide)
  have hlist : (pad2 (z.getHours a)).toList ++ (':' :: (pad2 (z.getMinutes a)).toList) =
      (pad2 (z.getHours b)).toList ++ (':' :: (pad2 (z.getMinutes b)).toList) := by
    have hstr := congrArg String.toList h
    simp only [currentTime, String.toList_append] at hstr
    simpa [toString] using hstr
  obtain ⟨hhead, htail⟩ := List.append_inj hlist
    (by rw [pad2_length _ (hhours a), pad2_length _ (hhours b)])
  have hhour : z.getHours a = z.getHours b :=
    pad2_injOn _ (hhours a) _ (hhours b) (String.toList_injective hhead)
  have hminute : z.getMinutes a = z.getMinutes b :=
    pad2_injOn _ (hminutes a) _ (hminutes b) (String.toList_injective (List.cons.inj htail).2)
  unfold getHours at hhour
  unfold getMinutes at hminute
  omega

theorem currentTime_ne (z : Zone) (now : Int) : z.currentTime now ≠ "" := by
  intro h
  have hlist := congrArg String.toList h
  simp only [currentTime, String.toList_append] at hlist
  simp [toString] at hlist

theorem getDay_congr (z : Zone) {a b : Int} (h : z.localMinute a = z.localMinute b) :
    z.getDay a = z.getDay b := by
  rw [getDay, getDay, localDay, localDay, h]

end Zone

end Montr.Server
