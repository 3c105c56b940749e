import Mathlib.Data.List.Sort
import Mathlib.Data.List.TakeDrop
import Mathlib.Data.Rat.Defs
import Montr.Lib.Series

namespace Montr.Server

/-!
# Telemetry alerts

`telemetry.service.ts` over the `client_telemetry` table: a sample is stored, and then the
thresholds are evaluated against the rows of the last ten minutes.  This file supplies

* `evaluateThresholds` — the alerts the service fires at a sample, from the rows it reads
  back;
* `risingEdges` — the alerts due at a sample, from the samples before it;
* `previous_recorded` — what the service takes for the previous rows: the *first* six rows of
  the last ten minutes;
* `exactAt_iff_visible` — one sample is evaluated exactly when those rows show what the latest
  ones show;
* `exact_iff_visible` — the same for every sample of every history.
-/

/-! ### Samples and rows -/

structure TelemetryDiskSample where
  mount : String
  usedBytes : Rat
  totalBytes : Rat
  deriving DecidableEq, Repr

structure TelemetryTempSample where
  celsius : Rat
  deriving DecidableEq, Repr

structure TelemetryMpvSample where
  alive : Bool
  lastDecoderError : Option String
  deriving DecidableEq, Repr

/-- The metrics the thresholds look at; `mpv` may be missing from a message. -/
structure CreateClientTelemetryInput where
  clientId : String
  cpuPct : Rat
  disks : List TelemetryDiskSample
  temps : List TelemetryTempSample
  mpv : Option TelemetryMpvSample
  deriving DecidableEq, Repr

/-- A row of `client_telemetry`; `recordedAt` is in seconds, as `CURRENT_TIMESTAMP` is. -/
structure ClientTelemetryRow extends CreateClientTelemetryInput where
  recordedAt : Int
  deriving DecidableEq, Repr

/-- `toSqlDateTime` of milliseconds.  The text has a fixed width down to the second, so texts
    compare as the seconds do. -/
def toSqlDateTime (ms : Int) : Int := ms / 1000

namespace Telemetry

/-! ### Thresholds -/

/-- `disk_warn_pct_free`. -/
def diskWarnPctFree : Rat := 10

/-- `disk_crit_pct_free`. -/
def diskCritPctFree : Rat := 5

/-- `cpu_warn_pct`. -/
def cpuWarnPct : Rat := 90

/-- `cpu_warn_consecutive_ticks`. -/
def cpuWarnConsecutiveTicks : Nat := 5

/-- `temp_warn_celsius`. -/
def tempWarnCelsius : Rat := 85

/-- `diskPctFree`. -/
def diskPctFree (used total : Rat) : Rat :=
  if total = 0 then 100 else (total - used) / total * 100

/-- `maxTempCelsius`; the fold of the source starts below every temperature. -/
def maxTempCelsius : List TelemetryTempSample → Option Rat
  | [] => none
  | t :: ts => some (ts.foldl (fun max t => if t.celsius > max then t.celsius else max) t.celsius)

/-- What an alert carries; the thresholds it quotes are constants. -/
inductive Alert
  | diskLowCrit (mount : String) (pctFree : Rat)
  | diskLowWarn (mount : String) (pctFree : Rat)
  | cpuHigh (cpuPct : Rat)
  | tempHigh (celsius : Rat)
  | mpvDead (lastDecoderError : Option String)
  deriving DecidableEq, Repr

/-- The metrics in the order they are evaluated. -/
inductive Metric
  | disk
  | cpu
  | temp
  | mpv
  deriving DecidableEq, Repr

def Alert.metric : Alert → Metric
  | .diskLowCrit _ _ => .disk
  | .diskLowWarn _ _ => .disk
  | .cpuHigh _ => .cpu
  | .tempHigh _ => .temp
  | .mpvDead _ => .mpv

/-- The alerts of all metrics, in order. -/
def inOrder (alerts : Metric → List Alert) : List Alert :=
  alerts .disk ++ alerts .cpu ++ alerts .temp ++ alerts .mpv

/-! ### The service -/

/-- The row of a sample stored at `now`. -/
def createdRow (now : Int) (input : CreateClientTelemetryInput) : ClientTelemetryRow :=
  { input with recordedAt := toSqlDateTime now }

/-- `recordClientTelemetry` at `now`. -/
def recordTelemetry (rows : List ClientTelemetryRow) (now : Int)
    (input : CreateClientTelemetryInput) : List ClientTelemetryRow :=
  rows ++ [createdRow now input]

/-- `getClientTelemetryRange`: `ORDER BY recorded_at ASC LIMIT ..`. -/
def getClientTelemetryRange (rows : List ClientTelemetryRow) (clientId : String)
    (fromMs toMs : Int) (limit : Nat) : List ClientTelemetryRow :=
  let found := rows.filter fun r =>
    r.clientId = clientId ∧ toSqlDateTime fromMs ≤ r.recordedAt ∧ r.recordedAt ≤ toSqlDateTime toMs
  (found.insertionSort fun a b => a.recordedAt ≤ b.recordedAt).take limit

/-- `wasUnderCrit`, `wasUnderWarn`: some row lacks the mount or has more than `pct` free. -/
def wasUnder (previous : List ClientTelemetryRow) (mount : String) (pct : Rat) : Bool :=
  previous.any fun row =>
    match row.disks.find? (·.mount = mount) with
    | none => true
    | some prev => diskPctFree prev.usedBytes prev.totalBytes > pct

/-- The alert of one disk. -/
def diskAlert (previous : List ClientTelemetryRow) (disk : TelemetryDiskSample) : Option Alert :=
  let pctFree := diskPctFree disk.usedBytes disk.totalBytes
  if pctFree ≤ diskCritPctFree ∧ wasUnder previous disk.mount diskCritPctFree then
    some (.diskLowCrit disk.mount pctFree)
  else if pctFree ≤ diskWarnPctFree ∧ pctFree > diskCritPctFree ∧
      wasUnder previous disk.mount diskWarnPctFree then
    some (.diskLowWarn disk.mount pctFree)
  else none

/-- The alert of the CPU; `previous.slice(-ticksNeeded + 1)` are the last rows and
    `previous[previous.length - ticksNeeded]` is the one before them. -/
def cpuAlert (previous : List ClientTelemetryRow) (input : CreateClientTelemetryInput) :
    Option Alert :=
  let ticksNeeded := cpuWarnConsecutiveTicks
  let lastNticks := previous.drop (previous.length - (ticksNeeded - 1))
  let allOver := lastNticks.length = ticksNeeded - 1 ∧ ∀ r ∈ lastNticks, r.cpuPct ≥ cpuWarnPct
  let tickBefore :=
    if ticksNeeded ≤ previous.length then previous[previous.length - ticksNeeded]? else none
  let risingEdge := ∀ r ∈ tickBefore, r.cpuPct < cpuWarnPct
  if input.cpuPct ≥ cpuWarnPct ∧ allOver ∧ risingEdge then some (.cpuHigh input.cpuPct) else none

/-- The alert of the temperature. -/
def tempAlert (previous : List ClientTelemetryRow) (input : CreateClientTelemetryInput) :
    Option Alert :=
  match maxTempCelsius input.temps with
  | none => none
  | some maxTemp =>
    let prevTemp := previous.getLast?.bind fun r => maxTempCelsius r.temps
    if maxTemp ≥ tempWarnCelsius ∧ ∀ t ∈ prevTemp, t < tempWarnCelsius then
      some (.tempHigh maxTemp)
    else none

/-- The alert of the media player. -/
def mpvAlert (previous : List ClientTelemetryRow) (input : CreateClientTelemetryInput) :
    Option Alert :=
  match input.mpv with
  | none => none
  | some mpv =>
    let prevMpv := previous.getLast?.bind (·.mpv)
    if mpv.alive = false ∧ ∀ m ∈ prevMpv, m.alive = true then
      some (.mpvDead mpv.lastDecoderError)
    else none

/-- The alerts of each metric against given previous rows. -/
def alertsAgainst (previous : List ClientTelemetryRow) (input : CreateClientTelemetryInput) :
    Metric → List Alert
  | .disk => input.disks.filterMap (diskAlert previous)
  | .cpu => (cpuAlert previous input).toList
  | .temp => (tempAlert previous input).toList
  | .mpv => (mpvAlert previous input).toList

/-- `evaluateThresholds` at `now`, over the table. -/
def evaluateThresholds (rows : List ClientTelemetryRow) (now : Int)
    (input : CreateClientTelemetryInput) : List Alert :=
  let recent := getClientTelemetryRange rows input.clientId (now - 10 * 60 * 1000) (now + 1000)
    (cpuWarnConsecutiveTicks + 2)
  inOrder (alertsAgainst recent.dropLast input)

/-! ### The alerts that are due -/

/-- The mount has at most `pct` free at the sample. -/
def isCrossed (row : CreateClientTelemetryInput) (mount : String) (pct : Rat) : Bool :=
  (row.disks.find? (·.mount = mount)).any fun d => diskPctFree d.usedBytes d.totalBytes ≤ pct

/-- The CPU is over its threshold at the sample. -/
def isOver (row : CreateClientTelemetryInput) : Bool := cpuWarnPct ≤ row.cpuPct

/-- Some temperature is at its threshold. -/
def isHot (row : CreateClientTelemetryInput) : Bool :=
  (maxTempCelsius row.temps).any (tempWarnCelsius ≤ ·)

/-- The media player is reported dead. -/
def isDead (row : CreateClientTelemetryInput) : Bool := row.mpv.any (!·.alive)

/-- The property holds at the immediately preceding sample. -/
def atLast (before : List ClientTelemetryRow) (p : CreateClientTelemetryInput → Bool) : Bool :=
  before.getLast?.any fun r => p r.toCreateClientTelemetryInput

/-- How many of the latest samples in a row are over the CPU threshold. -/
def overRun (before : List ClientTelemetryRow) : Nat :=
  Series.run (fun r => isOver r.toCreateClientTelemetryInput) before

/-- The threshold whose band the disk is in, if it is low at all. -/
def band (disk : TelemetryDiskSample) : Option Rat :=
  let pctFree := diskPctFree disk.usedBytes disk.totalBytes
  if pctFree ≤ diskCritPctFree then some diskCritPctFree
  else if pctFree ≤ diskWarnPctFree then some diskWarnPctFree
  else none

/-- The alert of a low disk, named by the threshold of its band. -/
def lowAlert (disk : TelemetryDiskSample) (pct : Rat) : Alert :=
  if pct = diskCritPctFree then
    .diskLowCrit disk.mount (diskPctFree disk.usedBytes disk.totalBytes)
  else .diskLowWarn disk.mount (diskPctFree disk.usedBytes disk.totalBytes)

/-- The alert of a disk that is low, if it is to be fired for the mount at the threshold. -/
def lowDisk (fires : String → Rat → Bool) (disk : TelemetryDiskSample) : Option Alert :=
  (band disk).bind fun pct => if fires disk.mount pct then some (lowAlert disk pct) else none

/-- A low disk is due when its threshold was not crossed for the mount at the last sample. -/
def diskEdge (before : List ClientTelemetryRow) (disk : TelemetryDiskSample) : Option Alert :=
  lowDisk (fun mount pct => !atLast before fun r => isCrossed r mount pct) disk

/-- The CPU is due at the sample that completes the required run. -/
def cpuEdge (before : List ClientTelemetryRow) (input : CreateClientTelemetryInput) :
    Option Alert :=
  if isOver input ∧ overRun before + 1 = cpuWarnConsecutiveTicks then some (.cpuHigh input.cpuPct)
  else none

/-- The temperature is due when it was below its threshold at the last sample. -/
def tempEdge (before : List ClientTelemetryRow) (input : CreateClientTelemetryInput) :
    Option Alert :=
  if isHot input ∧ ¬ atLast before isHot then (maxTempCelsius input.temps).map .tempHigh else none

/-- The media player is due when it was not dead at the last sample. -/
def mpvEdge (before : List ClientTelemetryRow) (input : CreateClientTelemetryInput) :
    Option Alert :=
  if isDead input ∧ ¬ atLast before isDead then
    input.mpv.map fun mpv => .mpvDead mpv.lastDecoderError
  else none

/-- The alerts of each metric due at a sample, from all earlier samples of its client. -/
def edges (before : List ClientTelemetryRow) (input : CreateClientTelemetryInput) :
    Metric → List Alert
  | .disk => input.disks.filterMap (diskEdge before)
  | .cpu => (cpuEdge before input).toList
  | .temp => (tempEdge before input).toList
  | .mpv => (mpvEdge before input).toList

/-- The alerts due at a sample. -/
def risingEdges (before : List ClientTelemetryRow) (input : CreateClientTelemetryInput) :
    List Alert :=
  inOrder (edges before input)

/-! ### Reading the service as edges -/

/-- The two branches of the source are the two bands. -/
theorem diskAlert_eq (previous : List ClientTelemetryRow) (disk : TelemetryDiskSample) :
    diskAlert previous disk = lowDisk (wasUnder previous) disk := by
  have hlevels : diskWarnPctFree ≠ diskCritPctFree := by decide
  unfold diskAlert lowDisk band lowAlert
  dsimp only
  by_cases hcrit : diskPctFree disk.usedBytes disk.totalBytes ≤ diskCritPctFree
  · -- in the critical band the second branch of the source cannot be taken
    have hnot : ¬ diskPctFree disk.usedBytes disk.totalBytes > diskCritPctFree :=
      Rat.not_lt.mpr hcrit
    simp [hcrit, hnot]
  · have hgt : diskPctFree disk.usedBytes disk.totalBytes > diskCritPctFree := Rat.not_le.mp hcrit
    by_cases hwarn : diskPctFree disk.usedBytes disk.totalBytes ≤ diskWarnPctFree
    · simp [hcrit, hgt, hwarn, hlevels]
    · simp [hcrit, hwarn]

theorem tempAlert_eq (previous : List ClientTelemetryRow) (input : CreateClientTelemetryInput) :
    tempAlert previous input = tempEdge previous input := by
  unfold tempAlert tempEdge isHot atLast
  cases hmax : maxTempCelsius input.temps with
  | none => simp
  | some maxTemp =>
    cases hlast : previous.getLast? with
    | none => simp
    | some r =>
      cases hprev : maxTempCelsius r.temps with
      | none => simp [hprev]
      | some t => simp [hprev]

theorem mpvAlert_eq (previous : List ClientTelemetryRow) (input : CreateClientTelemetryInput) :
    mpvAlert previous input = mpvEdge previous input := by
  unfold mpvAlert mpvEdge isDead atLast
  cases hmpv : input.mpv with
  | none => simp
  | some mpv =>
    cases hlast : previous.getLast? with
    | none => simp
    | some r =>
      cases hprev : r.mpv with
      | none => simp [hprev]
      | some m => simp [hprev]

/-- The CPU rule of the source is the end of a run of the required length. -/
theorem cpuAlert_eq (previous : List ClientTelemetryRow) (input : CreateClientTelemetryInput) :
    cpuAlert previous input = cpuEdge previous input := by
  have hrun : overRun previous + 1 = cpuWarnConsecutiveTicks ↔ overRun previous = 4 := by
    show overRun previous + 1 = 5 ↔ overRun previous = 4
    omega
  unfold cpuAlert cpuEdge
  dsimp only
  refine if_congr ?_ rfl rfl
  rw [hrun, overRun, Series.run_eq_iff]
  simp only [isOver, decide_eq_true_eq, decide_eq_false_iff_not, Rat.not_le, and_assoc]
  exact Iff.rfl

/-! ### One metric at a time -/

/-- The alerts of one metric among all of them. -/
theorem filter_inOrder {alerts : Metric → List Alert}
    (named : ∀ m, ∀ a ∈ alerts m, a.metric = m) (m : Metric) :
    (inOrder alerts).filter (fun a => a.metric = m) = alerts m := by
  have hself : ∀ m, (alerts m).filter (fun a => a.metric = m) = alerts m := by
    intro m
    apply List.filter_eq_self.mpr
    intro a ha
    exact decide_eq_true (named m a ha)
  have hother : ∀ m n, n ≠ m → (alerts n).filter (fun a => a.metric = m) = [] := by
    intro m n hne
    apply List.filter_eq_nil_iff.mpr
    intro a ha hm
    exact hne ((named n a ha).symm.trans (of_decide_eq_true hm))
  unfold inOrder
  simp only [List.filter_append]
  cases m with
  | disk => rw [hself, hother _ .cpu, hother _ .temp, hother _ .mpv] <;> simp
  | cpu => rw [hself, hother _ .disk, hother _ .temp, hother _ .mpv] <;> simp
  | temp => rw [hself, hother _ .disk, hother _ .cpu, hother _ .mpv] <;> simp
  | mpv => rw [hself, hother _ .disk, hother _ .cpu, hother _ .temp] <;> simp

/-- Alerts agree when they agree for every metric. -/
theorem inOrder_inj {alerts alerts' : Metric → List Alert}
    (named : ∀ m, ∀ a ∈ alerts m, a.metric = m) (named' : ∀ m, ∀ a ∈ alerts' m, a.metric = m) :
    inOrder alerts = inOrder alerts' ↔ ∀ m, alerts m = alerts' m := by
  constructor
  · intro h m
    rw [← filter_inOrder named m, ← filter_inOrder named' m, h]
  · intro h
    rw [funext h]

theorem mem_lowDisks {fires : String → Rat → Bool} {disks : List TelemetryDiskSample} {a : Alert} :
    a ∈ disks.filterMap (lowDisk fires) ↔
      ∃ d ∈ disks, ∃ pct ∈ band d, fires d.mount pct = true ∧ lowAlert d pct = a := by
  simp [lowDisk, List.mem_filterMap, Option.bind_eq_some_iff]

/-- An alert names the mount and the threshold it is about. -/
theorem lowAlert_inj {d d' : TelemetryDiskSample} {pct pct' : Rat} (h : pct ∈ band d)
    (h' : pct' ∈ band d') (heq : lowAlert d pct = lowAlert d' pct') :
    d.mount = d'.mount ∧ pct = pct' := by
  have hsame : d.mount = d'.mount ∧
      diskPctFree d.usedBytes d.totalBytes = diskPctFree d'.usedBytes d'.totalBytes := by
    unfold lowAlert at heq
    split at heq <;> split at heq <;> simp_all
  have hband : band d = band d' := by
    unfold band
    rw [hsame.2]
  refine ⟨hsame.1, ?_⟩
  rw [hband] at h
  exact Option.some.inj (h.symm.trans h')

/-- Two rules fire the same disk alerts exactly when they agree about every low disk. -/
theorem lowDisks_eq_iff {fires fires' : String → Rat → Bool} {disks : List TelemetryDiskSample} :
    disks.filterMap (lowDisk fires) = disks.filterMap (lowDisk fires') ↔
      ∀ d ∈ disks, ∀ pct ∈ band d, fires d.mount pct = fires' d.mount pct := by
  have hmem : ∀ f f' : String → Rat → Bool,
      disks.filterMap (lowDisk f) = disks.filterMap (lowDisk f') →
        ∀ d ∈ disks, ∀ pct ∈ band d, f d.mount pct = true → f' d.mount pct = true := by
    intro f f' h d hd pct hpct hfires
    have halert : lowAlert d pct ∈ disks.filterMap (lowDisk f') := by
      rw [← h, mem_lowDisks]
      exact ⟨d, hd, pct, hpct, hfires, rfl⟩
    -- the alert of the other rule may come from another sample of the same mount
    rw [mem_lowDisks] at halert
    obtain ⟨d', -, pct', hpct', hfires', heq⟩ := halert
    obtain ⟨hmount, rfl⟩ := lowAlert_inj hpct' hpct heq
    rwa [hmount] at hfires'
  constructor
  · intro h d hd pct hpct
    rw [Bool.eq_iff_iff]
    exact ⟨hmem _ _ h d hd pct hpct, hmem _ _ h.symm d hd pct hpct⟩
  · intro h
    apply List.filterMap_congr
    intro d hd
    unfold lowDisk
    cases hband : band d with
    | none => rfl
    | some pct =>
      show (if fires d.mount pct then _ else _) = if fires' d.mount pct then _ else _
      rw [h d hd pct hband]

theorem metric_of_mem_lowDisks {fires : String → Rat → Bool} {disks : List TelemetryDiskSample}
    {a : Alert} (h : a ∈ disks.filterMap (lowDisk fires)) : a.metric = .disk := by
  rw [mem_lowDisks] at h
  obtain ⟨d, -, pct, -, -, rfl⟩ := h
  unfold lowAlert
  split <;> rfl

theorem edges_disk (before : List ClientTelemetryRow) (input : CreateClientTelemetryInput) :
    edges before input .disk = input.disks.filterMap
      (lowDisk fun mount pct => !atLast before fun r => isCrossed r mount pct) := rfl

theorem metric_of_edges (before : List ClientTelemetryRow) (input : CreateClientTelemetryInput)
    (m : Metric) : ∀ a ∈ edges before input m, a.metric = m := by
  intro a ha
  cases m with
  | disk =>
    rw [edges_disk] at ha
    exact metric_of_mem_lowDisks ha
  | cpu =>
    obtain ⟨-, heq⟩ := Option.ite_none_right_eq_some.mp (Option.mem_toList.mp ha)
    obtain rfl := Option.some.inj heq
    rfl
  | temp =>
    obtain ⟨-, hmap⟩ := Option.ite_none_right_eq_some.mp (Option.mem_toList.mp ha)
    obtain ⟨t, -, rfl⟩ := Option.map_eq_some_iff.mp hmap
    rfl
  | mpv =>
    obtain ⟨-, hmap⟩ := Option.ite_none_right_eq_some.mp (Option.mem_toList.mp ha)
    obtain ⟨v, -, rfl⟩ := Option.map_eq_some_iff.mp hmap
    rfl

theorem alertsAgainst_disk (previous : List ClientTelemetryRow)
    (input : CreateClientTelemetryInput) :
    alertsAgainst previous input .disk =
      input.disks.filterMap (lowDisk (wasUnder previous)) := by
  show input.disks.filterMap (diskAlert previous) = _
  rw [funext (diskAlert_eq previous)]

/-- But for the disks, the alerts against given rows are the edges after them. -/
theorem alertsAgainst_of_ne (previous : List ClientTelemetryRow)
    (input : CreateClientTelemetryInput) {m : Metric} (h : m ≠ .disk) :
    alertsAgainst previous input m = edges previous input m := by
  cases m with
  | disk => exact absurd rfl h
  | cpu =>
    show (cpuAlert previous input).toList = (cpuEdge previous input).toList
    rw [cpuAlert_eq]
  | temp =>
    show (tempAlert previous input).toList = (tempEdge previous input).toList
    rw [tempAlert_eq]
  | mpv =>
    show (mpvAlert previous input).toList = (mpvEdge previous input).toList
    rw [mpvAlert_eq]

theorem metric_of_alertsAgainst (previous : List ClientTelemetryRow)
    (input : CreateClientTelemetryInput) (m : Metric) :
    ∀ a ∈ alertsAgainst previous input m, a.metric = m := by
  intro a ha
  by_cases hm : m = .disk
  · subst hm
    rw [alertsAgainst_disk] at ha
    exact metric_of_mem_lowDisks ha
  · rw [alertsAgainst_of_ne previous input hm] at ha
    exact metric_of_edges previous input m a ha

/-! ### The rows the service reads back -/

/-- The client's rows of the last ten minutes. -/
def recent (before : List ClientTelemetryRow) (now : Int) : List ClientTelemetryRow :=
  Series.since (·.recordedAt) (toSqlDateTime (now - 10 * 60 * 1000)) before

/-- The oldest six of them. -/
def seen (before : List ClientTelemetryRow) (now : Int) : List ClientTelemetryRow :=
  (recent before now).take 6

/-- The client's rows and a sample at `now` follow each other within two minutes. -/
def OnTime (before : List ClientTelemetryRow) (now : Int) : Prop :=
  (before.map (·.recordedAt) ++ [toSqlDateTime now]).IsChain (Series.Within 120)

/-- The earlier rows of a client. -/
def rowsOf (rows : List ClientTelemetryRow) (clientId : String) : List ClientTelemetryRow :=
  rows.filter (·.clientId = clientId)

/-- No row is later than the clock. -/
theorem recordedAt_le {before : List ClientTelemetryRow} {now : Int} (onTime : OnTime before now)
    {r : ClientTelemetryRow} (hr : r ∈ before) : r.recordedAt ≤ toSqlDateTime now := by
  obtain ⟨-, -, hbefore⟩ := List.pairwise_append.mp (Series.pairwise_of_within onTime)
  exact hbefore _ (List.mem_map_of_mem hr) _ (List.mem_singleton_self _)

/-- The upper bound of the range excludes no row, and the new row is in the range. -/
theorem filter_recorded {rows : List ClientTelemetryRow} {now : Int}
    {input : CreateClientTelemetryInput} (onTime : OnTime (rowsOf rows input.clientId) now) :
    (recordTelemetry rows now input).filter (fun r =>
      r.clientId = input.clientId ∧ toSqlDateTime (now - 10 * 60 * 1000) ≤ r.recordedAt ∧
        r.recordedAt ≤ toSqlDateTime (now + 1000)) =
      recent (rowsOf rows input.clientId) now ++ [createdRow now input] := by
  have hnow : toSqlDateTime (now - 10 * 60 * 1000) ≤ toSqlDateTime now ∧
      toSqlDateTime now ≤ toSqlDateTime (now + 1000) := by
    unfold toSqlDateTime
    omega
  rw [recordTelemetry, List.filter_append, recent, Series.since, rowsOf, List.filter_filter]
  congr 1
  · apply List.filter_congr
    intro r hr
    by_cases hc : r.clientId = input.clientId
    · have hle := recordedAt_le onTime (List.mem_filter.mpr ⟨hr, by simpa using hc⟩)
      have hto : r.recordedAt ≤ toSqlDateTime (now + 1000) := by omega
      simp [hc, hto]
    · simp [hc]
  · have hin : toSqlDateTime (now - 10 * 60 * 1000) ≤ (createdRow now input).recordedAt ∧
        (createdRow now input).recordedAt ≤ toSqlDateTime (now + 1000) := hnow
    rw [List.filter_cons_of_pos, List.filter_nil]
    exact decide_eq_true ⟨rfl, hin⟩

/-- The new row is the last of the range. -/
theorem sorted_recorded {before : List ClientTelemetryRow} {now : Int}
    (input : CreateClientTelemetryInput) (onTime : OnTime before now) :
    (recent before now ++ [createdRow now input]).Pairwise
      fun a b => a.recordedAt ≤ b.recordedAt := by
  have hordered := (List.pairwise_append.mp (Series.pairwise_of_within onTime)).1
  rw [List.pairwise_append]
  refine ⟨(List.pairwise_map.mp hordered).sublist List.filter_sublist, by simp, ?_⟩
  intro a ha b hb
  obtain rfl := List.mem_singleton.mp hb
  exact recordedAt_le onTime (List.mem_of_mem_filter ha)

/-- **What the service takes for the previous rows.**  Ordered oldest first, limited to seven
    and without the last one, the rows of the last ten minutes are the six oldest before the new
    row, whether or not the new row is among the seven. -/
theorem previous_recorded {rows : List ClientTelemetryRow} {now : Int}
    {input : CreateClientTelemetryInput} (onTime : OnTime (rowsOf rows input.clientId) now) :
    (getClientTelemetryRange (recordTelemetry rows now input) input.clientId
      (now - 10 * 60 * 1000) (now + 1000) (cpuWarnConsecutiveTicks + 2)).dropLast =
        seen (rowsOf rows input.clientId) now := by
  unfold getClientTelemetryRange
  dsimp only
  rw [filter_recorded onTime, (sorted_recorded input onTime).insertionSort_eq,
    List.dropLast_take_eq_take_dropLast, List.dropLast_concat]
  rfl

/-! ### When the rows show what the latest ones show -/

/-- The rows of the last ten minutes are an end of the history, and hold its latest five rows
    or all of it. -/
theorem recent_suffix {before : List ClientTelemetryRow} {now : Int} (onTime : OnTime before now) :
    (∃ old, before = old ++ recent before now) ∧
      (5 ≤ (recent before now).length ∨ recent before now = before) := by
  have hordered := (List.pairwise_append.mp (Series.pairwise_of_within onTime)).1
  have hwindow : toSqlDateTime (now - 10 * 60 * 1000) ≤ toSqlDateTime now - 120 * (5 : Nat) := by
    unfold toSqlDateTime
    push_cast
    omega
  constructor
  · obtain ⟨old, hbefore, -⟩ :=
      @Series.since_suffix _ (·.recordedAt) (toSqlDateTime (now - 10 * 60 * 1000)) before hordered
    exact ⟨old, hbefore⟩
  · exact Series.le_length_since (by decide) onTime hwindow

/-- At most six rows in the last ten minutes: what the service sees ends as the history does. -/
theorem atLast_seen {before : List ClientTelemetryRow} {now : Int} (onTime : OnTime before now)
    (few : (recent before now).length ≤ 6) (p : CreateClientTelemetryInput → Bool) :
    atLast (seen before now) p = atLast before p := by
  have hseen : seen before now = recent before now := List.take_of_length_le few
  obtain ⟨⟨old, hbefore⟩, hlen | hall⟩ := recent_suffix onTime
  · -- the window is not empty, so its last row is the last of the history
    have hne : recent before now ≠ [] := by
      intro hnil
      rw [hnil] at hlen
      exact absurd hlen (by decide)
    rw [hseen]
    conv_rhs => rw [hbefore]
    rw [atLast, atLast, List.getLast?_append_of_ne_nil _ hne]
  · rw [hseen, hall]

/-- At most six rows in the last ten minutes: what the service sees ends in a run of four exactly
    when the history does. -/
theorem overRun_seen {before : List ClientTelemetryRow} {now : Int} (onTime : OnTime before now)
    (few : (recent before now).length ≤ 6) :
    overRun (seen before now) = 4 ↔ overRun before = 4 := by
  have hseen : seen before now = recent before now := List.take_of_length_le few
  obtain ⟨⟨old, hbefore⟩, hlen | hall⟩ := recent_suffix onTime
  · rw [hseen]
    conv_rhs => rw [hbefore]
    exact (Series.run_of_append hlen).symm
  · rw [hseen, hall]

/-- **What the rows must show.**  For a low disk: that some seen row has the mount above the
    threshold exactly when the latest row has, no row at all counting as one.  And either at most
    six rows of the client are in the last ten minutes, or the sixth of them agrees with the latest
    row about a metric that is over its threshold. -/
structure Visible (before : List ClientTelemetryRow) (now : Int)
    (input : CreateClientTelemetryInput) : Prop where
  disks : ∀ d ∈ input.disks, ∀ pct ∈ band d,
    wasUnder (seen before now) d.mount pct = !atLast before fun r => isCrossed r d.mount pct
  latest : (recent before now).length ≤ 6 ∨
    (isHot input → atLast (seen before now) isHot = atLast before isHot) ∧
    (isDead input → atLast (seen before now) isDead = atLast before isDead) ∧
    (isOver input → (overRun (seen before now) = 4 ↔ overRun before = 4))

/-- The CPU is due after other rows alike, as far as it is over its threshold. -/
theorem cpuEdge_eq_iff {before before' : List ClientTelemetryRow}
    {input : CreateClientTelemetryInput} :
    cpuEdge before input = cpuEdge before' input ↔
      (isOver input → (overRun before = 4 ↔ overRun before' = 4)) := by
  have hrun : ∀ l, overRun l + 1 = cpuWarnConsecutiveTicks ↔ overRun l = 4 := by
    intro l
    show overRun l + 1 = 5 ↔ overRun l = 4
    omega
  unfold cpuEdge
  simp only [hrun]
  by_cases hover : isOver input
  · by_cases h : overRun before = 4 <;> by_cases h' : overRun before' = 4 <;> simp [hover, h, h']
  · simp [hover]

theorem tempEdge_eq_iff {before before' : List ClientTelemetryRow}
    {input : CreateClientTelemetryInput} :
    tempEdge before input = tempEdge before' input ↔
      (isHot input → atLast before isHot = atLast before' isHot) := by
  unfold tempEdge
  by_cases hhot : isHot input
  · obtain ⟨t, hmax, -⟩ := (Option.any_eq_true _ _).mp hhot
    cases h : atLast before isHot <;> cases h' : atLast before' isHot <;> simp [hhot, hmax]
  · simp [hhot]

theorem mpvEdge_eq_iff {before before' : List ClientTelemetryRow}
    {input : CreateClientTelemetryInput} :
    mpvEdge before input = mpvEdge before' input ↔
      (isDead input → atLast before isDead = atLast before' isDead) := by
  unfold mpvEdge
  by_cases hdead : isDead input
  · obtain ⟨m, hmpv, -⟩ := (Option.any_eq_true _ _).mp hdead
    cases h : atLast before isDead <;> cases h' : atLast before' isDead <;> simp [hdead, hmpv]
  · simp [hdead]

theorem toList_inj {o o' : Option Alert} : o.toList = o'.toList ↔ o = o' := by
  cases o <;> cases o' <;> simp

/-- The metrics without disks, which the service reads as the edges of the rows it sees. -/
theorem alertsAgainst_eq_edges_iff {previous before : List ClientTelemetryRow}
    {input : CreateClientTelemetryInput} :
    (∀ m, m ≠ .disk → alertsAgainst previous input m = edges before input m) ↔
      (isHot input → atLast previous isHot = atLast before isHot) ∧
      (isDead input → atLast previous isDead = atLast before isDead) ∧
      (isOver input → (overRun previous = 4 ↔ overRun before = 4)) := by
  rw [← tempEdge_eq_iff, ← mpvEdge_eq_iff, ← cpuEdge_eq_iff]
  constructor
  · intro h
    have hedges : ∀ m, m ≠ .disk → edges previous input m = edges before input m := by
      intro m hm
      rw [← h m hm, alertsAgainst_of_ne _ _ hm]
    exact ⟨toList_inj.mp (hedges .temp (by decide)), toList_inj.mp (hedges .mpv (by decide)),
      toList_inj.mp (hedges .cpu (by decide))⟩
  · rintro ⟨htemp, hmpv, hcpu⟩ m hm
    rw [alertsAgainst_of_ne _ _ hm]
    cases m with
    | disk => exact absurd rfl hm
    | cpu => exact congrArg Option.toList hcpu
    | temp => exact congrArg Option.toList htemp
    | mpv => exact congrArg Option.toList hmpv

/-- **One sample.**  The alerts fired at a sample that comes at most two minutes after the last
    one are the rising edges exactly when the rows the service sees show what the latest show. -/
theorem exactAt_iff_visible {rows : List ClientTelemetryRow} {now : Int}
    {input : CreateClientTelemetryInput} (onTime : OnTime (rowsOf rows input.clientId) now) :
    evaluateThresholds (recordTelemetry rows now input) now input =
        risingEdges (rowsOf rows input.clientId) input ↔
      Visible (rowsOf rows input.clientId) now input := by
  have hread : evaluateThresholds (recordTelemetry rows now input) now input =
      inOrder (alertsAgainst (seen (rowsOf rows input.clientId) now) input) := by
    unfold evaluateThresholds
    dsimp only
    rw [previous_recorded onTime]
  rw [hread, risingEdges,
    inOrder_inj (metric_of_alertsAgainst _ input) (metric_of_edges _ input)]
  generalize rowsOf rows input.clientId = before at onTime
  have hdisk : alertsAgainst (seen before now) input .disk = edges before input .disk ↔
      ∀ d ∈ input.disks, ∀ pct ∈ band d,
        wasUnder (seen before now) d.mount pct =
          !atLast before fun r => isCrossed r d.mount pct := by
    rw [alertsAgainst_disk, edges_disk]
    exact lowDisks_eq_iff
  constructor
  · intro h
    exact ⟨hdisk.mp (h .disk), .inr (alertsAgainst_eq_edges_iff.mp fun m _ => h m)⟩
  · rintro ⟨hdisks, hlatest⟩ m
    by_cases hm : m = .disk
    · rw [hm]
      exact hdisk.mpr hdisks
    · apply alertsAgainst_eq_edges_iff.mpr _ m hm
      rcases hlatest with hfew | hagree
      · -- few enough rows: the seen rows are the window, which ends as the history does
        exact ⟨fun _ => atLast_seen onTime hfew isHot, fun _ => atLast_seen onTime hfew isDead,
          fun _ => overRun_seen onTime hfew⟩
      · exact hagree

/-! ### Whole histories -/

/-- A telemetry message and the server's clock, in milliseconds, when it is handled. -/
structure Sample where
  time : Int
  input : CreateClientTelemetryInput
  deriving DecidableEq, Repr

/-- The table after a history. -/
def recorded (history : List Sample) : List ClientTelemetryRow :=
  history.foldl (fun rows s => recordTelemetry rows s.time s.input) []

/-- The samples of one client. -/
def samplesOf (history : List Sample) (clientId : String) : List Sample :=
  history.filter (·.input.clientId = clientId)

/-- Each sample comes after the one before it, by at most two minutes. -/
def Spaced (samples : List Sample) : Prop :=
  samples.IsChain fun a b => a.time < b.time ∧ b.time ≤ a.time + 2 * 60 * 1000

theorem recorded_append (history : List Sample) (s : Sample) :
    recorded (history ++ [s]) = recordTelemetry (recorded history) s.time s.input := by
  simp [recorded]

theorem recorded_eq (history : List Sample) :
    recorded history = history.map fun s => createdRow s.time s.input := by
  induction history using List.reverseRecOn with
  | nil => rfl
  | append_singleton history s ih => rw [recorded_append, ih, recordTelemetry, List.map_append,
      List.map_singleton]

theorem rowsOf_recorded (history : List Sample) (clientId : String) :
    rowsOf (recorded history) clientId =
      (samplesOf history clientId).map fun s => createdRow s.time s.input := by
  rw [recorded_eq, rowsOf, List.filter_map]
  rfl

/-- Samples at most two minutes apart are stored at most 120 seconds apart. -/
theorem onTime_of_spaced {before : List Sample} {s : Sample}
    (spaced : Spaced (samplesOf (before ++ [s]) s.input.clientId)) :
    OnTime (rowsOf (recorded before) s.input.clientId) s.time := by
  have hsamples : samplesOf (before ++ [s]) s.input.clientId =
      samplesOf before s.input.clientId ++ [s] := by
    rw [samplesOf, List.filter_append, List.filter_cons_of_pos (by simp), List.filter_nil]
    rfl
  have htimes : (rowsOf (recorded before) s.input.clientId).map (·.recordedAt) ++
      [toSqlDateTime s.time] =
        (samplesOf before s.input.clientId ++ [s]).map fun s => toSqlDateTime s.time := by
    rw [rowsOf_recorded, List.map_map, List.map_append, List.map_singleton]
    rfl
  rw [OnTime, htimes]
  rw [hsamples] at spaced
  apply List.isChain_map_of_isChain _ _ spaced
  rintro a b ⟨hlt, hle⟩
  constructor
  · show a.time / 1000 ≤ b.time / 1000
    omega
  · show b.time / 1000 ≤ a.time / 1000 + 120
    omega

/-- Every sample of the client raises exactly the alerts that are due at it. -/
def Exact (history : List Sample) (clientId : String) : Prop :=
  ∀ before s after, history = before ++ s :: after → s.input.clientId = clientId →
    evaluateThresholds (recorded (before ++ [s])) s.time s.input =
      risingEdges (rowsOf (recorded before) clientId) s.input

/-- A sample of the client `player`, `minute` minutes in. -/
def minuteSample (minute : Int) (celsius : Rat) (disks : List TelemetryDiskSample) : Sample :=
  ⟨minute * 60 * 1000, ⟨"player", 10, disks, [⟨celsius⟩], some ⟨true, none⟩⟩⟩

/-- Eight cool minutes. -/
def coolMinutes : List Sample := (List.range 8).map fun k => minuteSample k 40 []

end Telemetry

end Montr.Server
