import Montr.Server.ScheduleDispatch
import Montr.Server.Telemetry

namespace Montr.Server

open EarlyExit

/-!
# Schedules fired by a client's event

The events that are emitted on account of one client, with the payloads of their three emitters,
and the schedules that `onEvent` fires for them.  `narrowEventTarget` reads the client from
`client_id`; the handlers of the WebSocket server write it to `clientId`.

* `ClientEvent` — what is emitted, by `handleError` and by `fireAlert`;
* `FiresOnSource` — a schedule without a target is dispatched to the client of the event, and to
  no other;
* `firesOnSource_iff` — it is so when its turn comes and the event is an alert, or there is no
  other client.

Nothing emits `client_offline`.
-/

/-- An event on account of a client. -/
inductive ClientEvent
  /-- `handleError`, severity `fatal` -/
  | fatalError (error : String) (source : Option String) (context : PayloadValue)
  /-- `handleError`, `storage_low` of the cache -/
  | storageLow (context : PayloadValue)
  /-- `fireAlert` -/
  | alert (alert : Telemetry.Alert)
  deriving DecidableEq, Repr

/-- A property that may be missing. -/
def PayloadValue.ofOption : Option String → PayloadValue
  | some s => .string s
  | none => .undefined

/-- `null` where there is no text. -/
def PayloadValue.orNull : Option String → PayloadValue
  | some s => .string s
  | none => .null

namespace Telemetry.Alert

/-- The event type an alert is fired under. -/
def eventType : Alert → NotificationEventType
  | .diskLowCrit _ _ => .storageFull
  | .diskLowWarn _ _ => .storageFull
  | .cpuHigh _ => .clientError
  | .tempHigh _ => .clientError
  | .mpvDead _ => .clientError

/-- `TelemetryAlertSubtype`. -/
def subtype : Alert → String
  | .diskLowCrit _ _ => "disk_low_crit"
  | .diskLowWarn _ _ => "disk_low_warn"
  | .cpuHigh _ => "cpu_high"
  | .tempHigh _ => "temp_high"
  | .mpvDead _ => "mpv_dead"

/-- The `extra` of `fireAlert`. -/
def extra : Alert → Payload
  | .diskLowCrit mount pctFree =>
    [("mount", .string mount), ("pct_free", .number pctFree),
      ("threshold", .number diskCritPctFree)]
  | .diskLowWarn mount pctFree =>
    [("mount", .string mount), ("pct_free", .number pctFree),
      ("threshold", .number diskWarnPctFree)]
  | .cpuHigh cpuPct =>
    [("cpu_pct", .number cpuPct), ("threshold", .number cpuWarnPct),
      ("sustained_ticks", .number cpuWarnConsecutiveTicks)]
  | .tempHigh celsius => [("celsius", .number celsius), ("threshold", .number tempWarnCelsius)]
  | .mpvDead lastDecoderError => [("last_decoder_error", .orNull lastDecoderError)]

end Telemetry.Alert

namespace ClientEvent

def eventType : ClientEvent → NotificationEventType
  | .fatalError _ _ _ => .clientError
  | .storageLow _ => .storageFull
  | .alert a => a.eventType

/-- The payload that is emitted on account of a client. -/
def payload (clientId : String) : ClientEvent → Payload
  | .fatalError error source context =>
    [("clientId", .string clientId), ("error", .string error), ("source", .ofOption source),
      ("context", context)]
  | .storageLow context =>
    [("clientId", .string clientId), ("source", .string "cache"), ("context", context)]
  | .alert a => ("subtype", .string a.subtype) :: ("client_id", .string clientId) :: a.extra

/-- The emitter writes the client's id where `narrowEventTarget` looks for it. -/
def namesClient : ClientEvent → Bool
  | .alert _ => true
  | _ => false

end ClientEvent

/-- A schedule for whoever an event is about: it has no target of its own. -/
structure Untargeted (s : Schedule) : Prop where
  clientId : truthy s.clientId = none
  groupId : s.groupId.getD 0 = 0

section

variable (fleet : Fleet) (faults : Faults) (rows : List Schedule) (last : EventLastFired)
  (now : Nat)

/-- **The schedule fires on the client of the event**: it is dispatched to this client, and to no
    other. -/
def FiresOnSource (event : ClientEvent) (source : String) (s : Schedule) : Prop :=
  ∃ d ∈ (onEvent fleet faults rows last event.eventType (event.payload source) now).2,
    d.schedule = s ∧ ∀ id, id ∈ fleet.scope d.targeted ↔ id = source

/-- The turn of the schedule comes: it is not suppressed, and no schedule before it throws. -/
def ComesToTurn (event : ClientEvent) (source : String) (s : Schedule) : Prop :=
  s ∈ reached (throws fleet faults (narrowEventTarget · (event.payload source)))
    (dueForEvent rows last event.eventType now)

end

section

variable {fleet : Fleet} {faults : Faults} {rows : List Schedule} {last : EventLastFired}
  {now : Nat} {event : ClientEvent} {source : String} {s : Schedule}

/-- The scope of an untargeted schedule is everyone. -/
theorem Untargeted.scope (h : Untargeted s) : fleet.scope s = fleet.clients := by
  unfold Fleet.scope
  rw [h.clientId]
  cases hgroup : s.groupId with
  | none => rfl
  | some n =>
    have hzero := h.groupId
    rw [hgroup, Option.getD_some] at hzero
    subst hzero
    rfl

/-- An alert narrows the schedule to its client. -/
theorem Untargeted.scope_narrow_alert (h : Untargeted s) (a : Telemetry.Alert)
    (named : source ≠ "") :
    fleet.scope (narrowEventTarget s ((ClientEvent.alert a).payload source)) = [source] := by
  have hlength : 0 < source.length := by
    rw [Nat.pos_iff_ne_zero, ne_eq, String.length_eq_zero_iff]
    exact named
  have hlookup : ((ClientEvent.alert a).payload source).lookup "client_id" =
      some (.string source) := by
    simp [ClientEvent.payload, List.lookup_cons]
  have htruthy : truthy (some source) = some source :=
    Option.filter_eq_some_iff.mpr ⟨rfl, by simpa using named⟩
  unfold narrowEventTarget
  rw [h.clientId, h.groupId, hlookup]
  simp [hlength, Fleet.scope, htruthy]

/-- No other event narrows anything. -/
theorem narrowEventTarget_of_not_names (h : event.namesClient = false ∨ source = "") :
    narrowEventTarget s (event.payload source) = s := by
  unfold narrowEventTarget
  cases event with
  | fatalError error src context => simp [ClientEvent.payload, List.lookup_cons]
  | storageLow context => simp [ClientEvent.payload, List.lookup_cons]
  | alert a =>
    obtain rfl : source = "" := h.resolve_left fun hc => Bool.noConfusion hc
    simp [ClientEvent.payload, List.lookup_cons]

/-- The schedules an event dispatches, as they are targeted. -/
theorem firesOnSource_iff_scope (ids : (rows.map (·.id)).Nodup) :
    FiresOnSource fleet faults rows last now event source s ↔
      ComesToTurn fleet faults rows last now event source s ∧
        ∀ id, id ∈ fleet.scope (narrowEventTarget s (event.payload source)) ↔ id = source := by
  unfold FiresOnSource ComesToTurn
  rw [onEvent_dispatches ids]
  constructor
  · rintro ⟨d, hd, hschedule, hscope⟩
    obtain ⟨t, ht, rfl⟩ := List.mem_map.mp hd
    obtain rfl : t = s := hschedule
    exact ⟨ht, hscope⟩
  · rintro ⟨hturn, hscope⟩
    exact ⟨_, List.mem_map_of_mem hturn, rfl, hscope⟩

/-- **An untargeted schedule fires on the client of the event exactly when** its turn comes, and
    the event is an alert of a named client or there is no other client.  For every event that is
    emitted on account of a client. -/
theorem firesOnSource_iff (ids : (rows.map (·.id)).Nodup) (untargeted : Untargeted s) :
    FiresOnSource fleet faults rows last now event source s ↔
      ComesToTurn fleet faults rows last now event source s ∧
        (event.namesClient = true ∧ source ≠ "" ∨ ∀ id, id ∈ fleet.clients ↔ id = source) := by
  rw [firesOnSource_iff_scope ids]
  refine and_congr_right fun _ => ?_
  by_cases hnames : event.namesClient = true ∧ source ≠ ""
  · refine iff_of_true (fun id => ?_) (.inl hnames)
    cases event with
    | fatalError error src context => exact Bool.noConfusion hnames.1
    | storageLow context => exact Bool.noConfusion hnames.1
    | alert a => rw [untargeted.scope_narrow_alert a hnames.2, List.mem_singleton]
  · have hnot : event.namesClient = false ∨ source = "" := by
      rcases not_and_or.mp hnames with h | h
      · exact .inl (by simpa using h)
      · exact .inr (by simpa using h)
    rw [narrowEventTarget_of_not_names hnot, untargeted.scope]
    exact ⟨.inr, fun h => h.resolve_left hnames⟩

end

/-! ### The lobby fails -/

/-- Nothing goes wrong. -/
def noFaults : Faults := fun _ _ => false

theorem untargeted_globalAlarm : Untargeted globalAlarm := ⟨rfl, rfl⟩

theorem firesOnSource_iff_globalAlarm :
    FiresOnSource twoClients noFaults [globalAlarm] (fun _ => none) 1 (.alert (.tempHigh 90))
        "lobby" globalAlarm ↔
      ComesToTurn twoClients noFaults [globalAlarm] (fun _ => none) 1 (.alert (.tempHigh 90))
          "lobby" globalAlarm ∧
        ((ClientEvent.alert (.tempHigh 90)).namesClient = true ∧ "lobby" ≠ "" ∨
          ∀ id, id ∈ twoClients.clients ↔ id = "lobby") :=
  firesOnSource_iff (by decide) untargeted_globalAlarm

/-- **Counterexample.** A fatal error of the lobby fires the schedule on both clients. -/
theorem not_firesOnSource_fatal :
    ¬ FiresOnSource twoClients noFaults [globalAlarm] (fun _ => none) 1
        (.fatalError "mpv died" none .object) "lobby" globalAlarm ∧
      (onEvent twoClients noFaults [globalAlarm] (fun _ => none) .clientError
          ((ClientEvent.fatalError "mpv died" none .object).payload "lobby") 1).2.map
        (fun d => (d.schedule, d.outcome.effects)) =
        [(globalAlarm, [.assigned "lobby" 8, .sent "lobby" 8, .assigned "hall" 8,
          .sent "hall" 8])] := by
  have hsorted : getEnabledSchedules [globalAlarm] = [globalAlarm] :=
    List.mergeSort_of_pairwise (by decide)
  constructor
  · rintro ⟨d, hd, -, hscope⟩
    rw [onEvent, hsorted] at hd
    have hall : "hall" ∈ twoClients.scope d.targeted := by
      clear hscope
      revert d
      decide
    exact absurd ((hscope "hall").mp hall) (by decide)
  · rw [onEvent, hsorted]
    decide

end Montr.Server
