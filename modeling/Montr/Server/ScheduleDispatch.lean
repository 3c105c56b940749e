import Montr.Lib.EarlyExit
import Montr.Server.EffectivePriority

namespace Montr.Server

open EarlyExit

/-!
# Dispatching schedules

The two loops of `schedule.service.ts` that dispatch schedules, with everything that can go wrong
on the way: `dispatchSchedule` is a list of steps, any of which may throw.

* `dispatchSteps`, `runSteps` — the database calls and pushes of one dispatch, and what comes of
  them when some fail;
* `evaluateAndDispatch`, `onEvent` — a tick and an event;
* `Isolated` — no failure keeps another schedule from being dispatched, and none that left
  nothing behind is recorded;
* `isolated_iff` — when that is so.

A dispatch reads the clients, the members of a group and the connections; within a tick or an
event they are fixed (`Fleet`).
-/

/-- What a dispatch reads, clients by id. -/
structure Fleet where
  clients : List String
  members : Nat → List String
  isConnected : String → Bool

/-- A call within a dispatch that may throw. -/
inductive DispatchStep
  | getDatabase
  | getGroupMembers (groupId : Nat)
  | getAllClients
  /-- `db.updateClient` with the playlist -/
  | updateClient (clientId : String) (playlistId : Nat)
  /-- `sendPlaylistToClient`, which catches what it throws -/
  | sendPlaylistToClient (clientId : String) (playlistId : Nat)
  /-- the `try` block of `dispatchInterrupt` -/
  | interruptTarget (clientId : String) (playlistId : Nat) (connected timed : Bool)
  deriving DecidableEq, Repr

/-- What a dispatch does to a client. -/
inductive DispatchEffect
  | assigned (clientId : String) (playlistId : Nat)
  | sent (clientId : String) (playlistId : Nat)
  | interrupted (clientId : String) (playlistId : Nat)
  | autoResume (clientId : String)
  deriving DecidableEq, Repr

def DispatchEffect.clientId : DispatchEffect → String
  | .assigned clientId _ => clientId
  | .sent clientId _ => clientId
  | .interrupted clientId _ => clientId
  | .autoResume clientId => clientId

namespace DispatchStep

/-- Whether an error of the step stays within it. -/
def caught : DispatchStep → Bool
  | .sendPlaylistToClient _ _ => true
  | .interruptTarget _ _ _ _ => true
  | _ => false

/-- What the step does when it succeeds. -/
def effects : DispatchStep → List DispatchEffect
  | .updateClient clientId playlistId => [.assigned clientId playlistId]
  | .sendPlaylistToClient clientId playlistId => [.sent clientId playlistId]
  | .interruptTarget clientId playlistId connected timed =>
    .interrupted clientId playlistId ::
      ((if connected then [.sent clientId playlistId] else []) ++
        if timed then [.autoResume clientId] else [])
  | _ => []

end DispatchStep

/-- What comes of a dispatch. -/
structure DispatchOutcome where
  effects : List DispatchEffect
  threw : Bool
  /-- some step failed, caught or not -/
  failed : Bool
  deriving DecidableEq, Repr

/-- A failure left nothing behind. -/
def DispatchOutcome.undone (o : DispatchOutcome) : Bool := o.failed && o.effects.isEmpty

/-- The steps in order, from the one with the given number; those that fail are given. -/
def runSteps (fails : Nat → Bool) : Nat → List DispatchStep → DispatchOutcome
  | _, [] => { effects := [], threw := false, failed := false }
  | n, step :: rest =>
    if fails n then
      if step.caught then { runSteps fails (n + 1) rest with failed := true }
      else { effects := [], threw := true, failed := true }
    else
      let o := runSteps fails (n + 1) rest
      { o with effects := step.effects ++ o.effects }

section

variable (fleet : Fleet)

/-- The clients a schedule is dispatched to; a group id of 0 is falsy. -/
def Fleet.scope (s : Schedule) : List String :=
  match truthy s.clientId with
  | some clientId => [clientId]
  | none =>
    match s.groupId with
    | some (n + 1) => fleet.members (n + 1)
    | _ => fleet.clients

/-- `if (isConnected(id)) await sendPlaylistToClient(id, playlistId)`. -/
def Fleet.pushSteps (clientId : String) (playlistId : Nat) : List DispatchStep :=
  if fleet.isConnected clientId then [.sendPlaylistToClient clientId playlistId] else []

/-- The calls of `dispatchInterrupt`. -/
def dispatchInterruptSteps (s : Schedule) : List DispatchStep :=
  .getDatabase ::
    ((match truthy s.clientId, s.groupId with
      | some _, _ => []
      | none, some (n + 1) => [.getGroupMembers (n + 1)]
      | none, _ => [.getAllClients]) ++
      (fleet.scope s).map fun clientId =>
        .interruptTarget clientId s.playlistId (fleet.isConnected clientId)
          (decide (0 < s.durationSeconds.getD 0)))

/-- The calls of `dispatchSchedule`. -/
def dispatchSteps (s : Schedule) : List DispatchStep :=
  .getDatabase ::
    if s.interruptMode = .interrupt then dispatchInterruptSteps fleet s
    else
      match truthy s.clientId with
      | some clientId =>
        .updateClient clientId s.playlistId :: fleet.pushSteps clientId s.playlistId
      | none =>
        match s.groupId with
        | some (n + 1) =>
          .getGroupMembers (n + 1) ::
            ((fleet.members (n + 1)).map (.updateClient · s.playlistId) ++
              -- `sendPlaylistToGroup` reads the members again
              .getDatabase :: .getGroupMembers (n + 1) ::
              (fleet.members (n + 1)).flatMap (fleet.pushSteps · s.playlistId))
        | _ =>
          .getAllClients :: fleet.clients.flatMap fun clientId =>
            .updateClient clientId s.playlistId :: fleet.pushSteps clientId s.playlistId

/-- Which step of the dispatch of which schedule (by id) fails. -/
abbrev Faults := Nat → Nat → Bool

/-- `dispatchSchedule`. -/
def dispatchSchedule (faults : Faults) (s : Schedule) : DispatchOutcome :=
  runSteps (faults s.id) 0 (dispatchSteps fleet s)

/-- A schedule whose dispatch was started, as it was dispatched, and what came of it. -/
structure Dispatch where
  schedule : Schedule
  targeted : Schedule
  outcome : DispatchOutcome
  deriving DecidableEq, Repr

/-! ### A tick -/

/-- The loop of `evaluateSchedules`; the `catch` is outside it. -/
def dispatchAll (faults : Faults) : List Schedule → List Dispatch
  | [] => []
  | s :: rest =>
    let o := dispatchSchedule fleet faults s
    if o.threw then [⟨s, s, o⟩] else ⟨s, s, o⟩ :: dispatchAll faults rest

/-- `evaluateSchedules`: the keys it leaves, and the dispatches it starts. -/
def evaluateAndDispatch (env : ScheduleEnv) (faults : Faults) (rows : List Schedule)
    (last : LastTriggered) (now : Int) : LastTriggered × List Dispatch :=
  let evaluation := evaluateSchedules env rows last now
  (evaluation.lastTriggered, dispatchAll fleet faults evaluation.dispatched)

/-! ### An event -/

/-- A value of an event's payload. -/
inductive PayloadValue
  | string (s : String)
  | number (n : Rat)
  | null
  | undefined
  /-- an object -/
  | object
  deriving DecidableEq, Repr

/-- The payload of an event. -/
abbrev Payload := List (String × PayloadValue)

/-- `narrowEventTarget`. -/
def narrowEventTarget (s : Schedule) (payload : Payload) : Schedule :=
  if (truthy s.clientId).isSome || decide (0 < s.groupId.getD 0) then s
  else
    match payload.lookup "client_id" with
    | some (.string clientId) =>
      if 0 < clientId.length then { s with clientId := some clientId } else s
    | _ => s

/-- `eventLastFired`, by schedule id; times in milliseconds. -/
abbrev EventLastFired := Nat → Option Nat

/-- `windowMs`. -/
def windowMs (s : Schedule) : Nat := s.durationSeconds.getD 60 * 1000

/-- `last && now - last < windowMs`. -/
def suppressed (last : EventLastFired) (s : Schedule) (now : Nat) : Bool :=
  match last s.id with
  | some t => decide (t ≠ 0) && decide ((now : Int) - t < windowMs s)
  | none => false

/-- The loop of `onEvent`; the `catch` is outside it. -/
def eventLoop (faults : Faults) (payload : Payload) (now : Nat) :
    EventLastFired → List Schedule → EventLastFired × List Dispatch
  | last, [] => (last, [])
  | last, s :: rest =>
    if suppressed last s now then eventLoop faults payload now last rest
    else
      let last := Function.update last s.id (some now)
      let targeted := narrowEventTarget s payload
      let o := dispatchSchedule fleet faults targeted
      if o.threw then (last, [⟨s, targeted, o⟩])
      else
        let r := eventLoop faults payload now last rest
        (r.1, ⟨s, targeted, o⟩ :: r.2)

/-- `s.conditions?.event_trigger?.event_type === eventType`. -/
def matchesEvent (eventType : NotificationEventType) (s : Schedule) : Bool :=
  (s.conditions.bind (·.eventTrigger)) == some eventType

/-- `onEvent`. -/
def onEvent (faults : Faults) (rows : List Schedule) (last : EventLastFired)
    (eventType : NotificationEventType) (payload : Payload) (now : Nat) :
    EventLastFired × List Dispatch :=
  eventLoop fleet faults payload now last
    ((getEnabledSchedules rows).filter (matchesEvent eventType))

end

/-- What a dispatch reads of the tables and connections. -/
def AssignmentState.fleet (s : AssignmentState) : Fleet where
  clients := s.server.db.clients.map (·.id)
  members groupId := (s.getGroupMembers groupId).map (·.id)
  isConnected := s.isConnected

/-- The scope of a dispatch is the list of targets of the schedule. -/
theorem AssignmentState.targets_eq_scope (s : AssignmentState) (schedule : Schedule) :
    s.targets schedule = s.fleet.scope schedule := rfl

/-! ### What is claimed -/

/-- The dispatch of the schedule as it is targeted throws. -/
def throws (fleet : Fleet) (faults : Faults) (targeted : Schedule → Schedule) (s : Schedule) :
    Bool :=
  (dispatchSchedule fleet faults (targeted s)).threw

/-- The dispatch of the schedule fails and leaves nothing behind. -/
def undone (fleet : Fleet) (faults : Faults) (targeted : Schedule → Schedule) (s : Schedule) :
    Bool :=
  (dispatchSchedule fleet faults (targeted s)).undone

/-- **Dispatch isolation** for the schedules that are due: those that do not throw themselves are
    all dispatched, and one of which nothing happened may be retried. -/
structure Isolated (due : List Schedule) (throws : Schedule → Bool) (dispatches : List Dispatch)
    (mayRetry : Schedule → Prop) : Prop where
  others : ∀ s ∈ due, throws s = false → ∃ d ∈ dispatches, d.schedule = s
  retry : ∀ s ∈ due,
    (∀ d ∈ dispatches, d.schedule = s → d.outcome.undone = true) → mayRetry s

/-- The record suppresses no event from now on that it did not suppress before. -/
def MayRetry (before after : EventLastFired) (now : Nat) (s : Schedule) : Prop :=
  ∀ later, now ≤ later → suppressed after s later = true → suppressed before s later = true

/-- The schedules an event is to fire. -/
def dueForEvent (rows : List Schedule) (last : EventLastFired) (eventType : NotificationEventType)
    (now : Nat) : List Schedule :=
  ((getEnabledSchedules rows).filter (matchesEvent eventType)).filter
    fun s => !suppressed last s now

section

variable (fleet : Fleet) (faults : Faults)

/-- A tick is isolated: no schedule that it drops keeps the key of the minute. -/
def TickIsolated (env : ScheduleEnv) (rows : List Schedule) (last : LastTriggered) (tick : Int) :
    Prop :=
  Isolated (evaluateSchedules env rows last tick).dispatched (throws fleet faults id)
    (evaluateAndDispatch fleet env faults rows last tick).2 fun s =>
      (evaluateAndDispatch fleet env faults rows last tick).1 s.id ≠
        some (env.zone.minuteKey tick)

/-- An event is isolated: no schedule that it drops is suppressed for it. -/
def EventIsolated (rows : List Schedule) (last : EventLastFired)
    (eventType : NotificationEventType) (payload : Payload) (now : Nat) : Prop :=
  Isolated (dueForEvent rows last eventType now)
    (throws fleet faults (narrowEventTarget · payload))
    (onEvent fleet faults rows last eventType payload now).2
    (MayRetry last (onEvent fleet faults rows last eventType payload now).1 now)

/-- Only the last schedule throws, and none fails without having had an effect. -/
def TickTolerates (due : List Schedule) : Prop :=
  due.Pairwise (fun s _ => throws fleet faults id s = false) ∧
    ∀ s ∈ due, undone fleet faults id s = false

/-- Behind a schedule that throws every one does, and none whose turn comes fails without having
    had an effect, unless its window is empty. -/
def EventTolerates (payload : Payload) (now : Nat) (due : List Schedule) : Prop :=
  due.Pairwise (fun s t => throws fleet faults (narrowEventTarget · payload) s = true →
      throws fleet faults (narrowEventTarget · payload) t = true) ∧
    ∀ s ∈ reached (throws fleet faults (narrowEventTarget · payload)) due,
      undone fleet faults (narrowEventTarget · payload) s = true → now = 0 ∨ windowMs s = 0

end

/-! ### The schedules whose turn comes -/

section

variable {fleet : Fleet} {faults : Faults} {payload : Payload} {now : Nat} {last : EventLastFired}
  {due schedules rows : List Schedule} {s : Schedule}

theorem dispatchAll_eq (due : List Schedule) : dispatchAll fleet faults due =
    (reached (throws fleet faults id) due).map fun s =>
      ⟨s, s, dispatchSchedule fleet faults s⟩ := by
  induction due with
  | nil => rfl
  | cons s rest ih =>
    have hthrows : throws fleet faults id s = (dispatchSchedule fleet faults s).threw := rfl
    unfold dispatchAll reached
    rw [hthrows]
    dsimp only
    split
    · rfl
    · rw [ih]
      rfl

/-- Schedules of other ids are suppressed as before. -/
theorem suppressed_update_of_ne {t : Schedule} (hne : t.id ≠ s.id) (mark : Option Nat)
    (later : Nat) :
    suppressed (Function.update last s.id mark) t later = suppressed last t later := by
  unfold suppressed
  rw [Function.update_of_ne hne]

/-- Behind a schedule of the loop its mark changes nothing. -/
theorem filter_suppressed_update (fresh : s.id ∉ schedules.map (·.id)) (mark : Option Nat) :
    schedules.filter (fun t => !suppressed (Function.update last s.id mark) t now) =
      schedules.filter fun t => !suppressed last t now := by
  apply List.filter_congr
  intro t ht
  have hne : t.id ≠ s.id := fun heq => fresh (List.mem_map.mpr ⟨t, ht, heq⟩)
  rw [suppressed_update_of_ne hne]

/-! One turn of the loop. -/

theorem eventLoop_of_suppressed (hsuppressed : suppressed last s now = true) :
    eventLoop fleet faults payload now last (s :: schedules) =
      eventLoop fleet faults payload now last schedules := by
  rw [eventLoop, if_pos hsuppressed]

theorem eventLoop_of_throws (hfires : suppressed last s now = false)
    (hthrows : throws fleet faults (narrowEventTarget · payload) s = true) :
    eventLoop fleet faults payload now last (s :: schedules) =
      (Function.update last s.id (some now),
        [⟨s, narrowEventTarget s payload,
          dispatchSchedule fleet faults (narrowEventTarget s payload)⟩]) := by
  rw [eventLoop, if_neg (Bool.eq_false_iff.mp hfires)]
  exact if_pos hthrows

theorem eventLoop_of_fires (hfires : suppressed last s now = false)
    (hgoes : throws fleet faults (narrowEventTarget · payload) s = false) :
    eventLoop fleet faults payload now last (s :: schedules) =
      ((eventLoop fleet faults payload now (Function.update last s.id (some now)) schedules).1,
        ⟨s, narrowEventTarget s payload,
          dispatchSchedule fleet faults (narrowEventTarget s payload)⟩ ::
        (eventLoop fleet faults payload now (Function.update last s.id (some now))
          schedules).2) := by
  rw [eventLoop, if_neg (Bool.eq_false_iff.mp hfires)]
  exact if_neg (Bool.eq_false_iff.mp hgoes)

/-- The loop of an event over schedules with different ids dispatches those not suppressed at its
    start, up to the first that throws. -/
theorem eventLoop_dispatches (ids : (schedules.map (·.id)).Nodup) (last : EventLastFired) :
    (eventLoop fleet faults payload now last schedules).2 =
        (reached (throws fleet faults (narrowEventTarget · payload))
          (schedules.filter fun s => !suppressed last s now)).map fun s =>
            ⟨s, narrowEventTarget s payload,
              dispatchSchedule fleet faults (narrowEventTarget s payload)⟩ := by
  induction schedules generalizing last with
  | nil => rfl
  | cons s rest ih =>
    obtain ⟨hfresh, hids⟩ := List.nodup_cons.mp ids
    cases hsuppressed : suppressed last s now with
    | true =>
      rw [eventLoop_of_suppressed hsuppressed, ih hids,
        List.filter_cons_of_neg (by simp [hsuppressed])]
    | false =>
      rw [List.filter_cons_of_pos (by simp [hsuppressed]), reached]
      cases hthrows : throws fleet faults (narrowEventTarget · payload) s with
      | true =>
        rw [eventLoop_of_throws hsuppressed hthrows, if_pos rfl, List.map_singleton]
      | false =>
        -- its own mark suppresses no schedule behind it
        rw [eventLoop_of_fires hsuppressed hthrows, if_neg Bool.false_ne_true, ih hids,
          filter_suppressed_update hfresh, List.map_cons]

/-- It marks the schedules that it dispatches. -/
theorem eventLoop_marks (ids : (schedules.map (·.id)).Nodup) (last : EventLastFired) (i : Nat) :
    (eventLoop fleet faults payload now last schedules).1 i =
      if i ∈ (reached (throws fleet faults (narrowEventTarget · payload))
          (schedules.filter fun s => !suppressed last s now)).map (·.id) then some now
      else last i := by
  induction schedules generalizing last with
  | nil => rfl
  | cons s rest ih =>
    obtain ⟨hfresh, hids⟩ := List.nodup_cons.mp ids
    cases hsuppressed : suppressed last s now with
    | true =>
      rw [eventLoop_of_suppressed hsuppressed, ih hids,
        List.filter_cons_of_neg (by simp [hsuppressed])]
    | false =>
      rw [List.filter_cons_of_pos (by simp [hsuppressed]), reached]
      cases hthrows : throws fleet faults (narrowEventTarget · payload) s with
      | true =>
        rw [eventLoop_of_throws hsuppressed hthrows, if_pos rfl]
        simp [Function.update_apply]
      | false =>
        rw [eventLoop_of_fires hsuppressed hthrows, if_neg Bool.false_ne_true, ih hids,
          filter_suppressed_update hfresh, Function.update_apply, List.map_cons]
        -- marked by its own turn, or by a later one
        by_cases hi : i = s.id
        · simp [hi]
        · simp [hi]

/-! ### Isolation -/

/-- The schedules of a loop, and what became of them. -/
structure LoopOver (due : List Schedule) (throws undone : Schedule → Bool)
    (dispatches : List Dispatch) : Prop where
  nodup : due.Nodup
  /-- a schedule is dispatched if its turn comes -/
  turn : ∀ s ∈ due, (∃ d ∈ dispatches, d.schedule = s) ↔ s ∈ reached throws due
  undone : ∀ d ∈ dispatches, d.outcome.undone = undone d.schedule

variable {throws undone : Schedule → Bool} {dispatches : List Dispatch}
  {mayRetry : Schedule → Prop}

theorem LoopOver.others_iff (h : LoopOver due throws undone dispatches) :
    (∀ s ∈ due, throws s = false → ∃ d ∈ dispatches, d.schedule = s) ↔
      due.Pairwise fun s t => throws s = true → throws t = true := by
  have hreached := @forall_reached_iff _ throws _ (fun s => throws s = false) h.nodup
  simp only [Bool.not_eq_false] at hreached
  rw [← hreached]
  constructor
  · intro hall s hs hthrows
    exact (h.turn s hs).mp (hall s hs hthrows)
  · intro hall s hs hthrows
    exact (h.turn s hs).mpr (hall s hs hthrows)

/-- A schedule whose turn comes was undone by its own dispatch, any other was not dispatched. -/
theorem LoopOver.undone_iff (h : LoopOver due throws undone dispatches) (hs : s ∈ due) :
    (∀ d ∈ dispatches, d.schedule = s → d.outcome.undone = true) ↔
      (s ∈ reached throws due → undone s = true) := by
  constructor
  · intro hall hreached
    obtain ⟨d, hd, rfl⟩ := (h.turn s hs).mpr hreached
    rw [← h.undone d hd]
    exact hall d hd rfl
  · intro hundone d hd hds
    rw [h.undone d hd, hds]
    exact hundone ((h.turn s hs).mp ⟨d, hd, hds⟩)

/-- Where every schedule is recorded, each must be dispatched and leave something behind. -/
theorem LoopOver.isolated_iff_of_recorded (h : LoopOver due throws undone dispatches)
    (recorded : ∀ s ∈ due, ¬ mayRetry s) :
    Isolated due throws dispatches mayRetry ↔
      due.Pairwise (fun s _ => throws s = false) ∧ ∀ s ∈ due, undone s = false := by
  have hall := @forall_reached_iff _ throws _ (fun _ => True) h.nodup
  simp only [not_true, imp_false, Bool.not_eq_true, forall_const] at hall
  constructor
  · intro hisolated
    -- a schedule that was not reached, or was undone, would have to be retried
    have hdone : ∀ s ∈ due, s ∈ reached throws due ∧ undone s = false := by
      intro s hs
      by_contra hnot
      refine recorded s hs (hisolated.retry s hs ((h.undone_iff hs).mpr fun hreached => ?_))
      cases hundone : undone s with
      | true => rfl
      | false => exact absurd ⟨hreached, hundone⟩ hnot
    exact ⟨hall.mp fun s hs => (hdone s hs).1, fun s hs => (hdone s hs).2⟩
  · rintro ⟨hpairwise, hundone⟩
    have hreached := hall.mpr hpairwise
    refine ⟨fun s hs _ => (h.turn s hs).mpr (hreached s hs), fun s hs hdispatches => ?_⟩
    have htrue := (h.undone_iff hs).mp hdispatches (hreached s hs)
    rw [hundone s hs] at htrue
    exact Bool.noConfusion htrue

/-- Where only those are recorded whose turn comes, the rest may be retried. -/
theorem LoopOver.isolated_iff_of_reached (h : LoopOver due throws undone dispatches)
    (spared : ∀ s ∈ due, s ∉ reached throws due → mayRetry s) :
    Isolated due throws dispatches mayRetry ↔
      due.Pairwise (fun s t => throws s = true → throws t = true) ∧
        ∀ s ∈ reached throws due, undone s = true → mayRetry s := by
  rw [← h.others_iff]
  constructor
  · intro hisolated
    refine ⟨hisolated.others, fun s hs hundone => ?_⟩
    have hdue := mem_of_mem_reached hs
    exact hisolated.retry s hdue ((h.undone_iff hdue).mpr fun _ => hundone)
  · rintro ⟨hothers, hretry⟩
    refine ⟨hothers, fun s hs hdispatches => ?_⟩
    -- its own dispatch was undone, or it was not reached and is spared
    by_cases hreached : s ∈ reached throws due
    · exact hretry s hreached ((h.undone_iff hs).mp hdispatches hreached)
    · exact spared s hs hreached

end

section

variable {fleet : Fleet} {faults : Faults} {env : ScheduleEnv} {rows : List Schedule}
  {last : LastTriggered} {tick : Int} {s : Schedule}

/-- The winners of a tick are rows, recorded, and as distinct. -/
theorem winners_spec (ids : (rows.map (·.id)).Nodup) (last : LastTriggered) (tick : Int) :
    (evaluateSchedules env rows last tick).dispatched.Nodup ∧
      ∀ w ∈ (evaluateSchedules env rows last tick).dispatched,
        (evaluateSchedules env rows last tick).lastTriggered w.id =
          some (env.zone.minuteKey tick) := by
  -- a tick that selects nothing does not resolve conflicts
  by_cases hempty : (evaluateSchedules env rows last tick).selected = []
  · have hnone : (evaluateSchedules env rows last tick).dispatched = [] := by
      show (if (evaluateSchedules env rows last tick).selected.isEmpty = true then [] else _) = _
      rw [hempty]
      rfl
    rw [hnone]
    exact ⟨List.nodup_nil, fun w hw => absurd hw List.not_mem_nil⟩
  · obtain ⟨v, hv⟩ := List.exists_mem_of_ne_nil _ hempty
    rw [AssignmentState.dispatched_eq hv]
    have hwinners :=
      winners_resolveConflicts (evaluateSchedules env rows last tick).selected
    refine ⟨hwinners.order.imp fun hlt heq => ?_, fun w hw => ?_⟩
    · rw [heq] at hlt
      exact lt_irrefl _ hlt
    · have hselected := (hwinners.first w hw).1
      have htriggering := AssignmentState.selected_sublist.subset hselected
      exact (dedupe_of_mem last (nodup_findTriggering ids) htriggering).2

theorem loopOver_tick (ids : (rows.map (·.id)).Nodup) :
    LoopOver (evaluateSchedules env rows last tick).dispatched (throws fleet faults id)
      (undone fleet faults id) (evaluateAndDispatch fleet env faults rows last tick).2 := by
  have hdispatches : (evaluateAndDispatch fleet env faults rows last tick).2 =
      (reached (throws fleet faults id) (evaluateSchedules env rows last tick).dispatched).map
        fun s => ⟨s, s, dispatchSchedule fleet faults s⟩ := dispatchAll_eq _
  rw [hdispatches]
  refine ⟨(winners_spec ids last tick).1, fun s hs => ?_, fun d hd => ?_⟩
  · simp
  · obtain ⟨s, -, rfl⟩ := List.mem_map.mp hd
    rfl

variable {eventType : NotificationEventType} {payload : Payload} {lastFired : EventLastFired}
  {now : Nat}

theorem nodup_matching (ids : (rows.map (·.id)).Nodup) :
    (((getEnabledSchedules rows).filter (matchesEvent eventType)).map (·.id)).Nodup :=
  (nodup_getEnabledSchedules ids).sublist (List.filter_sublist.map _)

/-- An event dispatches the schedules whose turn comes. -/
theorem onEvent_dispatches (ids : (rows.map (·.id)).Nodup) :
    (onEvent fleet faults rows lastFired eventType payload now).2 =
      (reached (throws fleet faults (narrowEventTarget · payload))
        (dueForEvent rows lastFired eventType now)).map fun s =>
          ⟨s, narrowEventTarget s payload,
            dispatchSchedule fleet faults (narrowEventTarget s payload)⟩ :=
  eventLoop_dispatches (nodup_matching ids) lastFired

theorem loopOver_event (ids : (rows.map (·.id)).Nodup) :
    LoopOver (dueForEvent rows lastFired eventType now)
      (throws fleet faults (narrowEventTarget · payload))
      (undone fleet faults (narrowEventTarget · payload))
      (onEvent fleet faults rows lastFired eventType payload now).2 := by
  have hdue : (dueForEvent rows lastFired eventType now).Nodup :=
    (List.Nodup.of_map _ (nodup_matching ids)).filter _
  rw [onEvent_dispatches ids]
  refine ⟨hdue, fun s hs => ?_, fun d hd => ?_⟩
  · simp
  · obtain ⟨s, -, rfl⟩ := List.mem_map.mp hd
    rfl

/-- The mark of an event suppresses the next ones within the window, if there is one. -/
theorem mayRetry_of_marked {after : EventLastFired} (marked : after s.id = some now)
    (fires : suppressed lastFired s now = false) :
    MayRetry lastFired after now s ↔ now = 0 ∨ windowMs s = 0 := by
  -- the mark is falsy at the epoch, and the window may be empty
  have hafter : ∀ later, suppressed after s later =
      (decide (now ≠ 0) && decide ((later : Int) - now < windowMs s)) := by
    intro later
    rw [suppressed, marked]
  constructor
  · intro hretry
    by_contra hnot
    have hnow := hretry now le_rfl (by rw [hafter]; simp; omega)
    rw [fires] at hnow
    exact Bool.noConfusion hnow
  · rintro hzero later hlater hsuppressed
    rw [hafter] at hsuppressed
    simp only [ne_eq, decide_not, Bool.and_eq_true, Bool.not_eq_true', decide_eq_false_iff_not,
      decide_eq_true_eq] at hsuppressed
    omega

/-- **Dispatches are isolated from each other exactly when** the failures of the tick, or of the
    event, are tolerated.  For all rows with different ids and all failures of all steps. -/
theorem isolated_iff (ids : (rows.map (·.id)).Nodup) :
    (TickIsolated fleet faults env rows last tick ↔
      TickTolerates fleet faults (evaluateSchedules env rows last tick).dispatched) ∧
    (EventIsolated fleet faults rows lastFired eventType payload now ↔
      EventTolerates fleet faults payload now (dueForEvent rows lastFired eventType now)) := by
  constructor
  · apply (loopOver_tick ids).isolated_iff_of_recorded
    -- every winner of a tick has been recorded by the filter
    intro s hs hne
    exact hne ((winners_spec ids last tick).2 s hs)
  · have hmatching := @nodup_matching rows eventType ids
    -- an event records a schedule when its turn comes
    have hmarks : ∀ i, (onEvent fleet faults rows lastFired eventType payload now).1 i =
        if i ∈ (reached (throws fleet faults (narrowEventTarget · payload))
          (dueForEvent rows lastFired eventType now)).map (·.id) then some now
        else lastFired i := eventLoop_marks hmatching lastFired
    have hids : ((dueForEvent rows lastFired eventType now).map (·.id)).Nodup :=
      hmatching.sublist (List.filter_sublist.map _)
    unfold EventIsolated EventTolerates
    rw [(loopOver_event ids).isolated_iff_of_reached]
    · refine and_congr_right fun _ => forall₂_congr fun s hs => imp_congr_right fun _ => ?_
      have hdue := mem_of_mem_reached hs
      have hfires : suppressed lastFired s now = false := by
        simpa using (List.mem_filter.mp hdue).2
      refine mayRetry_of_marked ?_ hfires
      rw [hmarks, if_pos]
      exact List.mem_map_of_mem hs
    · intro s hs hnot later _ hsuppressed
      have hfree : (onEvent fleet faults rows lastFired eventType payload now).1 s.id =
          lastFired s.id := by
        rw [hmarks, if_neg]
        intro hmem
        obtain ⟨t, ht, hid⟩ := List.mem_map.mp hmem
        have hsame : t = s := List.inj_on_of_nodup_map hids (mem_of_mem_reached ht) hs hid
        exact hnot (hsame ▸ ht)
      rwa [suppressed, hfree] at hsuppressed

end

/-! ### Two schedules -/

/-- Two clients, both connected. -/
def twoClients : Fleet where
  clients := ["lobby", "hall"]
  members _ := []
  isConnected _ := true

/-- An event schedule of the lobby, ... -/
def lobbyAlarm : Schedule :=
  { AssignmentState.lobbySchedule with
    startTime := none
    conditions := some ⟨none, none, some .clientError⟩ }

/-- ... and one of every client. -/
def globalAlarm : Schedule := { lobbyAlarm with id := 2, clientId := none, priority := 1 }

/-- The write of the first schedule's row fails. -/
def firstWriteFails : Faults := fun scheduleId n => scheduleId == 1 && n == 1

open AssignmentState in
theorem isolated_iff_overlap :
    (TickIsolated twoClients firstWriteFails noCronEnv [lobbySchedule, globalSchedule]
        (fun _ => none) 0 ↔
      TickTolerates twoClients firstWriteFails
        (evaluateSchedules noCronEnv [lobbySchedule, globalSchedule] (fun _ => none)
          0).dispatched) ∧
    (EventIsolated twoClients firstWriteFails [lobbyAlarm, globalAlarm] (fun _ => none)
        .clientError [] 1 ↔
      EventTolerates twoClients firstWriteFails [] 1
        (dueForEvent [lobbyAlarm, globalAlarm] (fun _ => none) .clientError 1)) :=
  ⟨(@isolated_iff twoClients firstWriteFails noCronEnv [lobbySchedule, globalSchedule]
      (fun _ => none) 0 .clientError [] (fun _ => none) 1 (by decide)).1,
    (@isolated_iff twoClients firstWriteFails noCronEnv [lobbyAlarm, globalAlarm]
      (fun _ => none) 0 .clientError [] (fun _ => none) 1 (by decide)).2⟩

open AssignmentState in
/-- **Counterexample.** The first of two schedules fails at its write: the second is not dispatched,
    neither by the tick nor by the event, and the tick has recorded both. -/
theorem not_isolated_overlap :
    ¬ TickIsolated twoClients firstWriteFails noCronEnv [lobbySchedule, globalSchedule]
        (fun _ => none) 0 ∧
      ¬ EventIsolated twoClients firstWriteFails [lobbyAlarm, globalAlarm] (fun _ => none)
        .clientError [] 1 := by
  constructor
  · intro h
    have hdispatches : (evaluateAndDispatch twoClients noCronEnv firstWriteFails
        [lobbySchedule, globalSchedule] (fun _ => none) 0).2 =
        dispatchAll twoClients firstWriteFails [lobbySchedule, globalSchedule] := by
      rw [evaluateAndDispatch, dispatched_overlap]
    have hdue : globalSchedule ∈ (evaluateSchedules noCronEnv [lobbySchedule, globalSchedule]
        (fun _ => none) 0).dispatched := by
      rw [dispatched_overlap]
      exact List.mem_cons_of_mem _ List.mem_cons_self
    obtain ⟨d, hd, hglobal⟩ := h.others globalSchedule hdue (by decide)
    rw [hdispatches] at hd
    revert d
    decide
  · intro h
    have hsorted : getEnabledSchedules [lobbyAlarm, globalAlarm] = [lobbyAlarm, globalAlarm] :=
      List.mergeSort_of_pairwise (by decide)
    have hdue : globalAlarm ∈ dueForEvent [lobbyAlarm, globalAlarm] (fun _ => none)
        .clientError 1 := by
      rw [dueForEvent, hsorted]
      decide
    obtain ⟨d, hd, hglobal⟩ := h.others globalAlarm hdue (by decide)
    rw [onEvent, hsorted] at hd
    revert d
    decide

end Montr.Server
