import Montr.Server.ScheduleDispatch

namespace Montr.Server

/-!
# The schedule service

`schedule.service.ts`, `schedule-template.service.ts` and the operations of `group.service.ts` and
`playlist.service.ts` that change which schedules apply to a client, over the SQL schema with
foreign keys on.

* `ScheduleTable`, `ScheduleTables` — the rows;
* `createSchedule`, `updateSchedule`, `deleteSchedule`, `instantiate` — the changes, `none` when
  they throw;
* `getClientsForSchedule`, `getSchedulesForClient`, `candidates` — who is in scope of what.

The cron parser is a library; `validCron` says which expressions `validateCron` takes.
-/

/-! ### Rows -/

/-- The rows of `schedules`; ids are unique. -/
structure ScheduleTable where
  rows : List Schedule
  /-- the next `AUTOINCREMENT` id -/
  nextId : Nat
  id_lt : ∀ s ∈ rows, s.id < nextId
  ids_nodup : (rows.map (·.id)).Nodup

namespace ScheduleTable

def empty : ScheduleTable := ⟨[], 1, by simp, by simp⟩

def find (t : ScheduleTable) (id : Nat) : Option Schedule := t.rows.find? (·.id == id)

/-- `INSERT INTO schedules`; the row gets the next id. -/
def insert (t : ScheduleTable) (row : Schedule) : ScheduleTable where
  rows := t.rows ++ [{ row with id := t.nextId }]
  nextId := t.nextId + 1
  id_lt s hs := by
    obtain hs | hs := List.mem_append.mp hs
    · exact Nat.lt_succ_of_lt (t.id_lt s hs)
    · obtain rfl := List.mem_singleton.mp hs
      exact Nat.lt_succ_self _
  ids_nodup := by
    rw [List.map_append, List.nodup_append]
    refine ⟨t.ids_nodup, by simp, ?_⟩
    rintro a ha b hb rfl
    obtain ⟨s, hs, rfl⟩ := List.mem_map.mp ha
    have hlt := t.id_lt s hs
    have heq : s.id = t.nextId := by simpa using hb
    omega

/-- `UPDATE schedules SET .. WHERE id = ..`; no column of the list is the id. -/
def update (t : ScheduleTable) (id : Nat) (set : Schedule → Schedule) : ScheduleTable where
  rows := t.rows.map fun s => if s.id = id then { set s with id := s.id } else s
  nextId := t.nextId
  id_lt s hs := by
    obtain ⟨r, hr, rfl⟩ := List.mem_map.mp hs
    have hlt := t.id_lt r hr
    split
    · exact hlt
    · exact hlt
  ids_nodup := by
    have hids : (t.rows.map fun s => if s.id = id then { set s with id := s.id } else s).map
        (·.id) = t.rows.map (·.id) := by
      rw [List.map_map]
      refine List.map_congr_left fun s _ => ?_
      rw [Function.comp_apply]
      split <;> rfl
    rw [hids]
    exact t.ids_nodup

/-- `DELETE FROM schedules`, of the rows that do not meet the condition. -/
def keep (t : ScheduleTable) (p : Schedule → Bool) : ScheduleTable where
  rows := t.rows.filter p
  nextId := t.nextId
  id_lt s hs := t.id_lt s (List.mem_filter.mp hs).1
  ids_nodup := t.ids_nodup.sublist (List.filter_sublist.map _)

end ScheduleTable

/-- `definition` of a row of `schedule_templates`. -/
structure ScheduleTemplateDefinition where
  startTime : Option String := none
  endTime : Option String := none
  daysOfWeek : Option String := none
  cronExpression : Option String := none
  durationSeconds : Option Nat := none
  timezone : Option String := none
  conditions : Option ScheduleConditions := none
  interruptMode : Option ScheduleInterruptMode := none
  priority : Option Int := none
  deriving DecidableEq, Repr

/-- What the scope of schedules depends on. -/
structure ScheduleTables where
  schedules : ScheduleTable
  /-- ids of `clients` -/
  clients : List String
  /-- ids of `client_groups` -/
  clientGroups : List Nat
  /-- rows of `client_group_members`: group id and client id -/
  clientGroupMembers : List (Nat × String)
  /-- ids of `playlists` -/
  playlists : List Nat
  scheduleTemplates : List (Nat × ScheduleTemplateDefinition)

/-! ### Input -/

structure CreateScheduleInput where
  name : String
  playlistId : Nat
  clientId : Option String := none
  groupId : Option Nat := none
  startTime : Option String := none
  endTime : Option String := none
  daysOfWeek : Option String := none
  priority : Option Int := none
  enabled : Option Bool := none
  cronExpression : Option String := none
  durationSeconds : Option Nat := none
  timezone : Option String := none
  conditions : Option ScheduleConditions := none
  interruptMode : Option ScheduleInterruptMode := none
  deriving DecidableEq, Repr

structure UpdateScheduleInput where
  name : Option String := none
  playlistId : Option Nat := none
  clientId : Field String := .undefined
  groupId : Field Nat := .undefined
  startTime : Field String := .undefined
  endTime : Field String := .undefined
  daysOfWeek : Option String := none
  priority : Option Int := none
  enabled : Option Bool := none
  cronExpression : Field String := .undefined
  durationSeconds : Field Nat := .undefined
  timezone : Field String := .undefined
  conditions : Field ScheduleConditions := .undefined
  interruptMode : Option ScheduleInterruptMode := none
  deriving DecidableEq, Repr

/-- A property of `overrides`; its values are not validated. -/
inductive ScheduleOverride
  | name (v : String)
  | playlistId (v : Nat)
  | clientId (v : Option String)
  | groupId (v : Option Nat)
  | startTime (v : Option String)
  | endTime (v : Option String)
  | daysOfWeek (v : Option String)
  | priority (v : Option Int)
  | enabled (v : Option Bool)
  | cronExpression (v : Option String)
  | durationSeconds (v : Option Nat)
  | timezone (v : Option String)
  | conditions (v : Option ScheduleConditions)
  | interruptMode (v : Option ScheduleInterruptMode)
  deriving DecidableEq, Repr

def ScheduleOverride.apply (input : CreateScheduleInput) : ScheduleOverride → CreateScheduleInput
  | .name v => { input with name := v }
  | .playlistId v => { input with playlistId := v }
  | .clientId v => { input with clientId := v }
  | .groupId v => { input with groupId := v }
  | .startTime v => { input with startTime := v }
  | .endTime v => { input with endTime := v }
  | .daysOfWeek v => { input with daysOfWeek := v }
  | .priority v => { input with priority := v }
  | .enabled v => { input with enabled := v }
  | .cronExpression v => { input with cronExpression := v }
  | .durationSeconds v => { input with durationSeconds := v }
  | .timezone v => { input with timezone := v }
  | .conditions v => { input with conditions := v }
  | .interruptMode v => { input with interruptMode := v }

structure InstantiateTemplateInput where
  name : String
  playlistId : Nat
  clientId : Option String := none
  groupId : Option Nat := none
  overrides : List ScheduleOverride := []
  deriving DecidableEq, Repr

/-- `merged` of `instantiate`. -/
def InstantiateTemplateInput.merged (input : InstantiateTemplateInput)
    (definition : ScheduleTemplateDefinition) : CreateScheduleInput :=
  input.overrides.foldl ScheduleOverride.apply
    { name := input.name
      playlistId := input.playlistId
      clientId := input.clientId
      groupId := input.groupId
      startTime := definition.startTime
      endTime := definition.endTime
      daysOfWeek := definition.daysOfWeek
      cronExpression := definition.cronExpression
      durationSeconds := definition.durationSeconds
      timezone := definition.timezone
      conditions := definition.conditions
      interruptMode := definition.interruptMode
      priority := definition.priority }

/-- `input.column || null` of a number. -/
def truthyNat (n : Option Nat) : Option Nat := n.filter (· ≠ 0)

/-- The row of `createSchedule`; the id comes from the table. -/
def CreateScheduleInput.row (input : CreateScheduleInput) : Schedule where
  id := 0
  name := input.name
  playlistId := input.playlistId
  clientId := truthy input.clientId
  groupId := truthyNat input.groupId
  startTime := truthy input.startTime
  endTime := truthy input.endTime
  daysOfWeek := (truthy input.daysOfWeek).getD "0,1,2,3,4,5,6"
  priority := input.priority.getD 50
  enabled := input.enabled.getD true
  cronExpression := truthy input.cronExpression
  durationSeconds := input.durationSeconds
  timezone := truthy input.timezone
  conditions := input.conditions
  interruptMode := input.interruptMode.getD .assign

/-- A column after an update: `undefined` leaves it. -/
def Field.setColumn {α : Type} : Field α → Option α → Option α
  | undefined, column => column
  | null, _ => none
  | value a, _ => some a

/-- The columns that `updateSchedule` sets. -/
def UpdateScheduleInput.apply (input : UpdateScheduleInput) (s : Schedule) : Schedule where
  id := s.id
  name := input.name.getD s.name
  playlistId := input.playlistId.getD s.playlistId
  clientId := input.clientId.setColumn s.clientId
  groupId := input.groupId.setColumn s.groupId
  startTime := input.startTime.setColumn s.startTime
  endTime := input.endTime.setColumn s.endTime
  daysOfWeek := input.daysOfWeek.getD s.daysOfWeek
  priority := input.priority.getD s.priority
  enabled := input.enabled.getD s.enabled
  cronExpression := input.cronExpression.setColumn s.cronExpression
  durationSeconds := input.durationSeconds.setColumn s.durationSeconds
  timezone := input.timezone.setColumn s.timezone
  conditions := input.conditions.setColumn s.conditions
  interruptMode := input.interruptMode.getD s.interruptMode

namespace ScheduleTables

variable (t : ScheduleTables)

/-! ### Scopes -/

/-- `getAllSchedules`. -/
def getAllSchedules : List Schedule :=
  t.schedules.rows.mergeSort fun a b =>
    decide (b.priority < a.priority ∨ b.priority = a.priority ∧ a.name ≤ b.name)

/-- `getGroupMembers`, by id. -/
def getGroupMembers (groupId : Nat) : List String :=
  t.clients.filter fun clientId => t.clientGroupMembers.contains (groupId, clientId)

/-- `getClientGroups`, by id. -/
def getClientGroups (clientId : String) : List Nat :=
  t.clientGroups.filter fun groupId => t.clientGroupMembers.contains (groupId, clientId)

def getClientsForSchedule (s : Schedule) : List String :=
  match truthy s.clientId with
  | some clientId => [clientId]
  | none =>
    match s.groupId with
    | some (n + 1) => t.getGroupMembers (n + 1)
    | _ => t.clients

/-- The filter of `getSchedulesForClient`. -/
def applies (clientId : String) (s : Schedule) : Bool :=
  if s.clientId = some clientId then true
  else if s.groupId.any (t.getClientGroups clientId).contains then true
  else decide (s.clientId = none ∧ s.groupId = none)

def getSchedulesForClient (clientId : String) : List Schedule :=
  t.getAllSchedules.filter (t.applies clientId)

/-- `target` of `simulateForTarget`. -/
structure Target where
  clientId : Option String := none
  groupId : Option Nat := none
  deriving DecidableEq, Repr

/-- The filter of `simulateForTarget`. -/
def considers (target : Option Target) (s : Schedule) : Bool :=
  match target with
  | none => true
  | some target =>
    match truthy target.clientId with
    | some clientId =>
      if s.clientId = some clientId then true
      else if (truthy s.clientId).isSome then false
      else true
    | none =>
      match truthyNat target.groupId with
      | some groupId =>
        if s.groupId = some groupId then true
        else if (truthyNat s.groupId).isSome then false
        else if (truthy s.clientId).isSome then false
        else true
      | none => true

/-- `candidates` of `simulateForTarget`. -/
def candidates (target : Option Target) : List Schedule :=
  (getEnabledSchedules t.schedules.rows).filter (considers target)

/-- What a dispatch reads of the tables. -/
def fleet (isConnected : String → Bool) : Fleet where
  clients := t.clients
  members := t.getGroupMembers
  isConnected := isConnected

/-! ### Changes -/

section

variable (validCron : String → Bool)

/-- `validateInput`. -/
def validateInput (cronExpression : Option String) (interruptMode : Option ScheduleInterruptMode)
    (durationSeconds : Option Nat) : Bool :=
  (truthy cronExpression).all validCron &&
    !(decide (interruptMode = some .interrupt) && decide (durationSeconds = some 0))

def createSchedule (input : CreateScheduleInput) : Option (Schedule × ScheduleTables) :=
  if !validateInput validCron input.cronExpression input.interruptMode input.durationSeconds then
    none
  else if !t.playlists.contains input.playlistId then none
  else if !(truthy input.clientId).all t.clients.contains then none
  else if !(truthyNat input.groupId).all t.clientGroups.contains then none
  else some ({ input.row with id := t.schedules.nextId },
    { t with schedules := t.schedules.insert input.row })

/-- `instantiate` of the template service. -/
def instantiate (id : Nat) (input : InstantiateTemplateInput) :
    Option (Schedule × ScheduleTables) :=
  match t.scheduleTemplates.lookup id with
  | none => none
  | some definition => t.createSchedule validCron (input.merged definition)

/-- `updateSchedule`: the row before and after.  The client and the group are checked by the
    foreign keys only. -/
def updateSchedule (id : Nat) (input : UpdateScheduleInput) :
    Option (Schedule × Schedule × ScheduleTables) :=
  match t.schedules.find id with
  | none => none
  | some previous =>
    if !validateInput validCron (input.cronExpression.setColumn none) input.interruptMode
        (input.durationSeconds.setColumn none) then none
    else if !input.playlistId.all t.playlists.contains then none
    else if !(input.clientId.setColumn none).all t.clients.contains then none
    else if !(input.groupId.setColumn none).all t.clientGroups.contains then none
    else some (previous, input.apply previous,
      { t with schedules := t.schedules.update id input.apply })

end

/-- `deleteSchedule`, with the row that was there. -/
def deleteSchedule (id : Nat) : Option (Schedule × ScheduleTables) :=
  (t.schedules.find id).map fun previous =>
    (previous, { t with schedules := t.schedules.keep (·.id != id) })

/-- `addMember`. -/
def addMember (groupId : Nat) (clientId : String) : Option ScheduleTables :=
  if !t.clientGroups.contains groupId then none
  else if !t.clients.contains clientId then none
  else if t.clientGroupMembers.contains (groupId, clientId) then none
  else some { t with clientGroupMembers := t.clientGroupMembers ++ [(groupId, clientId)] }

/-- `removeMember`. -/
def removeMember (groupId : Nat) (clientId : String) : Option ScheduleTables :=
  if !t.clientGroups.contains groupId then none
  else some { t with
    clientGroupMembers := t.clientGroupMembers.filter (· != (groupId, clientId)) }

/-- `deleteGroup`: members and schedules of the group go with it. -/
def deleteGroup (groupId : Nat) : Option ScheduleTables :=
  if !t.clientGroups.contains groupId then none
  else some { t with
    clientGroups := t.clientGroups.filter (· != groupId)
    clientGroupMembers := t.clientGroupMembers.filter (·.1 != groupId)
    schedules := t.schedules.keep fun s => decide (s.groupId ≠ some groupId) }

/-- `deletePlaylist`: its schedules go with it. -/
def deletePlaylist (playlistId : Nat) : Option ScheduleTables :=
  if !t.playlists.contains playlistId then none
  else some { t with
    playlists := t.playlists.filter (· != playlistId)
    schedules := t.schedules.keep (·.playlistId != playlistId) }

/-! ### What the changes are -/

variable {t} {u : ScheduleTables} {validCron : String → Bool}

theorem createSchedule_some {input : CreateScheduleInput} {schedule : Schedule}
    (h : t.createSchedule validCron input = some (schedule, u)) :
    schedule = { input.row with id := t.schedules.nextId } ∧
      u = { t with schedules := t.schedules.insert input.row } ∧
      (truthy input.clientId).all t.clients.contains = true ∧
      (truthyNat input.groupId).all t.clientGroups.contains = true := by
  unfold createSchedule at h
  split at h
  · exact absurd h (by simp)
  split at h
  · exact absurd h (by simp)
  split at h
  · exact absurd h (by simp)
  split at h
  · exact absurd h (by simp)
  next hclient hgroup =>
    obtain ⟨rfl, rfl⟩ := Prod.mk.inj (Option.some.inj h)
    exact ⟨rfl, rfl, by simpa using hclient, by simpa using hgroup⟩

theorem instantiate_some {id : Nat} {input : InstantiateTemplateInput} {schedule : Schedule}
    (h : t.instantiate validCron id input = some (schedule, u)) :
    ∃ definition, t.scheduleTemplates.lookup id = some definition ∧
      t.createSchedule validCron (input.merged definition) = some (schedule, u) := by
  unfold instantiate at h
  split at h
  · exact absurd h (by simp)
  · next definition hdefinition => exact ⟨definition, hdefinition, h⟩

theorem updateSchedule_some {id : Nat} {input : UpdateScheduleInput} {previous schedule : Schedule}
    (h : t.updateSchedule validCron id input = some (previous, schedule, u)) :
    t.schedules.find id = some previous ∧ schedule = input.apply previous ∧
      u = { t with schedules := t.schedules.update id input.apply } ∧
      (input.clientId.setColumn none).all t.clients.contains = true ∧
      (input.groupId.setColumn none).all t.clientGroups.contains = true := by
  unfold updateSchedule at h
  split at h
  · exact absurd h (by simp)
  next found hfound =>
    split at h
    · exact absurd h (by simp)
    split at h
    · exact absurd h (by simp)
    split at h
    · exact absurd h (by simp)
    split at h
    · exact absurd h (by simp)
    next hclient hgroup =>
      obtain ⟨rfl, rest⟩ := Prod.mk.inj (Option.some.inj h)
      obtain ⟨rfl, rfl⟩ := Prod.mk.inj rest
      exact ⟨hfound, rfl, rfl, by simpa using hclient, by simpa using hgroup⟩

theorem addMember_some {groupId : Nat} {clientId : String}
    (h : t.addMember groupId clientId = some u) :
    u = { t with clientGroupMembers := t.clientGroupMembers ++ [(groupId, clientId)] } := by
  unfold addMember at h
  split at h
  · exact absurd h (by simp)
  split at h
  · exact absurd h (by simp)
  split at h
  · exact absurd h (by simp)
  exact (Option.some.inj h).symm

theorem removeMember_some {groupId : Nat} {clientId : String}
    (h : t.removeMember groupId clientId = some u) :
    u = { t with
      clientGroupMembers := t.clientGroupMembers.filter (· != (groupId, clientId)) } := by
  unfold removeMember at h
  split at h
  · exact absurd h (by simp)
  exact (Option.some.inj h).symm

theorem deleteGroup_some {groupId : Nat} (h : t.deleteGroup groupId = some u) :
    u = { t with
      clientGroups := t.clientGroups.filter (· != groupId)
      clientGroupMembers := t.clientGroupMembers.filter (·.1 != groupId)
      schedules := t.schedules.keep fun s => decide (s.groupId ≠ some groupId) } := by
  unfold deleteGroup at h
  split at h
  · exact absurd h (by simp)
  exact (Option.some.inj h).symm

theorem deletePlaylist_some {playlistId : Nat} (h : t.deletePlaylist playlistId = some u) :
    u = { t with
      playlists := t.playlists.filter (· != playlistId)
      schedules := t.schedules.keep (·.playlistId != playlistId) } := by
  unfold deletePlaylist at h
  split at h
  · exact absurd h (by simp)
  exact (Option.some.inj h).symm

end ScheduleTables

end Montr.Server
