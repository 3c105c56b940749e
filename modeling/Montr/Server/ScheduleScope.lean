import Montr.Server.ScheduleService

namespace Montr.Server

/-!
# One scope for a schedule

Who is in the scope of a schedule is coded four times: by `getClientsForSchedule` for the pushes, by
`getSchedulesForClient` for the players, by the dispatch, and by the filter of `simulateForTarget`.

* `ScopesAgree` — the four agree on a schedule and a client;
* `OneScope` — when they do: a second target names no other client, and a schedule of a group is
  not previewed for a client outside it;
* `scopesAgree_iff` — the equivalence, for every row that validation and foreign keys admit.
-/

/-- The row that the effect writes. -/
def DispatchEffect.writes : DispatchEffect → Option String
  | .assigned clientId _ => some clientId
  | .interrupted clientId _ => some clientId
  | .sent _ _ => none
  | .autoResume _ => none

/-- The dispatch of the schedule changes the row of the client. -/
def Fleet.Changes (fleet : Fleet) (s : Schedule) (clientId : String) : Prop :=
  ∃ effect ∈ (dispatchSchedule fleet (fun _ _ => false) s).effects, effect.writes = some clientId

/-- Both targets of a row: `createSchedule` stores no empty one, and an update is validated. -/
structure Schedule.Targeted (s : Schedule) : Prop where
  clientId : s.clientId ≠ some ""
  groupId : s.groupId ≠ some 0

/-- The checks of `updateScheduleSchema` on the targets. -/
structure UpdateScheduleInput.Admitted (input : UpdateScheduleInput) : Prop where
  clientId : input.clientId ≠ .value ""
  groupId : input.groupId ≠ .value 0

section

variable {s : Schedule} {fleet : Fleet} {clientId : String}

theorem truthy_of_ne_empty {text : Option String} (h : text ≠ some "") : truthy text = text := by
  cases text with
  | none => rfl
  | some text => exact Option.filter_eq_some_iff.mpr ⟨rfl, by simpa using h⟩

theorem CreateScheduleInput.targeted_row (input : CreateScheduleInput) : input.row.Targeted where
  clientId h := by
    have hempty := (Option.filter_eq_some_iff.mp h).2
    exact absurd rfl (of_decide_eq_true hempty)
  groupId h := by
    have hzero := (Option.filter_eq_some_iff.mp h).2
    exact absurd rfl (of_decide_eq_true hzero)

theorem UpdateScheduleInput.Admitted.targeted {input : UpdateScheduleInput} (h : input.Admitted)
    (targeted : s.Targeted) : (input.apply s).Targeted where
  clientId := by
    show input.clientId.setColumn s.clientId ≠ some ""
    cases hclient : input.clientId with
    | undefined => exact targeted.clientId
    | null => exact (Option.some_ne_none _).symm
    | value clientId =>
      rintro ⟨⟩
      exact h.clientId hclient
  groupId := by
    show input.groupId.setColumn s.groupId ≠ some 0
    cases hgroup : input.groupId with
    | undefined => exact targeted.groupId
    | null => exact (Option.some_ne_none _).symm
    | value groupId =>
      rintro ⟨⟩
      exact h.groupId hgroup

theorem ScheduleTable.mem_of_find {table : ScheduleTable} {id : Nat}
    (h : table.find id = some s) : s ∈ table.rows ∧ s.id = id :=
  ⟨List.mem_of_find?_eq_some h, by simpa using List.find?_some h⟩

/-! ### Who a dispatch changes -/

def DispatchStep.writes : DispatchStep → Option String
  | .updateClient clientId _ => some clientId
  | .interruptTarget clientId _ _ _ => some clientId
  | _ => none

/-- Without failures a dispatch does what its steps do. -/
theorem effects_runSteps (n : Nat) (steps : List DispatchStep) :
    (runSteps (fun _ => false) n steps).effects = steps.flatMap DispatchStep.effects := by
  induction steps generalizing n with
  | nil => rfl
  | cons step rest ih =>
    show step.effects ++ (runSteps (fun _ => false) (n + 1) rest).effects = _
    rw [ih, List.flatMap_cons]

theorem DispatchStep.exists_writes {step : DispatchStep} :
    (∃ effect ∈ step.effects, effect.writes = some clientId) ↔ step.writes = some clientId := by
  cases step with
  | interruptTarget target playlistId connected timed =>
    cases connected <;> cases timed <;>
      simp [DispatchStep.effects, DispatchStep.writes, DispatchEffect.writes]
  | _ => simp [DispatchStep.effects, DispatchStep.writes, DispatchEffect.writes]

theorem filterMap_pushSteps (fleet : Fleet) (clientId : String) (playlistId : Nat) :
    (fleet.pushSteps clientId playlistId).filterMap DispatchStep.writes = [] := by
  unfold Fleet.pushSteps
  split <;> rfl

theorem filterMap_updateClient (clientId : String) (playlistId : Nat) (rest : List DispatchStep) :
    (.updateClient clientId playlistId :: rest).filterMap DispatchStep.writes =
      clientId :: rest.filterMap DispatchStep.writes := rfl

/-- The rows of one turn after another. -/
theorem filterMap_flatMap_pushSteps (fleet : Fleet) (clients : List String) (playlistId : Nat) :
    (clients.flatMap fun clientId =>
      .updateClient clientId playlistId :: fleet.pushSteps clientId playlistId).filterMap
        DispatchStep.writes = clients := by
  induction clients with
  | nil => rfl
  | cons clientId rest ih =>
    rw [List.flatMap_cons, List.filterMap_append, ih, filterMap_updateClient, filterMap_pushSteps]
    rfl

/-- A dispatch writes the rows of its scope, in either mode. -/
theorem filterMap_dispatchSteps (fleet : Fleet) (s : Schedule) :
    (dispatchSteps fleet s).filterMap DispatchStep.writes = fleet.scope s := by
  rw [dispatchSteps, List.filterMap_cons_none rfl]
  split
  · have hreads : ∀ step : DispatchStep, step = .getAllClients ∨
        (∃ groupId, step = .getGroupMembers groupId) → [step].filterMap DispatchStep.writes = [] := by
      rintro step (rfl | ⟨groupId, rfl⟩) <;> rfl
    have htargets : ((fleet.scope s).map fun clientId => DispatchStep.interruptTarget clientId
        s.playlistId (fleet.isConnected clientId) (decide (0 < s.durationSeconds.getD 0))).filterMap
          DispatchStep.writes = fleet.scope s := by
      rw [List.filterMap_map]
      exact List.filterMap_some
    rw [dispatchInterruptSteps, List.filterMap_cons_none rfl, List.filterMap_append, htargets]
    split
    · rfl
    · rw [hreads _ (.inr ⟨_, rfl⟩), List.nil_append]
    · rw [hreads _ (.inl rfl), List.nil_append]
  · rw [Fleet.scope]
    split
    · rw [filterMap_updateClient, filterMap_pushSteps]
    · split
      · next n hgroup =>
        have hpushes : ((fleet.members (n + 1)).flatMap (fleet.pushSteps · s.playlistId)).filterMap
            DispatchStep.writes = [] := by
          rw [List.filterMap_eq_nil_iff]
          intro step hstep
          obtain ⟨clientId, -, hstep⟩ := List.mem_flatMap.mp hstep
          exact List.filterMap_eq_nil_iff.mp (filterMap_pushSteps fleet clientId s.playlistId) step
            hstep
        rw [List.filterMap_cons_none rfl, List.filterMap_append, List.filterMap_map,
          List.filterMap_cons_none rfl, List.filterMap_cons_none rfl, hpushes, List.append_nil]
        exact List.filterMap_some
      · rw [List.filterMap_cons_none rfl, filterMap_flatMap_pushSteps]

theorem Fleet.changes_iff : fleet.Changes s clientId ↔ clientId ∈ fleet.scope s := by
  rw [← filterMap_dispatchSteps, List.mem_filterMap]
  simp only [Fleet.Changes, dispatchSchedule, effects_runSteps, List.mem_flatMap,
    ← DispatchStep.exists_writes]
  tauto

end

namespace ScheduleTables

/-- A row of `schedules`, with its targets. -/
structure Stored (t : ScheduleTables) (s : Schedule) : Prop where
  mem : s ∈ t.schedules.rows
  targeted : s.Targeted
  client : ∀ clientId, s.clientId = some clientId → clientId ∈ t.clients
  group : ∀ groupId, s.groupId = some groupId → groupId ∈ t.clientGroups

/-- A row of `clients`; ids are UUIDs. -/
structure Known (t : ScheduleTables) (clientId : String) : Prop where
  mem : clientId ∈ t.clients
  ne_empty : clientId ≠ ""

section

variable (t : ScheduleTables) (isConnected : String → Bool) (s : Schedule) (clientId : String)

/-- **The four scopes agree** on the schedule and the client. -/
structure ScopesAgree : Prop where
  pushed : clientId ∈ t.getClientsForSchedule s ↔ s ∈ t.getSchedulesForClient clientId
  dispatched : (t.fleet isConnected).Changes s clientId ↔ s ∈ t.getSchedulesForClient clientId
  simulated : s.enabled = true → (s ∈ t.candidates (some { clientId := some clientId }) ↔
    s ∈ t.getSchedulesForClient clientId)

/-- A schedule with both targets has no other client in its group; an enabled one with a group
    alone has the client in it. -/
def OneScope : Prop :=
  ∀ groupId, s.groupId = some groupId →
    match s.clientId with
    | some target => clientId ∈ t.getGroupMembers groupId → clientId = target
    | none => s.enabled = true → clientId ∈ t.getGroupMembers groupId

end

section

variable {t u : ScheduleTables} {isConnected : String → Bool} {s : Schedule} {clientId : String}

/-! ### What the operations store -/

/-- The row of a new schedule. -/
theorem stored_createSchedule {validCron : String → Bool} {input : CreateScheduleInput}
    (h : t.createSchedule validCron input = some (s, u)) : u.Stored s := by
  obtain ⟨rfl, rfl, hclient, hgroup⟩ := createSchedule_some h
  have htargeted := input.targeted_row
  refine ⟨List.mem_append_right _ (List.mem_singleton.mpr rfl),
    ⟨htargeted.clientId, htargeted.groupId⟩, fun clientId hid => ?_, fun groupId hid => ?_⟩
  · rw [show truthy input.clientId = some clientId from hid] at hclient
    simpa using hclient
  · rw [show truthyNat input.groupId = some groupId from hid] at hgroup
    simpa using hgroup

/-- A new schedule made from a template, whatever it overrides. -/
theorem stored_instantiate {validCron : String → Bool} {id : Nat}
    {input : InstantiateTemplateInput} (h : t.instantiate validCron id input = some (s, u)) :
    u.Stored s := by
  obtain ⟨definition, -, hcreate⟩ := instantiate_some h
  exact stored_createSchedule hcreate

/-- A column that is set refers to a row, and one that is left does as before. -/
theorem mem_of_setColumn {α : Type} [BEq α] [LawfulBEq α] {given : Field α} {column : Option α}
    {rows : List α} {a : α} (set : (given.setColumn none).all rows.contains = true)
    (kept : column = some a → a ∈ rows) (h : given.setColumn column = some a) : a ∈ rows := by
  cases given with
  | undefined => exact kept h
  | null => exact absurd h (Option.some_ne_none _).symm
  | value target =>
    obtain rfl := Option.some.inj h
    simpa [Field.setColumn] using set

/-- The row after an update. -/
theorem stored_updateSchedule {validCron : String → Bool} {id : Nat} {input : UpdateScheduleInput}
    {previous : Schedule} (h : t.updateSchedule validCron id input = some (previous, s, u))
    (admitted : input.Admitted) (stored : t.Stored previous) : u.Stored s := by
  obtain ⟨hfound, rfl, rfl, hclient, hgroup⟩ := updateSchedule_some h
  obtain ⟨hmem, hid⟩ := ScheduleTable.mem_of_find hfound
  exact ⟨List.mem_map.mpr ⟨previous, hmem, if_pos hid⟩, admitted.targeted stored.targeted,
    fun clientId => mem_of_setColumn hclient (stored.client clientId),
    fun groupId => mem_of_setColumn hgroup (stored.group groupId)⟩

/-! ### The four scopes -/

theorem mem_getGroupMembers {groupId : Nat} (known : t.Known clientId) :
    clientId ∈ t.getGroupMembers groupId ↔ (groupId, clientId) ∈ t.clientGroupMembers := by
  simp [getGroupMembers, known.mem]

theorem mem_getClientGroups {groupId : Nat} (exists_ : groupId ∈ t.clientGroups) :
    groupId ∈ t.getClientGroups clientId ↔ (groupId, clientId) ∈ t.clientGroupMembers := by
  simp [getClientGroups, exists_]

/-- Either target of a schedule makes it apply; without targets it applies to everyone. -/
theorem mem_getSchedulesForClient (stored : t.Stored s) (known : t.Known clientId) :
    s ∈ t.getSchedulesForClient clientId ↔
      s.clientId = some clientId ∨
        (∃ groupId, s.groupId = some groupId ∧ clientId ∈ t.getGroupMembers groupId) ∨
        s.clientId = none ∧ s.groupId = none := by
  have hmem : s ∈ t.getAllSchedules := List.mem_mergeSort.mpr stored.mem
  have hgroup : s.groupId.any (t.getClientGroups clientId).contains = true ↔
      ∃ groupId, s.groupId = some groupId ∧ clientId ∈ t.getGroupMembers groupId := by
    cases hgroup : s.groupId with
    | none => simp
    | some groupId =>
      have hexists := stored.group groupId hgroup
      simp [mem_getClientGroups hexists, mem_getGroupMembers known]
  rw [getSchedulesForClient, List.mem_filter, and_iff_right hmem, applies]
  split
  · next hclient => exact iff_of_true rfl (.inl hclient)
  · next hclient =>
    rw [or_iff_right hclient, ← hgroup]
    split
    · next hany => exact iff_of_true rfl (.inl hany)
    · next hany => rw [or_iff_right hany, decide_eq_true_eq]

/-- The targets of the pushes: the client of the schedule, or else its group. -/
theorem mem_getClientsForSchedule (targeted : s.Targeted) (known : t.Known clientId) :
    clientId ∈ t.getClientsForSchedule s ↔
      match s.clientId, s.groupId with
      | some target, _ => clientId = target
      | none, some groupId => clientId ∈ t.getGroupMembers groupId
      | none, none => True := by
  rw [getClientsForSchedule, truthy_of_ne_empty targeted.clientId]
  cases s.clientId with
  | some target => exact List.mem_singleton
  | none =>
    cases hgroup : s.groupId with
    | none => exact iff_of_true known.mem trivial
    | some groupId =>
      cases groupId with
      | zero => exact absurd hgroup targeted.groupId
      | succ n => exact Iff.rfl

/-- A preview for a client leaves out the schedules of other clients only. -/
theorem mem_candidates (stored : t.Stored s) (known : t.Known clientId) (enabled : s.enabled = true) :
    s ∈ t.candidates (some { clientId := some clientId }) ↔
      s.clientId = some clientId ∨ s.clientId = none := by
  have hmem : s ∈ getEnabledSchedules t.schedules.rows := by
    rw [getEnabledSchedules, List.mem_mergeSort]
    exact List.mem_filter.mpr ⟨stored.mem, enabled⟩
  have htarget : truthy (some clientId) = some clientId :=
    truthy_of_ne_empty fun h => known.ne_empty (Option.some.inj h)
  rw [candidates, List.mem_filter, and_iff_right hmem, considers]
  simp only [htarget, truthy_of_ne_empty stored.targeted.clientId]
  cases s.clientId with
  | none => simp
  | some target => simp

/-- **The four scopes agree exactly when there is one.**  For every stored schedule, every client
    and every group membership. -/
theorem scopesAgree_iff (isConnected : String → Bool) (stored : t.Stored s)
    (known : t.Known clientId) :
    t.ScopesAgree isConnected s clientId ↔ t.OneScope s clientId := by
  have hdispatched : (t.fleet isConnected).Changes s clientId ↔
      clientId ∈ t.getClientsForSchedule s := Fleet.changes_iff
  have hpushed := mem_getClientsForSchedule stored.targeted known
  have happlies := mem_getSchedulesForClient stored known
  have hsimulated := mem_candidates stored known
  constructor
  · intro agrees groupId hgroup
    split
    · next target htarget =>
      intro hmember
      have hmem := agrees.pushed.mpr (happlies.mpr (.inr (.inl ⟨groupId, hgroup, hmember⟩)))
      rw [hpushed, htarget] at hmem
      exact hmem
    · next htarget =>
      intro enabled
      have hmem := (agrees.simulated enabled).mp ((hsimulated enabled).mpr (.inr htarget))
      rw [← agrees.pushed, hpushed, htarget, hgroup] at hmem
      exact hmem
  · intro one
    have hagrees : clientId ∈ t.getClientsForSchedule s ↔ s ∈ t.getSchedulesForClient clientId := by
      rw [hpushed, happlies]
      cases htarget : s.clientId with
      | some target =>
        simp only [Option.some.injEq, reduceCtorEq, false_and, or_false]
        refine ⟨fun hid => .inl hid.symm, ?_⟩
        rintro (rfl | ⟨groupId, hgroup, hmember⟩)
        · rfl
        · have := one groupId hgroup
          rw [htarget] at this
          exact this hmember
      | none =>
        cases hgroup : s.groupId with
        | none => simp
        | some groupId => simp
    refine ⟨hagrees, hdispatched.trans hagrees, fun enabled => ?_⟩
    rw [hsimulated enabled, ← hagrees, hpushed]
    cases htarget : s.clientId with
    | some target => simp [eq_comm]
    | none =>
      cases hgroup : s.groupId with
      | none => simp
      | some groupId =>
        have hmember := one groupId hgroup
        rw [htarget] at hmember
        simp [hmember enabled]

/-! ### A schedule for the hall -/

/-- A schedule for the first group. -/
def hallMorning : CreateScheduleInput where
  name := "morning"
  playlistId := 1
  groupId := some 1
  startTime := some "08:00"

/-- Two clients, of which one is in the group. -/
def hallTables : ScheduleTables where
  schedules := .empty
  clients := ["hall", "office"]
  clientGroups := [1]
  clientGroupMembers := [(1, "hall")]
  playlists := [1]
  scheduleTemplates := []

/-- The tables with the schedule. -/
def hallStore : ScheduleTables :=
  { hallTables with schedules := hallTables.schedules.insert hallMorning.row }

theorem createSchedule_hall : hallTables.createSchedule (fun _ => true) hallMorning =
    some ({ hallMorning.row with id := 1 }, hallStore) := rfl

theorem scopesAgree_iff_hall :
    hallStore.ScopesAgree (fun _ => true) { hallMorning.row with id := 1 } "hall" := by
  have hknown : hallStore.Known "hall" := ⟨by decide, by decide⟩
  refine (scopesAgree_iff (fun _ => true) (stored_createSchedule createSchedule_hall)
    hknown).mpr fun groupId hgroup => ?_
  obtain rfl : 1 = groupId := Option.some.inj hgroup
  exact fun _ => by decide

/-- **Counterexample.** The preview for the office has the schedule of a group that the office is
    not in. -/
theorem not_scopesAgree_office :
    hallStore.Stored { hallMorning.row with id := 1 } ∧ hallStore.Known "office" ∧
      ¬ hallStore.ScopesAgree (fun _ => true) { hallMorning.row with id := 1 } "office" := by
  have hstored := stored_createSchedule createSchedule_hall
  have hknown : hallStore.Known "office" := ⟨by decide, by decide⟩
  refine ⟨hstored, hknown, fun agrees => ?_⟩
  have happlies := (agrees.simulated rfl).mp ((mem_candidates hstored hknown rfl).mpr (.inr rfl))
  obtain hself | ⟨groupId, hgroup, hmember⟩ | ⟨-, hnone⟩ :=
    (mem_getSchedulesForClient hstored hknown).mp happlies
  · exact absurd hself (by decide)
  · obtain rfl : 1 = groupId := Option.some.inj hgroup
    exact absurd hmember (by decide)
  · exact absurd hnone (by decide)

end

end ScheduleTables

end Montr.Server
