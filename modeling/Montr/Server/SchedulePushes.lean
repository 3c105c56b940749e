import Montr.Lib.Transition
import Montr.Server.ScheduleScope

namespace Montr.Server

open Function Transition

/-!
# Pushing schedule definitions

The routes of `schedule.routes.ts`, `schedule-template.routes.ts`, `group.routes.ts` and
`playlist.routes.ts` that change which schedules apply to a client, with the messages they send, and
registrations and disconnections of clients.

* `SchedulePushes.Complete` — the last message to every connected client has the schedules that
  apply to it;
* `Announced` — what an operation changes for connected clients is pushed to them;
* `complete_iff_announced` — the runs in which the messages stay complete.
-/

structure SchedulePushes where
  tables : ScheduleTables
  isConnected : String → Bool
  /-- the last `schedule_definitions` message that was sent to a client -/
  lastSent : String → Option (List Schedule)

inductive ScheduleOperation
  | createSchedule (input : CreateScheduleInput)
  | instantiate (templateId : Nat) (input : InstantiateTemplateInput)
  | updateSchedule (id : Nat) (input : UpdateScheduleInput)
  | deleteSchedule (id : Nat)
  | addMember (groupId : Nat) (clientId : String)
  | removeMember (groupId : Nat) (clientId : String)
  | deleteGroup (groupId : Nat)
  | deletePlaylist (playlistId : Nat)
  | register (clientId : String)
  | disconnect (clientId : String)
  deriving DecidableEq, Repr

namespace SchedulePushes

variable (s : SchedulePushes)

/-- `sendSchedulesToClient`; `Schedule` has the fields of the payload. -/
def sendSchedulesToClient (clientId : String) : SchedulePushes :=
  if s.isConnected clientId then
    { s with lastSent :=
        update s.lastSent clientId (some (s.tables.getSchedulesForClient clientId)) }
  else s

def pushSchedulesToAffectedClients (schedule : Schedule) : SchedulePushes :=
  (s.tables.getClientsForSchedule schedule).foldl sendSchedulesToClient s

/-- `handleRegister`, as far as it concerns schedules; an unknown client gets a row. -/
def register (clientId : String) : SchedulePushes :=
  { s with
    tables := if s.tables.clients.contains clientId then s.tables
      else { s.tables with clients := s.tables.clients ++ [clientId] }
    isConnected := update s.isConnected clientId true }.sendSchedulesToClient clientId

/-- One operation; `none` when it throws. -/
def step (validCron : String → Bool) (s : SchedulePushes) :
    ScheduleOperation → Option SchedulePushes
  | .createSchedule input =>
    (s.tables.createSchedule validCron input).map fun (schedule, tables) =>
      { s with tables := tables }.pushSchedulesToAffectedClients schedule
  | .instantiate templateId input =>
    -- the route sends nothing
    (s.tables.instantiate validCron templateId input).map fun (_, tables) =>
      { s with tables := tables }
  | .updateSchedule id input =>
    (s.tables.updateSchedule validCron id input).map fun (previous, schedule, tables) =>
      ({ s with tables := tables }.pushSchedulesToAffectedClients
        previous).pushSchedulesToAffectedClients schedule
  | .deleteSchedule id =>
    (s.tables.deleteSchedule id).map fun (previous, tables) =>
      { s with tables := tables }.pushSchedulesToAffectedClients previous
  | .addMember groupId clientId =>
    (s.tables.addMember groupId clientId).map fun tables =>
      { s with tables := tables }.sendSchedulesToClient clientId
  | .removeMember groupId clientId =>
    (s.tables.removeMember groupId clientId).map fun tables =>
      { s with tables := tables }.sendSchedulesToClient clientId
  | .deleteGroup groupId =>
    (s.tables.deleteGroup groupId).map fun tables => { s with tables := tables }
  | .deletePlaylist playlistId =>
    (s.tables.deletePlaylist playlistId).map fun tables => { s with tables := tables }
  | .register clientId => some (s.register clientId)
  | .disconnect clientId => some { s with isConnected := update s.isConnected clientId false }

/-- **Every connected client was sent what applies to it.** -/
def Complete : Prop :=
  ∀ clientId, s.isConnected clientId = true → ∃ message, s.lastSent clientId = some message ∧
    ∀ schedule, schedule ∈ message ↔ schedule ∈ s.tables.getSchedulesForClient clientId

/-- The schedule applies to no connected client but to the given ones. -/
def AppliesOnlyTo (schedule : Schedule) (clients : List String) : Prop :=
  ∀ clientId, s.isConnected clientId = true → s.tables.applies clientId schedule = true →
    clientId ∈ clients

/-- What the operation changes for connected clients is pushed to them. -/
def Announced (s : SchedulePushes) : ScheduleOperation → Prop
  | .createSchedule input =>
    s.AppliesOnlyTo input.row (s.tables.getClientsForSchedule input.row)
  | .instantiate templateId input =>
    ∀ definition, s.tables.scheduleTemplates.lookup templateId = some definition →
      s.AppliesOnlyTo (input.merged definition).row []
  | .updateSchedule id input =>
    ∀ previous, s.tables.schedules.find id = some previous →
      input.apply previous = previous ∨
        ∀ schedule ∈ [previous, input.apply previous], s.AppliesOnlyTo schedule
          (s.tables.getClientsForSchedule previous ++
            s.tables.getClientsForSchedule (input.apply previous))
  | .deleteSchedule id =>
    ∀ previous, s.tables.schedules.find id = some previous →
      s.AppliesOnlyTo previous (s.tables.getClientsForSchedule previous)
  | .deleteGroup groupId =>
    ∀ schedule ∈ s.tables.schedules.rows, schedule.groupId = some groupId →
      s.AppliesOnlyTo schedule []
  | .deletePlaylist playlistId =>
    ∀ schedule ∈ s.tables.schedules.rows, schedule.playlistId = playlistId →
      s.AppliesOnlyTo schedule []
  | _ => True

end SchedulePushes

/-! ### What changes for a client -/

theorem ScheduleTable.eq_of_id {table : ScheduleTable} {a b : Schedule} (ha : a ∈ table.rows)
    (hb : b ∈ table.rows) (h : a.id = b.id) : a = b :=
  List.inj_on_of_nodup_map table.ids_nodup ha hb h

namespace ScheduleTables

variable {t u : ScheduleTables} {clientId : String} {schedule : Schedule}

/-- The client has the same schedules in both. -/
def SameFor (clientId : String) (t u : ScheduleTables) : Prop :=
  ∀ schedule, schedule ∈ u.getSchedulesForClient clientId ↔
    schedule ∈ t.getSchedulesForClient clientId

theorem mem_schedules : schedule ∈ t.getSchedulesForClient clientId ↔
    schedule ∈ t.schedules.rows ∧ t.applies clientId schedule = true := by
  rw [getSchedulesForClient, List.mem_filter, getAllSchedules, List.mem_mergeSort]

/-- The same rows and the same verdicts on them. -/
theorem SameFor.of_applies (rows : u.schedules = t.schedules)
    (applies : ∀ schedule, u.applies clientId schedule = t.applies clientId schedule) :
    SameFor clientId t u := by
  intro schedule
  rw [mem_schedules, mem_schedules, rows, applies]

/-- Rows are deleted: the client is not concerned exactly when none of them applied to it. -/
theorem sameFor_keep {p : Schedule → Bool} (rows : u.schedules.rows = t.schedules.rows.filter p)
    (applies : ∀ schedule, p schedule = true →
      u.applies clientId schedule = t.applies clientId schedule) :
    SameFor clientId t u ↔
      ∀ schedule ∈ t.schedules.rows, p schedule = false → t.applies clientId schedule = false := by
  constructor
  · intro same schedule hmem hgone
    by_contra happlies
    have hthere := (same schedule).mpr (mem_schedules.mpr ⟨hmem, by simpa using happlies⟩)
    rw [mem_schedules, rows, List.mem_filter] at hthere
    exact absurd hgone (by simp [hthere.1.2])
  · intro gone schedule
    rw [mem_schedules, mem_schedules, rows, List.mem_filter]
    constructor
    · rintro ⟨⟨hmem, hkept⟩, happlies⟩
      exact ⟨hmem, applies schedule hkept ▸ happlies⟩
    · rintro ⟨hmem, happlies⟩
      have hkept : p schedule = true := by
        by_contra hgone
        exact absurd (gone schedule hmem (by simpa using hgone)) (by simp [happlies])
      exact ⟨⟨hmem, hkept⟩, (applies schedule hkept).trans happlies⟩

/-- The verdict on a schedule without the group does not depend on the group. -/
theorem applies_deleteGroup {groupId : Nat} {table : ScheduleTable}
    (other : schedule.groupId ≠ some groupId) :
    ScheduleTables.applies
      { t with
        clientGroups := t.clientGroups.filter (· != groupId)
        clientGroupMembers := t.clientGroupMembers.filter (·.1 != groupId)
        schedules := table } clientId schedule = t.applies clientId schedule := by
  have hgroups : schedule.groupId.any (ScheduleTables.getClientGroups
      { t with
        clientGroups := t.clientGroups.filter (· != groupId)
        clientGroupMembers := t.clientGroupMembers.filter (·.1 != groupId)
        schedules := table } clientId).contains =
      schedule.groupId.any (t.getClientGroups clientId).contains := by
    cases hgroup : schedule.groupId with
    | none => rfl
    | some group =>
      have hne : group ≠ groupId := fun heq => other (hgroup.trans (congrArg some heq))
      rw [Option.any_some, Option.any_some, Bool.eq_iff_iff]
      simp [getClientGroups, hne]
  unfold applies
  rw [hgroups]

/-- A new row concerns the clients that it applies to. -/
theorem sameFor_insert (row : Schedule) :
    SameFor clientId t { t with schedules := t.schedules.insert row } ↔
      t.applies clientId row = false := by
  have hnew : t.applies clientId { row with id := t.schedules.nextId } =
      t.applies clientId row := rfl
  constructor
  · intro same
    by_contra hnot
    have happlies : t.applies clientId row = true := by simpa using hnot
    have hthere := (same { row with id := t.schedules.nextId }).mp (mem_schedules.mpr
      ⟨List.mem_append_right _ (List.mem_singleton.mpr rfl), happlies⟩)
    exact absurd (t.schedules.id_lt _ (mem_schedules.mp hthere).1) (Nat.lt_irrefl _)
  · intro happlies schedule
    rw [mem_schedules, mem_schedules]
    refine ⟨fun ⟨hmem, happlies'⟩ => ⟨?_, happlies'⟩, fun ⟨hmem, happlies'⟩ =>
      ⟨List.mem_append_left _ hmem, happlies'⟩⟩
    obtain hmem | hmem := List.mem_append.mp hmem
    · exact hmem
    · obtain rfl := List.mem_singleton.mp hmem
      exact absurd (happlies.symm.trans (hnew.symm.trans happlies')) (by simp)

/-- A deleted row concerns the clients that it applied to. -/
theorem sameFor_delete {id : Nat} {previous : Schedule}
    (found : t.schedules.find id = some previous) :
    SameFor clientId t { t with schedules := t.schedules.keep (·.id != id) } ↔
      t.applies clientId previous = false := by
  obtain ⟨hmem, hid⟩ := ScheduleTable.mem_of_find found
  refine (sameFor_keep (p := fun row => row.id != id) (u :=
    { t with schedules := t.schedules.keep (·.id != id) }) rfl fun _ _ => rfl).trans ?_
  constructor
  · intro hall
    exact hall previous hmem (by simp [hid])
  · intro happlies schedule hrow hgone
    have hrowid : schedule.id = id := by simpa using hgone
    rw [ScheduleTable.eq_of_id hrow hmem (hrowid.trans hid.symm)]
    exact happlies

/-- An update concerns the clients that the row applied to, and those it applies to now. -/
theorem sameFor_update {id : Nat} {input : UpdateScheduleInput} {previous : Schedule}
    (found : t.schedules.find id = some previous) :
    SameFor clientId t { t with schedules := t.schedules.update id input.apply } ↔
      input.apply previous = previous ∨ t.applies clientId previous = false ∧
        t.applies clientId (input.apply previous) = false := by
  obtain ⟨hmem, hid⟩ := ScheduleTable.mem_of_find found
  -- the rows after the update
  have hrows : ∀ schedule, schedule ∈ (t.schedules.update id input.apply).rows ↔
      schedule = input.apply previous ∨ schedule ∈ t.schedules.rows ∧ schedule ≠ previous := by
    intro schedule
    refine List.mem_map.trans ⟨?_, ?_⟩
    · rintro ⟨row, hrow, rfl⟩
      split
      · next hrowid =>
        obtain rfl := ScheduleTable.eq_of_id hrow hmem (hrowid.trans hid.symm)
        exact .inl rfl
      · next hrowid =>
        refine .inr ⟨hrow, ?_⟩
        rintro rfl
        exact hrowid hid
    · rintro (rfl | ⟨hrow, hne⟩)
      · exact ⟨previous, hmem, if_pos hid⟩
      · refine ⟨schedule, hrow, if_neg fun hrowid => hne ?_⟩
        exact ScheduleTable.eq_of_id hrow hmem (hrowid.trans hid.symm)
  have hview : ∀ schedule, schedule ∈ ({ t with schedules := t.schedules.update id input.apply } :
      ScheduleTables).getSchedulesForClient clientId ↔
        (schedule = input.apply previous ∨ schedule ∈ t.schedules.rows ∧ schedule ≠ previous) ∧
          t.applies clientId schedule = true := by
    intro schedule
    rw [mem_schedules, ← hrows]
    rfl
  constructor
  · intro same
    by_contra hnot
    obtain ⟨hne, happlies⟩ := not_or.mp hnot
    by_cases hprevious : t.applies clientId previous = true
    · have hthere := (same previous).mpr (mem_schedules.mpr ⟨hmem, hprevious⟩)
      obtain ⟨heq | ⟨-, hself⟩, -⟩ := (hview previous).mp hthere
      · exact hne heq.symm
      · exact hself rfl
    · have hnext : t.applies clientId (input.apply previous) = true := by
        by_contra hnext
        exact happlies ⟨by simpa using hprevious, by simpa using hnext⟩
      have hthere := (same (input.apply previous)).mp ((hview _).mpr ⟨.inl rfl, hnext⟩)
      have hsame := ScheduleTable.eq_of_id (mem_schedules.mp hthere).1 hmem rfl
      exact hne hsame
  · intro hsame schedule
    rw [hview, mem_schedules]
    obtain heq | ⟨hprevious, hnext⟩ := hsame
    · rw [heq]
      refine and_congr_left fun _ => ⟨?_, fun hrow => ?_⟩
      · rintro (rfl | ⟨hrow, -⟩)
        · exact hmem
        · exact hrow
      · by_cases hself : schedule = previous
        · exact .inl hself
        · exact .inr ⟨hrow, hself⟩
    · refine and_congr_left fun happlies => ⟨?_, fun hrow => .inr ⟨hrow, ?_⟩⟩
      · rintro (rfl | ⟨hrow, -⟩)
        · exact absurd (hnext.symm.trans happlies) (by simp)
        · exact hrow
      · rintro rfl
        exact absurd (hprevious.symm.trans happlies) (by simp)

end ScheduleTables

namespace SchedulePushes

variable {s t : SchedulePushes} {clientId : String}

/-! ### What is sent -/

/-- The tables changed, and the given clients were sent what applies to them now. -/
structure Sends (s t : SchedulePushes) (clients : List String) : Prop where
  isConnected : t.isConnected = s.isConnected
  lastSent : ∀ clientId, t.lastSent clientId =
    if clientId ∈ clients ∧ s.isConnected clientId = true then
      some (t.tables.getSchedulesForClient clientId)
    else s.lastSent clientId

theorem sends_tables (s : SchedulePushes) (tables : ScheduleTables) :
    s.Sends { s with tables := tables } [] where
  isConnected := rfl
  lastSent clientId := by simp

theorem tables_send (s : SchedulePushes) (clientId : String) :
    (s.sendSchedulesToClient clientId).tables = s.tables := by
  unfold sendSchedulesToClient
  split <;> rfl

/-- One more client. -/
theorem Sends.send {clients : List String} (h : s.Sends t clients) (clientId : String) :
    s.Sends (t.sendSchedulesToClient clientId) (clients ++ [clientId]) where
  isConnected := by
    rw [← h.isConnected]
    unfold sendSchedulesToClient
    split <;> rfl
  lastSent other := by
    rw [tables_send]
    unfold sendSchedulesToClient
    rw [h.isConnected]
    split
    · next hconnected =>
      show update t.lastSent clientId _ other = _
      by_cases hother : other = clientId
      · subst hother
        simp [hconnected]
      · rw [update_of_ne hother, h.lastSent other]
        simp [hother]
    · next hconnected =>
      rw [h.lastSent other]
      by_cases hother : other = clientId
      · subst hother
        simp [hconnected]
      · simp [hother]

theorem Sends.foldl {clients : List String} (more : List String) (h : s.Sends t clients) :
    s.Sends (more.foldl sendSchedulesToClient t) (clients ++ more) ∧
      (more.foldl sendSchedulesToClient t).tables = t.tables := by
  induction more generalizing t clients with
  | nil => exact ⟨by simpa using h, rfl⟩
  | cons clientId rest ih =>
    obtain ⟨hsends, htables⟩ := ih (h.send clientId)
    refine ⟨?_, htables.trans (tables_send t clientId)⟩
    rwa [List.append_assoc, List.singleton_append] at hsends

/-- The clients of a schedule, by the tables that are there already. -/
theorem Sends.push {clients : List String} (h : s.Sends t clients) (schedule : Schedule) :
    s.Sends (t.pushSchedulesToAffectedClients schedule)
      (clients ++ t.tables.getClientsForSchedule schedule) :=
  (h.foldl (t.tables.getClientsForSchedule schedule)).1

@[simp] theorem tables_push (s : SchedulePushes) (schedule : Schedule) :
    (s.pushSchedulesToAffectedClients schedule).tables = s.tables :=
  ((s.sends_tables s.tables).foldl (s.tables.getClientsForSchedule schedule)).2

/-- The messages stay complete exactly when the clients left out have the same schedules. -/
theorem Sends.complete_iff {clients : List String} (h : s.Sends t clients) (complete : s.Complete) :
    t.Complete ↔ ∀ clientId, s.isConnected clientId = true → clientId ∉ clients →
      s.tables.SameFor clientId t.tables := by
  constructor
  · intro after clientId hconnected hleft schedule
    obtain ⟨message, hmessage, hmem⟩ := complete clientId hconnected
    obtain ⟨message', hmessage', hmem'⟩ := after clientId (h.isConnected ▸ hconnected)
    rw [h.lastSent, if_neg fun hsent => hleft hsent.1, hmessage] at hmessage'
    obtain rfl := Option.some.inj hmessage'
    exact (hmem' schedule).symm.trans (hmem schedule)
  · intro same clientId hconnected
    rw [h.isConnected] at hconnected
    rw [h.lastSent]
    by_cases hsent : clientId ∈ clients
    · exact ⟨_, if_pos ⟨hsent, hconnected⟩, fun _ => Iff.rfl⟩
    · obtain ⟨message, hmessage, hmem⟩ := complete clientId hconnected
      refine ⟨message, by rw [if_neg fun hboth => hsent hboth.1, hmessage], fun schedule => ?_⟩
      exact (hmem schedule).trans (same clientId hconnected hsent schedule).symm

/-! ### One operation, and a run -/

theorem appliesOnlyTo_iff {schedule : Schedule} {clients : List String} :
    s.AppliesOnlyTo schedule clients ↔ ∀ clientId, s.isConnected clientId = true →
      clientId ∉ clients → s.tables.applies clientId schedule = false := by
  refine forall_congr' fun clientId => imp_congr_right fun _ => ?_
  rw [← not_imp_not, Bool.not_eq_true]

section

variable {validCron : String → Bool}

/-- Nothing is sent where rows are deleted without a push. -/
theorem complete_keep {u : ScheduleTables} {p : Schedule → Bool} (complete : s.Complete)
    (rows : u.schedules.rows = s.tables.schedules.rows.filter p)
    (applies : ∀ clientId schedule, p schedule = true →
      u.applies clientId schedule = s.tables.applies clientId schedule) :
    Complete { s with tables := u } ↔
      ∀ schedule ∈ s.tables.schedules.rows, p schedule = false → s.AppliesOnlyTo schedule [] := by
  rw [(s.sends_tables u).complete_iff complete]
  simp only [appliesOnlyTo_iff, ScheduleTables.sameFor_keep rows (applies _), List.not_mem_nil,
    not_false_eq_true, forall_const]
  exact ⟨fun h schedule hmem hgone clientId hconnected =>
      h clientId hconnected schedule hmem hgone,
    fun h clientId hconnected schedule hmem hgone => h schedule hmem hgone clientId hconnected⟩

theorem complete_createSchedule {input : CreateScheduleInput} (complete : s.Complete)
    (h : step validCron s (.createSchedule input) = some t) :
    t.Complete ↔ s.Announced (.createSchedule input) := by
  obtain ⟨⟨schedule, tables⟩, hcreate, rfl⟩ := Option.map_eq_some_iff.mp h
  obtain ⟨rfl, rfl, -⟩ := ScheduleTables.createSchedule_some hcreate
  have hsends := (s.sends_tables
    { s.tables with schedules := s.tables.schedules.insert input.row }).push
      { input.row with id := s.tables.schedules.nextId }
  refine (hsends.complete_iff complete).trans (Iff.trans ?_ appliesOnlyTo_iff.symm)
  rw [tables_push]
  simp only [ScheduleTables.sameFor_insert, List.nil_append]
  rfl

theorem complete_instantiate {templateId : Nat} {input : InstantiateTemplateInput}
    (complete : s.Complete) (h : step validCron s (.instantiate templateId input) = some t) :
    t.Complete ↔ s.Announced (.instantiate templateId input) := by
  obtain ⟨⟨schedule, tables⟩, hinstantiate, rfl⟩ := Option.map_eq_some_iff.mp h
  obtain ⟨definition, hdefinition, hcreate⟩ := ScheduleTables.instantiate_some hinstantiate
  obtain ⟨-, rfl, -⟩ := ScheduleTables.createSchedule_some hcreate
  have hannounced : s.Announced (.instantiate templateId input) ↔
      s.AppliesOnlyTo (input.merged definition).row [] := by
    refine ⟨fun hall => hall definition hdefinition, fun hthis other hother => ?_⟩
    obtain rfl := Option.some.inj (hdefinition.symm.trans hother)
    exact hthis
  rw [hannounced, (s.sends_tables _).complete_iff complete, appliesOnlyTo_iff]
  simp only [ScheduleTables.sameFor_insert]

theorem complete_updateSchedule {id : Nat} {input : UpdateScheduleInput} (complete : s.Complete)
    (h : step validCron s (.updateSchedule id input) = some t) :
    t.Complete ↔ s.Announced (.updateSchedule id input) := by
  obtain ⟨⟨previous, schedule, tables⟩, hupdate, rfl⟩ := Option.map_eq_some_iff.mp h
  obtain ⟨hfound, rfl, rfl, -⟩ := ScheduleTables.updateSchedule_some hupdate
  have hsends := ((s.sends_tables
    { s.tables with schedules := s.tables.schedules.update id input.apply }).push previous).push
      (input.apply previous)
  have hannounced : s.Announced (.updateSchedule id input) ↔ input.apply previous = previous ∨
      ∀ schedule ∈ [previous, input.apply previous], s.AppliesOnlyTo schedule
        (s.tables.getClientsForSchedule previous ++
          s.tables.getClientsForSchedule (input.apply previous)) := by
    refine ⟨fun hall => hall previous hfound, fun hthis other hother => ?_⟩
    obtain rfl := Option.some.inj (hfound.symm.trans hother)
    exact hthis
  have hclients : ∀ schedule, ({ s.tables with
      schedules := s.tables.schedules.update id input.apply } :
      ScheduleTables).getClientsForSchedule schedule = s.tables.getClientsForSchedule schedule :=
    fun _ => rfl
  rw [hannounced, hsends.complete_iff complete, tables_push, tables_push]
  simp only [ScheduleTables.sameFor_update hfound, appliesOnlyTo_iff, List.nil_append, hclients,
    tables_push,
    List.forall_mem_cons, List.not_mem_nil, false_imp_iff, implies_true,
    and_true]
  by_cases hsame : input.apply previous = previous
  · exact iff_of_true (fun _ _ _ => .inl hsame) (.inl hsame)
  · simp only [hsame, false_or]
    exact ⟨fun hall => ⟨fun clientId hc hleft => (hall clientId hc hleft).1,
        fun clientId hc hleft => (hall clientId hc hleft).2⟩,
      fun hboth clientId hc hleft => ⟨hboth.1 clientId hc hleft, hboth.2 clientId hc hleft⟩⟩

theorem complete_deleteSchedule {id : Nat} (complete : s.Complete)
    (h : step validCron s (.deleteSchedule id) = some t) :
    t.Complete ↔ s.Announced (.deleteSchedule id) := by
  obtain ⟨⟨previous, tables⟩, hdelete, rfl⟩ := Option.map_eq_some_iff.mp h
  obtain ⟨found, hfound, hrest⟩ := Option.map_eq_some_iff.mp hdelete
  obtain ⟨rfl, rfl⟩ := Prod.mk.inj hrest
  have hsends := (s.sends_tables
    { s.tables with schedules := s.tables.schedules.keep (·.id != id) }).push found
  have hannounced : s.Announced (.deleteSchedule id) ↔
      s.AppliesOnlyTo found (s.tables.getClientsForSchedule found) := by
    refine ⟨fun hall => hall found hfound, fun hthis other hother => ?_⟩
    obtain rfl := Option.some.inj (hfound.symm.trans hother)
    exact hthis
  rw [hannounced, appliesOnlyTo_iff]
  refine (hsends.complete_iff complete).trans ?_
  rw [tables_push]
  simp only [ScheduleTables.sameFor_delete hfound, List.nil_append]
  rfl

/-- A change of a client's memberships concerns no other client. -/
theorem complete_of_members {tables : ScheduleTables} (complete : s.Complete)
    (rows : tables.schedules = s.tables.schedules)
    (groups : tables.clientGroups = s.tables.clientGroups)
    (others : ∀ other groupId, other ≠ clientId →
      tables.clientGroupMembers.contains (groupId, other) =
        s.tables.clientGroupMembers.contains (groupId, other)) :
    (({ s with tables := tables } : SchedulePushes).sendSchedulesToClient clientId).Complete := by
  refine ((s.sends_tables tables).send clientId).complete_iff complete |>.mpr ?_
  rw [tables_send]
  intro other _ hother
  refine ScheduleTables.SameFor.of_applies rows fun schedule => ?_
  have hne : other ≠ clientId := by simpa using hother
  have hgroups : tables.getClientGroups other = s.tables.getClientGroups other := by
    simp only [ScheduleTables.getClientGroups, groups, others other _ hne]
  unfold ScheduleTables.applies
  rw [hgroups]

theorem complete_deleteGroup {groupId : Nat} (complete : s.Complete)
    (h : step validCron s (.deleteGroup groupId) = some t) :
    t.Complete ↔ s.Announced (.deleteGroup groupId) := by
  obtain ⟨tables, hdelete, rfl⟩ := Option.map_eq_some_iff.mp h
  obtain rfl := ScheduleTables.deleteGroup_some hdelete
  rw [complete_keep (p := fun row => decide (row.groupId ≠ some groupId)) complete rfl]
  · exact forall₂_congr fun schedule _ => by simp
  · intro clientId schedule hkept
    have hother : schedule.groupId ≠ some groupId := by simpa using hkept
    exact ScheduleTables.applies_deleteGroup hother

theorem complete_deletePlaylist {playlistId : Nat} (complete : s.Complete)
    (h : step validCron s (.deletePlaylist playlistId) = some t) :
    t.Complete ↔ s.Announced (.deletePlaylist playlistId) := by
  obtain ⟨tables, hdelete, rfl⟩ := Option.map_eq_some_iff.mp h
  obtain rfl := ScheduleTables.deletePlaylist_some hdelete
  have hkeep := complete_keep (p := fun row => row.playlistId != playlistId) complete
    (u :=
      { s.tables with
        playlists := s.tables.playlists.filter (· != playlistId)
        schedules := s.tables.schedules.keep (·.playlistId != playlistId) }) rfl fun _ _ _ => rfl
  exact hkeep.trans (forall₂_congr fun schedule _ => by simp)

theorem complete_addMember {groupId : Nat} {member : String} (complete : s.Complete)
    (h : step validCron s (.addMember groupId member) = some t) : t.Complete := by
  obtain ⟨tables, hadd, rfl⟩ := Option.map_eq_some_iff.mp h
  obtain rfl := ScheduleTables.addMember_some hadd
  refine complete_of_members complete rfl rfl fun other group hother => ?_
  simp [hother]

theorem complete_removeMember {groupId : Nat} {member : String} (complete : s.Complete)
    (h : step validCron s (.removeMember groupId member) = some t) : t.Complete := by
  obtain ⟨tables, hremove, rfl⟩ := Option.map_eq_some_iff.mp h
  obtain rfl := ScheduleTables.removeMember_some hremove
  refine complete_of_members complete rfl rfl fun other group hother => ?_
  simp [hother]

/-- The tables of `register`. -/
def registeredTables (s : SchedulePushes) (member : String) : ScheduleTables :=
  if s.tables.clients.contains member then s.tables
  else { s.tables with clients := s.tables.clients ++ [member] }

theorem sameFor_registered (s : SchedulePushes) (member other : String) :
    s.tables.SameFor other (s.registeredTables member) := by
  unfold registeredTables
  split
  · exact .of_applies rfl fun _ => rfl
  · exact .of_applies rfl fun _ => rfl

theorem complete_register {member : String} (complete : s.Complete) :
    (s.register member).Complete := by
  have hregister : s.register member =
      { tables := s.registeredTables member
        isConnected := update s.isConnected member true
        lastSent := update s.lastSent member
          (some ((s.registeredTables member).getSchedulesForClient member)) } := by
    unfold register sendSchedulesToClient
    rw [if_pos (update_self ..)]
    rfl
  rw [hregister]
  intro other hconnected
  by_cases hother : other = member
  · subst hother
    exact ⟨_, update_self .., fun _ => Iff.rfl⟩
  · obtain ⟨message, hmessage, hmem⟩ := complete other
      ((update_of_ne hother true s.isConnected).symm.trans hconnected)
    refine ⟨message, (update_of_ne hother ..).trans hmessage, fun schedule => ?_⟩
    exact (hmem schedule).trans (s.sameFor_registered member other schedule).symm

theorem complete_disconnect {member : String} (complete : s.Complete) :
    Complete { s with isConnected := update s.isConnected member false } := by
  intro other hconnected
  have hother : other ≠ member := by
    rintro rfl
    simp at hconnected
  exact complete other (by simpa [hother] using hconnected)

/-- **One operation keeps the messages complete exactly when it is announced.** -/
theorem complete_step_iff {operation : ScheduleOperation} (complete : s.Complete)
    (h : step validCron s operation = some t) : t.Complete ↔ s.Announced operation := by
  cases operation with
  | createSchedule input => exact complete_createSchedule complete h
  | instantiate templateId input => exact complete_instantiate complete h
  | updateSchedule id input => exact complete_updateSchedule complete h
  | deleteSchedule id => exact complete_deleteSchedule complete h
  | addMember groupId member => exact iff_of_true (complete_addMember complete h) trivial
  | removeMember groupId member => exact iff_of_true (complete_removeMember complete h) trivial
  | deleteGroup groupId => exact complete_deleteGroup complete h
  | deletePlaylist playlistId => exact complete_deletePlaylist complete h
  | register member =>
    obtain rfl := Option.some.inj h
    exact iff_of_true (complete_register complete) trivial
  | disconnect member =>
    obtain rfl := Option.some.inj h
    exact iff_of_true (complete_disconnect complete) trivial

/-- **The messages stay complete through a sequence of completed operations exactly when each of
    them is announced.** -/
theorem complete_iff_announced {operations : List ScheduleOperation} (complete : s.Complete)
    (completed : exec (step validCron) s operations = some t) :
    Throughout (step validCron) Complete s operations ↔
      Each (step validCron) Announced s operations := by
  apply @throughout_iff_each _ _ _ _ _ _ _ _ (fun _ => True) (fun _ _ _ _ _ => trivial) _
    trivial complete completed
  intro s operation t _ hs hstep
  exact complete_step_iff hs hstep

/-! ### The hall, connected -/

/-- The hall and the office are connected, and there is no schedule yet. -/
def hallConnected : SchedulePushes where
  tables := { ScheduleTables.hallTables with
    scheduleTemplates := [(1, { startTime := some "08:00" })] }
  isConnected := fun _ => true
  lastSent := fun _ => some []

theorem complete_hallConnected : hallConnected.Complete := by
  refine fun clientId _ => ⟨[], rfl, fun schedule => ?_⟩
  rw [ScheduleTables.mem_schedules]
  exact iff_of_false List.not_mem_nil fun h => List.not_mem_nil h.1

def hallEvening : CreateScheduleInput where
  name := "evening"
  playlistId := 1
  clientId := some "hall"

/-- A schedule that targets the hall is sent to it. -/
theorem complete_iff_announced_hall :
    Throughout (step fun _ => true) Complete hallConnected [.createSchedule hallEvening] := by
  refine (complete_iff_announced complete_hallConnected rfl).mpr ⟨?_, fun _ _ => trivial⟩
  have hpushed : hallConnected.tables.getClientsForSchedule hallEvening.row = ["hall"] := by decide
  have hclient : hallEvening.row.clientId = some "hall" := by decide
  have hgroup : hallEvening.row.groupId = none := by decide
  intro clientId _ happlies
  rw [hpushed, List.mem_singleton]
  by_contra hne
  unfold ScheduleTables.applies at happlies
  rw [hclient, hgroup, if_neg fun heq => hne (Option.some.inj heq).symm] at happlies
  exact absurd happlies (by simp)

/-- **Counterexample.** A template is made into a schedule for the hall, and nothing is sent. -/
theorem not_complete_instantiate :
    hallConnected.Complete ∧
    ∃ t, exec (step fun _ => true) hallConnected
        [.instantiate 1 { name := "morning", playlistId := 1, clientId := some "hall" }] = some t ∧
      ¬ t.Complete := by
  refine ⟨complete_hallConnected, _, rfl, fun complete => ?_⟩
  have hstep : step (fun _ => true) hallConnected
      (.instantiate 1 { name := "morning", playlistId := 1, clientId := some "hall" }) = some _ := rfl
  have hannounced := (complete_step_iff complete_hallConnected hstep).mp complete
  exact absurd (hannounced _ rfl "hall" rfl (if_pos rfl)) List.not_mem_nil

end

end SchedulePushes

end Montr.Server
