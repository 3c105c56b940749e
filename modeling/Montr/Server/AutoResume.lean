import Montr.Server.AssignmentSpec

namespace Montr.Server

open Transition

/-!
# Auto-resume timers

A timer belongs to a client, not to the interrupt that armed it, and only a timed interrupt
replaces it.  `OwnOnly` is what a firing may do: end the interrupt that armed it, and nothing
else.  It holds in runs in which no client is disturbed while its timer is pending
(`ownOnly_of_undisturbed`); an assignment and a manual interrupt made after a timed interrupt
are two that disturb one (`not_ownOnly_hall`).
-/

namespace AssignmentState

/-- **A timer undoes its own interrupt only.**  Whatever timer fires next, it changes its client
    only if the interrupt that armed it is the latest change of the client's playlist. -/
def OwnOnly (cfg : ServerConfig) (s : AssignmentState) : Prop :=
  ∀ clientId now n t, s.resumeTimers clientId = some n → s.autoResume cfg clientId now = some t →
    t.row clientId ≠ s.row clientId → s.lastChange clientId = n

/-- The client has a playlist to resume to. -/
def HasSaved (s : AssignmentState) (clientId : String) : Prop :=
  ∃ r, s.row clientId = some r ∧ r.interruptedFromPlaylistId ≠ .null

/-- An interrupt with the playlist succeeds and leaves the client one to resume to. -/
def SavesOn (s : AssignmentState) (clientId : String) (playlistId : Nat) : Prop :=
  s.clientStore.allows (.value playlistId) = true ∧
    ∃ r, s.row clientId = some r ∧
      (r.interruptedFromPlaylistId.coalesce r.assignedPlaylistId).orKeep
        r.interruptedFromPlaylistId ≠ .null

/-- An operation that sets the client's playlist without arming a timer, and leaves the client
    with a playlist to resume to. -/
def Disturbs (clientId : String) (s : AssignmentState) (op : Operation) : Prop :=
  match op with
  | .putClient id _ assigned => id = clientId ∧ assigned ≠ .undefined ∧ s.HasSaved clientId
  | .postClientPlaylist id _ _ => id = clientId ∧ s.HasSaved clientId
  | .putClientPlaylist id _ _ => id = clientId ∧ s.HasSaved clientId
  | .deleteClientPlaylist id _ => id = clientId ∧ s.HasSaved clientId
  | .assignGroup groupId _ =>
    clientId ∈ (s.getGroupMembers groupId).map (·.id) ∧ s.HasSaved clientId
  | .interrupt id playlistId => id = clientId ∧ s.SavesOn clientId playlistId
  | .dispatchSchedule schedule =>
    clientId ∈ s.targets schedule ∧
      if schedule.interruptMode = .interrupt then
        timed schedule = false ∧ s.SavesOn clientId schedule.playlistId
      else s.HasSaved clientId
  | .resume _ => False
  | .autoResume _ => False

/-- No client whose timer is pending is disturbed. -/
def Undisturbed (s : AssignmentState) (call : Call) : Prop :=
  ∀ clientId, s.resumeTimers clientId ≠ none → ¬ Disturbs clientId s call.op

/-- A pending timer was armed by the latest change, or there is nothing to resume to. -/
def Safe (clientId : String) (s : AssignmentState) : Prop :=
  ∀ n, s.resumeTimers clientId = some n → s.lastChange clientId = n ∨ ¬ s.HasSaved clientId

section

variable {cfg : ServerConfig} {s t u : AssignmentState} {id clientId now : String}
  {playlistId : Nat} {playlist : Field Nat} {old new : Client}

/-! ### What keeps a client safe -/

theorem SameFor.hasSaved (same : SameFor clientId s t) :
    t.HasSaved clientId ↔ s.HasSaved clientId := by
  rw [HasSaved, HasSaved, same.row]

theorem SameFor.safe (same : SameFor clientId s t) (safe : Safe clientId s) :
    Safe clientId t := by
  intro n pending
  rw [same.timer] at pending
  rw [same.lastChange, same.hasSaved]
  exact safe n pending

/-- With nothing to resume to while its timer is pending, a client is safe. -/
theorem safe_of_not_hasSaved (h : t.resumeTimers clientId ≠ none → ¬ t.HasSaved clientId) :
    Safe clientId t :=
  fun n pending => .inr (h (by rw [pending]; exact Option.some_ne_none n))

theorem Writes.hasSaved (h : Writes s t id old new) :
    t.HasSaved id ↔ new.interruptedFromPlaylistId ≠ .null := by
  simp [HasSaved, h.after]

theorem Writes.hasSaved_before (h : Writes s t id old new) :
    s.HasSaved id ↔ old.interruptedFromPlaylistId ≠ .null := by
  simp [HasSaved, h.before]

/-- A message changes neither the timers nor what is saved. -/
theorem safe_push : Safe clientId (s.push cfg id playlistId) ↔ Safe clientId s := by
  unfold push
  split <;> exact Iff.rfl

theorem safe_pushAssigned : Safe clientId (s.pushAssigned cfg id playlist) ↔ Safe clientId s := by
  unfold pushAssigned
  split
  · exact safe_push
  · exact Iff.rfl

/-- A client that is assigned a playlist, when it has nothing saved or no timer. -/
theorem Writes.safe_assign (h : Writes s t id old new)
    (saved : new.interruptedFromPlaylistId = old.interruptedFromPlaylistId)
    (calm : s.resumeTimers id ≠ none → ¬ s.HasSaved id) : Safe id t := by
  refine safe_of_not_hasSaved fun pending => ?_
  rw [h.resumeTimers] at pending
  rw [h.hasSaved, saved, ← h.hasSaved_before]
  exact calm pending

theorem safe_resolveAndPush (safe : Safe clientId s)
    (calm : s.resumeTimers clientId ≠ none → ¬ (id = clientId ∧ s.HasSaved clientId))
    (h : s.resolveAndPush cfg id now = some t) : Safe clientId t := by
  obtain ⟨old, new, u, hwrites, -, -, hsaved, rfl⟩ := resolveAndPush_spec h
  rw [safe_pushAssigned]
  by_cases hid : clientId = id
  · subst hid
    exact hwrites.safe_assign hsaved fun pending saved => calm pending ⟨rfl, saved⟩
  · exact (hwrites.sameFor hid).safe safe

theorem safe_putClient {name : Option String} (safe : Safe clientId s)
    (calm : s.resumeTimers clientId ≠ none →
      ¬ (id = clientId ∧ playlist ≠ .undefined ∧ s.HasSaved clientId))
    (h : s.putClient cfg id name playlist now = some t) : Safe clientId t := by
  by_cases hid : clientId = id
  · subst hid
    obtain ⟨old, new, u, hupdates, -, -, hsaved, rfl⟩ := putClient_spec h
    cases playlist with
    | undefined =>
      -- the name alone is set, and nothing is counted
      show Safe clientId u
      intro n pending
      rw [hupdates.rest] at pending
      have hlast : u.lastChange clientId = s.lastChange clientId := by rw [hupdates.rest]
      have hhas : u.HasSaved clientId ↔ s.HasSaved clientId := by
        simp [HasSaved, hupdates.after, hupdates.before, hsaved]
      rw [hlast, hhas]
      exact safe n pending
    | null =>
      exact hupdates.writes.safe_assign hsaved
        fun pending saved => calm pending ⟨rfl, by simp, saved⟩
    | value p =>
      have hsafe : Safe clientId (u.noteChange clientId) :=
        hupdates.writes.safe_assign hsaved fun pending saved => calm pending ⟨rfl, by simp, saved⟩
      by_cases hp : p = 0
      · subst hp
        exact hsafe
      · obtain ⟨q, rfl⟩ := Nat.exists_eq_succ_of_ne_zero hp
        exact safe_pushAssigned.mpr hsafe
  · exact (sameFor_putClient hid h).safe safe

/-! ### Loops over clients -/

/-- The timers and the saved playlist of a client are as they were. -/
structure KeepsSaved (clientId : String) (s t : AssignmentState) : Prop where
  timer : t.resumeTimers clientId = s.resumeTimers clientId
  saved : t.HasSaved clientId ↔ s.HasSaved clientId

theorem Writes.keepsSaved (h : Writes s t id old new)
    (saved : new.interruptedFromPlaylistId = old.interruptedFromPlaylistId) :
    KeepsSaved clientId s t := by
  by_cases hid : clientId = id
  · subst hid
    exact ⟨by rw [h.resumeTimers], by rw [h.hasSaved, saved, h.hasSaved_before]⟩
  · have hsame := h.sameFor hid
    exact ⟨hsame.timer, hsame.hasSaved⟩

/-- A loop that assigns a playlist to clients, whatever it sends. -/
theorem safe_foldlM {f : AssignmentState → String → Option AssignmentState} {ids : List String}
    (turn : ∀ s id t, f s id = some t →
      KeepsSaved clientId s t ∧ (clientId ≠ id → SameFor clientId s t))
    (safe : Safe clientId s)
    (calm : s.resumeTimers clientId ≠ none → ¬ (clientId ∈ ids ∧ s.HasSaved clientId))
    (h : ids.foldlM f s = some t) : Safe clientId t := by
  by_cases hmem : clientId ∈ ids
  · have hkeeps : KeepsSaved clientId s t := by
      refine foldlM_keeps ⟨rfl, Iff.rfl⟩ (fun u id v _ hu hturn => ?_) h
      have hv := (turn u id v hturn).1
      exact ⟨hv.timer.trans hu.timer, hv.saved.trans hu.saved⟩
    refine safe_of_not_hasSaved fun pending saved => ?_
    rw [hkeeps.timer] at pending
    exact calm pending ⟨hmem, hkeeps.saved.mp saved⟩
  · have hsame : SameFor clientId s t :=
      foldlM_keeps .refl (fun u id v hid same hturn =>
        same.trans ((turn u id v hturn).2 fun heq => hmem (heq ▸ hid))) h
    exact hsame.safe safe

theorem safe_assignAll {ids : List String} (safe : Safe clientId s)
    (calm : s.resumeTimers clientId ≠ none → ¬ (clientId ∈ ids ∧ s.HasSaved clientId))
    (h : s.assignAll ids playlistId now = some t) : Safe clientId t := by
  refine safe_foldlM (fun u id v hturn => ?_) safe calm h
  obtain ⟨⟨new, w⟩, hassign, rfl⟩ := Option.map_eq_some_iff.mp hturn
  obtain ⟨old, hwrites, -, -, hsaved⟩ := assign_spec hassign
  exact ⟨hwrites.keepsSaved hsaved, hwrites.sameFor⟩

theorem assignAndPush_turn (h : s.assignAndPush cfg id playlistId now = some t) :
    KeepsSaved clientId s t ∧ (clientId ≠ id → SameFor clientId s t) := by
  obtain ⟨⟨new, u⟩, hassign, rfl⟩ := Option.map_eq_some_iff.mp h
  obtain ⟨old, hwrites, -, -, hsaved⟩ := assign_spec hassign
  refine ⟨?_, fun hid => (hwrites.sameFor hid).trans (sameFor_push cfg _ hid)⟩
  have hkeeps : KeepsSaved clientId s u := hwrites.keepsSaved hsaved
  show KeepsSaved clientId s (u.push cfg id playlistId)
  unfold push
  split
  · exact ⟨hkeeps.timer, hkeeps.saved⟩
  · exact hkeeps

theorem safe_pushAll {ids : List String} (safe : Safe clientId s) :
    Safe clientId (s.pushAll cfg ids playlistId) :=
  List.foldlRecOn ids _ safe fun _ hu _ _ => safe_push.mpr hu

/-! ### Interrupts and resumes -/

/-- An interrupt that arms no timer, with nothing saved or no timer pending. -/
theorem Writes.safe_interrupt (h : Writes s t id old new)
    (known : s.clientStore.allows (.value playlistId) = true)
    (saved : new.interruptedFromPlaylistId =
      (old.interruptedFromPlaylistId.coalesce old.assignedPlaylistId).orKeep
        old.interruptedFromPlaylistId)
    (calm : s.resumeTimers id ≠ none → ¬ s.SavesOn id playlistId) : Safe id t := by
  refine safe_of_not_hasSaved fun pending hhas => ?_
  rw [h.resumeTimers] at pending
  rw [h.hasSaved, saved] at hhas
  exact calm pending ⟨known, old, h.before, hhas⟩

theorem sameFor_interruptTarget {schedule : Schedule} (hne : clientId ≠ id) :
    SameFor clientId s (s.interruptTarget cfg schedule now id) := by
  unfold interruptTarget
  split
  · exact .refl
  next new u hinterrupt =>
    obtain ⟨old, hwrites, -⟩ := interrupt_spec hinterrupt
    have hpush := (hwrites.sameFor hne).trans
      (sameFor_push cfg schedule.playlistId hne)
    split
    · exact ⟨hpush.row, hpush.outbox, (Function.update_of_ne hne _ _).trans hpush.timer,
        hpush.lastChange⟩
    · exact hpush

/-- A turn of an interrupting schedule: a timed one arms the timer of its own interrupt. -/
theorem safe_interruptTarget {schedule : Schedule} (safe : Safe clientId s)
    (calm : s.resumeTimers clientId ≠ none →
      ¬ (timed schedule = false ∧ s.SavesOn clientId schedule.playlistId)) :
    Safe clientId (s.interruptTarget cfg schedule now id) := by
  by_cases hid : clientId = id
  · subst hid
    unfold interruptTarget
    split
    · exact safe
    next new u hinterrupt =>
      obtain ⟨old, hwrites, hallows, -, hsaved⟩ := interrupt_spec hinterrupt
      by_cases htimed : timed schedule = true
      · rw [if_pos htimed]
        intro n pending
        left
        -- the timer is named by the change just counted
        have hn : (u.push cfg clientId schedule.playlistId).changes = n := by
          have hset : some (u.push cfg clientId schedule.playlistId).changes = some n :=
            (Function.update_self clientId _ _).symm.trans pending
          exact Option.some.inj hset
        have hchanges : (u.push cfg clientId schedule.playlistId).changes = u.changes := by
          unfold push
          split <;> rfl
        have hlast : (u.push cfg clientId schedule.playlistId).lastChange = u.lastChange := by
          unfold push
          split <;> rfl
        show (u.push cfg clientId schedule.playlistId).lastChange clientId = n
        rw [hlast, hwrites.lastChange, ← hn, hchanges, hwrites.changes]
      · rw [if_neg htimed]
        refine safe_push.mpr (hwrites.safe_interrupt hallows hsaved fun pending saves => ?_)
        exact calm pending ⟨by simpa using htimed, saves⟩
  · exact (sameFor_interruptTarget hid).safe safe

/-- The loop of `dispatchInterrupt` over distinct clients. -/
theorem safe_dispatchInterrupt {schedule : Schedule} {ids : List String} (distinct : ids.Nodup)
    (safe : Safe clientId s)
    (calm : clientId ∈ ids → s.resumeTimers clientId ≠ none →
      ¬ (timed schedule = false ∧ s.SavesOn clientId schedule.playlistId)) :
    Safe clientId (ids.foldl (fun s id => s.interruptTarget cfg schedule now id) s) := by
  induction ids generalizing s with
  | nil => exact safe
  | cons id rest ih =>
    obtain ⟨hfresh, hrest⟩ := List.nodup_cons.mp distinct
    show Safe clientId (rest.foldl _ (s.interruptTarget cfg schedule now id))
    by_cases hid : clientId = id
    · -- its only turn
      subst hid
      exact ih hrest (safe_interruptTarget safe (calm List.mem_cons_self))
        fun hmem => absurd hmem hfresh
    · have hsame : SameFor clientId s (s.interruptTarget cfg schedule now id) :=
        sameFor_interruptTarget hid
      refine ih hrest (hsame.safe safe) fun hmem pending => ?_
      rw [hsame.timer] at pending
      have hcalm := calm (List.mem_cons_of_mem id hmem) pending
      have hframe : Frame s (s.interruptTarget cfg schedule now id) :=
        frame_interruptTarget cfg schedule
      rwa [SavesOn, hsame.row, hframe.allows, ← SavesOn]

/-- The targets of a schedule are distinct, as client ids are. -/
theorem nodup_targets (distinct : (s.server.db.clients.map (·.id)).Nodup) (schedule : Schedule) :
    (s.targets schedule).Nodup := by
  unfold targets
  split
  · exact List.nodup_singleton _
  · split
    · exact nodup_getGroupMembers distinct _
    · exact distinct

theorem safe_dispatchSchedule {schedule : Schedule}
    (distinct : (s.server.db.clients.map (·.id)).Nodup) (safe : Safe clientId s)
    (calm : s.resumeTimers clientId ≠ none →
      ¬ Disturbs clientId s (.dispatchSchedule schedule))
    (h : s.dispatchSchedule cfg schedule now = some t) : Safe clientId t := by
  unfold dispatchSchedule at h
  split at h
  next hmode =>
    obtain rfl := Option.some.inj h
    refine safe_dispatchInterrupt (nodup_targets distinct schedule) safe fun hmem pending hd => ?_
    exact calm pending ⟨hmem, by rw [if_pos hmode]; exact hd⟩
  next hmode =>
    have hassign : s.resumeTimers clientId ≠ none →
        ¬ (clientId ∈ s.targets schedule ∧ s.HasSaved clientId) := fun pending hd =>
      calm pending ⟨hd.1, by rw [if_neg hmode]; exact hd.2⟩
    unfold targets at hassign
    split at h
    next id hid =>
      -- one client
      simp only [hid] at hassign
      obtain ⟨hkeeps, hsame⟩ : KeepsSaved clientId s t ∧ (clientId ≠ id → SameFor clientId s t) :=
        assignAndPush_turn h
      by_cases heq : clientId = id
      · refine safe_of_not_hasSaved fun pending saved => ?_
        rw [hkeeps.timer] at pending
        exact hassign pending ⟨by simp [heq], hkeeps.saved.mp saved⟩
      · exact (hsame heq).safe safe
    next hid =>
      simp only [hid] at hassign
      split at h
      next n hgroup =>
        simp only [hgroup] at hassign
        obtain ⟨u, hall, rfl⟩ := Option.map_eq_some_iff.mp h
        exact safe_pushAll (safe_assignAll safe hassign hall)
      next hgroup =>
        refine safe_foldlM (fun u id v hturn => assignAndPush_turn hturn) safe ?_ h
        intro pending hd
        refine hassign pending ⟨?_, hd.2⟩
        split
        next n heq => exact absurd heq (hgroup n)
        next => exact hd.1

theorem safe_autoResume (safe : Safe clientId s) (h : s.autoResume cfg id now = some t) :
    Safe clientId t := by
  have hnone : (s.deleteTimer id).resumeTimers id = none := Function.update_self _ _ _
  by_cases hid : clientId = id
  · subst hid
    -- its timer is gone
    suffices t.resumeTimers clientId = none from
      safe_of_not_hasSaved fun pending => absurd this pending
    obtain ⟨-, ⟨-, rfl⟩ | ⟨resumed, u, hresume, rfl⟩⟩ := autoResume_spec h
    · exact hnone
    · obtain ⟨old, hwrites, -⟩ := resume_spec hresume
      have hpushed : (u.pushAssigned cfg clientId resumed.assignedPlaylistId).resumeTimers =
          u.resumeTimers := by
        unfold pushAssigned push
        split
        · split <;> rfl
        · rfl
      rw [hpushed, hwrites.resumeTimers, hnone]
  · obtain ⟨-, ⟨-, rfl⟩ | ⟨resumed, u, hresume, rfl⟩⟩ := autoResume_spec h
    · exact (sameFor_deleteTimer hid).safe safe
    · obtain ⟨old, hwrites, -⟩ := resume_spec hresume
      exact safe_pushAssigned.mpr ((hwrites.sameFor hid).safe ((sameFor_deleteTimer hid).safe safe))

theorem safe_interruptRoute (safe : Safe clientId s)
    (calm : s.resumeTimers clientId ≠ none →
      ¬ Disturbs clientId s (.interrupt id playlistId))
    (h : s.interruptRoute cfg id playlistId now = some t) : Safe clientId t := by
  obtain ⟨⟨new, u⟩, hinterrupt, rfl⟩ := Option.map_eq_some_iff.mp h
  obtain ⟨old, hwrites, hallows, -, hsaved⟩ := interrupt_spec hinterrupt
  have hwritten : Safe clientId u := by
    by_cases hid : clientId = id
    · subst hid
      exact hwrites.safe_interrupt hallows hsaved fun pending saves => calm pending ⟨rfl, saves⟩
    · exact (hwrites.sameFor hid).safe safe
  show Safe clientId (if u.isConnected id = true then _ else u)
  split
  · unfold sendPlaylistInterrupt
    split <;> exact hwritten
  · exact hwritten

theorem safe_resumeRoute (safe : Safe clientId s) (h : s.resumeRoute cfg id now = some t) :
    Safe clientId t := by
  unfold resumeRoute at h
  split at h
  · exact absurd h (by simp)
  · obtain ⟨⟨new, u⟩, hresume, rfl⟩ := Option.map_eq_some_iff.mp h
    obtain ⟨old, hwrites, -, -, -, hcleared⟩ := resume_spec hresume
    have hwritten : Safe clientId u := by
      by_cases hid : clientId = id
      · subst hid
        -- nothing is saved any more
        exact safe_of_not_hasSaved fun _ saved => hwrites.hasSaved.mp saved hcleared
      · exact (hwrites.sameFor hid).safe safe
    show Safe clientId (if u.isConnected id = true then _ else u)
    split
    · unfold sendPlaylistResume
      split
      · split <;> exact hwritten
      · exact hwritten
    · exact hwritten

/-! ### One operation, and a run -/

/-- **Step lemma.** An undisturbed operation keeps every client safe: one case per operation. -/
theorem safe_step {call : Call} (distinct : (s.server.db.clients.map (·.id)).Nodup)
    (undisturbed : Undisturbed s call) (safe : Safe clientId s)
    (h : step cfg s call = some t) : Safe clientId t := by
  have calm := undisturbed clientId
  obtain ⟨op, now⟩ := call
  cases op with
  | putClient => exact safe_putClient safe calm h
  | postClientPlaylist =>
    refine safe_resolveAndPush ?_ ?_ (postClientPlaylist_spec h).2
    · exact safe
    · exact calm
  | putClientPlaylist =>
    refine safe_resolveAndPush ?_ ?_ (putClientPlaylist_spec h).2
    · exact safe
    · exact calm
  | deleteClientPlaylist =>
    refine safe_resolveAndPush ?_ ?_ (deleteClientPlaylist_spec h)
    · exact safe
    · exact calm
  | assignGroup =>
    obtain ⟨u, hassign, rfl⟩ := assignGroup_spec h
    exact safe_pushAll (safe_assignAll safe calm hassign)
  | interrupt => exact safe_interruptRoute safe calm h
  | resume => exact safe_resumeRoute safe h
  | dispatchSchedule => exact safe_dispatchSchedule distinct safe calm h
  | autoResume => exact safe_autoResume safe h

/-- Where every client is safe, a firing ends its own interrupt or changes nothing. -/
theorem ownOnly_of_safe (safe : ∀ clientId, Safe clientId s) : OwnOnly cfg s := by
  intro clientId now n t pending hfires hchanged
  refine (safe clientId n pending).resolve_right fun hnot => hchanged ?_
  obtain ⟨-, ⟨-, rfl⟩ | ⟨resumed, u, hresume, rfl⟩⟩ := autoResume_spec hfires
  · rfl
  · -- a resume that succeeds found a saved playlist
    obtain ⟨old, hwrites, hsaved, -⟩ := resume_spec hresume
    exact absurd ⟨old, hwrites.before, hsaved⟩ hnot

end

/-- **Timers undo their own interrupts in undisturbed runs.**  For every server with distinct client
    ids and no pending timer and every order of operations and firings, none of which disturbs a
    client whose timer is pending. -/
theorem ownOnly_of_undisturbed (cfg : ServerConfig) {s t : AssignmentState} {calls : List Call}
    (distinct : (s.server.db.clients.map (·.id)).Nodup)
    (idle : ∀ clientId, s.resumeTimers clientId = none)
    (run : Guarded (step cfg) Undisturbed s calls t) : OwnOnly cfg t := by
  have hstart : ∀ clientId, Safe clientId s := by
    intro clientId n pending
    rw [idle] at pending
    exact absurd pending (by simp)
  have hkeep : ∀ u call v,
      ((u.server.db.clients.map (·.id)).Nodup ∧ ∀ clientId, Safe clientId u) →
      Undisturbed u call → step cfg u call = some v →
      (v.server.db.clients.map (·.id)).Nodup ∧ ∀ clientId, Safe clientId v := by
    intro u call v inv undisturbed h
    obtain ⟨lists, hframe, -⟩ := step_frame h
    exact ⟨hframe.ids ▸ inv.1, fun clientId => safe_step inv.1 undisturbed (inv.2 clientId) h⟩
  exact ownOnly_of_safe (run.invariant ⟨distinct, hstart⟩ hkeep).2

/-! ### Two disturbed clients -/

/-- A client of playlist 7, with two playlists to interrupt it and one to assign. -/
def hallAssignment : AssignmentState where
  server :=
    { db :=
        { playlists := [⟨7, "day"⟩, ⟨8, "alarm"⟩, ⟨9, "evening"⟩]
          media := []
          subtitles := []
          clients := [ClientService.lobby .null]
          items := ItemTable.empty }
      manager :=
        { connections := fun _ => none
          metadata := fun _ => none
          sockets := fun _ => { readyState := .closed } } }
  clientPlaylists := []
  clientGroups := []
  clientGroupMembers := []
  resumeTimers := fun _ => none
  changes := 0
  lastChange := fun _ => 0
  outbox := fun _ => []

/-- A schedule that interrupts the client with playlist 8 for a minute. -/
def alarm : Schedule where
  id := 1
  name := "alarm"
  playlistId := 8
  clientId := some "lobby"
  groupId := none
  startTime := some "08:00"
  endTime := none
  daysOfWeek := "0,1,2,3,4,5,6"
  priority := 0
  enabled := true
  cronExpression := none
  durationSeconds := some 60
  timezone := none
  conditions := none
  interruptMode := .interrupt

/-- A timed interrupt that runs its time is undisturbed. -/
theorem ownOnly_of_undisturbed_hall :
    ∃ t, Guarded (step ServerState.lobbyConfig) Undisturbed hallAssignment
        [⟨.dispatchSchedule alarm, "t1"⟩] t ∧ OwnOnly ServerState.lobbyConfig t := by
  have hcalm : Undisturbed hallAssignment ⟨.dispatchSchedule alarm, "t1"⟩ :=
    fun _ pending => absurd rfl pending
  have hrun : Guarded (step ServerState.lobbyConfig) Undisturbed hallAssignment
      [⟨.dispatchSchedule alarm, "t1"⟩] _ := .cons hcalm rfl .nil
  have hdistinct : (hallAssignment.server.db.clients.map (·.id)).Nodup := by decide
  exact ⟨_, hrun, ownOnly_of_undisturbed ServerState.lobbyConfig hdistinct (fun _ => rfl) hrun⟩

/-- **Counterexample.** The client is interrupted for a minute and then assigned playlist 9; the
    firing timer takes it back to playlist 7.  A manual interrupt is cut short in the same way. -/
theorem not_ownOnly_hall :
    (∃ t u, exec (step ServerState.lobbyConfig) hallAssignment
        [⟨.dispatchSchedule alarm, "t1"⟩, ⟨.putClient "lobby" none (.value 9), "t2"⟩] = some t ∧
      step ServerState.lobbyConfig t ⟨.autoResume "lobby", "t3"⟩ = some u ∧
      (t.row "lobby").map Client.assignedPlaylistId = some (.value 9) ∧
      (u.row "lobby").map Client.assignedPlaylistId = some (.value 7) ∧
      ¬ OwnOnly ServerState.lobbyConfig t) ∧
    ∃ t u, exec (step ServerState.lobbyConfig) hallAssignment
        [⟨.dispatchSchedule alarm, "t1"⟩, ⟨.interrupt "lobby" 9, "t2"⟩] = some t ∧
      step ServerState.lobbyConfig t ⟨.autoResume "lobby", "t3"⟩ = some u ∧
      (t.row "lobby").map Client.assignedPlaylistId = some (.value 9) ∧
      (u.row "lobby").map Client.assignedPlaylistId = some (.value 7) ∧
      ¬ OwnOnly ServerState.lobbyConfig t := by
  refine ⟨⟨_, _, rfl, rfl, rfl, rfl, fun own => ?_⟩, _, _, rfl, rfl, rfl, rfl, fun own => ?_⟩
  · exact absurd (own "lobby" "t3" 1 _ rfl rfl (by decide)) (by decide)
  · exact absurd (own "lobby" "t3" 1 _ rfl rfl (by decide)) (by decide)

end AssignmentState

end Montr.Server
