import Montr.Lib.Transition
import Montr.Server.Assignment

namespace Montr.Server

open Function

/-!
# What the operations on assignments do

One lemma for each function of `Assignment`: what it does to the row it writes (`Updates`,
`Writes`), what it sends, and what it leaves alone, for the other clients (`SameFor`) and for the
rest of the server (`Frame`).
-/

/-- The value of a field, if it has one. -/
def Field.toOption {α : Type} : Field α → Option α
  | value a => some a
  | _ => none

/-! ### What a call on the client table does -/

section

variable {db db' : ClientStore} {id clientId now : String} {input : UpdateClientInput}
  {c : Client}

theorem reread_ok (h : db.reread id = .ok c) : db.getClientById id = some c := by
  unfold ClientStore.reread at h
  split at h
  · rename_i found
    rw [found, Except.ok.inj h]
  · exact absurd h (by simp)

/-- Looking up a row after an update of the row `id`. -/
theorem getClientById_apply (db : ClientStore) (id id' : String) (input : UpdateClientInput)
    (now : String) :
    ({ db with clients := db.clients.map fun c =>
        if c.id = id then input.apply c now else c } : ClientStore).getClientById id' =
      (db.getClientById id').map fun c => if c.id = id then input.apply c now else c := by
  have hid : ∀ c : Client, (if c.id = id then input.apply c now else c).id = c.id := by
    intro c
    by_cases h : c.id = id
    · rw [if_pos h]
      rfl
    · rw [if_neg h]
  simp only [ClientStore.getClientById, List.find?_map, Function.comp_def, hid]

theorem id_of_getClientById (h : db.getClientById id = some c) : c.id = id := by
  simpa using List.find?_some h

/-- A successful update writes the input into the row and nowhere else. -/
theorem persistUpdateClient_ok (h : persistUpdateClient db id input now = (.ok c, db')) :
    ∃ old, db.getClientById id = some old ∧ c = input.apply old now ∧
      db.allows input.assignedPlaylistId = true ∧ db'.playlists = db.playlists ∧
      db'.clients.map (·.id) = db.clients.map (·.id) ∧
      db'.getClientById id = some c ∧
      ∀ id', id' ≠ id → db'.getClientById id' = db.getClientById id' := by
  unfold persistUpdateClient at h
  split at h
  next allowed =>
    obtain ⟨hok, rfl⟩ := Prod.mk.inj h
    have hrow := reread_ok hok
    rw [getClientById_apply] at hrow
    obtain ⟨old, hold, hnew⟩ := Option.map_eq_some_iff.mp hrow
    rw [if_pos (id_of_getClientById hold)] at hnew
    refine ⟨old, hold, hnew.symm, allowed, rfl, ?_, reread_ok hok, ?_⟩
    · show (List.map _ _).map _ = _
      rw [List.map_map]
      refine List.map_congr_left fun x _ => ?_
      show (if x.id = id then input.apply x now else x).id = x.id
      by_cases hx : x.id = id
      · rw [if_pos hx]
        rfl
      · rw [if_neg hx]
    · intro id' hne
      rw [getClientById_apply]
      cases hfound : db.getClientById id' with
      | none => rfl
      | some x =>
        have hx : x.id ≠ id := fun heq => hne ((id_of_getClientById hfound).symm.trans heq)
        rw [Option.map_some, if_neg hx]
  next => exact absurd (Prod.mk.inj h).1 (by simp)

end

namespace AssignmentState

section

variable {s t u : AssignmentState} {id clientId now : String} {c old new : Client}
  {playlist : Field Nat} {playlistId : Nat}

/-- The row of a client. -/
def row (s : AssignmentState) (clientId : String) : Option Client :=
  s.clientStore.getClientById clientId

/-- The playlist of the client's row. -/
def assignedTo (s : AssignmentState) (clientId : String) : Option Nat :=
  (s.row clientId).bind (·.assignedPlaylistId.toOption)

/-- The row of the client `id` is written and nothing else. -/
structure Updates (s t : AssignmentState) (id : String) (old new : Client) : Prop where
  before : s.row id = some old
  after : t.row id = some new
  others : ∀ id', id' ≠ id → t.row id' = s.row id'
  ids : t.server.db.clients.map (·.id) = s.server.db.clients.map (·.id)
  rest : t = { s with server := { s.server with db := { s.server.db with
    clients := t.server.db.clients } } }

/-- The same, and the change is counted. -/
structure Writes (s t : AssignmentState) (id : String) (old new : Client) : Prop where
  before : s.row id = some old
  after : t.row id = some new
  others : ∀ id', id' ≠ id → t.row id' = s.row id'
  ids : t.server.db.clients.map (·.id) = s.server.db.clients.map (·.id)
  rest : t = { s.noteChange id with server := { s.server with db := { s.server.db with
    clients := t.server.db.clients } } }

theorem Updates.writes (h : Updates s t id old new) : Writes s (t.noteChange id) id old new where
  before := h.before
  after := h.after
  others := h.others
  ids := h.ids
  rest := by
    show noteChange t id = _
    rw [h.rest]
    rfl

theorem store_eq_some {r : Except ServiceError Client × ClientStore}
    (h : s.store r = some (c, t)) :
    ∃ db, r = (.ok c, db) ∧ t = { s with server := { s.server with db := { s.server.db with
      clients := db.clients } } } := by
  obtain ⟨r, db⟩ := r
  cases r with
  | error e => exact absurd h (by simp [store])
  | ok x =>
    obtain ⟨rfl, rfl⟩ := Prod.mk.inj (Option.some.inj h)
    exact ⟨db, rfl, rfl⟩

/-- A successful adapter call. -/
theorem updates_of_persist {input : UpdateClientInput} {db : ClientStore}
    (h : persistUpdateClient s.clientStore id input now = (.ok new, db)) :
    ∃ old, new = input.apply old now ∧ s.clientStore.allows input.assignedPlaylistId = true ∧
      Updates s { s with server := { s.server with db := { s.server.db with
        clients := db.clients } } } id old new := by
  obtain ⟨old, hold, hnew, hallows, hplaylists, hids, hrow, hothers⟩ := persistUpdateClient_ok h
  have hstore : ({ s with server := { s.server with db := { s.server.db with
      clients := db.clients } } } : AssignmentState).clientStore = db := by
    cases db
    exact congrArg (ClientStore.mk _) hplaylists.symm
  have hlookup : ∀ id', row { s with server := { s.server with db := { s.server.db with
      clients := db.clients } } } id' = db.getClientById id' := fun id' =>
    congrArg (ClientStore.getClientById · id') hstore
  refine ⟨old, hnew, hallows, hold, ?_, ?_, hids, rfl⟩
  · rw [hlookup, hrow]
  · intro id' hne
    rw [hlookup, hothers id' hne]
    rfl

theorem assign_spec (h : s.assign id playlist now = some (new, t)) :
    ∃ old, Writes s t id old new ∧ s.clientStore.allows playlist = true ∧
      new.assignedPlaylistId = playlist.orKeep old.assignedPlaylistId ∧
      new.interruptedFromPlaylistId = old.interruptedFromPlaylistId := by
  obtain ⟨⟨c, u⟩, hstore, heq⟩ := Option.map_eq_some_iff.mp h
  obtain ⟨rfl, rfl⟩ := Prod.mk.inj heq
  obtain ⟨db, hcall, rfl⟩ := store_eq_some hstore
  obtain ⟨old, rfl, hallows, hupdates⟩ := updates_of_persist hcall
  exact ⟨old, hupdates.writes, hallows, rfl, rfl⟩

theorem interrupt_spec (h : s.interrupt id playlistId now = some (new, t)) :
    ∃ old, Writes s t id old new ∧ s.clientStore.allows (.value playlistId) = true ∧
      new.assignedPlaylistId = .value playlistId ∧
      new.interruptedFromPlaylistId =
        (old.interruptedFromPlaylistId.coalesce old.assignedPlaylistId).orKeep
          old.interruptedFromPlaylistId := by
  obtain ⟨⟨c, u⟩, hstore, heq⟩ := Option.map_eq_some_iff.mp h
  obtain ⟨rfl, rfl⟩ := Prod.mk.inj heq
  obtain ⟨db, hcall, rfl⟩ := store_eq_some hstore
  unfold ClientService.interruptWithPlaylist ClientService.getClientById at hcall
  cases hfound : s.clientStore.getClientById id with
  | none => simp [hfound] at hcall
  | some client =>
    simp only [hfound] at hcall
    cases hplaylist : s.clientStore.getPlaylistById playlistId with
    | none => simp [hplaylist] at hcall
    | some playlist =>
      simp only [hplaylist] at hcall
      obtain ⟨old, rfl, hallows, hupdates⟩ := updates_of_persist hcall
      -- the row that was read is the row that is written
      obtain rfl : client = old := Option.some.inj (hfound.symm.trans hupdates.before)
      exact ⟨client, hupdates.writes, hallows, rfl, rfl⟩

theorem resume_spec (h : s.resume id now = some (new, t)) :
    ∃ old, Writes s t id old new ∧ old.interruptedFromPlaylistId ≠ .null ∧
      s.clientStore.allows old.interruptedFromPlaylistId = true ∧
      new.assignedPlaylistId = old.interruptedFromPlaylistId.orKeep old.assignedPlaylistId ∧
      new.interruptedFromPlaylistId = .null := by
  obtain ⟨⟨c, u⟩, hstore, heq⟩ := Option.map_eq_some_iff.mp h
  obtain ⟨rfl, rfl⟩ := Prod.mk.inj heq
  obtain ⟨db, hcall, rfl⟩ := store_eq_some hstore
  unfold ClientService.resumeFromInterrupt ClientService.getClientById at hcall
  cases hfound : s.clientStore.getClientById id with
  | none => simp [hfound] at hcall
  | some client =>
    simp only [hfound] at hcall
    split at hcall
    · exact absurd (Prod.mk.inj hcall).1 (by simp)
    next hsaved =>
      obtain ⟨old, rfl, hallows, hupdates⟩ := updates_of_persist hcall
      obtain rfl : client = old := Option.some.inj (hfound.symm.trans hupdates.before)
      exact ⟨client, hupdates.writes, hsaved, hallows, rfl, rfl⟩

/-- The service call of `PUT /clients/:id`: the adapter call it makes. -/
theorem updateClient_ok {updateClient : UpdateClient} {db db' : ClientStore}
    {input : UpdateClientInput}
    (h : ClientService.updateClient updateClient db id input now = (.ok new, db')) :
    updateClient db id input now = (.ok new, db') := by
  unfold ClientService.updateClient at h
  split at h
  · exact absurd (Prod.mk.inj h).1 (by simp)
  · split at h
    · split at h
      · exact absurd (Prod.mk.inj h).1 (by simp)
      · exact h
    · exact h

/-! ### Sending -/

section

variable (s : AssignmentState) (id clientId : String) (message : ServerMessage)

@[simp] theorem send_clientStore : (s.send id message).clientStore = s.clientStore := rfl

@[simp] theorem send_row : (s.send id message).row clientId = s.row clientId := rfl

@[simp] theorem send_resumeTimers : (s.send id message).resumeTimers = s.resumeTimers := rfl

@[simp] theorem send_lastChange : (s.send id message).lastChange = s.lastChange := rfl

@[simp] theorem send_changes : (s.send id message).changes = s.changes := rfl

/-- The message and its effect on the sockets are those of the server without assignments. -/
theorem sendPlaylistToClient_server (cfg : ServerConfig) (s : AssignmentState)
    (clientId : String) (playlistId : Nat) :
    (s.sendPlaylistToClient cfg clientId playlistId).server =
      s.server.sendPlaylistToClient cfg clientId playlistId := by
  unfold sendPlaylistToClient assignedMessage ServerState.sendPlaylistToClient
  cases s.server.db.playlists.find? (·.id == playlistId) <;> rfl

@[simp] theorem send_isConnected : (s.send id message).isConnected clientId =
    s.isConnected clientId := by
  obtain ⟨hconn, hopen⟩ := ServerState.sendToClient_frame s.server.manager id message
  show ClientConnectionManager.isConnected _ _ = ClientConnectionManager.isConnected _ _
  unfold ClientConnectionManager.isConnected
  rw [show (s.send id message).server.manager =
    (s.server.manager.sendToClient id message).1 from rfl, hconn]
  cases s.server.manager.connections clientId with
  | none => rfl
  | some ws => exact hopen ws

/-- A message reaches the client when it has an open socket. -/
theorem sendToClient_sent (m : ClientConnectionManager ServerMessage) :
    (m.sendToClient id message).2 = m.isConnected id := by
  unfold ClientConnectionManager.sendToClient ClientConnectionManager.isConnected
  cases m.connections id with
  | none => rfl
  | some ws => cases h : m.isOpen ws <;> simp [h]

theorem send_outbox_self (connected : s.isConnected id = true) :
    (s.send id message).outbox id = s.outbox id ++ [message] := by
  have hsent : (s.server.manager.sendToClient id message).2 = true :=
    (sendToClient_sent id message s.server.manager).trans connected
  show (if (s.server.manager.sendToClient id message).2 = true then _ else _ :
    String → List ServerMessage) id = _
  rw [if_pos hsent, Function.update_self]

theorem send_outbox_of_ne (h : clientId ≠ id) :
    (s.send id message).outbox clientId = s.outbox clientId := by
  show (if (s.server.manager.sendToClient id message).2 = true then _ else _ :
    String → List ServerMessage) clientId = _
  split
  · exact Function.update_of_ne h _ _
  · rfl

end

/-! ### What an operation leaves alone -/

/-- Nothing happened to the client. -/
structure SameFor (clientId : String) (s t : AssignmentState) : Prop where
  row : t.row clientId = s.row clientId
  outbox : t.outbox clientId = s.outbox clientId
  timer : t.resumeTimers clientId = s.resumeTimers clientId
  lastChange : t.lastChange clientId = s.lastChange clientId

theorem SameFor.refl : SameFor clientId s s := ⟨rfl, rfl, rfl, rfl⟩

theorem SameFor.trans (first : SameFor clientId s t) (second : SameFor clientId t u) :
    SameFor clientId s u :=
  ⟨second.row.trans first.row, second.outbox.trans first.outbox, second.timer.trans first.timer,
    second.lastChange.trans first.lastChange⟩

theorem Writes.sameFor (h : Writes s t id old new) (hne : clientId ≠ id) :
    SameFor clientId s t where
  row := h.others clientId hne
  outbox := by rw [h.rest]; rfl
  timer := by rw [h.rest]; rfl
  lastChange := by rw [h.rest]; exact Function.update_of_ne hne _ _

theorem Updates.sameFor (h : Updates s t id old new) (hne : clientId ≠ id) :
    SameFor clientId s t where
  row := h.others clientId hne
  outbox := by rw [h.rest]
  timer := by rw [h.rest]
  lastChange := by rw [h.rest]

theorem sameFor_send (message : ServerMessage) (hne : clientId ≠ id) :
    SameFor clientId s (s.send id message) where
  row := rfl
  outbox := send_outbox_of_ne s id clientId message hne
  timer := rfl
  lastChange := rfl

theorem sameFor_push (cfg : ServerConfig) (playlistId : Nat) (hne : clientId ≠ id) :
    SameFor clientId s (s.push cfg id playlistId) := by
  unfold push
  split
  · exact sameFor_send _ hne
  · exact .refl

theorem SameFor.assignedTo (same : SameFor clientId s t) :
    t.assignedTo clientId = s.assignedTo clientId := by
  rw [AssignmentState.assignedTo, same.row, AssignmentState.assignedTo]

theorem Writes.assignedTo {old new : Client} (h : Writes s t id old new) :
    t.assignedTo id = new.assignedPlaylistId.toOption := by
  rw [AssignmentState.assignedTo, h.after, Option.bind_some]

theorem Writes.assignedTo_before {old new : Client} (h : Writes s t id old new) :
    s.assignedTo id = old.assignedPlaylistId.toOption := by
  rw [AssignmentState.assignedTo, h.before, Option.bind_some]

/-- The tables an assignment does not write, and who is connected. -/
structure Frame (s t : AssignmentState) : Prop where
  playlists : t.server.db.playlists = s.server.db.playlists
  ids : t.server.db.clients.map (·.id) = s.server.db.clients.map (·.id)
  lists : t.clientPlaylists = s.clientPlaylists
  members : t.clientGroupMembers = s.clientGroupMembers
  connected : ∀ clientId, t.isConnected clientId = s.isConnected clientId

theorem Frame.refl : Frame s s := ⟨rfl, rfl, rfl, rfl, fun _ => rfl⟩

theorem Frame.trans (first : Frame s t) (second : Frame t u) : Frame s u :=
  ⟨second.playlists.trans first.playlists, second.ids.trans first.ids,
    second.lists.trans first.lists, second.members.trans first.members,
    fun c => (second.connected c).trans (first.connected c)⟩

theorem Writes.frame (h : Writes s t id old new) : Frame s t where
  playlists := by rw [h.rest]
  ids := h.ids
  lists := by rw [h.rest]; rfl
  members := by rw [h.rest]; rfl
  connected clientId := by rw [h.rest]; rfl

theorem Updates.frame (h : Updates s t id old new) : Frame s t where
  playlists := by rw [h.rest]
  ids := h.ids
  lists := by rw [h.rest]
  members := by rw [h.rest]
  connected clientId := by rw [h.rest]; rfl

theorem Writes.resumeTimers (h : Writes s t id old new) : t.resumeTimers = s.resumeTimers := by
  rw [h.rest]
  rfl

theorem Writes.outbox (h : Writes s t id old new) : t.outbox = s.outbox := by
  rw [h.rest]
  rfl

theorem Writes.changes (h : Writes s t id old new) : t.changes = s.changes + 1 := by
  rw [h.rest]
  rfl

theorem Writes.lastChange (h : Writes s t id old new) :
    t.lastChange id = s.changes + 1 := by
  rw [h.rest]
  exact Function.update_self _ _ _

theorem frame_send (message : ServerMessage) : Frame s (s.send id message) where
  playlists := rfl
  ids := rfl
  lists := rfl
  members := rfl
  connected clientId := send_isConnected s id clientId message

theorem frame_push (cfg : ServerConfig) (s : AssignmentState) (id : String) (playlistId : Nat) :
    Frame s (s.push cfg id playlistId) := by
  unfold push
  split
  · exact frame_send _
  · exact .refl

/-- Membership of a group depends on the ids alone. -/
theorem mem_getGroupMembers {groupId : Nat} :
    clientId ∈ (s.getGroupMembers groupId).map (·.id) ↔
      clientId ∈ s.server.db.clients.map (·.id) ∧ (groupId, clientId) ∈ s.clientGroupMembers := by
  unfold getGroupMembers
  simp only [List.mem_map, List.mem_mergeSort, List.mem_filter, List.contains_iff_mem]
  constructor
  · rintro ⟨x, ⟨hx, hmem⟩, rfl⟩
    exact ⟨⟨x, hx, rfl⟩, hmem⟩
  · rintro ⟨⟨x, hx, rfl⟩, hmem⟩
    exact ⟨x, ⟨hx, hmem⟩, rfl⟩

/-- A member is listed once, as client ids are distinct. -/
theorem nodup_getGroupMembers (distinct : (s.server.db.clients.map (·.id)).Nodup)
    (groupId : Nat) : ((s.getGroupMembers groupId).map (·.id)).Nodup := by
  have hperm := (List.mergeSort_perm (s.server.db.clients.filter fun c =>
    s.clientGroupMembers.contains (groupId, c.id)) fun a b => decide (a.name ≤ b.name)).map
      (fun c : Client => c.id)
  exact hperm.nodup_iff.mpr (distinct.sublist (List.filter_sublist.map _))

theorem Frame.mem_getGroupMembers {groupId : Nat} (frame : Frame s t) :
    clientId ∈ (t.getGroupMembers groupId).map (·.id) ↔
      clientId ∈ (s.getGroupMembers groupId).map (·.id) := by
  rw [AssignmentState.mem_getGroupMembers, AssignmentState.mem_getGroupMembers, frame.ids,
    frame.members]

theorem sameFor_pushAssigned (cfg : ServerConfig) (playlist : Field Nat) (hne : clientId ≠ id) :
    SameFor clientId s (s.pushAssigned cfg id playlist) := by
  unfold pushAssigned
  split
  · exact sameFor_push cfg _ hne
  · exact .refl

theorem frame_pushAssigned (cfg : ServerConfig) :
    Frame s (s.pushAssigned cfg id playlist) := by
  unfold pushAssigned
  split
  · exact frame_push cfg _ _ _
  · exact .refl

/-! ### The routes -/

/-- What `PUT /clients/:id` does before it sends anything. -/
theorem putClient_spec {cfg : ServerConfig} {name : Option String}
    (h : s.putClient cfg id name playlist now = some t) :
    ∃ old new u, Updates s u id old new ∧ s.clientStore.allows playlist = true ∧
      new.assignedPlaylistId = playlist.orKeep old.assignedPlaylistId ∧
      new.interruptedFromPlaylistId = old.interruptedFromPlaylistId ∧
      t = (let v := if playlist = .undefined then u else u.noteChange id
        match truthyId playlist with
        | some _ => v.pushAssigned cfg id new.assignedPlaylistId
        | none => v) := by
  obtain ⟨⟨new, u⟩, hstore, rfl⟩ := Option.map_eq_some_iff.mp h
  obtain ⟨db, hcall, rfl⟩ := store_eq_some hstore
  obtain ⟨old, rfl, hallows, hupdates⟩ := updates_of_persist (updateClient_ok hcall)
  exact ⟨old, _, _, hupdates, hallows, rfl, rfl, rfl⟩

theorem sameFor_putClient {cfg : ServerConfig} {name : Option String} (hne : clientId ≠ id)
    (h : s.putClient cfg id name playlist now = some t) : SameFor clientId s t := by
  obtain ⟨old, new, u, hupdates, -, -, -, rfl⟩ := putClient_spec h
  have hcounted : SameFor clientId s (if playlist = .undefined then u else u.noteChange id) := by
    split
    · exact hupdates.sameFor hne
    · exact hupdates.writes.sameFor hne
  show SameFor clientId s (match truthyId playlist with | some _ => _ | none => _)
  split
  · exact hcounted.trans (sameFor_pushAssigned cfg _ hne)
  · exact hcounted

theorem frame_putClient {cfg : ServerConfig} {name : Option String}
    (h : s.putClient cfg id name playlist now = some t) : Frame s t := by
  obtain ⟨old, new, u, hupdates, -, -, -, rfl⟩ := putClient_spec h
  have hcounted : Frame s (if playlist = .undefined then u else u.noteChange id) := by
    split
    · exact hupdates.frame
    · exact hupdates.writes.frame
  show Frame s (match truthyId playlist with | some _ => _ | none => _)
  split
  · exact hcounted.trans (frame_pushAssigned cfg)
  · exact hcounted

theorem resolveAndPush_spec {cfg : ServerConfig} (h : s.resolveAndPush cfg id now = some t) :
    ∃ old new u, Writes s u id old new ∧
      s.clientStore.allows (s.activePlaylist id) = true ∧
      new.assignedPlaylistId = s.activePlaylist id ∧
      new.interruptedFromPlaylistId = old.interruptedFromPlaylistId ∧
      t = u.pushAssigned cfg id (s.activePlaylist id) := by
  obtain ⟨⟨new, u⟩, hassign, rfl⟩ := Option.map_eq_some_iff.mp h
  obtain ⟨old, hwrites, hallows, hassigned, hsaved⟩ := assign_spec hassign
  have hactive : new.assignedPlaylistId = s.activePlaylist id := by
    rw [hassigned, activePlaylist]
    split <;> exact rfl
  refine ⟨old, new, u, hwrites, hallows, hactive, hsaved, ?_⟩
  show u.pushAssigned cfg id new.assignedPlaylistId = _
  rw [hactive]

theorem frame_resolveAndPush {cfg : ServerConfig} (h : s.resolveAndPush cfg id now = some t) :
    Frame s t := by
  obtain ⟨old, new, u, hwrites, -, -, -, rfl⟩ := resolveAndPush_spec h
  exact hwrites.frame.trans (frame_pushAssigned cfg)

theorem Frame.allows (frame : Frame s t) (playlist : Field Nat) :
    t.clientStore.allows playlist = s.clientStore.allows playlist := by
  cases playlist with
  | value p =>
    show (List.find? _ t.server.db.playlists).isSome = (List.find? _ s.server.db.playlists).isSome
    rw [frame.playlists]
  | null => exact rfl
  | undefined => exact rfl

/-! ### The loops -/

theorem frame_assignAll {ids : List String} (h : s.assignAll ids playlistId now = some t) :
    Frame s t := by
  refine Transition.foldlM_keeps .refl (fun u id v _ frame hturn => ?_) h
  obtain ⟨⟨c, w⟩, hassign, rfl⟩ := Option.map_eq_some_iff.mp hturn
  obtain ⟨old, hwrites, -⟩ := assign_spec hassign
  exact frame.trans hwrites.frame

/-- The loop that only writes: the rows of its clients have the playlist, the others are as they
    were. -/
theorem assignedTo_assignAll {ids : List String} (mem : clientId ∈ ids)
    (h : s.assignAll ids playlistId now = some t) :
    t.assignedTo clientId = some playlistId ∧
      t.clientStore.allows (.value playlistId) = true := by
  refine Transition.foldlM_reaches (P := fun u => u.assignedTo clientId = some playlistId ∧
    u.clientStore.allows (.value playlistId) = true) mem (fun s t hturn => ?_)
    (fun s id t hP hturn => ?_) h
  · obtain ⟨⟨new, u⟩, hassign, rfl⟩ := Option.map_eq_some_iff.mp hturn
    obtain ⟨old, hwrites, hallows, hassigned, -⟩ := assign_spec hassign
    refine ⟨?_, by rw [hwrites.frame.allows, hallows]⟩
    rw [hwrites.assignedTo, hassigned]
    exact rfl
  · obtain ⟨⟨new, u⟩, hassign, rfl⟩ := Option.map_eq_some_iff.mp hturn
    obtain ⟨old, hwrites, hallows, hassigned, -⟩ := assign_spec hassign
    refine ⟨?_, by rw [hwrites.frame.allows, hallows]⟩
    by_cases hid : clientId = id
    · subst hid
      rw [hwrites.assignedTo, hassigned]
      exact rfl
    · rw [(hwrites.sameFor hid).assignedTo, hP.1]

theorem sameFor_assignAll {ids : List String} (notMem : clientId ∉ ids)
    (h : s.assignAll ids playlistId now = some t) : SameFor clientId s t := by
  refine Transition.foldlM_keeps .refl (fun u id v hid same hturn => ?_) h
  obtain ⟨⟨new, w⟩, hassign, rfl⟩ := Option.map_eq_some_iff.mp hturn
  obtain ⟨old, hwrites, -⟩ := assign_spec hassign
  exact same.trans (hwrites.sameFor fun heq => notMem (heq ▸ hid))

theorem sameFor_pushAll (cfg : ServerConfig) (playlistId : Nat) {ids : List String}
    (notMem : clientId ∉ ids) :
    SameFor clientId s (s.pushAll cfg ids playlistId) :=
  List.foldlRecOn ids _ SameFor.refl fun _ same _ hid =>
    same.trans (sameFor_push cfg _ fun heq => notMem (heq ▸ hid))

theorem frame_pushAll (cfg : ServerConfig) (s : AssignmentState) (ids : List String)
    (playlistId : Nat) :
    Frame s (s.pushAll cfg ids playlistId) :=
  List.foldlRecOn ids _ Frame.refl fun _ frame _ _ => frame.trans (frame_push cfg _ _ _)

theorem frame_interruptTarget (cfg : ServerConfig) (schedule : Schedule) :
    Frame s (s.interruptTarget cfg schedule now id) := by
  unfold interruptTarget
  split
  · exact .refl
  next c t h =>
    obtain ⟨old, hwrites, -⟩ := interrupt_spec h
    have hpush := hwrites.frame.trans (frame_push cfg t id schedule.playlistId)
    split
    · exact ⟨hpush.playlists, hpush.ids, hpush.lists, hpush.members, hpush.connected⟩
    · exact hpush

theorem frame_assignAndPush {cfg : ServerConfig}
    (h : s.assignAndPush cfg id playlistId now = some t) : Frame s t := by
  obtain ⟨⟨c, u⟩, hassign, rfl⟩ := Option.map_eq_some_iff.mp h
  obtain ⟨old, hwrites, -⟩ := assign_spec hassign
  exact hwrites.frame.trans (frame_push cfg _ _ _)

theorem frame_dispatchSchedule {cfg : ServerConfig} {schedule : Schedule}
    (h : s.dispatchSchedule cfg schedule now = some t) : Frame s t := by
  unfold dispatchSchedule at h
  split at h
  · -- every target that does not throw is interrupted
    obtain rfl := Option.some.inj h
    exact List.foldlRecOn _ _ Frame.refl fun _ frame _ _ =>
      frame.trans (frame_interruptTarget cfg schedule)
  · split at h
    · exact frame_assignAndPush h
    · split at h
      · obtain ⟨u, hassign, rfl⟩ := Option.map_eq_some_iff.mp h
        exact (frame_assignAll hassign).trans (frame_pushAll cfg _ _ _)
      · exact Transition.foldlM_keeps .refl
          (fun _ _ _ _ frame hturn => frame.trans (frame_assignAndPush hturn)) h

theorem sameFor_deleteTimer (hne : clientId ≠ id) : SameFor clientId s (s.deleteTimer id) :=
  ⟨rfl, rfl, Function.update_of_ne hne _ _, rfl⟩

theorem frame_deleteTimer : Frame s (s.deleteTimer id) :=
  ⟨rfl, rfl, rfl, rfl, fun _ => rfl⟩

/-- A firing: the resume throws, or its result is sent. -/
theorem autoResume_spec {cfg : ServerConfig} (h : s.autoResume cfg id now = some t) :
    (∃ n, s.resumeTimers id = some n) ∧
      ((s.deleteTimer id).resume id now = none ∧ t = s.deleteTimer id ∨
        ∃ resumed u, (s.deleteTimer id).resume id now = some (resumed, u) ∧
          t = u.pushAssigned cfg id resumed.assignedPlaylistId) := by
  unfold autoResume at h
  split at h
  · exact absurd h (by simp)
  next n pending =>
    refine ⟨⟨n, pending⟩, ?_⟩
    split at h
    next hthrows => exact .inl ⟨hthrows, (Option.some.inj h).symm⟩
    next resumed u hresume => exact .inr ⟨resumed, u, hresume, (Option.some.inj h).symm⟩

theorem frame_autoResume {cfg : ServerConfig} (h : s.autoResume cfg id now = some t) :
    Frame s t := by
  obtain ⟨-, ⟨-, rfl⟩ | ⟨resumed, u, hresume, rfl⟩⟩ := autoResume_spec h
  · exact frame_deleteTimer
  · obtain ⟨old, hwrites, -⟩ := resume_spec hresume
    exact (frame_deleteTimer.trans hwrites.frame).trans (frame_pushAssigned cfg)

theorem frame_sendPlaylistInterrupt (cfg : ServerConfig) (previous : Field Nat) :
    Frame s (s.sendPlaylistInterrupt cfg id playlistId previous) := by
  unfold sendPlaylistInterrupt
  split
  · exact frame_send _
  · exact .refl

theorem frame_sendPlaylistResume (cfg : ServerConfig) :
    Frame s (s.sendPlaylistResume cfg id playlist) := by
  unfold sendPlaylistResume
  split
  · split
    · exact frame_send _
    · exact .refl
  · exact frame_send _

theorem frame_interruptRoute {cfg : ServerConfig}
    (h : s.interruptRoute cfg id playlistId now = some t) : Frame s t := by
  obtain ⟨⟨c, u⟩, hinterrupt, rfl⟩ := Option.map_eq_some_iff.mp h
  obtain ⟨old, hwrites, -⟩ := interrupt_spec hinterrupt
  show Frame s (if u.isConnected id then _ else u)
  split
  · exact hwrites.frame.trans (frame_sendPlaylistInterrupt cfg _)
  · exact hwrites.frame

theorem frame_resumeRoute {cfg : ServerConfig} (h : s.resumeRoute cfg id now = some t) :
    Frame s t := by
  unfold resumeRoute at h
  split at h
  · exact absurd h (by simp)
  · obtain ⟨⟨c, u⟩, hresume, rfl⟩ := Option.map_eq_some_iff.mp h
    obtain ⟨old, hwrites, -⟩ := resume_spec hresume
    show Frame s (if u.isConnected id then _ else u)
    split
    · exact hwrites.frame.trans (frame_sendPlaylistResume cfg)
    · exact hwrites.frame

theorem postClientPlaylist_spec {cfg : ServerConfig} {priority : Nat}
    (h : s.postClientPlaylist cfg id playlistId priority now = some t) :
    s.clientStore.allows (.value playlistId) = true ∧
      ({ s with clientPlaylists := s.clientPlaylists ++ [⟨id, playlistId, priority⟩] } :
        AssignmentState).resolveAndPush cfg id now = some t := by
  unfold postClientPlaylist at h
  split at h
  · exact absurd h (by simp)
  · split at h
    · exact absurd h (by simp)
    next known =>
      split at h
      · exact absurd h (by simp)
      · exact ⟨by simpa [ClientStore.allows, Option.isSome_iff_ne_none] using known, h⟩

theorem putClientPlaylist_spec {cfg : ServerConfig} {priority : Nat}
    (h : s.putClientPlaylist cfg id playlistId priority now = some t) :
    (∃ r ∈ s.clientPlaylists, r.clientId = id ∧ r.playlistId = playlistId) ∧
      (s.withPriority id playlistId priority).resolveAndPush cfg id now = some t := by
  unfold putClientPlaylist at h
  split at h
  · exact absurd h (by simp)
  · split at h
    next listed => exact ⟨by simpa using listed, h⟩
    · exact absurd h (by simp)

theorem deleteClientPlaylist_spec {cfg : ServerConfig}
    (h : s.deleteClientPlaylist cfg id playlistId now = some t) :
    (s.withoutClientPlaylist id playlistId).resolveAndPush cfg id now = some t := by
  unfold deleteClientPlaylist at h
  split at h
  · exact absurd h (by simp)
  · exact h

theorem assignGroup_spec {cfg : ServerConfig} {groupId : Nat}
    (h : s.assignGroup cfg groupId playlistId now = some t) :
    ∃ u, s.assignAll ((s.getGroupMembers groupId).map (·.id)) playlistId now = some u ∧
      t = u.pushAll cfg ((s.getGroupMembers groupId).map (·.id)) playlistId := by
  unfold assignGroup at h
  split at h
  · exact absurd h (by simp)
  · split at h
    · exact absurd h (by simp)
    · obtain ⟨u, hassign, rfl⟩ := Option.map_eq_some_iff.mp h
      exact ⟨u, hassign, rfl⟩

/-- **Frame.** An operation changes the lists of playlists, by rows whose playlist is known or was
    listed before, and then keeps the frame: one case per operation. -/
theorem step_frame {cfg : ServerConfig} {call : Call} (h : step cfg s call = some t) :
    ∃ lists : List ClientPlaylist, Frame { s with clientPlaylists := lists } t ∧
      ∀ r ∈ lists, s.clientStore.allows (.value r.playlistId) = true ∨
        ∃ r' ∈ s.clientPlaylists, r'.playlistId = r.playlistId := by
  have hkept : ∀ r ∈ s.clientPlaylists, s.clientStore.allows (.value r.playlistId) = true ∨
      ∃ r' ∈ s.clientPlaylists, r'.playlistId = r.playlistId :=
    fun r hr => .inr ⟨r, hr, rfl⟩
  obtain ⟨op, now⟩ := call
  cases op with
  | putClient => exact ⟨s.clientPlaylists, frame_putClient h, hkept⟩
  | postClientPlaylist =>
    obtain ⟨hknown, hresolve⟩ := postClientPlaylist_spec h
    refine ⟨_, frame_resolveAndPush hresolve, fun r hr => ?_⟩
    rcases List.mem_append.mp hr with hr | hr
    · exact hkept r hr
    · obtain rfl := List.mem_singleton.mp hr
      exact .inl hknown
  | putClientPlaylist id p priority =>
    refine ⟨_, frame_resolveAndPush (putClientPlaylist_spec h).2, fun r hr => ?_⟩
    obtain ⟨r', hr', rfl⟩ := List.mem_map.mp hr
    exact .inr ⟨r', hr', by split <;> exact rfl⟩
  | deleteClientPlaylist =>
    refine ⟨_, frame_resolveAndPush (deleteClientPlaylist_spec h), fun r hr => ?_⟩
    exact hkept r (List.mem_filter.mp hr).1
  | assignGroup groupId p =>
    obtain ⟨u, hassign, rfl⟩ := assignGroup_spec h
    exact ⟨s.clientPlaylists, (frame_assignAll hassign).trans
      (frame_pushAll cfg u ((s.getGroupMembers groupId).map (·.id)) p), hkept⟩
  | interrupt => exact ⟨s.clientPlaylists, frame_interruptRoute h, hkept⟩
  | resume => exact ⟨s.clientPlaylists, frame_resumeRoute h, hkept⟩
  | dispatchSchedule => exact ⟨s.clientPlaylists, frame_dispatchSchedule h, hkept⟩
  | autoResume => exact ⟨s.clientPlaylists, frame_autoResume h, hkept⟩

end

end AssignmentState

end Montr.Server
