import Montr.Server.AssignmentPush
import Montr.Server.AutoResume

namespace Montr.Server

open Transition

/-!
# What an operation does to one client

An operation writes the row of a client once and sends it one message at most: `Turn` has the row
before and after, and the messages.

* `turn_of_assigns` — the operations that assign a playlist (`assigns`);
* `interruptRoute_turn`, `dispatchInterrupt_turn` — the two ways to interrupt a client;
* `resumeRoute_turn`, `autoResume_turn` — the two ways to resume one;
* `sameFor_step` — the clients that an operation does not address.
-/

namespace AssignmentState

/-- The row of the client before and after, and what it was sent. -/
structure Turn (s t : AssignmentState) (clientId : String) (old new : Client)
    (sent : List ServerMessage) : Prop where
  before : s.row clientId = some old
  after : t.row clientId = some new
  outbox : t.outbox clientId = s.outbox clientId ++ sent

/-- The databases differ in the rows of the clients only. -/
def SameContent (s t : AssignmentState) : Prop :=
  t.server.db = { s.server.db with clients := t.server.db.clients }

/-- What `pushAssigned` sends. -/
def told (cfg : ServerConfig) (s : AssignmentState) (playlist : Field Nat) :
    List ServerMessage :=
  match truthyId playlist with
  | some playlistId => [assignedMessage cfg s.server.db playlistId]
  | none => []

/-- The client's row has been given the playlist, and the client was told. -/
structure Assigned (cfg : ServerConfig) (s t : AssignmentState) (clientId : String)
    (playlist : Field Nat) : Prop where
  known : s.clientStore.allows playlist = true
  turn : ∃ old new, Turn s t clientId old new (s.told cfg playlist) ∧
    new.interruptedFromPlaylistId = old.interruptedFromPlaylistId

/-- The column `interrupted_from_playlist_id` of the client is an id or `null`. -/
def Typed (clientId : String) (s : AssignmentState) : Prop :=
  ∀ r, s.row clientId = some r → r.interruptedFromPlaylistId ≠ .undefined

/-- What an interrupt saves. -/
def savedFrom (old : Client) : Field Nat :=
  (old.interruptedFromPlaylistId.coalesce old.assignedPlaylistId).orKeep
    old.interruptedFromPlaylistId

/-- The playlist that an operation assigns to the client. -/
def assigns (s : AssignmentState) (clientId : String) : Operation → Option (Field Nat)
  | .putClient id _ playlist => if id = clientId then some playlist else none
  | .postClientPlaylist id playlistId priority =>
    if id = clientId then
      some (activePlaylist
        { s with clientPlaylists := s.clientPlaylists ++ [⟨id, playlistId, priority⟩] } id)
    else none
  | .putClientPlaylist id playlistId priority =>
    if id = clientId then some ((s.withPriority id playlistId priority).activePlaylist id) else none
  | .deleteClientPlaylist id playlistId =>
    if id = clientId then some ((s.withoutClientPlaylist id playlistId).activePlaylist id) else none
  | .assignGroup groupId playlistId =>
    if clientId ∈ (s.getGroupMembers groupId).map (·.id) then some (.value playlistId) else none
  | .dispatchSchedule schedule =>
    if schedule.interruptMode ≠ .interrupt ∧ clientId ∈ s.targets schedule then
      some (.value schedule.playlistId)
    else none
  | .interrupt _ _ => none
  | .resume _ => none
  | .autoResume _ => none

/-- The operation assigns a playlist to those it is about. -/
def Operation.Assigning : Operation → Prop
  | .interrupt _ _ => False
  | .resume _ => False
  | .autoResume _ => False
  | .dispatchSchedule schedule => schedule.interruptMode ≠ .interrupt
  | _ => True

/-- The clients that an operation is about. -/
def addressees (s : AssignmentState) : Operation → List String
  | .putClient id _ _ => [id]
  | .postClientPlaylist id _ _ => [id]
  | .putClientPlaylist id _ _ => [id]
  | .deleteClientPlaylist id _ => [id]
  | .assignGroup groupId _ => (s.getGroupMembers groupId).map (·.id)
  | .interrupt id _ => [id]
  | .resume id => [id]
  | .dispatchSchedule schedule => s.targets schedule
  | .autoResume id => [id]

section

variable {cfg : ServerConfig} {s t u v : AssignmentState} {id clientId now : String}
  {playlistId : Nat} {playlist : Field Nat} {old new : Client} {sent : List ServerMessage}

theorem value_of_truthyId (h : truthyId playlist = some playlistId) :
    playlist = .value playlistId := by
  cases playlist with
  | value n =>
    cases n with
    | zero => exact nomatch h
    | succ n => rw [Option.some.inj h]
  | null => exact nomatch h
  | undefined => exact nomatch h

/-! ### Content -/

theorem SameContent.refl : SameContent s s := rfl

theorem SameContent.trans (first : SameContent s t) (second : SameContent t u) :
    SameContent s u := by
  rw [SameContent, second, first]

theorem SameContent.assignedMessage (same : SameContent s t) (playlistId : Nat) :
    assignedMessage cfg t.server.db playlistId = assignedMessage cfg s.server.db playlistId := by
  rw [same]
  rfl

theorem SameContent.told (same : SameContent s t) (playlist : Field Nat) :
    t.told cfg playlist = s.told cfg playlist := by
  unfold AssignmentState.told
  cases truthyId playlist with
  | none => rfl
  | some playlistId => simp only [same.assignedMessage]

theorem Writes.sameContent (h : Writes s t id old new) : SameContent s t := by
  rw [SameContent, h.rest]

theorem Updates.sameContent (h : Updates s t id old new) : SameContent s t := by
  rw [SameContent, h.rest]

theorem sameContent_push : SameContent s (s.push cfg id playlistId) := by
  unfold push
  split <;> rfl

theorem sameContent_assignAll {ids : List String} (h : s.assignAll ids playlistId now = some t) :
    SameContent s t := by
  refine foldlM_keeps .refl (fun u id v _ same hturn => ?_) h
  obtain ⟨⟨c, w⟩, hassign, rfl⟩ := Option.map_eq_some_iff.mp hturn
  obtain ⟨old, hwrites, -⟩ := assign_spec hassign
  exact same.trans hwrites.sameContent

theorem sameContent_assignAndPush (h : s.assignAndPush cfg id playlistId now = some t) :
    SameContent s t := by
  obtain ⟨⟨c, u⟩, hassign, rfl⟩ := Option.map_eq_some_iff.mp h
  obtain ⟨old, hwrites, -⟩ := assign_spec hassign
  exact hwrites.sameContent.trans sameContent_push

theorem sameContent_interruptTarget {schedule : Schedule} :
    SameContent s (s.interruptTarget cfg schedule now id) := by
  unfold interruptTarget
  split
  · exact .refl
  next new u hinterrupt =>
    obtain ⟨old, hwrites, -⟩ := interrupt_spec hinterrupt
    have hpush : SameContent s (u.push cfg id schedule.playlistId) :=
      hwrites.sameContent.trans sameContent_push
    split
    · exact hpush
    · exact hpush

/-! ### A turn and what is around it -/

theorem Turn.between (first : SameFor clientId s u) (turn : Turn u v clientId old new sent)
    (last : SameFor clientId v t) : Turn s t clientId old new sent where
  before := first.row.symm.trans turn.before
  after := last.row.trans turn.after
  outbox := by rw [last.outbox, turn.outbox, first.outbox]

theorem Writes.turn (h : Writes s t id old new) : Turn s t id old new [] :=
  ⟨h.before, h.after, by rw [h.outbox, List.append_nil]⟩

theorem Updates.turn (h : Updates s t id old new) : Turn s t id old new [] :=
  ⟨h.before, h.after, by rw [h.rest, List.append_nil]⟩

theorem Turn.send (turn : Turn s t clientId old new []) (connected : t.isConnected clientId = true)
    (message : ServerMessage) : Turn s (t.send clientId message) clientId old new [message] where
  before := turn.before
  after := turn.after
  outbox := by rw [send_outbox_self _ _ _ connected, turn.outbox, List.append_nil]

theorem Turn.push (cfg : ServerConfig) (turn : Turn s t clientId old new [])
    (connected : t.isConnected clientId = true) (playlistId : Nat) :
    Turn s (t.push cfg clientId playlistId) clientId old new
      [assignedMessage cfg t.server.db playlistId] := by
  rw [AssignmentState.push, if_pos connected]
  exact turn.send connected _

theorem Turn.pushAssigned (cfg : ServerConfig) (turn : Turn s t clientId old new [])
    (connected : t.isConnected clientId = true) (playlist : Field Nat) :
    Turn s (t.pushAssigned cfg clientId playlist) clientId old new (t.told cfg playlist) := by
  unfold AssignmentState.pushAssigned AssignmentState.told
  cases truthyId playlist with
  | none => exact turn
  | some playlistId => exact turn.push cfg connected playlistId

/-! ### Assignments -/

theorem assigned_putClient {name : Option String} (connected : s.isConnected clientId = true)
    (h : s.putClient cfg clientId name playlist now = some t) :
    Assigned cfg s t clientId playlist := by
  obtain ⟨old, new, u, hupdates, hallows, hassigned, hsaved, rfl⟩ := putClient_spec h
  refine ⟨hallows, old, new, ?_, hsaved⟩
  cases hid : truthyId playlist with
  | none =>
    -- nothing is sent, whether the change counts or not
    have htold : s.told cfg playlist = [] := by rw [told, hid]
    rw [htold]
    by_cases hgiven : playlist = .undefined
    · simp only [if_pos hgiven]
      exact hupdates.turn
    · simp only [if_neg hgiven]
      exact hupdates.writes.turn
  | some p =>
    have hgiven : playlist ≠ .undefined := by
      rintro rfl
      exact nomatch hid
    have hnew : new.assignedPlaylistId = playlist := by
      rw [hassigned]
      cases playlist with
      | undefined => exact absurd rfl hgiven
      | _ => rfl
    simp only [if_neg hgiven, hnew]
    have hconnected : (u.noteChange clientId).isConnected clientId = true := by
      rw [hupdates.writes.frame.connected, connected]
    have hturn : Turn s ((u.noteChange clientId).pushAssigned cfg clientId playlist) clientId old
        new ((u.noteChange clientId).told cfg playlist) :=
      hupdates.writes.turn.pushAssigned cfg hconnected playlist
    rwa [hupdates.writes.sameContent.told] at hturn

theorem assigned_resolveAndPush (connected : s.isConnected clientId = true)
    (h : s.resolveAndPush cfg clientId now = some t) :
    Assigned cfg s t clientId (s.activePlaylist clientId) := by
  obtain ⟨old, new, u, hwrites, hallows, -, hsaved, rfl⟩ := resolveAndPush_spec h
  have hconnected : u.isConnected clientId = true := by rw [hwrites.frame.connected, connected]
  have hturn : Turn s (u.pushAssigned cfg clientId (s.activePlaylist clientId)) clientId old new
      (u.told cfg (s.activePlaylist clientId)) :=
    hwrites.turn.pushAssigned cfg hconnected _
  rw [hwrites.sameContent.told] at hturn
  exact ⟨hallows, old, new, hturn, hsaved⟩

/-- The three routes on a client's playlists, each after a change of the lists. -/
theorem assigned_of_lists (lists : List ClientPlaylist) (connected : s.isConnected clientId = true)
    (h : resolveAndPush cfg { s with clientPlaylists := lists } clientId now = some t) :
    Assigned cfg s t clientId (activePlaylist { s with clientPlaylists := lists } clientId) := by
  obtain ⟨hknown, old, new, hturn, hsaved⟩ :=
    @assigned_resolveAndPush cfg { s with clientPlaylists := lists } t clientId now connected h
  exact ⟨hknown, old, new, ⟨hturn.before, hturn.after, hturn.outbox⟩, hsaved⟩

/-- The loop that only writes, over distinct clients. -/
theorem turn_assignAll {ids : List String} (distinct : ids.Nodup) (mem : clientId ∈ ids)
    (h : s.assignAll ids playlistId now = some t) :
    s.clientStore.allows (.value playlistId) = true ∧
      ∃ old new, Turn s t clientId old new [] ∧
        new.interruptedFromPlaylistId = old.interruptedFromPlaylistId := by
  obtain ⟨before, after, u, v, hbefore, hafter, hfirst, hturn, hlast⟩ :=
    foldlM_split distinct mem h
  obtain ⟨⟨new, w⟩, hassign, rfl⟩ := Option.map_eq_some_iff.mp hturn
  obtain ⟨old, hwrites, hallows, -, hsaved⟩ := assign_spec hassign
  rw [(frame_assignAll hfirst).allows] at hallows
  have hturn := hwrites.turn.between (sameFor_assignAll hbefore hfirst)
    (sameFor_assignAll hafter hlast)
  exact ⟨hallows, old, new, hturn, hsaved⟩

/-- The loop that only sends, over distinct clients. -/
theorem Turn.pushAll {ids : List String} (turn : Turn s t clientId old new [])
    (connected : t.isConnected clientId = true) (distinct : ids.Nodup) (mem : clientId ∈ ids) :
    Turn s (t.pushAll cfg ids playlistId) clientId old new
      [assignedMessage cfg t.server.db playlistId] := by
  obtain ⟨before, after, rfl, hbefore, hafter⟩ := split_of_nodup distinct mem
  have hfirst : SameFor clientId t (t.pushAll cfg before playlistId) :=
    sameFor_pushAll cfg playlistId hbefore
  have hcontent : SameContent t (t.pushAll cfg before playlistId) :=
    List.foldlRecOn before _ SameContent.refl fun _ same _ _ => same.trans sameContent_push
  -- before its own turn the client is left alone, and after it too
  have hthere : Turn s (t.pushAll cfg before playlistId) clientId old new [] :=
    ⟨turn.before, hfirst.row.trans turn.after, hfirst.outbox.trans turn.outbox⟩
  have hsent := hthere.push cfg
    (by rw [(frame_pushAll cfg t before playlistId).connected, connected]) playlistId
  rw [hcontent.assignedMessage] at hsent
  have hlast : SameFor clientId ((t.pushAll cfg before playlistId).push cfg clientId playlistId)
      (((t.pushAll cfg before playlistId).push cfg clientId playlistId).pushAll cfg after
        playlistId) := sameFor_pushAll cfg playlistId hafter
  have hwhole : t.pushAll cfg (before ++ clientId :: after) playlistId =
      ((t.pushAll cfg before playlistId).push cfg clientId playlistId).pushAll cfg after
        playlistId := by
    unfold AssignmentState.pushAll
    rw [List.foldl_append, List.foldl_cons]
  rw [hwhole]
  exact hsent.between .refl hlast

/-- All rows first, then all messages. -/
theorem assigned_assignAll_pushAll {ids ids' : List String} (stored : Stored s)
    (connected : s.isConnected clientId = true) (distinct : ids.Nodup) (distinct' : ids'.Nodup)
    (mem : clientId ∈ ids) (mem' : clientId ∈ ids')
    (h : s.assignAll ids playlistId now = some u) :
    Assigned cfg s (u.pushAll cfg ids' playlistId) clientId (.value playlistId) := by
  obtain ⟨hallows, old, new, hturn, hsaved⟩ := turn_assignAll distinct mem h
  have hconnected : u.isConnected clientId = true := by
    rw [(frame_assignAll h).connected, connected]
  have hsent : Turn s (u.pushAll cfg ids' playlistId) clientId old new
      [assignedMessage cfg u.server.db playlistId] := hturn.pushAll hconnected distinct' mem'
  rw [(sameContent_assignAll h).assignedMessage] at hsent
  refine ⟨hallows, old, new, ?_, hsaved⟩
  rw [told, truthyId_value (stored.positive_of_allows hallows)]
  exact hsent

theorem assigned_assignAndPush (stored : Stored s) (connected : s.isConnected clientId = true)
    (h : s.assignAndPush cfg clientId playlistId now = some t) :
    Assigned cfg s t clientId (.value playlistId) := by
  obtain ⟨⟨new, u⟩, hassign, rfl⟩ := Option.map_eq_some_iff.mp h
  obtain ⟨old, hwrites, hallows, -, hsaved⟩ := assign_spec hassign
  have hconnected : u.isConnected clientId = true := by rw [hwrites.frame.connected, connected]
  have hturn := hwrites.turn.push cfg hconnected playlistId
  rw [hwrites.sameContent.assignedMessage] at hturn
  refine ⟨hallows, old, new, ?_, hsaved⟩
  rw [told, truthyId_value (stored.positive_of_allows hallows)]
  exact hturn

theorem sameFor_assignAndPush (hne : clientId ≠ id)
    (h : s.assignAndPush cfg id playlistId now = some t) : SameFor clientId s t := by
  obtain ⟨⟨new, u⟩, hassign, rfl⟩ := Option.map_eq_some_iff.mp h
  obtain ⟨old, hwrites, -⟩ := assign_spec hassign
  exact (hwrites.sameFor hne).trans (sameFor_push cfg _ hne)

/-- The loop that writes and sends in turn: what the turns of others leave alone. -/
theorem keeps_assignAndPush {ids : List String} (notMem : clientId ∉ ids)
    (h : ids.foldlM (fun s id => s.assignAndPush cfg id playlistId now) s = some t) :
    SameFor clientId s t ∧ SameContent s t ∧ Frame s t := by
  refine foldlM_keeps (P := fun u => SameFor clientId s u ∧ SameContent s u ∧ Frame s u)
    ⟨.refl, .refl, .refl⟩ (fun u id v hid keeps hturn => ?_) h
  have hne : clientId ≠ id := fun heq => notMem (heq ▸ hid)
  exact ⟨keeps.1.trans (sameFor_assignAndPush hne hturn),
    keeps.2.1.trans (sameContent_assignAndPush hturn),
    keeps.2.2.trans (frame_assignAndPush hturn)⟩

theorem assigned_foldlM {ids : List String} (stored : Stored s)
    (connected : s.isConnected clientId = true) (distinct : ids.Nodup) (mem : clientId ∈ ids)
    (h : ids.foldlM (fun s id => s.assignAndPush cfg id playlistId now) s = some t) :
    Assigned cfg s t clientId (.value playlistId) := by
  obtain ⟨before, after, u, v, hbefore, hafter, hfirst, hturn, hlast⟩ :=
    foldlM_split distinct mem h
  obtain ⟨hsame, hcontent, hframe⟩ := keeps_assignAndPush hbefore hfirst
  have hconnected : u.isConnected clientId = true := by rw [hframe.connected, connected]
  obtain ⟨hallows, old, new, hown, hsaved⟩ :=
    assigned_assignAndPush (hframe.stored stored) hconnected hturn
  rw [hframe.allows] at hallows
  rw [hcontent.told] at hown
  exact ⟨hallows, old, new, hown.between hsame (keeps_assignAndPush hafter hlast).1, hsaved⟩

theorem assigned_dispatchSchedule {schedule : Schedule} (stored : Stored s)
    (connected : s.isConnected clientId = true)
    (distinct : (s.server.db.clients.map (·.id)).Nodup)
    (mode : schedule.interruptMode ≠ .interrupt) (mem : clientId ∈ s.targets schedule)
    (h : s.dispatchSchedule cfg schedule now = some t) :
    Assigned cfg s t clientId (.value schedule.playlistId) := by
  unfold dispatchSchedule at h
  rw [if_neg mode] at h
  unfold targets at mem
  -- `client_id`, then `group_id`, then everybody
  split at h
  next id hid =>
    obtain rfl : clientId = id := by simpa [hid] using mem
    exact assigned_assignAndPush stored connected h
  next hnone =>
    simp only [hnone] at mem
    split at h
    next n hgroup =>
      simp only [hgroup] at mem
      obtain ⟨u, hassign, rfl⟩ := Option.map_eq_some_iff.mp h
      have hframe := frame_assignAll hassign
      have hnodup : (u.server.db.clients.map (·.id)).Nodup := hframe.ids ▸ distinct
      exact assigned_assignAll_pushAll stored connected (nodup_getGroupMembers distinct _)
        (nodup_getGroupMembers hnodup _) mem (hframe.mem_getGroupMembers.mpr mem) hassign
    next hgroup =>
      refine assigned_foldlM stored connected distinct ?_ h
      split at mem
      next n heq => exact absurd heq (hgroup n)
      next => exact mem

/-- **The operations that assign a playlist to the client.** -/
theorem turn_of_assigns {call : Call} (stored : Stored s)
    (connected : s.isConnected clientId = true)
    (distinct : (s.server.db.clients.map (·.id)).Nodup)
    (assigning : s.assigns clientId call.op = some playlist) (h : step cfg s call = some t) :
    Assigned cfg s t clientId playlist := by
  obtain ⟨op, now⟩ := call
  cases op with
  | putClient id name given =>
    obtain ⟨rfl, hgiven⟩ := Option.ite_none_right_eq_some.mp assigning
    obtain rfl := Option.some.inj hgiven
    exact assigned_putClient connected h
  | postClientPlaylist id p priority =>
    obtain ⟨rfl, hactive⟩ := Option.ite_none_right_eq_some.mp assigning
    obtain rfl := Option.some.inj hactive
    exact assigned_of_lists _ connected (postClientPlaylist_spec h).2
  | putClientPlaylist id p priority =>
    obtain ⟨rfl, hactive⟩ := Option.ite_none_right_eq_some.mp assigning
    obtain rfl := Option.some.inj hactive
    exact assigned_of_lists _ connected (putClientPlaylist_spec h).2
  | deleteClientPlaylist id p =>
    obtain ⟨rfl, hactive⟩ := Option.ite_none_right_eq_some.mp assigning
    obtain rfl := Option.some.inj hactive
    exact assigned_of_lists _ connected (deleteClientPlaylist_spec h)
  | assignGroup groupId p =>
    obtain ⟨hmem, hgiven⟩ := Option.ite_none_right_eq_some.mp assigning
    obtain rfl := Option.some.inj hgiven
    obtain ⟨u, hassign, rfl⟩ := assignGroup_spec h
    exact assigned_assignAll_pushAll stored connected (nodup_getGroupMembers distinct _)
      (nodup_getGroupMembers distinct _) hmem hmem hassign
  | dispatchSchedule schedule =>
    obtain ⟨⟨hmode, hmem⟩, hgiven⟩ := Option.ite_none_right_eq_some.mp assigning
    obtain rfl := Option.some.inj hgiven
    exact assigned_dispatchSchedule stored connected distinct hmode hmem h
  | interrupt => exact nomatch assigning
  | resume => exact nomatch assigning
  | autoResume => exact nomatch assigning

/-! ### Interrupts -/

theorem interruptRoute_turn (connected : s.isConnected clientId = true)
    (h : s.interruptRoute cfg clientId playlistId now = some t) :
    ∃ old new name items previous, Turn s t clientId old new
        [.playlistInterrupt playlistId name true items previous] ∧
      new.interruptedFromPlaylistId = savedFrom old := by
  obtain ⟨⟨new, u⟩, hinterrupt, rfl⟩ := Option.map_eq_some_iff.mp h
  obtain ⟨old, hwrites, hallows, -, hsaved⟩ := interrupt_spec hinterrupt
  have hconnected : u.isConnected clientId = true := by rw [hwrites.frame.connected, connected]
  obtain ⟨playlist, hfind, rfl⟩ := find_of_allows (s := u)
    (by rw [hwrites.frame.allows, hallows])
  refine ⟨old, new, playlist.name, listing cfg u.server.db playlist.id,
    new.interruptedFromPlaylistId, ?_, hsaved⟩
  show Turn s (if u.isConnected clientId = true then _ else u) clientId old new _
  rw [if_pos hconnected, sendPlaylistInterrupt, hfind]
  exact hwrites.turn.send hconnected _

/-- A known client is interrupted by a known playlist. -/
theorem interrupt_isSome (now : String)
    (known : s.clientStore.allows (.value playlistId) = true)
    (found : s.row clientId = some old) :
    ∃ new u, s.interrupt clientId playlistId now = some (new, u) := by
  have hclient : s.clientStore.getClientById clientId = some old := found
  obtain ⟨playlist, hplaylist⟩ := Option.isSome_iff_exists.mp known
  have hcall : ∃ new db, ClientService.interruptWithPlaylist persistUpdateClient s.clientStore
      clientId playlistId now = (.ok new, db) := by
    simp only [ClientService.interruptWithPlaylist, ClientService.getClientById, hclient,
      hplaylist, persistUpdateClient, known, if_true, ClientStore.reread, getClientById_apply,
      Option.map_some]
    exact ⟨_, _, rfl⟩
  obtain ⟨new, db, hcall⟩ := hcall
  rw [interrupt, hcall]
  exact ⟨new, _, rfl⟩

theorem sameFor_interruptRoute (hne : clientId ≠ id)
    (h : s.interruptRoute cfg id playlistId now = some t) : SameFor clientId s t := by
  obtain ⟨⟨new, u⟩, hinterrupt, rfl⟩ := Option.map_eq_some_iff.mp h
  obtain ⟨old, hwrites, -⟩ := interrupt_spec hinterrupt
  refine (hwrites.sameFor hne).trans ?_
  show SameFor clientId u (if u.isConnected id = true then _ else u)
  split
  · unfold sendPlaylistInterrupt
    split
    · exact sameFor_send _ hne
    · exact .refl
  · exact .refl

/-- The client's turn in the loop of `dispatchInterrupt`. -/
theorem interruptTarget_turn {schedule : Schedule} (connected : s.isConnected clientId = true)
    (known : s.clientStore.allows (.value schedule.playlistId) = true)
    (found : s.row clientId = some old) :
    ∃ new, Turn s (s.interruptTarget cfg schedule now clientId) clientId old new
        [assignedMessage cfg s.server.db schedule.playlistId] ∧
      new.interruptedFromPlaylistId = savedFrom old := by
  obtain ⟨new, u, hinterrupt⟩ := interrupt_isSome now known found
  obtain ⟨old', hwrites, -, -, hsaved⟩ := interrupt_spec hinterrupt
  obtain rfl : old = old' := Option.some.inj (found.symm.trans hwrites.before)
  have hconnected : u.isConnected clientId = true := by rw [hwrites.frame.connected, connected]
  have hturn := hwrites.turn.push cfg hconnected schedule.playlistId
  rw [hwrites.sameContent.assignedMessage] at hturn
  refine ⟨new, ?_, hsaved⟩
  simp only [interruptTarget, hinterrupt]
  -- a timer changes neither the row nor the messages
  split
  · exact ⟨hturn.before, hturn.after, hturn.outbox⟩
  · exact hturn

/-- Without the client or the playlist nothing happens to the client. -/
theorem interruptTarget_of_none {schedule : Schedule}
    (h : s.interrupt clientId schedule.playlistId now = none) :
    s.interruptTarget cfg schedule now clientId = s := by
  simp only [interruptTarget, h]

theorem sameFor_interruptTargets {schedule : Schedule} {ids : List String}
    (notMem : clientId ∉ ids) :
    SameFor clientId s (ids.foldl (fun s id => s.interruptTarget cfg schedule now id) s) :=
  List.foldlRecOn ids _ SameFor.refl fun _ same _ hid =>
    same.trans (sameFor_interruptTarget fun heq => notMem (heq ▸ hid))

/-! ### Resumes -/

theorem resumeRoute_turn (stored : Stored s) (connected : s.isConnected clientId = true)
    (typed : Typed clientId s)
    (h : s.resumeRoute cfg clientId now = some t) :
    ∃ old new playlistId name items, Turn s t clientId old new
        [.playlistResume (.value playlistId) name true items] ∧
      old.interruptedFromPlaylistId = .value playlistId ∧
      new.assignedPlaylistId = .value playlistId ∧ new.interruptedFromPlaylistId = .null := by
  unfold resumeRoute at h
  split at h
  · exact absurd h (by simp)
  next previous hprevious =>
    obtain ⟨⟨new, u⟩, hresume, rfl⟩ := Option.map_eq_some_iff.mp h
    obtain ⟨old, hwrites, hsaved, hallows, hassigned, hnull⟩ := resume_spec hresume
    obtain rfl : previous = old := Option.some.inj (hprevious.symm.trans hwrites.before)
    have hconnected : u.isConnected clientId = true := by rw [hwrites.frame.connected, connected]
    show ∃ old new playlistId name items, Turn s (if u.isConnected clientId = true then _ else u)
      clientId old new _ ∧ _
    rw [if_pos hconnected]
    -- the service refuses `null`, and the column is never undefined
    cases hfrom : previous.interruptedFromPlaylistId with
    | null => exact absurd hfrom hsaved
    | undefined => exact absurd hfrom (typed previous hwrites.before)
    | value p =>
      rw [hfrom] at hassigned hallows
      have hp := stored.positive_of_allows hallows
      obtain ⟨playlist, hfind, rfl⟩ := find_of_allows (s := u)
        (by rw [hwrites.frame.allows, hallows])
      simp only [sendPlaylistResume, truthyId_value hp, hfind]
      exact ⟨previous, new, playlist.id, _, _, hwrites.turn.send hconnected _, hfrom, hassigned,
        hnull⟩

/-- A client with a playlist to resume that exists is resumed. -/
theorem resume_isSome (now : String) (found : s.row clientId = some old)
    (saved : old.interruptedFromPlaylistId = .value playlistId)
    (known : s.clientStore.allows (.value playlistId) = true) :
    ∃ new u, s.resume clientId now = some (new, u) := by
  have hclient : s.clientStore.getClientById clientId = some old := found
  have hnotNull : ¬ Field.value playlistId = .null := nofun
  have hcall : ∃ new db, ClientService.resumeFromInterrupt persistUpdateClient s.clientStore
      clientId now = (.ok new, db) := by
    simp only [ClientService.resumeFromInterrupt, ClientService.getClientById, hclient, saved,
      if_neg hnotNull, persistUpdateClient, known, if_true, ClientStore.reread,
      getClientById_apply, Option.map_some]
    exact ⟨_, _, rfl⟩
  obtain ⟨new, db, hcall⟩ := hcall
  rw [resume, hcall]
  exact ⟨new, _, rfl⟩

theorem sameFor_resumeRoute (hne : clientId ≠ id) (h : s.resumeRoute cfg id now = some t) :
    SameFor clientId s t := by
  unfold resumeRoute at h
  split at h
  · exact absurd h (by simp)
  · obtain ⟨⟨new, u⟩, hresume, rfl⟩ := Option.map_eq_some_iff.mp h
    obtain ⟨old, hwrites, -⟩ := resume_spec hresume
    refine (hwrites.sameFor hne).trans ?_
    show SameFor clientId u (if u.isConnected id = true then _ else u)
    split
    · exact sameFor_sendPlaylistResume hne
    · exact .refl

/-- A firing timer: the resume throws and nothing is sent, or the client is resumed. -/
theorem autoResume_turn (stored : Stored s) (connected : s.isConnected clientId = true)
    (typed : Typed clientId s)
    (h : s.autoResume cfg clientId now = some t) :
    ((s.deleteTimer clientId).resume clientId now = none ∧ t.row clientId = s.row clientId ∧
        t.outbox clientId = s.outbox clientId) ∨
      ∃ old new playlistId, ((s.deleteTimer clientId).resume clientId now).isSome = true ∧
        Turn s t clientId old new [assignedMessage cfg s.server.db playlistId] ∧
        s.clientStore.allows (.value playlistId) = true ∧
        old.interruptedFromPlaylistId = .value playlistId ∧
        new.assignedPlaylistId = .value playlistId ∧ new.interruptedFromPlaylistId = .null := by
  obtain ⟨-, ⟨hthrows, rfl⟩ | ⟨resumed, u, hresume, rfl⟩⟩ := autoResume_spec h
  · exact .inl ⟨hthrows, rfl, rfl⟩
  · right
    obtain ⟨old, hwrites, hsaved, hallows, hassigned, hnull⟩ := resume_spec hresume
    have hconnected : u.isConnected clientId = true := by
      rw [hwrites.frame.connected]
      exact connected
    -- as for the route: only a playlist is left to resume
    cases hfrom : old.interruptedFromPlaylistId with
    | null => exact absurd hfrom hsaved
    | undefined => exact absurd hfrom (typed old hwrites.before)
    | value p =>
      rw [hfrom] at hassigned hallows
      have hp : 0 < p := stored.positive_of_allows hallows
      have hvalue : resumed.assignedPlaylistId = .value p := hassigned
      have hturn := hwrites.turn.pushAssigned cfg hconnected resumed.assignedPlaylistId
      rw [hwrites.sameContent.told, hvalue, told, truthyId_value hp] at hturn
      refine ⟨old, resumed, p, by rw [hresume]; rfl, ?_, hallows, hfrom, hvalue, hnull⟩
      rw [hvalue]
      exact ⟨hturn.before, hturn.after, hturn.outbox⟩

theorem sameFor_autoResume (hne : clientId ≠ id) (h : s.autoResume cfg id now = some t) :
    SameFor clientId s t := by
  obtain ⟨-, ⟨-, rfl⟩ | ⟨resumed, u, hresume, rfl⟩⟩ := autoResume_spec h
  · exact sameFor_deleteTimer hne
  · obtain ⟨old, hwrites, -⟩ := resume_spec hresume
    exact ((sameFor_deleteTimer hne).trans (hwrites.sameFor hne)).trans
      (sameFor_pushAssigned cfg _ hne)

/-! ### The others -/

theorem sameFor_resolveAndPush (hne : clientId ≠ id) (h : s.resolveAndPush cfg id now = some t) :
    SameFor clientId s t := by
  obtain ⟨old, new, u, hwrites, -, -, -, rfl⟩ := resolveAndPush_spec h
  exact (hwrites.sameFor hne).trans (sameFor_pushAssigned cfg _ hne)

theorem sameFor_of_lists (lists : List ClientPlaylist) (hne : clientId ≠ id)
    (h : resolveAndPush cfg { s with clientPlaylists := lists } id now = some t) :
    SameFor clientId s t := by
  have hsame := @sameFor_resolveAndPush cfg { s with clientPlaylists := lists } t id clientId now
    hne h
  exact ⟨hsame.row, hsame.outbox, hsame.timer, hsame.lastChange⟩

theorem sameFor_dispatchSchedule {schedule : Schedule} (notMem : clientId ∉ s.targets schedule)
    (h : s.dispatchSchedule cfg schedule now = some t) : SameFor clientId s t := by
  unfold dispatchSchedule at h
  split at h
  · obtain rfl := Option.some.inj h
    exact sameFor_interruptTargets notMem
  · unfold targets at notMem
    split at h
    next id hid =>
      have hne : clientId ≠ id := by simpa [hid] using notMem
      exact sameFor_assignAndPush hne h
    next hnone =>
      simp only [hnone] at notMem
      split at h
      next n hgroup =>
        simp only [hgroup] at notMem
        obtain ⟨u, hassign, rfl⟩ := Option.map_eq_some_iff.mp h
        have hmembers := mt (frame_assignAll hassign).mem_getGroupMembers.mp notMem
        exact (sameFor_assignAll notMem hassign).trans (sameFor_pushAll cfg _ hmembers)
      next hgroup =>
        refine (keeps_assignAndPush ?_ h).1
        split at notMem
        next n heq => exact absurd heq (hgroup n)
        next => exact notMem

/-- **The clients that an operation does not address.** -/
theorem sameFor_step {call : Call} (notMem : clientId ∉ s.addressees call.op)
    (h : step cfg s call = some t) : SameFor clientId s t := by
  obtain ⟨op, now⟩ := call
  cases op with
  | putClient => exact sameFor_putClient (List.ne_of_not_mem_cons notMem) h
  | postClientPlaylist =>
    exact sameFor_of_lists _ (List.ne_of_not_mem_cons notMem) (postClientPlaylist_spec h).2
  | putClientPlaylist =>
    exact sameFor_of_lists _ (List.ne_of_not_mem_cons notMem) (putClientPlaylist_spec h).2
  | deleteClientPlaylist =>
    exact sameFor_of_lists _ (List.ne_of_not_mem_cons notMem) (deleteClientPlaylist_spec h)
  | assignGroup =>
    obtain ⟨u, hassign, rfl⟩ := assignGroup_spec h
    exact (sameFor_assignAll notMem hassign).trans (sameFor_pushAll cfg _ notMem)
  | interrupt => exact sameFor_interruptRoute (List.ne_of_not_mem_cons notMem) h
  | resume => exact sameFor_resumeRoute (List.ne_of_not_mem_cons notMem) h
  | dispatchSchedule => exact sameFor_dispatchSchedule notMem h
  | autoResume => exact sameFor_autoResume (List.ne_of_not_mem_cons notMem) h

/-- A schedule that interrupts its targets, one turn a client. -/
theorem dispatchInterrupt_turn {schedule : Schedule} (connected : s.isConnected clientId = true)
    (distinct : (s.server.db.clients.map (·.id)).Nodup)
    (mode : schedule.interruptMode = .interrupt) (mem : clientId ∈ s.targets schedule)
    (known : s.clientStore.allows (.value schedule.playlistId) = true)
    (found : s.row clientId = some old) (h : s.dispatchSchedule cfg schedule now = some t) :
    ∃ new, Turn s t clientId old new [assignedMessage cfg s.server.db schedule.playlistId] ∧
      new.interruptedFromPlaylistId = savedFrom old := by
  rw [dispatchSchedule, if_pos mode] at h
  obtain rfl := Option.some.inj h
  obtain ⟨before, after, hsplit, hbefore, hafter⟩ :=
    split_of_nodup (nodup_targets distinct schedule) mem
  rw [dispatchInterrupt, hsplit, List.foldl_append, List.foldl_cons]
  -- the turns before this client's keep what its own turn reads
  have hcontent : SameContent s
      (before.foldl (fun s id => s.interruptTarget cfg schedule now id) s) :=
    List.foldlRecOn before _ SameContent.refl fun _ same _ _ =>
      same.trans sameContent_interruptTarget
  have hframe : Frame s (before.foldl (fun s id => s.interruptTarget cfg schedule now id) s) :=
    List.foldlRecOn before _ Frame.refl fun _ frame _ _ =>
      frame.trans (frame_interruptTarget cfg schedule)
  have hfirst : SameFor clientId s
      (before.foldl (fun s id => s.interruptTarget cfg schedule now id) s) :=
    sameFor_interruptTargets hbefore
  obtain ⟨new, hturn, hsaved⟩ := @interruptTarget_turn cfg
    (before.foldl (fun s id => s.interruptTarget cfg schedule now id) s) clientId now old schedule
    (by rw [hframe.connected, connected]) (by rw [hframe.allows, known])
    (hfirst.row.trans found)
  rw [hcontent.assignedMessage] at hturn
  exact ⟨new, hturn.between hfirst (sameFor_interruptTargets hafter), hsaved⟩

/-- Without a row, or without the playlist, the targets of a schedule are passed over. -/
theorem sameFor_dispatchInterrupt {schedule : Schedule}
    (mode : schedule.interruptMode = .interrupt)
    (unknown : s.clientStore.allows (.value schedule.playlistId) = false ∨ s.row clientId = none)
    (h : s.dispatchSchedule cfg schedule now = some t) : SameFor clientId s t := by
  rw [dispatchSchedule, if_pos mode] at h
  obtain rfl := Option.some.inj h
  -- every turn keeps the playlists and the rows of the others
  refine (List.foldlRecOn (motive := fun u => Frame s u ∧ SameFor clientId s u) _ _
    ⟨.refl, .refl⟩ fun u keeps id _ => ⟨keeps.1.trans (frame_interruptTarget cfg schedule),
      ?_⟩).2
  by_cases hid : clientId = id
  · subst hid
    have hthrows : u.interrupt clientId schedule.playlistId now = none := by
      by_contra hsome
      obtain ⟨⟨new, v⟩, hinterrupt⟩ := Option.ne_none_iff_exists'.mp hsome
      obtain ⟨old, hwrites, hallows, -⟩ := interrupt_spec hinterrupt
      rcases unknown with hunknown | hnone
      · rw [keeps.1.allows, hunknown] at hallows
        exact Bool.false_ne_true hallows
      · have hold := hwrites.before
        rw [keeps.2.row, hnone] at hold
        exact nomatch hold
    rw [interruptTarget_of_none hthrows]
    exact keeps.2
  · exact keeps.2.trans (sameFor_interruptTarget hid)

/-! ### The saved playlist -/

theorem Turn.hasSaved (turn : Turn s t clientId old new sent) :
    t.HasSaved clientId ↔ new.interruptedFromPlaylistId ≠ .null := by
  simp [HasSaved, turn.after]

theorem Turn.hasSaved_before (turn : Turn s t clientId old new sent) :
    s.HasSaved clientId ↔ old.interruptedFromPlaylistId ≠ .null := by
  simp [HasSaved, turn.before]

theorem Turn.typed (turn : Turn s t clientId old new sent)
    (h : new.interruptedFromPlaylistId ≠ .undefined) : Typed clientId t := by
  intro r hr
  obtain rfl := Option.some.inj (turn.after.symm.trans hr)
  exact h

theorem savedFrom_ne_undefined (h : old.interruptedFromPlaylistId ≠ .undefined) :
    savedFrom old ≠ .undefined := by
  unfold savedFrom
  cases (old.interruptedFromPlaylistId.coalesce old.assignedPlaylistId) with
  | undefined => exact h
  | null => exact nofun
  | value p => exact nofun

/-- Something is saved by an interrupt when something was, or there was a playlist. -/
theorem savedFrom_ne_null (h : old.interruptedFromPlaylistId ≠ .undefined) :
    savedFrom old ≠ .null ↔
      old.interruptedFromPlaylistId ≠ .null ∨ old.assignedPlaylistId.toOption ≠ none := by
  unfold savedFrom
  cases hfrom : old.interruptedFromPlaylistId with
  | undefined => exact absurd hfrom h
  | value p => simp [Field.coalesce, Field.orKeep]
  | null =>
    cases old.assignedPlaylistId <;>
      simp [Field.coalesce, Field.orKeep, Field.toOption]

theorem assigns_of_mem {op : Operation} (mem : clientId ∈ s.addressees op)
    (assigning : op.Assigning) : ∃ playlist, s.assigns clientId op = some playlist := by
  cases op with
  | interrupt => exact assigning.elim
  | resume => exact assigning.elim
  | autoResume => exact assigning.elim
  | dispatchSchedule schedule => exact ⟨_, if_pos ⟨assigning, mem⟩⟩
  | assignGroup groupId p => exact ⟨_, if_pos mem⟩
  | _ => exact ⟨_, if_pos (List.mem_singleton.mp mem).symm⟩

/-- A client that is assigned a playlist is one of those the operation is about. -/
theorem mem_of_assigns {op : Operation} (assigning : s.assigns clientId op = some playlist) :
    clientId ∈ s.addressees op := by
  cases op with
  | interrupt => exact nomatch assigning
  | resume => exact nomatch assigning
  | autoResume => exact nomatch assigning
  | dispatchSchedule => exact (Option.ite_none_right_eq_some.mp assigning).1.2
  | assignGroup => exact (Option.ite_none_right_eq_some.mp assigning).1
  | _ => exact List.mem_singleton.mpr (Option.ite_none_right_eq_some.mp assigning).1.symm

theorem SameFor.typed (same : SameFor clientId s t) (typed : Typed clientId s) :
    Typed clientId t := by
  intro r hr
  exact typed r (same.row.symm.trans hr)

/-- No operation leaves the column undefined. -/
theorem typed_step {call : Call} (stored : Stored s) (connected : s.isConnected clientId = true)
    (distinct : (s.server.db.clients.map (·.id)).Nodup) (typed : Typed clientId s)
    (h : step cfg s call = some t) : Typed clientId t := by
  by_cases hmem : clientId ∈ s.addressees call.op
  · -- an assignment keeps the column, the others set it
    by_cases hassigning : call.op.Assigning
    · obtain ⟨playlist, hassigns⟩ := assigns_of_mem hmem hassigning
      obtain ⟨-, old, new, hturn, hsaved⟩ := turn_of_assigns stored connected distinct hassigns h
      exact hturn.typed (by rw [hsaved]; exact typed old hturn.before)
    · obtain ⟨op, now⟩ := call
      cases op with
      | interrupt id p =>
        obtain rfl := List.mem_singleton.mp hmem
        obtain ⟨old, new, name, items, previous, hturn, hsaved⟩ := interruptRoute_turn connected h
        exact hturn.typed (hsaved ▸ savedFrom_ne_undefined (typed old hturn.before))
      | resume id =>
        obtain rfl := List.mem_singleton.mp hmem
        obtain ⟨old, new, p, name, items, hturn, -, -, hnull⟩ :=
          resumeRoute_turn stored connected typed h
        exact hturn.typed (by rw [hnull]; exact nofun)
      | autoResume id =>
        obtain rfl := List.mem_singleton.mp hmem
        rcases autoResume_turn stored connected typed h with ⟨-, hrow, -⟩ | hresumed
        · intro r hr
          exact typed r (hrow.symm.trans hr)
        · obtain ⟨old, new, p, -, hturn, -, -, -, hnull⟩ := hresumed
          exact hturn.typed (by rw [hnull]; exact nofun)
      | dispatchSchedule schedule =>
        have hmode : schedule.interruptMode = .interrupt := not_not.mp hassigning
        cases hknown : s.clientStore.allows (.value schedule.playlistId) with
        | false => exact (sameFor_dispatchInterrupt hmode (.inl hknown) h).typed typed
        | true =>
          cases hfound : s.row clientId with
          | none => exact (sameFor_dispatchInterrupt hmode (.inr hfound) h).typed typed
          | some old =>
            obtain ⟨new, hturn, hsaved⟩ :=
              dispatchInterrupt_turn connected distinct hmode hmem hknown hfound h
            exact hturn.typed (hsaved ▸ savedFrom_ne_undefined (typed old hfound))
      | _ => exact absurd trivial hassigning
  · exact (sameFor_step hmem h).typed typed

end

end AssignmentState

end Montr.Server
