import Montr.Server.AssignmentSpec

namespace Montr.Server

open Transition

/-!
# What a connected client is told about its playlist

Each operation writes the row and sends its own message, and `Propagated` says that the last
message of a client and its row agree.  A step keeps this except where it takes a playlist away
without a word (`Silences`); `propagated_iff` says so for every run.
-/

/-- The playlist a message names: `none` when it is not about an assignment, `some none` when it
    says that there is no playlist. -/
def ServerMessage.named? : ServerMessage → Option (Option Nat)
  | .playlistAssigned playlistId _ _ _ => some (some playlistId)
  | .playlistInterrupt playlistId _ _ _ _ => some (some playlistId)
  | .playlistResume playlistId _ _ _ => some playlistId.toOption
  | .playlistUpdated .. => none
  | .errorResponse _ => none

namespace AssignmentState

/-- What the last message about an assignment named. -/
def lastNamed (s : AssignmentState) (clientId : String) : Option (Option Nat) :=
  ((s.outbox clientId).filterMap ServerMessage.named?).getLast?

/-- **The assignment is propagated**: the last message names the playlist of the row, and says "no
    playlist" (or nothing was ever sent) when the row has none. -/
def Propagated (clientId : String) (s : AssignmentState) : Prop :=
  (s.lastNamed clientId).join = s.assignedTo clientId

/-- An operation that takes the playlist of a client away, or says that it did, unnoticed: a `PUT`
    of `null`, the removal of the last playlist of its list, and a resume of a row whose saved
    playlist is absent. -/
def Silences (clientId : String) (s : AssignmentState) (call : Call) : Prop :=
  s.assignedTo clientId ≠ none ∧
    match call.op with
    | .putClient id _ assigned => id = clientId ∧ assigned = .null
    | .deleteClientPlaylist id playlistId =>
      id = clientId ∧ (s.withoutClientPlaylist id playlistId).getClientPlaylists id = []
    | .resume id =>
      id = clientId ∧ (s.row id).map Client.interruptedFromPlaylistId = some .undefined
    | _ => False

/-- What the schema promises: ids are positive and the lists name playlists that exist. -/
structure Stored (s : AssignmentState) : Prop where
  positive : ∀ playlist ∈ s.server.db.playlists, 0 < playlist.id
  references : ∀ r ∈ s.clientPlaylists,
    (s.clientStore.getPlaylistById r.playlistId).isSome = true

/-- The client has the playlist and was told so last. -/
structure Shows (clientId : String) (playlistId : Nat) (s : AssignmentState) : Prop where
  assigned : s.assignedTo clientId = some playlistId
  named : s.lastNamed clientId = some (some playlistId)

section

variable {cfg : ServerConfig} {s t u : AssignmentState} {id clientId now : String}
  {playlistId : Nat} {message : ServerMessage} {named : Option Nat}

theorem Shows.propagated (h : Shows clientId playlistId s) : Propagated clientId s := by
  rw [Propagated, h.named, h.assigned, Option.join_some]

/-- Agreement depends on the row and the messages of the client alone. -/
theorem Propagated.of_same (h : Propagated clientId s)
    (assigned : t.assignedTo clientId = s.assignedTo clientId)
    (outbox : t.outbox clientId = s.outbox clientId) : Propagated clientId t := by
  rw [Propagated, lastNamed, outbox, assigned]
  exact h

theorem SameFor.propagated (same : SameFor clientId s t) (h : Propagated clientId s) :
    Propagated clientId t :=
  h.of_same same.assignedTo same.outbox

theorem SameFor.shows (same : SameFor clientId s t) (h : Shows clientId playlistId s) :
    Shows clientId playlistId t :=
  ⟨same.assignedTo.trans h.assigned, by rw [lastNamed, same.outbox]; exact h.named⟩

/-! ### What a message does -/

theorem lastNamed_send (connected : s.isConnected id = true)
    (hnamed : message.named? = some named) : (s.send id message).lastNamed id = some named := by
  simp [lastNamed, send_outbox_self s id message connected, hnamed]

theorem assignedTo_send : (s.send id message).assignedTo clientId = s.assignedTo clientId := rfl

/-- A playlist of the table is found under its own id. -/
theorem find_of_allows (h : s.clientStore.allows (.value playlistId) = true) :
    ∃ playlist, s.server.db.playlists.find? (·.id == playlistId) = some playlist ∧
      playlist.id = playlistId := by
  obtain ⟨playlist, hfind⟩ := Option.isSome_iff_exists.mp h
  exact ⟨playlist, hfind, by simpa using List.find?_some hfind⟩

/-- `sendPlaylistToClient` names a playlist that exists. -/
theorem named_assignedMessage (h : s.clientStore.allows (.value playlistId) = true) :
    (assignedMessage cfg s.server.db playlistId).named? = some (some playlistId) := by
  obtain ⟨playlist, hfind, rfl⟩ := find_of_allows h
  simp [assignedMessage, hfind, ServerMessage.named?]

theorem Shows.push (assigned : s.assignedTo id = some playlistId)
    (connected : s.isConnected id = true)
    (known : s.clientStore.allows (.value playlistId) = true) :
    Shows id playlistId (s.push cfg id playlistId) := by
  rw [AssignmentState.push, if_pos connected]
  exact ⟨assigned, lastNamed_send connected (named_assignedMessage known)⟩

theorem truthyId_value (h : 0 < playlistId) :
    truthyId (.value playlistId) = some playlistId := by
  cases playlistId with
  | zero => exact absurd h (by omega)
  | succ n => rfl

theorem Stored.positive_of_allows (stored : Stored s)
    (h : s.clientStore.allows (.value playlistId) = true) : 0 < playlistId := by
  obtain ⟨playlist, hfind, rfl⟩ := find_of_allows h
  exact stored.positive playlist (List.mem_of_find?_eq_some hfind)

theorem Shows.pushAssigned (assigned : s.assignedTo id = some playlistId)
    (connected : s.isConnected id = true)
    (known : s.clientStore.allows (.value playlistId) = true) (positive : 0 < playlistId) :
    Shows id playlistId (s.pushAssigned cfg id (.value playlistId)) := by
  rw [AssignmentState.pushAssigned, truthyId_value positive]
  exact Shows.push assigned connected known

/-- Sending the playlist of the row again changes nothing that matters. -/
theorem Propagated.pushAssigned {playlist : Field Nat} (h : Propagated id s)
    (assigned : s.assignedTo id = playlist.toOption) (connected : s.isConnected id = true) :
    Propagated id (s.pushAssigned cfg id playlist) := by
  unfold AssignmentState.pushAssigned
  split
  next p hp =>
    obtain rfl : playlist = .value p := by
      cases playlist with
      | value n => cases n <;> simp_all [truthyId]
      | null => simp [truthyId] at hp
      | undefined => simp [truthyId] at hp
    by_cases known : s.clientStore.allows (.value p) = true
    · exact (Shows.push assigned connected known).propagated
    · -- an error message names nothing
      have hmissing : s.server.db.playlists.find? (·.id == p) = none :=
        Option.not_isSome_iff_eq_none.mp known
      rw [AssignmentState.push, if_pos connected]
      unfold Propagated AssignmentState.sendPlaylistToClient
      rw [assignedTo_send, lastNamed, send_outbox_self s id _ connected, assignedMessage,
        hmissing, List.filterMap_append]
      show (List.getLast? (_ ++ [])).join = _
      rw [List.append_nil]
      exact h
  next => exact h

/-! ### The routes -/

/-- A write that sets a playlist, and the message about it. -/
theorem Writes.shows_pushAssigned {old new : Client} {p : Nat} (stored : Stored s)
    (connected : s.isConnected id = true) (h : Writes s t id old new)
    (assigned : new.assignedPlaylistId = .value p)
    (known : s.clientStore.allows (.value p) = true) :
    Shows id p (t.pushAssigned cfg id (.value p)) := by
  have hassigned : t.assignedTo id = some p := by rw [h.assignedTo, assigned]; rfl
  have hconnected : t.isConnected id = true := by rw [h.frame.connected, connected]
  have hknown : t.clientStore.allows (.value p) = true := by rw [h.frame.allows, known]
  exact Shows.pushAssigned hassigned hconnected hknown (stored.positive_of_allows known)

/-- A client whose list of playlists is resolved. -/
theorem propagated_resolveAndPush (stored : Stored s) (connected : s.isConnected clientId = true)
    (start : Propagated clientId s) (h : s.resolveAndPush cfg id now = some t) :
    Propagated clientId t ↔
      ¬ (s.assignedTo clientId ≠ none ∧ id = clientId ∧ s.getClientPlaylists id = []) := by
  obtain ⟨old, new, u, hwrites, hallows, hassigned, -, rfl⟩ := resolveAndPush_spec h
  by_cases hid : clientId = id
  · subst hid
    cases hlist : s.getClientPlaylists clientId with
    | nil =>
      -- nothing is left and nothing is sent
      have hactive : s.activePlaylist clientId = .null := by rw [activePlaylist, hlist]
      rw [hactive] at hassigned ⊢
      have hnone : u.assignedTo clientId = none := by rw [hwrites.assignedTo, hassigned]; rfl
      have hlast : u.lastNamed clientId = s.lastNamed clientId := by
        rw [lastNamed, hwrites.outbox, lastNamed]
      show Propagated clientId u ↔ _
      rw [Propagated, hnone, hlast, start]
      simp
    | cons r rest =>
      have hactive : s.activePlaylist clientId = .value r.playlistId := by
        rw [activePlaylist, hlist]
      rw [hactive] at hassigned hallows ⊢
      have hshows : Shows clientId r.playlistId
          (u.pushAssigned cfg clientId (.value r.playlistId)) :=
        hwrites.shows_pushAssigned stored connected hassigned hallows
      simp [hshows.propagated]
  · have hsame := (hwrites.sameFor hid).trans
      (sameFor_pushAssigned cfg (s.activePlaylist id) hid)
    simp [hsame.propagated start, Ne.symm hid]

theorem propagated_putClient {name : Option String} {playlist : Field Nat} (stored : Stored s)
    (connected : s.isConnected clientId = true) (start : Propagated clientId s)
    (h : s.putClient cfg id name playlist now = some t) :
    Propagated clientId t ↔
      ¬ (s.assignedTo clientId ≠ none ∧ id = clientId ∧ playlist = .null) := by
  by_cases hid : clientId = id
  · obtain ⟨old, new, u, hupdates, hallows, hassigned, -, rfl⟩ := putClient_spec h
    subst hid
    have hwrites := hupdates.writes
    cases playlist with
    | undefined =>
      -- only the name is set
      have hsame : u.assignedTo clientId = s.assignedTo clientId := by
        rw [assignedTo, hupdates.after, assignedTo, hupdates.before]
        exact congrArg Field.toOption hassigned
      have hkeep : Propagated clientId u := start.of_same hsame (by rw [hupdates.rest])
      simpa [truthyId] using hkeep
    | null =>
      have hnone : u.assignedTo clientId = none := by
        rw [assignedTo, hupdates.after, Option.bind_some, hassigned]
        rfl
      have hlast : u.lastNamed clientId = s.lastNamed clientId := by
        rw [lastNamed, show u.outbox = s.outbox by rw [hupdates.rest], lastNamed]
      show Propagated clientId u ↔ _
      rw [Propagated, hnone, hlast, start]
      simp
    | value p =>
      have hp := stored.positive_of_allows hallows
      have hnew : new.assignedPlaylistId = .value p := hassigned
      have hshows : Shows clientId p
          ((u.noteChange clientId).pushAssigned cfg clientId (.value p)) :=
        hwrites.shows_pushAssigned stored connected hnew hallows
      simp only [truthyId_value hp, hnew]
      simpa using hshows.propagated
  · -- another client
    have hsame := sameFor_putClient hid h
    simp [hsame.propagated start, Ne.symm hid]

/-- A write of another client's row, or of this client's with its message. -/
theorem propagated_of_turn {old new : Client} {p : Nat} (connected : s.isConnected clientId = true)
    (start : Propagated clientId s) (h : Writes s t id old new)
    (assigned : new.assignedPlaylistId = .value p)
    (known : s.clientStore.allows (.value p) = true) :
    Propagated clientId (t.push cfg id p) := by
  by_cases hid : clientId = id
  · subst hid
    refine (Shows.push ?_ ?_ ?_).propagated
    · rw [h.assignedTo, assigned]
      rfl
    · rw [h.frame.connected, connected]
    · rw [h.frame.allows, known]
  · exact ((h.sameFor hid).trans (sameFor_push cfg _ hid)).propagated start

theorem propagated_interruptRoute (connected : s.isConnected clientId = true)
    (start : Propagated clientId s) (h : s.interruptRoute cfg id playlistId now = some t) :
    Propagated clientId t := by
  obtain ⟨⟨new, u⟩, hinterrupt, rfl⟩ := Option.map_eq_some_iff.mp h
  obtain ⟨old, hwrites, hallows, hassigned, -⟩ := interrupt_spec hinterrupt
  by_cases hid : clientId = id
  · subst hid
    have hconnected : u.isConnected clientId = true := by rw [hwrites.frame.connected, connected]
    obtain ⟨playlist, hfind, rfl⟩ := find_of_allows (s := u)
      (by rw [hwrites.frame.allows, hallows])
    show Propagated clientId (if u.isConnected clientId = true then _ else u)
    rw [if_pos hconnected, sendPlaylistInterrupt, hfind]
    refine Shows.propagated ⟨?_, lastNamed_send hconnected rfl⟩
    rw [assignedTo_send, hwrites.assignedTo, hassigned]
    rfl
  · refine SameFor.propagated ((hwrites.sameFor hid).trans ?_) start
    show SameFor clientId u (if u.isConnected id = true then _ else u)
    split
    · unfold sendPlaylistInterrupt
      split
      · exact sameFor_send _ hid
      · exact .refl
    · exact .refl

theorem sameFor_sendPlaylistResume {playlist : Field Nat} (hne : clientId ≠ id) :
    SameFor clientId s (s.sendPlaylistResume cfg id playlist) := by
  unfold sendPlaylistResume
  split
  · split
    · exact sameFor_send _ hne
    · exact .refl
  · exact sameFor_send _ hne

theorem propagated_resumeRoute (stored : Stored s) (connected : s.isConnected clientId = true)
    (start : Propagated clientId s) (h : s.resumeRoute cfg id now = some t) :
    Propagated clientId t ↔
      ¬ (s.assignedTo clientId ≠ none ∧ id = clientId ∧
        (s.row id).map Client.interruptedFromPlaylistId = some .undefined) := by
  unfold resumeRoute at h
  split at h
  · exact absurd h (by simp)
  next previous hprevious =>
    obtain ⟨⟨new, u⟩, hresume, rfl⟩ := Option.map_eq_some_iff.mp h
    obtain ⟨old, hwrites, hsaved, hallows, hassigned, -⟩ := resume_spec hresume
    obtain rfl : previous = old := Option.some.inj (hprevious.symm.trans hwrites.before)
    by_cases hid : clientId = id
    · subst hid
      have hconnected : u.isConnected clientId = true := by
        rw [hwrites.frame.connected, connected]
      show Propagated clientId (if u.isConnected clientId = true then _ else u) ↔ _
      rw [if_pos hconnected, hwrites.before, Option.map_some]
      cases hfrom : previous.interruptedFromPlaylistId with
      | null => exact absurd hfrom hsaved
      | undefined =>
        -- the row keeps its playlist and the message says that there is none
        rw [hfrom] at hassigned
        have hrow : u.assignedTo clientId = s.assignedTo clientId := by
          rw [hwrites.assignedTo, hwrites.assignedTo_before, hassigned]
          rfl
        show Propagated clientId (u.send clientId (.playlistResume .undefined none true [])) ↔ _
        rw [Propagated, lastNamed_send hconnected rfl, assignedTo_send, hrow]
        cases s.assignedTo clientId <;> simp [Field.toOption]
      | value p =>
        rw [hfrom] at hassigned hallows
        have hp := stored.positive_of_allows hallows
        obtain ⟨playlist, hfind, rfl⟩ := find_of_allows (s := u)
          (by rw [hwrites.frame.allows, hallows])
        rw [sendPlaylistResume, truthyId_value hp]
        simp only [hfind]
        have hshows : Propagated clientId (u.send clientId (.playlistResume (.value playlist.id)
            (some playlist.name) true (listing cfg u.server.db playlist.id))) := by
          refine Shows.propagated ⟨?_, lastNamed_send hconnected rfl⟩
          rw [assignedTo_send, hwrites.assignedTo, hassigned]
          rfl
        simp [hshows]
    · have hsame : SameFor clientId s (if u.isConnected id = true then
          u.sendPlaylistResume cfg id previous.interruptedFromPlaylistId else u) := by
        refine (hwrites.sameFor hid).trans ?_
        split
        · exact sameFor_sendPlaylistResume hid
        · exact .refl
      simp [hsame.propagated start, Ne.symm hid]

/-! ### Groups and schedules -/

/-- The loop that only sends: a connected client of the list that has the playlist is told. -/
theorem shows_pushAll {ids : List String} (mem : clientId ∈ ids)
    (assigned : s.assignedTo clientId = some playlistId)
    (connected : s.isConnected clientId = true)
    (known : s.clientStore.allows (.value playlistId) = true) :
    Shows clientId playlistId (s.pushAll cfg ids playlistId) := by
  induction ids generalizing s with
  | nil => exact absurd mem List.not_mem_nil
  | cons id rest ih =>
    have hframe := frame_push cfg s id playlistId
    show Shows clientId playlistId ((s.push cfg id playlistId).pushAll cfg rest playlistId)
    by_cases hrest : clientId ∈ rest
    · refine ih hrest ?_ (by rw [hframe.connected, connected]) (by rw [hframe.allows, known])
      unfold AssignmentState.push
      split <;> exact assigned
    · -- this is its last turn
      obtain rfl : clientId = id := (List.mem_cons.mp mem).resolve_right hrest
      exact (sameFor_pushAll cfg playlistId hrest).shows (Shows.push assigned connected known)

/-- All rows first, then all messages, over lists with the same members. -/
theorem propagated_assignAll_pushAll {ids ids' : List String}
    (connected : s.isConnected clientId = true) (start : Propagated clientId s)
    (members : clientId ∈ ids' ↔ clientId ∈ ids)
    (h : s.assignAll ids playlistId now = some t) :
    Propagated clientId (t.pushAll cfg ids' playlistId) := by
  by_cases hmem : clientId ∈ ids
  · obtain ⟨hassigned, hknown⟩ := assignedTo_assignAll hmem h
    have hconnected : t.isConnected clientId = true := by
      rw [(frame_assignAll h).connected, connected]
    exact (shows_pushAll (members.mpr hmem) hassigned hconnected hknown).propagated
  · have hsame := (sameFor_assignAll hmem h).trans
      (sameFor_pushAll cfg playlistId fun h' => hmem (members.mp h'))
    exact hsame.propagated start

theorem propagated_assignAndPush (connected : s.isConnected clientId = true)
    (start : Propagated clientId s) (h : s.assignAndPush cfg id playlistId now = some t) :
    Propagated clientId t := by
  obtain ⟨⟨new, u⟩, hassign, rfl⟩ := Option.map_eq_some_iff.mp h
  obtain ⟨old, hwrites, hallows, hassigned, -⟩ := assign_spec hassign
  exact propagated_of_turn connected start hwrites hassigned hallows

theorem propagated_interruptTarget {schedule : Schedule}
    (connected : s.isConnected clientId = true) (start : Propagated clientId s) :
    Propagated clientId (s.interruptTarget cfg schedule now id) := by
  unfold interruptTarget
  split
  · exact start
  next new u hinterrupt =>
    obtain ⟨old, hwrites, hallows, hassigned, -⟩ := interrupt_spec hinterrupt
    have hturn : Propagated clientId (u.push cfg id schedule.playlistId) :=
      propagated_of_turn connected start hwrites hassigned hallows
    split
    · exact hturn
    · exact hturn

theorem propagated_dispatchSchedule {schedule : Schedule}
    (connected : s.isConnected clientId = true) (start : Propagated clientId s)
    (h : s.dispatchSchedule cfg schedule now = some t) : Propagated clientId t := by
  unfold dispatchSchedule at h
  split at h
  · obtain rfl := Option.some.inj h
    refine (List.foldlRecOn (motive := fun u => u.isConnected clientId = true ∧
      Propagated clientId u) _ _ ⟨connected, start⟩ fun u hu id _ => ?_).2
    refine ⟨?_, propagated_interruptTarget hu.1 hu.2⟩
    rw [(frame_interruptTarget cfg schedule).connected, hu.1]
  · split at h
    · exact propagated_assignAndPush connected start h
    · split at h
      · obtain ⟨u, hassign, rfl⟩ := Option.map_eq_some_iff.mp h
        exact propagated_assignAll_pushAll connected start
          (frame_assignAll hassign).mem_getGroupMembers hassign
      · refine (foldlM_keeps (P := fun u => u.isConnected clientId = true ∧
          Propagated clientId u) ⟨connected, start⟩ (fun u id v _ hu hturn => ?_) h).2
        refine ⟨?_, propagated_assignAndPush hu.1 hu.2 hturn⟩
        rw [(frame_assignAndPush hturn).connected, hu.1]

theorem propagated_autoResume (stored : Stored s) (connected : s.isConnected clientId = true)
    (start : Propagated clientId s) (h : s.autoResume cfg id now = some t) :
    Propagated clientId t := by
  obtain ⟨-, ⟨-, rfl⟩ | ⟨resumed, u, hresume, rfl⟩⟩ := autoResume_spec h
  · exact start
  · obtain ⟨old, hwrites, hsaved, hallows, hassigned, -⟩ := resume_spec hresume
    by_cases hid : clientId = id
    · subst hid
      cases hfrom : old.interruptedFromPlaylistId with
      | null => exact absurd hfrom hsaved
      | undefined =>
        -- the row keeps its playlist, which is sent again
        rw [hfrom] at hassigned
        have hrow : u.assignedTo clientId = s.assignedTo clientId := by
          rw [hwrites.assignedTo, hassigned]
          exact hwrites.assignedTo_before.symm
        have hkeep : Propagated clientId u :=
          start.of_same hrow (congrFun hwrites.outbox clientId)
        refine hkeep.pushAssigned hwrites.assignedTo ?_
        rw [hwrites.frame.connected]
        exact connected
      | value p =>
        rw [hfrom] at hassigned hallows
        rw [show resumed.assignedPlaylistId = .value p from hassigned]
        have hstored : Stored (s.deleteTimer clientId) := ⟨stored.positive, stored.references⟩
        exact (hwrites.shows_pushAssigned hstored connected hassigned hallows).propagated
    · have hsame := ((sameFor_deleteTimer (s := s) hid).trans (hwrites.sameFor hid)).trans
        (sameFor_pushAssigned cfg resumed.assignedPlaylistId hid)
      exact hsame.propagated start

/-! ### One operation, and a run -/

theorem Frame.stored (frame : Frame s t) (stored : Stored s) : Stored t where
  positive := by
    rw [frame.playlists]
    exact stored.positive
  references := by
    intro r hr
    have hknown := stored.references r (frame.lists ▸ hr)
    exact (frame.allows (.value r.playlistId)).trans hknown

theorem Stored.append (stored : Stored s) {priority : Nat}
    (known : s.clientStore.allows (.value playlistId) = true) :
    Stored { s with clientPlaylists := s.clientPlaylists ++ [⟨id, playlistId, priority⟩] } := by
  refine ⟨stored.positive, fun r hr => ?_⟩
  rcases List.mem_append.mp hr with hr | hr
  · exact stored.references r hr
  · obtain rfl := List.mem_singleton.mp hr
    exact known

theorem Stored.withPriority (stored : Stored s) (priority : Nat) :
    Stored (s.withPriority id playlistId priority) := by
  refine ⟨stored.positive, fun r hr => ?_⟩
  obtain ⟨r', hr', rfl⟩ := List.mem_map.mp hr
  split <;> exact stored.references r' hr'

theorem Stored.without (stored : Stored s) : Stored (s.withoutClientPlaylist id playlistId) :=
  ⟨stored.positive, fun r hr => stored.references r (List.mem_filter.mp hr).1⟩

/-- Every operation keeps what the schema promises, and who is connected. -/
theorem keeps_step {call : Call} (stored : Stored s) (h : step cfg s call = some t) :
    Stored t ∧ ∀ clientId, t.isConnected clientId = s.isConnected clientId := by
  obtain ⟨lists, hframe, hlists⟩ := step_frame h
  refine ⟨hframe.stored ⟨stored.positive, fun r hr => ?_⟩, hframe.connected⟩
  rcases hlists r hr with hknown | ⟨r', hr', heq⟩
  · exact hknown
  · exact heq ▸ stored.references r' hr'

/-- A list with a row whose playlist exists is not empty. -/
theorem getClientPlaylists_ne_nil {r : ClientPlaylist} (hr : r ∈ s.clientPlaylists)
    (own : r.clientId = clientId) (known : s.clientStore.allows (.value r.playlistId) = true) :
    s.getClientPlaylists clientId ≠ [] := by
  intro hnil
  have hmem : r ∈ s.getClientPlaylists clientId := by
    unfold getClientPlaylists
    rw [List.mem_mergeSort, List.mem_filter]
    have hjoined : (s.clientStore.getPlaylistById r.playlistId).isSome = true := known
    exact ⟨hr, by simp [own, hjoined]⟩
  rw [hnil] at hmem
  exact absurd hmem List.not_mem_nil

/-- **Step lemma.** An operation keeps the agreement exactly when it does not take the playlist
    away silently: one case per operation. -/
theorem propagated_step {call : Call} (stored : Stored s)
    (connected : s.isConnected clientId = true) (start : Propagated clientId s)
    (h : step cfg s call = some t) : Propagated clientId t ↔ ¬ Silences clientId s call := by
  obtain ⟨op, now⟩ := call
  cases op with
  | putClient => exact propagated_putClient stored connected start h
  | postClientPlaylist id p priority =>
    obtain ⟨hknown, hresolve⟩ := postClientPlaylist_spec h
    -- the list has the row just added
    have hlist : getClientPlaylists
        { s with clientPlaylists := s.clientPlaylists ++ [⟨id, p, priority⟩] } id ≠ [] :=
      getClientPlaylists_ne_nil (r := ⟨id, p, priority⟩) (by simp) rfl hknown
    have hkeep := propagated_resolveAndPush (stored.append hknown) connected start hresolve
    simpa [Silences, hlist] using hkeep
  | putClientPlaylist id p priority =>
    obtain ⟨⟨r, hr, rfl, rfl⟩, hresolve⟩ := putClientPlaylist_spec h
    -- the list has the row whose priority is set
    have hmem : { r with priority := priority } ∈
        (s.withPriority r.clientId r.playlistId priority).clientPlaylists :=
      List.mem_map.mpr ⟨r, hr, by simp⟩
    have hlist := getClientPlaylists_ne_nil hmem rfl (stored.references r hr)
    have hkeep := propagated_resolveAndPush (stored.withPriority priority) connected start hresolve
    simpa [Silences, hlist] using hkeep
  | deleteClientPlaylist id p =>
    exact propagated_resolveAndPush stored.without connected start (deleteClientPlaylist_spec h)
  | assignGroup =>
    obtain ⟨u, hassign, rfl⟩ := assignGroup_spec h
    simpa [Silences] using propagated_assignAll_pushAll connected start Iff.rfl hassign
  | interrupt => simpa [Silences] using propagated_interruptRoute connected start h
  | resume => exact propagated_resumeRoute stored connected start h
  | dispatchSchedule => simpa [Silences] using propagated_dispatchSchedule connected start h
  | autoResume => simpa [Silences] using propagated_autoResume stored connected start h

end

/-- **Exactly when assignments propagate.**  For every store, every connected client whose row and
    last message agree and every sequence of completed operations: they agree after each of them
    exactly when none silences the client. -/
theorem propagated_iff (cfg : ServerConfig) {s : AssignmentState} {clientId : String}
    {calls : List Call} (stored : Stored s) (connected : s.isConnected clientId = true)
    (start : Propagated clientId s) (completed : (exec (step cfg) s calls).isSome = true) :
    Throughout (step cfg) (Propagated clientId) s calls ↔
      Each (step cfg) (fun s call => ¬ Silences clientId s call) s calls := by
  obtain ⟨t, run⟩ := Option.isSome_iff_exists.mp completed
  have keep : ∀ s call t, Stored s ∧ s.isConnected clientId = true → step cfg s call = some t →
      Stored t ∧ t.isConnected clientId = true := by
    intro s call t inv h
    obtain ⟨hstored, hconnected⟩ := keeps_step inv.1 h
    exact ⟨hstored, (hconnected clientId).trans inv.2⟩
  exact throughout_iff_each keep (fun s call t inv hstart h => propagated_step inv.1 inv.2 hstart h)
    ⟨stored, connected⟩ start run

/-! ### A playlist taken away -/

/-- The player of playlist 1, told so when it registered. -/
def lobbyAssignment : AssignmentState where
  server := ServerState.lobbyServer
  clientPlaylists := [⟨"lobby", 1, 50⟩]
  clientGroups := []
  clientGroupMembers := []
  resumeTimers := fun _ => none
  changes := 0
  lastChange := fun _ => 0
  outbox := fun id => if id = "lobby" then
    [.playlistAssigned 1 "day" true (listing ServerState.lobbyConfig ServerState.lobbyDb 1)] else []

theorem stored_lobbyAssignment : Stored lobbyAssignment := by
  constructor
  · intro playlist h
    obtain rfl := List.mem_singleton.mp h
    exact Nat.one_pos
  · intro r h
    obtain rfl := List.mem_singleton.mp h
    rfl

/-- Assigning the playlist again is announced. -/
theorem propagated_iff_lobby :
    Throughout (step ServerState.lobbyConfig) (Propagated "lobby") lobbyAssignment
        [⟨.putClient "lobby" none (.value 1), "t1"⟩] ↔
      Each (step ServerState.lobbyConfig) (fun s call => ¬ Silences "lobby" s call)
        lobbyAssignment [⟨.putClient "lobby" none (.value 1), "t1"⟩] :=
  propagated_iff ServerState.lobbyConfig stored_lobbyAssignment rfl rfl rfl

/-- **Counterexample.** A `PUT` of `null` takes the playlist from the row; the last message still
    names it. -/
theorem not_propagated_putNull :
    Stored lobbyAssignment ∧ lobbyAssignment.isConnected "lobby" = true ∧
      Propagated "lobby" lobbyAssignment ∧
      ∃ t, exec (step ServerState.lobbyConfig) lobbyAssignment
          [⟨.putClient "lobby" none .null, "t1"⟩] = some t ∧
        t.isConnected "lobby" = true ∧ t.assignedTo "lobby" = none ∧
        t.lastNamed "lobby" = some (some 1) ∧ ¬ Propagated "lobby" t := by
  refine ⟨stored_lobbyAssignment, rfl, rfl, _, rfl, rfl, rfl, rfl, ?_⟩
  intro h
  exact absurd (show some 1 = (none : Option Nat) from h) (by simp)

end AssignmentState

end Montr.Server
