import Montr.Server.AssignmentSpec
import Montr.Server.Registration

namespace Montr.Server

/-!
# What was sent on a socket

Nothing that was sent on a socket is taken back, and an operation on the playlists of clients
touches the connections by sends alone.

* `SentGrows` — on every socket, what was sent is still what was sent first;
* `OnlySends` — the connections after some sends, one after the other;
* `step_onlySends` — one operation that sets a client's playlist.
-/

variable {μ : Type}

/-- What was sent on a socket. -/
def ClientConnectionManager.sentOn (m : ClientConnectionManager μ) (ws : SocketId) : List μ :=
  (m.sockets ws).sent

/-- On every socket more was sent, or nothing. -/
def SentGrows (m n : ClientConnectionManager μ) : Prop := ∀ ws, m.sentOn ws <+: n.sentOn ws

section

variable {m n o : ClientConnectionManager μ} {clientId : String} {ws : SocketId} {message : μ}

open ClientConnectionManager

theorem SentGrows.refl : SentGrows m m := fun _ => List.prefix_refl _

theorem SentGrows.trans (first : SentGrows m n) (second : SentGrows n o) : SentGrows m o :=
  fun ws => (first ws).trans (second ws)

/-- A step that sends nothing. -/
theorem SentGrows.of_eq (h : ∀ ws, n.sentOn ws = m.sentOn ws) : SentGrows m n :=
  fun ws => (h ws).symm ▸ List.prefix_refl (m.sentOn ws)

/-- What a message sent to a client adds to what was sent on a socket. -/
theorem sentOn_sendToClient :
    (m.sendToClient clientId message).1.sentOn ws =
      if m.connections clientId = some ws ∧ m.isOpen ws = true then m.sentOn ws ++ [message]
      else m.sentOn ws := by
  unfold sendToClient
  cases hc : m.connections clientId with
  | none => simp
  | some entry =>
    dsimp only
    by_cases hopen : m.isOpen entry = true
    · rw [if_pos hopen]
      by_cases hws : ws = entry
      · subst hws
        rw [if_pos ⟨rfl, hopen⟩]
        simp [sentOn]
      · rw [if_neg fun h => hws (Option.some.inj h.1).symm]
        simp [sentOn, hws]
    · rw [if_neg hopen, if_neg]
      rintro ⟨heq, hws⟩
      obtain rfl := Option.some.inj heq
      exact hopen hws

theorem sentGrows_sendToClient : SentGrows m (m.sendToClient clientId message).1 := by
  intro ws
  rw [sentOn_sendToClient]
  split
  · exact List.prefix_append _ _
  · exact List.prefix_refl _

theorem sentOn_closeSocket (code : Nat) (reason : String) (ws' : SocketId) :
    (m.closeSocket ws code reason).sentOn ws' = m.sentOn ws' := by
  by_cases h : ws' = ws
  · subst h
    simp [sentOn, closeSocket, ExtendedWebSocket.close]
  · simp [sentOn, closeSocket, h]

theorem sentOn_storeConnection (now : Nat) (ws' : SocketId) :
    (m.storeConnection clientId ws now).sentOn ws' = m.sentOn ws' := by
  by_cases h : ws' = ws
  · subst h
    simp [sentOn, storeConnection]
  · simp [sentOn, storeConnection, h]

theorem sentOn_addConnection (now : Nat) (ws' : SocketId) :
    (m.addConnection clientId ws now).sentOn ws' = m.sentOn ws' := by
  unfold addConnection
  split
  · split
    · split
      · exact sentOn_closeSocket _ _ _
      · rfl
    · dsimp only
      rw [sentOn_storeConnection]
      split
      · exact sentOn_closeSocket _ _ _
      · rfl
  · exact sentOn_storeConnection _ _

theorem sentOn_removeConnection (given : Option SocketId) (ws' : SocketId) :
    (m.removeConnection clientId given).sentOn ws' = m.sentOn ws' := by
  unfold removeConnection
  split
  · rfl
  · split
    · rfl
    · show sentOn (if _ then _ else _) ws' = _
      split
      · exact sentOn_closeSocket _ _ _
      · rfl

theorem sentOn_markClosed (ws' : SocketId) : (m.markClosed ws).sentOn ws' = m.sentOn ws' := by
  by_cases h : ws' = ws
  · subst h
    simp [sentOn, markClosed]
  · simp [sentOn, markClosed, h]

theorem sentOn_handleDisconnection (ws' : SocketId) :
    (m.handleDisconnection ws).sentOn ws' = m.sentOn ws' := by
  unfold handleDisconnection
  split
  · exact sentOn_removeConnection _ _
  · rfl

end

/-! ### Operations that send -/

namespace AssignmentState

/-- The connections are what the sends make of them, in their order. -/
def OnlySends (s t : AssignmentState) : Prop :=
  ∃ sends : List (String × ServerMessage),
    t.server.manager = sends.foldl (fun m x => (m.sendToClient x.1 x.2).1) s.server.manager

section

variable {s t u : AssignmentState} {id now : String} {old new : Client} {playlist : Field Nat}
  {playlistId : Nat} {cfg : ServerConfig}

theorem OnlySends.refl : OnlySends s s := ⟨[], rfl⟩

theorem OnlySends.trans (first : OnlySends s t) (second : OnlySends t u) : OnlySends s u := by
  obtain ⟨before, hbefore⟩ := first
  obtain ⟨after, hafter⟩ := second
  exact ⟨before ++ after, by rw [List.foldl_append, ← hbefore, hafter]⟩

theorem OnlySends.sentGrows (h : OnlySends s t) :
    SentGrows s.server.manager t.server.manager := by
  obtain ⟨sends, hsends⟩ := h
  rw [hsends]
  exact List.foldlRecOn sends _ SentGrows.refl fun _ grows _ _ =>
    grows.trans sentGrows_sendToClient

/-- What writes tables only. -/
theorem OnlySends.of_eq (h : t.server.manager = s.server.manager) : OnlySends s t := ⟨[], h⟩

theorem Writes.onlySends (h : Writes s t id old new) : OnlySends s t :=
  .of_eq (by rw [h.rest])

theorem Updates.onlySends (h : Updates s t id old new) : OnlySends s t :=
  .of_eq (by rw [h.rest])

theorem onlySends_send (message : ServerMessage) : OnlySends s (s.send id message) :=
  ⟨[(id, message)], rfl⟩

theorem onlySends_push : OnlySends s (s.push cfg id playlistId) := by
  unfold push
  split
  · exact onlySends_send _
  · exact .refl

theorem onlySends_pushAssigned : OnlySends s (s.pushAssigned cfg id playlist) := by
  unfold pushAssigned
  split
  · exact onlySends_push
  · exact .refl

theorem onlySends_putClient {name : Option String}
    (h : s.putClient cfg id name playlist now = some t) : OnlySends s t := by
  obtain ⟨old, new, u, hupdates, -, -, -, rfl⟩ := putClient_spec h
  have hcounted : OnlySends s (if playlist = .undefined then u else u.noteChange id) := by
    split
    · exact hupdates.onlySends
    · exact hupdates.writes.onlySends
  cases truthyId playlist with
  | some _ => exact hcounted.trans onlySends_pushAssigned
  | none => exact hcounted

theorem onlySends_resolveAndPush (h : s.resolveAndPush cfg id now = some t) : OnlySends s t := by
  obtain ⟨old, new, u, hwrites, -, -, -, rfl⟩ := resolveAndPush_spec h
  exact hwrites.onlySends.trans onlySends_pushAssigned

theorem onlySends_assignAll {ids : List String} (h : s.assignAll ids playlistId now = some t) :
    OnlySends s t := by
  refine Transition.foldlM_keeps .refl (fun u id v _ sends hturn => ?_) h
  obtain ⟨⟨c, w⟩, hassign, rfl⟩ := Option.map_eq_some_iff.mp hturn
  obtain ⟨old, hwrites, -⟩ := assign_spec hassign
  exact sends.trans hwrites.onlySends

theorem onlySends_pushAll {ids : List String} : OnlySends s (s.pushAll cfg ids playlistId) :=
  List.foldlRecOn ids _ OnlySends.refl fun _ sends _ _ => sends.trans onlySends_push

theorem onlySends_interruptTarget {schedule : Schedule} :
    OnlySends s (s.interruptTarget cfg schedule now id) := by
  unfold interruptTarget
  split
  · exact .refl
  next c t h =>
    obtain ⟨old, hwrites, -⟩ := interrupt_spec h
    have hpush : OnlySends s (t.push cfg id schedule.playlistId) :=
      hwrites.onlySends.trans onlySends_push
    split
    · exact hpush
    · exact hpush

theorem onlySends_assignAndPush (h : s.assignAndPush cfg id playlistId now = some t) :
    OnlySends s t := by
  obtain ⟨⟨c, u⟩, hassign, rfl⟩ := Option.map_eq_some_iff.mp h
  obtain ⟨old, hwrites, -⟩ := assign_spec hassign
  exact hwrites.onlySends.trans onlySends_push

theorem onlySends_dispatchSchedule {schedule : Schedule}
    (h : s.dispatchSchedule cfg schedule now = some t) : OnlySends s t := by
  unfold dispatchSchedule at h
  split at h
  · obtain rfl := Option.some.inj h
    exact List.foldlRecOn _ _ OnlySends.refl fun _ sends _ _ =>
      sends.trans onlySends_interruptTarget
  · split at h
    · exact onlySends_assignAndPush h
    · split at h
      · obtain ⟨u, hassign, rfl⟩ := Option.map_eq_some_iff.mp h
        exact (onlySends_assignAll hassign).trans onlySends_pushAll
      · exact Transition.foldlM_keeps .refl
          (fun _ _ _ _ sends hturn => sends.trans (onlySends_assignAndPush hturn)) h

theorem onlySends_autoResume (h : s.autoResume cfg id now = some t) : OnlySends s t := by
  obtain ⟨-, ⟨-, rfl⟩ | ⟨resumed, u, hresume, rfl⟩⟩ := autoResume_spec h
  · exact .refl
  · obtain ⟨old, hwrites, -⟩ := resume_spec hresume
    have hresumed : OnlySends s u := hwrites.onlySends
    exact hresumed.trans onlySends_pushAssigned

theorem onlySends_interruptRoute (h : s.interruptRoute cfg id playlistId now = some t) :
    OnlySends s t := by
  obtain ⟨⟨c, u⟩, hinterrupt, rfl⟩ := Option.map_eq_some_iff.mp h
  obtain ⟨old, hwrites, -⟩ := interrupt_spec hinterrupt
  show OnlySends s (if u.isConnected id then _ else u)
  unfold sendPlaylistInterrupt
  split
  · split
    · exact hwrites.onlySends.trans (onlySends_send _)
    · exact hwrites.onlySends
  · exact hwrites.onlySends

theorem onlySends_resumeRoute (h : s.resumeRoute cfg id now = some t) : OnlySends s t := by
  unfold resumeRoute at h
  split at h
  · exact absurd h (by simp)
  · obtain ⟨⟨c, u⟩, hresume, rfl⟩ := Option.map_eq_some_iff.mp h
    obtain ⟨old, hwrites, -⟩ := resume_spec hresume
    show OnlySends s (if u.isConnected id then _ else u)
    unfold sendPlaylistResume
    split
    · split
      · split
        · exact hwrites.onlySends.trans (onlySends_send _)
        · exact hwrites.onlySends
      · exact hwrites.onlySends.trans (onlySends_send _)
    · exact hwrites.onlySends

/-- **Sends only.**  An operation that sets a client's playlist touches the connections by sends
    alone: one case per operation. -/
theorem step_onlySends {call : Call} (h : step cfg s call = some t) : OnlySends s t := by
  obtain ⟨op, now⟩ := call
  cases op with
  | putClient => exact onlySends_putClient h
  | postClientPlaylist =>
    have hsends := onlySends_resolveAndPush (postClientPlaylist_spec h).2
    exact hsends
  | putClientPlaylist =>
    have hsends := onlySends_resolveAndPush (putClientPlaylist_spec h).2
    exact hsends
  | deleteClientPlaylist =>
    have hsends := onlySends_resolveAndPush (deleteClientPlaylist_spec h)
    exact hsends
  | assignGroup =>
    obtain ⟨u, hassign, rfl⟩ := assignGroup_spec h
    exact (onlySends_assignAll hassign).trans onlySends_pushAll
  | interrupt => exact onlySends_interruptRoute h
  | resume => exact onlySends_resumeRoute h
  | dispatchSchedule => exact onlySends_dispatchSchedule h
  | autoResume => exact onlySends_autoResume h

end

end AssignmentState

end Montr.Server
