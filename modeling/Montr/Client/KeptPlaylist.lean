import Montr.Client.PlaylistDedupe

namespace Montr.Client

/-!
# What keeps the playlist of the player

Playback events, remote commands and the answers to downloads move the queue and leave its items:
a playlist comes with a message of the server that carries one, or with the tasks that run while
the player is offline.
-/

/-- A message of the server with a playlist, which comes on the socket only. -/
def carriesPlaylist : CoordinatorMessage → Bool
  | .serverMessage (.playlistAssigned _) => true
  | .serverMessage (.playlistUpdated _) => true
  | .serverMessage (.playlistInterrupt _) => true
  | .serverMessage (.playlistResume _) => true
  | _ => false

/-- A message of the tasks that run while the player is offline. -/
def isOffline : CoordinatorMessage → Bool
  | .tryOfflineRestore => true
  | .offlineScheduleSwitch _ => true
  | _ => false

theorem SamePlaylist.trans {s t u : AppState} (first : SamePlaylist s t)
    (second : SamePlaylist t u) : SamePlaylist s u :=
  ⟨second.playlistId.trans first.playlistId, second.items.trans first.items,
    second.loopEnabled.trans first.loopEnabled, second.interruptStack.trans first.interruptStack⟩

theorem samePlaylist_previousItem (s : AppState) : SamePlaylist s s.previousItem.1 := by
  have hqueue : s.queue.previous.1.items = s.queue.items ∧
      s.queue.previous.1.loopEnabled = s.queue.loopEnabled := by
    unfold PlaylistQueue.previous
    split <;> exact ⟨rfl, rfl⟩
  unfold AppState.previousItem
  cases hprevious : s.queue.previous with
  | mk queue found =>
    rw [hprevious] at hqueue
    cases found <;> exact ⟨rfl, hqueue.1, hqueue.2, rfl⟩

namespace Coordinator

section

variable (c : Coordinator) (io : HandlerIO)

theorem samePlaylist_endAnalyticsSession (completed : Bool) :
    SamePlaylist c.state (c.endAnalyticsSession completed).state := by
  rw [endAnalyticsSession_state]
  exact .refl _

theorem samePlaylist_playMoved {moved : AppState × Option PlaylistItem}
    (same : SamePlaylist c.state moved.1) : SamePlaylist c.state (c.playMoved moved io).state := by
  unfold playMoved
  dsimp only
  split
  · rw [(playMedia_spec _ _ io).1]
    exact same
  · exact same

theorem samePlaylist_handleCommand (cmd : ServerCommand) :
    SamePlaylist c.state (c.handleCommand cmd io).state := by
  cases cmd with
  | reloadPlaylist =>
    have hreset : SamePlaylist c.state c.state.resetQueue := ⟨rfl, rfl, rfl, rfl⟩
    exact hreset.trans (samePlaylist_startPlayback { c with state := c.state.resetQueue } io)
  | pause => exact ⟨rfl, rfl, rfl, rfl⟩
  | resume => exact ⟨rfl, rfl, rfl, rfl⟩
  | skip =>
    exact (c.samePlaylist_endAnalyticsSession false).trans
      (samePlaylist_playMoved _ io (samePlaylist_nextItem _))
  | previous =>
    exact (c.samePlaylist_endAnalyticsSession false).trans
      (samePlaylist_playMoved _ io (samePlaylist_previousItem _))
  | volume level => cases level <;> exact ⟨rfl, rfl, rfl, rfl⟩
  | seek position => cases position <;> exact ⟨rfl, rfl, rfl, rfl⟩
  | other => exact .refl _

theorem samePlaylist_handlePlaybackEvent (event : PlaybackEventMessage) :
    SamePlaylist c.state (c.handlePlaybackEvent event io).state := by
  cases event with
  | mediaFinished id =>
    have hended : SamePlaylist c.state
        ({ c with state := c.state.setPlaying false }.endAnalyticsSession true).state := by
      rw [endAnalyticsSession_state]
      exact ⟨rfl, rfl, rfl, rfl⟩
    exact hended.trans (samePlaylist_playMoved _ io (samePlaylist_nextItem _))
  | mediaStarted id => exact ⟨rfl, rfl, rfl, rfl⟩
  | error id text =>
    have herror : SamePlaylist c.state ((c.state.setError (some text)).setPlaying false) :=
      ⟨rfl, rfl, rfl, rfl⟩
    exact herror.trans
      (samePlaylist_playMoved { c with state := (c.state.setError (some text)).setPlaying false } io
        (samePlaylist_nextItem _))
  | positionUpdate position => exact ⟨rfl, rfl, rfl, rfl⟩

/-- Nothing but a playlist message or an offline switch changes the playlist. -/
theorem samePlaylist_handleMessage {message : CoordinatorMessage}
    (noPlaylist : carriesPlaylist message = false) (online : isOffline message = false) :
    SamePlaylist c.state (c.handleMessage message io).state := by
  cases message with
  | serverMessage msg =>
    cases msg with
    | command cmd => exact samePlaylist_handleCommand c io cmd
    | success | errorResponse | scheduleDefinitions => exact .refl _
    | _ => exact absurd noPlaylist (by simp [carriesPlaylist])
  | playbackEvent event => exact samePlaylist_handlePlaybackEvent c io event
  | downloadComplete => exact .refl _
  | tryOfflineRestore => exact absurd online (by simp [isOffline])
  | offlineScheduleSwitch => exact absurd online (by simp [isOffline])

end

end Coordinator

end Montr.Client
