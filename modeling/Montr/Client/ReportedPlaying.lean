import Montr.Client.EngineAhead

namespace Montr.Client

/-!
# Whether the player reports playing

Every message that meets `KeepsPlaying` leaves the flag of the application state equal to whether
the engine ahead plays: one lemma for each handler.
-/

namespace Coordinator

variable {c : Coordinator} {io : HandlerIO} {playing : Bool} {message : CoordinatorMessage}

/-- A message that is not an end starts an item while the flag says whether its file is there. -/
theorem KeepsPlaying.isPlaying_eq (h : c.KeepsPlaying playing message io)
    (hend : message.isEnd = false) {item : PlaylistItem}
    (hitem : c.attempts message io = some item) : c.state.isPlaying = io.available := by
  rw [KeepsPlaying, hitem] at h
  simpa [hend] using h

/-- An end starts only an item whose file is missing. -/
theorem KeepsPlaying.missing_of_isEnd (h : c.KeepsPlaying playing message io)
    (hend : message.isEnd = true) {item : PlaylistItem}
    (hitem : c.attempts message io = some item) : io.available = false := by
  rw [KeepsPlaying, hitem] at h
  simpa [hend] using h.symm

/-- A command sent with the flag that it brings about. -/
theorem send_reportsPlaying {c' : Coordinator} {command : PlaybackCommand}
    (htx : c'.playbackTx = c.playbackTx ++ [command])
    (hflag : command.playingAfter (c.playingAhead playing) = c'.state.isPlaying) :
    c'.ReportsPlaying playing :=
  (playingAhead_concat htx).trans hflag

theorem handleCommand_reportsPlaying {cmd : ServerCommand} (h : c.ReportsPlaying playing)
    (hkeeps : c.KeepsPlaying playing (.serverMessage (.command cmd)) io) :
    (c.handleCommand cmd io).ReportsPlaying playing := by
  cases cmd with
  | reloadPlaylist =>
    exact reset_reportsPlaying h fun item hitem => hkeeps.isPlaying_eq rfl hitem
  | pause => exact send_reportsPlaying (c := c) rfl rfl
  | resume => exact send_reportsPlaying (c := c) rfl rfl
  | skip =>
    refine playMoved_reportsPlaying (AppState.nextItem_isPlaying _) ?_ fun _ =>
      h.endAnalyticsSession false
    intro item hitem
    rw [endAnalyticsSession_state] at hitem ⊢
    exact hkeeps.isPlaying_eq rfl hitem
  | previous =>
    refine playMoved_reportsPlaying (AppState.previousItem_isPlaying _) ?_ fun _ =>
      h.endAnalyticsSession false
    intro item hitem
    rw [endAnalyticsSession_state] at hitem ⊢
    exact hkeeps.isPlaying_eq rfl hitem
  | volume level =>
    cases level with
    | none => exact h
    | some level => exact send_reportsPlaying (c := c) rfl h
  | seek position =>
    cases position with
    | none => exact h
    | some position => exact send_reportsPlaying (c := c) rfl h
  | other command => exact h

/-- A playlist that replaces the current one. -/
theorem replace_reportsPlaying {c' : Coordinator} {items : List PlaylistItem} (playlistId : Nat)
    (loopEnabled : Bool) (htx : c'.playbackTx = c.playbackTx)
    (hflag : c'.state.isPlaying = c.state.isPlaying) (h : c.ReportsPlaying playing)
    (hsome : ∀ item, startsFirst items io = some item → c.state.isPlaying = io.available) :
    ((c'.updatePlaylist playlistId items loopEnabled).downloadAndStart items io).ReportsPlaying
      playing :=
  downloadAndStart_reportsPlaying _ _ _ (fun item hitem => hflag.trans (hsome item hitem))
    ((playingAhead_congr htx).trans (h.trans hflag.symm))

theorem handlePlaylistUpdated_reportsPlaying {msg : PlaylistMessage} (h : c.ReportsPlaying playing)
    (hkeeps : c.KeepsPlaying playing (.serverMessage (.playlistUpdated msg)) io) :
    (c.handlePlaylistUpdated msg io).ReportsPlaying playing := by
  unfold handlePlaylistUpdated
  split
  next => exact h
  next hsame =>
    dsimp only
    split
    next hrestart =>
      obtain ⟨hcurrent, hready⟩ : c.keepsCurrent msg.items = false ∧ 0 < io.ready := by
        simpa using hrestart
      have hattempts := attempts_playlistUpdated io (by simpa using hsame) hcurrent hready
      -- setting the playlist sends nothing and leaves the flag
      have hset : (c.updatePlaylist msg.playlistId msg.items msg.loopPlaylist).ReportsPlaying
          playing := h
      refine startPlayback_reportsPlaying ?_ (fun item hitem => ?_)
        (hset.endAnalyticsSession false)
      · rw [endAnalyticsSession_state]
        rfl
      · rw [endAnalyticsSession_state] at hitem ⊢
        exact hkeeps.isPlaying_eq rfl (hattempts.trans hitem)
    next => exact h

theorem handleServerMessage_reportsPlaying {msg : ServerMessage} (h : c.ReportsPlaying playing)
    (hkeeps : c.KeepsPlaying playing (.serverMessage msg) io) :
    (c.handleServerMessage msg io).ReportsPlaying playing := by
  cases msg with
  | playlistAssigned msg =>
    show (c.handlePlaylistAssigned msg io).ReportsPlaying playing
    unfold handlePlaylistAssigned
    split
    next => exact h
    next hsame =>
      have hattempts := attempts_playlistAssigned io (by simpa using hsame)
      exact replace_reportsPlaying (c := c) _ _ (by simp) (by simp; rfl) h
        fun item hitem => hkeeps.isPlaying_eq rfl (hattempts.trans hitem)
  | playlistUpdated msg => exact handlePlaylistUpdated_reportsPlaying h hkeeps
  | playlistInterrupt msg =>
    exact replace_reportsPlaying (c := c) _ _ (by simp) (by simp) h
      fun item hitem => hkeeps.isPlaying_eq rfl hitem
  | playlistResume msg =>
    show (c.handlePlaylistResume msg io).ReportsPlaying playing
    unfold handlePlaylistResume
    cases hid : msg.playlistId with
    | some playlistId =>
      have hattempts := attempts_playlistResume (c := c) io hid
      exact replace_reportsPlaying (c := c) _ _ (by simp) (by simp; rfl) h
        fun item hitem => hkeeps.isPlaying_eq rfl (hattempts.trans hitem)
    | none =>
      have htx : (c.handlePlaylistResume msg io).playbackTx = c.playbackTx ++ [PlaybackCommand.stop] := by
        simp [handlePlaylistResume, hid, send]
      unfold handlePlaylistResume at htx
      rw [hid] at htx
      exact send_reportsPlaying htx rfl
  | command cmd => exact handleCommand_reportsPlaying h hkeeps
  | success message => exact h
  | errorResponse error => exact h
  | scheduleDefinitions => exact h

/-- The end of an item clears the flag: it must not start another, and the engine ahead must not
    play. -/
theorem advance_reportsPlaying {c' : Coordinator} (htx : c'.playbackTx = c.playbackTx)
    (hflag : c'.state.isPlaying = false) (hqueue : c'.state.queue = c.state.queue)
    (hsome : ∀ item, c.state.nextItem.2 = some item → io.available = false)
    (hnone : c.state.nextItem.2 = none → c.playingAhead playing = false) :
    (c'.playMoved c'.state.nextItem io).ReportsPlaying playing := by
  have hnext : c'.state.nextItem.2 = c.state.nextItem.2 := by
    rw [AppState.nextItem_snd, AppState.nextItem_snd, hqueue]
  refine playMoved_reportsPlaying (AppState.nextItem_isPlaying _) (fun item hitem => ?_)
    fun hitem => ?_
  · rw [hnext] at hitem
    rw [hflag, hsome item hitem]
  · rw [hnext] at hitem
    exact (playingAhead_congr htx).trans ((hnone hitem).trans hflag.symm)

theorem handlePlaybackEvent_reportsPlaying {event : PlaybackEventMessage}
    (h : (CoordinatorMessage.playbackEvent event).isEnd = false → c.ReportsPlaying playing)
    (hkeeps : c.KeepsPlaying playing (.playbackEvent event) io)
    (hbridged : ∀ id, event ≠ .mediaStarted id) :
    (c.handlePlaybackEvent event io).ReportsPlaying playing := by
  have hnone : (CoordinatorMessage.playbackEvent event).isEnd = true →
      c.attempts (.playbackEvent event) io = none → c.playingAhead playing = false := by
    intro hend hitem
    rw [KeepsPlaying, hitem] at hkeeps
    exact hkeeps hend
  cases event with
  | mediaFinished id =>
    exact advance_reportsPlaying (c := c) (by simp) (by simp [AppState.setPlaying])
      (by simp [AppState.setPlaying]) (fun item hitem => hkeeps.missing_of_isEnd rfl hitem)
      fun hitem => hnone rfl hitem
  | mediaStarted id => exact absurd rfl (hbridged id)
  | error id error =>
    exact advance_reportsPlaying (c := c) rfl rfl rfl
      (fun item hitem => hkeeps.missing_of_isEnd rfl hitem) fun hitem => hnone rfl hitem
  | positionUpdate position => exact h rfl

theorem handleOffline_reportsPlaying (hoffline : message = .tryOfflineRestore ∨
      ∃ playlistId, message = .offlineScheduleSwitch playlistId) (h : c.ReportsPlaying playing)
    (hkeeps : c.KeepsPlaying playing message io) :
    (c.handleMessage message io).ReportsPlaying playing := by
  cases hrestores : c.restores message io with
  | none =>
    rcases handleMessage_of_restores_none hoffline hrestores with heq | ⟨error, heq⟩
    · rw [heq]
      exact h
    · rw [heq]
      exact h
  | some snapshot =>
    obtain ⟨c', htx, hstate, heq⟩ := handleMessage_of_restores hrestores
    have hattempts := attempts_of_restores io hoffline hrestores
    have hend : message.isEnd = false := by
      rcases hoffline with rfl | ⟨playlistId, rfl⟩ <;> rfl
    rw [heq]
    exact replace_reportsPlaying _ _ htx (by rw [hstate]) h
      fun item hitem => hkeeps.isPlaying_eq hend (hattempts.trans hitem)

/-- **Step lemma for the flag.** An end sets it, whatever it was. -/
theorem handleMessage_reportsPlaying (h : message.isEnd = false → c.ReportsPlaying playing)
    (hkeeps : c.KeepsPlaying playing message io)
    (hbridged : ∀ id, message ≠ .playbackEvent (.mediaStarted id)) :
    (c.handleMessage message io).ReportsPlaying playing := by
  cases message with
  | serverMessage msg => exact handleServerMessage_reportsPlaying (h rfl) hkeeps
  | playbackEvent event =>
    exact handlePlaybackEvent_reportsPlaying h hkeeps fun id heq => hbridged id (heq ▸ rfl)
  | downloadComplete id success => exact h rfl
  | tryOfflineRestore => exact handleOffline_reportsPlaying (.inl rfl) (h rfl) hkeeps
  | offlineScheduleSwitch playlistId =>
    exact handleOffline_reportsPlaying (.inr ⟨_, rfl⟩) (h rfl) hkeeps

end Coordinator

end Montr.Client
