import Montr.Client.EngineAhead

namespace Montr.Client

/-!
# The reported file

Every message that meets `KeepsFile` leaves the application state reporting the file of the engine
ahead: one lemma for each handler.
-/

namespace Coordinator

variable {c : Coordinator} {io : HandlerIO} {file : Option String} {message : CoordinatorMessage}

theorem KeepsFile.available (h : c.KeepsFile file message io)
    (hitem : c.attempts message io = some item) : io.available = true := by
  rw [KeepsFile, hitem] at h
  exact h

theorem KeepsFile.fileAhead_eq_none (h : c.KeepsFile file message io)
    (hitem : c.attempts message io = none) (hgivesUp : c.givesUp message io = true) :
    c.fileAhead file = none := by
  rw [KeepsFile, hitem] at h
  exact h hgivesUp

/-- A command that concerns no file. -/
theorem send_reportsFile {c' : Coordinator} {command : PlaybackCommand} (h : c.ReportsFile file)
    (hneutral : ∀ file, command.fileAfter file = file)
    (htx : c'.playbackTx = c.playbackTx ++ [command])
    (hreported : c'.reportedFile = c.reportedFile) : c'.ReportsFile file := by
  show c'.fileAhead file = c'.reportedFile
  rw [fileAhead_concat htx, hneutral, hreported]
  exact h

theorem handleCommand_reportsFile {cmd : ServerCommand} (h : c.ReportsFile file)
    (hkeeps : c.KeepsFile file (.serverMessage (.command cmd)) io) :
    (c.handleCommand cmd io).ReportsFile file := by
  cases cmd with
  | reloadPlaylist => exact reset_reportsFile h fun item hitem => hkeeps.available hitem
  | pause => exact send_reportsFile h (fun _ => rfl) rfl rfl
  | resume => exact send_reportsFile h (fun _ => rfl) rfl rfl
  | skip =>
    simp only [handleCommand, endAnalyticsSession_state]
    refine playMoved_reportsFile (AppState.currentMedia_nextItem _)
      (fun item hitem => hkeeps.available hitem) fun hitem => ?_
    rw [fileAhead_endAnalyticsSession]
    exact hkeeps.fileAhead_eq_none hitem rfl
  | previous =>
    simp only [handleCommand, endAnalyticsSession_state]
    refine playMoved_reportsFile (AppState.currentMedia_previousItem _)
      (fun item hitem => hkeeps.available hitem) fun hitem => ?_
    rw [fileAhead_endAnalyticsSession]
    exact hkeeps.fileAhead_eq_none hitem rfl
  | volume level =>
    cases level with
    | none => exact h
    | some level => exact send_reportsFile h (fun _ => rfl) rfl rfl
  | seek position =>
    cases position with
    | none => exact h
    | some position => exact send_reportsFile h (fun _ => rfl) rfl rfl
  | other command => exact h

/-- A playlist that replaces the current one. -/
theorem replace_reportsFile {c' : Coordinator} {items : List PlaylistItem} (playlistId : Nat)
    (loopEnabled : Bool) (htx : c'.playbackTx = c.playbackTx)
    (hsome : ∀ item, startsFirst items io = some item → io.available = true)
    (hnone : startsFirst items io = none → c.fileAhead file = none) :
    ((c'.updatePlaylist playlistId items loopEnabled).downloadAndStart items io).ReportsFile file :=
  downloadAndStart_reportsFile _ _ _ hsome fun hitem => (fileAhead_congr htx).trans (hnone hitem)

theorem handlePlaylistUpdated_reportsFile {msg : PlaylistMessage} (h : c.ReportsFile file)
    (hkeeps : c.KeepsFile file (.serverMessage (.playlistUpdated msg)) io) :
    (c.handlePlaylistUpdated msg io).ReportsFile file := by
  unfold handlePlaylistUpdated
  cases hsame : c.isPlaylistUnchanged msg.playlistId msg.items with
  | true => simpa using h
  | false =>
    have hgivesUp : c.givesUp (.serverMessage (.playlistUpdated msg)) io = true :=
      congrArg not hsame
    -- the queue is before its first item now: without a restart nothing is reported
    have hwaits : c.attempts (.serverMessage (.playlistUpdated msg)) io = none →
        (c.updatePlaylist msg.playlistId msg.items msg.loopPlaylist).ReportsFile file := by
      intro hitem
      show c.fileAhead file =
        Option.map _ (c.state.updatePlaylist msg.playlistId msg.items msg.loopPlaylist).currentMedia
      rw [hkeeps.fileAhead_eq_none hitem hgivesUp, AppState.currentMedia_of_before rfl]
      rfl
    by_cases hrestart : c.keepsCurrent msg.items = false ∧ 0 < io.ready
    · obtain ⟨hcurrent, hready⟩ := hrestart
      have hattempts := attempts_playlistUpdated io hsame hcurrent hready
      have hqueue : ((c.updatePlaylist msg.playlistId msg.items
          msg.loopPlaylist).endAnalyticsSession false).state.queue.items = msg.items := by
        rw [endAnalyticsSession_state]
        rfl
      simp only [hcurrent, hready, Bool.false_eq_true, if_false, Bool.not_false, decide_true,
        Bool.and_self, if_true]
      refine startPlayback_reportsFile ?_ (fun item hitem => ?_) fun hitem => ?_
      · rw [endAnalyticsSession_state]
        rfl
      · rw [hqueue, ← hattempts] at hitem
        exact hkeeps.available hitem
      · rw [hqueue, ← hattempts] at hitem
        rw [fileAhead_endAnalyticsSession]
        exact hkeeps.fileAhead_eq_none hitem hgivesUp
    · have hattempts : c.attempts (.serverMessage (.playlistUpdated msg)) io = none := by
        cases hcurrent : c.keepsCurrent msg.items with
        | true => exact if_pos (by simp [hcurrent])
        | false =>
          have hready : ¬ 0 < io.ready := fun hready => hrestart ⟨hcurrent, hready⟩
          show (if _ then none else if 0 < io.ready then _ else none) = none
          rw [if_neg hready, ite_self]
      have hnot : ¬ ((!c.keepsCurrent msg.items && decide (0 < io.ready)) = true) := by
        simpa using hrestart
      simp only [Bool.false_eq_true, if_false, if_neg hnot]
      exact hwaits hattempts

theorem handleServerMessage_reportsFile {msg : ServerMessage} (h : c.ReportsFile file)
    (hkeeps : c.KeepsFile file (.serverMessage msg) io) :
    (c.handleServerMessage msg io).ReportsFile file := by
  cases msg with
  | playlistAssigned msg =>
    show (c.handlePlaylistAssigned msg io).ReportsFile file
    unfold handlePlaylistAssigned
    cases hsame : c.isPlaylistUnchanged msg.playlistId msg.items with
    | true => simpa using h
    | false =>
      have hattempts := attempts_playlistAssigned io hsame
      refine replace_reportsFile (c := c) _ _ (by simp) (fun item hitem => ?_) fun hitem => ?_
      · exact hkeeps.available (hattempts.trans hitem)
      · exact hkeeps.fileAhead_eq_none (hattempts.trans hitem) (congrArg not hsame)
  | playlistUpdated msg => exact handlePlaylistUpdated_reportsFile h hkeeps
  | playlistInterrupt msg =>
    exact replace_reportsFile (c := c) _ _ (by simp) (fun item hitem => hkeeps.available hitem)
      fun hitem => hkeeps.fileAhead_eq_none hitem rfl
  | playlistResume msg =>
    show (c.handlePlaylistResume msg io).ReportsFile file
    unfold handlePlaylistResume
    cases hid : msg.playlistId with
    | some playlistId =>
      have hattempts := attempts_playlistResume (c := c) io hid
      refine replace_reportsFile (c := c) _ _ (by simp) (fun item hitem => ?_) fun hitem => ?_
      · exact hkeeps.available (hattempts.trans hitem)
      · exact hkeeps.fileAhead_eq_none (hattempts.trans hitem) (congrArg Option.isSome hid)
    | none =>
      -- the queue is cleared, and the engine ahead is stopped
      have htx : (c.handlePlaylistResume msg io).playbackTx = c.playbackTx ++ [PlaybackCommand.stop] := by
        simp [handlePlaylistResume, hid, send]
      unfold handlePlaylistResume at htx
      rw [hid] at htx
      exact fileAhead_concat htx
  | command cmd => exact handleCommand_reportsFile h hkeeps
  | success message => exact h
  | errorResponse error => exact h
  | scheduleDefinitions => exact h

/-- The end of an item moves to the next one. -/
theorem advance_reportsFile {c' : Coordinator} (htx : c'.playbackTx = c.playbackTx)
    (hqueue : c'.state.queue = c.state.queue)
    (hsome : ∀ item, c.state.nextItem.2 = some item → io.available = true)
    (hnone : c.state.nextItem.2 = none → c.fileAhead file = none) :
    (c'.playMoved c'.state.nextItem io).ReportsFile file := by
  have hnext : c'.state.nextItem.2 = c.state.nextItem.2 := by
    rw [AppState.nextItem_snd, AppState.nextItem_snd, hqueue]
  exact playMoved_reportsFile (AppState.currentMedia_nextItem _)
    (fun item hitem => hsome item (hnext ▸ hitem))
    fun hitem => (fileAhead_congr htx).trans (hnone (hnext ▸ hitem))

theorem handlePlaybackEvent_reportsFile {event : PlaybackEventMessage} (h : c.ReportsFile file)
    (hkeeps : c.KeepsFile file (.playbackEvent event) io)
    (hbridged : ∀ id, event ≠ .mediaStarted id) :
    (c.handlePlaybackEvent event io).ReportsFile file := by
  cases event with
  | mediaFinished id =>
    exact advance_reportsFile (c := c) (by simp) (by simp [AppState.setPlaying])
      (fun item hitem => hkeeps.available hitem) fun hitem => hkeeps.fileAhead_eq_none hitem rfl
  | mediaStarted id => exact absurd rfl (hbridged id)
  | error id error =>
    exact advance_reportsFile (c := c) rfl rfl (fun item hitem => hkeeps.available hitem)
      fun hitem => hkeeps.fileAhead_eq_none hitem rfl
  | positionUpdate position => exact h

theorem handleOffline_reportsFile (hoffline : message = .tryOfflineRestore ∨
      ∃ playlistId, message = .offlineScheduleSwitch playlistId) (h : c.ReportsFile file)
    (hkeeps : c.KeepsFile file message io) : (c.handleMessage message io).ReportsFile file := by
  cases hrestores : c.restores message io with
  | none =>
    rcases handleMessage_of_restores_none hoffline hrestores with heq | ⟨error, heq⟩
    · rw [heq]
      exact h
    · rw [heq]
      exact h
  | some snapshot =>
    obtain ⟨c', htx, -, heq⟩ := handleMessage_of_restores hrestores
    have hattempts := attempts_of_restores io hoffline hrestores
    have hgivesUp : c.givesUp message io = true := by
      rcases hoffline with rfl | ⟨playlistId, rfl⟩
      · exact congrArg Option.isSome hrestores
      · exact congrArg Option.isSome hrestores
    rw [heq]
    refine replace_reportsFile _ _ htx (fun item hitem => ?_) fun hitem => ?_
    · exact hkeeps.available (hattempts.trans hitem)
    · exact hkeeps.fileAhead_eq_none (hattempts.trans hitem) hgivesUp

/-- **Step lemma for the file.** -/
theorem handleMessage_reportsFile (h : c.ReportsFile file) (hkeeps : c.KeepsFile file message io)
    (hbridged : ∀ id, message ≠ .playbackEvent (.mediaStarted id)) :
    (c.handleMessage message io).ReportsFile file := by
  cases message with
  | serverMessage msg => exact handleServerMessage_reportsFile h hkeeps
  | playbackEvent event =>
    exact handlePlaybackEvent_reportsFile h hkeeps fun id heq => hbridged id (heq ▸ rfl)
  | downloadComplete id success => exact h
  | tryOfflineRestore => exact handleOffline_reportsFile (.inl rfl) h hkeeps
  | offlineScheduleSwitch playlistId => exact handleOffline_reportsFile (.inr ⟨_, rfl⟩) h hkeeps

end Coordinator

end Montr.Client
