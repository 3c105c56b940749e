import Montr.Client.Playback

namespace Montr.Client

open Transition

/-!
# Why playback goes on

While the coordinator is engaged with a media item or a looping queue, something is on its way that
moves the queue on (`Player.Moving`): an event, a message, a timer, or the video that the engine
ahead holds.  One lemma for each handler says that it starts an item or leaves what is on its way.
-/

namespace AppState

variable {s s' : AppState}

/-- The state has a current media, or a queue to play for ever. -/
def Engaged (s : AppState) : Prop := s.currentMediaId ≠ none ∨ s.Loops

theorem Engaged.congr (hmedia : s'.currentMediaId = s.currentMediaId)
    (hitems : s'.queue.items = s.queue.items)
    (hloop : s'.queue.loopEnabled = s.queue.loopEnabled) (h : s'.Engaged) : s.Engaged := by
  unfold Engaged Loops at *
  rw [hmedia, hitems, hloop] at h
  exact h

/-- With an empty queue only a media engages. -/
theorem Engaged.of_empty (hmedia : s'.currentMediaId = s.currentMediaId)
    (hempty : s'.queue.items = []) (h : s'.Engaged) : s.Engaged := by
  rcases h with h | h
  · rw [hmedia] at h
    exact .inl h
  · -- an empty queue does not loop
    exact absurd hempty h.1

/-- A looping queue has a next item. -/
theorem nextItem_ne_none (h : s.Loops) : s.nextItem.2 ≠ none := by
  obtain ⟨hne, hloop⟩ := h
  have hpos : 0 < s.queue.items.length := List.length_pos_iff.mpr hne
  rw [AppState.nextItem_snd]
  unfold PlaylistQueue.next PlaylistQueue.nextIndex PlaylistQueue.current
  rw [if_neg (by simpa using hne)]
  cases s.queue.currentIndex with
  | none => simp [hne]
  | some idx =>
    -- at the last item the queue starts over
    by_cases hlast : s.queue.items.length ≤ idx + 1
    · simp [hlast, hloop, hne]
    · simp [hlast]

theorem nextItem_loops (s : AppState) : s.nextItem.1.Loops ↔ s.Loops := by
  unfold Loops
  rw [nextItem_queue]
  unfold PlaylistQueue.next
  split <;> rfl

/-- Moving past the last item ends the engagement. -/
theorem not_engaged_nextItem (h : s.nextItem.2 = none) : ¬ s.nextItem.1.Engaged := by
  rintro (hmedia | hloops)
  · apply hmedia
    unfold nextItem at h ⊢
    cases hnext : s.queue.next with
    | mk queue found =>
      rw [hnext] at h
      cases found with
      | none => rfl
      | some item => cases h
  · exact nextItem_ne_none ((nextItem_loops s).mp hloops) h

/-- Without a previous item nothing changes but the index. -/
theorem Engaged.of_previousItem (h : s.previousItem.2 = none)
    (hengaged : s.previousItem.1.Engaged) : s.Engaged := by
  unfold previousItem at h hengaged
  have hqueue : s.queue.previous.1.items = s.queue.items ∧
      s.queue.previous.1.loopEnabled = s.queue.loopEnabled := by
    unfold PlaylistQueue.previous
    split <;> exact ⟨rfl, rfl⟩
  cases hprevious : s.queue.previous with
  | mk queue found =>
    rw [hprevious] at h hengaged hqueue
    cases found with
    | none =>
      have hmedia : { s with queue := queue }.currentMediaId = s.currentMediaId := rfl
      exact Engaged.congr hmedia hqueue.1 hqueue.2 hengaged
    | some item => cases h

end AppState

/-! ### The engine ahead -/

namespace PlaybackCommand

/-- Whether the engine holds an item after a command. -/
def holdsAfter (holds : Prop) : PlaybackCommand → Prop
  | .play _ _ _ => True
  | .stop => False
  | _ => holds

theorem holdsAfter_mono {P Q : Prop} (h : P → Q) (command : PlaybackCommand) :
    command.holdsAfter P → command.holdsAfter Q := by
  cases command with
  | play path isVideo duration => exact id
  | stop => exact id
  | _ => exact h

theorem foldl_holdsAfter_mono {P Q : Prop} (h : P → Q) (commands : List PlaybackCommand) :
    commands.foldl holdsAfter P → commands.foldl holdsAfter Q := by
  induction commands generalizing P Q with
  | nil => exact h
  | cons command rest ih => exact ih (holdsAfter_mono h command)

end PlaybackCommand

namespace Coordinator

/-- Whether the engine holds an item after the commands it has been sent. -/
def HoldsAhead (c : Coordinator) (holds : Prop) : Prop :=
  c.playbackTx.foldl PlaybackCommand.holdsAfter holds

/-- After the coordinator has become `c'`, it is not engaged or has told the engine to play. -/
def Restarts (c' : Coordinator) : Prop := c'.state.Engaged → ∀ holds, c'.HoldsAhead holds

/-- The coordinator `c'` after `c` has told the engine to play, or it was engaged before and has
    told it nothing against playing. -/
def Follows (c c' : Coordinator) : Prop :=
  c'.state.Engaged → (∀ holds, c'.HoldsAhead holds) ∨
    c.state.Engaged ∧ ∀ holds, c.HoldsAhead holds → c'.HoldsAhead holds

section

variable {c c' : Coordinator} {item : PlaylistItem} {items : List PlaylistItem} {io : HandlerIO}
  {moved : AppState × Option PlaylistItem} {message : CoordinatorMessage} {holds : Prop}

theorem holdsAhead_congr (h : c'.playbackTx = c.playbackTx) :
    c'.HoldsAhead holds = c.HoldsAhead holds := by
  rw [HoldsAhead, HoldsAhead, h]

theorem holdsAhead_concat {command : PlaybackCommand}
    (h : c'.playbackTx = c.playbackTx ++ [command]) :
    c'.HoldsAhead holds = command.holdsAfter (c.HoldsAhead holds) := by
  simp [HoldsAhead, h]

theorem Restarts.follows (h : c'.Restarts) : c.Follows c' := fun hengaged => .inl (h hengaged)

/-- Nothing is sent, and nothing engages that did not before. -/
theorem Follows.of_congr (htx : c'.playbackTx = c.playbackTx)
    (hengaged : c'.state.Engaged → c.state.Engaged) : c.Follows c' :=
  fun h => .inr ⟨hengaged h, fun _ hholds => (holdsAhead_congr htx).mpr hholds⟩

theorem Follows.refl (c : Coordinator) : c.Follows c := .of_congr rfl id

/-- A command that is not against playing. -/
theorem Follows.of_concat {command : PlaybackCommand} (hneutral : ∀ P, command.holdsAfter P = P)
    (htx : c'.playbackTx = c.playbackTx ++ [command])
    (hengaged : c'.state.Engaged → c.state.Engaged) : c.Follows c' := by
  refine fun h => .inr ⟨hengaged h, fun holds hholds => ?_⟩
  rw [holdsAhead_concat htx, hneutral]
  exact hholds

theorem playMedia_holdsAhead (havailable : io.available = true) (holds : Prop) :
    (c.playMedia item io).HoldsAhead holds := by
  obtain ⟨-, -, htx⟩ := c.playMedia_spec item io
  rw [havailable] at htx
  rw [holdsAhead_concat htx]
  trivial

theorem playMoved_holdsAhead (hitem : moved.2 = some item) (havailable : io.available = true)
    (holds : Prop) : (c.playMoved moved io).HoldsAhead holds := by
  unfold playMoved
  rw [hitem]
  exact playMedia_holdsAhead havailable holds

theorem playMoved_of_none (hitem : moved.2 = none) :
    c.playMoved moved io = { c with state := moved.1 } := by
  unfold playMoved
  rw [hitem]

/-- The end of an item starts the next one, or nothing engages the coordinator any more. -/
theorem playMoved_restarts (havailable : ∀ item, c.state.nextItem.2 = some item →
    io.available = true) : (c.playMoved c.state.nextItem io).Restarts := by
  intro hengaged holds
  cases hitem : c.state.nextItem.2 with
  | some item => exact playMoved_holdsAhead hitem (havailable item hitem) holds
  | none =>
    rw [playMoved_of_none hitem] at hengaged
    exact absurd hengaged (AppState.not_engaged_nextItem hitem)

/-- Before its first item a queue is started, or it is empty. -/
theorem startPlayback_follows (htx : c'.playbackTx = c.playbackTx)
    (hmedia : c'.state.currentMediaId = c.state.currentMediaId)
    (hbefore : c'.state.queue.currentIndex = none)
    (havailable : ∀ item, c'.state.queue.items.head? = some item → io.available = true) :
    c.Follows (c'.startPlayback io) := by
  have hnext := AppState.nextItem_of_before hbefore
  rw [startPlayback_of_before hbefore]
  cases hitems : c'.state.queue.items with
  | nil => exact .of_congr htx (AppState.Engaged.of_empty hmedia hitems)
  | cons first rest =>
    rw [hitems] at havailable hnext
    refine Restarts.follows fun _ holds => ?_
    exact playMoved_holdsAhead hnext (havailable first rfl) holds

/-- A playlist that replaces the current one. -/
theorem replace_follows (playlistId : Nat) (loopEnabled : Bool)
    (htx : c'.playbackTx = c.playbackTx)
    (hmedia : c'.state.currentMediaId = c.state.currentMediaId)
    (hready : io.firstCached = true ∨ 0 < io.ready)
    (havailable : ∀ item, startsFirst items io = some item → io.available = true) :
    c.Follows ((c'.updatePlaylist playlistId items loopEnabled).downloadAndStart items io) := by
  have hstarts : startsFirst items io = items.head? := by
    unfold startsFirst
    rcases hready with h | h <;> simp [h]
  rw [hstarts] at havailable
  rw [downloadAndStart_eq, hstarts]
  cases hfirst : items.head? with
  | some first => exact startPlayback_follows htx hmedia rfl havailable
  | none =>
    have hempty : items = [] := List.head?_eq_none_iff.mp hfirst
    exact .of_congr htx (AppState.Engaged.of_empty hmedia hempty)

/-! ### Messages -/

theorem handleCommand_follows {cmd : ServerCommand}
    (havailable : ∀ item, c.attempts (.serverMessage (.command cmd)) io = some item →
      io.available = true) : c.Follows (c.handleCommand cmd io) := by
  cases cmd with
  | reloadPlaylist =>
    show c.Follows ({ c with state := c.state.resetQueue }.startPlayback io)
    cases hitems : c.state.queue.items with
    | nil =>
      have hempty : c.state.resetQueue.queue.items = [] := hitems
      unfold startPlayback
      rw [if_pos (by simp [hempty])]
      refine .of_congr rfl (AppState.Engaged.of_empty ?_ hempty)
      simp [AppState.resetQueue, PlaylistQueue.reset, PlaylistQueue.current, hitems]
    | cons first rest =>
      -- after the reset the first item is the current one
      have hcurrent : c.state.resetQueue.currentQueueItem = some first := by
        simp [AppState.resetQueue, AppState.currentQueueItem, PlaylistQueue.reset,
          PlaylistQueue.current, hitems]
      have hfirst : io.available = true := havailable first (by rw [attempts, hitems, List.head?_cons])
      unfold startPlayback
      rw [if_neg (by simp [AppState.resetQueue, PlaylistQueue.reset, hitems])]
      simp only [hcurrent]
      exact Restarts.follows fun _ => playMedia_holdsAhead hfirst
  | pause => exact .of_concat (fun _ => rfl) rfl id
  | resume => exact .of_concat (fun _ => rfl) rfl id
  | skip =>
    refine Restarts.follows (playMoved_restarts fun item hitem => ?_)
    rw [endAnalyticsSession_state] at hitem
    exact havailable item hitem
  | previous =>
    show c.Follows ((c.endAnalyticsSession false).playMoved
      (c.endAnalyticsSession false).state.previousItem io)
    rw [endAnalyticsSession_state]
    cases hitem : c.state.previousItem.2 with
    | some item =>
      exact Restarts.follows fun _ => playMoved_holdsAhead hitem (havailable item hitem)
    | none =>
      rw [playMoved_of_none hitem]
      exact .of_congr (endAnalyticsSession_playbackTx _ _) (AppState.Engaged.of_previousItem hitem)
  | volume level =>
    cases level with
    | none => exact .refl c
    | some level => exact .of_concat (fun _ => rfl) rfl id
  | seek position =>
    cases position with
    | none => exact .refl c
    | some position => exact .of_concat (fun _ => rfl) rfl id
  | other command => exact .refl c

theorem engaged_of_keepsCurrent (h : c.keepsCurrent items = true) : c.state.Engaged := by
  refine .inl fun hnone => ?_
  rw [keepsCurrent, hnone] at h
  cases h

theorem handlePlaylistUpdated_follows {msg : PlaylistMessage}
    (hready : c.Readies io (.serverMessage (.playlistUpdated msg)))
    (havailable : ∀ item, c.attempts (.serverMessage (.playlistUpdated msg)) io = some item →
      io.available = true) : c.Follows (c.handlePlaylistUpdated msg io) := by
  unfold handlePlaylistUpdated
  split
  next => exact .refl c
  next hsame =>
    dsimp only
    cases hkeeps : c.keepsCurrent msg.items with
    | true =>
      -- what plays goes on, and the new queue follows it
      exact .of_congr rfl fun _ => engaged_of_keepsCurrent hkeeps
    | false =>
      have hpositive : 0 < io.ready := hready.resolve_left (by simp [hkeeps])
      rw [attempts_playlistUpdated io (by simpa using hsame) hkeeps hpositive] at havailable
      rw [if_pos (by simpa using hpositive)]
      refine startPlayback_follows ?_ ?_ ?_ fun item hitem => ?_
      · rw [endAnalyticsSession_playbackTx]
        rfl
      · rw [endAnalyticsSession_state]
        rfl
      · rw [endAnalyticsSession_state]
        rfl
      · rw [endAnalyticsSession_state] at hitem
        exact havailable item hitem

theorem handleServerMessage_follows {msg : ServerMessage}
    (hready : c.Readies io (.serverMessage msg))
    (havailable : ∀ item, c.attempts (.serverMessage msg) io = some item → io.available = true) :
    c.Follows (c.handleServerMessage msg io) := by
  cases msg with
  | playlistAssigned msg =>
    show c.Follows (c.handlePlaylistAssigned msg io)
    unfold handlePlaylistAssigned
    split
    next => exact .refl c
    next hsame =>
      rw [attempts_playlistAssigned io (by simpa using hsame)] at havailable
      exact replace_follows _ _ (by simp) (by simp; rfl) hready havailable
  | playlistUpdated msg => exact handlePlaylistUpdated_follows hready havailable
  | playlistInterrupt msg =>
    refine replace_follows _ _ (by simp) ?_ hready havailable
    rw [endAnalyticsSession_state]
    show c.state.pushInterrupt.currentMediaId = _
    unfold AppState.pushInterrupt
    split <;> rfl
  | playlistResume msg =>
    show c.Follows (c.handlePlaylistResume msg io)
    unfold handlePlaylistResume
    cases hid : msg.playlistId with
    | some playlistId =>
      rw [attempts_playlistResume io hid] at havailable
      exact replace_follows _ _ (by simp) (by simp; rfl) hready havailable
    | none =>
      -- nothing is left to play
      rintro (hmedia | hloops)
      · exact absurd rfl hmedia
      · exact absurd rfl hloops.1
  | command cmd => exact handleCommand_follows havailable
  | success message => exact .refl c
  | errorResponse error => exact .refl c
  | scheduleDefinitions => exact .refl c

/-- **The end of an item, or a failure,** starts the next item, or nothing engages the coordinator
    any more. -/
theorem handleMessage_restarts (hend : message.isEnd = true)
    (havailable : ∀ item, c.attempts message io = some item → io.available = true) :
    (c.handleMessage message io).Restarts := by
  have hadvance : ∀ c' : Coordinator, c'.state.queue = c.state.queue →
      c.attempts message io = c.state.nextItem.2 →
        (c'.playMoved c'.state.nextItem io).Restarts := by
    intro c' hqueue hattempts
    refine playMoved_restarts fun item hitem => havailable item ?_
    rw [hattempts, AppState.nextItem_snd, ← hqueue, ← AppState.nextItem_snd]
    exact hitem
  cases message with
  | playbackEvent event =>
    cases event with
    | mediaFinished id => exact hadvance _ (by simp [AppState.setPlaying]) rfl
    | error id error => exact hadvance _ rfl rfl
    | mediaStarted id => cases hend
    | positionUpdate position => cases hend
  | _ => cases hend

theorem handleOffline_follows (hoffline : message = .tryOfflineRestore ∨
      ∃ playlistId, message = .offlineScheduleSwitch playlistId)
    (hready : io.firstCached = true ∨ 0 < io.ready)
    (havailable : ∀ item, c.attempts message io = some item → io.available = true) :
    c.Follows (c.handleMessage message io) := by
  cases hrestores : c.restores message io with
  | none =>
    rcases handleMessage_of_restores_none hoffline hrestores with heq | ⟨error, heq⟩
    · rw [heq]
      exact .refl c
    · rw [heq]
      exact .of_congr rfl id
  | some snapshot =>
    obtain ⟨c', htx, hstate, heq⟩ := handleMessage_of_restores hrestores
    rw [attempts_of_restores io hoffline hrestores] at havailable
    rw [heq]
    exact replace_follows _ _ htx (by rw [hstate]) hready havailable

/-- **Any other message** starts an item or leaves what is on its way. -/
theorem handleMessage_follows (hend : message.isEnd = false)
    (hbridged : ∀ id, message ≠ .playbackEvent (.mediaStarted id))
    (hready : c.Readies io message)
    (havailable : ∀ item, c.attempts message io = some item → io.available = true) :
    c.Follows (c.handleMessage message io) := by
  cases message with
  | serverMessage msg => exact handleServerMessage_follows hready havailable
  | playbackEvent event =>
    cases event with
    | mediaFinished id => cases hend
    | error id error => cases hend
    | mediaStarted id => exact absurd rfl (hbridged id)
    | positionUpdate position => exact .of_congr rfl id
  | downloadComplete id success => exact .refl c
  | tryOfflineRestore => exact handleOffline_follows (.inl rfl) hready havailable
  | offlineScheduleSwitch playlistId =>
    exact handleOffline_follows (.inr ⟨playlistId, rfl⟩) hready havailable

end

end Coordinator

/-! ### The engine -/

namespace Engine

variable {e : Engine}

/-- A video is loaded whose end is not reported, and it plays unless mpv is paused. -/
def Holds (e : Engine) : Prop :=
  ∃ file, e.mpv.file = some file ∧ e.state.currentFile = some file ∧ e.state.isImage = false ∧
    e.loop.eofSentForFile ≠ some file ∧ (e.state.isPlaying = true ∨ e.mpv.paused = true)

theorem Holds.willReport (h : e.Holds) (running : e.loop.stopped = false)
    (unpaused : e.mpv.paused = false) : e.WillReport := by
  obtain ⟨file, hfile, hcurrent, himage, hsent, hplays⟩ := h
  have hplaying : e.state.isPlaying = true := hplays.resolve_right (by simp [unpaused])
  refine ⟨running, hplaying, himage, ?_, by simp [hfile], unpaused⟩
  unfold resetEof
  rw [hcurrent]
  exact if_pos ⟨hsent, hplaying⟩

/-- Once mpv is at the end of the file, the next pass that is answered reports it. -/
theorem WillReport.count_poll (h : e.WillReport) {io : PollIO} (connects : io.connects = true)
    (answered : io.eofAnswered = true) : (e.reachEof.poll io).2.count .endFile = 1 := by
  obtain ⟨hrunning, hplaying, himage, hreset, -, -⟩ := h
  have hfinds : e.reachEof.FindsEof io :=
    ⟨⟨hrunning, connects, hplaying, himage⟩, hreset, answered, rfl⟩
  rw [(e.reachEof.poll_spec io).1, if_pos hfinds]

theorem handleCommand_loop (command : PlaybackCommand) (io : CommandIO) :
    (e.handleCommand command io).1.loop = e.loop := by
  cases hio : io.ok with
  | false => rw [handleCommand_of_failed command hio]
  | true => cases command <;> simp [handleCommand, play, pause, resume, stop, seek, hio]

/-- A command that is carried out leaves the video that the engine then holds, or a timer. -/
theorem handleCommand_holds {command : PlaybackCommand} {io : CommandIO}
    (carries : e.CarriesOut io command) :
    (command.holdsAfter e.Holds → (e.handleCommand command io).1.Holds) ∨
      (e.handleCommand command io).1.timers ≠ [] := by
  cases hio : io.ok with
  | false =>
    rw [handleCommand_of_failed command hio]
    cases command with
    | play path isVideo duration => exact absurd (hio.symm.trans carries.1) (by decide)
    | stop => exact .inl False.elim
    | _ => exact .inl id
  | true =>
    cases command with
    | play path isVideo duration =>
      cases isVideo with
      | true =>
        have hnew := carries.2.2 rfl
        exact .inl fun _ => ⟨path, by simp [handleCommand, play, hio, hnew]⟩
      | false =>
        -- an image has its timer
        exact .inr (by simp [handleCommand, play, hio])
    | stop => exact .inl False.elim
    | volume level => exact .inl id
    | pause =>
      left
      rintro ⟨file, hfile, hcurrent, himage, hsent, -⟩
      exact ⟨file, by simp [handleCommand, pause, hio, hfile, hcurrent, himage, hsent]⟩
    | resume =>
      left
      rintro ⟨file, hfile, hcurrent, himage, hsent, -⟩
      exact ⟨file, by simp [handleCommand, resume, hio, hfile, hcurrent, himage, hsent]⟩
    | seek position =>
      left
      rintro ⟨file, hfile, hcurrent, himage, hsent, hplays⟩
      refine ⟨file, ?_⟩
      simpa [handleCommand, seek, hio, hfile, hcurrent, himage, hsent] using hplays

/-- A command starts at most a timer. -/
theorem handleCommand_timers {command : PlaybackCommand} {io : CommandIO} (h : e.timers ≠ []) :
    (e.handleCommand command io).1.timers ≠ [] := by
  cases hio : io.ok with
  | false =>
    rw [handleCommand_of_failed command hio]
    exact h
  | true =>
    cases command with
    | play path isVideo duration => cases isVideo <;> simp [handleCommand, play, hio, h]
    | _ => simpa [handleCommand, pause, resume, stop, seek, hio] using h

/-- mpv is paused only by a pause. -/
theorem handleCommand_paused {command : PlaybackCommand} {io : CommandIO} {paused : Bool}
    (carries : e.CarriesOut io command) (h : e.mpv.paused = true → paused = true)
    (hafter : (e.handleCommand command io).1.mpv.paused = true) :
    command.pausedAfter paused = true := by
  cases hio : io.ok with
  | false =>
    rw [handleCommand_of_failed command hio] at hafter
    cases command with
    | play path isVideo duration => exact absurd (hio.symm.trans carries.1) (by decide)
    | pause => rfl
    | resume =>
      have hunpaused := carries.resolve_left (by simp [hio])
      exact absurd (hafter.symm.trans hunpaused) (by decide)
    | _ => exact h hafter
  | true =>
    cases command with
    | play path isVideo duration =>
      obtain ⟨-, hunpause, -⟩ := carries
      rcases hunpause with hunpause | hunpause <;>
        simp [handleCommand, play, hio, hunpause] at hafter
    | pause => rfl
    | resume => simp [handleCommand, resume, hio] at hafter
    | stop => exact h (by simpa [handleCommand, stop, hio] using hafter)
    | volume level => exact h hafter
    | seek position => exact h (by simpa [handleCommand, seek, hio] using hafter)

/-- A pass of the loop keeps the video that the engine holds, or reports its end. -/
theorem poll_holds (io : PollIO) (h : e.Holds) :
    (e.poll io).1.Holds ∨ .endFile ∈ (e.poll io).2 := by
  obtain ⟨file, hfile, hcurrent, himage, hsent, hplays⟩ := h
  obtain ⟨hcount, hplaying, hloop, hcurrent', himage', hmpv, -⟩ := e.poll_spec io
  by_cases hfinds : e.FindsEof io
  · rw [if_pos hfinds] at hcount
    exact .inr (List.count_pos_iff.mp (by omega))
  · rw [if_neg hfinds] at hloop
    refine .inl ⟨file, ?_, ?_, ?_, ?_, ?_⟩
    · rw [hmpv]
      exact hfile
    · rw [hcurrent']
      exact hcurrent
    · rw [himage']
      exact himage
    · -- the loop forgets an end, or remembers the one it did
      rw [hloop]
      unfold resetEof
      rw [hcurrent]
      dsimp only
      split
      · split <;> simp [hsent]
      · exact hsent
    · rw [hplaying, hmpv]
      simpa [hfinds] using hplays

/-- The loop goes on unless the socket was lost five times in a row. -/
theorem poll_running {io : PollIO} (running : e.loop.stopped = false)
    (h : io.connects = true ∨ e.loop.ipcFailCount + 1 < 5) :
    (e.poll io).1.loop.stopped = false := by
  unfold poll
  cases hconnects : io.connects with
  | true =>
    by_cases hplaying : (e.state.isPlaying && !e.state.isImage) = true
    · cases htime : io.playbackTime <;>
        by_cases heof : e.resetEof = none ∧ io.eofAnswered = true ∧ e.mpv.eofReached = true <;>
        simp [pollPosition, pollEof, running, hplaying, htime, heof]
    · simp [running, hplaying]
  | false =>
    have hcount : ¬ 5 ≤ e.loop.ipcFailCount + 1 := by
      have hfew := h.resolve_left (by simp [hconnects])
      omega
    simp [running, hcount]

end Engine

/-! ### The joint invariant -/

/-- An event that the bridge passes on as the end of an item. -/
def PlaybackEvent.advances : PlaybackEvent → Bool
  | .endFile => true
  | .error _ => true
  | _ => false

theorem exists_of_advances {event : PlaybackEvent} (h : event.advances = true) :
    ∃ message, bridgeEvent event = some message ∧
      (CoordinatorMessage.playbackEvent message).isEnd = true := by
  cases event with
  | endFile => exact ⟨_, rfl, rfl⟩
  | error message => exact ⟨_, rfl, rfl⟩
  | _ => cases h

theorem ne_mediaStarted_of_bridgeEvent {event : PlaybackEvent} {message : PlaybackEventMessage}
    (h : bridgeEvent event = some message) (id : Nat) : message ≠ .mediaStarted id := by
  rintro rfl
  cases event <;> cases h

/-- Something is on its way that moves the queue on. -/
def Player.Moving (p : Player) : Prop :=
  (∃ e ∈ p.events, e.1.advances = true) ∨ (∃ m ∈ p.messages, m.1.isEnd = true) ∨
    p.engine.timers ≠ [] ∨ p.coordinator.HoldsAhead p.engine.Holds

/-- **The invariant** of the three loops. -/
structure Player.Progresses (p : Player) (userPaused : Bool) : Prop where
  running : p.engine.loop.stopped = false
  paused : p.engine.mpv.paused = true → userPaused = true
  bridged : ∀ m ∈ p.messages, ∀ id, m.1 ≠ .playbackEvent (.mediaStarted id)
  moving : p.coordinator.state.Engaged → p.Moving

namespace Player.Progresses

variable {p : Player} {userPaused : Bool}

/-- The coordinator takes a message: what it is engaged with is started, or was on its way. -/
theorem coordinate (h : p.Progresses userPaused) {message : CoordinatorMessage}
    {origin : Option Origin} {rest : List (CoordinatorMessage × Option Origin)} {io : HandlerIO}
    (hmessages : p.messages = (message, origin) :: rest)
    (hready : p.coordinator.Readies io message)
    (havailable : ∀ item, p.coordinator.attempts message io = some item → io.available = true) :
    { p with
      messages := rest
      coordinator := p.coordinator.handleMessage message io }.Progresses userPaused := by
  have hbridged := h.bridged
  rw [hmessages] at hbridged
  refine ⟨h.running, h.paused, fun m hm => hbridged m (List.mem_cons_of_mem _ hm),
    fun hengaged => ?_⟩
  cases hend : message.isEnd with
  | true =>
    -- the message itself was on its way: the next item takes its place
    have hrestarts := Coordinator.handleMessage_restarts hend havailable
    exact .inr (.inr (.inr (hrestarts hengaged _)))
  | false =>
    have hfollows := Coordinator.handleMessage_follows hend (hbridged _ List.mem_cons_self) hready
      havailable
    rcases hfollows hengaged with hplays | ⟨hbefore, hkeeps⟩
    · exact .inr (.inr (.inr (hplays _)))
    · rcases h.moving hbefore with hevent | ⟨m, hm, hmend⟩ | htimers | hholds
      · exact .inl hevent
      · -- the message that was taken is no end
        rw [hmessages] at hm
        rcases List.mem_cons.mp hm with rfl | hrest
        · exact absurd (hend.symm.trans hmend) (by decide)
        · exact .inr (.inl ⟨m, hrest, hmend⟩)
      · exact .inr (.inr (.inl htimers))
      · exact .inr (.inr (.inr (hkeeps _ hholds)))

/-- The engine takes a command. -/
theorem engineCommand (h : p.Progresses userPaused) {command : PlaybackCommand}
    {rest : List PlaybackCommand} {io : CommandIO}
    (hcommands : p.coordinator.playbackTx = command :: rest)
    (carries : p.engine.CarriesOut io command) :
    ({ p with coordinator.playbackTx := rest }.moved p.engine.mpv.plays
      (p.engine.handleCommand command io)).Progresses (command.pausedAfter userPaused) := by
  refine ⟨?_, Engine.handleCommand_paused carries h.paused, h.bridged, fun hengaged => ?_⟩
  · show (p.engine.handleCommand command io).1.loop.stopped = false
    rw [Engine.handleCommand_loop]
    exact h.running
  · rcases h.moving hengaged with ⟨e, he, hadvances⟩ | hmessage | htimers | hholds
    · exact .inl ⟨e, List.mem_append_left _ he, hadvances⟩
    · exact .inr (.inl hmessage)
    · exact .inr (.inr (.inl (Engine.handleCommand_timers htimers)))
    · -- the engine has caught up with the engine ahead by one command
      unfold Coordinator.HoldsAhead at hholds
      rw [hcommands] at hholds
      rcases Engine.handleCommand_holds carries with hkeeps | htimers
      · exact .inr (.inr (.inr (PlaybackCommand.foldl_holdsAfter_mono hkeeps rest hholds)))
      · exact .inr (.inr (.inl htimers))

theorem poll (h : p.Progresses userPaused) {io : PollIO}
    (answers : io.connects = true ∨ p.engine.loop.ipcFailCount + 1 < 5) :
    (p.moved p.engine.mpv.plays (p.engine.poll io)).Progresses userPaused := by
  obtain ⟨-, -, -, -, -, hmpv, htimers'⟩ := p.engine.poll_spec io
  refine ⟨Engine.poll_running h.running answers, fun hpaused => h.paused ?_, h.bridged,
    fun hengaged => ?_⟩
  · rw [← hmpv]
    exact hpaused
  · rcases h.moving hengaged with ⟨e, he, hadvances⟩ | hmessage | htimers | hholds
    · exact .inl ⟨e, List.mem_append_left _ he, hadvances⟩
    · exact .inr (.inl hmessage)
    · refine .inr (.inr (.inl ?_))
      show (p.engine.poll io).1.timers ≠ []
      rw [htimers']
      exact htimers
    · by_cases hreports : .endFile ∈ (p.engine.poll io).2
      · exact .inl ⟨_, List.mem_append_right _ (List.mem_map_of_mem hreports), rfl⟩
      · have hkeeps : p.engine.Holds → (p.engine.poll io).1.Holds := fun hholds =>
          (Engine.poll_holds io hholds).resolve_right hreports
        exact .inr (.inr (.inr (PlaybackCommand.foldl_holdsAfter_mono hkeeps _ hholds)))

/-- The timer that fires sends an end. -/
theorem timerFires (h : p.Progresses userPaused) (play n : Nat) :
    (p.moved play (p.engine.timerFired n)).Progresses userPaused :=
  ⟨h.running, h.paused, h.bridged, fun _ =>
    .inl ⟨_, List.mem_append_right _ (List.mem_map_of_mem List.mem_cons_self), rfl⟩⟩

theorem reachEof (h : p.Progresses userPaused) :
    { p with engine := p.engine.reachEof }.Progresses userPaused :=
  ⟨h.running, h.paused, h.bridged, h.moving⟩

theorem receive (h : p.Progresses userPaused) {message : CoordinatorMessage}
    (hother : message.isPlaybackEvent = false) :
    { p with messages := p.messages ++ [(message, none)] }.Progresses userPaused := by
  refine ⟨h.running, h.paused, fun m hm => ?_, fun hengaged => ?_⟩
  · rcases List.mem_append.mp hm with hm | hm
    · exact h.bridged m hm
    · rw [List.mem_singleton.mp hm]
      rintro id rfl
      cases hother
  · rcases h.moving hengaged with hevent | ⟨m, hm, hend⟩ | htimers | hholds
    · exact .inl hevent
    · exact .inr (.inl ⟨m, List.mem_append_left _ hm, hend⟩)
    · exact .inr (.inr (.inl htimers))
    · exact .inr (.inr (.inr hholds))

/-- The bridge passes on every event that moves the queue on. -/
theorem bridge (h : p.Progresses userPaused) {event : PlaybackEvent} {origin : Origin}
    {rest : List (PlaybackEvent × Origin)} (hevents : p.events = (event, origin) :: rest) :
    { p with
      events := rest
      messages := p.messages ++ (bridgeEvent event).toList.map fun message =>
        (CoordinatorMessage.playbackEvent message, some origin) }.Progresses userPaused := by
  refine ⟨h.running, h.paused, fun m hm id => ?_, fun hengaged => ?_⟩
  · rcases List.mem_append.mp hm with hm | hm
    · exact h.bridged m hm id
    · obtain ⟨message, hmessage, rfl⟩ := List.mem_map.mp hm
      have hbridge := ne_mediaStarted_of_bridgeEvent (Option.mem_toList.mp hmessage) id
      exact fun heq => hbridge (CoordinatorMessage.playbackEvent.inj heq)
  · rcases h.moving hengaged with ⟨e, he, hadvances⟩ | ⟨m, hm, hend⟩ | htimers | hholds
    · rw [hevents] at he
      rcases List.mem_cons.mp he with rfl | hrest
      · -- the event goes on as a message
        obtain ⟨message, hmessage, hend⟩ := exists_of_advances hadvances
        have hpassed := List.mem_map_of_mem (f := fun message =>
          (CoordinatorMessage.playbackEvent message, some origin)) (Option.mem_toList.mpr hmessage)
        exact .inr (.inl ⟨_, List.mem_append_right _ hpassed, hend⟩)
      · exact .inl ⟨e, hrest, hadvances⟩
    · exact .inr (.inl ⟨m, List.mem_append_left _ hm, hend⟩)
    · exact .inr (.inr (.inl htimers))
    · exact .inr (.inr (.inr hholds))

/-- mpv gives up an image, whose timer runs. -/
theorem giveUp (h : p.Progresses userPaused) (image : p.engine.state.isImage = true) (mpv : Mpv)
    (hpaused : mpv.paused = p.engine.mpv.paused) :
    { p with engine.mpv := mpv }.Progresses userPaused := by
  refine ⟨h.running, fun hp => h.paused (hpaused ▸ hp), h.bridged, fun hengaged => ?_⟩
  rcases h.moving hengaged with hevent | hmessage | htimers | hholds
  · exact .inl hevent
  · exact .inr (.inl hmessage)
  · exact .inr (.inr (.inl htimers))
  · -- an image is not held, whether mpv shows it or not
    have hnone : p.engine.Holds → ({ p with engine.mpv := mpv } : Player).engine.Holds := by
      rintro ⟨file, -, -, himage, -⟩
      exact absurd (image.symm.trans himage) (by decide)
    exact .inr (.inr (.inr (PlaybackCommand.foldl_holdsAfter_mono hnone _ hholds)))

end Player.Progresses

/-! ### Runs -/

namespace Playback

variable {b b' : Playback}

def Progresses (b : Playback) : Prop := b.player.Progresses b.userPaused

/-- A step of the player, by its kind. -/
theorem step_player {a : PlayerStep} (h : b.Progresses) (unfailing : b.Unfailing (.player a))
    (hstep : b.step (.player a) = some b') : b'.Progresses := by
  unfold step at hstep
  dsimp only at hstep
  split at hstep
  next hallows =>
    obtain ⟨player, hplayer, rfl⟩ := Option.map_eq_some_iff.mp hstep
    cases a with
    | receive message =>
      obtain ⟨hother, rfl⟩ := Player.step_receive hplayer
      exact h.receive hother
    | coordinate io =>
      obtain ⟨message, origin, rest, hmessages, rfl⟩ := Player.step_coordinate hplayer
      obtain ⟨hcached, hready⟩ := unfailing (message, origin) (by simp [hmessages])
      have hmeets : b.player.coordinator.MeetsDisk b.disk message io := by
        simpa [allows, hmessages] using hallows
      refine h.coordinate hmessages hready fun item hitem => ?_
      rw [hmeets item hitem]
      exact decide_eq_true (hcached item hitem)
    | engineCommand io =>
      obtain ⟨command, rest, hcommands, rfl⟩ := Player.step_engineCommand hplayer
      have hpaused : b.pausedAfter (.engineCommand io) = command.pausedAfter b.userPaused := by
        simp [pausedAfter, hcommands]
      rw [hpaused]
      exact h.engineCommand hcommands (unfailing command (by simp [hcommands]))
    | poll io =>
      obtain rfl := Player.step_poll hplayer
      exact h.poll unfailing
    | timerFires n =>
      obtain ⟨timer, -, rfl⟩ := Player.step_timerFires hplayer
      exact h.timerFires timer.play n
    | reachEof =>
      obtain ⟨-, rfl⟩ := Player.step_reachEof hplayer
      exact h.reachEof
    | bridge =>
      obtain ⟨event, origin, rest, hevents, rfl⟩ := Player.step_bridge hplayer
      exact h.bridge hevents
  next => cases hstep

/-- **Step lemma.** -/
theorem step_progresses {a : PlaybackStep} (h : b.Progresses) (unfailing : b.Unfailing a)
    (hstep : b.step a = some b') : b'.Progresses := by
  cases a with
  | player a => exact step_player h unfailing hstep
  | store path =>
    obtain rfl := Option.some.inj hstep
    exact h
  | evict path =>
    obtain rfl := Option.some.inj hstep
    exact h
  | giveUp =>
    unfold step at hstep
    dsimp only at hstep
    split at hstep
    next =>
      obtain rfl := Option.some.inj hstep
      exact h.giveUp unfailing _ rfl
    next => cases hstep

/-- In a state with nothing left to do the video that the engine ahead holds is that of the
    engine. -/
theorem goesOn (h : b.Progresses) : b.GoesOn := by
  rintro ⟨⟨htx, hevents, hmessages⟩, htimers⟩ hloops hunpaused -
  right
  have hmpv : b.player.engine.mpv.paused = false := by
    refine Bool.eq_false_iff.mpr fun hpaused => ?_
    have huser := h.paused hpaused
    rw [hunpaused] at huser
    cases huser
  rcases h.moving (.inr hloops) with ⟨e, he, -⟩ | ⟨m, hm, -⟩ | hpending | hholds
  · rw [hevents] at he
    exact absurd he List.not_mem_nil
  · rw [hmessages] at hm
    exact absurd hm List.not_mem_nil
  · exact absurd htimers hpending
  · unfold Coordinator.HoldsAhead at hholds
    rw [htx] at hholds
    exact Engine.Holds.willReport hholds h.running hmpv

/-- Two videos in a loop, up to the second one. -/
def twoVideos (second : HandlerIO) : List PlaybackStep :=
  [.player (.receive (.serverMessage (.playlistAssigned
      ⟨1, "lobby", [.video 1 "a.mp4", .video 2 "b.mp4"], true⟩))),
    .player (.coordinate {}), .player (.engineCommand {}), .player .bridge, .player .reachEof,
    .player (.poll {}), .player .bridge, .player (.coordinate second),
    .player (.engineCommand {}), .player .bridge]

end Playback

end Montr.Client
