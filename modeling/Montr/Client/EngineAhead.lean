import Montr.Client.Coordinator

namespace Montr.Client

/-!
# The engine ahead

The coordinator sets the application state when it sends a command to the engine.  The engine
*ahead* is the engine after the commands it has been sent; this file has the conditions under
which the application state keeps reporting the engine ahead, and what the parts of the handlers
do to it.
-/

namespace PlaybackCommand

/-- The file loaded after a command. -/
def fileAfter (file : Option String) : PlaybackCommand → Option String
  | .play path _ _ => some path
  | .stop => none
  | _ => file

/-- Whether the engine plays after a command. -/
def playingAfter (playing : Bool) : PlaybackCommand → Bool
  | .play _ _ _ => true
  | .pause => false
  | .resume => true
  | .stop => false
  | _ => playing

end PlaybackCommand

namespace Coordinator

/-- The file of the engine after the commands it has been sent. -/
def fileAhead (c : Coordinator) (file : Option String) : Option String :=
  c.playbackTx.foldl PlaybackCommand.fileAfter file

/-- Whether the engine plays after the commands it has been sent. -/
def playingAhead (c : Coordinator) (playing : Bool) : Bool :=
  c.playbackTx.foldl PlaybackCommand.playingAfter playing

/-- The cache path of the reported media. -/
def reportedFile (c : Coordinator) : Option String :=
  c.state.statusUpdate.currentMedia.map fun media =>
    getCachePath c.cacheDir media.id media.filename

def ReportsFile (c : Coordinator) (file : Option String) : Prop :=
  c.fileAhead file = c.reportedFile

def ReportsPlaying (c : Coordinator) (playing : Bool) : Prop :=
  c.playingAhead playing = c.state.isPlaying

/-! ### What a message starts and drops -/

/-- The item that a new playlist starts with, if its download got that far. -/
def startsFirst (items : List PlaylistItem) (io : HandlerIO) : Option PlaylistItem :=
  if io.firstCached || decide (0 < io.ready) then items.head? else none

/-- The playlist that an offline message restores. -/
def restores (c : Coordinator) (message : CoordinatorMessage) (io : HandlerIO) :
    Option PlaylistSnapshot :=
  let wanted :=
    match message with
    | .tryOfflineRestore => c.state.queue.items.isEmpty
    | .offlineScheduleSwitch playlistId => decide (c.state.playlistId ≠ some playlistId)
    | _ => false
  match io.snapshot with
  | .ok (some snapshot) => if c.persists && wanted then some snapshot else none
  | _ => none

/-- The item that a message makes the coordinator play. -/
def attempts (c : Coordinator) (message : CoordinatorMessage) (io : HandlerIO) :
    Option PlaylistItem :=
  match message with
  | .serverMessage (.playlistAssigned msg) =>
    if c.isPlaylistUnchanged msg.playlistId msg.items then none else startsFirst msg.items io
  | .serverMessage (.playlistUpdated msg) =>
    if c.isPlaylistUnchanged msg.playlistId msg.items || c.keepsCurrent msg.items then none
    else if 0 < io.ready then msg.items.head? else none
  | .serverMessage (.playlistInterrupt msg) => startsFirst msg.items io
  | .serverMessage (.playlistResume msg) =>
    if msg.playlistId.isSome then startsFirst msg.items io else none
  | .serverMessage (.command .reloadPlaylist) => c.state.queue.items.head?
  | .serverMessage (.command .skip) => c.state.nextItem.2
  | .serverMessage (.command .previous) => c.state.previousItem.2
  | .playbackEvent (.mediaFinished _) => c.state.nextItem.2
  | .playbackEvent (.error _ _) => c.state.nextItem.2
  | .tryOfflineRestore => (c.restores message io).bind fun snapshot => startsFirst snapshot.items io
  | .offlineScheduleSwitch _ =>
    (c.restores message io).bind fun snapshot => startsFirst snapshot.items io
  | _ => none

/-- A message that gives up the current item when it starts no other. -/
def givesUp (c : Coordinator) (message : CoordinatorMessage) (io : HandlerIO) : Bool :=
  match message with
  | .serverMessage (.playlistAssigned msg) => !c.isPlaylistUnchanged msg.playlistId msg.items
  | .serverMessage (.playlistUpdated msg) => !c.isPlaylistUnchanged msg.playlistId msg.items
  | .serverMessage (.playlistInterrupt _) => true
  | .serverMessage (.playlistResume msg) => msg.playlistId.isSome
  | .serverMessage (.command .skip) => true
  | .serverMessage (.command .previous) => true
  | .playbackEvent (.mediaFinished _) => true
  | .playbackEvent (.error _ _) => true
  | .tryOfflineRestore => (c.restores message io).isSome
  | .offlineScheduleSwitch _ => (c.restores message io).isSome
  | _ => false

end Coordinator

/-- An end or a failure of the current item. -/
def CoordinatorMessage.isEnd : CoordinatorMessage → Bool
  | .playbackEvent (.mediaFinished _) => true
  | .playbackEvent (.error _ _) => true
  | _ => false

namespace Coordinator

/-- The item a message starts is on disk, and the current item is given up without another only
    when the engine ahead has no file. -/
def KeepsFile (c : Coordinator) (file : Option String) (message : CoordinatorMessage)
    (io : HandlerIO) : Prop :=
  match c.attempts message io with
  | some _ => io.available = true
  | none => c.givesUp message io = true → c.fileAhead file = none

/-- An item is started only while the state says playing already, and without its file only while
    it does not; after an end that starts none the engine ahead does not play. -/
def KeepsPlaying (c : Coordinator) (playing : Bool) (message : CoordinatorMessage)
    (io : HandlerIO) : Prop :=
  match c.attempts message io with
  | some _ => (c.state.isPlaying && !message.isEnd) = io.available
  | none => message.isEnd = true → c.playingAhead playing = false

section

variable {c : Coordinator} {msg : PlaylistMessage} (io : HandlerIO)

theorem attempts_playlistAssigned (hsame : c.isPlaylistUnchanged msg.playlistId msg.items = false) :
    c.attempts (.serverMessage (.playlistAssigned msg)) io = startsFirst msg.items io :=
  if_neg (by simp [hsame])

/-- A changed playlist without the current item is started when one of its files is ready. -/
theorem attempts_playlistUpdated (hsame : c.isPlaylistUnchanged msg.playlistId msg.items = false)
    (hcurrent : c.keepsCurrent msg.items = false) (hready : 0 < io.ready) :
    c.attempts (.serverMessage (.playlistUpdated msg)) io = msg.items.head? :=
  (if_neg (by simp [hsame, hcurrent])).trans (if_pos hready)

theorem attempts_playlistResume {msg : PlaylistResumeMessage} {playlistId : Nat}
    (hid : msg.playlistId = some playlistId) :
    c.attempts (.serverMessage (.playlistResume msg)) io = startsFirst msg.items io :=
  if_pos (by simp [hid])

theorem attempts_of_restores {message : CoordinatorMessage} {snapshot : PlaylistSnapshot}
    (hoffline : message = .tryOfflineRestore ∨
      ∃ playlistId, message = .offlineScheduleSwitch playlistId)
    (hrestores : c.restores message io = some snapshot) :
    c.attempts message io = startsFirst snapshot.items io := by
  have hbind : (c.restores message io).bind (fun snapshot => startsFirst snapshot.items io) =
      startsFirst snapshot.items io := by
    rw [hrestores, Option.bind_some]
  rcases hoffline with rfl | ⟨playlistId, rfl⟩
  · exact hbind
  · exact hbind

end

/-! ### What the parts report -/

section

variable {c : Coordinator} {item : PlaylistItem} {items : List PlaylistItem} {io : HandlerIO}
  {moved : AppState × Option PlaylistItem} {file : Option String} {playing : Bool}

theorem fileAhead_congr {c' : Coordinator} (h : c'.playbackTx = c.playbackTx) :
    c'.fileAhead file = c.fileAhead file := by
  rw [fileAhead, fileAhead, h]

theorem playingAhead_congr {c' : Coordinator} (h : c'.playbackTx = c.playbackTx) :
    c'.playingAhead playing = c.playingAhead playing := by
  rw [playingAhead, playingAhead, h]

theorem fileAhead_concat {c' : Coordinator} {command : PlaybackCommand}
    (h : c'.playbackTx = c.playbackTx ++ [command]) :
    c'.fileAhead file = command.fileAfter (c.fileAhead file) := by
  simp [fileAhead, h]

theorem playingAhead_concat {c' : Coordinator} {command : PlaybackCommand}
    (h : c'.playbackTx = c.playbackTx ++ [command]) :
    c'.playingAhead playing = command.playingAfter (c.playingAhead playing) := by
  simp [playingAhead, h]

theorem reportedFile_congr {c' : Coordinator} (hdir : c'.cacheDir = c.cacheDir)
    (hmedia : c'.state.currentMedia = c.state.currentMedia) : c'.reportedFile = c.reportedFile := by
  show Option.map _ c'.state.currentMedia = Option.map _ c.state.currentMedia
  rw [hdir, hmedia]

/-- Ending a session sends the engine nothing. -/
theorem fileAhead_endAnalyticsSession (completed : Bool) :
    (c.endAnalyticsSession completed).fileAhead file = c.fileAhead file :=
  fileAhead_congr (endAnalyticsSession_playbackTx _ _)

theorem ReportsPlaying.endAnalyticsSession (h : c.ReportsPlaying playing) (completed : Bool) :
    (c.endAnalyticsSession completed).ReportsPlaying playing := by
  show (c.endAnalyticsSession completed).playingAhead playing = _
  rw [endAnalyticsSession_state, playingAhead_congr (endAnalyticsSession_playbackTx _ _)]
  exact h

/-- The item that is played is the item reported. -/
theorem playMedia_reportsFile (havailable : io.available = true)
    (hmedia : c.state.currentMedia = some ⟨item.mediaId, item.filename⟩) :
    (c.playMedia item io).ReportsFile file := by
  obtain ⟨hstate, hdir, htx⟩ := c.playMedia_spec item io
  rw [havailable] at htx
  have hreported : (c.playMedia item io).reportedFile =
      some (getCachePath c.cacheDir item.mediaId item.filename) := by
    show Option.map _ (c.playMedia item io).state.currentMedia = _
    rw [hstate, hdir, hmedia]
    rfl
  exact (fileAhead_concat htx).trans hreported.symm

/-- Whether the state says playing is whether the file is there. -/
theorem playMedia_reportsPlaying (h : c.state.isPlaying = io.available) :
    (c.playMedia item io).ReportsPlaying playing := by
  obtain ⟨hstate, -, htx⟩ := c.playMedia_spec item io
  show (c.playMedia item io).playingAhead playing = (c.playMedia item io).state.isPlaying
  rw [hstate, h, playingAhead_concat htx]
  cases io.available <;> rfl

/-- Playing what the queue has moved to. -/
theorem playMoved_reportsFile
    (hmedia : moved.1.currentMedia = moved.2.map fun item => ⟨item.mediaId, item.filename⟩)
    (hsome : ∀ item, moved.2 = some item → io.available = true)
    (hnone : moved.2 = none → c.fileAhead file = none) :
    (c.playMoved moved io).ReportsFile file := by
  unfold playMoved
  cases hitem : moved.2 with
  | some item =>
    rw [hitem] at hmedia
    exact playMedia_reportsFile (hsome item hitem) hmedia
  | none =>
    rw [hitem] at hmedia
    show c.fileAhead file = Option.map _ moved.1.currentMedia
    rw [hnone hitem, hmedia]
    rfl

theorem playMoved_reportsPlaying (hkeep : moved.1.isPlaying = c.state.isPlaying)
    (hsome : ∀ item, moved.2 = some item → c.state.isPlaying = io.available)
    (hnone : moved.2 = none → c.ReportsPlaying playing) :
    (c.playMoved moved io).ReportsPlaying playing := by
  unfold playMoved
  cases hitem : moved.2 with
  | some item => exact playMedia_reportsPlaying (hkeep.trans (hsome item hitem))
  | none => exact (hnone hitem).trans hkeep.symm

/-- A new playlist is started, or waits before its first item. -/
theorem downloadAndStart_eq (c : Coordinator) (items : List PlaylistItem) (io : HandlerIO) :
    c.downloadAndStart items io =
      if (startsFirst items io).isSome then c.startPlayback io else c := by
  unfold downloadAndStart startsFirst
  cases items with
  | nil => simp
  | cons first rest =>
    cases io.firstCached with
    | true => simp
    | false => by_cases hready : 0 < io.ready <;> simp [hready]

/-- Before the first item playback starts with it. -/
theorem startPlayback_of_before (hbefore : c.state.queue.currentIndex = none) :
    c.startPlayback io =
      if c.state.queue.items.isEmpty then c else c.playMoved c.state.nextItem io := by
  have hcurrent : c.state.currentQueueItem = none := by
    simp [AppState.currentQueueItem, PlaylistQueue.current, hbefore]
  unfold startPlayback
  rw [hcurrent]

theorem startPlayback_reportsFile (hbefore : c.state.queue.currentIndex = none)
    (hsome : ∀ item, c.state.queue.items.head? = some item → io.available = true)
    (hnone : c.state.queue.items.head? = none → c.fileAhead file = none) :
    (c.startPlayback io).ReportsFile file := by
  have hnext := AppState.nextItem_of_before hbefore
  rw [startPlayback_of_before hbefore]
  cases hitems : c.state.queue.items with
  | nil =>
    -- nothing to start, and before the first item nothing is reported
    show c.fileAhead file = Option.map _ c.state.currentMedia
    rw [hnone (by simp [hitems]), AppState.currentMedia_of_before hbefore]
    rfl
  | cons first rest =>
    exact playMoved_reportsFile (AppState.currentMedia_nextItem _)
      (fun item hitem => hsome item (hnext ▸ hitem)) fun hitem => hnone (hnext ▸ hitem)

theorem startPlayback_reportsPlaying (hbefore : c.state.queue.currentIndex = none)
    (hsome : ∀ item, c.state.queue.items.head? = some item → c.state.isPlaying = io.available)
    (h : c.ReportsPlaying playing) : (c.startPlayback io).ReportsPlaying playing := by
  have hnext := AppState.nextItem_of_before hbefore
  rw [startPlayback_of_before hbefore]
  split
  · exact h
  · exact playMoved_reportsPlaying (AppState.nextItem_isPlaying _)
      (fun item hitem => hsome item (hnext ▸ hitem)) fun _ => h

theorem downloadAndStart_reportsFile (playlistId : Nat) (items : List PlaylistItem)
    (loopEnabled : Bool) (hsome : ∀ item, startsFirst items io = some item → io.available = true)
    (hnone : startsFirst items io = none → c.fileAhead file = none) :
    ((c.updatePlaylist playlistId items loopEnabled).downloadAndStart items io).ReportsFile
      file := by
  rw [downloadAndStart_eq]
  cases hfirst : startsFirst items io with
  | some item =>
    refine startPlayback_reportsFile rfl (fun _ _ => hsome item hfirst) fun hhead => ?_
    -- there is a first item
    have hitems : items.head? = none := hhead
    simp [startsFirst, hitems] at hfirst
  | none =>
    show c.fileAhead file =
      Option.map _ (c.state.updatePlaylist playlistId items loopEnabled).currentMedia
    rw [hnone hfirst, AppState.currentMedia_of_before rfl]
    rfl

theorem downloadAndStart_reportsPlaying (playlistId : Nat) (items : List PlaylistItem)
    (loopEnabled : Bool)
    (hsome : ∀ item, startsFirst items io = some item → c.state.isPlaying = io.available)
    (h : c.ReportsPlaying playing) :
    ((c.updatePlaylist playlistId items loopEnabled).downloadAndStart items io).ReportsPlaying
      playing := by
  rw [downloadAndStart_eq]
  cases hfirst : startsFirst items io with
  | some item => exact startPlayback_reportsPlaying rfl (fun _ _ => hsome item hfirst) h
  | none => exact h

/-- After a reset the first item is the current one. -/
theorem reset_reportsFile (h : c.ReportsFile file)
    (hsome : ∀ item, c.state.queue.items.head? = some item → io.available = true) :
    ({ c with state := c.state.resetQueue }.startPlayback io).ReportsFile file := by
  cases hitems : c.state.queue.items with
  | nil =>
    have hempty : c.state.resetQueue.queue.items = [] := hitems
    have hnone : c.state.currentMedia = none :=
      AppState.currentMedia_eq_none (.inr (by simp [PlaylistQueue.current, hitems]))
    have hreset : c.state.resetQueue.currentMedia = none :=
      AppState.currentMedia_eq_none (.inr (by simp [PlaylistQueue.current, hempty]))
    -- an empty queue reports nothing before and after
    have hreported : reportedFile { c with state := c.state.resetQueue } = c.reportedFile :=
      reportedFile_congr rfl (hreset.trans hnone.symm)
    unfold startPlayback
    rw [if_pos (by simp [hempty])]
    exact Eq.trans h hreported.symm
  | cons first rest =>
    have hcurrent : c.state.resetQueue.queue.current = some first := by
      simp [AppState.resetQueue, PlaylistQueue.reset, PlaylistQueue.current, hitems]
    have hmedia : c.state.resetQueue.currentMediaId = some first.mediaId := by
      simp [AppState.resetQueue, PlaylistQueue.reset, PlaylistQueue.current, hitems]
    unfold startPlayback
    rw [if_neg (by simp [AppState.resetQueue, PlaylistQueue.reset, hitems])]
    simp only [AppState.currentQueueItem, hcurrent]
    exact playMedia_reportsFile (hsome first (by simp [hitems]))
      (AppState.currentMedia_eq_some hmedia hcurrent)

theorem reset_reportsPlaying (h : c.ReportsPlaying playing)
    (hsome : ∀ item, c.state.queue.items.head? = some item → c.state.isPlaying = io.available) :
    ({ c with state := c.state.resetQueue }.startPlayback io).ReportsPlaying playing := by
  cases hitems : c.state.queue.items with
  | nil =>
    unfold startPlayback
    rw [if_pos (by simp [AppState.resetQueue, PlaylistQueue.reset, hitems])]
    exact h
  | cons first rest =>
    have hcurrent : c.state.resetQueue.queue.current = some first := by
      simp [AppState.resetQueue, PlaylistQueue.reset, PlaylistQueue.current, hitems]
    unfold startPlayback
    rw [if_neg (by simp [AppState.resetQueue, PlaylistQueue.reset, hitems])]
    simp only [AppState.currentQueueItem, hcurrent]
    exact playMedia_reportsPlaying (hsome first (by simp [hitems]))

variable {message : CoordinatorMessage}

/-! ### Offline messages -/

/-- An offline message that restores a playlist starts it. -/
theorem handleMessage_of_restores {snapshot : PlaylistSnapshot}
    (h : c.restores message io = some snapshot) :
    ∃ c' : Coordinator, c'.playbackTx = c.playbackTx ∧ c'.state = c.state ∧
      c.handleMessage message io = (c'.updatePlaylist snapshot.playlistId snapshot.items
        snapshot.loopEnabled).downloadAndStart snapshot.items io := by
  unfold restores at h
  cases hsnapshot : io.snapshot with
  | error e => simp [hsnapshot] at h
  | ok loaded =>
    cases loaded with
    | none => simp [hsnapshot] at h
    | some found =>
      cases message with
      | tryOfflineRestore =>
        obtain ⟨⟨hpersists, hempty⟩, rfl⟩ :
            (c.persists = true ∧ c.state.queue.items = []) ∧ found = snapshot := by
          simpa [hsnapshot] using h
        refine ⟨c, rfl, rfl, ?_⟩
        simp [handleMessage, handleTryOfflineRestore, hpersists, hempty, hsnapshot]
      | offlineScheduleSwitch playlistId =>
        obtain ⟨⟨hpersists, hother⟩, rfl⟩ :
            (c.persists = true ∧ ¬ c.state.playlistId = some playlistId) ∧ found = snapshot := by
          simpa [hsnapshot] using h
        refine ⟨c.endAnalyticsSession false, by simp, by simp, ?_⟩
        simp [handleMessage, handleOfflineScheduleSwitch, hpersists, hother, hsnapshot]
      | serverMessage msg => simp [hsnapshot] at h
      | playbackEvent event => simp [hsnapshot] at h
      | downloadComplete id success => simp [hsnapshot] at h

/-- Any other offline message at most records an error. -/
theorem handleMessage_of_restores_none (hoffline : message = .tryOfflineRestore ∨
      ∃ playlistId, message = .offlineScheduleSwitch playlistId)
    (h : c.restores message io = none) :
    c.handleMessage message io = c ∨
      ∃ error, c.handleMessage message io = { c with state := c.state.setError error } := by
  cases hsnapshot : io.snapshot with
  | error e =>
    rcases hoffline with rfl | ⟨playlistId, rfl⟩
    · simp only [handleMessage, handleTryOfflineRestore]
      split
      · exact .inl rfl
      · split
        · exact .inl rfl
        · exact .inr ⟨some e, by simp [hsnapshot]⟩
    · simp only [handleMessage, handleOfflineScheduleSwitch]
      split
      · exact .inl rfl
      · split
        · exact .inl rfl
        · exact .inr ⟨some e, by simp [hsnapshot]⟩
  | ok loaded =>
    -- no snapshot, or one that is not wanted
    left
    rcases hoffline with rfl | ⟨playlistId, rfl⟩
    · simp only [handleMessage, handleTryOfflineRestore]
      cases loaded with
      | none => simp [hsnapshot]
      | some snapshot =>
        have hnot : c.persists = true → ¬ c.state.queue.items = [] := by
          simpa [restores, hsnapshot] using h
        by_cases hpersists : c.persists = true
        · simp [hpersists, hnot hpersists]
        · simp [hpersists]
    · simp only [handleMessage, handleOfflineScheduleSwitch]
      cases loaded with
      | none => simp [hsnapshot]
      | some snapshot =>
        have hnot : c.persists = true → c.state.playlistId = some playlistId := by
          simpa [restores, hsnapshot] using h
        by_cases hpersists : c.persists = true
        · simp [hnot hpersists]
        · simp [hpersists]

end

end Coordinator

end Montr.Client
