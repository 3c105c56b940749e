import Montr.Client.AppState
import Montr.Client.Engine

namespace Montr.Client

/-!
# The state coordinator

`state/coordinator.rs`: how the coordinator handles a message, over the application state, the
command channel of the engine and the analytics session.  `HandlerIO` has what the handling of one
message learns from disk and network.  Pinning, preloading, persisting, log uploads, screenshots
and error reports to the server change nothing that playback reads and are left out.
-/

structure PlaylistMessage where
  playlistId : Nat
  playlistName : String
  items : List PlaylistItem
  loopPlaylist : Bool
  deriving DecidableEq, Repr

structure PlaylistResumeMessage where
  playlistId : Option Nat
  playlistName : Option String
  items : List PlaylistItem
  loopPlaylist : Bool
  deriving DecidableEq, Repr

/-- A command of the server with the arguments it reads. -/
inductive ServerCommand
  | reloadPlaylist
  | pause
  | resume
  | skip
  | previous
  | volume (level : Option Int)
  | seek (position : Option Int)
  /-- `fetch_logs`, `screenshot` and unknown commands. -/
  | other (command : String)
  deriving DecidableEq, Repr

inductive ServerMessage
  | playlistAssigned (msg : PlaylistMessage)
  | playlistUpdated (msg : PlaylistMessage)
  | playlistInterrupt (msg : PlaylistMessage)
  | playlistResume (msg : PlaylistResumeMessage)
  | command (cmd : ServerCommand)
  | success (message : String)
  | errorResponse (error : String)
  | scheduleDefinitions
  deriving DecidableEq, Repr

/-- Playback events from the engine. -/
inductive PlaybackEventMessage
  | mediaFinished (mediaId : Nat)
  | mediaStarted (mediaId : Nat)
  | error (mediaId : Nat) (error : String)
  | positionUpdate (position : Int)
  deriving DecidableEq, Repr

/-- Message types for internal communication. -/
inductive CoordinatorMessage
  | serverMessage (msg : ServerMessage)
  | playbackEvent (event : PlaybackEventMessage)
  | downloadComplete (mediaId : Nat) (success : Bool)
  | tryOfflineRestore
  | offlineScheduleSwitch (playlistId : Nat)
  deriving DecidableEq, Repr

/-- A playlist on disk. -/
structure PlaylistSnapshot where
  playlistId : Nat
  items : List PlaylistItem
  loopEnabled : Bool
  deriving DecidableEq, Repr

inductive AnalyticsCall
  | started (mediaId : Nat)
  | ended (logId : Nat) (completed : Bool)
  deriving DecidableEq, Repr

/-- What one message meets: whether the first item is cached, how many items the batch download
    readies, whether the file to play exists within the deadline, the id that analytics answers,
    and what is loaded from disk. -/
structure HandlerIO where
  firstCached : Bool := true
  ready : Nat := 0
  available : Bool := true
  logId : Option Nat := none
  snapshot : Except String (Option PlaylistSnapshot) := .ok none
  deriving Repr

/-- The coordinator: `state`, the commands it has sent and the engine has not received, the open
    analytics session, and the analytics calls so far.  `cacheDir` is that of the cache manager;
    `persists` is whether a directory for snapshots is configured. -/
structure Coordinator where
  cacheDir : String := "/cache"
  persists : Bool := true
  state : AppState := {}
  playbackTx : List PlaybackCommand := []
  currentPlaybackLogId : Option Nat := none
  analytics : List AnalyticsCall := []
  deriving DecidableEq, Repr

namespace Coordinator

def send (c : Coordinator) (command : PlaybackCommand) : Coordinator :=
  { c with playbackTx := c.playbackTx ++ [command] }

def endAnalyticsSession (c : Coordinator) (completed : Bool) : Coordinator :=
  match c.currentPlaybackLogId with
  | some logId =>
    { c with
      analytics := c.analytics ++ [.ended logId completed]
      currentPlaybackLogId := none }
  | none => c

def startAnalyticsSession (c : Coordinator) (mediaId : Nat) (io : HandlerIO) : Coordinator :=
  -- a session that is still open was not played to its end
  let c := if c.currentPlaybackLogId.isSome then c.endAnalyticsSession false else c
  { c with analytics := c.analytics ++ [.started mediaId], currentPlaybackLogId := io.logId }

/-- Play a specific media item; without its file, stop. -/
def playMedia (c : Coordinator) (item : PlaylistItem) (io : HandlerIO) : Coordinator :=
  if !io.available then c.send .stop
  else
    (c.send (.play (getCachePath c.cacheDir item.mediaId item.filename)
      (item.mediaType == "video") (some item.imageDuration))).startAnalyticsSession
        item.mediaId io

/-- Play what `next_item` or `previous_item` has moved to. -/
def playMoved (c : Coordinator) (moved : AppState × Option PlaylistItem) (io : HandlerIO) :
    Coordinator :=
  let c := { c with state := moved.1 }
  match moved.2 with
  | some item => c.playMedia item io
  | none => c

/-- Start playback from current queue position. -/
def startPlayback (c : Coordinator) (io : HandlerIO) : Coordinator :=
  if c.state.queue.items.isEmpty then c
  else
    match c.state.currentQueueItem with
    | some item => c.playMedia item io
    | none => c.playMoved c.state.nextItem io

/-- Check if incoming playlist matches current. -/
def isPlaylistUnchanged (c : Coordinator) (playlistId : Nat) (items : List PlaylistItem) : Bool :=
  if c.state.playlistId ≠ some playlistId then false
  else if c.state.queue.items.length ≠ items.length then false
  else (c.state.queue.items.zip items).all fun (a, b) =>
    a.mediaId == b.mediaId && a.orderIndex == b.orderIndex

def downloadAndStart (c : Coordinator) (items : List PlaylistItem) (io : HandlerIO) :
    Coordinator :=
  if items.isEmpty then c
  else if io.firstCached then c.startPlayback io
  else if 0 < io.ready then c.startPlayback io
  else c

def updatePlaylist (c : Coordinator) (playlistId : Nat) (items : List PlaylistItem)
    (loopEnabled : Bool) : Coordinator :=
  { c with state := c.state.updatePlaylist playlistId items loopEnabled }

def handleCommand (c : Coordinator) (cmd : ServerCommand) (io : HandlerIO) : Coordinator :=
  match cmd with
  | .reloadPlaylist => { c with state := c.state.resetQueue }.startPlayback io
  | .pause => { c.send .pause with state := c.state.setPlaying false }
  | .resume => { c.send .resume with state := c.state.setPlaying true }
  | .skip =>
    let c := c.endAnalyticsSession false
    c.playMoved c.state.nextItem io
  | .previous =>
    let c := c.endAnalyticsSession false
    c.playMoved c.state.previousItem io
  | .volume (some level) => c.send (.volume level)
  | .volume none => c
  | .seek (some position) => c.send (.seek position)
  | .seek none => c
  | .other _ => c

/-- The items of an update contain the current media. -/
def keepsCurrent (c : Coordinator) (items : List PlaylistItem) : Bool :=
  match c.state.currentMediaId with
  | some id => items.any fun item => item.mediaId == id
  | none => false

def handlePlaylistAssigned (c : Coordinator) (msg : PlaylistMessage) (io : HandlerIO) :
    Coordinator :=
  if c.isPlaylistUnchanged msg.playlistId msg.items then c
  else
    let c := { c with state := c.state.clearInterruptStack }.endAnalyticsSession false
    (c.updatePlaylist msg.playlistId msg.items msg.loopPlaylist).downloadAndStart msg.items io

def handlePlaylistUpdated (c : Coordinator) (msg : PlaylistMessage) (io : HandlerIO) :
    Coordinator :=
  if c.isPlaylistUnchanged msg.playlistId msg.items then c
  else
    -- read before the queue is replaced
    let newItemsHaveCurrent := c.keepsCurrent msg.items
    let c := c.updatePlaylist msg.playlistId msg.items msg.loopPlaylist
    if !newItemsHaveCurrent && decide (0 < io.ready) then
      (c.endAnalyticsSession false).startPlayback io
    else c

def handlePlaylistInterrupt (c : Coordinator) (msg : PlaylistMessage) (io : HandlerIO) :
    Coordinator :=
  let c := { c with state := c.state.pushInterrupt }.endAnalyticsSession false
  (c.updatePlaylist msg.playlistId msg.items msg.loopPlaylist).downloadAndStart msg.items io

/-- Without a playlist to resume, stop. -/
def handlePlaylistResume (c : Coordinator) (msg : PlaylistResumeMessage) (io : HandlerIO) :
    Coordinator :=
  -- the saved playlist is dropped: the message brings the one to resume
  let c := { c with state := c.state.popInterrupt.1 }.endAnalyticsSession false
  match msg.playlistId with
  | some playlistId =>
    (c.updatePlaylist playlistId msg.items msg.loopPlaylist).downloadAndStart msg.items io
  | none => { c with state := c.state.clearPlaylist }.send .stop

def handleServerMessage (c : Coordinator) (message : ServerMessage) (io : HandlerIO) :
    Coordinator :=
  match message with
  | .playlistAssigned msg => c.handlePlaylistAssigned msg io
  | .playlistUpdated msg => c.handlePlaylistUpdated msg io
  | .playlistInterrupt msg => c.handlePlaylistInterrupt msg io
  | .playlistResume msg => c.handlePlaylistResume msg io
  | .command cmd => c.handleCommand cmd io
  | .success _ => c
  | .errorResponse _ => c
  | .scheduleDefinitions => c

def handlePlaybackEvent (c : Coordinator) (event : PlaybackEventMessage) (io : HandlerIO) :
    Coordinator :=
  match event with
  | .mediaFinished _ =>
    -- whichever item it is of
    let c := { c with state := c.state.setPlaying false }.endAnalyticsSession true
    c.playMoved c.state.nextItem io
  | .mediaStarted mediaId =>
    { c with
      state := ((c.state.setCurrentMedia (some mediaId)).setPlaying true).updatePosition 0 }
  | .error _ error =>
    let c := { c with state := (c.state.setError (some error)).setPlaying false }
    c.playMoved c.state.nextItem io
  | .positionUpdate position => { c with state := c.state.updatePosition position }

/-- A failure to read the disk ends the handling with the error. -/
def handleTryOfflineRestore (c : Coordinator) (io : HandlerIO) : Coordinator :=
  if !c.persists then c
  else if !c.state.queue.items.isEmpty then c
  else
    match io.snapshot with
    | .error e => { c with state := c.state.setError (some e) }
    | .ok none => c
    | .ok (some snapshot) =>
      (c.updatePlaylist snapshot.playlistId snapshot.items snapshot.loopEnabled).downloadAndStart
        snapshot.items io

def handleOfflineScheduleSwitch (c : Coordinator) (playlistId : Nat) (io : HandlerIO) :
    Coordinator :=
  if !c.persists then c
  else if c.state.playlistId = some playlistId then c
  else
    match io.snapshot with
    | .error e => { c with state := c.state.setError (some e) }
    | .ok none => c
    | .ok (some snapshot) =>
      let c := c.endAnalyticsSession false
      (c.updatePlaylist snapshot.playlistId snapshot.items snapshot.loopEnabled).downloadAndStart
        snapshot.items io

def handleMessage (c : Coordinator) (message : CoordinatorMessage) (io : HandlerIO) :
    Coordinator :=
  match message with
  | .serverMessage msg => c.handleServerMessage msg io
  | .playbackEvent event => c.handlePlaybackEvent event io
  | .downloadComplete _ _ => c
  | .tryOfflineRestore => c.handleTryOfflineRestore io
  | .offlineScheduleSwitch playlistId => c.handleOfflineScheduleSwitch playlistId io

/-! ### What the parts do -/

section

variable (c : Coordinator) (item : PlaylistItem) (io : HandlerIO)

@[simp] theorem endAnalyticsSession_state (completed : Bool) :
    (c.endAnalyticsSession completed).state = c.state := by
  unfold endAnalyticsSession
  split <;> rfl

@[simp] theorem endAnalyticsSession_playbackTx (completed : Bool) :
    (c.endAnalyticsSession completed).playbackTx = c.playbackTx := by
  unfold endAnalyticsSession
  split <;> rfl

@[simp] theorem endAnalyticsSession_cacheDir (completed : Bool) :
    (c.endAnalyticsSession completed).cacheDir = c.cacheDir := by
  unfold endAnalyticsSession
  split <;> rfl

/-- Playing an item sends one command and leaves the application state. -/
theorem playMedia_spec :
    (c.playMedia item io).state = c.state ∧ (c.playMedia item io).cacheDir = c.cacheDir ∧
      (c.playMedia item io).playbackTx = c.playbackTx ++
        [if io.available then
          .play (getCachePath c.cacheDir item.mediaId item.filename) (item.mediaType == "video")
            (some item.imageDuration)
        else .stop] := by
  unfold playMedia
  cases io.available with
  | false => exact ⟨rfl, rfl, rfl⟩
  | true =>
    unfold startAnalyticsSession
    simp only [Bool.not_true, Bool.false_eq_true, if_false]
    -- with a session to end first, or without
    split
    · exact ⟨by simp [send], by simp [send], by simp [send]⟩
    · exact ⟨rfl, rfl, rfl⟩

end

end Coordinator

end Montr.Client
