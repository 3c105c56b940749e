import Montr.Client.Status

namespace Montr.Client

open Transition

/-!
# Playback that goes on

Nothing moves the queue on but an event: of an image timer, of the end of a video, or an error.
`Playback` adds to the player what decides whether an item can be played: the files on disk, and
whether mpv gives up a file that it cannot play.  A player that is left with nothing to do goes on
(`Playback.GoesOn`) when the end of an item is still to come.
-/

/-- The player, the cached files, and whether the last command for or against playing that the
    engine received was a pause. -/
structure Playback where
  player : Player := {}
  disk : List String := []
  userPaused : Bool := false
  deriving Repr

inductive PlaybackStep
  | player (step : PlayerStep)
  /-- A download is moved to its place. -/
  | store (path : String)
  | evict (path : String)
  /-- mpv cannot play its file and is idle (`--idle`); it says so in an event that nobody reads. -/
  | giveUp
  deriving Repr

/-- Whether playback is paused after a command. -/
def PlaybackCommand.pausedAfter (paused : Bool) : PlaybackCommand → Bool
  | .play _ _ _ => false
  | .pause => true
  | .resume => false
  | _ => paused

namespace Coordinator

/-- Where an item is cached. -/
def pathOf (c : Coordinator) (item : PlaylistItem) : String :=
  getCachePath c.cacheDir item.mediaId item.filename

/-- What a message meets agrees with the disk at the end of `play_media`'s wait. -/
def MeetsDisk (c : Coordinator) (disk : List String) (message : CoordinatorMessage)
    (io : HandlerIO) : Prop :=
  ∀ item ∈ c.attempts message io, io.available = decide (c.pathOf item ∈ disk)

instance (c : Coordinator) (disk : List String) (message : CoordinatorMessage) (io : HandlerIO) :
    Decidable (c.MeetsDisk disk message io) := by
  unfold MeetsDisk
  infer_instance

end Coordinator

namespace Playback

/-- The player at boot, with what an earlier run left on disk. -/
def start (cacheDir : String) (persists : Bool) (disk : List String) : Playback :=
  { player := .start cacheDir persists, disk := disk }

/-- The step of the player is one on this disk. -/
def allows (b : Playback) : PlayerStep → Bool
  | .coordinate io =>
    b.player.messages.head?.all fun m => decide (b.player.coordinator.MeetsDisk b.disk m.1 io)
  | _ => true

/-- Whether playback is paused after a step of the player. -/
def pausedAfter (b : Playback) : PlayerStep → Bool
  | .engineCommand _ =>
    (b.player.coordinator.playbackTx.head?.map fun command =>
      command.pausedAfter b.userPaused).getD b.userPaused
  | _ => b.userPaused

def step (b : Playback) : PlaybackStep → Option Playback
  | .player a =>
    if b.allows a then
      (b.player.step a).map fun player => { b with player := player, userPaused := b.pausedAfter a }
    else none
  | .store path => some { b with disk := path :: b.disk }
  | .evict path => some { b with disk := b.disk.filter (· ≠ path) }
  | .giveUp =>
    if b.player.engine.mpv.file.isSome then
      some { b with
        player.engine.mpv := { b.player.engine.mpv with file := none, eofReached := false } }
    else none

end Playback

/-! ### The property -/

/-- Nothing is pending, and no timer either; the coordinator downloads while it handles a
    message. -/
def Player.Idle (p : Player) : Prop := p.Quiescent ∧ p.engine.timers = []

/-- A non-empty queue that loops. -/
def AppState.Loops (s : AppState) : Prop := s.queue.items ≠ [] ∧ s.queue.loopEnabled = true

/-- A video is being played whose end the loop will report: it asks for it, and remembers no
    earlier end of the same file. -/
def Engine.WillReport (e : Engine) : Prop :=
  e.loop.stopped = false ∧ e.state.isPlaying = true ∧ e.state.isImage = false ∧
    e.resetEof = none ∧ e.mpv.file.isSome = true ∧ e.mpv.paused = false

/-- mpv is in the middle of an item of the queue. -/
def Player.PlaysItem (p : Player) : Prop :=
  ∃ item ∈ p.coordinator.state.queue.items,
    p.engine.mpv.file = some (p.coordinator.pathOf item) ∧ p.engine.state.isPlaying = true ∧
      p.engine.mpv.paused = false ∧ p.engine.mpv.eofReached = false

/-- **Playback does not stall** on a looping queue with a cached item. -/
def Playback.GoesOn (b : Playback) : Prop :=
  b.player.Idle → b.player.coordinator.state.Loops → b.userPaused = false →
    (∃ item ∈ b.player.coordinator.state.queue.items,
      b.player.coordinator.pathOf item ∈ b.disk) →
    b.player.PlaysItem ∨ b.player.engine.WillReport

instance (p : Player) : Decidable p.Idle := by
  unfold Player.Idle Player.Quiescent
  infer_instance

instance (s : AppState) : Decidable s.Loops := by
  unfold AppState.Loops
  infer_instance

instance (e : Engine) : Decidable e.WillReport := by
  unfold Engine.WillReport
  infer_instance

instance (p : Player) : Decidable p.PlaysItem := by
  unfold Player.PlaysItem
  infer_instance

instance (b : Playback) : Decidable b.GoesOn := by
  unfold Playback.GoesOn
  infer_instance

/-! ### The condition -/

/-- The download of a playlist that a message brings readies an item; an update of the playlist
    needs none while it keeps the current media. -/
def Coordinator.Readies (c : Coordinator) (io : HandlerIO) : CoordinatorMessage → Prop
  | .serverMessage (.playlistAssigned _) => io.firstCached = true ∨ 0 < io.ready
  | .serverMessage (.playlistUpdated msg) => c.keepsCurrent msg.items = true ∨ 0 < io.ready
  | .serverMessage (.playlistInterrupt _) => io.firstCached = true ∨ 0 < io.ready
  | .serverMessage (.playlistResume _) => io.firstCached = true ∨ 0 < io.ready
  | .tryOfflineRestore => io.firstCached = true ∨ 0 < io.ready
  | .offlineScheduleSwitch _ => io.firstCached = true ∨ 0 < io.ready
  | _ => True

/-- The engine carries out a command to play or resume, and a video is not the file whose end the
    loop reported last. -/
def Engine.CarriesOut (e : Engine) (io : CommandIO) : PlaybackCommand → Prop
  | .play path isVideo _ =>
    io.ok = true ∧ (io.unpause = true ∨ e.mpv.paused = false) ∧
      (isVideo = true → e.loop.eofSentForFile ≠ some path)
  | .resume => io.ok = true ∨ e.mpv.paused = false
  | _ => True

instance (c : Coordinator) (io : HandlerIO) (message : CoordinatorMessage) :
    Decidable (c.Readies io message) := by
  unfold Coordinator.Readies
  split <;> infer_instance

instance (e : Engine) (io : CommandIO) (command : PlaybackCommand) :
    Decidable (e.CarriesOut io command) := by
  unfold Engine.CarriesOut
  split <;> infer_instance

/-- **What a step must not do** for playback to go on: turn to an item that is not on disk, bring a
    playlist of which nothing is ready, fail to play or resume, play a video right after its own
    end, lose the socket five times in a row, or give up a video. -/
def Playback.Unfailing (b : Playback) : PlaybackStep → Prop
  | .player (.coordinate io) => ∀ m ∈ b.player.messages.head?,
      (∀ item ∈ b.player.coordinator.attempts m.1 io, b.player.coordinator.pathOf item ∈ b.disk) ∧
        b.player.coordinator.Readies io m.1
  | .player (.engineCommand io) => ∀ command ∈ b.player.coordinator.playbackTx.head?,
      b.player.engine.CarriesOut io command
  | .player (.poll io) => io.connects = true ∨ b.player.engine.loop.ipcFailCount + 1 < 5
  | .giveUp => b.player.engine.state.isImage = true
  | _ => True

instance (b : Playback) (a : PlaybackStep) : Decidable (b.Unfailing a) := by
  unfold Playback.Unfailing
  split <;> infer_instance

end Montr.Client
