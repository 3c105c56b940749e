import Mathlib.Data.List.Basic

namespace Montr.Client

/-!
# The playback engine

`playback/engine.rs`: the command handlers, the polling loop and the image timers, over the mpv
process they talk to.  An operation returns the engine after it and the events it sends.

Each IPC exchange succeeds or fails (`CommandIO`, `PollIO`); a failed one leaves mpv as it was.
Subtitles, volume and the quality counters change nothing that is read here, and seconds are
whole numbers.  Image timers are tasks of their own: `timers` lists those still asleep.
-/

/-- Commands that can be sent to the playback engine. -/
inductive PlaybackCommand
  | play (path : String) (isVideo : Bool) (imageDuration : Option Nat)
  | pause
  | resume
  | stop
  | volume (level : Int)
  | seek (position : Int)
  deriving DecidableEq, Repr

/-- Playback events emitted by the engine. -/
inductive PlaybackEvent
  | endFile
  | started (file : String)
  | paused
  | resumed
  | stopped
  | error (message : String)
  | positionChanged (position : Int)
  deriving DecidableEq, Repr

/-- Current playback state. -/
structure PlaybackState where
  currentFile : Option String := none
  isPlaying : Bool := false
  position : Option Int := none
  duration : Option Int := none
  isImage : Bool := false
  deriving DecidableEq, Repr

/-- The locals of `event_loop`. -/
structure EventLoop where
  eofSentForFile : Option String := none
  ipcFailCount : Nat := 0
  stopped : Bool := false
  deriving DecidableEq, Repr

/-- The sleeping task of an image play. -/
structure ImageTimer where
  play : Nat
  seconds : Nat
  deriving DecidableEq, Repr

/-- The mpv process: its file, whether it is paused, `eof-reached`, and how many files it has been
    given.  It keeps the file open at its end (`--keep-open`). -/
structure Mpv where
  file : Option String := none
  paused : Bool := false
  eofReached : Bool := false
  plays : Nat := 0
  deriving DecidableEq, Repr

structure Engine where
  state : PlaybackState := {}
  loop : EventLoop := {}
  timers : List ImageTimer := []
  mpv : Mpv := {}
  defaultImageDuration : Nat := 5
  deriving DecidableEq, Repr

/-- Whether the request of a command succeeds, and after `loadfile` whether `pause no` does. -/
structure CommandIO where
  ok : Bool := true
  unpause : Bool := true
  deriving DecidableEq, Repr

/-- One pass of the loop: whether the socket accepts a connection, the answer to `playback-time`,
    and whether `eof-reached` is answered. -/
structure PollIO where
  connects : Bool := true
  playbackTime : Option Int := none
  eofAnswered : Bool := true
  deriving DecidableEq, Repr

/-- `clamp_seek`. -/
def clampSeek (position : Int) : Int := max position 0

namespace Engine

/-! ### Commands -/

/-- `play`, with the duration resolved by `handle_command`. -/
def play (e : Engine) (path : String) (isImage : Bool) (seconds : Nat) (io : CommandIO) :
    Engine × List PlaybackEvent :=
  if io.ok then
    -- the answer to `pause no` is not looked at
    let plays := e.mpv.plays + 1
    ({ e with
        mpv := { file := some path, paused := if io.unpause then false else e.mpv.paused,
                 eofReached := false, plays := plays }
        state := { currentFile := some path, isPlaying := true, isImage := isImage }
        timers := if isImage then e.timers ++ [⟨plays, seconds⟩] else e.timers },
      [.started path])
  else (e, [])

def pause (e : Engine) (io : CommandIO) : Engine × List PlaybackEvent :=
  if io.ok then
    ({ e with mpv.paused := true, state.isPlaying := false }, [.paused])
  else (e, [])

def resume (e : Engine) (io : CommandIO) : Engine × List PlaybackEvent :=
  if io.ok then
    ({ e with mpv.paused := false, state.isPlaying := true }, [.resumed])
  else (e, [])

/-- `stop`; `is_image` stays. -/
def stop (e : Engine) (io : CommandIO) : Engine × List PlaybackEvent :=
  if io.ok then
    ({ e with
        mpv := { e.mpv with file := none, eofReached := false }
        state := { e.state with
          currentFile := none, isPlaying := false, position := none, duration := none } },
      [.stopped])
  else (e, [])

/-- `seek`; mpv leaves the end of the file. -/
def seek (e : Engine) (position : Int) (io : CommandIO) : Engine × List PlaybackEvent :=
  if io.ok then
    ({ e with mpv.eofReached := false, state.position := some (clampSeek position) }, [])
  else (e, [])

def handleCommand (e : Engine) (command : PlaybackCommand) (io : CommandIO) :
    Engine × List PlaybackEvent :=
  match command with
  | .play path isVideo imageDuration =>
    e.play path (!isVideo) (imageDuration.getD e.defaultImageDuration) io
  | .pause => e.pause io
  | .resume => e.resume io
  | .stop => e.stop io
  | .volume _ => (e, [])
  | .seek position => e.seek position io

/-! ### The polling loop -/

/-- "Reset EOF tracking when a new file starts playing". -/
def resetEof (e : Engine) : Option String :=
  match e.state.currentFile with
  | some current =>
    if e.loop.eofSentForFile ≠ some current ∧ e.state.isPlaying then none
    else e.loop.eofSentForFile
  | none => e.loop.eofSentForFile

/-- The answer to `playback-time`. -/
def pollPosition (e : Engine) (io : PollIO) : Engine × List PlaybackEvent :=
  match io.playbackTime with
  | some pos => ({ e with state.position := some pos }, [.positionChanged pos])
  | none => (e, [])

/-- "Check for end of file (only once per file)". -/
def pollEof (e : Engine) (io : PollIO) : Engine × List PlaybackEvent :=
  if e.loop.eofSentForFile = none ∧ io.eofAnswered ∧ e.mpv.eofReached then
    ({ e with loop.eofSentForFile := e.state.currentFile, state.isPlaying := false }, [.endFile])
  else (e, [])

/-- One pass of `event_loop`. -/
def poll (e : Engine) (io : PollIO) : Engine × List PlaybackEvent :=
  if e.loop.stopped then (e, [])
  else if !io.connects then
    let failCount := e.loop.ipcFailCount + 1
    -- the task reports the error and returns
    if 5 ≤ failCount then
      ({ e with loop.ipcFailCount := failCount, loop.stopped := true },
        [.error "mpv process unresponsive"])
    else ({ e with loop.ipcFailCount := failCount }, [])
  else
    let e := { e with loop.ipcFailCount := 0, loop.eofSentForFile := e.resetEof }
    -- mpv is asked about videos only; an image ends by its timer
    if e.state.isPlaying && !e.state.isImage then
      let (e, positions) := e.pollPosition io
      let (e, ends) := e.pollEof io
      (e, positions ++ ends)
    else (e, [])

/-! ### Timers and mpv -/

/-- The task of an image play wakes. -/
def timerFired (e : Engine) (n : Nat) : Engine × List PlaybackEvent :=
  ({ e with timers := e.timers.eraseIdx n, state.isPlaying := false }, [.endFile])

/-- mpv plays its file to the end, which it does not do while paused. -/
def reachEof (e : Engine) : Engine := { e with mpv.eofReached := true }

/-- The number of the play whose file is loaded. -/
def loadedPlay (e : Engine) : Option Nat := e.mpv.file.map fun _ => e.mpv.plays

end Engine

/-- What happens to the engine. -/
inductive EngineStep
  | command (command : PlaybackCommand) (io : CommandIO)
  | poll (io : PollIO)
  | timerFires (n : Nat)
  | reachEof
  deriving DecidableEq, Repr

/-- The engine after a step and its events; `none` when the step cannot happen. -/
def Engine.step (e : Engine) : EngineStep → Option (Engine × List PlaybackEvent)
  | .command command io => some (e.handleCommand command io)
  | .poll io => some (e.poll io)
  | .timerFires n => if n < e.timers.length then some (e.timerFired n) else none
  | .reachEof =>
    if e.mpv.file.isSome ∧ e.mpv.paused = false ∧ e.mpv.eofReached = false then
      some (e.reachEof, [])
    else none

/-! ### What the operations do -/

namespace Engine

variable {e : Engine}

/-- A pass of the loop asks for the end of the file when a video is playing. -/
def Asks (e : Engine) (io : PollIO) : Prop :=
  e.loop.stopped = false ∧ io.connects = true ∧ e.state.isPlaying = true ∧
    e.state.isImage = false

/-- A pass finds the end of the file. -/
def FindsEof (e : Engine) (io : PollIO) : Prop :=
  e.Asks io ∧ e.resetEof = none ∧ io.eofAnswered = true ∧ e.mpv.eofReached = true

instance (io : PollIO) : Decidable (e.Asks io) := by
  unfold Asks
  infer_instance

instance (io : PollIO) : Decidable (e.FindsEof io) := by
  unfold FindsEof
  infer_instance

/-- **A pass of the loop** sends `EndFile`, and stops playing, exactly when it finds the end of
    the file; then the loop remembers the file. -/
theorem poll_spec (e : Engine) (io : PollIO) :
    ((e.poll io).2.count .endFile = if e.FindsEof io then 1 else 0) ∧
      (e.poll io).1.state.isPlaying = (e.state.isPlaying && !decide (e.FindsEof io)) ∧
      (e.poll io).1.loop.eofSentForFile =
        (if e.FindsEof io then e.state.currentFile
        else if e.loop.stopped = false ∧ io.connects = true then e.resetEof
        else e.loop.eofSentForFile) ∧
      (e.poll io).1.state.currentFile = e.state.currentFile ∧
      (e.poll io).1.state.isImage = e.state.isImage ∧
      (e.poll io).1.mpv = e.mpv ∧ (e.poll io).1.timers = e.timers := by
  unfold poll
  by_cases hstopped : e.loop.stopped = true
  · simp [FindsEof, Asks, hstopped]
  by_cases hconnects : io.connects = true
  · by_cases hplaying : (e.state.isPlaying && !e.state.isImage) = true
    · -- the pass asks mpv, and the answer decides
      obtain ⟨hplays, himage⟩ : e.state.isPlaying = true ∧ e.state.isImage = false := by
        simpa using hplaying
      cases htime : io.playbackTime <;>
        by_cases heof : e.resetEof = none ∧ io.eofAnswered = true ∧ e.mpv.eofReached = true <;>
        simp [FindsEof, Asks, pollPosition, pollEof, hstopped, hconnects, hplays, himage, htime,
          heof]
    · have hasks : ¬ e.Asks io := by
        rintro ⟨-, -, hplays, himage⟩
        exact hplaying (by simp [hplays, himage])
      simp [FindsEof, hasks, hstopped, hconnects, hplaying]
  · -- a failed connect at most ends the loop
    have hasks : ¬ e.Asks io := fun h => hconnects h.2.1
    by_cases hcount : 5 ≤ e.loop.ipcFailCount + 1 <;>
      simp [FindsEof, hasks, hstopped, hconnects, hcount]

/-- A command whose request fails does nothing. -/
theorem handleCommand_of_failed (c : PlaybackCommand) {io : CommandIO} (hio : io.ok = false) :
    e.handleCommand c io = (e, []) := by
  cases c <;> simp [handleCommand, play, pause, resume, stop, seek, hio]

/-- A command sends no `EndFile`. -/
theorem count_handleCommand (e : Engine) (c : PlaybackCommand) (io : CommandIO) :
    (e.handleCommand c io).2.count .endFile = 0 := by
  cases hio : io.ok with
  | false => rw [handleCommand_of_failed c hio, List.count_nil]
  | true => cases c <;> simp [handleCommand, play, pause, resume, stop, seek, hio]

end Engine

end Montr.Client
