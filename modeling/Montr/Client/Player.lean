import Montr.Client.Coordinator
import Montr.Lib.Transition

namespace Montr.Client

/-!
# The player

Engine, event bridge (`main.rs`) and coordinator, joined by their channels: commands to the engine
(`playbackTx` of the coordinator), events to the bridge, messages to the coordinator.  The steps
may come in any order.

An event carries its origin, which the code does not send: the play it came from, and whether mpv
was paused then.
-/

/-- Where an event comes from. -/
structure Origin where
  play : Nat
  paused : Bool
  deriving DecidableEq, Repr

structure Player where
  coordinator : Coordinator := {}
  engine : Engine := {}
  events : List (PlaybackEvent × Origin) := []
  messages : List (CoordinatorMessage × Option Origin) := []
  deriving DecidableEq, Repr

/-- What the player does next. -/
inductive PlayerStep
  /-- Another task posts a message: the WebSocket receiver, or an offline task. -/
  | receive (message : CoordinatorMessage)
  | coordinate (io : HandlerIO)
  | engineCommand (io : CommandIO)
  | poll (io : PollIO)
  | timerFires (n : Nat)
  | reachEof
  | bridge
  deriving Repr

/-- What the bridge makes of an event. -/
def bridgeEvent : PlaybackEvent → Option PlaybackEventMessage
  | .endFile => some (.mediaFinished 0)
  | .positionChanged position => some (.positionUpdate position)
  | .error message => some (.error 0 message)
  | .started _ => none
  | .paused => none
  | .resumed => none
  | .stopped => none

/-- Playback events are posted by the bridge only. -/
def CoordinatorMessage.isPlaybackEvent : CoordinatorMessage → Bool
  | .playbackEvent _ => true
  | _ => false

def CoordinatorMessage.isMediaFinished : CoordinatorMessage → Bool
  | .playbackEvent (.mediaFinished _) => true
  | _ => false

theorem CoordinatorMessage.isPlaybackEvent_of_isMediaFinished {message : CoordinatorMessage}
    (h : message.isMediaFinished = true) : message.isPlaybackEvent = true := by
  cases message with
  | playbackEvent event => rfl
  | _ => cases h

/-- Only an `EndFile` becomes a `MediaFinished`. -/
theorem eq_endFile_of_bridgeEvent {event : PlaybackEvent} {message : PlaybackEventMessage}
    (h : bridgeEvent event = some message)
    (hfinished : (CoordinatorMessage.playbackEvent message).isMediaFinished = true) :
    event = .endFile := by
  cases event with
  | endFile => rfl
  | positionChanged position =>
    cases h
    cases hfinished
  | error text =>
    cases h
    cases hfinished
  | _ => cases h

namespace Player

/-- The player at boot. -/
def start (cacheDir : String) (persists : Bool) : Player :=
  { coordinator := { cacheDir := cacheDir, persists := persists } }

/-- No end of an item is on its way to the coordinator. -/
def Settled (p : Player) : Prop :=
  (∀ e ∈ p.events, e.1 ≠ .endFile) ∧ ∀ m ∈ p.messages, m.1.isMediaFinished = false

/-- The engine has moved and sent events, which come from the given play. -/
def moved (p : Player) (play : Nat) (out : Engine × List PlaybackEvent) : Player :=
  { p with
    engine := out.1
    events := p.events ++ out.2.map fun event => (event, ⟨play, p.engine.mpv.paused⟩) }

def step (p : Player) : PlayerStep → Option Player
  | .receive message =>
    if message.isPlaybackEvent then none
    else some { p with messages := p.messages ++ [(message, none)] }
  | .coordinate io =>
    match p.messages with
    | [] => none
    | (message, _) :: rest =>
      some { p with messages := rest, coordinator := p.coordinator.handleMessage message io }
  | .engineCommand io =>
    match p.coordinator.playbackTx with
    | [] => none
    | command :: rest =>
      some ({ p with coordinator.playbackTx := rest }.moved p.engine.mpv.plays
        (p.engine.handleCommand command io))
  | .poll io => some (p.moved p.engine.mpv.plays (p.engine.poll io))
  | .timerFires n =>
    match p.engine.timers[n]? with
    | none => none
    | some timer => some (p.moved timer.play (p.engine.timerFired n))
  | .reachEof =>
    (p.engine.step .reachEof).map fun out => p.moved p.engine.mpv.plays out
  | .bridge =>
    match p.events with
    | [] => none
    | (event, origin) :: rest =>
      some { p with
        events := rest
        messages := p.messages ++ (bridgeEvent event).toList.map fun message =>
          (.playbackEvent message, some origin) }

/-! ### One inversion lemma per step -/

variable {p q : Player}

theorem step_receive {message : CoordinatorMessage} (h : p.step (.receive message) = some q) :
    message.isPlaybackEvent = false ∧
      q = { p with messages := p.messages ++ [(message, none)] } := by
  unfold step at h
  cases hm : message.isPlaybackEvent with
  | true => simp [hm] at h
  | false =>
    refine ⟨rfl, ?_⟩
    simpa [hm] using h.symm

theorem step_coordinate {io : HandlerIO} (h : p.step (.coordinate io) = some q) :
    ∃ message origin rest, p.messages = (message, origin) :: rest ∧
      q = { p with messages := rest, coordinator := p.coordinator.handleMessage message io } := by
  unfold step at h
  cases hm : p.messages with
  | nil => simp [hm] at h
  | cons head rest =>
    obtain ⟨message, origin⟩ := head
    refine ⟨message, origin, rest, rfl, ?_⟩
    simpa [hm] using h.symm

theorem step_engineCommand {io : CommandIO} (h : p.step (.engineCommand io) = some q) :
    ∃ command rest, p.coordinator.playbackTx = command :: rest ∧
      q = { p with coordinator.playbackTx := rest }.moved p.engine.mpv.plays
        (p.engine.handleCommand command io) := by
  unfold step at h
  cases hc : p.coordinator.playbackTx with
  | nil => simp [hc] at h
  | cons command rest =>
    refine ⟨command, rest, rfl, ?_⟩
    simpa [hc] using h.symm

theorem step_poll {io : PollIO} (h : p.step (.poll io) = some q) :
    q = p.moved p.engine.mpv.plays (p.engine.poll io) := by
  simpa [step] using h.symm

theorem step_timerFires {n : Nat} (h : p.step (.timerFires n) = some q) :
    ∃ timer, p.engine.timers[n]? = some timer ∧
      q = p.moved timer.play (p.engine.timerFired n) := by
  unfold step at h
  cases ht : p.engine.timers[n]? with
  | none => simp [ht] at h
  | some timer =>
    refine ⟨timer, rfl, ?_⟩
    simpa [ht] using h.symm

theorem step_reachEof (h : p.step .reachEof = some q) :
    (p.engine.mpv.file.isSome = true ∧ p.engine.mpv.paused = false ∧
      p.engine.mpv.eofReached = false) ∧ q = { p with engine := p.engine.reachEof } := by
  obtain ⟨out, hout, rfl⟩ := Option.map_eq_some_iff.mp h
  obtain ⟨hcan, rfl⟩ :
      (p.engine.mpv.file.isSome = true ∧ p.engine.mpv.paused = false ∧
        p.engine.mpv.eofReached = false) ∧ (p.engine.reachEof, []) = out := by
    simpa [Engine.step] using hout
  exact ⟨hcan, by simp [moved]⟩

theorem step_bridge (h : p.step .bridge = some q) :
    ∃ event origin rest, p.events = (event, origin) :: rest ∧
      q = { p with
        events := rest
        messages := p.messages ++ (bridgeEvent event).toList.map fun message =>
          (.playbackEvent message, some origin) } := by
  unfold step at h
  cases he : p.events with
  | nil => simp [he] at h
  | cons head rest =>
    obtain ⟨event, origin⟩ := head
    refine ⟨event, origin, rest, rfl, ?_⟩
    simpa [he] using h.symm

end Player

end Montr.Client
