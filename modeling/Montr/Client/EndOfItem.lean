import Montr.Client.Player

namespace Montr.Client

open Transition

/-!
# Which item ends

An `EndFile` of the engine reaches the coordinator as a `MediaFinished` without identity, and
every one of them advances the queue.  `Player.OnlyLoaded` is the contract of a step;
`Attributed` is the invariant that carries it through the runs in which no timer fires for an item
that is gone or paused, and no item is replaced while its end is on the way.
-/

/-- The item of the event is loaded, and was not paused when it ended. -/
def Origin.Current (o : Origin) (e : Engine) : Prop :=
  e.loadedPlay = some o.play ∧ o.paused = false

namespace Player

/-- Handling the message ends an analytics session or moves the queue. -/
def Advances (p : Player) (message : CoordinatorMessage) (io : HandlerIO) : Prop :=
  p.coordinator.currentPlaybackLogId.isSome = true ∨
    (p.coordinator.handleMessage message io).state.queue ≠ p.coordinator.state.queue

/-- **The contract of a step**: a `MediaFinished` that has an effect is that of the loaded item,
    which was not paused, and the timer of another item has none. -/
def OnlyLoaded (p : Player) : PlayerStep → Prop
  | .coordinate io =>
    ∀ message origin rest, p.messages = (message, origin) :: rest →
      message.isMediaFinished = true → p.Advances message io →
        ∃ o, origin = some o ∧ o.Current p.engine
  | .timerFires n =>
    ∀ timer, p.engine.timers[n]? = some timer → p.engine.loadedPlay ≠ some timer.play →
      (p.engine.timerFired n).1.state = p.engine.state ∧ (p.engine.timerFired n).2 = []
  | _ => True

/-- A timer fires for the loaded item, while it is not paused, and an item is replaced or stopped
    only when no end is on its way. -/
def InTime (p : Player) : PlayerStep → Prop
  | .timerFires n =>
    ∀ timer, p.engine.timers[n]? = some timer →
      p.engine.loadedPlay = some timer.play ∧ p.engine.mpv.paused = false
  | .engineCommand io =>
    ∀ command rest, p.coordinator.playbackTx = command :: rest → io.ok = true →
      ((∃ path isVideo seconds, command = .play path isVideo seconds) ∨ command = .stop) →
        p.Settled
  | _ => True

end Player

/-! ### The engine -/

namespace Engine

variable {e : Engine}

/-- A file that has ended is loaded, and is not paused while the engine plays. -/
def EofUnpaused (e : Engine) : Prop :=
  e.mpv.eofReached = true →
    e.mpv.file.isSome = true ∧ (e.state.isPlaying = true → e.mpv.paused = false)

theorem EofUnpaused.handleCommand (h : e.EofUnpaused) (c : PlaybackCommand) (io : CommandIO) :
    (e.handleCommand c io).1.EofUnpaused := by
  cases hio : io.ok with
  | false =>
    rw [handleCommand_of_failed c hio]
    exact h
  | true =>
    cases c with
    | volume level => exact h
    | play path isVideo seconds =>
      intro heof
      simp [Engine.handleCommand, play, hio] at heof
    | pause =>
      simp only [Engine.handleCommand, Engine.pause, hio, if_true]
      exact fun heof => ⟨(h heof).1, fun hp => absurd hp Bool.false_ne_true⟩
    | resume =>
      simp only [Engine.handleCommand, Engine.resume, hio, if_true]
      exact fun heof => ⟨(h heof).1, fun _ => rfl⟩
    | stop =>
      simp only [Engine.handleCommand, Engine.stop, hio, if_true]
      exact fun heof => absurd heof Bool.false_ne_true
    | seek position =>
      simp only [Engine.handleCommand, Engine.seek, hio, if_true]
      exact fun heof => absurd heof Bool.false_ne_true

/-- A step that leaves mpv alone and does not start the engine. -/
theorem EofUnpaused.of_le {e' : Engine} (h : e.EofUnpaused) (hmpv : e'.mpv = e.mpv)
    (hplaying : e'.state.isPlaying = true → e.state.isPlaying = true) : e'.EofUnpaused := by
  unfold EofUnpaused
  rw [hmpv]
  exact fun heof => ⟨(h heof).1, fun hp => (h heof).2 (hplaying hp)⟩

/-- Only a play or a stop that succeeds changes what is loaded. -/
theorem loadedPlay_handleCommand {c : PlaybackCommand} {io : CommandIO}
    (h : ¬ (io.ok = true ∧
      ((∃ path isVideo seconds, c = .play path isVideo seconds) ∨ c = .stop))) :
    (e.handleCommand c io).1.loadedPlay = e.loadedPlay := by
  cases hio : io.ok with
  | false => rw [handleCommand_of_failed c hio]
  | true =>
    cases c with
    | play path isVideo seconds => exact absurd ⟨hio, .inl ⟨_, _, _, rfl⟩⟩ h
    | stop => exact absurd ⟨hio, .inr rfl⟩ h
    | pause => simp [handleCommand, pause, hio, loadedPlay]
    | resume => simp [handleCommand, resume, hio, loadedPlay]
    | volume level => rfl
    | seek position => simp [handleCommand, seek, hio, loadedPlay]

theorem loadedPlay_of_mpv {e' : Engine} (h : e'.mpv = e.mpv) : e'.loadedPlay = e.loadedPlay := by
  rw [loadedPlay, loadedPlay, h]

/-- An end found by the loop is that of the loaded file, which is not paused. -/
theorem EofUnpaused.current_of_findsEof (h : e.EofUnpaused) {io : PollIO} (hfinds : e.FindsEof io) :
    Origin.Current ⟨e.mpv.plays, e.mpv.paused⟩ e := by
  obtain ⟨⟨-, -, hplays, -⟩, -, -, heof⟩ := hfinds
  obtain ⟨hsome, hunpaused⟩ := h heof
  obtain ⟨f, hf⟩ := Option.isSome_iff_exists.mp hsome
  exact ⟨by simp [loadedPlay, hf], hunpaused hplays⟩

end Engine

/-! ### The invariant -/

/-- Every end on its way is that of the loaded item. -/
structure Attributed (p : Player) : Prop where
  events : ∀ e ∈ p.events, e.1 = .endFile → e.2.Current p.engine
  messages : ∀ m ∈ p.messages, m.1.isMediaFinished = true →
    ∃ o, m.2 = some o ∧ o.Current p.engine
  eof : p.engine.EofUnpaused

namespace Attributed

variable {p q : Player}

/-- The engine moves without replacing its file; the ends it sends are of that file. -/
theorem moved (h : Attributed p) {play : Nat} {out : Engine × List PlaybackEvent}
    (hloaded : out.1.loadedPlay = p.engine.loadedPlay) (heof : out.1.EofUnpaused)
    (hends : .endFile ∈ out.2 → Origin.Current ⟨play, p.engine.mpv.paused⟩ p.engine) :
    Attributed (p.moved play out) := by
  have hkeep : ∀ o : Origin, o.Current p.engine → o.Current out.1 := by
    rintro o ⟨hplay, hpaused⟩
    exact ⟨hloaded.trans hplay, hpaused⟩
  refine ⟨?_, ?_, heof⟩
  · intro e he hend
    rcases List.mem_append.mp he with hold | hnew
    · exact hkeep _ (h.events e hold hend)
    · obtain ⟨event, hevent, rfl⟩ := List.mem_map.mp hnew
      obtain rfl : event = .endFile := hend
      exact hkeep _ (hends hevent)
  · intro m hm hfinished
    obtain ⟨o, ho, hcurrent⟩ := h.messages m hm hfinished
    exact ⟨o, ho, hkeep o hcurrent⟩

/-- With no end on its way the engine may do anything that sends none. -/
theorem moved_of_settled (h : p.Settled) {play : Nat} {out : Engine × List PlaybackEvent}
    (heof : out.1.EofUnpaused) (hends : .endFile ∉ out.2) : Attributed (p.moved play out) := by
  refine ⟨?_, ?_, heof⟩
  · intro e he hend
    rcases List.mem_append.mp he with hold | hnew
    · exact absurd hend (h.1 e hold)
    · obtain ⟨event, hevent, rfl⟩ := List.mem_map.mp hnew
      obtain rfl : event = .endFile := hend
      exact absurd hevent hends
  · intro m hm hfinished
    rw [h.2 m hm] at hfinished
    cases hfinished

/-- **Step lemma.** -/
theorem step (h : Attributed p) {a : PlayerStep} (intime : p.InTime a) (hstep : p.step a = some q) :
    Attributed q := by
  cases a with
  | receive message =>
    obtain ⟨hkind, rfl⟩ := Player.step_receive hstep
    refine ⟨h.events, ?_, h.eof⟩
    intro m hm hfinished
    rcases List.mem_append.mp hm with hold | hnew
    · exact h.messages m hold hfinished
    · -- another task does not post playback events
      obtain rfl := List.mem_singleton.mp hnew
      have hevent := CoordinatorMessage.isPlaybackEvent_of_isMediaFinished hfinished
      exact absurd (hevent.symm.trans hkind) (by decide)
  | coordinate io =>
    obtain ⟨message, origin, rest, hmessages, rfl⟩ := Player.step_coordinate hstep
    refine ⟨h.events, fun m hm => h.messages m ?_, h.eof⟩
    rw [hmessages]
    exact List.mem_cons_of_mem _ hm
  | engineCommand io =>
    obtain ⟨command, rest, htx, rfl⟩ := Player.step_engineCommand hstep
    have heof := h.eof.handleCommand command io
    have hends : .endFile ∉ (p.engine.handleCommand command io).2 :=
      List.count_eq_zero.mp (p.engine.count_handleCommand command io)
    by_cases hreplaces : io.ok = true ∧
        ((∃ path isVideo seconds, command = .play path isVideo seconds) ∨ command = .stop)
    · have hsettled : p.Settled := intime command rest htx hreplaces.1 hreplaces.2
      -- the file is replaced, and no end of the old one is left
      exact moved_of_settled (p := { p with coordinator.playbackTx := rest }) hsettled heof hends
    · have hp : Attributed { p with coordinator.playbackTx := rest } :=
        ⟨h.events, h.messages, h.eof⟩
      exact hp.moved (Engine.loadedPlay_handleCommand hreplaces) heof fun hmem => absurd hmem hends
  | poll io =>
    obtain rfl := Player.step_poll hstep
    obtain ⟨hcount, hplaying, -, -, -, hmpv, -⟩ := p.engine.poll_spec io
    refine h.moved (Engine.loadedPlay_of_mpv hmpv) (h.eof.of_le hmpv ?_) ?_
    · intro hp
      rw [hplaying] at hp
      exact (Bool.and_eq_true_iff.mp hp).1
    · -- the pass found the end, of the file that is loaded
      intro hmem
      have hfinds : p.engine.FindsEof io := by
        by_contra hnot
        rw [if_neg hnot] at hcount
        exact List.count_eq_zero.mp hcount hmem
      exact h.eof.current_of_findsEof hfinds
  | timerFires n =>
    obtain ⟨timer, htimer, rfl⟩ := Player.step_timerFires hstep
    obtain ⟨hloaded, hpaused⟩ := intime timer htimer
    have heof : (p.engine.timerFired n).1.EofUnpaused :=
      h.eof.of_le rfl fun hp => absurd hp Bool.false_ne_true
    exact h.moved rfl heof fun _ => ⟨hloaded, hpaused⟩
  | reachEof =>
    obtain ⟨⟨hfile, hpaused, -⟩, rfl⟩ := Player.step_reachEof hstep
    exact ⟨h.events, h.messages, fun _ => ⟨hfile, fun _ => hpaused⟩⟩
  | bridge =>
    obtain ⟨event, origin, rest, hevents, rfl⟩ := Player.step_bridge hstep
    refine ⟨fun e he => h.events e ?_, ?_, h.eof⟩
    · rw [hevents]
      exact List.mem_cons_of_mem _ he
    · intro m hm hfinished
      rcases List.mem_append.mp hm with hold | hnew
      · exact h.messages m hold hfinished
      · obtain ⟨message, hmessage, rfl⟩ := List.mem_map.mp hnew
        have hend : event = .endFile :=
          eq_endFile_of_bridgeEvent (Option.mem_toList.mp hmessage) hfinished
        exact ⟨origin, rfl, h.events (event, origin) (by rw [hevents]; simp) hend⟩

/-- The invariant gives the contract of a step that meets the condition. -/
theorem onlyLoaded (h : Attributed p) {a : PlayerStep} (intime : p.InTime a) : p.OnlyLoaded a := by
  cases a with
  | coordinate io =>
    intro message origin rest hmessages hfinished _
    exact h.messages (message, origin) (by rw [hmessages]; simp) hfinished
  | timerFires n =>
    intro timer htimer hother
    exact absurd (intime timer htimer).1 hother
  | receive message => trivial
  | engineCommand io => trivial
  | poll io => trivial
  | reachEof => trivial
  | bridge => trivial

end Attributed

/-! ### Runs -/

/-- **Only the loaded item advances the queue**, in the runs that meet `InTime`. -/
theorem Player.onlyLoaded_of_inTime {cacheDir : String} {persists : Bool} {as : List PlayerStep}
    {p : Player} {a : PlayerStep}
    (run : Guarded Player.step Player.InTime (Player.start cacheDir persists) as p)
    (intime : p.InTime a) : p.OnlyLoaded a := by
  have hstart : Attributed (Player.start cacheDir persists) := ⟨nofun, nofun, nofun⟩
  exact (run.invariant hstart fun _ _ _ h hc hstep => h.step hc hstep).onlyLoaded intime

/-- An image plays to the end of its timer and is followed by the next. -/
theorem Player.onlyLoaded_of_inTime_image :
    ∃ p, Guarded Player.step Player.InTime (Player.start "/cache" true)
        [.receive (.serverMessage (.playlistAssigned
            ⟨1, "lobby", [.image 1 "a.png", .image 2 "b.png"], true⟩)),
          .coordinate { logId := some 1 }, .engineCommand {}, .timerFires 0, .bridge, .bridge] p ∧
      p.Advances (.playbackEvent (.mediaFinished 0)) {} ∧ p.OnlyLoaded (.coordinate {}) := by
  have run : Guarded Player.step Player.InTime (Player.start "/cache" true)
      [.receive (.serverMessage (.playlistAssigned
          ⟨1, "lobby", [.image 1 "a.png", .image 2 "b.png"], true⟩)),
        .coordinate { logId := some 1 }, .engineCommand {}, .timerFires 0, .bridge, .bridge] _ :=
    .cons trivial rfl <| .cons trivial rfl <| .cons (fun _ _ _ _ _ => ⟨nofun, nofun⟩) rfl <|
      .cons (fun timer h => by cases h; exact ⟨rfl, rfl⟩) rfl <| .cons trivial rfl <|
      .cons trivial rfl .nil
  exact ⟨_, run, .inl rfl, Player.onlyLoaded_of_inTime run trivial⟩

/-- The first image is skipped, and its timer fires while the second is shown: the coordinator
    advances. -/
theorem Player.not_onlyLoaded_skip :
    ∃ p, Reaches Player.step (Player.start "/cache" true)
        [.receive (.serverMessage (.playlistAssigned
            ⟨1, "lobby", [.image 1 "a.png", .image 2 "b.png"], true⟩)),
          .coordinate { logId := some 1 }, .engineCommand {},
          .receive (.serverMessage (.command .skip)),
          .coordinate { logId := some 2 }, .engineCommand {},
          .timerFires 0, .bridge, .bridge, .bridge] p ∧
      ¬ p.OnlyLoaded (.coordinate {}) := by
  refine ⟨_, reaches_of_exec rfl, fun h => ?_⟩
  obtain ⟨o, ho, hloaded, -⟩ := h _ _ _ rfl rfl (.inl rfl)
  -- the event is of the first play, and the second is loaded
  cases ho
  exact absurd hloaded (by decide)

end Montr.Client
