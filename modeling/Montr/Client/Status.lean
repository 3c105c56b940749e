import Montr.Client.Player
import Montr.Client.ReportedFile
import Montr.Client.ReportedPlaying

namespace Montr.Client

open Transition

/-!
# The reported status

The status reporter reads the application state, which follows the engine at a distance: commands
to the engine and events of the engine are on their way.  `Tracks` is the invariant: the state
reports the file of the engine ahead, and whether it plays unless the end of an item is on its
way.  In a quiescent state the engine ahead is the engine, and the report is truthful.
-/

namespace Player

/-- All commands, events and messages have been processed. -/
def Quiescent (p : Player) : Prop :=
  p.coordinator.playbackTx = [] ∧ p.events = [] ∧ p.messages = []

/-- **The contract**: the status reports whether the engine plays, and the item whose file the
    engine has loaded. -/
def Truthful (p : Player) : Prop :=
  p.coordinator.state.statusUpdate.isPlaying = p.engine.state.isPlaying ∧
    p.engine.state.currentFile = p.coordinator.state.statusUpdate.currentMedia.map fun media =>
      getCachePath p.coordinator.cacheDir media.id media.filename

/-- A message keeps the state in step with the engine ahead, and a command fails only when it would
    change nothing. -/
def InStep (p : Player) : PlayerStep → Prop
  | .coordinate io =>
    ∀ message origin rest, p.messages = (message, origin) :: rest →
      p.coordinator.KeepsFile p.engine.state.currentFile message io ∧
        p.coordinator.KeepsPlaying p.engine.state.isPlaying message io
  | .engineCommand io =>
    ∀ command rest, p.coordinator.playbackTx = command :: rest → io.ok = true ∨
      (command.fileAfter p.engine.state.currentFile = p.engine.state.currentFile ∧
        command.playingAfter p.engine.state.isPlaying = p.engine.state.isPlaying)
  | _ => True

end Player

/-- What a command does to the file and the playing of the engine. -/
theorem Engine.state_handleCommand {e : Engine} {command : PlaybackCommand} {io : CommandIO}
    (h : io.ok = true ∨ (command.fileAfter e.state.currentFile = e.state.currentFile ∧
      command.playingAfter e.state.isPlaying = e.state.isPlaying)) :
    (e.handleCommand command io).1.state.currentFile = command.fileAfter e.state.currentFile ∧
      (e.handleCommand command io).1.state.isPlaying =
        command.playingAfter e.state.isPlaying := by
  cases hio : io.ok with
  | true =>
    cases command <;>
      simp [handleCommand, play, pause, resume, stop, seek, hio, PlaybackCommand.fileAfter,
        PlaybackCommand.playingAfter]
  | false =>
    obtain ⟨hfile, hplaying⟩ := h.resolve_left (by simp [hio])
    rw [handleCommand_of_failed command hio, hfile, hplaying]
    exact ⟨rfl, rfl⟩

theorem CoordinatorMessage.isEnd_of_isMediaFinished {message : CoordinatorMessage}
    (h : message.isMediaFinished = true) : message.isEnd = true := by
  cases message with
  | playbackEvent event =>
    cases event with
    | mediaFinished id => rfl
    | _ => cases h
  | _ => cases h

/-! ### The invariant -/

/-- The application state reports the engine ahead. -/
structure Tracks (p : Player) : Prop where
  file : p.coordinator.ReportsFile p.engine.state.currentFile
  playing : p.Settled → p.coordinator.ReportsPlaying p.engine.state.isPlaying
  /-- The bridge does not forward the start of an item. -/
  bridged : ∀ m ∈ p.messages, ∀ id, m.1 ≠ .playbackEvent (.mediaStarted id)

namespace Tracks

variable {p q : Player}

/-- In a quiescent state the engine ahead is the engine. -/
theorem truthful (h : Tracks p) (quiet : p.Quiescent) : p.Truthful := by
  obtain ⟨htx, hevents, hmessages⟩ := quiet
  have hsettled : p.Settled := ⟨by simp [hevents], by simp [hmessages]⟩
  have hplaying := h.playing hsettled
  have hfile := h.file
  unfold Coordinator.ReportsPlaying Coordinator.playingAhead at hplaying
  unfold Coordinator.ReportsFile Coordinator.fileAhead at hfile
  rw [htx] at hplaying hfile
  exact ⟨hplaying.symm, hfile⟩

/-- What is settled after events have been sent was settled before. -/
theorem settled_of_moved {play : Nat} {out : Engine × List PlaybackEvent}
    (h : (p.moved play out).Settled) : p.Settled ∧ .endFile ∉ out.2 := by
  obtain ⟨hevents, hmessages⟩ := h
  refine ⟨⟨fun e he => hevents e (List.mem_append_left _ he), hmessages⟩, fun hmem => ?_⟩
  exact hevents _ (List.mem_append_right _ (List.mem_map_of_mem hmem)) rfl

/-- **Step lemma.** -/
theorem step (h : Tracks p) {a : PlayerStep} (instep : p.InStep a) (hstep : p.step a = some q) :
    Tracks q := by
  cases a with
  | receive message =>
    obtain ⟨hkind, rfl⟩ := Player.step_receive hstep
    refine ⟨h.file, fun hsettled => h.playing ⟨hsettled.1, fun m hm => ?_⟩, ?_⟩
    · exact hsettled.2 m (List.mem_append_left _ hm)
    · intro m hm id heq
      rcases List.mem_append.mp hm with hold | hnew
      · exact h.bridged m hold id heq
      · obtain rfl := List.mem_singleton.mp hnew
        obtain rfl : message = _ := heq
        cases hkind
  | coordinate io =>
    obtain ⟨message, origin, rest, hmessages, rfl⟩ := Player.step_coordinate hstep
    obtain ⟨hkeepsFile, hkeepsPlaying⟩ := instep message origin rest hmessages
    have hbridged : ∀ id, message ≠ .playbackEvent (.mediaStarted id) :=
      h.bridged (message, origin) (by rw [hmessages]; exact List.mem_cons_self)
    refine ⟨Coordinator.handleMessage_reportsFile h.file hkeepsFile hbridged, ?_, ?_⟩
    · intro hsettled
      refine Coordinator.handleMessage_reportsPlaying (fun hend => h.playing ⟨hsettled.1, ?_⟩)
        hkeepsPlaying hbridged
      -- the message that is handled is no end of an item either
      intro m hm
      rw [hmessages] at hm
      rcases List.mem_cons.mp hm with rfl | hrest
      · cases hfinished : message.isMediaFinished with
        | false => rfl
        | true =>
          have hend' := CoordinatorMessage.isEnd_of_isMediaFinished hfinished
          exact absurd (hend'.symm.trans hend) (by decide)
      · exact hsettled.2 m hrest
    · intro m hm
      exact h.bridged m (by rw [hmessages]; exact List.mem_cons_of_mem _ hm)
  | engineCommand io =>
    obtain ⟨command, rest, htx, rfl⟩ := Player.step_engineCommand hstep
    obtain ⟨hfile, hplaying⟩ := Engine.state_handleCommand (instep command rest htx)
    refine ⟨?_, fun hsettled => ?_, h.bridged⟩
    · -- the engine ahead stays the same
      have hahead := h.file
      unfold Coordinator.ReportsFile Coordinator.fileAhead at hahead
      rw [htx, List.foldl_cons, ← hfile] at hahead
      exact hahead
    · -- a command sends no end, so the player was settled before it
      have hahead := h.playing (settled_of_moved hsettled).1
      unfold Coordinator.ReportsPlaying Coordinator.playingAhead at hahead
      rw [htx, List.foldl_cons, ← hplaying] at hahead
      exact hahead
  | poll io =>
    obtain rfl := Player.step_poll hstep
    obtain ⟨hcount, hplaying, -, hfile, -, -, -⟩ := p.engine.poll_spec io
    refine ⟨?_, fun hsettled => ?_, h.bridged⟩
    · show p.coordinator.ReportsFile (p.engine.poll io).1.state.currentFile
      rw [hfile]
      exact h.file
    · obtain ⟨hbefore, hnone⟩ := settled_of_moved hsettled
      -- a pass that finds the end leaves it on its way
      have hfinds : ¬ p.engine.FindsEof io := by
        intro hfinds
        rw [if_pos hfinds, List.count_eq_zero.mpr hnone] at hcount
        cases hcount
      show p.coordinator.ReportsPlaying (p.engine.poll io).1.state.isPlaying
      rw [hplaying, decide_eq_false hfinds, Bool.not_false, Bool.and_true]
      exact h.playing hbefore
  | timerFires n =>
    obtain ⟨timer, -, rfl⟩ := Player.step_timerFires hstep
    exact ⟨h.file, fun hsettled => absurd List.mem_cons_self (settled_of_moved hsettled).2,
      h.bridged⟩
  | reachEof =>
    obtain ⟨-, rfl⟩ := Player.step_reachEof hstep
    exact ⟨h.file, h.playing, h.bridged⟩
  | bridge =>
    obtain ⟨event, origin, rest, hevents, rfl⟩ := Player.step_bridge hstep
    refine ⟨h.file, fun hsettled => h.playing ⟨?_, ?_⟩, ?_⟩
    · intro e he
      rw [hevents] at he
      rcases List.mem_cons.mp he with rfl | hrest
      · -- an `EndFile` would be on its way as a message now
        intro hend
        obtain rfl : event = .endFile := hend
        have hfinished := hsettled.2 (.playbackEvent (.mediaFinished 0), some origin)
          (List.mem_append_right _ List.mem_cons_self)
        cases hfinished
      · exact hsettled.1 e hrest
    · exact fun m hm => hsettled.2 m (List.mem_append_left _ hm)
    · intro m hm id heq
      rcases List.mem_append.mp hm with hold | hnew
      · exact h.bridged m hold id heq
      · obtain ⟨message, hmessage, rfl⟩ := List.mem_map.mp hnew
        obtain rfl : message = .mediaStarted id := CoordinatorMessage.playbackEvent.inj heq
        cases event <;> cases Option.mem_toList.mp hmessage

end Tracks

/-! ### Runs -/

/-- **The reported status is truthful** in every quiescent state of the runs that meet
    `InStep`. -/
theorem Player.truthful_of_inStep {cacheDir : String} {persists : Bool} {as : List PlayerStep}
    {p : Player} (run : Guarded Player.step Player.InStep (Player.start cacheDir persists) as p)
    (quiet : p.Quiescent) : p.Truthful := by
  have hstart : Tracks (Player.start cacheDir persists) := ⟨rfl, fun _ => rfl, nofun⟩
  have htracks := run.invariant hstart fun _ _ _ h hc hstep => h.step hc hstep
  exact htracks.truthful quiet

/-- A playlist is assigned after `resume`: the engine plays its item, and the report says so. -/
theorem Player.truthful_of_inStep_resumed :
    ∃ p, Guarded Player.step Player.InStep (Player.start "/cache" true)
        [.receive (.serverMessage (.command .resume)), .coordinate {}, .engineCommand {},
          .receive (.serverMessage (.playlistAssigned ⟨1, "lobby", [.image 1 "a.png"], true⟩)),
          .coordinate { logId := some 1 }, .engineCommand {}, .bridge, .bridge] p ∧
      p.Quiescent ∧ p.coordinator.state.statusUpdate.isPlaying = true ∧ p.Truthful := by
  have run : Guarded Player.step Player.InStep (Player.start "/cache" true)
      [.receive (.serverMessage (.command .resume)), .coordinate {}, .engineCommand {},
        .receive (.serverMessage (.playlistAssigned ⟨1, "lobby", [.image 1 "a.png"], true⟩)),
        .coordinate { logId := some 1 }, .engineCommand {}, .bridge, .bridge] _ :=
    .cons trivial rfl <|
      .cons (fun _ _ _ h => by cases h; exact ⟨nofun, nofun⟩) rfl <|
      .cons (fun _ _ _ => .inl rfl) rfl <| .cons trivial rfl <|
      .cons (fun _ _ _ h => by cases h; exact ⟨rfl, rfl⟩) rfl <|
      .cons (fun _ _ _ => .inl rfl) rfl <| .cons trivial rfl <| .cons trivial rfl .nil
  exact ⟨_, run, ⟨rfl, rfl, rfl⟩, rfl, Player.truthful_of_inStep run ⟨rfl, rfl, rfl⟩⟩

/-- A playlist is assigned at boot: the engine plays its item, and the report says that nothing
    plays. -/
theorem Player.not_truthful_assigned :
    ∃ p, Reaches Player.step (Player.start "/cache" true)
        [.receive (.serverMessage (.playlistAssigned ⟨1, "lobby", [.image 1 "a.png"], true⟩)),
          .coordinate { logId := some 1 }, .engineCommand {}, .bridge] p ∧
      p.Quiescent ∧ ¬ p.Truthful := by
  refine ⟨_, reaches_of_exec rfl, ⟨rfl, rfl, rfl⟩, fun h => ?_⟩
  exact absurd h.1 (by decide)

end Montr.Client
