import Montr.Client.Engine
import Montr.Lib.Transition

namespace Montr.Client

open Transition

/-!
# One `EndFile` for each play

Runs of the engine alone: commands, passes of the polling loop, image timers, and mpv reaching the
end of its file, in any order.  `Watch` adds a record of the play in progress that the engine
itself does not keep.
-/

/-- What is known of a play from outside: whether mpv has reached the end of its file, whether it
    has since the last command, whether a pass of the loop got to see that, and the `EndFile`
    events so far. -/
structure PlayRecord where
  path : String
  isVideo : Bool
  reached : Bool := false
  fresh : Bool := false
  observed : Bool := false
  endFiles : Nat := 0
  deriving DecidableEq, Repr

structure Watch where
  engine : Engine := {}
  current : Option PlayRecord := none
  deriving DecidableEq, Repr

/-- A pass of the loop that gets an answer for `eof-reached`, if it asks. -/
def Engine.observes (e : Engine) (io : PollIO) : Bool :=
  !e.loop.stopped && io.connects && io.eofAnswered

/-- The record of a play after a step of the engine `e`. -/
def PlayRecord.after (r : PlayRecord) (e : Engine) (events : List PlaybackEvent) :
    EngineStep → PlayRecord
  | .command _ _ => { r with fresh := false, endFiles := r.endFiles + events.count .endFile }
  | .poll io =>
    { r with
      observed := r.observed || (r.fresh && e.observes io)
      endFiles := r.endFiles + events.count .endFile }
  | .timerFires _ => { r with endFiles := r.endFiles + events.count .endFile }
  | .reachEof => { r with reached := true, fresh := true }

/-- A play that succeeds begins a new record. -/
def Watch.record (w : Watch) (events : List PlaybackEvent) (a : EngineStep) : Option PlayRecord :=
  let kept := w.current.map fun r => r.after w.engine events a
  match a with
  | .command (.play path isVideo _) io =>
    if io.ok then some { path := path, isVideo := isVideo } else kept
  | _ => kept

def Watch.step (w : Watch) (a : EngineStep) : Option Watch :=
  (w.engine.step a).map fun out => { engine := out.1, current := w.record out.2 a }

/-- **The contract**: a video whose end a pass of the loop has seen has one `EndFile`, and one that
    has not ended has none. -/
def Watch.ReportsOnce (w : Watch) : Prop :=
  ∀ r, w.current = some r → r.isVideo = true →
    (r.observed = true → r.endFiles = 1) ∧ (r.reached = false → r.endFiles = 0)

/-- A video is not the file whose end was sent last, and no timer fires during a video. -/
def Watch.Separate (w : Watch) : EngineStep → Prop
  | .command (.play path true _) _ => w.engine.loop.eofSentForFile ≠ some path
  | .timerFires _ => w.engine.state.isImage = true
  | _ => True

/-! ### The invariant -/

/-- What links the engine to the record of a video. -/
structure EndsOnce (e : Engine) (r : PlayRecord) : Prop where
  video : e.state.isImage = false
  file : e.state.currentFile = e.mpv.file
  path : ∀ f, e.mpv.file = some f → f = r.path
  /-- The loop remembers the path exactly when it has sent the event. -/
  once : r.endFiles = if e.loop.eofSentForFile = some r.path then 1 else 0
  eof : e.mpv.eofReached = true → r.reached = true ∧ e.mpv.file.isSome = true
  ended : r.endFiles ≠ 0 → r.reached = true
  playing : e.mpv.file.isSome = true → e.mpv.paused = false → r.endFiles = 0 →
    e.state.isPlaying = true
  fresh : r.fresh = true → e.mpv.eofReached = true ∧ (r.endFiles = 0 → e.state.isPlaying = true)
  observed : r.observed = true → r.endFiles = 1

def Watch.Inv (w : Watch) : Prop :=
  ∀ r, w.current = some r → r.isVideo = true → EndsOnce w.engine r

theorem Watch.Inv.reportsOnce {w : Watch} (h : w.Inv) : w.ReportsOnce := by
  intro r hr hvideo
  refine ⟨(h r hr hvideo).observed, fun hreached => ?_⟩
  by_contra hne
  have hended := (h r hr hvideo).ended hne
  rw [hreached] at hended
  exact Bool.false_ne_true hended

namespace EndsOnce

variable {e : Engine} {r : PlayRecord}

/-- A new video. -/
theorem play {path : String} {seconds : Nat} {unpause : Bool}
    (hnew : e.loop.eofSentForFile ≠ some path) :
    EndsOnce (e.play path false seconds ⟨true, unpause⟩).1 { path := path, isVideo := true } := by
  constructor <;> simp [Engine.play, hnew]

/-- A command that is not a new play. -/
theorem command (h : EndsOnce e r) {c : PlaybackCommand} {io : CommandIO}
    (hplay : ∀ path isVideo seconds, c = .play path isVideo seconds → io.ok = false) :
    EndsOnce (e.handleCommand c io).1
      (r.after e (e.handleCommand c io).2 (.command c io)) := by
  have hcount : (r.after e (e.handleCommand c io).2 (.command c io)).endFiles = r.endFiles := by
    show r.endFiles + _ = _
    rw [Engine.count_handleCommand, Nat.add_zero]
  -- the end of the file is not fresh any more
  have hstale : ∀ P : Prop, false = true → P := fun _ h => absurd h Bool.false_ne_true
  -- what holds of an engine that does not change
  have hsame : (e.handleCommand c io).1 = e → EndsOnce (e.handleCommand c io).1
      (r.after e (e.handleCommand c io).2 (.command c io)) := by
    intro heq
    rw [heq]
    exact ⟨h.video, h.file, h.path, hcount.trans h.once, h.eof, fun hne => h.ended (hcount ▸ hne),
      fun hf hp he => h.playing hf hp (hcount ▸ he), hstale _,
      fun hobs => hcount.trans (h.observed hobs)⟩
  cases hio : io.ok with
  | false => exact hsame (by rw [Engine.handleCommand_of_failed c hio])
  | true =>
    cases c with
    | play path isVideo seconds => exact absurd (hio.symm.trans (hplay _ _ _ rfl)) (by decide)
    | volume level => exact hsame rfl
    | pause =>
      simp only [Engine.handleCommand, Engine.pause, hio, if_true, PlayRecord.after]
      exact ⟨h.video, h.file, h.path, h.once, h.eof, h.ended,
        fun _ hp => absurd hp.symm Bool.false_ne_true, hstale _, h.observed⟩
    | resume =>
      simp only [Engine.handleCommand, Engine.resume, hio, if_true, PlayRecord.after]
      exact ⟨h.video, h.file, h.path, h.once, h.eof, h.ended, fun _ _ _ => rfl, hstale _,
        h.observed⟩
    | stop =>
      -- nothing is loaded any more
      simp only [Engine.handleCommand, Engine.stop, hio, if_true, PlayRecord.after]
      exact ⟨h.video, rfl, fun _ hf => absurd hf.symm (Option.some_ne_none _), h.once, hstale _,
        h.ended, hstale _, hstale _, h.observed⟩
    | seek position =>
      -- mpv has left the end, and the loop remembers what it has sent
      simp only [Engine.handleCommand, Engine.seek, hio, if_true, PlayRecord.after]
      exact ⟨h.video, h.file, h.path, h.once, hstale _, h.ended, h.playing, hstale _,
        h.observed⟩

/-- The memory of the loop is reset only for another file. -/
theorem resetEof_eq (h : EndsOnce e r) (hsome : e.mpv.file.isSome = true)
    (hplaying : e.state.isPlaying = true) :
    e.resetEof = if e.loop.eofSentForFile = some r.path then some r.path else none := by
  obtain ⟨f, hf⟩ := Option.isSome_iff_exists.mp hsome
  have hpath : f = r.path := h.path f hf
  unfold Engine.resetEof
  rw [h.file, hf, hpath]
  simp only [hplaying, and_true]
  by_cases heq : e.loop.eofSentForFile = some r.path <;> simp [heq]

/-- While the file is not playing the memory of the loop stays. -/
theorem resetEof_of_not_playing (hplaying : ¬ e.state.isPlaying = true) :
    e.resetEof = e.loop.eofSentForFile := by
  unfold Engine.resetEof
  split
  · simp [hplaying]
  · rfl

/-- A pass of the loop. -/
theorem poll (h : EndsOnce e r) (io : PollIO) :
    EndsOnce (e.poll io).1 (r.after e (e.poll io).2 (.poll io)) := by
  obtain ⟨hcount, hplaying, hsent, hfile, himage, hmpv, -⟩ := e.poll_spec io
  by_cases hfinds : e.FindsEof io
  · -- the end of the file: this is the first event, and the loop remembers the file
    rw [if_pos hfinds] at hcount hsent
    obtain ⟨⟨-, -, hplays, -⟩, hreset, -, heof⟩ := hfinds
    obtain ⟨hreached, hsome⟩ := h.eof heof
    have hnone : e.loop.eofSentForFile ≠ some r.path := by
      intro heq
      rw [h.resetEof_eq hsome hplays, if_pos heq] at hreset
      cases hreset
    have hzero : r.endFiles = 0 := by
      rw [h.once, if_neg hnone]
    have hone : (r.after e (e.poll io).2 (.poll io)).endFiles = 1 := by
      show r.endFiles + _ = 1
      omega
    obtain ⟨f, hf⟩ := Option.isSome_iff_exists.mp hsome
    have hcurrent : e.state.currentFile = some r.path := by
      rw [h.file, hf, h.path f hf]
    constructor
    · rw [himage]; exact h.video
    · rw [hfile, hmpv]; exact h.file
    · rw [hmpv]; exact h.path
    · rw [hone, hsent, hcurrent]; exact (if_pos rfl).symm
    · rw [hmpv]; exact fun _ => ⟨hreached, hsome⟩
    · exact fun _ => hreached
    · exact fun _ _ hne => absurd (hone.symm.trans hne) (by decide)
    · exact fun _ => ⟨by rw [hmpv]; exact heof, fun hne => absurd (hone.symm.trans hne) (by decide)⟩
    · exact fun _ => hone
  · -- no event, and the loop still remembers the path or not
    rw [if_neg hfinds] at hcount hsent
    have hsame : (r.after e (e.poll io).2 (.poll io)).endFiles = r.endFiles := by
      show r.endFiles + _ = _
      omega
    have hplaying' : (e.poll io).1.state.isPlaying = e.state.isPlaying := by
      simpa [hfinds] using hplaying
    have honce : (e.poll io).1.loop.eofSentForFile = some r.path ↔
        e.loop.eofSentForFile = some r.path := by
      rw [hsent]
      split
      · by_cases hplays : e.state.isPlaying = true
        · cases hcur : e.state.currentFile with
          | none => simp [Engine.resetEof, hcur]
          | some f =>
            have hsome : e.mpv.file.isSome = true := by rw [← h.file, hcur]; rfl
            rw [h.resetEof_eq hsome hplays]
            by_cases heq : e.loop.eofSentForFile = some r.path <;> simp [heq]
        · rw [resetEof_of_not_playing hplays]
      · exact Iff.rfl
    constructor
    · rw [himage]; exact h.video
    · rw [hfile, hmpv]; exact h.file
    · rw [hmpv]; exact h.path
    · rw [hsame, h.once]
      exact if_congr honce.symm rfl rfl
    · rw [hmpv]; exact h.eof
    · exact fun hne => h.ended (hsame ▸ hne)
    · rw [hmpv, hplaying']; exact fun hf hp he => h.playing hf hp (hsame ▸ he)
    · rw [hmpv, hplaying']
      exact fun hf => ⟨(h.fresh hf).1, fun he => (h.fresh hf).2 (hsame ▸ he)⟩
    · intro hobs
      rw [hsame]
      rcases Bool.or_eq_true_iff.mp hobs with hobs | hnew
      · exact h.observed hobs
      · -- a fresh end that the pass could see, and did not send: it had been sent before
        obtain ⟨hfresh, hobserves⟩ := Bool.and_eq_true_iff.mp hnew
        obtain ⟨⟨hrunning, hconnects⟩, hanswered⟩ :
            (e.loop.stopped = false ∧ io.connects = true) ∧ io.eofAnswered = true := by
          simpa [Engine.observes] using hobserves
        obtain ⟨heof, hstill⟩ := h.fresh hfresh
        by_contra hne
        have hmemory : e.loop.eofSentForFile ≠ some r.path := by
          intro heq
          exact hne (h.once.trans (if_pos heq))
        have hplays := hstill (h.once.trans (if_neg hmemory))
        refine hfinds ⟨⟨hrunning, hconnects, hplays, h.video⟩, ?_, hanswered, heof⟩
        rw [h.resetEof_eq (h.eof heof).2 hplays, if_neg hmemory]

/-- mpv reaches the end of the file. -/
theorem reachEof (h : EndsOnce e r) (hfile : e.mpv.file.isSome = true)
    (hpaused : e.mpv.paused = false) :
    EndsOnce e.reachEof (r.after e [] .reachEof) where
  video := h.video
  file := h.file
  path := h.path
  once := h.once
  eof := fun _ => ⟨rfl, hfile⟩
  ended := fun _ => rfl
  playing := h.playing
  fresh := fun _ => ⟨rfl, h.playing hfile hpaused⟩
  observed := h.observed

end EndsOnce

/-! ### Runs -/

variable {w w' : Watch} {a : EngineStep} {as : List EngineStep}

/-- **Step lemma.** -/
theorem Watch.Inv.step (h : w.Inv) (hsep : w.Separate a) (hstep : w.step a = some w') :
    w'.Inv := by
  obtain ⟨out, hengine, rfl⟩ := Option.map_eq_some_iff.mp hstep
  intro r hr hvideo
  cases a with
  | command c io =>
    obtain rfl : w.engine.handleCommand c io = out := by simpa [Engine.step] using hengine
    have hkept : (∀ path isVideo seconds, c = .play path isVideo seconds → io.ok = false) →
        w.current.map (fun r => r.after w.engine (w.engine.handleCommand c io).2 (.command c io)) =
          some r → EndsOnce (w.engine.handleCommand c io).1 r := by
      intro hplay hmap
      obtain ⟨r₀, hr₀, rfl⟩ := Option.map_eq_some_iff.mp hmap
      exact (h r₀ hr₀ hvideo).command hplay
    cases c with
    | play path isVideo seconds =>
      cases hio : io.ok with
      | false => exact hkept (fun _ _ _ _ => hio) (by simpa [Watch.record, hio] using hr)
      | true =>
        -- a new record, of a video whose end is not the one sent last
        obtain rfl : { path := path, isVideo := isVideo } = r := by
          simpa [Watch.record, hio] using hr
        obtain rfl : isVideo = true := hvideo
        obtain ⟨ok, unpause⟩ := io
        obtain rfl : ok = true := hio
        exact EndsOnce.play hsep
    | pause => exact hkept nofun hr
    | resume => exact hkept nofun hr
    | stop => exact hkept nofun hr
    | volume level => exact hkept nofun hr
    | seek position => exact hkept nofun hr
  | poll io =>
    obtain rfl : w.engine.poll io = out := by simpa [Engine.step] using hengine
    obtain ⟨r₀, hr₀, rfl⟩ := Option.map_eq_some_iff.mp hr
    exact (h r₀ hr₀ hvideo).poll io
  | timerFires n =>
    -- no video is loaded, so there is no record of one
    obtain ⟨r₀, hr₀, rfl⟩ := Option.map_eq_some_iff.mp hr
    have himage := (h r₀ hr₀ hvideo).video
    rw [hsep] at himage
    cases himage
  | reachEof =>
    obtain ⟨⟨hfile, hpaused, -⟩, rfl⟩ :
        (w.engine.mpv.file.isSome = true ∧ w.engine.mpv.paused = false ∧
          w.engine.mpv.eofReached = false) ∧ (w.engine.reachEof, []) = out := by
      simpa [Engine.step] using hengine
    obtain ⟨r₀, hr₀, rfl⟩ := Option.map_eq_some_iff.mp hr
    exact (h r₀ hr₀ hvideo).reachEof hfile hpaused

/-- **One event for each end of file**, in the runs that meet `Separate`. -/
theorem Watch.reportsOnce_of_separate (run : Guarded Watch.step Watch.Separate {} as w) :
    w.ReportsOnce :=
  Watch.Inv.reportsOnce <| run.invariant (fun _ hr => absurd hr (Option.some_ne_none _).symm)
    fun _ _ _ hinv hsep hstep => hinv.step hsep hstep

/-- Two videos in a row. -/
theorem Watch.reportsOnce_of_separate_twoVideos :
    ∃ w, Guarded Watch.step Watch.Separate {}
        [.command (.play "a" true none) {}, .reachEof, .poll {},
          .command (.play "b" true none) {}, .reachEof, .poll {}] w ∧
      w.current.map (·.observed) = some true ∧ w.ReportsOnce := by
  have run : Guarded Watch.step Watch.Separate {}
      [.command (.play "a" true none) {}, .reachEof, .poll {},
        .command (.play "b" true none) {}, .reachEof, .poll {}] _ :=
    .cons nofun rfl <| .cons trivial rfl <| .cons trivial rfl <|
      .cons (by show some "a" ≠ some "b"; decide) rfl <| .cons trivial rfl <| .cons trivial rfl .nil
  exact ⟨_, run, rfl, Watch.reportsOnce_of_separate run⟩

/-- The same video twice in a row: its second end is not reported. -/
theorem Watch.not_reportsOnce_again :
    ∃ w, Reaches Watch.step {}
        [.command (.play "a" true none) {}, .reachEof, .poll {},
          .command (.play "a" true none) {}, .reachEof, .poll {}] w ∧ ¬ w.ReportsOnce := by
  refine ⟨_, reaches_of_exec rfl, fun h => ?_⟩
  exact absurd ((h _ rfl rfl).1 rfl) (by decide)

end Montr.Client
