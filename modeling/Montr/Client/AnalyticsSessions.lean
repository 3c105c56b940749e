import Montr.Client.Player
import Montr.Lib.Brackets

namespace Montr.Client

open Transition Brackets

/-!
# Analytics sessions

The open session is one slot of the coordinator.  A run handles messages in any order until it is
cancelled; a `MediaFinished` comes with the item start that it reports the end of, which the code
does not send (the bridge in `main.rs` fills in media id 0).

* `Coordinator.Reports` — what handling a message can make of the slot and the calls;
* `handleMessage_reports` — every message does one of these, and completes a session only if it
  is a `MediaFinished`;
* `Tracks` — the open session is that of the item started last;
* `pairsUp_iff` — sessions pair up exactly in the runs in which an end that finds a session open
  is that of the item started last, and no session is open at the cancellation.
-/

/-! ### One message -/

namespace Coordinator

/-- The call that ends the open session. -/
def endCalls (c : Coordinator) (completed : Bool) : List AnalyticsCall :=
  c.currentPlaybackLogId.toList.map fun logId => .ended logId completed

/-- Nothing is reported, the open session is ended, or it is ended and an item reported as
    started. -/
def Reports (io : HandlerIO) (completed : Bool) (c c' : Coordinator) : Prop :=
  (completed = false ∧ c'.analytics = c.analytics ∧
      c'.currentPlaybackLogId = c.currentPlaybackLogId) ∨
    (c'.analytics = c.analytics ++ c.endCalls completed ∧ c'.currentPlaybackLogId = none) ∨
    ∃ mediaId, c'.analytics = c.analytics ++ c.endCalls completed ++ [.started mediaId] ∧
      c'.currentPlaybackLogId = io.logId

variable {c c' : Coordinator} {io : HandlerIO} {completed : Bool}

theorem reports_same (hanalytics : c'.analytics = c.analytics)
    (hslot : c'.currentPlaybackLogId = c.currentPlaybackLogId) : Reports io false c c' :=
  .inl ⟨rfl, hanalytics, hslot⟩

theorem endAnalyticsSession_spec (c : Coordinator) (completed : Bool) :
    (c.endAnalyticsSession completed).analytics = c.analytics ++ c.endCalls completed ∧
      (c.endAnalyticsSession completed).currentPlaybackLogId = none := by
  unfold endAnalyticsSession endCalls
  cases hslot : c.currentPlaybackLogId with
  | none => exact ⟨(List.append_nil _).symm, hslot⟩
  | some logId => exact ⟨rfl, rfl⟩

theorem endAnalyticsSession_reports (c : Coordinator) (completed : Bool) :
    Reports io completed c (c.endAnalyticsSession completed) :=
  .inr (.inl (c.endAnalyticsSession_spec completed))

/-- What follows the end of the session. -/
theorem Reports.afterEnd (h : Reports io false (c.endAnalyticsSession completed) c') :
    Reports io completed c c' := by
  obtain ⟨hanalytics, hslot⟩ := c.endAnalyticsSession_spec completed
  have hnothing : (c.endAnalyticsSession completed).endCalls false = [] := by
    rw [endCalls, hslot]
    rfl
  unfold Reports at h
  rw [hnothing, hanalytics, hslot, List.append_nil] at h
  rcases h with ⟨-, h⟩ | h | h
  · exact .inr (.inl h)
  · exact .inr (.inl h)
  · exact .inr (.inr h)

theorem startAnalyticsSession_reports (c : Coordinator) (mediaId : Nat) :
    Reports io false c (c.startAnalyticsSession mediaId io) := by
  refine .inr (.inr ⟨mediaId, ?_, rfl⟩)
  unfold startAnalyticsSession
  dsimp only
  cases hslot : c.currentPlaybackLogId with
  | none =>
    rw [if_neg (by simp), endCalls, hslot]
    simp
  | some logId =>
    rw [if_pos (by simp), (c.endAnalyticsSession_spec false).1]

theorem playMedia_reports (c : Coordinator) (item : PlaylistItem) (io : HandlerIO) :
    Reports io false c (c.playMedia item io) := by
  unfold playMedia
  split
  · exact reports_same rfl rfl
  · exact startAnalyticsSession_reports (c.send _) item.mediaId

theorem playMoved_reports (c : Coordinator) (moved : AppState × Option PlaylistItem)
    (io : HandlerIO) : Reports io false c (c.playMoved moved io) := by
  unfold playMoved
  cases moved.2 with
  | none => exact reports_same rfl rfl
  | some item => exact playMedia_reports { c with state := moved.1 } item io

theorem startPlayback_reports (c : Coordinator) (io : HandlerIO) :
    Reports io false c (c.startPlayback io) := by
  unfold startPlayback
  split
  · exact reports_same rfl rfl
  · split
    · exact playMedia_reports c _ io
    · exact playMoved_reports c _ io

theorem downloadAndStart_reports (c : Coordinator) (items : List PlaylistItem) (io : HandlerIO) :
    Reports io false c (c.downloadAndStart items io) := by
  unfold downloadAndStart
  split
  · exact reports_same rfl rfl
  · split
    · exact startPlayback_reports c io
    · split
      · exact startPlayback_reports c io
      · exact reports_same rfl rfl

theorem handleCommand_reports (c : Coordinator) (cmd : ServerCommand) (io : HandlerIO) :
    Reports io false c (c.handleCommand cmd io) := by
  cases cmd with
  | reloadPlaylist => exact startPlayback_reports { c with state := c.state.resetQueue } io
  | skip => exact (playMoved_reports (c.endAnalyticsSession false) _ io).afterEnd
  | previous => exact (playMoved_reports (c.endAnalyticsSession false) _ io).afterEnd
  | pause => exact reports_same rfl rfl
  | resume => exact reports_same rfl rfl
  | volume level => cases level <;> exact reports_same rfl rfl
  | seek position => cases position <;> exact reports_same rfl rfl
  | other command => exact reports_same rfl rfl

theorem handleServerMessage_reports (c : Coordinator) (message : ServerMessage) (io : HandlerIO) :
    Reports io false c (c.handleServerMessage message io) := by
  cases message with
  | playlistAssigned msg =>
    show Reports io false c (c.handlePlaylistAssigned msg io)
    unfold handlePlaylistAssigned
    split
    · exact reports_same rfl rfl
    · have hend := downloadAndStart_reports
        (({ c with state := c.state.clearInterruptStack }.endAnalyticsSession false).updatePlaylist
          msg.playlistId msg.items msg.loopPlaylist) msg.items io
      exact Reports.afterEnd (c := { c with state := c.state.clearInterruptStack }) hend
  | playlistUpdated msg =>
    show Reports io false c (c.handlePlaylistUpdated msg io)
    unfold handlePlaylistUpdated
    split
    · exact reports_same rfl rfl
    · dsimp only
      split
      · exact (startPlayback_reports ((c.updatePlaylist _ _ _).endAnalyticsSession false)
          io).afterEnd
      · exact reports_same rfl rfl
  | playlistInterrupt msg =>
    have hend := downloadAndStart_reports
      (({ c with state := c.state.pushInterrupt }.endAnalyticsSession false).updatePlaylist
        msg.playlistId msg.items msg.loopPlaylist) msg.items io
    exact Reports.afterEnd (c := { c with state := c.state.pushInterrupt }) hend
  | playlistResume msg =>
    show Reports io false c (c.handlePlaylistResume msg io)
    unfold handlePlaylistResume
    dsimp only
    split
    · rename_i playlistId _
      have hend := downloadAndStart_reports
        (({ c with state := c.state.popInterrupt.1 }.endAnalyticsSession false).updatePlaylist
          playlistId msg.items msg.loopPlaylist) msg.items io
      exact Reports.afterEnd (c := { c with state := c.state.popInterrupt.1 }) hend
    · exact endAnalyticsSession_reports { c with state := c.state.popInterrupt.1 } false
  | command cmd => exact handleCommand_reports c cmd io
  | success message => exact reports_same rfl rfl
  | errorResponse error => exact reports_same rfl rfl
  | scheduleDefinitions => exact reports_same rfl rfl

theorem handlePlaybackEvent_reports (c : Coordinator) (event : PlaybackEventMessage)
    (io : HandlerIO) :
    Reports io (CoordinatorMessage.playbackEvent event).isMediaFinished c
      (c.handlePlaybackEvent event io) := by
  cases event with
  | mediaFinished mediaId =>
    have hend := playMoved_reports
      ({ c with state := c.state.setPlaying false }.endAnalyticsSession true)
      ({ c with state := c.state.setPlaying false }.endAnalyticsSession true).state.nextItem io
    exact Reports.afterEnd (c := { c with state := c.state.setPlaying false }) hend
  | mediaStarted mediaId => exact reports_same rfl rfl
  | error mediaId error =>
    exact playMoved_reports
      { c with state := (c.state.setError (some error)).setPlaying false } _ io
  | positionUpdate position => exact reports_same rfl rfl

/-- **One message**, one of three outcomes. -/
theorem handleMessage_reports (c : Coordinator) (message : CoordinatorMessage) (io : HandlerIO) :
    Reports io message.isMediaFinished c (c.handleMessage message io) := by
  cases message with
  | serverMessage msg => exact handleServerMessage_reports c msg io
  | playbackEvent event => exact handlePlaybackEvent_reports c event io
  | downloadComplete mediaId success => exact reports_same rfl rfl
  | tryOfflineRestore =>
    show Reports io false c (c.handleTryOfflineRestore io)
    unfold handleTryOfflineRestore
    split
    · exact reports_same rfl rfl
    · split
      · exact reports_same rfl rfl
      · split
        · exact reports_same rfl rfl
        · exact reports_same rfl rfl
        · exact downloadAndStart_reports (c.updatePlaylist _ _ _) _ io
  | offlineScheduleSwitch playlistId =>
    show Reports io false c (c.handleOfflineScheduleSwitch playlistId io)
    unfold handleOfflineScheduleSwitch
    split
    · exact reports_same rfl rfl
    · split
      · exact reports_same rfl rfl
      · split
        · exact reports_same rfl rfl
        · exact reports_same rfl rfl
        · exact Reports.afterEnd
            (downloadAndStart_reports ((c.endAnalyticsSession false).updatePlaylist _ _ _) _ io)

end Coordinator

/-! ### Runs -/

/-- The coordinator, how many items it has reported as started, and the log of its sessions. -/
structure AnalyticsRun where
  coordinator : Coordinator
  items : Nat := 0
  log : List (Mark Nat Nat) := []
  cancelled : Bool := false
  deriving DecidableEq, Repr

inductive AnalyticsStep
  /-- A message; a `MediaFinished` reports the end of the item start with the number given. -/
  | message (message : CoordinatorMessage) (io : HandlerIO) (finished : Nat)
  /-- The loop of `run` breaks. -/
  | cancel
  deriving Repr

namespace AnalyticsRun

/-- `StateCoordinator::new`. -/
def start (cacheDir : String) (persists : Bool) : AnalyticsRun where
  coordinator := { cacheDir := cacheDir, persists := persists }

/-- One call, in the log. -/
def record (io : HandlerIO) (finished : Nat) (r : AnalyticsRun) : AnalyticsCall → AnalyticsRun
  | .started _ =>
    { r with items := r.items + 1, log := r.log ++ [.opened (r.items + 1) io.logId] }
  | .ended logId completed => { r with log := r.log ++ [.closed logId completed finished] }

def step (r : AnalyticsRun) : AnalyticsStep → Option AnalyticsRun
  | .message message io finished =>
    if r.cancelled then none
    else
      let c := r.coordinator.handleMessage message io
      some ((c.analytics.drop r.coordinator.analytics.length).foldl (record io finished)
        { r with coordinator := c })
  | .cancel => if r.cancelled then none else some { r with cancelled := true }

/-- **Sessions pair up**: each is ended once and before the next is started, as completed only if
    its item has ended, and none is left when the run is over. -/
def PairsUp (r : AnalyticsRun) : Prop :=
  Paired r.log ∧ (r.cancelled = true → pending r.log = none)

/-- The open session is that of the item started last. -/
def Tracks (r : AnalyticsRun) : Prop :=
  pending r.log = r.coordinator.currentPlaybackLogId.map fun logId => (logId, r.items)

/-- An end that finds a session open is that of the item started last, and the cancellation finds
    none open. -/
def OfLastStarted (r : AnalyticsRun) : AnalyticsStep → Prop
  | .message message _ finished =>
    message.isMediaFinished = true → r.coordinator.currentPlaybackLogId ≠ none →
      finished = r.items
  | .cancel => r.coordinator.currentPlaybackLogId = none

variable {r r' : AnalyticsRun}

theorem step_message {message : CoordinatorMessage} {io : HandlerIO} {finished : Nat}
    (h : r.step (.message message io finished) = some r') :
    ¬ r.cancelled = true ∧
      r' = ((r.coordinator.handleMessage message io).analytics.drop
        r.coordinator.analytics.length).foldl (record io finished)
          { r with coordinator := r.coordinator.handleMessage message io } := by
  obtain ⟨hrunning, hsome⟩ := Option.ite_none_left_eq_some.mp h
  exact ⟨hrunning, (Option.some.inj hsome).symm⟩

theorem step_cancel (h : r.step .cancel = some r') : r' = { r with cancelled := true } := by
  obtain ⟨-, hsome⟩ := Option.ite_none_left_eq_some.mp h
  exact (Option.some.inj hsome).symm

/-- The end of the open session in the log. -/
theorem record_ends (io : HandlerIO) (finished : Nat) (completed : Bool) {slot : Option Nat}
    (hpending : pending r.log = slot.map fun logId => (logId, r.items)) :
    ∃ log, (slot.toList.map fun logId => AnalyticsCall.ended logId completed).foldl
        (record io finished) r = { r with log := log } ∧ pending log = none ∧
      (Paired log ↔ Paired r.log ∧ (completed = true → slot ≠ none → finished = r.items)) := by
  cases slot with
  | none =>
    refine ⟨r.log, rfl, hpending, ?_⟩
    exact (and_iff_left fun _ h => absurd rfl h).symm
  | some logId =>
    refine ⟨r.log ++ [.closed logId completed finished], rfl, pending_append _, ?_⟩
    rw [paired_append_closed hpending]
    apply and_congr_right
    intro _
    exact ⟨fun h hc _ => h hc, fun h hc => h hc (Option.some_ne_none _)⟩

/-- **Step lemma.** -/
theorem pairsUp_step {a : AnalyticsStep} (tracks : r.Tracks) (hstep : r.step a = some r') :
    r'.Tracks ∧ (r'.PairsUp ↔ Paired r.log ∧ r.OfLastStarted a) := by
  cases a with
  | cancel =>
    obtain rfl := step_cancel hstep
    refine ⟨tracks, ?_⟩
    have hslot : pending r.log = none ↔ r.coordinator.currentPlaybackLogId = none := by
      rw [tracks, Option.map_eq_none_iff]
    constructor
    · rintro ⟨h, hnone⟩
      exact ⟨h, hslot.mp (hnone rfl)⟩
    · rintro ⟨h, hnone⟩
      exact ⟨h, fun _ => hslot.mpr hnone⟩
  | message message io finished =>
    obtain ⟨hrunning, hafter⟩ := step_message hstep
    have hreports := r.coordinator.handleMessage_reports message io
    generalize r.coordinator.handleMessage message io = c at hafter hreports
    have hdone : ∀ log : List (Mark Nat Nat),
        (Paired log ∧ (r.cancelled = true → pending log = none)) ↔ Paired log :=
      fun log => and_iff_left fun h => absurd h hrunning
    obtain ⟨log, hlog, hclosed, hpaired⟩ := record_ends (r := { r with coordinator := c }) io
      finished message.isMediaFinished tracks
    rcases hreports with ⟨hother, hanalytics, hslot⟩ | ⟨hanalytics, hslot⟩ |
      ⟨mediaId, hanalytics, hslot⟩
    · -- nothing is reported, so it is not the end of an item
      rw [hanalytics, List.drop_length] at hafter
      subst hafter
      refine ⟨?_, ?_⟩
      · show pending r.log = c.currentPlaybackLogId.map fun logId => (logId, r.items)
        rw [hslot]
        exact tracks
      · refine (hdone r.log).trans (and_iff_left fun hfinished => ?_).symm
        rw [hother] at hfinished
        cases hfinished
    · rw [hanalytics, List.drop_left, Coordinator.endCalls, hlog] at hafter
      subst hafter
      refine ⟨?_, ?_⟩
      · show pending log = c.currentPlaybackLogId.map fun logId => (logId, r.items)
        rw [hslot, hclosed]
        rfl
      · exact (hdone log).trans hpaired
    · rw [hanalytics, List.append_assoc, List.drop_left, List.foldl_append,
        Coordinator.endCalls, hlog] at hafter
      subst hafter
      refine ⟨?_, ?_⟩
      · show pending (log ++ [.opened (r.items + 1) io.logId])
          = c.currentPlaybackLogId.map fun logId => (logId, r.items + 1)
        rw [hslot, pending_append]
        rfl
      · have hopened : Paired (log ++ [.opened (r.items + 1) io.logId]) ↔
            Paired log ∧ pending log = none := paired_append_opened _ _
        exact (hdone _).trans (hopened.trans ((and_iff_left hclosed).trans hpaired))

/-- **Playback analytics pair up** throughout a run exactly when each end that finds a session open
    is that of the item started last, and the cancellation finds none. -/
theorem pairsUp_iff (cacheDir : String) (persists : Bool) {steps : List AnalyticsStep}
    (run : exec step (start cacheDir persists) steps = some r) :
    Throughout step PairsUp (start cacheDir persists) steps ↔
      Each step OfLastStarted (start cacheDir persists) steps := by
  have htracks : (start cacheDir persists).Tracks := rfl
  have hpairs : (start cacheDir persists).PairsUp := ⟨paired_nil, fun _ => rfl⟩
  apply throughout_iff_each _ _ htracks hpairs run
  · intro s a t tracks hstep
    exact (pairsUp_step tracks hstep).1
  · intro s a t tracks pairs hstep
    exact (pairsUp_step tracks hstep).2.trans (and_iff_right pairs.1)

/-- Not vacuous: an image plays to its end and is followed by the next, which is skipped. -/
theorem pairsUp_iff_lobby :
    Throughout step PairsUp (start "/cache" true)
        [.message (.serverMessage (.playlistAssigned
            ⟨1, "lobby", [.image 1 "a.png", .image 2 "b.png"], true⟩)) { logId := some 7 } 0,
          .message (.playbackEvent (.mediaFinished 0)) { logId := some 8 } 1] ↔
      Each step OfLastStarted (start "/cache" true)
        [.message (.serverMessage (.playlistAssigned
            ⟨1, "lobby", [.image 1 "a.png", .image 2 "b.png"], true⟩)) { logId := some 7 } 0,
          .message (.playbackEvent (.mediaFinished 0)) { logId := some 8 } 1] :=
  pairsUp_iff "/cache" true rfl

/-- **Counterexample.** The first image ends while the command `skip` is being handled: its
    `MediaFinished` ends the session of the second as completed. -/
theorem not_pairsUp_skip :
    ¬ Throughout step PairsUp (start "/cache" true)
        [.message (.serverMessage (.playlistAssigned
            ⟨1, "lobby", [.image 1 "a.png", .image 2 "b.png"], true⟩)) { logId := some 7 } 0,
          .message (.serverMessage (.command .skip)) { logId := some 8 } 0,
          .message (.playbackEvent (.mediaFinished 0)) { logId := some 9 } 1] := by
  intro h
  obtain ⟨hpaired, -⟩ := h _ (List.prefix_refl _) _ rfl
  exact absurd hpaired.chain (by decide)

end AnalyticsRun

end Montr.Client
