import Mathlib.Data.List.Forall2
import Montr.Client.Coordinator

namespace Montr.Client

/-!
# Playlists that are skipped as unchanged

The coordinator skips a `PlaylistAssigned` or `PlaylistUpdated` when the playlist id, and the media
id and order index of every item, are those of the state.

* `SamePlaylist` — what starting playback leaves of a state: the playlist and what it interrupts;
* `Shows` — a state has the playlist, the items and the loop flag of a message;
* `SameUnchecked` — a state agrees with a message in what the check leaves out;
* `shows_iff` — a message has its effect exactly when it is not skipped or nothing differs that
  the check leaves out.
-/

/-! ### What starting playback leaves alone -/

/-- The two states have the same playlist and the same interrupted ones. -/
structure SamePlaylist (s t : AppState) : Prop where
  playlistId : t.playlistId = s.playlistId
  items : t.queue.items = s.queue.items
  loopEnabled : t.queue.loopEnabled = s.queue.loopEnabled
  interruptStack : t.interruptStack = s.interruptStack

theorem SamePlaylist.refl (s : AppState) : SamePlaylist s s := ⟨rfl, rfl, rfl, rfl⟩

theorem PlaylistQueue.next_keeps (q : PlaylistQueue) :
    q.next.1.items = q.items ∧ q.next.1.loopEnabled = q.loopEnabled := by
  unfold next
  split
  · exact ⟨rfl, rfl⟩
  · exact ⟨rfl, rfl⟩

theorem samePlaylist_nextItem (s : AppState) : SamePlaylist s s.nextItem.1 := by
  have hqueue := s.queue.next_keeps
  unfold AppState.nextItem
  cases hnext : s.queue.next with
  | mk queue found =>
    rw [hnext] at hqueue
    cases found with
    | none => exact ⟨rfl, hqueue.1, hqueue.2, rfl⟩
    | some item => exact ⟨rfl, hqueue.1, hqueue.2, rfl⟩

namespace Coordinator

section

variable (c : Coordinator) (items : List PlaylistItem) (io : HandlerIO)

theorem samePlaylist_startPlayback : SamePlaylist c.state (c.startPlayback io).state := by
  unfold startPlayback
  split
  · exact .refl c.state
  · split
    · rw [(playMedia_spec c _ io).1]
      exact .refl c.state
    · -- the queue stands before its first item
      have hmoved := samePlaylist_nextItem c.state
      unfold playMoved
      split
      · rw [(playMedia_spec _ _ io).1]
        exact hmoved
      · exact hmoved

theorem samePlaylist_downloadAndStart :
    SamePlaylist c.state (c.downloadAndStart items io).state := by
  have hstart := c.samePlaylist_startPlayback io
  unfold downloadAndStart
  split
  · exact .refl c.state
  · split
    · exact hstart
    · split
      · exact hstart
      · exact .refl c.state

end

/-! ### What a message brings -/

/-- The two items play alike.  The row id, the download path and the size are read by nothing that
    plays an item. -/
structure SamePlayback (a b : PlaylistItem) : Prop where
  mediaId : a.mediaId = b.mediaId
  filename : a.filename = b.filename
  mediaType : a.mediaType = b.mediaType
  duration : a.duration = b.duration
  checksum : a.checksum = b.checksum
  orderIndex : a.orderIndex = b.orderIndex
  imageDuration : a.imageDuration = b.imageDuration
  subtitles : a.subtitles = b.subtitles

/-- The state has the playlist of the message: its id, its items in order, its loop flag. -/
structure Shows (msg : PlaylistMessage) (s : AppState) : Prop where
  playlistId : s.playlistId = some msg.playlistId
  items : List.Forall₂ SamePlayback s.queue.items msg.items
  loopEnabled : s.queue.loopEnabled = msg.loopPlaylist

/-- The two items agree in what `is_playlist_unchanged` compares, ... -/
def SameChecked (a b : PlaylistItem) : Prop := a.mediaId = b.mediaId ∧ a.orderIndex = b.orderIndex

/-- ... and in what it leaves out of the fields that playback reads. -/
structure SameFields (a b : PlaylistItem) : Prop where
  filename : a.filename = b.filename
  mediaType : a.mediaType = b.mediaType
  duration : a.duration = b.duration
  checksum : a.checksum = b.checksum
  imageDuration : a.imageDuration = b.imageDuration
  subtitles : a.subtitles = b.subtitles

/-- The state agrees with the message in what the check leaves out. -/
structure SameUnchecked (msg : PlaylistMessage) (s : AppState) : Prop where
  items : List.Forall₂ SameFields s.queue.items msg.items
  loopEnabled : s.queue.loopEnabled = msg.loopPlaylist

section

variable {c : Coordinator} {msg : PlaylistMessage} {io : HandlerIO} {s t : AppState}

theorem samePlayback_iff {a b : PlaylistItem} :
    SamePlayback a b ↔ SameChecked a b ∧ SameFields a b := by
  constructor
  · intro h
    exact ⟨⟨h.mediaId, h.orderIndex⟩,
      ⟨h.filename, h.mediaType, h.duration, h.checksum, h.imageDuration, h.subtitles⟩⟩
  · rintro ⟨⟨hmedia, horder⟩, h⟩
    exact ⟨hmedia, h.filename, h.mediaType, h.duration, h.checksum, horder, h.imageDuration,
      h.subtitles⟩

/-- What the check compares. -/
theorem isPlaylistUnchanged_iff {playlistId : Nat} {items : List PlaylistItem} :
    c.isPlaylistUnchanged playlistId items = true ↔
      c.state.playlistId = some playlistId ∧
        List.Forall₂ SameChecked c.state.queue.items items := by
  unfold isPlaylistUnchanged
  by_cases hid : c.state.playlistId = some playlistId
  · rw [if_neg (not_not.mpr hid)]
    by_cases hlength : c.state.queue.items.length = items.length
    · rw [if_neg (not_not.mpr hlength), List.forall₂_iff_zip]
      simp [hid, hlength, SameChecked]
    · rw [if_pos hlength]
      have hnot : ¬ List.Forall₂ SameChecked c.state.queue.items items :=
        fun h => hlength h.length_eq
      simp [hnot]
  · rw [if_pos hid]
    simp [hid]

/-- On a state that passes the check, showing the message is agreeing in the rest. -/
theorem shows_iff_sameUnchecked
    (unchanged : c.isPlaylistUnchanged msg.playlistId msg.items = true) :
    Shows msg c.state ↔ SameUnchecked msg c.state := by
  obtain ⟨hid, hchecked⟩ := isPlaylistUnchanged_iff.mp unchanged
  constructor
  · intro h
    exact ⟨h.items.imp fun _ _ hab => (samePlayback_iff.mp hab).2, h.loopEnabled⟩
  · intro h
    refine ⟨hid, ?_, h.loopEnabled⟩
    rw [List.forall₂_iff_zip] at hchecked ⊢
    refine ⟨hchecked.1, fun hab => samePlayback_iff.mpr ⟨hchecked.2 hab, ?_⟩⟩
    exact (List.forall₂_iff_zip.mp h.items).2 hab

theorem Shows.of_same (same : SamePlaylist s t) (h : Shows msg s) : Shows msg t where
  playlistId := same.playlistId.trans h.playlistId
  items := by
    rw [same.items]
    exact h.items
  loopEnabled := same.loopEnabled.trans h.loopEnabled

theorem shows_updatePlaylist (msg : PlaylistMessage) (s : AppState) :
    Shows msg (s.updatePlaylist msg.playlistId msg.items msg.loopPlaylist) where
  playlistId := rfl
  items := List.forall₂_same.mpr fun _ _ => ⟨rfl, rfl, rfl, rfl, rfl, rfl, rfl, rfl⟩
  loopEnabled := rfl

/-- A message that is not skipped is shown, after an assignment with nothing interrupted. -/
theorem shows_of_not_skipped (hnot : ¬ c.isPlaylistUnchanged msg.playlistId msg.items = true) :
    (Shows msg (c.handlePlaylistAssigned msg io).state ∧
        (c.handlePlaylistAssigned msg io).state.interruptStack = []) ∧
      Shows msg (c.handlePlaylistUpdated msg io).state := by
  unfold handlePlaylistAssigned handlePlaylistUpdated
  rw [if_neg hnot, if_neg hnot]
  refine ⟨⟨?_, ?_⟩, ?_⟩
  · exact (shows_updatePlaylist msg _).of_same (samePlaylist_downloadAndStart _ _ io)
  · rw [(samePlaylist_downloadAndStart _ _ io).interruptStack]
    show (AppState.updatePlaylist _ _ _ _).interruptStack = []
    rw [endAnalyticsSession_state]
    rfl
  · -- with the current media gone the playback starts anew
    dsimp only
    split
    · have hstart := samePlaylist_startPlayback
        ((c.updatePlaylist msg.playlistId msg.items msg.loopPlaylist).endAnalyticsSession false) io
      rw [endAnalyticsSession_state] at hstart
      exact (shows_updatePlaylist msg c.state).of_same hstart
    · exact shows_updatePlaylist msg c.state

end

/-! ### The law -/

/-- What a playlist message should leave behind; nothing interrupted after an assignment. -/
def Applied : ServerMessage → AppState → Prop
  | .playlistAssigned msg, s => Shows msg s ∧ s.interruptStack = []
  | .playlistUpdated msg, s => Shows msg s
  | _, _ => True

/-- The message is skipped as unchanged. -/
def skips (c : Coordinator) : ServerMessage → Bool
  | .playlistAssigned msg => c.isPlaylistUnchanged msg.playlistId msg.items
  | .playlistUpdated msg => c.isPlaylistUnchanged msg.playlistId msg.items
  | _ => false

/-- The state agrees with the message in what the check leaves out, and an assignment finds
    nothing interrupted. -/
def AgreesUnchecked : ServerMessage → AppState → Prop
  | .playlistAssigned msg, s => SameUnchecked msg s ∧ s.interruptStack = []
  | .playlistUpdated msg, s => SameUnchecked msg s
  | _, _ => True

section

variable {c : Coordinator} {message : ServerMessage} {io : HandlerIO}

theorem applied_iff_agreesUnchecked (skipped : c.skips message = true) :
    Applied message c.state ↔ AgreesUnchecked message c.state := by
  cases message with
  | playlistAssigned msg => exact and_congr_left' (shows_iff_sameUnchecked skipped)
  | playlistUpdated msg => exact shows_iff_sameUnchecked skipped
  | _ => exact Iff.rfl

theorem applied_of_not_skips (hnot : ¬ c.skips message = true) :
    Applied message (c.handleServerMessage message io).state := by
  cases message with
  | playlistAssigned msg => exact (shows_of_not_skipped hnot).1
  | playlistUpdated msg => exact (shows_of_not_skipped hnot).2
  | _ => exact trivial

theorem handleServerMessage_of_skips (skipped : c.skips message = true) :
    c.handleServerMessage message io = c := by
  cases message with
  | playlistAssigned msg => exact if_pos skipped
  | playlistUpdated msg => exact if_pos skipped
  | _ => exact absurd skipped Bool.false_ne_true

end

/-- **Skipping what is unchanged.**  A playlist message leaves what it should, and is skipped only
    when that held before, exactly when it is not skipped or the state agrees with it in what the
    check leaves out. -/
theorem applied_iff (c : Coordinator) (message : ServerMessage) (io : HandlerIO) :
    (Applied message (c.handleServerMessage message io).state ∧
        (c.skips message = true → Applied message c.state)) ↔
      (c.skips message = true → AgreesUnchecked message c.state) := by
  constructor
  · rintro ⟨-, hskip⟩ skipped
    exact (applied_iff_agreesUnchecked skipped).mp (hskip skipped)
  · intro hagrees
    by_cases skipped : c.skips message = true
    · have happlied := (applied_iff_agreesUnchecked skipped).mpr (hagrees skipped)
      rw [handleServerMessage_of_skips skipped]
      exact ⟨happlied, fun _ => happlied⟩
    · exact ⟨applied_of_not_skips skipped, fun h => absurd h skipped⟩

/-! ### Messages that are skipped and differ -/

/-- The state has playlist 1, an image, and is asked to loop it. -/
def onePicture : Coordinator :=
  { state := ({} : AppState).updatePlaylist 1 [PlaylistItem.image 1 "old.png"] false }

/-- **Counterexample.**  Skipped are: the same playlist with the loop flag set, with another file
    for the same media id, and an assignment of the playlist that an interrupt plays. -/
theorem not_applied_onePicture :
    ¬ Applied (.playlistUpdated ⟨1, "pictures", [PlaylistItem.image 1 "old.png"], true⟩)
        (onePicture.handleServerMessage
          (.playlistUpdated ⟨1, "pictures", [PlaylistItem.image 1 "old.png"], true⟩) {}).state ∧
      ¬ Applied (.playlistUpdated ⟨1, "pictures", [PlaylistItem.image 1 "new.png"], false⟩)
        (onePicture.handleServerMessage
          (.playlistUpdated ⟨1, "pictures", [PlaylistItem.image 1 "new.png"], false⟩) {}).state ∧
      ¬ Applied (.playlistAssigned ⟨1, "pictures", [PlaylistItem.image 1 "old.png"], false⟩)
        ({ onePicture with state := onePicture.state.pushInterrupt }.handleServerMessage
          (.playlistAssigned ⟨1, "pictures", [PlaylistItem.image 1 "old.png"], false⟩)
          {}).state := by
  refine ⟨fun h => ?_, fun h => ?_, fun h => ?_⟩
  · have hloop := h.loopEnabled
    revert hloop
    decide
  · have hitem := (List.forall₂_cons.mp h.items).1.filename
    revert hitem
    decide
  · have hstack := h.2
    revert hstack
    decide

end Coordinator

end Montr.Client
