import Montr.Client.PlaylistDedupe
import Montr.Lib.Transition
import Montr.Protocol.ServerToClient
import Montr.Server.PlaylistSync

namespace Montr.Protocol

open Client Server Wire Transition
open Client.Coordinator (SameChecked samePlayback_iff isPlaylistUnchanged_iff
  shows_of_not_skipped samePlaylist_downloadAndStart)

/-!
# Playlists from a message of the server to the player's queue

* `brings` — the playlist that a message of the server carries;
* `Shows` — the player has the playlist of a message: its id, and its media in their order;
* `receive` — the decoder of the player and its coordinator, one after the other;
* `shows_of_delivered` — a message that is decoded is shown once it is handled.
-/

/-! ### What a message brings -/

/-- The playlist that a message brings, with its items: `null` clears the queue. -/
def brings : Server.ServerMessage → Option (Option Nat × List PlaylistMediaItem)
  | .playlistAssigned playlistId _ _ items => some (some playlistId, items)
  | .playlistUpdated playlistId _ items => some (some playlistId, items)
  | .playlistInterrupt playlistId _ _ items _ => some (some playlistId, items)
  | .playlistResume (.value playlistId) _ _ items => some (some playlistId, items)
  | .playlistResume _ _ _ _ => some (none, [])
  | .errorResponse _ => none

/-- The media of a message and their order indexes. -/
def listed (items : List PlaylistMediaItem) : List (Nat × Int) :=
  items.map fun t => (t.mediaId, t.orderIndex)

/-- The media of a queue and their order indexes. -/
def queued (items : List Client.PlaylistItem) : List (Nat × Int) :=
  items.map fun t => (t.mediaId, (t.orderIndex : Int))

/-- The player has the playlist: its id, and its media in their order. -/
structure Shows (playlistId : Option Nat) (items : List PlaylistMediaItem) (s : AppState) :
    Prop where
  playlistId : s.playlistId = playlistId
  media : queued s.queue.items = listed items

/-- The message as the coordinator takes it. -/
def toClient : PushedMessage → Client.ServerMessage
  | .playlistAssigned m => .playlistAssigned
      { playlistId := m.playlistId, playlistName := m.playlistName, items := m.items
        loopPlaylist := m.loopPlaylist }
  | .playlistUpdated m => .playlistUpdated
      { playlistId := m.playlistId, playlistName := "", items := m.items
        loopPlaylist := m.loopPlaylist }
  | .playlistInterrupt m => .playlistInterrupt
      { playlistId := m.playlistId, playlistName := m.playlistName, items := m.items
        loopPlaylist := m.loopPlaylist }
  | .playlistResume m => .playlistResume m
  | .scheduleDefinitions _ => .scheduleDefinitions

/-- `from_json` and the coordinator's handling; what is not decoded is logged only. -/
def receive (numbers : SerdeNumbers) (c : Coordinator) (message : Server.ServerMessage)
    (io : HandlerIO) : Coordinator :=
  match PushedMessage.fromJson numbers (message.toJson.subst stringify) with
  | some m => c.handleServerMessage (toClient m) io
  | none => c

section

variable {numbers : SerdeNumbers} {c : Coordinator} {io : HandlerIO} {s t : AppState}
  {playlistId : Option Nat} {items : List PlaylistMediaItem} {read : List Client.PlaylistItem}

/-! ### Values that were read -/

theorem same_natural {n : Nat} {x : ℚ} (h : Same scalarValue (jsNumber x) (.number (n : ℚ))) :
    x = n := by
  obtain ⟨y, hy, hn⟩ := same_number.mp h
  rw [Option.some.inj hy, Json.number.inj hn]

theorem same_integer {n : Nat} {k : Int}
    (h : Same scalarValue (jsNumber k) (.number (n : ℚ))) : (n : Int) = k := by
  have hrat : ((k : ℚ)) = ((n : Int) : ℚ) := by
    rw [Int.cast_natCast]
    exact same_natural h
  exact (Int.cast_injective hrat).symm

/-- Objects with the same keys, field by field. -/
theorem same_fields {fs : List (String × Option (Json JsScalar))}
    {gs : List (String × Option (Json ℚ))} (keys : List.Forall₂ (fun f g => f.1 = g.1) fs gs)
    (distinct : (fs.map (·.1)).Nodup) (h : Same scalarValue (.struct fs) (.struct gs)) :
    List.Forall₂ (fun f g => Option.Rel (Same scalarValue) f.2 g.2) fs gs := by
  obtain ⟨es, hes, hsame⟩ := same_object.mp h
  obtain rfl := Json.object.inj hes
  exact (same_entries_iff keys distinct).mp hsame

/-- An item that was read is of the medium that was written, at its place. -/
theorem same_item {p : PlaylistMediaItem} {item : Client.PlaylistItem}
    (h : Same scalarValue p.toJson item.tree) :
    item.mediaId = p.mediaId ∧ (item.orderIndex : Int) = p.orderIndex := by
  have hfields := same_fields (by simp [PlaylistMediaItem.fields, Client.PlaylistItem.fields])
    (by simp [PlaylistMediaItem.fields]) h
  simp only [PlaylistMediaItem.fields, Client.PlaylistItem.fields, List.forall₂_cons] at hfields
  obtain ⟨-, hmedia, -, -, -, -, -, horder, -⟩ := hfields
  rw [Option.rel_some_some] at hmedia horder
  refine ⟨?_, same_integer horder⟩
  exact_mod_cast (same_natural hmedia).symm

theorem queued_of_same
    (h : Same scalarValue (.array (items.map PlaylistMediaItem.toJson))
      (.array (read.map PlaylistItem.tree))) : queued read = listed items := by
  obtain ⟨ws, hws, hsame⟩ := same_array.mp h
  obtain rfl := Json.array.inj hws
  rw [List.forall₂_map_left_iff, List.forall₂_map_right_iff] at hsame
  unfold queued listed
  clear h hws
  induction hsame with
  | nil => rfl
  | cons hitem _ ih =>
    obtain ⟨hmedia, horder⟩ := same_item hitem
    rw [List.map_cons, List.map_cons, ih, hmedia, horder]

/-- The tag comes first on both sides. -/
theorem same_type {written received : String} {fs : List (String × Option (Json JsScalar))}
    {gs : List (String × Option (Json ℚ))}
    (h : Same scalarValue (.struct (("type", some (.string written)) :: fs))
      (.struct (("type", some (.string received)) :: gs))) : received = written := by
  obtain ⟨es, hes, hsame⟩ := same_object.mp h
  obtain rfl := Json.object.inj hes
  rw [Json.entries_cons, Json.entries_cons] at hsame
  obtain ⟨⟨-, htag⟩, -⟩ := List.forall₂_cons.mp hsame
  exact Json.string.inj (same_string.mp htag)

/-! ### Handling a message -/

theorem queued_of_sameChecked {a b : List Client.PlaylistItem}
    (h : List.Forall₂ SameChecked a b) : queued a = queued b := by
  unfold queued
  induction h with
  | nil => rfl
  | cons hitem _ ih =>
    obtain ⟨hmedia, horder⟩ := hitem
    rw [List.map_cons, List.map_cons, ih, hmedia, horder]

theorem Shows.of_same (same : SamePlaylist s t) (h : Shows playlistId items s) :
    Shows playlistId items t where
  playlistId := same.playlistId.trans h.playlistId
  media := by
    rw [same.items]
    exact h.media

/-- The playlist of a message, where it has been put into the state. -/
theorem shows_of_message {msg : PlaylistMessage} (media : queued msg.items = listed items)
    (h : Client.Coordinator.Shows msg s) : Shows (some msg.playlistId) items s where
  playlistId := h.playlistId
  media := by
    rw [← media]
    exact queued_of_sameChecked (h.items.imp fun _ _ hab => (samePlayback_iff.mp hab).1)

/-- A playlist message that is skipped is shown already. -/
theorem shows_of_unchanged {id : Nat} {received : List Client.PlaylistItem}
    (media : queued received = listed items) (h : c.isPlaylistUnchanged id received = true) :
    Shows (some id) items c.state := by
  obtain ⟨hid, hchecked⟩ := isPlaylistUnchanged_iff.mp h
  exact ⟨hid, (queued_of_sameChecked hchecked).trans media⟩

/-- A playlist that replaces the one of the state. -/
theorem shows_updatePlaylist {id : Nat} {received : List Client.PlaylistItem} {loopEnabled : Bool}
    (media : queued received = listed items) :
    Shows (some id) items (c.updatePlaylist id received loopEnabled).state := ⟨rfl, media⟩

section

variable (c) (io) (msg : PlaylistMessage)

theorem shows_assigned (media : queued msg.items = listed items) :
    Shows (some msg.playlistId) items (c.handlePlaylistAssigned msg io).state := by
  by_cases hskip : c.isPlaylistUnchanged msg.playlistId msg.items = true
  · unfold Coordinator.handlePlaylistAssigned
    rw [if_pos hskip]
    exact shows_of_unchanged media hskip
  · exact shows_of_message media (shows_of_not_skipped hskip).1.1

theorem shows_updated (media : queued msg.items = listed items) :
    Shows (some msg.playlistId) items (c.handlePlaylistUpdated msg io).state := by
  by_cases hskip : c.isPlaylistUnchanged msg.playlistId msg.items = true
  · unfold Coordinator.handlePlaylistUpdated
    rw [if_pos hskip]
    exact shows_of_unchanged media hskip
  · have hshown := @shows_of_not_skipped _ _ io hskip
    exact shows_of_message media hshown.2

theorem shows_interrupt (media : queued msg.items = listed items) :
    Shows (some msg.playlistId) items (c.handlePlaylistInterrupt msg io).state :=
  (shows_updatePlaylist media).of_same (samePlaylist_downloadAndStart _ _ io)

/-- A resume brings its playlist, or clears the queue. -/
theorem shows_resume (msg : Client.PlaylistResumeMessage)
    (media : msg.playlistId ≠ none → queued msg.items = listed items)
    (cleared : msg.playlistId = none → items = []) :
    Shows msg.playlistId items (c.handlePlaylistResume msg io).state := by
  unfold Coordinator.handlePlaylistResume
  dsimp only
  split
  · next id hid =>
    rw [hid]
    exact (shows_updatePlaylist (media (by simp [hid]))).of_same
      (samePlaylist_downloadAndStart _ _ io)
  · next hid =>
    rw [hid, cleared hid]
    exact ⟨rfl, rfl⟩

end

/-- **What is decoded is shown**: after the coordinator has handled a playlist message, the player
    has its playlist, whether or not the message was skipped as unchanged. -/
theorem shows_of_delivered {m : Server.ServerMessage} (delivered : Delivered numbers m.toJson)
    (hbrings : brings m = some (playlistId, items)) :
    Shows playlistId items (receive numbers c m io).state := by
  obtain ⟨msg, hread, hsame⟩ := delivered
  unfold receive
  rw [hread]
  dsimp only
  cases m with
  | playlistAssigned id name loop sent =>
    obtain ⟨rfl, rfl⟩ := Prod.mk.inj (Option.some.inj hbrings)
    cases msg with
    | playlistAssigned msg =>
      have hfields := same_fields (by simp [ServerMessage.fields, PushedMessage.fields])
        (by simp [ServerMessage.fields]) hsame
      simp only [ServerMessage.fields, PushedMessage.fields, List.forall₂_cons,
        Option.rel_some_some] at hfields
      obtain ⟨-, hid, -, -, hitems, -⟩ := hfields
      have hmedia := queued_of_same hitems
      obtain rfl : id = msg.playlistId := by exact_mod_cast same_natural hid
      exact shows_assigned c io ⟨_, _, _, _⟩ hmedia
    | _ => exact absurd (same_type hsame) (by decide)
  | playlistUpdated id loop sent =>
    obtain ⟨rfl, rfl⟩ := Prod.mk.inj (Option.some.inj hbrings)
    cases msg with
    | playlistUpdated msg =>
      have hfields := same_fields (by simp [ServerMessage.fields, PushedMessage.fields])
        (by simp [ServerMessage.fields]) hsame
      simp only [ServerMessage.fields, PushedMessage.fields, List.forall₂_cons,
        Option.rel_some_some] at hfields
      obtain ⟨-, hid, -, hitems, -⟩ := hfields
      have hmedia := queued_of_same hitems
      obtain rfl : id = msg.playlistId := by exact_mod_cast same_natural hid
      exact shows_updated c io ⟨_, _, _, _⟩ hmedia
    | _ => exact absurd (same_type hsame) (by decide)
  | playlistInterrupt id name loop sent previous =>
    obtain ⟨rfl, rfl⟩ := Prod.mk.inj (Option.some.inj hbrings)
    cases msg with
    | playlistInterrupt msg =>
      have hfields := same_fields (by simp [ServerMessage.fields, PushedMessage.fields])
        (by simp [ServerMessage.fields]) hsame
      simp only [ServerMessage.fields, PushedMessage.fields, List.forall₂_cons,
        Option.rel_some_some] at hfields
      obtain ⟨-, hid, -, -, hitems, -⟩ := hfields
      have hmedia := queued_of_same hitems
      obtain rfl : id = msg.playlistId := by exact_mod_cast same_natural hid
      exact shows_interrupt c io ⟨_, _, _, _⟩ hmedia
    | _ => exact absurd (same_type hsame) (by decide)
  | playlistResume id name loop sent =>
    cases msg with
    | playlistResume msg =>
      have hfields := same_fields (by simp [ServerMessage.fields, PushedMessage.fields])
        (by simp [ServerMessage.fields]) hsame
      simp only [ServerMessage.fields, PushedMessage.fields, List.forall₂_cons,
        Option.rel_some_some] at hfields
      obtain ⟨-, hid, -, -, hitems, -⟩ := hfields
      have hmedia := queued_of_same hitems
      -- the id is the same, or `null` on both sides
      cases id with
      | undefined => exact absurd hid (by simp [Field.toJson])
      | null =>
        obtain ⟨rfl, rfl⟩ := Prod.mk.inj (Option.some.inj hbrings)
        have hnone : msg.playlistId = none := by
          rw [Field.toJson, Option.rel_some_some] at hid
          cases hread : msg.playlistId with
          | none => rfl
          | some n => simp [hread, same_null] at hid
        rw [← hnone]
        exact shows_resume c io msg (fun h => absurd hnone h) fun _ => rfl
      | value n =>
        obtain ⟨rfl, rfl⟩ := Prod.mk.inj (Option.some.inj hbrings)
        have hsome : msg.playlistId = some n := by
          rw [Field.toJson, Option.rel_some_some] at hid
          cases hread : msg.playlistId with
          | none => simp [hread, jsNumber, same_number] at hid
          | some k =>
            rw [hread] at hid
            have heq : n = k := by exact_mod_cast same_natural hid
            rw [heq]
        rw [← hsome]
        refine shows_resume c io msg (fun _ => hmedia) fun h => ?_
        exact absurd (hsome.symm.trans h) (by simp)
    | _ => exact absurd (same_type hsame) (by decide)
  | errorResponse error => exact absurd hbrings (by simp [brings])

end

end Montr.Protocol
