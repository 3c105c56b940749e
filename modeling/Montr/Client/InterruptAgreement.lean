import Montr.Client.PlaylistDedupe
import Montr.Server.AssignmentTurns

namespace Montr.Client

open Transition
open Server.AssignmentState (Call Typed Stored assignedMessage savedFrom)

/-!
# Interrupts on the server and on the player

The server remembers one playlist to resume in the client's row; the player keeps a stack of
interrupted playlists.  A `Deployment` is the server and the player of one client, which hears the
messages of an operation before the next one.

* `Deployment.Agrees` — the stack is non-empty exactly when the row has a playlist to resume, and
  a client that was just resumed plays the playlist of its row;
* `Deployment.InStep` — what an operation must find for that;
* `agrees_iff` — they agree after every operation of a run exactly when each is in step.
-/

/-! ### The messages as the player reads them -/

def SubtitleTrack.received (track : Server.SubtitleTrackPayload) : SubtitleTrack where
  id := track.id
  kind :=
    match track.kind with
    | .external => .external
    | .embedded => .embedded
  language := track.language
  label := track.label
  isDefault := track.isDefault
  isForced := track.isForced
  downloadUrl := track.downloadUrl
  filename := track.filename
  format := track.format
  checksum := track.checksum
  streamIndex := track.streamIndex
  codec := track.codec

/-- An item; its order index is read as a `u32`. -/
def PlaylistItem.received (item : Server.PlaylistMediaItem) : PlaylistItem where
  id := item.id
  mediaId := item.mediaId
  filename := item.filename
  downloadUrl := item.downloadUrl
  mediaType :=
    match item.type with
    | .video => "video"
    | .image => "image"
  duration := some item.duration
  checksum := item.checksum
  orderIndex := item.orderIndex.toNat
  imageDuration := item.imageDuration
  subtitles := item.subtitles.map SubtitleTrack.received
  fileSize := item.fileSize

/-- A message of the server; the name that an update lacks is empty. -/
def ServerMessage.received : Server.ServerMessage → ServerMessage
  | .playlistAssigned playlistId name loopPlaylist items =>
    .playlistAssigned ⟨playlistId, name, items.map PlaylistItem.received, loopPlaylist⟩
  | .playlistUpdated playlistId loopPlaylist items =>
    .playlistUpdated ⟨playlistId, "", items.map PlaylistItem.received, loopPlaylist⟩
  | .playlistInterrupt playlistId name loopPlaylist items _ =>
    .playlistInterrupt ⟨playlistId, name, items.map PlaylistItem.received, loopPlaylist⟩
  | .playlistResume playlistId name loopPlaylist items =>
    .playlistResume ⟨playlistId.toOption, name, items.map PlaylistItem.received, loopPlaylist⟩
  | .errorResponse error => .errorResponse error

/-! ### The server and its player -/

/-- The server and the player of one client. -/
structure Deployment where
  server : Server.AssignmentState
  player : Coordinator
  /-- the latest operation was a successful resume of the client -/
  resumed : Bool

/-- An operation, and what the player meets when it handles the message. -/
structure Exchange where
  call : Call
  io : HandlerIO

namespace Deployment

/-- The player handles messages in their order. -/
def hear (io : HandlerIO) (player : Coordinator) (messages : List Server.ServerMessage) :
    Coordinator :=
  messages.foldl (fun c message => c.handleServerMessage (.received message) io) player

/-- What the client was sent between two states. -/
def sent (clientId : String) (s t : Server.AssignmentState) : List Server.ServerMessage :=
  (t.outbox clientId).drop (s.outbox clientId).length

/-- The operation, when it completes, has resumed the client. -/
def resumes (clientId : String) (s : Server.AssignmentState) (call : Call) : Bool :=
  match call.op with
  | .resume id => id == clientId
  | .autoResume id => id == clientId && ((s.deleteTimer id).resume id call.now).isSome
  | _ => false

/-- One operation, and then its messages on the player. -/
def step (cfg : Server.ServerConfig) (clientId : String) (d : Deployment) (e : Exchange) :
    Option Deployment :=
  (Server.AssignmentState.step cfg d.server e.call).map fun server =>
    { server := server
      player := hear e.io d.player (sent clientId d.server server)
      resumed := resumes clientId d.server e.call }

/-- **The server and the player agree** on whether the client is interrupted, and on its playlist
    after a resume. -/
structure Agrees (clientId : String) (d : Deployment) : Prop where
  stack : d.player.state.interruptStack ≠ [] ↔ d.server.HasSaved clientId
  resumed : d.resumed = true → d.player.state.playlistId = d.server.assignedTo clientId

/-- The player would skip an assignment of the playlist as unchanged. -/
def skips (cfg : Server.ServerConfig) (d : Deployment) (playlistId : Nat) : Bool :=
  d.player.skips (.received (assignedMessage cfg d.server.server.db playlistId))

/-- The operation finds the server and the player so that they agree after it. -/
structure InStep (cfg : Server.ServerConfig) (clientId : String) (d : Deployment)
    (e : Exchange) : Prop where
  /-- an assignment leaves the row interrupted and clears the stack, unless it is skipped -/
  assign : ∀ playlist playlistId, d.server.assigns clientId e.call.op = some playlist →
    Server.AssignmentState.truthyId playlist = some playlistId → d.server.HasSaved clientId →
    d.skips cfg playlistId = true
  /-- a first interrupt saves what the row has and pushes what the player has -/
  interrupt : ∀ playlistId, e.call.op = .interrupt clientId playlistId →
    d.server.HasSaved clientId ∨
      (d.player.state.playlistId ≠ none ↔ d.server.assignedTo clientId ≠ none)
  /-- a schedule that interrupts sends an assignment -/
  schedule : ∀ schedule, e.call.op = .dispatchSchedule schedule →
    schedule.interruptMode = .interrupt → clientId ∈ d.server.targets schedule →
    d.server.clientStore.allows (.value schedule.playlistId) = true →
    if d.skips cfg schedule.playlistId = true then
      d.server.assignedTo clientId ≠ none → d.server.HasSaved clientId
    else ¬ d.server.HasSaved clientId ∧ d.server.assignedTo clientId = none
  /-- a resume pops one entry and leaves nothing saved -/
  resume : e.call.op = .resume clientId → d.player.state.interruptStack.length ≤ 1
  /-- a timer sends an assignment too -/
  autoResume : e.call.op = .autoResume clientId → ∀ r playlistId,
    d.server.row clientId = some r → r.interruptedFromPlaylistId = .value playlistId →
    d.server.clientStore.allows (.value playlistId) = true → d.skips cfg playlistId = false

/-- What the schema promises of the server, and a connection of the client. -/
structure Ready (clientId : String) (d : Deployment) : Prop where
  stored : Stored d.server
  connected : d.server.isConnected clientId = true
  distinct : (d.server.server.db.clients.map (·.id)).Nodup
  typed : Typed clientId d.server

/-! ### What the player makes of a message -/

section

variable {cfg : Server.ServerConfig} {clientId : String} {c : Coordinator} {io : HandlerIO}
  {s t : Server.AssignmentState} {playlistId : Nat} {old new : Server.Client}
  {messages : List Server.ServerMessage} {d d' : Deployment} {e : Exchange}

theorem sent_of_turn (turn : Server.AssignmentState.Turn s t clientId old new messages) :
    sent clientId s t = messages := by
  rw [sent, turn.outbox, List.drop_left]

/-- An assignment of a playlist that exists is played; a skipped one leaves the stack. -/
theorem handle_assigned (known : s.clientStore.allows (.value playlistId) = true) :
    (c.handleServerMessage (.received (assignedMessage cfg s.server.db playlistId))
        io).state.playlistId = some playlistId ∧
      (c.handleServerMessage (.received (assignedMessage cfg s.server.db playlistId))
        io).state.interruptStack =
        if c.skips (.received (assignedMessage cfg s.server.db playlistId)) = true then
          c.state.interruptStack else [] := by
  obtain ⟨playlist, hfind, rfl⟩ := Server.AssignmentState.find_of_allows known
  have hmessage : assignedMessage cfg s.server.db playlist.id =
      .playlistAssigned playlist.id playlist.name true
        (Server.listing cfg s.server.db playlist.id) := by
    simp only [assignedMessage, hfind]
  rw [hmessage]
  -- skipped means that the playlist is the one it has
  by_cases hskips : c.skips (.received (.playlistAssigned playlist.id playlist.name true
      (Server.listing cfg s.server.db playlist.id))) = true
  · rw [Coordinator.handleServerMessage_of_skips hskips, if_pos hskips]
    exact ⟨(Coordinator.isPlaylistUnchanged_iff.mp hskips).1, rfl⟩
  · rw [if_neg hskips]
    have happlied := @Coordinator.applied_of_not_skips c _ io hskips
    exact ⟨happlied.1.playlistId, happlied.2⟩

/-- An interrupt pushes what the player has. -/
theorem handle_interrupt (msg : PlaylistMessage) :
    (c.handleServerMessage (.playlistInterrupt msg) io).state.interruptStack ≠ [] ↔
      c.state.interruptStack ≠ [] ∨ c.state.playlistId ≠ none := by
  have hsame := Coordinator.samePlaylist_downloadAndStart
    (({ c with state := c.state.pushInterrupt }.endAnalyticsSession false).updatePlaylist
      msg.playlistId msg.items msg.loopPlaylist) msg.items io
  -- what follows the push leaves the stack alone
  have hstack : (c.handleServerMessage (.playlistInterrupt msg) io).state.interruptStack =
      c.state.pushInterrupt.interruptStack := by
    refine hsame.interruptStack.trans ?_
    show (AppState.updatePlaylist _ _ _ _).interruptStack = _
    rw [Coordinator.endAnalyticsSession_state]
    rfl
  rw [hstack]
  unfold AppState.pushInterrupt
  cases c.state.playlistId with
  | none => simp
  | some playlistId => simp

/-- A resume pops one entry and plays what the message brings. -/
theorem handle_resume (name : Option String) (items : List PlaylistItem) (loopPlaylist : Bool) :
    (c.handleServerMessage (.playlistResume ⟨some playlistId, name, items, loopPlaylist⟩)
        io).state.playlistId = some playlistId ∧
      (c.handleServerMessage (.playlistResume ⟨some playlistId, name, items, loopPlaylist⟩)
        io).state.interruptStack = c.state.interruptStack.dropLast := by
  have hsame := Coordinator.samePlaylist_downloadAndStart
    (({ c with state := c.state.popInterrupt.1 }.endAnalyticsSession false).updatePlaylist
      playlistId items loopPlaylist) items io
  refine ⟨hsame.playlistId, hsame.interruptStack.trans ?_⟩
  show (AppState.updatePlaylist _ _ _ _).interruptStack = _
  rw [Coordinator.endAnalyticsSession_state]
  rfl

/-! ### One operation -/

/-- The state after an operation. -/
theorem step_eq (h : step cfg clientId d e = some d') :
    ∃ t, Server.AssignmentState.step cfg d.server e.call = some t ∧
      d' = { server := t, player := hear e.io d.player (sent clientId d.server t)
             resumed := resumes clientId d.server e.call } := by
  obtain ⟨t, hstep, rfl⟩ := Option.map_eq_some_iff.mp h
  exact ⟨t, hstep, rfl⟩

/-- Nothing is sent and the row stays. -/
theorem agrees_quiet (start : Agrees clientId d) (row : t.row clientId = d.server.row clientId)
    (outbox : t.outbox clientId = d.server.outbox clientId) :
    Agrees clientId ⟨t, hear io d.player (sent clientId d.server t), false⟩ := by
  have hsent : sent clientId d.server t = [] := by
    rw [sent, outbox, List.drop_length]
  rw [hsent]
  refine ⟨?_, fun h => absurd h Bool.false_ne_true⟩
  show d.player.state.interruptStack ≠ [] ↔ _
  rw [start.stack, Server.AssignmentState.HasSaved, Server.AssignmentState.HasSaved, row]

/-- The player hears an assignment. -/
theorem hear_assigned (known : d.server.clientStore.allows (.value playlistId) = true)
    (turn : Server.AssignmentState.Turn d.server t clientId old new
      [assignedMessage cfg d.server.server.db playlistId]) :
    (hear io d.player (sent clientId d.server t)).state.playlistId = some playlistId ∧
      (hear io d.player (sent clientId d.server t)).state.interruptStack =
        if d.skips cfg playlistId = true then d.player.state.interruptStack else [] := by
  rw [sent_of_turn turn]
  exact handle_assigned known

/-- After an operation that is no resume only the stack matters. -/
theorem agrees_of_calm {player : Coordinator} :
    Agrees clientId ⟨t, player, false⟩ ↔
      (player.state.interruptStack ≠ [] ↔ t.HasSaved clientId) := by
  constructor
  · intro h
    exact h.stack
  · intro h
    exact ⟨h, fun hresumed => absurd hresumed Bool.false_ne_true⟩

/-- A playlist is assigned: what was saved stays, and the message clears the stack. -/
theorem agrees_assigned {playlist : Server.Field Nat} (start : Agrees clientId d)
    (assigned : Server.AssignmentState.Assigned cfg d.server t clientId playlist) :
    Agrees clientId ⟨t, hear io d.player (sent clientId d.server t), false⟩ ↔
      ∀ playlistId, Server.AssignmentState.truthyId playlist = some playlistId →
        d.server.HasSaved clientId → d.skips cfg playlistId = true := by
  obtain ⟨hknown, old, new, hturn, hsaved⟩ := assigned
  have hsame : t.HasSaved clientId ↔ d.server.HasSaved clientId := by
    rw [hturn.hasSaved, hsaved, hturn.hasSaved_before]
  rw [agrees_of_calm, hsame, ← start.stack]
  cases htruthy : Server.AssignmentState.truthyId playlist with
  | none =>
    have htold : d.server.told cfg playlist = [] := by
      rw [Server.AssignmentState.told, htruthy]
    rw [sent_of_turn hturn, htold]
    simp [hear]
  | some p =>
    obtain rfl := Server.AssignmentState.value_of_truthyId htruthy
    rw [Server.AssignmentState.told, htruthy] at hturn
    rw [(hear_assigned hknown hturn).2]
    -- a message that is not skipped clears the stack
    cases hskips : d.skips cfg p with
    | true => simp [hskips]
    | false =>
      rw [if_neg Bool.false_ne_true]
      constructor
      · intro h _ _ hsaved
        exact absurd rfl (h.mpr hsaved)
      · intro h
        refine ⟨fun hne => absurd rfl hne, fun hsaved => ?_⟩
        exact absurd (hskips.symm.trans (h p rfl hsaved)) Bool.false_ne_true

/-- An interrupt: the row saves what it has, ... -/
theorem hasSaved_interrupt (ready : Ready clientId d)
    (turn : Server.AssignmentState.Turn d.server t clientId old new messages)
    (saved : new.interruptedFromPlaylistId = savedFrom old) :
    t.HasSaved clientId ↔
      d.server.HasSaved clientId ∨ d.server.assignedTo clientId ≠ none := by
  have hassigned : d.server.assignedTo clientId = old.assignedPlaylistId.toOption := by
    rw [Server.AssignmentState.assignedTo, turn.before, Option.bind_some]
  rw [turn.hasSaved, saved, turn.hasSaved_before, hassigned]
  exact Server.AssignmentState.savedFrom_ne_null (ready.typed old turn.before)

/-- ... and the player pushes what it has. -/
theorem agrees_interrupt (ready : Ready clientId d) (start : Agrees clientId d)
    {name : String} {items : List Server.PlaylistMediaItem} {previous : Server.Field Nat}
    (turn : Server.AssignmentState.Turn d.server t clientId old new
      [.playlistInterrupt playlistId name true items previous])
    (saved : new.interruptedFromPlaylistId = savedFrom old) :
    Agrees clientId ⟨t, hear io d.player (sent clientId d.server t), false⟩ ↔
      (d.server.HasSaved clientId ∨
        (d.player.state.playlistId ≠ none ↔ d.server.assignedTo clientId ≠ none)) := by
  have hpushed : (hear io d.player (sent clientId d.server t)).state.interruptStack ≠ [] ↔
      d.player.state.interruptStack ≠ [] ∨ d.player.state.playlistId ≠ none := by
    rw [sent_of_turn turn]
    exact handle_interrupt _
  rw [agrees_of_calm, hpushed, hasSaved_interrupt ready turn saved, start.stack]
  tauto

/-- The message of an interrupting schedule is an assignment. -/
theorem agrees_schedule (ready : Ready clientId d) (start : Agrees clientId d)
    (known : d.server.clientStore.allows (.value playlistId) = true)
    (turn : Server.AssignmentState.Turn d.server t clientId old new
      [assignedMessage cfg d.server.server.db playlistId])
    (saved : new.interruptedFromPlaylistId = savedFrom old) :
    Agrees clientId ⟨t, hear io d.player (sent clientId d.server t), false⟩ ↔
      if d.skips cfg playlistId = true then
        d.server.assignedTo clientId ≠ none → d.server.HasSaved clientId
      else ¬ d.server.HasSaved clientId ∧ d.server.assignedTo clientId = none := by
  rw [agrees_of_calm, (hear_assigned known turn).2, hasSaved_interrupt ready turn saved]
  by_cases hskips : d.skips cfg playlistId = true
  · rw [if_pos hskips, if_pos hskips, start.stack]
    tauto
  · rw [if_neg hskips, if_neg hskips]
    tauto

/-- A resume of the API: one entry is popped, and nothing is saved any more. -/
theorem agrees_resume {name : Option String}
    {items : List Server.PlaylistMediaItem} {resumed : Bool}
    (turn : Server.AssignmentState.Turn d.server t clientId old new
      [.playlistResume (.value playlistId) name true items])
    (assigned : new.assignedPlaylistId = .value playlistId)
    (saved : new.interruptedFromPlaylistId = .null) :
    Agrees clientId ⟨t, hear io d.player (sent clientId d.server t), resumed⟩ ↔
      d.player.state.interruptStack.length ≤ 1 := by
  have hplayer : (hear io d.player (sent clientId d.server t)).state.playlistId =
        some playlistId ∧
      (hear io d.player (sent clientId d.server t)).state.interruptStack =
        d.player.state.interruptStack.dropLast := by
    rw [sent_of_turn turn]
    exact handle_resume name _ true
  have hrow : t.assignedTo clientId = some playlistId := by
    rw [Server.AssignmentState.assignedTo, turn.after, Option.bind_some, assigned]
    rfl
  have hnone : ¬ t.HasSaved clientId := by
    rw [turn.hasSaved, saved]
    exact not_not.mpr rfl
  -- `dropLast` empties a stack of at most one entry
  have hempty : d.player.state.interruptStack.dropLast = [] ↔
      d.player.state.interruptStack.length ≤ 1 := by
    rw [← List.length_eq_zero_iff, List.length_dropLast]
    omega
  constructor
  · intro h
    have hstack := h.stack
    rw [hplayer.2] at hstack
    by_contra hlong
    exact hnone (hstack.mp (mt hempty.mp hlong))
  · intro hshort
    refine ⟨?_, fun _ => hplayer.1.trans hrow.symm⟩
    show (hear io d.player (sent clientId d.server t)).state.interruptStack ≠ [] ↔ _
    rw [hplayer.2, hempty.mpr hshort]
    exact iff_of_false (not_not.mpr rfl) hnone

/-- A firing timer: the message is an assignment of the playlist that was saved. -/
theorem agrees_autoResume (start : Agrees clientId d) {resumed : Bool}
    (known : d.server.clientStore.allows (.value playlistId) = true)
    (turn : Server.AssignmentState.Turn d.server t clientId old new
      [assignedMessage cfg d.server.server.db playlistId])
    (from_ : old.interruptedFromPlaylistId = .value playlistId)
    (assigned : new.assignedPlaylistId = .value playlistId)
    (saved : new.interruptedFromPlaylistId = .null) :
    Agrees clientId ⟨t, hear io d.player (sent clientId d.server t), resumed⟩ ↔
      d.skips cfg playlistId = false := by
  obtain ⟨hplaylist, hstack⟩ := @hear_assigned cfg clientId io t playlistId old new d known turn
  have hrow : t.assignedTo clientId = some playlistId := by
    rw [Server.AssignmentState.assignedTo, turn.after, Option.bind_some, assigned]
    rfl
  have hnone : ¬ t.HasSaved clientId := by
    rw [turn.hasSaved, saved]
    exact not_not.mpr rfl
  -- the row had a playlist to resume, so the stack had an entry
  have hsaved : d.player.state.interruptStack ≠ [] := by
    rw [start.stack, turn.hasSaved_before, from_]
    simp
  constructor
  · intro h
    by_contra hskips
    rw [Bool.not_eq_false] at hskips
    rw [if_pos hskips] at hstack
    exact hnone (h.stack.mp (hstack.symm ▸ hsaved))
  · intro hskips
    rw [hskips, if_neg Bool.false_ne_true] at hstack
    refine ⟨?_, fun _ => hplaylist.trans hrow.symm⟩
    show (hear io d.player (sent clientId d.server t)).state.interruptStack ≠ [] ↔ _
    rw [hstack]
    exact iff_of_false (not_not.mpr rfl) hnone

/-! ### A run -/

theorem inStep_of_not_mem (notMem : clientId ∉ d.server.addressees e.call.op) :
    InStep cfg clientId d e := by
  obtain ⟨⟨op, now⟩, io⟩ := e
  constructor
  · intro playlist p hassigns
    exact absurd (Server.AssignmentState.mem_of_assigns hassigns) notMem
  · rintro p rfl
    exact absurd List.mem_cons_self notMem
  · rintro schedule rfl - hmem
    exact absurd hmem notMem
  · rintro rfl
    exact absurd List.mem_cons_self notMem
  · rintro rfl
    exact absurd List.mem_cons_self notMem

theorem resumes_of_not_mem (notMem : clientId ∉ d.server.addressees e.call.op) :
    resumes clientId d.server e.call = false := by
  obtain ⟨⟨op, now⟩, io⟩ := e
  cases op with
  | resume id =>
    have hne : clientId ≠ id := List.ne_of_not_mem_cons notMem
    simpa [resumes] using hne.symm
  | autoResume id =>
    have hne : clientId ≠ id := List.ne_of_not_mem_cons notMem
    simp [resumes, hne.symm]
  | _ => rfl

/-- An operation that assigns a playlist has the one thing to look at. -/
theorem inStep_iff_of_assigning {playlist : Server.Field Nat}
    (assigning : e.call.op.Assigning)
    (assigns : d.server.assigns clientId e.call.op = some playlist) :
    InStep cfg clientId d e ↔
      ∀ playlistId, Server.AssignmentState.truthyId playlist = some playlistId →
        d.server.HasSaved clientId → d.skips cfg playlistId = true := by
  constructor
  · intro h p
    exact h.assign playlist p assigns
  · intro h
    obtain ⟨⟨op, now⟩, io⟩ := e
    constructor
    · intro playlist' p hassigns
      obtain rfl := Option.some.inj (assigns.symm.trans hassigns)
      exact h p
    · rintro p rfl
      exact assigning.elim
    · rintro schedule rfl hmode
      exact absurd hmode assigning
    · rintro rfl
      exact assigning.elim
    · rintro rfl
      exact assigning.elim

theorem resumes_of_assigning (assigning : e.call.op.Assigning) :
    resumes clientId d.server e.call = false := by
  obtain ⟨⟨op, now⟩, io⟩ := e
  cases op with
  | resume => exact assigning.elim
  | autoResume => exact assigning.elim
  | _ => rfl

/-- Without an assignment one thing is left to look at. -/
theorem inStep_interrupt {now : String} :
    InStep cfg clientId d ⟨⟨.interrupt clientId playlistId, now⟩, io⟩ ↔
      (d.server.HasSaved clientId ∨
        (d.player.state.playlistId ≠ none ↔ d.server.assignedTo clientId ≠ none)) := by
  constructor
  · intro h
    exact h.interrupt playlistId rfl
  · intro h
    constructor
    · intro playlist p hassigns
      exact nomatch hassigns
    · intro p _
      exact h
    · intro schedule hop
      exact nomatch hop
    · intro hop
      exact nomatch hop
    · intro hop
      exact nomatch hop

theorem inStep_resume {now : String} :
    InStep cfg clientId d ⟨⟨.resume clientId, now⟩, io⟩ ↔
      d.player.state.interruptStack.length ≤ 1 := by
  constructor
  · intro h
    exact h.resume rfl
  · intro h
    constructor
    · intro playlist p hassigns
      exact nomatch hassigns
    · intro p hop
      exact nomatch hop
    · intro schedule hop
      exact nomatch hop
    · intro _
      exact h
    · intro hop
      exact nomatch hop

theorem inStep_autoResume {now : String} :
    InStep cfg clientId d ⟨⟨.autoResume clientId, now⟩, io⟩ ↔
      ∀ r p, d.server.row clientId = some r → r.interruptedFromPlaylistId = .value p →
        d.server.clientStore.allows (.value p) = true → d.skips cfg p = false := by
  constructor
  · intro h
    exact h.autoResume rfl
  · intro h
    constructor
    · intro playlist p hassigns
      exact nomatch hassigns
    · intro p hop
      exact nomatch hop
    · intro schedule hop
      exact nomatch hop
    · intro hop
      exact nomatch hop
    · intro _
      exact h

theorem inStep_schedule {schedule : Server.Schedule} {now : String}
    (mode : schedule.interruptMode = .interrupt) (mem : clientId ∈ d.server.targets schedule) :
    InStep cfg clientId d ⟨⟨.dispatchSchedule schedule, now⟩, io⟩ ↔
      (d.server.clientStore.allows (.value schedule.playlistId) = true →
        if d.skips cfg schedule.playlistId = true then
          d.server.assignedTo clientId ≠ none → d.server.HasSaved clientId
        else ¬ d.server.HasSaved clientId ∧ d.server.assignedTo clientId = none) := by
  constructor
  · intro h
    exact h.schedule schedule rfl mode mem
  · intro h
    constructor
    · intro playlist p hassigns
      exact absurd mode (Option.ite_none_right_eq_some.mp hassigns).1.1
    · intro p hop
      exact nomatch hop
    · intro schedule' hop _ _
      obtain rfl : schedule = schedule' := by injection hop
      exact h
    · intro hop
      exact nomatch hop
    · intro hop
      exact nomatch hop

theorem agrees_step_assigning (ready : Ready clientId d) (start : Agrees clientId d)
    (mem : clientId ∈ d.server.addressees e.call.op) (assigning : e.call.op.Assigning)
    (h : Server.AssignmentState.step cfg d.server e.call = some t) :
    Agrees clientId ⟨t, hear e.io d.player (sent clientId d.server t), false⟩ ↔
      InStep cfg clientId d e := by
  obtain ⟨playlist, hassigns⟩ := Server.AssignmentState.assigns_of_mem mem assigning
  have hassigned := Server.AssignmentState.turn_of_assigns ready.stored ready.connected
    ready.distinct hassigns h
  rw [agrees_assigned start hassigned, inStep_iff_of_assigning assigning hassigns]

theorem agrees_step_schedule {schedule : Server.Schedule} {now : String}
    (ready : Ready clientId d) (start : Agrees clientId d)
    (mode : schedule.interruptMode = .interrupt) (mem : clientId ∈ d.server.targets schedule)
    (h : d.server.dispatchSchedule cfg schedule now = some t) :
    Agrees clientId ⟨t, hear io d.player (sent clientId d.server t), false⟩ ↔
      InStep cfg clientId d ⟨⟨.dispatchSchedule schedule, now⟩, io⟩ := by
  rw [inStep_schedule mode mem]
  cases hknown : d.server.clientStore.allows (.value schedule.playlistId) with
  | false =>
    -- the interrupt of every target throws
    have hsame : Server.AssignmentState.SameFor clientId d.server t :=
      Server.AssignmentState.sameFor_dispatchInterrupt mode (.inl hknown) h
    exact iff_of_true (agrees_quiet start hsame.row hsame.outbox)
      fun hallows => absurd hallows Bool.false_ne_true
  | true =>
    cases hfound : d.server.row clientId with
    | none =>
      have hsame := Server.AssignmentState.sameFor_dispatchInterrupt mode (.inr hfound) h
      have hassigned : d.server.assignedTo clientId = none := by
        rw [Server.AssignmentState.assignedTo, hfound, Option.bind_none]
      have hsaved : ¬ d.server.HasSaved clientId := by
        rintro ⟨r, hr, -⟩
        exact Option.some_ne_none r (hr.symm.trans hfound)
      refine iff_of_true (agrees_quiet start hsame.row hsame.outbox) fun _ => ?_
      split
      · exact fun hne => absurd hassigned hne
      · exact ⟨hsaved, hassigned⟩
    | some old =>
      obtain ⟨new, hturn, hsaved⟩ := Server.AssignmentState.dispatchInterrupt_turn
        ready.connected ready.distinct mode mem hknown hfound h
      rw [agrees_schedule ready start hknown hturn hsaved]
      exact ⟨fun hinStep _ => hinStep, fun hinStep => hinStep rfl⟩

theorem agrees_step_autoResume {now : String} (ready : Ready clientId d)
    (start : Agrees clientId d) (h : d.server.autoResume cfg clientId now = some t) :
    Agrees clientId ⟨t, hear io d.player (sent clientId d.server t),
        ((d.server.deleteTimer clientId).resume clientId now).isSome⟩ ↔
      InStep cfg clientId d ⟨⟨.autoResume clientId, now⟩, io⟩ := by
  rw [inStep_autoResume]
  rcases Server.AssignmentState.autoResume_turn ready.stored ready.connected ready.typed h
    with ⟨hthrows, hrow, houtbox⟩ | ⟨old, new, p, hsome, hturn, hknown, hfrom, hassigned, hnull⟩
  · rw [hthrows, Option.isSome_none]
    refine iff_of_true (agrees_quiet start hrow houtbox) fun r p hr hp hallows => ?_
    -- a row with a playlist to resume, and the playlist there, do not make it throw
    obtain ⟨new, u, hresume⟩ := @Server.AssignmentState.resume_isSome
      (d.server.deleteTimer clientId) clientId p r now hr hp hallows
    exact nomatch hthrows.symm.trans hresume
  · rw [agrees_autoResume start hknown hturn hfrom hassigned hnull]
    constructor
    · intro hskips r q hr hq _
      obtain rfl := Option.some.inj (hturn.before.symm.trans hr)
      rw [hfrom] at hq
      obtain rfl : p = q := by injection hq
      exact hskips
    · intro hall
      exact hall old p hturn.before hfrom hknown

/-- **Step lemma.**  An operation keeps the agreement exactly when it is in step. -/
theorem agrees_step (ready : Ready clientId d) (start : Agrees clientId d)
    (h : step cfg clientId d e = some d') : Agrees clientId d' ↔ InStep cfg clientId d e := by
  obtain ⟨t, hstep, rfl⟩ := step_eq h
  -- an operation that does not address the client leaves both alone
  by_cases hmem : clientId ∈ d.server.addressees e.call.op
  · by_cases hassigning : e.call.op.Assigning
    · rw [resumes_of_assigning hassigning]
      exact agrees_step_assigning ready start hmem hassigning hstep
    · obtain ⟨⟨op, now⟩, io⟩ := e
      cases op with
      | interrupt id p =>
        obtain rfl := List.mem_singleton.mp hmem
        obtain ⟨old, new, name, items, previous, hturn, hsaved⟩ :=
          Server.AssignmentState.interruptRoute_turn ready.connected hstep
        rw [inStep_interrupt, ← agrees_interrupt ready start hturn hsaved]
        exact Iff.rfl
      | resume id =>
        obtain rfl := List.mem_singleton.mp hmem
        obtain ⟨old, new, p, name, items, hturn, -, hassigned, hnull⟩ :=
          Server.AssignmentState.resumeRoute_turn ready.stored ready.connected ready.typed hstep
        rw [inStep_resume]
        exact agrees_resume hturn hassigned hnull
      | autoResume id =>
        obtain rfl := List.mem_singleton.mp hmem
        have hresumes : resumes clientId d.server ⟨.autoResume clientId, now⟩ =
            ((d.server.deleteTimer clientId).resume clientId now).isSome := by
          simp [resumes]
        rw [hresumes]
        exact agrees_step_autoResume ready start hstep
      | dispatchSchedule schedule =>
        exact agrees_step_schedule ready start (not_not.mp hassigning) hmem hstep
      | _ => exact absurd trivial hassigning
  · have hsame := Server.AssignmentState.sameFor_step hmem hstep
    rw [resumes_of_not_mem hmem]
    exact iff_of_true (agrees_quiet start hsame.row hsame.outbox) (inStep_of_not_mem hmem)

theorem ready_step (ready : Ready clientId d) (h : step cfg clientId d e = some d') :
    Ready clientId d' := by
  obtain ⟨t, hstep, rfl⟩ := step_eq h
  obtain ⟨hstored, hconnected⟩ := Server.AssignmentState.keeps_step ready.stored hstep
  obtain ⟨lists, hframe, -⟩ := Server.AssignmentState.step_frame hstep
  refine ⟨hstored, (hconnected clientId).trans ready.connected, ?_, ?_⟩
  · show (t.server.db.clients.map (·.id)).Nodup
    rw [hframe.ids]
    exact ready.distinct
  · exact Server.AssignmentState.typed_step ready.stored ready.connected ready.distinct
      ready.typed hstep

end

/-- **Exactly when they agree.**  For every store, every connected client that agrees with the
    server and every sequence of completed operations, whatever the player meets when it handles a
    message: they agree after each of them exactly when each finds them in step. -/
theorem agrees_iff (cfg : Server.ServerConfig) {clientId : String} {d : Deployment}
    {exchanges : List Exchange} (ready : Ready clientId d) (start : Agrees clientId d)
    (completed : (exec (step cfg clientId) d exchanges).isSome = true) :
    Throughout (step cfg clientId) (Agrees clientId) d exchanges ↔
      Each (step cfg clientId) (InStep cfg clientId) d exchanges := by
  obtain ⟨d', run⟩ := Option.isSome_iff_exists.mp completed
  exact throughout_iff_each (fun _ _ _ inv h => ready_step inv h)
    (fun _ _ _ inv hstart h => agrees_step inv hstart h) ready start run

/-! ### One interrupt, and others -/

open Server.AssignmentState (lobbyAssignment alarm)

/-- The store of the lobby with a second playlist, and the player with the first one. -/
def lobby : Deployment where
  server :=
    { lobbyAssignment with
      server :=
        { lobbyAssignment.server with
          db := { lobbyAssignment.server.db with playlists := [⟨1, "day"⟩, ⟨8, "alarm"⟩] } } }
  player :=
    { state := ({} : AppState).updatePlaylist 1
        ((Server.listing Server.ServerState.lobbyConfig Server.ServerState.lobbyDb 1).map
          PlaylistItem.received) true }
  resumed := false

theorem ready_lobby : Ready "lobby" lobby where
  stored := by
    constructor
    · decide
    · decide
  connected := rfl
  distinct := by decide
  typed := by
    intro r hr
    obtain rfl := Option.some.inj hr
    decide

theorem agrees_lobby : Agrees "lobby" lobby where
  stack := by
    refine iff_of_false (not_not.mpr rfl) ?_
    rintro ⟨r, hr, hsaved⟩
    obtain rfl := Option.some.inj hr
    exact hsaved rfl
  resumed := nofun

/-- An operation, handled without anything on disk. -/
def exchange (op : Server.AssignmentState.Operation) : Exchange := ⟨⟨op, "t1"⟩, {}⟩

/-- An interrupt of the API and a resume are in step. -/
theorem agrees_iff_lobby :
    Throughout (step Server.ServerState.lobbyConfig "lobby") (Agrees "lobby") lobby
        [exchange (.interrupt "lobby" 8), exchange (.resume "lobby")] ↔
      Each (step Server.ServerState.lobbyConfig "lobby")
        (InStep Server.ServerState.lobbyConfig "lobby") lobby
        [exchange (.interrupt "lobby" 8), exchange (.resume "lobby")] :=
  agrees_iff Server.ServerState.lobbyConfig ready_lobby agrees_lobby rfl

/-- **Counterexample.**  A schedule that interrupts leaves the row interrupted and the stack empty;
    after two interrupts and one resume it is the other way round; an assignment during an
    interrupt clears the stack only. -/
theorem not_agrees_lobby :
    ¬ Throughout (step Server.ServerState.lobbyConfig "lobby") (Agrees "lobby") lobby
        [exchange (.dispatchSchedule alarm)] ∧
      ¬ Throughout (step Server.ServerState.lobbyConfig "lobby") (Agrees "lobby") lobby
        [exchange (.interrupt "lobby" 8), exchange (.interrupt "lobby" 8),
          exchange (.resume "lobby")] ∧
      ¬ Throughout (step Server.ServerState.lobbyConfig "lobby") (Agrees "lobby") lobby
        [exchange (.interrupt "lobby" 8), exchange (.putClient "lobby" none (.value 1))] := by
  refine ⟨fun h => ?_, fun h => ?_, fun h => ?_⟩
  · have hafter := h _ (List.prefix_refl _) _ rfl
    exact hafter.stack.mpr ⟨_, rfl, nofun⟩ rfl
  · have hafter := h _ (List.prefix_refl _) _ rfl
    obtain ⟨r, hr, hsaved⟩ := hafter.stack.mp (by decide)
    obtain rfl := Option.some.inj hr
    exact hsaved rfl
  · have hafter := h _ (List.prefix_refl _) _ rfl
    exact hafter.stack.mpr ⟨_, rfl, nofun⟩ rfl

end Deployment

end Montr.Client
