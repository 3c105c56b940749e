import Montr.Lib.Transition
import Montr.Server.ClientManager
import Montr.Server.PlaylistService

namespace Montr.Server

open Transition

/-!
# What players are told about their playlist

The playlist messages of `websocket/handlers.ts` and the item routes of
`playlist.routes.ts`, over the playlist service and the connection manager.

* `listing` — a playlist's items as a message lists them;
* `Synced` — every connected player's last playlist message lists the items now stored;
* `broadcastPlaylistUpdate_listing` — a broadcast brings the players of a playlist up to date;
* `synced_of_quiet` — the item routes answer without a broadcast, so players stay in sync only
  in runs whose operations change no playlist a connected player has.
-/

/-- The settings the handlers read. -/
structure ServerConfig where
  requireMediaApproval : Bool
  /-- `config.server.publicUrl`; empty when not configured -/
  publicUrl : String
  port : Nat
  /-- `storageService.getDownloadUrl`, with the `spaces` backend -/
  spacesUrl : Option (String → String)

/-- Subtitle metadata in a playlist message. -/
structure SubtitleTrackPayload where
  id : Nat
  kind : SubtitleKind
  language : Option String
  label : Option String
  isDefault : Bool
  isForced : Bool
  downloadUrl : Option String := none
  filename : Option String := none
  format : Option String := none
  checksum : Option String := none
  streamIndex : Option Nat := none
  codec : Option String := none
  deriving DecidableEq, Repr

/-- An item in a playlist message. -/
structure PlaylistMediaItem where
  id : Nat
  mediaId : Nat
  filename : String
  downloadUrl : String
  type : MediaType
  duration : Rat
  checksum : Option String
  orderIndex : Int
  imageDuration : Nat
  subtitles : List SubtitleTrackPayload
  fileSize : Option Nat
  deriving DecidableEq, Repr

/-- The messages the playlist handlers send. -/
inductive ServerMessage
  | playlistAssigned (playlistId : Nat) (playlistName : String) (loopPlaylist : Bool)
      (items : List PlaylistMediaItem)
  | playlistUpdated (playlistId : Nat) (loopPlaylist : Bool) (items : List PlaylistMediaItem)
  | playlistInterrupt (playlistId : Nat) (playlistName : String) (loopPlaylist : Bool)
      (items : List PlaylistMediaItem) (previousPlaylistId : Field Nat)
  | playlistResume (playlistId : Field Nat) (playlistName : Option String) (loopPlaylist : Bool)
      (items : List PlaylistMediaItem)
  | errorResponse (error : String)
  deriving DecidableEq, Repr

/-- The items a playlist message lists. -/
def ServerMessage.items? : ServerMessage → Option (List PlaylistMediaItem)
  | .playlistAssigned _ _ _ items => some items
  | .playlistUpdated _ _ items => some items
  | .playlistInterrupt _ _ _ items _ => some items
  | .playlistResume _ _ _ items => some items
  | .errorResponse _ => none

/-! ### Building a message -/

namespace ServerConfig

def baseUrl (cfg : ServerConfig) : String :=
  if cfg.publicUrl = "" then s!"http://localhost:{cfg.port}" else cfg.publicUrl

/-- `getMediaDownloadUrl`. -/
def getMediaDownloadUrl (cfg : ServerConfig) (mediaId : Nat) (filepath : String) : String :=
  match cfg.spacesUrl with
  | some getDownloadUrl => getDownloadUrl filepath
  | none => s!"{cfg.baseUrl}/api/media/{mediaId}/download"

/-- `getSubtitleDownloadUrl`. -/
def getSubtitleDownloadUrl (cfg : ServerConfig) (subtitleId : Nat) : String :=
  s!"{cfg.baseUrl}/api/subtitles/{subtitleId}/download"

/-- `toSubtitlePayload`. -/
def toSubtitlePayload (cfg : ServerConfig) (row : SubtitleTrack) : SubtitleTrackPayload :=
  match row.kind with
  | .external =>
    let format := row.format.getD "srt"
    { id := row.id, kind := .external, language := row.language, label := row.label
      isDefault := row.isDefault, isForced := row.isForced
      downloadUrl := some (cfg.getSubtitleDownloadUrl row.id)
      filename := match row.storageFilename with
        | none => none
        | some name => if name = "" then none else some s!"{row.id}.{format}"
      format := row.format, checksum := row.checksum }
  | .embedded =>
    { id := row.id, kind := .embedded, language := row.language, label := row.label
      isDefault := row.isDefault, isForced := row.isForced
      streamIndex := row.streamIndex, codec := row.codec }

end ServerConfig

/-- `ORDER BY is_default DESC, kind ASC, id ASC`. -/
def SubtitleTrack.before (a b : SubtitleTrack) : Bool :=
  if a.isDefault ≠ b.isDefault then a.isDefault
  else if a.kind ≠ b.kind then a.kind = .embedded
  else a.id ≤ b.id

namespace PlaylistStore

/-- `getSubtitlesForMedia`. -/
def getSubtitlesForMedia (db : PlaylistStore) (mediaId : Nat) : List SubtitleTrack :=
  (db.subtitles.filter (·.mediaFileId == mediaId)).insertionSort fun a b => a.before b = true

/-- The items of `getPlaylistWithItems`: each with its media row (an inner join). -/
def itemsWithMedia (db : PlaylistStore) (playlistId : Nat) : List (PlaylistItem × MediaFile) :=
  (db.items.items playlistId).filterMap fun item =>
    (db.media.find? (·.id == item.mediaId)).map fun media => (item, media)

end PlaylistStore

/-- `buildPlaylistItem`; `fetchSubtitlesByMedia` looks up videos only. -/
def buildPlaylistItem (cfg : ServerConfig) (db : PlaylistStore) :
    PlaylistItem × MediaFile → PlaylistMediaItem
  | (item, media) =>
    { id := item.id
      mediaId := item.mediaId
      filename := media.filename
      downloadUrl := cfg.getMediaDownloadUrl item.mediaId media.filepath
      type := media.type
      duration := if media.type = .image then item.imageDuration else media.duration.getD 0
      checksum := media.checksum
      orderIndex := item.orderIndex
      imageDuration := item.imageDuration
      subtitles := if media.type = .video then
          (db.getSubtitlesForMedia item.mediaId).map cfg.toSubtitlePayload else []
      fileSize := media.fileSize }

/-- The items of a playlist as a message lists them. -/
def listing (cfg : ServerConfig) (db : PlaylistStore) (playlistId : Nat) :
    List PlaylistMediaItem :=
  (db.itemsWithMedia playlistId).map (buildPlaylistItem cfg db)

/-! ### The server -/

/-- The tables and the connections. -/
structure ServerState where
  db : PlaylistStore
  manager : ClientConnectionManager ServerMessage

namespace ServerState

/-- `getPlaylistWithItems` failing. -/
def notFoundMessage (playlistId : Nat) : String := s!"Playlist with ID {playlistId} not found"

/-- `sendPlaylistToClient`. -/
def sendPlaylistToClient (cfg : ServerConfig) (s : ServerState) (clientId : String)
    (playlistId : Nat) : ServerState :=
  match s.db.playlists.find? (·.id == playlistId) with
  | some playlist =>
    { s with manager := (s.manager.sendToClient clientId (.playlistAssigned playlist.id
        playlist.name true (listing cfg s.db playlistId))).1 }
  | none =>
    { s with manager := (s.manager.sendToClient clientId
        (.errorResponse (notFoundMessage playlistId))).1 }

/-- `broadcastToPlaylist`: to every client that has the playlist assigned. -/
def broadcastToPlaylist (s : ServerState) (playlistId : Nat) (message : ServerMessage) :
    ServerState :=
  let clients := s.db.clients.filter (·.assignedPlaylistId == .value playlistId)
  { s with manager := clients.foldl (fun m c => (m.sendToClient c.id message).1) s.manager }

/-- `broadcastPlaylistUpdate`. -/
def broadcastPlaylistUpdate (cfg : ServerConfig) (s : ServerState) (playlistId : Nat) :
    ServerState :=
  match s.db.playlists.find? (·.id == playlistId) with
  | some playlist =>
    s.broadcastToPlaylist playlistId
      (.playlistUpdated playlist.id true (listing cfg s.db playlistId))
  | none => s

/-- The operations on a playlist's items. -/
inductive ItemOperation
  | addItem (playlistId mediaId : Nat) (orderIndex : Option Int) (imageDuration : Nat)
  | addItems (playlistId : Nat) (mediaIds : List Nat)
  | updateItem (itemId : Nat) (orderIndex : Option Int) (imageDuration : Option Nat)
  | deleteItem (itemId : Nat)
  | reorderItems (playlistId : Nat) (itemIds : List Nat)
  deriving DecidableEq, Repr

/-- The store after a successful call. -/
def succeeded {α : Type} (r : Except ServiceError α × PlaylistStore) : Option PlaylistStore :=
  match r with
  | (.ok _, db) => some db
  | (.error _, _) => none

/-- The handler of an item route, when it succeeds: the service call, and the response. -/
def step (cfg : ServerConfig) (s : ServerState) (op : ItemOperation) : Option ServerState :=
  let db := match op with
    | .addItem playlistId mediaId orderIndex imageDuration =>
      succeeded (PlaylistService.addPlaylistItem cfg.requireMediaApproval playlistId mediaId
        orderIndex imageDuration s.db)
    | .addItems playlistId mediaIds =>
      succeeded (PlaylistService.addPlaylistItems cfg.requireMediaApproval playlistId mediaIds s.db)
    | .updateItem itemId orderIndex imageDuration =>
      succeeded (PlaylistService.updatePlaylistItem itemId orderIndex imageDuration s.db)
    | .deleteItem itemId => succeeded (PlaylistService.deletePlaylistItem itemId s.db)
    | .reorderItems playlistId itemIds =>
      succeeded (PlaylistService.reorderPlaylistItems playlistId itemIds s.db)
  db.map fun db => { s with db := db }

/-- The items of the last playlist message on a socket. -/
def listingOn (m : ClientConnectionManager ServerMessage) (ws : SocketId) :
    Option (List PlaylistMediaItem) :=
  ((m.sockets ws).sent.filterMap ServerMessage.items?).getLast?

/-- The items of the last playlist message sent to a client on its current socket. -/
def lastListing (s : ServerState) (clientId : String) : Option (List PlaylistMediaItem) :=
  (s.manager.connections clientId).bind (listingOn s.manager)

/-- **Playlist content is propagated**: the last playlist message of every connected client
    lists the items now stored for its playlist, in their stored order. -/
def Synced (cfg : ServerConfig) (s : ServerState) : Prop :=
  ∀ c ∈ s.db.clients, ∀ p, c.assignedPlaylistId = .value p → s.manager.isConnected c.id = true →
    s.lastListing c.id = some (listing cfg s.db p)

/-- A connected client has the playlist. -/
def Watched (s : ServerState) (playlistId : Nat) : Prop :=
  ∃ c ∈ s.db.clients, c.assignedPlaylistId = .value playlistId ∧
    s.manager.isConnected c.id = true

/-- The operation leaves the playlists of connected clients as they are: it adds to or deletes
    from another playlist, sets what an item holds already, or lists items at the positions
    they have. -/
def Quiet (s : ServerState) : ItemOperation → Prop
  | .addItem playlistId _ _ _ => ¬ s.Watched playlistId
  | .addItems playlistId _ => ¬ s.Watched playlistId
  | .updateItem itemId orderIndex imageDuration =>
    ∀ item, s.db.items.find itemId = some item → s.Watched item.playlistId →
      (∀ k, orderIndex = some k → item.orderIndex = k) ∧
      (∀ d, imageDuration = some d → item.imageDuration = d)
  | .deleteItem itemId =>
    ∀ item, s.db.items.find itemId = some item → ¬ s.Watched item.playlistId
  | .reorderItems playlistId itemIds =>
    s.Watched playlistId →
      ∀ r ∈ s.db.items.rows, ∀ i : Nat, itemIds[i]? = some r.id → r.orderIndex = i

/-! ### A broadcast reaches every player of the playlist -/

section

variable {m : ClientConnectionManager ServerMessage} {message : ServerMessage}
  {items : List PlaylistMediaItem}

/-- A send changes what was sent on the socket of its client, and nothing else. -/
theorem sendToClient_frame (m : ClientConnectionManager ServerMessage) (clientId : String)
    (message : ServerMessage) :
    (m.sendToClient clientId message).1.connections = m.connections ∧
      ∀ ws, (m.sendToClient clientId message).1.isOpen ws = m.isOpen ws := by
  unfold ClientConnectionManager.sendToClient
  split
  · rename_i socket _
    split
    · refine ⟨rfl, fun ws => ?_⟩
      by_cases hws : ws = socket <;> simp [ClientConnectionManager.isOpen, hws]
    · exact ⟨rfl, fun _ => rfl⟩
  · exact ⟨rfl, fun _ => rfl⟩

theorem connections_foldl (m : ClientConnectionManager ServerMessage) (clients : List Client)
    (message : ServerMessage) :
    (clients.foldl (fun m c => (m.sendToClient c.id message).1) m).connections =
      m.connections := by
  induction clients generalizing m with
  | nil => rfl
  | cons c rest ih => exact (ih _).trans (sendToClient_frame m c.id message).1

/-- A socket on which the items were listed last, or to which they are sent, has them last. -/
theorem listingOn_sendToClient (hitems : message.items? = some items) {clientId : String}
    {ws : SocketId}
    (h : listingOn m ws = some items ∨
      m.connections clientId = some ws ∧ m.isOpen ws = true) :
    listingOn (m.sendToClient clientId message).1 ws = some items := by
  unfold ClientConnectionManager.sendToClient
  cases hc : m.connections clientId with
  | none => simpa [hc] using h
  | some socket =>
    by_cases hopen : m.isOpen socket = true
    · by_cases hws : ws = socket
      · simp [hopen, listingOn, hws, hitems]
      · -- the send is on another socket
        have hold : listingOn m ws = some items := by
          rcases h with h | ⟨h, -⟩
          · exact h
          · exact absurd (Option.some.inj (h.symm.trans hc)) hws
        simpa [hopen, listingOn, hws] using hold
    · -- a socket that is not open is sent nothing
      have hold : listingOn m ws = some items := by
        rcases h with h | ⟨h, ho⟩
        · exact h
        · obtain rfl := Option.some.inj (h.symm.trans hc)
          exact absurd ho hopen
      simpa [hopen] using hold

/-- Induction over the clients of a broadcast: a socket named by one of them is reached, and
    one that has the items last keeps them last. -/
theorem listingOn_foldl (hitems : message.items? = some items) {clients : List Client}
    {ws : SocketId}
    (h : listingOn m ws = some items ∨
      ∃ c ∈ clients, m.connections c.id = some ws ∧ m.isOpen ws = true) :
    listingOn (clients.foldl (fun m c => (m.sendToClient c.id message).1) m) ws = some items := by
  induction clients generalizing m with
  | nil => simpa using h
  | cons c rest ih =>
    refine ih ?_
    obtain ⟨hconn, hopen⟩ := sendToClient_frame m c.id message
    rcases h with h | ⟨x, hx, hxc, hxo⟩
    · exact .inl (listingOn_sendToClient hitems (.inl h))
    · rcases List.mem_cons.mp hx with rfl | hx
      · exact .inl (listingOn_sendToClient hitems (.inr ⟨hxc, hxo⟩))
      · exact .inr ⟨x, hx, by rw [hconn, hxc], by rw [hopen, hxo]⟩

end

/-- **A broadcast restores the listing.** After `broadcastPlaylistUpdate` the last playlist
    message of every connected client of the playlist lists the stored items. -/
theorem broadcastPlaylistUpdate_listing (cfg : ServerConfig) (s : ServerState) (p : Nat)
    (hp : (s.db.playlists.find? (·.id == p)).isSome = true) (c : Client) (hc : c ∈ s.db.clients)
    (assigned : c.assignedPlaylistId = .value p) (connected : s.manager.isConnected c.id = true) :
    (s.broadcastPlaylistUpdate cfg p).lastListing c.id = some (listing cfg s.db p) := by
  obtain ⟨playlist, hplaylist⟩ := Option.isSome_iff_exists.mp hp
  obtain ⟨ws, hws, hopen⟩ : ∃ ws, s.manager.connections c.id = some ws ∧
      s.manager.isOpen ws = true := by
    unfold ClientConnectionManager.isConnected at connected
    split at connected
    · rename_i ws hws
      exact ⟨ws, hws, connected⟩
    · simp at connected
  unfold broadcastPlaylistUpdate broadcastToPlaylist lastListing
  simp only [hplaylist]
  rw [connections_foldl, hws, Option.bind_some]
  refine listingOn_foldl rfl (.inr ⟨c, ?_, hws, hopen⟩)
  simp [List.mem_filter, hc, assigned]

/-! ### Which runs keep players in sync -/

section

variable {cfg : ServerConfig} {s t : ServerState}

theorem succeeded_eq_some {α : Type} {r : Except ServiceError α × PlaylistStore}
    {db : PlaylistStore} (h : succeeded r = some db) : ∃ a, r = (.ok a, db) := by
  obtain ⟨r, db₁⟩ := r
  cases r with
  | error e => exact absurd h (by simp [succeeded])
  | ok a => exact ⟨a, by rw [Option.some.inj h]⟩

/-- Every route answers without sending anything. -/
theorem step_manager {op : ItemOperation} (h : s.step cfg op = some t) :
    t.manager = s.manager := by
  obtain ⟨db, -, rfl⟩ := Option.map_eq_some_iff.mp h
  rfl

/-- What a listing depends on. -/
theorem listing_congr {db db' : PlaylistStore} {p : Nat} (media : db'.media = db.media)
    (subtitles : db'.subtitles = db.subtitles) (rowsOf : db'.items.rowsOf p = db.items.rowsOf p) :
    listing cfg db' p = listing cfg db p := by
  have hitems := ItemTable.items_eq_of_rowsOf rowsOf
  have hbuild : buildPlaylistItem cfg db' = buildPlaylistItem cfg db := by
    funext x
    simp [buildPlaylistItem, PlaylistStore.getSubtitlesForMedia, subtitles]
  simp [listing, PlaylistStore.itemsWithMedia, hitems, media, hbuild]

/-- No connected client can tell the two stores apart. -/
structure SameForWatchers (s : ServerState) (db : PlaylistStore) : Prop where
  clients : db.clients = s.db.clients
  media : db.media = s.db.media
  subtitles : db.subtitles = s.db.subtitles
  rowsOf : ∀ p, s.Watched p → db.items.rowsOf p = s.db.items.rowsOf p

theorem SameForWatchers.of_unwatched {db : PlaylistStore} {p : Nat}
    (only : OnlyItemsOf p s.db db) (unwatched : ¬ s.Watched p) : SameForWatchers s db :=
  ⟨only.clients, only.media, only.subtitles, fun q hq =>
    only.rowsOf q fun heq => unwatched (heq ▸ hq)⟩

/-- Setting columns to the values they hold. -/
theorem rows_update_of_same {itemId : Nat} {orderIndex : Option Int} {imageDuration : Option Nat}
    {items items' : ItemTable} {item : PlaylistItem} (found : items.find itemId = some item)
    (sameIndex : ∀ k, orderIndex = some k → item.orderIndex = k)
    (sameDuration : ∀ d, imageDuration = some d → item.imageDuration = d)
    (h : items.update itemId orderIndex imageDuration = some items') :
    items'.rows = items.rows := by
  rw [ItemTable.update_rows h]
  conv_rhs => rw [← List.map_id items.rows]
  refine List.map_congr_left fun r hr => ?_
  by_cases hid : r.id = itemId
  · obtain rfl := ItemTable.eq_of_find found hr hid
    rw [if_pos hid, PlaylistItem.set_of_same sameIndex sameDuration]
    rfl
  · simp [hid]

/-- **Step lemma.** A quiet operation is invisible to connected clients: one case per
    operation. -/
theorem sameForWatchers_of_quiet {op : ItemOperation} (quiet : s.Quiet op)
    (h : s.step cfg op = some t) : SameForWatchers s t.db := by
  obtain ⟨db, hdb, rfl⟩ := Option.map_eq_some_iff.mp h
  cases op with
  | addItem p mediaId orderIndex imageDuration =>
    obtain ⟨item, hok⟩ := succeeded_eq_some hdb
    exact .of_unwatched (PlaylistService.addPlaylistItem_ok hok) quiet
  | addItems p mediaIds =>
    obtain ⟨items, hok⟩ := succeeded_eq_some hdb
    exact .of_unwatched (PlaylistService.addPlaylistItems_ok hok) quiet
  | updateItem itemId orderIndex imageDuration =>
    obtain ⟨updated, hok⟩ := succeeded_eq_some hdb
    obtain ⟨item, hfound, rfl | ⟨items, hupdate, rfl⟩⟩ := PlaylistService.updatePlaylistItem_ok hok
    · exact ⟨rfl, rfl, rfl, fun _ _ => rfl⟩
    · refine ⟨rfl, rfl, rfl, fun p hp => ?_⟩
      by_cases hitem : p = item.playlistId
      · obtain ⟨sameIndex, sameDuration⟩ := quiet item hfound (hitem ▸ hp)
        have hrows := rows_update_of_same hfound sameIndex sameDuration hupdate
        simp only [ItemTable.rowsOf, hrows]
      · exact ItemTable.update_rowsOf hfound hitem hupdate
  | deleteItem itemId =>
    obtain ⟨_, hok⟩ := succeeded_eq_some hdb
    obtain ⟨item, hfound, honly⟩ := PlaylistService.deletePlaylistItem_ok hok
    exact .of_unwatched honly (quiet item hfound)
  | reorderItems p itemIds =>
    obtain ⟨_, hok⟩ := succeeded_eq_some hdb
    obtain ⟨honly, items, hreorder, rfl⟩ := PlaylistService.reorderPlaylistItems_ok hok
    by_cases hp : s.Watched p
    · have hrows := ItemTable.reorder_rows_of_inPlace (quiet hp) hreorder
      exact ⟨rfl, rfl, rfl, fun q _ => by simp only [ItemTable.rowsOf, hrows]⟩
    · exact .of_unwatched honly hp

theorem Synced.step {op : ItemOperation} (synced : Synced cfg s) (quiet : s.Quiet op)
    (h : s.step cfg op = some t) : Synced cfg t := by
  have hmanager := step_manager h
  have hsame := sameForWatchers_of_quiet quiet h
  -- the same clients are connected, and the playlist of each is as it was
  intro c hc p assigned connected
  rw [hsame.clients] at hc
  rw [hmanager] at connected
  rw [listing_congr hsame.media hsame.subtitles (hsame.rowsOf p ⟨c, hc, assigned, connected⟩)]
  unfold lastListing
  rw [hmanager]
  exact synced c hc p assigned connected

end

/-- **Players stay in sync in runs of quiet operations.**  For every server and every sequence of
    successful item operations, each of which leaves the playlists of connected clients as they
    are. -/
theorem synced_of_quiet (cfg : ServerConfig) {s t : ServerState} {ops : List ItemOperation}
    (start : Synced cfg s) (run : Guarded (step cfg) Quiet s ops t) : Synced cfg t :=
  run.invariant start fun _ _ _ synced quiet h => synced.step quiet h

/-! ### A delete under a connected player -/

/-- A video. -/
def trailer : MediaFile where
  id := 3
  filename := "trailer.mp4"
  originalFilename := "trailer.mp4"
  filepath := "/media/trailer.mp4"
  type := .video
  fileSize := none
  duration := some 30
  checksum := none
  approvalStatus := .approved

/-- The player of playlist 1, which holds the video at position 0. -/
def lobbyDb : PlaylistStore where
  playlists := [⟨1, "day"⟩]
  media := [trailer]
  subtitles := []
  clients := [⟨"lobby", "Lobby", .value 1, .null, .online, none, none, none, "t0"⟩]
  items := ⟨[⟨1, 1, 3, 0, 5⟩], 2, by decide, by decide, by decide⟩

def lobbyConfig : ServerConfig where
  requireMediaApproval := false
  publicUrl := ""
  port := 3000
  spacesUrl := none

/-- The player is connected and has been sent its playlist. -/
def lobbyServer : ServerState where
  db := lobbyDb
  manager :=
    { connections := fun id => if id = "lobby" then some 0 else none
      metadata := fun _ => none
      sockets := fun _ =>
        { readyState := .open
          sent := [.playlistAssigned 1 "day" true (listing lobbyConfig lobbyDb 1)] } }

theorem synced_lobbyServer : Synced lobbyConfig lobbyServer := by
  intro c hc p assigned _
  obtain rfl := List.mem_singleton.mp hc
  obtain rfl : 1 = p := by simpa using assigned
  rfl

/-- Setting the item's duration to what it is keeps the player in sync. -/
theorem synced_of_quiet_lobby :
    ∃ t, Guarded (step lobbyConfig) Quiet lobbyServer [.updateItem 1 none (some 5)] t ∧
      Synced lobbyConfig t := by
  have hquiet : lobbyServer.Quiet (.updateItem 1 none (some 5)) := by
    intro item found _
    obtain rfl : (⟨1, 1, 3, 0, 5⟩ : PlaylistItem) = item := Option.some.inj found
    exact ⟨by simp, fun d hd => Option.some.inj hd⟩
  have hrun : Guarded (step lobbyConfig) Quiet lobbyServer [.updateItem 1 none (some 5)]
      lobbyServer := .cons hquiet rfl .nil
  exact ⟨lobbyServer, hrun, synced_of_quiet lobbyConfig synced_lobbyServer hrun⟩

/-- **Counterexample.** The only item of the player's playlist is deleted; the last playlist
    message still lists it. -/
theorem not_synced_deleteItem :
    Synced lobbyConfig lobbyServer ∧
      ∃ t, exec (step lobbyConfig) lobbyServer [.deleteItem 1] = some t ∧
        listing lobbyConfig t.db 1 = [] ∧ (t.lastListing "lobby").map List.length = some 1 ∧
        ¬ Synced lobbyConfig t := by
  refine ⟨synced_lobbyServer, _, rfl, rfl, rfl, ?_⟩
  intro h
  have hlast := congrArg (Option.map List.length) (h _ (List.mem_singleton.mpr rfl) 1 rfl rfl)
  exact absurd hlast (by decide)

end ServerState

end Montr.Server
