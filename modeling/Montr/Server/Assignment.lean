import Montr.Server.ClientService
import Montr.Server.PlaylistSync
import Montr.Server.ScheduleActivation

namespace Montr.Server

open Function

/-!
# Operations that set a client's playlist

The routes of `client.routes.ts` and `group.routes.ts`, the dispatch of a schedule and the
auto-resume timers of `schedule.service.ts`, over one state: the tables, the connections and the
pending timers.  The store is one whose `updateClient` writes every property it is given
(`persistUpdateClient`).

* `AssignmentState.assign`, `interrupt`, `resume` — the three ways a row is written;
* `AssignmentState.step` — one operation, `none` when it throws.
-/

/-! ### The store -/

/-- `input.property !== undefined ? input.property : column`. -/
def Field.orKeep {α : Type} : Field α → Field α → Field α
  | undefined, column => column
  | given, _ => given

/-- Every property that is given goes into its column. -/
def UpdateClientInput.apply (input : UpdateClientInput) (c : Client) (now : String) : Client where
  id := c.id
  name := input.name.getD c.name
  assignedPlaylistId := input.assignedPlaylistId.orKeep c.assignedPlaylistId
  interruptedFromPlaylistId := input.interruptedFromPlaylistId.orKeep c.interruptedFromPlaylistId
  status := input.status.getD c.status
  lastSeen := input.lastSeen.or c.lastSeen
  version := input.version.or c.version
  capabilities := input.capabilities.or c.capabilities
  updatedAt := now

/-- The foreign key of `assigned_playlist_id`. -/
def ClientStore.allows (db : ClientStore) : Field Nat → Bool
  | .value playlistId => (db.getPlaylistById playlistId).isSome
  | _ => true

/-- `updateClient` of an adapter that persists every property it is given. -/
def persistUpdateClient : UpdateClient := fun db id input now =>
  if db.allows input.assignedPlaylistId then
    let db := { db with clients := db.clients.map fun c =>
      if c.id = id then input.apply c now else c }
    (db.reread id, db)
  else (.error .constraint, db)

/-- `updateClient` of the service. -/
def ClientService.updateClient (updateClient : UpdateClient) (db : ClientStore) (id : String)
    (input : UpdateClientInput) (now : String) : Except ServiceError Client × ClientStore :=
  match getClientById db id with
  | .error e => (.error e, db)
  | .ok _ =>
    match input.assignedPlaylistId with
    | .value playlistId =>
      match db.getPlaylistById playlistId with
      | none =>
        (.error (.app .playlistNotFound s!"Playlist with ID {playlistId} not found" 404), db)
      | some _ => updateClient db id input now
    | _ => updateClient db id input now

/-- A row of `client_playlists`. -/
structure ClientPlaylist where
  clientId : String
  playlistId : Nat
  priority : Nat
  deriving DecidableEq, Repr

/-! ### The state -/

/-- The server with the tables and timers behind an assignment.  The last three fields are there
    for statements only. -/
structure AssignmentState where
  server : ServerState
  clientPlaylists : List ClientPlaylist
  /-- ids of `client_groups` -/
  clientGroups : List Nat
  /-- rows of `client_group_members`: group id and client id -/
  clientGroupMembers : List (Nat × String)
  /-- the pending timer of a client, named by the change that armed it -/
  resumeTimers : String → Option Nat
  /-- how often the playlist of some client was set -/
  changes : Nat
  /-- the latest of these changes for a client -/
  lastChange : String → Nat
  /-- what was sent to a client, latest last -/
  outbox : String → List ServerMessage

namespace AssignmentState

def clientStore (s : AssignmentState) : ClientStore := ⟨s.server.db.clients, s.server.db.playlists⟩

/-- The state after a call on the client table; `none` when it threw. -/
def store (s : AssignmentState) (r : Except ServiceError Client × ClientStore) :
    Option (Client × AssignmentState) :=
  match r with
  | (.ok c, db) =>
    some (c, { s with
      server := { s.server with db := { s.server.db with clients := db.clients } } })
  | (.error _, _) => none

/-- Count a change of the client's playlist. -/
def noteChange (s : AssignmentState) (clientId : String) : AssignmentState :=
  { s with
    changes := s.changes + 1
    lastChange := update s.lastChange clientId (s.changes + 1) }

/-- `db.updateClient` with the playlist alone. -/
def assign (s : AssignmentState) (clientId : String) (playlist : Field Nat) (now : String) :
    Option (Client × AssignmentState) :=
  (s.store (persistUpdateClient s.clientStore clientId { assignedPlaylistId := playlist } now)).map
    fun (c, s) => (c, s.noteChange clientId)

/-- `clientService.interruptWithPlaylist`. -/
def interrupt (s : AssignmentState) (clientId : String) (playlistId : Nat) (now : String) :
    Option (Client × AssignmentState) :=
  (s.store (ClientService.interruptWithPlaylist persistUpdateClient s.clientStore clientId
    playlistId now)).map fun (c, s) => (c, s.noteChange clientId)

/-- `clientService.resumeFromInterrupt`. -/
def resume (s : AssignmentState) (clientId now : String) : Option (Client × AssignmentState) :=
  (s.store (ClientService.resumeFromInterrupt persistUpdateClient s.clientStore clientId now)).map
    fun (c, s) => (c, s.noteChange clientId)

/-! ### Sending -/

def isConnected (s : AssignmentState) (clientId : String) : Bool :=
  s.server.manager.isConnected clientId

/-- `clientConnectionManager.sendToClient`. -/
def send (s : AssignmentState) (clientId : String) (message : ServerMessage) : AssignmentState :=
  let (manager, sent) := s.server.manager.sendToClient clientId message
  { s with
    server := { s.server with manager := manager }
    outbox := if sent then update s.outbox clientId (s.outbox clientId ++ [message])
      else s.outbox }

section

variable (cfg : ServerConfig)

/-- The message of `sendPlaylistToClient`. -/
def assignedMessage (db : PlaylistStore) (playlistId : Nat) : ServerMessage :=
  match db.playlists.find? (·.id == playlistId) with
  | some playlist =>
    .playlistAssigned playlist.id playlist.name true (listing cfg db playlistId)
  | none => .errorResponse (ServerState.notFoundMessage playlistId)

/-- `sendPlaylistToClient`. -/
def sendPlaylistToClient (s : AssignmentState) (clientId : String) (playlistId : Nat) :
    AssignmentState :=
  s.send clientId (assignedMessage cfg s.server.db playlistId)

/-- `sendPlaylistInterrupt`; a playlist that is missing is logged only. -/
def sendPlaylistInterrupt (s : AssignmentState) (clientId : String) (playlistId : Nat)
    (previousPlaylistId : Field Nat) : AssignmentState :=
  match s.server.db.playlists.find? (·.id == playlistId) with
  | some playlist =>
    s.send clientId (.playlistInterrupt playlist.id playlist.name true
      (listing cfg s.server.db playlistId) previousPlaylistId)
  | none => s

/-- A playlist id that is neither `null`, `undefined` nor 0. -/
def truthyId : Field Nat → Option Nat
  | .value (n + 1) => some (n + 1)
  | _ => none

/-- `sendPlaylistResume`. -/
def sendPlaylistResume (s : AssignmentState) (clientId : String) (playlistId : Field Nat) :
    AssignmentState :=
  match truthyId playlistId with
  | some id =>
    match s.server.db.playlists.find? (·.id == id) with
    | some playlist =>
      s.send clientId (.playlistResume playlistId (some playlist.name) true
        (listing cfg s.server.db id))
    | none => s
  | none => s.send clientId (.playlistResume playlistId none true [])

/-- `if (clientConnectionManager.isConnected(id)) await sendPlaylistToClient(id, playlistId)`. -/
def push (s : AssignmentState) (clientId : String) (playlistId : Nat) : AssignmentState :=
  if s.isConnected clientId then s.sendPlaylistToClient cfg clientId playlistId else s

/-- `if (assigned) push`. -/
def pushAssigned (s : AssignmentState) (clientId : String) (assigned : Field Nat) :
    AssignmentState :=
  match truthyId assigned with
  | some playlistId => s.push cfg clientId playlistId
  | none => s

/-! ### Playlist lists and groups -/

/-- `getClientPlaylists`: the rows whose playlist exists, `ORDER BY priority DESC`. -/
def getClientPlaylists (s : AssignmentState) (clientId : String) : List ClientPlaylist :=
  (s.clientPlaylists.filter fun r =>
    r.clientId == clientId && (s.clientStore.getPlaylistById r.playlistId).isSome).mergeSort
      fun a b => decide (b.priority ≤ a.priority)

/-- `activePlaylistId` of `resolveActivePlaylist`. -/
def activePlaylist (s : AssignmentState) (clientId : String) : Field Nat :=
  match s.getClientPlaylists clientId with
  | active :: _ => .value active.playlistId
  | [] => .null

/-- `resolveActivePlaylist`. -/
def resolveActivePlaylist (s : AssignmentState) (clientId now : String) :
    Option (Client × AssignmentState) :=
  s.assign clientId (s.activePlaylist clientId) now

/-- `getGroupMembers`: a join with `clients`, `ORDER BY name`. -/
def getGroupMembers (s : AssignmentState) (groupId : Nat) : List Client :=
  (s.server.db.clients.filter fun c => s.clientGroupMembers.contains (groupId, c.id)).mergeSort
    fun a b => decide (a.name ≤ b.name)

/-- The loop that assigns a playlist to clients, without sending it. -/
def assignAll (s : AssignmentState) (clientIds : List String) (playlistId : Nat) (now : String) :
    Option AssignmentState :=
  clientIds.foldlM (fun s id => (s.assign id (.value playlistId) now).map (·.2)) s

/-- The loop that sends a playlist to the connected ones of some clients. -/
def pushAll (s : AssignmentState) (clientIds : List String) (playlistId : Nat) :
    AssignmentState :=
  clientIds.foldl (fun s id => s.push cfg id playlistId) s

/-! ### The routes -/

/-- `PUT /clients/:id`. -/
def putClient (s : AssignmentState) (clientId : String) (name : Option String)
    (assignedPlaylistId : Field Nat) (now : String) : Option AssignmentState :=
  (s.store (ClientService.updateClient persistUpdateClient s.clientStore clientId
    { name := name, assignedPlaylistId := assignedPlaylistId } now)).map fun (client, s) =>
    let s := if assignedPlaylistId = .undefined then s else s.noteChange clientId
    -- both the body and the row must name a playlist
    match truthyId assignedPlaylistId with
    | some _ => s.pushAssigned cfg clientId client.assignedPlaylistId
    | none => s

/-- The end of the three routes on a client's playlists: resolve, then send what is active. -/
def resolveAndPush (s : AssignmentState) (clientId now : String) : Option AssignmentState :=
  (s.resolveActivePlaylist clientId now).map fun (client, s) =>
    s.pushAssigned cfg clientId client.assignedPlaylistId

/-- `POST /clients/:id/playlists`; the pair of client and playlist is unique. -/
def postClientPlaylist (s : AssignmentState) (clientId : String) (playlistId priority : Nat)
    (now : String) : Option AssignmentState :=
  if (s.clientStore.getClientById clientId).isNone then none
  else if (s.clientStore.getPlaylistById playlistId).isNone then none
  else if s.clientPlaylists.any fun r => r.clientId == clientId && r.playlistId == playlistId then
    none
  else
    let row : ClientPlaylist := ⟨clientId, playlistId, priority⟩
    resolveAndPush cfg { s with clientPlaylists := s.clientPlaylists ++ [row] } clientId now

/-- The rows of `client_playlists` after an update of a priority. -/
def withPriority (s : AssignmentState) (clientId : String) (playlistId priority : Nat) :
    AssignmentState :=
  { s with clientPlaylists := s.clientPlaylists.map fun r =>
      if r.clientId == clientId && r.playlistId == playlistId then { r with priority := priority }
      else r }

/-- `PUT /clients/:id/playlists/:playlistId`; a row that is not there is an error. -/
def putClientPlaylist (s : AssignmentState) (clientId : String) (playlistId priority : Nat)
    (now : String) : Option AssignmentState :=
  if (s.clientStore.getClientById clientId).isNone then none
  else if s.clientPlaylists.any fun r => r.clientId == clientId && r.playlistId == playlistId then
    (s.withPriority clientId playlistId priority).resolveAndPush cfg clientId now
  else none

/-- The rows of `client_playlists` after a delete. -/
def withoutClientPlaylist (s : AssignmentState) (clientId : String) (playlistId : Nat) :
    AssignmentState :=
  { s with clientPlaylists := s.clientPlaylists.filter fun r =>
      !(r.clientId == clientId && r.playlistId == playlistId) }

/-- `DELETE /clients/:id/playlists/:playlistId`. -/
def deleteClientPlaylist (s : AssignmentState) (clientId : String) (playlistId : Nat)
    (now : String) : Option AssignmentState :=
  if (s.clientStore.getClientById clientId).isNone then none
  else (s.withoutClientPlaylist clientId playlistId).resolveAndPush cfg clientId now

/-- `POST /groups/:id/assign`. -/
def assignGroup (s : AssignmentState) (groupId playlistId : Nat) (now : String) :
    Option AssignmentState :=
  if !s.clientGroups.contains groupId then none
  else if (s.clientStore.getPlaylistById playlistId).isNone then none
  else
    let members := (s.getGroupMembers groupId).map (·.id)
    (s.assignAll members playlistId now).map fun s => s.pushAll cfg members playlistId

/-- `POST /clients/:id/interrupt`. -/
def interruptRoute (s : AssignmentState) (clientId : String) (playlistId : Nat) (now : String) :
    Option AssignmentState :=
  (s.interrupt clientId playlistId now).map fun (client, s) =>
    if s.isConnected clientId then
      s.sendPlaylistInterrupt cfg clientId playlistId client.interruptedFromPlaylistId
    else s

/-- `POST /clients/:id/resume`. -/
def resumeRoute (s : AssignmentState) (clientId now : String) : Option AssignmentState :=
  match s.clientStore.getClientById clientId with
  | none => none
  | some previousClient =>
    (s.resume clientId now).map fun (_, s) =>
      if s.isConnected clientId then
        s.sendPlaylistResume cfg clientId previousClient.interruptedFromPlaylistId
      else s

/-! ### Schedules -/

/-- The clients of a schedule's scope; a group id of 0 is falsy. -/
def targets (s : AssignmentState) (schedule : Schedule) : List String :=
  match truthy schedule.clientId with
  | some clientId => [clientId]
  | none =>
    match schedule.groupId with
    | some (n + 1) => (s.getGroupMembers (n + 1)).map (·.id)
    | _ => s.server.db.clients.map (·.id)

/-- `scheduleAutoResume`, right after the interrupt that arms the timer: an older timer of the
    client is cleared. -/
def scheduleAutoResume (s : AssignmentState) (clientId : String) : AssignmentState :=
  { s with resumeTimers := update s.resumeTimers clientId (some s.changes) }

/-- `schedule.duration_seconds && schedule.duration_seconds > 0`. -/
def timed (schedule : Schedule) : Bool := decide (0 < schedule.durationSeconds.getD 0)

/-- One turn of the loop of `dispatchInterrupt`; a target that throws is skipped. -/
def interruptTarget (s : AssignmentState) (schedule : Schedule) (now : String)
    (clientId : String) : AssignmentState :=
  match s.interrupt clientId schedule.playlistId now with
  | none => s
  | some (_, s) =>
    let s := s.push cfg clientId schedule.playlistId
    if timed schedule then s.scheduleAutoResume clientId else s

/-- `dispatchInterrupt`. -/
def dispatchInterrupt (s : AssignmentState) (schedule : Schedule) (now : String) :
    AssignmentState :=
  (s.targets schedule).foldl (fun s id => s.interruptTarget cfg schedule now id) s

/-- `db.updateClient`, then the message. -/
def assignAndPush (s : AssignmentState) (clientId : String) (playlistId : Nat) (now : String) :
    Option AssignmentState :=
  (s.assign clientId (.value playlistId) now).map fun (_, s) => s.push cfg clientId playlistId

/-- `dispatchSchedule`. -/
def dispatchSchedule (s : AssignmentState) (schedule : Schedule) (now : String) :
    Option AssignmentState :=
  if schedule.interruptMode = .interrupt then some (s.dispatchInterrupt cfg schedule now)
  else
    match truthy schedule.clientId with
    | some clientId => s.assignAndPush cfg clientId schedule.playlistId now
    | none =>
      match schedule.groupId with
      | some (n + 1) =>
        let members := (s.getGroupMembers (n + 1)).map (·.id)
        -- all rows first; the members are read again for the messages
        (s.assignAll members schedule.playlistId now).map fun s =>
          s.pushAll cfg ((s.getGroupMembers (n + 1)).map (·.id)) schedule.playlistId
      | _ =>
        (s.server.db.clients.map (·.id)).foldlM
          (fun s id => s.assignAndPush cfg id schedule.playlistId now) s

/-- `resumeTimers.delete`. -/
def deleteTimer (s : AssignmentState) (clientId : String) : AssignmentState :=
  { s with resumeTimers := update s.resumeTimers clientId none }

/-- A timer fires: its entry is deleted, and a resume that throws is logged only. -/
def autoResume (s : AssignmentState) (clientId now : String) : Option AssignmentState :=
  match s.resumeTimers clientId with
  | none => none
  | some _ =>
    match (s.deleteTimer clientId).resume clientId now with
    | none => some (s.deleteTimer clientId)
    | some (resumed, s) => some (s.pushAssigned cfg clientId resumed.assignedPlaylistId)

end

/-! ### One operation -/

/-- The operations that set a client's playlist. -/
inductive Operation
  | putClient (clientId : String) (name : Option String) (assignedPlaylistId : Field Nat)
  | postClientPlaylist (clientId : String) (playlistId priority : Nat)
  | putClientPlaylist (clientId : String) (playlistId priority : Nat)
  | deleteClientPlaylist (clientId : String) (playlistId : Nat)
  | assignGroup (groupId playlistId : Nat)
  | interrupt (clientId : String) (playlistId : Nat)
  | resume (clientId : String)
  | dispatchSchedule (schedule : Schedule)
  | autoResume (clientId : String)
  deriving DecidableEq, Repr

/-- An operation and the time it is carried out. -/
structure Call where
  op : Operation
  now : String
  deriving DecidableEq, Repr

/-- One operation; `none` when it throws, or when no such timer is pending. -/
def step (cfg : ServerConfig) (s : AssignmentState) (call : Call) : Option AssignmentState :=
  match call.op with
  | .putClient clientId name assigned => s.putClient cfg clientId name assigned call.now
  | .postClientPlaylist clientId p priority =>
    s.postClientPlaylist cfg clientId p priority call.now
  | .putClientPlaylist clientId p priority =>
    s.putClientPlaylist cfg clientId p priority call.now
  | .deleteClientPlaylist clientId p => s.deleteClientPlaylist cfg clientId p call.now
  | .assignGroup groupId p => s.assignGroup cfg groupId p call.now
  | .interrupt clientId p => s.interruptRoute cfg clientId p call.now
  | .resume clientId => s.resumeRoute cfg clientId call.now
  | .dispatchSchedule schedule => s.dispatchSchedule cfg schedule call.now
  | .autoResume clientId => s.autoResume cfg clientId call.now

end AssignmentState

end Montr.Server
