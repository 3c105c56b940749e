import Montr.Lib.Confinement
import Montr.Server.EventSchedules
import Montr.Server.Presence

namespace Montr.Server

open Confinement Function

/-!
# Whose state a message changes

The messages other than `register`, from `handleMessage` to the writes of their handlers.  A
handler is the list of the writes it gets to before it ends or throws; everything it reads but the
telemetry of the sample itself is as it was when the message came.

* `MessageServer.handleMessage` — the writes of a message on a socket;
* `view` — what is stored, remembered and announced of one client;
* `framed_view` — a write is seen by the clients it concerns only;
* `Attributed` — the handler's guards refuse the message, or its `clientId` is the id registered
  on the socket and nobody else is drawn in;
* `nonInterfering_iff_attributed` — the messages of two runs do not interfere exactly when both
  are attributed.

What is sent to players is not part of the state.  The times of a run are those of one moment.
-/

/-! ### Messages and rows -/

/-- `ClientErrorSeverity`. -/
inductive ErrorSeverity
  | warn
  | error
  | fatal
  deriving DecidableEq, Repr

/-- The levels of a log event. -/
inductive ClientLogLevel
  | warn
  | error
  deriving DecidableEq, Repr

/-- A message other than `register`, without its `clientId`. -/
inductive MessageBody
  | statusUpdate (currentMedia : Option Nat) (position : Option Rat) (isPlaying : Bool)
  | heartbeat
  | error (error : String) (context : PayloadValue) (source : Option String)
      (severity : Option ErrorSeverity)
  | telemetry (cpuPct : Rat) (disks : List TelemetryDiskSample) (temps : List TelemetryTempSample)
      (mpv : Option TelemetryMpvSample)
  | logEvent (level : ClientLogLevel) (target message : String)
  deriving DecidableEq, Repr

/-- A message with the `clientId` that it claims. -/
structure ClientMessage where
  clientId : String
  body : MessageBody
  deriving DecidableEq, Repr

/-- A row of `client_status`. -/
structure ClientStatusRow where
  clientId : String
  currentMediaId : Option Nat := none
  position : Option Rat := none
  isPlaying : Bool
  errorMessage : Option String := none
  deriving DecidableEq, Repr

/-- `createClientStatus`: an id, a position or a text that is falsy is stored as `null`. -/
def ClientStatusRow.stored (row : ClientStatusRow) : ClientStatusRow :=
  { row with
    currentMediaId := row.currentMediaId.filter (· ≠ 0)
    position := row.position.filter (· ≠ 0)
    errorMessage := truthy row.errorMessage }

/-- A row of `client_log_events`. -/
structure ClientLogEventRow where
  clientId : String
  level : ClientLogLevel
  target : String
  message : String
  deriving DecidableEq, Repr

/-- A broadcast to the admin browsers. -/
inductive AdminNotice
  | clientStatusUpdate (clientId : String) (currentMedia : Option Nat) (position : Option Rat)
      (isPlaying : Bool)
  | clientError (clientId error : String) (source : Option String) (severity : ErrorSeverity)
      (context : PayloadValue)
  deriving DecidableEq, Repr

def AdminNotice.clientId : AdminNotice → String
  | .clientStatusUpdate clientId _ _ _ => clientId
  | .clientError clientId _ _ _ _ => clientId

/-- A moment, as `toISOString` and in milliseconds. -/
structure Instant where
  iso : String
  ms : Nat
  deriving DecidableEq, Repr

/-! ### The server -/

/-- The connections, the tables the handlers write, and what was announced and fired. -/
structure MessageServer (μ : Type) where
  manager : ClientConnectionManager μ
  store : ClientStore
  /-- ids of `media_files` -/
  media : List Nat
  members : Nat → List String
  schedules : List Schedule
  eventLastFired : EventLastFired
  statuses : List ClientStatusRow
  telemetry : List ClientTelemetryRow
  logEvents : List ClientLogEventRow
  notices : List AdminNotice
  events : List (String × ClientEvent)

/-- What a handler does, one after the other. -/
inductive HandlerWrite
  /-- `incrementMessageCount` -/
  | messageCount (clientId : String)
  /-- `createClientStatus` -/
  | clientStatus (row : ClientStatusRow)
  /-- `updateClient` of the adapter -/
  | client (clientId : String) (input : UpdateClientInput)
  /-- `updateHeartbeat` of the connection manager -/
  | heartbeat (clientId : String)
  | notice (notice : AdminNotice)
  | telemetry (row : ClientTelemetryRow)
  | logEvent (row : ClientLogEventRow)
  /-- `fireEvent`, the rules -/
  | event (clientId : String) (event : ClientEvent)
  /-- `fireEvent`, the marks of the schedules -/
  | fired (last : EventLastFired)
  /-- `fireEvent`, an effect of a schedule -/
  | dispatch (effect : DispatchEffect)
  /-- `sendError` -/
  | reply (clientId : String) (error : String)

variable {μ : Type}

/-- `incrementMessageCount`. -/
def ClientConnectionManager.incrementMessageCount (m : ClientConnectionManager μ)
    (clientId : String) : ClientConnectionManager μ :=
  match m.metadata clientId with
  | some known =>
    { m with
      metadata := update m.metadata clientId
        (some { known with messageCount := known.messageCount + 1 }) }
  | none => m

namespace MessageServer

def fleet (s : MessageServer μ) : Fleet where
  clients := s.store.clients.map (·.id)
  members := s.members
  isConnected := s.manager.isConnected

/-- `ws.clientId`. -/
def registered (s : MessageServer μ) (ws : SocketId) : Option String :=
  (s.manager.sockets ws).clientId

section

variable (faults : Faults) (now : Instant) (s : MessageServer μ)

/-- `recordClientStatus`: its writes, or the message of what it throws. -/
def recordClientStatus (row : ClientStatusRow) : Except String (List HandlerWrite) :=
  match s.store.getClientById row.clientId with
  | none => .error s!"Client with ID {row.clientId} not found"
  | some _ =>
    if row.stored.currentMediaId.all s.media.contains then
      .ok [.clientStatus row.stored, .client row.clientId
        { lastSeen := some now.iso
          status := some (if (truthy row.errorMessage).isSome then .error else .online) }]
    else .error "FOREIGN KEY constraint failed"

/-- `handleStatusUpdate`. -/
def handleStatusUpdate (clientId : String) (currentMedia : Option Nat) (position : Option Rat)
    (isPlaying : Bool) : List HandlerWrite :=
  if !s.manager.isConnected clientId then [.reply clientId "Client not registered"]
  else
    match s.recordClientStatus now
        { clientId := clientId, currentMediaId := currentMedia, position := position
          isPlaying := isPlaying } with
    | .error message => [.reply clientId message]
    | .ok writes =>
      writes ++
        [.heartbeat clientId,
          .notice (.clientStatusUpdate clientId currentMedia position isPlaying)]

/-- `handleHeartbeat`. -/
def handleHeartbeat (clientId : String) : List HandlerWrite :=
  if !s.manager.isConnected clientId then [.reply clientId "Client not registered"]
  else
    match s.store.getClientById clientId with
    -- an `UPDATE` of no row, and the row is not found afterwards
    | none => []
    | some _ =>
      [.client clientId { lastSeen := some now.iso, status := some .online }, .heartbeat clientId]

/-- `fireEvent` for each of the events: its rules, then its schedules. -/
def fireEvents (clientId : String) : EventLastFired → List ClientEvent → List HandlerWrite
  | _, [] => []
  | last, event :: rest =>
    let r := onEvent s.fleet faults s.schedules last event.eventType (event.payload clientId) now.ms
    .event clientId event :: .fired r.1 ::
      ((r.2.flatMap fun d => d.outcome.effects).map .dispatch ++ fireEvents clientId r.1 rest)

/-- The events of an error report. -/
def errorEvents (error : String) (context : PayloadValue) (source : Option String)
    (severity : ErrorSeverity) : List ClientEvent :=
  (if severity = .fatal then [.fatalError error source context] else []) ++
    if source = some "cache" ∧ error = "storage_low" then [.storageLow context] else []

/-- `handleError`. -/
def handleError (clientId error : String) (context : PayloadValue) (source : Option String)
    (severity : Option ErrorSeverity) : List HandlerWrite :=
  let severity := severity.getD .error
  if !s.manager.isConnected clientId then []
  else
    .notice (.clientError clientId error source severity context) ::
      let rest := s.fireEvents faults now clientId s.eventLastFired
          (errorEvents error context source severity) ++ [.heartbeat clientId]
      if severity = .warn then rest
      else
        match s.recordClientStatus now
            { clientId := clientId, isPlaying := false, errorMessage := some error } with
        | .error _ => []
        | .ok writes =>
          writes ++
            .client clientId { status := some .error, lastSeen := some now.iso } :: rest

/-- `handleTelemetry`. -/
def handleTelemetry (input : CreateClientTelemetryInput) : List HandlerWrite :=
  if !s.manager.isConnected input.clientId then []
  else
    match s.store.getClientById input.clientId with
    -- the foreign key of `client_id`
    | none => []
    | some _ =>
      let alerts := Telemetry.evaluateThresholds
        (Telemetry.recordTelemetry s.telemetry now.ms input) now.ms input
      .telemetry (Telemetry.createdRow now.ms input) ::
        (s.fireEvents faults now input.clientId s.eventLastFired (alerts.map .alert) ++
          [.heartbeat input.clientId])

/-- `handleLogEvent`. -/
def handleLogEvent (row : ClientLogEventRow) : List HandlerWrite :=
  if !s.manager.isConnected row.clientId then []
  else
    match s.store.getClientById row.clientId with
    -- the foreign key of `client_id`
    | none => []
    | some _ => [.logEvent row]

/-- `routeMessage`. -/
def routeMessage (message : ClientMessage) : List HandlerWrite :=
  match message.body with
  | .statusUpdate currentMedia position isPlaying =>
    s.handleStatusUpdate now message.clientId currentMedia position isPlaying
  | .heartbeat => s.handleHeartbeat now message.clientId
  | .error error context source severity =>
    s.handleError faults now message.clientId error context source severity
  | .telemetry cpuPct disks temps mpv =>
    s.handleTelemetry faults now ⟨message.clientId, cpuPct, disks, temps, mpv⟩
  | .logEvent level target text => s.handleLogEvent ⟨message.clientId, level, target, text⟩

/-- `handleMessage`: the count of the socket's own client, then the handler. -/
def handleMessage (ws : SocketId) (message : ClientMessage) : List HandlerWrite :=
  (match s.registered ws with
    | some clientId => [.messageCount clientId]
    | none => []) ++
    s.routeMessage faults now message

/-- What a write does. -/
def apply : HandlerWrite → MessageServer μ
  | .messageCount clientId =>
    { s with manager := s.manager.incrementMessageCount clientId }
  | .clientStatus row => { s with statuses := s.statuses ++ [row] }
  | .client clientId input => { s with store := (sqlUpdateClient s.store clientId input now.iso).2 }
  | .heartbeat clientId => { s with manager := s.manager.updateHeartbeat clientId now.ms }
  | .notice notice => { s with notices := s.notices ++ [notice] }
  | .telemetry row => { s with telemetry := s.telemetry ++ [row] }
  | .logEvent row => { s with logEvents := s.logEvents ++ [row] }
  | .event clientId event => { s with events := s.events ++ [(clientId, event)] }
  | .fired last => { s with eventLastFired := last }
  | .dispatch (.assigned clientId playlistId) =>
    { s with
      store := (sqlUpdateClient s.store clientId { assignedPlaylistId := .value playlistId }
        now.iso).2 }
  | .dispatch (.interrupted clientId playlistId) =>
    { s with
      store := (ClientService.interruptWithPlaylist sqlUpdateClient s.store clientId playlistId
        now.iso).2 }
  | .dispatch (.sent _ _) => s
  | .dispatch (.autoResume _) => s
  | .reply _ _ => s

end

end MessageServer

/-! ### What belongs to a client -/

/-- What is stored, remembered and announced of one client. -/
@[ext]
structure ClientView where
  row : Option Client
  statuses : List ClientStatusRow
  telemetry : List ClientTelemetryRow
  logEvents : List ClientLogEventRow
  metadata : Option ConnectionMetadata
  /-- `isAlive` and `lastHeartbeat` of the socket it is connected on -/
  liveness : Option (Bool × Nat)
  notices : List AdminNotice
  events : List ClientEvent
  deriving DecidableEq

namespace MessageServer

/-- What belongs to a client. -/
def view (clientId : String) (s : MessageServer μ) : ClientView where
  row := s.store.getClientById clientId
  statuses := s.statuses.filter (·.clientId == clientId)
  telemetry := s.telemetry.filter (·.clientId == clientId)
  logEvents := s.logEvents.filter (·.clientId == clientId)
  metadata := s.manager.metadata clientId
  liveness := (s.manager.connections clientId).map fun ws =>
    ((s.manager.sockets ws).isAlive, (s.manager.sockets ws).lastHeartbeat)
  notices := s.notices.filter (·.clientId == clientId)
  events := (s.events.filter (·.1 == clientId)).map (·.2)

/-- The two clients are connected on one socket. -/
def Shares (s : MessageServer μ) (clientId other : String) : Prop :=
  ∃ ws, s.manager.connections clientId = some ws ∧ s.manager.connections other = some ws

/-- Whom a write concerns; a heartbeat is one of the socket. -/
def Concerns (s : MessageServer μ) : HandlerWrite → String → Prop
  | .messageCount clientId, k => k = clientId
  | .clientStatus row, k => k = row.clientId
  | .client clientId _, k => k = clientId
  | .heartbeat clientId, k => k = clientId ∨ s.Shares clientId k
  | .notice notice, k => k = notice.clientId
  | .telemetry row, k => k = row.clientId
  | .logEvent row, k => k = row.clientId
  | .event clientId _, k => k = clientId
  | .fired _, _ => False
  | .dispatch effect, k => k = effect.clientId
  | .reply _ _, _ => False

section

variable {faults : Faults} {now : Instant} {s : MessageServer μ} {k : String}

/-! ### The frame law -/

theorem getClientById_setColumns_of_ne {db : ClientStore} {id : String} (hne : k ≠ id)
    (columns : List ClientColumn) (at_ : String) :
    (db.setColumns id columns at_).getClientById k = db.getClientById k := by
  have hid : ∀ c : Client, (if c.id = id then
      { columns.foldl ClientColumn.apply c with updatedAt := at_ } else c).id = c.id := by
    intro c
    split
    · exact (ClientService.foldl_apply_keeps columns c).1
    · rfl
  show (db.clients.map _).find? _ = db.clients.find? _
  induction db.clients with
  | nil => rfl
  | cons c rest ih =>
    rw [List.map_cons]
    by_cases hc : c.id = k
    · have hother : c.id ≠ id := fun heq => hne (hc.symm.trans heq)
      rw [List.find?_cons_of_pos (by simpa [hid] using hc),
        List.find?_cons_of_pos (by simpa using hc), if_neg hother]
    · rw [List.find?_cons_of_neg (by simpa [hid] using hc),
        List.find?_cons_of_neg (by simpa using hc)]
      exact ih

theorem getClientById_update_of_ne {db : ClientStore} {id : String} (hne : k ≠ id)
    (input : UpdateClientInput) (at_ : String) :
    (sqlUpdateClient db id input at_).2.getClientById k = db.getClientById k := by
  unfold sqlUpdateClient
  split
  · rfl
  · exact getClientById_setColumns_of_ne hne _ _

theorem getClientById_interrupt_of_ne {db : ClientStore} {id : String} (hne : k ≠ id)
    (playlistId : Nat) (at_ : String) :
    (ClientService.interruptWithPlaylist sqlUpdateClient db id playlistId at_).2.getClientById k =
      db.getClientById k := by
  unfold ClientService.interruptWithPlaylist
  split
  · rfl
  · split
    · rfl
    · exact getClientById_update_of_ne hne _ _

/-- A row of another client is filtered out. -/
theorem filter_append_of_ne {α : Type} {rows : List α} {row : α} (owner : α → String)
    (hne : k ≠ owner row) :
    (rows ++ [row]).filter (owner · == k) = rows.filter (owner · == k) := by
  rw [List.filter_append, List.filter_cons_of_neg (by simpa using Ne.symm hne), List.filter_nil,
    List.append_nil]

theorem metadata_updateHeartbeat_of_ne (m : ClientConnectionManager μ) {id : String}
    (hne : k ≠ id) (ms : Nat) : (m.updateHeartbeat id ms).metadata k = m.metadata k := by
  unfold ClientConnectionManager.updateHeartbeat
  cases m.metadata id with
  | none => rfl
  | some known => exact update_of_ne hne ..

/-- A heartbeat leaves the other sockets alone. -/
theorem sockets_updateHeartbeat_of_ne (m : ClientConnectionManager μ) {id : String}
    {ws : SocketId} (hne : m.connections id ≠ some ws) (ms : Nat) :
    (m.updateHeartbeat id ms).sockets ws = m.sockets ws := by
  unfold ClientConnectionManager.updateHeartbeat
  cases hid : m.connections id with
  | none => rfl
  | some current =>
    have hws : ws ≠ current := fun heq => hne (by rw [hid, heq])
    exact update_of_ne hws ..

theorem metadata_messageCount_of_ne (m : ClientConnectionManager μ) {id : String}
    (hne : k ≠ id) : (m.incrementMessageCount id).metadata k = m.metadata k := by
  unfold ClientConnectionManager.incrementMessageCount
  cases m.metadata id with
  | none => rfl
  | some known => exact update_of_ne hne ..

theorem incrementMessageCount_connections (m : ClientConnectionManager μ) (id : String) :
    (m.incrementMessageCount id).connections = m.connections := by
  unfold ClientConnectionManager.incrementMessageCount
  cases m.metadata id <;> rfl

theorem incrementMessageCount_sockets (m : ClientConnectionManager μ) (id : String) :
    (m.incrementMessageCount id).sockets = m.sockets := by
  unfold ClientConnectionManager.incrementMessageCount
  cases m.metadata id <;> rfl

/-- No write changes who is connected on which socket. -/
theorem apply_connections (s : MessageServer μ) (w : HandlerWrite) :
    (s.apply now w).manager.connections = s.manager.connections := by
  cases w with
  | messageCount clientId => exact incrementMessageCount_connections s.manager clientId
  | dispatch effect => cases effect <;> rfl
  | _ => rfl

/-- The liveness of a client that is not connected on the socket of the heartbeat. -/
theorem liveness_updateHeartbeat_of_not_shares (s : MessageServer μ) {id : String}
    (hshares : ¬ s.Shares id k) (ms : Nat) :
    (s.manager.connections k).map (fun ws =>
        (((s.manager.updateHeartbeat id ms).sockets ws).isAlive,
          ((s.manager.updateHeartbeat id ms).sockets ws).lastHeartbeat)) =
      (s.manager.connections k).map fun ws =>
        ((s.manager.sockets ws).isAlive, (s.manager.sockets ws).lastHeartbeat) := by
  cases hk : s.manager.connections k with
  | none => rfl
  | some ws =>
    have hsocket : s.manager.connections id ≠ some ws := fun heq => hshares ⟨ws, heq, hk⟩
    rw [Option.map_some, Option.map_some, sockets_updateHeartbeat_of_ne _ hsocket]

/-- **The frame law** of the handlers' writes. -/
theorem framed_view : Framed (fun s w => s.apply now w) Concerns
    (view : String → MessageServer μ → ClientView) where
  keeps s w k hother := by
    cases w with
    | messageCount clientId =>
      simp only [view, apply, metadata_messageCount_of_ne s.manager hother,
        incrementMessageCount_connections, incrementMessageCount_sockets]
    | clientStatus row =>
      simp only [view, apply, filter_append_of_ne ClientStatusRow.clientId hother]
    | client clientId input => simp only [view, apply, getClientById_update_of_ne hother]
    | heartbeat clientId =>
      -- a heartbeat is seen through the entry, and through the socket it shares
      obtain ⟨hne, hshares⟩ := not_or.mp hother
      ext1
      case metadata => exact metadata_updateHeartbeat_of_ne s.manager hne now.ms
      case liveness => exact liveness_updateHeartbeat_of_not_shares s hshares now.ms
      all_goals rfl
    | notice notice => simp only [view, apply, filter_append_of_ne AdminNotice.clientId hother]
    | telemetry row =>
      simp only [view, apply, filter_append_of_ne (fun r : ClientTelemetryRow => r.clientId) hother]
    | logEvent row =>
      simp only [view, apply, filter_append_of_ne ClientLogEventRow.clientId hother]
    | event clientId event =>
      have hfilter : (s.events ++ [(clientId, event)]).filter (·.1 == k) =
          s.events.filter (·.1 == k) := filter_append_of_ne Prod.fst hother
      simp only [view, apply, hfilter]
    | fired last => rfl
    | dispatch effect =>
      cases effect with
      | assigned clientId playlistId =>
        have hne : k ≠ clientId := hother
        simp only [view, apply, getClientById_update_of_ne hne]
      | interrupted clientId playlistId =>
        have hne : k ≠ clientId := hother
        simp only [view, apply, getClientById_interrupt_of_ne hne]
      | sent clientId playlistId => rfl
      | autoResume clientId => rfl
    | reply clientId error => rfl
  steady s w w' k := by
    have hconnections := @apply_connections μ now s w
    cases w' with
    | heartbeat clientId => simp only [Concerns, Shares, hconnections]
    | _ => exact Iff.rfl

end

/-! ### Whom a message reaches -/

section

variable (faults : Faults) (now : Instant) (s : MessageServer μ)

/-- The effects of the schedules that `fireEvent` dispatches for the events. -/
def firedEffects (clientId : String) : EventLastFired → List ClientEvent → List DispatchEffect
  | _, [] => []
  | last, event :: rest =>
    let r := onEvent s.fleet faults s.schedules last event.eventType (event.payload clientId) now.ms
    (r.2.flatMap fun d => d.outcome.effects) ++ firedEffects clientId r.1 rest

/-- The status can be recorded: the client has a row, and the media file is one of the table. -/
def records (clientId : String) (currentMedia : Option Nat) : Bool :=
  (s.store.getClientById clientId).isSome &&
    (currentMedia.filter (· ≠ 0)).all s.media.contains

/-- The guards of the handler let the message change something. -/
def accepts (m : ClientMessage) : Bool :=
  s.manager.isConnected m.clientId &&
    match m.body with
    | .statusUpdate currentMedia _ _ => s.records m.clientId currentMedia
    | .error .. => true
    | _ => (s.store.getClientById m.clientId).isSome

/-- The handler of an accepted message gets to its `updateHeartbeat`. -/
def beats (m : ClientMessage) : Bool :=
  match m.body with
  | .logEvent .. => false
  | .error _ _ _ severity => severity = some .warn || s.records m.clientId none
  | _ => true

/-- The events of an accepted message. -/
def eventsOf (m : ClientMessage) : List ClientEvent :=
  match m.body with
  | .error error context source severity =>
    errorEvents error context source (severity.getD .error)
  | .telemetry cpuPct disks temps mpv =>
    let input : CreateClientTelemetryInput := ⟨m.clientId, cpuPct, disks, temps, mpv⟩
    (Telemetry.evaluateThresholds (Telemetry.recordTelemetry s.telemetry now.ms input) now.ms
      input).map .alert
  | _ => []

/-- An accepted message draws in another client: it is connected on the same socket, or a
    schedule that its events fire acts on it. -/
def DrawsIn (m : ClientMessage) (k : String) : Prop :=
  s.beats m = true ∧
    (s.Shares m.clientId k ∨
      ∃ effect ∈ s.firedEffects faults now m.clientId s.eventLastFired (s.eventsOf now m),
        k = effect.clientId)

/-- **A message of the socket's own client.**  The guards of the handler refuse it, or its
    `clientId` is the one registered on the socket and it draws in nobody else. -/
def Attributed (ws : SocketId) (m : ClientMessage) : Prop :=
  s.accepts m = true →
    s.registered ws = some m.clientId ∧ ∀ k, s.DrawsIn faults now m k → k = m.clientId

end

section

variable {faults : Faults} {now : Instant} {s : MessageServer μ} {clientId k : String}

theorem recordClientStatus_ok {row : ClientStatusRow}
    (hrecords : s.records row.clientId row.currentMediaId = true) :
    ∃ writes, s.recordClientStatus now row = .ok writes ∧
      ∀ k, Touches Concerns s writes k ↔ k = row.clientId := by
  rw [records, Bool.and_eq_true] at hrecords
  obtain ⟨hrow, hmedia⟩ := hrecords
  obtain ⟨found, hfound⟩ := Option.isSome_iff_exists.mp hrow
  simp only [recordClientStatus, hfound]
  refine ⟨_, if_pos hmedia, fun k => ?_⟩
  simp [Concerns, ClientStatusRow.stored]

theorem recordClientStatus_error {row : ClientStatusRow}
    (hrecords : s.records row.clientId row.currentMediaId = false) :
    ∃ message, s.recordClientStatus now row = .error message := by
  cases hfound : s.store.getClientById row.clientId with
  | none =>
    simp only [recordClientStatus, hfound]
    exact ⟨_, rfl⟩
  | some found =>
    rw [records, hfound, Option.isSome_some, Bool.true_and] at hrecords
    have hmedia : ¬ row.stored.currentMediaId.all s.media.contains = true := by
      show ¬ (row.currentMediaId.filter (· ≠ 0)).all s.media.contains = true
      rw [hrecords]
      exact Bool.false_ne_true
    simp only [recordClientStatus, hfound]
    exact ⟨_, if_neg hmedia⟩

theorem touches_dispatch {effects : List DispatchEffect} :
    Touches Concerns s (effects.map .dispatch) k ↔ ∃ effect ∈ effects, k = effect.clientId := by
  simp only [Touches, List.mem_map, exists_exists_and_eq_and, Concerns]

/-- Who the firing of events touches. -/
theorem touches_fireEvents (last : EventLastFired) (events : List ClientEvent) :
    Touches Concerns s (s.fireEvents faults now clientId last events) k ↔
      (events ≠ [] ∧ k = clientId) ∨
        ∃ effect ∈ s.firedEffects faults now clientId last events, k = effect.clientId := by
  induction events generalizing last with
  | nil => simp [fireEvents, firedEffects]
  | cons event rest ih =>
    simp only [fireEvents, firedEffects, touches_cons, touches_append, ih, touches_dispatch,
      Concerns, List.mem_append]
    constructor
    · rintro (h | h | ⟨effect, heffect, h⟩ | ⟨-, h⟩ | ⟨effect, heffect, h⟩)
      · exact .inl ⟨List.cons_ne_nil event rest, h⟩
      · exact h.elim
      · exact .inr ⟨effect, .inl heffect, h⟩
      · exact .inl ⟨List.cons_ne_nil event rest, h⟩
      · exact .inr ⟨effect, .inr heffect, h⟩
    · rintro (⟨-, h⟩ | ⟨effect, heffect | heffect, h⟩)
      · exact .inl h
      · exact .inr (.inr (.inl ⟨effect, heffect, h⟩))
      · exact .inr (.inr (.inr (.inr ⟨effect, heffect, h⟩)))

/-- The end of a handler: the events, then the heartbeat. -/
theorem touches_fireEvents_heartbeat (events : List ClientEvent) :
    Touches Concerns s
        (s.fireEvents faults now clientId s.eventLastFired events ++ [.heartbeat clientId]) k ↔
      k = clientId ∨ s.Shares clientId k ∨
        ∃ effect ∈ s.firedEffects faults now clientId s.eventLastFired events,
          k = effect.clientId := by
  rw [touches_append, touches_fireEvents, touches_cons]
  constructor
  · rintro ((⟨-, hown⟩ | hfired) | (hown | hshares) | hnil)
    · exact .inl hown
    · exact .inr (.inr hfired)
    · exact .inl hown
    · exact .inr (.inl hshares)
    · exact (not_touches_nil hnil).elim
  · rintro (hown | hshares | hfired)
    · exact .inr (.inl (.inl hown))
    · exact .inr (.inl (.inr hshares))
    · exact .inl (.inr hfired)

theorem touches_handleStatusUpdate {currentMedia : Option Nat} {position : Option Rat}
    {isPlaying : Bool} :
    Touches Concerns s (s.handleStatusUpdate now clientId currentMedia position isPlaying) k ↔
      (s.manager.isConnected clientId = true ∧ s.records clientId currentMedia = true) ∧
        (k = clientId ∨ s.Shares clientId k) := by
  unfold handleStatusUpdate
  cases hconnected : s.manager.isConnected clientId with
  | false => simp [Concerns]
  | true =>
    -- the status row is refused for a client or a media file that is not there
    cases hrecords : s.records clientId currentMedia with
    | false =>
      obtain ⟨message, hmessage⟩ := @recordClientStatus_error μ now s
        { clientId := clientId, currentMediaId := currentMedia, position := position
          isPlaying := isPlaying } hrecords
      simp [hmessage, Concerns]
    | true =>
      obtain ⟨writes, hwrites, htouches⟩ := @recordClientStatus_ok μ now s
        { clientId := clientId, currentMediaId := currentMedia, position := position
          isPlaying := isPlaying } hrecords
      simp [hwrites, touches_append, htouches, Concerns, AdminNotice.clientId]
      tauto

theorem touches_handleHeartbeat :
    Touches Concerns s (s.handleHeartbeat now clientId) k ↔
      (s.manager.isConnected clientId = true ∧ (s.store.getClientById clientId).isSome = true) ∧
        (k = clientId ∨ s.Shares clientId k) := by
  unfold handleHeartbeat
  cases s.manager.isConnected clientId with
  | false => simp [Concerns]
  | true =>
    cases s.store.getClientById clientId with
    | none => simp
    | some row => simp [Concerns]

theorem touches_handleError {error : String} {context : PayloadValue} {source : Option String}
    {severity : Option ErrorSeverity} :
    Touches Concerns s (s.handleError faults now clientId error context source severity) k ↔
      s.manager.isConnected clientId = true ∧
        (k = clientId ∨ (severity = some .warn ∨ s.records clientId none = true) ∧
          (s.Shares clientId k ∨
            ∃ effect ∈ s.firedEffects faults now clientId s.eventLastFired
              (errorEvents error context source (severity.getD .error)),
              k = effect.clientId)) := by
  -- a missing severity counts as `error`
  have hwarn : severity.getD .error = .warn ↔ severity = some .warn := by
    cases severity <;> simp
  unfold handleError
  cases s.manager.isConnected clientId with
  | false => simp
  | true =>
    -- a warning writes no status row, so nothing can refuse it
    by_cases h : severity = some .warn
    · simp [h, touches_fireEvents_heartbeat, Concerns, AdminNotice.clientId]
    · cases hrecords : s.records clientId none with
      | false =>
        obtain ⟨message, hmessage⟩ := @recordClientStatus_error μ now s
          { clientId := clientId, isPlaying := false, errorMessage := some error } hrecords
        simp [hwarn, h, hmessage, Concerns, AdminNotice.clientId]
      | true =>
        obtain ⟨writes, hwrites, htouches⟩ := @recordClientStatus_ok μ now s
          { clientId := clientId, isPlaying := false, errorMessage := some error } hrecords
        simp only [hwarn, h, hwrites, touches_cons, Bool.not_true, Bool.false_eq_true, if_false,
          false_or, true_and]
        rw [touches_append, touches_cons, touches_fireEvents_heartbeat, htouches]
        simp [Concerns, AdminNotice.clientId]

theorem touches_handleTelemetry {input : CreateClientTelemetryInput} :
    Touches Concerns s (s.handleTelemetry faults now input) k ↔
      (s.manager.isConnected input.clientId = true ∧
        (s.store.getClientById input.clientId).isSome = true) ∧
        (k = input.clientId ∨ s.Shares input.clientId k ∨
          ∃ effect ∈ s.firedEffects faults now input.clientId s.eventLastFired
            ((Telemetry.evaluateThresholds (Telemetry.recordTelemetry s.telemetry now.ms input)
              now.ms input).map .alert),
            k = effect.clientId) := by
  unfold handleTelemetry
  cases s.manager.isConnected input.clientId with
  | false => simp
  | true =>
    cases s.store.getClientById input.clientId with
    | none => simp
    | some row =>
      simp [touches_fireEvents_heartbeat, Concerns, Telemetry.createdRow]

theorem touches_handleLogEvent {row : ClientLogEventRow} :
    Touches Concerns s (s.handleLogEvent row) k ↔
      (s.manager.isConnected row.clientId = true ∧
        (s.store.getClientById row.clientId).isSome = true) ∧ k = row.clientId := by
  unfold handleLogEvent
  cases s.manager.isConnected row.clientId with
  | false => simp
  | true =>
    cases s.store.getClientById row.clientId with
    | none => simp
    | some found => simp [Concerns]

/-- Whom a message reaches: nobody if it is refused, else the client it claims and those that it
    draws in. -/
theorem touches_routeMessage (m : ClientMessage) :
    Touches Concerns s (s.routeMessage faults now m) k ↔
      s.accepts m = true ∧ (k = m.clientId ∨ s.DrawsIn faults now m k) := by
  obtain ⟨clientId, body⟩ := m
  cases body with
  | statusUpdate currentMedia position isPlaying =>
    simp only [routeMessage, touches_handleStatusUpdate]
    simp [accepts, DrawsIn, beats, eventsOf, firedEffects]
  | heartbeat =>
    simp only [routeMessage, touches_handleHeartbeat]
    simp [accepts, DrawsIn, beats, eventsOf, firedEffects]
  | error error context source severity =>
    simp only [routeMessage, touches_handleError]
    simp [accepts, DrawsIn, beats, eventsOf]
  | telemetry cpuPct disks temps mpv =>
    simp only [routeMessage, touches_handleTelemetry]
    simp [accepts, DrawsIn, beats, eventsOf]
  | logEvent level target text =>
    simp only [routeMessage, touches_handleLogEvent]
    simp [accepts, DrawsIn, beats]

/-- The count of messages is the socket's own. -/
theorem touches_handleMessage {ws : SocketId} {m : ClientMessage} :
    Touches Concerns s (s.handleMessage faults now ws m) k ↔
      s.registered ws = some k ∨ Touches Concerns s (s.routeMessage faults now m) k := by
  unfold handleMessage
  cases s.registered ws with
  | none => simp
  | some clientId => simp [Concerns, eq_comm]

/-- A message is confined to the client of its socket exactly when it is attributed. -/
theorem confined_iff_attributed {ws : SocketId} {m : ClientMessage} :
    Confined Concerns s (fun k => s.registered ws = some k) (s.handleMessage faults now ws m) ↔
      s.Attributed faults now ws m := by
  simp only [Confined, touches_handleMessage, touches_routeMessage, Attributed]
  constructor
  · intro hconfined haccepts
    -- the client that is claimed is one of those reached
    have hregistered := hconfined m.clientId (.inr ⟨haccepts, .inl rfl⟩)
    refine ⟨hregistered, fun k hk => ?_⟩
    have hother := hconfined k (.inr ⟨haccepts, .inr hk⟩)
    exact Option.some.inj (hother.symm.trans hregistered)
  · rintro hattributed k (hown | ⟨haccepts, rfl | hk⟩)
    · exact hown
    · exact (hattributed haccepts).1
    · obtain ⟨hregistered, hdrawn⟩ := hattributed haccepts
      rw [hdrawn k hk]
      exact hregistered

end

/-- **Attribution.**  Of every state, every socket and every message, with every `clientId` claimed
    in the one run and in the other: the two runs change nothing but what belongs to the client
    registered on the socket, and leave every other client's state equal, exactly when both
    messages are attributed. -/
theorem nonInterfering_iff_attributed (faults : Faults) (now : Instant) (s : MessageServer μ)
    (ws : SocketId) (m : ClientMessage) (claimed : String) :
    NonInterfering (fun s w => s.apply now w) Concerns view s (fun k => s.registered ws = some k)
        (s.handleMessage faults now ws m)
        (s.handleMessage faults now ws { m with clientId := claimed }) ↔
      s.Attributed faults now ws m ∧ s.Attributed faults now ws { m with clientId := claimed } := by
  rw [nonInterfering_iff framed_view, confined_iff_attributed, confined_iff_attributed]

/-! ### A socket that claims another client -/

/-- "lobby" is registered on socket 1 and "hall" on socket 2; nothing is on socket 0. -/
def lobbyAndHall : MessageServer Unit where
  manager :=
    { connections := fun clientId =>
        if clientId = "lobby" then some 1 else if clientId = "hall" then some 2 else none
      metadata := fun _ => none
      sockets := fun ws =>
        { readyState := .open
          clientId := if ws = 1 then some "lobby" else if ws = 2 then some "hall" else none } }
  store :=
    { playlists := []
      clients := ["lobby", "hall"].map fun id =>
        { id := id, name := id, assignedPlaylistId := .null, interruptedFromPlaylistId := .null
          status := .online, lastSeen := none, version := none, capabilities := none
          updatedAt := "" } }
  media := []
  members _ := []
  schedules := []
  eventLastFired _ := none
  statuses := []
  telemetry := []
  logEvents := []
  notices := []
  events := []

/-- An error report that claims to be of "hall". -/
def hallError : ClientMessage := ⟨"hall", .error "decoder" .null none none⟩

/-- The report on a socket changes what belongs to "hall". -/
theorem view_hallError_ne {ws : SocketId} (hws : ws ∈ [0, 1]) :
    view "hall" ((lobbyAndHall.handleMessage noFaults ⟨"t", 5⟩ ws hallError).foldl
      (fun s w => s.apply ⟨"t", 5⟩ w) lobbyAndHall) ≠ view "hall" lobbyAndHall := by
  revert ws
  decide

/-- **Counterexample.**  On the socket of "lobby", and on the one that has not registered, the
    report marks "hall" as failed. -/
theorem not_nonInterfering_claimed :
    ¬ NonInterfering (fun s w => s.apply ⟨"t", 5⟩ w) Concerns view lobbyAndHall
        (fun k => lobbyAndHall.registered 1 = some k)
        (lobbyAndHall.handleMessage noFaults ⟨"t", 5⟩ 1 hallError)
        (lobbyAndHall.handleMessage noFaults ⟨"t", 5⟩ 1 { hallError with clientId := "lobby" }) ∧
      ¬ NonInterfering (fun s w => s.apply ⟨"t", 5⟩ w) Concerns view lobbyAndHall
        (fun k => lobbyAndHall.registered 0 = some k)
        (lobbyAndHall.handleMessage noFaults ⟨"t", 5⟩ 0 hallError)
        (lobbyAndHall.handleMessage noFaults ⟨"t", 5⟩ 0
          { hallError with clientId := "lobby" }) := by
  constructor
  · intro h
    exact view_hallError_ne (by decide) (h.keeps "hall" (by decide))
  · intro h
    exact view_hallError_ne (by decide) (h.keeps "hall" (by decide))

end MessageServer

end Montr.Server
