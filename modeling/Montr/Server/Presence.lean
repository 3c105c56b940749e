import Montr.Server.ConnectionTable
import Montr.Server.Database

namespace Montr.Server

open Transition Function

/-!
# Who is offline

The status column of `clients` and the `client_state_change` broadcasts beside the connection
table.  Four things write a status: a register, a heartbeat, the close handler and the sweep
`markOfflineClients`, each with awaits in between; `Task` says where a call of one of them
stands, and `advance` lets its next await return.

* `Presence.Agrees` — once nothing is pending, a client with an open socket in the table is
  neither stored nor last announced as offline, and one that had no entry for longer than the
  timeout at the latest sweep is stored as offline;
* `Undisturbed` — no write of `offline` and no `offline` announcement meets a connected client,
  the sweep picks every client it should, and no heartbeat is written after that;
* `agrees_of_undisturbed` — runs of undisturbed steps agree, in every order of the steps.

Times are milliseconds of one clock.  The other columns of a row are left out: no status depends on
them.
-/

/-- A row of `clients`, as far as the statuses go. -/
structure ClientRow where
  id : String
  status : ClientState
  lastSeen : Option Nat
  deriving DecidableEq, Repr

/-- How far a `handleRegister` has got. -/
inductive RegisterPhase
  /-- `getClientById` -/
  | lookup
  /-- `updateClient` of a row that is there -/
  | update (lastSeen : Nat)
  /-- `registerClient` -/
  | create
  /-- `updateClient` after the registration -/
  | setOnline (lastSeen : Nat)
  /-- the row says `online`; `addConnection` is next -/
  | written
  deriving DecidableEq, Repr

/-- A call that waits for the database. -/
inductive Task
  | register (ws : SocketId) (clientId : String) (phase : RegisterPhase)
  /-- `handleHeartbeat`: before its `updateClient`, during it, and after it -/
  | heartbeat (clientId : String)
  | heartbeatWrite (clientId : String) (lastSeen : Nat)
  | heartbeatWritten (clientId : String)
  /-- `updateClientStatusOffline`: before its `updateClient` and during it -/
  | offline (clientId : String)
  | offlineWrite (clientId : String) (lastSeen : Nat)
  /-- `markOfflineClients`: its query, the rows it returned, and the rows still to be marked -/
  | sweep
  | sweepRead (rows : List ClientRow)
  | sweepMark (ids : List String)
  deriving DecidableEq, Repr

/-- A register of the client that has written `online`. -/
def Task.Registers (id : String) : Task → Prop
  | .register _ clientId .written => clientId = id
  | _ => False

/-- A sweep that will mark the client. -/
def Task.Marks (id : String) : Task → Prop
  | .sweepMark ids => id ∈ ids
  | _ => False

/-- The rows that a sweep has still to look at. -/
def Task.ids : Task → List String
  | .sweepRead rows => rows.map ClientRow.id
  | .sweepMark ids => ids
  | _ => []

/-- The server, with what its statement is about: when a client was last in the table, and the
    clock reading of the latest sweep. -/
structure Presence (μ : Type) where
  manager : ClientConnectionManager μ
  clients : List ClientRow
  /-- the latest `client_state_change` of each client -/
  announced : String → Option ClientState
  tasks : Nat → Option Task
  clock : Nat
  lastRegistered : String → Nat
  swept : Option Nat

/-- What happens next. -/
inductive PresenceEvent
  | tick (ms : Nat)
  /-- either side starts closing a socket -/
  | closing (ws : SocketId)
  | closed (task : Nat) (ws : SocketId)
  | register (task : Nat) (ws : SocketId) (clientId : String)
  | heartbeat (task : Nat) (clientId : String)
  | pong (ws : SocketId)
  | healthCheck (heartbeatTimeout : Nat) (order : List String)
  | removeStaleConnections (maxAge : Nat) (order : List String)
  | sweep (task : Nat)
  /-- the next await of a call returns -/
  | advance (task : Nat)
  deriving DecidableEq, Repr

variable {μ : Type}

namespace ClientConnectionManager

/-- `updateHeartbeat`. -/
def updateHeartbeat (m : ClientConnectionManager μ) (clientId : String) (now : Nat) :
    ClientConnectionManager μ :=
  { m with
    sockets := match m.connections clientId with
      | some ws =>
        update m.sockets ws { m.sockets ws with isAlive := true, lastHeartbeat := now }
      | none => m.sockets
    metadata := match m.metadata clientId with
      | some known => update m.metadata clientId (some { known with lastHeartbeat := now })
      | none => m.metadata }

/-- The socket starts closing. -/
def markClosing (m : ClientConnectionManager μ) (ws : SocketId) : ClientConnectionManager μ :=
  { m with sockets := update m.sockets ws { m.sockets ws with readyState := .closing } }

end ClientConnectionManager

/-! ### The rows -/

namespace ClientRow

/-- `SET status, last_seen` on a row; `last_seen` only if given. -/
def write (c : ClientRow) (status : ClientState) (lastSeen : Option Nat) : ClientRow :=
  { c with status := status, lastSeen := lastSeen.or c.lastSeen }

/-- `now - lastSeenTime > timeoutMs`, for a row that has been seen. -/
def stale (timeoutMs now : Nat) (c : ClientRow) : Bool :=
  match c.lastSeen with
  | some lastSeen => decide ((now : Int) - lastSeen > timeoutMs)
  | none => false

end ClientRow

/-- `SELECT * FROM clients WHERE id = ?`. -/
def findClient (clients : List ClientRow) (id : String) : Option ClientRow :=
  clients.find? (·.id == id)

/-- `UPDATE clients SET status, last_seen WHERE id = ?`. -/
def writeClient (clients : List ClientRow) (id : String) (status : ClientState)
    (lastSeen : Option Nat) : List ClientRow :=
  clients.map fun c => if c.id = id then c.write status lastSeen else c

namespace Presence

/-- The stored status. -/
def statusOf (s : Presence μ) (id : String) : Option ClientState :=
  (findClient s.clients id).map ClientRow.status

/-- A call goes on, or ends. -/
def goOn (s : Presence μ) (task : Nat) (next : Option Task) : Presence μ :=
  { s with tasks := update s.tasks task next }

/-- A row is written. -/
def write (s : Presence μ) (id : String) (status : ClientState) (lastSeen : Option Nat) :
    Presence μ :=
  { s with clients := writeClient s.clients id status lastSeen }

/-- The `catch` of `handleRegister`: the socket is closed. -/
def failRegister (s : Presence μ) (ws : SocketId) : Presence μ :=
  if s.manager.isOpen ws then
    { s with manager := s.manager.closeSocket ws 1008 "Registration failed" }
  else s

/-- The next await of a `handleRegister` returns. -/
def advanceRegister (s : Presence μ) (task : Nat) (ws : SocketId) (clientId : String) :
    RegisterPhase → Presence μ
  | .lookup =>
    match findClient s.clients clientId with
    | some _ => s.goOn task (some (.register ws clientId (.update s.clock)))
    | none => s.goOn task (some (.register ws clientId .create))
  | .update lastSeen =>
    match findClient s.clients clientId with
    | some _ =>
      (s.write clientId .online (some lastSeen)).goOn task
        (some (.register ws clientId .written))
    | none => s.goOn task (some (.register ws clientId .create))
  | .create =>
    match findClient s.clients clientId with
    -- `CLIENT_ALREADY_REGISTERED`, or the primary key
    | some _ => (s.failRegister ws).goOn task none
    | none =>
      let row : ClientRow := ⟨clientId, .offline, some s.clock⟩
      { s with clients := s.clients ++ [row] }.goOn task
        (some (.register ws clientId (.setOnline s.clock)))
  | .setOnline lastSeen =>
    match findClient s.clients clientId with
    | some _ =>
      (s.write clientId .online (some lastSeen)).goOn task
        (some (.register ws clientId .written))
    | none => (s.failRegister ws).goOn task none
  | .written =>
    { s with
      manager := s.manager.addConnection clientId ws s.clock
      announced := update s.announced clientId (some .online) }.goOn task none

/-- The next await of a call returns. -/
def advance (timeoutMs : Nat) (s : Presence μ) (task : Nat) : Task → Presence μ
  | .register ws clientId phase => s.advanceRegister task ws clientId phase
  | .heartbeat clientId => s.goOn task (some (.heartbeatWrite clientId s.clock))
  | .heartbeatWrite clientId lastSeen =>
    match findClient s.clients clientId with
    | some _ =>
      (s.write clientId .online (some lastSeen)).goOn task (some (.heartbeatWritten clientId))
    | none => s.goOn task none
  | .heartbeatWritten clientId =>
    { s with manager := s.manager.updateHeartbeat clientId s.clock }.goOn task none
  | .offline clientId => s.goOn task (some (.offlineWrite clientId s.clock))
  | .offlineWrite clientId lastSeen =>
    match findClient s.clients clientId with
    | some _ => (s.write clientId .offline (some lastSeen)).goOn task none
    | none => s.goOn task none
  | .sweep => s.goOn task (some (.sweepRead (s.clients.filter (·.status == .online))))
  | .sweepRead rows =>
    { s with swept := some s.clock }.goOn task
      (some (.sweepMark ((rows.filter (ClientRow.stale timeoutMs s.clock)).map ClientRow.id)))
  | .sweepMark [] => s.goOn task none
  | .sweepMark (id :: rest) =>
    match findClient s.clients id with
    | some _ => (s.write id .offline none).goOn task (some (.sweepMark rest))
    | none => s.goOn task none

/-- A call that is new starts with a task. -/
def start (s : Presence μ) (task : Nat) (first : Task) : Option (Presence μ) :=
  match s.tasks task with
  | none => some (s.goOn task (some first))
  | some _ => none

/-- What an event does. -/
def act (timeoutMs : Nat) (s : Presence μ) : PresenceEvent → Option (Presence μ)
  | .tick ms => some { s with clock := s.clock + ms }
  | .closing ws => some { s with manager := s.manager.markClosing ws }
  | .closed task ws =>
    let s' := { s with manager := (s.manager.markClosed ws).handleDisconnection ws }
    match (s.manager.sockets ws).clientId with
    | none => some s'
    | some clientId =>
      { s' with announced := update s.announced clientId (some .offline) }.start task
        (.offline clientId)
  | .register task ws clientId => s.start task (.register ws clientId .lookup)
  | .heartbeat task clientId =>
    if s.manager.isConnected clientId then s.start task (.heartbeat clientId) else some s
  | .pong ws => some { s with manager := s.manager.pong ws }
  | .healthCheck heartbeatTimeout order =>
    some { s with manager := s.manager.healthCheck heartbeatTimeout s.clock order }
  | .removeStaleConnections maxAge order =>
    some { s with manager := s.manager.removeStaleConnections maxAge s.clock order }
  | .sweep task => s.start task .sweep
  | .advance task => (s.tasks task).map (s.advance timeoutMs task)

/-- The clients in the table are in it now. -/
def observe (s : Presence μ) : Presence μ :=
  { s with lastRegistered := fun id =>
      if (s.manager.connections id).isSome then s.clock else s.lastRegistered id }

/-- One event. -/
def step (timeoutMs : Nat) (s : Presence μ) (e : PresenceEvent) : Option (Presence μ) :=
  (s.act timeoutMs e).map observe

/-- A server that has just started: no connection, any rows. -/
def initial (sockets : SocketId → ExtendedWebSocket μ) (clients : List ClientRow) (clock : Nat) :
    Presence μ where
  manager := ⟨fun _ => none, fun _ => none, sockets⟩
  clients := clients
  announced _ := none
  tasks _ := none
  clock := clock
  lastRegistered _ := clock
  swept := none

/-! ### What is claimed -/

/-- At the latest sweep the client had not been in the table for longer than the timeout, and it
    has not come back. -/
def Overdue (timeoutMs : Nat) (s : Presence μ) (id : String) : Prop :=
  s.manager.connections id = none ∧ ∃ t, s.swept = some t ∧ s.lastRegistered id + timeoutMs < t

/-- **The offline status agrees with the connection table** when nothing is pending. -/
def Agrees (timeoutMs : Nat) (s : Presence μ) : Prop :=
  (∀ task, s.tasks task = none) →
    (∀ id, s.manager.isConnected id = true →
      s.statusOf id ≠ some .offline ∧ s.announced id ≠ some .offline) ∧
    ∀ id status, s.Overdue timeoutMs id → s.statusOf id = some status → status = .offline

/-- The client is connected, or a register of it is about to add its connection. -/
def Engaged (s : Presence μ) (id : String) : Prop :=
  s.manager.isConnected id = true ∨ SomeTask s.tasks (Task.Registers id)

/-- The sweep with these rows passes over no client that has been out of the table for longer
    than the timeout and is not offline, unless it is just coming back. -/
def Complete (timeoutMs : Nat) (s : Presence μ) (rows : List ClientRow) : Prop :=
  ∀ id status, s.manager.connections id = none → s.lastRegistered id + timeoutMs < s.clock →
    s.statusOf id = some status → status ≠ .offline →
    (∃ c ∈ rows, c.id = id ∧ c.stale timeoutMs s.clock = true) ∨
      SomeTask s.tasks (Task.Registers id)

/-- The next await of the call returns at the wrong moment for nobody. -/
def UndisturbedBy (timeoutMs : Nat) (s : Presence μ) : Task → Prop
  | .offlineWrite clientId _ => ¬ s.Engaged clientId
  | .sweepMark (id :: _) => ¬ s.Engaged id
  | .sweepRead rows => s.Complete timeoutMs rows
  | .heartbeatWrite clientId _ => ¬ s.Overdue timeoutMs clientId
  | _ => True

/-- **No `offline` meets a connected client, and none that is due is passed over**: a close event
    leaves the client of its socket without an open connection, `offline` is written only of
    clients that are not engaged, a sweep is complete, and a heartbeat is written only of a client
    that is not overdue. -/
def Undisturbed (timeoutMs : Nat) (s : Presence μ) : PresenceEvent → Prop
  | .closed _ ws =>
    ∀ clientId, (s.manager.sockets ws).clientId = some clientId →
      ((s.manager.markClosed ws).handleDisconnection ws).isConnected clientId = false
  | .advance task => ∀ call, s.tasks task = some call → s.UndisturbedBy timeoutMs call
  | _ => True

/-! ### Rows after a write -/

section

variable {clients : List ClientRow} {id id' : String}

theorem findClient_writeClient_self (status : ClientState) (lastSeen : Option Nat) :
    findClient (writeClient clients id status lastSeen) id =
      (findClient clients id).map fun c => c.write status lastSeen := by
  induction clients with
  | nil => rfl
  | cons c rest ih =>
    show List.find? _ ((if c.id = id then c.write status lastSeen else c) :: _) =
      Option.map _ (List.find? _ (c :: rest))
    by_cases hc : c.id = id
    · rw [if_pos hc, List.find?_cons_of_pos (by simpa [ClientRow.write] using hc),
        List.find?_cons_of_pos (by simpa using hc), Option.map_some]
    · rw [if_neg hc, List.find?_cons_of_neg (by simpa using hc),
        List.find?_cons_of_neg (by simpa using hc)]
      exact ih

theorem findClient_writeClient_of_ne (status : ClientState) (lastSeen : Option Nat)
    (hne : id' ≠ id) :
    findClient (writeClient clients id status lastSeen) id' = findClient clients id' := by
  induction clients with
  | nil => rfl
  | cons c rest ih =>
    show List.find? _ ((if c.id = id then c.write status lastSeen else c) :: _) =
      List.find? _ (c :: rest)
    have hsame : (if c.id = id then c.write status lastSeen else c).id = c.id := by
      split <;> rfl
    by_cases hc : c.id = id'
    · have hother : c.id ≠ id := fun heq => hne (hc.symm.trans heq)
      rw [if_neg hother, List.find?_cons_of_pos (by simpa using hc),
        List.find?_cons_of_pos (by simpa using hc)]
    · rw [List.find?_cons_of_neg (by simpa [hsame] using hc),
        List.find?_cons_of_neg (by simpa using hc)]
      exact ih

theorem findClient_append_of_some {c : ClientRow} (added : ClientRow)
    (h : findClient clients id = some c) : findClient (clients ++ [added]) id = some c := by
  unfold findClient at h ⊢
  rw [List.find?_append, h]
  rfl

end

section

variable {s : Presence μ} {id id' : String} {status : ClientState}

theorem statusOf_of_find {c : ClientRow} (h : findClient s.clients id = some c) :
    s.statusOf id = some c.status := by
  rw [statusOf, h, Option.map_some]

theorem statusOf_write_self {c : ClientRow} (h : findClient s.clients id = some c)
    (lastSeen : Option Nat) : (s.write id status lastSeen).statusOf id = some status := by
  show (findClient (writeClient s.clients id status lastSeen) id).map ClientRow.status = _
  rw [findClient_writeClient_self, h]
  rfl

theorem statusOf_write_of_ne (lastSeen : Option Nat) (hne : id' ≠ id) :
    (s.write id status lastSeen).statusOf id' = s.statusOf id' := by
  show (findClient (writeClient s.clients id status lastSeen) id').map ClientRow.status = _
  rw [findClient_writeClient_of_ne status lastSeen hne]
  rfl

theorem find_of_statusOf (h : s.statusOf id = some status) :
    ∃ c, findClient s.clients id = some c ∧ c.status = status := by
  simpa [statusOf, Option.map_eq_some_iff] using h

end

end Presence

/-! ### What only takes away -/

namespace ClientConnectionManager

/-- Every entry was there before, and every socket that is open was open before. -/
structure Shrinks (m m' : ClientConnectionManager μ) : Prop where
  entries : ∀ id ws, m'.connections id = some ws → m.connections id = some ws
  sockets : ∀ ws, m'.isOpen ws = true → m.isOpen ws = true

variable {m m' m'' : ClientConnectionManager μ}

theorem Shrinks.refl (m : ClientConnectionManager μ) : Shrinks m m :=
  ⟨fun _ _ h => h, fun _ h => h⟩

theorem Shrinks.trans (h : Shrinks m m') (h' : Shrinks m' m'') : Shrinks m m'' :=
  ⟨fun id ws hws => h.entries id ws (h'.entries id ws hws),
    fun ws hws => h.sockets ws (h'.sockets ws hws)⟩

theorem isConnected_iff {id : String} :
    m.isConnected id = true ↔ ∃ ws, m.connections id = some ws ∧ m.isOpen ws = true := by
  unfold isConnected
  cases m.connections id with
  | none => simp
  | some ws => simp

theorem Shrinks.isConnected {id : String} (h : Shrinks m m') (hm' : m'.isConnected id = true) :
    m.isConnected id = true := by
  obtain ⟨ws, hentry, hopen⟩ := isConnected_iff.mp hm'
  exact isConnected_iff.mpr ⟨ws, h.entries id ws hentry, h.sockets ws hopen⟩

/-- A socket that is as open as before, or less. -/
theorem shrinks_update (ws : SocketId) {socket : ExtendedWebSocket μ}
    (h : socket.readyState = .open → (m.sockets ws).readyState = .open) :
    Shrinks m { m with sockets := update m.sockets ws socket } := by
  refine ⟨fun _ _ hentry => hentry, fun s hs => ?_⟩
  by_cases hsw : s = ws
  · subst hsw
    have hopen : (update m.sockets s socket s).readyState = .open := by simpa [isOpen] using hs
    rw [update_self] at hopen
    simpa [isOpen] using h hopen
  · have hsame : update m.sockets ws socket s = m.sockets s := update_of_ne hsw ..
    simpa [isOpen, hsame] using hs

theorem shrinks_markClosing (ws : SocketId) : Shrinks m (m.markClosing ws) :=
  shrinks_update ws fun h => (nomatch h)

theorem shrinks_markClosed (ws : SocketId) : Shrinks m (m.markClosed ws) :=
  shrinks_update ws fun h => (nomatch h)

theorem shrinks_closeSocket (ws : SocketId) (code : Nat) (reason : String) :
    Shrinks m (m.closeSocket ws code reason) :=
  shrinks_update ws fun h => (nomatch h)

theorem shrinks_pong (ws : SocketId) : Shrinks m (m.pong ws) :=
  shrinks_update ws fun h => h

/-- An entry dropped from both maps. -/
theorem shrinks_drop (clientId : String) (metadata : String → Option ConnectionMetadata) :
    Shrinks m
      { m with connections := update m.connections clientId none, metadata := metadata } := by
  refine ⟨fun id ws hentry => ?_, fun _ hopen => hopen⟩
  by_cases hid : id = clientId
  · rw [hid] at hentry
    simp at hentry
  · simpa [update_of_ne hid] using hentry

theorem shrinks_removeConnection (clientId : String) (ws : Option SocketId) :
    Shrinks m (m.removeConnection clientId ws) := by
  unfold removeConnection
  cases hc : m.connections clientId with
  | none => exact .refl m
  | some current =>
    dsimp only
    split
    · exact .refl m
    · split
      · have hclose := shrinks_closeSocket (m := m) current 1000 "Connection removed"
        exact hclose.trans (shrinks_drop clientId _)
      · exact shrinks_drop clientId _

theorem shrinks_handleDisconnection (ws : SocketId) :
    Shrinks m ((m.markClosed ws).handleDisconnection ws) := by
  unfold handleDisconnection
  split
  · exact (shrinks_markClosed ws).trans (shrinks_removeConnection _ _)
  · exact shrinks_markClosed ws

theorem shrinks_foldl {turn : ClientConnectionManager μ → String → ClientConnectionManager μ}
    (keep : ∀ m key, Shrinks m (turn m key)) (order : List String) :
    Shrinks m (order.foldl turn m) := by
  induction order generalizing m with
  | nil => exact .refl m
  | cons key rest ih => exact (keep m key).trans ih

theorem shrinks_healthCheck (heartbeatTimeout now : Nat) (order : List String) :
    Shrinks m (m.healthCheck heartbeatTimeout now order) := by
  apply shrinks_foldl
  intro m key
  unfold checkConnection
  cases m.connections key with
  | none => exact .refl m
  | some ws =>
    dsimp only
    split
    · exact shrinks_removeConnection _ _
    · split
      · exact shrinks_update ws fun h => h
      · split
        · exact shrinks_update ws fun h => h
        · exact .refl m

theorem shrinks_removeStaleConnections (maxAge now : Nat) (order : List String) :
    Shrinks m (m.removeStaleConnections maxAge now order) := by
  apply shrinks_foldl
  intro m key
  unfold removeIfStale
  cases m.connections key with
  | none => exact .refl m
  | some ws =>
    dsimp only
    split
    · exact shrinks_removeConnection _ _
    · exact .refl m

theorem shrinks_updateHeartbeat (clientId : String) (now : Nat) :
    Shrinks m (m.updateHeartbeat clientId now) := by
  refine ⟨fun _ _ hentry => hentry, fun s hs => ?_⟩
  unfold updateHeartbeat at hs
  cases hc : m.connections clientId with
  | none => simpa [isOpen, hc] using hs
  | some ws =>
    have hopen : (update m.sockets ws
        { m.sockets ws with isAlive := true, lastHeartbeat := now } s).readyState = .open := by
      simpa [isOpen, hc] using hs
    by_cases hsw : s = ws
    · subst hsw
      simpa [isOpen] using hopen
    · rw [update_of_ne hsw] at hopen
      simpa [isOpen] using hopen

/-- A register leaves the other clients less connected than before, and its own with an entry. -/
theorem isConnected_addConnection_of_ne {id clientId : String} {ws : SocketId} {now : Nat}
    (hne : id ≠ clientId) (h : (m.addConnection clientId ws now).isConnected id = true) :
    m.isConnected id = true := by
  -- what is stored under `clientId` is not found under `id`
  have hstore : ∀ n, Shrinks m n → (n.storeConnection clientId ws now).isConnected id = true →
      m.isConnected id = true := by
    intro n hn hconnected
    obtain ⟨s, hentry, hopen⟩ := isConnected_iff.mp hconnected
    rw [isOpen_storeConnection] at hopen
    have hold : n.connections id = some s := by
      simpa [storeConnection, update_of_ne hne] using hentry
    exact hn.isConnected (isConnected_iff.mpr ⟨s, hold, hopen⟩)
  unfold addConnection at h
  cases hc : m.connections clientId with
  | none =>
    rw [hc] at h
    exact hstore m (.refl m) h
  | some existing =>
    rw [hc] at h
    dsimp only at h
    split at h
    · split at h
      · exact (shrinks_closeSocket ws 1008 "Duplicate connection").isConnected h
      · exact h
    · refine hstore _ ?_ h
      split
      · exact shrinks_closeSocket existing 1000 "New connection established"
      · exact .refl m

theorem addConnection_ne_none (m : ClientConnectionManager μ) (clientId : String) (ws : SocketId)
    (now : Nat) : (m.addConnection clientId ws now).connections clientId ≠ none := by
  unfold addConnection
  cases hc : m.connections clientId with
  | none => simp
  | some existing =>
    dsimp only
    split
    · split
      · simp [hc]
      · simp [hc]
    · simp

end ClientConnectionManager

namespace Presence

variable {timeoutMs : Nat} {s t : Presence μ}

/-! ### The invariant -/

/-- What every undisturbed event keeps, but for the observation at its end. -/
structure Sound (timeoutMs : Nat) (s : Presence μ) : Prop where
  /-- who is engaged is stored, and not as offline -/
  online : ∀ id, s.Engaged id → ∃ status, s.statusOf id = some status ∧ status ≠ .offline
  announced : ∀ id, s.manager.isConnected id = true → s.announced id ≠ some .offline
  /-- who should be offline and is not will be marked, or come back -/
  promised : ∀ id status, s.Overdue timeoutMs id → s.statusOf id = some status →
    status ≠ .offline → SomeTask s.tasks (Task.Marks id) ∨ SomeTask s.tasks (Task.Registers id)
  swept : ∀ now, s.swept = some now → now ≤ s.clock
  stored : ∀ task call, s.tasks task = some call → ∀ id ∈ call.ids, s.statusOf id ≠ none

/-- Who is in the table was so a moment ago. -/
def Observed (s : Presence μ) : Prop :=
  ∀ id, s.manager.connections id ≠ none → s.lastRegistered id = s.clock

/-- The observation changes nothing the invariant speaks about: who is overdue has no entry. -/
theorem overdue_observe {id : String} :
    s.observe.Overdue timeoutMs id ↔ s.Overdue timeoutMs id := by
  unfold Overdue
  refine and_congr_right fun hnone => ?_
  have hnone' : s.manager.connections id = none := hnone
  have hlast : s.observe.lastRegistered id = s.lastRegistered id := by
    simp [observe, hnone']
  rw [hlast]
  rfl

theorem Sound.observe (h : Sound timeoutMs s) : Sound timeoutMs s.observe where
  online := h.online
  announced := h.announced
  promised id status hoverdue := h.promised id status (overdue_observe.mp hoverdue)
  swept := h.swept
  stored := h.stored

theorem observed_observe (s : Presence μ) : Observed s.observe := by
  intro id hentry
  have hentry' : s.manager.connections id ≠ none := hentry
  have hsome : (s.manager.connections id).isSome = true := by
    simpa [Option.isSome_iff_ne_none] using hentry'
  simp [Presence.observe, hsome]

/-- Without a sweep, nobody becomes overdue by an event: who was in the table before it was seen
    there after the latest sweep. -/
theorem overdue_before {id : String} (h : Sound timeoutMs s) (observed : Observed s)
    (hoverdue : t.Overdue timeoutMs id) (swept : t.swept = s.swept)
    (last : t.lastRegistered = s.lastRegistered) : s.Overdue timeoutMs id := by
  obtain ⟨-, now, hnow, hlong⟩ := hoverdue
  rw [swept] at hnow
  rw [last] at hlong
  refine ⟨?_, now, hnow, hlong⟩
  by_contra hentry
  have hseen := observed id hentry
  have hle := h.swept now hnow
  omega

/-! ### What each kind of change keeps -/

section

variable {id : String} {task : Nat} {next : Option Task} {status : ClientState}
  {lastSeen : Option Nat} {c : ClientRow}

theorem Sound.tick (h : Sound timeoutMs s) (ms : Nat) :
    Sound timeoutMs { s with clock := s.clock + ms } where
  online := h.online
  announced := h.announced
  promised := h.promised
  swept now hnow := by
    have hle := h.swept now hnow
    show now ≤ s.clock + ms
    omega
  stored := h.stored

/-- A table that only shrinks. -/
theorem Sound.shrink (h : Sound timeoutMs s) (observed : Observed s)
    {m : ClientConnectionManager μ} (shrinks : ClientConnectionManager.Shrinks s.manager m) :
    Sound timeoutMs { s with manager := m } where
  online id hengaged := by
    rcases hengaged with hconnected | hregister
    · exact h.online id (.inl (shrinks.isConnected hconnected))
    · exact h.online id (.inr hregister)
  announced id hconnected := h.announced id (shrinks.isConnected hconnected)
  promised id status hoverdue := h.promised id status (overdue_before h observed hoverdue rfl rfl)
  swept := h.swept
  stored := h.stored

/-- `offline` announced of a client that is not connected. -/
theorem Sound.announceOffline (h : Sound timeoutMs s) (gone : s.manager.isConnected id = false) :
    Sound timeoutMs { s with announced := update s.announced id (some .offline) } where
  online := h.online
  announced id' hconnected := by
    have hconnected' : s.manager.isConnected id' = true := hconnected
    by_cases hid : id' = id
    · rw [hid, gone] at hconnected'
      exact Bool.noConfusion hconnected'
    · show update s.announced id (some .offline) id' ≠ _
      rw [update_of_ne hid]
      exact h.announced id' hconnected'
  promised := h.promised
  swept := h.swept
  stored := h.stored

/-- A call goes on that was no register past its write, and that loses no mark. -/
theorem Sound.goOn (h : Sound timeoutMs s)
    (old : ∀ call, s.tasks task = some call → ∀ id, ¬ call.Registers id ∧
      (call.Marks id → s.statusOf id = some .offline ∨ ∃ call', next = some call' ∧ call'.Marks id))
    (new : ∀ call, next = some call →
      (∀ id, ¬ call.Registers id) ∧ ∀ id ∈ call.ids, s.statusOf id ≠ none) :
    Sound timeoutMs (s.goOn task next) where
  online id hengaged := by
    rcases hengaged with hconnected | hregister
    · exact h.online id (.inl hconnected)
    · -- a register past its write is another call, as this one does not go on to one
      rcases hregister.of_update with ⟨call, hnext, hregisters⟩ | hbefore
      · exact absurd hregisters ((new call hnext).1 id)
      · exact h.online id (.inr hbefore)
  announced := h.announced
  promised id status hoverdue hstatus hne := by
    rcases h.promised id status hoverdue hstatus hne with hmarks | hregisters
    · left
      obtain ⟨j, call, hcall, hmark⟩ := hmarks
      -- the mark is on another call, passed on, or spent on the row
      by_cases hj : j = task
      · subst hj
        rcases (old call hcall id).2 hmark with hoffline | ⟨call', hnext, hmark'⟩
        · have hstatus' : s.statusOf id = some status := hstatus
          rw [hstatus'] at hoffline
          exact absurd (Option.some.inj hoffline) hne
        · rw [hnext]
          exact someTask_update_self j hmark'
      · exact ⟨j, call, by rw [← hcall]; exact update_of_ne hj .., hmark⟩
    · exact .inr (hregisters.update next fun call hcall => (old call hcall id).1)
  swept := h.swept
  stored j call hcall id hid := by
    rcases of_update hcall with ⟨-, hnext⟩ | ⟨-, hbefore⟩
    · exact (new call hnext).2 id hid
    · exact h.stored j call hbefore id hid

/-- A write takes no client out of the table of rows. -/
theorem statusOf_write_ne_none (hfind : findClient s.clients id = some c) {id' : String}
    (h : s.statusOf id' ≠ none) : (s.write id status lastSeen).statusOf id' ≠ none := by
  by_cases hid : id' = id
  · rw [hid, statusOf_write_self hfind]
    exact Option.some_ne_none _
  · rwa [statusOf_write_of_ne lastSeen hid]

/-- `offline` written of a client that is not engaged. -/
theorem Sound.writeOffline (h : Sound timeoutMs s) (hfind : findClient s.clients id = some c)
    (idle : ¬ s.Engaged id) : Sound timeoutMs (s.write id .offline lastSeen) where
  online id' hengaged := by
    -- an engaged client is another one
    have hne : id' ≠ id := by
      rintro rfl
      exact idle hengaged
    rw [statusOf_write_of_ne lastSeen hne]
    exact h.online id' hengaged
  announced := h.announced
  promised id' status hoverdue hstatus hne := by
    by_cases hid : id' = id
    · rw [hid, statusOf_write_self hfind] at hstatus
      exact absurd (Option.some.inj hstatus).symm hne
    · rw [statusOf_write_of_ne lastSeen hid] at hstatus
      exact h.promised id' status hoverdue hstatus hne
  swept := h.swept
  stored j call hcall id' hid' := statusOf_write_ne_none hfind (h.stored j call hcall id' hid')

/-- `online` written of a client that is not overdue. -/
theorem Sound.writeOnline (h : Sound timeoutMs s) (hfind : findClient s.clients id = some c)
    (due : ¬ s.Overdue timeoutMs id) : Sound timeoutMs (s.write id .online lastSeen) where
  online id' hengaged := by
    by_cases hid : id' = id
    · rw [hid, statusOf_write_self hfind]
      exact ⟨.online, rfl, fun hc => (nomatch hc)⟩
    · rw [statusOf_write_of_ne lastSeen hid]
      exact h.online id' hengaged
  announced := h.announced
  promised id' status hoverdue hstatus hne := by
    -- whoever is promised is another client
    have hid : id' ≠ id := by
      rintro rfl
      exact due hoverdue
    rw [statusOf_write_of_ne lastSeen hid] at hstatus
    exact h.promised id' status hoverdue hstatus hne
  swept := h.swept
  stored j call hcall id' hid' := statusOf_write_ne_none hfind (h.stored j call hcall id' hid')

/-- A register writes `online`: from now on the client is engaged. -/
theorem Sound.writeRegister (h : Sound timeoutMs s) (hfind : findClient s.clients id = some c)
    {ws : SocketId} {phase : RegisterPhase} (hphase : phase ≠ .written)
    (hcall : s.tasks task = some (.register ws id phase)) :
    Sound timeoutMs
      ((s.write id .online lastSeen).goOn task (some (.register ws id .written))) where
  online id' hengaged := by
    show ∃ status, (s.write id .online lastSeen).statusOf id' = some status ∧ _
    by_cases hid : id' = id
    · rw [hid, statusOf_write_self hfind]
      exact ⟨.online, rfl, fun hc => (nomatch hc)⟩
    · rw [statusOf_write_of_ne lastSeen hid]
      rcases hengaged with hconnected | hregister
      · exact h.online id' (.inl hconnected)
      · rcases hregister.of_update with ⟨call, hnext, hregisters⟩ | hbefore
        · obtain rfl := Option.some.inj hnext
          exact absurd hregisters.symm hid
        · exact h.online id' (.inr hbefore)
  announced := h.announced
  promised id' status hoverdue hstatus hne := by
    by_cases hid : id' = id
    · rw [hid]
      exact .inr (someTask_update_self task rfl)
    · have hstatus' : s.statusOf id' = some status := by
        rw [← statusOf_write_of_ne lastSeen hid]
        exact hstatus
      -- the call neither marked nor was past its write before
      have hother : ∀ call, s.tasks task = some call → ¬ call.Marks id' ∧ ¬ call.Registers id' := by
        intro call hc
        rw [hcall] at hc
        obtain rfl := Option.some.inj hc
        refine ⟨fun hmarks => hmarks, fun hregisters => ?_⟩
        cases phase <;> first | exact hphase rfl | exact hregisters
      rcases h.promised id' status hoverdue hstatus' hne with hmarks | hregisters
      · exact .inl (hmarks.update _ fun call hc => (hother call hc).1)
      · exact .inr (hregisters.update _ fun call hc => (hother call hc).2)
  swept := h.swept
  stored j call hc id' hid' := by
    show (s.write id .online lastSeen).statusOf id' ≠ none
    rcases of_update hc with ⟨-, hnext⟩ | ⟨-, hbefore⟩
    · obtain rfl := Option.some.inj hnext
      exact absurd hid' List.not_mem_nil
    · exact statusOf_write_ne_none hfind (h.stored j call hbefore id' hid')

/-- A register enters the table. -/
theorem Sound.addConnection (h : Sound timeoutMs s) (observed : Observed s) {ws : SocketId}
    (hcall : s.tasks task = some (.register ws id .written)) :
    Sound timeoutMs
      ({ s with
        manager := s.manager.addConnection id ws s.clock
        announced := update s.announced id (some .online) }.goOn task none) where
  online id' hengaged := by
    show ∃ status, s.statusOf id' = some status ∧ _
    by_cases hid : id' = id
    · rw [hid]
      exact h.online id (.inr ⟨task, _, hcall, rfl⟩)
    · rcases hengaged with hconnected | hregister
      · exact h.online id' (.inl
          (ClientConnectionManager.isConnected_addConnection_of_ne hid hconnected))
      · rcases hregister.of_update with ⟨call, hnext, -⟩ | hbefore
        · exact nomatch hnext
        · exact h.online id' (.inr hbefore)
  announced id' hconnected := by
    show update s.announced id (some .online) id' ≠ _
    by_cases hid : id' = id
    · rw [hid, update_self]
      exact fun hc => (nomatch hc)
    · rw [update_of_ne hid]
      exact h.announced id'
        (ClientConnectionManager.isConnected_addConnection_of_ne hid hconnected)
  promised id' status hoverdue hstatus hne := by
    -- the client has an entry now, and nothing is promised of it
    have hid : id' ≠ id := by
      rintro rfl
      exact s.manager.addConnection_ne_none id' ws s.clock hoverdue.1
    have hother : ∀ call, s.tasks task = some call → ¬ call.Marks id' ∧ ¬ call.Registers id' := by
      intro call hc
      rw [hcall] at hc
      obtain rfl := Option.some.inj hc
      exact ⟨fun hmarks => hmarks, fun hregisters => hid hregisters.symm⟩
    rcases h.promised id' status (overdue_before h observed hoverdue rfl rfl) hstatus hne with
      hmarks | hregisters
    · exact .inl (hmarks.update _ fun call hc => (hother call hc).1)
    · exact .inr (hregisters.update _ fun call hc => (hother call hc).2)
  swept := h.swept
  stored j call hc id' hid' := by
    rcases of_update hc with ⟨-, hnext⟩ | ⟨-, hbefore⟩
    · exact nomatch hnext
    · exact h.stored j call hbefore id' hid'

/-- A complete sweep starts marking: who is overdue from now on is marked, or coming back. -/
theorem Sound.sweepMark (h : Sound timeoutMs s) {rows : List ClientRow}
    (hcall : s.tasks task = some (.sweepRead rows)) (complete : s.Complete timeoutMs rows) :
    Sound timeoutMs
      ({ s with swept := some s.clock }.goOn task
        (some (.sweepMark ((rows.filter (ClientRow.stale timeoutMs s.clock)).map ClientRow.id))))
    where
  online id' hengaged := by
    rcases hengaged with hconnected | hregister
    · exact h.online id' (.inl hconnected)
    · rcases hregister.of_update with ⟨call, hnext, hregisters⟩ | hbefore
      · obtain rfl := Option.some.inj hnext
        exact hregisters.elim
      · exact h.online id' (.inr hbefore)
  announced := h.announced
  promised id' status hoverdue hstatus hne := by
    obtain ⟨hnone, now, hnow, hlong⟩ := hoverdue
    obtain rfl := Option.some.inj hnow
    -- an overdue row is in the snapshot, or its client is coming back
    rcases complete id' status hnone hlong hstatus hne with ⟨c, hc, hid, hstale⟩ | hregisters
    · refine .inl (someTask_update_self task ?_)
      show id' ∈ (rows.filter _).map ClientRow.id
      exact List.mem_map.mpr ⟨c, List.mem_filter.mpr ⟨hc, hstale⟩, hid⟩
    · refine .inr (hregisters.update _ fun call hc hregister => ?_)
      rw [hcall] at hc
      obtain rfl := Option.some.inj hc
      exact hregister
  swept now hnow := by
    obtain rfl := Option.some.inj hnow
    exact Nat.le_refl _
  stored j call hc id' hid' := by
    rcases of_update hc with ⟨-, hnext⟩ | ⟨-, hbefore⟩
    · obtain rfl := Option.some.inj hnext
      obtain ⟨c, hmem, rfl⟩ := List.mem_map.mp hid'
      exact h.stored task _ hcall c.id (List.mem_map_of_mem (List.mem_filter.mp hmem).1)
    · exact h.stored j call hbefore id' hid'

/-- A new row. -/
theorem Sound.insert (h : Sound timeoutMs s) (id : String) (seen : Option Nat) :
    Sound timeoutMs { s with clients := s.clients ++ [⟨id, .offline, seen⟩] } := by
  -- `find?` goes on answering the old row of an id that had one
  have hstatus : ∀ id', s.statusOf id' ≠ none →
      Presence.statusOf { s with clients := s.clients ++ [⟨id, .offline, seen⟩] } id' =
        s.statusOf id' := by
    intro id' hsome
    obtain ⟨status, hstatus⟩ := Option.ne_none_iff_exists'.mp hsome
    obtain ⟨c, hc, -⟩ := find_of_statusOf hstatus
    rw [statusOf_of_find hc]
    exact statusOf_of_find (findClient_append_of_some _ hc)
  have hnew : ∀ id', s.statusOf id' = none → ∀ status,
      Presence.statusOf { s with clients := s.clients ++ [⟨id, .offline, seen⟩] } id' =
        some status → status = .offline := by
    intro id' hnone status hsome
    obtain ⟨c, hc, rfl⟩ := find_of_statusOf hsome
    have hnone' : findClient s.clients id' = none := by
      simpa [statusOf] using hnone
    unfold findClient at hc hnone'
    rw [List.find?_append, hnone', Option.none_or] at hc
    have hmem := List.mem_of_find?_eq_some hc
    rw [List.mem_singleton.mp hmem]
  constructor
  · intro id' hengaged
    obtain ⟨status, hold, hne⟩ := h.online id' hengaged
    exact ⟨status, by rw [hstatus id' (by rw [hold]; simp), hold], hne⟩
  · exact h.announced
  · intro id' status hoverdue hsome hne
    by_cases hold : s.statusOf id' = none
    · exact absurd (hnew id' hold status hsome) hne
    · rw [hstatus id' hold] at hsome
      exact h.promised id' status hoverdue hsome hne
  · exact h.swept
  · intro j call hcall id' hid'
    have hold := h.stored j call hcall id' hid'
    rw [hstatus id' hold]
    exact hold

end

/-! ### Runs -/

section

variable {task : Nat}

theorem Sound.start (h : Sound timeoutMs s) {first : Task}
    (new : (∀ id, ¬ first.Registers id) ∧ first.ids = []) (hstart : s.start task first = some t) :
    Sound timeoutMs t := by
  unfold Presence.start at hstart
  cases hnone : s.tasks task with
  | some _ => simp [hnone] at hstart
  | none =>
    rw [hnone] at hstart
    obtain rfl := Option.some.inj hstart
    refine h.goOn (fun call hcall => ?_) fun call hcall => ?_
    · rw [hnone] at hcall
      exact nomatch hcall
    · obtain rfl := Option.some.inj hcall
      refine ⟨new.1, fun id hid => ?_⟩
      rw [new.2] at hid
      exact absurd hid List.not_mem_nil

/-- A call that is neither a register past its write nor a sweep goes on, to another such, ... -/
theorem Sound.goOnQuietly (h : Sound timeoutMs s) {old next : Task}
    (hcall : s.tasks task = some old) (quiet : ∀ id, ¬ old.Registers id ∧ ¬ old.Marks id)
    (registers : ∀ id, ¬ next.Registers id) (ids : next.ids = []) :
    Sound timeoutMs (s.goOn task (some next)) := by
  refine h.goOn (fun call hc id => ?_) fun call hc => ?_
  · rw [hcall] at hc
    obtain rfl := Option.some.inj hc
    exact ⟨(quiet id).1, fun hmarks => absurd hmarks (quiet id).2⟩
  · obtain rfl := Option.some.inj hc
    refine ⟨registers, fun id hid => ?_⟩
    rw [ids] at hid
    exact absurd hid List.not_mem_nil

/-- ... or ends. -/
theorem Sound.finish (h : Sound timeoutMs s) {old : Task} (hcall : s.tasks task = some old)
    (quiet : ∀ id, ¬ old.Registers id ∧ ¬ old.Marks id) : Sound timeoutMs (s.goOn task none) := by
  refine h.goOn (fun call hc id => ?_) fun call hc => absurd hc (Option.some_ne_none call).symm
  rw [hcall] at hc
  obtain rfl := Option.some.inj hc
  exact ⟨(quiet id).1, fun hmarks => absurd hmarks (quiet id).2⟩

theorem Sound.failRegister (h : Sound timeoutMs s) (observed : Observed s) (ws : SocketId) :
    Sound timeoutMs (s.failRegister ws) := by
  unfold Presence.failRegister
  split
  · exact h.shrink observed (ClientConnectionManager.shrinks_closeSocket ws _ _)
  · exact h

theorem failRegister_tasks (ws : SocketId) : (s.failRegister ws).tasks = s.tasks := by
  unfold failRegister
  split <;> rfl

/-- A register before its write is quiet. -/
theorem quiet_of_register (ws : SocketId) (clientId : String) {phase : RegisterPhase}
    (hphase : phase ≠ .written) (id : String) :
    ¬ (Task.register ws clientId phase).Registers id ∧
      ¬ (Task.register ws clientId phase).Marks id := by
  refine ⟨fun hregisters => ?_, fun hmarks => hmarks⟩
  cases phase <;> first | exact hphase rfl | exact hregisters

theorem Sound.advanceRegister (h : Sound timeoutMs s) (observed : Observed s) {ws : SocketId}
    {clientId : String} {phase : RegisterPhase}
    (hcall : s.tasks task = some (.register ws clientId phase)) :
    Sound timeoutMs (s.advanceRegister task ws clientId phase) := by
  by_cases hphase : phase = .written
  · subst hphase
    exact h.addConnection observed hcall
  have hquiet := quiet_of_register ws clientId hphase
  -- to another phase before the write
  have hnext : ∀ {u : Presence μ}, Sound timeoutMs u → u.tasks task = s.tasks task →
      ∀ phase', phase' ≠ .written →
        Sound timeoutMs (u.goOn task (some (.register ws clientId phase'))) := by
    intro u hu htask phase' hphase'
    exact hu.goOnQuietly (htask.trans hcall) hquiet
      (fun id => (quiet_of_register ws clientId hphase' id).1) rfl
  have hfails : Sound timeoutMs ((s.failRegister ws).goOn task none) := by
    refine (h.failRegister observed ws).finish ?_ hquiet
    rw [failRegister_tasks]
    exact hcall
  cases hfind : findClient s.clients clientId with
  | some c =>
    cases phase with
    | lookup =>
      simp only [Presence.advanceRegister, hfind]
      exact hnext h rfl _ fun hc => (nomatch hc)
    | update lastSeen =>
      simp only [Presence.advanceRegister, hfind]
      exact h.writeRegister hfind hphase hcall
    | create =>
      simp only [Presence.advanceRegister, hfind]
      exact hfails
    | setOnline lastSeen =>
      simp only [Presence.advanceRegister, hfind]
      exact h.writeRegister hfind hphase hcall
    | written => exact absurd rfl hphase
  | none =>
    cases phase with
    | lookup =>
      simp only [Presence.advanceRegister, hfind]
      exact hnext h rfl _ fun hc => (nomatch hc)
    | update lastSeen =>
      simp only [Presence.advanceRegister, hfind]
      exact hnext h rfl _ fun hc => (nomatch hc)
    | create =>
      simp only [Presence.advanceRegister, hfind]
      exact hnext (h.insert clientId _) rfl _ fun hc => (nomatch hc)
    | setOnline lastSeen =>
      simp only [Presence.advanceRegister, hfind]
      exact hfails
    | written => exact absurd rfl hphase

/-- A sweep has read its snapshot: the rows in it are stored. -/
theorem Sound.sweepSnapshot (h : Sound timeoutMs s) (hcall : s.tasks task = some .sweep) :
    Sound timeoutMs (s.advance timeoutMs task .sweep) := by
  refine h.goOn (fun call hc _ => ?_) fun call hc => ?_
  · rw [hcall] at hc
    obtain rfl := Option.some.inj hc
    exact ⟨fun hregisters => hregisters, fun hmarks => hmarks.elim⟩
  · obtain rfl := Option.some.inj hc
    refine ⟨fun _ hregisters => hregisters, fun id hid => ?_⟩
    obtain ⟨c, hmem, rfl⟩ := List.mem_map.mp hid
    have hthere : findClient s.clients c.id ≠ none := by
      intro hnone
      have hno := List.find?_eq_none.mp hnone c (List.mem_filter.mp hmem).1
      simp at hno
    simpa [statusOf] using hthere

/-- A sweep writes its next mark: it is spent on a row that now says `offline`, and the others
    stay. -/
theorem Sound.writeMark (h : Sound timeoutMs s) {marked : String} {rest : List String}
    (hcall : s.tasks task = some (.sweepMark (marked :: rest)))
    (undisturbed : s.UndisturbedBy timeoutMs (.sweepMark (marked :: rest))) :
    Sound timeoutMs (s.advance timeoutMs task (.sweepMark (marked :: rest))) := by
  have hstored := h.stored task _ hcall
  cases hfind : findClient s.clients marked with
  | none =>
    have hthere := hstored marked List.mem_cons_self
    simp [statusOf, hfind] at hthere
  | some c =>
    simp only [Presence.advance, hfind]
    refine (h.writeOffline hfind undisturbed).goOn (fun call hc id => ?_) fun call hc => ?_
    · have hc' : s.tasks task = some call := hc
      rw [hcall] at hc'
      obtain rfl := Option.some.inj hc'
      refine ⟨fun hregisters => hregisters, fun hmarks => ?_⟩
      rcases List.mem_cons.mp hmarks with rfl | hrest
      · exact .inl (statusOf_write_self hfind none)
      · exact .inr ⟨_, rfl, hrest⟩
    · obtain rfl := Option.some.inj hc
      refine ⟨fun _ hregisters => hregisters, fun id hid => ?_⟩
      exact statusOf_write_ne_none hfind (hstored id (List.mem_cons_of_mem _ hid))

/-- **The next await of a call**, at no wrong moment. -/
theorem Sound.advance (h : Sound timeoutMs s) (observed : Observed s) {call : Task}
    (hcall : s.tasks task = some call) (undisturbed : s.UndisturbedBy timeoutMs call) :
    Sound timeoutMs (s.advance timeoutMs task call) := by
  cases call with
  | register ws clientId phase => exact h.advanceRegister observed hcall
  | heartbeat clientId =>
    exact h.goOnQuietly hcall (fun _ => ⟨id, id⟩) (fun _ => id) rfl
  | heartbeatWrite clientId lastSeen =>
    cases hfind : findClient s.clients clientId with
    | none =>
      simp only [Presence.advance, hfind]
      exact h.finish hcall fun _ => ⟨id, id⟩
    | some c =>
      simp only [Presence.advance, hfind]
      exact (h.writeOnline hfind undisturbed).goOnQuietly hcall (fun _ => ⟨id, id⟩)
        (fun _ => id) rfl
  | heartbeatWritten clientId =>
    have hbeats := h.shrink observed
      (ClientConnectionManager.shrinks_updateHeartbeat clientId s.clock)
    exact hbeats.finish hcall fun _ => ⟨id, id⟩
  | offline clientId =>
    exact h.goOnQuietly hcall (fun _ => ⟨id, id⟩) (fun _ => id) rfl
  | offlineWrite clientId lastSeen =>
    cases hfind : findClient s.clients clientId with
    | none =>
      simp only [Presence.advance, hfind]
      exact h.finish hcall fun _ => ⟨id, id⟩
    | some c =>
      simp only [Presence.advance, hfind]
      exact (h.writeOffline hfind undisturbed).finish hcall fun _ => ⟨id, id⟩
  | sweep => exact h.sweepSnapshot hcall
  | sweepRead rows => exact h.sweepMark hcall undisturbed
  | sweepMark ids =>
    cases ids with
    | nil => exact h.finish hcall fun _ => ⟨id, fun hmarks => absurd hmarks List.not_mem_nil⟩
    | cons marked rest => exact h.writeMark hcall undisturbed

/-- **One event.** -/
theorem Sound.act {e : PresenceEvent} (h : Sound timeoutMs s) (observed : Observed s)
    (undisturbed : s.Undisturbed timeoutMs e) (hact : s.act timeoutMs e = some t) :
    Sound timeoutMs t := by
  cases e with
  | tick ms =>
    obtain rfl := Option.some.inj hact
    exact h.tick ms
  | closing ws =>
    obtain rfl := Option.some.inj hact
    exact h.shrink observed (ClientConnectionManager.shrinks_markClosing ws)
  | closed task ws =>
    -- the entry goes first, and the broadcast follows
    have hclosed := h.shrink observed
      (ClientConnectionManager.shrinks_handleDisconnection (m := s.manager) ws)
    cases hid : (s.manager.sockets ws).clientId with
    | none =>
      simp only [Presence.act, hid] at hact
      obtain rfl := Option.some.inj hact
      exact hclosed
    | some clientId =>
      simp only [Presence.act, hid] at hact
      refine (hclosed.announceOffline (undisturbed clientId hid)).start ⟨?_, rfl⟩ hact
      exact fun _ hregisters => hregisters
  | register task ws clientId =>
    have hphase : RegisterPhase.lookup ≠ .written := fun hc => (nomatch hc)
    exact h.start ⟨fun id => (quiet_of_register ws clientId hphase id).1, rfl⟩ hact
  | heartbeat task clientId =>
    by_cases hconnected : s.manager.isConnected clientId = true
    · simp only [Presence.act, hconnected, if_true] at hact
      refine h.start ⟨fun _ hregisters => ?_, rfl⟩ hact
      exact hregisters
    · simp only [Presence.act, hconnected] at hact
      obtain rfl := Option.some.inj hact
      exact h
  | pong ws =>
    obtain rfl := Option.some.inj hact
    exact h.shrink observed (ClientConnectionManager.shrinks_pong ws)
  | healthCheck heartbeatTimeout order =>
    obtain rfl := Option.some.inj hact
    exact h.shrink observed (ClientConnectionManager.shrinks_healthCheck _ _ _)
  | removeStaleConnections maxAge order =>
    obtain rfl := Option.some.inj hact
    exact h.shrink observed (ClientConnectionManager.shrinks_removeStaleConnections _ _ _)
  | sweep task =>
    refine h.start ⟨fun _ hregisters => ?_, rfl⟩ hact
    exact hregisters
  | advance task =>
    obtain ⟨call, hcall, rfl⟩ := Option.map_eq_some_iff.mp hact
    exact h.advance observed hcall (undisturbed call hcall)

end

theorem sound_initial (sockets : SocketId → ExtendedWebSocket μ) (clients : List ClientRow)
    (clock : Nat) : Sound timeoutMs (initial sockets clients clock) where
  online id hengaged := by
    rcases hengaged with hconnected | ⟨_, _, hcall, _⟩
    · exact Bool.noConfusion hconnected
    · exact nomatch hcall
  announced id hconnected := Bool.noConfusion hconnected
  promised id status hoverdue := by
    obtain ⟨_, now, hnow, _⟩ := hoverdue
    exact nomatch hnow
  swept now hnow := nomatch hnow
  stored task call hcall := nomatch hcall

/-- With nothing pending, a promise is kept. -/
theorem Sound.agrees (h : Sound timeoutMs s) : Agrees timeoutMs s := by
  intro quiet
  -- no call is left that could still owe a write
  have hno : ∀ P, ¬ SomeTask s.tasks P := by
    rintro P ⟨task, call, hcall, -⟩
    rw [quiet task] at hcall
    exact nomatch hcall
  refine ⟨fun id hconnected => ⟨fun hoffline => ?_, h.announced id hconnected⟩, ?_⟩
  · obtain ⟨status, hstatus, hne⟩ := h.online id (.inl hconnected)
    rw [hstatus] at hoffline
    exact hne (Option.some.inj hoffline)
  · intro id status hoverdue hstatus
    by_contra hne
    rcases h.promised id status hoverdue hstatus hne with hmarks | hregisters
    · exact hno _ hmarks
    · exact hno _ hregisters

/-- What holds between two events of an undisturbed run. -/
def Kept (timeoutMs : Nat) (s : Presence μ) : Prop := Sound timeoutMs s ∧ Observed s

theorem Kept.step {e : PresenceEvent} (h : Kept timeoutMs s)
    (undisturbed : s.Undisturbed timeoutMs e) (hstep : s.step timeoutMs e = some t) :
    Kept timeoutMs t := by
  obtain ⟨u, hact, rfl⟩ := Option.map_eq_some_iff.mp hstep
  exact ⟨(h.1.act h.2 undisturbed hact).observe, observed_observe u⟩

/-- **The offline status agrees with the connection table in every undisturbed run.**  From any
    rows, in any interleaving of the calls' awaits. -/
theorem agrees_of_undisturbed (sockets : SocketId → ExtendedWebSocket μ)
    (clients : List ClientRow) (clock : Nat) {events : List PresenceEvent}
    (run : Guarded (step timeoutMs) (Undisturbed timeoutMs) (initial sockets clients clock)
      events s) : Agrees timeoutMs s := by
  have hstart : Kept timeoutMs (initial sockets clients clock) :=
    ⟨sound_initial sockets clients clock, fun id hentry => absurd rfl hentry⟩
  have hkept : Kept timeoutMs s := run.invariant hstart fun _ _ _ h => h.step
  exact hkept.1.agrees

/-! ### Concrete runs -/

/-- Open sockets, none of which has registered. -/
def openSockets : SocketId → ExtendedWebSocket String := fun _ => { readyState := .open }

/-- A player registers for the first time, closes its socket, and is stored as offline. -/
def comeAndGo : List PresenceEvent :=
  [.register 0 0 "lobby", .advance 0, .advance 0, .advance 0, .advance 0, .closed 1 0,
    .advance 1, .advance 1]

theorem undisturbed_advance {task : Nat} {call : Task} (hcall : s.tasks task = some call)
    (h : s.UndisturbedBy timeoutMs call) : s.Undisturbed timeoutMs (.advance task) := by
  intro call' hcall'
  rw [hcall] at hcall'
  obtain rfl := Option.some.inj hcall'
  exact h

theorem agrees_of_undisturbed_comeAndGo :
    ∃ s, exec (step 120000) (initial openSockets [] 0) comeAndGo = some s ∧
      s.statusOf "lobby" = some .offline ∧ Agrees 120000 s := by
  refine ⟨_, rfl, by decide, ?_⟩
  refine @agrees_of_undisturbed String 120000 _ openSockets [] 0 comeAndGo ?_
  refine .cons trivial rfl ?_
  refine .cons (undisturbed_advance rfl trivial) rfl ?_
  refine .cons (undisturbed_advance rfl trivial) rfl ?_
  refine .cons (undisturbed_advance rfl trivial) rfl ?_
  refine .cons (undisturbed_advance rfl trivial) rfl ?_
  refine .cons (fun clientId hid => ?_) rfl ?_
  · obtain rfl : "lobby" = clientId := Option.some.inj hid
    decide
  refine .cons (undisturbed_advance rfl trivial) rfl ?_
  refine .cons (undisturbed_advance rfl ?_) rfl .nil
  rintro (hconnected | ⟨task, call, hcall, hregisters⟩)
  · exact absurd hconnected (by decide)
  · rcases task with _ | _ | task
    · exact nomatch hcall
    · obtain rfl := Option.some.inj hcall
      exact hregisters
    · exact nomatch hcall

/-- A player comes back on a second socket, and the close event of the first one follows. -/
def reconnect : List PresenceEvent :=
  [.register 0 0 "lobby", .advance 0, .advance 0, .advance 0, .advance 0, .tick 10000,
    .register 1 1 "lobby", .advance 1, .advance 1, .advance 1, .closed 2 0, .advance 2, .advance 2]

/-- A sweep, more than the timeout after a restart of the server. -/
def lateSweep : List PresenceEvent :=
  [.tick 120001, .sweep 0, .advance 0, .advance 0, .advance 0]

/-- **Counterexample.** The close event of the socket that was replaced writes and announces
    `offline` while the new socket is open; and a sweep passes over a client whose status is
    `error`, however long it has been away. -/
theorem not_agrees_reconnect :
    ¬ Throughout (step 120000) (Agrees 120000) (initial openSockets [] 0) reconnect ∧
      ¬ Throughout (step 120000) (Agrees 120000)
        (initial openSockets [⟨"lobby", .error, some 0⟩] 0) lateSweep := by
  constructor
  · intro h
    have hafter := h reconnect (List.prefix_refl _) _ rfl
    have hquiet := hafter fun task => by
      rcases task with _ | _ | _ | task <;> rfl
    have hlobby := hquiet.1 "lobby" (by decide)
    exact absurd rfl hlobby.1
  · intro h
    have hafter := h lateSweep (List.prefix_refl _) _ rfl
    have hquiet := hafter fun task => by
      rcases task with _ | task <;> rfl
    have hlobby := hquiet.2 "lobby" .error ⟨rfl, 120001, rfl, by decide⟩ (by decide)
    exact nomatch hlobby

end Presence

end Montr.Server
