import Mathlib.Logic.Function.Basic

namespace Montr.Server

open Function

/-!
# The WebSocket client connection manager

`ClientConnectionManager` of `websocket/client-manager.ts`: the `connections` and `metadata`
maps, and the socket objects they point to.  Sockets are identified by a `SocketId`, so that
"the same socket" is equality of ids, as object identity is in the source; `sockets` is the
heap of these objects.

Times are milliseconds.  The statistics counters are read by a reporting endpoint only and
are left out, as are log lines.  `μ` is the type of the messages sent to players.
-/

/-- Object identity of a socket. -/
abbrev SocketId := Nat

/-- The four ready states of a `WebSocket`. -/
inductive ReadyState
  | connecting
  | open
  | closing
  | closed
  deriving DecidableEq, Repr

/-- A socket with the properties the server adds to it; `closeCalls` records the `close`
    calls (code, reason) and `sent` the messages sent, latest last. -/
structure ExtendedWebSocket (μ : Type) where
  readyState : ReadyState
  clientId : Option String := none
  isAlive : Bool := true
  lastHeartbeat : Nat := 0
  closeCalls : List (Nat × String) := []
  sent : List μ := []
  deriving DecidableEq, Repr

/-- What the manager remembers of a connection. -/
structure ConnectionMetadata where
  clientId : String
  connectedAt : Nat
  lastHeartbeat : Nat
  messageCount : Nat
  deriving DecidableEq, Repr

/-- The manager's maps and the sockets. -/
structure ClientConnectionManager (μ : Type) where
  connections : String → Option SocketId
  metadata : String → Option ConnectionMetadata
  sockets : SocketId → ExtendedWebSocket μ

/-- `ws.close(code, reason)`: an open socket starts closing. -/
def ExtendedWebSocket.close {μ : Type} (ws : ExtendedWebSocket μ) (code : Nat) (reason : String) :
    ExtendedWebSocket μ :=
  { ws with readyState := .closing, closeCalls := ws.closeCalls ++ [(code, reason)] }

namespace ClientConnectionManager

variable {μ : Type}

/-- `DEDUP_WINDOW_MS`. -/
def dedupWindowMs : Nat := 10000

/-- `readyState === OPEN`. -/
def isOpen (m : ClientConnectionManager μ) (ws : SocketId) : Bool :=
  (m.sockets ws).readyState == .open

/-- Close a socket. -/
def closeSocket (m : ClientConnectionManager μ) (ws : SocketId) (code : Nat) (reason : String) :
    ClientConnectionManager μ :=
  { m with sockets := update m.sockets ws ((m.sockets ws).close code reason) }

/-- `existingAgeMs < DEDUP_WINDOW_MS`; without metadata the age is infinite. -/
def withinDedupWindow (m : ClientConnectionManager μ) (clientId : String) (now : Nat) : Bool :=
  match m.metadata clientId with
  | some known => (now : Int) - known.connectedAt < dedupWindowMs
  | none => false

/-- The part of `addConnection` that stores the connection. -/
def storeConnection (m : ClientConnectionManager μ) (clientId : String) (ws : SocketId)
    (now : Nat) : ClientConnectionManager μ :=
  { connections := update m.connections clientId (some ws)
    metadata := update m.metadata clientId (some ⟨clientId, now, now, 0⟩)
    sockets := update m.sockets ws
      { m.sockets ws with clientId := some clientId, isAlive := true, lastHeartbeat := now } }

/-- The duplicate test of `addConnection`: the id has an open socket, registered less than
    the window ago. -/
def rejectsRegister (m : ClientConnectionManager μ) (clientId : String) (now : Nat) : Bool :=
  match m.connections clientId with
  | some existing => m.isOpen existing && m.withinDedupWindow clientId now
  | none => false

/-- `addConnection`. -/
def addConnection (m : ClientConnectionManager μ) (clientId : String) (ws : SocketId)
    (now : Nat) : ClientConnectionManager μ :=
  match m.connections clientId with
  | some existing =>
    if m.isOpen existing && m.withinDedupWindow clientId now then
      -- rejected as a duplicate: the newcomer is closed, the table is left alone
      if m.isOpen ws then m.closeSocket ws 1008 "Duplicate connection" else m
    else
      let m := if m.isOpen existing then
          m.closeSocket existing 1000 "New connection established" else m
      m.storeConnection clientId ws now
  | none => m.storeConnection clientId ws now

/-- `removeConnection`; with `ws` given the removal is identity-checked. -/
def removeConnection (m : ClientConnectionManager μ) (clientId : String)
    (ws : Option SocketId) : ClientConnectionManager μ :=
  match m.connections clientId with
  | none => m
  | some current =>
    if ws.isSome && ws != some current then m
    else
      let m := if m.isOpen current then m.closeSocket current 1000 "Connection removed" else m
      { m with
        connections := update m.connections clientId none
        metadata := update m.metadata clientId none }

/-- `isConnected`: the id has an open socket. -/
def isConnected (m : ClientConnectionManager μ) (clientId : String) : Bool :=
  match m.connections clientId with
  | some ws => m.isOpen ws
  | none => false

/-- `sendToClient`: the manager after the send, and whether it was sent. -/
def sendToClient (m : ClientConnectionManager μ) (clientId : String) (message : μ) :
    ClientConnectionManager μ × Bool :=
  match m.connections clientId with
  | some ws =>
    if m.isOpen ws then
      let socket := m.sockets ws
      ({ m with sockets := update m.sockets ws { socket with sent := socket.sent ++ [message] } },
        true)
    else (m, false)
  | none => (m, false)

/-! ### Closing and storing -/

@[simp] theorem closeSocket_connections (m : ClientConnectionManager μ) (ws : SocketId)
    (code : Nat) (reason : String) : (m.closeSocket ws code reason).connections = m.connections :=
  rfl

@[simp] theorem isOpen_closeSocket_self (m : ClientConnectionManager μ) (ws : SocketId)
    (code : Nat) (reason : String) : (m.closeSocket ws code reason).isOpen ws = false := by
  simp [isOpen, closeSocket, ExtendedWebSocket.close]

theorem isOpen_closeSocket_of_ne (m : ClientConnectionManager μ) {ws other : SocketId}
    (code : Nat) (reason : String) (h : ws ≠ other) :
    (m.closeSocket other code reason).isOpen ws = m.isOpen ws := by
  simp [isOpen, closeSocket, h]

@[simp] theorem storeConnection_connections_self (m : ClientConnectionManager μ)
    (clientId : String) (ws : SocketId) (now : Nat) :
    (m.storeConnection clientId ws now).connections clientId = some ws := by
  simp [storeConnection]

@[simp] theorem isOpen_storeConnection (m : ClientConnectionManager μ) (clientId : String)
    (ws ws' : SocketId) (now : Nat) :
    (m.storeConnection clientId ws now).isOpen ws' = m.isOpen ws' := by
  by_cases h : ws' = ws
  · subst h
    simp [isOpen, storeConnection]
  · simp [isOpen, storeConnection, h]

/-! ### What `addConnection` does, by the entry of the id -/

/-- A rejected register closes the newcomer and leaves the table alone. -/
theorem addConnection_of_rejects {m : ClientConnectionManager μ} {clientId : String}
    {ws : SocketId} {now : Nat} (h : m.rejectsRegister clientId now = true) :
    (m.addConnection clientId ws now).connections = m.connections ∧
      (m.addConnection clientId ws now).isOpen ws = false := by
  unfold rejectsRegister at h
  unfold addConnection
  cases hc : m.connections clientId with
  | none => simp [hc] at h
  | some existing =>
    rw [hc] at h
    simp only [h, if_true]
    by_cases ho : m.isOpen ws = true
    · simp [ho]
    · simp [ho]

/-- An accepted register maps the id to the socket and leaves every socket but the entry's
    as open as it was. -/
theorem addConnection_of_accepts {m : ClientConnectionManager μ} {clientId : String}
    {ws : SocketId} {now : Nat} (h : m.rejectsRegister clientId now = false) :
    (m.addConnection clientId ws now).connections clientId = some ws ∧
      ∀ s, m.connections clientId ≠ some s →
        (m.addConnection clientId ws now).isOpen s = m.isOpen s := by
  unfold rejectsRegister at h
  unfold addConnection
  cases hc : m.connections clientId with
  | none => simp
  | some existing =>
    rw [hc] at h
    simp only [h, Bool.false_eq_true, if_false]
    refine ⟨by simp, fun s hs => ?_⟩
    have hne : s ≠ existing := fun heq => hs (by rw [heq])
    by_cases ho : m.isOpen existing = true
    · simp [ho, isOpen_closeSocket_of_ne _ _ _ hne]
    · simp [ho]

/-- A register for an id whose entry is this very open socket closes the socket, early or
    late. -/
theorem isOpen_addConnection_own {m : ClientConnectionManager μ} {clientId : String}
    {ws : SocketId} {now : Nat} (own : m.connections clientId = some ws)
    (isOpen : m.isOpen ws = true) : (m.addConnection clientId ws now).isOpen ws = false := by
  unfold addConnection
  simp only [own, isOpen, Bool.true_and, if_true]
  by_cases hw : m.withinDedupWindow clientId now = true
  · simp [hw]
  · simp [hw]

/-- The identity check of `removeConnection`: a socket that is no longer the entry of its id
    cannot tear down the one that replaced it. -/
theorem removeConnection_of_ne {m : ClientConnectionManager μ} {clientId : String}
    {ws : SocketId} (h : m.connections clientId ≠ some ws) :
    m.removeConnection clientId (some ws) = m := by
  unfold removeConnection
  cases hc : m.connections clientId with
  | none => rfl
  | some current =>
    have hne : ws ≠ current := fun heq => h (by rw [hc, heq])
    simp [hne]

end ClientConnectionManager

end Montr.Server
