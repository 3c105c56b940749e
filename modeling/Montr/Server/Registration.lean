import Montr.Lib.Transition
import Montr.Server.ClientManager

namespace Montr.Server

open Transition

/-!
# Registering on a socket

The register messages and close events of all sockets as they reach the connection manager,
one after the other: `handleRegister` calls `addConnection` without an await around it, and
the `close` handler of `server.ts` calls `removeConnection` with the socket itself.

`IdempotentOn ws` is what a register on the socket `ws` should do, and `idempotentOn_iff` says
when it does: `addConnection` does not compare the entry of the id with the socket being
registered, so a register that meets its own entry closes the socket.
-/

variable {μ : Type}

/-- An event of some socket. -/
inductive SocketEvent
  | register (ws : SocketId) (clientId : String) (now : Nat)
  /-- the `close` event, after which the socket is closed -/
  | closed (ws : SocketId)
  deriving DecidableEq, Repr

namespace ClientConnectionManager

/-- `handleDisconnection`: a socket that registered is removed, by identity. -/
def handleDisconnection (m : ClientConnectionManager μ) (ws : SocketId) :
    ClientConnectionManager μ :=
  match (m.sockets ws).clientId with
  | some clientId => m.removeConnection clientId (some ws)
  | none => m

/-- The socket object after its close handshake. -/
def markClosed (m : ClientConnectionManager μ) (ws : SocketId) : ClientConnectionManager μ :=
  { m with sockets := Function.update m.sockets ws { m.sockets ws with readyState := .closed } }

/-- The manager's reaction to one event. -/
def handle (m : ClientConnectionManager μ) : SocketEvent → Option (ClientConnectionManager μ)
  | .register ws clientId now => some (m.addConnection clientId ws now)
  | .closed ws => some ((m.markClosed ws).handleDisconnection ws)

/-- A register on the open socket `ws` does not close it because of an entry that is `ws`
    itself, and if it is accepted its id maps to the socket, which is still open. -/
def IdempotentOn (ws : SocketId) (m : ClientConnectionManager μ) : SocketEvent → Prop
  | .register s clientId now =>
    s = ws → m.isOpen ws = true →
      (m.connections clientId = some ws → (m.addConnection clientId ws now).isOpen ws = true) ∧
      (m.rejectsRegister clientId now = false →
        (m.addConnection clientId ws now).connections clientId = some ws ∧
          (m.addConnection clientId ws now).isOpen ws = true)
  | .closed _ => True

/-- A register on the open socket `ws` names an id whose entry is not `ws`. -/
def FreshOn (ws : SocketId) (m : ClientConnectionManager μ) : SocketEvent → Prop
  | .register s clientId _ => s = ws → m.isOpen ws = true → m.connections clientId ≠ some ws
  | .closed _ => True

/-- **One register.** It is idempotent exactly when the id's entry is not the socket. -/
theorem idempotentOn_iff_freshOn (ws : SocketId) (m : ClientConnectionManager μ)
    (e : SocketEvent) : IdempotentOn ws m e ↔ FreshOn ws m e := by
  cases e with
  | closed s => exact Iff.rfl
  | register s clientId now =>
    constructor
    · intro h hs hopen hown
      -- the register meets its own entry, and both branches close it
      have hstill := (h hs hopen).1 hown
      rw [isOpen_addConnection_own hown hopen] at hstill
      exact Bool.noConfusion hstill
    · intro h hs hopen
      have hne := h hs hopen
      refine ⟨fun hown => absurd hown hne, fun haccepts => ?_⟩
      obtain ⟨hmaps, hkeeps⟩ := @addConnection_of_accepts _ m clientId ws now haccepts
      exact ⟨hmaps, by rw [hkeeps ws hne, hopen]⟩

/-- **Registering is idempotent on a socket exactly in the runs whose registers on it name
    ids not mapped to it.**  For every table and every sequence of registers and closes on
    any sockets. -/
theorem idempotentOn_iff (m : ClientConnectionManager μ) (ws : SocketId)
    (es : List SocketEvent) :
    Each handle (IdempotentOn ws) m es ↔ Each handle (FreshOn ws) m es :=
  each_congr (idempotentOn_iff_freshOn ws)

/-- No client registered, socket `0` open. -/
def justOpened : ClientConnectionManager μ where
  connections _ := none
  metadata _ := none
  sockets _ := { readyState := .open }

/-- **Counterexample.** The player registers twice on one connection, from its on-connect path
    and from its queue: the second register closes the socket with 1008, and when the close
    event has been handled no session is left. -/
theorem not_idempotentOn_twice :
    ¬ Each handle (IdempotentOn 0) (justOpened (μ := String))
        [.register 0 "player" 0, .register 0 "player" 0] ∧
      ∃ m, exec handle (justOpened (μ := String))
          [.register 0 "player" 0, .register 0 "player" 0] = some m ∧
        (m.sockets 0).closeCalls = [(1008, "Duplicate connection")] ∧
        (m.handle (.closed 0)).map (·.connections "player") = some none := by
  refine ⟨?_, _, rfl, ?_, ?_⟩
  · intro h
    have hsecond := (h.2 _ rfl).1 rfl rfl
    exact absurd (hsecond.1 rfl) (by decide)
  · decide
  · decide

end ClientConnectionManager

end Montr.Server
