import Mathlib.Data.List.Basic

namespace Montr.Client

/-!
# The player's WebSocket connection state machine

`ConnectionState` of `network/connection.rs`: the current and previous state and the
reconnect counter, with `transition` (validated), `transitionToError` and `reset`
(unvalidated).  The `Instant` of the last transition is read by log lines only and is left
out.

`current_tryTransition`, `current_transitionToError` and `current_reset` say what each operation
does to the current state; the connection task is verified from these and what they give for
`Connected`.
-/

/-- Reason for an error state. -/
inductive ErrorReason
  | connectionFailed
  | connectionLost
  | registrationFailed
  | timeout
  | protocolError
  | serverClosed
  deriving DecidableEq, Repr

/-- Connection states. -/
inductive State
  | disconnected
  | connecting
  | connected
  | registering
  | registered
  | waitingPlaylist
  | operational
  | error (reason : ErrorReason)
  deriving DecidableEq, Repr

/-- The `Debug` rendering of a reason. -/
def ErrorReason.debug : ErrorReason → String
  | .connectionFailed => "ConnectionFailed"
  | .connectionLost => "ConnectionLost"
  | .registrationFailed => "RegistrationFailed"
  | .timeout => "Timeout"
  | .protocolError => "ProtocolError"
  | .serverClosed => "ServerClosed"

/-- The `Debug` rendering of a state, as the transition error prints it. -/
def State.debug : State → String
  | .disconnected => "Disconnected"
  | .connecting => "Connecting"
  | .connected => "Connected"
  | .registering => "Registering"
  | .registered => "Registered"
  | .waitingPlaylist => "WaitingPlaylist"
  | .operational => "Operational"
  | .error reason => "Error \x7b reason: " ++ reason.debug ++ " \x7d"

/-- The connection state machine (`ConnectionState`). -/
structure ConnectionState where
  current : State
  previous : Option State
  reconnectAttempts : Nat
  deriving DecidableEq, Repr

namespace ConnectionState

/-- A fresh machine: disconnected. -/
def new : ConnectionState := ⟨.disconnected, none, 0⟩

/-- Connected means any state from `Connected` on that is not an error. -/
def isConnected (s : ConnectionState) : Bool :=
  match s.current with
  | .connected | .registering | .registered | .waitingPlaylist | .operational => true
  | _ => false

/-- Only the operational state is ready to use. -/
def isOperational (s : ConnectionState) : Bool :=
  match s.current with
  | .operational => true
  | _ => false

/-- The transition relation; the arms stand in the source's order. -/
def isValidTransition (s : ConnectionState) (newState : State) : Bool :=
  match s.current, newState with
  | .disconnected, .connecting => true
  | .connecting, .connected => true
  | .connecting, .error _ => true
  | .connected, .registering => true
  | .connected, .error _ => true
  | .registering, .registered => true
  | .registering, .error _ => true
  | .registered, .waitingPlaylist => true
  | .registered, .operational => true
  | .registered, .error _ => true
  | .waitingPlaylist, .operational => true
  | .waitingPlaylist, .error _ => true
  | .operational, .waitingPlaylist => true
  | .operational, .operational => true
  | .operational, .error _ => true
  | .error _, .disconnected => true
  | .error _, .connecting => true
  | current, new => current == new

/-- A validated transition; the machine is left alone when it is rejected. -/
def transition (s : ConnectionState) (newState : State) : Except String ConnectionState :=
  if s.isValidTransition newState then
    .ok { current := newState
          previous := some s.current
          reconnectAttempts := if newState = .registered then 0 else s.reconnectAttempts }
  else
    .error ("Invalid state transition: " ++ s.current.debug ++ " -> " ++ newState.debug)

/-- `let _ = s.transition(..)`: the result is dropped, a rejected transition changes nothing. -/
def tryTransition (s : ConnectionState) (newState : State) : ConnectionState :=
  match s.transition newState with
  | .ok t => t
  | .error _ => s

/-- Enter the error state from wherever the machine is. -/
def transitionToError (s : ConnectionState) (reason : ErrorReason) : ConnectionState :=
  { current := .error reason
    previous := some s.current
    reconnectAttempts := s.reconnectAttempts + 1 }

/-- Back to disconnected, for the next attempt. -/
def reset (s : ConnectionState) : ConnectionState :=
  { s with current := .disconnected, previous := some s.current }

/-! ### What each operation does to the current state -/

@[simp] theorem current_new : new.current = .disconnected := rfl

@[simp] theorem current_transitionToError (s : ConnectionState) (reason : ErrorReason) :
    (s.transitionToError reason).current = .error reason := rfl

@[simp] theorem current_reset (s : ConnectionState) : s.reset.current = .disconnected := rfl

/-- A dropped transition either happens or leaves the state as it was. -/
theorem current_tryTransition (s : ConnectionState) (newState : State) :
    (s.tryTransition newState).current =
      if s.isValidTransition newState then newState else s.current := by
  unfold tryTransition transition
  by_cases h : s.isValidTransition newState <;> simp [h]

theorem isConnected_eq_false_of_error {s : ConnectionState} {reason : ErrorReason}
    (h : s.current = .error reason) : s.isConnected = false := by
  simp [isConnected, h]

/-- An error state can be left for `disconnected` or `connecting` only: a socket that is
    established while the machine is still in `Error` is not recorded. -/
theorem tryTransition_connected_of_error {s : ConnectionState} {reason : ErrorReason}
    (h : s.current = .error reason) : (s.tryTransition .connected).current = .error reason := by
  have hinvalid : s.isValidTransition .connected = false := by
    unfold isValidTransition
    rw [h]
    rfl
  rw [current_tryTransition, hinvalid, if_neg Bool.false_ne_true, h]

/-- From `connecting` an established socket is recorded. -/
theorem tryTransition_connected_of_connecting {s : ConnectionState}
    (h : s.current = .connecting) : (s.tryTransition .connected).current = .connected := by
  have hvalid : s.isValidTransition .connected = true := by
    unfold isValidTransition
    rw [h]
  rw [current_tryTransition, if_pos hvalid]

end ConnectionState

end Montr.Client
