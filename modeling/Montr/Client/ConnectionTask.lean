import Montr.Client.Connection
import Montr.Lib.Transition

namespace Montr.Client

open Transition

/-!
# The connection task

`connection_task` and `handle_connection` of `network/websocket.rs` as a transition system:
one step for each thing the task waits for (a connect result, a socket event, the end of a
sleep, a message accepted by `WebSocketClient::send`).  Between two waits the task runs
undisturbed, so the writes to the connection state belong to the step that causes them.

`Task.TracksSocket` relates `isConnected` to the socket, and `tracksSocket_iff` says in
which runs it holds: a socket established right after a lost one is never recorded, since
the loop leaves `Error` only through the failed-attempt branch.
-/

variable {μ : Type}

/-- Where the task waits. -/
inductive Waiting
  /-- on the result of `connect` -/
  | connecting
  /-- in `handle_connection`, on an established socket -/
  | handling
  /-- in the back-off after a connection that died early -/
  | backoff
  /-- in the back-off after a failed attempt -/
  | retry
  deriving DecidableEq, Repr

/-- What `handle_connection` selects on. -/
inductive SocketEvent
  /-- a text frame; whether it parses, and whether it could be forwarded -/
  | text (parses forwarded : Bool)
  | close
  /-- a ping; whether the pong could be written -/
  | ping (pongSent : Bool)
  /-- binary, pong and raw frames -/
  | other
  | readError
  /-- a message taken from the queue; whether it serialises, and whether it was written -/
  | outgoing (serializes written : Bool)
  deriving DecidableEq, Repr

/-- The state of the task; `sockets` holds what was written to each established socket,
    the latest socket first. -/
structure Task (μ : Type) where
  waiting : Waiting
  conn : ConnectionState
  onConnect : Option μ
  queue : List μ
  sockets : List (List μ)
  deriving DecidableEq, Repr

/-- The steps of a run without shutdown. -/
inductive TaskStep (μ : Type)
  /-- `connect` succeeds; whether the on-connect message was written -/
  | connectOk (registered : Bool)
  | connectFail
  /-- a socket event; whether the connection has been up for `STABILITY_THRESHOLD` -/
  | socket (event : SocketEvent) (stable : Bool)
  /-- the current sleep ends -/
  | elapsed
  /-- `WebSocketClient::send` accepts a message -/
  | accept (message : μ)
  deriving DecidableEq, Repr

namespace Task

/-- The top of the loop: only a disconnected machine is moved to `Connecting`. -/
def loopTop (t : Task μ) : Task μ :=
  { t with
    waiting := .connecting
    conn := if t.conn.current = .disconnected then t.conn.tryTransition .connecting else t.conn }

/-- The task as it is spawned, waiting for its first connection. -/
def start (onConnect : Option μ) : Task μ :=
  loopTop
    { waiting := .connecting, conn := .new, onConnect := onConnect, queue := [], sockets := [] }

/-- Record a message written to the current socket. -/
def write (t : Task μ) (m : μ) : Task μ :=
  match t.sockets with
  | [] => t
  | s :: rest => { t with sockets := (s ++ [m]) :: rest }

/-- The `Ok` arm of the connect: record the connection, send the on-connect message (its
    result is dropped) and hand over to `handle_connection`. -/
def connected (t : Task μ) (registered : Bool) : Task μ :=
  let t := { t with
    waiting := .handling, conn := t.conn.tryTransition .connected, sockets := [] :: t.sockets }
  match t.onConnect with
  | some m => if registered then t.write m else t
  | none => t

/-- The `Err` arm of the connect, up to its sleep. -/
def connectFailed (t : Task μ) : Task μ :=
  { t with waiting := .retry, conn := t.conn.transitionToError .connectionFailed }

/-- One iteration of `handle_connection`: the state after it, and whether the loop ends. -/
def handleEvent (t : Task μ) : SocketEvent → Task μ × Bool
  | .text parses forwarded => (t, parses && !forwarded)
  | .close => ({ t with conn := t.conn.transitionToError .serverClosed }, true)
  | .ping pongSent => (t, !pongSent)
  | .other => (t, false)
  | .readError => (t, true)
  | .outgoing serializes written =>
    match t.queue with
    | [] => (t, false)
    | m :: rest =>
      let t := { t with queue := rest }
      if serializes then (if written then (t.write m, false) else (t, true)) else (t, false)

/-- After `handle_connection` returns: record the loss, then reconnect at once if the
    connection was stable and back off otherwise. -/
def connectionClosed (t : Task μ) (stable : Bool) : Task μ :=
  let t := { t with conn := t.conn.transitionToError .connectionLost }
  if stable then t.loopTop else { t with waiting := .backoff }

/-- One step of the task. -/
def step (t : Task μ) : TaskStep μ → Option (Task μ)
  | .connectOk registered =>
    if t.waiting = .connecting then some (t.connected registered) else none
  | .connectFail => if t.waiting = .connecting then some t.connectFailed else none
  | .socket event stable =>
    if t.waiting = .handling then
      let (t, ends) := t.handleEvent event
      some (if ends then t.connectionClosed stable else t)
    else none
  | .elapsed =>
    match t.waiting with
    | .backoff => some t.loopTop
    | .retry => some { t with conn := t.conn.reset }.loopTop
    | _ => none
  | .accept m => some { t with queue := t.queue ++ [m] }

/-- **The connection state tracks the socket**: `isConnected` exactly while
    `handle_connection` runs. -/
def TracksSocket (t : Task μ) : Prop := t.conn.isConnected = true ↔ t.waiting = .handling

/-! ### What the pieces of a step do to the wait and the connection state -/

@[simp] theorem write_waiting (t : Task μ) (m : μ) : (t.write m).waiting = t.waiting := by
  unfold write; split <;> rfl

@[simp] theorem write_conn (t : Task μ) (m : μ) : (t.write m).conn = t.conn := by
  unfold write; split <;> rfl

@[simp] theorem loopTop_waiting (t : Task μ) : t.loopTop.waiting = .connecting := rfl

@[simp] theorem connected_waiting (t : Task μ) (r : Bool) :
    (t.connected r).waiting = .handling := by
  unfold connected
  cases t.onConnect <;> cases r <;> simp

@[simp] theorem connected_conn (t : Task μ) (r : Bool) :
    (t.connected r).conn = t.conn.tryTransition .connected := by
  unfold connected
  cases t.onConnect <;> cases r <;> simp

/-- An event that does not end `handle_connection` leaves wait and connection state alone. -/
theorem handleEvent_continues {t : Task μ} {e : SocketEvent} (h : (t.handleEvent e).2 = false) :
    (t.handleEvent e).1.waiting = t.waiting ∧ (t.handleEvent e).1.conn = t.conn := by
  cases e with
  | outgoing serializes written =>
    unfold handleEvent
    cases t.queue <;> cases serializes <;> cases written <;> simp
  | close => simp [handleEvent] at h
  | _ => simp [handleEvent]

/-- A closed connection leaves the machine in `Error`, whichever way it goes on. -/
theorem connectionClosed_conn (t : Task μ) (stable : Bool) :
    (t.connectionClosed stable).conn.current = .error .connectionLost := by
  cases stable <;> simp [connectionClosed, loopTop]

theorem connectionClosed_waiting (t : Task μ) (stable : Bool) :
    (t.connectionClosed stable).waiting = if stable then .connecting else .backoff := by
  cases stable <;> simp [connectionClosed]

/-! ### Which runs track the socket -/

/-- The machine at each wait; `lost` says whether a socket has been established since the
    last failed attempt. -/
def Inv (lost : Bool) (t : Task μ) : Prop :=
  match t.waiting with
  | .connecting =>
    if lost then ∃ r, t.conn.current = .error r else t.conn.current = .connecting
  | .handling => lost = true ∧ t.conn.current = .connected
  | .backoff => lost = true ∧ ∃ r, t.conn.current = .error r
  | .retry => lost = false ∧ ∃ r, t.conn.current = .error r

/-- `lost` after one more step. -/
def lostAfter (lost : Bool) : TaskStep μ → Bool
  | .connectOk _ => true
  | .connectFail => false
  | _ => lost

/-- A connect that succeeds although the last socket was lost and no attempt has failed
    since. -/
def Unrecorded (lost : Bool) : TaskStep μ → Prop
  | .connectOk _ => lost = true
  | _ => False

theorem inv_start (onConnect : Option μ) : Inv false (start onConnect) := by
  simp [Inv, start, loopTop, ConnectionState.current_tryTransition,
    ConnectionState.isValidTransition]

/-- At every wait of `Inv` the connection state tracks the socket. -/
theorem Inv.tracksSocket {lost : Bool} {t : Task μ} (h : Inv lost t) : TracksSocket t := by
  unfold Inv at h
  unfold TracksSocket ConnectionState.isConnected
  cases hw : t.waiting with
  | connecting =>
    rw [hw] at h
    cases lost with
    | false =>
      have hc : t.conn.current = .connecting := by simpa using h
      simp [hc]
    | true =>
      obtain ⟨r, hc⟩ : ∃ r, t.conn.current = .error r := by simpa using h
      simp [hc]
  | handling =>
    rw [hw] at h
    simp [h.2]
  | backoff =>
    rw [hw] at h
    obtain ⟨-, r, hc⟩ := h
    simp [hc]
  | retry =>
    rw [hw] at h
    obtain ⟨-, r, hc⟩ := h
    simp [hc]

/-! ### One inversion lemma per label -/

theorem step_connectOk {s t : Task μ} {r : Bool} (h : s.step (.connectOk r) = some t) :
    s.waiting = .connecting ∧ t = s.connected r := by
  simp only [Task.step, Option.ite_none_right_eq_some, Option.some.injEq] at h
  exact ⟨h.1, h.2.symm⟩

theorem step_connectFail {s t : Task μ} (h : s.step .connectFail = some t) :
    s.waiting = .connecting ∧ t = s.connectFailed := by
  simp only [Task.step, Option.ite_none_right_eq_some, Option.some.injEq] at h
  exact ⟨h.1, h.2.symm⟩

theorem step_socket {s t : Task μ} {e : SocketEvent} {stable : Bool}
    (h : s.step (.socket e stable) = some t) :
    s.waiting = .handling ∧
      ((s.handleEvent e).2 = false ∧ t = (s.handleEvent e).1 ∨
        t = (s.handleEvent e).1.connectionClosed stable) := by
  simp only [Task.step, Option.ite_none_right_eq_some, Option.some.injEq] at h
  obtain ⟨hw, rfl⟩ := h
  cases hends : (s.handleEvent e).2 with
  | false => exact ⟨hw, .inl ⟨rfl, by simp⟩⟩
  | true => exact ⟨hw, .inr (by simp)⟩

theorem step_elapsed {s t : Task μ} (h : s.step .elapsed = some t) :
    s.waiting = .backoff ∧ t = s.loopTop ∨
      s.waiting = .retry ∧ t = { s with conn := s.conn.reset }.loopTop := by
  cases hw : s.waiting with
  | connecting => simp [Task.step, hw] at h
  | handling => simp [Task.step, hw] at h
  | backoff => exact .inl ⟨rfl, by simpa [Task.step, hw] using h.symm⟩
  | retry => exact .inr ⟨rfl, by simpa [Task.step, hw] using h.symm⟩

/-- **Step lemma.** Every step but an unrecorded connect keeps the invariant. -/
theorem Inv.step {lost : Bool} {s t : Task μ} {a : TaskStep μ} (h : Inv lost s)
    (recorded : ¬ Unrecorded lost a) (hstep : s.step a = some t) : Inv (lostAfter lost a) t := by
  cases a with
  | connectOk r =>
    obtain rfl : lost = false := by simpa [Unrecorded] using recorded
    obtain ⟨hw, rfl⟩ := step_connectOk hstep
    have hc : s.conn.current = .connecting := by simpa [Inv, hw] using h
    simp [Inv, lostAfter, ConnectionState.tryTransition_connected_of_connecting hc]
  | connectFail =>
    obtain ⟨-, rfl⟩ := step_connectFail hstep
    simp [Inv, lostAfter, connectFailed]
  | socket e stable =>
    obtain ⟨hw, hcase⟩ := step_socket hstep
    obtain ⟨hl, hc⟩ : lost = true ∧ s.conn.current = .connected := by simpa [Inv, hw] using h
    rcases hcase with ⟨hends, rfl⟩ | rfl
    · have hcont := handleEvent_continues hends
      simp [Inv, lostAfter, hcont.1, hcont.2, hw, hl, hc]
    · cases stable <;>
        simp [Inv, lostAfter, connectionClosed_waiting, connectionClosed_conn, hl]
  | elapsed =>
    rcases step_elapsed hstep with ⟨hw, rfl⟩ | ⟨hw, rfl⟩
    · obtain ⟨hl, r, hc⟩ : lost = true ∧ ∃ r, s.conn.current = .error r := by
        simpa [Inv, hw] using h
      simp [Inv, lostAfter, loopTop, hl, hc]
    · obtain ⟨hl, -⟩ : lost = false ∧ ∃ r, s.conn.current = .error r := by
        simpa [Inv, hw] using h
      simp [Inv, lostAfter, loopTop, hl, ConnectionState.current_tryTransition,
        ConnectionState.isValidTransition]
  | accept m =>
    obtain rfl : { s with queue := s.queue ++ [m] } = t := by simpa [Task.step] using hstep
    exact h

/-- An unrecorded connect leaves the machine in `Error` under a live socket. -/
theorem Inv.unrecorded {s t : Task μ} {r : Bool} (h : Inv true s)
    (hstep : s.step (.connectOk r) = some t) : ¬ TracksSocket t := by
  obtain ⟨hw, rfl⟩ := step_connectOk hstep
  obtain ⟨reason, hc⟩ : ∃ reason, s.conn.current = .error reason := by simpa [Inv, hw] using h
  have herr := ConnectionState.tryTransition_connected_of_error hc
  simp [TracksSocket, ConnectionState.isConnected_eq_false_of_error herr]

/-- No connect succeeds between the loss of a socket and the next failed attempt. -/
def ReconnectsAfterFailure (lost : Bool) : List (TaskStep μ) → Prop
  | [] => True
  | a :: as => ¬ Unrecorded lost a ∧ ReconnectsAfterFailure (lostAfter lost a) as

theorem tracksThroughout_iff_of_inv {lost : Bool} {s u : Task μ} {as : List (TaskStep μ)}
    (h : Inv lost s) (hrun : exec step s as = some u) :
    Throughout step TracksSocket s as ↔ ReconnectsAfterFailure lost as := by
  induction as generalizing lost s with
  | nil => simpa [throughout_nil, ReconnectsAfterFailure] using h.tracksSocket
  | cons a as ih =>
    obtain ⟨t, hstep, hrest⟩ := Option.bind_eq_some_iff.mp (by simpa only [exec] using hrun)
    rw [throughout_cons hstep]
    by_cases hrec : Unrecorded lost a
    · -- the unrecorded connect itself breaks the property
      obtain ⟨r, rfl, rfl⟩ : ∃ r, a = .connectOk r ∧ lost = true := by
        cases a <;> simp_all [Unrecorded]
      have hbad := h.unrecorded hstep
      simp only [ReconnectsAfterFailure, hrec, not_true_eq_false, false_and, iff_false, not_and]
      exact fun _ ht => hbad ht.start
    · simp only [ReconnectsAfterFailure, hrec, not_false_eq_true, true_and]
      rw [ih (h.step hrec hstep) hrest]
      exact and_iff_right h.tracksSocket

/-- **The connection state tracks the socket exactly in the runs that reconnect only after
    a failed attempt.**  For every run of the task from its start, `isConnected` agrees with
    `handle_connection` running in every state passed through if and only if no connect
    succeeds after a lost socket without a failed attempt in between. -/
theorem tracksSocket_iff (onConnect : Option μ) (as : List (TaskStep μ)) (t : Task μ)
    (hrun : exec step (start onConnect) as = some t) :
    Throughout step TracksSocket (start onConnect) as ↔ ReconnectsAfterFailure false as :=
  tracksThroughout_iff_of_inv (inv_start onConnect) hrun

/-- A connect that fails, one that succeeds, a read error: the property holds throughout. -/
theorem tracksSocket_iff_retry :
    Throughout step TracksSocket (start (some "register"))
        [.connectFail, .elapsed, .connectOk true, .socket .readError false] ↔
      ReconnectsAfterFailure (μ := String) false
        [.connectFail, .elapsed, .connectOk true, .socket .readError false] :=
  tracksSocket_iff (some "register") _ _ rfl

/-- **Counterexample.** A first socket that is lost and a reconnect that succeeds: the second
    socket is handled while the machine still reports `Error` and `isConnected` is false. -/
theorem not_tracksSocket_reconnect :
    ∃ t, exec step (start (some "register"))
        [.connectOk true, .socket .readError true, .connectOk true] = some t ∧
      t.waiting = .handling ∧ t.conn.current = .error .connectionLost ∧ ¬ TracksSocket t :=
  ⟨_, rfl, rfl, rfl, by unfold TracksSocket; decide⟩

end Task

end Montr.Client
