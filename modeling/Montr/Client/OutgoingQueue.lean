import Montr.Client.ConnectionTask

namespace Montr.Client

open Transition

/-!
# The outgoing queue

What `WebSocketClient::send` accepts and what the connection task writes, over any number of
connections.  The run of `ConnectionTask` is extended by the calls made from outside it:
`send`, which waits while the channel is full, and `set_on_connect`, which may come before or
after the first connection.  Every frame is tagged with where it came from, so that the logs
of the sockets say which accepted messages were written, and after what.

A message leaves the queue before it is serialised and written.  `nothingLost_iff` says in
which runs nothing is lost by that.
-/

variable {μ : Type}

/-- A text frame: the on-connect message, or a message taken from the queue. -/
inductive Outgoing (μ : Type)
  | registration (message : μ)
  | queued (message : μ)
  deriving DecidableEq, Repr

/-- The accepted message a frame carries. -/
def Outgoing.queued? : Outgoing μ → Option μ
  | .registration _ => none
  | .queued m => some m

@[simp] theorem Outgoing.queued?_registration (m : μ) :
    (Outgoing.registration m).queued? = none := rfl

@[simp] theorem Outgoing.queued?_queued (m : μ) : (Outgoing.queued m).queued? = some m := rfl

/-- The capacity of the channel between `send` and the connection task. -/
def channelCapacity : Nat := 1000

/-- The connection task with the history of the calls to `send`. -/
structure Session (μ : Type) where
  task : Task (Outgoing μ)
  /-- the messages `send` has accepted, in order -/
  accepted : List μ
  /-- whether the on-connect message was written to the current socket -/
  registered : Bool
  deriving DecidableEq, Repr

/-- The calls from outside and the steps of the connection task. -/
inductive SessionStep (μ : Type)
  | setOnConnect (message : μ)
  | send (message : μ)
  /-- `connect` succeeds; whether the on-connect write, if there is one, succeeds too -/
  | connectOk (written : Bool)
  | connectFail
  | socket (event : SocketEvent) (stable : Bool)
  | elapsed
  deriving DecidableEq, Repr

namespace Session

/-- The client as it is created: the task is spawned before any message is set or sent. -/
def start : Session μ := { task := Task.start none, accepted := [], registered := false }

/-- One step of a run without shutdown. -/
def step (s : Session μ) : SessionStep μ → Option (Session μ)
  | .setOnConnect m => some { s with task := { s.task with onConnect := some (.registration m) } }
  | .send m =>
    if s.task.queue.length < channelCapacity then
      (s.task.step (.accept (.queued m))).map fun task =>
        { s with task := task, accepted := s.accepted ++ [m] }
    else none
  | .connectOk written =>
    (s.task.step (.connectOk written)).map fun task =>
      { s with task := task, registered := s.task.onConnect.isSome && written }
  | .connectFail => (s.task.step .connectFail).map fun task => { s with task := task }
  | .socket event stable =>
    (s.task.step (.socket event stable)).map fun task => { s with task := task }
  | .elapsed => (s.task.step .elapsed).map fun task => { s with task := task }

/-- The accepted messages written to the sockets, in the order they were written. -/
def written (sockets : List (List (Outgoing μ))) : List μ :=
  sockets.reverse.flatten.filterMap Outgoing.queued?

/-- On this socket the registration was written before any message from the queue. -/
def RegisteredFirst (log : List (Outgoing μ)) : Prop :=
  ∀ before m after, log = before ++ .queued m :: after → ∃ r, .registration r ∈ before

/-- **Nothing is lost**: the accepted messages are those written, in order and once each,
    followed by those still queued, and every socket carries its registration first. -/
structure NothingLost (s : Session μ) : Prop where
  complete : s.accepted = written s.task.sockets ++ s.task.queue.filterMap Outgoing.queued?
  registered : ∀ log ∈ s.task.sockets, RegisteredFirst log

/-- What a step needs: a message is taken only on a socket that carries the registration, and
    it serialises and is written. -/
def Survives (s : Session μ) : SessionStep μ → Prop
  | .socket (.outgoing serializes written) _ =>
    s.task.queue = [] ∨ (serializes = true ∧ written = true ∧ s.registered = true)
  | _ => True

/-! ### The logs of the sockets -/

@[simp] theorem written_nil : written ([] : List (List (Outgoing μ))) = [] := rfl

@[simp] theorem written_cons (log : List (Outgoing μ)) (rest : List (List (Outgoing μ))) :
    written (log :: rest) = written rest ++ log.filterMap Outgoing.queued? := by
  simp [written]

theorem registeredFirst_nil : RegisteredFirst ([] : List (Outgoing μ)) := by
  intro before m after h
  simp at h

theorem registeredFirst_registration (r : μ) : RegisteredFirst [Outgoing.registration r] := by
  intro before m after h
  cases before with
  | nil => simp at h
  | cons f before => simp at h

/-- One more message is preceded by the registration if the log holds it. -/
theorem registeredFirst_concat {log : List (Outgoing μ)} {m : μ} :
    RegisteredFirst (log ++ [.queued m]) ↔
      RegisteredFirst log ∧ ∃ r, .registration r ∈ log := by
  constructor
  · intro h
    refine ⟨fun before m' after hlog => ?_, h log m [] rfl⟩
    apply h before m' (after ++ [.queued m])
    rw [hlog, List.append_assoc, List.cons_append]
  · rintro ⟨hlog, r, hr⟩ before m' after h
    rcases List.eq_nil_or_concat after with rfl | ⟨after, f, rfl⟩
    · obtain ⟨rfl, -⟩ := List.append_inj' h rfl
      exact ⟨r, hr⟩
    · rw [List.concat_eq_append, ← List.cons_append, ← List.append_assoc] at h
      obtain ⟨rfl, -⟩ := List.append_inj' h rfl
      exact hlog before m' after rfl

/-! ### What the steps of the task do to queue, sockets and registration -/

end Session

namespace Task

@[simp] theorem connectionClosed_queue (t : Task μ) (stable : Bool) :
    (t.connectionClosed stable).queue = t.queue := by
  cases stable <;> rfl

@[simp] theorem connectionClosed_sockets (t : Task μ) (stable : Bool) :
    (t.connectionClosed stable).sockets = t.sockets := by
  cases stable <;> rfl

@[simp] theorem connectionClosed_onConnect (t : Task μ) (stable : Bool) :
    (t.connectionClosed stable).onConnect = t.onConnect := by
  cases stable <;> rfl

@[simp] theorem write_queue (t : Task μ) (m : μ) : (t.write m).queue = t.queue := by
  unfold write; split <;> rfl

@[simp] theorem write_onConnect (t : Task μ) (m : μ) : (t.write m).onConnect = t.onConnect := by
  unfold write; split <;> rfl

theorem write_sockets {t : Task μ} {log : List μ} {rest : List (List μ)} (m : μ)
    (h : t.sockets = log :: rest) : (t.write m).sockets = (log ++ [m]) :: rest := by
  unfold write
  rw [h]

theorem handleEvent_onConnect (t : Task μ) (e : SocketEvent) :
    (t.handleEvent e).1.onConnect = t.onConnect := by
  cases e with
  | outgoing serializes written =>
    unfold handleEvent
    cases t.queue <;> cases serializes <;> cases written <;> simp
  | _ => rfl

/-- A socket event leaves the queue and the sockets as the handler leaves them. -/
theorem step_socket_frame {s t : Task μ} {e : SocketEvent} {stable : Bool}
    (h : s.step (.socket e stable) = some t) :
    t.queue = (s.handleEvent e).1.queue ∧ t.sockets = (s.handleEvent e).1.sockets ∧
      t.onConnect = s.onConnect := by
  obtain ⟨-, ⟨-, rfl⟩ | rfl⟩ := step_socket h
  · exact ⟨rfl, rfl, handleEvent_onConnect s e⟩
  · simp [handleEvent_onConnect]

/-- Taking a message: it is gone from the queue, and on the socket only if it was written. -/
theorem handleEvent_outgoing {t : Task μ} {m : μ} {rest : List μ} (serializes written : Bool)
    (h : t.queue = m :: rest) :
    (t.handleEvent (.outgoing serializes written)).1.queue = rest ∧
      (t.handleEvent (.outgoing serializes written)).1.sockets =
        if serializes = true ∧ written = true then (t.write m).sockets else t.sockets := by
  unfold handleEvent
  rw [h]
  cases serializes <;> cases written <;> simp only [write_queue, true_and, and_true, if_true]
  · simp
  · simp
  · simp
  · -- the write looks at the sockets only
    unfold write
    cases hs : t.sockets <;> simp [hs]

/-- Every other event leaves both alone. -/
theorem handleEvent_frame {t : Task μ} {e : SocketEvent}
    (h : ∀ serializes written, e = .outgoing serializes written → t.queue = []) :
    (t.handleEvent e).1.queue = t.queue ∧ (t.handleEvent e).1.sockets = t.sockets := by
  cases e with
  | outgoing serializes written =>
    unfold handleEvent
    simp [h serializes written rfl]
  | _ => exact ⟨rfl, rfl⟩

/-- An event takes a message, or it takes none. -/
theorem takes_or_idle (t : Task μ) (e : SocketEvent) :
    (∃ serializes written m rest,
        e = .outgoing serializes written ∧ t.queue = m :: rest) ∨
      ∀ serializes written, e = .outgoing serializes written → t.queue = [] := by
  cases hq : t.queue with
  | nil => exact .inr fun _ _ _ => rfl
  | cons m rest =>
    cases e with
    | outgoing serializes written => exact .inl ⟨serializes, written, m, rest, rfl, rfl⟩
    | _ => exact .inr fun _ _ h => nomatch h

end Task

namespace Session

/-! ### The invariant of a session -/

/-- Frames are tagged with where they came from, and the flag says what is on the current
    socket. -/
structure Inv (s : Session μ) : Prop where
  queue : ∀ f ∈ s.task.queue, ∃ m, f = .queued m
  onConnect : ∀ f, s.task.onConnect = some f → ∃ m, f = .registration m
  socket : s.task.waiting = .handling → ∃ log rest, s.task.sockets = log :: rest ∧
    (s.registered = true ↔ ∃ r, .registration r ∈ log)

theorem inv_start : Inv (start : Session μ) where
  queue f h := by simp [start, Task.start, Task.loopTop] at h
  onConnect f h := by simp [start, Task.start, Task.loopTop] at h
  socket h := by simp [start, Task.start] at h

theorem nothingLost_start : NothingLost (start : Session μ) where
  complete := by simp [start, Task.start, Task.loopTop]
  registered log h := by simp [start, Task.start, Task.loopTop] at h

/-- Whether something is lost depends on the accepted messages, the queue and the sockets. -/
theorem NothingLost.of_eq {s t : Session μ} (held : NothingLost s)
    (accepted : t.accepted = s.accepted) (queue : t.task.queue = s.task.queue)
    (sockets : t.task.sockets = s.task.sockets) : NothingLost t where
  complete := by rw [accepted, queue, sockets, held.complete]
  registered := by
    rw [sockets]
    exact held.registered

/-- The log of a socket just established. -/
def firstLog (onConnect : Option (Outgoing μ)) (written : Bool) : List (Outgoing μ) :=
  if written then onConnect.toList else []

theorem connected_frame (t : Task (Outgoing μ)) (written : Bool) :
    (t.connected written).queue = t.queue ∧ (t.connected written).onConnect = t.onConnect ∧
      (t.connected written).sockets = firstLog t.onConnect written :: t.sockets := by
  unfold Task.connected firstLog
  cases ho : t.onConnect <;> cases written <;> simp [Task.write]

/-- It holds the registration or nothing. -/
theorem firstLog_cases {onConnect : Option (Outgoing μ)} (wrote : Bool)
    (h : ∀ f, onConnect = some f → ∃ m, f = .registration m) :
    ((onConnect.isSome && wrote) = true ∧ ∃ r, firstLog onConnect wrote = [.registration r]) ∨
      ((onConnect.isSome && wrote) = false ∧ firstLog onConnect wrote = []) := by
  cases onConnect with
  | none => exact .inr ⟨rfl, by cases wrote <;> rfl⟩
  | some f =>
    obtain ⟨r, rfl⟩ := h f rfl
    cases wrote with
    | false => exact .inr ⟨rfl, rfl⟩
    | true => exact .inl ⟨rfl, r, rfl⟩

/-! ### What a step needs to lose nothing -/

/-- Taking a message keeps everything exactly if it goes to a socket with its registration. -/
theorem nothingLost_outgoing {s t : Session μ} {serializes wrote : Bool} {f : Outgoing μ}
    {rest : List (Outgoing μ)} (inv : Inv s) (held : NothingLost s)
    (handling : s.task.waiting = .handling) (hqueue : s.task.queue = f :: rest)
    (accepted : t.accepted = s.accepted) (queue : t.task.queue = rest)
    (sockets : t.task.sockets =
      if serializes = true ∧ wrote = true then (s.task.write f).sockets else s.task.sockets) :
    NothingLost t ↔ serializes = true ∧ wrote = true ∧ s.registered = true := by
  obtain ⟨m, rfl⟩ := inv.queue f (by simp [hqueue])
  obtain ⟨log, logs, hsockets, hregistered⟩ := inv.socket handling
  have hall : s.accepted =
      written s.task.sockets ++ m :: rest.filterMap Outgoing.queued? := by
    rw [held.complete, hqueue]
    simp
  by_cases hwrote : serializes = true ∧ wrote = true
  · rw [if_pos hwrote, Task.write_sockets _ hsockets] at sockets
    have hcomplete : t.accepted =
        written t.task.sockets ++ t.task.queue.filterMap Outgoing.queued? := by
      rw [accepted, hall, hsockets, sockets, queue]
      simp
    have hlogs : ∀ l ∈ log :: logs, RegisteredFirst l := by
      rw [← hsockets]
      exact held.registered
    rw [← and_assoc, and_iff_right hwrote, hregistered]
    constructor
    · intro h
      have hlog := h.registered (log ++ [.queued m]) (by simp [sockets])
      exact (registeredFirst_concat.mp hlog).2
    · intro hr
      refine ⟨hcomplete, fun l hl => ?_⟩
      rw [sockets] at hl
      rcases List.mem_cons.mp hl with rfl | hl
      · exact registeredFirst_concat.mpr ⟨hlogs log List.mem_cons_self, hr⟩
      · exact hlogs l (List.mem_cons_of_mem log hl)
  · -- the message is in neither place any more
    rw [if_neg hwrote] at sockets
    refine iff_of_false (fun h => ?_) fun h => hwrote ⟨h.1, h.2.1⟩
    have hlen := congrArg List.length (hall.symm.trans (accepted.symm.trans h.complete))
    rw [sockets, queue, List.length_append, List.length_append, List.length_cons] at hlen
    omega

/-- **Step lemma.** From a state in which nothing is lost, a step loses nothing exactly if the
    message it takes, if it takes one, survives. -/
theorem nothingLost_step {s t : Session μ} {a : SessionStep μ} (inv : Inv s)
    (held : NothingLost s) (hstep : s.step a = some t) : NothingLost t ↔ Survives s a := by
  cases a with
  | setOnConnect m =>
    obtain rfl := Option.some.inj hstep
    exact iff_of_true (held.of_eq rfl rfl rfl) trivial
  | send m =>
    obtain ⟨-, task, htask, rfl⟩ : s.task.queue.length < channelCapacity ∧ ∃ task,
        s.task.step (.accept (.queued m)) = some task ∧
          { s with task := task, accepted := s.accepted ++ [m] } = t := by
      simpa [step] using hstep
    obtain rfl := Option.some.inj htask
    refine iff_of_true ⟨?_, held.registered⟩ trivial
    show s.accepted ++ [m] = _
    rw [held.complete, List.append_assoc, List.filterMap_append]
    rfl
  | connectOk wrote =>
    obtain ⟨task, htask, rfl⟩ := Option.map_eq_some_iff.mp hstep
    obtain ⟨-, rfl⟩ := Task.step_connectOk htask
    obtain ⟨hqueue, -, hsockets⟩ := connected_frame s.task wrote
    have hfirst : (firstLog s.task.onConnect wrote).filterMap Outgoing.queued? = [] ∧
        RegisteredFirst (firstLog s.task.onConnect wrote) := by
      rcases firstLog_cases wrote inv.onConnect with ⟨-, r, h⟩ | ⟨-, h⟩
      · rw [h]
        exact ⟨by simp, registeredFirst_registration r⟩
      · rw [h]
        exact ⟨by simp, registeredFirst_nil⟩
    refine iff_of_true ⟨?_, fun log hlog => ?_⟩ trivial
    · show s.accepted = written (s.task.connected wrote).sockets ++
        (s.task.connected wrote).queue.filterMap Outgoing.queued?
      rw [hsockets, hqueue, written_cons, hfirst.1, held.complete, List.append_nil]
    · rw [show (s.task.connected wrote).sockets = _ from hsockets] at hlog
      rcases List.mem_cons.mp hlog with rfl | hlog
      · exact hfirst.2
      · exact held.registered log hlog
  | connectFail =>
    obtain ⟨task, htask, rfl⟩ := Option.map_eq_some_iff.mp hstep
    obtain ⟨-, rfl⟩ := Task.step_connectFail htask
    exact iff_of_true (held.of_eq rfl rfl rfl) trivial
  | socket e stable =>
    obtain ⟨task, htask, rfl⟩ := Option.map_eq_some_iff.mp hstep
    obtain ⟨hqueue, hsockets, -⟩ := Task.step_socket_frame htask
    have handling := (Task.step_socket htask).1
    rcases Task.takes_or_idle s.task e with ⟨serializes, wrote, f, rest, rfl, hq⟩ | hidle
    · obtain ⟨hq', hs'⟩ := Task.handleEvent_outgoing serializes wrote hq
      have hexact := nothingLost_outgoing (t := { s with task := task }) inv held handling hq rfl
        (hqueue.trans hq') (hsockets.trans hs')
      rw [hexact]
      simp [Survives, hq]
    · obtain ⟨hq', hs'⟩ := Task.handleEvent_frame hidle
      refine iff_of_true (held.of_eq rfl (hqueue.trans hq') (hsockets.trans hs')) ?_
      cases e with
      | outgoing serializes wrote => exact .inl (hidle serializes wrote rfl)
      | _ => trivial
  | elapsed =>
    obtain ⟨task, htask, rfl⟩ := Option.map_eq_some_iff.mp hstep
    rcases Task.step_elapsed htask with ⟨-, rfl⟩ | ⟨-, rfl⟩
    · exact iff_of_true (held.of_eq rfl rfl rfl) trivial
    · exact iff_of_true (held.of_eq rfl rfl rfl) trivial

/-! ### Runs -/

/-- The frames of the queue and of the current socket after an event. -/
theorem inv_socket {s : Session μ} {task : Task (Outgoing μ)} {e : SocketEvent} {stable : Bool}
    (inv : Inv s) (h : s.task.step (.socket e stable) = some task) :
    Inv { s with task := task } := by
  obtain ⟨hqueue, hsockets, honConnect⟩ := Task.step_socket_frame h
  obtain ⟨log, logs, hlogs, hregistered⟩ := inv.socket (Task.step_socket h).1
  have hframe : (∀ f ∈ task.queue, f ∈ s.task.queue) ∧ ∃ new, task.sockets = new :: logs ∧
      ((∃ r, Outgoing.registration r ∈ new) ↔ ∃ r, .registration r ∈ log) := by
    rcases Task.takes_or_idle s.task e with ⟨serializes, wrote, f, rest, rfl, hq⟩ | hidle
    · obtain ⟨hq', hs'⟩ := Task.handleEvent_outgoing serializes wrote hq
      obtain ⟨m, rfl⟩ := inv.queue f (by simp [hq])
      rw [hqueue, hsockets, hq', hs', hq, Task.write_sockets _ hlogs, hlogs]
      refine ⟨fun f hf => List.mem_cons_of_mem _ hf, ?_⟩
      split
      · exact ⟨_, rfl, by simp⟩
      · exact ⟨_, rfl, Iff.rfl⟩
    · obtain ⟨hq', hs'⟩ := Task.handleEvent_frame hidle
      rw [hqueue, hsockets, hq', hs', hlogs]
      exact ⟨fun f hf => hf, log, rfl, Iff.rfl⟩
  obtain ⟨hkept, new, hnew, hsame⟩ := hframe
  exact {
    queue := fun f hf => inv.queue f (hkept f hf)
    onConnect := fun f hf => inv.onConnect f (honConnect ▸ hf)
    socket := fun _ => ⟨new, logs, hnew, hregistered.trans hsame.symm⟩ }

theorem Inv.step {s t : Session μ} {a : SessionStep μ} (inv : Inv s)
    (hstep : s.step a = some t) : Inv t := by
  cases a with
  | setOnConnect m =>
    obtain rfl := Option.some.inj hstep
    exact ⟨inv.queue, fun f hf => ⟨m, (Option.some.inj hf).symm⟩, inv.socket⟩
  | send m =>
    obtain ⟨-, task, htask, rfl⟩ : s.task.queue.length < channelCapacity ∧ ∃ task,
        s.task.step (.accept (.queued m)) = some task ∧
          { s with task := task, accepted := s.accepted ++ [m] } = t := by
      simpa [Session.step] using hstep
    obtain rfl := Option.some.inj htask
    refine ⟨fun f hf => ?_, inv.onConnect, inv.socket⟩
    rcases List.mem_append.mp hf with hf | hf
    · exact inv.queue f hf
    · exact ⟨m, List.mem_singleton.mp hf⟩
  | connectOk wrote =>
    obtain ⟨task, htask, rfl⟩ := Option.map_eq_some_iff.mp hstep
    obtain ⟨-, rfl⟩ := Task.step_connectOk htask
    obtain ⟨hqueue, honConnect, hsockets⟩ := connected_frame s.task wrote
    refine ⟨fun f hf => inv.queue f (hqueue ▸ hf), fun f hf => inv.onConnect f (honConnect ▸ hf),
      fun _ => ⟨_, _, hsockets, ?_⟩⟩
    rcases firstLog_cases wrote inv.onConnect with ⟨hr, r, h⟩ | ⟨hr, h⟩
    · simp [h, hr]
    · simp [h, hr]
  | connectFail =>
    obtain ⟨task, htask, rfl⟩ := Option.map_eq_some_iff.mp hstep
    obtain ⟨-, rfl⟩ := Task.step_connectFail htask
    exact ⟨inv.queue, inv.onConnect, fun h => absurd h (by simp [Task.connectFailed])⟩
  | socket e stable =>
    obtain ⟨task, htask, rfl⟩ := Option.map_eq_some_iff.mp hstep
    exact inv_socket inv htask
  | elapsed =>
    obtain ⟨task, htask, rfl⟩ := Option.map_eq_some_iff.mp hstep
    rcases Task.step_elapsed htask with ⟨-, rfl⟩ | ⟨-, rfl⟩
    · exact ⟨inv.queue, inv.onConnect, fun h => absurd h (by simp)⟩
    · exact ⟨inv.queue, inv.onConnect, fun h => absurd h (by simp)⟩

/-- **Nothing is lost exactly in the runs whose every message survives its one attempt.**  For
    every run of the client from its creation, in every state passed through the accepted
    messages are the written ones followed by the queued ones, each socket with its registration
    first, if and only if every message taken from the queue is taken on a socket whose
    on-connect write succeeded, serialises, and is written. -/
theorem nothingLost_iff (as : List (SessionStep μ)) (t : Session μ)
    (hrun : exec step start as = some t) :
    Throughout step NothingLost start as ↔ Each step Survives start as := by
  have hkeep : ∀ (s : Session μ) a t, Inv s → s.step a = some t → Inv t :=
    fun s a t inv h => inv.step h
  apply throughout_iff_each hkeep
  · intro s a t inv held h
    exact nothingLost_step inv held h
  · exact inv_start
  · exact nothingLost_start
  · exact hrun

/-- Register, send, lose the socket between two messages and go on with the next one. -/
theorem nothingLost_iff_reconnect :
    Throughout step NothingLost start
        [.setOnConnect "register", .connectOk true, .send "status", .send "error",
          .socket (.outgoing true true) true, .socket .readError true, .connectOk true,
          .socket (.outgoing true true) true] ↔
      Each step Survives start
        [.setOnConnect "register", .connectOk true, .send "status", .send "error",
          .socket (.outgoing true true) true, .socket .readError true, .connectOk true,
          .socket (.outgoing true true) true] :=
  nothingLost_iff _ _ rfl

/-- **Counterexample.** The socket dies under the write of the first message: it was taken from
    the queue, and the next connection goes on with the second one. -/
theorem not_nothingLost_failed_write :
    ∃ t, exec step start
        [.setOnConnect "register", .connectOk true, .send "error", .send "status",
          .socket (.outgoing true false) true, .connectOk true,
          .socket (.outgoing true true) true] = some t ∧
      t.accepted = ["error", "status"] ∧ written t.task.sockets = ["status"] ∧
      t.task.queue = [] ∧ ¬ NothingLost t := by
  refine ⟨_, rfl, rfl, rfl, rfl, fun h => ?_⟩
  exact absurd h.complete (by decide)

end Session

end Montr.Client
