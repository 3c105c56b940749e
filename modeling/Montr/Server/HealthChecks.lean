import Montr.Server.Presence

namespace Montr.Server

open Function Transition

/-!
# Which connections a health check removes

Pongs, handled application messages and periodic checks in any order, seen from one connection.

* `Vitals`, `Vitals.next` — what the checks look at, and what each event makes of it;
* `exec_of_answered`, `exec_of_silent`, `exec_of_silent_closing` — which runs of the vitals end;
* `vitals_observe` — the table follows them, where the socket is stored under one id;
* `healthChecks_iff` — a connection that answers is kept, a silent one is gone after two checks,
  and where it is no longer open after the timeout at the latest; exactly if the socket is stored
  under no second id, for a check visits entries and would visit the socket twice.
-/

/-! ### One connection -/

/-- What `healthCheck` reads of a socket. -/
structure Vitals where
  isAlive : Bool
  lastHeartbeat : Nat
  isOpen : Bool
  deriving DecidableEq, Repr

/-- What an event is to one connection. -/
inductive Sign
  | pong
  | message (now : Nat)
  | closing
  | check (now : Nat)
  | other
  deriving DecidableEq, Repr

namespace Sign

/-- The connection answers. -/
def Answers : Sign → Prop
  | .pong | .message _ => True
  | .closing | .check _ | .other => False

/-- The time of a check. -/
def checkTime? : Sign → Option Nat
  | .check now => some now
  | .pong | .message _ | .closing | .other => none

/-- The times of the checks. -/
def checkTimes (signs : List Sign) : List Nat := signs.filterMap checkTime?

/-- An answer between every two consecutive checks. -/
def Answered (signs : List Sign) : Prop :=
  ∀ before between after now now',
    signs = before ++ .check now :: (between ++ .check now' :: after) →
    checkTimes between = [] → ∃ s ∈ between, s.Answers

end Sign

namespace Vitals

/-- The turn of the connection in `healthCheck`; `none` where it is removed. -/
def check (heartbeatTimeout now : Nat) (v : Vitals) : Option Vitals :=
  if v.isAlive = false then none
  else if v.lastHeartbeat ≠ 0 ∧ (now : Int) - v.lastHeartbeat > heartbeatTimeout ∨ v.isOpen = true
    then some { v with isAlive := false }
  else some v

def next (heartbeatTimeout : Nat) (v : Vitals) : Sign → Option Vitals
  | .pong => some { v with isAlive := true }
  | .message now => some { v with isAlive := true, lastHeartbeat := now }
  | .closing => some { v with isOpen := false }
  | .check now => v.check heartbeatTimeout now
  | .other => some v

end Vitals

section

open Sign

variable {heartbeatTimeout now : Nat} {v : Vitals} {signs : List Sign}

/-! ### Answering -/

/-- An answer comes before the next check. -/
def AnswersFirst (signs : List Sign) : Prop :=
  ∀ between after now, signs = between ++ .check now :: after → checkTimes between = [] →
    ∃ s ∈ between, s.Answers

theorem Sign.Answered.tail {s : Sign} (h : Answered (s :: signs)) : Answered signs :=
  fun before between after now now' heq =>
    h (s :: before) between after now now' (by rw [heq, List.cons_append])

theorem Sign.Answered.answersFirst (h : Answered (.check now :: signs)) : AnswersFirst signs :=
  fun between after now' heq => h [] between after now now' (by rw [heq, List.nil_append])

/-- An event that is neither a check nor an answer. -/
theorem AnswersFirst.tail {s : Sign} (h : AnswersFirst (s :: signs)) (hs : s.checkTime? = none)
    (hnot : ¬ s.Answers) : AnswersFirst signs := by
  intro between after now heq hbetween
  have htimes : checkTimes (s :: between) = [] := by
    rw [checkTimes, List.filterMap_cons_none hs]
    exact hbetween
  obtain ⟨a, ha, hanswers⟩ := h (s :: between) after now (by rw [heq, List.cons_append]) htimes
  rcases List.mem_cons.mp ha with rfl | ha
  · exact absurd hanswers hnot
  · exact ⟨a, ha, hanswers⟩

/-- **A connection that answers between every two checks is never removed.** -/
theorem exec_of_answered (answered : Answered signs)
    (alive : v.isAlive = true ∨ AnswersFirst signs) :
    exec (Vitals.next heartbeatTimeout) v signs ≠ none := by
  induction signs generalizing v with
  | nil => exact Option.some_ne_none v
  | cons s signs ih =>
    cases s with
    | pong => exact ih (v := { v with isAlive := true }) answered.tail (.inl rfl)
    | message now =>
      exact ih (v := { v with isAlive := true, lastHeartbeat := now }) answered.tail (.inl rfl)
    | closing =>
      exact ih (v := { v with isOpen := false }) answered.tail
        (alive.imp_right fun h => h.tail rfl fun h => h)
    | other => exact ih answered.tail (alive.imp_right fun h => h.tail rfl fun h => h)
    | check now =>
      have halive : v.isAlive = true := by
        rcases alive with halive | hfirst
        · exact halive
        · obtain ⟨a, ha, -⟩ := hfirst [] signs now rfl rfl
          cases ha
      show (v.check heartbeatTimeout now).bind _ ≠ none
      unfold Vitals.check
      rw [if_neg (by rw [halive]; exact Bool.noConfusion)]
      split
      · exact ih (v := { v with isAlive := false }) answered.tail (.inr answered.answersFirst)
      · exact ih answered.tail (.inl halive)

theorem answered_of_single (h : (checkTimes signs).length ≤ 1) : Answered signs := by
  intro before between after now now' heq
  have htimes : checkTimes signs
      = checkTimes before ++ now :: (checkTimes between ++ now' :: checkTimes after) := by
    rw [heq]
    simp [checkTimes, checkTime?]
  rw [htimes] at h
  simp only [List.length_append, List.length_cons] at h
  omega

/-! ### Silence -/

/-- No answer. -/
def Silent (signs : List Sign) : Prop := ∀ s ∈ signs, ¬ s.Answers

theorem Silent.tail {s : Sign} (h : Silent (s :: signs)) : Silent signs :=
  fun a ha => h a (List.mem_cons_of_mem _ ha)

/-- Once marked, a silent connection is removed by the next check. -/
theorem exec_of_marked (silent : Silent signs) (marked : v.isAlive = false)
    (checks : checkTimes signs ≠ []) : exec (Vitals.next heartbeatTimeout) v signs = none := by
  induction signs generalizing v with
  | nil => exact absurd rfl checks
  | cons s signs ih =>
    cases s with
    | pong => exact absurd trivial (silent _ List.mem_cons_self)
    | message now => exact absurd trivial (silent _ List.mem_cons_self)
    | closing => exact ih (v := { v with isOpen := false }) silent.tail marked checks
    | other => exact ih silent.tail marked checks
    | check now =>
      show (v.check heartbeatTimeout now).bind _ = none
      rw [Vitals.check, if_pos marked]
      rfl

theorem check_of_marking (halive : v.isAlive = true)
    (h : v.lastHeartbeat ≠ 0 ∧ (now : Int) - v.lastHeartbeat > heartbeatTimeout ∨
      v.isOpen = true) : v.check heartbeatTimeout now = some { v with isAlive := false } := by
  unfold Vitals.check
  rw [if_neg (by rw [halive]; exact Bool.noConfusion), if_pos h]

/-- **A silent open connection is removed by the second check.** -/
theorem exec_of_silent (silent : Silent signs) (isOpen : v.isOpen = true)
    (stays : ∀ s ∈ signs, s ≠ .closing) (checks : 2 ≤ (checkTimes signs).length) :
    exec (Vitals.next heartbeatTimeout) v signs = none := by
  cases halive : v.isAlive with
  | false =>
    refine exec_of_marked silent halive fun hnil => ?_
    rw [hnil, List.length_nil] at checks
    omega
  | true =>
    induction signs with
    | nil => exact absurd checks (by decide)
    | cons s signs ih =>
      cases s with
      | pong => exact absurd trivial (silent _ List.mem_cons_self)
      | message now => exact absurd trivial (silent _ List.mem_cons_self)
      | closing => exact absurd rfl (stays _ List.mem_cons_self)
      | other => exact ih silent.tail (fun s hs => stays s (List.mem_cons_of_mem _ hs)) checks
      | check now =>
        show (v.check heartbeatTimeout now).bind _ = none
        rw [check_of_marking halive (.inr isOpen)]
        refine exec_of_marked silent.tail rfl fun hnil => ?_
        change 2 ≤ (now :: checkTimes signs).length at checks
        rw [hnil, List.length_singleton] at checks
        omega

/-- **A silent connection in any state** is removed by the first check but one after the timeout.
    `k` milliseconds have passed at least. -/
theorem exec_of_silent_closing {k : Nat} (silent : Silent signs) (hbeat : v.lastHeartbeat ≠ 0)
    (hk : k ≤ heartbeatTimeout + 1) (later : ∀ now ∈ checkTimes signs, v.lastHeartbeat + k ≤ now)
    (ascending : (checkTimes signs).Pairwise (· < ·))
    (checks : heartbeatTimeout + 3 ≤ (checkTimes signs).length + k) :
    exec (Vitals.next heartbeatTimeout) v signs = none := by
  cases halive : v.isAlive with
  | false =>
    refine exec_of_marked silent halive fun hnil => ?_
    rw [hnil, List.length_nil] at checks
    omega
  | true =>
    induction signs generalizing v k with
    | nil =>
      change heartbeatTimeout + 3 ≤ 0 + k at checks
      omega
    | cons s signs ih =>
      cases s with
      | pong => exact absurd trivial (silent _ List.mem_cons_self)
      | message now => exact absurd trivial (silent _ List.mem_cons_self)
      | closing =>
        exact ih (v := { v with isOpen := false }) silent.tail hbeat hk later ascending checks
          halive
      | other => exact ih silent.tail hbeat hk later ascending checks halive
      | check now =>
        change ∀ t ∈ now :: checkTimes signs, v.lastHeartbeat + k ≤ t at later
        change (now :: checkTimes signs).Pairwise (· < ·) at ascending
        change heartbeatTimeout + 3 ≤ (checkTimes signs).length + 1 + k at checks
        obtain ⟨hnow, hlater⟩ := List.forall_mem_cons.mp later
        obtain ⟨hfirst, hascending⟩ := List.pairwise_cons.mp ascending
        show (v.check heartbeatTimeout now).bind _ = none
        by_cases hmarks : v.lastHeartbeat ≠ 0 ∧ (now : Int) - v.lastHeartbeat > heartbeatTimeout ∨
            v.isOpen = true
        · rw [check_of_marking halive hmarks]
          refine exec_of_marked silent.tail rfl fun hnil => ?_
          rw [hnil, List.length_nil] at checks
          omega
        · -- not yet: the next check is a millisecond later at least
          have hsoon : ¬ (now : Int) - v.lastHeartbeat > heartbeatTimeout :=
            fun h => hmarks (.inl ⟨hbeat, h⟩)
          have hstays : v.check heartbeatTimeout now = some v := by
            unfold Vitals.check
            rw [if_neg (by rw [halive]; exact Bool.noConfusion), if_neg hmarks]
          rw [hstays]
          refine ih (k := k + 1) silent.tail hbeat (by omega) (fun t ht => ?_) hascending
            (by omega) halive
          have hlt := hfirst t ht
          omega

end

/-! ### The table -/

/-- What happens to the connections. -/
inductive HealthEvent
  | pong (ws : SocketId)
  /-- a handled heartbeat, status, telemetry or error message -/
  | message (clientId : String) (now : Nat)
  /-- either side starts closing a socket -/
  | closing (ws : SocketId)
  | healthCheck (now : Nat)
  deriving DecidableEq, Repr

/-- What the event is to the client's connection. -/
def HealthEvent.sign (clientId : String) (ws : SocketId) : HealthEvent → Sign
  | .pong ws' => if ws' = ws then .pong else .other
  | .message clientId' now => if clientId' = clientId then .message now else .other
  | .closing ws' => if ws' = ws then .closing else .other
  | .healthCheck now => .check now

variable {μ : Type}

namespace ClientConnectionManager

def vitals (m : ClientConnectionManager μ) (ws : SocketId) : Vitals where
  isAlive := (m.sockets ws).isAlive
  lastHeartbeat := (m.sockets ws).lastHeartbeat
  isOpen := m.isOpen ws

/-- One event; `order` is the insertion order of the map of connections. -/
def observe (heartbeatTimeout : Nat) (order : List String) (m : ClientConnectionManager μ) :
    HealthEvent → ClientConnectionManager μ
  | .pong ws => m.pong ws
  | .message clientId now => m.updateHeartbeat clientId now
  | .closing ws => m.markClosing ws
  | .healthCheck now => m.healthCheck heartbeatTimeout now order

def observeAll (heartbeatTimeout : Nat) (order : List String) (m : ClientConnectionManager μ)
    (events : List HealthEvent) : ClientConnectionManager μ :=
  events.foldl (observe heartbeatTimeout order) m

/-- The entries in some order, each once. -/
structure ListedBy (m : ClientConnectionManager μ) (order : List String) : Prop where
  nodup : order.Nodup
  mem_iff : ∀ key, key ∈ order ↔ m.connections key ≠ none

/-- The socket is the client's entry, and nobody else's. -/
structure Holds (m : ClientConnectionManager μ) (clientId : String) (ws : SocketId) : Prop where
  entry : m.connections clientId = some ws
  sole : ∀ key, m.connections key = some ws → key = clientId

/-- The client has no entry. -/
structure Gone (m : ClientConnectionManager μ) (clientId : String) : Prop where
  connections : m.connections clientId = none
  metadata : m.metadata clientId = none

/-- The table has what is left of the connection. -/
def Follows (m : ClientConnectionManager μ) (clientId : String) (ws : SocketId) :
    Option Vitals → Prop
  | some v => m.Holds clientId ws ∧ m.vitals ws = v
  | none => m.Gone clientId

section

variable {m m' : ClientConnectionManager μ} {clientId key : String} {ws : SocketId}
  {heartbeatTimeout now : Nat} {order : List String} {e : HealthEvent} {events : List HealthEvent}

/-! ### One turn of a check -/

theorem removeConnection_connections_of_ne (ws' : Option SocketId) (h : clientId ≠ key) :
    (m.removeConnection key ws').connections clientId = m.connections clientId := by
  rcases removeConnection_cases m key ws' with ⟨heq, -⟩ | hdrops
  · rw [heq]
  · rw [hdrops.connections, update_of_ne h]

/-- A removal writes no socket but the entry's. -/
theorem removeConnection_sockets (ws' : Option SocketId) (h : m.connections key ≠ some ws) :
    (m.removeConnection key ws').sockets ws = m.sockets ws := by
  unfold removeConnection
  cases hentry : m.connections key with
  | none => rfl
  | some current =>
    dsimp only
    split
    · rfl
    · split
      · apply update_of_ne
        rintro rfl
        exact h hentry
      · rfl

theorem checkConnection_connections_of_ne (h : clientId ≠ key) :
    (m.checkConnection heartbeatTimeout now key).connections clientId
      = m.connections clientId := by
  unfold checkConnection
  cases m.connections key with
  | none => rfl
  | some ws' =>
    dsimp only
    split
    · exact removeConnection_connections_of_ne (some ws') h
    · split
      · rfl
      · split
        · rfl
        · rfl

theorem checkConnection_sockets (h : m.connections key ≠ some ws) :
    (m.checkConnection heartbeatTimeout now key).sockets ws = m.sockets ws := by
  unfold checkConnection
  cases hentry : m.connections key with
  | none => rfl
  | some ws' =>
    have hne : ws ≠ ws' := by
      rintro rfl
      exact h hentry
    dsimp only
    split
    · exact removeConnection_sockets (some ws') h
    · split
      · exact update_of_ne hne _ _
      · split
        · exact update_of_ne hne _ _
        · rfl

/-- No turn stores an entry. -/
theorem checkConnection_entry
    (h : (m.checkConnection heartbeatTimeout now key).connections clientId = some ws) :
    m.connections clientId = some ws := by
  by_cases hkey : clientId = key
  · subst hkey
    unfold checkConnection at h
    cases hentry : m.connections clientId with
    | none =>
      rw [hentry] at h
      change m.connections clientId = some ws at h
      rwa [hentry] at h
    | some ws' =>
      rw [hentry] at h
      dsimp only at h
      split at h
      · rcases removeConnection_cases m clientId (some ws') with ⟨heq, -⟩ | hdrops
        · rwa [heq, hentry] at h
        · rw [hdrops.connections, update_self] at h
          cases h
      · split at h
        · rwa [← hentry]
        · split at h
          · rwa [← hentry]
          · rwa [← hentry]
  · rwa [checkConnection_connections_of_ne hkey] at h

/-- The same entries for the socket, and the same socket. -/
theorem follows_of_same (holds : m.Holds clientId ws)
    (hentry : m'.connections clientId = m.connections clientId)
    (hless : ∀ key, m'.connections key = some ws → m.connections key = some ws)
    (hsocket : m'.sockets ws = m.sockets ws) : m'.Follows clientId ws (some (m.vitals ws)) := by
  refine ⟨⟨hentry.trans holds.entry, fun key hkey => holds.sole key (hless key hkey)⟩, ?_⟩
  unfold vitals isOpen
  rw [hsocket]

/-- Writing another socket. -/
theorem follows_of_ne (holds : m.Holds clientId ws) {ws' : SocketId} (h : ws ≠ ws')
    (socket : ExtendedWebSocket μ) :
    Follows { m with sockets := update m.sockets ws' socket } clientId ws
      (some (m.vitals ws)) :=
  follows_of_same holds rfl (fun _ hkey => hkey) (update_of_ne h _ _)

/-- Writing the socket. -/
theorem follows_of_self (holds : m.Holds clientId ws) (socket : ExtendedWebSocket μ) :
    Follows { m with sockets := update m.sockets ws socket } clientId ws
      (some ⟨socket.isAlive, socket.lastHeartbeat, socket.readyState == .open⟩) := by
  refine ⟨⟨holds.entry, holds.sole⟩, ?_⟩
  unfold vitals isOpen
  show Vitals.mk (update m.sockets ws socket ws).isAlive
    (update m.sockets ws socket ws).lastHeartbeat
    ((update m.sockets ws socket ws).readyState == .open) = _
  rw [update_self]

/-- The turn of another entry. -/
theorem follows_checkConnection_of_ne (heartbeatTimeout now : Nat)
    (holds : m.Holds clientId ws) (hkey : key ≠ clientId) :
    (m.checkConnection heartbeatTimeout now key).Follows clientId ws (some (m.vitals ws)) := by
  apply follows_of_same holds
  · exact checkConnection_connections_of_ne (Ne.symm hkey)
  · exact fun k hk => checkConnection_entry hk
  · exact checkConnection_sockets fun hentry => hkey (holds.sole key hentry)

/-- A dead entry is removed. -/
theorem gone_checkConnection (hentry : m.connections clientId = some ws)
    (hdead : (m.sockets ws).isAlive = false) :
    (m.checkConnection heartbeatTimeout now clientId).Gone clientId := by
  unfold checkConnection
  rw [hentry]
  dsimp only
  rw [if_pos hdead]
  rcases removeConnection_cases m clientId (some ws) with ⟨-, hnone | ⟨s, hs, hne⟩⟩ | hdrops
  · rw [hentry] at hnone
    cases hnone
  · rw [hentry] at hne
    exact absurd hs hne
  · refine ⟨?_, ?_⟩
    · rw [hdrops.connections, update_self]
    · rw [hdrops.metadata, update_self]

/-- Its own turn. -/
theorem follows_checkConnection (heartbeatTimeout now : Nat) (holds : m.Holds clientId ws) :
    (m.checkConnection heartbeatTimeout now clientId).Follows clientId ws
      ((m.vitals ws).check heartbeatTimeout now) := by
  show (m.checkConnection heartbeatTimeout now clientId).Follows clientId ws
    (if (m.sockets ws).isAlive = false then none
      else if (m.sockets ws).lastHeartbeat ≠ 0 ∧
          (now : Int) - (m.sockets ws).lastHeartbeat > heartbeatTimeout ∨ m.isOpen ws = true
        then some ⟨false, (m.sockets ws).lastHeartbeat, m.isOpen ws⟩
        else some (m.vitals ws))
  by_cases halive : (m.sockets ws).isAlive = false
  · rw [if_pos halive]
    exact gone_checkConnection holds.entry halive
  · unfold checkConnection
    rw [holds.entry]
    dsimp only
    rw [if_neg halive, if_neg halive]
    by_cases hstale : (m.sockets ws).lastHeartbeat ≠ 0 ∧
        (now : Int) - (m.sockets ws).lastHeartbeat > heartbeatTimeout
    · rw [if_pos hstale, if_pos (.inl hstale)]
      exact follows_of_self holds _
    · rw [if_neg hstale]
      by_cases hopen : (m.sockets ws).readyState = .open
      · rw [if_pos hopen, if_pos (.inr (by rw [isOpen, hopen]; rfl))]
        exact follows_of_self holds _
      · have hclosed : ¬ m.isOpen ws = true := by
          rw [isOpen, beq_iff_eq]
          exact hopen
        rw [if_neg hopen, if_neg fun h => h.elim hstale hclosed]
        exact ⟨holds, rfl⟩

theorem Gone.removeConnection (h : m.Gone clientId) (key : String) (ws : Option SocketId) :
    (m.removeConnection key ws).Gone clientId := by
  rcases removeConnection_cases m key ws with ⟨heq, -⟩ | hdrops
  · rwa [heq]
  · have hnone : ∀ {α : Type} (f : String → Option α), f clientId = none →
        update f key none clientId = none := by
      intro α f hf
      by_cases hkey : clientId = key
      · rw [hkey, update_self]
      · rw [update_of_ne hkey, hf]
    refine ⟨?_, ?_⟩
    · rw [hdrops.connections]
      exact hnone _ h.connections
    · rw [hdrops.metadata]
      exact hnone _ h.metadata

theorem Gone.checkConnection (h : m.Gone clientId) (key : String) :
    (m.checkConnection heartbeatTimeout now key).Gone clientId := by
  unfold ClientConnectionManager.checkConnection
  cases m.connections key with
  | none => exact h
  | some ws' =>
    dsimp only
    split
    · exact h.removeConnection key (some ws')
    · split
      · exact ⟨h.connections, h.metadata⟩
      · split
        · exact ⟨h.connections, h.metadata⟩
        · exact h

/-! ### A check -/

theorem Gone.healthCheck (h : m.Gone clientId) (order : List String) :
    (m.healthCheck heartbeatTimeout now order).Gone clientId := by
  unfold ClientConnectionManager.healthCheck
  induction order generalizing m with
  | nil => exact h
  | cons key order ih => exact ih (h.checkConnection key)

/-- The turns of the others. -/
theorem follows_turns (heartbeatTimeout now : Nat) (holds : m.Holds clientId ws)
    (hnot : clientId ∉ order) :
    (m.healthCheck heartbeatTimeout now order).Follows clientId ws (some (m.vitals ws)) := by
  unfold healthCheck
  induction order generalizing m with
  | nil => exact ⟨holds, rfl⟩
  | cons key order ih =>
    rw [List.mem_cons, not_or] at hnot
    obtain ⟨hkept, hvitals⟩ :=
      follows_checkConnection_of_ne heartbeatTimeout now holds (Ne.symm hnot.1)
    have hrest := ih hkept hnot.2
    rwa [hvitals] at hrest

/-- A check is the connection's own turn in it. -/
theorem follows_healthCheck (heartbeatTimeout now : Nat) (holds : m.Holds clientId ws)
    (nodup : order.Nodup) (hmem : clientId ∈ order) :
    (m.healthCheck heartbeatTimeout now order).Follows clientId ws
      ((m.vitals ws).check heartbeatTimeout now) := by
  obtain ⟨pre, post, rfl⟩ := List.append_of_mem hmem
  obtain ⟨-, hpost, hdisjoint⟩ := List.nodup_append.mp nodup
  have hpre : clientId ∉ pre := fun h => hdisjoint clientId h clientId List.mem_cons_self rfl
  obtain ⟨hkept, hvitals⟩ := follows_turns heartbeatTimeout now holds hpre
  have hturn := follows_checkConnection heartbeatTimeout now hkept
  rw [hvitals] at hturn
  unfold healthCheck at hturn ⊢
  rw [List.foldl_append, List.foldl_cons]
  cases hcheck : (m.vitals ws).check heartbeatTimeout now with
  | none =>
    rw [hcheck] at hturn
    exact Gone.healthCheck hturn post
  | some v =>
    rw [hcheck] at hturn
    have hrest := follows_turns heartbeatTimeout now hturn.1 (List.nodup_cons.mp hpost).1
    rwa [hturn.2] at hrest

/-! ### Runs -/

theorem Gone.observe (h : m.Gone clientId) (e : HealthEvent) :
    (m.observe heartbeatTimeout order e).Gone clientId := by
  cases e with
  | pong ws => exact ⟨h.connections, h.metadata⟩
  | closing ws => exact ⟨h.connections, h.metadata⟩
  | healthCheck now => exact h.healthCheck order
  | message key now =>
    refine ⟨h.connections, ?_⟩
    show (m.updateHeartbeat key now).metadata clientId = none
    unfold updateHeartbeat
    cases hknown : m.metadata key with
    | none => exact h.metadata
    | some known =>
      have hne : clientId ≠ key := by
        rintro rfl
        rw [h.metadata] at hknown
        cases hknown
      dsimp only
      rw [update_of_ne hne, h.metadata]

theorem Gone.observeAll (h : m.Gone clientId) (events : List HealthEvent) :
    (m.observeAll heartbeatTimeout order events).Gone clientId := by
  unfold ClientConnectionManager.observeAll
  induction events generalizing m with
  | nil => exact h
  | cons e events ih => exact ih (h.observe e)

/-- **The table follows the vitals.** -/
theorem vitals_observe (heartbeatTimeout : Nat) (holds : m.Holds clientId ws)
    (nodup : order.Nodup) (hmem : clientId ∈ order) (e : HealthEvent) :
    (m.observe heartbeatTimeout order e).Follows clientId ws
      ((m.vitals ws).next heartbeatTimeout (e.sign clientId ws)) := by
  cases e with
  | pong ws' =>
    show (m.pong ws').Follows clientId ws
      ((m.vitals ws).next heartbeatTimeout (if ws' = ws then .pong else .other))
    by_cases h : ws' = ws
    · subst h
      rw [if_pos rfl]
      exact follows_of_self holds _
    · rw [if_neg h]
      exact follows_of_ne holds (Ne.symm h) _
  | closing ws' =>
    show (m.markClosing ws').Follows clientId ws
      ((m.vitals ws).next heartbeatTimeout (if ws' = ws then .closing else .other))
    by_cases h : ws' = ws
    · subst h
      rw [if_pos rfl]
      exact follows_of_self holds _
    · rw [if_neg h]
      exact follows_of_ne holds (Ne.symm h) _
  | healthCheck now => exact follows_healthCheck heartbeatTimeout now holds nodup hmem
  | message key now =>
    show (m.updateHeartbeat key now).Follows clientId ws
      ((m.vitals ws).next heartbeatTimeout (if key = clientId then .message now else .other))
    unfold updateHeartbeat
    by_cases h : key = clientId
    · subst h
      rw [if_pos rfl, holds.entry]
      obtain ⟨hkept, hvitals⟩ := follows_of_self holds
        { m.sockets ws with isAlive := true, lastHeartbeat := now }
      exact ⟨⟨hkept.entry, hkept.sole⟩, hvitals⟩
    · rw [if_neg h]
      refine follows_of_same holds rfl (fun _ hkey => hkey) ?_
      cases hentry : m.connections key with
      | none => rfl
      | some ws' =>
        apply update_of_ne
        rintro rfl
        exact h (holds.sole key hentry)

/-- **Run lemma.** -/
theorem follows_observeAll (heartbeatTimeout : Nat) (holds : m.Holds clientId ws)
    (nodup : order.Nodup) (hmem : clientId ∈ order) (events : List HealthEvent) :
    (m.observeAll heartbeatTimeout order events).Follows clientId ws
      (exec (Vitals.next heartbeatTimeout) (m.vitals ws)
        (events.map (HealthEvent.sign clientId ws))) := by
  induction events generalizing m with
  | nil => exact ⟨holds, rfl⟩
  | cons e events ih =>
    have hfirst := vitals_observe heartbeatTimeout holds nodup hmem e
    show ((m.observe heartbeatTimeout order e).observeAll heartbeatTimeout order events).Follows
      clientId ws (((m.vitals ws).next heartbeatTimeout (e.sign clientId ws)).bind _)
    cases hnext : (m.vitals ws).next heartbeatTimeout (e.sign clientId ws) with
    | none =>
      rw [hnext] at hfirst
      exact Gone.observeAll hfirst events
    | some v =>
      rw [hnext] at hfirst
      obtain ⟨hkept, rfl⟩ := hfirst
      exact ih hkept

/-! ### A socket under two ids -/

/-- A dead socket stays dead. -/
theorem dead_checkConnection (key : String) (hdead : (m.sockets ws).isAlive = false) :
    ((m.checkConnection heartbeatTimeout now key).sockets ws).isAlive = false := by
  have hmark : ∀ (ws' : SocketId) (socket : ExtendedWebSocket μ), socket.isAlive = false →
      (update m.sockets ws' socket ws).isAlive = false := by
    intro ws' socket hsocket
    by_cases h : ws = ws'
    · rw [h, update_self, hsocket]
    · rw [update_of_ne h, hdead]
  unfold checkConnection
  cases hentry : m.connections key with
  | none => exact hdead
  | some ws' =>
    dsimp only
    split
    · rename_i hdead'
      unfold removeConnection
      rw [hentry]
      dsimp only
      split
      · exact hdead
      · split
        · exact hmark ws' _ hdead'
        · exact hdead
    · split
      · exact hmark ws' _ rfl
      · split
        · exact hmark ws' _ rfl
        · exact hdead

/-- The first visit of a stale socket. -/
theorem marked_checkConnection (hentry : m.connections key = some ws)
    (hstale : (m.sockets ws).lastHeartbeat ≠ 0 ∧
      (now : Int) - (m.sockets ws).lastHeartbeat > heartbeatTimeout) :
    ((m.checkConnection heartbeatTimeout now key).sockets ws).isAlive = false := by
  by_cases hdead : (m.sockets ws).isAlive = false
  · exact dead_checkConnection key hdead
  · unfold checkConnection
    rw [hentry]
    dsimp only
    rw [if_neg hdead, if_pos hstale]
    show (update m.sockets ws { m.sockets ws with isAlive := false } ws).isAlive = false
    rw [update_self]

/-- The visit of an entry whose socket an earlier visit has marked. -/
theorem gone_healthCheck_of_dead (hentry : m.connections clientId = some ws)
    (hdead : (m.sockets ws).isAlive = false) (hmem : clientId ∈ order) :
    (m.healthCheck heartbeatTimeout now order).Gone clientId := by
  unfold healthCheck
  induction order generalizing m with
  | nil => cases hmem
  | cons key order ih =>
    by_cases hkey : clientId = key
    · subst hkey
      exact Gone.healthCheck (gone_checkConnection hentry hdead) order
    · apply ih
      · rw [checkConnection_connections_of_ne hkey, hentry]
      · exact dead_checkConnection key hdead
      · exact (List.mem_cons.mp hmem).resolve_left hkey

/-- **A check visits a socket under two ids twice**, and removes one of the entries. -/
theorem gone_healthCheck_of_twice {other : String} (hentry : m.connections clientId = some ws)
    (hother : m.connections other = some ws) (hne : other ≠ clientId)
    (hstale : (m.sockets ws).lastHeartbeat ≠ 0 ∧
      (now : Int) - (m.sockets ws).lastHeartbeat > heartbeatTimeout)
    (hmem : clientId ∈ order) (hmem' : other ∈ order) :
    (m.healthCheck heartbeatTimeout now order).Gone clientId ∨
      (m.healthCheck heartbeatTimeout now order).Gone other := by
  unfold healthCheck
  induction order generalizing m with
  | nil => cases hmem
  | cons key order ih =>
    rw [List.foldl_cons]
    by_cases hkey : m.connections key = some ws
    · -- marked here, and one of the two is yet to come
      have hdead : ((m.checkConnection heartbeatTimeout now key).sockets ws).isAlive = false :=
        marked_checkConnection hkey hstale
      by_cases h : clientId = key
      · have hrest : other ≠ key := h ▸ hne
        right
        apply gone_healthCheck_of_dead _ hdead ((List.mem_cons.mp hmem').resolve_left hrest)
        rw [checkConnection_connections_of_ne hrest, hother]
      · left
        apply gone_healthCheck_of_dead _ hdead ((List.mem_cons.mp hmem).resolve_left h)
        rw [checkConnection_connections_of_ne h, hentry]
    · have hclient : clientId ≠ key := by
        rintro rfl
        exact hkey hentry
      have hrest : other ≠ key := by
        rintro rfl
        exact hkey hother
      apply ih
      · rw [checkConnection_connections_of_ne hclient, hentry]
      · rw [checkConnection_connections_of_ne hrest, hother]
      · rwa [checkConnection_sockets hkey]
      · exact (List.mem_cons.mp hmem).resolve_left hclient
      · exact (List.mem_cons.mp hmem').resolve_left hrest

end

/-! ### The law -/

section

open Sign

/-- What the health checks do to the socket a client is registered on, in every run. -/
structure SoundChecks (heartbeatTimeout : Nat) (order : List String)
    (m : ClientConnectionManager μ) (clientId : String) (ws : SocketId) : Prop where
  /-- answering between every two checks -/
  kept : ∀ events : List HealthEvent, Answered (events.map (HealthEvent.sign clientId ws)) →
    ∀ key, m.connections key = some ws →
      (m.observeAll heartbeatTimeout order events).connections key = some ws
  /-- open and silent from some point on: two checks -/
  removed : ∀ before after : List HealthEvent,
    (m.observeAll heartbeatTimeout order before).isOpen ws = true → .closing ws ∉ after →
    Silent (after.map (HealthEvent.sign clientId ws)) →
    2 ≤ (checkTimes (after.map (HealthEvent.sign clientId ws))).length →
    ∀ key, m.connections key = some ws →
      (m.observeAll heartbeatTimeout order (before ++ after)).Gone key
  /-- silent in whatever state, the checks at later and later times: past the timeout -/
  removedClosing : ∀ (before after : List HealthEvent) (lastHeartbeat : Nat),
    ((m.observeAll heartbeatTimeout order before).sockets ws).lastHeartbeat = lastHeartbeat →
    lastHeartbeat ≠ 0 →
    Silent (after.map (HealthEvent.sign clientId ws)) →
    (∀ now ∈ checkTimes (after.map (HealthEvent.sign clientId ws)), lastHeartbeat ≤ now) →
    (checkTimes (after.map (HealthEvent.sign clientId ws))).Pairwise (· < ·) →
    heartbeatTimeout + 3 ≤ (checkTimes (after.map (HealthEvent.sign clientId ws))).length →
    ∀ key, m.connections key = some ws →
      (m.observeAll heartbeatTimeout order (before ++ after)).Gone key

variable {m : ClientConnectionManager μ} {clientId : String} {ws : SocketId}
  {heartbeatTimeout registeredAt : Nat} {order : List String}

/-- What is silent from some point on, and ends there. -/
theorem gone_of_exec (holds : m.Holds clientId ws) (nodup : order.Nodup)
    (hmem : clientId ∈ order) {before after : List HealthEvent}
    (ends : exec (Vitals.next heartbeatTimeout)
      ((m.observeAll heartbeatTimeout order before).vitals ws)
      (after.map (HealthEvent.sign clientId ws)) = none) :
    (m.observeAll heartbeatTimeout order (before ++ after)).Gone clientId := by
  have hbefore := follows_observeAll heartbeatTimeout holds nodup hmem before
  have hafter : m.observeAll heartbeatTimeout order (before ++ after)
      = (m.observeAll heartbeatTimeout order before).observeAll heartbeatTimeout order after :=
    List.foldl_append
  rw [hafter]
  cases hexec : exec (Vitals.next heartbeatTimeout) (m.vitals ws)
      (before.map (HealthEvent.sign clientId ws)) with
  | none =>
    rw [hexec] at hbefore
    exact Gone.observeAll hbefore after
  | some v =>
    rw [hexec] at hbefore
    have hrest := follows_observeAll heartbeatTimeout hbefore.1 nodup hmem after
    rwa [ends] at hrest

theorem soundChecks_of_holds (holds : m.Holds clientId ws) (nodup : order.Nodup)
    (hmem : clientId ∈ order) (halive : (m.sockets ws).isAlive = true) :
    m.SoundChecks heartbeatTimeout order clientId ws where
  kept events answered key hkey := by
    cases holds.sole key hkey
    have hrun := follows_observeAll heartbeatTimeout holds nodup hmem events
    cases hexec : exec (Vitals.next heartbeatTimeout) (m.vitals ws)
        (events.map (HealthEvent.sign clientId ws)) with
    | none => exact absurd hexec (exec_of_answered answered (.inl halive))
    | some v =>
      rw [hexec] at hrun
      exact hrun.1.entry
  removed before after hopen stays silent checks key hkey := by
    cases holds.sole key hkey
    apply gone_of_exec holds nodup hmem
    apply exec_of_silent silent hopen _ checks
    intro s hs hclosing
    obtain ⟨e, he, rfl⟩ := List.mem_map.mp hs
    cases e with
    | closing ws' =>
      change (if ws' = ws then Sign.closing else .other) = .closing at hclosing
      split at hclosing
      · rename_i h
        exact stays (h ▸ he)
      · cases hclosing
    | pong ws' =>
      change (if ws' = ws then Sign.pong else .other) = .closing at hclosing
      split at hclosing
      · cases hclosing
      · cases hclosing
    | message key now =>
      change (if key = clientId then Sign.message now else .other) = .closing at hclosing
      split at hclosing
      · cases hclosing
      · cases hclosing
    | healthCheck now => cases hclosing
  removedClosing before after lastHeartbeat hbeat hne silent later ascending checks key hkey := by
    cases holds.sole key hkey
    subst hbeat
    apply gone_of_exec holds nodup hmem
    exact exec_of_silent_closing (k := 0) silent hne (Nat.zero_le _) later ascending checks

/-- **The health checks are sound** for a registration exactly if no other id has its socket. -/
theorem healthChecks_iff (accepted : m.rejectsRegister clientId registeredAt = false)
    (listed : (m.addConnection clientId ws registeredAt).ListedBy order) :
    (m.addConnection clientId ws registeredAt).SoundChecks heartbeatTimeout order clientId ws ↔
      ∀ key, m.connections key = some ws → key = clientId := by
  obtain ⟨m₁, hsame, hstored⟩ := addConnection_store ws accepted
  have hentry : (m.addConnection clientId ws registeredAt).connections clientId = some ws := by
    rw [hstored]
    exact update_self ..
  have hothers : ∀ key, key ≠ clientId →
      (m.addConnection clientId ws registeredAt).connections key = m.connections key := by
    intro key hne
    rw [hstored, ← hsame.connections]
    exact update_of_ne hne ..
  have halive : ((m.addConnection clientId ws registeredAt).sockets ws).isAlive = true := by
    rw [hstored]
    show (update m₁.sockets ws
      { m₁.sockets ws with clientId := some clientId, isAlive := true, lastHeartbeat := _ }
      ws).isAlive = true
    rw [update_self]
  have hmem : clientId ∈ order :=
    (listed.mem_iff clientId).mpr (by rw [hentry]; exact Option.some_ne_none ws)
  generalize m.addConnection clientId ws registeredAt = m' at *
  constructor
  · intro sound key hkey
    by_contra hne
    -- a message, and a check after the timeout
    have hother : m'.connections key = some ws := (hothers key hne).trans hkey
    have hmem' : key ∈ order :=
      (listed.mem_iff key).mpr (by rw [hother]; exact Option.some_ne_none ws)
    have hsingle : Answered ([HealthEvent.message clientId 1,
        .healthCheck (heartbeatTimeout + 2)].map (HealthEvent.sign clientId ws)) := by
      apply answered_of_single
      show (checkTimes [if clientId = clientId then Sign.message 1 else .other,
        .check (heartbeatTimeout + 2)]).length ≤ 1
      rw [if_pos rfl]
      exact Nat.le_refl 1
    have hkept := sound.kept _ hsingle
    have hbeat : ((m'.updateHeartbeat clientId 1).sockets ws).lastHeartbeat = 1 := by
      unfold updateHeartbeat
      rw [hentry]
      show (update m'.sockets ws { m'.sockets ws with isAlive := true, lastHeartbeat := 1 }
        ws).lastHeartbeat = 1
      rw [update_self]
    have hstale : ((m'.updateHeartbeat clientId 1).sockets ws).lastHeartbeat ≠ 0 ∧
        ((heartbeatTimeout + 2 : Nat) : Int)
          - ((m'.updateHeartbeat clientId 1).sockets ws).lastHeartbeat > heartbeatTimeout := by
      rw [hbeat]
      omega
    rcases gone_healthCheck_of_twice (m := m'.updateHeartbeat clientId 1) hentry hother hne
        hstale hmem hmem' with hgone | hgone
    · have hstays := hkept clientId hentry
      change ((m'.updateHeartbeat clientId 1).healthCheck heartbeatTimeout (heartbeatTimeout + 2)
        order).connections clientId = some ws at hstays
      rw [hgone.connections] at hstays
      cases hstays
    · have hstays := hkept key hother
      change ((m'.updateHeartbeat clientId 1).healthCheck heartbeatTimeout (heartbeatTimeout + 2)
        order).connections key = some ws at hstays
      rw [hgone.connections] at hstays
      cases hstays
  · intro sole
    apply soundChecks_of_holds ⟨hentry, fun key hkey => ?_⟩ listed.nodup hmem halive
    by_contra hne
    rw [hothers key hne] at hkey
    exact hne (sole key hkey)

/-- Not vacuous: the first registration of an open socket. -/
theorem healthChecks_iff_first :
    (((ConnectionTable.empty (μ := String) fun _ => { readyState := .open }).manager.addConnection
      "lobby" 0 1000).SoundChecks 60000 ["lobby"] "lobby" 0 ↔
    ∀ key, (ConnectionTable.empty (μ := String) fun _ =>
      { readyState := .open }).manager.connections key = some 0 → key = "lobby") := by
  apply healthChecks_iff rfl
  refine ⟨List.nodup_singleton _, fun key => ?_⟩
  show key ∈ ["lobby"] ↔ update (fun _ => none) "lobby" (some (0 : SocketId)) key ≠ none
  by_cases h : key = "lobby"
  · simp [h]
  · simp [h]

/-- **Counterexample.** A socket registers as `a` and as `b`, and no ping of it is ever missed: the
    first check pings it as `a` and removes it as `b`. -/
theorem not_soundChecks_twoIds :
    ¬ (((ConnectionTable.empty (μ := String) fun _ =>
      { readyState := .open }).manager.addConnection "a" 0 1000).addConnection
        "b" 0 1001).SoundChecks 60000 ["a", "b"] "b" 0 := by
  intro sound
  have hkept := sound.kept [.healthCheck 31000]
    (answered_of_single (Nat.le_refl 1)) "b" (by decide)
  exact absurd hkept (by decide)

end

end ClientConnectionManager

end Montr.Server
