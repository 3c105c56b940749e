import Montr.Server.Registration

namespace Montr.Server

open Transition Function

/-!
# The connection table and the sockets in it

All operations of the connection manager that change its two maps: `addConnection`, the close
handler of `server.ts`, `healthCheck`, `removeStaleConnections`, and the removal of an
unregistered client.  `Map.forEach` visits the entries in some order, which a check is given;
a key that is no longer in the table when its turn comes is skipped.

* `SameTable`, `removeConnection_cases`, `addConnection_store` — each operation leaves the maps
  alone, drops one key from both, or stores one key in both;
* `Consistent` — the maps have the same keys, each socket carries the key it is stored under,
  and a socket whose close was handled is in no entry;
* `consistent_iff_fresh` — the table stays consistent exactly in the runs that store no socket
  that is stored under another id or whose close was handled.
-/

variable {μ : Type}

/-! ### The periodic checks -/

namespace ClientConnectionManager

/-- The turn of one entry in `healthCheck`. -/
def checkConnection (m : ClientConnectionManager μ) (heartbeatTimeout now : Nat)
    (clientId : String) : ClientConnectionManager μ :=
  match m.connections clientId with
  | none => m
  | some ws =>
    let socket := m.sockets ws
    if socket.isAlive = false then m.removeConnection clientId (some ws)
    else if socket.lastHeartbeat ≠ 0 ∧ (now : Int) - socket.lastHeartbeat > heartbeatTimeout then
      { m with sockets := update m.sockets ws { socket with isAlive := false } }
    else if socket.readyState = .open then
      -- pinged; the pong sets the flag again
      { m with sockets := update m.sockets ws { socket with isAlive := false } }
    else m

/-- `healthCheck`, the entries visited in the given order. -/
def healthCheck (m : ClientConnectionManager μ) (heartbeatTimeout now : Nat)
    (order : List String) : ClientConnectionManager μ :=
  order.foldl (fun m clientId => m.checkConnection heartbeatTimeout now clientId) m

/-- The turn of one entry in `removeStaleConnections`. -/
def removeIfStale (m : ClientConnectionManager μ) (maxAge now : Nat) (clientId : String) :
    ClientConnectionManager μ :=
  match m.connections clientId with
  | none => m
  | some ws =>
    let socket := m.sockets ws
    if socket.lastHeartbeat ≠ 0 ∧ (now : Int) - socket.lastHeartbeat > maxAge then
      m.removeConnection clientId (some ws)
    else m

/-- `removeStaleConnections`, the entries visited in the given order. -/
def removeStaleConnections (m : ClientConnectionManager μ) (maxAge now : Nat)
    (order : List String) : ClientConnectionManager μ :=
  order.foldl (fun m clientId => m.removeIfStale maxAge now clientId) m

/-- The `pong` handler. -/
def pong (m : ClientConnectionManager μ) (ws : SocketId) : ClientConnectionManager μ :=
  { m with sockets := update m.sockets ws { m.sockets ws with isAlive := true } }

/-! ### What an operation does to the maps -/

/-- The same maps, and every socket carries the same id. -/
structure SameTable (m m' : ClientConnectionManager μ) : Prop where
  connections : m'.connections = m.connections
  metadata : m'.metadata = m.metadata
  clientId : ∀ ws, (m'.sockets ws).clientId = (m.sockets ws).clientId

/-- One key dropped from both maps. -/
structure Drops (key : String) (m m' : ClientConnectionManager μ) : Prop where
  connections : m'.connections = update m.connections key none
  metadata : m'.metadata = update m.metadata key none
  clientId : ∀ ws, (m'.sockets ws).clientId = (m.sockets ws).clientId

theorem SameTable.refl (m : ClientConnectionManager μ) : SameTable m m :=
  ⟨rfl, rfl, fun _ => rfl⟩

/-- Writing a socket object that carries the same id. -/
theorem sameTable_update (m : ClientConnectionManager μ) (ws : SocketId)
    {socket : ExtendedWebSocket μ} (h : socket.clientId = (m.sockets ws).clientId) :
    SameTable m { m with sockets := update m.sockets ws socket } := by
  refine ⟨rfl, rfl, fun s => ?_⟩
  by_cases hs : s = ws
  · subst hs
    show (update m.sockets s socket s).clientId = _
    rw [update_self, h]
  · show (update m.sockets ws socket s).clientId = _
    rw [update_of_ne hs]

theorem sameTable_closeSocket (m : ClientConnectionManager μ) (ws : SocketId) (code : Nat)
    (reason : String) : SameTable m (m.closeSocket ws code reason) :=
  sameTable_update m ws rfl

theorem sameTable_markClosed (m : ClientConnectionManager μ) (ws : SocketId) :
    SameTable m (m.markClosed ws) :=
  sameTable_update m ws rfl

/-- A removal by identity does nothing for another socket, and drops the key for the entry's
    own. -/
theorem removeConnection_cases (m : ClientConnectionManager μ) (clientId : String)
    (ws : Option SocketId) :
    (m.removeConnection clientId ws = m ∧
      (m.connections clientId = none ∨ ∃ s, ws = some s ∧ m.connections clientId ≠ some s)) ∨
    Drops clientId m (m.removeConnection clientId ws) := by
  unfold removeConnection
  cases hc : m.connections clientId with
  | none => exact .inl ⟨rfl, .inl rfl⟩
  | some current =>
    dsimp only
    split
    · rename_i hother
      left
      refine ⟨rfl, .inr ?_⟩
      cases ws with
      | none => exact absurd hother (by simp)
      | some s =>
        refine ⟨s, rfl, fun heq => ?_⟩
        rw [Option.some.inj heq] at hother
        exact absurd hother (by simp)
    · right
      split
      · have hsame := sameTable_closeSocket m current 1000 "Connection removed"
        exact ⟨by rw [hsame.connections], by rw [hsame.metadata], hsame.clientId⟩
      · exact ⟨rfl, rfl, fun _ => rfl⟩

/-- A register that is not rejected stores its socket, over sockets of which one may have been
    closed. -/
theorem addConnection_store {m : ClientConnectionManager μ} {clientId : String} {now : Nat}
    (ws : SocketId) (h : m.rejectsRegister clientId now = false) :
    ∃ m₁, SameTable m m₁ ∧
      m.addConnection clientId ws now = m₁.storeConnection clientId ws now := by
  unfold rejectsRegister at h
  unfold addConnection
  cases hc : m.connections clientId with
  | none => exact ⟨m, .refl m, rfl⟩
  | some existing =>
    rw [hc] at h
    dsimp only at h ⊢
    rw [h]
    refine ⟨_, ?_, rfl⟩
    split
    · exact sameTable_closeSocket m existing 1000 "New connection established"
    · exact .refl m

theorem addConnection_rejected {m : ClientConnectionManager μ} {clientId : String} {now : Nat}
    (ws : SocketId) (h : m.rejectsRegister clientId now = true) :
    SameTable m (m.addConnection clientId ws now) := by
  unfold rejectsRegister at h
  unfold addConnection
  cases hc : m.connections clientId with
  | none => rw [hc] at h; exact Bool.noConfusion h
  | some existing =>
    rw [hc] at h
    dsimp only at h ⊢
    rw [h, if_pos rfl]
    split
    · exact sameTable_closeSocket m ws 1008 "Duplicate connection"
    · exact .refl m

end ClientConnectionManager

/-! ### Runs -/

/-- The manager, and the sockets whose `close` event has been handled. -/
structure ConnectionTable (μ : Type) where
  manager : ClientConnectionManager μ
  closed : SocketId → Bool

/-- An operation on the table. -/
inductive TableEvent
  | addConnection (clientId : String) (ws : SocketId) (now : Nat)
  /-- the `close` event of a socket, after which it is closed -/
  | closed (ws : SocketId)
  | pong (ws : SocketId)
  | healthCheck (heartbeatTimeout now : Nat) (order : List String)
  | removeStaleConnections (maxAge now : Nat) (order : List String)
  /-- `unregisterClient` -/
  | unregister (clientId : String)
  deriving DecidableEq, Repr

namespace ConnectionTable

open ClientConnectionManager

/-- One operation; all of them are possible in every state. -/
def step (t : ConnectionTable μ) : TableEvent → Option (ConnectionTable μ)
  | .addConnection clientId ws now =>
    some { t with manager := t.manager.addConnection clientId ws now }
  | .closed ws =>
    some
      { manager := (t.manager.markClosed ws).handleDisconnection ws
        closed := update t.closed ws true }
  | .pong ws => some { t with manager := t.manager.pong ws }
  | .healthCheck heartbeatTimeout now order =>
    some { t with manager := t.manager.healthCheck heartbeatTimeout now order }
  | .removeStaleConnections maxAge now order =>
    some { t with manager := t.manager.removeStaleConnections maxAge now order }
  | .unregister clientId => some { t with manager := t.manager.removeConnection clientId none }

/-- **The two maps and the sockets agree.** -/
structure Consistent (t : ConnectionTable μ) : Prop where
  sameKeys : ∀ key, (t.manager.connections key).isSome = (t.manager.metadata key).isSome
  carries : ∀ key ws, t.manager.connections key = some ws →
    (t.manager.sockets ws).clientId = some key
  distinct : ∀ key key' ws, t.manager.connections key = some ws →
    t.manager.connections key' = some ws → key = key'
  gone : ∀ ws, t.closed ws = true → ∀ key, t.manager.connections key ≠ some ws

/-- A register that is not rejected as a duplicate brings a socket that is stored under no other
    id, and whose close has not been handled. -/
def Fresh (t : ConnectionTable μ) : TableEvent → Prop
  | .addConnection clientId ws now =>
    t.manager.rejectsRegister clientId now = false →
      (∀ key, key ≠ clientId → t.manager.connections key ≠ some ws) ∧ t.closed ws = false
  | _ => True

variable {t : ConnectionTable μ} {m m' : ClientConnectionManager μ}

/-! ### What each kind of change keeps -/

theorem Consistent.sameTable (h : Consistent t) (same : SameTable t.manager m) :
    Consistent { t with manager := m } where
  sameKeys key := by
    show (m.connections key).isSome = (m.metadata key).isSome
    rw [same.connections, same.metadata]
    exact h.sameKeys key
  carries key ws hkey := by
    rw [same.connections] at hkey
    rw [same.clientId]
    exact h.carries key ws hkey
  distinct key key' ws hkey hkey' := by
    rw [same.connections] at hkey hkey'
    exact h.distinct key key' ws hkey hkey'
  gone ws hclosed key := by
    rw [same.connections]
    exact h.gone ws hclosed key

/-- An entry that is left after a drop is an entry from before. -/
theorem of_drops {key k : String} {ws : SocketId} (drops : Drops key m m')
    (h : m'.connections k = some ws) : k ≠ key ∧ m.connections k = some ws := by
  rw [drops.connections] at h
  by_cases hk : k = key
  · rw [hk, update_self] at h
    exact absurd h (by simp)
  · rw [update_of_ne hk] at h
    exact ⟨hk, h⟩

theorem Consistent.drops (h : Consistent t) {key : String} (drops : Drops key t.manager m) :
    Consistent { t with manager := m } where
  sameKeys k := by
    show (m.connections k).isSome = (m.metadata k).isSome
    rw [drops.connections, drops.metadata]
    by_cases hk : k = key
    · rw [hk, update_self, update_self]
      rfl
    · rw [update_of_ne hk, update_of_ne hk]
      exact h.sameKeys k
  carries k ws hentry := by
    rw [drops.clientId]
    exact h.carries k ws (of_drops drops hentry).2
  distinct k k' ws hentry hentry' :=
    h.distinct k k' ws (of_drops drops hentry).2 (of_drops drops hentry').2
  gone ws hclosed k hentry := h.gone ws hclosed k (of_drops drops hentry).2

theorem Consistent.remove (h : Consistent t) (clientId : String) (ws : Option SocketId) :
    Consistent { t with manager := t.manager.removeConnection clientId ws } := by
  rcases removeConnection_cases t.manager clientId ws with ⟨heq, -⟩ | hdrops
  · rw [heq]
    exact h
  · exact h.drops hdrops

/-- A check keeps the table consistent if the turn of each entry does. -/
theorem Consistent.foldl {turn : ClientConnectionManager μ → String → ClientConnectionManager μ}
    (keep : ∀ m key, Consistent { t with manager := m } →
      Consistent { t with manager := turn m key })
    (h : Consistent t) (order : List String) :
    Consistent { t with manager := order.foldl turn t.manager } := by
  have hrun : ∀ m, Consistent { t with manager := m } →
      Consistent { t with manager := order.foldl turn m } := by
    intro m hm
    induction order generalizing m with
    | nil => exact hm
    | cons key rest ih => exact ih (turn m key) (keep m key hm)
  exact hrun t.manager h

theorem Consistent.checkConnection (h : Consistent t) (heartbeatTimeout now : Nat)
    (key : String) :
    Consistent { t with manager := t.manager.checkConnection heartbeatTimeout now key } := by
  unfold ClientConnectionManager.checkConnection
  cases hkey : t.manager.connections key with
  | none => exact h
  | some ws =>
    dsimp only
    split
    · exact h.remove key (some ws)
    · split
      · exact h.sameTable (sameTable_update t.manager ws rfl)
      · split
        · exact h.sameTable (sameTable_update t.manager ws rfl)
        · exact h

theorem Consistent.removeIfStale (h : Consistent t) (maxAge now : Nat) (key : String) :
    Consistent { t with manager := t.manager.removeIfStale maxAge now key } := by
  unfold ClientConnectionManager.removeIfStale
  cases hkey : t.manager.connections key with
  | none => exact h
  | some ws =>
    dsimp only
    split
    · exact h.remove key (some ws)
    · exact h

/-- The close handler drops the entry of the socket: in a consistent table it is the one under
    the id the socket carries. -/
theorem Consistent.handleClosed (h : Consistent t) (ws : SocketId) :
    Consistent
      { manager := (t.manager.markClosed ws).handleDisconnection ws
        closed := update t.closed ws true } := by
  have hmarked : Consistent { t with manager := t.manager.markClosed ws } :=
    h.sameTable (sameTable_markClosed t.manager ws)
  have hafter : Consistent { t with
      manager := (t.manager.markClosed ws).handleDisconnection ws } := by
    unfold handleDisconnection
    split
    · rename_i clientId _
      exact hmarked.remove clientId (some ws)
    · exact hmarked
  refine ⟨hafter.sameKeys, hafter.carries, hafter.distinct, fun s hs key hkey => ?_⟩
  by_cases hsw : s = ws
  · subst hsw
    -- an entry of the socket would be under the id it carries, and that one has been dropped
    have hcarries := hafter.carries key s hkey
    have hcarried : ((t.manager.markClosed s).sockets s).clientId = some key := by
      unfold handleDisconnection at hcarries
      split at hcarries
      · rename_i clientId hid
        rcases removeConnection_cases (t.manager.markClosed s) clientId (some s) with
          ⟨heq, -⟩ | hdrops
        · rw [heq] at hcarries
          exact hcarries
        · rw [hdrops.clientId] at hcarries
          exact hcarries
      · exact hcarries
    have hremoved : (t.manager.markClosed s).handleDisconnection s =
        (t.manager.markClosed s).removeConnection key (some s) := by
      unfold handleDisconnection
      rw [hcarried]
    simp only [hremoved] at hkey
    rcases removeConnection_cases (t.manager.markClosed s) key (some s) with
      ⟨heq, hnone | ⟨other, hother, hne⟩⟩ | hdrops
    · rw [heq, hnone] at hkey
      exact absurd hkey (by simp)
    · obtain rfl := Option.some.inj hother
      rw [heq] at hkey
      exact hne hkey
    · exact (of_drops hdrops hkey).1 rfl
  · have hold : t.closed s = true := by
      simpa [update_of_ne hsw] using hs
    exact hafter.gone s hold key hkey

/-! ### Storing a socket -/

section Store

variable (same : SameTable t.manager m) (clientId : String) (ws : SocketId) (now : Nat)
include same

theorem connections_store_of_ne {key : String} (hkey : key ≠ clientId) :
    (m.storeConnection clientId ws now).connections key = t.manager.connections key := by
  rw [← same.connections]
  exact update_of_ne hkey _ _

omit same in
theorem connections_store_self :
    (m.storeConnection clientId ws now).connections clientId = some ws := update_self _ _ _

theorem carried_store_of_ne {s : SocketId} (hs : s ≠ ws) :
    ((m.storeConnection clientId ws now).sockets s).clientId =
      (t.manager.sockets s).clientId := by
  rw [← same.clientId]
  show (update m.sockets ws _ s).clientId = (m.sockets s).clientId
  rw [update_of_ne hs]

omit same in
theorem carried_store_self :
    ((m.storeConnection clientId ws now).sockets ws).clientId = some clientId := by
  show (update m.sockets ws _ ws).clientId = some clientId
  rw [update_self]

/-- An entry of another socket is an entry from before. -/
theorem of_store {key : String} {s : SocketId} (hs : s ≠ ws)
    (hentry : (m.storeConnection clientId ws now).connections key = some s) :
    t.manager.connections key = some s := by
  by_cases hkey : key = clientId
  · rw [hkey, connections_store_self] at hentry
    exact absurd (Option.some.inj hentry).symm hs
  · rwa [connections_store_of_ne same clientId ws now hkey] at hentry

/-- The entry of a socket that no other id has is the new one. -/
theorem key_of_store (hnew : ∀ key, key ≠ clientId → t.manager.connections key ≠ some ws)
    {key : String} (hentry : (m.storeConnection clientId ws now).connections key = some ws) :
    key = clientId := by
  by_contra hne
  rw [connections_store_of_ne same clientId ws now hne] at hentry
  exact hnew key hne hentry

theorem Consistent.store (h : Consistent t)
    (hnew : ∀ key, key ≠ clientId → t.manager.connections key ≠ some ws)
    (hopen : t.closed ws = false) :
    Consistent { t with manager := m.storeConnection clientId ws now } where
  sameKeys key := by
    by_cases hne : key = clientId
    · subst hne
      show ((m.storeConnection key ws now).connections key).isSome =
        (update m.metadata key (some _) key).isSome
      rw [connections_store_self, update_self]
      rfl
    · show ((m.storeConnection clientId ws now).connections key).isSome =
        (update m.metadata clientId (some _) key).isSome
      rw [connections_store_of_ne same clientId ws now hne, update_of_ne hne, same.metadata]
      exact h.sameKeys key
  carries key s hentry := by
    by_cases hs : s = ws
    · subst hs
      rw [key_of_store same clientId s now hnew hentry]
      exact carried_store_self clientId s now
    · rw [carried_store_of_ne same clientId ws now hs]
      exact h.carries key s (of_store same clientId ws now hs hentry)
  distinct key key' s hentry hentry' := by
    by_cases hs : s = ws
    · subst hs
      rw [key_of_store same clientId s now hnew hentry,
        key_of_store same clientId s now hnew hentry']
    · exact h.distinct key key' s (of_store same clientId ws now hs hentry)
        (of_store same clientId ws now hs hentry')
  gone s hclosed key hentry := by
    by_cases hs : s = ws
    · subst hs
      rw [hopen] at hclosed
      exact Bool.noConfusion hclosed
    · exact h.gone s hclosed key (of_store same clientId ws now hs hentry)

end Store

/-- Storing a socket under an id keeps the table consistent exactly when the socket is new to the
    other ids and still open for business. -/
theorem consistent_store_iff (h : Consistent t) (same : SameTable t.manager m) (clientId : String)
    (ws : SocketId) (now : Nat) :
    Consistent { t with manager := m.storeConnection clientId ws now } ↔
      (∀ key, key ≠ clientId → t.manager.connections key ≠ some ws) ∧ t.closed ws = false := by
  have hself := @connections_store_self _ m clientId ws now
  refine ⟨fun h' => ⟨fun key hkey hentry => ?_, ?_⟩,
    fun ⟨hnew, hopen⟩ => Consistent.store same clientId ws now h hnew hopen⟩
  · -- two ids with one socket
    rw [← connections_store_of_ne same clientId ws now hkey] at hentry
    exact hkey (h'.distinct key clientId ws hentry hself)
  · by_contra hclosed
    exact h'.gone ws (by simpa using hclosed) clientId hself

/-- **One operation** keeps a consistent table consistent exactly when it is fresh. -/
theorem consistent_step {t' : ConnectionTable μ} {e : TableEvent} (h : Consistent t)
    (hstep : step t e = some t') : Consistent t' ↔ Fresh t e := by
  -- one case for each operation: it leaves the maps alone, drops one key, or stores one
  cases e with
  | addConnection clientId ws now =>
    obtain rfl := Option.some.inj hstep
    cases hrejects : t.manager.rejectsRegister clientId now with
    | true =>
      have hsame := addConnection_rejected ws hrejects
      refine iff_of_true (h.sameTable hsame) fun hc => ?_
      rw [hrejects] at hc
      exact Bool.noConfusion hc
    | false =>
      obtain ⟨m₁, hsame, heq⟩ := addConnection_store ws hrejects
      rw [heq, consistent_store_iff h hsame]
      exact ⟨fun hfresh _ => hfresh, fun hfresh => hfresh hrejects⟩
  | closed ws =>
    obtain rfl := Option.some.inj hstep
    exact iff_of_true (h.handleClosed ws) trivial
  | pong ws =>
    obtain rfl := Option.some.inj hstep
    exact iff_of_true (h.sameTable (sameTable_update t.manager ws rfl)) trivial
  | healthCheck heartbeatTimeout now order =>
    obtain rfl := Option.some.inj hstep
    refine iff_of_true (h.foldl (fun m key hm => ?_) order) trivial
    exact hm.checkConnection heartbeatTimeout now key
  | removeStaleConnections maxAge now order =>
    obtain rfl := Option.some.inj hstep
    refine iff_of_true (h.foldl (fun m key hm => ?_) order) trivial
    exact hm.removeIfStale maxAge now key
  | unregister clientId =>
    obtain rfl := Option.some.inj hstep
    exact iff_of_true (h.remove clientId none) trivial

/-- An empty table over any sockets, none of which has closed. -/
def empty (sockets : SocketId → ExtendedWebSocket μ) : ConnectionTable μ where
  manager := ⟨fun _ => none, fun _ => none, sockets⟩
  closed _ := false

theorem consistent_empty (sockets : SocketId → ExtendedWebSocket μ) : Consistent (empty sockets) :=
  ⟨fun _ => rfl, fun _ _ h => (nomatch h), fun _ _ _ h => (nomatch h), fun _ h => (nomatch h)⟩

/-- **The connection table is consistent throughout a run exactly when every operation of the run
    is fresh.**  For every sequence of operations, with any sockets under any ids. -/
theorem consistent_iff_fresh (sockets : SocketId → ExtendedWebSocket μ)
    (events : List TableEvent) :
    Throughout step Consistent (empty sockets) events ↔ Each step Fresh (empty sockets) events := by
  have hrun : ∀ t : ConnectionTable μ, ∃ t', exec step t events = some t' := by
    induction events with
    | nil => exact fun t => ⟨t, rfl⟩
    | cons e rest ih =>
      intro t
      cases e <;> exact ih _
  obtain ⟨t', ht'⟩ := hrun (empty sockets)
  apply @throughout_iff_each _ _ _ _ _ _ _ _ (fun _ => True) (fun _ _ _ _ _ => trivial) _
    trivial (consistent_empty sockets) ht'
  intro s e s' _ hs hstep
  exact consistent_step hs hstep

/-- **Counterexample.** One open socket registers as `a` and as `b`: it is stored under both ids
    and carries the second, and after its close has been handled it is still the entry of `a`. -/
theorem not_consistent_twoIds :
    ¬ Throughout step Consistent (empty (μ := String) fun _ => { readyState := .open })
        [.addConnection "a" 0 0, .addConnection "b" 0 1] ∧
      (exec step (empty (μ := String) fun _ => { readyState := .open })
        [.addConnection "a" 0 0, .addConnection "b" 0 1, .closed 0]).any
          (fun t => t.manager.connections "a" == some 0 && t.closed 0) = true := by
  refine ⟨fun h => ?_, by decide⟩
  have hafter := h _ (List.prefix_refl _) _ rfl
  have hsame := hafter.distinct "a" "b" 0 (by decide) (by decide)
  exact absurd hsame (by decide)

end ConnectionTable

end Montr.Server
