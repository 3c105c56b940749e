import Montr.Server.Database

namespace Montr.Server

/-!
# Interrupting and resuming a client

`interruptWithPlaylist` and `resumeFromInterrupt` of `client.service.ts` over the `updateClient`
of the SQL and the MongoDB adapter.

Both adapters copy a fixed list of properties of the input into the row, and
`interrupted_from_playlist_id` is on neither list.  `KeepsInterruptedFrom` is what follows for
a row, and `not_restores_of_keeps` that no chain of interrupts can be resumed over such an
adapter.
-/

/-- `UpdateClientInput`; an absent property is `undefined` or `none`. -/
structure UpdateClientInput where
  name : Option String := none
  assignedPlaylistId : Field Nat := .undefined
  interruptedFromPlaylistId : Field Nat := .undefined
  status : Option ClientState := none
  lastSeen : Option String := none
  version : Option String := none
  capabilities : Option String := none
  deriving DecidableEq, Repr

/-- The clients and playlists a service call reads. -/
structure ClientStore where
  clients : List Client
  playlists : List Playlist
  deriving DecidableEq, Repr

/-- One column to set. -/
inductive ClientColumn
  | name (v : String)
  | assignedPlaylistId (v : Field Nat)
  | status (v : ClientState)
  | lastSeen (v : String)
  | version (v : String)
  | capabilities (v : String)
  deriving DecidableEq, Repr

/-- `SET column = value` on a row. -/
def ClientColumn.apply (c : Client) : ClientColumn → Client
  | .name v => { c with name := v }
  | .assignedPlaylistId v => { c with assignedPlaylistId := v }
  | .status v => { c with status := v }
  | .lastSeen v => { c with lastSeen := some v }
  | .version v => { c with version := some v }
  | .capabilities v => { c with capabilities := some v }

namespace UpdateClientInput

/-- The properties that are `!== undefined`, in the order both adapters test them. -/
def columns (input : UpdateClientInput) : List ClientColumn :=
  (input.name.map .name).toList ++
  (if input.assignedPlaylistId = .undefined then []
    else [.assignedPlaylistId input.assignedPlaylistId]) ++
  (input.status.map .status).toList ++
  (input.lastSeen.map .lastSeen).toList ++
  (input.version.map .version).toList ++
  (input.capabilities.map .capabilities).toList

end UpdateClientInput

namespace ClientStore

/-- `getClientById` of the adapters. -/
def getClientById (db : ClientStore) (id : String) : Option Client :=
  db.clients.find? (·.id == id)

/-- `getPlaylistById` of the adapters. -/
def getPlaylistById (db : ClientStore) (id : Nat) : Option Playlist :=
  db.playlists.find? (·.id == id)

/-- Write the columns to the row with the id and touch its `updated_at` (a trigger in the SQL
    schema, a `$set` in MongoDB). -/
def setColumns (db : ClientStore) (id : String) (columns : List ClientColumn) (now : String) :
    ClientStore :=
  { db with clients := db.clients.map fun c =>
      if c.id = id then { columns.foldl ClientColumn.apply c with updatedAt := now } else c }

/-- The result of reading the row back. -/
def reread (db : ClientStore) (id : String) : Except ServiceError Client :=
  match db.getClientById id with
  | some c => .ok c
  | none => .error (.plain s!"Client with ID {id} not found")

end ClientStore

/-- `updateClient` of an adapter: the result and the store after the call. -/
abbrev UpdateClient :=
  ClientStore → String → UpdateClientInput → String → Except ServiceError Client × ClientStore

/-- `SqlBaseAdapter.updateClient`. -/
def sqlUpdateClient : UpdateClient := fun db id input now =>
  if input.columns.length = 0 then (db.reread id, db)
  else
    let db := db.setColumns id input.columns now
    (db.reread id, db)

/-- `MongoDBAdapter.updateClient`; `setFields` holds `updated_at` besides the columns. -/
def mongoUpdateClient : UpdateClient := fun db id input now =>
  if input.columns.length + 1 = 1 then (db.reread id, db)
  else
    let db := db.setColumns id input.columns now
    (db.reread id, db)

namespace ClientService

/-- `getClientById`. -/
def getClientById (db : ClientStore) (id : String) : Except ServiceError Client :=
  match db.getClientById id with
  | some c => .ok c
  | none => .error (.app .clientNotFound s!"Client with ID {id} not found" 404)

/-- `interruptWithPlaylist`. -/
def interruptWithPlaylist (updateClient : UpdateClient) (db : ClientStore) (clientId : String)
    (playlistId : Nat) (now : String) : Except ServiceError Client × ClientStore :=
  match getClientById db clientId with
  | .error e => (.error e, db)
  | .ok client =>
    match db.getPlaylistById playlistId with
    | none =>
      (.error (.app .playlistNotFound s!"Playlist with ID {playlistId} not found" 404), db)
    | some _ =>
      -- the playlist to resume, kept from the first interrupt on
      let previousPlaylistId :=
        client.interruptedFromPlaylistId.coalesce client.assignedPlaylistId
      updateClient db clientId
        { assignedPlaylistId := .value playlistId
          interruptedFromPlaylistId := previousPlaylistId } now

/-- `resumeFromInterrupt`; only `null` counts as "not interrupted". -/
def resumeFromInterrupt (updateClient : UpdateClient) (db : ClientStore) (clientId : String)
    (now : String) : Except ServiceError Client × ClientStore :=
  match getClientById db clientId with
  | .error e => (.error e, db)
  | .ok client =>
    if client.interruptedFromPlaylistId = .null then
      (.error (.app .badRequest s!"Client {clientId} is not currently interrupted" 400), db)
    else
      updateClient db clientId
        { assignedPlaylistId := client.interruptedFromPlaylistId
          interruptedFromPlaylistId := .null } now

/-- A chain of interrupts, each with its playlist and time: the results and the store. -/
def interruptAll (updateClient : UpdateClient) (clientId : String) :
    ClientStore → List (Nat × String) → List (Except ServiceError Client) × ClientStore
  | db, [] => ([], db)
  | db, (playlistId, now) :: rest =>
    let (r, db) := interruptWithPlaylist updateClient db clientId playlistId now
    let (rs, db) := interruptAll updateClient clientId db rest
    (r :: rs, db)

/-- **Interrupt then resume is the identity on the assignment**: after the chain a resume
    succeeds, the row has the assignment it started with and is not interrupted, and one more
    resume fails and changes nothing. -/
def Restores (updateClient : UpdateClient) (db : ClientStore) (client : Client)
    (interrupts : List (Nat × String)) (now now' : String) : Prop :=
  let db₁ := (interruptAll updateClient client.id db interrupts).2
  let resumed := resumeFromInterrupt updateClient db₁ client.id now
  let again := resumeFromInterrupt updateClient resumed.2 client.id now'
  (∃ c, resumed.1 = .ok c ∧ resumed.2.getClientById client.id = some c ∧
    c.assignedPlaylistId = client.assignedPlaylistId ∧ c.interruptedFromPlaylistId = .null) ∧
  (∃ e, again.1 = .error e) ∧ again.2 = resumed.2

/-! ### What an update leaves alone -/

/-- The adapter never changes `interrupted_from_playlist_id` of any row. -/
def KeepsInterruptedFrom (updateClient : UpdateClient) : Prop :=
  ∀ db id input now id',
    ((updateClient db id input now).2.getClientById id').map Client.interruptedFromPlaylistId =
      (db.getClientById id').map Client.interruptedFromPlaylistId

/-- No column of the list is the id or the saved playlist. -/
theorem foldl_apply_keeps (columns : List ClientColumn) (c : Client) :
    (columns.foldl ClientColumn.apply c).id = c.id ∧
      (columns.foldl ClientColumn.apply c).interruptedFromPlaylistId =
        c.interruptedFromPlaylistId := by
  induction columns generalizing c with
  | nil => exact ⟨rfl, rfl⟩
  | cons column rest ih =>
    obtain ⟨hid, hfrom⟩ := ih (column.apply c)
    have hcol : (column.apply c).id = c.id ∧
        (column.apply c).interruptedFromPlaylistId = c.interruptedFromPlaylistId := by
      cases column <;> exact ⟨rfl, rfl⟩
    exact ⟨hid.trans hcol.1, hfrom.trans hcol.2⟩

theorem setColumns_keeps (db : ClientStore) (id id' : String) (columns : List ClientColumn)
    (now : String) :
    ((db.setColumns id columns now).getClientById id').map Client.interruptedFromPlaylistId =
      (db.getClientById id').map Client.interruptedFromPlaylistId := by
  have hkeeps : ∀ c, (if c.id = id then
        { columns.foldl ClientColumn.apply c with updatedAt := now } else c).id = c.id ∧
      (if c.id = id then
        { columns.foldl ClientColumn.apply c with updatedAt := now } else c
          ).interruptedFromPlaylistId = c.interruptedFromPlaylistId := by
    intro c
    by_cases h : c.id = id
    · simpa [h] using h ▸ foldl_apply_keeps columns c
    · simp [h]
  have hid := fun c => (hkeeps c).1
  have hfrom := fun c => (hkeeps c).2
  simp only [ClientStore.setColumns, ClientStore.getClientById, List.find?_map, Option.map_map,
    Function.comp_def, hid, hfrom]

theorem sqlUpdateClient_keeps : KeepsInterruptedFrom sqlUpdateClient := by
  intro db id input now id'
  unfold sqlUpdateClient
  split
  · rfl
  · exact setColumns_keeps db id id' _ now

theorem mongoUpdateClient_keeps : KeepsInterruptedFrom mongoUpdateClient := by
  intro db id input now id'
  unfold mongoUpdateClient
  split
  · rfl
  · exact setColumns_keeps db id id' _ now

section

variable {updateClient : UpdateClient}

theorem interruptWithPlaylist_keeps (keeps : KeepsInterruptedFrom updateClient)
    (db : ClientStore) (clientId : String) (playlistId : Nat) (now id' : String) :
    ((interruptWithPlaylist updateClient db clientId playlistId now).2.getClientById id').map
        Client.interruptedFromPlaylistId =
      (db.getClientById id').map Client.interruptedFromPlaylistId := by
  unfold interruptWithPlaylist
  split
  · rfl
  · split
    · rfl
    · exact keeps ..

/-- Induction over the chain: no interrupt saves anything. -/
theorem interruptAll_keeps (keeps : KeepsInterruptedFrom updateClient) (clientId id' : String)
    (db : ClientStore) (interrupts : List (Nat × String)) :
    ((interruptAll updateClient clientId db interrupts).2.getClientById id').map
        Client.interruptedFromPlaylistId =
      (db.getClientById id').map Client.interruptedFromPlaylistId := by
  induction interrupts generalizing db with
  | nil => rfl
  | cons i rest ih =>
    rw [interruptAll, ih, interruptWithPlaylist_keeps keeps]

theorem resumeFromInterrupt_keeps (keeps : KeepsInterruptedFrom updateClient)
    (db : ClientStore) (clientId now id' : String) :
    ((resumeFromInterrupt updateClient db clientId now).2.getClientById id').map
        Client.interruptedFromPlaylistId =
      (db.getClientById id').map Client.interruptedFromPlaylistId := by
  unfold resumeFromInterrupt
  split
  · rfl
  · split
    · rfl
    · exact keeps ..

/-- A row whose saved playlist is `null` is refused. -/
theorem resumeFromInterrupt_of_null {db : ClientStore} {clientId : String} {c : Client}
    (stored : db.getClientById clientId = some c) (null : c.interruptedFromPlaylistId = .null)
    (now : String) :
    resumeFromInterrupt updateClient db clientId now =
      (.error (.app .badRequest s!"Client {clientId} is not currently interrupted" 400), db) := by
  simp [resumeFromInterrupt, getClientById, stored, null]

/-- Over an adapter that leaves the saved playlist alone no chain of interrupts can be resumed:
    a `null` stays `null` and is refused, anything else is never cleared. -/
theorem not_restores_of_keeps (keeps : KeepsInterruptedFrom updateClient) {db : ClientStore}
    {client : Client} (stored : db.getClientById client.id = some client)
    (interrupts : List (Nat × String)) (now now' : String) :
    ¬ Restores updateClient db client interrupts now now' := by
  rintro ⟨⟨c, hok, hrow, -, hcleared⟩, -, -⟩
  have hafter := interruptAll_keeps keeps client.id client.id db interrupts
  rw [stored, Option.map_some] at hafter
  obtain ⟨c₁, hrow₁, hfrom₁⟩ := Option.map_eq_some_iff.mp hafter
  -- the cleared value was there before the resume already
  have hresumed := resumeFromInterrupt_keeps keeps
    (interruptAll updateClient client.id db interrupts).2 client.id now client.id
  rw [hrow, hrow₁, Option.map_some, Option.map_some, Option.some.injEq, hcleared] at hresumed
  rw [resumeFromInterrupt_of_null hrow₁ hresumed.symm] at hok
  exact absurd hok (by simp)

end

/-- **No interrupt can be resumed, on any input.**  For every stored row and every chain of
    interrupts, through the SQL and through the MongoDB adapter. -/
theorem not_restores {db : ClientStore} {client : Client}
    (stored : db.getClientById client.id = some client) (interrupts : List (Nat × String))
    (now now' : String) :
    ¬ Restores sqlUpdateClient db client interrupts now now' ∧
      ¬ Restores mongoUpdateClient db client interrupts now now' :=
  ⟨not_restores_of_keeps sqlUpdateClient_keeps stored interrupts now now',
    not_restores_of_keeps mongoUpdateClient_keeps stored interrupts now now'⟩

/-- A client playing playlist 7; `saved` is its `interrupted_from_playlist_id`. -/
def lobby (saved : Field Nat) : Client where
  id := "lobby"
  name := "Lobby"
  assignedPlaylistId := .value 7
  interruptedFromPlaylistId := saved
  status := .online
  lastSeen := none
  version := none
  capabilities := none
  updatedAt := "t0"

/-- The client and two playlists. -/
def lobbyStore (saved : Field Nat) : ClientStore where
  clients := [lobby saved]
  playlists := [⟨7, "day"⟩, ⟨8, "alarm"⟩]

theorem not_restores_lobby :
    ¬ Restores sqlUpdateClient (lobbyStore .null) (lobby .null) [(8, "t1")] "t2" "t3" ∧
      ¬ Restores mongoUpdateClient (lobbyStore .null) (lobby .null) [(8, "t1")] "t2" "t3" :=
  not_restores rfl [(8, "t1")] "t2" "t3"

/-- **Counterexample.** Playlist 7 is interrupted by 8 and resumed.  In the SQL row nothing was
    saved, so the resume is refused; in a MongoDB document without the property it reports
    success and the interrupting playlist stays assigned. -/
theorem resume_loses_assignment :
    ¬ Restores sqlUpdateClient (lobbyStore .null) (lobby .null) [(8, "t1")] "t2" "t3" ∧
    ¬ Restores mongoUpdateClient (lobbyStore .undefined) (lobby .undefined) [(8, "t1")]
      "t2" "t3" ∧
    (let db := (interruptWithPlaylist sqlUpdateClient (lobbyStore .null) "lobby" 8 "t1").2
     resumeFromInterrupt sqlUpdateClient db "lobby" "t2" =
        (.error (.app .badRequest "Client lobby is not currently interrupted" 400), db) ∧
      (db.getClientById "lobby").map Client.assignedPlaylistId = some (.value 8)) ∧
    (let db := (interruptWithPlaylist mongoUpdateClient (lobbyStore .undefined) "lobby" 8 "t1").2
     let resumed := resumeFromInterrupt mongoUpdateClient db "lobby" "t2"
     resumed = (.ok { lobby .undefined with
        assignedPlaylistId := .value 8, updatedAt := "t1" }, db)) := by
  refine ⟨?_, ?_, by decide, by decide⟩
  · exact not_restores_of_keeps sqlUpdateClient_keeps rfl _ _ _
  · exact not_restores_of_keeps mongoUpdateClient_keeps rfl _ _ _

end ClientService

end Montr.Server
