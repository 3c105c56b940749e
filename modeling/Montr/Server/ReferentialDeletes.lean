import Montr.Lib.ForeignKeys
import Montr.Lib.Transition

namespace Montr.Server

open ForeignKeys Transition

/-!
# Deletes on either side

What `deleteMedia`, `deletePlaylist`, `deleteClient` and `deleteClientGroup` leave of the rows that
refer to one another.

* `Row`, `Key` — the tables with the columns that refer to rows;
* `declared` — the foreign keys of the SQLite schema, each once;
* `mongoDelete` — the same deletions as the MongoDB adapter writes them out;
* `Handled` — no row refers to the deleted one by a column that MongoDB forgets;
* `agrees_iff_handled` — exactly the runs in which both leave the same rows and nothing dangles.

Primary keys are ids, of a client a string. A row carries its key and its references only.
-/

/-! ### Rows -/

inductive Row
  | mediaFile (id : Nat)
  | playlist (id : Nat)
  | playlistItem (id playlistId mediaId : Nat)
  | client (id : String) (assignedPlaylistId interruptedFromPlaylistId : Option Nat)
  | clientStatus (id : Nat) (clientId : String) (currentMediaId : Option Nat)
  | clientGroup (id : Nat)
  | clientGroupMember (id groupId : Nat) (clientId : String)
  | schedule (id playlistId : Nat) (clientId : Option String) (groupId : Option Nat)
  deriving DecidableEq, Repr

/-- A table and a primary key. -/
inductive Key
  | mediaFile (id : Nat)
  | playlist (id : Nat)
  | playlistItem (id : Nat)
  | client (id : String)
  | clientStatus (id : Nat)
  | clientGroup (id : Nat)
  | clientGroupMember (id : Nat)
  | schedule (id : Nat)
  deriving DecidableEq, Repr

def Row.key : Row → Key
  | .mediaFile id => .mediaFile id
  | .playlist id => .playlist id
  | .playlistItem id _ _ => .playlistItem id
  | .client id _ _ => .client id
  | .clientStatus id _ _ => .clientStatus id
  | .clientGroup id => .clientGroup id
  | .clientGroupMember id _ _ => .clientGroupMember id
  | .schedule id _ _ _ => .schedule id

/-! ### The SQLite schema -/

section

/-- `playlist_items.playlist_id`. -/
def itemPlaylist : Column Row Key where
  get | .playlistItem _ playlistId _ => some (.playlist playlistId) | _ => none
  onDelete := .cascade

/-- `playlist_items.media_id`. -/
def itemMedia : Column Row Key where
  get | .playlistItem _ _ mediaId => some (.mediaFile mediaId) | _ => none
  onDelete := .cascade

/-- `clients.assigned_playlist_id`. -/
def clientAssigned : Column Row Key where
  get | .client _ assigned _ => assigned.map .playlist | _ => none
  onDelete := .setNull fun
    | .client id _ interruptedFrom => .client id none interruptedFrom
    | r => r

/-- `clients.interrupted_from_playlist_id`, of migration 006. -/
def clientInterruptedFrom : Column Row Key where
  get | .client _ _ interruptedFrom => interruptedFrom.map .playlist | _ => none
  onDelete := .setNull fun
    | .client id assigned _ => .client id assigned none
    | r => r

/-- `client_status.client_id`. -/
def statusClient : Column Row Key where
  get | .clientStatus _ clientId _ => some (.client clientId) | _ => none
  onDelete := .cascade

/-- `client_status.current_media_id`. -/
def statusMedia : Column Row Key where
  get | .clientStatus _ _ currentMediaId => currentMediaId.map .mediaFile | _ => none
  onDelete := .setNull fun
    | .clientStatus id clientId _ => .clientStatus id clientId none
    | r => r

/-- `client_group_members.group_id`, of migration 003. -/
def memberGroup : Column Row Key where
  get | .clientGroupMember _ groupId _ => some (.clientGroup groupId) | _ => none
  onDelete := .cascade

/-- `client_group_members.client_id`. -/
def memberClient : Column Row Key where
  get | .clientGroupMember _ _ clientId => some (.client clientId) | _ => none
  onDelete := .cascade

/-- `schedules.playlist_id`, of migration 013. -/
def schedulePlaylist : Column Row Key where
  get | .schedule _ playlistId _ _ => some (.playlist playlistId) | _ => none
  onDelete := .cascade

/-- `schedules.client_id`. -/
def scheduleClient : Column Row Key where
  get | .schedule _ _ clientId _ => clientId.map .client | _ => none
  onDelete := .cascade

/-- `schedules.group_id`. -/
def scheduleGroup : Column Row Key where
  get | .schedule _ _ _ groupId => groupId.map .clientGroup | _ => none
  onDelete := .cascade

end

def foreignKeyColumns : List (Column Row Key) :=
  [itemPlaylist, itemMedia, clientAssigned, clientInterruptedFrom, statusClient, statusMedia,
    memberGroup, memberClient, schedulePlaylist, scheduleClient, scheduleGroup]

/-- The three columns that are cleared. -/
theorem clears_cases {c : Column Row Key} (hc : c ∈ foreignKeyColumns) {clear : Row → Row}
    (h : c.onDelete = .setNull clear) :
    c = clientAssigned ∨ c = clientInterruptedFrom ∨ c = statusMedia := by
  simp only [foreignKeyColumns, List.mem_cons, List.not_mem_nil, or_false] at hc
  rcases hc with rfl | rfl | rfl | rfl | rfl | rfl | rfl | rfl | rfl | rfl | rfl
  all_goals first
    | exact .inl rfl
    | exact .inr (.inl rfl)
    | exact .inr (.inr rfl)
    | exact absurd h (by simp [itemPlaylist, itemMedia, statusClient, memberGroup, memberClient,
        schedulePlaylist, scheduleClient, scheduleGroup])

/-- Clearing a column leaves the other columns. -/
theorem get_clear_cases {c : Column Row Key} (hc : c ∈ foreignKeyColumns) {clear : Row → Row}
    (h : c.onDelete = .setNull clear) {d : Column Row Key} (hd : d ∈ foreignKeyColumns) (r : Row) :
    d.get (clear r) = none ∨ d.get (clear r) = d.get r := by
  simp only [foreignKeyColumns, List.mem_cons, List.not_mem_nil, or_false] at hd
  obtain rfl | rfl | rfl := clears_cases hc h
  all_goals
    obtain rfl := OnDelete.setNull.inj h
    rcases hd with rfl | rfl | rfl | rfl | rfl | rfl | rfl | rfl | rfl | rfl | rfl
    all_goals cases r <;> first | exact .inr rfl | exact .inl rfl

/-- The foreign keys as they are declared. -/
def declared : Schema Row Key where
  key := Row.key
  columns := foreignKeyColumns
  get_clear c hc clear h r := by
    obtain rfl | rfl | rfl := clears_cases hc h
    all_goals
      obtain rfl := OnDelete.setNull.inj h
      cases r <;> rfl
  get_clear_of c hc clear h d hd r := get_clear_cases hc h hd r
  key_clear c hc clear h r := by
    obtain rfl | rfl | rfl := clears_cases hc h
    all_goals
      obtain rfl := OnDelete.setNull.inj h
      cases r <;> rfl

/-! ### Deletes -/

inductive DeleteOperation
  | deleteMedia (id : Nat)
  | deletePlaylist (id : Nat)
  | deleteClient (id : String)
  | deleteClientGroup (id : Nat)
  deriving DecidableEq, Repr

def DeleteOperation.key : DeleteOperation → Key
  | .deleteMedia id => .mediaFile id
  | .deletePlaylist id => .playlist id
  | .deleteClient id => .client id
  | .deleteClientGroup id => .clientGroup id

/-- The SQL adapters: one statement, with foreign keys on. -/
def sqliteDelete (rows : List Row) (operation : DeleteOperation) : List Row :=
  declared.delete rows operation.key

section

/-- `deleteMany` of a collection. -/
def deleteMany (rows : List Row) (filter : Row → Bool) : List Row := rows.filter fun r => !filter r

/-- `updateMany` of a collection. -/
def updateMany (rows : List Row) (filter : Row → Bool) (set : Row → Row) : List Row :=
  rows.map fun r => if filter r then set r else r

/-- `deleteOne` by id. -/
def deleteOne (rows : List Row) (key : Key) : List Row := rows.eraseP fun r => r.key == key

/-- The MongoDB adapter. -/
def mongoDelete (rows : List Row) : DeleteOperation → List Row
  | .deleteMedia id =>
    let rows := deleteMany rows fun
      | .playlistItem _ _ mediaId => mediaId == id
      | _ => false
    let rows := updateMany rows
      (fun
        | .clientStatus _ _ currentMediaId => currentMediaId == some id
        | _ => false)
      (fun
        | .clientStatus statusId clientId _ => .clientStatus statusId clientId none
        | r => r)
    deleteOne rows (.mediaFile id)
  | .deletePlaylist id =>
    let rows := deleteMany rows fun
      | .playlistItem _ playlistId _ => playlistId == id
      | _ => false
    let rows := updateMany rows
      (fun
        | .client _ assigned _ => assigned == some id
        | _ => false)
      (fun
        | .client clientId _ interruptedFrom => .client clientId none interruptedFrom
        | r => r)
    deleteOne rows (.playlist id)
  | .deleteClient id =>
    let rows := deleteMany rows fun
      | .clientStatus _ clientId _ => clientId == id
      | _ => false
    deleteOne rows (.client id)
  | .deleteClientGroup id =>
    let rows := deleteMany rows fun
      | .clientGroupMember _ groupId _ => groupId == id
      | _ => false
    deleteOne rows (.clientGroup id)

end

/-! ### Agreement -/

/-- The rows of the two databases, and the keys deleted so far. -/
structure TwoStores where
  mongo : List Row
  sqlite : List Row
  deleted : List Key

/-- One operation on both. -/
def TwoStores.step (s : TwoStores) (operation : DeleteOperation) : Option TwoStores :=
  some ⟨mongoDelete s.mongo operation, sqliteDelete s.sqlite operation, operation.key :: s.deleted⟩

/-- Primary keys are distinct. -/
def TwoStores.Keyed (s : TwoStores) : Prop := (s.mongo.map Row.key).Nodup

/-- Nothing is left of the deleted rows, and nothing refers to them. -/
def Forgotten (rows : List Row) (deleted : List Key) : Prop :=
  ∀ k ∈ deleted, ∀ r ∈ rows, r.key ≠ k ∧ ∀ c ∈ declared.columns, c.get r ≠ some k

/-- **Both databases have the same rows**, every reference is to a row that is there, and no row
    refers to one that was deleted. -/
structure TwoStores.Agrees (s : TwoStores) : Prop where
  same : s.mongo = s.sqlite
  mongo_intact : declared.Intact s.mongo
  sqlite_intact : declared.Intact s.sqlite
  mongo_forgotten : Forgotten s.mongo s.deleted
  sqlite_forgotten : Forgotten s.sqlite s.deleted

/-- The columns that the MongoDB adapter does nothing about. -/
def forgottenColumns : DeleteOperation → List (Column Row Key)
  | .deleteMedia _ => []
  | .deletePlaylist _ => [clientInterruptedFrom, schedulePlaylist]
  | .deleteClient _ => [memberClient, scheduleClient]
  | .deleteClientGroup _ => [scheduleGroup]

/-- No row refers to the deleted one by such a column. -/
def Handled (rows : List Row) (operation : DeleteOperation) : Prop :=
  ∀ r ∈ rows, ∀ c ∈ forgottenColumns operation, c.get r ≠ some operation.key

section

variable {rows : List Row} {operation : DeleteOperation} {r : Row} {k : Key}

/-! ### What SQLite leaves -/

/-- The tables that columns refer to. -/
def Key.isReferenced : Key → Bool
  | .mediaFile _ | .playlist _ | .client _ | .clientGroup _ => true
  | .playlistItem _ | .clientStatus _ | .clientGroupMember _ | .schedule _ => false

theorem isReferenced_of_get {c : Column Row Key} (hc : c ∈ foreignKeyColumns)
    (h : c.get r = some k) : k.isReferenced = true := by
  simp only [foreignKeyColumns, List.mem_cons, List.not_mem_nil, or_false] at hc
  rcases hc with rfl | rfl | rfl | rfl | rfl | rfl | rfl | rfl | rfl | rfl | rfl
  all_goals
    cases r <;> simp [itemPlaylist, itemMedia, clientAssigned, clientInterruptedFrom, statusClient,
      statusMedia, memberGroup, memberClient, schedulePlaylist, scheduleClient, scheduleGroup] at h
  all_goals first
    | (obtain rfl := h; rfl)
    | (obtain ⟨_, _, rfl⟩ := h; rfl)

/-- What goes along, row by row. -/
theorem goesWith_declared : declared.goesWith [k] r = true ↔ match r with
    | .playlistItem _ playlistId mediaId => .playlist playlistId = k ∨ .mediaFile mediaId = k
    | .clientStatus _ clientId _ => .client clientId = k
    | .clientGroupMember _ groupId clientId => .clientGroup groupId = k ∨ .client clientId = k
    | .schedule _ playlistId clientId groupId => .playlist playlistId = k ∨
      clientId.map .client = some k ∨ groupId.map .clientGroup = some k
    | _ => False := by
  rw [Schema.goesWith_singleton]
  cases r <;> simp [declared, foreignKeyColumns, itemPlaylist, itemMedia, clientAssigned,
    clientInterruptedFrom, statusClient, statusMedia, memberGroup, memberClient, schedulePlaylist,
    scheduleClient, scheduleGroup]

/-- What is cleared, row by row. -/
theorem release_declared (k : Key) (r : Row) : declared.release [k] r = match r with
    | .client id assigned interruptedFrom =>
      .client id (if assigned.map .playlist = some k then none else assigned)
        (if interruptedFrom.map .playlist = some k then none else interruptedFrom)
    | .clientStatus id clientId currentMediaId =>
      .clientStatus id clientId (if currentMediaId.map .mediaFile = some k then none
        else currentMediaId)
    | r => r := by
  have hfold : ∀ r, declared.release [k] r = statusMedia.release [k]
      (clientInterruptedFrom.release [k] (clientAssigned.release [k] r)) := fun _ => rfl
  rw [hfold]
  cases r with
  | client id assigned interruptedFrom =>
    by_cases hassigned : assigned.map .playlist = some k <;>
      by_cases hinterrupted : interruptedFrom.map .playlist = some k <;>
      simp [Column.release, clientAssigned, clientInterruptedFrom, statusMedia, hassigned,
        hinterrupted]
  | clientStatus id clientId currentMediaId =>
    by_cases hmedia : currentMediaId.map .mediaFile = some k <;>
      simp [Column.release, clientAssigned, clientInterruptedFrom, statusMedia, hmedia]
  | _ => rfl

/-- No column refers to an item, a status, a member or a schedule. -/
theorem shallow_declared (rows : List Row) : declared.Shallow rows := by
  intro r _ keys hgoes t _ c hc hget
  have hreferenced := isReferenced_of_get hc hget
  obtain ⟨d, hd, hcascade, k, -, hk⟩ := Schema.goesWith_iff.mp hgoes
  have hgoes' := Schema.goesWith_singleton.mpr ⟨d, hd, hcascade, hk⟩
  rw [goesWith_declared] at hgoes'
  cases r with
  | mediaFile | playlist | client | clientGroup => exact hgoes'
  | playlistItem | clientStatus | clientGroupMember | schedule =>
    exact absurd hreferenced (by simp [declared, Row.key, Key.isReferenced])

/-! ### What MongoDB leaves -/

/-- The row stays. -/
def mongoKeeps : DeleteOperation → Row → Bool
  | .deleteMedia id, .mediaFile mediaId => mediaId != id
  | .deleteMedia id, .playlistItem _ _ mediaId => mediaId != id
  | .deletePlaylist id, .playlist playlistId => playlistId != id
  | .deletePlaylist id, .playlistItem _ playlistId _ => playlistId != id
  | .deleteClient id, .client clientId _ _ => clientId != id
  | .deleteClient id, .clientStatus _ clientId _ => clientId != id
  | .deleteClientGroup id, .clientGroup groupId => groupId != id
  | .deleteClientGroup id, .clientGroupMember _ groupId _ => groupId != id
  | _, _ => true

/-- The row after the update. -/
def mongoSet : DeleteOperation → Row → Row
  | .deleteMedia id, .clientStatus statusId clientId currentMediaId =>
    .clientStatus statusId clientId (if currentMediaId = some id then none else currentMediaId)
  | .deletePlaylist id, .client clientId assigned interruptedFrom =>
    .client clientId (if assigned = some id then none else assigned) interruptedFrom
  | _, r => r

theorem deleteOne_eq (nodup : (rows.map Row.key).Nodup) (k : Key) :
    deleteOne rows k = rows.filter fun r => r.key != k := by
  unfold deleteOne
  induction rows with
  | nil => rfl
  | cons r rest ih =>
    obtain ⟨hnot, hrest⟩ := List.nodup_cons.mp nodup
    by_cases hkey : r.key = k
    · have hall : rest.filter (fun r => r.key != k) = rest := by
        rw [List.filter_eq_self]
        intro t ht
        rw [bne_iff_ne]
        exact fun heq => hnot (hkey ▸ heq ▸ List.mem_map_of_mem ht)
      rw [List.eraseP_cons_of_pos (by simpa using hkey),
        List.filter_cons_of_neg (by simpa using hkey), hall]
    · rw [List.eraseP_cons_of_neg (by simpa using hkey),
        List.filter_cons_of_pos (by simpa using hkey), ih hrest]

/-- Rows deleted, rows updated, and then the row itself deleted. -/
theorem deleteOne_updateMany {filter update : Row → Bool} {set : Row → Row}
    (nodup : (rows.map Row.key).Nodup) (keeps : ∀ r, (set r).key = r.key) (k : Key) :
    deleteOne (updateMany (deleteMany rows filter) update set) k =
      (rows.filter fun r => r.key != k && !filter r).map
        fun r => if update r then set r else r := by
  have hkey : ∀ r, (if update r then set r else r).key = r.key := by
    intro r
    split
    · exact keeps r
    · rfl
  have hkeys : (updateMany (deleteMany rows filter) update set).map Row.key =
      (deleteMany rows filter).map Row.key := by
    rw [updateMany, List.map_map]
    exact List.map_congr_left fun r _ => hkey r
  have hnodup : ((deleteMany rows filter).map Row.key).Nodup :=
    nodup.sublist (List.filter_sublist.map _)
  rw [deleteOne_eq (hkeys ▸ hnodup), updateMany, deleteMany, List.filter_map, List.filter_filter]
  simp only [Function.comp_apply, hkey]

theorem mongoDelete_eq (nodup : (rows.map Row.key).Nodup) (operation : DeleteOperation) :
    mongoDelete rows operation = (rows.filter (mongoKeeps operation)).map (mongoSet operation) := by
  -- both are a filter and a map; what is left is one row
  suffices hrow : ∃ keeps set, mongoDelete rows operation = (rows.filter keeps).map set ∧
      ∀ r, keeps r = mongoKeeps operation r ∧ set r = mongoSet operation r by
    obtain ⟨keeps, set, heq, hrow⟩ := hrow
    rw [heq, funext fun r => (hrow r).1, funext fun r => (hrow r).2]
  have hone : ∀ filter k, deleteOne (deleteMany rows filter) k =
      (rows.filter fun r => r.key != k && !filter r).map id := by
    intro filter k
    have hnodup : ((deleteMany rows filter).map Row.key).Nodup :=
      nodup.sublist (List.filter_sublist.map _)
    rw [deleteOne_eq hnodup, deleteMany, List.filter_filter, List.map_id]
  cases operation with
  | deleteMedia id =>
    refine ⟨_, _, deleteOne_updateMany nodup (fun r => by cases r <;> rfl) _, fun r => ?_⟩
    cases r with
    | clientStatus statusId clientId currentMediaId =>
      by_cases hmedia : currentMediaId = some id <;>
        simp [mongoKeeps, mongoSet, Row.key, hmedia]
    | _ => simp [mongoKeeps, mongoSet, Row.key, bne]
  | deletePlaylist id =>
    refine ⟨_, _, deleteOne_updateMany nodup (fun r => by cases r <;> rfl) _, fun r => ?_⟩
    cases r with
    | client clientId assigned interruptedFrom =>
      by_cases hassigned : assigned = some id <;>
        simp [mongoKeeps, mongoSet, Row.key, hassigned]
    | _ => simp [mongoKeeps, mongoSet, Row.key, bne]
  | deleteClient id =>
    refine ⟨_, _, hone _ _, fun r => ?_⟩
    cases r <;> simp [mongoKeeps, mongoSet, Row.key, bne]
  | deleteClientGroup id =>
    refine ⟨_, _, hone _ _, fun r => ?_⟩
    cases r <;> simp [mongoKeeps, mongoSet, Row.key, bne]

/-! ### One deletion -/

theorem mongoKeeps_eq (handled : ∀ c ∈ forgottenColumns operation, c.get r ≠ some operation.key) :
    mongoKeeps operation r =
      (!decide (r.key = operation.key) && !declared.goesWith [operation.key] r) := by
  rw [Bool.eq_iff_iff, Bool.and_eq_true, Bool.not_eq_true', decide_eq_false_iff_not,
    Bool.not_eq_true', ← Bool.not_eq_true, goesWith_declared]
  cases operation <;> cases r <;> simp_all [mongoKeeps, Row.key, DeleteOperation.key,
    forgottenColumns, schedulePlaylist, scheduleClient, scheduleGroup, memberClient]

theorem mongoSet_eq (handled : ∀ c ∈ forgottenColumns operation, c.get r ≠ some operation.key) :
    mongoSet operation r = declared.release [operation.key] r := by
  rw [release_declared]
  cases operation <;> cases r <;> simp_all [mongoSet, DeleteOperation.key, forgottenColumns,
    clientInterruptedFrom]

theorem sqliteDelete_eq (intact : declared.Intact rows) (operation : DeleteOperation) :
    sqliteDelete rows operation = (rows.filter fun r => !decide (r.key = operation.key) &&
      !declared.goesWith [operation.key] r).map (declared.release [operation.key]) :=
  Schema.delete_eq_of_shallow intact (shallow_declared rows) operation.key

/-- Where MongoDB has a rule for every reference, it does what the schema declares. -/
theorem mongoDelete_of_handled (nodup : (rows.map Row.key).Nodup) (intact : declared.Intact rows)
    (handled : Handled rows operation) :
    mongoDelete rows operation = sqliteDelete rows operation := by
  rw [mongoDelete_eq nodup, sqliteDelete_eq intact]
  have hfilter := List.filter_congr fun r hr => mongoKeeps_eq (handled r hr)
  rw [← hfilter]
  exact List.map_congr_left fun r hr => mongoSet_eq (handled r (List.mem_filter.mp hr).1)

/-- A row that refers to the deleted one by a forgotten column stays as it is there. -/
theorem mem_mongoDelete (nodup : (rows.map Row.key).Nodup) (hr : r ∈ rows) {c : Column Row Key}
    (hc : c ∈ forgottenColumns operation) (h : c.get r = some operation.key) :
    ∃ t ∈ mongoDelete rows operation, c.get t = some operation.key := by
  rw [mongoDelete_eq nodup]
  have hstays : mongoKeeps operation r = true ∧ c.get (mongoSet operation r) = c.get r := by
    cases operation with
    | deleteMedia => exact absurd hc List.not_mem_nil
    | deletePlaylist id =>
      obtain rfl | rfl : c = clientInterruptedFrom ∨ c = schedulePlaylist := by
        simpa [forgottenColumns] using hc
      all_goals cases r <;> first
        | exact ⟨rfl, rfl⟩
        | exact absurd h (by simp [clientInterruptedFrom, schedulePlaylist])
    | deleteClient id =>
      obtain rfl | rfl : c = memberClient ∨ c = scheduleClient := by
        simpa [forgottenColumns] using hc
      all_goals cases r <;> first
        | exact ⟨rfl, rfl⟩
        | exact absurd h (by simp [memberClient, scheduleClient])
    | deleteClientGroup id =>
      obtain rfl : c = scheduleGroup := by simpa [forgottenColumns] using hc
      cases r <;> first | exact ⟨rfl, rfl⟩ | exact absurd h (by simp [scheduleGroup])
  exact ⟨_, List.mem_map_of_mem (List.mem_filter.mpr ⟨hr, hstays.1⟩), hstays.2.trans h⟩

theorem forgottenColumns_subset (operation : DeleteOperation) :
    forgottenColumns operation ⊆ foreignKeyColumns := by
  cases operation <;> simp [forgottenColumns, foreignKeyColumns]

theorem keys_mongoDelete (nodup : (rows.map Row.key).Nodup) (operation : DeleteOperation) :
    ((mongoDelete rows operation).map Row.key).Sublist (rows.map Row.key) := by
  have hkey : ∀ r, (mongoSet operation r).key = r.key := by
    intro r
    cases operation <;> cases r <;> rfl
  have hcomp : Row.key ∘ mongoSet operation = Row.key := funext hkey
  rw [mongoDelete_eq nodup, List.map_map, hcomp]
  exact List.filter_sublist.map _

/-- Where every reference is to a row that is there, deleted keys are only to be gone. -/
theorem forgotten_of_intact {deleted : List Key} (intact : declared.Intact rows)
    (gone : ∀ k ∈ deleted, k ∉ rows.map Row.key) : Forgotten rows deleted := by
  intro k hk r hr
  refine ⟨fun heq => gone k hk (heq ▸ List.mem_map_of_mem hr), fun c hc hget => ?_⟩
  obtain ⟨t, ht, heq⟩ := intact r hr c hc k hget
  exact gone k hk (heq ▸ List.mem_map_of_mem ht)

/-- **One deletion**: the databases agree after it exactly when every reference is handled. -/
theorem agrees_step {s t : TwoStores} (keyed : s.Keyed) (agrees : s.Agrees)
    (h : s.step operation = some t) : t.Agrees ↔ Handled s.mongo operation := by
  obtain rfl := Option.some.inj h
  have hintact := Schema.Intact.delete agrees.sqlite_intact operation.key
  obtain ⟨hkeys, hgone⟩ := Schema.keys_delete declared s.sqlite operation.key
  have hforgotten : Forgotten (sqliteDelete s.sqlite operation) (operation.key :: s.deleted) := by
    refine forgotten_of_intact hintact fun k hk hmem => ?_
    obtain rfl | hk := List.mem_cons.mp hk
    · exact hgone hmem
    · obtain ⟨r, hr, heq⟩ := List.mem_map.mp (hkeys.subset hmem)
      exact (agrees.sqlite_forgotten k hk r hr).1 heq
  constructor
  · intro hagrees r hr c hc hget
    obtain ⟨u, hu, huget⟩ := mem_mongoDelete keyed hr hc hget
    have hsame : mongoDelete s.mongo operation = sqliteDelete s.sqlite operation := hagrees.same
    have husqlite : u ∈ sqliteDelete s.sqlite operation := hsame ▸ hu
    exact (hforgotten operation.key List.mem_cons_self u husqlite).2 c
      (forgottenColumns_subset operation hc) huget
  · intro handled
    have hsame : mongoDelete s.mongo operation = sqliteDelete s.sqlite operation :=
      agrees.same ▸ mongoDelete_of_handled keyed agrees.mongo_intact handled
    have hmongo : declared.Intact (mongoDelete s.mongo operation) := hsame ▸ hintact
    have hmongoForgotten : Forgotten (mongoDelete s.mongo operation)
        (operation.key :: s.deleted) := hsame ▸ hforgotten
    exact ⟨hsame, hmongo, hintact, hmongoForgotten, hforgotten⟩

end

/-- **The two databases agree throughout a run of deletions** exactly when no deletion meets a
    reference that MongoDB forgets. -/
theorem agrees_iff_handled {rows : List Row} {operations : List DeleteOperation}
    (nodup : (rows.map Row.key).Nodup) (intact : declared.Intact rows) :
    Throughout TwoStores.step TwoStores.Agrees ⟨rows, rows, []⟩ operations ↔
      Each TwoStores.step (fun s operation => Handled s.mongo operation) ⟨rows, rows, []⟩
        operations := by
  have hrun : ∀ s, ∃ t, exec TwoStores.step s operations = some t := by
    induction operations with
    | nil => exact fun s => ⟨s, rfl⟩
    | cons operation rest ih => exact fun s => ih _
  obtain ⟨t, ht⟩ := hrun ⟨rows, rows, []⟩
  have hkeep : ∀ s operation t, TwoStores.Keyed s → s.step operation = some t → t.Keyed := by
    intro s operation t hkeyed h
    obtain rfl := Option.some.inj h
    exact hkeyed.sublist (keys_mongoDelete hkeyed operation)
  exact throughout_iff_each hkeep (fun _ _ _ => agrees_step) nodup
    ⟨rfl, intact, intact, fun _ hk => absurd hk List.not_mem_nil,
      fun _ hk => absurd hk List.not_mem_nil⟩ ht

/-! ### A schedule that outlives its playlist -/

/-- A client with two playlists, one of them interrupted, and a schedule. -/
def hallRows : List Row :=
  [.playlist 1, .playlist 2, .client "hall" (some 2) (some 1), .schedule 7 1 (some "hall") none,
    .clientGroup 3, .clientGroupMember 5 3 "hall"]

theorem nodup_hallRows : (hallRows.map Row.key).Nodup := by decide

theorem intact_hallRows : declared.Intact hallRows := by decide

/-- The schedule deleted by hand, then the playlist that nothing else refers to. -/
def noSchedule : List Row := [.playlist 1, .playlist 2, .client "hall" (some 2) none]

/-- A playlist that a client has assigned. -/
theorem agrees_iff_handled_noSchedule :
    Throughout TwoStores.step TwoStores.Agrees ⟨noSchedule, noSchedule, []⟩
      [.deletePlaylist 2, .deleteMedia 4] := by
  refine (agrees_iff_handled (by decide) (by decide)).mpr ⟨?_, fun t _ => ⟨?_, ?_⟩⟩
  · unfold Handled
    decide
  · exact fun r _ c hc => absurd hc List.not_mem_nil
  · exact fun _ _ => trivial

/-- **Counterexample.** MongoDB keeps the schedule and the interrupted playlist of a playlist that
    is gone, and the member and the schedule of a client or a group that is gone. -/
theorem not_agrees_hall :
    (hallRows.map Row.key).Nodup ∧ declared.Intact hallRows ∧
    mongoDelete hallRows (.deletePlaylist 1) =
      [.playlist 2, .client "hall" (some 2) (some 1), .schedule 7 1 (some "hall") none,
        .clientGroup 3, .clientGroupMember 5 3 "hall"] ∧
    sqliteDelete hallRows (.deletePlaylist 1) =
      [.playlist 2, .client "hall" (some 2) none, .clientGroup 3, .clientGroupMember 5 3 "hall"] ∧
    ¬ Throughout TwoStores.step TwoStores.Agrees ⟨hallRows, hallRows, []⟩ [.deletePlaylist 1] ∧
    ¬ Throughout TwoStores.step TwoStores.Agrees ⟨hallRows, hallRows, []⟩
      [.deleteClient "hall"] := by
  refine ⟨nodup_hallRows, intact_hallRows, ?_, ?_, fun agrees => ?_, fun agrees => ?_⟩
  · decide
  · rw [sqliteDelete_eq intact_hallRows]
    decide
  · have hintact := (agrees _ (List.prefix_refl _) _ rfl).mongo_intact
    exact absurd hintact (by decide)
  · have hintact := (agrees _ (List.prefix_refl _) _ rfl).mongo_intact
    exact absurd hintact (by decide)

end Montr.Server
