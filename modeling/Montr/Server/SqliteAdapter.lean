import Montr.Lib.SharedConnection
import Montr.Server.PlaylistService

namespace Montr.Server

open SharedConnection Transition

/-!
# Transactions on the SQLite connection

`rawExecute` and `rawTransaction` of `sqlite.adapter.ts` with the two transaction bodies of the
SQL adapter, `reorderPlaylistItems` and `updateMediaFolder`.  better-sqlite3 runs a statement
synchronously, so a request is suspended exactly between its statements; `BEGIN` is issued
outside the `try`, and the body runs to its first `await` together with it.

* `reorderPlaylistItems_alone` — a reorder nobody interrupts is `ItemTable.reorder`, all or
  nothing;
* `transactions_isolated` — what holds when requests interleave.
-/

/-- A row of `media_folders`. -/
structure MediaFolder where
  id : Nat
  name : String
  parentId : Option Nat
  path : String
  deriving DecidableEq, Repr

/-- The tables the statements below read and write. -/
structure Tables where
  items : ItemTable
  folders : List MediaFolder

namespace Tables

/-- A write of `playlist_items`. -/
def setItems (db : Tables) (f : ItemTable → Option ItemTable) : Option Tables :=
  (f db.items).map fun items => { db with items := items }

/-- `getMediaFolderById`. -/
def getMediaFolderById (db : Tables) (id : Nat) : Option MediaFolder :=
  db.folders.find? (·.id == id)

/-- `UNIQUE(parent_id, name)`, in which nulls are distinct, and the reference to the parent. -/
def foldersValid (folders : List MediaFolder) : Bool :=
  folders.all fun a =>
    (match a.parentId with
      | none => true
      | some p => folders.any (·.id == p)) &&
    folders.all fun b =>
      a.id == b.id || a.parentId.isNone || a.parentId != b.parentId || a.name != b.name

/-- `UPDATE media_folders SET .. WHERE id = ..`. -/
def updateFolder (db : Tables) (id : Nat) (f : MediaFolder → MediaFolder) : Option Tables :=
  let folders := db.folders.map fun x => if x.id = id then f x else x
  if foldersValid folders then some { db with folders := folders } else none

/-- `SELECT * FROM media_folders WHERE path LIKE prefix || '%'`. -/
def foldersBelow (db : Tables) (path : String) : List MediaFolder :=
  db.folders.filter fun x => path.toList.isPrefixOf x.path.toList

end Tables

namespace SqliteAdapter

/-! ### The transaction bodies -/

/-- One `UPDATE playlist_items SET order_index` after the other, then the rest. -/
def assignItems : List (Nat × Int) → Body Tables → Body Tables
  | [], rest => rest
  | (itemId, k) :: pairs, rest =>
    .stmt (fun db => db.setItems (·.update itemId (some k) none)) fun _ => assignItems pairs rest

/-- `reorderPlaylistItems`. -/
def reorderPlaylistItems (itemIds : List Nat) : Body Tables :=
  assignItems (ItemTable.numbering itemIds fun i => -((i : Int) + 1))
    (assignItems (ItemTable.numbering itemIds fun i => i) .ret)

/-- The loop over the descendants: replace the prefix of each path. -/
def repathFolders (oldPath newPath : String) : List MediaFolder → Body Tables
  | [] => .ret
  | d :: rest =>
    let suffix := String.ofList (d.path.toList.drop oldPath.length)
    .stmt (fun db => db.updateFolder d.id ({ · with path := newPath ++ suffix })) fun _ =>
      repathFolders oldPath newPath rest

/-- The part of `updateMediaFolder` after the checks of the new parent. -/
def moveFolder (folder : MediaFolder) (newParentId : Option Nat) (newParentPath : String) :
    Body Tables :=
  let newPath :=
    if newParentPath = "/" then s!"/{folder.id}" else s!"{newParentPath}/{folder.id}"
  .stmt (fun db => db.updateFolder folder.id
      ({ · with parentId := newParentId, path := newPath })) fun _ =>
    .stmt some fun db =>
      repathFolders folder.path newPath (db.foldersBelow (folder.path ++ "/"))

/-- The transaction of `updateMediaFolder`, with the folder row read before it. -/
def updateMediaFolder (folder : MediaFolder) (name : Option String) (parentId : Field Nat) :
    Body Tables :=
  let move : Body Tables :=
    match parentId with
    | .undefined => .ret
    | .null => if folder.parentId = none then .ret else moveFolder folder none "/"
    | .value newParentId =>
      if folder.parentId = some newParentId then .ret
      else .stmt some fun db =>
        match db.getMediaFolderById newParentId with
        | none => .throw
        | some newParent =>
          if newParentId = folder.id then .throw
          else if newParent.path = folder.path ∨
              (folder.path ++ "/").toList.isPrefixOf newParent.path.toList then .throw
          else moveFolder folder (some newParentId) newParent.path
  match name with
  | none => move
  | some name => .stmt (fun db => db.updateFolder folder.id ({ · with name := name })) fun _ => move

/-- A request on the connection. -/
inductive Request
  | rawExecute (statement : Tables → Option Tables)
  | rawTransaction (body : Body Tables)
  | reorder (itemIds : List Nat)
  | updateFolder (folder : MediaFolder) (name : Option String) (parentId : Field Nat)

/-- What a request is about to do on the connection. -/
def Request.proc : Request → Proc Tables
  | .rawExecute statement => .execute statement
  | .rawTransaction body => .transaction body
  | .reorder itemIds => .transaction (reorderPlaylistItems itemIds)
  | .updateFolder folder name parentId => .transaction (updateMediaFolder folder name parentId)

/-- The connection with all requests pending. -/
def connect (db : Tables) (requests : Nat → Request) : Conn Tables :=
  Conn.start db fun r => (requests r).proc

/-! ### A reorder on its own -/

theorem runAlone_assignItems (pairs : List (Nat × Int)) (rest : Body Tables) (db : Tables) :
    Conn.runAlone (assignItems pairs rest) db =
      (db.items.assign pairs).bind fun items => Conn.runAlone rest { db with items := items } := by
  induction pairs generalizing db with
  | nil => rfl
  | cons p pairs ih =>
    simp only [assignItems, Conn.runAlone, ItemTable.assign, Tables.setItems]
    cases db.items.update p.1 (some p.2) none with
    | none => rfl
    | some items => exact ih { db with items := items }

/-- Uninterrupted, the statements of a reorder are `ItemTable.reorder`. -/
theorem runAlone_reorderPlaylistItems (itemIds : List Nat) (db : Tables) :
    Conn.runAlone (reorderPlaylistItems itemIds) db = db.setItems (·.reorder itemIds) := by
  unfold reorderPlaylistItems
  rw [runAlone_assignItems]
  show _ = ((db.items.assign _).bind _).map _
  cases db.items.assign (ItemTable.numbering itemIds fun i => -((i : Int) + 1)) with
  | none => rfl
  | some items =>
    rw [Option.bind_some, Option.bind_some, runAlone_assignItems]
    cases items.assign (ItemTable.numbering itemIds fun i => (i : Int)) <;> rfl

/-- **A reorder that nobody interrupts is atomic**: it commits `ItemTable.reorder`, or rolls
    back and leaves the tables as they were. -/
theorem reorderPlaylistItems_alone {s : Conn Tables} {r : Nat} {itemIds : List Nat}
    (pending : s.procs r = .transaction (reorderPlaylistItems itemIds)) (closed : s.tx = none) :
    ∃ n t, exec Conn.step s (List.replicate n r) = some t ∧
      Conn.EndsAlone t r s.db (s.db.setItems (·.reorder itemIds)) := by
  obtain ⟨n, t, hexec, hends⟩ := Conn.endsAlone_of_transaction _ pending closed
  rw [runAlone_reorderPlaylistItems] at hends
  exact ⟨n, t, hexec, hends⟩

/-! ### Interleaved requests -/

/-- **Transactions are isolated in exclusive runs.**  For every database, any requests and every
    interleaving in which no transaction begins inside another and no other request's statement
    falls inside a transaction that is rolled back: the tables hold exactly the statements of
    the requests that were not rolled back, and no transaction was refused. -/
theorem transactions_isolated (db : Tables) (requests : Nat → Request) {rs : List Nat}
    {t : Conn Tables} (run : Guarded Conn.step Conn.Exclusive (connect db requests) rs t) :
    t.Isolated := by
  refine Conn.isolated_of_exclusive (fun r => ?_) run
  cases requests r <;> rfl

/-- Two items of one playlist. -/
def twoItems : Tables where
  items := ⟨[⟨1, 1, 3, 0, 5⟩, ⟨2, 1, 4, 1, 5⟩], 3, by decide, by decide, by decide⟩
  folders := []

/-- Request `0` moves item 2 to the front without listing item 1, which the UNIQUE constraint
    does not admit; request `1` creates a folder; all others reorder too. -/
def reorderAndCreate : Nat → Request
  | 0 => .reorder [2]
  | 1 => .rawExecute fun db => some { db with folders := db.folders ++ [⟨1, "news", none, "/1"⟩] }
  | _ => .reorder [2, 1]

/-- The failing reorder first, then the folder: isolated. -/
theorem transactions_isolated_inOrder :
    ∃ t, exec Conn.step (connect twoItems reorderAndCreate) [0, 0, 0, 1] = some t ∧
      t.Isolated := by
  have hrollback : ∀ e ∈ [((0 : Nat), fun db : Tables =>
      db.setItems (·.update 2 (some (-1)) none))], e.1 = 0 := by simp
  have run : Guarded Conn.step Conn.Exclusive (connect twoItems reorderAndCreate) [0, 0, 0, 1] _ :=
    .cons ⟨fun _ _ => rfl, nofun⟩ rfl <|
    .cons ⟨nofun, nofun⟩ rfl <|
    .cons ⟨nofun, fun _ tx htx => by obtain rfl := Option.some.inj htx; exact hrollback⟩ rfl <|
    .cons ⟨nofun, nofun⟩ rfl .nil
  exact ⟨_, rfl, transactions_isolated twoItems reorderAndCreate run⟩

/-- **Counterexample.** The folder is created, and reported as created, while the reorder is
    under way; the rollback of the reorder removes it.  A third request's reorder is refused
    because the first one is still open. -/
theorem not_isolated_reorder :
    ∃ t, exec Conn.step (connect twoItems reorderAndCreate) [0, 1, 2, 0, 0] = some t ∧
      t.procs 1 = .succeeded ∧ t.db.folders = [] ∧ t.procs 2 = .refused ∧ ¬ t.Isolated := by
  refine ⟨_, rfl, rfl, rfl, rfl, ?_⟩
  intro h
  exact h.2 2 rfl

end SqliteAdapter

end Montr.Server
