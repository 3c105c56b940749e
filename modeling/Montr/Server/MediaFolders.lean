import Montr.Server.Database

namespace Montr.Server

/-!
# Media folders

`folder.service.ts` with the folder operations of the adapters: the SQL statements on the SQLite
schema of migration 014 with foreign keys on, and the MongoDB calls.

* `FolderRow`, `MediaRow`, `FolderStore` — the rows;
* `RowOrder` — the order in which a database returns media: by `created_at`, ties anyhow;
* `createMediaFolder`, `updateMediaFolder`, `deleteMediaFolder` — each adapter's own;
* `createFolder`, `updateFolder`, `deleteFolder` — the service.

Paths are compared as lists of characters; they consist of slashes and digits, so the patterns of
`LIKE` and `$regex` are prefix tests.
-/

/-! ### Rows -/

/-- A row of `media_folders`. -/
structure FolderRow where
  id : Nat
  name : String
  parentId : Option Nat
  path : String
  createdBy : Option Nat
  deriving DecidableEq, Repr

/-- A row of `media_files`, as far as folders concern it. -/
structure MediaRow where
  id : Nat
  folderId : Option Nat
  createdAt : String
  deriving DecidableEq, Repr

structure FolderStore where
  folders : List FolderRow
  nextId : Nat
  media : List MediaRow
  deriving DecidableEq, Repr

structure CreateMediaFolderInput where
  name : String
  parentId : Option Nat
  createdBy : Option Nat := none
  deriving DecidableEq, Repr

structure UpdateMediaFolderInput where
  name : Option String := none
  parentId : Field Nat := .undefined
  deriving DecidableEq, Repr

/-! ### Errors -/

/-- What an adapter throws. -/
inductive AdapterError
  | notFound (message : String)
  /-- a message that the service takes for a cycle -/
  | cycle (message : String)
  /-- the index on `(parent_id, name)` -/
  | unique
  /-- a foreign key -/
  | foreignKey
  /-- more variables in a statement than the database takes -/
  | tooManyVariables
  deriving DecidableEq, Repr

/-- What the service throws. -/
inductive FolderError
  | folderNotFound (message : String)
  | folderNameConflict (message : String)
  | folderCycle (message : String)
  | folderNotEmpty (message : String) (media subfolders : Nat)
  | adapter (e : AdapterError)
  deriving DecidableEq, Repr

/-! ### The databases -/

inductive FolderAdapter
  | sqlite
  | mongodb
  deriving DecidableEq, Repr

/-- The order of the rows of `ORDER BY created_at DESC`, for each folder and page. -/
structure RowOrder where
  arrange : Nat → Nat → List MediaRow → List MediaRow
  perm : ∀ folderId page rows, (arrange folderId page rows).Perm rows
  sorted : ∀ folderId page rows,
    (arrange folderId page rows).Pairwise fun a b => b.createdAt ≤ a.createdAt

/-- Ties in the order of the table. -/
def RowOrder.stable : RowOrder where
  arrange _ _ rows := rows.mergeSort fun a b => decide (b.createdAt ≤ a.createdAt)
  perm _ _ rows := List.mergeSort_perm rows _
  sorted _ _ rows := by
    have htrans : ∀ a b c : MediaRow, decide (b.createdAt ≤ a.createdAt) = true →
        decide (c.createdAt ≤ b.createdAt) = true → decide (c.createdAt ≤ a.createdAt) = true := by
      simp only [decide_eq_true_eq]
      exact fun a b c hab hbc => String.le_trans hbc hab
    have htotal : ∀ a b : MediaRow, (decide (b.createdAt ≤ a.createdAt) ||
        decide (a.createdAt ≤ b.createdAt)) = true := by
      simp only [Bool.or_eq_true, decide_eq_true_eq]
      exact fun a b => String.le_total _ _
    exact (List.pairwise_mergeSort htrans htotal rows).imp of_decide_eq_true

structure FolderDatabase where
  adapter : FolderAdapter
  /-- how many variables a statement of SQLite may have -/
  maxVariables : Nat
  order : RowOrder

/-- Two parents that the unique index takes for the same: a `NULL` of SQLite is never one. -/
def FolderAdapter.sameParent : FolderAdapter → Option Nat → Option Nat → Bool
  | _, some p, some q => p == q
  | .mongodb, none, none => true
  | _, _, _ => false

/-- Another folder than `id` has the parent and the name. -/
def FolderAdapter.taken (adapter : FolderAdapter) (folders : List FolderRow) (id : Nat)
    (parentId : Option Nat) (name : String) : Bool :=
  folders.any fun f => f.id != id && adapter.sameParent f.parentId parentId && f.name == name

/-- `path LIKE '{oldPath}/%'`. -/
def isBelow (oldPath path : String) : Bool := (oldPath ++ "/").toList.isPrefixOf path.toList

def fullPath (parentPath : String) (id : Nat) : String :=
  if parentPath = "/" then "/" ++ Nat.repr id else parentPath ++ "/" ++ Nat.repr id

/-- `UPDATE media_folders SET path = .. WHERE id = ..`. -/
def setPath (folders : List FolderRow) (id : Nat) (path : String) : List FolderRow :=
  folders.map fun f => if f.id = id then { f with path := path } else f

/-- The loop over the descendants: the new prefix for the old one. -/
def rewritePaths (folders : List FolderRow) (oldPath newPath : String) : List FolderRow :=
  (folders.filter fun f => isBelow oldPath f.path).foldl (fun folders d =>
    setPath folders d.id (newPath ++ String.ofList (d.path.toList.drop oldPath.length))) folders

/-- The parent that an update moves the folder to, if it does. -/
def UpdateMediaFolderInput.target (input : UpdateMediaFolderInput) (folder : FolderRow) :
    Option (Option Nat) :=
  match input.parentId with
  | .undefined => none
  | .null => if folder.parentId = none then none else some none
  | .value p => if folder.parentId = some p then none else some (some p)

namespace FolderStore

variable (s : FolderStore)

def getMediaFolderById (id : Nat) : Option FolderRow := s.folders.find? (·.id == id)

/-- `getMediaFolderDescendants`, in either adapter. -/
def getMediaFolderDescendants (id : Nat) : List FolderRow :=
  match s.getMediaFolderById id with
  | none => []
  | some folder => (s.folders.filter fun f => isBelow folder.path f.path).mergeSort
      fun a b => decide (a.path ≤ b.path)

/-- `getMediaFolderContentCounts`: media and subfolders. -/
def getMediaFolderContentCounts (id : Nat) : Nat × Nat :=
  ((s.media.filter (·.folderId == some id)).length,
    (s.folders.filter (·.parentId == some id)).length)

/-! ### Create -/

/-- The path of the parent, `/` for the root. -/
def parentPath (parentId : Option Nat) : Except AdapterError String :=
  match parentId with
  | none => .ok "/"
  | some p =>
    match s.getMediaFolderById p with
    | none => .error (.notFound s!"Parent folder with ID {p} not found")
    | some parent => .ok parent.path

/-- `createMediaFolder`.  SQLite inserts the row with a placeholder and sets the path next. -/
def createMediaFolder (adapter : FolderAdapter) (input : CreateMediaFolderInput) :
    Except AdapterError FolderRow × FolderStore :=
  match s.parentPath input.parentId with
  | .error e => (.error e, s)
  | .ok parentPath =>
    let path := fullPath parentPath s.nextId
    let row : FolderRow := ⟨s.nextId, input.name, input.parentId, path, input.createdBy⟩
    match adapter with
    | .sqlite =>
      if adapter.taken s.folders s.nextId input.parentId input.name then (.error .unique, s)
      else (.ok row, { s with
        folders := setPath (s.folders ++ [{ row with path := "/" }]) s.nextId path
        nextId := s.nextId + 1 })
    | .mongodb =>
      -- the counter is incremented first
      if adapter.taken s.folders s.nextId input.parentId input.name then
        (.error .unique, { s with nextId := s.nextId + 1 })
      else (.ok row, { s with folders := s.folders ++ [row], nextId := s.nextId + 1 })

/-! ### Update -/

/-- The path of the new parent, after the checks of `updateMediaFolder`. -/
def newParentPath (adapter : FolderAdapter) (folder : FolderRow) :
    Option Nat → Except AdapterError String
  | none => .ok "/"
  | some p =>
    -- MongoDB compares the ids before it looks for the parent
    if adapter = .mongodb ∧ p = folder.id then
      .error (.cycle "A folder cannot be its own parent")
    else
      match s.getMediaFolderById p with
      | none => .error (.notFound s!"Parent folder {p} not found")
      | some newParent =>
        if p = folder.id then .error (.cycle "A folder cannot be its own parent")
        else if newParent.path = folder.path ∨ isBelow folder.path newParent.path then
          .error (.cycle "Cannot move folder into its own descendant")
        else .ok newParent.path

/-- `UPDATE media_folders` of the row itself. -/
def setFolder (folders : List FolderRow) (id : Nat) (name : String) (parentId : Option Nat)
    (path : String) : List FolderRow :=
  folders.map fun f =>
    if f.id = id then { f with name := name, parentId := parentId, path := path } else f

/-- The statements of the SQL transaction, on the rows. -/
def updateRows (folder : FolderRow) (input : UpdateMediaFolderInput) :
    Except AdapterError (List FolderRow) :=
  let name := input.name.getD folder.name
  if input.name.isSome &&
      FolderAdapter.sqlite.taken s.folders folder.id folder.parentId name then .error .unique
  else
    let renamed := setFolder s.folders folder.id name folder.parentId folder.path
    match input.target folder with
    | none => .ok renamed
    | some parentId =>
      match ({ s with folders := renamed } : FolderStore).newParentPath .sqlite folder parentId with
      | .error e => .error e
      | .ok parentPath =>
        let newPath := fullPath parentPath folder.id
        if FolderAdapter.sqlite.taken renamed folder.id parentId name then .error .unique
        else .ok (rewritePaths (setFolder renamed folder.id name parentId newPath) folder.path
          newPath)

/-- `updateMediaFolder` of the SQL adapters: an error rolls the transaction back. -/
def updateSql (folder : FolderRow) (input : UpdateMediaFolderInput) :
    Except AdapterError Unit × FolderStore :=
  match s.updateRows folder input with
  | .error e => (.error e, s)
  | .ok folders => (.ok (), { s with folders := folders })

/-- `updateMediaFolder` of the MongoDB adapter: the descendants first, one call each. -/
def updateMongo (folder : FolderRow) (input : UpdateMediaFolderInput) :
    Except AdapterError Unit × FolderStore :=
  let name := input.name.getD folder.name
  match input.target folder with
  | none =>
    if FolderAdapter.mongodb.taken s.folders folder.id folder.parentId name then
      (.error .unique, s)
    else (.ok (), { s with
      folders := setFolder s.folders folder.id name folder.parentId folder.path })
  | some parentId =>
    match s.newParentPath .mongodb folder parentId with
    | .error e => (.error e, s)
    | .ok parentPath =>
      let newPath := fullPath parentPath folder.id
      let rewritten := rewritePaths s.folders folder.path newPath
      if FolderAdapter.mongodb.taken rewritten folder.id parentId name then
        (.error .unique, { s with folders := rewritten })
      else (.ok (), { s with
        folders := setFolder rewritten folder.id name parentId newPath })

def updateMediaFolder (adapter : FolderAdapter) (id : Nat) (input : UpdateMediaFolderInput) :
    Except AdapterError Unit × FolderStore :=
  match s.getMediaFolderById id with
  | none => (.error (.notFound s!"Folder with ID {id} not found"), s)
  | some folder =>
    match adapter with
    | .sqlite => s.updateSql folder input
    | .mongodb => s.updateMongo folder input

/-! ### Delete -/

/-- `folder_id` of media in the folders becomes `NULL`. -/
def detach (media : List MediaRow) (folders : List Nat) : List MediaRow :=
  media.map fun m => if m.folderId.any folders.contains then { m with folderId := none } else m

/-- The rows whose parent is among the ids. -/
def childrenOf (folders : List FolderRow) (ids : List Nat) : List FolderRow :=
  folders.filter fun f => f.parentId.any ids.contains

/-- The other rows. -/
def othersOf (folders : List FolderRow) (ids : List Nat) : List FolderRow :=
  folders.filter fun f => !f.parentId.any ids.contains

/-- `ON DELETE CASCADE` of `parent_id`, one level after another: the rows that stay, and the ids of
    those that go. -/
def cascade (folders : List FolderRow) (gone : List Nat) : List FolderRow × List Nat :=
  if _h : childrenOf folders gone = [] then (folders, gone)
  else
    let (kept, below) := cascade (othersOf folders gone) ((childrenOf folders gone).map (·.id))
    (kept, gone ++ below)
termination_by folders.length
decreasing_by
  obtain ⟨f, hf⟩ := List.exists_mem_of_ne_nil _ _h
  obtain ⟨hmem, hchild⟩ := List.mem_filter.mp hf
  rw [othersOf, List.length_filter_lt_length_iff_exists]
  exact ⟨f, hmem, by rw [hchild]; simp⟩

/-- `deleteMediaFolder`. -/
def deleteMediaFolder (adapter : FolderAdapter) (id : Nat) : FolderStore :=
  match s.getMediaFolderById id with
  | none => s
  | some folder =>
    match adapter with
    | .sqlite =>
      let (kept, gone) := cascade (s.folders.filter (·.id != id)) [id]
      { s with folders := kept, media := detach s.media gone }
    | .mongodb =>
      let idsToRemove := id :: (s.folders.filter fun f => isBelow folder.path f.path).map (·.id)
      { s with
        folders := s.folders.filter fun f => !idsToRemove.contains f.id
        media := detach s.media idsToRemove }

/-- `moveMediaToFolder`; SQL has one variable for the folder and one for every id. -/
def moveMediaToFolder (db : FolderDatabase) (mediaIds : List Nat) (folderId : Option Nat) :
    Except AdapterError FolderStore :=
  if mediaIds = [] then .ok s
  else if db.adapter = .sqlite ∧ db.maxVariables < mediaIds.length + 1 then
    .error .tooManyVariables
  else if db.adapter = .sqlite ∧ !folderId.all fun p => s.folders.any (·.id == p) then
    .error .foreignKey
  else .ok { s with media := s.media.map fun m =>
    if mediaIds.contains m.id then { m with folderId := folderId } else m }

/-! ### Media, page by page -/

structure MediaPage where
  data : List MediaRow
  totalPages : Nat

/-- `getAllMedia` with a folder as the filter. -/
def getAllMedia (order : RowOrder) (page limit folderId : Nat) : MediaPage where
  data := ((order.arrange folderId page (s.media.filter (·.folderId == some folderId))).drop
    ((page - 1) * limit)).take limit
  totalPages :=
    ((s.media.filter (·.folderId == some folderId)).length + limit - 1) / limit

def pageLimit : Nat := 500

/-- The loop of `collectMediaIdsInFolders` over the pages of one folder. -/
def collectPages (order : RowOrder) (folderId page : Nat) : List Nat :=
  let result := s.getAllMedia order page pageLimit folderId
  if _h : result.totalPages ≤ page then result.data.map (·.id)
  else result.data.map (·.id) ++ collectPages order folderId (page + 1)
termination_by (s.getAllMedia order page pageLimit folderId).totalPages - page
decreasing_by
  exact Nat.sub_lt_sub_left (Nat.lt_of_not_le _h) (Nat.lt_succ_self page)

def collectMediaIdsInFolders (order : RowOrder) (folderIds : List Nat) : List Nat :=
  folderIds.flatMap fun folderId => s.collectPages order folderId 1

/-! ### The service -/

def createFolder (adapter : FolderAdapter) (input : CreateMediaFolderInput) :
    Except FolderError FolderRow × FolderStore :=
  match s.parentPath input.parentId with
  | .error _ =>
    (.error (.folderNotFound s!"Parent folder with ID {input.parentId.getD 0} not found"), s)
  | .ok _ =>
    match s.createMediaFolder adapter input with
    | (.ok folder, t) => (.ok folder, t)
    | (.error .unique, t) => (.error (.folderNameConflict
        s!"A folder named \"{input.name}\" already exists in this location"), t)
    | (.error e, t) => (.error (.adapter e), t)

def updateFolder (adapter : FolderAdapter) (id : Nat) (input : UpdateMediaFolderInput) :
    Except FolderError Unit × FolderStore :=
  match s.getMediaFolderById id with
  | none => (.error (.folderNotFound s!"Folder with ID {id} not found"), s)
  | some _ =>
    match s.updateMediaFolder adapter id input with
    | (.ok (), t) => (.ok (), t)
    | (.error (.cycle message), t) => (.error (.folderCycle message), t)
    | (.error .unique, t) => (.error (.folderNameConflict
        "A folder with that name already exists in the target location"), t)
    | (.error e, t) => (.error (.adapter e), t)

def deleteFolder (db : FolderDatabase) (id : Nat) (recursive : Bool) :
    Except FolderError Unit × FolderStore :=
  match s.getMediaFolderById id with
  | none => (.error (.folderNotFound s!"Folder with ID {id} not found"), s)
  | some folder =>
    let (media, subfolders) := s.getMediaFolderContentCounts id
    if !recursive && (decide (0 < media) || decide (0 < subfolders)) then
      (.error (.folderNotEmpty (s!"Folder \"{folder.name}\" is not empty ({media} files, " ++
        s!"{subfolders} subfolders). Pass ?recursive=true to force.") media subfolders), s)
    else if recursive then
      let allIds := id :: (s.getMediaFolderDescendants id).map (·.id)
      match s.moveMediaToFolder db (s.collectMediaIdsInFolders db.order allIds) none with
      | .error e => (.error (.adapter e), s)
      | .ok t => (.ok (), t.deleteMediaFolder db.adapter id)
    else (.ok (), s.deleteMediaFolder db.adapter id)

end FolderStore

end Montr.Server
