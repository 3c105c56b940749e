import Mathlib.Data.List.Nodup
import Mathlib.Data.List.Sort

namespace Montr.Server

/-!
# The server's rows and errors

Row types of `database/types.ts` as far as the modelled services read them, the error values
the services throw, and the `playlist_items` table with its constraints.

* `Field` — a JavaScript property that may be absent (`undefined`), `null` or a value; the
  adapters treat the three differently;
* `MediaTable` — the `media_files` rows, with the proof that no checksum occurs twice;
* `ItemTable` — the `playlist_items` rows together with the proof that ids are unique
  (primary key) and that no playlist has two items at one position
  (`UNIQUE(playlist_id, order_index)`).  A statement that would break a constraint fails.
-/

/-! ### Nullable fields -/

/-- A property that is absent, `null` or present. -/
inductive Field (α : Type)
  | undefined
  | null
  | value (a : α)
  deriving DecidableEq, Repr

namespace Field

variable {α : Type}

/-- `a ?? b`. -/
def coalesce : Field α → Field α → Field α
  | value a, _ => value a
  | undefined, b => b
  | null, b => b

/-- `undefined` or `null`. -/
def isNullish : Field α → Bool
  | value _ => false
  | _ => true

end Field

/-! ### Errors -/

/-- The codes of `ErrorCode` the modelled services use. -/
inductive ErrorCode
  | clientNotFound
  | playlistNotFound
  | playlistItemNotFound
  | mediaNotFound
  | folderNotFound
  | invalidMediaType
  | badRequest
  deriving DecidableEq, Repr

/-- What an operation throws. -/
inductive ServiceError
  /-- `AppError(code, message, status)` -/
  | app (code : ErrorCode) (message : String) (status : Nat)
  /-- a plain `Error(message)` -/
  | plain (message : String)
  /-- a statement rejected by a constraint of the database -/
  | constraint
  deriving DecidableEq, Repr

/-! ### Rows -/

/-- `status` of a client. -/
inductive ClientState
  | online
  | offline
  | error
  deriving DecidableEq, Repr

/-- A row of `clients`; in a MongoDB document `interrupted_from_playlist_id` may be absent. -/
structure Client where
  id : String
  name : String
  assignedPlaylistId : Field Nat
  interruptedFromPlaylistId : Field Nat
  status : ClientState
  lastSeen : Option String
  version : Option String
  capabilities : Option String
  updatedAt : String
  deriving DecidableEq, Repr

/-- A row of `playlists`. -/
structure Playlist where
  id : Nat
  name : String
  deriving DecidableEq, Repr

inductive MediaType
  | video
  | image
  deriving DecidableEq, Repr

inductive ApprovalStatus
  | pending
  | approved
  | rejected
  deriving DecidableEq, Repr

/-- The text of a status, as error messages print it. -/
def ApprovalStatus.text : ApprovalStatus → String
  | .pending => "pending"
  | .approved => "approved"
  | .rejected => "rejected"

/-- A row of `media_files`. -/
structure MediaFile where
  id : Nat
  filename : String
  originalFilename : String
  filepath : String
  type : MediaType
  mimeType : Option String := none
  fileSize : Option Nat
  duration : Option Rat
  width : Option Nat := none
  height : Option Nat := none
  checksum : Option String
  approvalStatus : ApprovalStatus
  folderId : Option Nat := none
  deriving DecidableEq, Repr

inductive SubtitleKind
  | embedded
  | external
  deriving DecidableEq, Repr

/-- A row of `subtitle_tracks`. -/
structure SubtitleTrack where
  id : Nat
  mediaFileId : Nat
  kind : SubtitleKind
  storageFilename : Option String
  format : Option String
  checksum : Option String
  streamIndex : Option Nat
  codec : Option String
  language : Option String
  label : Option String
  isDefault : Bool
  isForced : Bool
  deriving DecidableEq, Repr

/-- A row of `playlist_items`; `orderIndex` is negative while a reorder is under way. -/
structure PlaylistItem where
  id : Nat
  playlistId : Nat
  mediaId : Nat
  orderIndex : Int
  imageDuration : Nat
  deriving DecidableEq, Repr

/-- The columns of `UNIQUE(playlist_id, order_index)`. -/
def PlaylistItem.position (r : PlaylistItem) : Nat × Int := (r.playlistId, r.orderIndex)

/-- `SET order_index = .., image_duration = ..`, each only where given. -/
def PlaylistItem.set (r : PlaylistItem) (orderIndex : Option Int) (imageDuration : Option Nat) :
    PlaylistItem :=
  { r with
    orderIndex := orderIndex.getD r.orderIndex
    imageDuration := imageDuration.getD r.imageDuration }

/-! ### The `media_files` table -/

/-- The rows in insertion order, with `checksum TEXT UNIQUE` (nulls are distinct). -/
structure MediaTable where
  rows : List MediaFile
  nextId : Nat
  checksums_nodup : (rows.filterMap MediaFile.checksum).Nodup

namespace MediaTable

/-- `getMediaByChecksum`. -/
def findByChecksum (t : MediaTable) (checksum : String) : Option MediaFile :=
  t.rows.find? (·.checksum == some checksum)

/-- `INSERT INTO media_files` of a row with a checksum, unless it is taken; the row gets the
    next id. -/
def insert (t : MediaTable) (row : MediaFile) (checksum : String) : Option (MediaTable × Nat) :=
  if taken : checksum ∈ t.rows.filterMap MediaFile.checksum then none
  else some
    ({ rows := t.rows ++ [{ row with id := t.nextId, checksum := some checksum }]
       nextId := t.nextId + 1
       checksums_nodup := by
         rw [List.filterMap_append, List.nodup_append]
         refine ⟨t.checksums_nodup, by simp, ?_⟩
         rintro a ha b hb rfl
         have heq : a = checksum := by simpa using hb
         exact taken (heq ▸ ha) }, t.nextId)

/-- `ON DELETE SET NULL` of `folder_id`. -/
def clearFolders (t : MediaTable) (folders : List Nat) : MediaTable where
  rows := t.rows.map fun r =>
    if r.folderId.any folders.contains then { r with folderId := none } else r
  nextId := t.nextId
  checksums_nodup := by
    have hsame : ∀ r : MediaFile, (if r.folderId.any folders.contains then
        { r with folderId := none } else r).checksum = r.checksum := by
      intro r
      split <;> rfl
    rw [List.filterMap_map]
    simpa only [Function.comp_def, hsame] using t.checksums_nodup

/-- A checksum that some row has is the checksum of exactly one row. -/
theorem length_filter_checksum {t : MediaTable} {checksum : String} {row : MediaFile}
    (hrow : row ∈ t.rows) (hsum : row.checksum = some checksum) :
    (t.rows.filter (·.checksum == some checksum)).length = 1 := by
  have hcount : (t.rows.filter (·.checksum == some checksum)).length =
      (t.rows.filterMap MediaFile.checksum).count checksum := by
    rw [← List.countP_eq_length_filter, List.count_filterMap]
  have hle : (t.rows.filterMap MediaFile.checksum).count checksum ≤ 1 :=
    List.nodup_iff_count_le_one.mp t.checksums_nodup checksum
  have hpos : 0 < (t.rows.filterMap MediaFile.checksum).count checksum :=
    List.count_pos_iff.mpr (List.mem_filterMap.mpr ⟨row, hrow, hsum⟩)
  omega

end MediaTable

/-! ### The `playlist_items` table -/

/-- The rows in insertion order, with the constraints of the schema. -/
structure ItemTable where
  rows : List PlaylistItem
  /-- the next `AUTOINCREMENT` id -/
  nextId : Nat
  id_lt : ∀ r ∈ rows, r.id < nextId
  ids_nodup : (rows.map PlaylistItem.id).Nodup
  positions_nodup : (rows.map PlaylistItem.position).Nodup

namespace ItemTable

/-- No items. -/
def empty : ItemTable := ⟨[], 1, by simp, by simp, by simp⟩

/-- The row with the given id. -/
def find (t : ItemTable) (itemId : Nat) : Option PlaylistItem := t.rows.find? (·.id == itemId)

/-- `INSERT INTO playlist_items`: the table and the new row, unless the position is taken. -/
def insert (t : ItemTable) (playlistId mediaId : Nat) (orderIndex : Int) (imageDuration : Nat) :
    Option (ItemTable × PlaylistItem) :=
  let r : PlaylistItem := ⟨t.nextId, playlistId, mediaId, orderIndex, imageDuration⟩
  if taken : r.position ∈ t.rows.map PlaylistItem.position then none
  else some
    ({ rows := t.rows ++ [r]
       nextId := t.nextId + 1
       id_lt := by
         intro x hx
         rcases List.mem_append.mp hx with hx | hx
         · exact Nat.lt_succ_of_lt (t.id_lt x hx)
         · obtain rfl := List.mem_singleton.mp hx
           exact Nat.lt_succ_self _
       ids_nodup := by
         rw [List.map_append, List.nodup_append]
         refine ⟨t.ids_nodup, by simp, ?_⟩
         rintro a ha b hb rfl
         obtain ⟨x, hx, rfl⟩ := List.mem_map.mp ha
         have hlt := t.id_lt x hx
         have heq : x.id = t.nextId := by simpa [r] using hb
         omega
       positions_nodup := by
         rw [List.map_append, List.nodup_append]
         refine ⟨t.positions_nodup, by simp, ?_⟩
         rintro a ha b hb rfl
         have heq : a = r.position := by simpa using hb
         exact taken (heq ▸ ha) }, r)

/-- `UPDATE playlist_items SET .. WHERE id = ..`, unless it would take a position twice. -/
def update (t : ItemTable) (itemId : Nat) (orderIndex : Option Int) (imageDuration : Option Nat) :
    Option ItemTable :=
  let rows := t.rows.map fun r => if r.id = itemId then r.set orderIndex imageDuration else r
  if unique : (rows.map PlaylistItem.position).Nodup then
    some
      { rows := rows
        nextId := t.nextId
        id_lt := by
          intro x hx
          obtain ⟨r, hr, rfl⟩ := List.mem_map.mp hx
          have hlt := t.id_lt r hr
          by_cases h : r.id = itemId
          · simpa [h, PlaylistItem.set] using h ▸ hlt
          · simpa [h] using hlt
        ids_nodup := by
          have hids : rows.map PlaylistItem.id = t.rows.map PlaylistItem.id := by
            simp only [rows, List.map_map]
            refine List.map_congr_left fun r _ => ?_
            by_cases h : r.id = itemId <;> simp [h, PlaylistItem.set]
          rw [hids]
          exact t.ids_nodup
        positions_nodup := unique }
  else none

/-- `DELETE FROM playlist_items WHERE id = ..`. -/
def delete (t : ItemTable) (itemId : Nat) : ItemTable where
  rows := t.rows.filter (·.id != itemId)
  nextId := t.nextId
  id_lt r hr := t.id_lt r (List.mem_filter.mp hr).1
  ids_nodup := t.ids_nodup.sublist (List.filter_sublist.map _)
  positions_nodup := t.positions_nodup.sublist (List.filter_sublist.map _)

/-- The items of a playlist in stored order (`ORDER BY order_index ASC`; no two are at one
    position). -/
def items (t : ItemTable) (playlistId : Nat) : List PlaylistItem :=
  (t.rows.filter (·.playlistId == playlistId)).insertionSort
    fun a b => a.orderIndex ≤ b.orderIndex

/-- What a successful update does to the rows. -/
theorem update_rows {t t' : ItemTable} {itemId : Nat} {orderIndex : Option Int}
    {imageDuration : Option Nat} (h : t.update itemId orderIndex imageDuration = some t') :
    t'.rows =
      t.rows.map fun r => if r.id = itemId then r.set orderIndex imageDuration else r := by
  unfold update at h
  dsimp only at h
  split at h
  · obtain rfl := Option.some.inj h
    rfl
  · exact absurd h (by simp)

end ItemTable

end Montr.Server
