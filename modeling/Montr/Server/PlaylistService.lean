import Montr.Server.Database

namespace Montr.Server

/-!
# Playlist items

The item operations of `playlist.service.ts` over the `playlist_items` table of the SQL
adapter.  A service call is a computation that may throw and keeps the writes it made before
throwing (`ServiceM`); a transaction that fails undoes its statements.

* `ItemTable.assign` — a sequence of `UPDATE playlist_items SET order_index`, with
  `assign_rows` for what it does to the rows;
* `PlaylistService` — the operations, in the words of the source;
* `bind_ok` — the one rule by which a successful call is taken apart.
-/

/-- The tables the playlist service reads and writes. -/
structure PlaylistStore where
  playlists : List Playlist
  media : List MediaFile
  subtitles : List SubtitleTrack
  clients : List Client
  items : ItemTable

/-! ### Statements that renumber items -/

namespace ItemTable

/-- Give each listed item (id, order index), one `UPDATE` after the other. -/
def assign : ItemTable → List (Nat × Int) → Option ItemTable
  | t, [] => some t
  | t, (itemId, k) :: rest => (t.update itemId (some k) none).bind fun t => t.assign rest

/-- `index i` for the item at place `i` of the list. -/
def numbering (itemIds : List Nat) (index : Nat → Int) : List (Nat × Int) :=
  itemIds.zipIdx.map fun p => (p.1, index p.2)

/-- The statements of `reorderPlaylistItems`: temporary negative positions first, to avoid
    violations of the UNIQUE constraint, then the final ones. -/
def reorder (t : ItemTable) (itemIds : List Nat) : Option ItemTable :=
  (t.assign (numbering itemIds fun i => -((i : Int) + 1))).bind fun t =>
    t.assign (numbering itemIds fun i => i)

end ItemTable

/-- What a sequence of renumberings does to one row. -/
def PlaylistItem.assign (r : PlaylistItem) (pairs : List (Nat × Int)) : PlaylistItem :=
  pairs.foldl (fun r p => if r.id = p.1 then r.set (some p.2) none else r) r

/-! ### What the statements do to the rows -/

namespace PlaylistItem

@[simp] theorem set_id (r : PlaylistItem) (k : Option Int) (d : Option Nat) :
    (r.set k d).id = r.id := rfl

/-- Setting columns to what they hold. -/
theorem set_of_same {r : PlaylistItem} {orderIndex : Option Int} {imageDuration : Option Nat}
    (sameIndex : ∀ k, orderIndex = some k → r.orderIndex = k)
    (sameDuration : ∀ d, imageDuration = some d → r.imageDuration = d) :
    r.set orderIndex imageDuration = r := by
  have hindex : orderIndex.getD r.orderIndex = r.orderIndex := by
    cases orderIndex with
    | none => rfl
    | some k => exact (sameIndex k rfl).symm
  have hduration : imageDuration.getD r.imageDuration = r.imageDuration := by
    cases imageDuration with
    | none => rfl
    | some d => exact (sameDuration d rfl).symm
  rw [set, hindex, hduration]

@[simp] theorem assign_nil (r : PlaylistItem) : r.assign [] = r := rfl

theorem assign_cons (r : PlaylistItem) (p : Nat × Int) (pairs : List (Nat × Int)) :
    r.assign (p :: pairs) =
      (if r.id = p.1 then r.set (some p.2) none else r).assign pairs := rfl

/-- Renumbering sets the order index and nothing else. -/
theorem exists_assign_eq (r : PlaylistItem) (pairs : List (Nat × Int)) :
    ∃ k, r.assign pairs = { r with orderIndex := k } := by
  induction pairs generalizing r with
  | nil => exact ⟨r.orderIndex, rfl⟩
  | cons p pairs ih =>
    rw [assign_cons]
    by_cases hp : r.id = p.1
    · obtain ⟨k, hk⟩ := ih (r.set (some p.2) none)
      exact ⟨k, by rw [if_pos hp, hk]; rfl⟩
    · rw [if_neg hp]
      exact ih r

/-- Renumbering to one and the same index, whichever statement comes last. -/
theorem assign_eq_of_agree {r : PlaylistItem} {pairs : List (Nat × Int)} {k : Int}
    (agree : ∀ p ∈ pairs, p.1 = r.id → p.2 = k) :
    r.assign pairs =
      if r.id ∈ pairs.map Prod.fst then { r with orderIndex := k } else r := by
  induction pairs generalizing r with
  | nil => simp
  | cons p pairs ih =>
    have hrest : ∀ q ∈ pairs, q.1 = r.id → q.2 = k := fun q hq => agree q (by simp [hq])
    rw [assign_cons]
    by_cases hp : r.id = p.1
    · -- this statement numbers the row, and a later one can only repeat it
      have hk : p.2 = k := agree p (by simp) hp.symm
      have hmem : r.id ∈ (p :: pairs).map Prod.fst := by simp [hp]
      rw [if_pos hp, ih (by simpa using hrest), hk, if_pos hmem]
      split <;> rfl
    · have hmem : r.id ∈ (p :: pairs).map Prod.fst ↔ r.id ∈ pairs.map Prod.fst := by
        simp [hp]
      rw [if_neg hp, ih hrest]
      simp only [hmem]

/-- A row no statement names stays as it is. -/
theorem assign_of_not_mem {r : PlaylistItem} {pairs : List (Nat × Int)}
    (h : r.id ∉ pairs.map Prod.fst) : r.assign pairs = r := by
  have agree : ∀ p ∈ pairs, p.1 = r.id → p.2 = 0 := fun p hp heq =>
    absurd (heq ▸ List.mem_map_of_mem hp) h
  rw [assign_eq_of_agree agree, if_neg h]

end PlaylistItem

namespace ItemTable

theorem insert_rows {t t' : ItemTable} {playlistId mediaId imageDuration : Nat}
    {orderIndex : Int} {item : PlaylistItem}
    (h : t.insert playlistId mediaId orderIndex imageDuration = some (t', item)) :
    t'.rows = t.rows ++ [item] ∧ item.playlistId = playlistId := by
  unfold insert at h
  dsimp only at h
  split at h
  · exact absurd h (by simp)
  · obtain ⟨rfl, rfl⟩ := Prod.mk.inj (Option.some.inj h)
    exact ⟨rfl, rfl⟩

/-- A row found under an id is the only row with it. -/
theorem eq_of_find {t : ItemTable} {itemId : Nat} {item r : PlaylistItem}
    (found : t.find itemId = some item) (hr : r ∈ t.rows) (hid : r.id = itemId) : r = item := by
  have hmem : item ∈ t.rows := List.mem_of_find?_eq_some found
  have hitem : item.id = itemId := by simpa using List.find?_some found
  exact List.inj_on_of_nodup_map t.ids_nodup hr hmem (hid.trans hitem.symm)

theorem assign_rows {t t' : ItemTable} {pairs : List (Nat × Int)}
    (h : t.assign pairs = some t') : t'.rows = t.rows.map (·.assign pairs) := by
  induction pairs generalizing t with
  | nil =>
    obtain rfl : t = t' := by simpa [assign] using h
    simp
  | cons p pairs ih =>
    obtain ⟨t₁, hfirst, hrest⟩ := Option.bind_eq_some_iff.mp (by simpa only [assign] using h)
    rw [ih hrest, update_rows hfirst, List.map_map]
    exact List.map_congr_left fun r _ => rfl

/-- A successful reorder numbers the rows it names and no others. -/
theorem reorder_rows {t t' : ItemTable} {itemIds : List Nat} (h : t.reorder itemIds = some t') :
    t'.rows = t.rows.map fun r =>
      (r.assign (numbering itemIds fun i => -((i : Int) + 1))).assign
        (numbering itemIds fun i => i) := by
  obtain ⟨t₁, hnegative, hfinal⟩ := Option.bind_eq_some_iff.mp (by simpa only [reorder] using h)
  rw [assign_rows hfinal, assign_rows hnegative, List.map_map]
  rfl

/-- The ids named by the numbering statements are the listed ones. -/
theorem map_fst_numbering (itemIds : List Nat) (index : Nat → Int) :
    (numbering itemIds index).map Prod.fst = itemIds := by
  rw [numbering, List.map_map]
  exact List.zipIdx_map_fst 0 itemIds

/-- A row that is not listed is not renumbered. -/
theorem assign_numbering_of_not_mem {r : PlaylistItem} {itemIds : List Nat} (h : r.id ∉ itemIds)
    (index : Nat → Int) : r.assign (numbering itemIds index) = r :=
  PlaylistItem.assign_of_not_mem (by rwa [map_fst_numbering])

/-- The rows of one playlist, in insertion order. -/
def rowsOf (t : ItemTable) (playlistId : Nat) : List PlaylistItem :=
  t.rows.filter (·.playlistId == playlistId)

theorem items_eq_of_rowsOf {t t' : ItemTable} {playlistId : Nat}
    (h : t'.rowsOf playlistId = t.rowsOf playlistId) :
    t'.items playlistId = t.items playlistId := by
  unfold rowsOf at h
  rw [items, items, h]

/-- Rewriting rows in place leaves a playlist alone if it keeps every row in its playlist and
    fixes the rows of this one. -/
theorem rowsOf_of_map {t t' : ItemTable} {q : Nat} {f : PlaylistItem → PlaylistItem}
    (rows : t'.rows = t.rows.map f) (keeps : ∀ r, (f r).playlistId = r.playlistId)
    (fixes : ∀ r ∈ t.rows, r.playlistId = q → f r = r) : t'.rowsOf q = t.rowsOf q := by
  rw [rowsOf, rows, List.filter_map, rowsOf]
  have hpred : (fun r : PlaylistItem => r.playlistId == q) ∘ f =
      fun r => r.playlistId == q := by
    funext r
    simp [keeps]
  rw [hpred]
  conv_rhs => rw [← List.map_id (List.filter _ _)]
  refine List.map_congr_left fun r hr => ?_
  obtain ⟨hmem, hq⟩ := List.mem_filter.mp hr
  exact fixes r hmem (by simpa using hq)

/-- An update touches the playlist of its item only. -/
theorem update_rowsOf {t t' : ItemTable} {itemId q : Nat} {k : Option Int} {d : Option Nat}
    {item : PlaylistItem} (found : t.find itemId = some item) (hq : q ≠ item.playlistId)
    (h : t.update itemId k d = some t') : t'.rowsOf q = t.rowsOf q := by
  refine rowsOf_of_map (update_rows h) (fun r => by split <;> rfl) fun r hr hrq => ?_
  refine if_neg fun hid => hq ?_
  rw [← eq_of_find found hr hid, hrq]

/-- A reorder of items that all belong to one playlist touches that playlist only. -/
theorem reorder_rowsOf {t t' : ItemTable} {p q : Nat} {itemIds : List Nat}
    (belong : ∀ r ∈ t.rows, r.id ∈ itemIds → r.playlistId = p) (hq : q ≠ p)
    (h : t.reorder itemIds = some t') : t'.rowsOf q = t.rowsOf q := by
  refine rowsOf_of_map (reorder_rows h) (fun r => ?_) fun r hr hrq => ?_
  · obtain ⟨k, hk⟩ := r.exists_assign_eq (numbering itemIds fun i => -((i : Int) + 1))
    obtain ⟨k', hk'⟩ := PlaylistItem.exists_assign_eq { r with orderIndex := k }
      (numbering itemIds fun i => i)
    rw [hk, hk']
  · have hnot : r.id ∉ itemIds := fun hid => hq (hrq ▸ belong r hr hid)
    rw [assign_numbering_of_not_mem hnot, assign_numbering_of_not_mem hnot]

/-- A reorder that lists every item at the position it has changes nothing. -/
theorem reorder_rows_of_inPlace {t t' : ItemTable} {itemIds : List Nat}
    (inPlace : ∀ r ∈ t.rows, ∀ i : Nat, itemIds[i]? = some r.id → r.orderIndex = i)
    (h : t.reorder itemIds = some t') : t'.rows = t.rows := by
  rw [reorder_rows h]
  conv_rhs => rw [← List.map_id t.rows]
  refine List.map_congr_left fun r hr => ?_
  by_cases hid : r.id ∈ itemIds
  · -- whatever the temporary index is, the final statements set the old one again
    obtain ⟨k, hk⟩ := r.exists_assign_eq (numbering itemIds fun i => -((i : Int) + 1))
    have agree : ∀ p ∈ numbering itemIds fun i => (i : Int), p.1 = r.id → p.2 = r.orderIndex := by
      intro p hp hpid
      obtain ⟨⟨itemId, i⟩, hmem, rfl⟩ := List.mem_map.mp hp
      have hget : itemIds[i]? = some itemId := List.mem_zipIdx_iff_getElem?.mp hmem
      rw [inPlace r hr i (by rw [hget, ← hpid])]
    have hfinal := PlaylistItem.assign_eq_of_agree (r := { r with orderIndex := k }) agree
    rw [hk, hfinal, map_fst_numbering, if_pos hid]
    rfl
  · rw [assign_numbering_of_not_mem hid, assign_numbering_of_not_mem hid]
    rfl

end ItemTable

/-! ### The service monad -/

/-- A service call: it may throw, and writes made before the throw stay. -/
abbrev ServiceM (α : Type) : Type := PlaylistStore → Except ServiceError α × PlaylistStore

namespace ServiceM

variable {α β : Type}

def pure (a : α) : ServiceM α := fun db => (.ok a, db)

def throw (e : ServiceError) : ServiceM α := fun db => (.error e, db)

/-- Sequencing; a throw skips the rest. -/
def bind (x : ServiceM α) (f : α → ServiceM β) : ServiceM β := fun db =>
  match x db with
  | (.ok a, db) => f a db
  | (.error e, db) => (.error e, db)

instance : Monad ServiceM where
  pure := pure
  bind := bind

/-- A value, or an error where it is missing. -/
def orThrow (x : Option α) (e : ServiceError) : ServiceM α := fun db =>
  match x with
  | some a => (.ok a, db)
  | none => (.error e, db)

/-- A successful sequence is a successful call followed by another. -/
theorem bind_ok {x : ServiceM α} {f : α → ServiceM β} {db db' : PlaylistStore} {b : β} :
    (x >>= f) db = (.ok b, db') ↔ ∃ a db₁, x db = (.ok a, db₁) ∧ f a db₁ = (.ok b, db') := by
  show ServiceM.bind x f db = _ ↔ _
  unfold ServiceM.bind
  rcases h : x db with ⟨a | a, db₁⟩ <;> simp

@[simp] theorem pure_ok {a b : α} {db db' : PlaylistStore} :
    (Pure.pure a : ServiceM α) db = (.ok b, db') ↔ a = b ∧ db = db' := by
  show ServiceM.pure a db = _ ↔ _
  simp [ServiceM.pure]

@[simp] theorem orThrow_ok {x : Option α} {e : ServiceError} {a : α} {db db' : PlaylistStore} :
    orThrow x e db = (.ok a, db') ↔ x = some a ∧ db = db' := by
  cases x <;> simp [orThrow]

@[simp] theorem throw_ok {e : ServiceError} {a : α} {db db' : PlaylistStore} :
    (throw e : ServiceM α) db = (.ok a, db') ↔ False := by
  simp [throw]

end ServiceM

namespace PlaylistService

/-! ### The adapter's statements -/

/-- `getMediaById`. -/
def getMediaById (mediaId : Nat) : ServiceM (Option MediaFile) := fun db =>
  (.ok (db.media.find? (·.id == mediaId)), db)

/-- `getPlaylistItems`. -/
def getPlaylistItems (playlistId : Nat) : ServiceM (List PlaylistItem) := fun db =>
  (.ok (db.items.items playlistId), db)

/-- `getPlaylistItemById` of the adapter. -/
def findPlaylistItem (itemId : Nat) : ServiceM (Option PlaylistItem) := fun db =>
  (.ok (db.items.find itemId), db)

/-- `db.addPlaylistItem`; `image_duration || 5`. -/
def insertPlaylistItem (playlistId mediaId : Nat) (orderIndex : Int) (imageDuration : Nat) :
    ServiceM PlaylistItem := fun db =>
  match db.items.insert playlistId mediaId orderIndex
      (if imageDuration = 0 then 5 else imageDuration) with
  | some (items, item) => (.ok item, { db with items := items })
  | none => (.error .constraint, db)

/-- A write of the items table; a violated constraint throws and leaves the table alone, for a
    single statement as for a transaction. -/
def writeItems (f : ItemTable → Option ItemTable) : ServiceM Unit := fun db =>
  match f db.items with
  | some items => (.ok (), { db with items := items })
  | none => (.error .constraint, db)

/-- The statement of `db.updatePlaylistItem`; none is issued without a field to set. -/
def setItemFields (itemId : Nat) (orderIndex : Option Int) (imageDuration : Option Nat) :
    ServiceM Unit :=
  if orderIndex = none ∧ imageDuration = none then pure ()
  else writeItems (·.update itemId orderIndex imageDuration)

/-! ### The service -/

/-- `getPlaylistById`. -/
def getPlaylistById (id : Nat) : ServiceM Playlist := fun db =>
  ServiceM.orThrow (db.playlists.find? (·.id == id))
    (.app .playlistNotFound s!"Playlist with ID {id} not found" 404) db

/-- `assertMediaApproved`. -/
def assertMediaApproved (requireMediaApproval : Bool) (media : MediaFile) : ServiceM Unit :=
  if requireMediaApproval = true ∧ media.approvalStatus ≠ .approved then
    let name := if media.originalFilename = "" then media.filename else media.originalFilename
    .throw (.app .badRequest
      s!"Media \"{name}\" is not approved (status: {media.approvalStatus.text})" 400)
  else pure ()

/-- `db.getMediaById` and the check that follows it. -/
def requireMedia (mediaId : Nat) : ServiceM MediaFile := do
  let media ← getMediaById mediaId
  ServiceM.orThrow media (.app .mediaNotFound s!"Media with ID {mediaId} not found" 404)

/-- The loop of `addPlaylistItems`, from an order index on. -/
def addLoop (requireMediaApproval : Bool) (playlistId : Nat) :
    List Nat → Int → ServiceM (List PlaylistItem)
  | [], _ => pure []
  | mediaId :: rest, orderIndex => do
    let media ← requireMedia mediaId
    assertMediaApproved requireMediaApproval media
    let item ← insertPlaylistItem playlistId mediaId orderIndex 5
    let items ← addLoop requireMediaApproval playlistId rest (orderIndex + 1)
    pure (item :: items)

/-- `addPlaylistItem`; without an order index the item goes to the end. -/
def addPlaylistItem (requireMediaApproval : Bool) (playlistId mediaId : Nat)
    (orderIndex : Option Int) (imageDuration : Nat) : ServiceM PlaylistItem := do
  let _ ← getPlaylistById playlistId
  let media ← requireMedia mediaId
  assertMediaApproved requireMediaApproval media
  let existingItems ← getPlaylistItems playlistId
  insertPlaylistItem playlistId mediaId (orderIndex.getD existingItems.length) imageDuration

/-- `addPlaylistItems`. -/
def addPlaylistItems (requireMediaApproval : Bool) (playlistId : Nat) (mediaIds : List Nat) :
    ServiceM (List PlaylistItem) := do
  let _ ← getPlaylistById playlistId
  let existingItems ← getPlaylistItems playlistId
  addLoop requireMediaApproval playlistId mediaIds existingItems.length

/-- `getPlaylistItemById`. -/
def getPlaylistItemById (itemId : Nat) : ServiceM PlaylistItem := do
  let item ← findPlaylistItem itemId
  ServiceM.orThrow item
    (.app .playlistItemNotFound s!"Playlist item with ID {itemId} not found" 404)

/-- `updatePlaylistItem`; the adapter reads the item back. -/
def updatePlaylistItem (itemId : Nat) (orderIndex : Option Int) (imageDuration : Option Nat) :
    ServiceM PlaylistItem := do
  let _ ← getPlaylistItemById itemId
  setItemFields itemId orderIndex imageDuration
  let item ← findPlaylistItem itemId
  ServiceM.orThrow item (.plain s!"Playlist item with ID {itemId} not found")

/-- `deletePlaylistItem`: delete, then renumber what is left. -/
def deletePlaylistItem (itemId : Nat) : ServiceM Unit := do
  let item ← getPlaylistItemById itemId
  writeItems fun items => some (items.delete itemId)
  let remainingItems ← getPlaylistItems item.playlistId
  let itemIds := remainingItems.map PlaylistItem.id
  if itemIds = [] then pure () else writeItems (·.reorder itemIds)

/-- The loop of `reorderPlaylistItems` that verifies that all items belong to the playlist. -/
def verifyItems (playlistId : Nat) : List Nat → ServiceM Unit
  | [] => pure ()
  | itemId :: rest => do
    let item ← getPlaylistItemById itemId
    if item.playlistId ≠ playlistId then
      .throw (.app .badRequest
        s!"Item {itemId} does not belong to playlist {playlistId}" 400)
    else verifyItems playlistId rest

/-- `reorderPlaylistItems`. -/
def reorderPlaylistItems (playlistId : Nat) (itemIds : List Nat) : ServiceM Unit := do
  let _ ← getPlaylistById playlistId
  verifyItems playlistId itemIds
  writeItems (·.reorder itemIds)

end PlaylistService

/-! ### What a successful call changes -/

/-- Only the items of playlist `p` may differ. -/
structure OnlyItemsOf (p : Nat) (db db' : PlaylistStore) : Prop where
  playlists : db'.playlists = db.playlists
  media : db'.media = db.media
  subtitles : db'.subtitles = db.subtitles
  clients : db'.clients = db.clients
  rowsOf : ∀ q, q ≠ p → db'.items.rowsOf q = db.items.rowsOf q

theorem OnlyItemsOf.refl (p : Nat) (db : PlaylistStore) : OnlyItemsOf p db db :=
  ⟨rfl, rfl, rfl, rfl, fun _ _ => rfl⟩

theorem OnlyItemsOf.trans {p : Nat} {db db₁ db₂ : PlaylistStore} (first : OnlyItemsOf p db db₁)
    (second : OnlyItemsOf p db₁ db₂) : OnlyItemsOf p db db₂ where
  playlists := second.playlists.trans first.playlists
  media := second.media.trans first.media
  subtitles := second.subtitles.trans first.subtitles
  clients := second.clients.trans first.clients
  rowsOf q hq := (second.rowsOf q hq).trans (first.rowsOf q hq)

namespace PlaylistService

open ServiceM

variable {db db' : PlaylistStore} {requireMediaApproval : Bool} {p itemId : Nat}

theorem writeItems_ok {f : ItemTable → Option ItemTable} {u : Unit}
    (h : writeItems f db = (.ok u, db')) :
    ∃ items, f db.items = some items ∧ db' = { db with items := items } := by
  unfold writeItems at h
  split at h
  · rename_i items hitems
    exact ⟨items, hitems, (Prod.mk.inj h).2.symm⟩
  · simp at h

theorem insertPlaylistItem_ok {mediaId imageDuration : Nat} {orderIndex : Int}
    {item : PlaylistItem}
    (h : insertPlaylistItem p mediaId orderIndex imageDuration db = (.ok item, db')) :
    OnlyItemsOf p db db' := by
  unfold insertPlaylistItem at h
  split at h
  · rename_i items inserted hinsert
    obtain rfl := (Prod.mk.inj h).2
    obtain ⟨hrows, hp⟩ := ItemTable.insert_rows hinsert
    refine ⟨rfl, rfl, rfl, rfl, fun q hq => ?_⟩
    have hne : ¬ inserted.playlistId = q := fun heq => hq (by rw [← heq, hp])
    simp [ItemTable.rowsOf, hrows, hne]
  · simp at h

theorem requireMedia_ok {mediaId : Nat} {media : MediaFile}
    (h : requireMedia mediaId db = (.ok media, db')) : db = db' := by
  obtain ⟨found, db₁, hfind, hthrow⟩ := bind_ok.mp h
  obtain ⟨-, rfl⟩ := orThrow_ok.mp hthrow
  exact (Prod.mk.inj hfind).2

theorem assertMediaApproved_ok {media : MediaFile} {u : Unit}
    (h : assertMediaApproved requireMediaApproval media db = (.ok u, db')) : db = db' := by
  unfold assertMediaApproved at h
  split at h
  · exact absurd h (by simp)
  · exact (pure_ok.mp h).2

theorem getPlaylistById_ok {playlist : Playlist}
    (h : getPlaylistById p db = (.ok playlist, db')) : db = db' :=
  (orThrow_ok.mp h).2

theorem getPlaylistItemById_ok {item : PlaylistItem}
    (h : getPlaylistItemById itemId db = (.ok item, db')) :
    db.items.find itemId = some item ∧ db = db' := by
  obtain ⟨found, db₁, hfind, hthrow⟩ := bind_ok.mp h
  obtain ⟨rfl, rfl⟩ := orThrow_ok.mp hthrow
  obtain ⟨hfound, rfl⟩ := Prod.mk.inj hfind
  exact ⟨by simpa using hfound, rfl⟩

/-- Induction over the media ids: every insert goes to the one playlist. -/
theorem addLoop_ok {mediaIds : List Nat} {orderIndex : Int} {items : List PlaylistItem}
    (h : addLoop requireMediaApproval p mediaIds orderIndex db = (.ok items, db')) :
    OnlyItemsOf p db db' := by
  induction mediaIds generalizing db orderIndex items with
  | nil =>
    obtain ⟨-, rfl⟩ := pure_ok.mp h
    exact .refl p db
  | cons mediaId rest ih =>
    obtain ⟨media, db₁, hmedia, h⟩ := bind_ok.mp h
    obtain rfl := requireMedia_ok hmedia
    obtain ⟨_, db₂, happroved, h⟩ := bind_ok.mp h
    obtain rfl := assertMediaApproved_ok happroved
    -- the checks have changed nothing
    obtain ⟨item, db₃, hinsert, h⟩ := bind_ok.mp h
    obtain ⟨more, db₄, hrest, h⟩ := bind_ok.mp h
    obtain ⟨-, rfl⟩ := pure_ok.mp h
    exact (insertPlaylistItem_ok hinsert).trans (ih hrest)

theorem addPlaylistItems_ok {mediaIds : List Nat} {items : List PlaylistItem}
    (h : addPlaylistItems requireMediaApproval p mediaIds db = (.ok items, db')) :
    OnlyItemsOf p db db' := by
  obtain ⟨playlist, db₁, hplaylist, h⟩ := bind_ok.mp h
  obtain rfl := getPlaylistById_ok hplaylist
  obtain ⟨existing, db₂, hexisting, h⟩ := bind_ok.mp h
  obtain rfl := (Prod.mk.inj hexisting).2
  exact addLoop_ok h

theorem addPlaylistItem_ok {mediaId imageDuration : Nat} {orderIndex : Option Int}
    {item : PlaylistItem}
    (h : addPlaylistItem requireMediaApproval p mediaId orderIndex imageDuration db =
      (.ok item, db')) : OnlyItemsOf p db db' := by
  obtain ⟨playlist, db₁, hplaylist, h⟩ := bind_ok.mp h
  obtain rfl := getPlaylistById_ok hplaylist
  obtain ⟨media, db₂, hmedia, h⟩ := bind_ok.mp h
  obtain rfl := requireMedia_ok hmedia
  obtain ⟨_, db₃, happroved, h⟩ := bind_ok.mp h
  obtain rfl := assertMediaApproved_ok happroved
  obtain ⟨existing, db₄, hexisting, h⟩ := bind_ok.mp h
  obtain rfl := (Prod.mk.inj hexisting).2
  exact insertPlaylistItem_ok h

/-- An update finds its item, and either issues no statement or one `UPDATE`. -/
theorem updatePlaylistItem_ok {orderIndex : Option Int} {imageDuration : Option Nat}
    {updated : PlaylistItem}
    (h : updatePlaylistItem itemId orderIndex imageDuration db = (.ok updated, db')) :
    ∃ item, db.items.find itemId = some item ∧
      (db' = db ∨ ∃ items, db.items.update itemId orderIndex imageDuration = some items ∧
        db' = { db with items := items }) := by
  obtain ⟨item, db₁, hitem, h⟩ := bind_ok.mp h
  obtain ⟨hfound, rfl⟩ := getPlaylistItemById_ok hitem
  obtain ⟨_, db₂, hwrite, h⟩ := bind_ok.mp h
  obtain ⟨found, db₃, hfind, hthrow⟩ := bind_ok.mp h
  obtain ⟨-, rfl⟩ := orThrow_ok.mp hthrow
  obtain rfl := (Prod.mk.inj hfind).2
  refine ⟨item, hfound, ?_⟩
  unfold setItemFields at hwrite
  split at hwrite
  · exact .inl (pure_ok.mp hwrite).2.symm
  · exact .inr (writeItems_ok hwrite)

/-- A delete removes its item and then renumbers the rest of the item's playlist. -/
theorem deletePlaylistItem_ok {u : Unit}
    (h : deletePlaylistItem itemId db = (.ok u, db')) :
    ∃ item, db.items.find itemId = some item ∧ OnlyItemsOf item.playlistId db db' := by
  obtain ⟨item, db₁, hitem, h⟩ := bind_ok.mp h
  obtain ⟨hfound, rfl⟩ := getPlaylistItemById_ok hitem
  obtain ⟨_, db₂, hdelete, h⟩ := bind_ok.mp h
  obtain ⟨items, hitems, rfl⟩ := writeItems_ok hdelete
  obtain ⟨remaining, db₃, hremaining, h⟩ := bind_ok.mp h
  obtain ⟨hread, rfl⟩ := Prod.mk.inj hremaining
  obtain rfl : db.items.delete itemId = items := by simpa using hitems
  refine ⟨item, hfound, ?_⟩
  have hdeleted : OnlyItemsOf item.playlistId db { db with items := db.items.delete itemId } := by
    refine ⟨rfl, rfl, rfl, rfl, fun q hq => ?_⟩
    show (db.items.rows.filter _).filter _ = db.items.rows.filter _
    rw [List.filter_filter]
    refine List.filter_congr fun r hr => ?_
    by_cases hrq : r.playlistId = q
    · -- the deleted row is of the item's playlist, not of `q`
      have hne : r.id ≠ itemId := fun hid =>
        hq (by rw [← ItemTable.eq_of_find hfound hr hid, hrq])
      simp [hrq, hne]
    · simp [hrq]
  split at h
  · -- it was the last item, and there is nothing to renumber
    obtain ⟨-, rfl⟩ := pure_ok.mp h
    exact hdeleted
  · obtain ⟨reordered, hreorder, rfl⟩ := writeItems_ok h
    refine hdeleted.trans ⟨rfl, rfl, rfl, rfl, fun q hq => ?_⟩
    refine ItemTable.reorder_rowsOf (fun r hr hid => ?_) hq hreorder
    -- an id of the list is the id of a remaining row of the playlist, and ids are unique
    obtain ⟨x, hx, hxid⟩ := List.mem_map.mp hid
    have hremains : (db.items.delete itemId).items item.playlistId = remaining :=
      Except.ok.inj hread
    rw [← hremains] at hx
    obtain ⟨hmem, hplaylist⟩ := List.mem_filter.mp ((List.mem_insertionSort _).mp hx)
    obtain rfl := List.inj_on_of_nodup_map (db.items.delete itemId).ids_nodup hr hmem hxid.symm
    simpa using hplaylist

/-- Every verified item belongs to the playlist. -/
theorem verifyItems_ok {itemIds : List Nat} {u : Unit}
    (h : verifyItems p itemIds db = (.ok u, db')) :
    db = db' ∧ ∀ id ∈ itemIds, ∃ item, db.items.find id = some item ∧ item.playlistId = p := by
  induction itemIds generalizing db with
  | nil =>
    obtain ⟨-, rfl⟩ := pure_ok.mp h
    exact ⟨rfl, by simp⟩
  | cons id rest ih =>
    obtain ⟨item, db₁, hitem, h⟩ := bind_ok.mp h
    obtain ⟨hfound, rfl⟩ := getPlaylistItemById_ok hitem
    split at h
    · exact absurd h (by simp)
    · rename_i hp
      obtain ⟨rfl, hrest⟩ := ih h
      refine ⟨rfl, fun x hx => ?_⟩
      rcases List.mem_cons.mp hx with rfl | hx
      · exact ⟨item, hfound, by simpa using hp⟩
      · exact hrest x hx

/-- A reorder verifies its items and issues the numbering statements. -/
theorem reorderPlaylistItems_ok {itemIds : List Nat} {u : Unit}
    (h : reorderPlaylistItems p itemIds db = (.ok u, db')) :
    OnlyItemsOf p db db' ∧
      ∃ items, db.items.reorder itemIds = some items ∧ db' = { db with items := items } := by
  obtain ⟨playlist, db₁, hplaylist, h⟩ := bind_ok.mp h
  obtain rfl := getPlaylistById_ok hplaylist
  obtain ⟨_, db₂, hverify, h⟩ := bind_ok.mp h
  obtain ⟨rfl, hbelong⟩ := verifyItems_ok hverify
  obtain ⟨items, hreorder, rfl⟩ := writeItems_ok h
  refine ⟨⟨rfl, rfl, rfl, rfl, fun q hq => ?_⟩, items, hreorder, rfl⟩
  refine ItemTable.reorder_rowsOf (fun r hr hid => ?_) hq hreorder
  obtain ⟨item, hfound, hp⟩ := hbelong r.id hid
  rw [ItemTable.eq_of_find hfound hr rfl, hp]

end PlaylistService

end Montr.Server
