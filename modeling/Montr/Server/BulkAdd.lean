import Montr.Server.PlaylistOrder

namespace Montr.Server

open Numbering

/-!
# Bulk adds

`addPlaylistItems` looks up and inserts one element after the other, without a transaction, over a
store that may fail at any of its statements.

* `addPlaylistItemsOver` — the call with the failures of the store given, and
  `addPlaylistItemsOver_unfailing` for none;
* `AddRun` — the loop as a derivation: an element is refused before its `INSERT`, is stored and
  not read back, or is added and the loop goes on;
* `addsAtomically_iff` — a bulk add is atomic exactly when its first element is not stored at all,
  or every element is added and the positions counted from the number of items are behind those in
  use.
-/

/-- Where the store fails for an element: reading the media row, the `INSERT`, or reading the new
    row back. -/
inductive StoreFault
  | getMedia
  | insert
  | readBack
  deriving DecidableEq, Repr

/-- An element of the list, and where the store fails for it. -/
structure BulkElement where
  mediaId : Nat
  fault : Option StoreFault := none
  deriving DecidableEq, Repr

namespace PlaylistService

def failsAt (e : BulkElement) (place : StoreFault) : ServiceM Unit :=
  if e.fault = some place then .throw (.plain "database error") else pure ()

/-- `db.addPlaylistItem`: the `INSERT`, and the new row read back. -/
def insertElement (playlistId : Nat) (e : BulkElement) (orderIndex : Int) :
    ServiceM PlaylistItem := do
  failsAt e .insert
  let item ← insertPlaylistItem playlistId e.mediaId orderIndex 5
  failsAt e .readBack
  pure item

/-- The loop of `addPlaylistItems`, from an order index on. -/
def addLoopOver (requireMediaApproval : Bool) (playlistId : Nat) :
    List BulkElement → Int → ServiceM (List PlaylistItem)
  | [], _ => pure []
  | e :: rest, orderIndex => do
    failsAt e .getMedia
    let media ← requireMedia e.mediaId
    assertMediaApproved requireMediaApproval media
    let item ← insertElement playlistId e orderIndex
    let items ← addLoopOver requireMediaApproval playlistId rest (orderIndex + 1)
    pure (item :: items)

/-- `addPlaylistItems`. -/
def addPlaylistItemsOver (requireMediaApproval : Bool) (playlistId : Nat)
    (elements : List BulkElement) : ServiceM (List PlaylistItem) := do
  let _ ← getPlaylistById playlistId
  let existingItems ← getPlaylistItems playlistId
  addLoopOver requireMediaApproval playlistId elements existingItems.length

/-! ### A store that does not fail -/

theorem bind_pure_item (x : ServiceM PlaylistItem) : (x >>= fun item => pure item) = x := by
  funext db
  show ServiceM.bind x _ db = x db
  unfold ServiceM.bind
  rcases x db with ⟨e | item, db'⟩
  · rfl
  · rfl

theorem addLoopOver_unfailing (requireMediaApproval : Bool) (playlistId : Nat)
    (mediaIds : List Nat) (orderIndex : Int) :
    addLoopOver requireMediaApproval playlistId (mediaIds.map fun id => ⟨id, none⟩) orderIndex
      = addLoop requireMediaApproval playlistId mediaIds orderIndex := by
  induction mediaIds generalizing orderIndex with
  | nil => rfl
  | cons mediaId rest ih =>
    have hinsert : insertElement playlistId ⟨mediaId, none⟩ orderIndex
        = insertPlaylistItem playlistId mediaId orderIndex 5 := bind_pure_item _
    rw [List.map_cons, addLoopOver, addLoop, hinsert, ih]
    rfl

theorem addPlaylistItemsOver_unfailing (requireMediaApproval : Bool) (playlistId : Nat)
    (mediaIds : List Nat) :
    addPlaylistItemsOver requireMediaApproval playlistId (mediaIds.map fun id => ⟨id, none⟩)
      = addPlaylistItems requireMediaApproval playlistId mediaIds := by
  unfold addPlaylistItemsOver addPlaylistItems
  simp only [addLoopOver_unfailing]

end PlaylistService

/-! ### One row -/

namespace ItemTable

variable {t t' : ItemTable} {p mediaId d : Nat} {k : Int} {item : PlaylistItem}

theorem insert_mediaId (h : t.insert p mediaId k d = some (t', item)) :
    item.mediaId = mediaId := by
  unfold insert at h
  dsimp only at h
  split at h
  · cases h
  · obtain ⟨-, rfl⟩ := Prod.mk.inj (Option.some.inj h)
    rfl

theorem insert_indices (h : t.insert p mediaId k d = some (t', item)) :
    t'.indices p = t.indices p ++ [k] := by
  obtain ⟨hindex, hrows⟩ := @insert_rowsOf t t' p p mediaId d k item h
  rw [if_pos rfl] at hrows
  rw [indices, hrows, List.map_append, List.map_singleton, hindex]
  rfl

/-- Only a free position is written. -/
theorem free_of_insert (h : t.insert p mediaId k d = some (t', item)) : k ∉ t.indices p := by
  have hnodup := t'.indices_nodup p
  rw [insert_indices h] at hnodup
  exact fun hmem => (List.nodup_append.mp hnodup).2.2 k hmem k (List.mem_singleton_self k) rfl

end ItemTable

namespace PlaylistService

/-! ### One element -/

open ServiceM

variable {requireMediaApproval : Bool} {p : Nat} {db db₁ db' : PlaylistStore} {e : BulkElement}
  {elements rest : List BulkElement} {k j : Int} {item : PlaylistItem}

/-- The element is stored. -/
def Inserts (requireMediaApproval : Bool) (p : Nat) (db : PlaylistStore) (k : Int)
    (e : BulkElement) : Prop :=
  Showable requireMediaApproval db e.mediaId ∧ e.fault ≠ some .getMedia ∧
    e.fault ≠ some .insert ∧ k ∉ db.items.indices p

/-- What storing it does. -/
structure Stored (p mediaId : Nat) (k : Int) (db db₁ : PlaylistStore) (item : PlaylistItem) :
    Prop where
  only : OnlyItemsOf p db db₁
  rows : db₁.items.rowsOf p = db.items.rowsOf p ++ [item]
  index : item.orderIndex = k
  media : item.mediaId = mediaId
  free : k ∉ db.items.indices p

/-- A later position is as free as before. -/
theorem inserts_stored {mediaId : Nat} (h : Stored p mediaId k db db₁ item) (hlt : k < j) :
    Inserts requireMediaApproval p db₁ j e ↔ Inserts requireMediaApproval p db j e := by
  have hindices : db₁.items.indices p = db.items.indices p ++ [k] := by
    rw [ItemTable.indices, h.rows, List.map_append, List.map_singleton, h.index]
    rfl
  have hfree : j ∉ db₁.items.indices p ↔ j ∉ db.items.indices p := by
    rw [hindices, List.mem_append, List.mem_singleton, not_or]
    exact and_iff_left (by omega)
  unfold Inserts Showable
  rw [hfree, h.only.media]

theorem insertPlaylistItem_stored (db : PlaylistStore) (p mediaId : Nat) (k : Int) :
    (∃ db₁ item, insertPlaylistItem p mediaId k 5 db = (.ok item, db₁) ∧
      Stored p mediaId k db db₁ item) ∨
    (k ∈ db.items.indices p ∧ ∃ err, insertPlaylistItem p mediaId k 5 db = (.error err, db)) := by
  rcases insertPlaylistItem_cases db p mediaId k 5 with
    ⟨d, items, item, hinsert, heq⟩ | ⟨hused, heq⟩
  · obtain ⟨hindex, hrows⟩ := @ItemTable.insert_rowsOf _ _ p p _ _ _ _ hinsert
    rw [if_pos rfl] at hrows
    left
    exact ⟨_, item, heq, insertPlaylistItem_ok heq, hrows, hindex,
      ItemTable.insert_mediaId hinsert, ItemTable.free_of_insert hinsert⟩
  · exact .inr ⟨hused, _, heq⟩

/-- The turn of an element. -/
theorem failsAt_cases (e : BulkElement) (place : StoreFault) (db : PlaylistStore) :
    (e.fault ≠ some place ∧ failsAt e place db = (.ok (), db)) ∨
      (e.fault = some place ∧ ∃ err, failsAt e place db = (.error err, db)) := by
  unfold failsAt
  by_cases h : e.fault = some place
  · rw [if_pos h]
    exact .inr ⟨h, _, rfl⟩
  · rw [if_neg h]
    exact .inl ⟨h, rfl⟩

theorem fault_eq_none (hget : e.fault ≠ some .getMedia) (hinsert : e.fault ≠ some .insert)
    (hread : e.fault ≠ some .readBack) : e.fault = none := by
  rcases hfault : e.fault with _ | place
  · rfl
  · rw [hfault] at hget hinsert hread
    cases place with
    | getMedia => exact absurd rfl hget
    | insert => exact absurd rfl hinsert
    | readBack => exact absurd rfl hread

/-- An element whose media row was read is refused, stored and not read back, or added. -/
theorem insertElement_cases (e : BulkElement) (k : Int) (db : PlaylistStore) (p : Nat) :
    ((e.fault = some .insert ∨ k ∈ db.items.indices p) ∧
      ∃ err, insertElement p e k db = (.error err, db)) ∨
    (e.fault ≠ some .insert ∧ ∃ db₁ item, Stored p e.mediaId k db db₁ item ∧
      (e.fault = some .readBack ∧ (∃ err, insertElement p e k db = (.error err, db₁)) ∨
        e.fault ≠ some .readBack ∧ insertElement p e k db = (.ok item, db₁))) := by
  unfold insertElement
  rcases failsAt_cases e .insert db with ⟨hnot, hgoes⟩ | ⟨hfault, err, hfails⟩
  · rw [bind_of_ok hgoes]
    rcases insertPlaylistItem_stored db p e.mediaId k with
      ⟨db₁, item, hstore, hstored⟩ | ⟨hused, err, hrefused⟩
    · right
      refine ⟨hnot, db₁, item, hstored, ?_⟩
      rw [bind_of_ok hstore]
      rcases failsAt_cases e .readBack db₁ with ⟨hreads, hback⟩ | ⟨hfault, err, hfails⟩
      · right
        rw [bind_of_ok hback]
        exact ⟨hreads, rfl⟩
      · exact .inl ⟨hfault, err, bind_of_error hfails⟩
    · exact .inl ⟨.inr hused, err, bind_of_error hrefused⟩
  · exact .inl ⟨.inl hfault, err, bind_of_error hfails⟩

/-! ### The loop -/

/-- A run of the loop. -/
inductive AddRun (requireMediaApproval : Bool) (p : Nat) : PlaylistStore → Int →
    List BulkElement → Except ServiceError (List PlaylistItem) → PlaylistStore → Prop
  | nil {db : PlaylistStore} {k : Int} : AddRun requireMediaApproval p db k [] (.ok []) db
  | refused {db : PlaylistStore} {k : Int} {e : BulkElement} {rest : List BulkElement}
      {err : ServiceError} (refuses : ¬ Inserts requireMediaApproval p db k e) :
      AddRun requireMediaApproval p db k (e :: rest) (.error err) db
  | unread {db db₁ : PlaylistStore} {k : Int} {e : BulkElement} {rest : List BulkElement}
      {item : PlaylistItem} {err : ServiceError} (inserts : Inserts requireMediaApproval p db k e)
      (fault : e.fault = some .readBack) (stored : Stored p e.mediaId k db db₁ item) :
      AddRun requireMediaApproval p db k (e :: rest) (.error err) db₁
  | added {db db₁ db' : PlaylistStore} {k : Int} {e : BulkElement} {rest : List BulkElement}
      {item : PlaylistItem} {result : Except ServiceError (List PlaylistItem)}
      (inserts : Inserts requireMediaApproval p db k e) (fault : e.fault = none)
      (stored : Stored p e.mediaId k db db₁ item)
      (more : AddRun requireMediaApproval p db₁ (k + 1) rest result db') :
      AddRun requireMediaApproval p db k (e :: rest) (result.map (item :: ·)) db'

/-- **The loop is its derivation.** -/
theorem addLoopOver_run (requireMediaApproval : Bool) (p : Nat) (elements : List BulkElement)
    (k : Int) (db : PlaylistStore) :
    AddRun requireMediaApproval p db k elements
      (addLoopOver requireMediaApproval p elements k db).1
      (addLoopOver requireMediaApproval p elements k db).2 := by
  induction elements generalizing k db with
  | nil => exact .nil
  | cons e rest ih =>
    have hrefused : ∀ err, ¬ Inserts requireMediaApproval p db k e →
        addLoopOver requireMediaApproval p (e :: rest) k db = (.error err, db) →
        AddRun requireMediaApproval p db k (e :: rest)
          (addLoopOver requireMediaApproval p (e :: rest) k db).1
          (addLoopOver requireMediaApproval p (e :: rest) k db).2 := by
      intro err hnot heq
      rw [heq]
      exact .refused hnot
    rcases failsAt_cases e .getMedia db with ⟨hget, hgoes⟩ | ⟨hfault, err, hfails⟩
    · rcases checkMedia_cases requireMediaApproval db e.mediaId
        (insertElement p e k >>= fun item =>
          addLoopOver requireMediaApproval p rest (k + 1) >>= fun items =>
            Pure.pure (item :: items)) with ⟨hshow, heq⟩ | ⟨hshow, err, -, heq⟩
      · have hloop : addLoopOver requireMediaApproval p (e :: rest) k db
            = (insertElement p e k >>= fun item =>
              addLoopOver requireMediaApproval p rest (k + 1) >>= fun items =>
                Pure.pure (item :: items)) db := by
          rw [addLoopOver, bind_of_ok hgoes, heq]
        rcases insertElement_cases e k db p with ⟨hnot, err, hinsert⟩ |
          ⟨hfault, db₁, item, hstored, ⟨hread, err, hinsert⟩ | ⟨hread, hinsert⟩⟩
        · apply hrefused err
          · rintro ⟨-, -, hins, hfree⟩
            exact hnot.elim hins fun hused => hfree hused
          · rw [hloop]
            exact bind_of_error hinsert
        · have hinserts : Inserts requireMediaApproval p db k e :=
            ⟨hshow, hget, hfault, hstored.free⟩
          rw [hloop, bind_of_error hinsert]
          exact .unread hinserts hread hstored
        · have hinserts : Inserts requireMediaApproval p db k e :=
            ⟨hshow, hget, hfault, hstored.free⟩
          have hmore := ih (k + 1) db₁
          have hadded := AddRun.added hinserts (fault_eq_none hget hfault hread) hstored hmore
          rw [hloop, bind_of_ok hinsert]
          rcases hrest : addLoopOver requireMediaApproval p rest (k + 1) db₁ with ⟨err | items, db'⟩
          · rw [hrest] at hadded
            rw [bind_of_error hrest]
            exact hadded
          · rw [hrest] at hadded
            rw [bind_of_ok hrest]
            exact hadded
      · apply hrefused err fun h => hshow h.1
        rw [addLoopOver, bind_of_ok hgoes, heq]
    · apply hrefused err fun h => h.2.1 hfault
      rw [addLoopOver]
      exact bind_of_error hfails

/-- Every element passes its checks and is added, the positions counted from `k`. -/
def PassAll (requireMediaApproval : Bool) (p : Nat) (db : PlaylistStore) :
    Int → List BulkElement → Prop
  | _, [] => True
  | k, e :: rest =>
    Inserts requireMediaApproval p db k e ∧ e.fault = none ∧
      PassAll requireMediaApproval p db (k + 1) rest

theorem passAll_stored {mediaId : Nat} (h : Stored p mediaId k db db₁ item) (hlt : k < j) :
    PassAll requireMediaApproval p db₁ j elements ↔
      PassAll requireMediaApproval p db j elements := by
  induction elements generalizing j with
  | nil => exact Iff.rfl
  | cons e rest ih =>
    have hrest := ih (j := j + 1) (by omega)
    exact and_congr (inserts_stored h hlt) (and_congr Iff.rfl hrest)

variable {result : Except ServiceError (List PlaylistItem)} {items : List PlaylistItem}

namespace AddRun

theorem only (h : AddRun requireMediaApproval p db k elements result db') :
    OnlyItemsOf p db db' := by
  induction h with
  | nil => exact .refl p _
  | refused refuses => exact .refl p _
  | unread inserts fault stored => exact stored.only
  | added inserts fault stored more ih => exact stored.only.trans ih

/-- Rows are only added. -/
theorem length_le (h : AddRun requireMediaApproval p db k elements result db') :
    (db.items.rowsOf p).length ≤ (db'.items.rowsOf p).length := by
  induction h with
  | nil => exact Nat.le_refl _
  | refused refuses => exact Nat.le_refl _
  | unread inserts fault stored =>
    rw [stored.rows, List.length_append]
    omega
  | added inserts fault stored more ih =>
    rw [stored.rows, List.length_append, List.length_singleton] at ih
    omega

/-- **A loop that stores its first element leaves a row**, however it ends. -/
theorem length_lt (h : AddRun requireMediaApproval p db k (e :: rest) result db')
    (inserts : Inserts requireMediaApproval p db k e) :
    (db.items.rowsOf p).length < (db'.items.rowsOf p).length := by
  cases h with
  | refused refuses => exact absurd inserts refuses
  | unread inserts fault stored =>
    rw [stored.rows, List.length_append, List.length_singleton]
    omega
  | added inserts fault stored more =>
    have hmore := more.length_le
    rw [stored.rows, List.length_append, List.length_singleton] at hmore
    omega

/-- A first element that is not stored ends the loop, and nothing has changed. -/
theorem eq_of_refused (h : AddRun requireMediaApproval p db k (e :: rest) result db')
    (refuses : ¬ Inserts requireMediaApproval p db k e) :
    db' = db ∧ ∃ err, result = .error err := by
  cases h with
  | refused => exact ⟨rfl, _, rfl⟩
  | unread inserts fault stored => exact absurd inserts refuses
  | added inserts fault stored more => exact absurd inserts refuses

/-- **The loop succeeds exactly when every element passes.** -/
theorem ok_iff (h : AddRun requireMediaApproval p db k elements result db') :
    (∃ items, result = .ok items) ↔ PassAll requireMediaApproval p db k elements := by
  induction h with
  | nil => exact iff_of_true ⟨[], rfl⟩ trivial
  | refused refuses =>
    apply iff_of_false
    · rintro ⟨items, h⟩
      cases h
    · exact fun h => refuses h.1
  | unread inserts fault stored =>
    apply iff_of_false
    · rintro ⟨items, h⟩
      cases h
    · intro h
      have hnone := fault.symm.trans h.2.1
      cases hnone
  | @added db db₁ db' k e rest item result inserts fault stored more ih =>
    rw [passAll_stored stored (by omega)] at ih
    have hmap : (∃ items, result.map (item :: ·) = .ok items) ↔ ∃ items, result = .ok items := by
      cases result with
      | error err =>
        apply iff_of_false
        · rintro ⟨items, h⟩
          cases h
        · rintro ⟨items, h⟩
          cases h
      | ok items => exact iff_of_true ⟨_, rfl⟩ ⟨items, rfl⟩
    rw [hmap, ih]
    exact ⟨fun h => ⟨inserts, fault, h⟩, fun h => h.2.2⟩

/-- The items are those of the elements, in order, the first at the first position. -/
theorem media (h : AddRun requireMediaApproval p db k elements (.ok items) db') :
    items.map (·.mediaId) = elements.map (·.mediaId) ∧
      ∀ item ∈ items.head?, item.orderIndex = k := by
  generalize hresult : Except.ok items = result at h
  induction h generalizing items with
  | nil =>
    cases hresult
    refine ⟨rfl, fun item hitem => ?_⟩
    cases hitem
  | refused refuses => cases hresult
  | unread inserts fault stored => cases hresult
  | @added db db₁ db' k e rest item result inserts fault stored more ih =>
    cases result with
    | error err => cases hresult
    | ok more =>
      cases hresult
      refine ⟨?_, ?_⟩
      · rw [List.map_cons, List.map_cons, stored.media, (ih rfl).1]
      · intro first hfirst
        cases hfirst
        exact stored.index

/-- **The items come last** where all positions in use are before the first. -/
theorem items_append (h : AddRun requireMediaApproval p db k elements (.ok items) db')
    (below : ∀ r ∈ db.items.rowsOf p, r.orderIndex < k) :
    db'.items.items p = db.items.items p ++ items := by
  generalize hresult : Except.ok items = result at h
  induction h generalizing items with
  | nil =>
    cases hresult
    exact (List.append_nil _).symm
  | refused refuses => cases hresult
  | unread inserts fault stored => cases hresult
  | @added db db₁ db' k e rest item result inserts fault stored more ih =>
    cases result with
    | error err => cases hresult
    | ok more =>
      cases hresult
      have hbelow : ∀ r ∈ db₁.items.rowsOf p, r.orderIndex < k + 1 := by
        intro r hr
        rw [stored.rows] at hr
        rcases List.mem_append.mp hr with hr | hr
        · have hlt := below r hr
          omega
        · rw [List.mem_singleton.mp hr, stored.index]
          omega
      have hlast : db₁.items.items p = db.items.items p ++ [item] := by
        show (db₁.items.rowsOf p).insertionSort _ = (db.items.rowsOf p).insertionSort _ ++ [item]
        rw [stored.rows]
        apply insertionSort_concat
        intro r hr
        have hlt := below r hr
        rw [stored.index]
        omega
      rw [ih hbelow rfl, hlast, List.append_assoc]
      rfl

end AddRun

/-! ### The call -/

/-- **A bulk add is atomic**: if it throws, the items are what they were; if not, the new ones come
    after them, in the order given, and nothing else has changed. -/
def AddsAtomically (requireMediaApproval : Bool) (p : Nat) (elements : List BulkElement)
    (db : PlaylistStore) : Prop :=
  match addPlaylistItemsOver requireMediaApproval p elements db with
  | (.error _, db') => db'.items.items p = db.items.items p ∧ OnlyItemsOf p db db'
  | (.ok items, db') =>
    db'.items.items p = db.items.items p ++ items ∧
      items.map (·.mediaId) = elements.map (·.mediaId) ∧ OnlyItemsOf p db db'

/-- The playlist is missing, or there is no first element that is stored, or all of them pass and
    go behind the positions in use. -/
def AddsCleanly (requireMediaApproval : Bool) (p : Nat) (elements : List BulkElement)
    (db : PlaylistStore) : Prop :=
  db.playlists.find? (·.id == p) = none ∨
    (∀ e ∈ elements.head?, ¬ Inserts requireMediaApproval p db (db.items.rowsOf p).length e) ∨
    PassAll requireMediaApproval p db (db.items.rowsOf p).length elements ∧
      ∀ r ∈ db.items.rowsOf p, r.orderIndex < (db.items.rowsOf p).length

theorem addPlaylistItemsOver_cases (requireMediaApproval : Bool) (p : Nat)
    (elements : List BulkElement) (db : PlaylistStore) :
    (db.playlists.find? (·.id == p) = none ∧
      ∃ err, addPlaylistItemsOver requireMediaApproval p elements db = (.error err, db)) ∨
    ((∃ playlist, db.playlists.find? (·.id == p) = some playlist) ∧
      addPlaylistItemsOver requireMediaApproval p elements db =
        addLoopOver requireMediaApproval p elements (db.items.rowsOf p).length db) := by
  rcases getPlaylistById_cases db p with ⟨playlist, hfind, hplaylist⟩ | ⟨hfind, hrefuses⟩
  · right
    refine ⟨⟨playlist, hfind⟩, ?_⟩
    rw [addPlaylistItemsOver, bind_of_ok hplaylist, getPlaylistItems_bind, ItemTable.length_items]
  · obtain ⟨err, -, heq⟩ := hrefuses
    exact .inl ⟨hfind, err, bind_of_error heq⟩

/-- New items after the old ones: all positions in use are before the first of them. -/
theorem below_of_append {first : PlaylistItem} (h : db'.items.items p = db.items.items p ++ items)
    (hfirst : first ∈ items) (hindex : first.orderIndex = k) (free : k ∉ db.items.indices p) :
    ∀ r ∈ db.items.rowsOf p, r.orderIndex < k := by
  intro r hr
  have hsorted : (db'.items.items p).Pairwise fun a b => a.orderIndex ≤ b.orderIndex :=
    List.pairwise_insertionSort _ _
  rw [h, List.pairwise_append] at hsorted
  have hmem : r ∈ db.items.items p := (List.mem_insertionSort _).mpr hr
  have hle := hsorted.2.2 r hmem first hfirst
  have hne : r.orderIndex ≠ k := fun heq => free (List.mem_map.mpr ⟨r, hr, heq⟩)
  omega

/-- **When a bulk add is atomic.** -/
theorem addsAtomically_iff (requireMediaApproval : Bool) (p : Nat) (elements : List BulkElement)
    (db : PlaylistStore) :
    AddsAtomically requireMediaApproval p elements db ↔
      AddsCleanly requireMediaApproval p elements db := by
  unfold AddsAtomically AddsCleanly
  rcases addPlaylistItemsOver_cases requireMediaApproval p elements db with
    ⟨hfind, err, heq⟩ | ⟨⟨playlist, hfind⟩, heq⟩
  · rw [heq]
    exact iff_of_true ⟨rfl, .refl p db⟩ (.inl hfind)
  · have hrun := addLoopOver_run requireMediaApproval p elements (db.items.rowsOf p).length db
    rw [heq]
    generalize addLoopOver requireMediaApproval p elements (db.items.rowsOf p).length db = out
      at hrun
    rcases out with ⟨err | items, db'⟩
    · -- it throws: at the first element, or too late
      dsimp only at hrun ⊢
      constructor
      · rintro ⟨hsame, -⟩
        refine .inr (.inl fun e he hinserts => ?_)
        cases elements with
        | nil => cases he
        | cons head rest =>
          cases he
          have hlt := hrun.length_lt hinserts
          have hlength := congrArg List.length hsame
          rw [ItemTable.length_items, ItemTable.length_items] at hlength
          omega
      · rintro (hnone | hrefuses | ⟨hpass, -⟩)
        · rw [hfind] at hnone
          cases hnone
        · cases elements with
          | nil => cases hrun
          | cons head rest =>
            obtain ⟨rfl, -⟩ := hrun.eq_of_refused (hrefuses head rfl)
            exact ⟨rfl, .refl p _⟩
        · obtain ⟨items, hok⟩ := hrun.ok_iff.mpr hpass
          cases hok
    · dsimp only at hrun ⊢
      obtain ⟨hmedia, hfirst⟩ := hrun.media
      have hpass := hrun.ok_iff.mp ⟨items, rfl⟩
      constructor
      · rintro ⟨happend, -⟩
        cases elements with
        | nil =>
          refine .inr (.inl fun e he => ?_)
          cases he
        | cons head rest =>
          refine .inr (.inr ⟨hpass, ?_⟩)
          cases items with
          | nil => cases hmedia
          | cons item more =>
            exact below_of_append happend List.mem_cons_self (hfirst item rfl) hpass.1.2.2.2
      · rintro (hnone | hrefuses | ⟨-, hbelow⟩)
        · rw [hfind] at hnone
          cases hnone
        · cases elements with
          | nil =>
            cases hrun
            exact ⟨(List.append_nil _).symm, rfl, .refl p _⟩
          | cons head rest => exact absurd hpass.1 (hrefuses head rfl)
        · exact ⟨hrun.items_append hbelow, hmedia, hrun.only⟩

/-- **Counterexample.** Media row 9 is missing: media row 1, in front of it, stays in the
    playlist. -/
theorem not_addsAtomically_missing :
    ¬ AddsAtomically false 1 [⟨1, none⟩, ⟨9, none⟩] PlaylistStore.threeMedia := by
  rintro ⟨hsame, -⟩
  exact absurd (congrArg List.length hsame) (by decide)

end PlaylistService

end Montr.Server
