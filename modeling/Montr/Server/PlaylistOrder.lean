import Montr.Lib.Numbering
import Montr.Server.PlaylistSync

namespace Montr.Server

open Transition Numbering

/-!
# The order of a playlist's items

The item operations of `playlist.service.ts`, the reorder route with its validation, and
`deleteMedia` of `media.service.ts`, whose `ON DELETE CASCADE` takes playlist items along.  A
call that throws keeps the writes it made before.

* `PlaylistStore.Ordered` — the order indices of a playlist are `0 .. n-1`, and an item added
  without a position goes to the end;
* `append_of_gapless` — the second part follows from the first;
* `ordered_iff_tidy` — a run keeps a playlist ordered exactly when none of its steps moves or
  adds an item past the end or deletes media in front of an item that stays.
-/

/-! ### Deleting media -/

namespace ItemTable

/-- `ON DELETE CASCADE` of `media_id`. -/
def deleteMedia (t : ItemTable) (mediaId : Nat) : ItemTable where
  rows := t.rows.filter (·.mediaId != mediaId)
  nextId := t.nextId
  id_lt r hr := t.id_lt r (List.mem_filter.mp hr).1
  ids_nodup := t.ids_nodup.sublist (List.filter_sublist.map _)
  positions_nodup := t.positions_nodup.sublist (List.filter_sublist.map _)

end ItemTable

namespace MediaService

/-- `getMediaById` of the media service. -/
def getMediaById (id : Nat) : ServiceM MediaFile := do
  let media ← PlaylistService.getMediaById id
  ServiceM.orThrow media (.app .mediaNotFound s!"Media file with ID {id} not found" 404)

/-- `deleteMedia`, as far as the modelled tables go; the cascade takes the playlist items and
    the subtitles along. -/
def deleteMedia (id : Nat) : ServiceM Unit := do
  let _ ← getMediaById id
  fun db => (.ok (),
    { db with
      media := db.media.filter (·.id != id)
      subtitles := db.subtitles.filter (·.mediaFileId != id)
      items := db.items.deleteMedia id })

end MediaService

/-! ### Steps -/

/-- A call that touches playlist items. -/
inductive PlaylistCall
  | item (op : ServerState.ItemOperation)
  | deleteMedia (mediaId : Nat)
  deriving DecidableEq, Repr

namespace PlaylistStore

/-- The store after a call, successful or not; the reorder route refuses an empty list and one
    that names an item twice. -/
def call (requireMediaApproval : Bool) (db : PlaylistStore) : PlaylistCall → PlaylistStore
  | .item (.addItem playlistId mediaId orderIndex imageDuration) =>
    (PlaylistService.addPlaylistItem requireMediaApproval playlistId mediaId orderIndex
      imageDuration db).2
  | .item (.addItems playlistId mediaIds) =>
    (PlaylistService.addPlaylistItems requireMediaApproval playlistId mediaIds db).2
  | .item (.updateItem itemId orderIndex imageDuration) =>
    (PlaylistService.updatePlaylistItem itemId orderIndex imageDuration db).2
  | .item (.deleteItem itemId) => (PlaylistService.deletePlaylistItem itemId db).2
  | .item (.reorderItems playlistId itemIds) =>
    if itemIds ≠ [] ∧ itemIds.Nodup then
      (PlaylistService.reorderPlaylistItems playlistId itemIds db).2
    else db
  | .deleteMedia mediaId => (MediaService.deleteMedia mediaId db).2

/-- Every call can be made in every state. -/
def step (requireMediaApproval : Bool) (db : PlaylistStore) (c : PlaylistCall) :
    Option PlaylistStore :=
  some (db.call requireMediaApproval c)

end PlaylistStore

/-! ### The rows of one playlist -/

namespace ItemTable

variable {t t' : ItemTable} {p q : Nat}

/-- The order indices of a playlist, in insertion order of the rows. -/
def indices (t : ItemTable) (playlistId : Nat) : List Int :=
  (t.rowsOf playlistId).map (·.orderIndex)

@[simp] theorem length_indices (t : ItemTable) (p : Nat) :
    (t.indices p).length = (t.rowsOf p).length := List.length_map _

theorem mem_rowsOf {r : PlaylistItem} : r ∈ t.rowsOf p ↔ r ∈ t.rows ∧ r.playlistId = p := by
  simp [rowsOf]

/-- `UNIQUE(playlist_id, order_index)`, for one playlist. -/
theorem indices_nodup (t : ItemTable) (p : Nat) : (t.indices p).Nodup := by
  have hpositions : ((t.rowsOf p).map PlaylistItem.position).Nodup :=
    t.positions_nodup.sublist (List.filter_sublist.map _)
  have hpair : (t.rowsOf p).map PlaylistItem.position = (t.indices p).map fun k => (p, k) := by
    rw [indices, List.map_map]
    apply List.map_congr_left
    intro r hr
    show (r.playlistId, r.orderIndex) = (p, r.orderIndex)
    rw [(mem_rowsOf.mp hr).2]
  rw [hpair] at hpositions
  exact hpositions.of_map _

theorem rowsOf_map {f : PlaylistItem → PlaylistItem} (rows : t'.rows = t.rows.map f)
    (keeps : ∀ r, (f r).playlistId = r.playlistId) : t'.rowsOf p = (t.rowsOf p).map f := by
  rw [rowsOf, rows, List.filter_map, rowsOf]
  congr 1
  apply List.filter_congr
  intro r _
  show ((f r).playlistId == p) = (r.playlistId == p)
  rw [keeps]

/-- The rows of a playlist after an insert into some playlist. -/
theorem insert_rowsOf {mediaId imageDuration : Nat} {orderIndex : Int} {item : PlaylistItem}
    (h : t.insert q mediaId orderIndex imageDuration = some (t', item)) :
    item.orderIndex = orderIndex ∧ t'.rowsOf p = t.rowsOf p ++ if q = p then [item] else [] := by
  have hitem : item.orderIndex = orderIndex := by
    unfold insert at h
    dsimp only at h
    split at h
    · exact absurd h (by simp)
    · obtain ⟨-, rfl⟩ := Prod.mk.inj (Option.some.inj h)
      rfl
  obtain ⟨hrows, hplaylist⟩ := insert_rows h
  refine ⟨hitem, ?_⟩
  rw [rowsOf, hrows, List.filter_append, rowsOf]
  congr 1
  by_cases hq : q = p
  · rw [if_pos hq, List.filter_cons_of_pos (by simp [hplaylist, hq]), List.filter_nil]
  · rw [if_neg hq, List.filter_cons_of_neg (by simp [hplaylist, hq]), List.filter_nil]

/-- An insert at a position the playlist does not use succeeds. -/
theorem exists_insert {mediaId imageDuration : Nat} {orderIndex : Int}
    (free : orderIndex ∉ t.indices q) :
    ∃ t' item, t.insert q mediaId orderIndex imageDuration = some (t', item) := by
  have hfree : ((q, orderIndex) : Nat × Int) ∉ t.rows.map PlaylistItem.position := by
    intro h
    obtain ⟨r, hr, hpos⟩ := List.mem_map.mp h
    obtain ⟨hplaylist, hindex⟩ := Prod.mk.inj hpos
    exact free (List.mem_map.mpr ⟨r, mem_rowsOf.mpr ⟨hr, hplaylist⟩, hindex⟩)
  exact ⟨_, _, dif_neg hfree⟩

theorem delete_rowsOf (t : ItemTable) (itemId p : Nat) :
    (t.delete itemId).rowsOf p = (t.rowsOf p).filter (·.id != itemId) := by
  show (t.rows.filter _).filter _ = (t.rows.filter _).filter _
  rw [List.filter_filter, List.filter_filter]
  apply List.filter_congr
  intro r _
  exact Bool.and_comm _ _

theorem deleteMedia_rowsOf (t : ItemTable) (mediaId p : Nat) :
    (t.deleteMedia mediaId).rowsOf p = (t.rowsOf p).filter (·.mediaId != mediaId) := by
  show (t.rows.filter _).filter _ = (t.rows.filter _).filter _
  rw [List.filter_filter, List.filter_filter]
  apply List.filter_congr
  intro r _
  exact Bool.and_comm _ _

/-- The row at a position is the only one there. -/
theorem eq_of_orderIndex {r r' : PlaylistItem} (hr : r ∈ t.rowsOf p) (hr' : r' ∈ t.rowsOf p)
    (h : r.orderIndex = r'.orderIndex) : r = r' :=
  List.inj_on_of_nodup_map (t.indices_nodup p) hr hr' h

/-- A row with the id of a row of a playlist is of that playlist. -/
theorem playlistId_of_id {x r : PlaylistItem} (hx : x ∈ t.rowsOf p) (hr : r ∈ t.rows)
    (hid : x.id = r.id) : r.playlistId = p := by
  obtain ⟨hxrow, hxp⟩ := mem_rowsOf.mp hx
  rw [← List.inj_on_of_nodup_map t.ids_nodup hxrow hr hid, hxp]

/-- A delete leaves the other playlists alone, ... -/
theorem delete_rowsOf_other {r : PlaylistItem} (hr : r ∈ t.rows) (hp : r.playlistId ≠ p) :
    (t.delete r.id).rowsOf p = t.rowsOf p := by
  rw [delete_rowsOf, List.filter_eq_self]
  intro x hx
  have hne : x.id ≠ r.id := fun hid => hp (playlistId_of_id hx hr hid)
  simpa using hne

/-- ... and so do an update ... -/
theorem update_rowsOf_other {r : PlaylistItem} {k : Option Int} {d : Option Nat} (hr : r ∈ t.rows)
    (hp : r.playlistId ≠ p) (h : t.update r.id k d = some t') : t'.rowsOf p = t.rowsOf p := by
  refine rowsOf_of_map (update_rows h) (fun x => by split <;> rfl) fun x hx hxp => ?_
  exact if_neg fun hid => hp (playlistId_of_id (mem_rowsOf.mpr ⟨hx, hxp⟩) hr hid)

/-- ... and a reorder. -/
theorem reorder_rowsOf_other {itemIds : List Nat}
    (belong : ∀ id ∈ itemIds, ∃ r ∈ t.rowsOf q, r.id = id) (hp : p ≠ q)
    (h : t.reorder itemIds = some t') : t'.rowsOf p = t.rowsOf p := by
  apply reorder_rowsOf _ hp h
  intro r hr hid
  obtain ⟨x, hx, hxid⟩ := belong r.id hid
  exact playlistId_of_id hx hr hxid

/-- Rows with their positions in range for their number leave no gap. -/
theorem gapless_indices (inRange : ∀ r ∈ t.rowsOf p, InRange (t.rowsOf p).length r.orderIndex) :
    Gapless (t.indices p) := by
  rw [gapless_iff (t.indices_nodup p)]
  intro k hk
  obtain ⟨r, hr, rfl⟩ := List.mem_map.mp hk
  rw [length_indices]
  exact inRange r hr

theorem inRange_of_gapless {r : PlaylistItem} (h : Gapless (t.indices p)) (hr : r ∈ t.rowsOf p) :
    InRange (t.rowsOf p).length r.orderIndex := by
  have hin := h.inRange (List.mem_map_of_mem hr)
  rwa [length_indices] at hin

/-! ### Renumbering -/

/-- The listed item at place `i` gets the `i`-th index. -/
theorem assign_numbering {r : PlaylistItem} {itemIds : List Nat} {i : Nat}
    (distinct : itemIds.Nodup) (h : itemIds[i]? = some r.id) (index : Nat → Int) :
    r.assign (numbering itemIds index) = { r with orderIndex := index i } := by
  have agree : ∀ pair ∈ numbering itemIds index, pair.1 = r.id → pair.2 = index i := by
    intro pair hpair hid
    obtain ⟨⟨itemId, j⟩, hmem, rfl⟩ := List.mem_map.mp hpair
    have hj : itemIds[j]? = some r.id := by
      rw [List.mem_zipIdx_iff_getElem?.mp hmem]
      exact congrArg some hid
    have hjlt : j < itemIds.length := (List.getElem?_eq_some_iff.mp hj).1
    rw [(List.getElem?_inj hjlt distinct).mp (hj.trans h.symm)]
  have hlisted : r.id ∈ (numbering itemIds index).map Prod.fst := by
    rw [map_fst_numbering]
    exact List.mem_of_getElem? h
  rw [PlaylistItem.assign_eq_of_agree agree, if_pos hlisted]

/-- An update to a position that no other item of the playlist has succeeds. -/
theorem exists_update {r : PlaylistItem} {k : Int} {d : Option Nat} (hr : r ∈ t.rowsOf p)
    (free : ∀ x ∈ t.rowsOf p, x.orderIndex = k → x.id = r.id) :
    ∃ t', t.update r.id (some k) d = some t' := by
  obtain ⟨hrow, hrp⟩ := mem_rowsOf.mp hr
  have hrows : t.rows.Nodup := t.ids_nodup.of_map _
  have hunique : ((t.rows.map fun x => if x.id = r.id then x.set (some k) d else x).map
      PlaylistItem.position).Nodup := by
    rw [List.map_map]
    apply List.Nodup.map_on _ hrows
    intro x hx y hy hxy
    have hsame : ∀ z ∈ t.rows, z.id = r.id → z = r := fun z hz hid =>
      List.inj_on_of_nodup_map t.ids_nodup hz hrow hid
    -- a row that takes the position of the updated one would be at `k` in the playlist
    have hclash : ∀ z ∈ t.rows, z.id ≠ r.id → z.position ≠ (r.set (some k) d).position := by
      intro z hz hid hpos
      obtain ⟨hzp, hzk⟩ := Prod.mk.inj hpos
      exact hid (free z (mem_rowsOf.mpr ⟨hz, hzp.trans hrp⟩) hzk)
    by_cases hxr : x.id = r.id <;> by_cases hyr : y.id = r.id
    · rw [hsame x hx hxr, hsame y hy hyr]
    · simp only [Function.comp_apply, hxr, hyr, if_true, if_false] at hxy
      rw [hsame x hx hxr] at hxy
      exact absurd hxy.symm (hclash y hy hyr)
    · simp only [Function.comp_apply, hxr, hyr, if_true, if_false] at hxy
      rw [hsame y hy hyr] at hxy
      exact absurd hxy (hclash x hx hxr)
    · simp only [Function.comp_apply, hxr, hyr, if_false] at hxy
      exact List.inj_on_of_nodup_map t.positions_nodup hx hy hxy
  exact ⟨_, dif_pos hunique⟩

theorem update_keeps_playlist {itemId : Nat} {k : Option Int} {d : Option Nat} (r : PlaylistItem) :
    (if r.id = itemId then r.set k d else r).playlistId = r.playlistId := by
  split <;> rfl

/-- Renumbering items of one playlist to different positions, none of them in use, succeeds. -/
theorem exists_assign {pairs : List (Nat × Int)} (named : ∀ x ∈ pairs, ∃ r ∈ t.rowsOf p, r.id = x.1)
    (distinct : (pairs.map Prod.snd).Nodup)
    (free : ∀ x ∈ pairs, ∀ r ∈ t.rowsOf p, r.orderIndex ≠ x.2) :
    ∃ t', t.assign pairs = some t' := by
  induction pairs generalizing t with
  | nil => exact ⟨t, rfl⟩
  | cons x pairs ih =>
    rw [List.map_cons, List.nodup_cons] at distinct
    obtain ⟨r, hr, hid⟩ := named x List.mem_cons_self
    have hfirst : ∃ t₁, t.update r.id (some x.2) none = some t₁ :=
      exists_update hr fun y hy hk => absurd hk (free x List.mem_cons_self y hy)
    rw [hid] at hfirst
    obtain ⟨t₁, ht₁⟩ := hfirst
    have hrows := @rowsOf_map t t₁ p _ (update_rows ht₁) update_keeps_playlist
    -- the rest of the pairs still name items of the playlist, at positions not in use
    have hnamed : ∀ y ∈ pairs, ∃ r ∈ t₁.rowsOf p, r.id = y.1 := by
      intro y hy
      obtain ⟨z, hz, hzid⟩ := named y (List.mem_cons_of_mem x hy)
      rw [hrows]
      refine ⟨_, List.mem_map_of_mem hz, ?_⟩
      split
      · exact hzid
      · exact hzid
    have hfree : ∀ y ∈ pairs, ∀ r ∈ t₁.rowsOf p, r.orderIndex ≠ y.2 := by
      intro y hy r hr
      rw [hrows] at hr
      obtain ⟨z, hz, rfl⟩ := List.mem_map.mp hr
      split
      · -- the item just numbered has a position no later statement sets
        intro hk
        have hmem : y.2 ∈ pairs.map Prod.snd := List.mem_map_of_mem hy
        rw [← hk] at hmem
        exact distinct.1 hmem
      · exact free y (List.mem_cons_of_mem x hy) z hz
    obtain ⟨t', ht'⟩ := ih hnamed distinct.2 hfree
    refine ⟨t', ?_⟩
    show (t.update x.1 (some x.2) none).bind (fun t => t.assign pairs) = some t'
    rw [ht₁]
    exact ht'

theorem mem_numbering {itemIds : List Nat} {index : Nat → Int} {x : Nat × Int}
    (h : x ∈ numbering itemIds index) : ∃ i, itemIds[i]? = some x.1 ∧ x.2 = index i := by
  obtain ⟨⟨itemId, i⟩, hmem, rfl⟩ := List.mem_map.mp h
  exact ⟨i, List.mem_zipIdx_iff_getElem?.mp hmem, rfl⟩

theorem numbering_snd_nodup {itemIds : List Nat} {index : Nat → Int}
    (injective : Function.Injective index) : ((numbering itemIds index).map Prod.snd).Nodup := by
  have hsnd : (numbering itemIds index).map Prod.snd =
      ((List.range' 0 itemIds.length).map index) := by
    rw [numbering, List.map_map, ← List.zipIdx_map_snd 0 itemIds, List.map_map]
    rfl
  rw [hsnd]
  have hrange : (List.range' 0 itemIds.length).Nodup := List.nodup_range'
  exact hrange.map injective

/-- A reorder that names every item of a playlist succeeds when no position is negative. -/
theorem exists_reorder {itemIds : List Nat} (distinct : itemIds.Nodup)
    (all : ∀ id, id ∈ itemIds ↔ ∃ r ∈ t.rowsOf p, r.id = id)
    (nonneg : ∀ r ∈ t.rowsOf p, 0 ≤ r.orderIndex) : ∃ t', t.reorder itemIds = some t' := by
  have hnamed : ∀ index : Nat → Int, ∀ x ∈ numbering itemIds index,
      ∃ r ∈ t.rowsOf p, r.id = x.1 := by
    intro index x hx
    obtain ⟨i, hi, -⟩ := mem_numbering hx
    exact (all x.1).mp (List.mem_of_getElem? hi)
  -- first the temporary positions: negative, so not in use
  have hnegative : ∃ t₁, t.assign (numbering itemIds fun i => -((i : Int) + 1)) = some t₁ := by
    apply exists_assign (hnamed _) (numbering_snd_nodup fun a b h => by omega)
    intro x hx r hr
    obtain ⟨i, -, hx⟩ := mem_numbering hx
    have hpos := nonneg r hr
    omega
  obtain ⟨t₁, ht₁⟩ := hnegative
  have hrows := @rowsOf_map t t₁ p _ (assign_rows ht₁) fun r => by
    obtain ⟨k, hk⟩ := r.exists_assign_eq (numbering itemIds fun i => -((i : Int) + 1))
    rw [hk]
  -- every item of the playlist has one now, so the final positions are not in use
  have hfinal : ∃ t', t₁.assign (numbering itemIds fun i => i) = some t' := by
    apply @exists_assign t₁ p _ _ (numbering_snd_nodup fun a b h => by omega)
    · intro x hx r hr
      rw [hrows] at hr
      obtain ⟨z, hz, rfl⟩ := List.mem_map.mp hr
      obtain ⟨i, hi⟩ := List.getElem?_of_mem ((all z.id).mpr ⟨z, hz, rfl⟩)
      obtain ⟨j, -, hx⟩ := mem_numbering hx
      rw [assign_numbering distinct hi]
      show -((i : Int) + 1) ≠ x.2
      omega
    · intro x hx
      obtain ⟨r, hr, hid⟩ := hnamed _ x hx
      rw [hrows]
      refine ⟨_, List.mem_map_of_mem hr, ?_⟩
      obtain ⟨k, hk⟩ := r.exists_assign_eq (numbering itemIds fun i => -((i : Int) + 1))
      rw [hk]
      exact hid
  obtain ⟨t', ht'⟩ := hfinal
  refine ⟨t', ?_⟩
  show (t.assign _).bind _ = some t'
  rw [ht₁]
  exact ht'

/-! ### What the operations do to the order -/

/-- After a successful update the order has no gap exactly when the new position is in range. -/
theorem gapless_update {r : PlaylistItem} {k : Int} {d : Option Nat} (h : Gapless (t.indices p))
    (hr : r ∈ t.rowsOf p) (updated : t.update r.id (some k) d = some t') :
    Gapless (t'.indices p) ↔ InRange (t.rowsOf p).length k := by
  have hrows := @rowsOf_map t t' p _ (update_rows updated) update_keeps_playlist
  have hlength : (t'.rowsOf p).length = (t.rowsOf p).length := by
    rw [hrows, List.length_map]
  constructor
  · intro h'
    -- the updated row is in the playlist, so its position is in range
    have hmem : r.set (some k) d ∈ t'.rowsOf p := by
      rw [hrows]
      refine List.mem_map.mpr ⟨r, hr, if_pos rfl⟩
    have hin := inRange_of_gapless h' hmem
    rwa [hlength] at hin
  · intro hk
    apply gapless_indices
    intro x hx
    rw [hlength]
    rw [hrows] at hx
    obtain ⟨z, hz, rfl⟩ := List.mem_map.mp hx
    split
    · exact hk
    · exact inRange_of_gapless h hz

/-- Setting an image duration only moves nothing. -/
theorem indices_update_none {itemId : Nat} {d : Option Nat}
    (updated : t.update itemId none d = some t') : t'.indices p = t.indices p := by
  rw [indices, @rowsOf_map t t' p _ (update_rows updated) update_keeps_playlist, List.map_map,
    indices]
  apply List.map_congr_left
  intro r _
  show (if r.id = itemId then r.set none d else r).orderIndex = r.orderIndex
  split <;> rfl

/-- A successful reorder of distinct items of one playlist keeps its order without gaps. -/
theorem gapless_reorder {itemIds : List Nat} (distinct : itemIds.Nodup)
    (belong : ∀ id ∈ itemIds, ∃ r ∈ t.rowsOf p, r.id = id)
    (old : ∀ r ∈ t.rowsOf p, r.id ∉ itemIds → InRange (t.rowsOf p).length r.orderIndex)
    (reordered : t.reorder itemIds = some t') : Gapless (t'.indices p) := by
  have hrows := @rowsOf_map t t' p _ (reorder_rows reordered) fun r => by
    obtain ⟨k, hk⟩ := r.exists_assign_eq (numbering itemIds fun i => -((i : Int) + 1))
    obtain ⟨k', hk'⟩ := PlaylistItem.exists_assign_eq { r with orderIndex := k }
      (numbering itemIds fun i => i)
    rw [hk, hk']
  have hlength : (t'.rowsOf p).length = (t.rowsOf p).length := by
    rw [hrows, List.length_map]
  -- no more items are listed than the playlist has
  have hlisted : itemIds.length ≤ (t.rowsOf p).length := by
    have hsub : itemIds ⊆ (t.rowsOf p).map (·.id) := by
      intro id hid
      obtain ⟨r, hr, rfl⟩ := belong id hid
      exact List.mem_map_of_mem hr
    have hle := (List.subperm_of_subset distinct hsub).length_le
    rwa [List.length_map] at hle
  apply gapless_indices
  intro x hx
  rw [hlength]
  rw [hrows] at hx
  obtain ⟨r, hr, rfl⟩ := List.mem_map.mp hx
  by_cases hid : r.id ∈ itemIds
  · obtain ⟨i, hi⟩ := List.getElem?_of_mem hid
    have hlt : i < itemIds.length := (List.getElem?_eq_some_iff.mp hi).1
    have hsecond := @assign_numbering { r with orderIndex := -((i : Int) + 1) } itemIds i distinct
      hi fun i => i
    rw [assign_numbering distinct hi, hsecond]
    show (0 : Int) ≤ i ∧ (i : Int) < (t.rowsOf p).length
    omega
  · rw [assign_numbering_of_not_mem hid, assign_numbering_of_not_mem hid]
    exact old r hr hid

/-- Deleting a media row leaves no gap exactly when what it takes along comes last. -/
theorem gapless_deleteMedia {mediaId : Nat} (h : Gapless (t.indices p)) :
    Gapless ((t.deleteMedia mediaId).indices p) ↔
      ∀ r ∈ t.rowsOf p, ∀ x ∈ t.rowsOf p, r.mediaId ≠ mediaId → x.mediaId = mediaId →
        r.orderIndex < x.orderIndex := by
  -- an item that stays, seen by its position
  let stays : Int → Bool := fun k => (t.rowsOf p).all fun r => r.orderIndex != k ||
    r.mediaId != mediaId
  have hstays : ∀ r ∈ t.rowsOf p, stays r.orderIndex = (r.mediaId != mediaId) := by
    intro r hr
    rw [Bool.eq_iff_iff]
    constructor
    · intro hall
      have hself := List.all_eq_true.mp hall r hr
      simpa using hself
    · intro hne
      apply List.all_eq_true.mpr
      intro x hx
      by_cases hx' : x.orderIndex = r.orderIndex
      · rw [eq_of_orderIndex hx hr hx', hne, Bool.or_true]
      · simp [hx']
  have hindices : (t.deleteMedia mediaId).indices p = (t.indices p).filter stays := by
    rw [indices, deleteMedia_rowsOf, indices, List.filter_map]
    congr 1
    apply List.filter_congr
    intro r hr
    exact (hstays r hr).symm
  rw [hindices, gapless_filter_iff h]
  simp only [indices, List.forall_mem_map]
  constructor
  · intro hlast r hr x hx hkept hremoved
    exact hlast r hr x hx (by simp [hstays r hr, hkept]) (by simp [hstays x hx, hremoved])
  · intro hlast r hr x hx hkept hremoved
    rw [hstays r hr] at hkept
    rw [hstays x hx] at hremoved
    exact hlast r hr x hx (by simpa using hkept) (by simpa using hremoved)

/-- After a successful insert the order has no gap exactly when the item came at most at the
    end. -/
theorem gapless_insert {mediaId d : Nat} {k : Int} {item : PlaylistItem}
    (h : Gapless (t.indices p)) (inserted : t.insert q mediaId k d = some (t', item)) :
    Gapless (t'.indices p) ↔ (q = p → InRange ((t.rowsOf p).length + 1) k) := by
  obtain ⟨hindex, hrows⟩ := @insert_rowsOf t t' p q mediaId d k item inserted
  by_cases hq : q = p
  · rw [if_pos hq] at hrows
    -- one item more, so the end is in range too
    have hlength : (t'.rowsOf p).length = (t.rowsOf p).length + 1 := by
      rw [hrows, List.length_append, List.length_singleton]
    constructor
    · intro h' _
      have hmem : item ∈ t'.rowsOf p := by
        rw [hrows]
        exact List.mem_append_right _ (List.mem_singleton_self item)
      have hin := inRange_of_gapless h' hmem
      rwa [hlength, hindex] at hin
    · intro hk
      apply gapless_indices
      intro x hx
      rw [hlength]
      rw [hrows] at hx
      rcases List.mem_append.mp hx with hx | hx
      · obtain ⟨hnonneg, hlt⟩ := inRange_of_gapless h hx
        exact ⟨hnonneg, by push_cast; omega⟩
      · rw [List.mem_singleton.mp hx, hindex]
        exact hk hq
  · rw [if_neg hq, List.append_nil] at hrows
    rw [indices, hrows]
    exact ⟨fun _ hq' => absurd hq' hq, fun _ => h⟩

/-- An insert behind a playlist without gaps puts the item last. -/
theorem items_insert {mediaId d : Nat} {item : PlaylistItem} (h : Gapless (t.indices p))
    (inserted : t.insert p mediaId (t.rowsOf p).length d = some (t', item)) :
    t'.items p = t.items p ++ [item] := by
  obtain ⟨hindex, hrows⟩ := @insert_rowsOf t t' p p mediaId d _ item inserted
  rw [if_pos rfl] at hrows
  show (t'.rowsOf p).insertionSort _ = (t.rowsOf p).insertionSort _ ++ [item]
  rw [hrows]
  apply insertionSort_concat
  intro r hr
  have hlt := (inRange_of_gapless h hr).2
  rw [hindex]
  omega

theorem length_items (t : ItemTable) (p : Nat) : (t.items p).length = (t.rowsOf p).length :=
  List.length_insertionSort _ _

end ItemTable

/-! ### Calls that fail half-way -/

namespace ServiceM

variable {α β : Type} {x : ServiceM α} {f : α → ServiceM β} {db db' : PlaylistStore}

theorem bind_of_ok {a : α} (h : x db = (.ok a, db')) : (x >>= f) db = f a db' := by
  show ServiceM.bind x f db = _
  unfold ServiceM.bind
  rw [h]

theorem bind_of_error {e : ServiceError} (h : x db = (.error e, db')) :
    (x >>= f) db = (.error e, db') := by
  show ServiceM.bind x f db = _
  unfold ServiceM.bind
  rw [h]

end ServiceM

namespace ServiceM

variable {α β : Type}

/-- The call throws, other than for a constraint, and has written nothing. -/
def Refuses (x : ServiceM α) (db : PlaylistStore) : Prop :=
  ∃ e, e ≠ .constraint ∧ x db = (.error e, db)

theorem refuses_app {x : ServiceM α} {db : PlaylistStore} {code : ErrorCode} {message : String}
    {status : Nat} (h : x db = (.error (.app code message status), db)) : Refuses x db :=
  ⟨_, ServiceError.noConfusion, h⟩

theorem Refuses.bind {x : ServiceM α} {f : α → ServiceM β} {db : PlaylistStore}
    (h : Refuses x db) : Refuses (x >>= f) db := by
  obtain ⟨e, he, hx⟩ := h
  exact ⟨e, he, bind_of_error hx⟩

theorem refuses_bind_of_ok {x : ServiceM α} {f : α → ServiceM β} {db : PlaylistStore} {a : α}
    (first : x db = (.ok a, db)) (h : Refuses (f a) db) : Refuses (x >>= f) db := by
  obtain ⟨e, he, hf⟩ := h
  exact ⟨e, he, by rw [bind_of_ok first, hf]⟩

end ServiceM

namespace PlaylistService

open ServiceM

variable {db db' : PlaylistStore} {requireMediaApproval : Bool} {p q mediaId : Nat}

theorem getMediaById_bind {α : Type} (f : Option MediaFile → ServiceM α) :
    (getMediaById mediaId >>= f) db = f (db.media.find? (·.id == mediaId)) db := rfl

theorem getPlaylistItems_bind {α : Type} (f : List PlaylistItem → ServiceM α) :
    (getPlaylistItems q >>= f) db = f (db.items.items q) db := rfl

theorem findPlaylistItem_bind {α : Type} {itemId : Nat} (f : Option PlaylistItem → ServiceM α) :
    (findPlaylistItem itemId >>= f) db = f (db.items.find itemId) db := rfl

theorem getPlaylistById_cases (db : PlaylistStore) (q : Nat) :
    (∃ playlist, db.playlists.find? (·.id == q) = some playlist ∧
      getPlaylistById q db = (.ok playlist, db)) ∨
    (db.playlists.find? (·.id == q) = none ∧ Refuses (getPlaylistById q) db) := by
  cases hfind : db.playlists.find? (·.id == q) with
  | some playlist =>
    left
    refine ⟨playlist, rfl, ?_⟩
    rw [getPlaylistById, hfind]
    rfl
  | none =>
    right
    refine ⟨rfl, ?_⟩
    apply refuses_app
    rw [getPlaylistById, hfind]
    rfl

/-- The media row exists and may be shown. -/
def Showable (requireMediaApproval : Bool) (db : PlaylistStore) (mediaId : Nat) : Prop :=
  ∃ media, db.media.find? (·.id == mediaId) = some media ∧
    ¬ (requireMediaApproval = true ∧ media.approvalStatus ≠ .approved)

/-- Both checks of a media row, before something is done with it. -/
theorem checkMedia_cases {α : Type} (requireMediaApproval : Bool) (db : PlaylistStore)
    (mediaId : Nat) (next : ServiceM α) :
    (Showable requireMediaApproval db mediaId ∧
      (requireMedia mediaId >>= fun media =>
        assertMediaApproved requireMediaApproval media >>= fun _ => next) db = next db) ∨
    (¬ Showable requireMediaApproval db mediaId ∧
      Refuses (requireMedia mediaId >>= fun media =>
        assertMediaApproved requireMediaApproval media >>= fun _ => next) db) := by
  cases hfind : db.media.find? (·.id == mediaId) with
  | none =>
    right
    have hnot : ¬ Showable requireMediaApproval db mediaId := by
      rintro ⟨media, hmedia, -⟩
      rw [hfind] at hmedia
      exact absurd hmedia (by simp)
    -- `getMediaById` throws
    have hmissing : Refuses (requireMedia mediaId) db := by
      apply refuses_app
      rw [requireMedia, getMediaById_bind, hfind]
      rfl
    exact ⟨hnot, hmissing.bind⟩
  | some media =>
    have hmedia : requireMedia mediaId db = (.ok media, db) := by
      rw [requireMedia, getMediaById_bind, hfind]
      rfl
    -- the row is there, and its approval decides
    by_cases happroved : requireMediaApproval = true ∧ media.approvalStatus ≠ .approved
    · right
      have hnot : ¬ Showable requireMediaApproval db mediaId := by
        rintro ⟨other, hother, hok⟩
        obtain rfl := Option.some.inj (hfind.symm.trans hother)
        exact hok happroved
      have hassert : Refuses (assertMediaApproved requireMediaApproval media) db := by
        apply refuses_app
        rw [assertMediaApproved, if_pos happroved]
        rfl
      exact ⟨hnot, refuses_bind_of_ok hmedia hassert.bind⟩
    · left
      have hassert : assertMediaApproved requireMediaApproval media db = (.ok (), db) := by
        rw [assertMediaApproved, if_neg happroved]
        rfl
      refine ⟨⟨media, hfind, happroved⟩, ?_⟩
      rw [bind_of_ok hmedia, bind_of_ok hassert]

/-- The call gets as far as its `INSERT`. -/
def Accepts (requireMediaApproval : Bool) (db : PlaylistStore) (q mediaId : Nat) : Prop :=
  (db.playlists.find? (·.id == q)).isSome ∧ Showable requireMediaApproval db mediaId

/-- A single add is its `INSERT`, after checks that write nothing. -/
theorem addPlaylistItem_cases (requireMediaApproval : Bool) (db : PlaylistStore) (q mediaId : Nat)
    (orderIndex : Option Int) (imageDuration : Nat) :
    (Accepts requireMediaApproval db q mediaId ∧
      addPlaylistItem requireMediaApproval q mediaId orderIndex imageDuration db =
        insertPlaylistItem q mediaId (orderIndex.getD (db.items.rowsOf q).length) imageDuration
          db) ∨
    (¬ Accepts requireMediaApproval db q mediaId ∧
      Refuses (addPlaylistItem requireMediaApproval q mediaId orderIndex imageDuration) db) := by
  -- the items are read for the end of the playlist
  have hinsert : (getPlaylistItems q >>= fun existingItems =>
      insertPlaylistItem q mediaId (orderIndex.getD existingItems.length) imageDuration) db =
        insertPlaylistItem q mediaId (orderIndex.getD (db.items.rowsOf q).length) imageDuration
          db := by
    rw [getPlaylistItems_bind, ItemTable.length_items]
  rcases getPlaylistById_cases db q with ⟨playlist, hfind, hplaylist⟩ | ⟨hfind, hrefuses⟩
  · rcases checkMedia_cases requireMediaApproval db mediaId
      (getPlaylistItems q >>= fun existingItems =>
        insertPlaylistItem q mediaId (orderIndex.getD existingItems.length) imageDuration) with
      ⟨hshow, heq⟩ | ⟨hshow, hrefuses⟩
    · left
      refine ⟨⟨by rw [hfind]; rfl, hshow⟩, ?_⟩
      rw [addPlaylistItem, bind_of_ok hplaylist, heq, hinsert]
    · right
      exact ⟨fun h => hshow h.2, refuses_bind_of_ok hplaylist hrefuses⟩
  · right
    refine ⟨?_, hrefuses.bind⟩
    rintro ⟨hsome, -⟩
    rw [hfind] at hsome
    exact Bool.noConfusion hsome

/-- The `INSERT` writes one row or, at a position in use, nothing. -/
theorem insertPlaylistItem_cases (db : PlaylistStore) (q mediaId : Nat) (k : Int)
    (imageDuration : Nat) :
    (∃ d items item, db.items.insert q mediaId k d = some (items, item) ∧
      insertPlaylistItem q mediaId k imageDuration db =
        (.ok item, { db with items := items })) ∨
    (k ∈ db.items.indices q ∧
      insertPlaylistItem q mediaId k imageDuration db = (.error .constraint, db)) := by
  unfold insertPlaylistItem
  cases hinsert : db.items.insert q mediaId k (if imageDuration = 0 then 5 else imageDuration) with
  | some result =>
    left
    exact ⟨_, result.1, result.2, hinsert, rfl⟩
  | none =>
    right
    refine ⟨?_, rfl⟩
    -- at a free position the insert succeeds
    by_contra hfree
    obtain ⟨t', item, hsome⟩ := @ItemTable.exists_insert db.items q mediaId
      (if imageDuration = 0 then 5 else imageDuration) k hfree
    rw [hinsert] at hsome
    exact absurd hsome (by simp)

/-- A single insert at the end of its playlist succeeds, and puts the item last there. -/
theorem insert_last (db : PlaylistStore) (q mediaId imageDuration : Nat)
    (h : Gapless (db.items.indices q)) :
    ∃ items item, insertPlaylistItem q mediaId (db.items.rowsOf q).length imageDuration db =
        (.ok item, { db with items := items }) ∧
      items.items q = db.items.items q ++ [item] ∧
      (items.rowsOf q).length = (db.items.rowsOf q).length + 1 ∧ Gapless (items.indices q) := by
  rcases insertPlaylistItem_cases db q mediaId (db.items.rowsOf q).length imageDuration with
    ⟨d, items, item, hinsert, heq⟩ | ⟨hused, -⟩
  · refine ⟨items, item, heq, ItemTable.items_insert h hinsert, ?_, ?_⟩
    · have hrows := (@ItemTable.insert_rowsOf _ _ q q _ _ _ _ hinsert).2
      rw [if_pos rfl] at hrows
      rw [hrows, List.length_append, List.length_singleton]
    · apply (ItemTable.gapless_insert h hinsert).mpr
      intro _
      exact ⟨Int.natCast_nonneg _, by push_cast; omega⟩
  · -- the end is not in use
    have hlt := (h.inRange hused).2
    rw [ItemTable.length_indices] at hlt
    exact absurd hlt (lt_irrefl _)

/-- **The loop of a bulk add**, from the end of its playlist on: it stops at the first media row
    that is refused, never at a position, and its items are the last of the playlist. -/
theorem addLoop_last (mediaIds : List Nat) (h : Gapless (db.items.indices q)) :
    (addLoop requireMediaApproval q mediaIds (db.items.rowsOf q).length db).1 ≠
        .error .constraint ∧
      (∀ items, (addLoop requireMediaApproval q mediaIds (db.items.rowsOf q).length db).1 =
          .ok items →
        (addLoop requireMediaApproval q mediaIds (db.items.rowsOf q).length db).2.items.items q =
          db.items.items q ++ items) ∧
      Gapless
        ((addLoop requireMediaApproval q mediaIds (db.items.rowsOf q).length db).2.items.indices
          q) := by
  induction mediaIds generalizing db with
  | nil =>
    refine ⟨fun hc => (nomatch hc), fun items hitems => ?_, h⟩
    obtain rfl := Except.ok.inj hitems
    exact (List.append_nil _).symm
  | cons mediaId rest ih =>
    rw [addLoop]
    rcases checkMedia_cases requireMediaApproval db mediaId
      (insertPlaylistItem q mediaId (db.items.rowsOf q).length 5 >>= fun item =>
        addLoop requireMediaApproval q rest ((db.items.rowsOf q).length + 1) >>= fun items =>
          Pure.pure (item :: items)) with ⟨-, heq⟩ | ⟨-, e, he, heq⟩
    · obtain ⟨items, item, hinsert, hlast, hlength, hkeep⟩ := insert_last db q mediaId 5 h
      have hrest := @ih { db with items := items } hkeep
      have hindex : ((items.rowsOf q).length : Int) = (db.items.rowsOf q).length + 1 := by
        rw [hlength]
        push_cast
        rfl
      simp only [hindex] at hrest
      obtain ⟨hnot, hitems, hgapless⟩ := hrest
      rw [heq, bind_of_ok hinsert]
      -- the rest of the loop decides, and the item is put in front of its items
      rcases hloop : addLoop requireMediaApproval q rest ((db.items.rowsOf q).length + 1)
        { db with items := items } with ⟨e | more, db'⟩
      · rw [hloop] at hnot hitems hgapless
        rw [bind_of_error hloop]
        exact ⟨hnot, fun _ hc => (nomatch hc), hgapless⟩
      · rw [hloop] at hnot hitems hgapless
        rw [bind_of_ok hloop]
        refine ⟨fun hc => (nomatch hc), fun all hall => ?_, hgapless⟩
        obtain rfl := Except.ok.inj hall
        have hend : db'.items.items q = items.items q ++ more := hitems more rfl
        show db'.items.items q = _
        rw [hend, hlast, List.append_assoc]
        rfl
    · rw [heq]
      exact ⟨fun hc => he (Except.error.inj hc), fun _ hc => (nomatch hc), h⟩

/-- An insert into another playlist leaves this one alone. -/
theorem insertPlaylistItem_rowsOf {k : Int} {imageDuration : Nat} (hp : q ≠ p) :
    (insertPlaylistItem q mediaId k imageDuration db).2.items.rowsOf p = db.items.rowsOf p := by
  rcases insertPlaylistItem_cases db q mediaId k imageDuration with
    ⟨d, items, item, hinsert, heq⟩ | ⟨-, heq⟩
  · have hrows := (@ItemTable.insert_rowsOf _ _ p q _ _ _ _ hinsert).2
    rw [if_neg hp, List.append_nil] at hrows
    rw [heq]
    exact hrows
  · rw [heq]

theorem addLoop_rowsOf {mediaIds : List Nat} {k : Int} (hp : q ≠ p) :
    (addLoop requireMediaApproval q mediaIds k db).2.items.rowsOf p = db.items.rowsOf p := by
  induction mediaIds generalizing db k with
  | nil => rfl
  | cons mediaId rest ih =>
    rw [addLoop]
    rcases checkMedia_cases requireMediaApproval db mediaId
      (insertPlaylistItem q mediaId k 5 >>= fun item =>
        addLoop requireMediaApproval q rest (k + 1) >>= fun items =>
          Pure.pure (item :: items)) with ⟨-, heq⟩ | ⟨-, e, he, heq⟩
    · -- the insert and the rest of the loop write to the other playlist, whether they throw or not
      have hfirst := @insertPlaylistItem_rowsOf db p q mediaId k 5 hp
      rw [heq]
      rcases hinsert : insertPlaylistItem q mediaId k 5 db with ⟨e | item, db₁⟩
      · rw [hinsert] at hfirst
        rw [bind_of_error hinsert]
        exact hfirst
      · rw [hinsert] at hfirst
        rw [bind_of_ok hinsert]
        have hrest := @ih db₁ (k + 1)
        rcases hloop : addLoop requireMediaApproval q rest (k + 1) db₁ with ⟨e | more, db₂⟩
        · rw [hloop] at hrest
          rw [bind_of_error hloop]
          exact hrest.trans hfirst
        · rw [hloop] at hrest
          rw [bind_of_ok hloop]
          exact hrest.trans hfirst
    · rw [heq]

/-- A bulk add throws for its playlist or is its loop, from the end of the playlist on. -/
theorem addPlaylistItems_cases (requireMediaApproval : Bool) (db : PlaylistStore) (q : Nat)
    (mediaIds : List Nat) :
    addPlaylistItems requireMediaApproval q mediaIds db =
        addLoop requireMediaApproval q mediaIds (db.items.rowsOf q).length db ∨
      Refuses (addPlaylistItems requireMediaApproval q mediaIds) db := by
  rcases getPlaylistById_cases db q with ⟨playlist, -, hplaylist⟩ | ⟨-, hrefuses⟩
  · left
    rw [addPlaylistItems, bind_of_ok hplaylist, getPlaylistItems_bind, ItemTable.length_items]
  · exact .inr hrefuses.bind

theorem getPlaylistItemById_cases (db : PlaylistStore) (itemId : Nat) :
    (∃ r ∈ db.items.rows, r.id = itemId ∧ getPlaylistItemById itemId db = (.ok r, db)) ∨
    ((∀ r ∈ db.items.rows, r.id ≠ itemId) ∧ Refuses (getPlaylistItemById itemId) db) := by
  cases hfind : db.items.find itemId with
  | some r =>
    left
    have hid : r.id = itemId := by simpa using List.find?_some hfind
    refine ⟨r, List.mem_of_find?_eq_some hfind, hid, ?_⟩
    rw [getPlaylistItemById, findPlaylistItem_bind, hfind]
    rfl
  | none =>
    right
    refine ⟨?_, ?_⟩
    · intro r hr hid
      have hnone := List.find?_eq_none.mp hfind r hr
      exact hnone (by simpa using hid)
    · apply refuses_app
      rw [getPlaylistItemById, findPlaylistItem_bind, hfind]
      rfl

theorem writeItems_cases (db : PlaylistStore) (f : ItemTable → Option ItemTable) :
    (∃ items, f db.items = some items ∧ writeItems f db = (.ok (), { db with items := items })) ∨
    (f db.items = none ∧ writeItems f db = (.error .constraint, db)) := by
  unfold writeItems
  cases hf : f db.items with
  | some items => exact .inl ⟨items, rfl, rfl⟩
  | none => exact .inr ⟨rfl, rfl⟩

/-- An update leaves the table alone, or is one `UPDATE` of an item it found. -/
theorem updatePlaylistItem_cases (db : PlaylistStore) (itemId : Nat) (orderIndex : Option Int)
    (imageDuration : Option Nat) :
    (∃ r ∈ db.items.rows, r.id = itemId ∧ ∃ items,
      db.items.update itemId orderIndex imageDuration = some items ∧
        (updatePlaylistItem itemId orderIndex imageDuration db).2 = { db with items := items }) ∨
    ((orderIndex = none ∨ (∀ r ∈ db.items.rows, r.id ≠ itemId) ∨
        db.items.update itemId orderIndex imageDuration = none) ∧
      (updatePlaylistItem itemId orderIndex imageDuration db).2 = db) := by
  -- after the write the item is read again
  have hread : ∀ db : PlaylistStore, ((findPlaylistItem itemId >>= fun item =>
      orThrow item (.plain s!"Playlist item with ID {itemId} not found")) db).2 = db := by
    intro db
    rw [findPlaylistItem_bind]
    cases db.items.find itemId <;> rfl
  rcases getPlaylistItemById_cases db itemId with ⟨r, hr, hid, hitem⟩ | ⟨hnone, e, -, hitem⟩
  · rw [updatePlaylistItem, bind_of_ok hitem]
    -- without fields there is no statement
    by_cases hfields : orderIndex = none ∧ imageDuration = none
    · right
      have hset : setItemFields itemId orderIndex imageDuration db = (.ok (), db) := by
        rw [setItemFields, if_pos hfields]
        rfl
      exact ⟨.inl hfields.1, by rw [bind_of_ok hset, hread]⟩
    · have hset : setItemFields itemId orderIndex imageDuration =
          writeItems (·.update itemId orderIndex imageDuration) := if_neg hfields
      rw [hset]
      rcases writeItems_cases db (·.update itemId orderIndex imageDuration) with
        ⟨items, hitems, hwrite⟩ | ⟨hfails, hwrite⟩
      · left
        exact ⟨r, hr, hid, items, hitems, by rw [bind_of_ok hwrite, hread]⟩
      · right
        exact ⟨.inr (.inr hfails), by rw [bind_of_error hwrite]⟩
  · right
    exact ⟨.inr (.inl hnone), by rw [updatePlaylistItem, bind_of_error hitem]⟩

/-- A verification writes nothing. -/
theorem verifyItems_snd (db : PlaylistStore) (q : Nat) (itemIds : List Nat) :
    (verifyItems q itemIds db).2 = db := by
  induction itemIds with
  | nil => rfl
  | cons itemId rest ih =>
    rw [verifyItems]
    rcases getPlaylistItemById_cases db itemId with ⟨r, -, -, hitem⟩ | ⟨-, e, -, hitem⟩
    · rw [bind_of_ok hitem]
      split
      · rfl
      · exact ih
    · rw [bind_of_error hitem]

/-- A reorder leaves the table alone, or renumbers distinct items of its playlist. -/
theorem reorderPlaylistItems_cases (db : PlaylistStore) (q : Nat) (itemIds : List Nat) :
    (reorderPlaylistItems q itemIds db).2 = db ∨
      ∃ items, db.items.reorder itemIds = some items ∧
        (∀ id ∈ itemIds, ∃ r ∈ db.items.rowsOf q, r.id = id) ∧
          (reorderPlaylistItems q itemIds db).2 = { db with items := items } := by
  rcases getPlaylistById_cases db q with ⟨playlist, -, hplaylist⟩ | ⟨-, e, -, hplaylist⟩
  · rw [reorderPlaylistItems, bind_of_ok hplaylist]
    -- what was verified is what the statements find
    have hsnd := verifyItems_snd db q itemIds
    rcases hverify : verifyItems q itemIds db with ⟨e | u, db'⟩
    · rw [hverify] at hsnd
      left
      rw [bind_of_error hverify]
      exact hsnd
    · rw [bind_of_ok hverify]
      obtain ⟨rfl, hbelong⟩ := verifyItems_ok hverify
      rcases writeItems_cases db (·.reorder itemIds) with ⟨items, hitems, hwrite⟩ | ⟨-, hwrite⟩
      · right
        refine ⟨items, hitems, fun id hid => ?_, by rw [hwrite]⟩
        obtain ⟨r, hfound, hq⟩ := hbelong id hid
        have hrid : r.id = id := by simpa using List.find?_some hfound
        exact ⟨r, ItemTable.mem_rowsOf.mpr ⟨List.mem_of_find?_eq_some hfound, hq⟩, hrid⟩
      · left
        rw [hwrite]
  · left
    rw [reorderPlaylistItems, bind_of_error hplaylist]

/-- A delete leaves the table alone when there is no such item; else it takes the item out and
    renumbers what is left of its playlist, which cannot fail where positions are not negative. -/
theorem deletePlaylistItem_cases (db : PlaylistStore) (itemId : Nat) :
    (deletePlaylistItem itemId db).2 = db ∨
      ∃ r ∈ db.items.rows, r.id = itemId ∧
        (((db.items.delete itemId).rowsOf r.playlistId = [] ∧
            (deletePlaylistItem itemId db).2 = { db with items := db.items.delete itemId }) ∨
          (∃ items, (db.items.delete itemId).reorder
              (((db.items.delete itemId).items r.playlistId).map (·.id)) = some items ∧
            (deletePlaylistItem itemId db).2 = { db with items := items }) ∨
          ((db.items.delete itemId).reorder
              (((db.items.delete itemId).items r.playlistId).map (·.id)) = none ∧
            (deletePlaylistItem itemId db).2 = { db with items := db.items.delete itemId })) := by
  rcases getPlaylistItemById_cases db itemId with ⟨r, hr, hid, hitem⟩ | ⟨-, e, -, hitem⟩
  · right
    refine ⟨r, hr, hid, ?_⟩
    have hdelete : writeItems (fun items => some (items.delete itemId)) db =
        (.ok (), { db with items := db.items.delete itemId }) := rfl
    rw [deletePlaylistItem, bind_of_ok hitem, bind_of_ok hdelete, getPlaylistItems_bind]
    dsimp only
    -- no statement where no item is left
    split
    · rename_i hnil
      left
      refine ⟨?_, rfl⟩
      have hitems : (db.items.delete itemId).items r.playlistId = [] := List.map_eq_nil_iff.mp hnil
      have hlength := (db.items.delete itemId).length_items r.playlistId
      rw [hitems] at hlength
      exact List.eq_nil_of_length_eq_zero hlength.symm
    · right
      rcases writeItems_cases { db with items := db.items.delete itemId }
        (·.reorder (((db.items.delete itemId).items r.playlistId).map (·.id))) with
        ⟨items, hitems, hwrite⟩ | ⟨hfails, hwrite⟩
      · exact .inl ⟨items, hitems, by rw [hwrite]⟩
      · exact .inr ⟨hfails, by rw [hwrite]⟩
  · left
    rw [deletePlaylistItem, bind_of_error hitem]

end PlaylistService

namespace ItemTable

variable {t t' : ItemTable} {p q : Nat}

/-- The ids of a playlist's items, as a delete lists them. -/
theorem mem_items_map_id {id : Nat} :
    id ∈ (t.items p).map (·.id) ↔ ∃ r ∈ t.rowsOf p, r.id = id := by
  rw [List.mem_map]
  constructor
  · rintro ⟨r, hr, hid⟩
    exact ⟨r, (List.mem_insertionSort _).mp hr, hid⟩
  · rintro ⟨r, hr, hid⟩
    exact ⟨r, (List.mem_insertionSort _).mpr hr, hid⟩

theorem items_map_id_nodup (t : ItemTable) (p : Nat) : ((t.items p).map (·.id)).Nodup := by
  have hperm : ((t.items p).map (·.id)).Perm ((t.rowsOf p).map (·.id)) :=
    (List.perm_insertionSort _ _).map _
  exact hperm.nodup_iff.mpr (t.ids_nodup.sublist (List.filter_sublist.map _))

/-- Renumbering the items of a playlist in stored order succeeds, leaves no gap there, and leaves
    the other playlists alone. -/
theorem reorder_items {s : ItemTable} (nonneg : ∀ r ∈ s.rowsOf q, 0 ≤ r.orderIndex)
    (h : p ≠ q → Gapless (s.indices p)) :
    ∃ s', s.reorder ((s.items q).map (·.id)) = some s' ∧ Gapless (s'.indices p) := by
  obtain ⟨s', hs'⟩ := exists_reorder (s.items_map_id_nodup q) (fun _ => mem_items_map_id) nonneg
  refine ⟨s', hs', ?_⟩
  by_cases hp : p = q
  · subst hp
    apply gapless_reorder (s.items_map_id_nodup p) (fun id hid => mem_items_map_id.mp hid) _ hs'
    intro r hr hid
    exact absurd (mem_items_map_id.mpr ⟨r, hr, rfl⟩) hid
  · have hsame : s'.rowsOf p = s.rowsOf p :=
      reorder_rowsOf_other (fun id hid => mem_items_map_id.mp hid) hp hs'
    rw [indices, hsame]
    exact h hp

end ItemTable

/-! ### Which calls keep a playlist ordered -/

namespace PlaylistStore

open PlaylistService

variable {db : PlaylistStore} {requireMediaApproval : Bool} {p : Nat}

/-- An item added without a position, singly or in bulk, is never refused for its position and
    goes to the end. -/
def AppendsLast (requireMediaApproval : Bool) (p : Nat) (db : PlaylistStore) : Prop :=
  (∀ mediaId imageDuration,
    let result := addPlaylistItem requireMediaApproval p mediaId none imageDuration db
    result.1 ≠ .error .constraint ∧
      ∀ item, result.1 = .ok item → result.2.items.items p = db.items.items p ++ [item]) ∧
  ∀ mediaIds,
    let result := addPlaylistItems requireMediaApproval p mediaIds db
    result.1 ≠ .error .constraint ∧
      ∀ items, result.1 = .ok items → result.2.items.items p = db.items.items p ++ items

/-- The order indices of the playlist are `0 .. n-1`, and additions go to the end. -/
def Ordered (requireMediaApproval : Bool) (p : Nat) (db : PlaylistStore) : Prop :=
  Gapless (db.items.indices p) ∧ AppendsLast requireMediaApproval p db

/-- The call leaves no gap in the playlist: an addition names no position past the end, an update
    moves no item past the end, and media is deleted only behind the items that stay. -/
def Tidy (requireMediaApproval : Bool) (p : Nat) (db : PlaylistStore) : PlaylistCall → Prop
  | .item (.addItem q mediaId orderIndex _) =>
    q = p → Accepts requireMediaApproval db q mediaId →
      ∀ k ∈ orderIndex, InRange ((db.items.rowsOf p).length + 1) k
  | .item (.updateItem itemId orderIndex _) =>
    ∀ r ∈ db.items.rowsOf p, r.id = itemId →
      ∀ k ∈ orderIndex, InRange (db.items.rowsOf p).length k
  | .deleteMedia mediaId =>
    (∃ media, db.media.find? (·.id == mediaId) = some media) →
      ∀ r ∈ db.items.rowsOf p, ∀ x ∈ db.items.rowsOf p, r.mediaId ≠ mediaId → x.mediaId = mediaId →
        r.orderIndex < x.orderIndex
  | _ => True

/-- Without gaps, the number of items is the next position. -/
theorem append_of_gapless (h : Gapless (db.items.indices p)) :
    AppendsLast requireMediaApproval p db := by
  constructor
  · intro mediaId imageDuration
    dsimp only
    rcases addPlaylistItem_cases requireMediaApproval db p mediaId none imageDuration with
      ⟨-, heq⟩ | ⟨-, e, he, heq⟩
    · obtain ⟨items, item, hinsert, hlast, -⟩ := insert_last db p mediaId imageDuration h
      rw [heq, Option.getD_none, hinsert]
      refine ⟨fun hc => (nomatch hc), fun x hx => ?_⟩
      rw [← Except.ok.inj hx]
      exact hlast
    · rw [heq]
      exact ⟨fun hc => he (Except.error.inj hc), fun _ hc => (nomatch hc)⟩
  · intro mediaIds
    dsimp only
    rcases addPlaylistItems_cases requireMediaApproval db p mediaIds with heq | ⟨e, he, heq⟩
    · obtain ⟨hnot, hlast, -⟩ := @addLoop_last db requireMediaApproval p mediaIds h
      rw [heq]
      exact ⟨hnot, hlast⟩
    · rw [heq]
      exact ⟨fun hc => he (Except.error.inj hc), fun _ hc => (nomatch hc)⟩

theorem gapless_addItem (h : Gapless (db.items.indices p)) (q mediaId : Nat)
    (orderIndex : Option Int) (imageDuration : Nat) :
    Gapless ((db.call requireMediaApproval
        (.item (.addItem q mediaId orderIndex imageDuration))).items.indices p) ↔
      Tidy requireMediaApproval p db (.item (.addItem q mediaId orderIndex imageDuration)) := by
  show Gapless ((addPlaylistItem _ _ _ _ _ db).2.items.indices p) ↔ (q = p → _)
  rcases addPlaylistItem_cases requireMediaApproval db q mediaId orderIndex imageDuration with
    ⟨haccepts, heq⟩ | ⟨hrefused, e, -, heq⟩
  · rw [heq]
    by_cases hq : q = p
    · subst hq
      cases orderIndex with
      | none =>
        obtain ⟨items, item, hinsert, -, -, hgapless⟩ := insert_last db q mediaId imageDuration h
        rw [Option.getD_none, hinsert]
        exact ⟨fun _ _ _ k hk => (nomatch hk), fun _ => hgapless⟩
      | some k =>
        rw [Option.getD_some]
        rcases insertPlaylistItem_cases db q mediaId k imageDuration with
          ⟨d, items, item, hinsert, heq⟩ | ⟨hused, heq⟩
        · rw [heq]
          have hexact := ItemTable.gapless_insert h hinsert
          constructor
          · intro h' _ _ k' hk'
            obtain rfl := Option.some.inj hk'
            exact hexact.mp h' rfl
          · intro htidy
            exact hexact.mpr fun _ => htidy rfl haccepts k rfl
        · -- the position is in use, and nothing is written
          rw [heq]
          refine ⟨fun _ _ _ k' hk' => ?_, fun _ => h⟩
          obtain rfl := Option.some.inj hk'
          obtain ⟨hnonneg, hlt⟩ := h.inRange hused
          rw [ItemTable.length_indices] at hlt
          exact ⟨hnonneg, by push_cast; omega⟩
    · -- an add to another playlist
      have hsame := @insertPlaylistItem_rowsOf db p q mediaId
        (orderIndex.getD (db.items.rowsOf q).length) imageDuration hq
      rw [ItemTable.indices, hsame]
      exact ⟨fun _ hq' => absurd hq' hq, fun _ => h⟩
  · rw [heq]
    exact ⟨fun _ _ haccepts => absurd haccepts hrefused, fun _ => h⟩

theorem gapless_addItems (h : Gapless (db.items.indices p)) (q : Nat) (mediaIds : List Nat) :
    Gapless ((db.call requireMediaApproval (.item (.addItems q mediaIds))).items.indices p) := by
  show Gapless ((addPlaylistItems _ _ _ db).2.items.indices p)
  rcases addPlaylistItems_cases requireMediaApproval db q mediaIds with heq | ⟨e, -, heq⟩
  · rw [heq]
    by_cases hq : q = p
    · subst hq
      exact (addLoop_last mediaIds h).2.2
    · rw [ItemTable.indices, addLoop_rowsOf hq]
      exact h
  · rw [heq]
    exact h

theorem gapless_updateItem (h : Gapless (db.items.indices p)) (itemId : Nat)
    (orderIndex : Option Int) (imageDuration : Option Nat) :
    Gapless ((db.call requireMediaApproval
        (.item (.updateItem itemId orderIndex imageDuration))).items.indices p) ↔
      Tidy requireMediaApproval p db (.item (.updateItem itemId orderIndex imageDuration)) := by
  show Gapless ((updatePlaylistItem _ _ _ db).2.items.indices p) ↔ ∀ r ∈ db.items.rowsOf p, _
  rcases updatePlaylistItem_cases db itemId orderIndex imageDuration with
    ⟨r, hr, rfl, items, hupdate, heq⟩ | ⟨hwhy, heq⟩
  · rw [heq]
    cases orderIndex with
    | none =>
      have hsame : items.indices p = db.items.indices p := ItemTable.indices_update_none hupdate
      show Gapless (items.indices p) ↔ _
      rw [hsame]
      exact ⟨fun _ _ _ _ k hk => (nomatch hk), fun _ => h⟩
    | some k =>
      by_cases hp : r.playlistId = p
      · have hmem : r ∈ db.items.rowsOf p := ItemTable.mem_rowsOf.mpr ⟨hr, hp⟩
        have hexact := ItemTable.gapless_update h hmem hupdate
        constructor
        · intro h' x _ _ k' hk'
          obtain rfl := Option.some.inj hk'
          exact hexact.mp h'
        · intro htidy
          exact hexact.mpr (htidy r hmem rfl k rfl)
      · show Gapless ((items.rowsOf p).map _) ↔ _
        rw [ItemTable.update_rowsOf_other hr hp hupdate]
        exact ⟨fun _ x hx hid => absurd (ItemTable.playlistId_of_id hx hr hid) hp, fun _ => h⟩
  · rw [heq]
    refine ⟨fun _ r hr hid k hk => ?_, fun _ => h⟩
    rcases hwhy with rfl | hnone | hfails
    · exact nomatch hk
    · exact absurd hid (hnone r (ItemTable.mem_rowsOf.mp hr).1)
    · -- a position out of range is in use by no item, and the update would have succeeded
      by_contra hout
      obtain rfl : orderIndex = some k := hk
      subst hid
      obtain ⟨t', ht'⟩ := @ItemTable.exists_update db.items p r k imageDuration hr
        fun x hx hxk => absurd (hxk ▸ ItemTable.inRange_of_gapless h hx) hout
      rw [hfails] at ht'
      exact absurd ht' (by simp)

theorem gapless_reorderItems (h : Gapless (db.items.indices p)) (q : Nat) (itemIds : List Nat) :
    Gapless ((db.call requireMediaApproval (.item (.reorderItems q itemIds))).items.indices p) := by
  show Gapless ((if itemIds ≠ [] ∧ itemIds.Nodup then
    (reorderPlaylistItems q itemIds db).2 else db).items.indices p)
  split
  · rename_i hadmitted
    rcases reorderPlaylistItems_cases db q itemIds with heq | ⟨items, hreorder, hbelong, heq⟩
    · rw [heq]
      exact h
    · rw [heq]
      by_cases hq : q = p
      · subst hq
        exact ItemTable.gapless_reorder hadmitted.2 hbelong
          (fun r hr _ => ItemTable.inRange_of_gapless h hr) hreorder
      · have hsame : items.rowsOf p = db.items.rowsOf p :=
          ItemTable.reorder_rowsOf_other hbelong (Ne.symm hq) hreorder
        show Gapless ((items.rowsOf p).map _)
        rw [hsame]
        exact h
  · exact h

theorem gapless_deleteItem (h : Gapless (db.items.indices p)) (itemId : Nat) :
    Gapless ((db.call requireMediaApproval (.item (.deleteItem itemId))).items.indices p) := by
  show Gapless ((deletePlaylistItem itemId db).2.items.indices p)
  rcases deletePlaylistItem_cases db itemId with heq | ⟨r, hr, rfl, hcases⟩
  · rw [heq]
    exact h
  · have hother : p ≠ r.playlistId → Gapless ((db.items.delete r.id).indices p) := by
      intro hp
      rw [ItemTable.indices, ItemTable.delete_rowsOf_other hr hp.symm]
      exact h
    by_cases hp : p = r.playlistId
    · -- positions without a gap are not negative, so the renumbering succeeds
      have hnonneg : ∀ x ∈ (db.items.delete r.id).rowsOf r.playlistId, 0 ≤ x.orderIndex := by
        intro x hx
        rw [ItemTable.delete_rowsOf, ← hp] at hx
        exact (ItemTable.inRange_of_gapless h (List.mem_of_mem_filter hx)).1
      obtain ⟨s', hs', hgapless⟩ := @ItemTable.reorder_items p _ _ hnonneg hother
      rcases hcases with ⟨hempty, heq⟩ | ⟨items, hreorder, heq⟩ | ⟨hfails, heq⟩
      · rw [heq]
        show Gapless (((db.items.delete r.id).rowsOf p).map _)
        rw [hp, hempty]
        exact List.Perm.refl _
      · rw [heq]
        obtain rfl := Option.some.inj (hreorder.symm.trans hs')
        exact hgapless
      · rw [hs'] at hfails
        exact absurd hfails (by simp)
    · rcases hcases with ⟨-, heq⟩ | ⟨items, hreorder, heq⟩ | ⟨-, heq⟩
      · rw [heq]
        exact hother hp
      · rw [heq]
        have hsame : items.rowsOf p = (db.items.delete r.id).rowsOf p :=
          ItemTable.reorder_rowsOf_other (fun _ hid => ItemTable.mem_items_map_id.mp hid) hp
            hreorder
        show Gapless ((items.rowsOf p).map _)
        rw [hsame]
        exact hother hp
      · rw [heq]
        exact hother hp

/-- A delete of media that does not exist writes nothing; another one writes all its tables. -/
theorem deleteMedia_cases (db : PlaylistStore) (mediaId : Nat) :
    ((∃ media, db.media.find? (·.id == mediaId) = some media) ∧
      (MediaService.deleteMedia mediaId db).2.items = db.items.deleteMedia mediaId) ∨
    (¬ (∃ media, db.media.find? (·.id == mediaId) = some media) ∧
      (MediaService.deleteMedia mediaId db).2 = db) := by
  cases hfind : db.media.find? (·.id == mediaId) with
  | none =>
    right
    have hmissing : ServiceM.Refuses (MediaService.getMediaById mediaId) db := by
      apply ServiceM.refuses_app
      rw [MediaService.getMediaById, getMediaById_bind, hfind]
      rfl
    obtain ⟨e, -, heq⟩ := hmissing
    refine ⟨by simp, ?_⟩
    rw [MediaService.deleteMedia, ServiceM.bind_of_error heq]
  | some media =>
    left
    have hfound : MediaService.getMediaById mediaId db = (.ok media, db) := by
      rw [MediaService.getMediaById, getMediaById_bind, hfind]
      rfl
    refine ⟨⟨media, rfl⟩, ?_⟩
    rw [MediaService.deleteMedia, ServiceM.bind_of_ok hfound]

theorem gapless_deleteMedia (h : Gapless (db.items.indices p)) (mediaId : Nat) :
    Gapless ((db.call requireMediaApproval (.deleteMedia mediaId)).items.indices p) ↔
      Tidy requireMediaApproval p db (.deleteMedia mediaId) := by
  show Gapless ((MediaService.deleteMedia mediaId db).2.items.indices p) ↔ (_ → _)
  rcases deleteMedia_cases db mediaId with ⟨hfound, heq⟩ | ⟨hmissing, heq⟩
  · rw [heq, ItemTable.gapless_deleteMedia h]
    exact ⟨fun hlast _ => hlast, fun hlast => hlast hfound⟩
  · rw [heq]
    exact ⟨fun _ hfound => absurd hfound hmissing, fun _ => h⟩

/-- **One call** keeps the order of a playlist free of gaps exactly when it is tidy. -/
theorem gapless_call (h : Gapless (db.items.indices p)) (c : PlaylistCall) :
    Gapless ((db.call requireMediaApproval c).items.indices p) ↔
      Tidy requireMediaApproval p db c := by
  rcases c with op | mediaId
  · cases op with
    | addItem q mediaId orderIndex imageDuration =>
      exact gapless_addItem h q mediaId orderIndex imageDuration
    | addItems q mediaIds => exact iff_of_true (gapless_addItems h q mediaIds) trivial
    | updateItem itemId orderIndex imageDuration =>
      exact gapless_updateItem h itemId orderIndex imageDuration
    | deleteItem itemId => exact iff_of_true (gapless_deleteItem h itemId) trivial
    | reorderItems q itemIds => exact iff_of_true (gapless_reorderItems h q itemIds) trivial
  · exact gapless_deleteMedia h mediaId

/-- **A playlist that starts empty stays ordered throughout a run exactly when every call of the
    run is tidy for it.**  For every sequence of calls on any playlists, with any outcome. -/
theorem ordered_iff_tidy {db : PlaylistStore} (requireMediaApproval : Bool) (p : Nat)
    (empty : db.items.rowsOf p = []) (calls : List PlaylistCall) :
    Throughout (step requireMediaApproval) (Ordered requireMediaApproval p) db calls ↔
      Each (step requireMediaApproval) (Tidy requireMediaApproval p) db calls := by
  have hstart : Gapless (db.items.indices p) := by
    rw [ItemTable.indices, empty]
    exact List.Perm.refl _
  -- every call has an outcome, so every run goes on to its end
  have hrun : ∃ t, exec (step requireMediaApproval) db calls = some t := by
    clear empty hstart
    induction calls generalizing db with
    | nil => exact ⟨db, rfl⟩
    | cons c rest ih => exact @ih (db.call requireMediaApproval c)
  obtain ⟨t, ht⟩ := hrun
  apply @throughout_iff_each _ _ _ _ _ _ _ _ (fun _ => True) (fun _ _ _ _ _ => trivial) _
    trivial ⟨hstart, append_of_gapless hstart⟩ ht
  rintro s c s' - hs hstep
  obtain rfl := Option.some.inj hstep
  constructor
  · intro h'
    exact (gapless_call hs.1 c).mp h'.1
  · intro htidy
    have h' := (gapless_call hs.1 c).mpr htidy
    exact ⟨h', append_of_gapless h'⟩

/-- One playlist without items, and three media rows. -/
def threeMedia : PlaylistStore where
  playlists := [⟨1, "lobby"⟩]
  media := [1, 2, 3].map fun k =>
    { id := k, filename := "clip", originalFilename := "clip", filepath := "clip"
      type := .video, fileSize := none, duration := none, checksum := none
      approvalStatus := .approved }
  subtitles := []
  clients := []
  items := .empty

theorem ordered_iff_tidy_threeMedia :
    Throughout (step false) (Ordered false 1) threeMedia
        [.item (.addItems 1 [1, 2]), .item (.reorderItems 1 [2, 1])] ↔
      Each (step false) (Tidy false 1) threeMedia
        [.item (.addItems 1 [1, 2]), .item (.reorderItems 1 [2, 1])] :=
  ordered_iff_tidy false 1 rfl _

/-- **Counterexample.** Of three items the first one's media is deleted: the positions left are 1
    and 2, and the next item, added without a position, is refused for position 2. -/
theorem not_ordered_deleteMedia :
    ¬ Throughout (step false) (Ordered false 1) threeMedia
        [.item (.addItems 1 [1, 2, 3]), .deleteMedia 1] := by
  intro h
  have hlast := h _ (List.prefix_refl _) _ rfl
  have hadd := (hlast.2.1 2 5).1
  exact absurd hadd (by decide)

end PlaylistStore

end Montr.Server
