import Mathlib
import Montr.Lib.Paging
import Montr.Server.FolderTree

namespace Montr.Server

open Paging Relation

/-!
# Deleting a folder with its media

A recursive deletion collects the media of the subtree page by page, moves them to the root in one
statement, and deletes the folders.

* `DeletesWell` — the deletion does what it is for, whatever is below the folder;
* `Deletable` — the ids fit into one statement of SQL, and no page boundary falls between rows of
  one `created_at`;
* `deletesWell_iff_deletable` — exactly then, whatever order the database gives to such rows.

A second lookup by the foreign key makes up for a row that the pages miss: the deletion itself
detaches every row of the subtree.
-/

/-- Other answers for the rows of one folder. -/
def RowOrder.instead (order : RowOrder) (folderId : Nat) (rows : List MediaRow)
    (answers : Nat → List MediaRow) (legal : ∀ p, Arranges (·.createdAt) rows (answers p)) :
    RowOrder where
  arrange f p r := if f = folderId ∧ r = rows then answers p else order.arrange f p r
  perm f p r := by
    split
    next h => exact h.2 ▸ (legal p).perm
    next => exact order.perm f p r
  sorted f p r := by
    split
    next => exact (legal p).sorted
    next => exact order.sorted f p r

theorem RowOrder.arrange_instead {order : RowOrder} {folderId : Nat} {rows : List MediaRow}
    {answers : Nat → List MediaRow} {legal : ∀ p, Arranges (·.createdAt) rows (answers p)}
    (p : Nat) : (order.instead folderId rows answers legal).arrange folderId p rows = answers p :=
  if_pos ⟨rfl, rfl⟩

namespace FolderStore

/-- The media of a folder. -/
def mediaOf (s : FolderStore) (folderId : Nat) : List MediaRow :=
  s.media.filter (·.folderId == some folderId)

/-- `allIds` of `deleteFolder`. -/
def subtreeIds (s : FolderStore) (id : Nat) : List Nat :=
  id :: (s.getMediaFolderDescendants id).map (·.id)

/-- How many media there are in the folder and below. -/
def mediaCount (s : FolderStore) (id : Nat) : Nat :=
  ((s.subtreeIds id).map fun i => (s.mediaOf i).length).sum

/-- The row is in the folder or in one below. -/
def InSubtree (s : FolderStore) (folder : FolderRow) (m : MediaRow) : Prop :=
  m.folderId = some folder.id ∨ ∃ f, TransGen s.IsParent folder f ∧ m.folderId = some f.id

/-- Every media row has an id of its own, and a folder that exists or none. -/
structure Shelved (s : FolderStore) : Prop where
  ids_nodup : (s.media.map (·.id)).Nodup
  folder : ∀ m ∈ s.media, ∀ id, m.folderId = some id → ∃ f ∈ s.folders, f.id = id

/-- **The deletion of the folder loses nothing.** -/
structure DeletesWell (s : FolderStore) (db : FolderDatabase) (folder : FolderRow) : Prop where
  /-- without the flag only an empty folder goes -/
  plain : (s.deleteFolder db folder.id false).1.isOk = true →
    (∀ m ∈ s.media, m.folderId ≠ some folder.id) ∧ ∀ f ∈ s.folders, f.parentId ≠ some folder.id
  succeeds : (s.deleteFolder db folder.id true).1.isOk = true
  /-- the folders of the subtree go, and no others -/
  folders : ∀ f, f ∈ (s.deleteFolder db folder.id true).2.folders ↔
    f ∈ s.folders ∧ f ≠ folder ∧ ¬ TransGen s.IsParent folder f
  /-- every media row stays; those of the subtree go to the root -/
  media : List.Forall₂ (fun m n : MediaRow => n.id = m.id ∧ n.createdAt = m.createdAt ∧
      (s.InSubtree folder m → n.folderId = none) ∧
      (¬ s.InSubtree folder m → n.folderId = m.folderId))
    s.media (s.deleteFolder db folder.id true).2.media
  shelved : (s.deleteFolder db folder.id true).2.Shelved
  /-- the pages have every media id of the subtree -/
  collects : ∀ id, id ∈ s.collectMediaIdsInFolders db.order (s.subtreeIds folder.id) ↔
    ∃ m ∈ s.media, s.InSubtree folder m ∧ m.id = id

/-- The ids fit into one statement, and no page boundary falls between rows of one
    `created_at`. -/
structure Deletable (s : FolderStore) (adapter : FolderAdapter) (maxVariables : Nat)
    (folder : FolderRow) : Prop where
  fits : adapter = .sqlite → s.mediaCount folder.id = 0 ∨
    s.mediaCount folder.id + 1 ≤ maxVariables
  whole : ∀ id ∈ s.subtreeIds folder.id, ∀ j,
    ¬ Split (·.createdAt) (s.mediaOf id) (j * pageLimit)

section

variable {s : FolderStore} {folder : FolderRow} {order : RowOrder} {folderId id p : Nat}
  {m : MediaRow}

/-! ### The pages of one folder -/

theorem mem_mediaOf : m ∈ s.mediaOf folderId ↔ m ∈ s.media ∧ m.folderId = some folderId := by
  rw [mediaOf, List.mem_filter, beq_iff_eq]

/-- What a query of page `p` sorts. -/
def answer (s : FolderStore) (order : RowOrder) (folderId p : Nat) : List MediaRow :=
  order.arrange folderId p (s.mediaOf folderId)

theorem arranges_answer (s : FolderStore) (order : RowOrder) (folderId p : Nat) :
    Arranges (·.createdAt) (s.mediaOf folderId) (s.answer order folderId p) :=
  ⟨order.perm _ _ _, order.sorted _ _ _⟩

theorem length_answer : (s.answer order folderId p).length = (s.mediaOf folderId).length :=
  (arranges_answer s order folderId p).perm.length_eq

theorem mem_of_mem_page (h : m ∈ page pageLimit p (s.answer order folderId p)) :
    m ∈ s.mediaOf folderId :=
  (arranges_answer s order folderId p).perm.mem_iff.mp
    (List.mem_of_mem_drop (List.mem_of_mem_take h))

/-- One round of the loop. -/
theorem collectPages_eq (s : FolderStore) (order : RowOrder) (folderId p : Nat) :
    s.collectPages order folderId p =
      (page pageLimit p (s.answer order folderId p)).map (·.id) ++
        if ((s.mediaOf folderId).length + pageLimit - 1) / pageLimit ≤ p then []
        else s.collectPages order folderId (p + 1) := by
  rw [collectPages]
  show (if ((s.mediaOf folderId).length + pageLimit - 1) / pageLimit ≤ p then _ else _) = _
  split
  · exact (List.append_nil _).symm
  · rfl

/-- **The loop reads each page up to the last.** -/
theorem mem_collectPages : id ∈ s.collectPages order folderId p ↔
    ∃ q, p ≤ q ∧ (q = p ∨ q ≤ ((s.mediaOf folderId).length + pageLimit - 1) / pageLimit) ∧
      ∃ m ∈ page pageLimit q (s.answer order folderId q), m.id = id := by
  generalize htotal : ((s.mediaOf folderId).length + pageLimit - 1) / pageLimit = total
  induction hleft : total - p generalizing p with
  | zero =>
    rw [collectPages_eq, htotal, if_pos (by omega), List.append_nil, List.mem_map]
    constructor
    · exact fun h => ⟨p, Nat.le_refl p, .inl rfl, h⟩
    · rintro ⟨q, hpq, hq, h⟩
      obtain rfl : q = p := by omega
      exact h
  | succ left ih =>
    rw [collectPages_eq, htotal, if_neg (by omega), List.mem_append, List.mem_map, ih (by omega)]
    constructor
    · rintro (h | ⟨q, hpq, hq, h⟩)
      · exact ⟨p, Nat.le_refl p, .inl rfl, h⟩
      · exact ⟨q, by omega, .inr (by omega), h⟩
    · rintro ⟨q, hpq, hq, h⟩
      obtain rfl | hlt := Nat.eq_or_lt_of_le hpq
      · exact .inl h
      · exact .inr ⟨q, hlt, by omega, h⟩

/-- As many ids as there are rows, whatever the order. -/
theorem length_collectPages (hp : 1 ≤ p) :
    (s.collectPages order folderId p).length =
      (s.mediaOf folderId).length - (p - 1) * pageLimit := by
  have hround : ∀ q, (page pageLimit q (s.answer order folderId q)).length =
      min pageLimit ((s.mediaOf folderId).length - (q - 1) * pageLimit) := by
    intro q
    rw [page, List.length_take, List.length_drop, length_answer]
  generalize htotal : ((s.mediaOf folderId).length + pageLimit - 1) / pageLimit = total
  induction hleft : total - p generalizing p with
  | zero =>
    rw [collectPages_eq, htotal, if_pos (by omega), List.append_nil, List.length_map, hround]
    unfold pageLimit at *
    omega
  | succ left ih =>
    rw [collectPages_eq, htotal, if_neg (by omega), List.length_append, List.length_map, hround,
      ih (by omega) (by omega)]
    unfold pageLimit at *
    omega

theorem length_collectMediaIdsInFolders (s : FolderStore) (order : RowOrder) (ids : List Nat) :
    (s.collectMediaIdsInFolders order ids).length =
      (ids.map fun i => (s.mediaOf i).length).sum := by
  rw [collectMediaIdsInFolders, List.length_flatMap]
  refine congrArg List.sum (List.map_congr_left fun i _ => ?_)
  rw [length_collectPages (Nat.le_refl 1), Nat.sub_self, Nat.zero_mul, Nat.sub_zero]

/-- The loop collects only what is in the folder. -/
theorem exists_of_mem_collectPages (h : id ∈ s.collectPages order folderId p) :
    ∃ m ∈ s.mediaOf folderId, m.id = id := by
  rw [mem_collectPages] at h
  obtain ⟨q, -, -, m, hm, hid⟩ := h
  exact ⟨m, mem_of_mem_page hm, hid⟩

/-- Without a split key it collects all of it. -/
theorem mem_collectPages_of_whole (hm : m ∈ s.mediaOf folderId)
    (whole : ∀ j, ¬ Split (·.createdAt) (s.mediaOf folderId) (j * pageLimit)) :
    m.id ∈ s.collectPages order folderId 1 := by
  obtain ⟨q, hq, hlast, hpage⟩ := exists_mem_page (by decide)
    (arranges_answer s order folderId) whole hm
  rw [mem_collectPages]
  exact ⟨q, hq, .inr hlast, m, hpage, rfl⟩

/-- Two rows of one id are one row. -/
theorem Shelved.eq_of_id {n : MediaRow} (shelved : s.Shelved) (hm : m ∈ s.media) (hn : n ∈ s.media)
    (h : m.id = n.id) : m = n :=
  List.inj_on_of_nodup_map shelved.ids_nodup hm hn h

/-- With one, an order of the database leaves a row out. -/
theorem exists_not_collected (shelved : s.Shelved) {j : Nat} (ids : List Nat)
    (split : Split (·.createdAt) (s.mediaOf folderId) (j * pageLimit)) :
    ∃ order, ∃ m ∈ s.mediaOf folderId, m.id ∉ s.collectMediaIdsInFolders order ids := by
  have hnodup : (s.mediaOf folderId).Nodup := shelved.ids_nodup.of_map.filter _
  obtain ⟨answers, legal, m, hm, hmissed⟩ :=
    exists_missed (arranges_answer s .stable folderId 1) hnodup split
  refine ⟨RowOrder.stable.instead folderId (s.mediaOf folderId) answers legal, m, hm, ?_⟩
  rw [collectMediaIdsInFolders, List.mem_flatMap]
  rintro ⟨i, -, hcollected⟩
  rw [mem_collectPages] at hcollected
  obtain ⟨q, -, -, n, hn, hid⟩ := hcollected
  obtain ⟨hnmem, hnfolder⟩ := mem_mediaOf.mp (mem_of_mem_page hn)
  obtain ⟨hmmem, hmfolder⟩ := mem_mediaOf.mp hm
  obtain rfl := shelved.eq_of_id hnmem hmmem hid
  obtain rfl := Option.some.inj (hnfolder.symm.trans hmfolder)
  rw [answer, RowOrder.arrange_instead] at hn
  exact hmissed q hn

/-! ### The deletion -/

theorem isSubtree_subtreeIds (keyed : s.Keyed) (linked : s.Linked) (hfolder : folder ∈ s.folders) :
    s.IsSubtree folder (s.subtreeIds folder.id) := by
  intro g
  rw [subtreeIds, List.mem_cons, List.mem_map]
  refine or_congr_right (exists_congr fun f => and_congr_left fun _ => ?_)
  rw [mem_getMediaFolderDescendants keyed hfolder]
  constructor
  · rintro ⟨hf, hbelow⟩
    exact (linked.isBelow_iff keyed hfolder hf).mp hbelow
  · intro hdescends
    have hf := (mem_of_descends hdescends).2
    exact ⟨hf, (linked.isBelow_iff keyed hfolder hf).mpr hdescends⟩

theorem inSubtree_iff {ids : List Nat} (subtree : s.IsSubtree folder ids) :
    s.InSubtree folder m ↔ ∃ g ∈ ids, m.folderId = some g := by
  constructor
  · rintro (h | ⟨f, hf, h⟩)
    · exact ⟨_, (subtree _).mpr (.inl rfl), h⟩
    · exact ⟨_, (subtree _).mpr (.inr ⟨f, hf, rfl⟩), h⟩
  · rintro ⟨g, hg, h⟩
    obtain rfl | ⟨f, hf, rfl⟩ := (subtree g).mp hg
    · exact .inl h
    · exact .inr ⟨f, hf, h⟩

/-- Every collected id is one of the subtree. -/
theorem exists_of_mem_collect {ids : List Nat} (subtree : s.IsSubtree folder ids)
    (h : id ∈ s.collectMediaIdsInFolders order ids) :
    ∃ m ∈ s.media, s.InSubtree folder m ∧ m.id = id := by
  obtain ⟨g, hg, hcollected⟩ := List.mem_flatMap.mp h
  obtain ⟨m, hm, hid⟩ := exists_of_mem_collectPages hcollected
  obtain ⟨hmem, hfolderId⟩ := mem_mediaOf.mp hm
  exact ⟨m, hmem, (inSubtree_iff subtree).mpr ⟨g, hg, hfolderId⟩, hid⟩

/-- The store after the move of the collected ids to the root. -/
def cleared (s : FolderStore) (ids : List Nat) : FolderStore :=
  { s with media := s.media.map fun m => if ids.contains m.id then { m with folderId := none } else m }

/-- The move to the root fails only for the number of its variables. -/
theorem moveMediaToFolder_none (s : FolderStore) (db : FolderDatabase) (ids : List Nat) :
    s.moveMediaToFolder db ids none =
      if db.adapter = .sqlite ∧ ids ≠ [] ∧ db.maxVariables < ids.length + 1 then
        .error .tooManyVariables
      else .ok (s.cleared ids) := by
  unfold moveMediaToFolder
  by_cases hnone : ids = []
  · have hsame : s.cleared [] = s := by simp [cleared]
    rw [if_pos hnone, if_neg (fun h => h.2.1 hnone), hnone, hsame]
  · rw [if_neg hnone]
    by_cases hmany : db.adapter = .sqlite ∧ db.maxVariables < ids.length + 1
    · rw [if_pos hmany, if_pos ⟨hmany.1, hnone, hmany.2⟩]
    · rw [if_neg hmany, if_neg (by simp), if_neg (fun h => hmany ⟨h.1, h.2.2⟩)]
      rfl

/-- **A recursive deletion**: the error of the move, or the folders deleted after it. -/
theorem deleteFolder_recursive (db : FolderDatabase) (keyed : s.Keyed)
    (hfolder : folder ∈ s.folders) :
    s.deleteFolder db folder.id true =
      if db.adapter = .sqlite ∧ s.mediaCount folder.id ≠ 0 ∧
          db.maxVariables < s.mediaCount folder.id + 1 then
        (.error (.adapter .tooManyVariables), s)
      else (.ok (), (s.cleared (s.collectMediaIdsInFolders db.order
        (s.subtreeIds folder.id))).deleteMediaFolder db.adapter folder.id) := by
  have hlength := length_collectMediaIdsInFolders s db.order (s.subtreeIds folder.id)
  have hmany : (db.adapter = .sqlite ∧
      s.collectMediaIdsInFolders db.order (s.subtreeIds folder.id) ≠ [] ∧ db.maxVariables <
        (s.collectMediaIdsInFolders db.order (s.subtreeIds folder.id)).length + 1) ↔
      db.adapter = .sqlite ∧ s.mediaCount folder.id ≠ 0 ∧
        db.maxVariables < s.mediaCount folder.id + 1 := by
    rw [Ne, ← List.length_eq_zero_iff, hlength, mediaCount]
  have hmove := s.moveMediaToFolder_none db
    (s.collectMediaIdsInFolders db.order (s.subtreeIds folder.id))
  unfold deleteFolder
  rw [keyed.getMediaFolderById hfolder]
  by_cases h : db.adapter = .sqlite ∧ s.mediaCount folder.id ≠ 0 ∧
      db.maxVariables < s.mediaCount folder.id + 1
  · rw [if_pos (hmany.mpr h)] at hmove
    rw [if_pos h]
    simp only [Bool.not_true, Bool.false_and, Bool.false_eq_true, if_false, if_true]
    rw [← subtreeIds, hmove]
  · rw [if_neg (hmany.not.mpr h)] at hmove
    rw [if_neg h]
    simp only [Bool.not_true, Bool.false_and, Bool.false_eq_true, if_false, if_true]
    rw [← subtreeIds, hmove]

/-- What the loop missed the deletion detaches. -/
theorem detach_cleared {ids gone : List Nat} (shelved : s.Shelved)
    (subtree : s.IsSubtree folder gone)
    (collected : ∀ id ∈ ids, ∃ m ∈ s.media, s.InSubtree folder m ∧ m.id = id) :
    detach (s.cleared ids).media gone = detach s.media gone := by
  rw [detach, detach, cleared, List.map_map]
  refine List.map_congr_left fun m hm => ?_
  rw [Function.comp_apply]
  by_cases hid : ids.contains m.id = true
  · obtain ⟨n, hn, hinside, heq⟩ := collected m.id (List.contains_iff_mem.mp hid)
    obtain rfl := shelved.eq_of_id hn hm heq
    obtain ⟨g, hg, hfolderId⟩ := (inSubtree_iff subtree).mp hinside
    have hgone : n.folderId.any gone.contains = true := by
      rw [hfolderId, Option.any_some, List.contains_iff_mem]
      exact hg
    rw [if_pos hid, if_pos hgone]
    rfl
  · rw [if_neg hid]

theorem Shelved.detach {t : FolderStore} {gone : List Nat} (shelved : s.Shelved)
    (subtree : s.IsSubtree folder gone) (removed : s.Removed t folder)
    (media : t.media = FolderStore.detach s.media gone) : t.Shelved where
  ids_nodup := by
    have hids : t.media.map (·.id) = s.media.map (·.id) := by
      rw [media, FolderStore.detach, List.map_map]
      refine List.map_congr_left fun m _ => ?_
      rw [Function.comp_apply]
      split <;> rfl
    exact hids ▸ shelved.ids_nodup
  folder m hm id hid := by
    obtain ⟨n, hn, rfl⟩ := List.mem_map.mp (media ▸ hm)
    by_cases hgone : n.folderId.any gone.contains = true
    · rw [if_pos hgone] at hid
      exact absurd hid (by simp)
    · rw [if_neg hgone] at hid
      obtain ⟨f, hf, rfl⟩ := shelved.folder n hn id hid
      have hkept : f.id ∉ gone := by
        rw [hid, Option.any_some, List.contains_iff_mem] at hgone
        exact hgone
      refine ⟨f, (removed.mem f).mpr ⟨hf, fun heq => ?_, fun hdescends => ?_⟩, rfl⟩
      · exact hkept ((subtree _).mpr (.inl (congrArg _ heq)))
      · exact hkept ((subtree _).mpr (.inr ⟨f, hdescends, rfl⟩))

theorem forall₂_detach {gone : List Nat} (subtree : s.IsSubtree folder gone) :
    List.Forall₂ (fun m n : MediaRow => n.id = m.id ∧ n.createdAt = m.createdAt ∧
        (s.InSubtree folder m → n.folderId = none) ∧
        (¬ s.InSubtree folder m → n.folderId = m.folderId))
      s.media (detach s.media gone) := by
  rw [detach, List.forall₂_map_right_iff, List.forall₂_same]
  intro m _
  have hgone : m.folderId.any gone.contains = true ↔ s.InSubtree folder m := by
    rw [inSubtree_iff subtree]
    cases m.folderId <;> simp
  by_cases hinside : s.InSubtree folder m
  · rw [if_pos (hgone.mpr hinside)]
    exact ⟨rfl, rfl, fun _ => rfl, fun h => absurd hinside h⟩
  · rw [if_neg (hgone.not.mpr hinside)]
    exact ⟨rfl, rfl, fun h => absurd h hinside, fun _ => rfl⟩

/-- Without the flag only an empty folder goes. -/
theorem empty_of_plain {db : FolderDatabase} (keyed : s.Keyed) (hfolder : folder ∈ s.folders)
    (ok : (s.deleteFolder db folder.id false).1.isOk = true) :
    (∀ m ∈ s.media, m.folderId ≠ some folder.id) ∧
      ∀ f ∈ s.folders, f.parentId ≠ some folder.id := by
  unfold deleteFolder getMediaFolderContentCounts at ok
  rw [keyed.getMediaFolderById hfolder] at ok
  simp only [Bool.not_false, Bool.true_and, Bool.or_eq_true, decide_eq_true_eq] at ok
  split at ok
  · exact absurd ok (by simp [Except.isOk, Except.toBool])
  next hcounts =>
    obtain ⟨hmedia, hfolders⟩ := not_or.mp hcounts
    rw [List.length_pos_iff, not_not, List.filter_eq_nil_iff] at hmedia hfolders
    exact ⟨fun m hm h => hmedia m hm (beq_iff_eq.mpr h),
      fun f hf h => hfolders f hf (beq_iff_eq.mpr h)⟩

/-- The folders and media after a recursive deletion that succeeds. -/
theorem deletesWell_of_deletable (db : FolderDatabase) (keyed : s.Keyed) (linked : s.Linked)
    (shelved : s.Shelved) (hfolder : folder ∈ s.folders)
    (deletable : s.Deletable db.adapter db.maxVariables folder) : s.DeletesWell db folder := by
  have hfits : ¬ (db.adapter = .sqlite ∧ s.mediaCount folder.id ≠ 0 ∧
      db.maxVariables < s.mediaCount folder.id + 1) := by
    rintro ⟨hsql, hsome, hmany⟩
    obtain hzero | hle := deletable.fits hsql
    · exact hsome hzero
    · omega
  have hrun := deleteFolder_recursive db keyed hfolder
  rw [if_neg hfits] at hrun
  have hids := isSubtree_subtreeIds keyed linked hfolder
  have hcollected : ∀ id ∈ s.collectMediaIdsInFolders db.order (s.subtreeIds folder.id),
      ∃ m ∈ s.media, s.InSubtree folder m ∧ m.id = id :=
    fun id => exists_of_mem_collect hids
  obtain ⟨hremoved, gone, hgone, hmedia⟩ := deleteMediaFolder_spec db.adapter
    (keyed.withMedia (s.cleared (s.collectMediaIdsInFolders db.order
      (s.subtreeIds folder.id))).media)
    (linked.withMedia _) hfolder
  have hsubtree : s.IsSubtree folder gone := hgone
  have hdetach := hmedia.trans (detach_cleared shelved hsubtree hcollected)
  refine ⟨empty_of_plain keyed hfolder, ?_, ?_, ?_, ?_, fun id => ⟨hcollected id, ?_⟩⟩
  · rw [hrun]
    rfl
  · rw [hrun]
    exact hremoved.mem
  · rw [hrun]
    exact hdetach ▸ forall₂_detach hsubtree
  · rw [hrun]
    exact shelved.detach hsubtree ⟨hremoved.nextId, hremoved.sublist, hremoved.mem⟩ hdetach
  · rintro ⟨m, hm, hinside, rfl⟩
    obtain ⟨g, hg, hfolderId⟩ := (inSubtree_iff hids).mp hinside
    exact List.mem_flatMap.mpr ⟨g, hg,
      mem_collectPages_of_whole (mem_mediaOf.mpr ⟨hm, hfolderId⟩) (deletable.whole g hg)⟩

/-- **A folder is deleted without a loss, whatever order the database gives to media of one time**,
    exactly when the ids fit into one statement of SQL and no page ends between such media. -/
theorem deletesWell_iff_deletable (adapter : FolderAdapter) (maxVariables : Nat) (keyed : s.Keyed)
    (linked : s.Linked) (shelved : s.Shelved) (hfolder : folder ∈ s.folders) :
    (∀ order, s.DeletesWell ⟨adapter, maxVariables, order⟩ folder) ↔
      s.Deletable adapter maxVariables folder := by
  refine ⟨fun hall => ⟨fun hsql => ?_, fun id hid j hsplit => ?_⟩, fun deletable order =>
    deletesWell_of_deletable ⟨adapter, maxVariables, order⟩ keyed linked shelved hfolder deletable⟩
  · by_contra hmany
    have hok := (hall .stable).succeeds
    rw [deleteFolder_recursive _ keyed hfolder, if_pos ⟨hsql, by omega, by
      show maxVariables < _
      omega⟩] at hok
    exact absurd hok (by simp [Except.isOk, Except.toBool])
  · obtain ⟨order, m, hm, hmissed⟩ :=
      exists_not_collected shelved (s.subtreeIds folder.id) hsplit
    obtain ⟨hmem, hfolderId⟩ := mem_mediaOf.mp hm
    refine hmissed (((hall order).collects m.id).mpr ⟨m, hmem, ?_, rfl⟩)
    exact (inSubtree_iff (isSubtree_subtreeIds keyed linked hfolder)).mpr ⟨id, hid, hfolderId⟩

end

/-! ### A folder of media of one time -/

def lobbyFolder : FolderRow := ⟨1, "Lobby", none, "/1", none⟩

/-- The folder with `n` media. -/
def lobby (n : Nat) : FolderStore where
  folders := [lobbyFolder]
  nextId := 2
  media := (List.range n).map fun i => ⟨i, some 1, "2025-03-01 09:00:00"⟩

theorem keyed_lobby (n : Nat) : (lobby n).Keyed where
  ids_nodup := List.nodup_singleton 1
  id_lt f hf := by
    obtain rfl := List.mem_singleton.mp hf
    exact Nat.one_lt_two

theorem linked_lobby (n : Nat) : (lobby n).Linked where
  parent f hf q hq := by
    obtain rfl := List.mem_singleton.mp hf
    exact absurd hq (by simp [lobbyFolder])
  root f hf _ := by
    obtain rfl := List.mem_singleton.mp hf
    decide
  child p f h := by
    obtain ⟨-, hf, hparent⟩ := h
    obtain rfl := List.mem_singleton.mp hf
    exact absurd hparent (by simp [lobbyFolder])

theorem mem_lobby (n : Nat) : lobbyFolder ∈ (lobby n).folders := List.mem_singleton.mpr rfl

theorem ids_lobby (n : Nat) : (lobby n).media.map (·.id) = List.range n := by
  rw [lobby, List.map_map]
  exact List.map_id _

theorem length_lobby (n : Nat) : (lobby n).media.length = n := by
  rw [lobby, List.length_map, List.length_range]

theorem folderId_lobby {n : Nat} {m : MediaRow} (hm : m ∈ (lobby n).media) :
    m.folderId = some 1 := by
  obtain ⟨i, -, rfl⟩ := List.mem_map.mp hm
  rfl

theorem shelved_lobby (n : Nat) : (lobby n).Shelved where
  ids_nodup := ids_lobby n ▸ List.nodup_range
  folder m hm id hid := by
    rw [folderId_lobby hm] at hid
    exact ⟨lobbyFolder, mem_lobby n, Option.some.inj hid⟩

theorem mediaOf_lobby (n : Nat) : (lobby n).mediaOf 1 = (lobby n).media := by
  rw [mediaOf, List.filter_eq_self]
  exact fun m hm => beq_iff_eq.mpr (folderId_lobby hm)

theorem subtreeIds_lobby (n : Nat) : (lobby n).subtreeIds 1 = [1] := by
  have hbelow : (lobby n).getMediaFolderDescendants lobbyFolder.id = [] := by
    rw [List.eq_nil_iff_forall_not_mem]
    intro f hf
    obtain ⟨hmem, hdown⟩ := (mem_getMediaFolderDescendants (keyed_lobby n) (mem_lobby n)).mp hf
    obtain rfl := List.mem_singleton.mp hmem
    exact absurd hdown (by decide)
  exact congrArg (fun below : List FolderRow => 1 :: below.map (·.id)) hbelow

theorem mediaCount_lobby (n : Nat) : (lobby n).mediaCount 1 = n := by
  rw [mediaCount, subtreeIds_lobby, List.map_singleton, List.sum_singleton, mediaOf_lobby,
    length_lobby]

/-- A folder of two media. -/
theorem deletesWell_iff_deletable_lobby :
    (lobby 2).DeletesWell ⟨.sqlite, 32766, .stable⟩ lobbyFolder := by
  refine (deletesWell_iff_deletable .sqlite 32766 (keyed_lobby 2) (linked_lobby 2)
    (shelved_lobby 2) (mem_lobby 2)).mpr ⟨fun _ => ?_, fun id hid j hsplit => ?_⟩ .stable
  · rw [show lobbyFolder.id = 1 from rfl, mediaCount_lobby]
    decide
  · obtain rfl : id = 1 := by simpa [lobbyFolder, subtreeIds_lobby] using hid
    obtain ⟨hpos, hlt⟩ := Split.bounds hsplit
    rw [mediaOf_lobby, length_lobby] at hlt
    unfold pageLimit at hpos hlt
    omega

theorem arranges_lobby (n : Nat) :
    Arranges (·.createdAt) (lobby n).media (lobby n).media ∧
      Arranges (·.createdAt) (lobby n).media (lobby n).media.reverse := by
  have hsorted : (lobby n).media.Pairwise fun a b =>
      b.createdAt ≤ a.createdAt ∧ a.createdAt ≤ b.createdAt :=
    List.pairwise_map.mpr (List.pairwise_of_forall fun _ _ => ⟨le_refl _, le_refl _⟩)
  exact ⟨⟨.refl _, hsorted.imp And.left⟩,
    ⟨List.reverse_perm _, List.pairwise_reverse.mpr (hsorted.imp And.right)⟩⟩

/-- The rows in the order of the table on the first page, and from the end on the others. -/
def turnedOrder (n : Nat) : RowOrder :=
  RowOrder.stable.instead 1 (lobby n).media
    (fun p => if p ≤ 1 then (lobby n).media else (lobby n).media.reverse) fun p => by
      split
      · exact (arranges_lobby n).1
      · exact (arranges_lobby n).2

/-- **Counterexample.** The pages miss a row of 501 media of one time; 32766 media are too many
    for one statement of SQLite, and nothing is deleted. -/
theorem not_deletesWell_lobby :
    ((lobby 501).Keyed ∧ (lobby 501).Linked ∧ (lobby 501).Shelved ∧
      lobbyFolder ∈ (lobby 501).folders ∧
      500 ∈ (lobby 501).media.map (·.id) ∧
      500 ∉ (lobby 501).collectMediaIdsInFolders (turnedOrder 501) ((lobby 501).subtreeIds 1) ∧
      ¬ (lobby 501).DeletesWell ⟨.mongodb, 0, turnedOrder 501⟩ lobbyFolder) ∧
    (lobby 32766).Keyed ∧ (lobby 32766).Linked ∧ (lobby 32766).Shelved ∧
      lobbyFolder ∈ (lobby 32766).folders ∧
      (lobby 32766).deleteFolder ⟨.sqlite, 32766, .stable⟩ 1 true =
        (.error (.adapter .tooManyVariables), lobby 32766) ∧
      ¬ (lobby 32766).DeletesWell ⟨.sqlite, 32766, .stable⟩ lobbyFolder := by
  have hids : 500 ∈ (lobby 501).media.map (·.id) := by
    rw [ids_lobby, List.mem_range]
    decide
  have hmissed : 500 ∉ (lobby 501).collectMediaIdsInFolders (turnedOrder 501)
      ((lobby 501).subtreeIds 1) := by
    rw [subtreeIds_lobby, collectMediaIdsInFolders, List.flatMap_singleton, mem_collectPages]
    rintro ⟨q, hq, hlast, hpage⟩
    rw [answer, mediaOf_lobby, turnedOrder, RowOrder.arrange_instead, ← List.mem_map] at hpage
    rw [mediaOf_lobby, length_lobby] at hlast
    obtain rfl | rfl : q = 1 ∨ q = 2 := by
      unfold pageLimit at hlast
      omega
    · exact absurd hpage (by decide +kernel)
    · exact absurd hpage (by decide +kernel)
  have herror : (lobby 32766).deleteFolder ⟨.sqlite, 32766, .stable⟩ 1 true =
      (.error (.adapter .tooManyVariables), lobby 32766) := by
    refine (deleteFolder_recursive _ (keyed_lobby 32766) (mem_lobby 32766)).trans (if_pos ?_)
    rw [show lobbyFolder.id = 1 from rfl, mediaCount_lobby]
    decide
  refine ⟨⟨keyed_lobby _, linked_lobby _, shelved_lobby _, mem_lobby _, hids, hmissed,
    fun well => ?_⟩, keyed_lobby _, linked_lobby _, shelved_lobby _, mem_lobby _, herror,
    fun well => ?_⟩
  · obtain ⟨m, hm, hid⟩ := List.mem_map.mp hids
    exact hmissed ((well.collects 500).mpr ⟨m, hm, .inl (folderId_lobby hm), hid⟩)
  · have hok := well.succeeds
    rw [show lobbyFolder.id = 1 from rfl, herror] at hok
    exact absurd hok (by simp [Except.isOk, Except.toBool])

end FolderStore

end Montr.Server
