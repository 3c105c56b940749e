import Montr.Lib.MaterialisedPaths
import Montr.Server.MediaFolders
import Std.Data.String.ToNat

namespace Montr.Server

open MaterialisedPaths Relation

/-!
# The forest of folders

The rows of `media_folders` as a forest with materialised paths.

* `Keyed`, `Linked` — unique ids, and paths that follow the parent links;
* `added`, `moved` — a folder created, and one moved with its subtree; `Linked.added` and
  `Linked.moved` keep the paths right;
* `Removed` — a subtree deleted, by the cascade of SQLite or by the paths of MongoDB
  (`deleteMediaFolder_spec`).
-/

namespace FolderStore

/-- `p` is the parent of `f`. -/
def IsParent (s : FolderStore) (p f : FolderRow) : Prop :=
  p ∈ s.folders ∧ f ∈ s.folders ∧ f.parentId = some p.id

/-- Ids are unique, and new ones are new. -/
structure Keyed (s : FolderStore) : Prop where
  ids_nodup : (s.folders.map (·.id)).Nodup
  id_lt : ∀ f ∈ s.folders, f.id < s.nextId

/-- Paths follow the parent links. -/
structure Linked (s : FolderStore) : Prop where
  parent : ∀ f ∈ s.folders, ∀ p, f.parentId = some p → ∃ g ∈ s.folders, g.id = p
  root : ∀ f ∈ s.folders, f.parentId = none → f.path = "/" ++ Nat.repr f.id
  child : ∀ p f, s.IsParent p f → f.path = p.path ++ "/" ++ Nat.repr f.id

/-- Another folder has the parent and the name. -/
def SameName (s : FolderStore) (id : Nat) (parentId : Option Nat) (name : String) : Prop :=
  ∃ g ∈ s.folders, g.id ≠ id ∧ g.parentId = parentId ∧ g.name = name

/-! ### Links and paths -/

section

variable {s t : FolderStore} {f g p d : FolderRow} {id : Nat}

theorem id_of_getMediaFolderById (h : s.getMediaFolderById id = some f) :
    f ∈ s.folders ∧ f.id = id :=
  ⟨List.mem_of_find?_eq_some h, by simpa using List.find?_some h⟩

theorem Keyed.eq_of_id (keyed : s.Keyed) (hf : f ∈ s.folders) (hg : g ∈ s.folders)
    (h : f.id = g.id) : f = g :=
  List.inj_on_of_nodup_map keyed.ids_nodup hf hg h

/-- A row is found under its own id. -/
theorem find?_id {rows : List FolderRow} (nodup : (rows.map (·.id)).Nodup) (hf : f ∈ rows) :
    rows.find? (·.id == f.id) = some f := by
  cases hfound : rows.find? (·.id == f.id) with
  | none => exact absurd (List.find?_eq_none.mp hfound f hf) (by simp)
  | some g =>
    have hid : g.id = f.id := by simpa using List.find?_some hfound
    rw [List.inj_on_of_nodup_map nodup (List.mem_of_find?_eq_some hfound) hf hid]

theorem Keyed.getMediaFolderById (keyed : s.Keyed) (hf : f ∈ s.folders) :
    s.getMediaFolderById f.id = some f :=
  find?_id keyed.ids_nodup hf

theorem isBelow_iff_starts {oldPath path : String} :
    isBelow oldPath path = true ↔ oldPath.toList ++ ['/'] <+: path.toList := by
  simp [isBelow]

/-- The paths of a linked forest are materialised. -/
theorem Linked.materialised (linked : s.Linked) (keyed : s.Keyed) :
    Materialised (· ∈ s.folders) s.IsParent (fun f => f.path.toList)
      (fun f => (Nat.repr f.id).toList) '/' where
  parent_mem _ _ h := ⟨h.1, h.2.1⟩
  root f hf hroot := by
    have hnone : f.parentId = none := by
      cases hparent : f.parentId with
      | none => rfl
      | some p =>
        obtain ⟨g, hg, rfl⟩ := linked.parent f hf p hparent
        exact absurd ⟨hg, hf, hparent⟩ (hroot g)
    rw [linked.root f hf hnone]
    simp
  child p f h := by
    rw [linked.child p f h]
    simp
  sep_notMem f hsep := by
    rw [Nat.toList_repr] at hsep
    have hdigit := Nat.isDigit_of_mem_toDigits (by omega) (by omega) hsep
    exact absurd hdigit (by decide)
  label_inj f g hf hg h :=
    keyed.eq_of_id hf hg (Nat.repr_injective (String.toList_injective h))

theorem mem_getMediaFolderDescendants (keyed : s.Keyed) (hf : f ∈ s.folders) :
    d ∈ s.getMediaFolderDescendants f.id ↔ d ∈ s.folders ∧ isBelow f.path d.path = true := by
  simp [getMediaFolderDescendants, keyed.getMediaFolderById hf, List.mem_mergeSort]

/-- In a linked forest the prefix test finds the descendants. -/
theorem Linked.isBelow_iff (linked : s.Linked) (keyed : s.Keyed) (hf : f ∈ s.folders)
    (hd : d ∈ s.folders) : isBelow f.path d.path = true ↔ TransGen s.IsParent f d :=
  isBelow_iff_starts.trans ((linked.materialised keyed).prefix_iff hf hd)

theorem mem_of_descends (h : TransGen s.IsParent f d) : f ∈ s.folders ∧ d ∈ s.folders := by
  induction h with
  | single hp => exact ⟨hp.1, hp.2.1⟩
  | tail _ hp ih => exact ⟨ih.1, hp.2.1⟩

/-! ### The index -/

theorem taken_mongodb {parentId : Option Nat} {name : String} :
    FolderAdapter.mongodb.taken s.folders id parentId name = true ↔
      s.SameName id parentId name := by
  have hsame : ∀ q : Option Nat, FolderAdapter.mongodb.sameParent q parentId = true ↔
      q = parentId := by
    intro q
    cases q <;> cases parentId <;> simp [FolderAdapter.sameParent]
  simp [FolderAdapter.taken, SameName, hsame, and_assoc]

theorem taken_sqlite {parentId : Option Nat} {name : String} :
    FolderAdapter.sqlite.taken s.folders id parentId name = true ↔
      parentId ≠ none ∧ s.SameName id parentId name := by
  have hsame : ∀ q : Option Nat, FolderAdapter.sqlite.sameParent q parentId = true ↔
      parentId ≠ none ∧ q = parentId := by
    intro q
    cases q <;> cases parentId <;> simp [FolderAdapter.sameParent]
  simp only [FolderAdapter.taken, SameName, List.any_eq_true, Bool.and_eq_true, bne_iff_ne,
    beq_iff_eq, hsame]
  constructor
  · rintro ⟨g, hg, ⟨hne, hparent, hq⟩, hname⟩
    exact ⟨hparent, g, hg, hne, hq, hname⟩
  · rintro ⟨hparent, g, hg, hne, hq, hname⟩
    exact ⟨g, hg, ⟨hne, hparent, hq⟩, hname⟩

/-! ### Rewritten rows -/

/-- The first of the rows with the id, if any, decides the path. -/
theorem foldl_setPath {rows folders : List FolderRow} (nodup : (rows.map (·.id)).Nodup)
    (path : FolderRow → String) :
    rows.foldl (fun folders d => setPath folders d.id (path d)) folders =
      folders.map fun f =>
        ((rows.find? (·.id == f.id)).map fun d => { f with path := path d }).getD f := by
  induction rows generalizing folders with
  | nil => exact (List.map_id' folders).symm
  | cons d rest ih =>
    rw [List.map_cons, List.nodup_cons] at nodup
    rw [List.foldl_cons, ih nodup.2, setPath, List.map_map]
    refine List.map_congr_left fun f _ => ?_
    rw [Function.comp_apply, List.find?_cons]
    by_cases hid : f.id = d.id
    · have hrest : rest.find? (·.id == f.id) = none := by
        rw [List.find?_eq_none]
        intro e he
        have hne : e.id ≠ d.id := fun heq => nodup.1 (heq ▸ List.mem_map_of_mem he)
        simpa [hid] using hne
      have hself : (d.id == f.id) = true := by simp [hid]
      rw [if_pos hid, hself, hrest]
      rfl
    · have hne : (d.id == f.id) = false := by simpa using Ne.symm hid
      simp [hid, hne]

/-- The new prefix for the old one. -/
def reprefixed (oldPath newPath : String) (f : FolderRow) : FolderRow :=
  if isBelow oldPath f.path then
    { f with path := newPath ++ String.ofList (f.path.toList.drop oldPath.length) }
  else f

/-- The loop over the descendants rewrites each of them once. -/
theorem rewritePaths_eq {folders : List FolderRow} (nodup : (folders.map (·.id)).Nodup)
    (oldPath newPath : String) :
    rewritePaths folders oldPath newPath = folders.map (reprefixed oldPath newPath) := by
  rw [rewritePaths, foldl_setPath (nodup.sublist (List.filter_sublist.map _))]
  refine List.map_congr_left fun f hf => ?_
  rw [reprefixed]
  split
  next hbelow =>
    have hmem : f ∈ folders.filter fun f => isBelow oldPath f.path :=
      List.mem_filter.mpr ⟨hf, hbelow⟩
    have hfound := find?_id (nodup.sublist (List.filter_sublist.map _)) hmem
    rw [hfound]
    rfl
  next hbelow =>
    have hnone : (folders.filter fun f => isBelow oldPath f.path).find? (·.id == f.id) = none := by
      rw [List.find?_eq_none]
      intro g hg hid
      obtain ⟨hmem, hgbelow⟩ := List.mem_filter.mp hg
      obtain rfl := List.inj_on_of_nodup_map nodup hmem hf (by simpa using hid)
      exact hbelow hgbelow
    rw [hnone]
    rfl

/-! ### A folder put under a parent -/

theorem isParent_unique (keyed : s.Keyed) (hp : s.IsParent p f) (hg : s.IsParent g f) : p = g :=
  keyed.eq_of_id hp.1 hg.1 (Option.some.inj (hp.2.2.symm.trans hg.2.2))

/-- The end of a chain of parents. -/
theorem descends_parent (keyed : s.Keyed) (hp : s.IsParent p f) (h : TransGen s.IsParent g f) :
    p = g ∨ TransGen s.IsParent g p := by
  cases h with
  | single hg => exact .inl (isParent_unique keyed hp hg)
  | tail hchain hg => exact .inr (isParent_unique keyed hp hg ▸ hchain)

theorem two_le_length_path (linked : s.Linked) (keyed : s.Keyed) (hf : f ∈ s.folders) :
    2 ≤ f.path.toList.length := by
  obtain ⟨q, hq⟩ := (linked.materialised keyed).exists_append hf
  have hdigits : 0 < (Nat.repr f.id).toList.length := by
    rw [Nat.toList_repr]
    exact Nat.length_toDigits_pos
  rw [hq, List.length_append, List.length_cons]
  omega

/-- Where a folder may be, and the path that it has there. -/
inductive Place (s : FolderStore) (id : Nat) : Option Nat → String → Prop
  | root : Place s id none ("/" ++ Nat.repr id)
  | under (g : FolderRow) (mem : g ∈ s.folders) :
    Place s id (some g.id) (g.path ++ "/" ++ Nat.repr id)

theorem Place.eq_root {path : String} (h : s.Place id none path) : path = "/" ++ Nat.repr id := by
  cases h
  rfl

theorem Place.exists_under {q : Nat} {path : String} (h : s.Place id (some q) path) :
    ∃ g ∈ s.folders, g.id = q ∧ path = g.path ++ "/" ++ Nat.repr id := by
  cases h with
  | under g hg => exact ⟨g, hg, rfl, rfl⟩

/-- The path that the adapters compute. -/
theorem Linked.place_under (linked : s.Linked) (keyed : s.Keyed) (hg : g ∈ s.folders) :
    s.Place id (some g.id) (fullPath g.path id) := by
  have hne : g.path ≠ "/" := by
    intro heq
    have hlen := two_le_length_path linked keyed hg
    rw [heq] at hlen
    exact absurd hlen (by decide)
  rw [fullPath, if_neg hne]
  exact .under g hg

theorem place_root : s.Place id none (fullPath "/" id) := by
  rw [fullPath, if_pos rfl]
  exact .root

/-- A folder is where it is. -/
theorem Linked.place (linked : s.Linked) (hf : f ∈ s.folders) :
    s.Place f.id f.parentId f.path := by
  cases hparent : f.parentId with
  | none =>
    rw [linked.root f hf hparent]
    exact .root
  | some q =>
    obtain ⟨g, hg, rfl⟩ := linked.parent f hf q hparent
    rw [linked.child g f ⟨hg, hf, hparent⟩]
    exact .under g hg

/-- One more folder. -/
def added (s : FolderStore) (row : FolderRow) : FolderStore :=
  { s with folders := s.folders ++ [row], nextId := s.nextId + 1 }

theorem Keyed.added (keyed : s.Keyed) {row : FolderRow} (hid : row.id = s.nextId) :
    (s.added row).Keyed where
  ids_nodup := by
    show ((s.folders ++ [row]).map (·.id)).Nodup
    rw [List.map_append, List.nodup_append]
    refine ⟨keyed.ids_nodup, by simp, ?_⟩
    rintro a ha b hb rfl
    obtain ⟨f, hf, rfl⟩ := List.mem_map.mp ha
    have hlt := keyed.id_lt f hf
    have heq : f.id = s.nextId := by simpa [hid] using hb
    omega
  id_lt f hf := by
    obtain hf | hf := List.mem_append.mp hf
    · exact Nat.lt_succ_of_lt (keyed.id_lt f hf)
    · obtain rfl := List.mem_singleton.mp hf
      rw [hid]
      exact Nat.lt_succ_self _

theorem Linked.added (linked : s.Linked) (keyed : s.Keyed) {row : FolderRow}
    (hid : row.id = s.nextId) (place : s.Place row.id row.parentId row.path) :
    (s.added row).Linked := by
  have hnew : ∀ f ∈ s.folders, f.id ≠ row.id := fun f hf => hid ▸ (keyed.id_lt f hf).ne
  have hmem : ∀ f, f ∈ (s.added row).folders ↔ f ∈ s.folders ∨ f = row := by
    simp [FolderStore.added]
  have hexists : ∀ f ∈ (s.added row).folders, ∀ p, f.parentId = some p →
      ∃ g ∈ s.folders, g.id = p := by
    intro f hf q hq
    obtain hold | rfl := (hmem f).mp hf
    · exact linked.parent f hold q hq
    · obtain ⟨g, hg, hgid, -⟩ := (hq ▸ place).exists_under
      exact ⟨g, hg, hgid⟩
  refine ⟨fun f hf p hp => ?_, fun f hf hnone => ?_, fun p f h => ?_⟩
  · obtain ⟨g, hg, hgid⟩ := hexists f hf p hp
    exact ⟨g, (hmem g).mpr (.inl hg), hgid⟩
  · obtain hold | rfl := (hmem f).mp hf
    · exact linked.root f hold hnone
    · exact (hnone ▸ place).eq_root
  · obtain ⟨hp, hf, hparent⟩ := h
    -- the parent is an old row
    obtain ⟨g, hg, hgid⟩ := hexists f hf p.id hparent
    obtain hpold | rfl := (hmem p).mp hp
    · obtain hold | rfl := (hmem f).mp hf
      · exact linked.child p f ⟨hpold, hold, hparent⟩
      · obtain ⟨g', hg', hgid', hpath⟩ := (hparent ▸ place).exists_under
        rw [hpath, keyed.eq_of_id hpold hg' hgid'.symm]
    · exact absurd hgid (hnew g hg)

/-- Names stay distinct unless the new folder has one that is taken. -/
theorem names_added (keyed : s.Keyed) {row : FolderRow} (hid : row.id = s.nextId)
    (names : ∀ f ∈ s.folders, ¬ s.SameName f.id f.parentId f.name) :
    (∀ f ∈ (s.added row).folders, ¬ (s.added row).SameName f.id f.parentId f.name) ↔
      ¬ s.SameName row.id row.parentId row.name := by
  have hnew : ∀ f ∈ s.folders, f.id ≠ row.id := fun f hf => hid ▸ (keyed.id_lt f hf).ne
  have hmem : ∀ f, f ∈ (s.added row).folders ↔ f ∈ s.folders ∨ f = row := by
    simp [FolderStore.added]
  constructor
  · rintro hall ⟨g, hg, hne, hparent, hname⟩
    exact hall row ((hmem row).mpr (.inr rfl)) ⟨g, (hmem g).mpr (.inl hg), hne, hparent, hname⟩
  · rintro hfree f hf ⟨g, hg, hne, hparent, hname⟩
    obtain hold | rfl := (hmem f).mp hf
    · obtain hgold | rfl := (hmem g).mp hg
      · exact names f hold ⟨g, hgold, hne, hparent, hname⟩
      · exact hfree ⟨f, hold, hnew f hold, hparent.symm, hname.symm⟩
    · obtain hgold | rfl := (hmem g).mp hg
      · exact hfree ⟨g, hgold, hne, hparent, hname⟩
      · exact hne rfl

/-! ### A folder moved with its subtree -/

/-- The row after the move of the folder: its own columns, or the prefix of its path. -/
def moveRow (folder : FolderRow) (name : String) (parentId : Option Nat) (newPath : String)
    (f : FolderRow) : FolderRow :=
  if f.id = folder.id then { f with name := name, parentId := parentId, path := newPath }
  else reprefixed folder.path newPath f

def moved (s : FolderStore) (folder : FolderRow) (name : String) (parentId : Option Nat)
    (newPath : String) : FolderStore :=
  { s with folders := s.folders.map (moveRow folder name parentId newPath) }

section

variable {folder : FolderRow} {name newPath : String} {parentId : Option Nat}

@[simp] theorem id_reprefixed (oldPath newPath : String) (f : FolderRow) :
    (reprefixed oldPath newPath f).id = f.id := by
  unfold reprefixed
  split <;> rfl

@[simp] theorem id_moveRow : (moveRow folder name parentId newPath f).id = f.id := by
  unfold moveRow
  split
  · rfl
  · exact id_reprefixed ..

theorem moveRow_self (hid : f.id = folder.id) : moveRow folder name parentId newPath f =
    { f with name := name, parentId := parentId, path := newPath } := if_pos hid

theorem moveRow_of_ne (hid : f.id ≠ folder.id) :
    (moveRow folder name parentId newPath f).parentId = f.parentId ∧
      (moveRow folder name parentId newPath f).name = f.name := by
  unfold moveRow reprefixed
  rw [if_neg hid]
  split <;> exact ⟨rfl, rfl⟩

/-- A row outside the subtree is left alone. -/
theorem moveRow_of_not_below (hid : f.id ≠ folder.id) (h : ¬ isBelow folder.path f.path = true) :
    moveRow folder name parentId newPath f = f := by
  unfold moveRow reprefixed
  rw [if_neg hid, if_neg h]

/-- The path of a row of the subtree. -/
theorem path_moveRow_of_append (hid : f.id ≠ folder.id) {rest : String}
    (hpath : f.path = folder.path ++ "/" ++ rest) :
    (moveRow folder name parentId newPath f).path = newPath ++ "/" ++ rest := by
  have hlist : f.path.toList = folder.path.toList ++ ("/" ++ rest).toList := by
    rw [hpath]
    simp
  have hbelow : isBelow folder.path f.path = true := by
    rw [isBelow_iff_starts, hlist]
    simp
  unfold moveRow reprefixed
  rw [if_neg hid, if_pos hbelow]
  show newPath ++ String.ofList (f.path.toList.drop folder.path.length) = _
  rw [hlist, ← String.length_toList, List.drop_left, String.ofList_toList]
  exact (String.append_assoc ..).symm

/-- A path below another one. -/
theorem exists_rest (h : isBelow folder.path f.path = true) :
    ∃ rest, f.path = folder.path ++ "/" ++ rest := by
  obtain ⟨rest, hrest⟩ := isBelow_iff_starts.mp h
  refine ⟨String.ofList rest, String.toList_injective ?_⟩
  rw [← hrest]
  simp

theorem Keyed.moved (keyed : s.Keyed) : (s.moved folder name parentId newPath).Keyed where
  ids_nodup := by
    rw [FolderStore.moved, List.map_map]
    simpa only [Function.comp_def, id_moveRow] using keyed.ids_nodup
  id_lt f hf := by
    obtain ⟨g, hg, rfl⟩ := List.mem_map.mp hf
    rw [id_moveRow]
    exact keyed.id_lt g hg

/-- A folder that is neither moved nor below the moved one. -/
structure Outside (s : FolderStore) (folder g : FolderRow) : Prop where
  ne : g.id ≠ folder.id
  notBelow : ¬ isBelow folder.path g.path = true

/-- **A move keeps links and paths together**, when the new parent is outside the subtree. -/
theorem Linked.moved (linked : s.Linked) (keyed : s.Keyed) (hfolder : folder ∈ s.folders)
    (place : s.Place folder.id parentId newPath)
    (outside : ∀ g ∈ s.folders, parentId = some g.id → s.Outside folder g) :
    (s.moved folder name parentId newPath).Linked := by
  have hmem : ∀ f, f ∈ (s.moved folder name parentId newPath).folders ↔
      ∃ g ∈ s.folders, moveRow folder name parentId newPath g = f := fun f => List.mem_map
  refine ⟨fun f hf q hq => ?_, fun f hf hnone => ?_, fun p f h => ?_⟩
  · obtain ⟨g, hg, rfl⟩ := (hmem f).mp hf
    have hparent : ∃ h ∈ s.folders, h.id = q := by
      by_cases hid : g.id = folder.id
      · rw [moveRow_self hid] at hq
        obtain ⟨h, hh, hhid, -⟩ := (show parentId = some q from hq) ▸ place |>.exists_under
        exact ⟨h, hh, hhid⟩
      · exact linked.parent g hg q ((moveRow_of_ne hid).1 ▸ hq)
    obtain ⟨h, hh, hhid⟩ := hparent
    exact ⟨_, (hmem _).mpr ⟨h, hh, rfl⟩, id_moveRow.trans hhid⟩
  · obtain ⟨g, hg, rfl⟩ := (hmem f).mp hf
    rw [id_moveRow]
    by_cases hid : g.id = folder.id
    · rw [moveRow_self hid] at hnone ⊢
      rw [hid]
      exact ((show parentId = none from hnone) ▸ place).eq_root
    · rw [(moveRow_of_ne hid).1] at hnone
      have hbelow : ¬ isBelow folder.path g.path = true := by
        rw [linked.isBelow_iff keyed hfolder hg]
        intro hdescends
        obtain ⟨p, -, hp⟩ := TransGen.tail'_iff.mp hdescends
        exact absurd (hnone.symm.trans hp.2.2) (by simp)
      rw [moveRow_of_not_below hid hbelow]
      exact linked.root g hg hnone
  · obtain ⟨hpmoved, hfmoved, hparent⟩ := h
    obtain ⟨p, hp, rfl⟩ := (hmem p).mp hpmoved
    obtain ⟨f, hf, rfl⟩ := (hmem f).mp hfmoved
    rw [id_moveRow] at hparent ⊢
    by_cases hid : f.id = folder.id
    · rw [moveRow_self hid] at hparent ⊢
      have hnew : parentId = some p.id := hparent
      have houtside := outside p hp hnew
      rw [moveRow_of_not_below houtside.ne houtside.notBelow, hid]
      obtain ⟨g, hg, hgid, hpath⟩ := (hnew ▸ place).exists_under
      rw [← keyed.eq_of_id hg hp hgid]
      exact hpath
    · rw [(moveRow_of_ne hid).1] at hparent
      have hchild := linked.child p f ⟨hp, hf, hparent⟩
      by_cases hpid : p.id = folder.id
      · -- a child of the moved folder
        obtain rfl := keyed.eq_of_id hp hfolder hpid
        rw [path_moveRow_of_append hid hchild, moveRow_self rfl]
      · by_cases hbelow : isBelow folder.path p.path = true
        · -- deeper in the subtree
          obtain ⟨rest, hrest⟩ := exists_rest hbelow
          have hdeep : f.path = folder.path ++ "/" ++ (rest ++ "/" ++ Nat.repr f.id) := by
            rw [hchild, hrest]
            simp only [String.append_assoc]
          rw [path_moveRow_of_append hid hdeep, path_moveRow_of_append hpid hrest]
          simp only [String.append_assoc]
        · have hnotBelow : ¬ isBelow folder.path f.path = true := by
            rw [linked.isBelow_iff keyed hfolder hf]
            rw [linked.isBelow_iff keyed hfolder hp] at hbelow
            intro hdescends
            obtain rfl | hdescends := descends_parent keyed ⟨hp, hf, hparent⟩ hdescends
            · exact hpid rfl
            · exact hbelow hdescends
          rw [moveRow_of_not_below hid hnotBelow, moveRow_of_not_below hpid hbelow]
          exact hchild

/-- Names stay distinct unless the folder takes one that is there. -/
theorem names_moved (hfolder : folder ∈ s.folders)
    (names : ∀ f ∈ s.folders, ¬ s.SameName f.id f.parentId f.name) :
    (∀ f ∈ (s.moved folder name parentId newPath).folders,
        ¬ (s.moved folder name parentId newPath).SameName f.id f.parentId f.name) ↔
      ¬ s.SameName folder.id parentId name := by
  have hmem : ∀ f, f ∈ (s.moved folder name parentId newPath).folders ↔
      ∃ g ∈ s.folders, moveRow folder name parentId newPath g = f := fun f => List.mem_map
  constructor
  · rintro hall ⟨g, hg, hne, hparent, hname⟩
    refine hall _ ((hmem _).mpr ⟨folder, hfolder, rfl⟩)
      ⟨_, (hmem _).mpr ⟨g, hg, rfl⟩, ?_, ?_, ?_⟩
    · simpa using hne
    · rw [(moveRow_of_ne hne).1, moveRow_self rfl]
      exact hparent
    · rw [(moveRow_of_ne hne).2, moveRow_self rfl]
      exact hname
  · rintro hfree f hfmoved ⟨g, hgmoved, hne, hparent, hname⟩
    obtain ⟨f, hf, rfl⟩ := (hmem f).mp hfmoved
    obtain ⟨g, hg, rfl⟩ := (hmem g).mp hgmoved
    rw [id_moveRow, id_moveRow] at hne
    by_cases hfid : f.id = folder.id
    · have hgid : g.id ≠ folder.id := fun heq => hne (heq.trans hfid.symm)
      rw [moveRow_self hfid, (moveRow_of_ne hgid).1] at hparent
      rw [moveRow_self hfid, (moveRow_of_ne hgid).2] at hname
      exact hfree ⟨g, hg, hgid, hparent, hname⟩
    · rw [(moveRow_of_ne hfid).1] at hparent
      rw [(moveRow_of_ne hfid).2] at hname
      by_cases hgid : g.id = folder.id
      · rw [moveRow_self hgid] at hparent hname
        exact hfree ⟨f, hf, hfid, hparent.symm, hname.symm⟩
      · rw [(moveRow_of_ne hgid).1] at hparent
        rw [(moveRow_of_ne hgid).2] at hname
        exact names f hf ⟨g, hg, hne, hparent, hname⟩

end

/-! ### A subtree removed -/

/-- The row is below one of the ids. -/
inductive Under (folders : List FolderRow) (gone : List Nat) : FolderRow → Prop
  | child {f : FolderRow} {g : Nat} (mem : g ∈ gone) (parent : f.parentId = some g) :
    Under folders gone f
  | deeper {f : FolderRow} (p : FolderRow) (mem : p ∈ folders) (parent : f.parentId = some p.id)
    (below : Under folders gone p) : Under folders gone f

theorem mem_childrenOf {folders : List FolderRow} {gone : List Nat} :
    f ∈ childrenOf folders gone ↔ f ∈ folders ∧ ∃ g ∈ gone, f.parentId = some g := by
  rw [childrenOf, List.mem_filter]
  cases f.parentId <;> simp

theorem mem_othersOf {folders : List FolderRow} {gone : List Nat} :
    f ∈ othersOf folders gone ↔ f ∈ folders ∧ f ∉ childrenOf folders gone := by
  rw [othersOf, List.mem_filter, childrenOf, List.mem_filter]
  simp +contextual

/-- One level of a cascade. -/
theorem under_iff {folders : List FolderRow} {gone : List Nat} :
    Under folders gone f ↔ (∃ g ∈ gone, f.parentId = some g) ∨
      Under (othersOf folders gone) ((childrenOf folders gone).map (·.id)) f := by
  constructor
  · intro h
    induction h with
    | child mem parent => exact .inl ⟨_, mem, parent⟩
    | deeper p mem parent _ ih =>
      by_cases hchild : p ∈ childrenOf folders gone
      · exact .inr (.child (List.mem_map_of_mem hchild) parent)
      · obtain hp | hp := ih
        · exact absurd (mem_childrenOf.mpr ⟨mem, hp⟩) hchild
        · exact .inr (.deeper p (mem_othersOf.mpr ⟨mem, hchild⟩) parent hp)
  · rintro (⟨g, mem, parent⟩ | h)
    · exact .child mem parent
    · induction h with
      | child mem parent =>
        obtain ⟨c, hc, rfl⟩ := List.mem_map.mp mem
        obtain ⟨hfolder, g, hg, hparent⟩ := mem_childrenOf.mp hc
        exact .deeper c hfolder parent (.child hg hparent)
      | deeper p mem parent _ ih => exact .deeper p (mem_othersOf.mp mem).1 parent ih

/-- **A cascade takes the rows below the ids**, and their ids. -/
theorem mem_cascade (folders : List FolderRow) (gone : List Nat) :
    (∀ f, f ∈ (cascade folders gone).1 ↔ f ∈ folders ∧ ¬ Under folders gone f) ∧
      (∀ g, g ∈ (cascade folders gone).2 ↔
        g ∈ gone ∨ ∃ f ∈ folders, Under folders gone f ∧ f.id = g) ∧
      (cascade folders gone).1.Sublist folders := by
  fun_induction cascade folders gone with
  | case1 folders gone hnone =>
    have hnot : ∀ f ∈ folders, ¬ Under folders gone f := by
      intro f hf h
      induction h with
      | child mem parent =>
        exact absurd (mem_childrenOf.mpr ⟨hf, _, mem, parent⟩) (by simp [hnone])
      | deeper p mem _ _ ih => exact ih mem
    refine ⟨fun f => ?_, fun g => ?_, .refl _⟩
    · exact (and_iff_left_of_imp fun hf => hnot f hf).symm
    · exact (or_iff_left fun ⟨f, hf, h, _⟩ => hnot f hf h).symm
  | case2 folders gone _ kept below hrec ih =>
    rw [hrec] at ih
    obtain ⟨hkept, hbelow, hsub⟩ := ih
    refine ⟨fun f => ?_, fun g => ?_, hsub.trans List.filter_sublist⟩
    · refine (hkept f).trans ?_
      rw [mem_othersOf, mem_childrenOf, @under_iff f folders gone]
      constructor
      · rintro ⟨⟨hf, hdirect⟩, hdeep⟩
        exact ⟨hf, fun h => h.elim (fun hchild => hdirect ⟨hf, hchild⟩) hdeep⟩
      · rintro ⟨hf, hnot⟩
        exact ⟨⟨hf, fun hchild => hnot (.inl hchild.2)⟩, fun hdeep => hnot (.inr hdeep)⟩
    · rw [List.mem_append, hbelow]
      refine or_congr_right ⟨?_, ?_⟩
      · rintro (hg | ⟨f, hf, h, rfl⟩)
        · obtain ⟨c, hc, rfl⟩ := List.mem_map.mp hg
          obtain ⟨hfolder, hchild⟩ := mem_childrenOf.mp hc
          exact ⟨c, hfolder, under_iff.mpr (.inl hchild), rfl⟩
        · exact ⟨f, (mem_othersOf.mp hf).1, under_iff.mpr (.inr h), rfl⟩
      · rintro ⟨f, hf, h, rfl⟩
        by_cases hchild : f ∈ childrenOf folders gone
        · exact .inl (List.mem_map_of_mem hchild)
        · obtain hdirect | hdeep := under_iff.mp h
          · exact absurd (mem_childrenOf.mpr ⟨hf, hdirect⟩) hchild
          · exact .inr ⟨f, mem_othersOf.mpr ⟨hf, hchild⟩, hdeep, rfl⟩

/-- Below a folder is what descends from it. -/
theorem under_iff_descends (hf : f ∈ s.folders) (hd : d ∈ s.folders) :
    Under (s.folders.filter (·.id != f.id)) [f.id] d ↔ TransGen s.IsParent f d := by
  constructor
  · intro h
    induction h with
    | child mem parent =>
      obtain rfl := List.mem_singleton.mp mem
      exact .single ⟨hf, hd, parent⟩
    | deeper p mem parent _ ih =>
      have hp := (List.mem_filter.mp mem).1
      exact (ih hp).tail ⟨hp, hd, parent⟩
  · intro h
    induction h with
    | single hparent => exact .child (List.mem_singleton.mpr rfl) hparent.2.2
    | @tail p d _ hparent ih =>
      by_cases hid : p.id = f.id
      · exact .child (List.mem_singleton.mpr hid) hparent.2.2
      · exact .deeper p (List.mem_filter.mpr ⟨hparent.1, by simpa using hid⟩) hparent.2.2
          (ih hparent.1)

/-- The folder and its descendants are gone. -/
structure Removed (s t : FolderStore) (folder : FolderRow) : Prop where
  nextId : t.nextId = s.nextId
  sublist : t.folders.Sublist s.folders
  mem : ∀ f, f ∈ t.folders ↔ f ∈ s.folders ∧ f ≠ folder ∧ ¬ TransGen s.IsParent folder f

/-- The ids of a folder and its descendants. -/
def IsSubtree (s : FolderStore) (folder : FolderRow) (ids : List Nat) : Prop :=
  ∀ g, g ∈ ids ↔ g = folder.id ∨ ∃ f, TransGen s.IsParent folder f ∧ f.id = g

/-- **Both adapters remove the subtree** and detach its media. -/
theorem deleteMediaFolder_spec (adapter : FolderAdapter) (keyed : s.Keyed) (linked : s.Linked)
    (hf : f ∈ s.folders) :
    s.Removed (s.deleteMediaFolder adapter f.id) f ∧
      ∃ gone, s.IsSubtree f gone ∧
        (s.deleteMediaFolder adapter f.id).media = detach s.media gone := by
  unfold deleteMediaFolder
  rw [keyed.getMediaFolderById hf]
  cases adapter with
  | sqlite =>
    obtain ⟨hkept, hgone, hsub⟩ := mem_cascade (s.folders.filter (·.id != f.id)) [f.id]
    refine ⟨⟨rfl, hsub.trans List.filter_sublist, fun d => ?_⟩, _, fun g => ?_, rfl⟩
    · refine (hkept d).trans ?_
      rw [List.mem_filter, bne_iff_ne]
      constructor
      · rintro ⟨⟨hd, hne⟩, hunder⟩
        exact ⟨hd, fun heq => hne (congrArg _ heq),
          fun h => hunder ((under_iff_descends hf hd).mpr h)⟩
      · rintro ⟨hd, hne, hdescends⟩
        exact ⟨⟨hd, fun heq => hne (keyed.eq_of_id hd hf heq)⟩,
          fun h => hdescends ((under_iff_descends hf hd).mp h)⟩
    · rw [hgone, List.mem_singleton]
      refine or_congr_right ⟨?_, ?_⟩
      · rintro ⟨d, hd, hunder, rfl⟩
        exact ⟨d, (under_iff_descends hf (List.mem_filter.mp hd).1).mp hunder, rfl⟩
      · rintro ⟨d, hdescends, rfl⟩
        have hd := (mem_of_descends hdescends).2
        have hne : d.id ≠ f.id := by
          intro heq
          rw [keyed.eq_of_id hd hf heq] at hdescends
          exact (linked.materialised keyed).acyclic hdescends
        exact ⟨d, List.mem_filter.mpr ⟨hd, by simpa using hne⟩,
          (under_iff_descends hf hd).mpr hdescends, rfl⟩
  | mongodb =>
    have hids : s.IsSubtree f
        (f.id :: (s.folders.filter fun d => isBelow f.path d.path).map (·.id)) := by
      intro g
      rw [List.mem_cons, List.mem_map]
      refine or_congr_right (exists_congr fun d => and_congr_left fun _ => ?_)
      rw [List.mem_filter]
      constructor
      · rintro ⟨hd, hbelow⟩
        exact (linked.isBelow_iff keyed hf hd).mp hbelow
      · intro hdescends
        have hd := (mem_of_descends hdescends).2
        exact ⟨hd, (linked.isBelow_iff keyed hf hd).mpr hdescends⟩
    refine ⟨⟨rfl, List.filter_sublist, fun d => ?_⟩, _, hids, rfl⟩
    refine List.mem_filter.trans (and_congr_right fun hd => ?_)
    rw [Bool.not_eq_true', ← Bool.not_eq_true, List.contains_iff_mem, hids d.id, not_or]
    refine and_congr (not_congr ⟨fun heq => keyed.eq_of_id hd hf heq, congrArg _⟩)
      (not_congr ⟨?_, fun h => ⟨d, h, rfl⟩⟩)
    rintro ⟨e, he, hid⟩
    rwa [keyed.eq_of_id (mem_of_descends he).2 hd hid] at he

theorem Keyed.sublist (keyed : s.Keyed) (nextId : t.nextId = s.nextId)
    (sublist : t.folders.Sublist s.folders) : t.Keyed where
  ids_nodup := keyed.ids_nodup.sublist (sublist.map _)
  id_lt f hf := nextId ▸ keyed.id_lt f (sublist.subset hf)

theorem Keyed.deleteMediaFolder (keyed : s.Keyed) (adapter : FolderAdapter) :
    (s.deleteMediaFolder adapter id).Keyed := by
  unfold FolderStore.deleteMediaFolder
  split
  · exact keyed
  · split
    · obtain ⟨-, -, hsub⟩ := mem_cascade (s.folders.filter (·.id != id)) [id]
      exact keyed.sublist rfl (hsub.trans List.filter_sublist)
    · exact keyed.sublist rfl List.filter_sublist

/-- What is left of a sound tree is sound. -/
theorem Removed.linked (removed : s.Removed t f) (linked : s.Linked) : t.Linked := by
  have hold : ∀ p g, t.IsParent p g → s.IsParent p g := fun p g h =>
    ⟨removed.sublist.subset h.1, removed.sublist.subset h.2.1, h.2.2⟩
  refine ⟨fun g hg q hq => ?_, fun g hg => linked.root g (removed.sublist.subset hg),
    fun p g h => linked.child p g (hold p g h)⟩
  obtain ⟨hgs, hne, hnot⟩ := (removed.mem g).mp hg
  obtain ⟨p, hp, rfl⟩ := linked.parent g hgs q hq
  refine ⟨p, (removed.mem p).mpr ⟨hp, ?_, ?_⟩, rfl⟩
  · rintro rfl
    exact hnot (.single ⟨hp, hgs, hq⟩)
  · exact fun hdescends => hnot (hdescends.tail ⟨hp, hgs, hq⟩)

theorem Removed.names (removed : s.Removed t f)
    (names : ∀ f ∈ s.folders, ¬ s.SameName f.id f.parentId f.name) :
    ∀ g ∈ t.folders, ¬ t.SameName g.id g.parentId g.name := by
  rintro g hg ⟨h, hh, hrest⟩
  exact names g (removed.sublist.subset hg) ⟨h, removed.sublist.subset hh, hrest⟩

end

end FolderStore

end Montr.Server
