import Montr.Lib.Transition
import Montr.Server.FolderForest

namespace Montr.Server

open MaterialisedPaths Relation Transition

/-!
# The folder tree

The tree is stored as parent links and as paths, and uniqueness of names is left to an index.

* `SoundTree` — links and paths agree, and siblings have distinct names;
* `Separate` — an operation does not run into the index where it fails: at the root of SQLite, and
  in a move of a folder with subfolders of MongoDB;
* `soundTree_iff_separate` — exactly the runs that keep the tree sound and reject without a change.
-/

namespace FolderStore

/-- **The tree is sound.** -/
structure SoundTree (s : FolderStore) : Prop where
  linked : s.Linked
  acyclic : ∀ f, ¬ TransGen s.IsParent f f
  descendants : ∀ f ∈ s.folders, ∀ d,
    d ∈ s.getMediaFolderDescendants f.id ↔ TransGen s.IsParent f d
  names : ∀ f ∈ s.folders, ¬ s.SameName f.id f.parentId f.name

end FolderStore

inductive FolderOperation
  | createFolder (input : CreateMediaFolderInput)
  | updateFolder (id : Nat) (input : UpdateMediaFolderInput)
  | deleteFolder (id : Nat) (recursive : Bool)
  deriving DecidableEq, Repr

namespace FolderStore

/-- The operation: whether it succeeds, and the store after it. -/
def perform (db : FolderDatabase) (s : FolderStore) : FolderOperation → Bool × FolderStore
  | .createFolder input => ((s.createFolder db.adapter input).1.isOk,
      (s.createFolder db.adapter input).2)
  | .updateFolder id input => ((s.updateFolder db.adapter id input).1.isOk,
      (s.updateFolder db.adapter id input).2)
  | .deleteFolder id recursive => ((s.deleteFolder db id recursive).1.isOk,
      (s.deleteFolder db id recursive).2)

/-- One operation, rejected or not. -/
def step (db : FolderDatabase) (s : FolderStore) (operation : FolderOperation) :
    Option FolderStore :=
  some (s.perform db operation).2

/-- **A rejected operation leaves every folder as it was.** -/
def RejectsUnchanged (db : FolderDatabase) (s : FolderStore) (operation : FolderOperation) : Prop :=
  (s.perform db operation).1 = false → (s.perform db operation).2.folders = s.folders

/-- The parent of a folder after an update. -/
def newParent (folder : FolderRow) (input : UpdateMediaFolderInput) : Option Nat :=
  (input.target folder).getD folder.parentId

/-- No operation of SQLite brings a name to the root that is there already, and no move of MongoDB
    that passes the other checks takes a folder with subfolders to a name that is taken. -/
def Separate (db : FolderDatabase) (s : FolderStore) : FolderOperation → Prop
  | .createFolder input =>
    db.adapter = .sqlite → input.parentId = none → ¬ s.SameName s.nextId none input.name
  | .updateFolder id input => ∀ folder, s.getMediaFolderById id = some folder →
    match db.adapter with
    | .sqlite => newParent folder input = none →
        -- a name that is taken at the old parent is rejected before the move
        input.name.isSome = true ∧ FolderAdapter.sqlite.taken s.folders folder.id folder.parentId
          (input.name.getD folder.name) = true ∨
        ¬ s.SameName folder.id none (input.name.getD folder.name)
    | .mongodb => ∀ parentId parentPath, input.target folder = some parentId →
        s.newParentPath .mongodb folder parentId = .ok parentPath →
        s.SameName folder.id parentId (input.name.getD folder.name) →
        ∀ f ∈ s.folders, f.parentId ≠ some folder.id
  | .deleteFolder _ _ => True

/-! ### Soundness -/

section

variable {s t : FolderStore} {id : Nat}

/-- Linked paths and distinct names are all that a sound tree needs. -/
theorem soundTree_iff (keyed : s.Keyed) :
    s.SoundTree ↔ s.Linked ∧ ∀ f ∈ s.folders, ¬ s.SameName f.id f.parentId f.name := by
  refine ⟨fun sound => ⟨sound.linked, sound.names⟩, fun ⟨linked, names⟩ => ?_⟩
  refine ⟨linked, fun f => (linked.materialised keyed).acyclic, fun f hf d => ?_, names⟩
  rw [mem_getMediaFolderDescendants keyed hf]
  constructor
  · rintro ⟨hd, hbelow⟩
    exact (linked.isBelow_iff keyed hf hd).mp hbelow
  · intro hdescends
    obtain ⟨-, hd⟩ := mem_of_descends hdescends
    exact ⟨hd, (linked.isBelow_iff keyed hf hd).mpr hdescends⟩

/-- The folders alone make a tree sound. -/
theorem SoundTree.of_folders (sound : s.SoundTree) (h : t.folders = s.folders) : t.SoundTree := by
  have hparent : t.IsParent = s.IsParent := by
    funext p f
    rw [IsParent, IsParent, h]
  have hdescendants : ∀ id, t.getMediaFolderDescendants id = s.getMediaFolderDescendants id := by
    intro id
    simp only [getMediaFolderDescendants, FolderStore.getMediaFolderById, h]
  refine ⟨⟨?_, ?_, ?_⟩, ?_, ?_, ?_⟩
  · rw [h]
    exact sound.linked.parent
  · rw [h]
    exact sound.linked.root
  · rw [hparent]
    exact sound.linked.child
  · rw [hparent]
    exact sound.acyclic
  · rw [h, hparent]
    simpa only [hdescendants] using sound.descendants
  · simpa only [SameName, h] using sound.names

/-! ### What the operations do -/

section

variable {adapter : FolderAdapter} {folder : FolderRow} {name newPath : String}
  {parentId : Option Nat} {input : UpdateMediaFolderInput}

theorem Linked.place_parentPath {parentPath : String} (linked : s.Linked) (keyed : s.Keyed)
    (h : s.parentPath parentId = .ok parentPath) :
    s.Place id parentId (fullPath parentPath id) := by
  unfold FolderStore.parentPath at h
  split at h
  next =>
    obtain rfl := Except.ok.inj h
    exact place_root
  next p =>
    split at h
    · exact absurd h (by simp)
    next parent hparent =>
      obtain rfl := Except.ok.inj h
      obtain ⟨hmem, rfl⟩ := id_of_getMediaFolderById hparent
      exact linked.place_under keyed hmem

/-- No other row has the new id. -/
theorem setPath_new (keyed : s.Keyed) (row : FolderRow) (hid : row.id = s.nextId) (path : String) :
    setPath (s.folders ++ [row]) s.nextId path = s.folders ++ [{ row with path := path }] := by
  have hold : s.folders.map (fun f => if f.id = s.nextId then { f with path := path } else f) =
      s.folders := by
    refine (List.map_congr_left fun f hf => ?_).trans (List.map_id' _)
    exact if_neg (keyed.id_lt f hf).ne
  rw [setPath, List.map_append, hold, List.map_singleton, if_pos hid]

/-- A creation is rejected, or adds one row. -/
theorem createFolder_spec (adapter : FolderAdapter) (keyed : s.Keyed)
    (input : CreateMediaFolderInput) :
    ((s.createFolder adapter input).1.isOk = false ∧
      (s.createFolder adapter input).2.folders = s.folders ∧
      s.nextId ≤ (s.createFolder adapter input).2.nextId ∧
      (input.parentId = none →
        adapter.taken s.folders s.nextId input.parentId input.name = true)) ∨
    (s.createFolder adapter input).1.isOk = true ∧
      adapter.taken s.folders s.nextId input.parentId input.name = false ∧
      ∃ row : FolderRow, (s.createFolder adapter input).2 = s.added row ∧ row.id = s.nextId ∧
        row.parentId = input.parentId ∧ row.name = input.name ∧
        (s.Linked → s.Place row.id row.parentId row.path) := by
  unfold createFolder createMediaFolder
  cases hpath : s.parentPath input.parentId with
  | error e =>
    refine .inl ⟨rfl, rfl, Nat.le_refl _, fun hroot => ?_⟩
    rw [hroot] at hpath
    exact absurd hpath (by simp [FolderStore.parentPath])
  | ok parentPath =>
    have hplace : s.Linked → s.Place s.nextId input.parentId (fullPath parentPath s.nextId) :=
      fun linked => linked.place_parentPath keyed hpath
    cases htaken : adapter.taken s.folders s.nextId input.parentId input.name with
    | true =>
      refine .inl ?_
      cases adapter with
      | sqlite =>
        simp only [if_true]
        exact ⟨rfl, trivial, Nat.le_refl _, fun _ => trivial⟩
      | mongodb =>
        simp only [if_true]
        exact ⟨rfl, trivial, Nat.le_succ _, fun _ => trivial⟩
    | false =>
      refine .inr ?_
      cases adapter with
      | sqlite =>
        simp only [Bool.false_eq_true, if_false]
        refine ⟨rfl, trivial, ⟨s.nextId, input.name, input.parentId,
          fullPath parentPath s.nextId, input.createdBy⟩, ?_, rfl, rfl, rfl, hplace⟩
        rw [setPath_new keyed _ rfl]
        rfl
      | mongodb =>
        simp only [Bool.false_eq_true, if_false]
        exact ⟨rfl, trivial, _, rfl, rfl, rfl, rfl, hplace⟩

theorem mem_setFolder_of_ne {folders : List FolderRow} {path : String}
    (hne : g.id ≠ id) (hg : g ∈ setFolder folders id name parentId path) : g ∈ folders := by
  obtain ⟨f, hf, rfl⟩ := List.mem_map.mp hg
  by_cases hid : f.id = id
  · rw [if_pos hid] at hne
    exact absurd hid hne
  · rw [if_neg hid]
    exact hf

/-- The checks of a move, in either adapter. -/
theorem newParentPath_ok {parentPath : String}
    (h : s.newParentPath adapter folder parentId = .ok parentPath) :
    parentId = none ∧ parentPath = "/" ∨
      ∃ g ∈ s.folders, parentId = some g.id ∧ parentPath = g.path ∧ s.Outside folder g := by
  unfold newParentPath at h
  split at h
  next => exact .inl ⟨rfl, (Except.ok.inj h).symm⟩
  next p =>
    split at h
    · exact absurd h (by simp)
    split at h
    · exact absurd h (by simp)
    next g hg =>
      obtain ⟨hmem, rfl⟩ := id_of_getMediaFolderById hg
      split at h
      · exact absurd h (by simp)
      next hne =>
        split at h
        · exact absurd h (by simp)
        next hchecked =>
          exact .inr ⟨g, hmem, rfl, (Except.ok.inj h).symm, hne, fun hbelow =>
            hchecked (.inr hbelow)⟩

/-- A folder's own path is not below it, wherever it goes. -/
theorem Linked.not_isBelow (linked : s.Linked) (keyed : s.Keyed) (hfolder : folder ∈ s.folders)
    (place : s.Place folder.id parentId newPath)
    (outside : ∀ g ∈ s.folders, parentId = some g.id → s.Outside folder g) :
    ¬ isBelow folder.path newPath = true := by
  have hpaths := linked.materialised keyed
  have hdigits := hpaths.sep_notMem folder
  have hnonempty := hpaths.path_ne_nil hfolder
  rw [isBelow_iff_starts]
  cases place with
  | root =>
    intro hstarts
    have hstarts' : folder.path.toList ++ ['/'] <+: [] ++ '/' :: (Nat.repr folder.id).toList := by
      simpa using hstarts
    obtain heq | hshort := eq_or_prefix_of_prefix hdigits hstarts'
    · exact hnonempty heq
    · exact absurd (List.prefix_nil.mp hshort) (by simp)
  | under g hg =>
    have houtside := outside g hg rfl
    intro hstarts
    have hstarts' : folder.path.toList ++ ['/'] <+:
        g.path.toList ++ '/' :: (Nat.repr folder.id).toList := by
      simpa using hstarts
    obtain heq | hshort := eq_or_prefix_of_prefix hdigits hstarts'
    · exact houtside.ne (congrArg _ (hpaths.path_injective hfolder hg heq).symm)
    · exact houtside.notBelow (isBelow_iff_starts.mpr hshort)

theorem reprefixed_self (path : String) (f : FolderRow) : reprefixed path path f = f := by
  unfold reprefixed
  split
  next hbelow =>
    obtain ⟨rest, hrest⟩ := isBelow_iff_starts.mp hbelow
    have hpath : path ++ String.ofList (f.path.toList.drop path.length) = f.path := by
      apply String.toList_injective
      rw [String.toList_append, String.toList_ofList, ← hrest, List.append_assoc,
        ← String.length_toList, List.drop_left]
    rw [hpath]
  next => rfl

/-- A rename is a move to where the folder is. -/
theorem setFolder_eq_moved (name : String) :
    setFolder s.folders folder.id name folder.parentId folder.path =
      s.folders.map (moveRow folder name folder.parentId folder.path) := by
  refine List.map_congr_left fun f _ => ?_
  by_cases hid : f.id = folder.id
  · rw [if_pos hid, moveRow_self hid]
  · rw [if_neg hid, moveRow, if_neg hid, reprefixed_self]

/-- A folder is outside where its parent is. -/
theorem Linked.outside_parent (linked : s.Linked) (keyed : s.Keyed) (hfolder : folder ∈ s.folders) :
    ∀ g ∈ s.folders, folder.parentId = some g.id → s.Outside folder g := by
  intro g hg hparent
  have hlink : s.IsParent g folder := ⟨hg, hfolder, hparent⟩
  have hacyclic := (linked.materialised keyed).acyclic (x := folder)
  refine ⟨fun heq => hacyclic (.single ?_), fun hbelow => hacyclic (.tail ?_ hlink)⟩
  · rwa [keyed.eq_of_id hg hfolder heq] at hlink
  · exact (linked.isBelow_iff keyed hfolder hg).mp hbelow

/-- The place of a folder determines its parent. -/
theorem Place.parent_unique {q : Option Nat} (keyed : s.Keyed) (linked : s.Linked)
    (h : s.Place id parentId newPath) (h' : s.Place id q newPath) : parentId = q := by
  have hroot : ∀ g ∈ s.folders, g.path ++ "/" ++ Nat.repr id ≠ "/" ++ Nat.repr id := by
    intro g hg heq
    have hlen := two_le_length_path linked keyed hg
    have hlists := congrArg (fun path => path.toList.length) heq
    simp only [String.toList_append, List.length_append] at hlists
    omega
  generalize hpath : newPath = path at h'
  cases h with
  | root =>
    cases h' with
    | root => rfl
    | under g hg => exact absurd hpath.symm (hroot g hg)
  | under g hg =>
    cases h' with
    | root => exact absurd hpath (hroot g hg)
    | under g' hg' =>
      have hlists := congrArg String.toList hpath
      simp only [String.toList_append, List.append_assoc] at hlists
      have heq := List.append_cancel_right hlists
      rw [(linked.materialised keyed).path_injective hg hg' heq]

/-- Where a folder is after a successful update: the move. -/
structure Moves (s : FolderStore) (folder : FolderRow) (input : UpdateMediaFolderInput)
    (folders : List FolderRow) (newPath : String) : Prop where
  rows : folders = s.folders.map
    (moveRow folder (input.name.getD folder.name) (newParent folder input) newPath)
  place : s.Place folder.id (newParent folder input) newPath
  outside : ∀ g ∈ s.folders, newParent folder input = some g.id → s.Outside folder g

/-- An update that stays where it is. -/
theorem Linked.moves_of_stay (linked : s.Linked) (keyed : s.Keyed) (hfolder : folder ∈ s.folders)
    (stay : input.target folder = none) :
    s.Moves folder input (setFolder s.folders folder.id (input.name.getD folder.name)
      folder.parentId folder.path) folder.path := by
  have hparent : newParent folder input = folder.parentId := by rw [newParent, stay]; rfl
  refine ⟨?_, ?_, ?_⟩
  · rw [hparent]
    exact setFolder_eq_moved _
  · rw [hparent]
    exact linked.place hfolder
  · rw [hparent]
    exact linked.outside_parent keyed hfolder

/-- The place that passed the checks. -/
theorem Linked.place_checked {parentPath : String} (linked : s.Linked) (keyed : s.Keyed)
    (checked : parentId = none ∧ parentPath = "/" ∨
      ∃ g ∈ s.folders, parentId = some g.id ∧ parentPath = g.path ∧ s.Outside folder g) :
    s.Place folder.id parentId (fullPath parentPath folder.id) ∧
      ∀ g ∈ s.folders, parentId = some g.id → s.Outside folder g := by
  obtain ⟨rfl, rfl⟩ | ⟨g, hg, rfl, rfl, houtside⟩ := checked
  · exact ⟨place_root, fun g _ hg => absurd hg (by simp)⟩
  · refine ⟨linked.place_under keyed hg, fun g' hg' heq => ?_⟩
    rwa [← keyed.eq_of_id hg hg' (Option.some.inj heq)]

/-- Names and parents of the other rows decide what is taken. -/
theorem taken_congr {folders : List FolderRow} {m : FolderRow → FolderRow}
    (ids : ∀ f, (m f).id = f.id) (others : ∀ f, f.id ≠ id →
      (m f).parentId = f.parentId ∧ (m f).name = f.name) :
    adapter.taken (folders.map m) id parentId name = adapter.taken folders id parentId name := by
  rw [FolderAdapter.taken, List.any_map]
  refine List.any_congr rfl fun f => ?_
  rw [Function.comp_apply, ids]
  by_cases hid : f.id = id
  · simp [hid]
  · rw [(others f hid).1, (others f hid).2]

theorem taken_setFolder (folders : List FolderRow) (name' path : String) (q : Option Nat) :
    adapter.taken (setFolder folders id name' q path) id parentId name =
      adapter.taken folders id parentId name := by
  refine taken_congr (fun f => ?_) fun f hid => ?_
  · split <;> rfl
  · rw [if_neg hid]
    exact ⟨rfl, rfl⟩

theorem taken_rewritePaths (keyed : s.Keyed) (oldPath newPath : String) :
    adapter.taken (rewritePaths s.folders oldPath newPath) id parentId name =
      adapter.taken s.folders id parentId name := by
  rw [rewritePaths_eq keyed.ids_nodup]
  refine taken_congr (fun f => id_reprefixed ..) fun f _ => ?_
  unfold reprefixed
  split <;> exact ⟨rfl, rfl⟩

theorem ids_setFolder (folders : List FolderRow) (path : String) :
    (setFolder folders id name parentId path).map (·.id) = folders.map (·.id) := by
  rw [setFolder, List.map_map]
  refine List.map_congr_left fun f _ => ?_
  rw [Function.comp_apply]
  split <;> rfl

/-- The statements of the transaction of SQLite. -/
theorem rewritePaths_setFolder (keyed : s.Keyed) (path : String) (q : Option Nat)
    (notBelow : ¬ isBelow folder.path newPath = true) :
    rewritePaths (setFolder (setFolder s.folders folder.id name q path) folder.id name parentId
      newPath) folder.path newPath = s.folders.map (moveRow folder name parentId newPath) := by
  rw [rewritePaths_eq (by rw [ids_setFolder, ids_setFolder]; exact keyed.ids_nodup), setFolder,
    setFolder, List.map_map, List.map_map]
  refine List.map_congr_left fun f _ => ?_
  rw [Function.comp_apply, Function.comp_apply]
  by_cases hid : f.id = folder.id
  · rw [if_pos hid, if_pos hid, moveRow_self hid, reprefixed, if_neg notBelow]
  · rw [if_neg hid, if_neg hid, moveRow, if_neg hid]

/-- The calls of MongoDB. -/
theorem setFolder_rewritePaths (keyed : s.Keyed) :
    setFolder (rewritePaths s.folders folder.path newPath) folder.id name parentId newPath =
      s.folders.map (moveRow folder name parentId newPath) := by
  rw [rewritePaths_eq keyed.ids_nodup, setFolder, List.map_map]
  refine List.map_congr_left fun f _ => ?_
  rw [Function.comp_apply, id_reprefixed]
  by_cases hid : f.id = folder.id
  · rw [if_pos hid, moveRow_self hid]
    unfold reprefixed
    split <;> rfl
  · rw [if_neg hid, moveRow, if_neg hid]

/-- The renamed table answers for the new parent as the table before. -/
theorem newParentPath_renamed {parentPath : String} (path : String) (q : Option Nat)
    (h : ({ s with folders := setFolder s.folders folder.id name q path } :
      FolderStore).newParentPath .sqlite folder parentId = .ok parentPath) :
    parentId = none ∧ parentPath = "/" ∨
      ∃ g ∈ s.folders, parentId = some g.id ∧ parentPath = g.path ∧ s.Outside folder g := by
  obtain hroot | ⟨g, hg, hparent, hpath, houtside⟩ := newParentPath_ok h
  · exact .inl hroot
  · exact .inr ⟨g, mem_setFolder_of_ne houtside.ne hg, hparent, hpath, houtside.ne,
      houtside.notBelow⟩

/-- A transaction of SQLite is rejected at the root only for its name. -/
theorem updateRows_error {e : AdapterError} (h : s.updateRows folder input = .error e)
    (root : newParent folder input = none) :
    input.name.isSome = true ∧ FolderAdapter.sqlite.taken s.folders folder.id folder.parentId
      (input.name.getD folder.name) = true := by
  unfold updateRows at h
  by_cases hname : (input.name.isSome && FolderAdapter.sqlite.taken s.folders folder.id
      folder.parentId (input.name.getD folder.name)) = true
  · exact Bool.and_eq_true_iff.mp hname
  · simp only [hname] at h
    cases htarget : input.target folder with
    | none => simp [htarget] at h
    | some parentId =>
      have hnone : parentId = none := by
        rw [newParent, htarget] at root
        exact root
      have hfree : FolderAdapter.sqlite.taken (setFolder s.folders folder.id
          (input.name.getD folder.name) folder.parentId folder.path) folder.id none
          (input.name.getD folder.name) = false := by
        rw [taken_setFolder, ← Bool.not_eq_true, taken_sqlite]
        exact fun hboth => hboth.1 rfl
      simp [htarget, hnone, newParentPath, hfree] at h

/-- A transaction of SQLite that commits moves the folder, and its name is free below the root. -/
theorem updateRows_ok {folders : List FolderRow} (linked : s.Linked) (keyed : s.Keyed)
    (hfolder : folder ∈ s.folders) (h : s.updateRows folder input = .ok folders) :
    (∃ newPath, s.Moves folder input folders newPath) ∧
      ¬ (input.name.isSome = true ∧ FolderAdapter.sqlite.taken s.folders folder.id
        folder.parentId (input.name.getD folder.name) = true) ∧
      (newParent folder input ≠ none →
        s.SameName folder.id (newParent folder input) (input.name.getD folder.name) →
        s.SameName folder.id folder.parentId folder.name) := by
  unfold updateRows at h
  by_cases hname : (input.name.isSome && FolderAdapter.sqlite.taken s.folders folder.id
      folder.parentId (input.name.getD folder.name)) = true
  · simp [hname] at h
  · simp only [hname] at h
    have hfree := mt Bool.and_eq_true_iff.mpr hname
    cases htarget : input.target folder with
    | none =>
      have hparent : newParent folder input = folder.parentId := by rw [newParent, htarget]; rfl
      rw [htarget] at h
      obtain rfl := Except.ok.inj h
      refine ⟨⟨_, linked.moves_of_stay keyed hfolder htarget⟩, hfree, fun hne hsame => ?_⟩
      rw [hparent] at hne hsame
      cases hgiven : input.name with
      | none => simpa [hgiven] using hsame
      | some given => exact absurd ⟨by simp [hgiven], taken_sqlite.mpr ⟨hne, hsame⟩⟩ hfree
    | some parentId =>
      have hparent : newParent folder input = parentId := by rw [newParent, htarget]; rfl
      rw [htarget] at h
      simp only [Bool.false_eq_true, if_false] at h
      split at h
      · exact absurd h (by simp)
      next parentPath hchecked =>
        obtain ⟨hplace, houtside⟩ :=
          linked.place_checked keyed (newParentPath_renamed folder.path folder.parentId hchecked)
        have hnot := linked.not_isBelow keyed hfolder hplace houtside
        split at h
        · exact absurd h (by simp)
        next htaken =>
          rw [taken_setFolder] at htaken
          rw [rewritePaths_setFolder keyed _ _ hnot] at h
          refine ⟨⟨fullPath parentPath folder.id, ?_⟩, hfree, fun hne hsame => ?_⟩
          · constructor
            · rw [hparent]
              exact (Except.ok.inj h).symm
            · rw [hparent]
              exact hplace
            · rw [hparent]
              exact houtside
          · rw [hparent] at hne hsame
            exact absurd (taken_sqlite.mpr ⟨hne, hsame⟩) htaken

/-- A move keeps the tree sound exactly when it takes no name that is there. -/
theorem Moves.soundTree_iff {folders : List FolderRow}
    (moves : s.Moves folder input folders newPath) (keyed : s.Keyed) (sound : s.SoundTree)
    (hfolder : folder ∈ s.folders) :
    ({ s with folders := folders } : FolderStore).SoundTree ↔
      ¬ s.SameName folder.id (newParent folder input) (input.name.getD folder.name) := by
  have hrows : ({ s with folders := folders } : FolderStore) =
      s.moved folder (input.name.getD folder.name) (newParent folder input) newPath := by
    rw [moves.rows]
    rfl
  rw [hrows, FolderStore.soundTree_iff keyed.moved, names_moved hfolder sound.names]
  exact and_iff_right (sound.linked.moved keyed hfolder moves.place moves.outside)

/-- What a move of MongoDB leaves when its last call fails: nothing is changed exactly when the
    folder has no subfolders. -/
theorem rewritePaths_eq_self_iff (keyed : s.Keyed) (linked : s.Linked)
    (hfolder : folder ∈ s.folders) (place : s.Place folder.id parentId newPath)
    (moves : parentId ≠ folder.parentId) :
    rewritePaths s.folders folder.path newPath = s.folders ↔
      ∀ f ∈ s.folders, f.parentId ≠ some folder.id := by
  rw [rewritePaths_eq keyed.ids_nodup]
  constructor
  · intro hsame f hf hparent
    have hlink : s.IsParent folder f := ⟨hfolder, hf, hparent⟩
    have hpath := linked.child folder f hlink
    have hbelow := (linked.isBelow_iff keyed hfolder hf).mpr (.single hlink)
    -- the path of the subfolder is a new one
    have hrow : reprefixed folder.path newPath f = f :=
      List.map_inj_left.mp (hsame.trans (List.map_id' _).symm) f hf
    have hne : f.id ≠ folder.id := by
      intro heq
      rw [keyed.eq_of_id hf hfolder heq] at hlink
      exact (linked.materialised keyed).acyclic (.single hlink)
    have hmoved : (moveRow folder folder.name parentId newPath f).path =
        newPath ++ "/" ++ Nat.repr f.id := path_moveRow_of_append hne hpath
    rw [moveRow, if_neg hne, hrow, hpath, String.append_assoc, String.append_assoc] at hmoved
    have hlists := congrArg String.toList hmoved
    simp only [String.toList_append] at hlists
    have hstarts := String.toList_injective (List.append_cancel_right hlists)
    exact moves (place.parent_unique keyed linked (hstarts ▸ linked.place hfolder))
  · intro hleaf
    refine (List.map_congr_left fun f hf => ?_).trans (List.map_id' _)
    refine if_neg fun hbelow => ?_
    obtain ⟨child, hchild, -⟩ := TransGen.head'_iff.mp
      ((linked.isBelow_iff keyed hfolder hf).mp hbelow)
    exact hleaf child hchild.2.1 hchild.2.2

/-! ### One operation -/

theorem target_ne (h : input.target folder = some parentId) : parentId ≠ folder.parentId := by
  unfold UpdateMediaFolderInput.target at h
  split at h
  · exact absurd h (by simp)
  · obtain ⟨hne, heq⟩ := Option.ite_none_left_eq_some.mp h
    obtain rfl := Option.some.inj heq
    exact Ne.symm hne
  · obtain ⟨hne, heq⟩ := Option.ite_none_left_eq_some.mp h
    obtain rfl := Option.some.inj heq
    exact Ne.symm hne

/-- An update of SQLite. -/
theorem updateSql_iff (keyed : s.Keyed) (sound : s.SoundTree) (hfolder : folder ∈ s.folders) :
    (s.updateSql folder input).2.SoundTree ∧
        ((s.updateSql folder input).1.isOk = false →
          (s.updateSql folder input).2.folders = s.folders) ↔
      (newParent folder input = none → input.name.isSome = true ∧
          FolderAdapter.sqlite.taken s.folders folder.id folder.parentId
            (input.name.getD folder.name) = true ∨
        ¬ s.SameName folder.id none (input.name.getD folder.name)) := by
  unfold updateSql
  cases hrows : s.updateRows folder input with
  | error e =>
    exact iff_of_true ⟨sound, fun _ => rfl⟩ fun root => .inl (updateRows_error hrows root)
  | ok folders =>
    obtain ⟨⟨newPath, hmoves⟩, hnot, hfree⟩ := updateRows_ok sound.linked keyed hfolder hrows
    refine (and_iff_left fun hrejected => absurd hrejected (by simp [Except.isOk, Except.toBool])).trans
      ((hmoves.soundTree_iff keyed sound hfolder).trans ?_)
    by_cases hroot : newParent folder input = none
    · rw [hroot]
      exact ⟨fun hname _ => .inr hname, fun h => (h rfl).resolve_left hnot⟩
    · exact iff_of_true (fun hsame => sound.names folder hfolder (hfree hroot hsame))
        fun h => absurd h hroot

/-- An update of MongoDB. -/
theorem updateMongo_iff (keyed : s.Keyed) (sound : s.SoundTree) (hfolder : folder ∈ s.folders) :
    (s.updateMongo folder input).2.SoundTree ∧
        ((s.updateMongo folder input).1.isOk = false →
          (s.updateMongo folder input).2.folders = s.folders) ↔
      ∀ parentId parentPath, input.target folder = some parentId →
        s.newParentPath .mongodb folder parentId = .ok parentPath →
        s.SameName folder.id parentId (input.name.getD folder.name) →
        ∀ f ∈ s.folders, f.parentId ≠ some folder.id := by
  unfold updateMongo
  cases htarget : input.target folder with
  | none =>
    have hparent : newParent folder input = folder.parentId := by rw [newParent, htarget]; rfl
    refine iff_of_true ?_ fun _ _ h => absurd h (by simp)
    simp only
    split
    · exact ⟨sound, fun _ => rfl⟩
    next hfree =>
      have hmoves := sound.linked.moves_of_stay keyed hfolder htarget
      refine ⟨(hmoves.soundTree_iff keyed sound hfolder).mpr fun hsame => ?_,
        fun hrejected => absurd hrejected (by simp [Except.isOk, Except.toBool])⟩
      rw [hparent] at hsame
      exact hfree (taken_mongodb.mpr hsame)
  | some parentId =>
    have hparent : newParent folder input = parentId := by rw [newParent, htarget]; rfl
    simp only
    cases hchecked : s.newParentPath .mongodb folder parentId with
    | error e =>
      refine iff_of_true ⟨sound, fun _ => rfl⟩ fun q path hq hpath => ?_
      obtain rfl := Option.some.inj hq
      exact absurd (hchecked.symm.trans hpath) (by simp)
    | ok parentPath =>
      obtain ⟨hplace, houtside⟩ := sound.linked.place_checked keyed (newParentPath_ok hchecked)
      simp only [taken_rewritePaths keyed]
      split
      next htaken =>
        have hsame := taken_mongodb.mp htaken
        have hleaf := rewritePaths_eq_self_iff keyed sound.linked hfolder hplace (target_ne htarget)
        constructor
        · rintro ⟨-, hunchanged⟩ q path hq - -
          exact hleaf.mp (hunchanged rfl)
        · intro hseparate
          have hself := hleaf.mpr (hseparate parentId parentPath rfl hchecked hsame)
          refine ⟨?_, fun _ => hself⟩
          rw [hself]
          exact sound
      next hfree =>
        have hmoves : s.Moves folder input (setFolder (rewritePaths s.folders folder.path
            (fullPath parentPath folder.id)) folder.id (input.name.getD folder.name) parentId
            (fullPath parentPath folder.id)) (fullPath parentPath folder.id) := by
          constructor
          · rw [hparent]
            exact setFolder_rewritePaths keyed
          · rw [hparent]
            exact hplace
          · rw [hparent]
            exact houtside
        have hname : ¬ s.SameName folder.id parentId (input.name.getD folder.name) := fun hsame =>
          hfree (taken_mongodb.mpr hsame)
        refine iff_of_true ⟨(hmoves.soundTree_iff keyed sound hfolder).mpr (hparent ▸ hname),
          fun hrejected => absurd hrejected (by simp [Except.isOk, Except.toBool])⟩ ?_
        intro q path hq _ hsame
        obtain rfl := Option.some.inj hq
        exact absurd hsame hname

/-- The service adds a check and names the errors. -/
theorem updateFolder_eq (hfound : s.getMediaFolderById id = some folder) :
    (s.updateFolder adapter id input).1.isOk = (s.updateMediaFolder adapter id input).1.isOk ∧
      (s.updateFolder adapter id input).2 = (s.updateMediaFolder adapter id input).2 := by
  unfold updateFolder
  rw [hfound]
  obtain ⟨r, t⟩ := s.updateMediaFolder adapter id input
  cases r with
  | ok => exact ⟨rfl, rfl⟩
  | error e => cases e <;> exact ⟨rfl, rfl⟩

theorem updateMediaFolder_eq (hfound : s.getMediaFolderById id = some folder) :
    s.updateMediaFolder adapter id input =
      match adapter with
      | .sqlite => s.updateSql folder input
      | .mongodb => s.updateMongo folder input := by
  cases adapter with
  | sqlite => simp only [updateMediaFolder, hfound]
  | mongodb => simp only [updateMediaFolder, hfound]

/-- A deletion is rejected, or deletes after the media were moved. -/
theorem deleteFolder_cases (db : FolderDatabase) (s : FolderStore) (id : Nat) (recursive : Bool) :
    ((s.deleteFolder db id recursive).1.isOk = false ∧ (s.deleteFolder db id recursive).2 = s) ∨
      (s.deleteFolder db id recursive).1.isOk = true ∧ ∃ folder media,
        s.getMediaFolderById id = some folder ∧ (s.deleteFolder db id recursive).2 =
          ({ s with media := media } : FolderStore).deleteMediaFolder db.adapter id := by
  unfold deleteFolder
  cases hfound : s.getMediaFolderById id with
  | none => exact .inl ⟨rfl, rfl⟩
  | some folder =>
    simp only
    split
    · exact .inl ⟨rfl, rfl⟩
    · split
      · split
        · exact .inl ⟨rfl, rfl⟩
        next t hmoved =>
          refine .inr ⟨rfl, folder, t.media, rfl, ?_⟩
          have hrest : t = { s with media := t.media } := by
            unfold moveMediaToFolder at hmoved
            split at hmoved
            · obtain rfl := Except.ok.inj hmoved
              rfl
            split at hmoved
            · exact absurd hmoved (by simp)
            split at hmoved
            · exact absurd hmoved (by simp)
            · obtain rfl := Except.ok.inj hmoved
              rfl
          rw [← hrest]
      · exact .inr ⟨rfl, folder, s.media, rfl, rfl⟩

theorem Linked.withMedia (linked : s.Linked) (media : List MediaRow) :
    ({ s with media := media } : FolderStore).Linked :=
  ⟨linked.parent, linked.root, linked.child⟩

theorem Keyed.withMedia (keyed : s.Keyed) (media : List MediaRow) :
    ({ s with media := media } : FolderStore).Keyed :=
  ⟨keyed.ids_nodup, keyed.id_lt⟩

theorem Keyed.of_ids (keyed : s.Keyed) (nextId : t.nextId = s.nextId)
    (ids : t.folders.map (·.id) = s.folders.map (·.id)) : t.Keyed where
  ids_nodup := ids ▸ keyed.ids_nodup
  id_lt f hf := by
    obtain ⟨g, hg, hid⟩ := List.mem_map.mp (ids ▸ List.mem_map_of_mem hf)
    rw [nextId, ← hid]
    exact keyed.id_lt g hg

theorem ids_rewritePaths {folders : List FolderRow} (nodup : (folders.map (·.id)).Nodup)
    (oldPath newPath : String) :
    (rewritePaths folders oldPath newPath).map (·.id) = folders.map (·.id) := by
  rw [rewritePaths_eq nodup, List.map_map]
  exact List.map_congr_left fun f _ => id_reprefixed ..

theorem ids_updateRows (keyed : s.Keyed) {folders : List FolderRow}
    (h : s.updateRows folder input = .ok folders) :
    folders.map (·.id) = s.folders.map (·.id) := by
  unfold updateRows at h
  simp only at h
  split at h
  · exact absurd h (by simp)
  split at h
  · obtain rfl := Except.ok.inj h
    exact ids_setFolder ..
  · split at h
    · exact absurd h (by simp)
    split at h
    · exact absurd h (by simp)
    · obtain rfl := Except.ok.inj h
      rw [ids_rewritePaths (by rw [ids_setFolder, ids_setFolder]; exact keyed.ids_nodup),
        ids_setFolder, ids_setFolder]

theorem Keyed.updateSql (keyed : s.Keyed) : (s.updateSql folder input).2.Keyed := by
  unfold FolderStore.updateSql
  cases hrows : s.updateRows folder input with
  | error e => exact keyed
  | ok folders => exact keyed.of_ids rfl (ids_updateRows keyed hrows)

theorem Keyed.updateMongo (keyed : s.Keyed) : (s.updateMongo folder input).2.Keyed := by
  unfold FolderStore.updateMongo
  simp only
  split
  · split
    · exact keyed
    · exact keyed.of_ids rfl (ids_setFolder ..)
  · split
    · exact keyed
    next parentId parentPath _ =>
      have hids := ids_rewritePaths keyed.ids_nodup folder.path (fullPath parentPath folder.id)
      split
      · exact keyed.of_ids rfl hids
      · exact keyed.of_ids rfl ((ids_setFolder ..).trans hids)

/-- Ids stay unique whatever is done. -/
theorem keyed_step {db : FolderDatabase} {operation : FolderOperation} (keyed : s.Keyed)
    (h : step db s operation = some t) : t.Keyed := by
  obtain rfl := Option.some.inj h
  cases operation with
  | createFolder input =>
    obtain ⟨-, hfolders, hnext, -⟩ | ⟨-, -, row, hrow, hid, -⟩ :=
      createFolder_spec db.adapter keyed input
    · refine ⟨?_, fun f hf => ?_⟩
      · exact hfolders ▸ keyed.ids_nodup
      · exact Nat.lt_of_lt_of_le (keyed.id_lt f (hfolders ▸ hf)) hnext
    · exact hrow ▸ keyed.added hid
  | updateFolder id input =>
    cases hfound : s.getMediaFolderById id with
    | none =>
      show (s.updateFolder db.adapter id input).2.Keyed
      unfold updateFolder
      rw [hfound]
      exact keyed
    | some folder =>
      show (s.updateFolder db.adapter id input).2.Keyed
      rw [(updateFolder_eq hfound).2, updateMediaFolder_eq hfound]
      split
      · exact keyed.updateSql
      · exact keyed.updateMongo
  | deleteFolder id recursive =>
    show (s.deleteFolder db id recursive).2.Keyed
    obtain ⟨-, hsame⟩ | ⟨-, folder, media, -, hdeleted⟩ := deleteFolder_cases db s id recursive
    · exact hsame.symm ▸ keyed
    · exact hdeleted.symm ▸ (keyed.withMedia media).deleteMediaFolder db.adapter

theorem sound_createFolder {db : FolderDatabase} {input : CreateMediaFolderInput} (keyed : s.Keyed)
    (sound : s.SoundTree) :
    (s.createFolder db.adapter input).2.SoundTree ∧
        ((s.createFolder db.adapter input).1.isOk = false →
          (s.createFolder db.adapter input).2.folders = s.folders) ↔
      s.Separate db (.createFolder input) := by
  obtain ⟨hrejected, hfolders, -, htaken⟩ | ⟨hok, hfree, row, hrow, hid, hparent, hname, hplace⟩ :=
    createFolder_spec db.adapter keyed input
  · refine iff_of_true ⟨sound.of_folders hfolders, fun _ => hfolders⟩ fun hadapter hroot => ?_
    have hindex := htaken hroot
    rw [hadapter, taken_sqlite] at hindex
    exact absurd hroot hindex.1
  · rw [hok, hrow, FolderStore.soundTree_iff (keyed.added hid), names_added keyed hid sound.names]
    refine (and_iff_left fun h => absurd h (by simp)).trans
      ((and_iff_right (sound.linked.added keyed hid (hplace sound.linked))).trans ?_)
    rw [hid, hparent, hname]
    show _ ↔ (db.adapter = .sqlite → input.parentId = none → ¬ s.SameName s.nextId none input.name)
    cases hadapter : db.adapter with
    | sqlite =>
      rw [hadapter] at hfree
      by_cases hroot : input.parentId = none
      · rw [hroot]
        exact ⟨fun h _ _ => h, fun h => h rfl rfl⟩
      · have hnot : ¬ s.SameName s.nextId input.parentId input.name := fun hsame =>
          absurd (taken_sqlite.mpr ⟨hroot, hsame⟩) (by simp [hfree])
        exact iff_of_true hnot fun _ h => absurd h hroot
    | mongodb =>
      rw [hadapter] at hfree
      have hnot : ¬ s.SameName s.nextId input.parentId input.name := fun hsame =>
        absurd (taken_mongodb.mpr hsame) (by simp [hfree])
      exact iff_of_true hnot fun h => absurd h (by simp)

theorem sound_deleteFolder {db : FolderDatabase} {recursive : Bool} (keyed : s.Keyed)
    (sound : s.SoundTree) :
    (s.deleteFolder db id recursive).2.SoundTree ∧
      ((s.deleteFolder db id recursive).1.isOk = false →
        (s.deleteFolder db id recursive).2.folders = s.folders) := by
  obtain ⟨-, hsame⟩ | ⟨hok, folder, media, hfound, hdeleted⟩ := deleteFolder_cases db s id recursive
  · rw [hsame]
    exact ⟨sound, fun _ => rfl⟩
  · obtain ⟨hmem, rfl⟩ := id_of_getMediaFolderById hfound
    have hkeyed := keyed.withMedia media
    have hlinked := sound.linked.withMedia media
    obtain ⟨hremoved, -⟩ := deleteMediaFolder_spec db.adapter hkeyed hlinked hmem
    rw [hok, hdeleted]
    refine ⟨?_, fun h => absurd h (by simp)⟩
    rw [FolderStore.soundTree_iff (hkeyed.deleteMediaFolder db.adapter)]
    exact ⟨hremoved.linked hlinked, hremoved.names sound.names⟩

/-- **One operation**: the tree stays sound, and a rejection changes nothing, exactly when the
    operation is separate. -/
theorem sound_step_iff {db : FolderDatabase} {operation : FolderOperation} (keyed : s.Keyed)
    (sound : s.SoundTree) (h : step db s operation = some t) :
    t.SoundTree ∧ s.RejectsUnchanged db operation ↔ s.Separate db operation := by
  obtain rfl := Option.some.inj h
  cases operation with
  | createFolder input => exact sound_createFolder keyed sound
  | updateFolder id input =>
    show (s.updateFolder db.adapter id input).2.SoundTree ∧
      ((s.updateFolder db.adapter id input).1.isOk = false →
        (s.updateFolder db.adapter id input).2.folders = s.folders) ↔ _
    cases hfound : s.getMediaFolderById id with
    | none =>
      refine iff_of_true ?_ fun folder hfolder => ?_
      · unfold updateFolder
        rw [hfound]
        exact ⟨sound, fun _ => rfl⟩
      · exact absurd (hfound.symm.trans hfolder) (by simp)
    | some folder =>
      obtain ⟨hmem, -⟩ := id_of_getMediaFolderById hfound
      rw [(updateFolder_eq hfound).1, (updateFolder_eq hfound).2, updateMediaFolder_eq hfound]
      have hseparate : s.Separate db (.updateFolder id input) ↔ match db.adapter with
          | .sqlite => newParent folder input = none →
              input.name.isSome = true ∧ FolderAdapter.sqlite.taken s.folders folder.id
                folder.parentId (input.name.getD folder.name) = true ∨
              ¬ s.SameName folder.id none (input.name.getD folder.name)
          | .mongodb => ∀ parentId parentPath, input.target folder = some parentId →
              s.newParentPath .mongodb folder parentId = .ok parentPath →
              s.SameName folder.id parentId (input.name.getD folder.name) →
              ∀ f ∈ s.folders, f.parentId ≠ some folder.id := by
        refine ⟨fun hall => hall folder hfound, fun hthis other hother => ?_⟩
        obtain rfl := Option.some.inj (hfound.symm.trans hother)
        exact hthis
      rw [hseparate]
      cases db.adapter with
      | sqlite => exact updateSql_iff keyed sound hmem
      | mongodb => exact updateMongo_iff keyed sound hmem
  | deleteFolder id recursive => exact iff_of_true (sound_deleteFolder keyed sound) trivial

/-- **Exactly the separate runs keep the tree sound** and reject without a change, in either
    database. -/
theorem soundTree_iff_separate (db : FolderDatabase) {operations : List FolderOperation}
    (keyed : s.Keyed) (sound : s.SoundTree) :
    Throughout (step db) SoundTree s operations ∧
        Each (step db) (fun s operation => s.RejectsUnchanged db operation) s operations ↔
      Each (step db) (fun s operation => s.Separate db operation) s operations := by
  have hrun : ∀ s, ∃ t, exec (step db) s operations = some t := by
    induction operations with
    | nil => exact fun s => ⟨s, rfl⟩
    | cons operation rest ih => exact fun s => ih (s.perform db operation).2
  obtain ⟨t, ht⟩ := hrun s
  exact throughout_and_each_iff (fun _ _ _ => keyed_step) (fun _ _ _ => sound_step_iff) keyed sound
    ht

end

end

/-! ### Two folders of one name -/

def noFolders : FolderStore := ⟨[], 1, []⟩

def sqliteFolders : FolderDatabase := ⟨.sqlite, 32766, .stable⟩

def mongoFolders : FolderDatabase := ⟨.mongodb, 0, .stable⟩

theorem keyed_noFolders : noFolders.Keyed :=
  ⟨List.nodup_nil, fun _ hf => absurd hf List.not_mem_nil⟩

theorem sound_noFolders : noFolders.SoundTree := by
  rw [soundTree_iff keyed_noFolders]
  exact ⟨⟨fun _ hf => absurd hf List.not_mem_nil, fun _ hf => absurd hf List.not_mem_nil,
    fun _ _ h => absurd h.1 List.not_mem_nil⟩, fun _ hf => absurd hf List.not_mem_nil⟩

/-- One folder, and its deletion. -/
theorem soundTree_iff_separate_one :
    Throughout (step sqliteFolders) SoundTree noFolders
      [.createFolder ⟨"Ads", none, none⟩, .deleteFolder 1 false] := by
  refine ((soundTree_iff_separate sqliteFolders keyed_noFolders sound_noFolders).mpr ?_).1
  refine ⟨?_, fun t _ => ⟨trivial, fun _ _ => trivial⟩⟩
  rintro - - ⟨g, hg, -⟩
  exact absurd hg List.not_mem_nil

/-- Folder 1 with a subfolder, and a folder with another `Lobby`. -/
def lobbyOperations : List FolderOperation :=
  [.createFolder ⟨"Lobby", none, none⟩, .createFolder ⟨"Winter", some 1, none⟩,
    .createFolder ⟨"Hall", none, none⟩, .createFolder ⟨"Lobby", some 3, none⟩]

/-- **Counterexample.** SQLite takes two folders of one name at the root; MongoDB rejects a move to
    a taken name when the subfolder has its new path already. -/
theorem not_soundTree_sameName :
    noFolders.Keyed ∧ noFolders.SoundTree ∧
    (∃ t, exec (step sqliteFolders) noFolders
        [.createFolder ⟨"Ads", none, none⟩, .createFolder ⟨"Ads", none, none⟩] = some t ∧
      ¬ t.SoundTree) ∧
    ∃ s t, exec (step mongoFolders) noFolders lobbyOperations = some s ∧
      exec (step mongoFolders) noFolders
        (lobbyOperations ++ [.updateFolder 1 { parentId := .value 3 }]) = some t ∧
      ¬ s.RejectsUnchanged mongoFolders (.updateFolder 1 { parentId := .value 3 }) ∧
      ¬ t.SoundTree := by
  refine ⟨keyed_noFolders, sound_noFolders, ?_, ?_⟩
  · have hrun : exec (step sqliteFolders) noFolders
        [.createFolder ⟨"Ads", none, none⟩, .createFolder ⟨"Ads", none, none⟩] =
        some ⟨[⟨1, "Ads", none, "/1", none⟩, ⟨2, "Ads", none, "/2", none⟩], 3, []⟩ := by
      decide
    refine ⟨_, hrun, fun sound => ?_⟩
    exact sound.names ⟨1, "Ads", none, "/1", none⟩ (by simp)
      ⟨⟨2, "Ads", none, "/2", none⟩, by simp, by simp, rfl, rfl⟩
  · have hbefore : exec (step mongoFolders) noFolders lobbyOperations =
        some ⟨[⟨1, "Lobby", none, "/1", none⟩, ⟨2, "Winter", some 1, "/1/2", none⟩,
          ⟨3, "Hall", none, "/3", none⟩, ⟨4, "Lobby", some 3, "/3/4", none⟩], 5, []⟩ := by
      decide
    have hafter : exec (step mongoFolders) noFolders
        (lobbyOperations ++ [.updateFolder 1 { parentId := .value 3 }]) =
        some ⟨[⟨1, "Lobby", none, "/1", none⟩, ⟨2, "Winter", some 1, "/3/1/2", none⟩,
          ⟨3, "Hall", none, "/3", none⟩, ⟨4, "Lobby", some 3, "/3/4", none⟩], 5, []⟩ := by
      decide
    refine ⟨_, _, hbefore, hafter, by unfold RejectsUnchanged; decide, fun sound => ?_⟩
    have hchild := sound.linked.child ⟨1, "Lobby", none, "/1", none⟩
      ⟨2, "Winter", some 1, "/3/1/2", none⟩ ⟨by simp, by simp, rfl⟩
    exact absurd hchild (by decide)

end FolderStore

end Montr.Server
