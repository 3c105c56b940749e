import Montr.Server.LocalStorage

namespace Montr.Server

open Function Paths Transition

/-!
# Media and thumbnails by their names

What the storage directory is for: a file and a thumbnail by the name under which the file was
stored.

* `Shelf` — the files and thumbnails by their names;
* `MediaStore.step` — uploads, thumbnails and deletions of media, and whatever else goes on in
  storage, on the disk and on the shelf;
* `Shelved` — the disk has what is on the shelf;
* `shelved_of_run` — after every run in which no mark is given twice;
* `answers_shelved` — what the service answers then.
-/

/-- A name that was given to a file. -/
structure StoredName where
  originalFilename : Path
  timestamp : Nat
  random : RandomBytes 4
  not_dots : lastName originalFilename ≠ ['.', '.']
  deriving DecidableEq

namespace StoredName

variable (n m : StoredName)

def filename : Name := generateUniqueFilename n.originalFilename n.timestamp n.random

/-- `filepath` of its row. -/
def filepath : Path := join ["media".toList, n.filename]

def thumbnailPath : Path := join ["thumbnails".toList, thumbnailName n.filename]

/-- What makes it unique. -/
def mark : Nat × RandomBytes 4 := (n.timestamp, n.random)

variable {n m}

theorem mark_of_filename (h : n.filename = m.filename) : n.mark = m.mark := by
  obtain ⟨htimestamp, hrandom⟩ := generateUniqueFilename_inj h
  exact Prod.ext htimestamp hrandom

theorem mark_of_thumbnailName (h : thumbnailName n.filename = thumbnailName m.filename) :
    n.mark = m.mark := by
  obtain ⟨htimestamp, hrandom⟩ := thumbnailName_inj n.not_dots m.not_dots h
  exact Prod.ext htimestamp hrandom

end StoredName

/-- Files and thumbnails by name. -/
structure Shelf where
  file : StoredName → Option (List UInt8)
  thumbnail : StoredName → Option (List UInt8)

/-- The disk and, for statements only, the shelf and the names that were given. -/
structure MediaStore where
  disk : Disk
  shelf : Shelf
  stored : List StoredName

inductive MediaCall
  /-- a file is saved, as an upload or from memory -/
  | save (n : StoredName) (buffer : List UInt8) (temp : Option (RandomBytes 16))
  | saveThumbnail (n : StoredName) (buffer : List UInt8)
  | deleteMedia (n : StoredName)
  | other (call : LocalStorageService.StorageCall)

namespace MediaStore

open LocalStorageService

section

variable (s : LocalStorageService)

/-- What `mediaService.deleteMedia` does in storage. -/
def deleteFiles (disk : Disk) (filepath : Path) (filename : Name) : Except StorageError Disk := do
  let disk ← s.deleteFile disk filepath
  match ← s.getThumbnailPath disk filename with
  | some thumbnailPath => s.deleteFile disk thumbnailPath
  | none => return disk

/-- The call that a save is. -/
def saveCall (n : StoredName) (buffer : List UInt8) : Option (RandomBytes 16) → StorageCall
  | none => .saveFile buffer n.originalFilename n.timestamp n.random
  | some temp => .saveUploadedFile buffer temp n.originalFilename n.timestamp n.random

def step (m : MediaStore) : MediaCall → Option MediaStore
  | .save n buffer temp =>
    (s.step m.disk (saveCall n buffer temp)).map fun disk =>
      { disk := disk
        shelf := { m.shelf with file := update m.shelf.file n (some buffer) }
        stored := n :: m.stored }
  | .saveThumbnail n buffer =>
    (s.step m.disk (.saveThumbnail buffer n.filename)).map fun disk =>
      { m with
        disk := disk
        shelf := { m.shelf with thumbnail := update m.shelf.thumbnail n (some buffer) } }
  | .deleteMedia n =>
    match deleteFiles s m.disk n.filepath n.filename with
    | .ok disk =>
      some { m with
        disk := disk
        shelf := ⟨update m.shelf.file n none, update m.shelf.thumbnail n none⟩ }
    | .error _ => none
  | .other call => (s.step m.disk call).map fun disk => { m with disk := disk }

/-- The file of a name, on the disk. -/
def mediaPath (n : StoredName) : Path := s.entry "media".toList n.filename

def thumbPath (n : StoredName) : Path := s.entry "thumbnails".toList (thumbnailName n.filename)

/-- A call for a name that was given, or a name with a new mark; and other calls write to other
    directories. -/
def Orderly (m : MediaStore) : MediaCall → Prop
  | .save n _ _ => ∀ x ∈ m.stored, x.mark ≠ n.mark
  | .saveThumbnail n _ | .deleteMedia n => n ∈ m.stored
  | .other call => ∀ w ∈ s.writes call, ∀ n, w.1 ≠ mediaPath s n ∧ w.1 ≠ thumbPath s n

/-- The disk has what is on the shelf. -/
structure Shelved (m : MediaStore) : Prop where
  file : ∀ n ∈ m.stored, m.disk (mediaPath s n) = m.shelf.file n
  thumbnail : ∀ n ∈ m.stored, m.disk (thumbPath s n) = m.shelf.thumbnail n
  /-- a mark that was not given is on no file -/
  unused : ∀ n, (∀ x ∈ m.stored, x.mark ≠ n.mark) →
    m.disk (thumbPath s n) = none ∧ m.shelf.thumbnail n = none
  marks : ∀ n ∈ m.stored, ∀ x ∈ m.stored, n.mark = x.mark → n = x

end

section

variable {s : LocalStorageService} {m m' : MediaStore} {n x : StoredName} {disk : Disk}
  {call : MediaCall}

theorem proper_filename : Proper n.filename := proper_generateUniqueFilename

theorem mediaPath_ne_thumbPath : mediaPath s n ≠ thumbPath s x := by
  intro h
  have hdir := (entry_inj proper_media proper_filename proper_thumbnails proper_thumbnailName h).1
  exact absurd hdir (by decide)

theorem mark_of_mediaPath (h : mediaPath s n = mediaPath s x) : n.mark = x.mark :=
  StoredName.mark_of_filename
    (entry_inj proper_media proper_filename proper_media proper_filename h).2

theorem mark_of_thumbPath (h : thumbPath s n = thumbPath s x) : n.mark = x.mark :=
  StoredName.mark_of_thumbnailName (entry_inj proper_thumbnails proper_thumbnailName
    proper_thumbnails proper_thumbnailName h).2

/-- A save writes its file, and nothing else in these directories. -/
theorem save_disk {buffer : List UInt8} {temp : Option (RandomBytes 16)} {disk' : Disk}
    (h : s.step disk (saveCall n buffer temp) = some disk') :
    disk' (mediaPath s n) = some buffer ∧
      (∀ x, mediaPath s x ≠ mediaPath s n → disk' (mediaPath s x) = disk (mediaPath s x)) ∧
      ∀ x, disk' (thumbPath s x) = disk (thumbPath s x) := by
  rw [step_eq] at h
  obtain rfl := Option.some.inj h
  have htemp : ∀ (dir name : Name) (random : RandomBytes 16), Proper dir → Proper name →
      dir ≠ "temp".toList → s.entry "temp".toList (hex random) ≠ s.entry dir name := by
    intro dir name random hdir hname hne heq
    exact hne (entry_inj proper_temp (proper_randomHex random) hdir hname heq).1.symm
  have hthumb : ∀ x, mediaPath s n ≠ thumbPath s x := fun _ => mediaPath_ne_thumbPath
  cases temp with
  | none =>
    have hwrites : (s.writes (saveCall n buffer none)).foldl put disk =
        update disk (mediaPath s n) (some buffer) := rfl
    rw [hwrites]
    refine ⟨update_self .., fun x hne => update_of_ne hne _ _, fun x => ?_⟩
    exact update_of_ne (hthumb x).symm _ _
  | some random =>
    have hmedia : ∀ x, s.entry "temp".toList (hex random) ≠ mediaPath s x := fun x =>
      htemp _ _ random proper_media (@proper_filename x) (by decide)
    have hthumbs : ∀ x, s.entry "temp".toList (hex random) ≠ thumbPath s x := fun x =>
      htemp _ (thumbnailName x.filename) random proper_thumbnails proper_thumbnailName (by decide)
    -- the buffer is in a temporary file before and after it is in its own
    have hwrites : (s.writes (saveCall n buffer (some random))).foldl put disk =
        update (update (update disk (s.entry "temp".toList (hex random)) (some buffer))
          (mediaPath s n) (some buffer)) (s.entry "temp".toList (hex random)) none := rfl
    rw [hwrites]
    refine ⟨?_, fun x hne => ?_, fun x => ?_⟩
    · exact (update_of_ne (hmedia n).symm _ _).trans (update_self ..)
    · exact (update_of_ne (hmedia x).symm _ _).trans
        ((update_of_ne hne _ _).trans (update_of_ne (hmedia x).symm _ _))
    · exact (update_of_ne (hthumbs x).symm _ _).trans
        ((update_of_ne (hthumb x).symm _ _).trans (update_of_ne (hthumbs x).symm _ _))

/-- A deletion removes the file and the thumbnail. -/
theorem deleteFiles_eq (hroot : s.root ≠ []) :
    deleteFiles s disk n.filepath n.filename =
      .ok (update (update disk (mediaPath s n) none) (thumbPath s n) none) := by
  have hmedia : s.getFullPath n.filepath = .ok (mediaPath s n) :=
    getFullPath_join hroot proper_media proper_filename
  have hthumb : s.getFullPath n.thumbnailPath = .ok (thumbPath s n) :=
    getFullPath_join hroot proper_thumbnails proper_thumbnailName
  unfold StoredName.thumbnailPath at hthumb
  simp only [deleteFiles, deleteFile, getThumbnailPath, fileExists, hmedia, hthumb, bind,
    Except.bind, pure, Except.pure]
  by_cases hfound : (update disk (mediaPath s n) none (thumbPath s n)).isSome = true
  · simp only [if_pos hfound, hthumb]
  · have hnone := Option.not_isSome_iff_eq_none.mp hfound
    simp only [if_neg hfound]
    have hsame : update (update disk (mediaPath s n) none) (thumbPath s n) none =
        update disk (mediaPath s n) none := update_eq_self_iff.mpr hnone.symm
    rw [hsame]

theorem ne_of_mark (h : x.mark ≠ n.mark) : x ≠ n := fun heq => h (congrArg _ heq)

theorem mediaPath_ne (h : x.mark ≠ n.mark) : mediaPath s x ≠ mediaPath s n := fun heq =>
  h (mark_of_mediaPath heq)

theorem thumbPath_ne (h : x.mark ≠ n.mark) : thumbPath s x ≠ thumbPath s n := fun heq =>
  h (mark_of_thumbPath heq)

/-- A file and its place on the shelf are written together. -/
theorem Shelved.write_file (inv : Shelved s m) (hn : n ∈ m.stored) (v : Option (List UInt8)) :
    Shelved s ⟨update m.disk (mediaPath s n) v,
      ⟨update m.shelf.file n v, m.shelf.thumbnail⟩, m.stored⟩ := by
  have hthumb : ∀ x, update m.disk (mediaPath s n) v (thumbPath s x) = m.disk (thumbPath s x) :=
    fun x => update_of_ne mediaPath_ne_thumbPath.symm _ _
  refine ⟨fun x hx => ?_, fun x hx => ?_, fun x hx => ?_, inv.marks⟩
  · show update m.disk (mediaPath s n) v (mediaPath s x) = update m.shelf.file n v x
    by_cases heq : x = n
    · rw [heq, update_self, update_self]
    · have hmark : x.mark ≠ n.mark := fun h => heq (inv.marks x hx n hn h)
      rw [update_of_ne (mediaPath_ne hmark), update_of_ne heq]
      exact inv.file x hx
  · exact (hthumb x).trans (inv.thumbnail x hx)
  · exact ⟨(hthumb x).trans (inv.unused x hx).1, (inv.unused x hx).2⟩

theorem Shelved.write_thumbnail (inv : Shelved s m) (hn : n ∈ m.stored)
    (v : Option (List UInt8)) : Shelved s ⟨update m.disk (thumbPath s n) v,
      ⟨m.shelf.file, update m.shelf.thumbnail n v⟩, m.stored⟩ := by
  refine ⟨fun x hx => ?_, fun x hx => ?_, fun x hx => ?_, inv.marks⟩
  · show update m.disk (thumbPath s n) v (mediaPath s x) = m.shelf.file x
    rw [update_of_ne mediaPath_ne_thumbPath]
    exact inv.file x hx
  · show update m.disk (thumbPath s n) v (thumbPath s x) = update m.shelf.thumbnail n v x
    by_cases heq : x = n
    · rw [heq, update_self, update_self]
    · have hmark : x.mark ≠ n.mark := fun h => heq (inv.marks x hx n hn h)
      rw [update_of_ne (thumbPath_ne hmark), update_of_ne heq]
      exact inv.thumbnail x hx
  · show update m.disk (thumbPath s n) v (thumbPath s x) = none ∧
      update m.shelf.thumbnail n v x = none
    have hmark : x.mark ≠ n.mark := fun h => hx n hn h.symm
    rw [update_of_ne (thumbPath_ne hmark), update_of_ne (ne_of_mark hmark)]
    exact inv.unused x hx

/-- **Step lemma.** -/
theorem shelved_step (hroot : s.root ≠ []) (inv : Shelved s m) (orderly : Orderly s m call)
    (h : step s m call = some m') : Shelved s m' := by
  cases call with
  | save n buffer temp =>
    simp only [step, Option.map_eq_some_iff] at h
    obtain ⟨disk, hdisk, rfl⟩ := h
    obtain ⟨hsaved, hmedia, hthumb⟩ := save_disk hdisk
    constructor
    · intro x hx
      rcases List.mem_cons.mp hx with rfl | hx
      · show disk (mediaPath s x) = update m.shelf.file x (some buffer) x
        rw [update_self]
        exact hsaved
      · show disk (mediaPath s x) = update m.shelf.file n (some buffer) x
        rw [hmedia x (mediaPath_ne (orderly x hx)), update_of_ne (ne_of_mark (orderly x hx))]
        exact inv.file x hx
    · intro x hx
      show disk (thumbPath s x) = m.shelf.thumbnail x
      rw [hthumb]
      rcases List.mem_cons.mp hx with rfl | hx
      · obtain ⟨hdisk, hshelf⟩ := inv.unused x orderly
        exact hdisk.trans hshelf.symm
      · exact inv.thumbnail x hx
    · intro x hx
      show disk (thumbPath s x) = none ∧ m.shelf.thumbnail x = none
      rw [hthumb]
      exact inv.unused x fun y hy => hx y (List.mem_cons_of_mem _ hy)
    · intro x hx y hy heq
      rcases List.mem_cons.mp hx with rfl | hxs
      · rcases List.mem_cons.mp hy with rfl | hys
        · rfl
        · exact absurd heq.symm (orderly y hys)
      · rcases List.mem_cons.mp hy with rfl | hys
        · exact absurd heq (orderly x hxs)
        · exact inv.marks x hxs y hys heq
  | saveThumbnail n buffer =>
    simp only [step, step_eq, Option.map_some, Option.some.injEq] at h
    rw [← h]
    exact inv.write_thumbnail orderly (some buffer)
  | deleteMedia n =>
    simp only [step, deleteFiles_eq hroot, Option.some.injEq] at h
    rw [← h]
    exact (inv.write_file orderly none).write_thumbnail orderly none
  | other call =>
    simp only [step, Option.map_eq_some_iff] at h
    obtain ⟨disk, hdisk, rfl⟩ := h
    rw [step_eq] at hdisk
    obtain rfl := Option.some.inj hdisk
    have hfile : ∀ x, (s.writes call).foldl put m.disk (mediaPath s x) = m.disk (mediaPath s x) :=
      fun x => foldl_put_of_ne fun w hw => (orderly w hw x).1
    have hthumb : ∀ x, (s.writes call).foldl put m.disk (thumbPath s x) = m.disk (thumbPath s x) :=
      fun x => foldl_put_of_ne fun w hw => (orderly w hw x).2
    exact ⟨fun x hx => (hfile x).trans (inv.file x hx),
      fun x hx => (hthumb x).trans (inv.thumbnail x hx),
      fun x hx => ⟨(hthumb x).trans (inv.unused x hx).1, (inv.unused x hx).2⟩, inv.marks⟩

/-- A storage without thumbnails, before the first upload. -/
def empty (disk : Disk) : MediaStore := ⟨disk, ⟨fun _ => none, fun _ => none⟩, []⟩

/-- **Run lemma.** -/
theorem shelved_of_run {calls : List MediaCall} (hroot : s.root ≠ [])
    (start : ∀ n, disk (thumbPath s n) = none)
    (run : Guarded (step s) (Orderly s) (empty disk) calls m) : Shelved s m := by
  induction run with
  | nil =>
    exact ⟨fun _ hx => absurd hx List.not_mem_nil, fun _ hx => absurd hx List.not_mem_nil,
      fun n _ => ⟨start n, rfl⟩, fun _ hx => absurd hx List.not_mem_nil⟩
  | snoc _ orderly enabled ih => exact shelved_step hroot ih orderly enabled

/-- What reading a file gives. -/
def Shelf.read (shelf : Shelf) (n : StoredName) : Except StorageError (List UInt8) :=
  (shelf.file n).elim (.error .notFound) .ok

end

/-! ### A logo and its thumbnail -/

def logo : StoredName where
  originalFilename := "../logo.png".toList
  timestamp := 1700000000000
  random := ⟨[1, 2, 3, 4], rfl⟩
  not_dots := by decide

end MediaStore

end Montr.Server
