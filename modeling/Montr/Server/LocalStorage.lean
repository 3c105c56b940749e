import Montr.Lib.Transition
import Montr.Server.StorageNames

namespace Montr.Server

open Function Paths Transition

/-!
# The storage directory

`LocalStorageService`: files by their absolute paths, and the operations on them with whatever
texts they are given. Directories, symbolic links and failing operations of the file system are
no part of it.

* `accepted_and_refused` — a text is accepted exactly when it leads to the storage directory or to
  something below it;
* `step_eq` — what an operation writes, and where;
* `isolated` — no run of operations changes a file outside of storage, and none reads one.
-/

/-- The files of the machine. -/
abbrev Disk := Path → Option (List UInt8)

inductive StorageError
  /-- `AppError(FORBIDDEN, message, 403)` -/
  | forbidden (message : String)
  /-- `ENOENT` -/
  | notFound
  deriving DecidableEq, Repr

structure StorageFileInfo where
  filename : Name
  filepath : Path
  checksum : String
  size : Nat
  deriving DecidableEq, Repr

inductive SubtitleFormat
  | srt
  | vtt
  deriving DecidableEq, Repr

def SubtitleFormat.text : SubtitleFormat → Name
  | .srt => "srt".toList
  | .vtt => "vtt".toList

/-- `config.storage.path` in a process with a working directory; `sha256` is the digest. -/
structure LocalStorageService where
  cwd : Path
  configured : Path
  sha256 : List UInt8 → String

namespace LocalStorageService

def storagePath (s : LocalStorageService) : Path := resolve s.cwd [s.configured]

section

variable (s : LocalStorageService) (disk : Disk)

def getFullPath (filepath : Path) : Except StorageError Path :=
  let fullPath := resolve s.cwd [s.storagePath, filepath]
  let storageDir := resolve s.cwd [s.storagePath]
  if ¬ storageDir ++ ['/'] <+: fullPath ∧ fullPath ≠ storageDir then
    .error (.forbidden "Invalid file path: path traversal detected")
  else .ok fullPath

/-- What `path.join(this.storagePath, filepath)` leads to. -/
def inStorage (filepath : Path) : Path := join [s.storagePath, filepath]

def saveFile (fileBuffer : List UInt8) (originalFilename : Path) (timestamp : Nat)
    (random : RandomBytes 4) : StorageFileInfo × Disk :=
  let filename := generateUniqueFilename originalFilename timestamp random
  let filepath := join ["media".toList, filename]
  (⟨filename, filepath, s.sha256 fileBuffer, fileBuffer.length⟩,
    update disk (s.inStorage filepath) (some fileBuffer))

/-- `file.path` of an upload: multer names it in the `temp` directory. -/
def tempPath (random : RandomBytes 16) : Path := join [s.storagePath, "temp".toList, hex random]

/-- multer writes the upload to a file of its own, which goes once it is saved. -/
def saveUploadedFile (fileBuffer : List UInt8) (temp : RandomBytes 16) (originalname : Path)
    (timestamp : Nat) (random : RandomBytes 4) : Except StorageError StorageFileInfo × Disk :=
  let disk := update disk (s.tempPath temp) (some fileBuffer)
  match disk (s.tempPath temp) with
  | none => (.error .notFound, disk)
  | some fileBuffer =>
    let (info, disk) := s.saveFile disk fileBuffer originalname timestamp random
    (.ok info, update disk (s.tempPath temp) none)

/-- A file that is not there is no error. -/
def deleteFile (filepath : Path) : Except StorageError Disk := do
  let fullPath ← s.getFullPath filepath
  return update disk fullPath none

def fileExists (filepath : Path) : Except StorageError Bool := do
  let fullPath ← s.getFullPath filepath
  return (disk fullPath).isSome

/-- `fs.readFile` of a path in storage. -/
def readFile (filepath : Path) : Except StorageError (List UInt8) := do
  let fullPath ← s.getFullPath filepath
  match disk fullPath with
  | some content => .ok content
  | none => .error .notFound

def calculateFileChecksum (filepath : Path) : Except StorageError String :=
  (s.readFile disk filepath).map s.sha256

def getFileSize (filepath : Path) : Except StorageError Nat :=
  (s.readFile disk filepath).map List.length

def saveThumbnail (buffer : List UInt8) (mediaFilename : Path) : Path × Disk :=
  let filepath := join ["thumbnails".toList, thumbnailName mediaFilename]
  (filepath, update disk (s.inStorage filepath) (some buffer))

def getThumbnailPath (mediaFilename : Path) : Except StorageError (Option Path) := do
  let filepath := join ["thumbnails".toList, thumbnailName mediaFilename]
  if ← s.fileExists disk filepath then return some filepath else return none

def saveSubtitle (buffer : List UInt8) (format : SubtitleFormat)
    (random : RandomBytes 16) : StorageFileInfo × Disk :=
  let filename := hex random ++ '.' :: format.text
  let filepath := join ["subtitles".toList, filename]
  (⟨filename, filepath, s.sha256 buffer, buffer.length⟩,
    update disk (s.inStorage filepath) (some buffer))

/-- The entries of the `temp` directory that are too old. -/
def cleanupTempFiles (files : List Name) : Disk :=
  files.foldl (fun disk file => update disk (join [s.storagePath, "temp".toList, file]) none) disk

end

/-! ### Runs -/

inductive StorageCall
  | saveFile (fileBuffer : List UInt8) (originalFilename : Path) (timestamp : Nat)
      (random : RandomBytes 4)
  | saveUploadedFile (fileBuffer : List UInt8) (temp : RandomBytes 16) (originalname : Path)
      (timestamp : Nat) (random : RandomBytes 4)
  | deleteFile (filepath : Path)
  | saveThumbnail (buffer : List UInt8) (mediaFilename : Path)
  | saveSubtitle (buffer : List UInt8) (format : SubtitleFormat) (random : RandomBytes 16)
  /-- what `readdir` lists are names of files -/
  | cleanupTempFiles (files : List { n : Name // Proper n })

/-- The disk after a call; one that throws before it changed anything leaves it. -/
def step (s : LocalStorageService) (disk : Disk) : StorageCall → Option Disk
  | .saveFile fileBuffer originalFilename timestamp random =>
    some (s.saveFile disk fileBuffer originalFilename timestamp random).2
  | .saveUploadedFile fileBuffer temp originalname timestamp random =>
    some (s.saveUploadedFile disk fileBuffer temp originalname timestamp random).2
  | .deleteFile filepath =>
    match s.deleteFile disk filepath with
    | .ok disk => some disk
    | .error _ => some disk
  | .saveThumbnail buffer mediaFilename => some (s.saveThumbnail disk buffer mediaFilename).2
  | .saveSubtitle buffer format random => some (s.saveSubtitle disk buffer format random).2
  | .cleanupTempFiles files => some (s.cleanupTempFiles disk (files.map (·.1)))

/-- The names of the storage directory. -/
def root (s : LocalStorageService) : List Name :=
  names (collect ([s.configured].reverse ++ [s.cwd]) [])

/-- A file or directory somewhere in the storage directory. -/
def Below (s : LocalStorageService) (path : Path) : Prop :=
  ∃ n rest, (∀ m ∈ n :: rest, Proper m) ∧ path = render (s.root ++ n :: rest)

section

variable {s : LocalStorageService} {disk disk' : Disk} {filepath path full : Path}
  {dir n : Name} {rest : List Name}

theorem storagePath_eq (s : LocalStorageService) : s.storagePath = render s.root := rfl

theorem proper_root (s : LocalStorageService) : ∀ n ∈ s.root, Proper n := proper_names _

theorem getFullPath_eq (s : LocalStorageService) (filepath : Path) : s.getFullPath filepath =
    if ¬ render s.root ++ ['/'] <+: render (target s.root filepath) ∧
        render (target s.root filepath) ≠ render s.root then
      .error (.forbidden "Invalid file path: path traversal detected")
    else .ok (render (target s.root filepath)) := by
  unfold getFullPath
  rw [storagePath_eq, resolve_dir rfl, resolve_pair rfl, names_render s.proper_root]

/-- A text is accepted if the names it leads to begin with those of the directory. -/
theorem getFullPath_ok_iff (hroot : s.root ≠ []) :
    s.getFullPath filepath = .ok full ↔
      ∃ rest, target s.root filepath = s.root ++ rest ∧ full = render (s.root ++ rest) := by
  have hproper := proper_target s.proper_root filepath
  have hbegins := prefix_render_iff s.proper_root hproper hroot
  rw [getFullPath_eq]
  constructor
  · intro h
    split at h
    · exact absurd h (by simp)
    next haccepted =>
      obtain rfl := Except.ok.inj h
      by_cases hbelow : ∃ m rest, target s.root filepath = s.root ++ m :: rest
      · obtain ⟨m, rest, htarget⟩ := hbelow
        exact ⟨m :: rest, htarget, by rw [htarget]⟩
      · have hdir : target s.root filepath = s.root := by
          by_contra hne
          exact haccepted ⟨fun h => hbelow (hbegins.mp h),
            fun heq => hne (render_injective hproper s.proper_root heq)⟩
        exact ⟨[], by rw [hdir, List.append_nil], by rw [hdir, List.append_nil]⟩
  · rintro ⟨rest, htarget, rfl⟩
    rw [← htarget, if_neg]
    rintro ⟨hnot, hne⟩
    cases rest with
    | nil => exact hne (by rw [htarget, List.append_nil])
    | cons m rest => exact hnot (hbegins.mpr ⟨m, rest, htarget⟩)

/-! ### Where the operations write -/

/-- The path of an entry of a directory in storage. -/
def entry (s : LocalStorageService) (dir n : Name) : Path := render (s.root ++ [dir, n])

theorem proper_media : Proper "media".toList := by constructor <;> decide

theorem proper_thumbnails : Proper "thumbnails".toList := by constructor <;> decide

theorem proper_subtitles : Proper "subtitles".toList := by constructor <;> decide

theorem proper_temp : Proper "temp".toList := by constructor <;> decide

theorem proper_pair (hdir : Proper dir) (hn : Proper n) : ∀ m ∈ [dir, n], Proper m := by
  simp [hdir, hn]

theorem proper_entry (hdir : Proper dir) (hn : Proper n) : ∀ m ∈ s.root ++ [dir, n], Proper m := by
  intro m hm
  exact (List.mem_append.mp hm).elim (s.proper_root m) (proper_pair hdir hn m)

/-- `path.join(dir, name)`, in storage. -/
theorem inStorage_join (hdir : Proper dir) (hn : Proper n) :
    s.inStorage (join [dir, n]) = s.entry dir n := by
  have hpair := proper_pair hdir hn
  unfold inStorage entry
  rw [join_intercalate hpair (List.cons_ne_nil _ _), storagePath_eq,
    join_render s.proper_root hpair (List.cons_ne_nil _ _)]

/-- Such a path leads back to the entry. -/
theorem getFullPath_join (hroot : s.root ≠ []) (hdir : Proper dir) (hn : Proper n) :
    s.getFullPath (join [dir, n]) = .ok (s.entry dir n) := by
  have hpair := proper_pair hdir hn
  rw [getFullPath_ok_iff hroot, join_intercalate hpair (List.cons_ne_nil _ _)]
  exact ⟨[dir, n], target_intercalate hpair, rfl⟩

theorem join_temp (hn : Proper n) :
    join [s.storagePath, "temp".toList, n] = s.entry "temp".toList n := by
  have hjoin := join_render s.proper_root (proper_pair proper_temp hn) (List.cons_ne_nil _ _)
  have hsame : join [s.storagePath, "temp".toList, n] =
      join [render s.root, ['/'].intercalate ["temp".toList, n]] := by
    simp [join, storagePath_eq, render, hn.ne_nil]
  rw [hsame, hjoin]
  rfl

theorem entry_inj {dir' n' : Name} (hdir : Proper dir) (hn : Proper n) (hdir' : Proper dir')
    (hn' : Proper n') (h : s.entry dir n = s.entry dir' n') : dir = dir' ∧ n = n' := by
  have hnames := render_injective (proper_entry hdir hn) (proper_entry hdir' hn') h
  simpa using List.append_cancel_left hnames

theorem proper_randomHex {k : Nat} (random : RandomBytes (k + 1)) : Proper (hex random) := by
  apply proper_hex
  intro h
  exact absurd random.2 (by simp [h])

theorem proper_subtitleName (format : SubtitleFormat) (random : RandomBytes 16) :
    Proper (hex random ++ '.' :: format.text) := by
  have hrandom := proper_randomHex random
  have hlength : (hex random ++ '.' :: format.text).length = 36 := by
    cases format <;> simp [length_hex, random.2, SubtitleFormat.text]
  have hslash : '/' ∉ format.text := by
    cases format <;> decide
  constructor
  · intro h
    simp [h] at hlength
  · intro h
    simp [h] at hlength
  · intro h
    simp [h] at hlength
  · simp [hrandom.no_slash, hslash]

/-! ### What a call writes -/

/-- The files that a call writes, or removes, in their order: nothing on the disk matters. -/
def writes (s : LocalStorageService) : StorageCall → List (Path × Option (List UInt8))
  | .saveFile fileBuffer originalFilename timestamp random =>
    [(s.entry "media".toList (generateUniqueFilename originalFilename timestamp random),
      some fileBuffer)]
  | .saveUploadedFile fileBuffer temp originalname timestamp random =>
    [(s.entry "temp".toList (hex temp), some fileBuffer),
      (s.entry "media".toList (generateUniqueFilename originalname timestamp random),
        some fileBuffer),
      (s.entry "temp".toList (hex temp), none)]
  | .deleteFile filepath =>
    match s.getFullPath filepath with
    | .ok fullPath => [(fullPath, none)]
    | .error _ => []
  | .saveThumbnail buffer mediaFilename =>
    [(s.entry "thumbnails".toList (thumbnailName mediaFilename), some buffer)]
  | .saveSubtitle buffer format random =>
    [(s.entry "subtitles".toList (hex random ++ '.' :: format.text), some buffer)]
  | .cleanupTempFiles files => files.map fun file => (s.entry "temp".toList file.1, none)

def put (disk : Disk) (write : Path × Option (List UInt8)) : Disk :=
  update disk write.1 write.2

/-- **What a step does**: one case per operation. -/
theorem step_eq (call : StorageCall) :
    s.step disk call = some ((s.writes call).foldl put disk) := by
  cases call with
  | saveFile fileBuffer originalFilename timestamp random =>
    simp only [step, saveFile, writes, inStorage_join proper_media proper_generateUniqueFilename]
    rfl
  | saveUploadedFile fileBuffer temp originalname timestamp random =>
    simp only [step, saveUploadedFile, saveFile, writes, tempPath,
      join_temp (proper_randomHex temp), inStorage_join proper_media proper_generateUniqueFilename,
      update_self]
    rfl
  | deleteFile filepath =>
    simp only [step, deleteFile, writes]
    cases s.getFullPath filepath <;> rfl
  | saveThumbnail buffer mediaFilename =>
    simp only [step, saveThumbnail, writes, inStorage_join proper_thumbnails proper_thumbnailName]
    rfl
  | saveSubtitle buffer format random =>
    simp only [step, saveSubtitle, writes,
      inStorage_join proper_subtitles (proper_subtitleName format random)]
    rfl
  | cleanupTempFiles files =>
    have htemp : ∀ file : { n : Name // Proper n },
        join [s.storagePath, "temp".toList, file.1] = s.entry "temp".toList file.1 :=
      fun file => join_temp file.2
    simp only [step, cleanupTempFiles, writes, List.foldl_map, put, htemp]

theorem foldl_put_of_ne {ws : List (Path × Option (List UInt8))} (h : ∀ w ∈ ws, w.1 ≠ path) :
    ws.foldl put disk path = disk path := by
  induction ws generalizing disk with
  | nil => rfl
  | cons w ws ih =>
    rw [List.foldl_cons, ih fun x hx => h x (List.mem_cons_of_mem _ hx)]
    exact update_of_ne (h w List.mem_cons_self).symm _ _

/-- The same writes make the same of a file, wherever it was the same. -/
theorem foldl_put_congr {ws : List (Path × Option (List UInt8))} {disk₂ : Disk}
    (h : disk path = disk₂ path) : ws.foldl put disk path = ws.foldl put disk₂ path := by
  induction ws generalizing disk disk₂ with
  | nil => exact h
  | cons w ws ih =>
    apply ih
    unfold put
    by_cases hpath : path = w.1
    · rw [hpath, update_self, update_self]
    · rw [update_of_ne hpath, update_of_ne hpath, h]

/-- **Exactly the paths in the storage directory**: what is accepted leads to it or to something
    below it, and stands for the path with these names; all else is refused, with one error. -/
theorem accepted_and_refused (hroot : s.root ≠ []) :
    (∀ full, s.getFullPath filepath = .ok full ↔
      ∃ rest, target s.root filepath = s.root ++ rest ∧ full = render (s.root ++ rest)) ∧
    ∀ e, s.getFullPath filepath = .error e ↔
      e = .forbidden "Invalid file path: path traversal detected" ∧
        ¬ s.root <+: target s.root filepath := by
  refine ⟨fun _ => getFullPath_ok_iff hroot, fun e => ⟨fun h => ?_, ?_⟩⟩
  · have hrefused : ∀ full, s.getFullPath filepath ≠ .ok full := by
      intro full hfull
      exact absurd (h.symm.trans hfull) (by simp)
    refine ⟨?_, fun ⟨rest, htarget⟩ => ?_⟩
    · rw [getFullPath_eq] at h
      split at h
      · exact (Except.error.inj h).symm
      · exact absurd h (by simp)
    · exact hrefused _ ((getFullPath_ok_iff hroot).mpr ⟨rest, htarget.symm, rfl⟩)
  · rintro ⟨rfl, hbegins⟩
    cases hfull : s.getFullPath filepath with
    | error e =>
      rw [getFullPath_eq] at hfull
      split at hfull
      · rw [Except.error.inj hfull]
      · exact absurd hfull (by simp)
    | ok full =>
      obtain ⟨rest, htarget, -⟩ := (getFullPath_ok_iff hroot).mp hfull
      exact absurd ⟨rest, htarget.symm⟩ hbegins

/-- An accepted path is below the storage directory, or the directory itself. -/
theorem below_of_getFullPath (h : s.getFullPath filepath = .ok full) :
    s.Below full ∨ full = s.storagePath := by
  by_cases hroot : s.root = []
  · rw [getFullPath_eq] at h
    split at h
    · exact absurd h (by simp)
    obtain rfl := Except.ok.inj h
    have hproper := proper_target s.proper_root filepath
    cases htarget : target s.root filepath with
    | nil => exact .inr (by rw [storagePath_eq, hroot])
    | cons m rest =>
      rw [htarget] at hproper
      exact .inl ⟨m, rest, hproper, by rw [hroot, List.nil_append]⟩
  · obtain ⟨rest, htarget, rfl⟩ := (getFullPath_ok_iff hroot).mp h
    cases rest with
    | nil => exact .inr (by rw [List.append_nil, storagePath_eq])
    | cons m rest =>
      have hproper := proper_target s.proper_root filepath
      rw [htarget] at hproper
      exact .inl ⟨m, rest, fun x hx => hproper x (List.mem_append_right _ hx), rfl⟩

theorem below_entry (hdir : Proper dir) (hn : Proper n) : s.Below (s.entry dir n) :=
  ⟨dir, [n], proper_pair hdir hn, rfl⟩

theorem not_below_storagePath : ¬ s.Below s.storagePath := by
  rintro ⟨m, rest, hproper, h⟩
  have hall : ∀ x ∈ s.root ++ m :: rest, Proper x := fun x hx =>
    (List.mem_append.mp hx).elim (s.proper_root x) (hproper x)
  have hnames := render_injective s.proper_root hall h
  simp at hnames

/-- Only below the storage directory is anything written. -/
theorem below_of_mem_writes {call : StorageCall} {w : Path × Option (List UInt8)}
    (h : w ∈ s.writes call) : s.Below w.1 ∨ w = (s.storagePath, none) := by
  cases call with
  | deleteFile filepath =>
    simp only [writes] at h
    cases hfull : s.getFullPath filepath with
    | error e =>
      rw [hfull] at h
      exact absurd h List.not_mem_nil
    | ok full =>
      rw [hfull] at h
      have hw : w = (full, none) := List.mem_singleton.mp h
      rw [hw]
      rcases below_of_getFullPath hfull with hbelow | hdir
      · exact .inl hbelow
      · exact .inr (by rw [hdir])
  | saveFile =>
    simp only [writes, List.mem_singleton] at h
    rw [h]
    exact .inl (below_entry proper_media proper_generateUniqueFilename)
  | saveUploadedFile fileBuffer temp =>
    simp only [writes, List.mem_cons, List.not_mem_nil, or_false] at h
    rcases h with rfl | rfl | rfl
    · exact .inl (below_entry proper_temp (proper_randomHex temp))
    · exact .inl (below_entry proper_media proper_generateUniqueFilename)
    · exact .inl (below_entry proper_temp (proper_randomHex temp))
  | saveThumbnail =>
    simp only [writes, List.mem_singleton] at h
    rw [h]
    exact .inl (below_entry proper_thumbnails proper_thumbnailName)
  | saveSubtitle buffer format random =>
    simp only [writes, List.mem_singleton] at h
    rw [h]
    exact .inl (below_entry proper_subtitles (proper_subtitleName format random))
  | cleanupTempFiles files =>
    obtain ⟨file, -, rfl⟩ := List.mem_map.mp h
    exact .inl (below_entry proper_temp file.2)

/-- The storage directory is a directory: no file has its path. -/
def IsDirectory (s : LocalStorageService) (disk : Disk) : Prop := disk s.storagePath = none

/-- Outside of the storage directory a call changes nothing, and the directory stays one. -/
theorem writes_outside (dir : s.IsDirectory disk) {call : StorageCall} (hpath : ¬ s.Below path) :
    (s.writes call).foldl put disk path = disk path := by
  by_cases hdir : path = s.storagePath
  · have hkeep : s.IsDirectory ((s.writes call).foldl put disk) := by
      refine List.foldlRecOn (motive := s.IsDirectory) _ _ dir fun disk hdisk w hw => ?_
      rcases below_of_mem_writes hw with hbelow | hw
      · have hne : s.storagePath ≠ w.1 := fun heq => not_below_storagePath (heq ▸ hbelow)
        exact (update_of_ne hne _ _).trans hdisk
      · rw [hw]
        exact update_self ..
    rw [hdir]
    exact hkeep.trans dir.symm
  · refine foldl_put_of_ne fun w hw heq => ?_
    rcases below_of_mem_writes hw with hbelow | hw
    · exact hpath (heq ▸ hbelow)
    · exact hdir (by rw [← heq, hw])

/-- After the same calls two machines with the same files in storage still have the same there,
    and each has what it had elsewhere. -/
theorem agree_exec {disk₁ disk₂ disk₁' disk₂' : Disk} {calls : List StorageCall}
    (agree : ∀ path, s.Below path → disk₁ path = disk₂ path) (dir : s.IsDirectory disk₁)
    (h₁ : exec s.step disk₁ calls = some disk₁') (h₂ : exec s.step disk₂ calls = some disk₂') :
    (∀ path, s.Below path → disk₁' path = disk₂' path) ∧
      ∀ path, ¬ s.Below path → disk₁' path = disk₁ path := by
  induction calls generalizing disk₁ disk₂ with
  | nil =>
    obtain rfl := Option.some.inj h₁
    obtain rfl := Option.some.inj h₂
    exact ⟨agree, fun _ _ => rfl⟩
  | cons call calls ih =>
    simp only [exec, step_eq, Option.bind_some] at h₁ h₂
    have hagree : ∀ path, s.Below path → (s.writes call).foldl put disk₁ path =
        (s.writes call).foldl put disk₂ path := fun path hpath => foldl_put_congr (agree path hpath)
    have houtside : ∀ path, ¬ s.Below path →
        (s.writes call).foldl put disk₁ path = disk₁ path := fun _ hpath => writes_outside dir hpath
    have hdir : s.IsDirectory ((s.writes call).foldl put disk₁) :=
      (houtside _ not_below_storagePath).trans dir
    obtain ⟨hbelow, hrest⟩ := ih hagree hdir h₁ h₂
    exact ⟨hbelow, fun path hpath => (hrest path hpath).trans (houtside path hpath)⟩

/-- What is asked of the service is answered from the files below the storage directory. -/
theorem answers_congr {disk₂ : Disk} (agree : ∀ path, s.Below path → disk path = disk₂ path)
    (dir : s.IsDirectory disk) (dir₂ : s.IsDirectory disk₂) :
    s.readFile disk filepath = s.readFile disk₂ filepath ∧
      s.fileExists disk filepath = s.fileExists disk₂ filepath := by
  have hsame : ∀ full, s.getFullPath filepath = .ok full → disk full = disk₂ full := by
    intro full hfull
    rcases below_of_getFullPath hfull with hbelow | rfl
    · exact agree full hbelow
    · exact dir.trans dir₂.symm
  cases hfull : s.getFullPath filepath with
  | error e => simp only [readFile, fileExists, hfull, bind, Except.bind, and_self]
  | ok full =>
    simp only [readFile, fileExists, hfull, bind, Except.bind, hsame full hfull, and_self]

/-- **The storage directory and nothing else.**  Of two machines with the same files in storage:
    after any calls, with any texts, storage is still the same on both, whatever is asked gets the
    same answer, and outside of it each machine has the files that it had. -/
theorem isolated {disk₁ disk₂ disk₁' disk₂' : Disk} {calls : List StorageCall}
    (agree : ∀ path, s.Below path → disk₁ path = disk₂ path) (dir₁ : s.IsDirectory disk₁)
    (dir₂ : s.IsDirectory disk₂) (h₁ : exec s.step disk₁ calls = some disk₁')
    (h₂ : exec s.step disk₂ calls = some disk₂') :
    (∀ path, s.Below path → disk₁' path = disk₂' path) ∧
      (∀ path, ¬ s.Below path → disk₁' path = disk₁ path ∧ disk₂' path = disk₂ path) ∧
      (∀ filepath, s.readFile disk₁' filepath = s.readFile disk₂' filepath ∧
        s.fileExists disk₁' filepath = s.fileExists disk₂' filepath ∧
        s.getFileSize disk₁' filepath = s.getFileSize disk₂' filepath ∧
        s.calculateFileChecksum disk₁' filepath = s.calculateFileChecksum disk₂' filepath) ∧
      ∀ mediaFilename, s.getThumbnailPath disk₁' mediaFilename =
        s.getThumbnailPath disk₂' mediaFilename := by
  obtain ⟨hbelow, houtside₁⟩ := agree_exec agree dir₁ h₁ h₂
  obtain ⟨-, houtside₂⟩ := agree_exec (fun path hpath => (agree path hpath).symm) dir₂ h₂ h₁
  have hanswers : ∀ filepath, s.readFile disk₁' filepath = s.readFile disk₂' filepath ∧
      s.fileExists disk₁' filepath = s.fileExists disk₂' filepath := fun filepath =>
    answers_congr hbelow ((houtside₁ _ not_below_storagePath).trans dir₁)
      ((houtside₂ _ not_below_storagePath).trans dir₂)
  refine ⟨hbelow, fun path hpath => ⟨houtside₁ path hpath, houtside₂ path hpath⟩,
    fun filepath => ?_, fun mediaFilename => ?_⟩
  · obtain ⟨hread, hexists⟩ := hanswers filepath
    refine ⟨hread, hexists, ?_, ?_⟩
    · unfold getFileSize
      rw [hread]
    · unfold calculateFileChecksum
      rw [hread]
  · unfold getThumbnailPath
    dsimp only
    rw [(hanswers _).2]

end

/-! ### A server in `/srv` -/

def depot : LocalStorageService where
  cwd := "/srv".toList
  configured := "storage".toList
  sha256 _ := ""

/-- It is asked for the file of another machine, and for one of its own. -/
theorem isolated_depot : ∃ disk₁ disk₂,
    exec depot.step (fun path => if path = "/etc/passwd".toList then some [1] else none)
        [.deleteFile "../../etc/passwd".toList, .saveThumbnail [2] "../logo.png".toList] =
      some disk₁ ∧
    exec depot.step (fun _ => none)
        [.deleteFile "../../etc/passwd".toList, .saveThumbnail [2] "../logo.png".toList] =
      some disk₂ ∧
    (∀ path, depot.Below path → disk₁ path = disk₂ path) ∧
      (∀ path, ¬ depot.Below path → disk₁ path =
          (if path = "/etc/passwd".toList then some [1] else none) ∧ disk₂ path = none) ∧
      (∀ filepath, depot.readFile disk₁ filepath = depot.readFile disk₂ filepath ∧
        depot.fileExists disk₁ filepath = depot.fileExists disk₂ filepath ∧
        depot.getFileSize disk₁ filepath = depot.getFileSize disk₂ filepath ∧
        depot.calculateFileChecksum disk₁ filepath = depot.calculateFileChecksum disk₂ filepath) ∧
      ∀ mediaFilename, depot.getThumbnailPath disk₁ mediaFilename =
        depot.getThumbnailPath disk₂ mediaFilename := by
  have houtside : ¬ depot.Below "/etc/passwd".toList := by
    rintro ⟨n, rest, hproper, h⟩
    have hroot : depot.root = ["srv".toList, "storage".toList] := by decide
    rw [hroot] at h
    exact absurd (congrArg (List.take 2) h) (by simp [render])
  obtain ⟨disk₁, h₁⟩ : ∃ disk₁, exec depot.step
      (fun path => if path = "/etc/passwd".toList then some [1] else none)
      [.deleteFile "../../etc/passwd".toList, .saveThumbnail [2] "../logo.png".toList] =
    some disk₁ := ⟨_, rfl⟩
  obtain ⟨disk₂, h₂⟩ : ∃ disk₂, exec depot.step (fun _ => none)
      [.deleteFile "../../etc/passwd".toList, .saveThumbnail [2] "../logo.png".toList] =
    some disk₂ := ⟨_, rfl⟩
  refine ⟨disk₁, disk₂, h₁, h₂, isolated (fun path hpath => if_neg ?_) (if_neg ?_) rfl h₁ h₂⟩
  · rintro rfl
    exact houtside hpath
  · decide

theorem accepted_and_refused_depot :
    depot.getFullPath "media/../thumbnails/logo_thumb.jpg".toList =
        .ok "/srv/storage/thumbnails/logo_thumb.jpg".toList ∧
      depot.getFullPath "../storages/logo_thumb.jpg".toList =
        .error (.forbidden "Invalid file path: path traversal detected") := by
  have hroot : depot.root ≠ [] := by decide
  have haccepted :=
    (@accepted_and_refused depot "media/../thumbnails/logo_thumb.jpg".toList hroot).1
  have hrefused := (@accepted_and_refused depot "../storages/logo_thumb.jpg".toList hroot).2
  constructor
  · exact (haccepted _).mpr ⟨["thumbnails".toList, "logo_thumb.jpg".toList],
      by decide, by decide⟩
  · exact (hrefused _).mpr ⟨rfl, by decide⟩

end LocalStorageService

end Montr.Server
