import Mathlib.Data.List.TakeWhile
import Montr.Client.DownloadTasks
import Montr.Lib.Transition

namespace Montr.Client

open Files Transition

/-!
# Cached files are verified

`VerifiedContent`: the final file of an item with a checksum has bytes that a completed download
verified, and no open handle leads to it.  Downloads that share a temporary file break this, and so
does an item whose final path is a temporary one.  `verifiedContent_of_apart` is about the runs
without such downloads.
-/

/-! ### Temporary paths of cache paths -/

theorem fileStem_ne_nil {name : List Char} (h : name ≠ []) : fileStem name ≠ [] := by
  unfold fileStem
  split
  · exact h
  · exact h
  · next before hne _ =>
    intro hnil
    exact hne (List.reverse_eq_nil_iff.mp hnil)

theorem mem_of_mem_fileStem {name : List Char} {c : Char} (h : c ∈ fileStem name) : c ∈ name := by
  unfold fileStem at h
  split at h
  · exact h
  · exact h
  · next dot before _ hdrop =>
    have hmem : c ∈ name.reverse.dropWhile fun c => decide (c ≠ '.') := by
      rw [hdrop]
      exact List.mem_cons_of_mem _ (List.mem_reverse.mp h)
    exact List.mem_reverse.mp ((List.dropWhile_sublist _).subset hmem)

/-- The stem of a name with the new extension is the stem itself. -/
theorem fileStem_append {stem : List Char} (h : stem ≠ []) :
    fileStem (stem ++ '.' :: "tmp".toList) = stem := by
  have hdrop : (stem ++ '.' :: "tmp".toList).reverse.dropWhile (fun c => decide (c ≠ '.')) =
      '.' :: stem.reverse := by
    rw [List.reverse_append]
    rfl
  unfold fileStem
  rw [hdrop]
  cases hrev : stem.reverse with
  | nil => exact absurd (List.reverse_eq_nil_iff.mp hrev) h
  | cons c rest =>
    show (c :: rest).reverse = stem
    rw [← hrev, List.reverse_reverse]

/-- Only the last component of a path changes. -/
theorem withExtension_join {parent name : List Char} (h : '/' ∉ name) (ext : String) :
    withExtension (String.ofList (parent ++ '/' :: name)) ext =
      String.ofList (parent ++ '/' :: (fileStem name ++ '.' :: ext.toList)) := by
  have hpos : ∀ c ∈ name.reverse, decide (c ≠ '/') = true := by
    intro c hc
    refine decide_eq_true ?_
    rintro rfl
    exact h (List.mem_reverse.mp hc)
  have hreverse : (String.ofList (parent ++ '/' :: name)).toList.reverse =
      name.reverse ++ '/' :: parent.reverse := by simp
  unfold withExtension
  rw [hreverse, List.takeWhile_append_of_pos hpos, List.dropWhile_append_of_pos hpos]
  simp

/-- A path with a last component. -/
def HasName (path : String) : Prop :=
  ∃ parent name, '/' ∉ name ∧ name ≠ [] ∧ path = String.ofList (parent ++ '/' :: name)

/-- The temporary path of a temporary path is the path itself. -/
theorem tempPath_tempPath {path : String} (h : HasName path) :
    tempPath (tempPath path) = tempPath path := by
  obtain ⟨parent, name, hslash, hne, rfl⟩ := h
  have hstem : '/' ∉ fileStem name ++ '.' :: "tmp".toList := by
    rw [List.mem_append]
    rintro (hmem | hmem)
    · exact hslash (mem_of_mem_fileStem hmem)
    · exact absurd hmem (by decide)
  unfold tempPath
  rw [withExtension_join hslash, withExtension_join hstem, fileStem_append (fileStem_ne_nil hne)]

theorem takeBytes_sublist (cs : List Char) : ∀ n, (takeBytes n cs).Sublist cs := by
  induction cs with
  | nil => exact fun _ => List.Sublist.refl _
  | cons c cs ih =>
    intro n
    unfold takeBytes
    split
    · exact (ih _).cons_cons c
    · exact List.nil_sublist _

/-- Trimming and cleaning add no character. -/
theorem mem_of_mem_cleaned {last : List Char} {c : Char}
    (h : c ∈ (((last.dropWhile isWhitespace).reverse.dropWhile isWhitespace).reverse).filter
      fun c => !isControl c) : c ∈ last := by
  have htrimmed := List.mem_reverse.mp (List.mem_filter.mp h).1
  have hdropped := List.mem_reverse.mp ((List.dropWhile_sublist _).subset htrimmed)
  exact (List.dropWhile_sublist _).subset hdropped

/-- A sanitized name is one component. -/
theorem slash_not_mem_sanitizeFilename (raw : String) : '/' ∉ (sanitizeFilename raw).toList := by
  intro hmem
  unfold sanitizeFilename at hmem
  rw [String.toList_ofList] at hmem
  have hcandidate := (takeBytes_sublist _ _).subset hmem
  split at hcandidate
  · exact absurd hcandidate (by decide)
  · have hlast := List.mem_takeWhile_imp (List.mem_reverse.mp (mem_of_mem_cleaned hcandidate))
    exact absurd hlast (by decide)

theorem hasName_getCachePath (cacheDir : String) (id : Nat) (filename : String) :
    HasName (getCachePath cacheDir id filename) := by
  refine ⟨cacheDir.toList, Nat.toDigits 10 id ++ '_' :: (sanitizeFilename filename).toList,
    ?_, ?_, ?_⟩
  · intro hmem
    rcases List.mem_append.mp hmem with hdigit | hrest
    · have hdigit : Char.isDigit '/' = true :=
        Nat.isDigit_of_mem_toDigits (by omega) (by omega) hdigit
      exact absurd hdigit (by decide)
    · rcases List.mem_cons.mp hrest with heq | hname
      · exact absurd heq (by decide)
      · exact slash_not_mem_sanitizeFilename filename hname
  · simp
  · refine String.toList_inj.mp ?_
    rw [String.toList_ofList]
    simp [getCachePath, show ∀ s : String, toString s = s from fun _ => rfl]

theorem CacheItem.hasName (cacheDir : String) (item : CacheItem) :
    HasName (item.finalPath cacheDir) := by
  unfold CacheItem.finalPath
  split <;> exact hasName_getCachePath ..

theorem CacheItem.tempPath_temp (cacheDir : String) (item : CacheItem) :
    tempPath (item.temp cacheDir) = item.temp cacheDir :=
  tempPath_tempPath (item.hasName cacheDir)

namespace Downloads

/-! ### The property and its condition -/

variable (checksums : Checksums) (catalogue : Set CacheItem)

/-- The bytes have the checksum of the item. -/
def Matches (item : CacheItem) (bytes : List UInt8) : Prop :=
  checksums.toLowercase (checksums.calculate bytes) = checksums.toLowercase item.checksum

/-- The final path of an item of the catalogue that has a checksum. -/
def Checked (cacheDir path : String) : Prop :=
  ∃ item ∈ catalogue, item.checksum ≠ "" ∧ item.finalPath cacheDir = path

/-- **A cached file is verified content**: at the final path of an item with a checksum are bytes
    that a completed download to this path verified, and no open handle leads to them. -/
structure VerifiedContent (s : Downloads) : Prop where
  verified : ∀ path, Checked catalogue s.cacheDir path → ∀ bytes, s.fs.read path = some bytes →
    ∃ item ∈ s.completed, item.finalPath s.cacheDir = path ∧ item.checksum ≠ "" ∧
      Matches checksums item bytes
  unwritten : ∀ path, Checked catalogue s.cacheDir path → ∀ i task failures handle,
    s.tasks i = some task → task.phase = .writing failures handle →
      s.fs.dir path ≠ some handle.file

/-- From the opening of the temporary file to its renaming. -/
def InUse : Phase → Prop
  | .writing _ _ => True
  | .written => True
  | .verified => True
  | _ => False

/-- A download opens a temporary file that no other has in use and that is not the final file of an
    item with a checksum, and a file without a checksum does not take the place of one with. -/
def Apart (s : Downloads) (call : Call) : Prop :=
  match call.event with
  | .respond i response => response.isSuccess = true → ∀ task, s.tasks i = some task →
    ¬ Checked catalogue s.cacheDir (task.item.temp s.cacheDir) ∧
      ∀ j other, j ≠ i → s.tasks j = some other → InUse other.phase →
        other.item.temp s.cacheDir ≠ task.item.temp s.cacheDir
  | .rename i => ∀ task, s.tasks i = some task → task.item.checksum = "" →
    ¬ Checked catalogue s.cacheDir (task.item.finalPath s.cacheDir)
  | _ => True

/-! ### The invariant -/

/-- What keeps the final files out of reach. -/
structure Inv (s : Downloads) : Prop where
  verified : ∀ path, Checked catalogue s.cacheDir path → ∀ bytes, s.fs.read path = some bytes →
    ∃ item ∈ s.completed, item.finalPath s.cacheDir = path ∧ item.checksum ≠ "" ∧
      Matches checksums item bytes
  /-- a temporary file in use is no final file of an item with a checksum -/
  temporary : ∀ i task, s.tasks i = some task → InUse task.phase →
    ¬ Checked catalogue s.cacheDir (task.item.temp s.cacheDir)
  exclusive : ∀ i j task other, s.tasks i = some task → s.tasks j = some other →
    InUse task.phase → InUse other.phase →
    task.item.temp s.cacheDir = other.item.temp s.cacheDir → i = j
  /-- an open file has the temporary path, or none -/
  own : ∀ i task failures handle, s.tasks i = some task → task.phase = .writing failures handle →
    handle.file < s.fs.next ∧
      ∀ path, s.fs.dir path = some handle.file → path = task.item.temp s.cacheDir
  ready : ∀ i task, s.tasks i = some task → task.phase = .verified → task.item.checksum ≠ "" →
    ∀ bytes, s.fs.read (task.item.temp s.cacheDir) = some bytes → Matches checksums task.item bytes

variable {checksums catalogue} {s t : Downloads} {i : Nat} {task : DownloadTask}
  {fs : FileSystem String UInt8} {phase : Phase}

theorem inUse_writing {failures : Nat} {handle : Handle} (h : phase = .writing failures handle) :
    InUse phase := by
  rw [h]
  trivial

theorem inUse_written (h : phase = .written) : InUse phase := by
  rw [h]
  trivial

theorem inUse_verified (h : phase = .verified) : InUse phase := by
  rw [h]
  trivial

theorem Inv.verifiedContent (h : Inv checksums catalogue s) :
    VerifiedContent checksums catalogue s where
  verified := h.verified
  unwritten path hchecked i task failures handle htask hphase hdir := by
    have hpath := (h.own i task failures handle htask hphase).2 path hdir
    exact h.temporary i task htask (inUse_writing hphase) (hpath ▸ hchecked)

/-- Paths that lead nowhere new, and files as they were. -/
structure Shrinks (fs fs' : FileSystem String UInt8) : Prop where
  dir : ∀ path file, fs'.dir path = some file → fs.dir path = some file
  content : fs'.content = fs.content
  next : fs'.next = fs.next

theorem Shrinks.refl (fs : FileSystem String UInt8) : Shrinks fs fs := ⟨fun _ _ h => h, rfl, rfl⟩

theorem shrinks_unlink (fs : FileSystem String UInt8) (path : String) :
    Shrinks fs (fs.unlink path) :=
  ⟨fun _ _ h => (FileSystem.dir_of_unlink h).2, rfl, rfl⟩

theorem Shrinks.read (h : Shrinks fs (Downloads.fs s)) {path : String} {bytes : List UInt8}
    (hread : s.fs.read path = some bytes) : fs.read path = some bytes := by
  obtain ⟨file, hdir, rfl⟩ := Option.map_eq_some_iff.mp hread
  rw [FileSystem.read, h.dir path file hdir, h.content]
  rfl

/-- Files may be removed and tasks may come, go and change, as long as none gets a file in use. -/
theorem Inv.shrink (h : Inv checksums catalogue s) (cacheDir : t.cacheDir = s.cacheDir)
    (shrinks : Shrinks s.fs t.fs) (completed : t.completed = s.completed)
    (tasks : ∀ i task, t.tasks i = some task → InUse task.phase → s.tasks i = some task) :
    Inv checksums catalogue t where
  verified path hchecked bytes hread := by
    rw [cacheDir] at hchecked ⊢
    rw [completed]
    exact h.verified path hchecked bytes (shrinks.read hread)
  temporary i task htask hphase := by
    rw [cacheDir]
    exact h.temporary i task (tasks i task htask hphase) hphase
  exclusive i j task other htask hother hphase hotherPhase hsame := by
    rw [cacheDir] at hsame
    exact h.exclusive i j task other (tasks i task htask hphase) (tasks j other hother hotherPhase)
      hphase hotherPhase hsame
  own i task failures handle htask hphase := by
    have huse : InUse task.phase := inUse_writing hphase
    obtain ⟨hlt, hdir⟩ := h.own i task failures handle (tasks i task htask huse) hphase
    rw [cacheDir, shrinks.next]
    exact ⟨hlt, fun path hpath => hdir path (shrinks.dir path _ hpath)⟩
  ready i task htask hphase hchecksum bytes hread := by
    have huse : InUse task.phase := inUse_verified hphase
    rw [cacheDir] at hread
    exact h.ready i task (tasks i task htask huse) hphase hchecksum bytes (shrinks.read hread)

theorem Inv.unlink (h : Inv checksums catalogue s) (path : String) :
    Inv checksums catalogue { s with fs := s.fs.unlink path } :=
  h.shrink rfl (shrinks_unlink _ _) rfl fun _ _ htask _ => htask

/-- A task that comes without a file in use. -/
theorem Inv.setIdle (h : Inv checksums catalogue s) (i : Nat) {task : Option DownloadTask}
    (idle : ∀ new, task = some new → ¬ InUse new.phase) (permits : Nat) :
    Inv checksums catalogue
      { s with tasks := Function.update s.tasks i task, permits := permits } := by
  refine h.shrink rfl (.refl _) rfl fun j other hother hphase => ?_
  obtain ⟨-, hnew⟩ | ⟨-, hold⟩ := of_update hother
  · exact absurd hphase (idle other hnew)
  · exact hold

theorem Inv.setPhase (h : Inv checksums catalogue s) (i : Nat) (task : DownloadTask) {phase : Phase}
    (idle : ¬ InUse phase) : Inv checksums catalogue (s.setPhase i task phase) := by
  refine h.setIdle i (fun new hnew => ?_) s.permits
  obtain rfl := Option.some.inj hnew
  exact idle

theorem Inv.endTask (h : Inv checksums catalogue s) (i : Nat) (task : DownloadTask) :
    Inv checksums catalogue (s.endTask i task) :=
  h.setIdle i (fun _ hnew => absurd hnew (by simp)) _

theorem not_inUse_afterFailure (failures : Nat) : ¬ InUse (afterFailure failures) := by
  unfold afterFailure
  split <;> exact id

/-! ### Opening, writing and renaming -/

/-- What opening the temporary file does to the files: it is the one the path led to, or a new
    one. -/
structure Opens (fs fs' : FileSystem String UInt8) (path : String) (file : Nat) : Prop where
  self : fs'.dir path = some file
  dir : ∀ other, other ≠ path → fs'.dir other = fs.dir other
  content : ∀ other, other ≠ file → fs'.content other = fs.content other
  next : fs.next ≤ fs'.next
  origin : fs.dir path = some file ∨ fs.next ≤ file

theorem opens_create (fs : FileSystem String UInt8) (path : String) :
    Opens fs (fs.create path).2 path (fs.create path).1 where
  self := FileSystem.dir_create_self
  dir _ hne := FileSystem.dir_create_of_ne hne
  content _ hne := FileSystem.content_create_of_ne hne
  next := FileSystem.next_le_create
  origin := FileSystem.create_fst.imp_right fun hnew => Nat.le_of_eq hnew.2.symm

theorem opens_append {fs : FileSystem String UInt8} {path : String} {file : Nat}
    (h : fs.dir path = some file) : Opens fs fs path file :=
  ⟨h, fun _ _ => rfl, fun _ _ => rfl, Nat.le_refl _, .inl h⟩

/-- Away from the opened file nothing changes. -/
theorem Opens.read {fs fs' : FileSystem String UInt8} {path other : String} {file : Nat}
    (h : Opens fs fs' path file) (hne : other ≠ path) : fs'.read other = fs.read other := by
  have hdir := h.dir other hne
  rw [FileSystem.read, FileSystem.read, hdir]
  cases hfile : fs.dir other with
  | none => rfl
  | some f =>
    have hother : f ≠ file := by
      rintro rfl
      exact hne (fs'.unique other path f (hdir.trans hfile) h.self)
    rw [Option.map_some, Option.map_some, h.content f hother]

theorem Inv.opens (h : Inv checksums catalogue s) {file failures : Nat} {offset : Option Nat}
    (opened : Opens s.fs fs (task.item.temp s.cacheDir) file)
    (unchecked : ¬ Checked catalogue s.cacheDir (task.item.temp s.cacheDir))
    (alone : ∀ j other, j ≠ i → s.tasks j = some other → InUse other.phase →
      other.item.temp s.cacheDir ≠ task.item.temp s.cacheDir) :
    Inv checksums catalogue
      (Downloads.setPhase { s with fs := fs } i task (.writing failures ⟨file, offset⟩)) := by
  -- a task after the step is the one that opened the file, or an old one with another path
  have htasks : ∀ j other, (Downloads.setPhase { s with fs := fs } i task
      (.writing failures ⟨file, offset⟩)).tasks j = some other → InUse other.phase →
      j = i ∧ other = { task with phase := .writing failures ⟨file, offset⟩ } ∨
      j ≠ i ∧ s.tasks j = some other ∧
        other.item.temp s.cacheDir ≠ task.item.temp s.cacheDir := by
    intro j other hother hphase
    refine (of_update hother).imp (fun hself => ⟨hself.1, ?_⟩)
      fun hold => ⟨hold.1, hold.2, alone j other hold.1 hold.2 hphase⟩
    exact (Option.some.inj hself.2).symm
  refine ⟨fun path hchecked bytes hread => ?_, fun j other hother hphase => ?_,
    fun j k other other' hother hother' hphase hphase' hsame => ?_,
    fun j other n handle hother hphase => ?_, fun j other hother hphase hchecksum bytes hread => ?_⟩
  · -- the opened file is no final one
    have hne : path ≠ task.item.temp s.cacheDir := by
      rintro rfl
      exact unchecked hchecked
    exact h.verified path hchecked bytes ((opened.read hne).symm.trans hread)
  · obtain ⟨rfl, rfl⟩ | ⟨-, hold, -⟩ := htasks j other hother hphase
    · exact unchecked
    · exact h.temporary j other hold hphase
  · obtain ⟨rfl, rfl⟩ | ⟨-, hold, hne⟩ := htasks j other hother hphase
    · obtain ⟨rfl, -⟩ | ⟨-, -, hne⟩ := htasks k other' hother' hphase'
      · rfl
      · exact absurd hsame.symm hne
    · obtain ⟨-, rfl⟩ | ⟨-, hold', -⟩ := htasks k other' hother' hphase'
      · exact absurd hsame hne
      · exact h.exclusive j k other other' hold hold' hphase hphase' hsame
  · obtain ⟨rfl, rfl⟩ | ⟨-, hold, -⟩ := htasks j other hother (inUse_writing hphase)
    · obtain ⟨rfl, rfl⟩ := Phase.writing.inj hphase
      exact ⟨fs.lt_next _ _ opened.self, fun path hpath => fs.unique _ _ _ hpath opened.self⟩
    · obtain ⟨hlt, hown⟩ := h.own j other n handle hold hphase
      refine ⟨Nat.lt_of_lt_of_le hlt opened.next, fun path hpath => ?_⟩
      by_cases hne : path = task.item.temp s.cacheDir
      · -- the file of another handle is not a new one
        have hfile : file = handle.file := by
          rw [hne] at hpath
          exact Option.some.inj (opened.self.symm.trans hpath)
        obtain horigin | hnew := opened.origin
        · exact hown path (by rw [hne, horigin, hfile])
        · omega
      · exact hown path ((opened.dir path hne).symm.trans hpath)
  · obtain ⟨rfl, rfl⟩ | ⟨-, hold, hne⟩ := htasks j other hother (inUse_verified hphase)
    · exact absurd hphase (by simp)
    · exact h.ready j other hold hphase hchecksum bytes ((opened.read hne).symm.trans hread)

/-- A write goes to the file with the temporary path of its task, or to one without a path. -/
theorem Inv.modify (h : Inv checksums catalogue s) {failures : Nat} {handle : Handle}
    (htask : s.tasks i = some task) (hphase : task.phase = .writing failures handle)
    (change : List UInt8 → List UInt8) :
    Inv checksums catalogue { s with fs := s.fs.modify handle.file change } := by
  have huse : InUse task.phase := inUse_writing hphase
  have hown := (h.own i task failures handle htask hphase).2
  have hread : ∀ path, path ≠ task.item.temp s.cacheDir →
      (s.fs.modify handle.file change).read path = s.fs.read path := by
    intro path hne
    rw [FileSystem.read, FileSystem.read, FileSystem.dir_modify]
    cases hfile : s.fs.dir path with
    | none => rfl
    | some file =>
      have hother : file ≠ handle.file := by
        rintro rfl
        exact hne (hown path hfile)
      rw [Option.map_some, Option.map_some, FileSystem.content_modify_of_ne hother]
  refine ⟨fun path hchecked bytes hbytes => ?_, h.temporary, h.exclusive, h.own,
    fun j other hother hverified hchecksum bytes hbytes => ?_⟩
  · have hne : path ≠ task.item.temp s.cacheDir := by
      rintro rfl
      exact h.temporary i task htask huse hchecked
    exact h.verified path hchecked bytes ((hread path hne).symm.trans hbytes)
  · -- a verified task would be the writing one
    have hne : other.item.temp s.cacheDir ≠ task.item.temp s.cacheDir := by
      intro hsame
      have hother_use : InUse other.phase := inUse_verified hverified
      obtain rfl := h.exclusive j i other task hother htask hother_use huse hsame
      obtain rfl := Option.some.inj (hother.symm.trans htask)
      rw [hphase] at hverified
      exact absurd hverified (by simp)
    exact h.ready j other hother hverified hchecksum bytes ((hread _ hne).symm.trans hbytes)

/-- A task that goes on with the file it has in use. -/
theorem Inv.advance (h : Inv checksums catalogue s) (htask : s.tasks i = some task)
    (use : InUse task.phase) {phase : Phase}
    (file : ∀ n handle, phase = .writing n handle →
      ∃ m old, task.phase = .writing m old ∧ old.file = handle.file)
    (ready : phase = .verified → task.item.checksum ≠ "" → ∀ bytes,
      s.fs.read (task.item.temp s.cacheDir) = some bytes → Matches checksums task.item bytes) :
    Inv checksums catalogue (s.setPhase i task phase) := by
  -- every task in use was in use before, with the same item
  have htasks : ∀ j other, (s.setPhase i task phase).tasks j = some other → InUse other.phase →
      ∃ old, s.tasks j = some old ∧ InUse old.phase ∧ old.item = other.item := by
    intro j other hother hphase
    obtain ⟨rfl, hnew⟩ | ⟨-, hold⟩ := of_update hother
    · obtain rfl := Option.some.inj hnew
      exact ⟨task, htask, use, rfl⟩
    · exact ⟨other, hold, hphase, rfl⟩
  refine ⟨h.verified, fun j other hother hphase => ?_,
    fun j k other other' hother hother' hphase hphase' hsame => ?_,
    fun j other n handle hother hphase => ?_,
    fun j other hother hphase hchecksum bytes hbytes => ?_⟩
  · obtain ⟨old, hold, huse, hitem⟩ := htasks j other hother hphase
    exact hitem ▸ h.temporary j old hold huse
  · obtain ⟨old, hold, huse, hitem⟩ := htasks j other hother hphase
    obtain ⟨old', hold', huse', hitem'⟩ := htasks k other' hother' hphase'
    rw [← hitem, ← hitem'] at hsame
    exact h.exclusive j k old old' hold hold' huse huse' hsame
  · obtain ⟨rfl, hnew⟩ | ⟨-, hold⟩ := of_update hother
    · obtain rfl := Option.some.inj hnew
      obtain ⟨m, old, hwriting, hfile⟩ := file n handle hphase
      have hown := h.own j task m old htask hwriting
      rw [hfile] at hown
      exact hown
    · exact h.own j other n handle hold hphase
  · obtain ⟨rfl, hnew⟩ | ⟨-, hold⟩ := of_update hother
    · obtain rfl := Option.some.inj hnew
      exact ready hphase hchecksum bytes hbytes
    · exact h.ready j other hold hphase hchecksum bytes hbytes

/-- The temporary file takes its final place, and its task ends. -/
theorem Inv.rename (h : Inv checksums catalogue s) (htask : s.tasks i = some task)
    (hphase : task.phase = .verified)
    (checked : task.item.checksum = "" →
      ¬ Checked catalogue s.cacheDir (task.item.finalPath s.cacheDir))
    (cacheDir : t.cacheDir = s.cacheDir)
    (fs : t.fs = s.fs.rename (task.item.temp s.cacheDir) (task.item.finalPath s.cacheDir))
    (tasks : t.tasks = Function.update s.tasks i none)
    (completed : t.completed = s.completed ++ [task.item]) : Inv checksums catalogue t := by
  have huse : InUse task.phase := inUse_verified hphase
  have htasks : ∀ j other, t.tasks j = some other → j ≠ i ∧ s.tasks j = some other := by
    intro j other hother
    rw [tasks] at hother
    exact (of_update hother).resolve_left fun hself => absurd hself.2 (by simp)
  -- no other temporary file in use is the final path: it would be this one
  have hfinal : ∀ j other, j ≠ i → s.tasks j = some other → InUse other.phase →
      other.item.temp s.cacheDir ≠ task.item.finalPath s.cacheDir := by
    intro j other hj hother hother_use hsame
    have htemp : other.item.temp s.cacheDir = task.item.temp s.cacheDir := by
      rw [← CacheItem.tempPath_temp, hsame, CacheItem.temp]
    exact hj (h.exclusive j i other task hother htask hother_use huse htemp)
  have hread : ∀ path bytes, path ≠ task.item.finalPath s.cacheDir → t.fs.read path = some bytes →
      s.fs.read path = some bytes := by
    intro path bytes hne hbytes
    rw [fs] at hbytes
    exact ((FileSystem.read_of_rename hbytes).resolve_left fun hself => hne hself.1).2
  refine ⟨fun path hchecked bytes hbytes => ?_, fun j other hother hphase' => ?_,
    fun j k other other' hother hother' => ?_, fun j other n handle hother hwriting => ?_,
    fun j other hother hverified hchecksum bytes hbytes => ?_⟩
  · rw [cacheDir] at hchecked ⊢
    rw [completed]
    by_cases hpath : path = task.item.finalPath s.cacheDir
    · -- the renamed file was verified, unless its item has no checksum
      rw [hpath] at hchecked hbytes ⊢
      have hchecksum : task.item.checksum ≠ "" := fun hnone => checked hnone hchecked
      rw [fs] at hbytes
      obtain ⟨-, hsource⟩ | ⟨hne, -⟩ := FileSystem.read_of_rename hbytes
      · exact ⟨task.item, List.mem_append_right _ (List.mem_singleton.mpr rfl), rfl, hchecksum,
          h.ready i task htask hphase hchecksum bytes hsource⟩
      · exact absurd rfl hne
    · obtain ⟨item, hitem, hrest⟩ := h.verified path hchecked bytes (hread path bytes hpath hbytes)
      exact ⟨item, List.mem_append_left _ hitem, hrest⟩
  · rw [cacheDir]
    exact h.temporary j other (htasks j other hother).2 hphase'
  · rw [cacheDir]
    exact h.exclusive j k other other' (htasks j other hother).2 (htasks k other' hother').2
  · obtain ⟨hj, hold⟩ := htasks j other hother
    obtain ⟨hlt, hown⟩ := h.own j other n handle hold hwriting
    have hother_use : InUse other.phase := inUse_writing hwriting
    rw [fs, cacheDir, FileSystem.next_rename]
    refine ⟨hlt, fun path hdir => ?_⟩
    obtain ⟨-, hsource⟩ | ⟨-, hbefore⟩ := FileSystem.dir_of_rename hdir
    · -- another handle to the renamed file would have its temporary path
      have hsame := hown _ hsource
      exact absurd (h.exclusive j i other task hold htask hother_use huse hsame.symm) hj
    · exact hown path hbefore
  · obtain ⟨hj, hold⟩ := htasks j other hother
    have hother_use : InUse other.phase := inUse_verified hverified
    rw [cacheDir] at hbytes
    exact h.ready j other hold hverified hchecksum bytes
      (hread _ bytes (hfinal j other hj hold hother_use) hbytes)

/-! ### One step, and a run -/

theorem inv_start (h : Inv checksums catalogue s) (i : Nat) (item : CacheItem) :
    Inv checksums catalogue (s.start checksums i item) := by
  have hwaiting : ∀ {s : Downloads}, Inv checksums catalogue s → Inv checksums catalogue
      { s with tasks := Function.update s.tasks i (some ⟨item, .waiting⟩) } := by
    intro s hs
    refine hs.setIdle i (fun new hnew => ?_) s.permits
    obtain rfl := Option.some.inj hnew
    exact id
  unfold start
  dsimp only
  split
  · exact hwaiting h
  · split
    · exact h
    · split
      · exact hwaiting h
      · exact hwaiting (h.unlink _)

theorem inv_respond (h : Inv checksums catalogue s) {refuses : String → Bool} {failures start : Nat}
    {response : Response}
    (apart : response.isSuccess = true →
      ¬ Checked catalogue s.cacheDir (task.item.temp s.cacheDir) ∧
        ∀ j other, j ≠ i → s.tasks j = some other → InUse other.phase →
          other.item.temp s.cacheDir ≠ task.item.temp s.cacheDir) :
    Inv checksums catalogue (s.respond refuses i task failures start response) := by
  have hfailed : ∀ {s : Downloads}, Inv checksums catalogue s →
      Inv checksums catalogue (s.setPhase i task (afterFailure failures)) :=
    fun hs => hs.setPhase i task (not_inUse_afterFailure failures)
  unfold respond
  dsimp only
  split
  · split
    · exact hfailed h
    · exact hfailed (h.unlink _)
  · split
    · next hsuccess =>
      obtain ⟨hunchecked, halone⟩ := apart hsuccess
      split
      · split
        · next file hfile => exact h.opens (opens_append hfile) hunchecked halone
        · exact hfailed h
      · exact h.opens (opens_create s.fs _) hunchecked halone
    · exact hfailed h

theorem inv_writeChunk (h : Inv checksums catalogue s) (htask : s.tasks i = some task)
    {failures : Nat} {handle : Handle} (hphase : task.phase = .writing failures handle)
    (bytes : List UInt8) : Inv checksums catalogue (s.writeChunk i task failures handle bytes) := by
  unfold writeChunk
  split
  · exact h.modify htask hphase _
  · refine (h.modify htask hphase _).advance htask (inUse_writing hphase) ?_ ?_
    · intro n new hnew
      obtain ⟨-, rfl⟩ := Phase.writing.inj hnew
      exact ⟨failures, handle, hphase, rfl⟩
    · exact fun hverified => absurd hverified (by simp)

theorem inv_verify (h : Inv checksums catalogue s) (htask : s.tasks i = some task)
    (hphase : task.phase = .written) : Inv checksums catalogue (s.verify checksums i task) := by
  unfold verify
  split
  · next hverify =>
    refine h.advance htask (inUse_written hphase) (fun n new hnew => absurd hnew (by simp)) ?_
    intro _ hchecksum bytes hbytes
    unfold Checksums.verify at hverify
    rw [if_neg hchecksum, hbytes] at hverify
    have hsame : checksums.toLowercase (checksums.calculate bytes) =
        checksums.toLowercase task.item.checksum := of_decide_eq_true hverify
    exact hsame
  · exact h.setPhase i task id

theorem inv_rename (h : Inv checksums catalogue s) (htask : s.tasks i = some task)
    (hphase : task.phase = .verified)
    (checked : task.item.checksum = "" →
      ¬ Checked catalogue s.cacheDir (task.item.finalPath s.cacheDir)) :
    Inv checksums catalogue (s.rename i task) := by
  unfold rename
  dsimp only
  split
  · exact h.setPhase i task id
  · exact h.rename htask hphase checked (by simp) (by simp) (by simp) (by simp)

theorem inv_cleanUp (h : Inv checksums catalogue s) (refuses : String → Bool) (i : Nat)
    (task : DownloadTask) : Inv checksums catalogue (s.cleanUp refuses i task) := by
  unfold cleanUp
  dsimp only
  split
  · exact h.endTask i task
  · split
    · exact h.endTask i task
    · exact (h.unlink _).endTask i task

theorem inv_taskStep (h : Inv checksums catalogue s) {refuses : String → Bool} {event : Event}
    (htask : s.tasks i = some task) (hevent : event.task = some i)
    (apart : Apart catalogue s ⟨event, refuses⟩)
    (enabled : s.taskStep checksums refuses i task event = some t) :
    Inv checksums catalogue t := by
  have hidle : ∀ {phase : Phase}, ¬ InUse phase → some (s.setPhase i task phase) = some t →
      Inv checksums catalogue t :=
    fun hphase heq => Option.some.inj heq ▸ h.setPhase i task hphase
  cases event with
  | start => exact absurd hevent (by simp [Event.task])
  | unlink => exact absurd hevent (by simp [Event.task])
  | acquire =>
    simp only [taskStep] at enabled
    split at enabled
    · obtain rfl := Option.some.inj enabled
      refine h.setIdle i (fun new hnew => ?_) _
      obtain rfl := Option.some.inj hnew
      exact id
    · exact absurd enabled (by simp)
  | request =>
    simp only [taskStep] at enabled
    split at enabled
    · exact hidle id enabled
    · exact absurd enabled (by simp)
  | respond j response =>
    obtain rfl : j = i := Option.some.inj hevent
    simp only [taskStep] at enabled
    split at enabled
    · obtain rfl := Option.some.inj enabled
      exact inv_respond h fun hsuccess => apart hsuccess task htask
    · exact absurd enabled (by simp)
  | writeChunk j bytes =>
    simp only [taskStep] at enabled
    split at enabled
    · next hphase =>
      obtain rfl := Option.some.inj enabled
      exact inv_writeChunk h htask hphase bytes
    · exact absurd enabled (by simp)
  | finish =>
    simp only [taskStep] at enabled
    split at enabled
    · next hphase =>
      obtain rfl := Option.some.inj enabled
      exact h.advance htask (inUse_writing hphase) (fun _ _ hnew => absurd hnew (by simp))
        fun hverified => absurd hverified (by simp)
    · exact absurd enabled (by simp)
  | ioError =>
    simp only [taskStep] at enabled
    split at enabled
    · exact hidle (not_inUse_afterFailure _) enabled
    · exact hidle (not_inUse_afterFailure _) enabled
    · exact hidle (not_inUse_afterFailure _) enabled
    · exact hidle id enabled
    · exact hidle id enabled
    · exact absurd enabled (by simp)
  | verify =>
    simp only [taskStep] at enabled
    split at enabled
    · next hphase =>
      obtain rfl := Option.some.inj enabled
      exact inv_verify h htask hphase
    · exact absurd enabled (by simp)
  | rename j =>
    obtain rfl : j = i := Option.some.inj hevent
    simp only [taskStep] at enabled
    split at enabled
    · next hphase =>
      obtain rfl := Option.some.inj enabled
      exact inv_rename h htask hphase (apart task htask)
    · exact absurd enabled (by simp)
  | cleanUp =>
    simp only [taskStep] at enabled
    split at enabled
    · obtain rfl := Option.some.inj enabled
      exact inv_cleanUp h refuses i task
    · exact absurd enabled (by simp)
  | cut =>
    obtain rfl := Option.some.inj enabled
    exact h.endTask i task

/-- **Step lemma.** -/
theorem inv_step {call : Call} (h : Inv checksums catalogue s) (apart : Apart catalogue s call)
    (enabled : step checksums s call = some t) : Inv checksums catalogue t := by
  obtain ⟨event, refuses⟩ := call
  have htaskStep : (event.task.bind fun i => (s.tasks i).bind fun task =>
      s.taskStep checksums refuses i task event) = some t → Inv checksums catalogue t := by
    intro h'
    obtain ⟨i, hevent, hrest⟩ := Option.bind_eq_some_iff.mp h'
    obtain ⟨task, htask, hstep⟩ := Option.bind_eq_some_iff.mp hrest
    exact inv_taskStep h htask hevent apart hstep
  cases event with
  | start i item =>
    unfold step at enabled
    dsimp only at enabled
    split at enabled
    · obtain rfl := Option.some.inj enabled
      exact inv_start h i item
    · exact absurd enabled (by simp)
  | unlink path =>
    obtain rfl := Option.some.inj enabled
    exact h.unlink path
  | _ => exact htaskStep enabled

/-- Without downloads under way, verified files are all there is to the invariant. -/
theorem inv_of_idle (idle : ∀ i, s.tasks i = none) (h : VerifiedContent checksums catalogue s) :
    Inv checksums catalogue s where
  verified := h.verified
  temporary i _ htask := absurd ((idle i).symm.trans htask) (by simp)
  exclusive i _ _ _ htask := absurd ((idle i).symm.trans htask) (by simp)
  own i _ _ _ htask := absurd ((idle i).symm.trans htask) (by simp)
  ready i _ htask := absurd ((idle i).symm.trans htask) (by simp)

/-- **Cached files are verified in runs of downloads that keep apart.**  From every cache without
    downloads under way whose files are verified (an empty one, for instance), every interleaving
    of steps. -/
theorem verifiedContent_of_apart {calls : List Call} (idle : ∀ i, s.tasks i = none)
    (start : VerifiedContent checksums catalogue s)
    (run : Guarded (step checksums) (Apart catalogue) s calls t) :
    VerifiedContent checksums catalogue t :=
  (run.invariant (inv_of_idle idle start) fun _ _ _ => inv_step).verifiedContent

/-! ### One download, and two of one item -/

/-- SHA-256 of the contents below. -/
def sha256 : Checksums where
  calculate bytes :=
    if bytes = [97, 98] then "fb8e20fc2e4c3f248c60c39bd652f3c1347298bb977b8b4d5903b85055620603"
    else if bytes = [97, 98, 98] then
      "715edf8ba8729420cd4d1ce85ed61954a9f531f8c548df728c407effe839296d"
    else ""
  toLowercase s := String.ofList (s.toList.map Char.toLower)

def clipItem : CacheItem where
  kind := .media
  id := 7
  filename := "clip.mp4"
  checksum := "fb8e20fc2e4c3f248c60c39bd652f3c1347298bb977b8b4d5903b85055620603"

/-- An empty cache. -/
def emptyCache : Downloads where
  cacheDir := "/cache"
  fs := .empty
  permits := 2
  tasks := fun _ => none
  completed := []

/-- An event without failing deletions. -/
def quietly (event : Event) : Call := ⟨event, fun _ => false⟩

theorem verifiedContent_emptyCache : VerifiedContent sha256 {clipItem} emptyCache where
  verified _ _ _ hread := absurd hread (by simp [FileSystem.read, emptyCache, FileSystem.empty])
  unwritten _ _ _ _ _ _ htask := absurd htask (by simp [emptyCache])

/-- A download that opens its temporary file keeps apart. -/
theorem verifiedContent_of_apart_clip :
    ∃ t, Guarded (step sha256) (Apart {clipItem}) emptyCache
        ([.start 0 clipItem, .acquire 0, .request 0, .respond 0 (.status 200)].map quietly) t ∧
      VerifiedContent sha256 {clipItem} t := by
  have hrun : ∃ t, Guarded (step sha256) (Apart {clipItem}) emptyCache
      ([.start 0 clipItem, .acquire 0, .request 0, .respond 0 (.status 200)].map quietly) t := by
    refine ⟨_, .cons trivial rfl (.cons trivial rfl (.cons trivial rfl (.cons ?_ rfl .nil)))⟩
    intro _ task htask
    obtain rfl := Option.some.inj htask
    refine ⟨?_, fun j other hj hother _ => ?_⟩
    · rintro ⟨item, hitem, -, hpath⟩
      obtain rfl : item = clipItem := hitem
      exact absurd hpath (by decide)
    · -- the other tasks are those of the start
      obtain ⟨-, hother⟩ := (of_update hother).resolve_left fun hself => hj hself.1
      obtain ⟨-, hother⟩ := (of_update hother).resolve_left fun hself => hj hself.1
      obtain ⟨-, hother⟩ := (of_update hother).resolve_left fun hself => hj hself.1
      exact absurd hother (by simp [emptyCache])
  obtain ⟨t, hrun⟩ := hrun
  exact ⟨t, hrun, verifiedContent_of_apart (fun _ => rfl) verifiedContent_emptyCache hrun⟩

/-- **Counterexample.** Two downloads of one item share a temporary file: the second appends to it
    while the first is at work, and still does after the first verified and renamed it. -/
theorem not_verifiedContent_twice :
    ∃ t, exec (step sha256) emptyCache ([.start 0 clipItem, .start 1 clipItem, .acquire 0,
        .acquire 1, .request 0, .respond 0 (.status 200), .writeChunk 0 [97], .request 1,
        .respond 1 (.status 206), .writeChunk 0 [98], .finish 0, .verify 0, .rename 0,
        .writeChunk 1 [98]].map quietly) = some t ∧
      t.completed = [clipItem] ∧ t.fs.read "/cache/7_clip.mp4" = some [97, 98, 98] ∧
      ¬ VerifiedContent sha256 {clipItem} t := by
  have hrun : (exec (step sha256) emptyCache ([.start 0 clipItem, .start 1 clipItem, .acquire 0,
      .acquire 1, .request 0, .respond 0 (.status 200), .writeChunk 0 [97], .request 1,
      .respond 1 (.status 206), .writeChunk 0 [98], .finish 0, .verify 0, .rename 0,
      .writeChunk 1 [98]].map quietly)).map
        (fun t => (t.cacheDir, t.completed, t.fs.read "/cache/7_clip.mp4")) =
      some ("/cache", [clipItem], some [97, 98, 98]) := by decide +kernel
  obtain ⟨t, ht, hfields⟩ := Option.map_eq_some_iff.mp hrun
  obtain ⟨hdir, hcompleted, hread⟩ : t.cacheDir = "/cache" ∧ t.completed = [clipItem] ∧
      t.fs.read "/cache/7_clip.mp4" = some [97, 98, 98] := by simpa using hfields
  refine ⟨t, ht, hcompleted, hread, fun content => ?_⟩
  have hchecked : Checked {clipItem} t.cacheDir "/cache/7_clip.mp4" := by
    rw [hdir]
    exact ⟨clipItem, rfl, by decide, by decide⟩
  obtain ⟨item, hitem, -, -, hmatches⟩ := content.verified _ hchecked _ hread
  rw [hcompleted] at hitem
  obtain rfl := List.mem_singleton.mp hitem
  exact absurd hmatches (by unfold Matches; decide)

end Downloads

end Montr.Client
