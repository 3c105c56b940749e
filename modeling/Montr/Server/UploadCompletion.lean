import Mathlib.Logic.Function.Basic
import Montr.Lib.Transition
import Montr.Server.Database

namespace Montr.Server

open Function Transition

/-!
# The upload-completion queue

`UploadCompletionQueueService` and `mediaService.processUploadCompletionJob` as a transition
system with one step for each awaited call, so that the process can stop between any two.
One job runs at a time (`runLoop` awaits `runOne`).

* `UploadServer.advance` — the awaited calls of a job, in order, each with its outcome;
* `UploadServer.Sound` — no media row has lost its file, and the content of a job marked done
  or duplicate has exactly one row;
* `sound_of_noHalfFinished` — the runs in which this holds throughout.  A job is rerun from the
  beginning, and the duplicate branch deletes the job's own file: a rerun must not meet the row
  that an earlier pass of the same job inserted.

`γ` is the type of file contents and `sha256` the digest; a digest is never empty, so
`checksum || null` is the checksum.  Subtitle rows, thumbnail jobs and notifications are read
by nothing here: their calls are steps without an effect.
-/

variable {γ : Type}

/-- The columns of `upload_completion_jobs` that never change, and the uploaded content. -/
structure Upload (γ : Type) where
  id : Nat
  storageKey : String
  originalFilename : String
  mimeType : String
  totalSize : Nat
  folderId : Option Nat
  content : γ
  deriving DecidableEq, Repr

/-- `state`, with the columns that go with it. -/
inductive JobState
  | queued
  | running
  | done (mediaId : Nat)
  | duplicate (existingMediaId : Nat)
  | failed (lastError : String)
  deriving DecidableEq, Repr

/-- Done or duplicate. -/
def JobState.isFinished : JobState → Bool
  | done _ => true
  | duplicate _ => true
  | _ => false

/-- What ffprobe or sharp find. -/
structure MediaMetadata where
  duration : Option Rat := none
  width : Option Nat := none
  height : Option Nat := none
  deriving DecidableEq, Repr

/-- The next awaited call of a job. -/
inductive Phase
  | checkFolder
  /-- delete the file of a job whose folder is gone -/
  | discardOrphan (folderId : Nat)
  /-- read the file, through a temp file with the `spaces` backend -/
  | readFile
  | lookup (checksum : String)
  /-- delete the file of a duplicate -/
  | discardDuplicate (existingMediaId : Nat)
  | extract (checksum : String)
  | create (checksum : String) (metadata : MediaMetadata)
  | subtitles (mediaId : Nat)
  | thumbnail (mediaId : Nat)
  | markDone (mediaId : Nat)
  | markDuplicate (existingMediaId : Nat)
  | markFailed (error : String)
  deriving DecidableEq, Repr

/-- The server process. -/
inductive Process (γ : Type)
  | down
  | idle
  | busy (job : Upload γ) (phase : Phase)
  deriving DecidableEq, Repr

/-- Storage, tables and process; `uploads` is in the order of `created_at`. -/
structure UploadServer (γ : Type) where
  uploads : List (Upload γ)
  states : Nat → JobState
  files : String → Option γ
  media : MediaTable
  folders : List Nat
  process : Process γ

/-- What can happen next. -/
inductive UploadStep
  /-- the process starts -/
  | start
  /-- `runLoop` claims the next job -/
  | claim
  /-- the running job's next call; whether it succeeds, and what extraction finds -/
  | advance (ok : Bool) (extracted : MediaMetadata)
  /-- the process stops -/
  | stop
  /-- folders are deleted -/
  | deleteFolders (folderIds : List Nat)
  deriving DecidableEq, Repr

/-- `path.basename`. -/
def basename (path : String) : String :=
  String.ofList (path.toList.reverse.takeWhile (· ≠ '/')).reverse

/-- `getMediaType`; `none` where it throws. -/
def mediaTypeOf (mimeType : String) : Option MediaType :=
  if "video/".toList.isPrefixOf mimeType.toList then some .video
  else if "image/".toList.isPrefixOf mimeType.toList then some .image
  else none

/-- The first call of a job. -/
def Upload.firstPhase (u : Upload γ) : Phase :=
  match mediaTypeOf u.mimeType with
  | none => .markFailed s!"Unsupported media type: {u.mimeType}"
  | some _ => if u.folderId.isSome then .checkFolder else .readFile

/-- The `CreateMediaInput` of a job, as the row it becomes. -/
def Upload.mediaRow (u : Upload γ) (checksum : String) (metadata : MediaMetadata) : MediaFile where
  id := 0
  filename := basename u.storageKey
  originalFilename := u.originalFilename
  filepath := u.storageKey
  type := (mediaTypeOf u.mimeType).getD .image
  mimeType := if u.mimeType = "" then none else some u.mimeType
  fileSize := if u.totalSize = 0 then none else some u.totalSize
  duration := metadata.duration
  width := metadata.width
  height := metadata.height
  checksum := some checksum
  approvalStatus := .pending
  folderId := u.folderId

namespace UploadServer

variable (sha256 : γ → String)

def goto (s : UploadServer γ) (u : Upload γ) (phase : Phase) : UploadServer γ :=
  { s with process := .busy u phase }

/-- The job is marked and the loop goes on. -/
def mark (s : UploadServer γ) (u : Upload γ) (state : JobState) : UploadServer γ :=
  { s with states := update s.states u.id state, process := .idle }

/-- `storageService.deleteFile(..).catch(() => ..)`. -/
def deleteFile (s : UploadServer γ) (key : String) (ok : Bool) : UploadServer γ :=
  if ok then { s with files := update s.files key none } else s

/-- `createMedia`; the folder of the row is a foreign key. -/
def createMedia (s : UploadServer γ) (u : Upload γ) (checksum : String)
    (metadata : MediaMetadata) : Option (UploadServer γ × Nat) :=
  if u.folderId.all s.folders.contains then
    (s.media.insert (u.mediaRow checksum metadata) checksum).map fun (media, id) =>
      ({ s with media := media }, id)
  else none

/-- The awaited calls of a job.  A call that fails sends it to `markFailed`, unless the source
    swallows the failure. -/
def advance (s : UploadServer γ) (u : Upload γ) (ok : Bool) (extracted : MediaMetadata) :
    Phase → UploadServer γ
  | .checkFolder =>
    if ok then
      match u.folderId with
      | some folderId =>
        if s.folders.contains folderId then s.goto u .readFile
        else s.goto u (.discardOrphan folderId)
      | none => s.goto u .readFile
    else s.goto u (.markFailed "query failed")
  | .discardOrphan folderId =>
    (s.deleteFile u.storageKey ok).goto u (.markFailed s!"Folder with ID {folderId} not found")
  | .readFile =>
    match s.files u.storageKey with
    | some content =>
      if ok then s.goto u (.lookup (sha256 content)) else s.goto u (.markFailed "read failed")
    | none => s.goto u (.markFailed "file not found")
  | .lookup checksum =>
    if ok then
      match s.media.findByChecksum checksum with
      | some existing => s.goto u (.discardDuplicate existing.id)
      | none => s.goto u (.extract checksum)
    else s.goto u (.markFailed "query failed")
  | .discardDuplicate existing =>
    (s.deleteFile u.storageKey ok).goto u (.markDuplicate existing)
  | .extract checksum => s.goto u (.create checksum (if ok then extracted else {}))
  | .create checksum metadata =>
    match s.createMedia u checksum metadata with
    | some (s, mediaId) => s.goto u (.subtitles mediaId)
    | none => s.goto u (.markFailed "insert failed")
  | .subtitles mediaId => s.goto u (.thumbnail mediaId)
  | .thumbnail mediaId => s.goto u (.markDone mediaId)
  | .markDone mediaId =>
    if ok then s.mark u (.done mediaId) else s.goto u (.markFailed "update failed")
  | .markDuplicate existing =>
    if ok then s.mark u (.duplicate existing) else s.goto u (.markFailed "update failed")
  | .markFailed error =>
    -- if this fails too the job stays running, and the loop goes on
    if ok then s.mark u (.failed (error.take 2000).copy) else { s with process := .idle }

/-- `requeueRunningUploadCompletionJobs`. -/
def requeueRunning (s : UploadServer γ) : UploadServer γ :=
  { s with states := fun id => if s.states id = .running then .queued else s.states id }

/-- `claimNextUploadCompletionJob`: the oldest queued job. -/
def nextQueued (s : UploadServer γ) : Option (Upload γ) :=
  s.uploads.find? fun u => s.states u.id == .queued

/-- One step. -/
def step (s : UploadServer γ) : UploadStep → Option (UploadServer γ)
  | .start =>
    match s.process with
    | .down => some { s.requeueRunning with process := .idle }
    | _ => none
  | .claim =>
    match s.process with
    | .idle => s.nextQueued.map fun u =>
        { s with states := update s.states u.id .running, process := .busy u u.firstPhase }
    | _ => none
  | .advance ok extracted =>
    match s.process with
    | .busy u phase => some (s.advance sha256 u ok extracted phase)
    | _ => none
  | .stop => some { s with process := .down }
  | .deleteFolders folderIds =>
    some { s with
      folders := s.folders.filter fun id => !folderIds.contains id
      media := s.media.clearFolders folderIds }

/-- **Crash safety of a state**: every media row's file exists, and the content of every
    finished job has exactly one media row. -/
def Sound (s : UploadServer γ) : Prop :=
  (∀ row ∈ s.media.rows, (s.files row.filepath).isSome = true) ∧
  ∀ u ∈ s.uploads, (s.states u.id).isFinished = true →
    (s.media.rows.filter (·.checksum == some (sha256 u.content))).length = 1

/-- Some uploads have been queued: each has its own id and file, to which no media row refers
    yet, and the files of the media rows exist. -/
structure Initial (s : UploadServer γ) : Prop where
  id_inj : ∀ u ∈ s.uploads, ∀ v ∈ s.uploads, u.id = v.id → u = v
  key_inj : ∀ u ∈ s.uploads, ∀ v ∈ s.uploads, u.storageKey = v.storageKey → u = v
  stored : ∀ u ∈ s.uploads, s.files u.storageKey = some u.content
  unreferenced : ∀ u ∈ s.uploads, ∀ row ∈ s.media.rows, row.filepath ≠ u.storageKey
  rows_stored : ∀ row ∈ s.media.rows, (s.files row.filepath).isSome = true
  queued : ∀ u ∈ s.uploads, s.states u.id = .queued
  down : s.process = .down

/-- When the process starts, no job still marked running has its media row already. -/
def NoHalfFinished (s : UploadServer γ) : UploadStep → Prop
  | .start => ∀ u ∈ s.uploads, s.states u.id = .running →
      ∀ row ∈ s.media.rows, row.filepath ≠ u.storageKey
  | _ => True

/-! ### The invariant -/

/-- No media row refers to the upload's file. -/
def Unreferenced (s : UploadServer γ) (u : Upload γ) : Prop :=
  ∀ row ∈ s.media.rows, row.filepath ≠ u.storageKey

/-- Some media row has the upload's checksum. -/
def HasRow (s : UploadServer γ) (u : Upload γ) : Prop :=
  ∃ row ∈ s.media.rows, row.checksum = some (sha256 u.content)

/-- What holds whatever the process is doing. -/
structure Stable (s : UploadServer γ) : Prop where
  id_inj : ∀ u ∈ s.uploads, ∀ v ∈ s.uploads, u.id = v.id → u = v
  key_inj : ∀ u ∈ s.uploads, ∀ v ∈ s.uploads, u.storageKey = v.storageKey → u = v
  contents : ∀ u ∈ s.uploads, ∀ c, s.files u.storageKey = some c → c = u.content
  rows_stored : ∀ row ∈ s.media.rows, (s.files row.filepath).isSome = true
  queued : ∀ u ∈ s.uploads, s.states u.id = .queued → s.Unreferenced u
  finished : ∀ u ∈ s.uploads, (s.states u.id).isFinished = true → s.HasRow sha256 u

/-- What holds of the running job at each of its calls.  Up to the insert its file is referred
    to by no row, so that deleting it is safe; from the insert or the duplicate lookup on, a row
    has its checksum. -/
def AtPhase (s : UploadServer γ) (u : Upload γ) : Phase → Prop
  | .checkFolder => s.Unreferenced u
  | .discardOrphan _ => s.Unreferenced u
  | .readFile => s.Unreferenced u
  | .lookup checksum =>
    s.Unreferenced u ∧ (s.files u.storageKey).isSome = true ∧ checksum = sha256 u.content
  | .extract checksum =>
    s.Unreferenced u ∧ (s.files u.storageKey).isSome = true ∧ checksum = sha256 u.content
  | .create checksum _ =>
    s.Unreferenced u ∧ (s.files u.storageKey).isSome = true ∧ checksum = sha256 u.content
  | .discardDuplicate _ => s.Unreferenced u ∧ s.HasRow sha256 u
  | .subtitles _ => s.HasRow sha256 u
  | .thumbnail _ => s.HasRow sha256 u
  | .markDone _ => s.HasRow sha256 u
  | .markDuplicate _ => s.HasRow sha256 u
  | .markFailed _ => True

/-- The invariant. -/
structure Inv (s : UploadServer γ) : Prop where
  stable : s.Stable sha256
  busy : ∀ u phase, s.process = .busy u phase →
    u ∈ s.uploads ∧ s.states u.id = .running ∧ s.AtPhase sha256 u phase

variable {sha256 : γ → String} {s t : UploadServer γ} {u : Upload γ}

theorem Stable.sound (h : s.Stable sha256) : s.Sound sha256 := by
  refine ⟨h.rows_stored, fun u hu hfinished => ?_⟩
  obtain ⟨row, hrow, hsum⟩ := h.finished u hu hfinished
  exact MediaTable.length_filter_checksum hrow hsum

theorem Initial.stable (h : s.Initial) : s.Stable sha256 where
  id_inj := h.id_inj
  key_inj := h.key_inj
  contents u hu c hc := Option.some.inj (hc.symm.trans (h.stored u hu))
  rows_stored := h.rows_stored
  queued u hu _ := h.unreferenced u hu
  finished u hu hfinished := by
    rw [h.queued u hu] at hfinished
    exact Bool.noConfusion hfinished

/-- A process that is not at a job has no more to keep. -/
theorem Stable.inv (h : s.Stable sha256) {process : Process γ}
    (free : ∀ u phase, process ≠ .busy u phase) : Inv sha256 { s with process := process } :=
  ⟨⟨h.id_inj, h.key_inj, h.contents, h.rows_stored, h.queued, h.finished⟩,
    fun u phase hbusy => absurd hbusy (free u phase)⟩

theorem Initial.inv (h : s.Initial) : s.Inv sha256 :=
  h.stable.inv fun u phase => by
    rw [h.down]
    exact nofun

/-! ### What each effect keeps -/

/-- Deleting a file that no row refers to. -/
theorem Stable.deleteFile (h : s.Stable sha256) (free : s.Unreferenced u) (ok : Bool) :
    (s.deleteFile u.storageKey ok).Stable sha256 := by
  cases ok with
  | false => exact h
  | true =>
    refine ⟨h.id_inj, h.key_inj, ?_, ?_, h.queued, h.finished⟩
    · -- what is left has its content
      intro v hv c hc
      replace hc : update s.files u.storageKey none v.storageKey = some c := hc
      by_cases hkey : v.storageKey = u.storageKey
      · rw [hkey, update_self] at hc
        exact absurd hc nofun
      · rw [update_of_ne hkey] at hc
        exact h.contents v hv c hc
    · intro row hrow
      show (update s.files u.storageKey none row.filepath).isSome = true
      rw [update_of_ne (free row hrow)]
      exact h.rows_stored row hrow

/-- The job's state changes; if it becomes finished, a row has its checksum. -/
theorem Stable.setState (h : s.Stable sha256) (hu : u ∈ s.uploads) {state : JobState}
    (notQueued : state ≠ .queued) (row : state.isFinished = true → s.HasRow sha256 u)
    (process : Process γ) :
    Stable sha256 { s with states := update s.states u.id state, process := process } := by
  refine ⟨h.id_inj, h.key_inj, h.contents, h.rows_stored, ?_, ?_⟩
  · intro v hv hqueued
    replace hqueued : update s.states u.id state v.id = .queued := hqueued
    by_cases hid : v.id = u.id
    · rw [hid, update_self] at hqueued
      exact absurd hqueued notQueued
    · rw [update_of_ne hid] at hqueued
      exact h.queued v hv hqueued
  · intro v hv hfinished
    replace hfinished : (update s.states u.id state v.id).isFinished = true := hfinished
    by_cases hid : v.id = u.id
    · rw [hid, update_self] at hfinished
      obtain rfl := h.id_inj v hv u hu hid
      exact row hfinished
    · rw [update_of_ne hid] at hfinished
      exact h.finished v hv hfinished

/-- Requeueing, when no running job's file is referred to. -/
theorem Stable.requeueRunning (h : s.Stable sha256)
    (noHalfFinished : ∀ u ∈ s.uploads, s.states u.id = .running → s.Unreferenced u) :
    s.requeueRunning.Stable sha256 := by
  refine ⟨h.id_inj, h.key_inj, h.contents, h.rows_stored, ?_, ?_⟩
  · intro v hv hqueued
    by_cases hrunning : s.states v.id = .running
    · exact noHalfFinished v hv hrunning
    · exact h.queued v hv (by simpa [UploadServer.requeueRunning, hrunning] using hqueued)
  · intro v hv hfinished
    by_cases hrunning : s.states v.id = .running
    · simp [UploadServer.requeueRunning, hrunning, JobState.isFinished] at hfinished
    · exact h.finished v hv (by simpa [UploadServer.requeueRunning, hrunning] using hfinished)

theorem clearFolders_row {media : MediaTable} {folderIds : List Nat} {row : MediaFile}
    (hrow : row ∈ (media.clearFolders folderIds).rows) :
    ∃ old ∈ media.rows, row.filepath = old.filepath ∧ row.checksum = old.checksum := by
  obtain ⟨old, hold, rfl⟩ := List.mem_map.mp hrow
  refine ⟨old, hold, ?_⟩
  split <;> exact ⟨rfl, rfl⟩

theorem mem_clearFolders {media : MediaTable} {row : MediaFile} (hrow : row ∈ media.rows)
    (folderIds : List Nat) : ∃ new ∈ (media.clearFolders folderIds).rows,
      new.filepath = row.filepath ∧ new.checksum = row.checksum := by
  refine ⟨_, List.mem_map_of_mem hrow, ?_⟩
  split <;> exact ⟨rfl, rfl⟩

/-- Deleting folders changes neither the files nor the checksums of the rows. -/
theorem unreferenced_deleteFolders {folderIds folders : List Nat} (h : s.Unreferenced u) :
    Unreferenced { s with folders := folders, media := s.media.clearFolders folderIds } u := by
  intro row hrow
  obtain ⟨old, hold, hpath, -⟩ := clearFolders_row hrow
  rw [hpath]
  exact h old hold

theorem hasRow_deleteFolders {folderIds folders : List Nat} (h : s.HasRow sha256 u) :
    HasRow sha256 { s with folders := folders, media := s.media.clearFolders folderIds } u := by
  obtain ⟨row, hrow, hsum⟩ := h
  obtain ⟨new, hnew, -, hchecksum⟩ := mem_clearFolders hrow folderIds
  exact ⟨new, hnew, hchecksum.trans hsum⟩

theorem Inv.deleteFolders (h : s.Inv sha256) (folderIds folders : List Nat) :
    Inv sha256 { s with folders := folders, media := s.media.clearFolders folderIds } := by
  refine ⟨⟨h.stable.id_inj, h.stable.key_inj, h.stable.contents, ?_, ?_, ?_⟩, ?_⟩
  · intro row hrow
    obtain ⟨old, hold, hpath, -⟩ := clearFolders_row hrow
    rw [hpath]
    exact h.stable.rows_stored old hold
  · intro v hv hqueued
    exact unreferenced_deleteFolders (h.stable.queued v hv hqueued)
  · intro v hv hfinished
    exact hasRow_deleteFolders (h.stable.finished v hv hfinished)
  · intro u phase hbusy
    obtain ⟨hu, hrunning, hat⟩ := h.busy u phase hbusy
    refine ⟨hu, hrunning, ?_⟩
    cases phase with
    | checkFolder => exact unreferenced_deleteFolders hat
    | discardOrphan => exact unreferenced_deleteFolders hat
    | readFile => exact unreferenced_deleteFolders hat
    | lookup => exact ⟨unreferenced_deleteFolders hat.1, hat.2⟩
    | extract => exact ⟨unreferenced_deleteFolders hat.1, hat.2⟩
    | create => exact ⟨unreferenced_deleteFolders hat.1, hat.2⟩
    | discardDuplicate => exact ⟨unreferenced_deleteFolders hat.1, hasRow_deleteFolders hat.2⟩
    | subtitles => exact hasRow_deleteFolders hat
    | thumbnail => exact hasRow_deleteFolders hat
    | markDone => exact hasRow_deleteFolders hat
    | markDuplicate => exact hasRow_deleteFolders hat
    | markFailed => trivial

/-- What a successful insert does. -/
theorem createMedia_ok {checksum : String} {metadata : MediaMetadata} {mediaId : Nat}
    (h : s.createMedia u checksum metadata = some (t, mediaId)) :
    ∃ media row, t = { s with media := media } ∧ media.rows = s.media.rows ++ [row] ∧
      row.filepath = u.storageKey ∧ row.checksum = some checksum := by
  unfold createMedia at h
  split at h
  · obtain ⟨⟨media, id⟩, hinsert, heq⟩ := Option.map_eq_some_iff.mp h
    obtain ⟨rfl, rfl⟩ := Prod.mk.inj heq
    unfold MediaTable.insert at hinsert
    split at hinsert
    · exact absurd hinsert nofun
    · obtain ⟨rfl, rfl⟩ := Prod.mk.inj (Option.some.inj hinsert)
      exact ⟨_, _, rfl, rfl, rfl, rfl⟩
  · exact absurd h nofun

/-- The insert of the running job's row: its file is there, and it is no queued job's file. -/
theorem Stable.createMedia {checksum : String} {metadata : MediaMetadata} {mediaId : Nat}
    (h : s.Stable sha256) (hu : u ∈ s.uploads) (running : s.states u.id = .running)
    (stored : (s.files u.storageKey).isSome = true)
    (hcreate : s.createMedia u checksum metadata = some (t, mediaId)) : t.Stable sha256 := by
  obtain ⟨media, row, rfl, hrows, hpath, hsum⟩ := createMedia_ok hcreate
  refine ⟨h.id_inj, h.key_inj, h.contents, ?_, ?_, ?_⟩
  · intro x hx
    replace hx : x ∈ s.media.rows ++ [row] := hrows ▸ hx
    rcases List.mem_append.mp hx with hx | hx
    · exact h.rows_stored x hx
    · obtain rfl := List.mem_singleton.mp hx
      rw [hpath]
      exact stored
  · intro v hv hqueued x hx
    replace hx : x ∈ s.media.rows ++ [row] := hrows ▸ hx
    rcases List.mem_append.mp hx with hx | hx
    · exact h.queued v hv hqueued x hx
    · obtain rfl := List.mem_singleton.mp hx
      rw [hpath]
      -- a queued job is another job, and so is its file
      intro hkey
      obtain rfl := h.key_inj u hu v hv hkey
      replace hqueued : s.states u.id = .queued := hqueued
      rw [running] at hqueued
      exact absurd hqueued nofun
  · intro v hv hfinished
    obtain ⟨x, hx, hxsum⟩ := h.finished v hv hfinished
    refine ⟨x, ?_, hxsum⟩
    show x ∈ media.rows
    rw [hrows]
    exact List.mem_append_left _ hx

/-! ### Every step keeps the invariant -/

/-- The job goes on to a call for which `AtPhase` holds. -/
theorem Stable.goto (h : s.Stable sha256) (hu : u ∈ s.uploads)
    (running : s.states u.id = .running) {phase : Phase} (hat : s.AtPhase sha256 u phase) :
    (s.goto u phase).Inv sha256 := by
  refine ⟨⟨h.id_inj, h.key_inj, h.contents, h.rows_stored, h.queued, h.finished⟩, ?_⟩
  intro v phase' hbusy
  obtain ⟨rfl, rfl⟩ := Process.busy.inj hbusy
  exact ⟨hu, running, hat⟩

/-- The job is marked. -/
theorem Stable.mark (h : s.Stable sha256) (hu : u ∈ s.uploads) {state : JobState}
    (notQueued : state ≠ .queued) (row : state.isFinished = true → s.HasRow sha256 u) :
    (s.mark u state).Inv sha256 :=
  ⟨h.setState hu notQueued row .idle, fun _ _ hbusy => absurd hbusy nofun⟩

/-- The duplicate lookup, by whether it finds a row. -/
theorem hasRow_of_findByChecksum {checksum : String} {row : MediaFile}
    (found : s.media.findByChecksum checksum = some row) (hsum : checksum = sha256 u.content) :
    s.HasRow sha256 u := by
  have hchecksum : row.checksum = some checksum := by
    simpa using List.find?_some found
  exact ⟨row, List.mem_of_find?_eq_some found, hsum ▸ hchecksum⟩

/-- The running job's next call, one case for each. -/
theorem Inv.advance (h : s.Inv sha256) {phase : Phase} (hbusy : s.process = .busy u phase)
    (ok : Bool) (extracted : MediaMetadata) :
    (s.advance sha256 u ok extracted phase).Inv sha256 := by
  obtain ⟨hu, hrunning, hat⟩ := h.busy u phase hbusy
  have hgoto : ∀ next, s.AtPhase sha256 u next → (s.goto u next).Inv sha256 := fun _ hnext =>
    h.stable.goto hu hrunning hnext
  have hfail : ∀ error, (s.goto u (.markFailed error)).Inv sha256 := fun error =>
    hgoto (.markFailed error) trivial
  cases phase with
  | checkFolder =>
    unfold UploadServer.advance
    cases ok with
    | false => exact hfail _
    | true =>
      cases u.folderId with
      | none => exact hgoto .readFile hat
      | some folderId =>
        by_cases hfolder : s.folders.contains folderId = true
        · simp only [if_true, hfolder]
          exact hgoto .readFile hat
        · simp only [if_true, if_neg hfolder]
          exact hgoto (.discardOrphan folderId) hat
  | discardOrphan folderId =>
    have hstable := h.stable.deleteFile hat ok
    have hsame : (s.deleteFile u.storageKey ok).uploads = s.uploads ∧
        (s.deleteFile u.storageKey ok).states = s.states := by
      cases ok <;> exact ⟨rfl, rfl⟩
    exact hstable.goto (hsame.1 ▸ hu) (by rw [hsame.2]; exact hrunning) trivial
  | readFile =>
    unfold UploadServer.advance
    cases hfile : s.files u.storageKey with
    | none => exact hfail _
    | some content =>
      cases ok with
      | false => exact hfail _
      | true =>
        -- the checksum is that of what was uploaded
        obtain rfl := h.stable.contents u hu content hfile
        exact hgoto (.lookup (sha256 u.content)) ⟨hat, by rw [hfile]; rfl, rfl⟩
  | lookup checksum =>
    unfold UploadServer.advance
    obtain ⟨hfree, hstored, hsum⟩ := hat
    cases ok with
    | false => exact hfail _
    | true =>
      cases hfound : s.media.findByChecksum checksum with
      | none =>
        simp only [if_true, hfound]
        exact hgoto (.extract checksum) ⟨hfree, hstored, hsum⟩
      | some existing =>
        simp only [if_true, hfound]
        exact hgoto (.discardDuplicate existing.id)
          ⟨hfree, hasRow_of_findByChecksum hfound hsum⟩
  | discardDuplicate existing =>
    -- the file that goes is the upload's own, and the row that was found has another
    obtain ⟨hfree, hrow⟩ := hat
    have hstable := h.stable.deleteFile hfree ok
    cases ok with
    | false => exact hstable.goto hu hrunning hrow
    | true => exact hstable.goto hu hrunning hrow
  | extract checksum => exact h.stable.goto hu hrunning hat
  | create checksum metadata =>
    unfold UploadServer.advance
    obtain ⟨-, hstored, hsum⟩ := hat
    dsimp only
    cases hcreate : s.createMedia u checksum metadata with
    | none => exact hfail _
    | some created =>
      obtain ⟨t, mediaId⟩ := created
      have hstable := h.stable.createMedia hu hrunning hstored hcreate
      obtain ⟨media, row, rfl, hrows, -, hchecksum⟩ := createMedia_ok hcreate
      refine hstable.goto hu hrunning ⟨row, ?_, hsum ▸ hchecksum⟩
      show row ∈ media.rows
      rw [hrows]
      exact List.mem_append_right _ (List.mem_singleton.mpr rfl)
  | subtitles mediaId => exact h.stable.goto hu hrunning hat
  | thumbnail mediaId => exact h.stable.goto hu hrunning hat
  | markDone mediaId =>
    cases ok with
    | false => exact hfail _
    | true => exact h.stable.mark hu nofun fun _ => hat
  | markDuplicate existing =>
    cases ok with
    | false => exact hfail _
    | true => exact h.stable.mark hu nofun fun _ => hat
  | markFailed error =>
    cases ok with
    | false => exact h.stable.inv fun _ _ => nofun
    | true => exact h.stable.mark hu nofun nofun

/-- A claimed job starts at its first call. -/
theorem Inv.claim (h : s.Inv sha256) (hnext : s.nextQueued = some u) :
    Inv sha256 { s with
      states := update s.states u.id .running, process := .busy u u.firstPhase } := by
  have hu : u ∈ s.uploads := List.mem_of_find?_eq_some hnext
  have hqueued : s.states u.id = .queued := by simpa using List.find?_some hnext
  have hfree := h.stable.queued u hu hqueued
  have hqueuedNot : JobState.running ≠ .queued := nofun
  have hunfinished : JobState.running.isFinished = true → s.HasRow sha256 u := nofun
  have hstable := h.stable.setState hu hqueuedNot hunfinished (.busy u u.firstPhase)
  refine ⟨hstable, ?_⟩
  intro v phase hbusy
  obtain ⟨rfl, rfl⟩ := Process.busy.inj hbusy
  refine ⟨hu, update_self .., ?_⟩
  unfold Upload.firstPhase
  split
  · trivial
  · split
    · exact hfree
    · exact hfree

/-- **Step lemma.** -/
theorem Inv.step (h : s.Inv sha256) {a : UploadStep} (noHalfFinished : s.NoHalfFinished a)
    (hstep : s.step sha256 a = some t) : t.Inv sha256 := by
  cases a with
  | start =>
    cases hp : s.process with
    | down =>
      obtain rfl : { s.requeueRunning with process := .idle } = t := by
        simpa [UploadServer.step, hp] using hstep
      -- the requeued jobs are those whose file no row refers to
      exact (h.stable.requeueRunning noHalfFinished).inv fun _ _ => nofun
    | idle => simp [UploadServer.step, hp] at hstep
    | busy => simp [UploadServer.step, hp] at hstep
  | claim =>
    cases hp : s.process with
    | idle =>
      obtain ⟨u, hnext, rfl⟩ := Option.map_eq_some_iff.mp
        (by simpa only [UploadServer.step, hp] using hstep)
      exact h.claim hnext
    | down => simp [UploadServer.step, hp] at hstep
    | busy => simp [UploadServer.step, hp] at hstep
  | advance ok extracted =>
    cases hp : s.process with
    | busy u phase =>
      obtain rfl : s.advance sha256 u ok extracted phase = t := by
        simpa [UploadServer.step, hp] using hstep
      exact h.advance hp ok extracted
    | down => simp [UploadServer.step, hp] at hstep
    | idle => simp [UploadServer.step, hp] at hstep
  | stop =>
    obtain rfl : { s with process := .down } = t := Option.some.inj hstep
    -- the job stays as it is, and with it what its row and file are
    exact h.stable.inv fun _ _ => nofun
  | deleteFolders folderIds =>
    obtain rfl := Option.some.inj hstep
    exact h.deleteFolders folderIds _

/-- **Upload completion is crash-safe in runs that restart no half-finished job.**  For every
    set of queued uploads, every outcome of every call, any stops, restarts and folder
    deletions: if no start finds a running job whose media row has been inserted, then in every
    state reached all rows have their files and finished jobs have exactly one row. -/
theorem sound_of_noHalfFinished {as : List UploadStep} (initial : s.Initial)
    (run : Guarded (step sha256) NoHalfFinished s as t) : t.Sound sha256 := by
  have hinv : t.Inv sha256 := run.invariant initial.inv fun _ _ _ h hcond hstep =>
    h.step hcond hstep
  exact hinv.stable.sound

/-- One empty image, uploaded and queued. -/
def oneUpload : UploadServer String where
  uploads := [⟨1, "media/a.png", "a.png", "image/png", 0, none, ""⟩]
  states _ := .queued
  files key := if key = "media/a.png" then some "" else none
  media := ⟨[], 1, by simp⟩
  folders := []
  process := .down

/-- The digest of the empty file. -/
def emptySha256 (_ : String) : String :=
  "e3b0c44298fc1c149afbf4c8996fb92427ae41e4649b934ca495991b7852b855"

theorem initial_oneUpload : oneUpload.Initial where
  id_inj u hu v hv _ := (List.mem_singleton.mp hu).trans (List.mem_singleton.mp hv).symm
  key_inj u hu v hv _ := (List.mem_singleton.mp hu).trans (List.mem_singleton.mp hv).symm
  stored u hu := by
    obtain rfl := List.mem_singleton.mp hu
    rfl
  unreferenced _ _ _ hrow := absurd hrow (List.not_mem_nil)
  rows_stored _ hrow := absurd hrow (List.not_mem_nil)
  queued _ _ := rfl
  down := rfl

/-- Start, claim, read, look up, extract, insert. -/
def untilInsert : List UploadStep :=
  [.start, .claim, .advance true {}, .advance true {}, .advance true {}, .advance true {}]

/-- The job runs to its end without a stop. -/
theorem sound_of_noHalfFinished_oneUpload :
    ∃ t, exec (step emptySha256) oneUpload
        (untilInsert ++ [.advance true {}, .advance true {}, .advance true {}]) = some t ∧
      t.states 1 = .done 1 ∧ t.Sound emptySha256 := by
  have hstart : oneUpload.NoHalfFinished .start := fun _ _ hrunning => absurd hrunning nofun
  have run : Guarded (step emptySha256) NoHalfFinished oneUpload
      (untilInsert ++ [.advance true {}, .advance true {}, .advance true {}]) _ :=
    .cons hstart rfl <| .cons trivial rfl <| .cons trivial rfl <| .cons trivial rfl <|
    .cons trivial rfl <| .cons trivial rfl <| .cons trivial rfl <| .cons trivial rfl <|
    .cons trivial rfl .nil
  exact ⟨_, rfl, rfl, sound_of_noHalfFinished initial_oneUpload run⟩

/-- **Counterexample.** The process stops right after the insert.  After the restart the job is
    run again, takes its own row for a duplicate and deletes the file of that row. -/
theorem not_sound_stopped :
    ∃ t, exec (step emptySha256) oneUpload
        (untilInsert ++ [.stop, .start, .claim, .advance true {}, .advance true {},
          .advance true {}, .advance true {}]) = some t ∧
      t.states 1 = .duplicate 1 ∧ (t.media.rows.map MediaFile.filepath) = ["media/a.png"] ∧
      t.files "media/a.png" = none ∧ ¬ t.Sound emptySha256 := by
  refine ⟨_, rfl, rfl, rfl, rfl, ?_⟩
  intro h
  have hfile := h.1 _ (List.mem_singleton.mpr rfl)
  exact absurd hfile (by decide)

end UploadServer

end Montr.Server
