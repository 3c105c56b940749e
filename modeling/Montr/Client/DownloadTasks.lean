import Montr.Client.CacheManager
import Montr.Lib.FileSystem

namespace Montr.Client

open Function Files

/-!
# The steps of concurrent downloads

`download_media`, `download_subtitle` (`cache/manager.rs`) and `try_download` (`network/http.rs`)
as tasks that take one step at a time: check, permit, request, response, each chunk, checksum,
rename and clean-up.  Bytes, paths and open handles are those of `Montr.Files.FileSystem`; the
responses of the server and the errors of the system are inputs.  Reading a file for its checksum
is one step.
-/

/-- The checksum of `cache/checksum.rs`: the hex digest of the bytes and `to_lowercase`. -/
structure Checksums where
  calculate : List UInt8 → String
  toLowercase : String → String

/-- `verify_checksum`; `none` when the file cannot be read. -/
def Checksums.verify (checksums : Checksums) (bytes : Option (List UInt8)) (expected : String) :
    Bool :=
  if expected = "" then true
  else
    match bytes with
    | none => false
    | some bytes =>
      decide (checksums.toLowercase (checksums.calculate bytes) = checksums.toLowercase expected)

inductive ItemKind
  | media
  | subtitle
  deriving DecidableEq, Repr

/-- What a download is asked for; the checksum is empty where the server gave none. -/
structure CacheItem where
  kind : ItemKind
  id : Nat
  filename : String
  checksum : String
  deriving DecidableEq, Repr

namespace CacheItem

/-- `get_cache_path` and `get_subtitle_cache_path`. -/
def finalPath (cacheDir : String) (item : CacheItem) : String :=
  match item.kind with
  | .media => getCachePath cacheDir item.id item.filename
  | .subtitle => getCachePath s!"{cacheDir}/subs" item.id item.filename

def temp (cacheDir : String) (item : CacheItem) : String := tempPath (item.finalPath cacheDir)

/-- `DownloadOptions::resume`. -/
def resume (item : CacheItem) : Bool :=
  match item.kind with
  | .media => true
  | .subtitle => false

end CacheItem

/-- An open file: it is written at an offset, or at its end. -/
structure Handle where
  file : Nat
  offset : Option Nat
  deriving DecidableEq, Repr

/-- Where a download is; `failures` counts the attempts that failed. -/
inductive Phase
  | waiting
  | attempt (failures : Nat)
  | requested (failures startByte : Nat)
  | writing (failures : Nat) (handle : Handle)
  | written
  | verified
  | failed
  deriving DecidableEq, Repr

structure DownloadTask where
  item : CacheItem
  phase : Phase
  deriving DecidableEq, Repr

/-- What the server answers, or that it does not. -/
inductive Response
  | status (code : Nat)
  | sendError
  deriving DecidableEq, Repr

/-- `is_success`. -/
def Response.isSuccess : Response → Bool
  | .status code => decide (200 ≤ code ∧ code < 300)
  | .sendError => false

/-- The cache directory and the downloads under way.  `completed` is there for statements only: the
    downloads whose file took its final place. -/
structure Downloads where
  cacheDir : String
  fs : FileSystem String UInt8
  /-- free permits of `download_semaphore` -/
  permits : Nat
  tasks : Nat → Option DownloadTask
  completed : List CacheItem

namespace Downloads

variable (checksums : Checksums)

def setPhase (s : Downloads) (i : Nat) (task : DownloadTask) (phase : Phase) : Downloads :=
  { s with tasks := update s.tasks i (some { task with phase := phase }) }

/-- The task ends and gives its permit back, if it has one. -/
def endTask (s : Downloads) (i : Nat) (task : DownloadTask) : Downloads :=
  { s with
    tasks := update s.tasks i none
    permits := if task.phase = .waiting then s.permits else s.permits + 1 }

section

variable (s : Downloads) (i : Nat) (task : DownloadTask)

@[simp] theorem endTask_cacheDir : (s.endTask i task).cacheDir = s.cacheDir := rfl

@[simp] theorem endTask_fs : (s.endTask i task).fs = s.fs := rfl

@[simp] theorem endTask_tasks : (s.endTask i task).tasks = update s.tasks i none := rfl

@[simp] theorem endTask_completed : (s.endTask i task).completed = s.completed := rfl

end

/-- A call up to the wait for a permit: a valid file is enough.  The file of a subtitle is removed
    where it is not valid. -/
def start (s : Downloads) (i : Nat) (item : CacheItem) : Downloads :=
  let path := item.finalPath s.cacheDir
  let waiting := fun s : Downloads => { s with tasks := update s.tasks i (some ⟨item, .waiting⟩) }
  match s.fs.read path with
  | none => waiting s
  | some bytes =>
    if checksums.verify (some bytes) item.checksum then s
    else
      match item.kind with
      | .media => waiting s
      | .subtitle => waiting { s with fs := s.fs.unlink path }

/-- The phase after a failed attempt: `max_retries` is 3. -/
def afterFailure (failures : Nat) : Phase :=
  if 3 ≤ failures + 1 then .failed else .attempt (failures + 1)

/-- `start_byte`. -/
def startByte (s : Downloads) (item : CacheItem) : Nat :=
  if item.resume then ((s.fs.read (item.temp s.cacheDir)).map List.length).getD 0 else 0

/-- The response of an attempt: with a success the temporary file is opened. -/
def respond (s : Downloads) (refuses : String → Bool) (i : Nat) (task : DownloadTask)
    (failures startByte : Nat) (response : Response) : Downloads :=
  let path := task.item.temp s.cacheDir
  if response = .status 416 ∧ 0 < startByte then
    let s := if refuses path then s else { s with fs := s.fs.unlink path }
    s.setPhase i task (afterFailure failures)
  else if response.isSuccess then
    if 0 < startByte then
      match s.fs.dir path with
      | some file => s.setPhase i task (.writing failures ⟨file, none⟩)
      | none => s.setPhase i task (afterFailure failures)
    else
      let (file, fs) := s.fs.create path
      { s with fs := fs }.setPhase i task (.writing failures ⟨file, some 0⟩)
  else s.setPhase i task (afterFailure failures)

/-- `write_all` of a chunk. -/
def writeChunk (s : Downloads) (i : Nat) (task : DownloadTask) (failures : Nat) (handle : Handle)
    (bytes : List UInt8) : Downloads :=
  match handle.offset with
  | none => { s with fs := s.fs.modify handle.file fun content => content ++ bytes }
  | some offset =>
    { s with fs := s.fs.modify handle.file (FileSystem.splice 0 offset bytes) }.setPhase i task
      (.writing failures { handle with offset := some (offset + bytes.length) })

/-- The checksum of the temporary file. -/
def verify (s : Downloads) (i : Nat) (task : DownloadTask) : Downloads :=
  if checksums.verify (s.fs.read (task.item.temp s.cacheDir)) task.item.checksum then
    s.setPhase i task .verified
  else s.setPhase i task .failed

/-- `fs::rename` of the temporary file to the final path. -/
def rename (s : Downloads) (i : Nat) (task : DownloadTask) : Downloads :=
  let path := task.item.temp s.cacheDir
  match s.fs.dir path with
  | none => s.setPhase i task .failed
  | some _ =>
    { s with
      fs := s.fs.rename path (task.item.finalPath s.cacheDir)
      completed := s.completed ++ [task.item] }.endTask i task

/-- The end of a failed download: only `download_media` removes its temporary file. -/
def cleanUp (s : Downloads) (refuses : String → Bool) (i : Nat) (task : DownloadTask) : Downloads :=
  let path := task.item.temp s.cacheDir
  match task.item.kind with
  | .subtitle => s.endTask i task
  | .media =>
    let s := if refuses path then s else { s with fs := s.fs.unlink path }
    s.endTask i task

/-! ### Steps -/

/-- A step of the task with the number. -/
inductive Event
  | start (i : Nat) (item : CacheItem)
  | acquire (i : Nat)
  | request (i : Nat)
  | respond (i : Nat) (response : Response)
  | writeChunk (i : Nat) (bytes : List UInt8)
  /-- the body ends and the file is flushed -/
  | finish (i : Nat)
  /-- the body, a call on the file or the renaming fails -/
  | ioError (i : Nat)
  | verify (i : Nat)
  | rename (i : Nat)
  | cleanUp (i : Nat)
  /-- the task is dropped where it is -/
  | cut (i : Nat)
  /-- a file is removed: an eviction, or a clean-up of the cache -/
  | unlink (path : String)

/-- An event and the deletions that fail meanwhile. -/
structure Call where
  event : Event
  refuses : String → Bool

/-- A step of a task in its phase; `none` when the phase has no such step. -/
def taskStep (s : Downloads) (refuses : String → Bool) (i : Nat) (task : DownloadTask) :
    Event → Option Downloads
  | .acquire _ =>
    match task.phase, s.permits with
    | .waiting, permits + 1 => some ({ s with permits := permits }.setPhase i task (.attempt 0))
    | _, _ => none
  | .request _ =>
    match task.phase with
    | .attempt failures => some (s.setPhase i task (.requested failures (s.startByte task.item)))
    | _ => none
  | .respond _ response =>
    match task.phase with
    | .requested failures startByte =>
      some (s.respond refuses i task failures startByte response)
    | _ => none
  | .writeChunk _ bytes =>
    match task.phase with
    | .writing failures handle => some (s.writeChunk i task failures handle bytes)
    | _ => none
  | .finish _ =>
    match task.phase with
    | .writing _ _ => some (s.setPhase i task .written)
    | _ => none
  | .ioError _ =>
    match task.phase with
    | .attempt failures | .requested failures _ | .writing failures _ =>
      some (s.setPhase i task (afterFailure failures))
    | .written | .verified => some (s.setPhase i task .failed)
    | _ => none
  | .verify _ =>
    match task.phase with
    | .written => some (s.verify checksums i task)
    | _ => none
  | .rename _ =>
    match task.phase with
    | .verified => some (s.rename i task)
    | _ => none
  | .cleanUp _ =>
    match task.phase with
    | .failed => some (s.cleanUp refuses i task)
    | _ => none
  | .cut _ => some (s.endTask i task)
  | .start _ _ => none
  | .unlink _ => none

/-- The task that an event is a step of. -/
def Event.task : Event → Option Nat
  | .start _ _ => none
  | .acquire i | .request i | .respond i _ | .writeChunk i _ | .finish i | .ioError i | .verify i
  | .rename i | .cleanUp i | .cut i => some i
  | .unlink _ => none

def step (s : Downloads) (call : Call) : Option Downloads :=
  match call.event with
  | .start i item => if s.tasks i = none then some (s.start checksums i item) else none
  | .unlink path => some { s with fs := s.fs.unlink path }
  | event => event.task.bind fun i => (s.tasks i).bind fun task =>
    s.taskStep checksums call.refuses i task event

end Downloads

end Montr.Client
