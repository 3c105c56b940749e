import Montr.Client.AppState
import Montr.Client.LruCache

namespace Montr.Client

open Lru

/-!
# Downloads into the cache

`download_media`, `download_batch` and `download_subtitle` of `cache/manager.rs` next to the cache
index, as far as paths and sizes go: any number of downloads at the stages they can be in, over
one directory.  A download keeps a handle to its open file, which follows the file when it is
renamed.  What the server sends and whether a checksum matches are inputs.

* `CacheManager.step` — one step of a download, of the clean-up task, of a pin change or a restart;
* `tempPath` — the temporary path that a download writes.
-/

/-! ### Temporary paths -/

/-- `file_stem`: the name without its extension. -/
def fileStem (name : List Char) : List Char :=
  match name.reverse.dropWhile fun c => c ≠ '.' with
  -- no dot, or only a leading one
  | [] => name
  | [_] => name
  | _ :: before => before.reverse

/-- `with_extension` of a path. -/
def withExtension (path ext : String) : String :=
  let name := (path.toList.reverse.takeWhile fun c => c ≠ '/').reverse
  let parent := (path.toList.reverse.dropWhile fun c => c ≠ '/').reverse
  String.ofList (parent ++ fileStem name ++ '.' :: ext.toList)

/-- `final_path.with_extension("tmp")`. -/
def tempPath (finalPath : String) : String := withExtension finalPath "tmp"

example : tempPath "/cache/7_clip.part1.mp4" = "/cache/7_clip.part1.tmp" := by decide

/-! ### The state -/

/-- A download that holds its permit. -/
structure Download where
  mediaId : Nat
  finalPath : String
  /-- where its open file is, if it has one that is not deleted -/
  handle : Option String
  deriving DecidableEq

/-- `MAX_CONCURRENT_DOWNLOADS`. -/
def maxConcurrentDownloads : Nat := 2

/-- `CacheManager` with its index, the downloads under way and the files of the directory of
    subtitles.  `completed` is there for statements only: the files that a download completed. -/
structure CacheManager (M : Type) where
  lru : LruCacheManager M
  active : List Download
  subtitles : String → Option Nat
  completed : Finset String

namespace CacheManager

variable {M : Type} [LruMap M Nat CacheEntry]

/-- After deletions: a deleted file is no completed one, and a handle to it leads nowhere. -/
def settle (s : CacheManager M) : CacheManager M :=
  { s with
    completed := s.completed.filter fun path => (s.lru.files path).isSome
    active := s.active.map fun d =>
      { d with handle := d.handle.filter fun path => (s.lru.files path).isSome } }

/-- The files of the cache directory as another step leaves them. -/
def setFiles (s : CacheManager M) (files : String → Option Nat) : CacheManager M :=
  { s with lru := { s.lru with files := files } }

/-! ### The steps of a download -/

/-- `download_media` up to the download: a valid cached file is enough (`valid` is the answer of the
    checksum), else room is made for the size the server declares, if it does. -/
def downloadMedia (s : CacheManager M) (refuses : String → Bool) (mediaId : Nat)
    (filename : String) (valid : Bool) (expected available stillAvailable : Option Nat) :
    Option (CacheManager M) :=
  let finalPath := getCachePath s.lru.cacheDir mediaId filename
  if valid ∧ (s.lru.files finalPath).isSome then some s
  else if s.active.length < maxConcurrentDownloads then
    let start := fun s : CacheManager M =>
      { s with active := s.active ++ [⟨mediaId, finalPath, none⟩] }
    match expected with
    | none => some (start s)
    | some expected =>
      match s.lru.ensureRoomFor refuses expected available stillAvailable with
      | (.ok (), lru) => some (start { s with lru := lru }.settle)
      | (.error _, lru) => some { s with lru := lru }.settle
  else none

/-- An attempt opens the temporary file: to append to what is there, or anew. -/
def openFile (s : CacheManager M) (i : Nat) (append : Bool) : Option (CacheManager M) :=
  match s.active[i]? with
  | none => none
  | some d =>
    let path := tempPath d.finalPath
    let s := { s with active := s.active.set i { d with handle := some path } }
    if append then if (s.lru.files path).isSome then some s else none
    else some (s.setFiles (Function.update s.lru.files path (some 0)))

/-- A chunk reaches the open file, which then has the given size. -/
def writeChunk (s : CacheManager M) (i size : Nat) : Option (CacheManager M) :=
  match s.active[i]? with
  | none => none
  | some d =>
    match d.handle with
    | none => some s
    | some path => some (s.setFiles (Function.update s.lru.files path (some size)))

/-- The files after the temporary file took the place of the final one. -/
def renamed (files : String → Option Nat) (source target : String) : String → Option Nat :=
  if source = target then files
  else Function.update (Function.update files target (files source)) source none

/-- A handle after the renaming: the file that was at the target is gone. -/
def renamedHandle (source target : String) (handle : Option String) : Option String :=
  if source = target then handle
  else if handle = some target then none
  else if handle = some source then some target
  else handle

/-- The checksum matches and the file is renamed. -/
def complete (s : CacheManager M) (i : Nat) : Option (CacheManager M) :=
  match s.active[i]? with
  | none => none
  | some d =>
    let path := tempPath d.finalPath
    if (s.lru.files path).isSome then
      let s := s.setFiles (renamed s.lru.files path d.finalPath)
      let others := (s.active.eraseIdx i).map fun other =>
        { other with handle := renamedHandle path d.finalPath other.handle }
      some { s with active := others, completed := insert d.finalPath s.completed }.settle
    else none

/-- The download fails and its temporary file is deleted, where that does not fail, too. -/
def fail (s : CacheManager M) (refuses : String → Bool) (i : Nat) : Option (CacheManager M) :=
  match s.active[i]? with
  | none => none
  | some d =>
    let path := tempPath d.finalPath
    let s := { s with active := s.active.eraseIdx i }
    if refuses path then some s
    else some (s.setFiles (Function.update s.lru.files path none)).settle

/-- The index of a new process. -/
def fresh (lru : LruCacheManager M) : LruCacheManager M :=
  { lru with
    cache := LruMap.new LruCacheManager.cacheCapacity
    currentSize := 0
    pinned := ∅
    departed := [] }

/-- The process ends, whatever it was doing, and starts again: a new index and no pins.  `none`
    where `init` fails, which ends the new process. -/
def restart (s : CacheManager M) (refuses : String → Bool) (listing : Option (List DirEntry)) :
    Option (CacheManager M) :=
  match (fresh s.lru).init refuses listing with
  | (.ok (), lru) => some { s with lru := lru, active := [] }.settle
  | (.error _, _) => none

/-! ### Steps -/

inductive Event
  | downloadMedia (mediaId : Nat) (filename : String) (valid : Bool)
      (expected available stillAvailable : Option Nat)
  | openFile (i : Nat) (append : Bool)
  | writeChunk (i size : Nat)
  | complete (i : Nat)
  | fail (i : Nat)
  /-- a step of `download_subtitle`: a file of the directory of subtitles changes -/
  | subtitle (path : String) (size : Option Nat)
  | evictIfNeeded
  | checkDiskSpace (available : Option Nat)
  | replacePins (ids : List Nat)
  | restart (listing : Option (List DirEntry))

/-- An event and the deletions that fail meanwhile. -/
structure Call where
  event : Event
  refuses : String → Bool

def step (s : CacheManager M) (call : Call) : Option (CacheManager M) :=
  match call.event with
  | .downloadMedia mediaId filename valid expected available stillAvailable =>
    s.downloadMedia call.refuses mediaId filename valid expected available stillAvailable
  | .openFile i append => s.openFile i append
  | .writeChunk i size => s.writeChunk i size
  | .complete i => s.complete i
  | .fail i => s.fail call.refuses i
  | .subtitle path size => some { s with subtitles := Function.update s.subtitles path size }
  | .evictIfNeeded => some { s with lru := (s.lru.evictIfNeeded call.refuses).2 }.settle
  | .checkDiskSpace available =>
    some { s with lru := (s.lru.checkDiskSpace call.refuses available).2 }.settle
  | .replacePins ids => some { s with lru := s.lru.replacePins ids }
  | .restart listing => s.restart call.refuses listing

end CacheManager

end Montr.Client
