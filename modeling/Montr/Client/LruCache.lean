import Mathlib.Algebra.BigOperators.Group.Finset.Basic
import Mathlib.Data.List.Sort
import Montr.Lib.Lru

namespace Montr.Client

open Lru

/-!
# The cache index

`cache/lru.rs`: the index of the cached files by media id, the running count of their bytes and
the eviction loop, over any least-recently-used map.  The files of the disk are part of the state;
what the operating system answers (a listing, a refused deletion, the free space) is an input of
the operation.

* `LruCacheManager.init`, `add`, `remove`, `evictUntil`, `ensureRoomFor` — the operations;
* `LruCacheManager.step` — one operation, whether or not it returns an error.

`departed` is there for statements only: it lists the entries that left the index.
-/

/-- `CacheEntry`. -/
structure CacheEntry where
  path : String
  size : Nat
  lastAccess : Nat
  mediaId : Nat
  deriving DecidableEq, Repr

/-- What the file system knows of a directory entry. -/
structure Metadata where
  isFile : Bool
  len : Nat
  /-- in seconds: the access time, else the modification time, else now -/
  accessed : Nat

/-- One entry of a directory listing; `none` for a name that is not UTF-8 and for metadata that
    cannot be read. -/
structure DirEntry where
  fileName : Option String
  metadata : Option Metadata

/-- The errors of the cache. -/
inductive CacheError
  | fileAccess (path : String)
  | cacheFull (maxSizeMb : Nat)
  | io
  deriving DecidableEq, Repr

/-- An entry that left the index. -/
structure Departure where
  entry : CacheEntry
  /-- its size was taken off `current_size` -/
  subtracted : Bool
  /-- no file is left at its path -/
  deleted : Bool

/-! ### File names -/

/-- `parse::<u32>`: an optional plus sign and digits. -/
def parseU32 (s : List Char) : Option Nat :=
  let digits : List Char := match s with
    | '+' :: rest => rest
    | _ => s
  let n : Nat := digits.foldl (fun n c => 10 * n + (c.toNat - '0'.toNat)) 0
  if digits ≠ [] ∧ digits.all Char.isDigit ∧ n < 2 ^ 32 then some n else none

/-- The media id of a file name: what stands before the first underscore. -/
def mediaIdOf (fileName : String) : Option Nat :=
  parseU32 (fileName.toList.takeWhile fun c => c ≠ '_')

example : mediaIdOf "7_clip.mp4" = some 7 := by decide

/-! ### The state -/

/-- `LruCacheManager` with the files on disk and their sizes. -/
structure LruCacheManager (M : Type) where
  cache : M
  currentSize : Nat
  pinned : Finset Nat
  maxSizeBytes : Nat
  cacheDir : String
  files : String → Option Nat
  departed : List Departure

namespace LruCacheManager

variable {M : Type} [LruMap M Nat CacheEntry]

/-- The capacity of the map: `NonZeroUsize::new(10000)`. -/
def cacheCapacity : ℕ+ := ⟨10000, by decide⟩

def new (maxSizeMb : Nat) (cacheDir : String) (files : String → Option Nat) :
    LruCacheManager M where
  cache := LruMap.new cacheCapacity
  currentSize := 0
  pinned := ∅
  maxSizeBytes := maxSizeMb * 1024 * 1024
  cacheDir := cacheDir
  files := files
  departed := []

/-- `cache.put`; what it displaces leaves the index without further notice. -/
def putEntry (s : LruCacheManager M) (mediaId : Nat) (entry : CacheEntry) : LruCacheManager M :=
  let cache := put s.cache mediaId entry
  { s with
    cache := cache
    departed := s.departed ++ (displaced s.cache cache).map fun e => ⟨e.2, false, false⟩ }

/-! ### Eviction -/

/-- `remove`: the entry is taken out before its file is deleted; `refuses` tells which deletions
    fail. -/
def remove (s : LruCacheManager M) (refuses : String → Bool) (mediaId : Nat) :
    Except CacheError Unit × LruCacheManager M :=
  match pop s.cache mediaId with
  | (some entry, cache) =>
    let s := { s with cache := cache, currentSize := s.currentSize - entry.size }
    let leave := fun deleted => s.departed ++ [⟨entry, true, deleted⟩]
    if (s.files entry.path).isSome then
      if refuses entry.path then
        (.error (.fileAccess entry.path), { s with departed := leave false })
      else
        (.ok (), { s with
          files := Function.update s.files entry.path none
          departed := leave true })
    else (.ok (), { s with departed := leave true })
  | (none, _) => (.ok (), s)

/-- The entry that was not used for longest among those that are not pinned. -/
def mediaIdToEvict (s : LruCacheManager M) : Option Nat :=
  (keys s.cache).reverse.find? fun id => decide (id ∉ s.pinned)

/-- The rounds of the loop of `evict_until`: it stops when more than 10000 entries are evicted. -/
def evictionLimit : Nat := 10001

/-- The loop of `evict_until`. -/
def evictLoop (refuses : String → Bool) (targetSize : Nat) :
    Nat → LruCacheManager M → Except CacheError Unit × LruCacheManager M
  | 0, s => (.ok (), s)
  | rounds + 1, s =>
    if s.currentSize ≤ targetSize then (.ok (), s)
    else
      match s.mediaIdToEvict with
      | none => (.ok (), s)
      | some mediaId =>
        match peek s.cache mediaId with
        | some _ =>
          match s.remove refuses mediaId with
          | (.ok (), s) => evictLoop refuses targetSize rounds s
          | (.error e, s) => (.error e, s)
        -- gone between the two looks at the index: try again
        | none => evictLoop refuses targetSize rounds s

/-- `evict_until`. -/
def evictUntil (s : LruCacheManager M) (refuses : String → Bool) (targetSize : Nat) :
    Except CacheError Unit × LruCacheManager M :=
  evictLoop refuses targetSize evictionLimit s

/-- `(max_size_bytes as f64 * 0.8) as u64`. -/
def evictTarget (s : LruCacheManager M) : Nat := s.maxSizeBytes * 4 / 5

/-- `evict_if_needed`. -/
def evictIfNeeded (s : LruCacheManager M) (refuses : String → Bool) :
    Except CacheError Unit × LruCacheManager M :=
  if s.currentSize ≤ s.maxSizeBytes then (.ok (), s) else s.evictUntil refuses s.evictTarget

/-! ### The operations -/

/-- The files of a listing that name a media id. -/
def scan (s : LruCacheManager M) (listing : List DirEntry) : List CacheEntry :=
  listing.filterMap fun e => do
    let metadata ← e.metadata
    let fileName ← e.fileName
    let mediaId ← mediaIdOf fileName
    if metadata.isFile then
      some ⟨s!"{s.cacheDir}/{fileName}", metadata.len, metadata.accessed, mediaId⟩
    else none

/-- Enter a scanned file. -/
def enter (s : LruCacheManager M) (entry : CacheEntry) : LruCacheManager M :=
  { s with currentSize := s.currentSize + entry.size }.putEntry entry.mediaId entry

/-- `init`; `none` when the directory cannot be read. -/
def init (s : LruCacheManager M) (refuses : String → Bool) (listing : Option (List DirEntry)) :
    Except CacheError Unit × LruCacheManager M :=
  match listing with
  | none => (.error (.fileAccess s.cacheDir), s)
  | some listing =>
    -- oldest first, so that the latest file ends up in front
    let files := (s.scan listing).mergeSort fun a b => decide (a.lastAccess ≤ b.lastAccess)
    (files.foldl enter s).evictIfNeeded refuses

/-- `access`. -/
def access (s : LruCacheManager M) (mediaId now : Nat) : LruCacheManager M :=
  { s with cache := modify s.cache mediaId fun entry => { entry with lastAccess := now } }

/-- The first half of `add`: an entry of the same id is taken out.  It leaves the index unless the
    new entry takes its file over. -/
def takeOut (s : LruCacheManager M) (mediaId : Nat) (path : String) : LruCacheManager M :=
  match pop s.cache mediaId with
  | (some old, cache) =>
    { s with
      cache := cache
      currentSize := s.currentSize - old.size
      departed := if old.path = path then s.departed
        else s.departed ++ [⟨old, true, (s.files old.path).isNone⟩] }
  | (none, _) => s

/-- `add`. -/
def add (s : LruCacheManager M) (refuses : String → Bool) (mediaId : Nat) (path : String)
    (now : Nat) : Except CacheError Unit × LruCacheManager M :=
  match s.files path with
  | none => (.error (.fileAccess path), s)
  | some size =>
    let s := (s.takeOut mediaId path).putEntry mediaId ⟨path, size, now, mediaId⟩
    { s with currentSize := s.currentSize + size }.evictIfNeeded refuses

/-- `pinned_bytes`. -/
def pinnedBytes (s : LruCacheManager M) : Nat :=
  ∑ id ∈ s.pinned, ((peek s.cache id).map CacheEntry.size).getD 0

/-- `check_disk_space`: with less than a gigabyte free, evict down to
    `(max_size_bytes as f64 * 0.75) as u64`. -/
def checkDiskSpace (s : LruCacheManager M) (refuses : String → Bool) (available : Option Nat) :
    Except CacheError Unit × LruCacheManager M :=
  match available with
  | none => (.ok (), s)
  | some available =>
    if available / 1024 / 1024 < 1024 then s.evictUntil refuses (s.maxSizeBytes * 3 / 4)
    else (.ok (), s)

/-- `DISK_HEADROOM_BYTES`. -/
def diskHeadroomBytes : Nat := 256 * 1024 * 1024

/-- `CacheFull`, with the limit in megabytes. -/
def full (s : LruCacheManager M) : CacheError := .cacheFull (s.maxSizeBytes / 1024 / 1024)

/-- `ensure_room_for`, with the two answers of `available_disk_bytes`. -/
def ensureRoomFor (s : LruCacheManager M) (refuses : String → Bool) (incomingBytes : Nat)
    (available stillAvailable : Option Nat) : Except CacheError Unit × LruCacheManager M :=
  if s.maxSizeBytes < incomingBytes then (.error s.full, s)
  else if s.maxSizeBytes < s.pinnedBytes + incomingBytes then (.error s.full, s)
  else
    match s.evictUntil refuses (s.maxSizeBytes - incomingBytes) with
    | (.error e, s) => (.error e, s)
    | (.ok (), s) =>
      match available with
      | none => (.ok (), s)
      | some available =>
        let needed := incomingBytes + diskHeadroomBytes
        if available < needed then
          match s.evictUntil refuses (s.currentSize - (needed - available)) with
          | (.error e, s) => (.error e, s)
          | (.ok (), s) =>
            if stillAvailable.getD available + diskHeadroomBytes < incomingBytes + diskHeadroomBytes
            then (.error s.full, s) else (.ok (), s)
        else (.ok (), s)

def pin (s : LruCacheManager M) (mediaId : Nat) : LruCacheManager M :=
  { s with pinned := insert mediaId s.pinned }

def unpin (s : LruCacheManager M) (mediaId : Nat) : LruCacheManager M :=
  { s with pinned := s.pinned.erase mediaId }

def replacePins (s : LruCacheManager M) (ids : List Nat) : LruCacheManager M :=
  { s with pinned := ids.toFinset }

/-! ### The operations as steps -/

inductive Operation
  | init (listing : Option (List DirEntry))
  | access (mediaId now : Nat)
  | add (mediaId : Nat) (path : String) (now : Nat)
  | remove (mediaId : Nat)
  | evictIfNeeded
  | checkDiskSpace (available : Option Nat)
  | ensureRoomFor (incomingBytes : Nat) (available stillAvailable : Option Nat)
  | pin (mediaId : Nat)
  | unpin (mediaId : Nat)
  | replacePins (ids : List Nat)
  /-- whatever else changes the files of the disk: a download, a user -/
  | disk (files : String → Option Nat)

/-- An operation and the deletions that fail meanwhile. -/
structure Call where
  op : Operation
  refuses : String → Bool

/-- The result of an operation and the state after it. -/
def run (s : LruCacheManager M) (call : Call) : Except CacheError Unit × LruCacheManager M :=
  match call.op with
  | .init listing => s.init call.refuses listing
  | .access mediaId now => (.ok (), s.access mediaId now)
  | .add mediaId path now => s.add call.refuses mediaId path now
  | .remove mediaId => s.remove call.refuses mediaId
  | .evictIfNeeded => s.evictIfNeeded call.refuses
  | .checkDiskSpace available => s.checkDiskSpace call.refuses available
  | .ensureRoomFor incoming available stillAvailable =>
    s.ensureRoomFor call.refuses incoming available stillAvailable
  | .pin mediaId => (.ok (), s.pin mediaId)
  | .unpin mediaId => (.ok (), s.unpin mediaId)
  | .replacePins ids => (.ok (), s.replacePins ids)
  | .disk files => (.ok (), { s with files := files })

/-- The state after an operation, which may have failed half-way. -/
def step (s : LruCacheManager M) (call : Call) : Option (LruCacheManager M) := some (s.run call).2

end LruCacheManager

end Montr.Client
