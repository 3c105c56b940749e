import Mathlib.Algebra.GroupWithZero.Nat
import Montr.Lib.FileSystem

namespace Montr.Server

open Function Files

/-!
# Chunked uploads

`ChunkedUploadService` (`chunked-upload.service.ts`) and the upload routes (`media.routes.ts`) for
one upload session.  Every request goes on by one step for each awaited call, and the steps of
requests come in any order; the outcomes of the calls are inputs.  A body and a chunk file pass in
pieces.

* `parseInt`, `UploadSession.refuses` — which chunk indices the route admits;
* `RequestPhase` — what a request awaits;
* `ChunkedUpload.resume` — what it does when the awaited call ends.

`uploadChunk` is called with the `spaces` backend only, and `streamChunkFromRequest` with the other
one.  Nothing but its own completion knows a unique filename, so the bytes of an output file stand
in the completion; `stored` says which files and objects there are.
-/

/-- `config.storage.backend`. -/
inductive StorageBackend
  | spaces
  | localDisk
  deriving DecidableEq, Repr

/-! ### The session -/

/-- A chunk index of a request. -/
inductive ChunkIndex
  | nan
  | number (k : Int)
  deriving DecidableEq, Repr

/-- The white space that `parseInt` skips. -/
def isWhiteSpace (c : Char) : Bool :=
  (9 ≤ c.toNat && c.toNat ≤ 13) || (0x2000 ≤ c.toNat && c.toNat ≤ 0x200A) ||
    [0x20, 0xA0, 0x1680, 0x2028, 0x2029, 0x202F, 0x205F, 0x3000, 0xFEFF].contains c.toNat

/-- `parseInt(text, 10)`. -/
def parseInt (text : String) : ChunkIndex :=
  let trimmed := text.toList.dropWhile isWhiteSpace
  let negative := trimmed.head? = some '-'
  let rest := if negative ∨ trimmed.head? = some '+' then trimmed.tail else trimmed
  let digits := rest.takeWhile Char.isDigit
  if digits = [] then .nan
  else
    let n := digits.foldl (fun n c => 10 * n + (c.toNat - '0'.toNat)) 0
    .number (if negative then -n else n)

/-- What an `UploadSession` was created with. -/
structure UploadSession where
  backend : StorageBackend
  totalSize : Rat
  totalChunks : Int
  deriving DecidableEq, Repr

/-- The checks of the init route on the declared size. -/
def admitsSize (maxUploadSizeMB : Nat) (totalSize : Rat) : Bool :=
  decide (totalSize ≠ 0 ∧ totalSize ≤ maxUploadSizeMB * 1024 * 1024)

def initUpload (backend : StorageBackend) (chunkSizeMB : Nat) (totalSize : Rat) :
    UploadSession where
  backend := backend
  totalSize := totalSize
  totalChunks := (totalSize / (chunkSizeMB * 1024 * 1024)).ceil

/-- `chunkIndex < 0 || chunkIndex >= session.totalChunks`. -/
def UploadSession.refuses (session : UploadSession) : ChunkIndex → Bool
  | .nan => false
  | .number k => decide (k < 0 ∨ session.totalChunks ≤ k)

/-- The chunk file that `finalizeLocalUpload` reads after `k` others. -/
def chunkFile (k : Nat) : ChunkIndex := .number k

/-- `Map.set`: the sizes of the received chunks. -/
def setChunk (chunks : List (ChunkIndex × Nat)) (k : ChunkIndex) (size : Nat) :
    List (ChunkIndex × Nat) :=
  if chunks.any fun entry => entry.1 = k then
    chunks.map fun entry => if entry.1 = k then (k, size) else entry
  else chunks ++ [(k, size)]

/-! ### Requests -/

/-- An output file on its way: `parts` is what was read from each chunk file. -/
structure Assembly where
  storageKey : Nat
  parts : List (List UInt8)
  content : List UInt8
  deriving DecidableEq, Repr

/-- What `completeUpload` returns; the assembly is there for statements only. -/
structure Finalized where
  storageKey : Nat
  totalSize : Nat
  assembly : Assembly
  deriving DecidableEq, Repr

/-- What a request awaits. -/
inductive RequestPhase
  /-- the opening of a chunk file -/
  | openChunk (k : ChunkIndex)
  /-- the pipeline into the chunk file; the body is what came so far -/
  | receive (k : ChunkIndex) (file : Nat) (body : List UInt8)
  | unlinkChunk (k : ChunkIndex)
  | statChunk (k : ChunkIndex)
  | putPart (k : ChunkIndex) (bytes : List UInt8)
  /-- the opening of the output file -/
  | openOutput (a : Assembly)
  /-- the opening of the next chunk file, or the end of the output file -/
  | nextChunk (a : Assembly)
  /-- the pipeline from a chunk file; the bytes are those copied so far -/
  | copyChunk (a : Assembly) (file : Nat) (bytes : List UInt8)
  | unlinkOutput (a : Assembly)
  | statOutput (a : Assembly)
  /-- the removal of the chunk directory after the assembly -/
  | removeChunks (f : Finalized)
  | completeMultipart
  | insertJob (f : Finalized)
  | selectJob (f : Finalized)
  /-- the orphan clean-up of the route -/
  | deleteStored (f : Finalized)
  /-- a clean-up pass that found the session stale -/
  | stale
  /-- the clean-up of `abortUpload` -/
  | abort
  deriving DecidableEq, Repr

/-- The request may still change the file of the chunk. -/
def RequestPhase.touches (k : ChunkIndex) : RequestPhase → Bool
  | .openChunk k' => decide (k' = k)
  | .receive k' _ _ => decide (k' = k)
  | .unlinkChunk k' => decide (k' = k)
  | _ => false

/-- One session, its files and the requests under way.  The last four fields are there for
    statements only. -/
structure ChunkedUpload where
  session : UploadSession
  /-- whether the session is in `sessions` -/
  registered : Bool
  receivedChunks : List (ChunkIndex × Nat)
  lastActivity : Int
  /-- whether the chunk directory is there -/
  chunkDir : Bool
  chunks : FileSystem ChunkIndex UInt8
  requests : Nat → Option RequestPhase
  stored : Nat → Bool
  /-- the number of the next unique filename; the key of a multipart upload is 0 -/
  nextKey : Nat
  /-- the row of `upload_completion_jobs` for the upload -/
  job : Option Finalized
  /-- the body of the last request for a chunk file that came in whole -/
  received : ChunkIndex → Option (List UInt8)
  /-- the chunks whose file is the work of several requests, or is left of one that failed, and was
      not written by a request alone since -/
  disturbed : ChunkIndex → Prop
  finalized : List Finalized
  /-- what the orphan clean-up deleted -/
  discarded : List Nat

/-- The state after `initUpload`. -/
def UploadSession.initial (session : UploadSession) (now : Int) : ChunkedUpload where
  session := session
  registered := true
  receivedChunks := []
  lastActivity := now
  chunkDir := decide (session.backend = .localDisk)
  chunks := .empty
  requests _ := none
  stored _ := false
  nextKey := 1
  job := none
  received _ := none
  disturbed _ := False
  finalized := []
  discarded := []

inductive UploadEvent
  /-- a request for a chunk, with the path segment of its index -/
  | chunk (i : Nat) (chunkIndex : String)
  /-- the same with the `spaces` backend, once its body is in a buffer -/
  | part (i : Nat) (chunkIndex : String) (bytes : List UInt8)
  | complete (i : Nat)
  | abort (i : Nat)
  /-- `cleanupStaleSessions` looks at the session -/
  | cleanup (i : Nat) (maxAgeMs now : Int)
  /-- a piece of a body comes in -/
  | receive (i : Nat) (bytes : List UInt8)
  /-- a piece of a chunk file is copied -/
  | copy (i : Nat) (count : Nat)
  /-- a recursive removal removes a chunk file -/
  | removeEntry (i : Nat) (k : ChunkIndex)
  /-- the object store assembles the parts -/
  | assemble (i : Nat)
  /-- the awaited call ends -/
  | resume (i : Nat) (ok : Bool) (now : Int)
  deriving DecidableEq, Repr

namespace ChunkedUpload

variable (s : ChunkedUpload) (i : Nat)

def setPhase (phase : RequestPhase) : ChunkedUpload :=
  { s with requests := update s.requests i (some phase) }

def endRequest : ChunkedUpload := { s with requests := update s.requests i none }

/-- Another request may still change the file of the chunk. -/
def TouchedByOther (k : ChunkIndex) : Prop :=
  ∃ j phase, j ≠ i ∧ s.requests j = some phase ∧ phase.touches k = true

/-- `getSession` and the check of the index. -/
def admits (k : ChunkIndex) : Bool := s.registered && !s.session.refuses k

/-- `getSession` and the check of the number of received chunks. -/
def isComplete : Bool :=
  s.registered && decide (s.receivedChunks.length = s.session.totalChunks)

/-- The chunk file is open. -/
def openChunk (k : ChunkIndex) : ChunkedUpload :=
  let (file, chunks) := s.chunks.create k
  { s with
    chunks := chunks
    disturbed := update s.disturbed k (s.TouchedByOther i k) }.setPhase i (.receive k file [])

/-- A piece of the body is written to the chunk file. -/
def writeChunk (k : ChunkIndex) (file : Nat) (body bytes : List UInt8) : ChunkedUpload :=
  { s with chunks := s.chunks.modify file (FileSystem.splice 0 body.length bytes) }.setPhase i
    (.receive k file (body ++ bytes))

/-- The unlinking of a failed chunk ends. -/
def unlinkChunk (k : ChunkIndex) (ok : Bool) : ChunkedUpload :=
  if ok then { s with chunks := s.chunks.unlink k }.endRequest i
  else { s with disturbed := update s.disturbed k True }.endRequest i

/-- `receivedChunks.set` and `lastActivity`. -/
def recordChunk (k : ChunkIndex) (size : Nat) (now : Int) : ChunkedUpload :=
  { s with
    receivedChunks := setChunk s.receivedChunks k size
    lastActivity := now }.endRequest i

/-- `completeUpload` up to its first awaited call. -/
def startComplete : ChunkedUpload :=
  if s.isComplete then
    match s.session.backend with
    | .spaces => s.setPhase i .completeMultipart
    | .localDisk =>
      { s with nextKey := s.nextKey + 1 }.setPhase i (.openOutput ⟨s.nextKey, [], []⟩)
  else s

/-- `completeUpload` from the deletion of the session on. -/
def finish (f : Finalized) : ChunkedUpload :=
  { s with registered := false, finalized := s.finalized ++ [f] }.setPhase i (.insertJob f)

/-- The recursive removal of the chunk directory ends. -/
def removeDir (ok : Bool) : ChunkedUpload :=
  if ok then { s with chunkDir := false, chunks := s.chunks.clear } else s

/-- The stored object is removed, unless that fails. -/
def deleteObject (key : Nat) (ok : Bool) : ChunkedUpload :=
  if ok then { s with stored := update s.stored key false } else s

/-- The next chunk file, or the end of the loop. -/
def nextChunk (a : Assembly) (ok : Bool) : ChunkedUpload :=
  if (a.parts.length : Int) < s.session.totalChunks then
    match s.chunks.dir (chunkFile a.parts.length), ok with
    | some file, true => s.setPhase i (.copyChunk a file [])
    | _, _ => s.setPhase i (.unlinkOutput a)
  else if ok then s.setPhase i (.statOutput a)
  else s.setPhase i (.unlinkOutput a)

/-- `enqueueUploadCompletionJob`: the insert leaves a row that is there. -/
def insertJob (f : Finalized) : ChunkedUpload :=
  { s with job := some (s.job.getD f) }.setPhase i (.selectJob f)

/-- The awaited call ends: what the request does up to the next one.  A pipeline ends well at the
    end of its file only. -/
def resume (ok : Bool) (now : Int) : RequestPhase → Option ChunkedUpload
  | .openChunk k =>
    some (if ok && s.chunkDir then s.openChunk i k else s.setPhase i (.unlinkChunk k))
  | .receive k _ body =>
    some (if ok then
      { s with received := update s.received k (some body) }.setPhase i (.statChunk k)
    else s.setPhase i (.unlinkChunk k))
  | .unlinkChunk k => some (s.unlinkChunk i k ok)
  | .statChunk k =>
    match s.chunks.read k, ok with
    | some bytes, true => some (s.recordChunk i k bytes.length now)
    | _, _ => some (s.endRequest i)
  | .putPart k bytes =>
    some (if ok then s.recordChunk i k bytes.length now else s.endRequest i)
  | .openOutput a =>
    some (if ok then
      { s with stored := update s.stored a.storageKey true }.setPhase i (.nextChunk a)
    else s.setPhase i (.unlinkOutput a))
  | .nextChunk a => some (s.nextChunk i a ok)
  | .copyChunk a file bytes =>
    if ok then
      if (s.chunks.content file).length ≤ bytes.length then
        some (s.setPhase i (.nextChunk { a with parts := a.parts ++ [bytes] }))
      else none
    else some (s.setPhase i (.unlinkOutput a))
  | .unlinkOutput a => some ((s.deleteObject a.storageKey ok).endRequest i)
  | .statOutput a =>
    some (if ok then s.setPhase i (.removeChunks ⟨a.storageKey, a.content.length, a⟩)
    else s.endRequest i)
  | .removeChunks f => some ((s.removeDir ok).finish i f)
  | .completeMultipart =>
    some (if ok then
      { s with stored := update s.stored 0 true }.finish i
        ⟨0, (s.receivedChunks.map Prod.snd).sum, ⟨0, [], []⟩⟩
    else s.endRequest i)
  | .insertJob f => some (if ok then s.insertJob i f else s.setPhase i (.deleteStored f))
  | .selectJob f => some (if ok then s.endRequest i else s.setPhase i (.deleteStored f))
  | .deleteStored f =>
    some ({ s.deleteObject f.storageKey ok with
      discarded := s.discarded ++ [f.storageKey] }.endRequest i)
  | .stale => none
  | .abort =>
    match s.session.backend with
    | .spaces => some ({ s with registered := false }.endRequest i)
    | .localDisk => some ({ s.removeDir ok with registered := false }.endRequest i)

/-- `abortUpload` up to its first awaited call. -/
def startAbort : ChunkedUpload := if s.registered then s.setPhase i .abort else s.endRequest i

/-- One step; `none` where the request has no such step. -/
def step (s : ChunkedUpload) : UploadEvent → Option ChunkedUpload
  | .chunk i chunkIndex =>
    if s.requests i = none ∧ s.session.backend = .localDisk then
      some (if s.admits (parseInt chunkIndex) then s.setPhase i (.openChunk (parseInt chunkIndex))
        else s)
    else none
  | .part i chunkIndex bytes =>
    if s.requests i = none ∧ s.session.backend = .spaces then
      some (if s.admits (parseInt chunkIndex) then
        s.setPhase i (.putPart (parseInt chunkIndex) bytes) else s)
    else none
  | .complete i => if s.requests i = none then some (s.startComplete i) else none
  | .abort i =>
    if s.requests i = none ∨ s.requests i = some .stale then some (s.startAbort i) else none
  | .cleanup i maxAgeMs now =>
    if s.requests i = none then
      some (if s.registered ∧ maxAgeMs < now - s.lastActivity then s.setPhase i .stale else s)
    else none
  | .receive i bytes =>
    match s.requests i with
    | some (.receive k file body) => some (s.writeChunk i k file body bytes)
    | _ => none
  | .copy i count =>
    match s.requests i with
    | some (.copyChunk a file bytes) =>
      let piece := ((s.chunks.content file).drop bytes.length).take count
      some (s.setPhase i
        (.copyChunk { a with content := a.content ++ piece } file (bytes ++ piece)))
    | _ => none
  | .removeEntry i k =>
    match s.requests i, s.session.backend with
    | some (.removeChunks _), _ => some { s with chunks := s.chunks.unlink k }
    | some .abort, .localDisk => some { s with chunks := s.chunks.unlink k }
    | _, _ => none
  | .assemble i =>
    match s.requests i with
    | some .completeMultipart => some { s with stored := update s.stored 0 true }
    | _ => none
  | .resume i ok now => (s.requests i).bind (s.resume i ok now)

/-! ### What a step can do -/

/-- A request goes on to its next call, or ends; it is at no chunk file, and nothing else
    changes. -/
inductive Goes (s : ChunkedUpload) : RequestPhase → Option RequestPhase → Prop
  | statFailed {k} : Goes s (.statChunk k) none
  | putFailed {k bytes} : Goes s (.putPart k bytes) none
  | openFailed {a} : Goes s (.openOutput a) (some (.unlinkOutput a))
  | nextFile {a file} : (a.parts.length : Int) < s.session.totalChunks →
      s.chunks.dir (chunkFile a.parts.length) = some file →
      Goes s (.nextChunk a) (some (.copyChunk a file []))
  | lastFile {a} : ¬ (a.parts.length : Int) < s.session.totalChunks →
      Goes s (.nextChunk a) (some (.statOutput a))
  | nextFailed {a} : Goes s (.nextChunk a) (some (.unlinkOutput a))
  | copied {a file bytes} : (s.chunks.content file).length ≤ bytes.length →
      Goes s (.copyChunk a file bytes) (some (.nextChunk { a with parts := a.parts ++ [bytes] }))
  | copyFailed {a file bytes} : Goes s (.copyChunk a file bytes) (some (.unlinkOutput a))
  | unlinkFailed {a} : Goes s (.unlinkOutput a) none
  | statOutput {a} :
      Goes s (.statOutput a) (some (.removeChunks ⟨a.storageKey, a.content.length, a⟩))
  | outputMissing {a} : Goes s (.statOutput a) none
  | multipartFailed : Goes s .completeMultipart none
  | insertFailed {f} : Goes s (.insertJob f) (some (.deleteStored f))
  | selectJob {f} : Goes s (.selectJob f) none
  | selectFailed {f} : Goes s (.selectJob f) (some (.deleteStored f))

/-- What a request does when its awaited call ends. -/
inductive Resumes (s : ChunkedUpload) (i : Nat) : RequestPhase → ChunkedUpload → Prop
  | goes {phase new} : s.Goes phase new →
      Resumes s i phase { s with requests := update s.requests i new }
  | openChunk {k} : Resumes s i (.openChunk k) (s.openChunk i k)
  | openFailed {k} : Resumes s i (.openChunk k) (s.setPhase i (.unlinkChunk k))
  | received {k file body} : Resumes s i (.receive k file body)
      ({ s with received := update s.received k (some body) }.setPhase i (.statChunk k))
  | receiveFailed {k file body} : Resumes s i (.receive k file body) (s.setPhase i (.unlinkChunk k))
  | unlinkChunk {k} (ok : Bool) : Resumes s i (.unlinkChunk k) (s.unlinkChunk i k ok)
  | statChunk {k} (size : Nat) (now : Int) : Resumes s i (.statChunk k) (s.recordChunk i k size now)
  | putPart {k bytes} (now : Int) :
      Resumes s i (.putPart k bytes) (s.recordChunk i k bytes.length now)
  | openOutput {a} : Resumes s i (.openOutput a)
      ({ s with stored := update s.stored a.storageKey true }.setPhase i (.nextChunk a))
  | unlinkOutput {a} :
      Resumes s i (.unlinkOutput a) ((s.deleteObject a.storageKey true).endRequest i)
  | removeChunks {f} (ok : Bool) : Resumes s i (.removeChunks f) ((s.removeDir ok).finish i f)
  | completeMultipart : Resumes s i .completeMultipart
      ({ s with stored := update s.stored 0 true }.finish i
        ⟨0, (s.receivedChunks.map Prod.snd).sum, ⟨0, [], []⟩⟩)
  | insertJob {f} : Resumes s i (.insertJob f) (s.insertJob i f)
  | deleteStored {f} (ok : Bool) : Resumes s i (.deleteStored f)
      ({ s.deleteObject f.storageKey ok with
        discarded := s.discarded ++ [f.storageKey] }.endRequest i)
  | abortMultipart : Resumes s i .abort ({ s with registered := false }.endRequest i)
  | abort (ok : Bool) :
      Resumes s i .abort ({ s.removeDir ok with registered := false }.endRequest i)

/-- What a step does. -/
inductive Steps (s : ChunkedUpload) : UploadEvent → ChunkedUpload → Prop
  /-- the request is refused, or there is nothing to clean up -/
  | refused {event} : Steps s event s
  | chunk {i : Nat} {chunkIndex} : s.requests i = none → s.admits (parseInt chunkIndex) = true →
      Steps s (.chunk i chunkIndex) (s.setPhase i (.openChunk (parseInt chunkIndex)))
  | part {i : Nat} {chunkIndex bytes} : s.requests i = none → s.session.backend = .spaces →
      Steps s (.part i chunkIndex bytes) (s.setPhase i (.putPart (parseInt chunkIndex) bytes))
  | complete {i : Nat} : s.requests i = none → Steps s (.complete i) (s.startComplete i)
  | abort {i : Nat} : s.requests i = none ∨ s.requests i = some .stale →
      Steps s (.abort i) (s.startAbort i)
  | cleanup {i : Nat} {maxAgeMs now} : s.requests i = none →
      Steps s (.cleanup i maxAgeMs now) (s.setPhase i .stale)
  | receive {i : Nat} {k file body bytes} : s.requests i = some (.receive k file body) →
      Steps s (.receive i bytes) (s.writeChunk i k file body bytes)
  | copy {i : Nat} {a file bytes} (count : Nat) : s.requests i = some (.copyChunk a file bytes) →
      Steps s (.copy i count) (s.setPhase i (.copyChunk
        { a with content := a.content ++ ((s.chunks.content file).drop bytes.length).take count }
        file (bytes ++ ((s.chunks.content file).drop bytes.length).take count)))
  | removeEntry {i : Nat} (k : ChunkIndex) :
      Steps s (.removeEntry i k) { s with chunks := s.chunks.unlink k }
  | assemble {i : Nat} : s.requests i = some .completeMultipart →
      Steps s (.assemble i) { s with stored := update s.stored 0 true }
  | resume {i : Nat} {phase ok now t} : s.requests i = some phase → s.Resumes i phase t →
      Steps s (.resume i ok now) t

theorem resumes_of_resume {s t : ChunkedUpload} {i : Nat} {ok : Bool} {now : Int}
    {phase : RequestPhase} (h : s.resume i ok now phase = some t) : s.Resumes i phase t := by
  cases phase with
  | openChunk k =>
    obtain rfl := Option.some.inj h
    split
    · exact .openChunk
    · exact .openFailed
  | receive k file body =>
    obtain rfl := Option.some.inj h
    split
    · exact .received
    · exact .receiveFailed
  | unlinkChunk k =>
    obtain rfl := Option.some.inj h
    exact .unlinkChunk ok
  | statChunk k =>
    unfold resume at h
    dsimp only at h
    split at h
    · obtain rfl := Option.some.inj h
      exact .statChunk _ now
    · obtain rfl := Option.some.inj h
      exact .goes .statFailed
  | putPart k bytes =>
    obtain rfl := Option.some.inj h
    split
    · exact .putPart now
    · exact .goes .putFailed
  | openOutput a =>
    obtain rfl := Option.some.inj h
    split
    · exact .openOutput
    · exact .goes .openFailed
  | nextChunk a =>
    obtain rfl := Option.some.inj h
    unfold nextChunk
    split
    · next hlt =>
      split
      · next file hfile => exact .goes (.nextFile hlt hfile)
      · exact .goes .nextFailed
    · next hge =>
      split
      · exact .goes (.lastFile hge)
      · exact .goes .nextFailed
  | copyChunk a file bytes =>
    unfold resume at h
    dsimp only at h
    split at h
    · split at h
      · next hwhole =>
        obtain rfl := Option.some.inj h
        exact .goes (.copied hwhole)
      · exact absurd h (by simp)
    · obtain rfl := Option.some.inj h
      exact .goes .copyFailed
  | unlinkOutput a =>
    obtain rfl := Option.some.inj h
    cases ok with
    | true => exact .unlinkOutput
    | false => exact .goes .unlinkFailed
  | statOutput a =>
    obtain rfl := Option.some.inj h
    split
    · exact .goes .statOutput
    · exact .goes .outputMissing
  | removeChunks f =>
    obtain rfl := Option.some.inj h
    exact .removeChunks ok
  | completeMultipart =>
    obtain rfl := Option.some.inj h
    split
    · exact .completeMultipart
    · exact .goes .multipartFailed
  | insertJob f =>
    obtain rfl := Option.some.inj h
    split
    · exact .insertJob
    · exact .goes .insertFailed
  | selectJob f =>
    obtain rfl := Option.some.inj h
    split
    · exact .goes .selectJob
    · exact .goes .selectFailed
  | deleteStored f =>
    obtain rfl := Option.some.inj h
    exact .deleteStored ok
  | stale => exact absurd h (by simp [resume])
  | abort =>
    unfold resume at h
    dsimp only at h
    split at h
    · obtain rfl := Option.some.inj h
      exact .abortMultipart
    · obtain rfl := Option.some.inj h
      exact .abort ok

theorem steps_of_step {s t : ChunkedUpload} {event : UploadEvent} (h : s.step event = some t) :
    s.Steps event t := by
  cases event with
  | resume i ok now =>
    obtain ⟨phase, hphase, hresume⟩ := Option.bind_eq_some_iff.mp h
    exact .resume hphase (resumes_of_resume hresume)
  | chunk i chunkIndex =>
    obtain ⟨hidle, h⟩ := Option.ite_none_right_eq_some.mp h
    obtain rfl := Option.some.inj h
    split
    · next hadmits => exact .chunk hidle.1 hadmits
    · exact .refused
  | part i chunkIndex bytes =>
    obtain ⟨hidle, h⟩ := Option.ite_none_right_eq_some.mp h
    obtain rfl := Option.some.inj h
    split
    · exact .part hidle.1 hidle.2
    · exact .refused
  | complete i =>
    obtain ⟨hidle, h⟩ := Option.ite_none_right_eq_some.mp h
    obtain rfl := Option.some.inj h
    exact .complete hidle
  | abort i =>
    obtain ⟨hidle, h⟩ := Option.ite_none_right_eq_some.mp h
    obtain rfl := Option.some.inj h
    exact .abort hidle
  | cleanup i maxAgeMs now =>
    obtain ⟨hidle, h⟩ := Option.ite_none_right_eq_some.mp h
    obtain rfl := Option.some.inj h
    split
    · exact .cleanup hidle
    · exact .refused
  | receive i bytes =>
    unfold step at h
    dsimp only at h
    split at h
    · next hreceiving =>
      obtain rfl := Option.some.inj h
      exact .receive hreceiving
    · exact absurd h (by simp)
  | copy i count =>
    unfold step at h
    dsimp only at h
    split at h
    · next hcopying =>
      obtain rfl := Option.some.inj h
      exact .copy count hcopying
    · exact absurd h (by simp)
  | removeEntry i k =>
    unfold step at h
    dsimp only at h
    split at h
    · obtain rfl := Option.some.inj h
      exact .removeEntry k
    · obtain rfl := Option.some.inj h
      exact .removeEntry k
    · exact absurd h (by simp)
  | assemble i =>
    unfold step at h
    dsimp only at h
    split at h
    · next hmultipart =>
      obtain rfl := Option.some.inj h
      exact .assemble hmultipart
    · exact absurd h (by simp)

/-! ### A session of one chunk -/

/-- A file of two bytes. -/
def twoBytes : UploadSession where
  backend := .localDisk
  totalSize := 2
  totalChunks := 1

example : admitsSize 500 2 = true ∧ initUpload .localDisk 50 2 = twoBytes := by decide +kernel

/-- Its chunk comes in whole. -/
def receiveBoth : List UploadEvent :=
  [.chunk 0 "0", .resume 0 true 1, .receive 0 [1, 2], .resume 0 true 2, .resume 0 true 3]

/-- A request completes the upload; `count` bytes are copied. -/
def completeWith (count : Nat) : List UploadEvent :=
  [.complete 1, .resume 1 true 4, .resume 1 true 5, .copy 1 count, .resume 1 true 6,
    .resume 1 true 7, .resume 1 true 8, .resume 1 true 9]

theorem step_twoBytes : step (twoBytes.initial 0) (.chunk 0 "0") =
    some ((twoBytes.initial 0).setPhase 0 (.openChunk (.number 0))) := by
  have hindex : parseInt "0" = .number 0 := by decide
  simp only [step, hindex]
  rfl

end ChunkedUpload

end Montr.Server
