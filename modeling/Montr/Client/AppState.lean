import Mathlib.Data.List.Basic

namespace Montr.Client

/-!
# Queue and application state

`playback/queue.rs` and `state/app_state.rs`: the playlist queue, the state shared by the
subsystems, and the cache path of an item (`cache/manager.rs`).  Counters of the telemetry are
left out.
-/

/-! ### Cache paths -/

/-- `MAX_SANITIZED_FILENAME_BYTES`. -/
def maxSanitizedFilenameBytes : Nat := 200

/-- `char::is_whitespace`. -/
def isWhitespace (c : Char) : Bool :=
  let n := c.toNat
  (9 ≤ n && n ≤ 13) || n == 0x20 || n == 0x85 || n == 0xa0 || n == 0x1680 ||
    (0x2000 ≤ n && n ≤ 0x200a) || n == 0x2028 || n == 0x2029 || n == 0x202f || n == 0x205f ||
    n == 0x3000

/-- `char::is_control`. -/
def isControl (c : Char) : Bool := c.toNat ≤ 0x1f || (0x7f ≤ c.toNat && c.toNat ≤ 0x9f)

/-- The longest prefix of at most `n` bytes in UTF-8. -/
def takeBytes : Nat → List Char → List Char
  | _, [] => []
  | n, c :: cs => if c.utf8Size ≤ n then c :: takeBytes (n - c.utf8Size) cs else []

/-- `sanitize_filename`. -/
def sanitizeFilename (raw : String) : String :=
  -- the segment after the last separator, trimmed
  let last := (raw.toList.reverse.takeWhile fun c => c ≠ '/' ∧ c ≠ '\\').reverse
  let trimmed := ((last.dropWhile isWhitespace).reverse.dropWhile isWhitespace).reverse
  let cleaned := trimmed.filter fun c => !isControl c
  let candidate :=
    if cleaned = [] ∨ cleaned = ['.'] ∨ cleaned = ['.', '.'] then "file".toList else cleaned
  String.ofList (takeBytes maxSanitizedFilenameBytes candidate)

/-- `get_cache_path`. -/
def getCachePath (cacheDir : String) (mediaId : Nat) (filename : String) : String :=
  let name := sanitizeFilename filename
  s!"{cacheDir}/{mediaId}_{name}"

example : getCachePath "/cache" 7 "..\\a/ clip\u0007.mp4 " = "/cache/7_clip.mp4" := by decide

/-! ### The playlist queue -/

inductive SubtitleKind
  | external
  | embedded
  deriving DecidableEq, Repr

/-- One subtitle track of a playlist item. -/
structure SubtitleTrack where
  id : Nat
  kind : SubtitleKind
  language : Option String := none
  label : Option String := none
  isDefault : Bool := false
  isForced : Bool := false
  downloadUrl : Option String := none
  filename : Option String := none
  format : Option String := none
  checksum : Option String := none
  streamIndex : Option Nat := none
  codec : Option String := none
  deriving DecidableEq, Repr

structure PlaylistItem where
  id : Nat
  mediaId : Nat
  filename : String
  downloadUrl : String := ""
  mediaType : String
  duration : Option Rat := none
  checksum : Option String := none
  orderIndex : Nat
  imageDuration : Nat
  subtitles : List SubtitleTrack := []
  fileSize : Option Nat := none
  deriving DecidableEq, Repr

/-- An image of ten seconds. -/
def PlaylistItem.image (n : Nat) (filename : String) : PlaylistItem where
  id := n
  mediaId := n
  filename := filename
  mediaType := "image"
  orderIndex := n
  imageDuration := 10

/-- A video. -/
def PlaylistItem.video (n : Nat) (filename : String) : PlaylistItem :=
  { PlaylistItem.image n filename with mediaType := "video" }

/-- A queue with the position of the current item, `none` before the first and after the last. -/
structure PlaylistQueue where
  items : List PlaylistItem := []
  currentIndex : Option Nat := none
  loopEnabled : Bool := false
  playlistId : Option Nat := none
  deriving DecidableEq, Repr

namespace PlaylistQueue

def current (q : PlaylistQueue) : Option PlaylistItem :=
  q.currentIndex.bind fun idx => q.items[idx]?

/-- The index `next` moves to. -/
def nextIndex (q : PlaylistQueue) : Option Nat :=
  match q.currentIndex with
  | none => some 0
  | some idx =>
    if q.items.length ≤ idx + 1 then if q.loopEnabled then some 0 else none else some (idx + 1)

/-- The index `previous` moves to. -/
def previousIndex (q : PlaylistQueue) : Option Nat :=
  match q.currentIndex with
  | none => some 0
  | some 0 => if q.loopEnabled then some (q.items.length - 1) else some 0
  | some (idx + 1) => some idx

def next (q : PlaylistQueue) : PlaylistQueue × Option PlaylistItem :=
  if q.items.isEmpty then (q, none)
  else
    let q := { q with currentIndex := q.nextIndex }
    (q, q.current)

def previous (q : PlaylistQueue) : PlaylistQueue × Option PlaylistItem :=
  if q.items.isEmpty then (q, none)
  else
    let q := { q with currentIndex := q.previousIndex }
    (q, q.current)

def reset (q : PlaylistQueue) : PlaylistQueue :=
  { q with currentIndex := if q.items.isEmpty then none else some 0 }

def setLoop (q : PlaylistQueue) (enabled : Bool) : PlaylistQueue :=
  { q with loopEnabled := enabled }

/-- `update_items`: before the first item. -/
def updateItems (q : PlaylistQueue) (items : List PlaylistItem) (playlistId : Nat) :
    PlaylistQueue :=
  { q with items := items, playlistId := some playlistId, currentIndex := none }

def clear (q : PlaylistQueue) : PlaylistQueue :=
  { q with items := [], currentIndex := none, playlistId := none }

end PlaylistQueue

/-! ### The application state -/

/-- Saved playlist state for the interrupt stack. -/
structure InterruptedPlaylist where
  playlistId : Nat
  items : List PlaylistItem
  loopEnabled : Bool
  currentIndex : Option Nat
  deriving DecidableEq, Repr

structure AppState where
  clientId : String := ""
  playlistId : Option Nat := none
  queue : PlaylistQueue := {}
  currentMediaId : Option Nat := none
  currentPosition : Option Int := none
  isPlaying : Bool := false
  lastError : Option String := none
  interruptStack : List InterruptedPlaylist := []
  deriving DecidableEq, Repr

namespace AppState

def currentQueueItem (s : AppState) : Option PlaylistItem := s.queue.current

def updatePlaylist (s : AppState) (playlistId : Nat) (items : List PlaylistItem)
    (loopEnabled : Bool) : AppState :=
  { s with
    playlistId := some playlistId
    queue := (s.queue.updateItems items playlistId).setLoop loopEnabled }

def clearPlaylist (s : AppState) : AppState :=
  { s with
    playlistId := none
    queue := s.queue.clear
    currentMediaId := none
    currentPosition := none
    isPlaying := false }

/-- Move to next item in queue. -/
def nextItem (s : AppState) : AppState × Option PlaylistItem :=
  let (queue, item) := s.queue.next
  match item with
  | some i =>
    ({ s with queue := queue, currentMediaId := some i.mediaId, currentPosition := some 0 }, item)
  | none => ({ s with queue := queue, currentMediaId := none, currentPosition := none }, item)

/-- Move to previous item in queue; without one the media stays. -/
def previousItem (s : AppState) : AppState × Option PlaylistItem :=
  let (queue, item) := s.queue.previous
  match item with
  | some i =>
    ({ s with queue := queue, currentMediaId := some i.mediaId, currentPosition := some 0 }, item)
  | none => ({ s with queue := queue }, item)

def resetQueue (s : AppState) : AppState :=
  let queue := s.queue.reset
  { s with
    queue := queue
    currentPosition := some 0
    currentMediaId :=
      match queue.current with
      | some item => some item.mediaId
      | none => s.currentMediaId }

def updatePosition (s : AppState) (position : Int) : AppState :=
  { s with currentPosition := some position }

def setPlaying (s : AppState) (isPlaying : Bool) : AppState := { s with isPlaying := isPlaying }

def setCurrentMedia (s : AppState) (mediaId : Option Nat) : AppState :=
  { s with currentMediaId := mediaId }

def setError (s : AppState) (error : Option String) : AppState := { s with lastError := error }

def pushInterrupt (s : AppState) : AppState :=
  match s.playlistId with
  | some playlistId =>
    { s with
      interruptStack := s.interruptStack ++
        [⟨playlistId, s.queue.items, s.queue.loopEnabled, s.queue.currentIndex⟩] }
  | none => s

def popInterrupt (s : AppState) : AppState × Option InterruptedPlaylist :=
  ({ s with interruptStack := s.interruptStack.dropLast }, s.interruptStack.getLast?)

def clearInterruptStack (s : AppState) : AppState := { s with interruptStack := [] }

end AppState

/-! ### The status report -/

structure CurrentMediaInfo where
  id : Nat
  filename : String
  deriving DecidableEq, Repr

/-- `ClientMessage::status_update`. -/
structure StatusUpdate where
  clientId : String
  currentMedia : Option CurrentMediaInfo
  position : Option Int
  isPlaying : Bool
  deriving DecidableEq, Repr

/-- The `current_media` of `send_status_update`: the media id of the state with the filename of
    the current queue item. -/
def AppState.currentMedia (s : AppState) : Option CurrentMediaInfo :=
  match s.currentMediaId, s.currentQueueItem with
  | some mediaId, some item => some ⟨mediaId, item.filename⟩
  | _, _ => none

/-- The message of `send_status_update`. -/
def AppState.statusUpdate (s : AppState) : StatusUpdate where
  clientId := s.clientId
  currentMedia := s.currentMedia
  position := s.currentPosition
  isPlaying := s.isPlaying

/-! ### The current item after each operation -/

section

variable {s : AppState} {item : PlaylistItem}

/-- Without a media id or a queue item the report has no media. -/
theorem AppState.currentMedia_eq_none (h : s.currentMediaId = none ∨ s.queue.current = none) :
    s.currentMedia = none := by
  unfold AppState.currentMedia AppState.currentQueueItem
  rcases h with h | h
  · rw [h]
  · rw [h]
    split
    next heq => cases heq
    next => rfl

theorem AppState.currentMedia_eq_some (hid : s.currentMediaId = some item.mediaId)
    (hitem : s.queue.current = some item) :
    s.currentMedia = some ⟨item.mediaId, item.filename⟩ := by
  unfold AppState.currentMedia AppState.currentQueueItem
  rw [hid, hitem]

/-- What the queue moves to is its current item. -/
theorem PlaylistQueue.current_next {q : PlaylistQueue} (h : q.next.2 = some item) :
    q.next.1.current = some item := by
  unfold next at h ⊢
  split at h
  · cases h
  · rename_i hne
    rw [if_neg hne]
    exact h

theorem PlaylistQueue.current_previous {q : PlaylistQueue} (h : q.previous.2 = some item) :
    q.previous.1.current = some item := by
  unfold previous at h ⊢
  split at h
  · cases h
  · rename_i hne
    rw [if_neg hne]
    exact h

/-- Moving to an item reports it; moving past the last reports none. -/
theorem AppState.currentMedia_nextItem (s : AppState) :
    s.nextItem.1.currentMedia = s.nextItem.2.map fun item => ⟨item.mediaId, item.filename⟩ := by
  unfold AppState.nextItem
  cases hq : s.queue.next with
  | mk queue found =>
    cases found with
    | none => exact AppState.currentMedia_eq_none (.inl rfl)
    | some item =>
      have hcurrent : s.queue.next.1.current = some item := s.queue.current_next (by rw [hq])
      rw [hq] at hcurrent
      exact AppState.currentMedia_eq_some rfl hcurrent

theorem AppState.currentMedia_previousItem (s : AppState) :
    s.previousItem.1.currentMedia =
      s.previousItem.2.map fun item => ⟨item.mediaId, item.filename⟩ := by
  unfold AppState.previousItem
  cases hq : s.queue.previous with
  | mk queue found =>
    cases found with
    | some item =>
      have hcurrent : s.queue.previous.1.current = some item :=
        s.queue.current_previous (by rw [hq])
      rw [hq] at hcurrent
      exact AppState.currentMedia_eq_some rfl hcurrent
    | none =>
      -- without an item to move to there is no current one either
      have hnone : s.queue.previous.1.current = s.queue.previous.2 := by
        unfold PlaylistQueue.previous
        split
        next hempty =>
          have hitems : s.queue.items = [] := List.isEmpty_iff.mp hempty
          simp [PlaylistQueue.current, hitems]
        next => rfl
      rw [hq] at hnone
      exact AppState.currentMedia_eq_none (.inr hnone)

@[simp] theorem AppState.nextItem_isPlaying (s : AppState) :
    s.nextItem.1.isPlaying = s.isPlaying := by
  unfold AppState.nextItem
  cases s.queue.next with
  | mk queue found => cases found <;> rfl

@[simp] theorem AppState.previousItem_isPlaying (s : AppState) :
    s.previousItem.1.isPlaying = s.isPlaying := by
  unfold AppState.previousItem
  cases s.queue.previous with
  | mk queue found => cases found <;> rfl

@[simp] theorem AppState.pushInterrupt_isPlaying (s : AppState) :
    s.pushInterrupt.isPlaying = s.isPlaying := by
  unfold AppState.pushInterrupt
  split <;> rfl

theorem AppState.nextItem_queue (s : AppState) : s.nextItem.1.queue = s.queue.next.1 := by
  unfold nextItem
  cases s.queue.next with
  | mk queue found => cases found <;> rfl

theorem AppState.nextItem_snd (s : AppState) : s.nextItem.2 = s.queue.next.2 := by
  unfold AppState.nextItem
  cases s.queue.next with
  | mk queue found => cases found <;> rfl

/-- From before the first item the queue moves to it. -/
theorem AppState.nextItem_of_before (hbefore : s.queue.currentIndex = none) :
    s.nextItem.2 = s.queue.items.head? := by
  rw [AppState.nextItem_snd]
  unfold PlaylistQueue.next PlaylistQueue.nextIndex PlaylistQueue.current
  rw [hbefore]
  cases s.queue.items <;> rfl

theorem AppState.currentMedia_of_before (hbefore : s.queue.currentIndex = none) :
    s.currentMedia = none :=
  AppState.currentMedia_eq_none (.inr (by simp [PlaylistQueue.current, hbefore]))

end

end Montr.Client
