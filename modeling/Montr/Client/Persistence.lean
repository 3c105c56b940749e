import Montr.Client.AppState
import Montr.Client.Deserialize
import Montr.Lib.AtomicReplace
import Mathlib.Data.List.Induction
import Std.Data.String.ToNat

namespace Montr.Client.Persistence

open Files

/-!
# Persistence of playlists and schedules

`state/persistence.rs`: the last assigned playlist in `playlist.json`, every pushed playlist in
`playlists/<id>.json`, the schedules in `schedules.json`, each replaced through a temporary file
next to it, and the migration of the first into the second.  Paths are relative to the cache
directory.  `serde_json` is a parameter.

`Saved` is the purpose: three kinds of slots, each holding the snapshot last saved.
`loads_of_history` ties the files to it over every sequence of saves and migrations that may
crash after any step.
-/

/-! ### Snapshots and paths -/

/-- `CURRENT_SCHEMA_VERSION`. -/
def currentSchemaVersion : Nat := 1

structure PersistedPlaylist where
  schemaVersion : Nat
  playlistId : Nat
  items : List PlaylistItem
  loopEnabled : Bool
  deriving DecidableEq, Repr

structure PersistedSchedules where
  schemaVersion : Nat
  schedules : List ScheduleEntry

/-- The snapshot that the saves of a playlist build. -/
def PersistedPlaylist.current (playlistId : Nat) (items : List PlaylistItem)
    (loopEnabled : Bool) : PersistedPlaylist :=
  { schemaVersion := currentSchemaVersion, playlistId, items, loopEnabled }

def PersistedSchedules.current (schedules : List ScheduleEntry) : PersistedSchedules :=
  { schemaVersion := currentSchemaVersion, schedules }

/-- `serde_json` on the two snapshots. -/
structure SerdeJson where
  playlistToVec : PersistedPlaylist → List UInt8
  playlistFromSlice : List UInt8 → Option PersistedPlaylist
  schedulesToVec : PersistedSchedules → List UInt8
  schedulesFromSlice : List UInt8 → Option PersistedSchedules

abbrev CachePath := List String

abbrev CacheDisk := Disk CachePath UInt8

def playlistPath : CachePath := ["playlist.json"]

def tmpPath : CachePath := ["playlist.json.tmp"]

def playlistsDir : CachePath := ["playlists"]

def versionedPath (playlistId : Nat) : CachePath :=
  playlistsDir ++ [Nat.repr playlistId ++ ".json"]

def versionedTmpPath (playlistId : Nat) : CachePath :=
  playlistsDir ++ [Nat.repr playlistId ++ ".json.tmp"]

def schedulesPath : CachePath := ["schedules.json"]

def schedulesTmpPath : CachePath := ["schedules.json.tmp"]

/-- `Path::extension` of a name in a directory. -/
def extension (name : String) : Option String :=
  match name.toList.reverse.dropWhile fun c => c ≠ '.' with
  -- no dot, or only a leading one
  | [] => none
  | [_] => none
  | _ => some (String.ofList (name.toList.reverse.takeWhile fun c => c ≠ '.').reverse)

example : extension "7.json" = some "json" ∧ extension "7.json.tmp" = some "tmp" := by decide

/-! ### Saving -/

/-- How a save went: how many bytes each write but the last took, and where it crashed. -/
structure Course where
  writes : List Nat
  /-- after how many steps, and what is left in a file that was not synced -/
  crash : Option (Nat × List UInt8)

/-- The parts that `write_all` writes. -/
def chunked {β : Type} : List Nat → List β → List (List β)
  | [], bytes => [bytes]
  | n :: ns, bytes => bytes.take n :: chunked ns (bytes.drop n)

def save (serde : SerdeJson) (d : CacheDisk) (playlistId : Nat) (items : List PlaylistItem)
    (loopEnabled : Bool) (course : Course) : CacheDisk :=
  let snapshot := PersistedPlaylist.current playlistId items loopEnabled
  d.replace tmpPath playlistPath (chunked course.writes (serde.playlistToVec snapshot))
    course.crash

def savePlaylistVersioned (serde : SerdeJson) (d : CacheDisk) (playlistId : Nat)
    (items : List PlaylistItem) (loopEnabled : Bool) (course : Course) : CacheDisk :=
  let snapshot := PersistedPlaylist.current playlistId items loopEnabled
  d.replace (versionedTmpPath playlistId) (versionedPath playlistId)
    (chunked course.writes (serde.playlistToVec snapshot)) course.crash

def saveSchedules (serde : SerdeJson) (d : CacheDisk) (schedules : List ScheduleEntry)
    (course : Course) : CacheDisk :=
  let snapshot := PersistedSchedules.current schedules
  d.replace schedulesTmpPath schedulesPath (chunked course.writes (serde.schedulesToVec snapshot))
    course.crash

/-! ### Loading -/

def readPersistedPlaylist (serde : SerdeJson) (d : CacheDisk) (path : CachePath) :
    Option PersistedPlaylist :=
  match d.read path with
  | none => none
  | some bytes =>
    match serde.playlistFromSlice bytes with
    | none => none
    | some snapshot =>
      if snapshot.schemaVersion ≠ currentSchemaVersion then none else some snapshot

/-- `load` has the body of `read_persisted_playlist`, at the legacy path. -/
def load (serde : SerdeJson) (d : CacheDisk) : Option PersistedPlaylist :=
  readPersistedPlaylist serde d playlistPath

def loadPlaylistVersioned (serde : SerdeJson) (d : CacheDisk) (playlistId : Nat) :
    Option PersistedPlaylist :=
  readPersistedPlaylist serde d (versionedPath playlistId)

/-- What an entry of the directory contributes. -/
def entrySnapshot (serde : SerdeJson) (d : CacheDisk) (name : String) : Option PersistedPlaylist :=
  if extension name = some "tmp" then none
  else if extension name ≠ some "json" then none
  else readPersistedPlaylist serde d (playlistsDir ++ [name])

/-- `load_all_playlists`, over the entries in the order that `read_dir` gives them. -/
def loadAllPlaylists (serde : SerdeJson) (d : CacheDisk) (entries : List String) :
    Nat → Option PersistedPlaylist :=
  entries.foldl
    (fun out name =>
      match entrySnapshot serde d name with
      | some snapshot => Function.update out snapshot.playlistId (some snapshot)
      | none => out)
    fun _ => none

/-- The entries that `read_dir` gives. -/
def Lists (d : CacheDisk) (entries : List String) : Prop :=
  ∀ name, name ∈ entries ↔ (d.read (playlistsDir ++ [name])).isSome = true

def loadSchedules (serde : SerdeJson) (d : CacheDisk) : List ScheduleEntry :=
  match d.read schedulesPath with
  | none => []
  | some bytes =>
    match serde.schedulesFromSlice bytes with
    | none => []
    | some snapshot =>
      if snapshot.schemaVersion ≠ currentSchemaVersion then [] else snapshot.schedules

/-! ### Migration -/

def migrateLegacyPlaylistIfNeeded (serde : SerdeJson) (d : CacheDisk) (course : Course) :
    CacheDisk :=
  match readPersistedPlaylist serde d playlistPath with
  | none => d
  | some snapshot =>
    if (d.read (versionedPath snapshot.playlistId)).isSome then d
    else
      savePlaylistVersioned serde d snapshot.playlistId snapshot.items snapshot.loopEnabled course

/-! ### Runs -/

inductive Action
  | save (playlistId : Nat) (items : List PlaylistItem) (loopEnabled : Bool)
  | saveVersioned (playlistId : Nat) (items : List PlaylistItem) (loopEnabled : Bool)
  | saveSchedules (schedules : List ScheduleEntry)
  | migrate

structure Attempt where
  action : Action
  course : Course

def perform (serde : SerdeJson) (d : CacheDisk) (a : Attempt) : CacheDisk :=
  match a.action with
  | .save playlistId items loopEnabled => save serde d playlistId items loopEnabled a.course
  | .saveVersioned playlistId items loopEnabled =>
    savePlaylistVersioned serde d playlistId items loopEnabled a.course
  | .saveSchedules schedules => saveSchedules serde d schedules a.course
  | .migrate => migrateLegacyPlaylistIfNeeded serde d a.course

/-- The files after a sequence of attempts. -/
def performAll (serde : SerdeJson) (attempts : List Attempt) : CacheDisk :=
  attempts.foldl (perform serde) .empty

/-- `serde_json` reads back what it writes of the snapshot an action saves. -/
def SerdeJson.RoundTrips (serde : SerdeJson) : Action → Prop
  | .save playlistId items loopEnabled | .saveVersioned playlistId items loopEnabled =>
    serde.playlistFromSlice (serde.playlistToVec (.current playlistId items loopEnabled)) =
      some (.current playlistId items loopEnabled)
  | .saveSchedules schedules =>
    serde.schedulesFromSlice (serde.schedulesToVec (.current schedules)) =
      some (.current schedules)
  | .migrate => True

/-! ### What the files are for -/

/-- The snapshot last saved in each slot. -/
structure Saved where
  playlist : Option PersistedPlaylist
  versioned : Nat → Option PersistedPlaylist
  schedules : List ScheduleEntry

namespace Saved

def nothing : Saved := { playlist := none, versioned := fun _ => none, schedules := [] }

/-- A completed action: a save replaces its slot, a migration fills an empty one. -/
def after (s : Saved) : Action → Saved
  | .save playlistId items loopEnabled =>
    { s with playlist := some (.current playlistId items loopEnabled) }
  | .saveVersioned playlistId items loopEnabled =>
    { s with
      versioned := Function.update s.versioned playlistId
        (some (.current playlistId items loopEnabled)) }
  | .saveSchedules schedules => { s with schedules := schedules }
  | .migrate =>
    match s.playlist with
    | none => s
    | some p =>
      if (s.versioned p.playlistId).isSome then s
      else { s with versioned := Function.update s.versioned p.playlistId (some p) }

end Saved

/-- What the slots may hold after a sequence of attempts: a completed action has had its effect,
    and one that crashed has had it or has had none. -/
inductive History : List Attempt → Saved → Prop
  | nil : History [] .nothing
  | done {attempts : List Attempt} {s : Saved} (a : Attempt) (before : History attempts s) :
      History (attempts ++ [a]) (s.after a.action)
  | crashed {attempts : List Attempt} {s : Saved} (a : Attempt) (before : History attempts s)
      (crash : a.course.crash ≠ none) : History (attempts ++ [a]) s

/-- What the loading functions return. -/
structure Loads (serde : SerdeJson) (d : CacheDisk) (s : Saved) : Prop where
  playlist : load serde d = s.playlist
  versioned : ∀ playlistId, loadPlaylistVersioned serde d playlistId = s.versioned playlistId
  all : ∀ entries, Lists d entries → loadAllPlaylists serde d entries = s.versioned
  listed : ∃ entries, Lists d entries
  schedules : loadSchedules serde d = s.schedules

/-! ### The paths -/

theorem repr_ne_nil (n : Nat) : (Nat.repr n).toList ≠ [] := by
  have hlength : 0 < (Nat.repr n).toList.length := by
    rw [show (Nat.repr n).toList = Nat.toDigits 10 n by simp [Nat.repr]]
    exact Nat.length_toDigits_pos
  exact List.ne_nil_of_length_pos hlength

/-- The extension of a name with a dot and an ending without one. -/
theorem extension_of_toList {name : String} {stem ending : List Char}
    (h : name.toList = stem ++ '.' :: ending) (hstem : stem ≠ []) (hending : '.' ∉ ending) :
    extension name = some (String.ofList ending) := by
  have hreverse : name.toList.reverse = ending.reverse ++ '.' :: stem.reverse := by
    rw [h]
    simp
  have hpos : ∀ c ∈ ending.reverse, decide (c ≠ '.') = true := by
    intro c hc
    refine decide_eq_true ?_
    rintro rfl
    exact hending (List.mem_reverse.mp hc)
  unfold extension
  rw [hreverse, List.dropWhile_append_of_pos hpos, List.takeWhile_append_of_pos hpos]
  cases hrev : stem.reverse with
  | nil => exact absurd (List.reverse_eq_nil_iff.mp hrev) hstem
  | cons c rest => simp

theorem extension_json (n : Nat) : extension (Nat.repr n ++ ".json") = some "json" := by
  refine extension_of_toList ?_ (repr_ne_nil n) ?_
  · rw [String.toList_append]
    rfl
  · decide

theorem extension_tmp (n : Nat) : extension (Nat.repr n ++ ".json.tmp") = some "tmp" := by
  have hstem : (Nat.repr n).toList ++ ".json".toList ≠ [] := by simp
  refine extension_of_toList ?_ hstem ?_
  · rw [String.toList_append, List.append_assoc]
    rfl
  · decide

theorem versionedPath_injective {m n : Nat} (h : versionedPath m = versionedPath n) : m = n := by
  have hname : Nat.repr m ++ ".json" = Nat.repr n ++ ".json" := by
    simpa [versionedPath, playlistsDir] using h
  have hlist := congrArg String.toList hname
  rw [String.toList_append, String.toList_append] at hlist
  exact Nat.repr_injective (String.toList_injective (List.append_cancel_right hlist))

/-- The temporary files. -/
def IsTemp (path : CachePath) : Prop :=
  path = tmpPath ∨ path = schedulesTmpPath ∨ ∃ id, path = versionedTmpPath id

theorem IsTemp.ne_playlistPath {path : CachePath} (h : IsTemp path) : playlistPath ≠ path := by
  rcases h with rfl | rfl | ⟨id, rfl⟩ <;> simp [playlistPath, tmpPath, schedulesTmpPath,
    versionedTmpPath, playlistsDir]

theorem IsTemp.ne_schedulesPath {path : CachePath} (h : IsTemp path) : schedulesPath ≠ path := by
  rcases h with rfl | rfl | ⟨id, rfl⟩ <;> simp [schedulesPath, tmpPath, schedulesTmpPath,
    versionedTmpPath, playlistsDir]

/-- A temporary file in the directory of playlists has its own extension. -/
theorem IsTemp.extension_eq {name : String} (h : IsTemp (playlistsDir ++ [name])) :
    extension name = some "tmp" := by
  rcases h with h | h | ⟨id, h⟩
  · simp [playlistsDir, tmpPath] at h
  · simp [playlistsDir, schedulesTmpPath] at h
  · obtain rfl : name = Nat.repr id ++ ".json.tmp" := by
      simpa [versionedTmpPath, playlistsDir] using h
    exact extension_tmp id

theorem IsTemp.ne_versionedPath {path : CachePath} (h : IsTemp path) (id : Nat) :
    versionedPath id ≠ path := by
  rintro rfl
  have htmp := h.extension_eq
  rw [extension_json] at htmp
  exact absurd htmp (by decide)

theorem playlistPath_ne_versionedPath (id : Nat) : playlistPath ≠ versionedPath id := by
  simp [playlistPath, versionedPath, playlistsDir]

theorem schedulesPath_ne_versionedPath (id : Nat) : schedulesPath ≠ versionedPath id := by
  simp [schedulesPath, versionedPath, playlistsDir]

@[simp] theorem chunked_flatten {β : Type} (sizes : List Nat) (bytes : List β) :
    (chunked sizes bytes).flatten = bytes := by
  induction sizes generalizing bytes with
  | nil => simp [chunked]
  | cons n sizes ih => rw [chunked, List.flatten_cons, ih, List.take_append_drop]

/-! ### The files hold what the slots hold -/

/-- The files at the final paths are the slots, and everything else is a temporary file. -/
structure Holds (serde : SerdeJson) (d : CacheDisk) (s : Saved) : Prop where
  synced : d.unsynced = none
  playlist : readPersistedPlaylist serde d playlistPath = s.playlist
  /-- what a migration writes is read back -/
  migratable : ∀ p, s.playlist = some p → p = .current p.playlistId p.items p.loopEnabled ∧
    serde.playlistFromSlice (serde.playlistToVec p) = some p
  versioned : ∀ id, readPersistedPlaylist serde d (versionedPath id) = s.versioned id
  exists_iff : ∀ id, (d.read (versionedPath id)).isSome = (s.versioned id).isSome
  keyed : ∀ id p, s.versioned id = some p → p.playlistId = id
  schedules : loadSchedules serde d = s.schedules
  names : ∀ name, (d.read (playlistsDir ++ [name])).isSome = true →
    extension name = some "tmp" ∨ ∃ id, name = Nat.repr id ++ ".json"
  finite : ∃ names : List String, ∀ name, (d.read (playlistsDir ++ [name])).isSome = true →
    name ∈ names

variable {serde : SerdeJson} {d d' : CacheDisk} {s : Saved} {tmp target : CachePath}

theorem readPersistedPlaylist_congr {p q : CachePath} (h : d'.read p = d.read q) :
    readPersistedPlaylist serde d' p = readPersistedPlaylist serde d q := by
  unfold readPersistedPlaylist
  rw [h]

theorem loadSchedules_congr (h : d'.read schedulesPath = d.read schedulesPath) :
    loadSchedules serde d' = loadSchedules serde d := by
  unfold loadSchedules
  rw [h]

/-- A snapshot that is written and read back. -/
theorem readPersistedPlaylist_of_read {path : CachePath} {p : PersistedPlaylist}
    (hread : d.read path = some (serde.playlistToVec p))
    (hback : serde.playlistFromSlice (serde.playlistToVec p) = some p)
    (hversion : p.schemaVersion = currentSchemaVersion) :
    readPersistedPlaylist serde d path = some p := by
  unfold readPersistedPlaylist
  rw [hread]
  dsimp only
  rw [hback]
  dsimp only
  rw [if_neg (not_not.mpr hversion)]

/-- What a step leaves in the directory of playlists. -/
theorem names_of_read (h : Holds serde d s) (htmp : IsTemp tmp)
    (hread : ∀ q, q ≠ tmp → q ≠ target → d'.read q = d.read q)
    (htarget : ∀ name, playlistsDir ++ [name] = target →
      extension name = some "tmp" ∨ ∃ id, name = Nat.repr id ++ ".json") :
    (∀ name, (d'.read (playlistsDir ++ [name])).isSome = true →
        extension name = some "tmp" ∨ ∃ id, name = Nat.repr id ++ ".json") ∧
      ∃ names : List String, ∀ name, (d'.read (playlistsDir ++ [name])).isSome = true →
        name ∈ names := by
  have hlast : ∀ name, playlistsDir ++ [name] = tmp ∨ playlistsDir ++ [name] = target ∨
      d'.read (playlistsDir ++ [name]) = d.read (playlistsDir ++ [name]) := by
    intro name
    by_cases hq : playlistsDir ++ [name] = tmp
    · exact .inl hq
    · by_cases ht : playlistsDir ++ [name] = target
      · exact .inr (.inl ht)
      · exact .inr (.inr (hread _ hq ht))
  constructor
  · intro name hname
    rcases hlast name with hq | hq | hq
    · left
      apply IsTemp.extension_eq
      rwa [hq]
    · exact htarget name hq
    · exact h.names name (by rwa [← hq])
  · obtain ⟨names, hnames⟩ := h.finite
    refine ⟨tmp.getLastD "" :: target.getLastD "" :: names, fun name hname => ?_⟩
    rcases hlast name with hq | hq | hq
    · simp [← hq, playlistsDir]
    · simp [← hq, playlistsDir]
    · exact List.mem_cons_of_mem _ (List.mem_cons_of_mem _ (hnames name (by rwa [← hq])))

/-- A step on a temporary file changes no slot. -/
theorem Holds.kept (h : Holds serde d s) (htmp : IsTemp tmp) (hsynced : d'.unsynced = none)
    (hread : ∀ q, q ≠ tmp → d'.read q = d.read q) : Holds serde d' s := by
  have hversioned := fun id => hread (versionedPath id) (htmp.ne_versionedPath id)
  have htemp : ∀ name, playlistsDir ++ [name] = tmp →
      extension name = some "tmp" ∨ ∃ id, name = Nat.repr id ++ ".json" :=
    fun name hname => .inl (IsTemp.extension_eq (by rwa [hname]))
  obtain ⟨hnames, hfinite⟩ := names_of_read h htmp (fun q hq _ => hread q hq) htemp
  exact {
    synced := hsynced
    playlist := (readPersistedPlaylist_congr (hread _ htmp.ne_playlistPath)).trans h.playlist
    migratable := h.migratable
    versioned := fun id => (readPersistedPlaylist_congr (hversioned id)).trans (h.versioned id)
    exists_iff := fun id => by rw [hversioned id, h.exists_iff id]
    keyed := h.keyed
    schedules := (loadSchedules_congr (hread _ htmp.ne_schedulesPath)).trans h.schedules
    names := hnames
    finite := hfinite }

/-- The legacy slot is replaced. -/
theorem Holds.savedPlaylist (h : Holds serde d s) (htmp : IsTemp tmp)
    (hsynced : d'.unsynced = none) {p : PersistedPlaylist}
    (hp : p = .current p.playlistId p.items p.loopEnabled)
    (hback : serde.playlistFromSlice (serde.playlistToVec p) = some p)
    (hread : ∀ q, q ≠ tmp → d'.read q =
      if q = playlistPath then some (serde.playlistToVec p) else d.read q) :
    Holds serde d' { s with playlist := some p } := by
  have hother : ∀ q, q ≠ tmp → q ≠ playlistPath → d'.read q = d.read q := by
    intro q hq hne
    rw [hread q hq, if_neg hne]
  have hversioned := fun id => hother (versionedPath id) (htmp.ne_versionedPath id)
    (playlistPath_ne_versionedPath id).symm
  obtain ⟨hnames, hfinite⟩ := names_of_read h htmp hother fun name hname =>
    absurd hname (by simp [playlistsDir, playlistPath])
  exact {
    synced := hsynced
    playlist := by
      apply readPersistedPlaylist_of_read _ hback (by rw [hp]; rfl)
      rw [hread _ htmp.ne_playlistPath, if_pos rfl]
    migratable := by
      intro q hq
      obtain rfl := Option.some.inj hq
      exact ⟨hp, hback⟩
    versioned := fun id => (readPersistedPlaylist_congr (hversioned id)).trans (h.versioned id)
    exists_iff := fun id => by rw [hversioned id, h.exists_iff id]
    keyed := h.keyed
    schedules := (loadSchedules_congr (hother _ htmp.ne_schedulesPath (by decide))).trans
      h.schedules
    names := hnames
    finite := hfinite }

/-- The slot of a playlist is replaced. -/
theorem Holds.savedVersioned (h : Holds serde d s) (htmp : IsTemp tmp)
    (hsynced : d'.unsynced = none) {p : PersistedPlaylist}
    (hp : p = .current p.playlistId p.items p.loopEnabled)
    (hback : serde.playlistFromSlice (serde.playlistToVec p) = some p)
    (hread : ∀ q, q ≠ tmp → d'.read q =
      if q = versionedPath p.playlistId then some (serde.playlistToVec p) else d.read q) :
    Holds serde d' { s with versioned := Function.update s.versioned p.playlistId (some p) } := by
  have hother : ∀ q, q ≠ tmp → q ≠ versionedPath p.playlistId → d'.read q = d.read q := by
    intro q hq hne
    rw [hread q hq, if_neg hne]
  have hself : d'.read (versionedPath p.playlistId) = some (serde.playlistToVec p) := by
    rw [hread _ (htmp.ne_versionedPath _), if_pos rfl]
  have hversioned : ∀ id, id ≠ p.playlistId →
      d'.read (versionedPath id) = d.read (versionedPath id) := by
    intro id hid
    exact hother _ (htmp.ne_versionedPath id) fun heq => hid (versionedPath_injective heq)
  obtain ⟨hnames, hfinite⟩ := names_of_read h htmp hother fun name hname =>
    .inr ⟨p.playlistId, by simpa [versionedPath] using hname⟩
  exact {
    synced := hsynced
    playlist := (readPersistedPlaylist_congr (hother _ htmp.ne_playlistPath
      (playlistPath_ne_versionedPath _))).trans h.playlist
    migratable := h.migratable
    versioned := by
      intro id
      show _ = Function.update s.versioned p.playlistId (some p) id
      by_cases hid : id = p.playlistId
      · subst hid
        rw [Function.update_self]
        exact readPersistedPlaylist_of_read hself hback (by rw [hp]; rfl)
      · rw [Function.update_of_ne hid]
        exact (readPersistedPlaylist_congr (hversioned id hid)).trans (h.versioned id)
    exists_iff := by
      intro id
      show _ = (Function.update s.versioned p.playlistId (some p) id).isSome
      by_cases hid : id = p.playlistId
      · subst hid
        rw [hself, Function.update_self]
        rfl
      · rw [hversioned id hid, Function.update_of_ne hid, h.exists_iff id]
    keyed := by
      intro id q hq
      replace hq : Function.update s.versioned p.playlistId (some p) id = some q := hq
      by_cases hid : id = p.playlistId
      · subst hid
        rw [Function.update_self] at hq
        rw [Option.some.inj hq]
      · rw [Function.update_of_ne hid] at hq
        exact h.keyed id q hq
    schedules := (loadSchedules_congr (hother _ htmp.ne_schedulesPath
      (schedulesPath_ne_versionedPath _))).trans h.schedules
    names := hnames
    finite := hfinite }

/-- The schedules are replaced. -/
theorem Holds.savedSchedules (h : Holds serde d s) (htmp : IsTemp tmp)
    (hsynced : d'.unsynced = none) {schedules : List ScheduleEntry}
    (hback : serde.schedulesFromSlice (serde.schedulesToVec (.current schedules)) =
      some (.current schedules))
    (hread : ∀ q, q ≠ tmp → d'.read q =
      if q = schedulesPath then some (serde.schedulesToVec (.current schedules))
      else d.read q) :
    Holds serde d' { s with schedules := schedules } := by
  have hother : ∀ q, q ≠ tmp → q ≠ schedulesPath → d'.read q = d.read q := by
    intro q hq hne
    rw [hread q hq, if_neg hne]
  have hversioned := fun id => hother (versionedPath id) (htmp.ne_versionedPath id)
    (schedulesPath_ne_versionedPath id).symm
  obtain ⟨hnames, hfinite⟩ := names_of_read h htmp hother fun name hname =>
    absurd hname (by simp [playlistsDir, schedulesPath])
  exact {
    synced := hsynced
    playlist := (readPersistedPlaylist_congr (hother _ htmp.ne_playlistPath (by decide))).trans
      h.playlist
    migratable := h.migratable
    versioned := fun id => (readPersistedPlaylist_congr (hversioned id)).trans (h.versioned id)
    exists_iff := fun id => by rw [hversioned id, h.exists_iff id]
    keyed := h.keyed
    schedules := by
      unfold loadSchedules
      rw [hread _ htmp.ne_schedulesPath, if_pos rfl]
      dsimp only
      rw [hback]
      rfl
    names := hnames
    finite := hfinite }

/-! ### Actions -/

theorem Holds.savePlaylistVersioned (h : Holds serde d s) {p : PersistedPlaylist}
    (hp : p = .current p.playlistId p.items p.loopEnabled)
    (hback : serde.playlistFromSlice (serde.playlistToVec p) = some p) (course : Course) :
    Holds serde
        (savePlaylistVersioned serde d p.playlistId p.items p.loopEnabled course)
        { s with versioned := Function.update s.versioned p.playlistId (some p) } ∨
      course.crash ≠ none ∧ Holds serde
        (savePlaylistVersioned serde d p.playlistId p.items p.loopEnabled course) s := by
  have htmp : IsTemp (versionedTmpPath p.playlistId) := .inr (.inr ⟨_, rfl⟩)
  obtain ⟨hsynced, hread⟩ := Disk.replace_read
    (chunked course.writes (serde.playlistToVec p)) course.crash h.synced
    (htmp.ne_versionedPath p.playlistId).symm
  rw [chunked_flatten] at hread
  unfold Persistence.savePlaylistVersioned
  rw [← hp]
  rcases hread with hread | ⟨hcrash, hread⟩
  · exact .inl (h.savedVersioned htmp hsynced hp hback hread)
  · exact .inr ⟨hcrash, h.kept htmp hsynced hread⟩

/-- **Step lemma.** An attempt has its effect on the slots, or it crashed and has none. -/
theorem Holds.perform (h : Holds serde d s) (a : Attempt)
    (roundTrips : serde.RoundTrips a.action) :
    Holds serde (perform serde d a) (s.after a.action) ∨
      a.course.crash ≠ none ∧ Holds serde (perform serde d a) s := by
  obtain ⟨action, course⟩ := a
  cases action with
  | save playlistId items loopEnabled =>
    have hne : tmpPath ≠ playlistPath := by decide
    obtain ⟨hsynced, hread⟩ := Disk.replace_read
      (chunked course.writes (serde.playlistToVec (.current playlistId items loopEnabled)))
      course.crash h.synced hne
    rw [chunked_flatten] at hread
    rcases hread with hread | ⟨hcrash, hread⟩
    · exact .inl (h.savedPlaylist (.inl rfl) hsynced rfl roundTrips hread)
    · exact .inr ⟨hcrash, h.kept (.inl rfl) hsynced hread⟩
  | saveVersioned playlistId items loopEnabled =>
    exact h.savePlaylistVersioned (p := .current playlistId items loopEnabled) rfl roundTrips course
  | saveSchedules schedules =>
    have hne : schedulesTmpPath ≠ schedulesPath := by decide
    obtain ⟨hsynced, hread⟩ := Disk.replace_read
      (chunked course.writes (serde.schedulesToVec (.current schedules))) course.crash h.synced hne
    rw [chunked_flatten] at hread
    rcases hread with hread | ⟨hcrash, hread⟩
    · exact .inl (h.savedSchedules (.inr (.inl rfl)) hsynced roundTrips hread)
    · exact .inr ⟨hcrash, h.kept (.inr (.inl rfl)) hsynced hread⟩
  | migrate =>
    show Holds serde (migrateLegacyPlaylistIfNeeded serde d course) (s.after .migrate) ∨
      course.crash ≠ none ∧ Holds serde (migrateLegacyPlaylistIfNeeded serde d course) s
    unfold migrateLegacyPlaylistIfNeeded Saved.after
    rw [h.playlist]
    cases hlegacy : s.playlist with
    | none => exact .inl h
    | some p =>
      dsimp only
      rw [h.exists_iff p.playlistId]
      split
      · exact .inl h
      · obtain ⟨hp, hback⟩ := h.migratable p hlegacy
        have hsaved := h.savePlaylistVersioned hp hback course
        rwa [hlegacy] at hsaved

/-! ### Loading everything -/

theorem entrySnapshot_tmp {name : String} (h : extension name = some "tmp") :
    entrySnapshot serde d name = none := by
  unfold entrySnapshot
  rw [if_pos h]

theorem Holds.entrySnapshot_json (h : Holds serde d s) (id : Nat) :
    entrySnapshot serde d (Nat.repr id ++ ".json") = s.versioned id := by
  unfold entrySnapshot
  rw [extension_json, if_neg (by decide), if_neg (by decide)]
  exact h.versioned id

/-- Snapshots collected under their ids are what they are under them, if they agree with it. -/
theorem collect_eq {entry : String → Option PersistedPlaylist}
    {slots : Nat → Option PersistedPlaylist} {names : List String} {id : Nat}
    (sound : ∀ name ∈ names, ∀ p, entry name = some p → slots p.playlistId = some p)
    {out : Nat → Option PersistedPlaylist}
    (complete : out id = slots id ∨ ∃ name ∈ names, ∃ p, entry name = some p ∧ p.playlistId = id) :
    names.foldl
        (fun out name =>
          match entry name with
          | some p => Function.update out p.playlistId (some p)
          | none => out)
        out id = slots id := by
  induction names generalizing out with
  | nil => exact complete.resolve_right (by simp)
  | cons name names ih =>
    rw [List.foldl_cons]
    apply ih fun other hother => sound other (List.mem_cons_of_mem _ hother)
    cases hentry : entry name with
    | none =>
      refine complete.imp_right ?_
      rintro ⟨other, hother, p, hp, hid⟩
      rcases List.mem_cons.mp hother with rfl | hother
      · exact absurd hp (by simp [hentry])
      · exact ⟨other, hother, p, hp, hid⟩
    | some q =>
      by_cases hq : q.playlistId = id
      · left
        subst hq
        dsimp only
        rw [Function.update_self, sound name List.mem_cons_self q hentry]
      · dsimp only
        rw [Function.update_of_ne (Ne.symm hq)]
        refine complete.imp_right ?_
        rintro ⟨other, hother, p, hp, hid⟩
        rcases List.mem_cons.mp hother with rfl | hother
        · obtain rfl := Option.some.inj (hentry.symm.trans hp)
          exact absurd hid hq
        · exact ⟨other, hother, p, hp, hid⟩

theorem Holds.loadAll (h : Holds serde d s) {entries : List String} (hlists : Lists d entries) :
    loadAllPlaylists serde d entries = s.versioned := by
  funext id
  apply collect_eq
  · intro name hname p hp
    rcases h.names name ((hlists name).mp hname) with htmp | ⟨id', rfl⟩
    · exact absurd hp (by simp [entrySnapshot_tmp htmp])
    · rw [h.entrySnapshot_json] at hp
      rw [h.keyed id' p hp, hp]
  · cases hslot : s.versioned id with
    | none => exact .inl rfl
    | some p =>
      have hfile : (d.read (versionedPath id)).isSome = true := by
        rw [h.exists_iff id, hslot]
        rfl
      exact .inr ⟨_, (hlists _).mpr hfile, p, by rw [h.entrySnapshot_json, hslot],
        h.keyed id p hslot⟩

theorem Holds.loads (h : Holds serde d s) : Loads serde d s where
  playlist := h.playlist
  versioned := h.versioned
  all _ hlists := h.loadAll hlists
  listed := by
    obtain ⟨names, hnames⟩ := h.finite
    refine ⟨names.filter fun name => (d.read (playlistsDir ++ [name])).isSome, fun name => ?_⟩
    rw [List.mem_filter]
    exact ⟨And.right, fun hname => ⟨hnames name hname, hname⟩⟩
  schedules := h.schedules

/-! ### Migration -/

/-- Repeating the migration changes nothing, and a slot that holds a snapshot keeps it. -/
structure MigratesOnce (serde : SerdeJson) (d : CacheDisk) : Prop where
  idempotent : ∀ first again : Course, first.crash = none →
    migrateLegacyPlaylistIfNeeded serde (migrateLegacyPlaylistIfNeeded serde d first) again =
      migrateLegacyPlaylistIfNeeded serde d first
  keeps : ∀ (course : Course) id p, loadPlaylistVersioned serde d id = some p →
    loadPlaylistVersioned serde (migrateLegacyPlaylistIfNeeded serde d course) id = some p

/-- With the slot filled there is nothing to migrate. -/
theorem Holds.migrate_eq (h : Holds serde d s)
    (hfilled : ∀ p, s.playlist = some p → (s.versioned p.playlistId).isSome = true)
    (course : Course) : migrateLegacyPlaylistIfNeeded serde d course = d := by
  unfold migrateLegacyPlaylistIfNeeded
  rw [h.playlist]
  cases hlegacy : s.playlist with
  | none => rfl
  | some p =>
    dsimp only
    rw [h.exists_iff, hfilled p hlegacy]
    rfl

theorem Saved.after_migrate_playlist (s : Saved) : (s.after .migrate).playlist = s.playlist := by
  unfold Saved.after
  cases hlegacy : s.playlist with
  | none => exact hlegacy
  | some p =>
    dsimp only
    split
    · exact hlegacy
    · rfl

/-- After a migration the slot of the legacy snapshot is filled. -/
theorem Saved.after_migrate_filled (s : Saved) (p : PersistedPlaylist) (hp : s.playlist = some p) :
    ((s.after .migrate).versioned p.playlistId).isSome = true := by
  unfold Saved.after
  rw [hp]
  dsimp only
  split
  · next hfilled => exact hfilled
  · show (Function.update s.versioned p.playlistId (some p) p.playlistId).isSome = true
    rw [Function.update_self]
    rfl

/-- A migration keeps the slots that are filled. -/
theorem Saved.after_migrate_versioned {s : Saved} {id : Nat} {p : PersistedPlaylist}
    (h : s.versioned id = some p) : (s.after .migrate).versioned id = some p := by
  unfold Saved.after
  cases hlegacy : s.playlist with
  | none => exact h
  | some q =>
    dsimp only
    split
    · exact h
    · next hempty =>
      show Function.update s.versioned q.playlistId (some q) id = some p
      rw [Function.update_of_ne, h]
      rintro rfl
      exact hempty (by rw [h]; rfl)

theorem Holds.migratesOnce (h : Holds serde d s) : MigratesOnce serde d where
  idempotent := by
    intro first again hfirst
    rcases h.perform ⟨.migrate, first⟩ trivial with hdone | ⟨hcrash, -⟩
    · apply Holds.migrate_eq hdone
      intro p hp
      apply s.after_migrate_filled p
      rwa [s.after_migrate_playlist] at hp
    · exact absurd hfirst hcrash
  keeps := by
    intro course id p hp
    have hslot : s.versioned id = some p := (h.versioned id).symm.trans hp
    rcases h.perform ⟨.migrate, course⟩ trivial with hdone | ⟨-, hsame⟩
    · exact (hdone.versioned id).trans (Saved.after_migrate_versioned hslot)
    · exact (hsame.versioned id).trans hslot

/-! ### Runs -/

theorem holds_nothing (serde : SerdeJson) : Holds serde .empty .nothing where
  synced := rfl
  playlist := rfl
  migratable p h := absurd h (by simp [Saved.nothing])
  versioned _ := rfl
  exists_iff _ := rfl
  keyed id p h := absurd h (by simp [Saved.nothing])
  schedules := rfl
  names name h := absurd h (by simp [Disk.read, Disk.empty, FileSystem.read, FileSystem.empty])
  finite := ⟨[], fun name h =>
    absurd h (by simp [Disk.read, Disk.empty, FileSystem.read, FileSystem.empty])⟩

/-- **Run lemma.** The files hold one of the histories of the attempts. -/
theorem holds_performAll {attempts : List Attempt}
    (roundTrips : ∀ a ∈ attempts, serde.RoundTrips a.action) :
    ∃ s, History attempts s ∧ Holds serde (performAll serde attempts) s := by
  induction attempts using List.reverseRecOn with
  | nil => exact ⟨.nothing, .nil, holds_nothing serde⟩
  | append_singleton attempts a ih =>
    obtain ⟨s, hhistory, hholds⟩ := ih fun b hb => roundTrips b (List.mem_append_left _ hb)
    have hperform : performAll serde (attempts ++ [a]) =
        perform serde (performAll serde attempts) a := by
      unfold performAll
      rw [List.foldl_append]
      rfl
    rw [hperform]
    rcases hholds.perform a (roundTrips a (by simp)) with hdone | ⟨hcrash, hsame⟩
    · exact ⟨_, .done a hhistory, hdone⟩
    · exact ⟨s, .crashed a hhistory hcrash, hsame⟩

/-- Without crashes there is one history. -/
theorem History.eq_of_no_crash {attempts : List Attempt} (h : History attempts s)
    (hdone : ∀ a ∈ attempts, a.course.crash = none) :
    s = attempts.foldl (fun s a => s.after a.action) .nothing := by
  induction h with
  | nil => rfl
  | done a _ ih =>
    rw [List.foldl_append, ← ih fun b hb => hdone b (List.mem_append_left _ hb)]
    rfl
  | crashed a _ hcrash => exact absurd (hdone a (by simp)) hcrash

/-- **Persistence is crash-consistent.**  After every sequence of playlist saves, versioned saves,
    schedule saves and migrations, each of which may crash after any of its steps, the loading
    functions return slots in which every completed action has had its effect and every crashed one
    has had it or has had none; without crashes each slot is the value last saved; and from there
    a migration is idempotent and replaces no versioned snapshot. -/
theorem loads_of_history (serde : SerdeJson) (attempts : List Attempt)
    (roundTrips : ∀ a ∈ attempts, serde.RoundTrips a.action) :
    ∃ s, History attempts s ∧ Loads serde (performAll serde attempts) s ∧
      ((∀ a ∈ attempts, a.course.crash = none) →
        s = attempts.foldl (fun s a => s.after a.action) .nothing) ∧
      MigratesOnce serde (performAll serde attempts) := by
  obtain ⟨s, hhistory, hholds⟩ := holds_performAll roundTrips
  exact ⟨s, hhistory, hholds.loads, hhistory.eq_of_no_crash, hholds.migratesOnce⟩

/-- The text of playlist 7 without items. -/
def emptyPlaylistText : List UInt8 :=
  ("\x7b\n  \"schema_version\": 1,\n  \"playlist_id\": 7,\n  \"items\": [],\n" ++
    "  \"loop_enabled\": true\n\x7d").toUTF8.data.toList

/-- `serde_json` as far as that playlist goes. -/
def emptyPlaylistSerde : SerdeJson where
  playlistToVec _ := emptyPlaylistText
  playlistFromSlice bytes :=
    if bytes = emptyPlaylistText then some (.current 7 [] true) else none
  schedulesToVec _ := []
  schedulesFromSlice _ := none

/-- A save, a migration that crashes after its second write, and one that completes. -/
theorem loads_of_history_migrated :
    ∃ s, History
        [⟨.save 7 [] true, ⟨[3, 40], none⟩⟩, ⟨.migrate, ⟨[10], some (4, [0])⟩⟩,
          ⟨.migrate, ⟨[], none⟩⟩] s ∧
      Loads emptyPlaylistSerde (performAll emptyPlaylistSerde
        [⟨.save 7 [] true, ⟨[3, 40], none⟩⟩, ⟨.migrate, ⟨[10], some (4, [0])⟩⟩,
          ⟨.migrate, ⟨[], none⟩⟩]) s :=
  have hruns := loads_of_history emptyPlaylistSerde
    [⟨.save 7 [] true, ⟨[3, 40], none⟩⟩, ⟨.migrate, ⟨[10], some (4, [0])⟩⟩,
      ⟨.migrate, ⟨[], none⟩⟩]
    (by
      intro a ha
      simp only [List.mem_cons, List.not_mem_nil, or_false] at ha
      rcases ha with rfl | rfl | rfl
      · show (if emptyPlaylistText = emptyPlaylistText then
          some (PersistedPlaylist.current 7 [] true) else none) = _
        rw [if_pos rfl]
      · trivial
      · trivial)
  let ⟨s, hhistory, hloads, _⟩ := hruns
  ⟨s, hhistory, hloads⟩

end Montr.Client.Persistence
