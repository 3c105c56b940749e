import Montr.Client.CacheManager
import Montr.Client.LruAccounting

namespace Montr.Client

open Lru LawfulLruMap Transition
open scoped BigOperators

/-!
# The quota of the cache

`WithinQuota`: the index lists the completed files with their sizes, and together they fit once the
pinned ones do.  Evictions keep this and a restart establishes it, but no download enters its file
into the index; `withinQuota_of_quiet` is about the runs in which none has to.
-/

variable {M : Type} [LruMap M Nat CacheEntry]

namespace LruCacheManager

variable {s : LruCacheManager M} {refuses : String → Bool}

/-! ### How far eviction gets -/

/-- Without pins, only an empty index has nothing to evict. -/
theorem keys_of_nothing_to_evict (unpinned : s.pinned = ∅) (h : s.mediaIdToEvict = none) :
    keys s.cache = [] := by
  by_contra hne
  obtain ⟨id, hid⟩ := List.exists_mem_of_ne_nil _ hne
  have hall := List.find?_eq_none.mp h id (List.mem_reverse.mpr hid)
  rw [unpinned] at hall
  exact hall (by simp)

theorem mem_keys_of_mediaIdToEvict {mediaId : Nat} (h : s.mediaIdToEvict = some mediaId) :
    mediaId ∈ keys s.cache :=
  List.mem_reverse.mp (List.mem_of_find?_eq_some h)

variable [LawfulLruMap M]

/-- Without pins and with a round for each entry, the loop reaches its target. -/
theorem evictLoop_reaches (agrees : ∀ path, refuses path = false) (sound : Sound s)
    (unpinned : s.pinned = ∅) (targetSize : Nat) {rounds : Nat}
    (enough : (iter s.cache).length < rounds) :
    (evictLoop refuses targetSize rounds s).2.currentSize ≤ targetSize := by
  induction rounds generalizing s with
  | zero => exact absurd enough (Nat.not_lt_zero _)
  | succ rounds ih =>
    unfold evictLoop
    split
    · next hle => exact hle
    · split
      · next hnothing =>
        -- only an empty index has nothing to evict, and then no bytes are counted
        have hkeys := keys_of_nothing_to_evict unpinned hnothing
        have hiter : iter s.cache = [] := List.map_eq_nil_iff.mp hkeys
        have hsize : s.currentSize = 0 := by
          rw [sound.accounted, total, hiter]
          rfl
        show s.currentSize ≤ targetSize
        omega
      · next mediaId hsome =>
        have hmem := mem_keys_of_mediaIdToEvict hsome
        obtain ⟨hnone, -⟩ | ⟨entry, hpeek, hremoved⟩ := remove_spec agrees s mediaId
        · exact absurd hmem (peek_eq_none.mp hnone)
        · -- one entry less, and one round less to go
          have hsound := remove_sound agrees s mediaId sound
          have hfewer : (iter (pop s.cache mediaId).2).length < (iter s.cache).length :=
            length_pop_lt hmem
          rw [hremoved] at hsound
          rw [hpeek, hremoved]
          refine ih hsound unpinned ?_
          show (iter (pop s.cache mediaId).2).length < rounds
          omega

theorem evictIfNeeded_fits (agrees : ∀ path, refuses path = false) (sound : Sound s)
    (unpinned : s.pinned = ∅) (room : (iter s.cache).length < evictionLimit) :
    (s.evictIfNeeded refuses).2.currentSize ≤ s.maxSizeBytes := by
  unfold evictIfNeeded
  split
  · next hle => exact hle
  · have hreaches := evictLoop_reaches agrees sound unpinned s.evictTarget room
    have htarget : s.evictTarget ≤ s.maxSizeBytes := by
      unfold evictTarget
      omega
    exact hreaches.trans htarget

/-! ### What the loop of `init` enters -/

omit [LawfulLruMap M] in
/-- Entering files changes the index, the count and what left. -/
theorem enterAll_rest (files : List CacheEntry) : ∀ s : LruCacheManager M,
    (files.foldl enter s).pinned = s.pinned ∧ (files.foldl enter s).files = s.files ∧
      (files.foldl enter s).maxSizeBytes = s.maxSizeBytes ∧
      (files.foldl enter s).cacheDir = s.cacheDir := by
  induction files with
  | nil => exact fun s => ⟨rfl, rfl, rfl, rfl⟩
  | cons entry files ih => exact fun s => ih (s.enter entry)

theorem cap_enterAll (files : List CacheEntry) : ∀ s : LruCacheManager M,
    cap (files.foldl enter s).cache = cap s.cache := by
  induction files with
  | nil => exact fun _ => rfl
  | cons entry files ih => exact fun s => (ih (s.enter entry)).trans (cap_put _ _ _)

theorem mem_enterAll {files : List CacheEntry} (fits : s.FitsScan files) {e : Nat × CacheEntry} :
    e ∈ iter (files.foldl enter s).cache ↔
      (∃ entry ∈ files, e = (entry.mediaId, entry)) ∨ e ∈ iter s.cache := by
  induction files generalizing s with
  | nil => simp
  | cons entry files ih =>
    have hroom := fits.room
    rw [List.length_cons] at hroom
    have hput : e ∈ iter (s.enter entry).cache ↔ e = (entry.mediaId, entry) ∨ e ∈ iter s.cache :=
      mem_put (fits.fresh entry List.mem_cons_self) (by omega)
    rw [List.foldl_cons, ih fits.enter, hput]
    simp only [List.mem_cons, exists_eq_or_imp]
    rw [or_left_comm, or_assoc]

end LruCacheManager

/-! ### The files of the directory -/

theorem toString_string (s : String) : toString s = s := rfl

/-- The path of a file of the cache directory. -/
def filePath (cacheDir name : String) : String := s!"{cacheDir}/{name}"

theorem filePath_inj {cacheDir name name' : String}
    (h : filePath cacheDir name = filePath cacheDir name') : name = name' := by
  have hchars : (filePath cacheDir name).toList = (filePath cacheDir name').toList := by rw [h]
  have hnames : name.toList = name'.toList := by
    simpa [filePath, toString_string] using hchars
  exact String.toList_inj.mp hnames

/-- The id of a name that `get_cache_path` gives is read back. -/
theorem mediaIdOf_cacheName {mediaId : Nat} {name : String} (h : mediaId < 2 ^ 32) :
    mediaIdOf s!"{mediaId}_{name}" = some mediaId := by
  have hchars : (s!"{mediaId}_{name}").toList = Nat.toDigits 10 mediaId ++ '_' :: name.toList := by
    simp [toString_string]
  have hprefix : (Nat.toDigits 10 mediaId ++ '_' :: name.toList).takeWhile
      (fun c => decide (c ≠ '_')) = Nat.toDigits 10 mediaId := by
    rw [List.takeWhile_append_of_pos, List.takeWhile_cons_of_neg (by simp), List.append_nil]
    intro c hc
    have hne : c ≠ '_' := by
      rintro rfl
      exact Nat.underscore_not_in_toDigits hc
    exact decide_eq_true hne
  have hdigits : (Nat.toDigits 10 mediaId).all Char.isDigit = true :=
    List.all_eq_true.mpr fun c hc => Nat.isDigit_of_mem_toDigits (by omega) (by omega) hc
  have hnoSign : ∀ rest, Nat.toDigits 10 mediaId ≠ '+' :: rest := by
    intro rest heq
    have hplus : Char.isDigit '+' = true := List.all_eq_true.mp hdigits '+' (by simp [heq])
    exact absurd hplus (by decide)
  have hvalue : (Nat.toDigits 10 mediaId).foldl (fun n c => 10 * n + (c.toNat - '0'.toNat)) 0 =
      mediaId := Nat.ofDigitChars_ten_toDigits
  unfold mediaIdOf
  rw [hchars, hprefix]
  unfold parseU32
  split
  · next rest heq => exact absurd heq (hnoSign rest)
  · simp only [hvalue]
    exact if_pos ⟨Nat.toDigits_ne_nil, hdigits, h⟩

/-- The listing names the files of the directory, each with its size. -/
structure Lists (s : LruCacheManager M) (listing : List DirEntry) : Prop where
  files : ∀ e ∈ listing, ∀ name metadata, e.fileName = some name → e.metadata = some metadata →
    metadata.isFile = true → s.files (filePath s.cacheDir name) = some metadata.len
  all : ∀ name size, s.files (filePath s.cacheDir name) = some size →
    ∃ accessed, ⟨some name, some ⟨true, size, accessed⟩⟩ ∈ listing

namespace CacheManager

/-- The bytes of the completed files on disk. -/
def completedBytes (s : CacheManager M) : Nat :=
  ∑ path ∈ s.completed, (s.lru.files path).getD 0

/-- **The cache respects its quota**: the index lists the completed files on disk with their sizes,
    and these fit whenever the pinned ones do. -/
structure WithinQuota (s : CacheManager M) : Prop where
  tracked : ∀ path size, (∃ e ∈ iter s.lru.cache, e.2.path = path ∧ e.2.size = size) ↔
    path ∈ s.completed ∧ s.lru.files path = some size
  quota : s.lru.pinnedBytes ≤ s.lru.maxSizeBytes → s.completedBytes ≤ s.lru.maxSizeBytes

/-- The download that an event is about neither writes nor deletes a completed file, and replaces
    one by a file of its size; a restart finds completed files only, one for each id and at most
    10000. -/
def QuietEvent (s : CacheManager M) : Event → Prop
  | .openFile i append => append = false →
    ∀ d, s.active[i]? = some d → tempPath d.finalPath ∉ s.completed
  | .writeChunk i _ =>
    ∀ d, s.active[i]? = some d → ∀ path, d.handle = some path → path ∉ s.completed
  | .complete i => ∀ d, s.active[i]? = some d →
    tempPath d.finalPath ∉ s.completed ∧ d.finalPath ∈ s.completed ∧
      s.lru.files (tempPath d.finalPath) = s.lru.files d.finalPath
  | .fail i => ∀ d, s.active[i]? = some d → tempPath d.finalPath ∉ s.completed
  | .restart (some listing) =>
    Lists s.lru listing ∧ (∀ entry ∈ s.lru.scan listing, entry.path ∈ s.completed) ∧
      ((s.lru.scan listing).map CacheEntry.mediaId).Nodup ∧
      (s.lru.scan listing).length ≤ LruCacheManager.cacheCapacity
  | _ => True

/-- No deletion fails, and the event is quiet. -/
def Quiet (s : CacheManager M) (call : Call) : Prop :=
  (∀ path, call.refuses path = false) ∧ s.QuietEvent call.event

/-! ### The invariant -/

/-- The entries are the completed files, each under the id of its name. -/
structure Exact (completed : Finset String) (lru : LruCacheManager M) : Prop where
  named : ∀ e ∈ iter lru.cache,
    ∃ name, e.2.path = filePath lru.cacheDir name ∧ mediaIdOf name = some e.1
  listed : ∀ e ∈ iter lru.cache, e.2.path ∈ completed ∧ lru.files e.2.path = some e.2.size
  complete : ∀ path ∈ completed, lru.files path ≠ none → ∃ e ∈ iter lru.cache, e.2.path = path

/-- The entries are the completed files, their sizes are counted, and they fit. -/
structure Kept (completed : Finset String) (lru : LruCacheManager M) : Prop where
  exact : Exact completed lru
  sound : lru.Sound
  fits : lru.currentSize ≤ lru.maxSizeBytes

/-- The completed files on disk have names with a media id. -/
def Named (completed : Finset String) (lru : LruCacheManager M) : Prop :=
  ∀ path ∈ completed, lru.files path ≠ none →
    ∃ name mediaId, path = filePath lru.cacheDir name ∧ mediaIdOf name = some mediaId

section

variable {completed : Finset String} {lru : LruCacheManager M} {refuses : String → Bool}

theorem Exact.names (h : Exact completed lru) : Named completed lru := by
  intro path hpath hfile
  obtain ⟨e, he, rfl⟩ := h.complete path hpath hfile
  obtain ⟨name, hname, hid⟩ := h.named e he
  exact ⟨name, e.1, hname, hid⟩

/-- Other files of the directory do not matter. -/
theorem Kept.setFiles (h : Kept completed lru) {files : String → Option Nat}
    (same : ∀ path ∈ completed, files path = lru.files path) :
    Kept completed { lru with files := files } where
  exact :=
    { named := h.exact.named
      listed e he := by
        have hlisted := h.exact.listed e he
        exact ⟨hlisted.1, (same _ hlisted.1).trans hlisted.2⟩
      complete path hpath hfile := h.exact.complete path hpath (same path hpath ▸ hfile) }
  sound := ⟨h.sound.accounted, h.sound.nothingLost⟩
  fits := h.fits

/-- Deleted files are no completed ones. -/
theorem Kept.settle (h : Kept completed lru) :
    Kept (completed.filter fun path => (lru.files path).isSome) lru where
  exact :=
    { named := h.exact.named
      listed e he := by
        have hlisted := h.exact.listed e he
        refine ⟨Finset.mem_filter.mpr ⟨hlisted.1, ?_⟩, hlisted.2⟩
        rw [hlisted.2]
        rfl
      complete path hpath hfile :=
        h.exact.complete path (Finset.mem_filter.mp hpath).1 hfile }
  sound := h.sound
  fits := h.fits

variable [LawfulLruMap M]

/-- Two entries of one path are one entry. -/
theorem Exact.eq_of_path (h : Exact completed lru) {e e' : Nat × CacheEntry}
    (he : e ∈ iter lru.cache) (he' : e' ∈ iter lru.cache) (path : e.2.path = e'.2.path) :
    e = e' := by
  obtain ⟨name, hpath, hid⟩ := h.named e he
  obtain ⟨name', hpath', hid'⟩ := h.named e' he'
  obtain rfl : name = name' := filePath_inj (hpath.symm.trans (path.trans hpath'))
  have hkey : e.1 = e'.1 := Option.some.inj (hid.symm.trans hid')
  have hvalue : some e.2 = some e'.2 := by
    rw [← peek_of_mem_iter (m := lru.cache) he, ← peek_of_mem_iter (m := lru.cache) he', hkey]
  exact Prod.ext hkey (Option.some.inj hvalue)

/-- A removal takes an entry and its file. -/
theorem Exact.remove (agrees : ∀ path, refuses path = false) (mediaId : Nat)
    (h : Exact completed lru) : Exact completed (lru.remove refuses mediaId).2 := by
  obtain ⟨-, heq⟩ | ⟨entry, hpeek, heq⟩ := LruCacheManager.remove_spec agrees lru mediaId
  · rw [heq]
    exact h
  · rw [heq]
    have hentry : (mediaId, entry) ∈ iter lru.cache := mem_iter_of_peek hpeek
    refine ⟨fun e he => h.named e (mem_pop.mp he).1, fun e he => ?_, fun path hpath hfile => ?_⟩
    · -- the entries that stay have other paths, so their files stay
      obtain ⟨hmem, hid⟩ := mem_pop.mp he
      have hlisted := h.listed e hmem
      have hother : e.2.path ≠ entry.path := by
        intro hpath
        exact hid (congrArg Prod.fst (h.eq_of_path hmem hentry hpath))
      refine ⟨hlisted.1, ?_⟩
      show Function.update lru.files entry.path none e.2.path = _
      rw [Function.update_of_ne hother]
      exact hlisted.2
    · -- a file that is still there was not the one deleted
      have hother : path ≠ entry.path := by
        rintro rfl
        exact hfile (Function.update_self _ _ _)
      have hbefore : lru.files path ≠ none := by
        rw [← Function.update_of_ne hother none lru.files]
        exact hfile
      obtain ⟨e, he, rfl⟩ := h.complete path hpath hbefore
      refine ⟨e, mem_pop.mpr ⟨he, fun hid => hother ?_⟩, rfl⟩
      have hvalue : some e.2 = some entry := by
        rw [← peek_of_mem_iter (m := lru.cache) he, hid, hpeek]
      rw [Option.some.inj hvalue]

theorem Kept.remove (agrees : ∀ path, refuses path = false) (lru : LruCacheManager M)
    (mediaId : Nat) (h : Kept completed lru) : Kept completed (lru.remove refuses mediaId).2 where
  exact := h.exact.remove agrees mediaId
  sound := LruCacheManager.remove_sound agrees lru mediaId h.sound
  fits := by
    obtain ⟨-, heq⟩ | ⟨entry, -, heq⟩ := LruCacheManager.remove_spec agrees lru mediaId
    · rw [heq]
      exact h.fits
    · rw [heq]
      exact (Nat.sub_le _ _).trans h.fits

/-! ### A restart -/

omit [LruMap M Nat CacheEntry] [LawfulLruMap M] in
theorem mem_scan {listing : List DirEntry} {entry : CacheEntry} (h : entry ∈ lru.scan listing) :
    ∃ e ∈ listing, ∃ name metadata, e.fileName = some name ∧ e.metadata = some metadata ∧
      metadata.isFile = true ∧ mediaIdOf name = some entry.mediaId ∧
      entry.path = filePath lru.cacheDir name ∧ entry.size = metadata.len := by
  obtain ⟨e, he, hentry⟩ := List.mem_filterMap.mp h
  obtain ⟨metadata, hmetadata, hentry⟩ := Option.bind_eq_some_iff.mp hentry
  obtain ⟨name, hname, hentry⟩ := Option.bind_eq_some_iff.mp hentry
  obtain ⟨mediaId, hid, hentry⟩ := Option.bind_eq_some_iff.mp hentry
  split at hentry
  · next hfile =>
    obtain rfl := Option.some.inj hentry
    exact ⟨e, he, name, metadata, hname, hmetadata, hfile, hid, rfl, rfl⟩
  · exact absurd hentry (by simp)

omit [LruMap M Nat CacheEntry] [LawfulLruMap M] in
theorem scan_of_mem {listing : List DirEntry} {name : String} {size accessed mediaId : Nat}
    (h : ⟨some name, some ⟨true, size, accessed⟩⟩ ∈ listing) (hid : mediaIdOf name = some mediaId) :
    ⟨filePath lru.cacheDir name, size, accessed, mediaId⟩ ∈ lru.scan listing := by
  refine List.mem_filterMap.mpr ⟨_, h, ?_⟩
  simp [hid, filePath]

theorem sound_fresh (lru : LruCacheManager M) : (fresh lru).Sound where
  accounted := (total_new LruCacheManager.cacheCapacity).symm
  nothingLost _ hd := absurd hd List.not_mem_nil

/-- After the loop of `init` the entries are the completed files, once the listing names no other
    files. -/
theorem exact_enterAll (named : Named completed lru) {listing : List DirEntry}
    (lists : Lists lru listing) (only : ∀ entry ∈ lru.scan listing, entry.path ∈ completed)
    {files : List CacheEntry} (scanned : ∀ entry, entry ∈ files ↔ entry ∈ lru.scan listing)
    (fits : (fresh lru).FitsScan files) :
    Exact completed (files.foldl LruCacheManager.enter (fresh lru)) := by
  obtain ⟨-, hfiles, -, hdir⟩ := LruCacheManager.enterAll_rest files (fresh lru)
  have hempty : iter (fresh lru).cache = [] := iter_new _
  have hiter : ∀ e, e ∈ iter (files.foldl LruCacheManager.enter (fresh lru)).cache ↔
      ∃ entry ∈ lru.scan listing, e = (entry.mediaId, entry) := by
    intro e
    rw [LruCacheManager.mem_enterAll fits, hempty]
    simp [scanned]
  refine ⟨fun e he => ?_, fun e he => ?_, fun path hpath hfile => ?_⟩
  · obtain ⟨entry, hentry, rfl⟩ := (hiter e).mp he
    obtain ⟨-, -, name, -, -, -, -, hid, hname, -⟩ := mem_scan hentry
    exact ⟨name, by rw [hdir]; exact hname, hid⟩
  · obtain ⟨entry, hentry, rfl⟩ := (hiter e).mp he
    obtain ⟨d, hd, name, metadata, hname, hmetadata, hisFile, -, hpath, hsize⟩ := mem_scan hentry
    refine ⟨only entry hentry, ?_⟩
    rw [hfiles]
    show lru.files entry.path = some entry.size
    rw [hpath, hsize]
    exact lists.files d hd name metadata hname hmetadata hisFile
  · rw [hfiles] at hfile
    obtain ⟨name, mediaId, rfl, hid⟩ := named path hpath hfile
    obtain ⟨size, hsize⟩ := Option.ne_none_iff_exists'.mp hfile
    obtain ⟨accessed, hlisted⟩ := lists.all name size hsize
    exact ⟨_, (hiter _).mpr ⟨_, scan_of_mem hlisted hid, rfl⟩, rfl⟩

/-- Eviction makes room where nothing is pinned. -/
theorem kept_evictIfNeeded (agrees : ∀ path, refuses path = false) (exact : Exact completed lru)
    (sound : lru.Sound) (unpinned : lru.pinned = ∅)
    (room : (iter lru.cache).length < LruCacheManager.evictionLimit) :
    Kept completed (lru.evictIfNeeded refuses).2 := by
  -- what a removal keeps, the whole eviction keeps
  have hkeep : ∀ (u : LruCacheManager M) (mediaId : Nat),
      Exact completed u ∧ u.Sound ∧ u.maxSizeBytes = lru.maxSizeBytes →
      Exact completed (u.remove refuses mediaId).2 ∧ (u.remove refuses mediaId).2.Sound ∧
        (u.remove refuses mediaId).2.maxSizeBytes = lru.maxSizeBytes := by
    rintro u mediaId ⟨hexact, hsound, hmax⟩
    refine ⟨hexact.remove agrees mediaId, LruCacheManager.remove_sound agrees u mediaId hsound, ?_⟩
    obtain ⟨-, heq⟩ | ⟨_, -, heq⟩ := LruCacheManager.remove_spec agrees u mediaId
    · rw [heq, hmax]
    · rw [heq, ← hmax]
  obtain ⟨hexact, hsound, hmax⟩ := LruCacheManager.evictIfNeeded_keeps hkeep ⟨exact, sound, rfl⟩
  refine ⟨hexact, hsound, ?_⟩
  rw [hmax]
  exact LruCacheManager.evictIfNeeded_fits agrees sound unpinned room

/-- The new index has exactly the completed files, and they fit. -/
theorem kept_init (named : Named completed lru) (agrees : ∀ path, refuses path = false)
    {listing : List DirEntry} (lists : Lists lru listing)
    (only : ∀ entry ∈ lru.scan listing, entry.path ∈ completed)
    (distinct : ((lru.scan listing).map CacheEntry.mediaId).Nodup)
    (few : (lru.scan listing).length ≤ LruCacheManager.cacheCapacity) :
    Kept completed ((fresh lru).init refuses (some listing)).2 := by
  have hempty : iter (fresh lru).cache = [] := iter_new _
  have hcap : cap (fresh lru).cache = LruCacheManager.cacheCapacity := cap_new _
  have hfits : (fresh lru).FitsScan (lru.scan listing) := by
    refine ⟨distinct, fun entry _ hkey => ?_, ?_⟩
    · rw [keys, hempty] at hkey
      exact absurd hkey List.not_mem_nil
    · rw [hempty, hcap]
      show 0 + (lru.scan listing).length ≤ _
      omega
  -- the loop enters the files in the order of their last access
  have hsorted := hfits.perm (List.mergeSort_perm (lru.scan listing)
    fun a b => decide (a.lastAccess ≤ b.lastAccess))
  have hscanned : ∀ entry, entry ∈ (lru.scan listing).mergeSort
      (fun a b => decide (a.lastAccess ≤ b.lastAccess)) ↔ entry ∈ lru.scan listing :=
    fun entry => List.mem_mergeSort
  show Kept completed (LruCacheManager.evictIfNeeded (List.foldl _ _
    ((lru.scan listing).mergeSort _)) refuses).2
  generalize (lru.scan listing).mergeSort _ = files at hsorted hscanned
  refine kept_evictIfNeeded agrees (exact_enterAll named lists only hscanned hsorted)
    ((sound_fresh lru).enterAll hsorted) (LruCacheManager.enterAll_rest files (fresh lru)).1 ?_
  have hbounded : (iter (files.foldl LruCacheManager.enter (fresh lru)).cache).length ≤
      cap (files.foldl LruCacheManager.enter (fresh lru)).cache := bounded _
  rw [LruCacheManager.cap_enterAll, hcap] at hbounded
  exact Nat.lt_succ_of_le hbounded

end

/-! ### One step, and a run -/

section

variable [LawfulLruMap M] {s t : CacheManager M} {refuses : String → Bool}

/-- The invariant of a cache. -/
def Consistent (s : CacheManager M) : Prop := Kept s.completed s.lru

omit [LawfulLruMap M] in
theorem Consistent.settle (h : Consistent s) : Consistent s.settle := Kept.settle h

omit [LawfulLruMap M] in
theorem Consistent.setFiles (h : Consistent s) {files : String → Option Nat}
    (same : ∀ path ∈ s.completed, files path = s.lru.files path) : Consistent (s.setFiles files) :=
  Kept.setFiles h same

omit [LawfulLruMap M] in
/-- A write to, or the deletion of, a file that is no completed one. -/
theorem Consistent.update (h : Consistent s) {path : String} (other : path ∉ s.completed)
    (size : Option Nat) : Consistent (s.setFiles (Function.update s.lru.files path size)) :=
  h.setFiles fun _ hmem => Function.update_of_ne (ne_of_mem_of_not_mem hmem other) _ _

/-- What the invariant gives for the cache as a whole. -/
theorem Consistent.withinQuota (h : Consistent s) : WithinQuota s := by
  have htracked : ∀ path size, (∃ e ∈ iter s.lru.cache, e.2.path = path ∧ e.2.size = size) ↔
      path ∈ s.completed ∧ s.lru.files path = some size := by
    intro path size
    constructor
    · rintro ⟨e, he, rfl, rfl⟩
      exact h.exact.listed e he
    · rintro ⟨hpath, hfile⟩
      obtain ⟨e, he, rfl⟩ := h.exact.complete path hpath (by simp [hfile])
      have hsize := (h.exact.listed e he).2
      exact ⟨e, he, rfl, Option.some.inj (hsize.symm.trans hfile)⟩
  refine ⟨htracked, fun _ => ?_⟩
  -- the completed bytes are the sizes of the entries, each path counted once
  let paths := (iter s.lru.cache).map fun e => e.2.path
  have hsub : paths.toFinset ⊆ s.completed := by
    intro path hpath
    obtain ⟨e, he, rfl⟩ := List.mem_map.mp (List.mem_toFinset.mp hpath)
    exact (h.exact.listed e he).1
  have hrest : ∀ path ∈ s.completed, path ∉ paths.toFinset →
      (s.lru.files path).getD 0 = 0 := by
    intro path hpath hnot
    by_cases hfile : s.lru.files path = none
    · rw [hfile]
      rfl
    · obtain ⟨e, he, rfl⟩ := h.exact.complete path hpath hfile
      exact absurd (List.mem_toFinset.mpr (List.mem_map_of_mem he)) hnot
  have hdistinct : paths.Nodup := by
    have hkeys : (keys s.lru.cache).Nodup := distinct s.lru.cache
    exact (List.Nodup.of_map _ hkeys).map_on fun e he e' he' => h.exact.eq_of_path he he'
  have hsizes : paths.map (fun path => (s.lru.files path).getD 0) =
      (iter s.lru.cache).map fun e => e.2.size := by
    rw [List.map_map]
    refine List.map_congr_left fun e he => ?_
    show (s.lru.files e.2.path).getD 0 = e.2.size
    rw [(h.exact.listed e he).2, Option.getD_some]
  calc s.completedBytes = ∑ path ∈ paths.toFinset, (s.lru.files path).getD 0 :=
        (Finset.sum_subset hsub hrest).symm
    _ = ((iter s.lru.cache).map fun e => e.2.size).sum := by
        rw [List.sum_toFinset _ hdistinct, hsizes]
    _ = s.lru.currentSize := h.sound.accounted.symm
    _ ≤ s.lru.maxSizeBytes := h.fits

theorem consistent_downloadMedia (h : Consistent s) (agrees : ∀ path, refuses path = false)
    {mediaId : Nat} {filename : String} {valid : Bool} {expected available still : Option Nat}
    (enabled : s.downloadMedia refuses mediaId filename valid expected available still = some t) :
    Consistent t := by
  unfold downloadMedia at enabled
  dsimp only at enabled
  split at enabled
  · obtain rfl := Option.some.inj enabled
    exact h
  · split at enabled
    · cases expected with
      | none =>
        obtain rfl := Option.some.inj enabled
        exact h
      | some expected =>
        have hroom : Kept s.completed
            (s.lru.ensureRoomFor refuses expected available still).2 :=
          LruCacheManager.ensureRoomFor_keeps (Kept.remove agrees) h expected available still
        dsimp only at enabled
        split at enabled
        · next heq =>
          rw [heq] at hroom
          obtain rfl := Option.some.inj enabled
          exact hroom.settle
        · next heq =>
          rw [heq] at hroom
          obtain rfl := Option.some.inj enabled
          exact hroom.settle
    · exact absurd enabled (by simp)

omit [LawfulLruMap M] in
theorem consistent_openFile (h : Consistent s) {i : Nat} {append : Bool}
    (quiet : s.QuietEvent (.openFile i append)) (enabled : s.openFile i append = some t) :
    Consistent t := by
  unfold openFile at enabled
  split at enabled
  · exact absurd enabled (by simp)
  · next d hd =>
    have hopened : Consistent
        { s with active := s.active.set i { d with handle := some (tempPath d.finalPath) } } := h
    cases append with
    | true =>
      dsimp only at enabled
      rw [if_pos rfl] at enabled
      split at enabled
      · obtain rfl := Option.some.inj enabled
        exact hopened
      · exact absurd enabled (by simp)
    | false =>
      obtain rfl := Option.some.inj enabled
      exact hopened.update (quiet rfl d hd) (some 0)

omit [LawfulLruMap M] in
theorem consistent_writeChunk (h : Consistent s) {i size : Nat}
    (quiet : s.QuietEvent (.writeChunk i size)) (enabled : s.writeChunk i size = some t) :
    Consistent t := by
  unfold writeChunk at enabled
  split at enabled
  · exact absurd enabled (by simp)
  · next d hd =>
    split at enabled
    · obtain rfl := Option.some.inj enabled
      exact h
    · next target htarget =>
      obtain rfl := Option.some.inj enabled
      exact h.update (quiet d hd target htarget) (some size)

omit [LawfulLruMap M] in
/-- A completed file is replaced by one of its size. -/
theorem consistent_complete (h : Consistent s) {i : Nat} (quiet : s.QuietEvent (.complete i))
    (enabled : s.complete i = some t) : Consistent t := by
  unfold complete at enabled
  split at enabled
  · exact absurd enabled (by simp)
  · next d hd =>
    obtain ⟨htemp, hfinal, hsize⟩ := quiet d hd
    dsimp only at enabled
    split at enabled
    · -- the temporary file has the size of the one that it replaces
      have hne : tempPath d.finalPath ≠ d.finalPath := (ne_of_mem_of_not_mem hfinal htemp).symm
      have hsame : ∀ path ∈ s.completed,
          renamed s.lru.files (tempPath d.finalPath) d.finalPath path = s.lru.files path := by
        intro path hpath
        have hother : path ≠ tempPath d.finalPath := ne_of_mem_of_not_mem hpath htemp
        unfold renamed
        rw [if_neg hne, Function.update_of_ne hother, hsize]
        exact congrFun (Function.update_eq_self d.finalPath s.lru.files) path
      have hinsert : insert d.finalPath s.completed = s.completed :=
        Finset.insert_eq_of_mem hfinal
      have hkept : Kept (insert d.finalPath s.completed) (s.setFiles
          (renamed s.lru.files (tempPath d.finalPath) d.finalPath)).lru := by
        rw [hinsert]
        exact Kept.setFiles h hsame
      obtain rfl := Option.some.inj enabled
      exact hkept.settle
    · exact absurd enabled (by simp)

omit [LawfulLruMap M] in
theorem consistent_fail (h : Consistent s) (agrees : ∀ path, refuses path = false) {i : Nat}
    (quiet : s.QuietEvent (.fail i)) (enabled : s.fail refuses i = some t) : Consistent t := by
  unfold fail at enabled
  split at enabled
  · exact absurd enabled (by simp)
  · next d hd =>
    have hdropped : Consistent { s with active := s.active.eraseIdx i } := h
    have hdeleted : ¬ refuses (tempPath d.finalPath) = true := by
      rw [agrees]
      exact Bool.false_ne_true
    dsimp only at enabled
    rw [if_neg hdeleted] at enabled
    obtain rfl := Option.some.inj enabled
    exact (hdropped.update (quiet d hd) none).settle

theorem consistent_restart (named : Named s.completed s.lru) (agrees : ∀ path, refuses path = false)
    {listing : Option (List DirEntry)} (quiet : s.QuietEvent (.restart listing))
    (enabled : s.restart refuses listing = some t) : Consistent t := by
  cases listing with
  | none => exact absurd enabled (by simp [restart, LruCacheManager.init])
  | some listing =>
    obtain ⟨hlists, honly, hdistinct, hfew⟩ := quiet
    have hkept := kept_init named agrees hlists honly hdistinct hfew
    unfold restart at enabled
    split at enabled
    · next heq =>
      rw [heq] at hkept
      obtain rfl := Option.some.inj enabled
      exact hkept.settle
    · exact absurd enabled (by simp)

/-- **Step lemma.** A quiet step keeps the index exact and the files within the limit. -/
theorem consistent_step {call : Call} (h : Consistent s) (quiet : Quiet s call)
    (enabled : step s call = some t) : Consistent t := by
  obtain ⟨event, refuses⟩ := call
  obtain ⟨hagrees, hquiet⟩ := quiet
  have hremove : ∀ (lru : LruCacheManager M) mediaId, Kept s.completed lru →
      Kept s.completed (lru.remove refuses mediaId).2 := Kept.remove hagrees
  cases event with
  | downloadMedia => exact consistent_downloadMedia h hagrees enabled
  | openFile => exact consistent_openFile h hquiet enabled
  | writeChunk => exact consistent_writeChunk h hquiet enabled
  | complete => exact consistent_complete h hquiet enabled
  | fail => exact consistent_fail h hagrees hquiet enabled
  | subtitle =>
    obtain rfl := Option.some.inj enabled
    exact h
  | evictIfNeeded =>
    obtain rfl := Option.some.inj enabled
    exact Kept.settle (LruCacheManager.evictIfNeeded_keeps hremove h)
  | checkDiskSpace available =>
    obtain rfl := Option.some.inj enabled
    exact Kept.settle (LruCacheManager.checkDiskSpace_keeps hremove h available)
  | replacePins ids =>
    obtain rfl := Option.some.inj enabled
    exact ⟨⟨h.exact.named, h.exact.listed, h.exact.complete⟩,
      ⟨h.sound.accounted, h.sound.nothingLost⟩, h.fits⟩
  | restart => exact consistent_restart h.exact.names hagrees hquiet enabled

/-- The completed files are in the cache directory, under the names that `get_cache_path` gives. -/
def Installed (s : CacheManager M) : Prop :=
  ∀ path ∈ s.completed, ∃ mediaId filename, mediaId < 2 ^ 32 ∧
    path = getCachePath s.lru.cacheDir mediaId filename

omit [LawfulLruMap M] [LruMap M Nat CacheEntry] in
theorem Installed.named (h : Installed s) : Named s.completed s.lru := by
  intro path hpath _
  obtain ⟨mediaId, filename, hlt, rfl⟩ := h path hpath
  refine ⟨s!"{mediaId}_{sanitizeFilename filename}", mediaId, ?_, mediaIdOf_cacheName hlt⟩
  simp [getCachePath, filePath, String.append_assoc, toString_string]

/-- **The quota is respected in quiet runs.**  A process that starts on any directory of completed
    files, and any sequence of steps, restarts among them. -/
theorem withinQuota_of_quiet (installed : Installed s) {listing : Option (List DirEntry)}
    {calls : List Call} (run : Guarded step Quiet s (⟨.restart listing, refuses⟩ :: calls) t) :
    WithinQuota t := by
  obtain ⟨u, ⟨hagrees, hquiet⟩, hboot, hrest⟩ := guarded_cons.mp run
  have hstart : Consistent u := consistent_restart installed.named hagrees hquiet hboot
  exact (hrest.invariant hstart fun _ _ _ => consistent_step).withinQuota

end

/-! ### A download -/

/-- The cache with an index that is a list of entries, before its first start. -/
def cacheOf (files : String → Option Nat) (completed : Finset String) :
    CacheManager (RecencyList Nat CacheEntry) where
  lru := .new 1 "/cache" files
  active := []
  subtitles := fun _ => none
  completed := completed

/-- A directory with one clip. -/
def clip (path : String) : Option Nat := if path = "/cache/7_clip.mp4" then some 10 else none

/-- A start with one clip. -/
theorem withinQuota_of_quiet_clip :
    ∃ t, Guarded step Quiet (cacheOf clip {"/cache/7_clip.mp4"})
      [⟨.restart (some [LruCacheManager.dirEntry "7_clip.mp4" 10 1]), fun _ => false⟩] t ∧
      WithinQuota t := by
  have hlists : Lists (cacheOf clip {"/cache/7_clip.mp4"}).lru
      [LruCacheManager.dirEntry "7_clip.mp4" 10 1] := by
    constructor
    · intro e he name metadata hname hmetadata _
      obtain rfl := List.mem_singleton.mp he
      obtain rfl := Option.some.inj hname
      obtain rfl := Option.some.inj hmetadata
      decide
    · intro name size hfile
      by_cases hname : filePath "/cache" name = "/cache/7_clip.mp4"
      · obtain rfl : name = "7_clip.mp4" := filePath_inj hname
        obtain rfl : 10 = size := Option.some.inj hfile
        exact ⟨1, List.mem_singleton.mpr rfl⟩
      · exact absurd (hfile.symm.trans (if_neg hname)) (by simp)
  have hquiet : Quiet (cacheOf clip {"/cache/7_clip.mp4"})
      ⟨.restart (some [LruCacheManager.dirEntry "7_clip.mp4" 10 1]), fun _ => false⟩ :=
    ⟨fun _ => rfl, hlists, by decide, by decide, by decide⟩
  have hboot : ∃ t, (cacheOf clip {"/cache/7_clip.mp4"}).step
      ⟨.restart (some [LruCacheManager.dirEntry "7_clip.mp4" 10 1]), fun _ => false⟩ = some t := by
    show ∃ t, (cacheOf clip {"/cache/7_clip.mp4"}).restart _ _ = some t
    unfold restart
    rw [LruCacheManager.init_of_sorted (by decide)]
    exact ⟨_, rfl⟩
  obtain ⟨t, hboot⟩ := hboot
  have hrun : Guarded step Quiet (cacheOf clip {"/cache/7_clip.mp4"})
      [⟨.restart (some [LruCacheManager.dirEntry "7_clip.mp4" 10 1]), fun _ => false⟩] t :=
    .cons hquiet hboot .nil
  refine ⟨t, hrun, withinQuota_of_quiet (fun path hpath => ?_) hrun⟩
  obtain rfl := Finset.mem_singleton.mp hpath
  exact ⟨7, "clip.mp4", by decide, by decide⟩

/-- **Counterexample.** A first start and a download: the clip is on the disk, and the index does
    not know of it. -/
theorem not_withinQuota_download :
    ∃ t, exec step (cacheOf (fun _ => none) ∅)
        [⟨.restart (some []), fun _ => false⟩,
          ⟨.downloadMedia 7 "clip.mp4" false (some 10) (some (2 ^ 40)) none, fun _ => false⟩,
          ⟨.openFile 0 false, fun _ => false⟩, ⟨.writeChunk 0 10, fun _ => false⟩,
          ⟨.complete 0, fun _ => false⟩] = some t ∧
      t.lru.files "/cache/7_clip.mp4" = some 10 ∧ iter t.lru.cache = [] ∧ ¬ WithinQuota t := by
  have hboot : (cacheOf (fun _ => none) ∅).step ⟨.restart (some []), fun _ => false⟩ =
      some (cacheOf (fun _ => none) ∅).settle := by
    show (cacheOf (fun _ => none) ∅).restart _ _ = _
    unfold restart
    rw [LruCacheManager.init_of_sorted (by decide)]
    rfl
  simp only [exec, hboot, Option.bind_some]
  refine ⟨_, rfl, by decide, by decide, fun quota => ?_⟩
  obtain ⟨e, he, -⟩ := (quota.tracked "/cache/7_clip.mp4" 10).mpr ⟨by decide, by decide⟩
  exact absurd he List.not_mem_nil

end CacheManager

end Montr.Client
