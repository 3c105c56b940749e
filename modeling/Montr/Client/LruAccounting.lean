import Montr.Client.LruCache
import Montr.Lib.Transition

namespace Montr.Client

open Lru LawfulLruMap Transition

/-!
# What the cache index accounts for

`Sound`: the count of bytes is the sum over the entries, and every entry that left the index had
its size taken off and its file deleted.  Eviction keeps this as long as no deletion fails, but
`put` replaces and drops entries without a word, which `init` does not look out for and `add` looks
out for only by half.  `sound_of_careful` says so for every run.
-/

namespace LruCacheManager

variable {M : Type} [LruMap M Nat CacheEntry]

/-- **The index is sound.** -/
structure Sound (s : LruCacheManager M) : Prop where
  accounted : s.currentSize = total CacheEntry.size s.cache
  nothingLost : ∀ d ∈ s.departed, d.subtracted = true ∧ d.deleted = true

/-- The new entry of an `add` displaces no other: there is room for a new id, and a known id comes
    with the path of its entry, or the file of its entry is gone. -/
def FitsEntry (s : LruCacheManager M) (mediaId : Nat) (path : String) : Prop :=
  match peek s.cache mediaId with
  | some old => old.path = path ∨ s.files old.path = none
  | none => (iter s.cache).length < cap s.cache

/-- The scanned files displace no entry: they have ids of their own and there is room for them. -/
structure FitsScan (s : LruCacheManager M) (files : List CacheEntry) : Prop where
  distinct : (files.map CacheEntry.mediaId).Nodup
  fresh : ∀ entry ∈ files, entry.mediaId ∉ keys s.cache
  room : (iter s.cache).length + files.length ≤ cap s.cache

/-- No deletion fails, and what is entered displaces nothing. -/
def Careful (s : LruCacheManager M) (call : Call) : Prop :=
  (∀ path, call.refuses path = false) ∧
    match call.op with
    | .init (some listing) => s.FitsScan (s.scan listing)
    | .add mediaId path _ => s.files path ≠ none → s.FitsEntry mediaId path
    | _ => True

variable [LawfulLruMap M] {s t : LruCacheManager M} {refuses : String → Bool} {mediaId : Nat}
  {path : String} {entry : CacheEntry}

/-! ### Entries that come -/

/-- A new entry with room to spare, once its size is counted. -/
theorem Sound.put (sound : Sound s) (fresh : mediaId ∉ keys s.cache)
    (room : (iter s.cache).length < cap s.cache) :
    Sound { s.putEntry mediaId entry with currentSize := s.currentSize + entry.size } := by
  constructor
  · show s.currentSize + entry.size = total CacheEntry.size (Lru.put s.cache mediaId entry)
    rw [total_put fresh room, sound.accounted, Nat.add_comm]
  · intro d hd
    have hnone : displaced s.cache (Lru.put s.cache mediaId entry) = [] := displaced_put fresh room
    have hdeparted : (s.putEntry mediaId entry).departed = s.departed := by
      show s.departed ++ (displaced s.cache (Lru.put s.cache mediaId entry)).map _ = _
      rw [hnone, List.map_nil, List.append_nil]
    exact sound.nothingLost d (hdeparted ▸ hd)

theorem keys_enter (fresh : entry.mediaId ∉ keys s.cache)
    (room : (iter s.cache).length < cap s.cache) :
    keys (s.enter entry).cache = entry.mediaId :: keys s.cache := by
  show (iter (Lru.put s.cache entry.mediaId entry)).map Prod.fst = _
  rw [iter_put_room _ _ _ fresh room]
  rfl

/-- After one file of a scan the others still fit. -/
theorem FitsScan.enter {files : List CacheEntry} (h : s.FitsScan (entry :: files)) :
    (s.enter entry).FitsScan files := by
  have hdistinct := h.distinct
  have hroom := h.room
  rw [List.map_cons, List.nodup_cons] at hdistinct
  rw [List.length_cons] at hroom
  have hfresh := h.fresh entry List.mem_cons_self
  have hspare : (iter s.cache).length < cap s.cache := by omega
  refine ⟨hdistinct.2, fun e he => ?_, ?_⟩
  · rw [keys_enter hfresh hspare, List.mem_cons]
    rintro (heq | hold)
    · exact hdistinct.1 (heq ▸ List.mem_map_of_mem he)
    · exact h.fresh e (List.mem_cons_of_mem _ he) hold
  · show (iter (Lru.put s.cache entry.mediaId entry)).length + _ ≤
      cap (Lru.put s.cache entry.mediaId entry)
    rw [iter_put_room _ _ _ hfresh hspare, cap_put, List.length_cons]
    omega

/-- The loop of `init`. -/
theorem Sound.enterAll {files : List CacheEntry} (sound : Sound s) (fits : s.FitsScan files) :
    Sound (files.foldl enter s) := by
  induction files generalizing s with
  | nil => exact sound
  | cons entry files ih =>
    have hroom := fits.room
    rw [List.length_cons] at hroom
    have henter : Sound (s.enter entry) :=
      sound.put (fits.fresh entry List.mem_cons_self) (by omega)
    exact ih henter fits.enter

omit [LawfulLruMap M] in
/-- The order of the scan does not matter. -/
theorem FitsScan.perm {files files' : List CacheEntry} (h : s.FitsScan files)
    (perm : files'.Perm files) : s.FitsScan files' where
  distinct := (perm.map _).nodup_iff.mpr h.distinct
  fresh entry hentry := h.fresh entry (perm.mem_iff.mp hentry)
  room := perm.length_eq ▸ h.room

/-! ### Entries that leave -/

/-- What is taken out and subtracted, when it is noted with its file gone or not at all. -/
theorem Sound.pop (sound : Sound s) (h : peek s.cache mediaId = some entry)
    {departed : List Departure} {files : String → Option Nat}
    (noted : ∀ d ∈ departed, d ∈ s.departed ∨ d.subtracted = true ∧ d.deleted = true) :
    Sound { s with
      cache := (Lru.pop s.cache mediaId).2
      currentSize := s.currentSize - entry.size
      files := files
      departed := departed } := by
  constructor
  · have htotal : total CacheEntry.size (Lru.pop s.cache mediaId).2 + entry.size =
        total CacheEntry.size s.cache := total_pop h
    have haccounted := sound.accounted
    show s.currentSize - entry.size = total CacheEntry.size (Lru.pop s.cache mediaId).2
    omega
  · intro d hd
    exact (noted d hd).elim (sound.nothingLost d) id

/-- What a removal does when its deletion does not fail: a known id is taken out with its file. -/
theorem remove_spec (agrees : ∀ path, refuses path = false) (s : LruCacheManager M)
    (mediaId : Nat) :
    peek s.cache mediaId = none ∧ s.remove refuses mediaId = (.ok (), s) ∨
      ∃ entry, peek s.cache mediaId = some entry ∧
        s.remove refuses mediaId =
          (.ok (), { s with
            cache := (Lru.pop s.cache mediaId).2
            currentSize := s.currentSize - entry.size
            files := Function.update s.files entry.path none
            departed := s.departed ++ [⟨entry, true, true⟩] }) := by
  have hfst : (Lru.pop s.cache mediaId).1 = peek s.cache mediaId := pop_eq_peek
  unfold remove
  rcases hpop : Lru.pop s.cache mediaId with ⟨popped, cache⟩
  rw [hpop] at hfst
  cases popped with
  | none => exact .inl ⟨hfst.symm, rfl⟩
  | some entry =>
    refine .inr ⟨entry, hfst.symm, ?_⟩
    simp only [agrees, Bool.false_eq_true, if_false]
    split
    · rfl
    · next hfile =>
      -- there was no file to delete
      have hnone : s.files entry.path = none := by simpa using hfile
      have hfiles : Function.update s.files entry.path none = s.files := by
        rw [← hnone, Function.update_eq_self]
      rw [hfiles]

theorem remove_sound (agrees : ∀ path, refuses path = false) (s : LruCacheManager M)
    (mediaId : Nat) (sound : Sound s) : Sound (s.remove refuses mediaId).2 := by
  obtain ⟨-, heq⟩ | ⟨entry, hpeek, heq⟩ := remove_spec agrees s mediaId
  · rw [heq]
    exact sound
  · rw [heq]
    refine sound.pop hpeek fun d hd => (List.mem_append.mp hd).imp_right fun hlast => ?_
    obtain rfl := List.mem_singleton.mp hlast
    exact ⟨rfl, rfl⟩

/-! ### Eviction is a sequence of removals -/

section

variable {P : LruCacheManager M → Prop}
  (keeps : ∀ s mediaId, P s → P (remove s refuses mediaId).2)

include keeps

omit [LawfulLruMap M] in
/-- The loop of `evict_until` keeps what every removal keeps. -/
theorem evictLoop_keeps (h : P s) (targetSize rounds : Nat) :
    P (evictLoop refuses targetSize rounds s).2 := by
  induction rounds generalizing s with
  | zero => exact h
  | succ rounds ih =>
    unfold evictLoop
    split
    · exact h
    · split
      · exact h
      · next mediaId _ =>
        split
        · have hremove := keeps s mediaId h
          rcases hresult : s.remove refuses mediaId with ⟨result, s'⟩
          rw [hresult] at hremove
          cases result with
          | ok => exact ih hremove
          | error => exact hremove
        · exact ih h

omit [LawfulLruMap M] in
theorem evictIfNeeded_keeps (h : P s) : P (s.evictIfNeeded refuses).2 := by
  unfold evictIfNeeded
  split
  · exact h
  · exact evictLoop_keeps keeps h _ _

omit [LawfulLruMap M] in
theorem checkDiskSpace_keeps (h : P s) (available : Option Nat) :
    P (s.checkDiskSpace refuses available).2 := by
  unfold checkDiskSpace
  split
  · exact h
  · split
    · exact evictLoop_keeps keeps h _ _
    · exact h

omit [LawfulLruMap M] in
theorem ensureRoomFor_keeps (h : P s) (incomingBytes : Nat)
    (available stillAvailable : Option Nat) :
    P (s.ensureRoomFor refuses incomingBytes available stillAvailable).2 := by
  unfold ensureRoomFor
  split
  · exact h
  · split
    · exact h
    · have hfirst : P (s.evictUntil refuses (s.maxSizeBytes - incomingBytes)).2 :=
        evictLoop_keeps keeps h _ _
      split
      · next heq => exact heq ▸ hfirst
      · next u heq =>
        rw [heq] at hfirst
        cases available with
        | none => exact hfirst
        | some available =>
          dsimp only
          split
          · have hsecond : P (u.evictUntil refuses
                (u.currentSize - (incomingBytes + diskHeadroomBytes - available))).2 :=
              evictLoop_keeps keeps hfirst _ _
            split
            · next hagain => exact hagain ▸ hsecond
            · next hagain =>
              rw [hagain] at hsecond
              split <;> exact hsecond
          · exact hfirst

end

/-! ### One operation, and a run -/

theorem add_sound (sound : Sound s) (agrees : ∀ path, refuses path = false)
    (fits : s.files path ≠ none → s.FitsEntry mediaId path) (now : Nat) :
    Sound (s.add refuses mediaId path now).2 := by
  unfold add
  split
  · exact sound
  · next size hfile =>
    have hfits := fits (by simp [hfile])
    refine evictIfNeeded_keeps (remove_sound agrees) ?_
    -- once the old entry is out, the id is new and there is room for it
    suffices hout : Sound (s.takeOut mediaId path) ∧ mediaId ∉ keys (s.takeOut mediaId path).cache ∧
        (iter (s.takeOut mediaId path).cache).length < cap (s.takeOut mediaId path).cache from
      hout.1.put hout.2.1 hout.2.2
    have hfst : (Lru.pop s.cache mediaId).1 = peek s.cache mediaId := pop_eq_peek
    unfold takeOut
    unfold FitsEntry at hfits
    rcases hpop : Lru.pop s.cache mediaId with ⟨popped, cache⟩
    rw [hpop] at hfst
    obtain rfl : cache = (Lru.pop s.cache mediaId).2 := by rw [hpop]
    rw [← hfst] at hfits
    cases popped with
    | none => exact ⟨sound, peek_eq_none.mp hfst.symm, hfits⟩
    | some old =>
      have hpeek : peek s.cache mediaId = some old := hfst.symm
      have hmem : mediaId ∈ keys s.cache := by
        by_contra hnot
        exact absurd (peek_eq_none.mpr hnot) (by simp [hpeek])
      refine ⟨sound.pop hpeek fun d hd => ?_, not_mem_keys_pop, ?_⟩
      · by_cases hpath : old.path = path
        · rw [if_pos hpath] at hd
          exact .inl hd
        · rw [if_neg hpath, List.mem_append] at hd
          refine hd.imp_right fun hlast => ?_
          obtain rfl := List.mem_singleton.mp hlast
          have hgone := hfits.resolve_left hpath
          exact ⟨rfl, by simp [hgone]⟩
      · have hlt : (iter (Lru.pop s.cache mediaId).2).length < (iter s.cache).length :=
          length_pop_lt hmem
        have hbounded : (iter s.cache).length ≤ cap s.cache := bounded s.cache
        have hcap : cap (Lru.pop s.cache mediaId).2 = cap s.cache := cap_pop s.cache mediaId
        show (iter (Lru.pop s.cache mediaId).2).length < cap (Lru.pop s.cache mediaId).2
        omega

/-- **Step lemma.** A careful operation keeps the index sound. -/
theorem sound_step {call : Call} (sound : Sound s) (careful : Careful s call)
    (h : step s call = some t) : Sound t := by
  obtain ⟨op, refuses⟩ := call
  obtain ⟨hagrees, hfits⟩ := careful
  obtain rfl : (s.run ⟨op, refuses⟩).2 = t := Option.some.inj h
  cases op with
  | init listing =>
    cases listing with
    | none => exact sound
    | some listing =>
      have hfits : s.FitsScan (s.scan listing) := hfits
      exact evictIfNeeded_keeps (remove_sound hagrees)
        (sound.enterAll (hfits.perm (List.mergeSort_perm _ _)))
  | access mediaId now =>
    refine ⟨?_, sound.nothingLost⟩
    have hsame : ∀ entry : CacheEntry, ({ entry with lastAccess := now } : CacheEntry).size =
        entry.size := fun _ => rfl
    exact sound.accounted.trans (total_modify hsame).symm
  | add mediaId path now => exact add_sound sound hagrees hfits now
  | remove mediaId => exact remove_sound hagrees s mediaId sound
  | evictIfNeeded => exact evictIfNeeded_keeps (remove_sound hagrees) sound
  | checkDiskSpace => exact checkDiskSpace_keeps (remove_sound hagrees) sound _
  | ensureRoomFor => exact ensureRoomFor_keeps (remove_sound hagrees) sound _ _ _
  | pin => exact ⟨sound.accounted, sound.nothingLost⟩
  | unpin => exact ⟨sound.accounted, sound.nothingLost⟩
  | replacePins => exact ⟨sound.accounted, sound.nothingLost⟩
  | disk => exact ⟨sound.accounted, sound.nothingLost⟩

theorem sound_new (maxSizeMb : Nat) (cacheDir : String) (files : String → Option Nat) :
    Sound (new maxSizeMb cacheDir files : LruCacheManager M) where
  accounted := (total_new cacheCapacity).symm
  nothingLost _ hd := absurd hd List.not_mem_nil

/-- **The index accounts for its entries in careful runs.**  For every least-recently-used map,
    every limit and every sequence of operations. -/
theorem sound_of_careful (maxSizeMb : Nat) (cacheDir : String) (files : String → Option Nat)
    {calls : List Call}
    (run : Guarded step Careful (new maxSizeMb cacheDir files : LruCacheManager M) calls t) :
    Sound t :=
  run.invariant (sound_new maxSizeMb cacheDir files) fun _ _ _ => sound_step

/-! ### Two files of one id -/

/-- A disk with two files of medium 7. -/
def clips (path : String) : Option Nat :=
  if path = "/cache/7_a.mp4" then some 10 else if path = "/cache/7_b.mp4" then some 20 else none

/-- One file of a listing. -/
def dirEntry (fileName : String) (len accessed : Nat) : DirEntry :=
  ⟨some fileName, some ⟨true, len, accessed⟩⟩

/-- The index as a list of entries. -/
abbrev ListManager := LruCacheManager (RecencyList Nat CacheEntry)

/-- A start with one file. -/
theorem sound_of_careful_clip :
    ∃ t : ListManager, Guarded step Careful (new 1 "/cache" clips)
      [⟨.init (some [dirEntry "7_a.mp4" 10 1]), fun _ => false⟩] t ∧ Sound t := by
  have hfits : FitsScan (new 1 "/cache" clips : ListManager)
      (scan (new 1 "/cache" clips : ListManager) [dirEntry "7_a.mp4" 10 1]) :=
    ⟨by decide, by decide, by decide⟩
  have hrun : Guarded step Careful (new 1 "/cache" clips : ListManager)
      [⟨.init (some [dirEntry "7_a.mp4" 10 1]), fun _ => false⟩] _ :=
    .cons ⟨fun _ => rfl, hfits⟩ rfl .nil
  exact ⟨_, hrun, sound_of_careful 1 "/cache" clips hrun⟩

omit [LawfulLruMap M] in
/-- A listing in the order of the access times is entered as it is. -/
theorem init_of_sorted {listing : List DirEntry}
    (sorted : (s.scan listing).Pairwise fun a b => decide (a.lastAccess ≤ b.lastAccess) = true) :
    s.init refuses (some listing) = ((s.scan listing).foldl enter s).evictIfNeeded refuses := by
  simp only [init, List.mergeSort_of_pairwise sorted]

/-- **Counterexample.** A directory with two files of medium 7: the second entry replaces the first,
    whose ten bytes stay in the count and whose file stays on the disk. -/
theorem not_sound_twoFiles :
    ∃ t : ListManager, exec step (new 1 "/cache" clips : ListManager)
        [⟨.init (some [dirEntry "7_a.mp4" 10 1, dirEntry "7_b.mp4" 20 2]), fun _ => false⟩] =
          some t ∧
      iter t.cache = [(7, ⟨"/cache/7_b.mp4", 20, 2, 7⟩)] ∧ t.currentSize = 30 ∧
      t.files "/cache/7_a.mp4" = some 10 ∧ ¬ Sound t := by
  refine ⟨_, rfl, ?_⟩
  show _ ∧ _ ∧ _ ∧ ¬ Sound (LruCacheManager.init _ _ _).2
  simp only [run]
  rw [init_of_sorted (by decide)]
  refine ⟨by decide, by decide, by decide, fun sound => ?_⟩
  exact absurd sound.accounted (by decide)

end LruCacheManager

end Montr.Client
