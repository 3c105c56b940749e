import Mathlib.Algebra.BigOperators.Group.Finset.Piecewise
import Montr.Client.CacheQuota
import Montr.Lib.Eviction

namespace Montr.Client

open Lru LawfulLruMap Eviction Transition

/-!
# Eviction and room

What one pass of `evict_until` takes out of the index: the least recently used entries that are not
pinned, as few as it takes.

* `Evicted` — entries left the index with their sizes and files, and nothing else changed;
* `evictLoop_evicted` — a pass that succeeds evicts the `victims`;
* `evictUntil_orderly_iff` — it does all that it should iff no deletion of a victim fails;
* `ensureRoomFor_room` — `ensure_room_for`: success means room, and a refusal for the pinned entries
  changes nothing.
-/

namespace LruCacheManager

variable {M : Type} [LruMap M Nat CacheEntry]

def entrySize (e : Nat × CacheEntry) : Nat := e.2.size

/-- The entries that may go, least recently used first. -/
def candidates (s : LruCacheManager M) : List (Nat × CacheEntry) :=
  (iter s.cache).reverse.filter fun e => decide (e.1 ∉ s.pinned)

/-- The given entries left the index with their sizes and their files. -/
structure Evicted (s t : LruCacheManager M) (gone : List (Nat × CacheEntry)) : Prop where
  index : iter t.cache = (iter s.cache).filter fun e => decide (e ∉ gone)
  counted : t.currentSize = s.currentSize - (gone.map entrySize).sum
  files : ∀ path, t.files path = if path ∈ gone.map (fun e => e.2.path) then none else s.files path
  pinned : t.pinned = s.pinned
  maxSizeBytes : t.maxSizeBytes = s.maxSizeBytes
  capacity : cap t.cache = cap s.cache

section

variable {s t u : LruCacheManager M} {gone more : List (Nat × CacheEntry)}

theorem Evicted.refl (s : LruCacheManager M) : Evicted s s [] where
  index := by simp
  counted := by simp
  files := by simp
  pinned := rfl
  maxSizeBytes := rfl
  capacity := rfl

theorem Evicted.append (h : Evicted s t gone) (h' : Evicted t u more) :
    Evicted s u (gone ++ more) where
  index := by
    rw [h'.index, h.index, List.filter_filter]
    apply List.filter_congr
    intro e _
    rw [← Bool.decide_and, decide_eq_decide, List.mem_append]
    tauto
  counted := by
    rw [h'.counted, h.counted, List.map_append, List.sum_append, Nat.sub_sub]
  files path := by
    rw [h'.files, h.files, List.map_append]
    simp only [List.mem_append]
    by_cases hmore : path ∈ more.map fun e => e.2.path
    · rw [if_pos hmore, if_pos (.inr hmore)]
    · rw [if_neg hmore]
      by_cases hgone : path ∈ gone.map fun e => e.2.path
      · rw [if_pos hgone, if_pos (.inl hgone)]
      · rw [if_neg hgone, if_neg (by tauto)]
  pinned := h'.pinned.trans h.pinned
  maxSizeBytes := h'.maxSizeBytes.trans h.maxSizeBytes
  capacity := h'.capacity.trans h.capacity

theorem Evicted.mem_iter (h : Evicted s t gone) {e : Nat × CacheEntry} :
    e ∈ iter t.cache ↔ e ∈ iter s.cache ∧ e ∉ gone := by
  rw [h.index, List.mem_filter, decide_eq_true_eq]

theorem Evicted.currentSize_le (h : Evicted s t gone) : t.currentSize ≤ s.currentSize := by
  rw [h.counted]
  omega

theorem mem_candidates {e : Nat × CacheEntry} :
    e ∈ s.candidates ↔ e ∈ iter s.cache ∧ e.1 ∉ s.pinned := by
  rw [candidates, List.mem_filter, List.mem_reverse, decide_eq_true_eq]

theorem length_candidates_le (s : LruCacheManager M) :
    s.candidates.length ≤ (iter s.cache).length := by
  calc s.candidates.length ≤ (iter s.cache).reverse.length := List.length_filter_le _ _
    _ = (iter s.cache).length := List.length_reverse

/-- The entry to evict is the first candidate. -/
theorem mediaIdToEvict_eq (s : LruCacheManager M) :
    s.mediaIdToEvict = s.candidates.head?.map Prod.fst := by
  unfold mediaIdToEvict candidates keys
  rw [← List.map_reverse, List.find?_map, List.head?_filter]
  rfl

end

variable [LawfulLruMap M] {s t : LruCacheManager M} {refuses : String → Bool}

/-! ### One removal -/

theorem nodup_candidates (s : LruCacheManager M) : s.candidates.Nodup := by
  have hkeys : (keys s.cache).Nodup := distinct s.cache
  exact (List.nodup_reverse.mpr hkeys.of_map).filter _

/-- A removal succeeds iff the file of the entry is gone already or its deletion does not fail. -/
theorem remove_ok_iff {mediaId : Nat} {entry : CacheEntry}
    (hpeek : peek s.cache mediaId = some entry) :
    (s.remove refuses mediaId).1 = .ok () ↔
      ((s.files entry.path).isSome → refuses entry.path = false) := by
  have hfst : (Lru.pop s.cache mediaId).1 = some entry := pop_eq_peek.trans hpeek
  unfold remove
  rcases hpop : Lru.pop s.cache mediaId with ⟨popped, cache⟩
  rw [hpop] at hfst
  obtain rfl : popped = some entry := hfst
  dsimp only
  cases hfile : s.files entry.path with
  | none => simp
  | some size => cases refuses entry.path <;> simp

/-- A removal that succeeds evicts its entry. -/
theorem remove_evicted {mediaId : Nat} {entry : CacheEntry}
    (hpeek : peek s.cache mediaId = some entry)
    (hagrees : (s.files entry.path).isSome → refuses entry.path = false) :
    Evicted s (s.remove refuses mediaId).2 [(mediaId, entry)] := by
  have hfst : (Lru.pop s.cache mediaId).1 = some entry := pop_eq_peek.trans hpeek
  have hiter : iter (Lru.pop s.cache mediaId).2 =
      (iter s.cache).filter fun e => decide (e ∉ [(mediaId, entry)]) := by
    rw [iter_pop, without]
    apply List.filter_congr
    intro e he
    rw [decide_eq_decide, List.mem_singleton]
    constructor
    · rintro hne rfl
      exact hne rfl
    · intro hne hkey
      apply hne
      have hvalue := peek_of_mem_iter (m := s.cache) he
      rw [hkey, hpeek] at hvalue
      exact Prod.ext hkey (Option.some.inj hvalue).symm
  have hcap : cap (Lru.pop s.cache mediaId).2 = cap s.cache := cap_pop s.cache mediaId
  unfold remove
  rcases hpop : Lru.pop s.cache mediaId with ⟨popped, cache⟩
  rw [hpop] at hfst hiter hcap
  obtain rfl : popped = some entry := hfst
  dsimp only at hiter hcap ⊢
  have hsum : (([(mediaId, entry)] : List (Nat × CacheEntry)).map entrySize).sum = entry.size :=
    Nat.add_zero entry.size
  split
  · next hfile =>
    rw [if_neg (by rw [hagrees hfile]; exact Bool.false_ne_true)]
    refine ⟨hiter, by rw [hsum], ?_, rfl, rfl, hcap⟩
    intro path
    simp only [List.map_cons, List.map_nil, List.mem_singleton]
    exact Function.update_apply s.files entry.path none path
  · next hfile =>
    refine ⟨hiter, by rw [hsum], ?_, rfl, rfl, hcap⟩
    intro path
    simp only [List.map_cons, List.map_nil, List.mem_singleton]
    split
    · next hpath =>
      subst hpath
      exact Option.not_isSome_iff_eq_none.mp hfile
    · rfl

/-- The entry to evict is in the index, and once it is evicted the other candidates are left. -/
theorem candidates_of_mediaIdToEvict {mediaId : Nat} (h : s.mediaIdToEvict = some mediaId) :
    ∃ entry rest, s.candidates = (mediaId, entry) :: rest ∧
      peek s.cache mediaId = some entry ∧
      ∀ t : LruCacheManager M, Evicted s t [(mediaId, entry)] → t.candidates = rest := by
  rw [mediaIdToEvict_eq] at h
  cases hall : s.candidates with
  | nil =>
    rw [hall] at h
    cases h
  | cons e rest =>
    rw [hall] at h
    obtain rfl : e.1 = mediaId := Option.some.inj h
    have hmem : e ∈ iter s.cache := (mem_candidates.mp (by rw [hall]; exact List.mem_cons_self)).1
    refine ⟨e.2, rest, rfl, peek_of_mem_iter hmem, ?_⟩
    intro t evicted
    have hnodup := s.nodup_candidates
    rw [hall, List.nodup_cons] at hnodup
    have hfilter : t.candidates = s.candidates.filter fun e' => decide (e' ∉ [e]) := by
      unfold candidates
      rw [evicted.index, evicted.pinned, ← List.filter_reverse, List.filter_filter,
        List.filter_filter]
      apply List.filter_congr
      intro e' _
      rw [Bool.and_comm]
    rw [hfilter, hall, List.filter_cons_of_neg (by simp)]
    rw [List.filter_eq_self]
    intro e' he'
    rw [decide_eq_true_eq, List.mem_singleton]
    rintro rfl
    exact hnodup.1 he'

/-! ### A pass -/

/-- The victims of a pass. -/
abbrev passVictims (s : LruCacheManager M) (targetSize : Nat) : List (Nat × CacheEntry) :=
  victims entrySize targetSize s.currentSize s.candidates

/-- A pass that succeeds, with a round for each candidate, evicts its victims. -/
theorem evictLoop_evicted {targetSize rounds : Nat} (enough : s.candidates.length < rounds)
    (h : (evictLoop refuses targetSize rounds s).1 = .ok ()) :
    Evicted s (evictLoop refuses targetSize rounds s).2 (s.passVictims targetSize) := by
  induction rounds generalizing s with
  | zero => omega
  | succ rounds ih =>
    unfold evictLoop at h ⊢
    split at h
    · next hmet =>
      rw [if_pos hmet, passVictims, victims_of_le hmet]
      exact Evicted.refl s
    · next habove =>
      rw [if_neg habove]
      cases hid : s.mediaIdToEvict with
      | none =>
        have hnone : s.candidates = [] := by
          rw [mediaIdToEvict_eq, Option.map_eq_none_iff] at hid
          exact List.head?_eq_none_iff.mp hid
        rw [passVictims, hnone]
        exact Evicted.refl s
      | some mediaId =>
        obtain ⟨entry, rest, hall, hpeek, hrest⟩ := candidates_of_mediaIdToEvict hid
        rw [hid] at h
        dsimp only at h ⊢
        rw [hpeek] at h ⊢
        dsimp only at h ⊢
        rcases hremove : s.remove refuses mediaId with ⟨e | ⟨⟩, t⟩
        · rw [hremove] at h
          cases h
        · rw [hremove] at h
          dsimp only at h ⊢
          -- one victim is evicted, and the others are those of the state after it
          have hevicted : Evicted s t [(mediaId, entry)] := by
            have hagrees : (s.files entry.path).isSome → refuses entry.path = false :=
              (remove_ok_iff hpeek).mp (by rw [hremove])
            have hone := remove_evicted hpeek hagrees
            rw [hremove] at hone
            exact hone
          have hleft : t.candidates = rest := hrest t hevicted
          have hcount : t.currentSize = s.currentSize - entrySize (mediaId, entry) := by
            rw [hevicted.counted]
            rfl
          rw [hall, List.length_cons] at enough
          have hlater := ih (by rw [hleft]; omega) h
          have hboth := hevicted.append hlater
          rw [passVictims, hleft, hcount] at hboth
          rw [passVictims, hall, victims_cons_of_lt (by omega)]
          exact hboth

/-- A pass succeeds when no deletion of a victim fails. -/
theorem evictLoop_ok {targetSize rounds : Nat}
    (hagrees : ∀ e ∈ s.passVictims targetSize, (s.files e.2.path).isSome →
      refuses e.2.path = false) :
    (evictLoop refuses targetSize rounds s).1 = .ok () := by
  induction rounds generalizing s with
  | zero => rfl
  | succ rounds ih =>
    unfold evictLoop
    split
    · rfl
    · next habove =>
      cases hid : s.mediaIdToEvict with
      | none => rfl
      | some mediaId =>
        obtain ⟨entry, rest, hall, hpeek, hrest⟩ := candidates_of_mediaIdToEvict hid
        dsimp only
        rw [hpeek]
        dsimp only
        rw [passVictims, hall, victims_cons_of_lt (by omega)] at hagrees
        have hfirst := hagrees (mediaId, entry) List.mem_cons_self
        have hevicted := remove_evicted hpeek hfirst
        have hok : (s.remove refuses mediaId).1 = .ok () := (remove_ok_iff hpeek).mpr hfirst
        rcases hremove : s.remove refuses mediaId with ⟨e | ⟨⟩, t⟩
        · rw [hremove] at hok
          cases hok
        · rw [hremove] at hevicted
          apply ih
          intro e he hfile
          have hcount : t.currentSize = s.currentSize - entrySize (mediaId, entry) := by
            rw [hevicted.counted]
            rfl
          rw [passVictims, hrest t hevicted, hcount] at he
          apply hagrees e (List.mem_cons_of_mem _ he)
          rw [hevicted.files] at hfile
          split at hfile
          · simp at hfile
          · exact hfile

/-! ### What a pass is for -/

/-- The entries that left the index, in the order in which they were to go. -/
def removedEntries (s t : LruCacheManager M) : List (Nat × CacheEntry) :=
  (iter s.cache).reverse.filter fun e => decide (e ∉ iter t.cache)

/-- What one pass should come to: the entries that left are the shortest part of the candidates
    that reaches the target, they are taken off the count, and an entry whose file is still there
    stays. -/
structure Orderly (s t : LruCacheManager M) (targetSize : Nat) : Prop where
  removed : ShortestReaching entrySize s.currentSize targetSize s.candidates (removedEntries s t)
  counted : t.currentSize = s.currentSize - ((removedEntries s t).map entrySize).sum
  failed : ∀ e ∈ iter s.cache, t.files e.2.path ≠ none → e ∈ iter t.cache

/-- No deletion of a file fails among the entries that the pass should remove. -/
def NoneRefused (s : LruCacheManager M) (refuses : String → Bool) (targetSize : Nat) : Prop :=
  ∀ gone, ShortestReaching entrySize s.currentSize targetSize s.candidates gone →
    ∀ e ∈ gone, (s.files e.2.path).isSome → refuses e.2.path = false

/-- A part of a list without duplicates is found in it by its elements. -/
theorem filter_mem_of_sublist {β : Type} [BEq β] [LawfulBEq β] {part l : List β}
    (h : part.Sublist l) (nodup : l.Nodup) : (l.filter fun e => decide (e ∈ part)) = part := by
  induction h with
  | slnil => rfl
  | @cons part l e h ih =>
    rw [List.nodup_cons] at nodup
    have hnot : e ∉ part := fun he => nodup.1 (h.subset he)
    rw [List.filter_cons_of_neg (by simpa using hnot)]
    exact ih nodup.2
  | @cons_cons part l e h ih =>
    rw [List.nodup_cons] at nodup
    rw [List.filter_cons_of_pos (by simp)]
    congr 1
    calc (l.filter fun e' => decide (e' ∈ e :: part)) = l.filter fun e' => decide (e' ∈ part) := by
          apply List.filter_congr
          intro e' he'
          rw [decide_eq_decide, List.mem_cons]
          constructor
          · rintro (rfl | hmem)
            · exact absurd he' nodup.1
            · exact hmem
          · exact .inr
      _ = part := ih nodup.2

/-- What was evicted is what left. -/
theorem Evicted.removedEntries {gone : List (Nat × CacheEntry)} (h : Evicted s t gone)
    (hgone : gone <+: s.candidates) : removedEntries s t = gone := by
  have hkeys : (keys s.cache).Nodup := distinct s.cache
  have hsub : gone.Sublist (iter s.cache).reverse :=
    hgone.sublist.trans List.filter_sublist
  calc LruCacheManager.removedEntries s t
      = (iter s.cache).reverse.filter fun e => decide (e ∈ gone) := by
        apply List.filter_congr
        intro e he
        rw [decide_eq_decide, h.mem_iter]
        have hmem : e ∈ iter s.cache := List.mem_reverse.mp he
        tauto
    _ = gone := filter_mem_of_sublist hsub (List.nodup_reverse.mpr hkeys.of_map)

omit [LawfulLruMap M] in
/-- A file whose deletion fails stays. -/
theorem remove_keeps_refused {path : String} {size : Nat} (hrefused : refuses path = true)
    (s : LruCacheManager M) (mediaId : Nat) (h : s.files path = some size) :
    (s.remove refuses mediaId).2.files path = some size := by
  unfold remove
  split
  · dsimp only
    split
    · split
      · exact h
      · next entry _ _ _ hagrees =>
        have hne : path ≠ entry.path := by
          rintro rfl
          exact hagrees hrefused
        show Function.update s.files entry.path none path = some size
        rw [Function.update_of_ne hne]
        exact h
    · exact h
  · exact h

/-- A pass has a round for each entry that an index can hold. -/
theorem candidates_lt_evictionLimit (capacity : cap s.cache = cacheCapacity) :
    s.candidates.length < evictionLimit := by
  have hcandidates := s.length_candidates_le
  have hbounded : (iter s.cache).length ≤ cap s.cache := bounded s.cache
  have hcap : ((cacheCapacity : ℕ+) : Nat) = 10000 := rfl
  have hlimit : evictionLimit = 10001 := rfl
  omega

/-- A pass is orderly iff no deletion of an entry that it should remove fails. -/
theorem evictUntil_orderly_iff_noneRefused (capacity : cap s.cache = cacheCapacity)
    (refuses : String → Bool) (targetSize : Nat) :
    s.Orderly (s.evictUntil refuses targetSize).2 targetSize ↔
      s.NoneRefused refuses targetSize := by
  have hvictims := victims_shortest entrySize s.currentSize targetSize s.candidates
  constructor
  · intro horderly gone hgone e he hfile
    obtain rfl : removedEntries s (s.evictUntil refuses targetSize).2 = gone :=
      horderly.removed.unique hgone
    by_contra hrefused
    rw [Bool.not_eq_false] at hrefused
    -- the file of a refused deletion stays, so its entry should have stayed
    obtain ⟨size, hsize⟩ := Option.isSome_iff_exists.mp hfile
    have hstays : (s.evictUntil refuses targetSize).2.files e.2.path = some size :=
      evictLoop_keeps (P := fun t => t.files e.2.path = some size)
        (remove_keeps_refused hrefused) hsize _ _
    obtain ⟨hmem, hleft⟩ := List.mem_filter.mp he
    rw [decide_eq_true_eq] at hleft
    apply hleft
    apply horderly.failed e (List.mem_reverse.mp hmem)
    rw [hstays]
    exact Option.some_ne_none size
  · intro hnone
    have hok : (s.evictUntil refuses targetSize).1 = .ok () :=
      evictLoop_ok (hnone _ hvictims)
    have hevicted := evictLoop_evicted (candidates_lt_evictionLimit capacity) hok
    have hremoved := hevicted.removedEntries hvictims.first
    unfold evictUntil
    constructor
    · rw [hremoved]
      exact hvictims
    · rw [hremoved]
      exact hevicted.counted
    · intro e he hfile
      rw [hevicted.mem_iter]
      refine ⟨he, ?_⟩
      intro hgone
      apply hfile
      rw [hevicted.files, if_pos (List.mem_map_of_mem hgone)]

/-! ### Room -/

/-- The index counts its entries, in a map of the one capacity that there is. -/
structure Accounted (s : LruCacheManager M) : Prop where
  counted : s.currentSize = total CacheEntry.size s.cache
  capacity : cap s.cache = cacheCapacity

/-- The looked-up weights of some keys are the weights of their entries. -/
theorem sum_lookup {κ α : Type} [DecidableEq κ] (weight : α → Nat) (wanted : Finset κ)
    {l : List (κ × α)} (distinct : (l.map Prod.fst).Nodup) :
    ∑ k ∈ wanted, ((l.lookup k).map weight).getD 0 =
      ((l.filter fun e => decide (e.1 ∈ wanted)).map fun e => weight e.2).sum := by
  induction l with
  | nil => simp
  | cons e l ih =>
    obtain ⟨k, v⟩ := e
    rw [List.map_cons, List.nodup_cons] at distinct
    have hnone : l.lookup k = none := lookup_eq_none.mpr distinct.1
    have hsplit : ∀ k', ((((k, v) :: l).lookup k').map weight).getD 0 =
        (if k' = k then weight v else 0) + ((l.lookup k').map weight).getD 0 := by
      intro k'
      rw [List.lookup_cons]
      by_cases hk : k' = k
      · subst hk
        simp [hnone]
      · rw [beq_false_of_ne hk, if_neg hk, Nat.zero_add]
    simp only [hsplit]
    rw [Finset.sum_add_distrib, ih distinct.2, Finset.sum_ite_eq']
    by_cases hk : k ∈ wanted
    · rw [if_pos hk, List.filter_cons_of_pos (by simpa using hk), List.map_cons, List.sum_cons]
    · rw [if_neg hk, List.filter_cons_of_neg (by simpa using hk), Nat.zero_add]

/-- The pinned bytes and the sizes of the candidates make up all bytes. -/
theorem pinnedBytes_add_candidates (s : LruCacheManager M) :
    s.pinnedBytes + (s.candidates.map entrySize).sum = total CacheEntry.size s.cache := by
  have hkeys : (keys s.cache).Nodup := distinct s.cache
  have hpinned : s.pinnedBytes =
      (((iter s.cache).filter fun e => decide (e.1 ∈ s.pinned)).map entrySize).sum := by
    unfold pinnedBytes
    simp only [peek_eq]
    exact sum_lookup CacheEntry.size s.pinned hkeys
  have hcandidates : (s.candidates.map entrySize).sum =
      (((iter s.cache).filter fun e => !decide (e.1 ∈ s.pinned)).map entrySize).sum := by
    unfold candidates
    rw [List.filter_reverse, List.map_reverse, List.sum_reverse]
    simp only [decide_not]
  rw [hpinned, hcandidates, ← List.sum_append, ← List.map_append]
  exact ((List.filter_append_perm _ _).map entrySize).sum_eq

/-- A pass that succeeds down to the room wanted leaves it, since the pinned entries do. -/
theorem currentSize_of_evicted (accounted : s.Accounted) {room : Nat}
    (hpinned : s.pinnedBytes ≤ room) (h : Evicted s t (s.passVictims room)) :
    t.currentSize ≤ room := by
  rw [h.counted]
  rcases (victims_shortest entrySize s.currentSize room s.candidates).reaches with hmet | hall
  · exact hmet
  · have hsum := s.pinnedBytes_add_candidates
    have hcounted := accounted.counted
    unfold passVictims
    rw [hall]
    omega

/-- What `ensure_room_for` evicts when it succeeds, and the room that it leaves. -/
theorem ensureRoomFor_evicted (accounted : s.Accounted) {incomingBytes : Nat}
    {available stillAvailable : Option Nat}
    (h : (s.ensureRoomFor refuses incomingBytes available stillAvailable).1 = .ok ()) :
    ∃ gone, Evicted s (s.ensureRoomFor refuses incomingBytes available stillAvailable).2 gone ∧
      (∀ e ∈ gone, e ∈ s.candidates) ∧
      (s.ensureRoomFor refuses incomingBytes available stillAvailable).2.currentSize +
        incomingBytes ≤ s.maxSizeBytes := by
  unfold ensureRoomFor at h ⊢
  split at h
  · cases h
  · next hcap =>
    split at h
    · cases h
    · next hfits =>
      rw [if_neg hcap, if_neg hfits]
      rcases hfirst : s.evictUntil refuses (s.maxSizeBytes - incomingBytes) with ⟨e | ⟨⟩, t⟩
      · rw [hfirst] at h
        cases h
      · rw [hfirst] at h
        dsimp only at h ⊢
        have henough := candidates_lt_evictionLimit accounted.capacity
        have hevicted : Evicted s t (s.passVictims (s.maxSizeBytes - incomingBytes)) := by
          have hloop : evictLoop refuses (s.maxSizeBytes - incomingBytes) evictionLimit s =
              (.ok (), t) := hfirst
          have hpass := evictLoop_evicted henough (congrArg Prod.fst hloop)
          rw [hloop] at hpass
          exact hpass
        have hroom : t.currentSize ≤ s.maxSizeBytes - incomingBytes :=
          currentSize_of_evicted accounted (by omega) hevicted
        have hgone : ∀ e ∈ s.passVictims (s.maxSizeBytes - incomingBytes), e ∈ s.candidates :=
          (victims_shortest entrySize _ _ _).first.subset
        cases available with
        | none =>
          refine ⟨_, hevicted, hgone, ?_⟩
          show t.currentSize + incomingBytes ≤ s.maxSizeBytes
          omega
        | some available =>
          dsimp only at h ⊢
          split at h
          · next htight =>
            rw [if_pos htight]
            rcases hsecond : t.evictUntil refuses
              (t.currentSize - (incomingBytes + diskHeadroomBytes - available)) with ⟨e | ⟨⟩, u⟩
            · rw [hsecond] at h
              cases h
            · rw [hsecond] at h
              dsimp only at h ⊢
              split at h
              · cases h
              · next hstill =>
                rw [if_neg hstill]
                have hloop : evictLoop refuses
                    (t.currentSize - (incomingBytes + diskHeadroomBytes - available))
                    evictionLimit t = (.ok (), u) := hsecond
                have hmore := evictLoop_evicted
                  (candidates_lt_evictionLimit (hevicted.capacity.trans accounted.capacity))
                  (congrArg Prod.fst hloop)
                rw [hloop] at hmore
                have hless := hmore.currentSize_le
                refine ⟨_, hevicted.append hmore, ?_, by dsimp only at hless ⊢; omega⟩
                intro e he
                rcases List.mem_append.mp he with hmem | hmem
                · exact hgone e hmem
                · have hlater := (victims_shortest entrySize _ _ _).first.subset hmem
                  obtain ⟨hiter, hpin⟩ := mem_candidates.mp hlater
                  rw [hevicted.pinned] at hpin
                  exact mem_candidates.mpr ⟨(hevicted.mem_iter.mp hiter).1, hpin⟩
          · next hample =>
            rw [if_neg hample]
            refine ⟨_, hevicted, hgone, ?_⟩
            show t.currentSize + incomingBytes ≤ s.maxSizeBytes
            omega

/-- `ensure_room_for` on an accounted index: success means that the incoming bytes fit, that every
    pinned entry is there and that its file is unless another entry shares it; with too little room
    beside the pinned entries it refuses and changes nothing. -/
theorem ensureRoomFor_room (accounted : s.Accounted) (refuses : String → Bool)
    (incomingBytes : Nat) (available stillAvailable : Option Nat) :
    ((s.ensureRoomFor refuses incomingBytes available stillAvailable).1 = .ok () →
      (s.ensureRoomFor refuses incomingBytes available stillAvailable).2.currentSize +
          incomingBytes ≤ s.maxSizeBytes ∧
        ∀ e ∈ iter s.cache, e.1 ∈ s.pinned →
          e ∈ iter (s.ensureRoomFor refuses incomingBytes available stillAvailable).2.cache ∧
          ((∀ e' ∈ iter s.cache, e' ≠ e → e'.2.path ≠ e.2.path) →
            (s.ensureRoomFor refuses incomingBytes available stillAvailable).2.files e.2.path =
              s.files e.2.path)) ∧
    (s.maxSizeBytes < s.pinnedBytes + incomingBytes →
      s.ensureRoomFor refuses incomingBytes available stillAvailable = (.error s.full, s)) := by
  constructor
  · intro hok
    obtain ⟨gone, hevicted, hgone, hroom⟩ := ensureRoomFor_evicted accounted hok
    refine ⟨hroom, ?_⟩
    intro e he hpin
    have hnot : e ∉ gone := fun hmem => (mem_candidates.mp (hgone e hmem)).2 hpin
    refine ⟨hevicted.mem_iter.mpr ⟨he, hnot⟩, ?_⟩
    intro hother
    rw [hevicted.files, if_neg]
    intro hpath
    obtain ⟨e', he', heq⟩ := List.mem_map.mp hpath
    have hne : e' ≠ e := by
      rintro rfl
      exact hnot he'
    exact hother e' (mem_candidates.mp (hgone e' he')).1 hne heq
  · intro hfull
    unfold ensureRoomFor
    split
    · rfl
    · rfl

/-! ### The states that there are -/

omit [LawfulLruMap M] in
theorem Sound.accounted_of_capacity (sound : Sound s) (capacity : cap s.cache = cacheCapacity) :
    s.Accounted :=
  ⟨sound.accounted, capacity⟩

theorem cap_remove (s : LruCacheManager M) (mediaId : Nat)
    (capacity : cap s.cache = cacheCapacity) :
    cap (s.remove refuses mediaId).2.cache = cacheCapacity := by
  have hpop : cap (Lru.pop s.cache mediaId).2 = cap s.cache := cap_pop s.cache mediaId
  rw [capacity] at hpop
  unfold remove
  split
  · next heq =>
    rw [heq] at hpop
    dsimp only
    split
    · split <;> exact hpop
    · exact hpop
  · exact capacity

theorem cap_takeOut (s : LruCacheManager M) (mediaId : Nat) (path : String) :
    cap (s.takeOut mediaId path).cache = cap s.cache := by
  have hpop : cap (Lru.pop s.cache mediaId).2 = cap s.cache := cap_pop s.cache mediaId
  unfold takeOut
  split
  · next heq =>
    rw [heq] at hpop
    exact hpop
  · rfl

/-- No operation changes the capacity. -/
theorem cap_step {call : Call} (capacity : cap s.cache = cacheCapacity)
    (h : step s call = some t) : cap t.cache = cacheCapacity := by
  obtain ⟨op, refuses⟩ := call
  obtain rfl : (s.run ⟨op, refuses⟩).2 = t := Option.some.inj h
  cases op with
  | init listing =>
    cases listing with
    | none => exact capacity
    | some listing =>
      refine evictIfNeeded_keeps (P := fun t => cap t.cache = cacheCapacity) cap_remove ?_
      exact (cap_enterAll _ s).trans capacity
  | access mediaId now => exact (cap_modify _ _ _).trans capacity
  | add mediaId path now =>
    show cap (s.add refuses mediaId path now).2.cache = cacheCapacity
    unfold add
    split
    · exact capacity
    · apply evictIfNeeded_keeps (P := fun t => cap t.cache = cacheCapacity) cap_remove
      exact (cap_put _ _ _).trans ((s.cap_takeOut mediaId path).trans capacity)
  | remove mediaId => exact cap_remove s mediaId capacity
  | evictIfNeeded =>
    exact evictIfNeeded_keeps (P := fun t => cap t.cache = cacheCapacity) cap_remove capacity
  | checkDiskSpace =>
    exact checkDiskSpace_keeps (P := fun t => cap t.cache = cacheCapacity) cap_remove capacity _
  | ensureRoomFor =>
    exact ensureRoomFor_keeps (P := fun t => cap t.cache = cacheCapacity) cap_remove capacity
      _ _ _
  | pin => exact capacity
  | unpin => exact capacity
  | replacePins => exact capacity
  | disk => exact capacity

/-- Careful runs reach accounted states only. -/
theorem accounted_of_run (maxSizeMb : Nat) (cacheDir : String) (files : String → Option Nat)
    {calls : List Call}
    (run : Guarded step Careful (new maxSizeMb cacheDir files : LruCacheManager M) calls t) :
    t.Accounted := by
  let inv : LruCacheManager M → Prop := fun t => Sound t ∧ cap t.cache = cacheCapacity
  have hstart : inv (new maxSizeMb cacheDir files) :=
    ⟨sound_new maxSizeMb cacheDir files, cap_new cacheCapacity⟩
  have hboth : inv t := run.invariant hstart fun _ _ _ h careful henabled =>
    ⟨sound_step h.1 careful henabled, cap_step h.2 henabled⟩
  exact hboth.1.accounted_of_capacity hboth.2

/-- Two clips of half a megabyte, the older one pinned. -/
def halves : ListManager where
  cache := put (put (LruMap.new cacheCapacity) 7 ⟨"/cache/7_a.mp4", 524288, 1, 7⟩) 8
    ⟨"/cache/8_b.mp4", 524288, 2, 8⟩
  currentSize := 1048576
  pinned := {7}
  maxSizeBytes := 1048576
  cacheDir := "/cache"
  files path :=
    if path = "/cache/7_a.mp4" ∨ path = "/cache/8_b.mp4" then some 524288 else none
  departed := []

theorem halves_accounted : halves.Accounted where
  counted := by decide
  capacity := rfl

theorem ensureRoomFor_room_halves :
    (halves.ensureRoomFor (fun _ => false) 524288 none none).2.currentSize + 524288 ≤
        halves.maxSizeBytes ∧
      halves.ensureRoomFor (fun _ => false) 524289 none none = (.error halves.full, halves) :=
  ⟨((ensureRoomFor_room halves_accounted (fun _ => false) 524288 none none).1 (by decide)).1,
    (ensureRoomFor_room halves_accounted (fun _ => false) 524289 none none).2 (by decide)⟩

end LruCacheManager

end Montr.Client
