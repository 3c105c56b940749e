import Montr.Client.EvictionOrder

namespace Montr.Client

open Lru LawfulLruMap Eviction Transition

/-!
# Eviction beside changes of the pins

`evict_until` with its locks: it looks at the size, chooses an entry, looks the entry up and removes
it, each under locks of its own, and between any two of these other tasks may pin and unpin.

* `Pass.step` — one of these steps or a change of the pins;
* `pass_alone` — without changes of the pins the steps are `evictUntil`;
* `eviction_orderly` — a pass is orderly iff no deletion fails, and it removes no pinned entry as
  long as none is pinned between its choice and its removal.
-/

/-- Where a pass stands. -/
inductive Stage
  | size
  | choose
  | look (mediaId : Nat)
  | remove (mediaId : Nat)
  | done (result : Except CacheError Unit)

/-- The entry that was chosen and is not removed yet. -/
def Stage.chosen : Stage → Option Nat
  | .look mediaId => some mediaId
  | .remove mediaId => some mediaId
  | _ => none

/-- A removal by the pass, and whether its entry was pinned at that moment. -/
structure Removal where
  mediaId : Nat
  pinned : Bool
  deriving DecidableEq, Repr

/-- A pass under way.  `removals` is there for statements only. -/
structure Pass (M : Type) where
  lru : LruCacheManager M
  stage : Stage
  evictedCount : Nat
  removals : List Removal

/-- The next step of the pass, or a call of another task. -/
inductive PassEvent
  | advance
  | pin (mediaId : Nat)
  | unpin (mediaId : Nat)
  | replacePins (ids : List Nat)

namespace Pass

variable {M : Type} [LruMap M Nat CacheEntry]

def start (lru : LruCacheManager M) : Pass M := ⟨lru, .size, 0, []⟩

/-- The end of a round: the safety check. -/
def nextRound (p : Pass M) : Pass M :=
  if p.evictedCount > 10000 then { p with stage := .done (.ok ()) } else { p with stage := .size }

/-- What happens under one acquisition of the locks. -/
def advance (refuses : String → Bool) (targetSize : Nat) (p : Pass M) : Option (Pass M) :=
  match p.stage with
  | .size =>
    if p.lru.currentSize ≤ targetSize then some { p with stage := .done (.ok ()) }
    else some { p with stage := .choose }
  | .choose =>
    match p.lru.mediaIdToEvict with
    | none => some { p with stage := .done (.ok ()) }
    | some mediaId => some { p with stage := .look mediaId }
  | .look mediaId =>
    match peek p.lru.cache mediaId with
    | some _ => some { p with stage := .remove mediaId, evictedCount := p.evictedCount + 1 }
    | none => some p.nextRound
  | .remove mediaId =>
    let removals := p.removals ++ [⟨mediaId, decide (mediaId ∈ p.lru.pinned)⟩]
    match p.lru.remove refuses mediaId with
    | (.ok (), lru) => some { p with lru := lru, removals := removals }.nextRound
    | (.error e, lru) =>
      some { p with lru := lru, removals := removals, stage := .done (.error e) }
  | .done _ => none

def step (refuses : String → Bool) (targetSize : Nat) (p : Pass M) :
    PassEvent → Option (Pass M)
  | .advance => p.advance refuses targetSize
  | .pin mediaId => some { p with lru := p.lru.pin mediaId }
  | .unpin mediaId => some { p with lru := p.lru.unpin mediaId }
  | .replacePins ids => some { p with lru := p.lru.replacePins ids }

/-- The entry that was chosen is not pinned before it is removed. -/
def Steady (p : Pass M) : PassEvent → Prop
  | .advance => True
  | .pin mediaId => p.stage.chosen ≠ some mediaId
  | .unpin _ => True
  | .replacePins ids => ∀ mediaId ∈ p.stage.chosen, mediaId ∉ ids

/-! ### Removals of pinned entries -/

/-- The chosen entry is not pinned, and none that was removed was. -/
structure RespectsPins (p : Pass M) : Prop where
  chosen : ∀ mediaId ∈ p.stage.chosen, mediaId ∉ p.lru.pinned
  removals : ∀ r ∈ p.removals, r.pinned = false

variable {p q : Pass M} {refuses : String → Bool} {targetSize : Nat}

omit [LruMap M Nat CacheEntry] in
theorem chosen_nextRound (p : Pass M) : p.nextRound.stage.chosen = none := by
  unfold nextRound
  split <;> rfl

omit [LruMap M Nat CacheEntry] in
theorem nextRound_removals (p : Pass M) : p.nextRound.removals = p.removals := by
  unfold nextRound
  split <;> rfl

theorem not_pinned_of_mediaIdToEvict {s : LruCacheManager M} {mediaId : Nat}
    (h : s.mediaIdToEvict = some mediaId) : mediaId ∉ s.pinned := by
  have hfound := List.find?_some h
  simpa using hfound

theorem RespectsPins.advance (h : p.RespectsPins)
    (enabled : p.advance refuses targetSize = some q) : q.RespectsPins := by
  have hnone : ∀ stage : Stage, stage.chosen = none →
      RespectsPins { p with stage := stage } := by
    intro stage hstage
    refine ⟨?_, h.removals⟩
    intro mediaId hmem
    rw [hstage] at hmem
    cases hmem
  unfold Pass.advance at enabled
  cases hstage : p.stage with
  | size =>
    rw [hstage] at enabled
    dsimp only at enabled
    split at enabled
    · obtain rfl := Option.some.inj enabled
      exact hnone _ rfl
    · obtain rfl := Option.some.inj enabled
      exact hnone _ rfl
  | choose =>
    rw [hstage] at enabled
    dsimp only at enabled
    split at enabled
    · obtain rfl := Option.some.inj enabled
      exact hnone _ rfl
    · next mediaId hchosen =>
      -- the choice is made under the lock of the pins
      obtain rfl := Option.some.inj enabled
      refine ⟨?_, h.removals⟩
      intro mediaId' hmem
      obtain rfl : mediaId = mediaId' := Option.some.inj hmem
      exact not_pinned_of_mediaIdToEvict hchosen
  | look mediaId =>
    rw [hstage] at enabled
    dsimp only at enabled
    have hchosen := h.chosen
    rw [hstage] at hchosen
    split at enabled
    · obtain rfl := Option.some.inj enabled
      exact ⟨hchosen, h.removals⟩
    · obtain rfl := Option.some.inj enabled
      refine ⟨?_, ?_⟩
      · intro mediaId' hmem
        rw [chosen_nextRound] at hmem
        cases hmem
      · rw [nextRound_removals]
        exact h.removals
  | remove mediaId =>
    rw [hstage] at enabled
    dsimp only at enabled
    have hunpinned : decide (mediaId ∈ p.lru.pinned) = false := by
      apply decide_eq_false
      apply h.chosen
      rw [hstage]
      rfl
    have hremovals : ∀ r ∈ p.removals ++ [⟨mediaId, decide (mediaId ∈ p.lru.pinned)⟩],
        r.pinned = false := by
      intro r hr
      rcases List.mem_append.mp hr with hold | hnew
      · exact h.removals r hold
      · rw [List.mem_singleton.mp hnew]
        exact hunpinned
    split at enabled
    · obtain rfl := Option.some.inj enabled
      refine ⟨?_, ?_⟩
      · intro mediaId' hmem
        rw [chosen_nextRound] at hmem
        cases hmem
      · rw [nextRound_removals]
        exact hremovals
    · obtain rfl := Option.some.inj enabled
      refine ⟨?_, hremovals⟩
      intro mediaId' hmem
      cases hmem
  | done result =>
    rw [hstage] at enabled
    cases enabled

/-- One steady step keeps the pins respected. -/
theorem RespectsPins.step {event : PassEvent} (h : p.RespectsPins) (steady : p.Steady event)
    (enabled : p.step refuses targetSize event = some q) : q.RespectsPins := by
  cases event with
  | advance => exact h.advance enabled
  | pin mediaId =>
    obtain rfl := Option.some.inj enabled
    refine ⟨?_, h.removals⟩
    intro mediaId' hmem
    show mediaId' ∉ insert mediaId p.lru.pinned
    rw [Finset.mem_insert]
    rintro (rfl | hpinned)
    · exact steady hmem
    · exact h.chosen mediaId' hmem hpinned
  | unpin mediaId =>
    obtain rfl := Option.some.inj enabled
    refine ⟨?_, h.removals⟩
    intro mediaId' hmem hpinned
    exact h.chosen mediaId' hmem (Finset.mem_of_mem_erase hpinned)
  | replacePins ids =>
    obtain rfl := Option.some.inj enabled
    refine ⟨?_, h.removals⟩
    intro mediaId' hmem hpinned
    exact steady mediaId' hmem (List.mem_toFinset.mp hpinned)

/-! ### A pass on its own -/

variable [LawfulLruMap M]

/-- From the start of a round on, the steps of the pass do what the loop does. -/
theorem loop_alone (p : Pass M) (hstage : p.stage = .size) {rounds : Nat}
    (hrounds : p.evictedCount + rounds = LruCacheManager.evictionLimit) (more : 0 < rounds) :
    ∃ n t, exec (step refuses targetSize) p (List.replicate n .advance) = some t ∧
      t.stage = .done (LruCacheManager.evictLoop refuses targetSize rounds p.lru).1 ∧
      t.lru = (LruCacheManager.evictLoop refuses targetSize rounds p.lru).2 := by
  have hlimit : LruCacheManager.evictionLimit = 10001 := rfl
  induction rounds generalizing p with
  | zero => omega
  | succ rounds ih =>
    unfold LruCacheManager.evictLoop
    by_cases hmet : p.lru.currentSize ≤ targetSize
    · refine ⟨1, { p with stage := .done (.ok ()) }, ?_, ?_, ?_⟩
      · simp [exec, step, advance, hstage, hmet]
      · rw [if_pos hmet]
      · rw [if_pos hmet]
    · rw [if_neg hmet]
      cases hid : p.lru.mediaIdToEvict with
      | none =>
        refine ⟨2, { p with stage := .done (.ok ()) }, ?_, rfl, rfl⟩
        simp [exec, step, advance, hstage, hmet, hid]
      | some mediaId =>
        obtain ⟨entry, -, -, hpeek, -⟩ := LruCacheManager.candidates_of_mediaIdToEvict hid
        dsimp only
        rw [hpeek]
        dsimp only
        rcases hremove : p.lru.remove refuses mediaId with ⟨e | ⟨⟩, lru⟩
        · refine ⟨4, { p with
            lru := lru
            stage := .done (.error e)
            evictedCount := p.evictedCount + 1
            removals := p.removals ++ [⟨mediaId, decide (mediaId ∈ p.lru.pinned)⟩] }, ?_, rfl, rfl⟩
          simp [exec, step, advance, hstage, hmet, hid, hpeek, hremove]
        · let next : Pass M := { p with
            lru := lru
            stage := .remove mediaId
            evictedCount := p.evictedCount + 1
            removals := p.removals ++ [⟨mediaId, decide (mediaId ∈ p.lru.pinned)⟩] }
          have hround : exec (step refuses targetSize) p (List.replicate 4 .advance) =
              some next.nextRound := by
            simp [exec, step, advance, hstage, hmet, hid, hpeek, hremove, next]
          rcases Nat.eq_zero_or_pos rounds with hlast | hmore
          · -- the safety limit: the loop has no round left either
            subst hlast
            have hdone : next.nextRound = { next with stage := .done (.ok ()) } := by
              unfold nextRound
              rw [if_pos]
              show p.evictedCount + 1 > 10000
              omega
            refine ⟨4, next.nextRound, hround, ?_, ?_⟩
            · rw [hdone]
              rfl
            · rw [hdone]
              rfl
          · have hagain : next.nextRound = { next with stage := .size } := by
              unfold nextRound
              rw [if_neg]
              show ¬ p.evictedCount + 1 > 10000
              omega
            have hcount : next.nextRound.evictedCount + rounds =
                LruCacheManager.evictionLimit := by
              rw [hagain]
              show p.evictedCount + 1 + rounds = _
              omega
            obtain ⟨n, t, hrun, hresult, hstate⟩ := ih next.nextRound (by rw [hagain]) hcount hmore
            rw [hagain] at hresult hstate
            refine ⟨4 + n, t, ?_, hresult, hstate⟩
            rw [List.replicate_add, exec_append, hround]
            exact hrun

/-- A pass on its own ends, with the result and the state of `evict_until`. -/
theorem pass_alone (s : LruCacheManager M) (refuses : String → Bool) (targetSize : Nat) :
    ∃ n t, exec (step refuses targetSize) (start s) (List.replicate n .advance) = some t ∧
      t.stage = .done (s.evictUntil refuses targetSize).1 ∧
      t.lru = (s.evictUntil refuses targetSize).2 := by
  unfold LruCacheManager.evictUntil
  apply loop_alone (start s) rfl
  · exact Nat.zero_add _
  · decide

/-- A pass on its own is orderly iff no deletion of an entry that it should remove fails; and
    beside changes of the pins that never pin the chosen entry before its removal, no entry is
    pinned at its removal. -/
theorem eviction_orderly {s : LruCacheManager M}
    (capacity : cap s.cache = LruCacheManager.cacheCapacity) (refuses : String → Bool)
    (targetSize : Nat) :
    (s.Orderly (s.evictUntil refuses targetSize).2 targetSize ↔
      s.NoneRefused refuses targetSize) ∧
    ∀ events t, Guarded (step refuses targetSize) Steady (start s) events t →
      ∀ r ∈ t.removals, r.pinned = false := by
  refine ⟨LruCacheManager.evictUntil_orderly_iff_noneRefused capacity refuses targetSize, ?_⟩
  intro events t run
  have hstart : (start s).RespectsPins := by
    constructor
    · intro mediaId hmem
      cases hmem
    · intro r hr
      cases hr
  have hend : t.RespectsPins := run.invariant hstart fun _ _ _ h steady enabled =>
    h.step steady enabled
  exact hend.removals

/-- Down to the older of two clips, which is pinned, while a third id is pinned. -/
theorem eviction_orderly_halves :
    ∃ t, exec (step (fun _ => false) 524288) (start LruCacheManager.halves)
        [.advance, .advance, .pin 9, .advance, .advance, .advance] = some t ∧
      t.removals = [⟨8, false⟩] ∧ (∀ r ∈ t.removals, r.pinned = false) ∧
      LruCacheManager.halves.Orderly
        (LruCacheManager.halves.evictUntil (fun _ => false) 524288).2 524288 := by
  have hboth := eviction_orderly (s := LruCacheManager.halves) rfl (fun _ => false) 524288
  have hother : (some 8 : Option Nat) ≠ some 9 := by decide
  have hrun : Guarded (step (fun _ => false) 524288) Steady (start LruCacheManager.halves)
      [.advance, .advance, .pin 9, .advance, .advance, .advance] _ :=
    .cons trivial rfl (.cons trivial rfl (.cons hother rfl (.cons trivial rfl
      (.cons trivial rfl (.cons trivial rfl .nil)))))
  refine ⟨_, rfl, by decide, hboth.2 _ _ hrun, hboth.1.mpr ?_⟩
  intro gone _ e _ _
  rfl

/-- The entry is pinned after its choice, and removed; and a file whose deletion fails is there, but
    its entry is not. -/
theorem not_orderly_pinned_or_refused :
    (∃ t, exec (step (fun _ => false) 524288) (start LruCacheManager.halves)
        [.advance, .advance, .pin 8, .advance, .advance] = some t ∧
      t.removals = [⟨8, true⟩] ∧ t.lru.files "/cache/8_b.mp4" = none) ∧
    ¬ LruCacheManager.halves.Orderly
      (LruCacheManager.halves.evictUntil (fun _ => true) 524288).2 524288 := by
  refine ⟨⟨_, rfl, by decide, by decide⟩, ?_⟩
  intro horderly
  have hstays := horderly.failed (8, ⟨"/cache/8_b.mp4", 524288, 2, 8⟩) (by decide) (by decide)
  exact absurd hstays (by decide)

end Pass

end Montr.Client
