import Mathlib.Algebra.Order.Field.Power
import Mathlib.Algebra.Order.Field.Rat

namespace Montr.Client

open scoped NNRat

/-!
# Reconnect back-off

`network/reconnect.rs` in exact arithmetic: seconds and factors are nonnegative rationals, the
attempt counter is the `u32` it is, and the exponent its cast to `i32`.

* `ReconnectStrategy.delayAt` — the delay by the attempt number, and `delays_eq` for a row of
  calls;
* `pairwise_delayAt` — the delays grow up to the cap, until the exponent turns negative;
* `backsOff_iff` — when the delays are non-decreasing and within the maximum.
-/

/-! ### Capped powers -/

section

variable {base multiplier cap : ℚ≥0}

theorem capped_le_capped (hm : 1 ≤ multiplier) {i j : Int} (h : i ≤ j) :
    min (base * multiplier ^ i) cap ≤ min (base * multiplier ^ j) cap := by
  apply min_le_min_right
  exact mul_le_mul_right (zpow_le_zpow_right₀ hm h) base

theorem le_capped (hm : 1 ≤ multiplier) (hcap : base ≤ cap) {j : Int} (h : 0 ≤ j) :
    base ≤ min (base * multiplier ^ j) cap := by
  apply le_min _ hcap
  exact le_mul_of_one_le_right zero_le (one_le_zpow₀ hm h)

/-- A negative exponent falls below the base. -/
theorem capped_lt (hm : 1 < multiplier) (hbase : 0 < base) {j : Int} (h : j < 0) :
    min (base * multiplier ^ j) cap < base := by
  apply min_lt_of_left_lt
  exact mul_lt_of_lt_one_right hbase (zpow_lt_one_of_neg₀ hm h)

/-- Nothing grows. -/
theorem capped_eq (hconst : multiplier = 1 ∨ base = 0) (hcap : base ≤ cap) (j : Int) :
    min (base * multiplier ^ j) cap = base := by
  have hsame : base * multiplier ^ j = base := by
    rcases hconst with rfl | rfl
    · rw [one_zpow, mul_one]
    · rw [zero_mul]
  rw [hsame, min_eq_left hcap]

end

/-! ### The strategy -/

/-- Durations in seconds.  `reconnectInterval` is `server.reconnect_interval` of the configuration
    snapshot, where one is wired in. -/
structure ReconnectStrategy where
  baseDelay : ℚ≥0
  currentDelay : ℚ≥0
  multiplier : ℚ≥0
  maxBackoff : ℚ≥0
  attempt : UInt32 := 0
  jitterEnabled : Bool := true
  reconnectInterval : Option Nat := none
  deriving DecidableEq

namespace ReconnectStrategy

def new (baseDelay multiplier maxBackoff : ℚ≥0) : ReconnectStrategy where
  baseDelay := baseDelay
  currentDelay := baseDelay
  multiplier := multiplier
  maxBackoff := maxBackoff

/-- Five seconds, by half more each time, up to five minutes. -/
def defaultStrategy : ReconnectStrategy := new 5 (3 / 2) 300

def withCfgSnap (s : ReconnectStrategy) (reconnectInterval : Nat) : ReconnectStrategy :=
  { s with reconnectInterval := some reconnectInterval }

def setJitter (s : ReconnectStrategy) (enabled : Bool) : ReconnectStrategy :=
  { s with jitterEnabled := enabled }

def currentBaseDelay (s : ReconnectStrategy) : ℚ≥0 :=
  match s.reconnectInterval with
  | some interval => ((max interval 1 : Nat) : ℚ≥0)
  | none => s.baseDelay

/-- The delay before jitter. -/
def delayAt (s : ReconnectStrategy) (attempt : UInt32) : ℚ≥0 :=
  if attempt = 0 then s.currentBaseDelay
  else min (s.currentBaseDelay * s.multiplier ^ attempt.toInt32.toInt) s.maxBackoff

/-- `next_delay`; `jitterFactor` is what `gen_range(0.8..1.2)` answers. -/
def nextDelay (s : ReconnectStrategy) (jitterFactor : ℚ≥0) : ReconnectStrategy × ℚ≥0 :=
  let baseDuration := s.delayAt s.attempt
  let delay := if s.jitterEnabled then baseDuration * jitterFactor else baseDuration
  -- the counter wraps around
  ({ s with currentDelay := delay, attempt := s.attempt + 1 }, delay)

def reset (s : ReconnectStrategy) : ReconnectStrategy :=
  { s with attempt := 0, currentDelay := s.currentBaseDelay }

/-- The delays of successive calls, one for each jitter factor. -/
def delays (s : ReconnectStrategy) : List ℚ≥0 → List ℚ≥0
  | [] => []
  | factor :: factors => (s.nextDelay factor).2 :: (s.nextDelay factor).1.delays factors

/-- A call of another task. -/
inductive Call
  | nextDelay (jitterFactor : ℚ≥0)
  | reset
  deriving DecidableEq

def perform (s : ReconnectStrategy) : Call → ReconnectStrategy
  | .nextDelay factor => (s.nextDelay factor).1
  | .reset => s.reset

example : ((new 4 (3 / 2) 100).setJitter false).delays [1, 1, 1] = [4, 6, 9] := by
  decide +kernel

/-! ### The delays -/

variable {s t : ReconnectStrategy}

/-- The same delays for the same attempts. -/
structure SameSettings (s t : ReconnectStrategy) : Prop where
  base : t.currentBaseDelay = s.currentBaseDelay
  multiplier : t.multiplier = s.multiplier
  maxBackoff : t.maxBackoff = s.maxBackoff
  jitterEnabled : t.jitterEnabled = s.jitterEnabled

theorem SameSettings.delayAt (h : SameSettings s t) (attempt : UInt32) :
    t.delayAt attempt = s.delayAt attempt := by
  unfold ReconnectStrategy.delayAt
  rw [h.base, h.multiplier, h.maxBackoff]

theorem sameSettings_perform (c : Call) : SameSettings s (s.perform c) := by
  cases c with
  | nextDelay factor => exact ⟨rfl, rfl, rfl, rfl⟩
  | reset => exact ⟨rfl, rfl, rfl, rfl⟩

theorem sameSettings_foldl (calls : List Call) : SameSettings s (calls.foldl perform s) := by
  induction calls generalizing s with
  | nil => exact ⟨rfl, rfl, rfl, rfl⟩
  | cons c calls ih =>
    obtain ⟨hbase, hmultiplier, hmax, hjitter⟩ := sameSettings_perform (s := s) c
    obtain ⟨hbase', hmultiplier', hmax', hjitter'⟩ := ih (s := s.perform c)
    exact ⟨hbase'.trans hbase, hmultiplier'.trans hmultiplier, hmax'.trans hmax,
      hjitter'.trans hjitter⟩

/-- **A row of calls** without jitter. -/
theorem delays_eq (jitter : s.jitterEnabled = false) (factors : List ℚ≥0) :
    s.delays factors
      = (List.range factors.length).map fun i => s.delayAt (s.attempt + UInt32.ofNat i) := by
  induction factors generalizing s with
  | nil => rfl
  | cons factor factors ih =>
    have hfirst : (s.nextDelay factor).2 = s.delayAt s.attempt := by
      unfold nextDelay
      rw [jitter]
      rfl
    have hrest := ih (s := (s.nextDelay factor).1) jitter
    have hsame : SameSettings s (s.nextDelay factor).1 := ⟨rfl, rfl, rfl, rfl⟩
    rw [delays, hfirst, hrest, List.length_cons, List.range_succ_eq_map, List.map_cons,
      List.map_map]
    congr 1
    · rw [show UInt32.ofNat 0 = 0 from rfl, UInt32.add_zero]
    · apply List.map_congr_left
      intro i _
      rw [hsame.delayAt]
      show s.delayAt (s.attempt + 1 + UInt32.ofNat i) = s.delayAt (s.attempt + UInt32.ofNat (i + 1))
      rw [UInt32.ofNat_add, UInt32.add_assoc, UInt32.add_comm 1]
      rfl

/-! ### The exponent -/

theorem ofNat_ne_zero {i : Nat} (hpos : 0 < i) (h : i < 2 ^ 32) : UInt32.ofNat i ≠ 0 := by
  intro heq
  have htoNat := congrArg UInt32.toNat heq
  rw [UInt32.toNat_ofNat'] at htoNat
  have hzero : (0 : UInt32).toNat = 0 := rfl
  omega

theorem exponent_nonneg {i : Nat} (h : i < 2 ^ 31) :
    (UInt32.ofNat i).toInt32.toInt = i := by
  show (BitVec.ofNat 32 i).toInt = i
  rw [BitVec.toInt_eq_toNat_of_lt]
  · rw [BitVec.toNat_ofNat, Nat.mod_eq_of_lt (by omega)]
  · rw [BitVec.toNat_ofNat, Nat.mod_eq_of_lt (by omega)]
    omega

theorem exponent_wrapped : (UInt32.ofNat (2 ^ 31)).toInt32.toInt < 0 := by decide

/-! ### When the delays grow -/

variable {i j n : Nat}

theorem delayAt_zero (s : ReconnectStrategy) :
    s.delayAt (UInt32.ofNat 0) = s.currentBaseDelay := rfl

theorem delayAt_of_lt (s : ReconnectStrategy) (hpos : 0 < i) (h : i < 2 ^ 31) :
    s.delayAt (UInt32.ofNat i)
      = min (s.currentBaseDelay * s.multiplier ^ (i : Int)) s.maxBackoff := by
  unfold delayAt
  rw [if_neg (ofNat_ne_zero hpos (by omega)), exponent_nonneg h]

/-- **The delays grow** while the exponent is the attempt number. -/
theorem delayAt_le (hm : 1 ≤ s.multiplier) (hcap : s.currentBaseDelay ≤ s.maxBackoff)
    (hij : i ≤ j) (hj : j < 2 ^ 31) :
    s.delayAt (UInt32.ofNat i) ≤ s.delayAt (UInt32.ofNat j) := by
  rcases Nat.eq_zero_or_pos j with rfl | hjpos
  · obtain rfl := Nat.le_zero.mp hij
    exact le_refl _
  · rw [s.delayAt_of_lt hjpos hj]
    rcases Nat.eq_zero_or_pos i with rfl | hipos
    · rw [delayAt_zero]
      exact le_capped hm hcap (Int.natCast_nonneg j)
    · rw [s.delayAt_of_lt hipos (by omega)]
      exact capped_le_capped hm (Int.ofNat_le.mpr hij)

theorem delayAt_le_max (hcap : s.currentBaseDelay ≤ s.maxBackoff) (attempt : UInt32) :
    s.delayAt attempt ≤ s.maxBackoff := by
  unfold delayAt
  split
  · exact hcap
  · exact min_le_right _ _

theorem delayAt_eq_base (hconst : s.multiplier = 1 ∨ s.currentBaseDelay = 0)
    (hcap : s.currentBaseDelay ≤ s.maxBackoff) (attempt : UInt32) :
    s.delayAt attempt = s.currentBaseDelay := by
  unfold delayAt
  split
  · rfl
  · exact capped_eq hconst hcap _

/-- **The delays of the first calls** with the counter at zero: non-decreasing, and none above the
    maximum. -/
structure Grows (s : ReconnectStrategy) (delays : List ℚ≥0) : Prop where
  nondecreasing : delays.Pairwise (· ≤ ·)
  capped : ∀ d ∈ delays, d ≤ s.maxBackoff

theorem grows_iff (hm : 1 ≤ s.multiplier) (n : Nat) :
    Grows s ((List.range n).map fun i => s.delayAt (UInt32.ofNat i)) ↔
      n = 0 ∨ s.currentBaseDelay ≤ s.maxBackoff ∧
        (n ≤ 2 ^ 31 ∨ s.multiplier = 1 ∨ s.currentBaseDelay = 0) := by
  constructor
  · rintro ⟨hsorted, hcapped⟩
    rcases Nat.eq_zero_or_pos n with hzero | hpos
    · exact .inl hzero
    · right
      have hcap : s.currentBaseDelay ≤ s.maxBackoff :=
        hcapped _ (List.mem_map.mpr ⟨0, List.mem_range.mpr hpos, rfl⟩)
      refine ⟨hcap, ?_⟩
      by_contra hnot
      push Not at hnot
      obtain ⟨hlong, hne, hbase⟩ := hnot
      -- the first wrapped exponent comes after the base
      have hle : s.currentBaseDelay ≤ s.delayAt (UInt32.ofNat (2 ^ 31)) := by
        rw [List.pairwise_map] at hsorted
        have hpair := List.pairwise_iff_getElem.mp hsorted 0 (2 ^ 31) (by simpa using hpos)
          (by simpa using hlong) (by decide)
        rwa [List.getElem_range, List.getElem_range] at hpair
      have hlt : min (s.currentBaseDelay * s.multiplier ^ (UInt32.ofNat (2 ^ 31)).toInt32.toInt)
          s.maxBackoff < s.currentBaseDelay :=
        capped_lt (lt_of_le_of_ne hm (Ne.symm hne)) (pos_of_ne_zero hbase) exponent_wrapped
      unfold delayAt at hle
      rw [if_neg (ofNat_ne_zero (by decide) (by decide))] at hle
      exact absurd hle (not_le_of_gt hlt)
  · rintro (rfl | ⟨hcap, hshort | hconst⟩)
    · refine ⟨.nil, fun d hd => ?_⟩
      cases hd
    · refine ⟨?_, ?_⟩
      · rw [List.pairwise_map]
        apply List.pairwise_lt_range.imp_of_mem
        intro i j hi hj hlt
        rw [List.mem_range] at hj
        exact delayAt_le hm hcap hlt.le (by omega)
      · intro d hd
        obtain ⟨i, -, rfl⟩ := List.mem_map.mp hd
        exact delayAt_le_max hcap _
    · refine ⟨?_, ?_⟩
      · rw [List.pairwise_map]
        apply List.pairwise_of_forall
        intro i j
        rw [delayAt_eq_base hconst hcap, delayAt_eq_base hconst hcap]
      · intro d hd
        obtain ⟨i, -, rfl⟩ := List.mem_map.mp hd
        exact delayAt_le_max hcap _

/-- **The back-off**: the delays of the first calls grow, and after any calls a reset starts them
    again. -/
structure BacksOff (s : ReconnectStrategy) (factors : List ℚ≥0) : Prop where
  grows : Grows s (s.delays factors)
  restarts : ∀ calls : List Call, ((calls.foldl perform s).reset).delays factors = s.delays factors

/-- **When the delays back off**, from a counter at zero: the base must not exceed the maximum, and
    the cast of the counter must not turn the exponent negative. -/
theorem backsOff_iff (fresh : s.attempt = 0) (jitter : s.jitterEnabled = false)
    (hm : 1 ≤ s.multiplier) (factors : List ℚ≥0) :
    BacksOff s factors ↔ factors.length = 0 ∨ s.currentBaseDelay ≤ s.maxBackoff ∧
      (factors.length ≤ 2 ^ 31 ∨ s.multiplier = 1 ∨ s.currentBaseDelay = 0) := by
  have hdelays : s.delays factors
      = (List.range factors.length).map fun i => s.delayAt (UInt32.ofNat i) := by
    rw [delays_eq jitter, fresh]
    simp only [UInt32.zero_add]
  have hrestarts : ∀ calls : List Call,
      ((calls.foldl perform s).reset).delays factors = s.delays factors := by
    intro calls
    have hsame : SameSettings s (calls.foldl perform s).reset := by
      have h := sameSettings_foldl (s := s) (calls ++ [.reset])
      rwa [List.foldl_append] at h
    rw [delays_eq (hsame.jitterEnabled.trans jitter), hdelays]
    apply List.map_congr_left
    intro i _
    show (calls.foldl perform s).reset.delayAt (0 + UInt32.ofNat i) = _
    rw [UInt32.zero_add, hsame.delayAt]
  rw [← grows_iff hm, ← hdelays]
  exact ⟨fun h => h.grows, fun h => ⟨h, hrestarts⟩⟩

/-- Not vacuous: the default strategy. -/
theorem backsOff_iff_default :
    BacksOff (defaultStrategy.setJitter false) [1, 1, 1] ↔
      [(1 : ℚ≥0), 1, 1].length = 0 ∨
        (defaultStrategy.setJitter false).currentBaseDelay
            ≤ (defaultStrategy.setJitter false).maxBackoff ∧
          ([(1 : ℚ≥0), 1, 1].length ≤ 2 ^ 31 ∨ (defaultStrategy.setJitter false).multiplier = 1 ∨
            (defaultStrategy.setJitter false).currentBaseDelay = 0) :=
  backsOff_iff rfl rfl (by decide +kernel) [1, 1, 1]

/-- **Counterexample.** A configured interval of ten minutes is the first delay, above the maximum
    of five that all later ones have. -/
theorem not_backsOff_tenMinutes :
    ¬ BacksOff (((new 600 (3 / 2) 300).withCfgSnap 600).setJitter false) [1, 1] := by
  intro h
  have hcapped := h.grows.capped 600 (by decide)
  exact absurd hcapped (by decide)

end ReconnectStrategy

end Montr.Client
