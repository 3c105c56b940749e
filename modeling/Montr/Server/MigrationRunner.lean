import Montr.Lib.Transition
import Mathlib.Data.List.Sort
import Mathlib.Order.PiLex

namespace Montr.Server.Migrations

open Transition

/-!
# The migration runner

`run` and `rollback` of `migrations/runner.ts` as a transition system, one step for each awaited
operation that writes: a statement of an `up` or `down`, a record inserted or removed, the schema
version stored.  Operations that only read belong to the step before them.  `stop` is an exception
or a crash, at any point.

A migration is what its statements make of `system_state`; what else they do is summed up in
`effective`, the migrations whose `up` has run to completion and whose `down` has not since.
`Bookkept` is what the records are for, and `bookkept_of_guarded` says in which runs it holds.
-/

/-! ### Versions -/

/-- The parts of a semver version. -/
abbrev Version := List Nat

/-- `compareVersions`: the first difference of two parts, a missing part being 0. -/
def compareVersions (a b : Version) : Int :=
  let diffs := (List.range (max a.length b.length)).map fun i =>
    ((a.getD i 0 : Nat) : Int) - (b.getD i 0 : Nat)
  (diffs.find? fun diff => diff ≠ 0).getD 0

example : compareVersions [1, 9, 0] [1, 10, 0] < 0 := by decide

/-! ### The state -/

/-- `system_state`: no table, no row for `schema_version`, or its value. -/
abbrev SystemState := Option (Option Version)

structure Migration where
  version : Version
  /-- what each statement of `up` makes of `system_state` -/
  up : List (SystemState → SystemState)
  /-- the same of `down` -/
  down : List (SystemState → SystemState)

/-- Where a call is. -/
inductive Phase
  /-- nothing is running, and the last call has not completed -/
  | idle
  /-- nothing is running, and the last call has completed -/
  | completed
  /-- in `baselineTo` -/
  | baselining (todo : List Migration)
  /-- `run` after `handleBaseline` -/
  | listing
  /-- in an `up`, with the statements still to execute -/
  | upgrading (statements : List (SystemState → SystemState)) (m : Migration)
      (todo : List Migration)
  /-- before `recordMigration` -/
  | upgraded (m : Migration) (todo : List Migration)
  /-- before `updateSchemaVersion` -/
  | recorded (m : Migration) (todo : List Migration)
  /-- `rollback` at the top of its loop -/
  | rollingBack (todo : List Version) (target : Option Version)
  /-- in a `down` -/
  | downgrading (statements : List (SystemState → SystemState)) (v : Version)
      (todo : List Version) (target : Option Version)
  /-- before `removeMigrationRecord` -/
  | downgraded (v : Version) (todo : List Version) (target : Option Version)

/-- Before the update of the schema version that completes a run. -/
def Phase.isLastUpdate : Phase → Bool
  | .recorded _ [] => true
  | _ => false

structure Runner where
  /-- the rows of `schema_migrations` -/
  applied : List Version
  systemState : SystemState
  effective : List Version
  phase : Phase

/-- The stored schema version. -/
def Runner.schemaVersion (s : Runner) : Option Version := s.systemState.join

inductive RunnerStep
  | run
  /-- an empty target is no target -/
  | rollback (target : Option Version)
  | next
  | stop

/-- `updateSchemaVersion`: `none` when it throws. Only MongoDB inserts a missing row. -/
def updateSchemaVersion (upserts : Bool) (v : Version) : SystemState → Option SystemState
  | some (some _) => some (some (some v))
  | some none => some (some (if upserts then some v else none))
  | none => if upserts then some (some (some v)) else none

/-- The turn of the loop of `run` for the next pending migration. -/
def nextUp : List Migration → Phase
  | [] => .completed
  | m :: todo => .upgrading m.up m todo

/-- The pending migrations, sorted. -/
def pending (migrations : List Migration) (applied : List Version) : List Migration :=
  (migrations.filter fun m => m.version ∉ applied).insertionSort fun a b =>
    compareVersions a.version b.version ≤ 0

/-- What `baselineTo` marks. -/
def toBaseline (migrations : List Migration) (version : Version) : List Migration :=
  migrations.filter fun m => compareVersions m.version version ≤ 0

namespace Runner

/-- One step of a call, of a registry with these migrations. -/
def next (upserts : Bool) (migrations : List Migration) (s : Runner) : Option Runner :=
  match s.phase with
  | .idle => none
  | .completed => none
  | .baselining [] => some { s with phase := .listing }
  | .baselining (m :: todo) =>
    some { s with applied := s.applied ++ [m.version], phase := .baselining todo }
  | .listing => some { s with phase := nextUp (pending migrations s.applied) }
  | .upgrading [] m todo =>
    some { s with effective := m.version :: s.effective, phase := .upgraded m todo }
  | .upgrading (statement :: rest) m todo =>
    some { s with systemState := statement s.systemState, phase := .upgrading rest m todo }
  | .upgraded m todo =>
    some { s with applied := s.applied ++ [m.version], phase := .recorded m todo }
  | .recorded m todo =>
    match updateSchemaVersion upserts m.version s.systemState with
    | some systemState => some { s with systemState := systemState, phase := nextUp todo }
    | none => some { s with phase := .idle }
  | .rollingBack [] _ => some { s with phase := .completed }
  | .rollingBack (v :: todo) target =>
    if target.any fun t => compareVersions v t ≤ 0 then some { s with phase := .completed }
    else
      match migrations.find? fun m => m.version = v with
      | none => some { s with phase := .idle }
      | some m => some { s with phase := .downgrading m.down v todo target }
  | .downgrading [] v todo target =>
    some { s with effective := s.effective.filter (· ≠ v), phase := .downgraded v todo target }
  | .downgrading (statement :: rest) v todo target =>
    some { s with
      systemState := statement s.systemState, phase := .downgrading rest v todo target }
  | .downgraded v todo target =>
    some { s with
      applied := s.applied.filter (· ≠ v)
      -- without a target only one is rolled back
      phase := if target = none then .completed else .rollingBack todo target }

/-- No call is running. -/
def Waits (s : Runner) : Prop := s.phase = .idle ∨ s.phase = .completed

def step (upserts : Bool) (migrations : List Migration) (s : Runner) :
    RunnerStep → Option Runner
  | .run =>
    match s.phase with
    | .idle | .completed =>
      match s.applied, s.schemaVersion with
      | [], some version => some { s with phase := .baselining (toBaseline migrations version) }
      | _, _ => some { s with phase := .listing }
    | _ => none
  | .rollback target =>
    match s.phase with
    | .idle | .completed =>
      some { s with
        phase := .rollingBack
          (s.applied.insertionSort fun a b => compareVersions b a ≤ 0) target }
    | _ => none
  | .next => s.next upserts migrations
  | .stop => some { s with phase := .idle }

/-- A database without migration records, fresh or from before there were any. -/
def start (systemState : SystemState) (effective : List Version) : Runner :=
  { applied := [], systemState := systemState, effective := effective, phase := .idle }

/-! ### What the records are for -/

/-- The highest recorded version. -/
def IsHighest (applied : List Version) : Option Version → Prop
  | none => applied = []
  | some v => v ∈ applied ∧ ∀ w ∈ applied, compareVersions w v ≤ 0

instance (applied : List Version) (highest : Option Version) :
    Decidable (IsHighest applied highest) :=
  match highest with
  | none => inferInstanceAs (Decidable (applied = []))
  | some _ => inferInstanceAs (Decidable (_ ∧ _))

/-- **The books are kept**: the records are the versions of the first migrations of the list, every
    recorded migration is in effect, and after a completed call the stored schema version is the
    highest recorded one. -/
structure Bookkept (migrations : List Migration) (s : Runner) : Prop where
  isPrefix : ∃ k, ∀ v, v ∈ s.applied ↔ v ∈ (migrations.take k).map Migration.version
  effective : ∀ v ∈ s.applied, v ∈ s.effective
  completed : s.phase = .completed → IsHighest s.applied s.schemaVersion

/-- A call finds the books in order: a run baselines only to a version up to which everything is
    in effect, and finds the last version stored when it has nothing to run; a rollback finds
    nothing to roll back and the highest version stored; and the row of the schema version is
    there when a run ends with its update. -/
def InOrder (upserts : Bool) (migrations : List Migration) (s : Runner) : RunnerStep → Prop
  | .run =>
    (s.applied = [] → ∀ v ∈ s.schemaVersion, ∀ m ∈ migrations,
      compareVersions m.version v ≤ 0 → m.version ∈ s.effective) ∧
    ((∀ m ∈ migrations, m.version ∈ s.applied ∨
        s.applied = [] ∧ ∃ v ∈ s.schemaVersion, compareVersions m.version v ≤ 0) →
      s.schemaVersion = migrations.getLast?.map Migration.version)
  | .rollback target =>
    (∀ v ∈ s.applied, ∃ t ∈ target, compareVersions v t ≤ 0) ∧
      IsHighest s.applied s.schemaVersion
  | .next => s.phase.isLastUpdate = true → upserts = true ∨ s.schemaVersion ≠ none
  | .stop => True

instance (upserts : Bool) (migrations : List Migration) (s : Runner) (a : RunnerStep) :
    Decidable (InOrder upserts migrations s a) :=
  match a with
  | .run => inferInstanceAs (Decidable (_ ∧ _))
  | .rollback _ => inferInstanceAs (Decidable (_ ∧ _))
  | .next => inferInstanceAs (Decidable (_ → _))
  | .stop => isTrue trivial

end Runner

/-! ### The order of versions -/

/-- The parts of a version, read as far as one likes. -/
def part (a : Version) (i : Nat) : Nat := a.getD i 0

/-- Versions are compared part by part. -/
noncomputable def rank (a : Version) : Lex (Nat → Nat) := toLex (part a)

theorem part_eq_zero {a : Version} {i : Nat} (h : a.length ≤ i) : part a i = 0 := by
  unfold part
  rw [List.getD_eq_getElem?_getD, List.getElem?_eq_none h]
  rfl

/-- Either there is no difference, or there is a first one. -/
theorem compareVersions_cases (a b : Version) :
    (compareVersions a b = 0 ∧ part a = part b) ∨
      ∃ i, (∀ j, j < i → part a j = part b j) ∧ part a i ≠ part b i ∧
        compareVersions a b = (part a i : Int) - part b i := by
  have hfind : compareVersions a b = (((List.range (max a.length b.length)).find?
      fun i => (part a i : Int) - part b i ≠ 0).map fun i => (part a i : Int) - part b i).getD 0 := by
    unfold compareVersions
    dsimp only
    rw [List.find?_map]
    rfl
  rw [hfind]
  cases h : (List.range (max a.length b.length)).find?
      fun i => (part a i : Int) - part b i ≠ 0 with
  | none =>
    refine .inl ⟨rfl, ?_⟩
    ext i
    by_cases hi : i < max a.length b.length
    · have hzero := List.find?_eq_none.mp h i (List.mem_range.mpr hi)
      simp only [decide_eq_true_eq, not_not] at hzero
      omega
    · rw [part_eq_zero (by omega), part_eq_zero (by omega)]
  | some i =>
    obtain ⟨hdiff, -, hbefore⟩ := List.find?_range_eq_some.mp h
    simp only [decide_eq_true_eq] at hdiff
    refine .inr ⟨i, fun j hj => ?_, by omega, rfl⟩
    have hj' := hbefore j hj
    simp only [Bool.not_eq_true', decide_eq_false_iff_not, not_not] at hj'
    omega

theorem rank_lt_of_part {a b : Version} {i : Nat} (before : ∀ j, j < i → part a j = part b j)
    (h : part a i < part b i) : rank a < rank b := ⟨i, before, h⟩

theorem compareVersions_neg {a b : Version} : compareVersions a b < 0 ↔ rank a < rank b := by
  rcases compareVersions_cases a b with ⟨h, hpart⟩ | ⟨i, before, hne, h⟩
  · have hrank : rank a = rank b := congrArg toLex hpart
    rw [h, hrank]
    exact iff_of_false (by omega) (lt_irrefl _)
  · rw [h]
    rcases Nat.lt_or_gt_of_ne hne with hlt | hgt
    · exact iff_of_true (by omega) (rank_lt_of_part before hlt)
    · have hback := rank_lt_of_part (fun j hj => (before j hj).symm) hgt
      exact iff_of_false (by omega) hback.asymm

theorem compareVersions_nonpos {a b : Version} : compareVersions a b ≤ 0 ↔ rank a ≤ rank b := by
  rcases compareVersions_cases a b with ⟨h, hpart⟩ | ⟨i, before, hne, h⟩
  · have hrank : rank a = rank b := congrArg toLex hpart
    rw [h, hrank]
    exact iff_of_true (by omega) (le_refl _)
  · rw [h]
    rcases Nat.lt_or_gt_of_ne hne with hlt | hgt
    · exact iff_of_true (by omega) (rank_lt_of_part before hlt).le
    · have hback := rank_lt_of_part (fun j hj => (before j hj).symm) hgt
      exact iff_of_false (by omega) hback.not_ge

/-! ### Prefixes of an ordered list -/

/-- A list of migrations in the order of their versions. -/
def Ordered (migrations : List Migration) : Prop :=
  migrations.Pairwise fun a b => compareVersions a.version b.version < 0

/-- What a downward closed condition selects of an ordered list is a prefix. -/
theorem filter_eq_take {α : Type} {p : α → Bool} {l : List α}
    (h : l.Pairwise fun a b => p b = true → p a = true) :
    ∃ j, j ≤ l.length ∧ l.filter p = l.take j := by
  induction l with
  | nil => exact ⟨0, Nat.le_refl 0, rfl⟩
  | cons a l ih =>
    obtain ⟨hfirst, hrest⟩ := List.pairwise_cons.mp h
    by_cases ha : p a = true
    · obtain ⟨j, hj, htake⟩ := ih hrest
      refine ⟨j + 1, by simpa using hj, ?_⟩
      rw [List.filter_cons_of_pos ha, htake, List.take_succ_cons]
    · refine ⟨0, Nat.zero_le _, ?_⟩
      rw [List.filter_cons_of_neg ha, List.take_zero, List.filter_eq_nil_iff]
      exact fun b hb hpb => ha (hfirst b hb hpb)

theorem toBaseline_eq_take {migrations : List Migration} (ordered : Ordered migrations)
    (version : Version) :
    ∃ j, j ≤ migrations.length ∧ toBaseline migrations version = migrations.take j := by
  apply filter_eq_take
  refine ordered.imp fun {a b} hlt => ?_
  simp only [decide_eq_true_eq]
  rw [compareVersions_nonpos, compareVersions_nonpos]
  rw [compareVersions_neg] at hlt
  exact hlt.le.trans

/-- Versions of an ordered list are distinct. -/
theorem Ordered.version_ne {first rest : List Migration} (ordered : Ordered (first ++ rest))
    {a b : Migration} (ha : a ∈ first) (hb : b ∈ rest) : a.version ≠ b.version := by
  intro heq
  have hlt := (List.pairwise_append.mp ordered).2.2 a ha b hb
  rw [compareVersions_neg, heq] at hlt
  exact lt_irrefl _ hlt

/-- With the first migrations recorded, the others are pending, in their order. -/
theorem pending_eq_drop {migrations : List Migration} (ordered : Ordered migrations)
    {applied : List Version} {k : Nat}
    (happlied : ∀ v, v ∈ applied ↔ v ∈ (migrations.take k).map Migration.version) :
    pending migrations applied = migrations.drop k := by
  have hsplit : Ordered (migrations.take k ++ migrations.drop k) := by
    rwa [List.take_append_drop]
  have hfilter : (migrations.filter fun m => m.version ∉ applied) = migrations.drop k := by
    conv_lhs => rw [← List.take_append_drop k migrations]
    rw [List.filter_append]
    have hfirst : (migrations.take k).filter (fun m => m.version ∉ applied) = [] := by
      rw [List.filter_eq_nil_iff]
      intro m hm
      simp only [decide_eq_true_eq, not_not]
      exact (happlied _).mpr (List.mem_map_of_mem hm)
    have hrest : (migrations.drop k).filter (fun m => m.version ∉ applied) =
        migrations.drop k := by
      rw [List.filter_eq_self]
      intro m hm
      simp only [decide_eq_true_eq]
      intro hmem
      obtain ⟨m', hm', heq⟩ := List.mem_map.mp ((happlied _).mp hmem)
      exact hsplit.version_ne hm' hm heq
    rw [hfirst, hrest, List.nil_append]
  unfold pending
  rw [hfilter]
  apply List.Pairwise.insertionSort_eq
  exact ((List.pairwise_append.mp hsplit).2.1).imp fun {a b} hlt => le_of_lt hlt

/-- The first migration of a stretch of the list is the next one of the list. -/
theorem drop_of_drop_take {migrations : List Migration} {j k : Nat} {m : Migration}
    {todo : List Migration} (h : m :: todo = (migrations.take j).drop k) :
    ∃ rest, migrations.drop k = m :: rest := by
  rw [List.drop_take] at h
  cases hdrop : migrations.drop k with
  | nil => simp [hdrop] at h
  | cons m' rest =>
    rw [hdrop] at h
    cases hn : j - k with
    | zero => simp [hn] at h
    | succ n =>
      rw [hn, List.take_succ_cons] at h
      obtain ⟨rfl, -⟩ := List.cons.inj h
      exact ⟨rest, rfl⟩

theorem take_succ_of_drop {migrations : List Migration} {k : Nat} {m : Migration}
    {todo : List Migration} (h : migrations.drop k = m :: todo) :
    migrations.take (k + 1) = migrations.take k ++ [m] ∧ migrations.drop (k + 1) = todo ∧
      k < migrations.length := by
  have hk : k < migrations.length := by
    by_contra hk
    rw [List.drop_eq_nil_of_le (by omega)] at h
    exact absurd h (by simp)
  rw [List.drop_eq_getElem_cons hk] at h
  obtain ⟨hm, htodo⟩ := List.cons.inj h
  refine ⟨?_, htodo, hk⟩
  rw [← hm, List.take_append_getElem hk]

/-! ### The invariant -/

namespace Runner

/-- The last version of the list is stored. -/
def StoresLast (migrations : List Migration) (s : Runner) : Prop :=
  s.schemaVersion = migrations.getLast?.map Migration.version

/-- What holds in the phases of a call, with the first `k` migrations recorded. -/
def PhaseInv (migrations : List Migration) (s : Runner) (k : Nat) : Prop :=
  match s.phase with
  | .idle => True
  | .completed => IsHighest s.applied s.schemaVersion
  | .baselining todo => ∃ j, j ≤ migrations.length ∧ k ≤ j ∧
      todo = (migrations.take j).drop k ∧ (∀ m ∈ todo, m.version ∈ s.effective) ∧
      (j = migrations.length → StoresLast migrations s)
  | .listing => k = migrations.length → StoresLast migrations s
  | .upgrading _ m todo => migrations.drop k = m :: todo
  | .upgraded m todo => migrations.drop k = m :: todo ∧ m.version ∈ s.effective
  | .recorded m todo => migrations.drop k = todo ∧ (migrations.take k).getLast? = some m
  | .rollingBack todo target => (∀ v ∈ todo, ∃ t ∈ target, compareVersions v t ≤ 0) ∧
      IsHighest s.applied s.schemaVersion
  | .downgrading _ _ _ _ => False
  | .downgraded _ _ _ => False

/-- The first `k` migrations are recorded. -/
def Records (migrations : List Migration) (applied : List Version) (k : Nat) : Prop :=
  k ≤ migrations.length ∧
    ∀ v, v ∈ applied ↔ v ∈ (migrations.take k).map Migration.version

def Inv (migrations : List Migration) (s : Runner) : Prop :=
  ∃ k, Records migrations s.applied k ∧ (∀ v ∈ s.applied, v ∈ s.effective) ∧
    PhaseInv migrations s k

theorem inv_start (migrations : List Migration) (systemState : SystemState)
    (effective : List Version) : Inv migrations (start systemState effective) := by
  refine ⟨0, ⟨Nat.zero_le _, fun v => ?_⟩, fun v hv => ?_, trivial⟩
  · simp [start]
  · simp [start] at hv

theorem Inv.bookkept {migrations : List Migration} {s : Runner} (h : Inv migrations s) :
    Bookkept migrations s := by
  obtain ⟨k, hrecords, heffective, hphase⟩ := h
  refine ⟨⟨k, hrecords.2⟩, heffective, fun hcompleted => ?_⟩
  unfold PhaseInv at hphase
  rwa [hcompleted] at hphase

/-- One more record. -/
theorem Records.snoc {migrations : List Migration} {applied : List Version} {k : Nat}
    {m : Migration} {todo : List Migration} (h : Records migrations applied k)
    (hnext : migrations.drop k = m :: todo) :
    Records migrations (applied ++ [m.version]) (k + 1) := by
  obtain ⟨htake, -, hk⟩ := take_succ_of_drop hnext
  refine ⟨hk, fun v => ?_⟩
  rw [htake, List.map_append, List.mem_append, List.mem_append, h.2 v]
  simp

/-- The last of the recorded migrations has the highest recorded version. -/
theorem Records.isHighest {migrations : List Migration} (ordered : Ordered migrations)
    {applied : List Version} {k : Nat} (h : Records migrations applied k) :
    IsHighest applied ((migrations.take k).getLast?.map Migration.version) := by
  have hsorted : Ordered (migrations.take k) := ordered.sublist (List.take_sublist k migrations)
  rcases List.eq_nil_or_concat (migrations.take k) with hnil | ⟨first, last, hlast⟩
  · show IsHighest applied _
    rw [hnil]
    apply List.eq_nil_iff_forall_not_mem.mpr
    intro v hv
    have hmem := (h.2 v).mp hv
    simp [hnil] at hmem
  · rw [List.concat_eq_append] at hlast
    rw [hlast] at hsorted ⊢
    rw [List.getLast?_concat]
    refine ⟨(h.2 _).mpr ?_, fun w hw => ?_⟩
    · rw [hlast]
      simp
    · obtain ⟨m, hm, rfl⟩ := List.mem_map.mp ((h.2 w).mp hw)
      rw [hlast] at hm
      rcases List.mem_append.mp hm with hm | hm
      · exact le_of_lt ((List.pairwise_append.mp hsorted).2.2 m hm last (by simp))
      · obtain rfl := List.mem_singleton.mp hm
        exact compareVersions_nonpos.mpr (le_refl _)

/-- Nothing is recorded, or the cut is not at the start. -/
theorem Records.eq_zero {migrations : List Migration} {k : Nat} (h : Records migrations [] k) :
    k = 0 := by
  by_contra hk
  have hne : migrations.take k ≠ [] := by
    intro hnil
    have hlength := congrArg List.length hnil
    have := h.1
    rw [List.length_take, List.length_nil] at hlength
    omega
  obtain ⟨m, hm⟩ := List.exists_mem_of_ne_nil _ hne
  exact List.not_mem_nil ((h.2 m.version).mpr (List.mem_map_of_mem hm))

/-! ### Steps -/

theorem schemaVersion_update {upserts : Bool} {v : Version} {before after : SystemState}
    (h : updateSchemaVersion upserts v before = some after)
    (row : upserts = true ∨ before.join ≠ none) : after.join = some v := by
  unfold updateSchemaVersion at h
  split at h
  · obtain rfl := Option.some.inj h
    rfl
  · obtain rfl := Option.some.inj h
    have hupserts : upserts = true := row.resolve_right fun hrow => hrow rfl
    simp [hupserts]
  · obtain ⟨-, hafter⟩ := Option.ite_none_right_eq_some.mp h
    obtain rfl := Option.some.inj hafter
    rfl

/-- The loop of `run` goes on with the next migration, or the call completes. -/
theorem phaseInv_nextUp {migrations : List Migration} {s : Runner} {k : Nat}
    {todo : List Migration} (hphase : s.phase = nextUp todo) (htodo : migrations.drop k = todo)
    (hhighest : todo = [] → IsHighest s.applied s.schemaVersion) : PhaseInv migrations s k := by
  unfold PhaseInv
  cases todo with
  | nil =>
    rw [show s.phase = .completed from hphase]
    exact hhighest rfl
  | cons m todo =>
    rw [show s.phase = .upgrading m.up m todo from hphase]
    exact htodo

/-- A step of a call keeps the invariant. -/
theorem Inv.next {upserts : Bool} {migrations : List Migration} (ordered : Ordered migrations)
    {s t : Runner} (h : Inv migrations s) (inOrder : InOrder upserts migrations s .next)
    (hstep : s.next upserts migrations = some t) : Inv migrations t := by
  obtain ⟨k, hrecords, heffective, hphase⟩ := h
  obtain ⟨applied, systemState, effective, phase⟩ := s
  cases phase with
  | idle => exact absurd hstep (by simp [Runner.next])
  | completed => exact absurd hstep (by simp [Runner.next])
  | baselining todo =>
    obtain ⟨j, hj, hkj, htodo, hinEffect, hlast⟩ := hphase
    cases todo with
    | nil =>
      obtain rfl := Option.some.inj hstep
      -- the baseline has reached its end
      refine ⟨k, hrecords, heffective, fun hk => hlast ?_⟩
      have hdrop := congrArg List.length htodo
      rw [List.length_drop, List.length_take, List.length_nil] at hdrop
      omega
    | cons m todo =>
      obtain rfl := Option.some.inj hstep
      obtain ⟨rest, hm⟩ := drop_of_drop_take htodo
      refine ⟨k + 1, hrecords.snoc hm, fun v hv => ?_, j, hj, ?_, ?_, ?_, hlast⟩
      · rcases List.mem_append.mp hv with hv | hv
        · exact heffective v hv
        · obtain rfl := List.mem_singleton.mp hv
          exact hinEffect m List.mem_cons_self
      · have hdrop := congrArg List.length htodo
        rw [List.length_drop, List.length_take, List.length_cons] at hdrop
        omega
      · rw [← List.drop_drop, ← htodo]
        rfl
      · exact fun m' hm' => hinEffect m' (List.mem_cons_of_mem m hm')
  | listing =>
    obtain rfl := Option.some.inj hstep
    refine ⟨k, hrecords, heffective, ?_⟩
    refine phaseInv_nextUp (congrArg nextUp (pending_eq_drop ordered hrecords.2)) rfl fun hnil => ?_
    have hk : k = migrations.length := by
      have hlength := congrArg List.length hnil
      have := hrecords.1
      rw [List.length_drop, List.length_nil] at hlength
      omega
    have hhighest := hrecords.isHighest ordered
    rw [hk, List.take_length] at hhighest
    rwa [← hphase hk] at hhighest
  | upgrading statements m todo =>
    cases statements with
    | nil =>
      obtain rfl := Option.some.inj hstep
      exact ⟨k, hrecords, fun v hv => List.mem_cons_of_mem _ (heffective v hv), hphase,
        List.mem_cons_self⟩
    | cons statement rest =>
      obtain rfl := Option.some.inj hstep
      exact ⟨k, hrecords, heffective, hphase⟩
  | upgraded m todo =>
    obtain rfl := Option.some.inj hstep
    obtain ⟨hnext, hm⟩ := hphase
    obtain ⟨htake, hdrop, -⟩ := take_succ_of_drop hnext
    refine ⟨k + 1, hrecords.snoc hnext, fun v hv => ?_, hdrop, ?_⟩
    · rcases List.mem_append.mp hv with hv | hv
      · exact heffective v hv
      · obtain rfl := List.mem_singleton.mp hv
        exact hm
    · rw [htake, List.getLast?_concat]
  | recorded m todo =>
    obtain ⟨hdrop, hlast⟩ := hphase
    cases hupdate : updateSchemaVersion upserts m.version systemState with
    | none =>
      obtain rfl : { applied, systemState, effective, phase := .idle } = t := by
        simpa [Runner.next, hupdate] using hstep
      exact ⟨k, hrecords, heffective, trivial⟩
    | some after =>
      obtain rfl : { applied, systemState := after, effective, phase := nextUp todo } = t := by
        simpa [Runner.next, hupdate] using hstep
      refine ⟨k, hrecords, heffective, phaseInv_nextUp rfl hdrop ?_⟩
      rintro rfl
      have hhighest := hrecords.isHighest ordered
      rw [hlast] at hhighest
      show IsHighest applied after.join
      rwa [schemaVersion_update hupdate (inOrder rfl)]
  | rollingBack todo target =>
    obtain ⟨hbelow, hhighest⟩ := hphase
    cases todo with
    | nil =>
      obtain rfl := Option.some.inj hstep
      exact ⟨k, hrecords, heffective, hhighest⟩
    | cons v todo =>
      have hstop : (target.any fun t => decide (compareVersions v t ≤ 0)) = true := by
        obtain ⟨u, hu, hv⟩ := hbelow v List.mem_cons_self
        rw [Option.mem_def.mp hu]
        exact decide_eq_true hv
      obtain rfl : { applied, systemState, effective, phase := .completed } = t := by
        simpa only [Runner.next, hstop, if_true, Option.some.injEq] using hstep
      exact ⟨k, hrecords, heffective, hhighest⟩
  | downgrading statements v todo target => exact absurd hphase id
  | downgraded v todo target => exact absurd hphase id

theorem step_run {upserts : Bool} {migrations : List Migration} {s t : Runner}
    (h : s.step upserts migrations .run = some t) :
    (∃ version, s.applied = [] ∧ s.schemaVersion = some version ∧
        t = { s with phase := .baselining (toBaseline migrations version) }) ∨
      (s.applied ≠ [] ∨ s.schemaVersion = none) ∧ t = { s with phase := .listing } := by
  unfold step at h
  dsimp only at h
  split at h
  case h_3 => exact absurd h (by simp)
  all_goals
    split at h
    · next version happlied hversion =>
      exact .inl ⟨version, happlied, hversion, (Option.some.inj h).symm⟩
    · next hother =>
      refine .inr ⟨?_, (Option.some.inj h).symm⟩
      by_contra hboth
      obtain ⟨happlied, hversion⟩ := not_or.mp hboth
      obtain ⟨version, hversion⟩ := Option.ne_none_iff_exists'.mp hversion
      exact hother version (not_not.mp happlied) hversion

theorem step_rollback {upserts : Bool} {migrations : List Migration} {s t : Runner}
    {target : Option Version} (h : s.step upserts migrations (.rollback target) = some t) :
    t = { s with
      phase := .rollingBack
        (s.applied.insertionSort fun a b => compareVersions b a ≤ 0) target } := by
  unfold step at h
  dsimp only at h
  split at h
  case h_3 => exact absurd h (by simp)
  all_goals exact (Option.some.inj h).symm

/-- **Step lemma.** Whatever finds the books in order keeps the invariant. -/
theorem Inv.step {upserts : Bool} {migrations : List Migration} (ordered : Ordered migrations)
    {s t : Runner} {a : RunnerStep} (h : Inv migrations s)
    (inOrder : InOrder upserts migrations s a) (hstep : s.step upserts migrations a = some t) :
    Inv migrations t := by
  cases a with
  | next => exact h.next ordered inOrder hstep
  | stop =>
    obtain rfl := Option.some.inj hstep
    obtain ⟨k, hrecords, heffective, -⟩ := h
    exact ⟨k, hrecords, heffective, trivial⟩
  | run =>
    obtain ⟨k, hrecords, heffective, -⟩ := h
    obtain ⟨honest, hlast⟩ := inOrder
    rcases step_run hstep with ⟨version, happlied, hversion, rfl⟩ | ⟨-, rfl⟩
    · obtain ⟨j, hj, htake⟩ := toBaseline_eq_take ordered version
      rw [happlied] at hrecords
      obtain rfl := hrecords.eq_zero
      have hbelow : ∀ m ∈ migrations.take j, m ∈ migrations ∧
          compareVersions m.version version ≤ 0 := by
        intro m hm
        rw [← htake] at hm
        simpa [toBaseline] using List.mem_filter.mp hm
      refine ⟨0, by rwa [happlied], heffective, j, hj, Nat.zero_le j, htake, ?_, ?_⟩
      · intro m hm
        rw [htake] at hm
        exact honest happlied version hversion m (hbelow m hm).1 (hbelow m hm).2
      · rintro rfl
        apply hlast
        intro m hm
        rw [List.take_length] at hbelow
        exact .inr ⟨happlied, version, hversion, (hbelow m hm).2⟩
    · refine ⟨k, hrecords, heffective, fun hk => hlast fun m hm => .inl ?_⟩
      rw [hk] at hrecords
      apply (hrecords.2 m.version).mpr
      rw [List.take_length]
      exact List.mem_map_of_mem hm
  | rollback target =>
    obtain ⟨k, hrecords, heffective, -⟩ := h
    obtain ⟨hbelow, hhighest⟩ := inOrder
    obtain rfl := step_rollback hstep
    refine ⟨k, hrecords, heffective, fun v hv => hbelow v ?_, hhighest⟩
    exact (List.perm_insertionSort _ _).mem_iff.mp hv

/-- **The books are kept in every run that finds them in order.**  For every version-ordered list
    of migrations, whatever their statements make of `system_state`, and every sequence of runs and
    rollbacks that stop anywhere, the books are kept in every state reached if every run baselines
    only to a version up to which everything is in effect and has the last version stored when
    nothing is left to run, every rollback finds nothing to roll back and the highest version
    stored, and the schema version has its row when a run ends with its update. -/
theorem bookkept_of_guarded (upserts : Bool) (migrations : List Migration)
    (ordered : Ordered migrations) (systemState : SystemState) (effective : List Version)
    (as : List RunnerStep) (t : Runner)
    (run : Guarded (step upserts migrations) (InOrder upserts migrations)
      (start systemState effective) as t) : Bookkept migrations t := by
  have hinv : Inv migrations t :=
    run.invariant (inv_start migrations systemState effective)
      fun s a t h inOrder hstep => h.step ordered inOrder hstep
  exact hinv.bookkept

/-- Two migrations: the first creates `system_state` with its own version in it, as the initial
    schema does, and drops it again; the second leaves it alone. -/
def registry : List Migration :=
  [{ version := [1, 0, 0]
     up := [fun state => state.or (some none), fun state => state.map (·.or (some [1, 0, 0]))]
     down := [fun _ => none] },
    { version := [1, 1, 0], up := [id], down := [id] }]

/-- A first start that stops in the second migration, and the start after it. -/
def restart : List RunnerStep :=
  [.run] ++ List.replicate 7 .next ++ [.stop, .run] ++ List.replicate 5 .next

/-- The books are kept over it. -/
theorem bookkept_of_guarded_restart :
    ∃ t, exec (step false registry) (start none []) restart = some t ∧
      t.applied = [[1, 0, 0], [1, 1, 0]] ∧ Bookkept registry t := by
  have hordered : Ordered registry := by
    unfold Ordered
    decide
  exact ⟨_, rfl, rfl, bookkept_of_guarded false registry hordered none [] restart _
    (guarded_of_exec rfl)⟩

/-- **Counterexample.** A rollback of the second migration completes, and the schema version is
    still its version: a run that finds no records would mark it as applied. -/
theorem not_bookkept_rollback :
    ∃ t, exec (step false registry) (start none [])
        ([.run] ++ List.replicate 10 .next ++ [.rollback (some [1, 0, 0])] ++
          List.replicate 5 .next) = some t ∧
      t.phase = .completed ∧ t.applied = [[1, 0, 0]] ∧ t.schemaVersion = some [1, 1, 0] ∧
      ¬ Bookkept registry t := by
  refine ⟨_, rfl, rfl, rfl, rfl, fun h => ?_⟩
  have hhighest : IsHighest [[1, 0, 0]] (some [1, 1, 0]) := h.completed rfl
  exact absurd hhighest (by decide)

end Runner

end Montr.Server.Migrations
