import Montr.Lib.SqlFrames
import Montr.Server.MigrationScripts

namespace Montr.Server.Sqlite

open Sql Migrations

/-!
# Rolling back, and running again

A rollback from the latest version to a target version, and the run after it.

* `Preserved` — the rows of the tables of a schema have kept the values of its columns;
* `RollsBackSafely` — the rollback completes and preserves what there was at the target version,
  and the next run is back at the latest version;
* `rollsBackSafely_iff` — **exactly from 1.8.0 on**: the `down` of migrations 004, 006 and 009
  leaves a column behind that their `up` adds again, and that of migration 002 fails on the views.
-/

/-- The schema at a target version. -/
def schemaOf (target : Version) : Schema TableName String :=
  (schemaAll ((migrations.filter fun m => compareVersions m.version target ≤ 0).flatMap
    SqliteMigration.up) Schema.empty).getD Schema.empty

/-- Every row of every table of the schema has the values that it had in the table's columns. -/
def Preserved (σ : Schema TableName String) (db db' : Database TableName String) : Prop :=
  ∀ t S, σ.find t = some S →
    db'.schema.hasColumns t (S.columns.map Column.name) = true ∧
      (db'.rows t).map (pick (S.columns.map Column.name)) =
        (db.rows t).map (pick (S.columns.map Column.name))

/-- **Rollback, then run, is safe.** -/
def RollsBackSafely (now now' : String) (target : Version) (s : Store) : Prop :=
  ∃ s' t, rollback now (some target) s = .ok s' ∧ Preserved (schemaOf target) s.db s'.db ∧
    run now' s' = .ok t ∧ AtVersion migrations t

/-! ### The statements of a rollback -/

/-- What a rollback to the first `j` migrations executes. -/
def downs (j : Nat) : List SqliteStatement :=
  (migrations.drop j).reverse.flatMap SqliteMigration.down

theorem find_migration : ∀ m ∈ migrations,
    migrations.find? (fun m' => m'.version = m.version) = some m := by
  intro m hm
  obtain ⟨first, rest, h⟩ := List.append_of_mem hm
  have hsorted := migrations_pairwise
  rw [h, List.pairwise_append] at hsorted
  obtain ⟨-, -, hcross⟩ := hsorted
  rw [h, List.find?_append]
  have hnone : first.find? (fun m' => m'.version = m.version) = none := by
    rw [List.find?_eq_none]
    intro a ha heq
    have hlt := hcross a ha m List.mem_cons_self
    rw [of_decide_eq_true heq, compareVersions_self] at hlt
    omega
  rw [hnone, Option.none_or, List.find?_cons_of_pos (by simp)]

/-- **The loop executes the `down` of every migration above the target.** -/
theorem rollbackLoop_cases {target : Version} {below : List Version}
    (hbelow : ∀ v ∈ below, compareVersions v target ≤ 0) (now : String)
    (ms : List SqliteMigration) (s : Store)
    (hms : ∀ m ∈ ms, m ∈ migrations ∧ ¬ compareVersions m.version target ≤ 0) :
    (∃ db, execAll now (ms.flatMap SqliteMigration.down) s.db = .ok db ∧
      rollbackLoop now (some target) (ms.map SqliteMigration.version ++ below) s =
        .ok ⟨s.applied.filter fun v => v ∉ ms.map SqliteMigration.version, db⟩) ∨
    ∃ db t, execAll now (ms.flatMap SqliteMigration.down) s.db = .error db ∧
      rollbackLoop now (some target) (ms.map SqliteMigration.version ++ below) s = .error t := by
  induction ms generalizing s with
  | nil =>
    refine .inl ⟨s.db, rfl, ?_⟩
    have hall : s.applied.filter (fun v => decide (v ∉ ([] : List SqliteMigration).map
        SqliteMigration.version)) = s.applied := by simp
    rw [hall, List.map_nil, List.nil_append]
    cases below with
    | nil => rfl
    | cons v below =>
      have hv := hbelow v List.mem_cons_self
      simp [rollbackLoop, hv]
  | cons m ms ih =>
    obtain ⟨hm, habove⟩ := hms m List.mem_cons_self
    rw [List.flatMap_cons, execAll_append, List.map_cons, List.cons_append, rollbackLoop]
    simp only [Option.any_some, habove, decide_false, Bool.false_eq_true, if_false,
      find_migration m hm, reduceCtorEq]
    cases hdown : execAll now m.down s.db with
    | error db => exact .inr ⟨db, _, rfl, rfl⟩
    | ok db =>
      rcases ih ⟨s.applied.filter fun w => w ≠ m.version, db⟩
        (fun m' hm' => hms m' (List.mem_cons_of_mem m hm')) with
        ⟨db₁, hexec, hloop⟩ | ⟨db₁, t, hexec, hloop⟩
      · refine .inl ⟨db₁, hexec, hloop.trans ?_⟩
        rw [List.filter_filter]
        congr 3
        ext v
        rw [Bool.eq_iff_iff]
        simp [and_comm]
      · exact .inr ⟨db₁, t, hexec, hloop⟩

/-! ### Targets -/

section

variable {target : Version} {j : Nat} {s : Store} {now now' : String}

/-- The migrations up to a target are the first ones. -/
theorem exists_cut (target : Version) : ∃ j ≤ 18,
    (migrations.filter fun m => compareVersions m.version target ≤ 0) = migrations.take j := by
  refine filter_eq_take (migrations_pairwise.imp fun {a b} hlt => ?_)
  simp only [decide_eq_true_eq]
  rw [compareVersions_nonpos, compareVersions_nonpos]
  exact (compareVersions_neg.mp hlt).le.trans

theorem above_of_cut
    (h : (migrations.filter fun m => compareVersions m.version target ≤ 0) = migrations.take j) :
    ∀ m ∈ migrations.drop j, ¬ compareVersions m.version target ≤ 0 := by
  intro m hm hle
  have hmem : m ∈ migrations.take j := by
    rw [← h]
    exact List.mem_filter.mpr ⟨List.mem_of_mem_drop hm, by simpa using hle⟩
  have hsorted := migrations_pairwise
  rw [← List.take_append_drop j migrations, List.pairwise_append] at hsorted
  have hlt := hsorted.2.2 m hmem m hm
  rw [compareVersions_self] at hlt
  omega

theorem below_of_cut
    (h : (migrations.filter fun m => compareVersions m.version target ≤ 0) = migrations.take j) :
    ∀ m ∈ migrations.take j, compareVersions m.version target ≤ 0 := by
  intro m hm
  rw [← h] at hm
  simpa using (List.mem_filter.mp hm).2

/-- The target is 1.8.0 or later if migration 009 stays. -/
theorem nine_le_iff (hj : j ≤ 18)
    (h : (migrations.filter fun m => compareVersions m.version target ≤ 0) = migrations.take j) :
    9 ≤ j ↔ compareVersions [1, 8, 0] target ≤ 0 := by
  constructor
  · intro h9
    refine below_of_cut h m009 ?_
    have hfirst : migrations.take 9 <+: migrations.take j := List.take_prefix_take_left h9
    exact hfirst.subset (by simp [migrations])
  · intro hle
    by_contra hlt
    refine above_of_cut h m009 ?_ hle
    have hlast : migrations.drop 8 <:+ migrations.drop j :=
      List.drop_suffix_drop_left _ (by omega)
    exact hlast.subset (by simp [migrations])

theorem sorted_versions : ((migrations.map SqliteMigration.version).insertionSort fun a b =>
    compareVersions b a ≤ 0) = (migrations.map SqliteMigration.version).reverse := by
  decide

/-- **A rollback from the latest version executes the `down` of the migrations after the first
    `j`.** -/
theorem rollback_cases
    (h : (migrations.filter fun m => compareVersions m.version target ≤ 0) = migrations.take j)
    (hs : s.applied = migrations.map SqliteMigration.version) (now : String) :
    (∃ db, execAll now (downs j) s.db = .ok db ∧ rollback now (some target) s =
      .ok ⟨(migrations.take j).map SqliteMigration.version, db⟩) ∨
    ∃ db t, execAll now (downs j) s.db = .error db ∧ rollback now (some target) s = .error t := by
  have hsplit : (migrations.map SqliteMigration.version).reverse =
      (migrations.drop j).reverse.map SqliteMigration.version ++
        (migrations.take j).reverse.map SqliteMigration.version := by
    rw [← List.map_append, ← List.reverse_append, List.take_append_drop, List.map_reverse]
  have hbelow : ∀ v ∈ (migrations.take j).reverse.map SqliteMigration.version,
      compareVersions v target ≤ 0 := by
    intro v hv
    obtain ⟨m, hm, rfl⟩ := List.mem_map.mp hv
    exact below_of_cut h m (List.mem_reverse.mp hm)
  have habove : ∀ m ∈ (migrations.drop j).reverse,
      m ∈ migrations ∧ ¬ compareVersions m.version target ≤ 0 := by
    intro m hm
    have hm := List.mem_reverse.mp hm
    exact ⟨List.mem_of_mem_drop hm, above_of_cut h m hm⟩
  have hleft : s.applied.filter (fun v =>
      decide (v ∉ (migrations.drop j).reverse.map SqliteMigration.version)) =
      (migrations.take j).map SqliteMigration.version := by
    rw [hs]
    conv_lhs => rw [← List.take_append_drop j migrations]
    rw [List.map_append, List.filter_append, List.filter_eq_self.mpr, List.filter_eq_nil_iff.mpr,
      List.append_nil]
    · intro v hv
      simpa using hv
    · intro v hv
      obtain ⟨m, hm, rfl⟩ := List.mem_map.mp hv
      have hnot : m.version ∉ (migrations.drop j).reverse.map SqliteMigration.version := by
        intro hmem
        obtain ⟨m', hm', heq⟩ := List.mem_map.mp hmem
        have hle := below_of_cut h m hm
        rw [← heq] at hle
        exact above_of_cut h m' (List.mem_reverse.mp hm') hle
      simpa using hnot
  unfold rollback
  rw [hs, sorted_versions, hsplit]
  rcases rollbackLoop_cases hbelow now _ s habove with ⟨db, hexec, hloop⟩ | herror
  · rw [hleft] at hloop
    exact .inl ⟨db, hexec, hloop⟩
  · exact .inr herror

/-! ### From 1.8.0 on -/

/-- The columns of a table. -/
def columnNames (S : Table) : List String := S.columns.map Column.name

/-- What a rollback leaves of the schema is made the latest by a run, and the rollback keeps the
    columns that there were. -/
theorem schemas_of_downs : ∀ j ≤ 18, 9 ≤ j →
    (schemaAll (downs j) (schemaAt 18)).any (fun σ =>
      decide (schemaAll (script (migrations.drop j)) σ = some (schemaAt 18)) &&
        (schemaAt j).tables.all fun p => σ.hasColumns p.1 (columnNames p.2)) = true ∧
    (schemaAt j).tables.all (fun p =>
      keepsAll p.1 (columnNames p.2) (downs j) (schemaAt 18)) = true := by decide +kernel

theorem schemaAt_last : schemaAt 18 =
    (schemaAll (migrations.flatMap SqliteMigration.up) Schema.empty).getD Schema.empty := rfl

theorem AtVersion.latest (hs : AtVersion migrations s) : s.db.schema = schemaAt 18 := by
  rw [schemaAt_last, hs.schema]
  rfl

theorem schemaOf_eq
    (h : (migrations.filter fun m => compareVersions m.version target ≤ 0) = migrations.take j) :
    schemaOf target = schemaAt j := by
  rw [schemaOf, h]
  rfl

/-- After a rollback that leaves some migrations nothing is baselined. -/
theorem handleBaseline_of_take (db : Database TableName String) (hj : 0 < j) :
    handleBaseline ⟨(migrations.take j).map SqliteMigration.version, db⟩ =
      ⟨(migrations.take j).map SqliteMigration.version, db⟩ := by
  refine handleBaseline_of_recorded fun hnil => ?_
  have hlength := congrArg List.length hnil
  have h18 : migrations.length = 18 := rfl
  simp only [List.length_map, List.length_take, List.length_nil] at hlength
  omega

theorem preserved_of_downs {db db' : Database TableName String} (hj : j ≤ 18) (h9 : 9 ≤ j)
    (hdb : db.schema = schemaAt 18) (hexec : execAll now (downs j) db = .ok db') :
    Preserved (schemaAt j) db db' := by
  intro t S hfind
  obtain ⟨hcheck, hall⟩ := schemas_of_downs j hj h9
  obtain ⟨σ, hσ, hboth⟩ := (Option.any_eq_true _ _).mp hcheck
  have hmem : (t, S) ∈ (schemaAt j).tables := Schema.find_eq_some.mp hfind
  have hcolumns := List.all_eq_true.mp (Bool.and_eq_true_iff.mp hboth).2 (t, S) hmem
  have hkeeps := List.all_eq_true.mp hall (t, S) hmem
  rw [← hdb, schemaAll_of_ok hexec] at hσ
  rw [← Option.some.inj hσ] at hcolumns
  exact ⟨hcolumns, pick_of_keepsAll hexec (hdb ▸ hkeeps)⟩

theorem rollsBackSafely_of_cut (hs : AtVersion migrations s) (hj : j ≤ 18) (h9 : 9 ≤ j)
    (h : (migrations.filter fun m => compareVersions m.version target ≤ 0) = migrations.take j) :
    RollsBackSafely now now' target s := by
  have hschema := hs.latest
  have hcheck := (schemas_of_downs j hj h9).1
  rw [← hschema] at hcheck
  obtain ⟨σ, hdowns, hboth⟩ := (Option.any_eq_true _ _).mp hcheck
  have hscript := of_decide_eq_true (Bool.and_eq_true_iff.mp hboth).1
  obtain ⟨db, hexec, hdb⟩ := ok_of_schemaAll now hdowns
  rcases rollback_cases h hs.applied now with ⟨db', hexec', hrollback⟩ | ⟨db', _, hexec', -⟩
  · rw [hexec] at hexec'
    obtain rfl := Except.ok.inj hexec'
    -- the run after it
    have hsplit : migrations = migrations.take j ++ migrations.drop j :=
      (List.take_append_drop j migrations).symm
    have hrecorded := handleBaseline_of_take db (by omega : 0 < j)
    subst hdb
    obtain ⟨db₁, hexec₁, hdb₁⟩ := ok_of_schemaAll now' hscript
    rcases runPending_cases now' (migrations.drop j)
      ⟨(migrations.take j).map SqliteMigration.version, db⟩ with
      ⟨db₂, hexec₂, hrun⟩ | ⟨db₂, _, hexec₂, -⟩
    · rw [hexec₁] at hexec₂
      obtain rfl := Except.ok.inj hexec₂
      refine ⟨_, _, hrollback, ?_, (run_of_first now' _ hsplit rfl hrecorded).trans hrun, ?_, ?_⟩
      · rw [schemaOf_eq h]
        exact preserved_of_downs hj h9 hschema hexec
      · rw [← List.map_append, ← hsplit]
      · dsimp only
        rw [hdb₁]
        exact hs.schema
    · rw [hexec₁] at hexec₂
      cases hexec₂
  · rw [hexec] at hexec'
    cases hexec'

/-! ### Before 1.8.0 -/

/-- The views are in the way of the `down` of migration 002, and a column that a `down` left behind
    is in the way of the next run. -/
theorem downs_fail : ∀ j < 9, (schemaAll (downs j) (schemaAt 18)).all (fun σ =>
    decide (2 ≤ j) && (schemaAll (script (migrations.drop j)) σ).isNone) = true := by
  decide

theorem not_rollsBackSafely_of_cut (hs : AtVersion migrations s) (hj : j < 9)
    (h : (migrations.filter fun m => compareVersions m.version target ≤ 0) = migrations.take j) :
    ¬ RollsBackSafely now now' target s := by
  rintro ⟨s', t, hrollback, -, hrun, -⟩
  rcases rollback_cases h hs.applied now with ⟨db, hexec, hok⟩ | ⟨_, _, -, herror⟩
  · rw [hok] at hrollback
    obtain rfl := Except.ok.inj hrollback
    obtain ⟨h2, hfails⟩ :=
      Bool.and_eq_true_iff.mp (schema_of_check hexec hs.latest (downs_fail j hj))
    have h2 := of_decide_eq_true h2
    obtain ⟨db₁, herror⟩ := error_of_schemaAll now' (Option.isNone_iff_eq_none.mp hfails)
    have hsplit : migrations = migrations.take j ++ migrations.drop j :=
      (List.take_append_drop j migrations).symm
    have hrecorded := handleBaseline_of_take db (by omega : 0 < j)
    have hexec₁ := execAll_of_run ⟨_, db⟩ hsplit rfl hrecorded hrun
    rw [herror] at hexec₁
    cases hexec₁
  · rw [herror] at hrollback
    cases hrollback

/-- **A rollback and the run after it are safe exactly from 1.8.0 on.** -/
theorem rollsBackSafely_iff (hs : AtVersion migrations s) (now now' : String) (target : Version) :
    RollsBackSafely now now' target s ↔ compareVersions [1, 8, 0] target ≤ 0 := by
  obtain ⟨j, hj, h⟩ := exists_cut target
  rw [← nine_le_iff hj h]
  constructor
  · intro hsafe
    by_contra hlt
    exact not_rollsBackSafely_of_cut hs (by omega) h hsafe
  · exact fun h9 => rollsBackSafely_of_cut hs hj h9 h

end

/-- The latest version, without rows. -/
def latest : Store :=
  ⟨migrations.map SqliteMigration.version, schemaAt 18, fun _ => [], fun _ => 0⟩

theorem atVersion_latest : AtVersion migrations latest := ⟨rfl, by decide⟩

theorem rollsBackSafely_iff_latest :
    RollsBackSafely "2026-01-01 00:00:00" "2026-01-01 00:05:00" [2, 0, 0] latest ↔
      compareVersions [1, 8, 0] [2, 0, 0] ≤ 0 :=
  rollsBackSafely_iff atVersion_latest _ _ [2, 0, 0]

/-- The rollback to 1.7.0 leaves `media_files.approval_status`, which the next run adds again. -/
theorem not_rollsBackSafely_approval : AtVersion migrations latest ∧
    ¬ RollsBackSafely "2026-01-01 00:00:00" "2026-01-01 00:05:00" [1, 7, 0] latest := by
  have hcut : (migrations.filter fun m => compareVersions m.version [1, 7, 0] ≤ 0) =
      migrations.take 8 := rfl
  exact ⟨atVersion_latest, not_rollsBackSafely_of_cut atVersion_latest (by omega) hcut⟩

end Montr.Server.Sqlite
