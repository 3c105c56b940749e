import Montr.Server.SqliteMigrations

namespace Montr.Server.Sqlite

open Sql Migrations

/-!
# Runs of the SQLite migrations

* `AtVersion` — the first migrations of the registry have run, over any rows;
* `script` — the statements that a run executes;
* `runPending_cases` — **a run executes its script**, so the schema decides whether it completes.
-/

/-- The first migrations have run. -/
structure AtVersion (first : List SqliteMigration) (s : Store) : Prop where
  applied : s.applied = first.map SqliteMigration.version
  schema : schemaAll (first.flatMap SqliteMigration.up) Schema.empty = some s.db.schema

/-! ### The registry in order -/

/-- A migration by its position. -/
def migration (j : Nat) : SqliteMigration := migrations.getD j m001

/-- The schema after the first migrations. -/
def schemaAt (j : Nat) : Schema TableName String :=
  (schemaAll ((migrations.take j).flatMap SqliteMigration.up) Schema.empty).getD Schema.empty

theorem migrations_pairwise :
    migrations.Pairwise fun a b => compareVersions a.version b.version < 0 := by decide

section

variable {first rest : List SqliteMigration} {m : SqliteMigration} {s : Store}

theorem compareVersions_self (v : Version) : compareVersions v v = 0 := by
  rcases compareVersions_cases v v with ⟨h, -⟩ | ⟨i, -, hne, -⟩
  · exact h
  · exact absurd rfl hne

/-- After the first migrations the others are pending. -/
theorem pending_of_first (h : migrations = first ++ rest) :
    pending (first.map SqliteMigration.version) = rest := by
  have hsorted := migrations_pairwise
  rw [h, List.pairwise_append] at hsorted
  obtain ⟨-, hrest, hcross⟩ := hsorted
  have hfirst : first.filter (fun m =>
      !(first.map SqliteMigration.version).contains m.version) = [] := by
    rw [List.filter_eq_nil_iff]
    intro m hm
    simpa using ⟨m, hm, rfl⟩
  have hlater : rest.filter (fun m =>
      !(first.map SqliteMigration.version).contains m.version) = rest := by
    rw [List.filter_eq_self]
    intro m hm
    simp only [Bool.not_eq_true', List.contains_eq_mem, decide_eq_false_iff_not, List.mem_map,
      not_exists, not_and]
    intro a ha heq
    have hlt := hcross a ha m hm
    rw [heq, compareVersions_self] at hlt
    omega
  unfold pending
  rw [h, List.filter_append, hfirst, hlater, List.nil_append]
  exact List.Pairwise.insertionSort_eq (hrest.imp fun hlt => by omega)

theorem split_eq (h : migrations = first ++ m :: rest) :
    first.length < 18 ∧ first = migrations.take first.length ∧ m = migration first.length ∧
      m :: rest = migrations.drop first.length := by
  refine ⟨?_, ?_, ?_, ?_⟩
  · have hlength := congrArg List.length h
    rw [List.length_append, List.length_cons] at hlength
    have h18 : migrations.length = 18 := rfl
    omega
  · rw [h, List.take_left]
  · rw [migration, h]
    simp
  · rw [h, List.drop_left]

theorem AtVersion.schema_eq (hs : AtVersion first s) (h : migrations = first ++ m :: rest) :
    s.db.schema = schemaAt first.length := by
  unfold schemaAt
  rw [← (split_eq h).2.1, hs.schema]
  rfl

end

/-! ### Runs -/

/-- What a run of these migrations executes. -/
def script (ms : List SqliteMigration) : List SqliteStatement :=
  ms.flatMap fun m => m.up ++ [updateSchemaVersion m.version]

theorem script_cons {m : SqliteMigration} {ms : List SqliteMigration} :
    script (m :: ms) = m.up ++ (updateSchemaVersion m.version :: script ms) := by
  unfold script
  rw [List.flatMap_cons, List.append_assoc]
  rfl

/-- **A run executes its script**, and records the migrations. -/
theorem runPending_cases (now : String) (ms : List SqliteMigration) (s : Store) :
    (∃ db, execAll now (script ms) s.db = .ok db ∧
      runPending now ms s = .ok ⟨s.applied ++ ms.map SqliteMigration.version, db⟩) ∨
    ∃ db t, execAll now (script ms) s.db = .error db ∧ runPending now ms s = .error t := by
  induction ms generalizing s with
  | nil => exact .inl ⟨s.db, rfl, by rw [runPending, List.map_nil, List.append_nil]⟩
  | cons m ms ih =>
    rw [script_cons, execAll_append, runPending]
    cases hup : execAll now m.up s.db with
    | error db => exact .inr ⟨db, _, rfl, rfl⟩
    | ok db =>
      dsimp only
      cases hupdate : exec now (updateSchemaVersion m.version) db with
      | none => exact .inr ⟨db, _, execAll_of_fails hupdate, rfl⟩
      | some db' =>
        rcases ih ⟨s.applied ++ [m.version], db'⟩ with ⟨db₁, hexec, hrun⟩ | ⟨db₁, t, hexec, hrun⟩
        · refine .inl ⟨db₁, (execAll_of_exec hupdate).trans hexec, hrun.trans ?_⟩
          rw [List.map_cons, List.append_assoc, List.singleton_append]
        · exact .inr ⟨db₁, t, (execAll_of_exec hupdate).trans hexec, hrun⟩

theorem handleBaseline_of_recorded {s : Store} (h : s.applied ≠ []) : handleBaseline s = s := by
  unfold handleBaseline
  cases happlied : s.applied with
  | nil => exact absurd happlied h
  | cons v vs => rfl

theorem handleBaseline_of_none {s : Store} (h : schemaVersion s.db = none) :
    handleBaseline s = s := by
  unfold handleBaseline
  rw [h]
  split
  · rename_i hnone
    cases hnone
  · rfl

theorem run_of_first {first rest : List SqliteMigration} (now : String) (s : Store)
    (h : migrations = first ++ rest) (happlied : s.applied = first.map SqliteMigration.version)
    (hbaseline : handleBaseline s = s) : run now s = runPending now rest s := by
  unfold run
  rw [hbaseline, happlied, pending_of_first h]

theorem schemaVersion_of_noRows {db : Database TableName String}
    (h : db.schema.has .systemState = true → db.rows .systemState = []) :
    schemaVersion db = none := by
  unfold schemaVersion
  split
  · rename_i hhas
    rw [h hhas]
    rfl
  · rfl

/-- What a run that completes has executed. -/
theorem execAll_of_run {first rest : List SqliteMigration} {now : String} {t : Store} (s : Store)
    (h : migrations = first ++ rest)
    (happlied : s.applied = first.map SqliteMigration.version)
    (hbaseline : handleBaseline s = s) (hrun : run now s = .ok t) :
    execAll now (script rest) s.db = .ok t.db := by
  rw [run_of_first now s h happlied hbaseline] at hrun
  rcases runPending_cases now rest s with ⟨db, hexec, hok⟩ | ⟨db, t', -, herror⟩
  · rw [hok] at hrun
    rw [hexec, ← Except.ok.inj hrun]
  · rw [herror] at hrun
    cases hrun

/-- What the schema after the statements says. -/
theorem schema_of_check {now : String} {l : List SqliteStatement} {σ : Schema TableName String}
    {db db' : Database TableName String} {p : Schema TableName String → Bool}
    (h : execAll now l db = .ok db') (hdb : db.schema = σ) (hcheck : (schemaAll l σ).all p = true) :
    p db'.schema = true := by
  rw [← hdb, schemaAll_of_ok h] at hcheck
  simpa using hcheck

end Montr.Server.Sqlite
