import Montr.Lib.SqlRetry
import Montr.Server.MigrationScripts
import Mathlib.Tactic.IntervalCases

namespace Montr.Server.Sqlite

open Sql Migrations

/-!
# Retrying a migration

A migration stops between two statements of its `up`, and the next run starts it from the
beginning.

* `Retries` — the next run completes and leaves what an uninterrupted run would have left;
* `retriable` — none of the executed statements has left a trace that the next run trips over;
* `retries_iff_retriable` — exactly then a migration can be retried.
-/

/-- **A migration that stops after `k` statements can be retried**: the following run completes,
    with the migrations recorded and the tables, columns and rows that an uninterrupted run
    leaves. -/
def Retries (now now' : String) (m : SqliteMigration) (k : Nat) (s : Store) : Prop :=
  ∃ db t u, execAll now (m.up.take k) s.db = .ok db ∧
    run now' ⟨s.applied, db⟩ = .ok t ∧ run now' s = .ok u ∧
    t.applied = u.applied ∧ t.db.contents = u.db.contents

/-- No column has been added and no row seeded, and no table has been created unconditionally that
    does not have its final name. -/
def retriable (executed : List SqliteStatement) : Bool :=
  executed.all fun s =>
    match s with
    | .addColumn _ _ _ | .insert _ _ | .insertOrIgnore _ _ => false
    | .createTable false t _ =>
      executed.any fun s' =>
        match s' with
        | .renameTable u _ => u = t
        | _ => false
    | _ => true

theorem schemaAll_script : ∀ j ≤ 18,
    (schemaAll (script (migrations.drop j)) (schemaAt j)).isSome = true := by decide

/-! ### What can be retried -/

theorem creates_of_retriable : ∀ j < 18, j ≠ 11 → j ≠ 12 → ∀ k < (migration j).up.length,
    retriable ((migration j).up.take k) = true →
      ((migration j).up.take k).all Statement.creates = true := by decide

theorem retriable_m012 : ∀ k < m012.up.length, retriable (m012.up.take k) = true →
    k = 0 ∨ k = 4 := by decide

theorem retriable_m013 : ∀ k < m013.up.length, retriable (m013.up.take k) = true →
    k = 0 ∨ 4 ≤ k ∧ k ≤ 11 := by decide

/-- The rebuild of `notification_rules`. -/
def rebuildRules : List SqliteStatement :=
  rebuild .notificationRules .notificationRulesNew Tables.notificationRules ruleColumns

/-- The rebuild of `schedules`. -/
def rebuildSchedules : List SqliteStatement :=
  rebuild .schedules .schedulesNew Tables.schedulesNew scheduleColumns

/-- What migration 013 creates after the rebuild. -/
def afterRebuild : List SqliteStatement := (m013.up.drop 4).take 6

/-- The rebuild of `schedules` and the first of these. -/
def rebuilding (i : Nat) : List SqliteStatement := rebuildSchedules ++ afterRebuild.take i

theorem rebuildable_rules : Rebuildable (schemaAt 11) .notificationRules .notificationRulesNew
      Tables.notificationRules ruleColumns ∧
    schemaAll rebuildRules (schemaAt 11) = some (schemaAt 12) ∧
    ((schemaAt 12).put .notificationRulesNew Tables.notificationRules).spares .notificationRules
      .notificationRulesNew = true ∧
    schemaAll rebuildRules (schemaAt 12) = some (schemaAt 12) := by decide

theorem repeatable_rules : Repeatable (m012.up.take 4) (schemaAt 11) := by
  obtain ⟨hrebuildable, hschema, hspares, hsame⟩ := rebuildable_rules
  have hrebuild : m012.up.take 4 = rebuildRules ++ [] := rfl
  rw [hrebuild]
  rw [← List.append_nil rebuildRules] at hschema
  exact repeatable_rebuild hrebuildable (by simp) hschema hspares hsame

theorem rebuildable_schedules : Rebuildable (schemaAt 12) .schedules .schedulesNew
      Tables.schedulesNew scheduleColumns ∧
    (∀ i ≤ 6, (schemaAll (rebuilding i) (schemaAt 12)).any (fun σ =>
      (σ.put .schedulesNew Tables.schedulesNew).spares .schedules .schedulesNew &&
        decide (schemaAll rebuildSchedules σ = some σ)) = true) ∧
    (schemaAll (rebuilding 5) (schemaAt 12)).all (fun σ => !σ.has .scheduleTemplates) = true := by
  decide

theorem creates_afterRebuild (i : Nat) : ∀ s ∈ afterRebuild.take i, s.creates = true := by
  have hall : ∀ s ∈ afterRebuild, s.creates = true := List.all_eq_true.mp rfl
  exact fun s hs => hall s (List.mem_of_mem_take hs)

theorem repeatable_rebuilding {i : Nat} (hi : i ≤ 6) : Repeatable (rebuilding i) (schemaAt 12) := by
  obtain ⟨hrebuildable, hcheck, -⟩ := rebuildable_schedules
  obtain ⟨σ, hσ, hboth⟩ := (Option.any_eq_true _ _).mp (hcheck i hi)
  obtain ⟨hspares, hsame⟩ := Bool.and_eq_true_iff.mp hboth
  exact repeatable_rebuild hrebuildable (creates_afterRebuild i) hσ hspares
    (of_decide_eq_true hsame)

theorem take_m013 : ∀ i ≤ 6, m013.up.take (4 + i) = rebuilding i := by
  intro i hi
  interval_cases i <;> rfl

/-- The templates are created without rows. -/
theorem templates_of_rebuilding {now : String} {db db' : Database TableName String}
    (hdb : db.schema = schemaAt 12) (h : execAll now (rebuilding 6) db = .ok db') :
    db'.schema.find .scheduleTemplates = some Tables.scheduleTemplates ∧
      db'.rows .scheduleTemplates = [] ∧ db'.seq .scheduleTemplates = 0 := by
  have hlast : rebuilding 6 =
      rebuilding 5 ++ [createIfMissing .scheduleTemplates Tables.scheduleTemplates] := rfl
  rw [hlast] at h
  obtain ⟨db₁, h₁, h⟩ := execAll_concat.mp h
  have hmissing := rebuildable_schedules.2.2
  have hschema := schemaAll_of_ok h₁
  rw [hdb] at hschema
  rw [hschema] at hmissing
  have hhas : db₁.schema.has .scheduleTemplates = false := by simpa using hmissing
  have hexec : exec now (createIfMissing .scheduleTemplates Tables.scheduleTemplates) db₁ =
      some ⟨db₁.schema.put .scheduleTemplates Tables.scheduleTemplates,
        Function.update db₁.rows .scheduleTemplates [],
        Function.update db₁.seq .scheduleTemplates 0⟩ := by
    simp [exec, createIfMissing, Statement.onSchema, Statement.onRows, Statement.onSeq, hhas]
  rw [hexec] at h
  obtain rfl := Option.some.inj h
  dsimp only
  rw [Schema.find_put, if_pos rfl, Function.update_self, Function.update_self]
  exact ⟨rfl, rfl, rfl⟩

/-- `DELETE FROM schedule_templates WHERE is_builtin = 1`. -/
def deleteBuiltins : SqliteStatement := .deleteWhere .scheduleTemplates "is_builtin" (.integer 1)

/-- Nothing is deleted from the new templates. -/
theorem repeatable_deleting : Repeatable (rebuilding 6 ++ [deleteBuiltins]) (schemaAt 12) := by
  refine (repeatable_rebuilding (le_refl 6)).concat fun now now' db db' hdb hexec => ?_
  obtain ⟨hfind, hrows, -⟩ := templates_of_rebuilding hdb hexec
  refine Statement.exec_deleteWhere_of_nil ?_ hrows
  rw [Schema.hasColumns, hfind]
  decide

theorem repeatable_of_retriable {j k : Nat} (hj : j < 18) (hk : k < (migration j).up.length)
    (h : retriable ((migration j).up.take k) = true) :
    Repeatable ((migration j).up.take k) (schemaAt j) := by
  by_cases h11 : j = 11
  · subst h11
    rcases retriable_m012 k hk h with rfl | rfl
    · exact Repeatable.nil
    · exact repeatable_rules
  · by_cases h12 : j = 12
    · subst h12
      rcases retriable_m013 k hk h with rfl | ⟨hlow, hhigh⟩
      · exact Repeatable.nil
      · obtain ⟨i, rfl⟩ := Nat.exists_eq_add_of_le hlow
        show Repeatable (m013.up.take (4 + i)) (schemaAt 12)
        by_cases hi : i = 7
        · subst hi
          exact repeatable_deleting
        · rw [take_m013 i (by omega)]
          exact repeatable_rebuilding (by omega)
    · exact repeatable_of_creates (List.all_eq_true.mp (creates_of_retriable j hj h11 h12 k hk h))

/-- The schema version is not stored before the first migration stores it. -/
theorem handleBaseline_of_retriable {first rest : List SqliteMigration} {m : SqliteMigration}
    {k : Nat} {s : Store} {now : String} {db : Database TableName String}
    (h : migrations = first ++ m :: rest) (hs : AtVersion first s)
    (hcreates : first = [] → ∀ s ∈ m.up.take k, s.creates = true)
    (hexec : execAll now (m.up.take k) s.db = .ok db) :
    handleBaseline ⟨s.applied, db⟩ = ⟨s.applied, db⟩ := by
  cases first with
  | nil =>
    have hempty : s.db.schema = Schema.empty := (Option.some.inj hs.schema).symm
    refine handleBaseline_of_none (schemaVersion_of_noRows ?_)
    refine rows_of_creates (hcreates rfl) hexec (fun t ht => ?_) _
    rw [hempty] at ht
    cases ht
  | cons m' first =>
    refine handleBaseline_of_recorded ?_
    rw [hs.applied]
    exact List.cons_ne_nil _ _

section

variable {first rest : List SqliteMigration} {m : SqliteMigration} {k : Nat} {s : Store}
  {now now' : String}

theorem isSome_of_append {l l' : List SqliteStatement} {σ : Schema TableName String}
    (h : (schemaAll (l ++ l') σ).isSome = true) : (schemaAll l σ).isSome = true := by
  rw [schemaAll_append] at h
  cases hl : schemaAll l σ with
  | none => simp [hl] at h
  | some σ' => rfl

theorem script_isSome (h : migrations = first ++ m :: rest) (hs : AtVersion first s) :
    (schemaAll (script (m :: rest)) s.db.schema).isSome = true := by
  obtain ⟨hj, -, -, hrest⟩ := split_eq h
  rw [hs.schema_eq h, hrest]
  exact schemaAll_script _ (by omega)

/-- The statements before the stop succeed. -/
theorem exists_stopped (h : migrations = first ++ m :: rest) (hs : AtVersion first s)
    (now : String) (k : Nat) : ∃ db, execAll now (m.up.take k) s.db = .ok db := by
  have hscript := script_isSome h hs
  rw [script_cons] at hscript
  have hup := isSome_of_append hscript
  rw [← List.take_append_drop k m.up] at hup
  obtain ⟨σ, hσ⟩ := Option.isSome_iff_exists.mp (isSome_of_append hup)
  obtain ⟨db, hdb, -⟩ := ok_of_schemaAll now hσ
  exact ⟨db, hdb⟩

theorem AtVersion.handleBaseline_eq (hs : AtVersion first s) (h : migrations = first ++ m :: rest) :
    handleBaseline s = s :=
  handleBaseline_of_retriable (k := 0) h hs (fun _ => by simp) (execAll_nil "")

/-- An uninterrupted run. -/
theorem exists_run (h : migrations = first ++ m :: rest) (hs : AtVersion first s) (now : String) :
    ∃ db, execAll now (script (m :: rest)) s.db = .ok db ∧
      run now s = .ok ⟨s.applied ++ (m :: rest).map SqliteMigration.version, db⟩ := by
  rw [run_of_first now s h hs.applied (hs.handleBaseline_eq h)]
  rcases runPending_cases now (m :: rest) s with hrun | ⟨db, t, hexec, -⟩
  · exact hrun
  · obtain ⟨σ, hσ⟩ := Option.isSome_iff_exists.mp (script_isSome h hs)
    obtain ⟨db', hdb', -⟩ := ok_of_schemaAll now hσ
    rw [hdb'] at hexec
    cases hexec

theorem retries_of_retriable (h : migrations = first ++ m :: rest) (hs : AtVersion first s)
    (hk : k < m.up.length) (hretriable : retriable (m.up.take k) = true) :
    Retries now now' m k s := by
  obtain ⟨hj, -, hm, -⟩ := split_eq h
  have hrepeatable : Repeatable (m.up.take k) s.db.schema := by
    rw [hs.schema_eq h, hm]
    exact repeatable_of_retriable hj (hm ▸ hk) (hm ▸ hretriable)
  have hcreates : first = [] → ∀ s ∈ m.up.take k, s.creates = true := by
    rintro rfl
    have hm0 : m = migration 0 := hm
    rw [hm0] at hk hretriable ⊢
    exact List.all_eq_true.mp
      (creates_of_retriable 0 (by omega) (by omega) (by omega) k hk hretriable)
  obtain ⟨db, hdb⟩ := exists_stopped h hs now k
  obtain ⟨db', -, hrun⟩ := exists_run h hs now'
  have hsame : execAll now' m.up db = execAll now' m.up s.db := by
    have hresume := execAll_resume now' (m.up.drop k) hrepeatable hdb
    rwa [List.take_append_drop] at hresume
  have hagain : run now' ⟨s.applied, db⟩ = runPending now' (m :: rest) ⟨s.applied, db⟩ :=
    run_of_first now' _ h hs.applied (handleBaseline_of_retriable h hs hcreates hdb)
  have hretry : run now' ⟨s.applied, db⟩ = run now' s := by
    rw [hagain, run_of_first now' s h hs.applied (hs.handleBaseline_eq h), runPending, runPending,
      hsame]
  exact ⟨db, _, _, hdb, hretry.trans hrun, hrun, rfl, rfl⟩

end

/-! ### What cannot be retried -/

theorem fails_of_not_retriable : ∀ j < 18, j ≠ 0 → ∀ k < (migration j).up.length,
    (j = 12 → k < 12) → retriable ((migration j).up.take k) = false →
      ((schemaAll ((migration j).up.take k) (schemaAt j)).bind
        (schemaAll (migration j).up)).isNone = true := by decide

theorem not_retriable_m001 : ∀ k < m001.up.length, retriable (m001.up.take k) = false →
    k = 26 := by decide

section

variable {first rest : List SqliteMigration} {m : SqliteMigration} {k : Nat} {s : Store}
  {now now' : String}

/-- The next run fails in the same migration. -/
theorem not_retries_of_fails (h : migrations = first ++ m :: rest) (hs : AtVersion first s)
    (hfirst : first ≠ [])
    (hfails : ((schemaAll (m.up.take k) s.db.schema).bind (schemaAll m.up)).isNone = true) :
    ¬ Retries now now' m k s := by
  rintro ⟨db, t, u, hdb, ht, -⟩
  rw [schemaAll_of_ok hdb, Option.bind_some, Option.isNone_iff_eq_none] at hfails
  obtain ⟨db', herror⟩ := error_of_schemaAll now' hfails
  have hrecorded : handleBaseline ⟨s.applied, db⟩ = ⟨s.applied, db⟩ := by
    refine handleBaseline_of_recorded ?_
    rw [hs.applied]
    simpa using hfirst
  rw [run_of_first now' ⟨s.applied, db⟩ h hs.applied hrecorded, runPending, herror] at ht
  cases ht

/-! #### The templates of migration 013 -/

/-- With the tables of migration 013, and no templates but built-in ones. -/
structure Templated (db : Database TableName String) : Prop where
  schema : db.schema = schemaAt 13
  builtin : ∀ r ∈ db.rows .scheduleTemplates, r "is_builtin" = .integer 1

/-- The ids of the templates. -/
def templateIds (db : Database TableName String) : List Value :=
  (db.rows .scheduleTemplates).map fun r => r "id"

theorem exec_insertTemplate {db db' : Database TableName String} {t : String × String × String}
    (hfind : db.schema.find .scheduleTemplates = some Tables.scheduleTemplates)
    (h : exec now (insertTemplate t) db = some db') :
    db'.schema = db.schema ∧
      db'.seq .scheduleTemplates = db.seq .scheduleTemplates + 1 ∧
      ∃ r : Sql.Row String, db'.rows .scheduleTemplates = db.rows .scheduleTemplates ++ [r] ∧
        r "id" = .integer (db.seq .scheduleTemplates + 1) ∧ r "is_builtin" = .integer 1 := by
  obtain ⟨hschema, hrows, hseq⟩ := exec_eq_some.mp h
  simp only [insertTemplate, Statement.onSchema, Option.ite_none_right_eq_some] at hschema
  simp only [insertTemplate, Statement.onRows, hfind, Option.elim_some] at hrows
  simp only [insertTemplate, Statement.onSeq] at hseq
  refine ⟨(Option.some.inj hschema.2).symm, ?_, ?_⟩
  · rw [hseq, Function.update_self]
  · rw [hrows, Function.update_self]
    exact ⟨_, rfl, rfl, rfl⟩

theorem execAll_insertTemplates {db db' : Database TableName String}
    {ts : List (String × String × String)}
    (hfind : db.schema.find .scheduleTemplates = some Tables.scheduleTemplates)
    (h : execAll now (ts.map insertTemplate) db = .ok db') :
    db'.schema = db.schema ∧
      db'.seq .scheduleTemplates = db.seq .scheduleTemplates + ts.length ∧
      (templateIds db' = templateIds db ++
        (List.range' (db.seq .scheduleTemplates + 1) ts.length).map fun n => .integer n) ∧
      ((∀ r ∈ db.rows .scheduleTemplates, r "is_builtin" = .integer 1) →
        ∀ r ∈ db'.rows .scheduleTemplates, r "is_builtin" = .integer 1) := by
  induction ts generalizing db with
  | nil =>
    obtain rfl := Except.ok.inj h
    exact ⟨rfl, rfl, by simp, id⟩
  | cons t ts ih =>
    obtain ⟨db₁, hexec, h⟩ := execAll_cons.mp h
    obtain ⟨hschema, hseq, r, hrows, hid, hbuiltin⟩ := exec_insertTemplate hfind hexec
    obtain ⟨hschema', hseq', hids, hbuiltins⟩ := ih (by rw [hschema, hfind]) h
    refine ⟨hschema'.trans hschema, ?_, ?_, fun hall => hbuiltins ?_⟩
    · rw [hseq', hseq, List.length_cons]
      omega
    · have hids₁ : templateIds db₁ =
          templateIds db ++ [Value.integer (db.seq .scheduleTemplates + 1)] := by
        unfold templateIds
        rw [hrows, List.map_append, List.map_singleton, hid]
      rw [hids, hids₁, hseq, List.length_cons, List.range'_succ, List.map_cons, List.append_assoc]
      rfl
    · rw [hrows]
      intro r' hr'
      rcases List.mem_append.mp hr' with hr' | hr'
      · exact hall r' hr'
      · rw [List.mem_singleton.mp hr', hbuiltin]

theorem up_m013 : m013.up =
    rebuilding 6 ++ deleteBuiltins :: builtinTemplates.map insertTemplate := rfl

theorem take_inserts : ∀ i ≤ 5, m013.up.take (11 + i) =
    rebuilding 6 ++ deleteBuiltins :: (builtinTemplates.take i).map insertTemplate := by
  intro i hi
  interval_cases i <;> rfl

/-- The schema does not change after the templates are created. -/
theorem schemas_of_rebuilding : schemaAll (rebuilding 6) (schemaAt 12) = some (schemaAt 13) ∧
    schemaAll (rebuilding 6) (schemaAt 13) = some (schemaAt 13) ∧
    avoidsAll .scheduleTemplates (rebuilding 6) (schemaAt 13) = true ∧
    (schemaAt 13).find .scheduleTemplates = some Tables.scheduleTemplates ∧
    (schemaAt 13).unreferenced .scheduleTemplates = true := by decide

theorem templated_of_rebuilding {db db' : Database TableName String}
    (hdb : db.schema = schemaAt 12) (h : execAll now (rebuilding 6) db = .ok db') :
    Templated db' where
  schema := by
    have hschema := schemaAll_of_ok h
    rw [hdb, schemas_of_rebuilding.1] at hschema
    exact (Option.some.inj hschema).symm
  builtin := by
    rw [(templates_of_rebuilding hdb h).2.1]
    simp

theorem rebuilding_again {db db' : Database TableName String} (hdb : Templated db)
    (h : execAll now (rebuilding 6) db = .ok db') :
    Templated db' ∧ db'.seq .scheduleTemplates = db.seq .scheduleTemplates := by
  obtain ⟨-, hagain, havoids, -⟩ := schemas_of_rebuilding
  have hschema := schemaAll_of_ok h
  rw [hdb.schema, hagain] at hschema
  obtain ⟨hrows, hseq⟩ := rows_of_avoidsAll h (hdb.schema ▸ havoids)
  exact ⟨⟨(Option.some.inj hschema).symm, hrows ▸ hdb.builtin⟩, hseq⟩

/-- All templates are built in, and deleted. -/
theorem exec_deleteBuiltins {db db' : Database TableName String} (hdb : Templated db)
    (h : exec now deleteBuiltins db = some db') :
    db'.schema = schemaAt 13 ∧ db'.rows .scheduleTemplates = [] ∧
      db'.seq .scheduleTemplates = db.seq .scheduleTemplates := by
  obtain ⟨hschema, hrows, hseq⟩ := exec_eq_some.mp h
  simp only [deleteBuiltins, Statement.onSchema, Option.ite_none_right_eq_some] at hschema
  refine ⟨(Option.some.inj hschema.2).symm.trans hdb.schema, ?_, by rw [hseq]; rfl⟩
  rw [hrows]
  simp only [deleteBuiltins, Statement.onRows, hdb.schema]
  obtain ⟨-, -, -, hfind, hunreferenced⟩ := schemas_of_rebuilding
  have hhas : (schemaAt 13).has .scheduleTemplates = true := by
    rw [Schema.has, hfind]
    rfl
  have hnone : (schemaAt 13).foreignKeys .scheduleTemplates = [] := by
    rw [Schema.foreignKeys, hfind]
    rfl
  rw [Schema.deleteRows_self hhas hunreferenced hnone, List.filter_eq_nil_iff]
  intro r hr
  rw [hdb.builtin r hr]
  decide

/-- What the templates are numbered from. -/
theorem ids_of_seeding {db db' : Database TableName String} {ts : List (String × String × String)}
    (hdb : Templated db) (h : execAll now (deleteBuiltins :: ts.map insertTemplate) db = .ok db') :
    Templated db' ∧ db'.seq .scheduleTemplates = db.seq .scheduleTemplates + ts.length ∧
      templateIds db' =
        (List.range' (db.seq .scheduleTemplates + 1) ts.length).map (fun n => .integer n) := by
  obtain ⟨db₁, hdelete, h⟩ := execAll_cons.mp h
  obtain ⟨hschema, hrows, hseq⟩ := exec_deleteBuiltins hdb hdelete
  obtain ⟨-, -, -, hfind, -⟩ := schemas_of_rebuilding
  obtain ⟨hschema', hseq', hids, hbuiltins⟩ :=
    execAll_insertTemplates (by rw [hschema, hfind]) h
  have hnone : templateIds db₁ = [] := by
    unfold templateIds
    rw [hrows]
    rfl
  rw [hnone, List.nil_append, hseq] at hids
  refine ⟨⟨hschema'.trans hschema, hbuiltins ?_⟩, by rw [hseq', hseq], hids⟩
  rw [hrows]
  simp

/-- The rest of a run after the templates of migration 013. -/
def later : List SqliteStatement :=
  updateSchemaVersion m013.version :: script (migrations.drop 13)

/-- The columns of the templates. -/
def templateColumns (σ : Schema TableName String) : Option (List String) :=
  (σ.find .scheduleTemplates).map fun S => S.columns.map Column.name

theorem keeps_later : keepsAll .scheduleTemplates ["id"] later (schemaAt 13) = true ∧
    ((schemaAll later (schemaAt 13)).all fun σ => decide (templateColumns σ =
      some (Tables.scheduleTemplates.columns.map Column.name))) = true := by decide

/-- The rest of a run keeps the ids of the templates. -/
theorem ids_of_later {db db' : Database TableName String} (hdb : Templated db)
    (h : execAll now later db = .ok db') :
    templateIds db' = templateIds db ∧
      templateColumns db'.schema = some (Tables.scheduleTemplates.columns.map Column.name) := by
  obtain ⟨hkeeps, hcheck⟩ := keeps_later
  refine ⟨?_, of_decide_eq_true (schema_of_check h hdb.schema hcheck)⟩
  have hpick := pick_of_keepsAll h (hdb.schema ▸ hkeeps)
  have hhead := congrArg (List.map fun vs : List Value => vs.headD .null) hpick
  rw [List.map_map, List.map_map] at hhead
  exact hhead

/-- The ids can be read off the table. -/
theorem ids_of_contents {db db' : Database TableName String} (h : db.contents = db'.contents)
    (hdb : templateColumns db.schema = some (Tables.scheduleTemplates.columns.map Column.name))
    (hdb' : templateColumns db'.schema = some (Tables.scheduleTemplates.columns.map Column.name)) :
    templateIds db = templateIds db' := by
  have hcontents := congrFun h .scheduleTemplates
  unfold Database.contents at hcontents
  obtain ⟨S, hS, hcolumns⟩ := Option.map_eq_some_iff.mp hdb
  obtain ⟨S', hS', hcolumns'⟩ := Option.map_eq_some_iff.mp hdb'
  rw [hS, hS', Option.map_some, Option.map_some, hcolumns, hcolumns'] at hcontents
  have hrows := (Prod.ext_iff.mp (Option.some.inj hcontents)).2
  have hhead := congrArg (List.map fun vs : List Value => vs.headD .null) hrows
  rw [List.map_map, List.map_map] at hhead
  exact hhead

/-- The ids that a run leaves from the seeding on. -/
theorem ids_of_finish {db db' : Database TableName String} (hdb : Templated db)
    (h : execAll now (deleteBuiltins :: builtinTemplates.map insertTemplate ++ later) db =
      .ok db') :
    templateIds db' =
      (List.range' (db.seq .scheduleTemplates + 1) 5).map (fun n => .integer n) ∧
      templateColumns db'.schema = some (Tables.scheduleTemplates.columns.map Column.name) := by
  obtain ⟨db₁, hseeding, hlater⟩ := execAll_append_eq_ok.mp h
  obtain ⟨htemplated, -, hids⟩ := ids_of_seeding hdb hseeding
  obtain ⟨hsame, hcolumns⟩ := ids_of_later htemplated hlater
  exact ⟨hsame.trans hids, hcolumns⟩

theorem script_m013 : script (m013 :: migrations.drop 13) =
    rebuilding 6 ++ (deleteBuiltins :: builtinTemplates.map insertTemplate ++ later) := by
  rw [script_cons, up_m013, List.append_assoc]
  rfl

/-- **The templates have other ids after a retry.** -/
theorem not_retries_seeding (h : migrations = first ++ m013 :: rest) (hs : AtVersion first s)
    {i : Nat} (hpos : 0 < i) (hi : i ≤ 5) : ¬ Retries now now' m013 (11 + i) s := by
  rintro ⟨db, t, u, hdb, ht, hu, -, hcontents⟩
  obtain ⟨hj, hfirst, hm, hrest⟩ := split_eq h
  have h12 : first.length = 12 := by
    have hversions : ∀ j < 18, (migration j).version = m013.version → j = 12 := by decide
    exact hversions _ hj (by rw [← hm])
  rw [h12] at hfirst hrest
  have hdrop : rest = migrations.drop 13 := (List.cons.inj hrest).2
  have hschema : s.db.schema = schemaAt 12 := by rw [hs.schema_eq h, h12]
  have hrecorded : ∀ db, handleBaseline ⟨s.applied, db⟩ = ⟨s.applied, db⟩ := by
    intro db
    refine handleBaseline_of_recorded ?_
    rw [hs.applied, hfirst]
    decide
  -- without a stop
  have hu' := execAll_of_run s h hs.applied (hrecorded s.db) hu
  rw [hdrop, script_m013] at hu'
  obtain ⟨db₁, hrebuild₁, hfinish₁⟩ := execAll_append_eq_ok.mp hu'
  obtain ⟨-, -, hseq₁⟩ := templates_of_rebuilding hschema hrebuild₁
  obtain ⟨hids₁, hcolumns₁⟩ := ids_of_finish (templated_of_rebuilding hschema hrebuild₁) hfinish₁
  -- the stop, and the retry
  rw [take_inserts i hi] at hdb
  obtain ⟨db₂, hrebuild₂, hseeding⟩ := execAll_append_eq_ok.mp hdb
  obtain ⟨-, -, hseq₂⟩ := templates_of_rebuilding hschema hrebuild₂
  obtain ⟨htemplated₃, hseq₃, -⟩ :=
    ids_of_seeding (templated_of_rebuilding hschema hrebuild₂) hseeding
  have ht' := execAll_of_run ⟨s.applied, db⟩ h hs.applied (hrecorded db) ht
  rw [hdrop, script_m013] at ht'
  obtain ⟨db₄, hrebuild₄, hfinish₄⟩ := execAll_append_eq_ok.mp ht'
  obtain ⟨htemplated₄, hseq₄⟩ := rebuilding_again htemplated₃ hrebuild₄
  obtain ⟨hids₄, hcolumns₄⟩ := ids_of_finish htemplated₄ hfinish₄
  have hids := ids_of_contents hcontents hcolumns₄ hcolumns₁
  have hlength : (builtinTemplates.take i).length = i := by
    rw [List.length_take]
    exact min_eq_left hi
  rw [hids₄, hids₁, hseq₄, hseq₃, hseq₂, hseq₁, hlength] at hids
  have hhead := congrArg List.head? hids
  simp only [List.range'_succ, List.map_cons, List.head?_cons, Option.some.injEq,
    Value.integer.injEq] at hhead
  omega

/-! #### The system state of migration 001 -/

def insertVersion : SqliteStatement := .insertOrIgnore .systemState
  [("key", .const (.text "schema_version")), ("value", .const (.text "1.0.0"))]

def insertInitialized : SqliteStatement := .insertOrIgnore .systemState
  [("key", .const (.text "initialized_at")), ("value", .now)]

theorem script_m001 : script (m001 :: migrations.drop 1) =
    m001.up.take 25 ++ insertVersion :: insertInitialized ::
      (updateSchemaVersion m001.version :: script (migrations.drop 1)) := rfl

theorem take_m001 : m001.up.take 26 = m001.up.take 25 ++ [insertVersion] := rfl

/-- With the tables of migration 001, and this in the system state. -/
structure Started (rows : List (Sql.Row String)) (db : Database TableName String) : Prop where
  schema : db.schema = schemaAt 1
  rows_eq : db.rows .systemState = rows

theorem schemas_of_m001 : schemaAll (m001.up.take 25) Schema.empty = some (schemaAt 1) ∧
    (schemaAt 1).find .systemState = some Tables.systemState := by decide

theorem started_of_m001 {db db' : Database TableName String} (hdb : db.schema = Schema.empty)
    (h : execAll now (m001.up.take 25) db = .ok db') : Started [] db' := by
  obtain ⟨hall, hfind⟩ := schemas_of_m001
  have hschema := schemaAll_of_ok h
  rw [hdb, hall] at hschema
  have hcreates : ∀ s ∈ m001.up.take 25, s.creates = true := List.all_eq_true.mp rfl
  refine ⟨(Option.some.inj hschema).symm, rows_of_creates hcreates h (fun t ht => ?_) _ ?_⟩
  · rw [hdb] at ht
    cases ht
  · rw [← Option.some.inj hschema, Schema.has, hfind]
    rfl

theorem exec_insertVersion {db db' : Database TableName String} (hdb : Started [] db)
    (h : exec now insertVersion db = some db') :
    ∃ r : Sql.Row String, Started [r] db' ∧ r "key" = .text "schema_version" ∧
      r "value" = .text "1.0.0" := by
  obtain ⟨hschema, hrows, -⟩ := exec_eq_some.mp h
  simp only [insertVersion, Statement.onSchema, Option.ite_none_right_eq_some] at hschema
  simp only [insertVersion, Statement.onRows, hdb.schema, schemas_of_m001.2, Option.elim_some,
    hdb.rows_eq, List.any_nil, Bool.false_eq_true, if_false, List.nil_append] at hrows
  have hone := congrFun hrows .systemState
  rw [Function.update_self] at hone
  exact ⟨_, ⟨(Option.some.inj hschema.2).symm.trans hdb.schema, hone⟩, rfl, rfl⟩

theorem exec_insertInitialized {db db' : Database TableName String} {r : Sql.Row String}
    (hdb : Started [r] db) (hkey : r "key" = .text "schema_version")
    (h : exec now insertInitialized db = some db') : ∃ r', Started [r, r'] db' := by
  obtain ⟨hschema, hrows, -⟩ := exec_eq_some.mp h
  simp only [insertInitialized, Statement.onSchema, Option.ite_none_right_eq_some] at hschema
  have hnot : ((Tables.systemState.primaryKey).any fun k => (written now
      [("key", .const (.text "initialized_at")), ("value", .now)] k).any (r k).equals) = false := by
    show Option.any (r "key").equals (some (.text "initialized_at")) = false
    rw [hkey]
    decide
  simp only [insertInitialized, Statement.onRows, hdb.schema, schemas_of_m001.2, Option.elim_some,
    hdb.rows_eq, List.any_cons, List.any_nil, hnot, Bool.or_self, Bool.false_eq_true,
    if_false] at hrows
  have htwo := congrFun hrows .systemState
  rw [Function.update_self] at htwo
  exact ⟨_, (Option.some.inj hschema.2).symm.trans hdb.schema, htwo⟩

theorem keeps_systemState : ∀ l ∈ [script (migrations.drop 1),
      updateSchemaVersion m001.version :: script (migrations.drop 1)],
    keepsAll .systemState [] l (schemaAt 1) = true ∧
      ((schemaAll l (schemaAt 1)).all fun σ => σ.has .systemState) = true := by decide

/-- The other migrations keep the number of rows. -/
theorem length_of_later {db db' : Database TableName String} {rows : List (Sql.Row String)}
    {l : List SqliteStatement} (hl : l ∈ [script (migrations.drop 1),
      updateSchemaVersion m001.version :: script (migrations.drop 1)])
    (hdb : Started rows db) (h : execAll now l db = .ok db') :
    db'.schema.has .systemState = true ∧ (db'.rows .systemState).length = rows.length := by
  obtain ⟨hkeeps, hhas⟩ := keeps_systemState l hl
  have hpick := congrArg List.length (pick_of_keepsAll h (hdb.schema ▸ hkeeps))
  rw [List.length_map, List.length_map, hdb.rows_eq] at hpick
  exact ⟨schema_of_check h hdb.schema hhas, hpick⟩

theorem length_of_contents {db db' : Database TableName String} {t : TableName}
    (h : db.contents = db'.contents) (hdb : db.schema.has t = true)
    (hdb' : db'.schema.has t = true) : (db.rows t).length = (db'.rows t).length := by
  obtain ⟨S, hS⟩ := Option.isSome_iff_exists.mp hdb
  obtain ⟨S', hS'⟩ := Option.isSome_iff_exists.mp hdb'
  have hcontents := congrFun h t
  unfold Database.contents at hcontents
  rw [hS, hS'] at hcontents
  have hlength := congrArg List.length (Prod.ext_iff.mp (Option.some.inj hcontents)).2
  rwa [List.length_map, List.length_map] at hlength

/-- **The next run takes the first migration for applied**, and a row of the system state is
    missing. -/
theorem not_retries_versioned (h : migrations = m001 :: rest) (hs : AtVersion [] s) :
    ¬ Retries now now' m001 26 s := by
  rintro ⟨db, t, u, hdb, ht, hu, -, hcontents⟩
  have hempty : s.db.schema = Schema.empty := (Option.some.inj hs.schema).symm
  have hdrop : rest = migrations.drop 1 := (List.cons.inj h).2.symm
  -- without a stop
  have hsplit : migrations = [] ++ m001 :: rest := h
  have hu' := execAll_of_run s hsplit hs.applied (hs.handleBaseline_eq hsplit) hu
  rw [hdrop, script_m001] at hu'
  obtain ⟨db₁, hcreated₁, hu'⟩ := execAll_append_eq_ok.mp hu'
  obtain ⟨db₂, hversion₂, hu'⟩ := execAll_cons.mp hu'
  obtain ⟨db₃, hinitialized₃, hu'⟩ := execAll_cons.mp hu'
  obtain ⟨r₂, hstarted₂, hkey₂, -⟩ :=
    exec_insertVersion (started_of_m001 hempty hcreated₁) hversion₂
  obtain ⟨r₃, hstarted₃⟩ := exec_insertInitialized hstarted₂ hkey₂ hinitialized₃
  obtain ⟨hhasu, hlengthu⟩ := length_of_later (by simp) hstarted₃ hu'
  -- the stop, and the retry
  rw [take_m001] at hdb
  obtain ⟨db₄, hcreated₄, hversion⟩ := execAll_concat.mp hdb
  obtain ⟨r, hstarted, hkey, hvalue⟩ :=
    exec_insertVersion (started_of_m001 hempty hcreated₄) hversion
  have hstored : schemaVersion db = some "1.0.0" := by
    unfold schemaVersion
    rw [hstarted.schema, Schema.has, schemas_of_m001.2, hstarted.rows_eq]
    simp [hkey, hvalue, Value.equals]
  have hbaseline : handleBaseline ⟨s.applied, db⟩ = ⟨[m001.version], db⟩ := by
    have hfilter : ((migrations.filter fun m =>
        compareVersions m.version (versionOfText "1.0.0") ≤ 0).map SqliteMigration.version) =
        [m001.version] := rfl
    unfold handleBaseline
    rw [hs.applied, hstored]
    show Store.mk _ db = _
    rw [hfilter]
  have ht' : run now' ⟨[m001.version], db⟩ = .ok t := by
    have hrecorded : handleBaseline ⟨[m001.version], db⟩ = ⟨[m001.version], db⟩ :=
      handleBaseline_of_recorded (by simp)
    rw [run, hbaseline] at ht
    rw [run, hrecorded]
    exact ht
  have hsplit₁ : migrations = [m001] ++ rest := h
  have hexec := execAll_of_run ⟨[m001.version], db⟩ hsplit₁ rfl
    (handleBaseline_of_recorded (by simp)) ht'
  rw [hdrop] at hexec
  obtain ⟨hhast, hlengtht⟩ := length_of_later (by simp) hstarted hexec
  have hsame := length_of_contents hcontents hhast hhasu
  rw [hlengtht, hlengthu] at hsame
  cases hsame

/-! ### Exactly -/

/-- **A migration can be retried exactly if none of the statements before the stop added a column or
    seeded a row, and every table that they created unconditionally has its final name.** -/
theorem retries_iff_retriable (h : migrations = first ++ m :: rest) (hs : AtVersion first s)
    (hk : k < m.up.length) : Retries now now' m k s ↔ retriable (m.up.take k) = true := by
  refine ⟨fun hretries => ?_, retries_of_retriable h hs hk⟩
  by_contra hnot
  rw [Bool.not_eq_true] at hnot
  obtain ⟨hj, -, hm, -⟩ := split_eq h
  by_cases hfirst : first = []
  · -- the first migration
    subst hfirst
    obtain rfl : m = m001 := hm
    obtain rfl := not_retriable_m001 k hk hnot
    exact not_retries_versioned h hs hretries
  · have hpos : first.length ≠ 0 := by simpa using hfirst
    by_cases hseeding : first.length = 12 ∧ 12 ≤ k
    · -- a template of migration 013
      obtain ⟨h12, hlow⟩ := hseeding
      rw [h12] at hm
      obtain rfl : m = m013 := hm
      have hlength : m013.up.length = 16 := rfl
      obtain ⟨i, rfl⟩ := Nat.exists_eq_add_of_le (Nat.le_of_succ_le hlow)
      exact not_retries_seeding h hs (by omega) (by omega) hretries
    · refine not_retries_of_fails h hs hfirst ?_ hretries
      rw [hs.schema_eq h, hm]
      rw [hm] at hk hnot
      exact fails_of_not_retriable _ hj hpos k hk (fun h12 => by omega) hnot

end

/-- No tables yet. -/
def fresh : Store := ⟨[], Schema.empty, fun _ => [], fun _ => 0⟩

theorem atVersion_fresh : AtVersion [] fresh := ⟨rfl, rfl⟩

theorem retries_iff_retriable_fresh :
    Retries "2026-01-01 00:00:00" "2026-01-01 00:05:00" m001 3 fresh ↔
      retriable (m001.up.take 3) = true := by
  have hsplit : migrations = [] ++ m001 :: migrations.drop 1 := rfl
  exact retries_iff_retriable hsplit atVersion_fresh (by decide)

/-- Without rows, before the migration on playback quality. -/
def beforeQuality : Store :=
  ⟨(migrations.take 17).map SqliteMigration.version, schemaAt 17, fun _ => [], fun _ => 0⟩

/-- The migration on playback quality stops after its first column, and the next run fails on it. -/
theorem not_retries_quality : AtVersion (migrations.take 17) beforeQuality ∧
    ¬ Retries "2026-01-01 00:00:00" "2026-01-01 00:05:00" m018 1 beforeQuality := by
  have hversion : AtVersion (migrations.take 17) beforeQuality := ⟨rfl, by decide⟩
  have hsplit : migrations = migrations.take 17 ++ m018 :: [] := rfl
  exact ⟨hversion, not_retries_of_fails hsplit hversion (by simp [migrations]) (by decide)⟩

end Montr.Server.Sqlite
