import Montr.Lib.ForeignKeys
import Mathlib.Logic.Function.Basic
import Mathlib.Order.Lattice

namespace Montr.Sql

/-!
# Tables, and the statements that change them

SQLite's statements on tables and rows, with foreign keys enabled.

* `Schema` — tables with their columns, primary keys and foreign keys, and views;
* `Database` — a schema with the rows of its tables and the last ids that they have given out;
* `Statement`, `exec` — what a statement does, or that it fails;
* `Statement.onSchema` — whether a statement fails;
* `ok_of_schemaAll`, `error_of_schemaAll` — **the schema decides how far statements get**.

Indexes and triggers are not kept, and neither are the constraints that an insertion checks.
-/

universe u v

/-! ### Values -/

/-- A stored value. A real is given by its bits. -/
inductive Value
  | null
  | integer (n : Int)
  | real (bits : UInt64)
  | text (s : String)
  | blob (bytes : List UInt8)
  deriving DecidableEq, Repr

/-- `=` in a condition: nothing equals `NULL`. -/
def Value.equals (v w : Value) : Bool := v ≠ .null && v = w

/-- As an id. -/
def Value.toId : Value → Nat
  | .integer n => n.toNat
  | _ => 0

/-- A value that a statement writes. -/
inductive Expr
  | const (v : Value)
  /-- `CURRENT_TIMESTAMP`, `datetime('now')` -/
  | now
  deriving DecidableEq, Repr

def Expr.eval (now : String) : Expr → Value
  | .const v => v
  | .now => .text now

/-! ### Schemas -/

structure Column (κ : Type v) where
  name : κ
  default : Expr := .const .null
  deriving DecidableEq

inductive OnDelete
  | cascade
  | setNull
  deriving DecidableEq, Repr

/-- A column that refers to the primary key of a table. -/
structure ForeignKey (τ : Type u) (κ : Type v) where
  column : κ
  target : τ
  onDelete : OnDelete
  deriving DecidableEq

/-- What `CREATE TABLE` declares. No primary key refers to another table. -/
structure TableSchema (τ : Type u) (κ : Type v) where
  columns : List (Column κ)
  primaryKey : Option κ := none
  autoincrement : Bool := false
  foreignKeys : List (ForeignKey τ κ) := []
  key_free : ∀ f ∈ foreignKeys, primaryKey ≠ some f.column := by decide
  deriving DecidableEq

variable {τ : Type u} {κ : Type v} [LinearOrder τ] [DecidableEq κ]

/-- Tables by name, each once, and views with the tables they read. -/
structure Schema (τ : Type u) (κ : Type v) [LinearOrder τ] where
  tables : List (τ × TableSchema τ κ)
  views : List (String × List τ)
  sorted : (tables.map Prod.fst).Pairwise (· < ·)
  deriving DecidableEq

namespace TableSchema

/-- The table of a query. -/
def ofColumns (columns : List κ) : TableSchema τ κ where
  columns := columns.map fun c => { name := c }
  key_free := by simp

def has (s : TableSchema τ κ) (c : κ) : Bool := s.columns.any fun col => col.name = c

/-- With another column; `none` when there is one of its name. -/
def addColumn (s : TableSchema τ κ) (col : Column κ) (references : Option (τ × OnDelete)) :
    Option (TableSchema τ κ) :=
  if h : s.has col.name = true ∨ s.primaryKey = some col.name then none
  else some { s with
    columns := s.columns ++ [col]
    foreignKeys := s.foreignKeys ++ references.toList.map fun r => ⟨col.name, r.1, r.2⟩
    key_free := by
      intro f hf
      rcases List.mem_append.mp hf with hf | hf
      · exact s.key_free f hf
      · obtain ⟨r, -, rfl⟩ := List.mem_map.mp hf
        exact fun heq => h (.inr heq) }

/-- Without a column; `none` when it is the primary key or there is none of the name. -/
def dropColumn (s : TableSchema τ κ) (c : κ) : Option (TableSchema τ κ) :=
  if s.has c = true ∧ s.primaryKey ≠ some c then some { s with
    columns := s.columns.filter fun col => col.name ≠ c
    foreignKeys := s.foreignKeys.filter fun f => f.column ≠ c
    key_free := fun f hf => s.key_free f (List.mem_filter.mp hf).1 }
  else none

/-- After the renaming of a table. -/
def retarget (s : TableSchema τ κ) (t t' : τ) : TableSchema τ κ :=
  { s with
    foreignKeys := s.foreignKeys.map fun f =>
      { f with target := if f.target = t then t' else f.target }
    key_free := by
      intro f hf
      obtain ⟨g, hg, rfl⟩ := List.mem_map.mp hf
      exact s.key_free g hg }

end TableSchema

namespace Schema

def empty : Schema τ κ := ⟨[], [], List.Pairwise.nil⟩

def find (σ : Schema τ κ) (t : τ) : Option (TableSchema τ κ) :=
  (σ.tables.find? fun p => p.1 = t).map Prod.snd

def has (σ : Schema τ κ) (t : τ) : Bool := (σ.find t).isSome

def hasColumns (σ : Schema τ κ) (t : τ) (cs : List κ) : Bool :=
  (σ.find t).any fun s => cs.all s.has

def hasView (σ : Schema τ κ) (view : String) : Bool := σ.views.any fun v => v.1 = view

/-- Every view reads tables that are there. -/
def viewsResolve (σ : Schema τ κ) : Bool := σ.views.all fun v => v.2.all σ.has

def foreignKeys (σ : Schema τ κ) (t : τ) : List (ForeignKey τ κ) :=
  (σ.find t).elim [] TableSchema.foreignKeys

def primaryKey (σ : Schema τ κ) (t : τ) : Option κ := (σ.find t).bind TableSchema.primaryKey

/-- In its place by name, over a table of the name. -/
def insertByName {α : Type*} (t : τ) (s : α) : List (τ × α) → List (τ × α)
  | [] => [(t, s)]
  | p :: l =>
    if t < p.1 then (t, s) :: p :: l
    else if t = p.1 then (t, s) :: l
    else p :: insertByName t s l

theorem mem_insertByName {α : Type*} {t : τ} {s : α} {l : List (τ × α)} {p : τ × α}
    (h : p ∈ insertByName t s l) : p = (t, s) ∨ p ∈ l := by
  induction l with
  | nil => exact .inl (List.mem_singleton.mp h)
  | cons q l ih =>
    unfold insertByName at h
    split at h
    · exact List.mem_cons.mp h
    · split at h
      · exact (List.mem_cons.mp h).imp_right (List.mem_cons_of_mem q)
      · rcases List.mem_cons.mp h with rfl | h
        · exact .inr List.mem_cons_self
        · exact (ih h).imp_right (List.mem_cons_of_mem q)

theorem sorted_insertByName {α : Type*} {t : τ} {s : α} {l : List (τ × α)}
    (h : (l.map Prod.fst).Pairwise (· < ·)) :
    ((insertByName t s l).map Prod.fst).Pairwise (· < ·) := by
  rw [List.pairwise_map] at h ⊢
  induction l with
  | nil => exact List.pairwise_singleton _ _
  | cons q l ih =>
    obtain ⟨hfirst, hrest⟩ := List.pairwise_cons.mp h
    unfold insertByName
    split
    · rename_i hlt
      refine List.pairwise_cons.mpr ⟨fun p hp => ?_, h⟩
      rcases List.mem_cons.mp hp with rfl | hp
      · exact hlt
      · exact hlt.trans (hfirst p hp)
    · split
      · rename_i heq
        exact List.pairwise_cons.mpr ⟨fun p hp => heq ▸ hfirst p hp, hrest⟩
      · rename_i hnlt hne
        refine List.pairwise_cons.mpr ⟨fun p hp => ?_, ih hrest⟩
        rcases mem_insertByName hp with rfl | hp
        · exact lt_of_le_of_ne (not_lt.mp hnlt) (Ne.symm hne)
        · exact hfirst p hp

/-- With a table, in the place of one of its name. -/
def put (σ : Schema τ κ) (t : τ) (s : TableSchema τ κ) : Schema τ κ :=
  ⟨insertByName t s σ.tables, σ.views, sorted_insertByName σ.sorted⟩

def erase (σ : Schema τ κ) (t : τ) : Schema τ κ :=
  ⟨σ.tables.filter fun p => p.1 ≠ t, σ.views, by
    have hsub : (σ.tables.filter fun p => p.1 ≠ t).Sublist σ.tables := List.filter_sublist
    exact σ.sorted.sublist (hsub.map Prod.fst)⟩

/-- After the renaming of a table. -/
def retarget (σ : Schema τ κ) (t t' : τ) : Schema τ κ :=
  ⟨σ.tables.map fun p => (p.1, p.2.retarget t t'),
    σ.views.map fun v => (v.1, v.2.map fun u => if u = t then t' else u), by
    have hnames : (σ.tables.map fun p => (p.1, p.2.retarget t t')).map Prod.fst =
        σ.tables.map Prod.fst := by
      rw [List.map_map]
      rfl
    rw [hnames]
    exact σ.sorted⟩

end Schema

/-! ### Statements -/

inductive Statement (τ : Type u) (κ : Type v)
  | createTable (ifNotExists : Bool) (t : τ) (s : TableSchema τ κ)
  /-- `CREATE TABLE t AS SELECT columns FROM source` -/
  | createTableAs (t : τ) (columns : List κ) (source : τ)
  /-- `IF NOT EXISTS` -/
  | createIndex (t : τ) (columns : List κ)
  /-- `IF NOT EXISTS` -/
  | createTrigger (t : τ)
  /-- `IF NOT EXISTS` -/
  | createView (view : String) (tables : List τ)
  /-- `IF EXISTS` -/
  | dropView (view : String)
  /-- of an index or a trigger, `IF EXISTS` -/
  | dropOther
  | dropTable (ifExists : Bool) (t : τ)
  | addColumn (t : τ) (column : Column κ) (references : Option (τ × OnDelete))
  | dropColumn (t : τ) (c : κ)
  | renameTable (t t' : τ)
  /-- `INSERT INTO t (columns) SELECT columns FROM source` -/
  | insertSelect (t : τ) (columns : List κ) (source : τ)
  | insertOrIgnore (t : τ) (values : List (κ × Expr))
  | insert (t : τ) (values : List (κ × Expr))
  /-- `DELETE FROM t WHERE c = v` -/
  | deleteWhere (t : τ) (c : κ) (v : Value)
  /-- `UPDATE t SET sets WHERE c = v` -/
  | updateWhere (t : τ) (sets : List (κ × Expr)) (c : κ) (v : Value)

/-- **What a statement makes of the schema**; `none` when it fails. -/
def Statement.onSchema (σ : Schema τ κ) : Statement τ κ → Option (Schema τ κ)
  | .createTable ifNotExists t s =>
    if σ.has t = true then if ifNotExists = true then some σ else none else some (σ.put t s)
  | .createTableAs t columns source =>
    if σ.has t = false ∧ σ.hasColumns source columns = true then
      some (σ.put t (.ofColumns columns))
    else none
  | .createIndex t columns => if σ.hasColumns t columns = true then some σ else none
  | .createTrigger t => if σ.has t = true then some σ else none
  | .createView view tables =>
    if σ.hasView view = true then some σ
    else some ⟨σ.tables, σ.views ++ [(view, tables)], σ.sorted⟩
  | .dropView view => some ⟨σ.tables, σ.views.filter fun v => v.1 ≠ view, σ.sorted⟩
  | .dropOther => some σ
  | .dropTable ifExists t =>
    if σ.has t = true then some (σ.erase t) else if ifExists = true then some σ else none
  | .addColumn t column references =>
    (σ.find t).bind fun s => (s.addColumn column references).map (σ.put t)
  | .dropColumn t c =>
    if σ.viewsResolve = true then (σ.find t).bind fun s => (s.dropColumn c).map (σ.put t) else none
  | .renameTable t t' =>
    -- renaming reads every view again, and fails when one reads a table that is not there
    if σ.has t' = false ∧ σ.viewsResolve = true then
      (σ.find t).map fun s => ((σ.erase t).put t' s).retarget t t'
    else none
  | .insertSelect t columns source =>
    if σ.hasColumns t columns = true ∧ σ.hasColumns source columns = true then some σ else none
  | .insertOrIgnore t values | .insert t values =>
    if σ.hasColumns t (values.map Prod.fst) = true then some σ else none
  | .deleteWhere t c _ => if σ.hasColumns t [c] = true then some σ else none
  | .updateWhere t sets c _ =>
    if σ.hasColumns t (c :: sets.map Prod.fst) = true then some σ else none

/-! ### Rows -/

/-- A row, by its columns. -/
abbrev Row (κ : Type v) := κ → Value

/-- The values of some columns. -/
def pick (cs : List κ) (r : Row κ) : List Value := cs.map r

/-- The values that are given, and the defaults of the other columns. -/
def TableSchema.newRow (s : TableSchema τ κ) (now : String) (given : κ → Option Value) : Row κ :=
  fun c =>
    match s.columns.find? fun col => col.name = c with
    | none => .null
    | some col => (given c).getD (col.default.eval now)

/-- The values of the given columns. -/
def copied (columns : List κ) (r : Row κ) (c : κ) : Option Value :=
  if c ∈ columns then some (r c) else none

def written (now : String) (values : List (κ × Expr)) (c : κ) : Option Value :=
  (values.find? fun w => w.1 = c).map fun w => w.2.eval now

/-- `AUTOINCREMENT`, where no id is given. -/
def TableSchema.numbered (s : TableSchema τ κ) (last : Nat) (given : κ → Option Value) (c : κ) :
    Option Value :=
  if s.autoincrement = true ∧ s.primaryKey = some c ∧ given c = none then
    some (.integer (last + 1))
  else given c

/-- The greatest id of rows. -/
def TableSchema.lastId (s : TableSchema τ κ) (rows : List (Row κ)) : Nat :=
  rows.foldl (fun last r => max last ((s.primaryKey.map r).elim 0 Value.toId)) 0

/-! ### Deletion with foreign keys -/

/-- A foreign key of table `t`, as a column of all rows. -/
def ForeignKey.toColumn (t : τ) (f : ForeignKey τ κ) :
    ForeignKeys.Column (τ × Row κ) (τ × Value) where
  get p := if p.1 = t ∧ p.2 f.column ≠ .null then some (f.target, p.2 f.column) else none
  onDelete :=
    match f.onDelete with
    | .cascade => .cascade
    | .setNull =>
      .setNull fun p => if p.1 = t then (p.1, Function.update p.2 f.column .null) else p

theorem ForeignKey.setNull_eq {t : τ} {f : ForeignKey τ κ} {clear : τ × Row κ → τ × Row κ}
    (h : (f.toColumn t).onDelete = .setNull clear) :
    clear = fun p => if p.1 = t then (p.1, Function.update p.2 f.column .null) else p := by
  unfold toColumn at h
  dsimp only at h
  split at h
  · cases h
  · exact (ForeignKeys.OnDelete.setNull.inj h).symm

namespace Schema

omit [DecidableEq κ] in
theorem find_eq_some {σ : Schema τ κ} {t : τ} {s : TableSchema τ κ} :
    σ.find t = some s ↔ (t, s) ∈ σ.tables := by
  obtain ⟨tables, views, sorted⟩ := σ
  unfold find
  dsimp only
  induction tables with
  | nil => simp
  | cons p l ih =>
    obtain ⟨hfirst, hrest⟩ := List.pairwise_cons.mp sorted
    by_cases hp : p.1 = t
    · subst hp
      have hnot : ∀ s', (p.1, s') ∉ l := fun s' hs' =>
        lt_irrefl p.1 (hfirst p.1 (List.mem_map.mpr ⟨_, hs', rfl⟩))
      simp [hnot, Prod.ext_iff, eq_comm]
    · have hne : (t, s) ≠ p := fun h => hp (h ▸ rfl)
      simp only [List.find?_cons, hp, decide_false, List.mem_cons, hne, false_or]
      exact ih hrest

omit [DecidableEq κ] in
theorem mem_foreignKeys {σ : Schema τ κ} {p : τ × TableSchema τ κ} (h : p ∈ σ.tables) :
    σ.foreignKeys p.1 = p.2.foreignKeys := by
  rw [foreignKeys, find_eq_some.mpr h]
  rfl

/-- The rows of all tables as one table, with the foreign keys. -/
def references (σ : Schema τ κ) : ForeignKeys.Schema (τ × Row κ) (τ × Value) where
  key p := (p.1, (σ.primaryKey p.1).elim .null p.2)
  columns := σ.tables.flatMap fun p => p.2.foreignKeys.map (ForeignKey.toColumn p.1)
  get_clear := by
    intro c hc clear hclear r
    obtain ⟨p, -, hc⟩ := List.mem_flatMap.mp hc
    obtain ⟨f, -, rfl⟩ := List.mem_map.mp hc
    rw [ForeignKey.setNull_eq hclear]
    by_cases hr : r.1 = p.1
    · simp [ForeignKey.toColumn, hr]
    · simp [ForeignKey.toColumn, hr]
  get_clear_of := by
    intro c hc clear hclear d hd r
    obtain ⟨p, -, hc⟩ := List.mem_flatMap.mp hc
    obtain ⟨f, -, rfl⟩ := List.mem_map.mp hc
    obtain ⟨q, -, hd⟩ := List.mem_flatMap.mp hd
    obtain ⟨g, -, rfl⟩ := List.mem_map.mp hd
    rw [ForeignKey.setNull_eq hclear]
    by_cases hr : r.1 = p.1
    · by_cases hcolumn : g.column = f.column
      · exact .inl (by simp [ForeignKey.toColumn, hr, hcolumn])
      · exact .inr (by simp [ForeignKey.toColumn, hr, hcolumn])
    · exact .inr (by simp [hr])
  key_clear := by
    intro c hc clear hclear r
    obtain ⟨p, hp, hc⟩ := List.mem_flatMap.mp hc
    obtain ⟨f, hf, rfl⟩ := List.mem_map.mp hc
    rw [ForeignKey.setNull_eq hclear]
    by_cases hr : r.1 = p.1
    · have hkey : σ.primaryKey p.1 = p.2.primaryKey := by
        rw [primaryKey, find_eq_some.mpr hp]
        rfl
      have hfree := p.2.key_free f hf
      simp only [hr, if_true, hkey]
      cases hprimary : p.2.primaryKey with
      | none => rfl
      | some k =>
        have hne : k ≠ f.column := fun heq => hfree (by rw [hprimary, heq])
        simp [hne]
    · simp [hr]

/-- The rows of all tables, each with the name of its table. -/
def tagged (σ : Schema τ κ) (rows : τ → List (Row κ)) : List (τ × Row κ) :=
  σ.tables.flatMap fun p => (rows p.1).map fun r => (p.1, r)

/-- `DELETE FROM d` of the rows with a property, with what the foreign keys declare. -/
def deleteRows (σ : Schema τ κ) (rows : τ → List (Row κ)) (d : τ) (doomed : Row κ → Bool) :
    τ → List (Row κ) := fun t =>
  if σ.has t = true then
    ((σ.references.deleteAll (σ.tagged rows) fun p => decide (p.1 = d) && doomed p.2).filter
      fun p => decide (p.1 = t)).map Prod.snd
  else rows t

end Schema

/-! ### Execution -/

@[ext] structure Database (τ : Type u) (κ : Type v) [LinearOrder τ] where
  schema : Schema τ κ
  rows : τ → List (Row κ)
  /-- `sqlite_sequence`: the last id of each table -/
  seq : τ → Nat

namespace Statement

/-- What a statement that does not fail makes of the rows. -/
def onRows (now : String) (db : Database τ κ) : Statement τ κ → τ → List (Row κ)
  | .createTable _ t _ => if db.schema.has t = true then db.rows else Function.update db.rows t []
  | .createTableAs t columns source =>
    Function.update db.rows t ((db.rows source).map fun r =>
      (TableSchema.ofColumns columns : TableSchema τ κ).newRow now (copied columns r))
  | .dropTable _ t =>
    -- every row of the table is deleted first
    if db.schema.has t = true then
      Function.update (db.schema.deleteRows db.rows t fun _ => true) t []
    else db.rows
  | .addColumn t column _ =>
    Function.update db.rows t ((db.rows t).map fun r =>
      Function.update r column.name (column.default.eval now))
  | .dropColumn t c =>
    Function.update db.rows t ((db.rows t).map fun r => Function.update r c .null)
  | .renameTable t t' => Function.update (Function.update db.rows t' (db.rows t)) t []
  | .insertSelect t columns source =>
    Function.update db.rows t (db.rows t ++ (db.rows source).map fun r =>
      (db.schema.find t).elim r fun s => s.newRow now (copied columns r))
  | .insertOrIgnore t values =>
    Function.update db.rows t ((db.schema.find t).elim (db.rows t) fun s =>
      if (db.rows t).any fun r =>
          s.primaryKey.any fun k => (written now values k).any (r k).equals then
        db.rows t
      else db.rows t ++ [s.newRow now (written now values)])
  | .insert t values =>
    Function.update db.rows t ((db.schema.find t).elim (db.rows t) fun s =>
      db.rows t ++ [s.newRow now (s.numbered (db.seq t) (written now values))])
  | .deleteWhere t c v => db.schema.deleteRows db.rows t fun r => (r c).equals v
  | .updateWhere t sets c v =>
    Function.update db.rows t ((db.rows t).map fun r =>
      if (r c).equals v = true then fun k => (written now sets k).getD (r k) else r)
  | _ => db.rows

/-- What it makes of the last ids. -/
def onSeq (now : String) (db : Database τ κ) : Statement τ κ → τ → Nat
  | .createTable _ t _ => if db.schema.has t = true then db.seq else Function.update db.seq t 0
  | .createTableAs t _ _ => Function.update db.seq t 0
  | .dropTable _ t => Function.update db.seq t 0
  | .renameTable t t' => Function.update (Function.update db.seq t' (db.seq t)) t 0
  | .insertSelect t columns source =>
    Function.update db.seq t (max (db.seq t) ((db.schema.find t).elim 0 fun s =>
      s.lastId ((db.rows source).map fun r => s.newRow now (copied columns r))))
  | .insert t _ => Function.update db.seq t (db.seq t + 1)
  | _ => db.seq

end Statement

/-- The columns of a table and its rows, as `SELECT *` reads them. -/
def Database.contents (db : Database τ κ) (t : τ) : Option (List κ × List (List Value)) :=
  (db.schema.find t).map fun s =>
    (s.columns.map Column.name, (db.rows t).map (pick (s.columns.map Column.name)))

/-- Executes a statement; `none` when it fails, and then nothing has changed. -/
def exec (now : String) (s : Statement τ κ) (db : Database τ κ) : Option (Database τ κ) :=
  (s.onSchema db.schema).map fun σ => ⟨σ, s.onRows now db, s.onSeq now db⟩

/-- One statement after the other, until one fails. -/
def execAll (now : String) : List (Statement τ κ) → Database τ κ →
    Except (Database τ κ) (Database τ κ)
  | [], db => .ok db
  | s :: rest, db =>
    match exec now s db with
    | none => .error db
    | some db' => execAll now rest db'

/-- What the statements make of the schema. -/
def schemaAll : List (Statement τ κ) → Schema τ κ → Option (Schema τ κ)
  | [], σ => some σ
  | s :: rest, σ => (s.onSchema σ).bind (schemaAll rest)

/-! ### The schema decides -/

section

variable {now : String} {s : Statement τ κ} {l l' : List (Statement τ κ)} {σ : Schema τ κ}
  {db db' : Database τ κ}

theorem exec_eq_some : exec now s db = some db' ↔
    s.onSchema db.schema = some db'.schema ∧ db'.rows = s.onRows now db ∧
      db'.seq = s.onSeq now db := by
  unfold exec
  rw [Option.map_eq_some_iff]
  constructor
  · rintro ⟨σ, hσ, rfl⟩
    exact ⟨hσ, rfl, rfl⟩
  · rintro ⟨hσ, hrows, hseq⟩
    refine ⟨_, hσ, ?_⟩
    rw [← hrows, ← hseq]

theorem exec_eq_none : exec now s db = none ↔ s.onSchema db.schema = none := by
  unfold exec
  exact Option.map_eq_none_iff

@[simp] theorem execAll_nil (now : String) : execAll now [] db = .ok db := rfl

theorem execAll_of_exec (h : exec now s db = some db') :
    execAll now (s :: l) db = execAll now l db' := by
  rw [execAll, h]

theorem execAll_of_fails (h : exec now s db = none) : execAll now (s :: l) db = .error db := by
  rw [execAll, h]

theorem execAll_cons : execAll now (s :: l) db = .ok db' ↔
    ∃ db₁, exec now s db = some db₁ ∧ execAll now l db₁ = .ok db' := by
  cases hexec : exec now s db with
  | none => simp [execAll_of_fails hexec]
  | some db₁ => simp [execAll_of_exec hexec]

theorem execAll_append : execAll now (l ++ l') db =
    match execAll now l db with
    | .error db' => .error db'
    | .ok db' => execAll now l' db' := by
  induction l generalizing db with
  | nil => rfl
  | cons s l ih =>
    rw [List.cons_append]
    cases hexec : exec now s db with
    | none => rw [execAll_of_fails hexec, execAll_of_fails hexec]
    | some db₁ =>
      rw [execAll_of_exec hexec, execAll_of_exec hexec]
      exact ih

theorem execAll_append_ok (h : execAll now l db = .ok db') :
    execAll now (l ++ l') db = execAll now l' db' := by
  rw [execAll_append, h]

theorem execAll_append_eq_ok : execAll now (l ++ l') db = .ok db' ↔
    ∃ db₁, execAll now l db = .ok db₁ ∧ execAll now l' db₁ = .ok db' := by
  rw [execAll_append]
  cases execAll now l db with
  | error db₁ => simp
  | ok db₁ => simp

theorem execAll_concat : execAll now (l ++ [s]) db = .ok db' ↔
    ∃ db₁, execAll now l db = .ok db₁ ∧ exec now s db₁ = some db' := by
  rw [execAll_append_eq_ok]
  refine exists_congr fun db₁ => and_congr_right fun _ => ?_
  rw [execAll_cons]
  simp

theorem schemaAll_cons : schemaAll (s :: l) σ = (s.onSchema σ).bind (schemaAll l) := rfl

theorem schemaAll_append : schemaAll (l ++ l') σ = (schemaAll l σ).bind (schemaAll l') := by
  induction l generalizing σ with
  | nil => rfl
  | cons s l ih =>
    rw [List.cons_append, schemaAll_cons, schemaAll_cons]
    cases s.onSchema σ with
    | none => rfl
    | some σ' => exact ih

/-- **Whether statements succeed, and the schema that they leave, the schema decides.** -/
theorem schemaAll_of_ok (h : execAll now l db = .ok db') :
    schemaAll l db.schema = some db'.schema := by
  induction l generalizing db with
  | nil =>
    cases h
    rfl
  | cons s l ih =>
    obtain ⟨db₁, hexec, hrest⟩ := execAll_cons.mp h
    rw [schemaAll_cons, (exec_eq_some.mp hexec).1]
    exact ih hrest

theorem ok_of_schemaAll (now : String) (h : schemaAll l db.schema = some σ) :
    ∃ db', execAll now l db = .ok db' ∧ db'.schema = σ := by
  induction l generalizing db with
  | nil =>
    cases h
    exact ⟨db, rfl, rfl⟩
  | cons s l ih =>
    rw [schemaAll_cons] at h
    cases hexec : exec now s db with
    | none =>
      rw [exec_eq_none.mp hexec] at h
      simp at h
    | some db₁ =>
      rw [(exec_eq_some.mp hexec).1] at h
      rw [execAll_of_exec hexec]
      exact ih h

theorem error_of_schemaAll (now : String) (h : schemaAll l db.schema = none) :
    ∃ db', execAll now l db = .error db' := by
  cases hexec : execAll now l db with
  | error db' => exact ⟨db', rfl⟩
  | ok db' =>
    rw [schemaAll_of_ok hexec] at h
    cases h

end

end Montr.Sql
