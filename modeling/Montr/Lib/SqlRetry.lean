import Montr.Lib.SqlFrames

namespace Montr.Sql

/-!
# Statements executed again

* `Repeatable` — executing the statements once more changes nothing, and they read no clock;
* `execAll_resume` — **a list that starts with such statements may stop after them and be executed
  from the beginning**;
* `repeatable_of_creates` — statements that create what is not there;
* `repeatable_rebuild` — a table that is copied into a new one of its name, and such statements.
-/

universe u v

variable {τ : Type u} {κ : Type v} [LinearOrder τ] [DecidableEq κ]

/-- Executed on the schema, the statements do the same at every time, and nothing when they are
    executed once more. -/
def Repeatable (l : List (Statement τ κ)) (σ : Schema τ κ) : Prop :=
  ∀ now now' db db', db.schema = σ → execAll now l db = .ok db' →
    execAll now' l db = .ok db' ∧ execAll now' l db' = .ok db'

/-- **What stopped after repeatable statements is made up for from the beginning.** -/
theorem execAll_resume {now : String} {l : List (Statement τ κ)} {db db' : Database τ κ}
    (now' : String) (rest : List (Statement τ κ)) (h : Repeatable l db.schema)
    (hexec : execAll now l db = .ok db') :
    execAll now' (l ++ rest) db' = execAll now' (l ++ rest) db := by
  obtain ⟨hsame, hagain⟩ := h now now' db db' rfl hexec
  rw [execAll_append_ok hsame, execAll_append_ok hagain]

theorem Repeatable.nil {σ : Schema τ κ} : Repeatable [] σ := by
  intro now now' db db' _ h
  cases h
  exact ⟨rfl, rfl⟩

/-- A statement that does nothing after the others may be added. -/
theorem Repeatable.concat {l : List (Statement τ κ)} {s : Statement τ κ} {σ : Schema τ κ}
    (h : Repeatable l σ) (idle : ∀ now now' db db', db.schema = σ →
      execAll now l db = .ok db' → exec now' s db' = some db') : Repeatable (l ++ [s]) σ := by
  have hidle : ∀ now now' db db', db.schema = σ → execAll now l db = .ok db' →
      execAll now' [s] db' = .ok db' := by
    intro now now' db db' hdb hexec
    exact execAll_of_exec (idle now now' db db' hdb hexec)
  intro now now' db db' hdb hexec
  obtain ⟨db₁, hl, hs⟩ := execAll_concat.mp hexec
  obtain rfl : db₁ = db' := by
    rw [idle now now db db₁ hdb hl] at hs
    exact Option.some.inj hs
  obtain ⟨hsame, hagain⟩ := h now now' db db₁ hdb hl
  rw [execAll_append_ok hsame, execAll_append_ok hagain]
  exact ⟨hidle now now' db db₁ hdb hl, hidle now now' db db₁ hdb hl⟩

/-! ### Tables by name -/

namespace Schema

variable {σ : Schema τ κ} {t n : τ} {s : TableSchema τ κ}

omit [DecidableEq κ] in
theorem find?_insertByName_self {l : List (τ × TableSchema τ κ)} :
    (insertByName t s l).find? (fun p => p.1 = t) = some (t, s) := by
  induction l with
  | nil => simp [insertByName]
  | cons p l ih =>
    unfold insertByName
    split
    · simp
    · split
      · simp
      · rename_i hne
        rw [List.find?_cons_of_neg (by simpa using Ne.symm hne)]
        exact ih

omit [DecidableEq κ] in
theorem find?_insertByName_of_ne {l : List (τ × TableSchema τ κ)} (h : n ≠ t) :
    (insertByName t s l).find? (fun p => p.1 = n) = l.find? fun p => p.1 = n := by
  have hnt : t ≠ n := Ne.symm h
  induction l with
  | nil => simp [insertByName, hnt]
  | cons p l ih =>
    unfold insertByName
    split
    · simp [hnt]
    · split
      · rename_i heq
        have hp : p.1 ≠ n := by rwa [← heq]
        simp [hnt, hp]
      · rw [List.find?_cons, List.find?_cons, ih]

omit [DecidableEq κ] in
@[simp] theorem find_put : (σ.put t s).find n = if n = t then some s else σ.find n := by
  show ((insertByName t s σ.tables).find? fun p => p.1 = n).map Prod.snd = _
  by_cases h : n = t
  · subst h
    rw [find?_insertByName_self, if_pos rfl]
    rfl
  · rw [find?_insertByName_of_ne h, if_neg h]
    rfl

omit [DecidableEq κ] in
@[simp] theorem find_erase : (σ.erase t).find n = if n = t then none else σ.find n := by
  show ((σ.tables.filter fun p => decide (p.1 ≠ t)).find?
    fun p => decide (p.1 = n)).map Prod.snd = _
  rw [List.find?_filter]
  by_cases h : n = t
  · subst h
    rw [if_pos rfl, List.find?_eq_none.mpr (by simp)]
    rfl
  · rw [if_neg h]
    unfold find
    congr 2
    ext p
    by_cases hp : p.1 = n
    · simp [hp, h]
    · simp [hp]

omit [DecidableEq κ] in
@[simp] theorem find_retarget {t' : τ} :
    (σ.retarget t t').find n = (σ.find n).map fun s => s.retarget t t' := by
  show ((σ.tables.map fun p => (p.1, p.2.retarget t t')).find? _).map Prod.snd =
    ((σ.tables.find? _).map Prod.snd).map _
  rw [List.find?_map, Option.map_map, Option.map_map]
  rfl

omit [DecidableEq κ] in
theorem has_eq_false : σ.has t = false ↔ σ.find t = none := by
  unfold has
  simp

omit [DecidableEq κ] in
theorem foreignKeys_put_of_ne (h : n ≠ t) : (σ.put t s).foreignKeys n = σ.foreignKeys n := by
  simp [foreignKeys, h]

omit [DecidableEq κ] in
theorem primaryKey_put_of_ne (h : n ≠ t) : (σ.put t s).primaryKey n = σ.primaryKey n := by
  simp [primaryKey, h]

end Schema

/-! ### Creating what is not there -/

namespace Statement

/-- The statement creates something, if it is not there. -/
def creates : Statement τ κ → Bool
  | .createTable ifNotExists _ _ => ifNotExists
  | .createIndex _ _ | .createTrigger _ | .createView _ _ => true
  | _ => false

/-- What it creates is there, or can be seen to be. -/
def stands (σ : Schema τ κ) : Statement τ κ → Bool
  | .createTable _ t _ | .createTrigger t => σ.has t
  | .createIndex t columns => σ.hasColumns t columns
  | .createView view _ => σ.hasView view
  | _ => false

variable {now now' : String} {s : Statement τ κ} {σ σ' : Schema τ κ} {db db' : Database τ κ}

theorem exec_of_stands (hcreates : s.creates = true) (h : s.stands db.schema = true) :
    exec now s db = some db := by
  rw [exec_eq_some]
  cases s with
  | createTable ifNotExists t s =>
    replace hcreates : ifNotExists = true := hcreates
    replace h : db.schema.has t = true := h
    exact ⟨by simp [onSchema, h, hcreates], (if_pos h).symm, (if_pos h).symm⟩
  | createIndex t columns =>
    replace h : db.schema.hasColumns t columns = true := h
    exact ⟨by simp [onSchema, h], rfl, rfl⟩
  | createTrigger t =>
    replace h : db.schema.has t = true := h
    exact ⟨by simp [onSchema, h], rfl, rfl⟩
  | createView view tables =>
    replace h : db.schema.hasView view = true := h
    exact ⟨by simp [onSchema, h], rfl, rfl⟩
  | _ => cases hcreates

theorem exec_creates_now (now now' : String) (hcreates : s.creates = true) :
    exec now s db = exec now' s db := by
  cases s with
  | createTable _ _ _ | createIndex _ _ | createTrigger _ | createView _ _ => rfl
  | _ => cases hcreates

/-- A table that is not there is created without rows. -/
theorem exec_createTable_of_new {ifNotExists : Bool} {t : τ} {S : TableSchema τ κ}
    (hnew : ¬ db.schema.has t = true) (h : exec now (.createTable ifNotExists t S) db = some db') :
    db' = ⟨db.schema.put t S, Function.update db.rows t [], Function.update db.seq t 0⟩ := by
  obtain ⟨hschema, hrows, hseq⟩ := exec_eq_some.mp h
  replace hschema : db.schema.put t S = db'.schema := by simpa [onSchema, hnew] using hschema
  ext1
  · exact hschema.symm
  · exact hrows.trans (if_neg hnew)
  · exact hseq.trans (if_neg hnew)

/-- **What a creation does**: nothing, or another table without rows, or another view. -/
theorem exec_creates (hcreates : s.creates = true) (h : exec now s db = some db') :
    (s.stands db.schema = true ∧ db' = db) ∨
      (∃ t S, s = .createTable true t S ∧ db.schema.find t = none ∧ db' =
        ⟨db.schema.put t S, Function.update db.rows t [], Function.update db.seq t 0⟩) ∨
      ∃ view tables, s = .createView view tables ∧ db' = ⟨⟨db.schema.tables,
        db.schema.views ++ [(view, tables)], db.schema.sorted⟩, db.rows, db.seq⟩ := by
  by_cases hstands : s.stands db.schema = true
  · rw [exec_of_stands hcreates hstands] at h
    exact .inl ⟨hstands, (Option.some.inj h).symm⟩
  · cases s with
    | createTable ifNotExists t S =>
      obtain rfl : ifNotExists = true := hcreates
      replace hstands : ¬ db.schema.has t = true := hstands
      refine .inr (.inl ⟨t, S, rfl, Schema.has_eq_false.mp (by simpa using hstands), ?_⟩)
      exact exec_createTable_of_new hstands h
    | createIndex t columns =>
      replace hstands : ¬ db.schema.hasColumns t columns = true := hstands
      simp [exec, onSchema, hstands] at h
    | createTrigger t =>
      replace hstands : ¬ db.schema.has t = true := hstands
      simp [exec, onSchema, hstands] at h
    | createView view tables =>
      replace hstands : ¬ db.schema.hasView view = true := hstands
      refine .inr (.inr ⟨view, tables, rfl, ?_⟩)
      obtain ⟨hschema, hrows, hseq⟩ := exec_eq_some.mp h
      ext1
      · simpa [onSchema, hstands, eq_comm] using hschema
      · exact hrows
      · exact hseq
    | _ => cases hcreates

/-- Tables stay where something is created. -/
theorem find_of_creates {t : τ} {S : TableSchema τ κ} (hcreates : s.creates = true)
    (h : exec now s db = some db') (hfind : db.schema.find t = some S) :
    db'.schema.find t = some S := by
  rcases exec_creates hcreates h with ⟨-, rfl⟩ | ⟨t', S', -, hnone, rfl⟩ | ⟨_, _, -, rfl⟩
  · exact hfind
  · have hne : t ≠ t' := by
      rintro rfl
      rw [hnone] at hfind
      cases hfind
    rw [Schema.find_put, if_neg hne]
    exact hfind
  · exact hfind

theorem stands_of_exec (hcreates : s.creates = true) (h : exec now s db = some db') :
    s.stands db'.schema = true := by
  rcases exec_creates hcreates h with
    ⟨hstands, rfl⟩ | ⟨t, S, rfl, -, rfl⟩ | ⟨view, tables, rfl, rfl⟩
  · exact hstands
  · show (db.schema.put t S).has t = true
    simp [Schema.has]
  · show Schema.hasView _ view = true
    simp [Schema.hasView]

theorem stands_of_creates {s' : Statement τ κ} (hcreates : s.creates = true)
    (h : exec now s db = some db') (hstands : s'.stands db.schema = true) :
    s'.stands db'.schema = true := by
  have hhas : ∀ t, db.schema.has t = true → db'.schema.has t = true := by
    intro t ht
    obtain ⟨S, hS⟩ := Option.isSome_iff_exists.mp ht
    exact Option.isSome_iff_exists.mpr ⟨S, find_of_creates hcreates h hS⟩
  cases s' with
  | createTable _ t _ => exact hhas t hstands
  | createTrigger t => exact hhas t hstands
  | createIndex t columns =>
    obtain ⟨S, hS, hcolumns⟩ := Option.any_eq_true _ _ |>.mp hstands
    exact (Option.any_eq_true _ _).mpr ⟨S, find_of_creates hcreates h hS, hcolumns⟩
  | createView view tables =>
    rcases exec_creates hcreates h with ⟨-, rfl⟩ | ⟨_, _, -, -, rfl⟩ | ⟨_, _, -, rfl⟩
    · exact hstands
    · exact hstands
    · replace hstands : db.schema.views.any (fun v => decide (v.1 = view)) = true := hstands
      show (db.schema.views ++ _).any (fun v => decide (v.1 = view)) = true
      rw [List.any_append, hstands, Bool.true_or]
  | _ => cases hstands

end Statement

section Creates

variable {now now' : String} {l : List (Statement τ κ)} {σ σ' : Schema τ κ} {db db' : Database τ κ}

theorem execAll_creates_now (h : ∀ s ∈ l, s.creates = true) :
    execAll now l db = execAll now' l db := by
  induction l generalizing db with
  | nil => rfl
  | cons s l ih =>
    have hnow : exec now s db = exec now' s db :=
      Statement.exec_creates_now now now' (h s List.mem_cons_self)
    cases hexec : exec now' s db with
    | none => rw [execAll_of_fails hexec, execAll_of_fails (hnow.trans hexec)]
    | some db₁ =>
      rw [execAll_of_exec hexec, execAll_of_exec (hnow.trans hexec)]
      exact ih fun s' hs' => h s' (List.mem_cons_of_mem s hs')

/-- Everything that is created stands afterwards, with what stood before. -/
theorem stands_of_execAll {s' : Statement τ κ} (h : ∀ s ∈ l, s.creates = true)
    (hl : execAll now l db = .ok db') (hs' : s' ∈ l ∨ s'.stands db.schema = true) :
    s'.stands db'.schema = true := by
  induction l generalizing db with
  | nil =>
    obtain rfl := Except.ok.inj hl
    exact hs'.resolve_left List.not_mem_nil
  | cons s l ih =>
    have hs := h s List.mem_cons_self
    obtain ⟨db₁, hexec, hl⟩ := execAll_cons.mp hl
    refine ih (fun s hs => h s (List.mem_cons_of_mem _ hs)) hl ?_
    rcases hs' with hmem | hstands
    · rcases List.mem_cons.mp hmem with rfl | hmem
      · exact .inr (Statement.stands_of_exec hs hexec)
      · exact .inl hmem
    · exact .inr (Statement.stands_of_creates hs hexec hstands)

theorem execAll_of_stands (h : ∀ s ∈ l, s.creates = true ∧ s.stands db.schema = true) :
    execAll now l db = .ok db := by
  induction l with
  | nil => rfl
  | cons s l ih =>
    obtain ⟨hcreates, hstands⟩ := h s List.mem_cons_self
    rw [execAll_of_exec (Statement.exec_of_stands hcreates hstands)]
    exact ih fun s' hs' => h s' (List.mem_cons_of_mem s hs')

/-- **Statements that create what is not there are repeatable.** -/
theorem repeatable_of_creates (h : ∀ s ∈ l, s.creates = true) : Repeatable l σ := by
  intro now now' db db' _ hexec
  refine ⟨(execAll_creates_now h).trans hexec, execAll_of_stands fun s hs => ⟨h s hs, ?_⟩⟩
  exact stands_of_execAll h hexec (.inl hs)

/-- Tables that are created are without rows. -/
theorem rows_of_creates (h : ∀ s ∈ l, s.creates = true) (hl : execAll now l db = .ok db')
    (hrows : ∀ t, db.schema.has t = true → db.rows t = []) :
    ∀ t, db'.schema.has t = true → db'.rows t = [] := by
  induction l generalizing db with
  | nil =>
    obtain rfl := Except.ok.inj hl
    exact hrows
  | cons s l ih =>
    obtain ⟨db₁, hexec, hl⟩ := execAll_cons.mp hl
    refine ih (fun s hs => h s (List.mem_cons_of_mem _ hs)) hl ?_
    rcases Statement.exec_creates (h s List.mem_cons_self) hexec with
      ⟨-, rfl⟩ | ⟨t, S, -, -, rfl⟩ | ⟨_, _, -, rfl⟩
    · exact hrows
    · intro u hu
      dsimp only at hu ⊢
      by_cases hut : u = t
      · rw [hut, Function.update_self]
      · rw [Function.update_of_ne hut]
        rw [Schema.has, Schema.find_put, if_neg hut] at hu
        exact hrows u hu
    · exact hrows

end Creates

/-! ### Copying a table into a new one of its name -/

/-- A new table, the rows copied, the old table dropped and its name taken. -/
def rebuild (old new : τ) (S : TableSchema τ κ) (columns : List κ) : List (Statement τ κ) :=
  [.createTable false new S, .insertSelect new columns old, .dropTable false old,
    .renameTable new old]

/-- The copies. -/
def TableSchema.copies (S : TableSchema τ κ) (now : String) (columns : List κ)
    (rows : List (Row κ)) : List (Row κ) := rows.map fun r => S.newRow now (copied columns r)

section Rebuild

variable {now now' : String} {old new t t' : τ} {S : TableSchema τ κ} {columns : List κ}
  {σ σ' : Schema τ κ} {db db' : Database τ κ} {l : List (Statement τ κ)}

theorem exec_createTable (h : exec now (.createTable false t S) db = some db') :
    db' = ⟨db.schema.put t S, Function.update db.rows t [], Function.update db.seq t 0⟩ := by
  have hnew : ¬ db.schema.has t = true := by
    intro hhas
    simp [exec, Statement.onSchema, hhas] at h
  exact Statement.exec_createTable_of_new hnew h

theorem exec_insertSelect (hfind : db.schema.find t = some S)
    (h : exec now (.insertSelect t columns t') db = some db') :
    db' = ⟨db.schema,
      Function.update db.rows t (db.rows t ++ S.copies now columns (db.rows t')),
      Function.update db.seq t
        (max (db.seq t) (S.lastId (S.copies now columns (db.rows t'))))⟩ := by
  obtain ⟨hschema, hrows, hseq⟩ := exec_eq_some.mp h
  simp only [Statement.onSchema, Option.ite_none_right_eq_some, Option.some.injEq] at hschema
  ext1
  · exact hschema.2.symm
  · rw [hrows]
    show Function.update db.rows t (db.rows t ++ (db.rows t').map fun r =>
      (db.schema.find t).elim r fun s => s.newRow now (copied columns r)) = _
    rw [hfind]
    rfl
  · rw [hseq]
    show Function.update db.seq t (max (db.seq t) ((db.schema.find t).elim 0 fun s =>
      s.lastId (s.copies now columns (db.rows t')))) = _
    rw [hfind]
    rfl

theorem exec_dropTable (h : exec now (.dropTable false t) db = some db') :
    db.schema.has t = true ∧ db' = ⟨db.schema.erase t,
      Function.update (db.schema.deleteRows db.rows t fun _ => true) t [],
      Function.update db.seq t 0⟩ := by
  have hhas : db.schema.has t = true := by
    by_contra hnot
    simp [exec, Statement.onSchema, hnot] at h
  refine ⟨hhas, ?_⟩
  obtain ⟨hschema, hrows, hseq⟩ := exec_eq_some.mp h
  ext1
  · simpa [Statement.onSchema, hhas, eq_comm] using hschema
  · exact hrows.trans (if_pos hhas)
  · exact hseq

theorem exec_renameTable (h : exec now (.renameTable t t') db = some db') :
    ∃ s, db.schema.find t = some s ∧ db' = ⟨((db.schema.erase t).put t' s).retarget t t',
      Function.update (Function.update db.rows t' (db.rows t)) t [],
      Function.update (Function.update db.seq t' (db.seq t)) t 0⟩ := by
  obtain ⟨hschema, hrows, hseq⟩ := exec_eq_some.mp h
  simp only [Statement.onSchema, Option.ite_none_right_eq_some, Option.map_eq_some_iff] at hschema
  obtain ⟨-, s, hs, hschema⟩ := hschema
  obtain ⟨schema, rows, seq⟩ := db'
  simp only at hschema hrows hseq
  exact ⟨s, hs, by rw [← hschema, hrows, hseq]; rfl⟩

/-- **What a rebuild leaves**, if dropping the old table does not reach the copies. -/
theorem rebuild_spec (h : execAll now (rebuild old new S columns) db = .ok db')
    (spares : (db.schema.put new S).spares old new = true) :
    db.schema.has old = true ∧
      db'.schema = (((((db.schema.put new S).erase old).erase new).put old S).retarget new old) ∧
      (∀ t, db'.rows t =
        if t = new then []
        else if t = old then S.copies now columns (db.rows old)
        else (db.schema.put new S).deleteRows
          (Function.update db.rows new (S.copies now columns (db.rows old))) old
          (fun _ => true) t) ∧
      ∀ t, db'.seq t =
        if t = new then 0
        else if t = old then S.lastId (S.copies now columns (db.rows old))
        else db.seq t := by
  have hne : new ≠ old := Schema.ne_of_spares spares
  obtain ⟨db₁, h₁, h⟩ := execAll_cons.mp h
  obtain ⟨db₂, h₂, h⟩ := execAll_cons.mp h
  obtain ⟨db₃, h₃, h⟩ := execAll_cons.mp h
  obtain ⟨db₄, h₄, h⟩ := execAll_cons.mp h
  obtain rfl := Except.ok.inj h
  obtain rfl := exec_createTable h₁
  obtain rfl := exec_insertSelect (S := S) (by simp) h₂
  obtain ⟨hold, rfl⟩ := exec_dropTable h₃
  obtain ⟨s, hs, rfl⟩ := exec_renameTable h₄
  have hcopies : Function.update (Function.update db.rows new []) new
      (Function.update db.rows new [] new ++
        S.copies now columns (Function.update db.rows new [] old)) =
      Function.update db.rows new (S.copies now columns (db.rows old)) := by
    rw [Function.update_idem, Function.update_self, Function.update_of_ne (Ne.symm hne),
      List.nil_append]
  dsimp only at hold hs ⊢
  obtain rfl : S = s := by simpa [hne] using hs
  have hhas : db.schema.has old = true := by
    simpa [Schema.has, Ne.symm hne] using hold
  refine ⟨hhas, rfl, fun t => ?_, fun t => ?_⟩
  · rw [hcopies]
    by_cases htnew : t = new
    · rw [if_pos htnew, htnew, Function.update_self]
    · rw [if_neg htnew, Function.update_of_ne htnew]
      by_cases htold : t = old
      · rw [if_pos htold, htold, Function.update_self, Function.update_of_ne hne,
          Schema.deleteRows_of_spares spares, Function.update_self]
      · rw [if_neg htold, Function.update_of_ne htold, Function.update_of_ne htold]
  · by_cases htnew : t = new
    · rw [if_pos htnew, htnew, Function.update_self]
    · rw [if_neg htnew, Function.update_of_ne htnew]
      by_cases htold : t = old
      · rw [if_pos htold, htold, Function.update_self, Function.update_of_ne hne,
          Function.update_self]
        simp [Ne.symm hne]
      · rw [if_neg htold, Function.update_of_ne htold, Function.update_of_ne htold,
          Function.update_of_ne htnew, Function.update_of_ne htnew]

/-- **What a rebuild needs of the schema**: the copies are out of reach of what dropping the old
    table deletes, nothing refers to the new table, the other columns have constant defaults, and
    the primary key is copied. -/
structure Rebuildable (σ : Schema τ κ) (old new : τ) (S : TableSchema τ κ) (columns : List κ) :
    Prop where
  spares : (σ.put new S).spares old new = true
  free : σ.unreferenced new = true
  timeless : ∀ c ∈ S.columns, c.name ∈ columns ∨ c.default ≠ .now
  key : S.primaryKey = σ.primaryKey old
  key_copied : ∀ k ∈ S.primaryKey, k ∈ columns ∧ S.has k = true

instance {σ : Schema τ κ} {old new : τ} {S : TableSchema τ κ} {columns : List κ} :
    Decidable (Rebuildable σ old new S columns) :=
  decidable_of_iff
    (((σ.put new S).spares old new = true ∧ σ.unreferenced new = true) ∧
      (∀ c ∈ S.columns, c.name ∈ columns ∨ c.default ≠ .now) ∧
        S.primaryKey = σ.primaryKey old ∧ ∀ k ∈ S.primaryKey, k ∈ columns ∧ S.has k = true)
    ⟨fun ⟨⟨h₁, h₂⟩, h₃, h₄, h₅⟩ => ⟨h₁, h₂, h₃, h₄, h₅⟩,
      fun h => ⟨⟨h.spares, h.free⟩, h.timeless, h.key, h.key_copied⟩⟩

/-- The state after a rebuild, which another one leaves as it is. -/
structure Rebuilt (old new : τ) (S : TableSchema τ κ) (columns : List κ) (db : Database τ κ) :
    Prop where
  there : db.schema.has old = true
  rows_new : db.rows new = []
  seq_new : db.seq new = 0
  copied : ∀ now, S.copies now columns (db.rows old) = db.rows old
  seq_old : db.seq old = S.lastId (db.rows old)
  unreferring : ∀ t, t ≠ old → ∀ f ∈ db.schema.foreignKeys t, ∀ r ∈ db.rows t,
    db.schema.Unreferring db.rows old (fun _ => true) f r

/-! ### Copies -/

section

variable {r : Row κ} (timeless : ∀ c ∈ S.columns, c.name ∈ columns ∨ c.default ≠ .now)

include timeless

omit [LinearOrder τ] [DecidableEq κ] in
theorem default_eval {c : Column κ} (hc : c ∈ S.columns) (hnot : c.name ∉ columns) :
    c.default.eval now = c.default.eval now' := by
  have hne := (timeless c hc).resolve_left hnot
  cases hdefault : c.default with
  | const v => rfl
  | now => exact absurd hdefault hne

omit [LinearOrder τ] in
theorem newRow_now (now now' : String) :
    S.newRow now (copied columns r) = S.newRow now' (copied columns r) := by
  ext c
  unfold TableSchema.newRow copied
  split
  · rfl
  · rename_i col hcol
    have hname : col.name = c := by simpa using List.find?_some hcol
    split
    · rfl
    · rename_i hnot
      exact default_eval timeless (List.mem_of_find?_eq_some hcol) (hname ▸ hnot)

omit [LinearOrder τ] in
theorem newRow_newRow : S.newRow now' (copied columns (S.newRow now (copied columns r))) =
    S.newRow now (copied columns r) := by
  rw [newRow_now timeless now' now]
  ext c
  by_cases hc : c ∈ columns
  · have hcopied : copied columns (S.newRow now (copied columns r)) c =
        some (S.newRow now (copied columns r) c) := if_pos hc
    rw [TableSchema.newRow, hcopied]
    unfold TableSchema.newRow
    split <;> rfl
  · have hnone : ∀ r' : Row κ, copied columns r' c = none := fun r' => if_neg hc
    unfold TableSchema.newRow
    rw [hnone, hnone]

omit [LinearOrder τ] in
theorem copies_now (now now' : String) (rows : List (Row κ)) :
    S.copies now columns rows = S.copies now' columns rows :=
  List.map_congr_left fun _ _ => newRow_now timeless now now'

omit [LinearOrder τ] in
theorem copies_copies {rows : List (Row κ)} :
    S.copies now' columns (S.copies now columns rows) = S.copies now columns rows := by
  unfold TableSchema.copies
  rw [List.map_map]
  exact List.map_congr_left fun _ _ => newRow_newRow timeless

end

omit [LinearOrder τ] in
theorem newRow_copied {r : Row κ} {k : κ} (hk : k ∈ columns) (hhas : S.has k = true) :
    S.newRow now (copied columns r) k = r k := by
  have hsome : (S.columns.find? fun col => col.name = k).isSome = true := by
    rw [List.find?_isSome]
    simpa [TableSchema.has] using hhas
  obtain ⟨col, hcol⟩ := Option.isSome_iff_exists.mp hsome
  rw [TableSchema.newRow, hcol, copied, if_pos hk]
  rfl

/-! ### Once and once more -/

theorem rebuild_now (rebuildable : Rebuildable db.schema old new S columns)
    (h : execAll now (rebuild old new S columns) db = .ok db') :
    execAll now' (rebuild old new S columns) db = .ok db' := by
  obtain ⟨db'', h'', hschema⟩ := ok_of_schemaAll now' (schemaAll_of_ok h)
  obtain ⟨-, -, hrows, hseq⟩ := rebuild_spec h rebuildable.spares
  obtain ⟨-, -, hrows'', hseq''⟩ := rebuild_spec h'' rebuildable.spares
  have hcopies := copies_now rebuildable.timeless now now' (db.rows old)
  have hsame : db'' = db' := by
    ext1
    · exact hschema
    · ext1 t
      rw [hrows, hrows'', hcopies]
    · ext1 t
      rw [hseq, hseq'', hcopies]
  rw [h'', hsame]

omit [DecidableEq κ] in
theorem foreignKeys_rebuild
    (h : σ' = (((((σ.put new S).erase old).erase new).put old S).retarget new old))
    (ht : t ≠ old) (htnew : t ≠ new) : σ'.foreignKeys t = ((σ.put new S).foreignKeys t).map fun f =>
      { f with target := if f.target = new then old else f.target } := by
  subst h
  unfold Schema.foreignKeys
  rw [Schema.find_retarget, Schema.find_put, if_neg ht, Schema.find_erase, if_neg htnew,
    Schema.find_erase, if_neg ht]
  cases (σ.put new S).find t <;> rfl

theorem rebuilt_of_rebuild (rebuildable : Rebuildable db.schema old new S columns)
    (h : execAll now (rebuild old new S columns) db = .ok db') :
    Rebuilt old new S columns db' := by
  obtain ⟨hold, hschema, hrows, hseq⟩ := rebuild_spec h rebuildable.spares
  have hne : new ≠ old := Schema.ne_of_spares rebuildable.spares
  have hrowsold : db'.rows old = S.copies now columns (db.rows old) := by
    rw [hrows, if_neg (Ne.symm hne), if_pos rfl]
  refine ⟨?_, ?_, ?_, fun now' => ?_, ?_, fun t ht f hf r hr => ?_⟩
  · rw [hschema]
    simp [Schema.has]
  · rw [hrows, if_pos rfl]
  · rw [hseq, if_pos rfl]
  · rw [hrowsold]
    exact copies_copies rebuildable.timeless
  · rw [hseq, if_neg (Ne.symm hne), if_pos rfl, hrowsold]
  · by_cases htnew : t = new
    · rw [htnew, hrows, if_pos rfl] at hr
      cases hr
    · rw [hrows, if_neg htnew, if_neg ht] at hr
      obtain ⟨g, hg, rfl⟩ := List.mem_map.mp ((foreignKeys_rebuild hschema ht htnew) ▸ hf)
      have hfree := Schema.unreferenced_iff.mp rebuildable.free t g
        (by rwa [Schema.foreignKeys_put_of_ne htnew] at hg)
      simp only [hfree.resolve_left htnew, if_false]
      intro htarget hnull r' hr' _ hkey
      rw [hrowsold] at hr'
      obtain ⟨r₀, hr₀, rfl⟩ := List.mem_map.mp hr'
      have hthere : (db.schema.put new S).has old = true := by
        rw [Schema.has, Schema.find_put, if_neg (Ne.symm hne)]
        exact hold
      have hmem : r₀ ∈ Function.update db.rows new (S.copies now columns (db.rows old)) old := by
        rwa [Function.update_of_ne (Ne.symm hne)]
      refine Schema.unreferring_deleteRows hthere hg hr htarget hnull r₀ hmem rfl (hkey.trans ?_)
      have hprimary : db'.schema.primaryKey old = S.primaryKey := by
        rw [hschema]
        simp [Schema.primaryKey, TableSchema.retarget]
      rw [hprimary, Schema.primaryKey_put_of_ne (Ne.symm hne), ← rebuildable.key]
      cases hS : S.primaryKey with
      | none => rfl
      | some k =>
        obtain ⟨hk, hhas⟩ := rebuildable.key_copied k (by rw [hS]; rfl)
        exact newRow_copied hk hhas

omit [DecidableEq κ] in
theorem target_ne_of_spares {f : ForeignKey τ κ} (spares : σ.spares old new = true)
    (hf : f ∈ σ.foreignKeys new) : f.target ≠ old := by
  have hne : new ≠ old := Schema.ne_of_spares spares
  unfold Schema.spares at spares
  simp only [Bool.and_eq_true, Bool.or_eq_true, List.isEmpty_iff] at spares
  rcases spares.2 with hunreferenced | hnone
  · exact (Schema.unreferenced_iff.mp hunreferenced new f hf).resolve_left hne
  · rw [hnone] at hf
    cases hf

/-- Another rebuild leaves everything as it is. -/
theorem rebuild_of_rebuilt (rebuilt : Rebuilt old new S columns db)
    (spares : (db.schema.put new S).spares old new = true)
    (hschema : schemaAll (rebuild old new S columns) db.schema = some db.schema) :
    execAll now (rebuild old new S columns) db = .ok db := by
  obtain ⟨db', h, hsame⟩ := ok_of_schemaAll now hschema
  obtain ⟨hold, -, hrows, hseq⟩ := rebuild_spec h spares
  have hne : new ≠ old := Schema.ne_of_spares spares
  rw [h]
  congr 1
  ext1
  · exact hsame
  · ext1 t
    rw [hrows, rebuilt.copied]
    split
    · rename_i htnew
      rw [htnew, rebuilt.rows_new]
    · split
      · rename_i htold
        rw [htold]
      · rename_i htnew htold
        rw [Schema.deleteRows_of_unreferring]
        · rw [if_neg htold, Function.update_of_ne htnew]
        · rw [Schema.has, Schema.find_put, if_neg (Ne.symm hne)]
          exact hold
        · intro u f hf r hr hu
          have hold' : u ≠ old := fun heq => absurd (hu heq) (by simp)
          by_cases hunew : u = new
          · exact fun htarget => absurd htarget (target_ne_of_spares spares (hunew ▸ hf))
          · rw [Schema.foreignKeys_put_of_ne hunew] at hf
            rw [Function.update_of_ne hunew] at hr
            have hfree := rebuilt.unreferring u hold' f hf r hr
            unfold Schema.Unreferring at hfree ⊢
            rwa [Function.update_of_ne (Ne.symm hne), Schema.primaryKey_put_of_ne (Ne.symm hne)]
  · ext1 t
    rw [hseq, rebuilt.copied]
    split
    · rename_i htnew
      rw [htnew, rebuilt.seq_new]
    · split
      · rename_i htold
        rw [htold, rebuilt.seq_old]
      · rfl

/-- Creations leave a rebuilt table as it is. -/
theorem Rebuilt.exec_creates {s : Statement τ κ} (rebuilt : Rebuilt old new S columns db)
    (hcreates : s.creates = true) (h : exec now s db = some db') :
    Rebuilt old new S columns db' := by
  rcases Statement.exec_creates hcreates h with ⟨-, rfl⟩ | ⟨t, T, -, hnone, rfl⟩ | ⟨_, _, -, rfl⟩
  · exact rebuilt
  · have ht : old ≠ t := by
      rintro rfl
      have hthere := rebuilt.there
      rw [Schema.has, hnone] at hthere
      cases hthere
    refine ⟨?_, ?_, ?_, ?_, ?_, fun u hu f hf r hr => ?_⟩
    · rw [Schema.has, Schema.find_put, if_neg ht]
      exact rebuilt.there
    · dsimp only
      by_cases hnew : new = t
      · rw [hnew, Function.update_self]
      · rw [Function.update_of_ne hnew, rebuilt.rows_new]
    · dsimp only
      by_cases hnew : new = t
      · rw [hnew, Function.update_self]
      · rw [Function.update_of_ne hnew, rebuilt.seq_new]
    · dsimp only
      rw [Function.update_of_ne ht]
      exact rebuilt.copied
    · dsimp only
      rw [Function.update_of_ne ht, Function.update_of_ne ht]
      exact rebuilt.seq_old
    · dsimp only at hf hr ⊢
      by_cases hut : u = t
      · rw [hut, Function.update_self] at hr
        cases hr
      · rw [Schema.foreignKeys_put_of_ne hut] at hf
        rw [Function.update_of_ne hut] at hr
        have hfree := rebuilt.unreferring u hu f hf r hr
        unfold Schema.Unreferring at hfree ⊢
        rwa [Function.update_of_ne ht, Schema.primaryKey_put_of_ne ht]
  · exact ⟨rebuilt.there, rebuilt.rows_new, rebuilt.seq_new, rebuilt.copied, rebuilt.seq_old,
      rebuilt.unreferring⟩

theorem Rebuilt.execAll_creates (rebuilt : Rebuilt old new S columns db)
    (hcreates : ∀ s ∈ l, s.creates = true) (h : execAll now l db = .ok db') :
    Rebuilt old new S columns db' := by
  induction l generalizing db with
  | nil =>
    obtain rfl := Except.ok.inj h
    exact rebuilt
  | cons s l ih =>
    obtain ⟨db₁, hexec, h⟩ := execAll_cons.mp h
    exact ih (rebuilt.exec_creates (hcreates s List.mem_cons_self) hexec)
      (fun s' hs' => hcreates s' (List.mem_cons_of_mem s hs')) h

/-- **A rebuild with creations after it is repeatable**, where the schema that they leave admits
    the rebuild again and comes out of it the same. -/
theorem repeatable_rebuild (rebuildable : Rebuildable σ old new S columns)
    (hcreates : ∀ s ∈ l, s.creates = true)
    (hschema : schemaAll (rebuild old new S columns ++ l) σ = some σ')
    (hspares : (σ'.put new S).spares old new = true)
    (hsame : schemaAll (rebuild old new S columns) σ' = some σ') :
    Repeatable (rebuild old new S columns ++ l) σ := by
  intro now now' db db' hdb hexec
  subst hdb
  have hσ' : db'.schema = σ' := by
    rw [schemaAll_of_ok hexec] at hschema
    exact Option.some.inj hschema
  cases hrebuild : execAll now (rebuild old new S columns) db with
  | error db₁ =>
    rw [execAll_append, hrebuild] at hexec
    cases hexec
  | ok db₁ =>
    rw [execAll_append_ok hrebuild] at hexec
    have hrebuilt := (rebuilt_of_rebuild rebuildable hrebuild).execAll_creates hcreates hexec
    constructor
    · rw [execAll_append_ok (rebuild_now rebuildable hrebuild)]
      exact (execAll_creates_now hcreates).trans hexec
    · subst hσ'
      rw [execAll_append_ok (rebuild_of_rebuilt hrebuilt hspares hsame)]
      exact execAll_of_stands fun s hs =>
        ⟨hcreates s hs, stands_of_execAll hcreates hexec (.inl hs)⟩

end Rebuild

end Montr.Sql
