import Montr.Lib.SqlTables

namespace Montr.Sql

/-!
# What statements leave alone

Checks on the schema, and what they say about the rows.

* `Schema.spares` — a deletion from one table does not reach the other;
* `unreferring_deleteRows`, `deleteRows_of_unreferring` — nothing refers to what was deleted, and
  what nothing refers to is filtered out;
* `Statement.avoids` — a statement does not touch a table, `rows_of_avoidsAll`;
* `Statement.keeps` — **a statement leaves some columns of a table as they are**,
  `pick_of_keepsAll`.
-/

universe u v

variable {τ : Type u} {κ : Type v} [LinearOrder τ] [DecidableEq κ]

/-! ### Tables out of reach -/

namespace Schema

variable {σ : Schema τ κ} {t d : τ} {rows : τ → List (Row κ)} {doomed : Row κ → Bool}

/-- No other table refers to this one. -/
def unreferenced (σ : Schema τ κ) (d : τ) : Bool :=
  σ.tables.all fun p => p.1 = d || p.2.foreignKeys.all fun f => f.target ≠ d

/-- A deletion from `d` leaves `t` alone. -/
def spares (σ : Schema τ κ) (d t : τ) : Bool :=
  t ≠ d && (σ.unreferenced d || (σ.foreignKeys t).isEmpty)

omit [DecidableEq κ] in
theorem ne_of_spares (h : σ.spares d t = true) : t ≠ d := by
  unfold spares at h
  simpa using (Bool.and_eq_true_iff.mp h).1

theorem get_toColumn {f : ForeignKey τ κ} {p : τ × Row κ} {k : τ × Value} :
    (f.toColumn t).get p = some k ↔
      p.1 = t ∧ p.2 f.column ≠ .null ∧ k = (f.target, p.2 f.column) := by
  unfold ForeignKey.toColumn
  dsimp only
  split
  · rename_i h
    simp [h, eq_comm]
  · rename_i h
    simp only [reduceCtorEq, false_iff]
    exact fun hk => h ⟨hk.1, hk.2.1⟩

theorem mem_columns {c : ForeignKeys.Column (τ × Row κ) (τ × Value)} :
    c ∈ σ.references.columns ↔ ∃ t, ∃ f ∈ σ.foreignKeys t, c = f.toColumn t := by
  show c ∈ σ.tables.flatMap (fun p => p.2.foreignKeys.map (ForeignKey.toColumn p.1)) ↔ _
  rw [List.mem_flatMap]
  constructor
  · rintro ⟨p, hp, hc⟩
    obtain ⟨f, hf, rfl⟩ := List.mem_map.mp hc
    exact ⟨p.1, f, by rwa [mem_foreignKeys hp], rfl⟩
  · rintro ⟨t, f, hf, rfl⟩
    unfold foreignKeys at hf
    cases hfind : σ.find t with
    | none => simp [hfind] at hf
    | some s =>
      rw [hfind] at hf
      exact ⟨(t, s), find_eq_some.mp hfind, List.mem_map_of_mem hf⟩

omit [DecidableEq κ] in
theorem unreferenced_iff : σ.unreferenced d = true ↔
    ∀ t, ∀ f ∈ σ.foreignKeys t, t = d ∨ f.target ≠ d := by
  unfold unreferenced
  rw [List.all_eq_true]
  constructor
  · intro h t f hf
    unfold foreignKeys at hf
    cases hfind : σ.find t with
    | none => simp [hfind] at hf
    | some s =>
      rw [hfind] at hf
      have hall := h (t, s) (find_eq_some.mp hfind)
      simp only [Bool.or_eq_true, decide_eq_true_eq, List.all_eq_true] at hall
      exact hall.imp_right fun hall => hall f hf
  · intro h p hp
    simp only [Bool.or_eq_true, decide_eq_true_eq, List.all_eq_true]
    by_cases hd : p.1 = d
    · exact .inl hd
    · exact .inr fun f hf => (h p.1 f (by rwa [mem_foreignKeys hp])).resolve_left hd

omit [DecidableEq κ] in
theorem has_iff : σ.has t = true ↔ ∃ s, (t, s) ∈ σ.tables := by
  unfold has
  rw [Option.isSome_iff_exists]
  exact exists_congr fun s => find_eq_some

omit [DecidableEq κ] in
/-- The rows of one of the tables. -/
theorem filter_tagged (h : σ.has t = true) :
    (σ.tagged rows).filter (fun p => decide (p.1 = t)) = (rows t).map fun r => (t, r) := by
  obtain ⟨s, hs⟩ := has_iff.mp h
  obtain ⟨tables, views, sorted⟩ := σ
  unfold tagged
  dsimp only at hs ⊢
  have hother : ∀ l : List (τ × TableSchema τ κ), (∀ p ∈ l, p.1 ≠ t) →
      (l.flatMap fun p => (rows p.1).map fun r => (p.1, r)).filter
        (fun p => decide (p.1 = t)) = [] := by
    intro l hl
    rw [List.filter_eq_nil_iff]
    intro q hq
    obtain ⟨p, hp, hq⟩ := List.mem_flatMap.mp hq
    obtain ⟨r, -, rfl⟩ := List.mem_map.mp hq
    simpa using hl p hp
  induction tables with
  | nil => cases hs
  | cons p l ih =>
    obtain ⟨hfirst, hrest⟩ := List.pairwise_cons.mp sorted
    rw [List.flatMap_cons, List.filter_append]
    by_cases hp : p.1 = t
    · have hl : ∀ q ∈ l, q.1 ≠ t := fun q hq heq =>
        absurd (hfirst q.1 (List.mem_map.mpr ⟨q, hq, rfl⟩)) (by rw [hp, heq]; exact lt_irrefl t)
      rw [hother l hl, List.append_nil, hp, List.filter_eq_self]
      intro q hq
      obtain ⟨r, -, rfl⟩ := List.mem_map.mp hq
      simp
    · have hnone : ((rows p.1).map fun r => (p.1, r)).filter (fun p => decide (p.1 = t)) = [] := by
        rw [List.filter_eq_nil_iff]
        intro q hq
        obtain ⟨r, -, rfl⟩ := List.mem_map.mp hq
        simpa using hp
      have hmem : (t, s) ∈ l := (List.mem_cons.mp hs).resolve_left fun heq => hp (heq ▸ rfl)
      rw [hnone, List.nil_append]
      exact ih hrest (has_iff.mpr ⟨s, hmem⟩) hmem

omit [DecidableEq κ] in
theorem mem_tagged {q : τ × Row κ} :
    q ∈ σ.tagged rows ↔ σ.has q.1 = true ∧ q.2 ∈ rows q.1 := by
  unfold tagged
  rw [List.mem_flatMap, has_iff]
  constructor
  · rintro ⟨p, hp, hq⟩
    obtain ⟨r, hr, rfl⟩ := List.mem_map.mp hq
    exact ⟨⟨p.2, hp⟩, hr⟩
  · rintro ⟨⟨s, hs⟩, hr⟩
    exact ⟨(q.1, s), hs, List.mem_map.mpr ⟨q.2, hr, rfl⟩⟩

theorem deleteRows_of_filter
    (h : (σ.references.deleteAll (σ.tagged rows) fun q =>
        decide (q.1 = d) && doomed q.2).filter (fun q => decide (q.1 = t)) =
      (σ.tagged rows).filter fun q => decide (q.1 = t)) :
    σ.deleteRows rows d doomed t = rows t := by
  unfold deleteRows
  split
  · rename_i hhas
    rw [h, filter_tagged hhas, List.map_map]
    exact List.map_id' _
  · rfl

/-- **A deletion leaves the tables out of its reach alone.** -/
theorem deleteRows_of_spares (h : σ.spares d t = true) : σ.deleteRows rows d doomed t = rows t := by
  unfold spares at h
  simp only [Bool.and_eq_true, decide_eq_true_eq, Bool.or_eq_true, List.isEmpty_iff] at h
  obtain ⟨hne, hspares⟩ := h
  have hd : ∀ q : τ × Row κ, (decide (q.1 = d) && doomed q.2) = true → q.1 = d := fun q hq =>
    of_decide_eq_true (Bool.and_eq_true_iff.mp hq).1
  have hnot : ∀ q : τ × Row κ, (decide (q.1 = d) && doomed q.2) = true →
      decide ((σ.references.key q).1 = t) = false := by
    intro q hq
    show decide (q.1 = t) = false
    rw [hd q hq]
    simpa using Ne.symm hne
  refine deleteRows_of_filter ?_
  show ((σ.references.deleteAll (σ.tagged rows) _).filter fun q =>
    decide ((σ.references.key q).1 = t)) = _
  rcases hspares with hspares | hspares
  · -- the deletion stays within `d`
    rw [unreferenced_iff] at hspares
    refine ForeignKeys.Schema.filter_deleteAll (fun k : τ × Value => k.1 = d)
      (fun k : τ × Value => decide (k.1 = t)) (fun q _ hq => ⟨hd q hq, hnot q hq⟩)
      (fun q _ c hc k hk hkd => ?_) (fun q _ hq c hc k hk hkd => ?_)
    · obtain ⟨u, f, hf, rfl⟩ := mem_columns.mp hc
      obtain ⟨hqu, -, rfl⟩ := get_toColumn.mp hk
      exact hqu.trans ((hspares u f hf).resolve_right fun hne => hne hkd)
    · obtain ⟨u, f, hf, rfl⟩ := mem_columns.mp hc
      obtain ⟨hqu, -, rfl⟩ := get_toColumn.mp hk
      have hqt : q.1 = t := of_decide_eq_true hq
      exact hne (hqt.symm.trans (hqu.trans ((hspares u f hf).resolve_right fun hne => hne hkd)))
  · -- `t` refers to nothing
    refine ForeignKeys.Schema.filter_deleteAll (fun _ => True)
      (fun k : τ × Value => decide (k.1 = t)) (fun q _ hq => ⟨trivial, hnot q hq⟩)
      (fun _ _ _ _ _ _ _ => trivial) (fun q _ hq c hc k hk _ => ?_)
    · obtain ⟨u, f, hf, rfl⟩ := mem_columns.mp hc
      obtain ⟨hqu, -, rfl⟩ := get_toColumn.mp hk
      have hqt : q.1 = t := of_decide_eq_true hq
      rw [hqu.symm.trans hqt, hspares] at hf
      exact absurd hf List.not_mem_nil

/-- The row refers to none of the doomed rows of `d`. -/
def Unreferring (σ : Schema τ κ) (rows : τ → List (Row κ)) (d : τ) (doomed : Row κ → Bool)
    (f : ForeignKey τ κ) (r : Row κ) : Prop :=
  f.target = d → r f.column ≠ .null →
    ∀ r' ∈ rows d, doomed r' = true → r f.column ≠ (σ.primaryKey d).elim .null r'

/-- **After a deletion nothing refers to what was deleted.** -/
theorem unreferring_deleteRows {f : ForeignKey τ κ} {r : Row κ} (hd : σ.has d = true)
    (hf : f ∈ σ.foreignKeys t) (hr : r ∈ σ.deleteRows rows d doomed t) :
    σ.Unreferring rows d doomed f r := by
  intro htarget hnull r' hr' hdoomed hkey
  have ht : σ.has t = true := by
    cases hfind : σ.find t with
    | none => simp [foreignKeys, hfind] at hf
    | some s => simp [has, hfind]
  unfold deleteRows at hr
  rw [if_pos ht] at hr
  obtain ⟨q, hq, rfl⟩ := List.mem_map.mp hr
  obtain ⟨hq, hqt⟩ := List.mem_filter.mp hq
  have hqt : q.1 = t := of_decide_eq_true hqt
  have hmem : (d, r') ∈ σ.tagged rows := mem_tagged.mpr ⟨hd, hr'⟩
  have hp : (decide ((d, r').1 = d) && doomed (d, r').2) = true := by simpa using hdoomed
  refine ForeignKeys.Schema.get_deleteAll hq (mem_columns.mpr ⟨t, f, hf, rfl⟩) hmem hp ?_
  rw [get_toColumn]
  refine ⟨hqt, hnull, ?_⟩
  show (d, (σ.primaryKey d).elim .null r') = _
  rw [htarget, hkey]

/-- **A deletion of rows that nothing refers to is a filter.** -/
theorem deleteRows_of_unreferring (hd : σ.has d = true)
    (h : ∀ t, ∀ f ∈ σ.foreignKeys t, ∀ r ∈ rows t, (t = d → doomed r = false) →
      σ.Unreferring rows d doomed f r) :
    σ.deleteRows rows d doomed t =
      if t = d then (rows d).filter fun r => !doomed r else rows t := by
  unfold deleteRows
  split
  · rename_i hhas
    rw [ForeignKeys.Schema.deleteAll_eq_filter]
    · rw [List.filter_comm, filter_tagged hhas, List.filter_map, List.map_map]
      by_cases ht : t = d
      · subst ht
        rw [if_pos rfl]
        simp [Function.comp_def]
      · rw [if_neg ht]
        simp [Function.comp_def, ht]
    · intro q hq hstays c hc u hu hgoes hget
      obtain ⟨t', f, hf, rfl⟩ := mem_columns.mp hc
      obtain ⟨rfl, hnull, hkey⟩ := get_toColumn.mp hget
      obtain ⟨hud, hdoomed⟩ := Bool.and_eq_true_iff.mp hgoes
      have hud : u.1 = d := of_decide_eq_true hud
      obtain ⟨htarget, hcolumn⟩ := Prod.ext_iff.mp hkey
      have hstays' : q.1 = d → doomed q.2 = false := by
        intro hqd
        simpa [hqd] using hstays
      refine h q.1 f hf q.2 (mem_tagged.mp hq).2 hstays' (htarget.symm.trans hud) hnull u.2
        (hud ▸ (mem_tagged.mp hu).2) hdoomed ?_
      rw [← hud]
      exact hcolumn.symm
  · rename_i hhas
    have ht : t ≠ d := by
      rintro rfl
      exact hhas hd
    rw [if_neg ht]

theorem deleteRows_self (hd : σ.has d = true) (hunreferenced : σ.unreferenced d = true)
    (hnone : σ.foreignKeys d = []) :
    σ.deleteRows rows d doomed d = (rows d).filter fun r => !doomed r := by
  rw [deleteRows_of_unreferring hd, if_pos rfl]
  intro t f hf r _ _ htarget
  rcases unreferenced_iff.mp hunreferenced t f hf with rfl | hne
  · rw [hnone] at hf
    cases hf
  · exact absurd htarget hne

end Schema

/-! ### Columns that are left alone -/

namespace Statement

/-- The statement does not touch the rows of a table. -/
def avoids (σ : Schema τ κ) (t : τ) : Statement τ κ → Bool
  | .createTable _ u _ => u ≠ t || σ.has u
  | .createTableAs u _ _ | .addColumn u _ _ | .dropColumn u _ | .insertSelect u _ _
  | .insertOrIgnore u _ | .insert u _ | .updateWhere u _ _ _ => u ≠ t
  | .renameTable u u' => u ≠ t && u' ≠ t
  | .dropTable _ d | .deleteWhere d _ _ => σ.spares d t
  | .createIndex _ _ | .createTrigger _ | .createView _ _ | .dropView _ | .dropOther => true

/-- The statement leaves the columns of a table as they are, in every row. -/
def keeps (σ : Schema τ κ) (t : τ) (cs : List κ) (s : Statement τ κ) : Bool :=
  s.avoids σ t ||
    match s with
    | .addColumn _ column _ => column.name ∉ cs
    | .dropColumn _ c => c ∉ cs
    | .updateWhere _ sets _ _ => sets.all fun w => w.1 ∉ cs
    | _ => false

variable {now : String} {s : Statement τ κ} {db : Database τ κ} {t : τ} {cs : List κ}

omit [DecidableEq κ] in
theorem ne_of_avoids_createTable {ifNotExists : Bool} {u : τ} {table : TableSchema τ κ}
    (hnot : ¬ db.schema.has u = true)
    (h : (createTable ifNotExists u table).avoids db.schema t = true) : u ≠ t :=
  ((Bool.or_eq_true _ _).mp h).elim of_decide_eq_true fun hhas => absurd hhas hnot

omit [DecidableEq κ] in
theorem ne_of_avoids_renameTable {u u' : τ}
    (h : (renameTable u u' : Statement τ κ).avoids db.schema t = true) : u ≠ t ∧ u' ≠ t :=
  ((Bool.and_eq_true _ _).mp h).imp of_decide_eq_true of_decide_eq_true

theorem rows_of_avoids (h : s.avoids db.schema t = true) : s.onRows now db t = db.rows t := by
  cases s with
  | createTable ifNotExists u s =>
    show (if db.schema.has u = true then db.rows else Function.update db.rows u []) t = db.rows t
    split
    · rfl
    · rename_i hnot
      exact Function.update_of_ne (Ne.symm (ne_of_avoids_createTable hnot h)) _ _
  | createTableAs u _ _ | addColumn u _ _ | dropColumn u _ | insertSelect u _ _
  | insertOrIgnore u _ | insert u _ | updateWhere u _ _ _ =>
    have hne : u ≠ t := of_decide_eq_true h
    exact Function.update_of_ne (Ne.symm hne) _ _
  | renameTable u u' =>
    obtain ⟨hne, hne'⟩ := ne_of_avoids_renameTable h
    show Function.update (Function.update db.rows u' (db.rows u)) u [] t = db.rows t
    rw [Function.update_of_ne (Ne.symm hne), Function.update_of_ne (Ne.symm hne')]
  | dropTable ifExists d =>
    show (if db.schema.has d = true then
      Function.update (db.schema.deleteRows db.rows d fun _ => true) d [] else db.rows) t = _
    split
    · rw [Function.update_of_ne (Schema.ne_of_spares h)]
      exact Schema.deleteRows_of_spares h
    · rfl
  | deleteWhere d c v =>
    show db.schema.deleteRows db.rows d (fun r => (r c).equals v) t = db.rows t
    exact Schema.deleteRows_of_spares h
  | createIndex _ _ | createTrigger _ | createView _ _ | dropView _ | dropOther => rfl

theorem seq_of_avoids (h : s.avoids db.schema t = true) : s.onSeq now db t = db.seq t := by
  cases s with
  | createTable ifNotExists u s =>
    show (if db.schema.has u = true then db.seq else Function.update db.seq u 0) t = db.seq t
    split
    · rfl
    · rename_i hnot
      exact Function.update_of_ne (Ne.symm (ne_of_avoids_createTable hnot h)) _ _
  | createTableAs u _ _ | insertSelect u _ _ | insert u _ =>
    have hne : u ≠ t := of_decide_eq_true h
    exact Function.update_of_ne (Ne.symm hne) _ _
  | renameTable u u' =>
    obtain ⟨hne, hne'⟩ := ne_of_avoids_renameTable h
    show Function.update (Function.update db.seq u' (db.seq u)) u 0 t = db.seq t
    rw [Function.update_of_ne (Ne.symm hne), Function.update_of_ne (Ne.symm hne')]
  | dropTable ifExists d => exact Function.update_of_ne (Schema.ne_of_spares h) _ _
  | _ => rfl

/-- An unaffected column reads the same. -/
theorem pick_update {r : Row κ} {c : κ} {v : Value} (h : c ∉ cs) :
    pick cs (Function.update r c v) = pick cs r :=
  List.map_congr_left fun k hk => Function.update_of_ne (fun heq => h (by rwa [← heq])) _ _

/-- **A statement that keeps the columns does.** -/
theorem pick_of_keeps (h : s.keeps db.schema t cs = true) :
    (s.onRows now db t).map (pick cs) = (db.rows t).map (pick cs) := by
  by_cases havoids : s.avoids db.schema t = true
  · rw [rows_of_avoids havoids]
  · rw [Bool.not_eq_true] at havoids
    unfold keeps at h
    rw [havoids, Bool.false_or] at h
    cases s with
    | addColumn u column references =>
      obtain rfl : u = t := Decidable.not_not.mp (of_decide_eq_false havoids)
      have hc : column.name ∉ cs := by simpa using h
      show (Function.update db.rows u _ u).map (pick cs) = _
      rw [Function.update_self, List.map_map]
      exact List.map_congr_left fun r _ => pick_update hc
    | dropColumn u c =>
      obtain rfl : u = t := Decidable.not_not.mp (of_decide_eq_false havoids)
      have hc : c ∉ cs := by simpa using h
      show (Function.update db.rows u _ u).map (pick cs) = _
      rw [Function.update_self, List.map_map]
      exact List.map_congr_left fun r _ => pick_update hc
    | updateWhere u sets c v =>
      obtain rfl : u = t := Decidable.not_not.mp (of_decide_eq_false havoids)
      show (Function.update db.rows u _ u).map (pick cs) = _
      rw [Function.update_self, List.map_map]
      refine List.map_congr_left fun r _ => ?_
      show pick cs (if _ then _ else r) = pick cs r
      split
      · refine List.map_congr_left fun k hk => ?_
        have hnone : sets.find? (fun w => decide (w.1 = k)) = none := by
          rw [List.find?_eq_none]
          intro w hw hwk
          have hnot := List.all_eq_true.mp h w hw
          rw [of_decide_eq_true hwk] at hnot
          exact of_decide_eq_true hnot hk
        rw [written, hnone]
        rfl
      · rfl
    | createTable _ _ _ | createTableAs _ _ _ | createIndex _ _ | createTrigger _ | createView _ _
    | dropView _ | dropOther | dropTable _ _ | renameTable _ _ | insertSelect _ _ _
    | insertOrIgnore _ _ | insert _ _ | deleteWhere _ _ _ => cases h

/-- Nothing is deleted from a table without rows. -/
theorem exec_deleteWhere_of_nil {c : κ} {v : Value}
    (h : db.schema.hasColumns t [c] = true) (hrows : db.rows t = []) :
    exec now (.deleteWhere t c v) db = some db := by
  have hthere : db.schema.has t = true := by
    unfold Schema.hasColumns at h
    unfold Schema.has
    cases hfind : db.schema.find t with
    | none => simp [hfind] at h
    | some s => rfl
  rw [exec_eq_some]
  refine ⟨by simp [onSchema, h], ?_, rfl⟩
  ext1 u
  show db.rows u = db.schema.deleteRows db.rows t (fun r => (r c).equals v) u
  rw [Schema.deleteRows_of_unreferring hthere]
  · split
    · rename_i hu
      rw [hu, hrows]
      rfl
    · rfl
  · intro u f _ r _ _ _ _ r' hr'
    rw [hrows] at hr'
    cases hr'

end Statement

/-- Every statement, on the schema that it finds. -/
def keepsAll (t : τ) (cs : List κ) : List (Statement τ κ) → Schema τ κ → Bool
  | [], _ => true
  | s :: rest, σ => s.keeps σ t cs && (s.onSchema σ).all (keepsAll t cs rest)

/-- **Statements that keep the columns of a table leave them as they are.** -/
theorem pick_of_keepsAll {now : String} {l : List (Statement τ κ)} {db db' : Database τ κ} {t : τ}
    {cs : List κ} (h : execAll now l db = .ok db') (hkeeps : keepsAll t cs l db.schema = true) :
    (db'.rows t).map (pick cs) = (db.rows t).map (pick cs) := by
  induction l generalizing db with
  | nil =>
    cases h
    rfl
  | cons s l ih =>
    obtain ⟨hfirst, hrest⟩ := Bool.and_eq_true_iff.mp hkeeps
    obtain ⟨db₁, hexec, h⟩ := execAll_cons.mp h
    obtain ⟨hschema, hrows, -⟩ := exec_eq_some.mp hexec
    rw [hschema] at hrest
    refine (ih h hrest).trans ?_
    rw [hrows]
    exact Statement.pick_of_keeps hfirst

/-- Every statement avoids the table. -/
def avoidsAll (t : τ) : List (Statement τ κ) → Schema τ κ → Bool
  | [], _ => true
  | s :: rest, σ => s.avoids σ t && (s.onSchema σ).all (avoidsAll t rest)

theorem rows_of_avoidsAll {now : String} {l : List (Statement τ κ)} {db db' : Database τ κ} {t : τ}
    (h : execAll now l db = .ok db') (havoids : avoidsAll t l db.schema = true) :
    db'.rows t = db.rows t ∧ db'.seq t = db.seq t := by
  induction l generalizing db with
  | nil =>
    cases h
    exact ⟨rfl, rfl⟩
  | cons s l ih =>
    obtain ⟨hfirst, hrest⟩ := Bool.and_eq_true_iff.mp havoids
    obtain ⟨db₁, hexec, h⟩ := execAll_cons.mp h
    obtain ⟨hschema, hrows, hseq⟩ := exec_eq_some.mp hexec
    rw [hschema] at hrest
    obtain ⟨hrows₁, hseq₁⟩ := ih h hrest
    rw [hrows₁, hseq₁, hrows, hseq]
    exact ⟨Statement.rows_of_avoids hfirst, Statement.seq_of_avoids hfirst⟩

end Montr.Sql
