import Mathlib.Data.List.Basic
import Mathlib.Tactic.Tauto

namespace Montr.ForeignKeys

/-!
# Deleting rows that others refer to

A table of rows `ρ` with keys `κ`, and the columns by which rows refer to rows.  Each column says
what becomes of a row when the row it refers to is deleted.

* `Schema.delete` — deletes the row with a key, and everything the columns declare with it;
* `Schema.deleteAll` — the same for all rows with a property;
* `Schema.Intact` — every reference is to a row that is there;
* `mem_delete` — what is left, and how;
* `Intact.delete` — **deletion by the declared columns leaves nothing dangling**;
* `delete_eq_of_shallow` — one filter and one map, where nothing refers to a row that goes along;
* `get_deleteAll` — no column refers to a row that was deleted;
* `filter_deleteAll` — rows out of reach of the deleted ones are as they were.
-/

universe u v

/-- `ON DELETE` of a foreign key: the row goes along, or its column is cleared. -/
inductive OnDelete (ρ : Type u)
  | cascade
  | setNull (clear : ρ → ρ)

/-- A column with a foreign key. -/
structure Column (ρ : Type u) (κ : Type v) where
  get : ρ → Option κ
  onDelete : OnDelete ρ

/-- The rows' keys and columns. Clearing a column leaves the key and the other columns. -/
structure Schema (ρ : Type u) (κ : Type v) where
  key : ρ → κ
  columns : List (Column ρ κ)
  get_clear : ∀ c ∈ columns, ∀ clear, c.onDelete = .setNull clear → ∀ r, c.get (clear r) = none
  get_clear_of : ∀ c ∈ columns, ∀ clear, c.onDelete = .setNull clear → ∀ d ∈ columns, ∀ r,
    d.get (clear r) = none ∨ d.get (clear r) = d.get r
  key_clear : ∀ c ∈ columns, ∀ clear, c.onDelete = .setNull clear → ∀ r, key (clear r) = key r

variable {ρ : Type u} {κ : Type v} [DecidableEq κ]

/-- The column refers to one of the keys. -/
def Column.refersTo (c : Column ρ κ) (keys : List κ) (r : ρ) : Bool := (c.get r).any keys.contains

/-- The row goes along with rows of the keys. -/
def Column.goesWith (c : Column ρ κ) (keys : List κ) (r : ρ) : Bool :=
  match c.onDelete with
  | .cascade => c.refersTo keys r
  | .setNull _ => false

/-- The row with the column cleared, if it refers to one of the keys and stays. -/
def Column.release (c : Column ρ κ) (keys : List κ) (r : ρ) : ρ :=
  match c.onDelete with
  | .cascade => r
  | .setNull clear => if c.refersTo keys r then clear r else r

namespace Column

variable {c : Column ρ κ} {keys : List κ} {r : ρ}

theorem refersTo_iff : c.refersTo keys r = true ↔ ∃ k ∈ keys, c.get r = some k := by
  unfold refersTo
  cases c.get r <;> simp

@[simp] theorem refersTo_singleton {k : κ} : c.refersTo [k] r = true ↔ c.get r = some k := by
  rw [refersTo_iff]
  simp

theorem goesWith_iff : c.goesWith keys r = true ↔
    c.onDelete = .cascade ∧ ∃ k ∈ keys, c.get r = some k := by
  unfold goesWith
  cases c.onDelete with
  | cascade => simp [refersTo_iff]
  | setNull clear => simp

end Column

namespace Schema

variable (S : Schema ρ κ)

def goesWith (keys : List κ) (r : ρ) : Bool := S.columns.any fun c => c.goesWith keys r

def release (keys : List κ) (r : ρ) : ρ := S.columns.foldl (fun r c => c.release keys r) r

/-- The rows that go with the keys. -/
def dependents (rows : List ρ) (keys : List κ) : List ρ := rows.filter fun r => S.goesWith keys r

/-- The other rows. -/
def others (rows : List ρ) (keys : List κ) : List ρ := rows.filter fun r => !S.goesWith keys r

/-- `ON DELETE CASCADE`, one level after another: the rows that stay, and the keys that go. -/
def cascade (rows : List ρ) (keys : List κ) : List ρ × List κ :=
  if _h : S.dependents rows keys = [] then (rows, keys)
  else
    let (kept, below) := cascade (S.others rows keys) ((S.dependents rows keys).map S.key)
    (kept, keys ++ below)
termination_by rows.length
decreasing_by
  obtain ⟨r, hr⟩ := List.exists_mem_of_ne_nil _ _h
  obtain ⟨hmem, hgoes⟩ := List.mem_filter.mp hr
  rw [others, List.length_filter_lt_length_iff_exists]
  exact ⟨r, hmem, by simp [hgoes]⟩

/-- The row with the key is deleted, if there is one. -/
def delete (rows : List ρ) (k : κ) : List ρ :=
  if rows.any fun r => decide (S.key r = k) then
    let (kept, gone) := S.cascade (rows.filter fun r => !decide (S.key r = k)) [k]
    kept.map (S.release gone)
  else rows

/-- The rows with the property are deleted. -/
def deleteAll (rows : List ρ) (p : ρ → Bool) : List ρ :=
  let (kept, gone) := S.cascade (rows.filter fun r => !p r) ((rows.filter p).map S.key)
  kept.map (S.release gone)

/-- **Every reference is to a row that is there.** -/
def Intact (rows : List ρ) : Prop :=
  ∀ r ∈ rows, ∀ c ∈ S.columns, ∀ k, c.get r = some k → ∃ t ∈ rows, S.key t = k

instance (rows : List ρ) : Decidable (S.Intact rows) :=
  decidable_of_iff (∀ r ∈ rows, ∀ c ∈ S.columns, ∀ k ∈ c.get r, ∃ t ∈ rows, S.key t = k) Iff.rfl

/-- The row is below one of the keys. -/
inductive Below (rows : List ρ) (keys : List κ) : ρ → Prop
  | direct {r : ρ} (goes : S.goesWith keys r = true) : Below rows keys r
  | deeper {r : ρ} (t : ρ) (mem : t ∈ rows) (below : Below rows keys t)
    (goes : S.goesWith [S.key t] r = true) : Below rows keys r

section

variable {S} {rows : List ρ} {keys : List κ} {r t : ρ} {k : κ} {c : Column ρ κ}

/-! ### Rows that go along -/

theorem goesWith_iff : S.goesWith keys r = true ↔
    ∃ c ∈ S.columns, c.onDelete = .cascade ∧ ∃ k ∈ keys, c.get r = some k := by
  rw [goesWith, List.any_eq_true]
  exact exists_congr fun c => and_congr_right fun _ => Column.goesWith_iff

theorem goesWith_singleton : S.goesWith [k] r = true ↔
    ∃ c ∈ S.columns, c.onDelete = .cascade ∧ c.get r = some k := by
  simp only [goesWith_iff, List.mem_singleton, exists_eq_left]

theorem goesWith_map {ts : List ρ} :
    S.goesWith (ts.map S.key) r = true ↔ ∃ t ∈ ts, S.goesWith [S.key t] r = true := by
  simp only [goesWith_iff, List.mem_map, List.mem_singleton]
  constructor
  · rintro ⟨c, hc, hcascade, k, ⟨t, ht, rfl⟩, hk⟩
    exact ⟨t, ht, c, hc, hcascade, _, rfl, hk⟩
  · rintro ⟨t, ht, c, hc, hcascade, k, rfl, hk⟩
    exact ⟨c, hc, hcascade, _, ⟨t, ht, rfl⟩, hk⟩

theorem mem_dependents : r ∈ S.dependents rows keys ↔ r ∈ rows ∧ S.goesWith keys r = true :=
  List.mem_filter

theorem mem_others : r ∈ S.others rows keys ↔ r ∈ rows ∧ ¬ S.goesWith keys r = true := by
  rw [others, List.mem_filter, Bool.not_eq_true', Bool.not_eq_true]

/-- One level of a cascade. -/
theorem below_iff : S.Below rows keys r ↔ S.goesWith keys r = true ∨
    S.Below (S.others rows keys) ((S.dependents rows keys).map S.key) r := by
  constructor
  · intro h
    induction h with
    | direct goes => exact .inl goes
    | deeper t mem _ goes ih =>
      by_cases hdirect : S.goesWith keys t = true
      · exact .inr (.direct (goesWith_map.mpr ⟨t, mem_dependents.mpr ⟨mem, hdirect⟩, goes⟩))
      · exact .inr (.deeper t (mem_others.mpr ⟨mem, hdirect⟩) (ih.resolve_left hdirect) goes)
  · rintro (goes | h)
    · exact .direct goes
    · induction h with
      | direct goes =>
        obtain ⟨t, ht, hgoes⟩ := goesWith_map.mp goes
        obtain ⟨hmem, hdirect⟩ := mem_dependents.mp ht
        exact .deeper t hmem (.direct hdirect) hgoes
      | deeper t mem _ goes ih => exact .deeper t (mem_others.mp mem).1 ih goes

/-- **A cascade takes the rows below the keys**, and their keys. -/
theorem mem_cascade (S : Schema ρ κ) (rows : List ρ) (keys : List κ) :
    (∀ r, r ∈ (S.cascade rows keys).1 ↔ r ∈ rows ∧ ¬ S.Below rows keys r) ∧
      (∀ k, k ∈ (S.cascade rows keys).2 ↔
        k ∈ keys ∨ ∃ r ∈ rows, S.Below rows keys r ∧ S.key r = k) ∧
      (S.cascade rows keys).1.Sublist rows := by
  fun_induction cascade S rows keys with
  | case1 rows keys hnone =>
    have hnot : ∀ r ∈ rows, ¬ S.Below rows keys r := by
      intro r hr h
      induction h with
      | direct goes => exact absurd (mem_dependents.mpr ⟨hr, goes⟩) (by simp [hnone])
      | deeper t mem _ _ ih => exact ih mem
    refine ⟨fun r => ?_, fun k => ?_, .refl _⟩
    · exact (and_iff_left_of_imp fun hr => hnot r hr).symm
    · exact (or_iff_left fun ⟨r, hr, h, _⟩ => hnot r hr h).symm
  | case2 rows keys _ kept below hrec ih =>
    rw [hrec] at ih
    obtain ⟨hkept, hbelow, hsub⟩ := ih
    refine ⟨fun r => ?_, fun k => ?_, hsub.trans List.filter_sublist⟩
    · rw [hkept, mem_others, @below_iff _ _ _ S rows keys r]
      tauto
    · rw [List.mem_append, hbelow]
      refine or_congr_right ⟨?_, ?_⟩
      · rintro (hk | ⟨r, hr, h, rfl⟩)
        · obtain ⟨r, hr, rfl⟩ := List.mem_map.mp hk
          obtain ⟨hmem, hdirect⟩ := mem_dependents.mp hr
          exact ⟨r, hmem, .direct hdirect, rfl⟩
        · exact ⟨r, (mem_others.mp hr).1, below_iff.mpr (.inr h), rfl⟩
      · rintro ⟨r, hr, h, rfl⟩
        by_cases hdirect : S.goesWith keys r = true
        · exact .inl (List.mem_map_of_mem (mem_dependents.mpr ⟨hr, hdirect⟩))
        · exact .inr ⟨r, mem_others.mpr ⟨hr, hdirect⟩, (below_iff.mp h).resolve_left hdirect, rfl⟩

/-! ### Columns that are cleared -/

/-- A column after the first of the columns are released: cleared, or as it was and then, if it is
    one of these and is cleared on deletion, referring to a key that stays. -/
theorem get_foldl_release {cs : List (Column ρ κ)} (sub : cs ⊆ S.columns) (hc : c ∈ S.columns)
    (h : c.get (cs.foldl (fun r d => d.release keys r) r) = some k) :
    c.get r = some k ∧ (c ∈ cs → c.onDelete ≠ .cascade → k ∉ keys) := by
  induction cs generalizing r with
  | nil => exact ⟨h, fun hmem => absurd hmem List.not_mem_nil⟩
  | cons d cs ih =>
    have hd : d ∈ S.columns := sub List.mem_cons_self
    rw [List.foldl_cons] at h
    obtain ⟨hget, hlater⟩ := ih (fun e he => sub (List.mem_cons_of_mem d he)) h
    cases hdelete : d.onDelete with
    | cascade =>
      have hsame : d.release keys r = r := by rw [Column.release, hdelete]
      rw [hsame] at hget
      refine ⟨hget, fun hmem hclears => ?_⟩
      obtain rfl | hmem := List.mem_cons.mp hmem
      · exact absurd hdelete hclears
      · exact hlater hmem hclears
    | setNull clear =>
      have hrelease : d.release keys r = if d.refersTo keys r then clear r else r := by
        rw [Column.release, hdelete]
      rw [hrelease] at hget
      by_cases hrefers : d.refersTo keys r = true
      · rw [if_pos hrefers] at hget
        obtain hnone | hsame := S.get_clear_of d hd clear hdelete c hc r
        · exact absurd (hnone.symm.trans hget) (by simp)
        · refine ⟨hsame.symm.trans hget, fun hmem hclears => ?_⟩
          obtain rfl | hmem := List.mem_cons.mp hmem
          · exact absurd ((S.get_clear c hc clear hdelete r).symm.trans hget) (by simp)
          · exact hlater hmem hclears
      · rw [if_neg hrefers] at hget
        refine ⟨hget, fun hmem hclears => ?_⟩
        obtain rfl | hmem := List.mem_cons.mp hmem
        · exact fun hk => hrefers (Column.refersTo_iff.mpr ⟨k, hk, hget⟩)
        · exact hlater hmem hclears

theorem get_release (hc : c ∈ S.columns) (h : c.get (S.release keys r) = some k) :
    c.get r = some k ∧ (c.onDelete ≠ .cascade → k ∉ keys) := by
  obtain ⟨hget, hstays⟩ := get_foldl_release (List.Subset.refl _) hc h
  exact ⟨hget, hstays hc⟩

theorem key_foldl_release {cs : List (Column ρ κ)} (sub : cs ⊆ S.columns) :
    S.key (cs.foldl (fun r d => d.release keys r) r) = S.key r := by
  induction cs generalizing r with
  | nil => rfl
  | cons d cs ih =>
    refine (ih (fun e he => sub (List.mem_cons_of_mem d he))).trans ?_
    show S.key (d.release keys r) = S.key r
    cases hdelete : d.onDelete with
    | cascade => rw [Column.release, hdelete]
    | setNull clear =>
      have hrelease : d.release keys r = if d.refersTo keys r then clear r else r := by
        rw [Column.release, hdelete]
      rw [hrelease]
      split
      · exact S.key_clear d (sub List.mem_cons_self) clear hdelete r
      · rfl

@[simp] theorem key_release : S.key (S.release keys r) = S.key r :=
  key_foldl_release (List.Subset.refl _)

/-- Only the keys that the row refers to count. -/
theorem foldl_release_congr {cs : List (Column ρ κ)} {keys' : List κ} (sub : cs ⊆ S.columns)
    (h : ∀ c ∈ S.columns, ∀ k, c.get r = some k → (k ∈ keys ↔ k ∈ keys')) :
    cs.foldl (fun r d => d.release keys r) r = cs.foldl (fun r d => d.release keys' r) r := by
  induction cs generalizing r with
  | nil => rfl
  | cons d cs ih =>
    have hd : d ∈ S.columns := sub List.mem_cons_self
    have hrefers : d.refersTo keys r = d.refersTo keys' r := by
      rw [Bool.eq_iff_iff, Column.refersTo_iff, Column.refersTo_iff]
      exact exists_congr fun k => and_congr_left fun hk => h d hd k hk
    have hrelease : d.release keys r = d.release keys' r := by
      unfold Column.release
      rw [hrefers]
    rw [List.foldl_cons, List.foldl_cons, ← hrelease]
    refine ih (fun e he => sub (List.mem_cons_of_mem d he)) fun c hc k hk => h c hc k ?_
    exact (get_foldl_release (List.cons_subset.mpr ⟨hd, List.nil_subset _⟩) hc hk).1

theorem release_congr {keys' : List κ}
    (h : ∀ c ∈ S.columns, ∀ k, c.get r = some k → (k ∈ keys ↔ k ∈ keys')) :
    S.release keys r = S.release keys' r :=
  foldl_release_congr (List.Subset.refl _) h

@[simp] theorem release_nil : S.release [] r = r := by
  have hnone : ∀ cs : List (Column ρ κ), cs.foldl (fun r d => d.release [] r) r = r := by
    intro cs
    induction cs with
    | nil => rfl
    | cons d cs ih =>
      have hself : d.release [] r = r := by
        unfold Column.release Column.refersTo
        cases d.onDelete <;> cases d.get r <;> rfl
      rw [List.foldl_cons, hself, ih]
  exact hnone S.columns

/-! ### What a deletion leaves -/

/-- **Deletion by the declared columns leaves nothing dangling.** -/
theorem Intact.delete (intact : S.Intact rows) (k : κ) : S.Intact (S.delete rows k) := by
  unfold Schema.delete
  split
  · obtain ⟨hkept, hgone, -⟩ := mem_cascade S (rows.filter fun r => !decide (S.key r = k)) [k]
    intro u hu c hc k' hk'
    obtain ⟨r, hr, rfl⟩ := List.mem_map.mp hu
    obtain ⟨hget, hcleared⟩ := get_release hc hk'
    obtain ⟨hrest, hstays⟩ := (hkept r).mp hr
    have hthere : k' ∉ (S.cascade (rows.filter fun r => !decide (S.key r = k)) [k]).2 := by
      by_cases hcascade : c.onDelete = .cascade
      · intro hgoes
        obtain hself | ⟨t, ht, hbelow, rfl⟩ := (hgone k').mp hgoes
        · exact hstays (.direct (goesWith_iff.mpr ⟨c, hc, hcascade, k', hself, hget⟩))
        · exact hstays (.deeper t ht hbelow
            (goesWith_iff.mpr ⟨c, hc, hcascade, _, List.mem_singleton.mpr rfl, hget⟩))
      · exact hcleared hcascade
    obtain ⟨t, ht, rfl⟩ := intact r (List.mem_filter.mp hrest).1 c hc k' hget
    have hne : S.key t ≠ k := fun heq => hthere ((hgone _).mpr (.inl (List.mem_singleton.mpr heq)))
    have htrest : t ∈ rows.filter fun r => !decide (S.key r = k) :=
      List.mem_filter.mpr ⟨ht, by simpa using hne⟩
    refine ⟨S.release _ t, List.mem_map_of_mem ((hkept t).mpr ⟨htrest, fun hbelow => ?_⟩),
      key_release⟩
    exact hthere ((hgone _).mpr (.inr ⟨t, htrest, hbelow, rfl⟩))
  · exact intact

/-- Keys are only taken away, the deleted one among them. -/
theorem keys_delete (S : Schema ρ κ) (rows : List ρ) (k : κ) :
    ((S.delete rows k).map S.key).Sublist (rows.map S.key) ∧
      k ∉ (S.delete rows k).map S.key := by
  unfold Schema.delete
  split
  · obtain ⟨-, -, hsub⟩ := mem_cascade S (rows.filter fun r => !decide (S.key r = k)) [k]
    have hkeys : ((S.cascade (rows.filter fun r => !decide (S.key r = k)) [k]).1.map
        (S.release (S.cascade (rows.filter fun r => !decide (S.key r = k)) [k]).2)).map S.key =
        (S.cascade (rows.filter fun r => !decide (S.key r = k)) [k]).1.map S.key := by
      rw [List.map_map]
      exact List.map_congr_left fun r _ => key_release
    show (((S.cascade _ [k]).1.map _).map S.key).Sublist _ ∧ k ∉ ((S.cascade _ [k]).1.map _).map S.key
    rw [hkeys]
    refine ⟨(hsub.trans List.filter_sublist).map _, fun hk => ?_⟩
    obtain ⟨r, hr, heq⟩ := List.mem_map.mp hk
    exact absurd (List.mem_filter.mp (hsub.subset hr)).2 (by simp [heq])
  · rename_i hnone
    refine ⟨.refl _, fun hk => hnone ?_⟩
    obtain ⟨r, hr, heq⟩ := List.mem_map.mp hk
    exact List.any_eq_true.mpr ⟨r, hr, decide_eq_true heq⟩

/-- No column refers to a row that goes with another. -/
def Shallow (S : Schema ρ κ) (rows : List ρ) : Prop :=
  ∀ r ∈ rows, ∀ keys, S.goesWith keys r = true →
    ∀ t ∈ rows, ∀ c ∈ S.columns, c.get t ≠ some (S.key r)

/-- A cascade is one level deep where no column refers to a row that goes along. -/
theorem cascade_of_shallow (shallow : S.Shallow rows) :
    S.cascade rows keys =
      (S.others rows keys, keys ++ (S.dependents rows keys).map S.key) := by
  have hdeep : S.dependents (S.others rows keys) ((S.dependents rows keys).map S.key) = [] := by
    rw [dependents, List.filter_eq_nil_iff]
    intro r hr hgoes
    obtain ⟨t, ht, hgoes⟩ := goesWith_map.mp hgoes
    obtain ⟨hmem, hdirect⟩ := mem_dependents.mp ht
    obtain ⟨c, hc, -, k, hk, hget⟩ := goesWith_iff.mp hgoes
    obtain rfl := List.mem_singleton.mp hk
    exact shallow t hmem keys hdirect r (mem_others.mp hr).1 c hc hget
  rw [cascade]
  split
  next hnone =>
    have hall : S.others rows keys = rows := by
      rw [others, List.filter_eq_self]
      intro r hr
      rw [Bool.not_eq_true', ← Bool.not_eq_true]
      exact fun hgoes => absurd (mem_dependents.mpr ⟨hr, hgoes⟩) (by simp [hnone])
    rw [hall, hnone, List.map_nil, List.append_nil]
  next =>
    rw [cascade, dif_pos hdeep]

/-- **One filter and one map**, where no column refers to a row that goes along. -/
theorem delete_eq_of_shallow (intact : S.Intact rows) (shallow : S.Shallow rows) (k : κ) :
    S.delete rows k = (rows.filter fun r => !decide (S.key r = k) && !S.goesWith [k] r).map
      (S.release [k]) := by
  unfold Schema.delete
  split
  · have hshallow : S.Shallow (rows.filter fun r => !decide (S.key r = k)) :=
      fun r hr keys hgoes t ht => shallow r (List.mem_filter.mp hr).1 keys hgoes t
        (List.mem_filter.mp ht).1
    rw [cascade_of_shallow hshallow, others, List.filter_filter]
    have hfilter : (rows.filter fun r => !S.goesWith [k] r && !decide (S.key r = k)) =
        rows.filter fun r => !decide (S.key r = k) && !S.goesWith [k] r := by
      simp only [Bool.and_comm]
    show (List.filter _ rows).map _ = _
    rw [hfilter]
    refine List.map_congr_left fun r hr => release_congr fun c hc k' hk' => ?_
    rw [List.mem_append]
    refine or_iff_left fun hdependent => ?_
    obtain ⟨t, ht, rfl⟩ := List.mem_map.mp hdependent
    obtain ⟨hmem, hgoes⟩ := mem_dependents.mp ht
    exact shallow t (List.mem_filter.mp hmem).1 [k] hgoes r (List.mem_filter.mp hr).1 c hc hk'
  · rename_i hnone
    have habsent : ∀ r ∈ rows, S.key r ≠ k := fun r hr heq =>
      hnone (List.any_eq_true.mpr ⟨r, hr, decide_eq_true heq⟩)
    -- nothing refers to a row that is not there
    have hunreferred : ∀ r ∈ rows, ∀ c ∈ S.columns, c.get r ≠ some k := by
      intro r hr c hc hget
      obtain ⟨t, ht, heq⟩ := intact r hr c hc k hget
      exact habsent t ht heq
    have hall : (rows.filter fun r => !decide (S.key r = k) && !S.goesWith [k] r) = rows := by
      rw [List.filter_eq_self]
      intro r hr
      have hstays : ¬ S.goesWith [k] r = true := by
        intro hgoes
        obtain ⟨c, hc, -, k', hk', hget⟩ := goesWith_iff.mp hgoes
        obtain rfl := List.mem_singleton.mp hk'
        exact hunreferred r hr c hc hget
      simp [habsent r hr, hstays]
    rw [hall]
    refine ((List.map_congr_left fun r hr => ?_).trans (List.map_id' rows)).symm
    refine (release_congr fun c hc k' hk' => ?_).trans release_nil
    exact iff_of_false (fun hmem => hunreferred r hr c hc (List.mem_singleton.mp hmem ▸ hk'))
      List.not_mem_nil

/-! ### Deleting many rows -/

variable {p : ρ → Bool}

/-- **No column refers to a deleted row.** -/
theorem get_deleteAll (hr : r ∈ S.deleteAll rows p) (hc : c ∈ S.columns) (ht : t ∈ rows)
    (hp : p t = true) : c.get r ≠ some (S.key t) := by
  intro hget
  have hkey : S.key t ∈ (rows.filter p).map S.key :=
    List.mem_map_of_mem (List.mem_filter.mpr ⟨ht, hp⟩)
  obtain ⟨hkept, hgone, -⟩ :=
    mem_cascade S (rows.filter fun r => !p r) ((rows.filter p).map S.key)
  obtain ⟨r₀, hr₀, rfl⟩ := List.mem_map.mp hr
  obtain ⟨hget₀, hcleared⟩ := get_release hc hget
  by_cases hcascade : c.onDelete = .cascade
  · have hgoes : S.goesWith ((rows.filter p).map S.key) r₀ = true :=
      goesWith_iff.mpr ⟨c, hc, hcascade, _, hkey, hget₀⟩
    exact ((hkept r₀).mp hr₀).2 (.direct hgoes)
  · exact hcleared hcascade ((hgone _).mpr (.inl hkey))

/-- The columns of a row refer to none of the keys: it stays as it is. -/
theorem release_of_unreferred (h : ∀ c ∈ S.columns, ∀ k ∈ keys, c.get r ≠ some k) :
    S.release keys r = r := by
  refine (release_congr fun c hc k hk => ?_).trans release_nil
  exact iff_of_false (fun hmem => h c hc k hmem hk) List.not_mem_nil

/-- **One filter**, where no other row refers to a deleted one. -/
theorem deleteAll_eq_filter (h : ∀ r ∈ rows, p r = false → ∀ c ∈ S.columns, ∀ t ∈ rows,
    p t = true → c.get r ≠ some (S.key t)) : S.deleteAll rows p = rows.filter fun r => !p r := by
  have hfree : ∀ r ∈ rows.filter fun r => !p r, ∀ c ∈ S.columns,
      ∀ k ∈ (rows.filter p).map S.key, c.get r ≠ some k := by
    intro r hr c hc k hk
    obtain ⟨hmem, hstays⟩ := List.mem_filter.mp hr
    obtain ⟨t, ht, rfl⟩ := List.mem_map.mp hk
    obtain ⟨htmem, htp⟩ := List.mem_filter.mp ht
    exact h r hmem (by simpa using hstays) c hc t htmem htp
  have hnone : S.dependents (rows.filter fun r => !p r) ((rows.filter p).map S.key) = [] := by
    rw [dependents, List.filter_eq_nil_iff]
    intro r hr hgoes
    obtain ⟨c, hc, -, k, hk, hget⟩ := goesWith_iff.mp hgoes
    exact hfree r hr c hc k hk hget
  unfold deleteAll
  rw [cascade, dif_pos hnone]
  refine (List.map_congr_left fun r hr => ?_).trans (List.map_id' _)
  exact release_of_unreferred (hfree r hr)

/-- A cascade stays among keys that are closed under reference, and leaves the rows out of their
    reach. -/
theorem filter_cascade {K : κ → Prop} {q : ρ → Bool}
    (hkeys : ∀ k ∈ keys, K k)
    (closed : ∀ r ∈ rows, ∀ c ∈ S.columns, ∀ k, c.get r = some k → K k → K (S.key r))
    (hfree : ∀ r ∈ rows, q r = true → ∀ c ∈ S.columns, ∀ k, c.get r = some k → ¬ K k) :
    (S.cascade rows keys).1.filter q = rows.filter q ∧ ∀ k ∈ (S.cascade rows keys).2, K k := by
  fun_induction cascade S rows keys with
  | case1 rows keys _ => exact ⟨rfl, hkeys⟩
  | case2 rows keys _ kept below hrec ih =>
    have hsub : ∀ r ∈ S.others rows keys, r ∈ rows := fun r hr => (mem_others.mp hr).1
    have hbelow : ∀ k ∈ (S.dependents rows keys).map S.key, K k := by
      intro k hk
      obtain ⟨r, hr, rfl⟩ := List.mem_map.mp hk
      obtain ⟨hmem, hgoes⟩ := mem_dependents.mp hr
      obtain ⟨c, hc, -, k', hk', hget⟩ := goesWith_iff.mp hgoes
      exact closed r hmem c hc k' hget (hkeys k' hk')
    obtain ⟨hfilter, hgone⟩ := ih hbelow (fun r hr => closed r (hsub r hr))
      (fun r hr => hfree r (hsub r hr))
    rw [hrec] at hfilter hgone
    refine ⟨hfilter.trans ?_, fun k hk => ?_⟩
    · rw [others, List.filter_filter]
      refine List.filter_congr fun r hr => ?_
      cases hq : q r with
      | false => rfl
      | true =>
        have hstays : ¬ S.goesWith keys r = true := by
          intro hgoes
          obtain ⟨c, hc, -, k, hk, hget⟩ := goesWith_iff.mp hgoes
          exact hfree r hr hq c hc k hget (hkeys k hk)
        simp [hstays]
    · rcases List.mem_append.mp hk with hk | hk
      · exact hkeys k hk
      · exact hgone k hk

/-- **Rows out of reach of the deleted ones are as they were.** -/
theorem filter_deleteAll (K : κ → Prop) (Q : κ → Bool)
    (hdeleted : ∀ r ∈ rows, p r = true → K (S.key r) ∧ Q (S.key r) = false)
    (closed : ∀ r ∈ rows, ∀ c ∈ S.columns, ∀ k, c.get r = some k → K k → K (S.key r))
    (hfree : ∀ r ∈ rows, Q (S.key r) = true → ∀ c ∈ S.columns, ∀ k, c.get r = some k → ¬ K k) :
    (S.deleteAll rows p).filter (fun r => Q (S.key r)) = rows.filter fun r => Q (S.key r) := by
  have hsub : ∀ r ∈ rows.filter fun r => !p r, r ∈ rows := fun r hr => (List.mem_filter.mp hr).1
  have hkeys : ∀ k ∈ (rows.filter p).map S.key, K k := by
    intro k hk
    obtain ⟨t, ht, rfl⟩ := List.mem_map.mp hk
    obtain ⟨hmem, htp⟩ := List.mem_filter.mp ht
    exact (hdeleted t hmem htp).1
  obtain ⟨hfilter, hgone⟩ := filter_cascade (q := fun r => Q (S.key r)) hkeys
    (fun r hr => closed r (hsub r hr)) (fun r hr => hfree r (hsub r hr))
  have hdelete : S.deleteAll rows p =
      (S.cascade (rows.filter fun r => !p r) ((rows.filter p).map S.key)).1.map
        (S.release (S.cascade (rows.filter fun r => !p r) ((rows.filter p).map S.key)).2) := rfl
  rw [hdelete, List.filter_map]
  have hpred : ((fun r => Q (S.key r)) ∘
      S.release (S.cascade (rows.filter fun r => !p r) ((rows.filter p).map S.key)).2) =
      fun r => Q (S.key r) := by
    ext r
    show Q (S.key (S.release _ r)) = Q (S.key r)
    rw [key_release]
  rw [hpred]
  have hkept : (rows.filter fun r => !p r).filter (fun r => Q (S.key r)) =
      rows.filter fun r => Q (S.key r) := by
    rw [List.filter_filter]
    refine List.filter_congr fun r hr => ?_
    cases hp : p r with
    | false => simp
    | true => simp [(hdeleted r hr hp).2]
  rw [hfilter, hkept]
  refine (List.map_congr_left fun r hr => ?_).trans (List.map_id' _)
  obtain ⟨hmem, hQ⟩ := List.mem_filter.mp hr
  exact release_of_unreferred fun c hc k hk hget => hfree r hmem hQ c hc k hget (hgone k hk)

end

end Schema

end Montr.ForeignKeys
