import Mathlib.Data.List.Basic
import Mathlib.Data.List.Nodup
import Montr.Lib.JsonTree
import Montr.Lib.Schemas

namespace Montr.Wire

/-!
# Readers

Typed readers of JSON values: a reader refuses a value, or gives what it stands for. What was read
has a tree of its own, so that it can be compared with what was written.

* `readVec`, `readOption`, `readStruct`, … — the readers;
* `Decodes` — a value is written, read, and the same in the tree of what was read;
* `decodes_vec`, `fieldDecodes_nullable`, … — one rule for each reader;
* `decodes_struct` — a struct, whose reader finds each field under its key.
-/

universe u v

variable {ρ ω ν : Type u} {α : Type v}

/-! ### The readers -/

def readBool : Json ω → Option Bool
  | .bool b => some b
  | _ => none

def readString : Json ω → Option String
  | .string s => some s
  | _ => none

def readNumber (read : ω → Option α) : Json ω → Option α
  | .number x => read x
  | _ => none

/-- Every item in turn. -/
def readItems (read : Json ω → Option α) : List (Json ω) → Option (List α)
  | [] => some []
  | v :: rest => (read v).bind fun a => (readItems read rest).map (a :: ·)

def readVec (read : Json ω → Option α) : Json ω → Option (List α)
  | .array vs => readItems read vs
  | _ => none

def readOption (read : Json ω → Option α) : Json ω → Option (Option α)
  | .null => some none
  | v => (read v).map some

/-- A struct from the entries of an object. -/
def readStruct (read : List (String × Json ω) → Option α) : Json ω → Option α
  | .object entries => read entries
  | _ => none

/-- An entry that must be there. -/
def requiredEntry (read : Json ω → Option α) : Option (Json ω) → Option α := (·.bind read)

/-- An entry that may be left out. -/
def defaultEntry (default : α) (read : Json ω → Option α) : Option (Json ω) → Option α
  | none => some default
  | some v => read v

/-- An entry that may be left out or `null`. -/
def optionalEntry (read : Json ω → Option α) : Option (Json ω) → Option (Option α) :=
  defaultEntry none (readOption read)

mutual

/-- Any value, with each number as it is read. -/
def readValue (read : ω → Option ν) : Json ω → Option (Json ν)
  | .null => some .null
  | .bool b => some (.bool b)
  | .number x => (read x).map .number
  | .string s => some (.string s)
  | .array items => (readValues read items).map .array
  | .object entries => (readEntries read entries).map .object

def readValues (read : ω → Option ν) : List (Json ω) → Option (List (Json ν))
  | [] => some []
  | v :: items => (readValue read v).bind fun w => (readValues read items).map (w :: ·)

def readEntries (read : ω → Option ν) : List (String × Json ω) → Option (List (String × Json ν))
  | [] => some []
  | (key, v) :: entries =>
    (readValue read v).bind fun w => (readEntries read entries).map ((key, w) :: ·)

end

/-- One step of a `do` block. -/
theorem bind_eq_some {β : Type v} {o : Option α} {f : α → Option β} {b : β} :
    (o >>= f) = some b ↔ ∃ a, o = some a ∧ f a = some b := Option.bind_eq_some_iff

/-! ### What was read is what was written -/

/-- **Decoded**: written, read, and the same. -/
def Decodes (write : ρ → Json ω) (value : ρ → Option ν) (read : Json ω → Option α)
    (tree : α → Json ν) (v : Json ρ) : Prop :=
  ∃ a, read (v.subst write) = some a ∧ Same value v (tree a)

/-- The same of an entry, which may be left out. -/
def FieldDecodes (write : ρ → Json ω) (value : ρ → Option ν) (read : Option (Json ω) → Option α)
    (tree : α → Option (Json ν)) (o : Option (Json ρ)) : Prop :=
  ∃ a, read (o.map (Json.subst write)) = some a ∧ Option.Rel (Same value) o (tree a)

section

variable {write : ρ → Json ω} {value : ρ → Option ν} {read : Json ω → Option α}
  {tree : α → Json ν}

/-! ### One rule for each reader -/

@[simp] theorem decodes_bool {b : Bool} :
    Decodes write value readBool .bool (.bool b) :=
  ⟨b, rfl, same_bool.mpr rfl⟩

@[simp] theorem decodes_string {s : String} :
    Decodes write value readString .string (.string s) :=
  ⟨s, rfl, same_string.mpr rfl⟩

theorem readItems_eq_some_iff {vs : List (Json ω)} {as : List α} :
    readItems read vs = some as ↔ List.Forall₂ (fun v a => read v = some a) vs as := by
  induction vs generalizing as with
  | nil => simp [readItems, eq_comm]
  | cons v vs ih =>
    simp only [readItems, Option.bind_eq_some_iff, Option.map_eq_some_iff, ih]
    cases as with
    | nil => simp
    | cons a as =>
      simp only [List.cons.injEq, List.forall₂_cons]
      constructor
      · rintro ⟨a', ha, rest, hrest, rfl, rfl⟩
        exact ⟨ha, hrest⟩
      · rintro ⟨ha, hrest⟩
        exact ⟨a, ha, as, hrest, rfl, rfl⟩

@[simp] theorem decodes_vec {vs : List (Json ρ)} :
    Decodes write value (readVec read) (fun as => .array (as.map tree)) (.array vs) ↔
      ∀ v ∈ vs, Decodes write value read tree v := by
  unfold Decodes
  rw [← exists_forall₂_iff, Json.subst_array]
  simp only [readVec, readItems_eq_some_iff, List.forall₂_map_left_iff, same_array,
    Json.array.injEq, exists_eq_left', List.forall₂_map_right_iff]

/-- An entry that is there. -/
@[simp] theorem fieldDecodes_required {v : Json ρ} :
    FieldDecodes write value (requiredEntry read) (fun a => some (tree a)) (some v) ↔
      Decodes write value read tree v := by
  simp [FieldDecodes, requiredEntry, Decodes]

@[simp] theorem fieldDecodes_default {default : α} {v : Json ρ} :
    FieldDecodes write value (defaultEntry default read) (fun a => some (tree a)) (some v) ↔
      Decodes write value read tree v := by
  simp [FieldDecodes, defaultEntry, Decodes]

/-- An `Option` that is there as `null`. -/
theorem fieldDecodes_nullable (hnull : ∀ a, read .null = some a → tree a = .null) {v : Json ρ} :
    FieldDecodes write value (optionalEntry read) (fun o => some ((o.map tree).getD .null))
        (some v) ↔
      v = .null ∨ Decodes write value read tree v := by
  simp only [FieldDecodes, optionalEntry, defaultEntry, Option.map_some, Option.rel_some_some,
    Decodes]
  by_cases hwrite : v.subst write = .null
  · rw [hwrite]
    have hsame : Same value v .null → v = .null := by
      intro h
      cases v with
      | null => rfl
      | bool | number | string | array | object => simp [Same, Json.subst] at h
    constructor
    · rintro ⟨o, ho, h⟩
      obtain rfl : none = o := Option.some.inj ho
      exact .inl (hsame h)
    · rintro (rfl | ⟨a, ha, h⟩)
      · exact ⟨none, rfl, same_null.mpr rfl⟩
      · exact ⟨none, rfl, hnull a ha ▸ h⟩
  · have hread : readOption read (v.subst write) = (read (v.subst write)).map some := by
      cases hv : v.subst write with
      | null => exact absurd hv hwrite
      | bool | number | string | array | object => rfl
    have hne : v ≠ .null := by
      rintro rfl
      exact hwrite rfl
    simp [hread, hne]

/-- An `Option` that is left out. -/
theorem fieldDecodes_skipped (hnull : read .null = none) {o : Option (Json ρ)} :
    FieldDecodes write value (optionalEntry read) (Option.map tree) o ↔
      ∀ v ∈ o, Decodes write value read tree v := by
  cases o with
  | none => simp [FieldDecodes, optionalEntry, defaultEntry]
  | some v =>
    simp only [FieldDecodes, optionalEntry, defaultEntry, Option.map_some, Option.mem_some_iff,
      forall_eq', Decodes]
    by_cases hwrite : v.subst write = .null
    · rw [hwrite, hnull]
      refine iff_of_false ?_ (by simp)
      rintro ⟨o, ho, hrel⟩
      obtain rfl : none = o := Option.some.inj ho
      cases hrel
    · have hread : readOption read (v.subst write) = (read (v.subst write)).map some := by
        cases hv : v.subst write with
        | null => exact absurd hv hwrite
        | bool | number | string | array | object => rfl
      simp [hread]

end

/-! ### Any value -/

section

variable {write : ρ → Json ω} {value : ρ → Option ν} {read : ω → Option ν}

/-- A number that is written and read as the number that it is. -/
def ReadBack (write : ρ → Json ω) (value : ρ → Option ν) (read : ω → Option ν) (x : ρ) : Prop :=
  ∃ y, value x = some y ∧ readValue read (write x) = some (.number y)

mutual

/-- A value decodes exactly when its numbers are read back. -/
theorem decodes_value_iff : ∀ v : Json ρ,
    Decodes write value (readValue read) (fun w => w) v ↔ v.Each (ReadBack write value read)
  | .null => by simp [Decodes, Json.subst, readValue, same_null]
  | .bool b => by simp [Decodes, Json.subst, readValue, same_bool]
  | .string s => by simp [Decodes, Json.subst, readValue, same_string]
  | .number x => by
    simp only [Decodes, Json.subst, same_number, Json.each_number, ReadBack]
    constructor
    · rintro ⟨w, hw, y, hy, rfl⟩
      exact ⟨y, hy, hw⟩
    · rintro ⟨y, hy, hw⟩
      exact ⟨.number y, hw, y, hy, rfl⟩
  | .array items => by
    rw [Json.Each, ← decodes_values_iff items]
    simp only [Decodes, Json.subst, readValue, Option.map_eq_some_iff, same_array]
    constructor
    · rintro ⟨w, ⟨ws, hws, rfl⟩, ws', heq, hsame⟩
      obtain rfl := Json.array.inj heq
      exact ⟨ws, hws, hsame⟩
    · rintro ⟨ws, hws, hsame⟩
      exact ⟨.array ws, ⟨ws, hws, rfl⟩, ws, rfl, hsame⟩
  | .object entries => by
    rw [Json.Each, ← decodes_entries_iff entries]
    simp only [Decodes, Json.subst, readValue, Option.map_eq_some_iff, same_object]
    constructor
    · rintro ⟨w, ⟨es, hes, rfl⟩, es', heq, hsame⟩
      obtain rfl := Json.object.inj heq
      exact ⟨es, hes, hsame⟩
    · rintro ⟨es, hes, hsame⟩
      exact ⟨.object es, ⟨es, hes, rfl⟩, es, rfl, hsame⟩

theorem decodes_values_iff : ∀ items : List (Json ρ),
    (∃ ws, readValues read (Json.substItems write items) = some ws ∧
      List.Forall₂ (Same value) items ws) ↔ Json.EachItem (ReadBack write value read) items
  | [] => by simp [Json.substItems, readValues, Json.EachItem]
  | v :: items => by
    rw [Json.EachItem, ← decodes_value_iff v, ← decodes_values_iff items]
    simp only [Json.substItems, readValues, Option.bind_eq_some_iff, Option.map_eq_some_iff]
    constructor
    · rintro ⟨_, ⟨w, hw, ws, hws, rfl⟩, hsame⟩
      obtain ⟨hsame, hsames⟩ := List.forall₂_cons.mp hsame
      exact ⟨⟨w, hw, hsame⟩, ws, hws, hsames⟩
    · rintro ⟨⟨w, hw, hsame⟩, ws, hws, hsames⟩
      exact ⟨w :: ws, ⟨w, hw, ws, hws, rfl⟩, .cons hsame hsames⟩

theorem decodes_entries_iff : ∀ entries : List (String × Json ρ),
    (∃ es, readEntries read (Json.substEntries write entries) = some es ∧
      List.Forall₂ (fun e e' => e.1 = e'.1 ∧ Same value e.2 e'.2) entries es) ↔
        Json.EachEntry (ReadBack write value read) entries
  | [] => by simp [Json.substEntries, readEntries, Json.EachEntry]
  | (key, v) :: entries => by
    rw [Json.EachEntry, ← decodes_value_iff v, ← decodes_entries_iff entries]
    simp only [Json.substEntries, readEntries, Option.bind_eq_some_iff, Option.map_eq_some_iff]
    constructor
    · rintro ⟨_, ⟨w, hw, es, hes, rfl⟩, hsame⟩
      obtain ⟨⟨-, hsame⟩, hsames⟩ := List.forall₂_cons.mp hsame
      exact ⟨⟨w, hw, hsame⟩, es, hes, hsames⟩
    · rintro ⟨⟨w, hw, hsame⟩, es, hes, hsames⟩
      exact ⟨(key, w) :: es, ⟨w, hw, es, hes, rfl⟩, .cons ⟨rfl, hsame⟩ hsames⟩

end

end

/-! ### Structs -/

section

variable {value : ρ → Option ν}

/-- The entries of two structs with the same fields: one that the other lacks has no counterpart,
    since each field has its own key. -/
theorem same_entries_iff {fs : List (String × Option (Json ρ))}
    {gs : List (String × Option (Json ν))} (hkeys : List.Forall₂ (fun f g => f.1 = g.1) fs gs)
    (hnodup : (fs.map (·.1)).Nodup) :
    List.Forall₂ (fun e e' => e.1 = e'.1 ∧ Same value e.2 e'.2) (Json.entries fs)
        (Json.entries gs) ↔
      List.Forall₂ (fun f g => Option.Rel (Same value) f.2 g.2) fs gs := by
  induction hkeys with
  | nil => simp [Json.entries]
  | @cons f g fs gs hkey hkeys ih =>
    obtain ⟨key, o⟩ := f
    obtain ⟨key', o'⟩ := g
    obtain rfl : key = key' := hkey
    obtain ⟨hnot, hnodup⟩ := List.nodup_cons.mp hnodup
    rw [List.forall₂_cons, ← ih hnodup, Json.entries_cons, Json.entries_cons]
    have hkeys : fs.map (·.1) = gs.map (·.1) := by
      rw [← List.forall₂_eq_eq_eq, List.forall₂_map_left_iff, List.forall₂_map_right_iff]
      exact hkeys
    cases o with
    | none =>
      cases o' with
      | none => simp
      | some w =>
        refine iff_of_false (fun h => ?_) fun h => by cases h.1
        obtain ⟨e, rest, ⟨heq, -⟩, -, hes⟩ := List.forall₂_cons_right_iff.mp h
        have hmem : e ∈ Json.entries fs := by simp [show Json.entries fs = e :: rest from hes]
        have hkey := Json.key_mem_of_mem_entries hmem
        rw [heq] at hkey
        exact hnot hkey
    | some v =>
      cases o' with
      | none =>
        refine iff_of_false (fun h => ?_) fun h => by cases h.1
        obtain ⟨e, rest, ⟨heq, -⟩, -, hes⟩ := List.forall₂_cons_left_iff.mp h
        have hmem : e ∈ Json.entries gs := by simp [show Json.entries gs = e :: rest from hes]
        have hkey := Json.key_mem_of_mem_entries hmem
        rw [← hkeys, ← heq] at hkey
        exact hnot hkey
      | some w => simp

/-- A struct is read from the fields under their keys. -/
theorem readStruct_subst {write : ρ → Json ω} {read : List (String × Json ω) → Option α}
    {fs : List (String × Option (Json ρ))} {a : α} (hnodup : (fs.map (·.1)).Nodup)
    (h : ∀ es, (∀ f ∈ fs, es.lookup f.1 = f.2.map (Json.subst write)) → read es = some a) :
    readStruct read ((Json.struct fs).subst write) = some a := by
  rw [Json.subst_struct]
  exact h _ fun _ hf => Json.lookup_entries_subst hnodup hf

/-- **A struct**, whose reader finds each of its fields under the key of the field. -/
theorem decodes_struct {write : ρ → Json ω} {read : List (String × Json ω) → Option α}
    {fields : α → List (String × Option (Json ν))} {fs : List (String × Option (Json ρ))} {P : Prop}
    (hnodup : (fs.map (·.1)).Nodup)
    (hkeys : ∀ es a, (∀ f ∈ fs, es.lookup f.1 = f.2.map (Json.subst write)) → read es = some a →
      List.Forall₂ (fun f g => f.1 = g.1) fs (fields a))
    (h : ∀ es, (∀ f ∈ fs, es.lookup f.1 = f.2.map (Json.subst write)) →
      ((∃ a, read es = some a ∧
        List.Forall₂ (fun f g => Option.Rel (Same value) f.2 g.2) fs (fields a)) ↔ P)) :
    Decodes write value (readStruct read) (fun a => .struct (fields a)) (.struct fs) ↔ P := by
  have hlookup : ∀ f ∈ fs, (Json.entries (fs.map fun f => (f.1, f.2.map (Json.subst write)))).lookup
      f.1 = f.2.map (Json.subst write) := fun _ hf => Json.lookup_entries_subst hnodup hf
  rw [← h _ hlookup, Decodes, Json.subst_struct]
  simp only [readStruct, Json.struct, same_object, Json.object.injEq, exists_eq_left']
  refine exists_congr fun a => and_congr_right fun ha => ?_
  exact same_entries_iff (hkeys _ a hlookup ha) hnodup

end

end Montr.Wire
