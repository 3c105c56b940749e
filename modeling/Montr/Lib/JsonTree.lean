import Mathlib.Data.List.Basic

namespace Montr.Wire

/-!
# JSON values

JSON values over any type of numbers, since each side of a wire has numbers of its own.

* `Json.subst` — what becomes of the numbers;
* `Json.Each` — a property of every number;
* `Json.struct` — an object from its fields, some of which are left out;
* `Json.subst_eq_subst_iff` — two readings of a value agree exactly when they agree on its numbers.
-/

universe u v w

/-- A JSON value with numbers in `ν`. An object has its entries in the order of the text. -/
inductive Json (ν : Type u) : Type u
  | null
  | bool (b : Bool)
  | number (x : ν)
  | string (s : String)
  | array (items : List (Json ν))
  | object (entries : List (String × Json ν))

namespace Json

variable {ν : Type u} {μ : Type v} {κ : Type w}

mutual

/-- Each number is replaced by a value. -/
def subst (f : ν → Json μ) : Json ν → Json μ
  | .null => .null
  | .bool b => .bool b
  | .number x => f x
  | .string s => .string s
  | .array items => .array (substItems f items)
  | .object entries => .object (substEntries f entries)

def substItems (f : ν → Json μ) : List (Json ν) → List (Json μ)
  | [] => []
  | v :: items => v.subst f :: substItems f items

def substEntries (f : ν → Json μ) : List (String × Json ν) → List (String × Json μ)
  | [] => []
  | (key, v) :: entries => (key, v.subst f) :: substEntries f entries

end

mutual

/-- Every number satisfies `P`. -/
def Each (P : ν → Prop) : Json ν → Prop
  | .null | .bool _ | .string _ => True
  | .number x => P x
  | .array items => EachItem P items
  | .object entries => EachEntry P entries

def EachItem (P : ν → Prop) : List (Json ν) → Prop
  | [] => True
  | v :: items => v.Each P ∧ EachItem P items

def EachEntry (P : ν → Prop) : List (String × Json ν) → Prop
  | [] => True
  | (_, v) :: entries => v.Each P ∧ EachEntry P entries

end

mutual

/-- No more than `depth` arrays and objects are inside one another. -/
def nestsWithin : Nat → Json ν → Bool
  | _, .null | _, .bool _ | _, .number _ | _, .string _ => true
  | 0, .array _ | 0, .object _ => false
  | depth + 1, .array items => itemsNestWithin depth items
  | depth + 1, .object entries => entriesNestWithin depth entries

def itemsNestWithin : Nat → List (Json ν) → Bool
  | _, [] => true
  | depth, v :: items => v.nestsWithin depth && itemsNestWithin depth items

def entriesNestWithin : Nat → List (String × Json ν) → Bool
  | _, [] => true
  | depth, (_, v) :: entries => v.nestsWithin depth && entriesNestWithin depth entries

end

/-- The entries of the fields that have a value. -/
def entries (fields : List (String × Option (Json ν))) : List (String × Json ν) :=
  fields.flatMap fun field => (field.2.map fun v => (field.1, v)).toList

def struct (fields : List (String × Option (Json ν))) : Json ν := .object (entries fields)

@[simp] theorem substItems_eq_map (f : ν → Json μ) (items : List (Json ν)) :
    substItems f items = items.map (subst f) := by
  induction items with
  | nil => rfl
  | cons v items ih =>
    show v.subst f :: substItems f items = _
    rw [ih, List.map_cons]

@[simp] theorem substEntries_eq_map (f : ν → Json μ) (entries : List (String × Json ν)) :
    substEntries f entries = entries.map fun e => (e.1, e.2.subst f) := by
  induction entries with
  | nil => rfl
  | cons e entries ih =>
    show (e.1, e.2.subst f) :: substEntries f entries = _
    rw [ih, List.map_cons]

@[simp] theorem eachItem_iff {P : ν → Prop} {items : List (Json ν)} :
    EachItem P items ↔ ∀ v ∈ items, v.Each P := by
  induction items with
  | nil => exact iff_of_true trivial (List.forall_mem_nil _)
  | cons v items ih =>
    show v.Each P ∧ EachItem P items ↔ _
    rw [ih, List.forall_mem_cons]

@[simp] theorem eachEntry_iff {P : ν → Prop} {entries : List (String × Json ν)} :
    EachEntry P entries ↔ ∀ e ∈ entries, e.2.Each P := by
  induction entries with
  | nil => exact iff_of_true trivial (List.forall_mem_nil _)
  | cons e entries ih =>
    show e.2.Each P ∧ EachEntry P entries ↔ _
    rw [ih, List.forall_mem_cons]

theorem subst_array (f : ν → Json μ) (items : List (Json ν)) :
    (array items).subst f = .array (items.map (subst f)) :=
  congrArg array (substItems_eq_map f items)

theorem subst_object (f : ν → Json μ) (entries : List (String × Json ν)) :
    (object entries).subst f = .object (entries.map fun e => (e.1, e.2.subst f)) :=
  congrArg object (substEntries_eq_map f entries)

@[simp] theorem each_null {P : ν → Prop} : (null : Json ν).Each P := trivial

@[simp] theorem each_bool {P : ν → Prop} {b : Bool} : (bool b : Json ν).Each P := trivial

@[simp] theorem each_string {P : ν → Prop} {s : String} : (string s : Json ν).Each P := trivial

@[simp] theorem each_number {P : ν → Prop} {x : ν} : (number x).Each P ↔ P x := Iff.rfl

@[simp] theorem each_array {P : ν → Prop} {items : List (Json ν)} :
    (array items).Each P ↔ ∀ v ∈ items, v.Each P :=
  eachItem_iff

@[simp] theorem each_object {P : ν → Prop} {entries : List (String × Json ν)} :
    (object entries).Each P ↔ ∀ e ∈ entries, e.2.Each P :=
  eachEntry_iff

theorem entries_cons (key : String) (o : Option (Json ν))
    (fields : List (String × Option (Json ν))) :
    entries ((key, o) :: fields) = (o.map fun v => (key, v)).toList ++ entries fields := rfl

theorem subst_struct (f : ν → Json μ) (fields : List (String × Option (Json ν))) :
    (struct fields).subst f =
      struct (fields.map fun field => (field.1, field.2.map (subst f))) := by
  rw [struct, struct, subst_object, entries, entries, List.map_flatMap, List.flatMap_map]
  refine congrArg Json.object (congrArg (List.flatMap · fields) (funext fun field => ?_))
  cases field.2 <;> rfl

theorem key_mem_of_mem_entries {fields : List (String × Option (Json ν))} {e : String × Json ν}
    (h : e ∈ entries fields) : e.1 ∈ fields.map (·.1) := by
  obtain ⟨field, hfield, he⟩ := List.mem_flatMap.mp h
  obtain ⟨v, -, rfl⟩ := Option.map_eq_some_iff.mp (Option.mem_toList.mp he)
  exact List.mem_map_of_mem hfield

theorem lookup_entries_of_not_mem {fields : List (String × Option (Json ν))} {key : String}
    (h : key ∉ fields.map (·.1)) : (entries fields).lookup key = none := by
  rw [List.lookup_eq_none_iff]
  intro e he
  rw [bne_iff_ne]
  rintro rfl
  exact h (key_mem_of_mem_entries he)

/-- The first field is looked up, or the others are. -/
theorem lookup_entries_cons (key key' : String) (o : Option (Json ν))
    (fields : List (String × Option (Json ν))) :
    (entries ((key', o) :: fields)).lookup key =
      if key = key' then o.or ((entries fields).lookup key)
      else (entries fields).lookup key := by
  rw [entries_cons, List.lookup_append]
  by_cases h : key = key'
  · cases o with
    | none => simp [h]
    | some v => simp [h]
  · cases o with
    | none => simp [h]
    | some v => simp [h, List.lookup_cons, beq_eq_false_iff_ne.mpr h]

/-- Each field has its own entry. -/
theorem lookup_entries {fields : List (String × Option (Json ν))}
    (hnodup : (fields.map (·.1)).Nodup) {field : String × Option (Json ν)} (h : field ∈ fields) :
    (entries fields).lookup field.1 = field.2 := by
  induction fields with
  | nil => exact absurd h List.not_mem_nil
  | cons first rest ih =>
    obtain ⟨hfirst, hrest⟩ := List.nodup_cons.mp hnodup
    rw [entries_cons, List.lookup_append]
    obtain rfl | hmem := List.mem_cons.mp h
    · have hnone := lookup_entries_of_not_mem hfirst
      cases hvalue : field.2 with
      | none => simpa using hnone
      | some v => simp
    · have hne : field.1 ≠ first.1 := fun heq => hfirst (List.mem_map.mpr ⟨field, hmem, heq⟩)
      have hnone : ((first.2.map fun v => (first.1, v)).toList).lookup field.1 = none := by
        cases first.2 with
        | none => rfl
        | some v => simp [List.lookup_cons, beq_eq_false_iff_ne.mpr hne]
      rw [hnone, Option.none_or]
      exact ih hrest hmem

/-- The entry of a field once its numbers are replaced. -/
theorem lookup_entries_subst {f : ν → Json μ} {fields : List (String × Option (Json ν))}
    (hnodup : (fields.map (·.1)).Nodup) {field : String × Option (Json ν)} (h : field ∈ fields) :
    (entries (fields.map fun field => (field.1, field.2.map (subst f)))).lookup field.1 =
      field.2.map (subst f) := by
  have hmem : (field.1, field.2.map (subst f)) ∈
      fields.map fun field => (field.1, field.2.map (subst f)) :=
    List.mem_map.mpr ⟨field, h, rfl⟩
  refine lookup_entries ?_ hmem
  rwa [List.map_map]

theorem forall_mem_entries {fields : List (String × Option (Json ν))} {P : Json ν → Prop} :
    (∀ e ∈ entries fields, P e.2) ↔ ∀ field ∈ fields, ∀ v ∈ field.2, P v := by
  simp only [entries, List.mem_flatMap, Option.mem_toList, Option.mem_def, Option.map_eq_some_iff]
  constructor
  · intro h field hfield v hv
    exact h (field.1, v) ⟨field, hfield, v, hv, rfl⟩
  · rintro h e ⟨field, hfield, v, hv, rfl⟩
    exact h field hfield v hv

@[simp] theorem each_struct {P : ν → Prop} {fields : List (String × Option (Json ν))} :
    (struct fields).Each P ↔ ∀ field ∈ fields, ∀ v ∈ field.2, v.Each P := by
  rw [struct, each_object, forall_mem_entries]

/-! ### Nesting -/

@[simp] theorem nestsWithin_null {depth : Nat} : (null : Json ν).nestsWithin depth = true := by
  cases depth <;> rfl

@[simp] theorem nestsWithin_bool {depth : Nat} {b : Bool} :
    (bool b : Json ν).nestsWithin depth = true := by
  cases depth <;> rfl

@[simp] theorem nestsWithin_number {depth : Nat} {x : ν} :
    (number x).nestsWithin depth = true := by
  cases depth <;> rfl

@[simp] theorem nestsWithin_string {depth : Nat} {s : String} :
    (string s : Json ν).nestsWithin depth = true := by
  cases depth <;> rfl

theorem itemsNestWithin_iff {depth : Nat} {items : List (Json ν)} :
    itemsNestWithin depth items = true ↔ ∀ v ∈ items, v.nestsWithin depth = true := by
  induction items with
  | nil => exact iff_of_true rfl (List.forall_mem_nil _)
  | cons v items ih =>
    show (v.nestsWithin depth && itemsNestWithin depth items) = true ↔ _
    rw [Bool.and_eq_true, ih, List.forall_mem_cons]

theorem entriesNestWithin_iff {depth : Nat} {entries : List (String × Json ν)} :
    entriesNestWithin depth entries = true ↔ ∀ e ∈ entries, e.2.nestsWithin depth = true := by
  induction entries with
  | nil => exact iff_of_true rfl (List.forall_mem_nil _)
  | cons e entries ih =>
    show (e.2.nestsWithin depth && entriesNestWithin depth entries) = true ↔ _
    rw [Bool.and_eq_true, ih, List.forall_mem_cons]

@[simp] theorem nestsWithin_array {depth : Nat} {items : List (Json ν)} :
    (array items).nestsWithin (depth + 1) = true ↔ ∀ v ∈ items, v.nestsWithin depth = true :=
  itemsNestWithin_iff

@[simp] theorem nestsWithin_struct {depth : Nat} {fields : List (String × Option (Json ν))} :
    (struct fields).nestsWithin (depth + 1) = true ↔
      ∀ field ∈ fields, ∀ v ∈ field.2, v.nestsWithin depth = true :=
  entriesNestWithin_iff.trans (forall_mem_entries (P := fun v => v.nestsWithin depth = true))

mutual

/-- Numbers are no nesting, whatever is written for them. -/
theorem nestsWithin_subst {f : ν → Json μ} (hf : ∀ x depth, (f x).nestsWithin depth = true) :
    ∀ (depth : Nat) (v : Json ν), (v.subst f).nestsWithin depth = v.nestsWithin depth
  | _, .null => by simp [subst]
  | _, .bool _ => by simp [subst]
  | _, .string _ => by simp [subst]
  | _, .number _ => by simp [subst, hf]
  | 0, .array _ => rfl
  | 0, .object _ => rfl
  | depth + 1, .array items => itemsNestWithin_subst hf depth items
  | depth + 1, .object entries => entriesNestWithin_subst hf depth entries

theorem itemsNestWithin_subst {f : ν → Json μ}
    (hf : ∀ x depth, (f x).nestsWithin depth = true) :
    ∀ (depth : Nat) (items : List (Json ν)),
      itemsNestWithin depth (substItems f items) = itemsNestWithin depth items
  | _, [] => rfl
  | depth, v :: items => by
    rw [substItems, itemsNestWithin, itemsNestWithin, nestsWithin_subst hf depth v,
      itemsNestWithin_subst hf depth items]

theorem entriesNestWithin_subst {f : ν → Json μ}
    (hf : ∀ x depth, (f x).nestsWithin depth = true) :
    ∀ (depth : Nat) (entries : List (String × Json ν)),
      entriesNestWithin depth (substEntries f entries) = entriesNestWithin depth entries
  | _, [] => rfl
  | depth, (key, v) :: entries => by
    rw [substEntries, entriesNestWithin, entriesNestWithin, nestsWithin_subst hf depth v,
      entriesNestWithin_subst hf depth entries]

end

mutual

/-- **Two readings of one value** agree exactly when they agree on every number. -/
theorem subst_eq_subst_iff {f g : ν → Json μ} : ∀ v : Json ν,
    v.subst f = v.subst g ↔ v.Each fun x => f x = g x
  | .null | .bool _ | .string _ => by simp [subst, Each]
  | .number x => by simp [subst, Each]
  | .array items => by
    rw [subst, subst, Each, Json.array.injEq]
    exact substItems_eq_iff items
  | .object entries => by
    rw [subst, subst, Each, Json.object.injEq]
    exact substEntries_eq_iff entries

theorem substItems_eq_iff {f g : ν → Json μ} : ∀ items : List (Json ν),
    substItems f items = substItems g items ↔ EachItem (fun x => f x = g x) items
  | [] => by simp [substItems, EachItem]
  | v :: items => by
    rw [substItems, substItems, EachItem, List.cons.injEq, subst_eq_subst_iff v,
      substItems_eq_iff items]

theorem substEntries_eq_iff {f g : ν → Json μ} : ∀ entries : List (String × Json ν),
    substEntries f entries = substEntries g entries ↔ EachEntry (fun x => f x = g x) entries
  | [] => by simp [substEntries, EachEntry]
  | (key, v) :: entries => by
    rw [substEntries, substEntries, EachEntry, List.cons.injEq, Prod.mk.injEq,
      subst_eq_subst_iff v, substEntries_eq_iff entries]
    simp only [true_and]

end

mutual

theorem subst_subst (f : ν → Json μ) (g : μ → Json κ) : ∀ v : Json ν,
    (v.subst f).subst g = v.subst fun x => (f x).subst g
  | .null | .bool _ | .string _ => by simp [subst]
  | .number x => by simp [subst]
  | .array items => by
    rw [subst, subst, subst, substItems_subst f g items]
  | .object entries => by
    rw [subst, subst, subst, substEntries_subst f g entries]

theorem substItems_subst (f : ν → Json μ) (g : μ → Json κ) : ∀ items : List (Json ν),
    substItems g (substItems f items) = substItems (fun x => (f x).subst g) items
  | [] => rfl
  | v :: items => by
    rw [substItems, substItems, substItems, subst_subst f g v, substItems_subst f g items]

theorem substEntries_subst (f : ν → Json μ) (g : μ → Json κ) :
    ∀ entries : List (String × Json ν),
      substEntries g (substEntries f entries) = substEntries (fun x => (f x).subst g) entries
  | [] => rfl
  | (key, v) :: entries => by
    rw [substEntries, substEntries, substEntries, subst_subst f g v,
      substEntries_subst f g entries]

end

end Json

end Montr.Wire
