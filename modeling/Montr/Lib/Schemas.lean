import Mathlib.Data.List.Basic
import Mathlib.Data.List.Nodup
import Montr.Lib.JsonTree

namespace Montr.Wire

/-!
# Schemas

Validation of JSON values by schemas: a schema rejects a value, or gives the value that it makes of
it. An object is rebuilt from the fields that its schema names; other entries are dropped.

* `Schema.object`, `Schema.discriminatedUnion`, … — the combinators;
* `Same` — a value that was read has the numbers of the value that was written;
* `Carries` — a value is written, accepted by a schema, and the same when it is read;
* `carries_object`, … — one rule for each combinator.
-/

universe u v

/-- What a schema makes of a value that it accepts. -/
abbrev Schema (ν : Type u) := Json ν → Option (Json ν)

namespace Schema

variable {ν : Type u}

def string (check : String → Bool) : Schema ν
  | .string s => if check s then some (.string s) else none
  | _ => none

def literal (text : String) : Schema ν := string (· == text)

def enum (texts : List String) : Schema ν := string texts.contains

def number (check : ν → Bool) : Schema ν
  | .number x => if check x then some (.number x) else none
  | _ => none

def boolean : Schema ν
  | .bool b => some (.bool b)
  | _ => none

def unknown : Schema ν := some

def nullable (schema : Schema ν) : Schema ν
  | .null => some .null
  | v => schema v

/-- Every item in turn. -/
def items (schema : Schema ν) : List (Json ν) → Option (List (Json ν))
  | [] => some []
  | v :: rest => (schema v).bind fun w => (items schema rest).map (w :: ·)

def array (schema : Schema ν) : Schema ν
  | .array vs => (items schema vs).map .array
  | _ => none

/-- The entries of a record in turn; `__proto__` is no key of the result. -/
def recordEntries (schema : Schema ν) : List (String × Json ν) → Option (List (String × Json ν))
  | [] => some []
  | (key, v) :: rest =>
    if key = "__proto__" then recordEntries schema rest
    else (schema v).bind fun w => (recordEntries schema rest).map ((key, w) :: ·)

def record (schema : Schema ν) : Schema ν
  | .object entries => (recordEntries schema entries).map .object
  | _ => none

/-- A field of an object. -/
structure Property (ν : Type u) where
  key : String
  optional : Bool
  schema : Schema ν

def required (key : String) (schema : Schema ν) : Property ν := ⟨key, false, schema⟩

def optional (key : String) (schema : Schema ν) : Property ν := ⟨key, true, schema⟩

@[simp] theorem key_required (key : String) (schema : Schema ν) :
    (required key schema).key = key := rfl

@[simp] theorem key_optional (key : String) (schema : Schema ν) :
    (optional key schema).key = key := rfl

/-- What a field makes of its entry, if there is one: nothing is added for an optional field. -/
def Property.read (field : Property ν) : Option (Json ν) → Option (List (String × Json ν))
  | none => if field.optional then some [] else none
  | some v => (field.schema v).map fun w => [(field.key, w)]

/-- The fields in turn. -/
def fields (entries : List (String × Json ν)) : List (Property ν) → Option (List (String × Json ν))
  | [] => some []
  | field :: rest =>
    (field.read (entries.lookup field.key)).bind fun e => (fields entries rest).map (e ++ ·)

def object (shape : List (Property ν)) : Schema ν
  | .object entries => (fields entries shape).map .object
  | _ => none

/-- The schema that the text under `key` selects. -/
def discriminatedUnion (key : String) (schemas : List (String × Schema ν)) : Schema ν
  | .object entries =>
    match entries.lookup key with
    | some (.string text) => (schemas.lookup text).bind (· (.object entries))
    | _ => none
  | _ => none

end Schema

variable {ρ : Type u} {ν : Type u}

/-- The value that was read is the one that was written, number by number. -/
def Same (value : ρ → Option ν) (v : Json ρ) (w : Json ν) : Prop :=
  (v.subst fun x => .number (value x)) = w.subst fun y => .number (some y)

/-- **Carried by a schema**: written, accepted, and the same. -/
def Carries (write : ρ → Json ν) (value : ρ → Option ν) (schema : Schema ν) (v : Json ρ) : Prop :=
  ∃ w, schema (v.subst write) = some w ∧ Same value v w

/-- The same of a field, which may have no value. -/
def Schema.Property.Carries (write : ρ → Json ν) (value : ρ → Option ν)
    (field : Schema.Property ν) : Option (Json ρ) → Prop
  | none => field.optional = true
  | some v => Wire.Carries write value field.schema v

/-- A number that is written as the number that it is. -/
def Survives (write : ρ → Json ν) (value : ρ → Option ν) (x : ρ) : Prop :=
  ∃ y, write x = .number y ∧ value x = some y

section

variable {write : ρ → Json ν} {value : ρ → Option ν} {schema : Schema ν}

open Schema

/-! ### The same value -/

theorem same_null {w : Json ν} : Same value .null w ↔ w = .null := by
  cases w <;> simp [Same, Json.subst]

theorem same_bool {b : Bool} {w : Json ν} : Same value (.bool b) w ↔ w = .bool b := by
  cases w <;> simp [Same, Json.subst, eq_comm]

theorem same_string {s : String} {w : Json ν} : Same value (.string s) w ↔ w = .string s := by
  cases w <;> simp [Same, Json.subst, eq_comm]

theorem same_number {x : ρ} {w : Json ν} :
    Same value (.number x) w ↔ ∃ y, value x = some y ∧ w = .number y := by
  cases w <;> simp [Same, Json.subst]

theorem same_array {vs : List (Json ρ)} {w : Json ν} :
    Same value (.array vs) w ↔ ∃ ws, w = .array ws ∧ List.Forall₂ (Same value) vs ws := by
  cases w with
  | array ws =>
    rw [Same, Json.subst_array, Json.subst_array, Json.array.injEq, ← List.forall₂_eq_eq_eq,
      List.forall₂_map_left_iff, List.forall₂_map_right_iff]
    simp only [Json.array.injEq, exists_eq_left']
    rfl
  | null | bool | number | string | object => simp [Same, Json.subst]

theorem same_object {entries : List (String × Json ρ)} {w : Json ν} :
    Same value (.object entries) w ↔ ∃ es, w = .object es ∧
      List.Forall₂ (fun e e' => e.1 = e'.1 ∧ Same value e.2 e'.2) entries es := by
  cases w with
  | object es =>
    rw [Same, Json.subst_object, Json.subst_object, Json.object.injEq, ← List.forall₂_eq_eq_eq,
      List.forall₂_map_left_iff, List.forall₂_map_right_iff]
    simp only [Json.object.injEq, exists_eq_left', Prod.mk.injEq]
    rfl
  | null | bool | number | string | array => simp [Same, Json.subst]

/-- A value is written as the same value exactly when its numbers survive. -/
theorem same_subst_iff {v : Json ρ} :
    Same value v (v.subst write) ↔ v.Each (Survives write value) := by
  rw [Same, Json.subst_subst, Json.subst_eq_subst_iff]
  refine Iff.of_eq (congrArg (Json.Each · v) (funext fun x => propext ?_))
  show Same value (.number x) (write x) ↔ _
  rw [same_number]
  exact ⟨fun ⟨y, hvalue, hwrite⟩ => ⟨y, hwrite, hvalue⟩,
    fun ⟨y, hwrite, hvalue⟩ => ⟨y, hvalue, hwrite⟩⟩

/-! ### One rule for each combinator -/

@[simp] theorem carries_string {check : String → Bool} {s : String} :
    Carries write value (string check) (.string s) ↔ check s = true := by
  by_cases hcheck : check s = true <;>
    simp [Carries, Json.subst, string, same_string, hcheck]

@[simp] theorem carries_boolean {b : Bool} : Carries write value boolean (.bool b) :=
  ⟨.bool b, rfl, same_bool.mpr rfl⟩

theorem carries_number {check : ν → Bool} {x : ρ} :
    Carries write value (number check) (.number x) ↔
      ∃ y, write x = .number y ∧ value x = some y ∧ check y = true := by
  simp only [Carries, Json.subst, same_number]
  constructor
  · rintro ⟨w, hw, y, hvalue, rfl⟩
    cases hwrite : write x with
    | number z =>
      rw [hwrite, number] at hw
      obtain ⟨hcheck, hz⟩ := Option.ite_none_right_eq_some.mp hw
      obtain rfl : z = y := by simpa using hz
      exact ⟨z, rfl, hvalue, hcheck⟩
    | null | bool | string | array | object =>
      rw [hwrite] at hw
      exact absurd hw (by simp [number])
  · rintro ⟨y, hwrite, hvalue, hcheck⟩
    exact ⟨.number y, by rw [hwrite, number, if_pos hcheck], y, hvalue, rfl⟩

@[simp] theorem carries_unknown {v : Json ρ} :
    Carries write value unknown v ↔ v.Each (Survives write value) := by
  rw [← same_subst_iff]
  simp [Carries, unknown]

/-- A value or `null`. -/
theorem carries_nullable {o : Option (Json ρ)} (hnull : schema .null = none)
    (ho : ∀ v ∈ o, v ≠ .null) :
    Carries write value (nullable schema) (o.getD .null) ↔
      ∀ v ∈ o, Carries write value schema v := by
  cases o with
  | none => simpa using ⟨.null, rfl, same_null.mpr rfl⟩
  | some v =>
    simp only [Option.getD_some, Option.mem_some_iff, forall_eq']
    by_cases hwrite : v.subst write = .null
    · have hnot : ∀ w, schema (v.subst write) ≠ some w := by simp [hwrite, hnull]
      constructor
      · rintro ⟨w, hw, hsame⟩
        obtain rfl : Json.null = w := by simpa [hwrite, nullable] using hw
        have hv : v = .null := by
          cases v with
          | null => rfl
          | bool | number | string | array | object => simp [Same, Json.subst] at hsame
        exact absurd hv (ho v rfl)
      · rintro ⟨w, hw, -⟩
        exact absurd hw (hnot w)
    · have hsame : nullable schema (v.subst write) = schema (v.subst write) := by
        cases hv : v.subst write with
        | null => exact absurd hv hwrite
        | bool | number | string | array | object => rfl
      rw [Carries, Carries, hsame]

theorem items_eq_some_iff {vs ws : List (Json ν)} :
    items schema vs = some ws ↔ List.Forall₂ (fun v w => schema v = some w) vs ws := by
  induction vs generalizing ws with
  | nil => simp [items, eq_comm]
  | cons v vs ih =>
    simp only [items, Option.bind_eq_some_iff, Option.map_eq_some_iff, ih]
    cases ws with
    | nil => simp
    | cons w ws =>
      simp only [List.cons.injEq, List.forall₂_cons]
      constructor
      · rintro ⟨w', hw, rest, hrest, rfl, rfl⟩
        exact ⟨hw, hrest⟩
      · rintro ⟨hw, hrest⟩
        exact ⟨w, hw, ws, hrest, rfl, rfl⟩

/-- Pairs of related items, item by item. -/
theorem exists_forall₂_iff {α : Type u} {β : Type v} {r s : α → β → Prop} {as : List α} :
    (∃ bs, List.Forall₂ r as bs ∧ List.Forall₂ s as bs) ↔ ∀ a ∈ as, ∃ b, r a b ∧ s a b := by
  induction as with
  | nil => simp
  | cons a as ih =>
    rw [List.forall_mem_cons, ← ih]
    constructor
    · rintro ⟨bs, hr, hs⟩
      cases hr with
      | cons hr hrs =>
        obtain ⟨hs, hss⟩ := List.forall₂_cons.mp hs
        exact ⟨⟨_, hr, hs⟩, _, hrs, hss⟩
    · rintro ⟨⟨b, hr, hs⟩, bs, hrs, hss⟩
      exact ⟨b :: bs, .cons hr hrs, .cons hs hss⟩

@[simp] theorem carries_array {vs : List (Json ρ)} :
    Carries write value (array schema) (.array vs) ↔
      ∀ v ∈ vs, Carries write value schema v := by
  unfold Carries
  rw [← exists_forall₂_iff, Json.subst_array]
  simp only [array, Option.map_eq_some_iff, items_eq_some_iff, List.forall₂_map_left_iff,
    same_array]
  constructor
  · rintro ⟨w, ⟨ws, hitems, rfl⟩, ws', hws, hsame⟩
    obtain rfl := Json.array.inj hws
    exact ⟨ws, hitems, hsame⟩
  · rintro ⟨ws, hitems, hsame⟩
    exact ⟨.array ws, ⟨ws, hitems, rfl⟩, ws, rfl, hsame⟩

theorem length_recordEntries_le {es out : List (String × Json ν)}
    (h : recordEntries schema es = some out) : out.length ≤ es.length := by
  induction es generalizing out with
  | nil =>
    obtain rfl := Option.some.inj h
    exact Nat.le_refl _
  | cons e es ih =>
    rw [recordEntries] at h
    split at h
    · exact Nat.le_succ_of_le (ih h)
    · obtain ⟨w, -, h⟩ := Option.bind_eq_some_iff.mp h
      obtain ⟨rest, hrest, rfl⟩ := Option.map_eq_some_iff.mp h
      exact Nat.succ_le_succ (ih hrest)

/-- A record keeps every entry but one. -/
@[simp] theorem carries_record {es : List (String × Json ρ)} :
    Carries write value (record schema) (.object es) ↔
      ∀ e ∈ es, e.1 ≠ "__proto__" ∧ Carries write value schema e.2 := by
  suffices hentries : (∃ out, recordEntries schema (es.map fun e => (e.1, e.2.subst write)) =
      some out ∧ List.Forall₂ (fun e e' => e.1 = e'.1 ∧ Same value e.2 e'.2) es out) ↔
        ∀ e ∈ es, e.1 ≠ "__proto__" ∧ Carries write value schema e.2 by
    rw [← hentries, Carries, Json.subst_object]
    simp only [record, Option.map_eq_some_iff, same_object]
    constructor
    · rintro ⟨w, ⟨out, hout, rfl⟩, out', heq, hsame⟩
      obtain rfl := Json.object.inj heq
      exact ⟨out, hout, hsame⟩
    · rintro ⟨out, hout, hsame⟩
      exact ⟨.object out, ⟨out, hout, rfl⟩, out, rfl, hsame⟩
  induction es with
  | nil => simp [recordEntries]
  | cons e es ih =>
    rw [List.forall_mem_cons, ← ih, List.map_cons, recordEntries]
    split
    next hproto =>
      -- the entry is dropped, so that the lengths differ
      refine iff_of_false ?_ fun h => h.1.1 hproto
      rintro ⟨out, hout, hsame⟩
      have hle := length_recordEntries_le hout
      have hlength := hsame.length_eq
      rw [List.length_map] at hle
      rw [List.length_cons] at hlength
      omega
    next hproto =>
      simp only [Option.bind_eq_some_iff, Option.map_eq_some_iff]
      constructor
      · rintro ⟨out, ⟨w, hw, rest, hrest, rfl⟩, hsame⟩
        obtain ⟨⟨-, hsame⟩, hsames⟩ := List.forall₂_cons.mp hsame
        exact ⟨⟨hproto, w, hw, hsame⟩, rest, hrest, hsames⟩
      · rintro ⟨⟨-, w, hw, hsame⟩, rest, hrest, hsames⟩
        exact ⟨_, ⟨w, hw, rest, hrest, rfl⟩, .cons ⟨rfl, hsame⟩ hsames⟩

@[simp] theorem carries_required {key : String} {v : Json ρ} :
    (required key schema).Carries write value (some v) ↔ Carries write value schema v := Iff.rfl

@[simp] theorem carries_optional {key : String} {o : Option (Json ρ)} :
    (optional key schema).Carries write value o ↔ ∀ v ∈ o, Carries write value schema v := by
  cases o <;> simp [Property.Carries, Schema.optional]

/-- The fields of an object, by induction on the schema. -/
theorem carries_fields {shape : List (Property ν)} {fs : List (String × Option (Json ρ))}
    {es : List (String × Json ν)} (hkeys : List.Forall₂ (fun field p => field.key = p.1) shape fs)
    (hlookup : ∀ p ∈ fs, es.lookup p.1 = p.2.map (Json.subst write)) :
    (∃ out, fields es shape = some out ∧
      List.Forall₂ (fun e e' => e.1 = e'.1 ∧ Same value e.2 e'.2) (Json.entries fs) out) ↔
        List.Forall₂ (fun field p => field.Carries write value p.2) shape fs := by
  induction hkeys with
  | nil => simp [fields, Json.entries]
  | @cons field p shape fs hkey hkeys ih =>
    obtain ⟨key, o⟩ := p
    obtain rfl : field.key = key := hkey
    have ih := ih fun p hp => hlookup p (List.mem_cons_of_mem _ hp)
    have hfirst := hlookup (field.key, o) List.mem_cons_self
    rw [List.forall₂_cons, ← ih, fields, hfirst, Json.entries_cons]
    cases o with
    | none =>
      simp only [Option.map_none, Property.read, Property.Carries, Option.toList_none,
        List.nil_append]
      by_cases hoptional : field.optional = true
      · simp [hoptional]
      · simp [hoptional]
    | some v =>
      simp only [Option.map_some, Property.read, Property.Carries, Option.toList_some,
        List.singleton_append, Option.bind_eq_some_iff, Option.map_eq_some_iff]
      constructor
      · rintro ⟨out, ⟨e, ⟨w, hw, rfl⟩, rest, hrest, rfl⟩, hsame⟩
        obtain ⟨⟨-, hsame⟩, hsames⟩ := List.forall₂_cons.mp hsame
        exact ⟨⟨w, hw, hsame⟩, rest, hrest, hsames⟩
      · rintro ⟨⟨w, hw, hsame⟩, rest, hrest, hsames⟩
        exact ⟨_, ⟨_, ⟨w, hw, rfl⟩, rest, hrest, rfl⟩, .cons ⟨rfl, hsame⟩ hsames⟩

/-- **An object** whose fields are those of its schema, in that order, is carried field by
    field. -/
theorem carries_object {shape : List (Property ν)} {fs : List (String × Option (Json ρ))}
    (hkeys : List.Forall₂ (fun field p => field.key = p.1) shape fs)
    (hnodup : (fs.map (·.1)).Nodup) :
    Carries write value (object shape) (.struct fs) ↔
      List.Forall₂ (fun field p => field.Carries write value p.2) shape fs := by
  have hlookup : ∀ p ∈ fs, (Json.entries (fs.map fun p => (p.1, p.2.map (Json.subst write)))).lookup
      p.1 = p.2.map (Json.subst write) := fun _ hp => Json.lookup_entries_subst hnodup hp
  rw [← carries_fields hkeys hlookup, Carries, Json.subst_struct, Json.struct]
  simp only [object, Option.map_eq_some_iff, Json.struct, same_object]
  constructor
  · rintro ⟨w, ⟨out, hout, rfl⟩, out', heq, hsame⟩
    obtain rfl := Json.object.inj heq
    exact ⟨out, hout, hsame⟩
  · rintro ⟨out, hout, hsame⟩
    exact ⟨.object out, ⟨out, hout, rfl⟩, out, rfl, hsame⟩

/-- A union, for a value that begins with its tag. -/
theorem carries_discriminatedUnion {key text : String} {schemas : List (String × Schema ν)}
    {fs : List (String × Option (Json ρ))} (h : schemas.lookup text = some schema) :
    Carries write value (discriminatedUnion key schemas)
        (.struct ((key, some (.string text)) :: fs)) ↔
      Carries write value schema (.struct ((key, some (.string text)) :: fs)) := by
  unfold Carries
  rw [Json.subst_struct]
  simp [discriminatedUnion, Json.struct, Json.entries_cons, Json.subst, h]

end

end Montr.Wire
