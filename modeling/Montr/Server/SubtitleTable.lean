import Mathlib.Data.List.Induction
import Mathlib.Data.List.Nodup
import Montr.Server.Database

namespace Montr.Server

/-!
# The subtitle rows

`subtitle_tracks` and the five operations of `sql-base.adapter.ts` that write it.  An operation
reads first and then issues its statements one after the other; the store may fail at any of them.

* `SubtitleTable` — the rows, under ids of the store;
* `SubtitleWrite`, `SubtitlePlan` — the statements of an operation;
* `perform`, `answer` — an operation of which the store carries out some statements;
* `defaults_unique` — in every state reached at most one row of a media item and kind is the
  default, an operation leaves the rows of the others alone, and the row it marks is the default.
-/

/-- Media item and kind. -/
abbrev SubtitleScope := Nat × SubtitleKind

namespace SubtitleTrack

def scope (r : SubtitleTrack) : SubtitleScope := (r.mediaFileId, r.kind)

/-- The row is the same track as another, though other columns may differ. -/
structure SameTrack (r s : SubtitleTrack) : Prop where
  id : r.id = s.id
  scope : r.scope = s.scope
  streamIndex : r.streamIndex = s.streamIndex

theorem SameTrack.refl (r : SubtitleTrack) : r.SameTrack r := ⟨rfl, rfl, rfl⟩

theorem SameTrack.trans {r s u : SubtitleTrack} (h : r.SameTrack s) (h' : s.SameTrack u) :
    r.SameTrack u :=
  ⟨h.id.trans h'.id, h.scope.trans h'.scope, h.streamIndex.trans h'.streamIndex⟩

end SubtitleTrack

/-- The table `subtitle_tracks`. -/
structure SubtitleTable where
  rows : List SubtitleTrack
  nextId : Nat
  ids_lt : ∀ r ∈ rows, r.id < nextId
  ids_nodup : (rows.map (·.id)).Nodup

/-- The columns an `UPDATE` sets. -/
structure SubtitleSet where
  codec : Option String := none
  language : Option (Option String) := none
  label : Option (Option String) := none
  isDefault : Option Bool := none
  isForced : Option Bool := none
  deriving DecidableEq, Repr

/-- The row with these columns set. -/
def SubtitleSet.on (set : SubtitleSet) (r : SubtitleTrack) : SubtitleTrack :=
  { r with
    codec := set.codec.or r.codec
    language := set.language.getD r.language
    label := set.label.getD r.label
    isDefault := set.isDefault.getD r.isDefault
    isForced := set.isForced.getD r.isForced }

section

variable (set : SubtitleSet) (r : SubtitleTrack)

@[simp] theorem SubtitleSet.on_id : (set.on r).id = r.id := rfl

@[simp] theorem SubtitleSet.on_scope : (set.on r).scope = r.scope := rfl

@[simp] theorem SubtitleSet.on_streamIndex : (set.on r).streamIndex = r.streamIndex := rfl

end

namespace SubtitleTable

variable (t : SubtitleTable)

def empty : SubtitleTable where
  rows := []
  nextId := 1
  ids_lt _ h := absurd h List.not_mem_nil
  ids_nodup := List.nodup_nil

/-- `UPDATE … SET … WHERE …`. -/
def updateWhere (p : SubtitleTrack → Bool) (set : SubtitleSet) : SubtitleTable where
  rows := t.rows.map fun r => if p r then set.on r else r
  nextId := t.nextId
  ids_lt := by
    intro r hr
    obtain ⟨r₀, hr₀, rfl⟩ := List.mem_map.mp hr
    have hlt := t.ids_lt r₀ hr₀
    split
    · exact hlt
    · exact hlt
  ids_nodup := by
    have hids : (t.rows.map fun r => if p r then set.on r else r).map (·.id) =
        t.rows.map (·.id) := by
      rw [List.map_map]
      apply List.map_congr_left
      intro r _
      show (if p r then set.on r else r).id = r.id
      split <;> rfl
    rw [hids]
    exact t.ids_nodup

/-- `INSERT`: the id is the store's. -/
def insert (row : SubtitleTrack) : SubtitleTable where
  rows := t.rows ++ [{ row with id := t.nextId }]
  nextId := t.nextId + 1
  ids_lt := by
    intro r hr
    rcases List.mem_append.mp hr with hr | hr
    · exact Nat.lt_succ_of_lt (t.ids_lt r hr)
    · obtain rfl := List.mem_singleton.mp hr
      exact Nat.lt_succ_self _
  ids_nodup := by
    rw [List.map_append, List.nodup_append]
    refine ⟨t.ids_nodup, List.nodup_singleton _, fun a ha b hb => ?_⟩
    obtain ⟨r, hr, rfl⟩ := List.mem_map.mp ha
    obtain rfl := List.mem_singleton.mp hb
    have hlt := t.ids_lt r hr
    show r.id ≠ t.nextId
    omega

/-- `DELETE … WHERE …`. -/
def deleteWhere (p : SubtitleTrack → Bool) : SubtitleTable where
  rows := t.rows.filter fun r => !p r
  nextId := t.nextId
  ids_lt r hr := t.ids_lt r (List.mem_filter.mp hr).1
  ids_nodup := t.ids_nodup.sublist (List.filter_sublist.map _)

/-- `getSubtitleById`. -/
def getSubtitleById (id : Nat) : Option SubtitleTrack := t.rows.find? (·.id == id)

end SubtitleTable

/-! ### Statements -/

/-- A statement that writes the table. -/
inductive SubtitleWrite
  | clearDefault (scope : SubtitleScope) (exceptId : Option Nat)
  | insert (row : SubtitleTrack)
  | update (id : Nat) (set : SubtitleSet)
  | delete (id : Nat)
  | deleteEmbedded (mediaFileId : Nat) (keepStreamIndexes : List Nat)
  deriving DecidableEq, Repr

/-- `stream_index NOT IN (…)`; without a list there is no such condition. -/
def SubtitleTrack.pruned (keepStreamIndexes : List Nat) (r : SubtitleTrack) : Bool :=
  keepStreamIndexes.isEmpty || match r.streamIndex with
    | none => false
    | some index => !keepStreamIndexes.contains index

def SubtitleTable.apply (t : SubtitleTable) : SubtitleWrite → SubtitleTable
  | .clearDefault scope exceptId =>
    t.updateWhere (fun r => r.scope == scope && exceptId != some r.id) { isDefault := some false }
  | .insert row => t.insert row
  | .update id set => t.updateWhere (fun r => r.id == id) set
  | .delete id => t.deleteWhere fun r => r.id == id
  | .deleteEmbedded mediaFileId keepStreamIndexes =>
    t.deleteWhere fun r => r.scope == (mediaFileId, .embedded) && r.pruned keepStreamIndexes

/-! ### Operations -/

structure CreateExternalSubtitleInput where
  mediaFileId : Nat
  storageFilename : String
  format : String
  checksum : String
  language : Option String := none
  label : Option String := none
  isDefault : Bool := false
  isForced : Bool := false
  deriving DecidableEq, Repr

structure CreateEmbeddedSubtitleInput where
  mediaFileId : Nat
  streamIndex : Nat
  codec : String
  language : Option String := none
  label : Option String := none
  isDefault : Bool := false
  isForced : Bool := false
  deriving DecidableEq, Repr

structure UpdateSubtitleInput where
  language : Option (Option String) := none
  label : Option (Option String) := none
  isDefault : Option Bool := none
  isForced : Option Bool := none
  deriving DecidableEq, Repr

/-- The row of a new external subtitle. -/
def CreateExternalSubtitleInput.row (input : CreateExternalSubtitleInput) (id : Nat) :
    SubtitleTrack where
  id := id
  mediaFileId := input.mediaFileId
  kind := .external
  storageFilename := some input.storageFilename
  format := some input.format
  checksum := some input.checksum
  streamIndex := none
  codec := none
  language := input.language
  label := input.label
  isDefault := input.isDefault
  isForced := input.isForced

/-- The row of a new embedded subtitle. -/
def CreateEmbeddedSubtitleInput.row (input : CreateEmbeddedSubtitleInput) (id : Nat) :
    SubtitleTrack where
  id := id
  mediaFileId := input.mediaFileId
  kind := .embedded
  storageFilename := none
  format := none
  checksum := none
  streamIndex := some input.streamIndex
  codec := some input.codec
  language := input.language
  label := input.label
  isDefault := input.isDefault
  isForced := input.isForced

/-- The columns set for a stream that is known. -/
def CreateEmbeddedSubtitleInput.set (input : CreateEmbeddedSubtitleInput) : SubtitleSet where
  codec := some input.codec
  language := some input.language
  label := some input.label
  isDefault := some input.isDefault
  isForced := some input.isForced

/-- The columns that are not `undefined`. -/
def UpdateSubtitleInput.set (input : UpdateSubtitleInput) : SubtitleSet where
  language := input.language
  label := input.label
  isDefault := input.isDefault
  isForced := input.isForced

/-- What an operation does after its first read: its statements, and the row it reads back. -/
structure SubtitlePlan where
  writes : List SubtitleWrite
  returned : Option Nat
  deriving DecidableEq, Repr

/-- `clearDefaultFlagSiblings`, if the input is to be the default. -/
def clearSiblings (isDefault : Bool) (scope : SubtitleScope) (exceptId : Option Nat) :
    List SubtitleWrite :=
  if isDefault then [.clearDefault scope exceptId] else []

namespace SubtitleTable

variable (t : SubtitleTable)

/-- `createExternalSubtitle`. -/
def createExternalSubtitle (input : CreateExternalSubtitleInput) : SubtitlePlan where
  writes := clearSiblings input.isDefault (input.mediaFileId, .external) none ++
    [.insert (input.row t.nextId)]
  returned := some t.nextId

/-- The row of an embedded stream. -/
def findEmbedded (mediaFileId streamIndex : Nat) : Option SubtitleTrack :=
  t.rows.find? fun r => r.scope == (mediaFileId, .embedded) && r.streamIndex == some streamIndex

/-- `createEmbeddedSubtitle`: a known stream is updated in place. -/
def createEmbeddedSubtitle (input : CreateEmbeddedSubtitleInput) : SubtitlePlan :=
  match t.findEmbedded input.mediaFileId input.streamIndex with
  | some existing =>
    { writes := clearSiblings input.isDefault (input.mediaFileId, .embedded) (some existing.id) ++
        [.update existing.id input.set]
      returned := some existing.id }
  | none =>
    { writes := clearSiblings input.isDefault (input.mediaFileId, .embedded) none ++
        [.insert (input.row t.nextId)]
      returned := some t.nextId }

def subtitleNotFound (id : Nat) : String := s!"Subtitle with ID {id} not found"

/-- `updateSubtitle`. -/
def updateSubtitle (id : Nat) (input : UpdateSubtitleInput) : Except String SubtitlePlan :=
  match t.getSubtitleById id with
  | none => .error (subtitleNotFound id)
  | some existing =>
    if input.set = {} then .ok { writes := [], returned := some id }
    else .ok
      { writes := clearSiblings (input.isDefault.getD false) existing.scope (some id) ++
          [.update id input.set]
        returned := some id }

/-- `deleteSubtitle`. -/
def deleteSubtitle (id : Nat) : SubtitlePlan where
  writes := [.delete id]
  returned := none

/-- `pruneEmbeddedSubtitles`. -/
def pruneEmbeddedSubtitles (mediaFileId : Nat) (keepStreamIndexes : List Nat) : SubtitlePlan where
  writes := [.deleteEmbedded mediaFileId keepStreamIndexes]
  returned := none

end SubtitleTable

inductive SubtitleOp
  | createExternal (input : CreateExternalSubtitleInput)
  | createEmbedded (input : CreateEmbeddedSubtitleInput)
  | update (id : Nat) (input : UpdateSubtitleInput)
  | prune (mediaFileId : Nat) (keepStreamIndexes : List Nat)
  | delete (id : Nat)
  deriving DecidableEq, Repr

namespace SubtitleOp

def plan (t : SubtitleTable) : SubtitleOp → Except String SubtitlePlan
  | .createExternal input => .ok (t.createExternalSubtitle input)
  | .createEmbedded input => .ok (t.createEmbeddedSubtitle input)
  | .update id input => t.updateSubtitle id input
  | .prune mediaFileId keepStreamIndexes =>
    .ok (SubtitleTable.pruneEmbeddedSubtitles mediaFileId keepStreamIndexes)
  | .delete id => .ok (SubtitleTable.deleteSubtitle id)

/-- The operation marks a row as the default. -/
def marksDefault : SubtitleOp → Bool
  | .createExternal input => input.isDefault
  | .createEmbedded input => input.isDefault
  | .update _ input => input.isDefault.getD false
  | .prune _ _ => false
  | .delete _ => false

/-- The media item and the kind of the rows that the operation is about. -/
def scope (t : SubtitleTable) : SubtitleOp → Option SubtitleScope
  | .createExternal input => some (input.mediaFileId, .external)
  | .createEmbedded input => some (input.mediaFileId, .embedded)
  | .update id _ => (t.getSubtitleById id).map (·.scope)
  | .prune mediaFileId _ => some (mediaFileId, .embedded)
  | .delete id => (t.getSubtitleById id).map (·.scope)

end SubtitleOp

/-- An operation and the number of statements that the store carries out for it, less than all of
    them where it fails. -/
structure SubtitleCall where
  op : SubtitleOp
  done : Nat
  deriving DecidableEq, Repr

namespace SubtitleTable

/-- The table after the first `done` statements. -/
def carryOut (t : SubtitleTable) (writes : List SubtitleWrite) (done : Nat) : SubtitleTable :=
  (writes.take done).foldl apply t

def perform (t : SubtitleTable) (call : SubtitleCall) : SubtitleTable :=
  match call.op.plan t with
  | .error _ => t
  | .ok plan => t.carryOut plan.writes call.done

/-- The row an operation returns, if it went through. -/
def answer (t : SubtitleTable) (call : SubtitleCall) : Option SubtitleTrack :=
  match call.op.plan t with
  | .error _ => none
  | .ok plan =>
    if plan.writes.length ≤ call.done then
      plan.returned.bind (t.perform call).getSubtitleById
    else none

/-- The table after some operations, from an empty one. -/
def after (calls : List SubtitleCall) : SubtitleTable := calls.foldl perform empty

/-! ### What is kept -/

/-- **At most one default** for each media item and kind. -/
def UniqueDefault (t : SubtitleTable) : Prop :=
  ∀ scope, (t.rows.filter fun r => r.scope == scope && r.isDefault).length ≤ 1

/-- The same by ids. -/
def SoleDefault (t : SubtitleTable) : Prop :=
  ∀ r ∈ t.rows, ∀ s ∈ t.rows, r.scope = s.scope → r.isDefault = true → s.isDefault = true →
    r.id = s.id

/-- The rows of this media item and kind are untouched. -/
def Leaves (scope : SubtitleScope) (t t' : SubtitleTable) : Prop :=
  t'.rows.filter (·.scope == scope) = t.rows.filter (·.scope == scope)

end SubtitleTable

/-- **What a call keeps to.** -/
structure SubtitleCall.Contract (t : SubtitleTable) (call : SubtitleCall) : Prop where
  /-- the rows of other media items and of the other kind are left alone -/
  frame : ∀ scope, call.op.scope t ≠ some scope → t.Leaves scope (t.perform call)
  /-- an operation that went through has made the row it marks the default -/
  marked : call.op.marksDefault = true → ∀ plan, call.op.plan t = .ok plan →
    plan.writes.length ≤ call.done →
    ∃ row ∈ (t.perform call).rows, t.answer call = some row ∧ row.isDefault = true

namespace SubtitleTable

section

variable {t t' t'' : SubtitleTable} {scope : SubtitleScope} {exceptId : Option Nat} {d : Bool}
  {p : SubtitleTrack → Bool} {set : SubtitleSet} {r row : SubtitleTrack} {id done : Nat}

/-! ### Rows -/

theorem mem_updateWhere :
    r ∈ (t.updateWhere p set).rows ↔ ∃ r₀ ∈ t.rows, (if p r₀ then set.on r₀ else r₀) = r :=
  List.mem_map

theorem mem_insert : r ∈ (t.insert row).rows ↔ r ∈ t.rows ∨ r = { row with id := t.nextId } := by
  show r ∈ t.rows ++ [_] ↔ _
  rw [List.mem_append, List.mem_singleton]

theorem mem_deleteWhere : r ∈ (t.deleteWhere p).rows ↔ r ∈ t.rows ∧ p r = false := by
  show r ∈ t.rows.filter _ ↔ _
  rw [List.mem_filter, Bool.not_eq_true']

theorem eq_of_id (hr : r ∈ t.rows) (hrow : row ∈ t.rows) (h : r.id = row.id) : r = row :=
  List.inj_on_of_nodup_map t.ids_nodup hr hrow h

theorem getSubtitleById_of_mem (hr : r ∈ t.rows) : t.getSubtitleById r.id = some r := by
  unfold getSubtitleById
  cases hfind : t.rows.find? (·.id == r.id) with
  | none => exact absurd (List.find?_eq_none.mp hfind r hr) (by simp)
  | some s =>
    have hid : s.id = r.id := by simpa using List.find?_some hfind
    rw [eq_of_id (List.mem_of_find?_eq_some hfind) hr hid]

theorem mem_of_getSubtitleById (h : t.getSubtitleById id = some r) : r ∈ t.rows ∧ r.id = id :=
  ⟨List.mem_of_find?_eq_some h, by simpa using List.find?_some h⟩

/-! ### Other scopes -/

theorem Leaves.refl (scope : SubtitleScope) (t : SubtitleTable) : t.Leaves scope t := rfl

theorem Leaves.trans (h : t.Leaves scope t') (h' : t'.Leaves scope t'') : t.Leaves scope t'' :=
  Eq.trans h' h

theorem leaves_updateWhere (h : ∀ r ∈ t.rows, r.scope = scope → p r = false) :
    t.Leaves scope (t.updateWhere p set) := by
  show (t.rows.map fun r => if p r then set.on r else r).filter _ = _
  have hscope : ∀ r : SubtitleTrack, (if p r then set.on r else r).scope = r.scope := by
    intro r
    split <;> rfl
  rw [List.filter_map]
  simp only [Function.comp_def, hscope]
  conv_rhs => rw [← List.map_id (t.rows.filter _)]
  apply List.map_congr_left
  intro r hr
  obtain ⟨hr, hscope⟩ := List.mem_filter.mp hr
  rw [h r hr (by simpa using hscope)]
  rfl

theorem leaves_insert (h : row.scope ≠ scope) : t.Leaves scope (t.insert row) := by
  show (t.rows ++ [_]).filter _ = _
  have hrow : ({ row with id := t.nextId } : SubtitleTrack).scope ≠ scope := h
  rw [List.filter_append, List.filter_singleton, beq_eq_false_iff_ne.mpr hrow]
  exact List.append_nil _

theorem leaves_deleteWhere (h : ∀ r ∈ t.rows, r.scope = scope → p r = false) :
    t.Leaves scope (t.deleteWhere p) := by
  show (t.rows.filter _).filter _ = _
  rw [List.filter_filter]
  apply List.filter_congr
  intro r hr
  by_cases hscope : r.scope = scope
  · rw [h r hr hscope, Bool.not_false, Bool.and_true]
  · rw [beq_eq_false_iff_ne.mpr hscope, Bool.false_and]

/-! ### Clearing the siblings -/

/-- The table after `clearDefaultFlagSiblings`. -/
def cleared (t : SubtitleTable) (d : Bool) (scope : SubtitleScope) (exceptId : Option Nat) :
    SubtitleTable :=
  if d then t.apply (.clearDefault scope exceptId) else t

theorem nextId_cleared : (t.cleared d scope exceptId).nextId = t.nextId := by
  unfold cleared
  split <;> rfl

/-- A row of the cleared table is one of the table, perhaps without the flag. -/
theorem of_mem_cleared (hr : r ∈ (t.cleared d scope exceptId).rows) :
    ∃ r₀ ∈ t.rows, r₀.SameTrack r ∧ (r.isDefault = true → r₀.isDefault = true) := by
  unfold cleared at hr
  split at hr
  · obtain ⟨r₀, hr₀, rfl⟩ := mem_updateWhere.mp hr
    refine ⟨r₀, hr₀, ?_⟩
    split
    · exact ⟨⟨rfl, rfl, rfl⟩, nofun⟩
    · exact ⟨⟨rfl, rfl, rfl⟩, fun h => h⟩
  · exact ⟨r, hr, ⟨rfl, rfl, rfl⟩, fun h => h⟩

theorem exists_mem_cleared (hr : r ∈ t.rows) :
    ∃ r' ∈ (t.cleared d scope exceptId).rows, r'.id = r.id := by
  unfold cleared
  split
  · refine ⟨_, mem_updateWhere.mpr ⟨r, hr, rfl⟩, ?_⟩
    split <;> rfl
  · exact ⟨r, hr, rfl⟩

/-- Only the excepted row may still have the flag. -/
theorem exceptId_of_default (hr : r ∈ (t.cleared true scope exceptId).rows)
    (hscope : r.scope = scope) (hdefault : r.isDefault = true) : exceptId = some r.id := by
  obtain ⟨r₀, hr₀, rfl⟩ := mem_updateWhere.mp hr
  by_contra hother
  have hp : (r₀.scope == scope && exceptId != some r₀.id) = true := by
    split at hscope <;> split at hother <;> simp_all
  rw [if_pos hp] at hdefault
  cases hdefault

theorem leaves_cleared {other : SubtitleScope} (h : scope ≠ other) :
    t.Leaves other (t.cleared d scope exceptId) := by
  unfold cleared
  split
  · apply leaves_updateWhere
    rintro r - rfl
    rw [beq_eq_false_iff_ne.mpr (Ne.symm h), Bool.false_and]
  · exact Leaves.refl other t

/-! ### One default -/

/-- **Marking**: no other row of the scope had the flag, and only the marked row is new. -/
theorem SoleDefault.mark (h : t.SoleDefault) (scope : SubtitleScope) (id : Nat)
    (sole : ∀ r ∈ t.rows, r.scope = scope → r.isDefault = true → r.id = id)
    (rows : ∀ r ∈ t'.rows, r.isDefault = true → r.id = id ∧ r.scope = scope ∨
      ∃ r₀ ∈ t.rows, r₀.SameTrack r ∧ r₀.isDefault = true) :
    t'.SoleDefault := by
  intro r hr s hs hscope hrdefault hsdefault
  rcases rows r hr hrdefault with ⟨hid, hin⟩ | ⟨r₀, hr₀, hrr, hr₀default⟩
  · rcases rows s hs hsdefault with ⟨hsid, -⟩ | ⟨s₀, hs₀, hss, hs₀default⟩
    · rw [hid, hsid]
    · rw [hid, ← hss.id, sole s₀ hs₀ (by rw [hss.scope, ← hscope, hin]) hs₀default]
  · rcases rows s hs hsdefault with ⟨hsid, hin⟩ | ⟨s₀, hs₀, hss, hs₀default⟩
    · rw [hsid, ← hrr.id, sole r₀ hr₀ (by rw [hrr.scope, hscope, hin]) hr₀default]
    · rw [← hrr.id, ← hss.id]
      exact h r₀ hr₀ s₀ hs₀ (by rw [hrr.scope, hss.scope, hscope]) hr₀default hs₀default

/-- No row gets the flag. -/
theorem SoleDefault.mono (h : t.SoleDefault)
    (rows : ∀ r ∈ t'.rows, r.isDefault = true →
      ∃ r₀ ∈ t.rows, r₀.SameTrack r ∧ r₀.isDefault = true) : t'.SoleDefault := by
  intro r hr s hs hscope hrdefault hsdefault
  obtain ⟨r₀, hr₀, hrr, hr₀default⟩ := rows r hr hrdefault
  obtain ⟨s₀, hs₀, hss, hs₀default⟩ := rows s hs hsdefault
  rw [← hrr.id, ← hss.id]
  exact h r₀ hr₀ s₀ hs₀ (by rw [hrr.scope, hss.scope, hscope]) hr₀default hs₀default

theorem SoleDefault.cleared (h : t.SoleDefault) (d : Bool) (scope : SubtitleScope)
    (exceptId : Option Nat) : (t.cleared d scope exceptId).SoleDefault := by
  apply h.mono
  intro r hr hdefault
  obtain ⟨r₀, hr₀, hsame, hflag⟩ := of_mem_cleared hr
  exact ⟨r₀, hr₀, hsame, hflag hdefault⟩

theorem SoleDefault.deleteWhere (h : t.SoleDefault) (p : SubtitleTrack → Bool) :
    (t.deleteWhere p).SoleDefault := by
  apply h.mono
  intro r hr hdefault
  exact ⟨r, (mem_deleteWhere.mp hr).1, .refl r, hdefault⟩

/-- Inserting behind `clearDefaultFlagSiblings`. -/
theorem SoleDefault.insert (h : t.SoleDefault) (row : SubtitleTrack) :
    ((t.cleared row.isDefault row.scope none).apply (.insert row)).SoleDefault := by
  have hcleared := h.cleared row.isDefault row.scope none
  cases hrow : row.isDefault with
  | true =>
    rw [hrow] at hcleared
    refine hcleared.mark row.scope t.nextId (fun r hr hscope hdefault => ?_) fun r hr hdefault => ?_
    · cases exceptId_of_default hr hscope hdefault
    · rcases mem_insert.mp hr with hr | rfl
      · exact .inr ⟨r, hr, .refl r, hdefault⟩
      · exact .inl ⟨nextId_cleared, rfl⟩
  | false =>
    rw [hrow] at hcleared
    refine hcleared.mono fun r hr hdefault => ?_
    rcases mem_insert.mp hr with hr | rfl
    · exact ⟨r, hr, .refl r, hdefault⟩
    · rw [show row.isDefault = true from hdefault] at hrow
      cases hrow

/-- Updating a row behind `clearDefaultFlagSiblings`. -/
theorem SoleDefault.update (h : t.SoleDefault) (hr : r ∈ t.rows) (set : SubtitleSet) :
    ((t.cleared (set.isDefault.getD false) r.scope (some r.id)).apply
      (.update r.id set)).SoleDefault := by
  have hcleared := h.cleared (set.isDefault.getD false) r.scope (some r.id)
  cases hset : set.isDefault.getD false with
  | true =>
    rw [hset] at hcleared
    refine hcleared.mark r.scope r.id (fun s hs hscope hdefault => ?_) fun s hs hdefault => ?_
    · exact (Option.some.inj (exceptId_of_default hs hscope hdefault)).symm
    · obtain ⟨s₁, hs₁, rfl⟩ := mem_updateWhere.mp hs
      by_cases hid : s₁.id = r.id
      · -- the row itself: ids are unique, so it is in the scope
        obtain ⟨s₀, hs₀, hss, -⟩ := of_mem_cleared hs₁
        have hsame := eq_of_id hs₀ hr (hss.id.trans hid)
        rw [if_pos (by simpa using hid)]
        exact .inl ⟨hid, by rw [SubtitleSet.on_scope, ← hss.scope, hsame]⟩
      · rw [if_neg (by simpa using hid)] at hdefault ⊢
        exact .inr ⟨s₁, hs₁, .refl s₁, hdefault⟩
  | false =>
    rw [hset] at hcleared
    refine hcleared.mono fun s hs hdefault => ?_
    obtain ⟨s₁, hs₁, rfl⟩ := mem_updateWhere.mp hs
    refine ⟨s₁, hs₁, ?_⟩
    split
    · rename_i hp
      rw [if_pos hp] at hdefault
      change set.isDefault.getD s₁.isDefault = true at hdefault
      refine ⟨⟨rfl, rfl, rfl⟩, ?_⟩
      cases hflag : set.isDefault with
      | none => rwa [hflag] at hdefault
      | some b =>
        rw [hflag] at hset hdefault
        rw [show b = false from hset] at hdefault
        cases hdefault
    · rename_i hp
      rw [if_neg hp] at hdefault
      exact ⟨.refl s₁, hdefault⟩

/-! ### Carrying out -/

theorem carryOut_cases (t : SubtitleTable) (d : Bool) (scope : SubtitleScope)
    (exceptId : Option Nat) (w : SubtitleWrite) (done : Nat) :
    t.carryOut (clearSiblings d scope exceptId ++ [w]) done = t ∨
      t.carryOut (clearSiblings d scope exceptId ++ [w]) done = t.cleared d scope exceptId ∨
      t.carryOut (clearSiblings d scope exceptId ++ [w]) done =
        (t.cleared d scope exceptId).apply w := by
  cases d with
  | false =>
    cases done with
    | zero => exact .inl rfl
    | succ done => exact .inr (.inr (by simp [carryOut, clearSiblings, cleared]))
  | true =>
    match done with
    | 0 => exact .inl rfl
    | 1 => exact .inr (.inl rfl)
    | done + 2 => exact .inr (.inr (by simp [carryOut, clearSiblings, cleared]))

theorem carryOut_of_le {w : SubtitleWrite}
    (h : (clearSiblings d scope exceptId ++ [w]).length ≤ done) :
    t.carryOut (clearSiblings d scope exceptId ++ [w]) done =
      (t.cleared d scope exceptId).apply w := by
  unfold carryOut
  rw [List.take_of_length_le h]
  cases d with
  | false => rfl
  | true => rfl

/-- Carrying out no more than one statement. -/
theorem carryOut_singleton (t : SubtitleTable) (w : SubtitleWrite) (done : Nat) :
    t.carryOut [w] done = t ∨ t.carryOut [w] done = t.apply w := by
  cases done with
  | zero => exact .inl rfl
  | succ done => exact .inr (by simp [carryOut])

/-- What clearing and writing keep, an operation of both keeps wherever it stops. -/
theorem carryOut_keeps {P : SubtitleTable → Prop} {w : SubtitleWrite} (start : P t)
    (clears : P (t.cleared d scope exceptId)) (writes : P ((t.cleared d scope exceptId).apply w))
    (done : Nat) : P (t.carryOut (clearSiblings d scope exceptId ++ [w]) done) := by
  rcases t.carryOut_cases d scope exceptId w done with h | h | h
  · rwa [h]
  · rwa [h]
  · rwa [h]

/-! ### What an operation does -/

/-- A new row, behind clearing its siblings. -/
def Inserts (op : SubtitleOp) (t : SubtitleTable) (plan : SubtitlePlan) : Prop :=
  ∃ row : SubtitleTrack, op.scope t = some row.scope ∧ op.marksDefault = row.isDefault ∧
    (row.kind = .embedded → ∃ input, op = .createEmbedded input ∧ row = input.row t.nextId ∧
      t.findEmbedded input.mediaFileId input.streamIndex = none) ∧
    plan = ⟨clearSiblings row.isDefault row.scope none ++ [.insert row], some t.nextId⟩

/-- A row of the table changed, behind clearing its siblings. -/
def Updates (op : SubtitleOp) (t : SubtitleTable) (plan : SubtitlePlan) : Prop :=
  ∃ r ∈ t.rows, ∃ set : SubtitleSet, op.scope t = some r.scope ∧
    op.marksDefault = set.isDefault.getD false ∧
    plan = ⟨clearSiblings (set.isDefault.getD false) r.scope (some r.id) ++ [.update r.id set],
      some r.id⟩

/-- Rows of the scope deleted. -/
def Deletes (op : SubtitleOp) (t : SubtitleTable) (plan : SubtitlePlan) : Prop :=
  ∃ (w : SubtitleWrite) (p : SubtitleTrack → Bool), op.marksDefault = false ∧
    plan = ⟨[w], none⟩ ∧ t.apply w = t.deleteWhere p ∧
    ∀ r ∈ t.rows, p r = true → op.scope t = some r.scope

theorem createEmbedded_cases (t : SubtitleTable) (input : CreateEmbeddedSubtitleInput) :
    Inserts (.createEmbedded input) t (t.createEmbeddedSubtitle input) ∨
      Updates (.createEmbedded input) t (t.createEmbeddedSubtitle input) := by
  unfold createEmbeddedSubtitle
  split
  · rename_i existing hfind
    have hexisting := List.find?_some hfind
    have hscope : existing.scope = (input.mediaFileId, .embedded) := by
      rw [Bool.and_eq_true_iff] at hexisting
      exact eq_of_beq hexisting.1
    refine .inr ⟨existing, List.mem_of_find?_eq_some hfind, input.set, ?_, rfl, ?_⟩
    · rw [hscope]
      rfl
    · rw [hscope]
      rfl
  · rename_i hfind
    exact .inl ⟨input.row t.nextId, rfl, rfl, fun _ => ⟨input, rfl, rfl, hfind⟩, rfl⟩

theorem update_cases {input : UpdateSubtitleInput} {plan : SubtitlePlan}
    (h : t.updateSubtitle id input = .ok plan) :
    Updates (.update id input) t plan ∨
      input.isDefault = none ∧ plan = { writes := [], returned := some id } := by
  unfold updateSubtitle at h
  split at h
  · cases h
  · rename_i existing hfind
    obtain ⟨hmem, rfl⟩ := mem_of_getSubtitleById hfind
    split at h
    · rename_i hset
      cases h
      exact .inr ⟨congrArg SubtitleSet.isDefault hset, rfl⟩
    · cases h
      refine .inl ⟨existing, hmem, input.set, ?_, rfl, rfl⟩
      show (t.getSubtitleById existing.id).map _ = _
      rw [hfind]
      rfl

/-- **Step inversion.** -/
theorem plan_cases {op : SubtitleOp} {plan : SubtitlePlan} (h : op.plan t = .ok plan) :
    Inserts op t plan ∨ Updates op t plan ∨ Deletes op t plan ∨
      op.marksDefault = false ∧ plan.writes = [] := by
  cases op with
  | createExternal input =>
    cases h
    exact .inl ⟨input.row t.nextId, rfl, rfl, nofun, rfl⟩
  | createEmbedded input =>
    cases h
    exact (t.createEmbedded_cases input).imp_right .inl
  | update id input =>
    rcases update_cases h with hupdates | ⟨hnone, rfl⟩
    · exact .inr (.inl hupdates)
    · refine .inr (.inr (.inr ⟨?_, rfl⟩))
      show input.isDefault.getD false = false
      rw [hnone]
      rfl
  | prune mediaFileId keepStreamIndexes =>
    cases h
    refine .inr (.inr (.inl ⟨_, _, rfl, rfl, rfl, fun r _ hp => ?_⟩))
    rw [Bool.and_eq_true_iff, beq_iff_eq] at hp
    exact congrArg some hp.1.symm
  | delete id =>
    cases h
    refine .inr (.inr (.inl ⟨_, _, rfl, rfl, rfl, fun r hr hp => ?_⟩))
    obtain rfl : r.id = id := by simpa using hp
    show (t.getSubtitleById r.id).map _ = _
    rw [getSubtitleById_of_mem hr]
    rfl

theorem perform_of_ok {call : SubtitleCall} {plan : SubtitlePlan}
    (h : call.op.plan t = .ok plan) : t.perform call = t.carryOut plan.writes call.done := by
  unfold perform
  rw [h]

/-- **Step lemma.** -/
theorem SoleDefault.perform (h : t.SoleDefault) (call : SubtitleCall) :
    (t.perform call).SoleDefault := by
  cases hplan : call.op.plan t with
  | error e =>
    unfold SubtitleTable.perform
    rwa [hplan]
  | ok plan =>
    rw [perform_of_ok hplan]
    rcases plan_cases hplan with ⟨row, -, -, -, rfl⟩ | ⟨r, hr, set, -, -, rfl⟩ |
      ⟨w, p, -, rfl, hw, -⟩ | ⟨-, hwrites⟩
    · exact carryOut_keeps h (h.cleared _ _ _) (h.insert row) call.done
    · exact carryOut_keeps h (h.cleared _ _ _) (h.update hr set) call.done
    · rcases t.carryOut_singleton w call.done with hsame | hdeleted
      · rwa [hsame]
      · rw [hdeleted, hw]
        exact h.deleteWhere p
    · rw [hwrites, carryOut, List.take_nil]
      exact h

/-- The rows of other scopes. -/
theorem leaves_perform {call : SubtitleCall} (h : call.op.scope t ≠ some scope) :
    t.Leaves scope (t.perform call) := by
  cases hplan : call.op.plan t with
  | error e =>
    unfold perform
    rw [hplan]
    exact Leaves.refl scope t
  | ok plan =>
    rw [perform_of_ok hplan]
    rcases plan_cases hplan with ⟨row, hscope, -, -, rfl⟩ | ⟨r, hr, set, hscope, -, rfl⟩ |
      ⟨w, p, -, rfl, hw, hdeletes⟩ | ⟨-, hwrites⟩
    · have hother : row.scope ≠ scope := fun heq => h (by rw [hscope, heq])
      exact carryOut_keeps (Leaves.refl scope t) (leaves_cleared hother)
        ((leaves_cleared hother).trans (leaves_insert hother)) call.done
    · have hother : r.scope ≠ scope := fun heq => h (by rw [hscope, heq])
      refine carryOut_keeps (Leaves.refl scope t) (leaves_cleared hother)
        ((leaves_cleared hother).trans (leaves_updateWhere fun s hs hs_scope => ?_)) call.done
      -- the updated row is in its own scope
      obtain ⟨s₀, hs₀, hss, -⟩ := of_mem_cleared hs
      refine beq_eq_false_iff_ne.mpr fun hsame => hother ?_
      rw [← hs_scope, ← hss.scope, eq_of_id hs₀ hr (hss.id.trans hsame)]
    · rcases t.carryOut_singleton w call.done with hsame | hdeleted
      · rw [hsame]
        exact Leaves.refl scope t
      · rw [hdeleted, hw]
        refine leaves_deleteWhere fun r hr hr_scope => ?_
        by_contra hp
        exact h (by rw [hdeletes r hr (by simpa using hp), hr_scope])
    · rw [hwrites, carryOut, List.take_nil]
      exact Leaves.refl scope t

theorem answer_of_ok {call : SubtitleCall} {plan : SubtitlePlan}
    (h : call.op.plan t = .ok plan) (hdone : plan.writes.length ≤ call.done)
    (hreturned : plan.returned = some id) (hrow : row ∈ (t.perform call).rows)
    (hid : row.id = id) : t.answer call = some row := by
  unfold answer
  rw [h]
  show (if plan.writes.length ≤ call.done then _ else none) = some row
  rw [if_pos hdone, hreturned, ← hid]
  exact getSubtitleById_of_mem hrow

theorem marked_perform {call : SubtitleCall} {plan : SubtitlePlan}
    (hmarks : call.op.marksDefault = true) (hplan : call.op.plan t = .ok plan)
    (hdone : plan.writes.length ≤ call.done) :
    ∃ row ∈ (t.perform call).rows, t.answer call = some row ∧ row.isDefault = true := by
  have hperform := perform_of_ok hplan
  rcases plan_cases hplan with ⟨row, -, hdefault, -, rfl⟩ | ⟨r, hr, set, -, hdefault, rfl⟩ |
    ⟨w, p, hunmarked, -⟩ | ⟨hunmarked, -⟩
  · rw [carryOut_of_le hdone] at hperform
    have hrow : ({ row with id := t.nextId } : SubtitleTrack) ∈ (t.perform call).rows := by
      rw [hperform, ← nextId_cleared (t := t)]
      exact mem_insert.mpr (.inr rfl)
    exact ⟨_, hrow, answer_of_ok hplan hdone rfl hrow rfl, by rw [← hmarks, hdefault]⟩
  · rw [carryOut_of_le hdone] at hperform
    obtain ⟨r', hr', hid⟩ := exists_mem_cleared (d := set.isDefault.getD false) hr
    have hrow : set.on r' ∈ (t.perform call).rows := by
      rw [hperform]
      exact mem_updateWhere.mpr ⟨r', hr', if_pos (by simpa using hid)⟩
    refine ⟨_, hrow, answer_of_ok hplan hdone rfl hrow hid, ?_⟩
    rw [hmarks] at hdefault
    show set.isDefault.getD r'.isDefault = true
    cases hflag : set.isDefault with
    | none =>
      rw [hflag] at hdefault
      cases hdefault
    | some b =>
      rw [hflag] at hdefault
      exact hdefault.symm
  · rw [hunmarked] at hmarks
    cases hmarks
  · rw [hunmarked] at hmarks
    cases hmarks

/-! ### Runs -/

theorem SoleDefault.unique (h : t.SoleDefault) : t.UniqueDefault := by
  intro scope
  have hids : ((t.rows.filter fun r => r.scope == scope && r.isDefault).map (·.id)).Nodup :=
    t.ids_nodup.sublist (List.filter_sublist.map _)
  have hsame : ∀ r ∈ t.rows.filter (fun r => r.scope == scope && r.isDefault),
      ∀ s ∈ t.rows.filter (fun r => r.scope == scope && r.isDefault), r.id = s.id := by
    intro r hr s hs
    obtain ⟨hr, hrp⟩ := List.mem_filter.mp hr
    obtain ⟨hs, hsp⟩ := List.mem_filter.mp hs
    rw [Bool.and_eq_true_iff, beq_iff_eq] at hrp hsp
    exact h r hr s hs (hrp.1.trans hsp.1.symm) hrp.2 hsp.2
  generalize t.rows.filter (fun r => r.scope == scope && r.isDefault) = rows at hids hsame ⊢
  match rows with
  | [] => exact Nat.zero_le 1
  | [_] => exact Nat.le_refl 1
  | r :: s :: rest =>
    rw [List.map_cons, List.nodup_cons] at hids
    refine absurd ?_ hids.1
    rw [hsame r (by simp) s (by simp)]
    exact List.mem_map_of_mem (by simp)

/-- **Run lemma.** -/
theorem soleDefault_after (calls : List SubtitleCall) : (after calls).SoleDefault := by
  unfold after
  induction calls using List.reverseRecOn with
  | nil => exact fun _ h => absurd h List.not_mem_nil
  | append_singleton calls call ih =>
    rw [List.foldl_append]
    exact ih.perform call

/-- **The default subtitle is unique** in every state reached, and every call keeps to its
    contract there. -/
theorem defaults_unique (calls : List SubtitleCall) :
    (after calls).UniqueDefault ∧ ∀ call, SubtitleCall.Contract (after calls) call :=
  ⟨(soleDefault_after calls).unique, fun _ => ⟨fun _ h => leaves_perform h,
    fun hmarks _ hplan hdone => marked_perform hmarks hplan hdone⟩⟩

/-! ### Embedded streams -/

/-- The row was there before the operation, or it is new; new embedded ones are for streams that
    had no row. -/
def Origin (t : SubtitleTable) (op : SubtitleOp) (r : SubtitleTrack) : Prop :=
  (∃ r₀ ∈ t.rows, r₀.SameTrack r) ∨
    r.id = t.nextId ∧ (r.kind = .embedded → ∃ input, op = .createEmbedded input ∧
      r = input.row t.nextId ∧ t.findEmbedded input.mediaFileId input.streamIndex = none)

theorem origin_of_mem {op : SubtitleOp} (hr : r ∈ t.rows) : t.Origin op r :=
  .inl ⟨r, hr, .refl r⟩

theorem origin_cleared {op : SubtitleOp} (hr : r ∈ (t.cleared d scope exceptId).rows) :
    t.Origin op r := by
  obtain ⟨r₀, hr₀, hsame, -⟩ := of_mem_cleared hr
  exact .inl ⟨r₀, hr₀, hsame⟩

theorem origin_perform {call : SubtitleCall} (hr : r ∈ (t.perform call).rows) :
    t.Origin call.op r := by
  cases hplan : call.op.plan t with
  | error e =>
    unfold perform at hr
    rw [hplan] at hr
    exact origin_of_mem hr
  | ok plan =>
    rw [perform_of_ok hplan] at hr
    revert r
    rcases plan_cases hplan with ⟨row, -, -, hnew, rfl⟩ | ⟨s, hs, set, -, -, rfl⟩ |
      ⟨w, p, -, rfl, hw, -⟩ | ⟨-, hwrites⟩
    · refine carryOut_keeps (P := fun t' => ∀ {r}, r ∈ t'.rows → t.Origin call.op r)
        origin_of_mem origin_cleared (fun {r} hr => ?_) call.done
      rcases mem_insert.mp hr with hr | rfl
      · exact origin_cleared hr
      · refine .inr ⟨nextId_cleared, fun hkind => ?_⟩
        obtain ⟨input, hop, rfl, hfind⟩ := hnew hkind
        rw [nextId_cleared]
        exact ⟨input, hop, rfl, hfind⟩
    · refine carryOut_keeps (P := fun t' => ∀ {r}, r ∈ t'.rows → t.Origin call.op r)
        origin_of_mem origin_cleared (fun {r} hr => ?_) call.done
      obtain ⟨r₁, hr₁, rfl⟩ := mem_updateWhere.mp hr
      obtain ⟨r₀, hr₀, hsame, -⟩ := of_mem_cleared hr₁
      refine .inl ⟨r₀, hr₀, hsame.trans ?_⟩
      split
      · exact ⟨rfl, rfl, rfl⟩
      · exact .refl _
    · rcases t.carryOut_singleton w call.done with hsame | hdeleted
      · rw [hsame]
        exact origin_of_mem
      · rw [hdeleted, hw]
        exact fun hr => origin_of_mem (mem_deleteWhere.mp hr).1
    · rw [hwrites, carryOut, List.take_nil]
      exact origin_of_mem

/-- **Embedded rows are rows of streams**, each of another one. -/
structure OneRowPerStream (t : SubtitleTable) : Prop where
  indexed : ∀ r ∈ t.rows, r.kind = .embedded → r.streamIndex ≠ none
  distinct : ∀ r ∈ t.rows, ∀ s ∈ t.rows, r.kind = .embedded → r.scope = s.scope →
    r.streamIndex = s.streamIndex → r.id = s.id

theorem findEmbedded_ne_none {m i : Nat} (hr : r ∈ t.rows) (hscope : r.scope = (m, .embedded))
    (hindex : r.streamIndex = some i) : t.findEmbedded m i ≠ none := by
  intro hnone
  have hfind := List.find?_eq_none.mp hnone r hr
  exact hfind (by rw [hscope, hindex, BEq.rfl, BEq.rfl]; rfl)

/-- A row that was there and a new one are not of the same stream. -/
theorem not_same_stream {input : CreateEmbeddedSubtitleInput} {n : Nat} (hr : r ∈ t.rows)
    (hfind : t.findEmbedded input.mediaFileId input.streamIndex = none)
    (hscope : r.scope = (input.row n).scope)
    (hindex : r.streamIndex = (input.row n).streamIndex) : False :=
  findEmbedded_ne_none hr hscope hindex hfind

/-- **Step lemma.** -/
theorem OneRowPerStream.perform (h : t.OneRowPerStream) (call : SubtitleCall) :
    (t.perform call).OneRowPerStream where
  indexed r hr hkind := by
    rcases origin_perform hr with ⟨r₀, hr₀, hsame⟩ | ⟨-, hnew⟩
    · rw [← hsame.streamIndex]
      exact h.indexed r₀ hr₀ ((congrArg Prod.snd hsame.scope).trans hkind)
    · obtain ⟨input, -, rfl, -⟩ := hnew hkind
      exact Option.some_ne_none _
  distinct r hr s hs hkind hscope hindex := by
    have hskind : s.kind = .embedded := (congrArg Prod.snd hscope).symm.trans hkind
    rcases origin_perform hr with ⟨r₀, hr₀, hrr⟩ | ⟨hrid, hrnew⟩
    · rcases origin_perform hs with ⟨s₀, hs₀, hss⟩ | ⟨-, hsnew⟩
      · rw [← hrr.id, ← hss.id]
        exact h.distinct r₀ hr₀ s₀ hs₀ ((congrArg Prod.snd hrr.scope).trans hkind)
          (by rw [hrr.scope, hss.scope, hscope]) (by rw [hrr.streamIndex, hss.streamIndex, hindex])
      · obtain ⟨input, -, rfl, hfind⟩ := hsnew hskind
        exact (not_same_stream hr₀ hfind (hrr.scope.trans hscope)
          (hrr.streamIndex.trans hindex)).elim
    · rcases origin_perform hs with ⟨s₀, hs₀, hss⟩ | ⟨hsid, -⟩
      · obtain ⟨input, -, rfl, hfind⟩ := hrnew hkind
        exact (not_same_stream hs₀ hfind (hss.scope.trans hscope.symm)
          (hss.streamIndex.trans hindex.symm)).elim
      · rw [hrid, hsid]

/-- **Run lemma.** -/
theorem OneRowPerStream.foldl (h : t.OneRowPerStream) (calls : List SubtitleCall) :
    (calls.foldl SubtitleTable.perform t).OneRowPerStream := by
  induction calls generalizing t with
  | nil => exact h
  | cons call calls ih => exact ih (h.perform call)

theorem oneRowPerStream_after (calls : List SubtitleCall) : (after calls).OneRowPerStream :=
  OneRowPerStream.foldl ⟨fun _ hr => absurd hr List.not_mem_nil,
    fun _ hr => absurd hr List.not_mem_nil⟩ calls

end

end SubtitleTable

end Montr.Server
