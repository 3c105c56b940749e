import Mathlib.Data.List.TakeDrop
import Mathlib.Logic.Function.Basic

namespace Montr.Files

/-!
# Paths, files and open handles

A path leads to a file, and a file is more than its path: a handle keeps writing to the file it
opened after the path was renamed or removed.  Files are numbered; `dir` says which file a path
leads to and `content` what is in it.

* `create`, `modify`, `unlink`, `rename` — what a program does, each with the lemma that says where
  paths lead afterwards;
* `splice`, the effect of a write at an offset.

A file system has no two paths for one file, and every file that a path leads to was created.
-/

/-- Paths and files. -/
structure FileSystem (P β : Type) where
  dir : P → Option Nat
  content : Nat → List β
  /-- the number of the next file -/
  next : Nat
  lt_next : ∀ p i, dir p = some i → i < next
  unique : ∀ p q i, dir p = some i → dir q = some i → p = q

namespace FileSystem

variable {P β : Type} [DecidableEq P]

/-- No files. -/
def empty : FileSystem P β where
  dir _ := none
  content _ := []
  next := 0
  lt_next _ _ h := absurd h (by simp)
  unique _ _ _ h := absurd h (by simp)

/-- What a path leads to. -/
def read (fs : FileSystem P β) (p : P) : Option (List β) := (fs.dir p).map fs.content

/-- Open a file for writing: an old one is emptied. -/
def create (fs : FileSystem P β) (p : P) : Nat × FileSystem P β :=
  match known : fs.dir p with
  | some i => (i, { fs with content := Function.update fs.content i [] })
  | none =>
    (fs.next,
      { dir := Function.update fs.dir p (some fs.next)
        content := Function.update fs.content fs.next []
        next := fs.next + 1
        lt_next := by
          intro q i h
          by_cases hq : q = p
          · subst hq
            rw [Function.update_self] at h
            obtain rfl := Option.some.inj h
            exact Nat.lt_succ_self _
          · rw [Function.update_of_ne hq] at h
            exact Nat.lt_succ_of_lt (fs.lt_next q i h)
        unique := by
          intro q r i hq hr
          by_cases hqp : q = p <;> by_cases hrp : r = p
          · rw [hqp, hrp]
          · subst hqp
            rw [Function.update_self] at hq
            rw [Function.update_of_ne hrp] at hr
            obtain rfl := Option.some.inj hq
            exact absurd (fs.lt_next r _ hr) (Nat.lt_irrefl _)
          · subst hrp
            rw [Function.update_self] at hr
            rw [Function.update_of_ne hqp] at hq
            obtain rfl := Option.some.inj hr
            exact absurd (fs.lt_next q _ hq) (Nat.lt_irrefl _)
          · rw [Function.update_of_ne hqp] at hq
            rw [Function.update_of_ne hrp] at hr
            exact fs.unique q r i hq hr })

/-- Change what is in a file, whether or not a path leads to it. -/
def modify (fs : FileSystem P β) (i : Nat) (change : List β → List β) : FileSystem P β :=
  { fs with content := Function.update fs.content i (change (fs.content i)) }

/-- A write at an offset; a gap before it is filled up. -/
def splice (zero : β) (offset : Nat) (bytes content : List β) : List β :=
  content.takeD offset zero ++ bytes ++ content.drop (offset + bytes.length)

/-- A write at the end appends. -/
theorem splice_length (zero : β) (bytes content : List β) :
    splice zero content.length bytes content = content ++ bytes := by
  unfold splice
  rw [List.takeD_eq_take _ (Nat.le_refl _), List.take_length, List.drop_of_length_le (by omega),
    List.append_nil]

def unlink (fs : FileSystem P β) (p : P) : FileSystem P β :=
  { fs with
    dir := Function.update fs.dir p none
    lt_next := by
      intro q i h
      by_cases hq : q = p
      · subst hq
        rw [Function.update_self] at h
        exact absurd h (by simp)
      · rw [Function.update_of_ne hq] at h
        exact fs.lt_next q i h
    unique := by
      intro q r i hq hr
      by_cases hqp : q = p
      · subst hqp
        rw [Function.update_self] at hq
        exact absurd hq (by simp)
      · by_cases hrp : r = p
        · subst hrp
          rw [Function.update_self] at hr
          exact absurd hr (by simp)
        · rw [Function.update_of_ne hqp] at hq
          rw [Function.update_of_ne hrp] at hr
          exact fs.unique q r i hq hr }

/-- No path leads to a file any more. -/
def clear (fs : FileSystem P β) : FileSystem P β :=
  { fs with
    dir := fun _ => none
    lt_next := fun _ _ h => absurd h (by simp)
    unique := fun _ _ _ h => absurd h (by simp) }

/-- The file moves to the target, and the file that was there has no path any more. -/
def rename (fs : FileSystem P β) (source target : P) : FileSystem P β :=
  if source = target then fs
  else
    { fs with
      dir := fun p => if p = source then none else if p = target then fs.dir source else fs.dir p
      lt_next := by
        intro p i h
        split at h
        · exact absurd h (by simp)
        · split at h <;> exact fs.lt_next _ i h
      unique := by
        intro p q i hp hq
        split at hp
        · exact absurd hp (by simp)
        · next hps =>
          split at hq
          · exact absurd hq (by simp)
          · next hqs =>
            split at hp <;> split at hq
            · next hpt hqt => rw [hpt, hqt]
            · exact absurd (fs.unique _ _ i hq hp) hqs
            · exact absurd (fs.unique _ _ i hp hq) hps
            · exact fs.unique p q i hp hq }

section

variable {fs : FileSystem P β} {p q source target : P} {i j : Nat} {change : List β → List β}

/-! ### Opening a file -/

theorem dir_create_self : (fs.create p).2.dir p = some (fs.create p).1 := by
  unfold create
  split
  · next known => exact known
  · exact Function.update_self ..

theorem dir_create_of_ne (h : q ≠ p) : (fs.create p).2.dir q = fs.dir q := by
  unfold create
  split
  · rfl
  · exact Function.update_of_ne h _ _

/-- No other path leads to an opened file. -/
theorem eq_of_dir_create (h : (fs.create p).2.dir q = some (fs.create p).1) : q = p :=
  (fs.create p).2.unique q p _ h dir_create_self

theorem content_create_self : (fs.create p).2.content (fs.create p).1 = [] := by
  unfold create
  split <;> exact Function.update_self ..

theorem content_create_of_ne (h : j ≠ (fs.create p).1) :
    (fs.create p).2.content j = fs.content j := by
  unfold create at h ⊢
  split at h <;> exact Function.update_of_ne h _ _

theorem create_lt_next : (fs.create p).1 < (fs.create p).2.next :=
  (fs.create p).2.lt_next p _ dir_create_self

theorem next_le_create : fs.next ≤ (fs.create p).2.next := by
  unfold create
  split
  · exact Nat.le_refl _
  · exact Nat.le_succ _

/-- An opened file is the one that the path led to, or a new one. -/
theorem create_fst :
    fs.dir p = some (fs.create p).1 ∨ fs.dir p = none ∧ (fs.create p).1 = fs.next := by
  unfold create
  split
  · next known => exact .inl known
  · next unknown => exact .inr ⟨unknown, rfl⟩

/-! ### Writing, removing and renaming -/

omit [DecidableEq P] in
@[simp] theorem dir_modify : (fs.modify i change).dir = fs.dir := rfl

omit [DecidableEq P] in
@[simp] theorem next_modify : (fs.modify i change).next = fs.next := rfl

omit [DecidableEq P] in
theorem content_modify_self : (fs.modify i change).content i = change (fs.content i) :=
  Function.update_self ..

omit [DecidableEq P] in
theorem content_modify_of_ne (h : j ≠ i) : (fs.modify i change).content j = fs.content j :=
  Function.update_of_ne h _ _

@[simp] theorem content_unlink : (fs.unlink p).content = fs.content := rfl

@[simp] theorem next_unlink : (fs.unlink p).next = fs.next := rfl

/-- What a path still leads to after a removal. -/
theorem dir_of_unlink (h : (fs.unlink p).dir q = some i) : q ≠ p ∧ fs.dir q = some i := by
  have hupdate : Function.update fs.dir p none q = some i := h
  by_cases hq : q = p
  · rw [hq, Function.update_self] at hupdate
    exact absurd hupdate (by simp)
  · rw [Function.update_of_ne hq] at hupdate
    exact ⟨hq, hupdate⟩

@[simp] theorem content_rename : (fs.rename source target).content = fs.content := by
  unfold rename
  split <;> rfl

@[simp] theorem next_rename : (fs.rename source target).next = fs.next := by
  unfold rename
  split <;> rfl

/-- What a path leads to after a renaming: what it led to before, unless it is the target, which
    leads to what the source led to. -/
theorem dir_of_rename (h : (fs.rename source target).dir q = some i) :
    q = target ∧ fs.dir source = some i ∨ q ≠ target ∧ fs.dir q = some i := by
  unfold rename at h
  split at h
  · next heq =>
    subst heq
    by_cases hq : q = source
    · subst hq
      exact .inl ⟨rfl, h⟩
    · exact .inr ⟨hq, h⟩
  · dsimp only at h
    split at h
    · exact absurd h (by simp)
    · split at h
      · next hq => exact .inl ⟨hq, h⟩
      · next hq => exact .inr ⟨hq, h⟩

/-- What is read from a path after a renaming. -/
theorem read_of_rename {bytes : List β} (h : (fs.rename source target).read q = some bytes) :
    q = target ∧ fs.read source = some bytes ∨ q ≠ target ∧ fs.read q = some bytes := by
  obtain ⟨i, hdir, rfl⟩ := Option.map_eq_some_iff.mp h
  rw [content_rename]
  refine (dir_of_rename hdir).imp (fun hself => ⟨hself.1, ?_⟩) fun hother => ⟨hother.1, ?_⟩
  · rw [read, hself.2, Option.map_some]
  · rw [read, hother.2, Option.map_some]

/-! ### What is read -/

theorem read_create_of_ne (h : q ≠ p) : (fs.create p).2.read q = fs.read q := by
  unfold read
  rw [dir_create_of_ne h]
  apply Option.map_congr
  intro j hj
  -- no other path leads to the opened file
  apply content_create_of_ne
  rintro rfl
  exact h (eq_of_dir_create (by rw [dir_create_of_ne h, hj]))

omit [DecidableEq P] in
theorem read_modify_of_ne (opened : fs.dir p = some i) (h : q ≠ p) :
    (fs.modify i change).read q = fs.read q := by
  unfold read
  rw [dir_modify]
  apply Option.map_congr
  intro j hj
  apply content_modify_of_ne
  rintro rfl
  exact h (fs.unique q p j hj opened)

theorem read_unlink_self : (fs.unlink p).read p = none := by
  show ((Function.update fs.dir p none) p).map fs.content = none
  rw [Function.update_self, Option.map_none]

theorem read_unlink_of_ne (h : q ≠ p) : (fs.unlink p).read q = fs.read q := by
  show ((Function.update fs.dir p none) q).map fs.content = _
  rw [Function.update_of_ne h]
  rfl

theorem read_rename_target (h : source ≠ target) :
    (fs.rename source target).read target = fs.read source := by
  unfold read rename
  rw [if_neg h]
  dsimp only
  rw [if_neg (Ne.symm h), if_pos rfl]

theorem read_rename_source (h : source ≠ target) :
    (fs.rename source target).read source = none := by
  unfold read rename
  rw [if_neg h]
  dsimp only
  rw [if_pos rfl, Option.map_none]

theorem read_rename_of_ne (hs : q ≠ source) (ht : q ≠ target) :
    (fs.rename source target).read q = fs.read q := by
  unfold read rename
  split
  · rfl
  · dsimp only
    rw [if_neg hs, if_neg ht]

end

end FileSystem

end Montr.Files
