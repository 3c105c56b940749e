import Montr.Lib.FileSystem

namespace Montr.Files

/-!
# Replacing a file through a temporary one

A program replaces a file by writing the new contents to a temporary file, syncing it and renaming
it over the old one, one step at a time.  A crash may come between any two steps, and nothing is
known afterwards about what is in a file that was not synced.

* `Disk` — a file system and the file open for writing, with `run` for one step and `crash`;
* `replaceSteps` — the steps of one replacement, `Disk.replace` one that may crash;
* `replace_read` — every path but the temporary one leads to what it led to before, or to what it
  leads to after the replacement.
-/

/-- The steps of a program that writes one file at a time. -/
inductive FileStep (P β : Type)
  | createDirAll
  | create (path : P)
  | write (bytes : List β)
  | flush
  | syncAll
  | rename (source target : P)
  deriving DecidableEq

/-- A file system, and the file open for writing until it is synced. -/
structure Disk (P β : Type) where
  files : FileSystem P β
  unsynced : Option Nat

namespace Disk

variable {P β : Type} [DecidableEq P]

/-- An empty disk. -/
def empty : Disk P β := { files := .empty, unsynced := none }

/-- What a path leads to. -/
def read (d : Disk P β) (p : P) : Option (List β) := d.files.read p

def run (d : Disk P β) : FileStep P β → Disk P β
  | .createDirAll => d
  | .create p => { files := (d.files.create p).2, unsynced := some (d.files.create p).1 }
  | .write bytes =>
    match d.unsynced with
    | some i => { d with files := d.files.modify i (· ++ bytes) }
    | none => d
  | .flush => d
  | .syncAll => { d with unsynced := none }
  | .rename source target => { d with files := d.files.rename source target }

def runAll (d : Disk P β) (steps : List (FileStep P β)) : Disk P β := steps.foldl run d

/-- A crash leaves anything in a file that was not synced. -/
def crash (d : Disk P β) (left : List β) : Disk P β :=
  match d.unsynced with
  | some i => { files := d.files.modify i fun _ => left, unsynced := none }
  | none => d

end Disk

variable {P β : Type} [DecidableEq P]

/-- Write the temporary file, up to and including the sync. -/
def prepareSteps (tmp : P) (chunks : List (List β)) : List (FileStep P β) :=
  [.createDirAll, .create tmp] ++ chunks.map .write ++ [.flush, .syncAll]

/-- Write the temporary file and rename it. -/
def replaceSteps (tmp target : P) (chunks : List (List β)) : List (FileStep P β) :=
  prepareSteps tmp chunks ++ [.rename tmp target]

/-- A replacement that crashes after some of its steps, or does not. -/
def Disk.replace (d : Disk P β) (tmp target : P) (chunks : List (List β)) :
    Option (Nat × List β) → Disk P β
  | none => d.runAll (replaceSteps tmp target chunks)
  | some (after, left) => (d.runAll ((replaceSteps tmp target chunks).take after)).crash left

namespace Disk

variable {d : Disk P β} {tmp target q : P} {i : Nat}

@[simp] theorem runAll_nil : d.runAll [] = d := rfl

@[simp] theorem runAll_cons (s : FileStep P β) (steps : List (FileStep P β)) :
    d.runAll (s :: steps) = (d.run s).runAll steps := rfl

theorem runAll_append (first second : List (FileStep P β)) :
    d.runAll (first ++ second) = (d.runAll first).runAll second := List.foldl_append

/-! ### Steps on the temporary file -/

/-- Only the temporary path leads to the file open for writing. -/
def Writing (tmp : P) (d : Disk P β) : Prop :=
  ∀ i, d.unsynced = some i → d.files.dir tmp = some i

omit [DecidableEq P] in
/-- Changing the open file changes what no other path leads to. -/
theorem read_modify_of_ne (h : d.files.dir tmp = some i) (hq : q ≠ tmp)
    (change : List β → List β) : (d.files.modify i change).read q = d.files.read q := by
  unfold FileSystem.read
  rw [FileSystem.dir_modify]
  apply Option.map_congr
  intro j hj
  apply FileSystem.content_modify_of_ne
  rintro rfl
  exact hq (d.files.unique q tmp j hj h)

/-- The steps that touch the temporary file only. -/
def Prepares (tmp : P) : FileStep P β → Prop
  | .create p => p = tmp
  | .rename _ _ => False
  | _ => True

theorem run_prepares {s : FileStep P β} (h : Prepares tmp s) (writing : Writing tmp d) :
    Writing tmp (d.run s) ∧ ∀ q, q ≠ tmp → (d.run s).read q = d.read q := by
  cases s with
  | createDirAll => exact ⟨writing, fun _ _ => rfl⟩
  | create p =>
    obtain rfl : p = tmp := h
    refine ⟨fun i hi => ?_, fun q hq => ?_⟩
    · obtain rfl := Option.some.inj hi
      exact FileSystem.dir_create_self
    · show ((d.files.create p).2).read q = d.files.read q
      unfold FileSystem.read
      rw [FileSystem.dir_create_of_ne hq]
      apply Option.map_congr
      intro j hj
      -- the opened file is the one the temporary path leads to now
      apply FileSystem.content_create_of_ne
      rintro rfl
      exact hq (FileSystem.eq_of_dir_create (by rw [FileSystem.dir_create_of_ne hq, hj]))
  | write bytes =>
    cases hopen : d.unsynced with
    | none =>
      have hsame : d.run (.write bytes) = d := by simp [run, hopen]
      rw [hsame]
      exact ⟨writing, fun _ _ => rfl⟩
    | some i =>
      have hrun : d.run (.write bytes) = { d with files := d.files.modify i (· ++ bytes) } := by
        simp [run, hopen]
      rw [hrun]
      exact ⟨writing, fun q hq => read_modify_of_ne (writing i hopen) hq _⟩
  | flush => exact ⟨writing, fun _ _ => rfl⟩
  | syncAll => exact ⟨fun i hi => absurd hi (by simp [run]), fun _ _ => rfl⟩
  | rename source target => exact absurd h id

theorem runAll_prepares {steps : List (FileStep P β)} (h : ∀ s ∈ steps, Prepares tmp s)
    (writing : Writing tmp d) :
    Writing tmp (d.runAll steps) ∧ ∀ q, q ≠ tmp → (d.runAll steps).read q = d.read q := by
  induction steps generalizing d with
  | nil => exact ⟨writing, fun _ _ => rfl⟩
  | cons s steps ih =>
    obtain ⟨hw, hread⟩ := run_prepares (h s List.mem_cons_self) writing
    obtain ⟨hw', hread'⟩ := ih (fun s hs => h s (List.mem_cons_of_mem _ hs)) hw
    exact ⟨hw', fun q hq => (hread' q hq).trans (hread q hq)⟩

omit [DecidableEq P] in
theorem prepares_of_mem {chunks : List (List β)} {s : FileStep P β}
    (h : s ∈ prepareSteps tmp chunks) : Prepares tmp s := by
  simp only [prepareSteps, List.mem_append, List.mem_cons, List.not_mem_nil, or_false,
    List.mem_map] at h
  rcases h with ((rfl | rfl) | ⟨bytes, -, rfl⟩) | rfl | rfl
  · trivial
  · exact rfl
  · trivial
  · trivial
  · trivial

omit [DecidableEq P] in
theorem crash_read (writing : Writing tmp d) (left : List β) (hq : q ≠ tmp) :
    (d.crash left).read q = d.read q := by
  unfold crash
  cases hopen : d.unsynced with
  | none => rfl
  | some i => exact read_modify_of_ne (writing i hopen) hq _

omit [DecidableEq P] in
@[simp] theorem crash_unsynced (left : List β) : (d.crash left).unsynced = none := by
  unfold crash
  split
  · rfl
  · next h => exact h

omit [DecidableEq P] in
/-- A crash with nothing open changes nothing. -/
theorem crash_of_synced (h : d.unsynced = none) (left : List β) : d.crash left = d := by
  unfold crash
  rw [h]

/-! ### What the temporary file holds -/

/-- The writes append to the open file. -/
theorem runAll_writes (chunks : List (List β)) (h : d.unsynced = some i) :
    (d.runAll (chunks.map .write)).unsynced = some i ∧
      (d.runAll (chunks.map .write)).files.dir = d.files.dir ∧
      (d.runAll (chunks.map .write)).files.content i = d.files.content i ++ chunks.flatten := by
  induction chunks generalizing d with
  | nil => simp [h]
  | cons bytes chunks ih =>
    have hrun : d.run (.write bytes) = { d with files := d.files.modify i (· ++ bytes) } := by
      simp [run, h]
    rw [List.map_cons, runAll_cons, hrun]
    obtain ⟨hopen, hdir, hcontent⟩ := ih (d := { d with files := d.files.modify i (· ++ bytes) }) h
    refine ⟨hopen, hdir, ?_⟩
    rw [hcontent]
    show (d.files.modify i (· ++ bytes)).content i ++ _ = _
    rw [FileSystem.content_modify_self, List.flatten_cons, List.append_assoc]

/-- After the sync the temporary file holds everything written, and no file is open. -/
theorem runAll_prepareSteps (d : Disk P β) (tmp : P) (chunks : List (List β)) :
    (d.runAll (prepareSteps tmp chunks)).unsynced = none ∧
      (d.runAll (prepareSteps tmp chunks)).read tmp = some chunks.flatten := by
  have hopen : (d.run (.create tmp)).unsynced = some (d.files.create tmp).1 := rfl
  obtain ⟨-, hdir, hcontent⟩ := runAll_writes chunks hopen
  have hsteps : d.runAll (prepareSteps tmp chunks) =
      { (d.run (.create tmp)).runAll (chunks.map .write) with unsynced := none } := by
    unfold prepareSteps
    rw [runAll_append, runAll_append]
    rfl
  refine ⟨by rw [hsteps], ?_⟩
  rw [hsteps]
  show ((d.run (.create tmp)).runAll (chunks.map .write)).files.read tmp = _
  unfold FileSystem.read
  rw [hdir, show (d.run (.create tmp)).files.dir tmp = _ from FileSystem.dir_create_self,
    Option.map_some, hcontent,
    show (d.run (.create tmp)).files.content _ = _ from FileSystem.content_create_self,
    List.nil_append]

/-! ### A replacement -/

theorem read_rename (hne : tmp ≠ target) (hq : q ≠ tmp) :
    (d.run (.rename tmp target)).read q = if q = target then d.read tmp else d.read q := by
  show (d.files.rename tmp target).read q = _
  unfold FileSystem.read FileSystem.rename
  rw [if_neg hne]
  dsimp only
  rw [if_neg hq]
  split <;> rfl

/-- **A completed replacement** changes the target, and what the temporary path leads to. -/
theorem replace_completed (chunks : List (List β)) (closed : d.unsynced = none)
    (hne : tmp ≠ target) :
    (d.replace tmp target chunks none).unsynced = none ∧ ∀ q, q ≠ tmp →
      (d.replace tmp target chunks none).read q =
        if q = target then some chunks.flatten else d.read q := by
  have hwriting : Writing tmp d := fun i hi => absurd hi (by simp [closed])
  obtain ⟨hsynced, htmp⟩ := runAll_prepareSteps d tmp chunks
  have hmem : ∀ s ∈ prepareSteps tmp chunks, Prepares tmp s := fun _ => prepares_of_mem
  have hkept := (runAll_prepares hmem hwriting).2
  have hrun : d.replace tmp target chunks none =
      (d.runAll (prepareSteps tmp chunks)).run (.rename tmp target) := by
    show d.runAll (prepareSteps tmp chunks ++ [FileStep.rename tmp target]) = _
    rw [runAll_append]
    rfl
  rw [hrun]
  refine ⟨hsynced, fun q hq => ?_⟩
  rw [read_rename hne hq, htmp]
  split
  · rfl
  · exact hkept q hq

/-- **A replacement that crashes** has changed nothing but the temporary file, or is complete. -/
theorem replace_crashed (chunks : List (List β)) (after : Nat) (left : List β)
    (closed : d.unsynced = none) (hne : tmp ≠ target) :
    (d.replace tmp target chunks (some (after, left))).unsynced = none ∧
      ((∀ q, q ≠ tmp → (d.replace tmp target chunks (some (after, left))).read q = d.read q) ∨
        ∀ q, q ≠ tmp → (d.replace tmp target chunks (some (after, left))).read q =
          if q = target then some chunks.flatten else d.read q) := by
  refine ⟨crash_unsynced left, ?_⟩
  have hwriting : Writing tmp d := fun i hi => absurd hi (by simp [closed])
  by_cases hlast : (prepareSteps tmp chunks).length < after
  · -- the renaming is done, and no file is open any more
    right
    have htake : (replaceSteps tmp target chunks).take after = replaceSteps tmp target chunks := by
      apply List.take_of_length_le
      simp only [replaceSteps, List.length_append, List.length_singleton]
      omega
    obtain ⟨hsynced, hread⟩ := replace_completed chunks closed hne
    intro q hq
    show ((d.runAll ((replaceSteps tmp target chunks).take after)).crash left).read q = _
    rw [htake]
    show ((d.replace tmp target chunks none).crash left).read q = _
    rw [crash_of_synced hsynced]
    exact hread q hq
  · left
    have htake : (replaceSteps tmp target chunks).take after =
        (prepareSteps tmp chunks).take after := by
      unfold replaceSteps
      rw [List.take_append_of_le_length (by omega)]
    have hmem : ∀ s ∈ (prepareSteps tmp chunks).take after, Prepares tmp s :=
      fun s hs => prepares_of_mem (List.mem_of_mem_take hs)
    obtain ⟨hw, hread⟩ := runAll_prepares hmem hwriting
    intro q hq
    show ((d.runAll ((replaceSteps tmp target chunks).take after)).crash left).read q = _
    rw [htake, crash_read hw left hq]
    exact hread q hq

/-- The two cases as one. -/
theorem replace_read (chunks : List (List β)) (crash : Option (Nat × List β))
    (closed : d.unsynced = none) {tmp target : P} (hne : tmp ≠ target) :
    (d.replace tmp target chunks crash).unsynced = none ∧
      ((∀ q, q ≠ tmp → (d.replace tmp target chunks crash).read q =
          if q = target then some chunks.flatten else d.read q) ∨
        crash ≠ none ∧ ∀ q, q ≠ tmp → (d.replace tmp target chunks crash).read q = d.read q) := by
  cases crash with
  | none =>
    obtain ⟨hsynced, hread⟩ := replace_completed chunks closed hne
    exact ⟨hsynced, .inl hread⟩
  | some crash =>
    obtain ⟨hsynced, hread | hread⟩ := replace_crashed chunks crash.1 crash.2 closed hne
    · exact ⟨hsynced, .inr ⟨by simp, hread⟩⟩
    · exact ⟨hsynced, .inl hread⟩

end Disk

end Montr.Files
