import Montr.Client.CacheManager
import Montr.Lib.FileSystem
import Montr.Lib.Slots
import Montr.Lib.Transition
import Mathlib.Data.List.TakeWhile
import Std.Data.String.ToNat

namespace Montr.Client.LogRotation

open Files Slots Transition

/-!
# Log rotation

`check_log_rotation` and `rotate_logs`, as a start of the player runs them before it opens the log
file, and the player that appends to that file.

* `RotateOp`, `rotateOps` — the file operations of one rotation;
* `LogMachine` — the files and the open log file; a start may end after any of its operations,
  because one fails or because the player is killed;
* `retained` — what is in the log files, from the oldest to the newest;
* `retained_suffix` — wherever rotations were interrupted, that is the end of what was logged;
* `rotated_logs` — where none was, each file holds its piece of it.
-/

/-- The part of the configuration that is used, as `Config::validate` accepts it. -/
structure LogConfig where
  logFile : String
  logMaxSizeMb : Nat
  logMaxFiles : Nat
  size_pos : 0 < logMaxSizeMb
  files_pos : 0 < logMaxFiles

namespace LogConfig

/-- `log_path.with_extension(format!("log.{}", i))`. -/
def rotated (c : LogConfig) (i : Nat) : String := withExtension c.logFile s!"log.{i}"

/-- The log file, and the rotated ones by their numbers. -/
def slot (c : LogConfig) : Nat → String
  | 0 => c.logFile
  | i + 1 => c.rotated (i + 1)

end LogConfig

/-! ### The operations of a rotation -/

inductive RotateOp
  /-- `if path.exists() { remove_file(path) }` -/
  | remove (path : String)
  /-- `if current.exists() { rename(current, next) }` -/
  | rename (current next : String)
  deriving DecidableEq, Repr

def RotateOp.run (files : FileSystem String UInt8) : RotateOp → FileSystem String UInt8
  | .remove path => if (files.read path).isSome then files.unlink path else files
  | .rename current next =>
    if (files.read current).isSome then files.rename current next else files

/-- `rotate_logs`. -/
def rotateOps (c : LogConfig) : List RotateOp :=
  .remove (c.rotated c.logMaxFiles) ::
    ((List.range' 1 (c.logMaxFiles - 1)).reverse.map fun i =>
      RotateOp.rename (c.rotated i) (c.rotated (i + 1))) ++
    -- the log file exists, or there is no rotation
    [.rename c.logFile (c.rotated 1)]

/-- A start comes to its end, or ends after some of the operations. -/
def rotateLogs (c : LogConfig) (files : FileSystem String UInt8) (stop : Option Nat) :
    FileSystem String UInt8 :=
  let ops := match stop with
    | none => rotateOps c
    | some n => (rotateOps c).take n
  ops.foldl RotateOp.run files

/-- `check_log_rotation`. -/
def checkLogRotation (c : LogConfig) (files : FileSystem String UInt8) (stop : Option Nat) :
    FileSystem String UInt8 :=
  match files.read c.logFile with
  | none => files
  | some bytes =>
    if c.logMaxSizeMb ≤ bytes.length / (1024 * 1024) then rotateLogs c files stop else files

/-! ### The player -/

structure LogMachine where
  files : FileSystem String UInt8
  /-- the log file of a player that runs -/
  handle : Option Nat

inductive LogEvent
  /-- `init_logging`, to its end or until it stops in the rotation or behind it -/
  | start (stop : Option Nat)
  | log (bytes : List UInt8)
  | exit
  deriving DecidableEq, Repr

namespace LogMachine

def init : LogMachine := { files := .empty, handle := none }

/-- `OpenOptions::new().create(true).append(true).open(..)`. -/
def openAppend (files : FileSystem String UInt8) (path : String) :
    Nat × FileSystem String UInt8 :=
  match files.dir path with
  | some i => (i, files)
  | none => files.create path

def step (c : LogConfig) (s : LogMachine) : LogEvent → Option LogMachine
  | .start (some n) =>
    match s.handle with
    | some _ => none
    | none => some { s with files := checkLogRotation c s.files (some n) }
  | .start none =>
    match s.handle with
    | some _ => none
    | none =>
      let opened := openAppend (checkLogRotation c s.files none) c.logFile
      some { files := opened.2, handle := some opened.1 }
  | .log bytes =>
    match s.handle with
    | some i => some { s with files := s.files.modify i (· ++ bytes) }
    | none => none
  | .exit => some { s with handle := none }

end LogMachine

/-- Everything that was logged, in its order. -/
def logged (events : List LogEvent) : List UInt8 :=
  events.flatMap fun
    | .log bytes => bytes
    | _ => []

/-- What is in the log file and in the rotated ones up to `log_max_files`, the oldest first. -/
def retained (c : LogConfig) (files : FileSystem String UInt8) : List UInt8 :=
  (occupied (fun k => files.read (c.slot k)) (c.logMaxFiles + 1)).reverse.flatten

/-! ### The names of the log files -/

namespace LogConfig

variable {c : LogConfig} {i j : Nat}

/-- A new extension with a dot in it makes a new name. -/
theorem withExtension_ne {path ext : String} (h : '.' ∈ ext.toList) :
    withExtension path ext ≠ path := by
  intro heq
  have hlist := congrArg String.toList heq
  unfold withExtension at hlist
  rw [String.toList_ofList] at hlist
  generalize hname : (path.toList.reverse.takeWhile fun c => c ≠ '/') = name at hlist
  have hpath : path.toList =
      (path.toList.reverse.dropWhile fun c => c ≠ '/').reverse ++ name.reverse := by
    rw [← hname, ← List.reverse_append, List.takeWhile_append_dropWhile, List.reverse_reverse]
  rw [List.append_assoc] at hlist
  have hstem := List.append_cancel_left (hlist.trans hpath)
  unfold fileStem at hstem
  rw [List.reverse_reverse] at hstem
  split at hstem
  · exact absurd (congrArg List.length hstem) (by simp)
  · exact absurd (congrArg List.length hstem) (by simp)
  · next dot before _ hdrop =>
    -- what stands behind the last dot of the name has none
    have hsplit : name.reverse =
        before.reverse ++ dot :: (name.takeWhile fun c => c ≠ '.').reverse := by
      conv_lhs =>
        rw [← List.takeWhile_append_dropWhile (p := fun c => decide (c ≠ '.')) (l := name)]
      rw [hdrop, List.reverse_append, List.reverse_cons, List.append_assoc]
      rfl
    have hext := (List.cons.inj (List.append_cancel_left (hstem.trans hsplit))).2
    rw [hext, List.mem_reverse] at h
    have hdot := List.mem_takeWhile_imp h
    simp at hdot

theorem rotated_injective (h : c.rotated i = c.rotated j) : i = j := by
  have hlist := congrArg String.toList h
  unfold rotated withExtension at hlist
  rw [String.toList_ofList, String.toList_ofList] at hlist
  have hext := String.toList_injective (List.cons.inj (List.append_cancel_left hlist)).2
  have hname : ("log." ++ Nat.repr i).toList = ("log." ++ Nat.repr j).toList := by
    simpa using congrArg String.toList hext
  rw [String.toList_append, String.toList_append] at hname
  exact Nat.repr_injective (String.toList_injective (List.append_cancel_left hname))

theorem rotated_ne : c.rotated i ≠ c.logFile := by
  apply withExtension_ne
  show '.' ∈ ("log." ++ Nat.repr i).toList
  rw [String.toList_append]
  exact List.mem_append_left _ (by decide)

theorem slot_injective (h : c.slot i = c.slot j) : i = j := by
  cases i with
  | zero =>
    cases j with
    | zero => rfl
    | succ j => exact absurd h.symm rotated_ne
  | succ i =>
    cases j with
    | zero => exact absurd h rotated_ne
    | succ j => exact rotated_injective h

theorem slot_ne (h : i ≠ j) : c.slot i ≠ c.slot j := fun heq => h (slot_injective heq)

theorem slot_pos (h : 0 < i) : c.slot i = c.rotated i := by
  cases i with
  | zero => exact absurd h (Nat.lt_irrefl 0)
  | succ i => rfl

end LogConfig

/-! ### A rotation on the row of log files -/

section

variable {c : LogConfig} {files : FileSystem String UInt8} {stop : Option Nat} {i k : Nat}

/-- What is in the log files by their numbers. -/
def slots (c : LogConfig) (files : FileSystem String UInt8) (k : Nat) : Option (List UInt8) :=
  files.read (c.slot k)

theorem slots_remove :
    slots c (RotateOp.run files (.remove (c.slot i))) = Slots.run (slots c files) (.clear i) := by
  funext k
  show (if _ then _ else _ : FileSystem String UInt8).read _ =
    Function.update (slots c files) i none k
  by_cases hk : k = i
  · subst hk
    rw [Function.update_self]
    split
    · exact FileSystem.read_unlink_self
    · next habsent => exact Option.not_isSome_iff_eq_none.mp habsent
  · rw [Function.update_of_ne hk]
    split
    · exact FileSystem.read_unlink_of_ne (LogConfig.slot_ne hk)
    · rfl

theorem slots_rename :
    slots c (RotateOp.run files (.rename (c.slot i) (c.slot (i + 1)))) =
      Slots.run (slots c files) (.move i) := by
  have hne : c.slot i ≠ c.slot (i + 1) := LogConfig.slot_ne (Nat.ne_of_lt (Nat.lt_succ_self i))
  funext k
  show (if _ then _ else _ : FileSystem String UInt8).read _ =
    if k = i then none else if k = i + 1 then (slots c files i).or _ else _
  by_cases hself : k = i
  · subst hself
    rw [if_pos rfl]
    split
    · exact FileSystem.read_rename_source hne
    · next habsent => exact Option.not_isSome_iff_eq_none.mp habsent
  · rw [if_neg hself]
    split
    · next hexists =>
      by_cases hnext : k = i + 1
      · subst hnext
        obtain ⟨bytes, hbytes⟩ := Option.isSome_iff_exists.mp hexists
        rw [if_pos rfl, FileSystem.read_rename_target hne]
        unfold slots
        rw [hbytes, Option.some_or]
      · rw [if_neg hnext, FileSystem.read_rename_of_ne (LogConfig.slot_ne hself)
          (LogConfig.slot_ne hnext)]
        rfl
    · next habsent =>
      -- there is nothing to move
      have hnone : slots c files i = none := Option.not_isSome_iff_eq_none.mp habsent
      rw [hnone, Option.none_or, ite_self]
      rfl

/-- A step on the row as an operation on files. -/
def fileOp (c : LogConfig) : SlotStep → RotateOp
  | .clear i => .remove (c.slot i)
  | .move i => .rename (c.slot i) (c.slot (i + 1))

/-- The operations of the source are the steps of a rotation of the row. -/
theorem rotateOps_eq : rotateOps c = (rotateSteps c.logMaxFiles).map (fileOp c) := by
  obtain ⟨m, hm⟩ : ∃ m, c.logMaxFiles = m + 1 :=
    Nat.exists_eq_add_one_of_ne_zero (Nat.ne_of_gt c.files_pos)
  unfold rotateOps rotateSteps
  rw [hm, Nat.add_sub_cancel, List.range_succ_eq_map, List.range_eq_range']
  simp [fileOp, LogConfig.slot, List.range'_eq_map_range, Function.comp_def, Nat.add_comm]

theorem slots_fileOp (step : SlotStep) :
    slots c (RotateOp.run files (fileOp c step)) = Slots.run (slots c files) step := by
  cases step with
  | clear i => exact slots_remove
  | move i => exact slots_rename

theorem slots_runAll (steps : List SlotStep) (files : FileSystem String UInt8) :
    slots c ((steps.map (fileOp c)).foldl RotateOp.run files) = runAll (slots c files) steps := by
  induction steps generalizing files with
  | nil => rfl
  | cons step steps ih =>
    rw [List.map_cons, List.foldl_cons, ih, slots_fileOp]
    rfl

/-- What a rotation leaves in the row of log files. -/
theorem slots_rotateLogs : slots c (rotateLogs c files stop) =
    match stop with
    | none => shifted (slots c files) c.logMaxFiles 0
    | some 0 => slots c files
    | some (n + 1) => shifted (slots c files) c.logMaxFiles (c.logMaxFiles - n) := by
  unfold rotateLogs
  rw [rotateOps_eq]
  cases stop with
  | none =>
    dsimp only
    rw [slots_runAll, runAll_rotateSteps]
  | some n =>
    cases n with
    | zero => rfl
    | succ n =>
      dsimp only
      rw [← List.map_take, slots_runAll, run_rotateSteps_take]

/-- What the test before the opening leaves: the row as it was, or a rotation that came to its end
    or stopped somewhere. -/
theorem slots_checkLogRotation (c : LogConfig) (files : FileSystem String UInt8)
    (stop : Option Nat) :
    slots c (checkLogRotation c files stop) = slots c files ∨
      ∃ bytes j, slots c files 0 = some bytes ∧
        c.logMaxSizeMb ≤ bytes.length / (1024 * 1024) ∧ j ≤ c.logMaxFiles ∧
        slots c (checkLogRotation c files stop) = shifted (slots c files) c.logMaxFiles j ∧
        (stop = none → j = 0) := by
  unfold checkLogRotation
  split
  · exact .inl rfl
  · next bytes hbytes =>
    split
    · next hdue =>
      rw [slots_rotateLogs]
      cases stop with
      | none => exact .inr ⟨bytes, 0, hbytes, hdue, Nat.zero_le _, rfl, fun _ => rfl⟩
      | some n =>
        cases n with
        | zero => exact .inl rfl
        | succ n =>
          refine .inr ⟨bytes, c.logMaxFiles - n, hbytes, hdue, Nat.sub_le _ _, rfl, ?_⟩
          exact fun h => absurd h (by simp)
    · exact .inl rfl

/-! ### The open log file -/

theorem dir_openAppend {path : String} :
    (LogMachine.openAppend files path).2.dir path =
      some (LogMachine.openAppend files path).1 := by
  unfold LogMachine.openAppend
  split
  · next i hi => exact hi
  · exact FileSystem.dir_create_self

theorem slots_openAppend : slots c (LogMachine.openAppend files c.logFile).2 =
    Function.update (slots c files) 0 (some ((slots c files 0).getD [])) := by
  funext k
  unfold LogMachine.openAppend
  split
  · next i hi =>
    -- an old log is kept
    have hread : slots c files 0 = some (files.content i) := by
      show (files.dir c.logFile).map files.content = _
      rw [hi, Option.map_some]
    by_cases hk : k = 0
    · subst hk
      rw [Function.update_self, hread, Option.getD_some]
    · rw [Function.update_of_ne hk]
  · next hnone =>
    by_cases hk : k = 0
    · subst hk
      have hread : slots c files 0 = none := by
        show (files.dir c.logFile).map files.content = none
        rw [hnone, Option.map_none]
      rw [Function.update_self, hread, Option.getD_none]
      show ((files.create c.logFile).2.dir c.logFile).map _ = _
      rw [FileSystem.dir_create_self, Option.map_some, FileSystem.content_create_self]
    · rw [Function.update_of_ne hk]
      exact FileSystem.read_create_of_ne (LogConfig.slot_ne hk)

theorem slots_append (opened : files.dir c.logFile = some i) (bytes : List UInt8) :
    slots c (files.modify i (· ++ bytes)) =
      Function.update (slots c files) 0 (some ((slots c files 0).getD [] ++ bytes)) := by
  funext k
  by_cases hk : k = 0
  · subst hk
    have hread : slots c files 0 = some (files.content i) := by
      show (files.dir c.logFile).map files.content = _
      rw [opened, Option.map_some]
    rw [Function.update_self, hread, Option.getD_some]
    show (files.dir c.logFile).map (files.modify i (· ++ bytes)).content = _
    rw [opened, Option.map_some, FileSystem.content_modify_self]
  · rw [Function.update_of_ne hk]
    exact FileSystem.read_modify_of_ne opened (LogConfig.slot_ne hk)

end

/-! ### What is retained -/

section

variable {c : LogConfig} {files after : FileSystem String UInt8} {events : List LogEvent}
  {s t : LogMachine} {bytes : List UInt8}

theorem retained_eq : retained c files =
    (occupied (fun k => slots c files (k + 1)) c.logMaxFiles).reverse.flatten ++
      (slots c files 0).getD [] := by
  show (occupied (slots c files) (c.logMaxFiles + 1)).reverse.flatten = _
  rw [occupied_cons, List.reverse_append, List.flatten_append]
  cases slots c files 0 <;> simp

/-- A change of the log file alone. -/
theorem retained_of_update
    (h : slots c after = Function.update (slots c files) 0 (some bytes)) : retained c after =
      (occupied (fun k => slots c files (k + 1)) c.logMaxFiles).reverse.flatten ++ bytes := by
  have hothers : (fun k => slots c after (k + 1)) = fun k => slots c files (k + 1) := by
    funext k
    rw [h, Function.update_of_ne (Nat.succ_ne_zero k)]
  rw [retained_eq, hothers, h, Function.update_self, Option.getD_some]

/-- Nothing but the oldest file is lost in a start, however far it comes. -/
theorem retained_checkLogRotation (stop : Option Nat) :
    retained c (checkLogRotation c files stop) <:+ retained c files := by
  rcases slots_checkLogRotation c files stop with hsame | hrotated
  · show (occupied (slots c _) _).reverse.flatten <:+ _
    rw [hsame]
    exact List.suffix_refl _
  · obtain ⟨bytes, j, -, -, hj, hslots, -⟩ := hrotated
    show (occupied (slots c _) _).reverse.flatten <:+ _
    rw [hslots, occupied_shifted hj]
    obtain ⟨lost, hlost⟩ := occupied_prefix (f := slots c files) (n := c.logMaxFiles)
    refine ⟨lost.reverse.flatten, ?_⟩
    rw [← List.flatten_append, ← List.reverse_append, hlost]
    rfl

theorem logged_append (a : LogEvent) : logged (events ++ [a]) = logged events ++ logged [a] :=
  List.flatMap_append

/-- The handle of a player that runs leads to the log file. -/
def Opened (c : LogConfig) (s : LogMachine) : Prop :=
  ∀ i, s.handle = some i → s.files.dir c.logFile = some i

/-- What one event does to the row of log files. -/
inductive LogStep (c : LogConfig) (s t : LogMachine) : LogEvent → Prop
  | failed (n : Nat) (files : t.files = checkLogRotation c s.files (some n)) :
      LogStep c s t (.start (some n))
  | started (row : slots c t.files =
      Function.update (slots c (checkLogRotation c s.files none)) 0
        (some ((slots c (checkLogRotation c s.files none) 0).getD []))) :
      LogStep c s t (.start none)
  | logged (bytes : List UInt8) (row : slots c t.files =
      Function.update (slots c s.files) 0 (some ((slots c s.files 0).getD [] ++ bytes))) :
      LogStep c s t (.log bytes)
  | exited (files : t.files = s.files) : LogStep c s t .exit

theorem step_cases {a : LogEvent} (opened : Opened c s) (h : s.step c a = some t) :
    LogStep c s t a ∧ Opened c t := by
  cases a with
  | start stop =>
    cases stop <;> rw [LogMachine.step] at h <;> cases hhandle : s.handle <;>
      rw [hhandle] at h <;> cases h
    · refine ⟨.started slots_openAppend, fun i hi => ?_⟩
      obtain rfl := Option.some.inj hi
      exact dir_openAppend
    · next n =>
      refine ⟨.failed n rfl, fun i hi => ?_⟩
      exact absurd hi (by simp)
  | log bytes =>
    rw [LogMachine.step] at h
    cases hhandle : s.handle with
    | none =>
      rw [hhandle] at h
      cases h
    | some i =>
      rw [hhandle] at h
      obtain rfl := Option.some.inj h
      have hdir := opened i hhandle
      refine ⟨.logged bytes (slots_append hdir bytes), fun j hj => ?_⟩
      exact opened j (hhandle.trans hj)
  | exit =>
    obtain rfl := Option.some.inj h
    exact ⟨.exited rfl, fun i hi => absurd hi (by simp)⟩

theorem init_opened : Opened c .init := fun _ hi => absurd hi (by simp [LogMachine.init])

theorem run_opened (run : Reaches (LogMachine.step c) .init events s) : Opened c s :=
  run.invariant init_opened fun _ _ _ opened _ enabled => (step_cases opened enabled).2

theorem retained_init : retained c LogMachine.init.files = [] := by
  have hnone : slots c LogMachine.init.files = fun _ => none := rfl
  show (occupied (slots c _) _).reverse.flatten = []
  rw [hnone]
  simp [occupied]

/-- **The retained logs are the end of the log.**  In every run of starts, of which any may stop
    after any of the operations of its rotation, what is in the log files in the order of their
    numbers is the last part of everything that was logged: nothing is missing in between, and
    nothing stands twice or in another order. -/
theorem retained_suffix (run : Reaches (LogMachine.step c) .init events s) :
    retained c s.files <:+ logged events := by
  induction run with
  | nil =>
    rw [retained_init]
    exact List.nil_suffix
  | @snoc _ s t a run _ enabled ih =>
    obtain ⟨hcase, -⟩ := step_cases (run_opened run) enabled
    rw [logged_append]
    cases hcase with
    | failed n hfiles =>
      rw [hfiles]
      show _ <:+ _ ++ []
      rw [List.append_nil]
      exact (retained_checkLogRotation _).trans ih
    | started hrow =>
      -- the opening adds no byte
      show _ <:+ _ ++ []
      rw [retained_of_update hrow, ← retained_eq, List.append_nil]
      exact (retained_checkLogRotation _).trans ih
    | logged bytes hrow =>
      obtain ⟨lost, hlost⟩ := ih
      refine ⟨lost, ?_⟩
      rw [retained_of_update hrow, ← List.append_assoc (List.flatten _), ← retained_eq,
        ← List.append_assoc, hlost]
      simp [logged]
    | exited hfiles =>
      rw [hfiles]
      show _ <:+ _ ++ []
      rw [List.append_nil]
      exact ih

/-- Two log files of a megabyte. -/
def sampleLogConfig : LogConfig where
  logFile := "/var/lib/montr/client.log"
  logMaxSizeMb := 1
  logMaxFiles := 2
  size_pos := by decide
  files_pos := by decide

def megabyte : List UInt8 := List.replicate (1024 * 1024) 0

/-- The player is killed when the oldest file is removed, and starts again. -/
theorem retained_suffix_killed :
    ∃ s, Reaches (LogMachine.step sampleLogConfig) .init
        [.start none, .log megabyte, .exit, .start (some 1), .start none, .log [1]] s ∧
      retained sampleLogConfig s.files <:+
        logged [.start none, .log megabyte, .exit, .start (some 1), .start none, .log [1]] := by
  obtain ⟨s, hrun⟩ : ∃ s, Reaches (LogMachine.step sampleLogConfig) .init
      [.start none, .log megabyte, .exit, .start (some 1), .start none, .log [1]] s :=
    ⟨_, .cons trivial rfl (.cons trivial rfl (.cons trivial rfl (.cons trivial rfl
      (.cons trivial rfl (.cons trivial rfl .nil)))))⟩
  exact ⟨s, hrun, retained_suffix hrun⟩

/-- The pieces of the log, as rotations that came to their end made them. -/
structure Archived (c : LogConfig) (row : Nat → Option (List UInt8)) (old : List (List UInt8))
    (log : List UInt8) : Prop where
  whole : log = old.reverse.flatten ++ (row 0).getD []
  large : ∀ bytes ∈ old, c.logMaxSizeMb ≤ bytes.length / (1024 * 1024)
  rotated : ∀ k, k < c.logMaxFiles → row (k + 1) = old[k]?

variable {row : Nat → Option (List UInt8)} {old : List (List UInt8)} {log : List UInt8}

/-- A change of the log file that appends to it. -/
theorem Archived.update (h : Archived c row old log) (bytes : List UInt8) :
    Archived c (Function.update row 0 (some ((row 0).getD [] ++ bytes))) old (log ++ bytes) where
  whole := by rw [h.whole, Function.update_self, Option.getD_some, List.append_assoc]
  large := h.large
  rotated := by
    intro k hk
    rw [Function.update_of_ne (Nat.succ_ne_zero k)]
    exact h.rotated k hk

/-- A rotation closes a piece. -/
theorem Archived.shifted (h : Archived c row old log) (current : row 0 = some bytes)
    (due : c.logMaxSizeMb ≤ bytes.length / (1024 * 1024)) :
    Archived c (Slots.shifted row c.logMaxFiles 0) (bytes :: old) log where
  whole := by
    rw [h.whole, current, shifted_zero_zero]
    simp
  large := List.forall_mem_cons.mpr ⟨due, h.large⟩
  rotated := by
    intro k hk
    rw [shifted_zero_succ hk]
    cases k with
    | zero => exact current
    | succ k => exact h.rotated k (Nat.lt_of_succ_lt hk)

theorem run_archived
    (run : Guarded (LogMachine.step c) (fun _ a => ∀ n, a ≠ .start (some n)) .init events s) :
    ∃ old, Archived c (slots c s.files) old (logged events) := by
  induction run with
  | nil => exact ⟨[], rfl, List.forall_mem_nil _, fun _ _ => rfl⟩
  | @snoc events s t a run meets enabled ih =>
    obtain ⟨old, hold⟩ := ih
    have hopened : Opened c s :=
      run.invariant init_opened fun _ _ _ opened _ enabled => (step_cases opened enabled).2
    obtain ⟨hcase, -⟩ := step_cases hopened enabled
    rw [logged_append]
    cases hcase with
    | failed n _ => exact absurd rfl (meets n)
    | started hrow =>
      have hchecked : ∃ old, Archived c (slots c (checkLogRotation c s.files none)) old
          (logged events) := by
        rcases slots_checkLogRotation c s.files none with hsame | hdue
        · exact ⟨old, hsame ▸ hold⟩
        · obtain ⟨bytes, j, hbytes, hlarge, -, hslots, hend⟩ := hdue
          obtain rfl := hend rfl
          exact ⟨bytes :: old, hslots ▸ hold.shifted hbytes hlarge⟩
      obtain ⟨pieces, hpieces⟩ := hchecked
      refine ⟨pieces, ?_⟩
      rw [hrow]
      simpa [logged] using hpieces.update []
    | logged bytes hrow =>
      refine ⟨old, ?_⟩
      rw [hrow]
      simpa [logged] using hold.update bytes
    | exited hfiles =>
      refine ⟨old, ?_⟩
      rw [hfiles]
      simpa [logged] using hold

/-- **Each rotated file holds its piece of the log.**  In every run whose starts come to their end,
    everything that was logged is cut into pieces of at least `log_max_size_mb`, the file with the
    number `k` holds the `k`-th latest piece, and the log file what was logged since. -/
theorem rotated_logs
    (run : Guarded (LogMachine.step c) (fun _ a => ∀ n, a ≠ .start (some n)) .init events s) :
    ∃ old : List (List UInt8),
      logged events = old.reverse.flatten ++ (s.files.read c.logFile).getD [] ∧
      (∀ bytes ∈ old, c.logMaxSizeMb ≤ bytes.length / (1024 * 1024)) ∧
      ∀ k, k < c.logMaxFiles → s.files.read (c.rotated (k + 1)) = old[k]? := by
  obtain ⟨old, hold⟩ := run_archived run
  exact ⟨old, hold.whole, hold.large, hold.rotated⟩

theorem rotated_logs_twice :
    ∃ (s : LogMachine) (old : List (List UInt8)),
      logged [.start none, .log megabyte, .exit, .start none, .log megabyte] =
        old.reverse.flatten ++ (s.files.read sampleLogConfig.logFile).getD [] ∧
      (∀ bytes ∈ old, 1 ≤ bytes.length / (1024 * 1024)) ∧
      ∀ k, k < 2 → s.files.read (sampleLogConfig.rotated (k + 1)) = old[k]? := by
  obtain ⟨s, hrun⟩ : ∃ s, Guarded (LogMachine.step sampleLogConfig)
      (fun _ a => ∀ n, a ≠ .start (some n)) .init
      [.start none, .log megabyte, .exit, .start none, .log megabyte] s := by
    refine ⟨_, .cons ?_ rfl (.cons ?_ rfl (.cons ?_ rfl (.cons ?_ rfl (.cons ?_ rfl .nil))))⟩ <;>
      intro n hn <;> cases hn
  exact ⟨s, rotated_logs hrun⟩

end

end Montr.Client.LogRotation
