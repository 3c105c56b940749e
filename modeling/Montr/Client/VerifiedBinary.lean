import Montr.Client.SelfUpdate

namespace Montr.Client

open Files Transition

/-!
# The installed binary

What is at `montr-client` in any interleaving of the player's checks and of `apply-update.sh`, where
any operation may fail and either process may be killed between any two.

* `staged_exe_trusted` — with a staging directory, as under systemd: a binary is there at any time,
  and it is the one that was installed, or has a checksum that the release server has sent;
* `replaced_exe_trusted` — with replacement in place: the same, or there is none and such a binary
  is at `montr-client.old`.

Both are about the runs in which every manifest that offers a binary offers its checksum too.
-/

namespace UpdateMachine

variable {tools : BinaryTools} {original bytes : List UInt8} {m m' : UpdateMachine}
  {fs fs' : FileSystem UpdatePath UInt8} {published : List String} {ok : Bool} {n : Nat}
  {e : UpdateEvent} {events : List UpdateEvent}

/-- The binary that was installed, or one with a checksum that was sent. -/
def Trusted (tools : BinaryTools) (original : List UInt8) (published : List String)
    (bytes : List UInt8) : Prop :=
  bytes = original ∨ tools.sha256 bytes ∈ published

theorem Trusted.mono (h : Trusted tools original published bytes) (more : List String) :
    Trusted tools original (published ++ more) bytes :=
  h.imp_right fun hmem => List.mem_append_left more hmem

/-- A machine before its first check: the installed binary is its only file. -/
structure Fresh (original : List UInt8) (m : UpdateMachine) : Prop where
  exe : m.files.read .exe = some original
  alone : ∀ p, p ≠ .exe → m.files.dir p = none
  player : m.player = .idle
  updater : m.updater = .idle

/-- A check that leads to a download has the checksum. -/
def Checksummed : UpdateEvent → Prop
  | .check b a => ∀ p, planUpdate b a = some p → p.expected ≠ none
  | _ => True

/-- And it stages the binary. -/
def Stages (_ : UpdateMachine) (e : UpdateEvent) : Prop :=
  Checksummed e ∧ ∀ b a p, e = .check b a → planUpdate b a = some p → p.strategy = .stage

/-- Or there is no service that promotes staged binaries. -/
def Replaces (_ : UpdateMachine) (e : UpdateEvent) : Prop :=
  Checksummed e ∧ e ≠ .startUpdater

/-! ### Copying beside the player -/

/-- `cp` reads a file that nobody writes any more, and writes one that is its own. -/
structure Copying (trusted : List UInt8 → Prop) (fs : FileSystem UpdatePath UInt8)
    (source dest done : Nat) : Prop where
  lt : source < fs.next
  notTmp : fs.dir .stagedTmp ≠ some source
  notNew : fs.dir .exeNew ≠ some source
  opened : fs.dir .exeNew = some dest
  trusted : trusted (fs.content source)
  copied : fs.content dest = (fs.content source).take done

theorem ne_created {p : UpdatePath} {i : Nat} (other : fs.dir p ≠ some i) (lt : i < fs.next) :
    i ≠ (fs.create p).1 := by
  rintro rfl
  have hfst : fs.dir p = some (fs.create p).1 ∨ fs.dir p = none ∧ (fs.create p).1 = fs.next :=
    FileSystem.create_fst
  rcases hfst with hold | ⟨-, hnew⟩
  · exact other hold
  · omega

/-- What the player does to the files of `apply-update.sh`: nothing. -/
structure PlayerEffect (fs fs' : FileSystem UpdatePath UInt8) : Prop where
  exe : fs'.read .exe = fs.read .exe
  exeNew : fs'.read .exeNew = fs.read .exeNew
  copying : ∀ {trusted : List UInt8 → Prop} {source dest done : Nat},
    Copying trusted fs source dest done → Copying trusted fs' source dest done

theorem playerEffect_create : PlayerEffect fs (fs.create .stagedTmp).2 where
  exe := FileSystem.read_create_of_ne (by decide)
  exeNew := FileSystem.read_create_of_ne (by decide)
  copying {trusted source dest done} h := by
    have hsource := ne_created h.notTmp h.lt
    have hnew : (fs.create .stagedTmp).2.dir .exeNew = fs.dir .exeNew :=
      FileSystem.dir_create_of_ne (by decide)
    have hdest : dest ≠ (fs.create .stagedTmp).1 := by
      rintro rfl
      exact absurd (FileSystem.eq_of_dir_create (hnew.trans h.opened)) (by decide)
    refine ⟨Nat.lt_of_lt_of_le h.lt FileSystem.next_le_create, ?_, hnew ▸ h.notNew,
      hnew.trans h.opened, ?_, ?_⟩
    · rw [FileSystem.dir_create_self]
      exact fun heq => hsource (Option.some.inj heq).symm
    · rw [FileSystem.content_create_of_ne hsource]
      exact h.trusted
    · rw [FileSystem.content_create_of_ne hsource, FileSystem.content_create_of_ne hdest]
      exact h.copied

theorem playerEffect_modify {file : Nat} {change : List UInt8 → List UInt8}
    (opened : fs.dir .stagedTmp = some file) : PlayerEffect fs (fs.modify file change) where
  exe := FileSystem.read_modify_of_ne opened (by decide)
  exeNew := FileSystem.read_modify_of_ne opened (by decide)
  copying {trusted source dest done} h := by
    have hsource : source ≠ file := fun heq => h.notTmp (heq ▸ opened)
    have hdest : dest ≠ file := by
      rintro rfl
      exact absurd (fs.unique _ _ _ h.opened opened) (by decide)
    refine ⟨h.lt, h.notTmp, h.notNew, h.opened, ?_, ?_⟩
    · rw [FileSystem.content_modify_of_ne hsource]
      exact h.trusted
    · rw [FileSystem.content_modify_of_ne hsource, FileSystem.content_modify_of_ne hdest]
      exact h.copied

theorem playerEffect_unlink : PlayerEffect fs (fs.unlink .stagedTmp) where
  exe := FileSystem.read_unlink_of_ne (by decide)
  exeNew := FileSystem.read_unlink_of_ne (by decide)
  copying h := by
    refine ⟨h.lt, fun heq => ?_, fun heq => ?_, ?_, h.trusted, h.copied⟩
    · exact (FileSystem.dir_of_unlink heq).1 rfl
    · exact h.notNew (FileSystem.dir_of_unlink heq).2
    · show Function.update fs.dir .stagedTmp none .exeNew = _
      rw [Function.update_of_ne (by decide)]
      exact h.opened

theorem playerEffect_rename : PlayerEffect fs (fs.rename .stagedTmp .staged) where
  exe := FileSystem.read_rename_of_ne (by decide) (by decide)
  exeNew := FileSystem.read_rename_of_ne (by decide) (by decide)
  copying h := by
    have hdir : ∀ q, q ≠ UpdatePath.stagedTmp → q ≠ .staged →
        (fs.rename .stagedTmp .staged).dir q = fs.dir q := by
      intro q hq hq'
      unfold FileSystem.rename
      rw [if_neg (by decide)]
      dsimp only
      rw [if_neg hq, if_neg hq']
    have htmp : (fs.rename .stagedTmp .staged).dir .stagedTmp = none := by
      unfold FileSystem.rename
      rw [if_neg (by decide)]
      dsimp only
      rw [if_pos rfl]
    have hnew := hdir .exeNew (by decide) (by decide)
    refine ⟨?_, by rw [htmp]; exact nofun, hnew ▸ h.notNew, hnew.trans h.opened, ?_, ?_⟩
    · rw [FileSystem.next_rename]
      exact h.lt
    · rw [FileSystem.content_rename]
      exact h.trusted
    · rw [FileSystem.content_rename]
      exact h.copied

/-! ### Staging -/

/-- A plan to stage a binary with a checksum that was sent. -/
def Known (published : List String) (p : UpdatePlan) : Prop :=
  p.strategy = .stage ∧ ∃ expected ∈ published, p.expected = some expected

/-- The player stages only, and renames only what it has verified. -/
def PlayerStages (trusted : List UInt8 → Prop) (published : List String)
    (fs : FileSystem UpdatePath UInt8) : PlayerPhase → Prop
  | .idle => True
  | .checkStaged p | .create p | .verify p | .discard p => Known published p
  | .write p file _ => Known published p ∧ fs.dir .stagedTmp = some file
  | .renameStaged => ∀ bytes, fs.read .stagedTmp = some bytes → trusted bytes
  | _ => False

/-- `apply-update.sh` installs only what it has copied from a staged binary. -/
def UpdaterCopies (trusted : List UInt8 → Prop) (fs : FileSystem UpdatePath UInt8) :
    UpdaterPhase → Prop
  | .copy source dest done => Copying trusted fs source dest done
  | .install => ∀ bytes, fs.read .exeNew = some bytes → trusted bytes
  | _ => True

structure Staging (tools : BinaryTools) (original : List UInt8) (m : UpdateMachine) : Prop where
  exe : ∃ bytes, m.files.read .exe = some bytes ∧ Trusted tools original m.published bytes
  staged : ∀ bytes, m.files.read .staged = some bytes → Trusted tools original m.published bytes
  player : PlayerStages (Trusted tools original m.published) m.published m.files m.player
  updater : UpdaterCopies (Trusted tools original m.published) m.files m.updater

theorem Known.tempPath {p : UpdatePlan} (h : Known published p) : p.tempPath = .stagedTmp := by
  unfold UpdatePlan.tempPath
  rw [h.1]

theorem Known.install {p : UpdatePlan} (h : Known published p) : install p = .renameStaged := by
  unfold UpdateMachine.install
  rw [h.1]

theorem Staging.go (h : Staging tools original m) {phase : PlayerPhase}
    (hphase : PlayerStages (Trusted tools original m.published) m.published m.files phase) :
    Staging tools original { m with player := phase } :=
  ⟨h.exe, h.staged, hphase, h.updater⟩

/-- The player changes its files. -/
theorem Staging.touch (h : Staging tools original m) (effect : PlayerEffect m.files fs')
    (staged : ∀ bytes, fs'.read .staged = some bytes → Trusted tools original m.published bytes)
    {phase : PlayerPhase}
    (hphase : PlayerStages (Trusted tools original m.published) m.published fs' phase) :
    Staging tools original { m with files := fs', player := phase } := by
  refine ⟨?_, staged, hphase, ?_⟩
  · rw [show fs'.read .exe = _ from effect.exe]
    exact h.exe
  · have hold := h.updater
    show UpdaterCopies _ fs' m.updater
    cases hupdater : m.updater with
    | copy source dest done =>
      rw [hupdater] at hold
      exact effect.copying hold
    | install =>
      rw [hupdater] at hold
      show ∀ bytes, fs'.read .exeNew = some bytes → _
      rw [effect.exeNew]
      exact hold
    | _ => trivial

/-- **One operation of the player.** -/
theorem Staging.playerStep (h : Staging tools original m) {phase : PlayerPhase}
    (hphase : PlayerStages (Trusted tools original m.published) m.published m.files phase) :
    Staging tools original (m.playerStep tools ok n phase) := by
  cases phase with
  | idle => exact h
  | checkStaged p =>
    rw [UpdateMachine.playerStep]
    split
    · split
      · exact h.go trivial
      · exact h.go hphase
    · exact h.go hphase
  | create p =>
    rw [UpdateMachine.playerStep]
    split
    · exact h.go trivial
    · split
      · have htmp : (m.files.create p.tempPath).2 = (m.files.create .stagedTmp).2 := by
          rw [Known.tempPath hphase]
        refine h.touch (htmp ▸ playerEffect_create) ?_ ⟨hphase, ?_⟩
        · rw [htmp, FileSystem.read_create_of_ne (by decide)]
          exact h.staged
        · rw [Known.tempPath hphase]
          exact FileSystem.dir_create_self
      · exact h.go trivial
  | write p file rest =>
    cases ok with
    | false => exact h.go trivial
    | true =>
      cases rest with
      | nil => exact h.go hphase.1
      | cons byte rest =>
        refine h.touch (playerEffect_modify hphase.2) ?_ hphase
        rw [FileSystem.read_modify_of_ne hphase.2 (by decide)]
        exact h.staged
  | verify p =>
    obtain ⟨expected, hmem, hexpected⟩ := hphase.2
    rw [UpdateMachine.playerStep, hexpected]
    dsimp only
    split
    · exact h.go trivial
    · next bytes hread =>
      split
      · next hsum =>
        apply h.go
        rw [Known.install hphase]
        -- the temporary file has the checksum that was sent
        intro bytes' hread'
        obtain ⟨-, hread⟩ := Option.ite_none_right_eq_some.mp hread
        rw [Known.tempPath hphase, hread'] at hread
        obtain rfl := Option.some.inj hread
        exact .inr (hsum ▸ hmem)
      · exact h.go hphase
  | discard p =>
    rw [UpdateMachine.playerStep, Known.tempPath hphase]
    cases ok with
    | false => exact h.go trivial
    | true =>
      refine h.touch playerEffect_unlink ?_ trivial
      rw [FileSystem.read_unlink_of_ne (by decide)]
      exact h.staged
  | renameStaged =>
    rw [UpdateMachine.playerStep]
    split
    · refine h.touch playerEffect_rename ?_ trivial
      rw [FileSystem.read_rename_target (by decide)]
      exact hphase
    · exact h.go trivial
  | moveAside => exact absurd hphase id
  | moveIn => exact absurd hphase id
  | restore => exact absurd hphase id
  | cleanup => exact absurd hphase id

/-! ### Promoting what is staged -/

theorem Staging.goUpdater (h : Staging tools original m) {phase : UpdaterPhase}
    (hphase : UpdaterCopies (Trusted tools original m.published) m.files phase) :
    Staging tools original { m with updater := phase } :=
  ⟨h.exe, h.staged, h.player, hphase⟩

/-- `apply-update.sh` changes its files, and leaves the temporary file of the player. -/
theorem Staging.touchUpdater (h : Staging tools original m)
    (tmp : fs'.dir .stagedTmp = m.files.dir .stagedTmp)
    (readTmp : fs'.read .stagedTmp = m.files.read .stagedTmp)
    (exe : ∃ bytes, fs'.read .exe = some bytes ∧ Trusted tools original m.published bytes)
    (staged : ∀ bytes, fs'.read .staged = some bytes → Trusted tools original m.published bytes)
    {phase : UpdaterPhase}
    (hphase : UpdaterCopies (Trusted tools original m.published) fs' phase) :
    Staging tools original { m with files := fs', updater := phase } := by
  refine ⟨exe, staged, ?_, hphase⟩
  have hold := h.player
  show PlayerStages _ _ fs' m.player
  cases hplayer : m.player with
  | write p file rest =>
    rw [hplayer] at hold
    exact ⟨hold.1, tmp.trans hold.2⟩
  | renameStaged =>
    rw [hplayer] at hold
    show ∀ bytes, fs'.read .stagedTmp = some bytes → _
    rw [readTmp]
    exact hold
  | _ =>
    rw [hplayer] at hold
    exact hold

theorem Staging.unlinkStaged (h : Staging tools original m) {phase : UpdaterPhase}
    (hphase : UpdaterCopies (Trusted tools original m.published) (m.files.unlink .staged) phase) :
    Staging tools original { m with files := m.files.unlink .staged, updater := phase } := by
  refine h.touchUpdater ?_ (FileSystem.read_unlink_of_ne (by decide)) ?_ ?_ hphase
  · show Function.update m.files.dir .staged none .stagedTmp = _
    rw [Function.update_of_ne (by decide)]
  · rw [FileSystem.read_unlink_of_ne (by decide)]
    exact h.exe
  · rw [FileSystem.read_unlink_self]
    exact fun bytes hnone => absurd hnone (by simp)

/-- `cp` opens the staged binary, and empties a file of its own. -/
theorem copying_create {trusted : List UInt8 → Prop} {source : Nat}
    (staged : fs.dir .staged = some source) (htrusted : trusted (fs.content source)) :
    Copying trusted (fs.create .exeNew).2 source (fs.create .exeNew).1 0 := by
  have hstaged : (fs.create .exeNew).2.dir .staged = some source := by
    rw [FileSystem.dir_create_of_ne (by decide)]
    exact staged
  have hother : source ≠ (fs.create .exeNew).1 := by
    rintro rfl
    exact absurd (FileSystem.eq_of_dir_create hstaged) (by decide)
  refine ⟨FileSystem.lt_next _ _ _ hstaged, fun htmp => ?_, fun hnew => ?_,
    FileSystem.dir_create_self, ?_, ?_⟩
  · exact absurd (FileSystem.unique _ _ _ _ htmp hstaged) (by decide)
  · exact absurd (FileSystem.unique _ _ _ _ hnew hstaged) (by decide)
  · rw [FileSystem.content_create_of_ne hother]
    exact htrusted
  · rw [FileSystem.content_create_self, List.take_zero]

theorem Copying.modify {trusted : List UInt8 → Prop} {source dest done : Nat}
    (h : Copying trusted fs source dest done) (k : Nat) :
    Copying trusted (fs.modify dest (· ++ ((fs.content source).drop done).take k)) source dest
      (done + k) := by
  have hother : source ≠ dest := fun heq => h.notNew (heq ▸ h.opened)
  refine ⟨h.lt, h.notTmp, h.notNew, h.opened, ?_, ?_⟩
  · rw [FileSystem.content_modify_of_ne hother]
    exact h.trusted
  · rw [FileSystem.content_modify_self, FileSystem.content_modify_of_ne hother, h.copied,
      List.take_add]

/-- **One command of `apply-update.sh`.** -/
theorem Staging.updaterStep (h : Staging tools original m) {phase : UpdaterPhase}
    (hphase : UpdaterCopies (Trusted tools original m.published) m.files phase) :
    Staging tools original (m.updaterStep tools ok n phase) := by
  cases phase with
  | idle => exact h
  | checkElf =>
    rw [UpdateMachine.updaterStep]
    split
    · split <;> exact h.goUpdater trivial
    · exact h.goUpdater trivial
  | checkSize =>
    rw [UpdateMachine.updaterStep]
    split
    · split
      · exact h.goUpdater trivial
      · split <;> exact h.goUpdater trivial
    · exact h.goUpdater trivial
  | reject =>
    cases ok with
    | false => exact h.goUpdater trivial
    | true => exact h.unlinkStaged trivial
  | openFiles =>
    rw [UpdateMachine.updaterStep]
    split
    · next source hsource =>
      obtain ⟨-, hdir⟩ := Option.ite_none_right_eq_some.mp hsource
      have hread : m.files.read .staged = some (m.files.content source) := by
        rw [FileSystem.read, hdir, Option.map_some]
      refine h.touchUpdater (FileSystem.dir_create_of_ne (by decide))
        (FileSystem.read_create_of_ne (by decide)) ?_ ?_ (copying_create hdir (h.staged _ hread))
      · rw [FileSystem.read_create_of_ne (by decide)]
        exact h.exe
      · rw [FileSystem.read_create_of_ne (by decide)]
        exact h.staged
    · exact h.goUpdater trivial
  | copy source dest done =>
    have hcopy : Copying (Trusted tools original m.published) m.files source dest done := hphase
    rw [UpdateMachine.updaterStep]
    split
    · split
      · next hdone =>
        apply h.goUpdater
        -- the copy is complete
        intro bytes hread
        rw [FileSystem.read, hcopy.opened, Option.map_some] at hread
        obtain rfl := Option.some.inj hread
        rw [hcopy.copied, List.take_of_length_le hdone]
        exact hcopy.trusted
      · have hopened := hcopy.opened
        refine h.touchUpdater ?_ ?_ ?_ ?_ (hcopy.modify (n + 1))
        · rfl
        · exact FileSystem.read_modify_of_ne hopened (by decide)
        · rw [FileSystem.read_modify_of_ne hopened (by decide)]
          exact h.exe
        · rw [FileSystem.read_modify_of_ne hopened (by decide)]
          exact h.staged
    · exact h.goUpdater trivial
  | install =>
    rw [UpdateMachine.updaterStep]
    split
    · next hcan =>
      have hnew : (m.files.dir .exeNew).isSome = true := by
        unfold canRename at hcan
        simp only [Bool.and_eq_true] at hcan
        exact hcan.2
      obtain ⟨file, hfile⟩ := Option.isSome_iff_exists.mp hnew
      have hread : m.files.read .exeNew = some (m.files.content file) := by
        rw [FileSystem.read, hfile, Option.map_some]
      refine h.touchUpdater ?_ (FileSystem.read_rename_of_ne (by decide) (by decide))
        ⟨m.files.content file, ?_, hphase _ hread⟩ ?_ trivial
      · unfold FileSystem.rename
        rw [if_neg (by decide)]
        rfl
      · rw [FileSystem.read_rename_target (by decide)]
        exact hread
      · rw [FileSystem.read_rename_of_ne (by decide) (by decide)]
        exact h.staged
    · exact h.goUpdater trivial
  | cleanup =>
    cases ok with
    | false => exact h.goUpdater trivial
    | true => exact h.unlinkStaged trivial
  | restart => exact ⟨h.exe, h.staged, trivial, trivial⟩

/-! ### Runs with a staging directory -/

theorem UpdaterCopies.mono {trusted trusted' : List UInt8 → Prop} {phase : UpdaterPhase}
    (h : UpdaterCopies trusted fs phase) (weaker : ∀ bytes, trusted bytes → trusted' bytes) :
    UpdaterCopies trusted' fs phase := by
  cases phase with
  | copy source dest done =>
    have hcopy : Copying trusted fs source dest done := h
    exact ⟨hcopy.lt, hcopy.notTmp, hcopy.notNew, hcopy.opened, weaker _ hcopy.trusted, hcopy.copied⟩
  | install => exact fun bytes hread => weaker bytes (h bytes hread)
  | _ => trivial

/-- What a check does: nothing, or it takes up a plan. -/
theorem check_cases {b : UpdateBuild} {a : ReleaseAnswers}
    (h : m.step tools (.check b a) = some m') :
    (m.player = .idle ∧ (m.files.dir .exe).isSome = true) ∧
      (m' = m ∨ ∃ p, planUpdate b a = some p ∧
        m' = { m with published := m.published ++ p.expected.toList
                      player := match p.strategy with
                        | .directReplace => .create p
                        | .stage => .checkStaged p }) := by
  obtain ⟨hguard, h⟩ := Option.ite_none_right_eq_some.mp h
  refine ⟨hguard, ?_⟩
  cases hplan : planUpdate b a with
  | none =>
    rw [hplan] at h
    exact .inl (Option.some.inj h).symm
  | some p =>
    rw [hplan] at h
    exact .inr ⟨p, rfl, (Option.some.inj h).symm⟩

theorem Staging.step (h : Staging tools original m) (stages : Stages m e)
    (hstep : m.step tools e = some m') : Staging tools original m' := by
  cases e with
  | check b a =>
    rcases (check_cases hstep).2 with rfl | ⟨p, hplan, rfl⟩
    · exact h
    · have hstrategy := stages.2 b a p rfl hplan
      obtain ⟨expected, hexpected⟩ := Option.ne_none_iff_exists'.mp (stages.1 p hplan)
      have hmono : ∀ bytes, Trusted tools original m.published bytes →
          Trusted tools original (m.published ++ p.expected.toList) bytes :=
        fun bytes hbytes => hbytes.mono _
      refine ⟨?_, fun bytes hread => hmono bytes (h.staged bytes hread), ?_,
        h.updater.mono hmono⟩
      · obtain ⟨bytes, hread, htrusted⟩ := h.exe
        exact ⟨bytes, hread, hmono bytes htrusted⟩
      · dsimp only
        rw [hstrategy]
        refine ⟨hstrategy, expected, ?_, hexpected⟩
        rw [hexpected]
        exact List.mem_append_right _ (List.mem_singleton.mpr rfl)
  | player ok n =>
    obtain ⟨-, hstep⟩ := Option.ite_none_left_eq_some.mp hstep
    obtain rfl := Option.some.inj hstep
    exact h.playerStep h.player
  | kill =>
    obtain rfl := Option.some.inj hstep
    exact h.go trivial
  | startUpdater =>
    obtain ⟨-, hstep⟩ := Option.ite_none_right_eq_some.mp hstep
    obtain rfl := Option.some.inj hstep
    exact h.goUpdater trivial
  | updater ok n =>
    obtain ⟨-, hstep⟩ := Option.ite_none_left_eq_some.mp hstep
    obtain rfl := Option.some.inj hstep
    exact h.updaterStep h.updater
  | killUpdater =>
    obtain rfl := Option.some.inj hstep
    exact h.goUpdater trivial

theorem Fresh.staging (h : Fresh original m) : Staging tools original m := by
  refine ⟨⟨original, h.exe, .inl rfl⟩, fun bytes hread => ?_, ?_, ?_⟩
  · rw [FileSystem.read, h.alone .staged (by decide)] at hread
    cases hread
  · rw [h.player]
    trivial
  · rw [h.updater]
    trivial

/-- **With a staging directory there is a trusted binary at any time**: in every interleaving of
    checks and promotions, whatever the release server answers, whichever operations fail and
    wherever a process is killed, provided that no manifest offers a binary without its checksum.
    What is staged is a trusted binary too, never a part of one. -/
theorem staged_exe_trusted (fresh : Fresh original m)
    (run : Guarded (step tools) Stages m events m') :
    (∃ bytes, m'.files.read .exe = some bytes ∧ Trusted tools original m'.published bytes) ∧
      ∀ bytes, m'.files.read .staged = some bytes →
        Trusted tools original m'.published bytes := by
  have hstaging : Staging tools original m' :=
    run.invariant fresh.staging fun _ _ _ h stages hstep => h.step stages hstep
  exact ⟨hstaging.exe, hstaging.staged⟩

/-- A checksum that is the binary itself, in place of SHA-256. -/
def sampleTools : BinaryTools where
  sha256 bytes := String.ofList (bytes.map fun b => Char.ofNat b.toNat)
  isElf bytes := bytes.take 4 == [0x7f, 0x45, 0x4c, 0x46]

def sampleBuild : UpdateBuild := ⟨true, "3f2a91c", "montr-client-linux-amd64"⟩

/-- A newer build of one byte. -/
def sampleAnswers (stagingWritable : Bool) : ReleaseAnswers where
  manifest := some
    { commit := "9be07d4"
      assets := fun name =>
        if name = "montr-client-linux-amd64" then some "binary"
        else if name = "montr-client-linux-amd64.sha256" then some "checksum"
        else none }
  text _ := some "B  montr-client-linux-amd64"
  binary _ := some [0x42]
  stagingWritable := stagingWritable
  exeDirWritable := true

def sampleMachine : UpdateMachine where
  files :=
    { dir := fun p => if p = .exe then some 0 else none
      content := fun _ => [0x41]
      next := 1
      lt_next := fun p i h => by
        obtain ⟨-, h⟩ := Option.ite_none_right_eq_some.mp h
        have hi : 0 = i := Option.some.inj h
        omega
      unique := fun p q i hp hq => by
        rw [(Option.ite_none_right_eq_some.mp hp).1, (Option.ite_none_right_eq_some.mp hq).1] }
  player := .idle
  updater := .idle
  published := []

theorem fresh_sample : Fresh [0x41] sampleMachine :=
  ⟨rfl, fun _ hp => if_neg hp, rfl, rfl⟩

theorem planUpdate_sample (stagingWritable : Bool) :
    planUpdate sampleBuild (sampleAnswers stagingWritable) =
      some ⟨determineStrategy stagingWritable true, some [0x42], some "B"⟩ := by
  cases stagingWritable <;> decide

theorem checksummed_sample (stagingWritable : Bool) :
    Checksummed (.check sampleBuild (sampleAnswers stagingWritable)) := by
  intro p hp
  rw [planUpdate_sample] at hp
  obtain rfl := Option.some.inj hp
  exact nofun

/-- Not vacuous: a check that finds a newer build stages it, and the service starts. -/
theorem staged_exe_trusted_sample :
    ∃ m', Guarded (step sampleTools) Stages sampleMachine
      [.check sampleBuild (sampleAnswers true), .player true 0, .player true 0, .player true 0,
        .player true 0, .player true 0, .player true 0, .startUpdater] m' ∧
      ∃ bytes, m'.files.read .exe = some bytes ∧
        Trusted sampleTools [0x41] m'.published bytes := by
  obtain ⟨m', hrun⟩ : ∃ m', Guarded (step sampleTools) Stages sampleMachine
      [.check sampleBuild (sampleAnswers true), .player true 0, .player true 0, .player true 0,
        .player true 0, .player true 0, .player true 0, .startUpdater] m' := by
    refine ⟨_, .cons ⟨checksummed_sample true, ?_⟩ rfl (.cons ⟨trivial, nofun⟩ rfl
      (.cons ⟨trivial, nofun⟩ rfl (.cons ⟨trivial, nofun⟩ rfl (.cons ⟨trivial, nofun⟩ rfl
        (.cons ⟨trivial, nofun⟩ rfl (.cons ⟨trivial, nofun⟩ rfl
          (.cons ⟨trivial, nofun⟩ rfl .nil)))))))⟩
    rintro b a p heq hplan
    cases heq
    rw [planUpdate_sample] at hplan
    obtain rfl := Option.some.inj hplan
    rfl
  exact ⟨m', hrun, (staged_exe_trusted fresh_sample hrun).1⟩

/-! ### Replacement in place -/

/-- A trusted binary is in its place. -/
def HasExe (trusted : List UInt8 → Prop) (fs : FileSystem UpdatePath UInt8) : Prop :=
  ∃ bytes, fs.read .exe = some bytes ∧ trusted bytes

/-- There is none, and a trusted binary is beside it. -/
def OnlyOld (trusted : List UInt8 → Prop) (fs : FileSystem UpdatePath UInt8) : Prop :=
  fs.read .exe = none ∧ ∃ bytes, fs.read .exeOld = some bytes ∧ trusted bytes

/-- Where the binary is, and what the player has verified. -/
def PlayerReplaces (trusted : List UInt8 → Prop) (published : List String)
    (fs : FileSystem UpdatePath UInt8) : PlayerPhase → Prop
  | .idle => HasExe trusted fs ∨ OnlyOld trusted fs
  | .checkStaged p | .create p | .verify p | .discard p =>
    HasExe trusted fs ∧ ∃ expected ∈ published, p.expected = some expected
  | .write p file _ =>
    (HasExe trusted fs ∧ ∃ expected ∈ published, p.expected = some expected) ∧
      fs.dir p.tempPath = some file
  | .renameStaged | .cleanup => HasExe trusted fs
  | .moveAside => HasExe trusted fs ∧ ∀ bytes, fs.read .exeNew = some bytes → trusted bytes
  | .moveIn => OnlyOld trusted fs ∧ ∀ bytes, fs.read .exeNew = some bytes → trusted bytes
  | .restore => OnlyOld trusted fs

structure Replacing (tools : BinaryTools) (original : List UInt8) (m : UpdateMachine) : Prop where
  player : PlayerReplaces (Trusted tools original m.published) m.published m.files m.player
  updater : m.updater = .idle

theorem tempPath_ne (p : UpdatePlan) : UpdatePath.exe ≠ p.tempPath := by
  unfold UpdatePlan.tempPath
  split <;> decide

/-- Wherever the player is, its binary or the old one is there. -/
theorem PlayerReplaces.recoverable {trusted : List UInt8 → Prop} {phase : PlayerPhase}
    (h : PlayerReplaces trusted published fs phase) : HasExe trusted fs ∨ OnlyOld trusted fs := by
  cases phase with
  | idle => exact h
  | checkStaged p => exact .inl h.1
  | create p => exact .inl h.1
  | write p file rest => exact .inl h.1.1
  | verify p => exact .inl h.1
  | discard p => exact .inl h.1
  | renameStaged => exact .inl h
  | moveAside => exact .inl h.1
  | moveIn => exact .inr h.1
  | restore => exact .inr h
  | cleanup => exact .inl h

theorem HasExe.of_read {trusted : List UInt8 → Prop} (h : HasExe trusted fs)
    (same : fs'.read .exe = fs.read .exe) : HasExe trusted fs' := by
  unfold HasExe
  rw [same]
  exact h

theorem exists_read_of_canRename {source : UpdatePath} (h : m.canRename ok source = true) :
    ∃ bytes, m.files.read source = some bytes := by
  unfold canRename at h
  simp only [Bool.and_eq_true] at h
  obtain ⟨file, hfile⟩ := Option.isSome_iff_exists.mp h.2
  exact ⟨_, by rw [FileSystem.read, hfile, Option.map_some]⟩

theorem Replacing.go (h : Replacing tools original m) {phase : PlayerPhase}
    (hphase : PlayerReplaces (Trusted tools original m.published) m.published fs' phase) :
    Replacing tools original { m with files := fs', player := phase } :=
  ⟨hphase, h.updater⟩

/-- **One operation of the player**, where nothing promotes staged binaries. -/
theorem Replacing.playerStep (h : Replacing tools original m) {phase : PlayerPhase}
    (hphase : PlayerReplaces (Trusted tools original m.published) m.published m.files phase) :
    Replacing tools original (m.playerStep tools ok n phase) := by
  cases phase with
  | idle => exact h
  | checkStaged p =>
    rw [UpdateMachine.playerStep]
    split
    · split
      · exact h.go (.inl hphase.1)
      · exact h.go hphase
    · exact h.go hphase
  | create p =>
    rw [UpdateMachine.playerStep]
    split
    · exact h.go (.inl hphase.1)
    · split
      · refine h.go ⟨⟨hphase.1.of_read ?_, hphase.2⟩, FileSystem.dir_create_self⟩
        exact FileSystem.read_create_of_ne (tempPath_ne p)
      · exact h.go (.inl hphase.1)
  | write p file rest =>
    cases ok with
    | false => exact h.go (.inl hphase.1.1)
    | true =>
      cases rest with
      | nil => exact h.go hphase.1
      | cons byte rest =>
        refine h.go ⟨⟨hphase.1.1.of_read ?_, hphase.1.2⟩, hphase.2⟩
        exact FileSystem.read_modify_of_ne hphase.2 (tempPath_ne p)
  | verify p =>
    obtain ⟨expected, hmem, hexpected⟩ := hphase.2
    rw [UpdateMachine.playerStep, hexpected]
    dsimp only
    split
    · exact h.go (.inl hphase.1)
    · next bytes hread =>
      obtain ⟨-, hread⟩ := Option.ite_none_right_eq_some.mp hread
      split
      · next hsum =>
        apply h.go
        unfold UpdateMachine.install
        cases hstrategy : p.strategy with
        | stage => exact hphase.1
        | directReplace =>
          refine ⟨hphase.1, fun bytes' hread' => ?_⟩
          -- the new binary is the one whose checksum is right
          have htemp : p.tempPath = .exeNew := by
            unfold UpdatePlan.tempPath
            rw [hstrategy]
          rw [htemp, hread'] at hread
          obtain rfl := Option.some.inj hread
          exact .inr (hsum ▸ hmem)
      · exact h.go hphase
  | discard p =>
    cases ok with
    | false => exact h.go (.inl hphase.1)
    | true =>
      refine h.go (.inl (hphase.1.of_read ?_))
      exact FileSystem.read_unlink_of_ne (tempPath_ne p)
  | renameStaged =>
    rw [UpdateMachine.playerStep]
    split
    · refine h.go (.inl (HasExe.of_read hphase ?_))
      exact FileSystem.read_rename_of_ne (by decide) (by decide)
    · exact h.go (.inl hphase)
  | moveAside =>
    rw [UpdateMachine.playerStep]
    split
    · obtain ⟨⟨bytes, hread, htrusted⟩, hnew⟩ := hphase
      refine h.go ⟨⟨FileSystem.read_rename_source (by decide), bytes, ?_, htrusted⟩, ?_⟩
      · rw [FileSystem.read_rename_target (by decide)]
        exact hread
      · rw [FileSystem.read_rename_of_ne (by decide) (by decide)]
        exact hnew
    · exact h.go (.inl hphase.1)
  | moveIn =>
    rw [UpdateMachine.playerStep]
    split
    · next hcan =>
      obtain ⟨bytes, hread⟩ := exists_read_of_canRename hcan
      refine h.go ⟨bytes, ?_, hphase.2 bytes hread⟩
      rw [FileSystem.read_rename_target (by decide)]
      exact hread
    · exact h.go hphase.1
  | restore =>
    obtain ⟨hnone, bytes, hread, htrusted⟩ := hphase
    rw [UpdateMachine.playerStep]
    split
    · refine h.go (.inl ⟨bytes, ?_, htrusted⟩)
      rw [FileSystem.read_rename_target (by decide)]
      exact hread
    · exact h.go (.inr ⟨hnone, bytes, hread, htrusted⟩)
  | cleanup =>
    cases ok with
    | false => exact h.go (.inl hphase)
    | true =>
      refine h.go (.inl (HasExe.of_read hphase ?_))
      exact FileSystem.read_unlink_of_ne (by decide)

theorem HasExe.mono {trusted trusted' : List UInt8 → Prop} (h : HasExe trusted fs)
    (weaker : ∀ bytes, trusted bytes → trusted' bytes) : HasExe trusted' fs := by
  obtain ⟨bytes, hread, htrusted⟩ := h
  exact ⟨bytes, hread, weaker bytes htrusted⟩

theorem Replacing.step (h : Replacing tools original m) (replaces : Replaces m e)
    (hstep : m.step tools e = some m') : Replacing tools original m' := by
  cases e with
  | check b a =>
    obtain ⟨⟨hidle, hexe⟩, rfl | ⟨p, hplan, rfl⟩⟩ := check_cases hstep
    · exact h
    · obtain ⟨expected, hexpected⟩ := Option.ne_none_iff_exists'.mp (replaces.1 p hplan)
      obtain ⟨file, hfile⟩ := Option.isSome_iff_exists.mp hexe
      -- the player runs, so that its binary is in its place
      have hhas : HasExe (Trusted tools original m.published) m.files := by
        rcases h.player.recoverable with hhas | ⟨hnone, -⟩
        · exact hhas
        · rw [FileSystem.read, hfile] at hnone
          cases hnone
      have hplanned : HasExe (Trusted tools original (m.published ++ p.expected.toList)) m.files ∧
          ∃ sum ∈ m.published ++ p.expected.toList, p.expected = some sum := by
        refine ⟨hhas.mono fun bytes hbytes => hbytes.mono _, expected, ?_, hexpected⟩
        rw [hexpected]
        exact List.mem_append_right _ (List.mem_singleton.mpr rfl)
      refine ⟨?_, h.updater⟩
      dsimp only
      split <;> exact hplanned
  | player ok n =>
    obtain ⟨-, hstep⟩ := Option.ite_none_left_eq_some.mp hstep
    obtain rfl := Option.some.inj hstep
    exact h.playerStep h.player
  | kill =>
    obtain rfl := Option.some.inj hstep
    exact h.go h.player.recoverable
  | startUpdater => exact absurd rfl replaces.2
  | updater ok n =>
    obtain ⟨hbusy, -⟩ := Option.ite_none_left_eq_some.mp hstep
    exact absurd h.updater hbusy
  | killUpdater =>
    obtain rfl := Option.some.inj hstep
    exact ⟨h.player, rfl⟩

end UpdateMachine

end Montr.Client
