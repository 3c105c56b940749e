import Montr.Client.AppState
import Montr.Lib.FileSystem
import Montr.Lib.Transition

namespace Montr.Client

open Files

/-!
# Self-update

`update.rs` of the player and `apply-update.sh`, the root service that promotes what the player
staged, as two processes on one file system.

* `planUpdate` — `check_and_update` up to its first file operation: what the answers of the release
  server lead to;
* `UpdateMachine` — the files, how far each process is, and the checksums fetched so far;
* `UpdateMachine.step` — one file operation of either process, which may fail; a write comes in
  parts; each process may be killed between any two.

The files are those of `/usr/bin/montr-client` and of the staging directory; `with_extension` makes
the other names from them.
-/

inductive UpdatePath
  /-- `montr-client`, the target of `apply-update.sh` -/
  | exe
  /-- `montr-client.new` -/
  | exeNew
  /-- `montr-client.old` -/
  | exeOld
  /-- `montr-client.staged` -/
  | staged
  /-- `montr-client.tmp` -/
  | stagedTmp
  deriving DecidableEq, Repr

/-! ### The release server -/

/-- `UpdateManifest`, as far as it is used. -/
structure UpdateManifest where
  commit : String
  assets : String → Option String

/-- What the release server answers in one check, and which directories are writable. -/
structure ReleaseAnswers where
  /-- the manifest, where the request succeeds -/
  manifest : Option UpdateManifest
  /-- the body of a checksum, whatever the status -/
  text : String → Option String
  /-- the body of a binary, where the status is a success -/
  binary : String → Option (List UInt8)
  stagingWritable : Bool
  exeDirWritable : Bool

/-- The build of the player that makes the check. -/
structure UpdateBuild where
  autoUpdate : Bool
  /-- `BUILD_SHA` -/
  buildSha : String
  /-- `binary_asset_name` -/
  assetName : String

/-- What looks at binaries. -/
structure BinaryTools where
  sha256 : List UInt8 → String
  /-- `file` says ELF -/
  isElf : List UInt8 → Bool

inductive UpdateStrategy
  | directReplace
  | stage
  deriving DecidableEq, Repr

/-- What is left to do after the requests for the manifest and the checksum. -/
structure UpdatePlan where
  strategy : UpdateStrategy
  body : Option (List UInt8)
  expected : Option String
  deriving DecidableEq, Repr

/-- `determine_strategy_with`. -/
def determineStrategy (stagingWritable exeDirWritable : Bool) : UpdateStrategy :=
  if stagingWritable then .stage
  else if exeDirWritable then .directReplace
  else .stage

/-- `split_whitespace().next().unwrap_or("")`. -/
def firstWord (text : String) : String :=
  String.ofList ((text.toList.dropWhile isWhitespace).takeWhile fun c => !isWhitespace c)

/-- `check_and_update` up to its first file operation; `none` where it returns. -/
def planUpdate (b : UpdateBuild) (a : ReleaseAnswers) : Option UpdatePlan :=
  if b.autoUpdate = false ∨ b.buildSha = "unknown" then none
  else do
    let manifest ← a.manifest
    if manifest.commit = "" ∨ manifest.commit = b.buildSha then none
    else
      let url ← manifest.assets b.assetName
      let strategy := determineStrategy a.stagingWritable a.exeDirWritable
      match manifest.assets (b.assetName ++ ".sha256") with
      | some checksumUrl =>
        let text ← a.text checksumUrl
        some ⟨strategy, a.binary url, some (firstWord text)⟩
      | none => some ⟨strategy, a.binary url, none⟩

/-- Where the plan downloads to. -/
def UpdatePlan.tempPath (p : UpdatePlan) : UpdatePath :=
  match p.strategy with
  | .directReplace => .exeNew
  | .stage => .stagedTmp

/-! ### The two processes -/

/-- The next file operation of `check_and_update`. -/
inductive PlayerPhase
  | idle
  | checkStaged (p : UpdatePlan)
  | create (p : UpdatePlan)
  | write (p : UpdatePlan) (file : Nat) (rest : List UInt8)
  | verify (p : UpdatePlan)
  | discard (p : UpdatePlan)
  | renameStaged
  | moveAside
  | moveIn
  | restore
  | cleanup
  deriving DecidableEq, Repr

/-- The next command of `apply-update.sh`. -/
inductive UpdaterPhase
  | idle
  | checkElf
  | checkSize
  | reject
  | openFiles
  | copy (source dest done : Nat)
  | install
  | cleanup
  | restart
  deriving DecidableEq, Repr

structure UpdateMachine where
  files : FileSystem UpdatePath UInt8
  player : PlayerPhase
  updater : UpdaterPhase
  /-- the checksums that the release server has sent -/
  published : List String

/-- `ok` says whether the operation succeeds, `n` how many bytes of a write or a copy it gets to. -/
inductive UpdateEvent
  | check (b : UpdateBuild) (a : ReleaseAnswers)
  | player (ok : Bool) (n : Nat)
  | kill
  | startUpdater
  | updater (ok : Bool) (n : Nat)
  | killUpdater

/-- The smallest binary that `apply-update.sh` takes. -/
def minBinarySize : Nat := 102400

namespace UpdateMachine

/-- A renaming, which fails where there is nothing to rename. -/
def canRename (m : UpdateMachine) (ok : Bool) (source : UpdatePath) : Bool :=
  ok && (m.files.dir source).isSome

/-- After the download is verified. -/
def install (p : UpdatePlan) : PlayerPhase :=
  match p.strategy with
  | .directReplace => .moveAside
  | .stage => .renameStaged

/-- One file operation of the player. -/
def playerStep (tools : BinaryTools) (m : UpdateMachine) (ok : Bool) (n : Nat) :
    PlayerPhase → UpdateMachine
  | .idle => m
  | .checkStaged p =>
    match if ok then m.files.read .staged else none with
    | some bytes =>
      if p.expected = some (tools.sha256 bytes) then { m with player := .idle }
      else { m with player := .create p }
    | none => { m with player := .create p }
  | .create p =>
    match p.body with
    | none => { m with player := .idle }
    | some bytes =>
      if ok then
        let r := m.files.create p.tempPath
        { m with files := r.2, player := .write p r.1 bytes }
      else { m with player := .idle }
  | .write p file rest =>
    if ok then
      match rest with
      | [] => { m with player := .verify p }
      | _ :: _ =>
        { m with files := m.files.modify file (· ++ rest.take (n + 1))
                 player := .write p file (rest.drop (n + 1)) }
    else { m with player := .idle }
  | .verify p =>
    match p.expected with
    | none => { m with player := install p }
    | some expected =>
      match if ok then m.files.read p.tempPath else none with
      | none => { m with player := .idle }
      | some bytes =>
        if tools.sha256 bytes = expected then { m with player := install p }
        else { m with player := .discard p }
  | .discard p =>
    { m with files := if ok then m.files.unlink p.tempPath else m.files, player := .idle }
  | .renameStaged =>
    if m.canRename ok .stagedTmp then
      { m with files := m.files.rename .stagedTmp .staged, player := .idle }
    else { m with player := .idle }
  | .moveAside =>
    if m.canRename ok .exe then
      { m with files := m.files.rename .exe .exeOld, player := .moveIn }
    else { m with player := .idle }
  | .moveIn =>
    if m.canRename ok .exeNew then
      { m with files := m.files.rename .exeNew .exe, player := .cleanup }
    else { m with player := .restore }
  | .restore =>
    if m.canRename ok .exeOld then
      { m with files := m.files.rename .exeOld .exe, player := .idle }
    else { m with player := .idle }
  | .cleanup =>
    { m with files := if ok then m.files.unlink .exeOld else m.files, player := .idle }

/-- One command of `apply-update.sh`; any that fails ends the script. -/
def updaterStep (tools : BinaryTools) (m : UpdateMachine) (ok : Bool) (n : Nat) :
    UpdaterPhase → UpdateMachine
  | .idle => m
  | .checkElf =>
    match m.files.read .staged with
    | some bytes =>
      if ok ∧ tools.isElf bytes then { m with updater := .checkSize }
      else { m with updater := .reject }
    | none => { m with updater := .reject }
  | .checkSize =>
    match m.files.read .staged with
    | some bytes =>
      if !ok then { m with updater := .idle }
      else if bytes.length < minBinarySize then { m with updater := .reject }
      else { m with updater := .openFiles }
    | none => { m with updater := .idle }
  | .reject =>
    { m with files := if ok then m.files.unlink .staged else m.files, updater := .idle }
  | .openFiles =>
    match if ok then m.files.dir .staged else none with
    | some source =>
      let r := m.files.create .exeNew
      { m with files := r.2, updater := .copy source r.1 0 }
    | none => { m with updater := .idle }
  | .copy source dest done =>
    if ok then
      if (m.files.content source).length ≤ done then { m with updater := .install }
      else
        { m with
          files := m.files.modify dest
            (· ++ ((m.files.content source).drop done).take (n + 1))
          updater := .copy source dest (done + (n + 1)) }
    else { m with updater := .idle }
  | .install =>
    if m.canRename ok .exeNew then
      { m with files := m.files.rename .exeNew .exe, updater := .cleanup }
    else { m with updater := .idle }
  | .cleanup =>
    if ok then { m with files := m.files.unlink .staged, updater := .restart }
    else { m with updater := .idle }
  | .restart => { m with player := .idle, updater := .idle }

/-- The player runs from its path, one check at a time. -/
def step (tools : BinaryTools) (m : UpdateMachine) : UpdateEvent → Option UpdateMachine
  | .check b a =>
    if m.player = .idle ∧ (m.files.dir .exe).isSome then
      match planUpdate b a with
      | none => some m
      | some p =>
        some { m with published := m.published ++ p.expected.toList
                      player := match p.strategy with
                        | .directReplace => .create p
                        | .stage => .checkStaged p }
    else none
  | .player ok n => if m.player = .idle then none else some (m.playerStep tools ok n m.player)
  | .kill => some { m with player := .idle }
  | .startUpdater =>
    if m.updater = .idle ∧ (m.files.dir .staged).isSome then some { m with updater := .checkElf }
    else none
  | .updater ok n => if m.updater = .idle then none else some (m.updaterStep tools ok n m.updater)
  | .killUpdater => some { m with updater := .idle }

end UpdateMachine

end Montr.Client
