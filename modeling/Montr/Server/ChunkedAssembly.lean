import Montr.Server.ChunkFiles

namespace Montr.Server

open Function Files Transition

/-!
# A finalised upload is complete

`Finalized.Complete`: the output file is the last whole body received for each chunk, in the order
of the indices, and has the declared size.  The number of received chunks does not say so: sizes
are compared with nothing, and requests for chunks go on beside each other and beside
`completeUpload`.

* `Careful` — the steps after which finalised uploads are complete;
* `complete_of_careful` — the runs with such steps only.
-/

/-- `completeUpload` is at work on its result. -/
def RequestPhase.assembles : RequestPhase → Bool
  | .openOutput _ | .nextChunk _ | .copyChunk _ _ _ | .statOutput _ | .removeChunks _
  | .completeMultipart => true
  | _ => false

/-- The output file of a finalised upload. -/
structure Finalized.Complete (s : ChunkedUpload) (f : Finalized) : Prop where
  parts : f.assembly.parts.map some =
    (List.range s.session.totalChunks.toNat).map fun k => s.received (chunkFile k)
  content : f.assembly.content = f.assembly.parts.flatten
  size : (f.assembly.content.length : Rat) = s.session.totalSize

namespace ChunkedUpload

variable {s t : ChunkedUpload} {i : Nat}

def Assembling (s : ChunkedUpload) : Prop :=
  ∃ i phase, s.requests i = some phase ∧ phase.assembles = true

/-- The length of the chunks together, by what is in each. -/
def totalLength (s : ChunkedUpload) (chunk : ChunkIndex → Option (List UInt8)) : Nat :=
  ((List.range s.session.totalChunks.toNat).map fun k =>
    ((chunk (chunkFile k)).getD []).length).sum

/-- No request is at a chunk file.  If there is a file for each chunk, none is disturbed, and they
    have the declared size together. -/
def Settled (s : ChunkedUpload) : Prop :=
  (∀ i phase k, s.requests i = some phase → phase.touches k = false) ∧
    ((∀ k : Nat, (k : Int) < s.session.totalChunks → s.chunks.dir (chunkFile k) ≠ none) →
      (∀ k : Nat, (k : Int) < s.session.totalChunks → ¬ s.disturbed (chunkFile k)) ∧
        (s.totalLength s.chunks.read : Rat) = s.session.totalSize)

/-- No chunk is let in while an upload is assembled, and an upload is settled when
    `completeUpload` lets it in. -/
def Careful (s : ChunkedUpload) : UploadEvent → Prop
  | .chunk _ chunkIndex => s.admits (parseInt chunkIndex) = true → ¬ s.Assembling
  | .complete _ => s.isComplete = true → s.Settled
  | _ => True

/-! ### The invariant -/

/-- A chunk from `k` on has no file. -/
def Blocked (s : ChunkedUpload) (k : Nat) : Prop :=
  ∃ m : Nat, k ≤ m ∧ (m : Int) < s.session.totalChunks ∧ s.chunks.dir (chunkFile m) = none

/-- The parts are the first chunks, and what was received is all there is. -/
structure Faithful (s : ChunkedUpload) (parts : List (List UInt8)) : Prop where
  parts : parts.map some = (List.range parts.length).map fun k => s.received (chunkFile k)
  undisturbed : ∀ k : Nat, (k : Int) < s.session.totalChunks → ¬ s.disturbed (chunkFile k)
  size : (s.totalLength s.received : Rat) = s.session.totalSize

/-- All chunks are in the output file. -/
def Whole (s : ChunkedUpload) (a : Assembly) : Prop :=
  (a.parts.length : Int) = s.session.totalChunks ∧ a.content = a.parts.flatten ∧
    s.Faithful a.parts

/-- What holds of an assembly; one that lacks a file fails. -/
def AtPhase (s : ChunkedUpload) : RequestPhase → Prop
  | .openOutput a | .nextChunk a =>
    (a.parts.length : Int) ≤ s.session.totalChunks ∧ a.content = a.parts.flatten ∧
      (s.Blocked a.parts.length ∨ s.Faithful a.parts)
  | .copyChunk a file bytes =>
    (a.parts.length : Int) < s.session.totalChunks ∧ a.content = a.parts.flatten ++ bytes ∧
      bytes <+: s.chunks.content file ∧
      (s.Blocked (a.parts.length + 1) ∨ s.Faithful a.parts ∧
        s.received (chunkFile a.parts.length) = some (s.chunks.content file))
  | .statOutput a => s.Whole a
  | .removeChunks f => s.Whole f.assembly
  | .completeMultipart => False
  | _ => True

structure Assemblies (s : ChunkedUpload) : Prop where
  backend : s.session.backend = .localDisk
  quiet : s.Assembling ∨ s.finalized ≠ [] →
    ∀ i phase k, s.requests i = some phase → phase.touches k = false
  closed : s.finalized ≠ [] → s.registered = false
  phases : ∀ i phase, s.requests i = some phase → s.AtPhase phase
  complete : ∀ f ∈ s.finalized, f.Complete s

/-- The invariant of careful runs. -/
structure Consistent (s : ChunkedUpload) : Prop where
  files : s.ChunkFiles
  assemblies : s.Assemblies

theorem atPhase_of_not_assembles {phase : RequestPhase} (h : phase.assembles = false) :
    s.AtPhase phase := by
  cases phase <;> trivial

/-- Without an assembly and a result there is nothing to show. -/
theorem assemblies_of_idle (backend : s.session.backend = .localDisk)
    (idle : ∀ i phase, s.requests i = some phase → phase.assembles = false)
    (none : s.finalized = []) : s.Assemblies where
  backend := backend
  quiet h := by
    obtain ⟨i, phase, hphase, hassembles⟩ | hsome := h
    · exact absurd (idle i phase hphase) (by simp [hassembles])
    · exact absurd none hsome
  closed h := absurd none h
  phases i phase hphase := atPhase_of_not_assembles (idle i phase hphase)
  complete f hf := absurd hf (by simp [none])

/-- A request at a chunk file goes on to something that is no assembly. -/
theorem Assemblies.atFile (h : s.Assemblies) {old : RequestPhase} {new : Option RequestPhase}
    {k : ChunkIndex} (hold : s.requests i = some old) (touches : old.touches k = true)
    (idle : ∀ phase, new = some phase → phase.assembles = false) (session : t.session = s.session)
    (finalized : t.finalized = s.finalized) (requests : t.requests = update s.requests i new) :
    t.Assemblies := by
  have hquiet : ¬ (s.Assembling ∨ s.finalized ≠ []) := fun hbusy =>
    absurd (h.quiet hbusy i old k hold) (by simp [touches])
  obtain ⟨hidle, hnone⟩ := not_or.mp hquiet
  refine assemblies_of_idle (session ▸ h.backend) (fun j phase hj => ?_)
    (finalized.trans (not_not.mp hnone))
  rw [requests] at hj
  obtain ⟨-, hnew⟩ | ⟨-, hold⟩ := of_update hj
  · exact idle phase hnew
  · exact Bool.eq_false_iff.mpr fun hassembles => hidle ⟨j, phase, hold, hassembles⟩

/-! ### Steps away from the chunk files -/

/-- What an assembly depends on stays, except for files that go. -/
structure Keeps (s t : ChunkedUpload) : Prop where
  session : t.session = s.session
  received : t.received = s.received
  disturbed : t.disturbed = s.disturbed
  content : t.chunks.content = s.chunks.content
  dir : ∀ k, s.chunks.dir k = none → t.chunks.dir k = none

theorem Keeps.blocked (keeps : s.Keeps t) {k : Nat} (h : s.Blocked k) : t.Blocked k := by
  obtain ⟨m, hkm, hm, hnone⟩ := h
  exact ⟨m, hkm, by rw [keeps.session]; exact hm, keeps.dir _ hnone⟩

theorem Keeps.faithful (keeps : s.Keeps t) {parts : List (List UInt8)} (h : s.Faithful parts) :
    t.Faithful parts := by
  refine ⟨?_, ?_, ?_⟩
  · rw [keeps.received]
    exact h.parts
  · rw [keeps.session, keeps.disturbed]
    exact h.undisturbed
  · rw [totalLength, keeps.session, keeps.received]
    exact h.size

theorem Keeps.whole (keeps : s.Keeps t) {a : Assembly} (h : s.Whole a) : t.Whole a :=
  ⟨by rw [keeps.session]; exact h.1, h.2.1, keeps.faithful h.2.2⟩

theorem Keeps.atPhase (keeps : s.Keeps t) {phase : RequestPhase} (h : s.AtPhase phase) :
    t.AtPhase phase := by
  cases phase with
  | openOutput a =>
    exact ⟨by rw [keeps.session]; exact h.1, h.2.1, h.2.2.imp keeps.blocked keeps.faithful⟩
  | nextChunk a =>
    exact ⟨by rw [keeps.session]; exact h.1, h.2.1, h.2.2.imp keeps.blocked keeps.faithful⟩
  | copyChunk a file bytes =>
    obtain ⟨hlt, hcontent, hbytes, hrest⟩ := h
    refine ⟨by rw [keeps.session]; exact hlt, hcontent, by rw [keeps.content]; exact hbytes, ?_⟩
    refine hrest.imp keeps.blocked fun hfaithful => ⟨keeps.faithful hfaithful.1, ?_⟩
    rw [keeps.received, keeps.content]
    exact hfaithful.2
  | statOutput a => exact keeps.whole h
  | removeChunks f => exact keeps.whole h
  | completeMultipart => exact h
  | _ => trivial

theorem Keeps.complete (keeps : s.Keeps t) {f : Finalized} (h : f.Complete s) : f.Complete t := by
  refine ⟨?_, h.content, ?_⟩
  · rw [keeps.session, keeps.received]
    exact h.parts
  · rw [keeps.session]
    exact h.size

theorem keeps_removeDir (ok : Bool) : s.Keeps (s.removeDir ok) := by
  cases ok with
  | false => exact ⟨rfl, rfl, rfl, rfl, fun _ => id⟩
  | true => exact ⟨rfl, rfl, rfl, rfl, fun _ _ => rfl⟩

/-- Requests stay, or go on away from the chunk files. -/
theorem Assemblies.frame (h : s.Assemblies) (keeps : s.Keeps t)
    (registered : t.registered = true → s.registered = true)
    (finalized : t.finalized = s.finalized)
    (requests : ∀ i phase, t.requests i = some phase → s.requests i = some phase ∨
      (∀ k, phase.touches k = false) ∧ (phase.assembles = true → s.Assembling) ∧
        t.AtPhase phase) :
    t.Assemblies where
  backend := keeps.session ▸ h.backend
  quiet hbusy j phase k hj := by
    have hbefore : s.Assembling ∨ s.finalized ≠ [] := by
      rw [← finalized]
      refine hbusy.imp_left ?_
      rintro ⟨i, phase, hphase, hassembles⟩
      obtain hold | ⟨-, hassembling, -⟩ := requests i phase hphase
      · exact ⟨i, phase, hold, hassembles⟩
      · exact hassembling hassembles
    obtain hold | ⟨hfree, -⟩ := requests j phase hj
    · exact h.quiet hbefore j phase k hold
    · exact hfree k
  closed hsome := by
    rw [finalized] at hsome
    exact Bool.eq_false_iff.mpr fun ht => absurd (h.closed hsome) (by simp [registered ht])
  phases i phase hphase := by
    obtain hold | ⟨-, -, hnew⟩ := requests i phase hphase
    · exact keeps.atPhase (h.phases i phase hold)
    · exact hnew
  complete f hf := by
    rw [finalized] at hf
    exact keeps.complete (h.complete f hf)

/-- The next call of an assembly, or of a request that is at no file. -/
theorem Assemblies.goto (h : s.Assemblies) {old : RequestPhase} {new : Option RequestPhase}
    (hold : s.requests i = some old) (keeps : s.Keeps t)
    (registered : t.registered = true → s.registered = true)
    (finalized : t.finalized = s.finalized)
    (requests : t.requests = Function.update s.requests i new)
    (free : ∀ k phase, new = some phase → phase.touches k = false)
    (assembles : ∀ phase, new = some phase → phase.assembles = true → old.assembles = true)
    (phases : ∀ phase, new = some phase → s.AtPhase phase) : t.Assemblies := by
  refine h.frame keeps registered finalized fun j phase hj => ?_
  rw [requests] at hj
  obtain ⟨-, hnew⟩ | ⟨-, hold'⟩ := of_update hj
  · exact .inr ⟨fun k => free k phase hnew, fun hassembles => ⟨i, old, hold,
      assembles phase hnew hassembles⟩, keeps.atPhase (phases phase hnew)⟩
  · exact .inl hold'

/-! ### The steps of an assembly -/

/-- The next chunk file was opened. -/
theorem atPhase_nextFile (h : s.Assemblies) (files : s.ChunkFiles) {a : Assembly} {file : Nat}
    (hphase : s.requests i = some (.nextChunk a))
    (hlt : (a.parts.length : Int) < s.session.totalChunks)
    (hfile : s.chunks.dir (chunkFile a.parts.length) = some file) :
    s.AtPhase (.copyChunk a file []) := by
  obtain ⟨-, hcontent, hrest⟩ := h.phases i _ hphase
  refine ⟨hlt, by rw [List.append_nil]; exact hcontent, List.nil_prefix, ?_⟩
  refine hrest.imp (fun hblocked => ?_) fun hfaithful => ⟨hfaithful, ?_⟩
  · obtain ⟨m, hkm, hm, hnone⟩ := hblocked
    have hne : a.parts.length ≠ m := by
      rintro rfl
      exact absurd (hfile.symm.trans hnone) (by simp)
    exact ⟨m, by omega, hm, hnone⟩
  · -- nothing is at the file, so it has what was received
    have hquiet := h.quiet (.inl ⟨i, _, hphase, rfl⟩)
    exact files.rest _ (hfaithful.undisturbed _ hlt)
      (unwritten_of_untouched fun j phase => hquiet j phase _) file hfile

/-- There is no further chunk file. -/
theorem atPhase_lastFile {a : Assembly} (h : s.AtPhase (.nextChunk a))
    (hge : ¬ (a.parts.length : Int) < s.session.totalChunks) : s.AtPhase (.statOutput a) := by
  obtain ⟨hle, hcontent, hrest⟩ := h
  refine ⟨Int.le_antisymm hle (Int.not_lt.mp hge), hcontent, ?_⟩
  obtain ⟨m, hkm, hm, -⟩ | hfaithful := hrest
  · omega
  · exact hfaithful

/-- A chunk file was copied to its end. -/
theorem atPhase_copied {a : Assembly} {file : Nat} {bytes : List UInt8}
    (h : s.AtPhase (.copyChunk a file bytes))
    (whole : (s.chunks.content file).length ≤ bytes.length) :
    s.AtPhase (.nextChunk { a with parts := a.parts ++ [bytes] }) := by
  obtain ⟨hlt, hcontent, hprefix, hrest⟩ := h
  obtain rfl : bytes = s.chunks.content file := hprefix.eq_of_length_le whole
  have hlength : (a.parts ++ [s.chunks.content file]).length = a.parts.length + 1 := by simp
  refine ⟨?_, ?_, ?_⟩
  · show ((a.parts ++ [s.chunks.content file]).length : Int) ≤ _
    rw [hlength]
    omega
  · show a.content = (a.parts ++ [s.chunks.content file]).flatten
    rw [hcontent, List.flatten_append, List.flatten_singleton]
  · show s.Blocked (a.parts ++ [s.chunks.content file]).length ∨ _
    rw [hlength]
    refine hrest.imp_right fun hfaithful => ⟨?_, hfaithful.1.undisturbed, hfaithful.1.size⟩
    show (a.parts ++ [s.chunks.content file]).map some =
      (List.range (a.parts ++ [s.chunks.content file]).length).map _
    rw [hlength, List.range_succ, List.map_append, List.map_append, hfaithful.1.parts]
    show _ ++ [some (s.chunks.content file)] = _ ++ [s.received (chunkFile a.parts.length)]
    rw [hfaithful.2]

/-- A piece of a chunk file was copied. -/
theorem atPhase_copy {a : Assembly} {file : Nat} {bytes : List UInt8} (count : Nat)
    (h : s.AtPhase (.copyChunk a file bytes)) :
    s.AtPhase (.copyChunk
      { a with content := a.content ++ ((s.chunks.content file).drop bytes.length).take count } file
      (bytes ++ ((s.chunks.content file).drop bytes.length).take count)) := by
  obtain ⟨hlt, hcontent, ⟨rest, hrest⟩, hfits⟩ := h
  have hdrop : (s.chunks.content file).drop bytes.length = rest := by
    rw [← hrest, List.drop_left]
  rw [hdrop]
  refine ⟨hlt, ?_, ⟨rest.drop count, ?_⟩, hfits⟩
  · show a.content ++ rest.take count = a.parts.flatten ++ (bytes ++ rest.take count)
    rw [hcontent, List.append_assoc]
  · rw [List.append_assoc, List.take_append_drop, hrest]

/-- A whole assembly is a complete upload. -/
theorem Whole.complete {f : Finalized} (h : s.Whole f.assembly) : f.Complete s := by
  obtain ⟨hlength, hcontent, hfaithful⟩ := h
  have hchunks : s.session.totalChunks.toNat = f.assembly.parts.length := by omega
  refine ⟨by rw [hchunks]; exact hfaithful.parts, hcontent, ?_⟩
  rw [← hfaithful.size, totalLength, hchunks, hcontent, List.length_flatten]
  congr 2
  calc f.assembly.parts.map List.length
      = (f.assembly.parts.map some).map fun o => (o.getD []).length := by
        rw [List.map_map]
        rfl
    _ = _ := by
        rw [hfaithful.parts, List.map_map]
        rfl

/-- A settled upload may be assembled: the chunks have what was received, or one has no file. -/
theorem Settled.atPhase (settled : s.Settled) (count : 0 ≤ s.session.totalChunks)
    (files : s.ChunkFiles) (key : Nat) : s.AtPhase (.openOutput ⟨key, [], []⟩) := by
  obtain ⟨hfree, hfits⟩ := settled
  refine ⟨count, rfl, ?_⟩
  by_cases hblocked : s.Blocked 0
  · exact .inl hblocked
  · have hfiles : ∀ k : Nat, (k : Int) < s.session.totalChunks →
        s.chunks.dir (chunkFile k) ≠ none :=
      fun k hk hnone => hblocked ⟨k, Nat.zero_le _, hk, hnone⟩
    obtain ⟨hundisturbed, hsize⟩ := hfits hfiles
    refine .inr ⟨rfl, hundisturbed, ?_⟩
    rw [← hsize, totalLength, totalLength]
    congr 2
    refine List.map_congr_left fun k hk => ?_
    replace hk : (k : Int) < s.session.totalChunks := by
      have := List.mem_range.mp hk
      omega
    cases hfile : s.chunks.dir (chunkFile k) with
    | none => exact absurd hfile (hfiles k hk)
    | some file =>
      have hunwritten : s.Unwritten (chunkFile k) :=
        unwritten_of_untouched fun j phase => hfree j phase _
      rw [files.rest _ (hundisturbed k hk) hunwritten file hfile, FileSystem.read, hfile]
      rfl

/-- `completeUpload` lets a settled upload in. -/
theorem assemblies_startComplete (h : s.Assemblies) (files : s.ChunkFiles)
    (settled : s.isComplete = true → s.Settled) :
    (s.startComplete i).Assemblies := by
  unfold startComplete
  split
  · next hcomplete =>
    have hfree := (settled hcomplete).1
    obtain ⟨-, hcount⟩ := Bool.and_eq_true_iff.mp hcomplete
    replace hcount := of_decide_eq_true hcount
    split
    · next hspaces => exact absurd (hspaces.symm.trans h.backend) (by simp)
    · have keeps : s.Keeps ({ s with nextKey := s.nextKey + 1 }.setPhase i
          (.openOutput ⟨s.nextKey, [], []⟩)) := ⟨rfl, rfl, rfl, rfl, fun _ => id⟩
      have hnew := (settled hcomplete).atPhase (by omega) files s.nextKey
      refine ⟨h.backend, fun _ j phase k hj => ?_, h.closed, fun j phase hj => ?_,
        fun f hf => keeps.complete (h.complete f hf)⟩
      · obtain ⟨-, hself⟩ | ⟨-, hold⟩ := of_update hj
        · obtain rfl := Option.some.inj hself
          rfl
        · exact hfree j phase k hold
      · obtain ⟨-, hself⟩ | ⟨-, hold⟩ := of_update hj
        · obtain rfl := Option.some.inj hself
          exact keeps.atPhase hnew
        · exact keeps.atPhase (h.phases j phase hold)
  · exact h

/-- The deletion of the session and the result. -/
theorem assemblies_finish (h : s.Assemblies) {f : Finalized}
    (hphase : s.requests i = some (.removeChunks f)) (ok : Bool) :
    ((s.removeDir ok).finish i f).Assemblies := by
  have hkeeps : s.Keeps (s.removeDir ok) := keeps_removeDir ok
  have keeps : s.Keeps ((s.removeDir ok).finish i f) :=
    ⟨hkeeps.session, hkeeps.received, hkeeps.disturbed, hkeeps.content, hkeeps.dir⟩
  have hrequests : ((s.removeDir ok).finish i f).requests =
      Function.update s.requests i (some (.insertJob f)) := by cases ok <;> rfl
  have hfinalized : ((s.removeDir ok).finish i f).finalized = s.finalized ++ [f] := by
    cases ok <;> rfl
  have hquiet := h.quiet (.inl ⟨i, _, hphase, rfl⟩)
  refine ⟨keeps.session ▸ h.backend, fun _ j phase k hj => ?_, fun _ => rfl,
    fun j phase hj => ?_, fun g hg => ?_⟩
  · rw [hrequests] at hj
    obtain ⟨-, hself⟩ | ⟨-, hold⟩ := of_update hj
    · obtain rfl := Option.some.inj hself
      rfl
    · exact hquiet j phase k hold
  · rw [hrequests] at hj
    obtain ⟨-, hself⟩ | ⟨-, hold⟩ := of_update hj
    · obtain rfl := Option.some.inj hself
      trivial
    · exact keeps.atPhase (h.phases j phase hold)
  · rw [hfinalized] at hg
    obtain hg | hg := List.mem_append.mp hg
    · exact keeps.complete (h.complete g hg)
    · obtain rfl := List.mem_singleton.mp hg
      exact keeps.complete (Whole.complete (h.phases i _ hphase))

/-! ### One step, and a run -/

theorem Goes.untouched {phase next : RequestPhase} {new : Option RequestPhase}
    (h : s.Goes phase new) (hnext : new = some next) (k : ChunkIndex) :
    next.touches k = false := by
  subst hnext
  cases h <;> rfl

theorem Goes.assembles {phase next : RequestPhase} {new : Option RequestPhase}
    (h : s.Goes phase new) (hnext : new = some next) (assembles : next.assembles = true) :
    phase.assembles = true := by
  subst hnext
  cases h <;> first | rfl | exact absurd assembles (by simp [RequestPhase.assembles])

/-- The next call of an assembly finds what it needs. -/
theorem Goes.atPhase {phase next : RequestPhase} {new : Option RequestPhase}
    (goes : s.Goes phase new) (h : s.Assemblies) (files : s.ChunkFiles)
    (hphase : s.requests i = some phase) (hnext : new = some next) : s.AtPhase next := by
  subst hnext
  have hat := h.phases i phase hphase
  cases goes with
  | nextFile hlt hfile => exact atPhase_nextFile h files hphase hlt hfile
  | lastFile hge => exact atPhase_lastFile hat hge
  | copied hwhole => exact atPhase_copied hat hwhole
  | statOutput => exact hat
  | openFailed | nextFailed | copyFailed | insertFailed | selectFailed => trivial

theorem assemblies_resume (h : s.Assemblies) (files : s.ChunkFiles) {phase : RequestPhase}
    (hphase : s.requests i = some phase) (resumes : s.Resumes i phase t) : t.Assemblies := by
  -- a request ends, or goes on to a call of no assembly
  have hgoto : ∀ {new : Option RequestPhase} {t : ChunkedUpload}, s.Keeps t →
      (t.registered = true → s.registered = true) → t.finalized = s.finalized →
      t.requests = Function.update s.requests i new →
      (∀ k next, new = some next → next.touches k = false) →
      (∀ next, new = some next → next.assembles = false) → t.Assemblies := by
    intro new t keeps hregistered hfinalized hrequests hfree hidle
    refine h.goto hphase keeps hregistered hfinalized hrequests hfree
      (fun next hnext hassembles => ?_) fun next hnext => ?_
    · exact absurd (hidle next hnext) (by simp [hassembles])
    · exact atPhase_of_not_assembles (hidle next hnext)
  cases resumes with
  | goes hgoes =>
    exact h.goto hphase ⟨rfl, rfl, rfl, rfl, fun _ => id⟩ id rfl rfl
      (fun k _ hnext => hgoes.untouched hnext k) (fun _ => hgoes.assembles)
      fun _ => hgoes.atPhase h files hphase
  | openChunk | openFailed | received | receiveFailed =>
    exact h.atFile hphase (decide_eq_true rfl) (by simp [RequestPhase.assembles]) rfl rfl rfl
  | unlinkChunk ok => cases ok <;> exact h.atFile hphase (decide_eq_true rfl) (by simp) rfl rfl rfl
  | statChunk | putPart | unlinkOutput =>
    exact hgoto ⟨rfl, rfl, rfl, rfl, fun _ => id⟩ id rfl rfl (by simp) (by simp)
  | openOutput =>
    have hat : s.AtPhase (.openOutput _) := h.phases i _ hphase
    refine h.goto hphase ⟨rfl, rfl, rfl, rfl, fun _ => id⟩ id rfl rfl
      (by simp [RequestPhase.touches]) (fun _ _ _ => rfl) fun next hnext => ?_
    obtain rfl := Option.some.inj hnext
    exact hat
  | removeChunks ok => exact assemblies_finish h hphase ok
  | completeMultipart => exact (h.phases i _ hphase).elim
  | insertJob =>
    exact hgoto ⟨rfl, rfl, rfl, rfl, fun _ => id⟩ id rfl rfl (by simp [RequestPhase.touches])
      (by simp [RequestPhase.assembles])
  | deleteStored ok =>
    cases ok <;> exact hgoto ⟨rfl, rfl, rfl, rfl, fun _ => id⟩ id rfl rfl (by simp) (by simp)
  | abortMultipart =>
    exact hgoto ⟨rfl, rfl, rfl, rfl, fun _ => id⟩ (by simp [endRequest]) rfl rfl (by simp) (by simp)
  | abort ok =>
    cases ok <;> exact hgoto ⟨rfl, rfl, rfl, rfl, (keeps_removeDir _).dir⟩ (by simp [endRequest])
      rfl rfl (by simp) (by simp)

/-- **Step lemma.** -/
theorem assemblies_step (h : s.Assemblies) (files : s.ChunkFiles) {event : UploadEvent}
    (careful : s.Careful event) (enabled : s.step event = some t) : t.Assemblies := by
  have hidle : ∀ {i} {new : RequestPhase}, (∀ k, new.touches k = false) →
      new.assembles = false → (s.setPhase i new).Assemblies := by
    intro i new hfree hnew
    refine h.frame ⟨rfl, rfl, rfl, rfl, fun _ => id⟩ id rfl fun j phase hj => ?_
    obtain ⟨-, hself⟩ | ⟨-, hold⟩ := of_update hj
    · obtain rfl := Option.some.inj hself
      exact .inr ⟨hfree, fun hassembles => absurd hnew (by simp [hassembles]),
        atPhase_of_not_assembles hnew⟩
    · exact .inl hold
  cases steps_of_step enabled with
  | refused => exact h
  | chunk _ hadmits =>
    have hregistered := (Bool.and_eq_true_iff.mp hadmits).1
    refine assemblies_of_idle h.backend (fun j phase hj => ?_) ?_
    · obtain ⟨-, hself⟩ | ⟨-, hold⟩ := of_update hj
      · obtain rfl := Option.some.inj hself
        rfl
      · exact Bool.eq_false_iff.mpr fun hassembles =>
          careful hadmits ⟨j, phase, hold, hassembles⟩
    · by_contra hsome
      exact absurd (h.closed hsome) (by simp [hregistered])
  | part _ hspaces => exact absurd (hspaces.symm.trans h.backend) (by simp)
  | complete => exact assemblies_startComplete h files careful
  | abort =>
    unfold startAbort
    split
    · exact hidle (fun _ => rfl) rfl
    · refine h.frame ⟨rfl, rfl, rfl, rfl, fun _ => id⟩ id rfl fun j phase hj => .inl ?_
      exact ((of_update hj).resolve_left fun hself => absurd hself.2 (by simp)).2
  | cleanup => exact hidle (fun _ => rfl) rfl
  | receive hreceiving =>
    exact h.atFile hreceiving (decide_eq_true rfl) (by simp [RequestPhase.assembles]) rfl rfl rfl
  | @copy i a file bytes count hcopying =>
    refine h.goto hcopying ⟨rfl, rfl, rfl, rfl, fun _ => id⟩ id rfl rfl
      (by simp [RequestPhase.touches]) (fun _ _ _ => rfl) fun next hnext => ?_
    obtain rfl := Option.some.inj hnext
    exact atPhase_copy count (h.phases i _ hcopying)
  | removeEntry k =>
    refine h.frame ⟨rfl, rfl, rfl, rfl, fun q hq => ?_⟩ id rfl fun _ _ => .inl
    by_cases hqk : q = k
    · rw [hqk]
      exact update_self ..
    · exact (update_of_ne hqk _ _).trans hq
  | assemble => exact h.frame ⟨rfl, rfl, rfl, rfl, fun _ => id⟩ id rfl fun _ _ => .inl
  | resume hphase resumes => exact assemblies_resume h files hphase resumes

/-- **A finalised upload is complete in careful runs.**  For every session on the local disk and
    every interleaving of the steps of its requests. -/
theorem complete_of_careful {session : UploadSession} {now : Int} {events : List UploadEvent}
    (backend : session.backend = .localDisk)
    (run : Guarded step Careful (session.initial now) events t) :
    ∀ f ∈ t.finalized, f.Complete t := by
  have hinv : t.Consistent := by
    refine run.invariant ⟨chunkFiles_initial session now, ?_⟩ fun s event t h careful enabled => ?_
    · refine assemblies_of_idle backend (fun i phase hi => ?_) rfl
      exact absurd hi (by simp [UploadSession.initial])
    · exact ⟨chunkFiles_step h.files enabled, assemblies_step h.assemblies h.files careful enabled⟩
  exact hinv.assemblies.complete

/-! ### One upload of two bytes, and one more chunk -/

theorem complete_of_careful_twoBytes :
    ∃ t, Guarded step Careful (twoBytes.initial 0) (receiveBoth ++ completeWith 2) t ∧
      t.finalized = [⟨1, 2, ⟨1, [[1, 2]], [1, 2]⟩⟩] ∧ ∀ f ∈ t.finalized, f.Complete t := by
  have hidle : ∀ phase i, (twoBytes.initial 0).requests i ≠ some phase := by
    simp [UploadSession.initial]
  have hrun : ∃ t, Guarded step Careful (twoBytes.initial 0) (receiveBoth ++ completeWith 2) t ∧
      t.finalized = [⟨1, 2, ⟨1, [[1, 2]], [1, 2]⟩⟩] := by
    refine ⟨_, .cons ?_ step_twoBytes <| .cons trivial rfl <| .cons trivial rfl <|
      .cons trivial rfl <| .cons trivial rfl <| .cons ?_ rfl <| .cons trivial rfl <|
      .cons trivial rfl <| .cons trivial rfl <| .cons trivial rfl <| .cons trivial rfl <|
      .cons trivial rfl <| .cons trivial rfl .nil, ?_⟩
    · rintro - ⟨i, phase, hphase, -⟩
      exact hidle phase i hphase
    · refine fun _ => ⟨fun i phase k hphase => ?_, fun _ => ⟨fun k hk => ?_, by decide⟩⟩
      · obtain ⟨-, hself⟩ | ⟨hi, hphase⟩ := of_update hphase
        · exact absurd hself (by simp)
        · -- only one request was made
          have hbefore : ∀ {old : Nat → Option RequestPhase} {new : Option RequestPhase},
              update old 0 new i = some phase → old i = some phase :=
            fun h => (update_of_ne hi _ _).symm.trans h
          exact absurd (hbefore (hbefore (hbefore (hbefore hphase)))) (hidle phase i)
      · have hzero : k = 0 := by
          have : (k : Int) < 1 := hk
          omega
        subst hzero
        rintro ⟨j, phase, hj, hphase, -⟩
        exact hidle phase j ((update_of_ne hj _ _).symm.trans hphase)
    · rfl
  obtain ⟨t, hrun, hfinalized⟩ := hrun
  exact ⟨t, hrun, hfinalized, complete_of_careful rfl hrun⟩


/-- **Counterexample.** A second request for the only chunk opens its file again.  The number of
    received chunks still is that of the upload, and the upload is completed with what has come in
    of the second body. -/
theorem not_complete_reupload :
    ∃ t, exec step (twoBytes.initial 0) (receiveBoth ++
        [.chunk 2 "0", .resume 2 true 10, .receive 2 [3]] ++ completeWith 1) = some t ∧
      t.finalized = [⟨1, 1, ⟨1, [[3]], [3]⟩⟩] ∧ ¬ ∀ f ∈ t.finalized, f.Complete t := by
  have hrun : (exec step (twoBytes.initial 0) (receiveBoth ++
      [.chunk 2 "0", .resume 2 true 10, .receive 2 [3]] ++ completeWith 1)).map
        (fun t => (t.finalized, t.session)) =
      some ([⟨1, 1, ⟨1, [[3]], [3]⟩⟩], twoBytes) := by decide
  obtain ⟨t, ht, hfields⟩ := Option.map_eq_some_iff.mp hrun
  obtain ⟨hfinalized, hsession⟩ := Prod.mk.inj hfields
  refine ⟨t, ht, hfinalized, fun complete => ?_⟩
  have hsize := (complete ⟨1, 1, ⟨1, [[3]], [3]⟩⟩ (by simp [hfinalized])).size
  rw [hsession] at hsize
  exact absurd hsize (by decide)

end ChunkedUpload

end Montr.Server
