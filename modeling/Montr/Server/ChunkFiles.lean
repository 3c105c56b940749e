import Montr.Lib.Transition
import Montr.Server.ChunkedUpload

namespace Montr.Server

open Function Files Transition

/-!
# What is in the chunk files

`ChunkFiles` holds in all runs: the file of an undisturbed chunk has the body that is coming in, or
the last one that came in whole.  A chunk is disturbed by a second request that is at its file at
the same time, and by a failed one that leaves its file behind.
-/

/-- The request writes to the file of the chunk, or failed to. -/
def RequestPhase.writes (k : ChunkIndex) : RequestPhase → Bool
  | .receive k' _ _ => decide (k' = k)
  | .unlinkChunk k' => decide (k' = k)
  | _ => false

theorem RequestPhase.touches_of_writes {k : ChunkIndex} {phase : RequestPhase}
    (h : phase.writes k = true) : phase.touches k = true := by
  cases phase with
  | receive => exact h
  | unlinkChunk => exact h
  | _ => exact absurd h (by simp [RequestPhase.writes])

namespace ChunkedUpload

variable {s t : ChunkedUpload} {i : Nat}

def Unwritten (s : ChunkedUpload) (k : ChunkIndex) : Prop :=
  ∀ i phase, s.requests i = some phase → phase.writes k = false

theorem unwritten_of_untouched {k : ChunkIndex}
    (h : ∀ i phase, s.requests i = some phase → phase.touches k = false) : s.Unwritten k := by
  refine fun i phase hi => Bool.eq_false_iff.mpr fun hwrites => ?_
  exact absurd (h i phase hi) (by simp [RequestPhase.touches_of_writes hwrites])

/-- What is in the chunk files. -/
structure ChunkFiles (s : ChunkedUpload) : Prop where
  /-- an undisturbed chunk is received by one request -/
  exclusive : ∀ i j k file file' body body', ¬ s.disturbed k →
    s.requests i = some (.receive k file body) → s.requests j = some (.receive k file' body') →
    i = j
  /-- a request writes to no file of another chunk -/
  handle : ∀ i k file body, s.requests i = some (.receive k file body) →
    file < s.chunks.next ∧ ∀ q, s.chunks.dir q = some file → q = k
  /-- while it comes in, the body is what is in the file -/
  body : ∀ i k file body, ¬ s.disturbed k → s.requests i = some (.receive k file body) →
    ∀ file', s.chunks.dir k = some file' → file' = file ∧ s.chunks.content file' = body
  /-- and the last whole body afterwards -/
  rest : ∀ k, ¬ s.disturbed k → s.Unwritten k →
    ∀ file, s.chunks.dir k = some file → s.received k = some (s.chunks.content file)

theorem chunkFiles_initial (session : UploadSession) (now : Int) :
    (session.initial now).ChunkFiles where
  exclusive _ _ _ _ _ _ _ _ h := absurd h (by simp [UploadSession.initial])
  handle _ _ _ _ h := absurd h (by simp [UploadSession.initial])
  body _ _ _ _ _ h := absurd h (by simp [UploadSession.initial])
  rest _ _ _ _ h := absurd h (by simp [UploadSession.initial, FileSystem.empty])

/-- Files go, and requests that write to none do something else. -/
theorem ChunkFiles.frame (h : s.ChunkFiles)
    (dir : ∀ k file, t.chunks.dir k = some file → s.chunks.dir k = some file)
    (content : t.chunks.content = s.chunks.content) (next : t.chunks.next = s.chunks.next)
    (received : t.received = s.received) (disturbed : t.disturbed = s.disturbed)
    (receive : ∀ i k file body, t.requests i = some (.receive k file body) →
      s.requests i = some (.receive k file body))
    (writes : ∀ k file, t.chunks.dir k = some file → t.Unwritten k → s.Unwritten k) :
    t.ChunkFiles where
  exclusive i j k file file' body body' hclean hi hj :=
    h.exclusive i j k file file' body body' (disturbed ▸ hclean) (receive _ _ _ _ hi)
      (receive _ _ _ _ hj)
  handle i k file body hi := by
    obtain ⟨hlt, hown⟩ := h.handle i k file body (receive _ _ _ _ hi)
    rw [next]
    exact ⟨hlt, fun q hq => hown q (dir q file hq)⟩
  body i k file body hclean hi file' hfile := by
    rw [disturbed] at hclean
    rw [content]
    exact h.body i k file body hclean (receive _ _ _ _ hi) file' (dir k file' hfile)
  rest k hclean hfree file hfile := by
    rw [disturbed] at hclean
    rw [content, received]
    exact h.rest k hclean (writes k file hfile hfree) file (dir k file hfile)

/-- A request that writes to no chunk file goes on, and receives none. -/
theorem ChunkFiles.update (h : s.ChunkFiles) {phase : Option RequestPhase}
    (free : ∀ old k, s.requests i = some old → old.writes k = false)
    (idle : ∀ k file body, phase ≠ some (.receive k file body))
    (dir : ∀ k file, t.chunks.dir k = some file → s.chunks.dir k = some file)
    (content : t.chunks.content = s.chunks.content) (next : t.chunks.next = s.chunks.next)
    (received : t.received = s.received) (disturbed : t.disturbed = s.disturbed)
    (requests : t.requests = Function.update s.requests i phase) : t.ChunkFiles := by
  refine h.frame dir content next received disturbed (fun j k file body hj => ?_)
    fun k _ _ hfree j old hold => ?_
  · rw [requests] at hj
    obtain ⟨-, hnew⟩ | ⟨-, hold⟩ := of_update hj
    · exact absurd hnew (idle k file body)
    · exact hold
  · by_cases hj : j = i
    · rw [hj] at hold
      exact free old k hold
    · have hlater : t.requests j = some old := by rw [requests, update_of_ne hj, hold]
      exact hfree j old hlater

/-- And no file changes. -/
theorem ChunkFiles.goto (h : s.ChunkFiles) {phase : Option RequestPhase}
    (free : ∀ old k, s.requests i = some old → old.writes k = false)
    (idle : ∀ k file body, phase ≠ some (.receive k file body)) (chunks : t.chunks = s.chunks)
    (received : t.received = s.received) (disturbed : t.disturbed = s.disturbed)
    (requests : t.requests = Function.update s.requests i phase) : t.ChunkFiles :=
  h.update free idle (fun k file hfile => chunks ▸ hfile) (by rw [chunks]) (by rw [chunks])
    received disturbed requests

/-- The file that a request opened. -/
theorem chunkFiles_openChunk (h : s.ChunkFiles) {k : ChunkIndex}
    (hopening : s.requests i = some (.openChunk k)) : (s.openChunk i k).ChunkFiles := by
  have hdir : ∀ q, q ≠ k → (s.openChunk i k).chunks.dir q = s.chunks.dir q :=
    fun q hq => FileSystem.dir_create_of_ne hq
  have hcontent : ∀ file, file ≠ (s.chunks.create k).1 →
      (s.openChunk i k).chunks.content file = s.chunks.content file :=
    fun file hfile => FileSystem.content_create_of_ne hfile
  have hself : (s.openChunk i k).chunks.dir k = some (s.chunks.create k).1 :=
    FileSystem.dir_create_self
  have hother : ∀ q file, q ≠ k → s.chunks.dir q = some file → file ≠ (s.chunks.create k).1 := by
    rintro q file hq hfile rfl
    exact hq (FileSystem.eq_of_dir_create ((hdir q hq).trans hfile))
  have hclean : ∀ q, ¬ (s.openChunk i k).disturbed q →
      q = k ∧ ¬ s.TouchedByOther i k ∨ q ≠ k ∧ ¬ s.disturbed q := by
    intro q hq
    replace hq : ¬ Function.update s.disturbed k (s.TouchedByOther i k) q := hq
    by_cases hqk : q = k
    · rw [hqk, update_self] at hq
      exact .inl ⟨hqk, hq⟩
    · rw [update_of_ne hqk] at hq
      exact .inr ⟨hqk, hq⟩
  have halone : ∀ j q file body, ¬ (s.openChunk i k).disturbed q →
      (s.openChunk i k).requests j = some (.receive q file body) →
      (j = i ∧ q = k ∧ file = (s.chunks.create k).1 ∧ body = []) ∨
        (q ≠ k ∧ ¬ s.disturbed q ∧ s.requests j = some (.receive q file body)) := by
    intro j q file body hq hj
    obtain ⟨hji, hnew⟩ | ⟨hji, hold⟩ := of_update hj
    · obtain ⟨rfl, rfl, rfl⟩ := RequestPhase.receive.inj (Option.some.inj hnew)
      exact .inl ⟨hji, rfl, rfl, rfl⟩
    · obtain ⟨rfl, hfree⟩ | ⟨hqk, hq⟩ := hclean q hq
      · exact absurd ⟨j, _, hji, hold, decide_eq_true rfl⟩ hfree
      · exact .inr ⟨hqk, hq, hold⟩
  refine ⟨fun j j' q file file' body body' hq hj hj' => ?_, fun j q file body hj => ?_,
    fun j q file body hq hj file' hfile' => ?_, fun q hq hfree file hfile => ?_⟩
  · obtain ⟨rfl, hqk, -⟩ | ⟨hqk, hq, hold⟩ := halone j q file body hq hj
    · obtain ⟨rfl, -⟩ | ⟨hqk', -⟩ := halone j' q file' body' hq hj'
      · rfl
      · exact absurd hqk hqk'
    · obtain ⟨-, hqk', -⟩ | ⟨-, -, hold'⟩ := halone j' q file' body' ‹_› hj'
      · exact absurd hqk' hqk
      · exact h.exclusive j j' q file file' body body' hq hold hold'
  · obtain ⟨-, hnew⟩ | ⟨-, hold⟩ := of_update hj
    · obtain ⟨rfl, rfl, rfl⟩ := RequestPhase.receive.inj (Option.some.inj hnew)
      exact ⟨FileSystem.create_lt_next, fun q hq => FileSystem.eq_of_dir_create hq⟩
    · obtain ⟨hlt, hown⟩ := h.handle j q file body hold
      refine ⟨Nat.lt_of_lt_of_le hlt FileSystem.next_le_create, fun q' hq' => ?_⟩
      by_cases hqk : q' = k
      · -- the opened file has the handle of another chunk only if it was there before
        subst hqk
        have hsame : (s.chunks.create q').1 = file := Option.some.inj (hself.symm.trans hq')
        have hfile : s.chunks.dir q' = some (s.chunks.create q').1 ∨
            s.chunks.dir q' = none ∧ (s.chunks.create q').1 = s.chunks.next :=
          FileSystem.create_fst
        obtain hknown | ⟨-, hnew⟩ := hfile
        · exact hown q' (hsame ▸ hknown)
        · omega
      · exact hown q' ((hdir q' hqk).symm.trans hq')
  · obtain ⟨rfl, rfl, rfl, rfl⟩ | ⟨hqk, hq, hold⟩ := halone j q file body hq hj
    · obtain rfl := Option.some.inj (hself.symm.trans hfile')
      exact ⟨rfl, FileSystem.content_create_self⟩
    · have hfile := (hdir q hqk).symm.trans hfile'
      rw [hcontent file' (hother q file' hqk hfile)]
      exact h.body j q file body hq hold file' hfile
  · obtain ⟨rfl, -⟩ | ⟨hqk, hq⟩ := hclean q hq
    · -- the request that opened the file is at work
      have hself := hfree i (.receive q (s.chunks.create q).1 []) (update_self ..)
      exact absurd hself (by simp [RequestPhase.writes])
    · have hold := (hdir q hqk).symm.trans hfile
      rw [hcontent file (hother q file hqk hold)]
      refine h.rest q hq (fun j phase hj => ?_) file hold
      by_cases hji : j = i
      · rw [hji, hopening] at hj
        obtain rfl := Option.some.inj hj
        rfl
      · exact hfree j phase ((update_of_ne hji _ _).trans hj)

/-- A piece of a body. -/
theorem chunkFiles_writeChunk (h : s.ChunkFiles) {k : ChunkIndex} {file : Nat}
    {body bytes : List UInt8} (hreceiving : s.requests i = some (.receive k file body)) :
    (s.writeChunk i k file body bytes).ChunkFiles := by
  obtain ⟨hlt, hown⟩ := h.handle i k file body hreceiving
  have hcontent : ∀ q file', q ≠ k → s.chunks.dir q = some file' →
      (s.writeChunk i k file body bytes).chunks.content file' = s.chunks.content file' := by
    rintro q file' hq hfile'
    refine FileSystem.content_modify_of_ne ?_
    rintro rfl
    exact hq (hown q hfile')
  have hold : ∀ j q file' body',
      (s.writeChunk i k file body bytes).requests j = some (.receive q file' body') →
      (j = i ∧ q = k ∧ file' = file ∧ body' = body ++ bytes) ∨
        (j ≠ i ∧ s.requests j = some (.receive q file' body')) := by
    intro j q file' body' hj
    refine (of_update hj).imp_left fun hself => ⟨hself.1, ?_⟩
    obtain ⟨rfl, rfl, rfl⟩ := RequestPhase.receive.inj (Option.some.inj hself.2)
    exact ⟨rfl, rfl, rfl⟩
  -- every request has a handle to the file it had one to before
  have hbefore : ∀ j q file' body',
      (s.writeChunk i k file body bytes).requests j = some (.receive q file' body') →
      ∃ body, s.requests j = some (.receive q file' body) := by
    intro j q file' body' hj
    obtain ⟨rfl, rfl, rfl, -⟩ | ⟨-, hj⟩ := hold j q file' body' hj
    · exact ⟨body, hreceiving⟩
    · exact ⟨body', hj⟩
  refine ⟨fun j j' q file' file'' body' body'' hq hj hj' => ?_, fun j q file' body' hj => ?_,
    fun j q file' body' hq hj file'' hfile'' => ?_, fun q hq hfree file' hfile' => ?_⟩
  · obtain ⟨b, hb⟩ := hbefore j q file' body' hj
    obtain ⟨b', hb'⟩ := hbefore j' q file'' body'' hj'
    exact h.exclusive j j' q file' file'' b b' hq hb hb'
  · obtain ⟨b, hb⟩ := hbefore j q file' body' hj
    exact h.handle j q file' b hb
  · obtain ⟨rfl, rfl, rfl, rfl⟩ | ⟨hji, hother⟩ := hold j q file' body' hj
    · obtain ⟨rfl, hbody⟩ := h.body j q file' body hq hreceiving file'' hfile''
      refine ⟨rfl, ?_⟩
      show (s.chunks.modify file'' _).content file'' = body ++ bytes
      rw [FileSystem.content_modify_self, hbody, FileSystem.splice_length]
    · have hqk : q ≠ k := by
        rintro rfl
        exact hji (h.exclusive j i q file' file body' body hq hother hreceiving)
      rw [hcontent q file'' hqk hfile'']
      exact h.body j q file' body' hq hother file'' hfile''
  · have hqk : q ≠ k := by
      rintro rfl
      have hself := hfree i (.receive q file (body ++ bytes)) (update_self ..)
      exact absurd hself (by simp [RequestPhase.writes])
    rw [hcontent q file' hqk hfile']
    refine h.rest q hq (fun j phase hj => ?_) file' hfile'
    by_cases hji : j = i
    · rw [hji, hreceiving] at hj
      obtain rfl := Option.some.inj hj
      exact decide_eq_false hqk.symm
    · exact hfree j phase ((update_of_ne hji _ _).trans hj)

/-- A body came in whole. -/
theorem chunkFiles_received (h : s.ChunkFiles) {k : ChunkIndex} {file : Nat} {body : List UInt8}
    (hreceiving : s.requests i = some (.receive k file body)) :
    ({ s with received := Function.update s.received k (some body) }.setPhase i
      (.statChunk k)).ChunkFiles := by
  have hold : ∀ {j phase}, Function.update s.requests i (some (.statChunk k)) j = some phase →
      phase = .statChunk k ∨ s.requests j = some phase := by
    intro j phase hj
    exact (of_update hj).imp (fun hself => (Option.some.inj hself.2).symm) And.right
  have hreceive : ∀ {j q file' body'},
      Function.update s.requests i (some (.statChunk k)) j = some (.receive q file' body') →
      s.requests j = some (.receive q file' body') :=
    fun hj => (hold hj).resolve_left (by simp)
  refine ⟨fun j j' q file' file'' b b' hq hj hj' => ?_, fun j q file' b hj => ?_,
    fun j q file' b hq hj => ?_, fun q hq hfree file' hfile' => ?_⟩
  · exact h.exclusive j j' q file' file'' b b' hq (hreceive hj) (hreceive hj')
  · exact h.handle j q file' b (hreceive hj)
  · exact h.body j q file' b hq (hreceive hj)
  · by_cases hqk : q = k
    · subst hqk
      obtain ⟨-, hbody⟩ := h.body i q file body hq hreceiving file' hfile'
      show Function.update s.received q (some body) q = some (s.chunks.content file')
      rw [update_self, hbody]
    · have hreceived : Function.update s.received k (some body) q = s.received q :=
        update_of_ne hqk _ _
      refine hreceived.trans (h.rest q hq (fun j phase hj => ?_) file' hfile')
      by_cases hji : j = i
      · rw [hji, hreceiving] at hj
        obtain rfl := Option.some.inj hj
        exact decide_eq_false (Ne.symm hqk)
      · exact hfree j phase ((update_of_ne hji _ _).trans hj)

/-- A body did not come in whole. -/
theorem chunkFiles_failed (h : s.ChunkFiles) {k : ChunkIndex} {file : Nat} {body : List UInt8}
    (hreceiving : s.requests i = some (.receive k file body)) :
    (s.setPhase i (.unlinkChunk k)).ChunkFiles := by
  refine h.frame (fun _ _ hfile => hfile) rfl rfl rfl rfl (fun j q file body hj => ?_)
    fun q _ _ hfree j old hold => ?_
  · exact ((of_update hj).resolve_left fun hself => absurd hself.2 (by simp)).2
  · by_cases hji : j = i
    · rw [hji, hreceiving] at hold
      obtain rfl := Option.some.inj hold
      exact hfree i (.unlinkChunk k) (update_self ..)
    · exact hfree j old ((update_of_ne hji _ _).trans hold)

/-- A failed request is through with its file. -/
theorem chunkFiles_unlinkChunk (h : s.ChunkFiles) {k : ChunkIndex}
    (hunlinking : s.requests i = some (.unlinkChunk k)) (ok : Bool) :
    (s.unlinkChunk i k ok).ChunkFiles := by
  have hreceive : ∀ {j phase}, Function.update s.requests i none j = some phase →
      s.requests j = some phase :=
    fun hj => ((of_update hj).resolve_left fun hself => absurd hself.2 (by simp)).2
  have hfree : ∀ {q}, q ≠ k →
      (∀ j phase, Function.update s.requests i none j = some phase → phase.writes q = false) →
      s.Unwritten q := by
    intro q hqk hfree j phase hj
    by_cases hji : j = i
    · rw [hji, hunlinking] at hj
      obtain rfl := Option.some.inj hj
      exact decide_eq_false hqk.symm
    · exact hfree j phase ((update_of_ne hji _ _).trans hj)
  unfold unlinkChunk
  split
  · refine h.frame (fun q file hfile => (FileSystem.dir_of_unlink hfile).2) rfl rfl rfl rfl
      (fun _ _ _ _ hj => hreceive hj) fun q file hfile hq => ?_
    exact hfree (FileSystem.dir_of_unlink hfile).1 hq
  · have hclean : ∀ {q}, ¬ Function.update s.disturbed k True q → q ≠ k ∧ ¬ s.disturbed q := by
      intro q hq
      by_cases hqk : q = k
      · rw [hqk, update_self] at hq
        exact absurd trivial hq
      · rw [update_of_ne hqk] at hq
        exact ⟨hqk, hq⟩
    refine ⟨fun j j' q file file' b b' hq hj hj' => ?_, fun j q file b hj => ?_,
      fun j q file b hq hj => ?_, fun q hq hq' => ?_⟩
    · exact h.exclusive j j' q file file' b b' (hclean hq).2 (hreceive hj) (hreceive hj')
    · exact h.handle j q file b (hreceive hj)
    · exact h.body j q file b (hclean hq).2 (hreceive hj)
    · exact h.rest q (hclean hq).2 (hfree (hclean hq).1 hq')

/-- A request that goes on away from the chunk files writes to none, before and after. -/
theorem Goes.free {phase : RequestPhase} {new : Option RequestPhase} (h : s.Goes phase new) :
    (∀ k, phase.writes k = false) ∧ ∀ k file body, new ≠ some (.receive k file body) := by
  cases h <;> exact ⟨fun _ => rfl, by simp⟩

/-- A request in its phase goes on. -/
theorem chunkFiles_resume (h : s.ChunkFiles) {phase : RequestPhase}
    (hphase : s.requests i = some phase) (resumes : s.Resumes i phase t) : t.ChunkFiles := by
  have hfree : (∀ k, phase.writes k = false) →
      ∀ old k, s.requests i = some old → old.writes k = false := by
    intro hwrites old k hold
    obtain rfl := Option.some.inj (hphase.symm.trans hold)
    exact hwrites k
  have hclear : ∀ {ok : Bool} {new : Option RequestPhase} {t : ChunkedUpload},
      (∀ k, phase.writes k = false) → (∀ k file body, new ≠ some (.receive k file body)) →
      t.chunks = (s.removeDir ok).chunks → t.received = s.received → t.disturbed = s.disturbed →
      t.requests = Function.update s.requests i new → t.ChunkFiles := by
    intro ok new t hwrites hnew hchunks hreceived hdisturbed hrequests
    cases ok with
    | false => exact h.goto (hfree hwrites) hnew hchunks hreceived hdisturbed hrequests
    | true =>
      refine h.update (hfree hwrites) hnew (fun k file hfile => ?_) (by rw [hchunks]; rfl)
        (by rw [hchunks]; rfl) hreceived hdisturbed hrequests
      rw [hchunks] at hfile
      exact absurd hfile (by simp [removeDir, FileSystem.clear])
  cases resumes with
  | goes hgoes => exact h.goto (hfree hgoes.free.1) hgoes.free.2 rfl rfl rfl rfl
  | openChunk => exact chunkFiles_openChunk h hphase
  | openFailed => exact h.goto (hfree fun _ => rfl) (by simp) rfl rfl rfl rfl
  | received => exact chunkFiles_received h hphase
  | receiveFailed => exact chunkFiles_failed h hphase
  | unlinkChunk ok => exact chunkFiles_unlinkChunk h hphase ok
  | removeChunks ok => cases ok <;> exact hclear (fun _ => rfl) (by simp) rfl rfl rfl rfl
  | abort ok => cases ok <;> exact hclear (fun _ => rfl) (by simp) rfl rfl rfl rfl
  | deleteStored ok => cases ok <;> exact h.goto (hfree fun _ => rfl) (by simp) rfl rfl rfl rfl
  | statChunk | putPart | openOutput | unlinkOutput | completeMultipart | insertJob
  | abortMultipart =>
    exact h.goto (hfree fun _ => rfl) (by simp) rfl rfl rfl rfl

/-- **Step lemma** for the chunk files. -/
theorem chunkFiles_step (h : s.ChunkFiles) {event : UploadEvent} (enabled : s.step event = some t) :
    t.ChunkFiles := by
  have hnone : ∀ {i}, s.requests i = none →
      ∀ old k, s.requests i = some old → old.writes k = false :=
    fun hidle old _ hold => absurd (hidle.symm.trans hold) (by simp)
  cases steps_of_step enabled with
  | refused => exact h
  | chunk hidle | part hidle | cleanup hidle =>
    exact h.goto (hnone hidle) (by simp) rfl rfl rfl rfl
  | complete hidle =>
    unfold startComplete
    split
    · split
      · exact h.goto (hnone hidle) (by simp) rfl rfl rfl rfl
      · exact h.goto (hnone hidle) (by simp) rfl rfl rfl rfl
    · exact h
  | @abort i hidle =>
    have hfree : ∀ old k, s.requests i = some old → old.writes k = false := by
      intro old k hold
      obtain hidle | hstale := hidle
      · exact hnone hidle old k hold
      · obtain rfl := Option.some.inj (hstale.symm.trans hold)
        rfl
    unfold startAbort
    split
    · exact h.goto hfree (by simp) rfl rfl rfl rfl
    · exact h.goto hfree (by simp) rfl rfl rfl rfl
  | receive hreceiving => exact chunkFiles_writeChunk h hreceiving
  | copy count hcopying =>
    refine h.goto (fun old k hold => ?_) (by simp) rfl rfl rfl rfl
    obtain rfl := Option.some.inj (hcopying.symm.trans hold)
    rfl
  | removeEntry k =>
    exact h.frame (fun _ _ hfile => (FileSystem.dir_of_unlink hfile).2) rfl rfl rfl rfl
      (fun _ _ _ _ => id) fun _ _ _ => id
  | assemble => exact h.frame (fun _ _ => id) rfl rfl rfl rfl (fun _ _ _ _ => id) fun _ _ _ => id
  | resume hphase resumes => exact chunkFiles_resume h hphase resumes

end ChunkedUpload

end Montr.Server
