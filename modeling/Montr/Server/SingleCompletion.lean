import Montr.Lib.Transition
import Montr.Server.ChunkedUpload

namespace Montr.Server

open Function Transition

/-!
# One completion for an upload

The session leaves `sessions` at the end of `completeUpload` only, after several awaited calls, so
that a second call can pass the same checks meanwhile.  `Role` is what a request has to do with the
result, `ChunkedUpload.AtMostOnce` what is wanted of all of them together, and
`atMostOnce_of_alone` the runs in which it holds.
-/

/-- What a request does about the result: the key of its object, or the result to hand on. -/
inductive Role
  | idle
  | opening (key : Nat)
  | assembling (key : Nat)
  | failing (key : Nat)
  | multipart
  | handing (f : Finalized)

/-- The object that a request is to make. -/
def Role.key : Role → Option Nat
  | .opening key | .assembling key | .failing key => some key
  | .multipart => some 0
  | _ => none

def RequestPhase.role : RequestPhase → Role
  | .openOutput a => .opening a.storageKey
  | .nextChunk a => .assembling a.storageKey
  | .copyChunk a _ _ => .assembling a.storageKey
  | .statOutput a => .assembling a.storageKey
  | .removeChunks f => .assembling f.storageKey
  | .unlinkOutput a => .failing a.storageKey
  | .completeMultipart => .multipart
  | .insertJob f => .handing f
  | .selectJob f => .handing f
  | .deleteStored f => .handing f
  | _ => .idle

namespace ChunkedUpload

variable {s t : ChunkedUpload} {i : Nat}

def role (s : ChunkedUpload) (i : Nat) : Role := ((s.requests i).map RequestPhase.role).getD .idle

/-- One result at most, one object at most, a job for the result only; and the object of a result
    stays, unless the route could not record its job. -/
structure AtMostOnce (s : ChunkedUpload) : Prop where
  one : s.finalized.length ≤ 1
  stored : ∀ a b, s.stored a = true → s.stored b = true → a = b
  job : ∀ f, s.job = some f → f ∈ s.finalized
  kept : ∀ f ∈ s.finalized, s.stored f.storageKey = true ∨ f.storageKey ∈ s.discarded

/-- `completeUpload` lets an upload in when no other completion is at work, and none left a file
    in `media`. -/
def Alone (s : ChunkedUpload) : UploadEvent → Prop
  | .complete _ => s.isComplete = true →
    (∀ i, (s.role i).key = none) ∧ (s.session.backend = .localDisk → ∀ key, s.stored key = false)
  | _ => True

theorem role_of_update {phase : Option RequestPhase}
    (h : t.requests = update s.requests i phase) :
    t.role = update s.role i ((phase.map RequestPhase.role).getD .idle) := by
  ext j
  unfold role
  rw [h]
  by_cases hj : j = i
  · rw [hj, update_self, update_self]
  · rw [update_of_ne hj, update_of_ne hj]

/-! ### The invariant -/

structure Completions (s : ChunkedUpload) : Prop extends s.AtMostOnce where
  exclusive : ∀ i j a b, (s.role i).key = some a → (s.role j).key = some b → i = j
  alone : ∀ i a, (s.role i).key = some a →
    s.finalized = [] ∧ ∀ b, s.stored b = true → b = a
  opening : ∀ i a, s.role i = .opening a → s.session.backend = .localDisk
  assembling : ∀ i a, s.role i = .assembling a → s.stored a = true
  handing : ∀ i f, s.role i = .handing f → f ∈ s.finalized
  closed : s.finalized ≠ [] → s.registered = false
  spaces : s.session.backend = .spaces → ∀ a, s.stored a = true → a = 0

theorem completions_initial (session : UploadSession) (now : Int) :
    (session.initial now).Completions where
  one := Nat.zero_le _
  stored _ _ h := absurd h (by simp [UploadSession.initial])
  job _ h := absurd h (by simp [UploadSession.initial])
  kept _ h := absurd h (by simp [UploadSession.initial])
  exclusive _ _ _ _ h := absurd h (by simp [role, UploadSession.initial, Role.key])
  alone _ _ h := absurd h (by simp [role, UploadSession.initial, Role.key])
  opening _ _ h := absurd h (by simp [role, UploadSession.initial])
  assembling _ _ h := absurd h (by simp [role, UploadSession.initial])
  handing _ _ h := absurd h (by simp [role, UploadSession.initial])
  closed h := absurd rfl h
  spaces _ _ h := absurd h (by simp [UploadSession.initial])

/-- A role after an update is the new one or an old one. -/
theorem of_role {role : Nat → Role} {new : Role} {i j : Nat} {P : Role → Prop}
    (h : P (update role i new j)) : j = i ∧ P new ∨ j ≠ i ∧ P (role j) := by
  by_cases hj : j = i
  · rw [hj, update_self] at h
    exact .inl ⟨hj, h⟩
  · rw [update_of_ne hj] at h
    exact .inr ⟨hj, h⟩

/-- What the steps of most requests leave alone. -/
structure Same (s t : ChunkedUpload) : Prop where
  session : t.session = s.session
  registered : t.registered = true → s.registered = true
  stored : t.stored = s.stored
  job : t.job = s.job
  finalized : t.finalized = s.finalized
  discarded : t.discarded = s.discarded

/-- A request keeps its role, or gives it up. -/
theorem Completions.frame (h : s.Completions) (same : s.Same t) {new : Role}
    (role : t.role = update s.role i new) (fewer : new = .idle ∨ new = s.role i ∨
      ∃ a, new = .failing a ∧ (s.role i).key = some a) : t.Completions := by
  have hkey : ∀ j a, (t.role j).key = some a → (s.role j).key = some a := by
    intro j a hj
    rw [role] at hj
    obtain ⟨rfl, hnew⟩ | ⟨-, hold⟩ := of_role (P := fun r => r.key = some a) hj
    · obtain rfl | rfl | ⟨b, rfl, hb⟩ := fewer
      · exact absurd hnew (by simp [Role.key])
      · exact hnew
      · rw [hb]
        exact hnew
    · exact hold
  -- roles other than failing ones are old ones
  have hrole : ∀ j, t.role j = .idle ∨ t.role j = s.role j ∨ ∃ a, t.role j = .failing a := by
    intro j
    rw [role]
    by_cases hj : j = i
    · rw [hj, update_self]
      exact fewer.imp_right fun hrest => hrest.imp_right fun ⟨a, ha, _⟩ => ⟨a, ha⟩
    · rw [update_of_ne hj]
      exact .inr (.inl rfl)
  have hsame : ∀ {j r}, t.role j = r → r ≠ .idle → (∀ a, r ≠ .failing a) → s.role j = r := by
    intro j r hj hidle hfailing
    obtain hnew | hold | ⟨a, hnew⟩ := hrole j
    · exact absurd (hj.symm.trans hnew) hidle
    · exact hold.symm.trans hj
    · exact absurd (hj.symm.trans hnew) (hfailing a)
  refine ⟨⟨?_, ?_, ?_, ?_⟩, fun j k a b hj hk => ?_, fun j a hj => ?_, fun j a hj => ?_,
    fun j a hj => ?_, fun j f hj => ?_, fun hsome => ?_, ?_⟩
  · rw [same.finalized]
    exact h.one
  · rw [same.stored]
    exact h.stored
  · rw [same.job, same.finalized]
    exact h.job
  · rw [same.finalized, same.stored, same.discarded]
    exact h.kept
  · exact h.exclusive j k a b (hkey j a hj) (hkey k b hk)
  · rw [same.finalized, same.stored]
    exact h.alone j a (hkey j a hj)
  · rw [same.session]
    exact h.opening j a (hsame hj (by simp) (by simp))
  · rw [same.stored]
    exact h.assembling j a (hsame hj (by simp) (by simp))
  · rw [same.finalized]
    exact h.handing j f (hsame hj (by simp) (by simp))
  · rw [same.finalized] at hsome
    exact Bool.eq_false_iff.mpr fun ht => absurd (h.closed hsome) (by simp [same.registered ht])
  · rw [same.session, same.stored]
    exact h.spaces

/-! ### Steps of a completion -/

theorem role_of_none (h : s.requests i = none) : s.role i = .idle := by
  unfold role
  rw [h]
  rfl

theorem role_of_phase {phase : RequestPhase} (h : s.requests i = some phase) :
    s.role i = phase.role := by
  unfold role
  rw [h]
  rfl

/-- A request goes on without a result. -/
theorem Completions.idle (h : s.Completions) {new : Option RequestPhase}
    (role : (new.map RequestPhase.role).getD .idle = .idle) (same : s.Same t)
    (requests : t.requests = update s.requests i new) : t.Completions :=
  h.frame same (role_of_update requests) (.inl role)

/-- A request takes up a result that nothing else is at. -/
theorem Completions.start (h : s.Completions) {new : Role} {key : Nat}
    (registered : s.registered = true) (idle : ∀ j, (s.role j).key = none) (same : s.Same t)
    (role : t.role = update s.role i new) (hkey : new.key = some key)
    (stored : ∀ b, s.stored b = true → b = key)
    (opening : ∀ a, new = .opening a → s.session.backend = .localDisk)
    (notAssembling : ∀ a, new ≠ .assembling a) (notHanding : ∀ f, new ≠ .handing f) :
    t.Completions := by
  have hnone : s.finalized = [] := by
    by_contra hsome
    exact absurd (h.closed hsome) (by simp [registered])
  have honly : ∀ j a, (t.role j).key = some a → j = i ∧ a = key := by
    intro j a hj
    rw [role] at hj
    obtain ⟨hji, hnew⟩ | ⟨-, hold⟩ := of_role (P := fun r => r.key = some a) hj
    · exact ⟨hji, Option.some.inj (hnew.symm.trans hkey)⟩
    · exact absurd (hold.symm.trans (idle j)) (by simp)
  have hold : ∀ j r, t.role j = r → r ≠ new → s.role j = r := by
    intro j r hj hne
    rw [role] at hj
    obtain ⟨-, hnew⟩ | ⟨-, hold⟩ := of_role (P := fun x => x = r) hj
    · exact absurd hnew.symm hne
    · exact hold
  refine ⟨⟨?_, ?_, ?_, ?_⟩, fun j k a b hj hk => ?_, fun j a hj => ?_, fun j a hj => ?_,
    fun j a hj => ?_, fun j f hj => ?_, fun hsome => ?_, ?_⟩
  · rw [same.finalized]
    exact h.one
  · rw [same.stored]
    exact h.stored
  · rw [same.job, same.finalized]
    exact h.job
  · rw [same.finalized, same.stored, same.discarded]
    exact h.kept
  · exact (honly j a hj).1.trans (honly k b hk).1.symm
  · obtain ⟨-, rfl⟩ := honly j a hj
    rw [same.finalized, same.stored]
    exact ⟨hnone, stored⟩
  · rw [same.session]
    by_cases hne : .opening a = new
    · exact opening a hne.symm
    · exact h.opening j a (hold j _ hj hne)
  · rw [same.stored]
    exact h.assembling j a (hold j _ hj (notAssembling a).symm)
  · rw [same.finalized]
    exact h.handing j f (hold j _ hj (notHanding f).symm)
  · exact absurd (same.finalized.trans hnone) hsome
  · rw [same.session, same.stored]
    exact h.spaces

/-- A completion starts. -/
theorem completions_startComplete (h : s.Completions)
    (alone : s.isComplete = true → (∀ i, (s.role i).key = none) ∧
      (s.session.backend = .localDisk → ∀ key, s.stored key = false)) :
    (s.startComplete i).Completions := by
  unfold startComplete
  split
  · next hcomplete =>
    obtain ⟨hidle, hempty⟩ := alone hcomplete
    have hregistered := (Bool.and_eq_true_iff.mp hcomplete).1
    split
    · next hbackend =>
      exact h.start hregistered hidle ⟨rfl, id, rfl, rfl, rfl, rfl⟩ (role_of_update rfl) rfl
        (h.spaces hbackend) (by simp [RequestPhase.role]) (by simp [RequestPhase.role])
        (by simp [RequestPhase.role])
    · next hbackend =>
      refine h.start hregistered hidle ⟨rfl, id, rfl, rfl, rfl, rfl⟩ (role_of_update rfl) rfl
        (fun b hb => ?_) (fun _ _ => hbackend) (by simp [RequestPhase.role])
        (by simp [RequestPhase.role])
      exact absurd hb (by simp [hempty hbackend b])
  · exact h

/-- The object of a completion at work is there, or goes. -/
theorem Completions.store (h : s.Completions) {key : Nat} {there : Bool} {new : Role}
    (hkey : (s.role i).key = some key) (session : t.session = s.session)
    (stored : t.stored = update s.stored key there) (job : t.job = s.job)
    (finalized : t.finalized = s.finalized)
    (role : t.role = update s.role i new) (fewer : new.key = none ∨ new.key = some key)
    (notOpening : ∀ a, new ≠ .opening a) (notHanding : ∀ f, new ≠ .handing f)
    (assembling : ∀ a, new = .assembling a → a = key ∧ there = true)
    (spaces : there = true → s.session.backend = .spaces → key = 0) : t.Completions := by
  obtain ⟨hnone, hstored⟩ := h.alone i key hkey
  have honly : ∀ b, t.stored b = true → b = key := by
    intro b hb
    rw [stored] at hb
    by_cases hbk : b = key
    · exact hbk
    · rw [update_of_ne hbk] at hb
      exact hstored b hb
  have hold : ∀ j, j ≠ i → (s.role j).key = none := by
    intro j hj
    by_contra hsome
    obtain ⟨a, ha⟩ := Option.ne_none_iff_exists'.mp hsome
    exact hj (h.exclusive j i a key ha hkey)
  have hrole : ∀ j a, (t.role j).key = some a → j = i ∧ a = key := by
    intro j a hj
    rw [role] at hj
    obtain ⟨hji, hnew⟩ | ⟨hji, hj⟩ := of_role (P := fun r => r.key = some a) hj
    · obtain hnokey | hkey := fewer
      · exact absurd (hnokey.symm.trans hnew) (by simp)
      · exact ⟨hji, Option.some.inj (hnew.symm.trans hkey)⟩
    · exact absurd (hj.symm.trans (hold j hji)) (by simp)
  have hnew : ∀ {j r}, t.role j = r → r.key ≠ none → r = new := by
    intro j r hj hr
    rw [role] at hj
    obtain ⟨-, hj⟩ | ⟨hji, hj⟩ := of_role (P := fun x => x = r) hj
    · exact hj.symm
    · exact absurd (hj ▸ hold j hji) hr
  refine ⟨⟨?_, fun a b ha hb => (honly a ha).trans (honly b hb).symm, ?_, fun f hf => ?_⟩,
    fun j k a b hj hk => (hrole j a hj).1.trans (hrole k b hk).1.symm, fun j a hj => ?_,
    fun j a hj => ?_, fun j a hj => ?_, fun j f hj => ?_, fun hsome => ?_, fun hspaces a ha => ?_⟩
  · rw [finalized, hnone]
    exact Nat.zero_le _
  · rw [job, finalized]
    exact h.job
  · rw [finalized, hnone] at hf
    exact absurd hf List.not_mem_nil
  · obtain ⟨-, rfl⟩ := hrole j a hj
    exact ⟨finalized.trans hnone, honly⟩
  · exact absurd (hnew hj (by simp [Role.key])).symm (notOpening a)
  · obtain ⟨rfl, hthere⟩ := assembling a (hnew hj (by simp [Role.key])).symm
    rw [stored, update_self, hthere]
  · rw [role] at hj
    obtain ⟨-, hj⟩ | ⟨hji, hj⟩ := of_role (P := fun x => x = .handing f) hj
    · exact absurd hj (notHanding f)
    · rw [finalized]
      exact h.handing j f hj
  · exact absurd (finalized.trans hnone) hsome
  · obtain rfl := honly a ha
    rw [stored, update_self] at ha
    exact spaces ha (session ▸ hspaces)

/-- A completion hands its result on. -/
theorem Completions.finish (h : s.Completions) {f : Finalized}
    (hkey : (s.role i).key = some f.storageKey) (session : t.session = s.session)
    (registered : t.registered = false) (stored : t.stored f.storageKey = true)
    (others : ∀ b, t.stored b = true → b = f.storageKey) (job : t.job = s.job)
    (finalized : t.finalized = s.finalized ++ [f])
    (requests : t.requests = update s.requests i (some (.insertJob f)))
    (spaces : s.session.backend = .spaces → f.storageKey = 0) : t.Completions := by
  have role : t.role = update s.role i (.handing f) := role_of_update requests
  obtain ⟨hnone, -⟩ := h.alone i _ hkey
  rw [hnone, List.nil_append] at finalized
  have hidle : ∀ j, (t.role j).key = none := by
    intro j
    rw [role]
    by_cases hj : j = i
    · rw [hj, update_self]
      rfl
    · rw [update_of_ne hj]
      by_contra hsome
      obtain ⟨a, ha⟩ := Option.ne_none_iff_exists'.mp hsome
      exact hj (h.exclusive j i a _ ha hkey)
  have hnokey : ∀ {j r}, t.role j = r → r.key ≠ none → False :=
    fun {j _} hj hr => hr (hj ▸ hidle j)
  refine ⟨⟨by rw [finalized]; exact Nat.le_refl _,
    fun a b ha hb => (others a ha).trans (others b hb).symm, fun g hg => ?_, fun g hg => ?_⟩,
    fun j k a b hj _ => absurd (hj.symm.trans (hidle j)) (by simp),
    fun j a hj => absurd (hj.symm.trans (hidle j)) (by simp),
    fun j a hj => (hnokey hj (by simp [Role.key])).elim,
    fun j a hj => (hnokey hj (by simp [Role.key])).elim, fun j g hj => ?_, fun _ => registered,
    fun hspaces a ha => ?_⟩
  · rw [job] at hg
    exact absurd (hnone ▸ h.job g hg) List.not_mem_nil
  · rw [finalized] at hg
    obtain rfl := List.mem_singleton.mp hg
    exact .inl stored
  · rw [role] at hj
    obtain ⟨-, hj⟩ | ⟨hji, hj⟩ := of_role (P := fun x => x = .handing g) hj
    · obtain rfl := Role.handing.inj hj
      rw [finalized]
      exact List.mem_singleton.mpr rfl
    · exact absurd (hnone ▸ h.handing j g hj) List.not_mem_nil
  · rw [session] at hspaces
    exact (others a ha).trans (spaces hspaces)

/-- After a result was handed on, nothing is at work on another. -/
theorem Completions.key_eq_none (h : s.Completions) (some : s.finalized ≠ []) (i : Nat) :
    (s.role i).key = none := by
  by_contra hsome
  obtain ⟨a, ha⟩ := Option.ne_none_iff_exists'.mp hsome
  exact some (h.alone i a ha).1

/-- The route queues the job of the result, or deletes its object. -/
theorem Completions.hand (h : s.Completions) {f : Finalized} {new : Role}
    (handing : s.role i = .handing f) (session : t.session = s.session)
    (registered : t.registered = s.registered)
    (stored : ∀ b, t.stored b = true → s.stored b = true)
    (job : ∀ g, t.job = some g → g ∈ s.finalized) (finalized : t.finalized = s.finalized)
    (kept : t.stored f.storageKey = s.stored f.storageKey ∨ f.storageKey ∈ t.discarded)
    (discarded : ∀ b ∈ s.discarded, b ∈ t.discarded)
    (role : t.role = update s.role i new) (fewer : new = .idle ∨ new = .handing f) :
    t.Completions := by
  have hf := h.handing i f handing
  have hsome : s.finalized ≠ [] := List.ne_nil_of_mem hf
  have hnew : ∀ {j r}, t.role j = r → r = .idle ∨ r = .handing f ∨ s.role j = r := by
    intro j r hj
    rw [role] at hj
    obtain ⟨-, hj⟩ | ⟨-, hj⟩ := of_role (P := fun x => x = r) hj
    · exact fewer.imp (hj ▸ ·) fun hnew => .inl (hj ▸ hnew)
    · exact .inr (.inr hj)
  have hidle : ∀ j, (t.role j).key = none := by
    intro j
    obtain hj | hj | hj := hnew (j := j) rfl
    · rw [hj]
      rfl
    · rw [hj]
      rfl
    · rw [← hj]
      exact h.key_eq_none hsome j
  have hnokey : ∀ {j r}, t.role j = r → r.key ≠ none → False :=
    fun {j _} hj hr => hr (hj ▸ hidle j)
  refine ⟨⟨by rw [finalized]; exact h.one,
    fun a b ha hb => h.stored a b (stored a ha) (stored b hb),
    fun g hg => by rw [finalized]; exact job g hg, fun g hg => ?_⟩,
    fun j k a b hj _ => absurd (hj.symm.trans (hidle j)) (by simp),
    fun j a hj => absurd (hj.symm.trans (hidle j)) (by simp),
    fun j a hj => (hnokey hj (by simp [Role.key])).elim,
    fun j a hj => (hnokey hj (by simp [Role.key])).elim, fun j g hj => ?_, fun _ => ?_,
    fun hspaces a ha => h.spaces (session ▸ hspaces) a (stored a ha)⟩
  · rw [finalized] at hg
    -- there is one result
    obtain rfl : g = f := by
      obtain ⟨r, hr⟩ := List.length_eq_one_iff.mp
        (Nat.le_antisymm h.one (List.length_pos_of_mem hf))
      rw [hr] at hg hf
      exact (List.mem_singleton.mp hg).trans (List.mem_singleton.mp hf).symm
    obtain hstays | hgone := kept
    · rw [hstays]
      exact (h.kept g hg).imp_right (discarded _)
    · exact .inr hgone
  · rw [finalized]
    obtain hj | hj | hj := hnew hj
    · exact absurd hj (by simp)
    · obtain rfl := Role.handing.inj hj
      exact hf
    · exact h.handing j g hj
  · rw [registered]
    exact h.closed hsome

/-! ### One step, and a run -/

/-- Where nothing but the phase changes, the role stays, is given up, or fails. -/
theorem Goes.role {phase : RequestPhase} {new : Option RequestPhase} (h : s.Goes phase new) :
    (new.map RequestPhase.role).getD .idle = .idle ∨
      (new.map RequestPhase.role).getD .idle = phase.role ∨
      ∃ a, (new.map RequestPhase.role).getD .idle = .failing a ∧ phase.role.key = some a := by
  cases h with
  | statFailed | putFailed | unlinkFailed | outputMissing | multipartFailed | selectJob =>
    exact .inl rfl
  | nextFile | lastFile | copied | statOutput | insertFailed | selectFailed => exact .inr (.inl rfl)
  | openFailed | nextFailed | copyFailed => exact .inr (.inr ⟨_, rfl, rfl⟩)

/-- The files are removed, and the result is handed on. -/
theorem completions_removeChunks (h : s.Completions) {f : Finalized}
    (hrole : s.role i = .assembling f.storageKey) (ok : Bool) :
    ((s.removeDir ok).finish i f).Completions := by
  have hkey : (s.role i).key = some f.storageKey := by rw [hrole]; rfl
  obtain ⟨-, honly⟩ := h.alone i _ hkey
  have hstored := h.assembling i _ hrole
  have hspaces : s.session.backend = .spaces → f.storageKey = 0 :=
    fun hspaces => h.spaces hspaces _ hstored
  cases ok with
  | true => exact h.finish hkey rfl rfl hstored honly rfl rfl rfl hspaces
  | false => exact h.finish hkey rfl rfl hstored honly rfl rfl rfl hspaces

/-- The object store put the parts together, and the result is handed on. -/
theorem completions_completeMultipart (h : s.Completions) (hrole : s.role i = .multipart)
    {f : Finalized} (hf : f.storageKey = 0) :
    ({ s with stored := update s.stored 0 true }.finish i f).Completions := by
  have hkey : (s.role i).key = some f.storageKey := by
    rw [hrole, hf]
    rfl
  have hthere : update s.stored 0 true f.storageKey = true := by rw [hf, update_self]
  refine h.finish hkey rfl rfl hthere (fun b hb => ?_) rfl rfl rfl fun _ => hf
  by_contra hne
  have hold : s.stored b = true := (update_of_ne (hf ▸ hne) _ _).symm.trans hb
  exact hne ((h.alone i _ hkey).2 b hold)

/-- The job of the result is queued, unless there is one. -/
theorem completions_insertJob (h : s.Completions) {f : Finalized}
    (hrole : s.role i = .handing f) : (s.insertJob i f).Completions := by
  refine h.hand hrole rfl rfl (fun _ => id) (fun g hg => ?_) rfl (.inl rfl) (fun _ => id)
    (role_of_update rfl) (.inr rfl)
  obtain rfl : s.job.getD f = g := Option.some.inj hg
  cases hjob : s.job with
  | none => exact h.handing i f hrole
  | some g => exact h.job g hjob

/-- The orphan clean-up. -/
theorem completions_deleteStored (h : s.Completions) {f : Finalized}
    (hrole : s.role i = .handing f) (ok : Bool) :
    ({ s.deleteObject f.storageKey ok with
      discarded := s.discarded ++ [f.storageKey] }.endRequest i).Completions := by
  have hshrinks : ∀ b, (s.deleteObject f.storageKey ok).stored b = true → s.stored b = true := by
    intro b hb
    cases ok with
    | false => exact hb
    | true =>
      by_cases hbf : b = f.storageKey
      · rw [hbf] at hb
        exact absurd hb (by simp [deleteObject])
      · exact (update_of_ne hbf _ _).symm.trans hb
  have hin : f.storageKey ∈ s.discarded ++ [f.storageKey] := by simp
  cases ok <;>
    exact h.hand hrole rfl rfl hshrinks h.job rfl (.inr hin) (fun _ => List.mem_append_left _)
      (role_of_update rfl) (.inl rfl)

theorem completions_resume (h : s.Completions) {phase : RequestPhase}
    (hphase : s.requests i = some phase) (resumes : s.Resumes i phase t) : t.Completions := by
  have hrole := role_of_phase hphase
  cases resumes with
  | goes hgoes =>
    refine h.frame ⟨rfl, id, rfl, rfl, rfl, rfl⟩ (role_of_update rfl) ?_
    rw [hrole]
    exact hgoes.role
  | openChunk | openFailed | received | receiveFailed | statChunk | putPart =>
    exact h.idle rfl ⟨rfl, id, rfl, rfl, rfl, rfl⟩ rfl
  | unlinkChunk ok => cases ok <;> exact h.idle rfl ⟨rfl, id, rfl, rfl, rfl, rfl⟩ rfl
  | openOutput =>
    refine h.store (by rw [hrole]; rfl) rfl rfl rfl rfl (role_of_update rfl) (.inr rfl)
      (by simp [RequestPhase.role]) (by simp [RequestPhase.role]) (fun b hb => ?_)
      fun _ hspaces => ?_
    · exact ⟨(Role.assembling.inj hb).symm, rfl⟩
    · exact absurd (hspaces.symm.trans (h.opening i _ hrole)) (by simp)
  | unlinkOutput =>
    exact h.store (by rw [hrole]; rfl) rfl rfl rfl rfl (role_of_update rfl) (.inl rfl) (by simp)
      (by simp) (by simp) fun hthere => absurd hthere (by simp)
  | removeChunks ok => exact completions_removeChunks h hrole ok
  | completeMultipart => exact completions_completeMultipart h hrole rfl
  | insertJob => exact completions_insertJob h hrole
  | deleteStored ok => exact completions_deleteStored h hrole ok
  | abortMultipart => exact h.idle rfl ⟨rfl, by simp [endRequest], rfl, rfl, rfl, rfl⟩ rfl
  | abort ok => cases ok <;> exact h.idle rfl ⟨rfl, by simp [endRequest], rfl, rfl, rfl, rfl⟩ rfl

/-- **Step lemma.** -/
theorem completions_step (h : s.Completions) {event : UploadEvent} (alone : s.Alone event)
    (enabled : s.step event = some t) : t.Completions := by
  cases steps_of_step enabled with
  | refused => exact h
  | chunk | part | cleanup | receive => exact h.idle rfl ⟨rfl, id, rfl, rfl, rfl, rfl⟩ rfl
  | complete => exact completions_startComplete h alone
  | abort =>
    unfold startAbort
    split
    · exact h.idle rfl ⟨rfl, id, rfl, rfl, rfl, rfl⟩ rfl
    · exact h.idle rfl ⟨rfl, id, rfl, rfl, rfl, rfl⟩ rfl
  | copy _ hcopying =>
    exact h.frame ⟨rfl, id, rfl, rfl, rfl, rfl⟩ (role_of_update rfl)
      (.inr (.inl (role_of_phase hcopying).symm))
  | removeEntry =>
    have hrole : s.role = update s.role 0 (s.role 0) := update_eq_self .. |>.symm
    exact h.frame ⟨rfl, id, rfl, rfl, rfl, rfl⟩ hrole (.inr (.inl rfl))
  | @assemble i hmultipart =>
    have hrole := role_of_phase hmultipart
    have hsame : s.role = update s.role i .multipart := (update_eq_self_iff.mpr hrole.symm).symm
    exact h.store (by rw [hrole]; rfl) rfl rfl rfl rfl hsame (.inr rfl) (by simp) (by simp)
      (by simp) fun _ _ => rfl
  | resume hphase resumes => exact completions_resume h hphase resumes

/-- **An upload is completed once in runs of completions that keep apart.**  For every session and
    every interleaving of chunks, completions, aborts and clean-ups. -/
theorem atMostOnce_of_alone {session : UploadSession} {now : Int} {events : List UploadEvent}
    (run : Guarded step Alone (session.initial now) events t) : t.AtMostOnce := by
  have hinv : t.Completions := run.invariant (completions_initial session now)
    fun _ _ _ h alone enabled => completions_step h alone enabled
  exact hinv.toAtMostOnce

/-! ### One completion, and two -/

theorem atMostOnce_of_alone_twoBytes :
    ∃ t, Guarded step Alone (twoBytes.initial 0) (receiveBoth ++ completeWith 2) t ∧
      t.finalized = [⟨1, 2, ⟨1, [[1, 2]], [1, 2]⟩⟩] ∧ t.AtMostOnce := by
  have hrun : ∃ t, Guarded step Alone (twoBytes.initial 0) (receiveBoth ++ completeWith 2) t ∧
      t.finalized = [⟨1, 2, ⟨1, [[1, 2]], [1, 2]⟩⟩] := by
    refine ⟨_, .cons trivial step_twoBytes <| .cons trivial rfl <| .cons trivial rfl <|
      .cons trivial rfl <| .cons trivial rfl <| .cons ?_ rfl <| .cons trivial rfl <|
      .cons trivial rfl <| .cons trivial rfl <| .cons trivial rfl <| .cons trivial rfl <|
      .cons trivial rfl <| .cons trivial rfl .nil, ?_⟩
    · refine fun _ => ⟨fun i => ?_, fun _ _ => rfl⟩
      refine congrArg Role.key (role_of_none ?_)
      by_cases hi : i = 0
      · rw [hi]
        rfl
      · -- only one request was made
        exact (update_of_ne hi _ _).trans <| (update_of_ne hi _ _).trans <|
          (update_of_ne hi _ _).trans <| (update_of_ne hi _ _).trans (update_of_ne hi _ _)
    · rfl
  obtain ⟨t, hrun, hfinalized⟩ := hrun
  exact ⟨t, hrun, hfinalized, atMostOnce_of_alone hrun⟩

/-- **Counterexample.** Two calls of `completeUpload` for one session: both pass the check, both
    assemble a file and both succeed; the job is that of the first. -/
theorem not_atMostOnce_retried :
    ∃ t, exec step (twoBytes.initial 0) (receiveBoth ++ [.complete 1, .complete 2,
        .resume 1 true 4, .resume 2 true 4, .resume 1 true 5, .resume 2 true 5, .copy 1 2,
        .copy 2 2, .resume 1 true 6, .resume 2 true 6, .resume 1 true 7, .resume 2 true 7,
        .resume 1 true 8, .resume 2 true 8, .resume 1 true 9, .resume 2 true 9,
        .resume 1 true 10, .resume 2 true 10]) = some t ∧
      t.finalized.map Finalized.storageKey = [1, 2] ∧ t.stored 1 = true ∧ t.stored 2 = true ∧
      t.job.map Finalized.storageKey = some 1 ∧ ¬ t.AtMostOnce := by
  have hrun : (exec step (twoBytes.initial 0) (receiveBoth ++ [.complete 1, .complete 2,
      .resume 1 true 4, .resume 2 true 4, .resume 1 true 5, .resume 2 true 5, .copy 1 2,
      .copy 2 2, .resume 1 true 6, .resume 2 true 6, .resume 1 true 7, .resume 2 true 7,
      .resume 1 true 8, .resume 2 true 8, .resume 1 true 9, .resume 2 true 9,
      .resume 1 true 10, .resume 2 true 10])).map
        (fun t => (t.finalized.map Finalized.storageKey, t.stored 1, t.stored 2,
          t.job.map Finalized.storageKey)) = some ([1, 2], true, true, some 1) := by
    decide
  obtain ⟨t, ht, hfields⟩ := Option.map_eq_some_iff.mp hrun
  obtain ⟨hfinalized, hfirst, hsecond, hjob⟩ : t.finalized.map Finalized.storageKey = [1, 2] ∧
      t.stored 1 = true ∧ t.stored 2 = true ∧ t.job.map Finalized.storageKey = some 1 := by
    simpa using hfields
  refine ⟨t, ht, hfinalized, hfirst, hsecond, hjob, fun once => ?_⟩
  exact absurd (once.stored 1 2 hfirst hsecond) (by decide)

end ChunkedUpload

end Montr.Server
