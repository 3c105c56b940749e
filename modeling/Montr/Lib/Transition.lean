import Mathlib.Data.List.Nodup
import Mathlib.Logic.Function.Basic

namespace Montr.Transition

/-!
# Finite runs of a labelled transition system

A system is given by a partial step function `step : σ → α → Option σ`: `none` when the
label is not enabled in the state.  This file supplies

* `exec` — the executable run over a list of labels;
* `Guarded step C s₀ as t` — a run from `s₀` to `t` under the labels `as`, every step of
  which meets the condition `C` on the state before it and its label;
* `Reaches` — the unconditioned case;
* `guarded_of_exec` — a run by execution, the condition tested at every step;
* `Guarded.invariant` — the induction rule: what holds at the start and is kept by every
  step that meets `C` holds in every state reached;
* `Throughout step P s as` — `P` holds after every prefix of the execution, with the
  one-step unfolding `throughout_cons`;
* `Each step P s as` — `P` holds of every state and label passed through;
* `throughout_iff_each`, `throughout_and_each_iff` — what a step decides, a run decides step by
  step;
* `foldlM_keeps`, `foldlM_reaches`, `foldlM_split` — the rules for a loop that may fail half-way;
* `of_update`, `SomeTask` — the tasks of a system after one of them went on.

Every prefix of a run is a run, so a statement about the final state of every run is a
statement about every state the system passes through.
-/

universe u v

variable {σ : Type u} {α : Type v}

/-- Run the labels in order; `none` as soon as one is not enabled. -/
def exec (step : σ → α → Option σ) : σ → List α → Option σ
  | s, [] => some s
  | s, a :: as => (step s a).bind fun t => exec step t as

/-- Executions compose. -/
theorem exec_append (step : σ → α → Option σ) (s : σ) (as bs : List α) :
    exec step s (as ++ bs) = (exec step s as).bind fun t => exec step t bs := by
  induction as generalizing s with
  | nil => rfl
  | cons a as ih =>
    show (step s a).bind (fun t => exec step t (as ++ bs)) = _
    simp only [ih, exec, Option.bind_assoc]

/-- A run from `s₀` whose steps all meet the condition `C` (state before, label). -/
inductive Guarded (step : σ → α → Option σ) (C : σ → α → Prop) (s₀ : σ) : List α → σ → Prop
  | nil : Guarded step C s₀ [] s₀
  | snoc {as : List α} {s t : σ} {a : α} (run : Guarded step C s₀ as s) (meets : C s a)
      (enabled : step s a = some t) : Guarded step C s₀ (as ++ [a]) t

/-- A run with no condition on its steps. -/
abbrev Reaches (step : σ → α → Option σ) (s₀ : σ) (as : List α) (t : σ) : Prop :=
  Guarded step (fun _ _ => True) s₀ as t

section

variable {step : σ → α → Option σ} {C D : σ → α → Prop} {s₀ s t : σ} {as bs : List α}

/-- **Invariant rule.** A property of the start that every conditioned step keeps holds in
    every state reached. -/
theorem Guarded.invariant {Inv : σ → Prop} (start : Inv s₀)
    (keep : ∀ s a t, Inv s → C s a → step s a = some t → Inv t)
    (run : Guarded step C s₀ as t) : Inv t := by
  induction run with
  | nil => exact start
  | snoc _ meets enabled ih => exact keep _ _ _ ih meets enabled

/-- Runs compose. -/
theorem Guarded.append (first : Guarded step C s₀ as s) (second : Guarded step C s bs t) :
    Guarded step C s₀ (as ++ bs) t := by
  induction second with
  | nil => simpa using first
  | snoc _ meets enabled ih =>
    rw [← List.append_assoc]
    exact .snoc ih meets enabled

/-- One step in front of a run. -/
theorem Guarded.cons {a : α} (meets : C s₀ a) (enabled : step s₀ a = some s)
    (run : Guarded step C s as t) : Guarded step C s₀ (a :: as) t :=
  Guarded.append (.snoc .nil meets enabled) run

theorem eq_of_guarded_nil (run : Guarded step C s₀ [] t) : t = s₀ := by
  generalize hlabels : ([] : List α) = labels at run
  cases run with
  | nil => rfl
  | snoc => exact absurd hlabels (by simp)

/-- A run with a first label is a step and a run. -/
theorem guarded_cons {a : α} : Guarded step C s₀ (a :: as) t ↔
    ∃ s, C s₀ a ∧ step s₀ a = some s ∧ Guarded step C s as t := by
  constructor
  · intro run
    generalize hlabels : a :: as = labels at run
    induction run generalizing as with
    | nil => exact absurd hlabels (List.cons_ne_nil _ _)
    | @snoc before _ _ _ run meets enabled ih =>
      cases before with
      | nil =>
        obtain ⟨rfl, rfl⟩ := List.cons.inj hlabels
        obtain rfl := eq_of_guarded_nil run
        exact ⟨_, meets, enabled, .nil⟩
      | cons c before =>
        obtain ⟨rfl, rfl⟩ := List.cons.inj hlabels
        obtain ⟨s, hmeets, hfirst, hrest⟩ := ih rfl
        exact ⟨s, hmeets, hfirst, hrest.snoc meets enabled⟩
  · rintro ⟨s, meets, enabled, run⟩
    exact .cons meets enabled run

/-- An execution that tests the condition before every step is a run whose steps meet it. -/
theorem guarded_of_exec [∀ s a, Decidable (C s a)]
    (h : exec (fun s a => if C s a then step s a else none) s₀ as = some t) :
    Guarded step C s₀ as t := by
  induction as generalizing s₀ with
  | nil =>
    obtain rfl : s₀ = t := by simpa [exec] using h
    exact .nil
  | cons a as ih =>
    obtain ⟨s, hstep, hrest⟩ := Option.bind_eq_some_iff.mp (by simpa only [exec] using h)
    obtain ⟨hmeets, henabled⟩ := Option.ite_none_right_eq_some.mp hstep
    exact .cons hmeets henabled (ih hrest)

/-- A successful execution is a run. -/
theorem reaches_of_exec (h : exec step s₀ as = some t) : Reaches step s₀ as t := by
  apply guarded_of_exec
  simpa only [if_true] using h

/-! ### Properties of every state passed through -/

/-- `P` holds in every state the execution of `as` from `s` passes through. -/
def Throughout (step : σ → α → Option σ) (P : σ → Prop) (s : σ) (as : List α) : Prop :=
  ∀ pre, pre <+: as → ∀ t, exec step s pre = some t → P t

variable {P : σ → Prop}

theorem Throughout.start (h : Throughout step P s as) : P s := h [] List.nil_prefix s rfl

theorem throughout_nil : Throughout step P s [] ↔ P s := by
  refine ⟨Throughout.start, fun h pre hpre t ht => ?_⟩
  obtain rfl : pre = [] := List.prefix_nil.mp hpre
  obtain rfl : s = t := by simpa [exec] using ht
  exact h

/-- After an enabled first step the property is checked here and along the rest. -/
theorem throughout_cons {a : α} (enabled : step s a = some t) :
    Throughout step P s (a :: as) ↔ P s ∧ Throughout step P t as := by
  constructor
  · intro h
    refine ⟨h.start, fun pre hpre u hu => ?_⟩
    exact h (a :: pre) (by simpa using hpre) u (by simpa [exec, enabled] using hu)
  · rintro ⟨h0, h⟩ pre hpre u hu
    cases pre with
    | nil =>
      obtain rfl : s = u := by simpa [exec] using hu
      exact h0
    | cons b pre =>
      obtain ⟨rfl, hpre'⟩ := List.cons_prefix_cons.mp hpre
      exact h pre hpre' u (by simpa [exec, enabled] using hu)

/-! ### Tasks -/

/-- A task after an update is the new one or an old one. -/
theorem of_update {ι τ : Type*} [DecidableEq ι] {tasks : ι → Option τ} {new : Option τ} {i j : ι}
    {task : τ} (h : Function.update tasks i new j = some task) :
    j = i ∧ new = some task ∨ j ≠ i ∧ tasks j = some task := by
  by_cases hj : j = i
  · rw [hj, Function.update_self] at h
    exact .inl ⟨hj, h⟩
  · rw [Function.update_of_ne hj] at h
    exact .inr ⟨hj, h⟩

/-- Some task is in a state with `P`. -/
def SomeTask {ι τ : Type*} (tasks : ι → Option τ) (P : τ → Prop) : Prop :=
  ∃ i task, tasks i = some task ∧ P task

/-- If some task is in such a state after an update, the new one is or one was before. -/
theorem SomeTask.of_update {ι τ : Type*} [DecidableEq ι] {tasks : ι → Option τ}
    {new : Option τ} {i : ι} {P : τ → Prop} (h : SomeTask (Function.update tasks i new) P) :
    (∃ task, new = some task ∧ P task) ∨ SomeTask tasks P := by
  obtain ⟨j, task, htask, hP⟩ := h
  rcases Transition.of_update htask with ⟨-, hnew⟩ | ⟨-, hold⟩
  · exact .inl ⟨task, hnew, hP⟩
  · exact .inr ⟨j, task, hold, hP⟩

/-- A task in such a state is still there after an update, unless it is the one updated. -/
theorem SomeTask.update {ι τ : Type*} [DecidableEq ι] {tasks : ι → Option τ} {i : ι}
    {P : τ → Prop} (h : SomeTask tasks P) (new : Option τ)
    (other : ∀ task, tasks i = some task → ¬ P task) :
    SomeTask (Function.update tasks i new) P := by
  obtain ⟨j, task, htask, hP⟩ := h
  have hj : j ≠ i := fun heq => other task (by rw [← heq, htask]) hP
  exact ⟨j, task, by rw [Function.update_of_ne hj, htask], hP⟩

/-- The updated task itself. -/
theorem someTask_update_self {ι τ : Type*} [DecidableEq ι] {tasks : ι → Option τ} {task : τ}
    (i : ι) {P : τ → Prop} (h : P task) : SomeTask (Function.update tasks i (some task)) P :=
  ⟨i, task, Function.update_self .., h⟩

/-! ### Loops -/

/-- What every turn of a loop keeps, the loop keeps. -/
theorem foldlM_keeps {f : σ → α → Option σ} (start : P s)
    (keep : ∀ s a t, a ∈ as → P s → f s a = some t → P t) (h : as.foldlM f s = some t) : P t := by
  induction as generalizing s with
  | nil =>
    obtain rfl : s = t := by simpa using h
    exact start
  | cons a as ih =>
    obtain ⟨u, hturn, hrest⟩ := Option.bind_eq_some_iff.mp h
    exact ih (keep s a u List.mem_cons_self start hturn)
      (fun s b t hb => keep s b t (List.mem_cons_of_mem a hb)) hrest

/-- What the turn of one element brings about and every turn keeps holds after a loop over a list
    with the element. -/
theorem foldlM_reaches {f : σ → α → Option σ} {a : α} (mem : a ∈ as)
    (hit : ∀ s t, f s a = some t → P t) (keep : ∀ s b t, P s → f s b = some t → P t)
    (h : as.foldlM f s = some t) : P t := by
  induction as generalizing s with
  | nil => exact absurd mem List.not_mem_nil
  | cons b as ih =>
    obtain ⟨u, hturn, hrest⟩ := Option.bind_eq_some_iff.mp h
    rcases List.mem_cons.mp mem with rfl | hmem
    · exact foldlM_keeps (hit s u hturn) (fun s b t _ => keep s b t) hrest
    · exact ih hmem hrest

/-- **The last turn that matters decides.**  Under an invariant of the loop, what the turn of `a`
    brings about holds after a loop whose later turns keep it; the elements stand in an order. -/
theorem foldlM_last {Inv : σ → Prop} {f : σ → α → Option σ} {R : α → α → Prop} {a : α}
    (order : as.Pairwise R) (mem : a ∈ as) (inv : Inv s)
    (keepInv : ∀ s b t, b ∈ as → Inv s → f s b = some t → Inv t)
    (hit : ∀ s t, Inv s → f s a = some t → P t)
    (keep : ∀ s b t, R a b → b ∈ as → Inv s → P s → f s b = some t → P t)
    (h : as.foldlM f s = some t) : P t := by
  induction as generalizing s with
  | nil => exact absurd mem List.not_mem_nil
  | cons b as ih =>
    obtain ⟨u, hturn, hrest⟩ := Option.bind_eq_some_iff.mp h
    obtain ⟨hbefore, hlater⟩ := List.pairwise_cons.mp order
    have hinv := keepInv s b u List.mem_cons_self inv hturn
    have hkeepInv := fun s c t hc => keepInv s c t (List.mem_cons_of_mem b hc)
    by_cases hmem : a ∈ as
    · exact ih hlater hmem hinv hkeepInv
        (fun s c t hR hc => keep s c t hR (List.mem_cons_of_mem b hc)) hrest
    · -- the turn of `a` is this one
      obtain rfl : a = b := (List.mem_cons.mp mem).resolve_right hmem
      refine (foldlM_keeps (P := fun s => Inv s ∧ P s) ⟨hinv, hit s u inv hturn⟩
        (fun s c t hc hs hturn => ?_) hrest).2
      have hcons := List.mem_cons_of_mem a hc
      exact ⟨keepInv s c t hcons hs.1 hturn, keep s c t (hbefore c hc) hcons hs.1 hs.2 hturn⟩

/-- The one place of an element in a list without repetitions. -/
theorem split_of_nodup {a : α} (distinct : as.Nodup) (mem : a ∈ as) :
    ∃ before after, as = before ++ a :: after ∧ a ∉ before ∧ a ∉ after := by
  obtain ⟨before, after, rfl⟩ := List.append_of_mem mem
  have hfresh := (List.nodup_cons.mp (List.nodup_middle.mp distinct)).1
  rw [List.mem_append, not_or] at hfresh
  exact ⟨before, after, rfl, hfresh⟩

/-- A loop over distinct elements: the turns before that of `a`, its own, and those after it. -/
theorem foldlM_split {f : σ → α → Option σ} {a : α} (distinct : as.Nodup) (mem : a ∈ as)
    (h : as.foldlM f s = some t) :
    ∃ (before after : List α) (u v : σ), a ∉ before ∧ a ∉ after ∧
      before.foldlM f s = some u ∧ f u a = some v ∧ after.foldlM f v = some t := by
  obtain ⟨before, after, rfl, hbefore, hafter⟩ := split_of_nodup distinct mem
  rw [List.foldlM_append] at h
  obtain ⟨u, hfirst, hrest⟩ := Option.bind_eq_some_iff.mp h
  rw [List.foldlM_cons] at hrest
  obtain ⟨v, hturn, hlast⟩ := Option.bind_eq_some_iff.mp hrest
  exact ⟨before, after, u, v, hbefore, hafter, hfirst, hturn, hlast⟩

/-- A loop of turns that succeed under an invariant succeeds. -/
theorem foldlM_isSome {f : σ → α → Option σ} (start : P s)
    (turn : ∀ s a, a ∈ as → P s → ∃ t, f s a = some t ∧ P t) :
    ∃ t, as.foldlM f s = some t ∧ P t := by
  induction as generalizing s with
  | nil => exact ⟨s, rfl, start⟩
  | cons a as ih =>
    obtain ⟨u, hturn, hu⟩ := turn s a List.mem_cons_self start
    obtain ⟨t, hrest, ht⟩ := ih hu fun s b hb => turn s b (List.mem_cons_of_mem a hb)
    exact ⟨t, by rw [List.foldlM_cons, hturn]; exact hrest, ht⟩

/-! ### Properties of every step taken -/

/-- `P` holds of every state and the label taken in it. -/
def Each (step : σ → α → Option σ) (P : σ → α → Prop) : σ → List α → Prop
  | _, [] => True
  | s, a :: as => P s a ∧ ∀ t, step s a = some t → Each step P t as

/-- Properties equivalent at every step are equivalent along every run. -/
theorem each_congr (h : ∀ s a, C s a ↔ D s a) : Each step C s as ↔ Each step D s as := by
  induction as generalizing s with
  | nil => exact Iff.rfl
  | cons a as ih =>
    constructor
    · rintro ⟨h0, hrest⟩
      exact ⟨(h s a).mp h0, fun t ht => ih.mp (hrest t ht)⟩
    · rintro ⟨h0, hrest⟩
      exact ⟨(h s a).mpr h0, fun t ht => ih.mpr (hrest t ht)⟩

/-- What holds of everything holds along every run. -/
theorem each_of_forall (h : ∀ s a, C s a) : Each step C s as := by
  induction as generalizing s with
  | nil => trivial
  | cons a as ih => exact ⟨h s a, fun _ _ => ih⟩

/-- **Exactness rule.** If under the invariant a step from a state with `P` keeps `P` and has `D`
    exactly when it meets `C`, then a run keeps both exactly when every step meets `C`. -/
theorem throughout_and_each_iff {Inv : σ → Prop}
    (keep : ∀ s a t, Inv s → step s a = some t → Inv t)
    (decides : ∀ s a t, Inv s → P s → step s a = some t → (P t ∧ D s a ↔ C s a))
    (inv : Inv s) (start : P s) (run : exec step s as = some t) :
    Throughout step P s as ∧ Each step D s as ↔ Each step C s as := by
  induction as generalizing s with
  | nil => exact ⟨fun _ => trivial, fun _ => ⟨throughout_nil.mpr start, trivial⟩⟩
  | cons a as ih =>
    obtain ⟨u, hstep, hrest⟩ := Option.bind_eq_some_iff.mp (by simpa only [exec] using run)
    have hinv := keep s a u inv hstep
    have hexact := decides s a u inv start hstep
    rw [throughout_cons hstep]
    constructor
    · rintro ⟨⟨-, h⟩, hD, hDrest⟩
      refine ⟨hexact.mp ⟨h.start, hD⟩, fun v hv => ?_⟩
      obtain rfl := Option.some.inj (hstep.symm.trans hv)
      exact (ih hinv h.start hrest).mp ⟨h, hDrest u hstep⟩
    · rintro ⟨hC, h⟩
      obtain ⟨hP, hD⟩ := hexact.mpr hC
      obtain ⟨hthroughout, hDrest⟩ := (ih hinv hP hrest).mpr (h u hstep)
      refine ⟨⟨start, hthroughout⟩, hD, fun v hv => ?_⟩
      obtain rfl := Option.some.inj (hstep.symm.trans hv)
      exact hDrest

/-- The same where a step only has to keep `P`. -/
theorem throughout_iff_each {Inv : σ → Prop}
    (keep : ∀ s a t, Inv s → step s a = some t → Inv t)
    (decides : ∀ s a t, Inv s → P s → step s a = some t → (P t ↔ C s a))
    (inv : Inv s) (start : P s) (run : exec step s as = some t) :
    Throughout step P s as ↔ Each step C s as := by
  have hboth := throughout_and_each_iff (D := fun _ _ => True) keep
    (fun s a t hinv hP h => (and_iff_left trivial).trans (decides s a t hinv hP h)) inv start run
  exact (and_iff_left (each_of_forall fun _ _ => trivial)).symm.trans hboth

end

end Montr.Transition
