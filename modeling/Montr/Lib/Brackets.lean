import Mathlib.Data.List.Chain

namespace Montr.Brackets

/-!
# Sessions in a log

An append-only log of sessions that are opened for somebody (with a key, or in vain) and closed
again, each closing perhaps on account of what somebody has done.

* `Mark.Follows` — what may stand after what: nothing but its own closing after an opening;
* `Paired` — a log in which each session is closed once and before the next is opened, and is
  closed as complete only on account of whom it was opened for;
* `pending` — the session that a log leaves open;
* `paired_append_opened`, `paired_append_closed` — one more mark.
-/

universe u v

inductive Mark (κ : Type u) (ι : Type v)
  /-- opened for somebody; without a key there is no session -/
  | opened (owner : ι) (key : Option κ)
  /-- closed, complete or not, when `cause` was done -/
  | closed (key : κ) (complete : Bool) (cause : ι)
  deriving DecidableEq, Repr

variable {κ : Type u} {ι : Type v}

namespace Mark

/-- The session that the mark leaves open. -/
def pending : Mark κ ι → Option (κ × ι)
  | .opened owner key => key.map fun k => (k, owner)
  | .closed _ _ _ => none

/-- The mark may come while the session is open. -/
def After (session : Option (κ × ι)) : Mark κ ι → Prop
  | .opened _ _ => session = none
  | .closed key complete cause =>
    session.map Prod.fst = some key ∧ (complete = true → session.map Prod.snd = some cause)

/-- The second mark may stand right after the first. -/
def Follows (a b : Mark κ ι) : Prop := b.After a.pending

instance [DecidableEq κ] [DecidableEq ι] (session : Option (κ × ι)) (m : Mark κ ι) :
    Decidable (m.After session) :=
  match m with
  | .opened _ _ => inferInstanceAs (Decidable (session = none))
  | .closed key complete cause => inferInstanceAs (Decidable (session.map Prod.fst = some key ∧
      (complete = true → session.map Prod.snd = some cause)))

instance [DecidableEq κ] [DecidableEq ι] : DecidableRel (Mark.Follows (κ := κ) (ι := ι)) :=
  fun a b => inferInstanceAs (Decidable (b.After a.pending))

end Mark

/-- **Each session is closed once, before the next is opened, and as complete only on account of
    its owner**; the last one may still be open. -/
structure Paired (log : List (Mark κ ι)) : Prop where
  head : ∀ m ∈ log.head?, m.After none
  chain : log.IsChain Mark.Follows

/-- The session that is still open. -/
def pending (log : List (Mark κ ι)) : Option (κ × ι) := log.getLast?.bind Mark.pending

section

variable {log : List (Mark κ ι)}

theorem paired_nil : Paired ([] : List (Mark κ ι)) := by
  refine ⟨fun m hm => ?_, .nil⟩
  cases hm

theorem pending_append (m : Mark κ ι) : pending (log ++ [m]) = m.pending := by
  rw [pending, List.getLast?_concat]
  rfl

/-- **One more mark.** -/
theorem paired_append (m : Mark κ ι) :
    Paired (log ++ [m]) ↔ Paired log ∧ m.After (pending log) := by
  cases hlast : log.getLast? with
  | none =>
    obtain rfl := List.getLast?_eq_none_iff.mp hlast
    refine ⟨fun h => ⟨paired_nil, h.head m rfl⟩, fun ⟨_, h⟩ => ⟨fun m' hm' => ?_, .singleton m⟩⟩
    cases hm'
    exact h
  | some last =>
    have hpending : pending log = last.pending := by
      rw [pending, hlast]
      rfl
    have hhead : (log ++ [m]).head? = log.head? := by
      cases log with
      | nil => cases hlast
      | cons a rest => rfl
    have hchain : (log ++ [m]).IsChain Mark.Follows ↔
        log.IsChain Mark.Follows ∧ m.After last.pending := by
      rw [List.isChain_append, hlast]
      constructor
      · rintro ⟨h, -, hfollows⟩
        exact ⟨h, hfollows last rfl m rfl⟩
      · rintro ⟨h, hafter⟩
        refine ⟨h, .singleton m, fun a ha b hb => ?_⟩
        cases ha
        cases hb
        exact hafter
    rw [hpending]
    constructor
    · intro h
      obtain ⟨hrest, hafter⟩ := hchain.mp h.chain
      exact ⟨⟨hhead ▸ h.head, hrest⟩, hafter⟩
    · rintro ⟨h, hafter⟩
      exact ⟨hhead ▸ h.head, hchain.mpr ⟨h.chain, hafter⟩⟩

theorem paired_append_opened (owner : ι) (key : Option κ) :
    Paired (log ++ [.opened owner key]) ↔ Paired log ∧ pending log = none :=
  paired_append _

/-- Closing the open session. -/
theorem paired_append_closed {key : κ} {owner : ι} (hopen : pending log = some (key, owner))
    (complete : Bool) (cause : ι) :
    Paired (log ++ [.closed key complete cause]) ↔
      Paired log ∧ (complete = true → cause = owner) := by
  rw [paired_append, hopen]
  apply and_congr_right
  intro _
  constructor
  · rintro ⟨-, hcause⟩ h
    exact (Option.some.inj (hcause h)).symm
  · intro hcause
    exact ⟨rfl, fun h => congrArg some (hcause h).symm⟩

end

end Montr.Brackets
