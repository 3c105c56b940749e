import Mathlib.Data.List.Basic
import Mathlib.Logic.Function.Basic
import Montr.Lib.Transition

namespace Montr.SharedConnection

open Function Transition

/-!
# Transactions of many requests on one connection

Requests issue statements on a single connection, and may be suspended between any two
statements.  `BEGIN`, `COMMIT` and `ROLLBACK` are statements of that connection too: there is
at most one open transaction, a second `BEGIN` is an error, and a `ROLLBACK` restores the
database as it was at the `BEGIN`, whoever wrote since.

* `Body` — what a transaction does between `BEGIN` and its end; a statement fails (`none`)
  without an effect, and its results choose what comes next;
* `Conn.step r` — request `r` runs up to its next suspension;
* `Conn.ledger` — a record of the statements executed, for the specification only;
* `Conn.Isolated` — the database is what the recorded statements give, less those of the
  transactions that were rolled back, and no transaction was refused;
* `isolated_of_exclusive` — runs in which no transaction begins inside another and no rolled
  back transaction had company are isolated;
* `runAlone` — a body with nobody else on the connection.

The database `σ` is arbitrary.
-/

universe u

variable {σ : Type u}

/-- What a transaction does: end, throw, or issue a statement and go on with its result. -/
inductive Body (σ : Type u)
  | ret
  | throw
  | stmt (run : σ → Option σ) (next : σ → Body σ)

/-- The state of a request. -/
inductive Proc (σ : Type u)
  /-- about to issue a single statement -/
  | execute (run : σ → Option σ)
  /-- about to issue `BEGIN` -/
  | transaction (body : Body σ)
  /-- inside its transaction, with the rest of its body -/
  | running (body : Body σ)
  | succeeded
  /-- a statement was an error -/
  | failed
  /-- its transaction threw and was rolled back -/
  | rolledBack
  /-- its `BEGIN` was an error -/
  | refused

/-- Whether the request has been rolled back. -/
def Proc.isRolledBack : Proc σ → Bool
  | rolledBack => true
  | _ => false

/-- Whether the request has issued its first statement. -/
def Proc.isStarted : Proc σ → Bool
  | execute _ => false
  | transaction _ => false
  | _ => true

/-- The open transaction: whose it is, the database at its `BEGIN`, and the length of the
    ledger then. -/
structure Tx (σ : Type u) where
  owner : Nat
  snapshot : σ
  mark : Nat

/-- An executed statement and the request that issued it. -/
abbrev Entry (σ : Type u) : Type u := Nat × (σ → Option σ)

/-- The connection and the requests on it. -/
structure Conn (σ : Type u) where
  initial : σ
  db : σ
  tx : Option (Tx σ)
  ledger : List (Entry σ)
  procs : Nat → Proc σ

namespace Conn

/-- No statement issued yet. -/
def start (db : σ) (procs : Nat → Proc σ) : Conn σ := ⟨db, db, none, [], procs⟩

/-- Only the request's own state changes. -/
def settle (s : Conn σ) (r : Nat) (p : Proc σ) : Conn σ :=
  { s with procs := update s.procs r p }

/-- A statement of the request was executed. -/
def record (s : Conn σ) (r : Nat) (run : σ → Option σ) (db : σ) (p : Proc σ) : Conn σ :=
  { s with db := db, ledger := s.ledger ++ [(r, run)], procs := update s.procs r p }

/-- `BEGIN`. -/
def begin (s : Conn σ) (r : Nat) (body : Body σ) : Conn σ :=
  { s with
    tx := some ⟨r, s.db, s.ledger.length⟩
    procs := update s.procs r (.running body) }

/-- Go on with a body up to the next suspension. -/
def issue (s : Conn σ) (r : Nat) : Body σ → Conn σ
  | .stmt run next =>
    match run s.db with
    | some db => s.record r run db (.running (next db))
    | none => s.settle r (.running .throw)
  | body => s.settle r (.running body)

/-- Request `r` runs up to its next suspension. -/
def step (s : Conn σ) (r : Nat) : Option (Conn σ) :=
  match s.procs r with
  | .execute run =>
    match run s.db with
    | some db => some (s.record r run db .succeeded)
    | none => some (s.settle r .failed)
  | .transaction body =>
    match s.tx with
    | some _ => some (s.settle r .refused)
    -- the body runs to its first suspension together with `BEGIN`
    | none => some ((s.begin r body).issue r body)
  | .running .ret =>
    match s.tx with
    | some _ => some { s.settle r .succeeded with tx := none }
    | none => some (s.settle r .failed)
  | .running .throw =>
    match s.tx with
    | some tx => some { s.settle r .rolledBack with tx := none, db := tx.snapshot }
    | none => some (s.settle r .failed)
  | .running (.stmt run next) => some (s.issue r (.stmt run next))
  | _ => none

/-- The database the entries give. -/
def replay (d : σ) (entries : List (Entry σ)) : σ :=
  entries.foldl (fun d e => (e.2 d).getD d) d

/-- The entries of requests that have not been rolled back. -/
def live (s : Conn σ) (entries : List (Entry σ)) : List (Entry σ) :=
  entries.filter fun e => !(s.procs e.1).isRolledBack

/-- **Isolation.** The database holds exactly the statements of the requests that were not
    rolled back, and no `BEGIN` was refused. -/
def Isolated (s : Conn σ) : Prop :=
  s.db = replay s.initial (s.live s.ledger) ∧ ∀ r, s.procs r ≠ .refused

/-- The step begins no transaction inside another, and rolls back only a transaction in whose
    course no other request executed a statement. -/
def Exclusive (s : Conn σ) (r : Nat) : Prop :=
  (∀ body, s.procs r = .transaction body → s.tx = none) ∧
  (s.procs r = .running .throw →
    ∀ tx, s.tx = some tx → ∀ e ∈ s.ledger.drop tx.mark, e.1 = r)

/-! ### Small lemmas -/

theorem replay_append (d : σ) (es : List (Entry σ)) (e : Entry σ) :
    replay d (es ++ [e]) = (e.2 (replay d es)).getD (replay d es) := by
  simp [replay, List.foldl_append]

theorem live_append (s : Conn σ) (es fs : List (Entry σ)) :
    s.live (es ++ fs) = s.live es ++ s.live fs := List.filter_append ..

/-- A request that changes between two states neither of which is rolled back keeps its
    entries live. -/
theorem live_update {s t : Conn σ} {r : Nat} {p : Proc σ} (procs : t.procs = update s.procs r p)
    (before : (s.procs r).isRolledBack = false) (after : p.isRolledBack = false)
    (es : List (Entry σ)) : t.live es = s.live es := by
  refine List.filter_congr fun e _ => ?_
  rw [procs]
  by_cases h : e.1 = r
  · rw [h, update_self, before, after]
  · rw [update_of_ne h]

/-! ### The invariant -/

/-- What every exclusive run keeps. -/
structure Inv (s : Conn σ) : Prop where
  db_eq : s.db = replay s.initial (s.live s.ledger)
  not_refused : ∀ r, s.procs r ≠ .refused
  /-- whoever is inside a transaction owns the open one -/
  owner_of_running : ∀ r body, s.procs r = .running body → ∃ tx, s.tx = some tx ∧ tx.owner = r
  running_of_owner : ∀ tx, s.tx = some tx → ∃ body, s.procs tx.owner = .running body
  mark_le : ∀ tx, s.tx = some tx → tx.mark ≤ s.ledger.length
  snapshot_eq : ∀ tx, s.tx = some tx →
    tx.snapshot = replay s.initial (s.live (s.ledger.take tx.mark))
  /-- the owner of the open transaction executed nothing before it began -/
  owner_fresh : ∀ tx, s.tx = some tx → ∀ e ∈ s.ledger.take tx.mark, e.1 ≠ tx.owner
  started : ∀ e ∈ s.ledger, (s.procs e.1).isStarted = true

variable {s t : Conn σ} {r : Nat}

theorem inv_start (db : σ) (procs : Nat → Proc σ) (pending : ∀ r, (procs r).isStarted = false) :
    Inv (start db procs) where
  db_eq := rfl
  not_refused r h := by
    have hp := pending r
    rw [show procs r = .refused from h] at hp
    exact Bool.noConfusion hp
  owner_of_running r body h := by
    have hp := pending r
    rw [show procs r = .running body from h] at hp
    exact Bool.noConfusion hp
  running_of_owner _ h := nomatch h
  mark_le _ h := nomatch h
  snapshot_eq _ h := nomatch h
  owner_fresh _ h := nomatch h
  started := by simp [start]

/-- Nobody is refused by the change of one request to a state that is no refusal. -/
theorem Inv.not_refused_update {p : Proc σ} (h : Inv s) (notRefused : p ≠ .refused) (x : Nat) :
    update s.procs r p x ≠ .refused := by
  by_cases hx : x = r
  · rw [hx, update_self]
    exact notRefused
  · rw [update_of_ne hx]
    exact h.not_refused x

/-- Whoever has an entry stays started. -/
theorem Inv.started_update {p : Proc σ} (h : Inv s) (started : p.isStarted = true) {e : Entry σ}
    (he : e ∈ s.ledger) : (update s.procs r p e.1).isStarted = true := by
  by_cases hx : e.1 = r
  · rw [hx, update_self]
    exact started
  · rw [update_of_ne hx]
    exact h.started e he

/-- A request's own state changes: into or out of a transaction it does not go, and neither
    state is a rollback. -/
theorem Inv.settle {p : Proc σ} (h : Inv s) (before : (s.procs r).isRolledBack = false)
    (after : p.isRolledBack = false) (started : p.isStarted = true) (notRefused : p ≠ .refused)
    (inside : (∃ body, s.procs r = .running body) ↔ ∃ body, p = .running body) :
    Inv (s.settle r p) := by
  have hlive := live_update (s := s) (t := s.settle r p) rfl before after
  have hother : ∀ x, x ≠ r → (s.settle r p).procs x = s.procs x := fun x hx =>
    update_of_ne hx _ _
  have hself : (s.settle r p).procs r = p := update_self ..
  constructor
  · show s.db = replay s.initial ((s.settle r p).live s.ledger)
    rw [hlive]
    exact h.db_eq
  · exact h.not_refused_update notRefused
  · intro x body hbody
    by_cases hx : x = r
    · subst hx
      rw [hself] at hbody
      -- it was inside before, as the owner
      obtain ⟨b, hb⟩ := inside.mpr ⟨body, hbody⟩
      exact h.owner_of_running x b hb
    · rw [hother x hx] at hbody
      exact h.owner_of_running x body hbody
  · intro tx htx
    by_cases hx : tx.owner = r
    · rw [hx, hself]
      exact inside.mp (hx ▸ h.running_of_owner tx htx)
    · rw [hother _ hx]
      exact h.running_of_owner tx htx
  · exact h.mark_le
  · intro tx htx
    show tx.snapshot = replay s.initial ((s.settle r p).live (s.ledger.take tx.mark))
    rw [hlive]
    exact h.snapshot_eq tx htx
  · exact h.owner_fresh
  · exact fun e he => h.started_update started he

/-- The statement itself: it is replayed last, and the open transaction's past is not
    touched. -/
theorem Inv.append {run : σ → Option σ} {db : σ} (h : Inv s)
    (alive : (s.procs r).isRolledBack = false) (started : (s.procs r).isStarted = true)
    (hrun : run s.db = some db) : Inv { s with db := db, ledger := s.ledger ++ [(r, run)] } := by
  have htake : ∀ tx, s.tx = some tx →
      (s.ledger ++ [(r, run)]).take tx.mark = s.ledger.take tx.mark := fun tx htx =>
    List.take_append_of_le_length (h.mark_le tx htx)
  constructor
  · show db = replay s.initial (s.live (s.ledger ++ [(r, run)]))
    have hlast : s.live [(r, run)] = [(r, run)] := by simp [live, alive]
    rw [live_append, hlast, replay_append, ← h.db_eq]
    show db = (run s.db).getD s.db
    rw [hrun, Option.getD_some]
  · exact h.not_refused
  · exact h.owner_of_running
  · exact h.running_of_owner
  · intro tx htx
    have hle := h.mark_le tx htx
    show tx.mark ≤ (s.ledger ++ [(r, run)]).length
    rw [List.length_append]
    omega
  · intro tx htx
    show tx.snapshot = replay s.initial (s.live ((s.ledger ++ [(r, run)]).take tx.mark))
    rw [htake tx htx]
    exact h.snapshot_eq tx htx
  · intro tx htx e he
    rw [htake tx htx] at he
    exact h.owner_fresh tx htx e he
  · intro e he
    rcases List.mem_append.mp he with he | he
    · exact h.started e he
    · obtain rfl := List.mem_singleton.mp he
      exact started

theorem Inv.record {run : σ → Option σ} {db : σ} {p : Proc σ} (h : Inv s)
    (before : (s.procs r).isRolledBack = false) (after : p.isRolledBack = false)
    (started : p.isStarted = true) (notRefused : p ≠ .refused)
    (inside : (∃ body, s.procs r = .running body) ↔ ∃ body, p = .running body)
    (hrun : run s.db = some db) : Inv (s.record r run db p) := by
  have hself : (s.settle r p).procs r = p := update_self ..
  refine (h.settle before after started notRefused inside).append ?_ ?_ hrun
  · rw [hself, after]
  · rw [hself, started]

/-- Going on with the body of the open transaction. -/
theorem Inv.issue {body : Body σ} (h : Inv s) (running : ∃ b, s.procs r = .running b) :
    Inv (s.issue r body) := by
  obtain ⟨b, hb⟩ := running
  have before : (s.procs r).isRolledBack = false := by rw [hb]; rfl
  have hsettle : ∀ b', Inv (s.settle r (.running b')) := fun b' =>
    h.settle before rfl rfl nofun ⟨fun _ => ⟨b', rfl⟩, fun _ => ⟨b, hb⟩⟩
  cases body with
  | ret => exact hsettle .ret
  | throw => exact hsettle .throw
  | stmt run next =>
    unfold Conn.issue
    dsimp only
    cases hrun : run s.db with
    | none => exact hsettle .throw
    | some db =>
      -- still inside the transaction, one statement further
      exact h.record before rfl rfl nofun ⟨fun _ => ⟨next db, rfl⟩, fun _ => ⟨b, hb⟩⟩ hrun

/-- `BEGIN` outside any transaction, by a request that has executed nothing. -/
theorem Inv.begin {body body' : Body σ} (h : Inv s) (pending : s.procs r = .transaction body)
    (closed : s.tx = none) : Inv (s.begin r body') := by
  have before : (s.procs r).isRolledBack = false := by rw [pending]; rfl
  have hlive := live_update (s := s) (t := s.begin r body') rfl before rfl
  have hself : (s.begin r body').procs r = .running body' := update_self ..
  have hother : ∀ x, x ≠ r → (s.begin r body').procs x = s.procs x := fun x hx =>
    update_of_ne hx _ _
  have hfresh : ∀ e ∈ s.ledger, e.1 ≠ r := by
    intro e he heq
    have hstarted := h.started e he
    rw [heq, pending] at hstarted
    exact Bool.noConfusion hstarted
  constructor
  · show s.db = replay s.initial ((s.begin r body').live s.ledger)
    rw [hlive]
    exact h.db_eq
  · exact h.not_refused_update nofun
  · intro x b hb
    by_cases hx : x = r
    · exact ⟨_, rfl, hx.symm⟩
    · -- anybody else inside would own an open transaction
      rw [hother x hx] at hb
      obtain ⟨tx, htx, -⟩ := h.owner_of_running x b hb
      exact absurd (htx.symm.trans closed) nofun
  · rintro tx htx
    obtain rfl := Option.some.inj htx
    exact ⟨body', hself⟩
  · rintro tx htx
    obtain rfl := Option.some.inj htx
    exact Nat.le_refl _
  · rintro tx htx
    obtain rfl := Option.some.inj htx
    show s.db = replay s.initial ((s.begin r body').live (s.ledger.take s.ledger.length))
    rw [hlive, List.take_length]
    exact h.db_eq
  · rintro tx htx e he
    obtain rfl := Option.some.inj htx
    exact hfresh e (List.mem_of_mem_take he)
  · exact fun e he => h.started_update rfl he

/-- Only the owner of the open transaction is inside one. -/
theorem Inv.eq_of_running {x : Nat} {body body' : Body σ} (h : Inv s)
    (hr : s.procs r = .running body) (hx : s.procs x = .running body') : x = r := by
  obtain ⟨tx, htx, howner⟩ := h.owner_of_running r body hr
  obtain ⟨tx', htx', howner'⟩ := h.owner_of_running x body' hx
  obtain rfl := Option.some.inj (htx.symm.trans htx')
  rw [← howner, ← howner']

/-- The transaction of `r` ends: the database is the one its new state calls for, and nobody is
    inside a transaction any more. -/
theorem Inv.close {body : Body σ} {p : Proc σ} {db : σ} (h : Inv s)
    (running : s.procs r = .running body) (started : p.isStarted = true)
    (notRefused : p ≠ .refused) (outside : ∀ b, p ≠ .running b)
    (hdb : db = replay s.initial ((s.settle r p).live s.ledger)) :
    Inv { s.settle r p with tx := none, db := db } := by
  have hself : (s.settle r p).procs r = p := update_self ..
  have hother : ∀ x, x ≠ r → (s.settle r p).procs x = s.procs x := fun x hx =>
    update_of_ne hx _ _
  refine ⟨hdb, h.not_refused_update notRefused, ?_, nofun, nofun, nofun, nofun,
    fun e he => h.started_update started he⟩
  -- nobody is left inside: `r` has gone out, and it was the only one
  intro x b hb
  replace hb : (s.settle r p).procs x = .running b := hb
  by_cases hx : x = r
  · rw [hx, hself] at hb
    exact absurd hb (outside b)
  · rw [hother x hx] at hb
    exact absurd (h.eq_of_running running hb) hx

/-- `COMMIT` makes nothing undone. -/
theorem Inv.commit (h : Inv s) (running : s.procs r = .running .ret) :
    Inv { s.settle r .succeeded with tx := none } := by
  have before : (s.procs r).isRolledBack = false := by rw [running]; rfl
  refine h.close running rfl nofun nofun ?_
  show s.db = _
  rw [live_update (s := s) (t := s.settle r .succeeded) rfl before rfl]
  exact h.db_eq

/-- `ROLLBACK` of a transaction that had no company undoes its own statements. -/
theorem Inv.rollback {tx : Tx σ} (h : Inv s) (running : s.procs r = .running .throw)
    (htx : s.tx = some tx) (alone : ∀ e ∈ s.ledger.drop tx.mark, e.1 = r) :
    Inv { s.settle r .rolledBack with tx := none, db := tx.snapshot } := by
  obtain ⟨tx', htx', howner⟩ := h.owner_of_running r _ running
  obtain rfl := Option.some.inj (htx.symm.trans htx')
  refine h.close running rfl nofun nofun ?_
  -- what was executed before the `BEGIN` stays live, what came after is all undone
  have hpast : (s.settle r .rolledBack).live (s.ledger.take tx.mark) =
      s.live (s.ledger.take tx.mark) := by
    refine List.filter_congr fun e he => ?_
    have hne : e.1 ≠ r := fun heq => h.owner_fresh tx htx e he (heq.trans howner.symm)
    show (!(update s.procs r .rolledBack e.1).isRolledBack) = _
    rw [update_of_ne hne]
  have hown : (s.settle r .rolledBack).live (s.ledger.drop tx.mark) = [] := by
    refine List.filter_eq_nil_iff.mpr fun e he => ?_
    show ¬ (!(update s.procs r .rolledBack e.1).isRolledBack) = true
    rw [alone e he, update_self]
    exact nofun
  calc tx.snapshot = replay s.initial (s.live (s.ledger.take tx.mark)) := h.snapshot_eq tx htx
    _ = replay s.initial ((s.settle r .rolledBack).live
          (s.ledger.take tx.mark ++ s.ledger.drop tx.mark)) := by
        rw [live_append, hpast, hown, List.append_nil]
    _ = replay s.initial ((s.settle r .rolledBack).live s.ledger) := by
        rw [List.take_append_drop]

/-! ### Every exclusive step keeps the invariant -/

/-- **Step lemma**, one case for each state of the request. -/
theorem Inv.step (h : Inv s) (exclusive : s.Exclusive r) (hstep : s.step r = some t) : Inv t := by
  unfold Conn.step at hstep
  cases hp : s.procs r with
  | execute run =>
    have before : (s.procs r).isRolledBack = false := by rw [hp]; rfl
    simp only [hp] at hstep
    cases hrun : run s.db with
    | none =>
      obtain rfl : s.settle r .failed = t := by simpa [hrun] using hstep
      exact h.settle before rfl rfl nofun (by simp [hp])
    | some db =>
      obtain rfl : s.record r run db .succeeded = t := by simpa [hrun] using hstep
      exact h.record before rfl rfl nofun (by simp [hp]) hrun
  | transaction body =>
    have hclosed := exclusive.1 body hp
    obtain rfl : (s.begin r body).issue r body = t := by
      simpa [hp, hclosed] using hstep
    exact (h.begin hp hclosed).issue ⟨body, update_self ..⟩
  | running body =>
    obtain ⟨tx, htx, -⟩ := h.owner_of_running r body hp
    cases body with
    | ret =>
      obtain rfl : { s.settle r .succeeded with tx := none } = t := by
        simpa [hp, htx] using hstep
      exact h.commit hp
    | throw =>
      obtain rfl : { s.settle r .rolledBack with tx := none, db := tx.snapshot } = t := by
        simpa [hp, htx] using hstep
      exact h.rollback hp htx (exclusive.2 hp tx htx)
    | stmt run next =>
      obtain rfl : s.issue r (.stmt run next) = t := by simpa [hp] using hstep
      exact h.issue ⟨_, hp⟩
  | succeeded => simp [hp] at hstep
  | failed => simp [hp] at hstep
  | rolledBack => simp [hp] at hstep
  | refused => simp [hp] at hstep

/-- **Run lemma.** Every state of an exclusive run is isolated, for any requests and any
    interleaving of them. -/
theorem isolated_of_exclusive {db : σ} {procs : Nat → Proc σ} {rs : List Nat}
    (pending : ∀ r, (procs r).isStarted = false)
    (run : Guarded step Exclusive (start db procs) rs t) : Isolated t := by
  have hinv : Inv t := run.invariant (inv_start db procs pending) fun _ _ _ h hex hstep =>
    h.step hex hstep
  exact ⟨hinv.db_eq, hinv.not_refused⟩

/-! ### A body on its own -/

/-- The database after a body that nobody else interrupts; `none` when it throws. -/
def runAlone : Body σ → σ → Option σ
  | .ret, d => some d
  | .throw, _ => none
  | .stmt run next, d =>
    match run d with
    | some d => runAlone (next d) d
    | none => none

/-- How a transaction ends that nobody else interrupts: committed with what its body gives, or
    rolled back to `before`. -/
def EndsAlone (t : Conn σ) (r : Nat) (before : σ) (result : Option σ) : Prop :=
  t.tx = none ∧
    match result with
    | some d => t.procs r = .succeeded ∧ t.db = d
    | none => t.procs r = .rolledBack ∧ t.db = before

/-- Induction over the body: each statement is one step, and the end is one more. -/
theorem endsAlone_of_running (body : Body σ) {tx : Tx σ} (hp : s.procs r = .running body)
    (htx : s.tx = some tx) :
    ∃ n t, exec step s (List.replicate n r) = some t ∧
      EndsAlone t r tx.snapshot (runAlone body s.db) := by
  induction body generalizing s with
  | ret =>
    refine ⟨1, { s.settle r .succeeded with tx := none }, ?_, rfl, update_self .., rfl⟩
    simp [exec, step, hp, htx]
  | throw =>
    refine ⟨1, { s.settle r .rolledBack with tx := none, db := tx.snapshot }, ?_, rfl,
      update_self .., rfl⟩
    simp [exec, step, hp, htx]
  | stmt run next ih =>
    have hfirst : s.step r = some (s.issue r (.stmt run next)) := by simp [step, hp]
    cases hrun : run s.db with
    | some db =>
      have hissue : s.issue r (.stmt run next) = s.record r run db (.running (next db)) := by
        simp [issue, hrun]
      obtain ⟨n, t, hexec, hends⟩ := ih db (s := s.record r run db (.running (next db)))
        (update_self ..) htx
      refine ⟨n + 1, t, ?_, ?_⟩
      · rw [List.replicate_succ]
        simpa [exec, hfirst, hissue] using hexec
      · simp only [runAlone, hrun]
        exact hends
    | none =>
      have hissue : s.issue r (.stmt run next) = s.settle r (.running .throw) := by
        simp [issue, hrun]
      refine ⟨2, { (s.settle r (.running .throw)).settle r .rolledBack with
        tx := none, db := tx.snapshot }, ?_, ?_⟩
      · have hsecond : (s.settle r (.running .throw)).procs r = .running .throw := update_self ..
        have htx' : (s.settle r (.running .throw)).tx = some tx := htx
        show exec step s [r, r] = _
        simp only [exec, hfirst, hissue, Option.bind_some]
        simp [step, hsecond, htx']
      · simp only [runAlone, hrun]
        exact ⟨rfl, update_self .., rfl⟩

/-- What `issue` leaves to be done gives what the body was to give. -/
theorem runAlone_issue (body : Body σ) {tx : Tx σ} (htx : s.tx = some tx) :
    ∃ body', (s.issue r body).procs r = .running body' ∧ (s.issue r body).tx = some tx ∧
      runAlone body' (s.issue r body).db = runAlone body s.db := by
  cases body with
  | ret => exact ⟨.ret, update_self .., htx, rfl⟩
  | throw => exact ⟨.throw, update_self .., htx, rfl⟩
  | stmt run next =>
    cases hrun : run s.db with
    | some db =>
      have hissue : s.issue r (.stmt run next) = s.record r run db (.running (next db)) := by
        simp [issue, hrun]
      rw [hissue]
      refine ⟨next db, update_self .., htx, ?_⟩
      simp only [runAlone, hrun]
      rfl
    | none =>
      have hissue : s.issue r (.stmt run next) = s.settle r (.running .throw) := by
        simp [issue, hrun]
      rw [hissue]
      refine ⟨.throw, update_self .., htx, ?_⟩
      simp only [runAlone, hrun]

/-- **A transaction that nobody interrupts is atomic**: it commits what its body gives, or
    leaves the database as it was. -/
theorem endsAlone_of_transaction (body : Body σ) (hp : s.procs r = .transaction body)
    (closed : s.tx = none) :
    ∃ n t, exec step s (List.replicate n r) = some t ∧
      EndsAlone t r s.db (runAlone body s.db) := by
  have hfirst : s.step r = some ((s.begin r body).issue r body) := by simp [step, hp, closed]
  have hbegun : (s.begin r body).tx = some ⟨r, s.db, s.ledger.length⟩ := rfl
  obtain ⟨body', hp', htx', halone⟩ := runAlone_issue (r := r) body hbegun
  obtain ⟨n, t, hexec, hends⟩ := endsAlone_of_running body' hp' htx'
  refine ⟨n + 1, t, ?_, ?_⟩
  · rw [List.replicate_succ]
    simpa [exec, hfirst] using hexec
  · rw [halone] at hends
    exact hends

end Conn

end Montr.SharedConnection
