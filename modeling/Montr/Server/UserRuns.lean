import Montr.Lib.Transition
import Montr.Server.Users

namespace Montr.Server

open Function Transition

/-!
# Runs of the user routes

Requests interleave at their database operations.  What a run can do to the users:

* `AuthPhase.Writes` — what one operation writes, with `turn_writes`;
* `tokens_name_users` — a token never speaks for another user than the one it was signed for;
* `admin_remains` — an admin remains as long as admins are deleted and demoted for admins only;
* `users_kept` — who has no password of an admin and no API key changes nothing but the passwords
  of the users that signed in.
-/

/-- A request arrives, goes through its next database operation, or fails there; the server is
    started again. -/
inductive AuthEvent
  | arrive (i : Nat) (request : AuthRequest)
  | proceed (i : Nat)
  | fail (i : Nat)
  | restart (setupEnabled : Bool)
  deriving DecidableEq, Repr

/-- What a request does before its first database operation. -/
def AuthRequest.enter (setupEnabled : Bool) : AuthRequest → AuthProgress
  | .login username password => .waiting (.loginUser username password)
  | .setup user =>
    if setupEnabled then .waiting (.setupCount user)
    else .answered (.error .forbidden
      "Setup is disabled. Set AUTH_SETUP_ENABLED=true to create the first admin." 403)
  | .guarded credential route => .waiting (.authenticate credential route)

/-- The answer when the operation throws: `requireAuth` takes any error for a bad token. -/
def AuthPhase.failure : AuthPhase → AuthReply
  | .authenticate .. => .invalidToken
  | _ => .unexpected

/-- The phases whose operation adds a row. -/
def AuthPhase.adds : AuthPhase → Bool
  | .setupInsert _ | .createInsert .. => true
  | _ => false

/-- The phases whose operation writes nothing. -/
def AuthPhase.reads : AuthPhase → Bool
  | .loginCompare .. | .setupInsert _ | .setupSelect _ | .changeUpdate .. | .createInsert ..
  | .deleteRow .. | .updateRow .. | .resetUpdate .. => false
  | _ => true

/-- A deletion or demotion that passed the check of the caller: for whom it is made, and whom it
    is to hit. -/
def AuthPhase.aims : AuthPhase → Option (Option JwtPayload × Nat)
  | .deleteSelect caller id | .deleteRow caller id => some (caller, id)
  | .updateEmail caller id _ role | .updateRow caller id _ role =>
    if role.any (· != .admin) then some (caller, id) else none
  | _ => none

/-- The same for the statement itself. -/
def AuthPhase.takesAway : AuthPhase → Option (Option JwtPayload × Nat)
  | .deleteRow caller id => some (caller, id)
  | .updateRow caller id _ role => if role.any (· != .admin) then some (caller, id) else none
  | _ => none

namespace Auth

variable {bcrypt : Bcrypt} {s t : Auth}

def step (bcrypt : Bcrypt) (s : Auth) : AuthEvent → Option Auth
  | .arrive i request =>
    match s.requests i with
    | none =>
      some { s with requests := update s.requests i (some (request.enter s.setupEnabled)) }
    | some _ => none
  | .proceed i =>
    match s.requests i with
    | some (.waiting phase) =>
      let r := s.turn bcrypt phase
      some { s with users := r.users, issued := r.issued
                    requests := update s.requests i (some r.next) }
    | _ => none
  | .fail i =>
    match s.requests i with
    | some (.waiting phase) =>
      some { s with requests := update s.requests i (some (.answered phase.failure)) }
    | _ => none
  | .restart setupEnabled => some { s with setupEnabled := setupEnabled, requests := fun _ => none }

/-- A new installation. -/
def initial (setupEnabled : Bool) : Auth := ⟨.empty, [], setupEnabled, fun _ => none⟩

/-! ### What a step does -/

/-- What a step does to the requests: one is at its first operation, at the next one, or at none
    any more. -/
inductive StepCase (bcrypt : Bcrypt) (s t : Auth) : AuthEvent → Prop
  | arrive (i : Nat) (request : AuthRequest) (fresh : s.requests i = none)
      (users : t.users = s.users) (issued : t.issued = s.issued)
      (requests : t.requests = update s.requests i (some (request.enter s.setupEnabled))) :
      StepCase bcrypt s t (.arrive i request)
  | proceed (i : Nat) (phase : AuthPhase) (waiting : s.requests i = some (.waiting phase))
      (users : t.users = (s.turn bcrypt phase).users)
      (issued : t.issued = (s.turn bcrypt phase).issued)
      (requests : t.requests = update s.requests i (some (s.turn bcrypt phase).next)) :
      StepCase bcrypt s t (.proceed i)
  | fail (i : Nat) (reply : AuthReply) (users : t.users = s.users) (issued : t.issued = s.issued)
      (requests : t.requests = update s.requests i (some (.answered reply))) :
      StepCase bcrypt s t (.fail i)
  | restart (setupEnabled : Bool) (users : t.users = s.users) (issued : t.issued = s.issued)
      (requests : t.requests = fun _ => none) : StepCase bcrypt s t (.restart setupEnabled)

theorem step_cases {e : AuthEvent} (h : s.step bcrypt e = some t) : StepCase bcrypt s t e := by
  cases e with
  | arrive i request =>
    cases hrequest : s.requests i with
    | some progress => exact absurd h (by simp [step, hrequest])
    | none =>
      obtain rfl := Option.some.inj (by simpa only [step, hrequest] using h)
      exact .arrive i request hrequest rfl rfl rfl
  | proceed i =>
    match hrequest : s.requests i with
    | none => exact absurd h (by simp [step, hrequest])
    | some (.answered reply) => exact absurd h (by simp [step, hrequest])
    | some (.waiting phase) =>
      obtain rfl := Option.some.inj (by simpa only [step, hrequest] using h)
      exact .proceed i phase hrequest rfl rfl rfl
  | fail i =>
    match hrequest : s.requests i with
    | none => exact absurd h (by simp [step, hrequest])
    | some (.answered reply) => exact absurd h (by simp [step, hrequest])
    | some (.waiting phase) =>
      obtain rfl := Option.some.inj (by simpa only [step, hrequest] using h)
      exact .fail i phase.failure rfl rfl rfl
  | restart setupEnabled =>
    obtain rfl := Option.some.inj h
    exact .restart setupEnabled rfl rfl rfl

/-- What the operation of a phase writes: the table and the tokens after it. -/
inductive Writes (bcrypt : Bcrypt) (s : Auth) (users' : UserTable) (issued' : List JwtPayload) :
    AuthPhase → Prop
  /-- It only reads. -/
  | nothing {phase : AuthPhase} (users : users' = s.users) (issued : issued' = s.issued) :
      Writes bcrypt s users' issued' phase
  /-- `login` signs a token for the row it read. -/
  | login {user : User} {password : String}
      (accepted : bcrypt.compare password user.passwordHash = true) (users : users' = s.users)
      (issued : issued' = s.issued ++ [⟨user.id, user.username, user.role⟩]) :
      Writes bcrypt s users' issued' (.loginCompare user password)
  /-- `setup` signs a token for the row it added. -/
  | setup {id : Nat} {user : User} (row : s.users.getUserById id = some user)
      (users : users' = s.users)
      (issued : issued' = s.issued ++ [⟨user.id, user.username, user.role⟩]) :
      Writes bcrypt s users' issued' (.setupSelect id)
  /-- A row is added. -/
  | insert {phase : AuthPhase} {username email passwordHash : String} {role : UserRole} {id : Nat}
      (adds : phase.adds = true)
      (users : s.users.insert username email passwordHash role = some (users', id))
      (issued : issued' = s.issued) : Writes bcrypt s users' issued' phase
  | delete {caller : Option JwtPayload} {id : Nat} (users : users' = s.users.deleteUser id)
      (issued : issued' = s.issued) : Writes bcrypt s users' issued' (.deleteRow caller id)
  | update {caller : Option JwtPayload} {id : Nat} {email : Option String}
      {role : Option UserRole} (users : s.users.updateUser id email role = some users')
      (issued : issued' = s.issued) :
      Writes bcrypt s users' issued' (.updateRow caller id email role)
  | password {caller : JwtPayload} {newHash : String}
      (users : users' = s.users.updateUserPassword caller.userId newHash)
      (issued : issued' = s.issued) : Writes bcrypt s users' issued' (.changeUpdate caller newHash)
  | reset {caller : JwtPayload} {id : Nat} {newHash : String}
      (users : users' = s.users.updateUserPassword id newHash) (issued : issued' = s.issued) :
      Writes bcrypt s users' issued' (.resetUpdate caller id newHash)

theorem handle_reads (caller : Option JwtPayload) (route : GuardedRoute) :
    (s.handle caller route).users = s.users ∧ (s.handle caller route).issued = s.issued := by
  cases caller <;> cases route <;> rw [handle] <;> (repeat' split) <;> exact ⟨rfl, rfl⟩

theorem turn_reads {phase : AuthPhase} (h : phase.reads = true) :
    (s.turn bcrypt phase).users = s.users ∧ (s.turn bcrypt phase).issued = s.issued := by
  cases phase <;> cases h <;> rw [turn] <;> (repeat' split) <;>
    first | exact ⟨rfl, rfl⟩ | exact handle_reads _ _

/-- **What one operation writes.** -/
theorem turn_writes (bcrypt : Bcrypt) (s : Auth) (phase : AuthPhase) :
    Writes bcrypt s (s.turn bcrypt phase).users (s.turn bcrypt phase).issued phase := by
  cases phase with
  | loginCompare user password =>
    rw [turn]
    split
    · next accepted => exact .login accepted rfl rfl
    · exact .nothing rfl rfl
  | setupInsert user =>
    rw [turn]
    split
    · next users id hinsert => exact .insert rfl hinsert rfl
    · exact .nothing rfl rfl
  | setupSelect id =>
    rw [turn]
    split
    · next user hrow => exact .setup hrow rfl rfl
    · exact .nothing rfl rfl
  | changeUpdate caller newHash => exact .password rfl rfl
  | createInsert caller user =>
    rw [turn]
    split
    · next users id hinsert => exact .insert rfl hinsert rfl
    · exact .nothing rfl rfl
  | deleteRow caller id => exact .delete rfl rfl
  | updateRow caller id email role =>
    rw [turn]
    split
    · next users hupdate => exact .update hupdate rfl
    · exact .nothing rfl rfl
  | resetUpdate caller id newHash => exact .reset rfl rfl
  | _ => exact .nothing (turn_reads rfl).1 (turn_reads rfl).2

/-- A phase after a step is the one before it, the first one of a request, or the next one. -/
theorem StepCase.phase {e : AuthEvent} (h : StepCase bcrypt s t e) {j : Nat} {phase : AuthPhase}
    (waiting : t.requests j = some (.waiting phase)) :
    s.requests j = some (.waiting phase) ∨
      (∃ request, e = .arrive j request ∧ request.enter s.setupEnabled = .waiting phase) ∨
      ∃ before, e = .proceed j ∧ s.requests j = some (.waiting before) ∧
        (s.turn bcrypt before).next = .waiting phase := by
  cases h with
  | arrive i request fresh users issued requests =>
    rw [requests] at waiting
    rcases of_update waiting with ⟨rfl, hnew⟩ | ⟨-, hold⟩
    · exact .inr (.inl ⟨request, rfl, Option.some.inj hnew⟩)
    · exact .inl hold
  | proceed i before hbefore users issued requests =>
    rw [requests] at waiting
    rcases of_update waiting with ⟨rfl, hnew⟩ | ⟨-, hold⟩
    · exact .inr (.inr ⟨before, rfl, hbefore, Option.some.inj hnew⟩)
    · exact .inl hold
  | fail i reply users issued requests =>
    rw [requests] at waiting
    rcases of_update waiting with ⟨-, hnew⟩ | ⟨-, hold⟩
    · exact absurd hnew (by simp)
    · exact .inl hold
  | restart setupEnabled users issued requests =>
    rw [requests] at waiting
    exact absurd waiting (by simp)

/-- What a step writes is what an operation writes, or nothing. -/
theorem StepCase.writes {e : AuthEvent} (h : StepCase bcrypt s t e) :
    t.users = s.users ∧ t.issued = s.issued ∨
      ∃ i phase, e = .proceed i ∧ s.requests i = some (.waiting phase) ∧
        Writes bcrypt s t.users t.issued phase := by
  cases h with
  | arrive i request fresh users issued requests => exact .inl ⟨users, issued⟩
  | proceed i phase waiting users issued requests =>
    refine .inr ⟨i, phase, rfl, waiting, ?_⟩
    rw [users, issued]
    exact turn_writes bcrypt s phase
  | fail i reply users issued requests => exact .inl ⟨users, issued⟩
  | restart setupEnabled users issued requests => exact .inl ⟨users, issued⟩

/-! ### Whom a token speaks for -/

/-- The row with the id, now or later, is that of the user with the name. -/
def Names (t : UserTable) (id : Nat) (username : String) : Prop :=
  id < t.nextId ∧ ∀ u ∈ t.rows, u.id = id → u.username = username

theorem names_of_mem {u : User} (h : u ∈ s.users.rows) : Names s.users u.id u.username := by
  refine ⟨s.users.id_lt u h, fun v hv hid => ?_⟩
  rw [UserTable.eq_of_id_eq hv h hid]

theorem names_of_setRows {users users' : UserTable} {id target : Nat} {username : String}
    {set : User → User} (h : Names users id username)
    (rows : users'.rows = UserTable.setRows users.rows target set)
    (nextId : users'.nextId = users.nextId) (keepsId : ∀ u, (set u).id = u.id)
    (keepsUsername : ∀ u, (set u).username = u.username) : Names users' id username := by
  refine ⟨by rw [nextId]; exact h.1, fun u hu hid => ?_⟩
  rw [rows] at hu
  obtain ⟨v, hv, rfl⟩ := UserTable.mem_setRows.mp hu
  by_cases htarget : v.id = target
  · rw [if_pos htarget, keepsId] at hid
    rw [if_pos htarget, keepsUsername]
    exact h.2 v hv hid
  · rw [if_neg htarget] at hid ⊢
    exact h.2 v hv hid

/-- No operation lets an id stand for another user: ids of deleted rows are not used again. -/
theorem Names.writes {phase : AuthPhase} {users' : UserTable} {issued' : List JwtPayload} {id : Nat}
    {username : String} (h : Names s.users id username)
    (writes : Writes bcrypt s users' issued' phase) : Names users' id username := by
  cases writes with
  | nothing users issued => rw [users]; exact h
  | login accepted users issued => rw [users]; exact h
  | setup row users issued => rw [users]; exact h
  | insert adds users issued =>
    obtain ⟨hrows, hnext, -⟩ := UserTable.insert_eq users
    refine ⟨by rw [hnext]; exact Nat.lt_succ_of_lt h.1, fun u hu hid => ?_⟩
    rw [hrows] at hu
    rcases List.mem_append.mp hu with hold | hnew
    · exact h.2 u hold hid
    · obtain rfl := List.mem_singleton.mp hnew
      -- the new row has the next id, and the id was given before
      have hlt := h.1
      have heq : s.users.nextId = id := hid
      omega
  | delete users issued =>
    rw [users]
    exact ⟨h.1, fun u hu => h.2 u (List.mem_filter.mp hu).1⟩
  | update users issued =>
    obtain ⟨hrows, hnext⟩ := UserTable.updateUser_eq users
    exact names_of_setRows h hrows hnext (fun _ => rfl) fun _ => rfl
  | password users issued =>
    rw [users]
    exact names_of_setRows h rfl rfl (fun _ => rfl) fun _ => rfl
  | reset users issued =>
    rw [users]
    exact names_of_setRows h rfl rfl (fun _ => rfl) fun _ => rfl

/-- Every token, and every row read for one, names the user of its id. -/
structure Named (s : Auth) : Prop where
  issued : ∀ token ∈ s.issued, Names s.users token.userId token.username
  login : ∀ i user password, s.requests i = some (.waiting (.loginCompare user password)) →
    Names s.users user.id user.username

theorem next_loginCompare {phase : AuthPhase} {user : User} {password : String}
    (h : (s.turn bcrypt phase).next = .waiting (.loginCompare user password)) :
    user ∈ s.users.rows := by
  cases phase with
  | loginUser username password =>
    rw [turn] at h
    split at h
    · next hrow =>
      cases h
      exact UserTable.mem_of_getUserByUsername hrow
    · cases h
  | authenticate credential route =>
    rw [turn] at h
    (repeat' split at h) <;> try cases h
    next caller hcaller hrole =>
      cases caller <;> cases route <;> rw [handle] at h <;> (repeat' split at h) <;> cases h
  | _ =>
    rw [turn] at h
    (repeat' split at h) <;> cases h

theorem Named.step {e : AuthEvent} (h : s.Named) (hstep : s.step bcrypt e = some t) : t.Named := by
  have hcase := step_cases hstep
  have hnames : ∀ id username, Names s.users id username → Names t.users id username := by
    intro id username hold
    rcases hcase.writes with ⟨husers, -⟩ | ⟨i, phase, -, -, hwrites⟩
    · rw [husers]
      exact hold
    · exact hold.writes hwrites
  refine ⟨fun token htoken => ?_, fun j user password hj => ?_⟩
  · apply hnames
    rcases hcase.writes with ⟨-, hissued⟩ | ⟨i, phase, -, hwaiting, hwrites⟩
    · rw [hissued] at htoken
      exact h.issued token htoken
    · cases hwrites with
      | login accepted users issued =>
        rw [issued] at htoken
        rcases List.mem_append.mp htoken with hold | hnew
        · exact h.issued token hold
        · obtain rfl := List.mem_singleton.mp hnew
          exact h.login i _ _ hwaiting
      | setup row users issued =>
        rw [issued] at htoken
        rcases List.mem_append.mp htoken with hold | hnew
        · exact h.issued token hold
        · obtain rfl := List.mem_singleton.mp hnew
          exact names_of_mem (UserTable.mem_of_getUserById row).1
      | nothing users issued => exact h.issued token (issued ▸ htoken)
      | insert adds users issued => exact h.issued token (issued ▸ htoken)
      | delete users issued => exact h.issued token (issued ▸ htoken)
      | update users issued => exact h.issued token (issued ▸ htoken)
      | password users issued => exact h.issued token (issued ▸ htoken)
      | reset users issued => exact h.issued token (issued ▸ htoken)
  · apply hnames
    rcases hcase.phase hj with hold | ⟨request, -, henter⟩ | ⟨before, -, -, hnext⟩
    · exact h.login j user password hold
    · cases request with
      | login username password => cases henter
      | setup user =>
        rw [AuthRequest.enter] at henter
        split at henter <;> cases henter
      | guarded credential route => cases henter
    · exact names_of_mem (next_loginCompare hnext)

theorem named_initial (setupEnabled : Bool) : (initial setupEnabled).Named :=
  ⟨fun _ h => absurd h (by simp [initial]), fun _ _ _ h => absurd h (by simp [initial])⟩

/-- **A token speaks for nobody else.**  In every state of a new installation, over any
    interleaving of requests and any restarts, a row with the id of a token is that of the user
    whom it was signed for. -/
theorem tokens_name_users (bcrypt : Bcrypt) {setupEnabled : Bool} {events : List AuthEvent}
    (run : Reaches (step bcrypt) (initial setupEnabled) events t) {token : JwtPayload}
    (signed : token ∈ t.issued) {user : User} (row : user ∈ t.users.rows)
    (same : user.id = token.userId) : user.username = token.username := by
  have hnamed : t.Named :=
    run.invariant (named_initial setupEnabled) fun _ _ _ h _ hstep => Named.step h hstep
  exact (hnamed.issued token signed).2 user row same

/-- A hash that keeps the password, in place of `bcrypt`. -/
def plainBcrypt : Bcrypt :=
  ⟨fun password _ => "$2b$10$" ++ password, fun password hash => hash == "$2b$10$" ++ password⟩

/-- The first admin is set up. -/
def setupRoot : List AuthEvent :=
  [.arrive 0 (.setup ⟨"root", "root@montr.local", "password", none, 0⟩), .proceed 0, .proceed 0,
    .proceed 0]

/-- Not vacuous: the token of the first admin. -/
theorem tokens_name_users_setup :
    ∃ t token user, Reaches (step plainBcrypt) (initial true) setupRoot t ∧ token ∈ t.issued ∧
      user ∈ t.users.rows ∧ user.username = token.username := by
  have hrun : Reaches (step plainBcrypt) (initial true) setupRoot _ := reaches_of_exec rfl
  exact ⟨_, ⟨1, "root", .admin⟩, _, hrun, List.mem_singleton.mpr rfl, List.mem_singleton.mpr rfl,
    tokens_name_users plainBcrypt hrun (List.mem_singleton.mpr rfl) (List.mem_singleton.mpr rfl)
      rfl⟩

/-! ### Admins -/

def IsAdmin (s : Auth) (id : Nat) : Prop := ∃ user ∈ s.users.rows, user.id = id ∧ user.role = .admin

def HasAdmin (s : Auth) : Prop := ∃ id, s.IsAdmin id

/-- The statement that takes away an admin is made for a token whose user is an admin then. -/
def ForAdmin (s : Auth) : AuthEvent → Prop
  | .proceed i => ∀ phase caller id, s.requests i = some (.waiting phase) →
    phase.takesAway = some (caller, id) → s.IsAdmin id →
      ∃ user, caller = some user ∧ s.IsAdmin user.userId
  | _ => True

/-- Who is about to delete or demote somebody is somebody else. -/
def SparesSelf (s : Auth) : Prop :=
  ∀ i phase caller id, s.requests i = some (.waiting phase) → phase.aims = some (some caller, id) →
    caller.userId ≠ id

theorem next_aims {phase phase' : AuthPhase} {caller : JwtPayload} {id : Nat}
    (h : (s.turn bcrypt phase).next = .waiting phase')
    (aims : phase'.aims = some (some caller, id)) :
    caller.userId ≠ id ∨ phase.aims = some (some caller, id) := by
  cases phase with
  | authenticate credential route =>
    rw [turn] at h
    (repeat' split at h) <;> try cases h
    next user huser hrole =>
      left
      cases user with
      | none =>
        cases route <;> rw [handle] at h <;> (repeat' split at h) <;> cases h <;> cases aims
      | some user =>
        cases route <;> rw [handle] at h <;> (repeat' split at h) <;> cases h <;> cases aims
        -- what is left is a deletion, whose route has checked that the caller is not the target
        next hother => simpa using hother
  | deleteSelect user id' =>
    rw [turn] at h
    split at h <;> cases h
    exact .inr aims
  | updateSelect user id' email role =>
    left
    rw [turn] at h
    (repeat' split at h) <;> cases h
    all_goals
      next hself _ =>
        have haims : role.any (· != .admin) = true ∧ user = some caller ∧ id' = id := by
          simpa [AuthPhase.aims] using aims
        obtain ⟨hrole, rfl, rfl⟩ := haims
        intro heq
        exact hself (by simp [heq, hrole])
  | updateEmail user id' email role =>
    rw [turn] at h
    (repeat' split at h) <;> cases h <;> exact .inr aims
  | _ =>
    rw [turn] at h
    (repeat' split at h) <;> cases h <;> cases aims

theorem SparesSelf.step {e : AuthEvent} (h : s.SparesSelf) (hstep : s.step bcrypt e = some t) :
    t.SparesSelf := by
  intro j phase caller id hj haims
  rcases (step_cases hstep).phase hj with hold | ⟨request, -, henter⟩ | ⟨before, -, hbefore, hnext⟩
  · exact h j phase caller id hold haims
  · cases request with
    | login username password =>
      cases henter
      cases haims
    | setup user =>
      rw [AuthRequest.enter] at henter
      split at henter <;> cases henter
      cases haims
    | guarded credential route =>
      cases henter
      cases haims
  · rcases next_aims hnext haims with hother | hold
    · exact hother
    · exact h j before caller id hbefore hold

theorem aims_of_takesAway {phase : AuthPhase} {target : Option JwtPayload × Nat}
    (h : phase.takesAway = some target) : phase.aims = some target := by
  cases phase <;> first | exact h | cases h

/-! ### The admins after an operation -/

theorem IsAdmin.setRows {users' : UserTable} {id target : Nat} {set : User → User}
    (h : s.IsAdmin id) (rows : users'.rows = UserTable.setRows s.users.rows target set)
    (keepsId : ∀ u, (set u).id = u.id)
    (keepsRole : id = target → ∀ u : User, u.role = .admin → (set u).role = .admin) :
    ∃ user ∈ users'.rows, user.id = id ∧ user.role = .admin := by
  obtain ⟨user, huser, hid, hrole⟩ := h
  refine ⟨if user.id = target then set user else user, ?_, ?_⟩
  · rw [rows]
    exact UserTable.mem_setRows.mpr ⟨user, huser, rfl⟩
  · by_cases htarget : user.id = target
    · rw [if_pos htarget]
      exact ⟨(keepsId user).trans hid, keepsRole (hid.symm.trans htarget) user hrole⟩
    · rw [if_neg htarget]
      exact ⟨hid, hrole⟩

theorem IsAdmin.updateUserPassword {id target : Nat} {newHash : String} (h : s.IsAdmin id)
    (users : t.users = s.users.updateUserPassword target newHash) : t.IsAdmin id := by
  have hrows : t.users.rows =
      UserTable.setRows s.users.rows target (UserTable.setPassword newHash) := by
    rw [users]
    rfl
  exact h.setRows hrows (fun _ => rfl) fun _ _ hu => hu

/-- An operation leaves every admin but the one it is to take away. -/
theorem IsAdmin.writes {phase : AuthPhase} {id : Nat} (h : s.IsAdmin id)
    (writes : Writes bcrypt s t.users t.issued phase) :
    t.IsAdmin id ∨ ∃ caller, phase.takesAway = some (caller, id) := by
  cases writes with
  | nothing users issued => exact .inl (by unfold IsAdmin; rw [users]; exact h)
  | login accepted users issued => exact .inl (by unfold IsAdmin; rw [users]; exact h)
  | setup row users issued => exact .inl (by unfold IsAdmin; rw [users]; exact h)
  | insert adds users issued =>
    left
    obtain ⟨user, huser, hadmin⟩ := h
    refine ⟨user, ?_, hadmin⟩
    rw [(UserTable.insert_eq users).1]
    exact List.mem_append_left _ huser
  | @delete caller target users issued =>
    by_cases htarget : id = target
    · exact .inr ⟨caller, by rw [htarget]; rfl⟩
    · left
      obtain ⟨user, huser, hid, hrole⟩ := h
      refine ⟨user, ?_, hid, hrole⟩
      rw [users]
      exact List.mem_filter.mpr ⟨huser, by simpa [hid] using htarget⟩
  | @update caller target email role users issued =>
    by_cases hdemotes : id = target ∧ role.any (· != .admin) = true
    · exact .inr ⟨caller, by rw [hdemotes.1]; exact if_pos hdemotes.2⟩
    · left
      refine h.setRows (UserTable.updateUser_eq users).1 (fun _ => rfl) fun htarget u hu => ?_
      -- the role it sets, if any, is that of an admin
      have hany : ¬ role.any (· != .admin) = true := fun hany => hdemotes ⟨htarget, hany⟩
      cases role with
      | none => exact hu
      | some role => simpa [UserTable.setEmailRole] using hany
  | password users issued =>
    exact .inl (h.updateUserPassword users)
  | reset users issued =>
    exact .inl (h.updateUserPassword users)

/-- There is an admin, and the checks of the requests in flight hold. -/
structure Governed (s : Auth) : Prop where
  admin : s.HasAdmin
  spares : s.SparesSelf

theorem HasAdmin.step {e : AuthEvent} (h : s.HasAdmin) (spares : s.SparesSelf)
    (forAdmin : s.ForAdmin e) (hstep : s.step bcrypt e = some t) : t.HasAdmin := by
  obtain ⟨id, hid⟩ := h
  rcases (step_cases hstep).writes with ⟨husers, -⟩ | ⟨i, phase, rfl, hwaiting, hwrites⟩
  · exact ⟨id, by unfold IsAdmin; rw [husers]; exact hid⟩
  · rcases hid.writes hwrites with hkept | ⟨caller, htakes⟩
    · exact ⟨id, hkept⟩
    · -- the caller is an admin, and somebody else
      obtain ⟨user, rfl, hcaller⟩ := forAdmin phase caller id hwaiting htakes hid
      have hother := spares i phase user id hwaiting (aims_of_takesAway htakes)
      rcases hcaller.writes hwrites with hkept | ⟨caller', htakes'⟩
      · exact ⟨user.userId, hkept⟩
      · rw [htakes] at htakes'
        exact absurd (congrArg Prod.snd (Option.some.inj htakes')).symm hother

/-- **An admin remains** in every run, whatever the interleaving, in which admins are deleted and
    demoted for users that are admins themselves when the statement is executed: the checks that
    nobody deletes or demotes himself leave one of the two. -/
theorem admin_remains (bcrypt : Bcrypt) {setupEnabled : Bool} {before events : List AuthEvent}
    (reached : Reaches (step bcrypt) (initial setupEnabled) before s) (start : s.HasAdmin)
    (run : Guarded (step bcrypt) ForAdmin s events t) : t.HasAdmin := by
  have hspares : s.SparesSelf :=
    reached.invariant (fun _ _ _ _ h => absurd h (by simp [initial])) fun _ _ _ h _ hstep =>
      SparesSelf.step h hstep
  have hgoverned : t.Governed :=
    run.invariant ⟨start, hspares⟩ fun _ _ _ h forAdmin hstep =>
      ⟨h.admin.step h.spares forAdmin hstep, h.spares.step hstep⟩
  exact hgoverned.admin

/-- A second admin is added. -/
def addDeputy : List AuthEvent :=
  [.arrive 1 (.guarded (.bearer ⟨1, "root", .admin⟩ false)
      (.create ⟨"deputy", "deputy@montr.local", "password", some .admin, 0⟩)),
    .proceed 1, .proceed 1, .proceed 1, .proceed 1, .proceed 1]

/-- The first admin deletes the second one. -/
def deleteDeputy : List AuthEvent :=
  [.arrive 2 (.guarded (.bearer ⟨1, "root", .admin⟩ false) (.delete 2)), .proceed 2, .proceed 2,
    .proceed 2]

/-- Two admins. -/
def withDeputy : Auth :=
  (exec (step plainBcrypt) (initial true) (setupRoot ++ addDeputy)).get rfl

/-- Not vacuous: an admin is deleted. -/
theorem admin_remains_deleteDeputy :
    ∃ t, withDeputy.IsAdmin 2 ∧
      Guarded (step plainBcrypt) ForAdmin withDeputy deleteDeputy t ∧ t.HasAdmin := by
  have hroot : withDeputy.IsAdmin 1 := ⟨_, List.mem_cons_self, rfl, rfl⟩
  obtain ⟨t, hrun⟩ : ∃ t, Guarded (step plainBcrypt) ForAdmin withDeputy deleteDeputy t := by
    refine ⟨_, .cons trivial rfl (.cons ?_ rfl (.cons ?_ rfl (.cons ?_ rfl .nil)))⟩
    all_goals
      rintro phase caller id h htakes -
      cases h
      cases htakes
    exact ⟨_, rfl, hroot⟩
  exact ⟨t, ⟨_, List.mem_cons_of_mem _ List.mem_cons_self, rfl, rfl⟩, hrun,
    admin_remains plainBcrypt (reaches_of_exec (Option.some_get _).symm) ⟨1, hroot⟩ hrun⟩

/-! ### Those who are no admins -/

/-- The columns that only an admin may change. -/
def columns (t : UserTable) : List UserPublic := t.rows.map toPublicUser

/-- No request has the API key, and nobody signs in as an admin. -/
def Outside (bcrypt : Bcrypt) (s : Auth) : AuthEvent → Prop
  | .arrive _ request => ∀ route, request ≠ .guarded .apiKey route
  | .proceed i => ∀ user password, s.requests i = some (.waiting (.loginCompare user password)) →
    bcrypt.compare password user.passwordHash = true → user.role ≠ .admin
  | _ => True

/-- The phases that are within the reach of the users with these tokens. -/
def Within (issued : List JwtPayload) : AuthPhase → Prop
  | .loginUser .. | .loginCompare .. | .setupCount _ => True
  | .authenticate credential _ => credential ≠ .apiKey
  | .me caller | .changeSelect caller .. | .changeUpdate caller _ => caller ∈ issued
  | _ => False

/-- Since the state `s₀` only users that signed in have changed, and only their passwords. -/
structure Kept (s₀ : Auth) (users : UserTable) (issued : List JwtPayload) : Prop where
  columns : columns users = columns s₀.users
  tokens : ∀ token ∈ issued, token.role ≠ .admin
  rows : ∀ user ∈ users.rows, user ∈ s₀.users.rows ∨ ∃ token ∈ issued, token.userId = user.id

/-- And the requests in flight will not change that. -/
structure Confined (s₀ s : Auth) : Prop extends Kept s₀ s.users s.issued where
  phases : ∀ i phase, s.requests i = some (.waiting phase) → Within s.issued phase

theorem Within.mono {issued issued' : List JwtPayload} {phase : AuthPhase} (h : Within issued phase)
    (sub : issued ⊆ issued') : Within issued' phase := by
  cases phase <;> first | exact sub h | exact h

/-- Whom `requireAuth` lets in while there are users. -/
theorem requireAuth_ok {credential : Credential} {caller : Option JwtPayload}
    (h : s.requireAuth credential = .ok caller) (users : s.users.rows ≠ [])
    (noKey : credential ≠ .apiKey) : ∃ token ∈ s.issued, caller = some token := by
  unfold requireAuth at h
  rw [if_neg (by simpa [UserTable.getUserCount] using users)] at h
  cases credential with
  | none => cases h
  | apiKey => exact absurd rfl noKey
  | bearer token expired =>
    dsimp only at h
    split at h
    · next hvalid =>
      cases h
      exact ⟨token, hvalid.1, rfl⟩
    · cases h

theorem Within.next {phase phase' : AuthPhase} (h : Within s.issued phase)
    (users : s.users.rows ≠ []) (tokens : ∀ token ∈ s.issued, token.role ≠ .admin)
    (hnext : (s.turn bcrypt phase).next = .waiting phase') : Within s.issued phase' := by
  cases phase with
  | loginUser username password =>
    rw [turn] at hnext
    split at hnext <;> cases hnext
    trivial
  | loginCompare user password =>
    rw [turn] at hnext
    split at hnext <;> cases hnext
  | setupCount user =>
    rw [turn] at hnext
    split at hnext <;> cases hnext
    -- there are users
    next hnone => exact absurd hnone (by simpa [UserTable.getUserCount, List.length_pos_iff])
  | authenticate credential route =>
    rw [turn] at hnext
    (repeat' split at hnext) <;> try cases hnext
    next caller hcaller hrole =>
      obtain ⟨token, htoken, rfl⟩ := requireAuth_ok hcaller users h
      have hadmin : requireAdmin (some token) = false := by
        simpa [requireAdmin] using tokens token htoken
      have hopen : route.adminOnly = false := by simpa [hadmin] using hrole
      cases route <;> cases hopen <;> cases hnext <;> exact htoken
  | me caller =>
    rw [turn] at hnext
    split at hnext <;> cases hnext
  | changeSelect caller currentPassword newPassword salt =>
    rw [turn] at hnext
    (repeat' split at hnext) <;> cases hnext
    exact h
  | changeUpdate caller newHash => cases hnext
  | _ => exact absurd h id

/-- A phase within reach writes nothing, a token of no admin, or the password of its caller. -/
theorem Kept.writes {s₀ : Auth} {phase : AuthPhase} {users' : UserTable}
    {issued' : List JwtPayload} (h : Kept s₀ s.users s.issued) (within : Within s.issued phase)
    (outside : ∀ user password, phase = .loginCompare user password →
      bcrypt.compare password user.passwordHash = true → user.role ≠ .admin)
    (writes : Writes bcrypt s users' issued' phase) :
    Kept s₀ users' issued' ∧ s.issued ⊆ issued' := by
  cases writes with
  | nothing users issued =>
    rw [users, issued]
    exact ⟨h, List.Subset.refl _⟩
  | @login user password accepted users issued =>
    rw [users, issued]
    refine ⟨⟨h.columns, fun token htoken => ?_, fun user hu => ?_⟩, List.subset_append_left _ _⟩
    · rcases List.mem_append.mp htoken with hold | hnew
      · exact h.tokens token hold
      · obtain rfl := List.mem_singleton.mp hnew
        exact outside user password rfl accepted
    · obtain hold | ⟨token, htoken, hid⟩ := h.rows user hu
      · exact .inl hold
      · exact .inr ⟨token, List.mem_append_left _ htoken, hid⟩
  | @password caller newHash users issued =>
    have hcolumns : (UserTable.setRows s.users.rows caller.userId
        (UserTable.setPassword newHash)).map toPublicUser = s.users.rows.map toPublicUser :=
      UserTable.map_setRows fun _ => rfl
    rw [users, issued]
    refine ⟨⟨hcolumns.trans h.columns, h.tokens, fun user hu => ?_⟩, List.Subset.refl _⟩
    obtain ⟨old, hold, rfl⟩ := UserTable.mem_setRows.mp hu
    by_cases hself : old.id = caller.userId
    · rw [if_pos hself]
      exact .inr ⟨caller, within, hself.symm⟩
    · rw [if_neg hself]
      exact h.rows old hold
  | insert adds users issued => cases phase <;> first | exact absurd within id | cases adds
  | setup row users issued => exact absurd within id
  | delete users issued => exact absurd within id
  | update users issued => exact absurd within id
  | reset users issued => exact absurd within id

theorem Kept.nonempty {s₀ : Auth} (h : Kept s₀ s.users s.issued) (users : s₀.users.rows ≠ []) :
    s.users.rows ≠ [] := by
  intro hnone
  have hlength := congrArg List.length h.columns
  simp only [Auth.columns, List.length_map, hnone] at hlength
  exact users (List.length_eq_zero_iff.mp hlength.symm)

theorem Confined.step {s₀ : Auth} {e : AuthEvent} (users : s₀.users.rows ≠ []) (h : Confined s₀ s)
    (outside : s.Outside bcrypt e) (hstep : s.step bcrypt e = some t) : Confined s₀ t := by
  have hcase := step_cases hstep
  have hkept : Kept s₀ t.users t.issued ∧ s.issued ⊆ t.issued := by
    rcases hcase.writes with ⟨husers, hissued⟩ | ⟨i, phase, rfl, hwaiting, hwrites⟩
    · rw [husers, hissued]
      exact ⟨h.toKept, List.Subset.refl _⟩
    · refine h.toKept.writes (h.phases i phase hwaiting) ?_ hwrites
      rintro user password rfl
      exact outside user password hwaiting
  refine ⟨hkept.1, fun j phase hj => ?_⟩
  rcases hcase.phase hj with hold | ⟨request, rfl, henter⟩ | ⟨before, -, hbefore, hnext⟩
  · exact (h.phases j phase hold).mono hkept.2
  · cases request with
    | login username password =>
      cases henter
      trivial
    | setup user =>
      rw [AuthRequest.enter] at henter
      split at henter <;> cases henter
      trivial
    | guarded credential route =>
      cases henter
      rintro rfl
      exact outside route rfl
  · have hwithin := h.phases j before hbefore
    exact (hwithin.next (h.toKept.nonempty users) h.tokens hnext).mono hkept.2

/-- **Who is no admin changes no user.**  From a state with users, no admin's token and no request
    in flight, in every interleaving of requests without the API key in which nobody signs in as
    an admin: no user comes, goes or gets another name, address or role; no token of an admin is
    signed; and only who has signed in can have another password. -/
theorem users_kept (bcrypt : Bcrypt) {events : List AuthEvent} (users : s.users.rows ≠ [])
    (tokens : ∀ token ∈ s.issued, token.role ≠ .admin) (quiet : ∀ i, s.requests i = none)
    (run : Guarded (step bcrypt) (Outside bcrypt) s events t) :
    columns t.users = columns s.users ∧ (∀ token ∈ t.issued, token.role ≠ .admin) ∧
      ∀ user ∈ t.users.rows, user ∈ s.users.rows ∨ ∃ token ∈ t.issued, token.userId = user.id := by
  have hconfined : Confined s t := by
    refine run.invariant ⟨⟨rfl, tokens, fun _ hu => .inl hu⟩, fun i _ h => ?_⟩
      fun _ _ _ h outside hstep => h.step users outside hstep
    exact absurd h (by simp [quiet i])
  exact ⟨hconfined.columns, hconfined.tokens, hconfined.rows⟩

/-- An admin and a viewer, nobody signed in. -/
def rootAndGuest : Auth where
  users :=
    { rows := [⟨1, "root", "root@montr.local", "$2b$10$password", .admin⟩,
        ⟨2, "guest", "guest@montr.local", "$2b$10$welcome", .viewer⟩]
      nextId := 3
      id_lt := by decide
      ids_nodup := by decide
      usernames_nodup := by decide
      emails_nodup := by decide }
  issued := []
  setupEnabled := false
  requests _ := none

/-- The viewer signs in and takes another password. -/
def guestChanges : List AuthEvent :=
  [.arrive 0 (.login "guest" "welcome"), .proceed 0, .proceed 0,
    .arrive 1 (.guarded (.bearer ⟨2, "guest", .viewer⟩ false)
      (.changePassword "welcome" "secret12" 0)),
    .proceed 1, .proceed 1, .proceed 1]

/-- Not vacuous: a viewer takes another password. -/
theorem users_kept_guestChanges :
    ∃ t, Guarded (step plainBcrypt) (Outside plainBcrypt) rootAndGuest guestChanges t ∧
      columns t.users = columns rootAndGuest.users := by
  obtain ⟨t, hrun⟩ : ∃ t, Guarded (step plainBcrypt) (Outside plainBcrypt) rootAndGuest
      guestChanges t := by
    refine ⟨_, .cons (by simp [Outside]) rfl (.cons ?_ rfl (.cons ?_ rfl (.cons (by simp [Outside])
      rfl (.cons ?_ rfl (.cons ?_ rfl (.cons ?_ rfl .nil))))))⟩
    all_goals
      rintro user password h accepted
      cases h
    -- the sign-in of the viewer
    decide
  exact ⟨t, hrun, (users_kept plainBcrypt (by decide) (by decide) (fun _ => rfl) hrun).1⟩

end Auth

end Montr.Server
