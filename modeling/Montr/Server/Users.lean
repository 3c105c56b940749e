import Mathlib.Data.List.Basic
import Mathlib.Data.List.Nodup

namespace Montr.Server

/-!
# Users

The `users` table with the statements of the adapter, and the routes of `auth.routes.ts` as
requests that go on from one database operation to the next.  A body is what the schema of its
route hands on; a body that the schema refuses reaches no database operation.

* `UserTable` — the rows together with the proof that ids, names and addresses are unique
  (`PRIMARY KEY`, `UNIQUE`); a statement that would break a constraint fails;
* `Auth` — the table, the tokens signed so far and the requests in flight;
* `Auth.step` — a request arrives, or goes on to its next database operation.

`verifyToken` takes the tokens that `generateToken` signed, until they expire.
-/

/-- Roles of a user. -/
inductive UserRole
  | admin
  | editor
  | viewer
  deriving DecidableEq, Repr

/-- A row of `users`. -/
structure User where
  id : Nat
  username : String
  email : String
  passwordHash : String
  role : UserRole
  deriving DecidableEq, Repr

/-! ### The table -/

/-- The rows in insertion order, with the constraints of the schema. -/
structure UserTable where
  rows : List User
  /-- the next `AUTOINCREMENT` id -/
  nextId : Nat
  id_lt : ∀ u ∈ rows, u.id < nextId
  ids_nodup : (rows.map User.id).Nodup
  usernames_nodup : (rows.map User.username).Nodup
  emails_nodup : (rows.map User.email).Nodup

namespace UserTable

/-- No users. -/
def empty : UserTable := ⟨[], 1, by simp, by simp, by simp, by simp⟩

def getUserCount (t : UserTable) : Nat := t.rows.length

def getUserById (t : UserTable) (id : Nat) : Option User := t.rows.find? (·.id == id)

def getUserByUsername (t : UserTable) (username : String) : Option User :=
  t.rows.find? (·.username == username)

def getUserByEmail (t : UserTable) (email : String) : Option User := t.rows.find? (·.email == email)

/-- A new value for a list without it. -/
theorem nodup_map_append {β : Type} {rows : List User} {key : User → β} {user : User}
    (h : (rows.map key).Nodup) (fresh : key user ∉ rows.map key) :
    ((rows ++ [user]).map key).Nodup := by
  rw [List.map_append, List.nodup_append]
  refine ⟨h, by simp, ?_⟩
  rintro a ha b hb rfl
  obtain rfl : a = key user := by simpa using hb
  exact fresh ha

/-- `INSERT INTO users`: the table and the id of the new row, unless the name or the address is
    taken. -/
def insert (t : UserTable) (username email passwordHash : String) (role : UserRole) :
    Option (UserTable × Nat) :=
  let user : User := ⟨t.nextId, username, email, passwordHash, role⟩
  if taken : username ∈ t.rows.map User.username ∨ email ∈ t.rows.map User.email then none
  else some
    ({ rows := t.rows ++ [user]
       nextId := t.nextId + 1
       id_lt := by
         intro u hu
         rcases List.mem_append.mp hu with hold | hnew
         · exact Nat.lt_succ_of_lt (t.id_lt u hold)
         · obtain rfl := List.mem_singleton.mp hnew
           exact Nat.lt_succ_self _
       ids_nodup := by
         apply nodup_map_append t.ids_nodup
         intro h
         obtain ⟨u, hu, heq⟩ := List.mem_map.mp h
         have hlt := t.id_lt u hu
         have hid : u.id = t.nextId := heq
         omega
       usernames_nodup := nodup_map_append t.usernames_nodup fun h => taken (.inl h)
       emails_nodup := nodup_map_append t.emails_nodup fun h => taken (.inr h) }, t.nextId)

/-- `DELETE FROM users WHERE id = ..`. -/
def deleteUser (t : UserTable) (id : Nat) : UserTable where
  rows := t.rows.filter (·.id != id)
  nextId := t.nextId
  id_lt u hu := t.id_lt u (List.mem_filter.mp hu).1
  ids_nodup := t.ids_nodup.sublist (List.filter_sublist.map _)
  usernames_nodup := t.usernames_nodup.sublist (List.filter_sublist.map _)
  emails_nodup := t.emails_nodup.sublist (List.filter_sublist.map _)

/-- The rows after a change of one of them. -/
def setRows (rows : List User) (id : Nat) (set : User → User) : List User :=
  rows.map fun u => if u.id = id then set u else u

/-- A change of one row leaves the values of a column that it does not touch. -/
theorem map_setRows {β : Type} {rows : List User} {key : User → β} {id : Nat} {set : User → User}
    (same : ∀ u, key (set u) = key u) : (setRows rows id set).map key = rows.map key := by
  unfold setRows
  rw [List.map_map]
  apply List.map_congr_left
  intro u _
  by_cases h : u.id = id
  · simp [h, same]
  · simp [h]

/-- A statement that changes one row, and neither its id nor its name. -/
def update (t : UserTable) (id : Nat) (set : User → User) (keepsId : ∀ u, (set u).id = u.id)
    (keepsUsername : ∀ u, (set u).username = u.username)
    (emails : ((setRows t.rows id set).map User.email).Nodup) : UserTable where
  rows := setRows t.rows id set
  nextId := t.nextId
  id_lt := by
    intro u hu
    have hmem : u.id ∈ (setRows t.rows id set).map User.id := List.mem_map_of_mem hu
    rw [map_setRows keepsId] at hmem
    obtain ⟨v, hv, heq⟩ := List.mem_map.mp hmem
    rw [← heq]
    exact t.id_lt v hv
  ids_nodup := by
    rw [map_setRows keepsId]
    exact t.ids_nodup
  usernames_nodup := by
    rw [map_setRows keepsUsername]
    exact t.usernames_nodup
  emails_nodup := emails

/-- The columns that `updateUserPassword` sets. -/
def setPassword (passwordHash : String) (u : User) : User := { u with passwordHash := passwordHash }

/-- The columns that `updateUser` sets, where it is given them. -/
def setEmailRole (email : Option String) (role : Option UserRole) (u : User) : User :=
  { u with email := email.getD u.email, role := role.getD u.role }

/-- `UPDATE users SET password_hash = .. WHERE id = ..`. -/
def updateUserPassword (t : UserTable) (id : Nat) (passwordHash : String) : UserTable :=
  t.update id (setPassword passwordHash) (fun _ => rfl) (fun _ => rfl) (by
    have hkept : (setRows t.rows id (setPassword passwordHash)).map User.email =
        t.rows.map User.email := map_setRows fun _ => rfl
    rw [hkept]
    exact t.emails_nodup)

/-- The statement of `updateUser`, unless it would take an address twice. -/
def updateUser (t : UserTable) (id : Nat) (email : Option String) (role : Option UserRole) :
    Option UserTable :=
  if unique : ((setRows t.rows id (setEmailRole email role)).map User.email).Nodup then
    some (t.update id (setEmailRole email role) (fun _ => rfl) (fun _ => rfl) unique)
  else none

section

variable {t t' : UserTable} {u v : User} {id : Nat} {username email passwordHash : String}
  {role : UserRole}

theorem mem_of_getUserById (h : t.getUserById id = some u) : u ∈ t.rows ∧ u.id = id :=
  ⟨List.mem_of_find?_eq_some h, by simpa using List.find?_some h⟩

theorem mem_of_getUserByUsername (h : t.getUserByUsername username = some u) : u ∈ t.rows :=
  List.mem_of_find?_eq_some h

/-- A row is the only one with its id. -/
theorem eq_of_id_eq (hu : u ∈ t.rows) (hv : v ∈ t.rows) (h : u.id = v.id) : u = v :=
  List.inj_on_of_nodup_map t.ids_nodup hu hv h

theorem mem_setRows {rows : List User} {set : User → User} :
    u ∈ setRows rows id set ↔ ∃ v ∈ rows, (if v.id = id then set v else v) = u :=
  List.mem_map

theorem insert_eq (h : t.insert username email passwordHash role = some (t', id)) :
    t'.rows = t.rows ++ [⟨t.nextId, username, email, passwordHash, role⟩] ∧
      t'.nextId = t.nextId + 1 ∧ id = t.nextId := by
  unfold insert at h
  dsimp only at h
  split at h
  · exact absurd h (by simp)
  · obtain ⟨rfl, rfl⟩ := Prod.mk.inj (Option.some.inj h)
    exact ⟨rfl, rfl, rfl⟩

theorem updateUser_eq {email : Option String} {role : Option UserRole}
    (h : t.updateUser id email role = some t') :
    t'.rows = setRows t.rows id (setEmailRole email role) ∧ t'.nextId = t.nextId := by
  unfold updateUser at h
  split at h
  · obtain rfl := Option.some.inj h
    exact ⟨rfl, rfl⟩
  · exact absurd h (by simp)

end

end UserTable

/-! ### Requests -/

/-- What `generateToken` signs. -/
structure JwtPayload where
  userId : Nat
  username : String
  role : UserRole
  deriving DecidableEq, Repr

/-- What a request carries: nothing, the API key, or a token that may have expired. -/
inductive Credential
  | none
  | apiKey
  | bearer (token : JwtPayload) (expired : Bool)
  deriving DecidableEq, Repr

/-- The body of a request that adds a user; the salt is the one drawn when it is hashed. -/
structure NewUser where
  username : String
  email : String
  password : String
  role : Option UserRole
  salt : Nat
  deriving DecidableEq, Repr

/-- The routes that `requireAuth` stands before. -/
inductive GuardedRoute
  | me
  | changePassword (currentPassword newPassword : String) (salt : Nat)
  | list
  | create (user : NewUser)
  | delete (id : Nat)
  | update (id : Nat) (email : Option String) (role : Option UserRole)
  | resetPassword (id : Nat) (newPassword adminPassword : String) (salt : Nat)
  deriving DecidableEq, Repr

/-- The routes with `requireRole('admin')`. -/
def GuardedRoute.adminOnly : GuardedRoute → Bool
  | .me | .changePassword .. => false
  | _ => true

inductive AuthRequest
  | login (username password : String)
  | setup (user : NewUser)
  | guarded (credential : Credential) (route : GuardedRoute)
  deriving DecidableEq, Repr

/-- The next database operation of a request, with what the request keeps for it. -/
inductive AuthPhase
  | loginUser (username password : String)
  | loginCompare (user : User) (password : String)
  | setupCount (user : NewUser)
  | setupInsert (user : NewUser)
  | setupSelect (id : Nat)
  | authenticate (credential : Credential) (route : GuardedRoute)
  | me (caller : JwtPayload)
  | changeSelect (caller : JwtPayload) (currentPassword newPassword : String) (salt : Nat)
  | changeUpdate (caller : JwtPayload) (newHash : String)
  | list
  | createUsername (caller : Option JwtPayload) (user : NewUser)
  | createEmail (caller : Option JwtPayload) (user : NewUser)
  | createInsert (caller : Option JwtPayload) (user : NewUser)
  | createSelect (id : Nat)
  | deleteSelect (caller : Option JwtPayload) (id : Nat)
  | deleteRow (caller : Option JwtPayload) (id : Nat)
  | updateSelect (caller : Option JwtPayload) (id : Nat) (email : Option String)
      (role : Option UserRole)
  | updateEmail (caller : Option JwtPayload) (id : Nat) (email : Option String)
      (role : Option UserRole)
  | updateRow (caller : Option JwtPayload) (id : Nat) (email : Option String)
      (role : Option UserRole)
  | updateReselect (id : Nat)
  | resetAdmin (caller : JwtPayload) (id : Nat) (newPassword adminPassword : String) (salt : Nat)
  | resetTarget (caller : JwtPayload) (id : Nat) (newPassword : String) (salt : Nat)
  | resetUpdate (caller : JwtPayload) (id : Nat) (newHash : String)
  deriving DecidableEq, Repr

/-! ### Answers -/

/-- `toPublicUser`, less the creation time. -/
structure UserPublic where
  id : Nat
  username : String
  email : String
  role : UserRole
  deriving DecidableEq, Repr

def toPublicUser (u : User) : UserPublic := ⟨u.id, u.username, u.email, u.role⟩

/-- The codes of `ErrorCode` that the routes answer with. -/
inductive AuthErrorCode
  | internalServerError
  | badRequest
  | unauthorized
  | forbidden
  | resourceNotFound
  | resourceAlreadyExists
  deriving DecidableEq, Repr

inductive AuthReply
  | session (status : Nat) (token : JwtPayload) (user : UserPublic)
  | user (status : Nat) (user : Option UserPublic)
  | users (users : List UserPublic)
  | message (text : String) (id : Option Nat)
  | error (code : AuthErrorCode) (message : String) (status : Nat)
  deriving DecidableEq, Repr

namespace AuthReply

def authenticationRequired : AuthReply := .error .unauthorized "Authentication required" 401

def invalidToken : AuthReply := .error .unauthorized "Invalid or expired token" 401

def insufficientPermissions : AuthReply := .error .forbidden "Insufficient permissions" 403

def userNotFound : AuthReply := .error .resourceNotFound "User not found" 404

def emailRegistered : AuthReply := .error .resourceAlreadyExists "Email already registered" 409

/-- What `handleUnknownError` makes of an error that is no `AppError`. -/
def unexpected : AuthReply := .error .internalServerError "An unexpected error occurred" 500

end AuthReply

/-! ### One database operation -/

/-- `bcrypt.hash` with the salt it draws, and `bcrypt.compare`. -/
structure Bcrypt where
  hash : String → Nat → String
  compare : String → String → Bool

/-- How far a request is. -/
inductive AuthProgress
  | waiting (phase : AuthPhase)
  | answered (reply : AuthReply)
  deriving DecidableEq, Repr

structure Auth where
  users : UserTable
  /-- the tokens that `generateToken` signed -/
  issued : List JwtPayload
  /-- `AUTH_SETUP_ENABLED` -/
  setupEnabled : Bool
  requests : Nat → Option AuthProgress

/-- What an operation leaves: the table, the tokens, and how far the request is now. -/
structure AuthTurn where
  users : UserTable
  issued : List JwtPayload
  next : AuthProgress

namespace Auth

/-- An operation that only reads. -/
def answer (s : Auth) (reply : AuthReply) : AuthTurn := ⟨s.users, s.issued, .answered reply⟩

def await (s : Auth) (phase : AuthPhase) : AuthTurn := ⟨s.users, s.issued, .waiting phase⟩

/-- `generateToken` for a row that was read. -/
def signIn (s : Auth) (status : Nat) (user : User) : AuthTurn :=
  let token : JwtPayload := ⟨user.id, user.username, user.role⟩
  ⟨s.users, s.issued ++ [token], .answered (.session status token (toPublicUser user))⟩

/-- `requireAuth` after the count: the user of the request, or the answer. -/
def requireAuth (s : Auth) (credential : Credential) : Except AuthReply (Option JwtPayload) :=
  if s.users.getUserCount = 0 then .ok none
  else match credential with
    | .apiKey => .ok none
    | .none => .error .authenticationRequired
    | .bearer token expired =>
      if token ∈ s.issued ∧ expired = false then .ok (some token) else .error .invalidToken

/-- `requireRole('admin')`. -/
def requireAdmin : Option JwtPayload → Bool
  | none => true
  | some user => user.role == .admin

/-- What a route does before its first database operation. -/
def handle (s : Auth) (caller : Option JwtPayload) : GuardedRoute → AuthTurn
  | .me =>
    match caller with
    | none => s.answer (.user 200 none)
    | some user => s.await (.me user)
  | .changePassword currentPassword newPassword salt =>
    match caller with
    | none => s.answer .authenticationRequired
    | some user => s.await (.changeSelect user currentPassword newPassword salt)
  | .list => s.await .list
  | .create user => s.await (.createUsername caller user)
  | .delete id =>
    if caller.any (·.userId == id) then
      s.answer (.error .badRequest "Cannot delete your own account" 400)
    else s.await (.deleteSelect caller id)
  | .update id email role => s.await (.updateSelect caller id email role)
  | .resetPassword id newPassword adminPassword salt =>
    match caller with
    | none => s.answer .authenticationRequired
    | some user =>
      if user.userId = id then
        s.answer (.error .badRequest "Use PUT /api/auth/password to change your own password" 400)
      else s.await (.resetAdmin user id newPassword adminPassword salt)

/-- The request goes through its next database operation and on to the one after it. -/
def turn (bcrypt : Bcrypt) (s : Auth) : AuthPhase → AuthTurn
  | .loginUser username password =>
    match s.users.getUserByUsername username with
    | some user => s.await (.loginCompare user password)
    | none => s.answer (.error .unauthorized "Invalid username or password" 401)
  | .loginCompare user password =>
    if bcrypt.compare password user.passwordHash then s.signIn 200 user
    else s.answer (.error .unauthorized "Invalid username or password" 401)
  | .setupCount user =>
    if s.users.getUserCount > 0 then
      s.answer (.error .forbidden "Setup already completed. Use admin to create users." 403)
    else s.await (.setupInsert user)
  | .setupInsert user =>
    match s.users.insert user.username user.email (bcrypt.hash user.password user.salt) .admin with
    | some (users, id) => ⟨users, s.issued, .waiting (.setupSelect id)⟩
    | none => s.answer .unexpected
  | .setupSelect id =>
    match s.users.getUserById id with
    | some user => s.signIn 201 user
    | none => s.answer .unexpected
  | .authenticate credential route =>
    match s.requireAuth credential with
    | .error reply => s.answer reply
    | .ok caller =>
      if route.adminOnly && !requireAdmin caller then s.answer .insufficientPermissions
      else s.handle caller route
  | .me caller =>
    match s.users.getUserById caller.userId with
    | some user => s.answer (.user 200 (some (toPublicUser user)))
    | none => s.answer (.error .unauthorized "User not found" 401)
  | .changeSelect caller currentPassword newPassword salt =>
    match s.users.getUserById caller.userId with
    | none => s.answer (.error .unauthorized "User not found" 401)
    | some user =>
      if bcrypt.compare currentPassword user.passwordHash then
        s.await (.changeUpdate caller (bcrypt.hash newPassword salt))
      else s.answer (.error .unauthorized "Current password is incorrect" 401)
  | .changeUpdate caller newHash =>
    ⟨s.users.updateUserPassword caller.userId newHash, s.issued,
      .answered (.message "Password changed successfully" none)⟩
  | .list => s.answer (.users (s.users.rows.map toPublicUser))
  | .createUsername caller user =>
    match s.users.getUserByUsername user.username with
    | some _ => s.answer (.error .resourceAlreadyExists "Username already taken" 409)
    | none => s.await (.createEmail caller user)
  | .createEmail caller user =>
    match s.users.getUserByEmail user.email with
    | some _ => s.answer .emailRegistered
    | none => s.await (.createInsert caller user)
  | .createInsert _ user =>
    match s.users.insert user.username user.email (bcrypt.hash user.password user.salt)
        (user.role.getD .viewer) with
    | some (users, id) => ⟨users, s.issued, .waiting (.createSelect id)⟩
    | none => s.answer .unexpected
  | .createSelect id =>
    match s.users.getUserById id with
    | some user => s.answer (.user 201 (some (toPublicUser user)))
    | none => s.answer .unexpected
  | .deleteSelect caller id =>
    match s.users.getUserById id with
    | some _ => s.await (.deleteRow caller id)
    | none => s.answer .userNotFound
  | .deleteRow _ id =>
    ⟨s.users.deleteUser id, s.issued, .answered (.message "User deleted" (some id))⟩
  | .updateSelect caller id email role =>
    match s.users.getUserById id with
    | none => s.answer .userNotFound
    | some user =>
      if caller.any (·.userId == id) && role.any (· != .admin) then
        s.answer (.error .badRequest "Cannot demote your own admin role" 400)
      else if email.any (· != user.email) then s.await (.updateEmail caller id email role)
      else s.await (.updateRow caller id email role)
  | .updateEmail caller id email role =>
    match email.bind s.users.getUserByEmail with
    | some existing =>
      if existing.id ≠ id then s.answer .emailRegistered
      else s.await (.updateRow caller id email role)
    | none => s.await (.updateRow caller id email role)
  | .updateRow _ id email role =>
    match s.users.updateUser id email role with
    | some users => ⟨users, s.issued, .waiting (.updateReselect id)⟩
    | none => s.answer .unexpected
  | .updateReselect id =>
    match s.users.getUserById id with
    | some user => s.answer (.user 200 (some (toPublicUser user)))
    | none => s.answer .unexpected
  | .resetAdmin caller id newPassword adminPassword salt =>
    match s.users.getUserById caller.userId with
    | none => s.answer (.error .unauthorized "Admin password is incorrect" 401)
    | some admin =>
      if bcrypt.compare adminPassword admin.passwordHash then
        s.await (.resetTarget caller id newPassword salt)
      else s.answer (.error .unauthorized "Admin password is incorrect" 401)
  | .resetTarget caller id newPassword salt =>
    match s.users.getUserById id with
    | some _ => s.await (.resetUpdate caller id (bcrypt.hash newPassword salt))
    | none => s.answer .userNotFound
  | .resetUpdate _ id newHash =>
    ⟨s.users.updateUserPassword id newHash, s.issued,
      .answered (.message "Password reset" (some id))⟩

end Auth

end Montr.Server
