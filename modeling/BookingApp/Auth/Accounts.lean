import BookingApp.Auth.Redis

/-!
# Office accounts (`auth/`, `office/office-users.service.ts`)

Signing in, changing a user, archiving one and consuming a reset link. A statement of
the database outside a transaction, and a whole transaction, is one command.
-/

set_option autoImplicit false

namespace BookingApp.Auth

open Interleaving

/-- The password hashing, as the services use it: `hash` draws a salt and refuses a weak password. -/
structure Passwords where
  verify : String → String → Bool
  hash : String → String → Except Failure String
  hashResetToken : String → String

def maxFailedAttempts : Int := 10

def lockoutMinutes : Int := 15

def invalidCredentials : Failure :=
  .app { code := "UNAUTHENTICATED", message := "Invalid credentials." }

def invalidToken : Failure :=
  .app
    { code := "UNAUTHENTICATED"
      message := "This reset link is not valid. It may have expired or already been used." }

def cannotModifySelf (message : String) : Failure :=
  .app { code := "CANNOT_MODIFY_SELF", message }

/-- The unique constraint on the employee a user is linked to. -/
def employeeTaken : Failure :=
  .database { sqlState := some "23505", message := "Unique constraint failed", fields := ["employee_id"] }

namespace State

/-- `officeUser.update where id`: the row has to be there, and no two users share an employee. -/
def updateUser (id : String) (f : OfficeUser → OfficeUser) (σ : State) :
    Except Failure (OfficeUser × State) :=
  match Table.find id σ.users with
  | none => .error recordNotFound
  | some row =>
    if σ.users.any fun u => u.id != id && u.employeeId.isSome && u.employeeId == (f row).employeeId then
      .error employeeTaken
    else .ok (f row, { σ with users := Table.update [id] f σ.users })

/-- The transaction of `recordFailure`. -/
def recordFailure (id : String) (σ : State) : Except Failure (OfficeUser × State) :=
  σ.updateUser id fun u =>
    { u with
      failedLoginAttempts := u.failedLoginAttempts + 1
      lockedUntil :=
        if u.failedLoginAttempts + 1 < maxFailedAttempts then u.lockedUntil
        else some (σ.now + lockoutMinutes * 60000) }

/-- The users whose failures a sign-in may reset. -/
def resettable (id : String) (now : Int) (σ : State) : List OfficeUser :=
  σ.users.filter fun u =>
    u.id == id && u.archivedAt.isNone && u.lockedUntil.all fun time => decide (time ≤ now)

def resetFailures (id : String) (now : Int) (σ : State) : State :=
  let ids := (σ.resettable id now).map fun u => u.id
  { σ with
    users := Table.update ids
      (fun u => { u with failedLoginAttempts := 0, lockedUntil := none, lastLoginAt := some now })
      σ.users }

/-- The transaction of `confirm`. -/
def claim (token : PasswordResetToken) (passwordHash : String) (now : Int) (σ : State) :
    Except Failure (Unit × State) :=
  if (σ.tokens.filter fun t => t.id == token.id && t.usedAt.isNone).length = 1 then
    match Table.find token.officeUserId σ.users with
    | none => .error recordNotFound
    | some _ =>
      .ok ((),
        { σ with
          users := Table.update [token.officeUserId]
            (fun u => { u with passwordHash, failedLoginAttempts := 0, lockedUntil := none }) σ.users
          tokens := σ.tokens.map fun t =>
            if t.usedAt.isNone && (t.id == token.id || t.officeUserId == token.officeUserId) then
              { t with usedAt := some now }
            else t })
  else .error invalidToken

end State

/-- `POST /auth/login` -/
def login (passwords : Passwords) (c : AppConfig) (email password : String) : Program Sid := do
  let now ← command (W := world) id State.now
  let address := String.ofList (email.toList.map Char.toLower)
  let user ← command (W := world) id fun σ => σ.users.find? fun u => u.email == address
  match user with
  | none => .throw invalidCredentials
  | some user => do
    let verified := passwords.verify user.passwordHash password
    let locked := user.lockedUntil.any fun time => decide (now < time)
    if !verified then do
      discard (transact (W := world) (fun _ => .idle) (State.recordFailure user.id))
      .throw invalidCredentials
    else do
      ensure (W := world) (¬(locked || user.archivedAt.isSome)) invalidCredentials
      let count ← command (W := world) (State.resetFailures user.id now) fun σ =>
        (σ.resettable user.id now).length
      ensure (W := world) (count = 1) invalidCredentials
      SessionStore.create c user.toSessionSubject (some user.passwordHash)

namespace OfficeUsersService

/-- `load` -/
def load (organizationId id : String) (role : OfficeUser → Role) : Program OfficeUser :=
  transact (W := world) role fun σ =>
    match σ.users.find? fun u => u.id == id && u.organizationId == organizationId with
    | some user => .ok (user, σ)
    | none => .error (.app { code := "NOT_FOUND", message := "Office user not found." })

/-- `assertNotSelf` -/
def assertNotSelf (actor : OfficeSession) (id message : String) : Program Unit :=
  ensure (W := world) (actor.officeUserId ≠ id) (cannotModifySelf message)

/-- `assertEmployeeUsable` -/
def assertEmployeeUsable (organizationId : String) (employeeId : Option (Option String)) (role : Role) :
    Program Unit :=
  transact (W := world) (fun _ => role) fun σ =>
    match employeeId.join with
    | none => .ok ((), σ)
    | some employeeId =>
      if σ.employees.any fun e =>
          e.id == employeeId && e.organizationId == organizationId && e.archivedAt.isNone then
        .ok ((), σ)
      else .error (.app { code := "NOT_FOUND", message := "Employee not found." })

end OfficeUsersService

/-- The row with the fields that the caller sent. -/
def UpdateOfficeUserRequest.apply (patch : UpdateOfficeUserRequest) (u : OfficeUser) : OfficeUser :=
  { u with
    firstName := patch.firstName.getD u.firstName
    lastName := patch.lastName.getD u.lastName
    role := patch.role.getD u.role
    canIssueRefunds := patch.canIssueRefunds.getD u.canIssueRefunds
    employeeId := patch.employeeId.getD u.employeeId }

/-- `authorizationChanged` -/
def authorizationChanged (user existing : OfficeUser) : Bool :=
  user.role != existing.role || user.canIssueRefunds != existing.canIssueRefunds ||
    user.employeeId != existing.employeeId

namespace OfficeUsersService

/-- `update` -/
def update (organizationId : String) (actor : OfficeSession) (id : String)
    (patch : UpdateOfficeUserRequest) : Program (OfficeUser × Nat) := do
  let existing ← load organizationId id fun _ => .idle
  if patch.role.any (· != existing.role) then
    assertNotSelf actor id "You cannot change your own role."
  if patch.canIssueRefunds.any (· != existing.canIssueRefunds) then
    assertNotSelf actor id "You cannot change your own refund permission."
  assertEmployeeUsable organizationId patch.employeeId (.writing existing patch)
  let user ← transact (W := world)
    (fun user => if authorizationChanged user existing then .listing id else .idle)
    (State.updateUser id patch.apply)
  if authorizationChanged user existing then do
    let revoked ← SessionStore.destroyAllForUser id
    pure (user, revoked)
  else pure (user, 0)

/-- `archive` -/
def archive (organizationId : String) (actor : OfficeSession) (id : String) :
    Program (OfficeUser × Nat) := do
  let existing ← load organizationId id fun _ => .idle
  assertNotSelf actor id "You cannot archive your own account."
  if existing.archivedAt.isSome then pure (existing, 0)
  else do
    let user ← transact (W := world) (fun _ => .listing id) fun σ =>
      σ.updateUser id fun u => { u with archivedAt := some σ.now }
    let revoked ← SessionStore.destroyAllForUser id
    pure (user, revoked)

end OfficeUsersService

/-- `PasswordResetService.confirm`, with the salt that the hashing draws. -/
def confirm (passwords : Passwords) (token newPassword salt : String) : Program Unit := do
  let now ← command (W := world) id State.now
  let row ← command (W := world) id fun σ =>
    σ.tokens.find? fun t => t.tokenHash == passwords.hashResetToken token
  match row with
  | none => .throw invalidToken
  | some row => do
    ensure (W := world) (row.usedAt.isNone ∧ now < row.expiresAt) invalidToken
    match passwords.hash newPassword salt with
    | .error e => .throw e
    | .ok passwordHash => do
      transact (W := world) (fun _ => .listing row.officeUserId) (State.claim row passwordHash now)
      discard (SessionStore.destroyAllForUser row.officeUserId)

end BookingApp.Auth
