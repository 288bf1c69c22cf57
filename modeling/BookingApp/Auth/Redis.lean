import BookingApp.Booking.Reservation
import BookingApp.Interleaving.Program
import BookingApp.Table

/-!
# Office sessions in Redis (`auth/session.store.ts`)

The keys the session store keeps, the commands it issues, and its functions as
programs of these commands. A `MULTI` is one command. Beside the keys the state
has the rows of the office users and of the reset links, and notes for what the
theorems speak about: what was stored under an id first, and with which password
it was opened; which sessions a completed revocation found; and what each read returned.
-/

set_option autoImplicit false

namespace BookingApp.Auth

open Interleaving

/-- A session id, as the number of sessions stored before: 256 random bits do not repeat. -/
abbrev Sid := Nat

structure OfficeSession extends BookingApp.OfficeSession where
  sid : Sid
  canIssueRefunds : Bool
  createdAt : Int
  lastSeenAt : Int
  deriving DecidableEq, Repr

/-- The session as it was stored first. -/
def OfficeSession.asCreated (s : OfficeSession) : OfficeSession :=
  { s with lastSeenAt := s.createdAt }

/-- The office user, as much of it as a session needs. -/
structure SessionSubject where
  id : String
  organizationId : String
  role : OfficeUserRole
  canIssueRefunds : Bool
  employeeId : Option String
  deriving DecidableEq, Repr

/-- What `create` stores. -/
def SessionSubject.session (user : SessionSubject) (sid : Sid) (now : Int) : OfficeSession where
  sid := sid
  officeUserId := user.id
  organizationId := user.organizationId
  role := user.role
  canIssueRefunds := user.canIssueRefunds
  employeeId := user.employeeId
  createdAt := now
  lastSeenAt := now

structure OfficeUser extends SessionSubject where
  email : String
  passwordHash : String
  firstName : String
  lastName : String
  failedLoginAttempts : Int := 0
  lockedUntil : Option Int := none
  lastLoginAt : Option Int := none
  archivedAt : Option Int := none
  deriving DecidableEq, Repr

instance : Keyed OfficeUser String := ⟨fun u => u.id⟩

structure PasswordResetToken where
  id : String
  officeUserId : String
  tokenHash : String
  expiresAt : Int
  usedAt : Option Int := none
  deriving DecidableEq, Repr

/-- `session:<sid>`: what `parse` makes of its text, which may be nothing. -/
structure SessionKey where
  value : Option OfficeSession
  expiresAt : Int
  deriving DecidableEq, Repr

/-- `session:user:<id>` -/
structure UserKey where
  members : List Sid
  expiresAt : Int
  deriving DecidableEq, Repr

structure State where
  now : Int := 0
  sessions : Sid → Option SessionKey := fun _ => none
  index : String → UserKey := fun _ => { members := [], expiresAt := 0 }
  drawn : Sid := 0
  users : List OfficeUser := []
  tokens : List PasswordResetToken := []
  employees : List Employee := []
  issued : Sid → Option OfficeSession := fun _ => none
  openedWith : Sid → Option String := fun _ => none
  revoked : List Sid := []
  returned : List (Sid × List Sid) := []

structure AppConfig where
  sessionIdleTtlMinutes : Nat
  sessionAbsoluteTtlMinutes : Nat

/-- `idleTtlSeconds` -/
def AppConfig.idleTtlSeconds (c : AppConfig) : Int :=
  c.sessionIdleTtlMinutes * 60

/-- `absoluteTtlMs` -/
def AppConfig.absoluteTtlMs (c : AppConfig) : Int :=
  c.sessionAbsoluteTtlMinutes * 60000

/-- The session has reached its absolute cap. -/
def AppConfig.Capped (c : AppConfig) (s : OfficeSession) (now : Int) : Prop :=
  c.absoluteTtlMs ≤ now - s.createdAt

instance (c : AppConfig) (s : OfficeSession) (now : Int) : Decidable (c.Capped s now) :=
  inferInstanceAs (Decidable (_ ≤ _))

namespace State

/-- `GET session:<sid>` -/
def get (sid : Sid) (σ : State) : Option (Option OfficeSession) :=
  (σ.sessions sid).bind fun key => if σ.now < key.expiresAt then some key.value else none

/-- `SET session:<sid> … EX seconds` -/
def setEx (sid : Sid) (session : OfficeSession) (seconds : Int) (σ : State) : State :=
  { σ with
    sessions := Function.update σ.sessions sid
      (some { value := some session, expiresAt := σ.now + seconds * 1000 }) }

/-- `DEL session:<sid> …` -/
def del (sids : List Sid) (σ : State) : State :=
  { σ with sessions := fun sid => if sid ∈ sids then none else σ.sessions sid }

/-- `SMEMBERS session:user:<id>` -/
def smembers (user : String) (σ : State) : List Sid :=
  if σ.now < (σ.index user).expiresAt then (σ.index user).members else []

/-- `SADD session:user:<id> sid` and `EXPIRE session:user:<id> seconds` -/
def saddExpire (user : String) (sid : Sid) (seconds : Int) (σ : State) : State :=
  { σ with
    index := Function.update σ.index user
      { members := sid :: σ.smembers user, expiresAt := σ.now + seconds * 1000 } }

/-- `SREM session:user:<id> sid …` -/
def srem (user : String) (sids : List Sid) (σ : State) : State :=
  { σ with
    index := Function.update σ.index user
      { σ.index user with members := (σ.index user).members.filter fun sid => sid ∉ sids } }

/-- The `MULTI` of `create`. -/
def store (c : AppConfig) (user : SessionSubject) (now : Int) (openedWith : Option String) (σ : State) :
    State :=
  let session := user.session σ.drawn now
  let σ' := (σ.setEx σ.drawn session c.idleTtlSeconds).saddExpire user.id σ.drawn
    ((c.absoluteTtlMs + 999) / 1000)
  { σ' with
    drawn := σ.drawn + 1,
    issued := Function.update σ.issued σ.drawn (some session),
    openedWith := Function.update σ.openedWith σ.drawn openedWith }

/-- `DEL` of sessions, with their `SREM` from the index of `owner`. -/
def remove (sids : List Sid) (owner : Option String) (σ : State) : State :=
  match owner with
  | some user => (σ.del sids).srem user sids
  | none => σ.del sids

/-- The sessions that `SMEMBERS` lists, less the one that is kept. -/
def listed (user : String) (keepSid : Option Sid) (σ : State) : List Sid :=
  (σ.smembers user).filter fun sid => decide (some sid ≠ keepSid)

/-- The sessions that exist and satisfy `p`. -/
def existing (p : Sid → OfficeSession → Bool) (σ : State) : List Sid :=
  (List.range σ.drawn).filter fun sid => (σ.get sid).join.any (p sid)

/-- What a read of `sid` that nothing interrupts returns, but for its `lastSeenAt`. -/
def readable (c : AppConfig) (σ : State) (sid : Sid) : Option OfficeSession :=
  (σ.get sid).join.filter fun s => !decide (c.Capped s σ.now)

end State

/-- A patch of an office user. An absent field stays as it is. -/
structure UpdateOfficeUserRequest where
  firstName : Option String := none
  lastName : Option String := none
  role : Option OfficeUserRole := none
  canIssueRefunds : Option Bool := none
  employeeId : Option (Option String) := none
  deriving DecidableEq, Repr

/-- Where a client stands: it has read a session and is to write it back; it is to store a session
for `user`, whose password it has checked against `openedWith`; it has loaded `existing` and is to
patch it; it has changed what the user may do and is to list the user's sessions, or has listed
them and is to delete them. -/
inductive Role where
  | idle
  | refreshing (sid : Sid) (session : OfficeSession)
  | storing (user : SessionSubject) (openedWith : Option String)
  | writing (existing : OfficeUser) (patch : UpdateOfficeUserRequest)
  | listing (user : String)
  | removing (user : String) (sids : List Sid)
  deriving DecidableEq, Repr

/-- The role of a client that has listed sessions of `user`, all of them unless one is kept. -/
def Role.havingListed (user : String) (keepSid : Option Sid) (sids : List Sid) : Role :=
  match keepSid with
  | some _ => .idle
  | none => if sids = [] then .idle else .removing user sids

abbrev world : World where
  State := State
  Role := Role
  Err := Failure
  idle := .idle

abbrev Program : Type → Type := Prog world

namespace SessionStore

/-- `create`. A note of the password hash that the caller has checked goes with it. -/
def create (c : AppConfig) (user : SessionSubject) (openedWith : Option String) : Program Sid := do
  let now ← commandAs (W := world) (fun _ => .storing user openedWith) id State.now
  command (W := world) (State.store c user now openedWith) State.drawn

/-- `destroy` -/
def destroy (sid : Sid) : Program Unit := do
  let raw ← command (W := world) id (State.get sid)
  let session := raw.join
  command (W := world) (State.remove [sid] (session.map fun s => s.officeUserId)) fun _ => ()

/-- `read` -/
def read (c : AppConfig) (sid : Sid) : Program (Option OfficeSession) := do
  let raw ← commandAs (W := world)
    (fun σ => ((σ.get sid).join.map (Role.refreshing sid)).getD .idle) id (State.get sid)
  match raw with
  | none => pure none
  | some none => do
    command (W := world) (State.remove [sid] none) fun _ => ()
    pure none
  | some (some session) => do
    let now ← commandAs (W := world)
      (fun σ => if c.Capped session σ.now then .idle else .refreshing sid session) id State.now
    if c.Capped session now then do
      destroy sid
      pure none
    else do
      let touched := { session with lastSeenAt := now }
      command (W := world) (State.setEx sid touched c.idleTtlSeconds) fun _ => ()
      pure (some touched)

/-- `destroySessionsOf` -/
def destroySessionsOf (user : String) (keepSid : Option Sid) : Program Nat := do
  let sids ← commandAs (W := world) (fun σ => .havingListed user keepSid (σ.listed user keepSid)) id
    (State.listed user keepSid)
  if sids = [] then pure 0
  else
    command (W := world) (State.remove sids (some user)) fun σ =>
      sids.countP fun sid => (σ.get sid).isSome

/-- `destroyAllForUser` -/
def destroyAllForUser (user : String) : Program Nat :=
  destroySessionsOf user none

/-- `destroyOthersForUser` -/
def destroyOthersForUser (user : String) (keepSid : Sid) : Program Nat :=
  destroySessionsOf user (some keepSid)

end SessionStore

/-! Calls of the store, with a note of what they find and do. -/

/-- A read. What was revoked before it started is noted beside what it returns. -/
def readCall (c : AppConfig) (sid : Sid) : Program Unit := do
  let before ← command (W := world) id State.revoked
  match ← SessionStore.read c sid with
  | none => pure ()
  | some _ =>
    command (W := world) (fun σ => { σ with returned := σ.returned ++ [(sid, before)] }) fun _ => ()

/-- The sessions that existed when a revocation started count as revoked once it has completed. -/
def revocation (role : Role) (p : Sid → OfficeSession → Bool) (revoke : Program Unit) :
    Program Unit := do
  let existed ← commandAs (W := world) (fun _ => role) id (State.existing p)
  revoke
  command (W := world) (fun σ => { σ with revoked := σ.revoked ++ existed }) fun _ => ()

def destroyCall (sid : Sid) : Program Unit :=
  revocation .idle (fun sid' _ => sid' == sid) (SessionStore.destroy sid)

def destroyAllForUserCall (user : String) : Program Unit :=
  revocation (.listing user) (fun _ s => s.officeUserId == user)
    (discard (SessionStore.destroyAllForUser user))

def destroyOthersForUserCall (user : String) (keepSid : Sid) : Program Unit :=
  revocation .idle (fun sid s => s.officeUserId == user && sid != keepSid)
    (discard (SessionStore.destroyOthersForUser user keepSid))

/-- Time passes. -/
def wait (ms : Nat) : Program Unit :=
  command (W := world) (fun σ => { σ with now := σ.now + ms }) fun _ => ()

end BookingApp.Auth
