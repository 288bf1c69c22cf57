import BookingApp.Auth.Accounts
import BookingApp.ReadCommitted.Adequacy
import BookingApp.ReadCommitted.Alone

/-!
# The lockout (`auth/auth.controller.ts`, `auth/password-reset.service.ts`)

Sign-ins and password resets statement by statement, over the rows of the users and
their reset links. Failures are counted by the database under the lock of the user's
row, and a sign-in resets them only where the row is not locked at that moment: the
counter is the number of failures since the last reset, in every interleaving.
-/

set_option autoImplicit false

namespace BookingApp.Lockout

open ReadCommitted Auth

/-- A note of what a transaction did to the failures of a user, as it commits: a failure, with the
time that it read; a sign-in, with the time of its request and the lock it found; a password reset. -/
inductive Entry where
  | failure (user : String) (clock : Option Int)
  | signedIn (user : String) (requestedAt : Int) (lockedUntil : Option Int)
  | confirmed (user : String)
  deriving DecidableEq, Repr

/-- A session that a sign-in has opened, with the time of its request. -/
structure Opened where
  user : String
  requestedAt : Int
  deriving DecidableEq, Repr

structure Db where
  users : List OfficeUser := []
  tokens : List PasswordResetToken := []
  entries : List Entry := []
  opened : List Opened := []

/-- Row locks. -/
inductive Lock where
  | user (id : String)
  | token (id : String)
  deriving DecidableEq, Repr

/-- The surroundings answer with the time. -/
abbrev store : Store where
  Db := Db
  Lock := Lock
  Point := Unit
  Err := Failure
  Answer := Int
  idle := ()
  legal _ := true
  decLock := inferInstance

abbrev Tx : Type → Type := Code store

namespace Db

def onUsers (f : List OfficeUser → List OfficeUser) (d : Db) : Db :=
  { d with users := f d.users }

def note (entries : List Entry) (d : Db) : Db :=
  { d with entries := d.entries ++ entries }

/-- The rows that the conditional reset of a sign-in finds. -/
def resettable (id : String) (now : Int) (d : Db) : List OfficeUser :=
  d.users.filter fun u =>
    u.id == id && u.archivedAt.isNone && u.lockedUntil.all fun time => decide (time ≤ now)

end Db

/-- A read outside of every transaction. -/
def query {α : Type} (f : Db → α) : Tx α :=
  .reset (select (S := store) () f)

/-- `this.clock.now()` -/
def now : Tx Int :=
  answer

/-- `officeUser.update where id` -/
def updateUser (id : String) (f : OfficeUser → OfficeUser) : Tx OfficeUser := do
  let row ← modify (S := store) () (fun _ => [.user id]) (fun _ => Db.onUsers (Table.update [id] f))
    fun d => Table.find id d.users
  match row with
  | some u => pure (f u)
  | none => throw recordNotFound

/-- A note that commits with the transaction. -/
def note (e : Entry) : Tx Unit :=
  modify (S := store) () (fun _ => []) (fun _ => Db.note [e]) fun _ => ()

/-- `recordFailure` -/
def recordFailure (officeUserId : String) : Tx Unit :=
  transaction (S := store) () do
    let user ← updateUser officeUserId fun u => { u with failedLoginAttempts := u.failedLoginAttempts + 1 }
    if user.failedLoginAttempts < maxFailedAttempts then note (.failure officeUserId none)
    else do
      let now ← now
      discard (updateUser officeUserId fun u =>
        { u with lockedUntil := some (now + lockoutMinutes * 60000) })
      note (.failure officeUserId (some now))

/-- The conditional reset of a sign-in: the rows it has changed, as they were. -/
def resetFailures (id : String) (now : Int) : Tx (List OfficeUser) :=
  transaction (S := store) ()
    (modify (S := store) () (fun d => (d.resettable id now).map fun u => .user u.id)
      (fun view d =>
        let ids := (view.resettable id now).map fun u => u.id
        (d.onUsers (Table.update ids fun u =>
          { u with failedLoginAttempts := 0, lockedUntil := none, lastLoginAt := some now })).note
            ((d.users.filter fun u => u.id ∈ ids).map fun u => .signedIn u.id now u.lockedUntil))
      fun d => d.resettable id now)

/-- `POST /auth/login` -/
def login (passwords : Passwords) (email password : String) : Tx Unit := do
  let now ← now
  let address := String.ofList (email.toList.map Char.toLower)
  let user ← query fun d => d.users.find? fun u => u.email == address
  match user with
  | none => throw invalidCredentials
  | some user => do
    let verified := passwords.verify user.passwordHash password
    let locked := user.lockedUntil.any fun time => decide (now < time)
    let archived := user.archivedAt.isSome
    if !verified || locked || archived then do
      if !verified then recordFailure user.id
      throw invalidCredentials
    else do
      let reset ← resetFailures user.id now
      ensure (S := store) (reset.length = 1) invalidCredentials
      .call (fun d => { d with opened := d.opened ++ [{ user := user.id, requestedAt := now }] })
        fun _ => .ret ()

/-- `PasswordResetService.confirm`, with the salt that the hashing draws. -/
def confirm (passwords : Passwords) (token newPassword salt : String) : Tx Unit := do
  let now ← now
  let row ← query fun d => d.tokens.find? fun t => t.tokenHash == passwords.hashResetToken token
  match row with
  | none => throw invalidToken
  | some row => do
    ensure (S := store) (row.usedAt.isNone ∧ now < row.expiresAt) invalidToken
    match passwords.hash newPassword salt with
    | .error e => throw e
    | .ok passwordHash =>
      transaction (S := store) () do
        let spend := fun (p : PasswordResetToken → Bool) =>
          modify (S := store) ()
            (fun d => (d.tokens.filter fun t => p t && t.usedAt.isNone).map fun t => .token t.id)
            (fun _ d =>
              { d with
                tokens := d.tokens.map fun t =>
                  if p t && t.usedAt.isNone then { t with usedAt := some now } else t })
            fun d => (d.tokens.filter fun t => p t && t.usedAt.isNone).length
        let claimed ← spend fun t => t.id == row.id
        ensure (S := store) (claimed = 1) invalidToken
        discard (updateUser row.officeUserId fun u =>
          { u with passwordHash, failedLoginAttempts := 0, lockedUntil := none })
        note (.confirmed row.officeUserId)
        discard (spend fun t => t.officeUserId == row.officeUserId)

/-- Sign-ins and password resets. -/
inductive LoginOp (passwords : Passwords) : Tx Unit → Prop where
  | login (email password : String) : LoginOp passwords (login passwords email password)
  | confirm (token newPassword salt : String) : LoginOp passwords (confirm passwords token newPassword salt)

namespace Entry

/-- The user that the entry is about. -/
def user : Entry → String
  | failure user _ => user
  | signedIn user _ _ => user
  | confirmed user => user

/-- The entry is of a reset. -/
def resets : Entry → Bool
  | failure _ _ => false
  | _ => true

end Entry

/-- One further entry, for the failures of the user since the last reset. -/
def tally (id : String) (since : List (Option Int)) (e : Entry) : List (Option Int) :=
  if e.user = id then
    match e with
    | .failure _ clock => since ++ [clock]
    | _ => []
  else since

/-- The failures of the user since the last reset, each with the time that it read. -/
def failures (id : String) (entries : List Entry) : List (Option Int) :=
  entries.foldl (tally id) []

/-- The row of a user says what has been noted of it. -/
structure Accurate (entries : List Entry) (u : OfficeUser) : Prop where
  attempts : u.failedLoginAttempts = (failures u.id entries).length
  locked : maxFailedAttempts ≤ u.failedLoginAttempts → ∃ clock time,
    (failures u.id entries).getLast? = some (some clock) ∧ u.lockedUntil = some time ∧
      clock + lockoutMinutes * 60000 ≤ time

/-- The lockout: the counters are right, an account with ten failures is locked, and a sign-in whose
request time lies before the lock that its reset finds opens no session. -/
structure LocksOut (d : Db) : Prop where
  accounts : ∀ u ∈ d.users, Accurate d.entries u
  signIns : ∀ user requestedAt time, .signedIn user requestedAt (some time) ∈ d.entries → time ≤ requestedAt
  opened : ∀ o ∈ d.opened, ∃ lockedUntil, .signedIn o.user o.requestedAt lockedUntil ∈ d.entries

section Failures

variable {id : String} {h e : List Entry}

theorem failures_append : failures id (h ++ e) = e.foldl (tally id) (failures id h) :=
  List.foldl_append

/-- Entries about other users do not matter. -/
theorem failures_append_of_forall (he : ∀ x ∈ e, x.user ≠ id) : failures id (h ++ e) = failures id h := by
  rw [failures_append]
  generalize failures id h = since
  induction e with
  | nil => rfl
  | cons x e ih =>
    have hx : tally id since x = since := if_neg (he x (by simp))
    rw [List.foldl_cons, hx]
    exact ih fun y hy => he y (by simp [hy])

theorem failures_append_failure (clock : Option Int) :
    failures id (h ++ [.failure id clock]) = failures id h ++ [clock] := by
  rw [failures_append]
  exact if_pos rfl

/-- After a reset there are none, whatever further resets come with it. -/
theorem failures_append_resets (hresets : ∀ x ∈ e, x.resets = true) (hsome : ∃ x ∈ e, x.user = id) :
    failures id (h ++ e) = [] := by
  rw [failures_append]
  generalize failures id h = since
  induction e generalizing since with
  | nil =>
    obtain ⟨x, hx, -⟩ := hsome
    cases hx
  | cons x e ih =>
    rw [List.foldl_cons]
    by_cases hrest : ∃ y ∈ e, y.user = id
    · exact ih (fun y hy => hresets y (by simp [hy])) hrest _
    · have hx : x.user = id := by
        obtain ⟨y, hy, huser⟩ := hsome
        rcases List.mem_cons.mp hy with rfl | hy
        · exact huser
        · exact absurd ⟨y, hy, huser⟩ hrest
      have hempty : tally id since x = [] := by
        have hreset := hresets x (by simp)
        cases x with
        | failure user clock => cases hreset
        | signedIn user requestedAt lockedUntil => exact if_pos hx
        | confirmed user => exact if_pos hx
      have hnone : ∀ y ∈ e, y.user ≠ id := fun y hy huser => hrest ⟨y, hy, huser⟩
      rw [hempty]
      exact failures_append_of_forall (h := []) hnone

end Failures

/-- What every committed state satisfies: the ids of the users are keys, and the lockout holds. -/
structure Kept (d : Db) : Prop where
  ids : (d.users.map Keyed.key).Nodup
  lockout : LocksOut d

/-- The protocol of the rows: entries are only added, and the lock of a row keeps it. -/
def lockoutProtocol : Proto store where
  toConditions := .none
  Inv := Kept
  Act d d' := d.entries <+: d'.entries
  Same l d d' := match l with
    | .user id => Table.find id d'.users = Table.find id d.users
    | .token _ => True
  same_refl l d := by cases l <;> trivial
  same_trans {l d₁ d₂ d₃} h₁ h₂ := by
    cases l with
    | user id => exact Eq.trans (b := Table.find id d₂.users) h₂ h₁
    | token id => trivial

section Commits

variable {d d' : Db} {held : List Lock}

/-- A commit that changes the rows of `ids` and notes `e`. -/
theorem guarantee_change (hd : Kept d) (ids : List String) {f : OfficeUser → OfficeUser} {e : List Entry}
    (husers : d'.users = Table.update ids f d.users) (hentries : d'.entries = d.entries ++ e)
    (hopened : d'.opened = d.opened) (hid : ∀ u, (f u).id = u.id) (hheld : ∀ id ∈ ids, .user id ∈ held)
    (habout : ∀ x ∈ e, x.user ∈ ids)
    (hrows : ∀ u ∈ d.users, u.id ∈ ids → Accurate (d.entries ++ e) (f u))
    (hsigned : ∀ user requestedAt time, .signedIn user requestedAt (some time) ∈ e → time ≤ requestedAt) :
    lockoutProtocol.Guarantee held d d' := by
  have hact : d.entries <+: d'.entries := by
    rw [hentries]
    exact List.prefix_append _ _
  refine ⟨hact, ⟨?_, ?_, ?_, ?_⟩, ?_⟩
  · rw [husers, Table.map_update fun u => hid u]
    exact hd.ids
  · intro u' hu'
    rw [husers] at hu'
    obtain ⟨u, hu, rfl⟩ := Table.mem_update.mp hu'
    rw [hentries]
    by_cases hmem : u.id ∈ ids
    · rw [if_pos (show Keyed.key u ∈ ids from hmem)]
      exact hrows u hu hmem
    · rw [if_neg (show Keyed.key u ∉ ids from hmem)]
      have hsame : failures u.id (d.entries ++ e) = failures u.id d.entries :=
        failures_append_of_forall fun x hx hx' => hmem (hx' ▸ habout x hx)
      obtain ⟨hattempts, hlocked⟩ := hd.lockout.accounts u hu
      exact ⟨by rw [hsame]; exact hattempts, by rw [hsame]; exact hlocked⟩
  · intro user requestedAt time hmem
    rw [hentries] at hmem
    rcases List.mem_append.mp hmem with hmem | hmem
    · exact hd.lockout.signIns user requestedAt time hmem
    · exact hsigned user requestedAt time hmem
  · intro o ho
    rw [hopened] at ho
    obtain ⟨lockedUntil, hmem⟩ := hd.lockout.opened o ho
    exact ⟨lockedUntil, hentries ▸ List.mem_append_left _ hmem⟩
  · intro l hl
    cases l with
    | user id =>
      have hnot : id ∉ ids := fun h => hl (hheld id h)
      show Table.find id d'.users = Table.find id d.users
      rw [husers, Table.find_update_of_notMem (fun u => hid u) hnot]
    | token id => trivial

end Commits

section Programs

variable {α : Type} {held : List Lock} {δ : Db → Db} {d : Db}
  {Q : α → List Lock → (Db → Db) → Db → Prop}

theorem wp_query {f : Db → α} (h : ∀ d', Kept d' → Q (f d') [] id d') :
    lockoutProtocol.wp (query f) Q (fun _ _ => True) held δ d :=
  fun _ _ _ => Proto.wp_select (fun _ _ _ => trivial) fun d' _ hd' _ => h d' hd'

/-- An update of a row that is there: its lock is held from then on. -/
theorem wp_updateUser {id : String} {f : OfficeUser → OfficeUser}
    {Q : OfficeUser → List Lock → (Db → Db) → Db → Prop}
    (h : ∀ d' u, lockoutProtocol.Rely () held d d' → Kept d' → Table.find id (δ d').users = some u →
      Q (f u) (held ++ [.user id]) (fun x => (δ x).onUsers (Table.update [id] f)) d') :
    lockoutProtocol.wp (updateUser id f) Q (fun _ _ => True) held δ d := by
  refine (Proto.wp_bind _ _).mpr (Proto.wp_modify (fun _ _ _ => trivial) fun d' hrely hd' _ => ?_)
  dsimp only
  cases hrow : Table.find id (δ d').users with
  | none => trivial
  | some u => exact h d' u hrely hd' hrow

theorem wp_note {e : Entry} {Q : Unit → List Lock → (Db → Db) → Db → Prop}
    (h : ∀ d', lockoutProtocol.Rely () held d d' → Q () (held ++ []) (fun x => (δ x).note [e]) d') :
    lockoutProtocol.wp (note e) Q (fun _ _ => True) held δ d :=
  Proto.wp_modify (fun _ _ _ => trivial) fun d' hrely _ _ => h d' hrely

/-- A transaction of which only the commit matters. -/
theorem wp_transaction {body : Tx α} {Q : α → List Lock → (Db → Db) → Db → Prop}
    (h : ∀ d', Kept d' → lockoutProtocol.wp body (lockoutProtocol.Commits () Q) (fun _ _ => True) [] id d') :
    lockoutProtocol.wp (transaction (S := store) () body) Q (fun _ _ => True) held δ d :=
  Proto.wp_transaction (fun _ _ _ => trivial) (fun _ _ _ _ _ => trivial) fun d' _ hd' => h d' hd'

/-- The row of a lock that is held. -/
theorem find_of_rely {id : String} {d' : Db} (hrely : lockoutProtocol.Rely () held d d')
    (hheld : .user id ∈ held) : Table.find id d'.users = Table.find id d.users :=
  Proto.Rely.same hrely hheld

/-- The row that a key finds is the only one with it. -/
theorem eq_of_find {id : String} {u v : OfficeUser} (hd : Kept d) (hu : Table.find id d.users = some u)
    (hv : v ∈ d.users) (hid : v.id = id) : v = u := by
  have hfind : Table.find id d.users = some v := hid ▸ Table.find_of_mem hd.ids hv
  exact Option.some.inj (hfind.symm.trans hu)

/-- One more failure, which reads the time and locks the account if there have been enough. -/
theorem Accurate.failure {entries : List Entry} {u u' : OfficeUser} (h : Accurate entries u)
    {clock : Option Int} (hid : u'.id = u.id) (hattempts : u'.failedLoginAttempts = u.failedLoginAttempts + 1)
    (hlocked : maxFailedAttempts ≤ u.failedLoginAttempts + 1 → ∃ now, clock = some now ∧
      u'.lockedUntil = some (now + lockoutMinutes * 60000)) :
    Accurate (entries ++ [.failure u.id clock]) u' := by
  have hfailures : failures u'.id (entries ++ [.failure u.id clock]) = failures u.id entries ++ [clock] := by
    rw [hid, failures_append_failure]
  constructor
  · rw [hfailures, hattempts, h.attempts]
    simp
  · intro hmany
    rw [hattempts] at hmany
    obtain ⟨now, rfl, htime⟩ := hlocked hmany
    refine ⟨now, _, ?_, htime, le_rfl⟩
    rw [hfailures]
    simp

theorem wp_recordFailure (id : String) :
    lockoutProtocol.wp (recordFailure id) (fun _ _ _ _ => True) (fun _ _ => True) held δ d := by
  refine wp_transaction fun d₁ _ => (Proto.wp_bind _ _).mpr (wp_updateUser fun d₂ u _ _ hu => ?_)
  split
  · -- the account is not to be locked
    next hfew =>
    refine wp_note fun d₃ h₃ d₄ h₄ hd₄ _ _ => ⟨?_, trivial⟩
    have hrow : Table.find id d₄.users = some u := by
      rw [find_of_rely h₄ (by simp), find_of_rely h₃ (by simp)]
      exact hu
    refine guarantee_change hd₄ [id] (e := [.failure id none]) rfl rfl rfl (fun _ => rfl) (by simp)
      (by simp [Entry.user]) (fun v hv hmem => ?_) (by simp)
    have hid : v.id = id := List.mem_singleton.mp hmem
    obtain rfl := eq_of_find hd₄ hrow hv hid
    subst hid
    refine (hd₄.lockout.accounts v hv).failure rfl rfl fun hmany => ?_
    exact absurd hmany (not_le.mpr hfew)
  · refine (Proto.wp_bind _ _).mpr (Proto.wp_answer fun d₃ h₃ _ now => (Proto.wp_bind _ _).mpr ?_)
    refine (Proto.wp_map _ _).mpr (wp_updateUser fun d₄ w h₄ _ _ => ?_)
    refine wp_note fun d₅ h₅ d₆ h₆ hd₆ _ _ => ⟨?_, trivial⟩
    refine guarantee_change hd₆ [id] (e := [.failure id (some now)])
      (Table.update_update fun _ => rfl) rfl rfl (fun _ => rfl) (by simp) (by simp [Entry.user])
      (fun v hv hmem => ?_) (by simp)
    have hid : v.id = id := List.mem_singleton.mp hmem
    subst hid
    exact (hd₆.lockout.accounts v hv).failure rfl rfl fun _ => ⟨now, rfl, rfl⟩

/-- A user whose failures have been reset. -/
theorem Accurate.reset {entries e : List Entry} {u : OfficeUser} (hresets : ∀ x ∈ e, x.resets = true)
    (hsome : ∃ x ∈ e, x.user = u.id) (hattempts : u.failedLoginAttempts = 0) :
    Accurate (entries ++ e) u := by
  constructor
  · rw [failures_append_resets hresets hsome, hattempts]
    rfl
  · intro hmany
    rw [hattempts] at hmany
    exact absurd hmany (by decide)

theorem mem_resettable {user : String} {now : Int} {u : OfficeUser} : u ∈ d.resettable user now ↔
    u ∈ d.users ∧ u.id = user ∧ u.archivedAt = none ∧ ∀ time, u.lockedUntil = some time → time ≤ now := by
  simp [Db.resettable, Option.all_eq_true, and_assoc]

/-- The reset finds the rows of one user, and has noted them when it is done. -/
theorem wp_resetFailures {user : String} {now : Int}
    {Q : List OfficeUser → List Lock → (Db → Db) → Db → Prop}
    (h : ∀ rows d', (rows.length = 1 → ∃ lockedUntil, .signedIn user now lockedUntil ∈ d'.entries) →
      Q rows [] id d') :
    lockoutProtocol.wp (resetFailures user now) Q (fun _ _ => True) held δ d := by
  refine wp_transaction fun d₁ _ => Proto.wp_modify (fun _ _ _ => trivial) fun d₂ _ hd₂ _ => ?_
  intro d₃ h₃ hd₃ _ _
  -- the rows that were found are as they were when the reset commits
  have hsame : ∀ u ∈ d₂.resettable user now, u ∈ d₃.users ∧ Table.find u.id d₃.users = some u := by
    intro u hu
    have hheld : Lock.user u.id ∈ [] ++ (d₂.resettable user now).map fun u => Lock.user u.id :=
      List.mem_append_right _ (List.mem_map.mpr ⟨u, hu, rfl⟩)
    have hfind : Table.find u.id d₃.users = some u :=
      (find_of_rely h₃ hheld).trans (Table.find_of_mem hd₂.ids (mem_resettable.mp hu).1)
    exact ⟨Table.mem_of_find hfind, hfind⟩
  have hrow : ∀ v ∈ d₃.users, v.id ∈ (d₂.resettable user now).map (fun u => u.id) →
      v ∈ d₂.resettable user now := by
    intro v hv hmem
    obtain ⟨u, hu, hid⟩ := List.mem_map.mp hmem
    rw [eq_of_find hd₃ (hsame u hu).2 hv hid.symm]
    exact hu
  refine ⟨guarantee_change hd₃ _ rfl rfl rfl (fun _ => rfl) ?_ ?_ ?_ ?_, h _ _ fun hone => ?_⟩
  · intro i hi
    obtain ⟨u, hu, rfl⟩ := List.mem_map.mp hi
    exact List.mem_append_right _ (List.mem_map.mpr ⟨u, hu, rfl⟩)
  · intro x hx
    obtain ⟨u, hu, rfl⟩ := List.mem_map.mp hx
    simpa [Entry.user] using (List.mem_filter.mp hu).2
  · intro u hu hmem
    refine Accurate.reset (fun x hx => ?_) ⟨.signedIn u.id now u.lockedUntil, ?_, rfl⟩ rfl
    · obtain ⟨v, -, rfl⟩ := List.mem_map.mp hx
      rfl
    · exact List.mem_map.mpr ⟨u, List.mem_filter.mpr ⟨hu, by simpa using hmem⟩, rfl⟩
  · intro user' requestedAt time hmem
    obtain ⟨u, hu, heq⟩ := List.mem_map.mp hmem
    obtain ⟨hu, hids⟩ := List.mem_filter.mp hu
    obtain ⟨-, rfl, hlock⟩ := Entry.signedIn.inj heq
    have hfound := hrow u hu (by simpa using hids)
    exact (mem_resettable.mp hfound).2.2.2 time hlock
  · obtain ⟨u, hu⟩ := List.length_eq_one_iff.mp hone
    have hmem : u ∈ d₂.resettable user now := by
      rw [show d₂.resettable user now = [u] from hu]
      exact List.mem_singleton_self u
    refine ⟨u.lockedUntil, List.mem_append_right _ (List.mem_map.mpr ⟨u, List.mem_filter.mpr ⟨?_, ?_⟩, ?_⟩)⟩
    · exact (hsame u hmem).1
    · simp only [decide_eq_true_eq]
      exact List.mem_map.mpr ⟨u, hmem, rfl⟩
    · rw [(mem_resettable.mp hmem).2.1]

theorem safe_login (passwords : Passwords) (email password : String) :
    lockoutProtocol.Safe (login passwords email password) := by
  intro d _
  refine (Proto.wp_bind _ _).mpr (Proto.wp_answer fun d₁ _ _ now => ?_)
  refine (Proto.wp_bind _ _).mpr (wp_query fun d₂ _ => ?_)
  cases hfind : d₂.users.find? fun u => u.email == String.ofList (email.toList.map Char.toLower) with
  | none => trivial
  | some user =>
    dsimp only
    split
    · split
      · exact (Proto.wp_bind _ _).mpr (Proto.wp_mono (wp_recordFailure user.id) (fun _ _ _ _ _ => trivial)
          fun _ _ _ => trivial)
      · trivial
    · refine (Proto.wp_bind _ _).mpr (wp_resetFailures fun rows d₃ hnoted => ?_)
      refine (Proto.wp_bind _ _).mpr (Proto.wp_ensure (fun hone => ?_) fun _ => trivial)
      intro d₄ h₄ hd₄
      have hinitial : d₃.entries <+: d₄.entries :=
        h₄.lift (T := fun x y : Db => x.entries <+: y.entries) (fun _ => List.prefix_rfl)
          (fun _ _ _ => List.IsPrefix.trans) fun _ _ hstep => hstep.1
      refine ⟨⟨List.prefix_rfl, ⟨hd₄.ids, ?_⟩, fun l _ => ?_⟩, trivial⟩
      · refine ⟨hd₄.lockout.accounts, hd₄.lockout.signIns, fun o ho => ?_⟩
        rcases List.mem_append.mp ho with ho | ho
        · exact hd₄.lockout.opened o ho
        · obtain ⟨lockedUntil, hmem⟩ := hnoted hone
          rw [List.mem_singleton.mp ho]
          exact ⟨lockedUntil, hinitial.subset hmem⟩
      · cases l with
        | user id => exact Eq.refl (Table.find id d₄.users)
        | token id => trivial

theorem safe_confirm (passwords : Passwords) (token newPassword salt : String) :
    lockoutProtocol.Safe (confirm passwords token newPassword salt) := by
  intro d _
  refine (Proto.wp_bind _ _).mpr (Proto.wp_answer fun d₁ _ _ now => ?_)
  refine (Proto.wp_bind _ _).mpr (wp_query fun d₂ _ => ?_)
  cases hfind : d₂.tokens.find? fun t => t.tokenHash == passwords.hashResetToken token with
  | none => trivial
  | some row =>
    dsimp only
    refine (Proto.wp_bind _ _).mpr (Proto.wp_ensure (fun _ => ?_) fun _ => trivial)
    cases hhash : passwords.hash newPassword salt with
    | error e => trivial
    | ok passwordHash =>
      dsimp only
      refine wp_transaction fun d₃ _ => ?_
      refine (Proto.wp_bind _ _).mpr (Proto.wp_modify (fun _ _ _ => trivial) fun d₄ _ _ _ => ?_)
      refine (Proto.wp_bind _ _).mpr (Proto.wp_ensure (fun _ => ?_) fun _ => trivial)
      refine (Proto.wp_bind _ _).mpr ((Proto.wp_map _ _).mpr (wp_updateUser fun d₅ u _ _ _ => ?_))
      refine (Proto.wp_bind _ _).mpr (wp_note fun d₆ _ => (Proto.wp_map _ _).mpr ?_)
      refine Proto.wp_modify (fun _ _ _ => trivial) fun d₇ _ _ _ d₈ _ hd₈ _ _ => ⟨?_, trivial⟩
      refine guarantee_change hd₈ [row.officeUserId] (e := [.confirmed row.officeUserId])
        rfl rfl rfl (fun _ => rfl) (by simp) (by simp [Entry.user]) (fun v _ hmem => ?_) (by simp)
      exact Accurate.reset (by simp [Entry.resets])
        ⟨_, List.mem_singleton_self _, (List.mem_singleton.mp hmem).symm⟩ rfl

theorem LoginOp.safe {passwords : Passwords} {c : Tx Unit} (h : LoginOp passwords c) :
    lockoutProtocol.Safe c := by
  cases h with
  | login email password => exact safe_login passwords email password
  | confirm token newPassword salt => exact safe_confirm passwords token newPassword salt

end Programs

/-- An update of a row that is there, on its own. -/
theorem runAlone_updateUser (s : Alone store) {id : String} {f : OfficeUser → OfficeUser} {u : OfficeUser}
    (h : Table.find id s.view.users = some u) :
    (updateUser id f).runAlone s = (.ok (f u), s.write fun _ => Db.onUsers (Table.update [id] f)) := by
  unfold updateUser
  rw [Code.runAlone_bind]
  simp only [Code.runAlone_modify, h]
  rfl

theorem runAlone_discard {α : Type} (s : Alone store) {c : Tx α} {a : α} {s' : Alone store}
    (h : c.runAlone s = (.ok a, s')) : (discard c).runAlone s = (.ok (), s') := by
  refine (Code.runAlone_map s (fun _ => ()) c).trans ?_
  rw [h]
  rfl

/-- A transaction on its own commits what its body leaves. -/
theorem runAlone_transaction {α : Type} (s : Alone store) {body : Tx α} {a : α} {J : Db → Prop}
    (h : ∃ s', body.runAlone (s.idleIn s.db) = (.ok a, s') ∧ J s'.view) :
    ∃ s', (transaction (S := store) () body).runAlone s = (.ok a, s') ∧ J s'.db := by
  obtain ⟨s', hbody, hJ⟩ := h
  exact ⟨_, (Code.runAlone_transaction_ok s hbody).trans (if_pos rfl), hJ⟩

/-- On its own, the transaction does to the rows what `Auth` takes for one command. -/
theorem runAlone_recordFailure (s : Alone store) (id : String) (hids : (s.db.users.map Keyed.key).Nodup)
    {σ σ' : State} {row : OfficeUser} (husers : σ.users = s.db.users) (hnow : σ.now = s.answers 0)
    (hrecord : σ.recordFailure id = .ok (row, σ')) :
    ∃ s', (recordFailure id).runAlone s = (.ok (), s') ∧ s'.db.users = σ'.users := by
  unfold State.recordFailure State.updateUser at hrecord
  cases hrow : Table.find id σ.users with
  | none => simp [hrow] at hrecord
  | some u =>
    simp only [hrow] at hrecord
    split at hrecord
    · cases hrecord
    cases hrecord
    dsimp only
    rw [husers] at hrow ⊢
    refine runAlone_transaction s (J := fun d => d.users = _) ?_
    rw [Code.runAlone_bind, runAlone_updateUser _ hrow]
    dsimp only
    by_cases hfew : u.failedLoginAttempts + 1 < maxFailedAttempts
    · rw [if_pos hfew]
      refine ⟨_, rfl, Table.update_congr_of_find hids hrow ?_⟩
      simp only [hfew, if_true]
    · rw [if_neg hfew, Code.runAlone_bind, now, Code.runAlone_answer]
      dsimp only
      have hrow' : Table.find id (Table.update [id] (fun u : OfficeUser =>
          { u with failedLoginAttempts := u.failedLoginAttempts + 1 }) s.db.users) =
            some { u with failedLoginAttempts := u.failedLoginAttempts + 1 } := by
        refine (Table.find_update_of_mem ?_ (List.mem_singleton_self id)).trans ?_
        · exact fun _ => rfl
        · rw [hrow]
          rfl
      rw [Code.runAlone_bind, runAlone_discard _ (runAlone_updateUser _ hrow')]
      refine ⟨_, rfl, Eq.trans (b := Table.update [id] (fun u =>
        { u with
          failedLoginAttempts := u.failedLoginAttempts + 1
          lockedUntil := some (s.answers 0 + lockoutMinutes * 60000) }) s.db.users) ?_ ?_⟩
      · exact Table.update_update fun _ => rfl
      · refine Table.update_congr_of_find hids hrow ?_
        simp only [hfew, if_false, hnow]

/-- Whatever the interleaving of sign-ins and password resets, and whichever of them fail or crash:
the counters are right, an account with ten failures is locked, and no sign-in opens a session that
was requested before the end of the lock that its reset found. -/
theorem locks_out (passwords : Passwords) {d : Db} (hids : (d.users.map Keyed.key).Nodup)
    (hfresh : ∀ u ∈ d.users, u.failedLoginAttempts = 0) (hentries : d.entries = []) (hopened : d.opened = [])
    {s : Sys store} (h : Sys.Reach (LoginOp passwords) .none { db := d } s) : LocksOut s.db := by
  have hstart : Kept d := by
    refine ⟨hids, fun u hu => ⟨?_, fun hmany => ?_⟩, fun _ _ _ hmem => ?_, fun o ho => ?_⟩
    · rw [hfresh u hu, hentries]
      rfl
    · rw [hfresh u hu] at hmany
      exact absurd hmany (by decide)
    · rw [hentries] at hmem
      cases hmem
    · rw [hopened] at ho
      cases ho
  exact (Sys.Reach.invariant (P := lockoutProtocol) (fun _ hop => hop.safe) (I := fun _ => True)
    (fun _ _ _ _ _ _ => trivial) hstart trivial h).1.lockout

/-- Passwords that are their own hashes. -/
def plainPasswords : Passwords where
  verify hash password := hash == password
  hash password _ := .ok password
  hashResetToken token := token

def sampleUser : OfficeUser where
  id := "user-1"
  organizationId := "org-1"
  role := .OWNER
  canIssueRefunds := true
  employeeId := none
  email := "a@b"
  passwordHash := "right"
  firstName := ""
  lastName := ""

/-- A wrong password, whose transaction commits after a right one has been checked. -/
def sampleSignIns : List (Action store) :=
  [.start (login plainPasswords "a@b" "wrong"), .start (login plainPasswords "a@b" "right"),
    .answer 0 1, .answer 1 2, .run 0, .run 1, .run 0, .run 1, .run 0, .run 0, .run 0, .run 0,
    .run 1, .run 1, .run 1, .run 1]

theorem locks_out_sample :
    ∃ s, Sys.Reach (LoginOp plainPasswords) .none { db := { users := [sampleUser] } } s ∧
      s.db.entries = [.failure "user-1" none, .signedIn "user-1" 2 none] ∧
      s.db.opened = [⟨"user-1", 2⟩] ∧ LocksOut s.db := by
  have hexec : (Sys.exec (S := store) .none { db := { users := [sampleUser] } } sampleSignIns).map
      (fun s => (s.db.entries, s.db.opened)) =
        some ([.failure "user-1" none, .signedIn "user-1" 2 none], [⟨"user-1", 2⟩]) := by rfl
  obtain ⟨s, hs, hnotes⟩ := Option.map_eq_some_iff.mp hexec
  obtain ⟨hentries, hopened⟩ := Prod.mk.inj hnotes
  have hreach : Sys.Reach (LoginOp plainPasswords) .none { db := { users := [sampleUser] } } s := by
    refine .exec (fun _ _ => trivial) .refl ?_ hs
    simp [sampleSignIns, Sys.Starts, LoginOp.login]
  refine ⟨s, hreach, hentries, hopened, ?_⟩
  exact locks_out plainPasswords (by simp) (by simp [sampleUser]) rfl rfl hreach

end BookingApp.Lockout
