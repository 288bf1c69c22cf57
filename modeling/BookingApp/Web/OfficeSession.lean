import BookingApp.Booking.Reservation
import BookingApp.Machine

/-!
# The office session of the browser (`stores/session.ts`)

Who is signed in, as the server described it last. A request that asks the server is remembered
with the generation it was sent in, and its answer counts only in that generation. Signing out and
an expiry begin a new one, signing in does not (`undisturbed_iff`).
-/

set_option autoImplicit false

namespace BookingApp.OfficeSession

structure OfficeUserDto where
  id : String
  email : String
  firstName : String
  lastName : String
  role : OfficeUserRole
  canIssueRefunds : Bool
  employeeId : Option String
  deriving DecidableEq, Repr

/-- What comes back from the server: who is signed in, or an error, with its status if it is the
server's own. -/
inductive Answer where
  | response (user : OfficeUserDto)
  | error (status : Option Nat)
  deriving DecidableEq, Repr

/-- The store, and how many calls of `login` and of `logout` wait for their answers. The request of
a hydrate that is in flight is known by the generation it was sent in. -/
structure Store where
  user : Option OfficeUserDto := none
  returnTo : Option String := none
  expired : Bool := false
  unreachable : Bool := false
  inflight : Option Nat := none
  generation : Nat := 0
  logins : Nat := 0
  logouts : Nat := 0
  deriving DecidableEq, Repr

/-- Compared on the pathname alone. -/
def isOfficePath (path : String) : Bool :=
  let pathname := path.toList.takeWhile fun c => c != '?' && c != '#'
  pathname == "/office".toList || "/office/".toList.isPrefixOf pathname

namespace Store

/-- Asks who is signed in, or joins the request that is asking already. -/
def hydrate (s : Store) : Store :=
  { s with inflight := some (s.inflight.getD s.generation) }

/-- The answer to a hydrate, which is dropped in a later generation. -/
def hydrated (answer : Answer) (s : Store) : Store :=
  match s.inflight with
  | none => s
  | some started =>
    if started ≠ s.generation then { s with inflight := none }
    else
      match answer with
      | .response user =>
        { s with user := some user, expired := false, unreachable := false, inflight := none }
      | .error status =>
        { s with user := none, unreachable := status != some 401, inflight := none }

/-- A login that the server answered: where to go next, and the store. -/
def login (user : OfficeUserDto) (s : Store) : Option String × Store :=
  (s.returnTo, { s with user := some user, expired := false, unreachable := false, returnTo := none })

/-- The store after a logout, whatever came of the call. -/
def logout (s : Store) : Store :=
  { s with
    generation := s.generation + 1
    user := none
    returnTo := none
    expired := false
    unreachable := false }

def rememberReturnTo (attemptedPath : String) (s : Store) : Store :=
  { s with returnTo := if isOfficePath attemptedPath then some attemptedPath else none }

/-- A live session is gone. Only the first to say so is answered `true`. -/
def markExpired (attemptedPath : String) (s : Store) : Bool × Store :=
  if s.expired then (false, s)
  else
    (true, rememberReturnTo attemptedPath
      { s with generation := s.generation + 1, expired := true, user := none })

/-- What an answer to a hydrate is about. -/
def shown (s : Store) : Option OfficeUserDto × Bool × Bool :=
  (s.user, s.expired, s.unreachable)

end Store

/-- The calls of the store's functions and the arrivals of the server's answers. -/
inductive Action where
  | hydrate
  | hydrated (answer : Answer)
  | login
  | loggedIn (answer : Answer)
  | logout
  | loggedOut
  | markExpired (attemptedPath : String)
  | rememberReturnTo (attemptedPath : String)
  deriving DecidableEq, Repr

/-- An answer that nothing waits for changes nothing. -/
def Store.step (s : Store) : Action → Store
  | .hydrate => s.hydrate
  | .hydrated answer => s.hydrated answer
  | .login => { s with logins := s.logins + 1 }
  | .loggedIn answer =>
    if s.logins = 0 then s
    else
      match answer with
      | .response user => (Store.login user { s with logins := s.logins - 1 }).2
      | .error _ => { s with logins := s.logins - 1 }
  | .logout => { s with logouts := s.logouts + 1 }
  | .loggedOut => if s.logouts = 0 then s else Store.logout { s with logouts := s.logouts - 1 }
  | .markExpired attemptedPath => (s.markExpired attemptedPath).2
  | .rememberReturnTo attemptedPath => s.rememberReturnTo attemptedPath

/-- The store after a list of actions, from a page that has just been loaded. -/
abbrev after : List Action → Store :=
  Machine.after Store.step {}

/-! ## Decisions -/

/-- A login sets the user. -/
def SignsIn (s : Store) (a : Action) : Prop :=
  0 < s.logins ∧ ∃ user, a = .loggedIn (.response user)

/-- A logout or an expiry sets the user. -/
def Invalidates (s : Store) (a : Action) : Prop :=
  (0 < s.logouts ∧ a = .loggedOut) ∨ (s.expired = false ∧ ∃ attemptedPath, a = .markExpired attemptedPath)

/-- An action other than a hydrate sets the user. -/
def Decides (s : Store) (a : Action) : Prop :=
  SignsIn s a ∨ Invalidates s a

/-- Within `acts`, a hydrate sends its request after `sent`, and gets its answer after `between`. -/
structure Exchange (acts sent between : List Action) (answer : Answer) : Prop where
  prefix_acts : sent ++ .hydrate :: (between ++ [.hydrated answer]) <+: acts
  free : (after sent).inflight = none
  silent : ∀ early, .hydrated early ∉ between

/-- The store when the answer comes to a request that was sent after `sent`. -/
abbrev arrival (sent between : List Action) : Store :=
  Machine.after Store.step (after (sent ++ [.hydrate])) between

section Steps

variable {s : Store} {a : Action}

/-- What an action other than an answer to a hydrate does: it signs in, begins a new generation, or
changes nothing of what is shown. -/
inductive Effect (s : Store) (a : Action) : Prop where
  | signedIn (h : SignsIn s a) (user : OfficeUserDto) (hshown : (s.step a).shown = (some user, false, false))
    (hgeneration : (s.step a).generation = s.generation)
  | invalidated (h : Invalidates s a) (hgeneration : (s.step a).generation = s.generation + 1)
  | other (h : ¬Decides s a) (hshown : (s.step a).shown = s.shown)
    (hgeneration : (s.step a).generation = s.generation)

theorem SignsIn.not_invalidates (h : SignsIn s a) : ¬Invalidates s a := by
  obtain ⟨-, user, rfl⟩ := h
  simp [Invalidates]

theorem not_decides_of_ne (hlogin : ∀ user, a ≠ .loggedIn (.response user)) (hlogout : a ≠ .loggedOut)
    (hexpiry : ∀ attemptedPath, a ≠ .markExpired attemptedPath) : ¬Decides s a := by
  rintro (⟨-, user, rfl⟩ | ⟨-, rfl⟩ | ⟨-, attemptedPath, rfl⟩)
  · exact hlogin user rfl
  · exact hlogout rfl
  · exact hexpiry attemptedPath rfl

theorem effect (ha : ∀ answer, a ≠ .hydrated answer) : Effect s a := by
  cases a with
  | hydrate => exact .other (not_decides_of_ne (by simp) (by simp) (by simp)) rfl rfl
  | hydrated answer => exact absurd rfl (ha answer)
  | login => exact .other (not_decides_of_ne (by simp) (by simp) (by simp)) rfl rfl
  | loggedIn answer =>
    by_cases hnone : s.logins = 0
    · have hstep : s.step (.loggedIn answer) = s := if_pos hnone
      have hdecides : ¬Decides s (.loggedIn answer) := by
        simp [Decides, SignsIn, Invalidates, hnone]
      exact .other hdecides (by rw [hstep]) (by rw [hstep])
    · cases answer with
      | response user =>
        have hstep : s.step (.loggedIn (.response user)) =
            (Store.login user { s with logins := s.logins - 1 }).2 := if_neg hnone
        have hsigns : SignsIn s (.loggedIn (.response user)) := ⟨by omega, user, rfl⟩
        exact .signedIn hsigns user (by rw [hstep]; rfl) (by rw [hstep]; rfl)
      | error status =>
        have hstep : s.step (.loggedIn (.error status)) = { s with logins := s.logins - 1 } :=
          if_neg hnone
        exact .other (not_decides_of_ne (by simp) (by simp) (by simp)) (by rw [hstep]; rfl) (by rw [hstep])
  | logout => exact .other (not_decides_of_ne (by simp) (by simp) (by simp)) rfl rfl
  | loggedOut =>
    by_cases hnone : s.logouts = 0
    · have hstep : s.step .loggedOut = s := if_pos hnone
      have hdecides : ¬Decides s .loggedOut := by simp [Decides, SignsIn, Invalidates, hnone]
      exact .other hdecides (by rw [hstep]) (by rw [hstep])
    · have hstep : s.step .loggedOut = Store.logout { s with logouts := s.logouts - 1 } := if_neg hnone
      have hinvalidates : Invalidates s .loggedOut := .inl ⟨by omega, rfl⟩
      exact .invalidated hinvalidates (by rw [hstep]; rfl)
  | markExpired attemptedPath =>
    cases hexpired : s.expired with
    | true =>
      have hstep : s.step (.markExpired attemptedPath) = s := by
        simp [Store.step, Store.markExpired, hexpired]
      have hdecides : ¬Decides s (.markExpired attemptedPath) := by
        simp [Decides, SignsIn, Invalidates, hexpired]
      exact .other hdecides (by rw [hstep]) (by rw [hstep])
    | false =>
      have hinvalidates : Invalidates s (.markExpired attemptedPath) := .inr ⟨hexpired, attemptedPath, rfl⟩
      apply Effect.invalidated hinvalidates
      simp [Store.step, Store.markExpired, Store.rememberReturnTo, hexpired]
  | rememberReturnTo attemptedPath =>
    exact .other (not_decides_of_ne (by simp) (by simp) (by simp)) rfl rfl

/-- A request stays in flight until it is answered. -/
theorem inflight_step {started : Nat} (ha : ∀ answer, a ≠ .hydrated answer)
    (h : s.inflight = some started) : (s.step a).inflight = some started := by
  cases a with
  | hydrate => simp [Store.step, Store.hydrate, h]
  | hydrated answer => exact absurd rfl (ha answer)
  | login | logout | rememberReturnTo attemptedPath => exact h
  | loggedIn answer =>
    by_cases hnone : s.logins = 0
    · simpa [Store.step, hnone] using h
    · cases answer <;> simpa [Store.step, Store.login, hnone] using h
  | loggedOut =>
    by_cases hnone : s.logouts = 0 <;> simpa [Store.step, Store.logout, hnone] using h
  | markExpired attemptedPath =>
    cases hexpired : s.expired <;>
      simpa [Store.step, Store.markExpired, Store.rememberReturnTo, hexpired] using h

/-- An answer from an older generation shows nothing new. -/
theorem shown_hydrated_of_ne {started : Nat} (h : s.inflight = some started) (hne : started ≠ s.generation)
    (answer : Answer) : (s.hydrated answer).shown = s.shown := by
  simp [Store.hydrated, h, hne, Store.shown]

/-- An answer in the generation of its request shows what it says: it leaves a signed-in user alone
only by naming that very user. -/
theorem shown_hydrated_iff (h : s.inflight = some s.generation) {user : OfficeUserDto}
    (hshown : s.shown = (some user, false, false)) (answer : Answer) :
    (s.hydrated answer).shown = s.shown ↔ answer = .response user := by
  rw [hshown]
  cases answer with
  | response answered => simp [Store.hydrated, h, Store.shown]
  | error status => simp [Store.hydrated, h, Store.shown]

end Steps

section Runs

variable {acts sent between : List Action} {answer : Answer}

/-- While a request is in flight, the generation tells whether there was a logout or an expiry. Where
there was none, what the last login has set is shown. -/
theorem arrival_cases (hfree : (after sent).inflight = none) (hsilent : ∀ early, .hydrated early ∉ between) :
    (arrival sent between).inflight = some (after sent).generation ∧
      ((Machine.Taken Store.step (after (sent ++ [.hydrate])) Invalidates between ∧
          (after sent).generation < (arrival sent between).generation) ∨
        (¬Machine.Taken Store.step (after (sent ++ [.hydrate])) Invalidates between ∧
          (arrival sent between).generation = (after sent).generation ∧
          (Machine.Taken Store.step (after (sent ++ [.hydrate])) SignsIn between →
            ∃ user, (arrival sent between).shown = (some user, false, false)))) := by
  induction between using List.reverseRecOn with
  | nil =>
    have hstart : arrival sent [] = (after sent).hydrate := Machine.after_concat
    rw [hstart]
    refine ⟨?_, .inr ⟨Machine.not_taken_nil, rfl, fun h => absurd h Machine.not_taken_nil⟩⟩
    simp [Store.hydrate, hfree]
  | append_singleton between a ih =>
    obtain ⟨hinflight, hcases⟩ := ih fun early hearly => hsilent early (List.mem_append_left [a] hearly)
    have ha : ∀ early, a ≠ .hydrated early := by
      rintro early rfl
      exact hsilent early (List.mem_append_right between List.mem_cons_self)
    have hlast : arrival sent (between ++ [a]) = (arrival sent between).step a := Machine.after_concat
    rw [hlast, Machine.taken_concat, Machine.taken_concat]
    refine ⟨inflight_step ha hinflight, ?_⟩
    rcases effect (s := arrival sent between) ha with
      ⟨hsigns, user, hshown, hgeneration⟩ | ⟨hinvalidates, hgeneration⟩ | ⟨hdecides, hshown, hgeneration⟩
    · rw [hgeneration, hshown]
      apply Or.imp (fun ⟨htaken, hlt⟩ => ⟨.inl htaken, hlt⟩) ?_ hcases
      rintro ⟨hnone, heq, -⟩
      exact ⟨not_or.mpr ⟨hnone, hsigns.not_invalidates⟩, heq, fun _ => ⟨user, rfl⟩⟩
    · left
      refine ⟨.inr hinvalidates, ?_⟩
      rcases hcases with ⟨-, hlt⟩ | ⟨-, heq, -⟩ <;> omega
    · obtain ⟨hsigns, hinvalidates⟩ := not_or.mp hdecides
      rw [hgeneration, hshown, or_iff_left hsigns, or_iff_left hinvalidates]
      exact hcases

/-- In a run, no answer changes what is shown after a decision that was made while its request was in
flight, exactly when each one names the user who is signed in, if a login was the only such decision. -/
theorem undisturbed_iff (acts : List Action) :
    (∀ sent between answer, Exchange acts sent between answer →
        Machine.Taken Store.step (after (sent ++ [.hydrate])) Decides between →
        ((arrival sent between).hydrated answer).shown = (arrival sent between).shown) ↔
      ∀ sent between answer, Exchange acts sent between answer →
        Machine.Taken Store.step (after (sent ++ [.hydrate])) SignsIn between →
        ¬Machine.Taken Store.step (after (sent ++ [.hydrate])) Invalidates between →
        ∃ user, answer = .response user ∧ (arrival sent between).user = some user := by
  constructor
  · intro h sent between answer hexchange hsigns hinvalidates
    obtain ⟨hinflight, ⟨htaken, -⟩ | ⟨-, heq, hlogin⟩⟩ := arrival_cases hexchange.free hexchange.silent
    · exact absurd htaken hinvalidates
    · obtain ⟨user, hshown⟩ := hlogin hsigns
      have hsame := h sent between answer hexchange (hsigns.mono fun _ _ => Or.inl)
      rw [← heq] at hinflight
      refine ⟨user, (shown_hydrated_iff hinflight hshown answer).mp hsame, ?_⟩
      exact congrArg Prod.fst hshown
  · intro h sent between answer hexchange hdecides
    obtain ⟨hinflight, ⟨-, hlt⟩ | ⟨hinvalidates, heq, hlogin⟩⟩ :=
      arrival_cases hexchange.free hexchange.silent
    · exact shown_hydrated_of_ne hinflight hlt.ne answer
    · have hsigns := (Machine.taken_or.mp hdecides).resolve_right hinvalidates
      obtain ⟨user, hshown⟩ := hlogin hsigns
      obtain ⟨named, rfl, huser⟩ := h sent between answer hexchange hsigns hinvalidates
      rw [← heq] at hinflight
      apply (shown_hydrated_iff hinflight hshown _).mpr
      have hnamed : some user = some named := (congrArg Prod.fst hshown).symm.trans huser
      rw [Option.some.inj hnamed]

def OfficeUserDto.sample : OfficeUserDto where
  id := "u1"
  email := "mara@shapeandflow.test"
  firstName := "Mara"
  lastName := "Vogt"
  role := .ADMIN
  canIssueRefunds := false
  employeeId := none

/-- A hydrate is slow, a login succeeds, and the answer from before it arrives. -/
theorem login_overwritten :
    ¬∀ acts sent between answer, Exchange acts sent between answer →
      Machine.Taken Store.step (after (sent ++ [.hydrate])) Decides between →
      ((arrival sent between).hydrated answer).shown = (arrival sent between).shown := by
  intro hall
  have hexchange : Exchange [.hydrate, .login, .loggedIn (.response .sample), .hydrated (.error (some 401))] []
      [.login, .loggedIn (.response .sample)] (.error (some 401)) :=
    ⟨List.prefix_refl _, rfl, by simp⟩
  have hdecides : Machine.Taken Store.step (after [.hydrate]) Decides
      [.login, .loggedIn (.response .sample)] :=
    ⟨[.login], .loggedIn (.response .sample), [], rfl, .inl ⟨by decide, .sample, rfl⟩⟩
  exact absurd (hall _ _ _ _ hexchange hdecides) (by decide)

end Runs

end BookingApp.OfficeSession
