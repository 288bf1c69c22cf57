import BookingApp.Booking.Histories

/-!
# The sessions of released slots

Nobody can pay for a booking that was given up, as long as a session is attached to a
booking that has not been given up, a booking that is given up without asking the provider
names no session, and a payment fails together with the session it was to be made in.
-/

set_option autoImplicit false

namespace BookingApp

open ReadCommitted ReadCommitted.Proto

/-- What becomes of a hold that nobody paid for. -/
def RELEASED_BOOKING_STATUSES : List BookingStatus :=
  [.EXPIRED, .PAYMENT_FAILED]

/-- The booking that a session is attached to at this commit. -/
def Point.attachedTo : Point → Option String
  | .attachment bookingId _ => some bookingId
  | _ => none

/-- The booking that is given up at this commit as one that names no session. -/
def Point.releasedUnasked : Point → Option String
  | .release bookingId none => some bookingId
  | _ => none

/-- The booking whose payment fails at this commit. -/
def Point.failedPayment : Point → Option String
  | .failure bookingId => some bookingId
  | _ => none

instance (state : ProviderState) (id : String) : Decidable (state.Ended id) :=
  decidable_of_iff ((∃ session ∈ state.sessions, session.id = id) ∧
    ∀ session ∈ state.sessions, session.id = id → session.payable = false)
    ⟨fun h => ⟨h.1, h.2⟩, fun h => ⟨h.known, h.closed⟩⟩

/-- A session is attached to a booking that was not given up; a booking that is given up unasked names
no session; and one whose payment fails names no session that is still open. -/
def askedReleases : Conditions store where
  Assume p d :=
    (∀ id ∈ p.attachedTo, ∀ b ∈ Table.find id d.bookings, b.status ∉ RELEASED_BOOKING_STATUSES) ∧
    (∀ id ∈ p.releasedUnasked, ∀ b ∈ Table.find id d.bookings, b.status = .EXPIRING →
      b.stripeCheckoutSessionId = none) ∧
    ∀ id ∈ p.failedPayment, ∀ b ∈ Table.find id d.bookings, b.status = .PENDING_PAYMENT →
      ∀ sessionId ∈ b.stripeCheckoutSessionId, d.provider.Ended sessionId
  Stable _ _ _ := True
  Fault _ _ := True

instance : askedReleases.Checkable where
  assume p d := inferInstanceAs (Decidable (
    (∀ id ∈ p.attachedTo, ∀ b ∈ Table.find id d.bookings, b.status ∉ RELEASED_BOOKING_STATUSES) ∧
    (∀ id ∈ p.releasedUnasked, ∀ b ∈ Table.find id d.bookings, b.status = .EXPIRING →
      b.stripeCheckoutSessionId = none) ∧
    ∀ id ∈ p.failedPayment, ∀ b ∈ Table.find id d.bookings, b.status = .PENDING_PAYMENT →
      ∀ sessionId ∈ b.stripeCheckoutSessionId, d.provider.Ended sessionId))
  stable _ _ _ := .isTrue trivial
  fault _ _ := .isTrue trivial

/-- The rules under which released slots are looked at. -/
def releaseRules : BookingRules where
  conditions := askedReleases
  refunds := True

theorem releaseRules_sound : releaseRules.Sound where
  kept _ _ _ _ := trivial
  reports _ _ _ _ _ _ _ _ _ := trivial

theorem releaseRules_handles (h : releaseRules.refunds) : releaseRules.Handles :=
  .of_forall releaseRules_sound h fun _ _ => trivial

/-- Someone can pay in the session. -/
def ProviderState.Open (state : ProviderState) (id : String) : Prop :=
  ∃ session ∈ state.sessions, session.id = id ∧ session.payable = true

/-- A booking that was given up names no session that is open, and its customer was given the link of
none. -/
def NotPayable (d : Db) : Prop :=
  ∀ b ∈ d.bookings, b.status ∈ RELEASED_BOOKING_STATUSES →
    (∀ sessionId ∈ b.stripeCheckoutSessionId, ¬ d.provider.Open sessionId) ∧
    ∀ c ∈ d.checkouts, c.1 = b.id → ¬ d.provider.Open c.2

/-- What a booking that was given up names has ended, and a session that a customer was given is the one
that the booking names. -/
structure Closed (d : Db) : Prop where
  released : ∀ b ∈ d.bookings, b.status ∈ RELEASED_BOOKING_STATUSES →
    ∀ sessionId ∈ b.stripeCheckoutSessionId, d.provider.Ended sessionId
  handed : ∀ c ∈ d.checkouts, Names c.1 c.2 d

variable {d d' : Db} {rules : BookingRules}

theorem ProviderState.Ended.not_open {state : ProviderState} {id : String} (h : state.Ended id) :
    ¬ state.Open id := by
  rintro ⟨session, hmem, hid, hpayable⟩
  rw [h.closed session hmem hid] at hpayable
  cases hpayable

theorem Closed.notPayable (h : Closed d) (hlegal : Legal d) : NotPayable d := by
  intro b hb hreleased
  refine ⟨fun sessionId hsession => (h.released b hb hreleased sessionId hsession).not_open, fun c hc hid => ?_⟩
  obtain ⟨x, hx, hnamed⟩ := h.handed c hc
  have hfind : Table.find c.1 d.bookings = some b := hid ▸ Table.find_of_mem hlegal.bookings.pkey hb
  obtain rfl := Option.some.inj (hx.symm.trans hfind)
  have hunpaid : x.status ∈ UNPAID_BOOKING_STATUSES := by
    rcases List.mem_cons.mp hreleased with hstatus | hstatus
    · simp [hstatus, UNPAID_BOOKING_STATUSES]
    · simp [List.mem_singleton.mp hstatus, UNPAID_BOOKING_STATUSES]
  have hsession := hnamed.resolve_right (not_not.mpr hunpaid)
  exact (h.released x hb hreleased c.2 hsession).not_open

/-- A link that a customer is given leads to the session that the booking names. -/
theorem Commit.handed (h : Commit rules d d') {c : String × String} (hc : c ∈ d'.checkouts) :
    c ∈ d.checkouts ∨ Names c.1 c.2 d' := by
  have hchange := h.change
  cases hchange with
  | handed b sessionId hb hnamed hd =>
    rw [hd] at hc
    rcases List.mem_append.mp hc with hc | hc
    · exact .inl hc
    · obtain rfl := List.mem_singleton.mp hc
      exact .inr (h.names ⟨b, hb, hnamed⟩)
  | _ =>
    rename_i hd
    exact .inl (by rwa [hd] at hc)

theorem Closed.commit (hc : Closed d) (h : Commit releaseRules d d') : Closed d' where
  handed c hmem := by
    rcases h.handed hmem with hold | hnamed
    · exact h.names (hc.handed c hold)
    · exact hnamed
  released b' hb' hreleased sessionId hsession := by
    have hkept : ∀ {b : Booking}, b ∈ d.bookings → b.status ∈ RELEASED_BOOKING_STATUSES →
        b.stripeCheckoutSessionId = some sessionId → d'.provider.Ended sessionId :=
      fun hb hstatus hsome => h.change.ended_session (hc.released _ hb hstatus sessionId hsome)
    rcases h.booking hb' with ⟨b, hb, hid⟩ | hnew
    · have hfind : Table.find b.id d.bookings = some b := Table.find_of_mem h.before.bookings.pkey hb
      have hfind' : Table.find b.id d'.bookings = some b' :=
        hid ▸ Table.find_of_mem h.after.bookings.pkey hb'
      cases h.change.row hfind hfind' with
      | kept hstatus hsame => exact hkept hb (hstatus ▸ hreleased) (hsame.symm.trans hsession)
      | attached other hassume hnone hunpaid hstatus =>
        exact absurd (hstatus ▸ hreleased) (hassume.1 b.id rfl b hfind)
      | confirmed input hassume hhold hstatus => simp [hstatus, RELEASED_BOOKING_STATUSES] at hreleased
      | failed hassume hhold hstatus hsame =>
        exact h.change.ended_session (hassume.2.2 b.id rfl b hfind hhold sessionId (hsame.symm.trans hsession))
      | lapsing hhold hstatus => simp [hstatus, RELEASED_BOOKING_STATUSES] at hreleased
      | released asked hassume hhold hstatus hsame hended =>
        have hsome : b.stripeCheckoutSessionId = some sessionId := hsame.symm.trans hsession
        cases asked with
        | none =>
          have hnone := hassume.2.1 b.id rfl b hfind hhold
          cases hnone.symm.trans hsome
        | some id =>
          obtain ⟨hnamed, hclosed⟩ := hended id rfl
          obtain rfl := Option.some.inj (hnamed.symm.trans hsome)
          exact h.change.ended_session hclosed
      | ended hconfirmed hends =>
        exact absurd hends (by revert hreleased; cases b'.status <;> simp [RELEASED_BOOKING_STATUSES, ENDINGS])
      | replaced hpaid hstatus => simp [hstatus, RELEASED_BOOKING_STATUSES] at hreleased
    · cases hnew with
      | reserved _ _ _ _ hnone => cases hnone.symm.trans hsession
      | replaced _ _ _ _ _ _ _ _ hnone => cases hnone.symm.trans hsession

/-- No booking that was given up has a session that someone can pay in, in every run in which sessions
are attached in time, and no one gives up a booking whose session he has not seen ended. -/
theorem released_not_payable {d : Db} (hd : Legal d) (hc : Closed d) {s : Sys store}
    (hrun : Sys.Reach (BookingOperation releaseRules) askedReleases { db := d } s) : NotPayable s.db := by
  have hinv : Legal s.db ∧ Closed s.db :=
    BookingOperation.invariant (J := fun d => Legal d ∧ Closed d) releaseRules_sound releaseRules_handles
      (fun _ _ h hc => ⟨h.after, hc.2.commit h⟩) ⟨hd, trivial⟩ ⟨hd, hc⟩ hrun
  exact hinv.2.notPayable hinv.1

/-- The hold that an attempt at a key has made. -/
def Db.resumable : Db :=
  { Db.held with
    idempotencyKeys := [{ id := "i", key := "k", scope := "booking.create", bookingId := some "b" }] }

/-- The attempt is made again. -/
def checkoutAgain : Tx Unit :=
  discard (createBooking .sample
    { id := "o", paymentsMode := .PLATFORM, stripeAccountId := none, stripeChargesEnabled := false }
    { serviceId := "s", employeeId := "e", startsAt := 36000000, customerId := "c", locale := .en }
    { successUrl := "u", cancelUrl := "v", customerEmail := "a@b.c" } "k")

/-- It resumes the hold, and opens a session for it. -/
def sessionOpened : List (Action store) :=
  [.start checkoutAgain] ++ .replicate 5 (.run 0) ++ [.answer 0 {}, .answer 0 {}, .run 0]

/-- It attaches the session, and hands its link over. -/
def sessionAttached : List (Action store) :=
  .replicate 4 (.run 0) ++ [.answer 0 {}, .answer 0 {}] ++ .replicate 4 (.run 0)

/-- The hold lapses. -/
def expiryBegun : List (Action store) :=
  [.start (discard (beginExpiry "b")), .answer 1 { now := 900000 }] ++ .replicate 7 (.run 1)

/-- It is given up without asking the provider. -/
def releasedUnasked : List (Action store) :=
  [.start (discard (completeExpiry .sample "b"))] ++ .replicate 7 (.run 2)

/-- It is given up once the provider has ended its session. -/
def releasedAsked : List (Action store) :=
  [.start (discard (completeExpiry .sample "b")), .run 2, .run 2, .answer 2 {}] ++ .replicate 7 (.run 2)

theorem starts_released {a : Action store} (h : a ∈ sessionOpened ∨ a ∈ sessionAttached ∨ a ∈ expiryBegun ∨
    a ∈ releasedUnasked ∨ a ∈ releasedAsked) : Sys.Starts (BookingOperation releaseRules) a := by
  have hadmits : releaseRules.Admits .sample := ⟨trivial, nofun, fun _ => trivial⟩
  have hcheckout : BookingOperation releaseRules checkoutAgain := .createBooking .sample _ _ _ "k" hadmits
  have hbegin : BookingOperation releaseRules (discard (beginExpiry "b")) := .beginExpiry "b"
  have hcomplete : BookingOperation releaseRules (discard (completeExpiry .sample "b")) :=
    .completeExpiry .sample "b" hadmits
  rcases h with h | h | h | h | h <;> revert a
  · simp [sessionOpened, Sys.Starts, hcheckout]
  · simp [sessionAttached, Sys.Starts]
  · simp [expiryBegun, Sys.Starts, hbegin]
  · simp [releasedUnasked, Sys.Starts, hcomplete]
  · simp [releasedAsked, Sys.Starts, hcomplete]

theorem closed_resumable : Closed .resumable where
  released b hb hreleased := by
    obtain rfl := List.mem_singleton.mp hb
    simp [Booking.held, RELEASED_BOOKING_STATUSES] at hreleased
  handed c hc := by cases hc

theorem released_not_payable_sample : ∃ s : Sys store,
    s.db.bookings.map (fun b => (b.status, b.stripeCheckoutSessionId)) = [(.EXPIRED, some "k")] ∧
      NotPayable s.db := by
  have hexec : (Sys.exec askedReleases { db := Db.resumable }
      (sessionOpened ++ sessionAttached ++ expiryBegun ++ releasedAsked)).map (fun s =>
        s.db.bookings.map fun b => (b.status, b.stripeCheckoutSessionId)) = some [(.EXPIRED, some "k")] := by
    rfl
  obtain ⟨s, hs, hbookings⟩ := Option.map_eq_some_iff.mp hexec
  refine ⟨s, hbookings, released_not_payable (by decide) closed_resumable ?_⟩
  refine .exec (fun _ _ => trivial) .refl (fun a ha => starts_released ?_) hs
  simp only [List.mem_append] at ha
  rcases ha with ((ha | ha) | ha) | ha <;> simp [ha]

/-- The session is opened, the hold is given up as one without a session, and then the session is
attached: the customer can pay for a slot that is free. -/
theorem released_payable : ¬ ∀ (d : Db) (s : Sys store), Legal d → Closed d →
    Sys.Reach (BookingOperation releaseRules) .none { db := d } s → NotPayable s.db := by
  intro h
  have hexec : (Sys.exec .none { db := Db.resumable }
      (sessionOpened ++ expiryBegun ++ releasedUnasked ++ sessionAttached)).map (fun s =>
        (s.db.bookings.map fun b => (b.status, b.stripeCheckoutSessionId), s.db.checkouts,
          s.db.provider.sessions)) =
      some ([(.EXPIRED, some "k")], [("b", "k")],
        [{ id := "k", idempotencyKey := some "k", payable := true }]) := by rfl
  obtain ⟨s, hs, he⟩ := Option.map_eq_some_iff.mp hexec
  simp only [Prod.mk.injEq] at he
  obtain ⟨hbookings, -, hsessions⟩ := he
  have hrun : Sys.Reach (BookingOperation releaseRules) .none { db := Db.resumable } s := by
    refine .exec (fun _ _ => trivial) .refl (fun a ha => starts_released ?_) hs
    simp only [List.mem_append] at ha
    rcases ha with ((ha | ha) | ha) | ha <;> simp [ha]
  have hnot := h _ s (by decide) closed_resumable hrun
  have hmem : (BookingStatus.EXPIRED, some "k") ∈
      s.db.bookings.map fun b => (b.status, b.stripeCheckoutSessionId) := by
    rw [hbookings]
    exact List.mem_singleton_self _
  obtain ⟨b, hb, hrow⟩ := List.mem_map.mp hmem
  obtain ⟨hstatus, hsession⟩ := Prod.mk.inj hrow
  refine (hnot b hb (by simp [hstatus, RELEASED_BOOKING_STATUSES])).1 "k" hsession ?_
  exact ⟨{ id := "k", idempotencyKey := some "k", payable := true }, by simp [hsessions], rfl, rfl⟩

end BookingApp
