import BookingApp.Booking.Operations

/-!
# What the histories of bookings record

What becomes of a hold is decided once, in every run. The statuses of a booking follow
the transitions as long as an approval finds its booking still confirmed when it cancels
it: the approval looks at the status before it has locked the row.
-/

set_option autoImplicit false

namespace BookingApp

open ReadCommitted ReadCommitted.Proto

/-- Every run. -/
def everyRun : BookingRules where
  conditions := .none
  refunds := True

theorem everyRun_sound : everyRun.Sound where
  kept _ _ _ _ := trivial
  reports _ _ _ _ _ _ _ _ _ := trivial

theorem everyRun_handles (h : everyRun.refunds) : everyRun.Handles :=
  .of_forall everyRun_sound h fun _ _ => trivial

section Outcomes

variable {id : String} {d d' : Db}

/-- Outcomes are not taken back. -/
theorem LifeStep.outcomes_extend {exact : Prop} {l l' : Life} (h : LifeStep exact l l') :
    l.outcomes <+: l'.outcomes := by
  cases h with
  | absent hrow hsame => rw [hsame]
  | kept b b' hrow hrow' hterms hstatus hhistory =>
    rw [Life.outcomes, Life.outcomes, hhistory]
  | created b' hrow hrow' hcreate hhistory =>
    rw [outcomes_snoc hhistory]
    exact List.prefix_append _ _
  | moved b b' fromStatus hrow hrow' hterms hfrom hmove hhistory =>
    rw [outcomes_snoc hhistory]
    exact List.prefix_append _ _

/-- What the tables record of the outcome of a hold: one transition at most into CONFIRMED, EXPIRED
or PAYMENT_FAILED, which is the status the row then has, one announcement at most, and one payment at
most for each session. -/
structure DecidedOnce (id : String) (d : Db) : Prop where
  confirmed : ((lifeOf id d).history.map Prod.snd).count .CONFIRMED ≤ 1
  outcomes : (lifeOf id d).outcomes.length ≤ 1
  status : ∀ b ∈ Table.find id d.bookings, b.status ∈ OUTCOMES → (lifeOf id d).outcomes = [b.status]
  announced : (announcements d.outboxEvents).count id ≤ 1
  payments : ∀ sessionId, (d.payments.filterMap Payment.stripeCheckoutSessionId).count sessionId ≤ 1

/-- The transitions into CONFIRMED are among the outcomes. -/
theorem confirmed_le_outcomes (l : Life) :
    (l.history.map Prod.snd).count .CONFIRMED ≤ l.outcomes.length := by
  have hcount : l.outcomes.count .CONFIRMED = (l.history.map Prod.snd).count .CONFIRMED :=
    List.count_filter (by simp [OUTCOMES])
  rw [← hcount]
  exact List.count_le_length

theorem Life.Once.decided (hd : Legal d) (h : (lifeOf id d).Once) : DecidedOnce id d where
  confirmed := (confirmed_le_outcomes _).trans h.outcomes
  outcomes := h.outcomes
  status := h.status
  announced := h.announced
  payments := List.nodup_iff_count_le_one.mp hd.payments.checkoutSession

/-- A hold, in every run: its outcome is decided once, and never becomes another. -/
theorem decided_once {d : Db} (hd : Legal d) {id : String} (honce : (lifeOf id d).Once) {s : Sys store}
    (hrun : Sys.Reach (BookingOperation everyRun) .none { db := d } s) :
    DecidedOnce id s.db ∧ ∀ s', Sys.Reach (BookingOperation everyRun) .none s s' →
      ∀ b ∈ Table.find id s.db.bookings, ∀ b' ∈ Table.find id s'.db.bookings,
        b.status ∈ OUTCOMES → b'.status ∈ OUTCOMES → b'.status = b.status := by
  have hkept : ∀ d d', Commit everyRun d d' → (lifeOf id d).Once → (lifeOf id d').Once :=
    fun d d' h => (h.life id).once
  have hsound : ∀ {s}, Sys.Reach (BookingOperation everyRun) .none { db := d } s →
      Legal s.db ∧ (lifeOf id s.db).Once := fun hrun => ⟨
    BookingOperation.invariant everyRun_sound everyRun_handles (fun _ _ h _ => h.after) ⟨hd, trivial⟩ hd hrun,
    BookingOperation.invariant everyRun_sound everyRun_handles hkept ⟨hd, trivial⟩ honce hrun⟩
  refine ⟨(hsound hrun).2.decided (hsound hrun).1, fun s' hrun' b hb b' hb' hin hin' => ?_⟩
  have hinitial : (lifeOf id s.db).outcomes <+: (lifeOf id s'.db).outcomes :=
    BookingOperation.evolves everyRun_sound everyRun_handles (T := fun x y =>
      (lifeOf id x).outcomes <+: (lifeOf id y).outcomes) (fun _ => List.prefix_rfl)
      (fun _ _ _ h₁ h₂ => h₁.trans h₂) (fun _ _ h => (h.life id).outcomes_extend) ⟨hd, trivial⟩ hrun hrun'
  have honce' := (hsound (hrun.trans hrun')).2
  rw [(hsound hrun).2.status b hb hin, honce'.status b' hb' hin'] at hinitial
  exact (List.head_eq_of_cons_eq (hinitial.eq_of_length rfl)).symm

/-- A hold, as it was created. -/
def Db.held : Db :=
  { Db.sample [.held] with
    bookingStatusHistory := [{
      organizationId := "o", bookingId := "b", fromStatus := none, toStatus := .PENDING_PAYMENT
      actorType := "CUSTOMER" }] }

/-- The report of a payment for the hold. -/
def someReport : ConfirmPaidInput where
  bookingId := "b"
  sessionId := "cs"
  paymentIntentId := some "pi"
  chargeId := some "ch"
  amountTotalCents := 100
  paidAt := 0
  cause := { kind := .WEBHOOK, reference := "evt" }

/-- The payment is reported, and then reported again. -/
def reportedTwice : List (Action store) :=
  [.start (discard (confirmPaid .sample someReport)), .start (discard (confirmPaid .sample someReport)),
    .answer 0 { id := "h" }, .run 0, .run 0, .run 0, .run 0, .answer 0 { id := "p" },
    .answer 0 { id := "t" }, .run 0, .answer 0 { id := "x" }, .run 0, .run 0, .run 0, .run 0,
    .answer 1 { id := "y" }, .run 1, .run 1, .run 1]

theorem once_held : (lifeOf "b" .held).Once where
  absent hnone := by cases hnone
  hold _ _ _ := by decide
  outcomes := by decide
  announced := by decide
  status b hb hin := by
    obtain rfl : Booking.held = b := Option.some.inj hb
    simp [Booking.held, OUTCOMES] at hin

theorem decided_once_sample : ∃ s : Sys store,
    s.db.bookings.map Booking.status = [.CONFIRMED] ∧ DecidedOnce "b" s.db := by
  have hexec : (Sys.exec .none { db := Db.held } reportedTwice).map (fun s =>
      s.db.bookings.map Booking.status) = some [.CONFIRMED] := by rfl
  obtain ⟨s, hs, hstatus⟩ := Option.map_eq_some_iff.mp hexec
  refine ⟨s, hstatus, (decided_once (by decide) once_held ?_).1⟩
  refine .exec (fun _ _ => trivial) .refl ?_ hs
  have hpaid : BookingOperation everyRun (discard (confirmPaid .sample someReport)) :=
    .confirmPaid .sample someReport trivial
  simp [reportedTwice, Sys.Starts, hpaid]

end Outcomes

section Statuses

/-- The booking that an approval cancels at this statement. -/
def Point.approved : Point → Option String
  | .approval bookingId => some bookingId
  | _ => none

/-- An approval cancels a booking that is still confirmed. -/
def confirmedApprovals : Conditions store where
  Assume p d := ∀ id ∈ p.approved, ∀ b ∈ Table.find id d.bookings, b.status = .CONFIRMED
  Stable _ _ _ := True
  Fault _ _ := True

instance : confirmedApprovals.Checkable where
  assume p d := inferInstanceAs (Decidable (∀ id ∈ p.approved, ∀ b ∈ Table.find id d.bookings,
    b.status = .CONFIRMED))
  stable _ _ _ := .isTrue trivial
  fault _ _ := .isTrue trivial

/-- Refunds are reserved by cancellations only. -/
def statusRules : BookingRules where
  conditions := confirmedApprovals

variable {d d' : Db} {id : String}

/-- Under these rules every change starts from the status that the row has. -/
theorem Commit.life_exact (h : Commit statusRules d d') (id : String) :
    LifeStep True (lifeOf id d) (lifeOf id d') :=
  h.change.life h.after (fun _ id _ happroval b hb => happroval id rfl b hb) id

/-- What one step does to the status of a booking: it is created in a status it may be created in, its
status becomes one that the status it has may become, and a terminal one is final. -/
structure StatusStep (id : String) (d d' : Db) : Prop where
  created : Table.find id d.bookings = none → ∀ b' ∈ Table.find id d'.bookings,
    canTransition none b'.status = true
  moved : ∀ b ∈ Table.find id d.bookings, ∃ b' ∈ Table.find id d'.bookings,
    b'.status = b.status ∨ canTransition (some b.status) b'.status = true
  final : ∀ b ∈ Table.find id d.bookings, isTerminal b.status = true →
    ∀ b' ∈ Table.find id d'.bookings, b'.status = b.status

theorem StatusStep.refl (id : String) (d : Db) : StatusStep id d d where
  created hnone b hb := by cases hnone.symm.trans hb
  moved b hb := ⟨b, hb, .inl rfl⟩
  final b hb _ b' hb' := by rw [Option.some.inj (hb.symm.trans hb')]

/-- No transition leaves a terminal status. -/
theorem not_canTransition_of_terminal {status toStatus : BookingStatus} (h : isTerminal status = true) :
    canTransition (some status) toStatus = false := by
  simp [canTransition, (isTerminal_iff status).mp h]

theorem LifeStep.statusStep (h : LifeStep True (lifeOf id d) (lifeOf id d')) : StatusStep id d d' where
  created hnone b' hb' := h.start hnone hb'
  moved b hb := by
    obtain ⟨b', hb'⟩ := h.stays hb
    obtain ⟨-, hsame | hmove | ⟨hnot, -⟩⟩ := h.between hb hb'
    · exact ⟨b', hb', .inl hsame⟩
    · exact ⟨b', hb', .inr hmove⟩
    · exact absurd trivial hnot
  final b hb hterminal b' hb' := by
    obtain ⟨-, hsame | hmove | ⟨hnot, -⟩⟩ := h.between hb hb'
    · exact hsame
    · simp [not_canTransition_of_terminal hterminal] at hmove
    · exact absurd trivial hnot

/-- The booking has come to its end. -/
def Ended (id : String) (d : Db) : Prop :=
  ∃ b ∈ Table.find id d.bookings, isTerminal b.status = true

theorem StatusStep.ended (h : StatusStep id d d') (he : Ended id d) : Ended id d' := by
  obtain ⟨b, hb, hterminal⟩ := he
  obtain ⟨b', hb', -⟩ := h.moved b hb
  exact ⟨b', hb', h.final b hb hterminal b' hb' ▸ hterminal⟩

/-- A booking that a refund is reserved for has ended, as has one that has a successor, and no booking
is both. -/
structure Separate (d : Db) : Prop where
  canceled : ∀ r ∈ d.refunds, Ended r.bookingId d
  replaced : ∀ b ∈ d.bookings, ∀ id ∈ b.rescheduledFromBookingId, Ended id d
  apart : ∀ r ∈ d.refunds, ∀ b ∈ d.bookings, b.rescheduledFromBookingId ≠ some r.bookingId

/-- Where a booking was moved from is one of its terms. -/
theorem origin_of_terms {b b' : Booking} (h : b.terms = b'.terms) :
    b.rescheduledFromBookingId = b'.rescheduledFromBookingId := by
  change b.terms.rescheduledFromBookingId = b'.terms.rescheduledFromBookingId
  rw [h]

theorem Separate.commit (hs : Separate d) (h : Commit statusRules d d') : Separate d' := by
  have hstays : ∀ id, Ended id d → Ended id d' := fun id => (h.life_exact id).statusStep.ended
  -- a booking comes from one that was there, or from the change
  have horigin : ∀ b' ∈ d'.bookings, (∃ b ∈ d.bookings,
      b.rescheduledFromBookingId = b'.rescheduledFromBookingId) ∨
      Table.find b'.id d.bookings = none ∧ NewBooking statusRules d d' b' := by
    intro b' hb'
    have hfind := Table.find_of_mem h.after.bookings.pkey hb'
    cases hb : Table.find b'.id d.bookings with
    | none => exact .inr ⟨rfl, h.change.new_booking hb' hb⟩
    | some b =>
      exact .inl ⟨b, Table.mem_of_find hb, origin_of_terms ((h.life b'.id).between hb hfind).1.symm⟩
  have hopen : ∀ {b : Booking}, b.status = .CONFIRMED → Table.find b.id d.bookings = some b →
      ¬ Ended b.id d := by
    rintro b hstatus hb ⟨x, hx, hterminal⟩
    obtain rfl := Option.some.inj (hb.symm.trans hx)
    rw [hstatus] at hterminal
    cases hterminal
  constructor
  · intro r' hr'
    cases h.change.refund hr' with
    | kept r hr hbooking => exact hbooking ▸ hstays _ (hs.canceled r hr)
    | canceled b b' hb hstatus hb' hends hbooking =>
      refine hbooking ▸ ⟨b', hb', ?_⟩
      revert hends
      cases b'.status <;> decide
    | requested hallowed => exact hallowed.elim
  · intro b' hb' id hid
    rcases horigin b' hb' with ⟨b, hb, he⟩ | ⟨-, hnew⟩
    · exact hstays _ (hs.replaced b hb id (he ▸ hid))
    · cases hnew with
      | reserved _ _ _ hfirst => cases hfirst.symm.trans hid
      | replaced old hold hread hcanceled hconfirmed hsold hclear hreplaces =>
        obtain rfl := Option.some.inj (hreplaces.symm.trans hid)
        obtain ⟨old', hold', hstatus⟩ := hcanceled
        exact ⟨old', hold', by rw [hstatus]; rfl⟩
  · intro r' hr' b' hb' he
    rcases horigin b' hb' with ⟨b, hb, hsame⟩ | ⟨hnone, hnew⟩
    · cases h.change.refund hr' with
      | kept r hr hbooking => exact hs.apart r hr b hb (hsame.trans (hbooking ▸ he))
      | canceled x x' hx hstatus hx' hends hbooking =>
        exact hopen hstatus hx (hs.replaced b hb x.id (hsame.trans (hbooking ▸ he)))
      | requested hallowed => exact hallowed.elim
    · cases hnew with
      | reserved _ _ _ hfirst => cases hfirst.symm.trans he
      | replaced old hold hread hcanceled hconfirmed hsold hclear hreplaces =>
        obtain ⟨d₀, happroval, hold₀⟩ := hread
        have hstatus : old.status = .CONFIRMED := happroval old.id rfl old hold₀
        have hid : old.id = r'.bookingId := Option.some.inj (hreplaces.symm.trans he)
        cases h.change.refund hr' with
        | kept r hr hbooking =>
          exact hopen hstatus hold (hid ▸ hbooking ▸ hs.canceled r hr)
        | canceled x x' hx hxstatus hx' hends hbooking hreserved hthere =>
          exact hthere b' hb' hnone
        | requested hallowed => exact hallowed.elim

/-- A confirmed booking with its payment, the calendar of its employee, and a request to move it to
the afternoon. -/
def Db.moving : Db :=
  { Db.sample [.sample] with
    bookingStatusHistory := [{
      organizationId := "o", bookingId := "b", fromStatus := none, toStatus := .CONFIRMED
      actorType := "CUSTOMER" }]
    payments := [{
      id := "p", organizationId := "o", bookingId := "b", amountCents := 100, currency := "EUR"
      status := .SUCCEEDED, createdAt := 0 }]
    services := [{
      id := "s", organizationId := "o", name := "Cut", durationMinutes := 60, prepBufferMinutes := 0
      cleanupBufferMinutes := 0, priceCents := 100, currency := "EUR", isBookableOnline := true }]
    employeeServices := [{ organizationId := "o", employeeId := "e", serviceId := "s" }]
    workingHours := [{
      organizationId := "o", employeeId := "e"
      hours := ⟨.THURSDAY, ⟨540, MinuteOfDay.nine_le⟩, ⟨1020, MinuteOfDay.seventeen_le⟩, []⟩ }]
    rescheduleRequests := [{
      id := "q", organizationId := "o", bookingId := "b", requestedStartsAt := 43200000 }] }

theorem legal_moving : Legal .moving := by decide

/-- The office approves the request. -/
def someMove : Tx Unit :=
  discard (decideReschedule .sample { requestId := "q", officeUserId := "u", decision := .APPROVED })

/-- The approval has read that the booking is confirmed, and inserted its replacement. -/
def replacedFirst : List (Action store) :=
  [.start someMove] ++ .replicate 6 (.run 0) ++ [.answer 0 {}] ++ .replicate 9 (.run 0) ++
    [.answer 0 {}, .answer 0 { id := "b'" }, .run 0]

/-- It goes on, and commits. -/
def replacedThen : List (Action store) :=
  [.run 0, .run 0, .answer 0 { random := "t" }, .run 0, .answer 0 {}, .run 0, .answer 0 {}] ++
    .replicate 4 (.run 0)

/-- The customer cancels, and is given the money back. -/
def canceledMeanwhile : List (Action store) :=
  [.start (discard (cancelByCustomer .sample "b" none)), .answer 1 {}] ++ .replicate 4 (.run 1) ++
    [.answer 1 {}] ++ .replicate 9 (.run 1) ++ [.answer 1 {}, .answer 1 { id := "r" }] ++
    .replicate 4 (.run 1)

theorem starts_someMove {rules : BookingRules} (hapi : rules.Admits .sample) :
    ∀ a ∈ replacedFirst ++ replacedThen, Sys.Starts (BookingOperation rules) a := by
  have hmove : BookingOperation rules someMove := .decideReschedule .sample _ hapi
  simp [replacedFirst, replacedThen, Sys.Starts, hmove]

end Statuses

end BookingApp
