import BookingApp.Booking.Status

/-!
# The life of one booking

What the tables record of a booking is its row, the transitions in its history
and how often its confirmation was announced (`Life`). One committed change does
one of a few things to it (`LifeStep`); what follows for whole runs is proved of
these steps alone.
-/

set_option autoImplicit false

namespace BookingApp

/-- What the tables record of one booking. -/
structure Life where
  row : Option Booking
  history : List (Option BookingStatus × BookingStatus)
  announced : Nat

/-- The transitions in the history of a booking, the oldest first. -/
def historyOf (id : String) (history : List BookingStatusHistory) :
    List (Option BookingStatus × BookingStatus) :=
  (history.filter fun h => decide (h.bookingId = id)).map fun h => (h.fromStatus, h.toStatus)

/-- The bookings whose confirmation was announced, once for each announcement. -/
def announcements (events : List OutboxEvent) : List String :=
  (events.filter fun e => decide (e.eventType = .BOOKING_CONFIRMED)).map OutboxEvent.aggregateId

def lifeOf (id : String) (d : Db) : Life where
  row := Table.find id d.bookings
  history := historyOf id d.bookingStatusHistory
  announced := (announcements d.outboxEvents).count id

/-- What a booking is about. The other columns are the ones that are written later. -/
def Booking.terms (b : Booking) : Booking :=
  { b with
    status := .PENDING_PAYMENT, expiresAt := none, confirmedAt := none, canceledAt := none
    completedAt := none, stripeCheckoutSessionId := none, idempotencyKeyId := none
    canceledByOfficeUserId := none, cancellationReason := none }

/-- The first booking of a chain is one of the terms. -/
theorem rootId_of_terms {b b' : Booking} (h : b.terms = b'.terms) :
    b.financialRootBookingId.getD b.id = b'.financialRootBookingId.getD b'.id := by
  change b.terms.financialRootBookingId.getD b.terms.id = b'.terms.financialRootBookingId.getD b'.terms.id
  rw [h]

/-- One change of a booking. If changes are `exact`, each starts from the status that the row
has; else a cancellation by the business may start from one that was read before. -/
inductive LifeStep (exact : Prop) (l l' : Life) : Prop where
  | absent (hrow : l.row = none) (hsame : l' = l)
  | kept (b b' : Booking) (hrow : l.row = some b) (hrow' : l'.row = some b')
      (hterms : b'.terms = b.terms) (hstatus : b'.status = b.status)
      (hhistory : l'.history = l.history) (hannounced : l'.announced = l.announced)
  | created (b' : Booking) (hrow : l.row = none) (hrow' : l'.row = some b')
      (hcreate : canTransition none b'.status = true)
      (hhistory : l'.history = l.history ++ [(none, b'.status)])
      (hannounced : l'.announced = l.announced ∨
        l'.announced = l.announced + 1 ∧ b'.status = .CONFIRMED)
  | moved (b b' : Booking) (fromStatus : BookingStatus) (hrow : l.row = some b)
      (hrow' : l'.row = some b') (hterms : b'.terms = b.terms)
      (hfrom : fromStatus = b.status ∨ ¬ exact ∧ b'.status = .CANCELED_BY_BUSINESS)
      (hmove : canTransition (some fromStatus) b'.status = true)
      (hhistory : l'.history = l.history ++ [(some fromStatus, b'.status)])
      (hannounced : l'.announced = l.announced ∨
        l'.announced = l.announced + 1 ∧ b'.status = .CONFIRMED)

/-- The transitions lead from one status to another, each from where the last one ended. -/
def Path : Option BookingStatus → List (Option BookingStatus × BookingStatus) →
    Option BookingStatus → Prop
  | first, [], last => first = last
  | first, (fromStatus, toStatus) :: rest, last =>
    fromStatus = first ∧ canTransition fromStatus toStatus = true ∧ Path (some toStatus) rest last

instance (first : Option BookingStatus) (path : List (Option BookingStatus × BookingStatus))
    (last : Option BookingStatus) : Decidable (Path first path last) := by
  induction path generalizing first with
  | nil => exact inferInstanceAs (Decidable (first = last))
  | cons step rest ih =>
    have := ih (some step.2)
    exact inferInstanceAs (Decidable (_ ∧ _ ∧ _))

theorem Path.snoc {path : List (Option BookingStatus × BookingStatus)}
    {first last : Option BookingStatus} {toStatus : BookingStatus} (h : Path first path last)
    (hto : canTransition last toStatus = true) :
    Path first (path ++ [(last, toStatus)]) (some toStatus) := by
  induction path generalizing first with
  | nil =>
    cases h
    exact ⟨rfl, hto, rfl⟩
  | cons step rest ih => exact ⟨h.1, h.2.1, ih h.2.2⟩

/-- The statuses of a booking that nothing was paid for. -/
def UNPAID_BOOKING_STATUSES : List BookingStatus :=
  [.PENDING_PAYMENT, .EXPIRING, .EXPIRED, .PAYMENT_FAILED]

/-- What can become of a hold. -/
def OUTCOMES : List BookingStatus :=
  [.CONFIRMED, .EXPIRED, .PAYMENT_FAILED]

namespace Life

/-- The booking still waits for its payment. -/
def InHold (status : BookingStatus) : Prop :=
  status = .PENDING_PAYMENT ∨ status = .EXPIRING

/-- The transitions that decide what becomes of a hold. -/
def outcomes (l : Life) : List BookingStatus :=
  (l.history.map Prod.snd).filter fun status => decide (status ∈ OUTCOMES)

/-- A hold has had no outcome yet; after it there is one at most, and a status that is an outcome
is the one there was. A confirmation was announced once at most, and none of a hold was. -/
structure Once (l : Life) : Prop where
  absent : l.row = none → l.outcomes = [] ∧ l.announced = 0
  hold : ∀ b ∈ l.row, InHold b.status → l.outcomes = [] ∧ l.announced = 0
  outcomes : l.outcomes.length ≤ 1
  announced : l.announced ≤ 1
  status : ∀ b ∈ l.row, b.status ∈ OUTCOMES → l.outcomes = [b.status]

end Life

namespace LifeStep

variable {exact : Prop} {l l' : Life}

/-- What one change does to a row: its terms stay, and its status follows from the one before. -/
theorem between (h : LifeStep exact l l') {b b' : Booking} (hb : l.row = some b)
    (hb' : l'.row = some b') : b'.terms = b.terms ∧
      (b'.status = b.status ∨ canTransition (some b.status) b'.status = true ∨
        ¬ exact ∧ b'.status = .CANCELED_BY_BUSINESS) := by
  cases h with
  | absent hrow => cases hrow.symm.trans hb
  | kept b₀ b₀' hrow hrow' hterms hstatus =>
    cases hrow.symm.trans hb
    cases hrow'.symm.trans hb'
    exact ⟨hterms, .inl hstatus⟩
  | created b₀ hrow => cases hrow.symm.trans hb
  | moved b₀ b₀' fromStatus hrow hrow' hterms hfrom hmove =>
    cases hrow.symm.trans hb
    cases hrow'.symm.trans hb'
    obtain rfl | hcanceled := hfrom
    · exact ⟨hterms, .inr (.inl hmove)⟩
    · exact ⟨hterms, .inr (.inr hcanceled)⟩

/-- A booking stays. -/
theorem stays (h : LifeStep exact l l') {b : Booking} (hb : l.row = some b) :
    ∃ b', l'.row = some b' := by
  cases h with
  | absent hrow => cases hrow.symm.trans hb
  | kept b₀ b' hrow hrow' => exact ⟨b', hrow'⟩
  | created b' hrow => cases hrow.symm.trans hb
  | moved b₀ b' fromStatus hrow hrow' => exact ⟨b', hrow'⟩

/-- A booking starts in a status it may be created in. -/
theorem start (h : LifeStep exact l l') {b' : Booking} (hb : l.row = none)
    (hb' : l'.row = some b') : canTransition none b'.status = true := by
  cases h with
  | absent hrow hsame => cases (hsame ▸ hb').symm.trans hrow
  | kept b₀ b₀' hrow => cases hrow.symm.trans hb
  | created b₀ hrow hrow' hcreate =>
    cases hrow'.symm.trans hb'
    exact hcreate
  | moved b₀ b₀' fromStatus hrow => cases hrow.symm.trans hb

/-- A booking that has left its hold does not come back to it. -/
theorem hold (h : LifeStep exact l l') {b b' : Booking} (hb : l.row = some b)
    (hb' : l'.row = some b') (hold : Life.InHold b'.status) : Life.InHold b.status := by
  obtain ⟨-, hsame | hmove | ⟨-, hcanceled⟩⟩ := h.between hb hb'
  · exact hsame ▸ hold
  · revert hmove hold
    cases b.status <;> cases b'.status <;> simp [Life.InHold, canTransition, TRANSITIONS]
  · simp [Life.InHold, hcanceled] at hold

/-- A booking that was paid for, or needed not be, stays one. -/
theorem unpaid (h : LifeStep exact l l') {b b' : Booking} (hb : l.row = some b)
    (hb' : l'.row = some b') (hunpaid : b'.status ∈ UNPAID_BOOKING_STATUSES) :
    b.status ∈ UNPAID_BOOKING_STATUSES := by
  obtain ⟨-, hsame | hmove | ⟨-, hcanceled⟩⟩ := h.between hb hb'
  · exact hsame ▸ hunpaid
  · revert hmove hunpaid
    cases b.status <;> cases b'.status <;> decide
  · simp [hcanceled, UNPAID_BOOKING_STATUSES] at hunpaid

/-- A booking that occupies its employee did so before. -/
theorem blocks (h : LifeStep exact l l') {b b' : Booking} (hb : l.row = some b)
    (hb' : l'.row = some b') (hblocks : b'.Blocks) : b.Blocks := by
  unfold Booking.Blocks at hblocks ⊢
  obtain ⟨-, hsame | hmove | ⟨-, hcanceled⟩⟩ := h.between hb hb'
  · exact hsame ▸ hblocks
  · exact blocking_of_canTransition hmove hblocks
  · simp [hcanceled, BLOCKING_BOOKING_STATUSES] at hblocks

/-- One more transition is one more outcome, if it is one at all. -/
theorem outcomes_snoc {fromStatus : Option BookingStatus} {toStatus : BookingStatus}
    (h : l'.history = l.history ++ [(fromStatus, toStatus)]) :
    l'.outcomes = l.outcomes ++ if toStatus ∈ OUTCOMES then [toStatus] else [] := by
  unfold Life.outcomes
  rw [h, List.map_append, List.filter_append]
  by_cases hto : toStatus ∈ OUTCOMES <;> simp [hto]

/-- What becomes of a hold is decided once, and announced once at most. -/
theorem once (h : LifeStep exact l l') (hl : l.Once) : l'.Once := by
  cases h with
  | absent hrow hsame => rwa [hsame]
  | kept b b' hrow hrow' hterms hstatus hhistory hannounced =>
    have houtcomes : l'.outcomes = l.outcomes := by rw [Life.outcomes, hhistory, Life.outcomes]
    constructor
    · exact fun hnone => absurd (hrow'.symm.trans hnone) (by simp)
    · intro b₁ hb₁ hhold
      cases hrow'.symm.trans hb₁
      rw [houtcomes, hannounced]
      exact hl.hold b hrow (hstatus ▸ hhold)
    · rw [houtcomes]
      exact hl.outcomes
    · rw [hannounced]
      exact hl.announced
    · intro b₁ hb₁
      cases hrow'.symm.trans hb₁
      rw [houtcomes, hstatus]
      exact hl.status b hrow
  | created b' hrow hrow' hcreate hhistory hannounced =>
    obtain ⟨hnone, hsilent⟩ := hl.absent hrow
    have houtcomes := outcomes_snoc hhistory
    rw [hnone, List.nil_append] at houtcomes
    rw [hsilent] at hannounced
    constructor
    · exact fun h => absurd (hrow'.symm.trans h) (by simp)
    · intro b₁ hb₁ hhold
      cases hrow'.symm.trans hb₁
      rcases hhold with hhold | hhold <;> simp [hhold, OUTCOMES] at houtcomes hannounced <;>
        exact ⟨houtcomes, hannounced⟩
    · rw [houtcomes]
      split <;> simp
    · omega
    · intro b₁ hb₁ hin
      cases hrow'.symm.trans hb₁
      rw [houtcomes, if_pos hin]
  | moved b b' fromStatus hrow hrow' hterms hfrom hmove hhistory hannounced =>
    have houtcomes := outcomes_snoc hhistory
    -- a transition into an outcome is one out of a hold
    have hleaves : b'.status ∈ OUTCOMES → Life.InHold b.status := by
      intro hin
      obtain rfl | ⟨-, hcanceled⟩ := hfrom
      · revert hmove hin
        cases b.status <;> cases b'.status <;>
          simp [Life.InHold, canTransition, TRANSITIONS, OUTCOMES]
      · simp [hcanceled, OUTCOMES] at hin
    have hstays : Life.InHold b'.status → Life.InHold b.status :=
      (moved b b' fromStatus hrow hrow' hterms hfrom hmove hhistory hannounced : LifeStep exact l l').hold
        hrow hrow'
    have hsilent : Life.InHold b'.status → b'.status ≠ .CONFIRMED ∧ b'.status ∉ OUTCOMES := by
      rintro (h | h) <;> simp [h, OUTCOMES]
    constructor
    · exact fun h => absurd (hrow'.symm.trans h) (by simp)
    · intro b₁ hb₁ hhold
      cases hrow'.symm.trans hb₁
      obtain ⟨hnone, hzero⟩ := hl.hold b hrow (hstays hhold)
      obtain ⟨hne, hnotin⟩ := hsilent hhold
      rw [houtcomes, if_neg hnotin, hnone]
      rcases hannounced with h | ⟨-, h⟩
      · exact ⟨rfl, h.trans hzero⟩
      · exact absurd h hne
    · rw [houtcomes]
      split
      · rw [(hl.hold b hrow (hleaves ‹_›)).1]
        simp
      · simpa using hl.outcomes
    · rcases hannounced with h | ⟨h, hconfirmed⟩
      · rw [h]
        exact hl.announced
      · rw [h, (hl.hold b hrow (hleaves (by simp [hconfirmed, OUTCOMES]))).2]
    · intro b₁ hb₁ hin
      cases hrow'.symm.trans hb₁
      rw [houtcomes, if_pos hin, (hl.hold b hrow (hleaves hin)).1, List.nil_append]

end LifeStep

end BookingApp
