import BookingApp.Payment.ManualPayments

/-!
# Financial roots (`booking/reschedule.service.ts`)

A replacement copies the financial root of the booking it replaces, or names that booking as
its root. So however often an appointment is moved, its bookings have one root, which is the
first of them, and money is recorded there only.
-/

set_option autoImplicit false

namespace BookingApp

open ReadCommitted

/-- The bookings of an appointment that was moved, from the first one on. -/
inductive Succession (bookings : List Booking) (first : Booking) : Booking → Prop where
  | first (hmem : first ∈ bookings) (hfirst : first.rescheduledFromBookingId = none) :
      Succession bookings first first
  | next (b b' : Booking) (h : Succession bookings first b) (hmem : b' ∈ bookings)
      (hreplaces : b'.rescheduledFromBookingId = some b.id) : Succession bookings first b'

/-- A booking of the same customer that is its own financial root. -/
structure IsRoot (r b : Booking) : Prop where
  root : r.financialRootBookingId = none
  organization : r.organizationId = b.organizationId
  customer : r.customerId = b.customerId

/-- Where the money of the bookings is. A replacement was never waiting to be paid for. -/
structure Rooted (d : Db) : Prop where
  first : ∀ b ∈ d.bookings, b.rescheduledFromBookingId = none → b.financialRootBookingId = none
  replaces : ∀ b ∈ d.bookings, ∀ id ∈ b.rescheduledFromBookingId,
    ∃ old, Table.find id d.bookings = some old ∧ b.Succeeds old
  root : ∀ b ∈ d.bookings, ∀ id ∈ b.financialRootBookingId,
    ∃ r, Table.find id d.bookings = some r ∧ IsRoot r b
  settled : ∀ b ∈ d.bookings, b.financialRootBookingId ≠ none →
    b.stripeCheckoutSessionId = none ∧ b.status ∉ UNPAID_BOOKING_STATUSES
  payments : ∀ p ∈ d.payments,
    ∃ b, Table.find p.bookingId d.bookings = some b ∧ b.financialRootBookingId = none
  manualPayments : ∀ m ∈ d.manualPayments,
    ∃ b, Table.find m.bookingId d.bookings = some b ∧ b.financialRootBookingId = none

section Steps

variable {rules : BookingRules} {d d' : Db} {id : String} {b b' old old' : Booking}

theorem Booking.Succeeds.of_terms (h : b.Succeeds old) (hb : b'.terms = b.terms)
    (hold : old'.terms = old.terms) : b'.Succeeds old' where
  root := by
    have hroot := congrArg Booking.financialRootBookingId hb
    have hid := congrArg Booking.id hold
    have holdRoot := congrArg Booking.financialRootBookingId hold
    dsimp only [Booking.terms] at hroot hid holdRoot
    rw [hroot, hid, holdRoot, h.root]
  organization := (congrArg Booking.organizationId hb).trans
    (h.organization.trans (congrArg Booking.organizationId hold).symm)
  customer := (congrArg Booking.customerId hb).trans
    (h.customer.trans (congrArg Booking.customerId hold).symm)
  currency := (congrArg Booking.currency hb).trans
    (h.currency.trans (congrArg Booking.currency hold).symm)

theorem IsRoot.of_terms (h : IsRoot old b) (hb : b'.terms = b.terms) (hold : old'.terms = old.terms) :
    IsRoot old' b' where
  root := (congrArg Booking.financialRootBookingId hold).trans h.root
  organization := (congrArg Booking.organizationId hold).trans
    (h.organization.trans (congrArg Booking.organizationId hb).symm)
  customer := (congrArg Booking.customerId hold).trans
    (h.customer.trans (congrArg Booking.customerId hb).symm)

/-- A row that is there stays, with its terms. -/
theorem Commit.carries (h : Commit rules d d') (hb : Table.find id d.bookings = some b) :
    ∃ b', Table.find id d'.bookings = some b' ∧ b'.terms = b.terms := by
  obtain ⟨b', hb'⟩ := (h.life id).stays hb
  exact ⟨b', hb', ((h.life id).between hb hb').1⟩

/-- A row that is left was there with the same terms, or it is new. -/
theorem Commit.comes (h : Commit rules d d') (hb' : b' ∈ d'.bookings) :
    (∃ b ∈ d.bookings, Table.find b'.id d.bookings = some b ∧ b'.terms = b.terms) ∨
      NewBooking rules d d' b' := by
  rcases h.booking hb' with ⟨b, hb, hid⟩ | hnew
  · have hfind : Table.find b.id d.bookings = some b := Table.find_of_mem h.before.bookings.pkey hb
    exact .inl ⟨b, hb, hid ▸ hfind, (h.terms hb hb' hid).symm⟩
  · exact .inr hnew

/-- A root that is there stays one. -/
theorem Commit.keepsRoot (h : Commit rules d d')
    (hb : ∃ b, Table.find id d.bookings = some b ∧ b.financialRootBookingId = none) :
    ∃ b, Table.find id d'.bookings = some b ∧ b.financialRootBookingId = none := by
  obtain ⟨b, hb, hroot⟩ := hb
  obtain ⟨b', hb', hterms⟩ := h.carries hb
  exact ⟨b', hb', (congrArg Booking.financialRootBookingId hterms).trans hroot⟩

/-- The root of a booking is there, and is its own. -/
theorem Rooted.root_of_mem (h : Rooted d) (hd : Legal d) (hb : b ∈ d.bookings) :
    ∃ r, Table.find (b.financialRootBookingId.getD b.id) d.bookings = some r ∧ IsRoot r b := by
  cases hroot : b.financialRootBookingId with
  | none =>
    have hfind : Table.find b.id d.bookings = some b := Table.find_of_mem hd.bookings.pkey hb
    exact ⟨b, hfind, hroot, rfl, rfl⟩
  | some id => exact h.root b hb id hroot

/-- A booking that names a session, or was not paid for, is its own root. -/
theorem Rooted.payable (h : Rooted d) (hb : Table.find b.id d.bookings = some b)
    (hpayable : b.stripeCheckoutSessionId ≠ none ∨ b.status ∈ UNPAID_BOOKING_STATUSES) :
    b.financialRootBookingId = none := by
  by_contra hroot
  obtain ⟨hsession, hpaid⟩ := h.settled b (Table.mem_of_find hb) hroot
  rcases hpayable with hnamed | hunpaid
  · exact hnamed hsession
  · exact hpaid hunpaid

/-- A replacement stays settled: nobody opens a session for it. -/
theorem Commit.settled (h : Commit rules d d') (hb : Table.find id d.bookings = some b)
    (hb' : Table.find id d'.bookings = some b')
    (hsettled : b.stripeCheckoutSessionId = none ∧ b.status ∉ UNPAID_BOOKING_STATUSES) :
    b'.stripeCheckoutSessionId = none ∧ b'.status ∉ UNPAID_BOOKING_STATUSES := by
  obtain ⟨hnone, hpaid⟩ := hsettled
  refine ⟨?_, fun hunpaid => hpaid ((h.life id).unpaid hb hb' hunpaid)⟩
  cases h.change.session hb hb' with
  | kept hsession => exact hsession.trans hnone
  | attached sessionId _ hunpaid => exact absurd hunpaid hpaid
  | confirmed sessionId hhold => rcases hhold with hhold | hhold <;> simp [hhold, UNPAID_BOOKING_STATUSES] at hpaid

/-- One change keeps the money on the roots. -/
theorem Commit.rooted (h : Commit rules d d') (hr : Rooted d) : Rooted d' where
  first b' hb' hfirst := by
    rcases h.comes hb' with ⟨b, hb, -, hterms⟩ | hnew
    · have hwas := (congrArg Booking.rescheduledFromBookingId hterms).symm.trans hfirst
      exact (congrArg Booking.financialRootBookingId hterms).trans (hr.first b hb hwas)
    · cases hnew with
      | reserved _ _ _ _ _ hroot => exact hroot
      | replaced old _ _ _ _ _ _ hreplaces => cases hreplaces.symm.trans hfirst
  replaces b' hb' id hid := by
    rcases h.comes hb' with ⟨b, hb, -, hterms⟩ | hnew
    · have hwas := (congrArg Booking.rescheduledFromBookingId hterms).symm.trans hid
      obtain ⟨old, hold, hsucceeds⟩ := hr.replaces b hb id hwas
      obtain ⟨old', hold', hterms'⟩ := h.carries hold
      exact ⟨old', hold', hsucceeds.of_terms hterms hterms'⟩
    · cases hnew with
      | reserved _ _ _ hfirst => cases hfirst.symm.trans hid
      | replaced old hold _ _ _ _ _ hreplaces _ _ hsucceeds =>
        obtain rfl : old.id = id := Option.some.inj (hreplaces.symm.trans hid)
        obtain ⟨old', hold', hterms'⟩ := h.carries hold
        exact ⟨old', hold', hsucceeds.of_terms rfl hterms'⟩
  root b' hb' id hid := by
    rcases h.comes hb' with ⟨b, hb, -, hterms⟩ | hnew
    · have hwas := (congrArg Booking.financialRootBookingId hterms).symm.trans hid
      obtain ⟨r, hfind, hroot⟩ := hr.root b hb id hwas
      obtain ⟨r', hfind', hterms'⟩ := h.carries hfind
      exact ⟨r', hfind', hroot.of_terms hterms hterms'⟩
    · cases hnew with
      | reserved _ _ _ _ _ hroot => cases hroot.symm.trans hid
      | replaced old hold _ _ _ _ _ _ _ _ hsucceeds =>
        obtain rfl : old.financialRootBookingId.getD old.id = id :=
          Option.some.inj (hsucceeds.root.symm.trans hid)
        obtain ⟨r, hfind, hroot⟩ := hr.root_of_mem h.before (Table.mem_of_find hold)
        obtain ⟨r', hfind', hterms'⟩ := h.carries hfind
        have hown : IsRoot r b' :=
          ⟨hroot.root, hroot.organization.trans hsucceeds.organization.symm,
            hroot.customer.trans hsucceeds.customer.symm⟩
        exact ⟨r', hfind', hown.of_terms rfl hterms'⟩
  settled b' hb' hroot := by
    rcases h.comes hb' with ⟨b, hb, hfind, hterms⟩ | hnew
    · have hwas : b.financialRootBookingId ≠ none := fun hnone =>
        hroot ((congrArg Booking.financialRootBookingId hterms).trans hnone)
      exact h.settled hfind (Table.find_of_mem h.after.bookings.pkey hb') (hr.settled b hb hwas)
    · cases hnew with
      | reserved _ _ _ _ _ hnone => exact absurd hnone hroot
      | replaced _ _ _ _ hconfirmed _ _ _ hsession =>
        exact ⟨hsession, by simp [hconfirmed, UNPAID_BOOKING_STATUSES]⟩
  payments p' hp' := by
    by_cases hold : ∃ q ∈ d.payments, q.id = p'.id
    · obtain ⟨p, hp, hid⟩ := hold
      have hfind : Table.find p.id d.payments = some p := Table.find_of_mem h.before.payments.pkey hp
      obtain ⟨q, hq, hstep⟩ := h.change.payment hfind
      have hfind' : Table.find p.id d'.payments = some p' :=
        hid ▸ Table.find_of_mem h.after.payments.pkey hp'
      obtain rfl := Option.some.inj (hfind'.symm.trans hq)
      rw [hstep.stays.1]
      exact h.keepsRoot (hr.payments p hp)
    · cases h.change.new_payment hp' fun q hq hid => hold ⟨q, hq, hid⟩ with
      | opened p _ _ b hb hbooking hpayable =>
        rw [hbooking]
        exact h.keepsRoot ⟨b, hb, hr.payable hb hpayable⟩
      | paid input b p hb hhold _ _ _ hbooking =>
        have hunpaid : b.status ∈ UNPAID_BOOKING_STATUSES := by
          rcases hhold with hhold | hhold <;> simp [hhold, UNPAID_BOOKING_STATUSES]
        refine h.keepsRoot ⟨b, ?_, hr.payable hb (.inr hunpaid)⟩
        exact hbooking ▸ hb
  manualPayments m hm := by
    rcases h.change.manualPayments m hm with hold | ⟨b, hb, hroot⟩
    · exact h.keepsRoot (hr.manualPayments m hold)
    · rw [hroot]
      obtain ⟨r, hfind, hown⟩ := hr.root_of_mem h.before hb
      exact h.keepsRoot ⟨r, hfind, hown.root⟩

/-- In every run of what moves money, the money is on the roots. -/
theorem rooted_of_reach {s : Sys store} (hd : Legal d) (hr : Rooted d)
    (hrun : Sys.Reach FinancialOperation .none { db := d } s) : Legal s.db ∧ Rooted s.db := by
  have hkept : ∀ {J : Db → Prop}, (∀ d d', Commit everyRun d d' → J d → J d') → J d → J s.db :=
    fun hJ hd' => (Sys.Reach.invariant (P := lifecycle everyRun) FinancialOperation.safe
      (fun _ _ _ _ hcommit => hJ _ _ hcommit) ⟨hd, trivial⟩ hd' hrun).2
  exact ⟨hkept (fun _ _ h _ => h.after) hd, hkept (fun _ _ h => h.rooted) hr⟩

end Steps

theorem Succession.first_mem {bookings : List Booking} {first b : Booking} (h : Succession bookings first b) :
    first ∈ bookings := by
  induction h with
  | first hmem _ => exact hmem
  | next _ _ _ _ _ ih => exact ih

/-- What is said of a booking by the ones before it. -/
theorem Succession.root {d : Db} (hd : Legal d) (hr : Rooted d) {first b : Booking}
    (h : Succession d.bookings first b) :
    b ∈ d.bookings ∧ first.financialRootBookingId = none ∧
      b.financialRootBookingId.getD b.id = first.id ∧ b.organizationId = first.organizationId ∧
      b.currency = first.currency := by
  induction h with
  | first hmem hfirst =>
    have hroot := hr.first first hmem hfirst
    exact ⟨hmem, hroot, by rw [hroot]; rfl, rfl, rfl⟩
  | next b b' _ hmem hreplaces ih =>
    obtain ⟨hb, hfirst, hroot, horganization, hcurrency⟩ := ih
    obtain ⟨old, hold, hsucceeds⟩ := hr.replaces b' hmem b.id hreplaces
    obtain rfl : b = old := Option.some.inj ((Table.find_of_mem hd.bookings.pkey hb).symm.trans hold)
    refine ⟨hmem, hfirst, ?_, hsucceeds.organization.trans horganization,
      hsucceeds.currency.trans hcurrency⟩
    rw [hsucceeds.root, Option.getD_some, hroot]

end BookingApp
