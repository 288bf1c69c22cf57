import BookingApp.Booking.Histories
import BookingApp.Booking.Moving
import BookingApp.Messaging.Idempotency
import BookingApp.Office.Retiring

/-!
# Pairings that are retired

Who books an employee holds its calendar since before it looked at the employee, the service and
the link between them. Who retires one of these looks for appointments and then writes, without
a calendar. No appointment is left to keep for what is retired as long as nobody books it between
the look and the commit, and at the commit nobody holds a calendar that is concerned.
-/

set_option autoImplicit false

namespace BookingApp

open ReadCommitted ReadCommitted.Proto

/-- An employee who performs a service. -/
structure Pairing where
  organizationId : String
  employeeId : String
  serviceId : String
  deriving DecidableEq, Repr

def Booking.pairing (b : Booking) : Pairing := ⟨b.organizationId, b.employeeId, b.serviceId⟩

def EmployeeService.pairing (link : EmployeeService) : Pairing :=
  ⟨link.organizationId, link.employeeId, link.serviceId⟩

namespace Pairing

def Linked (q : Pairing) (d : Db) : Prop :=
  ∃ link ∈ d.employeeServices, link.pairing = q

def EmployeeArchived (q : Pairing) (d : Db) : Prop :=
  ∃ e ∈ d.employees, e.organizationId = q.organizationId ∧ e.id = q.employeeId ∧ e.archivedAt ≠ none

def ServiceArchived (q : Pairing) (d : Db) : Prop :=
  ∃ s ∈ d.services, s.organizationId = q.organizationId ∧ s.id = q.serviceId ∧ s.archivedAt ≠ none

/-- The employee or the service is archived, or the link between them is removed. -/
def Deleted (q : Pairing) (d : Db) : Prop :=
  q.EmployeeArchived d ∨ q.ServiceArchived d ∨ ¬q.Linked d

instance (q : Pairing) (d : Db) : Decidable (q.Deleted d) :=
  inferInstanceAs (Decidable ((∃ e ∈ d.employees, _) ∨ (∃ s ∈ d.services, _) ∨
    ¬∃ link ∈ d.employeeServices, _))

end Pairing

/-- No appointment that somebody still has to keep is one of a deleted pairing. -/
def NoDeletedAhead (d : Db) : Prop :=
  ∀ b ∈ d.bookings, b.Ahead d.clock → ¬b.pairing.Deleted d

instance (d : Db) : Decidable (NoDeletedAhead d) :=
  inferInstanceAs (Decidable (∀ b ∈ d.bookings, b.Ahead d.clock → ¬b.pairing.Deleted d))

/-- The pairings that are retired. -/
def Retired.Names (organizationId : String) (r : Retired) (q : Pairing) : Prop :=
  q.organizationId = organizationId ∧ match r with
    | .employee id => q.employeeId = id
    | .service id => q.serviceId = id
    | .links employeeId serviceIds => q.employeeId = employeeId ∧ q.serviceId ∈ serviceIds

instance (organizationId : String) (r : Retired) (q : Pairing) : Decidable (r.Names organizationId q) := by
  unfold Retired.Names
  cases r <;> exact inferInstance

/-- What is retired has no appointment ahead. -/
def NoneBooked (organizationId : String) (r : Retired) (d : Db) : Prop :=
  ∀ b ∈ d.bookings, r.Names organizationId b.pairing → ¬b.Ahead d.clock

instance (organizationId : String) (r : Retired) (d : Db) : Decidable (NoneBooked organizationId r d) :=
  inferInstanceAs (Decidable (∀ b ∈ d.bookings, _ → ¬_))

/-- Nobody books what is retired between the look and the commit. -/
def unbookedMeanwhile : Conditions store where
  Assume _ _ := True
  Stable p d d' := match p with
    | .retirement organizationId r false => NoneBooked organizationId r d → NoneBooked organizationId r d'
    | .retirement _ _ true => d' = d
    | _ => True
  Fault _ _ := True

/-- A retirement is guarded by the calendars of the employees it concerns. -/
def calendarGuard : Guard store where
  locks p d := match p with
    | .retirement _ (.employee id) _ | .retirement _ (.links id _) _ => [.calendar id]
    | .retirement _ (.service id) _ =>
      (d.employeeServices.filter fun link => decide (link.serviceId = id)).map fun link =>
        .calendar link.employeeId
    | _ => []
  locked p := match p with
    | .retirement organizationId r _ => .retirement organizationId r true
    | p => p

theorem calendarGuard_fits : calendarGuard.Fits unbookedMeanwhile where
  refl p d := by
    unfold unbookedMeanwhile
    dsimp only
    split
    · exact id
    · rfl
    · trivial
  assume _ _ := Iff.rfl
  stable p d d' h := by
    cases p with
    | retirement organizationId r locked =>
      obtain rfl : d' = d := h
      cases locked with
      | false => exact id
      | true => rfl
    | _ => trivial
  fault _ _ h := h

/-- What the holder of a calendar can count on: the employee's links, that the employee is not archived,
and that the linked services are not. -/
structure SamePairings (employeeId : String) (d d' : Db) : Prop where
  linked : ∀ q : Pairing, q.employeeId = employeeId → (q.Linked d' ↔ q.Linked d)
  employee : ∀ q : Pairing, q.employeeId = employeeId → q.EmployeeArchived d' → q.EmployeeArchived d
  service : ∀ q : Pairing, q.employeeId = employeeId → q.Linked d → q.ServiceArchived d' → q.ServiceArchived d

/-- One committed change: bookings stay with their employees, requests with what they ask for, and
services with their organizations. -/
structure PairingMove (d d' : Db) : Prop where
  clock : d.clock ≤ d'.clock
  bookings : ∀ id b, Table.find id d.bookings = some b →
    ∃ b', Table.find id d'.bookings = some b' ∧ b'.employeeId = b.employeeId
  requests : ∀ id r, Table.find id d.rescheduleRequests = some r →
    ∃ r', Table.find id d'.rescheduleRequests = some r' ∧ r'.bookingId = r.bookingId ∧
      r'.requestedEmployeeId = r.requestedEmployeeId
  services : ∀ id s, Table.find id d.services = some s →
    ∃ s', Table.find id d'.services = some s' ∧ s'.organizationId = s.organizationId

/-- The protocol of who books and who retires: the lock of a calendar covers the pairings of its
employee. -/
def pairingProtocol : Proto store where
  toConditions := unbookedMeanwhile
  Inv d := Legal d ∧ NoDeletedAhead d
  Act := PairingMove
  Same l := match l with
    | .calendar employeeId => SamePairings employeeId
    | _ => fun _ _ => True
  same_refl l d := by
    cases l with
    | calendar id => exact ⟨fun _ _ => Iff.rfl, fun _ _ h => h, fun _ _ _ h => h⟩
    | _ => trivial
  same_trans {l d₁ d₂ d₃} h₁ h₂ := by
    cases l with
    | calendar id =>
      exact {
        linked := fun q hq => (h₂.linked q hq).trans (h₁.linked q hq)
        employee := fun q hq h => h₁.employee q hq (h₂.employee q hq h)
        service := fun q hq hl h => h₁.service q hq hl (h₂.service q hq ((h₁.linked q hq).mpr hl) h) }
    | _ => trivial

section Moves

variable {held : List Lock} {d d' : Db}

theorem PairingMove.refl (d : Db) : PairingMove d d where
  clock := le_rfl
  bookings _ b hb := ⟨b, hb, rfl⟩
  requests _ r hr := ⟨r, hr, rfl, rfl⟩
  services _ s hs := ⟨s, hs, rfl⟩

theorem PairingMove.trans {d₁ d₂ d₃ : Db} (h₁ : PairingMove d₁ d₂) (h₂ : PairingMove d₂ d₃) :
    PairingMove d₁ d₃ where
  clock := h₁.clock.trans h₂.clock
  bookings id b hb := by
    obtain ⟨b₂, hb₂, he₂⟩ := h₁.bookings id b hb
    obtain ⟨b₃, hb₃, he₃⟩ := h₂.bookings id b₂ hb₂
    exact ⟨b₃, hb₃, he₃.trans he₂⟩
  requests id r hr := by
    obtain ⟨r₂, hr₂, hb₂, he₂⟩ := h₁.requests id r hr
    obtain ⟨r₃, hr₃, hb₃, he₃⟩ := h₂.requests id r₂ hr₂
    exact ⟨r₃, hr₃, hb₃.trans hb₂, he₃.trans he₂⟩
  services id s hs := by
    obtain ⟨s₂, hs₂, ho₂⟩ := h₁.services id s hs
    obtain ⟨s₃, hs₃, ho₃⟩ := h₂.services id s₂ hs₂
    exact ⟨s₃, hs₃, ho₃.trans ho₂⟩

theorem elapse_pairings (r : pairingProtocol.Elapse held d d') : PairingMove d d' :=
  r.lift PairingMove.refl (fun _ _ _ => PairingMove.trans) fun _ _ h => h

theorem locked_pairings (r : pairingProtocol.Elapse held d d') {employeeId : String}
    (hl : .calendar employeeId ∈ held) : SamePairings employeeId d d' :=
  r.same hl

/-- A pairing that is not deleted stays so while the calendar is held. -/
theorem SamePairings.kept {q : Pairing} (h : SamePairings q.employeeId d d') (hq : ¬q.Deleted d) :
    ¬q.Deleted d' := by
  rintro (harchived | harchived | hlinked)
  · exact hq (Or.inl (h.employee q rfl harchived))
  · have hlinked : q.Linked d := by
      by_contra hnot
      exact hq (Or.inr (Or.inr hnot))
    exact hq (Or.inr (Or.inl (h.service q rfl hlinked harchived)))
  · exact hq (Or.inr (Or.inr fun hl => hlinked ((h.linked q rfl).mpr hl)))

theorem pairing_guarantee (hmove : PairingMove d d') (hlegal : Legal d') (hkept : NoDeletedAhead d')
    (hsame : ∀ id, .calendar id ∉ held → SamePairings id d d') : pairingProtocol.Guarantee held d d' := by
  refine ⟨hmove, ⟨hlegal, hkept⟩, fun l hl => ?_⟩
  cases l with
  | calendar id => exact hsame id hl
  | _ => trivial

/-- The tables of who performs what are left alone. -/
structure SameStaff (d d' : Db) : Prop where
  employees : d'.employees = d.employees
  services : d'.services = d.services
  links : d'.employeeServices = d.employeeServices

theorem SameStaff.deleted (h : SameStaff d d') (q : Pairing) : q.Deleted d' ↔ q.Deleted d := by
  simp only [Pairing.Deleted, Pairing.EmployeeArchived, Pairing.ServiceArchived, Pairing.Linked, h.employees,
    h.services, h.links]

theorem SameStaff.pairings (h : SameStaff d d') (id : String) : SamePairings id d d' where
  linked q _ := by simp only [Pairing.Linked, h.links]
  employee q _ := by simp only [Pairing.EmployeeArchived, h.employees, imp_self]
  service q _ _ := by simp only [Pairing.ServiceArchived, h.services, imp_self]

/-- A commit that writes bookings and requests: each booking was there and was ahead if it is now, or
its pairing is not deleted. -/
theorem guarantee_booked (hinv : pairingProtocol.Inv d) (hlegal : Legal d') (hclock : d'.clock = d.clock)
    (hstaff : SameStaff d d')
    (hbookings : ∀ x ∈ d'.bookings, (∃ x₀ ∈ d.bookings, x₀.pairing = x.pairing ∧
      (x.Ahead d.clock → x₀.Ahead d.clock)) ∨ ¬x.pairing.Deleted d)
    (hfound : ∀ id b, Table.find id d.bookings = some b →
      ∃ b', Table.find id d'.bookings = some b' ∧ b'.employeeId = b.employeeId)
    (hrequests : ∀ id r, Table.find id d.rescheduleRequests = some r →
      ∃ r', Table.find id d'.rescheduleRequests = some r' ∧ r'.bookingId = r.bookingId ∧
        r'.requestedEmployeeId = r.requestedEmployeeId) : pairingProtocol.Guarantee held d d' := by
  refine pairing_guarantee ⟨hclock.ge, hfound, hrequests, fun id s hs => ⟨s, by rw [hstaff.services, hs], rfl⟩⟩
    hlegal (fun x hx hahead => ?_) fun id _ => hstaff.pairings id
  rw [hclock] at hahead
  rw [hstaff.deleted]
  rcases hbookings x hx with ⟨x₀, hx₀, hpairing, hbefore⟩ | hkept
  · rw [← hpairing]
    exact hinv.2 x₀ hx₀ (hbefore hahead)
  · exact hkept

end Moves

section Booking

variable {held : List Lock} {δ : Db → Db} {d : Db}

/-- The rows of a table with distinct keys are found by them. -/
theorem eq_of_find {ρ : Type} [Keyed ρ String] {t : List ρ} (hnodup : (t.map Keyed.key).Nodup) {r r' : ρ}
    (hr : r ∈ t) (hfind : Table.find (Keyed.key r) t = some r') : r = r' :=
  Option.some.inj ((Table.find_of_mem hnodup hr).symm.trans hfind)

/-- Whoever holds the calendar and has loaded a slot may count on the pairing. -/
theorem runs_loadPaired {api : Api} {serviceId employeeId : String} {startsAt : Int} {β : Type}
    {k : AvailabilitySnapshot → Tx β} {Q : β → List Lock → (Db → Db) → Db → Prop}
    (hcalendar : .calendar employeeId ∈ held)
    (h : ∀ d' snapshot, pairingProtocol.Elapse held d d' →
      ¬(Pairing.mk api.organizationId employeeId serviceId).Deleted d' →
      Runs pairingProtocol (k snapshot) Q held id d') :
    Runs pairingProtocol (loadForSlot api serviceId employeeId startsAt >>= k) Q held id d := by
  refine .bind (.bind (.read fun d₁ r₁ i₁ => ?_))
  split
  · exact .fail
  rename_i service hservice
  obtain ⟨hservice, honline⟩ := Option.filter_eq_some_iff.mp hservice
  obtain ⟨hservice, -⟩ := Option.filter_eq_some_iff.mp hservice
  refine .ret (.bind (.read fun d₂ r₂ i₂ => wp_ensure (fun hlinks => ?_) fun _ => trivial))
  refine .read fun d₃ r₃ _ => .read fun d₄ r₄ _ => .read fun d₅ r₅ _ => .read fun d₆ r₆ _ => ?_
  refine .read fun d₇ r₇ _ => .read fun d₈ r₈ _ => .now fun d₉ r₉ _ instant => .ret ?_
  have r := r₃.trans (r₄.trans (r₅.trans (r₆.trans (r₇.trans (r₈.trans r₉)))))
  refine h d₉ _ (r₁.trans (r₂.trans r)) ((locked_pairings r hcalendar).kept ?_)
  obtain ⟨link, hlink⟩ := List.exists_mem_of_ne_nil _ hlinks
  obtain ⟨hlink, hrow⟩ := List.mem_filter.mp hlink
  obtain ⟨hpairing, hany⟩ := Bool.and_eq_true_iff.mp hrow
  obtain ⟨ho, hs, he⟩ := of_decide_eq_true hpairing
  obtain ⟨employee, hemployee, hactive⟩ := (Option.any_eq_true _ _).mp hany
  have hlinked : (Pairing.mk api.organizationId employeeId serviceId).Linked d₂ :=
    ⟨link, hlink, by rw [EmployeeService.pairing, ho, hs, he]⟩
  have hsame := locked_pairings r₂ hcalendar
  rintro (⟨e, hmem, -, hid, harchived⟩ | hservices | hnot)
  · have hself : e = employee := eq_of_find i₂.1.calendar.employees_pkey hmem
      ((congrArg (Table.find · d₂.employees) hid).trans hemployee)
    rw [hself] at harchived
    exact harchived (of_decide_eq_true hactive).2
  · obtain ⟨s, hmem, -, hid, harchived⟩ :=
      hsame.service _ rfl ((hsame.linked _ rfl).mp hlinked) hservices
    have hself : s = service := eq_of_find i₁.1.calendar.services_pkey hmem
      ((congrArg (Table.find · d₁.services) hid).trans hservice)
    rw [hself] at harchived
    exact harchived (of_decide_eq_true honline).1
  · exact hnot hlinked

theorem ReserveInput.pairing_toBooking {input : ReserveInput} {api : Api}
    {service : AvailabilityServiceSnapshot} {assignment : Assignment} {expiresAt : Option Int}
    {keyId : Option String} {instant : Int} {ids : Answer} :
    (input.toBooking api service assignment expiresAt keyId instant ids).pairing =
      ⟨api.organizationId, input.employeeId, input.serviceId⟩ := by
  obtain ⟨serviceId, employeeId, startsAt, customerId, locale, note, origin, actor, key⟩ := input
  cases actor <;> rfl

/-- A reservation books a pairing that is not deleted at its commit. -/
theorem runs_insertPaired {api : Api} {input : ReserveInput} {expiresAt : Option Int} {p : Point} :
    Runs pairingProtocol (insertOnce api input expiresAt)
      (pairingProtocol.Commits p fun _ _ _ _ => True) [] id d := by
  refine .withCalendarLock fun d₁ held _ hcalendar => runs_loadPaired (hcalendar _ (by simp))
    fun d₂ snapshot _ hkept => runs_assertSlotBookable fun _ => .bind (.read fun d₃ r₃ _ => ?_)
  split
  · exact .fail
  refine .ofExcept fun price _ => .ret (.bind (runs_claimIdempotencyKey fun d₄ keyId ids r₄ => ?_))
  refine .now fun d₅ r₅ _ instant => .answer fun d₆ r₆ _ answer => ?_
  dsimp only
  generalize hb : input.toBooking api snapshot.service _ expiresAt keyId instant answer = b
  have hpairing : b.pairing = ⟨api.organizationId, input.employeeId, input.serviceId⟩ :=
    hb ▸ ReserveInput.pairing_toBooking
  refine .ensure fun _ => .insertAt fun d₇ r₇ _ => ?_
  refine .bind (runs_bindIdempotencyKey fun d₈ bind more r₈ => .bind (runs_armExpiry
    fun d₉ armed r₉ _ => .insertAt fun d₁₀ r₁₀ _ => .bind (runs_announce
      fun d₁₁ token tokens events r₁₁ _ _ => .ret fun d' r i _ hl => ?_)))
  have r₅' : pairingProtocol.Elapse held d₄ d' :=
    ((r₅.trans (r₆.trans (r₇.trans r₈))).weaken fun _ hl => List.mem_append_left _ hl).trans
      ((r₉.trans (r₁₀.trans (r₁₁.trans r.elapse))).weaken fun _ hl =>
        List.mem_append_left _ (List.mem_append_left _ hl))
  have hsame := locked_pairings (r₃.trans (r₄.trans r₅')) (hcalendar input.employeeId (by simp))
  refine ⟨guarantee_booked i (of_decide_eq_true hl) rfl ⟨rfl, rfl, rfl⟩ (fun x hx => ?_) (fun id x hx => ?_)
    fun id r hr => ⟨r, hr, rfl, rfl⟩, trivial⟩
  · rcases List.mem_append.mp hx with hold | hnew
    · obtain ⟨x₀, hx₀, rfl⟩ := Table.mem_update.mp hold
      refine Or.inl ⟨x₀, hx₀, ?_⟩
      split <;> exact ⟨rfl, fun h => h⟩
    · rw [List.mem_singleton.mp hnew, hpairing]
      exact Or.inr (hsame.kept hkept)
  · have hupdated : Table.find id (Table.update ids (fun b => { b with idempotencyKeyId := none }) d'.bookings) =
        some (if id ∈ ids then { x with idempotencyKeyId := none } else x) := by
      rw [Table.find_update (by exact fun _ => rfl), hx]
      rfl
    refine ⟨_, Table.find_append_of_some hupdated, ?_⟩
    split <;> rfl

theorem runs_reservePaired {api : Api} {input : ReserveInput} {p : Point} :
    Runs pairingProtocol (reserveAt p api input) (fun _ _ _ _ => True) held id d := by
  have hinsert : ∀ expiresAt held δ d, Runs pairingProtocol
      (withSerializationRetry fun _ => insertBooking p api input expiresAt) (fun _ _ _ _ => True) held δ d :=
    fun expiresAt held δ d => .withSerializationRetry fun _ _ _ _ _ => .refuseOverlap
      (.withRetry fun _ _ _ _ _ => .transaction fun _ _ _ => runs_insertPaired)
  refine .bind (.discard (.read fun d₁ _ _ => ?_))
  split
  · exact .fail
  refine .ret (.bind ?_)
  unfold assertWithinBookingWindow reservationExpiry
  split
  · exact runs_assertWithinWindow fun d₂ r₂ => .bind (.now fun d₃ r₃ _ _ => .ret (hinsert _ _ _ _))
  · exact .ret (.bind (.ret (hinsert _ _ _ _)))

/-- A request that is decided still asks for what it asked for. -/
theorem requests_decided {input : DecideRescheduleInput} {decidedAt : Int} {resulting : Option String}
    {t : List RescheduleRequest} {id : String} {r : RescheduleRequest} (hr : Table.find id t = some r) :
    ∃ r', Table.find id (Table.update [input.requestId] (input.decided decidedAt resulting) t) = some r' ∧
      r'.bookingId = r.bookingId ∧ r'.requestedEmployeeId = r.requestedEmployeeId := by
  rw [Table.find_update (by exact fun _ => rfl), hr]
  refine ⟨_, rfl, ?_⟩
  split <;> exact ⟨rfl, rfl⟩

/-- A decision, once the calendars of the request that was read are locked. -/
theorem runs_decidePaired {api : Api} {input : DecideRescheduleInput} {q : RescheduleRequest} {b₀ : Booking}
    {before : Db} (hbefore : pairingProtocol.Elapse [] before d)
    (hq : Table.find input.requestId before.rescheduleRequests = some q)
    (hb₀ : Table.find q.bookingId before.bookings = some b₀)
    (hcalendar : .calendar (q.requestedEmployeeId.getD b₀.employeeId) ∈ held) :
    Runs pairingProtocol (decideLocked api input)
      (pairingProtocol.CommitsBy (movePoint input.requestId) fun _ _ _ _ => True) held id d := by
  refine .bind (.lockRow (fun _ _ _ _ => .fail) fun d₁ locked r₁ _ _ => .ensure fun _ => .read fun d₂ r₂ _ =>
    wp_orThrow (fun q' hq' => ?_) fun _ => trivial)
  obtain ⟨hq', ho⟩ := Option.filter_eq_some_iff.mp hq'
  have hsince := hbefore.trans ((r₁.trans (r₂.weaken fun _ hl => List.mem_append_left _ hl)).weaken (by simp))
  obtain ⟨x, hx, hbooking', hemployee⟩ := (elapse_pairings hsince).requests _ _ hq
  obtain rfl : q' = x := Option.some.inj (hq'.symm.trans hx)
  split
  · refine .bind (runs_writeDecision fun d₃ decidedAt r₃ => .ret fun d' r i _ hl => ?_)
    refine ⟨guarantee_booked i (of_decide_eq_true hl) rfl ⟨rfl, rfl, rfl⟩ (fun x hx => ?_)
      (fun id b hb => ⟨b, hb, rfl⟩) fun id r hr => requests_decided hr, trivial⟩
    exact Or.inl ⟨x, hx, rfl, fun h => h⟩
  refine .map (.now fun d₃ r₃ _ instant => .read fun d₄ r₄ _ => .orThrow fun booking hbooking =>
    .ensure fun _ => ?_)
  obtain ⟨hfind, howner⟩ := Option.filter_eq_some_iff.mp hbooking
  have howned : booking.organizationId = api.organizationId :=
    (of_decide_eq_true howner).trans (of_decide_eq_true ho)
  -- the calendar was locked for the employee that the booking had before
  have hsince' := hsince.trans ((r₃.trans r₄).weaken (by simp))
  obtain ⟨y, hy, hsame⟩ := (elapse_pairings hsince').bookings _ _ hb₀
  obtain rfl : booking = y := Option.some.inj (hfind.symm.trans (hbooking' ▸ hy))
  rw [← hsame, ← hemployee] at hcalendar
  refine runs_loadPaired (List.mem_append_left _ hcalendar) fun d₅ snapshot _ hkept =>
    runs_assertSlotBookable fun _ => .ensure fun _ => .answer fun d₆ r₆ _ ids => ?_
  dsimp only
  refine .insertAt fun d₇ r₇ _ => .ensure fun _ => .updateBookingAt fun d₈ r₈ _ _ _ _ => ?_
  refine .insertAt fun d₉ r₉ _ => .bind (runs_rotateToken
    fun d₁₀ token revoked revoke new more r₁₀ _ _ => ?_)
  refine .bind (runs_writeDecision fun d₁₁ decidedAt r₁₁ => .insertAt fun d₁₂ r₁₂ _ =>
    .insertAt fun d₁₃ r₁₃ _ => .ret fun d' r i _ hl => ?_)
  have r₁₀' := r₁₁.trans ((r₁₂.trans (r₁₃.trans r.elapse)).weaken fun _ hl => List.mem_append_left _ hl)
  have r₈' := r₉.trans (r₁₀.trans (r₁₀'.weaken fun _ hl => List.mem_append_left _ hl))
  have r₅' := r₆.trans (r₇.trans (r₈.trans (r₈'.weaken fun _ hl => List.mem_append_left _ hl)))
  have hstill := (locked_pairings r₅' (List.mem_append_left _ hcalendar)).kept hkept
  refine ⟨guarantee_booked i (of_decide_eq_true hl) rfl ⟨rfl, rfl, rfl⟩ (fun x hx => ?_) (fun id b hb => ?_)
    fun id r hr => requests_decided hr, trivial⟩
  · obtain ⟨x₀, hx₀, rfl⟩ := Table.mem_update.mp hx
    rcases List.mem_append.mp hx₀ with hold | hnew
    · refine Or.inl ⟨x₀, hold, ?_⟩
      split
      · exact ⟨rfl, fun h => absurd h.1 (by simp [Booking.Blocks, Ending.applyTo, BLOCKING_BOOKING_STATUSES])⟩
      · exact ⟨rfl, fun h => h⟩
    · rw [List.mem_singleton.mp hnew]
      refine Or.inr ?_
      have hpairing : (booking.replacement (q'.requestedEmployeeId.getD booking.employeeId)
          q'.requestedStartsAt instant ids).pairing =
          ⟨api.organizationId, q'.requestedEmployeeId.getD booking.employeeId, booking.serviceId⟩ := by
        rw [← howned]
        rfl
      split
      · rw [← hpairing] at hstill
        exact hstill
      · rwa [hpairing]
  · have hadded := Table.find_append_of_some (u := [booking.replacement
      (q'.requestedEmployeeId.getD booking.employeeId) q'.requestedStartsAt instant ids]) hb
    change ∃ b', Table.find id (Table.update [booking.id] _ (d'.bookings ++ [_])) = some b' ∧ _
    rw [Table.find_update (by exact fun _ => rfl), hadded]
    refine ⟨_, rfl, ?_⟩
    split <;> rfl

/-- The request that is read first names the calendars that the decision needs. -/
theorem runs_decideReschedulePaired {api : Api} {input : DecideRescheduleInput} :
    Runs pairingProtocol (decideReschedule api input) (fun _ _ _ _ => True) held δ d := by
  refine .withSerializationRetry fun _ _ _ _ _ => .query fun d₁ _ _ => ?_
  split
  · exact .fail
  rename_i request employeeId hread
  obtain ⟨q, hq, hread⟩ := Option.bind_eq_some_iff.mp hread
  obtain ⟨b, hb, he⟩ := Option.map_eq_some_iff.mp hread
  cases he
  obtain ⟨hq, -⟩ := Option.filter_eq_some_iff.mp hq
  refine .bind (.refuseOverlap (.transactionBy fun d₂ r₂ _ => .withCalendarLock
    fun d₃ held' r₃ hcalendar => ?_))
  refine .mono (runs_decidePaired (r₂.trans r₃) hq hb (hcalendar _ (by simp)))
    fun moved held δ d hcommit d' r i ha hl => ⟨(hcommit d' r i ha hl).1, .ret trivial⟩

/-- Asking for a slot looks at it without any lock. -/
theorem runs_assertPlausible {P : Proto store} {api : Api} {booking : Booking} {employeeId : String}
    {startsAt : Int} {β : Type} {k : Unit → Tx β} {Q : β → List Lock → (Db → Db) → Db → Prop}
    (h : ∀ d', P.Elapse held d d' → Runs P (k ()) Q held id d') :
    Runs P (assertPlausible api booking employeeId startsAt >>= k) Q held id d := by
  refine .bind (.bind (.bind (.read fun d₁ r₁ _ => ?_)))
  split
  · exact .fail
  refine .ret (.bind (.read fun d₂ r₂ _ => wp_ensure (fun _ => ?_) fun _ => trivial))
  refine .read fun d₃ r₃ _ => .read fun d₄ r₄ _ => .read fun d₅ r₅ _ => .read fun d₆ r₆ _ => ?_
  refine .read fun d₇ r₇ _ => .read fun d₈ r₈ _ => .now fun d₉ r₉ _ instant => .ret ?_
  refine .ofExcept fun bookable _ => wp_ensure (fun _ => h d₉ ?_) fun _ => trivial
  exact r₁.trans (r₂.trans (r₃.trans (r₄.trans (r₅.trans (r₆.trans (r₇.trans (r₈.trans r₉)))))))

/-- A request for another slot books nothing. -/
theorem runs_requestPaired {api : Api} {input : RequestRescheduleInput} :
    Runs pairingProtocol (requestByCustomer api input) (fun _ _ _ _ => True) held id d := by
  refine .bind (.read fun d₁ _ _ => ?_)
  split
  · exact .fail
  refine .ret (runs_assertReschedulable fun d₂ _ _ => .bind (runs_assertWithinWindow fun d₃ _ =>
    runs_assertPlausible fun d₄ _ => ?_))
  refine .tryCatch (.withSerializationRetry fun _ _ _ _ _ => .transaction fun _ _ _ => ?_)
    fun e held δ d => ?_
  · refine .lockRow (fun _ _ _ _ => .fail) fun d₅ b _ _ _ => runs_assertReschedulable fun d₆ _ _ =>
      .freshId fun d₇ _ _ id => .insertAt fun d₈ _ _ => .ret fun d' r i _ hl => ?_
    refine ⟨guarantee_booked i (of_decide_eq_true hl) rfl ⟨rfl, rfl, rfl⟩ (fun x hx => ?_)
      (fun _ b hb => ⟨b, hb, rfl⟩) fun _ r hr => ⟨r, Table.find_append_of_some hr, rfl, rfl⟩, trivial⟩
    exact Or.inl ⟨x, hx, rfl, fun h => h⟩
  · split <;> exact .fail

end Booking

section Retiring

variable {held : List Lock} {δ : Db → Db} {d d' : Db} {organizationId : String} {r : Retired}

/-- Nobody books what is retired while the retirement stands at a statement after its look. -/
theorem rely_noneBooked (h : pairingProtocol.Rely (.retirement organizationId r false) held d d')
    (hnone : NoneBooked organizationId r d) : NoneBooked organizationId r d' := by
  induction h with
  | refl => exact hnone
  | tail _ hstep ih =>
    have hstable : NoneBooked organizationId r _ → NoneBooked organizationId r _ := hstep.2.1
    exact hstable ih

/-- A commit that retires what has no appointment ahead. -/
theorem guarantee_retired (hinv : pairingProtocol.Inv d) (hlegal : Legal d')
    (hnone : NoneBooked organizationId r d) (hbookings : d'.bookings = d.bookings)
    (hrequests : d'.rescheduleRequests = d.rescheduleRequests) (hclock : d'.clock = d.clock)
    (hservices : ∀ id s, Table.find id d.services = some s →
      ∃ s', Table.find id d'.services = some s' ∧ s'.organizationId = s.organizationId)
    (hdeleted : ∀ q : Pairing, q.Deleted d' → q.Deleted d ∨ r.Names organizationId q)
    (hsame : ∀ id, .calendar id ∉ held → SamePairings id d d') : pairingProtocol.Guarantee held d d' := by
  refine pairing_guarantee ⟨hclock.ge, fun _ b hb => ⟨b, by rw [hbookings, hb], rfl⟩,
    fun _ q hq => ⟨q, by rw [hrequests, hq], rfl, rfl⟩, hservices⟩ hlegal (fun b hb hahead hgone => ?_) hsame
  rw [hbookings] at hb
  rw [hclock] at hahead
  rcases hdeleted _ hgone with hbefore | hnamed
  · exact hinv.2 b hb hahead hbefore
  · exact hnone b hb hnamed hahead

theorem runs_clockPaired {β : Type} {k : Int → Tx β} {Q : β → List Lock → (Db → Db) → Db → Prop}
    (h : ∀ d', pairingProtocol.Elapse held d d' → Runs pairingProtocol (k d'.clock) Q held δ d') :
    Runs pairingProtocol (clockNow >>= k) Q held δ d :=
  .bind (.map (wp_call fun d₁ r₁ i₁ => ⟨pairing_guarantee (.refl d₁) i₁.1 i₁.2 fun id _ =>
    SameStaff.pairings ⟨rfl, rfl, rfl⟩ id, h d₁ r₁.elapse⟩))

/-- A retirement commits under the calendars that it concerns. -/
theorem Runs.outermost {α : Type} {body : Tx α} {Q : α → List Lock → (Db → Db) → Db → Prop}
    (h : Runs pairingProtocol (body.guarded calendarGuard)
      (pairingProtocol.CommitsGuarded calendarGuard (.retirement organizationId r false) Q) held δ d) :
    Runs pairingProtocol ((BookingApp.outermost (.retirement organizationId r false) body).guarded calendarGuard)
      Q held δ d := by
  rw [BookingApp.outermost, Code.guarded_tryCatch, Code.guarded_bind]
  refine .tryCatch (.bind (.mono h fun a held δ d hcommit => ?_)) fun e held δ d _ _ _ => trivial
  exact wp_guardedCommit calendarGuard_fits (fun _ _ hstill => hstill) (fun _ _ _ => trivial) hcommit

@[simp] theorem guarded_query {α : Type} (f : Db → α) : (query f).guarded calendarGuard = query f := rfl

@[simp] theorem guarded_clockNow : clockNow.guarded calendarGuard = clockNow := rfl

@[simp] theorem guarded_orThrow {α : Type} (row : Option α) :
    (orThrow row).guarded calendarGuard = orThrow row := by
  cases row <;> rfl

namespace EmployeesService

variable {session : OfficeSession} {employeeId : String}

@[simp] theorem guarded_load : (load session employeeId).guarded calendarGuard = load session employeeId := by
  rw [load, Code.guarded_bind]
  refine congrArg _ (funext fun row => ?_)
  cases row <;> rfl

theorem runs_load {Q : Employee → List Lock → (Db → Db) → Db → Prop}
    (h : ∀ d' employee, Q employee [] id d') : Runs pairingProtocol (load session employeeId) Q held δ d := by
  refine .query fun d₁ _ _ => ?_
  split
  · exact .fail
  · exact .ret (h d₁ _)

/-- An employee is archived: nothing else is deleted by it, and no other calendar is concerned. -/
theorem guarantee_archived {now : Int} (hinv : pairingProtocol.Inv d)
    (hlegal : Legal { d with employees := d.employees.map (archived session employeeId now) })
    (hnone : NoneBooked session.organizationId (.employee employeeId) d) (hl : .calendar employeeId ∈ held) :
    pairingProtocol.Guarantee held d { d with employees := d.employees.map (archived session employeeId now) } := by
  have harchived : ∀ q : Pairing, q.EmployeeArchived
      { d with employees := d.employees.map (archived session employeeId now) } →
      q.EmployeeArchived d ∨ q.organizationId = session.organizationId ∧ q.employeeId = employeeId := by
    rintro q ⟨e', hmem, ho, hid, hat⟩
    obtain ⟨e, he, rfl⟩ := List.mem_map.mp hmem
    unfold archived at ho hid hat
    split at ho
    next hmatch =>
      rw [if_pos hmatch] at hid
      exact Or.inr ⟨ho.symm.trans hmatch.2, hid.symm.trans hmatch.1⟩
    next hmatch =>
      rw [if_neg hmatch] at hid hat
      exact Or.inl ⟨e, he, ho, hid, hat⟩
  refine guarantee_retired hinv hlegal hnone rfl rfl rfl (fun _ s hs => ⟨s, hs, rfl⟩) (fun q hq => ?_)
    fun id hother => ?_
  · rcases hq with hemployee | hservice | hlinked
    · exact (harchived q hemployee).imp Or.inl fun h => h
    · exact Or.inl (Or.inr (Or.inl hservice))
    · exact Or.inl (Or.inr (Or.inr hlinked))
  · exact {
      linked := fun _ _ => Iff.rfl
      employee := fun q hq h => (harchived q h).resolve_right fun hmatch =>
        hother (by rw [← hq, hmatch.2]; exact hl)
      service := fun _ _ _ h => h }

theorem runs_archive : Runs pairingProtocol ((archive session employeeId).guarded calendarGuard)
    (fun _ _ _ _ => True) held δ d := by
  rw [archive, Code.guarded_bind, guarded_load]
  refine .bind (runs_load fun d₁ employee => ?_)
  split
  · exact .ret trivial
  simp only [Code.guarded_bind, guarded_clockNow, guarded_query, Code.guarded_ensure]
  refine runs_clockPaired fun d₂ r₂ => .query fun d₃ r₃ _ => .ensure fun hcount => .outermost ?_
  have hnone : NoneBooked session.organizationId (.employee employeeId) d₃ := by
    intro b hb hnames hahead
    have hin : b ∈ d₃.bookings.filter fun b => decide (b.organizationId = session.organizationId ∧
        b.employeeId = employeeId ∧ b.Ahead d₂.clock) := List.mem_filter.mpr ⟨hb, decide_eq_true
      ⟨hnames.1, hnames.2, hahead.1, lt_of_le_of_lt (elapse_pairings r₃).clock hahead.2⟩⟩
    rw [List.eq_nil_of_length_eq_zero hcount] at hin
    cases hin
  simp only [Code.guarded_bind, Code.guarded_modify, guarded_orThrow]
  refine .bind (wp_modify (fun _ _ _ => trivial) fun d₄ r₄ _ _ => wp_orThrow (fun row _ => ?_) fun _ => trivial)
  intro d' r i _ hl
  exact ⟨guarantee_archived i (of_decide_eq_true hl) (rely_noneBooked r (rely_noneBooked r₄ hnone))
    (List.mem_append_right _ (List.mem_singleton_self _)), trivial⟩

end EmployeesService

namespace CatalogService

variable {session : OfficeSession} {serviceId : String}

@[simp] theorem guarded_load : (load session serviceId).guarded calendarGuard = load session serviceId := by
  rw [load, Code.guarded_bind]
  refine congrArg _ (funext fun row => ?_)
  cases row <;> rfl

/-- A service is archived: whoever may perform it has a calendar that is held. -/
theorem guarantee_archived {now : Int} (hinv : pairingProtocol.Inv d)
    (hlegal : Legal { d with services := d.services.map (archived serviceId now) })
    (hnone : NoneBooked session.organizationId (.service serviceId) d) {service : Service}
    (hfind : Table.find serviceId d.services = some service)
    (howner : service.organizationId = session.organizationId)
    (hl : ∀ link ∈ d.employeeServices, link.serviceId = serviceId → .calendar link.employeeId ∈ held) :
    pairingProtocol.Guarantee held d { d with services := d.services.map (archived serviceId now) } := by
  have hkey : ∀ s : Service, (archived serviceId now s).id = s.id ∧
      (archived serviceId now s).organizationId = s.organizationId := by
    intro s
    unfold archived
    split <;> exact ⟨rfl, rfl⟩
  have harchived : ∀ q : Pairing, q.ServiceArchived
      { d with services := d.services.map (archived serviceId now) } →
      q.ServiceArchived d ∨ q.organizationId = session.organizationId ∧ q.serviceId = serviceId := by
    rintro q ⟨s', hmem, ho, hid, hat⟩
    obtain ⟨s, hs, rfl⟩ := List.mem_map.mp hmem
    rw [(hkey s).2] at ho
    rw [(hkey s).1] at hid
    by_cases hmatch : s.id = serviceId
    · obtain rfl : s = service := eq_of_find hinv.1.calendar.services_pkey hs
        ((congrArg (Table.find · d.services) hmatch).trans hfind)
      exact Or.inr ⟨ho.symm.trans howner, hid.symm.trans hmatch⟩
    · rw [archived, if_neg hmatch] at hat
      exact Or.inl ⟨s, hs, ho, hid, hat⟩
  refine guarantee_retired hinv hlegal hnone rfl rfl rfl (fun id s hs => ?_) (fun q hq => ?_) fun id hother => ?_
  · refine ⟨archived serviceId now s, ?_, (hkey s).2⟩
    have hmap : d.services.map (archived serviceId now) = Table.update [serviceId]
        (fun s => { s with archivedAt := some now }) d.services := by
      refine List.map_congr_left fun s _ => ?_
      unfold archived
      exact if_congr List.mem_singleton.symm rfl rfl
    have hs' : s.id = id := Table.key_of_find hs
    show Table.find id (d.services.map (archived serviceId now)) = _
    rw [hmap, Table.find_update (by exact fun _ => rfl), hs, Option.map_some]
    unfold archived
    rw [hs']
    exact congrArg some (if_congr List.mem_singleton rfl rfl)
  · rcases hq with hemployee | hservice | hlinked
    · exact Or.inl (Or.inl hemployee)
    · exact (harchived q hservice).imp (fun h => Or.inr (Or.inl h)) fun h => h
    · exact Or.inl (Or.inr (Or.inr hlinked))
  · exact {
      linked := fun _ _ => Iff.rfl
      employee := fun _ _ h => h
      service := fun q hq hlinked h => (harchived q h).resolve_right fun hmatch => by
        obtain ⟨link, hlink, hpairing⟩ := hlinked
        have he : link.employeeId = q.employeeId := congrArg Pairing.employeeId hpairing
        have hs : link.serviceId = q.serviceId := congrArg Pairing.serviceId hpairing
        exact hother (hq ▸ he ▸ hl link hlink (hs.trans hmatch.2)) }

theorem runs_archiveService : Runs pairingProtocol ((archiveService session serviceId).guarded calendarGuard)
    (fun _ _ _ _ => True) held δ d := by
  rw [archiveService, Code.guarded_bind, guarded_load]
  refine .bind (.query fun d₁ _ _ => ?_)
  split
  · exact .fail
  rename_i service hservice
  obtain ⟨hfind, howner⟩ := Option.filter_eq_some_iff.mp hservice
  refine .ret ?_
  split
  · exact .ret trivial
  simp only [Code.guarded_bind, guarded_clockNow, guarded_query, Code.guarded_ensure]
  refine runs_clockPaired fun d₂ r₂ => .query fun d₃ r₃ _ => .ensure fun hcount => .outermost ?_
  have hnone : NoneBooked session.organizationId (.service serviceId) d₃ := by
    intro b hb hnames hahead
    have hin : b ∈ d₃.bookings.filter fun b => decide (b.organizationId = session.organizationId ∧
        b.serviceId = serviceId ∧ b.Ahead d₂.clock) := List.mem_filter.mpr ⟨hb, decide_eq_true
      ⟨hnames.1, hnames.2, hahead.1, lt_of_le_of_lt (elapse_pairings r₃).clock hahead.2⟩⟩
    rw [List.eq_nil_of_length_eq_zero hcount] at hin
    cases hin
  simp only [Code.guarded_bind, Code.guarded_modify, guarded_orThrow]
  refine .bind (wp_modify (fun _ _ _ => trivial) fun d₄ r₄ _ _ => wp_orThrow (fun row _ => ?_) fun _ => trivial)
  intro d' r i _ hl
  have hsince : PairingMove d₁ d' := (elapse_pairings r₂).trans ((elapse_pairings r₃).trans
    ((elapse_pairings r₄.elapse).trans (elapse_pairings r.elapse)))
  obtain ⟨service', hfind', howner'⟩ := hsince.services _ _ hfind
  refine ⟨guarantee_archived i (of_decide_eq_true hl) (rely_noneBooked r (rely_noneBooked r₄ hnone)) hfind'
    (howner'.trans (of_decide_eq_true howner)) fun link hlink hs => ?_, trivial⟩
  exact List.mem_append_right _ (List.mem_map.mpr ⟨link, List.mem_filter.mpr ⟨hlink, decide_eq_true hs⟩, rfl⟩)

end CatalogService

namespace EmployeesService

variable {session : OfficeSession} {employeeId : String}

/-- The links once all are upserted. -/
def upsertAll (session : OfficeSession) (employeeId : String) (wanted : List Assignment)
    (links : List EmployeeService) : List EmployeeService :=
  wanted.foldl (fun links a => upsertLink session employeeId a links) links

theorem pairing_upsertLink (session : OfficeSession) (employeeId : String) (a : Assignment)
    (links : List EmployeeService) :
    (∀ link ∈ links, ∃ link' ∈ upsertLink session employeeId a links, link'.pairing = link.pairing) ∧
      ∀ link' ∈ upsertLink session employeeId a links, link'.pairing.employeeId ≠ employeeId →
        ∃ link ∈ links, link.pairing = link'.pairing := by
  unfold upsertLink
  split
  · have hpairing : ∀ link : EmployeeService, (if link.employeeId = employeeId ∧ link.serviceId = a.serviceId
        then { link with priceOverrideCents := a.priceOverrideCents } else link).pairing = link.pairing := by
      intro link
      split <;> rfl
    refine ⟨fun link hlink => ⟨_, List.mem_map_of_mem hlink, hpairing link⟩, fun link' hlink' _ => ?_⟩
    obtain ⟨link, hlink, rfl⟩ := List.mem_map.mp hlink'
    exact ⟨link, hlink, (hpairing link).symm⟩
  · refine ⟨fun link hlink => ⟨link, List.mem_append_left _ hlink, rfl⟩, fun link' hlink' hother => ?_⟩
    rcases List.mem_append.mp hlink' with hold | hnew
    · exact ⟨link', hold, rfl⟩
    · rw [List.mem_singleton.mp hnew] at hother
      exact absurd rfl hother

theorem pairing_upsertAll (session : OfficeSession) (employeeId : String) (wanted : List Assignment)
    (links : List EmployeeService) :
    (∀ link ∈ links, ∃ link' ∈ upsertAll session employeeId wanted links, link'.pairing = link.pairing) ∧
      ∀ link' ∈ upsertAll session employeeId wanted links, link'.pairing.employeeId ≠ employeeId →
        ∃ link ∈ links, link.pairing = link'.pairing := by
  induction wanted generalizing links with
  | nil => exact ⟨fun link hlink => ⟨link, hlink, rfl⟩, fun link hlink _ => ⟨link, hlink, rfl⟩⟩
  | cons a wanted ih =>
    obtain ⟨hkeep, hother⟩ := pairing_upsertLink session employeeId a links
    obtain ⟨hkeep', hother'⟩ := ih (upsertLink session employeeId a links)
    refine ⟨fun link hlink => ?_, fun link' hlink' hne => ?_⟩
    · obtain ⟨link₁, hlink₁, he₁⟩ := hkeep link hlink
      obtain ⟨link₂, hlink₂, he₂⟩ := hkeep' link₁ hlink₁
      exact ⟨link₂, hlink₂, he₂.trans he₁⟩
    · obtain ⟨link₁, hlink₁, he₁⟩ := hother' link' hlink' hne
      obtain ⟨link, hlink, he⟩ := hother link₁ hlink₁ (he₁ ▸ hne)
      exact ⟨link, hlink, he.trans he₁⟩

/-- The links after a replacement. -/
def replacedLinks (session : OfficeSession) (employeeId : String) (removed : List String)
    (wanted : List Assignment) (links : List EmployeeService) : List EmployeeService :=
  upsertAll session employeeId wanted
    (links.filter fun link => !decide (linksTo session employeeId removed link))

/-- An employee's links are replaced: none is lost but those that are removed, and those of others stay. -/
theorem guarantee_replacedLinks {removed : List String} {wanted : List Assignment}
    (hinv : pairingProtocol.Inv d)
    (hlegal : Legal { d with
      employeeServices := replacedLinks session employeeId removed wanted d.employeeServices })
    (hnone : NoneBooked session.organizationId (.links employeeId removed) d)
    (hl : .calendar employeeId ∈ held) :
    pairingProtocol.Guarantee held d { d with
      employeeServices := replacedLinks session employeeId removed wanted d.employeeServices } := by
  obtain ⟨hkeep, hother⟩ := pairing_upsertAll session employeeId wanted
    (d.employeeServices.filter fun link => !decide (linksTo session employeeId removed link))
  have hlinked : ∀ q : Pairing, q.Linked d → q.Linked { d with
      employeeServices := replacedLinks session employeeId removed wanted d.employeeServices } ∨
      (Retired.links employeeId removed).Names session.organizationId q := by
    rintro q ⟨link, hlink, rfl⟩
    by_cases hgone : linksTo session employeeId removed link
    · exact Or.inr hgone
    · exact Or.inl (hkeep link (List.mem_filter.mpr ⟨hlink, by simp [hgone]⟩))
  refine guarantee_retired hinv hlegal hnone rfl rfl rfl (fun _ s hs => ⟨s, hs, rfl⟩) (fun q hq => ?_)
    fun id hid => ?_
  · rcases hq with hemployee | hservice | hnot
    · exact Or.inl (Or.inl hemployee)
    · exact Or.inl (Or.inr (Or.inl hservice))
    · by_cases hbefore : q.Linked d
      · exact Or.inr ((hlinked q hbefore).resolve_left hnot)
      · exact Or.inl (Or.inr (Or.inr hbefore))
  · have hne : id ≠ employeeId := fun he => hid (he ▸ hl)
    refine ⟨fun q hq => ⟨?_, fun h => ?_⟩, fun _ _ h => h, fun _ _ _ h => h⟩
    · rintro ⟨link', hlink', rfl⟩
      obtain ⟨link, hlink, he⟩ := hother link' hlink' (hq ▸ hne)
      exact ⟨link, (List.mem_filter.mp hlink).1, he⟩
    · exact (hlinked q h).resolve_right fun hnamed => hne (hq.symm.trans hnamed.2.1)

@[simp] theorem guarded_deleteLinks (p : Point) (removed : List String) :
    (deleteLinks session employeeId p removed).guarded calendarGuard =
      deleteLinks session employeeId p removed := by
  unfold deleteLinks
  split <;> rfl

@[simp] theorem guarded_upsertLinks (p : Point) (wanted : List Assignment) :
    (upsertLinks session employeeId p wanted).guarded calendarGuard =
      upsertLinks session employeeId p wanted := by
  induction wanted with
  | nil => rfl
  | cons a wanted ih => rw [upsertLinks, Code.guarded_bind, ih, Code.guarded_modify]

@[simp] theorem guarded_assertNoneBooked (removed : List String) :
    (assertNoneBooked session employeeId removed).guarded calendarGuard =
      assertNoneBooked session employeeId removed := by
  unfold assertNoneBooked
  split
  · rfl
  simp only [Code.guarded_bind, guarded_clockNow, guarded_query]
  refine congrArg _ (funext fun instant => congrArg _ (funext fun blocking => ?_))
  cases blocking <;> rfl

@[simp] theorem guarded_listServices : (listServices session employeeId).guarded calendarGuard =
    listServices session employeeId := by
  rw [listServices, Code.guarded_bind, guarded_query]
  refine congrArg (· >>= _) ?_
  exact (Code.guarded_bind (load session employeeId) _).trans (congrArg (· >>= _) guarded_load)

theorem runs_deleteLinks {removed : List String} {Q : Unit → List Lock → (Db → Db) → Db → Prop}
    (hnone : NoneBooked organizationId r d)
    (h : ∀ d' more, pairingProtocol.Elapse held d d' → NoneBooked organizationId r d' →
      Q () (held ++ more) (fun x => { δ x with
        employeeServices := (δ x).employeeServices.filter fun link =>
          !decide (linksTo session employeeId removed link) }) d') :
    Runs pairingProtocol (deleteLinks session employeeId (.retirement organizationId r false) removed)
      Q held δ d := by
  unfold deleteLinks
  split
  next hnil =>
    subst hnil
    have hend := h d [] .refl hnone
    simp only [linksTo, List.not_mem_nil, and_false, decide_false, Bool.not_false, List.filter_true,
      List.append_nil] at hend
    exact .ret hend
  next =>
    exact wp_modify (fun _ _ _ => trivial) fun d₁ r₁ _ _ => h d₁ _ r₁.elapse (rely_noneBooked r₁ hnone)

theorem runs_upsertLinks {wanted : List Assignment} {Q : Unit → List Lock → (Db → Db) → Db → Prop}
    (hnone : NoneBooked organizationId r d)
    (h : ∀ d' more, pairingProtocol.Elapse held d d' → NoneBooked organizationId r d' →
      Q () (held ++ more) (fun x => { δ x with
        employeeServices := upsertAll session employeeId wanted (δ x).employeeServices }) d') :
    Runs pairingProtocol (upsertLinks session employeeId (.retirement organizationId r false) wanted)
      Q held δ d := by
  induction wanted generalizing held δ d with
  | nil =>
    have hend := h d [] .refl hnone
    rw [List.append_nil] at hend
    exact .ret hend
  | cons a wanted ih =>
    refine .bind (wp_modify (fun _ _ _ => trivial) fun d₁ r₁ _ _ => ?_)
    refine ih (rely_noneBooked r₁ hnone) fun d₂ more r₂ hnone₂ => ?_
    rw [List.append_assoc]
    exact h d₂ _ (r₁.elapse.trans (r₂.weaken fun _ hl => List.mem_append_left _ hl)) hnone₂

/-- What is removed was looked up, and no appointment was found. -/
theorem runs_assertNoneBooked {removed : List String} {Q : Unit → List Lock → (Db → Db) → Db → Prop}
    (h : ∀ d', NoneBooked session.organizationId (.links employeeId removed) d' → Q () [] id d') :
    Runs pairingProtocol (assertNoneBooked session employeeId removed) Q [] id d := by
  unfold assertNoneBooked
  split
  next hnil =>
    refine .ret (h d fun b _ hnames => ?_)
    rw [hnil] at hnames
    exact absurd hnames.2.2 List.not_mem_nil
  refine runs_clockPaired fun d₁ r₁ => .query fun d₂ r₂ _ => ?_
  split
  next hgroups =>
    refine .ret (h d₂ fun b hb hnames hahead => ?_)
    obtain ⟨ho, he, hs⟩ := hnames
    have hgroup := List.filter_eq_nil_iff.mp hgroups _ (List.mem_map_of_mem hs)
    have hin : b ∈ d₂.bookings.filter fun x => decide (x.organizationId = session.organizationId ∧
        x.employeeId = employeeId ∧ x.serviceId = b.serviceId ∧ x.Ahead d₁.clock) :=
      List.mem_filter.mpr ⟨hb, decide_eq_true
        ⟨ho, he, rfl, hahead.1, lt_of_le_of_lt (elapse_pairings r₂).clock hahead.2⟩⟩
    exact hgroup (decide_eq_true (List.length_pos_of_mem hin).ne')
  next => exact .fail

theorem runs_replaceServices {assignments : List Assignment} : Runs pairingProtocol
    ((replaceServices session employeeId assignments).guarded calendarGuard) (fun _ _ _ _ => True) held δ d := by
  simp only [replaceServices, Code.guarded_bind, guarded_query, guarded_assertNoneBooked, Code.guarded_select,
    Code.guarded_ensure, guarded_listServices]
  have hload : (discard (load session employeeId)).guarded calendarGuard =
      discard (load session employeeId) :=
    (Code.guarded_bind (load session employeeId) _).trans (congrArg (· >>= _) guarded_load)
  have hlist : ∀ held δ d, Runs pairingProtocol (listServices session employeeId) (fun _ _ _ _ => True)
      held δ d :=
    fun _ _ _ => .bind (.discard (runs_load fun _ _ => wp_query (fun _ _ _ => trivial) fun _ _ _ => trivial))
  rw [hload]
  refine .bind (.discard (runs_load fun d₁ _ => .query fun d₂ _ _ => ?_))
  refine .bind (runs_assertNoneBooked fun d₃ hnone => .bind (wp_select (fun _ _ _ => trivial)
    fun d₄ r₄ _ _ => .ensure fun _ => .bind (.outermost ?_)))
  simp only [Code.guarded_bind, guarded_deleteLinks, guarded_upsertLinks]
  refine .bind (runs_deleteLinks (rely_noneBooked r₄ hnone) fun d₅ _ _ hnone₅ =>
    runs_upsertLinks hnone₅ fun d₆ _ _ hnone₆ => ?_)
  intro d' r i _ hl
  exact ⟨guarantee_replacedLinks i (of_decide_eq_true hl) (rely_noneBooked r hnone₆)
    (List.mem_append_right _ (List.mem_singleton_self _)), hlist _ _ _⟩

end EmployeesService

end Retiring

section Runs

/-- Who books, who moves appointments, who retires what can be booked, and time. -/
inductive PairingOperation : Tx Unit → Prop where
  | reserve (api : Api) (input : ReserveInput) : PairingOperation (discard (BookingApp.reserve api input))
  | requestReschedule (api : Api) (input : RequestRescheduleInput) :
      PairingOperation (discard (requestByCustomer api input))
  | decideReschedule (api : Api) (input : DecideRescheduleInput) :
      PairingOperation (discard (BookingApp.decideReschedule api input))
  | archive (session : OfficeSession) (id : String) :
      PairingOperation (discard (EmployeesService.archive session id))
  | archiveService (session : OfficeSession) (id : String) :
      PairingOperation (discard (CatalogService.archiveService session id))
  | replaceServices (session : OfficeSession) (employeeId : String)
      (assignments : List EmployeesService.Assignment) :
      PairingOperation (discard (EmployeesService.replaceServices session employeeId assignments))
  | tick (milliseconds : Nat) : PairingOperation (BookingApp.tick milliseconds)

variable {d : Db}

theorem runs_discardGuarded {α : Type} {c : Tx α}
    (h : Runs pairingProtocol (c.guarded calendarGuard) (fun _ _ _ _ => True) [] id d) :
    Runs pairingProtocol ((discard c).guarded calendarGuard) (fun _ _ _ _ => True) [] id d := by
  have hmap : (discard c).guarded calendarGuard = discard (c.guarded calendarGuard) := Code.guarded_bind c _
  rw [hmap]
  exact .discard h

theorem safe_tick (milliseconds : Nat) : pairingProtocol.Safe (tick milliseconds) := by
  intro d _ d' _ i
  have hlater : d'.clock ≤ d'.clock + (milliseconds : Int) := Int.le_add_of_nonneg_right (Int.natCast_nonneg _)
  have hstaff : SameStaff d' (d'.onClock (· + (milliseconds : Int))) := ⟨rfl, rfl, rfl⟩
  refine ⟨pairing_guarantee ⟨hlater, fun _ b hb => ⟨b, hb, rfl⟩, fun _ r hr => ⟨r, hr, rfl, rfl⟩,
    fun _ s hs => ⟨s, hs, rfl⟩⟩ (i.1.onClock _) (fun b hb hahead => ?_)
    fun id _ => hstaff.pairings id, trivial⟩
  rw [hstaff.deleted]
  exact i.2 b hb ⟨hahead.1, lt_of_le_of_lt hlater hahead.2⟩

theorem PairingOperation.safe {c : Tx Unit} (h : PairingOperation c) :
    pairingProtocol.Safe (c.guarded calendarGuard) := by
  have hfits : calendarGuard.Fits pairingProtocol.toConditions := calendarGuard_fits
  cases h with
  | reserve api input => exact Safe.guarded hfits fun d _ => Runs.discard runs_reservePaired
  | requestReschedule api input => exact Safe.guarded hfits fun d _ => Runs.discard runs_requestPaired
  | decideReschedule api input => exact Safe.guarded hfits fun d _ => Runs.discard runs_decideReschedulePaired
  | archive session id => exact fun d _ => runs_discardGuarded EmployeesService.runs_archive
  | archiveService session id => exact fun d _ => runs_discardGuarded CatalogService.runs_archiveService
  | replaceServices session employeeId assignments =>
    exact fun d _ => runs_discardGuarded EmployeesService.runs_replaceServices
  | tick milliseconds => exact Safe.guarded hfits (safe_tick milliseconds)

/-- No appointment that somebody still has to keep is one of a deleted pairing, in every run in which
nobody books what is retired between the look and the commit, and nobody holds a calendar that is
concerned at the commit. -/
theorem no_deleted_pairing_ahead {d : Db} (hd : Legal d) (hkept : NoDeletedAhead d) {s : Sys store}
    (hrun : Sys.Uncontended calendarGuard PairingOperation unbookedMeanwhile { db := d } s) :
    NoDeletedAhead s.db :=
  (Sys.Uncontended.invariant (P := pairingProtocol) calendarGuard_fits (fun _ h => h.safe) ⟨hd, hkept⟩ hrun).2

deriving instance DecidableEq for Db

instance : unbookedMeanwhile.Checkable where
  assume _ _ := .isTrue trivial
  stable p d d' := match p with
    | .retirement organizationId r false =>
      inferInstanceAs (Decidable (NoneBooked organizationId r d → NoneBooked organizationId r d'))
    | .retirement _ _ true => inferInstanceAs (Decidable (d' = d))
    | .idle | .plain | .settlement _ | .totals _ _ | .approval _ | .leaving _ _ _ | .confirmation _ _
    | .failure _ | .release _ _ | .attachment _ _ | .reminder _ | .leave _ _ | .reservation _ _
    | .keyed _ _ _ _ _ | .keySweep _ => .isTrue trivial
  fault _ _ := .isTrue trivial

/-- The employee "e" performs the service "s", and nothing is booked yet. -/
def Db.unbooked : Db :=
  { Db.moving with bookings := [], bookingStatusHistory := [], payments := [], rescheduleRequests := [] }

/-- The office books an appointment. -/
def someReservation : Tx Unit :=
  discard (reserve .sample {
    serviceId := "s", employeeId := "e", startsAt := 36000000, customerId := "c", locale := .en
    actor := .OFFICE "u" })

/-- The office archives the employee. -/
def someArchiving : Tx Unit :=
  discard (EmployeesService.archive
    { officeUserId := "u", organizationId := "o", role := .OWNER, employeeId := none } "e")

/-- The appointment is booked, up to the commit. -/
def reservedFirst : List (Action store) :=
  [.start someReservation] ++ .replicate 11 (.run 0) ++
    [.answer 0 {}, .run 0, .answer 0 {}, .answer 0 { id := "b" }, .run 0, .run 0, .answer 0 { random := "t" },
      .run 0, .run 0]

/-- The client `i` archives the employee. -/
def archivedBy (i : Nat) : List (Action store) :=
  [.start someArchiving] ++ .replicate 7 (.run i)

theorem starts_someReservation : PairingOperation someReservation :=
  .reserve .sample _

theorem starts_someArchiving : PairingOperation someArchiving :=
  .archive _ "e"

/-- The employee is archived once the appointment is over. -/
theorem no_deleted_pairing_ahead_sample : ∃ s : Sys store,
    s.db.bookings.map Booking.pairing = [⟨"o", "e", "s"⟩] ∧
      s.db.employees.map Employee.archivedAt = [some 39600000] ∧ NoDeletedAhead s.db := by
  have hexec : (Sys.execUnhindered calendarGuard unbookedMeanwhile { db := Db.unbooked }
      (reservedFirst ++ [.run 0, .start (tick 39600000), .run 1] ++ archivedBy 2)).map (fun s =>
        (s.db.bookings.map Booking.pairing, s.db.employees.map Employee.archivedAt)) =
      some ([⟨"o", "e", "s"⟩], [some 39600000]) := by rfl
  obtain ⟨s, hs, he⟩ := Option.map_eq_some_iff.mp hexec
  refine ⟨s, congrArg Prod.fst he, congrArg Prod.snd he, no_deleted_pairing_ahead (d := .unbooked) (by decide)
    (by decide) (.exec (fun _ _ => trivial) .refl ?_ hs)⟩
  simp [reservedFirst, archivedBy, Sys.Starts, starts_someReservation, starts_someArchiving,
    PairingOperation.tick]

/-- The employee is archived while an appointment is being booked that was not there yet. -/
theorem archived_with_booking_ahead : ¬ ∀ (d : Db) (s : Sys store), Legal d → NoDeletedAhead d →
    Sys.Reach PairingOperation .none { db := d } s → NoDeletedAhead s.db := by
  intro h
  have hexec : (Sys.exec .none { db := Db.unbooked } (reservedFirst ++ archivedBy 1 ++ [.run 0])).map
      (fun s => decide (NoDeletedAhead s.db)) = some false := by rfl
  obtain ⟨s, hs, hlost⟩ := Option.map_eq_some_iff.mp hexec
  refine of_decide_eq_false hlost (h _ s (by decide) (by decide) (.exec (fun _ _ => trivial) .refl ?_ hs))
  simp [reservedFirst, archivedBy, Sys.Starts, starts_someReservation, starts_someArchiving]

end Runs

end BookingApp
