import BookingApp.Booking.Occupying
import BookingApp.Booking.Rejection
import BookingApp.Booking.Snapshots

/-!
# What the office is offered (`office/office-availability.controller.ts`)

The office asks for the slots of a range and books one of them for an employee it names. The list
comes from the snapshot of the range, the reservation checks the snapshot of the slot and reads the
pairing and its price for itself.
-/

set_option autoImplicit false

namespace BookingApp

open ReadCommitted Code

/-- A booking taken at the desk, for a customer that has been found or made. -/
structure CreateManualBookingRequest where
  serviceId : String
  employeeId : String
  startsAt : Int
  customerId : String
  locale : Locale
  customerNote : Option String := none
  deriving DecidableEq, Repr

/-- What `createManual` asks of the reservation. -/
def OfficeSession.manual (session : OfficeSession) (request : CreateManualBookingRequest) : ReserveInput where
  serviceId := request.serviceId
  employeeId := request.employeeId
  startsAt := request.startsAt
  customerId := request.customerId
  locale := request.locale
  customerNote := request.customerNote
  actor := .OFFICE session.officeUserId

/-- The prices are those of an `INTEGER` column. -/
structure PricesFit (d : Db) : Prop where
  services : ∀ s ∈ d.services, s.priceCents ≤ 2147483647
  overrides : ∀ link ∈ d.employeeServices, ∀ cents ∈ link.priceOverrideCents, cents ≤ 2147483647

section Checks

variable {api : Api} {s : Alone store} {input : ReserveInput} {service : Service}

theorem runAlone_lockCalendars (ids : List String) : (lockCalendars ids).runAlone s = (.ok (), s) := by
  induction ids with
  | nil => rfl
  | cons id ids ih =>
    have hlock : (readForUpdate (fun _ => [.calendar id]) fun _ => ()).runAlone s = (.ok (), s) := rfl
    exact (runAlone_bind_ok hlock).trans ih

/-- What a service costs with an employee is an amount of money. -/
theorem resolveEffectivePrice_isOk {d : Db} (hlegal : Legal d) (hfit : PricesFit d) {link : EmployeeService}
    (hservice : service ∈ d.services) (hlink : link ∈ d.employeeServices) :
    ∃ price, resolveEffectivePrice service link = .ok price := by
  have hcents : 0 ≤ link.priceOverrideCents.getD service.priceCents ∧
      link.priceOverrideCents.getD service.priceCents ≤ 2147483647 := by
    cases hoverride : link.priceOverrideCents with
    | none => exact ⟨hlegal.calendar.services_price_check service hservice, hfit.services service hservice⟩
    | some cents =>
      exact ⟨hlegal.calendar.price_override_check link hlink cents hoverride,
        hfit.overrides link hlink cents hoverride⟩
  unfold resolveEffectivePrice
  dsimp only
  rw [if_neg (by omega)]
  exact ⟨_, Money.fromCents_of_range (by omega) (by omega)⟩

/-- Whoever is offered for a service has a pairing with it, for every actor. -/
theorem findAssignment_isSome {d : Db} (hservice : offeredService api input.serviceId d = some service)
    {employeeId : Option String} (hid : input.employeeId ∈ performers api input.serviceId employeeId d) :
    ∃ link ∈ d.employeeServices, ∃ employee,
      findAssignment api input d = some (link, employee, service) := by
  obtain ⟨link, hlink, hpairing, -, e, he, honline, harchived⟩ := mem_performers.mp hid
  obtain ⟨hfound, hoffered⟩ := Option.filter_eq_some_iff.mp hservice
  obtain ⟨hfound, -⟩ := Option.filter_eq_some_iff.mp hfound
  have hsome : (d.employeeServices.find? fun link => decide (link.organizationId = api.organizationId ∧
      link.serviceId = input.serviceId ∧ link.employeeId = input.employeeId)).isSome := by
    rw [List.find?_isSome]
    exact ⟨link, hlink, decide_eq_true hpairing⟩
  obtain ⟨first, hfirst⟩ := Option.isSome_iff_exists.mp hsome
  have hkeys := List.find?_some hfirst
  rw [decide_eq_true_eq] at hkeys
  obtain ⟨-, hserviceId, hemployeeId⟩ := hkeys
  refine ⟨first, List.mem_of_find?_eq_some hfirst, e, ?_⟩
  have hemployee : (Table.find first.employeeId d.employees).filter (fun e =>
      decide (e.archivedAt = none ∧ (input.actor = .CUSTOMER → e.isBookableOnline = true))) = some e := by
    rw [hemployeeId, Option.filter_eq_some_iff]
    exact ⟨he, decide_eq_true ⟨harchived, fun _ => honline⟩⟩
  have hpaired : (Table.find first.serviceId d.services).filter (fun s => decide (s.archivedAt = none)) =
      some service := by
    rw [hserviceId, Option.filter_eq_some_iff]
    exact ⟨hfound, decide_eq_true (of_decide_eq_true hoffered).1⟩
  simp only [findAssignment, hfirst, Option.bind_eq_bind, Option.bind_some, hemployee, hpaired]
  rfl

end Checks

section Reservation

variable {api : Api} {s : Alone store} {service : Service} (session : OfficeSession)
  {request : CreateManualBookingRequest}

end Reservation

section Offers

variable {api : Api} {d : Db}

variable {answers : Nat → Answer} {refusal : Db → Failure}

/-- An employee who works on Thursdays, and is booked at ten. -/
def Db.thursday : Db :=
  { Db.sample [.sample] with
    services := [{
      id := "s", organizationId := "o", name := "Cut", durationMinutes := 60, prepBufferMinutes := 0
      cleanupBufferMinutes := 0, priceCents := 100, currency := "EUR", isBookableOnline := true }]
    employeeServices := [{ organizationId := "o", employeeId := "e", serviceId := "s" }]
    workingHours := [{
      organizationId := "o", employeeId := "e"
      hours := ⟨.THURSDAY, ⟨540, MinuteOfDay.nine_le⟩, ⟨780, MinuteOfDay.thirteen_le⟩, []⟩ }] }


theorem legal_thursday : Legal .thursday := by decide

/-- The slots of Thursday that are left. -/
def AvailabilityResult.thursday : AvailabilityResult where
  days := [{
    date := 0
    slots := [⟨32400000, 36000000, ["e"]⟩, ⟨39600000, 43200000, ["e"]⟩, ⟨41400000, 45000000, ["e"]⟩,
      ⟨43200000, 46800000, ["e"]⟩] }]
  skipped := []

/-- The owner at the desk. -/
def OfficeSession.owner : OfficeSession where
  officeUserId := "u"
  organizationId := "o"
  role := .OWNER
  employeeId := none

/-- Eleven on Thursday. -/
def CreateManualBookingRequest.eleven : CreateManualBookingRequest where
  serviceId := "s"
  employeeId := "e"
  startsAt := 39600000
  customerId := "c"
  locale := .en

theorem lists_thursday : AvailabilityResult.thursday.Lists 0 "e" 39600000 :=
  ⟨_, List.mem_singleton_self _, rfl, _, List.mem_cons_of_mem _ List.mem_cons_self, rfl,
    List.mem_singleton_self _⟩

end Offers

end BookingApp
