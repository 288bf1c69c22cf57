import BookingApp.Booking.Reschedule
import BookingApp.Booking.Selection
import BookingApp.Booking.Snapshots
import BookingApp.ReadCommitted.Raises

/-!
# What a customer is offered for a move (`manage/manage.controller.ts`)

The customer of a booking asks for the slots of its service and requests one of them. The list is of
the service as it is, the request is checked for the appointment as it was sold, so that they agree
where the appointment takes no more time than the service does.
-/

set_option autoImplicit false

namespace BookingApp

open ReadCommitted

section Model

/-- What a management token stands for. -/
structure ResolvedToken where
  bookingId : String
  organizationId : String
  deriving DecidableEq, Repr

/-- The booking that a token points at, in the organization of the token. -/
def loadManaged (managed : ResolvedToken) : Tx Booking := do
  match ← read fun d => findIn Booking.organizationId managed.organizationId managed.bookingId d.bookings with
  | none => throw bookingNotFound
  | some booking => return booking

/-- `GET /manage/availability` -/
def manageAvailability (api : Api) (managed : ResolvedToken) (first last : Int) : Tx AvailabilityResult := do
  let booking ← loadManaged managed
  let snapshot ← load api { serviceId := booking.serviceId, first, last }
  ofExcept ((generateAvailability snapshot first last).mapError Failure.error)

/-- The minutes that an appointment takes. -/
structure BookingDimensions where
  durationMinutes : Int
  prepBufferMinutes : Int
  cleanupBufferMinutes : Int
  deriving DecidableEq, Repr

/-- The dimensions of a service. -/
def AvailabilityServiceSnapshot.dimensions (service : AvailabilityServiceSnapshot) : BookingDimensions where
  durationMinutes := service.durationMinutes
  prepBufferMinutes := service.prepBufferMinutes
  cleanupBufferMinutes := service.cleanupBufferMinutes

/-- A service with these dimensions. -/
def BookingDimensions.service (dimensions : BookingDimensions) (id : String) : AvailabilityServiceSnapshot where
  id
  durationMinutes := dimensions.durationMinutes
  prepBufferMinutes := dimensions.prepBufferMinutes
  cleanupBufferMinutes := dimensions.cleanupBufferMinutes

end Model

open Code

/-- The error of a slot that cannot be had. -/
def Failure.isSlotUnavailable : Failure → Bool
  | .app e => e.code == "SLOT_UNAVAILABLE"
  | _ => false

/-- What takes the first dimensions fits wherever what takes the second does. -/
structure BookingDimensions.Within (sold current : BookingDimensions) : Prop where
  prep : sold.prepBufferMinutes ≤ current.prepBufferMinutes
  rest : sold.durationMinutes + sold.cleanupBufferMinutes ≤
    current.durationMinutes + current.cleanupBufferMinutes

/-- Every offer for a move is honoured, of appointments that were sold with the first dimensions,
while the service has the second. -/
def MovesHonoured (sold current : BookingDimensions) : Prop :=
  ∀ (api : Api) (d : Db) (answers answers' : Nat → Answer) (refusal refusal' : Db → Failure)
    (managed : ResolvedToken) (first last : Int) (result : AvailabilityResult) (a : Alone store)
    (booking : Booking) (service : Service) (date : Int) (id : String) (input : RequestRescheduleInput),
    Legal d → managed.organizationId = api.organizationId →
    findIn Booking.organizationId api.organizationId managed.bookingId d.bookings = some booking →
    booking.status = .CONFIRMED → (answers 0).now < booking.startsAt →
    (∀ r ∈ d.rescheduleRequests, r.bookingId = booking.id → r.decision ≠ .PENDING) →
    booking.sold.dimensions = sold → offeredService api booking.serviceId d = some service →
    service.snapshot.dimensions = current →
    (manageAvailability api managed first last).runAlone { answers, refusal, db := d } = (.ok result, a) →
    result.Lists date id input.requestedStartsAt → input.bookingId = managed.bookingId →
    input.requestedEmployeeId.getD booking.employeeId = id →
    input.requestedStartsAt ≤ (answers 0).now + api.settings.availability.bookingHorizonDays * 86400000 →
    (∀ n, (answers' n).now = (answers 0).now) → (∀ d, (refusal' d).isSlotUnavailable = false) →
    ∀ e s, (requestByCustomer api input).runAlone { answers := answers', refusal := refusal', db := d } =
      (.error e, s) → e.isSlotUnavailable = false

section Fits

variable {s : AvailabilitySnapshot} {employee : EmployeeSnapshot} {date t : Int}

/-- Where a block can be offered, one that lies in it can. -/
theorem Offerable.within (h : Offerable s employee date t) {service : AvailabilityServiceSnapshot}
    (hfrom : (s.service.block t).start ≤ (service.block t).start)
    (hto : (service.block t).stop ≤ (s.service.block t).stop) :
    Offerable { s with service } employee date t := by
  have hsubset : (service.block t).toSet ⊆ (s.service.block t).toSet :=
    fun u hu => ⟨hfrom.trans hu.1, hu.2.trans_le hto⟩
  have hclear {taken : Set Int} (hfree : (s.service.block t).toSet ∩ taken = ∅) :
      (service.block t).toSet ∩ taken = ∅ :=
    Set.subset_eq_empty (Set.inter_subset_inter_left taken hsubset) hfree
  obtain ⟨segment, hsegment, ⟨start, stop, hstart, hstop, hafter, hbefore⟩, hbreaks, hgrid⟩ := h.segment
  refine ⟨h.open_, h.present, ⟨segment, hsegment, ?_, fun rest hrest => ?_, hgrid⟩, h.notice,
    fun busy hbusy => hclear (h.free busy hbusy)⟩
  · exact ⟨start, stop, hstart, hstop, hafter.trans hfrom, hto.trans hbefore⟩
  · obtain ⟨a, b, ha, hb, hfree⟩ := hbreaks rest hrest
    exact ⟨a, b, ha, hb, hclear hfree⟩

/-- The dates of a list are those of the horizon. -/
theorem horizon_of_lists {first last : Int} {result : AvailabilityResult}
    (h : generateAvailability s first last = .ok result) {id : String} (hlists : result.Lists date id t) :
    s.today ≤ date ∧ date ≤ s.horizonEnd :=
  (bounds_of_mem_listedDates ((lists_iff_canStart h).mp hlists).1).2

end Fits

section Requests

variable {api : Api} {s s' : Alone store} {booking : Booking} {service : Service}

theorem runAlone_loadManaged {managed : ResolvedToken}
    (h : findIn Booking.organizationId managed.organizationId managed.bookingId s.view.bookings = some booking) :
    (loadManaged managed).runAlone s = (.ok booking, s) := by
  unfold loadManaged
  rw [runAlone_bind_ok (runAlone_read ..), h]
  rfl

theorem runAlone_loadCancellable {bookingId : String}
    (h : findIn Booking.organizationId api.organizationId bookingId s.view.bookings = some booking) :
    (loadCancellable api bookingId).runAlone s = (.ok booking, s) := by
  unfold loadCancellable
  rw [runAlone_bind_ok (runAlone_read ..), h]
  rfl

theorem runAlone_assertReschedulable (hstatus : booking.status = .CONFIRMED)
    (hahead : (s.answers 0).now < booking.startsAt) :
    (assertReschedulable booking).runAlone s = (.ok (), s.next) := by
  have hnow : now.runAlone s = (.ok (s.answers 0).now, s.next) := rfl
  unfold assertReschedulable
  rw [runAlone_bind_ok (runAlone_ensure_of hstatus _ _), runAlone_bind_ok hnow]
  exact runAlone_ensure_of hahead _ _

theorem runAlone_withinWindow {startsAt : Int} (message : String)
    (hnotice : (s.answers 0).now + api.settings.availability.minimumNoticeHours * 3600000 ≤ startsAt)
    (hhorizon : startsAt ≤ (s.answers 0).now + api.settings.availability.bookingHorizonDays * 86400000) :
    (assertWithinWindow api startsAt message).runAlone s = (.ok (), s.next) := by
  have hnow : now.runAlone s = (.ok (s.answers 0).now, s.next) := rfl
  unfold assertWithinWindow
  rw [runAlone_bind_ok hnow]
  exact runAlone_ensure_of ⟨hnotice, hhorizon⟩ _ _

/-- The check of a request is the one of the slot, for the appointment as it was sold. -/
theorem runAlone_assertPlausible (hservice : offeredService api booking.serviceId s.view = some service) {id : String}
    (hid : id ∈ performers api booking.serviceId none s.view) (startsAt : Int) {bookable : Bool}
    (h : isSlotBookable (asSoldSnapshot (snapshotIn api (slotWindow api startsAt) s.view (s.answers 0).now service
      [id]) booking) id startsAt = .ok bookable) :
    (assertPlausible api booking id startsAt).runAlone s =
      (if bookable then .ok () else .error (slotUnavailable "That slot is not available."), s.next) := by
  unfold assertPlausible assertSlotBookable
  rw [runAlone_bind_ok (runAlone_loadForSlot hservice hid startsAt)]
  have hanswer : (ofExcept ((isSlotBookable (asSoldSnapshot (snapshotIn api (slotWindow api startsAt) s.view
      (s.answers 0).now service [id]) booking) id startsAt).mapError Failure.error)).runAlone s.next =
      (.ok bookable, s.next) := by
    rw [h]
    rfl
  rw [runAlone_bind_ok hanswer]
  cases bookable <;> rfl

theorem raises_now : now.Raises fun e : Failure => e.isSlotUnavailable = false := fun _ => trivial

/-- Nothing after the check finds the slot taken. -/
theorem raises_assertReschedulable (booking : Booking) :
    (assertReschedulable booking).Raises fun e : Failure => e.isSlotUnavailable = false := by
  refine Raises.bind (raises_ensure (S := store) rfl) fun _ => ?_
  exact raises_now.bind fun _ => raises_ensure (S := store) rfl

theorem raises_openRescheduleOnce (booking : Booking) (input : RequestRescheduleInput) :
    (openRescheduleOnce booking input).Raises fun e : Failure => e.isSlotUnavailable = false := by
  refine Raises.bind (raises_statement ..) fun found => ?_
  cases found with
  | none => rfl
  | some locked =>
    refine (raises_assertReschedulable locked).bind fun _ => Raises.bind (fun _ => trivial) fun id => ?_
    exact Raises.bind (raises_statement ..) fun _ => trivial

variable {input : RequestRescheduleInput} {id : String}

/-- A request within the window goes as its check does. -/
theorem runAlone_requestByCustomer
    (hfound : findIn Booking.organizationId api.organizationId input.bookingId s.view.bookings = some booking)
    (hstatus : booking.status = .CONFIRMED) (hnow : ∀ n, (s.answers n).now = (s.answers 0).now)
    (hahead : (s.answers 0).now < booking.startsAt)
    (hnotice : (s.answers 0).now + api.settings.availability.minimumNoticeHours * 3600000 ≤ input.requestedStartsAt)
    (hhorizon : input.requestedStartsAt ≤
      (s.answers 0).now + api.settings.availability.bookingHorizonDays * 86400000)
    (hservice : offeredService api booking.serviceId s.view = some service)
    (hemployee : input.requestedEmployeeId.getD booking.employeeId = id)
    (hid : id ∈ performers api booking.serviceId none s.view)
    (hrefusal : ∀ d, (s.refusal d).isSlotUnavailable = false) {bookable : Bool}
    (h : isSlotBookable (asSoldSnapshot (snapshotIn api (slotWindow api input.requestedStartsAt) s.view
      (s.answers 0).now service [id]) booking) id input.requestedStartsAt = .ok bookable) :
    (bookable = false → ∃ e s', (requestByCustomer api input).runAlone s = (.error e, s') ∧
      e.isSlotUnavailable = true) ∧
    (bookable = true → ∀ e s', (requestByCustomer api input).runAlone s = (.error e, s') →
      e.isSlotUnavailable = false) := by
  have hnext : (s.next.answers 0).now = (s.answers 0).now := hnow 1
  have hlater : (s.next.next.answers 0).now = (s.answers 0).now := hnow 2
  have hwindow (message : String) : (assertWithinWindow api input.requestedStartsAt message).runAlone s.next =
      (.ok (), s.next.next) :=
    runAlone_withinWindow message (hnext ▸ hnotice) (hnext ▸ hhorizon)
  have hcheck := @runAlone_assertPlausible api s.next.next booking service hservice id hid input.requestedStartsAt
    bookable (by rw [hlater]; exact h)
  unfold requestByCustomer
  rw [runAlone_bind_ok (runAlone_loadCancellable hfound),
    runAlone_bind_ok (runAlone_assertReschedulable hstatus hahead)]
  dsimp only
  rw [runAlone_bind_ok (hwindow _), hemployee]
  constructor
  · rintro rfl
    exact ⟨_, _, runAlone_bind_error hcheck, rfl⟩
  · rintro rfl e s' hrun
    rw [runAlone_bind_ok hcheck] at hrun
    refine Raises.runAlone (P := fun e : Failure => e.isSlotUnavailable = false) ?_ hrefusal hrun
    refine raises_tryCatch (.withRetry (fun _ => .transactionBy (raises_openRescheduleOnce booking input)) _)
      fun e he => ?_
    split
    · rfl
    · exact he

end Requests

section Honoured

variable {sold current : BookingDimensions}

/-- An appointment that takes no more than the service does is moved wherever the list says. -/
theorem movesHonoured_of_within (hvalid : ∀ id, (sold.service id).Valid) (h : sold.Within current) :
    MovesHonoured sold current := by
  intro api d answers answers' refusal refusal' managed first last result a booking service date id input hlegal
    horganization hfound hstatus hahead _ hsold hservice hcurrent hoffers hlists hmanaged hemployee hhorizon hnow
    hrefusal
  obtain ⟨s, hs⟩ : ∃ s : Alone store, s = { answers, refusal, db := d } := ⟨_, rfl⟩
  have hview : s.view = d := by rw [hs]; rfl
  have hanswers : s.answers = answers := by rw [hs]
  -- the list is the one of the snapshot of the range
  obtain ⟨b, s₁, hb, hoffers⟩ := runAlone_bind_eq_ok.mp hoffers
  have hmanage := @runAlone_loadManaged s booking managed (by rw [hview, horganization]; exact hfound)
  rw [← hs, hmanage] at hb
  obtain ⟨rfl, rfl⟩ : booking = b ∧ s = s₁ := ⟨Except.ok.inj (congrArg Prod.fst hb), congrArg Prod.snd hb⟩
  obtain ⟨snapshot, s₂, hload, hgenerate⟩ := runAlone_bind_eq_ok.mp hoffers
  have hresult : generateAvailability snapshot first last = .ok result := by
    rw [runAlone_ofExcept] at hgenerate
    cases hout : generateAvailability snapshot first last with
    | error e =>
      rw [hout] at hgenerate
      cases hgenerate
    | ok out =>
      rw [hout] at hgenerate
      cases hgenerate
      rfl
  have hhorizon' := horizon_of_lists hresult hlists
  have hsame : { snapshot with settings := snapshot.settings } = snapshot := rfl
  rw [← hsame] at hresult
  obtain ⟨offered, hoffered, hid, hoffer, -⟩ := bookable_of_load (hview ▸ hlegal) hload hresult hlists
  rw [load_settings hload] at hoffer
  obtain rfl : service = offered := Option.some.inj ((hview ▸ hservice).symm.trans hoffered)
  -- what is asked for is checked in the snapshot of the slot
  obtain ⟨_, -, -, hsnapshot⟩ := load_snapshot hload
  obtain ⟨slot, hslot⟩ : ∃ slot, slot = snapshotIn api (slotWindow api input.requestedStartsAt) s.view
      (s.answers 0).now service [id] := ⟨_, rfl⟩
  have htoday : snapshot.today = slot.today ∧ snapshot.horizonEnd = slot.horizonEnd := by
    rw [hsnapshot, hslot]
    split <;> exact ⟨rfl, rfl⟩
  rw [htoday.1, htoday.2] at hhorizon'
  have hfits : Offerable (asSoldSnapshot slot booking) (employeeIn api (slotWindow api input.requestedStartsAt)
      s.view id) date input.requestedStartsAt := by
    have hprep := h.prep
    have hrest := h.rest
    rw [← hsold, ← hcurrent] at hprep hrest
    rw [hslot]
    refine hoffer.within ?_ ?_
    · change input.requestedStartsAt - service.prepBufferMinutes * 60000 ≤
        input.requestedStartsAt - booking.prepBufferMinutesSnapshot * 60000
      change booking.prepBufferMinutesSnapshot ≤ service.prepBufferMinutes at hprep
      omega
    · change input.requestedStartsAt + booking.durationMinutesSnapshot * 60000 +
          booking.cleanupBufferMinutesSnapshot * 60000 ≤
        input.requestedStartsAt + service.durationMinutes * 60000 + service.cleanupBufferMinutes * 60000
      change booking.durationMinutesSnapshot + booking.cleanupBufferMinutesSnapshot ≤
        service.durationMinutes + service.cleanupBufferMinutes at hrest
      omega
  have hbookable : isSlotBookable (asSoldSnapshot slot booking) id input.requestedStartsAt = .ok true := by
    refine isSlotBookable_of_offerable ?_ ?_ hhorizon'.1 hhorizon'.2 hfits
    · rw [← hsold] at hvalid
      exact hvalid _
    · rw [hslot]
      exact find_employeeIn (List.mem_singleton_self _)
  have hnotice : (answers 0).now + api.settings.availability.minimumNoticeHours * 3600000 ≤
      input.requestedStartsAt := hanswers ▸ hoffer.notice
  have hrequest := @runAlone_requestByCustomer api { answers := answers', refusal := refusal', db := d } booking service
    input id (hmanaged ▸ hfound) hstatus (fun n => (hnow n).trans (hnow 0).symm) (hnow 0 ▸ hahead) (hnow 0 ▸ hnotice)
    (hnow 0 ▸ hhorizon) hservice hemployee (hview ▸ hid) hrefusal true
  rw [hslot, hview, hanswers, ← hnow 0] at hbookable
  exact (hrequest hbookable).2 rfl

/-- A booking for the day after the next but one, as it was sold. -/
def Booking.soldWith (sold : BookingDimensions) : Booking :=
  { Booking.sample with
    startsAt := 475200000
    endsAt := 475200000 + sold.durationMinutes * 60000
    blockStartsAt := 475200000 - sold.prepBufferMinutes * 60000
    blockEndsAt := 475200000 + sold.durationMinutes * 60000 + sold.cleanupBufferMinutes * 60000
    durationMinutesSnapshot := sold.durationMinutes
    prepBufferMinutesSnapshot := sold.prepBufferMinutes
    cleanupBufferMinutesSnapshot := sold.cleanupBufferMinutes }

/-- The service as it is. -/
def Service.sampleWith (current : BookingDimensions) : Service where
  id := "s"
  organizationId := "o"
  name := "Cut"
  durationMinutes := current.durationMinutes
  prepBufferMinutes := current.prepBufferMinutes
  cleanupBufferMinutes := current.cleanupBufferMinutes
  priceCents := 100
  currency := "EUR"
  isBookableOnline := true

/-- An employee who works all Friday, but for a minute that is blocked. -/
def Db.aroundNoon (sold current : BookingDimensions) (blocked : Int) : Db :=
  { Db.sample [.soldWith sold] with
    services := [.sampleWith current]
    employeeServices := [{ organizationId := "o", employeeId := "e", serviceId := "s" }]
    workingHours := [{
      organizationId := "o", employeeId := "e", hours := ⟨.FRIDAY, ⟨0, MinuteOfDay.midnight_le⟩, ⟨1440, by omega⟩, []⟩ }]
    blockedTimes := [{
      id := "x", organizationId := "o", employeeId := "e", startsAt := blocked, endsAt := blocked + 60000
      createdByOfficeUserId := "u" }] }

theorem legal_aroundNoon (hsold : (sold.service "").Valid) (hcurrent : (current.service "").Valid) (blocked : Int) :
    Legal (.aroundNoon sold current blocked) := by
  obtain ⟨hduration, hprep, hcleanup⟩ := hsold
  obtain ⟨hduration', hprep', hcleanup'⟩ := hcurrent
  simp only [BookingDimensions.service] at hduration hprep hcleanup hduration' hprep' hcleanup'
  refine ⟨(bookingsLegal_iff _).mpr ?_, (paymentsLegal_iff _).mpr ?_, (refundsLegal_iff _).mpr ?_,
    (requestsLegal_iff _).mpr ?_, (calendarLegal_iff _).mpr ?_⟩ <;>
    simp [Db.aroundNoon, Db.sample, Booking.soldWith, Booking.sample, Service.sampleWith]
  · omega
  · omega

/-- What Friday's window shows of the employee. -/
def EmployeeSnapshot.aroundNoon (sold current : BookingDimensions) (blocked : Int) : EmployeeSnapshot :=
  employeeIn .sample ⟨0, 259200000⟩ (.aroundNoon sold current blocked) "e"

theorem mem_busy_aroundNoon {blocked : Int} {i : Interval}
    (h : i ∈ (EmployeeSnapshot.aroundNoon sold current blocked).busy) :
    i.start = 475200000 - sold.prepBufferMinutes * 60000 ∨ i = ⟨blocked, blocked + 60000⟩ := by
  simp only [EmployeeSnapshot.aroundNoon, employeeIn, List.mem_append, List.mem_map] at h
  rcases h with ⟨b, hb, rfl⟩ | ⟨x, hx, rfl⟩
  · obtain rfl := List.mem_singleton.mp (List.mem_filter.mp hb).1
    exact Or.inl rfl
  · obtain rfl := List.mem_singleton.mp (List.mem_filter.mp hx).1
    exact Or.inr rfl

/-- Noon is offered for the service as it is, if the blocked minute is not within its block. -/
theorem offerable_noon (hsold : (sold.service "").Valid) (hcurrent : (current.service "").Valid) {blocked : Int}
    (hclear : blocked + 60000 ≤ 129600000 - current.prepBufferMinutes * 60000 ∨
      129600000 + current.durationMinutes * 60000 + current.cleanupBufferMinutes * 60000 ≤ blocked) :
    Offerable (snapshotIn .sample ⟨0, 259200000⟩ (.aroundNoon sold current blocked) 0 (.sampleWith current) ["e"])
      (.aroundNoon sold current blocked) 1 129600000 := by
  obtain ⟨-, ⟨-, hprep⟩, -⟩ := hsold
  obtain ⟨⟨hduration', hduration⟩, ⟨hprep₀, hprep'⟩, ⟨hcleanup₀, hcleanup'⟩⟩ := hcurrent
  simp only [BookingDimensions.service] at hprep hduration hduration' hprep₀ hprep' hcleanup₀ hcleanup'
  have hblock : (Service.sampleWith current).snapshot.block 129600000 =
      ⟨129600000 - current.prepBufferMinutes * 60000,
        129600000 + current.durationMinutes * 60000 + current.cleanupBufferMinutes * 60000⟩ := rfl
  have hstart : Placed .utc 1 ⟨0, Nat.zero_le _⟩ 86400000 := wallClockToInstant_ok_iff.mp rfl
  have hnoon : Placed .utc 1 ⟨720, Nat.le_add_right 720 720⟩ 129600000 := wallClockToInstant_ok_iff.mp rfl
  have hstop : Placed .utc 1 ⟨1440, le_rfl⟩ 172800000 := wallClockToInstant_ok_iff.mp rfl
  refine ⟨List.not_mem_nil, List.not_mem_nil, ⟨⟨⟨0, Nat.zero_le _⟩, ⟨1440, le_rfl⟩, []⟩, ?_, ?_⟩, ?_, ?_⟩
  · exact List.mem_singleton_self _
  · refine ⟨⟨86400000, 172800000, hstart, hstop, ?_, ?_⟩, fun _ hrest => (by cases hrest), ?_, 24, ⟨720, _⟩, rfl,
      Nat.le_add_right 720 720, hnoon⟩
    · change 86400000 ≤ 129600000 - current.prepBufferMinutes * 60000
      omega
    · change 129600000 + current.durationMinutes * 60000 + current.cleanupBufferMinutes * 60000 ≤ 172800000
      omega
    · exact show (0 : Int) < 30 by decide
  · exact show (0 : Int) + 0 * 3600000 ≤ 129600000 by decide
  · intro busy hbusy
    change ((Service.sampleWith current).snapshot.block 129600000).toSet ∩ busy.toSet = ∅
    rw [← Interval.overlaps_eq_false_iff, ← Bool.not_eq_true, Interval.overlaps_iff, hblock]
    dsimp only
    rcases mem_busy_aroundNoon hbusy with hstart | rfl
    · omega
    · dsimp only
      omega

/-- Noon cannot be had for the appointment as it was sold, if the minute is within its block. -/
theorem not_bookable_noon (hsold : (sold.service "").Valid) {blocked : Int}
    (hwithin : 129600000 - sold.prepBufferMinutes * 60000 < blocked + 60000 ∧
      blocked < 129600000 + sold.durationMinutes * 60000 + sold.cleanupBufferMinutes * 60000) :
    isSlotBookable (asSoldSnapshot (snapshotIn .sample ⟨0, 259200000⟩ (.aroundNoon sold current blocked) 0
      (.sampleWith current) ["e"]) (.soldWith sold)) "e" 129600000 = .ok false := by
  obtain ⟨bookable, hbookable⟩ := isSlotBookable_isOk (s := asSoldSnapshot (snapshotIn .sample ⟨0, 259200000⟩
    (.aroundNoon sold current blocked) 0 (.sampleWith current) ["e"]) (.soldWith sold))
    (show (0 : Int) < 30 by decide) "e" 129600000
  cases bookable with
  | false => exact hbookable
  | true =>
    have hprep : sold.prepBufferMinutes ≤ 120 := hsold.prep.2
    have hduration : sold.durationMinutes ≤ 480 := hsold.duration.2
    have hcleanup : sold.cleanupBufferMinutes ≤ 120 := hsold.cleanup.2
    have hvalid : (asSoldSnapshot (snapshotIn .sample ⟨0, 259200000⟩ (.aroundNoon sold current blocked) 0
        (.sampleWith current) ["e"]) (.soldWith sold)).service.Valid :=
      ⟨hsold.duration, hsold.prep, hsold.cleanup⟩
    obtain ⟨e, hfind, hoffer⟩ := offerable_of_isSlotBookable hvalid hbookable
    obtain rfl : EmployeeSnapshot.aroundNoon sold current blocked = e := Option.some.inj hfind
    have hbusy : ⟨blocked, blocked + 60000⟩ ∈ (EmployeeSnapshot.aroundNoon sold current blocked).busy := by
      refine List.mem_append_right _ (List.mem_map.mpr ⟨_, List.mem_filter.mpr ⟨List.mem_singleton_self _, ?_⟩, rfl⟩)
      exact decide_eq_true ⟨rfl, rfl, by dsimp only; omega, by dsimp only; omega⟩
    have hfree := hoffer.free _ hbusy
    rw [← Interval.overlaps_eq_false_iff, ← Bool.not_eq_true, Interval.overlaps_iff] at hfree
    exact absurd ⟨hvalid.block_lt _, Int.lt_add_of_pos_right _ (by omega), hwithin⟩ hfree

/-- The list for Friday has noon, for the service as it is. -/
theorem lists_noon (hsold : (sold.service "").Valid) (hcurrent : (current.service "").Valid) {blocked : Int}
    (hclear : blocked + 60000 ≤ 129600000 - current.prepBufferMinutes * 60000 ∨
      129600000 + current.durationMinutes * 60000 + current.cleanupBufferMinutes * 60000 ≤ blocked) :
    ∃ result a, (manageAvailability .sample ⟨"b", "o"⟩ 1 1).runAlone
      { answers := fun _ => {}, refusal := fun _ => recordNotFound, db := .aroundNoon sold current blocked } =
        (.ok result, a) ∧ result.Lists 1 "e" 129600000 := by
  let start : Alone store := {
    answers := fun _ => {}, refusal := fun _ => recordNotFound, db := .aroundNoon sold current blocked }
  have hvalid : (Service.sampleWith current).snapshot.Valid := ⟨hcurrent.duration, hcurrent.prep, hcurrent.cleanup⟩
  have hservice : offeredService .sample "s" start.view = some (.sampleWith current) := rfl
  obtain ⟨snapshot, a, hload⟩ : ∃ snapshot a, (load .sample { serviceId := "s", first := 1, last := 1 }).runAlone
      start = (.ok snapshot, a) := runAlone_load hservice rfl (Nat.le_of_ble_eq_true rfl)
  obtain ⟨service, hfound, -, hsnapshot⟩ := load_snapshot hload
  obtain rfl : Service.sampleWith current = service := Option.some.inj (hservice.symm.trans hfound)
  have hwhole : snapshot = snapshotIn .sample ⟨0, 259200000⟩ (.aroundNoon sold current blocked) 0
      (.sampleWith current) ["e"] := hsnapshot
  obtain ⟨result, hresult⟩ := generateAvailability_isOk (s := snapshot) (hwhole ▸ show (0 : Int) < 30 by decide) 1 1
  refine ⟨result, a, ?_, ?_⟩
  · have hmanaged : (loadManaged ⟨"b", "o"⟩).runAlone start = (.ok (.soldWith sold), start) := runAlone_loadManaged rfl
    have hlist : (load .sample { serviceId := (Booking.soldWith sold).serviceId, first := 1, last := 1 }).runAlone
        start = (.ok snapshot, a) := hload
    unfold manageAvailability
    rw [runAlone_bind_ok hmanaged, runAlone_bind_ok hlist, runAlone_ofExcept, hresult]
    rfl
  · refine (lists_iff_canStart hresult).mpr ⟨?_, .aroundNoon sold current blocked, ?_, rfl, ?_⟩
    · rw [show snapshot.listedDates 1 1 = [1] by rw [hwhole]; rfl]
      exact List.mem_singleton_self _
    · rw [hwhole]
      exact List.mem_singleton_self _
    · have hoffer := offerable_noon hsold hcurrent hclear
      rw [← hwhole] at hoffer
      obtain ⟨-, -, -, -, hinterval, -⟩ := hoffer.segment
      obtain ⟨out, hout⟩ : ∃ out, employeeSlotsFor snapshot (.aroundNoon sold current blocked) 1
          snapshot.earliestStart = .ok out := employeeSlotsFor_isOk hinterval _
      refine ⟨hoffer.open_, out, hout, (mem_employeeSlotsFor ?_ hoffer.open_ hout).mpr hoffer⟩
      rw [hwhole]
      exact hvalid

/-- An appointment that takes more than the service does can be offered what it is then refused. -/
theorem within_of_movesHonoured (hsold : (sold.service "").Valid) (hcurrent : (current.service "").Valid)
    (h : MovesHonoured sold current) : sold.Within current := by
  have hprep : sold.prepBufferMinutes ≤ 120 := hsold.prep.2
  have hprep₀ : 0 ≤ sold.prepBufferMinutes := hsold.prep.1
  have hduration : 5 ≤ sold.durationMinutes := hsold.duration.1
  have hcleanup : 0 ≤ sold.cleanupBufferMinutes := hsold.cleanup.1
  have hprep' : 0 ≤ current.prepBufferMinutes := hcurrent.prep.1
  have hduration' : 5 ≤ current.durationMinutes := hcurrent.duration.1
  have hcleanup' : 0 ≤ current.cleanupBufferMinutes := hcurrent.cleanup.1
  by_contra hnot
  obtain ⟨blocked, hclear, hwithin⟩ : ∃ blocked : Int,
      (blocked + 60000 ≤ 129600000 - current.prepBufferMinutes * 60000 ∨
        129600000 + current.durationMinutes * 60000 + current.cleanupBufferMinutes * 60000 ≤ blocked) ∧
      129600000 - sold.prepBufferMinutes * 60000 < blocked + 60000 ∧
        blocked < 129600000 + sold.durationMinutes * 60000 + sold.cleanupBufferMinutes * 60000 := by
    by_cases hbefore : sold.prepBufferMinutes ≤ current.prepBufferMinutes
    · -- the minute after the service's block
      have hafter : current.durationMinutes + current.cleanupBufferMinutes <
          sold.durationMinutes + sold.cleanupBufferMinutes := not_le.mp fun hrest => hnot ⟨hbefore, hrest⟩
      refine ⟨129600000 + current.durationMinutes * 60000 + current.cleanupBufferMinutes * 60000, Or.inr le_rfl, ?_⟩
      omega
    · -- the minute before it
      refine ⟨129600000 - current.prepBufferMinutes * 60000 - 60000, Or.inl (by omega), ?_⟩
      omega
  obtain ⟨result, a, hoffers, hlists⟩ := lists_noon hsold hcurrent hclear
  have hunavailable : isSlotBookable (asSoldSnapshot (snapshotIn .sample ⟨0, 259200000⟩
      (.aroundNoon sold current blocked) 0 (.sampleWith current) ["e"]) (.soldWith sold)) "e" 129600000 = .ok false :=
    not_bookable_noon hsold hwithin
  let start : Alone store := {
    answers := fun _ => {}, refusal := fun _ => recordNotFound, db := .aroundNoon sold current blocked }
  let input : RequestRescheduleInput := { bookingId := "b", requestedStartsAt := 129600000 }
  have hid : "e" ∈ performers .sample "s" none start.view := List.mem_singleton_self _
  have hahead : (0 : Int) < 475200000 := by omega
  have hnotice : (0 : Int) + 0 * 3600000 ≤ 129600000 := by omega
  have hhorizon : (129600000 : Int) ≤ 0 + 30 * 86400000 := by omega
  obtain ⟨e, s, hrefused, hslot⟩ := (@runAlone_requestByCustomer .sample start (.soldWith sold) (.sampleWith current)
    input "e" rfl rfl (fun _ => rfl) hahead hnotice hhorizon rfl rfl hid (fun _ => rfl) false hunavailable).1 rfl
  have hhonoured := h .sample (.aroundNoon sold current blocked) (fun _ => {}) (fun _ => {}) (fun _ => recordNotFound)
    (fun _ => recordNotFound) ⟨"b", "o"⟩ 1 1 result a (.soldWith sold) (.sampleWith current) 1 "e" input
    (legal_aroundNoon hsold hcurrent blocked) rfl rfl rfl hahead (fun _ hr => (by cases hr)) rfl rfl rfl hoffers
    hlists rfl rfl hhorizon (fun _ => rfl) (fun _ => rfl) e s hrefused
  rw [hslot] at hhonoured
  cases hhonoured

/-- Every offer for a move is honoured just if the appointment takes no more than the service does,
before its start and from then on. -/
theorem moves_honoured_iff (hsold : (sold.service "").Valid) (hcurrent : (current.service "").Valid) :
    MovesHonoured sold current ↔ sold.Within current :=
  ⟨within_of_movesHonoured hsold hcurrent, movesHonoured_of_within fun _ => ⟨hsold.duration, hsold.prep, hsold.cleanup⟩⟩

theorem moves_honoured_shorter : MovesHonoured ⟨30, 0, 0⟩ ⟨45, 0, 15⟩ :=
  (moves_honoured_iff ⟨by decide, by decide, by decide⟩ ⟨by decide, by decide, by decide⟩).mpr ⟨by decide, by decide⟩

/-- A service that was cut from an hour to half an hour is offered at noon, and the appointment of an
hour cannot be moved there. -/
theorem shortened_service_refused : Legal (.aroundNoon ⟨60, 0, 0⟩ ⟨30, 0, 0⟩ 131400000) ∧
    (∃ result a, (manageAvailability .sample ⟨"b", "o"⟩ 1 1).runAlone
      { answers := fun _ => {}, refusal := fun _ => recordNotFound
        db := .aroundNoon ⟨60, 0, 0⟩ ⟨30, 0, 0⟩ 131400000 } = (.ok result, a) ∧ result.Lists 1 "e" 129600000) ∧
    ∃ s, (requestByCustomer .sample { bookingId := "b", requestedStartsAt := 129600000 }).runAlone
      { answers := fun _ => {}, refusal := fun _ => recordNotFound
        db := .aroundNoon ⟨60, 0, 0⟩ ⟨30, 0, 0⟩ 131400000 } =
        (.error (slotUnavailable "That slot is not available."), s) :=
  ⟨by decide, lists_noon ⟨by decide, by decide, by decide⟩ ⟨by decide, by decide, by decide⟩ (Or.inr (by decide)),
    _, rfl⟩

end Honoured

end BookingApp
