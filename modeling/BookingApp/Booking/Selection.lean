import Mathlib.Data.List.MinMax
import Mathlib.Data.Prod.Lex
import BookingApp.Booking.Leave
import BookingApp.Booking.Rejection
import BookingApp.Booking.Snapshots
import BookingApp.Booking.Window
import BookingApp.Domain.Dates
import BookingApp.Office.Offers
import BookingApp.ReadCommitted.Raises

/-!
# Whoever is free (`reservation.service.ts`, `domain/employee-selection`)

A reservation that names no employee takes the one with the fewest bookings on the local day of
the slot. The bounds of that day are local midnights, which a zone may skip or repeat.
-/

set_option autoImplicit false

namespace BookingApp

open ReadCommitted Code

section Model

structure EmployeeCandidate where
  employeeId : String
  bookingsThatDay : Nat
  displayOrder : Int
  deriving DecidableEq, Repr

/-- `compareCandidates`: fewest bookings, then the order of display, then the id. -/
def EmployeeCandidate.before (a b : EmployeeCandidate) : Prop :=
  a.bookingsThatDay < b.bookingsThatDay ∨ a.bookingsThatDay = b.bookingsThatDay ∧
    (a.displayOrder < b.displayOrder ∨ a.displayOrder = b.displayOrder ∧ a.employeeId ≤ b.employeeId)

instance : DecidableRel EmployeeCandidate.before := fun a b => by
  unfold EmployeeCandidate.before
  exact inferInstance

def selectEmployee (candidates : List EmployeeCandidate) : Except Failure String :=
  match candidates.insertionSort EmployeeCandidate.before with
  | [] => throw (.app {
      code := "NO_EMPLOYEE_AVAILABLE", status := some 409
      message := "No employee is available for that service and time." })
  | best :: _ => return best.employeeId

/-- The bookings and the order of display of each employee who is free. -/
def loadCandidates (api : Api) (employeeIds : List String) (startsAt : Int) :
    Tx (List EmployeeCandidate) := do
  let zone := api.timezone
  let date := instantToLocalDate startsAt zone
  let dayStart ← ofExcept (startOfDay date zone)
  let dayEnd ← ofExcept (startOfDay (addLocalDays date 1 zone) zone)
  let employees ← read fun d => d.employees.filter fun e =>
    decide (e.organizationId = api.organizationId ∧ e.id ∈ employeeIds)
  let counted ← read fun d => d.bookings.filter fun b =>
    decide (b.organizationId = api.organizationId ∧ b.employeeId ∈ employeeIds ∧ b.Blocks ∧
      dayStart ≤ b.startsAt ∧ b.startsAt < dayEnd)
  return employees.map fun e => {
    employeeId := e.id
    bookingsThatDay := counted.countP fun b => decide (b.employeeId = e.id)
    displayOrder := e.displayOrder }

/-- The employees of a snapshot who can take the slot. -/
def freeEmployees (snapshot : AvailabilitySnapshot) (startsAt : Int) : Except String (List String) := do
  let verdicts ← (snapshot.employees.map EmployeeSnapshot.employeeId).mapM fun id =>
    (isSlotBookable snapshot id startsAt).map fun bookable => (id, bookable)
  return (verdicts.filter Prod.snd).map Prod.fst

/-- Picks the employee, or takes the one that was asked for. -/
def resolveEmployee (api : Api) (serviceId : String) (employeeId : Option String) (startsAt : Int) : Tx String :=
  match employeeId with
  | some id => return id
  | none => do
    let date := instantToLocalDate startsAt api.timezone
    let snapshot ← load api { serviceId, first := date, last := date }
    let free ← ofExcept ((freeEmployees snapshot startsAt).mapError Failure.error)
    ensure (S := store) (free ≠ []) (slotUnavailable "That slot is no longer available.")
    let candidates ← loadCandidates api free startsAt
    ofExcept (selectEmployee candidates)

/-- `ReservationService.reserve`, where no employee may be named. -/
def reserveWith (api : Api) (employeeId : Option String) (input : ReserveInput) : Tx ReserveResult := do
  discard (loadService api input.serviceId)
  assertWithinBookingWindow api input.actor input.startsAt
  let employeeId ← resolveEmployee api input.serviceId employeeId input.startsAt
  let expiresAt ← reservationExpiry api input.actor
  withSerializationRetry fun _ => insertBooking .plain api { input with employeeId } expiresAt

/-- Where the employee is named, it is that employee's reservation. -/
theorem reserveWith_named (api : Api) (input : ReserveInput) :
    reserveWith api (some input.employeeId) input = reserve api input := rfl

end Model

/-! ## The fairest candidate -/

/-- What candidates are compared by: load, then order, then id. -/
def EmployeeCandidate.rank (c : EmployeeCandidate) : ℕ ×ₗ ℤ ×ₗ String :=
  toLex (c.bookingsThatDay, toLex (c.displayOrder, c.employeeId))

theorem EmployeeCandidate.before_iff {a b : EmployeeCandidate} : a.before b ↔ a.rank ≤ b.rank := by
  simp only [before, rank, Prod.Lex.toLex_le_toLex]

theorem EmployeeCandidate.rank_injective : Function.Injective EmployeeCandidate.rank := by
  rintro ⟨id, load, order⟩ ⟨id', load', order'⟩ h
  simp only [rank, EmbeddingLike.apply_eq_iff_eq, Prod.mk.injEq] at h
  obtain ⟨rfl, rfl, rfl⟩ := h
  rfl

/-- The candidate that is chosen is the one of the least rank. -/
theorem selectEmployee_eq {candidates : List EmployeeCandidate} {best : EmployeeCandidate}
    (hbest : best ∈ candidates) (hleast : ∀ c ∈ candidates, best.rank ≤ c.rank) :
    selectEmployee candidates = .ok best.employeeId := by
  have hperm := List.perm_insertionSort EmployeeCandidate.before candidates
  have hsorted : (candidates.insertionSort EmployeeCandidate.before).Pairwise fun a b => a.rank ≤ b.rank := by
    have : IsTrans EmployeeCandidate EmployeeCandidate.before :=
      ⟨fun a b c hab hbc => EmployeeCandidate.before_iff.mpr
        ((EmployeeCandidate.before_iff.mp hab).trans (EmployeeCandidate.before_iff.mp hbc))⟩
    have : Std.Total EmployeeCandidate.before :=
      ⟨fun a b => by simpa only [EmployeeCandidate.before_iff] using le_total a.rank b.rank⟩
    exact (List.pairwise_insertionSort EmployeeCandidate.before candidates).imp EmployeeCandidate.before_iff.mp
  unfold selectEmployee
  cases hordered : candidates.insertionSort EmployeeCandidate.before with
  | nil =>
    rw [hordered] at hperm
    exact absurd (hperm.mem_iff.mpr hbest) List.not_mem_nil
  | cons first rest =>
    rw [hordered] at hperm hsorted
    have hfirst : best.rank ≤ first.rank := hleast first (hperm.mem_iff.mp List.mem_cons_self)
    have hmem : first.rank ≤ best.rank := by
      rcases List.mem_cons.mp (hperm.mem_iff.mpr hbest) with rfl | hrest
      · exact le_refl _
      · exact (List.pairwise_cons.mp hsorted).1 best hrest
    rw [EmployeeCandidate.rank_injective (hfirst.antisymm hmem)]
    rfl

/-- Of candidates, in whatever order they come, the one with the fewest bookings is chosen, then the one
that is displayed first, then the one with the least id. -/
theorem selectEmployee_fair {candidates : List EmployeeCandidate} (hsome : candidates ≠ []) :
    ∃ best ∈ candidates, (∀ c ∈ candidates, best.rank ≤ c.rank) ∧
      ∀ reordered : List EmployeeCandidate, reordered.Perm candidates →
        selectEmployee reordered = .ok best.employeeId := by
  have hargmin : candidates.argmin EmployeeCandidate.rank ≠ none := mt List.argmin_eq_none.mp hsome
  obtain ⟨best, hargmin⟩ := Option.ne_none_iff_exists'.mp hargmin
  have hbest : best ∈ candidates := List.argmin_mem hargmin
  have hleast : ∀ c ∈ candidates, best.rank ≤ c.rank := fun c hc => List.le_of_mem_argmin hc hargmin
  refine ⟨best, hbest, hleast, fun reordered hperm => ?_⟩
  exact selectEmployee_eq (hperm.mem_iff.mpr hbest) fun c hc => hleast c (hperm.mem_iff.mp hc)

/-- Two candidates with the same load and the same order, and one with a greater load. -/
theorem selectEmployee_fair_sample :
    ∃ best : EmployeeCandidate, best.employeeId = "a" ∧
      ∀ reordered, reordered.Perm [⟨"c", 2, 0⟩, ⟨"b", 1, 5⟩, ⟨"a", 1, 5⟩] →
        selectEmployee reordered = .ok best.employeeId := by
  obtain ⟨best, hbest, hleast, hchosen⟩ :=
    @selectEmployee_fair [⟨"c", 2, 0⟩, ⟨"b", 1, 5⟩, ⟨"a", 1, 5⟩] (by decide)
  have hsame : Except.ok best.employeeId = .ok "a" :=
    (hchosen _ (.refl _)).symm.trans (by rfl)
  exact ⟨best, Except.ok.inj hsame, hchosen⟩

/-- The error of a local time that has no instant or several. -/
def Failure.isLocalTimeError : Failure → Bool
  | .app e => e.code == "INVALID_LOCAL_TIME"
  | _ => false

section Errors

variable {api : Api}

/-- No local time fails to be placed. -/
abbrev Places {α : Type} (c : Tx α) : Prop :=
  c.Raises fun e : Failure => e.isLocalTimeError = false

theorem places_read {α : Type} (f : Db → α) : Places (read f) :=
  raises_statement ..

theorem places_ensure {c : Prop} [Decidable c] {e : Failure} (h : e.isLocalTimeError = false) :
    Places (ensure (S := store) c e) :=
  raises_ensure h

theorem places_now : Places now := fun _ => trivial

theorem places_ofExcept {α : Type} {result : Except Failure α}
    (h : ∀ e, result = .error e → e.isLocalTimeError = false) : Places (ofExcept result) := by
  cases result with
  | ok a => trivial
  | error e => exact h e rfl

theorem places_mapError {α : Type} (result : Except String α) : Places (ofExcept (result.mapError Failure.error)) := by
  cases result with
  | ok a => trivial
  | error e => rfl

theorem places_loadService (serviceId : String) : Places (loadService api serviceId) := by
  refine (places_read _).bind fun found => ?_
  cases found with
  | none => rfl
  | some service => trivial

theorem places_load (input : LoadInput) : Places (load api input) := by
  refine (places_ensure rfl).bind fun _ => (places_loadService _).bind fun service => ?_
  refine Raises.bind ((places_read _).bind fun ids => (places_ensure rfl).bind fun _ => trivial) fun ids => ?_
  split
  · exact places_now.bind fun _ => trivial
  · refine (places_read _).bind fun _ => (places_read _).bind fun _ => (places_read _).bind fun _ => ?_
    refine (places_read _).bind fun _ => (places_read _).bind fun _ => (places_read _).bind fun _ => ?_
    exact places_now.bind fun _ => trivial

theorem places_loadForSlot (serviceId employeeId : String) (startsAt : Int) :
    Places (loadForSlot api serviceId employeeId startsAt) := by
  refine (places_loadService _).bind fun service => ?_
  refine Raises.bind ((places_read _).bind fun _ => places_ensure rfl) fun _ => ?_
  refine (places_read _).bind fun _ => (places_read _).bind fun _ => (places_read _).bind fun _ => ?_
  refine (places_read _).bind fun _ => (places_read _).bind fun _ => (places_read _).bind fun _ => ?_
  exact places_now.bind fun _ => trivial

theorem places_fromCents (cents : Int) (currency : String) : ∀ e, Money.fromCents cents currency = .error e →
    e.isLocalTimeError = false := by
  intro e h
  unfold Money.fromCents at h
  split at h
  · cases h
  · cases h
    rfl

theorem places_loadEffectiveAssignment (input : ReserveInput) : Places (loadEffectiveAssignment api input) := by
  refine (places_read _).bind fun found => ?_
  cases found with
  | none => rfl
  | some pairing =>
    refine Raises.bind (places_ofExcept fun e h => ?_) fun _ => trivial
    unfold resolveEffectivePrice at h
    dsimp only at h
    split at h
    · cases h
      rfl
    · exact places_fromCents _ _ e h

theorem places_insert (change : Db → Db) : Places (insert change) :=
  raises_statement ..

theorem places_claimIdempotencyKey (key : Option String) : Places (claimIdempotencyKey key) := by
  cases key with
  | none => trivial
  | some key =>
    refine (places_read _).bind fun found => ?_
    cases found with
    | none => rfl
    | some claimed => exact Raises.bind (raises_statement ..) fun _ => trivial

theorem places_bindIdempotencyKey (keyId : Option String) (bookingId : String) :
    Places (bindIdempotencyKey keyId bookingId) := by
  cases keyId with
  | none => trivial
  | some id =>
    refine Raises.bind (raises_statement ..) fun row => Raises.map ?_ _
    cases row with
    | none => rfl
    | some row => trivial

theorem places_armExpiry (booking : Booking) : Places (armExpiry booking) := by
  unfold armExpiry
  cases booking.expiresAt with
  | none => trivial
  | some expiresAt => exact places_insert _

theorem places_announce (actor : ReserveActor) (booking : Booking) : Places (announce api actor booking) := by
  cases actor with
  | CUSTOMER => trivial
  | OFFICE officeUserId =>
    refine Raises.bind (fun _ => (places_insert _).bind fun _ => trivial) fun token => ?_
    exact (places_insert _).bind fun _ => trivial

theorem places_lockCalendars (ids : List String) : Places (lockCalendars ids) := by
  induction ids with
  | nil => trivial
  | cons id ids ih => exact Raises.bind (raises_statement ..) fun _ => ih

theorem places_insertOnce (input : ReserveInput) (expiresAt : Option Int) :
    Places (insertOnce api input expiresAt) := by
  refine (places_lockCalendars _).bind fun _ => (places_loadForSlot _ _ _).bind fun snapshot => ?_
  refine Raises.bind ((places_mapError _).bind fun _ => places_ensure rfl) fun _ => ?_
  refine (places_loadEffectiveAssignment _).bind fun assignment => ?_
  refine (places_claimIdempotencyKey _).bind fun keyId => places_now.bind fun instant => fun ids => ?_
  refine (places_ensure rfl).bind fun _ => (places_insert _).bind fun _ => ?_
  refine (places_bindIdempotencyKey _ _).bind fun _ => (places_armExpiry _).bind fun _ => ?_
  exact (places_insert _).bind fun _ => (places_announce _ _).bind fun _ => trivial

theorem places_insertBooking (p : Point) (input : ReserveInput) (expiresAt : Option Int) :
    Places (insertBooking p api input expiresAt) := by
  refine raises_tryCatch (.withRetry (fun _ => .transactionBy (places_insertOnce _ _)) _) fun e he => ?_
  split
  · rfl
  · exact he

theorem places_reservationExpiry (actor : ReserveActor) : Places (reservationExpiry api actor) := by
  cases actor with
  | CUSTOMER => exact places_now.bind fun _ => trivial
  | OFFICE officeUserId => trivial

end Errors

section Midnights

variable {api : Api} {startsAt : Int}

/-- A local day begins at one instant, or it is an error to ask for its first moment. -/
theorem startOfDay_cases (date : Int) (z : Zone) :
    (∃ u, startOfDay date z = .ok u ∧ Placed z date ⟨0, MinuteOfDay.midnight_le⟩ u) ∨
      (¬∃ u, Placed z date ⟨0, MinuteOfDay.midnight_le⟩ u) ∧
        ∃ e, startOfDay date z = .error e ∧ e.isLocalTimeError = true := by
  unfold startOfDay wallClockToInstantOrThrow
  simp only [← wallClockToInstant_ok_iff]
  cases hclock : wallClockToInstant date ⟨0, MinuteOfDay.midnight_le⟩ z with
  | ok u => exact Or.inl ⟨u, rfl, rfl⟩
  | skipped reason => exact Or.inr ⟨fun ⟨_, h⟩ => (by cases h), _, rfl, rfl⟩

/-- The midnights of the day of a start and of the next one each have one instant. -/
def DayPlaced (z : Zone) (startsAt : Int) : Prop :=
  (∃ u, Placed z (z.dateOf startsAt) ⟨0, MinuteOfDay.midnight_le⟩ u) ∧ ∃ u, Placed z (z.dateOf startsAt + 1) ⟨0, MinuteOfDay.midnight_le⟩ u

theorem places_startOfDay {date : Int} {z : Zone} (h : ∃ u, Placed z date ⟨0, MinuteOfDay.midnight_le⟩ u) :
    Places (ofExcept (startOfDay date z)) := by
  rcases startOfDay_cases date z with ⟨u, hu, -⟩ | ⟨hnot, -⟩
  · rw [hu]
    trivial
  · exact absurd h hnot

theorem places_loadCandidates (h : DayPlaced api.timezone startsAt) (employeeIds : List String) :
    Places (loadCandidates api employeeIds startsAt) := by
  have hnext : addLocalDays (instantToLocalDate startsAt api.timezone) 1 api.timezone =
      api.timezone.dateOf startsAt + 1 := addLocalDays_one _
  unfold loadCandidates
  dsimp only
  rw [hnext]
  refine (places_startOfDay h.1).bind fun dayStart => (places_startOfDay h.2).bind fun dayEnd => ?_
  exact (places_read _).bind fun _ => (places_read _).bind fun _ => trivial

/-- Where one of the midnights is skipped or repeated, the candidates are not loaded. -/
theorem runAlone_loadCandidates (h : ¬DayPlaced api.timezone startsAt) (employeeIds : List String)
    (s : Alone store) : ∃ e, (loadCandidates api employeeIds startsAt).runAlone s = (.error e, s) ∧
      e.isLocalTimeError = true := by
  have hnext : addLocalDays (instantToLocalDate startsAt api.timezone) 1 api.timezone =
      api.timezone.dateOf startsAt + 1 := addLocalDays_one _
  unfold loadCandidates
  dsimp only
  rw [hnext]
  rcases startOfDay_cases (api.timezone.dateOf startsAt) api.timezone with ⟨u, hu, hplaced⟩ | ⟨-, e, he, hlocal⟩
  · have hstart : (ofExcept (startOfDay (instantToLocalDate startsAt api.timezone) api.timezone)).runAlone s =
        (.ok u, s) := (runAlone_ofExcept _ _).trans (congrArg (·, s) hu)
    rw [runAlone_bind_ok hstart]
    rcases startOfDay_cases (api.timezone.dateOf startsAt + 1) api.timezone with ⟨v, -, hplaced'⟩ | ⟨-, e, he, hlocal⟩
    · exact absurd ⟨⟨u, hplaced⟩, v, hplaced'⟩ h
    · exact ⟨e, runAlone_bind_error ((runAlone_ofExcept _ _).trans (congrArg (·, s) he)), hlocal⟩
  · exact ⟨e, runAlone_bind_error ((runAlone_ofExcept _ _).trans (congrArg (·, s) he)), hlocal⟩

theorem places_selectEmployee (candidates : List EmployeeCandidate) :
    Places (ofExcept (selectEmployee candidates)) := by
  refine places_ofExcept fun e h => ?_
  unfold selectEmployee at h
  split at h
  · cases h
    rfl
  · cases h

theorem places_resolveEmployee (h : DayPlaced api.timezone startsAt) (serviceId : String) :
    Places (resolveEmployee api serviceId none startsAt) := by
  refine (places_load _).bind fun snapshot => (places_mapError _).bind fun free => ?_
  refine (places_ensure rfl).bind fun _ => (places_loadCandidates h _).bind fun candidates => ?_
  exact places_selectEmployee candidates

theorem places_reserveWith {input : ReserveInput} (h : DayPlaced api.timezone input.startsAt) :
    Places (reserveWith api none input) := by
  refine Raises.bind ((places_loadService _).bind fun _ => trivial) fun _ => ?_
  refine Raises.bind ?_ fun _ => (places_resolveEmployee h _).bind fun employeeId => ?_
  · cases input.actor with
    | CUSTOMER => exact places_now.bind fun _ => places_ensure rfl
    | OFFICE officeUserId => trivial
  · refine (places_reservationExpiry _).bind fun expiresAt => ?_
    exact Raises.withRetry (fun _ => places_insertBooking _ _ _) _

end Midnights

section Offered

variable {api : Api} {d : Db} {answers answers' : Nat → Answer} {refusal refusal' : Db → Failure}

/-- The engine answers for every employee as soon as the grid has an interval. -/
theorem isSlotBookable_isOk {s : AvailabilitySnapshot} (h : 0 < s.settings.schedulingIntervalMinutes)
    (id : String) (t : Int) : ∃ bookable, isSlotBookable s id t = .ok bookable := by
  unfold isSlotBookable
  cases Table.find id s.employees with
  | none => exact ⟨_, rfl⟩
  | some employee =>
    obtain ⟨result, hresult⟩ := generateAvailability_isOk (s := { s with employees := [employee] }) h
      (instantToLocalDate t s.zone) (instantToLocalDate t s.zone)
    dsimp only
    rw [hresult]
    exact ⟨_, rfl⟩

/-- An employee who can take the slot is free. -/
theorem mem_freeEmployees {s : AvailabilitySnapshot} (h : 0 < s.settings.schedulingIntervalMinutes) {id : String}
    (hid : id ∈ s.employees.map EmployeeSnapshot.employeeId) {t : Int}
    (hbookable : isSlotBookable s id t = .ok true) : ∃ free, freeEmployees s t = .ok free ∧ id ∈ free := by
  obtain ⟨verdicts, hverdicts⟩ := exists_mapM_eq_ok (l := s.employees.map EmployeeSnapshot.employeeId)
    (f := fun id => (isSlotBookable s id t).map fun bookable => (id, bookable)) fun id _ => by
      obtain ⟨bookable, hanswer⟩ := isSlotBookable_isOk h id t
      exact ⟨(id, bookable), by rw [hanswer]; rfl⟩
  have hverdict : ∃ verdict ∈ verdicts, verdict = (id, true) := by
    rw [exists_mem_of_mapM_eq_ok hverdicts]
    exact ⟨id, hid, (id, true), by rw [hbookable]; rfl, rfl⟩
  obtain ⟨verdict, hmem, rfl⟩ := hverdict
  refine ⟨_, by unfold freeEmployees; rw [hverdicts]; rfl, ?_⟩
  exact List.mem_map.mpr ⟨_, List.mem_filter.mpr ⟨hmem, rfl⟩, rfl⟩

/-- A free employee is looked for among those who perform the service, and where a midnight is skipped
or repeated that fails. -/
theorem runAlone_resolveEmployee {s : Alone store} {service : Service} {serviceId : String}
    (hservice : offeredService api serviceId s.view = some service) {id : String} {startsAt : Int}
    (hid : id ∈ performers api serviceId none s.view)
    (hinterval : 0 < api.settings.availability.schedulingIntervalMinutes)
    (hbookable : ∀ several, id ∈ several → isSlotBookable (snapshotIn api (slotWindow api startsAt) s.view
      (s.answers 0).now service several) id startsAt = .ok true)
    (h : ¬DayPlaced api.timezone startsAt) :
    ∃ e s', (resolveEmployee api serviceId none startsAt).runAlone s = (.error e, s') ∧
      e.isLocalTimeError = true := by
  obtain ⟨date, hdate⟩ : ∃ date, instantToLocalDate startsAt api.timezone = date := ⟨_, rfl⟩
  have hrange : (eachLocalDate date date api.timezone).length ≤ AVAILABILITY_MAX_RANGE_DAYS := by
    rw [eachLocalDate_self]
    exact Nat.le_of_ble_eq_true rfl
  obtain ⟨snapshot, s₁, hload⟩ : ∃ snapshot s', (load api { serviceId, first := date, last := date }).runAlone s =
      (.ok snapshot, s') := runAlone_load hservice rfl hrange
  obtain ⟨found, hfound, rfl, hsnapshot⟩ := load_snapshot hload
  obtain rfl : service = found := Option.some.inj (hservice.symm.trans hfound)
  dsimp only at hsnapshot
  rw [if_neg (List.ne_nil_of_mem hid), ← hdate] at hsnapshot
  have hids : id ∈ snapshot.employees.map EmployeeSnapshot.employeeId := by
    rw [hsnapshot]
    exact List.mem_map.mpr ⟨_, List.mem_map_of_mem hid, rfl⟩
  have hsettings : 0 < snapshot.settings.schedulingIntervalMinutes := by
    rw [hsnapshot]
    exact hinterval
  obtain ⟨free, hfree, hmem⟩ := mem_freeEmployees hsettings hids (t := startsAt) (by
    rw [hsnapshot]
    exact hbookable _ hid)
  obtain ⟨e, herror, hlocal⟩ := runAlone_loadCandidates h free s.next
  refine ⟨e, s.next, ?_, hlocal⟩
  have hanswer : (ofExcept ((freeEmployees snapshot startsAt).mapError Failure.error)).runAlone s.next =
      (.ok free, s.next) := by
    rw [hfree]
    rfl
  unfold resolveEmployee
  dsimp only
  rw [hdate, runAlone_bind_ok hload, runAlone_bind_ok hanswer,
    runAlone_bind_ok (runAlone_ensure_of (List.ne_nil_of_mem hmem) _ _)]
  exact runAlone_bind_error herror

/-- A slot of the list can be reserved without naming an employee, as far as local times go, just if
it is past the window that a customer's reservation is checked for, or the midnights of its day and
of the next one each have one instant. -/
theorem reserve_anyone_iff (hlegal : Legal d) {query : LoadInput} {snapshot : AvailabilitySnapshot}
    {a : Alone store} (hload : (load api query).runAlone { answers, refusal, db := d } = (.ok snapshot, a))
    {result : AvailabilityResult} (hresult : generateAvailability snapshot query.first query.last = .ok result)
    {input : ReserveInput} {date : Int} {id : String} (hlists : result.Lists date id input.startsAt)
    (hservice : input.serviceId = query.serviceId) (hnow : ∀ n, (answers' n).now = (answers 0).now)
    (hrefusal : ∀ d, (refusal' d).isLocalTimeError = false) :
    (∀ e s, (reserveWith api none input).runAlone { answers := answers', refusal := refusal', db := d } =
        (.error e, s) → e.isLocalTimeError = false) ↔
      (input.actor = .CUSTOMER ∧
        (answers 0).now + api.settings.availability.bookingHorizonDays * 86400000 < input.startsAt) ∨
      DayPlaced api.timezone input.startsAt := by
  have hsame : { snapshot with settings := snapshot.settings } = snapshot := rfl
  rw [← hsame] at hresult
  obtain ⟨service, hfound, hid, hoffer, hbookable⟩ :=
    bookable_of_load (a := { answers, refusal, db := d }) hlegal hload hresult hlists
  rw [load_settings hload] at hoffer hbookable
  rw [← hservice] at hfound hid
  have hnotice : (answers 0).now + api.settings.availability.minimumNoticeHours * 3600000 ≤ input.startsAt :=
    hoffer.notice
  obtain ⟨-, -, -, -, hinterval, -⟩ := hoffer.segment
  obtain ⟨s, hs⟩ : ∃ s : Alone store, s = { answers := answers', refusal := refusal', db := d } := ⟨_, rfl⟩
  have hview : s.view = d := by rw [hs]; rfl
  have hclock (n : Nat) : (s.answers n).now = (answers 0).now := by rw [hs]; exact hnow n
  rw [← hview] at hfound hid
  rw [← hs]
  by_cases hplaced : DayPlaced api.timezone input.startsAt
  · exact iff_of_true (fun e s' hrun => (places_reserveWith hplaced).runAlone (hs ▸ hrefusal) hrun) (Or.inr hplaced)
  rw [or_iff_left hplaced]
  -- The search fails in every state that differs by the clock alone.
  have hsearch (s' : Alone store) (hview' : s'.view = s.view)
      (hclock' : (s'.answers 0).now = (answers 0).now) :
      ∃ e s'', (resolveEmployee api input.serviceId none input.startsAt).runAlone s' = (.error e, s'') ∧
        e.isLocalTimeError = true := by
    rw [← hview'] at hfound hid
    have hanyone : id ∈ performers api input.serviceId none s'.view := by
      obtain ⟨link, hlink, hpairing, -, hemployee⟩ := mem_performers.mp hid
      exact mem_performers.mpr ⟨link, hlink, hpairing, (by simp), hemployee⟩
    refine runAlone_resolveEmployee (s := s') hfound hanyone hinterval (fun several hmem => ?_) hplaced
    rw [hclock', hview', hview]
    exact hbookable several hmem
  have hloaded : Code.runAlone (discard (loadService api input.serviceId)) s = (.ok (), s) :=
    runAlone_bind_ok (runAlone_loadService_ok hfound)
  unfold reserveWith
  rw [runAlone_bind_ok hloaded]
  cases hactor : input.actor with
  | OFFICE officeUserId =>
    -- The office's start is not held against a window.
    obtain ⟨e, s', herror, hlocal⟩ := hsearch s rfl (hclock 0)
    refine iff_of_false (fun hnever => ?_) (fun h => nomatch h.1)
    have hwindow : (assertWithinBookingWindow api (.OFFICE officeUserId) input.startsAt).runAlone s = (.ok (), s) :=
      rfl
    have hfalse := hnever e s' ((runAlone_bind_ok hwindow).trans (runAlone_bind_error herror))
    rw [hlocal] at hfalse
    cases hfalse
  | CUSTOMER =>
    rw [eq_self, true_and]
    have hnow' : now.runAlone s = (.ok (answers 0).now, s.next) := by
      rw [← hclock 0]
      rfl
    constructor
    · intro hnever
      by_contra hnot
      rw [not_lt] at hnot
      have hwindow : (assertWithinBookingWindow api .CUSTOMER input.startsAt).runAlone s = (.ok (), s.next) := by
        unfold assertWithinBookingWindow assertWithinWindow
        rw [runAlone_bind_ok hnow']
        exact runAlone_ensure_of ⟨hnotice, hnot⟩ _ _
      obtain ⟨e, s', herror, hlocal⟩ := hsearch s.next rfl (hclock 1)
      have hfalse := hnever e s' ((runAlone_bind_ok hwindow).trans (runAlone_bind_error herror))
      rw [hlocal] at hfalse
      cases hfalse
    · intro hlate e s' hrun
      have hwindow : Places (assertWithinBookingWindow api .CUSTOMER input.startsAt) :=
        places_now.bind fun _ => places_ensure rfl
      obtain ⟨e', s'', hrefused⟩ : ∃ e' s'', (assertWithinBookingWindow api .CUSTOMER input.startsAt).runAlone s =
          (.error e', s'') := by
        unfold assertWithinBookingWindow assertWithinWindow
        rw [runAlone_bind_ok hnow', ensure, if_neg (fun h => absurd h.2 (not_le.mpr hlate))]
        exact ⟨_, _, rfl⟩
      rw [runAlone_bind_error hrefused] at hrun
      cases hrun
      exact hwindow.runAlone (hs ▸ hrefusal) hrefused

/-- Eleven on Thursday, for a customer. -/
def ReserveInput.eleven : ReserveInput where
  serviceId := "s"
  employeeId := "e"
  startsAt := 39600000
  customerId := "c"
  locale := .en

/-- Where the clocks are put forward at the midnight that ends Thursday. -/
def Api.lateThursday : Api :=
  { Api.sample with timezone := .forward 86400000 }

/-- In UTC whoever is free takes it. -/
theorem reserve_anyone_thursday : ¬∃ e s, (reserveWith .sample none .eleven).runAlone
    { answers := fun _ => {}, refusal := fun _ => recordNotFound, db := .thursday } = (.error e, s) ∧
    e.isLocalTimeError = true := by
  rintro ⟨e, s, hrun, hlocal⟩
  have hload : ∃ snapshot a, (load .sample { serviceId := "s", first := 0, last := 0 }).runAlone
      { answers := fun _ => {}, refusal := fun _ => recordNotFound, db := .thursday } = (.ok snapshot, a) ∧
      generateAvailability snapshot 0 0 = .ok .thursday := ⟨_, _, rfl, rfl⟩
  obtain ⟨snapshot, a, hload, hresult⟩ := hload
  have hnever := (reserve_anyone_iff legal_thursday hload hresult lists_thursday rfl (fun _ => rfl) fun _ => rfl).mpr
    (Or.inr ⟨⟨0, wallClockToInstant_ok_iff.mp rfl⟩, 86400000, wallClockToInstant_ok_iff.mp rfl⟩) e s hrun
  rw [hlocal] at hnever
  cases hnever

/-- Where Thursday has no end, eleven is offered, and looking for whoever is free fails. -/
theorem thursday_without_end : ∃ snapshot a, Legal .thursday ∧
    (load .lateThursday { serviceId := "s", first := 0, last := 0 }).runAlone
      { answers := fun _ => {}, refusal := fun _ => recordNotFound, db := .thursday } = (.ok snapshot, a) ∧
    generateAvailability snapshot 0 0 = .ok .thursday ∧ AvailabilityResult.thursday.Lists 0 "e" 39600000 ∧
    ∃ e s, (reserveWith .lateThursday none .eleven).runAlone
      { answers := fun _ => {}, refusal := fun _ => recordNotFound, db := .thursday } = (.error e, s) ∧
      e.isLocalTimeError = true :=
  ⟨_, _, legal_thursday, rfl, rfl, lists_thursday, _, _, rfl, rfl⟩

end Offered

end BookingApp
