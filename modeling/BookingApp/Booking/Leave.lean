import BookingApp.Booking.Occupying

/-!
# Leave (`office/availability-admin.service.ts`)

The office records leave and decides it, with the calendar of the employee locked.
Leave is approved where no appointment starts on its days, which are resolved to
instants. Whether that has to be looked at is decided from the status that was read
before the lock.
-/

set_option autoImplicit false

namespace BookingApp

open ReadCommitted ReadCommitted.Proto

structure CreateTimeOffRequest where
  employeeId : String
  startDate : Int
  endDate : Int
  status : TimeOffStatus := .APPROVED
  reason : Option String := none
  deriving DecidableEq, Repr

/-- A reason may be left as it is, taken away, or given. -/
structure UpdateTimeOffRequest where
  status : TimeOffStatus
  reason : Option (Option String) := none
  deriving DecidableEq, Repr

def SkipReason.text : SkipReason → String
  | NONEXISTENT => "NONEXISTENT"
  | AMBIGUOUS => "AMBIGUOUS"

/-- The conversion of a local time that is expected to exist. -/
def wallClockToInstantOrThrow (date : Int) (minute : MinuteOfDay) (zone : Zone) : Except Failure Int :=
  match wallClockToInstant date minute zone with
  | .ok instant => return instant
  | .skipped reason => throw (.app {
      code := "INVALID_LOCAL_TIME", status := some 500
      message := s!"Local time {date} +{minute.val}min is {reason.text}." })

/-- The first moment of a day. -/
def startOfDay (date : Int) (zone : Zone) : Except Failure Int :=
  wallClockToInstantOrThrow date ⟨0, MinuteOfDay.midnight_le⟩ zone

/-- The blocking bookings of an employee that start in a range. -/
def bookingsStartingIn (organizationId employeeId : String) (first last : Int) (d : Db) : List Booking :=
  d.bookings.filter fun b => decide (b.organizationId = organizationId ∧ b.employeeId = employeeId ∧
    b.Blocks ∧ first ≤ b.startsAt ∧ b.startsAt < last)

/-- Refuses to remove days that somebody is booked into. -/
def assertNoBookingsInRange (api : Api) (organizationId employeeId : String) (startDate endDate : Int) :
    Tx Unit := do
  let zone := api.timezone
  let first ← ofExcept (startOfDay startDate zone)
  let last ← ofExcept (startOfDay (addLocalDays endDate 1 zone) zone)
  let bookingCount ← read fun d => (bookingsStartingIn organizationId employeeId first last d).length
  ensure (S := store) (bookingCount = 0) (.app {
    code := "EMPLOYEE_HAS_FUTURE_BOOKINGS"
    message := "This employee has appointments during that time."
    details := [("bookingCount", toString bookingCount)] })

/-- An employee of the office may look after their own calendar only. -/
def assertMayAccessEmployee (session : OfficeSession) (employeeId : String) : Tx Unit :=
  ensure (S := store) (session.role ≠ .EMPLOYEE ∨ session.employeeId = some employeeId)
    (.app { code := "NOT_FOUND", message := "Not found." })

/-- The row of a new leave. -/
def CreateTimeOffRequest.row (body : CreateTimeOffRequest) (session : OfficeSession) (ids : Answer) :
    TimeOff where
  id := ids.id
  organizationId := session.organizationId
  employeeId := body.employeeId
  startDate := body.startDate
  endDate := body.endDate
  status := body.status
  reason := body.reason
  decidedByOfficeUserId := if body.status = .APPROVED then some session.officeUserId else none
  decidedAt := if body.status = .APPROVED then some ids.now else none

def insertTimeOff (session : OfficeSession) (body : CreateTimeOffRequest) : Tx TimeOff := do
  let row := body.row session (← answer)
  insert (Db.onTimeOff (· ++ [row]))
  return row

/-- The transaction of `createTimeOff`. -/
def createTimeOffOnce (api : Api) (session : OfficeSession) (body : CreateTimeOffRequest) : Tx TimeOff :=
  withCalendarLock [body.employeeId] do
    if body.status = .APPROVED then
      assertNoBookingsInRange api session.organizationId body.employeeId body.startDate body.endDate
    insertTimeOff session body

/-- Records leave, which is not approved over appointments. -/
def createTimeOff (api : Api) (session : OfficeSession) (body : CreateTimeOffRequest) : Tx TimeOff := do
  assertMayAccessEmployee session body.employeeId
  let employee ← read fun d =>
    findIn Employee.organizationId session.organizationId body.employeeId d.employees
  ensure (S := store) (employee ≠ none) (.app { code := "NOT_FOUND", message := "Employee not found." })
  transactionBy (S := store) (fun row => .leave row true) (createTimeOffOnce api session body)

/-- The columns of a decided leave. -/
def UpdateTimeOffRequest.decided (body : UpdateTimeOffRequest) (officeUserId : String) (decidedAt : Int)
    (t : TimeOff) : TimeOff :=
  { t with
    status := body.status
    reason := body.reason.getD t.reason
    decidedByOfficeUserId := if body.status = .REQUESTED then none else some officeUserId
    decidedAt := if body.status = .REQUESTED then none else some decidedAt }

/-- Appointments are looked at where the leave is approved that was not when it was read. -/
def UpdateTimeOffRequest.checks (body : UpdateTimeOffRequest) (existing : TimeOff) : Bool :=
  decide (body.status = .APPROVED ∧ existing.status ≠ .APPROVED)

def timeOffNotFound : Failure :=
  .app { code := "NOT_FOUND", message := "Time off not found." }

def writeTimeOff (session : OfficeSession) (id : String) (body : UpdateTimeOffRequest) : Tx TimeOff := do
  let decidedAt ← now
  let row ← modify (S := store) .plain (fun _ => [.timeOff id])
    (fun _ => Db.onTimeOff (Table.update [id] (body.decided session.officeUserId decidedAt)))
    fun d : Db => findIn TimeOff.organizationId session.organizationId id d.timeOff
  orThrow (row.map (body.decided session.officeUserId decidedAt))

/-- The transaction of `updateTimeOff`. -/
def updateTimeOffOnce (api : Api) (session : OfficeSession) (existing : TimeOff)
    (body : UpdateTimeOffRequest) : Tx TimeOff :=
  withCalendarLock [existing.employeeId] do
    if body.checks existing then
      assertNoBookingsInRange api session.organizationId existing.employeeId existing.startDate
        existing.endDate
    writeTimeOff session existing.id body

/-- Decides leave, and asks for it again. -/
def updateTimeOff (api : Api) (session : OfficeSession) (id : String) (body : UpdateTimeOffRequest) :
    Tx TimeOff := do
  match ← query fun d => findIn TimeOff.organizationId session.organizationId id d.timeOff with
  | none => throw timeOffNotFound
  | some existing =>
    assertMayAccessEmployee session existing.employeeId
    transactionBy (S := store) (fun row => .leave row (body.checks existing))
      (updateTimeOffOnce api session existing body)

variable {rules : BookingRules} {held : List Lock} {δ : Db → Db} {d d' : Db}

/-- When a booking starts is one of its terms. -/
theorem startsAt_of_terms {b b' : Booking} (h : b.terms = b'.terms) : b.startsAt = b'.startsAt := by
  change b.terms.startsAt = b'.terms.startsAt
  rw [h]

/-- Under the lock of the calendar the days of a leave stay free. -/
theorem Vacated.keep {z : Zone} {t : TimeOff} (h : Vacated z t d) (hsame : SameCalendar t.employeeId d d') :
    Vacated z t d' := by
  obtain ⟨first, last, hfirst, hlast, hfree⟩ := h
  refine ⟨first, last, hfirst, hlast, fun b' hb' ho hemployee hblocks => ?_⟩
  obtain ⟨b, hb, hblocks₀, hterms⟩ := hsame.bookings b' hb' hemployee hblocks
  obtain ⟨ho₀, hemployee₀, -⟩ := sameCalendar_of_terms hterms
  rw [← startsAt_of_terms hterms]
  exact hfree b hb (ho₀.trans ho) (hemployee₀.trans hemployee) hblocks₀

/-- The days and the employee of a leave stay. -/
theorem Change.leave (h : Change rules d d') {id : String} {t : TimeOff}
    (ht : Table.find id d.timeOff = some t) :
    ∃ t', Table.find id d'.timeOff = some t' ∧ t'.days = t.days := by
  cases h with
  | leaveTaken x hassume hvacated hd =>
    exact ⟨t, by rw [hd]; exact Table.find_append_of_some ht, rfl⟩
  | leaveDecided x f checked hx hid hdays hassume hvacated hd =>
    rw [hd, Table.find_update hid, ht]
    refine ⟨_, rfl, ?_⟩
    split
    · exact hdays t
    · rfl
  | _ =>
    rename_i hd
    exact ⟨t, by rw [hd]; exact ht, rfl⟩

theorem elapse_leave (r : (lifecycle rules).Elapse held d d') {id : String} {t : TimeOff}
    (ht : Table.find id d.timeOff = some t) :
    ∃ t', Table.find id d'.timeOff = some t' ∧ t'.days = t.days := by
  refine r.keeps (J := fun x : Db => ∃ t', Table.find id x.timeOff = some t' ∧ t'.days = t.days)
    (fun x y hcommit ⟨t₁, ht₁, hsame⟩ => ?_) ⟨t, ht, rfl⟩
  obtain ⟨t₂, ht₂, hsame₂⟩ := Change.leave (Commit.change hcommit) ht₁
  exact ⟨t₂, ht₂, hsame₂.trans hsame⟩

theorem startOfDay_eq_ok {date first : Int} {zone : Zone} (h : startOfDay date zone = .ok first) :
    wallClockToInstant date ⟨0, MinuteOfDay.midnight_le⟩ zone = .ok first := by
  unfold startOfDay wallClockToInstantOrThrow at h
  split at h
  · cases h
    assumption
  · cases h

/-- Afterwards the days are known to be free. -/
theorem runs_assertNoBookingsInRange {api : Api} {organizationId employeeId : String}
    {startDate endDate : Int} {β : Type} {k : Unit → Tx β} {Q : β → List Lock → (Db → Db) → Db → Prop}
    (h : ∀ d', (lifecycle rules).Elapse held d d' →
      (∀ t : TimeOff, t.organizationId = organizationId → t.employeeId = employeeId →
        t.startDate = startDate → t.endDate = endDate → Vacated api.timezone t d') →
      Runs (lifecycle rules) (k ()) Q held id d') :
    Runs (lifecycle rules)
      (assertNoBookingsInRange api organizationId employeeId startDate endDate >>= k) Q held id d := by
  refine .bind (.ofExcept fun first hfirst => .ofExcept fun last hlast => .read fun d₁ r₁ _ =>
    wp_ensure (fun hnone => h d₁ r₁ ?_) fun _ => trivial)
  rintro t rfl rfl rfl rfl
  refine ⟨first, last, startOfDay_eq_ok hfirst, startOfDay_eq_ok hlast, fun b hb ho hemployee hblocks hin => ?_⟩
  have hmem : b ∈ bookingsStartingIn t.organizationId t.employeeId first last d₁ :=
    List.mem_filter.mpr ⟨hb, decide_eq_true ⟨ho, hemployee, hblocks, hin⟩⟩
  have hnil : bookingsStartingIn t.organizationId t.employeeId first last d₁ = [] :=
    List.eq_nil_of_length_eq_zero hnone
  rw [hnil] at hmem
  cases hmem

/-- The row is inserted into a calendar that is as it was looked at. -/
theorem runs_insertTimeOff (hrules : rules.Sound) {api : Api} (hapi : rules.Admits api)
    {session : OfficeSession} (hsession : session.organizationId = api.organizationId)
    {body : CreateTimeOffRequest} (hlock : .calendar body.employeeId ∈ held)
    (hvacated : body.status = .APPROVED → ∀ t : TimeOff, t.organizationId = session.organizationId →
      t.employeeId = body.employeeId → t.startDate = body.startDate → t.endDate = body.endDate →
      Vacated api.timezone t d) :
    Runs (lifecycle rules) (insertTimeOff session body)
      ((lifecycle rules).CommitsBy (fun row => .leave row true) fun _ _ _ _ => True) held id d := by
  refine .answer fun d₁ r₁ _ ids => .insertAt fun d₂ r₂ _ => .ret fun d' r i ha hl => ?_
  have hsame := locked_calendar (r₁.trans (r₂.trans r.elapse)) hlock
  refine ⟨lifecycle_guarantee hrules i (.leaveTaken _ ha (fun happroved zoneOf hzones => ?_) rfl)
    (of_decide_eq_true hl) ?_, trivial⟩
  · have hzone : zoneOf (body.row session ids).organizationId = api.timezone := by
      rw [hapi.zones zoneOf hzones, ← hsession]
      rfl
    rw [hzone]
    exact (hvacated happroved _ rfl rfl rfl rfl).keep hsame
  · exact {
      timeOff := fun t ht => by
        rcases List.mem_append.mp ht with hold | hlast
        · exact .inl hold
        · rw [List.mem_singleton.mp hlast]
          exact .inr hlock }

theorem runs_createTimeOff (hrules : rules.Sound) {api : Api} (hapi : rules.Admits api)
    {session : OfficeSession} (hsession : session.organizationId = api.organizationId)
    {body : CreateTimeOffRequest} :
    Runs (lifecycle rules) (createTimeOff api session body) (fun _ _ _ _ => True) held δ d := by
  refine .ensure fun _ => .read fun _ _ _ => .ensure fun _ => .transactionBy fun d₁ _ _ =>
    .withCalendarLock fun d₂ held _ hcalendar => ?_
  have hlock : .calendar body.employeeId ∈ held := hcalendar _ (by simp)
  split
  · exact runs_assertNoBookingsInRange fun d₃ r₃ hfree =>
      runs_insertTimeOff hrules hapi hsession hlock fun _ => hfree
  · rename_i hnot
    exact runs_insertTimeOff hrules hapi hsession hlock fun h => absurd h hnot

/-- The columns that a leave's days are made of. -/
theorem columns_of_days {t t' : TimeOff} (h : t'.days = t.days) : t'.id = t.id ∧
    t'.organizationId = t.organizationId ∧ t'.employeeId = t.employeeId ∧
    t'.startDate = t.startDate ∧ t'.endDate = t.endDate := by
  unfold TimeOff.days at h
  simp only [TimeOff.mk.injEq] at h
  exact ⟨h.1, h.2.1, h.2.2.1, h.2.2.2.1, h.2.2.2.2.1⟩

theorem Vacated.of_days {z : Zone} {t t' : TimeOff} (h : Vacated z t d) (hdays : t.days = t'.days) :
    Vacated z t' d := by
  obtain ⟨-, horganization, hemployee, hstart, hend⟩ := columns_of_days hdays
  unfold Vacated at h ⊢
  rwa [horganization, hemployee, hstart, hend] at h

/-- A leave is decided that was there when it was read, with the same days. -/
theorem runs_writeTimeOff (hrules : rules.Sound) {api : Api} (hapi : rules.Admits api)
    {session : OfficeSession} (hsession : session.organizationId = api.organizationId)
    {existing : TimeOff} {body : UpdateTimeOffRequest} {checked : Bool} {before : Db}
    (hexisting : findIn TimeOff.organizationId session.organizationId existing.id before.timeOff =
      some existing) (hbefore : (lifecycle rules).Elapse [] before d)
    (hlock : .calendar existing.employeeId ∈ held)
    (hvacated : checked = true → Vacated api.timezone existing d) :
    Runs (lifecycle rules) (writeTimeOff session existing.id body)
      ((lifecycle rules).CommitsBy (fun row => .leave row checked) fun _ _ _ _ => True) held id d := by
  refine .now fun d₁ r₁ _ decidedAt => .modify fun d₂ r₂ i₂ _ => wp_orThrow (fun row hrow => ?_)
    fun _ => trivial
  obtain ⟨t, ht, rfl⟩ := Option.map_eq_some_iff.mp hrow
  obtain ⟨ht, -⟩ := Option.filter_eq_some_iff.mp ht
  change Table.find existing.id d₂.timeOff = some t at ht
  obtain ⟨hexisting, ho⟩ := Option.filter_eq_some_iff.mp hexisting
  intro d' r i ha hl
  have hheld : ∀ l ∈ held, l ∈ held ++ [.timeOff existing.id] := fun _ hl => List.mem_append_left _ hl
  have hlater := r.elapse.weaken hheld
  have hid : t.id = existing.id := Table.key_of_find ht
  -- the row is the one that was read, but for its decision, and nobody else decides it now
  obtain ⟨x, hx, hdays⟩ := elapse_leave (hbefore.trans ((r₁.trans r₂).weaken (by simp))) hexisting
  obtain rfl : t = x := Option.some.inj (ht.symm.trans hx)
  obtain ⟨-, horganization, hemployee, hstart, hend⟩ := columns_of_days hdays
  obtain ⟨t', ht', hdays'⟩ := elapse_leave hlater ht
  have hmem : t' ∈ d₂.timeOff := (locked_calendar hlater hlock).timeOff t' (Table.mem_of_find ht')
    ((columns_of_days hdays').2.2.1.trans hemployee)
  obtain rfl : t = t' := by
    have hfind := Table.find_of_mem i₂.1.calendar.time_off_pkey hmem
    have hkey : Keyed.key t' = existing.id := Table.key_of_find ht'
    rw [hkey, ht] at hfind
    exact Option.some.inj hfind
  refine ⟨lifecycle_guarantee hrules i (.leaveDecided t (body.decided session.officeUserId decidedAt) checked
    (hid.symm ▸ ht') (fun _ => rfl) (fun _ => rfl) ha (fun hchecked _ zoneOf hzones => ?_) (by rw [hid]; rfl))
    (of_decide_eq_true hl) ?_, trivial⟩
  · have hzone : zoneOf t.organizationId = api.timezone := by
      rw [hapi.zones zoneOf hzones, ← hsession, horganization, of_decide_eq_true ho]
    have hsame := locked_calendar (r₁.trans (r₂.trans hlater)) hlock
    rw [hzone]
    exact (((hvacated hchecked).keep hsame).of_days hdays.symm)
  · exact {
      timeOff := fun x hx => by
        obtain ⟨x₀, hx₀, rfl⟩ := Table.mem_update.mp hx
        split
        · rename_i hkey
          have hfind := Table.find_of_mem i.1.calendar.time_off_pkey hx₀
          rw [List.mem_singleton.mp hkey, ht'] at hfind
          obtain rfl := Option.some.inj hfind
          exact .inr (hemployee ▸ hheld _ hlock)
        · exact .inl hx₀ }

theorem runs_updateTimeOff (hrules : rules.Sound) {api : Api} (hapi : rules.Admits api)
    {session : OfficeSession} (hsession : session.organizationId = api.organizationId) {id : String}
    {body : UpdateTimeOffRequest} :
    Runs (lifecycle rules) (updateTimeOff api session id body) (fun _ _ _ _ => True) held δ d := by
  refine .query fun d₁ r₁ _ => ?_
  split
  · exact .fail
  rename_i existing hread
  have hid : existing.id = id := Table.key_of_find (Option.filter_eq_some_iff.mp hread).1
  rw [← hid] at hread
  refine .ensure fun _ => .transactionBy fun d₂ r₂ _ => .withCalendarLock fun d₃ held r₃ hcalendar => ?_
  have hlock : .calendar existing.employeeId ∈ held := hcalendar _ (by simp)
  have hbefore := r₂.trans r₃
  split
  · exact runs_assertNoBookingsInRange fun d₄ r₄ hfree => runs_writeTimeOff hrules hapi hsession hread
      (hbefore.trans (r₄.weaken (by simp))) hlock fun _ => hfree _ (by
        exact of_decide_eq_true (Option.filter_eq_some_iff.mp hread).2) rfl rfl rfl
  · rename_i hnot
    exact runs_writeTimeOff hrules hapi hsession hread hbefore hlock fun h => absurd h hnot

end BookingApp
