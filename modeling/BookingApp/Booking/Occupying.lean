import BookingApp.Booking.Outcomes
import BookingApp.Booking.Snapshots

/-!
# Writing into a calendar keeps to the protocol

Who writes into the calendar of an employee holds its lock since before it read what
occupies it. So a new booking is clear of the blocked times at its commit, and a new
blocked time of the bookings. The session of a hold is attached with its row locked.
-/

set_option autoImplicit false

namespace BookingApp

open ReadCommitted ReadCommitted.Proto

variable {rules : BookingRules}

section Calendar

variable {held : List Lock} {δ : Db → Db} {d : Db}

theorem runs_lockCalendars {P : Proto store} {ids : List String}
    {Q : Unit → List Lock → (Db → Db) → Db → Prop}
    (h : ∀ d', P.Elapse held d d' → Q () (held ++ ids.map .calendar) δ d') :
    Runs P (lockCalendars ids) Q held δ d := by
  induction ids generalizing held d with
  | nil =>
    have hend := h d .refl
    rw [List.map_nil, List.append_nil] at hend
    exact .ret hend
  | cons id ids ih =>
    refine .readForUpdate fun d₁ r₁ _ => ih fun d₂ r₂ => ?_
    rw [List.append_assoc]
    exact h d₂ (r₁.trans (r₂.weaken fun _ hl => List.mem_append_left _ hl))

/-- In a transaction that begins with the locks of calendars, nothing else is locked at first. -/
theorem Runs.withCalendarLock {P : Proto store} {α : Type} {ids : List String} {fn : Tx α}
    {Q : α → List Lock → (Db → Db) → Db → Prop}
    (h : ∀ d' held, P.Elapse [] d d' → (∀ id ∈ ids, .calendar id ∈ held) →
      Runs P fn Q held δ d') :
    Runs P (BookingApp.withCalendarLock ids fn) Q [] δ d := by
  refine .bind (runs_lockCalendars fun d₁ r₁ => h d₁ _ r₁ fun id hid => ?_)
  have hmem : id ∈ ids.dedup.insertionSort (· ≤ ·) :=
    (List.mem_insertionSort _).mpr (List.mem_dedup.mpr hid)
  simpa using hmem

/-- What the snapshot for one slot says of the employee: the leave there was in one state, and the
blocked times in a later one. -/
structure SlotView (api : Api) (employeeId : String) (startsAt : Int)
    (snapshot : AvailabilitySnapshot) (d₀ d : Db) : Prop where
  zone : snapshot.zone = api.timezone
  service : snapshot.service.Valid
  away : ∀ e, Table.find employeeId snapshot.employees = some e → ∀ t ∈ d₀.timeOff,
    t.organizationId = api.organizationId → t.employeeId = employeeId → t.status = .APPROVED →
    let date := instantToLocalDate startsAt api.timezone
    localDateToDateColumn t.startDate < (snapshotWindow date date api.timezone).stop →
    (snapshotWindow date date api.timezone).start ≤ localDateToDateColumn t.endDate →
    ∀ day ∈ eachLocalDate t.startDate t.endDate api.timezone, day ∈ e.timeOffDates
  busy : ∀ e, Table.find employeeId snapshot.employees = some e → ∀ t ∈ d.blockedTimes,
    t.organizationId = api.organizationId → t.employeeId = employeeId →
    let date := instantToLocalDate startsAt api.timezone
    t.startsAt < (snapshotWindow date date api.timezone).stop →
    (snapshotWindow date date api.timezone).start < t.endsAt → t.span ∈ e.busy

theorem runs_loadService {api : Api} {serviceId : String}
    {Q : Service → List Lock → (Db → Db) → Db → Prop}
    (h : ∀ d' service, (lifecycle rules).Elapse held d d' → service.snapshot.Valid →
      Q service held id d') :
    Runs (lifecycle rules) (loadService api serviceId) Q held id d := by
  refine .read fun d₁ r₁ i₁ => ?_
  split
  · exact .fail
  · rename_i service hservice
    obtain ⟨hfind, -⟩ := Option.filter_eq_some_iff.mp hservice
    obtain ⟨hfind, -⟩ := Option.filter_eq_some_iff.mp hfind
    exact .ret (h d₁ service r₁ (Service.valid i₁.1 (Table.mem_of_find hfind)))

theorem runs_loadForSlot {api : Api} {serviceId employeeId : String} {startsAt : Int} {β : Type}
    {k : AvailabilitySnapshot → Tx β} {Q : β → List Lock → (Db → Db) → Db → Prop}
    (h : ∀ d₀ d₁ d' snapshot, (lifecycle rules).Elapse held d d' → (lifecycle rules).Elapse held d₀ d' →
      (lifecycle rules).Elapse held d₁ d' → SlotView api employeeId startsAt snapshot d₀ d₁ →
      Runs (lifecycle rules) (k snapshot) Q held id d') :
    Runs (lifecycle rules) (loadForSlot api serviceId employeeId startsAt >>= k) Q held id d := by
  refine .bind (.bind (runs_loadService fun d₁ service r₁ hvalid => ?_))
  refine .bind (.read fun d₂ r₂ _ => wp_ensure (fun _ => ?_) fun _ => trivial)
  refine .read fun d₃ r₃ _ => .read fun d₄ r₄ _ => .read fun d₅ r₅ _ => .read fun d₆ r₆ _ => ?_
  refine .read fun d₇ r₇ _ => .read fun d₈ r₈ _ => .now fun d₉ r₉ _ instant => .ret ?_
  have r := r₁.trans (r₂.trans (r₃.trans (r₄.trans (r₅.trans (r₆.trans r₇)))))
  refine h d₅ d₇ d₉ _ (r.trans (r₈.trans r₉)) (r₆.trans (r₇.trans (r₈.trans r₉))) (r₈.trans r₉) {
    zone := rfl
    service := hvalid
    away := fun e he t ht ho hemployee happroved => ?_
    busy := fun e he t ht ho hemployee => ?_ }
  · intro date hstart hstop day hday
    obtain rfl := List.mem_singleton.mp (Table.mem_of_find he)
    refine List.mem_flatMap.mpr ⟨t, List.mem_filter.mpr ⟨ht, ?_⟩, hday⟩
    exact decide_eq_true ⟨ho, hemployee, happroved, hstart, hstop⟩
  · intro date hstart hstop
    obtain rfl := List.mem_singleton.mp (Table.mem_of_find he)
    refine List.mem_append_right _ (List.mem_map_of_mem (List.mem_filter.mpr ⟨ht, ?_⟩))
    exact decide_eq_true ⟨ho, hemployee, hstart, hstop⟩

/-- A slot that passes the check is clear of the blocked times that were there. -/
theorem SlotView.clear {api : Api} {employeeId : String} {startsAt : Int}
    {snapshot seen : AvailabilitySnapshot} {d₀ : Db} (h : SlotView api employeeId startsAt snapshot d₀ d)
    (hsteady : api.timezone.ChangesBelow 720) (hzone : seen.zone = snapshot.zone)
    (hemployees : seen.employees = snapshot.employees) (hvalid : seen.service.Valid)
    (hbookable : isSlotBookable seen employeeId startsAt = .ok true) :
    ∀ t ∈ d.blockedTimes, t.organizationId = api.organizationId → t.employeeId = employeeId →
      (seen.service.block startsAt).overlaps t.span = false := by
  intro t ht ho hemployee
  obtain ⟨e, he, hoffer⟩ := offerable_of_isSlotBookable hvalid hbookable
  have hseen := hzone.trans h.zone
  rw [hemployees] at he
  refine hoffer.clear (hseen ▸ hsteady) ?_
  rw [hseen]
  exact h.busy e he t ht ho hemployee

/-- A booking of a slot that passes the check lies within one day, which no leave that there was
lists. -/
theorem SlotView.duty {api : Api} {employeeId : String} {startsAt : Int}
    {snapshot seen : AvailabilitySnapshot} {d₀ d₁ d' : Db}
    (h : SlotView api employeeId startsAt snapshot d₀ d₁) (hzone : seen.zone = snapshot.zone)
    (hemployees : seen.employees = snapshot.employees) (hvalid : seen.service.Valid)
    (hbookable : isSlotBookable seen employeeId startsAt = .ok true) {b : Booking}
    (hstartsAt : b.startsAt = startsAt) (hblock : b.block = seen.service.block startsAt)
    (horganization : b.organizationId = api.organizationId) (hemployee : b.employeeId = employeeId)
    (hsame : ∀ t ∈ d'.timeOff, t.employeeId = employeeId → t ∈ d₀.timeOff) :
    OnDuty api.timezone b d' := by
  obtain ⟨e, he, hoffer⟩ := offerable_of_isSlotBookable hvalid hbookable
  rw [hemployees] at he
  have hdate := hzone.trans h.zone
  have hday : ∀ u, b.blockStartsAt ≤ u → u < b.blockEndsAt →
      api.timezone.dateOf u = api.timezone.dateOf startsAt := by
    intro u hstart hstop
    have hu := hoffer.dateOf_block (u := u) (by rw [← hblock]; exact hstart) (by rw [← hblock]; exact hstop)
    rwa [hdate] at hu
  refine ⟨hstartsAt ▸ hday, fun t ht ho hte happroved hfrom hto hmem => ?_⟩
  subst hstartsAt
  have hlisted := h.away e he t (hsame t ht (hte.trans hemployee)) (ho.trans horganization)
    (hte.trans hemployee) happroved
  have hfirst := addLocalDays_bounds (z := api.timezone) (api.timezone.dateOf b.startsAt) (-1)
  have hlast := addLocalDays_bounds (z := api.timezone) (api.timezone.dateOf b.startsAt) (1 + 1)
  simp only [snapshotWindow, WINDOW_PADDING_DAYS, localDateToDateColumn, instantToLocalDate] at hlisted
  have hpresent := hoffer.present
  rw [hdate] at hpresent
  exact hpresent (hlisted (by omega) (by omega) _ hmem)

theorem runs_assertSlotBookable {P : Proto store} {snapshot : AvailabilitySnapshot} {employeeId message : String}
    {startsAt : Int} {β : Type} {k : Unit → Tx β} {Q : β → List Lock → (Db → Db) → Db → Prop}
    (h : isSlotBookable snapshot employeeId startsAt = .ok true →
      Runs P (k ()) Q held δ d) :
    Runs P (assertSlotBookable snapshot employeeId startsAt message >>= k) Q held δ d := by
  refine .bind (.ofExcept fun bookable hbookable => wp_ensure (fun htrue => h ?_) fun _ => trivial)
  cases hslot : isSlotBookable snapshot employeeId startsAt with
  | ok answer =>
    rw [hslot] at hbookable
    cases hbookable
    rw [htrue]
  | error e =>
    rw [hslot] at hbookable
    cases hbookable

end Calendar

section Reserving

variable {held : List Lock} {δ : Db → Db} {d : Db}

theorem runs_claimIdempotencyKey {P : Proto store} {key : Option String}
    {Q : Option String → List Lock → (Db → Db) → Db → Prop}
    (h : ∀ d' keyId ids, P.Elapse held d d' →
      Q keyId (held ++ ids.map .booking)
        (fun x => (δ x).onBookings (Table.update ids fun b => { b with idempotencyKeyId := none })) d') :
    Runs P (claimIdempotencyKey key) Q held δ d := by
  cases key with
  | none =>
    have hend := h d none [] .refl
    simp only [Table.update_none, List.map_nil, List.append_nil, Db.onBookings] at hend
    exact .ret hend
  | some key =>
    refine .read fun d₁ r₁ _ => ?_
    split
    · exact .fail
    · exact .updateMany fun d₂ r₂ _ => .ret (h d₂ _ _ (r₁.trans r₂))

theorem runs_bindIdempotencyKey {P : Proto store} {keyId : Option String} {bookingId : String}
    {Q : Unit → List Lock → (Db → Db) → Db → Prop}
    (h : ∀ d' f more, P.Elapse held d d' →
      Q () (held ++ more) (fun x => (δ x).onIdempotencyKeys f) d') :
    Runs P (bindIdempotencyKey keyId bookingId) Q held δ d := by
  cases keyId with
  | none =>
    have hend := h d id [] .refl
    rw [List.append_nil] at hend
    exact .ret hend
  | some keyId =>
    refine .modify fun d₁ r₁ _ _ => .discard (wp_orThrow (fun _ _ => ?_) fun _ => trivial)
    exact h d₁ _ _ r₁

/-- Arming the expiry announces nothing. -/
theorem runs_armExpiry {P : Proto store} {b : Booking} {Q : Unit → List Lock → (Db → Db) → Db → Prop}
    (h : ∀ d' events, P.Elapse held d d' → announcements events = [] →
      Q () held (fun x => (δ x).onOutbox (· ++ events)) d') :
    Runs P (armExpiry b) Q held δ d := by
  unfold armExpiry
  split
  · have hend := h d [] .refl rfl
    simp only [List.append_nil] at hend
    exact .ret hend
  · exact wp_insertAt (fun _ _ _ => trivial) fun d₁ r₁ _ => h d₁ [_] r₁.elapse rfl

/-- What the office books is announced at once. -/
theorem runs_announce {P : Proto store} {api : Api} {actor : ReserveActor} {b : Booking}
    {Q : Option String → List Lock → (Db → Db) → Db → Prop}
    (h : ∀ d' token tokens events, P.Elapse held d d' →
      (∀ t ∈ tokens, t.bookingId = b.id) →
      (announcements events = [] ∨ announcements events = [b.id] ∧ actor ≠ .CUSTOMER) →
      Q token held (fun x => ((δ x).onTokens (· ++ tokens)).onOutbox (· ++ events)) d') :
    Runs P (announce api actor b) Q held δ d := by
  cases actor with
  | CUSTOMER =>
    have hend := h d none [] [] .refl (by simp) (.inl rfl)
    simp only [List.append_nil] at hend
    exact .ret hend
  | OFFICE officeUserId =>
    refine .bind (.answer fun d₁ r₁ _ token => .insertAt fun d₂ r₂ _ => .ret ?_)
    refine .insertAt fun d₃ r₃ _ => .ret (h d₃ _ [_] [_] (r₁.trans (r₂.trans r₃)) ?_ ?_)
    · exact fun t ht => by rw [List.mem_singleton.mp ht]
    · exact .inr ⟨rfl, by simp⟩

/-- What a new booking is made of, whoever books. -/
structure IsNew (b : Booking) (input : ReserveInput) (api : Api)
    (service : AvailabilityServiceSnapshot) : Prop where
  organizationId : b.organizationId = api.organizationId
  employeeId : b.employeeId = input.employeeId
  sold : b.sold.Valid
  startsAt : b.startsAt = input.startsAt
  block : b.block = service.block input.startsAt
  status : b.status = if input.actor = .CUSTOMER then .PENDING_PAYMENT else .CONFIRMED
  session : b.stripeCheckoutSessionId = none
  first : b.rescheduledFromBookingId = none
  root : b.financialRootBookingId = none

theorem ReserveInput.isNew {input : ReserveInput} {api : Api} {service : AvailabilityServiceSnapshot}
    {assignment : Assignment} {expiresAt : Option Int} {keyId : Option String} {instant : Int}
    {ids : Answer} (hvalid : service.Valid) :
    IsNew (input.toBooking api service assignment expiresAt keyId instant ids) input api service := by
  obtain ⟨serviceId, employeeId, startsAt, customerId, locale, note, origin, actor, key⟩ := input
  cases actor with
  | CUSTOMER => exact ⟨rfl, rfl, ⟨hvalid.duration, hvalid.prep, hvalid.cleanup⟩, rfl, rfl, rfl, rfl, rfl, rfl⟩
  | OFFICE officeUserId =>
    exact ⟨rfl, rfl, ⟨hvalid.duration, hvalid.prep, hvalid.cleanup⟩, rfl, rfl, rfl, rfl, rfl, rfl⟩

theorem forActor_same (snapshot : AvailabilitySnapshot) (actor : ReserveActor) :
    (forActor snapshot actor).zone = snapshot.zone ∧
      (forActor snapshot actor).employees = snapshot.employees ∧
      (forActor snapshot actor).service = snapshot.service := by
  cases actor <;> exact ⟨rfl, rfl, rfl⟩

/-- A reservation holds the calendar from before it reads what occupies it. -/
theorem runs_insertOnce (hrules : rules.Sound) {api : Api} (hapi : rules.Admits api)
    {input : ReserveInput} {expiresAt : Option Int} {p : Point} :
    Runs (lifecycle rules) (insertOnce api input expiresAt)
      ((lifecycle rules).Commits p fun result _ _ d' =>
        input.actor = .CUSTOMER → Attachable result.booking.id d') [] id d := by
  refine .withCalendarLock fun d₁ held _ hcalendar => runs_loadForSlot
    fun d₀ d₁' d₂ snapshot _ hleave hseen hview => runs_assertSlotBookable fun hbookable => ?_
  refine .bind (.read fun d₃ r₃ _ => ?_)
  split
  · exact .fail
  refine .ofExcept fun price _ => .ret (.bind (runs_claimIdempotencyKey fun d₄ keyId ids r₄ => ?_))
  refine .now fun d₅ r₅ _ instant => .answer fun d₆ r₆ _ answer => ?_
  dsimp only
  generalize hb : input.toBooking api snapshot.service _ expiresAt keyId instant answer = b
  have hnew : IsNew b input api snapshot.service := hb ▸ ReserveInput.isNew hview.service
  refine .ensure fun htransition => .insertAt fun d₇ r₇ _ => ?_
  refine .bind (runs_bindIdempotencyKey fun d₈ bind more r₈ => .bind (runs_armExpiry
    fun d₉ armed r₉ hsilent => .insertAt fun d₁₀ r₁₀ _ => .bind (runs_announce
      fun d₁₁ token tokens events r₁₁ htokens hannounced => .ret fun d' r i ha hl => ?_)))
  have r₅' : (lifecycle rules).Elapse held d₄ d' :=
    ((r₅.trans (r₆.trans (r₇.trans r₈))).weaken fun _ hl => List.mem_append_left _ hl).trans
      ((r₉.trans (r₁₀.trans (r₁₁.trans r.elapse))).weaken fun _ hl =>
        List.mem_append_left _ (List.mem_append_left _ hl))
  have hsame := locked_calendar (hseen.trans (r₃.trans (r₄.trans r₅'))) (hcalendar input.employeeId (by simp))
  have hsame' := locked_calendar (hleave.trans (r₃.trans (r₄.trans r₅'))) (hcalendar input.employeeId (by simp))
  have hcreated : Created b (input.actor.created b) tokens (armed ++ events) := {
    status := htransition
    history := ⟨rfl, rfl, rfl⟩
    tokens := htokens
    announced := by
      rw [announcements_append, hsilent, List.nil_append]
      exact hannounced.imp_right fun h => ⟨h.1, by rw [hnew.status, if_neg h.2]⟩
    session := hnew.session }
  obtain ⟨hzone, hemployees, hservice⟩ := forActor_same snapshot input.actor
  have hclear : rules.Vacant b d' := {
    clear := fun hclears t ht ho hemployee => by
      rw [hnew.organizationId] at ho
      rw [hnew.employeeId] at hemployee
      have hfree := hview.clear (rules.steady hclears _ hapi.zone) hzone hemployees
        (hservice ▸ hview.service) hbookable t (hsame.blockedTimes t ht hemployee) ho hemployee
      rwa [hservice, ← hnew.block] at hfree
    duty := fun zoneOf hzones => by
      rw [hnew.organizationId, ← hapi.zones zoneOf hzones]
      exact hview.duty hzone hemployees (hservice ▸ hview.service) hbookable hnew.startsAt
        (hservice ▸ hnew.block) hnew.organizationId hnew.employeeId hsame'.timeOff }
  refine ⟨lifecycle_guarantee hrules i (.reserved b ids (bind d'.idempotencyKeys) (input.actor.created b)
    tokens (armed ++ events) hcreated hnew.sold hclear hnew.first hnew.root ?_) (of_decide_eq_true hl) ?_, ?_⟩
  · simp [Db.onOutbox, Db.onTokens, Db.onHistory, Db.onIdempotencyKeys, Db.onBookings]
  · exact {
      booking := fun id hid x hx => by
        have hnot : id ∉ ids := fun h => hid (by simp [h])
        exact Table.find_append_of_some
          ((Table.find_update_of_notMem (by exact fun _ => rfl) hnot).trans hx)
      created := fun x hx => by
        rcases List.mem_append.mp hx with hold | hlast
        · obtain ⟨x₀, hx₀, rfl⟩ := Table.mem_update.mp hold
          refine .inl ⟨x₀, hx₀, ?_⟩
          split <;> rfl
        · rw [List.mem_singleton.mp hlast, hnew.employeeId]
          exact .inr (by simp [hcalendar]) }
  · intro hcustomer
    have hlegal := of_decide_eq_true hl
    refine ⟨b, Table.find_of_mem hlegal.bookings.pkey (List.mem_append_right _ ?_), fun _ => ?_⟩
    · exact List.mem_singleton_self b
    · rw [hnew.status, if_pos hcustomer]
      decide

theorem Runs.refuseOverlap {P : Proto store} {α : Type} {constraint message : String} {body : Tx α}
    {Q : α → List Lock → (Db → Db) → Db → Prop} (h : Runs P body Q held δ d) :
    Runs P (BookingApp.refuseOverlap constraint message body) Q held δ d := by
  refine .tryCatch h fun e held δ d => ?_
  split <;> exact .fail

theorem runs_assertWithinWindow {P : Proto store} {api : Api} {startsAt : Int} {message : String}
    {Q : Unit → List Lock → (Db → Db) → Db → Prop}
    (h : ∀ d', P.Elapse held d d' → Q () held δ d') :
    Runs P (assertWithinWindow api startsAt message) Q held δ d :=
  .now fun d₁ r₁ _ _ => wp_ensure (fun _ => h d₁ r₁) fun _ => trivial

/-- A reservation, whatever its commit is labelled with. -/
theorem runs_reserveAt (hrules : rules.Sound) {api : Api} (hapi : rules.Admits api)
    {input : ReserveInput} {p : Point} :
    Runs (lifecycle rules) (reserveAt p api input) (fun result _ _ d' =>
      input.actor = .CUSTOMER → Attachable result.booking.id d') held id d := by
  have hinsert : ∀ expiresAt held δ d, Runs (lifecycle rules)
      (withSerializationRetry fun _ => insertBooking p api input expiresAt) (fun result _ _ d' =>
        input.actor = .CUSTOMER → Attachable result.booking.id d') held δ d :=
    fun expiresAt held δ d => .withSerializationRetry fun _ _ _ _ _ => .refuseOverlap
      (.withRetry fun _ _ _ _ _ => .transaction fun _ _ _ => runs_insertOnce hrules hapi)
  refine .bind (.discard (runs_loadService fun d₁ service r₁ _ => ?_))
  refine .bind ?_
  unfold assertWithinBookingWindow reservationExpiry
  split
  · exact runs_assertWithinWindow fun d₂ r₂ =>
      .bind (.now fun d₃ r₃ _ _ => .ret (hinsert _ _ _ _))
  · exact .ret (.bind (.ret (hinsert _ _ _ _)))

/-- Where a booking stands in the calendar is one of its terms. -/
theorem sameCalendar_of_terms {b b' : Booking} (h : b.terms = b'.terms) :
    b.organizationId = b'.organizationId ∧ b.employeeId = b'.employeeId ∧ b.block = b'.block := by
  change b.terms.organizationId = b'.terms.organizationId ∧
    b.terms.employeeId = b'.terms.employeeId ∧ b.terms.block = b'.terms.block
  rw [h]
  exact ⟨rfl, rfl, rfl⟩

/-- A blocked time is written into a calendar whose appointments it was found not to meet. -/
theorem runs_createBlockedTimeOnce (hrules : rules.Sound) {session : OfficeSession}
    {body : CreateBlockedTimeRequest} :
    Runs (lifecycle rules) (createBlockedTimeOnce session body)
      ((lifecycle rules).Commits .plain fun _ _ _ _ => True) [] id d := by
  refine .withCalendarLock fun d₁ held _ hcalendar => .read fun d₂ r₂ _ => ?_
  split
  · exact .fail
  rename_i hnone
  refine .freshId fun d₃ r₃ _ id => .insertAt fun d₄ r₄ _ => .ret fun d' r i ha hl => ?_
  have hsame := locked_calendar (r₃.trans (r₄.trans r.elapse)) (hcalendar body.employeeId (by simp))
  refine ⟨lifecycle_guarantee hrules i (.blocked _ (fun b hb ho hemployee hblocks => ?_) rfl)
    (of_decide_eq_true hl) ?_, trivial⟩
  · obtain ⟨b₀, hb₀, hblocks₀, hterms⟩ := hsame.bookings b hb hemployee.symm hblocks
    have hclash := List.find?_eq_none.mp hnone b₀ hb₀
    obtain ⟨ho₀, hemployee₀, hblock⟩ := sameCalendar_of_terms hterms
    rw [← ho] at ho₀
    rw [← hemployee] at hemployee₀
    rw [← hblock, ← Bool.not_eq_true, Interval.overlaps_iff]
    rintro ⟨-, -, hstart, hstop⟩
    exact hclash (decide_eq_true ⟨ho₀, hemployee₀, hblocks₀, hstart, hstop⟩)
  · exact {
      blockedTimes := fun t ht => by
        rcases List.mem_append.mp ht with hold | hlast
        · exact .inl hold
        · rw [List.mem_singleton.mp hlast]
          exact .inr (hcalendar _ (by simp)) }

theorem runs_createBlockedTime (hrules : rules.Sound) {session : OfficeSession}
    {body : CreateBlockedTimeRequest} :
    Runs (lifecycle rules) (createBlockedTime session body) (fun _ _ _ _ => True) held δ d :=
  .ensure fun _ => .read fun _ _ _ => .ensure fun _ => .refuseOverlap
    (.transaction fun _ _ _ => runs_createBlockedTimeOnce hrules)

end Reserving

section Attaches

variable {b : Booking} {sessionId : String} {d d' : Db}

/-- Naming a session touches the row of the booking only. -/
theorem Attaches.frame {held : List Lock} {bookings : List Booking}
    (h : Attaches b sessionId d.bookings bookings) (hbookings : d'.bookings = bookings)
    (hl : .booking b.id ∈ held) :
    (∀ id, .booking id ∉ held → SameRow Db.bookings id d d') ∧
      ∀ x ∈ d'.bookings, (∃ x₀ ∈ d.bookings, x₀.id = x.id) ∨ .calendar x.employeeId ∈ held := by
  cases h with
  | again hsession =>
    exact ⟨fun id _ r hr => hbookings ▸ hr, fun x hx => .inl ⟨x, hbookings ▸ hx, rfl⟩⟩
  | first hnone hunpaid =>
    exact ⟨frame_booking hbookings (fun _ => rfl) hl, frame_created hbookings fun _ => rfl⟩

/-- Afterwards the booking names the session. -/
theorem Attaches.names {bookings : List Booking} (h : Attaches b sessionId d.bookings bookings)
    (hb : Table.find b.id d.bookings = some b) (hbookings : d'.bookings = bookings) :
    Names b.id sessionId d' := by
  rw [Names, hbookings]
  cases h with
  | again hsession => exact ⟨b, hb, .inl hsession⟩
  | first hnone hunpaid =>
    rw [Table.find_update_of_mem (by exact fun _ => rfl) (by simp), hb]
    exact ⟨_, rfl, .inl rfl⟩

end Attaches

/-- What naming a session does to the bookings. -/
theorem runs_nameSession {b : Booking} {sessionId : String} {held : List Lock} {δ : Db → Db} {d : Db}
    (hunpaid : b.stripeCheckoutSessionId = none → b.status ∈ UNPAID_BOOKING_STATUSES)
    (hsession : b.stripeCheckoutSessionId = none ∨ b.stripeCheckoutSessionId = some sessionId)
    {Q : Unit → List Lock → (Db → Db) → Db → Prop}
    (h : ∀ d' name more, (lifecycle rules).Elapse held d d' →
      (∀ bookings, Attaches b sessionId bookings (name bookings)) →
      Q () (held ++ more) (fun x => (δ x).onBookings name) d') :
    Runs (lifecycle rules) (nameSession b sessionId) Q held δ d := by
  unfold nameSession
  split
  · refine .discard (wp_updateBookingAt (fun _ _ => trivial) fun d₁ r₁ _ _ _ _ => ?_)
    exact h d₁ _ [.booking b.id] r₁.elapse fun _ => .first ‹_› (hunpaid ‹_›)
  · have hagain := h d id [] .refl fun _ => .again (hsession.resolve_left ‹_›)
    rw [List.append_nil] at hagain
    exact .ret hagain

/-- What opening a payment for the session does to the payments. -/
theorem runs_openPayment {b : Booking} {sessionId : String} {stripeAccountId : Option String}
    {held : List Lock} {δ : Db → Db} {d : Db} {Q : Unit → List Lock → (Db → Db) → Db → Prop}
    (h : ∀ d' more, (lifecycle rules).Elapse held d d' →
      (∀ payments, Opens sessionId b.id payments (payments ++ more)) →
      Q () held (fun x => (δ x).onPayments (· ++ more)) d') :
    Runs (lifecycle rules) (openPayment b sessionId stripeAccountId) Q held δ d := by
  refine .freshId fun d₁ r₁ _ id => .now fun d₂ r₂ _ createdAt =>
    wp_modify (fun _ _ _ => trivial) fun d₃ r₃ _ _ => ?_
  have r := r₁.trans (r₂.trans r₃.elapse)
  rw [List.append_nil]
  split
  · have hagain := h d₃ [] r fun payments => (List.append_nil payments).symm ▸ .again
    simp only [List.append_nil] at hagain
    exact hagain
  · exact h d₃ [_] r fun _ => .first _ rfl rfl rfl rfl

/-- Attaching a session leaves it named, unless the booking was paid for. -/
theorem runs_attach (hrules : rules.Sound) {booking : Booking} {sessionId : String}
    {stripeAccountId : Option String} {held : List Lock} {δ : Db → Db} {d : Db}
    (ha : Attachable booking.id d) :
    Runs (lifecycle rules) (attach booking sessionId stripeAccountId)
      (fun _ _ _ d' => Names booking.id sessionId d') held δ d := by
  refine .withSerializationRetry fun _ _ _ d₁ r₁ => .transaction fun d₂ r₂ _ => ?_
  refine .bind (.discard (.lockRow_ret (fun d₃ r₃ _ hnone => ?_) fun d₃ b r₃ _ hb => ?_))
  · obtain ⟨b, hb, -⟩ := elapse_attachable (r₁.trans (r₂.trans r₃)) ha
    cases hb.symm.trans hnone
  have hid : b.id = booking.id := Table.key_of_find hb
  rw [← hid] at hb
  obtain ⟨x, hx, hunpaid⟩ := elapse_attachable (r₁.trans (r₂.trans r₃)) ha
  obtain rfl : b = x := Option.some.inj (hb.symm.trans (hid ▸ hx))
  refine .read fun d₄ r₄ _ => .orThrow fun row hrow => .ensure fun hsession => ?_
  have hb₄ := (locked_booking r₄ (by simp)).row b hb
  obtain rfl : b = row := Option.some.inj (hb₄.symm.trans (hid ▸ hrow))
  refine .bind (runs_nameSession hunpaid hsession fun d₅ name more r₅ hattaches => ?_)
  refine .bind (runs_openPayment fun d₆ payments r₆ hopens => ?_)
  refine .read fun d₇ r₇ i₇ => .orThrow fun payment hpayment => wp_ensure (fun hown => ?_) fun _ => trivial
  intro d' r i hassume hl
  have r₅' := r₆.trans (r₇.trans r.elapse)
  have hb₅ := (locked_booking r₅ (by simp)).row b hb₄
  have hb' := (locked_booking r₅' (by simp)).row b hb₅
  have hpaid : ∃ p ∈ d'.payments ++ payments,
      p.stripeCheckoutSessionId = some sessionId ∧ p.bookingId = booking.id := by
    have hnamed : payment.stripeCheckoutSessionId = some sessionId := by
      simpa using List.find?_some hpayment
    rcases List.mem_append.mp (List.mem_of_find?_eq_some hpayment) with hold | hnew
    · obtain ⟨p, hp, howned⟩ := elapse_hasPayment r.elapse ⟨payment, hold, hnamed, hown.1⟩
      exact ⟨p, List.mem_append_left _ hp, howned⟩
    · exact ⟨payment, List.mem_append_right _ hnew, hnamed, hown.1⟩
  refine ⟨lifecycle_guarantee hrules i (.attached b sessionId (name d'.bookings) (d'.payments ++ payments)
    (hid ▸ hassume) hb' (hattaches _) (hid ▸ hopens _) (hid ▸ hpaid) rfl) (of_decide_eq_true hl) ?_, ?_⟩
  · exact {
      booking := ((hattaches d'.bookings).frame (by rfl) (by simp)).1
      created := ((hattaches d'.bookings).frame (by rfl) (by simp)).2
      payment := fun id _ => samePayment_append id rfl rfl }
  · exact hid ▸ (hattaches d'.bookings).names hb' rfl

/-- Whoever was handed the link of a session is named on the booking by then. -/
theorem runs_createSessionForReservation (hrules : rules.Sound) {api : Api}
    {organization : ChargeOrganization} {booking : Booking} {body : CheckoutBody}
    {idempotencyKey : Option String} {held : List Lock} {δ : Db → Db} {d : Db}
    (ha : Attachable booking.id d) :
    Runs (lifecycle rules) (createSessionForReservation api organization booking body idempotencyKey)
      (fun _ _ _ _ => True) held δ d := by
  refine .ensure fun _ => .ofExcept fun account _ => .ofExcept fun input _ => ?_
  refine .now fun d₁ r₁ _ instant => runs_callProvider hrules (fun choice state id he =>
    (api.payments.createCheckoutSession_outcome _ choice state).ended he) fun d₂ choice sessionId r₂ _ => ?_
  have ha₂ : Attachable booking.id d₂ := elapse_attachable (r₁.trans r₂) ha
  refine .bind (.mono (runs_attach hrules ha₂) fun _ held δ d₃ hnamed d' r i => ?_)
  obtain ⟨b, hb, hstill⟩ := elapse_names r.elapse hnamed
  have hid : b.id = booking.id := Table.key_of_find hb
  exact ⟨lifecycle_guarantee hrules i (.handed b sessionId (hid ▸ hb) hstill (by rw [hid]; rfl))
    (i.1.onCheckouts _) {}, trivial⟩

theorem runs_clockNow (hrules : rules.Sound) {β : Type} {k : Int → Tx β} {held : List Lock}
    {δ : Db → Db} {d : Db} {Q : β → List Lock → (Db → Db) → Db → Prop}
    (h : ∀ d', (lifecycle rules).Elapse held d d' → Runs (lifecycle rules) (k d'.clock) Q held δ d') :
    Runs (lifecycle rules) (clockNow >>= k) Q held δ d :=
  .bind (.map (wp_call fun d₁ r₁ i₁ => ⟨lifecycle_unchanged hrules i₁, h d₁ r₁.elapse⟩))

/-- A hold that is resumed waits for its payment, so a session can be attached to it. -/
theorem runs_resume (hrules : rules.Sound) {api : Api} {bound : Option String} {d : Db}
    {Q : Option Booking → List Lock → (Db → Db) → Db → Prop} (hnone : ∀ d', Q none [] id d')
    (hsome : ∀ d' b, Attachable b.id d' → Q (some b) [] id d') :
    Runs (lifecycle rules) (resume api bound) Q [] id d := by
  cases bound with
  | none => exact .ret (hnone d)
  | some bookingId =>
    refine runs_clockNow hrules fun d₁ r₁ => wp_query (fun _ _ _ => trivial) fun d₂ r₂ i₂ => ?_
    cases hb : (findIn Booking.organizationId api.organizationId bookingId d₂.bookings).filter
        fun b => decide (b.Resumable d₁.clock) with
    | none => exact hnone d₂
    | some b =>
      obtain ⟨hfind, hlive⟩ := Option.filter_eq_some_iff.mp hb
      obtain ⟨hfind, -⟩ := Option.filter_eq_some_iff.mp hfind
      have hid : b.id = bookingId := Table.key_of_find hfind
      refine hsome d₂ b ⟨b, hid ▸ hfind, fun _ => ?_⟩
      rw [(of_decide_eq_true hlive).1]
      decide

/-- What an attempt at a key does once it has begun. -/
theorem runs_createBooking (hrules : rules.Sound) {api : Api} (hapi : rules.Admits api)
    {organization : ChargeOrganization} {input : ReserveInput} {body : CheckoutBody} {key : String}
    {held : List Lock} {δ : Db → Db} {d : Db} :
    Runs (lifecycle rules) (createBooking api organization input body key) (fun _ _ _ _ => True)
      held δ d := by
  have hopen : ∀ b held δ d, Attachable b.id d → Runs (lifecycle rules) (do
      let sessionId ← createSessionForReservation api organization b body (some key)
      ensure (S := store) (b.expiresAt ≠ none) (internalError "Reservation has no expiry.")
      return { body := s!"{b.id} {b.reference} {sessionId}", bookingId := some b.id : Response })
      (fun _ _ _ _ => True) held δ d :=
    fun b held δ d ha => .bind (.mono (runs_createSessionForReservation hrules ha) fun _ _ _ _ _ =>
      .ensure fun _ => .ret trivial)
  refine .ensure fun _ => .query fun d₁ _ _ => .bind (runs_resume hrules (fun d₂ => ?_)
    fun d₂ b ha => .bind (.ret (hopen b _ _ _ ha)))
  exact .bind (.map (.mono (runs_reserveAt hrules hapi) fun result held δ d ha =>
    hopen result.booking held δ d (ha rfl)))

theorem runs_endSession (hrules : rules.Sound) {sessionId : String} {held : List Lock}
    {δ : Db → Db} {d : Db} :
    Runs (lifecycle rules) (endSession sessionId) (fun _ _ _ _ => True) held δ d :=
  fun _ _ i => ⟨lifecycle_guarantee hrules i (.called _ (fun _ he => he.closeSession sessionId) rfl)
    (i.1.onProvider _) {}, trivial⟩

end BookingApp
