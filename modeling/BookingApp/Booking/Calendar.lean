import BookingApp.Booking.Histories
import Mathlib.Data.Int.Range

/-!
# Who occupies an employee

No two blocking bookings of an employee meet, and none meets a blocked time, in every
run. None lies within an approved leave as long as leave that is approved without a
look at the appointments is still approved when that commits, and the days of the leave
are the ones that are listed.
-/

set_option autoImplicit false

namespace BookingApp

open ReadCommitted ReadCommitted.Proto

section Occupancy

variable {rules : BookingRules} {d d' : Db}

/-- What was sold is sold with times that a service can have. -/
theorem SoldTerms.commit (hs : SoldTerms d) (h : Commit rules d d') : SoldTerms d' := by
  intro b' hb'
  rcases h.booking hb' with ⟨b, hb, hid⟩ | hnew
  · rw [← sold_of_terms (h.terms hb hb' hid)]
    exact hs b hb
  · cases hnew with
    | reserved _ hsold => exact hsold
    | replaced old hold _ _ _ hsold =>
      rw [hsold]
      exact hs old (Table.mem_of_find hold)

/-- A blocked time was there, or it is new and meets no blocking booking, and then no booking is new. -/
theorem Change.blockedTime (h : Change rules d d') {t : BlockedTime} (ht : t ∈ d'.blockedTimes) :
    t ∈ d.blockedTimes ∨ d'.bookings = d.bookings ∧ ∀ b ∈ d.bookings, t.organizationId = b.organizationId →
      t.employeeId = b.employeeId → b.Blocks → b.block.overlaps t.span = false := by
  cases h with
  | blocked x hclear hd =>
    rw [hd] at ht
    rcases List.mem_append.mp ht with hold | hnew
    · exact .inl hold
    · exact .inr ⟨by rw [hd], List.mem_singleton.mp hnew ▸ hclear⟩
  | _ =>
    rename_i hd
    exact .inl (by rwa [hd] at ht)

/-- Where a booking stands decides which times it is clear of. -/
theorem Clear.of_terms {b b' : Booking} (h : Clear b d) (hterms : b.terms = b'.terms) : Clear b' d := by
  obtain ⟨ho, hemployee, hblock⟩ := sameCalendar_of_terms hterms
  unfold Clear at h ⊢
  rwa [ho, hemployee, hblock] at h

/-- A commit leaves the blocking bookings clear of the blocked times. -/
theorem Commit.clear (hclears : rules.clears) (h : Commit rules d d')
    (hc : ∀ b ∈ d.bookings, b.Blocks → Clear b d) : ∀ b' ∈ d'.bookings, b'.Blocks → Clear b' d' := by
  intro b' hb' hblocks t ht ho hemployee
  rcases h.change.blockedTime ht with hold | ⟨hsame, hclear⟩
  · rcases h.booking hb' with ⟨b, hb, hid⟩ | hnew
    · obtain ⟨hblocks₀, hterms⟩ := h.blocks hb hb' hid hblocks
      exact ((hc b hb hblocks₀).of_terms hterms) t hold ho hemployee
    · cases hnew with
      | reserved _ _ hvacant => exact hvacant.clear hclears t hold ho hemployee
      | replaced _ _ _ _ _ _ hvacant => exact hvacant.clear hclears t hold ho hemployee
  · exact hclear b' (hsame ▸ hb') ho hemployee hblocks

theorem soldTerms_moving : SoldTerms .moving := by
  intro b hb
  obtain rfl : b = .sample := List.mem_singleton.mp hb
  exact ⟨by decide, by decide, by decide⟩

end Occupancy

section Leave

/-- All the days of the leave are listed. -/
def TimeOff.Listed (z : Zone) (t : TimeOff) : Prop :=
  ∀ date, t.startDate ≤ date → date ≤ t.endDate → date ∈ eachLocalDate t.startDate t.endDate z

instance (z : Zone) (t : TimeOff) : Decidable (t.Listed z) :=
  Int.decidableLELE (fun date => date ∈ eachLocalDate t.startDate t.endDate z) _ _

/-- The leave that is approved at this commit, and whether appointments were looked at. -/
def Point.approvedLeave : Point → Option (TimeOff × Bool)
  | .leave row checked => if row.status = .APPROVED then some (row, checked) else none
  | _ => none

/-- Leave is approved whose days are all listed, and without a look at the appointments only if it
is approved already. -/
def checkedLeaves (zoneOf : String → Zone) : Conditions store where
  Assume p d := ∀ l ∈ p.approvedLeave, l.1.Listed (zoneOf l.1.organizationId) ∧
    (l.2 = false → (Table.find l.1.id d.timeOff).map TimeOff.status = some .APPROVED)
  Stable _ _ _ := True
  Fault _ _ := True

instance (zoneOf : String → Zone) : (checkedLeaves zoneOf).Checkable where
  assume p d := inferInstanceAs (Decidable (∀ l ∈ p.approvedLeave, l.1.Listed (zoneOf l.1.organizationId) ∧
    (l.2 = false → (Table.find l.1.id d.timeOff).map TimeOff.status = some .APPROVED)))
  stable _ _ _ := .isTrue trivial
  fault _ _ := .isTrue trivial

/-- The rules under which leave is looked at, in the zone of each organization. -/
def leaveRules (zoneOf : String → Zone) : BookingRules where
  conditions := checkedLeaves zoneOf
  invariant := SoldTerms
  refunds := True
  zones := some zoneOf
  known _ _ h := h

variable {zoneOf : String → Zone} {d d' : Db}

theorem leaveRules_sound : (leaveRules zoneOf).Sound where
  kept _ _ h hs := hs.commit h
  reports _ _ _ _ _ _ _ _ _ := trivial

theorem leaveRules_handles (h : (leaveRules zoneOf).refunds) : (leaveRules zoneOf).Handles :=
  .of_forall leaveRules_sound h fun _ _ => trivial

/-- No blocking booking of an employee overlaps the local days of an approved leave. -/
def NoBookingOnLeave (zoneOf : String → Zone) (d : Db) : Prop :=
  ∀ b ∈ d.bookings, b.Blocks → ∀ t ∈ d.timeOff, t.organizationId = b.organizationId →
    t.employeeId = b.employeeId → t.status = .APPROVED → ∀ u, b.blockStartsAt ≤ u → u < b.blockEndsAt →
      ¬ (t.startDate ≤ (zoneOf b.organizationId).dateOf u ∧ (zoneOf b.organizationId).dateOf u ≤ t.endDate)

/-- Each blocking booking lies within a local day, which is none of an approved leave, and the days of
that leave are listed. -/
structure LeaveKept (zoneOf : String → Zone) (d : Db) : Prop where
  day : ∀ b ∈ d.bookings, b.Blocks → ∀ u, b.blockStartsAt ≤ u → u < b.blockEndsAt →
    (zoneOf b.organizationId).dateOf u = (zoneOf b.organizationId).dateOf b.startsAt
  listed : ∀ t ∈ d.timeOff, t.status = .APPROVED → t.Listed (zoneOf t.organizationId)
  apart : ∀ b ∈ d.bookings, b.Blocks → ∀ t ∈ d.timeOff, t.organizationId = b.organizationId →
    t.employeeId = b.employeeId → t.status = .APPROVED →
      ¬ (t.startDate ≤ (zoneOf b.organizationId).dateOf b.startsAt ∧
        (zoneOf b.organizationId).dateOf b.startsAt ≤ t.endDate)

theorem LeaveKept.noBooking (h : LeaveKept zoneOf d) : NoBookingOnLeave zoneOf d := by
  intro b hb hblocks t ht ho hemployee happroved u hstart hstop
  rw [h.day b hb hblocks u hstart hstop]
  exact h.apart b hb hblocks t ht ho hemployee happroved

/-- An approved leave was approved before, or its days are listed and free of bookings, none of which
is new. -/
theorem Change.approvedLeave (h : Change (leaveRules zoneOf) d d') (hlegal : Legal d) {t' : TimeOff}
    (ht' : t' ∈ d'.timeOff) (happroved : t'.status = .APPROVED) :
    (∃ t ∈ d.timeOff, t.status = .APPROVED ∧ t'.days = t.days) ∨
      t'.Listed (zoneOf t'.organizationId) ∧ Vacated (zoneOf t'.organizationId) t' d ∧
        d'.bookings = d.bookings := by
  cases h with
  | leaveTaken t hassume hvacated hd =>
    rw [hd] at ht'
    rcases List.mem_append.mp ht' with hold | hnew
    · exact .inl ⟨t', hold, happroved, rfl⟩
    · obtain rfl := List.mem_singleton.mp hnew
      obtain ⟨hlisted, -⟩ := hassume (t', true) (by simp [Point.approvedLeave, happroved])
      exact .inr ⟨hlisted, hvacated happroved zoneOf rfl, by rw [hd]⟩
  | leaveDecided t f checked ht hid hdays hassume hvacated hd =>
    rw [hd] at ht'
    obtain ⟨x, hx, rfl⟩ := Table.mem_update.mp ht'
    by_cases hkey : Keyed.key x ∈ [t.id]
    · have hfind := Table.find_of_mem hlegal.calendar.time_off_pkey hx
      rw [List.mem_singleton.mp hkey, ht] at hfind
      obtain rfl := Option.some.inj hfind
      rw [if_pos hkey] at happroved ⊢
      obtain ⟨hlisted, hagain⟩ := hassume (f t, checked) (by simp [Point.approvedLeave, happroved])
      cases checked with
      | false =>
        have hstatus := hagain rfl
        dsimp only at hstatus
        rw [hid, ht, Option.map_some, Option.some.injEq] at hstatus
        exact .inl ⟨t, hx, hstatus, hdays t⟩
      | true =>
        have hfree := hvacated rfl happroved zoneOf rfl
        rw [← (columns_of_days (hdays t)).2.1] at hfree
        exact .inr ⟨hlisted, hfree.of_days (hdays t).symm, by rw [hd]⟩
    · rw [if_neg hkey] at happroved ⊢
      exact .inl ⟨x, hx, happroved, rfl⟩
  | _ =>
    rename_i hd
    exact .inl ⟨t', by rwa [hd] at ht', happroved, rfl⟩

/-- A booking that starts on one of the days starts between their ends. -/
theorem Vacated.apart {z : Zone} {t : TimeOff} (h : Vacated z t d) {b : Booking} (hb : b ∈ d.bookings)
    (ho : b.organizationId = t.organizationId) (hemployee : b.employeeId = t.employeeId)
    (hblocks : b.Blocks) : ¬ (t.startDate ≤ z.dateOf b.startsAt ∧ z.dateOf b.startsAt ≤ t.endDate) := by
  rintro ⟨hfrom, hto⟩
  obtain ⟨first, last, hfirst, hlast, hfree⟩ := h
  rw [addLocalDays_one] at hlast
  obtain ⟨hfirst, huniquefirst⟩ := wallClockToInstant_eq_ok.mp hfirst
  obtain ⟨hlast, huniquelast⟩ := wallClockToInstant_eq_ok.mp hlast
  simp only [Nat.cast_zero, zero_mul, add_zero] at hfirst huniquefirst hlast huniquelast
  have hafter := Zone.le_wallClock_iff (t := b.startsAt) hfirst huniquefirst
  have hbefore := Zone.le_wallClock_iff (t := b.startsAt) hlast huniquelast
  have hnot := hfree b hb ho hemployee hblocks
  unfold Zone.dateOf at hfrom hto
  omega

theorem LeaveKept.commit (hk : LeaveKept zoneOf d) (h : Commit (leaveRules zoneOf) d d') :
    LeaveKept zoneOf d' := by
  have hnew : ∀ {b' : Booking}, NewBooking (leaveRules zoneOf) d d' b' →
      OnDuty (zoneOf b'.organizationId) b' d := by
    intro b' hnew
    cases hnew with
    | reserved _ _ hvacant => exact hvacant.duty zoneOf rfl
    | replaced _ _ _ _ _ _ hvacant => exact hvacant.duty zoneOf rfl
  constructor
  · intro b' hb' hblocks u hstart hstop
    rcases h.booking hb' with ⟨b, hb, hid⟩ | hcreated
    · obtain ⟨hblocks₀, hterms⟩ := h.blocks hb hb' hid hblocks
      obtain ⟨ho, -, hblock⟩ := sameCalendar_of_terms hterms
      have hsame := hk.day b hb hblocks₀ u
      rw [ho, startsAt_of_terms hterms] at hsame
      have hfrom : b.blockStartsAt = b'.blockStartsAt := congrArg Interval.start hblock
      have hto : b.blockEndsAt = b'.blockEndsAt := congrArg Interval.stop hblock
      exact hsame (hfrom ▸ hstart) (hto ▸ hstop)
    · exact (hnew hcreated).day u hstart hstop
  · intro t' ht' happroved
    rcases h.change.approvedLeave h.before ht' happroved with ⟨t, ht, hbefore, hdays⟩ | ⟨hlisted, -⟩
    · obtain ⟨-, ho, -, hstart, hend⟩ := columns_of_days hdays
      have hsame := hk.listed t ht hbefore
      unfold TimeOff.Listed at hsame ⊢
      rwa [ho, hstart, hend]
    · exact hlisted
  · intro b' hb' hblocks t' ht' ho hemployee happroved
    rcases h.change.approvedLeave h.before ht' happroved with ⟨t, ht, hbefore, hdays⟩ | ⟨-, hfree, hsame⟩
    · obtain ⟨-, ho', hemployee', hstart, hend⟩ := columns_of_days hdays
      rw [hstart, hend]
      rcases h.booking hb' with ⟨b, hb, hid⟩ | hcreated
      · obtain ⟨hblocks₀, hterms⟩ := h.blocks hb hb' hid hblocks
        obtain ⟨hob, hemployeeb, -⟩ := sameCalendar_of_terms hterms
        rw [← hob, ← startsAt_of_terms hterms]
        exact hk.apart b hb hblocks₀ t ht (ho'.symm.trans (ho.trans hob.symm))
          (hemployee'.symm.trans (hemployee.trans hemployeeb.symm)) hbefore
      · rintro ⟨hfrom, hto⟩
        have horganization : t.organizationId = b'.organizationId := ho'.symm.trans ho
        refine (hnew hcreated).leave t ht horganization (hemployee'.symm.trans hemployee) hbefore hfrom hto ?_
        exact horganization ▸ hk.listed t ht hbefore _ (horganization ▸ hfrom) (horganization ▸ hto)
    · rw [← ho]
      exact hfree.apart (hsame ▸ hb') ho.symm hemployee.symm hblocks

/-- No booking lies within an approved leave, in every run in which leave is approved whose days are
all listed, and without a look at the appointments only if it is approved already. -/
theorem no_booking_on_leave (zoneOf : String → Zone) {d : Db} (hd : Legal d) (hs : SoldTerms d)
    (hk : LeaveKept zoneOf d) {s : Sys store}
    (hrun : Sys.Reach (BookingOperation (leaveRules zoneOf)) (checkedLeaves zoneOf) { db := d } s) :
    NoBookingOnLeave zoneOf s.db :=
  (BookingOperation.invariant leaveRules_sound leaveRules_handles (fun _ _ h hk => hk.commit h) ⟨hd, hs⟩ hk
    hrun).noBooking

/-- The employee is on leave on the day after the appointment, which somebody asks to move there. -/
def Db.onLeave : Db :=
  { Db.moving with
    workingHours := [{
      organizationId := "o", employeeId := "e"
      hours := ⟨.FRIDAY, ⟨540, MinuteOfDay.nine_le⟩, ⟨1020, MinuteOfDay.seventeen_le⟩, []⟩ }]
    timeOff := [{
      id := "l", organizationId := "o", employeeId := "e", startDate := 1, endDate := 1
      status := .APPROVED }]
    rescheduleRequests := [{
      id := "q", organizationId := "o", bookingId := "b", requestedStartsAt := 129600000 }] }

theorem soldTerms_onLeave : SoldTerms .onLeave := soldTerms_moving

theorem leaveKept_onLeave : LeaveKept (fun _ => .utc) .onLeave := by
  constructor
  · intro b hb _ u hstart hstop
    obtain rfl : b = .sample := List.mem_singleton.mp hb
    simp only [Booking.sample] at hstart hstop
    simp only [Zone.dateOf, Zone.wallClock, Zone.utc, Booking.sample]
    omega
  · decide
  · intro b hb _ t ht
    obtain rfl : b = .sample := List.mem_singleton.mp hb
    obtain rfl := List.mem_singleton.mp ht
    decide

/-- The office decides the leave. -/
def decideLeave (status : TimeOffStatus) : Tx Unit :=
  discard (updateTimeOff .sample
    { officeUserId := "u", organizationId := "o", role := .OWNER, employeeId := none } "l" { status })

theorem starts_decideLeave (status : TimeOffStatus) :
    BookingOperation (leaveRules fun _ => .utc) (decideLeave status) :=
  .updateTimeOff .sample _ "l" { status } rfl ⟨trivial, fun _ h => by cases h; rfl, fun _ => trivial⟩

/-- The leave is rejected, and then approved. -/
def leaveReturned : List (Action store) :=
  [.start (decideLeave .REJECTED)] ++ .replicate 4 (.run 0) ++ [.answer 0 {}, .run 0, .run 0] ++
    [.start (decideLeave .APPROVED)] ++ .replicate 5 (.run 1) ++ [.answer 1 {}, .run 1, .run 1]

theorem no_booking_on_leave_sample : ∃ s : Sys store,
    s.db.timeOff.map TimeOff.status = [.APPROVED] ∧ NoBookingOnLeave (fun _ => .utc) s.db := by
  have hexec : (Sys.exec (checkedLeaves fun _ => .utc) { db := Db.onLeave } leaveReturned).map (fun s =>
      s.db.timeOff.map TimeOff.status) = some [.APPROVED] := by rfl
  obtain ⟨s, hs, hstatus⟩ := Option.map_eq_some_iff.mp hexec
  refine ⟨s, hstatus, no_booking_on_leave (fun _ => .utc) (by decide) soldTerms_onLeave leaveKept_onLeave ?_⟩
  refine .exec (fun _ _ => trivial) .refl ?_ hs
  simp [leaveReturned, Sys.Starts, starts_decideLeave]

/-- Leave is read as approved, rejected, booked into, and approved again without a look at the booking. -/
def bookedMeanwhile : List (Action store) :=
  [.start someMove, .start (decideLeave .APPROVED), .run 1, .run 1, .start (decideLeave .REJECTED)] ++
    .replicate 4 (.run 2) ++ [.answer 2 {}, .run 2, .run 2] ++ replacedFirst.tail ++ replacedThen ++
    [.run 1, .run 1, .answer 1 {}, .run 1, .run 1]

/-- An approval that was not needed when it was read lets a booking and the leave meet. -/
theorem booking_on_leave : ¬ ∀ (zoneOf : String → Zone) (d : Db) (s : Sys store), Legal d → SoldTerms d →
    LeaveKept zoneOf d → Sys.Reach (BookingOperation (leaveRules zoneOf)) .none { db := d } s →
    NoBookingOnLeave zoneOf s.db := by
  intro h
  have hexec : (Sys.exec .none { db := Db.onLeave } bookedMeanwhile).map (fun s =>
      (s.db.timeOff[0]?.map fun t => (t.organizationId, t.employeeId, t.status, t.startDate, t.endDate),
        s.db.bookings[1]?.map fun b => (b.organizationId, b.employeeId, b.status, b.block))) =
      some (some ("o", "e", .APPROVED, 1, 1), some ("o", "e", .CONFIRMED, ⟨129600000, 133200000⟩)) := by rfl
  obtain ⟨s, hs, he⟩ := Option.map_eq_some_iff.mp hexec
  obtain ⟨hleave, hbooking⟩ := Prod.mk.inj he
  obtain ⟨t, ht, htime⟩ := Option.map_eq_some_iff.mp hleave
  obtain ⟨b, hb, hblock⟩ := Option.map_eq_some_iff.mp hbooking
  simp only [Prod.mk.injEq] at htime hblock
  obtain ⟨hto, hte, hstatus, hstart, hend⟩ := htime
  obtain ⟨hbo, hbe, hconfirmed, hspan⟩ := hblock
  have hstarts : ∀ a ∈ bookedMeanwhile, Sys.Starts (BookingOperation (leaveRules fun _ => .utc)) a := by
    have hmove : BookingOperation (leaveRules fun _ => .utc) someMove :=
      .decideReschedule .sample _ ⟨trivial, fun _ h => by cases h; rfl, fun _ => trivial⟩
    simp [bookedMeanwhile, replacedFirst, replacedThen, Sys.Starts, hmove, starts_decideLeave]
  have hfrom : b.blockStartsAt = 129600000 := congrArg Interval.start hspan
  have hto' : b.blockEndsAt = 133200000 := congrArg Interval.stop hspan
  refine h (fun _ => .utc) _ s (by decide) soldTerms_onLeave leaveKept_onLeave
    (.exec (fun _ _ => trivial) .refl hstarts hs) b (List.mem_of_getElem? hb) ?_ t
    (List.mem_of_getElem? ht) (hto.trans hbo.symm) (hte.trans hbe.symm) hstatus 129600000
    (by omega) (by omega) ⟨?_, ?_⟩
  · rw [Booking.Blocks, hconfirmed]
    decide
  · rw [hstart]
    exact (by decide : (1 : Int) ≤ Zone.utc.dateOf 129600000)
  · rw [hend]
    exact (by decide : Zone.utc.dateOf 129600000 ≤ (1 : Int))

end Leave

end BookingApp
