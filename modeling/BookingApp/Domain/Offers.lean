import BookingApp.Domain.Slots

/-!
# The offered list and the booking-time check

`generateAvailability_lists` is soundness and completeness of the offered list,
`isSlotBookable_iff_listed` says that the check a reservation makes is the same
list, and `isSlotBookable_spec` is what a reservation can rely on.
-/

set_option autoImplicit false

namespace BookingApp

variable {s : AvailabilitySnapshot} {employee : EmployeeSnapshot} {first last date t : Int}
  {id : String}

/-- The engine lists `t` for `id` on `date` exactly when `date` lies in the clamped range and some
employee with that id can take it by the rule. -/
theorem generateAvailability_lists (hs : s.service.Valid)
    (hinterval : 0 < s.settings.schedulingIntervalMinutes) (hmid : s.MidnightsExist first last) :
    ∃ result, generateAvailability s first last = .ok result ∧ ∀ date id t,
      result.Lists date id t ↔ (s.rangeStart first ≤ date ∧ date ≤ s.rangeEnd last) ∧
        ∃ employee ∈ s.employees, employee.employeeId = id ∧ Offerable s employee date t := by
  obtain ⟨result, hresult⟩ := generateAvailability_isOk hinterval first last
  exact ⟨result, hresult, fun date id t => lists_iff hs hmid hresult⟩

theorem Zone.utc_hasMidnight (date : Int) : Zone.utc.HasMidnight date :=
  ⟨date * 86400000, by simp [Zone.wallClock, Zone.utc]⟩

/-- A Thursday with one employee, who works from nine to one with a break at ten and is blocked
at noon. -/
def sampleSnapshot : AvailabilitySnapshot where
  zone := .utc
  now := 0
  settings := ⟨30, 0, 7⟩
  service := ⟨"massage", 30, 10, 10⟩
  closedDates := []
  employees := [{
    employeeId := "mara"
    workingHours :=
      [⟨.THURSDAY, ⟨540, MinuteOfDay.nine_le⟩, ⟨780, MinuteOfDay.thirteen_le⟩,
        [⟨⟨600, MinuteOfDay.ten_le⟩, ⟨610, by omega⟩⟩]⟩]
    exceptions := []
    timeOffDates := []
    busy := [⟨43200000, 43800000⟩] }]

theorem sampleSnapshot_valid : sampleSnapshot.service.Valid :=
  ⟨by decide, by decide, by decide⟩

theorem generateAvailability_lists_sample :
    ∃ result, generateAvailability sampleSnapshot 0 0 = .ok result ∧ ∀ date id t,
      result.Lists date id t ↔
        (sampleSnapshot.rangeStart 0 ≤ date ∧ date ≤ sampleSnapshot.rangeEnd 0) ∧
          ∃ employee ∈ sampleSnapshot.employees, employee.employeeId = id ∧
            Offerable sampleSnapshot employee date t :=
  generateAvailability_lists sampleSnapshot_valid (by decide)
    ⟨Zone.utc_hasMidnight _, fun d _ _ => Zone.utc_hasMidnight d⟩

/-- A start lies on the date it is offered on: midnight of the next date leaves no room. -/
theorem Offerable.dateOf_eq (hs : s.service.Valid) (h : Offerable s employee date t) :
    s.zone.dateOf t = date := by
  obtain ⟨segment, -, ⟨start, stop, -, hstop, -, hfits⟩, -, -, k, minute, -, hle, hplaced⟩ :=
    h.segment
  have hlater : t < stop := by
    obtain ⟨⟨hd, -⟩, -, ⟨hc, -⟩⟩ := hs
    unfold AvailabilityServiceSnapshot.block at hfits
    dsimp only at hfits
    omega
  have hminute : minute.val < 1440 := by
    by_contra hge
    have hend : segment.endMinute.val = minute.val := by
      have := segment.endMinute.property
      omega
    have := hplaced.2 stop (by rw [← hend]; exact hstop.1)
    omega
  rw [Zone.dateOf_eq, hplaced.1]
  omega

/-- The whole block of an offered start lies on its date. -/
theorem Offerable.dateOf_block (h : Offerable s employee date t) {u : Int}
    (hstart : (s.service.block t).start ≤ u) (hstop : u < (s.service.block t).stop) :
    s.zone.dateOf u = date := by
  obtain ⟨segment, -, ⟨start, stop, hfirst, hlast, hfrom, hto⟩, -, -⟩ := h.segment
  have hmax := segment.endMinute.property
  have hafter := (Zone.le_wallClock_iff hfirst.1 hfirst.2).mpr (hfrom.trans hstart)
  have hbefore := mt (Zone.le_wallClock_iff (t := u) hlast.1 hlast.2).mp (by omega)
  rw [Zone.dateOf_eq]
  omega

/-- The block of an offered start lies within a day of its date, in UTC. -/
theorem Offerable.block_bounds (h : Offerable s employee date t) :
    (date - 1) * 86400000 < (s.service.block t).start ∧
      (s.service.block t).stop < (date + 2) * 86400000 := by
  obtain ⟨segment, -, ⟨start, stop, hstart, hstop, hfrom, hto⟩, -, -⟩ := h.segment
  have hs := s.zone.offset_bound start
  have he := s.zone.offset_bound stop
  have hlast := segment.endMinute.property
  have hwall := hstart.1
  have hwall' := hstop.1
  unfold Zone.wallClock at hwall hwall'
  omega

theorem offerable_employees (employees : List EmployeeSnapshot) :
    Offerable { s with employees } employee date t ↔ Offerable s employee date t := by
  have hoffers : ∀ segment : Segment,
      segment.Offers { s with employees } date t ↔ segment.Offers s date t :=
    fun _ => ⟨fun h => ⟨h.inside, h.breaks, h.grid⟩, fun h => ⟨h.inside, h.breaks, h.grid⟩⟩
  constructor
  · rintro ⟨hopen, hpresent, ⟨segment, hsegment, h⟩, hnotice, hfree⟩
    exact ⟨hopen, hpresent, ⟨segment, hsegment, (hoffers segment).mp h⟩, hnotice, hfree⟩
  · rintro ⟨hopen, hpresent, ⟨segment, hsegment, h⟩, hnotice, hfree⟩
    exact ⟨hopen, hpresent, ⟨segment, hsegment, (hoffers segment).mpr h⟩, hnotice, hfree⟩

/-- A start that passes the booking-time check is one the rule offers. -/
theorem offerable_of_isSlotBookable (hs : s.service.Valid) (h : isSlotBookable s id t = .ok true) :
    ∃ employee, Table.find id s.employees = some employee ∧
      Offerable s employee (s.zone.dateOf t) t := by
  unfold isSlotBookable at h
  cases hfind : Table.find id s.employees with
  | none =>
    rw [hfind] at h
    cases h
  | some employee =>
    rw [hfind] at h
    unfold generateAvailability at h
    dsimp only at h
    generalize eachLocalDate _ _ _ = dates at h
    cases hdays : dates.mapM (daySlots { s with employees := [employee] }
        (AvailabilitySnapshot.earliestStart { s with employees := [employee] })) with
    | error e =>
      rw [hdays] at h
      cases h
    | ok days =>
      rw [hdays] at h
      simp only [bind, Except.bind, pure, Except.pure, Except.ok.injEq, List.any_eq_true,
        decide_eq_true_eq] at h
      obtain ⟨slot, hslot, hstart⟩ := h
      obtain ⟨day, hday, hslot⟩ : ∃ pair ∈ days, slot ∈ pair.1.slots := by
        cases days with
        | nil => simp at hslot
        | cons pair rest => exact ⟨pair, List.mem_cons_self, by simpa using hslot⟩
      obtain ⟨d, -, out, hout, rfl⟩ :=
        (exists_mem_of_mapM_eq_ok hdays (p := fun b => b = day)).mp ⟨day, hday, rfl⟩
      obtain ⟨id', hid'⟩ := List.exists_mem_of_ne_nil _ (employeeIds_ne_nil hout slot hslot)
      obtain ⟨e, he, -, hoffer⟩ := (mem_daySlots (s := { s with employees := [employee] }) hs
        hout).2.mp ⟨slot, hslot, hstart, hid'⟩
      rw [List.mem_singleton] at he
      rw [he, offerable_employees] at hoffer
      exact ⟨employee, rfl, by rwa [hoffer.dateOf_eq hs]⟩

/-- What the booking-time check answers. -/
theorem isSlotBookable_eq_true (hs : s.service.Valid)
    (hmid : s.MidnightsExist (s.zone.dateOf t) (s.zone.dateOf t)) :
    isSlotBookable s id t = .ok true ↔
      ∃ employee, Table.find id s.employees = some employee ∧
        (s.today ≤ s.zone.dateOf t ∧ s.zone.dateOf t ≤ s.today + s.settings.bookingHorizonDays) ∧
        Offerable s employee (s.zone.dateOf t) t := by
  unfold isSlotBookable
  cases hfind : Table.find id s.employees with
  | none => simp [pure, Except.pure]
  | some employee =>
    simp only [Option.some.injEq, exists_eq_left', instantToLocalDate]
    have hmid' : AvailabilitySnapshot.MidnightsExist { s with employees := [employee] }
        (s.zone.dateOf t) (s.zone.dateOf t) := ⟨hmid.today, hmid.range⟩
    cases hgen : generateAvailability { s with employees := [employee] } (s.zone.dateOf t)
        (s.zone.dateOf t) with
    | error e =>
      -- only a grid without a positive interval fails, and then nothing can be offered
      simp only [bind, Except.bind, reduceCtorEq, false_iff, not_and]
      intro _ hoffer
      obtain ⟨-, -, hgrid⟩ := hoffer.segment.choose_spec.2
      obtain ⟨result, hresult⟩ := generateAvailability_isOk
        (s := { s with employees := [employee] }) hgrid.1 (s.zone.dateOf t) (s.zone.dateOf t)
      rw [hresult] at hgen
      cases hgen
    | ok result =>
      have hlists : ∀ date id, result.Lists date id t ↔ _ := fun date id =>
        lists_iff (s := { s with employees := [employee] }) hs hmid' hgen
      have hlength := length_days hmid' hgen
      have hany : ((result.days[0]?.map DaySlots.slots).getD []).any
            (fun slot => decide (slot.startsAt = t)) = true ↔
          ∃ day ∈ result.days, ∃ slot ∈ day.slots, slot.startsAt = t := by
        have hone : result.days.length ≤ 1 := by
          rw [hlength]
          unfold AvailabilitySnapshot.rangeStart AvailabilitySnapshot.rangeEnd
          omega
        match hdays : result.days with
        | [] => simp
        | [day] => simp
        | _ :: _ :: _ => simp [hdays] at hone
      simp only [bind, Except.bind, pure, Except.pure, Except.ok.injEq, hany]
      have hrange : ∀ d, AvailabilitySnapshot.rangeStart { s with employees := [employee] }
            (s.zone.dateOf t) ≤ d ∧ d ≤ AvailabilitySnapshot.rangeEnd { s with employees := [employee] }
            (s.zone.dateOf t) ↔ d = s.zone.dateOf t ∧ s.today ≤ s.zone.dateOf t ∧
              s.zone.dateOf t ≤ s.today + s.settings.bookingHorizonDays := by
        intro d
        unfold AvailabilitySnapshot.rangeStart AvailabilitySnapshot.rangeEnd
          AvailabilitySnapshot.today
        dsimp only
        omega
      constructor
      · rintro ⟨day, hday, slot, hslot, hstart⟩
        obtain ⟨id', hid'⟩ := exists_employee_of_mem_slots hmid' hgen hday hslot
        obtain ⟨hin, e, he, -, hoffer⟩ :=
          (hlists day.date id').mp ⟨day, hday, rfl, slot, hslot, hstart, hid'⟩
        obtain ⟨hdate, hwindow⟩ := (hrange _).mp hin
        rw [List.mem_singleton] at he
        rw [he, hdate, offerable_employees] at hoffer
        exact ⟨hwindow, hoffer⟩
      · rintro ⟨hwindow, hoffer⟩
        obtain ⟨day, hday, -, slot, hslot, hstart, -⟩ :=
          (hlists (s.zone.dateOf t) employee.employeeId).mpr
            ⟨(hrange _).mpr ⟨rfl, hwindow⟩, employee, List.mem_singleton_self _, rfl,
              (offerable_employees _).mpr hoffer⟩
        exact ⟨day, hday, slot, hslot, hstart⟩

/-- The booking-time check answers yes exactly when the list of every range around the start's
local date names the employee. -/
theorem isSlotBookable_iff_listed (hs : s.service.Valid)
    (hids : (s.employees.map EmployeeSnapshot.employeeId).Nodup)
    (hmid : ∀ d, min first (min s.today (s.today + s.settings.bookingHorizonDays)) ≤ d →
      d ≤ max last (max s.today (s.today + s.settings.bookingHorizonDays)) → s.zone.HasMidnight d)
    (hfirst : first ≤ s.zone.dateOf t) (hlast : s.zone.dateOf t ≤ last) :
    isSlotBookable s id t = .ok true ↔
      ∃ result, generateAvailability s first last = .ok result ∧ ∃ date, result.Lists date id t := by
  have hmidOn : ∀ f l, first ≤ f → f ≤ last → first ≤ l → l ≤ last → s.MidnightsExist f l := by
    intro f l hf hf' hl hl'
    refine ⟨hmid _ (by omega) (by omega), fun d hd hd' => hmid d ?_ ?_⟩ <;>
      unfold AvailabilitySnapshot.rangeStart AvailabilitySnapshot.rangeEnd at hd hd' <;> omega
  have hmidDay := hmidOn _ _ hfirst hlast hfirst hlast
  have hmidRange := hmidOn first last (le_refl _) (by omega) (by omega) (le_refl _)
  rw [isSlotBookable_eq_true hs hmidDay]
  constructor
  · rintro ⟨employee, hfind, hwindow, hoffer⟩
    obtain ⟨-, -, hgrid⟩ := hoffer.segment.choose_spec.2
    obtain ⟨result, hresult⟩ := generateAvailability_isOk hgrid.1 first last
    refine ⟨result, hresult, s.zone.dateOf t, (lists_iff hs hmidRange hresult).mpr ⟨?_, employee,
      Table.mem_of_find hfind, Table.key_of_find hfind, hoffer⟩⟩
    unfold AvailabilitySnapshot.rangeStart AvailabilitySnapshot.rangeEnd
    omega
  · rintro ⟨result, hresult, date, hlists⟩
    obtain ⟨hin, employee, hmem, rfl, hoffer⟩ := (lists_iff hs hmidRange hresult).mp hlists
    have hdate := hoffer.dateOf_eq hs
    subst hdate
    refine ⟨employee, Table.find_of_mem hids hmem, ?_, hoffer⟩
    · unfold AvailabilitySnapshot.rangeStart AvailabilitySnapshot.rangeEnd at hin
      omega

/-- Half past ten is offered and bookable. -/
theorem isSlotBookable_iff_listed_sample :
    isSlotBookable sampleSnapshot "mara" 37800000 = .ok true ∧
      ∃ result, generateAvailability sampleSnapshot (-1) 1 = .ok result ∧
        ∃ date, result.Lists date "mara" 37800000 :=
  ⟨rfl, (isSlotBookable_iff_listed sampleSnapshot_valid (by decide)
    (fun d _ _ => Zone.utc_hasMidnight d) (by decide) (by decide)).mp rfl⟩

end BookingApp
