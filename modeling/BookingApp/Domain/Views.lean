import BookingApp.Domain.Dates
import BookingApp.Domain.Offers
import BookingApp.Domain.Rearranged

/-!
# The office's view and the customers' (`domain/availability/office-view.ts`)

Both views come from one engine with two settings changed. The notice filters
the starts and nothing else depends on it; the horizon ends the enumeration of
the dates, so the views agree as far as that enumeration is complete.
-/

set_option autoImplicit false

namespace BookingApp

section Traversal

variable {α β γ ε : Type}

theorem mapM_map (f : α → Except ε β) (g : β → γ) (l : List α) :
    l.mapM (fun a => (f a).map g) = (l.mapM f).map (List.map g) := by
  induction l with
  | nil => rfl
  | cons a l ih =>
    rw [List.mapM_cons, List.mapM_cons, ih]
    cases f a with
    | error e => rfl
    | ok b =>
      cases l.mapM f with
      | error e => rfl
      | ok out => rfl

end Traversal

variable {s : AvailabilitySnapshot} {employee : EmployeeSnapshot} {date earliest later : Int}

section Notice

/-- Of the starts those that respect a later bound. -/
def respecting (later : Int) (out : List Int × List SkippedLocalTime) :
    List Int × List SkippedLocalTime :=
  (out.1.filter fun t => decide (later ≤ t), out.2)

theorem candidateStart_later (h : earliest ≤ later) (pieces : List Interval) (minute : MinuteOfDay) :
    candidateStart s employee date later pieces minute =
      (candidateStart s employee date earliest pieces minute).filter fun t => decide (later ≤ t) := by
  unfold candidateStart
  cases wallClockToInstant date minute s.zone with
  | skipped reason => rfl
  | ok t =>
    have haccepts : acceptsStart s employee later pieces t =
        (acceptsStart s employee earliest pieces t && decide (later ≤ t)) := by
      unfold acceptsStart
      by_cases hlater : later ≤ t
      · have hearliest : ¬t < earliest := not_lt.mpr (h.trans hlater)
        simp [hlater, hearliest, not_lt.mpr hlater]
      · simp [hlater, not_le.mp hlater]
    simp only [haccepts, Bool.and_eq_true, decide_eq_true_eq]
    by_cases ha : acceptsStart s employee earliest pieces t = true
    · by_cases hlater : later ≤ t <;> simp [ha, hlater, Option.filter]
    · simp [ha]

theorem segmentSlotsFor_later (h : earliest ≤ later) (segment : Segment) :
    segmentSlotsFor s employee date later segment =
      (segmentSlotsFor s employee date earliest segment).map (respecting later) := by
  unfold segmentSlotsFor
  dsimp only
  split
  · split
    · rfl
    · cases gridMinutes segment s.settings.schedulingIntervalMinutes with
      | error e => rfl
      | ok minutes =>
        refine congrArg Except.ok (Prod.ext ?_ rfl)
        dsimp only [respecting]
        rw [List.filter_filterMap]
        exact List.filterMap_congr fun minute _ => candidateStart_later h _ minute
  · rfl

/-- The notice only filters the starts of an employee. -/
theorem employeeSlotsFor_later (h : earliest ≤ later) :
    employeeSlotsFor s employee date later =
      (employeeSlotsFor s employee date earliest).map (respecting later) := by
  unfold employeeSlotsFor
  split
  · rfl
  · have hsegments : segmentSlotsFor s employee date later =
        fun segment => (segmentSlotsFor s employee date earliest segment).map (respecting later) :=
      funext fun segment => segmentSlotsFor_later h segment
    rw [hsegments, mapM_map]
    cases (segmentsFor employee date s.zone).mapM (segmentSlotsFor s employee date earliest) with
    | error e => rfl
    | ok out =>
      refine congrArg Except.ok (Prod.ext ?_ ?_)
      · dsimp only [respecting]
        rw [List.flatMap_map, List.filter_flatMap]
        rfl
      · dsimp only [respecting]
        rw [List.flatMap_map]
        rfl

/-- A customer can start when the office could and the notice is kept. -/
theorem canStart_iff (hnotice : 0 ≤ s.settings.minimumNoticeHours) {t : Int} :
    s.CanStart employee date t ↔
      (asOfficeSnapshot s).CanStart employee date t ∧ s.earliestStart ≤ t := by
  have hle : (asOfficeSnapshot s).earliestStart ≤ s.earliestStart := by
    show s.now + 0 * 3600000 ≤ s.now + s.settings.minimumNoticeHours * 3600000
    omega
  have hoffice : employeeSlotsFor (asOfficeSnapshot s) employee date =
      employeeSlotsFor s employee date := rfl
  unfold AvailabilitySnapshot.CanStart
  rw [hoffice, employeeSlotsFor_later hle, and_assoc]
  refine and_congr_right fun _ => ?_
  cases employeeSlotsFor s employee date (asOfficeSnapshot s).earliestStart with
  | error e => simp [Except.map]
  | ok out => simp [Except.map, respecting]

end Notice

section Horizon

/-- The dates that the engine goes through. -/
def AvailabilitySnapshot.listedDates (s : AvailabilitySnapshot) (first last : Int) : List Int :=
  eachLocalDate (if first < s.today then s.today else first)
    (if last > s.horizonEnd then s.horizonEnd else last) s.zone

/-- The result lists what the employees can start on the dates gone through. -/
theorem lists_iff_canStart {first last : Int} {result : AvailabilityResult}
    (h : generateAvailability s first last = .ok result) {id : String} {t : Int} :
    result.Lists date id t ↔ date ∈ s.listedDates first last ∧
      ∃ employee ∈ s.employees, employee.employeeId = id ∧ s.CanStart employee date t := by
  obtain ⟨days, hdays, hresult⟩ := bind_eq_ok.mp h
  cases hresult
  have hlisted : AvailabilityResult.Lists { days := days.map Prod.fst, skipped := days.flatMap Prod.snd }
      date id t ↔ ∃ pair ∈ days, pair.1.date = date ∧
        ∃ slot ∈ pair.1.slots, slot.startsAt = t ∧ id ∈ slot.employeeIds := by
    simp only [AvailabilityResult.Lists, List.mem_map, exists_exists_and_eq_and]
  rw [hlisted, exists_mem_of_mapM_eq_ok hdays]
  constructor
  · rintro ⟨d, hd, out, hout, hdate, slot, hslot, rfl, hid⟩
    obtain ⟨hd', hmerges⟩ := merges_daySlots hout
    obtain ⟨employee, hemployee, hid', hstart⟩ := (hmerges.union slot hslot id).mp hid
    rw [hdate] at hstart
    rw [hd'] at hdate
    exact ⟨hdate ▸ hd, employee, hemployee, hid', hstart⟩
  · rintro ⟨hd, employee, hemployee, rfl, hstart⟩
    obtain ⟨out, hout⟩ := exists_ok_of_mapM_eq_ok hdays hd
    obtain ⟨hdate, hmerges⟩ := merges_daySlots hout
    obtain ⟨slot, hslot, rfl⟩ := hmerges.complete employee hemployee t (by rwa [hdate])
    refine ⟨date, hd, out, hout, hdate, slot, hslot, rfl, ?_⟩
    exact (hmerges.union slot hslot _).mpr ⟨employee, hemployee, rfl, by rwa [hdate]⟩

/-- The dates of the customers' view that the office's view has too, as far as the horizon goes. -/
def AvailabilitySnapshot.AgreesOn (s : AvailabilitySnapshot) (first last date : Int) : Prop :=
  date ∈ s.listedDates first last ↔
    date ∈ (asOfficeSnapshot s).listedDates first last ∧
      date ≤ s.today + s.settings.bookingHorizonDays

variable {first last : Int}

/-- Where today's midnight exists, and every midnight before the customers' last date, the views
agree on all dates. -/
theorem agreesOn_of_midnights (hhorizon : s.settings.bookingHorizonDays ≤ 365)
    (htoday : s.zone.HasMidnight s.today)
    (hmid : ∀ d, s.rangeStart first ≤ d → d < s.rangeEnd last → s.zone.HasMidnight d) (date : Int) :
    s.AgreesOn first last date := by
  have hend : s.horizonEnd = s.today + s.settings.bookingHorizonDays := addLocalDays_eq htoday
  have hoffice : (asOfficeSnapshot s).horizonEnd = s.today + 3650 := addLocalDays_eq htoday
  obtain ⟨start, hstart⟩ : ∃ d, d = s.rangeStart first := ⟨_, rfl⟩
  obtain ⟨stop, hstop⟩ : ∃ d, d = s.rangeEnd last := ⟨_, rfl⟩
  have hown : s.listedDates first last = eachLocalDate start stop s.zone := by
    unfold AvailabilitySnapshot.listedDates
    rw [hend, hstart, hstop]
    unfold AvailabilitySnapshot.rangeStart AvailabilitySnapshot.rangeEnd
    congr 1 <;> omega
  obtain ⟨officeStop, hofficeStop⟩ : ∃ d, d = min last (s.today + 3650) := ⟨_, rfl⟩
  have htheirs : (asOfficeSnapshot s).listedDates first last =
      eachLocalDate start officeStop s.zone := by
    unfold AvailabilitySnapshot.listedDates
    rw [hoffice, hstart, hofficeStop]
    unfold AvailabilitySnapshot.rangeStart
    show eachLocalDate (if first < s.today then s.today else first) _ _ = _
    congr 1 <;> omega
  rw [← hstart, ← hstop] at hmid
  unfold AvailabilitySnapshot.rangeEnd at hstop
  unfold AvailabilitySnapshot.AgreesOn
  rw [hown, htheirs]
  constructor
  · intro hd
    have hbounds := bounds_of_mem_eachLocalDate hd
    obtain ⟨n, hle, hn⟩ := mem_eachLocalDate_iff.mp hd
    refine ⟨mem_eachLocalDate_iff.mpr ⟨n, hle.trans (parseLocalDate_mono (by omega)), hn⟩, by omega⟩
  · rintro ⟨hd, hlimit⟩
    have hbounds := bounds_of_mem_eachLocalDate hd
    have hwithin : date ≤ stop := by omega
    rw [(eachLocalDate_eq_datesFrom (by omega)).mpr (cursorAfter_le_of_midnights (by omega) hmid),
      datesFrom, List.mem_map]
    exact ⟨(date - start).toNat, List.mem_range.mpr (by omega), by omega⟩

/-- A start is listed under its own local date. -/
theorem dateOf_of_lists (hs : s.service.Valid) {result : AvailabilityResult}
    (h : generateAvailability s first last = .ok result) {id : String} {t : Int}
    (hlists : result.Lists date id t) : s.zone.dateOf t = date := by
  obtain ⟨-, employee, -, -, hopen, out, hout, ht⟩ := (lists_iff_canStart h).mp hlists
  exact ((mem_employeeSlotsFor hs hopen hout).mp ht).dateOf_eq hs

/-- When the customers' view is the part of the office's view that notice and horizon leave: when
both go through the same dates of the horizon, as far as there is anything to offer on them; so
wherever the midnights before the customers' last date exist. -/
theorem customers_view_iff (hnotice : 0 ≤ s.settings.minimumNoticeHours)
    (hhorizon : s.settings.bookingHorizonDays ≤ 365) {own office : AvailabilityResult}
    (hown : generateAvailability s first last = .ok own)
    (hoffice : generateAvailability (asOfficeSnapshot s) first last = .ok office) :
    ((∀ date id t, own.Lists date id t ↔ office.Lists date id t ∧
        s.now + s.settings.minimumNoticeHours * 3600000 ≤ t ∧
        date ≤ s.today + s.settings.bookingHorizonDays) ↔
      ∀ date, (∃ employee ∈ s.employees, ∃ t, s.CanStart employee date t) →
        s.AgreesOn first last date) ∧
    (s.zone.HasMidnight s.today →
      (∀ d, s.rangeStart first ≤ d → d < s.rangeEnd last → s.zone.HasMidnight d) →
      ∀ date, s.AgreesOn first last date) ∧
    (s.service.Valid → ∀ date id t, own.Lists date id t ∨ office.Lists date id t →
      s.zone.dateOf t = date) := by
  refine ⟨⟨fun hviews date hoffer => ?_, fun hagree date id t => ?_⟩, fun htoday hmid date =>
    agreesOn_of_midnights hhorizon htoday hmid date, fun hs date id t hlists => ?_⟩
  · obtain ⟨employee, hemployee, t, hstart⟩ := hoffer
    have hboth := (canStart_iff hnotice).mp hstart
    have hview := hviews date employee.employeeId t
    rw [lists_iff_canStart hown, lists_iff_canStart hoffice] at hview
    constructor
    · intro hd
      obtain ⟨⟨hd', -⟩, -, hlimit⟩ := hview.mp ⟨hd, employee, hemployee, rfl, hstart⟩
      exact ⟨hd', hlimit⟩
    · rintro ⟨hd, hlimit⟩
      exact (hview.mpr ⟨⟨hd, employee, hemployee, rfl, hboth.1⟩, hboth.2, hlimit⟩).1
  · rw [lists_iff_canStart hown, lists_iff_canStart hoffice]
    constructor
    · rintro ⟨hd, employee, hemployee, hid, hstart⟩
      obtain ⟨hd', hlimit⟩ := (hagree date ⟨employee, hemployee, t, hstart⟩).mp hd
      obtain ⟨htheirs, hearly⟩ := (canStart_iff hnotice).mp hstart
      exact ⟨⟨hd', employee, hemployee, hid, htheirs⟩, hearly, hlimit⟩
    · rintro ⟨⟨hd, employee, hemployee, hid, htheirs⟩, hearly, hlimit⟩
      have hstart : s.CanStart employee date t := (canStart_iff hnotice).mpr ⟨htheirs, hearly⟩
      exact ⟨(hagree date ⟨employee, hemployee, t, hstart⟩).mpr ⟨hd, hlimit⟩, employee, hemployee,
        hid, hstart⟩
  · rcases hlists with hlists | hlists
    · exact dateOf_of_lists hs hown hlists
    · exact @dateOf_of_lists (asOfficeSnapshot s) date first last hs office hoffice id t hlists

theorem customers_view_sample : ∃ own office, generateAvailability sampleSnapshot 0 9 = .ok own ∧
    generateAvailability (asOfficeSnapshot sampleSnapshot) 0 9 = .ok office ∧
    ∀ date id t, own.Lists date id t ↔
      office.Lists date id t ∧ 0 + 0 * 3600000 ≤ t ∧ date ≤ sampleSnapshot.today + 7 := by
  obtain ⟨own, hown⟩ := generateAvailability_isOk (s := sampleSnapshot) (by decide) 0 9
  obtain ⟨office, hoffice⟩ := generateAvailability_isOk (s := asOfficeSnapshot sampleSnapshot)
    (by decide) 0 9
  obtain ⟨hiff, hmidnights, -⟩ :=
    customers_view_iff (s := sampleSnapshot) (by decide) (by decide) hown hoffice
  exact ⟨own, office, hown, hoffice, hiff.mpr fun date _ =>
    hmidnights (Zone.utc_hasMidnight _) (fun d _ _ => Zone.utc_hasMidnight d) date⟩

/-- On 2 January 1970, whose midnight the clocks skip, an employee works on the Saturday after. -/
def skippedToday : AvailabilitySnapshot where
  zone := .forward 86400000
  now := 86400000
  settings := ⟨60, 0, 1⟩
  service := ⟨"massage", 60, 0, 0⟩
  closedDates := []
  employees := [{
    employeeId := "mara"
    workingHours := [⟨.SATURDAY, ⟨540, MinuteOfDay.nine_le⟩, ⟨600, MinuteOfDay.ten_le⟩, []⟩]
    exceptions := []
    timeOffDates := []
    busy := [] }]

/-- The Saturday is within the horizon and the office is shown its slot, the customers are not. -/
theorem customers_view_misses :
    generateAvailability skippedToday 1 3 = .ok ⟨[⟨1, []⟩], []⟩ ∧
      generateAvailability (asOfficeSnapshot skippedToday) 1 3 =
        .ok ⟨[⟨1, []⟩, ⟨2, [⟨201600000, 205200000, ["mara"]⟩]⟩], []⟩ ∧
      skippedToday.now + skippedToday.settings.minimumNoticeHours * 3600000 ≤ 201600000 ∧
      skippedToday.zone.dateOf 201600000 = 2 ∧
      2 ≤ skippedToday.today + skippedToday.settings.bookingHorizonDays :=
  ⟨rfl, rfl, by decide, rfl, by decide⟩

end Horizon

end BookingApp
