import BookingApp.Booking.Snapshots

/-!
# What the window of a snapshot leaves out (`AvailabilitySnapshotService.window`)

The rows of a snapshot are read through a window around its dates. What it leaves out does not
matter as long as the first date lies in the window as a whole: closures, exceptions and leave are
looked up by their dates, and what is busy outside of the window overlaps no block of a slot.
-/

set_option autoImplicit false

namespace BookingApp

open ReadCommitted Code

section Rows

variable (api : Api) (d : Db)

/-- All there is of an employee, whatever its dates. -/
def employeeOf (employeeId : String) : EmployeeSnapshot where
  employeeId
  workingHours := (d.workingHours.filter fun h =>
    decide (h.organizationId = api.organizationId ∧ h.employeeId = employeeId)).map WorkingHours.hours
  exceptions := (d.availabilityExceptions.filter fun e =>
    decide (e.organizationId = api.organizationId ∧ e.employeeId = employeeId)).map
      AvailabilityException.exception
  timeOffDates := (d.timeOff.filter fun t =>
    decide (t.organizationId = api.organizationId ∧ t.employeeId = employeeId ∧
      t.status = .APPROVED)).flatMap fun t => eachLocalDate t.startDate t.endDate api.timezone
  busy := (d.bookings.filter fun b =>
      decide (b.organizationId = api.organizationId ∧ b.employeeId = employeeId ∧ b.Blocks)).map Booking.block ++
    (d.blockedTimes.filter fun t =>
      decide (t.organizationId = api.organizationId ∧ t.employeeId = employeeId)).map BlockedTime.span

/-- The snapshot of all rows of several employees. -/
def snapshotOf (instant : Int) (service : Service) (employeeIds : List String) : AvailabilitySnapshot where
  zone := api.timezone
  now := instant
  settings := api.settings.availability
  service := service.snapshot
  closedDates := (d.closedDays.filter fun c => decide (c.organizationId = api.organizationId)).map ClosedDay.date
  employees := employeeIds.map (employeeOf api d)

end Rows

section Alike

variable {s : AvailabilitySnapshot} {e e' : EmployeeSnapshot} {date earliest : Int}

/-- Every interval that lies between two local times of a date overlaps something of both or of
neither. -/
def BusyAlike (z : Zone) (date : Int) (busy busy' : List Interval) : Prop :=
  ∀ (m m' : MinuteOfDay) (start stop : Int) (block : Interval), Placed z date m start → Placed z date m' stop →
    start ≤ block.start → block.stop ≤ stop →
    (busy.any fun i => block.overlaps i) = busy'.any fun i => block.overlaps i

/-- On a date there is no telling the employees apart. -/
structure EmployeeSnapshot.AlikeOn (e e' : EmployeeSnapshot) (z : Zone) (date : Int) : Prop where
  employeeId : e'.employeeId = e.employeeId
  workingHours : e'.workingHours = e.workingHours
  exceptions : (e'.exceptions.filter fun x => decide (x.date = date)) =
    e.exceptions.filter fun x => decide (x.date = date)
  timeOffDates : date ∈ e'.timeOffDates ↔ date ∈ e.timeOffDates
  busy : BusyAlike z date e'.busy e.busy

theorem EmployeeSnapshot.AlikeOn.segmentsFor {z : Zone} (h : e.AlikeOn e' z date) :
    BookingApp.segmentsFor e' date z = BookingApp.segmentsFor e date z := by
  unfold BookingApp.segmentsFor
  rw [h.exceptions, h.workingHours]

/-- A start whose block lies within a segment is accepted of both or of neither. -/
theorem acceptsStart_alikeOn (hs : s.service.Valid) (h : e.AlikeOn e' s.zone date) {m m' : MinuteOfDay}
    {start stop : Int} (hstart : Placed s.zone date m start) (hstop : Placed s.zone date m' stop)
    (holes : List Interval) (t : Int) :
    acceptsStart s e' earliest (Interval.subtract ⟨start, stop⟩ holes) t =
      acceptsStart s e earliest (Interval.subtract ⟨start, stop⟩ holes) t := by
  unfold acceptsStart
  dsimp only
  cases hpieces : (Interval.subtract ⟨start, stop⟩ holes).any fun piece => piece.contains (s.service.block t) with
  | false => simp
  | true =>
    have hpiece : ∃ piece ∈ Interval.subtract ⟨start, stop⟩ holes, piece.contains (s.service.block t) = true :=
      List.any_eq_true.mp hpieces
    obtain ⟨hinside, -⟩ := (Interval.exists_contains_subtract (hs.block_lt t)).mp hpiece
    obtain ⟨hfrom, hto⟩ := Interval.contains_iff.mp hinside
    rw [h.busy m m' start stop (s.service.block t) hstart hstop hfrom hto]

theorem segmentSlotsFor_alikeOn (hs : s.service.Valid) (h : e.AlikeOn e' s.zone date) (segment : Segment) :
    segmentSlotsFor s e' date earliest segment = segmentSlotsFor s e date earliest segment := by
  unfold segmentSlotsFor
  rw [h.employeeId]
  dsimp only
  split
  next start stop hstart hstop =>
    rw [wallClockToInstant_ok_iff] at hstart hstop
    have hcandidates : candidateStart s e' date earliest
        (Interval.subtract ⟨start, stop⟩ (placeBreaks e.employeeId date s.zone segment.breaks).1) =
      candidateStart s e date earliest
        (Interval.subtract ⟨start, stop⟩ (placeBreaks e.employeeId date s.zone segment.breaks).1) := by
      funext minute
      unfold candidateStart
      cases wallClockToInstant date minute s.zone with
      | ok t =>
        dsimp only
        rw [acceptsStart_alikeOn hs h hstart hstop]
      | skipped reason => rfl
    rw [hcandidates]
  · rfl

theorem employeeOffersFor_alikeOn (hs : s.service.Valid) (h : e.AlikeOn e' s.zone date) :
    employeeOffersFor s date earliest e' = employeeOffersFor s date earliest e := by
  have hslots : employeeSlotsFor s e' date earliest = employeeSlotsFor s e date earliest := by
    have hoff : e'.timeOffDates.contains date = e.timeOffDates.contains date := by
      rw [Bool.eq_iff_iff, List.contains_iff_mem, List.contains_iff_mem]
      exact h.timeOffDates
    unfold employeeSlotsFor
    rw [hoff, h.segmentsFor, funext (segmentSlotsFor_alikeOn hs h)]
  unfold employeeOffersFor
  rw [hslots, h.employeeId]

/-- A day of employees whom nobody can tell apart on it, closed for both or for neither. -/
theorem daySlots_alikeOn (hs : s.service.Valid) {closedDates : List Int}
    (hclosed : date ∈ closedDates ↔ date ∈ s.closedDates) {ids : List String} {f g : String → EmployeeSnapshot}
    (hemployees : s.employees = ids.map f) (h : ∀ id ∈ ids, (f id).AlikeOn (g id) s.zone date) :
    daySlots { s with closedDates, employees := ids.map g } earliest date = daySlots s earliest date := by
  have hcontains : closedDates.contains date = s.closedDates.contains date := by
    rw [Bool.eq_iff_iff, List.contains_iff_mem, List.contains_iff_mem]
    exact hclosed
  have hoffers : (ids.map g).mapM (employeeOffersFor s date earliest) =
      (ids.map f).mapM (employeeOffersFor s date earliest) := by
    rw [List.mapM_map, List.mapM_map]
    clear hemployees
    induction ids with
    | nil => rfl
    | cons id ids ih =>
      rw [List.mapM_cons, List.mapM_cons, ih fun i hi => h i (List.mem_cons_of_mem _ hi)]
      exact congrArg (· >>= _) (employeeOffersFor_alikeOn hs (h id List.mem_cons_self))
  unfold daySlots
  rw [hcontains, hemployees]
  change (if _ then _ else (ids.map g).mapM (employeeOffersFor s date earliest) >>= _) = _
  rw [hoffers]

/-- The engine cannot tell them apart, if on none of the dates it goes through anything differs. -/
theorem generateAvailability_alikeOn (hs : s.service.Valid) {first last : Int} {closedDates : List Int}
    {ids : List String} {f g : String → EmployeeSnapshot} (hemployees : s.employees = ids.map f)
    (h : ∀ date, first ≤ date → date ≤ last → (date ∈ closedDates ↔ date ∈ s.closedDates) ∧
      ∀ id ∈ ids, (f id).AlikeOn (g id) s.zone date) :
    generateAvailability { s with closedDates, employees := ids.map g } first last =
      generateAvailability s first last := by
  have hdays : ∀ dates : List Int, (∀ date ∈ dates, first ≤ date ∧ date ≤ last) →
      dates.mapM (daySlots { s with closedDates, employees := ids.map g } s.earliestStart) =
        dates.mapM (daySlots s s.earliestStart) := by
    intro dates hdates
    induction dates with
    | nil => rfl
    | cons date dates ih =>
      obtain ⟨hfirst, hlast⟩ := hdates date List.mem_cons_self
      obtain ⟨hclosed, halike⟩ := h date hfirst hlast
      rw [List.mapM_cons, List.mapM_cons, ih fun d hd => hdates d (List.mem_cons_of_mem _ hd)]
      exact congrArg (· >>= _) (daySlots_alikeOn hs hclosed hemployees halike)
  have hlisted : (s.listedDates first last).mapM
      (daySlots { s with closedDates, employees := ids.map g } s.earliestStart) =
      (s.listedDates first last).mapM (daySlots s s.earliestStart) :=
    hdays _ fun date hdate => (bounds_of_mem_listedDates hdate).1
  exact congrArg (· >>= _) hlisted

end Alike

section Windows

variable {api : Api} {d : Db} {first last date : Int}

/-- No local time of a date comes before the window of a range that it begins. -/
def FirstCovered (z : Zone) (first : Int) : Prop :=
  ∀ m t, Placed z first m t → (snapshotWindow first first z).start ≤ t

/-- A full day of padding covers the first date, whatever the offset. -/
theorem firstCovered_of_padded {z : Zone}
    (h : addLocalDays first (-WINDOW_PADDING_DAYS) z = first - WINDOW_PADDING_DAYS) : FirstCovered z first := by
  intro m t ht
  have hwall := ht.1
  have hoffset := z.offset_bound t
  unfold Zone.wallClock at hwall
  unfold snapshotWindow
  dsimp only
  rw [h]
  simp only [WINDOW_PADDING_DAYS, localDateToDateColumn]
  omega

/-- What is busy outside of the window overlaps nothing that lies in a date of the range. -/
theorem busy_in_window {z : Zone} (hcovered : FirstCovered z first) (hfirst : first ≤ date) (hlast : date ≤ last)
    {m m' : MinuteOfDay} {start stop : Int} {block i : Interval} (hstart : Placed z date m start)
    (hstop : Placed z date m' stop) (hfrom : start ≤ block.start) (hto : block.stop ≤ stop)
    (hoverlaps : block.overlaps i = true) :
    i.start < (snapshotWindow first last z).stop ∧ (snapshotWindow first last z).start < i.stop := by
  have hs := z.offset_bound start
  have he := z.offset_bound stop
  have hlast' := m'.property
  have hwall := hstart.1
  have hwall' := hstop.1
  have hstart' := addLocalDays_bounds (z := z) first (-1)
  have hstop' := addLocalDays_bounds (z := z) last (1 + 1)
  rw [Interval.overlaps_iff] at hoverlaps
  have hbegin : (snapshotWindow first last z).start ≤ start := by
    rcases hfirst.eq_or_lt with rfl | hafter
    · exact hcovered m start hstart
    · simp only [snapshotWindow, WINDOW_PADDING_DAYS, localDateToDateColumn]
      unfold Zone.wallClock at hwall
      omega
  refine ⟨?_, by omega⟩
  simp only [snapshotWindow, WINDOW_PADDING_DAYS, localDateToDateColumn]
  unfold Zone.wallClock at hwall'
  omega

/-- The rows of a window tell of an employee what all rows do, on the dates of its range. -/
theorem employeeOf_alikeOn (hcovered : FirstCovered api.timezone first) (hfirst : first ≤ date)
    (hlast : date ≤ last) (id : String) :
    (employeeIn api (snapshotWindow first last api.timezone) d id).AlikeOn (employeeOf api d id)
      api.timezone date := by
  have hin := dateInWindow_snapshotWindow (z := api.timezone) hfirst hlast
  refine ⟨rfl, rfl, ?_, ?_, ?_⟩
  · unfold employeeIn employeeOf
    rw [List.filter_map, List.filter_map, List.filter_filter, List.filter_filter]
    refine congrArg _ (List.filter_congr fun row _ => ?_)
    by_cases hdate : row.exception.date = date
    · simp [hdate, hin]
    · simp [hdate]
  · have hstart := addLocalDays_bounds (z := api.timezone) first (-1)
    have hstop := addLocalDays_bounds (z := api.timezone) last (1 + 1)
    simp only [employeeIn, employeeOf, List.mem_flatMap, List.mem_filter, decide_eq_true_eq]
    refine exists_congr fun row => ?_
    constructor
    · rintro ⟨⟨hrow, ho, hid, happroved⟩, hmem⟩
      have hbounds := bounds_of_mem_eachLocalDate hmem
      refine ⟨⟨hrow, ho, hid, happroved, ?_, ?_⟩, hmem⟩ <;>
        simp only [snapshotWindow, WINDOW_PADDING_DAYS, localDateToDateColumn] <;> omega
    · rintro ⟨⟨hrow, ho, hid, happroved, -⟩, hmem⟩
      exact ⟨⟨hrow, ho, hid, happroved⟩, hmem⟩
  · intro m m' start stop block hplaced hplaced' hfrom hto
    have hwindow {i : Interval} (hoverlaps : block.overlaps i = true) :=
      busy_in_window hcovered hfirst hlast hplaced hplaced' hfrom hto hoverlaps
    simp only [employeeIn, employeeOf, List.any_append, List.any_map, busyBookings, busyBlockedTimes,
      List.any_filter]
    congr 1
    · refine congrArg (List.any d.bookings) (funext fun row => ?_)
      by_cases hoverlaps : block.overlaps row.block = true
      · obtain ⟨hbefore, hafter⟩ := hwindow hoverlaps
        simp [hoverlaps, show row.blockStartsAt < _ from hbefore, show _ < row.blockEndsAt from hafter]
      · simp [hoverlaps]
    · refine congrArg (List.any d.blockedTimes) (funext fun row => ?_)
      by_cases hoverlaps : block.overlaps row.span = true
      · obtain ⟨hbefore, hafter⟩ := hwindow hoverlaps
        simp [hoverlaps, show row.startsAt < _ from hbefore, show _ < row.endsAt from hafter]
      · simp [hoverlaps]

theorem closedIn_iff (hfirst : first ≤ date) (hlast : date ≤ last) :
    date ∈ (d.closedDays.filter fun c => decide (c.organizationId = api.organizationId)).map ClosedDay.date ↔
      date ∈ closedIn api (snapshotWindow first last api.timezone) d := by
  have hin := dateInWindow_snapshotWindow (z := api.timezone) hfirst hlast
  simp only [closedIn, List.mem_map, List.mem_filter, Bool.and_eq_true, decide_eq_true_eq]
  refine exists_congr fun row => ?_
  constructor
  · rintro ⟨⟨hrow, ho⟩, rfl⟩
    exact ⟨⟨hrow, ho, hin⟩, rfl⟩
  · rintro ⟨⟨hrow, ho, -⟩, rfl⟩
    exact ⟨⟨hrow, ho⟩, rfl⟩

/-- From the rows of the window the engine generates what it does from all rows. -/
theorem generateAvailability_window {service : Service} (hvalid : service.snapshot.Valid)
    (hcovered : FirstCovered api.timezone first) (last instant : Int) (ids : List String) :
    generateAvailability (snapshotIn api (snapshotWindow first last api.timezone) d instant service ids) first last =
      generateAvailability (snapshotOf api d instant service ids) first last :=
  (generateAvailability_alikeOn (s := snapshotIn api (snapshotWindow first last api.timezone) d instant service ids)
    hvalid rfl fun _ hfirst hlast => ⟨closedIn_iff hfirst hlast, fun id _ =>
      employeeOf_alikeOn hcovered hfirst hlast id⟩).symm

end Windows

section Loaders

variable {api : Api} {s s' : Alone store} {service : Service}

/-- Without employees it does not matter what is closed. -/
theorem generateAvailability_nobody {snapshot : AvailabilitySnapshot} (h : snapshot.employees = [])
    (closedDates : List Int) (first last : Int) :
    generateAvailability { snapshot with closedDates } first last = generateAvailability snapshot first last := by
  have hday (date : Int) (closed : List Int) :
      daySlots { snapshot with closedDates := closed } snapshot.earliestStart date =
        .ok ({ date, slots := [] }, []) := by
    unfold daySlots
    dsimp only
    rw [h]
    split <;> rfl
  have hdays : daySlots { snapshot with closedDates } snapshot.earliestStart =
      daySlots snapshot snapshot.earliestStart :=
    funext fun date => (hday date closedDates).trans (hday date snapshot.closedDates).symm
  unfold generateAvailability
  change (List.mapM (daySlots { snapshot with closedDates } snapshot.earliestStart) _ >>= _) = _
  rw [hdays]
  rfl

/-- The snapshot of a slot is loaded with the service there is. -/
theorem loadForSlot_snapshot {serviceId id : String} {startsAt : Int} {snapshot : AvailabilitySnapshot}
    (h : (loadForSlot api serviceId id startsAt).runAlone s = (.ok snapshot, s')) :
    ∃ service, offeredService api serviceId s.view = some service ∧
      snapshot = snapshotIn api (slotWindow api startsAt) s.view (s.answers 0).now service [id] := by
  obtain ⟨service, s₁, hservice, hrest⟩ := runAlone_bind_eq_ok.mp h
  rw [runAlone_loadService] at hservice
  cases hfound : offeredService api serviceId s.view with
  | none =>
    rw [hfound] at hservice
    cases hservice
  | some found =>
    rw [hfound] at hservice
    cases hservice
    obtain ⟨_, s₂, hemployee, hrest⟩ := runAlone_bind_eq_ok.mp hrest
    obtain ⟨links, s₃, hlinks, hemployee⟩ := runAlone_bind_eq_ok.mp hemployee
    cases hlinks
    obtain ⟨-, rfl⟩ := runAlone_ensure_eq_ok.mp hemployee
    cases hrest
    exact ⟨service, rfl, rfl⟩

/-- The booking-time check cannot tell the rows of its window from all rows either. -/
theorem isSlotBookable_window (hvalid : service.snapshot.Valid) {startsAt : Int}
    (hcovered : FirstCovered api.timezone (instantToLocalDate startsAt api.timezone)) (d : Db) (instant : Int)
    (id employeeId : String) :
    isSlotBookable (snapshotIn api (slotWindow api startsAt) d instant service [id]) employeeId startsAt =
      isSlotBookable (snapshotOf api d instant service [id]) employeeId startsAt := by
  have hgenerated := generateAvailability_window (d := d) hvalid hcovered
    (instantToLocalDate startsAt api.timezone) instant [id]
  unfold isSlotBookable
  by_cases hid : id = employeeId
  · have hin : Table.find employeeId (snapshotIn api (slotWindow api startsAt) d instant service [id]).employees =
        some (employeeIn api (slotWindow api startsAt) d id) := List.find?_cons_of_pos (decide_eq_true hid)
    have hall : Table.find employeeId (snapshotOf api d instant service [id]).employees =
        some (employeeOf api d id) := List.find?_cons_of_pos (decide_eq_true hid)
    rw [hin, hall]
    exact congrArg (· >>= _) hgenerated
  · have hnot : ¬decide (id = employeeId) = true := fun hkey => hid (of_decide_eq_true hkey)
    have hin : Table.find employeeId (snapshotIn api (slotWindow api startsAt) d instant service [id]).employees =
        none := List.find?_cons_of_neg hnot
    have hall : Table.find employeeId (snapshotOf api d instant service [id]).employees = none :=
      List.find?_cons_of_neg hnot
    rw [hin, hall]

/-- What is generated from the snapshot that is loaded for a range from `first` on is what is generated
from all rows there are, and the same holds of the check of a slot on that date. -/
def WindowSuffices (z : Zone) (first : Int) : Prop :=
  ∀ (api : Api) (s s' : Alone store), api.timezone = z → Legal s.view →
    (∀ query snapshot, query.first = first → (load api query).runAlone s = (.ok snapshot, s') →
      ∃ service, offeredService api query.serviceId s.view = some service ∧
        generateAvailability snapshot query.first query.last =
          generateAvailability (snapshotOf api s.view (s.answers 0).now service
            (performers api query.serviceId query.employeeId s.view)) query.first query.last) ∧
    ∀ serviceId id startsAt snapshot, instantToLocalDate startsAt z = first →
      (loadForSlot api serviceId id startsAt).runAlone s = (.ok snapshot, s') →
      ∃ service, offeredService api serviceId s.view = some service ∧ ∀ employeeId,
        isSlotBookable snapshot employeeId startsAt =
          isSlotBookable (snapshotOf api s.view (s.answers 0).now service [id]) employeeId startsAt

theorem windowSuffices_of_covered {z : Zone} {first : Int} (hcovered : FirstCovered z first) :
    WindowSuffices z first := by
  rintro api s s' rfl hlegal
  constructor
  · rintro query snapshot rfl hload
    obtain ⟨service, hfound, -, hsnapshot⟩ := load_snapshot hload
    have hwindow := generateAvailability_window (d := s.view) (offeredService_valid hlegal hfound) hcovered
      query.last (s.answers 0).now (performers api query.serviceId query.employeeId s.view)
    refine ⟨service, hfound, ?_⟩
    rw [hsnapshot, ← hwindow]
    split
    next hempty =>
      rw [hempty]
      exact generateAvailability_nobody rfl [] query.first query.last
    · rfl
  · rintro serviceId id startsAt snapshot rfl hload
    obtain ⟨service, hfound, rfl⟩ := loadForSlot_snapshot hload
    exact ⟨service, hfound, isSlotBookable_window (offeredService_valid hlegal hfound) hcovered s.view _ id⟩

end Loaders

section Uncovered

variable {z : Zone} {date : Int}

/-- After a change that skips midnight the offset is the same for a day and ten hours more. -/
theorem exists_steady_after_gap (hoffsets : ∀ t, z.offset t ≤ 840) (h : ¬z.HasMidnight date) :
    ∃ change offset,
      (∀ t, date * 86400000 ≤ z.wallClock t → t < date * 86400000 + 34 * 3600000 → change ≤ t) ∧
        ∀ t, change ≤ t → t < date * 86400000 + 34 * 3600000 → z.offset t = offset := by
  obtain ⟨u, hlt, hle, hless, hmidnight⟩ := z.fromObject_skipped (date * 86400000) fun t ht => h ⟨t, ht⟩
  obtain ⟨change, before, after, -, -, hoffset⟩ := z.offset_change u
  generalize z.fromObject (date * 86400000) = start at *
  have hub := z.offset_bound u
  have hfar := hoffsets start
  have hou := hoffset u le_rfl (by omega)
  have hos := hoffset start (by omega) (by omega)
  have hu : u < change := by
    by_contra hge
    rw [if_neg hge] at hou
    rw [if_neg (by omega)] at hos
    omega
  have hs : change ≤ start := by
    by_contra hgt
    rw [if_pos hu] at hou
    rw [if_pos (by omega)] at hos
    omega
  rw [if_pos hu] at hou
  rw [if_neg (by omega)] at hos
  refine ⟨change, after, fun t hwall hday => ?_, fun t hge hday => ?_⟩
  · have htb := z.offset_bound t
    unfold Zone.wallClock at hwall
    by_contra hbefore
    rcases lt_or_ge t u with htu | htu
    · -- the clock would have been put back before it was put forward
      obtain ⟨c, x, y, -, -, hearlier⟩ := z.offset_change t
      have hot := hearlier t le_rfl (by omega)
      have hou' := hearlier u (by omega) (by omega)
      have hos' := hearlier start (by omega) (by omega)
      split_ifs at hot hou' hos' <;> omega
    · have hot := hoffset t htu (by omega)
      rw [if_pos (by omega)] at hot
      omega
  · have hot := hoffset t (by omega) (by omega)
    rw [if_neg (by omega)] at hot
    exact hot

/-- Where a local time of a date comes before the window, there are five minutes from it on. -/
theorem exists_uncovered (hoffsets : ∀ t, -720 ≤ z.offset t ∧ z.offset t ≤ 840) (h : ¬FirstCovered z date) :
    (snapshotWindow date date z).start = date * 86400000 ∧
      ∃ (m : MinuteOfDay) (hm : m.val + 5 ≤ 1440) (t : Int), t < date * 86400000 ∧ Placed z date m t ∧
        Placed z date ⟨m.val + 5, hm⟩ (t + 300000) := by
  unfold FirstCovered at h
  simp only [not_forall, not_le] at h
  obtain ⟨m, t, ⟨hwall, honly⟩, hearly⟩ := h
  have hbounds := addLocalDays_bounds (z := z) date (-1)
  have hoffset := hoffsets t
  have hclock : t + z.offset t * 60000 = date * 86400000 + m.val * 60000 := hwall
  have hstart : (snapshotWindow date date z).start = date * 86400000 := by
    simp only [snapshotWindow, WINDOW_PADDING_DAYS, localDateToDateColumn] at hearly ⊢
    omega
  have hmidnight : ¬z.HasMidnight date := by
    intro hmid
    rw [hstart] at hearly
    have hpadded := addLocalDays_eq hmid (n := -1)
    simp only [snapshotWindow, WINDOW_PADDING_DAYS, localDateToDateColumn] at hstart
    omega
  rw [hstart] at hearly
  obtain ⟨change, offset, hafter, hsteady⟩ :=
    exists_steady_after_gap (fun t => (hoffsets t).2) hmidnight
  have hchange := hafter t (by omega) (by omega)
  have hsame := hsteady t hchange (by omega)
  have hlater := hsteady (t + 300000) (by omega) (by omega)
  refine ⟨hstart, m, by omega, t, hearly, ⟨hwall, honly⟩, ?_, fun u hu => ?_⟩
  · unfold Zone.wallClock
    push_cast
    omega
  · have hub := hoffsets u
    have huclock : u + z.offset u * 60000 = date * 86400000 + (m.val + 5 : Nat) * 60000 := hu
    push_cast at huclock
    have hus := hsteady u (hafter u (by rw [hu]; push_cast; omega) (by omega)) (by omega)
    omega

/-- Whoever books in steps of five minutes, without notice and for the same day. -/
def Api.everyFive (z : Zone) : Api :=
  { Api.sample with
    timezone := z
    settings := { Api.sample.settings with availability := ⟨5, 0, 0⟩ } }

/-- An employee with a service of five minutes. -/
def Db.fiveMinutes : Db :=
  { Db.sample [] with
    services := [{
      id := "s", organizationId := "o", name := "Cut", durationMinutes := 5, prepBufferMinutes := 0
      cleanupBufferMinutes := 0, priceCents := 100, currency := "EUR", isBookableOnline := true }]
    employeeServices := [{ organizationId := "o", employeeId := "e", serviceId := "s" }] }

/-- The employee works for five minutes on a weekday, of which a millisecond is blocked. -/
def Db.blockedAt (weekday : Weekday) (m : MinuteOfDay) (hm : m.val + 5 ≤ 1440) (t : Int) : Db :=
  { Db.fiveMinutes with
    workingHours := [{ organizationId := "o", employeeId := "e", hours := ⟨weekday, m, ⟨m.val + 5, hm⟩, []⟩ }]
    blockedTimes := [{
      id := "x", organizationId := "o", employeeId := "e", startsAt := t, endsAt := t + 1
      createdByOfficeUserId := "u" }] }

theorem legal_blockedAt (weekday : Weekday) (m : MinuteOfDay) (hm : m.val + 5 ≤ 1440) (t : Int) :
    Legal (.blockedAt weekday m hm t) := by
  have h : Legal .fiveMinutes := by decide
  refine ⟨{ h.bookings with }, { h.payments with }, { h.refunds with }, { h.requests with },
    { h.calendar with blocked_times_pkey := ?_, blocked_times_range_check := ?_, blocked_times_no_overlap := ?_ }⟩
  · exact List.nodup_singleton _
  · intro x hx
    obtain rfl := List.mem_singleton.mp hx
    exact Int.lt_succ t
  · exact List.pairwise_singleton _ _

/-- The five minutes can be started by what the window shows, if it leaves the blocked time out. -/
theorem offerable_blockedAt {m : MinuteOfDay} {hm : m.val + 5 ≤ 1440} {t : Int} {window : Interval}
    (hearly : t < window.start) (hplaced : Placed z date m t) (hplaced' : Placed z date ⟨m.val + 5, hm⟩ (t + 300000))
    {service : Service} (hblock : ∀ t, service.snapshot.block t = ⟨t, t + 300000⟩) :
    Offerable (snapshotIn (.everyFive z) window (.blockedAt (weekdayOf date z) m hm t) t service ["e"])
      (employeeIn (.everyFive z) window (.blockedAt (weekdayOf date z) m hm t) "e") date t := by
  refine ⟨List.not_mem_nil, List.not_mem_nil, ⟨⟨m, ⟨m.val + 5, hm⟩, []⟩, ?_, ?_⟩, ?_, ?_⟩
  · change _ ∈ segmentsFor _ date z
    simp [segmentsFor, employeeIn, Db.blockedAt, Db.fiveMinutes, Db.sample, Api.everyFive, Api.sample]
  · refine ⟨⟨t, t + 300000, hplaced, hplaced', ?_, ?_⟩, fun _ hrest => (by cases hrest), ?_, 0, m, ?_, ?_, hplaced⟩
    · exact (congrArg Interval.start (hblock t)).ge
    · exact (congrArg Interval.stop (hblock t)).le
    · exact show (0 : Int) < 5 by decide
    · simp
    · exact Nat.le_add_right _ _
  · exact (Int.add_zero t).le
  · intro busy hbusy
    have hmissed : ¬window.start < t + 1 := by omega
    simp [employeeIn, busyBookings, busyBlockedTimes, Db.blockedAt, Db.fiveMinutes, Db.sample, hmissed] at hbusy

/-- By all rows they cannot be started: the blocked time is in the way. -/
theorem not_bookable_blockedAt {m : MinuteOfDay} {hm : m.val + 5 ≤ 1440} {t instant : Int} {weekday : Weekday}
    {service : Service} (hblock : ∀ t, service.snapshot.block t = ⟨t, t + 300000⟩)
    (hvalid : service.snapshot.Valid) :
    isSlotBookable (snapshotOf (.everyFive z) (.blockedAt weekday m hm t) instant service ["e"]) "e" t ≠
      .ok true := by
  intro hbookable
  obtain ⟨e, hfind, hoffer⟩ := offerable_of_isSlotBookable
    (s := snapshotOf (.everyFive z) (.blockedAt weekday m hm t) instant service ["e"]) hvalid hbookable
  have he : ⟨t, t + 1⟩ ∈ e.busy := by
    have hsome : Table.find "e" (snapshotOf (.everyFive z) (.blockedAt weekday m hm t) instant service
        ["e"]).employees = some (employeeOf (.everyFive z) (.blockedAt weekday m hm t) "e") := rfl
    rw [← Option.some.inj (hsome.symm.trans hfind)]
    simp [employeeOf, BlockedTime.span, Db.blockedAt, Db.fiveMinutes, Db.sample, Api.everyFive, Api.sample]
  have hdisjoint : (service.snapshot.block t).toSet ∩ Interval.toSet ⟨t, t + 1⟩ = ∅ := hoffer.free _ he
  rw [hblock] at hdisjoint
  have hmem : t ∈ Interval.toSet ⟨t, t + 300000⟩ ∩ Interval.toSet ⟨t, t + 1⟩ := by simp [Interval.toSet]
  rw [hdisjoint] at hmem
  exact hmem

/-- Where a local time of the first date comes before the window, a blocked time is missed. -/
theorem covered_of_windowSuffices (hoffsets : ∀ t, -720 ≤ z.offset t ∧ z.offset t ≤ 840)
    (h : WindowSuffices z date) : FirstCovered z date := by
  by_contra hnot
  obtain ⟨hwindow, m, hm, t, hearly, hplaced, hplaced'⟩ := exists_uncovered hoffsets hnot
  obtain ⟨service, hservice, hblock, hvalid⟩ : ∃ service,
      offeredService (.everyFive z) "s" (.blockedAt (weekdayOf date z) m hm t) = some service ∧
      (∀ t, service.snapshot.block t = ⟨t, t + 300000⟩) ∧ service.snapshot.Valid := by
    refine ⟨_, rfl, fun t => ?_, by decide, by decide, by decide⟩
    simp [AvailabilityServiceSnapshot.block, Service.snapshot]
  have hid : "e" ∈ performers (.everyFive z) "s" none (.blockedAt (weekdayOf date z) m hm t) :=
    mem_performers.mpr ⟨_, List.mem_singleton_self _, ⟨rfl, rfl, rfl⟩, by simp, _, rfl, rfl, rfl⟩
  rw [← hwindow] at hearly
  have hoffer := offerable_blockedAt hearly hplaced hplaced' hblock
  have hdate : instantToLocalDate t z = date := hoffer.dateOf_eq hvalid
  have hbookable : isSlotBookable (snapshotIn (.everyFive z) (slotWindow (.everyFive z) t)
      (.blockedAt (weekdayOf date z) m hm t) t service ["e"]) "e" t = .ok true := by
    have hslot : slotWindow (.everyFive z) t = snapshotWindow date date z := by
      unfold slotWindow
      rw [show instantToLocalDate t (Api.everyFive z).timezone = date from hdate]
      rfl
    have hhorizon := addLocalDays_bounds (z := z) (instantToLocalDate t z) 0
    rw [hslot]
    refine isSlotBookable_of_offerable hvalid (find_employeeIn (List.mem_singleton_self _)) hdate.le ?_ hoffer
    exact hdate.symm.le.trans ((Int.add_zero _).symm.le.trans hhorizon.1)
  let s : Alone store := {
    answers := fun _ => { now := t }, refusal := fun _ => recordNotFound
    db := .blockedAt (weekdayOf date z) m hm t }
  have hload := @runAlone_loadForSlot (.everyFive z) s service "s" hservice none "e" hid t
  obtain ⟨-, hcheck⟩ := h (.everyFive z) s s.next rfl (legal_blockedAt ..)
  obtain ⟨service', hservice', hsame⟩ := hcheck "s" "e" t _ hdate hload
  obtain rfl : service = service' := Option.some.inj (hservice.symm.trans hservice')
  exact not_bookable_blockedAt hblock hvalid ((hsame "e").symm.trans hbookable)

/-- The rows of the window do for the ranges from a date on, whatever the state and the clock, just
if no local time of the date comes before the window. -/
theorem window_suffices_iff (hoffsets : ∀ t, -720 ≤ z.offset t ∧ z.offset t ≤ 840) :
    WindowSuffices z date ↔ FirstCovered z date :=
  ⟨covered_of_windowSuffices hoffsets, windowSuffices_of_covered⟩

theorem window_suffices_utc : WindowSuffices .utc 0 :=
  (window_suffices_iff fun _ => by simp [Zone.utc]).mpr (firstCovered_of_padded rfl)

end Uncovered

/-- A local time that the clocks never show, going from eleven hours behind UTC to twelve ahead. -/
theorem mem_gap {change l : Int} (h : ∀ t, t + (if t < change then (-660 : Int) else 720) * 60000 ≠ l) :
    change ≤ l + 39600000 ∧ l < change + 43200000 := by
  have hbefore := h (l + 39600000)
  have hafter := h (l - 43200000)
  constructor
  · by_contra hlt
    exact hbefore (by rw [if_pos (by omega)]; omega)
  · by_contra hge
    exact hafter (by rw [if_neg (by omega)]; omega)

/-- A zone whose clocks go from eleven hours behind UTC to twelve hours ahead. -/
def Zone.overDateLine (change : Int) : Zone where
  offset t := if t < change then -660 else 720
  fromObject l := if l < change + 43200000 then l + 39600000 else l - 43200000
  plusDays t n :=
    if (if t + n * 86400000 < change then (-660 : Int) else 720) = if t < change then -660 else 720 then
      t + n * 86400000
    else
      let l := t + (if t < change then -660 else 720) * 60000 + n * 86400000
      if l < change + 43200000 then l + 39600000 else l - 43200000
  possibleOffsets t := [t]
  offset_bound t := by split <;> omega
  offset_change t := ⟨change, -660, 720, by omega, by omega, fun _ _ _ => rfl⟩
  fromObject_exact l t h := by split at h <;> split <;> split <;> omega
  fromObject_skipped l h := by
    obtain ⟨hlo, hhi⟩ := mem_gap h
    refine ⟨change - 1, ?_⟩
    rw [if_pos hhi, if_neg (not_lt.mpr hlo), if_pos (sub_one_lt change)]
    omega
  plusDays_exact t n u h := by
    dsimp only at h ⊢
    split_ifs at h ⊢ <;> first | contradiction | omega
  plusDays_skipped t n h := by
    obtain ⟨hlo, hhi⟩ := mem_gap h
    have hdifferent := h (t + n * 86400000)
    refine ⟨change - 1, ?_⟩
    rw [if_neg (fun hsame => hdifferent (by rw [hsame]; ring))]
    generalize t + (if t < change then -660 else 720) * 60000 + n * 86400000 = l at hlo hhi ⊢
    dsimp only
    rw [if_pos hhi, if_neg (not_lt.mpr hlo), if_pos (sub_one_lt change)]
    omega
  plusDays_steady t n h := by rw [if_pos h]
  nodup_possibleOffsets t := Zone.nodup_one t
  mem_possibleOffsets t u := by
    rw [List.mem_singleton]
    split <;> split <;> omega

/-- Where the clocks go from two on Thursday to one on Friday. -/
def Api.friday : Api :=
  .everyFive (.overDateLine 46800000)

/-- Six on Friday is blocked, which the snapshot of Friday does not show. -/
theorem friday_misses_blocked : Legal (.blockedAt .FRIDAY ⟨360, by omega⟩ (by decide) 64800000) ∧
    ∃ snapshot s', (load .friday { serviceId := "s", first := 1, last := 1 }).runAlone
      { answers := fun _ => { now := 50000000 }, refusal := fun _ => recordNotFound
        db := .blockedAt .FRIDAY ⟨360, by omega⟩ (by decide) 64800000 } = (.ok snapshot, s') ∧
    generateAvailability snapshot 1 1 = .ok ⟨[⟨1, [⟨64800000, 65100000, ["e"]⟩]⟩], []⟩ ∧
    ∃ service, offeredService .friday "s" (.blockedAt .FRIDAY ⟨360, by omega⟩ (by decide) 64800000) = some service ∧
      generateAvailability (snapshotOf .friday (.blockedAt .FRIDAY ⟨360, by omega⟩ (by decide) 64800000) 50000000
        service ["e"]) 1 1 = .ok ⟨[⟨1, []⟩], []⟩ :=
  ⟨by decide, _, _, rfl, rfl, _, rfl, rfl⟩

end BookingApp
