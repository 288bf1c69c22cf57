import BookingApp.Domain.Offers
import BookingApp.Domain.Dates

/-!
# Which hours a schedule covers (`office/schedule-coverage.ts`)

The office is told which appointments a changed week no longer covers. The rule is that of
the engine, except for a segment with a break that cannot be placed (`coverage_agrees`):
the engine drops the segment, and the report drops the break.
-/

set_option autoImplicit false

namespace BookingApp

/-- The break-free stretches of one segment, as instants. -/
def Segment.covering (segment : Segment) (employeeId : String) (date : Int) (zone : Zone) :
    List Interval :=
  match wallClockToInstant date segment.startMinute zone,
    wallClockToInstant date segment.endMinute zone with
  | .ok start, .ok stop =>
    Interval.subtract ⟨start, stop⟩ (placeBreaks employeeId date zone segment.breaks).1
  | _, _ => []

/-- The break-free stretches of one employee's day, as instants. -/
def coveringIntervals (employee : EmployeeSnapshot) (date : Int) (zone : Zone) : List Interval :=
  (segmentsFor employee date zone).flatMap fun segment =>
    segment.covering employee.employeeId date zone

/-- The appointments whose whole block does not fit inside a working stretch. The intervals of a date
are worked out once in the source. -/
def uncoveredBookings {β : Type} (block : β → Interval) (bookings : List β)
    (employee : EmployeeSnapshot) (zone : Zone) : List β :=
  bookings.filter fun booking =>
    let date := instantToLocalDate (block booking).start zone
    !(coveringIntervals employee date zone).any fun piece => piece.contains (block booking)

/-- The pieces that the engine tries the candidates of a segment against. -/
def Segment.pieces (segment : Segment) (employeeId : String) (date : Int) (zone : Zone) :
    List Interval :=
  if (placeBreaks employeeId date zone segment.breaks).2.length > 0 then []
  else segment.covering employeeId date zone

/-- The pieces that the engine places for an employee and a date. -/
def enginePieces (employee : EmployeeSnapshot) (date : Int) (zone : Zone) : List Interval :=
  (segmentsFor employee date zone).flatMap fun segment =>
    segment.pieces employee.employeeId date zone

/-- A segment lists the grid minutes whose block fits into one of its pieces. -/
theorem segmentSlotsFor_pieces {s : AvailabilitySnapshot} {employee : EmployeeSnapshot}
    {date earliest : Int} {segment : Segment} {minutes : List MinuteOfDay}
    (hgrid : gridMinutes segment s.settings.schedulingIntervalMinutes = .ok minutes) :
    ∃ skipped, segmentSlotsFor s employee date earliest segment =
      .ok (minutes.filterMap (candidateStart s employee date earliest
        (segment.pieces employee.employeeId date s.zone)), skipped) := by
  have hnone : minutes.filterMap (candidateStart s employee date earliest []) = [] := by
    refine List.filterMap_eq_nil_iff.mpr fun minute _ => ?_
    unfold candidateStart
    split
    · simp [acceptsStart]
    · rfl
  unfold segmentSlotsFor Segment.pieces Segment.covering
  dsimp only
  cases wallClockToInstant date segment.startMinute s.zone with
  | skipped reason =>
    dsimp only
    rw [ite_self, hnone]
    exact ⟨_, rfl⟩
  | ok start =>
    cases wallClockToInstant date segment.endMinute s.zone with
    | skipped reason =>
      dsimp only
      rw [ite_self, hnone]
      exact ⟨_, rfl⟩
    | ok stop =>
      dsimp only
      split
      · rw [hnone]
        exact ⟨_, rfl⟩
      · rw [hgrid]
        exact ⟨_, rfl⟩

/-- Both bounds of every break are placed. -/
def Segment.BreaksPlaced (segment : Segment) (date : Int) (zone : Zone) : Prop :=
  ∀ rest ∈ segment.breaks, ∃ start stop, Placed zone date rest.startMinute start ∧
    Placed zone date rest.endMinute stop

/-- The segment is placed around the block, and so is no break of it across the block. -/
structure Segment.Holds (segment : Segment) (date : Int) (zone : Zone) (block : Interval) : Prop where
  inside : ∃ start stop, Placed zone date segment.startMinute start ∧
    Placed zone date segment.endMinute stop ∧ start ≤ block.start ∧ block.stop ≤ stop
  breaks : ∀ rest ∈ segment.breaks, ∀ start stop, Placed zone date rest.startMinute start →
    Placed zone date rest.endMinute stop → block.overlaps ⟨start, stop⟩ = false

section Pieces

variable {segment : Segment} (employeeId : String) {date : Int} {zone : Zone} {block : Interval}

theorem Segment.exists_covering (hblock : block.start < block.stop) :
    (∃ piece ∈ segment.covering employeeId date zone, piece.contains block = true) ↔
      segment.Holds date zone block := by
  unfold Segment.covering
  split
  · next start stop hstart hstop =>
    rw [wallClockToInstant_ok_iff] at hstart hstop
    rw [Interval.exists_contains_subtract hblock, Interval.contains_iff]
    constructor
    · rintro ⟨hinside, havoids⟩
      refine ⟨⟨start, stop, hstart, hstop, hinside⟩, fun rest hrest a b ha hb => ?_⟩
      exact havoids ⟨a, b⟩ (mem_placeBreaks.mpr ⟨rest, hrest, ha, hb⟩)
    · rintro ⟨⟨a, b, ha, hb, hinside⟩, hbreaks⟩
      rw [hstart.2 a ha.1, hstop.2 b hb.1] at hinside
      refine ⟨hinside, fun hole hhole => ?_⟩
      obtain ⟨rest, hrest, hfrom, hto⟩ := mem_placeBreaks.mp hhole
      exact hbreaks rest hrest hole.start hole.stop hfrom hto
  · next hnot =>
    simp only [List.not_mem_nil, false_and, exists_false, false_iff]
    rintro ⟨⟨a, b, ha, hb, -⟩, -⟩
    exact hnot a b (wallClockToInstant_ok_iff.mpr ha) (wallClockToInstant_ok_iff.mpr hb)

theorem Segment.exists_pieces (hblock : block.start < block.stop) :
    (∃ piece ∈ segment.pieces employeeId date zone, piece.contains block = true) ↔
      segment.BreaksPlaced date zone ∧ segment.Holds date zone block := by
  unfold Segment.pieces
  split
  · next hreport =>
    have hplaced : ¬ segment.BreaksPlaced date zone := fun h => placeBreaks_reports.mpr h hreport
    simp [hplaced]
  · next hreport =>
    rw [Segment.exists_covering employeeId hblock]
    exact (and_iff_right (placeBreaks_reports.mp hreport)).symm

/-- The pieces that are left of an interval are not empty. -/
theorem Interval.lt_of_mem_subtract {source piece : Interval} {holes : List Interval}
    (h : piece ∈ Interval.subtract source holes) : piece.start < piece.stop := by
  have hloop : ∀ (stop : Int) (holes : List Interval) (cursor : Int),
      piece ∈ Interval.subtractLoop stop cursor holes → piece.start < piece.stop := by
    intro stop holes
    induction holes with
    | nil =>
      intro cursor hmem
      unfold Interval.subtractLoop at hmem
      split at hmem
      · rw [List.mem_singleton.mp hmem]
        assumption
      · cases hmem
    | cons hole rest ih =>
      intro cursor hmem
      rcases List.mem_append.mp hmem with hfirst | hrest
      · split at hfirst
        · rw [List.mem_singleton.mp hfirst]
          assumption
        · cases hfirst
      · exact ih _ hrest
  unfold Interval.subtract at h
  split at h
  · cases h
  · exact hloop _ _ _ h

/-- A segment covers nothing exactly when it holds no moment. -/
theorem Segment.covering_eq_nil : segment.covering employeeId date zone = [] ↔
    ∀ t, ¬ segment.Holds date zone ⟨t, t + 1⟩ := by
  have hmoment : ∀ t : Int, (⟨t, t + 1⟩ : Interval).start < (⟨t, t + 1⟩ : Interval).stop := by
    intro t
    dsimp only
    omega
  constructor
  · intro hnil t hholds
    obtain ⟨piece, hpiece, -⟩ := (Segment.exists_covering employeeId (hmoment t)).mpr hholds
    rw [hnil] at hpiece
    cases hpiece
  · intro hnone
    by_contra hne
    obtain ⟨piece, hpiece⟩ := List.exists_mem_of_ne_nil _ hne
    have hlt : piece.start < piece.stop := by
      unfold Segment.covering at hpiece
      split at hpiece
      · exact Interval.lt_of_mem_subtract hpiece
      · cases hpiece
    refine hnone piece.start ((Segment.exists_covering employeeId (hmoment _)).mp
      ⟨piece, hpiece, ?_⟩)
    rw [Interval.contains_iff]
    dsimp only
    omega

end Pieces

/-- Lists that differ in dropped parts only are equal when the dropped parts are empty. -/
theorem flatMap_eq_flatMap_ite {α β : Type} {f : α → List β} {dropped : α → Prop} [DecidablePred dropped]
    (l : List α) : l.flatMap f = l.flatMap (fun a => if dropped a then [] else f a) ↔
      ∀ a ∈ l, dropped a → f a = [] := by
  have hle : ∀ l : List α, (l.flatMap fun a => if dropped a then [] else f a).length ≤
      (l.flatMap f).length := by
    intro l
    induction l with
    | nil => exact Nat.le_refl _
    | cons a l ih =>
      rw [List.flatMap_cons, List.flatMap_cons, List.length_append, List.length_append]
      split
      · rw [List.length_nil]
        omega
      · omega
  induction l with
  | nil => simp
  | cons a l ih =>
    have hrest : (∀ a ∈ l, dropped a → f a = []) ↔ _ := ih.symm
    rw [List.flatMap_cons, List.flatMap_cons, List.forall_mem_cons, hrest]
    by_cases ha : dropped a
    · rw [if_pos ha, List.nil_append]
      constructor
      · intro heq
        have hlength := congrArg List.length heq
        have hshort := hle l
        rw [List.length_append] at hlength
        have hnil : f a = [] := List.length_eq_zero_iff.mp (by omega)
        rw [hnil, List.nil_append] at heq
        exact ⟨fun _ => hnil, heq⟩
      · rintro ⟨hnil, heq⟩
        rw [hnil ha, List.nil_append, heq]
    · rw [if_neg ha, List.append_cancel_left_eq]
      exact (and_iff_right fun h => absurd h ha).symm

section Coverage

variable {employee : EmployeeSnapshot} {zone : Zone} {date : Int} {block : Interval}

theorem coveringIntervals_eq_enginePieces :
    coveringIntervals employee date zone = enginePieces employee date zone ↔
      ∀ segment ∈ segmentsFor employee date zone, (∃ t, segment.Holds date zone ⟨t, t + 1⟩) →
        segment.BreaksPlaced date zone := by
  unfold coveringIntervals enginePieces Segment.pieces
  rw [flatMap_eq_flatMap_ite]
  refine forall₂_congr fun segment _ => ?_
  rw [Segment.covering_eq_nil, ← not_exists, ← not_imp_not, not_not]
  exact imp_congr_right fun _ => placeBreaks_reports

theorem exists_coveringIntervals (hblock : block.start < block.stop) :
    (∃ piece ∈ coveringIntervals employee date zone, piece.contains block = true) ↔
      ∃ segment ∈ segmentsFor employee date zone, segment.Holds date zone block := by
  simp only [coveringIntervals, List.mem_flatMap]
  constructor
  · rintro ⟨piece, ⟨segment, hsegment, hpiece⟩, hcontains⟩
    exact ⟨segment, hsegment, (Segment.exists_covering _ hblock).mp ⟨piece, hpiece, hcontains⟩⟩
  · rintro ⟨segment, hsegment, hholds⟩
    obtain ⟨piece, hpiece, hcontains⟩ :=
      (Segment.exists_covering employee.employeeId hblock).mpr hholds
    exact ⟨piece, ⟨segment, hsegment, hpiece⟩, hcontains⟩

theorem exists_enginePieces (hblock : block.start < block.stop) :
    (∃ piece ∈ enginePieces employee date zone, piece.contains block = true) ↔
      ∃ segment ∈ segmentsFor employee date zone,
        segment.BreaksPlaced date zone ∧ segment.Holds date zone block := by
  simp only [enginePieces, List.mem_flatMap]
  constructor
  · rintro ⟨piece, ⟨segment, hsegment, hpiece⟩, hcontains⟩
    exact ⟨segment, hsegment, (Segment.exists_pieces _ hblock).mp ⟨piece, hpiece, hcontains⟩⟩
  · rintro ⟨segment, hsegment, hholds⟩
    obtain ⟨piece, hpiece, hcontains⟩ :=
      (Segment.exists_pieces employee.employeeId hblock).mpr hholds
    exact ⟨piece, ⟨segment, hsegment, hpiece⟩, hcontains⟩

/-- A block that a segment holds begins on the segment's date. -/
theorem Segment.Holds.dateOf_start {segment : Segment} (h : segment.Holds date zone block)
    (hblock : block.start < block.stop) : zone.dateOf block.start = date := by
  obtain ⟨start, stop, hstart, hstop, hfrom, hto⟩ := h.inside
  have hmax := segment.endMinute.property
  have hafter := (Zone.le_wallClock_iff hstart.1 hstart.2).mpr hfrom
  have hbefore := mt (Zone.le_wallClock_iff (t := block.start) hstop.1 hstop.2).mp (by omega)
  rw [Zone.dateOf_eq]
  omega

/-- The report and the engine agree on an employee's date exactly when each segment that is placed
and not covered by the breaks that are placed has all of its breaks placed. An appointment is
reported exactly when its block lies in no piece of the engine, unless it lies in such a segment
with a break that is not placed, and in none whose breaks all are. -/
theorem coverage_agrees (employee : EmployeeSnapshot) (zone : Zone) :
    (∀ date, coveringIntervals employee date zone = enginePieces employee date zone ↔
      ∀ segment ∈ segmentsFor employee date zone, (∃ t, segment.Holds date zone ⟨t, t + 1⟩) →
        segment.BreaksPlaced date zone) ∧
    ∀ {β : Type} (block : β → Interval) (bookings : List β), ∀ b ∈ bookings,
      (block b).start < (block b).stop →
        ((b ∈ uncoveredBookings block bookings employee zone ↔
            ¬ ∃ date, ∃ piece ∈ enginePieces employee date zone, piece.contains (block b) = true) ↔
          ((∃ segment ∈ segmentsFor employee (zone.dateOf (block b).start) zone,
              segment.Holds (zone.dateOf (block b).start) zone (block b)) →
            ∃ segment ∈ segmentsFor employee (zone.dateOf (block b).start) zone,
              segment.BreaksPlaced (zone.dateOf (block b).start) zone ∧
                segment.Holds (zone.dateOf (block b).start) zone (block b))) := by
  refine ⟨fun date => coveringIntervals_eq_enginePieces, fun block bookings b hb hblock => ?_⟩
  have hdate : (∃ date, ∃ piece ∈ enginePieces employee date zone,
      piece.contains (block b) = true) ↔
        ∃ segment ∈ segmentsFor employee (zone.dateOf (block b).start) zone,
          segment.BreaksPlaced (zone.dateOf (block b).start) zone ∧
            segment.Holds (zone.dateOf (block b).start) zone (block b) := by
    constructor
    · rintro ⟨date, hpiece⟩
      obtain ⟨segment, hsegment, hplaced, hholds⟩ := (exists_enginePieces hblock).mp hpiece
      rw [hholds.dateOf_start hblock]
      exact ⟨segment, hsegment, hplaced, hholds⟩
    · intro h
      exact ⟨_, (exists_enginePieces hblock).mpr h⟩
  have huncovered : b ∈ uncoveredBookings block bookings employee zone ↔
      ¬ ∃ segment ∈ segmentsFor employee (zone.dateOf (block b).start) zone,
        segment.Holds (zone.dateOf (block b).start) zone (block b) := by
    rw [← exists_coveringIntervals hblock, uncoveredBookings, List.mem_filter, and_iff_right hb]
    simp [instantToLocalDate]
  rw [hdate, huncovered, not_iff_not]
  refine ⟨fun h => h.mp, fun h => ⟨h, ?_⟩⟩
  rintro ⟨segment, hsegment, -, hholds⟩
  exact ⟨segment, hsegment, hholds⟩

end Coverage

theorem Zone.utc_placed (date : Int) (minute : MinuteOfDay) :
    Placed .utc date minute (date * 86400000 + minute.val * 60000) := by
  refine ⟨by simp [Zone.wallClock, Zone.utc], fun u hu => ?_⟩
  simpa [Zone.wallClock, Zone.utc] using hu

/-- In UTC a Thursday is covered as the engine places it, and an appointment after its end is
reported. -/
theorem coverage_agrees_sample : ∃ employee ∈ sampleSnapshot.employees,
    coveringIntervals employee 0 .utc = enginePieces employee 0 .utc ∧
      ((⟨46800000, 48600000⟩ : Interval) ∈ uncoveredBookings id [⟨46800000, 48600000⟩] employee .utc ↔
        ¬ ∃ date, ∃ piece ∈ enginePieces employee date .utc,
          piece.contains ⟨46800000, 48600000⟩ = true) := by
  refine ⟨_, List.mem_singleton_self _, ?_, ?_⟩
  · refine ((coverage_agrees _ .utc).1 0).mpr fun segment _ _ rest _ => ?_
    exact ⟨_, _, Zone.utc_placed 0 rest.startMinute, Zone.utc_placed 0 rest.endMinute⟩
  · refine ((coverage_agrees _ .utc).2 id [⟨46800000, 48600000⟩] _ (List.mem_singleton_self _)
      (by decide)).mpr ?_
    rintro ⟨segment, hsegment, hholds⟩
    refine ⟨segment, hsegment, fun rest _ => ?_, hholds⟩
    exact ⟨_, _, Zone.utc_placed _ rest.startMinute, Zone.utc_placed _ rest.endMinute⟩

/-- A zone whose clocks go from two to three on the first of January 1970, and are those of UTC
before. -/
def Zone.spring : Zone :=
  .forward 7200000

/-- A Thursday from one to five with a break at a quarter past two. -/
def nightShift : EmployeeSnapshot where
  employeeId := "mara"
  workingHours :=
    [⟨.THURSDAY, ⟨60, by omega⟩, ⟨300, by omega⟩, [⟨⟨135, by omega⟩, ⟨165, by omega⟩⟩]⟩]
  exceptions := []
  timeOffDates := []
  busy := []

/-- On the night of the change the report keeps an appointment at half past one, and the engine has
no hours at all. -/
theorem coverage_differs :
    coveringIntervals nightShift 0 .spring = [⟨3600000, 14400000⟩] ∧
      enginePieces nightShift 0 .spring = [] ∧
      uncoveredBookings id [⟨5400000, 7200000⟩] nightShift .spring = [] :=
  ⟨rfl, rfl, rfl⟩

end BookingApp
