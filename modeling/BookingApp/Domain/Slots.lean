import Mathlib.Order.Interval.Set.Basic
import Mathlib.Data.Int.Interval
import Mathlib.Data.List.Forall2
import Mathlib.Tactic.Ring
import BookingApp.Domain.Engine
import BookingApp.Rearrange

/-!
# What the engine offers

The rule a studio would state (`Offerable`) against the loops that compute it.
Each function gets its specification: what a segment, an employee, a day and the
whole range list.
-/

set_option autoImplicit false

namespace BookingApp

/-- `t` is the one instant of local minute `minute` of `date`. -/
def Placed (z : Zone) (date : Int) (minute : MinuteOfDay) (t : Int) : Prop :=
  z.wallClock t = date * 86400000 + minute.val * 60000 ∧
    ∀ u, z.wallClock u = date * 86400000 + minute.val * 60000 → u = t

theorem wallClockToInstant_ok_iff {z : Zone} {date : Int} {minute : MinuteOfDay} {t : Int} :
    wallClockToInstant date minute z = .ok t ↔ Placed z date minute t :=
  wallClockToInstant_eq_ok

namespace Interval

/-- The instants of an interval. -/
def toSet (i : Interval) : Set Int :=
  { t | i.start ≤ t ∧ t < i.stop }

theorem overlaps_eq_false_iff {a b : Interval} :
    a.overlaps b = false ↔ a.toSet ∩ b.toSet = ∅ := by
  have hinter : a.toSet ∩ b.toSet = Set.Ico (max a.start b.start) (min a.stop b.stop) :=
    Set.Ico_inter_Ico
  rw [hinter, Set.Ico_eq_empty_iff, ← Bool.not_eq_true, overlaps_iff]
  omega

end Interval

/-- What the CHECK constraints on services promise of durations and buffers. -/
structure AvailabilityServiceSnapshot.Valid (service : AvailabilityServiceSnapshot) : Prop where
  duration : 5 ≤ service.durationMinutes ∧ service.durationMinutes ≤ 480
  prep : 0 ≤ service.prepBufferMinutes ∧ service.prepBufferMinutes ≤ 120
  cleanup : 0 ≤ service.cleanupBufferMinutes ∧ service.cleanupBufferMinutes ≤ 120

theorem AvailabilityServiceSnapshot.Valid.block_lt {service : AvailabilityServiceSnapshot}
    (h : service.Valid) (t : Int) : (service.block t).start < (service.block t).stop := by
  obtain ⟨⟨hd, -⟩, ⟨hp, -⟩, ⟨hc, -⟩⟩ := h
  unfold block
  dsimp only
  omega

/-- A working segment of `date` offers the start `t`. -/
structure Segment.Offers (segment : Segment) (s : AvailabilitySnapshot) (date t : Int) : Prop where
  /-- Both bounds are placed, and the whole block lies between them. -/
  inside : ∃ start stop, Placed s.zone date segment.startMinute start ∧
    Placed s.zone date segment.endMinute stop ∧
    start ≤ (s.service.block t).start ∧ (s.service.block t).stop ≤ stop
  /-- Every break is placed, and the block does not meet it. -/
  breaks : ∀ rest ∈ segment.breaks, ∃ start stop, Placed s.zone date rest.startMinute start ∧
    Placed s.zone date rest.endMinute stop ∧
    (s.service.block t).toSet ∩ Interval.toSet ⟨start, stop⟩ = ∅
  /-- `t` is on the grid anchored at the start of the segment. -/
  grid : 0 < s.settings.schedulingIntervalMinutes ∧ ∃ (k : Nat) (minute : MinuteOfDay),
    (minute.val : Int) = segment.startMinute.val + k * s.settings.schedulingIntervalMinutes ∧
    minute.val ≤ segment.endMinute.val ∧ Placed s.zone date minute t

/-- The rule: `employee` can take the service of `s` on `date`, starting at `t`. -/
structure Offerable (s : AvailabilitySnapshot) (employee : EmployeeSnapshot) (date t : Int) :
    Prop where
  open_ : date ∉ s.closedDates
  present : date ∉ employee.timeOffDates
  segment : ∃ segment ∈ segmentsFor employee date s.zone, segment.Offers s date t
  notice : s.now + s.settings.minimumNoticeHours * 3600000 ≤ t
  free : ∀ busy ∈ employee.busy, (s.service.block t).toSet ∩ busy.toSet = ∅

/-- The result lists the start `t` on `date` for the employee `id`. -/
def AvailabilityResult.Lists (result : AvailabilityResult) (date : Int) (id : String) (t : Int) :
    Prop :=
  ∃ day ∈ result.days, day.date = date ∧
    ∃ slot ∈ day.slots, slot.startsAt = t ∧ id ∈ slot.employeeIds

section Grid

theorem mem_gridMinutesFrom {endMinute x : MinuteOfDay} {interval : Nat} (hpos : 0 < interval)
    (rounds : Nat) : ∀ {minute : Nat}, endMinute.val + 1 - minute ≤ rounds →
      (x ∈ gridMinutesFrom endMinute interval rounds minute ↔
        ∃ k : Nat, x.val = minute + k * interval ∧ x.val ≤ endMinute.val) := by
  induction rounds with
  | zero =>
    intro minute hrounds
    simp only [gridMinutesFrom, List.not_mem_nil, false_iff, not_exists, not_and]
    intro k hk
    omega
  | succ rounds ih =>
    intro minute hrounds
    unfold gridMinutesFrom
    split
    · rename_i hle
      rw [List.mem_cons, ih (by omega)]
      constructor
      · rintro (rfl | ⟨k, hk, hle'⟩)
        · exact ⟨0, by simp, hle⟩
        · exact ⟨k + 1, by rw [hk]; ring, hle'⟩
      · rintro ⟨k, hk, hle'⟩
        cases k with
        | zero => exact .inl (Subtype.ext (by simpa using hk))
        | succ k => exact .inr ⟨k, by rw [hk]; ring, hle'⟩
    · rename_i hgt
      simp only [List.not_mem_nil, false_iff, not_exists, not_and]
      intro k hk
      omega

/-- The grid, if there is one, holds the minutes a whole number of steps after the start. -/
theorem mem_gridMinutes {segment : Segment} {interval : Int} {minutes : List MinuteOfDay}
    {x : MinuteOfDay} (h : gridMinutes segment interval = .ok minutes) :
    x ∈ minutes ↔ 0 < interval ∧ ∃ k : Nat,
      (x.val : Int) = segment.startMinute.val + k * interval ∧ x.val ≤ segment.endMinute.val := by
  unfold gridMinutes at h
  split at h
  · cases h
  · rename_i hpos
    cases h
    obtain ⟨n, rfl⟩ := Int.eq_ofNat_of_zero_le (show 0 ≤ interval by omega)
    rw [Int.toNat_natCast, mem_gridMinutesFrom (by omega) _ (le_refl _)]
    constructor
    · rintro ⟨k, hk, hle⟩
      exact ⟨by omega, k, by exact_mod_cast hk, hle⟩
    · rintro ⟨-, k, hk, hle⟩
      exact ⟨k, by exact_mod_cast hk, hle⟩

theorem gridMinutes_isOk {interval : Int} (h : 0 < interval) (segment : Segment) :
    ∃ minutes, gridMinutes segment interval = .ok minutes := by
  unfold gridMinutes
  rw [if_neg (by omega)]
  exact ⟨_, rfl⟩

end Grid

section Segments

variable {s : AvailabilitySnapshot} {employee : EmployeeSnapshot} {date : Int}

/-- Nothing is reported of the breaks exactly when all of them are placed. -/
theorem placeBreaks_reports {id : String} {z : Zone} {breaks : List BreakSnapshot} :
    ¬(placeBreaks id date z breaks).2.length > 0 ↔
      ∀ rest ∈ breaks, ∃ start stop, Placed z date rest.startMinute start ∧
        Placed z date rest.endMinute stop := by
  have hreport : ∀ m : MinuteOfDay,
      reportSkipped id date m (wallClockToInstant date m z) = [] ↔ ∃ t, Placed z date m t := by
    intro m
    simp only [← wallClockToInstant_ok_iff]
    cases wallClockToInstant date m z <;> simp [reportSkipped]
  simp only [placeBreaks, gt_iff_lt, List.length_pos_iff, ne_eq, not_not, List.flatMap_eq_nil_iff,
    List.append_eq_nil_iff, hreport]
  exact forall₂_congr fun rest _ => by
    constructor
    · rintro ⟨⟨a, ha⟩, b, hb⟩
      exact ⟨a, b, ha, hb⟩
    · rintro ⟨a, b, ha, hb⟩
      exact ⟨⟨a, ha⟩, b, hb⟩

/-- The placed breaks are the intervals of the breaks both of whose bounds are placed. -/
theorem mem_placeBreaks {id : String} {z : Zone} {breaks : List BreakSnapshot} {i : Interval} :
    i ∈ (placeBreaks id date z breaks).1 ↔ ∃ rest ∈ breaks,
      Placed z date rest.startMinute i.start ∧ Placed z date rest.endMinute i.stop := by
  simp only [placeBreaks, List.mem_filterMap, ← wallClockToInstant_ok_iff]
  refine exists_congr fun rest => and_congr_right fun _ => ?_
  split
  · rename_i start stop hstart hstop
    rw [hstart, hstop, Option.some.injEq, WallClockResult.ok.injEq, WallClockResult.ok.injEq]
    exact ⟨fun h => by subst h; exact ⟨rfl, rfl⟩, fun h => by rw [h.1, h.2]⟩
  · rename_i hnot
    simp only [reduceCtorEq, false_iff, not_and]
    exact fun hstart hstop => hnot _ _ hstart hstop

theorem acceptsStart_iff {pieces : List Interval} {earliest t : Int} :
    acceptsStart s employee earliest pieces t = true ↔
      earliest ≤ t ∧ (∃ piece ∈ pieces, piece.contains (s.service.block t) = true) ∧
        ∀ busy ∈ employee.busy, (s.service.block t).toSet ∩ busy.toSet = ∅ := by
  simp only [acceptsStart, Bool.and_eq_true, Bool.not_eq_true', decide_eq_false_iff_not, not_lt,
    List.any_eq_true, List.any_eq_false, and_assoc, ← Interval.overlaps_eq_false_iff,
    Bool.not_eq_true]

theorem candidateStart_eq_some {pieces : List Interval} {earliest t : Int} {minute : MinuteOfDay} :
    candidateStart s employee date earliest pieces minute = some t ↔
      Placed s.zone date minute t ∧ acceptsStart s employee earliest pieces t = true := by
  unfold candidateStart
  rw [← wallClockToInstant_ok_iff]
  cases wallClockToInstant date minute s.zone with
  | ok startsAt =>
    rw [Option.ite_none_right_eq_some, Option.some.injEq, WallClockResult.ok.injEq, and_comm]
    exact and_congr_right fun h => by rw [h]
  | skipped reason => simp

/-- One segment lists exactly the starts it offers, as far as notice and busy time allow. -/
theorem mem_segmentSlotsFor (hs : s.service.Valid) {segment : Segment} {earliest : Int}
    {out : List Int × List SkippedLocalTime}
    (h : segmentSlotsFor s employee date earliest segment = .ok out) {t : Int} :
    t ∈ out.1 ↔ segment.Offers s date t ∧ earliest ≤ t ∧
      ∀ busy ∈ employee.busy, (s.service.block t).toSet ∩ busy.toSet = ∅ := by
  unfold segmentSlotsFor at h
  dsimp only at h
  split at h
  · rename_i start stop hstart hstop
    rw [wallClockToInstant_ok_iff] at hstart hstop
    split at h
    · -- some break cannot be placed
      rename_i hreport
      cases h
      simp only [List.not_mem_nil, false_iff, not_and]
      intro hoffers
      rw [← not_not (a := _ > 0), placeBreaks_reports] at hreport
      refine absurd (fun rest hrest => ?_) hreport
      obtain ⟨a, b, ha, hb, -⟩ := hoffers.breaks rest hrest
      exact ⟨a, b, ha, hb⟩
    · rename_i hreport
      rw [placeBreaks_reports] at hreport
      cases hgrid : gridMinutes segment s.settings.schedulingIntervalMinutes with
      | error e =>
        rw [hgrid] at h
        cases h
      | ok minutes =>
        rw [hgrid] at h
        cases h
        have hinside : (∃ piece ∈ Interval.subtract ⟨start, stop⟩
              (placeBreaks employee.employeeId date s.zone segment.breaks).1,
              piece.contains (s.service.block t) = true) ↔
            (start ≤ (s.service.block t).start ∧ (s.service.block t).stop ≤ stop) ∧
              ∀ rest ∈ segment.breaks, ∃ a b, Placed s.zone date rest.startMinute a ∧
                Placed s.zone date rest.endMinute b ∧
                (s.service.block t).toSet ∩ Interval.toSet ⟨a, b⟩ = ∅ := by
          rw [Interval.exists_contains_subtract (hs.block_lt t), Interval.contains_iff]
          refine and_congr_right fun _ => ?_
          simp only [Interval.Avoids, mem_placeBreaks, Interval.overlaps_eq_false_iff]
          constructor
          · intro havoids rest hrest
            obtain ⟨a, b, ha, hb⟩ := hreport rest hrest
            exact ⟨a, b, ha, hb, havoids ⟨a, b⟩ ⟨rest, hrest, ha, hb⟩⟩
          · rintro hbreaks i ⟨rest, hrest, ha, hb⟩
            obtain ⟨a, b, ha', hb', hdisjoint⟩ := hbreaks rest hrest
            rwa [ha.2 a ha'.1, hb.2 b hb'.1] at hdisjoint
        simp only [List.mem_filterMap, candidateStart_eq_some, acceptsStart_iff, hinside]
        constructor
        · rintro ⟨minute, hminute, hplaced, hearly, ⟨hblock, hbreaks⟩, hfree⟩
          obtain ⟨hpos, k, hk, hle⟩ := (mem_gridMinutes hgrid).mp hminute
          exact ⟨⟨⟨start, stop, hstart, hstop, hblock⟩, hbreaks, hpos, k, minute, hk, hle, hplaced⟩,
            hearly, hfree⟩
        · rintro ⟨⟨⟨a, b, ha, hb, hblock⟩, hbreaks, hpos, k, minute, hk, hle, hplaced⟩, hearly, hfree⟩
          rw [hstart.2 a ha.1, hstop.2 b hb.1] at hblock
          exact ⟨minute, (mem_gridMinutes hgrid).mpr ⟨hpos, k, hk, hle⟩, hplaced, hearly,
            ⟨hblock, hbreaks⟩, hfree⟩
  · rename_i hnot
    cases h
    simp only [List.not_mem_nil, false_iff, not_and]
    intro hoffers
    obtain ⟨a, b, ha, hb, -⟩ := hoffers.inside
    exact absurd (wallClockToInstant_ok_iff.mpr hb) (hnot a b (wallClockToInstant_ok_iff.mpr ha))

theorem segmentSlotsFor_isOk (h : 0 < s.settings.schedulingIntervalMinutes) (earliest : Int)
    (segment : Segment) : ∃ out, segmentSlotsFor s employee date earliest segment = .ok out := by
  unfold segmentSlotsFor
  dsimp only
  split
  · split
    · exact ⟨_, rfl⟩
    · obtain ⟨minutes, hgrid⟩ := gridMinutes_isOk h segment
      rw [hgrid]
      exact ⟨_, rfl⟩
  · exact ⟨_, rfl⟩

theorem mem_employeeSlotsFor (hs : s.service.Valid) (hopen : date ∉ s.closedDates)
    {out : List Int × List SkippedLocalTime}
    (h : employeeSlotsFor s employee date s.earliestStart = .ok out) {t : Int} :
    t ∈ out.1 ↔ Offerable s employee date t := by
  unfold employeeSlotsFor at h
  split at h
  · rename_i hoff
    cases h
    simp only [List.not_mem_nil, false_iff]
    exact fun hoffer => hoffer.present (List.contains_iff_mem.mp hoff)
  · rename_i hoff
    cases hsegments : (segmentsFor employee date s.zone).mapM
        (segmentSlotsFor s employee date s.earliestStart) with
    | error e =>
      rw [hsegments] at h
      cases h
    | ok slots =>
      rw [hsegments] at h
      cases h
      have hslots : t ∈ slots.flatMap Prod.fst ↔ ∃ segment ∈ segmentsFor employee date s.zone,
          segment.Offers s date t ∧ s.earliestStart ≤ t ∧
            ∀ busy ∈ employee.busy, (s.service.block t).toSet ∩ busy.toSet = ∅ := by
        rw [List.mem_flatMap, exists_mem_of_mapM_eq_ok hsegments]
        refine exists_congr fun segment => and_congr_right fun hsegment => ?_
        constructor
        · rintro ⟨out, hout, ht⟩
          exact (mem_segmentSlotsFor hs hout).mp ht
        · intro hoffers
          obtain ⟨pair, hpair⟩ := exists_ok_of_mapM_eq_ok hsegments hsegment
          exact ⟨pair, hpair, (mem_segmentSlotsFor hs hpair).mpr hoffers⟩
      rw [hslots]
      constructor
      · rintro ⟨segment, hmem, hoffers, hearly, hfree⟩
        exact ⟨hopen, fun hin => hoff (List.contains_iff_mem.mpr hin), ⟨segment, hmem, hoffers⟩,
          hearly, hfree⟩
      · rintro ⟨-, -, ⟨segment, hmem, hoffers⟩, hearly, hfree⟩
        exact ⟨segment, hmem, hoffers, hearly, hfree⟩

theorem employeeSlotsFor_isOk (h : 0 < s.settings.schedulingIntervalMinutes) (earliest : Int) :
    ∃ out, employeeSlotsFor s employee date earliest = .ok out := by
  unfold employeeSlotsFor
  split
  · exact ⟨_, rfl⟩
  · obtain ⟨slots, hslots⟩ := exists_mapM_eq_ok (f := segmentSlotsFor s employee date earliest)
      (l := segmentsFor employee date s.zone) fun segment _ => segmentSlotsFor_isOk h earliest segment
    exact ⟨_, by rw [hslots]; rfl⟩

end Segments

section Days

/-- The map offers `id` at `start`. -/
def OffersAt (byStart : List (Int × List String)) (start : Int) (id : String) : Prop :=
  ∃ entry ∈ byStart, entry.1 = start ∧ id ∈ entry.2

theorem offersAt_addEmployeeAt {byStart : List (Int × List String)} {start t : Int}
    {employeeId id : String} :
    OffersAt (addEmployeeAt byStart start employeeId) t id ↔
      OffersAt byStart t id ∨ t = start ∧ id = employeeId := by
  unfold addEmployeeAt
  split
  · rename_i hany
    simp only [List.any_eq_true, decide_eq_true_eq] at hany
    obtain ⟨entry, hentry, hstart⟩ := hany
    simp only [OffersAt, List.mem_map]
    constructor
    · rintro ⟨_, ⟨e, he, rfl⟩, ht, hid⟩
      split at ht
      · rename_i hes
        rw [if_pos hes] at hid
        dsimp only at ht hid
        split at hid
        · exact .inl ⟨e, he, ht, hid⟩
        · rcases List.mem_append.mp hid with hid | hid
          · exact .inl ⟨e, he, ht, hid⟩
          · exact .inr ⟨ht.symm.trans hes, List.mem_singleton.mp hid⟩
      · rename_i hes
        rw [if_neg hes] at hid
        exact .inl ⟨e, he, ht, hid⟩
    · rintro (⟨e, he, ht, hid⟩ | ⟨rfl, rfl⟩)
      · refine ⟨_, ⟨e, he, rfl⟩, ?_, ?_⟩ <;> split
        · exact ht
        · exact ht
        · dsimp only
          split
          · exact hid
          · exact List.mem_append_left _ hid
        · exact hid
      · refine ⟨_, ⟨entry, hentry, rfl⟩, ?_, ?_⟩ <;> rw [if_pos hstart]
        · exact hstart
        · dsimp only
          split
          · exact List.contains_iff_mem.mp ‹_›
          · simp
  · simp only [OffersAt, List.mem_append, List.mem_singleton, or_and_right, exists_or]
    refine or_congr_right ⟨?_, ?_⟩
    · rintro ⟨entry, rfl, rfl, hid⟩
      exact ⟨rfl, List.mem_singleton.mp hid⟩
    · rintro ⟨rfl, rfl⟩
      exact ⟨_, rfl, rfl, List.mem_singleton_self _⟩

theorem offersAt_foldl {offers : List (Int × String)} {t : Int} {id : String} :
    ∀ {byStart : List (Int × List String)},
      OffersAt (offers.foldl (fun byStart offer => addEmployeeAt byStart offer.1 offer.2) byStart)
        t id ↔ OffersAt byStart t id ∨ (t, id) ∈ offers := by
  induction offers with
  | nil => simp
  | cons offer offers ih =>
    intro byStart
    rw [List.foldl_cons, ih, offersAt_addEmployeeAt, or_assoc, List.mem_cons, Prod.ext_iff]

/-- No start is without an employee. -/
theorem ne_nil_of_mem_addEmployeeAt {byStart : List (Int × List String)} {start : Int}
    {employeeId : String} (h : ∀ entry ∈ byStart, entry.2 ≠ []) :
    ∀ entry ∈ addEmployeeAt byStart start employeeId, entry.2 ≠ [] := by
  unfold addEmployeeAt
  intro entry hentry
  split at hentry
  · obtain ⟨e, he, rfl⟩ := List.mem_map.mp hentry
    split
    · dsimp only
      split
      · exact h e he
      · simp
    · exact h e he
  · rcases List.mem_append.mp hentry with hentry | hentry
    · exact h entry hentry
    · rw [List.mem_singleton.mp hentry]
      simp

theorem ne_nil_of_mem_foldl {offers : List (Int × String)} :
    ∀ {byStart : List (Int × List String)}, (∀ entry ∈ byStart, entry.2 ≠ []) →
      ∀ entry ∈ offers.foldl (fun byStart offer => addEmployeeAt byStart offer.1 offer.2) byStart,
        entry.2 ≠ [] := by
  induction offers with
  | nil => exact fun h => h
  | cons offer offers ih => exact fun h => ih (ne_nil_of_mem_addEmployeeAt h)

variable {s : AvailabilitySnapshot} {date : Int}

theorem employeeIds_ne_nil {earliest : Int} {out : DaySlots × List SkippedLocalTime}
    (h : daySlots s earliest date = .ok out) : ∀ slot ∈ out.1.slots, slot.employeeIds ≠ [] := by
  unfold daySlots at h
  split at h
  · cases h
    simp
  · cases hoffers : s.employees.mapM (employeeOffersFor s date earliest) with
    | error e =>
      rw [hoffers] at h
      cases h
    | ok offers =>
      rw [hoffers] at h
      cases h
      intro slot hslot
      obtain ⟨entry, hentry, rfl⟩ := List.mem_map.mp hslot
      rw [List.mem_insertionSort] at hentry
      obtain ⟨id, hid⟩ := List.exists_mem_of_ne_nil _ (ne_nil_of_mem_foldl (by simp) entry hentry)
      exact List.ne_nil_of_mem ((List.mem_insertionSort _).mpr hid)

/-- A day lists an employee at a start exactly when the rule says so. -/
theorem mem_daySlots (hs : s.service.Valid) {out : DaySlots × List SkippedLocalTime}
    (h : daySlots s s.earliestStart date = .ok out) :
    out.1.date = date ∧ ∀ {t : Int} {id : String},
      (∃ slot ∈ out.1.slots, slot.startsAt = t ∧ id ∈ slot.employeeIds) ↔
        ∃ employee ∈ s.employees, employee.employeeId = id ∧ Offerable s employee date t := by
  unfold daySlots at h
  split at h
  · rename_i hclosed
    cases h
    refine ⟨rfl, fun {t id} => ?_⟩
    simp only [List.not_mem_nil, false_and, exists_false, false_iff, not_exists, not_and]
    exact fun employee _ _ hoffer => hoffer.open_ (List.contains_iff_mem.mp hclosed)
  · rename_i hopen
    have hopen' : date ∉ s.closedDates := fun hin => hopen (List.contains_iff_mem.mpr hin)
    cases hoffers : s.employees.mapM (employeeOffersFor s date s.earliestStart) with
    | error e =>
      rw [hoffers] at h
      cases h
    | ok offers =>
      rw [hoffers] at h
      cases h
      refine ⟨rfl, fun {t id} => ?_⟩
      have hslots : (∃ slot ∈ (((offers.flatMap Prod.fst).foldl
              (fun byStart offer => addEmployeeAt byStart offer.1 offer.2) []).insertionSort
                fun left right => left.1 ≤ right.1).map fun entry =>
            ({ startsAt := entry.1, endsAt := entry.1 + s.service.durationMinutes * 60000,
               employeeIds := entry.2.insertionSort (· ≤ ·) } : Slot),
            slot.startsAt = t ∧ id ∈ slot.employeeIds) ↔ (t, id) ∈ offers.flatMap Prod.fst := by
        have hempty : ¬OffersAt [] t id := by
          rintro ⟨entry, hentry, -⟩
          cases hentry
        rw [← or_iff_right (b := (t, id) ∈ offers.flatMap Prod.fst) hempty, ← offersAt_foldl]
        simp only [OffersAt, List.mem_map, List.mem_insertionSort, exists_exists_and_eq_and]
      rw [hslots, List.mem_flatMap, exists_mem_of_mapM_eq_ok hoffers]
      refine exists_congr fun employee => and_congr_right fun hemployee => ?_
      obtain ⟨offer, hoffer⟩ := exists_ok_of_mapM_eq_ok hoffers hemployee
      cases hstarts : employeeSlotsFor s employee date s.earliestStart with
      | error e =>
        rw [employeeOffersFor, hstarts] at hoffer
        cases hoffer
      | ok pair =>
        have hmem : (∃ b, (Except.ok (pair.1.map fun start => (start, employee.employeeId), pair.2) :
              Except String _) = .ok b ∧ (t, id) ∈ b.1) ↔ employee.employeeId = id ∧ t ∈ pair.1 := by
          simp only [Except.ok.injEq, exists_eq_left', List.mem_map, Prod.mk.injEq]
          constructor
          · rintro ⟨start, hstart, rfl, rfl⟩
            exact ⟨rfl, hstart⟩
          · rintro ⟨rfl, hstart⟩
            exact ⟨t, hstart, rfl, rfl⟩
        rw [← mem_employeeSlotsFor hs hopen' hstarts, employeeOffersFor, hstarts]
        exact hmem

theorem daySlots_isOk (h : 0 < s.settings.schedulingIntervalMinutes) (earliest : Int) :
    ∃ out, daySlots s earliest date = .ok out := by
  unfold daySlots
  split
  · exact ⟨_, rfl⟩
  · obtain ⟨offers, hoffers⟩ := exists_mapM_eq_ok (l := s.employees)
        (f := employeeOffersFor s date earliest) fun employee _ => by
      obtain ⟨out, hout⟩ : ∃ out, employeeSlotsFor s employee date earliest = .ok out :=
        employeeSlotsFor_isOk h earliest
      exact ⟨_, by rw [employeeOffersFor, hout]; rfl⟩
    exact ⟨_, by rw [hoffers]; rfl⟩

end Days

section Availability

variable {s : AvailabilitySnapshot} {first last : Int}

/-- The requested range, clamped as `generateAvailability` clamps it. -/
def AvailabilitySnapshot.rangeStart (s : AvailabilitySnapshot) (first : Int) : Int :=
  max first s.today

def AvailabilitySnapshot.rangeEnd (s : AvailabilitySnapshot) (last : Int) : Int :=
  min last (s.today + s.settings.bookingHorizonDays)

/-- Local midnight exists today and on every date between the ends of the clamped range. -/
structure AvailabilitySnapshot.MidnightsExist (s : AvailabilitySnapshot) (first last : Int) :
    Prop where
  today : s.zone.HasMidnight s.today
  range : ∀ d, min (s.rangeStart first) (s.rangeEnd last) ≤ d →
    d ≤ max (s.rangeStart first) (s.rangeEnd last) → s.zone.HasMidnight d

/-- The days of the result are those of the clamped range, one by one. -/
theorem generateAvailability_eq_ok (hmid : s.MidnightsExist first last)
    {result : AvailabilityResult} (h : generateAvailability s first last = .ok result) :
    ∃ days, (eachLocalDate (s.rangeStart first) (s.rangeEnd last) s.zone).mapM
        (daySlots s s.earliestStart) = .ok days ∧ result.days = days.map Prod.fst := by
  have hstart : (if first < s.today then s.today else first) = s.rangeStart first := by
    unfold AvailabilitySnapshot.rangeStart
    omega
  have hend : (if last > s.horizonEnd then s.horizonEnd else last) = s.rangeEnd last := by
    unfold AvailabilitySnapshot.rangeEnd AvailabilitySnapshot.horizonEnd
    rw [addLocalDays_eq hmid.today]
    omega
  unfold generateAvailability at h
  dsimp only at h
  rw [hstart, hend] at h
  cases hdays : (eachLocalDate (s.rangeStart first) (s.rangeEnd last) s.zone).mapM
      (daySlots s s.earliestStart) with
  | error e =>
    rw [hdays] at h
    cases h
  | ok days =>
    rw [hdays] at h
    cases h
    exact ⟨days, rfl, rfl⟩

theorem lists_iff (hs : s.service.Valid) (hmid : s.MidnightsExist first last)
    {result : AvailabilityResult} (h : generateAvailability s first last = .ok result)
    {date t : Int} {id : String} :
    result.Lists date id t ↔ (s.rangeStart first ≤ date ∧ date ≤ s.rangeEnd last) ∧
      ∃ employee ∈ s.employees, employee.employeeId = id ∧ Offerable s employee date t := by
  obtain ⟨days, hdays, hresult⟩ := generateAvailability_eq_ok hmid h
  have hlisted : result.Lists date id t ↔ ∃ pair ∈ days, pair.1.date = date ∧
      ∃ slot ∈ pair.1.slots, slot.startsAt = t ∧ id ∈ slot.employeeIds := by
    simp only [AvailabilityResult.Lists, hresult, List.mem_map, exists_exists_and_eq_and]
  rw [hlisted, exists_mem_of_mapM_eq_ok hdays]
  constructor
  · rintro ⟨d, hd, out, hout, rfl, hslot⟩
    obtain ⟨hdate, hlists⟩ := mem_daySlots hs hout
    rw [hdate]
    exact ⟨(mem_eachLocalDate hmid.range).mp hd, hlists.mp hslot⟩
  · rintro ⟨hin, hoffer⟩
    have hd := (mem_eachLocalDate hmid.range).mpr hin
    obtain ⟨out, hout⟩ := exists_ok_of_mapM_eq_ok hdays hd
    obtain ⟨hdate, hlists⟩ := mem_daySlots hs hout
    exact ⟨date, hd, out, hout, hdate, hlists.mpr hoffer⟩

theorem length_days (hmid : s.MidnightsExist first last) {result : AvailabilityResult}
    (h : generateAvailability s first last = .ok result) :
    result.days.length = (s.rangeEnd last + 1 - s.rangeStart first).toNat := by
  obtain ⟨days, hdays, hresult⟩ := generateAvailability_eq_ok hmid h
  have hlength := (mapM_eq_ok.mp hdays).length_eq
  rw [eachLocalDate_eq hmid.range, List.length_map, List.length_range] at hlength
  rw [hresult, List.length_map, hlength]

/-- A listed start names someone who can take it. -/
theorem exists_employee_of_mem_slots (hmid : s.MidnightsExist first last)
    {result : AvailabilityResult} (h : generateAvailability s first last = .ok result) {day : DaySlots}
    (hday : day ∈ result.days) {slot : Slot} (hslot : slot ∈ day.slots) :
    ∃ id, id ∈ slot.employeeIds := by
  obtain ⟨days, hdays, hresult⟩ := generateAvailability_eq_ok hmid h
  rw [hresult, List.mem_map] at hday
  obtain ⟨pair, hpair, rfl⟩ := hday
  have hex := (exists_mem_of_mapM_eq_ok hdays (p := fun b => b = pair)).mp ⟨pair, hpair, rfl⟩
  obtain ⟨d, -, out, hout, rfl⟩ := hex
  exact List.exists_mem_of_ne_nil _ (employeeIds_ne_nil hout slot hslot)

theorem generateAvailability_isOk (h : 0 < s.settings.schedulingIntervalMinutes) (first last : Int) :
    ∃ result, generateAvailability s first last = .ok result := by
  unfold generateAvailability
  obtain ⟨days, hdays⟩ := exists_mapM_eq_ok (f := daySlots s s.earliestStart)
    (l := eachLocalDate (if first < s.today then s.today else first)
      (if last > s.horizonEnd then s.horizonEnd else last) s.zone)
    fun date _ => daySlots_isOk h s.earliestStart
  exact ⟨_, by dsimp only; rw [hdays]; rfl⟩

end Availability

end BookingApp
