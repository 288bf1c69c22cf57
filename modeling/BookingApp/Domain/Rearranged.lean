import Mathlib.Data.String.Basic
import BookingApp.Domain.Cover
import BookingApp.Errors
import BookingApp.Rearrange

/-!
# The shape of the result (`domain/availability/engine.ts`)

The days of the engine are a function of who can start when: the slots of a day
ascend, each with its employees in order. So neither the order of the employees
nor that of their hours, breaks and busy time shows, except in the order of the
skipped local times.
-/

set_option autoImplicit false

namespace BookingApp

section ByStart

/-- What the merge across employees builds: each start once, each with different employees. -/
structure ByStart (byStart : List (Int × List String)) : Prop where
  starts : (byStart.map Prod.fst).Nodup
  ids : ∀ entry ∈ byStart, entry.2.Nodup
  nonempty : ∀ entry ∈ byStart, entry.2 ≠ []

variable {byStart byStart' : List (Int × List String)}

theorem ByStart.addEmployeeAt (h : ByStart byStart) (start : Int) (employeeId : String) :
    ByStart (addEmployeeAt byStart start employeeId) := by
  refine ⟨?_, ?_, ne_nil_of_mem_addEmployeeAt h.nonempty⟩
  · unfold BookingApp.addEmployeeAt
    split
    · rw [List.map_map]
      refine (List.map_congr_left fun entry _ => ?_) ▸ h.starts
      simp only [Function.comp]
      split <;> rfl
    · rename_i hnone
      rw [List.map_append, List.nodup_append]
      refine ⟨h.starts, by simp, fun t ht u hu => ?_⟩
      obtain ⟨entry, hentry, rfl⟩ := List.mem_map.mp ht
      rw [List.mem_singleton.mp hu]
      exact fun heq => hnone (List.any_eq_true.mpr ⟨entry, hentry, decide_eq_true heq⟩)
  · unfold BookingApp.addEmployeeAt
    intro entry hentry
    split at hentry
    · obtain ⟨e, he, rfl⟩ := List.mem_map.mp hentry
      split
      · dsimp only
        split
        · exact h.ids e he
        · rename_i hnew
          rw [List.contains_iff_mem] at hnew
          exact List.nodup_append.mpr ⟨h.ids e he, by simp, fun id hid id' hid' heq =>
            hnew (by rwa [← List.mem_singleton.mp hid', ← heq])⟩
      · exact h.ids e he
    · rcases List.mem_append.mp hentry with hentry | hentry
      · exact h.ids entry hentry
      · rw [List.mem_singleton.mp hentry]
        simp

theorem byStart_foldl (offers : List (Int × String)) : ∀ {byStart : List (Int × List String)},
    ByStart byStart →
      ByStart (offers.foldl (fun byStart offer => addEmployeeAt byStart offer.1 offer.2) byStart) := by
  induction offers with
  | nil => exact fun h => h
  | cons offer offers ih => exact fun h => ih (h.addEmployeeAt offer.1 offer.2)

/-- The merge with its starts and their employees in order. -/
def sortedEntries (byStart : List (Int × List String)) : List (Int × List String) :=
  (byStart.insertionSort fun left right => left.1 ≤ right.1).map fun entry =>
    (entry.1, entry.2.insertionSort (· ≤ ·))

theorem pairwise_lt_insertionSort {ids : List String} (h : ids.Nodup) :
    (ids.insertionSort (· ≤ ·)).Pairwise (· < ·) := by
  have hle := List.pairwise_insertionSort (· ≤ ·) ids
  have hne : (ids.insertionSort (· ≤ ·)).Nodup := (List.perm_insertionSort (· ≤ ·) ids).nodup_iff.mpr h
  exact (hle.and hne).imp fun h => lt_of_le_of_ne h.1 h.2

theorem ByStart.sortedEntries_lt (h : ByStart byStart) :
    (sortedEntries byStart).Pairwise fun a b => a.1 < b.1 := by
  rw [sortedEntries, List.pairwise_map]
  have hle := List.pairwise_insertionSort (fun left right : Int × List String => left.1 ≤ right.1) byStart
  have hne : (byStart.insertionSort fun left right => left.1 ≤ right.1).Pairwise
      fun a b => a.1 ≠ b.1 := by
    rw [← List.pairwise_map (f := Prod.fst)]
    exact ((List.perm_insertionSort _ byStart).map Prod.fst).nodup_iff.mpr h.starts
  exact (hle.and hne).imp fun h => lt_of_le_of_ne h.1 h.2

/-- An entry of the sorted merge is a start with all its employees. -/
theorem ByStart.mem_sortedEntries (h : ByStart byStart) {entry : Int × List String} :
    entry ∈ sortedEntries byStart ↔ entry.2 ≠ [] ∧ entry.2.Pairwise (· < ·) ∧
      ∀ id, id ∈ entry.2 ↔ OffersAt byStart entry.1 id := by
  have hof : ∀ e ∈ byStart, ∀ id, id ∈ e.2 ↔ OffersAt byStart e.1 id := by
    intro e he id
    refine ⟨fun hid => ⟨e, he, rfl, hid⟩, ?_⟩
    rintro ⟨e', he', hstart, hid⟩
    rwa [List.inj_on_of_nodup_map h.starts he he' hstart.symm]
  have hmem : ∀ e : Int × List String, entry = (e.1, e.2.insertionSort (· ≤ ·)) → e ∈ byStart →
      ∀ id, id ∈ entry.2 ↔ OffersAt byStart entry.1 id := by
    rintro e rfl he id
    rw [List.mem_insertionSort]
    exact hof e he id
  simp only [sortedEntries, List.mem_map, List.mem_insertionSort]
  constructor
  · rintro ⟨e, he, rfl⟩
    refine ⟨?_, pairwise_lt_insertionSort (h.ids e he), hmem e rfl he⟩
    obtain ⟨id, hid⟩ := List.exists_mem_of_ne_nil _ (h.nonempty e he)
    exact List.ne_nil_of_mem ((List.mem_insertionSort _).mpr hid)
  · rintro ⟨hne, hsorted, hids⟩
    obtain ⟨id, hid⟩ := List.exists_mem_of_ne_nil _ hne
    obtain ⟨e, he, hstart, -⟩ := (hids id).mp hid
    refine ⟨e, he, Prod.ext hstart ?_⟩
    refine List.Pairwise.eq_of_mem_iff (pairwise_lt_insertionSort (h.ids e he)) hsorted fun id => ?_
    rw [List.mem_insertionSort, hids id, hof e he id, hstart]

/-- Merges that offer the same are the same once sorted. -/
theorem ByStart.sortedEntries_congr (h : ByStart byStart) (h' : ByStart byStart')
    (hoffers : ∀ t id, OffersAt byStart t id ↔ OffersAt byStart' t id) :
    sortedEntries byStart = sortedEntries byStart' := by
  have hlt := h.sortedEntries_lt
  have hlt' := h'.sortedEntries_lt
  have hnodup : ∀ {l : List (Int × List String)}, (l.Pairwise fun a b => a.1 < b.1) → l.Nodup :=
    fun hl => hl.imp fun hab heq => absurd (congrArg Prod.fst heq) hab.ne
  refine List.Perm.eq_of_pairwise (fun a b _ _ hab hba => absurd hab hba.asymm) hlt hlt' ?_
  refine (List.perm_ext_iff_of_nodup (hnodup hlt) (hnodup hlt')).mpr fun entry => ?_
  rw [h.mem_sortedEntries, h'.mem_sortedEntries]
  refine and_congr_right fun _ => and_congr_right fun _ => forall_congr' fun id => ?_
  rw [hoffers]

end ByStart

section Rearranged

/-- The same hours with the breaks in another order. -/
structure Segment.Rearranged (a b : Segment) : Prop where
  startMinute : a.startMinute = b.startMinute
  endMinute : a.endMinute = b.endMinute
  breaks : a.breaks.Perm b.breaks

structure WorkingHoursSnapshot.Rearranged (a b : WorkingHoursSnapshot) : Prop where
  weekday : a.weekday = b.weekday
  startMinute : a.startMinute = b.startMinute
  endMinute : a.endMinute = b.endMinute
  breaks : a.breaks.Perm b.breaks

/-- The same employee with the hours, the breaks in them, the exceptions, the days off and the busy
time in another order. -/
structure EmployeeSnapshot.Rearranged (a b : EmployeeSnapshot) : Prop where
  employeeId : a.employeeId = b.employeeId
  workingHours : Rearranges WorkingHoursSnapshot.Rearranged a.workingHours b.workingHours
  exceptions : a.exceptions.Perm b.exceptions
  timeOffDates : a.timeOffDates.Perm b.timeOffDates
  busy : a.busy.Perm b.busy

/-- The same snapshot with the employees, and all that belongs to them, in another order. -/
structure AvailabilitySnapshot.Rearranged (s s' : AvailabilitySnapshot) : Prop where
  others : s' = { s with employees := s'.employees }
  employees : Rearranges EmployeeSnapshot.Rearranged s.employees s'.employees

theorem Segment.Rearranged.refl (a : Segment) : a.Rearranged a :=
  ⟨rfl, rfl, .refl _⟩

variable {s : AvailabilitySnapshot} {a b : EmployeeSnapshot} {date earliest : Int}

theorem segmentsFor_rearranges (h : a.Rearranged b) (date : Int) (z : Zone) :
    Rearranges Segment.Rearranged (segmentsFor a date z) (segmentsFor b date z) := by
  have hexceptions := h.exceptions.filter fun e => decide (e.date = date)
  unfold segmentsFor
  dsimp only
  rw [hexceptions.any_eq, (hexceptions.filterMap _).length_eq]
  split
  · exact .of_perm Segment.Rearranged.refl .nil
  · split
    · exact .of_perm Segment.Rearranged.refl (hexceptions.filterMap _)
    · have hhours : Rearranges WorkingHoursSnapshot.Rearranged
          (a.workingHours.filter fun h => decide (h.weekday = weekdayOf date z))
          (b.workingHours.filter fun h => decide (h.weekday = weekdayOf date z)) :=
        h.workingHours.filter fun c d hcd => by rw [hcd.weekday]
      exact hhours.map fun c d hcd => ⟨hcd.startMinute, hcd.endMinute, hcd.breaks⟩

theorem placeBreaks_perm {breaks breaks' : List BreakSnapshot} (h : breaks.Perm breaks') (id : String)
    (date : Int) (z : Zone) :
    (placeBreaks id date z breaks).1.Perm (placeBreaks id date z breaks').1 ∧
      (placeBreaks id date z breaks).2.Perm (placeBreaks id date z breaks').2 :=
  ⟨h.filterMap _, h.flatMap_right _⟩

theorem candidateStart_congr (h : a.Rearranged b) {pieces : List Interval} {minute : MinuteOfDay} :
    candidateStart s a date earliest pieces minute = candidateStart s b date earliest pieces minute := by
  unfold candidateStart acceptsStart
  simp only [h.busy.any_eq]

theorem gridMinutes_congr {c d : Segment} (h : c.Rearranged d) (interval : Int) :
    gridMinutes c interval = gridMinutes d interval := by
  unfold gridMinutes
  rw [h.startMinute, h.endMinute]

/-- A segment gives the same starts, and the same reports up to their order. -/
theorem segmentSlotsFor_alike (h : a.Rearranged b) {c d : Segment} (hcd : c.Rearranged d) :
    Alike (fun p q => p.1 = q.1 ∧ p.2.Perm q.2) (segmentSlotsFor s a date earliest c)
      (segmentSlotsFor s b date earliest d) := by
  obtain ⟨hplaced, hreports⟩ := placeBreaks_perm hcd.breaks b.employeeId date s.zone
  unfold segmentSlotsFor
  dsimp only
  rw [hcd.startMinute, hcd.endMinute, h.employeeId, hreports.length_eq]
  split
  · rename_i start stop _ _
    split
    · exact .ok ⟨rfl, hreports⟩
    · have hpieces : Interval.subtract ⟨start, stop⟩ (placeBreaks b.employeeId date s.zone c.breaks).1 =
          Interval.subtract ⟨start, stop⟩ (placeBreaks b.employeeId date s.zone d.breaks).1 :=
        Interval.subtract_congr _ (Interval.covers_congr fun i => hplaced.mem_iff)
      rw [hpieces, gridMinutes_congr hcd]
      refine (Alike.refl (fun _ => rfl) (gridMinutes d _)).bind fun minutes _ hminutes => ?_
      subst hminutes
      refine .ok ⟨?_, .refl _⟩
      exact List.filterMap_congr fun minute _ => candidateStart_congr h
  · exact .ok ⟨rfl, .refl _⟩

/-- The one error of the engine. -/
def AvailabilitySnapshot.intervalError (s : AvailabilitySnapshot) : String :=
  s!"Scheduling interval must be a positive integer, received {s.settings.schedulingIntervalMinutes}."

theorem segmentSlotsFor_error {segment : Segment} {e : String}
    (h : segmentSlotsFor s a date earliest segment = .error e) : e = s.intervalError := by
  unfold segmentSlotsFor at h
  dsimp only at h
  split at h
  · split at h
    · cases h
    · unfold gridMinutes at h
      split at h
      · cases h
        rfl
      · cases h
  · cases h

theorem employeeSlotsFor_error {e : String} (h : employeeSlotsFor s a date earliest = .error e) :
    e = s.intervalError := by
  unfold employeeSlotsFor at h
  split at h
  · cases h
  · cases hslots : (segmentsFor a date s.zone).mapM (segmentSlotsFor s a date earliest) with
    | error e' =>
      rw [hslots] at h
      cases h
      obtain ⟨segment, -, hsegment⟩ := Alike.exists_of_mapM_error hslots
      exact segmentSlotsFor_error hsegment
    | ok out =>
      rw [hslots] at h
      cases h

/-- An employee can start at the same times, up to their order. -/
theorem employeeSlotsFor_alike (h : a.Rearranged b) :
    Alike (fun p q => p.1.Perm q.1 ∧ p.2.Perm q.2) (employeeSlotsFor s a date earliest)
      (employeeSlotsFor s b date earliest) := by
  unfold employeeSlotsFor
  rw [h.timeOffDates.contains_eq]
  split
  · exact .ok ⟨.refl _, .refl _⟩
  · have hsegments := Alike.mapM (fun _ _ hcd => @segmentSlotsFor_alike s a b date earliest h _ _ hcd)
      (fun _ _ => segmentSlotsFor_error) (segmentsFor_rearranges h date s.zone)
    refine hsegments.bind fun out out' hout => .ok ⟨?_, ?_⟩
    · exact hout.flatMap fun p q hpq => by rw [hpq.1]
    · exact hout.flatMap fun p q hpq => hpq.2

theorem employeeOffersFor_alike (h : a.Rearranged b) :
    Alike (fun p q => p.1.Perm q.1 ∧ p.2.Perm q.2) (employeeOffersFor s date earliest a)
      (employeeOffersFor s date earliest b) := by
  unfold employeeOffersFor
  refine (employeeSlotsFor_alike h).bind fun p q hpq => .ok ⟨?_, hpq.2⟩
  rw [h.employeeId]
  exact hpq.1.map _

theorem employeeOffersFor_error {e : String} (h : employeeOffersFor s date earliest a = .error e) :
    e = s.intervalError := by
  unfold employeeOffersFor at h
  cases hslots : employeeSlotsFor s a date earliest with
  | error e' =>
    rw [hslots] at h
    cases h
    exact employeeSlotsFor_error hslots
  | ok out =>
    rw [hslots] at h
    cases h

/-- The merge across employees, which only depends on what they offer. -/
theorem sortedEntries_perm {offers offers' : List (Int × String)} (h : offers.Perm offers') :
    sortedEntries (offers.foldl (fun byStart offer => addEmployeeAt byStart offer.1 offer.2) []) =
      sortedEntries (offers'.foldl (fun byStart offer => addEmployeeAt byStart offer.1 offer.2) []) := by
  have hnil : ByStart [] := ⟨by simp, by simp, by simp⟩
  refine (byStart_foldl offers hnil).sortedEntries_congr (byStart_foldl offers' hnil) fun t id => ?_
  rw [offersAt_foldl, offersAt_foldl, h.mem_iff]

/-- The slot of an entry. -/
def AvailabilitySnapshot.slotOf (s : AvailabilitySnapshot) (entry : Int × List String) : Slot where
  startsAt := entry.1
  endsAt := entry.1 + s.service.durationMinutes * 60000
  employeeIds := entry.2

/-- The slots of a date are those of the sorted merge. -/
theorem daySlots_eq (s : AvailabilitySnapshot) (earliest date : Int) :
    daySlots s earliest date =
      if s.closedDates.contains date then .ok ({ date, slots := [] }, [])
      else s.employees.mapM (employeeOffersFor s date earliest) >>= fun offers => .ok
        ({ date, slots := (sortedEntries ((offers.flatMap Prod.fst).foldl
            (fun byStart offer => addEmployeeAt byStart offer.1 offer.2) [])).map s.slotOf },
          offers.flatMap Prod.snd) := by
  unfold daySlots sortedEntries
  simp only [List.map_map]
  rfl

/-- A date gets the same slots, and the same reports up to their order. -/
theorem daySlots_alike {s' : AvailabilitySnapshot} (h : s.Rearranged s') :
    Alike (fun p q => p.1 = q.1 ∧ p.2.Perm q.2) (daySlots s earliest date)
      (daySlots s' earliest date) := by
  obtain ⟨hothers, hemployees⟩ := h
  rw [daySlots_eq, hothers, daySlots_eq]
  dsimp only
  split
  · exact .ok ⟨rfl, .refl _⟩
  · have hoffers := Alike.mapM (fun _ _ hab => @employeeOffersFor_alike s _ _ date earliest hab)
      (fun _ _ => employeeOffersFor_error) hemployees
    refine hoffers.bind fun out out' hout => .ok ⟨?_, hout.flatMap fun p q hpq => hpq.2⟩
    have hperm := hout.flatMap fun p q hpq => hpq.1
    rw [sortedEntries_perm hperm]
    rfl

theorem generateAvailability_alike {s' : AvailabilitySnapshot} (h : s.Rearranged s') (first last : Int) :
    Alike (fun p q => p.days = q.days ∧ p.skipped.Perm q.skipped) (generateAvailability s first last)
      (generateAvailability s' first last) := by
  have hothers := h.others
  have hdays : ∀ dates : List Int, Alike (List.Forall₂ fun p q => p.1 = q.1 ∧ p.2.Perm q.2)
      (dates.mapM (daySlots s s.earliestStart)) (dates.mapM (daySlots s' s.earliestStart)) :=
    fun dates => Alike.mapM_forall₂ (fun _ _ hdate => hdate ▸ daySlots_alike h)
      (List.forall₂_same.mpr fun d _ => (rfl : d = d))
  have hnow : s'.earliestStart = s.earliestStart := by rw [hothers]; rfl
  have htoday : s'.today = s.today := by rw [hothers]; rfl
  have hend : s'.horizonEnd = s.horizonEnd := by rw [hothers]; rfl
  have hzone : s'.zone = s.zone := by rw [hothers]
  unfold generateAvailability
  dsimp only
  rw [hnow, htoday, hend, hzone]
  refine (hdays _).bind fun out out' hout => .ok ⟨?_, ?_⟩
  · have heq : List.Forall₂ Eq (out.map Prod.fst) (out'.map Prod.fst) := by
      rw [List.forall₂_map_left_iff, List.forall₂_map_right_iff]
      exact hout.imp fun _ _ hpq => hpq.1
    rwa [List.forall₂_eq_eq_eq] at heq
  · exact (Rearranges.of_forall₂ hout).flatMap fun p q hpq => hpq.2

end Rearranged

section Shape

variable {s : AvailabilitySnapshot} {date : Int}

/-- The engine lets the employee start at `t` on `date`. -/
def AvailabilitySnapshot.CanStart (s : AvailabilitySnapshot) (employee : EmployeeSnapshot)
    (date t : Int) : Prop :=
  date ∉ s.closedDates ∧
    ∃ out, employeeSlotsFor s employee date s.earliestStart = .ok out ∧ t ∈ out.1

/-- The day merges the starts of the employees: each once and in order, each with exactly those who
can take it, once and in order. -/
structure AvailabilitySnapshot.Merges (s : AvailabilitySnapshot) (day : DaySlots) : Prop where
  ascending : day.slots.Pairwise fun a b => a.startsAt < b.startsAt
  ids : ∀ slot ∈ day.slots, slot.employeeIds.Pairwise (· < ·)
  nonempty : ∀ slot ∈ day.slots, slot.employeeIds ≠ []
  union : ∀ slot ∈ day.slots, ∀ id, id ∈ slot.employeeIds ↔
    ∃ employee ∈ s.employees, employee.employeeId = id ∧ s.CanStart employee day.date slot.startsAt
  complete : ∀ employee ∈ s.employees, ∀ t, s.CanStart employee day.date t →
    ∃ slot ∈ day.slots, slot.startsAt = t

/-- What the employees offer on a date. -/
theorem mem_offers {earliest : Int} {offers : List (List (Int × String) × List SkippedLocalTime)}
    (h : s.employees.mapM (employeeOffersFor s date earliest) = .ok offers) {t : Int} {id : String} :
    (t, id) ∈ offers.flatMap Prod.fst ↔ ∃ employee ∈ s.employees, employee.employeeId = id ∧
      ∃ out, employeeSlotsFor s employee date earliest = .ok out ∧ t ∈ out.1 := by
  rw [List.mem_flatMap, exists_mem_of_mapM_eq_ok h]
  refine exists_congr fun employee => and_congr_right fun hemployee => ?_
  obtain ⟨offer, hoffer⟩ := exists_ok_of_mapM_eq_ok h hemployee
  unfold employeeOffersFor at hoffer ⊢
  cases hslots : employeeSlotsFor s employee date earliest with
  | error e =>
    rw [hslots] at hoffer
    cases hoffer
  | ok out =>
    constructor
    · rintro ⟨offer', hoffer', hmem⟩
      cases hoffer'
      obtain ⟨start, hstart, heq⟩ := List.mem_map.mp hmem
      cases heq
      exact ⟨rfl, out, rfl, hstart⟩
    · rintro ⟨rfl, out', hout', hmem⟩
      cases hout'
      exact ⟨_, rfl, List.mem_map.mpr ⟨t, hmem, rfl⟩⟩

theorem merges_daySlots {out : DaySlots × List SkippedLocalTime}
    (h : daySlots s s.earliestStart date = .ok out) : out.1.date = date ∧ s.Merges out.1 := by
  rw [daySlots_eq] at h
  split at h
  · rename_i hclosed
    cases h
    exact ⟨rfl, .nil, by simp, by simp, by simp, fun employee _ t ht =>
      absurd (List.contains_iff_mem.mp hclosed) ht.1⟩
  · rename_i hopen
    rw [List.contains_iff_mem] at hopen
    cases hoffers : s.employees.mapM (employeeOffersFor s date s.earliestStart) with
    | error e =>
      rw [hoffers] at h
      cases h
    | ok offers =>
      rw [hoffers] at h
      cases h
      have hmerged := @byStart_foldl (offers.flatMap Prod.fst) [] ⟨by simp, by simp, by simp⟩
      have hoffersAt : ∀ t id, OffersAt ((offers.flatMap Prod.fst).foldl
          (fun byStart offer => addEmployeeAt byStart offer.1 offer.2) []) t id ↔
          ∃ employee ∈ s.employees, employee.employeeId = id ∧ s.CanStart employee date t := by
        intro t id
        have hnil : ¬OffersAt [] t id := fun ⟨entry, hentry, _⟩ => by cases hentry
        rw [offersAt_foldl, or_iff_right hnil, mem_offers hoffers]
        exact exists_congr fun employee => and_congr_right fun _ => and_congr_right fun _ =>
          (and_iff_right hopen).symm
      have hlt := hmerged.sortedEntries_lt
      have hentries := @ByStart.mem_sortedEntries _ hmerged
      generalize (offers.flatMap Prod.fst).foldl
        (fun byStart offer => addEmployeeAt byStart offer.1 offer.2) [] = byStart at *
      refine ⟨rfl, ?_, ?_, ?_, ?_, ?_⟩
      · rw [List.pairwise_map]
        exact hlt
      · intro slot hslot
        obtain ⟨entry, hentry, rfl⟩ := List.mem_map.mp hslot
        exact (hentries.mp hentry).2.1
      · intro slot hslot
        obtain ⟨entry, hentry, rfl⟩ := List.mem_map.mp hslot
        exact (hentries.mp hentry).1
      · intro slot hslot id
        obtain ⟨entry, hentry, rfl⟩ := List.mem_map.mp hslot
        exact ((hentries.mp hentry).2.2 id).trans (hoffersAt entry.1 id)
      · intro employee hemployee t ht
        obtain ⟨entry, hentry, hstart, hid⟩ :=
          (hoffersAt t employee.employeeId).mpr ⟨employee, hemployee, rfl, ht⟩
        refine ⟨s.slotOf (entry.1, entry.2.insertionSort (· ≤ ·)), List.mem_map_of_mem ?_, hstart⟩
        exact List.mem_map_of_mem ((List.mem_insertionSort _).mpr hentry)

/-- The result has its shape, and does not depend on the order of the employees, of their hours, of
the breaks in these and of what keeps them busy; only the skipped local times come in that order. -/
theorem generateAvailability_order {s' : AvailabilitySnapshot} (h : s.Rearranged s')
    (first last : Int) :
    (∀ result, generateAvailability s first last = .ok result →
      ∀ day ∈ result.days, s.Merges day) ∧
    Alike (fun result result' => result.days = result'.days ∧ result.skipped.Perm result'.skipped)
      (generateAvailability s first last) (generateAvailability s' first last) := by
  refine ⟨fun result hresult day hday => ?_, generateAvailability_alike h first last⟩
  obtain ⟨days, hdays, hresult⟩ := bind_eq_ok.mp hresult
  cases hresult
  obtain ⟨pair, hpair, rfl⟩ := List.mem_map.mp hday
  obtain ⟨date, -, out, hout, rfl⟩ :=
    (exists_mem_of_mapM_eq_ok hdays (p := fun b => b = pair)).mp ⟨pair, hpair, rfl⟩
  exact (merges_daySlots hout).2

/-- An employee with a Thursday from nine to one and this busy time. -/
def onThursday (employeeId : String) (busy : List Interval) : EmployeeSnapshot where
  employeeId
  workingHours := [⟨.THURSDAY, ⟨540, MinuteOfDay.nine_le⟩, ⟨780, MinuteOfDay.thirteen_le⟩, []⟩]
  exceptions := []
  timeOffDates := []
  busy

def ofEmployees (employees : List EmployeeSnapshot) : AvailabilitySnapshot where
  zone := .utc
  now := 0
  settings := ⟨30, 0, 7⟩
  service := ⟨"massage", 30, 10, 10⟩
  closedDates := []
  employees

theorem onThursday_rearranged (id : String) (x y : Interval) :
    (onThursday id [x, y]).Rearranged (onThursday id [y, x]) :=
  ⟨rfl, .of_forall₂ (.cons ⟨rfl, rfl, rfl, .nil⟩ .nil), .nil, .nil, .swap y x []⟩

theorem generateAvailability_order_sample :
    Alike (fun result result' => result.days = result'.days ∧ result.skipped.Perm result'.skipped)
      (generateAvailability (ofEmployees [onThursday "mara" [⟨0, 1⟩, ⟨43200000, 43800000⟩],
        onThursday "jonas" [⟨0, 1⟩, ⟨43200000, 43800000⟩]]) 0 0)
      (generateAvailability (ofEmployees [onThursday "jonas" [⟨43200000, 43800000⟩, ⟨0, 1⟩],
        onThursday "mara" [⟨43200000, 43800000⟩, ⟨0, 1⟩]]) 0 0) :=
  (generateAvailability_order ⟨rfl, _, .cons (onThursday_rearranged "mara" _ _)
    (.cons (onThursday_rearranged "jonas" _ _) .nil), .swap _ _ []⟩ 0 0).2

end Shape

end BookingApp
