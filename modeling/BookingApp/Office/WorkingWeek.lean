import Mathlib.Data.List.Sort
import BookingApp.Office.BlockedTimes
import BookingApp.Spans

/-!
# The contract of a working week (`contracts/office/staff.ts`)

A week is replaced at once. Its segments and their breaks must not overlap, which the schema
finds out by comparing neighbours in the order of their starts (`overlapping`).
-/

set_option autoImplicit false

namespace BookingApp

structure WorkingHoursBreak where
  startMinute : MinuteOfDay
  endMinute : MinuteOfDay
  deriving DecidableEq, Repr

/-- One shift on one weekday, with its breaks. -/
structure WorkingHoursSegment where
  weekday : Weekday
  startMinute : MinuteOfDay
  endMinute : MinuteOfDay
  breaks : List WorkingHoursBreak := []
  max_breaks : breaks.length ≤ 10 := by decide

structure ReplaceWorkingHoursRequest where
  segments : List WorkingHoursSegment
  max_segments : segments.length ≤ 35

/-- `weekdaySchema.options` -/
def weekdayOptions : List Weekday :=
  [.MONDAY, .TUESDAY, .WEDNESDAY, .THURSDAY, .FRIDAY, .SATURDAY, .SUNDAY]

section Schema

variable {α β : Type} [LinearOrder β]

/-- Half-open on the minute axis, so a span may begin where another ends. -/
def overlapping (startMinute endMinute : α → β) (spans : List α) : Bool :=
  let ordered := spans.insertionSort fun left right => startMinute left ≤ startMinute right
  ordered.zipIdx.any fun (span, index) =>
    match ordered[index + 1]? with
    | none => false
    | some next => decide (startMinute next < endMinute span)

/-- What `refine` finds. -/
def refinement (holds : Bool) (message : String) (path : List String) : List Issue :=
  if holds then [] else [{ path, message }]

def workingHoursSegmentSchema (segment : WorkingHoursSegment) : List Issue :=
  refinement (segment.endMinute > segment.startMinute) "endMinute must be after startMinute" ["endMinute"] ++
  refinement (segment.breaks.all fun rest => rest.endMinute > rest.startMinute)
    "a break must end after it starts" ["breaks"] ++
  refinement (segment.breaks.all fun rest =>
      rest.startMinute ≥ segment.startMinute && rest.endMinute ≤ segment.endMinute)
    "a break must lie inside the segment that contains it" ["breaks"] ++
  refinement (!overlapping WorkingHoursBreak.startMinute WorkingHoursBreak.endMinute segment.breaks)
    "breaks must not overlap each other" ["breaks"]

/-- The segments of a weekday. -/
def ReplaceWorkingHoursRequest.on (body : ReplaceWorkingHoursRequest) (weekday : Weekday) :
    List WorkingHoursSegment :=
  body.segments.filter fun segment => segment.weekday = weekday

def replaceWorkingHoursSchema (body : ReplaceWorkingHoursRequest) : List Issue :=
  (body.segments.zipIdx.flatMap fun (segment, index) =>
    (workingHoursSegmentSchema segment).map fun issue =>
      { issue with path := "segments" :: toString index :: issue.path }) ++
  refinement (weekdayOptions.all fun weekday =>
      !overlapping WorkingHoursSegment.startMinute WorkingHoursSegment.endMinute (body.on weekday))
    "segments on the same weekday must not overlap" ["segments"]

end Schema

section Overlaps

variable {α β : Type} [LinearOrder β] {startMinute endMinute : α → β} {spans : List α}

/-- Nothing is found where each span of the ordered list ends before its neighbour begins. -/
theorem overlapping_eq_false : overlapping startMinute endMinute spans = false ↔
    (spans.insertionSort fun left right => startMinute left ≤ startMinute right).IsChain
      fun span next => endMinute span ≤ startMinute next := by
  unfold overlapping
  dsimp only
  generalize (spans.insertionSort fun left right => startMinute left ≤ startMinute right) = ordered
  rw [List.any_eq_false, List.isChain_iff_getElem]
  constructor
  · intro h i hi
    have hspan : (ordered[i], i) ∈ ordered.zipIdx :=
      List.mem_zipIdx_iff_getElem?.mpr (List.getElem?_eq_getElem (by omega))
    have hnone := h _ hspan
    rw [List.getElem?_eq_getElem hi] at hnone
    simpa using hnone
  · rintro h ⟨span, i⟩ hspan
    have hget : ordered[i]? = some span := List.mem_zipIdx_iff_getElem?.mp hspan
    cases hnext : ordered[i + 1]? with
    | none => simp
    | some next =>
      obtain ⟨hi, rfl⟩ := List.getElem?_eq_some_iff.mp hnext
      obtain ⟨-, rfl⟩ := List.getElem?_eq_some_iff.mp hget
      simpa [hnext] using h i hi

/-- Of spans with positive lengths, `overlapping` tells whether they are pairwise apart. -/
theorem overlapping_eq_false_iff (hpos : ∀ span ∈ spans, startMinute span < endMinute span) :
    overlapping startMinute endMinute spans = false ↔ spans.Pairwise (Spans.Apart startMinute endMinute) := by
  have hperm := List.perm_insertionSort (fun left right => startMinute left ≤ startMinute right) spans
  have hsorted := List.pairwise_insertionSort (fun left right => startMinute left ≤ startMinute right) spans
  rw [overlapping_eq_false, Spans.isChain_iff_pairwise_apart (fun x hx => hpos x (hperm.mem_iff.mp hx)) hsorted]
  exact hperm.pairwise_iff Spans.Apart.symm

end Overlaps

/-- A segment with a positive length, whose breaks are inside it, have positive lengths and are
pairwise apart. -/
structure WorkingHoursSegment.Sound (segment : WorkingHoursSegment) : Prop where
  length : segment.startMinute < segment.endMinute
  breaks_length : ∀ rest ∈ segment.breaks, rest.startMinute < rest.endMinute
  breaks_inside : ∀ rest ∈ segment.breaks,
    segment.startMinute ≤ rest.startMinute ∧ rest.endMinute ≤ segment.endMinute
  breaks_apart : segment.breaks.Pairwise
    (Spans.Apart WorkingHoursBreak.startMinute WorkingHoursBreak.endMinute)

theorem refinement_eq_nil {holds : Bool} {message : String} {path : List String} :
    refinement holds message path = [] ↔ holds = true := by
  unfold refinement
  split <;> simp [*]

theorem workingHoursSegmentSchema_eq_nil {segment : WorkingHoursSegment} :
    workingHoursSegmentSchema segment = [] ↔ segment.Sound := by
  simp only [workingHoursSegmentSchema, List.append_eq_nil_iff, refinement_eq_nil, decide_eq_true_eq,
    List.all_eq_true, Bool.and_eq_true, Bool.not_eq_true', gt_iff_lt, ge_iff_le]
  constructor
  · rintro ⟨⟨⟨hlength, hbreaks⟩, hinside⟩, hapart⟩
    exact ⟨hlength, hbreaks, hinside, (overlapping_eq_false_iff hbreaks).mp hapart⟩
  · rintro ⟨hlength, hbreaks, hinside, hapart⟩
    exact ⟨⟨⟨hlength, hbreaks⟩, hinside⟩, (overlapping_eq_false_iff hbreaks).mpr hapart⟩

theorem mem_weekdayOptions (weekday : Weekday) : weekday ∈ weekdayOptions := by
  cases weekday <;> decide

/-- A week is accepted exactly when its segments are sound and, on each weekday, pairwise apart. -/
theorem replaceWorkingHoursSchema_eq_nil {body : ReplaceWorkingHoursRequest} :
    replaceWorkingHoursSchema body = [] ↔ (∀ segment ∈ body.segments, segment.Sound) ∧
      ∀ weekday, (body.on weekday).Pairwise
        (Spans.Apart WorkingHoursSegment.startMinute WorkingHoursSegment.endMinute) := by
  have hsegments : (body.segments.zipIdx.flatMap fun (segment, index) =>
      (workingHoursSegmentSchema segment).map fun issue =>
        { issue with path := "segments" :: toString index :: issue.path }) = [] ↔
      ∀ segment ∈ body.segments, segment.Sound := by
    simp only [List.flatMap_eq_nil_iff, List.map_eq_nil_iff, workingHoursSegmentSchema_eq_nil]
    constructor
    · intro h segment hsegment
      obtain ⟨i, hi⟩ := List.mem_iff_getElem?.mp hsegment
      exact h (segment, i) (List.mem_zipIdx_iff_getElem?.mpr hi)
    · rintro h ⟨segment, i⟩ hsegment
      exact h segment (List.mem_of_getElem? (List.mem_zipIdx_iff_getElem?.mp hsegment))
  rw [replaceWorkingHoursSchema, List.append_eq_nil_iff, hsegments, refinement_eq_nil, List.all_eq_true]
  refine and_congr_right fun hsound => ?_
  have hlength : ∀ weekday, ∀ segment ∈ body.on weekday, segment.startMinute < segment.endMinute :=
    fun weekday segment hsegment => (hsound segment (List.mem_of_mem_filter hsegment)).length
  constructor
  · intro h weekday
    have hnone := h weekday (mem_weekdayOptions weekday)
    exact (overlapping_eq_false_iff (hlength weekday)).mp (Bool.not_eq_true' _ ▸ hnone)
  · intro h weekday _
    rw [(overlapping_eq_false_iff (hlength weekday)).mpr (h weekday)]
    rfl

/-- Of spans with positive lengths, the helper finds an overlap exactly when two of them, at different
places, share a point. So a week is accepted exactly when each segment has a positive length and breaks
inside it that are pairwise apart, and the segments of each weekday are pairwise apart. -/
theorem week_contract :
    (∀ {α β : Type} [LinearOrder β] (startMinute endMinute : α → β) (spans : List α),
      (∀ span ∈ spans, startMinute span < endMinute span) →
        (overlapping startMinute endMinute spans = true ↔
          ∃ (i j : Nat) (a b : α), i < j ∧ spans[i]? = some a ∧ spans[j]? = some b ∧
            startMinute a < endMinute b ∧ startMinute b < endMinute a)) ∧
      ∀ body, replaceWorkingHoursSchema body = [] ↔ (∀ segment ∈ body.segments, segment.Sound) ∧
        ∀ weekday, (body.on weekday).Pairwise
          (Spans.Apart WorkingHoursSegment.startMinute WorkingHoursSegment.endMinute) := by
  refine ⟨fun startMinute endMinute spans hpos => ?_, fun body => replaceWorkingHoursSchema_eq_nil⟩
  rw [← Bool.not_eq_false, overlapping_eq_false_iff hpos, Spans.pairwise_apart_iff, not_not]
  rfl

/-- A Monday morning and a Monday afternoon that begins with a break. -/
def ReplaceWorkingHoursRequest.sample : ReplaceWorkingHoursRequest where
  segments := [
    { weekday := .MONDAY, startMinute := ⟨540, MinuteOfDay.nine_le⟩, endMinute := ⟨600, MinuteOfDay.ten_le⟩ },
    { weekday := .MONDAY
      startMinute := ⟨600, MinuteOfDay.ten_le⟩
      endMinute := ⟨1020, MinuteOfDay.seventeen_le⟩
      breaks := [⟨⟨600, MinuteOfDay.ten_le⟩, ⟨780, MinuteOfDay.thirteen_le⟩⟩] }]
  max_segments := by decide

/-- Two spans inside a long one that begin together, and a week that is accepted. -/
theorem week_contract_sample :
    overlapping Prod.fst Prod.snd [(30, 45), (0, 600), (30, 60)] = true ∧
      (ReplaceWorkingHoursRequest.sample.on .MONDAY).Pairwise
        (Spans.Apart WorkingHoursSegment.startMinute WorkingHoursSegment.endMinute) := by
  obtain ⟨hspans, hweek⟩ := week_contract
  constructor
  · apply (hspans Prod.fst Prod.snd [(30, 45), (0, 600), (30, 60)] (by decide)).mpr
    exact ⟨0, 1, (30, 45), (0, 600), by decide, rfl, rfl, by decide, by decide⟩
  · exact ((hweek ReplaceWorkingHoursRequest.sample).mp (by decide)).2 .MONDAY

end BookingApp
