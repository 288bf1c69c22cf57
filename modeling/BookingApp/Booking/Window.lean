import BookingApp.Domain.Offers
import BookingApp.Booking.Reschedule
import BookingApp.ReadCommitted.Alone

/-!
# The booking window and the horizon (`reservation.service.ts`, `reschedule.service.ts`)

The engine offers whole local dates up to the horizon, the checks of a reservation and of
a reschedule request count elapsed time. `offered_within_window` says when the two agree.
-/

set_option autoImplicit false

namespace BookingApp

open ReadCommitted

/-- The check of a customer's reservation and that of a reschedule request let the start through
at the time `instant`. -/
structure WithinWindows (api : Api) (instant t : Int) : Prop where
  reservation : ∀ a : Alone store, (a.answers 0).now = instant →
    ((assertWithinBookingWindow api .CUSTOMER t).runAlone a).1 = .ok ()
  reschedule : ∀ (a : Alone store) (message : String), (a.answers 0).now = instant →
    ((assertWithinWindow api t message).runAlone a).1 = .ok ()

/-- The milliseconds since local midnight. -/
def Zone.timeOfDay (z : Zone) (t : Int) : Int :=
  z.wallClock t % 86400000

namespace AvailabilitySnapshot

variable (s : AvailabilitySnapshot)

/-- How far the clocks are put forward between now and `t`. -/
def clockChange (t : Int) : Int :=
  (s.zone.offset t - s.zone.offset s.now) * 60000

/-- How many dates of the horizon follow the local date of `t`. -/
def daysLeft (t : Int) : Int :=
  s.today + s.settings.bookingHorizonDays - s.zone.dateOf t

/-- The engine's horizon has room for the local date of `t`. -/
def Admits (t : Int) : Prop :=
  s.today ≤ s.zone.dateOf t ∧ s.zone.dateOf t ≤ s.horizonEnd

variable {s}

/-- The time until `t`, from the local dates and the times of day. -/
theorem sub_now_eq (t : Int) : t - s.now =
    (s.zone.dateOf t - s.today) * 86400000 + s.zone.timeOfDay t - s.zone.timeOfDay s.now -
      s.clockChange t := by
  have ht : s.zone.dateOf t * 86400000 + s.zone.timeOfDay t = s.zone.wallClock t :=
    Int.ediv_mul_add_emod _ _
  have hnow : s.today * 86400000 + s.zone.timeOfDay s.now = s.zone.wallClock s.now :=
    Int.ediv_mul_add_emod _ _
  unfold clockChange
  unfold Zone.wallClock at ht hnow
  omega

/-- The date of `t`, from the time of day now and the time that passes until then. -/
theorem admits_iff (t : Int) : s.Admits t ↔
    0 ≤ s.zone.timeOfDay s.now + (t - s.now) + s.clockChange t ∧
      s.zone.timeOfDay s.now + (t - s.now) + s.clockChange t <
        (s.horizonEnd - s.today + 1) * 86400000 := by
  have htime := s.sub_now_eq t
  have hpos : 0 ≤ s.zone.timeOfDay t := Int.emod_nonneg _ (by decide)
  have hlt : s.zone.timeOfDay t < 86400000 := Int.emod_lt_of_pos _ (by decide)
  unfold Admits
  omega

/-- Nothing is listed within the minimum notice. -/
theorem notice_of_lists (hs : s.service.Valid) {first last : Int} {result : AvailabilityResult}
    (h : generateAvailability s first last = .ok result) {date t : Int} {id : String}
    (hlists : result.Lists date id t) : s.earliestStart ≤ t := by
  obtain ⟨days, hdays, h⟩ := bind_eq_ok.mp h
  cases h
  obtain ⟨day, hday, -, slot, hslot, hstart, hid⟩ := hlists
  obtain ⟨pair, hpair, rfl⟩ := List.mem_map.mp hday
  obtain ⟨d, -, out, hout, rfl⟩ :=
    (exists_mem_of_mapM_eq_ok hdays (p := fun b => b = pair)).mp ⟨pair, hpair, rfl⟩
  obtain ⟨employee, -, -, hoffer⟩ := (mem_daySlots hs hout).2.mp ⟨slot, hslot, hstart, hid⟩
  exact hoffer.notice

end AvailabilitySnapshot

/-- A client at the time `instant`, over an empty database. -/
def aloneAt (instant : Int) : Alone store where
  answers _ := { now := instant }
  refusal _ := recordNotFound
  db := {}

variable {api : Api}

theorem runAlone_assertWithinWindow {t : Int} {message : String} (a : Alone store) :
    ((assertWithinWindow api t message).runAlone a).1 =
      if (a.answers 0).now + api.settings.availability.minimumNoticeHours * 3600000 ≤ t ∧
          t ≤ (a.answers 0).now + api.settings.availability.bookingHorizonDays * 86400000 then .ok ()
      else .error (.app { code := "OUTSIDE_BOOKING_WINDOW", message }) := by
  change ((ensure (S := store) _ _).runAlone _).1 = _
  unfold ensure
  split <;> rfl

theorem withinWindows_iff {instant t : Int} : WithinWindows api instant t ↔
    instant + api.settings.availability.minimumNoticeHours * 3600000 ≤ t ∧
      t ≤ instant + api.settings.availability.bookingHorizonDays * 86400000 := by
  constructor
  · intro h
    have hpass := h.reschedule (aloneAt instant) "" rfl
    rw [runAlone_assertWithinWindow] at hpass
    split at hpass
    · assumption
    · cases hpass
  · intro h
    have hpass : ∀ (a : Alone store) (message : String), (a.answers 0).now = instant →
        ((assertWithinWindow api t message).runAlone a).1 = .ok () := by
      rintro a message rfl
      rw [runAlone_assertWithinWindow, if_pos h]
    exact { reservation := fun a ha => hpass a _ ha, reschedule := hpass }

/-- A listed start passes both checks exactly when its time of day is not later than now's, with the
change of the clocks until then and a day for each date of the horizon that follows. A start that
passes them lies on a date of the horizon exactly when the time of day now, the time until then and
the change of the clocks together do not leave it. -/
theorem offered_within_window {s : AvailabilitySnapshot} (hs : s.service.Valid)
    (hsettings : api.settings.availability = s.settings) {first last : Int}
    {result : AvailabilityResult} (hresult : generateAvailability s first last = .ok result) (t : Int) :
    (∀ date id, result.Lists date id t → (WithinWindows api s.now t ↔
      s.zone.timeOfDay t ≤
        s.zone.timeOfDay s.now + s.clockChange t + s.daysLeft t * 86400000)) ∧
    (WithinWindows api s.now t → (s.Admits t ↔
      0 ≤ s.zone.timeOfDay s.now + (t - s.now) + s.clockChange t ∧
        s.zone.timeOfDay s.now + (t - s.now) + s.clockChange t <
          (s.horizonEnd - s.today + 1) * 86400000)) := by
  refine ⟨fun date id hlists => ?_, fun _ => s.admits_iff t⟩
  have hnotice := s.notice_of_lists hs hresult hlists
  unfold AvailabilitySnapshot.earliestStart at hnotice
  have htime := s.sub_now_eq t
  unfold AvailabilitySnapshot.daysLeft
  rw [withinWindows_iff, hsettings]
  omega

/-- The sample organization with the settings of the sample snapshot. -/
def Api.week : Api :=
  { Api.sample with settings := { Api.sample.settings with availability := sampleSnapshot.settings } }

/-- The sample day `date`, with the starts given. -/
def mara (date : Int) (starts : List Int) : AvailabilityResult where
  days := [{ date, slots := starts.map fun t => ⟨t, t + 1800000, ["mara"]⟩ }]
  skipped := []

/-- Half past ten today passes. -/
theorem offered_within_window_sample :
    generateAvailability sampleSnapshot 0 0 = .ok (mara 0 [37800000, 39600000]) ∧
      WithinWindows Api.week sampleSnapshot.now 37800000 ∧ sampleSnapshot.Admits 37800000 := by
  have hresult : generateAvailability sampleSnapshot 0 0 = .ok (mara 0 [37800000, 39600000]) := by rfl
  have hlists : (mara 0 [37800000, 39600000]).Lists 0 "mara" 37800000 :=
    ⟨_, List.mem_singleton_self _, rfl, _, List.mem_cons_self, rfl, List.mem_singleton_self _⟩
  obtain ⟨hpass, hadmits⟩ :=
    @offered_within_window Api.week sampleSnapshot sampleSnapshot_valid rfl 0 0 _ hresult 37800000
  have hwithin := (hpass 0 "mara" hlists).mpr (by decide)
  exact ⟨hresult, hwithin, (hadmits hwithin).mpr (by decide)⟩

/-- Half past ten on the last date of the horizon is listed at midnight, and refused. -/
theorem offered_outside_window :
    ∃ result, generateAvailability sampleSnapshot 7 7 = .ok result ∧
      result.Lists 7 "mara" 642600000 ∧ ¬ WithinWindows Api.week sampleSnapshot.now 642600000 := by
  refine ⟨mara 7 [642600000, 644400000, 646200000, 648000000], rfl, ?_, ?_⟩
  · exact ⟨_, List.mem_singleton_self _, rfl, _, List.mem_cons_self, rfl, List.mem_singleton_self _⟩
  · rw [withinWindows_iff]
    decide

end BookingApp
