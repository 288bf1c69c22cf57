import BookingApp.Booking.Reservation
import BookingApp.Encoding.Timestamps

/-!
# The body of a blocked time (`office/staff.ts`)

`createBlockedTimeSchema` compares its two times as texts, and `createBlockedTime` stores the
instants they stand for. The schema's other fields are checked each on its own and are left out.
-/

set_option autoImplicit false

namespace BookingApp

open Encoding

structure Issue where
  path : List String
  message : String
  deriving DecidableEq, Repr

/-- What `isoInstantSchema` finds wrong with a field. -/
def isoInstantIssues (field : String) (value : List Char) : List Issue :=
  match Timestamp.read value with
  | none => [{ path := [field], message := "Invalid ISO datetime" }]
  | some _ => []

/-- `createBlockedTimeSchema`: the times are compared once each of them is one. -/
def createBlockedTimeSchema (startsAt endsAt : List Char) : Except (List Issue) (Timestamp × Timestamp) :=
  match Timestamp.read startsAt, Timestamp.read endsAt with
  | some s, some e =>
    if startsAt < endsAt then .ok (s, e)
    else .error [{ path := ["endsAt"], message := "endsAt must be after startsAt" }]
  | _, _ => .error (isoInstantIssues "startsAt" startsAt ++ isoInstantIssues "endsAt" endsAt)

/-- The request of the service, with the instants of the two times. -/
def blockedTimeRequest (employeeId : String) (reason : Option String) (times : Timestamp × Timestamp) :
    CreateBlockedTimeRequest where
  employeeId
  startsAt := times.1.instant
  endsAt := times.2.instant
  reason

theorem createBlockedTimeSchema_ok_iff {startsAt endsAt : List Char} {s e : Timestamp}
    {times : Timestamp × Timestamp} (hs : Timestamp.read startsAt = some s)
    (he : Timestamp.read endsAt = some e) :
    createBlockedTimeSchema startsAt endsAt = .ok times ↔ startsAt < endsAt ∧ times = (s, e) := by
  rw [createBlockedTimeSchema, hs, he]
  show (if startsAt < endsAt then _ else _) = _ ↔ _
  split
  next hlt => simp [hlt, eq_comm]
  next hlt => simp [hlt]

/-- A body that is refused is refused for its fields. -/
theorem createBlockedTimeSchema_issues {startsAt endsAt : List Char} {issues : List Issue}
    (h : createBlockedTimeSchema startsAt endsAt = .error issues) :
    ∀ issue ∈ issues, issue.path = ["startsAt"] ∨ issue.path = ["endsAt"] := by
  have hfield (field : String) (value : List Char) : ∀ issue ∈ isoInstantIssues field value, issue.path = [field] := by
    unfold isoInstantIssues
    split <;> simp
  unfold createBlockedTimeSchema at h
  split at h
  · split at h
    · simp at h
    · obtain rfl := Except.error.inj h
      simp
  · obtain rfl := Except.error.inj h
    intro issue hmem
    rcases List.mem_append.mp hmem with hmem | hmem
    · exact Or.inl (hfield _ _ issue hmem)
    · exact Or.inr (hfield _ _ issue hmem)

/-! ## Texts that are ordered as instants -/

/-- Of one minute: both have seconds, which differ or whose fractions are in order, or neither has, or
the one without comes first and the other adds nothing to it. -/
def SecondsInOrder : Option Seconds → Option Seconds → Prop
  | none, none => True
  | none, some t => t.millis = 0
  | some _, none => False
  | some s, some t => s.second ≠ t.second ∨ fractionsInOrder 3 s.fraction t.fraction = true

/-- The times are in different minutes or their seconds are in order. -/
def InOrder (s e : Timestamp) : Prop :=
  ¬s.SameMinute e ∨ SecondsInOrder s.seconds e.seconds

theorem millis_lt_iff (t u : Seconds) :
    t.millis < u.millis ↔ t.second < u.second ∨
      t.second = u.second ∧ digitsValue 3 t.fraction < digitsValue 3 u.fraction := by
  have ht := digitsValue_lt 3 t.fraction
  have hu := digitsValue_lt 3 u.fraction
  rw [Seconds.millis, Seconds.millis]
  omega

/-- In one minute the text and the instant go by what follows the minute. -/
theorem secondsInOrder_iff (s e : Timestamp) :
    (secondsText s.seconds < secondsText e.seconds ↔ s.millis < e.millis) ↔
      SecondsInOrder s.seconds e.seconds := by
  rw [Timestamp.millis, Timestamp.millis]
  cases s.seconds with
  | none => cases e.seconds with
    | none => simp [SecondsInOrder]
    | some t =>
      rw [iff_false_left (List.lt_asymm (secondsText_lt_none t)), SecondsInOrder]
      show ¬0 < t.millis ↔ t.millis = 0
      omega
  | some t => cases e.seconds with
    | none => simp [secondsText_lt_none t, SecondsInOrder]
    | some u =>
      rw [secondsText_lt_iff, SecondsInOrder, ← fractionsInOrder_iff]
      show (_ ↔ t.millis < u.millis) ↔ _
      rw [millis_lt_iff]
      by_cases hsecond : t.second = u.second
      · simp [hsecond]
      · simp [hsecond]

/-- The schema takes two times just if the second is after the first, of the times in order and of
no others. -/
theorem blocked_time_in_order {startsAt endsAt : List Char} {s e : Timestamp}
    (hs : Timestamp.read startsAt = some s) (he : Timestamp.read endsAt = some e) :
    ((∃ times, createBlockedTimeSchema startsAt endsAt = .ok times) ↔ s.instant < e.instant) ↔ InOrder s e := by
  have haccepted : (∃ times, createBlockedTimeSchema startsAt endsAt = .ok times) ↔ s.text < e.text := by
    rw [← Timestamp.read_iff.mp hs, ← Timestamp.read_iff.mp he]
    simp only [createBlockedTimeSchema_ok_iff hs he]
    exact ⟨fun ⟨_, h, _⟩ => h, fun h => ⟨_, h, rfl⟩⟩
  rw [haccepted, Timestamp.text_lt_iff, Timestamp.instant_lt_iff, InOrder, Timestamp.sameMinute_iff,
    ← secondsInOrder_iff]
  by_cases hminutes : s.minutes = e.minutes
  · simp [hminutes]
  · simp [hminutes]

/-- From half past the minute to half past the next one. -/
theorem blocked_time_in_order_sample :
    (∃ times, createBlockedTimeSchema "2026-03-02T10:00:30Z".toList "2026-03-02T10:01:30.5Z".toList = .ok times) ↔
      (1772445630000 : Int) < 1772445690500 := by
  have hfirst : Timestamp.read "2026-03-02T10:00:30Z".toList =
      some ⟨2026, 3, 2, 10, 0, some ⟨30, []⟩, by decide, by decide, by decide, by decide, by decide⟩ := by
    decide +kernel
  have hsecond : Timestamp.read "2026-03-02T10:01:30.5Z".toList =
      some ⟨2026, 3, 2, 10, 1, some ⟨30, [5]⟩, by decide, by decide, by decide, by decide, by decide⟩ := by
    decide +kernel
  exact (blocked_time_in_order hfirst hsecond).mpr (Or.inl (by simp [Timestamp.SameMinute]))

/-- The first half of a minute is refused. -/
theorem half_minute_out_of_order :
    ¬∀ (startsAt endsAt : List Char) (s e : Timestamp), Timestamp.read startsAt = some s →
      Timestamp.read endsAt = some e →
      ((∃ times, createBlockedTimeSchema startsAt endsAt = .ok times) ↔ s.instant < e.instant) := by
  intro h
  have hminute : Timestamp.read "2026-03-02T10:00Z".toList =
      some ⟨2026, 3, 2, 10, 0, none, by decide, by decide, by decide, by decide, by decide⟩ := by
    decide +kernel
  have hhalf : Timestamp.read "2026-03-02T10:00:30Z".toList =
      some ⟨2026, 3, 2, 10, 0, some ⟨30, []⟩, by decide, by decide, by decide, by decide, by decide⟩ := by
    decide +kernel
  obtain ⟨times, htimes⟩ := (h _ _ _ _ hminute hhalf).mpr (by decide +kernel)
  have hrefused : createBlockedTimeSchema "2026-03-02T10:00Z".toList "2026-03-02T10:00:30Z".toList =
      .error [{ path := ["endsAt"], message := "endsAt must be after startsAt" }] := by decide +kernel
  rw [hrefused] at htimes
  cases htimes

/-- Fractions of as many digits as count are in order. -/
theorem fractionsInOrder_of_length {k : Nat} {f g : List (Fin 10)} (hf : f.length = k) (hg : g.length = k) :
    fractionsInOrder k f g = true := by
  fun_induction fractionsInOrder k f g with
  | case1 k g =>
    obtain rfl : k = 0 := hf.symm
    rfl
  | case2 k d f =>
    rw [List.length_cons] at hf
    rw [List.length_nil] at hg
    omega
  | case3 k d f g ih =>
    rw [List.length_cons] at hf hg
    exact ih (by omega) (by omega)
  | case4 k d f e g hne =>
    rw [List.length_cons] at hf
    exact decide_eq_true (Or.inr (by omega))

/-- Texts with three digits of a fraction each, as the program writes them itself, are in order. -/
theorem inOrder_of_millis {s e : Timestamp} {t u : Seconds} (hs : s.seconds = some t) (he : e.seconds = some u)
    (ht : t.fraction.length = 3) (hu : u.fraction.length = 3) : InOrder s e := by
  rw [InOrder, hs, he]
  exact Or.inr (Or.inr (fractionsInOrder_of_length ht hu))

end BookingApp
