import Mathlib.Logic.Function.Iterate
import BookingApp.Domain.LocalTime

/-!
# Dates and minutes (`domain/time/local-time.ts`)

The conversions back from an instant, and what the enumeration of a date range
lists where midnights are skipped. The loop of `eachLocalDate` moves an instant
from the start of the first date by calendar days and stops past the start of
the last one. A date without a midnight starts later, and the cursor keeps the
later time of day from there on.
-/

set_option autoImplicit false

namespace BookingApp

def instantToMinuteOfDay (instant : Int) (z : Zone) : Int :=
  z.minuteOf instant

namespace Zone

/-- A zone whose clocks go from `change` on an hour ahead of UTC, and before show UTC. -/
def forward (change : Int) : Zone where
  offset t := if t < change then 0 else 60
  fromObject l := if l < change + 3600000 then l else l - 3600000
  plusDays t n :=
    if (if t + n * 86400000 < change then (0 : Int) else 60) = if t < change then 0 else 60 then
      t + n * 86400000
    else
      let l := t + (if t < change then 0 else 60) * 60000 + n * 86400000
      if l < change + 3600000 then l else l - 3600000
  possibleOffsets t := [t]
  offset_bound t := by split <;> omega
  offset_change t := ⟨change, 0, 60, by omega, by omega, fun _ _ _ => rfl⟩
  fromObject_exact l t h := by split at h <;> split <;> split <;> omega
  fromObject_skipped l h := by
    have hbefore := h l
    have hafter := h (l - 3600000)
    have hlo : ¬ l < change := fun hlt => hbefore (by rw [if_pos hlt]; omega)
    have hhi : l < change + 3600000 := by
      by_contra hge
      exact hafter (by rw [if_neg (by omega)]; omega)
    refine ⟨change - 1, ?_⟩
    rw [if_pos hhi, if_neg hlo, if_pos (by omega)]
    omega
  plusDays_exact t n u h := by
    dsimp only at h ⊢
    split_ifs at h ⊢ <;> omega
  plusDays_skipped t n h := by
    have hbefore := h (t + (if t < change then 0 else 60) * 60000 + n * 86400000)
    have hafter := h (t + (if t < change then 0 else 60) * 60000 + n * 86400000 - 3600000)
    refine ⟨change - 1, ?_⟩
    dsimp only at hbefore hafter ⊢
    split_ifs at hbefore hafter ⊢ <;> omega
  plusDays_steady t n h := by rw [if_pos h]
  nodup_possibleOffsets t := nodup_one t
  mem_possibleOffsets t u := by
    rw [List.mem_singleton]
    split <;> split <;> omega

variable {z : Zone}

/-- An instant whose wall clock is on a later date than that of the start of `date` comes later. -/
theorem parseLocalDate_lt {date t : Int} (h : (date + 1) * 86400000 ≤ z.wallClock t) :
    parseLocalDate date z < t := by
  unfold parseLocalDate
  by_cases hmid : z.HasMidnight date
  · have hstart := wallClock_parseLocalDate hmid
    exact lt_of_wallClock (z := z) (by unfold parseLocalDate at hstart; omega)
  · -- the gap that skips midnight is the only change around it
    obtain ⟨u, hlt, hle, hoff, heq⟩ := z.fromObject_skipped (date * 86400000) fun v hv => hmid ⟨v, hv⟩
    generalize z.fromObject (date * 86400000) = start at *
    by_contra hge
    have htb := z.offset_bound t
    have hub := z.offset_bound u
    have hsb := z.offset_bound start
    unfold wallClock at h
    obtain ⟨c, a, b, hlo, hhi, hchange⟩ := z.offset_change (start - 2 * 86400000)
    have hot := hchange t (by omega) (by omega)
    have hou := hchange u (by omega) (by omega)
    have hos := hchange start (by omega) (by omega)
    split_ifs at hot hou hos <;> omega

/-- From the midnight before, `plus` reaches the start of a date. -/
theorem plusDays_le_parseLocalDate {date t : Int} (h : z.wallClock t = date * 86400000) :
    z.plusDays t 1 ≤ parseLocalDate (date + 1) z := by
  by_cases hmid : z.HasMidnight (date + 1)
  · have hstart := wallClock_parseLocalDate hmid
    exact plusDays_le (by omega)
  · have hnone : ∀ v, z.wallClock v ≠ (date + 1) * 86400000 := fun v hv => hmid ⟨v, hv⟩
    -- both are shifted out of the same gap
    obtain ⟨u, hlt, hle, hoff, heq⟩ := z.fromObject_skipped ((date + 1) * 86400000) hnone
    obtain ⟨v, hlt', hle', hoff', heq'⟩ := z.plusDays_skipped t 1 fun w hw => hnone w <| by
      unfold wallClock at h ⊢
      omega
    have hub := z.offset_bound u
    have hvb := z.offset_bound v
    unfold wallClock at h
    unfold parseLocalDate
    generalize z.fromObject ((date + 1) * 86400000) = start at *
    generalize z.plusDays t 1 = next at *
    by_contra hgt
    obtain ⟨c, a, b, hlo, hhi, hchange⟩ := z.offset_change (start - 86400000)
    have hou := hchange u (by omega) (by omega)
    have hov := hchange v (by omega) (by omega)
    have hos := hchange start (by omega) (by omega)
    have hon := hchange next (by omega) (by omega)
    split_ifs at hou hov hos hon <;> omega

end Zone

variable {z : Zone}

section WallClock

/-- The instant of a wall clock shows its date and its minute; minute 1440 is the next midnight. -/
theorem wallClockToInstant_fields {date t : Int} {minute : MinuteOfDay}
    (h : wallClockToInstant date minute z = .ok t) :
    instantToLocalDate t z = (if minute.val = 1440 then date + 1 else date) ∧
      instantToMinuteOfDay t z = if minute.val = 1440 then 0 else minute.val := by
  have hmin := minute.property
  have hshow := (wallClockToInstant_eq_ok.mp h).1
  unfold instantToLocalDate instantToMinuteOfDay Zone.dateOf Zone.minuteOf
  rw [hshow]
  constructor <;> split <;> omega

theorem wallClockToInstant_lt {date t u : Int} {minute later : MinuteOfDay}
    (ht : wallClockToInstant date minute z = .ok t) (hu : wallClockToInstant date later z = .ok u)
    (h : minute.val < later.val) : t < u := by
  have hmin := (wallClockToInstant_eq_ok.mp ht).1
  obtain ⟨hlater, hunique⟩ := wallClockToInstant_eq_ok.mp hu
  have hiff := Zone.le_wallClock_iff (t := t) hlater hunique
  by_contra hle
  have := hiff.mpr (by omega)
  omega

/-- Wall clocks convert exactly when one instant shows them, back to the same fields, in order. -/
theorem wallClock_conversion (z : Zone) (date : Int) :
    (∀ minute : MinuteOfDay, (∃ t, wallClockToInstant date minute z = .ok t) ↔
      ∃! t, z.wallClock t = date * 86400000 + minute.val * 60000) ∧
    (∀ (minute : MinuteOfDay) (t : Int), wallClockToInstant date minute z = .ok t →
      z.wallClock t = date * 86400000 + minute.val * 60000 ∧
      instantToLocalDate t z = (if minute.val = 1440 then date + 1 else date) ∧
      instantToMinuteOfDay t z = if minute.val = 1440 then 0 else minute.val) ∧
    ∀ (minute later : MinuteOfDay) (t u : Int), wallClockToInstant date minute z = .ok t →
      wallClockToInstant date later z = .ok u → minute.val < later.val → t < u := by
  refine ⟨fun minute => ?_, fun minute t h => ?_, fun minute later t u => wallClockToInstant_lt⟩
  · exact exists_congr fun t => wallClockToInstant_eq_ok
  · exact ⟨(wallClockToInstant_eq_ok.mp h).1, wallClockToInstant_fields h⟩

end WallClock

section Enumeration

/-- The cursor of `eachLocalDate` after `n` rounds. -/
def cursorAfter (first : Int) (z : Zone) (n : Nat) : Int :=
  (fun cursor => z.plusDays cursor 1)^[n] (parseLocalDate first z)

theorem cursorAfter_succ (first : Int) (n : Nat) :
    cursorAfter first z (n + 1) = z.plusDays (cursorAfter first z n) 1 :=
  Function.iterate_succ_apply' ..

/-- A round takes the wall clock a day further, or more. -/
theorem wallClock_cursorAfter_succ (first : Int) (n : Nat) :
    z.wallClock (cursorAfter first z n) + 86400000 ≤ z.wallClock (cursorAfter first z (n + 1)) := by
  have := (z.wallClock_plusDays z.changesBelow_day (by omega) (cursorAfter first z n) 1).1
  rw [cursorAfter_succ]
  omega

theorem wallClock_cursorAfter_add (first : Int) (n k : Nat) :
    z.wallClock (cursorAfter first z n) + k * 86400000 ≤
      z.wallClock (cursorAfter first z (n + k)) := by
  induction k with
  | zero => simp
  | succ k ih =>
    have := wallClock_cursorAfter_succ (z := z) first (n + k)
    rw [← Nat.add_assoc]
    push_cast
    omega

theorem cursorAfter_mono (first : Int) {m n : Nat} (h : m ≤ n) : cursorAfter first z m ≤ cursorAfter first z n := by
  induction n, h using Nat.le_induction with
  | base => exact le_rfl
  | succ n _ ih =>
    rw [cursorAfter_succ]
    exact ih.trans (z.lt_plusDays _).le

theorem le_wallClock_cursorAfter (first : Int) (n : Nat) :
    (first + n) * 86400000 ≤ z.wallClock (cursorAfter first z n) := by
  have hstart := (Zone.dateOf_eq.mp (dateOf_parseLocalDate (z := z) first)).1
  have hgrow := wallClock_cursorAfter_add (z := z) first 0 n
  rw [Nat.zero_add] at hgrow
  unfold cursorAfter at hgrow ⊢
  simp only [Function.iterate_zero, id] at hgrow
  omega

/-- The loop lists the dates of its cursors up to the last one that is not past the end. -/
theorem eachLocalDateFrom_iterate {stop : Int} (n : Nat) : ∀ {cursor : Int} {rounds : Nat},
    (fun t => z.plusDays t 1)^[n] cursor ≤ stop → stop < (fun t => z.plusDays t 1)^[n + 1] cursor →
    (∀ i ≤ n, (fun t => z.plusDays t 1)^[i] cursor ≤ stop) → stop - cursor + 1 ≤ rounds →
    eachLocalDateFrom z stop rounds cursor =
      (List.range (n + 1)).map fun i => z.dateOf ((fun t => z.plusDays t 1)^[i] cursor) := by
  induction n with
  | zero =>
    intro cursor rounds hle hpast _ hrounds
    obtain ⟨rounds, rfl⟩ : ∃ r, rounds = r + 1 := ⟨rounds - 1, by simp at hle; omega⟩
    simp only [Function.iterate_zero, id, Function.iterate_succ, Function.comp_apply] at hle hpast
    simp [eachLocalDateFrom, hle, eachLocalDateFrom_past hpast]
  | succ n ih =>
    intro cursor rounds hle hpast hall hrounds
    have hfirst : cursor ≤ stop := hall 0 (Nat.zero_le _)
    obtain ⟨rounds, rfl⟩ : ∃ r, rounds = r + 1 := ⟨rounds - 1, by omega⟩
    have hgrow := z.lt_plusDays cursor
    have hrest := @ih (z.plusDays cursor 1) rounds hle hpast (fun i hi => hall (i + 1) (by omega))
      (by omega)
    rw [eachLocalDateFrom, if_pos hfirst, hrest, List.range_succ_eq_map (n := n + 1),
      List.map_cons, List.map_map]
    rfl

/-- What the loop lists, it lists of cursors that are not past the end. -/
theorem iterate_le_of_lt_length {stop : Int} (n : Nat) : ∀ {cursor : Int} {rounds : Nat},
    n < (eachLocalDateFrom z stop rounds cursor).length →
    (fun t => z.plusDays t 1)^[n] cursor ≤ stop := by
  induction n with
  | zero =>
    intro cursor rounds hlen
    by_contra hgt
    have hnil := @eachLocalDateFrom_past z stop cursor (not_le.mp hgt) rounds
    exact absurd hlen (by simp [hnil])
  | succ n ih =>
    intro cursor rounds hlen
    cases rounds with
    | zero => exact absurd hlen (by simp [eachLocalDateFrom])
    | succ rounds =>
      unfold eachLocalDateFrom at hlen
      split at hlen
      · exact ih (by simpa using hlen)
      · exact absurd hlen (by simp)

/-- The dates `first` to `last`. -/
def datesFrom (first last : Int) : List Int :=
  (List.range (last + 1 - first).toNat).map fun i : Nat => first + (i : Int)

/-- The enumeration is complete exactly when the cursor reaches the start of the last date. -/
theorem eachLocalDate_eq_datesFrom {first last : Int} (h : first ≤ last) :
    eachLocalDate first last z = datesFrom first last ↔
      cursorAfter first z (last - first).toNat ≤ parseLocalDate last z := by
  obtain ⟨n, rfl⟩ : ∃ n : Nat, last = first + n := ⟨(last - first).toNat, by omega⟩
  rw [show (first + (n : Int) - first).toNat = n by omega, datesFrom,
    show (first + (n : Int) + 1 - first).toNat = n + 1 by omega]
  constructor
  · intro hlist
    have hlength : n < (eachLocalDate first (first + n) z).length := by
      rw [hlist]
      simp
    exact iterate_le_of_lt_length n hlength
  · intro hle
    have hmono {m n : Nat} (h : m ≤ n) := cursorAfter_mono (z := z) first h
    have hpast : parseLocalDate (first + n) z < cursorAfter first z (n + 1) :=
      Zone.parseLocalDate_lt (by
        have := le_wallClock_cursorAfter (z := z) first (n + 1)
        push_cast at this
        omega)
    -- a cursor that ran ahead by a date would be past the end
    have hdate : ∀ i ≤ n, z.dateOf (cursorAfter first z i) = first + i := by
      intro i hi
      rw [Zone.dateOf_eq]
      refine ⟨le_wallClock_cursorAfter first i, ?_⟩
      by_contra hahead
      have hgrow := wallClock_cursorAfter_add (z := z) first i (n - i)
      rw [show i + (n - i) = n by omega] at hgrow
      have : parseLocalDate (first + n) z < cursorAfter first z n :=
        Zone.parseLocalDate_lt (by push_cast [hi] at hgrow; omega)
      omega
    have hstart := hmono (Nat.zero_le n)
    unfold eachLocalDate
    rw [eachLocalDateFrom_iterate n hle hpast (fun i hi => (hmono hi).trans hle) (by omega)]
    exact List.map_congr_left fun i hi => hdate i (by simpa [Nat.lt_succ_iff] using hi)

theorem eachLocalDate_self (date : Int) : eachLocalDate date date z = [date] := by
  rw [(eachLocalDate_eq_datesFrom (le_refl date)).mpr (by simp [cursorAfter]), datesFrom,
    show (date + 1 - date).toNat = 1 by omega]
  simp

theorem exists_iterate_of_mem {stop d : Int} (rounds : Nat) : ∀ {cursor : Int},
    d ∈ eachLocalDateFrom z stop rounds cursor →
    ∃ n : Nat, (fun t => z.plusDays t 1)^[n] cursor ≤ stop ∧
      z.dateOf ((fun t => z.plusDays t 1)^[n] cursor) = d := by
  induction rounds with
  | zero => exact fun h => by cases h
  | succ rounds ih =>
    intro cursor h
    unfold eachLocalDateFrom at h
    split at h
    · rcases List.mem_cons.mp h with rfl | h
      · exact ⟨0, ‹_›, rfl⟩
      · obtain ⟨n, hn⟩ := ih h
        exact ⟨n + 1, hn⟩
    · cases h

theorem mem_of_iterate {stop d : Int} (n : Nat) : ∀ {cursor : Int} {rounds : Nat},
    stop - cursor + 1 ≤ rounds → (∀ i ≤ n, (fun t => z.plusDays t 1)^[i] cursor ≤ stop) →
    z.dateOf ((fun t => z.plusDays t 1)^[n] cursor) = d → d ∈ eachLocalDateFrom z stop rounds cursor := by
  induction n with
  | zero =>
    intro cursor rounds hrounds hall hd
    have hle : cursor ≤ stop := hall 0 (le_refl 0)
    obtain ⟨rounds, rfl⟩ : ∃ r, rounds = r + 1 := ⟨rounds - 1, by omega⟩
    rw [eachLocalDateFrom, if_pos hle]
    exact List.mem_cons.mpr (.inl hd.symm)
  | succ n ih =>
    intro cursor rounds hrounds hall hd
    have hle : cursor ≤ stop := hall 0 (Nat.zero_le _)
    obtain ⟨rounds, rfl⟩ : ∃ r, rounds = r + 1 := ⟨rounds - 1, by omega⟩
    have hgrow := z.lt_plusDays cursor
    rw [eachLocalDateFrom, if_pos hle]
    exact List.mem_cons_of_mem _
      (@ih (z.plusDays cursor 1) rounds (by omega) (fun i hi => hall (i + 1) (by omega)) hd)

/-- What is listed are the dates of the cursors that are not past the start of the last date. -/
theorem mem_eachLocalDate_iff {first last d : Int} : d ∈ eachLocalDate first last z ↔
    ∃ n, cursorAfter first z n ≤ parseLocalDate last z ∧ z.dateOf (cursorAfter first z n) = d := by
  refine ⟨exists_iterate_of_mem _, fun ⟨n, hle, hd⟩ => mem_of_iterate n (by omega) ?_ hd⟩
  exact fun i hi => (cursorAfter_mono first hi).trans hle

theorem parseLocalDate_mono {date later : Int} (h : date ≤ later) :
    parseLocalDate date z ≤ parseLocalDate later z := by
  rcases eq_or_lt_of_le h with rfl | hlt
  · exact le_refl _
  · have hstart := Zone.dateOf_eq.mp (dateOf_parseLocalDate (z := z) later)
    exact (Zone.parseLocalDate_lt (by omega)).le

/-- Complete or not, the enumeration stays within the range. -/
theorem bounds_of_mem_eachLocalDate {first last d : Int} (h : d ∈ eachLocalDate first last z) :
    first ≤ d ∧ d ≤ last := by
  obtain ⟨n, hle, hd⟩ : ∃ n, cursorAfter first z n ≤ parseLocalDate last z ∧
      z.dateOf (cursorAfter first z n) = d := exists_iterate_of_mem _ h
  have hge := le_wallClock_cursorAfter (z := z) first n
  have hdate := Zone.dateOf_eq.mp hd
  refine ⟨by omega, ?_⟩
  by_contra hlt
  have := @Zone.parseLocalDate_lt z last (cursorAfter first z n) (by omega)
  omega

/-- Along existing midnights the cursor stays at midnight. -/
theorem wallClock_cursorAfter {first : Int} (n : Nat)
    (h : ∀ i : Nat, i ≤ n → z.HasMidnight (first + i)) :
    z.wallClock (cursorAfter first z n) = (first + n) * 86400000 := by
  induction n with
  | zero => simpa [cursorAfter] using wallClock_parseLocalDate (h 0 (le_refl 0))
  | succ n ih =>
    have hshow := ih fun i hi => h i (by omega)
    obtain ⟨u, hu⟩ := h (n + 1) (le_refl _)
    have hplus := (z.wallClock_plusDays z.changesBelow_day (by omega) (cursorAfter first z n) 1).2.2
    rw [cursorAfter_succ, hplus ⟨u, by push_cast at hu; omega⟩]
    push_cast
    omega

/-- Skipped midnights do no harm from the last date on. -/
theorem cursorAfter_le_of_midnights {first last : Int} (h : first ≤ last)
    (hmid : ∀ d, first ≤ d → d < last → z.HasMidnight d) :
    cursorAfter first z (last - first).toNat ≤ parseLocalDate last z := by
  obtain ⟨n, rfl⟩ : ∃ n : Nat, last = first + n := ⟨(last - first).toNat, by omega⟩
  rw [show (first + (n : Int) - first).toNat = n by omega]
  cases n with
  | zero => simp [cursorAfter]
  | succ n =>
    have hshow := @wallClock_cursorAfter z first n fun i hi =>
      hmid _ (by omega) (by push_cast; omega)
    have hreach := Zone.plusDays_le_parseLocalDate hshow
    rw [cursorAfter_succ]
    push_cast
    rwa [← add_assoc]

/-- Before a last date with one midnight every skipped midnight does. -/
theorem midnights_of_cursorAfter_le {first last stop : Int} (h : first ≤ last)
    (hstop : wallClockToInstant last ⟨0, MinuteOfDay.midnight_le⟩ z = .ok stop)
    (hle : cursorAfter first z (last - first).toNat ≤ parseLocalDate last z) :
    ∀ d, first ≤ d → d < last → z.HasMidnight d := by
  obtain ⟨n, rfl⟩ : ∃ n : Nat, last = first + n := ⟨(last - first).toNat, by omega⟩
  rw [show (first + (n : Int) - first).toNat = n by omega] at hle
  obtain ⟨hshow, hunique⟩ := wallClockToInstant_eq_ok.mp hstop
  simp only [Nat.cast_zero, zero_mul, add_zero] at hshow hunique
  have hparse : parseLocalDate (first + n) z = stop :=
    hunique _ (wallClock_parseLocalDate ⟨stop, hshow⟩)
  have hge := le_wallClock_cursorAfter (z := z) first n
  -- the cursor has not lost a minute by then
  have hreach := (Zone.le_wallClock_iff (t := cursorAfter first z n) hshow hunique).mp hge
  have heq : cursorAfter first z n = stop := by omega
  rw [heq, hshow] at hge
  intro d hd hd'
  obtain ⟨i, rfl⟩ : ∃ i : Nat, d = first + i := ⟨(d - first).toNat, by omega⟩
  have hgrow := wallClock_cursorAfter_add (z := z) first i (n - i)
  rw [show i + (n - i) = n by omega, heq, hshow] at hgrow
  have hat := le_wallClock_cursorAfter (z := z) first i
  have hi : i ≤ n := by omega
  exact ⟨_, le_antisymm (by push_cast [hi] at hgrow; omega) hat⟩

/-- When `eachLocalDate` lists exactly the calendar dates: when its cursor is not past the start of
the last date after as many days. No skipped midnight before the last date is enough, and
necessary where the last date has one midnight. -/
theorem eachLocalDate_complete {first last : Int} (h : first ≤ last) :
    (eachLocalDate first last z = datesFrom first last ↔
      cursorAfter first z (last - first).toNat ≤ parseLocalDate last z) ∧
    ((∀ d, first ≤ d → d < last → z.HasMidnight d) →
      eachLocalDate first last z = datesFrom first last) ∧
    ((∃ stop, wallClockToInstant last ⟨0, MinuteOfDay.midnight_le⟩ z = .ok stop) →
      (eachLocalDate first last z = datesFrom first last ↔
        ∀ d, first ≤ d → d < last → z.HasMidnight d)) := by
  have hiff := eachLocalDate_eq_datesFrom (z := z) h
  refine ⟨hiff, fun hmid => hiff.mpr (cursorAfter_le_of_midnights h hmid), ?_⟩
  rintro ⟨stop, hstop⟩
  exact ⟨fun hlist => midnights_of_cursorAfter_le h hstop (hiff.mp hlist),
    fun hmid => hiff.mpr (cursorAfter_le_of_midnights h hmid)⟩

theorem eachLocalDate_complete_utc : eachLocalDate 0 2 Zone.utc = datesFrom 0 2 :=
  (@eachLocalDate_complete .utc 0 2 (by omega)).1.mpr (by decide)

/-- The clocks skip the midnight that starts 2 January 1970, and 3 January is not listed. -/
theorem eachLocalDate_drops_last :
    eachLocalDate 1 2 (Zone.forward 86400000) = [1] ∧ datesFrom 1 2 = [1, 2] ∧
      eachLocalDate 1 2 (Zone.forward 86400000) ≠ datesFrom 1 2 :=
  ⟨rfl, rfl, by decide⟩

end Enumeration

end BookingApp
