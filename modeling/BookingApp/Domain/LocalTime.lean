import Mathlib.Algebra.Order.Ring.Int
import Mathlib.Data.List.Perm.Subperm
import Mathlib.Tactic.Linarith

/-!
# Wall clock and instants (`domain/time/local-time.ts`)

A zone is what the source asks of luxon: the offset of an instant, the instant
`DateTime.fromObject` makes of a local time, `plus({ days })` and
`getPossibleOffsets`. Its laws are their documented behaviour. Instants and
local times are milliseconds, a local date is its number of days since
1970-01-01, and offsets are whole minutes.
-/

set_option autoImplicit false

namespace BookingApp

/-- Minutes from local midnight; 1440 is the next midnight. -/
abbrev MinuteOfDay := { m : Nat // m ≤ 1440 }

namespace MinuteOfDay

theorem midnight_le : 0 ≤ 1440 := by omega

theorem nine_le : 540 ≤ 1440 := by omega

theorem ten_le : 600 ≤ 1440 := by omega

theorem thirteen_le : 780 ≤ 1440 := by omega

theorem seventeen_le : 1020 ≤ 1440 := by omega

end MinuteOfDay

/-- A time zone. The offset changes at most once in any three days, and by less than a day. A
local time that a change skips is read with the offset before the gap, which shifts it forward
by the size of the gap. -/
structure Zone where
  offset : Int → Int
  fromObject : Int → Int
  plusDays : Int → Int → Int
  possibleOffsets : Int → List Int
  offset_bound : ∀ t, -1440 < offset t ∧ offset t < 1440
  offset_change : ∀ t, ∃ c a b, -1440 < b - a ∧ b - a < 1440 ∧
    ∀ u, t ≤ u → u < t + 3 * 86400000 → offset u = if u < c then a else b
  fromObject_exact : ∀ l t, t + offset t * 60000 = l →
    fromObject l + offset (fromObject l) * 60000 = l
  fromObject_skipped : ∀ l, (∀ t, t + offset t * 60000 ≠ l) →
    ∃ u, u < fromObject l ∧ fromObject l ≤ u + 86400000 ∧ offset u < offset (fromObject l) ∧
      fromObject l + offset u * 60000 = l
  plusDays_exact : ∀ t n u, u + offset u * 60000 = t + offset t * 60000 + n * 86400000 →
    plusDays t n + offset (plusDays t n) * 60000 = t + offset t * 60000 + n * 86400000
  plusDays_skipped : ∀ t n,
    (∀ u, u + offset u * 60000 ≠ t + offset t * 60000 + n * 86400000) →
    ∃ u, u < plusDays t n ∧ plusDays t n ≤ u + 86400000 ∧ offset u < offset (plusDays t n) ∧
      plusDays t n + offset u * 60000 = t + offset t * 60000 + n * 86400000
  plusDays_steady : ∀ t n, offset (t + n * 86400000) = offset t → plusDays t n = t + n * 86400000
  nodup_possibleOffsets : ∀ t, (possibleOffsets t).Nodup
  mem_possibleOffsets : ∀ t u, u ∈ possibleOffsets t ↔
    u + offset u * 60000 = t + offset t * 60000

namespace Zone

theorem nodup_one (t : Int) : [t].Nodup := by simp

/-- Coordinated universal time. -/
def utc : Zone where
  offset _ := 0
  fromObject l := l
  plusDays t n := t + n * 86400000
  possibleOffsets t := [t]
  offset_bound _ := by omega
  offset_change _ := ⟨0, 0, 0, by omega, by omega, fun _ _ _ => by simp⟩
  fromObject_exact _ _ _ := by simp
  fromObject_skipped l h := absurd (by simp) (h l)
  plusDays_exact _ _ _ _ := by simp
  plusDays_skipped t n h := absurd (by simp) (h (t + n * 86400000))
  plusDays_steady _ _ _ := rfl
  nodup_possibleOffsets t := nodup_one t
  mem_possibleOffsets _ _ := by simp

variable (z : Zone)

/-- What the wall clock shows at `t`, as a local time. -/
def wallClock (t : Int) : Int :=
  t + z.offset t * 60000

/-- The calendar date of `t` in the zone. -/
def dateOf (t : Int) : Int :=
  z.wallClock t / 86400000

/-- `hour * 60 + minute` of `t` in the zone. -/
def minuteOf (t : Int) : Int :=
  z.wallClock t % 86400000 / 60000

/-- Local midnight of `date` exists. -/
def HasMidnight (date : Int) : Prop :=
  ∃ t, z.wallClock t = date * 86400000

end Zone

inductive SkipReason where
  | NONEXISTENT
  | AMBIGUOUS
  deriving DecidableEq, Repr

inductive WallClockResult where
  | ok (instant : Int)
  | skipped (reason : SkipReason)
  deriving DecidableEq, Repr

inductive Weekday where
  | MONDAY | TUESDAY | WEDNESDAY | THURSDAY | FRIDAY | SATURDAY | SUNDAY
  deriving DecidableEq, Repr

/-- The start of `date`: midnight, or the first moment after the gap that swallows it. -/
def parseLocalDate (date : Int) (z : Zone) : Int :=
  z.fromObject (date * 86400000)

/-- The instant of a local wall clock, or why there is none. -/
def wallClockToInstant (date : Int) (minute : MinuteOfDay) (z : Zone) : WallClockResult :=
  let startOfDay := parseLocalDate date z
  -- minute 1440 is midnight of the next calendar date
  let day := if minute.val = 1440 then z.dateOf startOfDay + 1 else z.dateOf startOfDay
  let minuteOfDay : Int := if minute.val = 1440 then 0 else minute.val
  let candidate := z.fromObject (day * 86400000 + minuteOfDay * 60000)
  -- luxon shifts a skipped local time forward, so the fields tell a gap
  if z.dateOf candidate ≠ day ∨ z.minuteOf candidate ≠ minuteOfDay then .skipped .NONEXISTENT
  else if (z.possibleOffsets candidate).length > 1 then .skipped .AMBIGUOUS
  else .ok candidate

def instantToLocalDate (instant : Int) (z : Zone) : Int :=
  z.dateOf instant

/-- The loop of `eachLocalDate`; it moves on by at least a millisecond a round. -/
def eachLocalDateFrom (z : Zone) (last : Int) : Nat → Int → List Int
  | 0, _ => []
  | rounds + 1, cursor =>
    if cursor ≤ last then
      z.dateOf cursor :: eachLocalDateFrom z last rounds (z.plusDays cursor 1)
    else []

/-- The local dates from `first` to `last`, both included. -/
def eachLocalDate (first last : Int) (z : Zone) : List Int :=
  let cursor := parseLocalDate first z
  let stop := parseLocalDate last z
  eachLocalDateFrom z stop (stop - cursor + 1).toNat cursor

/-- 1970-01-01 was a Thursday. -/
def weekdayOf (date : Int) (z : Zone) : Weekday :=
  match (z.dateOf (parseLocalDate date z) + 3) % 7 with
  | 0 => .MONDAY
  | 1 => .TUESDAY
  | 2 => .WEDNESDAY
  | 3 => .THURSDAY
  | 4 => .FRIDAY
  | 5 => .SATURDAY
  | _ => .SUNDAY

def addLocalDays (date : Int) (days : Int) (z : Zone) : Int :=
  z.dateOf (z.plusDays (parseLocalDate date z) days)

/-- The value of a `date` column: midnight of the date in UTC. -/
def localDateToDateColumn (date : Int) : Int :=
  date * 86400000

namespace Zone

variable {z : Zone}

/-- Within three days the offset changes by less than a day. -/
theorem offset_sub_lt {t u : Int} (h : t ≤ u) (hu : u < t + 3 * 86400000) :
    -1440 < z.offset u - z.offset t ∧ z.offset u - z.offset t < 1440 := by
  obtain ⟨c, a, b, hlo, hhi, hoff⟩ := z.offset_change t
  rw [hoff u h hu, hoff t (le_refl t) (by omega)]
  split <;> split <;> omega

theorem dateOf_eq {t : Int} {date : Int} :
    z.dateOf t = date ↔ date * 86400000 ≤ z.wallClock t ∧ z.wallClock t < (date + 1) * 86400000 := by
  unfold dateOf
  omega

/-- Two instants whose wall clocks are a day or more apart come in the same order. -/
theorem lt_of_wallClock {t u : Int} (h : z.wallClock t + 86400000 ≤ z.wallClock u) : t < u := by
  by_contra hle
  have ht := z.offset_bound t
  have hu := z.offset_bound u
  unfold wallClock at h
  have hnear := z.offset_sub_lt (t := u) (u := t) (by omega) (by omega)
  omega

/-- Every change of the offset is below `m` minutes. -/
def ChangesBelow (z : Zone) (m : Int) : Prop :=
  ∀ t u, t ≤ u → u < t + 3 * 86400000 → z.offset u - z.offset t < m

theorem changesBelow_day (z : Zone) : z.ChangesBelow 1440 :=
  fun _ _ h hu => (z.offset_sub_lt h hu).2

theorem wallClock_fromObject {m : Int} (hm : z.ChangesBelow m) (l : Int) :
    z.wallClock (z.fromObject l) = l ∧ (∃ t, z.wallClock t = l) ∨
      (∀ t, z.wallClock t ≠ l) ∧
        ∃ gap, 0 < gap ∧ gap < m ∧ z.wallClock (z.fromObject l) = l + gap * 60000 := by
  by_cases h : ∃ t, z.wallClock t = l
  · obtain ⟨t, ht⟩ := h
    exact .inl ⟨z.fromObject_exact l t ht, t, ht⟩
  · obtain ⟨u, hlt, hle, hoff, heq⟩ := z.fromObject_skipped l fun t ht => h ⟨t, ht⟩
    have hgap := hm u (z.fromObject l) hlt.le (by omega)
    refine .inr ⟨fun t ht => h ⟨t, ht⟩, z.offset (z.fromObject l) - z.offset u, by omega, hgap, ?_⟩
    unfold wallClock
    omega

/-- `plus({ days })` keeps the wall clock, or shifts it forward out of a gap. -/
theorem wallClock_plusDays {m : Int} (hm : z.ChangesBelow m) (hpos : 0 < m) (t n : Int) :
    z.wallClock t + n * 86400000 ≤ z.wallClock (z.plusDays t n) ∧
      z.wallClock (z.plusDays t n) < z.wallClock t + n * 86400000 + m * 60000 ∧
      ((∃ u, z.wallClock u = z.wallClock t + n * 86400000) →
        z.wallClock (z.plusDays t n) = z.wallClock t + n * 86400000) := by
  by_cases h : ∃ u, z.wallClock u = z.wallClock t + n * 86400000
  · obtain ⟨u, hu⟩ := h
    have := z.plusDays_exact t n u hu
    unfold wallClock
    omega
  · obtain ⟨u, hlt, hle, hoff, heq⟩ := z.plusDays_skipped t n fun u hu => h ⟨u, hu⟩
    have hgap := hm u (z.plusDays t n) hlt.le (by omega)
    refine ⟨?_, ?_, fun h' => absurd h' h⟩ <;> unfold wallClock <;> omega

theorem lt_plusDays (t : Int) : t < z.plusDays t 1 := by
  have h := (z.wallClock_plusDays z.changesBelow_day (by omega) t 1).1
  exact lt_of_wallClock (z := z) (by omega)

/-- A day later, `plus` picks the first instant with the wall clock it looks for. -/
theorem plusDays_le {t u : Int} (h : z.wallClock u = z.wallClock t + 86400000) :
    z.plusDays t 1 ≤ u := by
  obtain ⟨c, a, b, -, -, hoff⟩ := z.offset_change t
  have htb := z.offset_bound t
  have hub := z.offset_bound u
  have htu : t < u := lt_of_wallClock (z := z) (by omega)
  have hnext : z.wallClock (z.plusDays t 1) = z.wallClock t + 86400000 := by
    have := (z.wallClock_plusDays z.changesBelow_day (by omega) t 1).2.2 ⟨u, by omega⟩
    omega
  have hnb := z.offset_bound (z.plusDays t 1)
  have htn := z.lt_plusDays t
  unfold wallClock at h hnext
  -- all of these instants lie within three days, so they see the two offsets `a` and `b` only
  have hot := hoff t (le_refl t) (by omega)
  have hou := hoff u (by omega) (by omega)
  have hon := hoff (z.plusDays t 1) (by omega) (by omega)
  have hod := hoff (t + 1 * 86400000) (by omega) (by omega)
  by_cases hsteady : z.offset (t + 1 * 86400000) = z.offset t
  · have hplus := z.plusDays_steady t 1 hsteady
    by_cases hc : t < c <;> by_cases hcu : u < c <;> by_cases hcd : t + 1 * 86400000 < c <;>
      simp only [hc, hcu, hcd, if_true, if_false] at hot hou hod <;> omega
  · by_cases hc : t < c <;> by_cases hcu : u < c <;> by_cases hcd : t + 1 * 86400000 < c <;>
      by_cases hcn : z.plusDays t 1 < c <;>
      simp only [hc, hcu, hcd, hcn, if_true, if_false] at hot hou hod hon <;> omega

end Zone

variable {z : Zone}

@[simp] theorem dateOf_parseLocalDate (date : Int) : z.dateOf (parseLocalDate date z) = date := by
  rw [Zone.dateOf_eq, parseLocalDate]
  rcases z.wallClock_fromObject z.changesBelow_day (date * 86400000) with ⟨h, -⟩ | ⟨-, gap, hpos, hlt, h⟩ <;>
    rw [h] <;> omega

theorem wallClock_parseLocalDate {date : Int} (h : z.HasMidnight date) :
    z.wallClock (parseLocalDate date z) = date * 86400000 := by
  obtain ⟨t, ht⟩ := h
  exact z.fromObject_exact _ t ht

theorem one_lt_length_possibleOffsets {t : Int} :
    (z.possibleOffsets t).length > 1 ↔ ∃ u, u ≠ t ∧ z.wallClock u = z.wallClock t := by
  have hnodup := z.nodup_possibleOffsets t
  have ht : t ∈ z.possibleOffsets t := (z.mem_possibleOffsets t t).mpr rfl
  constructor
  · intro hlen
    obtain ⟨u, hu, hne⟩ : ∃ u ∈ z.possibleOffsets t, u ≠ t := by
      by_contra hall
      push Not at hall
      have hsub : (z.possibleOffsets t).Subperm [t] :=
        List.Nodup.subperm hnodup fun u hu => by simp [hall u hu]
      have := List.Subperm.length_le hsub
      simp only [List.length_singleton] at this
      omega
    exact ⟨u, hne, (z.mem_possibleOffsets t u).mp hu⟩
  · rintro ⟨u, hne, hu⟩
    have hpair : [t, u].Nodup := by simp [hne.symm]
    have hsub : [t, u].Subperm (z.possibleOffsets t) := by
      refine List.Nodup.subperm hpair fun v hv => ?_
      rcases List.mem_cons.mp hv with rfl | hv
      · exact ht
      · rw [List.mem_singleton.mp hv]
        exact (z.mem_possibleOffsets t u).mpr hu
    exact List.Subperm.length_le hsub

/-- The conversion succeeds with `t` exactly when `t` alone shows the wall clock. -/
theorem wallClockToInstant_eq_ok {date : Int} {minute : MinuteOfDay} {t : Int} :
    wallClockToInstant date minute z = .ok t ↔
      z.wallClock t = date * 86400000 + minute.val * 60000 ∧
        ∀ u, z.wallClock u = date * 86400000 + minute.val * 60000 → u = t := by
  have hmin := minute.property
  obtain ⟨day, ofDay, hday, hofDay, hlocal, hlo, hhi⟩ : ∃ day ofDay : Int,
      (if minute.val = 1440 then date + 1 else date) = day ∧
      (if minute.val = 1440 then (0 : Int) else minute.val) = ofDay ∧
      date * 86400000 + minute.val * 60000 = day * 86400000 + ofDay * 60000 ∧
      0 ≤ ofDay ∧ ofDay < 1440 := by
    refine ⟨_, _, rfl, rfl, ?_, ?_, ?_⟩ <;> split <;> omega
  unfold wallClockToInstant
  simp only [dateOf_parseLocalDate, hday, hofDay]
  rw [hlocal]
  rcases z.wallClock_fromObject z.changesBelow_day (day * 86400000 + ofDay * 60000) with
    ⟨hshow, -⟩ | ⟨hnone, gap, hpos, hlt, hshow⟩
  · -- the wall clock exists
    have hfields : ¬(z.dateOf (z.fromObject (day * 86400000 + ofDay * 60000)) ≠ day ∨
        z.minuteOf (z.fromObject (day * 86400000 + ofDay * 60000)) ≠ ofDay) := by
      rw [Zone.dateOf, Zone.minuteOf, hshow]
      omega
    rw [if_neg hfields]
    split
    · rename_i hmany
      obtain ⟨u, hne, hu⟩ := one_lt_length_possibleOffsets.mp hmany
      simp only [reduceCtorEq, false_iff, not_and, not_forall]
      intro ht
      by_cases hut : u = t
      · exact ⟨_, hshow, fun h => hne (hut.trans h.symm)⟩
      · exact ⟨u, hu.trans hshow, hut⟩
    · rename_i hone
      rw [one_lt_length_possibleOffsets] at hone
      constructor
      · rintro h
        cases h
        refine ⟨hshow, fun u hu => ?_⟩
        by_contra hne
        exact hone ⟨u, hne, hu.trans hshow.symm⟩
      · rintro ⟨-, hunique⟩
        rw [hunique _ hshow]
  · -- the wall clock is skipped: the candidate shows a later minute
    have hfields : z.dateOf (z.fromObject (day * 86400000 + ofDay * 60000)) ≠ day ∨
        z.minuteOf (z.fromObject (day * 86400000 + ofDay * 60000)) ≠ ofDay := by
      rw [Zone.dateOf, Zone.minuteOf, hshow]
      omega
    rw [if_pos hfields]
    simp only [reduceCtorEq, false_iff, not_and]
    exact fun ht => absurd ht (hnone t)

/-- Past the last date the loop stops. -/
theorem eachLocalDateFrom_past {stop cursor : Int} (h : stop < cursor) (rounds : Nat) :
    eachLocalDateFrom z stop rounds cursor = [] := by
  cases rounds with
  | zero => rfl
  | succ rounds => simp [eachLocalDateFrom, not_le.mpr h]

theorem eachLocalDateFrom_eq {stop : Int} (n : Nat) : ∀ {date cursor : Int} {rounds : Nat},
    z.wallClock cursor = date * 86400000 → z.wallClock stop = (date + n) * 86400000 →
    (∀ d, date ≤ d → d ≤ date + n → z.HasMidnight d) → cursor ≤ stop →
    stop - cursor + 1 ≤ rounds →
    eachLocalDateFrom z stop rounds cursor = (List.range (n + 1)).map fun i : Nat => date + (i : Int) := by
  induction n with
  | zero =>
    intro date cursor rounds hcursor hstop _ hle hrounds
    obtain ⟨rounds, rfl⟩ : ∃ r, rounds = r + 1 := ⟨rounds - 1, by omega⟩
    have hdate : z.dateOf cursor = date := by rw [Zone.dateOf_eq, hcursor]; omega
    have hpast : stop < z.plusDays cursor 1 := by
      have := (z.wallClock_plusDays z.changesBelow_day (by omega) cursor 1).1
      exact Zone.lt_of_wallClock (z := z) (by omega)
    simp [eachLocalDateFrom, hle, hdate, eachLocalDateFrom_past hpast]
  | succ n ih =>
    intro date cursor rounds hcursor hstop hmid hle hrounds
    obtain ⟨rounds, rfl⟩ : ∃ r, rounds = r + 1 := ⟨rounds - 1, by omega⟩
    have hdate : z.dateOf cursor = date := by rw [Zone.dateOf_eq, hcursor]; omega
    have hnext : z.wallClock (z.plusDays cursor 1) = (date + 1) * 86400000 := by
      obtain ⟨u, hu⟩ := hmid (date + 1) (by omega) (by omega)
      have := (z.wallClock_plusDays z.changesBelow_day (by omega) cursor 1).2.2 ⟨u, by omega⟩
      omega
    have hnextle : z.plusDays cursor 1 ≤ stop := by
      rcases Nat.eq_zero_or_pos n with rfl | hn
      · exact Zone.plusDays_le (by omega)
      · exact (Zone.lt_of_wallClock (z := z) (by omega)).le
    have hgrow := z.lt_plusDays cursor
    have hrest := ih hnext (by push_cast at hstop ⊢; omega)
      (fun d hd hd' => hmid d (by omega) (by push_cast; omega)) hnextle
      (show stop - z.plusDays cursor 1 + 1 ≤ (rounds : Int) by omega)
    rw [eachLocalDateFrom, if_pos hle, hdate, hrest, List.range_succ_eq_map (n := n + 1),
      List.map_cons, List.map_map]
    refine congrArg₂ List.cons (by simp) (List.map_congr_left fun i _ => ?_)
    simp only [Function.comp, Nat.succ_eq_add_one]
    push_cast
    omega

/-- The wall clock of an instant that alone shows it is reached then, and not before. -/
theorem Zone.le_wallClock_iff {t u l : Int} (hu : z.wallClock u = l)
    (hunique : ∀ v, z.wallClock v = l → v = u) : l ≤ z.wallClock t ↔ u ≤ t := by
  have htb := z.offset_bound t
  have hub := z.offset_bound u
  -- another instant would show `l` where the offset is the one of `t`
  have hother : z.offset (l - z.offset t * 60000) = z.offset t → l - z.offset t * 60000 = u := by
    intro hoff
    refine hunique _ ?_
    rw [Zone.wallClock, hoff]
    omega
  unfold Zone.wallClock at hu ⊢
  constructor
  · intro hle
    by_contra hlt
    have hnear := z.offset_sub_lt (t := t) (u := u) (by omega) (by omega)
    obtain ⟨c, x, y, -, -, hoff⟩ := z.offset_change (l - z.offset t * 60000)
    have hot := hoff t (by omega) (by omega)
    have hou := hoff u (by omega) (by omega)
    have hov := hoff (l - z.offset t * 60000) (by omega) (by omega)
    have hsame : z.offset (l - z.offset t * 60000) = z.offset t := by
      split_ifs at hot hou hov <;> omega
    have := hother hsame
    omega
  · intro hle
    by_contra hlt
    have hnear := z.offset_sub_lt (t := u) (u := t) hle (by omega)
    obtain ⟨c, x, y, -, -, hoff⟩ := z.offset_change u
    have hot := hoff t (by omega) (by omega)
    have hou := hoff u (by omega) (by omega)
    have hov := hoff (l - z.offset t * 60000) (by omega) (by omega)
    have hsame : z.offset (l - z.offset t * 60000) = z.offset t := by
      split_ifs at hot hou hov <;> omega
    have := hother hsame
    omega

/-- Days are added up to the size of a gap. -/
theorem addLocalDays_bounds (date n : Int) :
    date + n ≤ addLocalDays date n z ∧ addLocalDays date n z ≤ date + n + 1 := by
  have hplus := z.wallClock_plusDays z.changesBelow_day (by omega) (parseLocalDate date z) n
  have hstart := Zone.dateOf_eq.mp (dateOf_parseLocalDate (z := z) date)
  unfold addLocalDays Zone.dateOf
  omega

/-- The day after, whatever midnights are skipped. -/
theorem addLocalDays_one (date : Int) : addLocalDays date 1 z = date + 1 := by
  have hplus := z.wallClock_plusDays z.changesBelow_day (by omega) (parseLocalDate date z) 1
  rw [addLocalDays, Zone.dateOf_eq]
  by_cases hmid : z.HasMidnight date
  · have hstart := wallClock_parseLocalDate hmid
    omega
  · -- the change that skips midnight is the only one until a day later
    obtain ⟨u, hlt, hle, hoff, heq⟩ := z.fromObject_skipped (date * 86400000) fun t ht => hmid ⟨t, ht⟩
    obtain ⟨c, x, y, -, hday, hchange⟩ := z.offset_change u
    unfold parseLocalDate at hplus ⊢
    generalize z.fromObject (date * 86400000) = start at *
    have hou := hchange u le_rfl (by omega)
    have hos := hchange start (by omega) (by omega)
    have hon := hchange (start + 1 * 86400000) (by omega) (by omega)
    have hsteady : z.offset (start + 1 * 86400000) = z.offset start := by
      split_ifs at hou hos hon <;> omega
    rw [z.plusDays_steady start 1 hsteady]
    unfold Zone.wallClock
    rw [hsteady]
    split_ifs at hou hos <;> omega

/-- With every midnight between its ends, `eachLocalDate` lists exactly the calendar dates. -/
theorem eachLocalDate_eq {first last : Int}
    (hmid : ∀ d, min first last ≤ d → d ≤ max first last → z.HasMidnight d) :
    eachLocalDate first last z =
      (List.range (last + 1 - first).toNat).map fun i : Nat => first + (i : Int) := by
  have hfirst := wallClock_parseLocalDate (hmid first (by omega) (by omega))
  have hlast := wallClock_parseLocalDate (hmid last (by omega) (by omega))
  unfold eachLocalDate
  rcases lt_or_ge last first with hlt | hle
  · have hpast : parseLocalDate last z < parseLocalDate first z :=
      Zone.lt_of_wallClock (z := z) (by omega)
    rw [eachLocalDateFrom_past hpast, show (last + 1 - first).toNat = 0 by omega]
    rfl
  · obtain ⟨n, hn⟩ : ∃ n : Nat, last = first + n := ⟨(last - first).toNat, by omega⟩
    have hcursor : parseLocalDate first z ≤ parseLocalDate last z := by
      rcases Nat.eq_zero_or_pos n with rfl | hpos
      · rw [hn, Nat.cast_zero, add_zero]
      · exact (Zone.lt_of_wallClock (z := z) (by omega)).le
    rw [eachLocalDateFrom_eq n hfirst (by omega) (fun d hd hd' => hmid d (by omega) (by omega))
      hcursor (by omega), show (last + 1 - first).toNat = n + 1 by omega]

theorem mem_eachLocalDate {first last d : Int}
    (hmid : ∀ d, min first last ≤ d → d ≤ max first last → z.HasMidnight d) :
    d ∈ eachLocalDate first last z ↔ first ≤ d ∧ d ≤ last := by
  rw [eachLocalDate_eq hmid, List.mem_map]
  constructor
  · rintro ⟨i, hi, rfl⟩
    rw [List.mem_range] at hi
    omega
  · rintro ⟨h, h'⟩
    exact ⟨(d - first).toNat, List.mem_range.mpr (by omega), by omega⟩

theorem addLocalDays_eq {date n : Int} (h : z.HasMidnight date) :
    addLocalDays date n z = date + n := by
  have hstart := wallClock_parseLocalDate h
  have hplus := z.wallClock_plusDays z.changesBelow_day (by omega) (parseLocalDate date z) n
  rw [addLocalDays, Zone.dateOf_eq]
  omega

/-- Where no change takes half a day, days are added exactly, whatever midnights are skipped. -/
theorem addLocalDays_eq_of_changesBelow (h : z.ChangesBelow 720) (date n : Int) :
    addLocalDays date n z = date + n := by
  have hplus := z.wallClock_plusDays h (by omega) (parseLocalDate date z) n
  rw [addLocalDays, Zone.dateOf_eq]
  unfold parseLocalDate at hplus ⊢
  rcases z.wallClock_fromObject h (date * 86400000) with ⟨hs, -⟩ | ⟨-, gap, hpos, hlt, hs⟩ <;> omega

end BookingApp
