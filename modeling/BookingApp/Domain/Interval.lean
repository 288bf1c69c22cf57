import Mathlib.Data.List.Sort
import Mathlib.Order.Interval.Set.Basic

/-!
# Half-open instant intervals (`domain/time/interval.ts`)

Ints are milliseconds since the epoch. The predicates and the two list
algorithms are those of the source; `exists_contains_subtract` says what the
pieces `subtract` leaves are good for: a block fits into one of them exactly
when it lies in the interval and overlaps no hole.
-/

set_option autoImplicit false

namespace BookingApp

/-- `[start, stop)`. -/
structure Interval where
  start : Int
  stop : Int
  deriving DecidableEq, Repr

namespace Interval

/-- The interval covers no time at all. -/
def isEmpty (i : Interval) : Bool :=
  decide (i.stop ≤ i.start)

/-- Half-open overlap: touching intervals do not overlap. -/
def overlaps (a b : Interval) : Bool :=
  if a.isEmpty || b.isEmpty then false
  else decide (a.start < b.stop) && decide (b.start < a.stop)

/-- `inner` lies within `outer`, shared bounds allowed. -/
def contains (outer inner : Interval) : Bool :=
  decide (outer.start ≤ inner.start) && decide (inner.stop ≤ outer.stop)

/-- The order `sort(byStart)` establishes. -/
def startsBefore (a b : Interval) : Prop :=
  a.start ≤ b.start

instance : DecidableRel startsBefore :=
  fun a b => inferInstanceAs (Decidable (a.start ≤ b.start))

instance : Std.Total startsBefore :=
  ⟨fun a b => le_total a.start b.start⟩

instance : IsTrans Interval startsBefore :=
  ⟨fun _ _ _ h h' => Int.le_trans h h'⟩

/-- One round of the loop of `mergeAdjacent`. -/
def mergeInto (merged : List Interval) (interval : Interval) : List Interval :=
  match merged.getLast? with
  | some last =>
    if interval.start ≤ last.stop then
      if interval.stop > last.stop then merged.dropLast ++ [{ last with stop := interval.stop }]
      else merged
    else merged ++ [interval]
  | none => merged ++ [interval]

/-- Merges overlapping and touching intervals. -/
def mergeAdjacent (intervals : List Interval) : List Interval :=
  ((intervals.filter fun i => !i.isEmpty).insertionSort startsBefore).foldl mergeInto []

/-- The loop of `subtract`, from `cursor` on. -/
def subtractLoop (stop cursor : Int) : List Interval → List Interval
  | [] => if cursor < stop then [⟨cursor, stop⟩] else []
  | hole :: rest =>
    (if hole.start > cursor then [⟨cursor, hole.start⟩] else []) ++
      subtractLoop stop (if hole.stop > cursor then hole.stop else cursor) rest

/-- Removes `holes` from `source`; the remaining pieces in order. -/
def subtract (source : Interval) (holes : List Interval) : List Interval :=
  if source.isEmpty then []
  else subtractLoop source.stop source.start
    (mergeAdjacent (holes.filter fun hole => overlaps source hole))

@[simp] theorem contains_iff {a b : Interval} :
    a.contains b = true ↔ a.start ≤ b.start ∧ b.stop ≤ a.stop := by
  simp [contains]

@[simp] theorem isEmpty_iff {a : Interval} : a.isEmpty = true ↔ a.stop ≤ a.start := by
  simp [isEmpty]

theorem overlaps_iff {a b : Interval} :
    a.overlaps b = true ↔
      a.start < a.stop ∧ b.start < b.stop ∧ a.start < b.stop ∧ b.start < a.stop := by
  unfold overlaps
  split
  · rename_i h
    simp only [Bool.or_eq_true, isEmpty_iff] at h
    simp only [Bool.false_eq_true, false_iff]
    omega
  · rename_i h
    simp only [Bool.or_eq_true, isEmpty_iff, not_or, not_le] at h
    simp [h]

/-- `b` overlaps none of `holes`. -/
def Avoids (b : Interval) (holes : List Interval) : Prop :=
  ∀ hole ∈ holes, b.overlaps hole = false

theorem avoids_iff {b h : Interval} (hb : b.start < b.stop) (hh : h.start < h.stop) :
    b.overlaps h = false ↔ b.stop ≤ h.start ∨ h.stop ≤ b.start := by
  rw [← Bool.not_eq_true, overlaps_iff]
  omega

theorem avoids_append {b : Interval} {xs ys : List Interval} :
    b.Avoids (xs ++ ys) ↔ b.Avoids xs ∧ b.Avoids ys := by
  simp only [Avoids, List.mem_append, or_imp, forall_and]

/-- What the loop of `mergeAdjacent` has built so far: non-empty intervals that start in order,
none later than `bound`. -/
structure Merged (merged : List Interval) (bound : Int) : Prop where
  nonempty : ∀ i ∈ merged, i.start < i.stop
  sorted : merged.Pairwise startsBefore
  bounded : ∀ i ∈ merged, i.start ≤ bound

theorem mergeInto_spec {merged : List Interval} {i b : Interval} {bound : Int}
    (hm : Merged merged bound) (hi : i.start < i.stop) (hbound : bound ≤ i.start)
    (hb : b.start < b.stop) :
    Merged (mergeInto merged i) i.start ∧
      (b.Avoids (mergeInto merged i) ↔ b.Avoids merged ∧ b.overlaps i = false) := by
  have hpush : Merged (merged ++ [i]) i.start := by
    refine ⟨?_, List.pairwise_append.mpr ⟨hm.sorted, by simp, ?_⟩, ?_⟩
    · intro j hj
      rcases List.mem_append.mp hj with hj | hj
      · exact hm.nonempty j hj
      · rwa [List.mem_singleton.mp hj]
    · intro j hj k hk
      rw [List.mem_singleton.mp hk]
      exact (hm.bounded j hj).trans hbound
    · intro j hj
      rcases List.mem_append.mp hj with hj | hj
      · exact (hm.bounded j hj).trans hbound
      · rw [List.mem_singleton.mp hj]
  have hpush_avoids : b.Avoids (merged ++ [i]) ↔ b.Avoids merged ∧ b.overlaps i = false := by
    rw [avoids_append]
    simp [Avoids]
  unfold mergeInto
  cases hlast : merged.getLast? with
  | none => exact ⟨hpush, hpush_avoids⟩
  | some last =>
    obtain ⟨init, rfl⟩ := List.getLast?_eq_some_iff.mp hlast
    have hl : last.start < last.stop := hm.nonempty last (by simp)
    have hli : last.start ≤ i.start := (hm.bounded last (by simp)).trans hbound
    simp only [List.dropLast_concat]
    split
    · split
      · -- `i` reaches past `last`: the last interval grows
        refine ⟨⟨?_, ?_, ?_⟩, ?_⟩
        · intro j hj
          rcases List.mem_append.mp hj with hj | hj
          · exact hm.nonempty j (by simp [hj])
          · rw [List.mem_singleton.mp hj]
            exact hl.trans ‹_›
        · obtain ⟨hinit, -, hcross⟩ := List.pairwise_append.mp hm.sorted
          refine List.pairwise_append.mpr ⟨hinit, by simp, fun j hj k hk => ?_⟩
          rw [List.mem_singleton.mp hk]
          exact hcross j hj last (by simp)
        · intro j hj
          rcases List.mem_append.mp hj with hj | hj
          · exact (hm.bounded j (by simp [hj])).trans hbound
          · rw [List.mem_singleton.mp hj]
            exact hli
        · rw [avoids_append, avoids_append, and_assoc]
          refine and_congr_right fun _ => ?_
          simp only [Avoids, List.mem_singleton, forall_eq]
          have hgrown : last.start < i.stop := hl.trans ‹_›
          have hunion := avoids_iff (h := ({ last with stop := i.stop } : Interval)) hb hgrown
          rw [hunion, avoids_iff hb hl, avoids_iff hb hi]
          dsimp only
          omega
      · -- `i` lies within `last`
        refine ⟨⟨hm.nonempty, hm.sorted, fun j hj => (hm.bounded j hj).trans hbound⟩, ?_⟩
        refine ⟨fun h => ⟨h, ?_⟩, fun h => h.1⟩
        have hal := h last (by simp)
        rw [avoids_iff hb hl] at hal
        rw [avoids_iff hb hi]
        omega
    · exact ⟨hpush, hpush_avoids⟩

theorem foldl_mergeInto_spec {b : Interval} (hb : b.start < b.stop) (sorted : List Interval) :
    ∀ {merged : List Interval} {bound : Int}, Merged merged bound →
      (∀ i ∈ sorted, i.start < i.stop ∧ bound ≤ i.start) → sorted.Pairwise startsBefore →
      (sorted.foldl mergeInto merged).Pairwise startsBefore ∧
        (∀ i ∈ sorted.foldl mergeInto merged, i.start < i.stop) ∧
        (b.Avoids (sorted.foldl mergeInto merged) ↔ b.Avoids merged ∧ b.Avoids sorted) := by
  induction sorted with
  | nil =>
    intro merged bound hm _ _
    exact ⟨hm.sorted, hm.nonempty, by simp [Avoids]⟩
  | cons i rest ih =>
    intro merged bound hm hrest hsorted
    obtain ⟨hi, hbound⟩ := hrest i List.mem_cons_self
    obtain ⟨hfirst, htail⟩ := List.pairwise_cons.mp hsorted
    obtain ⟨hm', havoids⟩ := mergeInto_spec hm hi hbound hb
    obtain ⟨h₁, h₂, h₃⟩ := ih hm'
      (fun j hj => ⟨(hrest j (List.mem_cons_of_mem i hj)).1, hfirst j hj⟩) htail
    refine ⟨h₁, h₂, ?_⟩
    rw [List.foldl_cons, h₃, havoids, and_assoc]
    refine and_congr_right fun _ => ?_
    simp only [Avoids, List.mem_cons, forall_eq_or_imp]

/-- Merging keeps what can be avoided, and leaves non-empty intervals in order. -/
theorem mergeAdjacent_spec {b : Interval} (hb : b.start < b.stop) (holes : List Interval) :
    (mergeAdjacent holes).Pairwise startsBefore ∧
      (∀ i ∈ mergeAdjacent holes, i.start < i.stop) ∧
      (b.Avoids (mergeAdjacent holes) ↔ b.Avoids holes) := by
  have hmem : ∀ i, i ∈ (holes.filter fun i => !i.isEmpty).insertionSort startsBefore ↔
      i ∈ holes ∧ i.start < i.stop := by
    intro i
    simp [List.mem_insertionSort, isEmpty]
  have hpairwise := List.pairwise_insertionSort startsBefore (holes.filter fun i => !i.isEmpty)
  have hempty : b.Avoids holes ↔
      b.Avoids ((holes.filter fun i => !i.isEmpty).insertionSort startsBefore) := by
    refine ⟨fun h i hi => h i ((hmem i).mp hi).1, fun h i hi => ?_⟩
    by_cases hne : i.start < i.stop
    · exact h i ((hmem i).mpr ⟨hi, hne⟩)
    · rw [← Bool.not_eq_true, overlaps_iff]
      exact fun ho => hne ho.2.1
  unfold mergeAdjacent
  rw [hempty]
  cases hlist : (holes.filter fun i => !i.isEmpty).insertionSort startsBefore with
  | nil => simp [Avoids]
  | cons first rest =>
    rw [hlist] at hpairwise hmem
    have hstarts : ∀ i ∈ first :: rest, i.start < i.stop ∧ first.start ≤ i.start := by
      intro i hi
      refine ⟨((hmem i).mp hi).2, ?_⟩
      rcases List.mem_cons.mp hi with rfl | hi
      · exact le_refl _
      · exact (List.pairwise_cons.mp hpairwise).1 i hi
    have hnil : Merged [] first.start := ⟨by simp, by simp, by simp⟩
    obtain ⟨h₁, h₂, h₃⟩ := foldl_mergeInto_spec hb (first :: rest) hnil hstarts hpairwise
    exact ⟨h₁, h₂, by rw [h₃]; simp [Avoids]⟩

/-- A block fits into a piece of the loop exactly when it lies between the cursor and the end
and avoids the holes still ahead. -/
theorem exists_contains_subtractLoop {b : Interval} (hb : b.start < b.stop) {stop : Int}
    (holes : List Interval) : ∀ cursor : Int, holes.Pairwise startsBefore →
      (∀ h ∈ holes, h.start < h.stop ∧ h.start < stop) →
      ((∃ piece ∈ subtractLoop stop cursor holes, piece.contains b = true) ↔
        cursor ≤ b.start ∧ b.stop ≤ stop ∧ b.Avoids holes) := by
  induction holes with
  | nil =>
    intro cursor _ _
    simp only [subtractLoop, Avoids, List.not_mem_nil, false_imp_iff, implies_true, and_true]
    constructor
    · rintro ⟨piece, hpiece, hc⟩
      split at hpiece
      · rw [List.mem_singleton] at hpiece
        rw [hpiece, contains_iff] at hc
        exact hc
      · cases hpiece
    · rintro ⟨hstart, hstop⟩
      have hlt : cursor < stop := by omega
      exact ⟨⟨cursor, stop⟩, by simp [hlt], contains_iff.mpr ⟨hstart, hstop⟩⟩
  | cons hole rest ih =>
    intro cursor hsorted hholes
    obtain ⟨hfirst, htail⟩ := List.pairwise_cons.mp hsorted
    obtain ⟨hhole, hin⟩ := hholes hole List.mem_cons_self
    have hrest := ih (if hole.stop > cursor then hole.stop else cursor) htail
      fun h hh => hholes h (List.mem_cons_of_mem hole hh)
    simp only [subtractLoop, List.mem_append, or_and_right, exists_or]
    rw [hrest]
    have hcons : b.Avoids (hole :: rest) ↔
        (b.stop ≤ hole.start ∨ hole.stop ≤ b.start) ∧ b.Avoids rest := by
      rw [← avoids_iff hb hhole]
      simp only [Avoids, List.mem_cons, forall_eq_or_imp]
    rw [hcons]
    constructor
    · rintro (⟨piece, hpiece, hc⟩ | ⟨hstart, hstop, hrest⟩)
      · split at hpiece
        · rw [List.mem_singleton] at hpiece
          rw [hpiece, contains_iff] at hc
          dsimp only at hc
          refine ⟨hc.1, by omega, .inl hc.2, fun h hh => ?_⟩
          -- the holes ahead start after this one
          have hafter : hole.start ≤ h.start := hfirst h hh
          rw [avoids_iff hb (hholes h (List.mem_cons_of_mem hole hh)).1]
          exact .inl (by omega)
        · cases hpiece
      · refine ⟨?_, hstop, ?_, hrest⟩ <;> split at hstart <;> omega
    · rintro ⟨hstart, hstop, hbefore | hafter, hrest⟩
      · have hlt : hole.start > cursor := by omega
        exact .inl ⟨⟨cursor, hole.start⟩, by simp [hlt], contains_iff.mpr ⟨hstart, hbefore⟩⟩
      · refine .inr ⟨?_, hstop, hrest⟩
        split <;> omega

theorem mem_mergeInto_start {merged : List Interval} {i j : Interval}
    (hj : j ∈ mergeInto merged i) : j.start = i.start ∨ ∃ k ∈ merged, k.start = j.start := by
  unfold mergeInto at hj
  cases hlast : merged.getLast? with
  | none =>
    rw [hlast] at hj
    rcases List.mem_append.mp hj with hj | hj
    · exact .inr ⟨j, hj, rfl⟩
    · exact .inl (by rw [List.mem_singleton.mp hj])
  | some last =>
    obtain ⟨init, rfl⟩ := List.getLast?_eq_some_iff.mp hlast
    rw [hlast] at hj
    simp only [List.dropLast_concat] at hj
    split at hj
    · split at hj
      · rcases List.mem_append.mp hj with hj | hj
        · exact .inr ⟨j, by simp [hj], rfl⟩
        · exact .inr ⟨last, by simp, by rw [List.mem_singleton.mp hj]⟩
      · exact .inr ⟨j, hj, rfl⟩
    · rcases List.mem_append.mp hj with hj | hj
      · exact .inr ⟨j, hj, rfl⟩
      · exact .inl (by rw [List.mem_singleton.mp hj])

theorem mem_foldl_mergeInto_start {j : Interval} (sorted : List Interval) :
    ∀ {merged : List Interval}, j ∈ sorted.foldl mergeInto merged →
      (∃ i ∈ sorted, i.start = j.start) ∨ ∃ k ∈ merged, k.start = j.start := by
  induction sorted with
  | nil => exact fun hj => .inr ⟨j, hj, rfl⟩
  | cons i rest ih =>
    intro merged hj
    rcases ih hj with ⟨k, hk, hkj⟩ | ⟨k, hk, hkj⟩
    · exact .inl ⟨k, List.mem_cons_of_mem i hk, hkj⟩
    · rcases mem_mergeInto_start hk with hki | ⟨l, hl, hlk⟩
      · exact .inl ⟨i, List.mem_cons_self, hki.symm.trans hkj⟩
      · exact .inr ⟨l, hl, hlk.trans hkj⟩

/-- Merging invents no starting point. -/
theorem mem_mergeAdjacent_start {holes : List Interval} {j : Interval}
    (hj : j ∈ mergeAdjacent holes) : ∃ i ∈ holes, i.start = j.start := by
  rcases mem_foldl_mergeInto_start _ hj with ⟨i, hi, hij⟩ | ⟨k, hk, -⟩
  · rw [List.mem_insertionSort] at hi
    exact ⟨i, List.mem_of_mem_filter hi, hij⟩
  · cases hk

/-- A block fits into a piece that `subtract` leaves exactly when it lies in the interval and
overlaps no hole. -/
theorem exists_contains_subtract {b source : Interval} {holes : List Interval}
    (hb : b.start < b.stop) :
    (∃ piece ∈ subtract source holes, piece.contains b = true) ↔
      source.contains b = true ∧ b.Avoids holes := by
  unfold subtract
  split
  · rename_i hempty
    rw [isEmpty_iff] at hempty
    simp only [List.not_mem_nil, false_and, exists_false, contains_iff, false_iff]
    omega
  · obtain ⟨hsorted, hne, havoids⟩ :=
      mergeAdjacent_spec hb (holes.filter fun hole => overlaps source hole)
    rw [exists_contains_subtractLoop hb _ _ hsorted, havoids, contains_iff, and_assoc]
    · refine and_congr_right fun hstart => and_congr_right fun hstop => ?_
      refine ⟨fun h hole hh => ?_, fun h hole hh => h hole (List.mem_of_mem_filter hh)⟩
      -- a hole that misses the interval misses every block in it
      by_cases ho : source.overlaps hole = true
      · exact h hole (List.mem_filter.mpr ⟨hh, ho⟩)
      · rw [overlaps_iff] at ho
        rw [← Bool.not_eq_true, overlaps_iff]
        omega
    · intro h hh
      refine ⟨hne h hh, ?_⟩
      obtain ⟨i, hi, his⟩ := mem_mergeAdjacent_start hh
      have := overlaps_iff.mp (List.mem_filter.mp hi).2
      omega

end Interval

end BookingApp
