import Mathlib.Order.CompletePartialOrder
import BookingApp.Domain.Slots

/-!
# The instants of interval lists (`domain/time/interval.ts`)

Both operations go by the set of instants a list covers. A list of non-empty
intervals in order, with a gap before each of them, is determined by that set;
`mergeAdjacent` builds it, so it is idempotent and does not see the order of
its argument.
-/

set_option autoImplicit false

namespace BookingApp.Interval

/-- The instant lies in some interval of the list. -/
def Covers (l : List Interval) (t : Int) : Prop :=
  ∃ i ∈ l, t ∈ i.toSet

/-- Non-empty intervals, each ending before the next one starts. -/
structure Separated (l : List Interval) : Prop where
  nonempty : ∀ i ∈ l, i.start < i.stop
  gaps : l.Pairwise fun a b => a.stop < b.start

@[simp] theorem mem_toSet {i : Interval} {t : Int} : t ∈ i.toSet ↔ i.start ≤ t ∧ t < i.stop :=
  Iff.rfl

@[simp] theorem not_covers_nil (t : Int) : ¬Covers [] t := by
  simp [Covers]

@[simp] theorem covers_cons {i : Interval} {l : List Interval} {t : Int} :
    Covers (i :: l) t ↔ t ∈ i.toSet ∨ Covers l t := by
  simp [Covers]

@[simp] theorem covers_append {l l' : List Interval} {t : Int} :
    Covers (l ++ l') t ↔ Covers l t ∨ Covers l' t := by
  simp only [Covers, List.mem_append, or_and_right, exists_or]

theorem covers_congr {l l' : List Interval} (h : ∀ i, i ∈ l ↔ i ∈ l') (t : Int) :
    Covers l t ↔ Covers l' t :=
  exists_congr fun i => by rw [h i]

namespace Separated

variable {l l' : List Interval} {a : Interval}

theorem nil : Separated [] :=
  ⟨by simp, List.Pairwise.nil⟩

theorem cons_iff : Separated (a :: l) ↔
    a.start < a.stop ∧ (∀ i ∈ l, a.stop < i.start) ∧ Separated l := by
  constructor
  · rintro ⟨hne, hgaps⟩
    obtain ⟨hfirst, hrest⟩ := List.pairwise_cons.mp hgaps
    exact ⟨hne a List.mem_cons_self, hfirst, fun i hi => hne i (List.mem_cons_of_mem a hi), hrest⟩
  · rintro ⟨ha, hfirst, hne, hgaps⟩
    refine ⟨fun i hi => ?_, List.pairwise_cons.mpr ⟨hfirst, hgaps⟩⟩
    rcases List.mem_cons.mp hi with rfl | hi
    · exact ha
    · exact hne i hi

/-- The neighbours come in order and share no instant. -/
theorem pairwise_disjoint (h : Separated l) :
    l.Pairwise fun a b => a.start < b.start ∧ Disjoint a.toSet b.toSet := by
  refine List.Pairwise.imp_of_mem (fun {a b} ha _ hgap => ?_) h.gaps
  have hne := h.nonempty a ha
  refine ⟨by omega, Set.disjoint_left.mpr fun t hta htb => ?_⟩
  rw [mem_toSet] at hta htb
  omega

theorem gap_lt (h : Separated (a :: l)) {t : Int} (ht : Covers l t) : a.stop < t := by
  obtain ⟨-, hfirst, -⟩ := cons_iff.mp h
  obtain ⟨i, hi, hstart, -⟩ := ht
  exact (hfirst i hi).trans_le hstart

/-- The first interval begins with the first instant covered. -/
theorem start_le (h : Separated (a :: l)) {t : Int} (ht : Covers (a :: l) t) : a.start ≤ t := by
  rcases covers_cons.mp ht with ht | ht
  · exact ht.1
  · have hlt := h.gap_lt ht
    have := h.nonempty a List.mem_cons_self
    omega

theorem covers_start (h : Separated (a :: l)) : Covers (a :: l) a.start :=
  covers_cons.mpr (.inl ⟨le_refl _, h.nonempty a List.mem_cons_self⟩)

/-- The first instant of the gap after the first interval is not covered. -/
theorem not_covers_stop (h : Separated (a :: l)) : ¬Covers (a :: l) a.stop := by
  intro ht
  rcases covers_cons.mp ht with ht | ht
  · exact absurd ht.2 (lt_irrefl _)
  · exact absurd (h.gap_lt ht) (lt_irrefl _)

/-- The first interval of a list ends no later than that of another list with the same instants. -/
theorem stop_le {b : Interval} (h : Separated (a :: l))
    (hcovers : ∀ t, Covers (a :: l) t ↔ Covers (b :: l') t) (hstart : a.start = b.start) :
    b.stop ≤ a.stop := by
  by_contra hlt
  have hne := h.nonempty a List.mem_cons_self
  refine h.not_covers_stop ((hcovers _).mpr (covers_cons.mpr (.inl ?_)))
  rw [mem_toSet]
  omega

/-- Separated lists that cover the same instants are equal. -/
theorem eq_of_covers (h : Separated l) : ∀ {l' : List Interval}, Separated l' →
    (∀ t, Covers l t ↔ Covers l' t) → l = l' := by
  induction l with
  | nil =>
    intro l' h' hcovers
    cases l' with
    | nil => rfl
    | cons b l' => exact absurd ((hcovers _).mpr h'.covers_start) (not_covers_nil _)
  | cons a l ih =>
    intro l' h' hcovers
    cases l' with
    | nil => exact absurd ((hcovers _).mp h.covers_start) (not_covers_nil _)
    | cons b l' =>
      have hstart : a.start = b.start :=
        le_antisymm (h.start_le ((hcovers _).mpr h'.covers_start))
          (h'.start_le ((hcovers _).mp h.covers_start))
      have hstop : a.stop = b.stop :=
        le_antisymm (stop_le h' (fun t => (hcovers t).symm) hstart.symm) (stop_le h hcovers hstart)
      have hab : a = b := by
        cases a
        cases b
        exact congrArg₂ Interval.mk hstart hstop
      subst hab
      -- past the first interval the lists cover what their tails do
      have htail : ∀ t, Covers l t ↔ Covers l' t := by
        intro t
        constructor
        · intro ht
          have hlt := h.gap_lt ht
          have hboth := (hcovers t).mp (covers_cons.mpr (.inr ht))
          exact (covers_cons.mp hboth).resolve_left fun hin => absurd hin.2 (by omega)
        · intro ht
          have hlt := h'.gap_lt ht
          have hboth := (hcovers t).mpr (covers_cons.mpr (.inr ht))
          exact (covers_cons.mp hboth).resolve_left fun hin => absurd hin.2 (by omega)
      rw [ih (cons_iff.mp h).2.2 (cons_iff.mp h').2.2 htail]

end Separated

section Merge

/-- One round of `mergeAdjacent` adds the instants of an interval that starts no earlier than the
others, and keeps the list separated. -/
theorem mergeInto_separated {merged : List Interval} {i : Interval} {bound : Int}
    (h : Separated merged) (hlo : ∀ j ∈ merged, j.start ≤ bound) (hi : i.start < i.stop)
    (hbound : bound ≤ i.start) :
    Separated (mergeInto merged i) ∧ (∀ j ∈ mergeInto merged i, j.start ≤ i.start) ∧
      ∀ t, Covers (mergeInto merged i) t ↔ Covers merged t ∨ t ∈ i.toSet := by
  unfold mergeInto
  cases hlast : merged.getLast? with
  | none =>
    rw [List.getLast?_eq_none_iff.mp hlast]
    exact ⟨Separated.cons_iff.mpr ⟨hi, by simp, Separated.nil⟩, by simp, fun t => by simp⟩
  | some last =>
    obtain ⟨init, rfl⟩ := List.getLast?_eq_some_iff.mp hlast
    obtain ⟨hinit, -, hcross⟩ := List.pairwise_append.mp h.gaps
    have hne : last.start < last.stop := h.nonempty last (by simp)
    have hle : last.start ≤ i.start := (hlo last (by simp)).trans hbound
    have hbefore : ∀ j ∈ init, j.start < j.stop ∧ j.stop < last.start := fun j hj =>
      ⟨h.nonempty j (by simp [hj]), hcross j hj last (by simp)⟩
    simp only [List.dropLast_concat]
    split
    · split
      · -- the last interval grows
        refine ⟨⟨?_, List.pairwise_append.mpr ⟨hinit, by simp, ?_⟩⟩, ?_, fun t => ?_⟩
        · intro j hj
          rcases List.mem_append.mp hj with hj | hj
          · exact (hbefore j hj).1
          · rw [List.mem_singleton.mp hj]
            exact hne.trans ‹_›
        · intro j hj k hk
          rw [List.mem_singleton.mp hk]
          exact (hbefore j hj).2
        · intro j hj
          rcases List.mem_append.mp hj with hj | hj
          · have := hbefore j hj
            omega
          · rw [List.mem_singleton.mp hj]
            exact hle
        · simp only [covers_append, covers_cons, not_covers_nil, or_false, mem_toSet, or_assoc]
          refine or_congr_right ?_
          omega
      · -- the last interval contains it
        refine ⟨h, fun j hj => (hlo j hj).trans hbound, fun t => ?_⟩
        simp only [covers_append, covers_cons, not_covers_nil, or_false, mem_toSet, or_assoc]
        refine or_congr_right ?_
        omega
    · -- a gap before it
      refine ⟨⟨?_, List.pairwise_append.mpr ⟨h.gaps, by simp, ?_⟩⟩, ?_, fun t => by simp [or_assoc]⟩
      · intro j hj
        rcases List.mem_append.mp hj with hj | hj
        · exact h.nonempty j hj
        · rwa [List.mem_singleton.mp hj]
      · intro j hj k hk
        rw [List.mem_singleton.mp hk]
        rcases List.mem_append.mp hj with hj | hj
        · have := hbefore j hj
          omega
        · rw [List.mem_singleton.mp hj]
          omega
      · intro j hj
        rcases List.mem_append.mp hj with hj | hj
        · exact (hlo j hj).trans hbound
        · rw [List.mem_singleton.mp hj]

theorem foldl_mergeInto_separated (sorted : List Interval) :
    ∀ {merged : List Interval} {bound : Int}, Separated merged → (∀ j ∈ merged, j.start ≤ bound) →
      (∀ i ∈ sorted, i.start < i.stop ∧ bound ≤ i.start) → sorted.Pairwise startsBefore →
      Separated (sorted.foldl mergeInto merged) ∧
        ∀ t, Covers (sorted.foldl mergeInto merged) t ↔ Covers merged t ∨ Covers sorted t := by
  induction sorted with
  | nil =>
    intro merged bound h _ _ _
    exact ⟨h, fun t => by simp⟩
  | cons i rest ih =>
    intro merged bound h hlo hrest hsorted
    obtain ⟨hi, hbound⟩ := hrest i List.mem_cons_self
    obtain ⟨hfirst, htail⟩ := List.pairwise_cons.mp hsorted
    obtain ⟨hsep, hlo', hcovers⟩ := mergeInto_separated h hlo hi hbound
    obtain ⟨hfold, hfoldCovers⟩ := ih hsep hlo'
      (fun j hj => ⟨(hrest j (List.mem_cons_of_mem i hj)).1, hfirst j hj⟩) htail
    refine ⟨hfold, fun t => ?_⟩
    rw [List.foldl_cons, hfoldCovers, hcovers, covers_cons, or_assoc]

/-- Merging leaves the separated list of the same instants. -/
theorem mergeAdjacent_separated (intervals : List Interval) :
    Separated (mergeAdjacent intervals) ∧
      ∀ t, Covers (mergeAdjacent intervals) t ↔ Covers intervals t := by
  have hmem : ∀ i, i ∈ (intervals.filter fun i => !i.isEmpty).insertionSort startsBefore ↔
      i ∈ intervals ∧ i.start < i.stop := by
    intro i
    simp [List.mem_insertionSort, isEmpty]
  have hpairwise := List.pairwise_insertionSort startsBefore (intervals.filter fun i => !i.isEmpty)
  have hcovers : ∀ t, Covers intervals t ↔
      Covers ((intervals.filter fun i => !i.isEmpty).insertionSort startsBefore) t := by
    intro t
    refine exists_congr fun i => ?_
    rw [hmem i, and_assoc]
    refine and_congr_right fun _ => (and_iff_right_of_imp fun ht => ?_).symm
    exact lt_of_le_of_lt ht.1 ht.2
  unfold mergeAdjacent
  cases hlist : (intervals.filter fun i => !i.isEmpty).insertionSort startsBefore with
  | nil => exact ⟨Separated.nil, fun t => by rw [hcovers t, hlist]; simp⟩
  | cons first rest =>
    rw [hlist] at hpairwise hmem
    have hstarts : ∀ i ∈ first :: rest, i.start < i.stop ∧ first.start ≤ i.start := by
      intro i hi
      refine ⟨((hmem i).mp hi).2, ?_⟩
      rcases List.mem_cons.mp hi with rfl | hi
      · exact le_refl _
      · exact (List.pairwise_cons.mp hpairwise).1 i hi
    obtain ⟨hsep, hfold⟩ :=
      foldl_mergeInto_separated (first :: rest) Separated.nil (by simp) hstarts hpairwise
    exact ⟨hsep, fun t => by rw [hfold t, hcovers t, hlist]; simp⟩

/-- The result depends on the instants covered only. -/
theorem mergeAdjacent_congr {l l' : List Interval} (h : ∀ t, Covers l t ↔ Covers l' t) :
    mergeAdjacent l = mergeAdjacent l' := by
  obtain ⟨hsep, hcovers⟩ := mergeAdjacent_separated l
  obtain ⟨hsep', hcovers'⟩ := mergeAdjacent_separated l'
  exact hsep.eq_of_covers hsep' fun t => by rw [hcovers t, hcovers' t, h t]

theorem mergeAdjacent_idem (l : List Interval) :
    mergeAdjacent (mergeAdjacent l) = mergeAdjacent l :=
  mergeAdjacent_congr (mergeAdjacent_separated l).2

end Merge

section Subtract

/-- From the cursor on the loop leaves what no hole takes. -/
theorem subtractLoop_separated {stop : Int} (holes : List Interval) : ∀ cursor : Int,
    Separated holes → (∀ h ∈ holes, h.start < stop) →
      Separated (subtractLoop stop cursor holes) ∧
        (∀ piece ∈ subtractLoop stop cursor holes, cursor ≤ piece.start) ∧
        ∀ t, Covers (subtractLoop stop cursor holes) t ↔
          (cursor ≤ t ∧ t < stop) ∧ ¬Covers holes t := by
  induction holes with
  | nil =>
    intro cursor _ _
    unfold subtractLoop
    split
    · refine ⟨Separated.cons_iff.mpr ⟨‹_›, by simp, Separated.nil⟩, by simp, fun t => by simp⟩
    · refine ⟨Separated.nil, by simp, fun t => ?_⟩
      simp only [not_covers_nil, not_false_eq_true, and_true, false_iff]
      omega
  | cons hole rest ih =>
    intro cursor hsep hin
    obtain ⟨hne, hfirst, hrest⟩ := Separated.cons_iff.mp hsep
    have hhole := hin hole List.mem_cons_self
    have hnext : (if hole.stop > cursor then hole.stop else cursor) = max cursor hole.stop := by
      split <;> omega
    obtain ⟨htail, hfrom, hcovers⟩ := ih (max cursor hole.stop) hrest
      fun h hh => hin h (List.mem_cons_of_mem hole hh)
    unfold subtractLoop
    rw [hnext]
    split
    · -- a piece before the hole
      refine ⟨Separated.cons_iff.mpr ⟨‹_›, fun piece hp => ?_, htail⟩, fun piece hp => ?_, fun t => ?_⟩
      · have := hfrom piece hp
        show hole.start < piece.start
        omega
      · rcases List.mem_cons.mp hp with rfl | hp
        · exact le_refl _
        · exact (le_max_left _ _).trans (hfrom piece hp)
      · rw [List.singleton_append, covers_cons, covers_cons, hcovers t, mem_toSet, mem_toSet]
        by_cases ht : Covers rest t
        · have := hsep.gap_lt ht
          simp only [ht, not_true_eq_false, and_false, or_false, or_true, iff_false]
          omega
        · simp only [ht, not_false_eq_true, and_true, or_false]
          omega
    · refine ⟨htail, fun piece hp => (le_max_left _ _).trans (hfrom piece hp), fun t => ?_⟩
      rw [List.nil_append, covers_cons, hcovers t, mem_toSet]
      by_cases ht : Covers rest t
      · simp [ht]
      · simp only [ht, not_false_eq_true, and_true, or_false]
        omega

/-- `subtract` leaves the separated list of the instants in no hole. -/
theorem subtract_separated (source : Interval) (holes : List Interval) :
    Separated (subtract source holes) ∧
      ∀ t, Covers (subtract source holes) t ↔ t ∈ source.toSet ∧ ¬Covers holes t := by
  unfold subtract
  split
  · rename_i hempty
    rw [isEmpty_iff] at hempty
    refine ⟨Separated.nil, fun t => ?_⟩
    simp only [not_covers_nil, false_iff, not_and, mem_toSet]
    intro ht
    omega
  · obtain ⟨hsep, hcovers⟩ := mergeAdjacent_separated (holes.filter fun hole => overlaps source hole)
    obtain ⟨hpieces, -, hleft⟩ := @subtractLoop_separated source.stop _ source.start hsep <| by
      intro h hh
      obtain ⟨i, hi, his⟩ := mem_mergeAdjacent_start hh
      have := overlaps_iff.mp (List.mem_filter.mp hi).2
      omega
    refine ⟨hpieces, fun t => ?_⟩
    rw [hleft t, hcovers t, mem_toSet]
    refine and_congr_right fun ht => not_congr ?_
    -- a hole that holds an instant of the interval overlaps it
    constructor
    · rintro ⟨i, hi, hit⟩
      exact ⟨i, List.mem_of_mem_filter hi, hit⟩
    · rintro ⟨i, hi, hit⟩
      refine ⟨i, List.mem_filter.mpr ⟨hi, overlaps_iff.mpr ?_⟩, hit⟩
      rw [mem_toSet] at hit
      omega

theorem subtract_congr (source : Interval) {holes holes' : List Interval}
    (h : ∀ t, Covers holes t ↔ Covers holes' t) : subtract source holes = subtract source holes' := by
  obtain ⟨hsep, hcovers⟩ := subtract_separated source holes
  obtain ⟨hsep', hcovers'⟩ := subtract_separated source holes'
  exact hsep.eq_of_covers hsep' fun t => by rw [hcovers t, hcovers' t, h t]

end Subtract

/-- Subtraction and merging by instants: what `subtract` leaves and what `mergeAdjacent` keeps, as
non-empty intervals in order. -/
theorem subtract_mergeAdjacent_instants (source : Interval) (holes intervals : List Interval) :
    ((∀ t, (∃ piece ∈ subtract source holes, t ∈ piece.toSet) ↔
        t ∈ source.toSet ∧ ∀ hole ∈ holes, t ∉ hole.toSet) ∧
      (∀ piece ∈ subtract source holes, piece.start < piece.stop) ∧
      (subtract source holes).Pairwise fun a b => a.start < b.start ∧ Disjoint a.toSet b.toSet) ∧
    (∀ t, (∃ i ∈ mergeAdjacent intervals, t ∈ i.toSet) ↔ ∃ i ∈ intervals, t ∈ i.toSet) ∧
    (∀ i ∈ mergeAdjacent intervals, i.start < i.stop) ∧
    ((mergeAdjacent intervals).Pairwise fun a b => a.stop < b.start) ∧
    mergeAdjacent (mergeAdjacent intervals) = mergeAdjacent intervals := by
  obtain ⟨hpieces, hleft⟩ := subtract_separated source holes
  obtain ⟨hmerged, hkept⟩ := mergeAdjacent_separated intervals
  refine ⟨⟨fun t => ?_, hpieces.nonempty, hpieces.pairwise_disjoint⟩, hkept, hmerged.nonempty,
    hmerged.gaps, mergeAdjacent_idem intervals⟩
  rw [← Covers, hleft t]
  simp [Covers]

end BookingApp.Interval
