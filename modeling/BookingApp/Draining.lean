import Mathlib.Data.Finset.Card
import Mathlib.Data.Finset.Sort

/-!
# Draining

A queue that is served in rounds: each takes the first jobs of the queue, as many as a batch
holds, and what fails stays. If nothing enters the queue ahead of a job (`Ages`), a round that leaves
the job where it is has served others ahead of it (`Batch.progress`).
-/

set_option autoImplicit false

namespace Draining

variable {ι κ : Type} [LinearOrder κ]

/-- Nothing enters the queue ahead of a job, or along with it. -/
def Ages (job : ι × κ) (queue queue' : Finset (ι × κ)) : Prop :=
  ∀ other ∈ queue', other.2 ≤ job.2 → other ∈ queue

variable {job : ι × κ} {queue queue' batch failed : Finset (ι × κ)} {size : Nat}

theorem Ages.refl : Ages job queue queue := fun _ h _ => h

theorem Ages.trans {queue'' : Finset (ι × κ)} (h : Ages job queue queue') (h' : Ages job queue' queue'') :
    Ages job queue queue'' :=
  fun other hmem hle => h other (h' other hmem hle) hle

variable [DecidableEq ι]

/-- The other jobs that come before a job, or along with it. -/
def ahead (job : ι × κ) (queue : Finset (ι × κ)) : Finset (ι × κ) :=
  queue.filter fun other => other ≠ job ∧ other.2 ≤ job.2

/-- The first jobs of a queue: all of them, or as many as a batch holds. -/
structure Batch (size : Nat) (queue batch : Finset (ι × κ)) : Prop where
  subset : batch ⊆ queue
  full : batch ≠ queue → batch.card = size
  first : ∀ job ∈ batch, ∀ other ∈ queue, other ∉ batch → job.2 ≤ other.2

theorem mem_ahead {other : ι × κ} : other ∈ ahead job queue ↔ other ∈ queue ∧ other ≠ job ∧ other.2 ≤ job.2 :=
  Finset.mem_filter

/-- What comes after a job does not count. -/
theorem ahead_congr (h : ∀ other, other.2 ≤ job.2 → (other ∈ queue ↔ other ∈ queue')) :
    ahead job queue = ahead job queue' := by
  ext other
  rw [mem_ahead, mem_ahead]
  constructor
  · rintro ⟨hmem, hne, hle⟩
    exact ⟨(h other hle).mp hmem, hne, hle⟩
  · rintro ⟨hmem, hne, hle⟩
    exact ⟨(h other hle).mpr hmem, hne, hle⟩

theorem Ages.ahead_subset (h : Ages job queue queue') : ahead job queue' ⊆ ahead job queue := by
  intro other hother
  obtain ⟨hmem, hne, hle⟩ := mem_ahead.mp hother
  exact mem_ahead.mpr ⟨h other hmem hle, hne, hle⟩

/-- A batch without the job is ahead of it. -/
theorem Batch.subset_ahead (h : Batch size queue batch) (hqueue : job ∈ queue) (hbatch : job ∉ batch) :
    batch ⊆ ahead job queue := by
  intro other hother
  have hne : other ≠ job := by
    rintro rfl
    exact hbatch hother
  exact mem_ahead.mpr ⟨h.subset hother, hne, h.first other hother job hqueue hbatch⟩

/-- A round that leaves the job in the queue takes others that are ahead of it: the whole batch, but for
those that failed. -/
theorem Batch.progress (h : Batch size queue batch) (hages : Ages job queue queue')
    (hserved : ∀ other ∈ batch, other ∈ queue' → other ∈ failed) (hwaits : job ∈ queue') (hjob : job ∉ failed) :
    (ahead job queue').card + (size - failed.card) ≤ (ahead job queue).card := by
  have hqueue : job ∈ queue := hages job hwaits le_rfl
  have hbatch : job ∉ batch := fun hmem => hjob (hserved job hmem hwaits)
  have hsize : batch.card = size := h.full fun heq => hbatch (heq ▸ hqueue)
  have hleft : size - failed.card ≤ (batch \ failed).card := by
    rw [← hsize]
    exact Finset.le_card_sdiff failed batch
  have hdisjoint : Disjoint (ahead job queue') (batch \ failed) := by
    rw [Finset.disjoint_left]
    intro other hahead hserve
    obtain ⟨hmem, hfailed⟩ := Finset.mem_sdiff.mp hserve
    exact hfailed (hserved other hmem (mem_ahead.mp hahead).1)
  have hsub : ahead job queue' ∪ batch \ failed ⊆ ahead job queue :=
    Finset.union_subset hages.ahead_subset
      (Finset.sdiff_subset.trans (h.subset_ahead hqueue hbatch))
  have hcard := Finset.card_le_card hsub
  rw [Finset.card_union_of_disjoint hdisjoint] at hcard
  omega

/-- The front of a sorted list is a batch of it. -/
theorem batch_take {jobs : List (ι × κ)} (hnodup : jobs.Nodup) (hsorted : jobs.Pairwise fun a b => a.2 ≤ b.2) :
    Batch size jobs.toFinset (jobs.take size).toFinset where
  subset job hjob := List.mem_toFinset.mpr (List.mem_of_mem_take (List.mem_toFinset.mp hjob))
  full hne := by
    rw [List.toFinset_card_of_nodup (hnodup.sublist (List.take_sublist _ _)), List.length_take]
    have hlt : size < jobs.length := by
      by_contra hle
      exact hne (by rw [List.take_of_length_le (Nat.le_of_not_lt hle)])
    omega
  first job hjob other hother hlate := by
    rw [List.mem_toFinset] at hjob hother hlate
    rw [← List.take_append_drop size jobs] at hsorted hother
    have hdrop : other ∈ jobs.drop size := (List.mem_append.mp hother).resolve_left hlate
    exact (List.pairwise_append.mp hsorted).2.2 job hjob other hdrop

end Draining
