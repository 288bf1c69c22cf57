import Mathlib.Data.List.Basic
import Mathlib.Data.List.Nodup
import Mathlib.Algebra.BigOperators.Group.List.Basic
import Mathlib.Algebra.Order.Group.Int
import Mathlib.Algebra.Ring.Int.Defs

/-!
# Tables as lists of keyed rows

A table is the list of its rows in the order they were inserted. `find` is a
lookup by primary key, `update` an `UPDATE` of the rows with given keys, and
`total` a `SUM` over the rows that satisfy a predicate.
-/

set_option autoImplicit false

/-- Rows with a primary key. -/
class Keyed (ρ : Type) (κ : outParam Type) where
  key : ρ → κ

namespace Table

open Keyed

variable {ρ κ : Type} [Keyed ρ κ] [DecidableEq κ]

/-- The row with key `k`. -/
def find (k : κ) (t : List ρ) : Option ρ :=
  t.find? fun r => decide (key r = k)

/-- The rows with a key in `ks`, changed by `f`. -/
def update (ks : List κ) (f : ρ → ρ) (t : List ρ) : List ρ :=
  t.map fun r => if key r ∈ ks then f r else r

omit [Keyed ρ κ] [DecidableEq κ] in
/-- The sum of `v` over the rows that satisfy `p`. -/
def total (p : ρ → Bool) (v : ρ → Int) (t : List ρ) : Int :=
  ((t.filter p).map v).sum

variable {k : κ} {ks : List κ} {f : ρ → ρ} {r : ρ} {t u : List ρ}

theorem key_of_find (h : find k t = some r) : key r = k := by
  simpa using List.find?_some h

theorem mem_of_find (h : find k t = some r) : r ∈ t :=
  List.mem_of_find?_eq_some h

theorem find_eq_none : find k t = none ↔ ∀ r ∈ t, key r ≠ k := by
  simp [find]

@[simp] theorem find_nil : find k ([] : List ρ) = none := rfl

theorem find_cons : find k (r :: t) = if key r = k then some r else find k t := by
  by_cases h : key r = k <;> simp [find, h]

theorem find_append : find k (t ++ u) = (find k t).or (find k u) := by
  simp [find, List.find?_append]

/-- A row that is there stays where it is when others are added. -/
theorem find_append_of_some (h : find k t = some r) : find k (t ++ u) = some r := by
  rw [find_append, h, Option.some_or]

/-- The rows of a table with distinct keys are the ones its lookups find. -/
theorem find_of_mem (hnodup : (t.map key).Nodup) (h : r ∈ t) : find (key r) t = some r := by
  induction t with
  | nil => cases h
  | cons s t ih =>
    rw [List.map_cons, List.nodup_cons] at hnodup
    rw [find_cons]
    rcases List.mem_cons.mp h with rfl | h
    · rw [if_pos rfl]
    · rw [if_neg fun he => hnodup.1 (List.mem_map.mpr ⟨r, h, he.symm⟩), ih hnodup.2 h]

/-- The key of a row that was added is no other row's. -/
theorem find_eq_none_of_nodup (h : ((t ++ [r]).map key).Nodup) : find (key r) t = none := by
  rw [List.map_append, List.nodup_append] at h
  exact find_eq_none.mpr fun s hs => h.2.2 _ (List.mem_map_of_mem hs) _ (by simp)

@[simp] theorem update_none : update [] f t = t := by
  simp [update]

@[simp] theorem update_nil : update ks f ([] : List ρ) = [] := rfl

theorem update_cons :
    update ks f (r :: t) = (if key r ∈ ks then f r else r) :: update ks f t := rfl

theorem mem_update {s : ρ} :
    s ∈ update ks f t ↔ ∃ r ∈ t, (if key r ∈ ks then f r else r) = s := by
  simp [update]

/-- An update of one row depends on what becomes of that row only. -/
theorem update_congr_of_find {g : ρ → ρ} (hnodup : (t.map key).Nodup) (h : find k t = some r) (hfg : f r = g r) :
    update [k] f t = update [k] g t := by
  rw [update, update]
  refine List.map_congr_left fun s hs => ?_
  by_cases hkey : key s = k
  · have hfind : find k t = some s := hkey ▸ find_of_mem hnodup hs
    obtain rfl := Option.some.inj (hfind.symm.trans h)
    simp [hkey, hfg]
  · simp [hkey]

/-- Two updates of the same rows are one. -/
theorem update_update {g : ρ → ρ} (hf : ∀ r, key (f r) = key r) :
    update ks g (update ks f t) = update ks (fun r => g (f r)) t := by
  rw [update, update, update, List.map_map]
  refine List.map_congr_left fun r _ => ?_
  by_cases h : key r ∈ ks <;> simp [h, hf]

/-- An update that leaves the keys alone changes what a lookup of its keys finds. -/
theorem find_update (hf : ∀ r, key (f r) = key r) :
    find k (update ks f t) = (find k t).map fun r => if k ∈ ks then f r else r := by
  induction t with
  | nil => rfl
  | cons r t ih =>
    have hkey : key (if key r ∈ ks then f r else r) = key r := by split <;> simp [hf]
    rw [update_cons, find_cons, find_cons, hkey, ih]
    by_cases h : key r = k <;> simp [h]

theorem find_update_of_mem (hf : ∀ r, key (f r) = key r) (hk : k ∈ ks) :
    find k (update ks f t) = (find k t).map f := by
  rw [find_update hf]
  simp [hk]

theorem find_update_of_notMem (hf : ∀ r, key (f r) = key r) (hk : k ∉ ks) :
    find k (update ks f t) = find k t := by
  rw [find_update hf]
  simp [hk]

/-- A column that an update leaves alone. -/
theorem map_update {β : Type} {g : ρ → β} (hg : ∀ r, g (f r) = g r) : (update ks f t).map g = t.map g := by
  rw [update, List.map_map]
  refine List.map_congr_left fun r _ => ?_
  simp only [Function.comp]
  split <;> simp [hg]

theorem map_key_update (hf : ∀ r, key (f r) = key r) :
    (update ks f t).map key = t.map key :=
  map_update hf

theorem filterMap_update {β : Type} {g : ρ → Option β} (hg : ∀ r, g (f r) = g r) :
    (update ks f t).filterMap g = t.filterMap g := by
  rw [update, List.filterMap_map]
  refine List.filterMap_congr fun r _ => ?_
  simp only [Function.comp]
  split <;> simp [hg]

theorem nodup_map_update {β : Type} {g : ρ → β} (h : (t.map g).Nodup) (hg : ∀ r, g (f r) = g r) :
    ((update ks f t).map g).Nodup := by
  rwa [map_update hg]

theorem nodup_filterMap_update {β : Type} {g : ρ → Option β} (h : (t.filterMap g).Nodup)
    (hg : ∀ r, g (f r) = g r) : ((update ks f t).filterMap g).Nodup := by
  rwa [filterMap_update hg]

/-- A unique column stays unique when one row takes a value that no other row has. -/
theorem nodup_filterMap_update_one {β : Type} {g : ρ → Option β} {b : β} (hkeys : (t.map key).Nodup)
    (h : (t.filterMap g).Nodup) (hg : ∀ r, g (f r) = some b)
    (hfree : ∀ r ∈ t, g r = some b → key r = k) : ((update [k] f t).filterMap g).Nodup := by
  induction t with
  | nil => exact h
  | cons r t ih =>
    rw [List.map_cons, List.nodup_cons] at hkeys
    rw [List.forall_mem_cons] at hfree
    have hrest : (t.filterMap g).Nodup := by
      rw [List.filterMap_cons] at h
      split at h
      · exact h
      · exact (List.nodup_cons.mp h).2
    rw [update_cons]
    by_cases hr : key r ∈ [k]
    · have hk : key r = k := List.mem_singleton.mp hr
      have hsame : update [k] f t = t := by
        refine (List.map_congr_left fun q hq => if_neg fun hqk => hkeys.1 ?_).trans (List.map_id t)
        rw [hk, ← List.mem_singleton.mp hqk]
        exact List.mem_map_of_mem hq
      rw [if_pos hr, hsame, List.filterMap_cons_some (hg r), List.nodup_cons]
      refine ⟨fun hb => ?_, hrest⟩
      obtain ⟨q, hq, hqb⟩ := List.mem_filterMap.mp hb
      exact hkeys.1 (by rw [hk, ← hfree.2 q hq hqb]; exact List.mem_map_of_mem hq)
    · rw [if_neg hr]
      have hnodup := ih hkeys.2 hrest hfree.2
      cases hc : g r with
      | none => rwa [List.filterMap_cons_none hc]
      | some c =>
        rw [List.filterMap_cons_some hc] at h ⊢
        refine List.nodup_cons.mpr ⟨fun hmem => ?_, hnodup⟩
        obtain ⟨q, hq, hqc⟩ := List.mem_filterMap.mp hmem
        obtain ⟨q₀, hq₀, rfl⟩ := mem_update.mp hq
        split at hqc
        · rw [hg, Option.some.injEq] at hqc
          exact hr (List.mem_singleton.mpr (hfree.1 (by rw [hc, hqc])))
        · exact (List.nodup_cons.mp h).1 (List.mem_filterMap.mpr ⟨q₀, hq₀, hqc⟩)

/-- What all rows satisfy, and an updated one goes on to satisfy. -/
theorem forall_update {p : ρ → Prop} (hf : ∀ r, p r → p (f r)) (h : ∀ r ∈ t, p r) :
    ∀ r ∈ update ks f t, p r := by
  intro r hr
  obtain ⟨s, hs, rfl⟩ := mem_update.mp hr
  split
  · exact hf s (h s hs)
  · exact h s hs

theorem exists_update {p : ρ → Prop} (hf : ∀ r, p r → p (f r)) (h : ∃ r ∈ t, p r) :
    ∃ r ∈ update ks f t, p r := by
  obtain ⟨r, hr, hp⟩ := h
  refine ⟨_, mem_update.mpr ⟨r, hr, rfl⟩, ?_⟩
  split
  · exact hf r hp
  · exact hp

section Totals

variable {p : ρ → Bool} {v : ρ → Int}

omit [Keyed ρ κ] [DecidableEq κ] in
@[simp] theorem total_nil : total p v ([] : List ρ) = 0 := rfl

omit [Keyed ρ κ] [DecidableEq κ] in
theorem total_cons : total p v (r :: t) = (if p r then v r else 0) + total p v t := by
  by_cases h : p r = true <;> simp [total, h]

omit [Keyed ρ κ] [DecidableEq κ] in
theorem total_append : total p v (t ++ u) = total p v t + total p v u := by
  simp [total]

/-- Rows whose contribution stays leave a total alone. -/
theorem total_update_congr (h : ∀ r ∈ t, key r ∈ ks →
    (if p (f r) then v (f r) else 0) = if p r then v r else 0) :
    total p v (update ks f t) = total p v t := by
  induction t with
  | nil => rfl
  | cons r t ih =>
    rw [update_cons, total_cons, total_cons, ih fun s hs => h s (List.mem_cons_of_mem r hs)]
    split
    · rw [h r List.mem_cons_self ‹_›]
    · rfl

/-- The update of one row moves a total by the change of that row's contribution. -/
theorem total_update (hnodup : (t.map key).Nodup) (h : find k t = some r) :
    total p v (update [k] f t) =
      total p v t - (if p r then v r else 0) + if p (f r) then v (f r) else 0 := by
  induction t with
  | nil => cases h
  | cons s t ih =>
    rw [List.map_cons, List.nodup_cons] at hnodup
    rw [find_cons] at h
    rw [update_cons, total_cons, total_cons]
    by_cases hs : key s = k
    · rw [if_pos hs, Option.some.injEq] at h
      subst h
      have hhead : (if key s ∈ [k] then f s else s) = f s := if_pos (by simp [hs])
      have hrest : total p v (update [k] f t) = total p v t := by
        refine total_update_congr fun q hq hqk => absurd ?_ hnodup.1
        rw [hs, ← List.mem_singleton.mp hqk]
        exact List.mem_map_of_mem hq
      rw [hhead, hrest]
      omega
    · rw [if_neg hs] at h
      have hhead : (if key s ∈ [k] then f s else s) = s := if_neg (by simp [hs])
      rw [hhead, ih hnodup.2 h]
      omega

omit [Keyed ρ κ] [DecidableEq κ] in
theorem total_nonneg (h : ∀ r ∈ t, p r = true → 0 ≤ v r) : 0 ≤ total p v t := by
  induction t with
  | nil => exact le_refl 0
  | cons r t ih =>
    have hrest := ih fun s hs => h s (List.mem_cons_of_mem r hs)
    have hr := h r List.mem_cons_self
    rw [total_cons]
    split
    · have := hr ‹_›
      omega
    · omega

end Totals

end Table
