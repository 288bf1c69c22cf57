import Mathlib.Data.List.GetD
import BookingApp.ReadCommitted.Code

/-!
# Any number of clients over one committed state

`Sys.step` runs one statement of one client. A client sees the latest committed
state with its own writes replayed on top (`Thread.delta`), and a statement that
wants a lock is enabled only while no other client holds it. A client may fail
at every statement and may crash at any time; both give up its transaction.
-/

set_option autoImplicit false

namespace ReadCommitted

variable (S : Store)

/-- A client: what it has still to run, the locks it holds and its uncommitted writes. -/
structure Thread where
  code : Code S Unit
  held : List S.Lock := []
  delta : S.Db → S.Db := id

structure Sys where
  db : S.Db
  threads : List (Thread S) := []

/-- What happens next: a client starts, runs its next statement, is answered by the
environment, fails at its statement, or crashes. -/
inductive Action where
  | start (code : Code S Unit)
  | run (i : Nat)
  | answer (i : Nat) (a : S.Answer)
  | fail (i : Nat) (e : S.Err)
  | crash (i : Nat)

/-- Conditions on a run: what holds when a client passes a statement (`Assume`), what a
change committed by another client leaves alone while a client stands at a statement
(`Stable`), and which errors a statement fails with (`Fault`). -/
structure Conditions where
  Assume : S.Point → S.Db → Prop
  Stable : S.Point → S.Db → S.Db → Prop
  Fault : S.Point → S.Err → Prop

variable {S}

namespace Conditions

/-- Every run. -/
def none : Conditions S where
  Assume _ _ := True
  Stable _ _ _ := True
  Fault _ _ := True

/-- Conditions that can be checked along a schedule. -/
class Checkable (c : Conditions S) where
  assume : ∀ p d, Decidable (c.Assume p d)
  stable : ∀ p d d', Decidable (c.Stable p d d')
  fault : ∀ p e, Decidable (c.Fault p e)

instance : (none : Conditions S).Checkable where
  assume _ _ := .isTrue trivial
  stable _ _ _ := .isTrue trivial
  fault _ _ := .isTrue trivial

section Checkable

variable (c : Conditions S) [c.Checkable]

instance (p : S.Point) (d : S.Db) : Decidable (c.Assume p d) := Checkable.assume p d
instance (p : S.Point) (d d' : S.Db) : Decidable (c.Stable p d d') := Checkable.stable p d d'
instance (p : S.Point) (e : S.Err) : Decidable (c.Fault p e) := Checkable.fault p e

end Checkable

end Conditions

namespace Sys

/-- No client other than `i` holds a lock of `ls`. -/
def free (s : Sys S) (i : Nat) (ls : List S.Lock) : Bool :=
  (List.range s.threads.length).all fun j =>
    j == i || (s.threads[j]?.map Thread.held |>.getD []).all fun l => !ls.contains l

/-- Client `i` becomes `t`. -/
def setThread (s : Sys S) (i : Nat) (t : Thread S) : Sys S :=
  { s with threads := s.threads.set i t }

/-- Client `i` runs its next statement, if it is enabled. -/
def run (s : Sys S) (i : Nat) (t : Thread S) : Option (Sys S) :=
  match t.code with
  | .call effect k =>
    some { db := effect s.db, threads := s.threads.set i { t with code := k s.db } }
  | .reset k => some (s.setThread i { code := k })
  | .stmt _ .read k _ => some (s.setThread i { t with code := k (t.delta s.db) })
  | .stmt _ (.lock rows) k _ =>
    let view := t.delta s.db
    if s.free i (rows view) then
      some (s.setThread i { t with code := k view, held := t.held ++ rows view })
    else none
  | .stmt _ (.write rows change) k _ =>
    let view := t.delta s.db
    if s.free i (rows view) then
      some (s.setThread i
        { code := k view, held := t.held ++ rows view, delta := fun d => change view (t.delta d) })
    else none
  | .stmt _ .commit k _ =>
    let view := t.delta s.db
    if S.legal view then some { db := view, threads := s.threads.set i { code := k view } } else none
  | _ => none

/-- One action, if it is enabled. -/
def step (s : Sys S) : Action S → Option (Sys S)
  | .start code => some { s with threads := s.threads ++ [{ code }] }
  | .run i => s.threads[i]?.bind (s.run i)
  | .answer i a => s.threads[i]?.bind fun t =>
    match t.code with
    | .ask k => some (s.setThread i { t with code := k a })
    | _ => none
  | .fail i e => s.threads[i]?.bind fun t =>
    match t.code with
    | .stmt _ _ _ h => some (s.setThread i { t with code := h e })
    | _ => none
  | .crash i => s.threads[i]?.map fun _ => s.setThread i { code := .ret () }

/-- The statement client `i` stands at. -/
def pointOf (s : Sys S) (i : Nat) : S.Point :=
  s.threads[i]?.elim S.idle fun t => t.code.point

/-- What `c` asks of the action `a` between `s` and `s'`. -/
def Allowed (c : Conditions S) (s : Sys S) (a : Action S) (s' : Sys S) : Prop :=
  match a with
  | .run i => c.Assume (s.pointOf i) s.db ∧ ∀ j, j ≠ i → c.Stable (s.pointOf j) s.db s'.db
  | .fail i e => c.Fault (s.pointOf i) e
  | _ => True

/-- Whether `a` is allowed, for conditions that can be checked. -/
def allowed (c : Conditions S) [c.Checkable] (s : Sys S) (a : Action S) (s' : Sys S) : Bool :=
  match a with
  | .run i =>
    decide (c.Assume (s.pointOf i) s.db) && (List.range s.threads.length).all fun j =>
      j == i || decide (c.Stable (s.pointOf j) s.db s'.db)
  | .fail i e => decide (c.Fault (s.pointOf i) e)
  | _ => true

/-- A whole schedule, as far as it is allowed. -/
def exec (c : Conditions S) [c.Checkable] (s : Sys S) : List (Action S) → Option (Sys S)
  | [] => some s
  | a :: as => (s.step a).bind fun s' => if allowed c s a s' then exec c s' as else none

/-- Only code of `ops` is started. -/
def Starts (ops : Code S Unit → Prop) : Action S → Prop
  | .start code => ops code
  | _ => True

/-- The systems that runs of `ops` under `c` lead to, from `s₀`. -/
inductive Reach (ops : Code S Unit → Prop) (c : Conditions S) (s₀ : Sys S) : Sys S → Prop where
  | refl : Reach ops c s₀ s₀
  | step {s s' : Sys S} (a : Action S) (hs : Reach ops c s₀ s) (hstart : Starts ops a)
      (hstep : s.step a = some s') (hallowed : Allowed c s a s') : Reach ops c s₀ s'

/-- A run goes on from where another has ended. -/
theorem Reach.trans {ops : Code S Unit → Prop} {c : Conditions S} {s₁ s₂ s₃ : Sys S}
    (h₁ : Reach ops c s₁ s₂) (h₂ : Reach ops c s₂ s₃) : Reach ops c s₁ s₃ := by
  induction h₂ with
  | refl => exact h₁
  | step a _ hstart hstep hallowed ih => exact ih.step a hstart hstep hallowed

theorem allowed_iff {c : Conditions S} [c.Checkable] (hidle : ∀ d d', c.Stable S.idle d d')
    {s s' : Sys S} {a : Action S} (h : allowed c s a s' = true) : Allowed c s a s' := by
  cases a with
  | run i =>
    obtain ⟨hassume, hstable⟩ := Bool.and_eq_true_iff.mp h
    refine ⟨of_decide_eq_true hassume, fun j hne => ?_⟩
    by_cases hlt : j < s.threads.length
    · have hj := List.all_eq_true.mp hstable j (List.mem_range.mpr hlt)
      exact of_decide_eq_true ((Bool.or_eq_true_iff.mp hj).resolve_left (by simpa using hne))
    · rw [pointOf, List.getElem?_eq_none (Nat.le_of_not_lt hlt)]
      exact hidle _ _
  | fail i e =>
    have hfault : c.Fault (s.pointOf i) e := of_decide_eq_true h
    exact hfault
  | start code => trivial
  | answer i a => trivial
  | crash i => trivial

/-- A schedule that goes through is a run. -/
theorem Reach.exec {ops : Code S Unit → Prop} {c : Conditions S} [c.Checkable]
    (hidle : ∀ d d', c.Stable S.idle d d') {s₀ s s' : Sys S} {as : List (Action S)}
    (hs : Reach ops c s₀ s) (hops : ∀ a ∈ as, Starts ops a) (h : s.exec c as = some s') :
    Reach ops c s₀ s' := by
  induction as generalizing s with
  | nil => cases h; exact hs
  | cons a as ih =>
    obtain ⟨t, ht, h⟩ := Option.bind_eq_some_iff.mp h
    split at h
    · refine ih (hs.step a (hops a (by simp)) ht (allowed_iff hidle ‹_›)) (fun b hb => ?_) h
      exact hops b (by simp [hb])
    · cases h

/-- Every client has come to its end. -/
def finished (s : Sys S) : Bool :=
  s.threads.all fun t => match t.code with
    | .ret _ => true
    | _ => false

end Sys

end ReadCommitted
