import BookingApp.ReadCommitted.System

/-!
# One client alone

What code can do when no other client runs, the environment answers as one would like
and no statement fails (`Code.Solo`). It is what shows that a state is reached, where
`Proto.wp` shows what holds in every state that is.
-/

set_option autoImplicit false

namespace ReadCommitted

variable {S : Store} {α β : Type}

namespace Code

/-- Run alone from the committed state `d`, holding `held` and having written `δ`, the code can end
in `Q`. -/
def Solo : Code S α → (α → List S.Lock → (S.Db → S.Db) → S.Db → Prop) → List S.Lock → (S.Db → S.Db) →
    S.Db → Prop
  | .ret a, Q, held, δ, d => Q a held δ d
  | .throw _, _, _, _, _ => False
  | .ask k, Q, held, δ, d => ∃ a, Solo (k a) Q held δ d
  | .call effect k, Q, held, δ, d => Solo (k d) Q held δ (effect d)
  | .reset k, Q, _, _, d => Solo k Q [] id d
  | .stmt _ .read k _, Q, held, δ, d => Solo (k (δ d)) Q held δ d
  | .stmt _ (.lock rows) k _, Q, held, δ, d => Solo (k (δ d)) Q (held ++ rows (δ d)) δ d
  | .stmt _ (.write rows change) k _, Q, held, δ, d =>
    Solo (k (δ d)) Q (held ++ rows (δ d)) (fun x => change (δ d) (δ x)) d
  | .stmt _ .commit k _, Q, _, δ, d => S.legal (δ d) = true ∧ Solo (k (δ d)) Q [] id (δ d)

variable {Q : α → List S.Lock → (S.Db → S.Db) → S.Db → Prop} {held : List S.Lock} {δ : S.Db → S.Db} {d : S.Db}

theorem solo_bind {c : Code S β} {f : β → Code S α} (h : c.Solo (fun b => (f b).Solo Q) held δ d) :
    (c >>= f).Solo Q held δ d := by
  change (c.bind f).Solo Q held δ d
  induction c generalizing held δ d with
  | ret b => exact h
  | throw e => exact h
  | ask k ih =>
    obtain ⟨a, h⟩ := h
    exact ⟨a, ih a h⟩
  | call effect k ih => exact ih _ h
  | reset k ih => exact ih h
  | stmt p s k hd ihk ihh =>
    cases s with
    | commit => exact ⟨h.1, ihk _ h.2⟩
    | _ => exact ihk _ h

theorem solo_tryCatch {c : Code S α} {f : S.Err → Code S α} (h : c.Solo Q held δ d) :
    Code.Solo (tryCatch c f) Q held δ d := by
  change (c.tryCatch f).Solo Q held δ d
  induction c generalizing held δ d with
  | ret b => exact h
  | throw e => exact h.elim
  | ask k ih =>
    obtain ⟨a, h⟩ := h
    exact ⟨a, ih a h⟩
  | call effect k ih => exact ih _ h
  | reset k ih => exact ih h
  | stmt p s k hd ihk ihh =>
    cases s with
    | commit => exact ⟨h.1, ihk _ h.2⟩
    | _ => exact ihk _ h

theorem solo_transaction {p : S.Point} {body : Code S α}
    (h : body.Solo (fun a _ δ d => S.legal (δ d) = true ∧ Q a [] id (δ d)) [] id d) :
    (transaction p body).Solo Q held δ d :=
  solo_tryCatch (solo_bind h)

theorem solo_withRetry {retry : S.Err → Bool} {left : Nat} {c : Nat → Code S α}
    (h : (c left).Solo Q held δ d) : (withRetry retry left c).Solo Q held δ d := by
  cases left with
  | zero => exact h
  | succ left => exact solo_tryCatch h

end Code

namespace Sys

variable {ops : Code S Unit → Prop}

/-- With one client no lock is anybody else's. -/
theorem free_alone (d : S.Db) (t : Thread S) (ls : List S.Lock) :
    free { db := d, threads := [t] } 0 ls = true := by
  simp [free]

/-- What code can do alone happens in a run. -/
theorem Reach.of_solo {Q : S.Db → Prop} {c : Code S Unit} {held : List S.Lock} {δ : S.Db → S.Db} {d : S.Db}
    (h : c.Solo (fun _ _ _ d' => Q d') held δ d) :
    ∃ s, Reach ops .none { db := d, threads := [{ code := c, held, delta := δ }] } s ∧ Q s.db := by
  have hnext : ∀ {s s' : Sys S} {a : Action S}, Starts ops a → s.step a = some s' →
      (∃ s'', Reach ops .none s' s'' ∧ Q s''.db) → ∃ s'', Reach ops .none s s'' ∧ Q s''.db := by
    rintro s s' a hstart hstep ⟨s'', hreach, hQ⟩
    have hallowed : Allowed .none s a s' := by
      cases a with
      | run i => exact ⟨trivial, fun _ _ => trivial⟩
      | fail i e => trivial
      | _ => trivial
    exact ⟨s'', (Reach.refl.step a hstart hstep hallowed).trans hreach, hQ⟩
  induction c generalizing held δ d with
  | ret b => exact ⟨_, .refl, h⟩
  | throw e => exact h.elim
  | ask k ih =>
    obtain ⟨a, h⟩ := h
    exact hnext (a := .answer 0 a) trivial rfl (ih a h)
  | call effect k ih => exact hnext (a := .run 0) trivial rfl (ih _ h)
  | reset k ih => exact hnext (a := .run 0) trivial rfl (ih h)
  | stmt p s k hd ihk ihh =>
    cases s with
    | read => exact hnext (a := .run 0) trivial rfl (ihk _ h)
    | lock rows =>
      refine hnext (a := .run 0) trivial ?_ (ihk _ h)
      simp [Sys.step, Sys.run, free_alone, setThread]
    | write rows change =>
      refine hnext (a := .run 0) trivial ?_ (ihk _ h)
      simp [Sys.step, Sys.run, free_alone, setThread]
    | commit =>
      refine hnext (a := .run 0) trivial ?_ (ihk _ h.2)
      simp [Sys.step, Sys.run, h.1]

/-- A client that starts alone can do what its code can do. -/
theorem Reach.solo {Q : S.Db → Prop} {c : Code S Unit} (hc : ops c) {d : S.Db}
    (h : c.Solo (fun _ _ _ d' => Q d') [] id d) : ∃ s, Reach ops .none { db := d } s ∧ Q s.db := by
  have hstarted : Reach ops .none { db := d } { db := d, threads := [{ code := c }] } :=
    .step (.start c) .refl hc rfl trivial
  obtain ⟨s, hreach, hQ⟩ := Reach.of_solo h
  exact ⟨s, hstarted.trans hreach, hQ⟩

end Sys

end ReadCommitted
