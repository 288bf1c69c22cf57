import BookingApp.ReadCommitted.Alone

/-!
# What code can raise

`Code.Raises P` says that every error the code raises of its own satisfies `P`, given that the
errors of the database do. It goes by the shape of the code alone: what the statements see plays no
part in it.
-/

set_option autoImplicit false

namespace ReadCommitted

variable {S : Store} {α β : Type} {P : S.Err → Prop}

namespace Code

def Raises (P : S.Err → Prop) : Code S α → Prop
  | .ret _ => True
  | .throw e => P e
  | .ask k => ∀ a, (k a).Raises P
  | .call _ k => ∀ d, (k d).Raises P
  | .reset k => k.Raises P
  | .stmt _ _ k h => (∀ d, (k d).Raises P) ∧ ∀ e, P e → (h e).Raises P

theorem Raises.bind {c : Code S β} {f : β → Code S α} (hc : c.Raises P) (hf : ∀ b, (f b).Raises P) :
    (c >>= f).Raises P := by
  change (c.bind f).Raises P
  induction c with
  | ret b => exact hf b
  | throw e => exact hc
  | ask k ih => exact fun a => ih a (hc a)
  | call effect k ih => exact fun d => ih d (hc d)
  | reset k ih => exact ih hc
  | stmt p st k h ihk ihh => exact ⟨fun d => ihk d (hc.1 d), fun e he => ihh e (hc.2 e he)⟩

theorem Raises.map {c : Code S β} (hc : c.Raises P) (f : β → α) : (f <$> c).Raises P :=
  hc.bind fun _ => trivial

theorem raises_tryCatch {c : Code S α} {f : S.Err → Code S α} (hc : c.Raises P)
    (hf : ∀ e, P e → (f e).Raises P) : Code.Raises P (tryCatch c f) := by
  change (c.tryCatch f).Raises P
  induction c with
  | ret b => trivial
  | throw e => exact hf e hc
  | ask k ih => exact fun a => ih a (hc a)
  | call effect k ih => exact fun d => ih d (hc d)
  | reset k ih => exact ih hc
  | stmt p st k h ihk ihh => exact ⟨fun d => ihk d (hc.1 d), fun e he => ihh e (hc.2 e he)⟩

theorem raises_statement (p : S.Point) (st : Stmt S) (f : S.Db → α) : (statement p st f).Raises P :=
  ⟨fun _ => trivial, fun _ he => he⟩

theorem raises_ensure {c : Prop} [Decidable c] {e : S.Err} (h : P e) : (ensure c e).Raises P := by
  unfold ensure
  split
  · trivial
  · exact h

theorem Raises.transactionBy {p : α → S.Point} {body : Code S α} (h : body.Raises P) :
    (ReadCommitted.transactionBy p body).Raises P :=
  raises_tryCatch (h.bind fun a => raises_statement (p a) .commit fun _ => a) fun _ he => he

theorem Raises.withRetry {retry : S.Err → Bool} {c : Nat → Code S α} (h : ∀ left, (c left).Raises P)
    (left : Nat) : (ReadCommitted.withRetry retry left c).Raises P := by
  induction left with
  | zero => exact h 0
  | succ left ih =>
    refine raises_tryCatch (h (left + 1)) fun e he => ?_
    split
    · exact ih
    · exact he

/-- Run alone the code ends in none but these errors, if the refused commits do. -/
theorem Raises.runAlone {c : Code S α} (hc : c.Raises P) {s s' : Alone S} (hs : ∀ d, P (s.refusal d)) {e : S.Err}
    (h : c.runAlone s = (.error e, s')) : P e := by
  induction c generalizing s with
  | ret a => cases h
  | throw e' =>
    cases h
    exact hc
  | ask k ih => exact ih _ (hc _) (s := s.next) hs h
  | call effect k ih => exact ih _ (hc _) (s := { s with db := effect s.db }) hs h
  | reset k ih => exact ih hc (s := s.idleIn s.db) hs h
  | stmt p st k handler ihk ihh =>
    cases st with
    | read => exact ihk _ (hc.1 _) hs h
    | lock rows => exact ihk _ (hc.1 _) hs h
    | write rows change => exact ihk _ (hc.1 _) (s := s.write change) hs h
    | commit =>
      rw [Code.runAlone] at h
      split at h
      · exact ihk _ (hc.1 _) (s := s.idleIn s.view) hs h
      · exact ihh _ (hc.2 _ (hs _)) hs h

end Code

end ReadCommitted
