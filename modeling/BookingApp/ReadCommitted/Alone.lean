import BookingApp.ReadCommitted.Solo

/-!
# Code run from end to end

`Code.runAlone` evaluates code that no other client interleaves with: the statements go
through one after the other, the environment gives the answers it is told to give, and a
commit that breaks a constraint is refused. Operations processed one after the other are
runs of it in sequence, and each is a run of the whole system (`Reach.runAlone`).
-/

set_option autoImplicit false

namespace ReadCommitted

variable {S : Store} {α β : Type}

/-- Where a client that runs alone stands: what it will be answered, the error that a refused
commit raises, its uncommitted writes and the committed state. -/
structure Alone (S : Store) where
  answers : Nat → S.Answer
  refusal : S.Db → S.Err
  delta : S.Db → S.Db := id
  db : S.Db

namespace Alone

variable (s : Alone S)

/-- What the client sees. -/
def view : S.Db :=
  s.delta s.db

/-- After an answer. -/
def next : Alone S :=
  { s with answers := fun n => s.answers (n + 1) }

/-- After a write. -/
def write (change : S.Db → S.Db → S.Db) : Alone S :=
  { s with delta := fun d => change s.view (s.delta d) }

/-- Without a transaction, in the committed state `d`. -/
def idleIn (d : S.Db) : Alone S :=
  { s with delta := id, db := d }

@[simp] theorem view_write (change : S.Db → S.Db → S.Db) :
    (s.write change).view = change s.view s.view := rfl

@[simp] theorem db_write (change : S.Db → S.Db → S.Db) : (s.write change).db = s.db := rfl

end Alone

namespace Code

def runAlone : Code S α → Alone S → Except S.Err α × Alone S
  | .ret a, s => (.ok a, s)
  | .throw e, s => (.error e, s)
  | .ask k, s => (k (s.answers 0)).runAlone s.next
  | .call effect k, s => (k s.db).runAlone { s with db := effect s.db }
  | .reset k, s => k.runAlone (s.idleIn s.db)
  | .stmt _ .read k _, s => (k s.view).runAlone s
  | .stmt _ (.lock _) k _, s => (k s.view).runAlone s
  | .stmt _ (.write _ change) k _, s => (k s.view).runAlone (s.write change)
  | .stmt _ .commit k h, s =>
    if S.legal s.view then (k s.view).runAlone (s.idleIn s.view)
    else (h (s.refusal s.view)).runAlone s

theorem runAlone_bind (c : Code S β) (f : β → Code S α) (s : Alone S) :
    (c >>= f).runAlone s =
      match c.runAlone s with
      | (.ok b, s') => (f b).runAlone s'
      | (.error e, s') => (.error e, s') := by
  change (c.bind f).runAlone s = _
  induction c generalizing s with
  | ret b => rfl
  | throw e => rfl
  | ask k ih => exact ih _ _
  | call effect k ih => exact ih _ _
  | reset k ih => exact ih _
  | stmt p st k h ihk ihh =>
    cases st with
    | commit =>
      simp only [Code.bind, runAlone]
      split
      · exact ihk _ _
      · exact ihh _ _
    | _ => exact ihk _ _

theorem runAlone_bind_ok {c : Code S β} {f : β → Code S α} {s s' : Alone S} {b : β}
    (h : c.runAlone s = (.ok b, s')) : (c >>= f).runAlone s = (f b).runAlone s' := by
  rw [runAlone_bind, h]

theorem runAlone_bind_error {c : Code S β} {f : β → Code S α} {s s' : Alone S} {e : S.Err}
    (h : c.runAlone s = (.error e, s')) : (c >>= f).runAlone s = (.error e, s') := by
  rw [runAlone_bind, h]

theorem runAlone_bind_eq_ok {c : Code S β} {f : β → Code S α} {s s' : Alone S} {a : α} :
    (c >>= f).runAlone s = (.ok a, s') ↔
      ∃ b s₁, c.runAlone s = (.ok b, s₁) ∧ (f b).runAlone s₁ = (.ok a, s') := by
  rw [runAlone_bind]
  rcases c.runAlone s with ⟨e | b, s₁⟩
  · simp
  · simp only [Prod.mk.injEq, Except.ok.injEq, exists_and_left, and_assoc, exists_eq_left']

theorem runAlone_tryCatch (c : Code S α) (f : S.Err → Code S α) (s : Alone S) :
    Code.runAlone (tryCatch c f) s =
      match c.runAlone s with
      | (.ok a, s') => (.ok a, s')
      | (.error e, s') => (f e).runAlone s' := by
  change (c.tryCatch f).runAlone s = _
  induction c generalizing s with
  | ret b => rfl
  | throw e => rfl
  | ask k ih => exact ih _ _
  | call effect k ih => exact ih _ _
  | reset k ih => exact ih _
  | stmt p st k h ihk ihh =>
    cases st with
    | commit =>
      simp only [Code.tryCatch, runAlone]
      split
      · exact ihk _ _
      · exact ihh _ _
    | _ => exact ihk _ _

variable (s : Alone S)

@[simp] theorem runAlone_pure (a : α) : (pure a : Code S α).runAlone s = (.ok a, s) := rfl

@[simp] theorem runAlone_throw (e : S.Err) : (throw e : Code S α).runAlone s = (.error e, s) := rfl

@[simp] theorem runAlone_answer : (answer : Code S S.Answer).runAlone s = (.ok (s.answers 0), s.next) := rfl

@[simp] theorem runAlone_select (p : S.Point) (f : S.Db → α) :
    (select p f).runAlone s = (.ok (f s.view), s) := rfl

@[simp] theorem runAlone_selectForUpdate (p : S.Point) (rows : S.Db → List S.Lock) (f : S.Db → α) :
    (selectForUpdate p rows f).runAlone s = (.ok (f s.view), s) := rfl

@[simp] theorem runAlone_modify (p : S.Point) (rows : S.Db → List S.Lock)
    (change : S.Db → S.Db → S.Db) (f : S.Db → α) :
    (modify p rows change f).runAlone s = (.ok (f s.view), s.write change) := rfl

theorem runAlone_map (f : β → α) (c : Code S β) :
    (f <$> c).runAlone s = ((c.runAlone s).1.map f, (c.runAlone s).2) := by
  change (c >>= fun b => pure (f b)).runAlone s = _
  rw [runAlone_bind]
  rcases c.runAlone s with ⟨_ | b, s'⟩ <;> rfl

/-- A body that succeeds is committed if the constraints allow it. -/
theorem runAlone_transactionBy_ok {p : α → S.Point} {body : Code S α} {a : α} {s' : Alone S}
    (h : body.runAlone (s.idleIn s.db) = (.ok a, s')) :
    (transactionBy p body).runAlone s =
      if S.legal s'.view then (.ok a, s'.idleIn s'.view)
      else (.error (s'.refusal s'.view), s'.idleIn s'.db) := by
  change Code.runAlone (tryCatch (body >>= fun a => statement (p a) .commit fun _ => a) fun e =>
    .reset (.throw e)) (s.idleIn s.db) = _
  have hcommit : (statement (p a) .commit fun _ => a).runAlone s' =
      if S.legal s'.view then (.ok a, s'.idleIn s'.view) else (.error (s'.refusal s'.view), s') := rfl
  rw [runAlone_tryCatch, runAlone_bind, h]
  dsimp only
  rw [hcommit]
  by_cases hlegal : S.legal s'.view = true
  · rw [if_pos hlegal, if_pos hlegal]
  · rw [if_neg hlegal, if_neg hlegal]
    rfl

theorem runAlone_transaction_ok {p : S.Point} {body : Code S α} {a : α} {s' : Alone S}
    (h : body.runAlone (s.idleIn s.db) = (.ok a, s')) :
    (transaction p body).runAlone s =
      if S.legal s'.view then (.ok a, s'.idleIn s'.view)
      else (.error (s'.refusal s'.view), s'.idleIn s'.db) :=
  runAlone_transactionBy_ok s h

/-- A body that fails leaves nothing behind. -/
theorem runAlone_transactionBy_error {p : α → S.Point} {body : Code S α} {e : S.Err} {s' : Alone S}
    (h : body.runAlone (s.idleIn s.db) = (.error e, s')) :
    (transactionBy p body).runAlone s = (.error e, s'.idleIn s'.db) := by
  change Code.runAlone (tryCatch (body >>= fun a => statement (p a) .commit fun _ => a) fun e =>
    .reset (.throw e)) (s.idleIn s.db) = _
  rw [runAlone_tryCatch, runAlone_bind, h]
  rfl

/-- A first attempt that succeeds is the only one. -/
theorem runAlone_withRetry_ok {retry : S.Err → Bool} {left : Nat} {c : Nat → Code S α} {a : α}
    {s' : Alone S} (h : (c left).runAlone s = (.ok a, s')) :
    (withRetry retry left c).runAlone s = (.ok a, s') := by
  cases left with
  | zero => exact h
  | succ left => rw [withRetry, runAlone_tryCatch, h]

/-- When every attempt in the state `d` fails and leaves it, all of them together do. -/
theorem runAlone_withRetry_error {retry : S.Err → Bool} {c : Nat → Code S α} {d : S.Db}
    (h : ∀ left (s : Alone S), s.db = d → ∃ e s', (c left).runAlone s = (.error e, s') ∧ s'.db = d)
    (left : Nat) : ∀ s : Alone S, s.db = d →
      ∃ e s', (withRetry retry left c).runAlone s = (.error e, s') ∧ s'.db = d := by
  induction left with
  | zero => exact h 0
  | succ left ih =>
    intro s hs
    obtain ⟨e, s', hrun, hdb⟩ := h (left + 1) s hs
    rw [withRetry, runAlone_tryCatch, hrun]
    dsimp only
    split
    · exact ih s' hdb
    · exact ⟨e, s', rfl, hdb⟩

/-- What a transaction that succeeds has committed. -/
theorem runAlone_transactionBy_eq_ok {p : α → S.Point} {body : Code S α} {a : α} {s' : Alone S}
    (h : (transactionBy p body).runAlone s = (.ok a, s')) :
    ∃ s₁, body.runAlone (s.idleIn s.db) = (.ok a, s₁) ∧ S.legal s₁.view = true ∧
      s' = s₁.idleIn s₁.view := by
  rcases hbody : body.runAlone (s.idleIn s.db) with ⟨e | b, s₁⟩
  · rw [runAlone_transactionBy_error s hbody] at h
    cases h
  · rw [runAlone_transactionBy_ok s hbody] at h
    split at h
    · cases h
      exact ⟨s₁, rfl, ‹_›, rfl⟩
    · cases h

/-- A result of several attempts is the result of one of them. -/
theorem runAlone_withRetry_eq_ok {retry : S.Err → Bool} {c : Nat → Code S α} {a : α} {s' : Alone S}
    {left : Nat} : ∀ {s : Alone S}, (withRetry retry left c).runAlone s = (.ok a, s') →
      ∃ n s₁, (c n).runAlone s₁ = (.ok a, s') := by
  induction left with
  | zero => exact fun h => ⟨_, _, h⟩
  | succ left ih =>
    intro s h
    rw [withRetry, runAlone_tryCatch] at h
    split at h
    · next hfirst => exact ⟨_, s, hfirst.trans h⟩
    · split at h
      · exact ih h
      · cases h

/-- The code ends in a state that satisfies `P`; when it fails, in the one it was run in. -/
def Leaves (c : Code S α) (P : S.Db → Prop) : Prop :=
  match c.runAlone s with
  | (.ok _, s') => P s'.db
  | (.error _, s') => s'.db = s.db ∧ P s.db

/-- The state that each attempt leaves, all of them leave. -/
theorem runAlone_withRetry {retry : S.Err → Bool} {c : Nat → Code S α} {d : S.Db} {P : S.Db → Prop}
    (h : ∀ left (s : Alone S), s.db = d → Leaves s (c left) P) (left : Nat) :
    ∀ s : Alone S, s.db = d → P ((withRetry retry left c).runAlone s).2.db := by
  unfold Leaves at h
  induction left with
  | zero =>
    intro s hs
    have hrun := h 0 s hs
    rw [withRetry]
    split at hrun
    · next heq => rwa [heq]
    · next heq =>
      rw [heq, hrun.1]
      exact hrun.2
  | succ left ih =>
    intro s hs
    have hrun := h (left + 1) s hs
    rw [withRetry, runAlone_tryCatch]
    split at hrun
    · exact hrun
    · next e s' heq =>
      split
      · exact ih s' (hrun.1.trans hs)
      · change P s'.db
        rw [hrun.1]
        exact hrun.2

section Frames

/-- What the code sees through `f` is the same before and after it. -/
def Frames (f : S.Db → β) (c : Code S α) : Prop :=
  ∀ s : Alone S, f (c.runAlone s).2.view = f s.view

variable {γ : Type} {f : S.Db → γ}

theorem frames_pure (a : α) : Frames f (pure a : Code S α) :=
  fun _ => rfl

theorem frames_throw (e : S.Err) : Frames f (throw e : Code S α) :=
  fun _ => rfl

theorem frames_answer : Frames f (answer : Code S S.Answer) :=
  fun _ => rfl

theorem frames_modify {p : S.Point} {rows : S.Db → List S.Lock} {change : S.Db → S.Db → S.Db}
    {g : S.Db → α} (h : ∀ d, f (change d d) = f d) : Frames f (modify p rows change g) :=
  fun s => h s.view

theorem frames_ensure (c : Prop) [Decidable c] (e : S.Err) : Frames f (ensure c e : Code S Unit) := by
  unfold ensure
  split
  · exact frames_pure ()
  · exact frames_throw e

theorem Frames.bind {c : Code S β} {g : β → Code S α} (hc : Frames f c) (hg : ∀ b, Frames f (g b)) :
    Frames f (c >>= g) := by
  intro s
  have hfirst := hc s
  rw [runAlone_bind]
  split
  · next b s₁ heq =>
    rw [heq] at hfirst
    exact (hg b s₁).trans hfirst
  · next e s₁ heq =>
    rw [heq] at hfirst
    exact hfirst

theorem Frames.map {c : Code S β} (hc : Frames f c) (g : β → α) : Frames f (g <$> c) :=
  hc.bind fun b => frames_pure (g b)

theorem Frames.runAlone {c : Code S α} (hc : Frames f c) {s s' : Alone S} {result : Except S.Err α}
    (h : c.runAlone s = (result, s')) : f s'.view = f s.view := by
  rw [← hc s, h]

end Frames

end Code

namespace Sys

variable {ops : Code S Unit → Prop}

/-- What code does alone happens in a run. -/
theorem Reach.of_runAlone {c : Code S Unit} {held : List S.Lock} (s : Alone S) :
    ∃ s', Reach ops .none { db := s.db, threads := [{ code := c, held, delta := s.delta }] } s' ∧
      s'.db = (c.runAlone s).2.db := by
  have hnext : ∀ {d : S.Db} {s₁ s₂ : Sys S} {a : Action S}, Starts ops a → s₁.step a = some s₂ →
      (∃ s', Reach ops .none s₂ s' ∧ s'.db = d) → ∃ s', Reach ops .none s₁ s' ∧ s'.db = d := by
    rintro d s₁ s₂ a hstart hstep ⟨s', hreach, hd⟩
    have hallowed : Allowed .none s₁ a s₂ := by
      cases a with
      | run i => exact ⟨trivial, fun _ _ => trivial⟩
      | fail i e => trivial
      | _ => trivial
    exact ⟨s', (Reach.refl.step a hstart hstep hallowed).trans hreach, hd⟩
  induction c generalizing held s with
  | ret b => exact ⟨_, .refl, rfl⟩
  | throw e => exact ⟨_, .refl, rfl⟩
  | ask k ih => exact hnext (a := .answer 0 (s.answers 0)) trivial rfl (ih (s.answers 0) s.next)
  | call effect k ih =>
    exact hnext (a := .run 0) trivial rfl (ih s.db { s with db := effect s.db })
  | reset k ih => exact hnext (a := .run 0) trivial rfl (ih (s.idleIn s.db))
  | stmt p st k h ihk ihh =>
    cases st with
    | read => exact hnext (a := .run 0) trivial rfl (ihk s.view s)
    | lock rows =>
      have hlocked := @ihk s.view (held ++ rows s.view) s
      refine hnext (a := .run 0) trivial ?_ hlocked
      simp [Sys.step, Sys.run, free_alone, setThread, Alone.view]
    | write rows change =>
      have hwritten := @ihk s.view (held ++ rows s.view) (s.write change)
      refine hnext (a := .run 0) trivial ?_ hwritten
      simp [Sys.step, Sys.run, free_alone, setThread, Alone.view, Alone.write]
    | commit =>
      by_cases hlegal : S.legal s.view = true
      · have hrun : (Code.stmt p .commit k h).runAlone s = (k s.view).runAlone (s.idleIn s.view) :=
          if_pos hlegal
        rw [hrun]
        have hcommitted := @ihk s.view [] (s.idleIn s.view)
        refine hnext (a := .run 0) trivial ?_ hcommitted
        have hview : S.legal (s.delta s.db) = true := hlegal
        simp [Sys.step, Sys.run, hview, Alone.view, Alone.idleIn]
      · have hrun : (Code.stmt p .commit k h).runAlone s = (h (s.refusal s.view)).runAlone s :=
          if_neg hlegal
        rw [hrun]
        exact hnext (a := .fail 0 (s.refusal s.view)) trivial rfl (ihh (s.refusal s.view) s)

/-- What a client that starts does alone happens in a run. -/
theorem Reach.runAlone {c : Code S Unit} (hc : ops c) (s : Alone S) :
    ∃ s', Reach ops .none { db := s.db } s' ∧ s'.db = (c.runAlone (s.idleIn s.db)).2.db := by
  have hstarted : Reach ops .none { db := s.db } { db := s.db, threads := [{ code := c }] } :=
    .step (.start c) .refl hc rfl trivial
  have hrun : ∃ s', Reach ops .none { db := s.db, threads := [{ code := c }] } s' ∧
      s'.db = (c.runAlone (s.idleIn s.db)).2.db := Reach.of_runAlone (s.idleIn s.db)
  obtain ⟨s', hreach, hd⟩ := hrun
  exact ⟨s', hstarted.trans hreach, hd⟩

end Sys

end ReadCommitted
