import BookingApp.ReadCommitted.System

/-!
# What one client commits

`Code.Commits R` says that every change the code commits satisfies `R`, whatever the committed state
is at each of its statements: nothing is asked of the other clients. `R` is told what the code has
read before. `Sys.Watched` is a run together with what one of its clients has read in it.
-/

set_option autoImplicit false

namespace ReadCommitted

variable {S : Store} {α β : Type} {R : List S.Db → S.Db → S.Db → Prop}

namespace Code

/-- Having read `seen` and written `δ`, the code commits changes that satisfy `R`, and ends in `Q`. -/
def Commits (R : List S.Db → S.Db → S.Db → Prop) : Code S α →
    (Except S.Err α → List S.Db → (S.Db → S.Db) → Prop) → List S.Db → (S.Db → S.Db) → Prop
  | .ret a, Q, seen, δ => Q (.ok a) seen δ
  | .throw e, Q, seen, δ => Q (.error e) seen δ
  | .ask k, Q, seen, δ => ∀ a, Commits R (k a) Q seen δ
  | .call effect k, Q, seen, δ => ∀ d, R seen d (effect d) ∧ Commits R (k d) Q seen δ
  | .reset k, Q, seen, _ => Commits R k Q seen id
  | .stmt _ s k h, Q, seen, δ =>
    (∀ d, match s with
      | .read => Commits R (k (δ d)) Q (seen ++ [δ d]) δ
      | .lock _ => Commits R (k (δ d)) Q (seen ++ [δ d]) δ
      | .write _ change => Commits R (k (δ d)) Q seen (fun x => change (δ d) (δ x))
      | .commit => S.legal (δ d) = true → R seen d (δ d) ∧ Commits R (k (δ d)) Q seen id) ∧
    ∀ e, Commits R (h e) Q seen δ

variable {Q Q' : Except S.Err α → List S.Db → (S.Db → S.Db) → Prop} {seen : List S.Db}
  {δ : S.Db → S.Db}

theorem Commits.mono {c : Code S α} (h : c.Commits R Q seen δ) (hQ : ∀ r seen δ, Q r seen δ → Q' r seen δ) :
    c.Commits R Q' seen δ := by
  induction c generalizing seen δ with
  | ret a => exact hQ _ _ _ h
  | throw e => exact hQ _ _ _ h
  | ask k ih => exact fun a => ih a (h a)
  | call effect k ih => exact fun d => ⟨(h d).1, ih d (h d).2⟩
  | reset k ih => exact ih h
  | stmt p s k hd ihk ihh =>
    refine ⟨fun d => ?_, fun e => ihh e (h.2 e)⟩
    cases s with
    | commit => exact fun hl => ⟨(h.1 d hl).1, ihk _ (h.1 d hl).2⟩
    | _ => exact ihk _ (h.1 d)

/-- What has to hold after `c` for `c` and then `f` to end in `Q`. -/
def Continues (R : List S.Db → S.Db → S.Db → Prop) (f : β → Code S α)
    (Q : Except S.Err α → List S.Db → (S.Db → S.Db) → Prop) :
    Except S.Err β → List S.Db → (S.Db → S.Db) → Prop
  | .ok b, seen, δ => (f b).Commits R Q seen δ
  | .error e, seen, δ => Q (.error e) seen δ

/-- What has to hold after `c` for `c`, with its errors handled by `f`, to end in `Q`. -/
def Recovers (R : List S.Db → S.Db → S.Db → Prop) (f : S.Err → Code S α)
    (Q : Except S.Err α → List S.Db → (S.Db → S.Db) → Prop) :
    Except S.Err α → List S.Db → (S.Db → S.Db) → Prop
  | .ok a, seen, δ => Q (.ok a) seen δ
  | .error e, seen, δ => (f e).Commits R Q seen δ

theorem commits_bind {c : Code S β} {f : β → Code S α} (h : c.Commits R (Continues R f Q) seen δ) :
    (c >>= f).Commits R Q seen δ := by
  change (c.bind f).Commits R Q seen δ
  induction c generalizing seen δ with
  | ret b => exact h
  | throw e => exact h
  | ask k ih => exact fun a => ih a (h a)
  | call effect k ih => exact fun d => ⟨(h d).1, ih d (h d).2⟩
  | reset k ih => exact ih h
  | stmt p s k hd ihk ihh =>
    refine ⟨fun d => ?_, fun e => ihh e (h.2 e)⟩
    cases s with
    | commit => exact fun hl => ⟨(h.1 d hl).1, ihk _ (h.1 d hl).2⟩
    | _ => exact ihk _ (h.1 d)

theorem commits_tryCatch {c : Code S α} {f : S.Err → Code S α} (h : c.Commits R (Recovers R f Q) seen δ) :
    Code.Commits R (tryCatch c f) Q seen δ := by
  change (c.tryCatch f).Commits R Q seen δ
  induction c generalizing seen δ with
  | ret b => exact h
  | throw e => exact h
  | ask k ih => exact fun a => ih a (h a)
  | call effect k ih => exact fun d => ⟨(h d).1, ih d (h d).2⟩
  | reset k ih => exact ih h
  | stmt p s k hd ihk ihh =>
    refine ⟨fun d => ?_, fun e => ihh e (h.2 e)⟩
    cases s with
    | commit => exact fun hl => ⟨(h.1 d hl).1, ihk _ (h.1 d hl).2⟩
    | _ => exact ihk _ (h.1 d)

/-- Where the body of a transaction has to end: its commit satisfies `R`, and leads to `Q` like
its failures. -/
def Committing (R : List S.Db → S.Db → S.Db → Prop)
    (Q : Except S.Err α → List S.Db → (S.Db → S.Db) → Prop) :
    Except S.Err α → List S.Db → (S.Db → S.Db) → Prop
  | .ok a, seen, δ => (∀ d, S.legal (δ d) = true → R seen d (δ d)) ∧ Q (.ok a) seen id ∧
    ∀ e, Q (.error e) seen id
  | .error e, seen, _ => Q (.error e) seen id

theorem Committing.mono {r : Except S.Err α} (h : Committing R Q r seen δ)
    (hQ : ∀ r seen δ, Q r seen δ → Q' r seen δ) : Committing R Q' r seen δ := by
  cases r with
  | ok a => exact ⟨h.1, hQ _ _ _ h.2.1, fun e => hQ _ _ _ (h.2.2 e)⟩
  | error e => exact hQ _ _ _ h

theorem commits_transaction {p : S.Point} {body : Code S α} (h : body.Commits R (Committing R Q) seen id) :
    (transaction p body).Commits R Q seen δ := by
  refine commits_tryCatch (commits_bind (h.mono fun r seen' δ' hend => ?_))
  cases r with
  | ok a => exact ⟨fun d hlegal => ⟨hend.1 d hlegal, hend.2.1⟩, hend.2.2⟩
  | error e => exact hend

/-- Attempts that read nothing, one after the other. -/
theorem commits_withRetry {retry : S.Err → Bool} {c : Nat → Code S α}
    (h : ∀ n, (c n).Commits R (fun r seen' δ' => seen' = seen ∧ δ' = id ∧ Q r seen id) seen id) (left : Nat) :
    (withRetry retry left c).Commits R Q seen id := by
  induction left with
  | zero =>
    refine (h 0).mono ?_
    rintro r seen' δ' ⟨rfl, rfl, hend⟩
    exact hend
  | succ left ih =>
    refine commits_tryCatch ((h (left + 1)).mono ?_)
    rintro r seen' δ' ⟨rfl, rfl, hend⟩
    cases r with
    | ok a => exact hend
    | error e =>
      change Code.Commits R (if retry e then _ else throw e) Q seen' id
      split
      · exact ih
      · exact hend

end Code

/-- What the next statement of a client reads. -/
def Thread.reads (t : Thread S) (d : S.Db) : List S.Db :=
  match t.code with
  | .stmt _ .read _ _ => [t.delta d]
  | .stmt _ (.lock _) _ _ => [t.delta d]
  | _ => []

namespace Sys

/-- What client `i` reads when the action happens. -/
def readBy (s : Sys S) (i : Nat) : Action S → List S.Db
  | .run j => if j = i then s.threads[i]?.elim [] fun t => t.reads s.db else []
  | _ => []

/-- The systems that runs lead to, from `s₀`, with what client `i` has read in them. -/
inductive Watched (ops : Code S Unit → Prop) (c : Conditions S) (i : Nat) (s₀ : Sys S) :
    List S.Db → Sys S → Prop where
  | refl : Watched ops c i s₀ [] s₀
  | step {seen : List S.Db} {s s' : Sys S} (a : Action S) (hs : Watched ops c i s₀ seen s)
      (hstart : Starts ops a) (hstep : s.step a = some s') (hallowed : Allowed c s a s') :
      Watched ops c i s₀ (seen ++ s.readBy i a) s'

variable {ops : Code S Unit → Prop} {c : Conditions S} {i : Nat} {s₀ s s' : Sys S} {seen : List S.Db}

theorem Watched.reach (h : Watched ops c i s₀ seen s) : Reach ops c s₀ s := by
  induction h with
  | refl => exact .refl
  | step a _ hstart hstep hallowed ih => exact ih.step a hstart hstep hallowed

/-- Every run can be watched. -/
theorem Reach.watched (i : Nat) (h : Reach ops c s₀ s) : ∃ seen, Watched ops c i s₀ seen s := by
  induction h with
  | refl => exact ⟨[], .refl⟩
  | step a _ hstart hstep hallowed ih =>
    obtain ⟨seen, hwatched⟩ := ih
    exact ⟨_, hwatched.step a hstart hstep hallowed⟩

/-- Client `i` has read `seen`, and all it goes on to commit satisfies `R`. -/
def Holds (R : List S.Db → S.Db → S.Db → Prop) (i : Nat) (seen : List S.Db) (s : Sys S) : Prop :=
  ∃ t, s.threads[i]? = some t ∧ t.code.Commits R (fun _ _ _ => True) seen t.delta

theorem Holds.set {d : S.Db} {j : Nat} {u : Thread S} (h : Holds R i seen s) (hj : j ≠ i) :
    Holds R i seen { db := d, threads := s.threads.set j u } := by
  obtain ⟨t, ht, hcommits⟩ := h
  exact ⟨t, (List.getElem?_set_ne hj).trans ht, hcommits⟩

/-- What one statement of the client does: it commits nothing, or a change that satisfies `R`. -/
theorem Holds.run {t : Thread S} (ht : s.threads[i]? = some t)
    (h : t.code.Commits R (fun _ _ _ => True) seen t.delta) (hrun : s.run i t = some s') :
    (s'.db = s.db ∨ R seen s.db s'.db) ∧ Holds R i (seen ++ s.readBy i (.run i)) s' := by
  have hi : i < s.threads.length := (List.getElem?_eq_some_iff.mp ht).1
  have hread : s.readBy i (.run i) = t.reads s.db := by
    rw [readBy, if_pos rfl, ht]
    rfl
  have hset : ∀ (d : S.Db) (u : Thread S),
      u.code.Commits R (fun _ _ _ => True) (seen ++ t.reads s.db) u.delta →
      Holds R i (seen ++ t.reads s.db) { db := d, threads := s.threads.set i u } := by
    intro d u hu
    exact ⟨u, by simp [hi], hu⟩
  rw [hread]
  obtain ⟨code, held, δ⟩ := t
  cases code with
  | ret a => cases hrun
  | throw e => cases hrun
  | ask k => cases hrun
  | call effect k =>
    cases hrun
    exact ⟨.inr (h s.db).1, hset _ _ (by rw [Thread.reads, List.append_nil]; exact (h s.db).2)⟩
  | reset k =>
    cases hrun
    exact ⟨.inl rfl, hset _ _ (by rw [Thread.reads, List.append_nil]; exact h)⟩
  | stmt p st k hd =>
    cases st with
    | read =>
      cases hrun
      exact ⟨.inl rfl, hset _ _ (h.1 s.db)⟩
    | lock rows =>
      obtain ⟨-, hs'⟩ := Option.ite_none_right_eq_some.mp hrun
      cases hs'
      exact ⟨.inl rfl, hset _ _ (h.1 s.db)⟩
    | write rows change =>
      obtain ⟨-, hs'⟩ := Option.ite_none_right_eq_some.mp hrun
      cases hs'
      exact ⟨.inl rfl, hset _ _ (by rw [Thread.reads, List.append_nil]; exact h.1 s.db)⟩
    | commit =>
      obtain ⟨hlegal, hs'⟩ := Option.ite_none_right_eq_some.mp hrun
      cases hs'
      obtain ⟨hR, hk⟩ := h.1 s.db hlegal
      exact ⟨.inr hR, hset _ _ (by rw [Thread.reads, List.append_nil]; exact hk)⟩

/-- What another client does is no matter. -/
theorem Holds.other {j : Nat} {t : Thread S} (h : Holds R i seen s) (hj : j ≠ i)
    (hrun : s.run j t = some s') : Holds R i seen s' := by
  obtain ⟨code, held, δ⟩ := t
  cases code with
  | ret a => cases hrun
  | throw e => cases hrun
  | ask k => cases hrun
  | call effect k =>
    cases hrun
    exact h.set hj
  | reset k =>
    cases hrun
    exact h.set hj
  | stmt p st k hd =>
    cases st with
    | read =>
      cases hrun
      exact h.set hj
    | _ =>
      obtain ⟨-, hs'⟩ := Option.ite_none_right_eq_some.mp hrun
      cases hs'
      exact h.set hj

/-- The client is answered, fails or crashes, or others do. -/
theorem Holds.put {j : Nat} {t u : Thread S} (h : Holds R i seen s) (ht : s.threads[j]? = some t)
    (hu : t.code.Commits R (fun _ _ _ => True) seen t.delta →
      u.code.Commits R (fun _ _ _ => True) seen u.delta) : Holds R i seen (s.setThread j u) := by
  by_cases hj : j = i
  · subst hj
    obtain ⟨t', ht', hcommits⟩ := h
    obtain rfl := Option.some.inj (ht.symm.trans ht')
    exact ⟨u, by simp [setThread, (List.getElem?_eq_some_iff.mp ht).1], hu hcommits⟩
  · exact h.set hj

/-- Whatever happens, the client goes on as it has to. -/
theorem Holds.step {a : Action S} (h : Holds R i seen s) (hstep : s.step a = some s') :
    Holds R i (seen ++ s.readBy i a) s' := by
  cases a with
  | start code =>
    cases hstep
    obtain ⟨t, ht, hcommits⟩ := h
    change Holds R i (seen ++ []) _
    rw [List.append_nil]
    exact ⟨t, (List.getElem?_append_left (List.getElem?_eq_some_iff.mp ht).1).trans ht, hcommits⟩
  | run j =>
    obtain ⟨t, ht, hrun⟩ := Option.bind_eq_some_iff.mp hstep
    by_cases hj : j = i
    · subst hj
      obtain ⟨t', ht', hcommits⟩ := h
      obtain rfl := Option.some.inj (ht.symm.trans ht')
      exact (Holds.run ht hcommits hrun).2
    · rw [readBy, if_neg hj, List.append_nil]
      exact h.other hj hrun
  | answer j b =>
    obtain ⟨t, ht, hanswer⟩ := Option.bind_eq_some_iff.mp hstep
    change Holds R i (seen ++ []) _
    rw [List.append_nil]
    obtain ⟨code, held, δ⟩ := t
    cases code with
    | ask k =>
      cases hanswer
      exact h.put ht fun hcommits => hcommits b
    | _ => cases hanswer
  | fail j e =>
    obtain ⟨t, ht, hfail⟩ := Option.bind_eq_some_iff.mp hstep
    change Holds R i (seen ++ []) _
    rw [List.append_nil]
    obtain ⟨code, held, δ⟩ := t
    cases code with
    | stmt p st k hd =>
      cases hfail
      exact h.put ht fun hcommits => hcommits.2 e
    | _ => cases hfail
  | crash j =>
    obtain ⟨t, ht, rfl⟩ := Option.map_eq_some_iff.mp hstep
    change Holds R i (seen ++ []) _
    rw [List.append_nil]
    exact h.put ht fun _ => trivial

/-- What a client commits at any point of a run, given what it has read by then. -/
theorem Watched.commits {code : Code S Unit} (hcode : code.Commits R (fun _ _ _ => True) [] id)
    (h : Watched ops c s₀.threads.length { s₀ with threads := s₀.threads ++ [{ code }] } seen s) :
    Holds R s₀.threads.length seen s := by
  induction h with
  | refl => exact ⟨{ code }, by simp, hcode⟩
  | step a _ _ hstep _ ih => exact ih.step hstep

/-- A step of a client commits nothing, or what its code may commit. -/
theorem Watched.run {code : Code S Unit} (hcode : code.Commits R (fun _ _ _ => True) [] id)
    (h : Watched ops c s₀.threads.length { s₀ with threads := s₀.threads ++ [{ code }] } seen s)
    (hstep : s.step (.run s₀.threads.length) = some s') : s'.db = s.db ∨ R seen s.db s'.db := by
  obtain ⟨t, ht, hcommits⟩ := h.commits hcode
  obtain ⟨t', ht', hrun⟩ := Option.bind_eq_some_iff.mp hstep
  obtain rfl := Option.some.inj (ht.symm.trans ht')
  exact (Holds.run ht hcommits hrun).1

end Sys

end ReadCommitted
