import Mathlib.Data.Set.Insert
import Mathlib.Data.List.Basic

/-!
# Programs of atomic commands over one shared state

A program is a sequence of atomic commands, each of which sees the shared state as
it is and replaces it. A command also leaves its client in a *role*: what the
others, and a condition on the run, may know of where the client stands. Nothing
here fixes the state, the roles or the errors: they are the fields of `World`.
-/

set_option autoImplicit false

namespace Interleaving

/-- What the clients share, the roles they can be in, and the errors they end with. -/
structure World where
  State : Type
  Role : Type
  Err : Type
  idle : Role

/-- The same state and errors, with other roles. -/
abbrev World.withRoles (W : World) (Role : Type) (idle : Role) : World :=
  { W with Role, idle }

variable {W : World} {α β : Type}

/-- A program that ends in an `α`: a command `act effect role k` changes the state, leaves its
client in a role, and goes on by what it saw. -/
inductive Prog (W : World) (α : Type) where
  | ret (a : α)
  | throw (e : W.Err)
  | act (effect : W.State → W.State) (role : W.State → W.Role) (k : W.State → Prog W α)

namespace Prog

protected def bind : Prog W α → (α → Prog W β) → Prog W β
  | ret a, f => f a
  | throw e, _ => .throw e
  | act effect role k, f => .act effect role fun σ => (k σ).bind f

instance : Monad (Prog W) where
  pure := .ret
  bind := Prog.bind

/-- A program on its own, from `σ`: what it ends in, unless it fails, and the state it leaves. -/
def alone : Prog W α → W.State → Option α × W.State
  | ret a, σ => (some a, σ)
  | throw _, σ => (none, σ)
  | act effect _ k, σ => (k σ).alone (effect σ)

/-- Whether a client has come to its end. -/
def ended : Prog W α → Bool
  | act _ _ _ => false
  | _ => true

/-- The same program, whose client is in the roles that `g` makes of its own, and in none at its
end. -/
def relabel {R : Type} {idle : R} (g : W.Role → R) : Prog W α → Prog (W.withRoles R idle) α
  | ret a => .ret a
  | throw e => .throw e
  | act effect role k =>
    .act effect (fun σ => if (k σ).ended then idle else g (role σ)) fun σ => (k σ).relabel g

/-- Each command of the program changes the state by `p`. -/
def Always (p : W.State → W.State → Prop) : Prog W α → Prop
  | act effect _ k => ∀ σ, p σ (effect σ) ∧ (k σ).Always p
  | _ => True

theorem alone_bind (c : Prog W α) (f : α → Prog W β) (σ : W.State) :
    (c >>= f).alone σ = match c.alone σ with
      | (some a, σ') => (f a).alone σ'
      | (none, σ') => (none, σ') := by
  change (c.bind f).alone σ = _
  induction c generalizing σ with
  | ret a => rfl
  | throw e => rfl
  | act effect role k ih => exact ih σ (effect σ)

theorem always_bind {p : W.State → W.State → Prop} {c : Prog W α} {f : α → Prog W β}
    (hc : c.Always p) (hf : ∀ a, (f a).Always p) : (c >>= f).Always p := by
  change (c.bind f).Always p
  induction c with
  | ret a => exact hf a
  | throw e => trivial
  | act effect role k ih => exact fun σ => ⟨(hc σ).1, ih σ (hc σ).2⟩

end Prog

/-- One command that leaves its client in `role`, and answers `f` of the state it saw. -/
def commandAs (role : W.State → W.Role) (effect : W.State → W.State) (f : W.State → α) : Prog W α :=
  .act effect role fun σ => .ret (f σ)

/-- One command of a client that stands nowhere in particular. -/
def command (effect : W.State → W.State) (f : W.State → α) : Prog W α :=
  commandAs (fun _ => W.idle) effect f

/-- One transaction: it fails and leaves the state as it was, or it replaces the state and leaves
its client in a role. -/
def transact (role : α → W.Role) (f : W.State → Except W.Err (α × W.State)) : Prog W α :=
  .act
    (fun σ => match f σ with
      | .ok (_, σ') => σ'
      | .error _ => σ)
    (fun σ => match f σ with
      | .ok (a, _) => role a
      | .error _ => W.idle)
    fun σ => match f σ with
      | .ok (a, _) => .ret a
      | .error e => .throw e

/-- Goes on when `c` holds, and raises `e` otherwise. -/
def ensure (c : Prop) [Decidable c] (e : W.Err) : Prog W Unit :=
  if c then .ret () else .throw e

/-- A client: its role, and what it has still to run. -/
structure Thread (W : World) where
  role : W.Role
  prog : Prog W Unit

structure Sys (W : World) where
  state : W.State
  threads : List (Thread W) := []

/-- What happens next: a client starts, or runs its next command. -/
inductive Event (W : World) where
  | start (prog : Prog W Unit)
  | run (i : Nat)

/-- Conditions on a run: what holds, of the roles of the other clients and of the state, when a
client in a role runs its next command (`Assume`), and what a command of another client leaves
alone while a client is in a role (`Stable`). -/
structure Conditions (W : World) where
  Assume : Set W.Role → W.Role → W.State → Prop
  Stable : W.Role → W.State → W.State → Prop

namespace Conditions

/-- Every run. -/
def none : Conditions W where
  Assume _ _ _ := True
  Stable _ _ _ := True

/-- Conditions that can be checked along a schedule, on the list of the roles of the others. -/
class Checkable (c : Conditions W) where
  assume : List W.Role → W.Role → W.State → Bool
  stable : W.Role → W.State → W.State → Bool
  assume_sound : ∀ {l r σ}, assume l r σ = true → c.Assume {q | q ∈ l} r σ
  stable_sound : ∀ {r σ σ'}, stable r σ σ' = true → c.Stable r σ σ'

instance : (none : Conditions W).Checkable where
  assume _ _ _ := true
  stable _ _ _ := true
  assume_sound _ := trivial
  stable_sound _ := trivial

end Conditions

namespace Sys

/-- One event, if it can happen. -/
def step (s : Sys W) : Event W → Option (Sys W)
  | .start prog => some { s with threads := s.threads ++ [⟨W.idle, prog⟩] }
  | .run i => s.threads[i]?.bind fun t =>
    match t.prog with
    | .act effect role k =>
      some { state := effect s.state, threads := s.threads.set i ⟨role s.state, k s.state⟩ }
    | _ => none

/-- The roles the clients are in. -/
def roles (s : Sys W) : Set W.Role :=
  {r | ∃ t ∈ s.threads, t.role = r}

/-- The roles the clients other than `i` are in. -/
def others (s : Sys W) (i : Nat) : Set W.Role :=
  {r | ∃ j t, j ≠ i ∧ s.threads[j]? = some t ∧ t.role = r}

/-- What `c` asks of the event `e` between `s` and `s'`. -/
def Allowed (c : Conditions W) (s : Sys W) (e : Event W) (s' : Sys W) : Prop :=
  match e with
  | .start _ => True
  | .run i => (∀ t, s.threads[i]? = some t → c.Assume (s.others i) t.role s.state) ∧
      ∀ r ∈ s.others i, c.Stable r s.state s'.state

/-- The roles of the clients other than `i`, in order. -/
def otherRoles (s : Sys W) (i : Nat) : List W.Role :=
  (s.threads.eraseIdx i).map Thread.role

/-- Whether `e` is allowed, for conditions that can be checked. -/
def allowed (c : Conditions W) [c.Checkable] (s : Sys W) (e : Event W) (s' : Sys W) : Bool :=
  match e with
  | .start _ => true
  | .run i => (s.threads[i]?.all fun t =>
      Conditions.Checkable.assume c (s.otherRoles i) t.role s.state) &&
    (s.otherRoles i).all fun r => Conditions.Checkable.stable c r s.state s'.state

/-- A whole schedule, as far as it is allowed. -/
def exec (c : Conditions W) [c.Checkable] (s : Sys W) : List (Event W) → Option (Sys W)
  | [] => some s
  | e :: es => (s.step e).bind fun s' => if allowed c s e s' then exec c s' es else none

/-- Only programs of `ops` are started. -/
def Starts (ops : Prog W Unit → Prop) : Event W → Prop
  | .start prog => ops prog
  | .run _ => True

/-- The systems that runs of `ops` under `c` lead to, from `s₀`. -/
inductive Reach (ops : Prog W Unit → Prop) (c : Conditions W) (s₀ : Sys W) : Sys W → Prop where
  | refl : Reach ops c s₀ s₀
  | step {s s' : Sys W} (e : Event W) (hs : Reach ops c s₀ s) (hstart : Starts ops e)
      (hstep : s.step e = some s') (hallowed : Allowed c s e s') : Reach ops c s₀ s'

theorem others_eq (s : Sys W) (i : Nat) : s.others i = {r | r ∈ s.otherRoles i} := by
  ext r
  constructor
  · rintro ⟨j, t, hne, hj, rfl⟩
    exact List.mem_map.mpr ⟨t, List.mem_eraseIdx_iff_getElem?.mpr ⟨j, hne, hj⟩, rfl⟩
  · intro hr
    obtain ⟨t, ht, rfl⟩ := List.mem_map.mp hr
    obtain ⟨j, hne, hj⟩ := List.mem_eraseIdx_iff_getElem?.mp ht
    exact ⟨j, t, hne, hj, rfl⟩

theorem allowed_sound {c : Conditions W} [c.Checkable] {s s' : Sys W} {e : Event W}
    (h : allowed c s e s' = true) : Allowed c s e s' := by
  cases e with
  | start prog => trivial
  | run i =>
    obtain ⟨hassume, hstable⟩ := Bool.and_eq_true_iff.mp h
    refine ⟨fun t ht => ?_, fun r hr => ?_⟩
    · rw [ht] at hassume
      rw [others_eq]
      exact Conditions.Checkable.assume_sound hassume
    · rw [others_eq] at hr
      exact Conditions.Checkable.stable_sound (List.all_eq_true.mp hstable r hr)

/-- A schedule that goes through is a run. -/
theorem Reach.exec {ops : Prog W Unit → Prop} {c : Conditions W} [c.Checkable] {s₀ s s' : Sys W}
    {es : List (Event W)} (hs : Reach ops c s₀ s) (hops : ∀ e ∈ es, Starts ops e)
    (h : s.exec c es = some s') : Reach ops c s₀ s' := by
  induction es generalizing s with
  | nil => cases h; exact hs
  | cons e es ih =>
    obtain ⟨t, ht, h⟩ := Option.bind_eq_some_iff.mp h
    split at h
    · exact ih (hs.step e (hops e (by simp)) ht (allowed_sound ‹_›)) (fun e' he => hops e' (by simp [he])) h
    · cases h

/-- A run goes on from where another has ended. -/
theorem Reach.trans {ops : Prog W Unit → Prop} {c : Conditions W} {s₁ s₂ s₃ : Sys W}
    (h₁ : Reach ops c s₁ s₂) (h₂ : Reach ops c s₂ s₃) : Reach ops c s₁ s₃ := by
  induction h₂ with
  | refl => exact h₁
  | step e _ hstart hstep hallowed ih => exact ih.step e hstart hstep hallowed

/-- The roles of a system, seen from one of its clients. -/
theorem roles_eq_insert {s : Sys W} {i : Nat} {t : Thread W} (hi : s.threads[i]? = some t) :
    s.roles = insert t.role (s.others i) := by
  ext r
  constructor
  · rintro ⟨u, hu, rfl⟩
    obtain ⟨j, hj⟩ := List.mem_iff_getElem?.mp hu
    by_cases hji : j = i
    · subst hji
      obtain rfl : u = t := Option.some.inj (hj.symm.trans hi)
      exact .inl rfl
    · exact .inr ⟨j, u, hji, hj, rfl⟩
  · rintro (rfl | ⟨j, u, _, hj, rfl⟩)
    · exact ⟨t, List.mem_of_getElem? hi, rfl⟩
    · exact ⟨u, List.mem_of_getElem? hj, rfl⟩

/-- The roles of the others are as they were when a client moves on. -/
theorem others_set (s : Sys W) (i : Nat) (t : Thread W) (σ : W.State) :
    Sys.others { state := σ, threads := s.threads.set i t } i = s.others i := by
  ext r
  constructor
  · rintro ⟨j, u, hne, hj, rfl⟩
    refine ⟨j, u, hne, ?_, rfl⟩
    rwa [List.getElem?_set_ne (Ne.symm hne)] at hj
  · rintro ⟨j, u, hne, hj, rfl⟩
    refine ⟨j, u, hne, ?_, rfl⟩
    rwa [List.getElem?_set_ne (Ne.symm hne)]

theorem roles_start (s : Sys W) (c : Prog W Unit) :
    Sys.roles { s with threads := s.threads ++ [⟨W.idle, c⟩] } = insert W.idle s.roles := by
  ext r
  constructor
  · rintro ⟨t, ht, rfl⟩
    rcases List.mem_append.mp ht with ht | ht
    · exact .inr ⟨t, ht, rfl⟩
    · exact .inl (congrArg Thread.role (List.mem_singleton.mp ht))
  · rintro (rfl | ⟨t, ht, rfl⟩)
    · exact ⟨_, List.mem_append_right _ (List.mem_singleton_self _), rfl⟩
    · exact ⟨t, List.mem_append_left _ ht, rfl⟩

end Sys

end Interleaving
