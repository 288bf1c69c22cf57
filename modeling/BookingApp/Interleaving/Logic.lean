import Mathlib.Logic.Relation
import BookingApp.Interleaving.Program

/-!
# Reasoning about one program among many

A protocol (`Proto`) says what one command may do to the state and to its client's
role (`Act`), and carries the proof that such commands keep an invariant of the state
and the roles. `Proto.wp` is the weakest precondition of one program, between whose
commands the others run theirs. `Reach.good` is the statement about whole systems:
if every program that may start keeps to the protocol, the invariant holds in every
state that an interleaving reaches.
-/

set_option autoImplicit false

namespace Interleaving

/-- The rules the clients follow, under the conditions on the run. At most one client at a time is
in a role of `Own`. -/
structure Proto (W : World) extends Conditions W where
  Inv : W.State → Set W.Role → Prop
  Act : W.Role → W.Role → W.State → W.State → Prop
  Own : Set W.Role := ∅
  idle_notMem : W.idle ∉ Own := by exact fun h => h.elim
  starts : ∀ {σ R}, Inv σ R → Inv σ (insert W.idle R)
  owns : ∀ {σ σ' R r r'}, Inv σ (insert r R) → (r ∈ Own → r ∉ R) → Act r r' σ σ' → r' ∈ Own →
    r' ∉ R := by exact fun _ _ _ h => h.elim
  keeps : ∀ {σ σ' R r r'}, Inv σ (insert r R) → (r ∈ Own → r ∉ R) → Assume R r σ →
    (∀ q ∈ R, Stable q σ σ') → Act r r' σ σ' → Inv σ' (insert r' R)

namespace Proto

variable {W : World} (P : Proto W)

/-- One command of another client, while this one is in the role `r`. -/
def Interference (r : W.Role) (σ σ' : W.State) : Prop :=
  (∃ q q', P.Act q q' σ σ') ∧ P.Stable r σ σ'

/-- What happens between two commands of a client in the role `r`. -/
def Rely (r : W.Role) : W.State → W.State → Prop :=
  Relation.ReflTransGen (P.Interference r)

variable {α β : Type}

/-- The weakest precondition: run from the state `σ` by a client in the role `r`, each command of
the program is an act of the protocol, and the program ends in `Q`. One that fails gives up its
role. -/
def wp : Prog W α → (α → W.Role → W.State → Prop) → W.Role → W.State → Prop
  | .ret a, Q, r, σ => Q a r σ
  | .throw _, _, r, _ => r = W.idle
  | .act effect role k, Q, r, σ =>
    ∀ σ', P.Rely r σ σ' → ∀ R, P.Inv σ' (insert r R) → P.Assume R r σ' →
      P.Act r (role σ') σ' (effect σ') ∧ wp (k σ') Q (role σ') (effect σ')

/-- A program that any client may run from any state. -/
def Safe (c : Prog W Unit) : Prop :=
  ∀ σ, P.wp c (fun _ r _ => r = W.idle) W.idle σ

/-- A protocol with the same acts, of which more is known. -/
structure Refines (P' P : Proto W) : Prop where
  inv : ∀ {σ R}, P'.Inv σ R → P.Inv σ R
  assume : ∀ {R r σ}, P'.Assume R r σ → P.Assume R r σ
  stable : ∀ {r σ σ'}, P'.Stable r σ σ' → P.Stable r σ σ'
  act : P'.Act = P.Act

section Rules

variable {P} {r : W.Role} {σ : W.State} {Q : α → W.Role → W.State → Prop}

theorem Rely.refl : P.Rely r σ σ := Relation.ReflTransGen.refl

theorem Rely.trans {σ₁ σ₂ σ₃ : W.State} (h₁ : P.Rely r σ₁ σ₂) (h₂ : P.Rely r σ₂ σ₃) :
    P.Rely r σ₁ σ₃ :=
  Relation.ReflTransGen.trans h₁ h₂

/-- What each command of the others keeps is there when this client goes on. -/
theorem Rely.keeps {J : W.State → Prop} {σ' : W.State} (h : P.Rely r σ σ')
    (hJ : ∀ x y, P.Interference r x y → J x → J y) (hσ : J σ) : J σ' := by
  induction h with
  | refl => exact hσ
  | tail _ hstep ih => exact hJ _ _ hstep ih

@[simp] theorem wp_pure (a : α) : P.wp (pure a) Q r σ ↔ Q a r σ := Iff.rfl

theorem wp_bind (c : Prog W β) (f : β → Prog W α) :
    P.wp (c >>= f) Q r σ ↔ P.wp c (fun b r σ => P.wp (f b) Q r σ) r σ := by
  change P.wp (c.bind f) Q r σ ↔ _
  induction c generalizing r σ with
  | ret a => exact Iff.rfl
  | throw e => exact Iff.rfl
  | act effect role k ih => simp only [Prog.bind, wp, ih]

theorem wp_map (g : β → α) (c : Prog W β) :
    P.wp (g <$> c) Q r σ ↔ P.wp c (fun b r σ => Q (g b) r σ) r σ :=
  wp_bind c fun b => pure (g b)

/-- Consequence: weaker endings of the same program. -/
theorem wp_mono {Q' : α → W.Role → W.State → Prop} {c : Prog W α} (h : P.wp c Q r σ)
    (hQ : ∀ a r σ, Q a r σ → Q' a r σ) : P.wp c Q' r σ := by
  induction c generalizing r σ with
  | ret a => exact hQ a r σ h
  | throw e => exact h
  | act effect role k ih =>
    intro σ' hrely R hinv hassume
    obtain ⟨hact, hk⟩ := h σ' hrely R hinv hassume
    exact ⟨hact, ih σ' hk⟩

/-- A command: shown to be an act of the protocol in the state it finds. -/
theorem wp_commandAs {role : W.State → W.Role} {effect : W.State → W.State} {f : W.State → α}
    (h : ∀ σ', P.Rely r σ σ' → ∀ R, P.Inv σ' (insert r R) → P.Assume R r σ' →
      P.Act r (role σ') σ' (effect σ') ∧ Q (f σ') (role σ') (effect σ')) :
    P.wp (commandAs role effect f) Q r σ :=
  h

theorem wp_command {effect : W.State → W.State} {f : W.State → α}
    (h : ∀ σ', P.Rely r σ σ' → ∀ R, P.Inv σ' (insert r R) → P.Assume R r σ' →
      P.Act r W.idle σ' (effect σ') ∧ Q (f σ') W.idle (effect σ')) :
    P.wp (command effect f) Q r σ :=
  h

/-- A transaction: an act of the protocol where it commits, and where it fails. -/
theorem wp_transact {role : α → W.Role} {f : W.State → Except W.Err (α × W.State)}
    (h : ∀ σ', P.Rely r σ σ' → ∀ R, P.Inv σ' (insert r R) → P.Assume R r σ' →
      (∀ a σ'', f σ' = .ok (a, σ'') → P.Act r (role a) σ' σ'' ∧ Q a (role a) σ'') ∧
      ∀ e, f σ' = .error e → P.Act r W.idle σ' σ') :
    P.wp (transact role f) Q r σ := by
  intro σ' hrely R hinv hassume
  obtain ⟨hok, herror⟩ := h σ' hrely R hinv hassume
  cases hf : f σ' with
  | ok p =>
    obtain ⟨a, σ''⟩ := p
    simp only [hf]
    exact hok a σ'' hf
  | error e =>
    simp only [hf]
    exact ⟨herror e hf, rfl⟩

theorem wp_ensure {c : Prop} [Decidable c] {e : W.Err} {Q : Unit → W.Role → W.State → Prop}
    (ht : c → Q () r σ) (hf : ¬c → r = W.idle) : P.wp (ensure c e) Q r σ := by
  unfold ensure
  split
  · exact ht ‹_›
  · exact hf ‹_›

/-- Knowing more of the run, a program keeps to the protocol all the more. -/
theorem wp_refines {P' : Proto W} (href : P'.Refines P) {c : Prog W α} (h : P.wp c Q r σ) :
    P'.wp c Q r σ := by
  have hrely : ∀ {r σ σ'}, P'.Rely r σ σ' → P.Rely r σ σ' := fun hr =>
    Relation.ReflTransGen.mono
      (fun _ _ (hi : P'.Interference _ _ _) => ⟨href.act ▸ hi.1, href.stable hi.2⟩) _ _ hr
  induction c generalizing r σ with
  | ret a => exact h
  | throw e => exact h
  | act effect role k ih =>
    intro σ' hr R hinv hassume
    obtain ⟨hact, hk⟩ := h σ' (hrely hr) R (href.inv hinv) (href.assume hassume)
    exact ⟨href.act ▸ hact, ih σ' hk⟩

theorem Safe.refines {P' : Proto W} (href : P'.Refines P) {c : Prog W Unit} (h : P.Safe c) :
    P'.Safe c :=
  fun σ => wp_refines href (h σ)

/-- Where each command is an act whatever the roles, the roles may be any. -/
theorem wp_relabel {R : Type} {idle : R} {P : Proto (W.withRoles R idle)} {g : W.Role → R}
    {p : W.State → W.State → Prop} (hp : ∀ r r' x y, p x y → P.Act r r' x y) {c : Prog W α}
    (hc : c.Always p) {r : R} {σ : W.State} (hend : c.ended = true → r = idle) :
    P.wp (c.relabel g) (fun _ r _ => r = idle) r σ := by
  induction c generalizing r σ with
  | ret a => exact hend rfl
  | throw e => exact hend rfl
  | act effect role k ih =>
    intro σ' _ R _ _
    exact ⟨hp _ _ _ _ (hc σ').1, ih σ' (hc σ').2 fun h => if_pos h⟩

/-- A transaction of a program that goes on, its client in a role that is not its own. -/
theorem wp_relabel_transact {R : Type} {idle : R} {P : Proto (W.withRoles R idle)} {g : W.Role → R}
    {role : β → W.Role} {f : W.State → Except W.Err (β × W.State)} {c : β → Prog W α}
    {Q : α → R → W.State → Prop} {r : R} {σ : W.State}
    (h : ∀ σ', P.Rely r σ σ' → ∀ R', P.Inv σ' (insert r R') → P.Assume R' r σ' →
      (∀ b σ'', f σ' = .ok (b, σ'') →
        P.Act r (if (c b).ended then idle else g (role b)) σ' σ'' ∧
          P.wp ((c b).relabel g) Q (if (c b).ended then idle else g (role b)) σ'') ∧
      ∀ e, f σ' = .error e → P.Act r idle σ' σ') :
    P.wp ((transact role f >>= c).relabel g) Q r σ := by
  intro σ' hrely R' hinv hassume
  obtain ⟨hok, herror⟩ := h σ' hrely R' hinv hassume
  cases hf : f σ' with
  | ok p =>
    obtain ⟨b, σ''⟩ := p
    simp only [hf]
    exact hok b σ'' hf
  | error e =>
    simp only [hf]
    exact ⟨herror e hf, rfl⟩

end Rules

/-- The client `t` keeps to the protocol, whatever it does next. -/
def SafeThread (t : Thread W) (σ : W.State) : Prop :=
  P.wp t.prog (fun _ r _ => r = W.idle) t.role σ

/-- The invariant holds, each client is safe where it stands, and what it owns is nobody else's. -/
structure Good (s : Sys W) : Prop where
  inv : P.Inv s.state s.roles
  safe : ∀ t ∈ s.threads, P.SafeThread t s.state
  own : ∀ i t, s.threads[i]? = some t → t.role ∈ P.Own → t.role ∉ s.others i

variable {P}

/-- A client stays safe under what the others do. -/
theorem SafeThread.interference {t : Thread W} {σ σ' : W.State} (h : P.SafeThread t σ)
    (hi : P.Interference t.role σ σ') : P.SafeThread t σ' := by
  obtain ⟨r, c⟩ := t
  cases c with
  | ret a => exact h
  | throw e => exact h
  | act effect role k => exact fun σ'' hrely => h σ'' (.head hi hrely)

/-- A client that has come to its end is in no role. -/
theorem Good.idle_of_ended {s : Sys W} (hs : P.Good s) {t : Thread W} (ht : t ∈ s.threads)
    (hend : t.prog.ended = true) : t.role = W.idle := by
  obtain ⟨r, c⟩ := t
  have hsafe := hs.safe _ ht
  cases c with
  | ret a => exact hsafe
  | throw e => exact hsafe
  | act effect role k => cases hend

/-- One event of a good system leads to a good one. -/
theorem Good.step {s s' : Sys W} (hs : P.Good s) {e : Event W} (hstart : Sys.Starts P.Safe e)
    (hstep : s.step e = some s') (hallowed : Sys.Allowed P.toConditions s e s') : P.Good s' := by
  cases e with
  | start c =>
    cases hstep
    have hget : ∀ (i : Nat) (t : Thread W), (s.threads ++ [⟨W.idle, c⟩])[i]? = some t →
        s.threads[i]? = some t ∨ t.role = W.idle := by grind
    refine ⟨?_, fun t ht => ?_, fun i t hi hown => ?_⟩
    · rw [Sys.roles_start]
      exact P.starts hs.inv
    · rcases List.mem_append.mp ht with ht | ht
      · exact hs.safe t ht
      · rw [List.mem_singleton.mp ht]
        exact hstart s.state
    · rcases hget i t hi with hi | hidle
      · rintro ⟨j, u, hne, hj, hrole⟩
        rcases hget j u hj with hj | hidle
        · exact hs.own i t hi hown ⟨j, u, hne, hj, hrole⟩
        · exact P.idle_notMem (hidle ▸ hrole ▸ hown)
      · exact absurd (hidle ▸ hown) P.idle_notMem
  | run i =>
    obtain ⟨t, hi, hrun⟩ := Option.bind_eq_some_iff.mp hstep
    obtain ⟨hassume, hstable⟩ := hallowed
    obtain ⟨r, c⟩ := t
    cases c with
    | ret a => cases hrun
    | throw e => cases hrun
    | act effect role k =>
      cases hrun
      have hinv := hs.inv
      rw [Sys.roles_eq_insert hi] at hinv
      obtain ⟨hact, hk⟩ := hs.safe _ (List.mem_of_getElem? hi) _ .refl _ hinv (hassume _ hi)
      have hlt := (List.getElem?_eq_some_iff.mp hi).1
      have howns := P.owns hinv (hs.own i _ hi) hact
      refine ⟨?_, fun t ht => ?_, fun j t hj hown => ?_⟩
      · rw [Sys.roles_eq_insert (i := i) (List.getElem?_set_self hlt), Sys.others_set]
        exact P.keeps hinv (hs.own i _ hi) (hassume _ hi) hstable hact
      · obtain ⟨j, hj⟩ := List.mem_iff_getElem?.mp ht
        by_cases hji : j = i
        · subst hji
          rw [List.getElem?_set_self hlt] at hj
          obtain rfl := Option.some.inj hj
          exact hk
        · rw [List.getElem?_set_ne (Ne.symm hji)] at hj
          exact (hs.safe t (List.mem_of_getElem? hj)).interference
            ⟨⟨_, _, hact⟩, hstable _ ⟨j, t, hji, hj, rfl⟩⟩
      · by_cases hji : j = i
        · subst hji
          rw [List.getElem?_set_self hlt] at hj
          obtain rfl := Option.some.inj hj
          rw [Sys.others_set]
          exact howns hown
        · rw [List.getElem?_set_ne (Ne.symm hji)] at hj
          rintro ⟨k, u, hne, hk, hrole⟩
          by_cases hki : k = i
          · subst hki
            rw [List.getElem?_set_self hlt] at hk
            obtain rfl := Option.some.inj hk
            rw [← hrole] at hown
            exact howns hown ⟨j, t, hji, hj, hrole.symm⟩
          · rw [List.getElem?_set_ne (Ne.symm hki)] at hk
            exact hs.own j t hj hown ⟨k, u, hne, hk, hrole⟩

/-- One event of a good system leaves the state as it was, or is an act of the protocol that the
conditions allow. -/
theorem Good.step_act {s s' : Sys W} (hs : P.Good s) {e : Event W} (hstep : s.step e = some s')
    (hallowed : Sys.Allowed P.toConditions s e s') :
    s'.state = s.state ∨ ∃ R r r', P.Inv s.state (insert r R) ∧ P.Assume R r s.state ∧
      P.Act r r' s.state s'.state := by
  cases e with
  | start c => cases hstep; exact .inl rfl
  | run i =>
    obtain ⟨⟨r, c⟩, hi, hrun⟩ := Option.bind_eq_some_iff.mp hstep
    cases c with
    | ret a => cases hrun
    | throw e => cases hrun
    | act effect role k =>
      cases hrun
      have hinv := hs.inv
      rw [Sys.roles_eq_insert hi] at hinv
      have hassume := hallowed.1 _ hi
      have hact := (hs.safe _ (List.mem_of_getElem? hi) _ .refl _ hinv hassume).1
      exact .inr ⟨_, _, _, hinv, hassume, hact⟩

end Proto

namespace Sys

variable {W : World} {P : Proto W}

/-- Every system that a run of safe programs leads to is good. -/
theorem Reach.good {ops : Prog W Unit → Prop} (hops : ∀ c, ops c → P.Safe c) {s₀ s : Sys W}
    (hs₀ : P.Good s₀) (h : Reach ops P.toConditions s₀ s) : P.Good s := by
  induction h with
  | refl => exact hs₀
  | @step s s' e hs hstart hstep hallowed ih =>
    have hsafe : Starts P.Safe e := by
      cases e with
      | start c => exact hops c hstart
      | run i => trivial
    exact ih.step hsafe hstep hallowed

/-- What each act of the protocol keeps where the conditions allow it, a run keeps. -/
theorem Reach.keeps {ops : Prog W Unit → Prop} (hops : ∀ c, ops c → P.Safe c) {s₀ s : Sys W}
    (hs₀ : P.Good s₀) {J : W.State → Prop}
    (hJ : ∀ R r r' x y, P.Inv x (insert r R) → P.Assume R r x → P.Act r r' x y → J x → J y)
    (h₀ : J s₀.state) (h : Reach ops P.toConditions s₀ s) : J s.state := by
  induction h with
  | refl => exact h₀
  | step e hs hstart hstep hallowed ih =>
    rcases (Reach.good hops hs₀ hs).step_act hstep hallowed with heq | ⟨R, r, r', hinv, hassume, hact⟩
    · rw [heq]
      exact ih
    · exact hJ R r r' _ _ hinv hassume hact ih

/-- A system none of whose clients has started. -/
theorem good_init {σ : W.State} (hσ : P.Inv σ ∅) : P.Good { state := σ } where
  inv := by
    have hroles : Sys.roles ({ state := σ } : Sys W) = ∅ := by
      ext r
      constructor
      · rintro ⟨t, ht, _⟩
        cases ht
      · rintro ⟨⟩
    rw [hroles]
    exact hσ
  safe t ht := by cases ht
  own i t hi := by cases hi

end Sys

end Interleaving
