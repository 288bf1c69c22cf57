import Mathlib.Data.List.Infix

/-!
# Machines

A machine takes one action after the other. Its state after a list of actions is a fold, and
a property of all such states is proved from one step. `Since` says what has been kept since an
action of some kind.
-/

set_option autoImplicit false

namespace Machine

variable {σ α β : Type} (step : σ → α → σ) (s₀ : σ)

/-- The state after a list of actions. -/
def after (acts : List α) : σ :=
  acts.foldl step s₀

/-- Each action is taken in a state in which `ok` allows it. -/
def Meets (ok : σ → α → Prop) (acts : List α) : Prop :=
  ∀ pre a post, acts = pre ++ a :: post → ok (after step s₀ pre) a

/-- An action for which `p` holds has been taken, and `view` of the state has been as it was before it
ever since. -/
def Since (p : α → Prop) (view : σ → β) (acts : List α) : Prop :=
  ∃ pre a post, acts = pre ++ a :: post ∧ p a ∧
    ∀ mid, mid <+: post → view (after step s₀ (pre ++ a :: mid)) = view (after step s₀ pre)

/-- Among the actions is one that is taken in a state in which `p` holds of it. -/
def Taken (p : σ → α → Prop) (acts : List α) : Prop :=
  ∃ pre a post, acts = pre ++ a :: post ∧ p (after step s₀ pre) a

variable {step s₀} {ok : σ → α → Prop} {acts : List α} {a : α}

@[simp] theorem after_concat : after step s₀ (acts ++ [a]) = step (after step s₀ acts) a := by
  simp [after]

/-- An action of a longer list is its last, or one of those before. -/
theorem concat_eq_append_cons {pre post : List α} {b : α} (h : acts ++ [a] = pre ++ b :: post) :
    (acts = pre ∧ a = b ∧ post = []) ∨ ∃ rest, acts = pre ++ b :: rest ∧ post = rest ++ [a] := by
  rcases List.eq_nil_or_concat post with rfl | ⟨rest, c, rfl⟩
  · obtain ⟨hpre, hlast⟩ := List.append_inj' h rfl
    exact .inl ⟨hpre, List.head_eq_of_cons_eq hlast, rfl⟩
  · have hsplit : acts ++ [a] = pre ++ b :: rest ++ [c] := by
      rw [h, List.concat_eq_append, List.append_assoc, List.cons_append]
    obtain ⟨hacts, hlast⟩ := List.append_inj' hsplit rfl
    refine .inr ⟨rest, hacts, ?_⟩
    rw [List.concat_eq_append, List.head_eq_of_cons_eq hlast]

theorem taken_concat {p : σ → α → Prop} :
    Taken step s₀ p (acts ++ [a]) ↔ Taken step s₀ p acts ∨ p (after step s₀ acts) a := by
  constructor
  · rintro ⟨pre, b, post, hacts, hp⟩
    rcases concat_eq_append_cons hacts with ⟨rfl, rfl, -⟩ | ⟨rest, rfl, -⟩
    · exact .inr hp
    · exact .inl ⟨pre, b, rest, rfl, hp⟩
  · rintro (⟨pre, b, post, rfl, hp⟩ | hp)
    · exact ⟨pre, b, post ++ [a], by rw [List.append_assoc, List.cons_append], hp⟩
    · exact ⟨acts, a, [], rfl, hp⟩

theorem Taken.mono {p q : σ → α → Prop} (h : Taken step s₀ p acts) (hpq : ∀ s a, p s a → q s a) :
    Taken step s₀ q acts := by
  obtain ⟨pre, a, post, hacts, hp⟩ := h
  exact ⟨pre, a, post, hacts, hpq _ a hp⟩

theorem taken_or {p q : σ → α → Prop} :
    Taken step s₀ (fun s a => p s a ∨ q s a) acts ↔ Taken step s₀ p acts ∨ Taken step s₀ q acts := by
  constructor
  · rintro ⟨pre, a, post, hacts, hp | hq⟩
    · exact .inl ⟨pre, a, post, hacts, hp⟩
    · exact .inr ⟨pre, a, post, hacts, hq⟩
  · rintro (h | h)
    · exact h.mono fun _ _ => Or.inl
    · exact h.mono fun _ _ => Or.inr

theorem not_taken_nil {p : σ → α → Prop} : ¬Taken step s₀ p [] := by
  rintro ⟨pre, a, post, hacts, -⟩
  simp at hacts

theorem Meets.of_concat (h : Meets step s₀ ok (acts ++ [a])) :
    Meets step s₀ ok acts ∧ ok (after step s₀ acts) a := by
  refine ⟨fun pre b post hacts => ?_, h acts a [] rfl⟩
  exact h pre b (post ++ [a]) (by rw [hacts, List.append_assoc, List.cons_append])

/-- Checked action by action. -/
theorem meets_of_forall (h : ∀ i : Fin acts.length, ok (after step s₀ (acts.take i)) acts[i]) :
    Meets step s₀ ok acts := by
  rintro pre a post rfl
  have hok := h ⟨pre.length, by simp⟩
  simpa using hok

/-- What holds at the start and is kept by each action that is allowed holds after every list of
actions that are. -/
theorem invariant {J : σ → Prop} (hstart : J s₀) (hstep : ∀ s a, ok s a → J s → J (step s a))
    (h : Meets step s₀ ok acts) : J (after step s₀ acts) := by
  induction acts using List.reverseRecOn with
  | nil => exact hstart
  | append_singleton acts a ih =>
    obtain ⟨hbefore, hok⟩ := h.of_concat
    rw [after_concat]
    exact hstep _ a hok (ih hbefore)

/-- What each action keeps holds after every list of them. -/
theorem always {J : σ → Prop} (hstart : J s₀) (hstep : ∀ s a, J s → J (step s a)) :
    J (after step s₀ acts) := by
  have h : Meets step s₀ (fun _ _ => True) acts := fun _ _ _ _ => trivial
  exact invariant hstart (fun s a _ => hstep s a) h

/-- What holds throughout may be assumed of the state in which each action is taken. -/
theorem Meets.and_invariant {J : σ → Prop} (hstart : J s₀)
    (hstep : ∀ s a, ok s a → J s → J (step s a)) (h : Meets step s₀ ok acts) :
    Meets step s₀ (fun s a => J s ∧ ok s a) acts := by
  intro pre a post hacts
  refine ⟨invariant hstart hstep fun pre' b post' hpre => ?_, h pre a post hacts⟩
  exact h pre' b (post' ++ a :: post) (by rw [hacts, hpre, List.append_assoc, List.cons_append])

/-- A property that an action of kind `p` brings about and each other one can only keep, without a
change of `view`: it holds by an action of that kind, since which the view is the same. -/
theorem since {J : σ → Prop} {p : α → Prop} {view : σ → β} (hstart : ¬J s₀)
    (hstep : ∀ s a, ok s a → J (step s a) → view (step s a) = view s ∧ (p a ∨ J s))
    (h : Meets step s₀ ok acts) (hJ : J (after step s₀ acts)) : Since step s₀ p view acts := by
  induction acts using List.reverseRecOn with
  | nil => exact absurd hJ hstart
  | append_singleton acts a ih =>
    obtain ⟨hbefore, hok⟩ := h.of_concat
    rw [after_concat] at hJ
    obtain ⟨hview, hp | hold⟩ := hstep _ a hok hJ
    · refine ⟨acts, a, [], rfl, hp, fun mid hmid => ?_⟩
      rw [List.prefix_nil.mp hmid, after_concat]
      exact hview
    · obtain ⟨pre, b, post, hacts, hp, hkept⟩ := ih hbefore hold
      refine ⟨pre, b, post ++ [a], ?_, hp, fun mid hmid => ?_⟩
      · rw [hacts, List.append_assoc, List.cons_append]
      · rcases List.prefix_concat_iff.mp hmid with rfl | hmid
        · have hlast : pre ++ b :: (post ++ [a]) = acts ++ [a] := by
            rw [hacts, List.append_assoc, List.cons_append]
          rw [hlast, after_concat, hview, hacts]
          exact hkept post (List.prefix_refl post)
        · exact hkept mid hmid

/-- An action of another kind has not changed the view. -/
theorem Since.view_eq {p : α → Prop} {view : σ → β} (h : Since step s₀ p view (acts ++ [a])) (ha : ¬p a) :
    view (after step s₀ (acts ++ [a])) = view (after step s₀ acts) := by
  obtain ⟨pre, b, post, hacts, hp, hkept⟩ := h
  rcases concat_eq_append_cons hacts with ⟨-, rfl, -⟩ | ⟨rest, rfl, rfl⟩
  · exact absurd hp ha
  · rw [hacts, hkept (rest ++ [a]) (List.prefix_refl _), hkept rest (List.prefix_append rest [a])]

end Machine
