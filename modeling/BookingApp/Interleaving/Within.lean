import BookingApp.Interleaving.Logic

/-!
# A world inside another one

The programs of a world run in a larger one, on the part of its state that they know.
What their clients' roles become there is worked out role by role, so that the larger
world may know more of where a client stands than the programs say themselves.
-/

set_option autoImplicit false

namespace Interleaving

/-- How `V` contains `W`: where the state is found and put back, what an error is there, and what
role follows in `V` when a client in some role of `V` takes on one of `W`. -/
structure Part (W V : World) where
  get : V.State → W.State
  put : W.State → V.State → V.State
  err : W.Err → V.Err
  next : V.Role → W.Role → V.Role

variable {W V : World} {α β : Type}

namespace Prog

/-- The program of a client in the role `r`, in the larger world. -/
def within (p : Part W V) : V.Role → Prog W α → Prog V α
  | _, ret a => .ret a
  | _, throw e => .throw (p.err e)
  | r, act effect role k =>
    .act (fun σ => p.put (effect (p.get σ)) σ)
      (fun σ => if (k (p.get σ)).ended then V.idle else p.next r (role (p.get σ)))
      fun σ => (k (p.get σ)).within p (p.next r (role (p.get σ)))

/-- Each command of the program does what `D` lets a client in its role do, and the program ends in
`Q`. -/
def Does (p : Part W V) (D : V.Role → W.State → W.State → Prop) :
    Prog W α → (α → V.Role → Prop) → V.Role → Prop
  | ret a, Q, r => Q a r
  | throw _, _, _ => True
  | act effect role k, Q, r => ∀ σ, D r σ (effect σ) ∧ (k σ).Does p D Q (p.next r (role σ))

variable {p : Part W V} {D : V.Role → W.State → W.State → Prop} {r : V.Role}

theorem does_bind {c : Prog W β} {f : β → Prog W α} {Q : α → V.Role → Prop} :
    (c >>= f).Does p D Q r ↔ c.Does p D (fun b r => (f b).Does p D Q r) r := by
  change (c.bind f).Does p D Q r ↔ _
  induction c generalizing r with
  | ret a => exact Iff.rfl
  | throw e => exact Iff.rfl
  | act effect role k ih => simp only [Prog.bind, Does, ih]

theorem does_map {g : β → α} {c : Prog W β} {Q : α → V.Role → Prop} :
    (g <$> c).Does p D Q r ↔ c.Does p D (fun b r => Q (g b) r) r :=
  does_bind

/-- Consequence: weaker endings of the same program. -/
theorem does_mono {c : Prog W α} {Q Q' : α → V.Role → Prop} (h : c.Does p D Q r)
    (hQ : ∀ a r, Q a r → Q' a r) : c.Does p D Q' r := by
  induction c generalizing r with
  | ret a => exact hQ a r h
  | throw e => trivial
  | act effect role k ih =>
    intro σ
    obtain ⟨hD, hk⟩ := h σ
    exact ⟨hD, ih σ hk⟩

theorem does_commandAs {role : W.State → W.Role} {effect : W.State → W.State} {f : W.State → α}
    {Q : α → V.Role → Prop} (h : ∀ σ, D r σ (effect σ) ∧ Q (f σ) (p.next r (role σ))) :
    (commandAs role effect f).Does p D Q r :=
  h

end Prog

/-- Where what the program does is an act of a protocol of the larger world, the program is safe
there. -/
theorem Proto.wp_within {P : Proto V} {p : Part W V} {D : V.Role → W.State → W.State → Prop}
    (hD : ∀ r r' σ w, D r (p.get σ) w → P.Act r r' σ (p.put w σ)) {c : Prog W α}
    {Q : α → V.Role → Prop} {r : V.Role} (hc : c.Does p D Q r) (hend : c.ended = true → r = V.idle)
    {σ : V.State} : P.wp (c.within p r) (fun _ r _ => r = V.idle) r σ := by
  suffices h : ∀ s, (c.ended = true → s = V.idle) → (c.ended = false → s = r) →
      P.wp (c.within p r) (fun _ r _ => r = V.idle) s σ by
    by_cases hended : c.ended = true
    · exact h r hend (by simp [hended])
    · exact h r hend fun _ => rfl
  clear hend
  induction c generalizing r σ with
  | ret a => exact fun s hidle _ => hidle rfl
  | throw e => exact fun s hidle _ => hidle rfl
  | act effect role k ih =>
    intro s _ hrole
    obtain rfl := hrole rfl
    intro σ' _ R _ _
    obtain ⟨hact, hk⟩ := hc (p.get σ')
    refine ⟨hD _ _ _ _ hact, ih (p.get σ') hk _ ?_ ?_⟩
    · exact fun hended => if_pos hended
    · exact fun hnot => if_neg (by simp [hnot])

end Interleaving
