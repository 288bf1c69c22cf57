import Mathlib.Logic.Relation
import BookingApp.ReadCommitted.System

/-!
# Reasoning about one client at a time

A protocol (`Proto`) says what one committed change may do (`Act`) and what the
holder of a lock can count on (`Same`). `Proto.wp` is the weakest precondition of
one client's code: between any two of its statements the other clients commit any
number of changes that the protocol allows and the held locks permit (`Rely`).
`Reach.induct` (module `Adequacy`) turns it into a statement about whole systems.
-/

set_option autoImplicit false

namespace ReadCommitted

/-- The rules the clients of a store follow, under the conditions on the run: what every
committed state satisfies (`Inv`), what one change does (`Act`), and what the holder of a
lock can count on (`Same`). -/
structure Proto (S : Store) extends Conditions S where
  Inv : S.Db → Prop
  Act : S.Db → S.Db → Prop
  Same : S.Lock → S.Db → S.Db → Prop
  same_refl : ∀ l d, Same l d d
  same_trans : ∀ {l d₁ d₂ d₃}, Same l d₁ d₂ → Same l d₂ d₃ → Same l d₁ d₃

namespace Proto

variable {S : Store} (P : Proto S)

/-- One change by another client, while this one stands at `p` and holds `held`. -/
def Interference (p : S.Point) (held : List S.Lock) (d d' : S.Db) : Prop :=
  P.Act d d' ∧ P.Stable p d d' ∧ ∀ l ∈ held, P.Same l d d'

/-- What happens between two statements of a client that holds `held`. -/
def Rely (p : S.Point) (held : List S.Lock) : S.Db → S.Db → Prop :=
  Relation.ReflTransGen (P.Interference p held)

/-- What happens while a client runs several statements and holds `held` throughout. -/
def Elapse (held : List S.Lock) : S.Db → S.Db → Prop :=
  Relation.ReflTransGen fun d d' => P.Act d d' ∧ ∀ l ∈ held, P.Same l d d'

/-- What a client that holds `held` has to show of a change it makes. -/
def Guarantee (held : List S.Lock) (d d' : S.Db) : Prop :=
  P.Act d d' ∧ P.Inv d' ∧ ∀ l ∉ held, P.Same l d d'

variable {α β : Type}

/-- The weakest precondition: run from the committed state `d` by a client that holds
`held` and has written `δ`, the code keeps to the protocol, ends in `Q`, and fails only in `R`. -/
def wp : Code S α → (α → List S.Lock → (S.Db → S.Db) → S.Db → Prop) → (S.Err → S.Db → Prop) →
    List S.Lock → (S.Db → S.Db) → S.Db → Prop
  | .ret a, Q, _, held, δ, d => Q a held δ d
  | .throw e, _, R, _, _, d => R e d
  | .ask k, Q, R, held, δ, d =>
    ∀ d', P.Rely S.idle held d d' → P.Inv d' → ∀ a, wp (k a) Q R held δ d'
  | .call effect k, Q, R, held, δ, d =>
    ∀ d', P.Rely S.idle held d d' → P.Inv d' →
      P.Guarantee held d' (effect d') ∧ wp (k d') Q R held δ (effect d')
  | .reset k, Q, R, held, _, d =>
    ∀ d', P.Rely S.idle held d d' → P.Inv d' → wp k Q R [] id d'
  | .stmt p s k h, Q, R, held, δ, d =>
    ∀ d', P.Rely p held d d' → P.Inv d' →
      (P.Assume p d' → match s with
        | .read => wp (k (δ d')) Q R held δ d'
        | .lock rows => wp (k (δ d')) Q R (held ++ rows (δ d')) δ d'
        | .write rows change =>
          wp (k (δ d')) Q R (held ++ rows (δ d')) (fun x => change (δ d') (δ x)) d'
        | .commit => S.legal (δ d') = true →
          P.Guarantee held d' (δ d') ∧ wp (k (δ d')) Q R [] id (δ d')) ∧
      ∀ e, P.Fault p e → wp (h e) Q R held δ d'

/-- Where the body of a transaction has to end: its commit, labelled by `p`, follows the protocol
and leads to `Q`. -/
def CommitsBy (p : α → S.Point) (Q : α → List S.Lock → (S.Db → S.Db) → S.Db → Prop) :
    α → List S.Lock → (S.Db → S.Db) → S.Db → Prop :=
  fun a held δ d => ∀ d', P.Rely (p a) held d d' → P.Inv d' → P.Assume (p a) d' →
    S.legal (δ d') = true → P.Guarantee held d' (δ d') ∧ Q a [] id (δ d')

/-- `CommitsBy` for a commit that has the same label whatever the body ends in. -/
def Commits (p : S.Point) (Q : α → List S.Lock → (S.Db → S.Db) → S.Db → Prop) :
    α → List S.Lock → (S.Db → S.Db) → S.Db → Prop :=
  P.CommitsBy (fun _ => p) Q

/-- Code that any client may run from any committed state. -/
def Safe (c : Code S Unit) : Prop :=
  ∀ d, P.Inv d → P.wp c (fun _ _ _ _ => True) (fun _ _ => True) [] id d

section Rules

variable {P} {p : S.Point} {held : List S.Lock} {δ : S.Db → S.Db} {d : S.Db}
  {Q : α → List S.Lock → (S.Db → S.Db) → S.Db → Prop} {R : S.Err → S.Db → Prop}

theorem Rely.refl : P.Rely p held d d := Relation.ReflTransGen.refl

theorem Rely.trans {d₁ d₂ d₃ : S.Db} (h₁ : P.Rely p held d₁ d₂) (h₂ : P.Rely p held d₂ d₃) :
    P.Rely p held d₁ d₃ :=
  Relation.ReflTransGen.trans h₁ h₂

/-- Interference keeps every preorder that each of its steps keeps. -/
theorem Rely.lift {T : S.Db → S.Db → Prop} {d' : S.Db} (r : P.Rely p held d d')
    (hrefl : ∀ x, T x x) (htrans : ∀ x y z, T x y → T y z → T x z)
    (h : ∀ x y, P.Interference p held x y → T x y) : T d d' := by
  induction r with
  | refl => exact hrefl d
  | tail _ hstep ih => exact htrans _ _ _ ih (h _ _ hstep)

/-- What a held lock covers stays as it is. -/
theorem Rely.same {l : S.Lock} {d' : S.Db} (r : P.Rely p held d d') (hl : l ∈ held) :
    P.Same l d d' :=
  r.lift (P.same_refl l) (fun _ _ _ => P.same_trans) fun _ _ h => h.2.2 l hl

/-- Fewer locks see more interference. -/
theorem Rely.weaken {held' : List S.Lock} {d' : S.Db} (r : P.Rely p held d d')
    (hsub : ∀ l ∈ held', l ∈ held) : P.Rely p held' d d' :=
  Relation.ReflTransGen.mono
    (fun _ _ (h : P.Interference p held _ _) => ⟨h.1, h.2.1, fun l hl => h.2.2 l (hsub l hl)⟩) _ _ r

theorem Rely.elapse {d' : S.Db} (r : P.Rely p held d d') : P.Elapse held d d' :=
  Relation.ReflTransGen.mono (fun _ _ (h : P.Interference p held _ _) => ⟨h.1, h.2.2⟩) _ _ r

theorem Elapse.refl : P.Elapse held d d := Relation.ReflTransGen.refl

theorem Elapse.trans {d₁ d₂ d₃ : S.Db} (h₁ : P.Elapse held d₁ d₂) (h₂ : P.Elapse held d₂ d₃) :
    P.Elapse held d₁ d₃ :=
  Relation.ReflTransGen.trans h₁ h₂

theorem Elapse.weaken {held' : List S.Lock} {d' : S.Db} (r : P.Elapse held d d')
    (hsub : ∀ l ∈ held', l ∈ held) : P.Elapse held' d d' :=
  Relation.ReflTransGen.mono
    (fun _ _ (h : P.Act _ _ ∧ ∀ l ∈ held, P.Same l _ _) => ⟨h.1, fun l hl => h.2 l (hsub l hl)⟩)
    _ _ r

/-- Time passing keeps every preorder that each action keeps. -/
theorem Elapse.lift {T : S.Db → S.Db → Prop} {d' : S.Db} (r : P.Elapse held d d')
    (hrefl : ∀ x, T x x) (htrans : ∀ x y z, T x y → T y z → T x z)
    (h : ∀ x y, P.Act x y → T x y) : T d d' := by
  induction r with
  | refl => exact hrefl d
  | tail _ hstep ih => exact htrans _ _ _ ih (h _ _ hstep.1)

/-- What each action keeps is there at the end of it. -/
theorem Elapse.keeps {J : S.Db → Prop} {d' : S.Db} (r : P.Elapse held d d')
    (hJ : ∀ x y, P.Act x y → J x → J y) (hd : J d) : J d' :=
  r.lift (T := fun x y => J x → J y) (fun _ h => h) (fun _ _ _ h₁ h₂ h => h₂ (h₁ h)) hJ hd

theorem Elapse.same {l : S.Lock} {d' : S.Db} (r : P.Elapse held d d') (hl : l ∈ held) :
    P.Same l d d' := by
  induction r with
  | refl => exact P.same_refl l d
  | tail _ hstep ih => exact P.same_trans ih (hstep.2 l hl)

@[simp] theorem wp_pure (a : α) : P.wp (pure a) Q R held δ d ↔ Q a held δ d := Iff.rfl

@[simp] theorem wp_throw (e : S.Err) : P.wp (throw e : Code S α) Q R held δ d ↔ R e d := Iff.rfl

theorem wp_bind (c : Code S β) (f : β → Code S α) :
    P.wp (c >>= f) Q R held δ d ↔ P.wp c (fun b held δ d => P.wp (f b) Q R held δ d) R held δ d := by
  change P.wp (c.bind f) Q R held δ d ↔ _
  induction c generalizing held δ d with
  | ret a => exact Iff.rfl
  | throw e => exact Iff.rfl
  | ask k ih => simp only [Code.bind, wp, ih]
  | call effect k ih => simp only [Code.bind, wp, ih]
  | reset k ih => simp only [Code.bind, wp, ih]
  | stmt p s k h ihk ihh => cases s <;> simp only [Code.bind, wp, ihk, ihh]

theorem wp_map (g : β → α) (c : Code S β) :
    P.wp (g <$> c) Q R held δ d ↔ P.wp c (fun b held δ d => Q (g b) held δ d) R held δ d :=
  wp_bind c fun b => pure (g b)

/-- Consequence: weaker endings of the same code. -/
theorem wp_mono {Q' : α → List S.Lock → (S.Db → S.Db) → S.Db → Prop} {R' : S.Err → S.Db → Prop}
    {c : Code S α} (h : P.wp c Q R held δ d) (hQ : ∀ a held δ d, Q a held δ d → Q' a held δ d)
    (hR : ∀ e d, R e d → R' e d) : P.wp c Q' R' held δ d := by
  induction c generalizing held δ d with
  | ret a => exact hQ _ _ _ _ h
  | throw e => exact hR _ _ h
  | ask k ih => exact fun d' r hi a => ih a (h d' r hi a)
  | call effect k ih => exact fun d' r hi => ⟨(h d' r hi).1, ih _ (h d' r hi).2⟩
  | reset k ih => exact fun d' r hi => ih (h d' r hi)
  | stmt p s k hd ihk ihh =>
    intro d' r hi
    obtain ⟨hk, hh⟩ := h d' r hi
    refine ⟨fun ha => ?_, fun e he => ihh e (hh e he)⟩
    cases s with
    | read => exact ihk _ (hk ha)
    | lock rows => exact ihk _ (hk ha)
    | write rows change => exact ihk _ (hk ha)
    | commit => exact fun hl => ⟨(hk ha hl).1, ihk _ (hk ha hl).2⟩

/-- An error of the body reaches the handler wherever the body stood. -/
theorem wp_tryCatch {c : Code S α} {f : S.Err → Code S α} {R' : S.Err → S.Db → Prop}
    (hc : P.wp c Q R' held δ d)
    (hf : ∀ e held δ d, R' e d → P.wp (f e) Q R held δ d) :
    P.wp (tryCatch c f) Q R held δ d := by
  change P.wp (c.tryCatch f) Q R held δ d
  induction c generalizing held δ d with
  | ret a => exact hc
  | throw e => exact hf e held δ d hc
  | ask k ih => exact fun d' r hi a => ih a (hc d' r hi a)
  | call effect k ih => exact fun d' r hi => ⟨(hc d' r hi).1, ih _ (hc d' r hi).2⟩
  | reset k ih => exact fun d' r hi => ih (hc d' r hi)
  | stmt p s k h ihk ihh =>
    intro d' r hi
    obtain ⟨hk, hh⟩ := hc d' r hi
    refine ⟨fun ha => ?_, fun e he => ihh e (hh e he)⟩
    cases s with
    | read => exact ihk _ (hk ha)
    | lock rows => exact ihk _ (hk ha)
    | write rows change => exact ihk _ (hk ha)
    | commit => exact fun hl => ⟨(hk ha hl).1, ihk _ (hk ha hl).2⟩

theorem wp_select {f : S.Db → α} (hR : ∀ e d, P.Fault p e → R e d)
    (h : ∀ d', P.Rely p held d d' → P.Inv d' → P.Assume p d' → Q (f (δ d')) held δ d') :
    P.wp (select p f) Q R held δ d :=
  fun d' r hi => ⟨h d' r hi, fun e he => hR e d' he⟩

theorem wp_selectForUpdate {rows : S.Db → List S.Lock} {f : S.Db → α}
    (hR : ∀ e d, P.Fault p e → R e d)
    (h : ∀ d', P.Rely p held d d' → P.Inv d' → P.Assume p d' → Q (f (δ d')) (held ++ rows (δ d')) δ d') :
    P.wp (selectForUpdate p rows f) Q R held δ d :=
  fun d' r hi => ⟨h d' r hi, fun e he => hR e d' he⟩

theorem wp_modify {rows : S.Db → List S.Lock} {change : S.Db → S.Db → S.Db} {f : S.Db → α}
    (hR : ∀ e d, P.Fault p e → R e d)
    (h : ∀ d', P.Rely p held d d' → P.Inv d' → P.Assume p d' →
      Q (f (δ d')) (held ++ rows (δ d')) (fun x => change (δ d') (δ x)) d') :
    P.wp (modify p rows change f) Q R held δ d :=
  fun d' r hi => ⟨h d' r hi, fun e he => hR e d' he⟩

theorem wp_answer {Q : S.Answer → List S.Lock → (S.Db → S.Db) → S.Db → Prop}
    (h : ∀ d', P.Rely S.idle held d d' → P.Inv d' → ∀ a, Q a held δ d') : P.wp answer Q R held δ d :=
  h

theorem wp_ensure {c : Prop} [Decidable c] {e : S.Err}
    {Q : Unit → List S.Lock → (S.Db → S.Db) → S.Db → Prop}
    (ht : c → Q () held δ d) (hf : ¬c → R e d) : P.wp (ensure c e) Q R held δ d := by
  unfold ensure
  split
  · exact ht ‹_›
  · exact hf ‹_›

/-- A call: the world outside changes at once, and the change is shown to follow the protocol. -/
theorem wp_call {effect : S.Db → S.Db} {Q : S.Db → List S.Lock → (S.Db → S.Db) → S.Db → Prop}
    (h : ∀ d', P.Rely S.idle held d d' → P.Inv d' →
      P.Guarantee held d' (effect d') ∧ Q d' held δ (effect d')) :
    P.wp (.call effect .ret) Q R held δ d :=
  h

/-- A transaction: its body ends at the commit, where the whole change is shown to follow
the protocol. An error undoes everything, so it is reported from whatever holds later. -/
theorem wp_transactionBy {label : α → S.Point} {body : Code S α}
    (hR : ∀ a e d, P.Fault (label a) e → R e d)
    (hstable : ∀ e d d', R e d → P.Rely S.idle [] d d' → R e d')
    (h : ∀ d', P.Rely S.idle [] d d' → P.Inv d' → P.wp body (P.CommitsBy label Q) R [] id d') :
    P.wp (transactionBy label body) Q R held δ d := by
  intro d₁ r₁ i₁
  refine wp_tryCatch ?_ fun e held δ d (he : R e d) d' r _ => ?_
  · refine (wp_bind _ _).mpr (wp_mono (h d₁ (r₁.weaken (by simp)) i₁)
      (fun a held δ d hc d' r hi => ?_) fun _ _ he => he)
    exact ⟨hc d' r hi, fun e he => hR a e d' he⟩
  · exact hstable e d d' he (r.weaken (by simp))

theorem wp_transaction {body : Code S α} (hR : ∀ e d, P.Fault p e → R e d)
    (hstable : ∀ e d d', R e d → P.Rely S.idle [] d d' → R e d')
    (h : ∀ d', P.Rely S.idle [] d d' → P.Inv d' → P.wp body (P.Commits p Q) R [] id d') :
    P.wp (transaction p body) Q R held δ d :=
  wp_transactionBy (fun _ => hR) hstable h

/-- What every action keeps holds at the end of the code, and wherever it fails. -/
theorem wp_frame {J : S.Db → Prop} (hJ : ∀ d d', P.Act d d' → J d → J d') {c : Code S α} (hd : J d)
    (h : P.wp c Q R held δ d) :
    P.wp c (fun a held δ d => Q a held δ d ∧ J d) (fun e d => R e d ∧ J d) held δ d := by
  have hrely : ∀ {p : S.Point} {held : List S.Lock} {d d' : S.Db}, P.Rely p held d d' → J d → J d' :=
    fun r => r.lift (fun _ h => h) (fun _ _ _ h₁ h₂ h => h₂ (h₁ h)) fun x y h => hJ x y h.1
  induction c generalizing held δ d with
  | ret a => exact ⟨h, hd⟩
  | throw e => exact ⟨h, hd⟩
  | ask k ih => exact fun d' r hi a => ih a (hrely r hd) (h d' r hi a)
  | call effect k ih =>
    intro d' r hi
    obtain ⟨hg, hk⟩ := h d' r hi
    exact ⟨hg, ih _ (hJ _ _ hg.1 (hrely r hd)) hk⟩
  | reset k ih => exact fun d' r hi => ih (hrely r hd) (h d' r hi)
  | stmt p s k hh ihk ihh =>
    intro d' r hi
    obtain ⟨hk, he⟩ := h d' r hi
    have hd' := hrely r hd
    refine ⟨fun ha => ?_, fun e hf => ihh e hd' (he e hf)⟩
    cases s with
    | read => exact ihk _ hd' (hk ha)
    | lock rows => exact ihk _ hd' (hk ha)
    | write rows change => exact ihk _ hd' (hk ha)
    | commit =>
      exact fun hl => ⟨(hk ha hl).1, ihk _ (hJ _ _ (hk ha hl).1.1 hd') (hk ha hl).2⟩

/-- Code that is safe at each attempt, given what every action keeps. An error that is retried is
none of the caller's. -/
theorem wp_withRetry {J : S.Db → Prop} (hJ : ∀ d d', P.Act d d' → J d → J d')
    {retry : S.Err → Bool} {c : Nat → Code S α}
    (hc : ∀ left held δ d, J d →
      P.wp (c left) Q (fun e d => (0 < left ∧ retry e = true) ∨ R e d) held δ d)
    (left : Nat) (hd : J d) : P.wp (withRetry retry left c) Q R held δ d := by
  induction left generalizing held δ d with
  | zero =>
    refine wp_mono (hc 0 held δ d hd) (fun _ _ _ _ h => h) fun e d he => ?_
    rcases he with ⟨hlt, _⟩ | he
    · exact absurd hlt (Nat.lt_irrefl 0)
    · exact he
  | succ left ih =>
    refine wp_tryCatch (wp_mono (wp_frame hJ hd (hc (left + 1) held δ d hd))
      (fun _ _ _ _ h => h.1) fun _ _ h => h) fun e held δ d he => ?_
    obtain ⟨he, hd⟩ := he
    split
    · exact ih hd
    · rcases he with ⟨_, he⟩ | he
      · exact absurd he ‹_›
      · exact he

end Rules

end Proto

end ReadCommitted
