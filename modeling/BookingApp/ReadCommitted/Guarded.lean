import BookingApp.ReadCommitted.Adequacy

/-!
# Commits that nobody stands in the way of

Code may commit a change without the locks that protect what it changes. In a run in which
no other client holds these locks at that moment (`Sys.Unhindered`), it does what the code
would do that takes them and then commits, with nothing in between (`Code.guarded`). What
holds in every run of the guarded code holds in these runs of the code as it is
(`Uncontended.invariant`).
-/

set_option autoImplicit false

namespace ReadCommitted

/-- What a commit is guarded by: the locks that are taken just before it, and its label once they
are held. -/
structure Guard (S : Store) where
  locks : S.Point → S.Db → List S.Lock
  locked : S.Point → S.Point

variable {S : Store} {α β : Type} {G : Guard S}

/-- The conditions ask of a guarded commit what they ask of the commit, and leave it alone where
nothing changes. -/
structure Guard.Fits (G : Guard S) (c : Conditions S) : Prop where
  refl : ∀ p d, c.Stable p d d
  assume : ∀ p d, c.Assume (G.locked p) d ↔ c.Assume p d
  stable : ∀ p d d', c.Stable (G.locked p) d d' → c.Stable p d d'
  fault : ∀ p e, c.Fault (G.locked p) e → c.Fault p e

namespace Code

/-- The code, with its commits guarded. -/
def guarded (G : Guard S) : Code S α → Code S α
  | ret a => .ret a
  | throw e => .throw e
  | ask k => .ask fun a => (k a).guarded G
  | call effect k => .call effect fun d => (k d).guarded G
  | reset k => .reset (k.guarded G)
  | stmt p s k h =>
    let k' := fun d => (k d).guarded G
    let h' := fun e => (h e).guarded G
    match s with
    | .commit => .stmt p (.lock (G.locks p)) (fun _ => .stmt (G.locked p) .commit k' h') h'
    | s => .stmt p s k' h'

theorem guarded_bind (c : Code S α) (f : α → Code S β) :
    (c >>= f).guarded G = c.guarded G >>= fun a => (f a).guarded G := by
  change (c.bind f).guarded G = (c.guarded G).bind fun a => (f a).guarded G
  induction c with
  | ret a => rfl
  | throw e => rfl
  | ask k ih => simp only [Code.bind, guarded, ih]
  | call effect k ih => simp only [Code.bind, guarded, ih]
  | reset k ih => simp only [Code.bind, guarded, ih]
  | stmt p s k h ihk ihh => cases s <;> simp only [Code.bind, guarded, ihk, ihh]

theorem guarded_tryCatch (c : Code S α) (f : S.Err → Code S α) :
    (tryCatch c f).guarded G = tryCatch (c.guarded G) fun e => (f e).guarded G := by
  change (c.tryCatch f).guarded G = (c.guarded G).tryCatch fun e => (f e).guarded G
  induction c with
  | ret a => rfl
  | throw e => rfl
  | ask k ih => simp only [Code.tryCatch, guarded, ih]
  | call effect k ih => simp only [Code.tryCatch, guarded, ih]
  | reset k ih => simp only [Code.tryCatch, guarded, ih]
  | stmt p s k h ihk ihh => cases s <;> simp only [Code.tryCatch, guarded, ihk, ihh]

/-! Code that commits nothing is left as it is. -/

@[simp] theorem guarded_pure (a : α) : (pure a : Code S α).guarded G = pure a := rfl

@[simp] theorem guarded_throw (e : S.Err) : (throw e : Code S α).guarded G = throw e := rfl

@[simp] theorem guarded_select (p : S.Point) (f : S.Db → α) : (select p f).guarded G = select p f := rfl

@[simp] theorem guarded_modify (p : S.Point) (rows : S.Db → List S.Lock)
    (change : S.Db → S.Db → S.Db) (f : S.Db → α) :
    (modify p rows change f).guarded G = modify p rows change f := rfl

@[simp] theorem guarded_ensure (c : Prop) [Decidable c] (e : S.Err) :
    (ensure (S := S) c e).guarded G = ensure c e := by
  unfold ensure
  split <;> rfl

theorem point_guarded (c : Code S α) : (c.guarded G).point = c.point := by
  cases c with
  | stmt p s k h => cases s <;> rfl
  | _ => rfl

end Code

namespace Proto

variable {P : Proto S} {held held' : List S.Lock} {δ : S.Db → S.Db} {d : S.Db}

/-- A change that keeps to the protocol does so with more locks held. -/
theorem Guarantee.weaken {d' : S.Db} (h : P.Guarantee held d d') (hsub : ∀ l ∈ held, l ∈ held') :
    P.Guarantee held' d d' :=
  ⟨h.1, h.2.1, fun l hl => h.2.2 l fun hmem => hl (hsub l hmem)⟩

/-- Code that keeps to the protocol does so with more locks held. -/
theorem wp_holding {c : Code S α} (hsub : ∀ l ∈ held, l ∈ held')
    (h : P.wp c (fun _ _ _ _ => True) (fun _ _ => True) held δ d) :
    P.wp c (fun _ _ _ _ => True) (fun _ _ => True) held' δ d := by
  induction c generalizing held held' δ d with
  | ret a => trivial
  | throw e => trivial
  | ask k ih => exact fun d' r i a => ih a hsub (h d' (r.weaken hsub) i a)
  | call effect k ih =>
    intro d' r i
    obtain ⟨hg, hk⟩ := h d' (r.weaken hsub) i
    exact ⟨hg.weaken hsub, ih _ hsub hk⟩
  | reset k ih => exact fun d' r i => h d' (r.weaken hsub) i
  | stmt p s k hd ihk ihh =>
    intro d' r i
    obtain ⟨hk, he⟩ := h d' (r.weaken hsub) i
    refine ⟨fun ha => ?_, fun e hf => ihh e hsub (he e hf)⟩
    have hmore : ∀ ls : List S.Lock, ∀ l ∈ held ++ ls, l ∈ held' ++ ls := by
      intro ls l hl
      rcases List.mem_append.mp hl with hl | hl
      · exact List.mem_append_left _ (hsub l hl)
      · exact List.mem_append_right _ hl
    cases s with
    | read => exact ihk _ hsub (hk ha)
    | lock rows => exact ihk _ (hmore _) (hk ha)
    | write rows change => exact ihk _ (hmore _) (hk ha)
    | commit => exact fun hl => ⟨(hk ha hl).1.weaken hsub, (hk ha hl).2⟩

/-- A commit that is guarded sees no more interference than the commit. -/
theorem Rely.unlocked (hfits : G.Fits P.toConditions) {p : S.Point} {d' : S.Db}
    (r : P.Rely (G.locked p) held d d') : P.Rely p held d d' :=
  Relation.ReflTransGen.mono (fun x y (h : P.Interference (G.locked p) held x y) =>
    ⟨h.1, hfits.stable p x y h.2.1, h.2.2⟩) _ _ r

/-- Code that keeps to the protocol does so when it is guarded. -/
theorem wp_guarded (hfits : G.Fits P.toConditions) {c : Code S α}
    (h : P.wp c (fun _ _ _ _ => True) (fun _ _ => True) held δ d) :
    P.wp (c.guarded G) (fun _ _ _ _ => True) (fun _ _ => True) held δ d := by
  induction c generalizing held δ d with
  | ret a => trivial
  | throw e => trivial
  | ask k ih => exact fun d' r i a => ih a (h d' r i a)
  | call effect k ih => exact fun d' r i => ⟨(h d' r i).1, ih _ (h d' r i).2⟩
  | reset k ih => exact fun d' r i => ih (h d' r i)
  | stmt p s k hd ihk ihh =>
    cases s with
    | commit =>
      intro d₁ r₁ i₁
      refine ⟨fun _ d₂ r₂ i₂ => ?_, fun e he => ihh e ((h d₁ r₁ i₁).2 e he)⟩
      have hsub : ∀ l ∈ held, l ∈ held ++ G.locks p (δ d₁) := fun l hl => List.mem_append_left _ hl
      obtain ⟨hk, he⟩ := h d₂ (r₁.trans ((r₂.unlocked hfits).weaken hsub)) i₂
      refine ⟨fun ha hl => ?_, fun e hf => wp_holding hsub (ihh e (he e (hfits.fault p e hf)))⟩
      have hdone := hk ((hfits.assume p d₂).mp ha) hl
      exact ⟨hdone.1.weaken hsub, ihk _ hdone.2⟩
    | _ =>
      intro d' r i
      obtain ⟨hk, he⟩ := h d' r i
      exact ⟨fun ha => ihk _ (hk ha), fun e hf => ihh e (he e hf)⟩

theorem Safe.guarded (hfits : G.Fits P.toConditions) {c : Code S Unit} (h : P.Safe c) :
    P.Safe (c.guarded G) :=
  fun d hd => wp_guarded hfits (h d hd)

/-- Where a body has to end whose commit is guarded: the change follows the protocol once the locks
are held. -/
def CommitsGuarded (P : Proto S) (G : Guard S) (p : S.Point)
    (Q : α → List S.Lock → (S.Db → S.Db) → S.Db → Prop) :
    α → List S.Lock → (S.Db → S.Db) → S.Db → Prop :=
  fun a held δ d => ∀ d', P.Rely p held d d' → P.Inv d' → P.Assume p d' → S.legal (δ d') = true →
    P.Guarantee (held ++ G.locks p (δ d')) d' (δ d') ∧ Q a [] id (δ d')

/-- Once it is locked nothing comes before the commit. -/
theorem wp_guardedCommit (hfits : G.Fits P.toConditions) {p : S.Point}
    (hstill : ∀ x y, P.Stable (G.locked p) x y → y = x) {a : α}
    {Q : α → List S.Lock → (S.Db → S.Db) → S.Db → Prop} {R : S.Err → S.Db → Prop}
    (hR : ∀ e x, P.Fault p e → R e x) (h : P.CommitsGuarded G p Q a held δ d) :
    P.wp ((statement p .commit fun _ => a : Code S α).guarded G) Q R held δ d := by
  intro d₁ r₁ i₁
  refine ⟨fun ha d₂ r₂ i₂ => ?_, fun e he => hR e d₁ he⟩
  obtain rfl : d₂ = d₁ := r₂.lift (T := fun x y => y = x) (fun _ => rfl) (fun _ _ _ h₁ h₂ => h₂.trans h₁)
    fun x y hstep => hstill x y hstep.2.1
  exact ⟨fun _ hl => h d₂ r₁ i₁ ha hl, fun e he => hR e d₂ (hfits.fault p e he)⟩

end Proto

/-- A client with its code guarded. -/
def Thread.guarded (G : Guard S) (t : Thread S) : Thread S :=
  { t with code := t.code.guarded G }

namespace Sys

/-- Every client with its code guarded. -/
def guarded (G : Guard S) (s : Sys S) : Sys S :=
  { s with threads := s.threads.map (Thread.guarded G) }

/-- If the next statement is a commit, no other client holds the locks that guard it. -/
def Unhindered (G : Guard S) (s : Sys S) : Action S → Prop
  | .run i => ∀ t ∈ s.threads[i]?, match t.code with
    | .stmt p .commit _ _ => s.free i (G.locks p (t.delta s.db)) = true
    | _ => True
  | _ => True

/-- The runs of `ops` under `c` in which no commit is hindered. -/
inductive Uncontended (G : Guard S) (ops : Code S Unit → Prop)
    (c : Conditions S) (s₀ : Sys S) : Sys S → Prop where
  | refl : Uncontended G ops c s₀ s₀
  | step {s s' : Sys S} (a : Action S) (hs : Uncontended G ops c s₀ s) (hstart : Starts ops a)
      (hstep : s.step a = some s') (hallowed : Allowed c s a s') (hfree : s.Unhindered G a) :
      Uncontended G ops c s₀ s'

/-- The guarded code of `ops`. -/
def Guarded (G : Guard S) (ops : Code S Unit → Prop) : Code S Unit → Prop :=
  fun c => ∃ c₀, ops c₀ ∧ c = c₀.guarded G

variable {s s' : Sys S} {i : Nat} {t : Thread S} {ops : Code S Unit → Prop} {c : Conditions S}

theorem getElem?_guarded : (s.guarded G).threads[i]? = s.threads[i]?.map (Thread.guarded G) :=
  List.getElem?_map

theorem pointOf_guarded : (s.guarded G).pointOf i = s.pointOf i := by
  rw [pointOf, pointOf, getElem?_guarded]
  cases s.threads[i]? with
  | none => rfl
  | some t => exact Code.point_guarded t.code

theorem free_guarded (ls : List S.Lock) : (s.guarded G).free i ls = s.free i ls := by
  unfold free
  simp only [getElem?_guarded, Option.map_map]
  rw [guarded, List.length_map]
  rfl

theorem guarded_setThread : (s.setThread i t).guarded G = (s.guarded G).setThread i (t.guarded G) := by
  simp only [guarded, setThread, List.map_set]

theorem allowed_guarded {a : Action S} (h : Allowed c s a s') :
    Allowed c (s.guarded G) a (s'.guarded G) := by
  cases a with
  | run i =>
    simp only [Allowed, pointOf_guarded]
    exact h
  | fail i e =>
    simp only [Allowed, pointOf_guarded]
    exact h
  | _ => trivial

/-- A statement that is no commit is left as it is. -/
theorem run_guarded (hcommit : ∀ p k h, t.code ≠ .stmt p .commit k h) (hrun : s.run i t = some s') :
    (s.guarded G).run i (t.guarded G) = some (s'.guarded G) := by
  obtain ⟨code, held, δ⟩ := t
  cases code with
  | ret a => cases hrun
  | throw e => cases hrun
  | ask k => cases hrun
  | call effect k =>
    cases hrun
    simp only [guarded, List.map_set]
    rfl
  | reset k =>
    cases hrun
    rw [guarded_setThread]
    rfl
  | stmt p st k h =>
    cases st with
    | read =>
      cases hrun
      rw [guarded_setThread]
      rfl
    | lock rows =>
      simp only [run, Option.ite_none_right_eq_some, Option.some.injEq] at hrun
      obtain ⟨hfree, rfl⟩ := hrun
      rw [guarded_setThread]
      exact if_pos ((free_guarded _).trans hfree)
    | write rows change =>
      simp only [run, Option.ite_none_right_eq_some, Option.some.injEq] at hrun
      obtain ⟨hfree, rfl⟩ := hrun
      rw [guarded_setThread]
      exact if_pos ((free_guarded _).trans hfree)
    | commit => exact absurd rfl (hcommit p k h)

/-- A commit that is not hindered is the taking of its locks, and then the commit. -/
theorem Reach.commit_guarded {s₀ : Sys S} (hfits : G.Fits c) {p : S.Point}
    {k : S.Db → Code S Unit} {h : S.Err → Code S Unit}
    (hs : Reach (Guarded G ops) c s₀ (s.guarded G)) (hi : s.threads[i]? = some t)
    (hcode : t.code = .stmt p .commit k h) (hrun : s.run i t = some s')
    (hallowed : Allowed c s (.run i) s') (hfree : s.free i (G.locks p (t.delta s.db)) = true) :
    Reach (Guarded G ops) c s₀ (s'.guarded G) := by
  obtain ⟨code, held, δ⟩ := t
  obtain rfl : code = _ := hcode
  simp only [run, Option.ite_none_right_eq_some, Option.some.injEq] at hrun
  obtain ⟨hlegal, rfl⟩ := hrun
  have hpoint : s.pointOf i = p := by simp [pointOf, hi, Code.point]
  obtain ⟨hassume, hstable⟩ := hallowed
  rw [hpoint] at hassume
  -- the client holds the locks, and stands at the commit
  let t' : Thread S := {
    code := .stmt (G.locked p) .commit (fun d => (k d).guarded G) fun e => (h e).guarded G
    held := held ++ G.locks p (δ s.db), delta := δ }
  let m : Sys S := (s.guarded G).setThread i t'
  have hlt : i < (s.guarded G).threads.length := by
    have hi' := (List.getElem?_eq_some_iff.mp hi).1
    simpa [guarded] using hi'
  have hm : m.threads[i]? = some t' := List.getElem?_set_self hlt
  have hother : ∀ j, j ≠ i → m.pointOf j = s.pointOf j := by
    intro j hne
    have hset : m.pointOf j = (s.guarded G).pointOf j := by
      simp only [pointOf, m, setThread, List.getElem?_set_ne hne.symm]
    exact hset.trans pointOf_guarded
  have hlock : Reach (Guarded G ops) c s₀ m := by
    refine hs.step (.run i) trivial ?_ ⟨?_, fun j _ => hfits.refl _ _⟩
    · rw [Sys.step, getElem?_guarded, hi]
      exact if_pos ((free_guarded _).trans hfree)
    · rw [pointOf_guarded, hpoint]
      exact hassume
  refine hlock.step (.run i) trivial ?_ ⟨?_, fun j hne => ?_⟩
  · rw [Sys.step, hm]
    refine (if_pos hlegal).trans ?_
    simp only [m, setThread, guarded, List.set_set, List.map_set]
    rfl
  · have hself : m.pointOf i = G.locked p := by simp [pointOf, hm, t', Code.point]
    rw [hself]
    exact (hfits.assume p s.db).mpr hassume
  · rw [hother j hne]
    exact hstable j hne

/-- One action that is not hindered. -/
theorem Reach.step_guarded {s₀ : Sys S} (hfits : G.Fits c) {a : Action S}
    (hs : Reach (Guarded G ops) c s₀ (s.guarded G)) (hstart : Starts ops a)
    (hstep : s.step a = some s') (hallowed : Allowed c s a s') (hfree : s.Unhindered G a) :
    Reach (Guarded G ops) c s₀ (s'.guarded G) := by
  cases a with
  | start code =>
    cases hstep
    refine hs.step (.start (code.guarded G)) ⟨code, hstart, rfl⟩ ?_ trivial
    simp [Sys.step, guarded, Thread.guarded]
  | run i =>
    obtain ⟨t, hi, hrun⟩ := Option.bind_eq_some_iff.mp hstep
    by_cases hcommit : ∃ p k h, t.code = .stmt p .commit k h
    · obtain ⟨p, k, h, hcode⟩ := hcommit
      have hfree' := hfree t hi
      simp only [hcode] at hfree'
      exact hs.commit_guarded hfits hi hcode hrun hallowed hfree'
    · refine hs.step (.run i) trivial ?_ (allowed_guarded hallowed)
      rw [Sys.step, getElem?_guarded, hi]
      exact run_guarded (fun p k h hcode => hcommit ⟨p, k, h, hcode⟩) hrun
  | answer i a =>
    obtain ⟨⟨code, held, δ⟩, hi, hstep⟩ := Option.bind_eq_some_iff.mp hstep
    cases code with
    | ask k =>
      cases hstep
      refine hs.step (.answer i a) trivial ?_ trivial
      rw [Sys.step, getElem?_guarded, hi, guarded_setThread]
      rfl
    | _ => cases hstep
  | fail i e =>
    obtain ⟨⟨code, held, δ⟩, hi, hstep⟩ := Option.bind_eq_some_iff.mp hstep
    cases code with
    | stmt p st k h =>
      cases hstep
      refine hs.step (.fail i e) trivial ?_ (allowed_guarded hallowed)
      rw [Sys.step, getElem?_guarded, hi, guarded_setThread]
      cases st <;> rfl
    | _ => cases hstep
  | crash i =>
    obtain ⟨t, hi, rfl⟩ := Option.map_eq_some_iff.mp hstep
    refine hs.step (.crash i) trivial ?_ trivial
    rw [Sys.step, getElem?_guarded, hi, guarded_setThread]
    rfl

/-- A run in which no commit is hindered is one of the guarded code. -/
theorem Uncontended.guarded (hfits : G.Fits c) {d : S.Db}
    (h : Uncontended G ops c { db := d } s) :
    Reach (Guarded G ops) c { db := d } (s.guarded G) := by
  induction h with
  | refl => exact .refl
  | step a _ hstart hstep hallowed hfree ih => exact ih.step_guarded hfits hstart hstep hallowed hfree

/-- What every action keeps holds of every state that is reached without hindrance, if the guarded
code is safe. -/
theorem Uncontended.invariant {P : Proto S} (hfits : G.Fits P.toConditions)
    (hops : ∀ c, ops c → P.Safe (c.guarded G)) {d : S.Db} (hd : P.Inv d)
    (h : Uncontended G ops P.toConditions { db := d } s) : P.Inv s.db := by
  refine (Reach.invariant (I := fun _ => True) ?_ (fun _ _ _ _ _ _ => trivial) hd trivial
    (h.guarded hfits)).1
  rintro c ⟨c₀, hc₀, rfl⟩
  exact hops c₀ hc₀

/-- Whether no commit is hindered by the next action. -/
def unhindered (G : Guard S) (s : Sys S) : Action S → Bool
  | .run i => s.threads[i]?.all fun t => match t.code with
    | .stmt p .commit _ _ => s.free i (G.locks p (t.delta s.db))
    | _ => true
  | _ => true

/-- A whole schedule, as far as it is allowed and no commit is hindered. -/
def execUnhindered (G : Guard S) (c : Conditions S) [c.Checkable] (s : Sys S) :
    List (Action S) → Option (Sys S)
  | [] => some s
  | a :: as => (s.step a).bind fun s' =>
    if allowed c s a s' && s.unhindered G a then s'.execUnhindered G c as else none

theorem unhindered_iff {a : Action S} (h : s.unhindered G a = true) : s.Unhindered G a := by
  cases a with
  | run i =>
    intro t ht
    rw [unhindered, ht, Option.all_some] at h
    split at h <;> simp_all
  | _ => trivial

theorem Uncontended.exec [c.Checkable] (hidle : ∀ d d', c.Stable S.idle d d') {s₀ : Sys S}
    {as : List (Action S)} (hs : Uncontended G ops c s₀ s) (hops : ∀ a ∈ as, Starts ops a)
    (h : s.execUnhindered G c as = some s') : Uncontended G ops c s₀ s' := by
  induction as generalizing s with
  | nil => cases h; exact hs
  | cons a as ih =>
    obtain ⟨t, ht, h⟩ := Option.bind_eq_some_iff.mp h
    split at h
    · obtain ⟨hallowed, hfree⟩ := Bool.and_eq_true_iff.mp ‹_›
      refine ih (hs.step a (hops a (by simp)) ht (allowed_iff hidle hallowed) (unhindered_iff hfree))
        (fun b hb => ?_) h
      exact hops b (by simp [hb])
    · cases h

end Sys

end ReadCommitted
