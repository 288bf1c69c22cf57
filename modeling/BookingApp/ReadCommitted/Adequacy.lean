import BookingApp.ReadCommitted.Logic

/-!
# From one client to the whole system

If every piece of code a client may start is safe for a protocol, then in every
run the locks exclude each other (`Good`) and the committed state changes only by
the protocol's actions (`Reach.induct`). An invariant of the actions is therefore
an invariant of every interleaving (`Reach.invariant`).
-/

set_option autoImplicit false

namespace ReadCommitted

variable {S : Store} {P : Proto S}

namespace Proto

/-- The client `t` keeps to the protocol, whatever it does next. -/
def SafeThread (P : Proto S) (t : Thread S) (d : S.Db) : Prop :=
  P.wp t.code (fun _ _ _ _ => True) (fun _ _ => True) t.held t.delta d

/-- Each client is safe where it stands, the committed state satisfies the invariant, and no
lock has two holders. -/
structure Good (P : Proto S) (s : Sys S) : Prop where
  inv : P.Inv s.db
  safe : ∀ (i : Nat) (t : Thread S), s.threads[i]? = some t → P.SafeThread t s.db
  excl : ∀ (i j : Nat) (t u : Thread S), i ≠ j → s.threads[i]? = some t →
    s.threads[j]? = some u → ∀ l ∈ t.held, l ∉ u.held

/-- A client stays safe under the interference its statement and its locks allow. -/
theorem SafeThread.interference {t : Thread S} {d d' : S.Db} (h : P.SafeThread t d)
    (hi : P.Interference t.code.point t.held d d') : P.SafeThread t d' := by
  obtain ⟨c, held, δ⟩ := t
  cases c with
  | ret a => trivial
  | throw e => trivial
  | ask k => exact fun d'' r => h d'' (.head hi r)
  | call effect k => exact fun d'' r => h d'' (.head hi r)
  | reset k => exact fun d'' r => h d'' (.head hi r)
  | stmt p s k hd => exact fun d'' r => h d'' (.head hi r)

variable {s : Sys S} {i : Nat} {t u : Thread S}

/-- Client `i` becomes `t`, while the committed state becomes `d'`. -/
theorem Good.set (hs : P.Good s) (d' : S.Db) (hinv : P.Inv d') (hsafe : P.SafeThread t d')
    (hothers : ∀ j u, j ≠ i → s.threads[j]? = some u → P.SafeThread u d')
    (hexcl : ∀ j u, j ≠ i → s.threads[j]? = some u → ∀ l ∈ t.held, l ∉ u.held) :
    P.Good { db := d', threads := s.threads.set i t } := by
  have hget : ∀ j u, (s.threads.set i t)[j]? = some u →
      (j = i ∧ u = t) ∨ (j ≠ i ∧ s.threads[j]? = some u) := by
    intro j u hj
    rw [List.getElem?_set] at hj
    grind
  refine ⟨hinv, fun j u hj => ?_, fun j k u w hne hj hk l hl hl' => ?_⟩
  · rcases hget j u hj with ⟨-, rfl⟩ | ⟨hji, hj⟩
    · exact hsafe
    · exact hothers j u hji hj
  · rcases hget j u hj with ⟨hji, hjt⟩ | ⟨hji, hj⟩
    · rcases hget k w hk with ⟨hki, -⟩ | ⟨hki, hk⟩
      · exact hne (hji.trans hki.symm)
      · exact hexcl k w hki hk l (hjt ▸ hl) hl'
    · rcases hget k w hk with ⟨-, hkt⟩ | ⟨-, hk⟩
      · exact hexcl j u hji hj l (hkt ▸ hl') hl
      · exact hs.excl j k u w hne hj hk l hl hl'

/-- Client `i` moves on without a change of the committed state. -/
theorem Good.setThread (hs : P.Good s) (hsafe : P.SafeThread t s.db)
    (hexcl : ∀ j u, j ≠ i → s.threads[j]? = some u → ∀ l ∈ t.held, l ∉ u.held) :
    P.Good (s.setThread i t) :=
  hs.set s.db hs.inv hsafe (fun j u _ hj => hs.safe j u hj) hexcl

/-- Client `i` moves on and gives up locks at most. -/
theorem Good.keep (hs : P.Good s) (hi : s.threads[i]? = some u) (hsafe : P.SafeThread t s.db)
    (hheld : ∀ l ∈ t.held, l ∈ u.held) : P.Good (s.setThread i t) :=
  hs.setThread hsafe fun j w hne hj l hl => hs.excl i j u w hne.symm hi hj l (hheld l hl)

/-- Client `i` moves on with the locks of `ls`, which nobody else holds. -/
theorem Good.acquire (hs : P.Good s) (hi : s.threads[i]? = some u) {ls : List S.Lock}
    (hfree : s.free i ls = true) (hsafe : P.SafeThread t s.db)
    (hheld : t.held = u.held ++ ls) : P.Good (s.setThread i t) := by
  refine hs.setThread hsafe fun j w hne hj l hl => ?_
  rw [hheld, List.mem_append] at hl
  rcases hl with hl | hl
  · exact hs.excl i j u w hne.symm hi hj l hl
  · have hlt := (List.getElem?_eq_some_iff.mp hj).1
    have := List.all_eq_true.mp hfree j (List.mem_range.mpr hlt)
    simp only [hj, Option.map_some, Option.getD_some, Bool.or_eq_true, beq_iff_eq, hne, false_or,
      List.all_eq_true, Bool.not_eq_true', List.contains_eq_mem, decide_eq_false_iff_not] at this
    exact fun hw => this l hw hl

/-- Client `i` changes the committed state to `d'` and goes on as `t`. -/
theorem Good.change (hs : P.Good s) (hi : s.threads[i]? = some u) {d' : S.Db}
    (hg : P.Guarantee u.held s.db d') (hstable : ∀ j, j ≠ i → P.Stable (s.pointOf j) s.db d')
    (hsafe : P.SafeThread t d') (hheld : ∀ l ∈ t.held, l ∈ u.held) :
    P.Good { db := d', threads := s.threads.set i t } := by
  refine hs.set d' hg.2.1 hsafe (fun j w hne hj => ?_) fun j w hne hj l hl =>
    hs.excl i j u w hne.symm hi hj l (hheld l hl)
  have hpoint := hstable j hne
  rw [Sys.pointOf, hj] at hpoint
  exact (hs.safe j w hj).interference
    ⟨hg.1, hpoint, fun l hl => hg.2.2 l fun hl' => hs.excl j i w u hne hj hi l hl hl'⟩

end Proto

namespace Sys

open Proto

/-- One statement of a good system's client leads to a good one. -/
theorem Good.run {s s' : Sys S} (hs : P.Good s) {i : Nat} {t : Thread S}
    (hi : s.threads[i]? = some t) (hrun : s.run i t = some s')
    (hallowed : Allowed P.toConditions s (.run i) s') :
    P.Good s' ∧ (s'.db = s.db ∨ P.Act s.db s'.db) := by
  obtain ⟨c, held, δ⟩ := t
  have hsafe := hs.safe i _ hi
  have hpoint : s.pointOf i = c.point := by simp [pointOf, hi]
  obtain ⟨hassume, hstable⟩ := hallowed
  rw [hpoint] at hassume
  cases c with
  | ret a => cases hrun
  | throw e => cases hrun
  | ask k => cases hrun
  | call effect k =>
    cases hrun
    obtain ⟨hg, hk⟩ := hsafe _ .refl hs.inv
    exact ⟨hs.change hi hg hstable hk fun _ hl => hl, .inr hg.1⟩
  | reset k =>
    cases hrun
    exact ⟨hs.keep hi (hsafe _ .refl hs.inv) (by simp), .inl rfl⟩
  | stmt p st k h =>
    have hk := (hsafe _ .refl hs.inv).1 hassume
    cases st with
    | read =>
      cases hrun
      exact ⟨hs.keep hi hk fun _ hl => hl, .inl rfl⟩
    | lock rows =>
      simp only [Sys.run, Option.ite_none_right_eq_some, Option.some.injEq] at hrun
      obtain ⟨hfree, rfl⟩ := hrun
      exact ⟨hs.acquire hi hfree hk rfl, .inl rfl⟩
    | write rows change =>
      simp only [Sys.run, Option.ite_none_right_eq_some, Option.some.injEq] at hrun
      obtain ⟨hfree, rfl⟩ := hrun
      exact ⟨hs.acquire hi hfree hk rfl, .inl rfl⟩
    | commit =>
      simp only [Sys.run, Option.ite_none_right_eq_some, Option.some.injEq] at hrun
      obtain ⟨hlegal, rfl⟩ := hrun
      obtain ⟨hg, hk⟩ := hk hlegal
      exact ⟨hs.change hi hg hstable hk (by simp), .inr hg.1⟩

/-- One action of a good system leads to a good one, by at most one action of the protocol. -/
theorem Good.step {s s' : Sys S} (hs : P.Good s) {a : Action S}
    (hstart : Starts P.Safe a) (hstep : s.step a = some s')
    (hallowed : Allowed P.toConditions s a s') :
    P.Good s' ∧ (s'.db = s.db ∨ P.Act s.db s'.db) := by
  cases a with
  | start code =>
    cases hstep
    have hget : ∀ (i : Nat) (t : Thread S), (s.threads ++ [{ code := code }])[i]? = some t →
        s.threads[i]? = some t ∨ t = { code := code } := by grind
    refine ⟨⟨hs.inv, fun i t hi => ?_, fun i j t u hne hi hj l hl hl' => ?_⟩, .inl rfl⟩
    · rcases hget i t hi with hi | rfl
      · exact hs.safe i t hi
      · exact hstart s.db hs.inv
    · rcases hget i t hi with hi | rfl
      · rcases hget j u hj with hj | rfl
        · exact hs.excl i j t u hne hi hj l hl hl'
        · cases hl'
      · cases hl
  | run i =>
    obtain ⟨t, hi, hrun⟩ := Option.bind_eq_some_iff.mp hstep
    exact Good.run hs hi hrun hallowed
  | answer i a =>
    obtain ⟨⟨c, held, δ⟩, hi, hstep⟩ := Option.bind_eq_some_iff.mp hstep
    cases c with
    | ask k =>
      cases hstep
      exact ⟨hs.keep hi (hs.safe i _ hi _ .refl hs.inv a) fun _ hl => hl, .inl rfl⟩
    | _ => cases hstep
  | fail i e =>
    obtain ⟨⟨c, held, δ⟩, hi, hstep⟩ := Option.bind_eq_some_iff.mp hstep
    cases c with
    | stmt p st k h =>
      cases hstep
      have hpoint : s.pointOf i = p := by simp [pointOf, hi, Code.point]
      have hfault : P.Fault p e := hpoint ▸ hallowed
      exact ⟨hs.keep hi ((hs.safe i _ hi _ .refl hs.inv).2 e hfault) fun _ hl => hl, .inl rfl⟩
    | _ => cases hstep
  | crash i =>
    obtain ⟨t, hi, rfl⟩ := Option.map_eq_some_iff.mp hstep
    exact ⟨hs.keep hi trivial (by simp), .inl rfl⟩

/-- A system none of whose clients has started. -/
theorem good_init {d : S.Db} (hd : P.Inv d) : P.Good { db := d } where
  inv := hd
  safe i t hi := by cases hi
  excl i j t u _ hi := by cases hi

/-- Induction over a run of safe code: each action leads from a good system to a good one and
changes the committed state by at most one action of the protocol. -/
theorem Reach.induct {ops : Code S Unit → Prop} (hops : ∀ c, ops c → P.Safe c) {s₀ : Sys S}
    (hs₀ : P.Good s₀) {M : Sys S → Prop} (hM₀ : M s₀)
    (hM : ∀ s s', Reach ops P.toConditions s₀ s → P.Good s → P.Good s' →
      (s'.db = s.db ∨ P.Act s.db s'.db) → M s → M s')
    {s : Sys S} (h : Reach ops P.toConditions s₀ s) : P.Good s ∧ M s := by
  induction h with
  | refl => exact ⟨hs₀, hM₀⟩
  | @step s s' a hs hstart hstep hallowed ih =>
    have hsafe : Starts P.Safe a := by
      cases a with
      | start code => exact hops code hstart
      | _ => trivial
    obtain ⟨hgood, hmove⟩ := Good.step ih.1 hsafe hstep hallowed
    exact ⟨hgood, hM s s' hs ih.1 hgood hmove ih.2⟩

/-- What every action keeps holds of every state that an interleaving reaches. -/
theorem Reach.invariant {ops : Code S Unit → Prop} (hops : ∀ c, ops c → P.Safe c)
    {I : S.Db → Prop} (hI : ∀ d d', P.Inv d → P.Inv d' → P.Act d d' → I d → I d') {d : S.Db}
    (hd : P.Inv d) (hd' : I d) {s : Sys S} (h : Reach ops P.toConditions { db := d } s) :
    P.Inv s.db ∧ I s.db := by
  obtain ⟨hgood, hIs⟩ := Reach.induct (M := fun s => I s.db) hops (good_init hd) hd'
    (fun s s' _ hs hs' hmove hIs => by
      rcases hmove with hdb | hact
      · rw [hdb]; exact hIs
      · exact hI _ _ hs.inv hs'.inv hact hIs) h
  exact ⟨hgood.inv, hIs⟩

/-- The next action of a run changes the committed state by at most one action of the protocol. -/
theorem Reach.next {ops : Code S Unit → Prop} (hops : ∀ c, ops c → P.Safe c) {d : S.Db} (hd : P.Inv d)
    {s s' : Sys S} (h : Reach ops P.toConditions { db := d } s) {a : Action S} (hstart : Starts ops a)
    (hstep : s.step a = some s') (hallowed : Allowed P.toConditions s a s') :
    s'.db = s.db ∨ P.Act s.db s'.db := by
  have hgood := (Reach.induct (M := fun _ => True) hops (good_init hd) trivial
    (fun _ _ _ _ _ _ _ => trivial) h).1
  have hsafe : Starts P.Safe a := by
    cases a with
    | start code => exact hops code hstart
    | _ => trivial
  exact (Good.step hgood hsafe hstep hallowed).2

/-- Between two states of a run the committed state evolves as every action lets it. -/
theorem Reach.evolves {ops : Code S Unit → Prop} (hops : ∀ c, ops c → P.Safe c)
    {T : S.Db → S.Db → Prop} (hrefl : ∀ d, T d d) (htrans : ∀ d₁ d₂ d₃, T d₁ d₂ → T d₂ d₃ → T d₁ d₃)
    (hT : ∀ d d', P.Inv d → P.Inv d' → P.Act d d' → T d d') {s s' : Sys S} (hs : P.Good s)
    (h : Reach ops P.toConditions s s') : T s.db s'.db := by
  refine (Reach.induct hops hs (M := fun x => T s.db x.db) (hrefl s.db)
    (fun x x' _ hx hx' hmove ih => ?_) h).2
  rcases hmove with hdb | hact
  · rw [hdb]; exact ih
  · exact htrans _ _ _ ih (hT _ _ hx.inv hx'.inv hact)

end Sys

end ReadCommitted
