import BookingApp.ReadCommitted.Adequacy
import BookingApp.Store.Session

/-!
# Rules for the statements of the services

The rules of `ReadCommitted.Logic` for the statements of `Store.Session`, and what
the lookups and updates of a legal state give.
-/

set_option autoImplicit false

namespace BookingApp

open ReadCommitted ReadCommitted.Proto

section Rules

variable {P : Proto store} {α : Type} {held : List Lock} {δ : Db → Db} {d : Db} {p : Point}
  {R : Failure → Db → Prop}

theorem wp_read {Q : α → List Lock → (Db → Db) → Db → Prop} {f : Db → α}
    (hR : ∀ e d, P.Fault .plain e → R e d)
    (h : ∀ d', P.Rely .plain held d d' → P.Inv d' → Q (f (δ d')) held δ d') :
    P.wp (read f) Q R held δ d :=
  wp_select hR fun d' r i _ => h d' r i

theorem wp_query {Q : α → List Lock → (Db → Db) → Db → Prop} {f : Db → α}
    (hR : ∀ e d, P.Fault .plain e → R e d)
    (h : ∀ d', P.Elapse [] d d' → P.Inv d' → Q (f d') [] id d') :
    P.wp (query f) Q R held δ d :=
  fun _ r₁ _ => wp_read hR fun d' r₂ i =>
    h d' ((r₁.weaken (by simp)).elapse.trans r₂.elapse) i

theorem wp_readForUpdate {Q : α → List Lock → (Db → Db) → Db → Prop} {rows : Db → List Lock}
    {f : Db → α} (hR : ∀ e d, P.Fault .plain e → R e d)
    (h : ∀ d', P.Rely .plain held d d' → P.Inv d' → Q (f (δ d')) (held ++ rows (δ d')) δ d') :
    P.wp (readForUpdate rows f) Q R held δ d :=
  wp_selectForUpdate hR fun d' r i _ => h d' r i

theorem wp_insertAt {Q : Unit → List Lock → (Db → Db) → Db → Prop} {change : Db → Db}
    (hR : ∀ e d, P.Fault p e → R e d)
    (h : ∀ d', P.Rely p held d d' → P.Inv d' → Q () held (fun x => change (δ x)) d') :
    P.wp (insertAt p change) Q R held δ d := by
  refine wp_modify hR fun d' r i _ => ?_
  rw [List.append_nil]
  exact h d' r i

theorem wp_lockRow {ρ : Type} {Q : Option ρ → List Lock → (Db → Db) → Db → Prop} {lock : ρ → Lock}
    {row : Db → Option ρ} (hR : ∀ e d, P.Fault .plain e → R e d)
    (h : ∀ d', P.Rely .plain held d d' → P.Inv d' →
      Q (row (δ d')) (held ++ (row (δ d')).toList.map lock) δ d') :
    P.wp (lockRow lock row) Q R held δ d :=
  wp_readForUpdate hR h

theorem wp_updateMany {Q : Unit → List Lock → (Db → Db) → Db → Prop} {lock : String → Lock}
    {ids : Db → List String} {change : List String → Db → Db}
    (hR : ∀ e d, P.Fault .plain e → R e d)
    (h : ∀ d', P.Rely .plain held d d' → P.Inv d' →
      Q () (held ++ (ids (δ d')).map lock) (fun x => change (ids (δ d')) (δ x)) d') :
    P.wp (updateMany lock ids change) Q R held δ d :=
  wp_modify hR fun d' r i _ => h d' r i

theorem wp_now {Q : Int → List Lock → (Db → Db) → Db → Prop}
    (h : ∀ d', P.Rely .idle held d d' → P.Inv d' → ∀ t, Q t held δ d') :
    P.wp now Q R held δ d :=
  (wp_map _ _).mpr (wp_answer fun d' r i a => h d' r i a.now)

theorem wp_freshId {Q : String → List Lock → (Db → Db) → Db → Prop}
    (h : ∀ d', P.Rely .idle held d d' → P.Inv d' → ∀ id, Q id held δ d') :
    P.wp freshId Q R held δ d :=
  (wp_map _ _).mpr (wp_answer fun d' r i a => h d' r i a.id)

theorem wp_ofExcept {Q : α → List Lock → (Db → Db) → Db → Prop} {x : Except Failure α}
    (hok : ∀ a, x = .ok a → Q a held δ d) (herr : ∀ e, x = .error e → R e d) :
    P.wp (ofExcept x) Q R held δ d := by
  cases x with
  | ok a => exact hok a rfl
  | error e => exact herr e rfl

theorem wp_orThrow {Q : α → List Lock → (Db → Db) → Db → Prop} {row : Option α}
    (hsome : ∀ a, row = some a → Q a held δ d) (hnone : row = none → R recordNotFound d) :
    P.wp (orThrow row) Q R held δ d := by
  cases row with
  | some a => exact hsome a rfl
  | none => exact hnone rfl

theorem wp_updateBookingAt {Q : Booking → List Lock → (Db → Db) → Db → Prop} {id : String}
    {f : Booking → Booking} (hR : ∀ e d, R e d)
    (h : ∀ d', P.Rely p held d d' → P.Inv d' → P.Assume p d' →
      ∀ b, Table.find id (δ d').bookings = some b →
        Q (f b) (held ++ [.booking id])
          (fun x => (δ x).onBookings (Table.update [id] f)) d') :
    P.wp (updateBookingAt p id f) Q R held δ d := by
  refine (wp_bind _ _).mpr (wp_modify (fun e d _ => hR e d) fun d' r i ha => ?_)
  refine wp_orThrow (fun b hb => ?_) fun _ => hR _ _
  obtain ⟨b, hfind, rfl⟩ := Option.map_eq_some_iff.mp hb
  exact h d' r i ha b hfind

theorem wp_updatePaymentAt {Q : Payment → List Lock → (Db → Db) → Db → Prop} {id : String}
    {f : Payment → Payment} (hR : ∀ e d, P.Fault p e → R e d)
    (hnone : ∀ d', P.Rely p held d d' → P.Inv d' → Table.find id (δ d').payments = none →
      R recordNotFound d')
    (h : ∀ d', P.Rely p held d d' → P.Inv d' →
      ∀ b, Table.find id (δ d').payments = some b →
        Q (f b) (held ++ [.payment id])
          (fun x => (δ x).onPayments (Table.update [id] f)) d') :
    P.wp (updatePaymentAt p id f) Q R held δ d := by
  refine (wp_bind _ _).mpr (wp_modify hR fun d' r i _ => ?_)
  refine wp_orThrow (fun b hb => ?_) fun hn => ?_
  · obtain ⟨b, hfind, rfl⟩ := Option.map_eq_some_iff.mp hb
    exact h d' r i b hfind
  · exact hnone d' r i (Option.map_eq_none_iff.mp hn)

/-- Serialization failures end no operation before its last attempt. -/
theorem wp_withSerializationRetry {Q : α → List Lock → (Db → Db) → Db → Prop} {J : Db → Prop}
    {operation : Nat → Tx α} (hJ : ∀ d d', P.Act d d' → J d → J d')
    (h : ∀ left held δ d, J d → P.wp (operation left) Q
      (fun e d => (0 < left ∧ isSerializationFailure e = true) ∨ R e d) held δ d) (hd : J d) :
    P.wp (withSerializationRetry operation) Q R held δ d :=
  wp_withRetry hJ h 2 hd

end Rules

/-- The code keeps to the protocol and ends in `Q`, whatever it may fail with. -/
def Runs {α : Type} (P : Proto store) (c : Tx α) (Q : α → List Lock → (Db → Db) → Db → Prop)
    (held : List Lock) (δ : Db → Db) (d : Db) : Prop :=
  P.wp c Q (fun _ _ => True) held δ d

/-! A statement, and what follows it. -/

namespace Runs

variable {P : Proto store} {α β : Type} {held : List Lock} {δ : Db → Db} {d : Db}
  {Q : β → List Lock → (Db → Db) → Db → Prop} {k : α → Tx β}

theorem ret {b : β} (h : Q b held δ d) : Runs P (pure b) Q held δ d := h

theorem fail {e : Failure} : Runs P (throw e) Q held δ d := trivial

theorem mono {Q' : β → List Lock → (Db → Db) → Db → Prop} {c : Tx β} (h : Runs P c Q' held δ d)
    (hQ : ∀ b held δ d, Q' b held δ d → Q b held δ d) : Runs P c Q held δ d :=
  wp_mono h hQ fun _ _ _ => trivial

/-- The end of the code comes some time after its beginning. -/
theorem since {c : Tx β} (h : Runs P c Q held δ d) :
    Runs P c (fun b held δ d' => Q b held δ d' ∧ P.Elapse [] d d') held δ d :=
  wp_mono (wp_frame (J := P.Elapse [] d) (fun _ _ hact hd => hd.tail ⟨hact, by simp⟩) .refl h)
    (fun _ _ _ _ h => h) fun _ _ _ => trivial

theorem bind {c : Tx α} (h : Runs P c (fun a held δ d => Runs P (k a) Q held δ d) held δ d) :
    Runs P (c >>= k) Q held δ d :=
  (wp_bind c k).mpr h

theorem map {g : α → β} {c : Tx α} (h : Runs P c (fun a => Q (g a)) held δ d) :
    Runs P (g <$> c) Q held δ d :=
  (wp_map g c).mpr h

theorem discard {Q : Unit → List Lock → (Db → Db) → Db → Prop} {c : Tx α}
    (h : Runs P c (fun _ => Q ()) held δ d) : Runs P (discard c) Q held δ d :=
  (wp_map (fun _ => PUnit.unit) c).mpr h

theorem tryCatch {c : Tx β} {f : Failure → Tx β} (hc : Runs P c Q held δ d)
    (hf : ∀ e held δ d, Runs P (f e) Q held δ d) : Runs P (tryCatch c f) Q held δ d :=
  wp_tryCatch hc fun e held δ d _ => hf e held δ d

theorem read {f : Db → α}
    (h : ∀ d', P.Elapse held d d' → P.Inv d' → Runs P (k (f (δ d'))) Q held δ d') :
    Runs P (read f >>= k) Q held δ d :=
  bind (wp_read (fun _ _ _ => trivial) fun d' r i => h d' r.elapse i)

theorem query {f : Db → α}
    (h : ∀ d', P.Elapse [] d d' → P.Inv d' → Runs P (k (f d')) Q [] id d') :
    Runs P (query f >>= k) Q held δ d :=
  bind (wp_query (fun _ _ _ => trivial) h)

theorem readForUpdate {rows : Db → List Lock} {f : Db → α}
    (h : ∀ d', P.Elapse held d d' → P.Inv d' → Runs P (k (f (δ d'))) Q (held ++ rows (δ d')) δ d') :
    Runs P (readForUpdate rows f >>= k) Q held δ d :=
  bind (wp_readForUpdate (fun _ _ _ => trivial) fun d' r i => h d' r.elapse i)

/-- The row is not there, or it is locked. -/
theorem lockRow_ret {ρ : Type} {Q : Option ρ → List Lock → (Db → Db) → Db → Prop} {lock : ρ → Lock}
    {row : Db → Option ρ}
    (hnone : ∀ d', P.Elapse held d d' → P.Inv d' → row (δ d') = none → Q none held δ d')
    (hsome : ∀ d' r, P.Elapse held d d' → P.Inv d' → row (δ d') = some r →
      Q (some r) (held ++ [lock r]) δ d') :
    Runs P (BookingApp.lockRow lock row) Q held δ d := by
  refine wp_lockRow (fun _ _ _ => trivial) fun d' r i => ?_
  cases hrow : row (δ d') with
  | none =>
    rw [Option.toList_none, List.map_nil, List.append_nil]
    exact hnone d' r.elapse i hrow
  | some x => exact hsome d' x r.elapse i hrow

theorem lockRow {ρ : Type} {k : Option ρ → Tx β} {lock : ρ → Lock} {row : Db → Option ρ}
    (hnone : ∀ d', P.Elapse held d d' → P.Inv d' → row (δ d') = none →
      Runs P (k none) Q held δ d')
    (hsome : ∀ d' r, P.Elapse held d d' → P.Inv d' → row (δ d') = some r →
      Runs P (k (some r)) Q (held ++ [lock r]) δ d') :
    Runs P (lockRow lock row >>= k) Q held δ d :=
  bind (lockRow_ret hnone hsome)

theorem now {k : Int → Tx β} (h : ∀ d', P.Elapse held d d' → P.Inv d' → ∀ t, Runs P (k t) Q held δ d') :
    Runs P (now >>= k) Q held δ d :=
  bind (wp_now fun d' r i t => h d' r.elapse i t)

theorem freshId {k : String → Tx β}
    (h : ∀ d', P.Elapse held d d' → P.Inv d' → ∀ id, Runs P (k id) Q held δ d') :
    Runs P (freshId >>= k) Q held δ d :=
  bind (wp_freshId fun d' r i id => h d' r.elapse i id)

theorem answer {k : Answer → Tx β}
    (h : ∀ d', P.Elapse held d d' → P.Inv d' → ∀ a, Runs P (k a) Q held δ d') :
    Runs P (answer >>= k) Q held δ d :=
  bind (wp_answer fun d' r i a => h d' r.elapse i a)

theorem modify {p : Point} {rows : Db → List Lock} {change : Db → Db → Db} {f : Db → α}
    (h : ∀ d', P.Elapse held d d' → P.Inv d' → P.Assume p d' →
      Runs P (k (f (δ d'))) Q (held ++ rows (δ d')) (fun x => change (δ d') (δ x)) d') :
    Runs P (modify (S := store) p rows change f >>= k) Q held δ d :=
  bind (wp_modify (fun _ _ _ => trivial) fun d' r i ha => h d' r.elapse i ha)

theorem insertAt {p : Point} {change : Db → Db} {k : Unit → Tx β}
    (h : ∀ d', P.Elapse held d d' → P.Inv d' → Runs P (k ()) Q held (fun x => change (δ x)) d') :
    Runs P (insertAt p change >>= k) Q held δ d :=
  bind (wp_insertAt (fun _ _ _ => trivial) fun d' r i => h d' r.elapse i)

theorem ofExcept {x : Except Failure α} (h : ∀ a, x = .ok a → Runs P (k a) Q held δ d) :
    Runs P (ofExcept x >>= k) Q held δ d :=
  bind (wp_ofExcept h fun _ _ => trivial)

theorem orThrow {row : Option α} (h : ∀ a, row = some a → Runs P (k a) Q held δ d) :
    Runs P (orThrow row >>= k) Q held δ d :=
  bind (wp_orThrow h fun _ => trivial)

theorem ensure {c : Prop} [Decidable c] {e : Failure} {k : Unit → Tx β}
    (h : c → Runs P (k ()) Q held δ d) : Runs P (ensure (S := store) c e >>= k) Q held δ d :=
  bind (wp_ensure h fun _ => trivial)

theorem updateBookingAt {p : Point} {id : String} {f : Booking → Booking} {k : Unit → Tx β}
    (h : ∀ d', P.Elapse held d d' → P.Inv d' → P.Assume p d' →
      ∀ b, Table.find id (δ d').bookings = some b →
        Runs P (k ()) Q (held ++ [.booking id])
          (fun x => (δ x).onBookings (Table.update [id] f)) d') :
    Runs P (Functor.discard (updateBookingAt p id f) >>= k) Q held δ d :=
  bind (discard (wp_updateBookingAt (fun _ _ => trivial) fun d' r i ha b hb =>
    h d' r.elapse i ha b hb))

theorem updateMany {lock : String → Lock} {ids : Db → List String} {change : List String → Db → Db}
    {k : Unit → Tx β}
    (h : ∀ d', P.Elapse held d d' → P.Inv d' → Runs P (k ()) Q (held ++ (ids (δ d')).map lock)
      (fun x => change (ids (δ d')) (δ x)) d') :
    Runs P (updateMany lock ids change >>= k) Q held δ d :=
  bind (wp_updateMany (fun _ _ _ => trivial) fun d' r i => h d' r.elapse i)

theorem call {effect : Db → Db} {k : Db → Tx β}
    (h : ∀ d', P.Elapse held d d' → P.Inv d' →
      P.Guarantee held d' (effect d') ∧ Runs P (k d') Q held δ (effect d')) :
    Runs P (Code.call (S := store) effect k) Q held δ d :=
  fun d' r i => h d' r.elapse i

/-- A transaction, whose commit is shown to follow the protocol. -/
theorem transactionBy {label : β → Point} {body : Tx β}
    (h : ∀ d', P.Elapse [] d d' → P.Inv d' → Runs P body (P.CommitsBy label Q) [] id d') :
    Runs P (transactionBy (S := store) label body) Q held δ d :=
  wp_transactionBy (fun _ _ _ _ => trivial) (fun _ _ _ _ _ => trivial) fun d' r i => h d' r.elapse i

theorem transaction {p : Point} {body : Tx β}
    (h : ∀ d', P.Elapse [] d d' → P.Inv d' → Runs P body (P.Commits p Q) [] id d') :
    Runs P (transaction (S := store) p body) Q held δ d :=
  transactionBy h

/-- Each attempt begins some time after the first. -/
theorem withRetry {retry : Failure → Bool} {left : Nat} {operation : Nat → Tx β}
    (h : ∀ left held δ d', P.Elapse [] d d' → Runs P (operation left) Q held δ d') :
    Runs P (withRetry (S := store) retry left operation) Q held δ d := by
  refine wp_withRetry (P := P) (J := P.Elapse [] d) (fun _ _ hact hd => hd.tail ⟨hact, by simp⟩)
    (fun left held δ d' hd => ?_) left .refl
  exact wp_mono (h left held δ d' hd) (fun _ _ _ _ h => h) fun _ _ _ => .inr trivial

theorem withSerializationRetry {operation : Nat → Tx β}
    (h : ∀ left held δ d', P.Elapse [] d d' → Runs P (operation left) Q held δ d') :
    Runs P (withSerializationRetry operation) Q held δ d :=
  withRetry h

end Runs

end BookingApp
