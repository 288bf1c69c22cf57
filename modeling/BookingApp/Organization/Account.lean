import BookingApp.Interleaving.Logic
import Mathlib.Data.Set.Operations

/-!
# The Stripe account of an organization (`organization/organization-webhook.handler.ts`)

A webhook about the account carries a snapshot of it. The write is guarded by the
time of the snapshot that the row has, so that whichever calls run, in whatever order
and however often, the row ends with the newest snapshot.
-/

set_option autoImplicit false

namespace BookingApp.Onboarding

open Interleaving Interleaving.Proto

/-- A field of a provider's object, narrowed to what is asked of it. -/
inductive Unknown where
  | string (s : String)
  | boolean (b : Bool)
  | other
  deriving DecidableEq, Repr

structure AccountObjectShape where
  id : Unknown
  detailsSubmitted : Unknown
  chargesEnabled : Unknown
  deriving DecidableEq, Repr

/-- `readString` -/
def readString : Unknown → Option String
  | .string s => if s.length > 0 then some s else none
  | _ => none

/-- `value === true` -/
def isTrue (value : Unknown) : Bool :=
  value == .boolean true

structure Row where
  id : String
  stripeAccountId : Option String := none
  stripeDetailsSubmitted : Bool := false
  stripeChargesEnabled : Bool := false
  stripeAccountUpdatedAt : Option Int := none
  deriving DecidableEq, Repr

/-- A webhook event with a time: the snapshot of the account it carries, and when it was created. -/
structure AccountEvent where
  object : AccountObjectShape
  createdAt : Int
  deriving DecidableEq, Repr

/-- The rows, and a note of each event whose call has come to its end. -/
structure State where
  organizations : List Row := []
  processed : List AccountEvent := []

abbrev world : World where
  State := State
  Role := Unit
  Err := String
  idle := ()

/-- The row condition of the write. -/
def supersedes (account : String) (eventCreatedAt : Option Int) (row : Row) : Bool :=
  row.stripeAccountId == some account &&
    match eventCreatedAt with
    | none => true
    | some created => row.stripeAccountUpdatedAt.all fun stored => decide (stored ≤ created)

/-- The data of the write. -/
def AccountObjectShape.applyTo (object : AccountObjectShape) (eventCreatedAt : Option Int) (row : Row) :
    Row :=
  { row with
    stripeDetailsSubmitted := isTrue object.detailsSubmitted
    stripeChargesEnabled := isTrue object.chargesEnabled
    stripeAccountUpdatedAt := eventCreatedAt.or row.stripeAccountUpdatedAt }

/-- `organization.updateMany` -/
def State.updateMany (account : String) (object : AccountObjectShape) (eventCreatedAt : Option Int)
    (σ : State) : State :=
  { σ with
    organizations := σ.organizations.map fun row =>
      if supersedes account eventCreatedAt row then object.applyTo eventCreatedAt row else row }

/-- `handle` -/
def handle (object : AccountObjectShape) (eventCreatedAt : Option Int) : Prog world Unit :=
  match readString object.id with
  | none => pure ()
  | some stripeAccountId => do
    let organization ← command (W := world) id fun σ =>
      σ.organizations.find? fun row => row.stripeAccountId == some stripeAccountId
    match organization with
    | none => pure ()
    | some _ =>
      command (W := world) (State.updateMany stripeAccountId object eventCreatedAt) fun _ => ()

/-- One delivery of an event, with a note at its end. -/
def deliver (e : AccountEvent) : Prog world Unit := do
  handle e.object (some e.createdAt)
  command (W := world) (fun σ => { σ with processed := σ.processed ++ [e] }) fun _ => ()

/-- The row is of the account that the event is about. -/
def AccountEvent.About (e : AccountEvent) (row : Row) : Prop :=
  ∃ account, readString e.object.id = some account ∧ row.stripeAccountId = some account

/-- The row has what the event says. -/
structure Row.Shows (row : Row) (e : AccountEvent) : Prop where
  detailsSubmitted : row.stripeDetailsSubmitted = isTrue e.object.detailsSubmitted
  chargesEnabled : row.stripeChargesEnabled = isTrue e.object.chargesEnabled
  updatedAt : row.stripeAccountUpdatedAt = some e.createdAt

/-- Nothing newer than what the row has was in the event. -/
def Row.Has (row : Row) (e : AccountEvent) : Prop :=
  ∃ stored, row.stripeAccountUpdatedAt = some stored ∧ e.createdAt ≤ stored

/-- The same organization, with a time that is not before the one it had. -/
structure Row.Later (row row' : Row) : Prop where
  id : row'.id = row.id
  account : row'.stripeAccountId = row.stripeAccountId
  updatedAt : ∀ t, row.stripeAccountUpdatedAt = some t → ∃ t', row'.stripeAccountUpdatedAt = some t' ∧ t ≤ t'

theorem Row.Later.refl (row : Row) : row.Later row := ⟨rfl, rfl, fun t h => ⟨t, h, le_rfl⟩⟩

theorem Row.Later.trans {row row' row'' : Row} (h : row.Later row') (h' : row'.Later row'') :
    row.Later row'' := by
  refine ⟨h'.id.trans h.id, h'.account.trans h.account, fun t ht => ?_⟩
  obtain ⟨t', ht', hle⟩ := h.updatedAt t ht
  obtain ⟨t'', ht'', hle'⟩ := h'.updatedAt t' ht'
  exact ⟨t'', ht'', hle.trans hle'⟩

theorem Row.Has.later {row row' : Row} {e : AccountEvent} (h : row.Has e) (hlater : row.Later row') :
    row'.Has e := by
  obtain ⟨stored, hstored, hle⟩ := h
  obtain ⟨stored', hstored', hle'⟩ := hlater.updatedAt stored hstored
  exact ⟨stored', hstored', hle.trans hle'⟩

/-- A write with a time goes through where nothing newer has been written. -/
theorem supersedes_iff {account : String} {created : Int} {row : Row} :
    supersedes account (some created) row = true ↔
      row.stripeAccountId = some account ∧
        ∀ stored, row.stripeAccountUpdatedAt = some stored → stored ≤ created := by
  cases h : row.stripeAccountUpdatedAt <;> simp [supersedes, h]

namespace AccountEvent

variable {e : AccountEvent} {account : String} {row : Row}

/-- What the write of `e` makes of a row. -/
def write (e : AccountEvent) (account : String) (row : Row) : Row :=
  if supersedes account (some e.createdAt) row then e.object.applyTo (some e.createdAt) row else row

/-- A row after a write: the write's own, or as it was. -/
theorem write_cases (e : AccountEvent) (account : String) (row : Row) :
    (row.stripeAccountId = some account ∧ (e.write account row).Shows e) ∨ e.write account row = row := by
  unfold write
  split
  · next h => exact .inl ⟨(supersedes_iff.mp h).1, rfl, rfl, rfl⟩
  · exact .inr rfl

theorem later_write (e : AccountEvent) (account : String) (row : Row) :
    row.Later (e.write account row) := by
  unfold write
  split
  · next h =>
    refine ⟨rfl, rfl, fun stored hstored => ⟨e.createdAt, rfl, ?_⟩⟩
    exact (supersedes_iff.mp h).2 stored hstored
  · exact .refl row

/-- Once it has been written, the row has the event or a newer one. -/
theorem has_write (haccount : row.stripeAccountId = some account) : (e.write account row).Has e := by
  unfold write
  split
  · exact ⟨e.createdAt, rfl, le_rfl⟩
  · next h =>
    cases hstored : row.stripeAccountUpdatedAt with
    | none => exact absurd (supersedes_iff.mpr ⟨haccount, by simp [hstored]⟩) h
    | some stored =>
      refine ⟨stored, hstored, ?_⟩
      by_contra hlt
      refine h (supersedes_iff.mpr ⟨haccount, fun stored' h' => ?_⟩)
      obtain rfl := Option.some.inj (hstored.symm.trans h')
      omega

end AccountEvent

/-- The rows that the event is about have it, or something newer. -/
def State.Has (σ : State) (e : AccountEvent) : Prop :=
  ∀ row ∈ σ.organizations, e.About row → row.Has e

/-- The rows of one state, later in another. -/
structure State.Later (σ σ' : State) : Prop where
  there : ∀ row ∈ σ.organizations, ∃ row' ∈ σ'.organizations, row.Later row'
  before : ∀ row' ∈ σ'.organizations, ∃ row ∈ σ.organizations, row.Later row'

theorem State.Later.of_eq {σ σ' : State} (h : σ'.organizations = σ.organizations) : σ.Later σ' := by
  constructor <;> rw [h] <;> exact fun row hrow => ⟨row, hrow, .refl row⟩

theorem State.Later.trans {σ σ' σ'' : State} (h : σ.Later σ') (h' : σ'.Later σ'') : σ.Later σ'' := by
  constructor
  · intro row hrow
    obtain ⟨row', hrow', hlater⟩ := h.there row hrow
    obtain ⟨row'', hrow'', hlater'⟩ := h'.there row' hrow'
    exact ⟨row'', hrow'', hlater.trans hlater'⟩
  · intro row'' hrow''
    obtain ⟨row', hrow', hlater'⟩ := h'.before row'' hrow''
    obtain ⟨row, hrow, hlater⟩ := h.before row' hrow'
    exact ⟨row, hrow, hlater.trans hlater'⟩

theorem AccountEvent.About.earlier {e : AccountEvent} {row row' : Row} (h : e.About row')
    (hlater : row.Later row') : e.About row := by
  obtain ⟨account, he, hrow⟩ := h
  exact ⟨account, he, hlater.account ▸ hrow⟩

theorem State.Has.later {σ σ' : State} {e : AccountEvent} (h : σ.Has e) (hlater : σ.Later σ') :
    σ'.Has e := by
  intro row' hrow' habout
  obtain ⟨row, hrow, hl⟩ := hlater.before row' hrow'
  exact (h row hrow (habout.earlier hl)).later hl

/-- One command: it writes an event of `events`, or notes one that the rows have, or looks. -/
inductive Move (events : Set AccountEvent) (σ : State) : State → Prop where
  | wrote (e : AccountEvent) (he : e ∈ events) (account : String)
      (haccount : readString e.object.id = some account) :
      Move events σ { σ with organizations := σ.organizations.map (e.write account) }
  | noted (e : AccountEvent) (he : e ∈ events) (hhas : σ.Has e) :
      Move events σ { σ with processed := σ.processed ++ [e] }
  | looked : Move events σ σ

theorem Move.later {events : Set AccountEvent} {σ σ' : State} (h : Move events σ σ') : σ.Later σ' := by
  cases h with
  | wrote e he account haccount =>
    constructor
    · intro row hrow
      exact ⟨_, List.mem_map_of_mem hrow, e.later_write account row⟩
    · intro row' hrow'
      obtain ⟨row, hrow, rfl⟩ := List.mem_map.mp hrow'
      exact ⟨row, hrow, e.later_write account row⟩
  | noted e he hhas => exact .of_eq rfl
  | looked => exact .of_eq rfl

/-- The rows show events that are about them, and have each event that has been processed. -/
structure Follows (events : Set AccountEvent) (σ : State) : Prop where
  shown : ∀ row ∈ σ.organizations, row.stripeAccountUpdatedAt.isSome →
    ∃ e ∈ events, e.About row ∧ row.Shows e
  processed : ∀ e ∈ σ.processed, e ∈ events ∧ σ.Has e

theorem Follows.move {events : Set AccountEvent} {σ σ' : State} (h : Follows events σ)
    (hmove : Move events σ σ') : Follows events σ' := by
  refine ⟨?_, ?_⟩
  · cases hmove with
    | wrote e he account haccount =>
      intro row' hrow' hsome
      obtain ⟨row, hrow, rfl⟩ := List.mem_map.mp hrow'
      rcases e.write_cases account row with ⟨hrow, hshows⟩ | heq
      · refine ⟨e, he, ⟨account, haccount, ?_⟩, hshows⟩
        exact (e.later_write account row).account.trans hrow
      · rw [heq] at hsome ⊢
        exact h.shown row hrow hsome
    | noted e he hhas => exact h.shown
    | looked => exact h.shown
  · have hold : ∀ e ∈ σ.processed, e ∈ events ∧ σ'.Has e := fun e he =>
      ⟨(h.processed e he).1, (h.processed e he).2.later hmove.later⟩
    cases hmove with
    | wrote e he account haccount => exact hold
    | noted e he hhas =>
      intro e' he'
      rcases List.mem_append.mp he' with he' | he'
      · exact hold e' he'
      · rw [List.mem_singleton.mp he']
        exact ⟨he, hhas⟩
    | looked => exact hold

/-- The protocol of the events. -/
def accountProtocol (events : Set AccountEvent) : Proto world where
  toConditions := .none
  Inv σ _ := Follows events σ
  Act _ _ := Move events
  starts h := h
  keeps h _ _ _ hmove := h.move hmove

theorem rely_later {events : Set AccountEvent} {r : Unit} {σ σ' : State}
    (h : (accountProtocol events).Rely r σ σ') : σ.Later σ' := by
  refine h.keeps (J := σ.Later) (fun x y hstep hlater => ?_) (.of_eq rfl)
  obtain ⟨⟨_, _, hmove⟩, -⟩ := hstep
  exact hlater.trans (Move.later hmove)

/-- A delivery keeps to the protocol: at its end the rows have the event. -/
theorem wp_handle {events : Set AccountEvent} {e : AccountEvent} (he : e ∈ events) (r : Unit) (σ : State) :
    (accountProtocol events).wp (handle e.object (some e.createdAt)) (fun _ _ σ' => σ'.Has e) r σ := by
  unfold handle
  cases hid : readString e.object.id with
  | none =>
    rintro row - ⟨account, haccount, -⟩
    rw [hid] at haccount
    cases haccount
  | some account =>
    refine (wp_bind _ _).mpr (wp_command fun σ₁ _ _ _ _ => ⟨.looked, ?_⟩)
    cases hfind : σ₁.organizations.find? fun row => row.stripeAccountId == some account with
    | none =>
      simp only [id]
      rintro row hrow ⟨account', haccount', hrow'⟩
      obtain rfl := Option.some.inj (hid.symm.trans haccount')
      exact absurd hrow' (by simpa using List.find?_eq_none.mp hfind row hrow)
    | some row₀ =>
      simp only [id]
      refine wp_command fun σ₂ _ _ _ _ => ⟨.wrote e he account hid, ?_⟩
      rintro row' hrow' ⟨account', haccount', habout⟩
      obtain rfl := Option.some.inj (hid.symm.trans haccount')
      obtain ⟨row, -, rfl⟩ := List.mem_map.mp hrow'
      refine e.has_write ?_
      exact (e.later_write account row).account ▸ habout

theorem safe_deliver {events : Set AccountEvent} {e : AccountEvent} (he : e ∈ events) :
    (accountProtocol events).Safe (deliver e) := by
  intro σ
  refine (wp_bind _ _).mpr (wp_mono (wp_handle he _ σ) fun _ r σ₁ hhas => ?_)
  exact wp_command fun σ₂ h₂ _ _ _ => ⟨.noted e he (hhas.later (rely_later h₂)), rfl⟩

/-- Deliveries of `events`, of each as often as it comes. -/
inductive Delivery (events : Set AccountEvent) : Prog world Unit → Prop where
  | deliver (e : AccountEvent) (he : e ∈ events) : Delivery events (deliver e)

/-- The newest of `events` about the account of `row`. -/
structure Newest (events : Set AccountEvent) (row : Row) (e : AccountEvent) : Prop where
  mem : e ∈ events
  about : e.About row
  newest : ∀ e' ∈ events, e'.About row → e'.createdAt ≤ e.createdAt

/-- No two of `events` about one account were created at the same time. -/
def Distinct (events : Set AccountEvent) : Prop :=
  ∀ e ∈ events, ∀ e' ∈ events, readString e.object.id = readString e'.object.id →
    e.createdAt = e'.createdAt → e = e'

theorem Delivery.safe {events : Set AccountEvent} {prog : Prog world Unit} (h : Delivery events prog) :
    (accountProtocol events).Safe prog := by
  cases h with
  | deliver e he => exact safe_deliver he

/-- A row that has the newest event shows it. -/
theorem Follows.shows {events : Set AccountEvent} {σ : State} (h : Follows events σ)
    (hdistinct : Distinct events) {row : Row} (hrow : row ∈ σ.organizations) {e : AccountEvent}
    (he : Newest events row e) (hprocessed : e ∈ σ.processed) : row.Shows e := by
  obtain ⟨stored, hstored, hle⟩ := (h.processed e hprocessed).2 row hrow he.about
  obtain ⟨e', he', habout, hshows⟩ := h.shown row hrow (by simp [hstored])
  have htime : e'.createdAt = stored := Option.some.inj (hshows.updatedAt.symm.trans hstored)
  have hnewest := he.newest e' he' habout
  have hsame : readString e.object.id = readString e'.object.id := by
    obtain ⟨a, ha, hra⟩ := he.about
    obtain ⟨a', ha', hra'⟩ := habout
    rw [ha, ha', ← hra, ← hra']
  obtain rfl := hdistinct e he.mem e' he' hsame (by omega)
  exact hshows

/-- Whatever the order of the deliveries of `events`, however they interleave and however often
each comes: the row of an account whose newest event has been processed shows that event, and no
row's time ever decreases from one state of a run to another. -/
theorem account_updated_confluent {events : Set AccountEvent} (hdistinct : Distinct events) {σ₀ : State}
    (hfresh : ∀ row ∈ σ₀.organizations, row.stripeAccountUpdatedAt = none) (hnone : σ₀.processed = [])
    {s : Sys world} (h : Sys.Reach (Delivery events) .none { state := σ₀ } s) :
    (∀ row ∈ s.state.organizations, ∀ e ∈ s.state.processed, Newest events row e → row.Shows e) ∧
      ∀ s', Sys.Reach (Delivery events) .none s s' → s.state.Later s'.state := by
  have hops : ∀ prog, Delivery events prog → (accountProtocol events).Safe prog := fun _ => Delivery.safe
  have hstart : Follows events σ₀ := by
    refine ⟨fun row hrow hsome => ?_, fun e he => ?_⟩
    · rw [hfresh row hrow] at hsome
      cases hsome
    · rw [hnone] at he
      cases he
  have hgood := h.good (P := accountProtocol events) hops (Sys.good_init hstart)
  refine ⟨fun row hrow e he hnewest => hgood.inv.shows hdistinct hrow hnewest he, fun s' h' => ?_⟩
  refine h'.keeps (P := accountProtocol events) (J := s.state.Later) hops hgood ?_ (.of_eq rfl)
  exact fun _ _ _ x y _ _ hmove hlater => hlater.trans (Move.later hmove)

def AccountEvent.sample (createdAt : Int) (chargesEnabled : Bool) : AccountEvent where
  object :=
    { id := .string "acct_1"
      detailsSubmitted := .boolean true
      chargesEnabled := .boolean chargesEnabled }
  createdAt := createdAt

/-- The older of two events comes after the newer one, and both come once more. -/
def sampleDeliveries : List (Event world) :=
  [.start (deliver (.sample 2 true)), .start (deliver (.sample 1 false)), .run 1, .run 0, .run 0, .run 1,
    .run 0, .run 1, .start (deliver (.sample 2 true)), .start (deliver (.sample 1 false)), .run 2, .run 3,
    .run 2, .run 3, .run 2, .run 3]

theorem account_updated_confluent_sample :
    ∃ s, Sys.Reach (Delivery {.sample 1 false, .sample 2 true}) .none
        { state := { organizations := [{ id := "org-1", stripeAccountId := some "acct_1" }] } } s ∧
      s.state.processed.length = 4 ∧
      ∀ row ∈ s.state.organizations, row.Shows (.sample 2 true) := by
  have hexec : (Sys.exec (W := world) .none
      { state := { organizations := [{ id := "org-1", stripeAccountId := some "acct_1" }] } }
      sampleDeliveries).map (fun s => (s.state.processed, s.state.organizations)) =
        some ([.sample 2 true, .sample 1 false, .sample 2 true, .sample 1 false],
          [{ id := "org-1", stripeAccountId := some "acct_1", stripeDetailsSubmitted := true,
             stripeChargesEnabled := true, stripeAccountUpdatedAt := some 2 }]) := by rfl
  obtain ⟨s, hs, hrows⟩ := Option.map_eq_some_iff.mp hexec
  obtain ⟨hprocessed, hrow⟩ := Prod.mk.inj hrows
  have hreach : Sys.Reach (Delivery {.sample 1 false, .sample 2 true}) .none
      { state := { organizations := [{ id := "org-1", stripeAccountId := some "acct_1" }] } } s := by
    refine .exec .refl ?_ hs
    simp [sampleDeliveries, Sys.Starts, Delivery.deliver]
  have hdistinct : Distinct {.sample 1 false, .sample 2 true} := by
    rintro e (rfl | rfl) e' (rfl | rfl) - ht
    · rfl
    · cases ht
    · cases ht
    · rfl
  refine ⟨s, hreach, by simp [hprocessed], fun row hmem => ?_⟩
  refine (account_updated_confluent hdistinct (by simp) rfl hreach).1 row hmem _ (by simp [hprocessed]) ?_
  rw [hrow] at hmem
  obtain rfl := List.mem_singleton.mp hmem
  refine ⟨.inr rfl, ⟨"acct_1", by decide, rfl⟩, ?_⟩
  rintro e' (rfl | rfl) - <;> decide

end BookingApp.Onboarding
