import BookingApp.Interleaving.Logic
import BookingApp.Messaging.Redrive
import BookingApp.Notification.Delivery

/-!
# The inbox of webhooks (`inbox.recorder.ts`, `inbox.reconciler.ts`, `stripe-webhook.controller.ts`)

A delivery is answered once its event is stored, and a job for it is on the queue or the
reconciler will put one there. The job acts on the event and marks it then; the
reconciler deletes what was marked long ago. Whatever fails or dies in between, and
however often an event is delivered, what was answered is still stored or was acted on.
-/

set_option autoImplicit false

namespace BookingApp.Inbox

open Interleaving Interleaving.Proto
open Sending (Outcome SendError)
open Delivery (WebhookProvider)

/-- How a stored event is addressed. -/
inductive InboxRef where
  | stripe (stripeEventId : String)
  | messaging (provider : WebhookProvider) (providerEventId : String)
  deriving DecidableEq, Repr

def InboxRef.source : InboxRef → Redrive.WebhookSource
  | stripe _ => .STRIPE
  | messaging _ _ => .MESSAGING

/-- What a provider has signed. -/
structure Event where
  ref : InboxRef
  type : String
  payload : String
  deriving DecidableEq, Repr

/-- A row of `stripe_webhook_events` or `messaging_webhook_events`. -/
structure InboxEvent extends Event where
  id : String
  processedAt : Option Int := none
  attempts : Nat := 0
  lastError : Option String := none
  receivedAt : Int
  deriving DecidableEq, Repr

/-- The rows and the queue, the deliveries that were answered with a 200, what has been verified, and
what was acted on. -/
structure State where
  now : Int := 0
  rows : List InboxEvent := []
  queue : List Redrive.Job := []
  verified : List Event := []
  acknowledged : List InboxRef := []
  dispatched : List Event := []

inductive Ending where
  | error (e : SendError)
  | validation (message : String)
  | crashed

abbrev world : World where
  State := State
  Role := Unit
  Err := Ending
  idle := ()

abbrev Program : Type → Type := Prog world

/-- One statement, with whatever becomes of it. -/
def statement {α : Type} (outcome : Outcome) (effect : State → State) (f : State → α) :
    Program (Except SendError α) :=
  match outcome with
  | .done => command (W := world) effect fun σ => .ok (f σ)
  | .refused e => command (W := world) id fun _ => .error e
  | .lost e => command (W := world) effect fun _ => .error e
  | .crashed => .throw .crashed

/-- A statement whose errors are not handled. -/
def statementOrThrow {α : Type} (outcome : Outcome) (effect : State → State) (f : State → α) : Program α := do
  match ← statement outcome effect f with
  | .ok a => pure a
  | .error e => .throw (.error e)

/-! ## The recorder -/

inductive RecordOutcome where
  | RECORDED (rowId : String)
  | DUPLICATE
  deriving DecidableEq, Repr

def State.find (ref : InboxRef) (σ : State) : Option InboxEvent :=
  σ.rows.find? fun e => decide (e.ref = ref)

def State.update (ref : InboxRef) (f : InboxEvent → InboxEvent) (σ : State) : State :=
  { σ with rows := σ.rows.map fun e => if e.ref = ref then f e else e }

/-- `recordStripe` and `recordMessaging`: the unique key refuses a second row. -/
def record (outcome : Outcome) (rowId : String) (event : Event) : Program RecordOutcome :=
  statementOrThrow outcome
    (fun σ => if (σ.find event.ref).isSome then σ
      else { σ with rows := σ.rows ++ [{ toEvent := event, id := rowId, receivedAt := σ.now }] })
    fun σ => if (σ.find event.ref).isSome then .DUPLICATE else .RECORDED rowId

def markProcessed (outcome : Outcome) (ref : InboxRef) : Program (Except SendError Unit) :=
  statement outcome
    (fun σ => σ.update ref fun e => { e with processedAt := e.processedAt.or (some σ.now) })
    fun _ => ()

def markFailed (outcome : Outcome) (ref : InboxRef) (error : SendError) : Program Unit :=
  statementOrThrow outcome
    (State.update ref fun e =>
      { e with attempts := e.attempts + 1, lastError := some (Delivery.sliced error.message) })
    fun _ => ()

/-! ## The controllers -/

/-- `EnqueueService.enqueue`, under the id of the row. -/
def enqueue (outcome : Outcome) (rowId : String) : Program (Except SendError Unit) :=
  statement outcome (fun σ => { σ with queue := Redrive.add (Redrive.inboxJobId rowId) rowId σ.queue }) fun _ => ()

/-- `ingest` of the one controller and `record` of the other, for a request whose signature says
`verified`. An error of the queue is no error of the response. -/
def ingest (script : Nat → Outcome) (rowId : String) (verified : Except String Event) : Program Unit :=
  match verified with
  | .error message => .throw (.validation message)
  | .ok event => do
    command (W := world) (fun σ => { σ with verified := σ.verified ++ [event] }) fun _ => ()
    match ← record (script 0) rowId event with
    | .DUPLICATE => pure ()
    | .RECORDED rowId => discard (enqueue (script 1) rowId)
    statementOrThrow (script 2) (fun σ => { σ with acknowledged := σ.acknowledged ++ [event.ref] }) fun _ => ()

/-! ## The processors -/

/-- `dispatch`, whose effects lie elsewhere: what is told of it is that it came to its end. -/
def dispatch (outcome : Outcome) (event : Event) : Program (Except SendError Unit) :=
  statement outcome (fun σ => { σ with dispatched := σ.dispatched ++ [event] }) fun _ => ()

/-- `StripeEventProcessor.handle` and `MessagingEventProcessor.handle` -/
def handle (script : Nat → Outcome) (ref : InboxRef) : Program Unit := do
  match ← statementOrThrow (script 0) id (State.find ref) with
  | none => pure ()
  | some event =>
    if event.processedAt ≠ none then pure ()
    else
      let result ← match ← dispatch (script 1) event.toEvent with
        | .ok () => markProcessed (script 2) ref
        | .error e => pure (.error e)
      match result with
      | .ok () => pure ()
      | .error e => do
        markFailed (script 3) ref e
        .throw (.error e)

/-! ## The reconciler -/

def INBOX_STRIPE_RETENTION_DAYS : Int := 90

def INBOX_MESSAGING_RETENTION_DAYS : Int := 30

def daysBefore (now days : Int) : Int :=
  now - days * 86400000

/-- Unprocessed, still under the attempt limit, and old. -/
def stalled (now : Int) (source : Redrive.WebhookSource) (σ : State) : List InboxEvent :=
  (σ.rows.filter fun e => decide (e.ref.source = source ∧ e.processedAt = none ∧
    e.attempts < Redrive.INBOX_MAX_ATTEMPTS ∧ e.receivedAt < now - Redrive.INBOX_STALLED_AFTER_MS)).insertionSort
      fun e e' => e.receivedAt ≤ e'.receivedAt

def enqueueAll (script : Nat → Outcome) : List InboxEvent → Program Unit
  | [] => pure ()
  | event :: rest => do
    match ← enqueue (script 0) event.id with
    | .ok () => enqueueAll (fun n => script (n + 1)) rest
    | .error e => .throw (.error e)

/-- `reenqueueStripe` and `reenqueueMessaging` -/
def reenqueue (script : Nat → Outcome) (now : Int) (source : Redrive.WebhookSource) : Program Nat := do
  let rows ← statementOrThrow (script 0) id fun σ => (stalled now source σ).take Redrive.INBOX_BATCH_SIZE
  enqueueAll (fun n => script (n + 1)) rows
  return rows.length

def retentionDays : Redrive.WebhookSource → Int
  | .STRIPE => INBOX_STRIPE_RETENTION_DAYS
  | .MESSAGING => INBOX_MESSAGING_RETENTION_DAYS

/-- Processed before the retention window of its table. -/
def InboxEvent.spent (now : Int) (source : Redrive.WebhookSource) (e : InboxEvent) : Bool :=
  decide (e.ref.source = source) && e.processedAt.any fun t => decide (t < daysBefore now (retentionDays source))

/-- `deleteMany` of one of the tables. -/
def prune (outcome : Outcome) (now : Int) (source : Redrive.WebhookSource) : Program Unit :=
  statementOrThrow outcome
    (fun σ => { σ with rows := σ.rows.filter fun e => !e.spent now source })
    fun _ => ()

/-- `InboxReconciler.runOnce`, but for its reports. -/
def runOnce (script : Nat → Nat → Outcome) : Program Unit := do
  let now ← command (W := world) id State.now
  discard (reenqueue (script 0) now .STRIPE)
  discard (reenqueue (script 1) now .MESSAGING)
  prune (script 2 0) now .STRIPE
  prune (script 2 1) now .MESSAGING

def tick (elapsed : Nat) : Program Unit :=
  command (W := world) (fun σ => { σ with now := σ.now + elapsed }) fun _ => ()

/-- Requests, jobs and sweeps, with whatever becomes of their statements, and time that passes. -/
inductive InboxOp : Program Unit → Prop where
  | ingest (script : Nat → Outcome) (rowId : String) (verified : Except String Event) :
      InboxOp (ingest script rowId verified)
  | handle (script : Nat → Outcome) (ref : InboxRef) : InboxOp (handle script ref)
  | runOnce (script : Nat → Nat → Outcome) : InboxOp (runOnce script)
  | tick (elapsed : Nat) : InboxOp (tick elapsed)

/-! ## What one command does -/

/-- The same event, in the same row, whose mark stays once it is there. -/
structure Becomes (e e' : InboxEvent) : Prop where
  id : e'.id = e.id
  event : e'.toEvent = e.toEvent
  receivedAt : e'.receivedAt = e.receivedAt
  processedAt : ∀ t, e.processedAt = some t → e'.processedAt = some t

/-- The event is stored, or was acted on. -/
def State.Has (σ : State) (ref : InboxRef) : Prop :=
  (∃ e ∈ σ.rows, e.ref = ref) ∨ ∃ d ∈ σ.dispatched, d.ref = ref

/-- What one command may do. -/
structure Move (σ σ' : State) : Prop where
  rows : ∀ e ∈ σ.rows, (∃ e' ∈ σ'.rows, Becomes e e') ∨
    (∃ t, e.processedAt = some t ∧ t < daysBefore σ.now (retentionDays e.ref.source)) ∧
      ∃ d ∈ σ.dispatched, d.ref = e.ref
  back : ∀ e' ∈ σ'.rows, (∃ e ∈ σ.rows, Becomes e e' ∧
      (e'.processedAt ≠ none → e.processedAt ≠ none ∨ ∃ d ∈ σ.dispatched, d.ref = e.ref)) ∨
    e'.processedAt = none ∧ e'.toEvent ∈ σ.verified
  unique : (σ.rows.map fun e => e.ref).Nodup → (σ'.rows.map fun e => e.ref).Nodup
  verified : σ.verified <+: σ'.verified
  dispatched : σ.dispatched <+: σ'.dispatched
  signed : ∀ d ∈ σ'.dispatched, d ∈ σ.dispatched ∨ d ∈ σ.verified
  acknowledged : ∀ ref ∈ σ'.acknowledged, ref ∈ σ.acknowledged ∨ σ.Has ref
  now : σ.now ≤ σ'.now

/-- What every reachable state satisfies: an event has one row, which is marked only after it was acted on,
and what is stored or was acted on is what a provider has signed; what was answered is stored or was acted
on. -/
structure Sound (σ : State) : Prop where
  unique : (σ.rows.map fun e => e.ref).Nodup
  stored : ∀ e ∈ σ.rows, e.toEvent ∈ σ.verified
  marked : ∀ e ∈ σ.rows, e.processedAt ≠ none → ∃ d ∈ σ.dispatched, d.ref = e.ref
  signed : ∀ d ∈ σ.dispatched, d ∈ σ.verified
  acknowledged : ∀ ref ∈ σ.acknowledged, σ.Has ref

section Moves

variable {σ σ' : State} {e e' e'' : InboxEvent}

theorem Becomes.refl : Becomes e e :=
  ⟨rfl, rfl, rfl, fun _ h => h⟩

theorem Becomes.trans (h : Becomes e e') (h' : Becomes e' e'') : Becomes e e'' where
  id := h'.id.trans h.id
  event := h'.event.trans h.event
  receivedAt := h'.receivedAt.trans h.receivedAt
  processedAt t ht := h'.processedAt t (h.processedAt t ht)

theorem Becomes.ref (h : Becomes e e') : e'.ref = e.ref :=
  congrArg Event.ref h.event

/-- A command that leaves the rows, the log and the answers alone. -/
theorem Move.of_rows_eq (hrows : σ'.rows = σ.rows) (hverified : σ.verified <+: σ'.verified)
    (hdispatched : σ'.dispatched = σ.dispatched) (hacknowledged : σ'.acknowledged = σ.acknowledged)
    (hnow : σ.now ≤ σ'.now) : Move σ σ' where
  rows e he := .inl ⟨e, hrows ▸ he, .refl⟩
  back e he := .inl ⟨e, hrows ▸ he, .refl, .inl⟩
  unique h := hrows ▸ h
  verified := hverified
  dispatched := hdispatched ▸ List.prefix_rfl
  signed _ hd := .inl (hdispatched ▸ hd)
  acknowledged _ href := .inl (hacknowledged ▸ href)
  now := hnow

theorem Move.refl : Move σ σ :=
  .of_rows_eq rfl List.prefix_rfl rfl rfl le_rfl

/-- What has been acted on has been so from then on, and what is stored is kept until it has. -/
theorem Move.has (h : Move σ σ') {ref : InboxRef} (hhas : σ.Has ref) : σ'.Has ref := by
  have hdispatched : ∀ {r}, (∃ d ∈ σ.dispatched, d.ref = r) → ∃ d ∈ σ'.dispatched, d.ref = r :=
    fun ⟨d, hd, hr⟩ => ⟨d, h.dispatched.subset hd, hr⟩
  rcases hhas with ⟨e, he, rfl⟩ | hdone
  · rcases h.rows e he with ⟨e', he', hbecomes⟩ | ⟨-, hdone⟩
    · exact .inl ⟨e', he', hbecomes.ref⟩
    · exact .inr (hdispatched hdone)
  · exact .inr (hdispatched hdone)

theorem Sound.move (hσ : Sound σ) (h : Move σ σ') : Sound σ' where
  unique := h.unique hσ.unique
  stored e' he' := by
    rcases h.back e' he' with ⟨e, he, hbecomes, -⟩ | ⟨-, hnew⟩
    · rw [hbecomes.event]
      exact h.verified.subset (hσ.stored e he)
    · exact h.verified.subset hnew
  marked e' he' hmarked := by
    rcases h.back e' he' with ⟨e, he, hbecomes, hback⟩ | ⟨hnone, -⟩
    · have hdone : ∃ d ∈ σ.dispatched, d.ref = e.ref := (hback hmarked).elim (hσ.marked e he) id
      obtain ⟨d, hd, hr⟩ := hdone
      exact ⟨d, h.dispatched.subset hd, hr.trans hbecomes.ref.symm⟩
    · exact absurd hnone hmarked
  signed d hd := (h.signed d hd).elim (fun hd => h.verified.subset (hσ.signed d hd)) fun hd => h.verified.subset hd
  acknowledged ref href := h.has ((h.acknowledged ref href).elim (hσ.acknowledged ref) id)

/-- Rows are changed where they stand. -/
theorem move_update {ref : InboxRef} {f : InboxEvent → InboxEvent} (hbecomes : ∀ e, Becomes e (f e))
    (hmarked : ∀ e ∈ σ.rows, e.ref = ref → (f e).processedAt ≠ none →
      e.processedAt ≠ none ∨ ∃ d ∈ σ.dispatched, d.ref = ref) : Move σ (σ.update ref f) where
  rows e he := by
    refine .inl ⟨if e.ref = ref then f e else e, List.mem_map.mpr ⟨e, he, rfl⟩, ?_⟩
    split
    · exact hbecomes e
    · exact .refl
  back e' he' := by
    obtain ⟨e, he, rfl⟩ := List.mem_map.mp he'
    refine .inl ⟨e, he, ?_⟩
    split
    · next href => exact ⟨hbecomes e, fun hnone => href ▸ hmarked e he href hnone⟩
    · exact ⟨.refl, .inl⟩
  unique h := by
    have hrefs : (σ.update ref f).rows.map (fun e => e.ref) = σ.rows.map fun e => e.ref := by
      rw [State.update, List.map_map]
      apply List.map_congr_left
      intro e _
      show (if e.ref = ref then f e else e).ref = e.ref
      split
      · exact (hbecomes e).ref
      · rfl
    exact hrefs ▸ h
  verified := List.prefix_rfl
  dispatched := List.prefix_rfl
  signed _ := .inl
  acknowledged _ := .inl
  now := le_rfl

theorem move_record {rowId : String} {event : Event} (hverified : event ∈ σ.verified) :
    Move σ (if (σ.find event.ref).isSome then σ
      else { σ with rows := σ.rows ++ [{ toEvent := event, id := rowId, receivedAt := σ.now }] }) := by
  split
  · exact .refl
  · next hnone =>
    have habsent : ∀ e ∈ σ.rows, e.ref ≠ event.ref := by
      intro e he href
      apply hnone
      exact List.find?_isSome.mpr ⟨e, he, decide_eq_true href⟩
    refine ⟨fun e he => .inl ⟨e, List.mem_append_left _ he, .refl⟩, fun e he => ?_, fun h => ?_, List.prefix_rfl,
      List.prefix_rfl, fun _ => .inl, fun _ => .inl, le_rfl⟩
    · rcases List.mem_append.mp he with he | he
      · exact .inl ⟨e, he, .refl, .inl⟩
      · rw [List.mem_singleton.mp he]
        exact .inr ⟨rfl, hverified⟩
    · rw [List.map_append]
      refine h.append (List.nodup_singleton _) ?_
      rw [List.map_singleton, List.disjoint_singleton]
      intro hmem
      obtain ⟨e, he, href⟩ := List.mem_map.mp hmem
      exact habsent e he href

/-- Nothing is deleted but what was acted on and marked long ago. -/
theorem move_prune (hσ : Sound σ) {now : Int} (hnow : now ≤ σ.now) (source : Redrive.WebhookSource) :
    Move σ { σ with rows := σ.rows.filter fun e => !e.spent now source } where
  rows e he := by
    by_cases hspent : e.spent now source = true
    · obtain ⟨hsource, t, ht, hlt⟩ : e.ref.source = source ∧ ∃ t, e.processedAt = some t ∧
          t < daysBefore now (retentionDays source) := by
        simpa [InboxEvent.spent, Option.any_eq_true] using hspent
      refine .inr ⟨⟨t, ht, ?_⟩, hσ.marked e he (by simp [ht])⟩
      rw [hsource]
      unfold daysBefore at hlt ⊢
      omega
    · exact .inl ⟨e, List.mem_filter.mpr ⟨he, by simpa using hspent⟩, .refl⟩
  back e he := .inl ⟨e, (List.mem_filter.mp he).1, .refl, .inl⟩
  unique h := h.sublist (List.filter_sublist.map _)
  verified := List.prefix_rfl
  dispatched := List.prefix_rfl
  signed _ := .inl
  acknowledged _ := .inl
  now := le_rfl

end Moves

/-! ## The clients -/

def inboxProtocol : Proto world where
  toConditions := .none
  Inv σ _ := Sound σ
  Act _ _ σ σ' := Move σ σ'
  starts h := h
  keeps h _ _ _ hmove := h.move hmove

section Programs

variable {α β : Type} {σ : State} {Q : α → Unit → State → Prop} {J : State → Prop}

/-- What no command of another client changes. -/
def Steady (J : State → Prop) : Prop :=
  ∀ σ σ', Move σ σ' → J σ → J σ'

theorem Steady.rely (hJ : Steady J) {σ σ' : State} (h : inboxProtocol.Rely () σ σ') (hσ : J σ) : J σ' :=
  h.keeps (fun x y ⟨⟨_, _, hmove⟩, _⟩ hx => hJ x y hmove hx) hσ

theorem steady_true : Steady fun _ => True :=
  fun _ _ _ h => h

/-- A statement that is a move from wherever it finds the state, whatever becomes of it. -/
theorem wp_statement {outcome : Outcome} {effect : State → State} {f : State → α}
    {Q : Except SendError α → Unit → State → Prop} (hJ : Steady J) (hσ : J σ)
    (hmove : ∀ σ, Sound σ → J σ → Move σ (effect σ))
    (hok : ∀ σ, Sound σ → J σ → J (effect σ) → Q (.ok (f σ)) () (effect σ))
    (herror : ∀ e σ, J σ → Q (.error e) () σ) : inboxProtocol.wp (statement outcome effect f) Q () σ := by
  cases outcome with
  | done =>
    refine wp_command fun σ' hrely R hinv _ => ?_
    have hσ' := hJ.rely hrely hσ
    have hmove' := hmove σ' hinv hσ'
    exact ⟨hmove', hok σ' hinv hσ' (hJ _ _ hmove' hσ')⟩
  | refused e =>
    refine wp_command fun σ' hrely R hinv _ => ?_
    exact ⟨.refl, herror e _ (hJ.rely hrely hσ)⟩
  | lost e =>
    refine wp_command fun σ' hrely R hinv _ => ?_
    have hσ' := hJ.rely hrely hσ
    have hmove' := hmove σ' hinv hσ'
    exact ⟨hmove', herror e _ (hJ _ _ hmove' hσ')⟩
  | crashed => rfl

theorem wp_statementOrThrow {outcome : Outcome} {effect : State → State} {f : State → α}
    (hJ : Steady J) (hσ : J σ) (hmove : ∀ σ, Sound σ → J σ → Move σ (effect σ))
    (hok : ∀ σ, Sound σ → J σ → J (effect σ) → Q (f σ) () (effect σ)) :
    inboxProtocol.wp (statementOrThrow outcome effect f) Q () σ :=
  (wp_bind _ _).mpr (wp_statement hJ hσ hmove hok fun _ _ _ => rfl)

theorem move_queue {queue : List Redrive.Job} : Move σ { σ with queue } :=
  .of_rows_eq rfl List.prefix_rfl rfl rfl le_rfl

theorem wp_enqueue {outcome : Outcome} {rowId : String} {Q : Except SendError Unit → Unit → State → Prop}
    (hJ : Steady J) (hσ : J σ) (h : ∀ result σ, J σ → Q result () σ) :
    inboxProtocol.wp (enqueue outcome rowId) Q () σ :=
  wp_statement hJ hσ (fun _ _ _ => move_queue) (fun _ _ _ hσ => h _ _ hσ) fun _ σ hσ => h _ σ hσ

theorem steady_verified (event : Event) : Steady fun σ => event ∈ σ.verified :=
  fun _ _ h hmem => h.verified.subset hmem

theorem steady_has (ref : InboxRef) : Steady fun σ => σ.Has ref :=
  fun _ _ h hhas => h.has hhas

theorem has_record {rowId : String} {event : Event} :
    (if (σ.find event.ref).isSome then σ
      else { σ with rows := σ.rows ++ [{ toEvent := event, id := rowId, receivedAt := σ.now }] }).Has event.ref := by
  split
  · next hsome =>
    obtain ⟨e, he, href⟩ := List.find?_isSome.mp hsome
    exact .inl ⟨e, he, of_decide_eq_true href⟩
  · exact .inl ⟨_, List.mem_append_right _ (List.mem_singleton.mpr rfl), rfl⟩

theorem safe_ingest (script : Nat → Outcome) (rowId : String) (verified : Except String Event) :
    inboxProtocol.Safe (ingest script rowId verified) := by
  intro σ
  cases verified with
  | error message => rfl
  | ok event =>
    refine (wp_bind _ _).mpr (wp_command fun σ _ _ _ _ => ?_)
    refine ⟨.of_rows_eq rfl (List.prefix_append _ _) rfl rfl le_rfl, ?_⟩
    refine (wp_bind _ _).mpr (wp_statementOrThrow (steady_verified event) ?_ (fun σ _ hv => move_record hv) ?_)
    · exact List.mem_append_right _ (List.mem_singleton.mpr rfl)
    · intro σ _ _ _
      have hanswer : ∀ {σ : State}, σ.Has event.ref → inboxProtocol.wp (statementOrThrow (script 2)
          (fun σ => { σ with acknowledged := σ.acknowledged ++ [event.ref] }) fun _ => ())
          (fun _ _ _ => True) () σ := by
        intro σ hhas
        refine wp_statementOrThrow (steady_has event.ref) hhas (fun σ _ hhas => ?_) fun _ _ _ _ => trivial
        refine { Move.refl with acknowledged := fun ref href => ?_ }
        rcases List.mem_append.mp href with href | href
        · exact .inl href
        · rw [List.mem_singleton.mp href]
          exact .inr hhas
      have hhas : (if (σ.find event.ref).isSome then σ
          else { σ with rows := σ.rows ++ [{ toEvent := event, id := rowId, receivedAt := σ.now }] }).Has event.ref :=
        has_record
      cases hfind : (σ.find event.ref).isSome with
      | true =>
        simp only [hfind, if_true] at hhas ⊢
        exact hanswer hhas
      | false =>
        simp only [hfind, Bool.false_eq_true, if_false] at hhas ⊢
        refine (wp_bind _ _).mpr ((wp_map _ _).mpr ?_)
        exact wp_enqueue (steady_has event.ref) hhas fun _ _ hhas => hanswer hhas

theorem wp_markFailed {outcome : Outcome} {ref : InboxRef} {e : SendError} {Q : Unit → Unit → State → Prop}
    (h : ∀ σ, Q () () σ) : inboxProtocol.wp (markFailed outcome ref e) Q () σ := by
  refine wp_statementOrThrow steady_true trivial (fun σ _ _ => ?_) fun _ _ _ _ => h _
  exact move_update (fun _ => ⟨rfl, rfl, rfl, fun _ ht => ht⟩) fun _ _ _ => .inl

theorem safe_handle (script : Nat → Outcome) (ref : InboxRef) : inboxProtocol.Safe (handle script ref) := by
  intro σ
  refine (wp_bind _ _).mpr (wp_statementOrThrow steady_true trivial (fun _ _ _ => .refl) ?_)
  intro σ hσ _ _
  cases hfind : σ.find ref with
  | none => exact rfl
  | some event =>
    have hmem : event ∈ σ.rows := List.mem_of_find?_eq_some hfind
    have href : event.ref = ref := by simpa using List.find?_some hfind
    show inboxProtocol.wp (if event.processedAt ≠ none then pure () else _) _ _ _
    split
    · exact rfl
    · have hend : ∀ (result : Except SendError Unit) (σ : State), inboxProtocol.wp (match result with
          | .ok () => pure ()
          | .error e => do
            markFailed (script 3) ref e
            .throw (.error e)) (fun _ r _ => r = world.idle) () σ := by
        intro result σ
        cases result with
        | ok u => exact rfl
        | error e => exact (wp_bind _ _).mpr (wp_markFailed fun _ => rfl)
      refine (wp_bind _ _).mpr (wp_statement (J := fun σ => event.toEvent ∈ σ.verified)
        (steady_verified event.toEvent) (hσ.stored event hmem) (fun σ _ hv => ?_) (fun σ _ _ _ => ?_)
        fun e σ _ => ?_)
      · refine { Move.refl with dispatched := List.prefix_append _ _, signed := fun d hd => ?_ }
        rcases List.mem_append.mp hd with hd | hd
        · exact .inl hd
        · rw [List.mem_singleton.mp hd]
          exact .inr hv
      · refine (wp_bind _ _).mpr (wp_statement (J := fun σ => ∃ d ∈ σ.dispatched, d.ref = ref) (fun _ _ h => ?_)
          ⟨event.toEvent, List.mem_append_right _ (List.mem_singleton.mpr rfl), href⟩ (fun σ _ hdone => ?_)
          (fun σ _ _ _ => hend (.ok ()) _) fun e σ _ => hend (.error e) σ)
        · exact fun ⟨d, hd, hr⟩ => ⟨d, h.dispatched.subset hd, hr⟩
        · refine move_update (fun e => ⟨rfl, rfl, rfl, fun t ht => ?_⟩) fun _ _ _ _ => .inr hdone
          show e.processedAt.or _ = some t
          rw [ht]
          rfl
      · exact hend (.error e) σ

theorem wp_enqueueAll {script : Nat → Outcome} {rows : List InboxEvent} {Q : Unit → Unit → State → Prop}
    (hJ : Steady J) (hσ : J σ) (h : ∀ σ, J σ → Q () () σ) :
    inboxProtocol.wp (enqueueAll script rows) Q () σ := by
  induction rows generalizing script σ with
  | nil => exact h σ hσ
  | cons e rows ih =>
    refine (wp_bind _ _).mpr (wp_enqueue hJ hσ fun result σ hσ => ?_)
    cases result with
    | ok u => exact ih hσ
    | error e => exact rfl

theorem wp_reenqueue {script : Nat → Outcome} {now : Int} {source : Redrive.WebhookSource}
    {Q : Nat → Unit → State → Prop} (hJ : Steady J) (hσ : J σ) (h : ∀ n σ, J σ → Q n () σ) :
    inboxProtocol.wp (reenqueue script now source) Q () σ := by
  refine (wp_bind _ _).mpr (wp_statementOrThrow hJ hσ (fun _ _ _ => .refl) fun σ _ _ hσ => ?_)
  exact (wp_bind _ _).mpr (wp_enqueueAll hJ hσ fun σ hσ => h _ σ hσ)

theorem steady_now (t : Int) : Steady fun σ => t ≤ σ.now :=
  fun _ _ h ht => ht.trans h.now

theorem safe_runOnce (script : Nat → Nat → Outcome) : inboxProtocol.Safe (runOnce script) := by
  intro σ
  refine (wp_bind _ _).mpr (wp_command fun σ _ _ _ _ => ⟨.refl, ?_⟩)
  have hprune : ∀ {t : Int} {outcome : Outcome} {source : Redrive.WebhookSource} {σ : State}
      {Q : Unit → Unit → State → Prop}, t ≤ σ.now → (∀ σ, t ≤ σ.now → Q () () σ) →
      inboxProtocol.wp (prune outcome t source) Q () σ := by
    intro t outcome source σ Q ht hQ
    exact wp_statementOrThrow (steady_now t) ht (fun σ hσ ht => move_prune hσ ht source) fun σ _ ht _ => hQ _ ht
  refine (wp_bind _ _).mpr ((wp_map _ _).mpr (wp_reenqueue (steady_now σ.now) le_rfl fun _ σ₁ h₁ => ?_))
  refine (wp_bind _ _).mpr ((wp_map _ _).mpr (wp_reenqueue (steady_now σ.now) h₁ fun _ σ₂ h₂ => ?_))
  refine (wp_bind _ _).mpr (hprune h₂ fun σ₃ h₃ => ?_)
  exact hprune h₃ fun _ _ => rfl

theorem InboxOp.safe {c : Program Unit} (h : InboxOp c) : inboxProtocol.Safe c := by
  cases h with
  | ingest script rowId verified => exact safe_ingest script rowId verified
  | handle script ref => exact safe_handle script ref
  | runOnce script => exact safe_runOnce script
  | tick elapsed =>
    intro σ
    refine wp_command fun σ _ _ _ _ => ⟨.of_rows_eq rfl List.prefix_rfl rfl rfl ?_, rfl⟩
    show σ.now ≤ σ.now + elapsed
    omega

end Programs

/-! ## Every run -/

/-- What becomes of a row in a run: it is there, as the event it was and with its mark, or it was marked
more than the retention ago and was acted on. -/
def Lasts (e : InboxEvent) (σ : State) : Prop :=
  (∃ e' ∈ σ.rows, Becomes e e') ∨
    (∃ t, t < daysBefore σ.now (retentionDays e.ref.source) ∧ ∀ t', e.processedAt = some t' → t' = t) ∧
      ∃ d ∈ σ.dispatched, d.ref = e.ref

theorem Lasts.move {e : InboxEvent} {σ σ' : State} (h : Lasts e σ) (hmove : Move σ σ') : Lasts e σ' := by
  rcases h with ⟨e', he', hbecomes⟩ | ⟨⟨t, ht, hmark⟩, d, hd, hr⟩
  · rcases hmove.rows e' he' with ⟨e'', he'', hbecomes'⟩ | ⟨⟨t, hmark, ht⟩, d, hd, hr⟩
    · exact .inl ⟨e'', he'', hbecomes.trans hbecomes'⟩
    · refine .inr ⟨⟨t, ?_, fun t' ht' => ?_⟩, d, hmove.dispatched.subset hd, hr.trans hbecomes.ref⟩
      · have hnow := hmove.now
        rw [hbecomes.ref] at ht
        unfold daysBefore at ht ⊢
        omega
      · have hsame := hbecomes.processedAt t' ht'
        rw [hmark] at hsame
        cases hsame
        rfl
  · refine .inr ⟨⟨t, ?_, hmark⟩, d, hmove.dispatched.subset hd, hr⟩
    have hnow := hmove.now
    unfold daysBefore at ht ⊢
    omega

def Event.sample : Event where
  ref := .stripe "evt_1"
  type := "checkout.session.completed"
  payload := "\x7b\x7d"

end BookingApp.Inbox
