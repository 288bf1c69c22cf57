import BookingApp.Interleaving.Logic
import BookingApp.Messaging.Redrive
import BookingApp.Store.Schema

/-!
# Sending notifications (`notification.service.ts`, `notification.reconciler.ts`)

The claim of a row, the call of the provider and the write of the result are separate
steps, and each of them may fail or be the last of its worker. A row is put back to
`PENDING` after an error and after a stall. The provider accepts a message for it at
most once in every run in which a row is put back only while no message for it has been
accepted and none is on its way.
-/

set_option autoImplicit false

namespace BookingApp.Sending

open Interleaving Interleaving.Proto

inductive NotificationStatus where
  | PENDING
  | SENDING
  | SENT
  | DELIVERED
  | FAILED
  deriving DecidableEq, Repr

inductive NotificationKind where
  | BOOKING_CONFIRMATION
  | BOOKING_CANCELED_BY_CUSTOMER
  | BOOKING_CANCELED_BY_BUSINESS
  | BOOKING_RESCHEDULED
  | REMINDER_24H
  | CANCELLATION_REQUEST_RECEIVED
  | CANCELLATION_REQUEST_DECIDED
  | RESCHEDULE_REQUEST_RECEIVED
  | RESCHEDULE_REQUEST_DECIDED
  | REFUND_ISSUED
  | OFFICE_NEW_BOOKING
  | OFFICE_CANCELLATION_REQUEST
  | OFFICE_PASSWORD_RESET
  deriving DecidableEq, Repr

structure Notification where
  id : String
  organizationId : String
  kind : NotificationKind
  channel : NotificationChannel
  locale : Locale
  recipient : String
  payload : String
  subject : Option String := none
  status : NotificationStatus := .PENDING
  providerMessageId : Option Nat := none
  attempts : Nat := 0
  lastError : Option String := none
  sentAt : Option Int := none
  deliveredAt : Option Int := none
  failedAt : Option Int := none
  createdAt : Int
  deriving DecidableEq, Repr

/-- What the code can tell of an error: the status code of a refusal, and its message. -/
structure SendError where
  status : Option Int := none
  message : String := ""
  deriving DecidableEq, Repr

/-- `isRetryable` -/
def isRetryable (error : SendError) : Bool :=
  match error.status with
  | some status => decide (500 ≤ status ∨ status = 429)
  | none => true

structure Rendered where
  subject : Option String
  text : String
  html : Option String
  deriving DecidableEq, Repr

/-- The templates: an error leaves the row as it is. -/
abbrev Render : Type :=
  NotificationKind → NotificationChannel → Locale → String → Except SendError Rendered

/-- A message that the provider has accepted, and the notification it was sent for. -/
structure Message where
  notification : String
  channel : NotificationChannel
  recipient : String
  subject : Option String
  body : String
  html : Option String
  deriving DecidableEq, Repr

/-- The rows, what the provider has accepted, and the jobs that the reconciler has put on the queue. -/
structure State where
  now : Int := 0
  rows : List Notification := []
  accepted : List Message := []
  jobs : List (String × String) := []

/-- Where a client stands: it has claimed a row and is to call the provider; it is to record a
failure that puts the row back; it is to release the rows it has found abandoned. -/
inductive Role where
  | idle
  | sending (id : String)
  | failing (id : String)
  | releasing (ids : List String)
  deriving DecidableEq, Repr

inductive Ending where
  | error (e : SendError)
  | notFound
  | crashed

abbrev world : World where
  State := State
  Role := Role
  Err := Ending
  idle := .idle

abbrev Program : Type → Type := Prog world

/-- What becomes of a statement or a call: it is done; it fails; it is done, but fails for its
caller; or the caller has died before it. -/
inductive Outcome where
  | done
  | refused (e : SendError)
  | lost (e : SendError)
  | crashed
  deriving DecidableEq, Repr

/-- The statement takes effect. -/
def Outcome.takes : Outcome → Bool
  | done | lost _ => true
  | _ => false

/-- One statement. Its client is in `role` when it is done and in `failed` after an error, in no role
when it has died. -/
def statement {α : Type} (outcome : Outcome) (role : State → Role) (failed : SendError → Role)
    (effect : State → State) (f : State → α) : Program (Except SendError α) :=
  match outcome with
  | .done => commandAs (W := world) role effect fun σ => .ok (f σ)
  | .refused e => commandAs (W := world) (fun _ => failed e) id fun _ => .error e
  | .lost e => commandAs (W := world) (fun _ => failed e) effect fun _ => .error e
  | .crashed => .act id (fun _ => .idle) fun _ => .throw .crashed

/-- A statement whose errors are not handled. -/
def statementOrThrow {α : Type} (outcome : Outcome) (role : State → Role) (effect : State → State)
    (f : State → α) : Program α := do
  match ← statement outcome role (fun _ => .idle) effect f with
  | .ok a => pure a
  | .error e => .throw (.error e)

namespace State

/-- The rows that a claim of `id` finds. -/
def claimable (id : String) (σ : State) : List Notification :=
  σ.rows.filter fun n => n.id == id && n.status == .PENDING

/-- `notification.updateMany where id, status: PENDING` -/
def claim (id : String) (σ : State) : State :=
  { σ with
    rows := σ.rows.map fun n =>
      if n.id == id && n.status == .PENDING then { n with status := .SENDING } else n }

/-- `notification.update where id` -/
def update (id : String) (f : Notification → Notification) (σ : State) : State :=
  { σ with rows := σ.rows.map fun n => if n.id == id then f n else n }

/-- `notification.updateMany where id in ids, status: SENDING` -/
def release (ids : List String) (σ : State) : State :=
  { σ with
    rows := σ.rows.map fun n =>
      if ids.contains n.id && n.status == .SENDING then { n with status := .PENDING } else n }

end State

/-- `deliver`. The provider answers with the number of the message. -/
def deliver (outcome : Outcome) (failed : SendError → Role) (notification : Notification)
    (rendered : Rendered) : Program (Except SendError Nat) :=
  let message : Message := match notification.channel with
    | .SMS =>
      { notification := notification.id
        channel := .SMS
        recipient := notification.recipient
        subject := none
        body := rendered.text
        html := none }
    | .EMAIL =>
      { notification := notification.id
        channel := .EMAIL
        recipient := notification.recipient
        subject := some (rendered.subject.getD "")
        body := rendered.text
        html := rendered.html }
  statement outcome (fun _ => .idle) failed
    (fun σ => { σ with accepted := σ.accepted ++ [message] }) fun σ => σ.accepted.length

inductive SendOutcome where
  | SENT
  | FAILED
  deriving DecidableEq, Repr

/-- `recordFailure` -/
def recordFailure (outcome : Outcome) (notificationId : String) (error : SendError) :
    Program SendOutcome := do
  statementOrThrow outcome (fun _ => .idle)
    (fun σ => σ.update notificationId fun n =>
      { n with
        attempts := n.attempts + 1
        lastError := some ((error.message.take 1000).toString)
        status := if isRetryable error then .PENDING else .FAILED
        failedAt := if isRetryable error then n.failedAt else some σ.now })
    fun _ => ()
  if isRetryable error then .throw (.error error)
  else pure .FAILED

/-- The role of a client that is to record the failure, if that puts the row back. -/
def failing (outcome : Outcome) (id : String) (error : SendError) : Role :=
  if outcome.takes && isRetryable error then .failing id else .idle

/-- `send`. The script says what becomes of each statement. -/
def send (render : Render) (script : Nat → Outcome) (notificationId : String) : Program SendOutcome := do
  let found ← statementOrThrow (script 0) (fun _ => .idle) id fun σ =>
    σ.rows.find? fun n => n.id == notificationId
  match found with
  | none => .throw .notFound
  | some notification =>
    if notification.status ≠ .PENDING then
      pure (if notification.status = .FAILED then .FAILED else .SENT)
    else
      match render notification.kind notification.channel notification.locale notification.payload with
      | .error e => .throw (.error e)
      | .ok rendered => do
        let count ← statementOrThrow (script 1)
          (fun σ => if σ.claimable notification.id = [] then .idle else .sending notification.id)
          (State.claim notification.id) fun σ => (σ.claimable notification.id).length
        if count = 0 then pure .SENT
        else
          match ← deliver (script 2) (failing (script 4) notification.id) notification rendered with
          | .error e => recordFailure (script 4) notification.id e
          | .ok providerMessageId =>
            let written ← statement (script 3) (fun _ => .idle) (failing (script 4) notification.id)
              (fun σ => σ.update notification.id fun n =>
                { n with
                  status := .SENT
                  sentAt := some σ.now
                  providerMessageId := some providerMessageId
                  subject := rendered.subject.or n.subject })
              fun _ => ()
            match written with
            | .ok () => pure .SENT
            | .error e => recordFailure (script 4) notification.id e

/-- The notifications that stalled, oldest first. -/
def State.stalled (now : Int) (σ : State) : List Notification :=
  ((σ.rows.filter fun n =>
    decide ((n.status = .PENDING ∨ n.status = .SENDING) ∧
      n.createdAt < now - Redrive.NOTIFICATION_STALLED_AFTER_MS)).insertionSort
        fun a b => a.createdAt ≤ b.createdAt).take Redrive.NOTIFICATION_BATCH

/-- Those of them that were claimed. -/
def abandoned (stalled : List Notification) : List String :=
  (stalled.filter fun n => n.status == .SENDING).map Notification.id

/-- The jobs of the notifications that stalled, one after the other. -/
def enqueueAll (script : Nat → Outcome) (bucket : Int) : Nat → List Notification → Program Unit
  | _, [] => pure ()
  | k, n :: rest => do
    statementOrThrow (script k) (fun _ => .idle)
      (fun σ =>
        let jobId := Redrive.jobIdFor ["notify", "retry", n.id, toString bucket]
        { σ with jobs := σ.jobs ++ [(jobId, n.id)] })
      fun _ => ()
    enqueueAll script bucket (k + 1) rest

/-- `NotificationReconciler.runOnce` -/
def runOnce (script : Nat → Outcome) : Program Nat := do
  let now ← command (W := world) id State.now
  let bucket := now / Redrive.NOTIFICATION_STALLED_AFTER_MS
  let stalled ← statementOrThrow (script 0)
    (fun σ =>
      if (script 1).takes && !(abandoned (σ.stalled now)).isEmpty then
        .releasing (abandoned (σ.stalled now))
      else .idle)
    id (State.stalled now)
  if (abandoned stalled).length > 0 then
    statementOrThrow (script 1) (fun _ => .idle) (State.release (abandoned stalled)) fun _ => ()
  enqueueAll script bucket 2 stalled
  pure stalled.length

/-- Time passes. -/
def wait (ms : Nat) : Program Unit :=
  command (W := world) (fun σ => { σ with now := σ.now + ms }) fun _ => ()

/-- Send jobs and sweeps, with whatever becomes of their statements. -/
inductive SendOp (render : Render) : Program Unit → Prop where
  | send (script : Nat → Outcome) (notificationId : String) :
      SendOp render (discard (send render script notificationId))
  | sweep (script : Nat → Outcome) : SendOp render (discard (runOnce script))
  | wait (ms : Nat) : SendOp render (wait ms)

/-- How many messages the provider has accepted for the notification. -/
def State.acceptances (id : String) (σ : State) : Nat :=
  (σ.accepted.map Message.notification).count id

/-- A row is waiting to be claimed. -/
def State.Pending (id : String) (σ : State) : Prop :=
  ∃ n ∈ σ.rows, n.id = id ∧ n.status = .PENDING

/-- A claim of the row is open. -/
def State.claimed (id : String) (σ : State) : Bool :=
  σ.rows.any fun n => n.id == id && n.status == .SENDING

/-- No message for the notification has been accepted, and none is on its way. -/
def Unsent (σ : State) (R : Set Role) (id : String) : Prop :=
  σ.acceptances id = 0 ∧ .sending id ∉ R

/-- A row is put back only while no message for it has been accepted and none is on its way. -/
def sendConditions : Conditions world where
  Assume R r σ := match r with
    | .failing id => Unsent σ R id
    | .releasing ids => ∀ id ∈ ids, σ.claimed id = true → Unsent σ R id
    | _ => True
  Stable _ _ _ := True

/-- What one command does to the rows and to what has been accepted. -/
inductive Move : Role → Role → State → State → Prop where
  /-- No row is put back. -/
  | quiet {r r' : Role} {σ σ' : State} (hr' : ∀ id, r' ≠ .sending id)
      (haccepted : σ'.accepted = σ.accepted) (hrows : ∀ id, σ'.Pending id → σ.Pending id) : Move r r' σ σ'
  | claimed {r : Role} {σ : State} {id : String} (hpending : σ.Pending id) :
      Move r (.sending id) σ (σ.claim id)
  | accepted {r' : Role} {σ σ' : State} {id : String} {m : Message} (hr' : ∀ id, r' ≠ .sending id)
      (hm : m.notification = id) (haccepted : σ'.accepted = σ.accepted ++ [m])
      (hrows : σ'.rows = σ.rows) : Move (.sending id) r' σ σ'
  | failed {r' : Role} {σ σ' : State} {id : String} (hr' : ∀ id, r' ≠ .sending id)
      (haccepted : σ'.accepted = σ.accepted)
      (hrows : ∀ other, σ'.Pending other → σ.Pending other ∨ other = id) : Move (.failing id) r' σ σ'
  | released {r' : Role} {σ σ' : State} {ids : List String} (hr' : ∀ id, r' ≠ .sending id)
      (haccepted : σ'.accepted = σ.accepted)
      (hrows : ∀ id, σ'.Pending id → σ.Pending id ∨ (id ∈ ids ∧ σ.claimed id = true)) :
      Move (.releasing ids) r' σ σ'

/-- The provider has accepted at most one message for each notification. None has been accepted, and
the row is not waiting, while one is on its way; and the row is not waiting after one was accepted. -/
structure SentOnce (σ : State) (R : Set Role) : Prop where
  once : ∀ id, σ.acceptances id ≤ 1
  sending : ∀ id, .sending id ∈ R → σ.acceptances id = 0 ∧ ¬σ.Pending id
  pending : ∀ id, σ.Pending id → σ.acceptances id = 0

section Steps

variable {σ σ' : State} {R : Set Role} {r r' : Role} {id : String}

theorem acceptances_congr (h : σ'.accepted = σ.accepted) (id : String) :
    σ'.acceptances id = σ.acceptances id := by
  unfold State.acceptances
  rw [h]

/-- A claimed row is not waiting, and no other row begins to. -/
theorem pending_claim {other : String} (h : (σ.claim id).Pending other) : σ.Pending other ∧ other ≠ id := by
  obtain ⟨n', hn', hid, hstatus⟩ := h
  obtain ⟨n, hn, rfl⟩ := List.mem_map.mp hn'
  by_cases hmatch : (n.id == id && n.status == .PENDING) = true
  · rw [if_pos hmatch] at hstatus
    cases hstatus
  · rw [if_neg hmatch] at hid hstatus
    refine ⟨⟨n, hn, hid, hstatus⟩, fun hother => hmatch ?_⟩
    simp [hid, hother, hstatus]

theorem SentOnce.sending_notMem (h : SentOnce σ (insert r R)) (hpending : σ.Pending id) :
    .sending id ∉ R :=
  fun hmem => (h.sending id (.inr hmem)).2 hpending

/-- The clients other than this one, when it sends nothing. -/
theorem SentOnce.others (h : SentOnce σ (insert r R)) (hr' : ∀ id, r' ≠ .sending id)
    (hid : .sending id ∈ insert r' R) : .sending id ∈ R ∧ σ.acceptances id = 0 ∧ ¬σ.Pending id := by
  rcases hid with heq | hmem
  · exact absurd heq.symm (hr' id)
  · exact ⟨hmem, h.sending id (.inr hmem)⟩

/-- Rows are put back of which no message has been accepted and none is on its way. -/
theorem SentOnce.putBack (h : SentOnce σ (insert r R)) (hr' : ∀ id, r' ≠ .sending id)
    (haccepted : σ'.accepted = σ.accepted)
    (hrows : ∀ id, σ'.Pending id → σ.Pending id ∨ Unsent σ R id) : SentOnce σ' (insert r' R) := by
  refine ⟨fun id => ?_, fun id hid => ?_, fun id hpending => ?_⟩
  · rw [acceptances_congr haccepted]
    exact h.once id
  · obtain ⟨hmem, hnone, hnot⟩ := h.others hr' hid
    rw [acceptances_congr haccepted]
    refine ⟨hnone, fun hpending => ?_⟩
    rcases hrows id hpending with hold | ⟨-, hunsent⟩
    · exact hnot hold
    · exact hunsent hmem
  · rw [acceptances_congr haccepted]
    rcases hrows id hpending with hold | ⟨hunsent, -⟩
    · exact h.pending id hold
    · exact hunsent

theorem SentOnce.claim (h : SentOnce σ (insert r R)) (hpending : σ.Pending id) :
    SentOnce (σ.claim id) (insert (.sending id) R) := by
  have hsame : ∀ other, (σ.claim id).acceptances other = σ.acceptances other := acceptances_congr rfl
  refine ⟨fun other => ?_, fun other hother => ?_, fun other hother => ?_⟩
  · rw [hsame]
    exact h.once other
  · rw [hsame]
    rcases hother with heq | hmem
    · obtain rfl := Role.sending.inj heq
      exact ⟨h.pending other hpending, fun hclaim => (pending_claim hclaim).2 rfl⟩
    · obtain ⟨hnone, hnot⟩ := h.sending other (.inr hmem)
      exact ⟨hnone, fun hclaim => hnot (pending_claim hclaim).1⟩
  · rw [hsame]
    exact h.pending other (pending_claim hother).1

/-- The only client that sends for the notification has its message accepted. -/
theorem SentOnce.accept (h : SentOnce σ (insert (.sending id) R)) (hown : .sending id ∉ R)
    (hr' : ∀ id, r' ≠ .sending id) {m : Message} (hm : m.notification = id)
    (haccepted : σ'.accepted = σ.accepted ++ [m]) (hrows : σ'.rows = σ.rows) :
    SentOnce σ' (insert r' R) := by
  have hpending : ∀ other, σ'.Pending other → σ.Pending other := by
    intro other hother
    unfold State.Pending at *
    rwa [hrows] at hother
  have hcount : ∀ other, σ'.acceptances other = σ.acceptances other + if id = other then 1 else 0 := by
    intro other
    unfold State.acceptances
    rw [haccepted, List.map_append, List.count_append, List.map_singleton, hm, List.count_singleton]
    simp
  obtain ⟨hnone, hnot⟩ := h.sending id (.inl rfl)
  refine ⟨fun other => ?_, fun other hother => ?_, fun other hother => ?_⟩
  · rw [hcount]
    split
    · next heq => rw [← heq, hnone]
    · exact h.once other
  · obtain ⟨hmem, hnone', hnot'⟩ := h.others hr' hother
    have hne : id ≠ other := fun heq => hown (heq ▸ hmem)
    rw [hcount, if_neg hne]
    exact ⟨hnone', fun hother => hnot' (hpending other hother)⟩
  · have hold := hpending other hother
    have hne : id ≠ other := fun heq => hnot (heq ▸ hold)
    rw [hcount, if_neg hne]
    exact h.pending other hold

/-- One command, under the conditions on the run. -/
theorem SentOnce.move (h : SentOnce σ (insert r R)) (hown : r ∈ {q | ∃ id, q = Role.sending id} → r ∉ R)
    (hassume : sendConditions.Assume R r σ) (hmove : Move r r' σ σ') : SentOnce σ' (insert r' R) := by
  cases hmove with
  | quiet hr' haccepted hrows => exact h.putBack hr' haccepted fun id hid => .inl (hrows id hid)
  | claimed hpending => exact h.claim hpending
  | accepted hr' hm haccepted hrows => exact h.accept (hown ⟨_, rfl⟩) hr' hm haccepted hrows
  | failed hr' haccepted hrows =>
    refine h.putBack hr' haccepted fun other hother => ?_
    rcases hrows other hother with hold | rfl
    · exact .inl hold
    · exact .inr hassume
  | released hr' haccepted hrows =>
    refine h.putBack hr' haccepted fun other hother => ?_
    rcases hrows other hother with hold | ⟨hmem, hclaimed⟩
    · exact .inl hold
    · exact .inr (hassume other hmem hclaimed)

end Steps

/-- The protocol of the rows: one client at a time sends for a notification. -/
def sendProtocol : Proto world where
  toConditions := sendConditions
  Inv := SentOnce
  Act := Move
  Own := {r | ∃ id, r = .sending id}
  idle_notMem := by
    rintro ⟨id, h⟩
    cases h
  starts h := by
    refine ⟨h.once, fun id hid => ?_, h.pending⟩
    rcases hid with heq | hmem
    · cases heq
    · exact h.sending id hmem
  owns h _ hmove hown := by
    obtain ⟨id, rfl⟩ := hown
    cases hmove with
    | quiet hr' => exact absurd rfl (hr' id)
    | claimed hpending => exact h.sending_notMem hpending
    | accepted hr' => exact absurd rfl (hr' id)
    | failed hr' => exact absurd rfl (hr' id)
    | released hr' => exact absurd rfl (hr' id)
  keeps h hown hassume _ hmove := h.move hown hassume hmove

section Programs

variable {α : Type} {σ : State} {r : Role} {outcome : Outcome} {script : Nat → Outcome} {id : String}

/-- A command that leaves the rows and what was accepted alone. -/
theorem quiet_move {r' : Role} (hr' : ∀ id, r' ≠ .sending id) {σ' : State} (hrows : σ'.rows = σ.rows)
    (haccepted : σ'.accepted = σ.accepted) : Move r r' σ σ' := by
  refine .quiet hr' haccepted fun id hpending => ?_
  unfold State.Pending at *
  rwa [hrows] at hpending

/-- A write that puts no row back. -/
theorem pending_of_update {f : Notification → Notification} {other : String}
    (h : (σ.update id f).Pending other) (hid : ∀ n, (f n).id = n.id) :
    σ.Pending other ∨ (other = id ∧ ∃ n, (f n).status = .PENDING) := by
  obtain ⟨n', hn', hother, hstatus⟩ := h
  obtain ⟨n, hn, rfl⟩ := List.mem_map.mp hn'
  by_cases hmatch : (n.id == id) = true
  · rw [if_pos hmatch] at hother hstatus
    exact .inr ⟨hother ▸ hid n ▸ beq_iff_eq.mp hmatch, n, hstatus⟩
  · rw [if_neg hmatch] at hother hstatus
    exact .inl ⟨n, hn, hother, hstatus⟩

theorem pending_of_release {ids : List String} {other : String} (h : (σ.release ids).Pending other) :
    σ.Pending other ∨ (other ∈ ids ∧ σ.claimed other = true) := by
  obtain ⟨n', hn', hother, hstatus⟩ := h
  obtain ⟨n, hn, rfl⟩ := List.mem_map.mp hn'
  by_cases hmatch : (ids.contains n.id && n.status == .SENDING) = true
  · rw [if_pos hmatch] at hother
    obtain ⟨hmem, hsending⟩ := Bool.and_eq_true_iff.mp hmatch
    subst hother
    refine .inr ⟨List.contains_iff_mem.mp hmem, List.any_eq_true.mpr ⟨n, hn, ?_⟩⟩
    simpa using hsending
  · rw [if_neg hmatch] at hother hstatus
    exact .inl ⟨n, hn, hother, hstatus⟩

theorem wp_statement {role : State → Role} {failed : SendError → Role} {effect : State → State}
    {f : State → α} {Q : Except SendError α → Role → State → Prop} (hfailed : ∀ e id, failed e ≠ .sending id)
    (h : ∀ σ' R, SentOnce σ' (insert r R) → sendConditions.Assume R r σ' → outcome.takes = true →
      (∀ r', r' = role σ' ∨ (∃ e, r' = failed e) → Move r r' σ' (effect σ')) ∧
        Q (.ok (f σ')) (role σ') (effect σ'))
    (herror : ∀ e σ', Q (.error e) (failed e) σ') :
    sendProtocol.wp (statement outcome role failed effect f) Q r σ := by
  cases houtcome : outcome with
  | done =>
    refine wp_commandAs fun σ' _ R hinv hassume => ?_
    obtain ⟨hmove, hQ⟩ := h σ' R hinv hassume (by rw [houtcome]; rfl)
    exact ⟨hmove _ (.inl rfl), hQ⟩
  | refused e =>
    refine wp_commandAs fun σ' _ R hinv hassume => ⟨quiet_move (hfailed e) rfl rfl, herror e σ'⟩
  | lost e =>
    refine wp_commandAs fun σ' _ R hinv hassume => ?_
    obtain ⟨hmove, -⟩ := h σ' R hinv hassume (by rw [houtcome]; rfl)
    exact ⟨hmove _ (.inr ⟨e, rfl⟩), herror e _⟩
  | crashed =>
    refine fun σ' _ R _ _ => ⟨quiet_move ?_ rfl rfl, rfl⟩
    rintro id ⟨⟩

theorem wp_statementOrThrow {role : State → Role} {effect : State → State} {f : State → α}
    {Q : α → Role → State → Prop}
    (h : ∀ σ' R, SentOnce σ' (insert r R) → sendConditions.Assume R r σ' → outcome.takes = true →
      (∀ r', r' = role σ' ∨ r' = .idle → Move r r' σ' (effect σ')) ∧ Q (f σ') (role σ') (effect σ')) :
    sendProtocol.wp (statementOrThrow outcome role effect f) Q r σ := by
  refine (wp_bind _ _).mpr (wp_statement (by simp) (fun σ' R hinv hassume htakes => ?_) fun e σ' => rfl)
  obtain ⟨hmove, hQ⟩ := h σ' R hinv hassume htakes
  exact ⟨fun r' hr' => hmove r' (hr'.imp_right fun ⟨_, he⟩ => he), hQ⟩

theorem failing_ne_sending (e : SendError) (other : String) : failing outcome id e ≠ .sending other := by
  unfold failing
  split <;> simp

theorem wp_recordFailure (e : SendError) :
    sendProtocol.wp (recordFailure outcome id e) (fun _ r _ => r = .idle) (failing outcome id e) σ := by
  refine (wp_bind _ _).mpr (wp_statementOrThrow fun σ₁ R _ _ htakes => ⟨?_, ?_⟩)
  · rintro r' hr'
    obtain rfl : r' = .idle := or_self_iff.mp hr'
    unfold failing
    rw [htakes]
    by_cases hretry : isRetryable e = true
    · simp only [hretry, Bool.and_self, if_true]
      exact .failed (by simp) rfl fun other hother => (pending_of_update hother fun _ => rfl).imp_right And.left
    · simp only [hretry, Bool.and_false]
      refine .quiet (by simp) rfl fun other hother => ?_
      refine (pending_of_update hother fun _ => rfl).resolve_right ?_
      rintro ⟨-, n, hstatus⟩
      cases hstatus
  · split
    · rfl
    · rfl

theorem State.pending_iff : σ.Pending id ↔ σ.claimable id ≠ [] := by
  simp [State.Pending, State.claimable]

/-- The call of a client that has claimed the row. -/
theorem wp_deliver {n : Notification} {rendered : Rendered} {failed : SendError → Role}
    {Q : Except SendError Nat → Role → State → Prop} (hfailed : ∀ e id, failed e ≠ .sending id)
    (hok : ∀ k σ', Q (.ok k) .idle σ') (herror : ∀ e σ', Q (.error e) (failed e) σ') :
    sendProtocol.wp (deliver outcome failed n rendered) Q (.sending n.id) σ := by
  refine wp_statement hfailed (fun σ' R _ _ _ => ⟨fun r' hr' => ?_, hok _ _⟩) herror
  have hsends : ∀ id, r' ≠ .sending id := by
    rcases hr' with rfl | ⟨e, rfl⟩
    · simp
    · exact hfailed e
  refine .accepted hsends ?_ rfl rfl
  cases n.channel <;> rfl

/-- The write of the result, and the record of its failure. -/
theorem wp_result {id : String} {f : State → Notification → Notification} (hid : ∀ σ n, (f σ n).id = n.id)
    (hstatus : ∀ σ n, (f σ n).status ≠ .PENDING) (failureOutcome : Outcome) :
    sendProtocol.wp (do
      let written ← statement outcome (fun _ => .idle) (failing failureOutcome id)
        (fun σ => σ.update id (f σ)) fun _ => ()
      match written with
      | .ok () => pure .SENT
      | .error e => recordFailure failureOutcome id e) (fun _ r _ => r = .idle) .idle σ := by
  refine (wp_bind _ _).mpr (wp_statement failing_ne_sending (fun σ' R _ _ _ => ⟨fun r' hr' => ?_, rfl⟩)
    fun e σ' => wp_recordFailure e)
  have hsends : ∀ other, r' ≠ .sending other := by
    rcases hr' with rfl | ⟨e, rfl⟩
    · simp
    · exact failing_ne_sending e
  refine .quiet hsends rfl fun other hother => ?_
  refine (pending_of_update hother (hid σ')).resolve_right ?_
  rintro ⟨-, n, hn⟩
  exact hstatus σ' n hn

theorem safe_send (render : Render) (script : Nat → Outcome) (id : String) :
    sendProtocol.Safe (discard (send render script id)) := by
  intro σ
  refine (wp_map _ _).mpr ((wp_bind _ _).mpr (wp_statementOrThrow fun σ₁ _ _ _ _ => ⟨?_, ?_⟩))
  · rintro r' hr'
    obtain rfl : r' = .idle := or_self_iff.mp hr'
    exact quiet_move (by simp) rfl rfl
  cases hfind : σ₁.rows.find? fun n => n.id == id with
  | none => rfl
  | some n =>
    dsimp only
    split
    · rfl
    cases hrender : render n.kind n.channel n.locale n.payload with
    | error e => rfl
    | ok rendered =>
      refine (wp_bind _ _).mpr (wp_statementOrThrow fun σ₂ R _ _ _ => ⟨fun r' hr' => ?_, ?_⟩)
      · by_cases hclaim : r' = .sending n.id
        · subst hclaim
          refine .claimed (State.pending_iff.mpr fun hnone => ?_)
          rw [if_pos hnone] at hr'
          simp at hr'
        · have hidle : r' = .idle := by
            rcases hr' with hr' | hr'
            · split at hr'
              · exact hr'
              · exact absurd hr' hclaim
            · exact hr'
          subst hidle
          exact .quiet (by simp) rfl fun other hother => (pending_claim hother).1
      · by_cases hnone : σ₂.claimable n.id = []
        · rw [if_pos hnone, hnone]
          rfl
        · rw [if_neg hnone, if_neg (by simpa using hnone)]
          refine (wp_bind _ _).mpr (wp_deliver failing_ne_sending (fun k σ₃ => ?_) fun e σ₃ => ?_)
          · refine wp_result ?_ ?_ (script 4)
            · exact fun _ _ => rfl
            · simp
          · exact wp_recordFailure e

theorem safe_enqueueAll (script : Nat → Outcome) (bucket : Int) (k : Nat) (stalled : List Notification)
    (σ : State) :
    sendProtocol.wp (enqueueAll script bucket k stalled) (fun _ r _ => r = .idle) .idle σ := by
  induction stalled generalizing k σ with
  | nil => rfl
  | cons n rest ih =>
    refine (wp_bind _ _).mpr (wp_statementOrThrow fun σ' _ _ _ _ => ⟨fun r' hr' => ?_, ih (k + 1) _⟩)
    obtain rfl : r' = .idle := or_self_iff.mp hr'
    exact quiet_move (by simp) rfl rfl

theorem safe_runOnce (script : Nat → Outcome) : sendProtocol.Safe (discard (runOnce script)) := by
  intro σ
  refine (wp_map _ _).mpr ((wp_bind _ _).mpr (wp_command fun σ₁ _ _ _ _ => ⟨quiet_move ?_ rfl rfl, ?_⟩))
  · rintro id ⟨⟩
  refine (wp_bind _ _).mpr (wp_statementOrThrow fun σ₂ _ _ _ _ => ⟨fun r' hr' => ?_, ?_⟩)
  · refine quiet_move (fun id => ?_) rfl rfl
    rcases hr' with rfl | rfl
    · split <;> simp
    · simp
  have hrest : ∀ σ', sendProtocol.wp (do
      enqueueAll script (State.now σ₁ / Redrive.NOTIFICATION_STALLED_AFTER_MS) 2 (σ₂.stalled σ₁.now)
      pure (σ₂.stalled σ₁.now).length) (fun _ r _ => r = .idle) .idle σ' := fun σ' =>
    (wp_bind _ _).mpr (wp_mono (safe_enqueueAll script _ 2 _ σ') fun _ _ _ h => h)
  by_cases hnone : abandoned (σ₂.stalled σ₁.now) = []
  · simp only [hnone, List.isEmpty_nil, Bool.not_true, Bool.and_false, List.length_nil, lt_self_iff_false,
      if_false]
    exact hrest σ₂
  · have hsome : 0 < (abandoned (σ₂.stalled σ₁.now)).length := List.length_pos_iff.mpr hnone
    rw [if_pos hsome]
    refine (wp_bind _ _).mpr (wp_statementOrThrow fun σ₃ R _ _ htakes => ⟨fun r' hr' => ?_, hrest _⟩)
    obtain rfl : r' = .idle := or_self_iff.mp hr'
    have hempty : (abandoned (σ₂.stalled σ₁.now)).isEmpty = false := by simpa using hnone
    rw [if_pos (by rw [htakes, hempty]; rfl)]
    exact .released (by simp) rfl fun other hother => pending_of_release hother

theorem SendOp.safe {render : Render} {prog : Program Unit} (h : SendOp render prog) :
    sendProtocol.Safe prog := by
  cases h with
  | send script id => exact safe_send render script id
  | sweep script => exact safe_runOnce script
  | wait ms => exact fun σ => wp_command fun σ' _ _ _ _ => ⟨quiet_move (by rintro id ⟨⟩) rfl rfl, rfl⟩

end Programs

/-- In every run of send jobs and sweeps in which a row is put back only while no message for it has
been accepted and none is on its way, the provider accepts at most one message for each notification. -/
theorem accepted_once (render : Render) {σ₀ : State} (hnone : σ₀.accepted = []) {s : Sys world}
    (h : Sys.Reach (SendOp render) sendConditions { state := σ₀ } s) (id : String) :
    s.state.acceptances id ≤ 1 := by
  have hstart : SentOnce σ₀ ∅ := by
    have hzero : ∀ id, σ₀.acceptances id = 0 := fun id => by simp [State.acceptances, hnone]
    exact ⟨fun id => by simp [hzero id], fun id hid => hid.elim, fun id _ => hzero id⟩
  exact (h.good (P := sendProtocol) (fun _ hop => hop.safe) (Sys.good_init hstart)).inv.once id

instance : sendConditions.Checkable where
  assume l r σ := match r with
    | .failing id => σ.acceptances id == 0 && !l.contains (.sending id)
    | .releasing ids => ids.all fun id =>
        !σ.claimed id || (σ.acceptances id == 0 && !l.contains (.sending id))
    | _ => true
  stable _ _ _ := true
  assume_sound {l r σ} h := by
    cases r with
    | idle => trivial
    | sending id => trivial
    | failing id => simpa [sendConditions, Unsent] using h
    | releasing ids =>
      intro id hid hclaimed
      have hsafe := List.all_eq_true.mp h id hid
      simpa [hclaimed, Unsent] using hsafe
  stable_sound _ := trivial

/-- A template that says the same whatever the notification. -/
def plainTemplate : Render := fun _ _ _ _ => .ok { subject := none, text := "text", html := none }

def Notification.sample : Notification where
  id := "notification-1"
  organizationId := "org-1"
  kind := .BOOKING_CONFIRMATION
  channel := .EMAIL
  locale := .de
  recipient := "a@b"
  payload := "{}"
  createdAt := 0

/-- The statement with the number `k` fails, the others are done. -/
def failsAt (k : Nat) : Nat → Outcome := fun j => if j = k then .refused {} else .done

/-- The call fails before it reaches the provider, and the retry sends. -/
def retriedCall : List (Event world) :=
  [.start (discard (send plainTemplate (failsAt 2) "notification-1")), .run 0, .run 0, .run 0, .run 0,
    .start (discard (send plainTemplate (fun _ => .done) "notification-1")), .run 1, .run 1, .run 1, .run 1]

/-- The provider accepts the message, the write of the result fails, and the retry sends again. -/
def retriedResult : List (Event world) :=
  [.start (discard (send plainTemplate (failsAt 3) "notification-1")), .run 0, .run 0, .run 0, .run 0, .run 0,
    .start (discard (send plainTemplate (fun _ => .done) "notification-1")), .run 1, .run 1, .run 1, .run 1]

theorem accepted_once_sample :
    ∃ s, Sys.Reach (SendOp plainTemplate) sendConditions { state := { rows := [.sample] } } s ∧
      s.state.accepted.length = 1 ∧ s.state.acceptances "notification-1" ≤ 1 := by
  have hexec : (Sys.exec sendConditions { state := { rows := [.sample] } } retriedCall).map
      (fun s => s.state.accepted.length) = some 1 := by rfl
  obtain ⟨s, hs, hlength⟩ := Option.map_eq_some_iff.mp hexec
  have hreach : Sys.Reach (SendOp plainTemplate) sendConditions { state := { rows := [.sample] } } s := by
    refine .exec .refl ?_ hs
    simp [retriedCall, Sys.Starts, SendOp.send]
  exact ⟨s, hreach, hlength, accepted_once plainTemplate rfl hreach "notification-1"⟩

/-- Two messages are accepted for one notification. -/
theorem accepted_twice :
    ¬∀ s, Sys.Reach (SendOp plainTemplate) .none { state := { rows := [.sample] } } s →
      s.state.acceptances "notification-1" ≤ 1 := by
  intro hall
  have hexec : (Sys.exec (W := world) .none { state := { rows := [.sample] } } retriedResult).map
      (fun s => s.state.acceptances "notification-1") = some 2 := by rfl
  obtain ⟨s, hs, hcount⟩ := Option.map_eq_some_iff.mp hexec
  have hreach : Sys.Reach (SendOp plainTemplate) .none { state := { rows := [.sample] } } s := by
    refine .exec .refl ?_ hs
    simp [retriedResult, Sys.Starts, SendOp.send]
  have hle := hall s hreach
  omega

end BookingApp.Sending
