import BookingApp.Interleaving.Within
import BookingApp.Messaging.Fingerprint
import BookingApp.Notification.Sending

/-!
# Delivery callbacks (`notification.service.ts`, `messaging-event.processor.ts`)

The providers report what became of the messages they have accepted. A report is stored
once, handled as often as its job comes, and reaches the row that names its message. The
first verdict that finds a row decides its status (`verdict_decides`), in every run in
which no send job writes its result or its failure to a row that has settled.
-/

set_option autoImplicit false

namespace BookingApp.Delivery

open Interleaving Interleaving.Proto
open Sending (NotificationStatus Outcome SendError Ending Render)

inductive WebhookProvider where
  | RESEND
  | TWILIO
  deriving DecidableEq, Repr

structure MessagingWebhookEvent where
  provider : WebhookProvider
  providerEventId : String
  type : String
  payload : Json String
  processedAt : Option Int := none
  attempts : Nat := 0
  lastError : Option String := none

/-- What a provider says of a message. -/
structure Verdict where
  providerMessageId : String
  delivered : Bool
  error : Option String := none
  deriving DecidableEq, Repr

/-- `DELIVERED` and `FAILED` are both terminal. -/
def settled (status : NotificationStatus) : Bool :=
  status == .DELIVERED || status == .FAILED

/-- A verdict that has been applied to a notification, and the status it found there. -/
structure Report where
  notification : String
  found : NotificationStatus
  delivered : Bool
  error : Option String
  deriving DecidableEq, Repr

/-- The rows and the queue of the send jobs, the stored webhooks, and the verdicts that have reached a
row, in their order. -/
structure State extends Sending.State where
  inbox : List MessagingWebhookEvent := []
  reports : List Report := []

/-- Where a client stands: it has claimed a row and is to call the provider, or it has called it and is
to write the result, or that it failed. -/
inductive Role where
  | idle
  | calling (id : String)
  | writing (id : String)
  deriving DecidableEq, Repr

abbrev world : World where
  State := State
  Role := Role
  Err := Ending
  idle := .idle

abbrev Program : Type → Type := Prog world

/-- The send jobs and the reconciler know the rows and the queue only. -/
def sendingPart : Part Sending.world world where
  get := State.toState
  put rows σ := { σ with toState := rows }
  err e := e
  next
    | .idle, .sending id => .calling id
    | .idle, _ => .idle
    | .calling id, _ => .writing id
    | .writing id, _ => .writing id

/-- What lies outside: the templates, the ids by which the providers know the messages they have
accepted, and the texts of numbers. -/
structure Outside where
  render : Render
  messageId : Nat → String
  numberText : Rat → String

/-- One statement, with whatever becomes of it. -/
def statement {α : Type} (outcome : Outcome) (effect : State → State) (f : State → α) :
    Program (Except SendError α) :=
  match outcome with
  | .done => command (W := world) effect fun σ => .ok (f σ)
  | .refused e => command (W := world) id fun _ => .error e
  | .lost e => command (W := world) effect fun _ => .error e
  | .crashed => .act id (fun _ => .idle) fun _ => .throw .crashed

/-- A statement whose errors are not handled. -/
def statementOrThrow {α : Type} (outcome : Outcome) (effect : State → State) (f : State → α) :
    Program α := do
  match ← statement outcome effect f with
  | .ok a => pure a
  | .error e => .throw (.error e)

/-! ## The row -/

/-- `value.slice(0, 1000)` -/
def sliced (value : String) : String :=
  (value.take 1000).toString

/-- The status that a verdict stands for. -/
def verdictStatus (delivered : Bool) : NotificationStatus :=
  if delivered then .DELIVERED else .FAILED

/-- What a verdict writes. -/
def Verdict.write (input : Verdict) (now : Int) (n : Sending.Notification) : Sending.Notification :=
  { n with
    lastError := (input.error.map sliced).or n.lastError
    status := verdictStatus input.delivered
    deliveredAt := if input.delivered then some now else n.deliveredAt
    failedAt := if input.delivered then n.failedAt else some now }

/-- What the guarded update makes of a row. -/
def Verdict.settle (input : Verdict) (id : String) (now : Int) (n : Sending.Notification) :
    Sending.Notification :=
  if n.id == id && !settled n.status then input.write now n else n

def Verdict.report (input : Verdict) (n : Sending.Notification) : Report where
  notification := n.id
  found := n.status
  delivered := input.delivered
  error := input.error

/-- `notification.updateMany where id, status: notIn [DELIVERED, FAILED]` -/
def State.applyVerdict (id : String) (input : Verdict) (σ : State) : State :=
  { σ with
    rows := σ.rows.map (input.settle id σ.now)
    reports := σ.reports ++ (σ.rows.filter fun n => n.id == id).map input.report }

/-- `applyDeliveryStatus` -/
def applyDeliveryStatus (outside : Outside) (lookup write : Outcome) (input : Verdict) :
    Program (Except SendError Unit) := do
  let found ← statement lookup id fun σ =>
    σ.rows.find? fun n => n.providerMessageId.map outside.messageId == some input.providerMessageId
  match found with
  | .error e => pure (.error e)
  | .ok none => pure (.ok ())
  | .ok (some notification) => statement write (State.applyVerdict notification.id input) fun _ => ()

/-! ## The events -/

def RESEND_DELIVERED : String := "email.delivered"

def RESEND_FAILURES : List String := ["email.bounced", "email.failed"]

def RESEND_COMPLAINED : String := "email.complained"

def TWILIO_DELIVERED : String := "delivered"

def TWILIO_FAILURES : List String := ["undelivered", "failed"]

/-- A text that is there and not empty. -/
def readString (value : Option (Json String)) : Option String :=
  (value.bind Json.text).filter fun text => decide (text ≠ "")

def readResend (event : Json String) : Option Verdict :=
  let data := event.field "data"
  let providerMessageId := (readString (data.bind (Json.field "email_id"))).or
    (readString (data.bind (Json.field "id")))
  match readString (event.field "type"), providerMessageId with
  | some type, some providerMessageId =>
    if type = RESEND_DELIVERED then some { providerMessageId, delivered := true }
    -- Delivered, and complained about.
    else if type = RESEND_COMPLAINED then some { providerMessageId, delivered := true, error := some type }
    else if type ∈ RESEND_FAILURES then some { providerMessageId, delivered := false, error := some type }
    else none
  | _, _ => none

def readTwilio (numberText : Rat → String) (event : Json String) : Option Verdict :=
  match readString (event.field "MessageSid"), readString (event.field "MessageStatus") with
  | some providerMessageId, some status =>
    if status = TWILIO_DELIVERED then some { providerMessageId, delivered := true }
    else if status ∈ TWILIO_FAILURES then
      let code := match event.field "ErrorCode" with
        | some (.num value) => some (numberText value)
        | value => readString value
      some
        { providerMessageId
          delivered := false
          error := some (match code with
            | none => status
            | some code => s!"{status} ({code})") }
    else none
  | _, _ => none

/-- The verdict of an event, if it carries one. -/
def readVerdict (outside : Outside) : WebhookProvider → Json String → Option Verdict
  | WebhookProvider.RESEND, event => readResend event
  | WebhookProvider.TWILIO, event => readTwilio outside.numberText event

inductive RecordOutcome where
  | RECORDED
  | DUPLICATE
  deriving DecidableEq, Repr

/-- The stored event of a provider under an id. -/
def State.event (provider : WebhookProvider) (providerEventId : String) (σ : State) :
    Option MessagingWebhookEvent :=
  σ.inbox.find? fun e => e.provider == provider && e.providerEventId == providerEventId

/-- `messagingWebhookEvent.updateMany where provider, providerEventId` -/
def State.updateEvents (provider : WebhookProvider) (providerEventId : String)
    (f : MessagingWebhookEvent → MessagingWebhookEvent) (σ : State) : State :=
  { σ with
    inbox := σ.inbox.map fun e =>
      if e.provider == provider && e.providerEventId == providerEventId then f e else e }

/-- `InboxRecorder.recordMessaging` -/
def recordMessaging (outcome : Outcome) (provider : WebhookProvider) (id type : String)
    (payload : Json String) : Program RecordOutcome :=
  statementOrThrow outcome
    (fun σ =>
      if (σ.event provider id).isSome then σ
      else { σ with inbox := σ.inbox ++ [{ provider, providerEventId := id, type, payload }] })
    fun σ => if (σ.event provider id).isSome then .DUPLICATE else .RECORDED

/-- Marks an event handled, unless it is marked already. -/
def markProcessed (outcome : Outcome) (provider : WebhookProvider) (providerEventId : String) :
    Program (Except SendError Unit) :=
  statement outcome
    (fun σ => σ.updateEvents provider providerEventId fun e =>
      { e with processedAt := e.processedAt.or (some σ.now) })
    fun _ => ()

/-- Records a failed attempt, leaving the event unprocessed. -/
def markFailed (outcome : Outcome) (provider : WebhookProvider) (providerEventId : String)
    (error : SendError) : Program Unit :=
  statementOrThrow outcome
    (State.updateEvents provider providerEventId fun e =>
      { e with attempts := e.attempts + 1, lastError := some (sliced error.message) })
    fun _ => ()

/-- `MessagingEventProcessor.apply` -/
def apply (outside : Outside) (lookup write : Outcome) (provider : WebhookProvider)
    (payload : Json String) : Program (Except SendError Unit) :=
  match readVerdict outside provider payload with
  | none => pure (.ok ())
  | some verdict => applyDeliveryStatus outside lookup write verdict

/-- `MessagingEventProcessor.handle`. The script says what becomes of each statement. -/
def handle (outside : Outside) (script : Nat → Outcome) (provider : WebhookProvider)
    (providerEventId : String) : Program Unit := do
  match ← statementOrThrow (script 0) id (State.event provider providerEventId) with
  | none => pure ()
  | some event =>
    if event.processedAt ≠ none then pure ()
    else
      let applied ← apply outside (script 1) (script 2) provider event.payload
      let processed ← match applied with
        | .ok () => markProcessed (script 3) provider providerEventId
        | .error e => pure (.error e)
      match processed with
      | .ok () => pure ()
      | .error e => do
        markFailed (script 4) provider providerEventId e
        .throw (.error e)

/-- Send jobs, sweeps of the reconciler, webhooks and their jobs, with whatever becomes of their
statements. -/
inductive DeliveryOp (outside : Outside) : Program Unit → Prop where
  | sending {prog : Sending.Program Unit} (h : Sending.SendOp outside.render prog) :
      DeliveryOp outside (prog.within sendingPart .idle)
  | webhook (outcome : Outcome) (provider : WebhookProvider) (id type : String) (payload : Json String) :
      DeliveryOp outside (discard (recordMessaging outcome provider id type payload))
  | handle (script : Nat → Outcome) (provider : WebhookProvider) (providerEventId : String) :
      DeliveryOp outside (handle outside script provider providerEventId)

/-- A send job writes its result, or its failure, to a row only while the row has not settled. -/
def deliveryConditions : Conditions world where
  Assume _ r σ := match r with
    | .writing id => ∀ n ∈ σ.rows, n.id = id → settled n.status = false
    | _ => True
  Stable _ _ _ := True

/-! ## What one command does -/

/-- A row that has settled stays, unless it is the one that a send job writes its result to. -/
def Rewrites (r : Role) (w w' : Sending.State) : Prop :=
  ∃ f : Sending.Notification → Sending.Notification, w'.rows = w.rows.map f ∧ (∀ n, (f n).id = n.id) ∧
    ∀ n, settled n.status = true → r ≠ .writing n.id → f n = n

/-- What one command of a client in the role `r` does to the rows and to the reports on them. -/
inductive Move (r : Role) (σ σ' : State) : Prop where
  | rows (hrows : Rewrites r σ.toState σ'.toState) (hreports : σ'.reports = σ.reports)
  | verdict (id : String) (input : Verdict) (hσ' : σ' = σ.applyVerdict id input)

/-- The first report on a notification. -/
def State.first (id : String) (σ : State) : Option Report :=
  σ.reports.find? fun report => report.notification == id

/-- The status in which a report leaves its row. -/
def Report.leaves (report : Report) : NotificationStatus :=
  if settled report.found then report.found else verdictStatus report.delivered

/-- The row is as the report has left it: in its status, and with its error if it found the row
unsettled. -/
structure Report.Decides (report : Report) (n : Sending.Notification) : Prop where
  status : n.status = report.leaves
  error : settled report.found = false → ∀ e, report.error = some e → n.lastError = some (sliced e)

/-- The first report on each row decides it. -/
structure Decided (σ : State) : Prop where
  keys : (σ.rows.map Sending.Notification.id).Nodup
  decides : ∀ n ∈ σ.rows, ∀ report, σ.first n.id = some report → report.Decides n

section Steps

variable {σ σ' : State} {w w' : Sending.State} {r : Role} {R : Set Role} {id : String}
  {input : Verdict} {n : Sending.Notification} {report : Report}

theorem settled_verdictStatus (delivered : Bool) : settled (verdictStatus delivered) = true := by
  cases delivered <;> rfl

theorem Report.Decides.settled (h : report.Decides n) : settled n.status = true := by
  rw [h.status, Report.leaves]
  split
  · assumption
  · exact settled_verdictStatus _

/-- A row that has settled is not the one that a send job writes to. -/
theorem ne_writing (hassume : deliveryConditions.Assume R r σ) (hn : n ∈ σ.rows)
    (hsettled : settled n.status = true) : r ≠ .writing n.id := by
  rintro rfl
  have hnot := hassume n hn rfl
  rw [hsettled] at hnot
  cases hnot

@[simp] theorem Verdict.id_settle (now : Int) : (input.settle id now n).id = n.id := by
  unfold Verdict.settle
  split <;> rfl

theorem Verdict.settle_of_settled {now : Int} (h : settled n.status = true) : input.settle id now n = n := by
  simp [Verdict.settle, h]

/-- A row that has settled is there after each command that the conditions allow. -/
theorem Move.keeps_settled (hmove : Move r σ σ') (hassume : deliveryConditions.Assume R r σ)
    (hsettled : settled n.status = true) (hn : n ∈ σ.rows) : n ∈ σ'.rows := by
  cases hmove with
  | rows hrows hreports =>
    obtain ⟨f, hrows, -, hkeeps⟩ := hrows
    rw [hrows]
    have hfixed := hkeeps n hsettled (ne_writing hassume hn hsettled)
    exact List.mem_map.mpr ⟨n, hn, hfixed⟩
  | verdict id input hσ' =>
    subst hσ'
    exact List.mem_map.mpr ⟨n, hn, Verdict.settle_of_settled hsettled⟩

/-- A verdict decides a row that no report has reached before. -/
theorem decides_settle (now : Int) : (input.report n).Decides (input.settle n.id now n) := by
  by_cases hsettled : settled n.status = true
  · rw [Verdict.settle_of_settled hsettled]
    refine ⟨?_, fun hnot => ?_⟩
    · exact (if_pos hsettled).symm
    · exact absurd (hsettled.symm.trans hnot) (by decide)
  · have hwrite : input.settle n.id now n = input.write now n := by
      simp [Verdict.settle, hsettled]
    rw [hwrite]
    refine ⟨?_, fun _ e he => ?_⟩
    · exact (if_neg hsettled).symm
    · change (input.error.map sliced).or n.lastError = some (sliced e)
      rw [show input.error = some e from he]
      rfl

/-- The first report on a row after a verdict is the one there was, or the verdict's own. -/
theorem first_applyVerdict (hkeys : (σ.rows.map Sending.Notification.id).Nodup) (hn : n ∈ σ.rows)
    (hfirst : (σ.applyVerdict id input).first n.id = some report) :
    σ.first n.id = some report ∨ n.id = id ∧ report = input.report n := by
  have happend := hfirst
  unfold State.first State.applyVerdict at happend
  rw [List.find?_append] at happend
  rcases Option.or_eq_some_iff.mp happend with hold | ⟨-, hnew⟩
  · exact .inl hold
  · obtain ⟨m, hm, rfl⟩ := List.mem_map.mp (List.mem_of_find?_eq_some hnew)
    obtain ⟨hmem, hid⟩ := List.mem_filter.mp hm
    have hnotified := List.find?_some hnew
    obtain rfl : m = n := List.inj_on_of_nodup_map hkeys hmem hn (beq_iff_eq.mp hnotified)
    exact .inr ⟨beq_iff_eq.mp hid, rfl⟩

/-- One command, under the conditions on the run. -/
theorem Decided.move (h : Decided σ) (hassume : deliveryConditions.Assume R r σ) (hmove : Move r σ σ') :
    Decided σ' := by
  cases hmove with
  | rows hrows hreports =>
    obtain ⟨f, hrows, hid, hkeeps⟩ := hrows
    refine ⟨?_, fun n' hn' report hreport => ?_⟩
    · rw [hrows, List.map_map]
      simpa [Function.comp_def, hid] using h.keys
    · rw [hrows] at hn'
      obtain ⟨n, hn, rfl⟩ := List.mem_map.mp hn'
      unfold State.first at hreport
      rw [hid, hreports] at hreport
      have hdecides := h.decides n hn report hreport
      rw [hkeeps n hdecides.settled (ne_writing hassume hn hdecides.settled)]
      exact hdecides
  | verdict id input hσ' =>
    subst hσ'
    refine ⟨?_, fun n' hn' report hreport => ?_⟩
    · change ((σ.rows.map (input.settle id σ.now)).map Sending.Notification.id).Nodup
      rw [List.map_map]
      simpa [Function.comp_def] using h.keys
    · obtain ⟨n, hn, rfl⟩ := List.mem_map.mp hn'
      rw [Verdict.id_settle] at hreport
      rcases first_applyVerdict h.keys hn hreport with hold | ⟨rfl, rfl⟩
      · have hdecides := h.decides n hn report hold
        rw [Verdict.settle_of_settled hdecides.settled]
        exact hdecides
      · exact decides_settle σ.now

end Steps

/-- The protocol of the rows: what has settled stays, and the first report decides. -/
def deliveryProtocol : Proto world where
  toConditions := deliveryConditions
  Inv σ _ := Decided σ
  Act r _ σ σ' := Move r σ σ'
  starts h := h
  keeps h _ hassume _ hmove := h.move hassume hmove

section Sending

open Sending (State.claim State.update State.release)

variable {α : Type} {w w' : Sending.State} {r : Role} {id : String} {Q : α → Role → Prop}

theorem Rewrites.of_eq (hrows : w'.rows = w.rows) : Rewrites r w w' :=
  ⟨fun n => n, by simpa using hrows, fun _ => rfl, fun _ _ _ => rfl⟩

/-- A conditional update of rows that have not settled. -/
theorem Rewrites.of_ite {c : Sending.Notification → Bool} {f : Sending.Notification → Sending.Notification}
    (hrows : w'.rows = w.rows.map fun n => if c n then f n else n) (hid : ∀ n, (f n).id = n.id)
    (hc : ∀ n, c n = true → settled n.status = true → r = .writing n.id) : Rewrites r w w' := by
  refine ⟨_, hrows, fun n => ?_, fun n hsettled hne => ?_⟩
  · split
    · exact hid n
    · rfl
  · exact if_neg fun hcn => hne (hc n hcn hsettled)

theorem rewrites_claim : Rewrites r w (w.claim id) := by
  refine .of_ite rfl (fun _ => rfl) fun n hn hsettled => ?_
  have hpending : n.status = .PENDING := by simpa using (Bool.and_eq_true_iff.mp hn).2
  rw [hpending] at hsettled
  cases hsettled

theorem rewrites_release {ids : List String} : Rewrites r w (w.release ids) := by
  refine .of_ite rfl (fun _ => rfl) fun n hn hsettled => ?_
  have hsending : n.status = .SENDING := by simpa using (Bool.and_eq_true_iff.mp hn).2
  rw [hsending] at hsettled
  cases hsettled

theorem rewrites_update {f : Sending.Notification → Sending.Notification} (hid : ∀ n, (f n).id = n.id) :
    Rewrites (.writing id) w (w.update id f) := by
  refine .of_ite rfl hid fun n hn _ => ?_
  rw [beq_iff_eq.mp hn]

theorem does_statement {outcome : Outcome} {role : Sending.State → Sending.Role}
    {failed : SendError → Sending.Role} {effect : Sending.State → Sending.State} {f : Sending.State → α}
    {Q : Except SendError α → Role → Prop} (heffect : ∀ w, Rewrites r w (effect w))
    (hok : ∀ w, Q (.ok (f w)) (sendingPart.next r (role w)))
    (herror : ∀ e, Q (.error e) (sendingPart.next r (failed e))) :
    (Sending.statement outcome role failed effect f).Does sendingPart Rewrites Q r := by
  cases outcome with
  | done => exact fun w => ⟨heffect w, hok w⟩
  | refused e => exact fun w => ⟨.of_eq rfl, herror e⟩
  | lost e => exact fun w => ⟨heffect w, herror e⟩
  | crashed => exact fun w => ⟨.of_eq rfl, trivial⟩

theorem does_statementOrThrow {outcome : Outcome} {role : Sending.State → Sending.Role}
    {effect : Sending.State → Sending.State} {f : Sending.State → α}
    (heffect : ∀ w, Rewrites r w (effect w)) (hok : ∀ w, Q (f w) (sendingPart.next r (role w))) :
    (Sending.statementOrThrow outcome role effect f).Does sendingPart Rewrites Q r :=
  Prog.does_bind.mpr (does_statement heffect hok fun _ => trivial)

theorem does_recordFailure (id : String) (outcome : Outcome) (error : SendError) :
    (Sending.recordFailure outcome id error).Does sendingPart Rewrites (fun _ _ => True) (.writing id) := by
  refine Prog.does_bind.mpr (does_statementOrThrow (fun w => rewrites_update fun _ => rfl) fun w => ?_)
  split <;> trivial

/-- A send job: it claims a row that waits, calls the provider, and writes to the row it has claimed. -/
theorem does_send (render : Render) (script : Nat → Outcome) :
    (Sending.send render script id).Does sendingPart Rewrites (fun _ _ => True) .idle := by
  refine Prog.does_bind.mpr (does_statementOrThrow (fun w => .of_eq rfl) fun w => ?_)
  cases hfind : w.rows.find? fun n => n.id == id with
  | none => trivial
  | some n =>
    dsimp only
    split
    · trivial
    cases render n.kind n.channel n.locale n.payload with
    | error e => trivial
    | ok rendered =>
      refine Prog.does_bind.mpr (does_statementOrThrow (fun w => rewrites_claim) fun w => ?_)
      by_cases hnone : w.claimable n.id = []
      · rw [hnone]
        trivial
      · rw [if_neg hnone, if_neg (by simpa using hnone)]
        have hrecord := does_recordFailure n.id (script 4)
        refine Prog.does_bind.mpr (does_statement (fun w => .of_eq rfl) (fun w => ?_) hrecord)
        refine Prog.does_bind.mpr (does_statement (fun w => ?_) (fun w => trivial) hrecord)
        exact rewrites_update fun _ => rfl

theorem does_enqueueAll (script : Nat → Outcome) (bucket : Int) (k : Nat)
    (stalled : List Sending.Notification) :
    (Sending.enqueueAll script bucket k stalled).Does sendingPart Rewrites (fun _ _ => True) .idle := by
  induction stalled generalizing k with
  | nil => trivial
  | cons n rest ih =>
    exact Prog.does_bind.mpr (does_statementOrThrow (fun w => .of_eq rfl) fun w => ih (k + 1))

theorem does_runOnce (script : Nat → Outcome) :
    (Sending.runOnce script).Does sendingPart Rewrites (fun _ _ => True) .idle := by
  refine Prog.does_bind.mpr (Prog.does_commandAs fun w₁ => ⟨.of_eq rfl, ?_⟩)
  refine Prog.does_bind.mpr (does_statementOrThrow (fun w => .of_eq rfl) fun w₂ => ?_)
  have hidle : sendingPart.next (sendingPart.next .idle Sending.world.idle)
      (if ((script 1).takes && !(Sending.abandoned (w₂.stalled w₁.now)).isEmpty) = true then
        .releasing (Sending.abandoned (w₂.stalled w₁.now)) else .idle) = .idle := by
    split <;> rfl
  rw [hidle]
  have hrest := does_enqueueAll script (w₁.now / Redrive.NOTIFICATION_STALLED_AFTER_MS) 2 (w₂.stalled w₁.now)
  split
  · refine Prog.does_bind.mpr (does_statementOrThrow (fun w => rewrites_release) fun w => ?_)
    exact Prog.does_bind.mpr (Prog.does_mono hrest fun _ _ _ => trivial)
  · exact Prog.does_bind.mpr (Prog.does_mono hrest fun _ _ _ => trivial)

theorem does_sendOp {render : Render} {prog : Sending.Program Unit} (h : Sending.SendOp render prog) :
    prog.Does sendingPart Rewrites (fun _ _ => True) .idle := by
  cases h with
  | send script id => exact Prog.does_map.mpr (does_send render script)
  | sweep script => exact Prog.does_map.mpr (does_runOnce script)
  | wait ms => exact Prog.does_commandAs fun w => ⟨.of_eq rfl, trivial⟩

end Sending

section Callbacks

variable {α : Type} {outcome : Outcome} {effect : State → State} {f : State → α} {σ : State}

/-- A statement of a callback, which is in no role. -/
theorem wp_statement {Q : Except SendError α → Role → State → Prop} (heffect : ∀ σ, Move .idle σ (effect σ))
    (hok : ∀ σ, Q (.ok (f σ)) .idle (effect σ)) (herror : ∀ e σ, Q (.error e) .idle σ) :
    deliveryProtocol.wp (statement outcome effect f) Q .idle σ := by
  have hsame : ∀ σ, Move .idle σ σ := fun σ => .rows (.of_eq rfl) rfl
  cases outcome with
  | done => exact wp_command fun σ' _ R _ _ => ⟨heffect σ', hok σ'⟩
  | refused e => exact wp_command fun σ' _ R _ _ => ⟨hsame σ', herror e σ'⟩
  | lost e => exact wp_command fun σ' _ R _ _ => ⟨heffect σ', herror e _⟩
  | crashed => exact fun σ' _ R _ _ => ⟨hsame σ', rfl⟩

theorem wp_statementOrThrow {Q : α → Role → State → Prop} (heffect : ∀ σ, Move .idle σ (effect σ))
    (hok : ∀ σ, Q (f σ) .idle (effect σ)) :
    deliveryProtocol.wp (statementOrThrow outcome effect f) Q .idle σ :=
  (wp_bind _ _).mpr (wp_statement heffect hok fun _ _ => rfl)

/-- What touches neither the rows nor the reports. -/
theorem Move.of_eq {σ' : State} {r : Role} (hrows : σ'.rows = σ.rows) (hreports : σ'.reports = σ.reports) :
    Move r σ σ' :=
  .rows (.of_eq hrows) hreports

theorem wp_apply (outside : Outside) (lookup write : Outcome) (provider : WebhookProvider)
    (payload : Json String) :
    deliveryProtocol.wp (apply outside lookup write provider payload) (fun _ r _ => r = .idle) .idle σ := by
  unfold apply
  cases readVerdict outside provider payload with
  | none => rfl
  | some verdict =>
    refine (wp_bind _ _).mpr (wp_statement (fun σ => .of_eq rfl rfl) (fun σ => ?_) fun _ _ => rfl)
    cases σ.rows.find? fun n => n.providerMessageId.map outside.messageId == some verdict.providerMessageId with
    | none => rfl
    | some n => exact wp_statement (fun σ => .verdict n.id verdict rfl) (fun _ => rfl) fun _ _ => rfl

theorem safe_recordMessaging (outcome : Outcome) (provider : WebhookProvider) (id type : String)
    (payload : Json String) :
    deliveryProtocol.Safe (discard (recordMessaging outcome provider id type payload)) := by
  refine fun σ => (wp_map _ _).mpr (wp_statementOrThrow (fun σ => ?_) fun _ => rfl)
  split
  · exact .of_eq rfl rfl
  · exact .of_eq rfl rfl

theorem safe_handle (outside : Outside) (script : Nat → Outcome) (provider : WebhookProvider)
    (providerEventId : String) :
    deliveryProtocol.Safe (handle outside script provider providerEventId) := by
  refine fun σ => (wp_bind _ _).mpr (wp_statementOrThrow (fun _ => .of_eq rfl rfl) fun σ₁ => ?_)
  cases σ₁.event provider providerEventId with
  | none => rfl
  | some event =>
    dsimp only
    split
    · rfl
    refine (wp_bind _ _).mpr (wp_mono (wp_apply outside (script 1) (script 2) provider event.payload) ?_)
    rintro applied r σ₂ rfl
    have hfailed : ∀ e σ, deliveryProtocol.wp (do
        markFailed (script 4) provider providerEventId e
        .throw (.error e)) (fun (_ : Unit) r _ => r = .idle) .idle σ := fun e σ =>
      (wp_bind _ _).mpr (wp_statementOrThrow (fun _ => .of_eq rfl rfl) fun _ => rfl)
    cases applied with
    | ok _ => exact (wp_bind _ _).mpr (wp_statement (fun _ => .of_eq rfl rfl) (fun _ => rfl) hfailed)
    | error e => exact hfailed e σ₂

theorem DeliveryOp.safe {outside : Outside} {prog : Program Unit} (h : DeliveryOp outside prog) :
    deliveryProtocol.Safe prog := by
  cases h with
  | sending h =>
    intro σ
    refine wp_within (fun r r' σ w hrows => ?_) (does_sendOp h) fun _ => rfl
    exact Move.rows hrows rfl
  | webhook outcome provider id type payload => exact safe_recordMessaging outcome provider id type payload
  | handle script provider providerEventId => exact safe_handle outside script provider providerEventId

end Callbacks

/-- Verdicts have been reported on the notification, the first of which found the row unsettled, and
all of them say the same of the delivery. -/
def State.Agreed (id : String) (delivered : Bool) (σ : State) : Prop :=
  (∃ report, σ.first id = some report ∧ settled report.found = false) ∧
    ∀ report ∈ σ.reports, report.notification = id → report.delivered = delivered

theorem Decided.status_of_agreed {σ : State} (h : Decided σ) {n : Sending.Notification} (hn : n ∈ σ.rows)
    {delivered : Bool} (hagreed : σ.Agreed n.id delivered) : n.status = verdictStatus delivered := by
  obtain ⟨⟨report, hfirst, hfound⟩, hall⟩ := hagreed
  have hnotified : report.notification = n.id := by
    have hmatch := List.find?_some hfirst
    exact beq_iff_eq.mp hmatch
  have hdelivered := hall report (List.mem_of_find?_eq_some hfirst) hnotified
  rw [(h.decides n hn report hfirst).status, Report.leaves, if_neg (by simp [hfound]), hdelivered]

/-- In every run of send jobs, sweeps, webhooks and their jobs in which a send job writes its result or
its failure only to a row that has not settled: a row that is `DELIVERED` or `FAILED` stays as it is in
every state that follows; the first verdict that reaches a row decides its status, and its error is
kept with it; and two runs in which the verdicts on a row agree leave it in one status, whatever their
order and however often each came. -/
theorem verdict_decides (outside : Outside) {σ₀ : State}
    (hkeys : (σ₀.rows.map Sending.Notification.id).Nodup) (hnone : σ₀.reports = []) {s : Sys world}
    (h : Sys.Reach (DeliveryOp outside) deliveryConditions { state := σ₀ } s) :
    (∀ n ∈ s.state.rows, settled n.status = true → ∀ s', Sys.Reach (DeliveryOp outside) deliveryConditions s s' →
      n ∈ s'.state.rows) ∧
    (∀ n ∈ s.state.rows, ∀ report, s.state.first n.id = some report → report.Decides n) ∧
    ∀ s', Sys.Reach (DeliveryOp outside) deliveryConditions { state := σ₀ } s' →
      ∀ n ∈ s.state.rows, ∀ n' ∈ s'.state.rows, n'.id = n.id → ∀ delivered,
        s.state.Agreed n.id delivered → s'.state.Agreed n.id delivered → n'.status = n.status := by
  have hops : ∀ prog, DeliveryOp outside prog → deliveryProtocol.Safe prog := fun _ hop => hop.safe
  have hstart : Decided σ₀ := by
    refine ⟨hkeys, fun n _ report hfirst => ?_⟩
    simp [State.first, hnone] at hfirst
  have hgood : ∀ {s : Sys world}, Sys.Reach (DeliveryOp outside) deliveryConditions { state := σ₀ } s →
      deliveryProtocol.Good s := fun h =>
    h.good (P := deliveryProtocol) hops (Sys.good_init hstart)
  refine ⟨fun n hn hsettled s' h' => ?_, (hgood h).inv.decides, ?_⟩
  · refine h'.keeps (P := deliveryProtocol) (J := fun σ : State => n ∈ σ.rows) hops (hgood h) ?_ hn
    exact fun R r r' x y _ hassume hmove hx => Move.keeps_settled hmove hassume hsettled hx
  · intro s' h' n hn n' hn' hid delivered hagreed hagreed'
    rw [← hid] at hagreed'
    rw [(hgood h').inv.status_of_agreed hn' hagreed', (hgood h).inv.status_of_agreed hn hagreed]

instance : deliveryConditions.Checkable where
  assume _ r σ := match r with
    | .writing id => σ.rows.all fun n => n.id != id || !settled n.status
    | _ => true
  stable _ _ _ := true
  assume_sound {l r σ} h := by
    cases r with
    | idle => trivial
    | calling id => trivial
    | writing id =>
      intro n hn hid
      have hrow := List.all_eq_true.mp h n hn
      simpa [hid] using hrow
  stable_sound _ := trivial

def Outside.sample : Outside where
  render := Sending.plainTemplate
  messageId k := if k = 0 then "message-0" else "message"
  numberText _ := "0"

def State.sample : State where
  rows := [.sample]

/-- A send job, and then callbacks of the given types, one after the other. -/
def sampleRun (types : List String) : List (Event world) :=
  [.start ((discard (Sending.send Sending.plainTemplate (fun _ => .done) "notification-1")).within
    sendingPart .idle), .run 0, .run 0, .run 0, .run 0] ++
  (types.zipIdx 0).flatMap fun (type, k) =>
    let payload : Json String := .obj [("type", .str type), ("data", .obj [("email_id", .str "message-0")])]
    [.start (discard (recordMessaging .done .RESEND type type payload)),
      .start (handle .sample (fun _ => .done) .RESEND type)] ++
      List.map .run [2 * k + 1, 2 * k + 2, 2 * k + 2, 2 * k + 2, 2 * k + 2]

theorem sampleRun_starts (types : List String) :
    ∀ e ∈ sampleRun types, Sys.Starts (DeliveryOp .sample) e := by
  intro e he
  rcases List.mem_append.mp he with he | he
  · have hsend : DeliveryOp .sample ((discard (Sending.send Sending.plainTemplate (fun _ => .done)
        "notification-1")).within sendingPart .idle) := .sending (.send _ _)
    simp only [List.mem_cons, List.not_mem_nil, or_false] at he
    rcases he with rfl | rfl | rfl | rfl | rfl
    · exact hsend
    all_goals trivial
  · obtain ⟨⟨type, k⟩, -, he⟩ := List.mem_flatMap.mp he
    rcases List.mem_append.mp he with he | he
    · simp only [List.mem_cons, List.not_mem_nil, or_false] at he
      rcases he with rfl | rfl
      · exact .webhook _ _ _ _ _
      · exact .handle _ _ _
    · obtain ⟨i, -, rfl⟩ := List.mem_map.mp he
      trivial

/-- A run of callbacks that goes through, and what is seen of the state at its end. -/
theorem reach_sampleRun {β : Type} (view : State → β) (types : List String) (value : β)
    (hview : (Sys.exec deliveryConditions { state := .sample } (sampleRun types)).map (fun s => view s.state) =
      some value) :
    ∃ s, Sys.Reach (DeliveryOp .sample) deliveryConditions { state := .sample } s ∧ view s.state = value := by
  obtain ⟨s, hs, hvalue⟩ := Option.map_eq_some_iff.mp hview
  exact ⟨s, .exec .refl (sampleRun_starts types) hs, hvalue⟩

/-- The rows, as far as they are identified, and the reports. -/
def State.seen (σ : State) : List String × List Report :=
  (σ.rows.map Sending.Notification.id, σ.reports)

/-- A complaint and the delivery of one message, in one order and in the other. -/
theorem verdict_decides_sample :
    ∃ s s', Sys.Reach (DeliveryOp .sample) deliveryConditions { state := .sample } s ∧
      Sys.Reach (DeliveryOp .sample) deliveryConditions { state := .sample } s' ∧
      ∃ n ∈ s.state.rows, ∃ n' ∈ s'.state.rows, n.lastError = some (sliced "email.complained") ∧
        n'.status = n.status ∧
        ∀ s'', Sys.Reach (DeliveryOp .sample) deliveryConditions s s'' → n ∈ s''.state.rows := by
  obtain ⟨s, hs, hseen⟩ := reach_sampleRun State.seen ["email.complained", "email.delivered"]
    (["notification-1"], [⟨"notification-1", .SENT, true, some "email.complained"⟩,
      ⟨"notification-1", .DELIVERED, true, none⟩]) (by decide +kernel)
  obtain ⟨s', hs', hseen'⟩ := reach_sampleRun State.seen ["email.delivered", "email.complained"]
    (["notification-1"], [⟨"notification-1", .SENT, true, none⟩,
      ⟨"notification-1", .DELIVERED, true, some "email.complained"⟩]) (by decide +kernel)
  obtain ⟨hids, hreports⟩ := Prod.mk.inj hseen
  obtain ⟨hids', hreports'⟩ := Prod.mk.inj hseen'
  obtain ⟨n, hn, hid⟩ := List.mem_map.mp (hids ▸ List.mem_singleton_self "notification-1")
  obtain ⟨n', hn', hid'⟩ := List.mem_map.mp (hids' ▸ List.mem_singleton_self "notification-1")
  have hfirst : s.state.first n.id = some ⟨"notification-1", .SENT, true, some "email.complained"⟩ := by
    rw [State.first, hreports, hid]
    rfl
  have hagreed : s.state.Agreed n.id true := by
    refine ⟨⟨_, hfirst, rfl⟩, ?_⟩
    simp [hreports]
  have hagreed' : s'.state.Agreed n.id true := by
    refine ⟨⟨⟨"notification-1", .SENT, true, none⟩, ?_, rfl⟩, ?_⟩
    · rw [State.first, hreports', hid]
      rfl
    · simp [hreports']
  obtain ⟨hkept, hdecides, horder⟩ := verdict_decides .sample (by decide) rfl hs
  have hdecided := hdecides n hn _ hfirst
  have hstatus := horder s' hs' n hn n' hn' (hid'.trans hid.symm) true hagreed hagreed'
  refine ⟨s, s', hs, hs', n, hn, n', hn', hdecided.error rfl _ rfl, hstatus, hkept n hn hdecided.settled⟩

/-- What the reports say of the notifications, and where the rows end. -/
def State.outcome (σ : State) : List (String × Bool) × List NotificationStatus :=
  (σ.reports.map fun report => (report.notification, report.delivered),
    σ.rows.map Sending.Notification.status)

/-- The delivery and the bounce of one message are reported in one order and in the other. -/
theorem order_decides :
    ¬∀ s s' : Sys world, Sys.Reach (DeliveryOp .sample) deliveryConditions { state := .sample } s →
      Sys.Reach (DeliveryOp .sample) deliveryConditions { state := .sample } s' →
      s.state.outcome.1.Perm s'.state.outcome.1 → s.state.outcome.2 = s'.state.outcome.2 := by
  intro hall
  obtain ⟨s, hs, houtcome⟩ := reach_sampleRun State.outcome ["email.delivered", "email.bounced"]
    ([("notification-1", true), ("notification-1", false)], [.DELIVERED]) (by decide +kernel)
  obtain ⟨s', hs', houtcome'⟩ := reach_sampleRun State.outcome ["email.bounced", "email.delivered"]
    ([("notification-1", false), ("notification-1", true)], [.FAILED]) (by decide +kernel)
  have hsame := hall s s' hs hs'
  rw [houtcome, houtcome'] at hsame
  exact absurd (hsame (.swap _ _ _)) (by decide)

end BookingApp.Delivery
