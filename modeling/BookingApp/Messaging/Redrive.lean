import Mathlib.Data.List.Sort

/-!
# Re-driving rows (`expiry.sweeper.ts`, `inbox.reconciler.ts`, `notification.reconciler.ts`)

Three reconcilers put the job of a row that got stuck back on a queue, each under
an id it composes from the row. A queue adds nothing under an id that it still
retains, finished jobs included, and says nothing about it. So a row that is
counted as re-driven is runnable exactly when the id was free, or a job for the
row was runnable anyway (`redrive_runnable_iff`).
-/

set_option autoImplicit false

namespace BookingApp

namespace Redrive

inductive JobState where
  | waiting
  | delayed
  | active
  | completed
  | failed
  deriving DecidableEq, Repr

/-- A job that a queue retains, and the row in its payload. -/
structure Job where
  id : String
  row : String
  state : JobState := .waiting
  attemptsMade : Nat := 0
  deriving DecidableEq, Repr

/-- `DEFAULT_JOB_OPTIONS.attempts` -/
def ATTEMPTS : Nat := 8

def Job.runnable (job : Job) : Bool :=
  decide (job.state = .waiting ∨ job.state = .delayed ∨ job.state = .active)

/-- `Queue.add` with a job id: nothing, if the id is retained. -/
def add (id row : String) (queue : List Job) : List Job :=
  if queue.any fun job => decide (job.id = id) then queue else queue ++ [{ id := id, row := row }]

/-- Some job for the row will run, or is running. -/
def Runnable (queue : List Job) (row : String) : Prop :=
  ∃ job ∈ queue, job.row = row ∧ job.runnable = true

instance (queue : List Job) (row : String) : Decidable (Runnable queue row) :=
  inferInstanceAs (Decidable (∃ job ∈ queue, _))

inductive QueueName where
  | BOOKING
  | WEBHOOK
  | NOTIFICATION
  deriving DecidableEq, Repr

inductive BookingState where
  | EXPIRING
  | OTHER
  deriving DecidableEq, Repr

structure BookingRow where
  id : String
  status : BookingState
  updatedAt : Int
  deriving DecidableEq, Repr

inductive WebhookSource where
  | STRIPE
  | MESSAGING
  deriving DecidableEq, Repr

structure InboxRow where
  id : String
  source : WebhookSource
  processedAt : Option Int := none
  attempts : Nat := 0
  receivedAt : Int
  deriving DecidableEq, Repr

inductive NotificationState where
  | PENDING
  | SENDING
  | OTHER
  deriving DecidableEq, Repr

structure NotificationRow where
  id : String
  status : NotificationState
  createdAt : Int
  deriving DecidableEq, Repr

structure Rows where
  bookings : List BookingRow := []
  inbox : List InboxRow := []
  notifications : List NotificationRow := []

def STUCK_EXPIRING_AFTER_MS : Int := 2 * 60000

def EXPIRY_SWEEP_BATCH : Nat := 200

def INBOX_STALLED_AFTER_MS : Int := 5 * 60000

def INBOX_MAX_ATTEMPTS : Nat := 10

def INBOX_BATCH_SIZE : Nat := 100

def NOTIFICATION_STALLED_AFTER_MS : Int := 15 * 60000

def NOTIFICATION_BATCH : Nat := 200

/-- `jobIdFor` -/
def jobIdFor (parts : List String) : String :=
  String.intercalate "-" parts

/-- One `add` of a reconciler: the row it is about and the id it composes. -/
structure Entry where
  queue : QueueName
  row : String
  jobId : String
  deriving DecidableEq, Repr

/-- Re-drive bookings stuck in EXPIRING. -/
def sweepStuckExpiring (now : Int) (rows : Rows) : List Entry :=
  let cutoff := now - STUCK_EXPIRING_AFTER_MS
  let stuck := (rows.bookings.filter fun b =>
    decide (b.status = .EXPIRING ∧ b.updatedAt < cutoff)).insertionSort
      fun a b => a.updatedAt ≤ b.updatedAt
  (stuck.take EXPIRY_SWEEP_BATCH).map fun b =>
    { queue := .BOOKING, row := b.id, jobId := jobIdFor ["expiry", "retry", b.id] }

/-- The job id for an inbox row, which is also the one of its first job. -/
def inboxJobId (rowId : String) : String :=
  jobIdFor ["inbox", rowId]

/-- `reenqueueStripe` and `reenqueueMessaging`. -/
def reenqueueInbox (now : Int) (source : WebhookSource) (rows : Rows) : List Entry :=
  let cutoff := now - INBOX_STALLED_AFTER_MS
  let stalled := (rows.inbox.filter fun r => decide (r.source = source ∧ r.processedAt = none ∧
    r.attempts < INBOX_MAX_ATTEMPTS ∧ r.receivedAt < cutoff)).insertionSort
      fun a b => a.receivedAt ≤ b.receivedAt
  (stalled.take INBOX_BATCH_SIZE).map fun r =>
    { queue := .WEBHOOK, row := r.id, jobId := inboxJobId r.id }

/-- `InboxReconciler.runOnce`, as far as it re-enqueues. -/
def inboxRunOnce (now : Int) (rows : Rows) : List Entry :=
  reenqueueInbox now .STRIPE rows ++ reenqueueInbox now .MESSAGING rows

/-- The notifications that stalled. -/
def stalledNotifications (now : Int) (rows : Rows) : List NotificationRow :=
  let cutoff := now - NOTIFICATION_STALLED_AFTER_MS
  ((rows.notifications.filter fun n =>
    decide ((n.status = .PENDING ∨ n.status = .SENDING) ∧ n.createdAt < cutoff)).insertionSort
      fun a b => a.createdAt ≤ b.createdAt).take NOTIFICATION_BATCH

/-- `NotificationReconciler.runOnce`: one id for each row and stall window. -/
def notificationRunOnce (now : Int) (rows : Rows) : List Entry :=
  let bucket := now / NOTIFICATION_STALLED_AFTER_MS
  (stalledNotifications now rows).map fun n =>
    { queue := .NOTIFICATION, row := n.id
      jobId := jobIdFor ["notify", "retry", n.id, toString bucket] }

/-- Abandoned notifications are released before they are re-enqueued. -/
def releaseAbandoned (now : Int) (rows : Rows) : Rows :=
  let abandoned := ((stalledNotifications now rows).filter fun n =>
    decide (n.status = .SENDING)).map NotificationRow.id
  { rows with notifications := rows.notifications.map fun n =>
      if n.id ∈ abandoned ∧ n.status = .SENDING then { n with status := .PENDING } else n }

/-- A run of a reconciler: what it has still to add, and whether it goes on after an error. -/
structure Run where
  entries : List Entry
  goesOn : Bool

/-- The rows, the queues, and the reconciler runs under way. -/
structure State where
  rows : Rows := {}
  queues : QueueName → List Job := fun _ => []
  runs : List Run := []

/-- What happens next. Rows are written by services and workers in any way, and jobs are added by
other callers under any id. The worker of a queue takes a job up, completes it, fails an attempt
or loses it, a delay ends, and a finished job is removed by its retention. A reconciler begins,
and it makes its next `add`, which fails or not. -/
inductive Event where
  | write (change : Rows → Rows)
  | enqueue (queue : QueueName) (id row : String)
  | start (queue : QueueName) (id : String)
  | complete (queue : QueueName) (id : String)
  | fail (queue : QueueName) (id : String)
  | stalled (queue : QueueName) (id : String)
  | promote (queue : QueueName) (id : String)
  | remove (queue : QueueName) (id : String)
  | sweepStuckExpiring (now : Int)
  | inbox (now : Int)
  | notifications (now : Int)
  | redrive (run : Nat) (ok : Bool)

/-- The queue `name` becomes what `f` makes of it. -/
def State.onQueue (s : State) (name : QueueName) (f : List Job → List Job) : State :=
  { s with queues := fun other => if other = name then f (s.queues name) else s.queues other }

/-- The jobs under this id that are in the state `before`, changed. -/
def changeJob (id : String) (before : JobState) (f : Job → Job) (queue : List Job) : List Job :=
  queue.map fun job => if job.id = id ∧ job.state = before then f job else job

/-- A failed attempt is made again later, as long as there are attempts left. -/
def failAttempt (job : Job) : Job :=
  { job with
    attemptsMade := job.attemptsMade + 1
    state := if job.attemptsMade + 1 < ATTEMPTS then .delayed else .failed }

/-- The next entry of a run, which is counted if its `add` reports no error. -/
def State.next (s : State) (i : Nat) : Option Entry := do
  (← s.runs[i]?).entries.head?

/-- The run `i` makes its next `add`. -/
def State.redrive (s : State) (i : Nat) (ok : Bool) : Option State := do
  let run ← s.runs[i]?
  match run.entries with
  | [] => none
  | entry :: rest =>
    if ok then
      let s' := s.onQueue entry.queue (add entry.jobId entry.row)
      return { s' with runs := s.runs.set i { run with entries := rest } }
    else return { s with runs := s.runs.set i { run with entries := if run.goesOn then rest else [] } }

def step (s : State) : Event → Option State
  | .write change => some { s with rows := change s.rows }
  | .enqueue queue id row => some (s.onQueue queue (add id row))
  | .start queue id => some (s.onQueue queue (changeJob id .waiting fun job =>
      { job with state := .active }))
  | .complete queue id => some (s.onQueue queue (changeJob id .active fun job =>
      { job with state := .completed }))
  | .fail queue id => some (s.onQueue queue (changeJob id .active failAttempt))
  | .stalled queue id => some (s.onQueue queue (changeJob id .active fun job =>
      { job with state := .waiting }))
  | .promote queue id => some (s.onQueue queue (changeJob id .delayed fun job =>
      { job with state := .waiting }))
  | .remove queue id => some (s.onQueue queue (List.filter fun job =>
      !decide (job.id = id ∧ (job.state = .completed ∨ job.state = .failed))))
  | .sweepStuckExpiring now =>
    some { s with runs := s.runs ++ [⟨BookingApp.Redrive.sweepStuckExpiring now s.rows, true⟩] }
  | .inbox now => some { s with runs := s.runs ++ [⟨inboxRunOnce now s.rows, false⟩] }
  | .notifications now =>
    some { s with
      rows := releaseAbandoned now s.rows
      runs := s.runs ++ [⟨notificationRunOnce now s.rows, false⟩] }
  | .redrive i ok => s.redrive i ok

/-- A run of the system. -/
def exec (s : State) : List Event → Option State
  | [] => some s
  | e :: rest => (step s e).bind fun s' => exec s' rest

/-- Every step of the run is enabled, and of such a kind. -/
def Along (p : State → Event → State → Prop) : State → List Event → Prop
  | _, [] => True
  | s, e :: rest => ∃ s', step s e = some s' ∧ p s e s' ∧ Along p s' rest

/-- A row that a reconciler counts has a job that will run, right after its `add`. -/
def Driven (s : State) (e : Event) (s' : State) : Prop :=
  ∀ i entry, e = .redrive i true → s.next i = some entry →
    Runnable (s'.queues entry.queue) entry.row

/-- When a reconciler adds the job of a row, the id is free, or a job for the row is runnable. -/
def Unretained (s : State) (e : Event) (_ : State) : Prop :=
  ∀ i entry, e = .redrive i true → s.next i = some entry →
    (∀ job ∈ s.queues entry.queue, job.id ≠ entry.jobId) ∨
      Runnable (s.queues entry.queue) entry.row

/-- What an `add` leaves in the queue. -/
theorem runnable_add {id row : String} {queue : List Job} :
    Runnable (add id row queue) row ↔ (∀ job ∈ queue, job.id ≠ id) ∨ Runnable queue row := by
  unfold add
  split
  · rename_i hretained
    obtain ⟨job, hjob, hid⟩ := List.any_eq_true.mp hretained
    have htaken : ¬ ∀ job ∈ queue, job.id ≠ id := fun hfree => hfree job hjob (by simpa using hid)
    simp [htaken]
  · rename_i hfree
    have hfree : ∀ job ∈ queue, job.id ≠ id := by simpa using hfree
    refine ⟨fun _ => .inl hfree, fun _ => ?_⟩
    exact ⟨{ id := id, row := row }, by simp, rfl, rfl⟩

/-- What the next entry of a run adds. -/
theorem redrive_queues {s s' : State} {i : Nat} {entry : Entry} (hnext : s.next i = some entry)
    (hstep : step s (.redrive i true) = some s') :
    s'.queues entry.queue = add entry.jobId entry.row (s.queues entry.queue) := by
  obtain ⟨run, hrun, hhead⟩ := Option.bind_eq_some_iff.mp hnext
  obtain ⟨run', hrun', hstep⟩ := Option.bind_eq_some_iff.mp hstep
  obtain rfl : run = run' := Option.some.inj (hrun.symm.trans hrun')
  obtain ⟨rest, hentries⟩ := List.head?_eq_some_iff.mp hhead
  simp only [hentries, if_true, Option.pure_def, Option.some.injEq] at hstep
  subst hstep
  simp [State.onQueue]

/-- A row that is counted is runnable exactly when its id was free, or it was runnable anyway. -/
theorem driven_iff {s s' : State} {e : Event} (hstep : step s e = some s') :
    Driven s e s' ↔ Unretained s e s' := by
  have hadd : ∀ i entry, e = .redrive i true → s.next i = some entry →
      s'.queues entry.queue = add entry.jobId entry.row (s.queues entry.queue) := by
    rintro i entry rfl hnext
    exact redrive_queues hnext hstep
  constructor <;> intro h i entry he hnext
  · exact runnable_add.mp (hadd i entry he hnext ▸ h i entry he hnext)
  · exact hadd i entry he hnext ▸ runnable_add.mpr (h i entry he hnext)

/-- In a run, no re-drive is swallowed exactly when each finds its id free or its row runnable. -/
theorem along_driven_iff (s : State) (run : List Event) :
    Along Driven s run ↔ Along Unretained s run := by
  induction run generalizing s with
  | nil => exact Iff.rfl
  | cons e rest ih =>
    constructor
    · rintro ⟨s', hstep, hdriven, hrest⟩
      exact ⟨s', hstep, (driven_iff hstep).mp hdriven, (ih s').mp hrest⟩
    · rintro ⟨s', hstep, hunretained, hrest⟩
      exact ⟨s', hstep, (driven_iff hstep).mpr hunretained, (ih s').mpr hrest⟩

/-- The last step of a run is of the kind they all are. -/
theorem Along.last {p : State → Event → State → Prop} {s s₁ s₂ : State} {run : List Event}
    {e : Event} (h : Along p s (run ++ [e])) (hrun : exec s run = some s₁)
    (hstep : step s₁ e = some s₂) : p s₁ e s₂ := by
  induction run generalizing s with
  | nil =>
    obtain rfl := Option.some.inj hrun
    obtain ⟨s', hstep', hp, -⟩ := h
    obtain rfl := Option.some.inj (hstep.symm.trans hstep')
    exact hp
  | cons a rest ih =>
    obtain ⟨s', hstep', -, hrest⟩ := h
    obtain ⟨t, ht, hrun⟩ := Option.bind_eq_some_iff.mp hrun
    obtain rfl := Option.some.inj (hstep'.symm.trans ht)
    exact ih hrest hrun

/-- A webhook event that arrived at time 0. -/
def Rows.sample : Rows where
  inbox := [{ id := "w", source := .STRIPE, receivedAt := 0 }]

/-- The job of the event fails as often as it is attempted; then the reconciler comes by. -/
def exhausted : List Event :=
  [.enqueue .WEBHOOK (inboxJobId "w") "w"] ++
    (List.replicate ATTEMPTS [.start .WEBHOOK (inboxJobId "w"), .fail .WEBHOOK (inboxJobId "w"),
      .promote .WEBHOOK (inboxJobId "w")]).flatten ++
    [.inbox 2000000]

/-- An event whose job has used up its attempts is counted, and never processed. -/
theorem redrive_swallowed : ¬ ∀ (rows : Rows) (run : List Event),
    (exec { rows } run).isSome = true → Along Driven { rows } run := by
  intro h
  have hdriven := h .sample (exhausted ++ [.redrive 0 true]) (by decide +kernel)
  have hexec : ((exec { rows := .sample } exhausted).map fun s =>
      (s.next 0, s.queues .WEBHOOK)) = some (some ⟨.WEBHOOK, "w", inboxJobId "w"⟩,
        [⟨inboxJobId "w", "w", .failed, 8⟩]) := by decide +kernel
  obtain ⟨s, hs, he⟩ := Option.map_eq_some_iff.mp hexec
  obtain ⟨hnext, hqueue⟩ := Prod.mk.inj he
  cases hstep : step s (.redrive 0 true) with
  | none =>
    obtain ⟨run, hrun, hhead⟩ := Option.bind_eq_some_iff.mp hnext
    obtain ⟨rest, hentries⟩ := List.head?_eq_some_iff.mp hhead
    simp [step, State.redrive, hrun, hentries] at hstep
  | some s' =>
    have hunretained := (driven_iff hstep).mp (hdriven.last hs hstep) 0 _ rfl hnext
    simp only [hqueue] at hunretained
    revert hunretained
    decide +kernel

end Redrive

end BookingApp
