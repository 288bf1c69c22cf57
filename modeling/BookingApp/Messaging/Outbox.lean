import BookingApp.Messaging.Redrive
import BookingApp.ReadCommitted.Adequacy
import BookingApp.Store.Schema

/-!
# The outbox dispatcher (`messaging/outbox/outbox.dispatcher.ts`)

A drain claims rows, puts their jobs on a queue and records what came of it in one
transaction, while other drains do the same. Whatever fails or crashes in between, a row
is marked only after its job was put on a queue, and one that is not marked can be
claimed again an hour after its last failure at the latest.
-/

set_option autoImplicit false

namespace BookingApp.Outbox

open ReadCommitted

structure Row where
  id : String
  eventType : String
  payload : String
  availableAt : Int
  dispatchedAt : Option Int := none
  attempts : Nat := 0
  lastError : Option String := none
  createdAt : Int
  deriving DecidableEq, Repr

instance : Keyed Row String := ⟨Row.id⟩

/-- A job that was put on a queue, and the row it was made of. -/
structure Job where
  id : String
  row : String
  name : String
  payload : String
  deriving DecidableEq, Repr

/-- A failure of a row, as it is recorded: the attempts it had, and when it failed. -/
structure Failure where
  id : String
  attempts : Nat
  error : String
  failedAt : Int
  deriving DecidableEq, Repr

/-- The rows, the jobs that were put on the queues, the failures that were recorded, and the clock. -/
structure Db where
  rows : List Row := []
  jobs : List Job := []
  failures : List Failure := []
  clock : Int := 0

/-- What becomes of a call of the queue: it is done; it fails; or it is done, but fails for its
caller. -/
inductive EnqueueOutcome where
  | done
  | refused (error : String)
  | lost (error : String)
  deriving DecidableEq, Repr

/-- The surroundings answer which rows are locked by others, and what becomes of a call. -/
structure Answer where
  locked : List String := []
  outcome : EnqueueOutcome := .done

/-- Row locks. The errors are messages. -/
abbrev store : Store where
  Db := Db
  Lock := String
  Point := Unit
  Err := String
  Answer := Answer
  idle := ()
  legal _ := true
  decLock := inferInstance

abbrev Tx : Type → Type := Code store

def OUTBOX_MAX_ATTEMPTS : Nat := 10

def OUTBOX_BATCH_SIZE : Nat := 50

def BASE_BACKOFF_MS : Int := 30000

def MAX_BACKOFF_MS : Int := 3600000

/-- `outboxBackoffMs` -/
def outboxBackoffMs (attempts : Nat) : Int :=
  min (BASE_BACKOFF_MS * 2 ^ attempts) MAX_BACKOFF_MS

/-- The declared jobs and the validation of their payloads. -/
structure JobContracts where
  isJobName : String → Bool
  parseJobPayload : String → String → Except String String

/-- `String(Number.parseInt(text, 10)) === text`, as far as numbers are exact. -/
def readsAsInteger (text : String) : Bool :=
  let digits := match text.toList with
    | '-' :: rest => rest
    | all => all
  !digits.isEmpty && digits.all Char.isDigit && (digits.head? != some '0' || text == "0")

/-- `invalidJobIdReason` -/
def invalidJobIdReason (jobId : String) : Option String :=
  if jobId.length = 0 then some "must not be empty"
  else if jobId.toList.contains ':' then
    some "must not contain \":\" — BullMQ reserves it as a key separator"
  else if readsAsInteger jobId then
    some "must not be an integer — those collide with BullMQ-generated ids"
  else none

/-- `jobIdFor` -/
def jobIdFor (parts : List String) : Except String String :=
  let jobId := Redrive.jobIdFor parts
  match invalidJobIdReason jobId with
  | some reason => .error ("Job id \"" ++ jobId ++ "\" " ++ reason ++ ". Build ids with jobIdFor().")
  | none => .ok jobId

/-- A row that the dispatcher may take up at `now`. -/
def Row.Claimable (now : Int) (row : Row) : Prop :=
  row.dispatchedAt = none ∧ row.availableAt ≤ now ∧ row.attempts < OUTBOX_MAX_ATTEMPTS

instance (now : Int) (row : Row) : Decidable (row.Claimable now) :=
  inferInstanceAs (Decidable (_ ∧ _ ∧ _))

namespace Db

/-- The rows of the claim: those that others have locked are skipped. -/
def claim (now : Int) (locked : List String) (d : Db) : List Row :=
  ((d.rows.filter fun row => decide (row.Claimable now) && !locked.contains row.id).insertionSort
    fun a b => a.availableAt < b.availableAt ∨ (a.availableAt = b.availableAt ∧ a.createdAt ≤ b.createdAt)).take
      OUTBOX_BATCH_SIZE

/-- A job is put on its queue. -/
def add (job : Job) (d : Db) : Db :=
  { d with jobs := d.jobs ++ [job] }

/-- `outboxEvent.updateMany where id in dispatched` -/
def mark (now : Int) (dispatched : List String) (d : Db) : Db :=
  { d with rows := Table.update dispatched (fun row => { row with dispatchedAt := some now }) d.rows }

/-- `outboxEvent.update where id`, with a note of the failure. -/
def fail (now : Int) (failure : Failure) (d : Db) : Db :=
  { d with
    rows := Table.update [failure.id]
      (fun row =>
        { row with
          attempts := row.attempts + 1
          lastError := some ((failure.error.take 1000).toString)
          availableAt := now + outboxBackoffMs failure.attempts })
      d.rows
    failures := d.failures ++ [failure] }

end Db

/-- `this.clock.now()` -/
def clockNow : Tx Int :=
  Db.clock <$> Code.call (S := store) id .ret

/-- `dispatch`, up to the call of the queue. -/
def jobOf (contracts : JobContracts) (row : Row) : Except String Job :=
  if !contracts.isJobName row.eventType then
    .error ("Event type \"" ++ row.eventType ++
      "\" is not a declared job. It was removed from JOB, or the row predates a rename.")
  else do
    let jobId ← jobIdFor ["outbox", row.id]
    let payload ← contracts.parseJobPayload row.eventType row.payload
    pure { id := jobId, row := row.id, name := row.eventType, payload := payload }

/-- `dispatch`: whether the job was put on its queue, as far as the caller can tell. -/
def dispatch (contracts : JobContracts) (row : Row) : Tx (Except String Unit) :=
  match jobOf contracts row with
  | .error e => pure (.error e)
  | .ok job => do
    let a ← answer (S := store)
    match a.outcome with
    | .done => .call (Db.add job) fun _ => .ret (.ok ())
    | .refused e => pure (.error e)
    | .lost e => .call (Db.add job) fun _ => .ret (.error e)

/-- The rows of a batch, one after the other: those dispatched and those that failed. -/
def dispatchAll (contracts : JobContracts) : List Row → Tx (List String × List Failure)
  | [] => pure ([], [])
  | row :: rest => do
    match ← dispatch contracts row with
    | .ok () => do
      let (dispatched, failed) ← dispatchAll contracts rest
      pure (row.id :: dispatched, failed)
    | .error error => do
      let failedAt ← clockNow
      let (dispatched, failed) ← dispatchAll contracts rest
      pure (dispatched, { id := row.id, attempts := row.attempts, error, failedAt } :: failed)

/-- The failures of a batch are recorded one after the other. -/
def recordFailures (now : Int) : List Failure → Tx Unit
  | [] => pure ()
  | failure :: rest => do
    let row ← modify (S := store) () (fun _ => [failure.id]) (fun _ => Db.fail now failure)
      fun d => Table.find failure.id d.rows
    match row with
    | none => throw "No record was found for an update."
    | some _ => recordFailures now rest

/-- `drainOnce` -/
def drainOnce (contracts : JobContracts) : Tx Nat := do
  let now ← clockNow
  transaction (S := store) () do
    let a ← answer (S := store)
    let rows ← selectForUpdate (S := store) () (fun d => (d.claim now a.locked).map Row.id)
      fun d => d.claim now a.locked
    if rows.length = 0 then pure 0
    else do
      let (dispatched, failed) ← dispatchAll contracts rows
      if dispatched.length > 0 then
        modify (S := store) () (fun _ => dispatched) (fun _ => Db.mark now dispatched) fun _ => ()
      recordFailures now failed
      pure dispatched.length

/-- Time passes. -/
def wait (ms : Nat) : Tx Unit :=
  .call (fun d => { d with clock := d.clock + ms }) fun _ => .ret ()

/-- Drains, any number of them, while time passes. -/
inductive DrainOp (contracts : JobContracts) : Tx Unit → Prop where
  | drain : DrainOp contracts (discard (drainOnce contracts))
  | wait (ms : Nat) : DrainOp contracts (wait ms)

/-- The recorded failures of a row. -/
def Db.failuresOf (id : String) (d : Db) : List Failure :=
  d.failures.filter fun failure => failure.id == id

/-- The time from which on a row that is not marked can be claimed: an hour after its last failure at
the latest. -/
def claimableFrom (first : Row) (failures : List Failure) : Int :=
  match failures.getLast? with
  | none => first.availableAt
  | some failure => failure.failedAt + MAX_BACKOFF_MS

/-- What a row `first` has become. -/
structure Row.Follows (d : Db) (first row : Row) : Prop where
  /-- Each recorded failure has added one attempt. -/
  attempts : row.attempts = first.attempts + (d.failuresOf row.id).length
  available : row.availableAt ≤ claimableFrom first (d.failuresOf row.id)
  /-- A row is marked only if its job was put on a queue. -/
  marked : row.dispatchedAt.isSome → ∃ job ∈ d.jobs, job.row = row.id

/-- The rows are those of `d₀`, and every job of one row has the same id. -/
structure Delivers (d₀ d : Db) : Prop where
  rows : List.Forall₂ (fun first row => row.id = first.id ∧ first.Follows d row) d₀.rows d.rows
  jobId : ∀ job ∈ d.jobs, job.id = Redrive.jobIdFor ["outbox", job.row]

section Steps

variable {d₀ d : Db}

theorem outboxBackoffMs_le (attempts : Nat) : outboxBackoffMs attempts ≤ MAX_BACKOFF_MS :=
  min_le_right _ _

theorem failuresOf_fail (now : Int) (failure : Failure) (id : String) :
    (d.fail now failure).failuresOf id =
      d.failuresOf id ++ if failure.id = id then [failure] else [] := by
  unfold Db.failuresOf Db.fail
  rw [List.filter_append]
  by_cases h : failure.id = id <;> simp [h]

/-- A job more does not matter, if it has the id of its row. -/
theorem Delivers.add (h : Delivers d₀ d) {job : Job} (hid : job.id = Redrive.jobIdFor ["outbox", job.row]) :
    Delivers d₀ (d.add job) := by
  refine ⟨h.rows.imp ?_, fun other hother => ?_⟩
  · rintro first row ⟨hrow, hattempts, havailable, hmarked⟩
    refine ⟨hrow, hattempts, havailable, fun hsome => ?_⟩
    obtain ⟨job', hjob', heq⟩ := hmarked hsome
    exact ⟨job', List.mem_append_left _ hjob', heq⟩
  · rcases List.mem_append.mp hother with hother | hother
    · exact h.jobId other hother
    · rw [List.mem_singleton.mp hother]
      exact hid

/-- Rows whose jobs were put on a queue are marked. -/
theorem Delivers.mark (h : Delivers d₀ d) {now : Int} {dispatched : List String}
    (hjobs : ∀ id ∈ dispatched, ∃ job ∈ d.jobs, job.row = id) : Delivers d₀ (d.mark now dispatched) := by
  refine ⟨?_, h.jobId⟩
  refine List.forall₂_map_right_iff.mpr (h.rows.imp ?_)
  rintro first row ⟨hrow, hattempts, havailable, hmarked⟩
  split
  · next hmem => exact ⟨hrow, hattempts, havailable, fun _ => hjobs _ hmem⟩
  · exact ⟨hrow, hattempts, havailable, hmarked⟩

/-- A failure is recorded that came after `now`. -/
theorem Delivers.fail (h : Delivers d₀ d) {now : Int} {failure : Failure} (hnow : now ≤ failure.failedAt) :
    Delivers d₀ (d.fail now failure) := by
  refine ⟨?_, h.jobId⟩
  refine List.forall₂_map_right_iff.mpr (h.rows.imp ?_)
  rintro first row ⟨hrow, hattempts, havailable, hmarked⟩
  have hbackoff := outboxBackoffMs_le failure.attempts
  by_cases hid : failure.id = row.id
  · rw [if_pos (show Keyed.key row ∈ [failure.id] from List.mem_singleton.mpr hid.symm)]
    refine ⟨hrow, ?_, ?_, hmarked⟩
    · rw [failuresOf_fail, if_pos hid]
      simp only [List.length_append, List.length_singleton]
      omega
    · rw [failuresOf_fail, if_pos hid, claimableFrom, List.getLast?_concat]
      show now + outboxBackoffMs failure.attempts ≤ failure.failedAt + MAX_BACKOFF_MS
      omega
  · rw [if_neg (show Keyed.key row ∉ [failure.id] from fun hmem => hid (List.mem_singleton.mp hmem).symm)]
    refine ⟨hrow, ?_, ?_, hmarked⟩
    · rw [failuresOf_fail, if_neg hid, List.append_nil]
      exact hattempts
    · rw [failuresOf_fail, if_neg hid, List.append_nil]
      exact havailable

end Steps

/-- The protocol of the drains: jobs are only added, and the clock does not go back. -/
def outboxProtocol (d₀ : Db) : Proto store where
  toConditions := .none
  Inv := Delivers d₀
  Act d d' := d.jobs <+: d'.jobs ∧ d.clock ≤ d'.clock
  Same _ _ _ := True
  same_refl _ _ := trivial
  same_trans _ _ := trivial

section Programs

variable {d₀ d : Db} {held : List String} {δ : Db → Db}

theorem guarantee {d' : Db} (hjobs : d.jobs <+: d'.jobs) (hclock : d.clock ≤ d'.clock)
    (hinv : Delivers d₀ d') : (outboxProtocol d₀).Guarantee held d d' :=
  ⟨⟨hjobs, hclock⟩, hinv, fun _ _ => trivial⟩

/-- What is put on the queues stays there, and time does not go back. -/
theorem act_of_rely {d' : Db} (h : (outboxProtocol d₀).Rely () held d d') :
    d.jobs <+: d'.jobs ∧ d.clock ≤ d'.clock :=
  h.lift (T := fun x y : Db => x.jobs <+: y.jobs ∧ x.clock ≤ y.clock) (fun _ => ⟨List.prefix_rfl, le_rfl⟩)
    (fun _ _ _ h h' => ⟨h.1.trans h'.1, h.2.trans h'.2⟩) fun _ _ hstep => hstep.1

theorem wp_clockNow {Q : Int → List String → (Db → Db) → Db → Prop}
    (h : ∀ d', (outboxProtocol d₀).Rely () held d d' → Q d'.clock held δ d') :
    (outboxProtocol d₀).wp clockNow Q (fun _ _ => True) held δ d := by
  refine (Proto.wp_map _ _).mpr (Proto.wp_call fun d' hrely hinv => ⟨?_, h d' hrely⟩)
  exact guarantee List.prefix_rfl le_rfl hinv

/-- The ids of the jobs are made of those of the rows. -/
theorem jobId_of_jobOf {contracts : JobContracts} {row : Row} {job : Job}
    (h : jobOf contracts row = .ok job) : job.id = Redrive.jobIdFor ["outbox", job.row] ∧ job.row = row.id := by
  unfold jobOf at h
  split at h
  · cases h
  · unfold jobIdFor at h
    cases hreason : invalidJobIdReason (Redrive.jobIdFor ["outbox", row.id]) with
    | some reason =>
      simp only [hreason] at h
      cases h
    | none =>
      simp only [hreason] at h
      cases hpayload : contracts.parseJobPayload row.eventType row.payload with
      | error e =>
        rw [hpayload] at h
        cases h
      | ok payload =>
        rw [hpayload] at h
        cases h
        exact ⟨rfl, rfl⟩

/-- What is known of a batch: its rows that were dispatched have jobs, the others failed after `now`. -/
structure Dispatched (now : Int) (dispatched : List String) (failed : List Failure) (d : Db) : Prop where
  clock : now ≤ d.clock
  jobs : ∀ id ∈ dispatched, ∃ job ∈ d.jobs, job.row = id
  failed : ∀ failure ∈ failed, now ≤ failure.failedAt

theorem Dispatched.later {now : Int} {dispatched : List String} {failed : List Failure} {d' : Db}
    (h : Dispatched now dispatched failed d) (hact : d.jobs <+: d'.jobs ∧ d.clock ≤ d'.clock) :
    Dispatched now dispatched failed d' := by
  refine ⟨h.clock.trans hact.2, fun id hid => ?_, h.failed⟩
  obtain ⟨job, hjob, hrow⟩ := h.jobs id hid
  exact ⟨job, hact.1.subset hjob, hrow⟩

theorem wp_dispatch {contracts : JobContracts} {row : Row}
    {Q : Except String Unit → List String → (Db → Db) → Db → Prop}
    (hok : ∀ d', d.jobs <+: d'.jobs ∧ d.clock ≤ d'.clock → (∃ job ∈ d'.jobs, job.row = row.id) →
      Q (.ok ()) held δ d')
    (herror : ∀ e d', d.jobs <+: d'.jobs ∧ d.clock ≤ d'.clock → Q (.error e) held δ d') :
    (outboxProtocol d₀).wp (dispatch contracts row) Q (fun _ _ => True) held δ d := by
  unfold dispatch
  cases hjob : jobOf contracts row with
  | error e => exact herror e d ⟨List.prefix_rfl, le_rfl⟩
  | ok job =>
    obtain ⟨hid, hrow⟩ := jobId_of_jobOf hjob
    refine (Proto.wp_bind _ _).mpr (Proto.wp_answer fun d₁ h₁ _ a => ?_)
    have hadd : ∀ d₂, (outboxProtocol d₀).Rely () held d₁ d₂ →
        d.jobs <+: (d₂.add job).jobs ∧ d.clock ≤ (d₂.add job).clock := fun d₂ h₂ =>
      have hact := act_of_rely (h₁.trans h₂)
      ⟨hact.1.trans (List.prefix_append _ _), hact.2⟩
    cases a.outcome with
    | done =>
      refine fun d₂ h₂ hinv => ⟨guarantee (List.prefix_append _ _) le_rfl (hinv.add hid), ?_⟩
      exact hok _ (hadd d₂ h₂) ⟨job, List.mem_append_right _ (List.mem_singleton_self _), hrow⟩
    | refused e => exact herror e d₁ (act_of_rely h₁)
    | lost e =>
      refine fun d₂ h₂ hinv => ⟨guarantee (List.prefix_append _ _) le_rfl (hinv.add hid), ?_⟩
      exact herror e _ (hadd d₂ h₂)

theorem wp_dispatchAll {contracts : JobContracts} {now : Int} (rows : List Row) (hnow : now ≤ d.clock) :
    (outboxProtocol d₀).wp (dispatchAll contracts rows)
      (fun p held' δ' d' => Dispatched now p.1 p.2 d' ∧ held' = held ∧ δ' = δ) (fun _ _ => True) held δ d := by
  induction rows generalizing d with
  | nil => exact ⟨⟨hnow, by simp, by simp⟩, rfl, rfl⟩
  | cons row rest ih =>
    refine (Proto.wp_bind _ _).mpr (wp_dispatch (fun d₁ hact hjob => ?_) fun e d₁ hact => ?_)
    · refine (Proto.wp_bind _ _).mpr (Proto.wp_mono (Proto.wp_frame
        (J := fun x : Db => ∃ job ∈ x.jobs, job.row = row.id) (fun x y hstep hx => ?_) hjob
        (ih (hnow.trans hact.2))) ?_ fun _ _ _ => trivial)
      · obtain ⟨job, hmem, hrow⟩ := hx
        exact ⟨job, hstep.1.subset hmem, hrow⟩
      · rintro ⟨dispatched, failed⟩ held' δ' d' ⟨⟨hbatch, hheld, hδ⟩, hjob'⟩
        refine ⟨⟨hbatch.clock, fun id hid => ?_, hbatch.failed⟩, hheld, hδ⟩
        rcases List.mem_cons.mp hid with rfl | hid
        · exact hjob'
        · exact hbatch.jobs id hid
    · refine (Proto.wp_bind _ _).mpr (wp_clockNow fun d₂ h₂ => ?_)
      have hclock : now ≤ d₂.clock := (hnow.trans hact.2).trans (act_of_rely h₂).2
      refine (Proto.wp_bind _ _).mpr (Proto.wp_mono (ih hclock) ?_ fun _ _ _ => trivial)
      rintro ⟨dispatched, failed⟩ held' δ' d' ⟨hbatch, hheld, hδ⟩
      refine ⟨⟨hbatch.clock, hbatch.jobs, fun failure hmem => ?_⟩, hheld, hδ⟩
      rcases List.mem_cons.mp hmem with rfl | hmem
      · exact hclock
      · exact hbatch.failed failure hmem

/-- The writes of a drain: committed to a state in which the dispatched rows have jobs, they keep the
law, and they touch neither the jobs nor the clock. -/
def Writes (d₀ : Db) (dispatched : List String) (δ : Db → Db) : Prop :=
  ∀ x, Delivers d₀ x → (∀ id ∈ dispatched, ∃ job ∈ x.jobs, job.row = id) →
    Delivers d₀ (δ x) ∧ (δ x).jobs = x.jobs ∧ (δ x).clock = x.clock

theorem Writes.commits {now : Int} {dispatched : List String} {failed : List Failure} {n : Nat}
    (h : Writes d₀ dispatched δ) (hbatch : Dispatched now dispatched failed d) :
    (outboxProtocol d₀).Commits () (fun _ _ _ _ => True) n held δ d := by
  intro d' hrely hinv _ _
  obtain ⟨hlaw, hjobs, hclock⟩ := h d' hinv (hbatch.later (act_of_rely hrely)).jobs
  exact ⟨guarantee (by rw [hjobs]) hclock.ge hlaw, trivial⟩

theorem wp_recordFailures {now : Int} {dispatched : List String} {failed : List Failure}
    {Q : Unit → List String → (Db → Db) → Db → Prop} (hbatch : Dispatched now dispatched failed d)
    (hwrites : Writes d₀ dispatched δ)
    (h : ∀ held' δ' d', Dispatched now dispatched [] d' → Writes d₀ dispatched δ' → Q () held' δ' d') :
    (outboxProtocol d₀).wp (recordFailures now failed) Q (fun _ _ => True) held δ d := by
  induction failed generalizing held δ d with
  | nil => exact h held δ d hbatch hwrites
  | cons failure rest ih =>
    refine (Proto.wp_bind _ _).mpr (Proto.wp_modify (fun _ _ _ => trivial) fun d₁ h₁ _ _ => ?_)
    dsimp only
    split
    · trivial
    · have hlater := hbatch.later (act_of_rely h₁)
      refine ih ⟨hlater.clock, hlater.jobs, fun f hf => hlater.failed f (List.mem_cons_of_mem _ hf)⟩ ?_
      intro x hx hjobs
      obtain ⟨hlaw, hsame⟩ := hwrites x hx hjobs
      exact ⟨hlaw.fail (hlater.failed failure List.mem_cons_self), hsame⟩

theorem safe_drainOnce (contracts : JobContracts) :
    (outboxProtocol d₀).Safe (discard (drainOnce contracts)) := by
  intro d _
  refine (Proto.wp_map _ _).mpr ((Proto.wp_bind _ _).mpr (wp_clockNow fun d₁ _ => ?_))
  refine Proto.wp_transaction (fun _ _ _ => trivial) (fun _ _ _ _ _ => trivial) fun d₂ h₂ _ => ?_
  refine (Proto.wp_bind _ _).mpr (Proto.wp_answer fun d₃ h₃ _ a => ?_)
  refine (Proto.wp_bind _ _).mpr (Proto.wp_selectForUpdate (fun _ _ _ => trivial) fun d₄ h₄ _ _ => ?_)
  have hnow : d₁.clock ≤ d₄.clock := (act_of_rely ((h₂.trans h₃).trans h₄)).2
  have hnothing : Writes d₀ [] id := fun x hx _ => ⟨hx, rfl, rfl⟩
  dsimp only
  split
  · have hbatch : Dispatched d₁.clock [] [] d₄ := ⟨hnow, by simp, by simp⟩
    exact hnothing.commits hbatch
  refine (Proto.wp_bind _ _).mpr (Proto.wp_mono (wp_dispatchAll _ hnow) ?_ fun _ _ _ => trivial)
  rintro ⟨dispatched, failed⟩ held' δ' d₅ ⟨hbatch, rfl, rfl⟩
  have hrest : ∀ {δ : Db → Db} {held : List String} {d : Db}, Dispatched d₁.clock dispatched failed d →
      Writes d₀ dispatched δ →
        (outboxProtocol d₀).wp (do
          recordFailures d₁.clock failed
          pure dispatched.length) ((outboxProtocol d₀).Commits () fun _ _ _ _ => True) (fun _ _ => True)
            held δ d := by
    intro δ held d hd hδ
    refine (Proto.wp_bind _ _).mpr (wp_recordFailures hd hδ fun held' δ' d' hd' hδ' => ?_)
    exact hδ'.commits hd'
  dsimp only
  split
  · refine (Proto.wp_bind _ _).mpr (Proto.wp_modify (fun _ _ _ => trivial) fun d₆ h₆ _ _ => ?_)
    refine hrest (hbatch.later (act_of_rely h₆)) fun x hx hjobs => ⟨hx.mark hjobs, rfl, rfl⟩
  · exact hrest hbatch fun x hx _ => ⟨hx, rfl, rfl⟩

theorem DrainOp.safe {contracts : JobContracts} {c : Tx Unit} (h : DrainOp contracts c) :
    (outboxProtocol d₀).Safe c := by
  cases h with
  | drain => exact safe_drainOnce contracts
  | wait ms =>
    refine fun d _ d' _ hinv => ⟨guarantee List.prefix_rfl ?_ ⟨hinv.rows.imp ?_, hinv.jobId⟩, trivial⟩
    · exact Int.le_add_of_nonneg_right (Int.natCast_nonneg ms)
    · rintro first row ⟨hrow, hattempts, havailable, hmarked⟩
      exact ⟨hrow, hattempts, havailable, hmarked⟩

end Programs

theorem Row.Follows.claimable {d : Db} {first row : Row} (h : first.Follows d row)
    (hunmarked : row.dispatchedAt = none) (hattempts : row.attempts < OUTBOX_MAX_ATTEMPTS) {now : Int}
    (hnow : claimableFrom first (d.failuresOf row.id) ≤ now) : row.Claimable now :=
  ⟨hunmarked, h.available.trans hnow, hattempts⟩

/-- Jobs have the same id exactly if they are of the same row. -/
theorem jobId_injective {a b : String} (h : Redrive.jobIdFor ["outbox", a] = Redrive.jobIdFor ["outbox", b]) :
    a = b := by
  have hinitial : ∀ id, Redrive.jobIdFor ["outbox", id] = "outbox" ++ "-" ++ id := fun _ => rfl
  rw [hinitial, hinitial] at h
  have hlists := congrArg String.toList h
  simp only [String.toList_append] at hlists
  exact String.toList_injective (List.append_cancel_left hlists)

/-- Whatever the interleaving of drains, with whatever failures and crashes: every row is there, is
marked only if its job was put on a queue, has one attempt more for each recorded failure, and can be
claimed again from an hour after its last failure on, unless it is marked or has no attempts left;
and all jobs of one row have one id. -/
theorem outbox_delivers (contracts : JobContracts) {d₀ : Db}
    (hmarked : ∀ row ∈ d₀.rows, row.dispatchedAt.isSome → ∃ job ∈ d₀.jobs, job.row = row.id)
    (hjobs : ∀ job ∈ d₀.jobs, job.id = Redrive.jobIdFor ["outbox", job.row]) (hfailures : d₀.failures = [])
    {s : Sys store} (h : Sys.Reach (DrainOp contracts) .none { db := d₀ } s) :
    Delivers d₀ s.db ∧ (∀ job ∈ s.db.jobs, ∀ job' ∈ s.db.jobs, job.id = job'.id ↔ job.row = job'.row) ∧
      List.Forall₂ (fun first row => row.dispatchedAt = none → row.attempts < OUTBOX_MAX_ATTEMPTS →
        ∀ now, claimableFrom first (s.db.failuresOf row.id) ≤ now → row.Claimable now) d₀.rows s.db.rows := by
  have hstart : Delivers d₀ d₀ := by
    have hnone : ∀ id, d₀.failuresOf id = [] := fun id => by simp [Db.failuresOf, hfailures]
    refine ⟨List.forall₂_same.mpr fun row hrow => ⟨rfl, ?_, ?_, hmarked row hrow⟩, hjobs⟩
    · rw [hnone]
      rfl
    · rw [hnone]
      exact le_rfl
  have hlaw := (Sys.Reach.invariant (P := outboxProtocol d₀) (fun _ hop => hop.safe) (I := fun _ => True)
    (fun _ _ _ _ _ _ => trivial) hstart trivial h).1
  refine ⟨hlaw, fun job hjob job' hjob' => ?_, hlaw.rows.imp fun first row hrow => ?_⟩
  · rw [hlaw.jobId job hjob, hlaw.jobId job' hjob']
    exact ⟨jobId_injective, fun hrow => by rw [hrow]⟩
  · exact fun hunmarked hattempts now hnow => hrow.2.claimable hunmarked hattempts hnow

def sampleRow (id : String) : Row where
  id := id
  eventType := "notification.send"
  payload := id
  availableAt := 0
  createdAt := 0

def sampleContracts : JobContracts where
  isJobName _ := true
  parseJobPayload _ payload := .ok payload

/-- One drain dispatches a row and records the failure of another, and crashes. The next one does both. -/
def sampleDrains : List (Action store) :=
  [.start (discard (drainOnce sampleContracts)), .run 0, .run 0, .answer 0 {}, .run 0, .answer 0 {}, .run 0,
    .answer 0 { outcome := .refused "refused" }, .run 0, .run 0, .run 0, .crash 0,
    .start (discard (drainOnce sampleContracts)), .run 1, .run 1, .answer 1 {}, .run 1, .answer 1 {}, .run 1,
    .answer 1 { outcome := .refused "refused" }, .run 1, .run 1, .run 1, .run 1]

theorem outbox_delivers_sample :
    ∃ s, Sys.Reach (DrainOp sampleContracts) .none { db := { rows := [sampleRow "a", sampleRow "b"] } } s ∧
      s.db.rows.map (fun row => (row.dispatchedAt, row.attempts)) = [(some 0, 0), (none, 1)] ∧
      s.db.jobs.map Job.id = ["outbox-a", "outbox-a"] ∧
      Delivers { rows := [sampleRow "a", sampleRow "b"] } s.db := by
  have hexec : (Sys.exec (S := store) .none { db := { rows := [sampleRow "a", sampleRow "b"] } } sampleDrains).map
      (fun s => (s.db.rows.map (fun row => (row.dispatchedAt, row.attempts)), s.db.jobs.map Job.id)) =
        some ([(some 0, 0), (none, 1)], ["outbox-a", "outbox-a"]) := by rfl
  obtain ⟨s, hs, hnotes⟩ := Option.map_eq_some_iff.mp hexec
  obtain ⟨hrows, hjobs⟩ := Prod.mk.inj hnotes
  have hreach : Sys.Reach (DrainOp sampleContracts) .none
      { db := { rows := [sampleRow "a", sampleRow "b"] } } s := by
    refine .exec (fun _ _ => trivial) .refl ?_ hs
    simp [sampleDrains, Sys.Starts, DrainOp.drain]
  refine ⟨s, hreach, hrows, hjobs, (outbox_delivers sampleContracts ?_ (by simp) rfl hreach).1⟩
  simp [sampleRow]

end BookingApp.Outbox
