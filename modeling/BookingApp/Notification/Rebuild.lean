import BookingApp.Booking.Reminders
import BookingApp.Messaging.Outbox
import BookingApp.Notification.Sending

/-!
# Reminders put back (`notification/reminder.reconciler.ts`)

Every night the reminders that ought to be queued and are not are queued again, for
the bookings of the next 48 hours and up to 500 of them. They are taken in the order of
their pages; in a page by organization, in an organization by start time.
-/

set_option autoImplicit false

namespace BookingApp.Rebuild

/-- A row of the notifications, as far as it is read. -/
structure NotificationRow where
  kind : Sending.NotificationKind
  bookingId : Option String
  dedupeKey : String
  deriving DecidableEq, Repr

structure Organization where
  id : String
  settings : Option OrganizationSettings
  deriving DecidableEq, Repr

structure Tables where
  bookings : List Booking
  notifications : List NotificationRow := []
  organizations : List Organization

/-- A delayed job of the queue, with its payload. -/
structure Job where
  id : String
  organizationId : String
  bookingId : String
  offsetMinutes : Int
  expectedStartsAtEpochSeconds : Int
  delay : Int
  deriving DecidableEq, Repr

/-- A text of `cuid()`, as the ids of all rows are. -/
def IsCuid (text : String) : Prop :=
  text.toList.head? = some 'c' ∧ text.toList.length = 25 ∧
    ∀ c ∈ text.toList, c.isDigit = true ∨ c.isLower = true

instance (text : String) : Decidable (IsCuid text) :=
  inferInstanceAs (Decidable (_ ∧ _ ∧ _))

/-- What the validation has against a value, if anything. It has nothing against the ids that
`cuid()` makes, nor against positive integers. -/
structure Schemas where
  cuid : String → Option String
  positive : Int → Option String
  cuid_accepts : ∀ text, IsCuid text → cuid text = none
  positive_accepts : ∀ n, 0 < n → positive n = none

def REMINDER_HORIZON_MS : Int := 48 * 3600000

def BATCH : Nat := 500

/-- `assertValidJobId` -/
def assertValidJobId (jobId : String) : Except Failure Unit :=
  match Outbox.invalidJobIdReason jobId with
  | some reason => throw (.app {
      code := "INVALID_JOB_ID", status := some 500
      message := "Job id \"" ++ jobId ++ "\" " ++ reason ++ ". Build ids with jobIdFor()." })
  | none => pure ()

/-- The parts of the id of a reminder's job, put together. -/
def jobIdText (offsetMinutes : Int) (bookingId : String) (startsAt : Int) : String :=
  Redrive.jobIdFor ["reminder", toString offsetMinutes, bookingId, toString (startsAtEpochSeconds startsAt)]

def reminderJobId (offsetMinutes : Int) (bookingId : String) (startsAt : Int) : Except Failure String := do
  let jobId := jobIdText offsetMinutes bookingId startsAt
  assertValidJobId jobId
  return jobId

/-- `parseJobPayload`, of a reminder -/
def parseJobPayload (schemas : Schemas) (job : Job) : Except Failure Job :=
  let issues := [("organizationId", schemas.cuid job.organizationId), ("bookingId", schemas.cuid job.bookingId),
    ("offsetMinutes", schemas.positive job.offsetMinutes),
    ("expectedStartsAtEpochSeconds", schemas.positive job.expectedStartsAtEpochSeconds)].filterMap
      fun (path, issue) => issue.map fun message => path ++ ": " ++ message
  if issues = [] then pure job
  else throw (.app {
    code := "INVALID_JOB_PAYLOAD", status := some 500
    message := "Invalid payload for job \"reminder.send\" — " ++ "; ".intercalate issues
    details := [("job", "reminder.send")] })

/-- `EnqueueService.enqueue`. A job whose id is there is not added. -/
def enqueue (schemas : Schemas) (job : Job) (queue : List Job) : Except Failure (List Job) := do
  let validated ← parseJobPayload schemas job
  assertValidJobId job.id
  return if job.id ∈ queue.map Job.id then queue else queue ++ [validated]

/-- `groups.get` and `groups.set`, of a map that keeps the order of insertion. -/
def pushGroup (booking : Booking) : List (String × List Booking) → List (String × List Booking)
  | [] => [(booking.organizationId, [booking])]
  | (organizationId, group) :: groups =>
    if organizationId = booking.organizationId then (organizationId, group ++ [booking]) :: groups
    else (organizationId, group) :: pushGroup booking groups

def groupByOrganization (bookings : List Booking) : List (String × List Booking) :=
  bookings.foldl (fun groups booking => pushGroup booking groups) []

/-- The settings that `runWithOrganization` loads. -/
def settingsOf (tables : Tables) (organizationId : String) : Except Failure OrganizationSettings :=
  match tables.organizations.find? fun o => o.id = organizationId with
  | none => throw (.error "No record was found for a query.")
  | some organization =>
    match organization.settings with
    | none => throw (.error ("Organization \"" ++ organizationId ++ "\" has no settings row."))
    | some settings => return settings

/-- `ReminderService.offsets`: longest first. -/
def offsets (settings : OrganizationSettings) : List Int :=
  settings.reminderOffsetsMinutes.insertionSort (· ≥ ·)

/-- The confirmed bookings of the horizon, by start time. -/
def window (tables : Tables) (now : Int) : List Booking :=
  (tables.bookings.filter fun b =>
    decide (b.status = .CONFIRMED ∧ now < b.startsAt ∧ b.startsAt ≤ now + REMINDER_HORIZON_MS)).insertionSort
      fun a b => a.startsAt < b.startsAt ∨ (a.startsAt = b.startsAt ∧ a.id ≤ b.id)

/-- `prisma.booking.findMany`: a page, from the cursor on. -/
def findMany (tables : Tables) (now : Int) (cursor : Option String) : List Booking :=
  let rows := match cursor with
    | none => window tables now
    | some id => ((window tables now).dropWhile fun b : Booking => decide (b.id ≠ id)).drop 1
  rows.take BATCH

/-- The keys of the reminders there are of some bookings. -/
def alreadyHandled (tables : Tables) (bookings : List Booking) : List String :=
  (tables.notifications.filter fun n =>
    decide (n.bookingId ∈ bookings.map (fun b => some b.id) ∧ n.kind = .REMINDER_24H)).map
      NotificationRow.dedupeKey

/-- What has been queued, and how many jobs of it by this run. -/
structure Progress where
  queue : List Job
  requeued : Nat
  deriving DecidableEq, Repr

/-- One booking and one offset. Once the budget is spent, nothing is done any more. -/
def rebuildReminder (schemas : Schemas) (now : Int) (handled : List String) (booking : Booking)
    (p : Progress) (offsetMinutes : Int) : Except Failure Progress :=
  if BATCH ≤ p.requeued then pure p
  else
    let delay := booking.startsAt - offsetMinutes * 60000 - now
    if delay ≤ 0 then pure p
    else if reminderDedupeKey .EMAIL booking offsetMinutes ∈ handled then pure p
    else do
      let jobId ← reminderJobId offsetMinutes booking.id booking.startsAt
      if jobId ∈ p.queue.map Job.id then pure p
      else do
        let queue ← enqueue schemas {
          id := jobId
          organizationId := booking.organizationId
          bookingId := booking.id
          offsetMinutes
          expectedStartsAtEpochSeconds := startsAtEpochSeconds booking.startsAt
          delay } p.queue
        pure { queue, requeued := p.requeued + 1 }

/-- The bookings of one organization, with its offsets. -/
def rebuildGroup (schemas : Schemas) (tables : Tables) (now : Int) (handled : List String) (p : Progress)
    (group : String × List Booking) : Except Failure Progress :=
  if BATCH ≤ p.requeued then pure p
  else do
    let settings ← settingsOf tables group.1
    group.2.foldlM (fun p booking =>
      (offsets settings).foldlM (rebuildReminder schemas now handled booking) p) p

/-- The loop over the pages. It has not ended if the fuel runs out. -/
def rebuildPages (schemas : Schemas) (tables : Tables) (now : Int) :
    Nat → Option String → Progress → Option (Except Failure Progress)
  | 0, _, _ => none
  | fuel + 1, cursor, p =>
    if BATCH ≤ p.requeued then some (pure p)
    else
      let bookings := findMany tables now cursor
      if bookings.length = 0 then some (pure p)
      else
        match (groupByOrganization bookings).foldlM
          (rebuildGroup schemas tables now (alreadyHandled tables bookings)) p with
        | .error failure => some (throw failure)
        | .ok p =>
          let cursor := bookings.getLast?.map Booking.id
          if bookings.length < BATCH ∨ cursor = none then some (pure p)
          else rebuildPages schemas tables now fuel cursor p

/-- `ReminderReconciler.runOnce` over a queue: the queue after it, and how many jobs are new. -/
def runOnce (schemas : Schemas) (tables : Tables) (now : Int) (queue : List Job) :
    Option (Except Failure Progress) :=
  rebuildPages schemas tables now (tables.bookings.length + 1) none { queue, requeued := 0 }

/-- A reminder of a booking, so many minutes before it starts. -/
structure Reminder where
  booking : Booking
  offsetMinutes : Int
  deriving DecidableEq, Repr

namespace Reminder

variable (r : Reminder)

/-- When it goes out. -/
def time : Int :=
  r.booking.startsAt - r.offsetMinutes * 60000

def jobId : String :=
  jobIdText r.offsetMinutes r.booking.id r.booking.startsAt

/-- The job that sends it, queued at `now`. -/
def job (now : Int) : Job where
  id := r.jobId
  organizationId := r.booking.organizationId
  bookingId := r.booking.id
  offsetMinutes := r.offsetMinutes
  expectedStartsAtEpochSeconds := startsAtEpochSeconds r.booking.startsAt
  delay := r.time - now

/-- There is a row for it already, whatever became of it. -/
def Handled (tables : Tables) : Prop :=
  ∃ n ∈ tables.notifications, n.kind = .REMINDER_24H ∧ n.bookingId = some r.booking.id ∧
    n.dedupeKey = reminderDedupeKey .EMAIL r.booking r.offsetMinutes

instance (tables : Tables) : Decidable (r.Handled tables) :=
  inferInstanceAs (Decidable (∃ n ∈ tables.notifications, _))

/-- It is yet to go out, without a row or a job. -/
def Missing (tables : Tables) (queue : List Job) (now : Int) : Prop :=
  now < r.time ∧ ¬ r.Handled tables ∧ r.jobId ∉ queue.map Job.id

instance (tables : Tables) (queue : List Job) (now : Int) : Decidable (r.Missing tables queue now) :=
  inferInstanceAs (Decidable (_ ∧ _ ∧ _))

end Reminder

/-- The offsets of an organization, longest first. -/
def offsetsOf (tables : Tables) (organizationId : String) : List Int :=
  match settingsOf tables organizationId with
  | .ok settings => offsets settings
  | .error _ => []

/-- The reminders of a booking. -/
def remindersOf (tables : Tables) (booking : Booking) : List Reminder :=
  (offsetsOf tables booking.organizationId).map fun offsetMinutes => { booking, offsetMinutes }

/-- Pages of 500 bookings. -/
def pages (rows : List Booking) : List (List Booking) :=
  if _ : rows = [] then [] else rows.take BATCH :: pages (rows.drop BATCH)
termination_by rows.length
decreasing_by
  have := List.length_pos_iff.mpr ‹¬ rows = []›
  simp only [List.length_drop, BATCH]
  omega

/-- The reminders of a page in the order of the rebuild. -/
def remindersOfPage (tables : Tables) (page : List Booking) : List Reminder :=
  (groupByOrganization page).flatMap fun group => group.2.flatMap (remindersOf tables)

def missing (tables : Tables) (queue : List Job) (now : Int) (rs : List Reminder) : List Reminder :=
  rs.filter fun r => decide (r.Missing tables queue now)

/-- The missing reminders of the horizon, in the order of the rebuild. -/
def pending (tables : Tables) (queue : List Job) (now : Int) : List Reminder :=
  missing tables queue now ((pages (window tables now)).flatMap (remindersOfPage tables))

/-- What the contract of the settings admits; an offset is stored once. -/
structure AdmittedOffsets (offsets : List Int) : Prop where
  length : offsets.length ≤ 5
  bounds : ∀ offset ∈ offsets, 5 ≤ offset ∧ offset ≤ 43200
  nodup : offsets.Nodup

/-- Bookings have ids of their own, all ids are cuids, every organization has settings within the
contract, and a reminder's row has the key of its booking. -/
structure Tables.Valid (tables : Tables) : Prop where
  ids : (tables.bookings.map Booking.id).Nodup
  cuid : ∀ b ∈ tables.bookings, IsCuid b.id ∧ IsCuid b.organizationId
  settings : ∀ b ∈ tables.bookings, ∃ settings, settingsOf tables b.organizationId = .ok settings ∧
    AdmittedOffsets settings.reminderOffsetsMinutes
  keyed : ∀ n ∈ tables.notifications, n.kind = .REMINDER_24H → ∃ channel, ∃ booking : Booking, ∃ offset,
    IsCuid booking.id ∧ n.bookingId = some booking.id ∧ n.dedupeKey = reminderDedupeKey channel booking offset

section Texts

/-- Two texts with a separator each are cut at it. -/
theorem cut {α : Type} {a : α} {x₁ x₂ z₁ z₂ : List α} (h₁ : a ∉ x₁) (h₂ : a ∉ x₂)
    (h : x₁ ++ a :: z₁ = x₂ ++ a :: z₂) : x₁ = x₂ ∧ z₁ = z₂ := by
  induction x₁ generalizing x₂ with
  | nil =>
    cases x₂ with
    | nil => exact ⟨rfl, (List.cons.inj h).2⟩
    | cons c x₂ => exact absurd (List.mem_cons.mpr (.inl (List.cons.inj h).1)) h₂
  | cons b x₁ ih =>
    cases x₂ with
    | nil => exact absurd (List.mem_cons.mpr (.inl (List.cons.inj h).1.symm)) h₁
    | cons c x₂ =>
      obtain ⟨rfl, htail⟩ := List.cons.inj h
      obtain ⟨rfl, rfl⟩ := ih (fun hmem => h₁ (List.mem_cons_of_mem _ hmem))
        (fun hmem => h₂ (List.mem_cons_of_mem _ hmem)) htail
      exact ⟨rfl, rfl⟩

theorem IsCuid.notMem {text : String} (h : IsCuid text) {c : Char} (hdigit : c.isDigit = false)
    (hlower : c.isLower = false) : c ∉ text.toList := by
  intro hmem
  rcases h.2.2 c hmem with hc | hc
  · rw [hdigit] at hc
    contradiction
  · rw [hlower] at hc
    contradiction

theorem toList_natCast (n : Nat) : (toString (n : Int)).toList = Nat.toDigits 10 n :=
  String.toList_ofList

theorem notMem_toString {n : Int} (hn : 0 ≤ n) {c : Char} (hdigit : c.isDigit = false) :
    c ∉ (toString n).toList := by
  obtain ⟨m, rfl⟩ := Int.eq_ofNat_of_zero_le hn
  intro hmem
  rw [toList_natCast] at hmem
  rw [Nat.isDigit_of_mem_toDigits (by omega) (by omega) hmem] at hdigit
  contradiction

theorem toString_injective {m n : Int} (hm : 0 ≤ m) (hn : 0 ≤ n)
    (h : (toString m).toList = (toString n).toList) : m = n := by
  obtain ⟨a, rfl⟩ := Int.eq_ofNat_of_zero_le hm
  obtain ⟨b, rfl⟩ := Int.eq_ofNat_of_zero_le hn
  rw [toList_natCast, toList_natCast] at h
  have hread := congrArg (fun digits => Nat.ofDigitChars 10 digits 0) h
  rw [Nat.ofDigitChars_toDigits (by omega) (by omega), Nat.ofDigitChars_toDigits (by omega) (by omega)] at hread
  exact congrArg Int.ofNat hread

theorem toList_jobIdText (offsetMinutes : Int) (bookingId : String) (startsAt : Int) :
    (jobIdText offsetMinutes bookingId startsAt).toList =
      "reminder".toList ++ '-' :: ((toString offsetMinutes).toList ++ '-' :: (bookingId.toList ++ '-' ::
        (toString (startsAtEpochSeconds startsAt)).toList)) := by
  have htext : jobIdText offsetMinutes bookingId startsAt =
      "reminder" ++ "-" ++ toString offsetMinutes ++ "-" ++ bookingId ++ "-" ++
        toString (startsAtEpochSeconds startsAt) := rfl
  rw [htext]
  simp

/-- A job's id tells the offset and the booking. -/
theorem jobIdText_injective {offset offset' : Int} {id id' : String} {startsAt startsAt' : Int}
    (ho : 0 ≤ offset) (ho' : 0 ≤ offset') (hid : IsCuid id) (hid' : IsCuid id')
    (h : jobIdText offset id startsAt = jobIdText offset' id' startsAt') : offset = offset' ∧ id = id' := by
  have hlists := congrArg String.toList h
  rw [toList_jobIdText, toList_jobIdText] at hlists
  have hrest := (List.cons.inj (List.append_cancel_left hlists)).2
  obtain ⟨hoffset, hrest⟩ := cut (notMem_toString ho rfl) (notMem_toString ho' rfl) hrest
  obtain ⟨hids, -⟩ := cut (hid.notMem rfl rfl) (hid'.notMem rfl rfl) hrest
  exact ⟨toString_injective ho ho' hoffset, String.toList_injective hids⟩

/-- The ids of reminders' jobs are valid. -/
theorem assertValidJobId_jobIdText {offset : Int} {id : String} {startsAt : Int} (ho : 0 ≤ offset)
    (hid : IsCuid id) (hstarts : 0 ≤ startsAt) :
    assertValidJobId (jobIdText offset id startsAt) = .ok () := by
  have hlist := toList_jobIdText offset id startsAt
  have hepoch : 0 ≤ startsAtEpochSeconds startsAt := by
    unfold startsAtEpochSeconds
    omega
  have hlength : (jobIdText offset id startsAt).length ≠ 0 := by
    rw [← String.length_toList, hlist]
    simp
  have hcolon : ':' ∉ (jobIdText offset id startsAt).toList := by
    rw [hlist]
    have h₁ := notMem_toString ho (show ':'.isDigit = false from rfl)
    have h₂ := hid.notMem (show ':'.isDigit = false from rfl) rfl
    have h₃ := notMem_toString hepoch (show ':'.isDigit = false from rfl)
    simp only [List.mem_append, List.mem_cons, h₁, h₂, h₃]
    decide
  have hinteger : Outbox.readsAsInteger (jobIdText offset id startsAt) = false := by
    unfold Outbox.readsAsInteger
    rw [hlist]
    simp
  unfold assertValidJobId Outbox.invalidJobIdReason
  rw [if_neg hlength, if_neg (by simpa using hcolon), hinteger]
  rfl

theorem reminderJobId_eq {offset : Int} {id : String} {startsAt : Int} (ho : 0 ≤ offset) (hid : IsCuid id)
    (hstarts : 0 ≤ startsAt) : reminderJobId offset id startsAt = .ok (jobIdText offset id startsAt) := by
  show (assertValidJobId (jobIdText offset id startsAt) >>= fun _ => pure (jobIdText offset id startsAt)) = _
  rw [assertValidJobId_jobIdText ho hid hstarts]
  rfl

/-- The key of a reminder tells the booking. -/
theorem reminderDedupeKey_injective {channel channel' : NotificationChannel} {b b' : Booking}
    {offset offset' : Int} (hid : IsCuid b.id) (hid' : IsCuid b'.id)
    (h : reminderDedupeKey channel b offset = reminderDedupeKey channel' b' offset') : b.id = b'.id := by
  have htext : ∀ (channel : NotificationChannel) (b : Booking) (offset : Int),
      (reminderDedupeKey channel b offset).toList =
        "REMINDER_24H".toList ++ ':' :: (channel.text.toList ++ ':' :: (b.id.toList ++ ':' ::
          ((toString offset).toList ++ '-' :: (toString (startsAtEpochSeconds b.startsAt)).toList))) := by
    intro channel b offset
    unfold reminderDedupeKey
    simp only [String.toList_append, List.append_assoc]
    rfl
  have hchannel : ∀ channel : NotificationChannel, ':' ∉ channel.text.toList := by
    intro channel
    cases channel <;> decide
  have hlists := congrArg String.toList h
  rw [htext, htext] at hlists
  have hrest := (List.cons.inj (List.append_cancel_left hlists)).2
  obtain ⟨-, hrest⟩ := cut (hchannel channel) (hchannel channel') hrest
  obtain ⟨hids, -⟩ := cut (hid.notMem rfl rfl) (hid'.notMem rfl rfl) hrest
  exact String.toList_injective hids

end Texts

section Orders

variable {tables : Tables} {now : Int}

theorem mem_window {b : Booking} : b ∈ window tables now ↔
    b ∈ tables.bookings ∧ b.status = .CONFIRMED ∧ now < b.startsAt ∧
      b.startsAt ≤ now + REMINDER_HORIZON_MS := by
  simp [window, List.mem_insertionSort, List.mem_filter]

theorem Tables.Valid.window_ids (h : tables.Valid) : ((window tables now).map Booking.id).Nodup := by
  have hrows : ((tables.bookings.filter fun b =>
      decide (b.status = .CONFIRMED ∧ now < b.startsAt ∧ b.startsAt ≤ now + REMINDER_HORIZON_MS)).map
        Booking.id).Nodup := h.ids.sublist (List.filter_sublist.map _)
  exact ((List.perm_insertionSort _ _).map _).nodup_iff.mpr hrows

theorem pushGroup_perm (booking : Booking) (groups : List (String × List Booking)) :
    ((pushGroup booking groups).flatMap Prod.snd).Perm (groups.flatMap Prod.snd ++ [booking]) := by
  induction groups with
  | nil => simp [pushGroup]
  | cons group groups ih =>
    unfold pushGroup
    split
    · simp only [List.flatMap_cons, List.append_assoc]
      exact List.Perm.append_left _ List.perm_append_comm
    · simp only [List.flatMap_cons, List.append_assoc]
      exact List.Perm.append_left _ ih

/-- Every booking is in one group. -/
theorem groupByOrganization_perm (bookings : List Booking) :
    ((groupByOrganization bookings).flatMap Prod.snd).Perm bookings := by
  have hfold : ∀ groups : List (String × List Booking),
      ((bookings.foldl (fun groups booking => pushGroup booking groups) groups).flatMap Prod.snd).Perm
        (groups.flatMap Prod.snd ++ bookings) := by
    induction bookings with
    | nil => simp
    | cons b bookings ih =>
      intro groups
      refine (ih (pushGroup b groups)).trans ?_
      refine ((pushGroup_perm b groups).append_right bookings).trans ?_
      simp
  simpa [groupByOrganization] using hfold []

/-- Groups are not empty, and of one organization each. -/
def Grouped (groups : List (String × List Booking)) : Prop :=
  ∀ group ∈ groups, group.2 ≠ [] ∧ ∀ b ∈ group.2, b.organizationId = group.1

theorem Grouped.push {groups : List (String × List Booking)} (h : Grouped groups) (booking : Booking) :
    Grouped (pushGroup booking groups) := by
  induction groups with
  | nil => simp [pushGroup, Grouped]
  | cons group groups ih =>
    obtain ⟨hgroup, hgroups⟩ := List.forall_mem_cons.mp h
    unfold pushGroup
    split
    · next heq =>
      refine List.forall_mem_cons.mpr ⟨⟨by simp, fun b hb => ?_⟩, hgroups⟩
      rcases List.mem_append.mp hb with hb | hb
      · exact hgroup.2 b hb
      · rw [List.mem_singleton.mp hb]
        exact heq.symm
    · exact List.forall_mem_cons.mpr ⟨hgroup, ih hgroups⟩

theorem grouped_groupByOrganization (bookings : List Booking) : Grouped (groupByOrganization bookings) := by
  have hfold : ∀ groups, Grouped groups →
      Grouped (bookings.foldl (fun groups booking => pushGroup booking groups) groups) := by
    induction bookings with
    | nil => exact fun groups h => h
    | cons b bookings ih => exact fun groups h => ih _ (h.push b)
  exact hfold [] (by simp [Grouped])

theorem flatten_pages (rows : List Booking) : (pages rows).flatten = rows := by
  induction rows using pages.induct with
  | case1 => simp [pages]
  | case2 rows hne ih =>
    rw [pages, dif_neg hne, List.flatten_cons, ih, List.take_append_drop]

theorem remindersOfPage_perm (page : List Booking) :
    (remindersOfPage tables page).Perm (page.flatMap (remindersOf tables)) := by
  have hgroups : remindersOfPage tables page =
      ((groupByOrganization page).flatMap Prod.snd).flatMap (remindersOf tables) :=
    List.flatMap_assoc.symm
  rw [hgroups]
  exact (groupByOrganization_perm page).flatMap_right _

/-- However they are ordered, the reminders are those of all the bookings. -/
theorem reminders_perm (rows : List Booking) :
    ((pages rows).flatMap (remindersOfPage tables)).Perm (rows.flatMap (remindersOf tables)) := by
  refine (List.Perm.flatMap_left _ fun page _ => remindersOfPage_perm page).trans ?_
  have hpages : (pages rows).flatMap (fun page => page.flatMap (remindersOf tables)) =
      rows.flatMap (remindersOf tables) := by
    rw [← List.flatMap_assoc, List.flatMap_id', flatten_pages]
  rw [hpages]

theorem mem_remindersOf {b : Booking} {r : Reminder} :
    r ∈ remindersOf tables b ↔ r.booking = b ∧ r.offsetMinutes ∈ offsetsOf tables b.organizationId := by
  unfold remindersOf
  rw [List.mem_map]
  constructor
  · rintro ⟨offset, hoffset, rfl⟩
    exact ⟨rfl, hoffset⟩
  · rintro ⟨rfl, hoffset⟩
    exact ⟨r.offsetMinutes, hoffset, rfl⟩

theorem mem_pending {queue : List Job} {r : Reminder} : r ∈ pending tables queue now ↔
    (r.booking ∈ window tables now ∧ r.offsetMinutes ∈ offsetsOf tables r.booking.organizationId) ∧
      r.Missing tables queue now := by
  unfold pending missing
  rw [List.mem_filter, (reminders_perm _).mem_iff, List.mem_flatMap, decide_eq_true_iff]
  simp only [mem_remindersOf]
  constructor
  · rintro ⟨⟨b, hb, rfl, hoffset⟩, hmissing⟩
    exact ⟨⟨hb, hoffset⟩, hmissing⟩
  · rintro ⟨⟨hb, hoffset⟩, hmissing⟩
    exact ⟨⟨r.booking, hb, rfl, hoffset⟩, hmissing⟩

theorem length_pending (queue : List Job) : (pending tables queue now).length =
    (missing tables queue now ((window tables now).flatMap (remindersOf tables))).length :=
  ((reminders_perm _).filter _).length_eq

/-- The offsets of an organization are those of its settings. -/
theorem Tables.Valid.offsetsOf (h : tables.Valid) {b : Booking} (hb : b ∈ tables.bookings) :
    ∃ settings, settingsOf tables b.organizationId = .ok settings ∧
      offsets settings = Rebuild.offsetsOf tables b.organizationId ∧
        AdmittedOffsets (Rebuild.offsetsOf tables b.organizationId) := by
  obtain ⟨settings, hsettings, hadmitted⟩ := h.settings b hb
  have hoffsets : Rebuild.offsetsOf tables b.organizationId = offsets settings := by
    unfold Rebuild.offsetsOf
    rw [hsettings]
  have hperm : (offsets settings).Perm settings.reminderOffsetsMinutes := List.perm_insertionSort _ _
  refine ⟨settings, hsettings, hoffsets.symm, ?_⟩
  rw [hoffsets]
  exact ⟨hperm.length_eq.trans_le hadmitted.length,
    fun offset hoffset => hadmitted.bounds offset (hperm.mem_iff.mp hoffset),
    hperm.nodup_iff.mpr hadmitted.nodup⟩

theorem Tables.Valid.nodup_reminders (h : tables.Valid) :
    ((window tables now).flatMap (remindersOf tables)).Nodup := by
  rw [List.nodup_flatMap]
  constructor
  · intro b hb
    obtain ⟨_, -, -, hadmitted⟩ := h.offsetsOf (mem_window.mp hb).1
    exact hadmitted.nodup.map fun a a' heq => congrArg Reminder.offsetMinutes heq
  · refine h.window_ids.of_map.imp fun hne r hr hr' => hne ?_
    rw [← (mem_remindersOf.mp hr).1, ← (mem_remindersOf.mp hr').1]

/-- The jobs of the horizon have different ids. -/
theorem Tables.Valid.nodup_jobIds (h : tables.Valid) :
    (((pages (window tables now)).flatMap (remindersOfPage tables)).map Reminder.jobId).Nodup := by
  rw [((reminders_perm _).map _).nodup_iff]
  refine h.nodup_reminders.map_on fun r hr r' hr' heq => ?_
  have hmem : ∀ r ∈ (window tables now).flatMap (remindersOf tables),
      r.booking ∈ tables.bookings ∧ 5 ≤ r.offsetMinutes := by
    intro r hr
    obtain ⟨b, hb, hrb⟩ := List.mem_flatMap.mp hr
    obtain ⟨rfl, hoffset⟩ := mem_remindersOf.mp hrb
    obtain ⟨_, -, -, hadmitted⟩ := h.offsetsOf (mem_window.mp hb).1
    exact ⟨(mem_window.mp hb).1, (hadmitted.bounds _ hoffset).1⟩
  obtain ⟨hb, ho⟩ := hmem r hr
  obtain ⟨hb', ho'⟩ := hmem r' hr'
  obtain ⟨hoffset, hid⟩ := jobIdText_injective (by omega) (by omega) (h.cuid _ hb).1 (h.cuid _ hb').1 heq
  have hbooking := List.inj_on_of_nodup_map h.ids hb hb' hid
  cases r
  cases r'
  simp_all

end Orders

/-- What a run has done when it has been through `rs`: the first 500 are queued. -/
def rebuilt (queue : List Job) (now : Int) (rs : List Reminder) : Progress where
  queue := queue ++ (rs.take BATCH).map fun r => r.job now
  requeued := min BATCH rs.length

section Run

variable (schemas : Schemas) {tables : Tables} {queue : List Job} {now : Int}

/-- With the budget spent, more reminders make no difference. -/
theorem rebuilt_full {rs : List Reminder} (h : BATCH ≤ (rebuilt queue now rs).requeued) (more : List Reminder) :
    rebuilt queue now (rs ++ more) = rebuilt queue now rs := by
  have hlength : BATCH ≤ rs.length := le_trans h (min_le_right _ _)
  unfold rebuilt
  rw [List.take_append_of_le_length hlength, List.length_append, min_eq_left hlength,
    min_eq_left (hlength.trans (Nat.le_add_right _ _))]

theorem rebuilt_concat {rs : List Reminder} (h : ¬ BATCH ≤ (rebuilt queue now rs).requeued) (r : Reminder) :
    rebuilt queue now (rs ++ [r]) = {
      queue := (rebuilt queue now rs).queue ++ [r.job now], requeued := (rebuilt queue now rs).requeued + 1 } := by
  have hlength : rs.length < BATCH := by
    by_contra hle
    exact h (le_min le_rfl (not_lt.mp hle))
  have hmore : (rs ++ [r]).length ≤ BATCH := by
    rw [List.length_append]
    exact hlength
  unfold rebuilt
  rw [List.take_of_length_le hmore, List.take_of_length_le hlength.le]
  simp only [List.map_append, List.map_singleton, List.append_assoc, List.length_append, List.length_singleton,
    min_eq_right hlength.le, min_eq_right (show rs.length + 1 ≤ BATCH from hlength)]

/-- A loop whose steps are through with some reminders each is through with all of them. -/
theorem foldlM_rebuilt {α : Type} {f : Progress → α → Except Failure Progress} {g : α → List Reminder}
    {as : List α} (hstep : ∀ a ∈ as, ∀ rs, ((rs ++ g a).map Reminder.jobId).Nodup →
      f (rebuilt queue now rs) a = .ok (rebuilt queue now (rs ++ g a)))
    {rs : List Reminder} (hnodup : ((rs ++ as.flatMap g).map Reminder.jobId).Nodup) :
    as.foldlM f (rebuilt queue now rs) = .ok (rebuilt queue now (rs ++ as.flatMap g)) := by
  induction as generalizing rs with
  | nil =>
    rw [List.flatMap_nil, List.append_nil]
    rfl
  | cons a as ih =>
    rw [List.flatMap_cons, ← List.append_assoc] at hnodup ⊢
    have hfirst : ((rs ++ g a).map Reminder.jobId).Nodup :=
      hnodup.sublist ((List.sublist_append_left _ _).map _)
    rw [List.foldlM_cons, hstep a List.mem_cons_self rs hfirst]
    exact ih (fun b hb => hstep b (List.mem_cons_of_mem _ hb)) hnodup

theorem missing_flatMap {α : Type} (as : List α) (g : α → List Reminder) :
    missing tables queue now (as.flatMap g) = as.flatMap fun a => missing tables queue now (g a) :=
  List.filter_flatMap

/-- The rows of a page tell what has been handled. -/
theorem Tables.Valid.mem_alreadyHandled (h : tables.Valid) {page : List Booking}
    (hpage : ∀ b ∈ page, b ∈ tables.bookings) {r : Reminder} (hr : r.booking ∈ page) :
    reminderDedupeKey .EMAIL r.booking r.offsetMinutes ∈ alreadyHandled tables page ↔ r.Handled tables := by
  unfold alreadyHandled Reminder.Handled
  simp only [List.mem_map, List.mem_filter, decide_eq_true_iff]
  constructor
  · rintro ⟨n, ⟨hn, ⟨b, hb, hbooking⟩, hkind⟩, hkey⟩
    obtain ⟨channel, booking, offset, hcuid, hid, hdedupe⟩ := h.keyed n hn hkind
    have hsame : booking.id = r.booking.id :=
      reminderDedupeKey_injective hcuid (h.cuid _ (hpage _ hr)).1 (hdedupe.symm.trans hkey)
    exact ⟨n, hn, hkind, hid.trans (congrArg some hsame), hkey⟩
  · rintro ⟨n, hn, hkind, hbooking, hkey⟩
    exact ⟨n, ⟨hn, ⟨r.booking, hr, hbooking.symm⟩, hkind⟩, hkey⟩

/-- What is enqueued is valid. -/
theorem enqueue_job (h : tables.Valid) (hnow : 0 ≤ now) {r : Reminder} (hb : r.booking ∈ tables.bookings)
    (ho : 5 ≤ r.offsetMinutes) (htime : now < r.time) {jobs : List Job} (hjobs : r.jobId ∉ jobs.map Job.id) :
    enqueue schemas (r.job now) jobs = .ok (jobs ++ [r.job now]) := by
  obtain ⟨hid, horganization⟩ := h.cuid _ hb
  unfold Reminder.time at htime
  have hepoch : 0 < startsAtEpochSeconds r.booking.startsAt := by
    unfold startsAtEpochSeconds
    omega
  have hpayload : parseJobPayload schemas (r.job now) = .ok (r.job now) := by
    unfold parseJobPayload
    simp only [Reminder.job, schemas.cuid_accepts _ hid, schemas.cuid_accepts _ horganization,
      schemas.positive_accepts _ (show 0 < r.offsetMinutes by omega), schemas.positive_accepts _ hepoch]
    rfl
  have hvalid : assertValidJobId (r.job now).id = .ok () :=
    assertValidJobId_jobIdText (by omega) hid (by omega)
  unfold enqueue
  rw [hpayload, hvalid]
  show Except.ok (if r.jobId ∈ jobs.map Job.id then jobs else jobs ++ [r.job now]) = _
  rw [if_neg hjobs]

/-- One reminder: it is queued if it is missing. -/
theorem rebuildReminder_rebuilt (h : tables.Valid) (hnow : 0 ≤ now) {handled : List String} {b : Booking}
    {offset : Int} (hb : b ∈ tables.bookings) (ho : 5 ≤ offset)
    (hhandled : reminderDedupeKey .EMAIL b offset ∈ handled ↔ Reminder.Handled ⟨b, offset⟩ tables)
    {rs : List Reminder} (hnodup : ((rs ++ missing tables queue now [⟨b, offset⟩]).map Reminder.jobId).Nodup) :
    rebuildReminder schemas now handled b (rebuilt queue now rs) offset =
      .ok (rebuilt queue now (rs ++ missing tables queue now [⟨b, offset⟩])) := by
  unfold rebuildReminder
  split
  · next hfull =>
    rw [rebuilt_full hfull]
    rfl
  · next hbudget =>
    by_cases hmissing : Reminder.Missing ⟨b, offset⟩ tables queue now
    · have hone : missing tables queue now [⟨b, offset⟩] = [⟨b, offset⟩] := by simp [missing, hmissing]
      rw [hone] at hnodup ⊢
      obtain ⟨htime, hunhandled, hqueue⟩ := hmissing
      have hdelay : now < b.startsAt - offset * 60000 := htime
      have hfresh : jobIdText offset b.id b.startsAt ∉ (rebuilt queue now rs).queue.map Job.id := by
        intro hmem
        simp only [rebuilt, List.map_append, List.map_map, List.mem_append] at hmem
        rcases hmem with hmem | hmem
        · exact hqueue hmem
        · rw [List.map_append, List.nodup_append] at hnodup
          obtain ⟨r, hr, hid⟩ := List.mem_map.mp hmem
          exact hnodup.2.2 r.jobId (List.mem_map_of_mem (List.mem_of_mem_take hr)) _
            (List.mem_singleton.mpr rfl) hid
      have hjobId := reminderJobId_eq (show 0 ≤ offset by omega) (h.cuid b hb).1
        (show 0 ≤ b.startsAt by omega)
      have henqueue := enqueue_job schemas h hnow (r := ⟨b, offset⟩) hb ho htime hfresh
      rw [rebuilt_concat hbudget, if_neg (by omega), if_neg (mt hhandled.mp hunhandled), hjobId]
      show (if jobIdText offset b.id b.startsAt ∈ (rebuilt queue now rs).queue.map Job.id then _ else _) = _
      rw [if_neg hfresh]
      show (enqueue schemas (Reminder.job ⟨b, offset⟩ now) (rebuilt queue now rs).queue >>= _) = _
      rw [henqueue]
      rfl
    · have hnone : missing tables queue now [⟨b, offset⟩] = [] := by simp [missing, hmissing]
      rw [hnone, List.append_nil]
      by_cases hdelay : b.startsAt - offset * 60000 - now ≤ 0
      · rw [if_pos hdelay]
        rfl
      by_cases hmem : reminderDedupeKey .EMAIL b offset ∈ handled
      · rw [if_neg hdelay, if_pos hmem]
        rfl
      have hqueued : jobIdText offset b.id b.startsAt ∈ queue.map Job.id := by
        by_contra hqueue
        refine hmissing ⟨?_, mt hhandled.mpr hmem, hqueue⟩
        show now < b.startsAt - offset * 60000
        omega
      have hpresent : jobIdText offset b.id b.startsAt ∈ (rebuilt queue now rs).queue.map Job.id := by
        rw [show (rebuilt queue now rs).queue = queue ++ _ from rfl, List.map_append]
        exact List.mem_append_left _ hqueued
      rw [if_neg hdelay, if_neg hmem, reminderJobId_eq (by omega) (h.cuid b hb).1 (by omega)]
      show (if jobIdText offset b.id b.startsAt ∈ (rebuilt queue now rs).queue.map Job.id then _ else _) = _
      rw [if_pos hpresent]
      rfl

/-- A page: its missing reminders are queued. -/
theorem rebuildPage_rebuilt (h : tables.Valid) (hnow : 0 ≤ now) {page : List Booking}
    (hpage : ∀ b ∈ page, b ∈ tables.bookings) {rs : List Reminder}
    (hnodup : ((rs ++ missing tables queue now (remindersOfPage tables page)).map Reminder.jobId).Nodup) :
    (groupByOrganization page).foldlM (rebuildGroup schemas tables now (alreadyHandled tables page))
        (rebuilt queue now rs) =
      .ok (rebuilt queue now (rs ++ missing tables queue now (remindersOfPage tables page))) := by
  unfold remindersOfPage at hnodup ⊢
  rw [missing_flatMap] at hnodup ⊢
  refine foldlM_rebuilt (fun group hgroup rs hnodup => ?_) hnodup
  obtain ⟨hne, horganization⟩ := grouped_groupByOrganization page group hgroup
  have hmem : ∀ b ∈ group.2, b ∈ page := fun b hb =>
    (groupByOrganization_perm page).mem_iff.mp (List.mem_flatMap.mpr ⟨group, hgroup, hb⟩)
  obtain ⟨first, hfirst⟩ := List.exists_mem_of_ne_nil _ hne
  obtain ⟨settings, hsettings, hoffsets, hadmitted⟩ := h.offsetsOf (hpage _ (hmem _ hfirst))
  rw [horganization first hfirst] at hsettings hoffsets hadmitted
  unfold rebuildGroup
  split
  · next hfull =>
    rw [rebuilt_full hfull]
    rfl
  · rw [hsettings, missing_flatMap] at *
    refine foldlM_rebuilt (fun b hb rs hnodup => ?_) hnodup
    have hsplit : missing tables queue now (remindersOf tables b) =
        (offsets settings).flatMap fun offset => missing tables queue now [⟨b, offset⟩] := by
      rw [← missing_flatMap, ← List.map_eq_flatMap, hoffsets, ← horganization b hb]
      rfl
    rw [hsplit] at hnodup ⊢
    refine foldlM_rebuilt (fun offset hoffset rs hnodup => ?_) hnodup
    rw [hoffsets] at hoffset
    exact rebuildReminder_rebuilt schemas h hnow (hpage b (hmem b hb)) (hadmitted.bounds offset hoffset).1
      (h.mem_alreadyHandled hpage (r := ⟨b, offset⟩) (hmem b hb)) hnodup

/-- The next page after a cursor. -/
theorem findMany_cursor (h : tables.Valid) {done rest : List Booking} (hrows : window tables now = done ++ rest) :
    findMany tables now (done.getLast?.map Booking.id) = rest.take BATCH := by
  rcases List.eq_nil_or_concat done with rfl | ⟨before, last, rfl⟩
  · simp [findMany, hrows]
  · rw [List.concat_eq_append, List.append_assoc, List.singleton_append] at hrows
    have hids : ((window tables now).map Booking.id).Nodup := h.window_ids
    rw [hrows, List.map_append, List.nodup_append] at hids
    have hbefore : ∀ b ∈ before, decide (b.id ≠ last.id) = true := by
      intro b hb
      exact decide_eq_true (hids.2.2 b.id (List.mem_map_of_mem hb) last.id (by simp))
    have hcursor : (before.concat last).getLast?.map Booking.id = some last.id := by simp
    rw [hcursor]
    unfold findMany
    rw [hrows]
    show (((before ++ last :: rest).dropWhile fun b : Booking => decide (b.id ≠ last.id)).drop 1).take BATCH = _
    rw [List.dropWhile_append_of_pos hbefore, List.dropWhile_cons_of_neg (by simp)]
    rfl

/-- All pages, from some page on: the rest of the missing reminders are queued. -/
theorem rebuildPages_rebuilt (h : tables.Valid) (hnow : 0 ≤ now) (fuel : Nat) {done rest : List Booking}
    (hrows : window tables now = done ++ rest) (hfuel : rest.length < fuel) {rs : List Reminder}
    (hnodup : ((rs ++ missing tables queue now ((pages rest).flatMap (remindersOfPage tables))).map
      Reminder.jobId).Nodup) :
    rebuildPages schemas tables now fuel (done.getLast?.map Booking.id) (rebuilt queue now rs) =
      some (.ok (rebuilt queue now
        (rs ++ missing tables queue now ((pages rest).flatMap (remindersOfPage tables))))) := by
  induction fuel generalizing done rest rs with
  | zero => exact absurd hfuel (by omega)
  | succ fuel ih =>
    unfold rebuildPages
    split
    · next hfull =>
      rw [rebuilt_full hfull]
      rfl
    · rw [findMany_cursor h hrows]
      by_cases hrest : rest = []
      · have hnone : missing tables queue now ((pages rest).flatMap (remindersOfPage tables)) = [] := by
          rw [pages, dif_pos hrest]
          rfl
        rw [hnone, List.append_nil, hrest]
        rfl
      · have hpages : missing tables queue now ((pages rest).flatMap (remindersOfPage tables)) =
            missing tables queue now (remindersOfPage tables (rest.take BATCH)) ++
              missing tables queue now ((pages (rest.drop BATCH)).flatMap (remindersOfPage tables)) := by
          rw [pages, dif_neg hrest, List.flatMap_cons]
          exact List.filter_append _ _
        rw [hpages, ← List.append_assoc] at hnodup ⊢
        have hpage : ∀ b ∈ rest.take BATCH, b ∈ tables.bookings := fun b hb =>
          (mem_window.mp (hrows ▸ List.mem_append_right _ (List.mem_of_mem_take hb))).1
        have hne : rest.take BATCH ≠ [] := by
          rw [Ne, List.take_eq_nil_iff, not_or]
          exact ⟨by decide, hrest⟩
        have hfirst := rebuildPage_rebuilt schemas h hnow hpage
          (hnodup.sublist ((List.sublist_append_left _ _).map _))
        simp only [List.length_eq_zero_iff, if_neg hne, hfirst]
        have hcursor : (rest.take BATCH).getLast?.map Booking.id ≠ none := by
          simp [List.getLast?_eq_none_iff, hne]
        split
        · next hlast =>
          have hshort := hlast.resolve_right hcursor
          have hend : rest.drop BATCH = [] := by
            rw [List.length_take] at hshort
            exact List.drop_eq_nil_of_le (by omega)
          have hnone : missing tables queue now ((pages (rest.drop BATCH)).flatMap (remindersOfPage tables)) =
              [] := by
            rw [hend, pages, dif_pos rfl]
            rfl
          rw [hnone, List.append_nil]
          rfl
        · have hlast : (rest.take BATCH).getLast?.map Booking.id =
              (done ++ rest.take BATCH).getLast?.map Booking.id := by
            rw [List.getLast?_append_of_ne_nil _ hne]
          rw [hlast]
          refine ih ?_ ?_ hnodup
          · rw [List.append_assoc, List.take_append_drop, hrows]
          · have := List.length_pos_iff.mpr hrest
            simp only [List.length_drop, BATCH]
            omega

/-- What a run does: the first 500 of the missing reminders are queued, in order. -/
theorem runOnce_eq (h : tables.Valid) (hnow : 0 ≤ now) :
    runOnce schemas tables now queue = some (.ok (rebuilt queue now (pending tables queue now))) := by
  have hstart : ({ queue, requeued := 0 } : Progress) = rebuilt queue now [] := by
    simp [rebuilt]
  have hfuel : (window tables now).length < tables.bookings.length + 1 := by
    unfold window
    rw [List.length_insertionSort]
    exact Nat.lt_succ_of_le (List.length_filter_le _ _)
  unfold runOnce
  rw [hstart]
  refine rebuildPages_rebuilt schemas h hnow _ (List.nil_append _).symm hfuel ?_
  exact h.nodup_jobIds.sublist (List.filter_sublist.map _)

end Run

/-- A reminder of a confirmed booking at a configured offset that is to go out after `now` and up to
`next`, and that there is no row of. -/
structure Owed (tables : Tables) (now next : Int) (r : Reminder) : Prop where
  booking : r.booking ∈ tables.bookings
  confirmed : r.booking.status = .CONFIRMED
  configured : r.offsetMinutes ∈ offsetsOf tables r.booking.organizationId
  due : now < r.time ∧ r.time ≤ next
  unhandled : ¬ r.Handled tables

/-- A run at `now`, with every job lost, queues whatever is owed before the `next` run. -/
def Covers (schemas : Schemas) (tables : Tables) (now next : Int) : Prop :=
  ∃ p, runOnce schemas tables now [] = some (.ok p) ∧ ∀ r, Owed tables now next r → r.job now ∈ p.queue

section Coverage

variable {tables : Tables}

theorem Owed.mem_pending {now next : Int} {r : Reminder} (h : tables.Valid) (hr : Owed tables now next r)
    (hhorizon : r.booking.startsAt ≤ now + REMINDER_HORIZON_MS) : r ∈ pending tables [] now := by
  obtain ⟨_, -, -, hadmitted⟩ := h.offsetsOf hr.booking
  have hoffset := (hadmitted.bounds _ hr.configured).1
  have htime := hr.due.1
  unfold Reminder.time at htime
  have hwindow : r.booking ∈ window tables now :=
    mem_window.mpr ⟨hr.booking, hr.confirmed, by omega, hhorizon⟩
  exact Rebuild.mem_pending.mpr ⟨⟨hwindow, hr.configured⟩, hr.due.1, hr.unhandled, by simp⟩

/-- Of the missing reminders, those among the first 500 are queued. -/
theorem job_mem_rebuilt (h : tables.Valid) {now : Int} {r : Reminder} (hr : r ∈ pending tables [] now) :
    r.job now ∈ (rebuilt [] now (pending tables [] now)).queue ↔ r ∈ (pending tables [] now).take BATCH := by
  show r.job now ∈ [] ++ ((pending tables [] now).take BATCH).map _ ↔ _
  rw [List.nil_append, List.mem_map]
  constructor
  · rintro ⟨r', hr', hjob⟩
    have hnodup : ((pending tables [] now).map Reminder.jobId).Nodup :=
      h.nodup_jobIds.sublist (List.filter_sublist.map _)
    have hid : r'.jobId = r.jobId := (congrArg Job.id hjob :)
    rwa [← List.inj_on_of_nodup_map hnodup (List.mem_of_mem_take hr') hr hid]
  · intro hmem
    exact ⟨r, hmem, rfl⟩

/-- A run at `now` ends, and of the reminders owed until the next run for bookings that start within
48 hours it has queued those that less than 500 missing reminders come before. -/
theorem rebuild_covers (schemas : Schemas) (h : tables.Valid) (now : Nat) (next : Int) :
    ∃ p, runOnce schemas tables now [] = some (.ok p) ∧
      ∀ r, Owed tables now next r → r.booking.startsAt ≤ now + REMINDER_HORIZON_MS →
        (r.job now ∈ p.queue ↔ (pending tables [] now).idxOf r < BATCH) := by
  refine ⟨_, runOnce_eq schemas h (Int.natCast_nonneg now), fun r hr hhorizon => ?_⟩
  have hpending := hr.mem_pending h hhorizon
  rw [job_mem_rebuilt h hpending, List.mem_take_iff_idxOf_lt hpending]

/-- What is queued are 500 reminders at most, so that no more can be owed and covered. -/
theorem Covers.length_le {schemas : Schemas} (h : tables.Valid) {now next : Int} (hnow : 0 ≤ now)
    (hnext : ∀ b ∈ tables.bookings, b.startsAt ≤ next) (hcovers : Covers schemas tables now next) :
    (missing tables [] now ((window tables now).flatMap (remindersOf tables))).length ≤ BATCH := by
  obtain ⟨p, hrun, hqueued⟩ := hcovers
  rw [runOnce_eq schemas h hnow, Option.some.injEq, Except.ok.injEq] at hrun
  have hall : pending tables [] now ⊆ (pending tables [] now).take BATCH := by
    intro r hr
    obtain ⟨⟨hwindow, hconfigured⟩, htime, hunhandled, -⟩ := mem_pending.mp hr
    obtain ⟨hbooking, hconfirmed, -, -⟩ := mem_window.mp hwindow
    obtain ⟨_, -, -, hadmitted⟩ := h.offsetsOf hbooking
    have hoffset := (hadmitted.bounds _ hconfigured).1
    have hstarts := hnext _ hbooking
    have hdue : r.time ≤ next := by
      unfold Reminder.time
      omega
    rw [← job_mem_rebuilt h hr, hrun]
    exact hqueued r ⟨hbooking, hconfirmed, hconfigured, ⟨htime, hdue⟩, hunhandled⟩
  have hnodup : (pending tables [] now).Nodup := (h.nodup_jobIds.sublist (List.filter_sublist.map _)).of_map
  have hlength := (List.subperm_of_subset hnodup hall).length_le
  rw [List.length_take, length_pending] at hlength
  exact hlength.trans (min_le_left _ _)

end Coverage

section Samples

theorem not_isWhitespace {c : Char} (h : c.isDigit = true ∨ c.isLower = true) : c.isWhitespace = false := by
  by_contra hspace
  simp only [Char.isWhitespace, Bool.not_eq_false, Bool.or_eq_true, decide_eq_true_eq] at hspace
  rcases hspace with ((rfl | rfl) | rfl) | rfl <;> revert h <;> decide

def sampleSchemas : Schemas where
  cuid text :=
    if text.toList.head?.any (fun c => c = 'c' || c = 'C') && 8 < text.toList.length &&
        text.toList.all fun c => !c.isWhitespace && c != '-' then none
    else some "Invalid cuid"
  positive n := if 0 < n then none else some "Too small: expected number to be >0"
  cuid_accepts text h := by
    have hall : text.toList.all (fun c => !c.isWhitespace && c != '-') = true := by
      refine List.all_eq_true.mpr fun c hc => ?_
      rw [not_isWhitespace (h.2.2 c hc), bne_iff_ne.mpr fun heq => h.notMem rfl rfl (heq ▸ hc)]
      rfl
    rw [hall, h.1, h.2.1]
    rfl
  positive_accepts n h := if_pos h

/-- 2026-08-14T01:00:00.000Z, which is three o'clock in Berlin. -/
def sampleNow : Nat := 1786669200000

def sampleId (i : Nat) : String :=
  String.ofList ('c' :: List.replicate 22 '0' ++ [Char.ofNat (97 + i / 26), Char.ofNat (97 + i % 26)])

def sampleBooking (startsAt : Int) (i : Nat) : Booking :=
  { Booking.sample with
    id := sampleId i, organizationId := sampleId 0, startsAt := startsAt + i * 600000
    endsAt := startsAt + i * 600000 + 300000 }

/-- So many bookings, one every ten minutes from `startsAt` on, of an organization with these offsets. -/
def sampleTables (count : Nat) (startsAt : Int) (offsets : List Int) : Tables where
  bookings := (List.range count).map (sampleBooking startsAt)
  organizations := [{
    id := sampleId 0, settings := some { Api.sample.settings with reminderOffsetsMinutes := offsets } }]

theorem sampleId_injective {i j : Nat} (hi : i < 101) (hj : j < 101) (h : sampleId i = sampleId j) : i = j := by
  have hletter : ∀ a b : Fin 26, Char.ofNat (97 + a) = Char.ofNat (97 + b) → a = b := by decide
  have hlists := String.ofList_injective h
  simp only [List.cons_append, List.cons.injEq, true_and] at hlists
  have hletters := List.append_cancel_left hlists
  simp only [List.cons.injEq, and_true] at hletters
  have hfirst := congrArg Fin.val (hletter ⟨i / 26, by omega⟩ ⟨j / 26, by omega⟩ hletters.1)
  have hsecond := congrArg Fin.val (hletter ⟨i % 26, by omega⟩ ⟨j % 26, by omega⟩ hletters.2)
  simp only at hfirst hsecond
  omega

theorem isCuid_sampleId {i : Nat} (hi : i < 101) : IsCuid (sampleId i) := by
  have hletter : ∀ a : Fin 26, (Char.ofNat (97 + a)).isLower = true := by decide
  have hchars : (sampleId i).toList =
      'c' :: List.replicate 22 '0' ++ [Char.ofNat (97 + i / 26), Char.ofNat (97 + i % 26)] :=
    String.toList_ofList
  unfold IsCuid
  rw [hchars]
  refine ⟨rfl, rfl, fun c hc => ?_⟩
  simp only [List.mem_append, List.mem_cons, List.mem_replicate, List.not_mem_nil, or_false] at hc
  rcases hc with (rfl | ⟨-, rfl⟩) | rfl | rfl
  · decide
  · decide
  · exact .inr (hletter ⟨i / 26, by omega⟩)
  · exact .inr (hletter ⟨i % 26, by omega⟩)

theorem valid_sampleTables {count : Nat} (hcount : count ≤ 101) (startsAt : Int) {offsets : List Int}
    (hoffsets : AdmittedOffsets offsets) : (sampleTables count startsAt offsets).Valid := by
  have hids : ((List.range 101).map sampleId).Nodup := List.nodup_range.map_on fun i hi j hj h =>
    sampleId_injective (List.mem_range.mp hi) (List.mem_range.mp hj) h
  have hsome : ∀ b ∈ (sampleTables count startsAt offsets).bookings,
      (∃ i < 101, b.id = sampleId i) ∧ b.organizationId = sampleId 0 := by
    intro b hb
    obtain ⟨i, hi, rfl⟩ := List.mem_map.mp hb
    have := List.mem_range.mp hi
    exact ⟨⟨i, by omega, rfl⟩, rfl⟩
  refine ⟨?_, fun b hb => ?_, fun b hb => ?_, by simp [sampleTables]⟩
  · have hall : (sampleTables count startsAt offsets).bookings.map Booking.id = (List.range count).map sampleId :=
      List.map_map
    rw [hall]
    exact hids.sublist ((List.range_sublist.mpr hcount).map _)
  · obtain ⟨⟨i, hi, hid⟩, horganization⟩ := hsome b hb
    rw [hid, horganization]
    exact ⟨isCuid_sampleId hi, isCuid_sampleId (by decide)⟩
  · rw [(hsome b hb).2]
    refine ⟨{ Api.sample.settings with reminderOffsetsMinutes := offsets }, ?_, hoffsets⟩
    simp [settingsOf, sampleTables]
    rfl

/-- A reminder in six hours, of a booking in thirty. -/
theorem rebuild_covers_sample :
    ∃ p, runOnce sampleSchemas (sampleTables 1 (sampleNow + 108000000) [1440]) sampleNow [] = some (.ok p) ∧
      Reminder.job ⟨sampleBooking (sampleNow + 108000000) 0, 1440⟩ sampleNow ∈ p.queue := by
  have hvalid : (sampleTables 1 (sampleNow + 108000000) [1440]).Valid :=
    valid_sampleTables (by decide) _ ⟨by decide, by decide, by decide⟩
  obtain ⟨p, hrun, hqueued⟩ := rebuild_covers sampleSchemas hvalid sampleNow (sampleNow + 86400000)
  refine ⟨p, hrun, (hqueued _ ⟨?_, rfl, ?_, ?_, ?_⟩ ?_).mpr ?_⟩
  · exact List.mem_singleton.mpr rfl
  · exact List.mem_singleton.mpr rfl
  · decide
  · decide
  · decide
  · refine lt_of_le_of_lt List.idxOf_le_length ?_
    rw [length_pending]
    decide +kernel

/-- A reminder is owed in eight hours, of a booking in eighty; and of 101 bookings five each. -/
theorem rebuild_incomplete :
    ¬ Covers sampleSchemas (sampleTables 1 (sampleNow + 288000000) [4320]) sampleNow (sampleNow + 86400000) ∧
      ¬ Covers sampleSchemas (sampleTables 101 (sampleNow + 3600000) [25, 20, 15, 10, 5]) sampleNow
        (sampleNow + 86400000) := by
  constructor
  · rintro ⟨p, hrun, hqueued⟩
    have hnone : pending (sampleTables 1 (sampleNow + 288000000) [4320]) [] sampleNow = [] := by
      rw [← List.length_eq_zero_iff, length_pending]
      decide +kernel
    have hvalid : (sampleTables 1 (sampleNow + 288000000) [4320]).Valid :=
      valid_sampleTables (by decide) _ ⟨by decide, by decide, by decide⟩
    rw [runOnce_eq _ hvalid (Int.natCast_nonneg _), hnone] at hrun
    cases hrun
    have howed : Owed (sampleTables 1 (sampleNow + 288000000) [4320]) sampleNow (sampleNow + 86400000)
        ⟨sampleBooking (sampleNow + 288000000) 0, 4320⟩ :=
      ⟨List.mem_singleton.mpr rfl, rfl, List.mem_singleton.mpr rfl, by decide, by decide⟩
    exact absurd (hqueued _ howed) List.not_mem_nil
  · intro hcovers
    have hlength := hcovers.length_le (valid_sampleTables le_rfl _ ⟨by decide, by decide, by decide⟩)
      (Int.natCast_nonneg _) (by decide +kernel)
    exact absurd hlength (by decide +kernel)

end Samples

end BookingApp.Rebuild
