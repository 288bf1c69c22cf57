import BookingApp.Booking.Holds

/-!
# Reminders (`notification/reminder.service.ts`, `notification/notification.service.ts`)

A reminder is queued for a booking that is confirmed and still starts when the job
says. It carries a link of its own, minted in the transaction that queues it. The
booking is read before that transaction begins.
-/

set_option autoImplicit false

namespace BookingApp

open ReadCommitted

structure FireInput where
  bookingId : String
  offsetMinutes : Int
  expectedStartsAtEpochSeconds : Int
  deriving DecidableEq, Repr

inductive FireOutcome where
  | SENT
  | SKIPPED
  deriving DecidableEq, Repr

/-- `Math.floor(startsAt.getTime() / 1000)` -/
def startsAtEpochSeconds (startsAt : Int) : Int :=
  startsAt / 1000

def NotificationChannel.text : NotificationChannel → String
  | EMAIL => "EMAIL"
  | SMS => "SMS"

/-- The key a reminder is deduplicated on. -/
def reminderDedupeKey (channel : NotificationChannel) (booking : Booking) (offsetMinutes : Int) :
    String :=
  s!"REMINDER_24H:{channel.text}:{booking.id}:{offsetMinutes}-{startsAtEpochSeconds booking.startsAt}"

/-- `NotificationService.queue`: a row, unless there is one with its key. -/
def queueNotification (row : Notification) : Tx Bool := do
  let fresh ← modify (S := store) .plain (fun _ => [])
    (fun view => if row.dedupeKey ∈ view.notifications.map Notification.dedupeKey then id
      else Db.onNotifications (· ++ [row]))
    fun view : Db => decide (row.dedupeKey ∉ view.notifications.map Notification.dedupeKey)
  if fresh then
    recordOutbox {
      organizationId := row.organizationId
      aggregateType := "Notification"
      aggregateId := row.id
      eventType := .NOTIFICATION_SEND
      payload := [("organizationId", row.organizationId), ("notificationId", row.id)] }
  return fresh

/-- A reminder of the booking over one channel. -/
def queueReminder (booking : Booking) (offsetMinutes : Int) (managementToken : String)
    (channel : NotificationChannel) : Tx Bool := do
  let id ← freshId
  queueNotification {
    id, channel, managementToken
    organizationId := booking.organizationId
    bookingId := booking.id
    dedupeKey := reminderDedupeKey channel booking offsetMinutes }

/-- `tx.managementToken.delete`, of a link that nobody was sent. -/
def deleteToken (tokenHash : String) : Tx Unit :=
  modify (S := store) .plain (fun _ => [.managementToken tokenHash])
    (fun _ => Db.onTokens (List.filter fun t => !decide (t.tokenHash = tokenHash))) fun _ => ()

/-- One attempt at queueing the reminders of a booking. Whether its customer has a phone number is
for the surroundings to say, as customers are not modelled. -/
def fireOnce (api : Api) (input : FireInput) (booking : Booking) : Tx Unit := do
  let token ← issueToken api booking.id booking.organizationId booking.endsAt
  let email ← queueReminder booking input.offsetMinutes token .EMAIL
  let hasPhone := decide ((← answer).choice = 0)
  let sms ←
    if api.settings.smsRemindersEnabled && hasPhone then
      queueReminder booking input.offsetMinutes token .SMS
    else pure false
  if email = false ∧ sms = false then deleteToken (api.hashManagementToken token)

/-- `ReminderService.fire` -/
def fire (api : Api) (input : FireInput) : Tx FireOutcome := do
  match ← query fun d =>
      findIn Booking.organizationId api.organizationId input.bookingId d.bookings with
  | none => return .SKIPPED
  | some booking =>
    if booking.status ≠ .CONFIRMED then return .SKIPPED
    else if startsAtEpochSeconds booking.startsAt ≠ input.expectedStartsAtEpochSeconds then
      return .SKIPPED
    else if input.offsetMinutes ∉ api.settings.reminderOffsetsMinutes then return .SKIPPED
    else
      withSerializationRetry fun _ => transaction (S := store) (.reminder booking.id)
        (fireOnce api input booking)
      return .SENT

end BookingApp
