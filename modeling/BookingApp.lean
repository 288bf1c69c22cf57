import BookingApp.ReadCommitted.System
import BookingApp.ReadCommitted.Logic
import BookingApp.Domain.Engine
import BookingApp.ReadCommitted.Adequacy
import BookingApp.Table
import BookingApp.Domain.Slots
import BookingApp.Domain.Offers
import BookingApp.Errors
import BookingApp.Money
import BookingApp.Store.Schema
import BookingApp.Store.Constraints
import BookingApp.Store.Session
import BookingApp.Payment.Refunds
import BookingApp.Store.Rules
import BookingApp.Payment.Reserving
import BookingApp.Payment.Ledger
import BookingApp.Payment.Settling
import BookingApp.Payment.Submitting
import BookingApp.Payment.Balances
import BookingApp.Payment.Acceptance
import BookingApp.Booking.Holds
import BookingApp.Booking.Endings
import BookingApp.Booking.Reservation
import BookingApp.Booking.Processor
import BookingApp.Booking.Reschedule
import BookingApp.Booking.Checkout
import BookingApp.Booking.Life
import BookingApp.Messaging.Redrive
import BookingApp.Messaging.Attempts
import BookingApp.Messaging.Replays
import BookingApp.Messaging.Leases
import BookingApp.Messaging.Effects
import BookingApp.Booking.Changes
import BookingApp.Booking.Reminders
import BookingApp.Booking.Sessions
import BookingApp.Booking.Protocol
import BookingApp.Booking.Outcomes
import BookingApp.Booking.Occupying
import BookingApp.Booking.Closing
import BookingApp.Booking.Moving
import BookingApp.Booking.FollowUps
import BookingApp.Booking.Operations
import BookingApp.Booking.Histories
import BookingApp.Booking.Leave
import BookingApp.Booking.Calendar
import BookingApp.Booking.Requests
import BookingApp.Booking.Links
import BookingApp.Booking.Captures
import BookingApp.Booking.Charges
import BookingApp.Booking.Released
import BookingApp.Booking.Foreign
import BookingApp.Tenant.Arguments
import BookingApp.Tenant.Extension
import BookingApp.ReadCommitted.Alone
import BookingApp.Booking.Window
import BookingApp.Payment.Reports
import BookingApp.Interleaving.Logic
import BookingApp.Office.Audit
import BookingApp.Office.Coverage
import BookingApp.Auth.Redis
import BookingApp.Auth.Accounts
import BookingApp.Auth.Moves
import BookingApp.Auth.Revocation
import BookingApp.Auth.Authority
import BookingApp.Payment.Targets
import BookingApp.Organization.Account
import BookingApp.Auth.Owners
import BookingApp.Auth.Lockout
import BookingApp.Encoding.Bytes
import BookingApp.Encoding.Json
import BookingApp.Keyset
import BookingApp.Messaging.Outbox
import BookingApp.Notification.Sending
import BookingApp.Encoding.Instant
import BookingApp.Office.Cursor
import BookingApp.Office.BookingList
import BookingApp.Office.Erasure
import BookingApp.Notification.Rebuild
import BookingApp.Domain.Dates
import BookingApp.Domain.Cover
import BookingApp.Domain.CancellationFee
import BookingApp.Booking.Rejection
import BookingApp.Rearrange
import BookingApp.Domain.Rearranged
import BookingApp.Domain.Views
import BookingApp.Encoding.Timestamps
import BookingApp.Office.BlockedTimes
import BookingApp.Booking.Snapshots
import BookingApp.Office.Offers
import BookingApp.Booking.Selection
import BookingApp.Booking.Padding
import BookingApp.Manage.Availability
import BookingApp.Office.Retiring
import BookingApp.Office.Pairings
import BookingApp.Office.ClientCursors
import BookingApp.Encoding.Rfc4180
import BookingApp.Messaging.Canonical
import BookingApp.Office.Csv
import BookingApp.Merging
import BookingApp.Office.LedgerExport
import BookingApp.Auth.Resets
import BookingApp.Office.Dashboard
import BookingApp.Organization.Onboarding
import BookingApp.Booking.Payable
import BookingApp.Booking.Reminded
import BookingApp.Interleaving.Within
import BookingApp.Notification.Delivery
import BookingApp.Office.WorkingWeek
import BookingApp.Web.BookingDraft
import BookingApp.Encoding.DateTexts
import BookingApp.Organization.Hostname
import BookingApp.Web.CalendarLayout
import BookingApp.Web.OfficeSession
import BookingApp.Payment.ManualPayments
import BookingApp.Payment.Roots
import BookingApp.Office.Customers
import BookingApp.Notification.Mail
import BookingApp.Notification.Messages
import BookingApp.Encoding.Markup
import BookingApp.Messaging.Inbox
import BookingApp.Organization.Slug
import BookingApp.Organization.Tenants
import BookingApp.Draining
import BookingApp.Booking.Sweeps
import BookingApp.Booking.Catalogue
