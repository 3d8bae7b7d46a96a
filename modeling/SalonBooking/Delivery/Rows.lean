import SalonBooking.Domain.Notifications
import SalonBooking.Lib.Statements
import Mathlib

/-!
# The delivery queues

The tables that the notification worker, the waitlist worker and their competitors share, and how an
UPDATE writes their rows: column by column, the columns that a session has changed.
-/

namespace SalonBooking

open Lib

/-- `notification_jobs`. -/
structure NotificationJob where
  appointmentId : Nat
  recipientUserId : Nat
  notificationType : NotificationType
  offsetMinutes : Int
  scheduledAt : Int
  availableAt : Int
  status : NotificationJobStatus := .pending
  attempts : Nat := 0
  lockedAt : Option Int := none
  lockedBy : Option String := none
  sentAt : Option Int := none
  lastError : Option String := none
  deriving DecidableEq

/-- `waitlist_notifications`. -/
structure WaitlistNotification where
  waitlistEntryId : Nat
  windowId : Nat
  scheduledAt : Int
  availableAt : Int
  status : WaitlistNotificationStatus := .pending
  attempts : Nat := 0
  lockedAt : Option Int := none
  lockedBy : Option String := none
  sentAt : Option Int := none
  lastError : Option String := none
  deriving DecidableEq

/-- `waitlist_entries`. -/
structure WaitlistEntry where
  clientId : Nat
  serviceId : Nat
  /-- Days of the wish. -/
  dateFrom : Int
  dateTo : Int
  preferredDates : List Int := []
  /-- Wall-clock times within a day. -/
  preferredTimeFrom : Option Int := none
  preferredTimeTo : Option Int := none
  status : WaitlistStatus := .active
  notifiedAt : Option Int := none
  expiresAt : Int
  bookedAppointmentId : Option Nat := none
  createdAt : Int
  deriving DecidableEq

/-- The columns of `business_settings` that the reminder rebuild goes with. -/
structure ReminderSettings where
  reminderOffsetsMinutes : List Int
  version : Nat
  deriving DecidableEq

/-- The tables of the delivery queues. -/
inductive QueueTable
  | jobs | notifications | entries | settings
  deriving DecidableEq

instance : Fintype QueueTable := ⟨{.jobs, .notifications, .entries, .settings}, fun t => by cases t <;> decide⟩

@[reducible] def QueueTable.Row : QueueTable → Type
  | jobs => NotificationJob
  | notifications => WaitlistNotification
  | entries => WaitlistEntry
  | settings => ReminderSettings

instance : ∀ t : QueueTable, DecidableEq t.Row
  | .jobs => inferInstanceAs (DecidableEq NotificationJob)
  | .notifications => inferInstanceAs (DecidableEq WaitlistNotification)
  | .entries => inferInstanceAs (DecidableEq WaitlistEntry)
  | .settings => inferInstanceAs (DecidableEq ReminderSettings)

/-! ### UPDATE by changed columns -/

instance : Columns NotificationJob where
  write l a s :=
    { appointmentId := flushed l.appointmentId a.appointmentId s.appointmentId
      recipientUserId := flushed l.recipientUserId a.recipientUserId s.recipientUserId
      notificationType := flushed l.notificationType a.notificationType s.notificationType
      offsetMinutes := flushed l.offsetMinutes a.offsetMinutes s.offsetMinutes
      scheduledAt := flushed l.scheduledAt a.scheduledAt s.scheduledAt
      availableAt := flushed l.availableAt a.availableAt s.availableAt
      status := flushed l.status a.status s.status
      attempts := flushed l.attempts a.attempts s.attempts
      lockedAt := flushed l.lockedAt a.lockedAt s.lockedAt
      lockedBy := flushed l.lockedBy a.lockedBy s.lockedBy
      sentAt := flushed l.sentAt a.sentAt s.sentAt
      lastError := flushed l.lastError a.lastError s.lastError }
  write_fresh l a := by simp
  write_untouched l s := by simp

instance : Columns WaitlistNotification where
  write l a s :=
    { waitlistEntryId := flushed l.waitlistEntryId a.waitlistEntryId s.waitlistEntryId
      windowId := flushed l.windowId a.windowId s.windowId
      scheduledAt := flushed l.scheduledAt a.scheduledAt s.scheduledAt
      availableAt := flushed l.availableAt a.availableAt s.availableAt
      status := flushed l.status a.status s.status
      attempts := flushed l.attempts a.attempts s.attempts
      lockedAt := flushed l.lockedAt a.lockedAt s.lockedAt
      lockedBy := flushed l.lockedBy a.lockedBy s.lockedBy
      sentAt := flushed l.sentAt a.sentAt s.sentAt
      lastError := flushed l.lastError a.lastError s.lastError }
  write_fresh l a := by simp
  write_untouched l s := by simp

instance : Columns WaitlistEntry where
  write l a s :=
    { clientId := flushed l.clientId a.clientId s.clientId
      serviceId := flushed l.serviceId a.serviceId s.serviceId
      dateFrom := flushed l.dateFrom a.dateFrom s.dateFrom
      dateTo := flushed l.dateTo a.dateTo s.dateTo
      preferredDates := flushed l.preferredDates a.preferredDates s.preferredDates
      preferredTimeFrom := flushed l.preferredTimeFrom a.preferredTimeFrom s.preferredTimeFrom
      preferredTimeTo := flushed l.preferredTimeTo a.preferredTimeTo s.preferredTimeTo
      status := flushed l.status a.status s.status
      notifiedAt := flushed l.notifiedAt a.notifiedAt s.notifiedAt
      expiresAt := flushed l.expiresAt a.expiresAt s.expiresAt
      bookedAppointmentId := flushed l.bookedAppointmentId a.bookedAppointmentId s.bookedAppointmentId
      createdAt := flushed l.createdAt a.createdAt s.createdAt }
  write_fresh l a := by simp
  write_untouched l s := by simp

instance : Columns ReminderSettings where
  write l a s :=
    { reminderOffsetsMinutes := flushed l.reminderOffsetsMinutes a.reminderOffsetsMinutes s.reminderOffsetsMinutes
      version := flushed l.version a.version s.version }
  write_fresh l a := by simp
  write_untouched l s := by simp

instance : ∀ t : QueueTable, Columns t.Row
  | .jobs => inferInstanceAs (Columns NotificationJob)
  | .notifications => inferInstanceAs (Columns WaitlistNotification)
  | .entries => inferInstanceAs (Columns WaitlistEntry)
  | .settings => inferInstanceAs (Columns ReminderSettings)

end SalonBooking
