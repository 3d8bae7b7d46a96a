import SalonBooking.Domain.Appointments

/-!
# Reminder rules

The statuses and types of the two delivery queues and `domain/notifications.py`.
-/

namespace SalonBooking

open Lib

inductive NotificationJobStatus
  | pending | processing | sent | failed | cancelled
  deriving DecidableEq, Repr

inductive NotificationType
  | clientReminder | adminReminder | reviewRequest | repeatBookingReminder | paymentDueClient | paymentReviewStaff
  deriving DecidableEq, Repr

inductive WaitlistStatus
  | active | matched | booked | cancelled | expired
  deriving DecidableEq, Repr

inductive WaitlistNotificationStatus
  | pending | processing | sent | retry | failed | cancelled
  deriving DecidableEq, Repr

namespace NotificationJobStatus

/-- The statuses that `cancel_unsent` and `cancel_unsent_by_type` select. -/
def isUnsent : NotificationJobStatus → Bool
  | pending | processing => true
  | _ => false

end NotificationJobStatus

namespace WaitlistStatus

/-- A request that still waits for a window. -/
def isLive : WaitlistStatus → Bool
  | active | matched => true
  | _ => false

end WaitlistStatus

namespace WaitlistNotificationStatus

/-- The statuses that `WaitlistRepository.cancel_unsent` selects. -/
def isUnsent : WaitlistNotificationStatus → Bool
  | pending | retry | processing => true
  | _ => false

end WaitlistNotificationStatus

/-- `timedelta(seconds=n)`. -/
def seconds (n : Int) : Int := n * 1000000

structure ReminderSchedule where
  recipientUserId : Nat
  notificationType : NotificationType
  offsetMinutes : Int
  scheduledAt : Int
  deriving DecidableEq

/-- Only reminders whose instant is strictly in the future. -/
def futureReminderSchedules (startAt now : Int) (offsetsMinutes : List Int) (clientUserId : Nat)
    (adminUserIds : List Nat) : Check (List ReminderSchedule) := do
  let recipients := (clientUserId, NotificationType.clientReminder) ::
    adminUserIds.map fun adminId => (adminId, NotificationType.adminReminder)
  let schedules ← offsetsMinutes.mapM fun offset => do
    require (0 < offset) (.value "reminder offsets must be positive")
    let scheduledAt := startAt - minutes offset
    pure (if scheduledAt ≤ now then [] else recipients.map fun r => ⟨r.1, r.2, offset, scheduledAt⟩)
  pure schedules.flatten

end SalonBooking
