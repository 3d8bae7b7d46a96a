import SalonBooking.Delivery.Notifications

/-!
# The waitlist worker and the other writers of the queues

`WaitlistDeliveryService`, the waitlist repository with its callers, and the reminder rebuild of a settings
update, as programs of statements. The rebuild and `WaitlistRepository.cancel_unsent` read their rows by a
plain select and write them by object.
-/

namespace SalonBooking

open Lib

/-! ### `WaitlistRepository` -/

namespace WaitlistRepository

/-- The WHERE of `claim_due_notifications`. -/
def isDue (now leaseExpiredBefore : Int) (job : WaitlistNotification) : Bool :=
  (job.status = .pending || job.status = .retry ||
    (job.status = .processing && job.lockedAt.any (· < leaseExpiredBefore))) && job.availableAt ≤ now

/-- The WHERE and ORDER BY of `claim_due_notifications`. -/
def dueIds (now leaseExpiredBefore : Int) (jobs : Table WaitlistNotification) : List Nat :=
  ((jobs.select (isDue now leaseExpiredBefore)).insertionSort fun a b =>
    a.2.availableAt < b.2.availableAt ∨ a.2.availableAt = b.2.availableAt ∧ a.1 ≤ b.1).map Prod.fst

def claimed (worker : String) (now : Int) (job : WaitlistNotification) : WaitlistNotification :=
  { job with status := .processing, lockedAt := some now, lockedBy := some worker, attempts := job.attempts + 1 }

def claimDueNotifications (worker : String) (limit : Nat) (now leaseExpiredBefore : Int) (next : List Nat → QueueTx) :
    QueueTx :=
  .skipLocked .notifications (dueIds now leaseExpiredBefore) limit fun rows =>
    .assignAll .notifications (rows.map fun r => (r.1, claimed worker now r.2)) (.flush (next (rows.map Prod.fst)))

/-- What `cancel_unsent` assigns. -/
def cancelled (job : WaitlistNotification) : WaitlistNotification :=
  { job with status := .cancelled, lockedAt := none, lockedBy := none }

def cancelUnsent (entryId : Nat) (next : QueueTx) : QueueTx :=
  .select .notifications
    (fun jobs => (jobs.select fun job => job.waitlistEntryId = entryId && job.status.isUnsent).map Prod.fst)
    fun rows => .assignAll .notifications (rows.map fun r => (r.1, cancelled r.2)) (.flush next)

/-- What `mark_booked_for_window` does with the entries of the join, one after the other. -/
def markBooked (appointmentId : Nat) (entries : List (Nat × WaitlistEntry)) (next : QueueTx) : QueueTx :=
  entries.foldr (fun r p =>
    .assign .entries r.1 { r.2 with status := .booked, bookedAppointmentId := some appointmentId }
      (cancelUnsent r.1 p)) next

/-- `matched` are the entries for which the join finds a notification of the window; FOR UPDATE locks the rows of
both tables. -/
def markBookedForWindow (clientId serviceId windowId appointmentId : Nat) (matched : List Nat) (next : QueueTx) :
    QueueTx :=
  .lock .entries (fun entries => ((entries.select fun entry =>
      entry.clientId = clientId && entry.serviceId = serviceId && entry.status.isLive).map Prod.fst).filter
        (· ∈ matched)) fun rows =>
    .lock .notifications (fun jobs => (jobs.select fun job =>
      job.windowId = windowId && rows.any (·.1 = job.waitlistEntryId)).map Prod.fst) fun _ =>
      markBooked appointmentId rows (.flush next)

end WaitlistRepository

/-! ### `WaitlistDeliveryService` -/

/-- What the selects of `prepare_delivery` on tables outside the queues return. -/
structure WaitlistContext where
  features : Option (FeatureName → Bool)
  /-- Status and start of the window. -/
  window : Option (WindowStatus × Int)
  recipient : Option Recipient
  serviceName : Option String
  timezone : Option String

structure WaitlistDeliveryService where
  leaseSeconds : Int
  maxAttempts : Nat

namespace WaitlistDeliveryService

/-- The worker holds the lease of the notification. -/
def Leased (worker : String) (job : WaitlistNotification) : Prop :=
  job.status = .processing ∧ job.lockedBy = some worker

instance (worker : String) (job : WaitlistNotification) : Decidable (Leased worker job) :=
  inferInstanceAs (Decidable (_ ∧ _))

/-- `_claimed`. -/
def claimed (notificationId : Nat) (worker : String) (next : Option WaitlistNotification → QueueTx) : QueueTx :=
  .getForUpdate .notifications notificationId fun row => next (row.filter fun job => Leased worker job)

theorem ensures_claimed {D Q : Copies QueueTable.Row → QueueAnswer → Prop} {i : Nat} {worker : String}
    {next : Option WaitlistNotification → QueueTx} (hnone : ∀ c, (next none).Ensures D Q c)
    (hsome : ∀ job, Leased worker job →
      (next (some job)).Ensures D Q (Copies.put Copies.empty QueueTable.notifications i (.ofRow true job))) :
    (claimed i worker next).Ensures D Q Copies.empty :=
  Tx.ensures_claimed (fun job : QueueTable.Row .notifications => Leased worker job) hnone hsome

theorem writes_claimed {G : (t : QueueTable) → Nat → t.Row → t.Row → Prop} {i : Nat} {worker : String}
    {next : Option WaitlistNotification → QueueTx} (hnone : ∀ c, (next none).Writes G c)
    (hsome : ∀ job, Leased worker job →
      (next (some job)).Writes G (Copies.put Copies.empty QueueTable.notifications i (.ofRow true job))) :
    (claimed i worker next).Writes G Copies.empty :=
  Tx.writes_claimed (fun job : QueueTable.Row .notifications => Leased worker job) hnone hsome

/-- What `_finish` assigns. -/
def finished (job : WaitlistNotification) (status : WaitlistNotificationStatus) (error : Option String) :
    WaitlistNotification :=
  { job with status, lockedAt := none, lockedBy := none, lastError := error.map errorText }

/-- `_finish` and a commit. -/
def finish (notificationId : Nat) (job : WaitlistNotification) (status : WaitlistNotificationStatus)
    (error : Option String) (answer : QueueAnswer) : QueueTx :=
  .assign .notifications notificationId (finished job status error) (.flush (.commit answer))

/-- The checks of `prepare_delivery` after the feature switch, in their order. -/
def verdict (ctx : WaitlistContext) (entry : Option WaitlistEntry) (notificationId : Nat) (job : WaitlistNotification)
    (current : Int) : Except (WaitlistNotificationStatus × String) WaitlistDelivery :=
  match entry, ctx.window with
  | some entry, some (status, startAt) =>
    if !entry.status.isLive || entry.expiresAt ≤ current || status ≠ .open || startAt ≤ current then
      .error (.cancelled, "match_inactive")
    else
      match ctx.recipient, ctx.serviceName, ctx.timezone with
      | some recipient, some serviceName, some timezone =>
        if recipient.isBlocked then .error (.failed, "recipient_blocked")
        else
          .ok
            { notificationId, entryId := job.waitlistEntryId, windowId := job.windowId
              recipientUserId := recipient.id, recipientTelegramId := recipient.telegramId, serviceName, startAt
              timezone, attempts := job.attempts }
      | _, _, _ => .error (.failed, "context_missing")
  | _, _ => .error (.cancelled, "match_inactive")

theorem verdict_error {ctx : WaitlistContext} {entry : Option WaitlistEntry} {i : Nat} {job : WaitlistNotification}
    {now : Int} {status : WaitlistNotificationStatus} {reason : String}
    (h : verdict ctx entry i job now = .error (status, reason)) : status = .cancelled ∨ status = .failed := by
  unfold verdict at h
  split at h
  · split at h
    · cases h; exact .inl rfl
    · split at h
      · split at h <;> cases h
        exact .inr rfl
      · cases h; exact .inr rfl
  · cases h; exact .inl rfl

variable (service : WaitlistDeliveryService)

def claimDue (worker : String) (limit : Nat) (current : Int) : QueueTx :=
  WaitlistRepository.claimDueNotifications worker limit current (current - seconds service.leaseSeconds) fun ids =>
    .commit (.jobIds ids)

def prepareDelivery (notificationId : Nat) (worker : String) (ctx : WaitlistContext) (current : Int) : QueueTx :=
  claimed notificationId worker fun
    | none => .done (.waitlistDelivery none)
    | some job =>
      if ctx.features.any (fun flags => flags .waitlist) then
        .get .entries job.waitlistEntryId fun entry =>
          match verdict ctx entry notificationId job current with
          | .error (status, reason) => finish notificationId job status (some reason) (.waitlistDelivery none)
          | .ok d => .done (.waitlistDelivery (some d))
      else finish notificationId job .cancelled (some "feature_disabled") (.waitlistDelivery none)

/-- The delivery time is assigned after the first UPDATE. -/
def markSent (notificationId : Nat) (worker : String) (now : Int) : QueueTx :=
  claimed notificationId worker fun
    | none => .done (.changed false)
    | some job =>
      .assign .notifications notificationId (finished job .sent none)
        (.flush (.assign .notifications notificationId { finished job .sent none with sentAt := some now }
          (.commit (.changed true))))

def retry (notificationId : Nat) (worker : String) (delaySeconds : Int) (errorCode : String) (now : Int) : QueueTx :=
  claimed notificationId worker fun
    | none => .done (.changed false)
    | some job =>
      if service.maxAttempts ≤ job.attempts then
        finish notificationId job .failed (some "attempts_exhausted") (.changed true)
      else
        .assign .notifications notificationId
          { job with status := .retry, availableAt := now + seconds (max 1 delaySeconds), lockedAt := none
                     lockedBy := none, lastError := some (errorText errorCode) }
          (.commit (.changed true))

/-- `mark_recipient_blocked` and `mark_permanent_failure`. -/
def markFailed (notificationId : Nat) (worker errorCode : String) : QueueTx :=
  claimed notificationId worker fun
    | none => .done (.changed false)
    | some job => finish notificationId job .failed (some errorCode) (.changed true)

def markRecipientBlocked (notificationId : Nat) (worker : String) : QueueTx :=
  markFailed notificationId worker "telegram_forbidden"

def markPermanentFailure (notificationId : Nat) (worker errorCode : String) : QueueTx :=
  markFailed notificationId worker errorCode

end WaitlistDeliveryService

namespace WaitlistService

/-- `_archive`, of a client's cancellation and of an administrator's. -/
def archive (entryId : Nat) : QueueTx :=
  .getForUpdate .entries entryId fun
    | none => .done .raised
    | some entry =>
      if entry.status.isLive then
        .assign .entries entryId { entry with status := .cancelled }
          (WaitlistRepository.cancelUnsent entryId (.commit .done))
      else .done .raised

end WaitlistService

/-! ### `SettingsService` -/

/-- A future appointment as the rebuild reads it: the start of its window and its client with the block flag. -/
structure RebuildTarget where
  appointmentId : Nat
  startAt : Int
  client : Option (Nat × Bool)

namespace SettingsService

/-- The schedule and the job are about the same delivery. -/
def sameKey (schedule : ReminderSchedule) (job : NotificationJob) : Bool :=
  schedule.recipientUserId = job.recipientUserId && schedule.notificationType = job.notificationType &&
    schedule.offsetMinutes = job.offsetMinutes

/-- What the rebuild leaves of a job that it has read. -/
def rebuilt (schedules : List ReminderSchedule) (job : NotificationJob) : NotificationJob :=
  match schedules.find? (sameKey · job) with
  | none => if job.status.isUnsent then { job with status := .cancelled, lockedAt := none, lockedBy := none } else job
  | some schedule =>
    if job.status = .sent then job
    else
      { job with scheduledAt := schedule.scheduledAt, availableAt := schedule.scheduledAt, status := .pending
                 attempts := 0, lockedAt := none, lockedBy := none, sentAt := none, lastError := none }

/-- The job of a schedule that has none. -/
def newJob (appointmentId : Nat) (schedule : ReminderSchedule) : NotificationJob :=
  { appointmentId, recipientUserId := schedule.recipientUserId, notificationType := schedule.notificationType
    offsetMinutes := schedule.offsetMinutes, scheduledAt := schedule.scheduledAt, availableAt := schedule.scheduledAt }

/-- `add_all`: one flush writes what was assigned and inserts the new jobs. -/
def addAll (jobs : List NotificationJob) (next : QueueTx) : QueueTx :=
  match jobs with
  | [] => next
  | _ => .flush (jobs.foldr (fun job p => .insert .jobs job fun _ => p) next)

/-- `_rebuild_future_reminders`, one appointment after the other. -/
def rebuildFutureReminders (offsetsMinutes : List Int) (now : Int) (adminUserIds : List Nat) :
    List RebuildTarget → QueueTx → QueueTx
  | [], next => next
  | target :: targets, next =>
    match target.client with
    | none => .done .raised
    | some (clientId, isBlocked) =>
      match futureReminderSchedules target.startAt now offsetsMinutes clientId adminUserIds with
      | .error _ => .done .raised
      | .ok all =>
        let schedules := if isBlocked then all.filter (·.notificationType ≠ .clientReminder) else all
        .select .jobs (fun jobs => (jobs.select fun job => job.appointmentId = target.appointmentId).map Prod.fst)
          fun existing =>
            .assignAll .jobs (existing.map fun r => (r.1, rebuilt schedules r.2))
              (addAll ((schedules.filter fun s => !existing.any fun r => sameKey s r.2).map (newJob target.appointmentId))
                (rebuildFutureReminders offsetsMinutes now adminUserIds targets next))

/-- `update` of the reminder offsets; the settings row has the key 1. -/
def updateReminderOffsets (offsetsMinutes : List Int) (now : Int) (adminUserIds : List Nat)
    (targets : List RebuildTarget) : QueueTx :=
  .getForUpdate .settings 1 fun
    | none => .done .raised
    | some settings =>
      .assign .settings 1 ⟨offsetsMinutes, settings.version + 1⟩
        (rebuildFutureReminders offsetsMinutes now adminUserIds targets (.flush (.commit .done)))

end SettingsService

/-! ### All writers of the queues -/

/-- The operations of the waitlist worker. -/
inductive WaitlistOp
  | claimDue (worker : String) (limit : Nat) (current : Int)
  | prepareDelivery (notificationId : Nat) (worker : String) (ctx : WaitlistContext) (current : Int)
  | markSent (notificationId : Nat) (worker : String) (now : Int)
  | retry (notificationId : Nat) (worker : String) (delaySeconds : Int) (errorCode : String) (now : Int)
  | markRecipientBlocked (notificationId : Nat) (worker : String)
  | markPermanentFailure (notificationId : Nat) (worker errorCode : String)

inductive QueueOp
  | notification (op : NotificationOp)
  | waitlist (op : WaitlistOp)
  /-- A client's cancellation of a waitlist request, or an administrator's. -/
  | archive (entryId : Nat)
  /-- The waitlist part of a booking. -/
  | markBooked (clientId serviceId windowId appointmentId : Nat) (matched : List Nat)
  | updateReminderOffsets (offsetsMinutes : List Int) (now : Int) (adminUserIds : List Nat) (targets : List RebuildTarget)

structure QueueServices where
  notification : NotificationService
  waitlist : WaitlistDeliveryService

def WaitlistOp.tx (service : WaitlistDeliveryService) : WaitlistOp → QueueTx
  | claimDue worker limit current => service.claimDue worker limit current
  | prepareDelivery notificationId worker ctx current =>
    WaitlistDeliveryService.prepareDelivery notificationId worker ctx current
  | markSent notificationId worker now => WaitlistDeliveryService.markSent notificationId worker now
  | retry notificationId worker delaySeconds errorCode now =>
    service.retry notificationId worker delaySeconds errorCode now
  | markRecipientBlocked notificationId worker => WaitlistDeliveryService.markRecipientBlocked notificationId worker
  | markPermanentFailure notificationId worker errorCode =>
    WaitlistDeliveryService.markPermanentFailure notificationId worker errorCode

def QueueOp.tx (services : QueueServices) : QueueOp → QueueTx
  | notification op => op.tx services.notification
  | waitlist op => op.tx services.waitlist
  | archive entryId => WaitlistService.archive entryId
  | markBooked clientId serviceId windowId appointmentId matched =>
    WaitlistRepository.markBookedForWindow clientId serviceId windowId appointmentId matched (.commit .done)
  | updateReminderOffsets offsets now admins targets => SettingsService.updateReminderOffsets offsets now admins targets

end SalonBooking
