import SalonBooking.Delivery.Rows
import SalonBooking.Model.Catalog
import Mathlib

/-!
# The notification worker

`NotificationService` and `NotificationRepository` as programs of statements. What the delivery check reads
from other tables comes with the operation: it is what those selects return.
-/

namespace SalonBooking

open Lib

structure NotificationDelivery where
  jobId : Nat
  appointmentId : Nat
  recipientUserId : Nat
  recipientTelegramId : Int
  notificationType : NotificationType
  offsetMinutes : Int
  attempts : Nat
  serviceName : String
  startAt : Int
  timezone : String
  address : String
  mapUrl : Option String
  masterTelegramUrl : Option String
  clientName : String
  clientPhone : Option String
  paymentId : Option Nat
  deriving DecidableEq

structure WaitlistDelivery where
  notificationId : Nat
  entryId : Nat
  windowId : Nat
  recipientUserId : Nat
  recipientTelegramId : Int
  serviceName : String
  startAt : Int
  timezone : String
  attempts : Nat
  deriving DecidableEq

/-- What an operation on a queue answers. -/
inductive QueueAnswer
  | jobIds (ids : List Nat)
  | delivery (d : Option NotificationDelivery)
  | waitlistDelivery (d : Option WaitlistDelivery)
  | changed (b : Bool)
  | rowcount (n : Nat)
  | done
  | raised
  deriving DecidableEq

/-- A transaction over the queues. None of them takes an advisory lock. -/
abbrev QueueTx : Type := Tx QueueTable.Row Empty QueueAnswer

/-- `error_code[:1000]`. -/
def errorText (code : String) : String := .ofList (code.toList.take 1000)

/-! ### `NotificationRepository` -/

namespace NotificationRepository

/-- The WHERE of `claim_due`. -/
def isDue (now leaseExpiredBefore : Int) (job : NotificationJob) : Bool :=
  (job.status = .pending && job.availableAt ≤ now) ||
    (job.status = .processing && job.availableAt ≤ now && job.lockedAt.any (· ≤ leaseExpiredBefore))

/-- The WHERE and ORDER BY of `claim_due`. -/
def dueIds (now leaseExpiredBefore : Int) (jobs : Table NotificationJob) : List Nat :=
  ((jobs.select (isDue now leaseExpiredBefore)).insertionSort fun a b =>
    a.2.availableAt < b.2.availableAt ∨ a.2.availableAt = b.2.availableAt ∧ a.1 ≤ b.1).map Prod.fst

def claimed (worker : String) (now : Int) (job : NotificationJob) : NotificationJob :=
  { job with status := .processing, attempts := job.attempts + 1, lockedAt := some now, lockedBy := some worker }

def claimDue (worker : String) (limit : Nat) (now leaseExpiredBefore : Int) (next : List Nat → QueueTx) : QueueTx :=
  .skipLocked .jobs (dueIds now leaseExpiredBefore) limit fun rows =>
    .assignAll .jobs (rows.map fun r => (r.1, claimed worker now r.2)) (.flush (next (rows.map Prod.fst)))

def cancelled (job : NotificationJob) : NotificationJob :=
  { job with status := .cancelled, lockedAt := none, lockedBy := none }

/-- `UPDATE ... WHERE p AND status IN (PENDING, PROCESSING)`: locks the rows, reads them afresh and writes them. -/
def cancelWhere (p : NotificationJob → Bool) (next : Nat → QueueTx) : QueueTx :=
  .lock .jobs (fun jobs => (jobs.select fun job => p job && job.status.isUnsent).map Prod.fst) fun rows =>
    .assignAll .jobs (rows.map fun r => (r.1, cancelled r.2)) (.flush (next rows.length))

def cancelUnsent (appointmentId : Nat) : (Nat → QueueTx) → QueueTx :=
  cancelWhere fun job => job.appointmentId = appointmentId

def cancelUnsentByType (notificationType : NotificationType) : (Nat → QueueTx) → QueueTx :=
  cancelWhere fun job => job.notificationType = notificationType

end NotificationRepository

/-! ### `NotificationService` -/

/-- A client, an administrator or a master as a delivery sees them. -/
structure Recipient where
  id : Nat
  telegramId : Int
  isBlocked : Bool
  firstName : Option String
  phone : Option String
  deriving DecidableEq

/-- The columns of an appointment that a delivery reads. -/
structure DeliveryAppointment where
  id : Nat
  status : AppointmentStatus
  serviceNameSnapshot : String
  addressSnapshot : Option String
  mapUrlSnapshot : Option String
  masterContactUrlSnapshot : Option String
  deriving DecidableEq

/-- What the selects of `prepare_delivery` on other tables return. -/
structure DeliveryContext where
  features : Option (FeatureName → Bool)
  appointment : Option DeliveryAppointment
  recipient : Option Recipient
  /-- The latest payment of the appointment with its key. -/
  payment : Option (Nat × Payment)
  reviewExists : Bool
  windowStartAt : Option Int
  client : Option Recipient
  /-- The time zone and the review switch of the settings row. -/
  settings : Option (String × Bool)

structure NotificationService where
  leaseSeconds : Int
  maxAttempts : Nat

namespace NotificationService

/-- What the check before a delivery comes to. -/
inductive Verdict
  | cancel (reason : String)
  | fail (error : String)
  | deliver (d : NotificationDelivery)
  deriving DecidableEq

def requiredFeature : NotificationType → FeatureName
  | .reviewRequest => .reviews
  | .repeatBookingReminder => .repeatBooking
  | .paymentDueClient | .paymentReviewStaff => .prepayment
  | _ => .reminders

/-- The job may still be delivered as far as the state of its appointment goes; else the reason of the cancellation. -/
def actionable (ctx : DeliveryContext) (appointment : DeliveryAppointment) (job : NotificationJob) (now : Int) :
    Option String :=
  match job.notificationType with
  | .paymentDueClient | .paymentReviewStaff =>
    let clientDue := job.notificationType = .paymentDueClient && appointment.status = .pendingPayment &&
      ctx.payment.any fun p => p.2.provider = .manual && p.2.status = .pending &&
        p.2.manualStatus = some .awaitingPayment && p.2.expiresAt.any (now < ·)
    let staffReview := job.notificationType = .paymentReviewStaff &&
      appointment.status = .pendingManualConfirmation &&
      ctx.payment.any fun p => p.2.provider = .manual && p.2.status = .pending &&
        (p.2.manualStatus = some .clientReported || p.2.manualStatus = some .reviewPending)
    if clientDue || staffReview then none else some "payment_not_actionable"
  | .reviewRequest =>
    if appointment.status = .completed && ctx.settings.any (·.2) && !ctx.reviewExists then none
    else some "review_not_actionable"
  | _ => if appointment.status.isActive then none else some "appointment_inactive"

/-- The checks of `prepare_delivery` in their order. -/
def verdict (ctx : DeliveryContext) (jobId : Nat) (job : NotificationJob) (now : Int) : Verdict :=
  if job.notificationType = .repeatBookingReminder then .cancel "feature_removed"
  else if ! ctx.features.any (fun flags => flags (requiredFeature job.notificationType)) then .cancel "feature_disabled"
  else
    match ctx.appointment, ctx.recipient with
    | some appointment, some recipient =>
      match actionable ctx appointment job now with
      | some reason => .cancel reason
      | none =>
        if recipient.isBlocked then .fail "recipient_blocked"
        else
          match ctx.windowStartAt, ctx.client, ctx.settings with
          | some startAt, some client, some settings =>
            if (job.notificationType = .clientReminder || job.notificationType = .adminReminder) && startAt ≤ now then
              .cancel "appointment_started"
            else
              .deliver
                { jobId, appointmentId := appointment.id, recipientUserId := recipient.id
                  recipientTelegramId := recipient.telegramId, notificationType := job.notificationType
                  offsetMinutes := job.offsetMinutes, attempts := job.attempts
                  serviceName := appointment.serviceNameSnapshot, startAt, timezone := settings.1
                  address := match appointment.addressSnapshot with
                    | some address => if address = "" then "Адрес не указан" else address
                    | none => "Адрес не указан"
                  mapUrl := appointment.mapUrlSnapshot, masterTelegramUrl := appointment.masterContactUrlSnapshot
                  clientName := match client.firstName with
                    | some name => if name = "" then "—" else name
                    | none => "—"
                  clientPhone := client.phone
                  paymentId := if job.notificationType = .paymentDueClient || job.notificationType = .paymentReviewStaff then
                    ctx.payment.map Prod.fst else none }
          | _, _, _ => .fail "delivery_context_missing"
    | _, _ => .fail "delivery_context_missing"

/-- The worker holds the lease of the job. -/
def Leased (worker : String) (job : NotificationJob) : Prop := job.status = .processing ∧ job.lockedBy = some worker

instance (worker : String) (job : NotificationJob) : Decidable (Leased worker job) := inferInstanceAs (Decidable (_ ∧ _))

def claimedJob (jobId : Nat) (worker : String) (next : Option NotificationJob → QueueTx) : QueueTx :=
  .getForUpdate .jobs jobId fun row => next (row.filter fun job => Leased worker job)

theorem ensures_claimedJob {D Q : Copies QueueTable.Row → QueueAnswer → Prop} {j : Nat} {worker : String}
    {next : Option NotificationJob → QueueTx} (hnone : ∀ c, (next none).Ensures D Q c)
    (hsome : ∀ job, Leased worker job →
      (next (some job)).Ensures D Q (Copies.put Copies.empty QueueTable.jobs j (.ofRow true job))) :
    (claimedJob j worker next).Ensures D Q Copies.empty :=
  Tx.ensures_claimed (fun job : QueueTable.Row .jobs => Leased worker job) hnone hsome

theorem writes_claimedJob {G : (t : QueueTable) → Nat → t.Row → t.Row → Prop} {j : Nat} {worker : String}
    {next : Option NotificationJob → QueueTx} (hnone : ∀ c, (next none).Writes G c)
    (hsome : ∀ job, Leased worker job →
      (next (some job)).Writes G (Copies.put Copies.empty QueueTable.jobs j (.ofRow true job))) :
    (claimedJob j worker next).Writes G Copies.empty :=
  Tx.writes_claimed (fun job : QueueTable.Row .jobs => Leased worker job) hnone hsome

/-- What `_cancel_job` assigns. -/
def cancelledJob (job : NotificationJob) (reason : String) : NotificationJob :=
  { job with status := .cancelled, lockedAt := none, lockedBy := none, lastError := some reason }

/-- What `_fail_job` assigns. -/
def failedJob (job : NotificationJob) (error : String) : NotificationJob :=
  { job with status := .failed, lockedAt := none, lockedBy := none, lastError := some (errorText error) }

/-- What `mark_sent` assigns. -/
def sentJob (job : NotificationJob) (now : Int) : NotificationJob :=
  { job with status := .sent, sentAt := some now, lockedAt := none, lockedBy := none, lastError := none }

/-- What `retry` assigns while attempts are left. -/
def retriedJob (job : NotificationJob) (delaySeconds : Int) (error : String) (now : Int) : NotificationJob :=
  { job with status := .pending, availableAt := now + seconds (max 1 delaySeconds), lockedAt := none, lockedBy := none
             lastError := some (errorText error) }

/-- Assigns the job, writes it and commits. -/
def finish (jobId : Nat) (job : NotificationJob) (answer : QueueAnswer) : QueueTx :=
  .assign .jobs jobId job (.flush (.commit answer))

variable (service : NotificationService)

def claimDue (worker : String) (limit : Nat) (now : Int) : QueueTx :=
  NotificationRepository.claimDue worker limit now (now - seconds service.leaseSeconds) fun ids => .commit (.jobIds ids)

def prepareDelivery (jobId : Nat) (worker : String) (ctx : DeliveryContext) (now : Int) : QueueTx :=
  claimedJob jobId worker fun
    | none => .done (.delivery none)
    | some job =>
      match verdict ctx jobId job now with
      | .cancel reason => finish jobId (cancelledJob job reason) (.delivery none)
      | .fail error => finish jobId (failedJob job error) (.delivery none)
      | .deliver d => .done (.delivery (some d))

def markSent (jobId : Nat) (worker : String) (now : Int) : QueueTx :=
  claimedJob jobId worker fun
    | none => .done (.changed false)
    | some job => finish jobId (sentJob job now) (.changed true)

def retry (jobId : Nat) (worker : String) (delaySeconds : Int) (errorCode : String) (now : Int) : QueueTx :=
  claimedJob jobId worker fun
    | none => .done (.changed false)
    | some job =>
      finish jobId (if service.maxAttempts ≤ job.attempts then failedJob job "attempts_exhausted"
        else retriedJob job delaySeconds errorCode now) (.changed true)

def markRecipientBlocked (jobId : Nat) (worker : String) : QueueTx :=
  claimedJob jobId worker fun
    | none => .done (.changed false)
    | some job => finish jobId (failedJob job "telegram_forbidden") (.changed true)

def markPermanentFailure (jobId : Nat) (worker errorCode : String) : QueueTx :=
  claimedJob jobId worker fun
    | none => .done (.changed false)
    | some job => finish jobId (failedJob job errorCode) (.changed true)

end NotificationService

/-- The operations of the notification worker and the bulk cancellations of other services. -/
inductive NotificationOp
  | claimDue (worker : String) (limit : Nat) (now : Int)
  | prepareDelivery (jobId : Nat) (worker : String) (ctx : DeliveryContext) (now : Int)
  | markSent (jobId : Nat) (worker : String) (now : Int)
  | retry (jobId : Nat) (worker : String) (delaySeconds : Int) (errorCode : String) (now : Int)
  | markRecipientBlocked (jobId : Nat) (worker : String)
  | markPermanentFailure (jobId : Nat) (worker errorCode : String)
  | cancelUnsent (appointmentId : Nat)
  | cancelUnsentByType (notificationType : NotificationType)

namespace NotificationOp

/-- The transaction of an operation. A bulk cancellation commits with the transaction of its caller. -/
def tx (service : NotificationService) : NotificationOp → QueueTx
  | claimDue worker limit now => service.claimDue worker limit now
  | prepareDelivery jobId worker ctx now => NotificationService.prepareDelivery jobId worker ctx now
  | markSent jobId worker now => NotificationService.markSent jobId worker now
  | retry jobId worker delaySeconds errorCode now => service.retry jobId worker delaySeconds errorCode now
  | markRecipientBlocked jobId worker => NotificationService.markRecipientBlocked jobId worker
  | markPermanentFailure jobId worker errorCode => NotificationService.markPermanentFailure jobId worker errorCode
  | cancelUnsent appointmentId => NotificationRepository.cancelUnsent appointmentId fun n => .commit (.rowcount n)
  | cancelUnsentByType type => NotificationRepository.cancelUnsentByType type fun n => .commit (.rowcount n)

/-- The worker that runs the operation; a bulk cancellation is none's. -/
def worker : NotificationOp → Option String
  | claimDue worker _ _ | prepareDelivery _ worker _ _ | markSent _ worker _ | retry _ worker _ _ _
  | markRecipientBlocked _ worker | markPermanentFailure _ worker _ => some worker
  | cancelUnsent _ | cancelUnsentByType _ => none

/-- The job that a worker operation under a lease is about. -/
def target : NotificationOp → Option Nat
  | prepareDelivery jobId _ _ _ | markSent jobId _ _ | retry jobId _ _ _ _ | markRecipientBlocked jobId _
  | markPermanentFailure jobId _ _ => some jobId
  | _ => none

/-- The answer of an operation that finds the job not claimed. -/
def notClaimed : NotificationOp → QueueAnswer
  | prepareDelivery .. => .delivery none
  | _ => .changed false

end NotificationOp

end SalonBooking
