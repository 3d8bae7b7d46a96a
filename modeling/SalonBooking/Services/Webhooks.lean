import SalonBooking.Services.ManualPrepayment

/-!
# Provider notifications

`YooKassaWebhookLifecycleCoordinator` of `services/payment_coordinator.py`. A delivery claims its event
row, asks the provider about the object the event names, applies the answer and, for a captured
payment, consumes the reservation: up to four transactions, each of which reads again what it needs.
Several of them commit and then raise; their result carries what the delivery goes on with.
-/

namespace SalonBooking

open Lib

/-- What a delivery goes on with after a transaction. -/
inductive WebhookOutcome
  /-- Ask the provider about this object; a refund when the flag is set. -/
  | fetch (isRefund : Bool) (providerObjectId : String)
  /-- Consume the reservation of this payment. -/
  | reconcile (paymentId : Nat)
  | done
  /-- The transaction was committed and the delivery raises. -/
  | raised (error : Err)
  deriving DecidableEq

/-- A session that loaded `loaded` and assigned `object` writes to the event row. -/
def Db.flushEvent (db : Db) (eventId : Nat) (loaded object : PaymentWebhookEvent) : Db :=
  match db.events.row eventId with
  | none => db
  | some row => db.setEvent eventId { row with
      paymentId := flushed loaded.paymentId object.paymentId row.paymentId
      status := flushed loaded.status object.status row.status
      processedAt := flushed loaded.processedAt object.processedAt row.processedAt
      attempts := flushed loaded.attempts object.attempts row.attempts
      lastErrorCode := flushed loaded.lastErrorCode object.lastErrorCode row.lastErrorCode }

namespace WebhookCoordinator

/-- `_same_envelope`. -/
def sameEnvelope (stored : PaymentWebhookEvent) (envelope : ProviderWebhookEvent) : Prop :=
  stored.envelope = envelope

instance (e : PaymentWebhookEvent) (v : ProviderWebhookEvent) : Decidable (sameEnvelope e v) :=
  inferInstanceAs (Decidable (_ = _))

/-- `new_webhook_event`. -/
def newWebhookEvent (envelope : ProviderWebhookEvent) (receivedAt : Int) : PaymentWebhookEvent where
  envelope := envelope
  receivedAt := receivedAt

/-- `_persist_retryable_lookup_failure`. -/
def lookupFailure (eventId : Nat) (event : PaymentWebhookEvent) (code : String) (db : Db) :
    Check (WebhookOutcome × Db) := do
  let object := { event with attempts := event.attempts + 1, lastErrorCode := some code }
  return (.raised (.webhookProcessing true), ← (db.flushEvent eventId event object).commit)

/-- The end of `_prepare_locked_event` for a supported event. -/
def startAttempt (eventId : Nat) (event : PaymentWebhookEvent) (isRefund : Bool) (db : Db) :
    Check (WebhookOutcome × Db) := do
  let object := { event with attempts := event.attempts + 1, lastErrorCode := none }
  return (.fetch isRefund event.envelope.providerObjectId, ← (db.flushEvent eventId event object).commit)

/-- `_prepare_locked_event` on the event object a session holds. -/
def prepareLockedEvent (eventId : Nat) (event : PaymentWebhookEvent) (now : Int) (db : Db) :
    Check (WebhookOutcome × Db) := do
  match db.paymentByProviderId event.envelope.provider event.envelope.providerPaymentId with
  | none => lookupFailure eventId event "payment_not_found" db
  | some _ =>
    match event.envelope.eventType with
    | .refund _ =>
      match db.refundByProviderId event.envelope.provider event.envelope.providerObjectId with
      | none => lookupFailure eventId event "refund_not_found" db
      | some _ => startAttempt eventId event true db
    | .payment _ => startAttempt eventId event false db
    | .other _ =>
      let object := { event with
        status := .ignored, processedAt := some now, lastErrorCode := some "event_type_unsupported" }
      return (.done, ← (db.flushEvent eventId event object).commit)

/-- The rest of the first transaction for a row that exists, on the object loaded before its lock. -/
def claimStored (envelope : ProviderWebhookEvent) (eventId : Nat) (stored : PaymentWebhookEvent) (now : Int)
    (db : Db) : Check (WebhookOutcome × Db) := do
  require (sameEnvelope stored envelope) (.webhookProcessing false)
  if stored.status.isTerminal then
    match stored.status, stored.envelope.eventType, stored.paymentId with
    | .processed, .payment _, some paymentId => return (.reconcile paymentId, db)
    | _, _, _ => return (.done, db)
  else prepareLockedEvent eventId stored now db

/-- The first transaction of `process_untrusted_notification`, not interrupted between its read and its
lock: the event is inserted if absent, and prepared. -/
def claim (envelope : ProviderWebhookEvent) (now : Int) (db : Db) : Check (WebhookOutcome × Db) := do
  require (envelope.provider = .yookassa) (.webhookProcessing false)
  match db.eventByKey envelope.provider envelope.eventKey with
  | some (eventId, stored) => claimStored envelope eventId stored now db
  | none =>
    let event := newWebhookEvent envelope now
    prepareLockedEvent db.events.next event now (db.addEvent event)

/-- `_load_locked_event`. -/
def loadLockedEvent (envelope : ProviderWebhookEvent) (db : Db) : Check (Nat × PaymentWebhookEvent) := do
  let (eventId, event) ← orRaise (db.eventByKey envelope.provider envelope.eventKey) (.webhookProcessing true)
  require (sameEnvelope event envelope) (.webhookProcessing false)
  return (eventId, event)

/-- `_record_provider_failure`. -/
def recordProviderFailure (envelope : ProviderWebhookEvent) (error : ProviderError) (now : Int) (db : Db) :
    Check Db := do
  let (eventId, event) ← loadLockedEvent envelope db
  if event.status.isTerminal then return db
  else (db.setEvent eventId (PaymentService.applyWebhookProviderFailure event error now)).commit

/-- `_record_apply_failure`: the session is committed with whatever was assigned before the raise. -/
def recordApplyFailure (eventId : Nat) (event : PaymentWebhookEvent) (error : Err) (now : Int) (db : Db) :
    Check (WebhookOutcome × Db) := do
  if error.isPaymentFailure then
    let code := match error with
      | .provider code _ => code
      | _ => "payment_state_rejected"
    let event := { event with status := .failed, processedAt := some now, lastErrorCode := some code }
    return (.raised (.webhookProcessing false), ← (db.setEvent eventId event).commit)
  else throw error

/-- `_apply_payment_result`. -/
def applyPaymentResult (envelope : ProviderWebhookEvent) (result : ProviderPayment) (now : Int) (db : Db) :
    Check (WebhookOutcome × Db) := do
  let (eventId, event) ← loadLockedEvent envelope db
  if event.status.isTerminal then
    match event.paymentId with
    | some paymentId => return (.reconcile paymentId, db)
    | none => return (.done, db)
  else
    match db.paymentByProviderId event.envelope.provider event.envelope.providerPaymentId with
    | none => lookupFailure eventId event "payment_not_found" db
    | some (paymentId, payment) =>
      match (PaymentService.applyPaymentWebhookResult .yookassa event result now).exec payment with
      | (.error e, payment) => recordApplyFailure eventId event e now (db.setPayment paymentId payment)
      | (.ok _, payment) =>
        let db ← ((db.setPayment paymentId payment).setEvent eventId
          (PaymentService.processedEvent event paymentId now)).commit
        return (if payment.status = .succeeded then .reconcile paymentId else .done, db)

/-- The appointment status that follows a payment status. -/
def syncTarget : PaymentStatus → Option AppointmentStatus
  | .partiallyRefunded => some .partiallyRefunded
  | .refunded => some .refunded
  | _ => none

/-- `_sync_refund_appointment_status`. -/
def syncRefundAppointmentStatus (payment : Payment) (actorUserId : Option Nat) (db : Db) : Check Db := do
  match syncTarget payment.status with
  | none => return db
  | some target =>
    let appointment ← orRaise (db.appointments.row payment.appointmentId) (.entityNotFound "appointment not found")
    ensureAppointmentTransition appointment.status target
    if appointment.status = target then return db
    else
      return (db.setAppointment payment.appointmentId { appointment with status := target }).addHistory
        ⟨payment.appointmentId, some appointment.status, target, actorUserId, some "refund_succeeded"⟩

/-- `_apply_refund_result` of the webhook coordinator. -/
def applyRefundResult (envelope : ProviderWebhookEvent) (result : ProviderRefund) (now : Int) (db : Db) :
    Check (WebhookOutcome × Db) := do
  let (eventId, event) ← loadLockedEvent envelope db
  if event.status.isTerminal then return (.done, db)
  else
    match db.paymentByProviderId event.envelope.provider event.envelope.providerPaymentId with
    | none => lookupFailure eventId event "payment_not_found" db
    | some (paymentId, payment) =>
      match db.refundByProviderId event.envelope.provider event.envelope.providerObjectId with
      | none => lookupFailure eventId event "refund_not_found" db
      | some (refundId, refund) =>
        match (PaymentService.applyRefundWebhookResult .yookassa paymentId event result now).exec
            ⟨payment, refund⟩ with
        | (.error e, o) =>
          recordApplyFailure eventId event e now ((db.setPayment paymentId o.payment).setRefund refundId o.refund)
        | (.ok _, o) =>
          let db := ((db.setPayment paymentId o.payment).setRefund refundId o.refund).setEvent eventId
            (PaymentService.processedEvent event paymentId now)
          let db ← syncRefundAppointmentStatus o.payment none db
          return (.done, ← db.commit)

/-- `_reconcile_paid_reservation`. -/
def reconcilePaidReservation (paymentId : Nat) (now : Int) (db : Db) : Check Db :=
  (ManualPaymentApprovalCoordinator.consumePaidReservation paymentId none now db).mapError fun e =>
    if e.isDomain then .webhookProcessing true else e

end WebhookCoordinator

end SalonBooking
