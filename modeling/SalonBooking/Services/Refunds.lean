import SalonBooking.Services.Webhooks

/-!
# Refunds

`RefundCoordinator` of `services/payment_coordinator.py` and `request_remaining_refund` of
`services/payment_admin_service.py`. A refund is created under the payment lock, prepared, submitted
outside any transaction and finished in a last transaction; a manual refund is finished by hand.
-/

namespace SalonBooking

open Lib

def PaymentMode.supportsPartialRefunds : PaymentMode → Bool
  | manual | yookassa => true
  | disabled => false

/-- `f"{amount:.2f}"` of a non-negative amount. -/
def formatMoney (amount : Money) : String :=
  let cents := amount.toNat % 100
  toString (amount.toNat / 100) ++ "." ++ (if cents < 10 then "0" else "") ++ toString cents

/-- What a session that loaded `loaded` and assigned `object` leaves of a refund row. -/
def flushedRefund (loaded object row : Refund) : Refund :=
  { row with
    providerRefundId := flushed loaded.providerRefundId object.providerRefundId row.providerRefundId
    status := flushed loaded.status object.status row.status
    succeededAt := flushed loaded.succeededAt object.succeededAt row.succeededAt
    failedAt := flushed loaded.failedAt object.failedAt row.failedAt
    attempts := flushed loaded.attempts object.attempts row.attempts
    lastErrorCode := flushed loaded.lastErrorCode object.lastErrorCode row.lastErrorCode }

/-- The refund row after such a session. -/
def Db.flushRefund (db : Db) (refundId : Nat) (loaded object : Refund) : Db :=
  match db.refunds.row refundId with
  | none => db
  | some row => db.setRefund refundId (flushedRefund loaded object row)

namespace RefundCoordinator

/-- `_transition_refund_appointment`. -/
def transitionRefundAppointment (payment : Payment) (target : AppointmentStatus) (actorUserId : Option Nat)
    (reason : String) (db : Db) : Check Db := do
  let appointment ← orRaise (db.appointments.row payment.appointmentId) (.entityNotFound "appointment not found")
  ensureAppointmentTransition appointment.status target
  if appointment.status = target then return db
  else
    return (db.setAppointment payment.appointmentId { appointment with status := target }).addHistory
      ⟨payment.appointmentId, some appointment.status, target, actorUserId, some reason⟩

/-- `_require_same_refund`. -/
def requireSameRefund (refund : Refund) (values : RefundCreate) : Check Unit :=
  require (refund.paymentId = values.paymentId ∧ refund.amount = values.amount ∧
      refund.currency = values.currency ∧ refund.idempotencyKey = values.idempotencyKey ∧
      refund.reasonCode = values.reasonCode ∧ refund.requestedByUserId = values.requestedByUserId ∧
      refund.safeMetadata = values.safeMetadata)
    (.paymentState "refund idempotency key is bound to another request")

/-- `_ensure_refund`: the key of the refund and whether it is new. -/
def ensureRefund (mode : PaymentMode) (actorUserId : Nat) (values : RefundCreate) (db : Db) :
    Check ((Nat × Bool) × Db) := do
  let payment ← orRaise (db.payments.row values.paymentId) (.entityNotFound "payment not found")
  require (payment.provider = mode) (.paymentState "payment belongs to another provider")
  match db.refundByIdempotencyKey values.idempotencyKey with
  | some (refundId, existing) =>
    require (existing.provider = payment.provider) (.paymentState "refund belongs to another provider")
    requireSameRefund existing values
    return ((refundId, false), db)
  | none =>
    let reserved := payment.refundedAmount + db.sumPendingRefunds values.paymentId
    let (payment, draft) ← PaymentService.newRefund mode mode.supportsPartialRefunds values.paymentId payment
      values reserved
    let db' := (db.setPayment values.paymentId payment).addRefund draft
    let db' ← transitionRefundAppointment payment .refundPending (some actorUserId) "refund_requested" db'
    return ((db.refunds.next, true), ← db'.commit)

/-- `create_and_submit`, up to the submission of the refund. -/
def createAndSubmit (c : Catalog) (actor : Int) (mode : PaymentMode) (values : RefundCreate) (db : Db) :
    Check ((Nat × Bool) × Db) := do
  let liveActor ← c.authorize actor .refundPayments
  require (values.requestedByUserId = none ∨ values.requestedByUserId = some liveActor.userId)
    (.paymentState "refund actor does not match the authorized staff member")
  ensureRefund mode liveActor.userId { values with requestedByUserId := some liveActor.userId } db

/-- The rows of `_load_locked_refund`. -/
def loadLockedRefund (mode : PaymentMode) (paymentId refundId : Nat) (db : Db) : Check RefundObjects := do
  let payment ← orRaise (db.payments.row paymentId) (.entityNotFound "payment not found")
  let refund ← orRaise (db.refunds.row refundId) (.entityNotFound "refund not found")
  require (refund.paymentId = paymentId) (.entityNotFound "refund not found")
  require (payment.provider = mode ∧ refund.provider = payment.provider ∧ refund.currency = payment.currency)
    (.paymentState "refund belongs to another provider or business")
  return ⟨payment, refund⟩

/-- A refund that the provider has not seen yet. -/
def unsubmitted (refund : Refund) : Bool := refund.status == .pending && refund.providerRefundId == none

/-- `_prepare_pending_refund`. -/
def preparePendingRefund (mode : PaymentMode) (paymentId refundId : Nat) (db : Db) : Check Db := do
  let o ← loadLockedRefund mode paymentId refundId db
  if unsubmitted o.refund then
    let refund ← PaymentService.prepareRefundSubmission mode paymentId o
    (db.setRefund refundId refund).commit
  else return db

def writeObjects (db : Db) (paymentId refundId : Nat) (o : RefundObjects) : Db :=
  (db.setPayment paymentId o.payment).setRefund refundId o.refund

/-- `_apply_refund_failure`, the last transaction after a failed submission. -/
def applyRefundFailure (mode : PaymentMode) (paymentId refundId : Nat) (error : ProviderError) (now : Int)
    (db : Db) : Check Db := do
  let o ← loadLockedRefund mode paymentId refundId db
  if unsubmitted o.refund then
    match (PaymentService.applyRefundSubmissionFailure mode paymentId error now).exec o with
    | (.error e, _) => throw e
    | (.ok _, o) => (writeObjects db paymentId refundId o).commit
  else return db

/-- `_apply_refund_result`, the last transaction after a submission: an answer the payment service
refuses as a provider error is a submission failure and is committed as one. -/
def applyRefundResult (mode : PaymentMode) (paymentId refundId actorUserId : Nat) (result : ProviderRefund)
    (now : Int) (db : Db) : Check Db := do
  let o ← loadLockedRefund mode paymentId refundId db
  if unsubmitted o.refund then
    match (PaymentService.applyAuthoritativeRefund mode paymentId result now).exec o with
    | (.error (.provider code retryable), o) =>
      match (PaymentService.applyRefundSubmissionFailure mode paymentId ⟨code, retryable⟩ now).exec o with
      | (.error e, _) => throw e
      | (.ok _, o) => (writeObjects db paymentId refundId o).commit
    | (.error e, _) => throw e
    | (.ok _, o) =>
      let db ← WebhookCoordinator.syncRefundAppointmentStatus o.payment (some actorUserId)
        (writeObjects db paymentId refundId o)
      db.commit
  else return db

/-- The first read of `approve_manual_refund`, without a lock. -/
def readRefund (refundId : Nat) (db : Db) : Check Refund :=
  orRaise (db.refunds.row refundId) (.entityNotFound "refund not found")

/-- `approve_manual_refund` under its locks: the payment is loaded here for the first time, the refund
object is the one the session has loaded before. -/
def approveManualRefund (c : Catalog) (actor : Int) (refundId : Nat) (refund : Refund) (now : Int) (db : Db) :
    Check Db := do
  let liveActor ← c.authorize actor .refundPayments
  let payment ← orRaise (db.payments.row refund.paymentId) (.entityNotFound "payment not found")
  let _ ← orRaise (db.refunds.row refundId) (.entityNotFound "refund not found")
  require (payment.provider = .manual ∧ refund.provider = .manual ∧ refund.currency = payment.currency)
    (.paymentState "manual approval requires a manual refund")
  if refund.status = .succeeded then return db
  else
    match (PaymentService.confirmManualRefund .manual refund.paymentId now).exec ⟨payment, refund⟩ with
    | (.error e, _) => throw e
    | (.ok _, o) =>
      let db := (db.setPayment refund.paymentId o.payment).flushRefund refundId refund o.refund
      let db ← WebhookCoordinator.syncRefundAppointmentStatus o.payment (some liveActor.userId) db
      db.commit

end RefundCoordinator

namespace PaymentAdminService

/-- `request_remaining_refund`, up to the request it hands to the refund coordinator. -/
def remainingRefund (c : Catalog) (actor : Int) (paymentId : Nat) (db : Db) :
    Check (PaymentMode × RefundCreate) := do
  let liveActor ← c.authorize actor .refundPayments
  let payment ← orRaise (db.payments.row paymentId) (.entityNotFound "Платёж не найден.")
  let remaining := payment.amount - payment.refundedAmount
  require (¬ (¬ (payment.status = .succeeded ∨ payment.status = .partiallyRefunded) ∨ remaining ≤ 0))
    (.paymentState "Для этого платежа возврат недоступен.")
  require (c.paymentService payment.provider = true) (.paymentState "Провайдер возврата не настроен.")
  return (payment.provider, {
    paymentId, amount := remaining, currency := payment.currency
    idempotencyKey := "tg-refund:" ++ toString paymentId ++ ":" ++ formatMoney payment.refundedAmount ++ ":" ++
      formatMoney remaining
    reasonCode := "requested_by_business", requestedByUserId := some liveActor.userId
    safeMetadata := [("appointment_id", toString payment.appointmentId)] })

/-- `request_remaining_refund` with no transaction between its read and the creation of the refund. -/
def requestRemainingRefund (c : Catalog) (actor : Int) (paymentId : Nat) (db : Db) :
    Check ((Nat × Bool) × Db) := do
  let (mode, values) ← remainingRefund c actor paymentId db
  RefundCoordinator.createAndSubmit c actor mode values db

end PaymentAdminService

end SalonBooking
