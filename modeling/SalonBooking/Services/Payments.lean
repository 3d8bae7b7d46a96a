import SalonBooking.Model.Rows

/-!
# Payment objects

`services/payment_service.py`: the methods that assign to a locked payment, refund or webhook event
object. They are `Mut` programs: an object keeps what was assigned to it before a raise, and it is the
caller that decides whether the transaction around it is committed. The provider is a parameter of
every method through its `mode` and, where it is called, through what it answered.
-/

namespace SalonBooking

open Lib

/-- `PaymentProviderError`; a protocol error is one that is not retryable. -/
structure ProviderError where
  code : String
  retryable : Bool
  deriving DecidableEq

def ProviderError.err (e : ProviderError) : Err := .provider e.code e.retryable

/-- `PaymentCreate`. -/
structure PaymentCreate where
  appointmentId : Nat
  provider : PaymentMode
  paymentType : PaymentType
  amount : Money
  currency : String
  idempotencyKey : String
  safeMetadata : List (String × String)
  deriving DecidableEq

/-- `RefundCreate`. -/
structure RefundCreate where
  paymentId : Nat
  amount : Money
  currency : String
  idempotencyKey : String
  reasonCode : String
  requestedByUserId : Option Nat
  safeMetadata : List (String × String)
  deriving DecidableEq

/-- A payment and one of its refunds, both locked. -/
structure RefundObjects where
  payment : Payment
  refund : Refund
  deriving DecidableEq

/-- `DEFAULT_BUSINESS_ID`, as it is written into payment metadata. -/
def defaultBusinessId : Nat := 1

namespace PaymentService

/-- `_require_provider`. -/
def requireProvider (mode provider : PaymentMode) : Check Unit :=
  require (provider = mode) (.paymentState "Платёж относится к другому провайдеру.")

/-- `_require_payment_state`. -/
def requirePaymentState (payment : Payment) (allowed : List PaymentStatus) : Check Unit :=
  require (payment.status ∈ allowed) (.paymentState "Операция недоступна в текущем статусе платежа.")

/-- `_required_provider_payment_id`. -/
def requiredProviderPaymentId (payment : Payment) : Check String :=
  orRaise payment.providerPaymentId (.paymentState "Платёж ещё не создан у провайдера.")

/-- `_intent_metadata`. -/
def intentMetadata (values : PaymentCreate) : List (String × String) :=
  values.safeMetadata ++
    [("business_id", toString defaultBusinessId), ("appointment_id", toString values.appointmentId)]

/-- `new_payment`. -/
def newPayment (mode : PaymentMode) (values : PaymentCreate) (expiresAt : Option Int) : Check Payment := do
  requireProvider mode values.provider
  return {
    appointmentId := values.appointmentId, provider := values.provider
    idempotencyKey := values.idempotencyKey, amount := values.amount, currency := values.currency
    status := .created, paymentType := values.paymentType, safeMetadata := intentMetadata values
    expiresAt }

/-- `require_same_intent`. -/
def requireSameIntent (payment : Payment) (values : PaymentCreate) : Check Unit :=
  require (payment.appointmentId = values.appointmentId ∧ payment.provider = values.provider ∧
      payment.paymentType = values.paymentType ∧ payment.amount = values.amount ∧
      payment.currency = values.currency ∧ payment.safeMetadata = intentMetadata values ∧
      payment.idempotencyKey = values.idempotencyKey)
    (.paymentState "Ключ идемпотентности уже связан с другим платежом.")

/-! ### Authoritative payment results -/

/-- The status a result asks for: a success does not undo a refund. -/
def paymentTarget (current : PaymentStatus) (result : PaymentStatus) : PaymentStatus :=
  if result = .succeeded ∧ current ∈ [.refundPending, .partiallyRefunded, .refunded] then current
  else result

/-- What an accepted result leaves of a payment. -/
def withResult (payment : Payment) (result : ProviderPayment) (now : Int) : Payment :=
  let target := paymentTarget payment.status result.status
  { payment with
    providerPaymentId := some result.providerPaymentId
    status := target
    confirmationUrl := (result.confirmationUrl.filter (· ≠ "")).or payment.confirmationUrl
    lastErrorCode := none
    paidAt :=
      if target = .succeeded ∧ payment.paidAt = none then some (result.paidAt.getD now) else payment.paidAt
    cancelledAt :=
      if target = .cancelled ∧ payment.cancelledAt = none then some (result.cancelledAt.getD now)
      else payment.cancelledAt }

/-- The checks of `apply_authoritative_payment`; all of them precede its first assignment. -/
def acceptPayment (mode : PaymentMode) (payment : Payment) (result : ProviderPayment) : Check Unit := do
  requireProvider mode result.provider
  let (amount, currency) ← validateMoney result.amount result.currency
  require (amount = payment.amount ∧ currency = payment.currency) (.protocol "provider_payment_money_mismatch")
  require (payment.providerPaymentId = none ∨ payment.providerPaymentId = some result.providerPaymentId)
    (.protocol "provider_payment_id_mismatch")
  require (∀ kv ∈ payment.safeMetadata, result.safeMetadata.lookup kv.1 = some kv.2)
    (.protocol "provider_payment_metadata_mismatch")
  requirePaymentTransition payment.status (paymentTarget payment.status result.status)

/-- `apply_authoritative_payment`. -/
def applyAuthoritativePayment (mode : PaymentMode) (result : ProviderPayment) (now : Int) :
    Mut Err Payment Unit := do
  Mut.check (acceptPayment mode (← get) result)
  modify fun payment => withResult payment result now

/-- `_record_payment_error`. -/
def recordPaymentError (error : ProviderError) : Mut Err Payment Unit := do
  modify fun payment => { payment with lastErrorCode := some error.code }
  if error.retryable then pure ()
  else
    Mut.check (requirePaymentTransition (← get).status .failed)
    modify fun payment => { payment with status := .failed }

/-- `create_with_provider`, given what the provider answered. -/
def createWithProvider (mode : PaymentMode) (values : PaymentCreate)
    (answer : Except ProviderError ProviderPayment) (now : Int) : Mut Err Payment ProviderPayment := do
  Mut.check (requireSameIntent (← get) values)
  Mut.check (requirePaymentState (← get) [.created])
  modify fun payment => { payment with attempts := payment.attempts + 1 }
  match answer with
  | .error error =>
    recordPaymentError error
    Mut.check (.error error.err)
  | .ok result =>
    applyAuthoritativePayment mode result now
    pure result

/-- `apply_creation_result`. -/
def applyCreationResult (mode : PaymentMode) (result : ProviderPayment) (now : Int) :
    Mut Err Payment Unit := do
  Mut.check (requirePaymentState (← get) [.created])
  modify fun payment => { payment with attempts := payment.attempts + 1, lastErrorCode := none }
  applyAuthoritativePayment mode result now

/-- `apply_creation_failure`. -/
def applyCreationFailure (error : ProviderError) : Mut Err Payment Unit := do
  Mut.check (requirePaymentState (← get) [.created])
  modify fun payment => { payment with attempts := payment.attempts + 1 }
  recordPaymentError error

/-- `refresh_from_provider`, given what the provider answered. -/
def refreshFromProvider (mode : PaymentMode) (answer : Except ProviderError ProviderPayment) (now : Int) :
    Mut Err Payment Unit := do
  let _ ← Mut.check (requiredProviderPaymentId (← get))
  modify fun payment => { payment with attempts := payment.attempts + 1 }
  match answer with
  | .error error =>
    modify fun payment => { payment with lastErrorCode := some error.code }
    Mut.check (.error error.err)
  | .ok result => applyAuthoritativePayment mode result now

/-- `cancel_with_provider`, given what the provider answered. -/
def cancelWithProvider (mode : PaymentMode) (answer : Except ProviderError ProviderPayment) (now : Int) :
    Mut Err Payment Unit := do
  Mut.check (requirePaymentState (← get) [.created, .pending])
  let _ ← Mut.check (requiredProviderPaymentId (← get))
  modify fun payment => { payment with attempts := payment.attempts + 1 }
  match answer with
  | .error error =>
    modify fun payment => { payment with lastErrorCode := some error.code }
    Mut.check (.error error.err)
  | .ok result =>
    Mut.check (require (result.status = .cancelled) (.protocol "provider_cancellation_not_confirmed"))
    applyAuthoritativePayment mode result now

/-- `confirm_manual_payment`. -/
def confirmManualPayment (now : Int) : Mut Err Payment Unit := do
  Mut.check (require ((← get).provider = .manual)
    (.paymentState "Ручное подтверждение доступно только для ручной оплаты."))
  Mut.check (requirePaymentState (← get) [.pending])
  Mut.check (requirePaymentTransition (← get).status .succeeded)
  modify fun payment => { payment with status := .succeeded, paidAt := some now, lastErrorCode := none }

/-! ### Refunds -/

/-- `_require_refund_belongs_to_payment`. -/
def requireRefundBelongsToPayment (mode : PaymentMode) (paymentId : Nat) (o : RefundObjects) :
    Check Unit := do
  requireProvider mode o.payment.provider
  require (o.refund.paymentId = paymentId ∧ o.refund.provider = o.payment.provider ∧
      o.refund.currency = o.payment.currency)
    (.paymentState "Возврат относится к другому платежу или бизнесу.")

/-- `new_refund`: the payment it leaves and the refund it builds. -/
def newRefund (mode : PaymentMode) (supportsPartialRefunds : Bool) (paymentId : Nat) (payment : Payment)
    (values : RefundCreate) (committedOrPendingAmount : Money) : Check (Payment × Refund) := do
  requireProvider mode payment.provider
  require (payment.providerPaymentId.isSome = true)
    (.paymentState "Платёж ещё не сохранён или не создан у провайдера.")
  require (values.paymentId = paymentId) (.paymentState "Возврат не принадлежит выбранному платежу.")
  requirePaymentState payment [.succeeded, .partiallyRefunded]
  let (amount, currency) ← validateMoney values.amount values.currency
  require (currency = payment.currency) (.paymentState "Refund currency must match the original payment.")
  require (¬ (committedOrPendingAmount < payment.refundedAmount ∨ committedOrPendingAmount > payment.amount))
    (.paymentState "Сумма ранее созданных возвратов некорректна.")
  let remaining := payment.amount - committedOrPendingAmount
  require (¬ amount > remaining) (.paymentState "Сумма возврата превышает остаток платежа.")
  require (¬ (amount < remaining ∧ supportsPartialRefunds = false))
    (.paymentState "Провайдер не поддерживает частичный возврат.")
  requirePaymentTransition payment.status .refundPending
  return ({ payment with status := .refundPending },
    { paymentId := values.paymentId, provider := payment.provider, idempotencyKey := values.idempotencyKey
      amount, currency, status := .pending, reasonCode := values.reasonCode
      safeMetadata := values.safeMetadata, requestedByUserId := values.requestedByUserId })

/-- The status of a payment whose last refund has failed. -/
def restoredTarget (payment : Payment) : PaymentStatus :=
  if payment.refundedAmount > 0 then .partiallyRefunded else .succeeded

/-- `_restore_payment_after_failed_refund`. -/
def restorePaymentAfterFailedRefund : Mut Err RefundObjects Unit := do
  let target := restoredTarget (← get).payment
  Mut.check (requirePaymentTransition (← get).payment.status target)
  modify fun o => { o with payment := { o.payment with status := target } }

/-- The identity and money checks of `apply_authoritative_refund`, all before its first assignment. -/
def acceptRefund (mode : PaymentMode) (paymentId : Nat) (o : RefundObjects) (result : ProviderRefund) :
    Check Unit := do
  requireRefundBelongsToPayment mode paymentId o
  requireProvider mode result.provider
  let providerPaymentId ← requiredProviderPaymentId o.payment
  let (amount, currency) ← validateMoney result.amount result.currency
  require (result.providerPaymentId = providerPaymentId) (.protocol "provider_refund_payment_id_mismatch")
  require (amount = o.refund.amount ∧ currency = o.refund.currency) (.protocol "provider_refund_money_mismatch")
  require (o.refund.providerRefundId = none ∨ o.refund.providerRefundId = some result.providerRefundId)
    (.protocol "provider_refund_id_mismatch")
  requireRefundTransition o.refund.status result.status

/-- The total after a refund that has just succeeded for the first time. -/
def addRefunded (wasSucceeded : Bool) : Mut Err RefundObjects Unit := do
  if wasSucceeded then pure ()
  else
    let o ← get
    Mut.check (require (¬ o.payment.refundedAmount + o.refund.amount > o.payment.amount)
      (.paymentState "Сумма успешных возвратов превышает платёж."))
    set { o with payment := { o.payment with refundedAmount := o.payment.refundedAmount + o.refund.amount } }

/-- The status of a payment with a succeeded refund. -/
def refundedTarget (payment : Payment) : PaymentStatus :=
  if payment.refundedAmount = payment.amount then .refunded else .partiallyRefunded

/-- The end of a success: the date of the refund and the status of the payment. -/
def settleRefund (now : Int) : Mut Err RefundObjects Unit := do
  modify fun o => { o with refund := { o.refund with succeededAt := o.refund.succeededAt.or (some now) } }
  let target := refundedTarget (← get).payment
  Mut.check (requirePaymentTransition (← get).payment.status target)
  modify fun o => { o with payment := { o.payment with
    status := target
    refundedAt := if target = .refunded then o.payment.refundedAt.or (some now) else o.payment.refundedAt } }

/-- `apply_authoritative_refund`. -/
def applyAuthoritativeRefund (mode : PaymentMode) (paymentId : Nat) (result : ProviderRefund) (now : Int) :
    Mut Err RefundObjects Unit := do
  Mut.check (acceptRefund mode paymentId (← get) result)
  let wasSucceeded := (← get).refund.status == .succeeded
  modify fun o => { o with refund := { o.refund with
    providerRefundId := some result.providerRefundId, status := result.status, lastErrorCode := none } }
  match result.status with
  | .succeeded =>
    addRefunded wasSucceeded
    settleRefund now
  | .failed | .cancelled =>
    modify fun o => { o with refund := { o.refund with failedAt := o.refund.failedAt.or (some now) } }
    restorePaymentAfterFailedRefund
  | .pending => pure ()

/-- `apply_refund_submission_failure`. -/
def applyRefundSubmissionFailure (mode : PaymentMode) (paymentId : Nat) (error : ProviderError) (now : Int) :
    Mut Err RefundObjects Unit := do
  Mut.check (requireRefundBelongsToPayment mode paymentId (← get))
  if (← get).refund.status = .pending then
    modify fun o => { o with refund := { o.refund with lastErrorCode := some error.code } }
    if error.retryable then pure ()
    else
      Mut.check (requireRefundTransition (← get).refund.status .failed)
      modify fun o => { o with refund := { o.refund with status := .failed, failedAt := some now } }
      restorePaymentAfterFailedRefund
  else pure ()

/-- `prepare_refund_submission`. -/
def prepareRefundSubmission (mode : PaymentMode) (paymentId : Nat) (o : RefundObjects) : Check Refund := do
  requireRefundBelongsToPayment mode paymentId o
  require (o.refund.status = .pending)
    (.paymentState "Провайдеру можно отправить только ожидающий возврат.")
  let _ ← requiredProviderPaymentId o.payment
  return { o.refund with attempts := o.refund.attempts + 1 }

/-- `confirm_manual_refund`. -/
def confirmManualRefund (mode : PaymentMode) (paymentId : Nat) (now : Int) : Mut Err RefundObjects Unit := do
  let o ← get
  let unavailable := Err.paymentState "Ручное подтверждение возврата сейчас недоступно."
  Mut.check (require (o.payment.provider = .manual) unavailable)
  let providerRefundId ← Mut.check (orRaise o.refund.providerRefundId unavailable)
  let providerPaymentId ← Mut.check (requiredProviderPaymentId o.payment)
  applyAuthoritativeRefund mode paymentId
    ⟨.manual, providerRefundId, providerPaymentId, .succeeded, o.refund.amount, o.refund.currency⟩ now

/-! ### Webhook events -/

/-- `_require_webhook_matches_payment`. -/
def requireWebhookMatchesPayment (mode : PaymentMode) (payment : Payment) (event : PaymentWebhookEvent) :
    Check Unit := do
  requireProvider mode payment.provider
  require (event.status = .pending) (.paymentState "Webhook уже обработан.")
  require (event.envelope.provider = payment.provider)
    (.paymentState "Webhook относится к другому бизнесу или провайдеру.")
  let providerPaymentId ← requiredProviderPaymentId payment
  require (event.envelope.providerPaymentId = providerPaymentId)
    (.paymentState "Webhook относится к другому платежу.")

/-- `event_type.startswith("payment.")`. -/
def requirePaymentEvent (event : PaymentWebhookEvent) : Check Unit :=
  match event.envelope.eventType with
  | .payment _ => pure ()
  | _ => .error (.paymentState "Webhook не является событием платежа.")

/-- `event_type.startswith("refund.")`. -/
def requireRefundEvent (event : PaymentWebhookEvent) : Check Unit :=
  match event.envelope.eventType with
  | .refund _ => pure ()
  | _ => .error (.paymentState "Webhook не является событием возврата.")

/-- The event after a result was applied. -/
def processedEvent (event : PaymentWebhookEvent) (paymentId : Nat) (now : Int) : PaymentWebhookEvent :=
  { event with paymentId := some paymentId, status := .processed, processedAt := some now, lastErrorCode := none }

/-- `apply_payment_webhook_result`, up to the event it marks as processed. -/
def applyPaymentWebhookResult (mode : PaymentMode) (event : PaymentWebhookEvent) (result : ProviderPayment)
    (now : Int) : Mut Err Payment Unit := do
  Mut.check (requireWebhookMatchesPayment mode (← get) event)
  Mut.check (requirePaymentEvent event)
  applyAuthoritativePayment mode result now

/-- `apply_refund_webhook_result`, up to the event it marks as processed. -/
def applyRefundWebhookResult (mode : PaymentMode) (paymentId : Nat) (event : PaymentWebhookEvent)
    (result : ProviderRefund) (now : Int) : Mut Err RefundObjects Unit := do
  Mut.check (requireWebhookMatchesPayment mode (← get).payment event)
  Mut.check (requireRefundBelongsToPayment mode paymentId (← get))
  Mut.check (requireRefundEvent event)
  Mut.check (require ((← get).refund.providerRefundId = some event.envelope.providerObjectId)
    (.paymentState "Webhook относится к другому возврату."))
  applyAuthoritativeRefund mode paymentId result now

/-- `apply_webhook_provider_failure`. -/
def applyWebhookProviderFailure (event : PaymentWebhookEvent) (error : ProviderError) (now : Int) :
    PaymentWebhookEvent :=
  if error.retryable then { event with lastErrorCode := some error.code }
  else { event with lastErrorCode := some error.code, status := .failed, processedAt := some now }

end PaymentService

end SalonBooking
