import SalonBooking.Domain.Enums

/-!
# Payment, refund and reservation lifecycle rules

`domain/payments.py` and `domain/reservations.py`: transition tables, the money check and the
statuses in which a payment counts as captured.
-/

namespace SalonBooking

open Lib

namespace PaymentStatus

/-- `_PAYMENT_TRANSITIONS`. -/
def allowed : PaymentStatus → List PaymentStatus
  | created => [pending, succeeded, cancelled, failed]
  | pending => [succeeded, cancelled, failed]
  | succeeded => [refundPending, partiallyRefunded, refunded]
  | refundPending => [succeeded, partiallyRefunded, refunded]
  | partiallyRefunded => [refundPending, refunded]
  | cancelled | failed | refunded => []

/-- `SUCCEEDED` or one of the refund statuses behind it. -/
def captured : PaymentStatus → Bool
  | succeeded | refundPending | partiallyRefunded | refunded => true
  | _ => false

def text : PaymentStatus → String
  | created => "created"
  | pending => "pending"
  | succeeded => "succeeded"
  | cancelled => "cancelled"
  | failed => "failed"
  | refundPending => "refund_pending"
  | partiallyRefunded => "partially_refunded"
  | refunded => "refunded"

theorem captured_of_allowed {s t : PaymentStatus} (h : t ∈ s.allowed) (hs : s.captured = true) :
    t.captured = true := by
  cases s <;> cases t <;> simp_all [allowed, captured]

end PaymentStatus

namespace RefundStatus

/-- `_REFUND_TRANSITIONS`. -/
def allowed : RefundStatus → List RefundStatus
  | pending => [succeeded, failed, cancelled]
  | _ => []

def text : RefundStatus → String
  | pending => "pending"
  | succeeded => "succeeded"
  | failed => "failed"
  | cancelled => "cancelled"

theorem eq_pending_of_allowed {s t : RefundStatus} (h : t ∈ s.allowed) : s = pending := by
  cases s <;> simp_all [allowed]

end RefundStatus

namespace ReservationStatus

/-- `_TRANSITIONS` of `domain/reservations.py`. -/
def allowed : ReservationStatus → List ReservationStatus
  | active => [awaitingReview, consumed, expired, cancelled]
  | awaitingReview => [consumed, cancelled]
  | _ => []

/-- The statuses that hold a window: `ACTIVE` or `AWAITING_REVIEW`. -/
def isLive : ReservationStatus → Bool
  | active | awaitingReview => true
  | _ => false

end ReservationStatus

/-- `require_payment_transition`. -/
def requirePaymentTransition (current target : PaymentStatus) : Check Unit :=
  require (current = target ∨ target ∈ current.allowed)
    (.paymentState ("Недопустимый переход платежа: " ++ current.text ++ " -> " ++ target.text ++ "."))

/-- `require_refund_transition`. -/
def requireRefundTransition (current target : RefundStatus) : Check Unit :=
  require (current = target ∨ target ∈ current.allowed)
    (.paymentState ("Недопустимый переход возврата: " ++ current.text ++ " -> " ++ target.text ++ "."))

/-- `ensure_reservation_transition`. -/
def ensureReservationTransition (current target : ReservationStatus) : Check Unit :=
  require (current = target ∨ target ∈ current.allowed)
    (.reservationState "Резерв уже завершён и не может изменить статус.")

/-- `MAX_MONEY`. -/
def maxMoney : Money := 999999999999

/-- Three ASCII capital letters: `_CURRENCY_PATTERN`. -/
def isCurrency (currency : String) : Bool :=
  match currency.toList with
  | [a, b, c] => a.isUpper && b.isUpper && c.isUpper
  | _ => false

/-- `validate_money` on an amount that already is a whole number of hundredths and a currency that
needs no trimming or upper-casing, as the adapters hand them over. -/
def validateMoney (amount : Money) (currency : String) : Check (Money × String) := do
  require (0 < amount ∧ amount ≤ maxMoney) (.value "amount must be positive and fit Numeric(12, 2)")
  require (isCurrency currency = true) (.value "currency must be a three-letter ISO-style code")
  return (amount, currency)

@[simp] theorem requirePaymentTransition_ok {s t : PaymentStatus} {u : Unit} :
    requirePaymentTransition s t = .ok u ↔ s = t ∨ t ∈ s.allowed := by
  simp [requirePaymentTransition]

@[simp] theorem requireRefundTransition_ok {s t : RefundStatus} {u : Unit} :
    requireRefundTransition s t = .ok u ↔ s = t ∨ t ∈ s.allowed := by
  simp [requireRefundTransition]

@[simp] theorem requirePaymentTransition_bind_ok {β : Type} {s t : PaymentStatus} {f : Unit → Check β}
    {b : β} :
    (requirePaymentTransition s t >>= f) = .ok b ↔ (s = t ∨ t ∈ s.allowed) ∧ f () = .ok b := by
  simp [requirePaymentTransition]

@[simp] theorem requireRefundTransition_bind_ok {β : Type} {s t : RefundStatus} {f : Unit → Check β}
    {b : β} :
    (requireRefundTransition s t >>= f) = .ok b ↔ (s = t ∨ t ∈ s.allowed) ∧ f () = .ok b := by
  simp [requireRefundTransition]

@[simp] theorem ensureReservationTransition_ok {s t : ReservationStatus} {u : Unit} :
    ensureReservationTransition s t = .ok u ↔ s = t ∨ t ∈ s.allowed := by
  simp [ensureReservationTransition]

@[simp] theorem ensureReservationTransition_bind_ok {β : Type} {s t : ReservationStatus}
    {f : Unit → Check β} {b : β} :
    (ensureReservationTransition s t >>= f) = .ok b ↔ (s = t ∨ t ∈ s.allowed) ∧ f () = .ok b := by
  simp [ensureReservationTransition]

theorem validateMoney_ok {amount : Money} {currency : String} {r : Money × String} :
    validateMoney amount currency = .ok r ↔
      0 < amount ∧ amount ≤ maxMoney ∧ isCurrency currency = true ∧ (amount, currency) = r := by
  simp only [validateMoney, Except.require_bind_ok, Except.pure_ok, and_assoc]

end SalonBooking
