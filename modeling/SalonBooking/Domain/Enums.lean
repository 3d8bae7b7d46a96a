import SalonBooking.Lib.Guarded

/-!
# Persisted enums, errors and text

The status enums of `domain/enums.py`, `domain/payments.py` and `domain/reservations.py`, and the
exceptions the services raise. An error keeps the class it has in the source (handlers and the
webhook coordinator tell errors apart by class only) and its text.
-/

namespace SalonBooking

/-- Money in hundredths: every stored amount is `NUMERIC(12, 2)`. -/
abbrev Money : Type := Int

/-- `AvailabilityWindowStatus`. -/
inductive WindowStatus
  | «open» | reserved | booked | closed | expired
  deriving DecidableEq, Repr

inductive AppointmentStatus
  | pendingPayment | pendingManualConfirmation | confirmed | clientConfirmed | completed
  | cancelledByClient | cancelledByAdmin | noShow | rescheduled | paymentExpired
  | refundPending | partiallyRefunded | refunded
  deriving DecidableEq, Repr

inductive ReservationStatus
  | active | awaitingReview | consumed | expired | cancelled
  deriving DecidableEq, Repr

inductive PaymentMode
  | disabled | manual | yookassa
  deriving DecidableEq, Repr

inductive PaymentStatus
  | created | pending | succeeded | cancelled | failed | refundPending | partiallyRefunded | refunded
  deriving DecidableEq, Repr

inductive RefundStatus
  | pending | succeeded | failed | cancelled
  deriving DecidableEq, Repr

inductive ManualPaymentStatus
  | awaitingPayment | clientReported | reviewPending | confirmed | rejected | expired
  deriving DecidableEq, Repr

inductive PaymentType
  | deposit | fullPayment
  deriving DecidableEq, Repr

inductive WebhookProcessingStatus
  | pending | processed | ignored | failed
  deriving DecidableEq, Repr

inductive StaffRole
  | owner | manager | master | receptionist
  deriving DecidableEq, Repr

inductive PortfolioStatus
  | draft | published | archived
  deriving DecidableEq, Repr

/-- Exceptions, one constructor a class; `provider` carries the machine code and the retry flag. -/
inductive Err
  | appointmentNotFound (text : String)
  | appointmentState (text : String)
  | authorization (text : String)
  | bookingConflict (text : String)
  | bookingLimit (text : String)
  | bookingUnavailable (text : String)
  | futureBookingLimit (text : String) (current maximum : Nat)
  | privacyConsentRequired (text : String)
  | cancellationDeadline (text : String)
  | entityNotFound (text : String)
  | featureDisabled (text : String)
  | subscriptionAccess (text : String)
  | windowState (text : String)
  | windowInUse (text : String)
  | windowValidation (text : String)
  | staffReassignment (text : String)
  | paymentState (text : String)
  | reservationState (text : String)
  | provider (code : String) (retryable : Bool)
  | webhookProcessing (retryable : Bool)
  | value (text : String)
  | runtime (text : String)
  | integrity
  deriving DecidableEq, Repr

namespace Err

/-- Subclasses of `DomainError`; provider, webhook, builtin and database errors are not. -/
def isDomain : Err → Bool
  | provider _ _ | webhookProcessing _ | value _ | runtime _ | integrity => false
  | _ => true

/-- `PaymentProviderProtocolError`: never retryable. -/
def protocol (code : String) : Err := provider code false

/-- What the webhook coordinator catches around an apply: `(PaymentProviderError, PaymentStateError)`. -/
def isPaymentFailure : Err → Bool
  | provider _ _ | paymentState _ => true
  | _ => false

end Err

/-- Checks and lookups of the services. -/
abbrev Check (α : Type) : Type := Except Err α

/-- `str.isspace` of one character. -/
def isSpace (c : Char) : Bool :=
  let n := c.toNat
  (9 ≤ n && n ≤ 13) || (28 ≤ n && n ≤ 32) || (8192 ≤ n && n ≤ 8202) ||
    [133, 160, 5760, 8232, 8233, 8239, 8287, 12288].contains n

/-- `str.strip`. -/
def strip (s : String) : String :=
  .ofList ((s.toList.dropWhile isSpace).reverse.dropWhile isSpace).reverse

theorem strip_eq {s : String} (h : ∀ x ∈ s.toList, isSpace x = false) : strip s = s := by
  have keep : ∀ l : List Char, (∀ x ∈ l, isSpace x = false) → l.dropWhile isSpace = l := by
    intro l hl
    cases l with
    | nil => rfl
    | cons x rest => rw [List.dropWhile_cons_of_neg (by simp [hl x List.mem_cons_self])]
  rw [strip, keep _ h, keep _ (fun x hx => h x (List.mem_reverse.mp hx)), List.reverse_reverse, String.ofList_toList]

end SalonBooking
