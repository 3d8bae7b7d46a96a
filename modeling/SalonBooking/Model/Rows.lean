import SalonBooking.Domain.Payments

/-!
# Rows

One structure a table, with the columns the modelled services read or write. A row never carries its
own key: the key is the index in the table. Every table belongs to one business, so `business_id` is
not a column here.
-/

namespace SalonBooking

/-- `availability_windows`. -/
structure Window where
  staffMemberId : Nat
  startAt : Int
  endAt : Int
  status : WindowStatus
  deriving DecidableEq

/-- `appointments`. -/
structure Appointment where
  staffMemberId : Nat
  clientId : Nat
  windowId : Nat
  serviceId : Nat
  workstationId : Option Nat
  rescheduledFromId : Option Nat := none
  priceSnapshot : Money
  prepaymentSnapshot : Money
  paymentModeSnapshot : PaymentMode
  durationMinSnapshot : Nat
  durationMaxSnapshot : Nat
  scheduledStartAt : Int
  scheduledEndAt : Int
  status : AppointmentStatus
  reservationExpiresAt : Option Int := none
  clientConfirmedAt : Option Int := none
  completedAt : Option Int := none
  noShowAt : Option Int := none
  cancelledAt : Option Int := none
  cancellationReason : Option String := none
  deriving DecidableEq

/-- `appointment_status_history`. -/
structure AppointmentStatusHistory where
  appointmentId : Nat
  previousStatus : Option AppointmentStatus
  newStatus : AppointmentStatus
  changedByUserId : Option Nat
  reason : Option String
  deriving DecidableEq

/-- `booking_reservations`. -/
structure Reservation where
  clientId : Nat
  staffMemberId : Nat
  windowId : Nat
  serviceId : Nat
  appointmentId : Option Nat
  tokenDigest : String
  idempotencyKey : String
  status : ReservationStatus
  expiresAt : Int
  consumedAt : Option Int := none
  cancelledAt : Option Int := none
  deriving DecidableEq

/-- `payments`. -/
structure Payment where
  appointmentId : Nat
  provider : PaymentMode
  providerPaymentId : Option String := none
  idempotencyKey : String
  amount : Money
  refundedAmount : Money := 0
  currency : String
  status : PaymentStatus
  paymentType : PaymentType
  safeMetadata : List (String × String)
  confirmationUrl : Option String := none
  expiresAt : Option Int := none
  paidAt : Option Int := none
  cancelledAt : Option Int := none
  refundedAt : Option Int := none
  attempts : Nat := 0
  lastErrorCode : Option String := none
  manualStatus : Option ManualPaymentStatus := none
  clientReportedAt : Option Int := none
  reviewStartedAt : Option Int := none
  reviewedAt : Option Int := none
  reviewedByUserId : Option Nat := none
  receiptFileUniqueId : Option String := none
  receiptReceivedAt : Option Int := none
  deriving DecidableEq

/-- `refunds`. -/
structure Refund where
  paymentId : Nat
  provider : PaymentMode
  providerRefundId : Option String := none
  idempotencyKey : String
  amount : Money
  currency : String
  status : RefundStatus
  reasonCode : String
  safeMetadata : List (String × String)
  requestedByUserId : Option Nat
  succeededAt : Option Int := none
  failedAt : Option Int := none
  attempts : Nat := 0
  lastErrorCode : Option String := none
  deriving DecidableEq

/-- The part of an event name before its first dot decides how an event is handled. -/
inductive EventType
  | payment (name : String)
  | refund (name : String)
  | other (name : String)
  deriving DecidableEq, Repr

/-- `ProviderWebhookEvent`: the envelope of one notification. -/
structure ProviderWebhookEvent where
  provider : PaymentMode
  eventKey : String
  eventType : EventType
  providerObjectId : String
  providerPaymentId : String
  payloadSha256 : String
  deriving DecidableEq

/-- `payment_webhook_events`; the columns copied from the notification are kept together. -/
structure PaymentWebhookEvent where
  envelope : ProviderWebhookEvent
  paymentId : Option Nat := none
  status : WebhookProcessingStatus := .pending
  receivedAt : Int
  processedAt : Option Int := none
  attempts : Nat := 0
  lastErrorCode : Option String := none
  deriving DecidableEq

/-! ### What the providers answer -/

/-- `ProviderPayment`. -/
structure ProviderPayment where
  provider : PaymentMode
  providerPaymentId : String
  status : PaymentStatus
  amount : Money
  currency : String
  confirmationUrl : Option String := none
  safeMetadata : List (String × String)
  paidAt : Option Int := none
  cancelledAt : Option Int := none
  deriving DecidableEq

/-- `ProviderRefund`. -/
structure ProviderRefund where
  provider : PaymentMode
  providerRefundId : String
  providerPaymentId : String
  status : RefundStatus
  amount : Money
  currency : String
  deriving DecidableEq

namespace WebhookProcessingStatus

/-- `_TERMINAL_WEBHOOK_STATUSES`. -/
def isTerminal : WebhookProcessingStatus → Bool
  | pending => false
  | _ => true

end WebhookProcessingStatus

namespace WindowStatus

/-- The predicate of `ex_availability_windows_active_overlap`. -/
def isActive : WindowStatus → Bool
  | «open» | reserved | booked => true
  | closed | expired => false

end WindowStatus

end SalonBooking
