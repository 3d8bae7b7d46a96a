import SalonBooking.Lib.Run
import SalonBooking.Services.Windows
import SalonBooking.Services.Reschedule
import SalonBooking.Services.Refunds

/-!
# The running system

Every transaction that touches a booking or its money is a command, and a step runs one command against
the committed state: any number of clients, masters, administrators, workers and provider callbacks is
some order of such steps. What a coroutine carries from one of its transactions to the next is either
an argument of the later command or, where it was read from the database, kept in the state (`views`,
`refundCopies`, `eventCopies`). A refused command leaves the state as it is.
-/

namespace SalonBooking

open Lib

/-- What a payment adapter can answer: the statuses of its status table. -/
abbrev AdapterPayment : Type := { r : ProviderPayment // r.status ∈ [.pending, .succeeded, .cancelled] }

inductive Cmd
  -- windows
  | createWindow (actor : WindowActor) (values : AvailabilityWindowCreate)
  | closeWindow (actor : Int) (windowId : Nat)
  | reopenWindow (actor : Int) (windowId : Nat)
  | deleteUnusedWindow (actor : Int) (windowId : Nat)
  -- booking and checkout
  | book (telegramId : Int) (values : BookingRequest) (allowSelfBookingBlocked : Bool)
      (override : Option BookingLimitOverride)
  | readPayment (paymentId : Nat)
  | submitPayment (paymentId : Nat) (values : PaymentCreate) (answer : Except ProviderError AdapterPayment)
  | consumePaidReservation (view : PaymentView)
  | expiryCycle (limit : Nat) (locked : List Nat)
  -- visits
  | endVisit (op : VisitOp) (appointmentId : Nat)
  | confirmVisit (actor : Int) (appointmentId : Nat)
  | confirmMyVisit (actor : Int) (appointmentId : Nat)
  | reschedule (actor : RescheduleActor) (appointmentId newWindowId : Nat)
  | reassign (actor : Int) (sourceStaffId targetId : Nat)
  -- manual prepayments
  | reportPaid (actor : Int) (paymentId : Nat)
  | submitForReview (actor : Int) (paymentId : Nat) (receipt : Option String)
  | approveManual (actor : Int) (paymentId : Nat)
  | consumeApproved (paymentId : Nat) (actorUserId : Option Nat)
  | rejectManual (actor : Int) (paymentId : Nat) (reason : Option String)
  -- provider notifications
  | claimEvent (envelope : ProviderWebhookEvent)
  | readEvent (envelope : ProviderWebhookEvent)
  | claimStored (envelope : ProviderWebhookEvent) (copy : Nat × PaymentWebhookEvent)
  | recordProviderFailure (envelope : ProviderWebhookEvent) (error : ProviderError)
  | applyPaymentResult (envelope : ProviderWebhookEvent) (result : AdapterPayment)
  | reconcilePaid (paymentId : Nat)
  -- refunds
  | createRefund (actor : Int) (mode : PaymentMode) (values : RefundCreate)
  | prepareRefund (mode : PaymentMode) (paymentId refundId : Nat)
  | refundFailure (mode : PaymentMode) (paymentId refundId : Nat) (error : ProviderError)
  | refundResult (mode : PaymentMode) (paymentId refundId actorUserId : Nat) (result : ProviderRefund)
  | readRefund (refundId : Nat)
  | approveManualRefund (actor : Int) (copy : Nat × Refund)
  | applyRefundResult (envelope : ProviderWebhookEvent) (result : ProviderRefund)

/-- A command with the catalog and the clock of its transaction. -/
structure Label where
  catalog : Catalog
  now : Int
  cmd : Cmd

structure Sys where
  db : Db
  /-- Payment views with a success that `_submit_payment` has returned. -/
  views : List PaymentView
  /-- Refund objects loaded by `approve_manual_refund` before its locks. -/
  refundCopies : List (Nat × Refund)
  /-- Event objects loaded by the deduplicating insert before the event lock. -/
  eventCopies : List (Nat × PaymentWebhookEvent)

namespace Sys

def empty : Sys := ⟨.empty, [], [], []⟩

/-- A command that only commits a state. -/
def commits (s : Sys) (x : Check Db) : Check Sys := do
  let db ← x
  return { s with db }

/-- A checkout that ended with a view: a success is what the coroutine goes on with. -/
def keepView (s : Sys) (view : PaymentView) : Sys :=
  if view.status = .succeeded then { s with views := view :: s.views } else s

def transact (s : Sys) (c : Catalog) (now : Int) : Cmd → Check Sys
  | .createWindow actor values => s.commits (AvailabilityService.createWindow c actor values now s.db)
  | .closeWindow actor windowId => s.commits (AvailabilityService.closeWindow c actor windowId s.db)
  | .reopenWindow actor windowId => s.commits (AvailabilityService.reopenWindow c actor windowId now s.db)
  | .deleteUnusedWindow actor windowId =>
    s.commits (AvailabilityService.deleteUnusedWindow c actor windowId s.db)
  | .book telegramId values allow override =>
    s.commits (Prod.snd <$> BookingService.book c telegramId values now allow override s.db)
  | .readPayment paymentId => s.keepView <$> BookingService.readPayment paymentId s.db
  | .submitPayment paymentId values answer => do
    let (outcome, db) ←
      BookingService.submitPayment paymentId values (answer.map Subtype.val) now s.db
    match outcome with
    | .ok view => return { s with db }.keepView view
    | .error _ => return { s with db }
  | .consumePaidReservation view =>
    if view ∈ s.views then s.commits (BookingService.consumePaidReservation view now s.db) else return s
  | .expiryCycle limit locked => return { s with db := ReservationExpiryWorker.runCycle now limit locked s.db }
  | .endVisit op appointmentId => s.commits (AppointmentService.endVisit c op appointmentId now s.db)
  | .confirmVisit actor appointmentId =>
    s.commits (AppointmentService.confirmVisit c actor appointmentId now s.db)
  | .confirmMyVisit actor appointmentId =>
    s.commits (AppointmentService.confirmMyVisit c actor appointmentId now s.db)
  | .reschedule actor appointmentId newWindowId =>
    s.commits (RescheduleService.reschedule c actor appointmentId newWindowId now s.db)
  | .reassign actor sourceStaffId targetId =>
    s.commits (AuthorizationService.reassignFutureAppointments c actor sourceStaffId targetId now s.db)
  | .reportPaid actor paymentId => s.commits (ManualPrepaymentService.reportPaid c actor paymentId now s.db)
  | .submitForReview actor paymentId receipt =>
    s.commits (ManualPrepaymentService.submitForReview c actor paymentId receipt now s.db)
  | .approveManual actor paymentId =>
    s.commits (ManualPaymentApprovalCoordinator.approve c actor paymentId now s.db)
  | .consumeApproved paymentId actorUserId =>
    s.commits (ManualPaymentApprovalCoordinator.consumePaidReservation paymentId actorUserId now s.db)
  | .rejectManual actor paymentId reason =>
    s.commits (PaymentAdminService.rejectManual c actor paymentId reason now s.db)
  | .claimEvent envelope => s.commits (Prod.snd <$> WebhookCoordinator.claim envelope now s.db)
  | .readEvent envelope =>
    return { s with eventCopies := (s.db.eventByKey envelope.provider envelope.eventKey).toList ++ s.eventCopies }
  | .claimStored envelope copy =>
    if copy ∈ s.eventCopies then
      s.commits (Prod.snd <$> WebhookCoordinator.claimStored envelope copy.1 copy.2 now s.db)
    else return s
  | .recordProviderFailure envelope error =>
    s.commits (WebhookCoordinator.recordProviderFailure envelope error now s.db)
  | .applyPaymentResult envelope result =>
    s.commits (Prod.snd <$> WebhookCoordinator.applyPaymentResult envelope result.1 now s.db)
  | .reconcilePaid paymentId => s.commits (WebhookCoordinator.reconcilePaidReservation paymentId now s.db)
  | .createRefund actor mode values =>
    s.commits (Prod.snd <$> RefundCoordinator.createAndSubmit c actor mode values s.db)
  | .prepareRefund mode paymentId refundId =>
    s.commits (RefundCoordinator.preparePendingRefund mode paymentId refundId s.db)
  | .refundFailure mode paymentId refundId error =>
    s.commits (RefundCoordinator.applyRefundFailure mode paymentId refundId error now s.db)
  | .refundResult mode paymentId refundId actorUserId result =>
    s.commits (RefundCoordinator.applyRefundResult mode paymentId refundId actorUserId result now s.db)
  | .readRefund refundId => do
    let refund ← RefundCoordinator.readRefund refundId s.db
    return { s with refundCopies := (refundId, refund) :: s.refundCopies }
  | .approveManualRefund actor copy =>
    if copy ∈ s.refundCopies then
      s.commits (RefundCoordinator.approveManualRefund c actor copy.1 copy.2 now s.db)
    else return s
  | .applyRefundResult envelope result =>
    s.commits (Prod.snd <$> WebhookCoordinator.applyRefundResult envelope result now s.db)

/-- One step: a refused command changes nothing. -/
def step (s : Sys) (l : Label) : Sys := Except.orElse (s.transact l.catalog l.now l.cmd) s

/-- The state after a run from the empty system. -/
def after (l : List Label) : Sys := run step empty l

end Sys

namespace Cmd

/-- The commands of the refund machinery. -/
def isRefund : Cmd → Bool
  | createRefund .. | prepareRefund .. | refundFailure .. | refundResult .. | readRefund .. |
    approveManualRefund .. | applyRefundResult .. => true
  | _ => false

end Cmd

/-! ### A small salon -/

/-- A salon with one master, one service and one workstation; the owner has the Telegram id 1, everybody
else is a client. Days are UTC days, and 100.00 of the price of 100.00 is paid in advance. -/
def salon (mode : PaymentMode) : Catalog where
  settings := some {
    timezone := .fixed 0, bookingHorizonDays := 30, cancellationDeadlineHours := 24
    rescheduleDeadlineHours := none, maxAppointmentsPerDay := 8, defaultWindowDurationMinutes := 60
    minimumGapMinutes := 0, allowSaturday := true, allowSunday := true, bookingReferenceMaxMedia := 3
    futureBookingLimitEnabled := none, futureBookingLimitMax := none, futureBookingLimitHorizonDays := none
    futureBookingCountClientCancellations := false }
  businessExists := true
  features := some fun _ => true
  newBookingsAllowed := true
  isAdmin t := t == 1
  adminUser _ := 1
  authorize t permission :=
    if t = 1 then .ok ⟨1, 1, 1, .owner, true, true, [permission]⟩ else .error (.authorization "denied")
  user i := some ⟨i, true, some 0, false⟩
  userByTelegramId t := some t.toNat
  staff i := if i = 1 then some ⟨some 1, .owner, true, true, true, none, none⟩ else none
  service i := if i = 1 then some ⟨true, true, none, 10000, 60, 60, some 10000⟩ else none
  assignment staff service :=
    if staff = 1 ∧ service = 1 then some ⟨none, none, none, none, none, true, true⟩ else none
  servicesOf _ := [1]
  addon _ := none
  workstationsFor _ := [1]
  portfolio _ := none
  paymentSettings := some ⟨mode, some "card", 15⟩
  paymentService _ := true
  paymentReturnUrl := some "url"
  sha256 raw := raw

/-- The salon without prepayments, with a second master and room for one appointment a day. -/
def duo : Catalog :=
  { salon .disabled with
    settings := (salon .disabled).settings.map fun s => { s with maxAppointmentsPerDay := 1 }
    staff i := if i = 2 then some ⟨some 5, .master, true, true, false, none, none⟩ else (salon .disabled).staff i
    assignment staff service :=
      if (staff = 1 ∨ staff = 2) ∧ service = 1 then some ⟨none, none, none, none, none, true, true⟩ else none }

namespace Salon

instance neZero_hours : NeZero 24 := ⟨by decide⟩

/-- The owner opens a window at an hour of the second day. -/
def openWindow (hour : Fin 24) : Cmd :=
  .createWindow (.admin 1) ⟨1, hours hour, none, none, .open, .inl rfl, by revert hour; decide⟩

/-- The owner opens a window for a master at an hour of the second day. -/
def openWindowFor (staff : Nat) (hour : Fin 24) : Cmd :=
  .createWindow (.admin 1) ⟨1, hours hour, some staff, none, .open, .inl rfl, by revert hour; decide⟩

/-- The creation key of a client's booking. -/
def checkoutKey (client : Int) : String := "checkout-0000000" ++ toString client

/-- A client books the only service in a window. -/
def bookWindow (client : Int) (window : Nat) : Cmd :=
  .book client ⟨1, [], window, none, none, [], checkoutKey client, "reservation-token-0000000000000" ++ toString client⟩
    false none

/-- The payment that a booking with the key of this client, this appointment and this reservation asks for. -/
def askedPayment (client : Int) (mode : PaymentMode) (appointment reservation : Nat) : PaymentCreate where
  appointmentId := appointment
  provider := mode
  paymentType := .fullPayment
  amount := 10000
  currency := "RUB"
  idempotencyKey := "pay:" ++ checkoutKey client
  safeMetadata := [("reservation_id", toString reservation)]

/-- What the provider says about the payment of an appointment. -/
def answer (values : PaymentCreate) (status : PaymentStatus) : ProviderPayment where
  provider := values.provider
  providerPaymentId := "payment-" ++ toString values.appointmentId
  status := status
  amount := values.amount
  currency := values.currency
  safeMetadata := PaymentService.intentMetadata values

/-- The answers that the adapter lets through while a payment waits and when it has succeeded. -/
def pendingAnswer (values : PaymentCreate) : AdapterPayment := ⟨answer values .pending, by simp [answer]⟩

def succeededAnswer (values : PaymentCreate) : AdapterPayment := ⟨answer values .succeeded, by simp [answer]⟩

/-- A notification about the payment of an appointment. -/
def notice (values : PaymentCreate) (name : String) : ProviderWebhookEvent where
  provider := values.provider
  eventKey := name ++ toString values.appointmentId
  eventType := .payment name
  providerObjectId := "payment-" ++ toString values.appointmentId
  providerPaymentId := "payment-" ++ toString values.appointmentId
  payloadSha256 := name ++ toString values.appointmentId

/-- A request to return a part of a payment. -/
def refundOf (paymentId : Nat) (amount : Money) (key : String) : RefundCreate where
  paymentId := paymentId
  amount := amount
  currency := "RUB"
  idempotencyKey := key
  reasonCode := "requested"
  requestedByUserId := none
  safeMetadata := []

/-- What the provider says about a refund of the payment of an appointment. -/
def refundAnswer (mode : PaymentMode) (appointment refund : Nat) (status : RefundStatus) (amount : Money) :
    ProviderRefund where
  provider := mode
  providerRefundId := "refund-" ++ toString refund
  providerPaymentId := "payment-" ++ toString appointment
  status := status
  amount := amount
  currency := "RUB"

/-- A notification about a refund of the payment of an appointment. -/
def refundNotice (mode : PaymentMode) (appointment refund : Nat) (name : String) : ProviderWebhookEvent where
  provider := mode
  eventKey := "refund " ++ name ++ toString refund
  eventType := .refund name
  providerObjectId := "refund-" ++ toString refund
  providerPaymentId := "payment-" ++ toString appointment
  payloadSha256 := "refund " ++ name ++ toString refund

end Salon

end SalonBooking
