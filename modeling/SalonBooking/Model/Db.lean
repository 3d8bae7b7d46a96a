import SalonBooking.Lib.Table
import SalonBooking.Domain.Appointments
import SalonBooking.Model.Rows

/-!
# The database

`Db` is the committed state of one business. A service transaction is a function from the state it
started on to the state it commits; the checks and unique indexes of the schema are tested when it
commits, and a violation is the `IntegrityError` of the source. Queries that the source ends with
`one_or_none` are searches: the unique indexes leave them at most one row.
-/

namespace SalonBooking

open Lib

structure Db where
  windows : Table Window
  appointments : Table Appointment
  reservations : Table Reservation
  payments : Table Payment
  refunds : Table Refund
  events : Table PaymentWebhookEvent
  history : List AppointmentStatusHistory

namespace Db

def empty : Db := ⟨.empty, .empty, .empty, .empty, .empty, .empty, []⟩

/-! ### Writes -/

@[simp] def setWindow (db : Db) (i : Nat) (w : Window) : Db := { db with windows := db.windows.put i w }

@[simp] def setAppointment (db : Db) (i : Nat) (a : Appointment) : Db :=
  { db with appointments := db.appointments.put i a }

@[simp] def setReservation (db : Db) (i : Nat) (r : Reservation) : Db :=
  { db with reservations := db.reservations.put i r }

@[simp] def setPayment (db : Db) (i : Nat) (p : Payment) : Db := { db with payments := db.payments.put i p }

@[simp] def setRefund (db : Db) (i : Nat) (r : Refund) : Db := { db with refunds := db.refunds.put i r }

@[simp] def setEvent (db : Db) (i : Nat) (e : PaymentWebhookEvent) : Db :=
  { db with events := db.events.put i e }

@[simp] def addWindow (db : Db) (w : Window) : Db := { db with windows := db.windows.insert w }

@[simp] def addAppointment (db : Db) (a : Appointment) : Db :=
  { db with appointments := db.appointments.insert a }

@[simp] def addReservation (db : Db) (r : Reservation) : Db :=
  { db with reservations := db.reservations.insert r }

@[simp] def addPayment (db : Db) (p : Payment) : Db := { db with payments := db.payments.insert p }

@[simp] def addRefund (db : Db) (r : Refund) : Db := { db with refunds := db.refunds.insert r }

@[simp] def addEvent (db : Db) (e : PaymentWebhookEvent) : Db := { db with events := db.events.insert e }

@[simp] def deleteWindow (db : Db) (i : Nat) : Db := { db with windows := db.windows.erase i }

@[simp] def addHistory (db : Db) (h : AppointmentStatusHistory) : Db := { db with history := db.history ++ [h] }

/-! ### Schema checks -/

/-- Half-open intervals that share an instant. -/
def overlap (start₁ end₁ start₂ end₂ : Int) : Prop := start₁ < end₂ ∧ start₂ < end₁

instance (a b c d : Int) : Decidable (overlap a b c d) := inferInstanceAs (Decidable (_ ∧ _))

/-- `positive_duration` and `ex_availability_windows_active_overlap`. -/
def windowChecks (db : Db) : Prop :=
  db.windows.All fun i w => w.startAt < w.endAt ∧
    db.windows.All fun j v => i ≠ j → w.status.isActive = true → v.status.isActive = true →
      w.staffMemberId = v.staffMemberId → ¬ overlap w.startAt w.endAt v.startAt v.endAt

/-- The row checks of `appointments`. -/
def validAppointment (a : Appointment) : Prop :=
  0 ≤ a.priceSnapshot ∧ 0 ≤ a.prepaymentSnapshot ∧ 0 < a.durationMinSnapshot ∧
    a.durationMinSnapshot ≤ a.durationMaxSnapshot ∧ a.scheduledStartAt < a.scheduledEndAt

instance (a : Appointment) : Decidable (validAppointment a) := inferInstanceAs (Decidable (_ ∧ _))

/-- Two different rows of `appointments`: the two overlap exclusions, `uq_appointments_occupied_window`
and the uniqueness of `rescheduled_from_id`. -/
structure CompatibleAppointments (a b : Appointment) : Prop where
  staff : a.status.occupies = true → b.status.occupies = true → a.staffMemberId = b.staffMemberId →
    ¬ overlap a.scheduledStartAt a.scheduledEndAt b.scheduledStartAt b.scheduledEndAt
  workstation : a.status.occupies = true → b.status.occupies = true → a.workstationId.isSome = true →
    a.workstationId = b.workstationId →
    ¬ overlap a.scheduledStartAt a.scheduledEndAt b.scheduledStartAt b.scheduledEndAt
  window : a.status.countsCapacity = true → b.status.countsCapacity = true → a.windowId ≠ b.windowId
  rescheduledFrom : a.rescheduledFromId.isSome = true → a.rescheduledFromId ≠ b.rescheduledFromId

instance (a b : Appointment) : Decidable (CompatibleAppointments a b) :=
  decidable_of_iff
    ((a.status.occupies = true → b.status.occupies = true → a.staffMemberId = b.staffMemberId →
        ¬ overlap a.scheduledStartAt a.scheduledEndAt b.scheduledStartAt b.scheduledEndAt) ∧
      (a.status.occupies = true → b.status.occupies = true → a.workstationId.isSome = true →
        a.workstationId = b.workstationId →
        ¬ overlap a.scheduledStartAt a.scheduledEndAt b.scheduledStartAt b.scheduledEndAt) ∧
      (a.status.countsCapacity = true → b.status.countsCapacity = true → a.windowId ≠ b.windowId) ∧
      (a.rescheduledFromId.isSome = true → a.rescheduledFromId ≠ b.rescheduledFromId))
    ⟨fun ⟨h₁, h₂, h₃, h₄⟩ => ⟨h₁, h₂, h₃, h₄⟩, fun ⟨h₁, h₂, h₃, h₄⟩ => ⟨h₁, h₂, h₃, h₄⟩⟩

/-- The checks of `appointments`. -/
def appointmentChecks (db : Db) : Prop :=
  db.appointments.All fun i a => validAppointment a ∧
    db.appointments.All fun j b => i ≠ j → CompatibleAppointments a b

/-- The unique indexes of `booking_reservations`. -/
def reservationChecks (db : Db) : Prop :=
  db.reservations.All fun i r => db.reservations.All fun j s => i ≠ j →
    r.tokenDigest ≠ s.tokenDigest ∧ r.idempotencyKey ≠ s.idempotencyKey ∧
      (r.status.isLive = true → s.status.isLive = true → r.windowId ≠ s.windowId)

/-- The checks and unique indexes of `payments`. -/
def paymentChecks (db : Db) : Prop :=
  db.payments.All fun i p =>
    (p.provider ≠ .disabled ∧ 0 < p.amount ∧ 0 ≤ p.refundedAmount ∧ p.refundedAmount ≤ p.amount ∧
      (p.manualStatus.isSome = true ↔ p.provider = .manual)) ∧
    db.payments.All fun j q => i ≠ j →
      p.idempotencyKey ≠ q.idempotencyKey ∧
      (p.provider = q.provider → p.providerPaymentId.isSome = true →
        p.providerPaymentId ≠ q.providerPaymentId) ∧
      (p.provider = .manual → q.provider = .manual → p.appointmentId ≠ q.appointmentId)

/-- The checks and unique indexes of `refunds`. -/
def refundChecks (db : Db) : Prop :=
  db.refunds.All fun i r => (r.provider ≠ .disabled ∧ 0 < r.amount) ∧
    db.refunds.All fun j s => i ≠ j →
      r.idempotencyKey ≠ s.idempotencyKey ∧
      (r.provider = s.provider → r.providerRefundId.isSome = true →
        r.providerRefundId ≠ s.providerRefundId)

/-- `uq_payment_webhook_events_business_event`. -/
def eventChecks (db : Db) : Prop :=
  db.events.All fun i e => db.events.All fun j f => i ≠ j →
    ¬ (e.envelope.provider = f.envelope.provider ∧ e.envelope.eventKey = f.envelope.eventKey)

structure Checks (db : Db) : Prop where
  windows : db.windowChecks
  appointments : db.appointmentChecks
  reservations : db.reservationChecks
  payments : db.paymentChecks
  refunds : db.refundChecks
  events : db.eventChecks

instance (db : Db) : Decidable db.windowChecks := inferInstanceAs (Decidable (Table.All _ _))
instance (db : Db) : Decidable db.appointmentChecks := inferInstanceAs (Decidable (Table.All _ _))
instance (db : Db) : Decidable db.reservationChecks := inferInstanceAs (Decidable (Table.All _ _))
instance (db : Db) : Decidable db.paymentChecks := inferInstanceAs (Decidable (Table.All _ _))
instance (db : Db) : Decidable db.refundChecks := inferInstanceAs (Decidable (Table.All _ _))
instance (db : Db) : Decidable db.eventChecks := inferInstanceAs (Decidable (Table.All _ _))

instance (db : Db) : Decidable db.Checks :=
  decidable_of_iff (db.windowChecks ∧ db.appointmentChecks ∧ db.reservationChecks ∧ db.paymentChecks ∧
      db.refundChecks ∧ db.eventChecks)
    ⟨fun ⟨a, b, c, d, e, f⟩ => ⟨a, b, c, d, e, f⟩, fun ⟨a, b, c, d, e, f⟩ => ⟨a, b, c, d, e, f⟩⟩

theorem checks_empty : empty.Checks :=
  ⟨Table.all_empty, Table.all_empty, Table.all_empty, Table.all_empty, Table.all_empty, Table.all_empty⟩

def commit (db : Db) : Check Db := do
  require db.Checks .integrity
  return db

@[simp] theorem commit_ok {db db' : Db} : db.commit = .ok db' ↔ db.Checks ∧ db = db' := by
  simp [commit]

/-! ### Queries -/

/-- `get_active_for_window` of the reservation repository. -/
def activeForWindow (db : Db) (windowId : Nat) : Option (Nat × Reservation) :=
  db.reservations.find fun r => r.windowId == windowId && r.status.isLive

/-- `get_active_for_appointment` of the reservation repository. -/
def activeForAppointment (db : Db) (appointmentId : Nat) : Option (Nat × Reservation) :=
  db.reservations.find fun r => r.appointmentId == some appointmentId && r.status.isLive

/-- `get_latest_for_appointment` of the payment repository: the newest row has the largest key. -/
def latestPayment (db : Db) (appointmentId : Nat) : Option (Nat × Payment) :=
  (db.payments.select fun p => p.appointmentId == appointmentId).getLast?

/-- `get_by_provider_id` of the payment repository. -/
def paymentByProviderId (db : Db) (provider : PaymentMode) (providerPaymentId : String) :
    Option (Nat × Payment) :=
  db.payments.find fun p => p.provider == provider && p.providerPaymentId == some providerPaymentId

/-- `get_refund_by_provider_id`. -/
def refundByProviderId (db : Db) (provider : PaymentMode) (providerRefundId : String) :
    Option (Nat × Refund) :=
  db.refunds.find fun r => r.provider == provider && r.providerRefundId == some providerRefundId

/-- `get_refund_by_idempotency_key`. -/
def refundByIdempotencyKey (db : Db) (key : String) : Option (Nat × Refund) :=
  db.refunds.find fun r => r.idempotencyKey == key

/-- `get_webhook_by_event_key`. -/
def eventByKey (db : Db) (provider : PaymentMode) (eventKey : String) :
    Option (Nat × PaymentWebhookEvent) :=
  db.events.find fun e => e.envelope.provider == provider && e.envelope.eventKey == eventKey

/-- The refunds of one payment in one status. -/
def refundsOf (db : Db) (paymentId : Nat) (status : RefundStatus) : List (Nat × Refund) :=
  db.refunds.select fun r => r.paymentId == paymentId && r.status == status

/-- `sum_pending_refunds`. -/
def sumPendingRefunds (db : Db) (paymentId : Nat) : Money :=
  ((db.refundsOf paymentId .pending).map fun r => r.2.amount).sum

/-- `count_capacity_between`: the day is that of the window the appointment refers to. -/
def countCapacityBetween (db : Db) (startAt endAt : Int) (staffMemberId : Nat)
    (excludeAppointmentId : Option Nat) : Nat :=
  (db.appointments.toList.filter fun r =>
    r.2.status.countsCapacity && r.2.staffMemberId == staffMemberId &&
      decide (some r.1 ≠ excludeAppointmentId) &&
      (db.windows.row r.2.windowId).any fun w =>
        decide (startAt ≤ w.startAt) && decide (w.startAt < endAt)).length

/-- `count_for_future_booking_limit`. -/
def countForFutureBookingLimit (db : Db) (clientId : Nat) (now : Int) (horizonDays : Nat)
    (includeClientCancellations : Bool) : Nat :=
  (db.appointments.select fun a =>
    a.clientId == clientId &&
      ((a.status.occupies && decide (now ≤ a.scheduledStartAt) &&
          decide (a.scheduledStartAt < now + days horizonDays)) ||
        (includeClientCancellations && a.status == .cancelledByClient &&
          a.cancelledAt.any fun t => decide (now - days 30 ≤ t) && decide (t ≤ now)))).length

/-- `list_active_between`: the spacing intervals of a master's active windows. -/
def activeWindowsBetween (db : Db) (startAt endAt : Int) (staffMemberId : Nat) (excludeId : Option Nat) :
    List (Int × Int) :=
  (db.windows.toList.filter fun r =>
    r.2.status.isActive && r.2.staffMemberId == staffMemberId && decide (some r.1 ≠ excludeId) &&
      decide (startAt ≤ r.2.startAt) && decide (r.2.startAt < endAt)).map fun r => (r.2.startAt, r.2.endAt)

/-- Whether an occupying appointment keeps a workstation busy between two instants. -/
def workstationBusy (db : Db) (workstationId : Nat) (startAt endAt : Int)
    (excludeAppointmentId : Option Nat) : Bool :=
  db.appointments.toList.any fun r =>
    r.2.workstationId == some workstationId && r.2.status.occupies &&
      decide (some r.1 ≠ excludeAppointmentId) &&
      decide (r.2.scheduledStartAt < endAt) && decide (startAt < r.2.scheduledEndAt)

end Db

end SalonBooking
