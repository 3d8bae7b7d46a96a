import Mathlib
import SalonBooking.Model.Catalog

/-!
# Reservations

`services/reservation_service.py` and the expiry worker of `workers/reservation_expiry.py`: a hold is
created with its window, consumed when its appointment is confirmed, or expired by the worker, which
also repairs a hold whose payment was captured in the meantime.
-/

namespace SalonBooking

open Lib

/-- `ReservationCreate`. -/
structure ReservationCreate where
  clientId : Nat
  staffMemberId : Nat
  windowId : Nat
  serviceId : Nat
  appointmentId : Option Nat
  idempotencyKey : String
  ttlMinutes : Nat

/-- `_WINDOW_RELEASE_APPOINTMENT_STATUSES`. -/
def AppointmentStatus.releasesWindow : AppointmentStatus → Bool
  | paymentExpired | cancelledByClient | cancelledByAdmin | rescheduled => true
  | _ => false

/-- The statuses from which a reservation may book or release its window. -/
def WindowStatus.isHeld : WindowStatus → Bool
  | reserved | booked => true
  | _ => false

theorem WindowStatus.not_isHeld_iff {s : WindowStatus} : s.isHeld = false ↔ s ≠ reserved ∧ s ≠ booked := by
  cases s <;> simp [isHeld]

namespace ReservationService

/-- `_required_reservation`. -/
def requiredReservation (db : Db) (reservationId : Nat) : Check Reservation :=
  orRaise (db.reservations.row reservationId) (.reservationState "Резерв не найден.")

/-- `_required_window`. -/
def requiredWindow (db : Db) (windowId : Nat) : Check Window :=
  orRaise (db.windows.row windowId) (.reservationState "Окно не найдено в этом бизнесе.")

/-- `_required_appointment`. -/
def requiredAppointment (db : Db) (appointmentId : Nat) : Check Appointment :=
  orRaise (db.appointments.row appointmentId) (.reservationState "Запись не найдена в этом бизнесе.")

/-- `_require_same_reservation`. -/
def requireSameReservation (reservation : Reservation) (values : ReservationCreate) (digest : String) :
    Check Unit :=
  require (reservation.clientId = values.clientId ∧ reservation.staffMemberId = values.staffMemberId ∧
      reservation.windowId = values.windowId ∧ reservation.serviceId = values.serviceId ∧
      reservation.appointmentId = values.appointmentId ∧ reservation.tokenDigest = digest)
    (.reservationState "Ключ идемпотентности уже связан с другим резервом.")

/-- `_require_appointment_matches`. -/
def requireAppointmentMatches (appointment : Appointment) (values : ReservationCreate) : Check Unit :=
  require (appointment.clientId = values.clientId ∧ appointment.staffMemberId = values.staffMemberId ∧
      appointment.windowId = values.windowId ∧ appointment.serviceId = values.serviceId)
    (.reservationState "Резерв не соответствует записи.")

/-- Client, master, window and service agree. -/
def Matches (reservation : Reservation) (appointment : Appointment) : Prop :=
  reservation.clientId = appointment.clientId ∧ reservation.staffMemberId = appointment.staffMemberId ∧
    reservation.windowId = appointment.windowId ∧ reservation.serviceId = appointment.serviceId

instance (r : Reservation) (a : Appointment) : Decidable (Matches r a) :=
  inferInstanceAs (Decidable (_ ∧ _))

/-- `_require_reservation_matches_appointment`. -/
def requireReservationMatchesAppointment (reservation : Reservation) (appointment : Appointment) :
    Check Unit :=
  require (Matches reservation appointment) (.reservationState "Резерв не соответствует записи.")

/-- `_transition_appointment`: the appointment object and the state with the history row. -/
def transitionAppointment (db : Db) (appointmentId : Nat) (appointment : Appointment)
    (target : AppointmentStatus) (changedByUserId : Option Nat) (reason : String) :
    Check (Appointment × Db) := do
  ensureAppointmentTransition appointment.status target
  return ({ appointment with status := target },
    db.addHistory ⟨appointmentId, some appointment.status, target, changedByUserId, some reason⟩)

/-- `create`: the key of the hold and whether it is new. -/
def create (values : ReservationCreate) (digest : String) (now : Int) (db : Db) :
    Check ((Nat × Bool) × Db) := do
  match db.reservations.find fun r => r.idempotencyKey == values.idempotencyKey with
  | some (reservationId, existing) =>
    requireSameReservation existing values digest
    return ((reservationId, false), db)
  | none =>
    let window ← requiredWindow db values.windowId
    require (window.staffMemberId = values.staffMemberId)
      (.reservationState "Окно относится к другому мастеру.")
    require (window.status = .open) (.reservationState "Выбранное время уже недоступно.")
    require (db.activeForWindow values.windowId = none)
      (.reservationState "Выбранное время уже зарезервировано.")
    let expiresAt := now + minutes values.ttlMinutes
    let db ← match values.appointmentId with
      | none => pure db
      | some appointmentId => do
        let appointment ← requiredAppointment db appointmentId
        requireAppointmentMatches appointment values
        require (appointment.status.isPending = true)
          (.reservationState "Запись уже не ожидает оплату или подтверждение.")
        pure (db.setAppointment appointmentId { appointment with reservationExpiresAt := some expiresAt })
    let reservation : Reservation := {
      clientId := values.clientId, staffMemberId := values.staffMemberId, windowId := values.windowId
      serviceId := values.serviceId, appointmentId := values.appointmentId, tokenDigest := digest
      idempotencyKey := values.idempotencyKey, status := .active, expiresAt }
    let db := db.setWindow values.windowId { window with status := .reserved }
    return ((db.reservations.next, true), db.addReservation reservation)

/-- `consume`. -/
def consume (reservationId appointmentId : Nat) (actorUserId : Option Nat) (now : Int) (db : Db) :
    Check Db := do
  let reservation ← requiredReservation db reservationId
  if reservation.status = .consumed then
    require (reservation.appointmentId = some appointmentId)
      (.reservationState "Резерв уже связан с другой записью.")
    return db
  else
    ensureReservationTransition reservation.status .consumed
    require (¬ (reservation.status = .active ∧ reservation.expiresAt ≤ now))
      (.reservationState "Срок резерва уже истёк.")
    let appointment ← requiredAppointment db appointmentId
    requireReservationMatchesAppointment reservation appointment
    require (appointment.status = .pendingPayment →
        ((db.latestPayment appointmentId).any fun p => p.2.status == .succeeded) = true)
      (.reservationState "Payment has not been confirmed by the provider.")
    let (appointment, db) ←
      if appointment.status.isPending then
        transitionAppointment db appointmentId appointment .confirmed actorUserId "reservation_consumed"
      else do
        require (appointment.status.isActive = true)
          (.reservationState "Запись уже не может быть подтверждена.")
        pure (appointment, db)
    let window ← requiredWindow db reservation.windowId
    require (window.status.isHeld = true)
      (.reservationState "Состояние окна не соответствует активному резерву.")
    return ((db.setReservation reservationId
      { reservation with appointmentId := some appointmentId, status := .consumed, consumedAt := some now }
      ).setAppointment appointmentId { appointment with reservationExpiresAt := none }
      ).setWindow reservation.windowId { window with status := .booked }

/-- `_must_reconcile_as_paid`. -/
def mustReconcileAsPaid (db : Db) (appointmentId : Nat) (appointment : Appointment) : Bool :=
  appointment.status.isActive ||
    (appointment.status.isPending && (db.latestPayment appointmentId).any fun p => p.2.status == .succeeded)

/-- What expiry does to the latest payment of an appointment. -/
def expirePayment (payment : Payment) (now : Int) : Payment :=
  if payment.status = .pending then
    { payment with
      status := .cancelled, cancelledAt := some now
      manualStatus :=
        if payment.manualStatus = some .awaitingPayment then some .expired else payment.manualStatus }
  else payment

/-- The same on the payment row, where there is one. -/
def expireLatestPayment (db : Db) (appointmentId : Nat) (now : Int) : Db :=
  match db.latestPayment appointmentId with
  | some (paymentId, payment) => db.setPayment paymentId (expirePayment payment now)
  | none => db

/-- `_window_can_be_released`. -/
def windowCanBeReleased : Option Appointment → Bool
  | none => true
  | some appointment => appointment.status.releasesWindow

/-- The repair branch of `expire_claimed`. -/
def reconcilePaid (db : Db) (reservationId : Nat) (reservation : Reservation) (window : Window)
    (appointmentId : Nat) (appointment : Appointment) (now : Int) : Check Db := do
  let (appointment, db) ←
    if appointment.status.isPending then
      transitionAppointment db appointmentId appointment .confirmed none
        "reservation_expiry_paid_reconciliation"
    else pure (appointment, db)
  return ((db.setReservation reservationId { reservation with status := .consumed, consumedAt := some now }
    ).setAppointment appointmentId { appointment with reservationExpiresAt := none }
    ).setWindow reservation.windowId { window with status := .booked }

/-- The expiry branch of `expire_claimed`, up to the appointment and its payment. -/
def expireAppointment (db : Db) (appointmentId : Nat) (appointment : Appointment) (now : Int) :
    Check (Appointment × Db) := do
  if appointment.status.isPending then
    let (appointment, db) ←
      transitionAppointment db appointmentId appointment .paymentExpired none "reservation_expired"
    let appointment := { appointment with reservationExpiresAt := none }
    let db := db.setAppointment appointmentId appointment
    return (appointment, expireLatestPayment db appointmentId now)
  else return (appointment, db)

/-- The end of `expire_claimed`: the reservation and, where the appointment allows it, the window. -/
def releaseHold (db : Db) (reservationId : Nat) (reservation : Reservation) (window : Window)
    (appointment : Option Appointment) (now : Int) : Check Db := do
  ensureReservationTransition reservation.status .expired
  let db := db.setReservation reservationId { reservation with status := .expired, cancelledAt := some now }
  if windowCanBeReleased appointment && window.status.isHeld then
    return db.setWindow reservation.windowId { window with status := .open }
  else return db

/-- `expire_claimed`. -/
def expireClaimed (reservationId : Nat) (now : Int) (db : Db) : Check Db := do
  let reservation ← requiredReservation db reservationId
  require (reservation.status = .active) (.reservationState "Резерв больше не активен.")
  require (¬ reservation.expiresAt > now) (.reservationState "Резерв ещё не истёк.")
  let window ← requiredWindow db reservation.windowId
  match reservation.appointmentId with
  | none => releaseHold db reservationId reservation window none now
  | some appointmentId =>
    let appointment ← requiredAppointment db appointmentId
    requireReservationMatchesAppointment reservation appointment
    if mustReconcileAsPaid db appointmentId appointment then
      reconcilePaid db reservationId reservation window appointmentId appointment now
    else
      let (appointment, db) ← expireAppointment db appointmentId appointment now
      releaseHold db reservationId reservation window (some appointment) now

end ReservationService

namespace ReservationExpiryWorker

/-- `claim_expired`: overdue active holds by deadline, then key; rows another transaction has locked
are skipped. -/
def claimExpired (db : Db) (now : Int) (locked : List Nat) : List Nat :=
  (((db.reservations.select fun r => r.status == .active && decide (r.expiresAt ≤ now)).filter
      fun r => r.1 ∉ locked).insertionSort
    fun r s => r.2.expiresAt < s.2.expiresAt ∨ (r.2.expiresAt = s.2.expiresAt ∧ r.1 ≤ s.1)).map Prod.fst

/-- One savepoint of the cycle: an error leaves the state before it. -/
def expireOne (now : Int) (db : Db) (reservationId : Nat) : Db :=
  Except.orElse (do let db ← ReservationService.expireClaimed reservationId now db; db.commit) db

/-- `run_cycle`. -/
def runCycle (now : Int) (limit : Nat) (locked : List Nat) (db : Db) : Db :=
  ((claimExpired db now locked).take limit).foldl (expireOne now) db

end ReservationExpiryWorker

end SalonBooking
