import SalonBooking.Services.Booking

/-!
# Manual prepayments

The client's report and receipt (`services/manual_prepayment_service.py`), the approval of
`ManualPaymentApprovalCoordinator` with the transaction that consumes the paid hold, and the rejection
of `services/payment_admin_service.py`.
-/

namespace SalonBooking

open Lib

namespace ManualPrepaymentService

/-- The locked rows of `_locked_owned_payment`. -/
structure OwnedPayment where
  userId : Nat
  payment : Payment
  appointment : Appointment
  reservationId : Nat
  reservation : Reservation

/-- `_locked_owned_payment`. -/
def lockedOwnedPayment (c : Catalog) (actor : Int) (paymentId : Nat) (db : Db) : Check OwnedPayment := do
  let notFound := Err.entityNotFound "Предоплата не найдена."
  let denied := Err.authorization "Эта предоплата вам недоступна."
  let userId ← orRaise (c.userByTelegramId actor) notFound
  let payment ← orRaise (db.payments.row paymentId) notFound
  let appointment ← orRaise (db.appointments.row payment.appointmentId) denied
  require (appointment.clientId = userId) denied
  let (reservationId, reservation) ← orRaise (db.activeForAppointment payment.appointmentId)
    (.paymentState "Резерв этой предоплаты уже завершён.")
  require (payment.provider = .manual ∧ reservation.appointmentId = some payment.appointmentId) denied
  return { userId, payment, appointment, reservationId, reservation }

/-- `report_paid`: a repeated report changes nothing. -/
def reportPaid (c : Catalog) (actor : Int) (paymentId : Nat) (now : Int) (db : Db) : Check Db := do
  let o ← lockedOwnedPayment c actor paymentId db
  if o.payment.manualStatus = some .clientReported ∨ o.payment.manualStatus = some .reviewPending then
    return db
  else
    require (¬ (o.payment.manualStatus ≠ some .awaitingPayment ∨ o.payment.status ≠ .pending ∨
        o.reservation.status ≠ .active))
      (.paymentState "Эта заявка на предоплату уже завершена.")
    require (¬ o.reservation.expiresAt ≤ now)
      (.paymentState "Срок оплаты уже истёк. Обновите список записей.")
    ensureReservationTransition o.reservation.status .awaitingReview
    let db := db.setReservation o.reservationId { o.reservation with status := .awaitingReview }
    let (appointment, db) ←
      if o.appointment.status = .pendingPayment then
        ReservationService.transitionAppointment db o.payment.appointmentId o.appointment
          .pendingManualConfirmation (some o.userId) "client_reported_manual_payment"
      else do
        require (o.appointment.status = .pendingManualConfirmation)
          (.paymentState "Запись уже не ожидает ручную предоплату.")
        pure (o.appointment, db)
    let db := db.setAppointment o.payment.appointmentId { appointment with reservationExpiresAt := none }
    let payment := { o.payment with
      manualStatus := some .clientReported, clientReportedAt := some now }
    (db.setPayment paymentId payment).commit

/-- `submit_for_review`; a receipt is given by its unique id. -/
def submitForReview (c : Catalog) (actor : Int) (paymentId : Nat) (receipt : Option String) (now : Int)
    (db : Db) : Check Db := do
  let o ← lockedOwnedPayment c actor paymentId db
  if o.payment.manualStatus = some .reviewPending then
    require (∀ r ∈ receipt, o.payment.receiptFileUniqueId = some r)
      (.paymentState "Чек уже был отправлен для этой предоплаты.")
    return db
  else
    require (¬ (o.payment.manualStatus ≠ some .clientReported ∨ o.reservation.status ≠ .awaitingReview))
      (.paymentState "Сначала нажмите «Я оплатил».")
    let payment := match receipt with
      | some r => { o.payment with receiptFileUniqueId := some r, receiptReceivedAt := some now }
      | none => o.payment
    let payment := { payment with manualStatus := some .reviewPending, reviewStartedAt := some now }
    (db.setPayment paymentId payment).commit

end ManualPrepaymentService

namespace ManualPaymentApprovalCoordinator

/-- The first transaction of `approve`. -/
def approve (c : Catalog) (actor : Int) (paymentId : Nat) (now : Int) (db : Db) : Check Db := do
  let notFound := Err.entityNotFound "payment not found"
  let liveActor ← c.authorize actor .approvePrepayments
  let payment ← orRaise (db.payments.row paymentId) notFound
  let appointment ← orRaise (db.appointments.row payment.appointmentId) notFound
  require (¬ (liveActor.role = .master ∧ appointment.staffMemberId ≠ liveActor.staffMemberId)) notFound
  require (payment.provider = .manual) (.paymentState "manual approval requires a manual payment")
  if payment.manualStatus = some .confirmed then
    require (payment.status = .succeeded) (.paymentState "manual payment state is inconsistent")
  else
    require (payment.manualStatus = some .clientReported ∨ payment.manualStatus = some .reviewPending)
      (.paymentState "Клиент ещё не сообщил об оплате.")
  if payment.status = .succeeded then return db
  else
    match (PaymentService.confirmManualPayment now).exec payment with
    | (.error e, _) => throw e
    | (.ok _, payment) =>
      let payment := { payment with
        manualStatus := some .confirmed, reviewedAt := some now, reviewedByUserId := some liveActor.userId }
      (db.setPayment paymentId payment).commit

/-- `_consume_paid_reservation` of the coordinators: the payment is read again and must have succeeded. -/
def consumePaidReservation (paymentId : Nat) (actorUserId : Option Nat) (now : Int) (db : Db) : Check Db := do
  match db.payments.row paymentId with
  | none => return db
  | some payment =>
    if payment.status = .succeeded then
      match db.activeForAppointment payment.appointmentId with
      | none => return db
      | some (reservationId, _) =>
        let db ← ReservationService.consume reservationId payment.appointmentId actorUserId now db
        db.commit
    else return db

end ManualPaymentApprovalCoordinator

namespace PaymentAdminService

/-- `_require_assigned_if_master`. -/
def requireAssignedIfMaster (actor : StaffContext) (staffMemberId : Nat) : Check Unit :=
  require (¬ (actor.role = .master ∧ staffMemberId ≠ actor.staffMemberId))
    (.entityNotFound "Платёж не найден.")

/-- The reason of a rejection as it is stored. -/
def normalizedReason (reason : Option String) : String :=
  let trimmed := strip (reason.getD "")
  if trimmed = "-" then "" else trimmed

/-- `reject_manual`: a payment already rejected is left alone. -/
def rejectManual (c : Catalog) (actor : Int) (paymentId : Nat) (reason : Option String) (now : Int)
    (db : Db) : Check Db := do
  let liveActor ← c.authorize actor .rejectPrepayments
  let normalized := normalizedReason reason
  require (¬ normalized.length > 500) (.paymentState "Причина отклонения не должна превышать 500 символов.")
  let payment ← orRaise (db.payments.row paymentId) (.entityNotFound "Платёж не найден.")
  let appointment ← orRaise (db.appointments.row payment.appointmentId)
    (.entityNotFound "Связанная запись не найдена.")
  requireAssignedIfMaster liveActor appointment.staffMemberId
  let reservation := db.activeForAppointment payment.appointmentId
  let _ ← orRaise (c.user appointment.clientId) (.entityNotFound "Клиент не найден.")
  if payment.manualStatus = some .rejected then return db
  else
    let finished := Err.paymentState "Эту предоплату уже нельзя отклонить."
    require (payment.provider = .manual ∧ (payment.manualStatus = some .clientReported ∨
      payment.manualStatus = some .reviewPending) ∧ payment.status = .pending) finished
    let (reservationId, reservation) ← orRaise reservation finished
    require (reservation.status = .awaitingReview) finished
    let window ← orRaise (db.windows.row reservation.windowId) (.entityNotFound "Окно записи не найдено.")
    requirePaymentTransition payment.status .failed
    let db := db.setPayment paymentId { payment with
      status := .failed, manualStatus := some .rejected, reviewedAt := some now
      reviewedByUserId := some liveActor.userId, lastErrorCode := some "manual_rejected" }
    ensureAppointmentTransition appointment.status .cancelledByAdmin
    let db := db.setAppointment payment.appointmentId { appointment with
      status := .cancelledByAdmin, cancelledAt := some now
      cancellationReason := some (if normalized = "" then "manual_payment_rejected" else normalized)
      reservationExpiresAt := none }
    let db := db.addHistory ⟨payment.appointmentId, some appointment.status, .cancelledByAdmin,
      some liveActor.userId, some "manual_payment_rejected"⟩
    ensureReservationTransition reservation.status .cancelled
    let db := db.setReservation reservationId
      { reservation with status := .cancelled, cancelledAt := some now }
    let db := if window.status.isHeld then db.setWindow reservation.windowId { window with status := .open }
      else db
    db.commit

end PaymentAdminService

end SalonBooking
