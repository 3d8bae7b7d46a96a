import SalonBooking.Services.Appointments
import SalonBooking.Services.Booking

/-!
# Moving appointments

`services/reschedule_service.py` replaces an active appointment by a new one on another window;
`reassign_future_appointments` of `repositories/staff_repository.py` moves the future appointments of
one master to the open windows of another at exactly the same times.
-/

namespace SalonBooking

open Lib

inductive RescheduleActor
  | client (telegramId : Int)
  | admin (telegramId : Int)

structure RescheduleChange where
  appointment : Appointment
  oldWindow : Window
  newAppointment : Appointment
  newWindow : Window
  changedByUserId : Nat

namespace RescheduleService

/-- The ownership and authority checks before any lock; the user the change is booked to. -/
def authorize (c : Catalog) (appointment : Appointment) : RescheduleActor → Check Nat
  | .client telegramId => do
    let clientId ← c.requireClient telegramId
    ensureOwner appointment clientId
    return clientId
  | .admin telegramId => do
    c.ensureAdmin telegramId
    return c.adminUser telegramId

def checkDeadline (settings : BusinessSettings) (oldWindow : Window) (now : Int) : RescheduleActor → Check Unit
  | .client _ => ensureClientRescheduleDeadline oldWindow.startAt now settings.rescheduleDeadline
  | .admin _ => return ()

/-- The master of the target window and her assignment to the service. -/
def checkTargetMaster (c : Catalog) (newWindow : Window) (serviceId : Nat) : Check Unit := do
  let master ← orRaise (c.staff newWindow.staffMemberId) BookingService.windowTaken
  let assignment ← orRaise (c.assignment newWindow.staffMemberId serviceId) BookingService.windowTaken
  require (master.isActive = true ∧ master.isBookable = true ∧ assignment.isActive = true ∧
    assignment.onlineBookingEnabled = true) BookingService.windowTaken

def successor (appointmentId newWindowId : Nat) (appointment : Appointment) (newWindow : Window)
    (workstationId : Nat) : Appointment where
  staffMemberId := newWindow.staffMemberId
  clientId := appointment.clientId
  windowId := newWindowId
  serviceId := appointment.serviceId
  workstationId := some workstationId
  rescheduledFromId := some appointmentId
  priceSnapshot := appointment.priceSnapshot
  prepaymentSnapshot := appointment.prepaymentSnapshot
  paymentModeSnapshot := appointment.paymentModeSnapshot
  durationMinSnapshot := appointment.durationMinSnapshot
  durationMaxSnapshot := appointment.durationMaxSnapshot
  scheduledStartAt := newWindow.startAt
  scheduledEndAt := newWindow.endAt
  status := .confirmed

/-- `_reschedule` under its locks, given the daily count and the workstation its queries return. -/
def decide (c : Catalog) (settings : BusinessSettings) (actor : RescheduleActor) (changedByUserId : Nat)
    (appointmentId newWindowId : Nat) (now : Int) (appointment : Appointment) (oldWindow newWindow : Window)
    (dailyCount : Int → Nat) (workstation : Option Nat) : Check RescheduleChange := do
  ensureActiveAppointment appointment.status
  require (oldWindow.status = .booked) (.appointmentState "Старое окно уже находится в другом состоянии.")
  checkDeadline settings oldWindow now actor
  require (newWindow.status = .open ∧ ¬ newWindow.startAt ≤ now) BookingService.windowTaken
  checkTargetMaster c newWindow appointment.serviceId
  let newLocalDate ← validateBookableDate settings newWindow.startAt now
  validateServiceFitsWindow appointment.durationMaxSnapshot newWindow.startAt newWindow.endAt
  require (¬ dailyCount newLocalDate ≥ settings.maxAppointmentsPerDay) (.bookingLimit "На эту дату больше нет мест.")
  let workstationId ← orRaise workstation (.bookingConflict
    "На это время нет свободного рабочего места для услуги. Выберите другое открытое окно.")
  ensureAppointmentTransition appointment.status .rescheduled
  return {
    appointment := { appointment with status := .rescheduled }
    oldWindow := { oldWindow with status := if oldWindow.startAt > now then .open else .closed }
    newAppointment := successor appointmentId newWindowId appointment newWindow workstationId
    newWindow := { newWindow with status := .booked }
    changedByUserId }

def write (change : RescheduleChange) (previous : AppointmentStatus) (appointmentId : Nat) (db : Db) : Db :=
  (((((db.setAppointment appointmentId change.appointment).setWindow change.appointment.windowId change.oldWindow
    ).addAppointment change.newAppointment).setWindow change.newAppointment.windowId change.newWindow
    ).addHistory ⟨appointmentId, some previous, .rescheduled, some change.changedByUserId, some "Перенос записи"⟩
    ).addHistory
    ⟨db.appointments.next, none, .confirmed, some change.changedByUserId, some "Создано при переносе"⟩

/-- `_reschedule` as one transaction. -/
def reschedule (c : Catalog) (actor : RescheduleActor) (appointmentId newWindowId : Nat) (now : Int)
    (db : Db) : Check Db := do
  let settings ← c.requireSettings
  let appointment ← AppointmentService.requireAppointment db appointmentId
  let _ ← c.requireAppointmentClient appointment.clientId
  let changedByUserId ← authorize c appointment actor
  let oldWindow ← orRaise (db.windows.row appointment.windowId) (.appointmentNotFound "Окно записи не найдено.")
  let newWindow ← orRaise (db.windows.row newWindowId) (.appointmentNotFound "Окно записи не найдено.")
  require (appointment.windowId ≠ newWindowId) (.appointmentState "Выберите другое окно для переноса.")
  let dailyCount := fun day =>
    let bounds := settings.timezone.utcDayBounds day
    db.countCapacityBetween bounds.1 bounds.2 newWindow.staffMemberId (some appointmentId)
  let workstation :=
    c.allocateAvailable db appointment.serviceId newWindow.startAt newWindow.endAt (some appointmentId)
  let change ← decide c settings actor changedByUserId appointmentId newWindowId now appointment oldWindow
    newWindow dailyCount workstation
  ((write change appointment.status appointmentId db).commit).mapError fun e =>
    if e = .integrity then BookingService.windowTaken else e

end RescheduleService

namespace AuthorizationService

/-- `_require_manageable_target`. -/
def requireManageableTarget (actor : StaffContext) (targetId : Nat) (target : StaffMember) : Check Unit := do
  require (¬ (targetId = actor.staffMemberId ∨ target.isBootstrapOwner = true))
    (.authorization "Bootstrap-владельца и собственную роль изменять нельзя.")
  if target.role = .owner then
    require (actor.isBootstrapOwner = true)
      (.authorization "Управлять другими владельцами может только bootstrap.")
  else
    require (actor.role = .owner ∨
        (actor.role = .manager ∧ (target.role = .master ∨ target.role = .receptionist)))
      (.authorization "Недостаточно прав для изменения этого сотрудника.")

end AuthorizationService

namespace StaffRepository

/-- The future occupying appointments of a master, by start, then key. -/
def futureAppointments (db : Db) (sourceStaffId : Nat) (now : Int) : List (Nat × Appointment) :=
  (db.appointments.select fun a =>
    a.staffMemberId == sourceStaffId && decide (now ≤ a.scheduledStartAt) && a.status.occupies).insertionSort
    fun r s => r.2.scheduledStartAt < s.2.scheduledStartAt ∨
      (r.2.scheduledStartAt = s.2.scheduledStartAt ∧ r.1 ≤ s.1)

/-- The open window of the target master at exactly the time of an appointment; of several the last,
as in the dictionary of the source. -/
def exactWindow (db : Db) (targetId : Nat) (appointment : Appointment) : Option (Nat × Window) :=
  (db.windows.select fun w =>
    w.staffMemberId == targetId && w.status == .open && w.startAt == appointment.scheduledStartAt &&
      w.endAt == appointment.scheduledEndAt).getLast?

/-- The reservation row that belongs to an appointment; of several the last. -/
def reservationOf (db : Db) (appointmentId : Nat) : Option (Nat × Reservation) :=
  (db.reservations.select fun r => r.appointmentId == some appointmentId).getLast?

/-- One round of the loop: the appointment and its reservation move to the new window. -/
def reassignOne (targetId : Nat) (db : Db) (move : (Nat × Appointment) × (Nat × Window)) : Check Db := do
  let ((appointmentId, appointment), (newWindowId, newWindow)) := move
  let oldWindow ← orRaise (db.windows.row appointment.windowId) (.value "source_window_missing")
  let db := db.setWindow appointment.windowId { oldWindow with status := .open }
  let db := db.setWindow newWindowId
    { newWindow with status := if appointment.status.isPending then .reserved else .booked }
  let db := db.setAppointment appointmentId
    { appointment with staffMemberId := targetId, windowId := newWindowId }
  match reservationOf db appointmentId with
  | none => return db
  | some (reservationId, reservation) =>
    return db.setReservation reservationId
      { reservation with staffMemberId := targetId, windowId := newWindowId }

/-- `reassign_future_appointments`. -/
def reassignFutureAppointments (c : Catalog) (sourceStaffId targetId : Nat) (now : Int) (db : Db) :
    Check Db := do
  let appointments := futureAppointments db sourceStaffId now
  require (∀ r ∈ appointments, ((c.assignment targetId r.2.serviceId).any fun a => a.isActive) = true)
    (.value "target_missing_service_assignments")
  let moves ← appointments.mapM fun r => do
    let window ← orRaise (exactWindow db targetId r.2) (.value "target_missing_exact_windows")
    return (r, window)
  moves.foldlM (reassignOne targetId) db

end StaffRepository

namespace AuthorizationService

def reassignmentError : Err → Err
  | .value "target_missing_service_assignments" => .staffReassignment
    "Сначала назначьте новому специалисту все услуги переносимых записей."
  | .value "target_missing_exact_windows" => .staffReassignment
    "Сначала создайте новому специалисту свободные окна на то же время."
  | .value "source_window_missing" => .staffReassignment "Исходное окно записи не найдено."
  | .value _ => .staffReassignment "Перенос невозможен."
  | e => e

/-- `reassign_future_appointments` of the authorization service. -/
def reassignFutureAppointments (c : Catalog) (actor : Int) (sourceStaffId targetId : Nat) (now : Int)
    (db : Db) : Check Db := do
  require (sourceStaffId ≠ targetId) (.staffReassignment "Исходный и новый специалист совпадают.")
  let liveActor ← c.authorize actor .manageStaff
  let source ← orRaise (c.staff sourceStaffId) (.entityNotFound "Сотрудник не найден.")
  let target ← orRaise (c.staff targetId) (.entityNotFound "Сотрудник не найден.")
  requireManageableTarget liveActor sourceStaffId source
  require (target.isActive = true ∧ target.archivedAt = none ∧ target.isBookable = true)
    (.staffReassignment "Новый специалист неактивен или недоступен для записи.")
  let db ← (StaffRepository.reassignFutureAppointments c sourceStaffId targetId now db).mapError
    reassignmentError
  db.commit

end AuthorizationService

end SalonBooking
