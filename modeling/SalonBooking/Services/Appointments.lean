import SalonBooking.Model.Catalog

/-!
# Visits

The operations that end or confirm a visit: `services/appointment_service.py` for clients and
administrators and `services/master_workspace_service.py` for masters. Every operation that ends a
visit loads the appointment and its window, locks both and then decides from these two objects alone
what to write. The decision is a function of the two rows here (`VisitOp.decide`), so that the same
definition serves a transaction taken as one step and a transaction cut into its statements.
-/

namespace SalonBooking

open Lib

/-- What an operation writes to the appointment and the window it holds. -/
structure VisitChange where
  appointment : Appointment
  window : Window
  changedByUserId : Nat
  reason : Option String

/-- `ensure_owner` of `appointment_common`. -/
def ensureOwner (appointment : Appointment) (clientId : Nat) : Check Unit :=
  require (appointment.clientId = clientId) (.appointmentNotFound "Запись не найдена.")

namespace AppointmentService

/-- `_cancel`. -/
def cancel (appointment : Appointment) (window : Window) (newStatus : AppointmentStatus)
    (changedByUserId : Nat) (reason : Option String) (now : Int) (reopen : Bool) : Check VisitChange := do
  require (window.status = .booked) (.appointmentState "Окно записи уже находится в другом состоянии.")
  ensureAppointmentTransition appointment.status newStatus
  return {
    appointment := { appointment with
      status := newStatus, cancelledAt := some now, cancellationReason := reason }
    window := { window with status := if reopen = true ∧ window.startAt > now then .open else .closed }
    changedByUserId, reason }

/-- `cancel_my` under its locks. -/
def cancelMy (settings : BusinessSettings) (clientId : Nat) (reason : Option String) (now : Int)
    (appointment : Appointment) (window : Window) : Check VisitChange := do
  ensureOwner appointment clientId
  ensureActiveAppointment appointment.status
  ensureClientChangeDeadline window.startAt now settings.cancellationDeadlineHours
  cancel appointment window .cancelledByClient clientId reason now true

/-- `cancel_admin` under its locks. -/
def cancelAdmin (c : Catalog) (adminUserId : Nat) (reopenWindow : Bool) (reason : Option String) (now : Int)
    (appointment : Appointment) (window : Window) : Check VisitChange := do
  ensureActiveAppointment appointment.status
  let change ← cancel appointment window .cancelledByAdmin adminUserId reason now reopenWindow
  let _ ← c.requireAppointmentClient appointment.clientId
  return change

/-- `complete_visit` under its locks; a completed visit is left alone. -/
def completeVisit (c : Catalog) (adminUserId : Nat) (now : Int) (appointment : Appointment) (window : Window) :
    Check (Option VisitChange) := do
  let _ ← c.requireAppointmentClient appointment.clientId
  if appointment.status = .completed then return none
  else
    require (appointment.status.isActive = true) (.appointmentState "Завершить можно только активную запись.")
    require (¬ window.startAt > now)
      (.appointmentState "Завершить визит можно после начала окна записи.")
    ensureAppointmentTransition appointment.status .completed
    return some {
      appointment := { appointment with status := .completed, completedAt := some now }
      window := { window with status := .closed }
      changedByUserId := adminUserId, reason := some "Визит завершён" }

/-- `mark_no_show` under its locks; a visit already marked is left alone. -/
def markNoShow (c : Catalog) (adminUserId : Nat) (now : Int) (appointment : Appointment) (window : Window) :
    Check (Option VisitChange) := do
  let _ ← c.requireAppointmentClient appointment.clientId
  if appointment.status = .noShow then return none
  else
    require (appointment.status.isActive = true)
      (.appointmentState "Неявку можно отметить только для активной записи.")
    require (¬ window.endAt > now) (.appointmentState "Неявку можно отметить после окончания записи.")
    ensureAppointmentTransition appointment.status .noShow
    return some {
      appointment := { appointment with status := .noShow, noShowAt := some now }
      window := { window with status := .closed }
      changedByUserId := adminUserId, reason := some "Неявка" }

end AppointmentService

namespace MasterWorkspaceService

/-- `_require_live_master`. -/
def requireLiveMaster (c : Catalog) (actor : StaffContext) (permission : StaffPermission) : Check Unit := do
  let denied := Err.authorization "Master workspace access denied"
  require (actor.role = .master ∧ permission ∈ actor.permissions) denied
  let member ← orRaise (c.staff actor.staffMemberId) denied
  require (member.userId = some actor.userId ∧ member.role = .master ∧ member.isActive = true ∧
    member.archivedAt = none) denied

/-- `_ensure_own_appointment`. -/
def ensureOwnAppointment (actor : StaffContext) (appointment : Appointment) : Check Unit :=
  require (appointment.staffMemberId = actor.staffMemberId) (.authorization "Master appointment access denied")

/-- The checks of `_lock_own_appointment_window` after its locks. -/
def ensureOwnVisit (actor : StaffContext) (appointment : Appointment) (window : Window) : Check Unit := do
  ensureOwnAppointment actor appointment
  require (window.staffMemberId = actor.staffMemberId) (.authorization "Master appointment access denied")

/-- `cancel_own_appointment` under its locks. -/
def cancelOwnAppointment (c : Catalog) (actor : StaffContext) (now : Int) (appointment : Appointment)
    (window : Window) : Check VisitChange := do
  ensureOwnVisit actor appointment window
  require (appointment.status.isActive = true) (.appointmentState "Отменить можно только активную запись.")
  require (¬ window.startAt ≤ now)
    (.appointmentState "Начавшуюся запись нельзя отменить из панели мастера.")
  require (window.status = .booked) (.appointmentState "Окно записи уже изменено.")
  ensureAppointmentTransition appointment.status .cancelledByAdmin
  let _ ← c.requireAppointmentClient appointment.clientId
  return {
    appointment := { appointment with
      status := .cancelledByAdmin, cancelledAt := some now, cancellationReason := some "Отменено мастером" }
    window := { window with status := .open }
    changedByUserId := actor.userId, reason := some "Отменено мастером" }

/-- `_close_own_visit` under its locks, with `target` either `completed` or `noShow`. -/
def closeOwnVisit (c : Catalog) (actor : StaffContext) (target : AppointmentStatus) (now : Int)
    (appointment : Appointment) (window : Window) : Check (Option VisitChange) := do
  ensureOwnVisit actor appointment window
  if appointment.status = target then
    let _ ← c.requireAppointmentClient appointment.clientId
    return none
  else
    require (appointment.status.isActive = true) (.appointmentState "Изменить можно только активную запись.")
    require (¬ (target = .completed ∧ window.startAt > now))
      (.appointmentState "Завершить визит можно после начала окна записи.")
    require (¬ (target = .noShow ∧ window.endAt > now))
      (.appointmentState "Неявку можно отметить после окончания записи.")
    ensureAppointmentTransition appointment.status target
    let _ ← c.requireAppointmentClient appointment.clientId
    return some {
      appointment := { appointment with
        status := target
        completedAt := if target = .completed then some now else appointment.completedAt
        noShowAt := if target = .completed then appointment.noShowAt else some now }
      window := { window with status := .closed }
      changedByUserId := actor.userId
      reason := some (if target = .completed then "Визит завершён" else "Неявка") }

end MasterWorkspaceService

/-- The operations that end a visit. -/
inductive VisitOp
  | cancelMy (actor : Int) (reason : Option String)
  | cancelAdmin (actor : Int) (reopenWindow : Bool) (reason : Option String)
  | completeVisit (actor : Int)
  | markNoShow (actor : Int)
  | cancelOwnAppointment (actor : StaffContext)
  | completeOwnVisit (actor : StaffContext)
  | markOwnNoShow (actor : StaffContext)

namespace VisitOp

/-- What an operation checks before it loads anything. -/
def authorize (c : Catalog) : VisitOp → Check Unit
  | cancelMy actor _ => do
    let _ ← c.requireClient actor
    let _ ← c.requireSettings
    return ()
  | cancelAdmin actor _ _ | completeVisit actor | markNoShow actor => do
    c.ensureAdmin actor
    let _ ← c.requireSettings
    return ()
  | cancelOwnAppointment actor | completeOwnVisit actor | markOwnNoShow actor => do
    MasterWorkspaceService.requireLiveMaster c actor .manageOwnAppointments
    let _ ← orRaise c.settings (.runtime "Business settings are missing")
    return ()

/-- What a master's operation checks on the appointment it has loaded without a lock. -/
def checkLoaded (appointment : Appointment) : VisitOp → Check Unit
  | cancelOwnAppointment actor | completeOwnVisit actor | markOwnNoShow actor =>
    MasterWorkspaceService.ensureOwnAppointment actor appointment
  | _ => return ()

/-- What an operation writes, from the appointment and the window it has locked. -/
def decide (c : Catalog) (now : Int) (appointment : Appointment) (window : Window) :
    VisitOp → Check (Option VisitChange)
  | cancelMy actor reason => do
    let clientId ← c.requireClient actor
    let settings ← c.requireSettings
    return some (← AppointmentService.cancelMy settings clientId reason now appointment window)
  | cancelAdmin actor reopenWindow reason => do
    return some (← AppointmentService.cancelAdmin c (c.adminUser actor) reopenWindow reason now appointment window)
  | completeVisit actor => AppointmentService.completeVisit c (c.adminUser actor) now appointment window
  | markNoShow actor => AppointmentService.markNoShow c (c.adminUser actor) now appointment window
  | cancelOwnAppointment actor => do
    return some (← MasterWorkspaceService.cancelOwnAppointment c actor now appointment window)
  | completeOwnVisit actor => MasterWorkspaceService.closeOwnVisit c actor .completed now appointment window
  | markOwnNoShow actor => MasterWorkspaceService.closeOwnVisit c actor .noShow now appointment window

end VisitOp

/-- Writes a change with its history row. -/
def VisitChange.write (change : VisitChange) (previous : AppointmentStatus) (appointmentId : Nat) (db : Db) :
    Db :=
  ((db.setAppointment appointmentId change.appointment).setWindow change.appointment.windowId change.window
    ).addHistory
    ⟨appointmentId, some previous, change.appointment.status, some change.changedByUserId, change.reason⟩

namespace AppointmentService

/-- `_appointment`. -/
def requireAppointment (db : Db) (appointmentId : Nat) : Check Appointment :=
  orRaise (db.appointments.row appointmentId) (.appointmentNotFound "Запись не найдена.")

/-- `_window`. -/
def requireWindow (db : Db) (windowId : Nat) : Check Window :=
  orRaise (db.windows.row windowId) (.runtime "Appointment window is missing")

/-- An operation that ends a visit, as one transaction. -/
def endVisit (c : Catalog) (op : VisitOp) (appointmentId : Nat) (now : Int) (db : Db) : Check Db := do
  op.authorize c
  let appointment ← requireAppointment db appointmentId
  op.checkLoaded appointment
  let window ← requireWindow db appointment.windowId
  match ← op.decide c now appointment window with
  | none => return db
  | some change => (change.write appointment.status appointmentId db).commit

/-- The write of `confirm_visit` and `confirm_my_visit`. -/
def confirm (appointmentId : Nat) (appointment : Appointment) (userId : Nat) (reason : String) (now : Int)
    (db : Db) : Check Db := do
  ensureAppointmentTransition appointment.status .clientConfirmed
  let _ ← requireWindow db appointment.windowId
  let db := db.setAppointment appointmentId
    { appointment with status := .clientConfirmed, clientConfirmedAt := some now }
  (db.addHistory ⟨appointmentId, some appointment.status, .clientConfirmed, some userId, some reason⟩).commit

/-- `confirm_visit`. -/
def confirmVisit (c : Catalog) (actor : Int) (appointmentId : Nat) (now : Int) (db : Db) : Check Db := do
  c.ensureAdmin actor
  let appointment ← requireAppointment db appointmentId
  require (appointment.status = .confirmed)
    (.appointmentState "Подтвердить визит можно только для новой активной записи.")
  let _ ← c.requireAppointmentClient appointment.clientId
  let _ ← c.requireSettings
  confirm appointmentId appointment (c.adminUser actor) "Подтверждено администратором" now db

/-- `confirm_my_visit`. -/
def confirmMyVisit (c : Catalog) (actor : Int) (appointmentId : Nat) (now : Int) (db : Db) : Check Db := do
  let clientId ← c.requireClient actor
  let appointment ← requireAppointment db appointmentId
  ensureOwner appointment clientId
  require (appointment.status = .confirmed)
    (.appointmentState "Визит уже подтверждён или запись неактивна.")
  let _ ← c.requireSettings
  confirm appointmentId appointment clientId "Подтверждено клиентом" now db

end AppointmentService

end SalonBooking
