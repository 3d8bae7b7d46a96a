import SalonBooking.Lib.Pages
import SalonBooking.Services.Reschedule

/-!
# Free windows

`list_availability` of `services/booking_service.py` and the options of `services/reschedule_service.py`: what a
client or an administrator is offered before the operation that takes a window checks again under its locks.
-/

namespace SalonBooking

open Lib

/-- `list_open_between` of the window repository. -/
def Db.listOpenBetween (db : Db) (startAt endAt : Int) (limit : Nat) : List (Nat × Window) :=
  db.windows.page (fun w => w.status == .open && decide (startAt ≤ w.startAt ∧ w.startAt < endAt))
    (·.startAt) limit

/-- `count_capacity_between` without a master: the appointments of a day. -/
def Db.countCapacityOfDay (db : Db) (startAt endAt : Int) (excludeAppointmentId : Option Nat) : Nat :=
  (db.appointments.toList.filter fun r =>
    r.2.status.countsCapacity && decide (some r.1 ≠ excludeAppointmentId) &&
      (db.windows.row r.2.windowId).any fun w => decide (startAt ≤ w.startAt) && decide (w.startAt < endAt)).length

/-- The default limit of `list_open_between`. -/
def openWindowLimit : Nat := 200

namespace Catalog

/-- The assignment of one master in `list_bookable_assignments`. -/
def bookableAssignment (c : Catalog) (serviceId staffMemberId : Nat) : Option StaffServiceOverrides :=
  match c.assignment staffMemberId serviceId, c.service serviceId, c.staff staffMemberId with
  | some assignment, some service, some member =>
    if assignment.isActive && assignment.onlineBookingEnabled && service.isActive && service.onlineBookingEnabled &&
        service.archivedAt.isNone && member.isActive && member.isBookable && member.archivedAt.isNone then
      some assignment
    else none
  | _, _, _ => none

/-- `has_available` of the workstation repository, which may leave one appointment out. -/
def hasAvailableExcept (c : Catalog) (db : Db) (serviceId : Nat) (startAt endAt : Int)
    (excludeAppointmentId : Option Nat) : Bool :=
  (c.workstationsFor serviceId).any fun w => ! db.workstationBusy w startAt endAt excludeAppointmentId

end Catalog

/-- The weekend switches, as the listings read them. -/
def BusinessSettings.opensOn (s : BusinessSettings) (day : Int) : Bool :=
  ! (weekday day == 5 && ! s.allowSaturday) && ! (weekday day == 6 && ! s.allowSunday)

/-- The open windows of the booking period: from now, or the start of today, to the end of the last day. -/
def BusinessSettings.openWindows (s : BusinessSettings) (now : Int) (db : Db) : List (Nat × Window) :=
  let today := s.timezone.localDate now
  db.listOpenBetween (max now (s.timezone.utcDayBounds today).1)
    (s.timezone.utcDayBounds (today + s.bookingHorizonDays)).2 openWindowLimit

/-- `BookingWindowView`. -/
structure BookingWindowView where
  id : Nat
  startAt : Int
  endAt : Int
  staffMemberId : Nat
  terms : Option EffectiveServiceTerms

namespace BookingService

/-- The filters of `list_availability` that precede the terms of a window. -/
def isCandidate (c : Catalog) (settings : BusinessSettings) (staffMemberId : Option Nat) (localDate : Option Int)
    (w : Window) : Bool :=
  ! ((c.staff w.staffMemberId).bind (·.schedulePausedUntil)).any (fun t => decide (w.startAt < t)) &&
    staffMemberId.all (fun s => w.staffMemberId == s) &&
    localDate.all (fun d => settings.timezone.localDate w.startAt == d) &&
    settings.opensOn (settings.timezone.localDate w.startAt)

/-- One round of both loops of `list_availability`. -/
def availableWindow (c : Catalog) (settings : BusinessSettings) (service : Service) (serviceId : Nat)
    (addons : List ServiceAddon) (staffMemberId : Option Nat) (localDate : Option Int) (db : Db) (w : Nat × Window) :
    Check (Option BookingWindowView) :=
  match c.bookableAssignment serviceId w.2.staffMemberId with
  | none => return none
  | some assignment =>
    if isCandidate c settings staffMemberId localDate w.2 then do
      let terms := termsWithAddons (← effectiveTerms service assignment) addons
      let bounds := settings.timezone.utcDayBounds (settings.timezone.localDate w.2.startAt)
      if minutes terms.durationMaxMinutes ≤ w.2.endAt - w.2.startAt ∧
          c.hasAvailableExcept db serviceId w.2.startAt w.2.endAt none = true ∧
          db.countCapacityBetween bounds.1 bounds.2 w.2.staffMemberId none < settings.maxAppointmentsPerDay then
        return some ⟨w.1, w.2.startAt, w.2.endAt, w.2.staffMemberId, some terms⟩
      else return none
    else return none

/-- `list_availability`. -/
def listAvailability (c : Catalog) (telegramId : Int) (serviceId : Nat) (addonIds : List Nat)
    (staffMemberId : Option Nat) (localDate : Option Int) (now : Int) (db : Db) : Check (List BookingWindowView) := do
  c.requireFeature .onlineBooking
  let _ ← consentedClient c telegramId false
  let settings ← c.requireSettings
  let service ← activeService c serviceId
  let addons ← selectedAddons c serviceId addonIds
  require (∀ s ∈ staffMemberId, (c.bookableAssignment serviceId s).isSome = true)
    (.bookingUnavailable "Selected master is not available")
  let views ← (settings.openWindows now db).mapM
    (availableWindow c settings service serviceId addons staffMemberId localDate db)
  return views.filterMap id

end BookingService

namespace RescheduleService

/-- One round of `_options`. -/
def isOption (c : Catalog) (settings : BusinessSettings) (appointmentId : Nat) (appointment : Appointment) (db : Db)
    (w : Nat × Window) : Bool :=
  let localDate := settings.timezone.localDate w.2.startAt
  let bounds := settings.timezone.utcDayBounds localDate
  w.1 != appointment.windowId && (c.bookableAssignment appointment.serviceId w.2.staffMemberId).isSome &&
    Decidable.decide (minutes appointment.durationMaxSnapshot ≤ w.2.endAt - w.2.startAt) &&
    settings.opensOn localDate &&
    Decidable.decide
      (db.countCapacityOfDay bounds.1 bounds.2 (some appointmentId) < settings.maxAppointmentsPerDay) &&
    c.hasAvailableExcept db appointment.serviceId w.2.startAt w.2.endAt (some appointmentId)

/-- `_options`. -/
def options (c : Catalog) (settings : BusinessSettings) (appointmentId : Nat) (appointment : Appointment) (now : Int)
    (db : Db) : List BookingWindowView :=
  ((settings.openWindows now db).filter (isOption c settings appointmentId appointment db)).map fun w =>
    ⟨w.1, w.2.startAt, w.2.endAt, w.2.staffMemberId, none⟩

/-- `list_my_options` and `list_admin_options`. -/
def listOptions (c : Catalog) (actor : RescheduleActor) (appointmentId : Nat) (now : Int) (db : Db) :
    Check (List BookingWindowView) := do
  match actor with
  | .client telegramId =>
    let clientId ← c.requireClient telegramId
    let appointment ← AppointmentService.requireAppointment db appointmentId
    ensureOwner appointment clientId
    let settings ← c.requireSettings
    let oldWindow ← orRaise (db.windows.row appointment.windowId)
      (.appointmentNotFound "Окно записи не найдено.")
    ensureActiveAppointment appointment.status
    ensureClientRescheduleDeadline oldWindow.startAt now settings.rescheduleDeadline
    return options c settings appointmentId appointment now db
  | .admin telegramId =>
    c.ensureAdmin telegramId
    let appointment ← AppointmentService.requireAppointment db appointmentId
    let settings ← c.requireSettings
    let _ ← orRaise (db.windows.row appointment.windowId)
      (.appointmentNotFound "Окно записи не найдено.")
    ensureActiveAppointment appointment.status
    return options c settings appointmentId appointment now db

end RescheduleService

end SalonBooking
