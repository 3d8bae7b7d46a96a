import SalonBooking.Delivery.Rows
import SalonBooking.Model.System
import SalonBooking.Reviews.Publication

/-!
# The owner's hard delete of a service

`force_delete_service` and `delete_service_with_history`. Every foreign key of the schema is RESTRICT, so the cascade
is written out: it collects the appointments of the service and their windows, deletes what refers to them table by
table, and closes the windows.
-/

namespace SalonBooking

open Lib

/-- `appointment_addon_snapshots`. -/
structure AppointmentAddonSnapshot where
  appointmentId : Nat
  serviceAddonId : Nat
  deriving DecidableEq

/-- The tables that the cascade reads or writes; of the link tables, the column that it looks at. -/
structure SalonRecords where
  db : Db
  /-- `availability_windows.service_id` and `workstation_id`, which nothing else writes. -/
  windowService : Nat → Option Nat
  windowWorkstation : Nat → Option Nat
  services : Table Service
  addons : Table ServiceAddon
  addonSnapshots : Table AppointmentAddonSnapshot
  waitlistEntries : Table WaitlistEntry
  waitlistNotifications : Table WaitlistNotification
  jobs : Table NotificationJob
  reviews : ReviewDb
  /-- `appointment_reference_media.appointment_id`. -/
  referenceMedia : Table Nat
  /-- `staff_service_assignments.service_id`. -/
  assignments : Table Nat
  /-- `workstation_services.service_id`. -/
  workstationServices : Table Nat
  portfolio : Table PortfolioItem

namespace HardDeleteRepository

/-- `_delete_waitlist_entries`. -/
def deleteWaitlistEntries (entryIds : List Nat) (s : SalonRecords) : SalonRecords :=
  if entryIds = [] then s
  else
    { s with
      waitlistNotifications := s.waitlistNotifications.deleteWhere fun _ n => n.waitlistEntryId ∈ entryIds
      waitlistEntries := s.waitlistEntries.deleteWhere fun i _ => i ∈ entryIds }

/-- The payments of the deleted appointments, with their refunds and webhook events. -/
def deletePayments (paymentIds : List Nat) (s : SalonRecords) : SalonRecords :=
  if paymentIds = [] then s
  else
    { s with
      db := { s.db with
        refunds := s.db.refunds.deleteWhere fun _ r => r.paymentId ∈ paymentIds
        events := s.db.events.deleteWhere fun _ e => e.paymentId.any (· ∈ paymentIds)
        payments := s.db.payments.deleteWhere fun i _ => i ∈ paymentIds } }

/-- The reviews of the deleted appointments, with their revisions. -/
def deleteReviews (reviewIds : List Nat) (s : SalonRecords) : SalonRecords :=
  if reviewIds = [] then s
  else
    { s with
      reviews := {
        revisions := s.reviews.revisions.filter fun r => r.reviewId ∉ reviewIds
        reviews := s.reviews.reviews.deleteWhere fun i _ => i ∈ reviewIds } }

/-- The rows of `scoped_models` and the status history. -/
def deleteScoped (appointmentIds : List Nat) (s : SalonRecords) : SalonRecords :=
  { s with
    jobs := s.jobs.deleteWhere fun _ j => j.appointmentId ∈ appointmentIds
    referenceMedia := s.referenceMedia.deleteWhere fun _ appointmentId => appointmentId ∈ appointmentIds
    addonSnapshots := s.addonSnapshots.deleteWhere fun _ a => a.appointmentId ∈ appointmentIds
    db := { s.db with
      reservations := s.db.reservations.deleteWhere fun _ r => r.appointmentId.any (· ∈ appointmentIds)
      history := s.db.history.filter fun h => h.appointmentId ∉ appointmentIds } }

/-- `_delete_appointments`. -/
def deleteAppointments (appointmentIds : List Nat) (s : SalonRecords) : SalonRecords :=
  if appointmentIds = [] then s
  else
    let s := deletePayments (s.db.payments.keysWhere fun _ p => p.appointmentId ∈ appointmentIds) s
    let s := deleteReviews (s.reviews.reviews.keysWhere fun _ r => r.appointmentId ∈ appointmentIds) s
    let s := deleteWaitlistEntries
      (s.waitlistEntries.keysWhere fun _ e => e.bookedAppointmentId.any (· ∈ appointmentIds)) s
    let s := deleteScoped appointmentIds s
    { s with
      db := { s.db with
        appointments := (s.db.appointments.updateWhere (fun _ a => a.rescheduledFromId.any (· ∈ appointmentIds))
          fun a => { a with rescheduledFromId := none }).deleteWhere fun i _ => i ∈ appointmentIds } }

/-- The windows that the last part of the cascade closes. -/
def closeWindows (serviceId : Nat) (windowIds : List Nat) (s : SalonRecords) : SalonRecords :=
  let closes := fun i => s.windowService i = some serviceId || i ∈ windowIds
  { s with
    db := { s.db with windows := s.db.windows.updateWhere (fun i _ => closes i) fun w => { w with status := .closed } }
    windowService := fun i => if closes i then none else s.windowService i
    windowWorkstation := fun i => if closes i then none else s.windowWorkstation i }

/-- What refers to the service itself, and the service. -/
def deleteCatalogRows (serviceId : Nat) (s : SalonRecords) : SalonRecords :=
  { s with
    assignments := s.assignments.deleteWhere fun _ service => service = serviceId
    workstationServices := s.workstationServices.deleteWhere fun _ service => service = serviceId
    portfolio := s.portfolio.updateWhere (fun _ p => p.linkedServiceId = some serviceId) fun p => { p with linkedServiceId := none }
    addons := s.addons.deleteWhere fun _ a => a.serviceId = serviceId
    services := s.services.deleteWhere fun i _ => i = serviceId }

/-- What the cascade deletes before the appointments: requests of the service or booked into one of its appointments,
reservations, and the snapshots of its add-ons. -/
def deleteServiceRows (serviceId : Nat) (appointmentIds : List Nat) (s : SalonRecords) : SalonRecords :=
  let s := deleteWaitlistEntries (s.waitlistEntries.keysWhere fun _ e =>
    e.serviceId = serviceId || e.bookedAppointmentId.any (· ∈ appointmentIds)) s
  let s := { s with db := { s.db with
    reservations := s.db.reservations.deleteWhere fun _ r => r.serviceId = serviceId } }
  let addonIds := s.addons.keysWhere fun _ a => a.serviceId = serviceId
  if addonIds = [] then s
  else { s with addonSnapshots := s.addonSnapshots.deleteWhere fun _ a => a.serviceAddonId ∈ addonIds }

/-- `delete_service_with_history`. -/
def deleteServiceWithHistory (serviceId : Nat) (s : SalonRecords) : Nat × SalonRecords :=
  let appointmentIds := s.db.appointments.keysWhere fun _ a => a.serviceId = serviceId
  let windowIds := appointmentIds.filterMap fun i => (s.db.appointments.row i).map (·.windowId)
  let s := deleteAppointments appointmentIds (deleteServiceRows serviceId appointmentIds s)
  (appointmentIds.length, deleteCatalogRows serviceId (closeWindows serviceId windowIds s))

end HardDeleteRepository

namespace ServiceCatalog

/-- `ensure_owner_admin`; `context` is the staff context of the request, when there is one. -/
def ensureOwnerAdmin (c : Catalog) (actor : Int) (context : Option StaffContext) : Check Unit := do
  c.ensureAdmin actor
  match context with
  | none => return ()
  | some context =>
    require (context.role = .owner) (.authorization "Принудительное удаление доступно только владельцу бизнеса.")

/-- `force_delete_service`. -/
def forceDeleteService (c : Catalog) (actor : Int) (context : Option StaffContext) (serviceId : Nat) (s : SalonRecords) :
    Check (Nat × SalonRecords) := do
  ensureOwnerAdmin c actor context
  let _ ← orRaise (s.services.row serviceId) (.entityNotFound "Услуга не найдена.")
  return HardDeleteRepository.deleteServiceWithHistory serviceId s

end ServiceCatalog

end SalonBooking
